import Mathlib.Data.List.Infix
import Mathlib.Tactic.Common

/-! Where one list stands in another, and edits that replace it there. -/
namespace Occurrence

variable {α : Type*}

/-- `part` stands in `text` from position `i` on. -/
def At (part text : List α) (i : Nat) : Prop := part <+: text.drop i

instance [DecidableEq α] (part text : List α) (i : Nat) : Decidable (At part text i) :=
  inferInstanceAs (Decidable (part <+: text.drop i))

def replaceAt (part put text : List α) (i : Nat) : List α :=
  text.take i ++ put ++ text.drop (i + part.length)

/-- `i` is the only position of `part`. -/
def Once (part text : List α) (i : Nat) : Prop := At part text i ∧ ∀ j, At part text j → j = i

/-- `i` is the first position of `part`, and every other one overlaps it. -/
def Clumped (part text : List α) (i : Nat) : Prop :=
  At part text i ∧ ∀ j, At part text j → i ≤ j ∧ j < i + part.length

section
variable {part text : List α} {i j : Nat}

theorem at_drop (n : Nat) : At part (text.drop n) i ↔ At part text (n + i) := by
  simp only [At, List.drop_drop]

@[simp] theorem at_succ (c : α) : At part (c :: text) (i + 1) ↔ At part text i := by
  simp [At]

theorem not_at_nil (nonempty : part ≠ []) : ¬ At part ([] : List α) i := by
  simpa [At] using nonempty

theorem Once.clumped (nonempty : part ≠ []) (once : Once part text i) : Clumped part text i := by
  have long := List.length_pos_iff.mpr nonempty
  refine ⟨once.1, fun j stands => ?_⟩
  have := once.2 j stands
  omega

theorem Clumped.position (first : Clumped part text i) (second : Clumped part text j) : i = j := by
  have := first.2 j second.1
  have := second.2 i first.1
  omega

theorem Clumped.once_or_twice (clumped : Clumped part text i) :
    Once part text i ∨ ∃ j, j ≠ i ∧ At part text j := by
  by_cases alone : ∀ j, At part text j → j = i
  · exact .inl ⟨clumped.1, alone⟩
  · push Not at alone
    obtain ⟨j, stands, other⟩ := alone
    exact .inr ⟨j, other, stands⟩

/-- No proper end of the list is also its beginning. -/
def Unbordered (part : List α) : Prop := ∀ k, 0 < k → k < part.length → ¬ part.drop k <+: part

/-- Two positions that overlap leave a piece of `part` that it both begins and ends with. -/
theorem border_of_at (first : At part text i) (second : At part text j) (before : i ≤ j) :
    part.drop (j - i) <+: part := by
  have later : part.drop (j - i) <+: text.drop j := by
    have shifted := List.IsPrefix.drop first (j - i)
    rwa [List.drop_drop, show i + (j - i) = j by omega] at shifted
  exact List.prefix_of_prefix_length_le later second (by simp)

theorem Clumped.once (unbordered : Unbordered part) (clumped : Clumped part text i) :
    Once part text i := by
  refine ⟨clumped.1, fun j stands => ?_⟩
  obtain ⟨before, overlap⟩ := clumped.2 j stands
  by_contra other
  exact unbordered (j - i) (by omega) (by omega) (border_of_at clumped.1 stands before)

theorem clumped_zero (starts : At part text 0) :
    Clumped part text i ↔ i = 0 ∧ ∀ k, ¬ At part (text.drop part.length) k := by
  constructor
  · intro clumped
    obtain rfl : i = 0 := by
      have := clumped.2 0 starts
      omega
    refine ⟨rfl, fun k stands => ?_⟩
    have := clumped.2 _ ((at_drop part.length).mp stands)
    omega
  · rintro ⟨rfl, gone⟩
    refine ⟨starts, fun j stands => ⟨Nat.zero_le j, ?_⟩⟩
    by_contra far
    refine gone (j - part.length) ((at_drop part.length).mpr ?_)
    rwa [show part.length + (j - part.length) = j by omega]

theorem clumped_succ {c : α} (elsewhere : ¬ At part (c :: text) 0) :
    Clumped part (c :: text) i ↔ ∃ k, i = k + 1 ∧ Clumped part text k := by
  cases i with
  | zero => exact ⟨fun clumped => absurd clumped.1 elsewhere, by rintro ⟨k, same, _⟩; omega⟩
  | succ i =>
    constructor
    · intro clumped
      refine ⟨i, rfl, (at_succ c).mp clumped.1, fun j stands => ?_⟩
      have := clumped.2 (j + 1) ((at_succ c).mpr stands)
      omega
    · rintro ⟨k, same, clumped⟩
      obtain rfl : i = k := by omega
      refine ⟨(at_succ c).mpr clumped.1, fun j stands => ?_⟩
      cases j with
      | zero => exact absurd stands elsewhere
      | succ j =>
        have := clumped.2 j ((at_succ c).mp stands)
        omega

end

/-- A replacement of one piece of text; the piece is not empty. -/
structure Edit (α : Type*) where
  find : List α
  replace : List α
  nonempty : find ≠ []

/-- The edits one after another, each at a position that `picks` accepts in the text it finds. -/
inductive Replaces (picks : List α → List α → Nat → Prop) :
    List (Edit α) → List α → List α → Prop
  | done (text : List α) : Replaces picks [] text text
  | edit {e : Edit α} {rest : List (Edit α)} {text out : List α} {i : Nat}
      (found : picks e.find text i)
      (next : Replaces picks rest (replaceAt e.find e.replace text i) out) :
      Replaces picks (e :: rest) text out

section
variable {picks : List α → List α → Nat → Prop} {edits : List (Edit α)} {text out : List α}

@[simp] theorem replaces_nil : Replaces picks [] text out ↔ out = text := by
  constructor
  · rintro ⟨⟩
    rfl
  · rintro rfl
    exact .done out

theorem replaces_cons {e : Edit α} : Replaces picks (e :: edits) text out ↔
    ∃ i, picks e.find text i ∧ Replaces picks edits (replaceAt e.find e.replace text i) out := by
  constructor
  · rintro ⟨⟩
    exact ⟨_, ‹_›, ‹_›⟩
  · rintro ⟨i, found, rest⟩
    exact .edit found rest

theorem Replaces.mono {wider : List α → List α → Nat → Prop}
    (imp : ∀ part text i, part ≠ [] → picks part text i → wider part text i)
    (run : Replaces picks edits text out) : Replaces wider edits text out := by
  induction run with
  | done text => exact .done text
  | @edit e _ _ _ _ found _ ih => exact .edit (imp _ _ _ e.nonempty found) ih

theorem Replaces.clumped (run : Replaces Once edits text out) : Replaces Clumped edits text out :=
  run.mono fun _ _ _ nonempty once => once.clumped nonempty

theorem Replaces.unique {other : List α} (run : Replaces Clumped edits text out)
    (again : Replaces Clumped edits text other) : other = out := by
  induction run with
  | done text => exact replaces_nil.mp again
  | edit found _ ih =>
    obtain ⟨j, found', rest⟩ := replaces_cons.mp again
    obtain rfl := found.position found'
    exact ih rest

theorem Replaces.once (unbordered : ∀ e ∈ edits, Unbordered e.find)
    (run : Replaces Clumped edits text out) : Replaces Once edits text out := by
  induction run with
  | done text => exact .done text
  | edit found _ ih =>
    have head := unbordered _ List.mem_cons_self
    exact .edit (found.once head) (ih fun e member => unbordered e (List.mem_cons_of_mem _ member))

/-- Some edit comes to a text in which its piece has another position than the one it picks. -/
def Twice (edits : List (Edit α)) (text : List α) : Prop :=
  ∃ before e after middle i j, edits = before ++ e :: after ∧
    Replaces Clumped before text middle ∧ At e.find middle i ∧ At e.find middle j ∧ i ≠ j

theorem twice_cons_of {e : Edit α} {i : Nat} (found : Clumped e.find text i)
    (twice : Twice edits (replaceAt e.find e.replace text i)) : Twice (e :: edits) text := by
  obtain ⟨before, other, after, middle, j, k, rfl, run, first, second, apart⟩ := twice
  exact ⟨e :: before, other, after, middle, j, k, rfl, .edit found run, first, second, apart⟩

/-- Every edit has one position only, unless some edit meets two. -/
theorem Replaces.once_or_twice (run : Replaces Clumped edits text out) :
    Replaces Once edits text out ∨ Twice edits text := by
  induction run with
  | done text => exact .inl (.done text)
  | @edit e rest text _ i found _ ih =>
    obtain once | ⟨j, other, stands⟩ := found.once_or_twice
    · exact ih.imp (.edit once) (twice_cons_of found)
    · exact .inr ⟨[], e, rest, text, j, i, rfl, .done text, stands, found.1, other⟩

theorem Replaces.not_twice (run : Replaces Once edits text out) : ¬ Twice edits text := by
  rintro ⟨before, e, after, middle, i, j, rfl, reached, first, second, apart⟩
  induction before generalizing text with
  | nil =>
    obtain rfl := replaces_nil.mp reached
    obtain ⟨k, once, _⟩ := replaces_cons.mp run
    exact apart ((once.2 i first).trans (once.2 j second).symm)
  | cons b before ih =>
    obtain ⟨k, once, rest⟩ := replaces_cons.mp run
    obtain ⟨l, found, reached⟩ := replaces_cons.mp reached
    obtain rfl := found.position (once.clumped b.nonempty)
    exact ih rest reached

end

/-! Replacing every occurrence, from left to right -/

section
variable [DecidableEq α] (part put : List α)

/-- `skip` items are left of the occurrence that has just been replaced. -/
def replaceFrom : Nat → List α → List α
  | _, [] => []
  | skip + 1, _ :: rest => replaceFrom skip rest
  | 0, c :: rest =>
    if part <+: c :: rest then put ++ replaceFrom (part.length - 1) rest
    else c :: replaceFrom 0 rest

def replaceAll (text : List α) : List α := replaceFrom part put 0 text

variable {part put}

theorem replaceFrom_eq (skip : Nat) (text : List α) :
    replaceFrom part put skip text = replaceAll part put (text.drop skip) := by
  induction skip generalizing text with
  | zero => rfl
  | succ skip ih =>
    cases text with
    | nil => rfl
    | cons c rest => exact ih rest

theorem replaceAll_part (nonempty : part ≠ []) (rest : List α) :
    replaceAll part put (part ++ rest) = put ++ replaceAll part put rest := by
  obtain ⟨c, tail, rfl⟩ := List.exists_cons_of_ne_nil nonempty
  have starts : c :: tail <+: c :: (tail ++ rest) := List.prefix_append (c :: tail) rest
  rw [List.cons_append, replaceAll, replaceFrom, if_pos starts, replaceFrom_eq]
  simp

theorem replaceAll_cons {c : α} {rest : List α} (other : ¬ part <+: c :: rest) :
    replaceAll part put (c :: rest) = c :: replaceAll part put rest := by
  rw [replaceAll, replaceFrom, if_neg other]
  rfl

/-- The cases in which the replacement goes on over a text. -/
theorem replaceAll_induction {motive : List α → Prop} (nonempty : part ≠ []) (nil : motive [])
    (found : ∀ rest, motive rest → motive (part ++ rest))
    (other : ∀ c rest, ¬ part <+: c :: rest → motive rest → motive (c :: rest)) (text : List α) :
    motive text := by
  have some : 0 < part.length := List.length_pos_iff.mpr nonempty
  have bounded : ∀ n, ∀ text : List α, text.length ≤ n → motive text := by
    intro n
    induction n with
    | zero => exact fun text short => List.length_eq_zero_iff.mp (Nat.le_zero.mp short) ▸ nil
    | succ n ih =>
      intro text short
      match text with
      | [] => exact nil
      | c :: rest =>
        by_cases starts : part <+: c :: rest
        · obtain ⟨tail, same⟩ := starts
          have length := congrArg List.length same
          rw [List.length_append] at length
          rw [← same]
          exact found tail (ih tail (by omega))
        · exact other c rest starts (ih rest (Nat.le_of_succ_le_succ short))
  exact bounded text.length text le_rfl

theorem mem_replaceAll (nonempty : part ≠ []) {text : List α} {x : α}
    (member : x ∈ replaceAll part put text) : x ∈ put ∨ x ∈ text := by
  induction text using replaceAll_induction nonempty with
  | nil => cases member
  | found rest ih =>
    rw [replaceAll_part nonempty, List.mem_append] at member
    obtain replaced | later := member
    · exact .inl replaced
    · exact (ih later).imp_right (List.mem_append_right part)
  | other c rest starts ih =>
    rw [replaceAll_cons starts, List.mem_cons] at member
    obtain rfl | later := member
    · exact .inr List.mem_cons_self
    · exact (ih later).imp_right (List.mem_cons_of_mem c)

omit [DecidableEq α] in
theorem map_prefix_map {β : Type*} {f : α → β} {part text : List α}
    (faithful : ∀ x, ∀ p ∈ part, f x = f p → x = p) (starts : part.map f <+: text.map f) :
    part <+: text := by
  induction part generalizing text with
  | nil => exact List.nil_prefix
  | cons p part ih =>
    cases text with
    | nil => exact absurd (List.prefix_nil.mp starts) (by simp)
    | cons x text =>
      simp only [List.map_cons, List.cons_prefix_cons] at starts
      rw [List.cons_prefix_cons]
      exact ⟨(faithful x p List.mem_cons_self starts.1.symm).symm,
        ih (fun x p member => faithful x p (List.mem_cons_of_mem _ member)) starts.2⟩

/-- Items may be recoded first, if nothing is taken for an item of `part` that was none. -/
theorem replaceAll_map {β : Type*} [DecidableEq β] (f : α → β) (nonempty : part ≠ [])
    (faithful : ∀ x, ∀ p ∈ part, f x = f p → x = p) (text : List α) :
    (replaceAll part put text).map f = replaceAll (part.map f) (put.map f) (text.map f) := by
  have nonempty' : part.map f ≠ [] := by simpa using nonempty
  induction text using replaceAll_induction nonempty with
  | nil => rfl
  | found rest ih =>
    rw [replaceAll_part nonempty, List.map_append, List.map_append, replaceAll_part nonempty', ih]
  | other c rest starts ih =>
    have starts' : ¬ part.map f <+: f c :: rest.map f := fun found =>
      starts (map_prefix_map faithful found)
    rw [replaceAll_cons starts, List.map_cons, List.map_cons, replaceAll_cons starts', ih]

omit [DecidableEq α] in
/-- An occurrence does not reach over an item that `part` does not have. -/
theorem prefix_of_separated {sep : α} (apart : sep ∉ part) {a b : List α}
    (starts : part <+: a ++ sep :: b) : part <+: a := by
  obtain inside | ⟨tail, rfl⟩ := List.prefix_or_prefix_of_prefix starts (List.prefix_append a _)
  · exact inside
  · cases tail with
    | nil => rw [List.append_nil]
    | cons x tail =>
      obtain ⟨rfl, _⟩ := List.cons_prefix_cons.mp ((List.prefix_append_right_inj a).mp starts)
      exact absurd (List.mem_append_right a List.mem_cons_self) apart

theorem replaceAll_separated {sep : α} (nonempty : part ≠ []) (apart : sep ∉ part) (a b : List α) :
    replaceAll part put (a ++ sep :: b) = replaceAll part put a ++ sep :: replaceAll part put b := by
  induction a using replaceAll_induction nonempty with
  | nil =>
    have other : ¬ part <+: sep :: b := fun starts =>
      nonempty (List.prefix_nil.mp (prefix_of_separated apart (a := []) starts))
    rw [List.nil_append, replaceAll_cons other]
    rfl
  | found rest ih =>
    rw [List.append_assoc, replaceAll_part nonempty, replaceAll_part nonempty, ih,
      List.append_assoc]
  | other c rest starts ih =>
    have starts' : ¬ part <+: c :: (rest ++ sep :: b) := fun found =>
      starts (prefix_of_separated apart found)
    rw [List.cons_append, replaceAll_cons starts', replaceAll_cons starts, ih, List.cons_append]

end

end Occurrence
