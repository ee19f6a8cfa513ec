import Mathlib.Data.List.Nodup
import Mathlib.Data.List.Perm.Basic
import Mathlib.Data.List.Sort
import Mathlib.Order.Defs.LinearOrder
import Mathlib.Tactic.Common

/-! A table read page by page, each page by a query of its own. A sort key that rows share leaves the
order among them to whoever answers, so the pages need not be those of one answer. -/
namespace Paging

variable {α κ : Type*}

/-- Which of two rows comes first; both do where they tie. -/
structure Ranking (α : Type*) where
  le : α → α → Prop
  total : ∀ a b, le a b ∨ le b a
  trans : ∀ a b c, le a b → le b c → le a c
  decides : DecidableRel le

/-- ORDER BY a key. -/
def Ranking.on [LinearOrder κ] (key : α → κ) : Ranking α where
  le a b := key a ≤ key b
  total a b := le_total (key a) (key b)
  trans _ _ _ := le_trans
  decides _ _ := inferInstance

def Ranking.comap {β : Type*} (r : Ranking β) (key : α → β) : Ranking α where
  le a b := r.le (key a) (key b)
  total a b := r.total (key a) (key b)
  trans _ _ _ := r.trans _ _ _
  decides a b := r.decides (key a) (key b)

instance (r : Ranking α) : DecidableRel r.le := r.decides

/-- The rows of a query, in an order that it allows. -/
structure IsAnswer (r : Ranking α) (rows answer : List α) : Prop where
  perm : answer.Perm rows
  sorted : answer.Pairwise r.le

/-- What carries out ORDER BY: for any rows, one of the orders allowed. -/
structure OrderBy (r : Ranking α) where
  run : List α → List α
  valid : ∀ rows, IsAnswer r rows (run rows)

/-- Rows that tie stay as they were. -/
def OrderBy.stable (r : Ranking α) : OrderBy r where
  run := List.insertionSort r.le
  valid rows := by
    have : Std.Total r.le := ⟨r.total⟩
    have : IsTrans α r.le := ⟨r.trans⟩
    exact ⟨List.perm_insertionSort r.le rows, List.pairwise_insertionSort r.le rows⟩

/-- Rows that tie change places. -/
def OrderBy.backward (r : Ranking α) : OrderBy r where
  run rows := (OrderBy.stable r).run rows.reverse
  valid rows := by
    obtain ⟨perm, sorted⟩ := (OrderBy.stable r).valid rows.reverse
    exact ⟨perm.trans (List.reverse_perm rows), sorted⟩

open Classical in
/-- This answer for these rows. -/
noncomputable def OrderBy.giving {r : Ranking α} {rows answer : List α}
    (valid : IsAnswer r rows answer) : OrderBy r where
  run other := if other = rows then answer else (OrderBy.stable r).run other
  valid other := by
    by_cases same : other = rows
    · rw [if_pos same, same]
      exact valid
    · rw [if_neg same]
      exact (OrderBy.stable r).valid other

theorem OrderBy.giving_run {r : Ranking α} {rows answer : List α}
    (valid : IsAnswer r rows answer) : (OrderBy.giving valid).run rows = answer := if_pos rfl

/-- LIMIT and OFFSET. -/
def page (answer : List α) (offset limit : Nat) : List α := (answer.drop offset).take limit

/-- The first `n` pages, each of its own answer. -/
def reading (answers : Nat → List α) (limit step n : Nat) : List α :=
  (List.range n).flatMap fun k => page (answers k) (k * step) limit

section
variable (r : Ranking α) (rows : List α)

/-- How many rows come before `x` in any answer. -/
def before (x : α) : Nat := rows.countP fun y => ¬ r.le x y

/-- How many rows come before `x` or tie with it, `x` with them. -/
def upto (x : α) : Nat := rows.countP fun y => r.le y x

/-- Rows that tie stand on both sides of the place `b`. -/
def Straddles (b : Nat) : Prop := ∃ x ∈ rows, before r rows x < b ∧ b < upto r rows x

end

section
variable {r : Ranking α} {rows answer other : List α}

theorem Ranking.refl (r : Ranking α) (x : α) : r.le x x := (r.total x x).elim id id

theorem IsAnswer.place {front back : List α} {x : α} (valid : IsAnswer r rows (front ++ x :: back)) :
    before r rows x ≤ front.length ∧ front.length < upto r rows x := by
  obtain ⟨_, later, across⟩ := List.pairwise_append.mp valid.sorted
  have later := (List.pairwise_cons.mp later).1
  constructor
  · have none_later : (x :: back).countP (fun y => ¬ r.le x y) = 0 := by
      refine List.countP_eq_zero.mpr fun y member => ?_
      rcases List.mem_cons.mp member with rfl | member
      · simpa using r.refl y
      · simpa using later y member
    rw [before, ← valid.perm.countP_eq, List.countP_append, none_later]
    exact List.countP_le_length
  · have all_earlier : front.countP (fun y => r.le y x) = front.length :=
      List.countP_eq_length.mpr fun y member =>
        decide_eq_true (across y member x List.mem_cons_self)
    have own : (x :: back).countP (fun y => r.le y x) =
        back.countP (fun y => r.le y x) + 1 :=
      List.countP_cons_of_pos (decide_eq_true (r.refl x))
    rw [upto, ← valid.perm.countP_eq, List.countP_append, all_earlier, own]
    omega

theorem upto_le_before (rows : List α) {x y : α} (apart : ¬ r.le x y) :
    upto r rows y ≤ before r rows x := by
  refine List.countP_mono_left fun z _ below => ?_
  have below := of_decide_eq_true below
  exact decide_eq_true fun above => apart (r.trans x z y above below)

theorem mem_page {x : α} {offset limit : Nat} (member : x ∈ page answer offset limit) :
    ∃ front back, answer = front ++ x :: back ∧ offset ≤ front.length ∧
      front.length < offset + limit := by
  obtain ⟨ahead, behind, split⟩ := List.append_of_mem member
  have some : answer.drop offset ≠ [] := by
    intro empty
    rw [page, empty, List.take_nil] at split
    cases ahead <;> cases split
  have long : offset ≤ answer.length := by
    by_contra short
    exact some (List.drop_eq_nil_of_le (by omega))
  have length := congrArg List.length split
  rw [page, List.length_take, List.length_append, List.length_cons] at length
  refine ⟨answer.take offset ++ ahead, behind ++ (answer.drop offset).drop limit, ?_, ?_, ?_⟩
  · calc answer = answer.take offset ++ (page answer offset limit ++
          (answer.drop offset).drop limit) := by
            rw [page, List.take_append_drop, List.take_append_drop]
      _ = _ := by rw [split]; simp
  · simp only [List.length_append, List.length_take]
    omega
  · simp only [List.length_append, List.length_take]
    omega

theorem mem_page_of_place {front back : List α} {x : α} {offset limit : Nat}
    (from_here : offset ≤ front.length) (to_here : front.length < offset + limit) :
    x ∈ page (front ++ x :: back) offset limit := by
  rw [page, List.drop_append_of_le_length from_here, List.take_append]
  refine List.mem_append_right _ ?_
  have length : (front.drop offset).length = front.length - offset := List.length_drop
  obtain ⟨n, room⟩ : ∃ n, limit - (front.drop offset).length = n + 1 :=
    ⟨limit - (front.drop offset).length - 1, by omega⟩
  rw [room, List.take_succ_cons]
  exact List.mem_cons_self

/-! Where no tie is cut, every answer has the same page -/

theorem mem_take_iff (valid : IsAnswer r rows answer) {b : Nat} (whole : ¬ Straddles r rows b)
    {x : α} : x ∈ answer.take b ↔ x ∈ rows ∧ upto r rows x ≤ b := by
  have same : answer.take b = page answer 0 b := by rw [page, List.drop_zero]
  constructor
  · intro member
    rw [same] at member
    obtain ⟨front, back, rfl, _, short⟩ := mem_page member
    have listed : x ∈ rows := valid.perm.mem_iff.mp (by simp)
    have place := valid.place
    refine ⟨listed, ?_⟩
    by_contra more
    exact whole ⟨x, listed, by omega, by omega⟩
  · rintro ⟨listed, few⟩
    obtain ⟨front, back, rfl⟩ := List.append_of_mem (valid.perm.mem_iff.mpr listed)
    have place := valid.place
    rw [same]
    exact mem_page_of_place (Nat.zero_le _) (by omega)

theorem take_perm (distinct : rows.Nodup) (valid : IsAnswer r rows answer)
    (valid' : IsAnswer r rows other) {b : Nat} (whole : ¬ Straddles r rows b) :
    (answer.take b).Perm (other.take b) := by
  have nodup : ∀ {list : List α}, IsAnswer r rows list → (list.take b).Nodup := fun valid =>
    (valid.perm.nodup_iff.mpr distinct).sublist (List.take_sublist _ _)
  refine (List.perm_ext_iff_of_nodup (nodup valid) (nodup valid')).mpr fun x => ?_
  rw [mem_take_iff valid whole, mem_take_iff valid' whole]

theorem take_page (answer : List α) (b limit : Nat) :
    answer.take (b + limit) = answer.take b ++ page answer b limit := by
  rw [page, List.take_add]

theorem page_perm (distinct : rows.Nodup) (valid : IsAnswer r rows answer)
    (valid' : IsAnswer r rows other) {b limit : Nat} (start : ¬ Straddles r rows b)
    (stop : ¬ Straddles r rows (b + limit)) : (page answer b limit).Perm (page other b limit) := by
  have all := take_perm distinct valid valid' stop
  rw [take_page, take_page] at all
  have first := (take_perm distinct valid valid' start).symm
  exact (List.perm_append_left_iff _).mp ((first.append_right _).trans all)

/-! The pages of a table -/

variable {answers : Nat → List α} {limit step n : Nat}

theorem reading_succ (answers : Nat → List α) (limit step n : Nat) :
    reading answers limit step (n + 1) =
      reading answers limit step n ++ page (answers n) (n * step) limit := by
  rw [reading, List.range_succ, List.flatMap_append, List.flatMap_singleton]
  rfl

theorem reading_perm (distinct : rows.Nodup) (valid : ∀ k, IsAnswer r rows (answers k))
    (whole : ∀ k, ¬ Straddles r rows (k * step)) (all : rows.length ≤ n * step) :
    (reading answers step step n).Perm rows := by
  have taken : ∀ m, (reading answers step step m).Perm ((answers 0).take (m * step)) := by
    intro m
    induction m with
    | zero => simp [reading]
    | succ m ih =>
      have next := page_perm distinct (valid m) (valid 0) (whole m)
        (by simpa [Nat.succ_mul] using whole (m + 1))
      rw [reading_succ, Nat.succ_mul, take_page]
      exact ih.append next
  have length := (valid 0).perm.length_eq
  have end_ : (answers 0).take (n * step) = answers 0 := List.take_of_length_le (by omega)
  exact (end_ ▸ taken n).trans (valid 0).perm

/-- However ties are resolved, what is read is in order. -/
theorem reading_sorted (valid : ∀ k, IsAnswer r rows (answers k)) (apart : limit ≤ step) :
    (reading answers limit step n).Pairwise r.le := by
  refine List.pairwise_flatMap.mpr ⟨fun k _ => ?_, ?_⟩
  · exact ((valid k).sorted.sublist (List.drop_sublist _ _)).sublist (List.take_sublist _ _)
  · refine List.pairwise_lt_range.imp fun {k m} less x here y there => ?_
    by_contra inverted
    obtain ⟨front, back, split, _, short⟩ := mem_page here
    obtain ⟨front', back', split', long, _⟩ := mem_page there
    have first := (split ▸ valid k).place
    have second := (split' ▸ valid m).place
    have cut := upto_le_before rows inverted
    have steps : (k + 1) * step ≤ m * step := Nat.mul_le_mul_right step less
    rw [Nat.succ_mul] at steps
    omega

/-! Where a tie is cut, two answers show a row twice -/

/-- On both sides of a cut tie stand rows that may change places. -/
theorem exists_swap (valid : IsAnswer r rows answer) {b : Nat} (cut : Straddles r rows b) :
    ∃ front x y back, front.length + 1 = b ∧ answer = front ++ x :: y :: back ∧
      IsAnswer r rows (front ++ y :: x :: back) := by
  obtain ⟨z, listed, low, high⟩ := cut
  have most : upto r rows z ≤ answer.length := by
    rw [valid.perm.length_eq]
    exact List.countP_le_length
  obtain ⟨x, rest, ahead⟩ : ∃ x rest, answer.drop (b - 1) = x :: rest :=
    List.exists_cons_of_ne_nil (by simp; omega)
  obtain ⟨y, back, rfl⟩ : ∃ y back, rest = y :: back := by
    refine List.exists_cons_of_ne_nil fun empty => ?_
    have length := congrArg List.length ahead
    rw [List.length_drop, empty, List.length_singleton] at length
    omega
  have split : answer = answer.take (b - 1) ++ x :: y :: back := by
    rw [← ahead, List.take_append_drop]
  have front : (answer.take (b - 1)).length + 1 = b := by
    rw [List.length_take]
    omega
  clear ahead
  generalize answer.take (b - 1) = ahead at split front
  subst split
  refine ⟨ahead, x, y, back, front, rfl, ?_⟩
  have above : r.le z x := by
    by_contra less
    have bound := upto_le_before rows less
    have place := valid.place
    omega
  have below : r.le y z := by
    by_contra more
    have bound := upto_le_before rows more
    have moved : ahead ++ x :: y :: back = (ahead ++ [x]) ++ y :: back := by simp
    have place := (moved ▸ valid).place
    rw [List.length_append, List.length_singleton] at place
    omega
  obtain ⟨earlier, later, across⟩ := List.pairwise_append.mp valid.sorted
  obtain ⟨fromX, later⟩ := List.pairwise_cons.mp later
  obtain ⟨fromY, later⟩ := List.pairwise_cons.mp later
  refine ⟨(List.Perm.append_left ahead (List.Perm.swap x y back)).trans valid.perm, ?_⟩
  refine List.pairwise_append.mpr ⟨earlier, ?_, ?_⟩
  · refine List.pairwise_cons.mpr ⟨fun w member => ?_, List.pairwise_cons.mpr ⟨?_, later⟩⟩
    · rcases List.mem_cons.mp member with rfl | member
      · exact r.trans _ _ _ below above
      · exact fromY w member
    · exact fun w member => fromX w (List.mem_cons_of_mem y member)
  · intro w member v after
    refine across w member v ?_
    simp only [List.mem_cons] at after ⊢
    tauto

theorem reading_twice (valid : IsAnswer r rows answer) {k : Nat} (cut : Straddles r rows (k * step))
    (all : rows.length ≤ n * step) :
    ∃ answers, (∀ k, IsAnswer r rows (answers k)) ∧ ¬ (reading answers step step n).Nodup := by
  obtain ⟨front, x, y, back, place, rfl, valid'⟩ := exists_swap valid cut
  obtain ⟨z, _, _, high⟩ := cut
  have most : upto r rows z ≤ rows.length := List.countP_le_length
  have few : k < n := by
    by_contra many
    have more := Nat.mul_le_mul_right step (Nat.le_of_not_lt many)
    omega
  obtain ⟨j, rfl⟩ : ∃ j, k = j + 1 := by
    cases k with
    | zero => omega
    | succ j => exact ⟨j, rfl⟩
  rw [Nat.succ_mul] at place
  have step_pos : 0 < step := by
    rcases Nat.eq_zero_or_pos step with rfl | positive
    · omega
    · exact positive
  refine ⟨fun m => if m = j + 1 then front ++ y :: x :: back else front ++ x :: y :: back,
    fun m => ?_, fun nodup => ?_⟩
  · dsimp only
    split
    · exact valid'
    · exact valid
  · have disjoint := (List.nodup_flatMap.mp nodup).2
    have pages := List.pairwise_iff_getElem.mp disjoint j (j + 1) (by simp; omega) (by simpa) (by omega)
    simp only [List.getElem_range, Function.onFun] at pages
    have here : x ∈ page (front ++ x :: y :: back) (j * step) step :=
      mem_page_of_place (by omega) (by omega)
    have there : x ∈ page (front ++ y :: x :: back) ((j + 1) * step) step := by
      have moved : front ++ y :: x :: back = (front ++ [y]) ++ x :: back := by simp
      rw [moved, Nat.succ_mul]
      refine mem_page_of_place ?_ ?_ <;> rw [List.length_append, List.length_singleton] <;> omega
    rw [if_neg (Nat.succ_ne_self j).symm, if_pos trivial] at pages
    exact List.disjoint_left.mp pages here there

end

end Paging
