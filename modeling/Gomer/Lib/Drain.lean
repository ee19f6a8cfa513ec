import Mathlib.Algebra.Order.BigOperators.Group.List
import Mathlib.Algebra.Ring.Int.Defs
import Mathlib.Data.Int.Order.Basic

/-! Paying a charge out of pots taken in order, each as far as it goes.
The charge and the pots may hold any integer; a pot at zero or below is passed over. -/
namespace Drain

variable {α : Type*} (amount : α → Int)

def drain : List α → Int → List (α × Int)
  | [], _ => []
  | x :: xs, outstanding =>
    if outstanding ≤ 0 then []
    else if min outstanding (amount x) ≤ 0 then drain xs outstanding
    else (x, min outstanding (amount x)) :: drain xs (outstanding - min outstanding (amount x))

def total (taken : List (α × Int)) : Int := (taken.map Prod.snd).sum

/-- What the pots hold together, debts left aside. -/
def holding (pots : List α) : Int := (pots.map fun x => max 0 (amount x)).sum

@[simp] theorem total_nil : total ([] : List (α × Int)) = 0 := rfl

@[simp] theorem total_cons (x : α × Int) (xs : List (α × Int)) :
    total (x :: xs) = x.2 + total xs := by
  simp [total]

@[simp] theorem holding_nil : holding amount [] = 0 := rfl

@[simp] theorem holding_cons (x : α) (xs : List α) :
    holding amount (x :: xs) = max 0 (amount x) + holding amount xs := by
  simp [holding]

@[simp] theorem holding_append (xs ys : List α) :
    holding amount (xs ++ ys) = holding amount xs + holding amount ys := by
  simp [holding]

theorem holding_nonneg (pots : List α) : 0 ≤ holding amount pots := by
  induction pots with
  | nil => exact le_refl 0
  | cons x xs ih => simp only [holding_cons]; omega

theorem holding_perm {xs ys : List α} (h : xs.Perm ys) : holding amount xs = holding amount ys :=
  (h.map _).sum_eq

theorem holding_map {β : Type*} (f : β → α) (xs : List β) :
    holding amount (xs.map f) = holding (fun x => amount (f x)) xs := by
  simp [holding, Function.comp_def]

theorem holding_of_nonneg {pots : List α} (nonneg : ∀ x ∈ pots, 0 ≤ amount x) :
    holding amount pots = (pots.map amount).sum := by
  induction pots with
  | nil => rfl
  | cons x xs ih =>
    have here := nonneg x List.mem_cons_self
    rw [holding_cons, List.map_cons, List.sum_cons, max_eq_right here,
      ih fun y hy => nonneg y (List.mem_cons_of_mem x hy)]

/-- Leaving out pots that hold nothing changes nothing. -/
theorem holding_filter (p : α → Bool) (empty : ∀ x, p x = false → amount x ≤ 0) (xs : List α) :
    holding amount (xs.filter p) = holding amount xs := by
  induction xs with
  | nil => rfl
  | cons x xs ih =>
    rw [List.filter_cons]
    cases h : p x with
    | true => simp only [if_true, holding_cons, ih]
    | false =>
      have nothing := empty x h
      simp only [Bool.false_eq_true, if_false, holding_cons, ih]
      omega

theorem drain_nothing {outstanding : Int} (h : outstanding ≤ 0) (pots : List α) :
    drain amount pots outstanding = [] := by
  cases pots with
  | nil => rfl
  | cons x xs => simp only [drain, if_pos h]

/-- The charge is met as far as the pots go. -/
theorem drain_total (pots : List α) (outstanding : Int) :
    total (drain amount pots outstanding) = min (max 0 outstanding) (holding amount pots) := by
  induction pots generalizing outstanding with
  | nil => simp only [drain, total_nil, holding_nil]; omega
  | cons x xs ih =>
    have rest := holding_nonneg amount xs
    simp only [drain, holding_cons]
    split
    · simp only [total_nil]; omega
    · split
      · rw [ih]; omega
      · simp only [total_cons, ih]; omega

theorem drain_bounds {pots : List α} {outstanding : Int} {p : α × Int}
    (h : p ∈ drain amount pots outstanding) : p.1 ∈ pots ∧ 0 < p.2 ∧ p.2 ≤ amount p.1 := by
  induction pots generalizing outstanding with
  | nil => cases h
  | cons x xs ih =>
    simp only [drain] at h
    split at h
    · cases h
    · split at h
      · have tail := ih h
        exact ⟨List.mem_cons_of_mem x tail.1, tail.2⟩
      · rcases List.mem_cons.mp h with rfl | h
        · exact ⟨List.mem_cons_self, by simp only; omega, Int.min_le_right _ _⟩
        · have tail := ih h
          exact ⟨List.mem_cons_of_mem x tail.1, tail.2⟩

/-- Pots are drawn on in order and at most once each. -/
theorem drain_sublist (pots : List α) (outstanding : Int) :
    ((drain amount pots outstanding).map Prod.fst).Sublist pots := by
  induction pots generalizing outstanding with
  | nil => exact List.Sublist.refl []
  | cons x xs ih =>
    simp only [drain]
    split
    · exact List.nil_sublist _
    · split
      · exact (ih outstanding).cons x
      · exact (ih _).cons_cons x

/-- What the first pots leave outstanding is what the later pots are asked for. -/
theorem drain_append (xs ys : List α) (outstanding : Int) :
    drain amount (xs ++ ys) outstanding =
      drain amount xs outstanding ++ drain amount ys (outstanding - holding amount xs) := by
  induction xs generalizing outstanding with
  | nil => simp [drain]
  | cons x xs ih =>
    have rest := holding_nonneg amount xs
    simp only [List.cons_append, drain, holding_cons]
    split
    · rw [drain_nothing amount (by omega) ys]
      rfl
    · split
      · rw [ih]
        congr 2
        omega
      · rw [ih, List.cons_append]
        -- Either the charge is met here, or this pot is emptied.
        by_cases met : outstanding ≤ amount x
        · rw [drain_nothing amount (by omega) ys, drain_nothing amount (by omega) ys]
        · congr 3
          omega

/-- Pots that the charge covers are emptied. -/
theorem drain_covered {pots : List α} {outstanding : Int} (covered : holding amount pots < outstanding)
    {x : α} (member : x ∈ pots) (positive : 0 < amount x) :
    (x, amount x) ∈ drain amount pots outstanding := by
  induction pots generalizing outstanding with
  | nil => cases member
  | cons y ys ih =>
    have rest := holding_nonneg amount ys
    rw [holding_cons] at covered
    simp only [drain]
    rw [if_neg (by omega)]
    rcases List.mem_cons.mp member with rfl | later
    · have whole : min outstanding (amount x) = amount x := by omega
      rw [whole, if_neg (by omega)]
      exact List.mem_cons_self
    · split
      · exact ih (by omega) later
      · exact List.mem_cons_of_mem _ (ih (by omega) later)

/-- The draw on one pot: what those ahead of it leave outstanding, as far as it goes. -/
theorem drain_at (ahead : List α) (x : α) (behind : List α) (outstanding : Int) :
    drain amount (ahead ++ x :: behind) outstanding =
      drain amount ahead outstanding ++
        (if 0 < min (outstanding - holding amount ahead) (amount x)
          then [(x, min (outstanding - holding amount ahead) (amount x))] else []) ++
        drain amount behind (outstanding - holding amount ahead - max 0 (amount x)) := by
  have split : ahead ++ x :: behind = ahead ++ ([x] ++ behind) := by simp
  rw [split, drain_append, drain_append, ← List.append_assoc]
  have single : drain amount [x] (outstanding - holding amount ahead) =
      if 0 < min (outstanding - holding amount ahead) (amount x)
        then [(x, min (outstanding - holding amount ahead) (amount x))] else [] := by
    simp only [drain]
    split
    · rw [if_neg (by omega)]
    · split
      · rw [if_neg (by omega)]
      · rw [if_pos (by omega)]
  rw [single]
  simp only [holding_cons, holding_nil, add_zero]

theorem drain_untouched {p : α → Bool} {pots : List α} (none : ∀ x ∈ pots, p x = false)
    (outstanding : Int) : (drain amount pots outstanding).filter (fun t => p t.1) = [] := by
  refine List.filter_eq_nil_iff.mpr fun t ht => ?_
  rw [none t.1 (drain_bounds amount ht).1]
  exact Bool.false_ne_true

/-- What is taken from the one pot a test picks out. -/
theorem drain_taken {p : α → Bool} {ahead behind : List α} {x : α} (picked : p x = true)
    (before : ∀ y ∈ ahead, p y = false) (after : ∀ y ∈ behind, p y = false) (outstanding : Int) :
    total ((drain amount (ahead ++ x :: behind) outstanding).filter fun t => p t.1) =
      max 0 (min (outstanding - holding amount ahead) (amount x)) := by
  rw [drain_at, List.filter_append, List.filter_append, drain_untouched amount before,
    drain_untouched amount after]
  split
  · simp only [List.nil_append, List.append_nil, List.filter_cons, picked, if_true,
      List.filter_nil, total_cons, total_nil]
    omega
  · simp only [List.append_nil, List.filter_nil, total_nil]
    omega

/-! Draining in an order of preference -/

theorem drain_map {β : Type*} (f : β → α) (xs : List β) (outstanding : Int) :
    drain amount (xs.map f) outstanding =
      (drain (fun x => amount (f x)) xs outstanding).map fun t => (f t.1, t.2) := by
  induction xs generalizing outstanding with
  | nil => rfl
  | cons x xs ih =>
    simp only [List.map_cons, drain]
    split
    · rfl
    · split
      · exact ih outstanding
      · rw [List.map_cons, ih]

def taken [DecidableEq α] (pots : List α) (outstanding : Int) (x : α) : Int :=
  total ((drain amount pots outstanding).filter fun t => t.1 = x)

theorem taken_at [DecidableEq α] {ahead behind : List α} {x : α}
    (key : (ahead ++ x :: behind).Nodup) (outstanding : Int) :
    taken amount (ahead ++ x :: behind) outstanding x =
      max 0 (min (outstanding - holding amount ahead) (amount x)) := by
  obtain ⟨_, tail, apart⟩ := List.nodup_append.mp key
  have fresh := (List.nodup_cons.mp tail).1
  apply drain_taken amount (p := fun y => decide (y = x))
  · exact decide_eq_true rfl
  · intro y hy
    exact decide_eq_false (apart y hy x List.mem_cons_self)
  · intro y hy
    apply decide_eq_false
    rintro rfl
    exact fresh hy

/-- A pot is not drawn on before the pots ahead of it are empty. -/
theorem taken_in_order [DecidableEq α] {ahead between behind : List α} {x y : α}
    (key : (ahead ++ x :: (between ++ y :: behind)).Nodup) {outstanding : Int} (full : 0 ≤ amount x)
    (drawn : 0 < taken amount (ahead ++ x :: (between ++ y :: behind)) outstanding y) :
    taken amount (ahead ++ x :: (between ++ y :: behind)) outstanding x = amount x := by
  have regrouped : ahead ++ x :: (between ++ y :: behind) =
      (ahead ++ x :: between) ++ y :: behind := by simp
  have rest := holding_nonneg amount between
  have later : taken amount (ahead ++ x :: (between ++ y :: behind)) outstanding y =
      max 0 (min (outstanding - holding amount (ahead ++ x :: between)) (amount y)) := by
    rw [regrouped]
    exact taken_at amount (regrouped ▸ key) outstanding
  rw [later] at drawn
  simp only [holding_append, holding_cons] at drawn
  rw [taken_at amount key]
  omega

theorem taken_nonneg [DecidableEq α] (pots : List α) (outstanding : Int) (x : α) :
    0 ≤ taken amount pots outstanding x := by
  apply List.sum_nonneg
  intro n hn
  obtain ⟨t, ht, rfl⟩ := List.mem_map.mp hn
  exact Int.le_of_lt (drain_bounds amount (List.mem_filter.mp ht).1).2.1

theorem mem_of_taken [DecidableEq α] {pots : List α} {outstanding : Int} {x : α}
    (drawn : 0 < taken amount pots outstanding x) : x ∈ pots := by
  by_contra absent
  have none := drain_untouched amount (p := fun y => decide (y = x))
    (fun y (hy : y ∈ pots) => decide_eq_false fun same => absent (same ▸ hy)) outstanding
  rw [taken, none] at drawn
  exact absurd drawn (Int.lt_irrefl 0)

/-- No pot is drawn on before a preferred one is empty, exactly when for every pair that
stands in the wrong order the charge stops short of the first or empties the second. -/
theorem taken_respects_iff [DecidableEq α] (preferred : α → α → Prop) {pots : List α}
    (key : pots.Nodup) (full : ∀ x ∈ pots, 0 < amount x) (irrefl : ∀ x, ¬ preferred x x)
    (outstanding : Int) :
    (∀ g ∈ pots, ∀ h ∈ pots, preferred h g → 0 < taken amount pots outstanding g →
        amount h ≤ taken amount pots outstanding h) ↔
      ∀ ahead g between h behind, pots = ahead ++ g :: (between ++ h :: behind) →
        preferred h g → outstanding ≤ holding amount ahead ∨
          holding amount (ahead ++ g :: (between ++ [h])) ≤ outstanding := by
  -- A pot further down is asked for what everything above it leaves.
  have second : ∀ {ahead between behind : List α} {x y : α},
      pots = ahead ++ x :: (between ++ y :: behind) → taken amount pots outstanding y =
        max 0 (min (outstanding - holding amount (ahead ++ x :: between)) (amount y)) := by
    intro ahead between behind x y place
    have regrouped : pots = (ahead ++ x :: between) ++ y :: behind := by simp [place]
    rw [regrouped]
    exact taken_at amount (regrouped ▸ key) outstanding
  constructor
  · intro respected ahead g between h behind place wrong
    have hg : g ∈ pots := by simp [place]
    have hh : h ∈ pots := by simp [place]
    have law := respected g hg h hh wrong
    have upper := full g hg
    have lower := full h hh
    have first : taken amount pots outstanding g =
        max 0 (min (outstanding - holding amount ahead) (amount g)) := by
      rw [place]
      exact taken_at amount (place ▸ key) outstanding
    rw [second place, first] at law
    simp only [holding_append, holding_cons, holding_nil] at law ⊢
    omega
  · intro sorted g hg h hh wrong drawn
    have lower := full h hh
    have apart : h ≠ g := by
      rintro rfl
      exact irrefl h wrong
    obtain ⟨ahead, behind, place⟩ := List.append_of_mem hg
    have first : taken amount pots outstanding g =
        max 0 (min (outstanding - holding amount ahead) (amount g)) := by
      rw [place]
      exact taken_at amount (place ▸ key) outstanding
    rw [place] at hh
    rcases List.mem_append.mp hh with above | below
    · -- The preferred pot stands above: it was emptied on the way.
      obtain ⟨before, between, split⟩ := List.append_of_mem above
      have higher : taken amount pots outstanding h =
          max 0 (min (outstanding - holding amount before) (amount h)) := by
        have regrouped : pots = before ++ h :: (between ++ g :: behind) := by simp [place, split]
        rw [regrouped]
        exact taken_at amount (regrouped ▸ key) outstanding
      have rest := holding_nonneg amount between
      rw [first, split] at drawn
      rw [higher]
      simp only [holding_append, holding_cons] at drawn
      omega
    · obtain ⟨between, after, split⟩ :=
        List.append_of_mem ((List.mem_cons.mp below).resolve_left apart)
      rw [split] at place
      have covers := sorted ahead g between h after place wrong
      rw [second place]
      rw [first] at drawn
      simp only [holding_append, holding_cons, holding_nil] at covers ⊢
      omega

end Drain
