import Mathlib.Data.List.Basic

/-! Changing the last few entries of a list that pass a test. -/
namespace Trailing

variable {α β : Type*} (p : α → Bool) (f : α → α)

/-- The last `n` entries that pass are changed. -/
def update (n : Nat) : List α → List α
  | [] => []
  | x :: rest => (if p x && decide (rest.countP p < n) then f x else x) :: update n rest

@[simp] theorem update_zero (xs : List α) : update p f 0 xs = xs := by
  induction xs with
  | nil => rfl
  | cons x rest ih => simp [update, ih]

theorem update_snoc_passed {p : α → Bool} {x : α} (passes : p x = true) (n : Nat) (xs : List α) :
    update p f (n + 1) (xs ++ [x]) = update p f n xs ++ [f x] := by
  induction xs with
  | nil => simp [update, passes]
  | cons y rest ih =>
    simp only [List.cons_append, update, ih, List.countP_append, List.countP_singleton, passes,
      if_true, Nat.add_lt_add_iff_right]

theorem update_snoc_skipped {p : α → Bool} {x : α} (fails : p x = false) (n : Nat) (xs : List α) :
    update p f n (xs ++ [x]) = update p f n xs ++ [x] := by
  induction xs with
  | nil => simp [update, fails]
  | cons y rest ih =>
    simp only [List.cons_append, update, ih, List.countP_append, List.countP_singleton, fails,
      Bool.false_eq_true, if_false, Nat.add_zero]

/-- An entry is changed when it passes and fewer than `n` that pass come after it. -/
theorem getElem?_update (n : Nat) (xs : List α) (i : Nat) :
    (update p f n xs)[i]? = xs[i]?.map fun x =>
      if p x && decide ((xs.drop (i + 1)).countP p < n) then f x else x := by
  induction xs generalizing i with
  | nil => rfl
  | cons x rest ih =>
    cases i with
    | zero => rfl
    | succ i => exact ih i

/-- What the change leaves alone. -/
theorem map_update {g : α → β} (same : ∀ x, p x = true → g (f x) = g x) (n : Nat) (xs : List α) :
    (update p f n xs).map g = xs.map g := by
  induction xs with
  | nil => rfl
  | cons x rest ih =>
    rw [update, List.map_cons, ih, List.map_cons]
    split
    · rename_i changed
      rw [same x (Bool.and_eq_true_iff.mp changed).1]
    · rfl

end Trailing
