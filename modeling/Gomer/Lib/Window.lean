import Gomer.Lib.Drain
import Gomer.Lib.Relational

/-! Inner joins and window functions on lists of rows. A prefix sum over a window slices a charge
along the rows of a partition just as paying it out of them one after the other does. -/
namespace Relational

open Drain

variable {α β κ : Type*}

/-- `JOIN … ON` -/
def join (on : α → β → Bool) (left : List α) (right : List β) : List (α × β) :=
  left.flatMap fun a => (right.filter (on a)).map fun b => (a, b)

/-- Each row with its frame, `ROWS BETWEEN UNBOUNDED PRECEDING AND 1 PRECEDING`. -/
def framed (before : List α) : List α → List (α × List α)
  | [] => []
  | x :: xs => (x, before) :: framed (before ++ [x]) xs

/-- `OVER (PARTITION BY … ORDER BY …)`, one partition after the other. -/
def preceding [DecidableEq κ] (partition : α → κ) (le : α → α → Prop) [DecidableRel le]
    (rows : List α) : List (α × List α) :=
  (groupBy partition rows).flatMap fun g => framed [] (g.2.insertionSort le)

/-- The part of a charge that falls on an amount when other amounts come before it. -/
def slice (charge prior amount : Int) : Int := min amount (max 0 (charge - prior))

theorem framed_fst (before rows : List α) : (framed before rows).map Prod.fst = rows := by
  induction rows generalizing before with
  | nil => rfl
  | cons x xs ih => simp only [framed, List.map_cons, ih]

theorem mem_of_preceding [DecidableEq κ] {partition : α → κ} {le : α → α → Prop} [DecidableRel le]
    {rows : List α} {r : α × List α} (member : r ∈ preceding partition le rows) : r.1 ∈ rows := by
  obtain ⟨g, hg, hr⟩ := List.mem_flatMap.mp member
  obtain ⟨k, _, rfl⟩ := List.mem_map.mp hg
  have sorted := framed_fst [] ((rows.filter fun x => partition x = k).insertionSort le)
  have listed : r.1 ∈ (rows.filter fun x => partition x = k).insertionSort le := by
    rw [← sorted]
    exact List.mem_map_of_mem hr
  exact (List.mem_filter.mp ((List.mem_insertionSort _).mp listed)).1

/-- A join with one row per key, in a table whose rows all have the same key. -/
theorem join_constant (on : α → β → Bool) (left : List α) (right : List β) (matched : List β)
    (same : ∀ a ∈ left, right.filter (on a) = matched) :
    join on left right = left.flatMap fun a => matched.map fun b => (a, b) := by
  unfold join
  refine List.flatMap_congr fun a ha => ?_
  rw [same a ha]

/-- The slices of a charge are what draining the rows in their order takes from each. -/
theorem slices_eq_drain (amount : α → Int) (before rows : List α) (charge : Int)
    (nonneg : ∀ x ∈ rows, 0 ≤ amount x) :
    ((framed before rows).map fun r =>
        (r.1, slice charge (r.2.map amount).sum (amount r.1))).filter (fun t => decide (0 < t.2)) =
      drain amount rows (charge - (before.map amount).sum) := by
  induction rows generalizing before with
  | nil => rfl
  | cons x xs ih =>
    have here := nonneg x List.mem_cons_self
    have rest := ih (before ++ [x]) fun y hy => nonneg y (List.mem_cons_of_mem x hy)
    have left : charge - ((before ++ [x]).map amount).sum =
        charge - (before.map amount).sum - amount x := by
      simp only [List.map_append, List.map_cons, List.map_nil, List.sum_append, List.sum_cons,
        List.sum_nil]
      omega
    rw [left] at rest
    have none : drain amount [] (charge - (before.map amount).sum) = [] := rfl
    have first := drain_at amount [] x xs (charge - (before.map amount).sum)
    simp only [List.nil_append, holding_nil, Int.sub_zero, none, max_eq_right here] at first
    rw [framed, List.map_cons, List.filter_cons, rest, first]
    by_cases drawn : 0 < min (charge - (before.map amount).sum) (amount x)
    · have same : slice charge (before.map amount).sum (amount x) =
          min (charge - (before.map amount).sum) (amount x) := by
        unfold slice
        omega
      simp only [same, if_pos drawn, decide_eq_true drawn, if_true, List.singleton_append]
    · have nothing : ¬ 0 < slice charge (before.map amount).sum (amount x) := by
        unfold slice
        omega
      simp only [if_neg drawn, decide_eq_false nothing, Bool.false_eq_true, if_false,
        List.nil_append]

/-- Everything that is drawn is taken from some row. -/
theorem sum_taken [DecidableEq α] (amount : α → Int) {rows : List α} (key : rows.Nodup)
    (charge : Int) :
    (rows.map (taken amount rows charge)).sum = total (drain amount rows charge) := by
  have every : (drain amount rows charge).filter (fun t => t.1 ∈ rows) = drain amount rows charge :=
    List.filter_eq_self.mpr fun t ht => decide_eq_true (drain_bounds amount ht).1
  have summed := sum_by_key Prod.fst Prod.snd (drain amount rows charge) key
  rw [every] at summed
  exact summed

end Relational
