import Mathlib.Data.List.Nodup
import Mathlib.Data.List.Perm.Subperm
import Mathlib.Tactic.Common

/-! Changing a name until it is free. -/
namespace Fresh

variable {α β : Type*} (taken : α → Bool) (next : Nat → α → α)

/-- `while (taken(name)) name = next(suffix++, name)`, within `fuel` tests. -/
def search : Nat → Nat → α → Option α
  | 0, _, _ => none
  | fuel + 1, suffix, name =>
    if taken name then search fuel (suffix + 1) (next suffix name) else some name

/-- The name that the search tries after `k` changes. -/
def candidate (suffix : Nat) (name : α) : Nat → α
  | 0 => name
  | k + 1 => candidate (suffix + 1) (next suffix name) k

variable {taken next}

theorem candidate_succ (suffix : Nat) (name : α) (k : Nat) :
    candidate next suffix name (k + 1) = next (suffix + k) (candidate next suffix name k) := by
  induction k generalizing suffix name with
  | zero => rfl
  | succ k ih =>
    rw [candidate, ih, candidate, Nat.add_assoc, Nat.add_comm 1]

theorem search_some {fuel suffix : Nat} {name found : α}
    (run : search taken next fuel suffix name = some found) :
    taken found = false ∧ ∃ k < fuel, found = candidate next suffix name k := by
  induction fuel generalizing suffix name with
  | zero => cases run
  | succ fuel ih =>
    rw [search] at run
    split at run
    · obtain ⟨free, k, tried, rfl⟩ := ih run
      exact ⟨free, k + 1, by omega, rfl⟩
    · rename_i free
      cases run
      exact ⟨by simpa using free, 0, by omega, rfl⟩

theorem search_none {fuel suffix : Nat} {name : α}
    (run : search taken next fuel suffix name = none) :
    ∀ k < fuel, taken (candidate next suffix name k) = true := by
  induction fuel generalizing suffix name with
  | zero => exact fun k tried => absurd tried (Nat.not_lt_zero k)
  | succ fuel ih =>
    rw [search] at run
    split at run
    · rename_i used
      intro k tried
      cases k with
      | zero => exact used
      | succ k => exact ih run k (by omega)
    · cases run

theorem search_mono {fuel more suffix : Nat} {name found : α}
    (run : search taken next fuel suffix name = some found) (enough : fuel ≤ more) :
    search taken next more suffix name = some found := by
  induction fuel generalizing suffix name more with
  | zero => cases run
  | succ fuel ih =>
    obtain ⟨more, rfl⟩ : ∃ extra, more = extra + 1 := ⟨more - 1, by omega⟩
    rw [search] at run ⊢
    split
    · rename_i used
      rw [if_pos used] at run
      exact ih run (by omega)
    · rename_i free
      rwa [if_neg free] at run

/-- Where every change leaves a mark of its own, only the first name can come back, so one test
more than there are names and changes is enough. -/
theorem search_isSome [DecidableEq α] (mark : α → β) (code : Nat → β)
    (marked : ∀ suffix name, mark (next suffix name) = code suffix)
    (distinct : Function.Injective code) (names : List α)
    (finite : ∀ name, taken name = true → name ∈ names) {fuel : Nat}
    (enough : names.length + 2 ≤ fuel) (suffix : Nat) (name : α) :
    (search taken next fuel suffix name).isSome = true := by
  cases run : search taken next fuel suffix name with
  | some found => rfl
  | none =>
    have used := search_none run
    let tried := (List.range (names.length + 1)).map fun k => candidate next suffix name (k + 1)
    have once : tried.Nodup := by
      refine List.Nodup.map_on (fun j _ k _ same => ?_) List.nodup_range
      have marks := congrArg mark same
      rw [candidate_succ, candidate_succ, marked, marked] at marks
      have := distinct marks
      omega
    have known : tried ⊆ names := by
      intro candidate member
      obtain ⟨k, bound, rfl⟩ := List.mem_map.mp member
      exact finite _ (used _ (by have := List.mem_range.mp bound; omega))
    have fits := (List.subperm_of_subset once known).length_le
    simp only [tried, List.length_map, List.length_range] at fits
    omega

end Fresh
