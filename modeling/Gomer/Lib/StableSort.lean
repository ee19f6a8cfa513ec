import Mathlib.Data.List.Sort
import Mathlib.Data.List.TakeWhile
import Mathlib.Order.Defs.LinearOrder

/-! A stable sort by a key: it keeps the order inside each class of equal keys, and is determined by
the classes alone. -/
namespace StableSort

variable {α κ : Type*} [LinearOrder κ] (key : α → κ)

abbrev sort (xs : List α) : List α := xs.insertionSort fun x y => key x ≤ key y

abbrev Sorted (xs : List α) : Prop := xs.Pairwise fun x y => key x ≤ key y

/-- The members with one key, in their order. -/
def members (k : κ) (xs : List α) : List α := xs.filter fun x => key x = k

theorem mem_members {k : κ} {xs : List α} {x : α} : x ∈ members key k xs ↔ x ∈ xs ∧ key x = k := by
  simp [members]

theorem sort_sorted (xs : List α) : Sorted key (sort key xs) := by
  have : Std.Total fun x y => key x ≤ key y := ⟨fun x y => le_total (key x) (key y)⟩
  have : IsTrans α fun x y => key x ≤ key y := ⟨fun _ _ _ => le_trans⟩
  exact List.pairwise_insertionSort _ xs

theorem members_sort (k : κ) (xs : List α) : members key k (sort key xs) = members key k xs := by
  have : Std.Total fun x y => key x ≤ key y := ⟨fun x y => le_total (key x) (key y)⟩
  have : IsTrans α fun x y => key x ≤ key y := ⟨fun _ _ _ => le_trans⟩
  have tied : (members key k xs).Pairwise fun x y => key x ≤ key y :=
    List.pairwise_of_forall_mem_list fun x hx y hy =>
      le_of_eq ((mem_members key).mp hx |>.2.trans ((mem_members key).mp hy).2.symm)
  have kept : (members key k xs).Sublist (sort key xs) :=
    List.sublist_insertionSort tied List.filter_sublist
  have within : (members key k xs).Sublist (members key k (sort key xs)) := by
    have own : members key k (members key k xs) = members key k xs :=
      List.filter_eq_self.mpr fun x hx => decide_eq_true ((mem_members key).mp hx).2
    rw [← own]
    exact kept.filter fun x => decide (key x = k)
  refine (within.eq_of_length ?_).symm
  exact ((List.perm_insertionSort _ xs).symm.filter _).length_eq

/-- Sorted lists with the same classes are equal. -/
theorem eq_of_members {xs ys : List α} (first : Sorted key xs) (second : Sorted key ys)
    (same : ∀ k, members key k xs = members key k ys) : xs = ys := by
  induction xs generalizing ys with
  | nil =>
    cases ys with
    | nil => rfl
    | cons y ys =>
      have listed : y ∈ members key (key y) (y :: ys) :=
        (mem_members key).mpr ⟨List.mem_cons_self, rfl⟩
      rw [← same] at listed
      cases listed
  | cons x xs ih =>
    have listed : x ∈ members key (key x) ys := by
      rw [← same]
      exact (mem_members key).mpr ⟨List.mem_cons_self, rfl⟩
    cases ys with
    | nil => cases listed
    | cons y ys =>
      obtain ⟨below, rest⟩ := List.pairwise_cons.mp first
      obtain ⟨below', rest'⟩ := List.pairwise_cons.mp second
      -- Each head stands in the other list, so neither key is the greater one.
      have back : y ∈ x :: xs := by
        have own : y ∈ members key (key y) (y :: ys) :=
          (mem_members key).mpr ⟨List.mem_cons_self, rfl⟩
        rw [← same] at own
        exact ((mem_members key).mp own).1
      have upper : key x ≤ key y := by
        rcases List.mem_cons.mp back with rfl | later
        · exact le_rfl
        · exact below y later
      have lower : key y ≤ key x := by
        rcases List.mem_cons.mp ((mem_members key).mp listed).1 with rfl | later
        · exact le_rfl
        · exact below' x later
      have tied : key y = key x := le_antisymm lower upper
      have heads := same (key x)
      simp only [members, List.filter_cons, tied, decide_true, if_true] at heads
      obtain ⟨rfl, tails⟩ := List.cons.inj heads
      refine congrArg (x :: ·) (ih rest rest' fun k => ?_)
      by_cases own : key x = k
      · rw [← own]
        exact tails
      · have others := same k
        simpa only [members, List.filter_cons, own, decide_false, Bool.false_eq_true,
          if_false] using others

theorem sort_congr {xs ys : List α} (same : ∀ k, members key k xs = members key k ys) :
    sort key xs = sort key ys := by
  refine eq_of_members key (sort_sorted key xs) (sort_sorted key ys) fun k => ?_
  rw [members_sort, members_sort]
  exact same k

/-- `x` comes before `y` in the sort. -/
def Before (xs : List α) (x y : α) : Prop := key x < key y ∨ key x = key y ∧ [x, y].Sublist xs

theorem mem_ahead {xs ahead behind : List α} {x y : α} (distinct : xs.Nodup)
    (place : sort key xs = ahead ++ y :: behind) (member : x ∈ xs) (before : Before key xs x y) :
    x ∈ ahead := by
  have sorted := sort_sorted key xs
  have once : (sort key xs).Nodup := (List.perm_insertionSort _ xs).nodup_iff.mpr distinct
  have stands : x ∈ sort key xs := (List.perm_insertionSort _ xs).mem_iff.mpr member
  rw [place] at sorted once stands
  rcases before with smaller | ⟨tied, listed⟩
  · rcases List.mem_append.mp stands with above | below
    · exact above
    · have later := (List.pairwise_cons.mp (List.pairwise_append.mp sorted).2.1).1
      rcases List.mem_cons.mp below with rfl | below
      · exact absurd smaller (lt_irrefl _)
      · exact absurd (later x below) (not_le_of_gt smaller)
  · have : Std.Total fun x y => key x ≤ key y := ⟨fun x y => le_total (key x) (key y)⟩
    have : IsTrans α fun x y => key x ≤ key y := ⟨fun _ _ _ => le_trans⟩
    have pair : [x, y].Sublist (ahead ++ y :: behind) := by
      rw [← place]
      exact List.pair_sublist_insertionSort (le_of_eq tied) listed
    have fresh : y ∉ behind := (List.nodup_cons.mp (List.nodup_append.mp once).2.1).1
    obtain ⟨above, below, split, first, second⟩ := List.sublist_append_iff.mp pair
    cases above with
    | nil =>
      obtain rfl : [x, y] = below := split
      rcases List.cons_sublist_cons'.mp second with skipped | ⟨_, rest⟩
      · exact absurd (skipped.subset (List.mem_cons_of_mem x List.mem_cons_self)) fresh
      · exact absurd (rest.subset List.mem_cons_self) fresh
    | cons a above =>
      obtain ⟨rfl, _⟩ := List.cons.inj split
      exact first.subset List.mem_cons_self

end StableSort
