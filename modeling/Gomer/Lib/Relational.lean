import Mathlib.Data.List.Dedup
import Mathlib.Data.List.Sort
import Mathlib.Algebra.Order.BigOperators.Group.List
import Mathlib.Data.Int.Order.Basic
import Mathlib.Tactic.Ring

/-! Relational operators on lists of rows, as a query language evaluates them:
outer join, grouping, nullable aggregates, ordering and unique indexes. A join
emits one row for each match, so an aggregate over a joined table counts a left
row once per match; the rules below say exactly when that is harmless. -/
namespace Relational

variable {α β κ : Type*}

/-- One left row with each of its matches, or once with NULL. -/
def joinRow (on : α → β → Bool) (right : List β) (a : α) : List (α × Option β) :=
  match right.filter (on a) with
  | [] => [(a, none)]
  | b :: bs => (b :: bs).map fun c => (a, some c)

def leftJoin (on : α → β → Bool) (left : List α) (right : List β) : List (α × Option β) :=
  left.flatMap (joinRow on right)

/-- The groups in order of their keys; each holds its rows in table order. -/
def groupBy [DecidableEq κ] (key : α → κ) (rows : List α) : List (κ × List α) :=
  (rows.map key).dedup.map fun k => (k, rows.filter fun x => key x = k)

/-- SUM over a nullable column: NULL when no row holds a value. -/
def sum (column : α → Option Int) (rows : List α) : Option Int :=
  match rows.filterMap column with
  | [] => none
  | v :: vs => some (v :: vs).sum

def coalesce (value : Option Int) (default : Int) : Int := value.getD default

/-- ORDER BY one column, ascending; rows that tie keep the order they came in. -/
def orderBy (key : α → Int) (rows : List α) : List α :=
  rows.insertionSort fun a b => key a ≤ key b

/-- A unique index on a nullable column: NULLs never collide. -/
def UniqueKey (key : α → Option κ) (rows : List α) : Prop := (rows.filterMap key).Nodup

instance [DecidableEq κ] (key : α → Option κ) (rows : List α) : Decidable (UniqueKey key rows) :=
  inferInstanceAs (Decidable (rows.filterMap key).Nodup)

/-- A query builder: the conditions so far, all of which have to hold. -/
structure Select (α : Type*) where
  conditions : List (α → Bool)

/-- `where` replaces the conditions that were there. -/
def Select.where_ (_ : Select α) (condition : α → Bool) : Select α := ⟨[condition]⟩

def Select.andWhere (query : Select α) (condition : α → Bool) : Select α :=
  ⟨query.conditions ++ [condition]⟩

def Select.rows (query : Select α) (table : List α) : List α :=
  table.filter fun x => query.conditions.all fun condition => condition x

/-- A statement is carried out, fails without effect, or is carried out and fails all the same. -/
inductive Completion where
  | executed
  | refused
  | unanswered
  deriving DecidableEq, Repr

/-! Updates -/

/-- An UPDATE of other columns. -/
theorem map_fixed (column : α → κ) (write : α → α) (fixed : ∀ row, column (write row) = column row)
    (rows : List α) : (rows.map write).map column = rows.map column := by
  rw [List.map_map]
  exact List.map_congr_left fun row _ => fixed row

/-- A lookup by a column that the update leaves finds the row as it was written. -/
theorem find_fixed [DecidableEq κ] {column : α → κ} {write : α → α}
    (fixed : ∀ row, column (write row) = column row) (rows : List α) (k : κ) :
    (rows.map write).find? (fun row => column row == k) =
      (rows.find? fun row => column row == k).map write := by
  rw [List.find?_map]
  congr 2
  funext row
  simp only [Function.comp_apply, fixed]

/-! Aggregates -/

@[simp] theorem coalesce_sum (column : α → Option Int) (rows : List α) :
    coalesce (sum column rows) 0 = (rows.map fun x => (column x).getD 0).sum := by
  have values : (rows.filterMap column).sum = (rows.map fun x => (column x).getD 0).sum := by
    induction rows with
    | nil => rfl
    | cons x xs ih => cases h : column x <;> simp [h, ih]
  rw [← values]
  unfold sum
  cases rows.filterMap column <;> rfl

theorem sum_map_nonneg (f : α → Int) (rows : List α) (h : ∀ x ∈ rows, 0 ≤ f x) :
    0 ≤ (rows.map f).sum :=
  List.sum_nonneg (by simpa using h)

/-- A sum of nonnegative terms vanishes only when every term does. -/
theorem sum_map_eq_zero_iff (f : α → Int) (rows : List α) (h : ∀ x ∈ rows, 0 ≤ f x) :
    (rows.map f).sum ≤ 0 ↔ ∀ x ∈ rows, f x = 0 := by
  induction rows with
  | nil => simp
  | cons x xs ih =>
    have head := h x List.mem_cons_self
    have rest := fun y hy => h y (List.mem_cons_of_mem x hy)
    have nonneg := sum_map_nonneg f xs rest
    have tail := ih rest
    simp only [List.map_cons, List.sum_cons, List.forall_mem_cons]
    constructor
    · intro total
      exact ⟨by omega, tail.mp (by omega)⟩
    · rintro ⟨hx, hxs⟩
      have := tail.mpr hxs
      omega

/-- Splitting a sum along a test on the rows. -/
theorem sum_filter_add (p : α → Bool) (f : α → Int) (rows : List α) :
    ((rows.filter p).map f).sum + ((rows.filter fun x => !p x).map f).sum = (rows.map f).sum := by
  induction rows with
  | nil => rfl
  | cons x xs ih =>
    cases h : p x <;> simp only [List.filter_cons, h, Bool.not_true, Bool.not_false, if_true,
      if_false, Bool.false_eq_true, List.map_cons, List.sum_cons] <;> omega

/-- Summing key by key over distinct keys sums every row whose key is listed, once. -/
theorem sum_by_key [DecidableEq κ] (key : α → κ) (f : α → Int) (rows : List α) {ks : List κ}
    (distinct : ks.Nodup) : (ks.map fun k => ((rows.filter fun x => key x = k).map f).sum).sum =
      ((rows.filter fun x => key x ∈ ks).map f).sum := by
  induction ks with
  | nil => simp
  | cons k ks ih =>
    obtain ⟨fresh, rest⟩ := List.nodup_cons.mp distinct
    have split := sum_filter_add (fun x => decide (key x = k)) f
      (rows.filter fun x => key x ∈ k :: ks)
    have first : (rows.filter fun x => key x ∈ k :: ks).filter (fun x => key x = k) =
        rows.filter fun x => key x = k := by
      rw [List.filter_filter]
      apply List.filter_congr
      intro x _
      by_cases h : key x = k <;> simp [h]
    have others : (rows.filter fun x => key x ∈ k :: ks).filter (fun x => !decide (key x = k)) =
        rows.filter fun x => key x ∈ ks := by
      rw [List.filter_filter]
      apply List.filter_congr
      intro x _
      by_cases h : key x = k
      · simp [h, fresh]
      · simp [h]
    rw [first, others] at split
    rw [List.map_cons, List.sum_cons, ih rest, split]

theorem joinRow_fst {on : α → β → Bool} {right : List β} {a : α} {x : α × Option β}
    (h : x ∈ joinRow on right a) : x.1 = a := by
  unfold joinRow at h
  split at h
  · simp only [List.mem_singleton] at h
    rw [h]
  · obtain ⟨b, _, rfl⟩ := List.mem_map.mp h
    rfl

theorem joinRow_ne_nil (on : α → β → Bool) (right : List β) (a : α) :
    joinRow on right a ≠ [] := by
  unfold joinRow
  split <;> simp

/-- The right column of a joined row adds up to the matches alone. -/
theorem joinRow_sum_right (on : α → β → Bool) (right : List β) (a : α) (f : β → Int) :
    ((joinRow on right a).map fun x => (x.2.map f).getD 0).sum =
      ((right.filter (on a)).map f).sum := by
  unfold joinRow
  split
  · rename_i h
    simp [h]
  · rename_i b bs h
    simp [h, List.map_map, Function.comp_def]

/-- The left column is counted once per match: the fan-out. -/
theorem joinRow_sum_left (on : α → β → Bool) (right : List β) (a : α) (f : α → Int) :
    ((joinRow on right a).map fun x => f x.1).sum =
      max 1 ((right.filter (on a)).length : Int) * f a := by
  unfold joinRow
  split
  · rename_i h
    simp [h]
  · rename_i b bs h
    have atLeast : max 1 ((right.filter (on a)).length : Int) = (b :: bs).length := by
      rw [h, List.length_cons]
      omega
    rw [atLeast]
    simp [List.map_map, Function.comp_def, List.map_const', List.sum_replicate]
    ring

/-- A condition on left columns may be tested before the join. -/
theorem leftJoin_filter (on : α → β → Bool) (p : α → Bool) (left : List α) (right : List β) :
    (leftJoin on left right).filter (fun x => p x.1) = leftJoin on (left.filter p) right := by
  have row : ∀ a, (joinRow on right a).filter (fun x => p x.1) =
      if p a then joinRow on right a else [] := by
    intro a
    split
    · rename_i h
      exact List.filter_eq_self.mpr fun x hx => by rw [joinRow_fst hx]; exact h
    · rename_i h
      exact List.filter_eq_nil_iff.mpr fun x hx => by rw [joinRow_fst hx]; exact h
  induction left with
  | nil => rfl
  | cons a as ih =>
    simp only [leftJoin, List.flatMap_cons, List.filter_append, row] at ih ⊢
    cases h : p a <;> simp [h, ih]

theorem leftJoin_sum (on : α → β → Bool) (left : List α) (right : List β)
    (f : α × Option β → Int) : ((leftJoin on left right).map f).sum =
      (left.map fun a => ((joinRow on right a).map f).sum).sum := by
  induction left with
  | nil => rfl
  | cons a as ih =>
    simp only [leftJoin, List.flatMap_cons, List.map_append, List.sum_append, List.map_cons,
      List.sum_cons] at ih ⊢
    rw [ih]

/-! Grouping -/

theorem dedup_block [DecidableEq κ] (k : κ) (rest : List κ) (fresh : k ∉ rest) (xs : List κ)
    (nonempty : xs ≠ []) (same : ∀ x ∈ xs, x = k) :
    (xs ++ rest).dedup = k :: rest.dedup := by
  induction xs with
  | nil => exact absurd rfl nonempty
  | cons x xs ih =>
    have hx := same x List.mem_cons_self
    subst hx
    cases xs with
    | nil => exact List.dedup_cons_of_notMem fresh
    | cons y ys =>
      have hy : y = x := same y (by simp)
      rw [List.cons_append, List.dedup_cons_of_mem (by simp [hy])]
      exact ih (by simp) fun z hz => same z (List.mem_cons_of_mem x hz)

/-- Grouping a joined table by a left row gathers exactly that row's matches. -/
theorem groupBy_leftJoin [DecidableEq α] (on : α → β → Bool) (left : List α) (right : List β)
    (key : left.Nodup) : groupBy Prod.fst (leftJoin on left right) =
      left.map fun a => (a, joinRow on right a) := by
  have keys : ((leftJoin on left right).map Prod.fst).dedup = left := by
    induction left with
    | nil => rfl
    | cons a as ih =>
      obtain ⟨fresh, rest⟩ := List.nodup_cons.mp key
      have absent : a ∉ (leftJoin on as right).map Prod.fst := by
        intro h
        obtain ⟨x, hx, he⟩ := List.mem_map.mp h
        obtain ⟨c, hc, hxc⟩ := List.mem_flatMap.mp hx
        rw [← he, joinRow_fst hxc] at fresh
        exact fresh hc
      have block := dedup_block a _ absent ((joinRow on right a).map Prod.fst)
        (by simpa using joinRow_ne_nil on right a)
        (by
          intro x hx
          obtain ⟨y, hy, rfl⟩ := List.mem_map.mp hx
          exact joinRow_fst hy)
      simp only [leftJoin, List.flatMap_cons, List.map_append] at block ih ⊢
      rw [block, ih rest]
  have rows : ∀ a ∈ left, (leftJoin on left right).filter (fun x => x.1 = a) =
      joinRow on right a := by
    intro a ha
    have picked := leftJoin_filter on (fun c => decide (c = a)) left right
    have only : left.filter (fun c => decide (c = a)) = [a] := by
      rw [List.filter_eq, List.count_eq_one_of_mem key ha]
      rfl
    rw [picked, only]
    simp [leftJoin]
  unfold groupBy
  rw [keys]
  exact List.map_congr_left fun a ha => by rw [rows a ha]

theorem filter_of_absent_key [DecidableEq κ] {key : α → κ} {rows : List α} {k : κ}
    (absent : k ∉ rows.map key) : (rows.filter fun x => key x = k) = [] :=
  List.filter_eq_nil_iff.mpr fun x member same =>
    absent (List.mem_map.mpr ⟨x, member, of_decide_eq_true same⟩)

theorem groupBy_find [DecidableEq κ] (key : α → κ) (rows : List α) (k : κ) :
    (groupBy key rows).find? (fun g => g.1 = k) =
      if k ∈ rows.map key then some (k, rows.filter fun x => key x = k) else none := by
  have general : ∀ ks : List κ,
      (ks.map fun j => (j, rows.filter fun x => key x = j)).find? (fun g => g.1 = k) =
        if k ∈ ks then some (k, rows.filter fun x => key x = k) else none := by
    intro ks
    induction ks with
    | nil => rfl
    | cons j js ih =>
      by_cases h : j = k
      · subst h
        simp
      · simp only [List.map_cons, List.find?_cons, h, decide_false, ih, List.mem_cons,
          Ne.symm h, false_or]
  rw [groupBy, general]
  simp only [List.mem_dedup]

theorem mem_groupBy [DecidableEq κ] {key : α → κ} {rows : List α} {g : κ × List α} :
    g ∈ groupBy key rows ↔ g.1 ∈ rows.map key ∧ g.2 = rows.filter fun x => key x = g.1 := by
  unfold groupBy
  constructor
  · intro listed
    obtain ⟨k, known, rfl⟩ := List.mem_map.mp listed
    exact ⟨List.mem_dedup.mp known, rfl⟩
  · rintro ⟨known, members⟩
    exact List.mem_map.mpr ⟨g.1, List.mem_dedup.mpr known, Prod.ext rfl members.symm⟩

/-- An aggregated table has one row for each key that occurs. -/
theorem filter_groupBy [DecidableEq κ] {γ : Type*} (key : β → κ) (f : List β → γ) (rows : List β)
    (k : κ) : ((groupBy key rows).map fun g => (g.1, f g.2)).filter (fun g => decide (g.1 = k)) =
      if k ∈ rows.map key then [(k, f (rows.filter fun x => key x = k))] else [] := by
  have general : ∀ ks : List κ, ks.Nodup →
      (ks.map fun j => (j, f (rows.filter fun x => key x = j))).filter
          (fun g => decide (g.1 = k)) =
        if k ∈ ks then [(k, f (rows.filter fun x => key x = k))] else [] := by
    intro ks distinct
    induction ks with
    | nil => rfl
    | cons j js ih =>
      obtain ⟨fresh, rest⟩ := List.nodup_cons.mp distinct
      by_cases h : j = k
      · subst h
        simp [ih rest, fresh]
      · simp only [List.map_cons, List.filter_cons, h, decide_false, Bool.false_eq_true, if_false,
          ih rest, List.mem_cons, Ne.symm h, false_or]
  have matched := general _ (List.nodup_dedup (rows.map key))
  simp only [List.mem_dedup] at matched
  rw [← matched, groupBy, List.map_map]
  rfl

/-- A pre-aggregated right table, one row per key, gives each left row at most one match. -/
theorem joinRow_groupBy [DecidableEq κ] {γ : Type*} (on : α → κ) (key : β → κ) (f : List β → γ)
    (rows : List β) (a : α) :
    joinRow (fun (c : α) (g : κ × γ) => decide (g.1 = on c))
      ((groupBy key rows).map fun g => (g.1, f g.2)) a =
      [(a, if on a ∈ rows.map key then some (on a, f (rows.filter fun x => key x = on a))
        else none)] := by
  have matched := filter_groupBy key f rows (on a)
  unfold joinRow
  split <;> rename_i h <;> rw [matched] at h <;> split at h <;> simp_all

/-! Ordering and unique indexes -/

theorem orderBy_perm (key : α → Int) (rows : List α) : (orderBy key rows).Perm rows :=
  List.perm_insertionSort _ _

theorem unique_append {key : α → Option κ} {rows : List α} {row : α} (unique : UniqueKey key rows)
    (fresh : ∀ k ∈ key row, k ∉ rows.filterMap key) : UniqueKey key (rows ++ [row]) := by
  unfold UniqueKey at unique ⊢
  rw [List.filterMap_append]
  cases h : key row with
  | none => simpa [h] using unique
  | some k =>
    simp only [List.filterMap_cons, h, List.filterMap_nil]
    exact List.nodup_append_comm.mp (List.nodup_cons.mpr ⟨fresh k h, unique⟩)

theorem length_filter_key [DecidableEq κ] (key : α → Option κ) (rows : List α) (k : κ) :
    (rows.filter fun x => key x == some k).length = (rows.filterMap key).count k := by
  induction rows with
  | nil => rfl
  | cons x xs ih =>
    cases h : key x with
    | none => simp [h, ih]
    | some j => by_cases same : j = k <;> simp [h, ih, same]

theorem unique_length [DecidableEq κ] {key : α → Option κ} {rows : List α}
    (unique : UniqueKey key rows) (k : κ) : (rows.filter fun x => key x == some k).length ≤ 1 := by
  rw [length_filter_key]
  exact List.nodup_iff_count_le_one.mp unique k

/-- A lookup by a unique column finds a row exactly when the table has it. -/
theorem find_unique_iff {κ : Type*} [DecidableEq κ] {key : α → κ} {rows : List α}
    (unique : (rows.map key).Nodup) {k : κ} {x : α} :
    rows.find? (fun r => key r == k) = some x ↔ x ∈ rows ∧ key x = k := by
  constructor
  · intro found
    exact ⟨List.mem_of_find?_eq_some found,
      beq_iff_eq.mp (List.find?_some (p := fun r => key r == k) found)⟩
  · rintro ⟨member, named⟩
    cases found : rows.find? (fun r => key r == k) with
    | none => exact absurd (beq_iff_eq.mpr named) (List.find?_eq_none.mp found x member)
    | some y =>
      have hit : key y = k := beq_iff_eq.mp (List.find?_some (p := fun r => key r == k) found)
      have same := List.inj_on_of_nodup_map unique (List.mem_of_find?_eq_some found) member
        (hit.trans named.symm)
      rw [same]

end Relational
