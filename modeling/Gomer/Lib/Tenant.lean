import Mathlib.Data.List.Basic

/-! The rows of one tenant in a table it shares with others. A query or an update that is
keyed on the tenant sees and changes its rows only. -/
namespace Tenant

variable {α : Type*} (own : α → Bool)

def inside (rows : List α) : List α := rows.filter own

def outside (rows : List α) : List α := rows.filter fun a => !own a

/-- An update that changes the tenant's rows only, and leaves them the tenant's. -/
structure Confined (rows : List α) (f : α → α) : Prop where
  others : ∀ a ∈ rows, own a = false → f a = a
  keeps : ∀ a ∈ rows, own a = true → own (f a) = true

variable {own} {rows : List α} {q : α → Bool} {f : α → α}

/-- A keyed query answers from the tenant's rows. -/
theorem find_inside (keyed : ∀ a, q a = true → own a = true) :
    (inside own rows).find? q = rows.find? q := by
  rw [inside, List.find?_filter]
  congr 1
  funext a
  cases hit : q a with
  | false => simp
  | true => simp [keyed a hit]

theorem filter_inside (keyed : ∀ a, q a = true → own a = true) :
    (inside own rows).filter q = rows.filter q := by
  rw [inside, List.filter_filter]
  congr 1
  funext a
  cases hit : q a with
  | false => simp
  | true => simp [keyed a hit]

theorem any_inside (keyed : ∀ a, q a = true → own a = true) :
    (inside own rows).any q = rows.any q := by
  rw [inside, List.any_filter]
  congr 1
  funext a
  cases hit : q a with
  | false => simp
  | true => simp [keyed a hit]

theorem Confined.tail {a : α} (confined : Confined own (a :: rows) f) : Confined own rows f where
  others b member := confined.others b (List.mem_cons_of_mem a member)
  keeps b member := confined.keeps b (List.mem_cons_of_mem a member)

theorem map_inside (confined : Confined own rows f) :
    inside own (rows.map f) = (inside own rows).map f := by
  induction rows with
  | nil => rfl
  | cons a rest ih =>
    have tail := ih confined.tail
    cases mine : own a with
    | false =>
      have fixed : f a = a := confined.others a (List.mem_cons_self ..) mine
      simpa [inside, fixed, mine] using tail
    | true =>
      have kept : own (f a) = true := confined.keeps a (List.mem_cons_self ..) mine
      simpa [inside, kept, mine] using tail

theorem map_outside (confined : Confined own rows f) :
    outside own (rows.map f) = outside own rows := by
  induction rows with
  | nil => rfl
  | cons a rest ih =>
    have tail := ih confined.tail
    cases mine : own a with
    | false =>
      have fixed : f a = a := confined.others a (List.mem_cons_self ..) mine
      simpa [outside, fixed, mine] using tail
    | true =>
      have kept : own (f a) = true := confined.keeps a (List.mem_cons_self ..) mine
      simpa [outside, kept, mine] using tail

theorem remove_inside : inside own (rows.filter q) = (inside own rows).filter q := by
  simp only [inside, List.filter_filter, Bool.and_comm]

/-- What a keyed deletion leaves of the others' rows. -/
theorem remove_outside (keyed : ∀ a, q a = false → own a = true) :
    outside own (rows.filter q) = outside own rows := by
  rw [outside, outside, List.filter_filter]
  congr 1
  funext a
  cases hit : q a with
  | false => simp [keyed a hit]
  | true => simp

theorem append_inside {a : α} (mine : own a = true) :
    inside own (rows ++ [a]) = inside own rows ++ [a] := by
  simp [inside, mine]

theorem append_outside {a : α} (mine : own a = true) :
    outside own (rows ++ [a]) = outside own rows := by
  simp [outside, mine]

end Tenant
