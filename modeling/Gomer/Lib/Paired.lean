import Mathlib.Data.List.Forall2
import Mathlib.Tactic.Common

/-! Lists related entry by entry: what holds of one list in terms of the other, and reading every
value of a list. -/
namespace Paired

variable {α β : Type*} {R : α → β → Prop} {as : List α} {bs : List β}

theorem exists_left (related : List.Forall₂ R as bs) {b : β} (member : b ∈ bs) :
    ∃ a ∈ as, R a b := by
  induction related with
  | nil => cases member
  | @cons a first as bs here _ ih =>
    rcases List.mem_cons.mp member with rfl | later
    · exact ⟨a, List.mem_cons_self, here⟩
    · obtain ⟨a, inside, related⟩ := ih later
      exact ⟨a, List.mem_cons_of_mem _ inside, related⟩

theorem exists_right (related : List.Forall₂ R as bs) {a : α} (member : a ∈ as) :
    ∃ b ∈ bs, R a b := exists_left related.flip member

theorem exists_iff {P : α → Prop} {Q : β → Prop} (related : List.Forall₂ R as bs)
    (same : ∀ a b, R a b → (P a ↔ Q b)) : (∃ a ∈ as, P a) ↔ ∃ b ∈ bs, Q b := by
  constructor
  · rintro ⟨a, member, holds⟩
    obtain ⟨b, inside, pair⟩ := exists_right related member
    exact ⟨b, inside, (same a b pair).mp holds⟩
  · rintro ⟨b, member, holds⟩
    obtain ⟨a, inside, pair⟩ := exists_left related member
    exact ⟨a, inside, (same a b pair).mpr holds⟩

theorem forall_iff {P : α → Prop} {Q : β → Prop} (related : List.Forall₂ R as bs)
    (same : ∀ a b, R a b → (P a ↔ Q b)) : (∀ a ∈ as, P a) ↔ ∀ b ∈ bs, Q b := by
  constructor
  · intro all b member
    obtain ⟨a, inside, pair⟩ := exists_left related member
    exact (same a b pair).mp (all a inside)
  · intro all a member
    obtain ⟨b, inside, pair⟩ := exists_right related member
    exact (same a b pair).mpr (all b inside)

theorem map_eq_map {γ : Type*} {f : α → γ} {g : β → γ} (related : List.Forall₂ R as bs)
    (same : ∀ a b, R a b → f a = g b) : as.map f = bs.map g := by
  induction related with
  | nil => rfl
  | cons here _ ih => rw [List.map_cons, List.map_cons, same _ _ here, ih]

theorem map_eq {γ : Type*} {S : α → γ → Prop} {cs : List γ} {f : β → γ}
    (related : List.Forall₂ R as bs) (other : List.Forall₂ S as cs)
    (same : ∀ a b c, R a b → S a c → f b = c) : bs.map f = cs := by
  induction related generalizing cs with
  | nil =>
    cases other
    rfl
  | cons here _ ih =>
    cases other with
    | cons there rest => rw [List.map_cons, same _ _ _ here there, ih rest]

theorem trans {γ : Type*} {S : β → γ → Prop} {T : α → γ → Prop} {cs : List γ}
    (first : List.Forall₂ R as bs) (second : List.Forall₂ S bs cs)
    (compose : ∀ a b c, R a b → S b c → T a c) : List.Forall₂ T as cs := by
  induction first generalizing cs with
  | nil =>
    cases second
    exact .nil
  | cons here _ ih =>
    cases second with
    | cons there rest => exact .cons (compose _ _ _ here there) (ih rest)

theorem snoc {b : β} (related : List.Forall₂ R as (bs ++ [b])) :
    ∃ front a, as = front ++ [a] ∧ List.Forall₂ R front bs ∧ R a b := by
  rcases List.eq_nil_or_concat as with rfl | ⟨front, a, rfl⟩
  · cases bs <;> cases related
  · rw [← List.forall₂_reverse_iff] at related
    simp only [List.concat_eq_append, List.reverse_append, List.reverse_singleton,
      List.singleton_append, List.forall₂_cons, List.forall₂_reverse_iff] at related
    exact ⟨front, a, List.concat_eq_append, related.2, related.1⟩

/-- Every value read, or nothing. -/
def readAll (read : α → Option β) : List α → Option (List β)
  | [] => some []
  | value :: values => do
    let first ← read value
    let rest ← readAll read values
    some (first :: rest)

theorem readAll_eq_some {read : α → Option β} :
    readAll read as = some bs ↔ List.Forall₂ (fun value result => read value = some result) as bs := by
  induction as generalizing bs with
  | nil => cases bs <;> simp [readAll]
  | cons value values ih =>
    simp only [readAll, Option.bind_eq_bind, Option.bind_eq_some_iff, Option.some.injEq,
      List.forall₂_cons_left_iff]
    constructor
    · rintro ⟨first, here, rest, later, rfl⟩
      exact ⟨first, rest, here, ih.mp later, rfl⟩
    · rintro ⟨first, rest, here, later, rfl⟩
      exact ⟨first, here, rest, ih.mpr later, rfl⟩

theorem readAll_isSome {read : α → Option β} :
    (readAll read as).isSome = true ↔ ∀ value ∈ as, (read value).isSome = true := by
  induction as with
  | nil => simp [readAll]
  | cons value values ih =>
    rw [List.forall_mem_cons, ← ih]
    cases here : read value with
    | none => simp [readAll, here]
    | some first =>
      cases later : readAll read values with
      | none => simp [readAll, here, later]
      | some rest => simp [readAll, here, later]

end Paired
