import Mathlib.Data.List.Basic

/-! Computations that may throw. What one has done by then stays done, and a loop that does not
catch the exception of an item has no result. -/
namespace Throwing

variable {ω α β : Type*}

structure Outcome (ω α : Type*) where
  done : List ω
  result : Except String α

namespace Outcome

def returns (value : α) : Outcome ω α := ⟨[], .ok value⟩

def throws (message : String) : Outcome ω α := ⟨[], .error message⟩

/-- A request, sent before it is known whether it fails. -/
def sends (event : ω) (failure : Option String) : Outcome ω Unit :=
  ⟨[event], match failure with | none => .ok () | some message => .error message⟩

def andThen (first : Outcome ω α) (next : α → Outcome ω β) : Outcome ω β :=
  match first.result with
  | .ok value => ⟨first.done ++ (next value).done, (next value).result⟩
  | .error message => ⟨first.done, .error message⟩

/-- `try { … } catch (error) { … }` -/
def tryCatch (body : Outcome ω α) (handler : String → Outcome ω α) : Outcome ω α :=
  match body.result with
  | .ok _ => body
  | .error message => ⟨body.done ++ (handler message).done, (handler message).result⟩

/-- `try { … } finally { … }`: what the last block throws replaces what came before it. -/
def tryFinally (body : Outcome ω α) (last : Outcome ω Unit) : Outcome ω α :=
  ⟨body.done ++ last.done,
    match last.result with
    | .ok () => body.result
    | .error message => .error message⟩

/-- `for (const item of items) results.push(await body(item));` -/
def forEach (body : α → Outcome ω β) : List α → Outcome ω (List β)
  | [] => returns []
  | item :: rest =>
    (body item).andThen fun value => (forEach body rest).andThen fun values =>
      returns (value :: values)

theorem tryFinally_ok {body : Outcome ω α} {last : Outcome ω Unit} (fine : last.result = .ok ()) :
    (body.tryFinally last).result = body.result := by
  simp only [tryFinally, fine]

theorem tryFinally_error {body : Outcome ω α} {last : Outcome ω Unit} {message : String}
    (fails : last.result = .error message) : (body.tryFinally last).result = .error message := by
  simp only [tryFinally, fails]

theorem forEach_returns {body : α → Outcome ω β} {value : α → β} {items : List α}
    (fine : ∀ item ∈ items, (body item).result = .ok (value item)) :
    forEach body items = ⟨items.flatMap fun item => (body item).done, .ok (items.map value)⟩ := by
  induction items with
  | nil => rfl
  | cons item rest ih =>
    obtain ⟨first, others⟩ := List.forall_mem_cons.mp fine
    simp only [forEach, andThen, returns, first, ih others, List.append_nil, List.flatMap_cons,
      List.map_cons]

/-- The first item that throws ends the loop. -/
theorem forEach_throws {body : α → Outcome ω β} {value : α → β} {before after : List α} {item : α}
    {message : String} (fine : ∀ earlier ∈ before, (body earlier).result = .ok (value earlier))
    (fails : (body item).result = .error message) :
    forEach body (before ++ item :: after) =
      ⟨(before ++ [item]).flatMap fun item => (body item).done, .error message⟩ := by
  induction before with
  | nil => simp only [List.nil_append, forEach, andThen, fails, List.flatMap_singleton]
  | cons first rest ih =>
    obtain ⟨head, others⟩ := List.forall_mem_cons.mp fine
    simp only [List.cons_append, forEach, andThen, head, ih others, List.flatMap_cons]

/-- A loop has results exactly when no item throws. -/
theorem forEach_ok_iff {body : α → Outcome ω β} {items : List α} :
    (∃ values, (forEach body items).result = .ok values) ↔
      ∀ item ∈ items, ∃ value, (body item).result = .ok value := by
  induction items with
  | nil => exact iff_of_true ⟨[], rfl⟩ fun _ absent => absurd absent List.not_mem_nil
  | cons item rest ih =>
    rw [List.forall_mem_cons, ← ih]
    cases first : (body item).result with
    | error message => simp [forEach, andThen, first]
    | ok value =>
      cases later : (forEach body rest).result <;> simp [forEach, andThen, returns, first, later]

end Outcome

end Throwing
