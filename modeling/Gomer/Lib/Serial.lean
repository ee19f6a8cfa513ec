import Mathlib.Data.List.Nodup
import Mathlib.Tactic.Common

/-! A loop that goes over a list with a state, and ends at the first item that throws. -/
namespace Serial

variable {σ ε α β : Type*}

/-- `for (const item of items) results.push(await body(item));` -/
def run (body : σ → α → σ × Except ε β) : σ → List α → σ × Except ε (List β)
  | s, [] => (s, .ok [])
  | s, item :: rest =>
    match body s item with
    | (t, .error e) => (t, .error e)
    | (t, .ok value) => ((run body t rest).1, (run body t rest).2.map (value :: ·))

/-- The loop goes over these items without a throw, from one state to another. -/
inductive Reaches (body : σ → α → σ × Except ε β) : σ → List α → σ → Prop
  | nil (s : σ) : Reaches body s [] s
  | cons {s t u : σ} {item : α} {value : β} {rest : List α} (fine : body s item = (t, .ok value))
      (later : Reaches body t rest u) : Reaches body s (item :: rest) u

variable {body : σ → α → σ × Except ε β} {s t u : σ} {item : α} {items : List α}

theorem run_cons_ok {value : β} (fine : body s item = (t, .ok value)) :
    (∃ values, (run body s (item :: items)).2 = .ok values) ↔
      ∃ values, (run body t items).2 = .ok values := by
  simp only [run, fine]
  cases (run body t items).2 <;> simp [Except.map]

theorem run_cons_error {e : ε} (fails : body s item = (t, .error e)) :
    run body s (item :: items) = (t, .error e) := by
  simp only [run, fails]

/-- The loop has results exactly when no item throws in the state that the loop comes to it in. -/
theorem run_ok_iff : (∃ values, (run body s items).2 = .ok values) ↔
    ∀ before item after t, items = before ++ item :: after → Reaches body s before t →
      ∃ value, (body t item).2 = .ok value := by
  induction items generalizing s with
  | nil => exact iff_of_true ⟨[], rfl⟩ fun before item after t split => by simp at split
  | cons first rest ih =>
    cases now : body s first with
    | mk t result =>
      cases result with
      | error e =>
        rw [run_cons_error now]
        refine iff_of_false (by simp) fun all => ?_
        obtain ⟨value, fine⟩ := all [] first rest s rfl (.nil s)
        rw [now] at fine
        cases fine
      | ok value =>
        rw [run_cons_ok now, ih]
        constructor
        · intro all before item after u split reached
          cases reached with
          | nil =>
            obtain ⟨rfl, rfl⟩ := List.cons.inj split
            exact ⟨value, by rw [now]⟩
          | @cons _ t' _ b value' before fine later =>
            obtain ⟨rfl, rfl⟩ := List.cons.inj split
            cases now.symm.trans fine
            exact all before item after u rfl later
        · intro all before item after u split reached
          exact all (first :: before) item after u (by rw [split, List.cons_append])
            (.cons now reached)

/-- The results are those of the items, in their order. -/
theorem run_map {read : β → α} (own : ∀ s item value, (body s item).2 = .ok value → read value = item)
    {values : List β} (fine : (run body s items).2 = .ok values) : values.map read = items := by
  induction items generalizing s values with
  | nil =>
    cases fine
    rfl
  | cons item rest ih =>
    cases now : body s item with
    | mk t result =>
      cases result with
      | error e =>
        rw [run_cons_error now] at fine
        cases fine
      | ok value =>
        simp only [run, now] at fine
        cases later : (run body t rest).2 with
        | error e =>
          rw [later] at fine
          cases fine
        | ok others =>
          rw [later] at fine
          cases fine
          rw [List.map_cons, own s item value (by rw [now]), ih later]

/-- A loop without a throw comes to each of its items. -/
theorem reaches_of_ok {values : List β} (fine : (run body s items).2 = .ok values)
    {before after : List α} (split : items = before ++ after) : ∃ t, Reaches body s before t := by
  induction before generalizing s items values with
  | nil => exact ⟨s, .nil s⟩
  | cons first before ih =>
    subst split
    cases now : body s first with
    | mk t result =>
      cases result with
      | error e =>
        rw [List.cons_append, run_cons_error now] at fine
        cases fine
      | ok value =>
        obtain ⟨others, rest⟩ := (run_cons_ok now).mp ⟨values, fine⟩
        obtain ⟨u, reached⟩ := ih rest rfl
        exact ⟨u, .cons now reached⟩

/-- What holds at the start of the loop and passes from item to item, with the items done so far. -/
theorem Reaches.invariant {I : List α → σ → Prop} {before : List α} (initial : I before s)
    (preserved : ∀ before item s t value, I before s → item ∉ before →
      body s item = (t, .ok value) → I (before ++ [item]) t)
    (reached : Reaches body s items u) (distinct : (before ++ items).Nodup) :
    I (before ++ items) u := by
  induction reached generalizing before with
  | nil => simpa using initial
  | @cons s t u item value rest fine _ ih =>
    have fresh : item ∉ before := fun member =>
      (List.nodup_append.mp distinct).2.2 item member item List.mem_cons_self rfl
    rw [List.append_cons] at distinct ⊢
    exact ih (preserved before item s t value initial fresh fine) distinct

end Serial
