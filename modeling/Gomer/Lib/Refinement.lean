import Gomer.Lib.Trace

/-! A machine that is the image of another: where the states of an invariant go, the steps of the
one are those of the other, and so are the runs. -/
namespace Refinement

open Trace

variable {S T A : Type*}

/-- On images of states that meet `inv`, the concrete machine does what the abstract one does. -/
structure Commutes (concrete : T → A → Option T) (abstract : S → A → Option S) (image : S → T)
    (inv : S → Prop) : Prop where
  step : ∀ s a, inv s → concrete (image s) a = (abstract s a).map image
  kept : ∀ s a t, inv s → abstract s a = some t → inv t

variable {concrete : T → A → Option T} {abstract : S → A → Option S} {image : S → T}
  {inv : S → Prop} {start : S}

/-- A run of the abstract machine, seen in the concrete one. -/
theorem Commutes.forth (commutes : Commutes concrete abstract image inv) (initial : inv start)
    {steps : List (Transition S A)} {s : S}
    (run : Run (fun s a t => abstract s a = some t) start steps s) :
    inv s ∧ Run (fun s a t => concrete s a = some t) (image start)
      (steps.map fun x => ⟨image x.pre, x.label, image x.post⟩) (image s) := by
  induction run with
  | nil => exact ⟨initial, .nil⟩
  | @snoc steps s t a _ taken ih =>
    obtain ⟨holds, before⟩ := ih
    have seen : concrete (image s) a = some (image t) := by
      rw [commutes.step s a holds, taken]
      rfl
    rw [List.map_append]
    exact ⟨commutes.kept s a t holds taken, before.snoc seen⟩

/-- Every run of the concrete machine is one of the abstract machine. -/
theorem Commutes.back (commutes : Commutes concrete abstract image inv) (initial : inv start)
    {steps : List (Transition T A)} {u : T}
    (run : Run (fun s a t => concrete s a = some t) (image start) steps u) :
    ∃ earlier s, Run (fun s a t => abstract s a = some t) start earlier s ∧ inv s ∧ u = image s ∧
      steps = earlier.map fun x => ⟨image x.pre, x.label, image x.post⟩ := by
  induction run with
  | nil => exact ⟨[], start, .nil, initial, rfl, rfl⟩
  | @snoc steps u v a _ taken ih =>
    obtain ⟨earlier, s, run, holds, rfl, rfl⟩ := ih
    rw [commutes.step s a holds] at taken
    obtain ⟨t, next, rfl⟩ := Option.map_eq_some_iff.mp taken
    refine ⟨earlier ++ [⟨s, a, t⟩], t, run.snoc next, commutes.kept s a t holds next, rfl, ?_⟩
    rw [List.map_append]
    rfl

theorem Commutes.reachable_iff (commutes : Commutes concrete abstract image inv)
    (initial : inv start) {u : T} :
    Reachable (fun s a t => concrete s a = some t) (image start) u ↔
      ∃ s, Reachable (fun s a t => abstract s a = some t) start s ∧ u = image s := by
  constructor
  · rintro ⟨steps, run⟩
    obtain ⟨earlier, s, run, -, same, -⟩ := commutes.back initial run
    exact ⟨s, ⟨earlier, run⟩, same⟩
  · rintro ⟨s, ⟨steps, run⟩, rfl⟩
    exact ⟨_, (commutes.forth initial run).2⟩

end Refinement
