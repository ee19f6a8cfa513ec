import Mathlib.Data.List.Basic

/-! Runs of a labelled transition relation, with every transition they take.
A law about all runs is proved from what one step does: an inductive invariant,
and an equivalence between a step's law and a condition on the step. -/
namespace Trace

variable {S A : Type*}

/-- One transition: the state it leaves, its label, the state it enters. -/
structure Transition (S A : Type*) where
  pre : S
  label : A
  post : S

inductive Run (step : S → A → S → Prop) (start : S) : List (Transition S A) → S → Prop where
  | nil : Run step start [] start
  | snoc {steps : List (Transition S A)} {s t : S} {a : A} :
      Run step start steps s → step s a t → Run step start (steps ++ [⟨s, a, t⟩]) t

def Reachable (step : S → A → S → Prop) (start s : S) : Prop :=
  ∃ steps, Run step start steps s

variable {step : S → A → S → Prop} {start : S}

/-- An inductive invariant holds at the end of every run. -/
theorem Run.invariant {I : S → Prop} (initial : I start)
    (preserved : ∀ s a t, I s → step s a t → I t) {steps : List (Transition S A)} {s : S}
    (run : Run step start steps s) : I s := by
  induction run with
  | nil => exact initial
  | snoc _ taken ih => exact preserved _ _ _ ih taken

/-- The same where only the steps that meet a condition preserve it, over a run of such steps. -/
theorem Run.invariant_of {I : S → Prop} (condition : Transition S A → Prop) (initial : I start)
    (preserved : ∀ s a t, I s → step s a t → condition ⟨s, a, t⟩ → I t)
    {steps : List (Transition S A)} {s : S} (run : Run step start steps s)
    (met : ∀ x ∈ steps, condition x) : I s ∧ ∀ x ∈ steps, I x.post := by
  induction run with
  | nil => exact ⟨initial, fun _ absent => absurd absent List.not_mem_nil⟩
  | snoc _ taken ih =>
    simp only [List.forall_mem_append, List.forall_mem_singleton] at met ⊢
    obtain ⟨before, all⟩ := ih met.1
    have now := preserved _ _ _ before taken met.2
    exact ⟨now, all, now⟩

/-- What the steps that meet a condition do, over a run of such steps. -/
theorem Run.lawful_of {I : S → Prop} (law condition : Transition S A → Prop) (initial : I start)
    (sound : ∀ s a t, I s → step s a t → condition ⟨s, a, t⟩ → I t ∧ law ⟨s, a, t⟩)
    {steps : List (Transition S A)} {s : S} (run : Run step start steps s)
    (met : ∀ x ∈ steps, condition x) : ∀ x ∈ steps, law x := by
  induction run with
  | nil => exact fun _ absent => absurd absent List.not_mem_nil
  | snoc earlier taken ih =>
    simp only [List.forall_mem_append, List.forall_mem_singleton] at met ⊢
    have before := (earlier.invariant_of condition initial
      (fun s a t inv taken met => (sound s a t inv taken met).1) met.1).1
    exact ⟨ih met.1, (sound _ _ _ before taken met.2).2⟩

/-- What each step establishes and later steps keep relates every step of a run to the later ones. -/
theorem Run.pairwise_of (Known : Transition S A → S → Prop) (condition : Transition S A → Prop)
    (law : Transition S A → Transition S A → Prop)
    (learned : ∀ s a t, step s a t → condition ⟨s, a, t⟩ → Known ⟨s, a, t⟩ t)
    (kept : ∀ x s a t, Known x s → step s a t → condition ⟨s, a, t⟩ → Known x t ∧ law x ⟨s, a, t⟩)
    {steps : List (Transition S A)} {s : S} (run : Run step start steps s)
    (met : ∀ x ∈ steps, condition x) : steps.Pairwise law := by
  have both : steps.Pairwise law ∧ ∀ x ∈ steps, Known x s := by
    induction run with
    | nil => exact ⟨.nil, fun _ absent => absurd absent List.not_mem_nil⟩
    | snoc earlier taken ih =>
      simp only [List.forall_mem_append, List.forall_mem_singleton] at met ⊢
      obtain ⟨ordered, known⟩ := ih met.1
      refine ⟨List.pairwise_append.mpr ⟨ordered, List.pairwise_singleton _ _, fun x earlier y last => ?_⟩,
        fun x earlier => (kept x _ _ _ (known x earlier) taken met.2).1, learned _ _ _ taken met.2⟩
      rw [List.mem_singleton.mp last]
      exact (kept x _ _ _ (known x earlier) taken met.2).2
  exact both.1

theorem Run.append {steps rest : List (Transition S A)} {s t : S}
    (first : Run step start steps s) (second : Run step s rest t) :
    Run step start (steps ++ rest) t := by
  induction second with
  | nil => simpa using first
  | snoc _ taken ih =>
    rw [← List.append_assoc]
    exact ih.snoc taken

/-- Execution of a list of labels where a step function allows each in turn. -/
def follow (next : S → A → Option S) (s : S) : List A → Option (List (Transition S A) × S)
  | [] => some ([], s)
  | a :: rest =>
    match next s a with
    | none => none
    | some t => (follow next t rest).map fun r => (⟨s, a, t⟩ :: r.1, r.2)

theorem follow_run {next : S → A → Option S} {s t : S} {labels : List A}
    {steps : List (Transition S A)} (done : follow next s labels = some (steps, t)) :
    Run (fun s a t => next s a = some t) s steps t := by
  induction labels generalizing s steps with
  | nil =>
    cases done
    exact .nil
  | cons a rest ih =>
    simp only [follow] at done
    split at done
    · cases done
    · rename_i u taken
      obtain ⟨r, tail, same⟩ := Option.map_eq_some_iff.mp done
      cases same
      exact (Run.nil.snoc taken).append (ih tail)

theorem Reachable.refl : Reachable step start start := ⟨[], .nil⟩

theorem Reachable.tail {s t : S} {a : A} (reached : Reachable step start s)
    (taken : step s a t) : Reachable step start t :=
  ⟨_, reached.choose_spec.snoc taken⟩

/-- A law of single steps, equivalent to a condition wherever an invariant holds that the law
keeps, holds of all steps of a run exactly when the condition does. -/
theorem Run.lawful_steps_iff {I : S → Prop} (law condition : Transition S A → Prop)
    (initial : I start) (preserved : ∀ s a t, I s → step s a t → law ⟨s, a, t⟩ → I t)
    (exactly : ∀ s a t, I s → step s a t → (law ⟨s, a, t⟩ ↔ condition ⟨s, a, t⟩))
    {steps : List (Transition S A)} {s : S} (run : Run step start steps s) :
    (∀ x ∈ steps, law x) ↔ ∀ x ∈ steps, condition x := by
  -- The invariant at the end of the run comes along: the next step starts there.
  have both : ((∀ x ∈ steps, law x) ↔ ∀ x ∈ steps, condition x) ∧
      ((∀ x ∈ steps, law x) → I s) := by
    induction run with
    | nil => exact ⟨by simp, fun _ => initial⟩
    | @snoc steps s t a earlier taken ih =>
      simp only [List.forall_mem_append, List.forall_mem_singleton]
      constructor
      · constructor
        · rintro ⟨before, now⟩
          exact ⟨ih.1.mp before, (exactly s a t (ih.2 before) taken).mp now⟩
        · rintro ⟨before, now⟩
          have early := ih.1.mpr before
          exact ⟨early, (exactly s a t (ih.2 early) taken).mpr now⟩
      · rintro ⟨before, now⟩
        exact preserved s a t (ih.2 before) taken now
  exact both.1

/-- The same where every step keeps the invariant. -/
theorem Run.forall_iff {I : S → Prop} (law condition : Transition S A → Prop) (initial : I start)
    (preserved : ∀ s a t, I s → step s a t → I t)
    (exactly : ∀ s a t, I s → step s a t → (law ⟨s, a, t⟩ ↔ condition ⟨s, a, t⟩))
    {steps : List (Transition S A)} {s : S} (run : Run step start steps s) :
    (∀ x ∈ steps, law x) ↔ ∀ x ∈ steps, condition x :=
  run.lawful_steps_iff law condition initial
    (fun s a t inv taken _ => preserved s a t inv taken) exactly

/-- A state law that one step keeps exactly under a condition holds in every
state of a run exactly when all its steps meet the condition. The invariant may
need the law to be preserved. -/
theorem Run.lawful_iff {I : S → Prop} (law : S → Prop) (condition : S → A → Prop) (initial : I start)
    (lawful : law start)
    (preserved : ∀ s a t, I s → law s → step s a t → law t → I t)
    (exactly : ∀ s a t, I s → law s → step s a t → (law t ↔ condition s a))
    {steps : List (Transition S A)} {s : S} (run : Run step start steps s) :
    (∀ x ∈ steps, law x.post) ↔ ∀ x ∈ steps, condition x.pre x.label :=
  run.lawful_steps_iff (I := fun s => I s ∧ law s) (fun x => law x.post)
    (fun x => condition x.pre x.label) ⟨initial, lawful⟩
    (fun s a t inv taken now => ⟨preserved s a t inv.1 inv.2 taken now, now⟩)
    (fun s a t inv taken => exactly s a t inv.1 inv.2 taken)

theorem Run.states_iff {I : S → Prop} (law : S → Prop) (condition : S → A → Prop) (initial : I start)
    (preserved : ∀ s a t, I s → step s a t → I t) (lawful : law start)
    (exactly : ∀ s a t, I s → law s → step s a t → (law t ↔ condition s a))
    {steps : List (Transition S A)} {s : S} (run : Run step start steps s) :
    (∀ x ∈ steps, law x.post) ↔ ∀ x ∈ steps, condition x.pre x.label :=
  run.lawful_iff law condition initial lawful
    (fun s a t inv _ taken _ => preserved s a t inv taken) exactly

end Trace
