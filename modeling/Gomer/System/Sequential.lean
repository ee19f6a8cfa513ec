import Gomer.System.Interleaving

/-! The service run one operation at a time and without failures. Every such run is one
of the interleaved runs, with each charge's three statements in a row. -/
namespace Gomer

open Relational Drain Trace

structure World where
  db : Database
  now : Instant

inductive Operation where
  | grantCredits (input : GrantCreditsInput)
  | applyRenewal (subscription : Subscription) (seats : Int) (stripeInvoiceId : String)
      (periodEnd : Instant)
  | recordEvent (scan : Scan) (input : RecordUsageInput)
  | tick (later : Instant)

def noFaults : Faults := fun _ => none

def perform (p : Pricing) (w : World) : Operation → Option World
  | .grantCredits input =>
    if 0 < input.credits then
      match grantCredits w.db.ledger w.now input with
      | .ok ledger => some { w with db := { w.db with ledger } }
      | .error _ => none
    else none
  | .applyRenewal subscription seats stripeInvoiceId periodEnd =>
    match applyRenewal w.db w.now seats subscription stripeInvoiceId periodEnd with
    | (db, .ok _) => some { w with db }
    | (_, .error _) => none
  | .recordEvent scan input =>
    match recordEvent p noFaults scan w.db.ledger w.now input with
    | (ledger, .ok _) => some { w with db := { w.db with ledger } }
    | (_, .error _) => none
  | .tick later => if w.now ≤ later then some { w with now := later } else none

abbrev Performs (p : Pricing) (w : World) (o : Operation) (v : World) : Prop :=
  perform p w o = some v

/-- The event a charge in this world gets. -/
def World.nextEvent (w : World) (p : Pricing) (input : RecordUsageInput) : CreditEvent :=
  w.db.ledger.nextEvent (createEvent p input)

/-- What one operation does to the ledger: nothing, new grants, or a charge with its plan. -/
inductive Outcome (p : Pricing) (w : World) (o : Operation) (v : World) : Prop where
  | none (other : ∀ scan input, o ≠ .recordEvent scan input) (same : v.db.ledger = w.db.ledger)
  | granted (other : ∀ scan input, o ≠ .recordEvent scan input) (added : List CreditGrant)
      (positive : ∀ g ∈ added, 0 < g.credits)
      (grants : v.db.ledger.grants = w.db.ledger.grants ++ added)
      (events : v.db.ledger.events = w.db.ledger.events)
      (allocations : v.db.ledger.allocations = w.db.ledger.allocations)
  | charged (scan : Scan) (input : RecordUsageInput) (label : o = .recordEvent scan input)
      (grants : v.db.ledger.grants = w.db.ledger.grants)
      (events : v.db.ledger.events = w.db.ledger.events ++ [w.nextEvent p input])
      (allocations : v.db.ledger.allocations = w.db.ledger.allocations ++
        (planFor p scan w.db.ledger w.now input).map (createAllocation (w.nextEvent p input)))

/-- The action that does what an operation other than a charge does. -/
def Operation.action : Operation → Option Action
  | .grantCredits input => some (.grantCredits input)
  | .applyRenewal subscription seats stripeInvoiceId periodEnd =>
    some (.applyRenewal subscription seats stripeInvoiceId periodEnd)
  | .recordEvent _ _ => none
  | .tick later => some (.tick later)

theorem perform_action {p : Pricing} {w v : World} {o : Operation} {a : Action}
    (done : Performs p w o v) (single : o.action = some a) (calls : Nat → Call) :
    Step p ⟨w.db, w.now, calls⟩ a ⟨v.db, v.now, calls⟩ := by
  cases o with
  | grantCredits input =>
    cases single
    by_cases positive : 0 < input.credits
    · cases saved : grantCredits w.db.ledger w.now input with
      | ok ledger =>
        simp only [Performs, perform, Step, step, if_pos positive, saved] at done ⊢
        cases done
        rfl
      | error e => simp [Performs, perform, saved] at done
    · simp [Performs, perform, positive] at done
  | applyRenewal subscription seats stripeInvoiceId periodEnd =>
    cases single
    cases ran : applyRenewal w.db w.now seats subscription stripeInvoiceId periodEnd with
    | mk db outcome =>
      cases outcome with
      | ok result =>
        simp only [Performs, perform, Step, step, ran] at done ⊢
        cases done
        rfl
      | error e => simp [Performs, perform, ran] at done
  | recordEvent scan input => cases single
  | tick later =>
    cases single
    simp only [Performs, perform, Step, step] at done ⊢
    split at done <;> cases done
    rename_i onward
    simp only [if_pos onward]

theorem perform_charge {p : Pricing} {w v : World} {scan : Scan} {input : RecordUsageInput}
    (done : Performs p w (.recordEvent scan input) v) :
    saveAllocations (w.db.ledger.saveEvent (createEvent p input)) (w.nextEvent p input)
        (planFor p scan w.db.ledger w.now input) = .ok v.db.ledger ∧
      v.db.subscriptions = w.db.subscriptions ∧ v.now = w.now := by
  obtain ⟨next, ran, saved, _⟩ :=
    @recordEvent_ok p scan w.db.ledger w.now input noFaults rfl rfl rfl
  simp only [Performs, perform, ran] at done
  cases done
  exact ⟨saved, rfl, rfl⟩

theorem perform_outcome {p : Pricing} {w v : World} {o : Operation} (done : Performs p w o v) :
    Outcome p w o v := by
  cases single : o.action with
  | none =>
    cases o with
    | recordEvent scan input =>
      obtain ⟨grants, events, allocations⟩ := saveAllocations_ok (perform_charge done).1
      exact .charged scan input rfl grants events allocations
    | _ => cases single
  | some a =>
    have other : ∀ scan input, o ≠ .recordEvent scan input := by
      rintro scan input rfl
      cases single
    cases step_effect (perform_action done single fun _ => .idle) with
    | none _ same => exact .none other same
    | granted _ added _ _ positive grants events allocations =>
      exact .granted other added positive grants events allocations
    | charged call input label =>
      subst label
      cases o <;> cases single
    | drawn call event live label =>
      subst label
      cases o <;> cases single

/-- A charge is its three statements, one after the other. -/
theorem charge_interleaved {p : Pricing} {w v : World} {scan : Scan} {input : RecordUsageInput}
    (done : Performs p w (.recordEvent scan input) v) {calls : Nat → Call} {call : Nat}
    (free : calls call = .idle) : ∃ steps, Run (Step p) ⟨w.db, w.now, calls⟩ steps
      ⟨v.db, v.now, Function.update calls call .ended⟩ := by
  obtain ⟨saved, subscriptions, now⟩ := perform_charge done
  let inserted : State := ⟨⟨w.db.ledger.saveEvent (createEvent p input), w.db.subscriptions⟩, w.now,
    Function.update calls call (.saved (w.nextEvent p input))⟩
  let planned : State := inserted.advance call (.read (w.nextEvent p input)
    (liveGrantsForSpending scan w.db.ledger input.workspaceId w.now))
  have insert : Step p ⟨w.db, w.now, calls⟩ (.insertEvent call input) inserted := by
    simp only [Step, step, free]
    rfl
  have read : Step p inserted (.readGrants call scan) planned := by
    have phase : inserted.calls call = .saved (w.nextEvent p input) := Function.update_self ..
    simp only [Step, step, phase]
    rfl
  have save : Step p planned (.insertAllocations call)
      ⟨v.db, v.now, Function.update calls call .ended⟩ := by
    have phase : planned.calls call = .read (w.nextEvent p input)
        (liveGrantsForSpending scan w.db.ledger input.workspaceId w.now) := Function.update_self ..
    have plan : saveAllocations planned.db.ledger (w.nextEvent p input) (planAllocations
        (liveGrantsForSpending scan w.db.ledger input.workspaceId w.now)
        (w.nextEvent p input).creditsUsed) = .ok v.db.ledger := saved
    have ended : (planned.withLedger v.db.ledger).advance call .ended =
        ⟨v.db, v.now, Function.update calls call .ended⟩ := by
      simp only [planned, inserted, State.advance, State.withLedger, Function.update_idem,
        ← subscriptions, now]
    simp only [Step, step, phase, plan, ended]
  exact ⟨_, ((Run.nil.snoc insert).snoc read).snoc save⟩

/-- Every sequential run is an interleaved run of as many calls as it has charges. -/
theorem sequential_interleaved {p : Pricing} {w v : World}
    {steps : List (Transition World Operation)} (run : Run (Performs p) w steps v) :
    ∃ calls, (∃ n, ∀ call ≥ n, calls call = Call.idle) ∧
      Reachable (Step p) (State.start w.db w.now) ⟨v.db, v.now, calls⟩ := by
  induction run with
  | nil => exact ⟨fun _ => .idle, ⟨0, fun _ _ => rfl⟩, .refl⟩
  | @snoc steps v u o _ done ih =>
    obtain ⟨calls, ⟨n, free⟩, before, earlier⟩ := ih
    cases single : o.action with
    | some a =>
      exact ⟨calls, ⟨n, free⟩, _, earlier.snoc (perform_action done single calls)⟩
    | none =>
      cases o with
      | recordEvent scan input =>
        obtain ⟨three, charged⟩ := charge_interleaved done (free n (le_refl n))
        refine ⟨Function.update calls n .ended, ⟨n + 1, ?_⟩, _, earlier.append charged⟩
        intro call later
        rw [Function.update_of_ne (by omega)]
        exact free call (by omega)
      | _ => cases single

end Gomer
