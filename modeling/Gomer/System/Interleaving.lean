import Mathlib.Logic.Function.Basic
import Gomer.Lib.Trace
import Gomer.Usage.Atomicity
import Gomer.Billing.Subscriptions

/-! The service as its database sees it: any number of `recordEvent` calls, each three
statements long, interleaved with grant inserts, renewals and the passing of time.
A renewal is one transaction and so one step. -/
namespace Gomer

open Relational Drain Trace

/-- How far one `recordEvent` call has come. -/
inductive Call where
  | idle
  | saved (event : CreditEvent)
  | read (event : CreditEvent) (live : List SpendableGrant)
  | ended

structure State where
  db : Database
  now : Instant
  calls : Nat → Call

inductive Action where
  | insertEvent (call : Nat) (input : RecordUsageInput)
  | readGrants (call : Nat) (scan : Scan)
  | insertAllocations (call : Nat)
  | fail (call : Nat)
  | grantCredits (input : GrantCreditsInput)
  | applyRenewal (subscription : Subscription) (seats : Int) (stripeInvoiceId : String)
      (periodEnd : Instant)
  | tick (later : Instant)

namespace State

def advance (s : State) (call : Nat) (phase : Call) : State :=
  { s with calls := Function.update s.calls call phase }

def withLedger (s : State) (ledger : Ledger) : State :=
  { s with db := { s.db with ledger } }

def start (db : Database) (now : Instant) : State := ⟨db, now, fun _ => .idle⟩

end State

/-- The guard on `grantCredits` is what both its callers ensure: the webhook drops a
session without positive credits and the trial has a positive floor. -/
def step (p : Pricing) (s : State) : Action → Option State
  | .insertEvent call input =>
    match s.calls call with
    | .idle => some ((s.withLedger (s.db.ledger.saveEvent (createEvent p input))).advance call
        (.saved (s.db.ledger.nextEvent (createEvent p input))))
    | _ => none
  | .readGrants call scan =>
    match s.calls call with
    | .saved event => some (s.advance call (.read event
        (liveGrantsForSpending scan s.db.ledger event.workspaceId s.now)))
    | _ => none
  | .insertAllocations call =>
    match s.calls call with
    | .read event live =>
      match saveAllocations s.db.ledger event (planAllocations live event.creditsUsed) with
      | .ok next => some ((s.withLedger next).advance call .ended)
      | .error _ => none
    | _ => none
  | .fail call => some (s.advance call .ended)
  | .grantCredits input =>
    if 0 < input.credits then
      match grantCredits s.db.ledger s.now input with
      | .ok next => some (s.withLedger next)
      | .error _ => none
    else none
  | .applyRenewal subscription seats stripeInvoiceId periodEnd =>
    match applyRenewal s.db s.now seats subscription stripeInvoiceId periodEnd with
    | (next, .ok _) => some { s with db := next }
    | (_, .error _) => none
  | .tick later => if s.now ≤ later then some { s with now := later } else none

abbrev Step (p : Pricing) (s : State) (a : Action) (t : State) : Prop := step p s a = some t

/-! What one step can do to the ledger -/

/-- The rows a granting step inserts, in order. -/
def grantedRows (s : State) : Action → List NewGrant
  | .grantCredits input => [createGrant input]
  | .applyRenewal subscription seats stripeInvoiceId periodEnd =>
    match findPlan subscription.planId with
    | some plan => renewalGrants subscription plan stripeInvoiceId periodEnd
        (unspentPlanCredits s.db.ledger.grants s.db.ledger.allocations subscription.workspaceId
          s.now) (seatBonusFor seats)
    | none => []
  | _ => []

/-- A renewal step whose invoice was granted before. -/
def Action.repeated (s : State) : Action → Bool
  | .applyRenewal _ _ stripeInvoiceId _ => alreadyApplied s.db.ledger stripeInvoiceId
  | _ => false

/-- The four effects a step can have on the credit tables. -/
inductive Effect (p : Pricing) (s : State) (a : Action) (t : State) : Prop where
  | none (other : ∀ call, a ≠ .insertAllocations call) (same : t.db.ledger = s.db.ledger)
  | charged (call : Nat) (input : RecordUsageInput) (label : a = .insertEvent call input)
      (charge : t.db.ledger = s.db.ledger.saveEvent (createEvent p input))
  | granted (other : ∀ call, a ≠ .insertAllocations call) (added : List CreditGrant)
      (columns : added.map (·.toNewGrant) = grantedRows s a)
      (first : a.repeated s = false) (positive : ∀ g ∈ added, 0 < g.credits)
      (grants : t.db.ledger.grants = s.db.ledger.grants ++ added)
      (events : t.db.ledger.events = s.db.ledger.events)
      (allocations : t.db.ledger.allocations = s.db.ledger.allocations)
  | drawn (call : Nat) (event : CreditEvent) (live : List SpendableGrant)
      (label : a = .insertAllocations call) (phase : s.calls call = .read event live)
      (grants : t.db.ledger.grants = s.db.ledger.grants)
      (events : t.db.ledger.events = s.db.ledger.events)
      (allocations : t.db.ledger.allocations = s.db.ledger.allocations ++
        (planAllocations live event.creditsUsed).map (createAllocation event))

theorem saveAllocations_ok {L next : Ledger} {event : CreditEvent}
    {planned : List PlannedAllocation} (saved : saveAllocations L event planned = .ok next) :
    next.grants = L.grants ∧ next.events = L.events ∧
      next.allocations = L.allocations ++ planned.map (createAllocation event) := by
  unfold saveAllocations at saved
  split at saved
  · rename_i none
    cases saved
    simp [List.length_eq_zero_iff.mp none]
  · exact Ledger.saveAllocations_ok saved

theorem applyRenewal_effect {s : State} {next : Database} {seats : Int}
    {subscription : Subscription} {stripeInvoiceId : String} {periodEnd : Instant}
    {result : RenewalResult} (done : applyRenewal s.db s.now seats subscription stripeInvoiceId
      periodEnd = (next, .ok result)) :
    next.ledger = s.db.ledger ∨ alreadyApplied s.db.ledger stripeInvoiceId = false ∧
      ∃ added : List CreditGrant, added.map (·.toNewGrant) =
          grantedRows s (.applyRenewal subscription seats stripeInvoiceId periodEnd) ∧
        (∀ g ∈ added, 0 < g.credits) ∧ next.ledger.grants = s.db.ledger.grants ++ added ∧
        next.ledger.events = s.db.ledger.events ∧
        next.ledger.allocations = s.db.ledger.allocations := by
  cases applied : result.applied with
  | false =>
    left
    rw [applyRenewal_unapplied done fun r hr => by cases hr; exact applied]
  | true =>
    right
    obtain ⟨plan, found, first, outcome, saved, _⟩ := applyRenewal_applied done applied
    obtain ⟨added, grants, columns, _, events, allocations⟩ := Ledger.saveGrants_ok saved
    have rows : added.map (·.toNewGrant) =
        grantedRows s (.applyRenewal subscription seats stripeInvoiceId periodEnd) := by
      rw [columns, outcome]
      simp only [grantedRows, found]
    refine ⟨first, added, rows, ?_, grants, events, allocations⟩
    intro g hg
    have row : g.toNewGrant ∈ added.map (·.toNewGrant) := List.mem_map_of_mem hg
    rw [columns] at row
    exact renewalGrants_pos (findPlan_pos found) _ row

theorem step_effect {p : Pricing} {s t : State} {a : Action} (taken : Step p s a t) :
    Effect p s a t := by
  cases a with
  | insertEvent call input =>
    simp only [Step, step] at taken
    split at taken <;> cases taken
    exact .charged call input rfl rfl
  | readGrants call scan =>
    simp only [Step, step] at taken
    split at taken <;> cases taken
    exact .none nofun rfl
  | insertAllocations call =>
    simp only [Step, step] at taken
    split at taken
    · rename_i event live phase
      split at taken <;> cases taken
      rename_i next saved
      obtain ⟨grants, events, allocations⟩ := saveAllocations_ok saved
      exact .drawn call event live rfl phase grants events allocations
    · cases taken
  | fail call =>
    cases taken
    exact .none nofun rfl
  | grantCredits input =>
    simp only [Step, step] at taken
    split at taken
    · rename_i positive
      split at taken <;> cases taken
      rename_i next saved
      obtain ⟨_, grants, events, allocations⟩ := Ledger.saveGrant_ok saved
      refine .granted nofun _ rfl rfl ?_ grants events allocations
      intro g hg
      rw [List.mem_singleton.mp hg]
      exact positive
    · cases taken
  | applyRenewal subscription seats stripeInvoiceId periodEnd =>
    simp only [Step, step] at taken
    split at taken <;> cases taken
    rename_i next result done
    obtain same | ⟨first, added, columns, positive, grants, events, allocations⟩ :=
      applyRenewal_effect done
    · exact .none nofun same
    · exact .granted nofun added columns first positive grants events allocations
  | tick later =>
    simp only [Step, step] at taken
    split at taken <;> cases taken
    exact .none nofun rfl

/-- A call that holds a read either already held it, or reads it in this very step. -/
theorem step_read {p : Pricing} {s t : State} {a : Action} (taken : Step p s a t) {call : Nat}
    {event : CreditEvent} {live : List SpendableGrant} (holds : t.calls call = .read event live) :
    s.calls call = .read event live ∨ ∃ scan, s.calls call = .saved event ∧ t.db = s.db ∧
      live = liveGrantsForSpending scan s.db.ledger event.workspaceId s.now := by
  -- Only the call that steps changes its phase.
  have other : ∀ c phase, (State.advance s c phase).calls call = .read event live →
      (phase = .read event live ∧ c = call) ∨ s.calls call = .read event live := by
    intro c phase h
    change Function.update s.calls c phase call = _ at h
    by_cases same : call = c
    · subst same
      rw [Function.update_self] at h
      exact .inl ⟨h, rfl⟩
    · rw [Function.update_of_ne same] at h
      exact .inr h
  cases a with
  | insertEvent c input =>
    simp only [Step, step] at taken
    split at taken <;> cases taken
    obtain ⟨h, _⟩ | h := other _ _ holds
    · cases h
    · exact .inl h
  | readGrants c scan =>
    simp only [Step, step] at taken
    split at taken <;> cases taken
    rename_i phase
    obtain ⟨h, rfl⟩ | h := other _ _ holds
    · cases h
      exact .inr ⟨scan, phase, rfl, rfl⟩
    · exact .inl h
  | insertAllocations c =>
    simp only [Step, step] at taken
    split at taken
    · split at taken <;> cases taken
      obtain ⟨h, _⟩ | h := other _ _ holds
      · cases h
      · exact .inl h
    · cases taken
  | fail c =>
    cases taken
    obtain ⟨h, _⟩ | h := other _ _ holds
    · cases h
    · exact .inl h
  | grantCredits input =>
    simp only [Step, step] at taken
    split at taken
    · split at taken <;> cases taken
      exact .inl holds
    · cases taken
  | applyRenewal subscription seats stripeInvoiceId periodEnd =>
    simp only [Step, step] at taken
    split at taken <;> cases taken
    exact .inl holds
  | tick later =>
    simp only [Step, step] at taken
    split at taken <;> cases taken
    exact .inl holds

end Gomer
