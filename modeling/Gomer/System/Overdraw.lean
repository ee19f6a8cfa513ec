import Gomer.System.Interleaving

/-! When interleaved calls overdraw a grant. What remains on a grant is read in one
statement and spent in a later one, so two calls can spend the same credits; the
condition below says which saves do. -/
namespace Gomer

open Relational Drain Trace

def NoOverAllocation (L : Ledger) : Prop := ∀ g ∈ L.grants, L.spentOn g.id ≤ g.credits

instance (L : Ledger) : Decidable (NoOverAllocation L) :=
  inferInstanceAs (Decidable (∀ g ∈ L.grants, L.spentOn g.id ≤ g.credits))

/-- At a save, each grant of the read still holds what was read on it, or at least the
part of the charge that the grants ahead of it in spend order do not cover. -/
def FreshEnough (s : State) : Action → Prop
  | .insertAllocations call => ∀ event live, s.calls call = .read event live →
      ∀ ahead row behind, ordered live = ahead ++ row :: behind →
        ∀ g ∈ s.db.ledger.grants, g.id = row.id →
          row.remaining ≤ s.db.ledger.remainingOn g ∨
          event.creditsUsed - holding (·.remaining) ahead ≤ s.db.ledger.remainingOn g
  | _ => True

/-- Each read in flight names a grant once. -/
def DistinctReads (s : State) : Prop :=
  ∀ call event live, s.calls call = .read event live → (live.map (·.id)).Nodup

theorem distinctReads_start (db : Database) (now : Instant) : DistinctReads (State.start db now) := by
  intro call event live holds
  cases holds

theorem distinctReads_step {p : Pricing} {s t : State} {a : Action} (reads : DistinctReads s)
    (taken : Step p s a t) : DistinctReads t := by
  intro call event live holds
  obtain before | ⟨scan, _, _, rfl⟩ := step_read taken holds
  · exact reads call event live before
  · exact liveGrants_key scan s.db.ledger event.workspaceId s.now

theorem spentOn_planned {L next : Ledger} {event : CreditEvent} {planned : List PlannedAllocation}
    (saved : next.allocations = L.allocations ++ planned.map (createAllocation event))
    (grant : Uuid) : next.spentOn grant =
      L.spentOn grant + ((planned.filter fun a => a.grantId == grant).map (·.credits)).sum := by
  rw [Ledger.spentOn_append saved, List.filter_map, List.map_map]
  rfl

/-- A save keeps every grant covered exactly when the read is fresh enough. -/
theorem covered_draw_iff {L next : Ledger} {event : CreditEvent} {live : List SpendableGrant}
    (covered : NoOverAllocation L) (key : (live.map (·.id)).Nodup)
    (grants : next.grants = L.grants)
    (saved : next.allocations = L.allocations ++
      (planAllocations live event.creditsUsed).map (createAllocation event)) :
    NoOverAllocation next ↔ ∀ ahead row behind, ordered live = ahead ++ row :: behind →
      ∀ g ∈ L.grants, g.id = row.id → row.remaining ≤ L.remainingOn g ∨
        event.creditsUsed - holding (·.remaining) ahead ≤ L.remainingOn g := by
  constructor
  · intro after ahead row behind place g hg same
    have kept := after g (by rw [grants]; exact hg)
    have before := covered g hg
    have nonneg := holding_nonneg (fun r : SpendableGrant => r.remaining) ahead
    rw [spentOn_planned saved, same, planned_on event.creditsUsed key place, ← same] at kept
    unfold Ledger.remainingOn
    omega
  · intro fresh g hg
    rw [grants] at hg
    have before := covered g hg
    rw [spentOn_planned saved]
    by_cases read : g.id ∈ live.map (·.id)
    · obtain ⟨row, hrow, same⟩ := List.mem_map.mp read
      obtain ⟨ahead, behind, place⟩ :=
        List.append_of_mem ((ordered_perm live).mem_iff.mpr hrow)
      have enough := fresh ahead row behind place g hg same.symm
      have nonneg := holding_nonneg (fun r : SpendableGrant => r.remaining) ahead
      rw [← same, planned_on event.creditsUsed key place, same]
      unfold Ledger.remainingOn at enough
      omega
    · rw [planned_absent event.creditsUsed read]
      omega

theorem freshEnough_other {s : State} {a : Action} (other : ∀ call, a ≠ .insertAllocations call) :
    FreshEnough s a := by
  cases a <;> first | trivial | exact absurd rfl (other _)

/-- A step keeps every grant covered exactly when it is not a save from a stale read. -/
theorem covered_step_iff {p : Pricing} {s t : State} {a : Action} (reads : DistinctReads s)
    (covered : NoOverAllocation s.db.ledger) (taken : Step p s a t) :
    NoOverAllocation t.db.ledger ↔ FreshEnough s a := by
  cases step_effect taken with
  | none other same =>
    rw [same]
    exact iff_of_true covered (freshEnough_other other)
  | charged call input label charge =>
    subst label
    rw [charge]
    exact iff_of_true covered trivial
  | granted other added columns first positive grants events allocations =>
    refine iff_of_true ?_ (freshEnough_other other)
    intro g hg
    rw [grants] at hg
    rcases List.mem_append.mp hg with hg | hg
    · rw [Ledger.spentOn_congr allocations]
      exact covered g hg
    · rw [Ledger.spentOn_added grants allocations hg]
      exact Int.le_of_lt (positive g hg)
  | drawn call event live label phase grants events allocations =>
    rw [covered_draw_iff covered (reads call event live phase) grants allocations]
    subst label
    constructor
    · intro fresh event' live' phase'
      rw [phase] at phase'
      cases phase'
      exact fresh
    · intro fresh
      exact fresh event live phase

/-- In every run, no grant is ever over-allocated exactly when every save is made from
a read that is still fresh enough. -/
theorem never_over_allocates_iff {p : Pricing} {db : Database} {now : Instant}
    (covered : NoOverAllocation db.ledger) {steps : List (Transition State Action)} {s : State}
    (run : Run (Step p) (State.start db now) steps s) :
    (∀ x ∈ steps, NoOverAllocation x.post.db.ledger) ↔
      ∀ x ∈ steps, FreshEnough x.pre x.label :=
  run.states_iff (fun s => NoOverAllocation s.db.ledger) FreshEnough (distinctReads_start db now)
    (fun _ _ _ reads => distinctReads_step reads) covered
    fun _ _ _ reads lawful taken => covered_step_iff reads lawful taken

/-- Twelve credits and no subscription. -/
def twelveCredits : Database where
  ledger := .ofGrant
    ⟨{ workspaceId := 1, reason := .topup, bucket := .topup, credits := 12 }, 1, 0⟩
  subscriptions := .empty

/-- Both calls read the balance before either spends it. -/
def doubleSpend : List Action :=
  [.insertEvent 0 sampleRun, .readGrants 0 .table, .insertEvent 1 sampleRun, .readGrants 1 .table,
    .insertAllocations 0, .insertAllocations 1]

/-- The same two calls one after the other. -/
def spendInTurn : List Action :=
  [.insertEvent 0 sampleRun, .readGrants 0 .table, .insertAllocations 0,
    .insertEvent 1 sampleRun, .readGrants 1 .table, .insertAllocations 1]

theorem twelve_credits_spent_twice :
    NoOverAllocation twelveCredits.ledger ∧
    ∃ steps s, Run (Step exactPricing) (State.start twelveCredits 0) steps s ∧
      ¬ NoOverAllocation s.db.ledger := by
  refine ⟨by decide, ?_⟩
  have outcome : ((follow (step exactPricing) (State.start twelveCredits 0) doubleSpend).map
      fun r => decide (NoOverAllocation r.2.db.ledger)) = some false := by decide +kernel
  obtain ⟨r, done, drawn⟩ := Option.map_eq_some_iff.mp outcome
  exact ⟨r.1, r.2, follow_run done, of_decide_eq_false drawn⟩

theorem twelve_credits_spent_in_turn :
    ∃ steps s, Run (Step exactPricing) (State.start twelveCredits 0) steps s ∧
      steps.length = 6 ∧
      ((∀ x ∈ steps, NoOverAllocation x.post.db.ledger) ↔
        ∀ x ∈ steps, FreshEnough x.pre x.label) := by
  have outcome : ((follow (step exactPricing) (State.start twelveCredits 0) spendInTurn).map
      fun r => r.1.length) = some 6 := by decide +kernel
  obtain ⟨r, done, length⟩ := Option.map_eq_some_iff.mp outcome
  exact ⟨r.1, r.2, follow_run done, length,
    never_over_allocates_iff (by decide) (follow_run done)⟩

end Gomer
