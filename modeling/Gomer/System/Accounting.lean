import Gomer.System.Sequential
import Gomer.System.Overdraw

/-! The books of a service that runs one operation at a time: where every granted
credit went, and what the charges were short of. -/
namespace Gomer

open Relational Drain Trace

namespace Ledger

/-- The allocations that pay for one event. -/
def drawsFor (L : Ledger) (event : CreditEvent) : List CreditAllocation :=
  L.allocations.filter fun a => a.creditEventId == some event.id

/-- New draws count for the workspace that owns the grants they point at. -/
theorem allocated_append {L next : Ledger} {rows : List CreditAllocation}
    (grants : next.grants = L.grants) (allocations : next.allocations = L.allocations ++ rows)
    (workspaceId : Uuid) : next.allocated workspaceId = L.allocated workspaceId +
      ((rows.filter fun a =>
        a.grantId ∈ (L.grants.filter (·.workspaceId == workspaceId)).map (·.id)).map
          (·.credits)).sum := by
  have key : ((L.grants.filter (·.workspaceId == workspaceId)).map (·.id)).Nodup :=
    L.grantKey.sublist (List.filter_sublist.map _)
  have counted := sum_by_key (·.grantId) (·.credits) rows key
  have each : ∀ g : CreditGrant, next.spentOn g.id =
      L.spentOn g.id + ((rows.filter fun a => a.grantId = g.id).map (·.credits)).sum := by
    intro g
    rw [spentOn_append allocations]
    simp only [beq_eq_decide]
  unfold allocated
  simp only [grants, each, List.sum_map_add]
  rw [← counted, List.map_map]
  rfl

theorem allocated_granted {L next : Ledger} {added : List CreditGrant}
    (grants : next.grants = L.grants ++ added) (allocations : next.allocations = L.allocations)
    (workspaceId : Uuid) : next.allocated workspaceId = L.allocated workspaceId := by
  have fresh : (added.filter (·.workspaceId == workspaceId)).map (fun g => next.spentOn g.id) =
      (added.filter (·.workspaceId == workspaceId)).map fun _ => 0 := by
    apply List.map_congr_left
    intro g hg
    exact spentOn_added grants allocations (List.mem_filter.mp hg).1
  have kept : ∀ g : CreditGrant, next.spentOn g.id = L.spentOn g.id :=
    fun g => spentOn_congr allocations g.id
  unfold allocated
  rw [grants, List.filter_append, List.map_append, List.sum_append, fresh]
  simp [kept]

end Ledger

section
variable (p : Pricing)

/-- A charge is settled when its event is recorded with draws on distinct grants for as much
of it as the balance it met could pay. -/
def Settled (x : Transition World Operation) (L : Ledger) : Prop :=
  ∀ scan input, x.label = .recordEvent scan input →
    x.pre.nextEvent p input ∈ L.events ∧
      ((L.drawsFor (x.pre.nextEvent p input)).map (·.grantId)).Nodup ∧
      ((L.drawsFor (x.pre.nextEvent p input)).map (·.credits)).sum =
        min (x.pre.nextEvent p input).creditsUsed
          (getBalance x.pre.db.ledger input.workspaceId x.pre.now).balance

/-- What a charge of the workspace found missing. -/
def shortfall (workspaceId : Uuid) (x : Transition World Operation) : Int :=
  match x.label with
  | .recordEvent _ input =>
    if input.workspaceId = workspaceId then
      max 0 ((x.pre.nextEvent p input).creditsUsed -
        (getBalance x.pre.db.ledger workspaceId x.pre.now).balance)
    else 0
  | _ => 0

variable {p} {w v : World} {o : Operation}

/-! One operation -/

theorem covered_outcome (covered : NoOverAllocation w.db.ledger) (outcome : Outcome p w o v) :
    NoOverAllocation v.db.ledger := by
  cases outcome with
  | none other same => rw [same]; exact covered
  | granted other added positive grants events allocations =>
    intro g hg
    rw [grants] at hg
    rcases List.mem_append.mp hg with hg | hg
    · rw [Ledger.spentOn_congr allocations]
      exact covered g hg
    · rw [Ledger.spentOn_added grants allocations hg]
      exact Int.le_of_lt (positive g hg)
  | charged scan input label grants events allocations =>
    apply (covered_draw_iff covered (liveGrants_key scan w.db.ledger input.workspaceId w.now)
      grants allocations).mpr
    -- The read is as fresh as can be: nothing happened in between.
    intro ahead row behind place g hg same
    left
    have member : row ∈ ordered (liveGrantsForSpending scan w.db.ledger input.workspaceId w.now) := by
      rw [place]
      exact List.mem_append_right _ List.mem_cons_self
    obtain ⟨h, hh, _, rfl⟩ := mem_liveGrants.mp ((ordered_perm _).mem_iff.mp member)
    rw [Ledger.grant_eq hg hh same]
    exact Int.le_refl _

theorem settled_outcome {x : Transition World Operation} (settled : Settled p x w.db.ledger)
    (outcome : Outcome p w o v) : Settled p x v.db.ledger := by
  intro scan input label
  obtain ⟨recorded, distinct, paid⟩ := settled scan input label
  cases outcome with
  | none other same => rw [same]; exact ⟨recorded, distinct, paid⟩
  | granted other added positive grants events allocations =>
    unfold Ledger.drawsFor
    rw [events, allocations]
    exact ⟨recorded, distinct, paid⟩
  | charged scan' later _ grants events allocations =>
    have apart : (w.nextEvent p later).id ≠ (x.pre.nextEvent p input).id := by
      intro same
      apply w.db.ledger.nextEvent_fresh (createEvent p later)
      exact List.mem_map.mpr ⟨_, recorded, same.symm⟩
    have kept : v.db.ledger.drawsFor (x.pre.nextEvent p input) =
        w.db.ledger.drawsFor (x.pre.nextEvent p input) := by
      have none : ((planFor p scan' w.db.ledger w.now later).map
          (createAllocation (w.nextEvent p later))).filter
          (fun a => a.creditEventId == some (x.pre.nextEvent p input).id) = [] := by
        apply List.filter_eq_nil_iff.mpr
        intro a ha
        obtain ⟨b, _, rfl⟩ := List.mem_map.mp ha
        simpa [createAllocation] using apart
      rw [Ledger.drawsFor, allocations, List.filter_append, none, List.append_nil]
      rfl
    rw [kept, events]
    exact ⟨List.mem_append_left _ recorded, distinct, paid⟩

theorem drawsFor_charge {input : RecordUsageInput} {planned : List PlannedAllocation}
    (allocations : v.db.ledger.allocations = w.db.ledger.allocations ++
      planned.map (createAllocation (w.nextEvent p input))) :
    v.db.ledger.drawsFor (w.nextEvent p input) =
      planned.map (createAllocation (w.nextEvent p input)) := by
  have before : w.db.ledger.allocations.filter
      (fun a => a.creditEventId == some (w.nextEvent p input).id) = [] := by
    apply List.filter_eq_nil_iff.mpr
    intro a ha
    have apart := w.db.ledger.nextEvent_unallocated (createEvent p input) a ha
    simpa [World.nextEvent] using apart
  rw [Ledger.drawsFor, allocations, List.filter_append, before, List.nil_append]
  apply List.filter_eq_self.mpr
  intro a ha
  obtain ⟨b, _, rfl⟩ := List.mem_map.mp ha
  exact beq_self_eq_true _

theorem settled_charge (outcome : Outcome p w o v) : Settled p ⟨w, o, v⟩ v.db.ledger := by
  intro scan input label
  cases outcome with
  | none other same => exact absurd label (other scan input)
  | granted other => exact absurd label (other scan input)
  | charged scan' input' label' grants events allocations =>
    cases label.symm.trans label'
    have draws := drawsFor_charge allocations
    refine ⟨?_, ?_, ?_⟩
    · rw [events]
      exact List.mem_append_right _ List.mem_cons_self
    · rw [draws, List.map_map]
      exact planAllocations_distinct _ (liveGrants_key scan w.db.ledger input.workspaceId w.now)
    · rw [draws, List.map_map, getBalance_balance]
      exact planFor_total p scan w.db.ledger w.now input

/-- A plan draws on grants of its own workspace only. -/
theorem planFor_owner (scan : Scan) (L : Ledger) (now : Instant) (input : RecordUsageInput)
    (workspaceId : Uuid) : ((((planFor p scan L now input).map
      (createAllocation (L.nextEvent (createEvent p input)))).filter fun a =>
        a.grantId ∈ (L.grants.filter (·.workspaceId == workspaceId)).map (·.id)).map
          (·.credits)).sum =
      if input.workspaceId = workspaceId then
        min (createEvent p input).creditsUsed (L.liveBalance workspaceId now) else 0 := by
  have owner : ∀ a ∈ planFor p scan L now input, ∃ g ∈ L.grants, g.id = a.grantId ∧
      g.workspaceId = input.workspaceId := by
    intro a ha
    obtain ⟨r, hr, same, _⟩ := planAllocations_bounds ha
    obtain ⟨g, hg, spendable, rfl⟩ := mem_liveGrants.mp hr
    simp only [Ledger.spendable, Bool.and_eq_true, beq_iff_eq] at spendable
    exact ⟨g, hg, same, spendable.1.1⟩
  split
  · rename_i own
    subst own
    rw [List.filter_eq_self.mpr, List.map_map]
    · exact planFor_total p scan L now input
    · intro a ha
      obtain ⟨b, hb, rfl⟩ := List.mem_map.mp ha
      obtain ⟨g, hg, same, owns⟩ := owner b hb
      apply decide_eq_true
      exact List.mem_map.mpr ⟨g, List.mem_filter.mpr ⟨hg, beq_iff_eq.mpr owns⟩, same⟩
  · rename_i other
    rw [List.filter_eq_nil_iff.mpr]
    · rfl
    · intro a ha owned
      obtain ⟨b, hb, rfl⟩ := List.mem_map.mp ha
      obtain ⟨g, hg, same, owns⟩ := owner b hb
      obtain ⟨h, hh, key⟩ := List.mem_map.mp (of_decide_eq_true owned)
      obtain ⟨hh, owns'⟩ := List.mem_filter.mp hh
      have one := Ledger.grant_eq hg hh (same.trans key.symm)
      subst one
      exact other (owns.symm.trans (beq_iff_eq.mp owns'))

/-- Each operation opens the gap between charges and draws by its own shortfall. -/
theorem shortfall_outcome (workspaceId : Uuid) (outcome : Outcome p w o v) :
    v.db.ledger.used workspaceId - v.db.ledger.allocated workspaceId =
      w.db.ledger.used workspaceId - w.db.ledger.allocated workspaceId +
        shortfall p workspaceId ⟨w, o, v⟩ := by
  have waits : (∀ scan input, o ≠ .recordEvent scan input) →
      shortfall p workspaceId ⟨w, o, v⟩ = 0 := by
    intro other
    cases o with
    | recordEvent scan input => exact absurd rfl (other scan input)
    | _ => rfl
  cases outcome with
  | none other same => rw [same, waits other, add_zero]
  | granted other added positive grants events allocations =>
    have used : v.db.ledger.used workspaceId = w.db.ledger.used workspaceId := by
      rw [Ledger.used, events]
      rfl
    rw [used, Ledger.allocated_granted grants allocations, waits other, add_zero]
  | charged scan input label grants events allocations =>
    have used : v.db.ledger.used workspaceId = w.db.ledger.used workspaceId +
        if input.workspaceId = workspaceId then (createEvent p input).creditsUsed else 0 := by
      have owner : (w.nextEvent p input).workspaceId = input.workspaceId := rfl
      rw [Ledger.used, events, List.filter_append, List.map_append, List.sum_append]
      by_cases own : input.workspaceId = workspaceId
      · simp [owner, own, Ledger.used]
        rfl
      · simp [owner, own, Ledger.used]
    have paid := Ledger.allocated_append grants allocations workspaceId
    have plan := planFor_owner (p := p) scan w.db.ledger w.now input workspaceId
    have charge : (w.nextEvent p input).creditsUsed = (createEvent p input).creditsUsed := rfl
    simp only [World.nextEvent] at paid
    rw [plan] at paid
    rw [used, paid, label, shortfall]
    simp only [charge, getBalance_balance]
    split <;> omega

end

/-! Whole runs -/

theorem covered_run {p : Pricing} {now : Instant} {steps : List (Transition World Operation)}
    {w : World} (run : Run (Performs p) ⟨Database.empty, now⟩ steps w) :
    NoOverAllocation w.db.ledger := by
  refine run.invariant (I := fun w => NoOverAllocation w.db.ledger) ?_ ?_
  · intro g hg
    cases hg
  · intro w o v covered done
    exact covered_outcome covered (perform_outcome done)

theorem settled_run {p : Pricing} {start w : World} {steps : List (Transition World Operation)}
    (run : Run (Performs p) start steps w) : ∀ x ∈ steps, Settled p x w.db.ledger := by
  induction run with
  | nil => intro x hx; cases hx
  | snoc _ done ih =>
    intro x hx
    have outcome := perform_outcome done
    rcases List.mem_append.mp hx with hx | hx
    · exact settled_outcome (ih x hx) outcome
    · rw [List.mem_singleton.mp hx]
      exact settled_charge outcome

theorem shortfall_run {p : Pricing} {now : Instant} {w : World}
    {steps : List (Transition World Operation)}
    (run : Run (Performs p) ⟨Database.empty, now⟩ steps w) (workspaceId : Uuid) :
    w.db.ledger.used workspaceId - w.db.ledger.allocated workspaceId =
      (steps.map (shortfall p workspaceId)).sum := by
  induction run with
  | nil => rfl
  | snoc _ done ih =>
    rw [shortfall_outcome workspaceId (perform_outcome done), ih, List.map_append, List.sum_append,
      List.map_singleton, List.sum_singleton]

/-- After any sequence of operations every credit granted is drawn, live or expired; every
charge is settled; and charges and draws differ by the shortfalls. -/
theorem accounting_identity {p : Pricing} {now : Instant} {w : World}
    {steps : List (Transition World Operation)}
    (run : Run (Performs p) ⟨Database.empty, now⟩ steps w) (workspaceId : Uuid) :
    (getBalance w.db.ledger workspaceId w.now).granted =
        w.db.ledger.allocated workspaceId + (getBalance w.db.ledger workspaceId w.now).balance +
          (getBalance w.db.ledger workspaceId w.now).expired ∧
      (∀ x ∈ steps, Settled p x w.db.ledger) ∧
      (getBalance w.db.ledger workspaceId w.now).used - w.db.ledger.allocated workspaceId =
        (steps.map (shortfall p workspaceId)).sum := by
  refine ⟨?_, settled_run run, ?_⟩
  · rw [getBalance_granted, getBalance_balance, getBalance_expired]
    exact granted_split w.db.ledger workspaceId w.now (covered_run run)
  · rw [getBalance_used]
    exact shortfall_run run workspaceId

/-- Twelve credits bought, a run that costs them all and one that finds nothing left. -/
def boughtAndSpent : List Operation :=
  [.grantCredits { workspaceId := 1, reason := .topup, credits := 12 },
    .recordEvent .table sampleRun, .tick 5, .recordEvent .table sampleRun]

theorem bought_and_spent_accounts : ∃ steps w,
    Run (Performs exactPricing) ⟨Database.empty, 0⟩ steps w ∧ steps.length = 4 ∧
      (getBalance w.db.ledger 1 w.now).granted =
        w.db.ledger.allocated 1 + (getBalance w.db.ledger 1 w.now).balance +
          (getBalance w.db.ledger 1 w.now).expired ∧
      (∀ x ∈ steps, Settled exactPricing x w.db.ledger) ∧
      (getBalance w.db.ledger 1 w.now).used - w.db.ledger.allocated 1 =
        (steps.map (shortfall exactPricing 1)).sum := by
  have outcome : ((follow (perform exactPricing) ⟨Database.empty, 0⟩ boughtAndSpent).map
      fun r => r.1.length) = some 4 := by decide +kernel
  obtain ⟨r, done, length⟩ := Option.map_eq_some_iff.mp outcome
  exact ⟨r.1, r.2, follow_run done, length, accounting_identity (follow_run done) 1⟩

end Gomer
