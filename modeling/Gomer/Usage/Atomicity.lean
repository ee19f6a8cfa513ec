import Gomer.Usage.Balance

/-! What one `recordEvent` call leaves in the ledger, whichever of its statements
fail. The event and its allocations are separate writes with nothing around them. -/
namespace Gomer

open Relational Drain

namespace Ledger

def drawnFor (L : Ledger) (event : Uuid) : Int :=
  ((L.allocations.filter fun a => a.creditEventId == some event).map (·.credits)).sum

variable {L : Ledger} {event : CreditEvent} {planned : List PlannedAllocation}

theorem nextEvent_unallocated (row : NewEvent) :
    ∀ a ∈ L.allocations, a.creditEventId ≠ some (L.nextEvent row).id := by
  intro a ha h
  exact L.nextEvent_fresh row (L.eventRef a ha _ h)

/-- Nothing in the constraints stands in the way of a plan for a new event. -/
theorem attachable_planned (inserted : event.id ∈ L.events.map (·.id))
    (unallocated : ∀ a ∈ L.allocations, a.creditEventId ≠ some event.id)
    (distinct : (planned.map (·.grantId)).Nodup)
    (known : ∀ a ∈ planned, a.grantId ∈ L.grants.map (·.id)) :
    L.Attachable (planned.map (createAllocation event)) := by
  refine ⟨?_, ?_, ?_⟩
  · have draws : (planned.map (createAllocation event)).filterMap CreditAllocation.draw =
        planned.map fun a => (a.grantId, event.id) := by
      rw [List.filterMap_map]
      exact congrFun (List.filterMap_eq_map (f := fun a : PlannedAllocation =>
        (a.grantId, event.id))) planned
    unfold UniqueKey
    rw [List.filterMap_append, draws, List.nodup_append]
    refine ⟨L.drawKey, ?_, ?_⟩
    · have pairs := List.Nodup.map (f := fun g : Uuid => (g, event.id))
        (fun x y h => (Prod.mk.inj h).1) distinct
      rwa [List.map_map] at pairs
    · intro x hx y hy
      obtain ⟨a, ha, drawn⟩ := List.mem_filterMap.mp hx
      obtain ⟨b, _, rfl⟩ := List.mem_map.mp hy
      rintro rfl
      obtain ⟨e, he, pair⟩ := Option.map_eq_some_iff.mp drawn
      exact unallocated a ha (he.trans (congrArg some (Prod.mk.inj pair).2))
  · intro a ha
    obtain ⟨b, hb, rfl⟩ := List.mem_map.mp ha
    exact known b hb
  · intro a ha e he
    obtain ⟨b, _, rfl⟩ := List.mem_map.mp ha
    cases he
    exact inserted

theorem drawnFor_append {next : Ledger} {rows : List CreditAllocation}
    (h : next.allocations = L.allocations ++ rows) (e : Uuid) :
    next.drawnFor e = L.drawnFor e +
      ((rows.filter fun a => a.creditEventId == some e).map (·.credits)).sum := by
  simp [drawnFor, h]

theorem drawnFor_unallocated {e : Uuid} (h : ∀ a ∈ L.allocations, a.creditEventId ≠ some e) :
    L.drawnFor e = 0 := by
  have none : L.allocations.filter (fun a => a.creditEventId == some e) = [] :=
    List.filter_eq_nil_iff.mpr fun a ha => by simpa using h a ha
  rw [drawnFor, none]
  rfl

end Ledger

theorem drawn_planned (event : CreditEvent) (planned : List PlannedAllocation) :
    (((planned.map (createAllocation event)).filter fun a =>
      a.creditEventId == some event.id).map (·.credits)).sum = (planned.map (·.credits)).sum := by
  have all : (planned.map (createAllocation event)).filter (fun a =>
      a.creditEventId == some event.id) = planned.map (createAllocation event) := by
    refine List.filter_eq_self.mpr fun a ha => ?_
    obtain ⟨b, _, rfl⟩ := List.mem_map.mp ha
    exact beq_self_eq_true _
  rw [all, List.map_map]
  rfl

section
variable (p : Pricing) (scan : Scan) (L : Ledger) (now : Instant) (input : RecordUsageInput)

/-- The plan a call makes for its event, from what it reads. -/
def planFor : List PlannedAllocation :=
  planAllocations (liveGrantsForSpending scan L input.workspaceId now)
    (createEvent p input).creditsUsed

theorem planFor_known : ∀ a ∈ planFor p scan L now input, a.grantId ∈ L.grants.map (·.id) := by
  intro a ha
  obtain ⟨r, hr, same, _⟩ := planAllocations_bounds ha
  obtain ⟨g, hg, _, rfl⟩ := mem_liveGrants.mp hr
  exact List.mem_map.mpr ⟨g, hg, same⟩

theorem planFor_total : ((planFor p scan L now input).map (·.credits)).sum =
    min (createEvent p input).creditsUsed (L.liveBalance input.workspaceId now) := by
  have charged : 1 ≤ (createEvent p input).creditsUsed := p.creditsFor_pos _ _ _
  have total := planAllocations_total (liveGrantsForSpending scan L input.workspaceId now)
    (createEvent p input).creditsUsed
  rw [liveGrants_holding] at total
  rw [planFor, total]
  omega

/-- Saving the plan for a new event cannot be refused by a constraint. -/
theorem saveAllocations_planFor : ∃ next,
    saveAllocations (L.saveEvent (createEvent p input)) (L.nextEvent (createEvent p input))
      (planFor p scan L now input) = .ok next ∧
    next.grants = L.grants ∧ next.events = L.events ++ [L.nextEvent (createEvent p input)] ∧
    next.allocations = L.allocations ++
      (planFor p scan L now input).map (createAllocation (L.nextEvent (createEvent p input))) := by
  unfold saveAllocations
  split
  · rename_i h
    rw [List.length_eq_zero_iff.mp h]
    exact ⟨_, rfl, rfl, rfl, by simp⟩
  · have fits : (L.saveEvent (createEvent p input)).Attachable
        ((planFor p scan L now input).map
          (createAllocation (L.nextEvent (createEvent p input)))) :=
      Ledger.attachable_planned (by simp) (L.nextEvent_unallocated _)
        (planAllocations_distinct _ (liveGrants_key scan L input.workspaceId now))
        (planFor_known p scan L now input)
    obtain ⟨next, saved⟩ := Ledger.saveAllocations_of_attachable fits
    obtain ⟨grants, events, allocations⟩ := Ledger.saveAllocations_ok saved
    exact ⟨next, saved, grants, events, allocations⟩

/-- A call none of whose statements fail records the event with its whole plan. -/
theorem recordEvent_ok {faults : Faults} (insert : faults .insertEvent = none)
    (read : faults .readGrants = none) (save : faults .insertAllocations = none) :
    ∃ next, recordEvent p faults scan L now input =
        (next, .ok (L.nextEvent (createEvent p input))) ∧
      saveAllocations (L.saveEvent (createEvent p input)) (L.nextEvent (createEvent p input))
        (planFor p scan L now input) = .ok next ∧
      next.grants = L.grants ∧ next.events = L.events ++ [L.nextEvent (createEvent p input)] ∧
      next.allocations = L.allocations ++
        (planFor p scan L now input).map
          (createAllocation (L.nextEvent (createEvent p input))) := by
  obtain ⟨next, saved, grants, events, allocations⟩ := saveAllocations_planFor p scan L now input
  have plan : planAllocations (liveGrantsForSpending scan (L.saveEvent (createEvent p input))
      (L.nextEvent (createEvent p input)).workspaceId now)
      (L.nextEvent (createEvent p input)).creditsUsed = planFor p scan L now input := rfl
  refine ⟨next, ?_, saved, grants, events, allocations⟩
  simp only [recordEvent, insert, allocate, read, save, plan, saved]
  by_cases none : (planFor p scan L now input).length = 0
  · rw [saveAllocations, if_pos none] at saved
    cases saved
    simp only [if_pos none]
  · simp only [if_neg none]

/-- A call that fails after its first statement leaves the event without a single allocation,
unless there was nothing to allocate. -/
theorem recordEvent_failed {faults : Faults} (insert : faults .insertEvent = none)
    (failed : faults .readGrants ≠ none ∨
      faults .insertAllocations ≠ none ∧ planFor p scan L now input ≠ []) :
    (recordEvent p faults scan L now input).1 = L.saveEvent (createEvent p input) := by
  have plan : planAllocations (liveGrantsForSpending scan (L.saveEvent (createEvent p input))
      (L.nextEvent (createEvent p input)).workspaceId now)
      (L.nextEvent (createEvent p input)).creditsUsed = planFor p scan L now input := rfl
  simp only [recordEvent, insert, allocate, plan]
  cases read : faults .readGrants with
  | some e => rfl
  | none =>
    obtain h | ⟨save, nonempty⟩ := failed
    · exact absurd read h
    · obtain ⟨e, he⟩ := Option.ne_none_iff_exists'.mp save
      have some : ¬ (planFor p scan L now input).length = 0 :=
        fun h => nonempty (List.length_eq_zero_iff.mp h)
      simp only [if_neg some, he]

/-- With nothing to allocate the last statement is never issued. -/
theorem recordEvent_empty {faults : Faults} (insert : faults .insertEvent = none)
    (nothing : planFor p scan L now input = []) :
    (recordEvent p faults scan L now input).1 = L.saveEvent (createEvent p input) := by
  have plan : planAllocations (liveGrantsForSpending scan (L.saveEvent (createEvent p input))
      (L.nextEvent (createEvent p input)).workspaceId now)
      (L.nextEvent (createEvent p input)).creditsUsed = planFor p scan L now input := rfl
  simp only [recordEvent, insert, allocate, plan, nothing]
  cases faults .readGrants <;> rfl

/-- Either nothing of the charge is in the ledger, or all of it. -/
def Atomic (after : Ledger) (event : CreditEvent) (balance : Int) : Prop :=
  (event ∉ after.events ∧ ∀ a ∈ after.allocations, a.creditEventId ≠ some event.id) ∨
    (event ∈ after.events ∧ after.drawnFor event.id = min event.creditsUsed balance)

/-- The charge is atomic exactly when the event insert itself fails, when no later
statement does, or when there was no live credit to move. -/
theorem charge_atomic_iff (faults : Faults) :
    Atomic (recordEvent p faults scan L now input).1 (L.nextEvent (createEvent p input))
        (getBalance L input.workspaceId now).balance ↔
      faults .insertEvent ≠ none ∨
      (faults .readGrants = none ∧ faults .insertAllocations = none) ∨
      (getBalance L input.workspaceId now).balance = 0 := by
  have charged : 1 ≤ (L.nextEvent (createEvent p input)).creditsUsed := p.creditsFor_pos _ _ _
  have held : 0 ≤ L.liveBalance input.workspaceId now := holding_nonneg _ _
  have total := planFor_total p scan L now input
  have event : L.nextEvent (createEvent p input) ∉ L.events :=
    fun h => L.nextEvent_fresh _ (List.mem_map_of_mem h)
  rw [getBalance_balance]
  cases insert : faults .insertEvent with
  | some e =>
    have unchanged : (recordEvent p faults scan L now input).1 = L := by
      simp only [recordEvent, insert]
    rw [unchanged]
    exact ⟨fun _ => .inl (by simp), fun _ => .inl ⟨event, L.nextEvent_unallocated _⟩⟩
  | none =>
    -- An event that stays behind alone is paid for only by an empty balance.
    have alone : Atomic (L.saveEvent (createEvent p input)) (L.nextEvent (createEvent p input))
        (L.liveBalance input.workspaceId now) ↔ L.liveBalance input.workspaceId now = 0 := by
      have drawn : (L.saveEvent (createEvent p input)).drawnFor
          (L.nextEvent (createEvent p input)).id = 0 :=
        Ledger.drawnFor_unallocated (L.nextEvent_unallocated _)
      constructor
      · rintro (⟨missing, _⟩ | ⟨_, paid⟩)
        · exact absurd (by simp) missing
        · rw [drawn] at paid
          omega
      · intro empty
        refine .inr ⟨by simp, ?_⟩
        rw [drawn, empty]
        omega
    by_cases fine : faults .readGrants = none ∧ faults .insertAllocations = none
    · obtain ⟨next, done, _, _, events, allocations⟩ :=
        recordEvent_ok p scan L now input insert fine.1 fine.2
      rw [done]
      refine ⟨fun _ => .inr (.inl fine), fun _ => .inr ⟨by simp [events], ?_⟩⟩
      rw [Ledger.drawnFor_append allocations, drawn_planned, total,
        Ledger.drawnFor_unallocated (L.nextEvent_unallocated _)]
      exact Int.zero_add _
    · have rest : (none : Option DbError) ≠ none ∨ (faults .readGrants = none ∧
          faults .insertAllocations = none) ∨ L.liveBalance input.workspaceId now = 0 ↔
          L.liveBalance input.workspaceId now = 0 := by simp [fine]
      have left : (recordEvent p faults scan L now input).1 = L.saveEvent (createEvent p input) := by
        by_cases nothing : planFor p scan L now input = []
        · exact recordEvent_empty p scan L now input insert nothing
        · refine recordEvent_failed p scan L now input insert ?_
          by_cases read : faults .readGrants = none
          · exact .inr ⟨fun save => fine ⟨read, save⟩, nothing⟩
          · exact .inl read
      rw [left, rest]
      exact alone

end

/-- A hundred credits bought once, nothing spent. -/
def topupLedger : Ledger :=
  .ofGrant ⟨{ workspaceId := 1, reason := .topup, bucket := .topup, credits := 100 }, 1, 0⟩

def exactPricing : Pricing := ⟨id, []⟩

/-- 1000 input and 1000 output tokens of an unlisted model: 12 credits. -/
def sampleRun : RecordUsageInput where
  workspaceId := 1
  model := "retired"
  inputTokens := 1000
  outputTokens := 1000
  sourceName := "ai.run"

def lostAllocations : Faults
  | .insertAllocations => some .unavailable
  | _ => none

/-- The allocation insert fails: the run is metered, the caller sees nothing of the
error, and the balance has not moved. -/
theorem charge_torn :
    ¬ Atomic (recordEvent exactPricing lostAllocations .table topupLedger 0 sampleRun).1
        (topupLedger.nextEvent (createEvent exactPricing sampleRun))
        (getBalance topupLedger 1 0).balance ∧
      (getBalance (recordUsage exactPricing lostAllocations .table topupLedger 0 sampleRun) 1 0).used
        = 12 ∧
      (getBalance (recordUsage exactPricing lostAllocations .table topupLedger 0 sampleRun) 1
        0).balance = 100 := by
  refine ⟨?_, ?_, ?_⟩
  · rw [Atomic]
    decide +kernel
  · decide +kernel
  · decide +kernel

end Gomer
