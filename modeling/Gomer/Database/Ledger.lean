import Gomer.Lib.Relational
import Gomer.Database.Entities

/-! The credit tables with the constraints the migrations put on them: primary
keys, unique indexes and foreign keys are fields, so a ledger that breaks one
cannot be built and every insert has to show that it does not. -/
namespace Gomer

open Relational

/-- Any key a generator may draw: one that is not in the table. -/
def freshId (ids : List Uuid) : Uuid := ids.foldr max 0 + 1

theorem freshId_notMem (ids : List Uuid) : freshId ids ∉ ids := by
  have bound : ∀ i ∈ ids, i ≤ ids.foldr max 0 := by
    induction ids with
    | nil => intro i hi; cases hi
    | cons j js ih =>
      intro i hi
      simp only [List.foldr_cons]
      rcases List.mem_cons.mp hi with rfl | hi
      · exact Nat.le_max_left _ _
      · exact Nat.le_trans (ih i hi) (Nat.le_max_right _ _)
  intro h
  exact Nat.not_succ_le_self _ (bound _ h)

/-- The unique index on `(grantId, creditEventId)`. -/
def CreditAllocation.draw (a : CreditAllocation) : Option (Uuid × Uuid) :=
  a.creditEventId.map fun e => (a.grantId, e)

structure Ledger where
  grants : List CreditGrant
  events : List CreditEvent
  allocations : List CreditAllocation
  grantKey : (grants.map (·.id)).Nodup
  sessionKey : UniqueKey (·.stripeSessionId) grants
  invoiceKey : UniqueKey (·.stripeInvoiceId) grants
  eventKey : (events.map (·.id)).Nodup
  drawKey : UniqueKey CreditAllocation.draw allocations
  grantRef : ∀ a ∈ allocations, a.grantId ∈ grants.map (·.id)
  eventRef : ∀ a ∈ allocations, ∀ e ∈ a.creditEventId, e ∈ events.map (·.id)

namespace Ledger

def empty : Ledger where
  grants := []
  events := []
  allocations := []
  grantKey := List.nodup_nil
  sessionKey := List.nodup_nil
  invoiceKey := List.nodup_nil
  eventKey := List.nodup_nil
  drawKey := List.nodup_nil
  grantRef := by simp
  eventRef := by simp

/-- One grant and nothing spent. -/
def ofGrant (g : CreditGrant) : Ledger :=
  { empty with
    grants := [g]
    grantKey := List.nodup_singleton g.id
    sessionKey := unique_append empty.sessionKey fun _ _ => List.not_mem_nil
    invoiceKey := unique_append empty.invoiceKey fun _ _ => List.not_mem_nil
    grantRef := fun _ missing => absurd missing List.not_mem_nil }

variable (L : Ledger)

def nextGrant (now : Instant) (row : NewGrant) : CreditGrant :=
  { row with id := freshId (L.grants.map (·.id)), createdAt := now }

def nextEvent (row : NewEvent) : CreditEvent :=
  { row with id := freshId (L.events.map (·.id)) }

def invoiceIds : List String := L.grants.filterMap (·.stripeInvoiceId)

/-- Both unique columns of a grant are free. -/
def Insertable (row : NewGrant) : Prop :=
  (∀ s ∈ row.stripeSessionId, s ∉ L.grants.filterMap (·.stripeSessionId)) ∧
    ∀ i ∈ row.stripeInvoiceId, i ∉ L.grants.filterMap (·.stripeInvoiceId)

instance (row : NewGrant) : Decidable (L.Insertable row) := by
  unfold Insertable; infer_instance

theorem nextGrant_fresh (now : Instant) (row : NewGrant) :
    (L.nextGrant now row).id ∉ L.grants.map (·.id) := freshId_notMem _

theorem nextEvent_fresh (row : NewEvent) : (L.nextEvent row).id ∉ L.events.map (·.id) :=
  freshId_notMem _

def saveGrant (now : Instant) (row : NewGrant) : Except DbError Ledger :=
  if h : L.Insertable row then
    .ok { L with
      grants := L.grants ++ [L.nextGrant now row]
      grantKey := by
        rw [List.map_append]
        exact List.nodup_append_comm.mp (List.nodup_cons.mpr ⟨L.nextGrant_fresh now row, L.grantKey⟩)
      sessionKey := unique_append L.sessionKey h.1
      invoiceKey := unique_append L.invoiceKey h.2
      grantRef := fun a ha => by
        rw [List.map_append]
        exact List.mem_append_left _ (L.grantRef a ha) }
  else .error .uniqueViolation

def saveGrants (now : Instant) : Ledger → List NewGrant → Except DbError Ledger
  | L, [] => .ok L
  | L, row :: rows =>
    match L.saveGrant now row with
    | .error e => .error e
    | .ok next => saveGrants now next rows

def saveEvent (row : NewEvent) : Ledger :=
  { L with
    events := L.events ++ [L.nextEvent row]
    eventKey := by
      rw [List.map_append]
      exact List.nodup_append_comm.mp (List.nodup_cons.mpr ⟨L.nextEvent_fresh row, L.eventKey⟩)
    eventRef := fun a ha e he => by
      rw [List.map_append]
      exact List.mem_append_left _ (L.eventRef a ha e he) }

/-- What the foreign keys and the unique index ask of a batch of allocations. -/
def Attachable (rows : List CreditAllocation) : Prop :=
  UniqueKey CreditAllocation.draw (L.allocations ++ rows) ∧
    (∀ a ∈ rows, a.grantId ∈ L.grants.map (·.id)) ∧
    ∀ a ∈ rows, ∀ e ∈ a.creditEventId, e ∈ L.events.map (·.id)

instance (rows : List CreditAllocation) : Decidable (L.Attachable rows) := by
  unfold Attachable; infer_instance

/-- An array is saved in one transaction: all of its rows or none. -/
def saveAllocations (rows : List CreditAllocation) : Except DbError Ledger :=
  if h : L.Attachable rows then
    .ok { L with
      allocations := L.allocations ++ rows
      drawKey := h.1
      grantRef := fun a ha => (List.mem_append.mp ha).elim (L.grantRef a) (h.2.1 a)
      eventRef := fun a ha => (List.mem_append.mp ha).elim (L.eventRef a) (h.2.2 a) }
  else .error (if UniqueKey CreditAllocation.draw (L.allocations ++ rows) then .foreignKeyViolation
    else .uniqueViolation)

/-! What each statement leaves of the three tables -/

variable {L}

theorem saveGrant_ok {next : Ledger} {now : Instant} {row : NewGrant}
    (saved : L.saveGrant now row = .ok next) :
    L.Insertable row ∧ next.grants = L.grants ++ [L.nextGrant now row] ∧
      next.events = L.events ∧ next.allocations = L.allocations := by
  unfold saveGrant at saved
  split at saved
  · rename_i h
    cases saved
    exact ⟨h, rfl, rfl, rfl⟩
  · cases saved

theorem saveGrant_of_insertable (now : Instant) {row : NewGrant} (free : L.Insertable row) :
    ∃ next, L.saveGrant now row = .ok next := by
  unfold saveGrant
  rw [dif_pos free]
  exact ⟨_, rfl⟩

theorem saveGrant_error {now : Instant} {row : NewGrant} {e : DbError}
    (failed : L.saveGrant now row = .error e) : e = .uniqueViolation ∧ ¬ L.Insertable row := by
  unfold saveGrant at failed
  split at failed
  · cases failed
  · rename_i h
    cases failed
    exact ⟨rfl, h⟩

/-- The rows a batch of inserts leaves, each with the key its turn drew. -/
theorem saveGrants_ok {next : Ledger} {now : Instant} {rows : List NewGrant}
    (saved : L.saveGrants now rows = .ok next) :
    ∃ added : List CreditGrant, next.grants = L.grants ++ added ∧
      added.map (·.toNewGrant) = rows ∧ (∀ g ∈ added, g.createdAt = now) ∧
      next.events = L.events ∧ next.allocations = L.allocations := by
  induction rows generalizing L with
  | nil =>
    cases saved
    exact ⟨[], by simp⟩
  | cons row rows ih =>
    simp only [saveGrants] at saved
    split at saved
    · cases saved
    · rename_i middle first
      obtain ⟨_, hg, he, ha⟩ := saveGrant_ok first
      obtain ⟨added, grants, columns, stamped, events, allocations⟩ := ih saved
      refine ⟨L.nextGrant now row :: added, ?_, ?_, ?_, events.trans he, allocations.trans ha⟩
      · rw [grants, hg, List.append_assoc, List.singleton_append]
      · rw [List.map_cons, columns]
        rfl
      · intro g hg'
        rcases List.mem_cons.mp hg' with rfl | hg'
        · rfl
        · exact stamped g hg'

/-- A batch whose keys are new and distinct is inserted. -/
theorem saveGrants_of_keys {now : Instant} {rows : List NewGrant}
    (sessions : (L.grants.filterMap (·.stripeSessionId) ++
      rows.filterMap (·.stripeSessionId)).Nodup)
    (invoices : (L.grants.filterMap (·.stripeInvoiceId) ++
      rows.filterMap (·.stripeInvoiceId)).Nodup) :
    ∃ next, L.saveGrants now rows = .ok next := by
  induction rows generalizing L with
  | nil => exact ⟨L, rfl⟩
  | cons row rows ih =>
    have one : ∀ key : NewGrant → Option String,
        (row :: rows).filterMap key = (key row).toList ++ rows.filterMap key := by
      intro key
      cases h : key row <;> simp [h]
    have free : ∀ {used own rest : List String}, (used ++ (own ++ rest)).Nodup →
        ∀ k ∈ own, k ∉ used := fun distinct k hk hu =>
      (List.nodup_append.mp distinct).2.2 k hu k (List.mem_append_left _ hk) rfl
    rw [one, ← List.append_assoc] at sessions invoices
    have fits : L.Insertable row := by
      rw [List.append_assoc] at sessions invoices
      exact ⟨fun k hk => free sessions k (Option.mem_toList.mpr hk),
        fun k hk => free invoices k (Option.mem_toList.mpr hk)⟩
    obtain ⟨middle, saved⟩ := saveGrant_of_insertable now fits
    obtain ⟨_, grants, _⟩ := saveGrant_ok saved
    have keys : ∀ key : NewGrant → Option String,
        middle.grants.filterMap (fun g => key g.toNewGrant) =
          L.grants.filterMap (fun g => key g.toNewGrant) ++ (key row).toList := by
      intro key
      have own : (L.nextGrant now row).toNewGrant = row := rfl
      rw [grants, List.filterMap_append]
      cases h : key row <;> simp [own, h]
    obtain ⟨next, rest⟩ := @ih middle (by rw [keys]; exact sessions) (by rw [keys]; exact invoices)
    refine ⟨next, ?_⟩
    simp only [saveGrants, saved, rest]

theorem invoiceIds_saved {next : Ledger} {now : Instant} {rows : List NewGrant}
    (saved : L.saveGrants now rows = .ok next) :
    next.invoiceIds = L.invoiceIds ++ rows.filterMap (·.stripeInvoiceId) := by
  obtain ⟨added, grants, columns, _⟩ := saveGrants_ok saved
  rw [invoiceIds, grants, List.filterMap_append, ← columns, List.filterMap_map]
  rfl

@[simp] theorem saveEvent_grants (row : NewEvent) : (L.saveEvent row).grants = L.grants := rfl
@[simp] theorem saveEvent_allocations (row : NewEvent) :
    (L.saveEvent row).allocations = L.allocations := rfl
@[simp] theorem saveEvent_events (row : NewEvent) :
    (L.saveEvent row).events = L.events ++ [L.nextEvent row] := rfl

theorem saveAllocations_ok {next : Ledger} {rows : List CreditAllocation}
    (saved : L.saveAllocations rows = .ok next) :
    next.grants = L.grants ∧ next.events = L.events ∧
      next.allocations = L.allocations ++ rows := by
  unfold saveAllocations at saved
  split at saved
  · cases saved
    exact ⟨rfl, rfl, rfl⟩
  · cases saved

theorem saveAllocations_of_attachable {rows : List CreditAllocation} (fits : L.Attachable rows) :
    ∃ next, L.saveAllocations rows = .ok next := by
  unfold saveAllocations
  rw [dif_pos fits]
  exact ⟨_, rfl⟩

/-! Credits drawn on a grant -/

variable (L)

def spentOn (grant : Uuid) : Int :=
  ((L.allocations.filter fun a => a.grantId == grant).map (·.credits)).sum

def remainingOn (g : CreditGrant) : Int := g.credits - L.spentOn g.id

/-- The allocations that point at the grants of one workspace. -/
def allocated (workspaceId : Uuid) : Int :=
  ((L.grants.filter (·.workspaceId == workspaceId)).map fun g => L.spentOn g.id).sum

variable {L}

theorem spentOn_of_fresh {grant : Uuid} (absent : grant ∉ L.grants.map (·.id)) :
    L.spentOn grant = 0 := by
  have none : L.allocations.filter (fun a => a.grantId == grant) = [] := by
    refine List.filter_eq_nil_iff.mpr fun a ha => ?_
    simp only [beq_iff_eq]
    rintro rfl
    exact absent (L.grantRef a ha)
  rw [spentOn, none]
  rfl

theorem spentOn_append {next : Ledger} {rows : List CreditAllocation}
    (h : next.allocations = L.allocations ++ rows) (grant : Uuid) :
    next.spentOn grant =
      L.spentOn grant + ((rows.filter fun a => a.grantId == grant).map (·.credits)).sum := by
  simp [spentOn, h]

theorem spentOn_congr {next : Ledger} (h : next.allocations = L.allocations) (grant : Uuid) :
    next.spentOn grant = L.spentOn grant := by
  rw [spentOn, spentOn, h]

/-- A row that was just inserted has nothing drawn on it. -/
theorem spentOn_added {next : Ledger} {added : List CreditGrant}
    (grants : next.grants = L.grants ++ added) (allocations : next.allocations = L.allocations)
    {g : CreditGrant} (hg : g ∈ added) : next.spentOn g.id = 0 := by
  have fresh : g.id ∉ L.grants.map (·.id) := by
    have key := next.grantKey
    rw [grants, List.map_append] at key
    intro old
    exact (List.nodup_append.mp key).2.2 _ old _ (List.mem_map_of_mem hg) rfl
  rw [spentOn_congr allocations, spentOn_of_fresh fresh]

theorem grant_eq {g h : CreditGrant} (hg : g ∈ L.grants) (hh : h ∈ L.grants)
    (same : g.id = h.id) : g = h :=
  List.inj_on_of_nodup_map L.grantKey hg hh same

theorem grants_nodup : L.grants.Nodup := L.grantKey.of_map _

end Ledger

end Gomer
