import Gomer.Lib.Drain
import Gomer.Database.Ledger
import Gomer.Usage.Pricing

/-! Spending: which grants are live, which of them pay for a run, and the three
statements that record it. -/
namespace Gomer

open Relational Drain

def spendOrder : List CreditBucket := [.rollover, .plan, .topup, .reward]

/-- `SPEND_ORDER.indexOf(bucket)`. -/
def rank (bucket : CreditBucket) : Nat := spendOrder.idxOf bucket

structure SpendableGrant where
  id : Uuid
  bucket : CreditBucket
  remaining : Int
  deriving DecidableEq, Repr

structure PlannedAllocation where
  grantId : Uuid
  bucket : CreditBucket
  credits : Int
  deriving DecidableEq, Repr

/-- A stable sort by bucket rank. -/
def ordered (grants : List SpendableGrant) : List SpendableGrant :=
  grants.insertionSort fun a b => rank a.bucket ≤ rank b.bucket

def planLoop : List SpendableGrant → Int → List PlannedAllocation
  | [], _ => []
  | grant :: rest, outstanding =>
    if outstanding ≤ 0 then []
    else
      let take := min outstanding grant.remaining
      if take ≤ 0 then planLoop rest outstanding
      else ⟨grant.id, grant.bucket, take⟩ :: planLoop rest (outstanding - take)

def planAllocations (grants : List SpendableGrant) (credits : Int) : List PlannedAllocation :=
  planLoop (ordered grants) (max 0 credits)

/-- `allocation."grantId" = credit_grant.id` -/
def onGrant (g : CreditGrant) (a : CreditAllocation) : Bool := a.grantId == g.id

/-- `"expiresAt" IS NULL OR "expiresAt" > NOW()` -/
def unexpired (now : Instant) (g : CreditGrant) : Bool :=
  match g.expiresAt with
  | none => true
  | some t => decide (now < t)

/-- `COALESCE(SUM(allocation.credits), 0)` over the rows of one group. -/
def spentColumn (rows : List (CreditGrant × Option CreditAllocation)) : Int :=
  coalesce (sum (fun r => r.2.map (·.credits)) rows) 0

/-- The order in which the table happens to be scanned, which decides the order of
rows that tie in an ORDER BY. -/
structure Scan where
  order : List CreditGrant → List CreditGrant
  perm : ∀ grants, (order grants).Perm grants

def Scan.table : Scan := ⟨id, fun grants => List.Perm.refl grants⟩

/-- Grouping is by the primary key, so each group belongs to one grant row. -/
def liveGrantsForSpending (scan : Scan) (L : Ledger) (workspaceId : Uuid) (now : Instant) :
    List SpendableGrant :=
  let rows := (leftJoin onGrant (scan.order L.grants) L.allocations).filter fun r =>
    r.1.workspaceId == workspaceId && unexpired now r.1
  let groups := (groupBy Prod.fst rows).filter fun g => decide (g.1.credits > spentColumn g.2)
  (orderBy (fun g => g.1.createdAt) groups).map fun g =>
    ⟨g.1.id, g.1.bucket, g.1.credits - spentColumn g.2⟩

structure RecordUsageInput where
  workspaceId : Uuid
  userId : Option Uuid := none
  taskId : Option Uuid := none
  model : String
  inputTokens : Int
  outputTokens : Int
  cacheWriteTokens : Option Int := none
  cacheReadTokens : Option Int := none
  sourceName : String
  type : Option CreditEventType := none
  resolvedModel : Option String := none

def createEvent (p : Pricing) (input : RecordUsageInput) : NewEvent where
  workspaceId := input.workspaceId
  userId := input.userId
  taskId := input.taskId
  type := input.type.getD .thread
  sourceName := input.sourceName
  inputTokens := input.inputTokens
  outputTokens := input.outputTokens
  cacheWriteTokens := input.cacheWriteTokens.getD 0
  cacheReadTokens := input.cacheReadTokens.getD 0
  tokensUsed := input.inputTokens + input.outputTokens
  creditsUsed := p.creditsFor input.model input.inputTokens input.outputTokens
  model := input.model
  resolvedModel := input.resolvedModel

def createAllocation (event : CreditEvent) (a : PlannedAllocation) : CreditAllocation :=
  ⟨some event.id, a.grantId, a.bucket, a.credits⟩

/-- The database statements of one `recordEvent` call, in the order it issues them. -/
inductive Statement where
  | insertEvent | readGrants | insertAllocations
  deriving DecidableEq, Repr

/-- Which statements of a call fail, and with what. A statement that fails is not carried out; where
only its answer is lost, the ledger is one there already is: that of a call whose next statement
failed, or of one in which none did. -/
abbrev Faults := Statement → Option DbError

def saveAllocations (L : Ledger) (event : CreditEvent) (planned : List PlannedAllocation) :
    Except DbError Ledger :=
  if planned.length = 0 then .ok L
  else L.saveAllocations (planned.map (createAllocation event))

/-- There is no surrounding transaction: what a failed call has written stays. -/
def allocate (faults : Faults) (scan : Scan) (L : Ledger) (now : Instant) (event : CreditEvent) :
    Ledger × Except DbError Unit :=
  match faults .readGrants with
  | some e => (L, .error e)
  | none =>
    let live := liveGrantsForSpending scan L event.workspaceId now
    let planned := planAllocations live event.creditsUsed
    if planned.length = 0 then (L, .ok ())
    else
      match faults .insertAllocations with
      | some e => (L, .error e)
      | none =>
        match saveAllocations L event planned with
        | .error e => (L, .error e)
        | .ok next => (next, .ok ())

def recordEvent (p : Pricing) (faults : Faults) (scan : Scan) (L : Ledger) (now : Instant)
    (input : RecordUsageInput) : Ledger × Except DbError CreditEvent :=
  match faults .insertEvent with
  | some e => (L, .error e)
  | none =>
    let event := L.nextEvent (createEvent p input)
    match allocate faults scan (L.saveEvent (createEvent p input)) now event with
    | (next, .error e) => (next, .error e)
    | (next, .ok _) => (next, .ok event)

/-- The only caller: whatever `recordEvent` throws is logged and dropped. -/
def recordUsage (p : Pricing) (faults : Faults) (scan : Scan) (L : Ledger) (now : Instant)
    (input : RecordUsageInput) : Ledger :=
  if input.inputTokens + input.outputTokens ≤ 0 then L
  else (recordEvent p faults scan L now input).1

structure GrantCreditsInput where
  workspaceId : Uuid
  userId : Option Uuid := none
  reason : CreditGrantReason
  credits : Int
  bucket : Option CreditBucket := none
  expiresAt : Option Instant := none
  amountCents : Option Int := none
  currency : Option String := none
  stripeSessionId : Option String := none
  stripeInvoiceId : Option String := none

def bucketForReason : CreditGrantReason → CreditBucket
  | .topup => .topup
  | .subscription => .plan
  | .rollover => .rollover
  | _ => .reward

def createGrant (input : GrantCreditsInput) : NewGrant where
  workspaceId := input.workspaceId
  userId := input.userId
  reason := input.reason
  bucket := input.bucket.getD (bucketForReason input.reason)
  credits := input.credits
  expiresAt := input.expiresAt
  amountCents := input.amountCents
  currency := input.currency
  stripeSessionId := input.stripeSessionId
  stripeInvoiceId := input.stripeInvoiceId

def grantCredits (L : Ledger) (now : Instant) (input : GrantCreditsInput) : Except DbError Ledger :=
  L.saveGrant now (createGrant input)

def hasGrantForStripeSession (L : Ledger) (stripeSessionId : String) : Bool :=
  L.grants.any fun g => g.stripeSessionId == some stripeSessionId

/-! The planner drains its grants in spend order -/

theorem planLoop_eq (grants : List SpendableGrant) (outstanding : Int) :
    planLoop grants outstanding = (drain (·.remaining) grants outstanding).map
      fun t => ⟨t.1.id, t.1.bucket, t.2⟩ := by
  induction grants generalizing outstanding with
  | nil => rfl
  | cons grant rest ih =>
    simp only [planLoop, drain]
    split
    · rfl
    · split
      · exact ih outstanding
      · rw [List.map_cons, ih]

theorem ordered_perm (grants : List SpendableGrant) : (ordered grants).Perm grants :=
  List.perm_insertionSort _ _

theorem planAllocations_total (grants : List SpendableGrant) (credits : Int) :
    ((planAllocations grants credits).map (·.credits)).sum =
      min (max 0 credits) (holding (·.remaining) grants) := by
  have paid := drain_total (·.remaining) (ordered grants) (max 0 credits)
  rw [holding_perm _ (ordered_perm grants)] at paid
  simp only [planAllocations, planLoop_eq, List.map_map]
  change total _ = _
  rw [paid]
  omega

theorem planAllocations_bounds {grants : List SpendableGrant} {credits : Int}
    {a : PlannedAllocation} (h : a ∈ planAllocations grants credits) :
    ∃ g ∈ grants, g.id = a.grantId ∧ g.bucket = a.bucket ∧ 0 < a.credits ∧
      a.credits ≤ g.remaining := by
  rw [planAllocations, planLoop_eq] at h
  obtain ⟨t, ht, rfl⟩ := List.mem_map.mp h
  obtain ⟨member, positive, bounded⟩ := drain_bounds _ ht
  exact ⟨t.1, (ordered_perm grants).mem_iff.mp member, rfl, rfl, positive, bounded⟩

/-- No grant is named twice when the grants have distinct keys. -/
theorem planAllocations_distinct {grants : List SpendableGrant} (credits : Int)
    (key : (grants.map (·.id)).Nodup) :
    ((planAllocations grants credits).map (·.grantId)).Nodup := by
  have keys := ((ordered_perm grants).map (·.id)).nodup_iff.mpr key
  have drawn := (drain_sublist (·.remaining) (ordered grants) (max 0 credits)).map (·.id)
  rw [planAllocations, planLoop_eq, List.map_map]
  rw [List.map_map] at drawn
  exact keys.sublist drawn

/-- What a plan takes from the grants a test on their keys picks out. -/
theorem planned_filter (grants : List SpendableGrant) (credits : Int) (p : Uuid → Bool) :
    (((planAllocations grants credits).filter fun a => p a.grantId).map (·.credits)).sum =
      total ((drain (·.remaining) (ordered grants) (max 0 credits)).filter fun t => p t.1.id) := by
  rw [planAllocations, planLoop_eq, List.filter_map, List.map_map]
  rfl

/-- The draw on one grant, from its place in spend order. -/
theorem planned_on {grants ahead behind : List SpendableGrant} {row : SpendableGrant}
    (credits : Int) (key : (grants.map (·.id)).Nodup)
    (place : ordered grants = ahead ++ row :: behind) :
    (((planAllocations grants credits).filter fun a => a.grantId == row.id).map (·.credits)).sum =
      max 0 (min (max 0 credits - holding (·.remaining) ahead) row.remaining) := by
  have keys := ((ordered_perm grants).map (·.id)).nodup_iff.mpr key
  rw [place, List.map_append, List.map_cons] at keys
  obtain ⟨_, tail, apart⟩ := List.nodup_append.mp keys
  rw [planned_filter grants credits fun id => id == row.id, place]
  refine drain_taken _ (p := fun r : SpendableGrant => r.id == row.id) (beq_self_eq_true row.id)
    ?_ ?_ _
  · intro y hy
    exact beq_false_of_ne (apart y.id (List.mem_map_of_mem hy) row.id List.mem_cons_self)
  · intro y hy
    refine beq_false_of_ne fun same => (List.nodup_cons.mp tail).1 ?_
    exact same ▸ List.mem_map_of_mem hy

/-- A grant the planner was not given is not drawn on. -/
theorem planned_absent {grants : List SpendableGrant} (credits : Int) {id : Uuid}
    (absent : id ∉ grants.map (·.id)) :
    (((planAllocations grants credits).filter fun a => a.grantId == id).map (·.credits)).sum = 0 := by
  have untouched := drain_untouched (·.remaining) (p := fun r : SpendableGrant => r.id == id)
    (fun (y : SpendableGrant) (hy : y ∈ ordered grants) => beq_false_of_ne fun same => absent
      (same ▸ List.mem_map_of_mem ((ordered_perm grants).mem_iff.mp hy))) (max 0 credits)
  rw [planned_filter grants credits fun i => i == id, untouched]
  rfl

/-! What the grants query returns -/

namespace Ledger

variable (L : Ledger)

def spendable (workspaceId : Uuid) (now : Instant) (g : CreditGrant) : Bool :=
  g.workspaceId == workspaceId && unexpired now g && decide (L.spentOn g.id < g.credits)

def toSpendable (g : CreditGrant) : SpendableGrant := ⟨g.id, g.bucket, L.remainingOn g⟩

/-- Credits a workspace can still spend at an instant. -/
def liveBalance (workspaceId : Uuid) (now : Instant) : Int :=
  holding L.remainingOn
    (L.grants.filter fun g => g.workspaceId == workspaceId && unexpired now g)

theorem spentColumn_joinRow (g : CreditGrant) :
    spentColumn (joinRow onGrant L.allocations g) = L.spentOn g.id := by
  have column := joinRow_sum_right onGrant L.allocations g (·.credits)
  rw [spentColumn, coalesce_sum, column]
  rfl

end Ledger

/-- The query reads each live grant of the workspace that still holds credits, once. -/
theorem liveGrants_eq (scan : Scan) (L : Ledger) (workspaceId : Uuid) (now : Instant) :
    liveGrantsForSpending scan L workspaceId now =
      (orderBy (·.createdAt) ((scan.order L.grants).filter (L.spendable workspaceId now))).map
        L.toSpendable := by
  have key : ((scan.order L.grants).filter fun g =>
      g.workspaceId == workspaceId && unexpired now g).Nodup :=
    ((scan.perm L.grants).nodup_iff.mpr Ledger.grants_nodup).filter _
  have sorted := fun rows : List CreditGrant =>
    List.map_insertionSort (fun a b => a.createdAt ≤ b.createdAt)
      (fun a b : CreditGrant × List _ => a.1.createdAt ≤ b.1.createdAt)
      (fun g => (g, joinRow onGrant L.allocations g)) rows (by simp)
  have joined := leftJoin_filter onGrant
    (fun g => g.workspaceId == workspaceId && unexpired now g) (scan.order L.grants) L.allocations
  unfold liveGrantsForSpending
  simp only [joined, groupBy_leftJoin onGrant _ _ key, List.filter_map, List.filter_filter]
  unfold orderBy
  rw [← sorted, List.map_map]
  have rows : (fun g : CreditGrant => (decide (g.credits > L.spentOn g.id) &&
      (g.workspaceId == workspaceId && unexpired now g))) = L.spendable workspaceId now := by
    funext g
    rw [Ledger.spendable, Bool.and_comm]
  simp only [Function.comp_def, L.spentColumn_joinRow, rows]
  rfl

theorem liveGrants_perm (scan : Scan) (L : Ledger) (workspaceId : Uuid) (now : Instant) :
    (liveGrantsForSpending scan L workspaceId now).Perm
      ((L.grants.filter (L.spendable workspaceId now)).map L.toSpendable) := by
  rw [liveGrants_eq]
  exact ((orderBy_perm _ _).trans ((scan.perm L.grants).filter _)).map _

theorem mem_liveGrants {scan : Scan} {L : Ledger} {workspaceId : Uuid} {now : Instant}
    {r : SpendableGrant} : r ∈ liveGrantsForSpending scan L workspaceId now ↔
      ∃ g ∈ L.grants, L.spendable workspaceId now g = true ∧ L.toSpendable g = r := by
  rw [(liveGrants_perm scan L workspaceId now).mem_iff]
  simp only [List.mem_map, List.mem_filter, and_assoc]

theorem liveGrants_key (scan : Scan) (L : Ledger) (workspaceId : Uuid) (now : Instant) :
    ((liveGrantsForSpending scan L workspaceId now).map (·.id)).Nodup := by
  rw [((liveGrants_perm scan L workspaceId now).map _).nodup_iff, List.map_map]
  exact L.grantKey.sublist (List.filter_sublist.map _)

theorem liveGrants_holding (scan : Scan) (L : Ledger) (workspaceId : Uuid) (now : Instant) :
    holding (·.remaining) (liveGrantsForSpending scan L workspaceId now) =
      L.liveBalance workspaceId now := by
  have spent : ∀ g, decide (L.spentOn g.id < g.credits) = false → L.remainingOn g ≤ 0 := by
    intro g h
    have := of_decide_eq_false h
    unfold Ledger.remainingOn
    omega
  rw [holding_perm _ (liveGrants_perm scan L workspaceId now), holding_map]
  change holding L.remainingOn _ = _
  unfold Ledger.spendable Ledger.liveBalance
  rw [← holding_filter L.remainingOn _ spent (L.grants.filter fun g =>
    g.workspaceId == workspaceId && unexpired now g), List.filter_filter]
  congr 1
  apply List.filter_congr
  intro g _
  rw [Bool.and_comm]

end Gomer
