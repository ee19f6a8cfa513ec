import Gomer.Usage.Balance
import Gomer.Billing.Plans

/-! `SubscriptionsService`: the local mirror of a Stripe subscription, and the grants
one paid period buys. -/
namespace Gomer

open Relational Drain

/-- The `subscriptions` table with its unique columns. -/
structure Subscriptions where
  rows : List Subscription
  idKey : (rows.map (·.id)).Nodup
  workspaceKey : (rows.map (·.workspaceId)).Nodup
  stripeKey : (rows.map (·.stripeSubscriptionId)).Nodup

structure Database where
  ledger : Ledger
  subscriptions : Subscriptions

def Subscriptions.empty : Subscriptions := ⟨[], List.nodup_nil, List.nodup_nil, List.nodup_nil⟩

def Database.empty : Database := ⟨Ledger.empty, Subscriptions.empty⟩

/-- An UPDATE that leaves every unique column of every row as it is. -/
def Subscriptions.update (t : Subscriptions) (f : Subscription → Subscription)
    (fixed : ∀ row, (f row).id = row.id ∧ (f row).workspaceId = row.workspaceId ∧
      (f row).stripeSubscriptionId = row.stripeSubscriptionId) : Subscriptions where
  rows := t.rows.map f
  idKey := by
    rw [map_fixed _ f fun row => (fixed row).1]
    exact t.idKey
  workspaceKey := by
    rw [map_fixed _ f fun row => (fixed row).2.1]
    exact t.workspaceKey
  stripeKey := by
    rw [map_fixed _ f fun row => (fixed row).2.2]
    exact t.stripeKey

def findByStripeId (t : Subscriptions) (stripeSubscriptionId : String) : Option Subscription :=
  t.rows.find? fun row => row.stripeSubscriptionId == stripeSubscriptionId

def findForWorkspace (t : Subscriptions) (workspaceId : Uuid) : Option Subscription :=
  t.rows.find? fun row => row.workspaceId == workspaceId

def isEntitled (t : Subscriptions) (workspaceId : Uuid) : Bool :=
  match findForWorkspace t workspaceId with
  | none => false
  | some subscription => entitledStatuses.contains subscription.status

def freeSeats : Int := 4
def seatBonusCredits : Int := 25 * creditsPerDollar
def seatBonusCap : Int := 1000 * creditsPerDollar

def seatBonusFor (seats : Int) : Int :=
  min (max 0 (seats - freeSeats) * seatBonusCredits) seatBonusCap

/-- The query joins the allocations to the grants and sums both columns of the joined
table without grouping it first. -/
def unspentPlanCredits (grants : List CreditGrant) (allocations : List CreditAllocation)
    (workspaceId : Uuid) (now : Instant) : Int :=
  let rows := (leftJoin onGrant grants allocations).filter fun r =>
    r.1.workspaceId == workspaceId && r.1.bucket == .plan && unexpired now r.1
  let remaining := coalesce (sum (fun r => some r.1.credits) rows) 0 -
    coalesce (sum (fun r => r.2.map (·.credits)) rows) 0
  max 0 remaining

structure RenewalResult where
  planCredits : Int
  rolledOver : Int
  seatBonus : Int
  applied : Bool
  deriving DecidableEq, Repr

def notApplied : RenewalResult := ⟨0, 0, 0, false⟩

section
variable (subscription : Subscription) (plan : SubscriptionPlan) (stripeInvoiceId : String)
  (periodEnd : Instant)

def rolloverGrant (rolledOver : Int) : NewGrant where
  workspaceId := subscription.workspaceId
  reason := .rollover
  bucket := .rollover
  credits := rolledOver
  expiresAt := some periodEnd

def planGrant : NewGrant where
  workspaceId := subscription.workspaceId
  reason := .subscription
  bucket := .plan
  credits := plan.monthlyCredits
  expiresAt := some periodEnd
  amountCents := some plan.priceCents
  currency := some "usd"
  stripeInvoiceId := some stripeInvoiceId

def seatBonusGrant (seatBonus : Int) : NewGrant where
  workspaceId := subscription.workspaceId
  reason := .seatBonus
  bucket := .reward
  credits := seatBonus

/-- The inserts of the renewal transaction, in order. -/
def renewalGrants (rolledOver seatBonus : Int) : List NewGrant :=
  (if rolledOver > 0 then [rolloverGrant subscription periodEnd rolledOver] else []) ++
    [planGrant subscription plan stripeInvoiceId periodEnd] ++
    (if seatBonus > 0 then [seatBonusGrant subscription seatBonus] else [])

end

/-- `UPDATE subscriptions SET seats, "currentPeriodEnd" WHERE id`. -/
def updateRenewed (t : Subscriptions) (id : Uuid) (seats : Int) (periodEnd : Instant) :
    Subscriptions :=
  t.update (fun row => if row.id == id then { row with seats, currentPeriodEnd := periodEnd } else row)
    fun row => by split <;> exact ⟨rfl, rfl, rfl⟩

def alreadyApplied (L : Ledger) (stripeInvoiceId : String) : Bool :=
  L.grants.any fun g => g.stripeInvoiceId == some stripeInvoiceId

/-- The body of the transaction; an error undoes all of it. -/
def renewalTransaction (db : Database) (now : Instant) (seats : Int) (subscription : Subscription)
    (plan : SubscriptionPlan) (stripeInvoiceId : String) (periodEnd : Instant) :
    Except DbError (Database × RenewalResult) :=
  let rolledOver := unspentPlanCredits db.ledger.grants db.ledger.allocations
    subscription.workspaceId now
  let seatBonus := seatBonusFor seats
  match db.ledger.saveGrants now
    (renewalGrants subscription plan stripeInvoiceId periodEnd rolledOver seatBonus) with
  | .error e => .error e
  | .ok ledger =>
    .ok (⟨ledger, updateRenewed db.subscriptions subscription.id seats periodEnd⟩,
      ⟨plan.monthlyCredits, rolledOver, seatBonus, true⟩)

/-- `seats` is what `countActiveByWorkspace` returns. -/
def applyRenewal (db : Database) (now : Instant) (seats : Int) (subscription : Subscription)
    (stripeInvoiceId : String) (periodEnd : Instant) : Database × Except DbError RenewalResult :=
  match findPlan subscription.planId with
  | none => (db, .ok notApplied)
  | some plan =>
    if alreadyApplied db.ledger stripeInvoiceId then (db, .ok notApplied)
    else
      match renewalTransaction db now seats subscription plan stripeInvoiceId periodEnd with
      | .ok (next, result) => (next, .ok result)
      | .error e => if isUniqueViolation e then (db, .ok notApplied) else (db, .error e)

/-! Mirroring the Stripe object -/

/-- A billing period, as unix seconds. -/
structure StripePeriodFields where
  currentPeriodStart : Option Int := none
  currentPeriodEnd : Option Int := none
  deriving DecidableEq, Repr

structure StripeSubscription extends StripePeriodFields where
  id : Option String
  customer : String
  status : String
  items : List StripePeriodFields := []
  cancelAtPeriodEnd : Option Bool := none
  workspaceId : Option Uuid := none
  planId : Option String := none
  deriving DecidableEq, Repr

def StripePeriodFields.complete (fields : StripePeriodFields) : Option (Int × Int) :=
  fields.currentPeriodStart.bind fun start => fields.currentPeriodEnd.map fun stop => (start, stop)

/-- From the subscription itself, else from the first of its items that carries one. -/
def subscriptionPeriod (stripe : StripeSubscription) : Option (Instant × Instant) :=
  ((stripe.toStripePeriodFields :: stripe.items).findSome? (·.complete)).map fun period =>
    (period.1 * 1000, period.2 * 1000)

/-- An unknown status counts as canceled. -/
def toStatus (raw : String) : SubscriptionStatus :=
  ([.trialing, .active, .pastDue, .canceled, .incomplete].find? fun status : SubscriptionStatus =>
    status.value == raw).getD .canceled

/-- What the handlers throw. -/
inductive WebhookError where
  | serviceUnavailable (message : String)
  | error (message : String)
  | database (e : DbError)
  deriving DecidableEq, Repr

/-- The table with its unique indexes checked. -/
def Subscriptions.ofRows (rows : List Subscription) : Except DbError Subscriptions :=
  if h : (rows.map (·.id)).Nodup ∧ (rows.map (·.workspaceId)).Nodup ∧
      (rows.map (·.stripeSubscriptionId)).Nodup then .ok ⟨rows, h.1, h.2.1, h.2.2⟩
  else .error .uniqueViolation

/-- The row `create` builds; an existing one lends its key and its seats. -/
def createSubscription (workspaceId : Uuid) (planId : String) (id : String)
    (stripe : StripeSubscription) (rowId : Uuid) (seats : Int) (period : Instant × Instant) :
    Subscription where
  id := rowId
  workspaceId
  planId
  status := toStatus stripe.status
  stripeSubscriptionId := id
  stripeCustomerId := stripe.customer
  currentPeriodStart := period.1
  currentPeriodEnd := period.2
  seats
  cancelAtPeriodEnd := stripe.cancelAtPeriodEnd.getD false

def syncFromStripe (t : Subscriptions) (workspaceId : Uuid) (planId : String) (id : String)
    (stripe : StripeSubscription) : Except WebhookError Subscriptions :=
  let create := createSubscription workspaceId planId id stripe
  match findByStripeId t id, subscriptionPeriod stripe with
  | none, none => .error (.error ("Subscription " ++ id ++ " carries no current period"))
  | none, some period =>
    (Subscriptions.ofRows (t.rows ++ [create (freshId (t.rows.map (·.id))) 0 period])).mapError
      .database
  | some existing, period =>
    let kept := period.getD (existing.currentPeriodStart, existing.currentPeriodEnd)
    (Subscriptions.ofRows (t.rows.map fun r =>
      if r.id = existing.id then create existing.id existing.seats kept else r)).mapError .database

def markStatus (t : Subscriptions) (stripeSubscriptionId : String) (status : SubscriptionStatus) :
    Subscriptions :=
  t.update (fun row => if row.stripeSubscriptionId == stripeSubscriptionId then { row with status }
    else row) fun row => by split <;> exact ⟨rfl, rfl, rfl⟩

def starterSubscription : Subscription where
  id := 1
  workspaceId := 1
  planId := "starter"
  status := .active
  stripeSubscriptionId := "sub_1"
  stripeCustomerId := "cus_1"
  currentPeriodStart := 0
  currentPeriodEnd := 100
  seats := 1
  cancelAtPeriodEnd := false

/-! What a renewal leaves in the ledger -/

theorem seatBonusFor_nonneg (seats : Int) : 0 ≤ seatBonusFor seats := by
  unfold seatBonusFor seatBonusCredits seatBonusCap creditsPerDollar
  omega

theorem unspentPlanCredits_nonneg (grants : List CreditGrant)
    (allocations : List CreditAllocation) (workspaceId : Uuid) (now : Instant) :
    0 ≤ unspentPlanCredits grants allocations workspaceId now := le_max_left _ _

theorem renewalGrants_pos {subscription : Subscription} {plan : SubscriptionPlan}
    {stripeInvoiceId : String} {periodEnd : Instant} {rolledOver seatBonus : Int}
    (allowance : 0 < plan.monthlyCredits) :
    ∀ row ∈ renewalGrants subscription plan stripeInvoiceId periodEnd rolledOver seatBonus,
      0 < row.credits := by
  intro row hrow
  simp only [renewalGrants, List.mem_append, List.mem_singleton] at hrow
  obtain (h | rfl) | h := hrow
  · split at h
    · rw [List.mem_singleton.mp h]
      assumption
    · cases h
  · simp only [planGrant]
    omega
  · split at h
    · rw [List.mem_singleton.mp h]
      assumption
    · cases h

/-- A renewal that applied ran its whole transaction. -/
theorem applyRenewal_applied {db next : Database} {now : Instant} {seats : Int}
    {subscription : Subscription} {stripeInvoiceId : String} {periodEnd : Instant}
    {result : RenewalResult}
    (done : applyRenewal db now seats subscription stripeInvoiceId periodEnd = (next, .ok result))
    (applied : result.applied = true) :
    ∃ plan, findPlan subscription.planId = some plan ∧
      alreadyApplied db.ledger stripeInvoiceId = false ∧
      result = ⟨plan.monthlyCredits, unspentPlanCredits db.ledger.grants db.ledger.allocations
        subscription.workspaceId now, seatBonusFor seats, true⟩ ∧
      db.ledger.saveGrants now (renewalGrants subscription plan stripeInvoiceId periodEnd
        result.rolledOver result.seatBonus) = .ok next.ledger ∧
      next.subscriptions = updateRenewed db.subscriptions subscription.id seats periodEnd := by
  unfold applyRenewal at done
  split at done
  · cases done
    cases applied
  · rename_i plan found
    split at done
    · cases done
      cases applied
    · rename_i first
      split at done
      · rename_i after outcome ran
        cases done
        unfold renewalTransaction at ran
        simp only at ran
        split at ran
        · cases ran
        · rename_i ledger saved
          cases ran
          exact ⟨plan, found, Bool.eq_false_of_not_eq_true first, rfl, saved, rfl⟩
      · split at done
        · cases done
          cases applied
        · cases done

theorem alreadyApplied_eq_false_iff {L : Ledger} {stripeInvoiceId : String} :
    alreadyApplied L stripeInvoiceId = false ↔ stripeInvoiceId ∉ L.invoiceIds := by
  simp [alreadyApplied, Ledger.invoiceIds]

/-- The rows of a renewal carry one key between them, its invoice. -/
theorem renewalGrants_keys (subscription : Subscription) (plan : SubscriptionPlan)
    (stripeInvoiceId : String) (periodEnd : Instant) (rolledOver seatBonus : Int) :
    (renewalGrants subscription plan stripeInvoiceId periodEnd rolledOver seatBonus).filterMap
        (·.stripeSessionId) = [] ∧
      (renewalGrants subscription plan stripeInvoiceId periodEnd rolledOver seatBonus).filterMap
        (·.stripeInvoiceId) = [stripeInvoiceId] := by
  unfold renewalGrants
  split <;> split <;> exact ⟨rfl, rfl⟩

theorem renewalGrants_insertable {L : Ledger} {subscription : Subscription}
    {plan : SubscriptionPlan} {stripeInvoiceId : String} {periodEnd : Instant}
    {rolledOver seatBonus : Int} (first : alreadyApplied L stripeInvoiceId = false) :
    ∀ row ∈ renewalGrants subscription plan stripeInvoiceId periodEnd rolledOver seatBonus,
      L.Insertable row := by
  obtain ⟨sessions, invoices⟩ :=
    renewalGrants_keys subscription plan stripeInvoiceId periodEnd rolledOver seatBonus
  intro row hrow
  constructor
  · intro k key
    have member : k ∈ ([] : List String) := sessions ▸ List.mem_filterMap.mpr ⟨row, hrow, key⟩
    cases member
  · intro k key
    have member : k ∈ [stripeInvoiceId] := invoices ▸ List.mem_filterMap.mpr ⟨row, hrow, key⟩
    rw [List.mem_singleton.mp member]
    exact alreadyApplied_eq_false_iff.mp first

/-- The pre-check and the unique index agree, so a lone renewal of a new invoice applies. -/
theorem applyRenewal_first {db : Database} {now : Instant} {seats : Int}
    {subscription : Subscription} {stripeInvoiceId : String} {periodEnd : Instant}
    {plan : SubscriptionPlan} (found : findPlan subscription.planId = some plan)
    (first : alreadyApplied db.ledger stripeInvoiceId = false) :
    ∃ next, applyRenewal db now seats subscription stripeInvoiceId periodEnd = (next, .ok
      ⟨plan.monthlyCredits, unspentPlanCredits db.ledger.grants db.ledger.allocations
        subscription.workspaceId now, seatBonusFor seats, true⟩) := by
  obtain ⟨sessions, invoices⟩ := renewalGrants_keys subscription plan stripeInvoiceId periodEnd
    (unspentPlanCredits db.ledger.grants db.ledger.allocations subscription.workspaceId now)
    (seatBonusFor seats)
  have fresh := alreadyApplied_eq_false_iff.mp first
  obtain ⟨ledger, saved⟩ : ∃ ledger, db.ledger.saveGrants now (renewalGrants subscription plan
      stripeInvoiceId periodEnd (unspentPlanCredits db.ledger.grants db.ledger.allocations
        subscription.workspaceId now) (seatBonusFor seats)) = .ok ledger := by
    apply Ledger.saveGrants_of_keys
    · rw [sessions, List.append_nil]
      exact db.ledger.sessionKey
    · rw [invoices]
      exact List.nodup_append_comm.mp (List.nodup_cons.mpr ⟨fresh, db.ledger.invoiceKey⟩)
  refine ⟨⟨ledger, updateRenewed db.subscriptions subscription.id seats periodEnd⟩, ?_⟩
  simp only [applyRenewal, found, first, Bool.false_eq_true, if_false, renewalTransaction, saved]

/-- A renewal that did not apply, or failed, changed nothing. -/
theorem applyRenewal_unapplied {db next : Database} {now : Instant} {seats : Int}
    {subscription : Subscription} {stripeInvoiceId : String} {periodEnd : Instant}
    {result : Except DbError RenewalResult}
    (done : applyRenewal db now seats subscription stripeInvoiceId periodEnd = (next, result))
    (unapplied : ∀ r, result = .ok r → r.applied = false) : next = db := by
  unfold applyRenewal at done
  split at done
  · cases done
    rfl
  · split at done
    · cases done
      rfl
    · split at done
      · rename_i after outcome ran
        cases done
        unfold renewalTransaction at ran
        simp only at ran
        split at ran
        · cases ran
        · cases ran
          cases unapplied _ rfl
      · split at done <;> cases done <;> rfl

end Gomer
