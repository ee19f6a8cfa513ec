import Gomer.Database.Ledger
import Gomer.Lib.Window

/-! The migration to the subscription credit model: four credits for one, a bucket for each grant,
and what was spent before laid across the grants of its workspace. -/
namespace Gomer.SubscriptionCreditModel

open Relational

inductive OldGrantReason where
  | onboarding | topup | manual
  deriving DecidableEq, Repr

structure OldGrant where
  id : Uuid
  workspaceId : Uuid
  userId : Option Uuid
  reason : OldGrantReason
  credits : Int
  amountCents : Option Int
  currency : Option String
  stripeSessionId : Option String
  createdAt : Instant
  deriving DecidableEq, Repr

/-- The credit tables before the migration. -/
structure OldLedger where
  grants : List OldGrant
  events : List CreditEvent
  grantKey : (grants.map (·.id)).Nodup
  sessionKey : UniqueKey (·.stripeSessionId) grants
  eventKey : (events.map (·.id)).Nodup

/-- The range of an `integer` column. -/
def IsInteger (n : Int) : Prop := -2147483648 ≤ n ∧ n ≤ 2147483647

instance (n : Int) : Decidable (IsInteger n) :=
  inferInstanceAs (Decidable (_ ∧ _))

/-- No figure leaves its column when it is multiplied. -/
def OldLedger.Fits (old : OldLedger) : Prop :=
  (∀ g ∈ old.grants, IsInteger (g.credits * 4)) ∧ ∀ e ∈ old.events, IsInteger (e.creditsUsed * 4)

instance (old : OldLedger) : Decidable old.Fits :=
  inferInstanceAs (Decidable (_ ∧ _))

/-- 100 → 400 credits per dollar. -/
def redenominate (old : OldLedger) : Option OldLedger :=
  if old.Fits then
    some {
      grants := old.grants.map fun g => { g with credits := g.credits * 4 }
      events := old.events.map fun e => { e with creditsUsed := e.creditsUsed * 4 }
      grantKey := by
        rw [List.map_map]
        exact old.grantKey
      sessionKey := by
        unfold UniqueKey
        rw [List.filterMap_map]
        exact old.sessionKey
      eventKey := by
        rw [List.map_map]
        exact old.eventKey }
  else none

def OldGrantReason.widen : OldGrantReason → CreditGrantReason
  | .onboarding => .onboarding
  | .topup => .topup
  | .manual => .manual

/-- Bought credits are top-ups, everything given away is a reward; neither expires. -/
def OldGrant.widen (g : OldGrant) : CreditGrant where
  id := g.id
  workspaceId := g.workspaceId
  userId := g.userId
  reason := g.reason.widen
  bucket := if g.reason ≠ .topup then .reward else .topup
  credits := g.credits
  expiresAt := none
  amountCents := g.amountCents
  currency := g.currency
  stripeSessionId := g.stripeSessionId
  stripeInvoiceId := none
  createdAt := g.createdAt

theorem nothing_drawn : UniqueKey CreditAllocation.draw [] := List.nodup_nil

/-- The new columns and tables, with nothing allocated yet. -/
def OldLedger.widen (old : OldLedger) : Ledger where
  grants := old.grants.map OldGrant.widen
  events := old.events
  allocations := []
  grantKey := by
    rw [List.map_map]
    exact old.grantKey
  sessionKey := by
    unfold UniqueKey
    rw [List.filterMap_map]
    exact old.sessionKey
  invoiceKey := by
    have none : (old.grants.map OldGrant.widen).filterMap (·.stripeInvoiceId) = [] := by
      simp [OldGrant.widen]
    rw [UniqueKey, none]
    exact List.nodup_nil
  eventKey := old.eventKey
  drawKey := nothing_drawn
  grantRef := fun _ missing => absurd missing List.not_mem_nil
  eventRef := fun _ missing => absurd missing List.not_mem_nil

/-- `ORDER BY "createdAt", "id"` -/
def NoLaterThan (h g : CreditGrant) : Prop :=
  h.createdAt < g.createdAt ∨ h.createdAt = g.createdAt ∧ h.id ≤ g.id

instance : DecidableRel NoLaterThan := fun _ _ => inferInstanceAs (Decidable (_ ∨ _ ∧ _))

/-- Each grant with what the earlier grants of its workspace hold. -/
def ranked (L : Ledger) : List (CreditGrant × Int) :=
  (preceding (·.workspaceId) NoLaterThan L.grants).map fun r =>
    (r.1, coalesce (sum (fun g => some g.credits) r.2) 0)

def spend (L : Ledger) : List (Uuid × Int) :=
  (groupBy (·.workspaceId) L.events).map fun g =>
    (g.1, coalesce (sum (fun e => some e.creditsUsed) g.2) 0)

/-- The rows of the backfill's `INSERT … SELECT`. -/
def backfill (L : Ledger) : List CreditAllocation :=
  (((join (fun r s => decide (s.1 = r.1.workspaceId)) (ranked L) (spend L)).map fun j =>
      (j.1.1, slice j.2.2 j.1.2 j.1.1.credits)).filter fun t => decide (0 < t.2)).map fun t =>
    ⟨none, t.1.id, t.1.bucket, t.2⟩

/-- One transaction: when a statement fails, nothing of it is left. -/
def up (old : OldLedger) : Option Ledger :=
  (redenominate old).bind fun scaled =>
    (scaled.widen.saveAllocations (backfill scaled.widen)).toOption

end Gomer.SubscriptionCreditModel
