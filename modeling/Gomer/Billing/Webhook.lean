import Gomer.Lib.Number
import Gomer.Usage.Spend
import Gomer.Billing.Subscriptions

/-! `BillingService.handleWebhook` after the signature check: what each Stripe event does
to the database. An absent field of a payload is `none`. -/
namespace Gomer

open JsNumber

/-- JavaScript truthiness of a string that may be absent. -/
def truthy (s : Option String) : Bool := s.any (· != "")

structure StripeCheckoutSession where
  id : Option String
  mode : Option String := none
  paymentStatus : Option String := none
  amountTotal : Option Int := none
  currency : Option String := none
  workspaceId : Option Uuid := none
  userId : Option Uuid := none
  credits : Option String := none
  deriving DecidableEq, Repr

/-- An id, an expanded object, or nothing. -/
inductive StripeRef where
  | missing
  | text (id : String)
  | object (id : Option String)
  deriving DecidableEq, Repr

structure StripePeriod where
  start : Int
  stop : Int
  deriving DecidableEq, Repr

structure StripeInvoice where
  id : Option String
  subscription : StripeRef := .missing
  parentSubscription : StripeRef := .missing
  billingReason : Option String := none
  lines : List (Option StripePeriod) := []
  deriving DecidableEq, Repr

inductive StripeEvent where
  | checkoutSessionCompleted (session : Option StripeCheckoutSession)
  | invoicePaid (invoice : Option StripeInvoice)
  | subscriptionCreated (stripe : Option StripeSubscription)
  | subscriptionUpdated (stripe : Option StripeSubscription)
  | subscriptionDeleted (stripe : Option StripeSubscription)
  | other
  deriving DecidableEq, Repr

def refId : StripeRef → Option String
  | .text id => if id = "" then none else some id
  | .object (some id) => if id = "" then none else some id
  | _ => none

def subscriptionIdFromInvoice (invoice : StripeInvoice) : Option String :=
  (refId invoice.subscription).or (refId invoice.parentSubscription)

def renewalReasons : List String := ["subscription_create", "subscription_cycle"]

/-- A top-up that passed the guards. -/
structure Topup where
  sessionId : String
  workspaceId : Uuid
  userId : Option Uuid
  credits : Double
  amountTotal : Option Int
  currency : Option String
  deriving DecidableEq

def isPositive : Double → Bool
  | .finite q => decide (0 < q)
  | .infinite negative => !negative
  | .nan => false

/-- The guards of `onCheckoutCompleted` in order; `none` is an early acknowledgement. -/
def topupOf (session : StripeCheckoutSession) : Option Topup :=
  if session.mode = some "subscription" then none
  else
    let credits := (session.credits.map number).getD (.finite 0)
    match session.id, session.workspaceId with
    | some id, some workspaceId =>
      if id = "" ∨ !credits.isFinite ∨ !isPositive credits then none
      else if truthy session.paymentStatus ∧ session.paymentStatus ≠ some "paid" then none
      else some ⟨id, workspaceId, session.userId, credits, session.amountTotal, session.currency⟩
    | _, _ => none

def topupInput (topup : Topup) (credits : Int) : GrantCreditsInput where
  workspaceId := topup.workspaceId
  userId := topup.userId
  reason := .topup
  credits
  amountCents := topup.amountTotal
  currency := topup.currency
  stripeSessionId := some topup.sessionId

/-- The column refuses what is not an integer of 32 bits. -/
def grantTopup (L : Ledger) (now : Instant) (topup : Topup) : Except DbError Ledger :=
  match toInt32 topup.credits with
  | none => .error .invalidInput
  | some credits => grantCredits L now (topupInput topup credits)

/-- `ok` is `{ received: true }`. -/
def onCheckoutCompleted (L : Ledger) (now : Instant) (session : Option StripeCheckoutSession) :
    Ledger × Except WebhookError Unit :=
  match session.bind topupOf with
  | none => (L, .ok ())
  | some topup =>
    if hasGrantForStripeSession L topup.sessionId then (L, .ok ())
    else
      match grantTopup L now topup with
      | .ok next => (next, .ok ())
      | .error e => (L, if isUniqueViolation e then .ok () else .error (.database e))

/-- The guards of `onInvoicePaid` before the first query: the invoice and its subscription. -/
def renewalOf (invoice : StripeInvoice) : Option (String × String) :=
  match invoice.id with
  | none => none
  | some id =>
    if id = "" then none
    else if truthy invoice.billingReason ∧ invoice.billingReason.getD "" ∉ renewalReasons then none
    else (subscriptionIdFromInvoice invoice).map fun stripeSubscriptionId =>
      (id, stripeSubscriptionId)

/-- The end of the first line's period, a zero counting as absent. -/
def invoicePeriodEnd (invoice : StripeInvoice) (subscription : Subscription) : Instant :=
  match invoice.lines.head? with
  | some (some period) => if period.stop = 0 then subscription.currentPeriodEnd
      else period.stop * 1000
  | _ => subscription.currentPeriodEnd

/-- `seats` answers `countActiveByWorkspace`. -/
def onInvoicePaid (db : Database) (now : Instant) (seats : Uuid → Int)
    (invoice : Option StripeInvoice) : Database × Except WebhookError Unit :=
  match invoice with
  | none => (db, .ok ())
  | some invoice =>
    match renewalOf invoice with
    | none => (db, .ok ())
    | some (id, stripeSubscriptionId) =>
      match findByStripeId db.subscriptions stripeSubscriptionId with
      | none => (db, .error (.serviceUnavailable "Subscription not yet synced"))
      | some subscription =>
        match applyRenewal db now (seats subscription.workspaceId) subscription id
          (invoicePeriodEnd invoice subscription) with
        | (next, .ok _) => (next, .ok ())
        | (next, .error e) => (next, .error (.database e))

def onSubscriptionChanged (db : Database) (stripe : Option StripeSubscription) :
    Database × Except WebhookError Unit :=
  match stripe with
  | none => (db, .ok ())
  | some stripe =>
    match stripe.id, stripe.workspaceId, stripe.planId with
    | some id, some workspaceId, some planId =>
      if id = "" ∨ planId = "" then (db, .ok ())
      else
        match syncFromStripe db.subscriptions workspaceId planId id stripe with
        | .ok subscriptions => ({ db with subscriptions }, .ok ())
        | .error e => (db, .error e)
    | _, _, _ => (db, .ok ())

def onSubscriptionDeleted (db : Database) (stripe : Option StripeSubscription) :
    Database × Except WebhookError Unit :=
  match stripe.bind (·.id) with
  | none => (db, .ok ())
  | some id =>
    if id = "" then (db, .ok ())
    else ({ db with subscriptions := markStatus db.subscriptions id .canceled }, .ok ())

def handleWebhook (db : Database) (now : Instant) (seats : Uuid → Int) :
    StripeEvent → Database × Except WebhookError Unit
  | .checkoutSessionCompleted session =>
    match onCheckoutCompleted db.ledger now session with
    | (ledger, result) => ({ db with ledger }, result)
  | .invoicePaid invoice => onInvoicePaid db now seats invoice
  | .subscriptionCreated stripe => onSubscriptionChanged db stripe
  | .subscriptionUpdated stripe => onSubscriptionChanged db stripe
  | .subscriptionDeleted stripe => onSubscriptionDeleted db stripe
  | .other => (db, .ok ())

end Gomer
