import Mathlib.Data.List.Basic

/-! Keys, and the rows of the credit tables. Columns that nothing in the model reads (free-text
notes, the derived provider cost, row timestamps other than a grant's) are left out. -/
namespace Gomer

/-- A generated primary key. -/
abbrev Uuid := Nat

/-- A uuid as Postgres prints it. -/
structure UuidText where
  text : String
  length : text.length = 36
  deriving DecidableEq

theorem uuid_ext {a b : UuidText} (same : a.text = b.text) : a = b := by
  cases a
  cases b
  cases same
  rfl

/-- A `timestamptz`, or what `Date.getTime` returns. -/
abbrev Instant := Int

/-- What a `Date` keeps, in milliseconds, of a time that Postgres keeps in microseconds. -/
def toDate (time : Int) : Int := time / 1000

def ofDate (date : Int) : Int := date * 1000

inductive CreditBucket where
  | rollover | plan | topup | reward
  deriving DecidableEq, Repr

inductive CreditGrantReason where
  | onboarding | topup | manual | subscription | rollover | referral | seatBonus
  deriving DecidableEq, Repr

inductive CreditEventType where
  | thread | scheduledTask
  deriving DecidableEq, Repr

inductive SubscriptionStatus where
  | trialing | active | pastDue | canceled | incomplete
  deriving DecidableEq, Repr

def SubscriptionStatus.value : SubscriptionStatus → String
  | .trialing => "trialing"
  | .active => "active"
  | .pastDue => "past_due"
  | .canceled => "canceled"
  | .incomplete => "incomplete"

def entitledStatuses : List SubscriptionStatus := [.trialing, .active, .pastDue]

/-- A grant as `create` builds it; the key and the timestamp come with the insert. -/
structure NewGrant where
  workspaceId : Uuid
  userId : Option Uuid := none
  reason : CreditGrantReason
  bucket : CreditBucket
  credits : Int
  expiresAt : Option Instant := none
  amountCents : Option Int := none
  currency : Option String := none
  stripeSessionId : Option String := none
  stripeInvoiceId : Option String := none
  deriving DecidableEq, Repr

structure CreditGrant extends NewGrant where
  id : Uuid
  createdAt : Instant
  deriving DecidableEq, Repr

structure NewEvent where
  workspaceId : Uuid
  userId : Option Uuid
  taskId : Option Uuid
  type : CreditEventType
  sourceName : String
  inputTokens : Int
  outputTokens : Int
  cacheWriteTokens : Int
  cacheReadTokens : Int
  tokensUsed : Int
  creditsUsed : Int
  model : String
  resolvedModel : Option String
  deriving DecidableEq, Repr

structure CreditEvent extends NewEvent where
  id : Uuid
  deriving DecidableEq, Repr

structure CreditAllocation where
  /-- NULL only on rows backfilled by the migration. -/
  creditEventId : Option Uuid
  grantId : Uuid
  bucket : CreditBucket
  credits : Int
  deriving DecidableEq, Repr

structure Subscription where
  id : Uuid
  workspaceId : Uuid
  planId : String
  status : SubscriptionStatus
  stripeSubscriptionId : String
  stripeCustomerId : String
  currentPeriodStart : Instant
  currentPeriodEnd : Instant
  seats : Int
  cancelAtPeriodEnd : Bool
  deriving DecidableEq, Repr

/-- What a failed statement raises. -/
inductive DbError where
  | uniqueViolation | foreignKeyViolation | invalidInput | unavailable
  deriving DecidableEq, Repr

/-- Postgres code 23505. -/
def isUniqueViolation : DbError → Bool
  | .uniqueViolation => true
  | _ => false

end Gomer
