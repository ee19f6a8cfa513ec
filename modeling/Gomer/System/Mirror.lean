import Gomer.Billing.Sync

/-! The events of one Stripe subscription, delivered in any order and any number of times.
No handler compares what arrives with what it has, so the last delivery wins. -/
namespace Gomer.Mirror

inductive Notice where
  | created
  | updated
  | deleted
  | invoicePaid (invoice : StripeInvoice)
  deriving DecidableEq, Repr

/-- An event, with the subscription as it stands in Stripe when the event is made. -/
structure SubscriptionEvent where
  notice : Notice
  stripe : StripeSubscription
  deriving DecidableEq, Repr

namespace SubscriptionEvent

variable (e : SubscriptionEvent)

def payload : StripeEvent :=
  match e.notice with
  | .created => .subscriptionCreated (some e.stripe)
  | .updated => .subscriptionUpdated (some e.stripe)
  | .deleted => .subscriptionDeleted (some e.stripe)
  | .invoicePaid invoice => .invoicePaid (some invoice)

/-- What a created or updated event carries. -/
def change : Option StripeSubscription :=
  match e.notice with
  | .created => some e.stripe
  | .updated => some e.stripe
  | _ => none

/-- The invoice, where it is one that renews. -/
def invoiceId : Option String :=
  match e.notice with
  | .invoicePaid invoice => (renewalOf invoice).map (·.1)
  | _ => none

theorem event_cases : (∃ stripe, e.change = some stripe) ∨ e.notice = .deleted ∨
    ∃ invoice, e.notice = .invoicePaid invoice := by
  unfold change
  cases e.notice with
  | created => exact .inl ⟨e.stripe, rfl⟩
  | updated => exact .inl ⟨e.stripe, rfl⟩
  | deleted => exact .inr (.inl rfl)
  | invoicePaid invoice => exact .inr (.inr ⟨invoice, rfl⟩)

/-- What Stripe puts into every event of a subscription this application sold. -/
structure About (stripeSubscriptionId : String) (workspaceId : Uuid) : Prop where
  named : e.stripe.id = some stripeSubscriptionId
  workspace : e.stripe.workspaceId = some workspaceId
  plan : ∃ planId, e.stripe.planId = some planId ∧ planId ≠ ""
  period : ∃ period, subscriptionPeriod e.stripe = some period
  invoice : ∀ invoice, e.notice = .invoicePaid invoice →
    subscriptionIdFromInvoice invoice = some stripeSubscriptionId

end SubscriptionEvent

/-- All events of one subscription, the newest of them last. -/
structure History where
  stripeSubscriptionId : String
  workspaceId : Uuid
  earlier : List SubscriptionEvent
  newest : SubscriptionEvent
  named : stripeSubscriptionId ≠ ""
  own : ∀ e ∈ earlier ++ [newest], e.About stripeSubscriptionId workspaceId
  terminal : ∀ e ∈ earlier ++ [newest], e.notice = .deleted → newest.stripe.status = "canceled"

def History.events (H : History) : List SubscriptionEvent := H.earlier ++ [H.newest]

structure Delivery where
  event : SubscriptionEvent
  now : Instant
  seats : Uuid → Int

def Delivery.handle (d : Delivery) (db : Database) : Database × Except WebhookError Unit :=
  handleWebhook db d.now d.seats d.event.payload

/-- The database after the deliveries, the latest of which stands first. -/
def after (db : Database) : List Delivery → Database
  | [] => db
  | d :: earlier => (d.handle (after db earlier)).1

/-- Nothing of the subscription has reached the database. -/
structure Fresh (H : History) (db : Database) : Prop where
  row : findByStripeId db.subscriptions H.stripeSubscriptionId = none
  invoices : ∀ e ∈ H.events, ∀ id ∈ e.invoiceId, id ∉ db.ledger.invoiceIds

/-- Every event of the history has been handled, some of them more than once. -/
structure Delivered (H : History) (db : Database) (past : List Delivery) : Prop where
  only : ∀ d ∈ past, d.event ∈ H.events
  all : ∀ e ∈ H.events, ∃ d earlier, d :: earlier <:+ past ∧ d.event = e ∧
    (d.handle (after db earlier)).2 = .ok ()

/-- The row ends up as the newest event has it; on the way there a deleted subscription
is not entitled again and the period end does not move back. -/
structure Converges (H : History) (db : Database) (past : List Delivery) : Prop where
  mirrored : ∃ row,
    findByStripeId (after db past).subscriptions H.stripeSubscriptionId = some row ∧
      row.status = toStatus H.newest.stripe.status ∧
      row.cancelAtPeriodEnd = H.newest.stripe.cancelAtPeriodEnd.getD false ∧
      subscriptionPeriod H.newest.stripe = some (row.currentPeriodStart, row.currentPeriodEnd)
  ended : ∀ later, later <:+ past → (∃ d ∈ later, d.event.notice = .deleted) →
    ∀ row ∈ findByStripeId (after db later).subscriptions H.stripeSubscriptionId,
      row.status ∉ entitledStatuses
  onward : ∀ d earlier, d :: earlier <:+ past →
    ∀ old ∈ findByStripeId (after db earlier).subscriptions H.stripeSubscriptionId,
    ∀ new ∈ findByStripeId (after db (d :: earlier)).subscriptions H.stripeSubscriptionId,
      old.currentPeriodEnd ≤ new.currentPeriodEnd

/-! What the deliveries write, read off their payloads -/

def statusWrite (e : SubscriptionEvent) : Option SubscriptionStatus :=
  match e.notice with
  | .deleted => some .canceled
  | _ => e.change.map fun stripe => toStatus stripe.status

def terms (stripe : StripeSubscription) : Option (Bool × Instant) :=
  (subscriptionPeriod stripe).map fun period => (stripe.cancelAtPeriodEnd.getD false, period.1)

def lastPlan (past : List Delivery) : Option String :=
  past.findSome? fun d => d.event.change.bind (·.planId)

def lastStatus (past : List Delivery) : Option SubscriptionStatus :=
  past.findSome? fun d => statusWrite d.event

def lastTerms (past : List Delivery) : Option (Bool × Instant) :=
  past.findSome? fun d => d.event.change.bind terms

/-- The plan an invoice renews; none before the subscription is known. -/
def currentPlan (past : List Delivery) : Option SubscriptionPlan := (lastPlan past).bind findPlan

/-- The invoices delivered while there was a plan to renew. -/
def renewed : List Delivery → List String
  | [] => []
  | d :: earlier =>
    (if (currentPlan earlier).isSome then d.event.invoiceId.toList else []) ++ renewed earlier

def lineEnd (invoice : StripeInvoice) : Option Instant :=
  match invoice.lines.head? with
  | some (some period) => if period.stop = 0 then none else some (period.stop * 1000)
  | _ => none

/-- An invoice writes its line's end the first time it renews. -/
def endWrite (earlier : List Delivery) (e : SubscriptionEvent) : Option Instant :=
  match e.notice, e.invoiceId with
  | .invoicePaid invoice, some id =>
    if (currentPlan earlier).isSome ∧ id ∉ renewed earlier then lineEnd invoice else none
  | _, _ => e.change.bind fun stripe => (subscriptionPeriod stripe).map (·.2)

def lastEnd : List Delivery → Option Instant
  | [] => none
  | d :: earlier => (endWrite earlier d.event).or (lastEnd earlier)

/-- The last writes are those of the newest state, none that follows a deletion entitles,
and no written period end is older than the one before it. -/
structure InOrder (H : History) (past : List Delivery) : Prop where
  status : lastStatus past = some (toStatus H.newest.stripe.status)
  terms : lastTerms past = terms H.newest.stripe
  stop : lastEnd past = (subscriptionPeriod H.newest.stripe).map (·.2)
  ended : ∀ d earlier, d :: earlier <:+ past → (∃ x ∈ earlier, x.event.notice = .deleted) →
    ∀ stripe ∈ d.event.change, toStatus stripe.status ∉ entitledStatuses
  onward : ∀ d earlier, d :: earlier <:+ past →
    ∀ old ∈ lastEnd earlier, ∀ new ∈ endWrite earlier d.event, old ≤ new

theorem invoicePeriodEnd_eq (invoice : StripeInvoice) (subscription : Subscription) :
    invoicePeriodEnd invoice subscription =
      (lineEnd invoice).getD subscription.currentPeriodEnd := by
  unfold invoicePeriodEnd lineEnd
  cases invoice.lines.head? with
  | none => rfl
  | some line =>
    cases line with
    | none => rfl
    | some period => by_cases zero : period.stop = 0 <;> simp [zero]

/-! One delivery more -/

section
variable {d : Delivery} {earlier : List Delivery}

theorem statusWrite_change {e : SubscriptionEvent} {stripe : StripeSubscription}
    (change : e.change = some stripe) : statusWrite e = some (toStatus stripe.status) := by
  cases notice : e.notice <;> simp_all [statusWrite, SubscriptionEvent.change]

theorem endWrite_change {e : SubscriptionEvent} {stripe : StripeSubscription}
    (change : e.change = some stripe) :
    endWrite earlier e = (subscriptionPeriod stripe).map (·.2) := by
  cases notice : e.notice <;> simp_all [endWrite, SubscriptionEvent.change]

theorem invoiceId_change {e : SubscriptionEvent} {stripe : StripeSubscription}
    (change : e.change = some stripe) : e.invoiceId = none := by
  cases notice : e.notice <;> simp_all [SubscriptionEvent.invoiceId, SubscriptionEvent.change]

theorem change_stripe {e : SubscriptionEvent} {stripe : StripeSubscription}
    (change : e.change = some stripe) : stripe = e.stripe := by
  cases notice : e.notice <;> simp_all [SubscriptionEvent.change]

theorem lastPlan_quiet (quiet : d.event.change = none) :
    lastPlan (d :: earlier) = lastPlan earlier := by
  simp [lastPlan, quiet]

theorem lastTerms_quiet (quiet : d.event.change = none) :
    lastTerms (d :: earlier) = lastTerms earlier := by
  simp [lastTerms, quiet]

theorem lastStatus_quiet (quiet : statusWrite d.event = none) :
    lastStatus (d :: earlier) = lastStatus earlier := by
  simp [lastStatus, quiet]

theorem renewed_quiet (quiet : d.event.invoiceId = none) :
    renewed (d :: earlier) = renewed earlier := by
  simp [renewed, quiet]

theorem quiet_of_unknown {H : History} {past : List Delivery}
    (only : ∀ d ∈ past, d.event ∈ H.events) (unknown : lastPlan past = none) :
    ∀ d ∈ past, d.event.change = none := by
  intro d member
  cases change : d.event.change with
  | none => rfl
  | some stripe =>
    obtain ⟨planId, plan, _⟩ := (H.own d.event (only d member)).plan
    simp only [lastPlan, List.findSome?_eq_none_iff] at unknown
    have missing := unknown d member
    rw [change, change_stripe change] at missing
    cases missing.symm.trans plan

/-- Nothing is written before the subscription is known. -/
theorem lastEnd_quiet {past : List Delivery} (quiet : ∀ d ∈ past, d.event.change = none) :
    lastEnd past = none := by
  induction past with
  | nil => rfl
  | cons d earlier ih =>
    have before : ∀ x ∈ earlier, x.event.change = none := fun x hx =>
      quiet x (List.mem_cons_of_mem d hx)
    have unplanned : currentPlan earlier = none := by
      have unknown : lastPlan earlier = none := by
        simp only [lastPlan, List.findSome?_eq_none_iff]
        intro x hx
        rw [before x hx]
        rfl
      rw [currentPlan, unknown]
      rfl
    have silent : endWrite earlier d.event = none := by
      unfold endWrite
      split
      · rw [unplanned]
        exact if_neg fun h => by cases h.1
      · rw [quiet d List.mem_cons_self]
        rfl
    rw [lastEnd, silent, Option.none_or]
    exact ih before

end

/-! The invariant -/

structure Recorded (H : History) (past : List Delivery) (row : Subscription) : Prop where
  workspace : row.workspaceId = H.workspaceId
  plan : lastPlan past = some row.planId
  status : lastStatus past = some row.status
  terms : lastTerms past = some (row.cancelAtPeriodEnd, row.currentPeriodStart)
  stop : lastEnd past = some row.currentPeriodEnd

/-- The row is there from the first created or updated event on, with what was last written. -/
structure Shows (H : History) (past : List Delivery) (t : Subscriptions) : Prop where
  absent : lastPlan past = none → findByStripeId t H.stripeSubscriptionId = none
  present : lastPlan past ≠ none →
    ∃ row, findByStripeId t H.stripeSubscriptionId = some row ∧ Recorded H past row

structure Mirrors (H : History) (past : List Delivery) (db : Database) : Prop
    extends Shows H past db.subscriptions where
  vacant : lastPlan past = none → findForWorkspace db.subscriptions H.workspaceId = none
  applied : ∀ e ∈ H.events, ∀ id ∈ e.invoiceId, (id ∈ db.ledger.invoiceIds ↔ id ∈ renewed past)

section
variable {H : History} {db : Database} {d : Delivery} {earlier : List Delivery}

/-- A created or updated event goes to `syncFromStripe`. -/
theorem handle_change (db : Database) {stripeSubscriptionId : String} {workspaceId : Uuid}
    (named : stripeSubscriptionId ≠ "") {stripe : StripeSubscription}
    (change : d.event.change = some stripe)
    (about : d.event.About stripeSubscriptionId workspaceId) :
    ∃ planId, stripe.planId = some planId ∧ d.handle db =
      match syncFromStripe db.subscriptions workspaceId planId stripeSubscriptionId stripe with
      | .ok subscriptions => ({ db with subscriptions }, .ok ())
      | .error e => (db, .error e) := by
  obtain ⟨planId, plan, nonempty⟩ := about.plan
  cases change_stripe change
  have changed : d.handle db = onSubscriptionChanged db (some d.event.stripe) := by
    unfold Delivery.handle SubscriptionEvent.payload
    cases notice : d.event.notice <;>
      simp_all [SubscriptionEvent.change, handleWebhook]
  refine ⟨planId, plan, ?_⟩
  rw [changed]
  simp only [onSubscriptionChanged, about.named, about.workspace, plan]
  exact if_neg fun h => h.elim named nonempty

theorem mirrors_change {stripe : StripeSubscription} (change : d.event.change = some stripe)
    (about : d.event.About H.stripeSubscriptionId H.workspaceId) (before : Mirrors H earlier db) :
    Mirrors H (d :: earlier) (d.handle db).1 := by
  obtain ⟨planId, plan, handled⟩ := handle_change db H.named change about
  obtain ⟨period, current⟩ := about.period
  rw [← change_stripe change] at current
  have known : lastPlan (d :: earlier) = some planId := by
    simp [lastPlan, change, plan]
  have columns : ∀ rowId seats, Recorded H (d :: earlier) (createSubscription H.workspaceId planId
      H.stripeSubscriptionId stripe rowId seats period) := by
    intro rowId seats
    constructor
    · rfl
    · exact known
    · simp [lastStatus, statusWrite_change change, createSubscription]
    · simp [lastTerms, change, terms, current, createSubscription]
    · simp [lastEnd, endWrite_change change, current, createSubscription]
  obtain ⟨next, row, synced, found, recorded⟩ : ∃ next row,
      syncFromStripe db.subscriptions H.workspaceId planId H.stripeSubscriptionId stripe =
        .ok next ∧ findByStripeId next H.stripeSubscriptionId = some row ∧
        Recorded H (d :: earlier) row := by
    by_cases first : lastPlan earlier = none
    · obtain ⟨next, rowId, synced, found⟩ :=
        syncFromStripe_insert (before.absent first) (before.vacant first) current
      exact ⟨next, _, synced, found, columns rowId 0⟩
    · obtain ⟨row, found, recorded⟩ := before.present first
      obtain ⟨next, synced, found⟩ := syncFromStripe_overwrite found recorded.workspace current
      exact ⟨next, _, synced, found, columns row.id row.seats⟩
  rw [handled, synced]
  constructor
  · constructor
    · intro unknown
      cases known.symm.trans unknown
    · intro _
      exact ⟨row, found, recorded⟩
  · intro unknown
    cases known.symm.trans unknown
  · rw [renewed_quiet (invoiceId_change change)]
    exact before.applied

/-- An event that writes nothing leaves what the row shows as it was. -/
theorem Recorded.quiet {row : Subscription} (recorded : Recorded H earlier row)
    (plan : d.event.change = none) (status : statusWrite d.event = none)
    (stop : endWrite earlier d.event = none) : Recorded H (d :: earlier) row where
  workspace := recorded.workspace
  plan := (lastPlan_quiet plan).trans recorded.plan
  status := (lastStatus_quiet status).trans recorded.status
  terms := (lastTerms_quiet plan).trans recorded.terms
  stop := by
    rw [lastEnd, stop]
    exact recorded.stop

theorem handle_deleted {stripeSubscriptionId : String} {workspaceId : Uuid}
    (named : stripeSubscriptionId ≠ "") (deleted : d.event.notice = .deleted)
    (about : d.event.About stripeSubscriptionId workspaceId) :
    d.handle db = ({ db with
      subscriptions := markStatus db.subscriptions stripeSubscriptionId .canceled }, .ok ()) := by
  unfold Delivery.handle SubscriptionEvent.payload
  rw [deleted]
  simp only [handleWebhook, onSubscriptionDeleted, Option.bind_some, about.named]
  exact if_neg named

theorem mirrors_deleted (deleted : d.event.notice = .deleted)
    (about : d.event.About H.stripeSubscriptionId H.workspaceId) (before : Mirrors H earlier db) :
    Mirrors H (d :: earlier) (d.handle db).1 := by
  have quiet : d.event.change = none := by
    simp [SubscriptionEvent.change, deleted]
  have unpaid : d.event.invoiceId = none := by
    simp [SubscriptionEvent.invoiceId, deleted]
  have silent : endWrite earlier d.event = none := by
    simp [endWrite, deleted, quiet]
  rw [handle_deleted H.named deleted about]
  constructor
  · constructor
    · rw [lastPlan_quiet quiet]
      exact fun unknown => markStatus_absent .canceled (before.absent unknown)
    · rw [lastPlan_quiet quiet]
      intro known
      obtain ⟨row, found, recorded⟩ := before.present known
      refine ⟨_, markStatus_found .canceled found, recorded.workspace, ?_, ?_, ?_, ?_⟩
      · exact (lastPlan_quiet quiet).trans recorded.plan
      · simp [lastStatus, statusWrite, deleted]
      · exact (lastTerms_quiet quiet).trans recorded.terms
      · rw [lastEnd, silent]
        exact recorded.stop
  · rw [lastPlan_quiet quiet]
    exact fun unknown => (markStatus_vacant_iff .canceled).mpr (before.vacant unknown)
  · rw [renewed_quiet unpaid]
    exact before.applied

/-- A delivery that leaves the database as it was, and writes nothing, keeps the invariant. -/
theorem mirrors_unchanged (before : Mirrors H earlier db) (unchanged : (d.handle db).1 = db)
    (plan : d.event.change = none) (status : statusWrite d.event = none)
    (stop : endWrite earlier d.event = none)
    (applied : ∀ id, id ∈ renewed (d :: earlier) ↔ id ∈ renewed earlier) :
    Mirrors H (d :: earlier) (d.handle db).1 := by
  rw [unchanged]
  constructor
  · constructor
    · rw [lastPlan_quiet plan]
      exact before.absent
    · rw [lastPlan_quiet plan]
      intro known
      obtain ⟨row, found, recorded⟩ := before.present known
      exact ⟨row, found, recorded.quiet plan status stop⟩
  · rw [lastPlan_quiet plan]
    exact before.vacant
  · intro e member id paid
    rw [applied]
    exact before.applied e member id paid

theorem handle_invoice {invoice : StripeInvoice} (paid : d.event.notice = .invoicePaid invoice) :
    d.handle db = onInvoicePaid db d.now d.seats (some invoice) := by
  unfold Delivery.handle SubscriptionEvent.payload
  rw [paid]
  rfl

theorem renewalOf_subscription {invoice : StripeInvoice} {id stripeSubscriptionId : String}
    (renewal : renewalOf invoice = some (id, stripeSubscriptionId)) :
    subscriptionIdFromInvoice invoice = some stripeSubscriptionId := by
  unfold renewalOf at renewal
  split at renewal
  · cases renewal
  · split at renewal
    · cases renewal
    · split at renewal
      · cases renewal
      · obtain ⟨own, found, same⟩ := Option.map_eq_some_iff.mp renewal
        cases same
        exact found

theorem mem_renewed {id other : String} (paid : d.event.invoiceId = some id) :
    other ∈ renewed (d :: earlier) ↔
      (currentPlan earlier).isSome ∧ other = id ∨ other ∈ renewed earlier := by
  simp only [renewed, paid, List.mem_append]
  apply or_congr_left
  split
  · rename_i planned
    simp [planned]
  · rename_i unplanned
    simp [unplanned]

/-- The first renewal of an invoice writes its grants and the period end. -/
theorem mirrors_renewal {invoice : StripeInvoice} {id : String} {row : Subscription}
    {plan : SubscriptionPlan} (paid : d.event.notice = .invoicePaid invoice)
    (invoiceId : d.event.invoiceId = some id) (before : Mirrors H earlier db)
    (renewal : renewalOf invoice = some (id, H.stripeSubscriptionId))
    (found : findByStripeId db.subscriptions H.stripeSubscriptionId = some row)
    (recorded : Recorded H earlier row) (known : findPlan row.planId = some plan)
    (first : alreadyApplied db.ledger id = false) (fresh : id ∉ renewed earlier) :
    Mirrors H (d :: earlier) (d.handle db).1 := by
  have quiet : d.event.change = none := by
    simp [SubscriptionEvent.change, paid]
  have unmarked : statusWrite d.event = none := by
    simp [statusWrite, paid, quiet]
  have planned : (currentPlan earlier).isSome = true := by
    simp [currentPlan, recorded.plan, known]
  obtain ⟨next, done⟩ : ∃ next, applyRenewal db d.now (d.seats row.workspaceId) row id
      (invoicePeriodEnd invoice row) = (next, .ok ⟨plan.monthlyCredits, _, _, true⟩) :=
    applyRenewal_first known first
  obtain ⟨_, _, _, _, saved, mirror⟩ := applyRenewal_applied done rfl
  have outcome : (d.handle db).1 = next := by
    rw [handle_invoice paid]
    simp only [onInvoicePaid, renewal, found, done]
  have exists_row : lastPlan (d :: earlier) ≠ none := by
    rw [lastPlan_quiet quiet, recorded.plan]
    exact Option.some_ne_none _
  rw [outcome]
  constructor
  · constructor
    · exact fun unknown => absurd unknown exists_row
    · intro _
      have shown := updateRenewed_found (d.seats row.workspaceId) (invoicePeriodEnd invoice row) found
      rw [← mirror] at shown
      refine ⟨_, shown, recorded.workspace, ?_, ?_, ?_, ?_⟩
      · exact (lastPlan_quiet quiet).trans recorded.plan
      · exact (lastStatus_quiet unmarked).trans recorded.status
      · exact (lastTerms_quiet quiet).trans recorded.terms
      · have write : endWrite earlier d.event = lineEnd invoice := by
          simp [endWrite, paid, invoiceId, planned, fresh]
        rw [lastEnd, write, invoicePeriodEnd_eq, recorded.stop]
        cases lineEnd invoice <;> rfl
  · exact fun unknown => absurd unknown exists_row
  · intro e member other named
    rw [Ledger.invoiceIds_saved saved, (renewalGrants_keys ..).2, List.mem_append,
      List.mem_singleton, before.applied e member other named, mem_renewed invoiceId]
    simp [planned, or_comm]

theorem mirrors_invoice {invoice : StripeInvoice} (paid : d.event.notice = .invoicePaid invoice)
    (own : d.event ∈ H.events) (about : d.event.About H.stripeSubscriptionId H.workspaceId)
    (before : Mirrors H earlier db) : Mirrors H (d :: earlier) (d.handle db).1 := by
  have quiet : d.event.change = none := by
    simp [SubscriptionEvent.change, paid]
  have unmarked : statusWrite d.event = none := by
    simp [statusWrite, paid, quiet]
  cases renewal : renewalOf invoice with
  | none =>
    have unpaid : d.event.invoiceId = none := by
      simp [SubscriptionEvent.invoiceId, paid, renewal]
    apply mirrors_unchanged before _ quiet unmarked
    · simp [endWrite, unpaid, quiet]
    · intro id
      rw [renewed_quiet unpaid]
    · rw [handle_invoice paid]
      simp only [onInvoicePaid, renewal]
  | some pair =>
    obtain ⟨id, stripeSubscriptionId⟩ := pair
    have named := renewalOf_subscription renewal
    cases (about.invoice invoice paid).symm.trans named
    have invoiceId : d.event.invoiceId = some id := by
      simp [SubscriptionEvent.invoiceId, paid, renewal]
    have applied := before.applied d.event own id invoiceId
    by_cases unknown : lastPlan earlier = none
    · have unplanned : currentPlan earlier = none := by
        rw [currentPlan, unknown]
        rfl
      apply mirrors_unchanged before _ quiet unmarked
      · simp [endWrite, paid, invoiceId, unplanned]
      · intro other
        rw [mem_renewed invoiceId, unplanned]
        simp
      · rw [handle_invoice paid]
        simp only [onInvoicePaid, renewal, before.absent unknown]
    · obtain ⟨row, found, recorded⟩ := before.present unknown
      have current : currentPlan earlier = findPlan row.planId := by
        simp [currentPlan, recorded.plan]
      cases known : findPlan row.planId with
      | none =>
        apply mirrors_unchanged before _ quiet unmarked
        · simp [endWrite, paid, invoiceId, current, known]
        · intro other
          rw [mem_renewed invoiceId, current, known]
          simp
        · rw [handle_invoice paid]
          simp only [onInvoicePaid, renewal, found, applyRenewal, known]
      | some plan =>
        cases first : alreadyApplied db.ledger id with
        | false =>
          have fresh : id ∉ renewed earlier := fun h =>
            alreadyApplied_eq_false_iff.mp first (applied.mpr h)
          exact mirrors_renewal paid invoiceId before renewal found recorded known first fresh
        | true =>
          have repeated : id ∈ renewed earlier := by
            apply applied.mp
            by_contra missing
            cases first.symm.trans (alreadyApplied_eq_false_iff.mpr missing)
          apply mirrors_unchanged before _ quiet unmarked
          · simp [endWrite, paid, invoiceId, repeated]
          · intro other
            rw [mem_renewed invoiceId]
            exact or_iff_right_of_imp fun h => h.2 ▸ repeated
          · rw [handle_invoice paid]
            simp only [onInvoicePaid, renewal, found, applyRenewal, known, first, if_true]

theorem mirrors_step (own : d.event ∈ H.events) (before : Mirrors H earlier db) :
    Mirrors H (d :: earlier) (d.handle db).1 := by
  have about := H.own d.event own
  obtain ⟨stripe, change⟩ | deleted | ⟨invoice, paid⟩ := d.event.event_cases
  · exact mirrors_change change about before
  · exact mirrors_deleted deleted about before
  · exact mirrors_invoice paid own about before

theorem mirrors_run (fresh : Fresh H db)
    (vacant : findForWorkspace db.subscriptions H.workspaceId = none) {past : List Delivery}
    (only : ∀ d ∈ past, d.event ∈ H.events) : Mirrors H past (after db past) := by
  induction past with
  | nil =>
    constructor
    · exact ⟨fun _ => fresh.row, fun known => absurd rfl known⟩
    · exact fun _ => vacant
    · intro e own id paid
      exact iff_of_false (fresh.invoices e own id paid) List.not_mem_nil
  | cons d earlier ih =>
    have before := ih fun x hx => only x (List.mem_cons_of_mem d hx)
    exact mirrors_step (only d List.mem_cons_self) before

/-- On a workspace that has another subscription the row is refused for good. -/
theorem refused_run (fresh : Fresh H db)
    (taken : findForWorkspace db.subscriptions H.workspaceId ≠ none) {past : List Delivery}
    (only : ∀ d ∈ past, d.event ∈ H.events) :
    findByStripeId (after db past).subscriptions H.stripeSubscriptionId = none ∧
      findForWorkspace (after db past).subscriptions H.workspaceId ≠ none := by
  induction past with
  | nil => exact ⟨fresh.row, taken⟩
  | cons d earlier ih =>
    obtain ⟨absent, taken⟩ := ih fun x hx => only x (List.mem_cons_of_mem d hx)
    have about := H.own d.event (only d List.mem_cons_self)
    change findByStripeId (d.handle (after db earlier)).1.subscriptions _ = none ∧
      findForWorkspace (d.handle (after db earlier)).1.subscriptions _ ≠ none
    obtain ⟨stripe, change⟩ | deleted | ⟨invoice, paid⟩ := d.event.event_cases
    · obtain ⟨planId, _, handled⟩ := handle_change (after db earlier) H.named change about
      obtain ⟨e, failed⟩ := syncFromStripe_refused absent taken
      rw [handled, failed]
      exact ⟨absent, taken⟩
    · rw [handle_deleted H.named deleted about]
      exact ⟨markStatus_absent .canceled absent,
        fun vacant => taken ((markStatus_vacant_iff .canceled).mp vacant)⟩
    · have same : (d.handle (after db earlier)).1 = after db earlier := by
        rw [handle_invoice paid]
        simp only [onInvoicePaid]
        split
        · rfl
        · rename_i id stripeSubscriptionId renewal
          cases (about.invoice invoice paid).symm.trans (renewalOf_subscription renewal)
          rw [absent]
      rw [same]
      exact ⟨absent, taken⟩

theorem shows_delivered {past later : List Delivery} (fresh : Fresh H db)
    (delivered : Delivered H db past) (part : later <:+ past) :
    Shows H later (after db later).subscriptions := by
  have only : ∀ d ∈ later, d.event ∈ H.events := fun d hd => delivered.only d (part.subset hd)
  by_cases vacant : findForWorkspace db.subscriptions H.workspaceId = none
  · exact (mirrors_run fresh vacant only).toShows
  · -- No created or updated event has been handled, so there was none to handle.
    have none_changes : ∀ e ∈ H.events, e.change = none := by
      intro e member
      obtain ⟨d, earlier, suffix, rfl, handled⟩ := delivered.all e member
      have past_only : ∀ x ∈ earlier, x.event ∈ H.events := fun x hx =>
        delivered.only x (suffix.subset (List.mem_cons_of_mem d hx))
      obtain ⟨absent, taken⟩ := refused_run fresh vacant past_only
      cases change : d.event.change with
      | none => rfl
      | some stripe =>
        obtain ⟨planId, _, outcome⟩ := handle_change (after db earlier) H.named change (H.own _ member)
        obtain ⟨e, failed⟩ := syncFromStripe_refused absent taken
        rw [outcome, failed] at handled
        cases handled
    have unknown : lastPlan later = none := by
      simp only [lastPlan, List.findSome?_eq_none_iff]
      intro d hd
      rw [none_changes _ (only d hd)]
      rfl
    constructor
    · exact fun _ => (refused_run fresh vacant only).1
    · exact fun known => absurd unknown known

/-- The last writes decide what the row shows. -/
theorem mirrored_iff {past : List Delivery} (only : ∀ d ∈ past, d.event ∈ H.events)
    (shows : Shows H past (after db past).subscriptions) :
    (∃ row, findByStripeId (after db past).subscriptions H.stripeSubscriptionId = some row ∧
      row.status = toStatus H.newest.stripe.status ∧
      row.cancelAtPeriodEnd = H.newest.stripe.cancelAtPeriodEnd.getD false ∧
      subscriptionPeriod H.newest.stripe = some (row.currentPeriodStart, row.currentPeriodEnd)) ↔
    lastStatus past = some (toStatus H.newest.stripe.status) ∧
      lastTerms past = terms H.newest.stripe ∧
      lastEnd past = (subscriptionPeriod H.newest.stripe).map (·.2) := by
  obtain ⟨period, current⟩ := (H.own H.newest (List.mem_append_right _ List.mem_cons_self)).period
  by_cases unknown : lastPlan past = none
  · have missing := shows.absent unknown
    have unwritten := lastEnd_quiet (quiet_of_unknown only unknown)
    constructor
    · rintro ⟨row, found, _⟩
      cases missing.symm.trans found
    · rintro ⟨_, _, written⟩
      rw [unwritten, current] at written
      cases written
  · obtain ⟨row, found, recorded⟩ := shows.present unknown
    constructor
    · rintro ⟨other, same, status, cancel, now⟩
      cases found.symm.trans same
      rw [recorded.status, recorded.terms, recorded.stop, terms, now, status, cancel]
      exact ⟨rfl, rfl, rfl⟩
    · rintro ⟨status, written, stop⟩
      rw [recorded.status] at status
      rw [recorded.terms, terms, current] at written
      rw [recorded.stop, current] at stop
      obtain ⟨cancel, start⟩ := Prod.mk.inj (Option.some.inj written)
      refine ⟨row, found, Option.some.inj status, cancel, ?_⟩
      rw [current, start, Option.some.inj stop]

/-- A deletion leaves a status that a later event alone can turn into an entitled one. -/
theorem lastStatus_ended {past : List Delivery}
    (quiet : ∀ d earlier, d :: earlier <:+ past → (∃ x ∈ earlier, x.event.notice = .deleted) →
      ∀ stripe ∈ d.event.change, toStatus stripe.status ∉ entitledStatuses) :
    (∃ d ∈ past, d.event.notice = .deleted) →
      ∀ status ∈ lastStatus past, status ∉ entitledStatuses := by
  induction past with
  | nil =>
    rintro ⟨d, member, _⟩
    cases member
  | cons d earlier ih =>
    intro ended status last
    have before := ih fun x rest suffix => quiet x rest (suffix.trans (List.suffix_cons d earlier))
    obtain ⟨stripe, change⟩ | deleted | ⟨invoice, paid⟩ := d.event.event_cases
    · have sooner : ∃ x ∈ earlier, x.event.notice = .deleted := by
        obtain ⟨x, member, deleted⟩ := ended
        rcases List.mem_cons.mp member with rfl | member
        · simp [SubscriptionEvent.change, deleted] at change
        · exact ⟨x, member, deleted⟩
      have written : lastStatus (d :: earlier) = some (toStatus stripe.status) := by
        simp [lastStatus, statusWrite_change change]
      cases written.symm.trans last
      exact quiet d earlier (List.suffix_refl _) sooner stripe change
    · have written : lastStatus (d :: earlier) = some .canceled := by
        simp [lastStatus, statusWrite, deleted]
      cases written.symm.trans last
      decide
    · have unmarked : statusWrite d.event = none := by
        simp [statusWrite, SubscriptionEvent.change, paid]
      have sooner : ∃ x ∈ earlier, x.event.notice = .deleted := by
        obtain ⟨x, member, deleted⟩ := ended
        rcases List.mem_cons.mp member with rfl | member
        · cases paid.symm.trans deleted
        · exact ⟨x, member, deleted⟩
      exact before sooner status ((lastStatus_quiet unmarked).symm.trans last)

theorem ended_iff {past : List Delivery} (only : ∀ d ∈ past, d.event ∈ H.events)
    (shows : ∀ later, later <:+ past → Shows H later (after db later).subscriptions) :
    (∀ later, later <:+ past → (∃ d ∈ later, d.event.notice = .deleted) →
      ∀ row ∈ findByStripeId (after db later).subscriptions H.stripeSubscriptionId,
        row.status ∉ entitledStatuses) ↔
    ∀ d earlier, d :: earlier <:+ past → (∃ x ∈ earlier, x.event.notice = .deleted) →
      ∀ stripe ∈ d.event.change, toStatus stripe.status ∉ entitledStatuses := by
  constructor
  · intro ended d earlier suffix deleted stripe change
    have known : lastPlan (d :: earlier) ≠ none := by
      obtain ⟨planId, plan, _⟩ := (H.own _ (only d (suffix.subset List.mem_cons_self))).plan
      cases change_stripe change
      simp [lastPlan, Option.mem_def.mp change, plan]
    obtain ⟨row, found, recorded⟩ := (shows _ suffix).present known
    have written : lastStatus (d :: earlier) = some (toStatus stripe.status) := by
      simp [lastStatus, statusWrite_change change]
    obtain ⟨x, member, removed⟩ := deleted
    have out := ended _ suffix ⟨x, List.mem_cons_of_mem d member, removed⟩ row found
    rw [Option.some.inj (recorded.status.symm.trans written)] at out
    exact out
  · intro quiet later suffix deleted row found
    have last := lastStatus_ended (fun d earlier part => quiet d earlier (part.trans suffix)) deleted
    by_cases unknown : lastPlan later = none
    · cases ((shows later suffix).absent unknown).symm.trans found
    · obtain ⟨other, same, recorded⟩ := (shows later suffix).present unknown
      cases same.symm.trans found
      exact last row.status recorded.status

theorem onward_iff {past : List Delivery} (only : ∀ d ∈ past, d.event ∈ H.events)
    (shows : ∀ later, later <:+ past → Shows H later (after db later).subscriptions) :
    (∀ d earlier, d :: earlier <:+ past →
      ∀ old ∈ findByStripeId (after db earlier).subscriptions H.stripeSubscriptionId,
      ∀ new ∈ findByStripeId (after db (d :: earlier)).subscriptions H.stripeSubscriptionId,
        old.currentPeriodEnd ≤ new.currentPeriodEnd) ↔
    ∀ d earlier, d :: earlier <:+ past →
      ∀ old ∈ lastEnd earlier, ∀ new ∈ endWrite earlier d.event, old ≤ new := by
  have ends : ∀ later, later <:+ past →
      ∀ row ∈ findByStripeId (after db later).subscriptions H.stripeSubscriptionId,
        lastEnd later = some row.currentPeriodEnd := by
    intro later suffix row found
    by_cases unknown : lastPlan later = none
    · cases ((shows later suffix).absent unknown).symm.trans found
    · obtain ⟨other, same, recorded⟩ := (shows later suffix).present unknown
      cases same.symm.trans found
      exact recorded.stop
  have row_of_end : ∀ later, later <:+ past → ∀ stop ∈ lastEnd later,
      ∃ row, findByStripeId (after db later).subscriptions H.stripeSubscriptionId = some row ∧
        row.currentPeriodEnd = stop := by
    intro later suffix stop written
    have part : ∀ d ∈ later, d.event ∈ H.events := fun d hd => only d (suffix.subset hd)
    by_cases unknown : lastPlan later = none
    · cases (lastEnd_quiet (quiet_of_unknown part unknown)).symm.trans written
    · obtain ⟨row, found, recorded⟩ := (shows later suffix).present unknown
      exact ⟨row, found, Option.some.inj (recorded.stop.symm.trans written)⟩
  constructor
  · intro onward d earlier suffix old last new write
    have shorter := (List.suffix_cons d earlier).trans suffix
    have written : lastEnd (d :: earlier) = some new := by
      rw [lastEnd, Option.mem_def.mp write]
      rfl
    obtain ⟨row, found, rfl⟩ := row_of_end earlier shorter old last
    obtain ⟨next, shown, rfl⟩ := row_of_end _ suffix new written
    exact onward d earlier suffix row found next shown
  · intro onward d earlier suffix old found new shown
    have shorter := (List.suffix_cons d earlier).trans suffix
    have last := ends earlier shorter old found
    have next := ends _ suffix new shown
    rw [lastEnd] at next
    cases write : endWrite earlier d.event with
    | none =>
      rw [write, Option.none_or, last] at next
      exact le_of_eq (Option.some.inj next)
    | some stop =>
      rw [write] at next
      cases next
      exact onward d earlier suffix _ last _ write

/-- The mirror converges exactly when the deliveries happen to write in Stripe's order. -/
theorem converges_iff {past : List Delivery} (fresh : Fresh H db)
    (delivered : Delivered H db past) : Converges H db past ↔ InOrder H past := by
  have shows : ∀ later, later <:+ past → Shows H later (after db later).subscriptions :=
    fun later suffix => shows_delivered fresh delivered suffix
  have mirrored := mirrored_iff delivered.only (shows past (List.suffix_refl _))
  have ended := ended_iff delivered.only shows
  have onward := onward_iff delivered.only shows
  constructor
  · intro converges
    obtain ⟨status, terms, stop⟩ := mirrored.mp converges.mirrored
    exact ⟨status, terms, stop, ended.mp converges.ended, onward.mp converges.onward⟩
  · intro inOrder
    constructor
    · exact mirrored.mpr ⟨inOrder.status, inOrder.terms, inOrder.stop⟩
    · exact ended.mpr inOrder.ended
    · exact onward.mpr inOrder.onward

/-- Once a deleted subscription's mirror has converged, it entitles no one. -/
theorem deleted_not_entitled {past : List Delivery} (converges : Converges H db past)
    (deleted : ∃ e ∈ H.events, e.notice = .deleted) :
    ∃ row ∈ (after db past).subscriptions.rows,
      row.stripeSubscriptionId = H.stripeSubscriptionId ∧
        isEntitled (after db past).subscriptions row.workspaceId = false := by
  obtain ⟨e, member, removed⟩ := deleted
  obtain ⟨row, found, status, _⟩ := converges.mirrored
  obtain ⟨present, named⟩ := findByStripeId_iff.mp found
  refine ⟨row, present, named, ?_⟩
  rw [isEntitled_eq present, status, H.terminal e member removed]
  decide

end

/-- The subscription in Stripe, active and later canceled. -/
def starterStripe (status : String) : StripeSubscription where
  id := some "sub_1"
  customer := "cus_1"
  status
  currentPeriodStart := some 0
  currentPeriodEnd := some 100
  workspaceId := some 1
  planId := some "starter"

def createdEvent : SubscriptionEvent := ⟨.created, starterStripe "active"⟩
def deletedEvent : SubscriptionEvent := ⟨.deleted, starterStripe "canceled"⟩

def canceledHistory : History where
  stripeSubscriptionId := "sub_1"
  workspaceId := 1
  earlier := [createdEvent]
  newest := deletedEvent
  named := by decide
  own := by
    intro e member
    have either : e = createdEvent ∨ e = deletedEvent := by simpa using member
    rcases either with rfl | rfl <;>
      exact ⟨rfl, rfl, ⟨"starter", rfl, by decide⟩, ⟨(0, 100000), rfl⟩, fun _ h => by cases h⟩
  terminal := fun _ _ _ => rfl

def deliver (e : SubscriptionEvent) : Delivery := ⟨e, 0, fun _ => 1⟩

theorem canceled_fresh : Fresh canceledHistory Database.empty :=
  ⟨rfl, fun _ _ _ _ taken => by cases taken⟩

theorem canceled_delivered {past : List Delivery}
    (only : ∀ d ∈ past, d.event = createdEvent ∨ d.event = deletedEvent)
    (rest : [deliver deletedEvent, deliver createdEvent] <:+ past) :
    Delivered canceledHistory Database.empty past := by
  constructor
  · intro d member
    rcases only d member with same | same
    · rw [same]
      exact List.mem_cons_self
    · rw [same]
      exact List.mem_cons_of_mem _ List.mem_cons_self
  · intro e member
    change e ∈ [createdEvent, deletedEvent] at member
    have either : e = createdEvent ∨ e = deletedEvent := by simpa using member
    rcases either with rfl | rfl
    · refine ⟨deliver createdEvent, [], (List.suffix_cons _ _).trans rest, rfl, ?_⟩
      rfl
    · refine ⟨deliver deletedEvent, [deliver createdEvent], rest, rfl, ?_⟩
      rfl

/-- A repeated delivery of the first event, after the deletion, brings the plan back. -/
theorem stale_event_entitles_again :
    Fresh canceledHistory Database.empty ∧
      Delivered canceledHistory Database.empty
        [deliver createdEvent, deliver deletedEvent, deliver createdEvent] ∧
      isEntitled (after Database.empty
        [deliver createdEvent, deliver deletedEvent, deliver createdEvent]).subscriptions 1 = true ∧
      ¬ Converges canceledHistory Database.empty
        [deliver createdEvent, deliver deletedEvent, deliver createdEvent] := by
  refine ⟨canceled_fresh, ?_, ?_, ?_⟩
  · apply canceled_delivered
    · simp [deliver]
    · exact List.suffix_cons _ _
  · decide +kernel
  · intro converges
    obtain ⟨row, found, status, _⟩ := converges.mirrored
    have shown : (findByStripeId (after Database.empty
        [deliver createdEvent, deliver deletedEvent, deliver createdEvent]).subscriptions "sub_1").map
          (·.status) = some .active := by decide +kernel
    have expected : toStatus canceledHistory.newest.stripe.status = .canceled := by decide
    rw [expected] at status
    change findByStripeId _ "sub_1" = some row at found
    rw [found, Option.map_some, status] at shown
    cases shown

theorem delivered_in_order_converges :
    Converges canceledHistory Database.empty [deliver deletedEvent, deliver createdEvent] := by
  have delivered : Delivered canceledHistory Database.empty
      [deliver deletedEvent, deliver createdEvent] := by
    apply canceled_delivered
    · simp [deliver]
    · exact List.suffix_refl _
  apply (converges_iff canceled_fresh delivered).mpr
  have parts : ∀ d earlier, d :: earlier <:+ [deliver deletedEvent, deliver createdEvent] →
      d = deliver deletedEvent ∨ earlier = [] := by
    intro d earlier suffix
    rcases List.suffix_cons_iff.mp suffix with whole | part
    · cases whole
      exact .inl rfl
    · rcases List.suffix_cons_iff.mp part with last | empty
      · cases last
        exact .inr rfl
      · cases List.suffix_nil.mp empty
  constructor
  · decide
  · decide
  · decide
  · intro d earlier suffix ended stripe change
    rcases parts d earlier suffix with rfl | rfl
    · cases change
    · obtain ⟨x, member, _⟩ := ended
      cases member
  · intro d earlier suffix old last new write
    rcases parts d earlier suffix with rfl | rfl
    · cases write
    · cases last

end Gomer.Mirror
