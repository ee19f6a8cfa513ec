import Gomer.Billing.Sync

/-! Which period a paid invoice stamps on what it grants. The handler reads it off the first line,
wherever Stripe has put the line of the subscription. -/
namespace Gomer

open Relational

/-- A first delivery of a renewal invoice for a mirrored subscription with a known plan. -/
structure Renews (db : Database) (invoice : StripeInvoice) (stripeSubscriptionId : String)
    (subscription : Subscription) : Prop where
  reason : ∃ reason ∈ renewalReasons, invoice.billingReason = some reason
  belongs : subscriptionIdFromInvoice invoice = some stripeSubscriptionId
  found : findByStripeId db.subscriptions stripeSubscriptionId = some subscription
  known : (findPlan subscription.planId).isSome
  first : ∃ id, invoice.id = some id ∧ id ≠ "" ∧ alreadyApplied db.ledger id = false

/-- The allowance and what it carries forward end when the mirrored period does. -/
structure EndsWith (db next : Database) (stripeSubscriptionId : String) (periodEnd : Instant) :
    Prop where
  grants : ∃ added, next.ledger.grants = db.ledger.grants ++ added ∧
    (∃ g ∈ added, g.bucket = .plan) ∧
      ∀ g ∈ added, g.bucket = .plan ∨ g.bucket = .rollover → g.expiresAt = some periodEnd
  mirror : ∃ row, findByStripeId next.subscriptions stripeSubscriptionId = some row ∧
    row.currentPeriodEnd = periodEnd

/-- The lines ahead of the paid period leave its end to be found: there is none and the end is not
zero, the first of them ends with it, or that has no end and the mirror has it already. -/
def EndReadable (ahead : List (Option StripePeriod)) (period : StripePeriod)
    (subscription : Subscription) : Prop :=
  match ahead.head? with
  | none => period.stop ≠ 0 ∨ subscription.currentPeriodEnd = 0
  | some none => subscription.currentPeriodEnd = period.stop * 1000
  | some (some other) => if other.stop = 0 then subscription.currentPeriodEnd = period.stop * 1000
      else other.stop = period.stop

theorem invoicePeriodEnd_iff {invoice : StripeInvoice} {ahead behind : List (Option StripePeriod)}
    {period : StripePeriod} (lines : invoice.lines = ahead ++ some period :: behind)
    (subscription : Subscription) :
    invoicePeriodEnd invoice subscription = period.stop * 1000 ↔
      EndReadable ahead period subscription := by
  rw [invoicePeriodEnd, lines]
  rcases ahead with - | ⟨- | other, ahead⟩
  · simp only [List.nil_append, List.head?_cons, EndReadable, List.head?_nil]
    by_cases zero : period.stop = 0
    · simp [zero]
    · simp [zero]
  · rfl
  · simp only [List.cons_append, List.head?_cons, EndReadable]
    split
    · rfl
    · exact Int.mul_eq_mul_right_iff (by decide)

/-- The renewal's rows that end with the period. -/
theorem renewalGrants_expiry (subscription : Subscription) (plan : SubscriptionPlan)
    (stripeInvoiceId : String) (periodEnd : Instant) (rolledOver seatBonus : Int) {row : NewGrant}
    (listed : row ∈ renewalGrants subscription plan stripeInvoiceId periodEnd rolledOver seatBonus)
    (bucket : row.bucket = .plan ∨ row.bucket = .rollover) : row.expiresAt = some periodEnd := by
  simp only [renewalGrants, List.mem_append, List.mem_singleton] at listed
  obtain (rolled | rfl) | bonus := listed
  · split at rolled
    · rw [List.mem_singleton.mp rolled]
      rfl
    · cases rolled
  · rfl
  · split at bonus
    · rw [List.mem_singleton.mp bonus] at bucket
      rcases bucket with bucket | bucket <;> cases bucket
    · cases bonus

theorem renewalOf_renews {db : Database} {invoice : StripeInvoice} {stripeSubscriptionId : String}
    {subscription : Subscription} (renews : Renews db invoice stripeSubscriptionId subscription) :
    ∃ id, renewalOf invoice = some (id, stripeSubscriptionId) ∧
      alreadyApplied db.ledger id = false := by
  obtain ⟨id, named, nonempty, fresh⟩ := renews.first
  obtain ⟨reason, listed, given⟩ := renews.reason
  have accepted : ¬ (truthy invoice.billingReason ∧
      invoice.billingReason.getD "" ∉ renewalReasons) := by
    rw [given]
    exact fun refused => refused.2 listed
  refine ⟨id, ?_, fresh⟩
  simp only [renewalOf, named, if_neg nonempty, if_neg accepted, renews.belongs, Option.map_some]

/-- What the delivery adds and mirrors ends at the instant it reads off the invoice. -/
theorem onInvoicePaid_ends {db : Database} {invoice : StripeInvoice} {stripeSubscriptionId : String}
    {subscription : Subscription} (renews : Renews db invoice stripeSubscriptionId subscription)
    (now : Instant) (seats : Uuid → Int) (stop : Instant) :
    EndsWith db (onInvoicePaid db now seats (some invoice)).1 stripeSubscriptionId stop ↔
      invoicePeriodEnd invoice subscription = stop := by
  obtain ⟨id, renewal, fresh⟩ := renewalOf_renews renews
  obtain ⟨plan, known⟩ := Option.isSome_iff_exists.mp renews.known
  obtain ⟨next, done⟩ := @applyRenewal_first db now (seats subscription.workspaceId) subscription id
    (invoicePeriodEnd invoice subscription) plan known fresh
  obtain ⟨plan', known', _, _, saved, mirrored⟩ := applyRenewal_applied done rfl
  cases known.symm.trans known'
  obtain ⟨added, grants, columns, _⟩ := Ledger.saveGrants_ok saved
  have handled : (onInvoicePaid db now seats (some invoice)).1 = next := by
    simp only [onInvoicePaid, renewal, renews.found, done]
  have row := updateRenewed_found (seats subscription.workspaceId)
    (invoicePeriodEnd invoice subscription) renews.found
  rw [handled]
  constructor
  · rintro ⟨_, row', found, ends⟩
    rw [mirrored, row] at found
    cases found
    exact ends
  · rintro rfl
    refine ⟨⟨added, grants, ?_, fun g hg bucket => ?_⟩, _, (congrArg (findByStripeId · _)
      mirrored).trans row, rfl⟩
    · have allowance : planGrant subscription plan id (invoicePeriodEnd invoice subscription) ∈
          added.map (·.toNewGrant) := by
        rw [columns]
        exact List.mem_append_left _ (List.mem_append_right _ List.mem_cons_self)
      obtain ⟨g, hg, column⟩ := List.mem_map.mp allowance
      exact ⟨g, hg, congrArg NewGrant.bucket column⟩
    · have listed := List.mem_map_of_mem (f := (·.toNewGrant)) hg
      rw [columns] at listed
      exact renewalGrants_expiry _ _ _ _ _ _ listed bucket

/-- A renewal stamps the end of the paid period on all it creates exactly when the lines ahead of
the subscription's line leave that end to be found. -/
theorem renewal_ends_iff {db : Database} {invoice : StripeInvoice} {stripeSubscriptionId : String}
    {subscription : Subscription} (renews : Renews db invoice stripeSubscriptionId subscription)
    (now : Instant) (seats : Uuid → Int) {ahead behind : List (Option StripePeriod)}
    {period : StripePeriod} (lines : invoice.lines = ahead ++ some period :: behind) :
    EndsWith db (onInvoicePaid db now seats (some invoice)).1 stripeSubscriptionId
        (period.stop * 1000) ↔ EndReadable ahead period subscription :=
  (onInvoicePaid_ends renews now seats _).trans (invoicePeriodEnd_iff lines subscription)

def starterMirror : Subscription := { starterSubscription with currentPeriodEnd := 100000 }

/-- The mirror has the starter subscription, paid until 100000. -/
def mirroredStarter : Database where
  ledger := Ledger.empty
  subscriptions := ⟨[starterMirror], by decide, by decide, by decide⟩

def renewalInvoice (lines : List (Option StripePeriod)) : StripeInvoice where
  id := some "in_2"
  subscription := .text "sub_1"
  billingReason := some "subscription_cycle"
  lines := lines

theorem renewalInvoice_renews (lines : List (Option StripePeriod)) :
    Renews mirroredStarter (renewalInvoice lines) "sub_1" starterMirror where
  reason := ⟨"subscription_cycle", by decide, rfl⟩
  belongs := rfl
  found := by decide
  known := by decide
  first := ⟨"in_2", rfl, by decide, rfl⟩

/-- A change of plan at 60 is billed with the period from 100 to 200, and its line comes first: the
new allowance ends with the old period, at the instant the invoice is paid. -/
theorem proration_ends_allowance :
    Renews mirroredStarter (renewalInvoice [some ⟨60, 100⟩, some ⟨100, 200⟩]) "sub_1"
        starterMirror ∧
      ¬ EndsWith mirroredStarter (onInvoicePaid mirroredStarter 100000 (fun _ => 1)
        (some (renewalInvoice [some ⟨60, 100⟩, some ⟨100, 200⟩]))).1 "sub_1" 200000 ∧
      (onInvoicePaid mirroredStarter 100000 (fun _ => 1)
        (some (renewalInvoice [some ⟨60, 100⟩, some ⟨100, 200⟩]))).1.ledger.grants.map
          (·.expiresAt) = [some 100000] := by
  have renews := renewalInvoice_renews [some ⟨60, 100⟩, some ⟨100, 200⟩]
  refine ⟨renews, fun ends => ?_, by decide +kernel⟩
  have read := (onInvoicePaid_ends renews 100000 _ _).mp ends
  exact absurd read (by decide)

theorem proration_behind : EndsWith mirroredStarter (onInvoicePaid mirroredStarter 100000
    (fun _ => 1) (some (renewalInvoice [some ⟨100, 200⟩, some ⟨60, 100⟩]))).1 "sub_1" 200000 :=
  (renewal_ends_iff (renewalInvoice_renews _) 100000 _ (List.nil_append _).symm).mpr
    (.inl (by decide))

end Gomer
