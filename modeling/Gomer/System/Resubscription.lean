import Gomer.Lib.Trace
import Gomer.System.Mirror

/-! The subscriptions a workspace takes out one after another. Stripe delivers their events
in order and attempts a refused one again, as often as it likes. -/
namespace Gomer.Resubscription

open Mirror Trace

/-- One subscription, from its created event on. -/
structure Life where
  stripeSubscriptionId : String
  created : StripeSubscription
  later : List SubscriptionEvent

def Life.events (life : Life) : List SubscriptionEvent := ⟨.created, life.created⟩ :: life.later

/-- What checkout writes into the metadata: the workspace, and a plan of the catalogue. -/
structure Sold (workspaceId : Uuid) (life : Life) : Prop where
  named : life.stripeSubscriptionId ≠ ""
  own : ∀ e ∈ life.events, e.About life.stripeSubscriptionId workspaceId
  plan : ∀ e ∈ life.events, ∀ planId ∈ e.stripe.planId, findPlan planId ≠ none

structure History where
  workspaceId : Uuid
  earlier : List Life
  latest : Life
  invoiceId : String
  sold : ∀ life ∈ earlier ++ [latest], Sold workspaceId life
  distinct : ((earlier ++ [latest]).map (·.stripeSubscriptionId)).Nodup
  paid : ∃ e ∈ latest.events, e.invoiceId = some invoiceId

def History.lives (H : History) : List Life := H.earlier ++ [H.latest]

def History.events (H : History) : List SubscriptionEvent := H.lives.flatMap Life.events

/-- The database, and what Stripe has still to deliver. -/
structure Feed where
  db : Database
  upcoming : List SubscriptionEvent
  failed : List SubscriptionEvent

/-- The next event in order, or another attempt at a refused one. -/
inductive Turn where
  | next
  | retry (position : Nat)
  deriving DecidableEq

structure Attempt where
  turn : Turn
  now : Instant
  seats : Uuid → Int

def attempt (s : Feed) (a : Attempt) : Option Feed :=
  match a.turn with
  | .next =>
    match s.upcoming with
    | [] => none
    | e :: rest =>
      match (⟨e, a.now, a.seats⟩ : Delivery).handle s.db with
      | (db, .ok _) => some ⟨db, rest, s.failed⟩
      | (db, .error _) => some ⟨db, rest, s.failed ++ [e]⟩
  | .retry position =>
    match s.failed[position]? with
    | none => none
    | some e =>
      match (⟨e, a.now, a.seats⟩ : Delivery).handle s.db with
      | (db, .ok _) => some ⟨db, s.upcoming, s.failed.eraseIdx position⟩
      | (db, .error _) => some ⟨db, s.upcoming, s.failed⟩

abbrev Step (s : Feed) (a : Attempt) (t : Feed) : Prop := attempt s a = some t

def History.start (H : History) (db : Database) : Feed := ⟨db, H.events, []⟩

/-- Stripe's ids are new to the database. -/
structure Fresh (H : History) (db : Database) : Prop where
  rows : ∀ life ∈ H.lives, findByStripeId db.subscriptions life.stripeSubscriptionId = none
  invoices : ∀ e ∈ H.latest.events, ∀ id ∈ e.invoiceId, id ∉ db.ledger.invoiceIds

def Granted (db : Database) (workspaceId : Uuid) (stripeInvoiceId : String) : Prop :=
  ∃ g ∈ db.ledger.grants, g.stripeInvoiceId = some stripeInvoiceId ∧
    g.workspaceId = workspaceId ∧ g.bucket = .plan

/-- The latest subscription is mirrored, and its period's allowance is there. -/
structure Allowance (H : History) (db : Database) : Prop where
  mirrored : ∃ row, findByStripeId db.subscriptions H.latest.stripeSubscriptionId = some row ∧
    row.workspaceId = H.workspaceId
  granted : Granted db H.workspaceId H.invoiceId

/-- The queues after an event was handled: it is taken from one of them, and is among the
refused ones again unless it succeeded. -/
def Handled (s : Feed) (d : Delivery) (t : Feed) : Prop :=
  (∃ rest, s.upcoming = d.event :: rest ∧ t.upcoming = rest ∧
      ((d.handle s.db).2 = .ok () → t.failed = s.failed) ∧
      ∀ e ∈ t.failed, e ∈ s.failed ∨ e = d.event) ∨
    (d.event ∈ s.failed ∧ t.upcoming = s.upcoming ∧ ∀ e ∈ t.failed, e ∈ s.failed)

theorem attempt_effect {s t : Feed} {a : Attempt} (taken : attempt s a = some t) :
    ∃ d : Delivery, t.db = (d.handle s.db).1 ∧ Handled s d t := by
  unfold attempt at taken
  split at taken
  · split at taken
    · cases taken
    · rename_i e rest upcoming
      refine ⟨⟨e, a.now, a.seats⟩, ?_⟩
      split at taken <;> rename_i db _ handled <;> cases taken <;> rw [handled]
      · exact ⟨rfl, .inl ⟨rest, upcoming, rfl, fun _ => rfl, fun _ h => .inl h⟩⟩
      · refine ⟨rfl, .inl ⟨rest, upcoming, rfl, fun done => ?_, fun e h => ?_⟩⟩
        · rw [handled] at done
          cases done
        · simpa using h
  · rename_i position _
    split at taken
    · cases taken
    · rename_i e refused
      have member := List.mem_of_getElem? refused
      refine ⟨⟨e, a.now, a.seats⟩, ?_⟩
      split at taken <;> rename_i db _ handled <;> cases taken <;> rw [handled]
      · exact ⟨rfl, .inr ⟨member, rfl, fun _ h => List.mem_of_mem_eraseIdx h⟩⟩
      · exact ⟨rfl, .inr ⟨member, rfl, fun _ h => h⟩⟩

/-- Both queues hold events of the history. -/
structure Feed.Lists (s : Feed) (events : List SubscriptionEvent) : Prop where
  upcoming : ∀ e ∈ s.upcoming, e ∈ events
  failed : ∀ e ∈ s.failed, e ∈ events

theorem Feed.Lists.handled {s t : Feed} {d : Delivery} {events : List SubscriptionEvent}
    (listed : s.Lists events) (turn : Handled s d t) : d.event ∈ events ∧ t.Lists events := by
  rcases turn with ⟨rest, first, upcoming, _, failed⟩ | ⟨refused, upcoming, failed⟩
  · have ahead : ∀ e ∈ d.event :: rest, e ∈ events := first ▸ listed.upcoming
    have own := ahead d.event List.mem_cons_self
    refine ⟨own, fun e h => ahead e (List.mem_cons_of_mem _ (upcoming ▸ h)), ?_⟩
    intro e h
    rcases failed e h with old | rfl
    · exact listed.failed e old
    · exact own
  · exact ⟨listed.failed _ refused, fun e h => listed.upcoming e (upcoming ▸ h),
      fun e h => listed.failed e (failed e h)⟩

/-! A workspace whose row belongs to another subscription -/

/-- The unique index on the workspace leaves no room for the subscription `id`. -/
structure Blocked (t : Subscriptions) (workspaceId : Uuid) (id : String) : Prop where
  absent : findByStripeId t id = none
  taken : findForWorkspace t workspaceId ≠ none

section
variable {db : Database} {d : Delivery} {workspaceId : Uuid} {id stripeSubscriptionId : String}

/-- Blocked is a matter of the two unique columns. -/
theorem Blocked.of_columns {t next : Subscriptions} (blocked : Blocked t workspaceId id)
    (stripes : next.rows.map (·.stripeSubscriptionId) = t.rows.map (·.stripeSubscriptionId))
    (workspaces : next.rows.map (·.workspaceId) = t.rows.map (·.workspaceId)) :
    Blocked next workspaceId id := by
  constructor
  · rw [findByStripeId_none_iff, stripes]
    exact findByStripeId_none_iff.mp blocked.absent
  · rw [Ne, findForWorkspace_none_iff, workspaces, ← findForWorkspace_none_iff]
    exact blocked.taken

theorem Blocked.of_update {t : Subscriptions} (blocked : Blocked t workspaceId id)
    {f : Subscription → Subscription} (fixed : ∀ row, (f row).id = row.id ∧
      (f row).workspaceId = row.workspaceId ∧
      (f row).stripeSubscriptionId = row.stripeSubscriptionId) :
    Blocked (t.update f fixed) workspaceId id := by
  apply blocked.of_columns
  · exact Relational.map_fixed _ _ (fun row => (fixed row).2.2) t.rows
  · exact Relational.map_fixed _ _ (fun row => (fixed row).2.1) t.rows

theorem absent_of_sync {t next : Subscriptions} {planId : String} {stripe : StripeSubscription}
    (absent : findByStripeId t id = none) (other : stripeSubscriptionId ≠ id)
    (synced : syncFromStripe t workspaceId planId stripeSubscriptionId stripe = .ok next) :
    findByStripeId next id = none := by
  cases found : findByStripeId next id with
  | none => rfl
  | some row =>
    obtain ⟨member, named⟩ := findByStripeId_iff.mp found
    rcases (syncFromStripe_rows synced).1 row member with old | ⟨own, _⟩
    · cases absent.symm.trans (findByStripeId_iff.mpr ⟨old, named⟩)
    · exact absurd (own.symm.trans named) other

theorem Blocked.of_sync {t next : Subscriptions} {planId : String} {stripe : StripeSubscription}
    (blocked : Blocked t workspaceId id) (other : stripeSubscriptionId ≠ id)
    (synced : syncFromStripe t workspaceId planId stripeSubscriptionId stripe = .ok next) :
    Blocked next workspaceId id := by
  constructor
  · exact absent_of_sync blocked.absent other synced
  · obtain ⟨row, found⟩ := Option.ne_none_iff_exists'.mp blocked.taken
    obtain ⟨member, here⟩ := findForWorkspace_iff.mp found
    obtain ⟨new, present, same⟩ := (syncFromStripe_rows synced).2 row member
    have own : new.workspaceId = workspaceId := by
      rcases same with rfl | ⟨_, own⟩
      · exact here
      · exact own
    rw [findForWorkspace_iff.mpr ⟨present, own⟩]
    exact Option.some_ne_none _

theorem applyRenewal_blocked {now : Instant} {seats : Int} {subscription : Subscription}
    {stripeInvoiceId : String} {periodEnd : Instant} (blocked : Blocked db.subscriptions workspaceId id) :
    Blocked (applyRenewal db now seats subscription stripeInvoiceId periodEnd).1.subscriptions
      workspaceId id := by
  obtain ⟨next, result⟩ : ∃ next, applyRenewal db now seats subscription stripeInvoiceId periodEnd =
      (next, (applyRenewal db now seats subscription stripeInvoiceId periodEnd).2) := ⟨_, rfl⟩
  by_cases applied : ∃ r, (applyRenewal db now seats subscription stripeInvoiceId periodEnd).2 =
      .ok r ∧ r.applied = true
  · obtain ⟨r, outcome, renewed⟩ := applied
    obtain ⟨_, _, _, _, _, mirror⟩ := applyRenewal_applied (result.trans (by rw [outcome])) renewed
    rw [result, mirror]
    exact blocked.of_update _
  · have same := applyRenewal_unapplied result fun r outcome => by
      cases kept : r.applied with
      | false => rfl
      | true => exact absurd ⟨r, outcome, kept⟩ applied
    rw [result, same]
    exact blocked

/-- No event of any subscription of the workspace, the blocked one included, changes that. -/
theorem handle_blocked (named : stripeSubscriptionId ≠ "")
    (about : d.event.About stripeSubscriptionId workspaceId)
    (blocked : Blocked db.subscriptions workspaceId id) :
    Blocked (d.handle db).1.subscriptions workspaceId id := by
  obtain ⟨stripe, change⟩ | deleted | ⟨invoice, paid⟩ := d.event.event_cases
  · obtain ⟨planId, _, handled⟩ := handle_change db named change about
    rw [handled]
    split
    · rename_i next synced
      by_cases own : stripeSubscriptionId = id
      · obtain ⟨e, failed⟩ := syncFromStripe_refused (own ▸ blocked.absent) blocked.taken
        cases synced.symm.trans failed
      · exact blocked.of_sync own synced
    · exact blocked
  · rw [handle_deleted named deleted about]
    exact ⟨markStatus_absent .canceled blocked.absent,
      fun vacant => blocked.taken ((markStatus_vacant_iff .canceled).mp vacant)⟩
  · rw [handle_invoice paid]
    simp only [onInvoicePaid]
    split
    · exact blocked
    · split
      · exact blocked
      · split <;> rename_i ran <;> rw [← congrArg Prod.fst ran] <;>
          exact applyRenewal_blocked blocked

end

/-! A workspace whose row is that of its latest subscription -/

/-- The row of the latest subscription can be renewed, and its invoices stand for allowances
that were granted. -/
structure Mirrored (H : History) (db : Database) : Prop where
  row : ∃ row, findByStripeId db.subscriptions H.latest.stripeSubscriptionId = some row ∧
    row.workspaceId = H.workspaceId ∧ findPlan row.planId ≠ none
  granted : ∀ e ∈ H.latest.events, ∀ id ∈ e.invoiceId, id ∈ db.ledger.invoiceIds →
    Granted db H.workspaceId id

theorem Granted.listed {db : Database} {workspaceId : Uuid} {id : String}
    (granted : Granted db workspaceId id) : id ∈ db.ledger.invoiceIds := by
  obtain ⟨g, member, named, _⟩ := granted
  exact List.mem_filterMap.mpr ⟨g, member, named⟩

theorem renewed_granted {db next : Database} {now : Instant} {seats : Int}
    {subscription : Subscription} {id : String} {periodEnd : Instant} {result : RenewalResult}
    (done : applyRenewal db now seats subscription id periodEnd = (next, .ok result))
    (applied : result.applied = true) :
    Granted next subscription.workspaceId id ∧
      (∀ workspaceId other, Granted db workspaceId other → Granted next workspaceId other) ∧
      ∀ other ∈ next.ledger.invoiceIds, other ∈ db.ledger.invoiceIds ∨ other = id := by
  obtain ⟨plan, _, _, _, saved, _⟩ := applyRenewal_applied done applied
  obtain ⟨added, grants, columns, _⟩ := Ledger.saveGrants_ok saved
  have listed : planGrant subscription plan id periodEnd ∈ added.map (·.toNewGrant) := by
    rw [columns]
    exact List.mem_append_left _ (List.mem_append_right _ List.mem_cons_self)
  obtain ⟨g, member, row⟩ := List.mem_map.mp listed
  refine ⟨⟨g, ?_, ?_, ?_, ?_⟩, ?_, ?_⟩
  · rw [grants]
    exact List.mem_append_right _ member
  · rw [row]
    rfl
  · rw [row]
    rfl
  · rw [row]
    rfl
  · rintro workspaceId other ⟨old, present, facts⟩
    refine ⟨old, ?_, facts⟩
    rw [grants]
    exact List.mem_append_left _ present
  · intro other member
    rw [Ledger.invoiceIds_saved saved, (renewalGrants_keys ..).2] at member
    simpa using member

section
variable {H : History} {db : Database} {d : Delivery}

theorem History.latest_sold (H : History) : Sold H.workspaceId H.latest :=
  H.sold H.latest (List.mem_append_right _ List.mem_cons_self)

/-- A created or updated event that `syncFromStripe` accepts leaves a row that can be renewed. -/
theorem handle_synced (db : Database) {workspaceId : Uuid} {life : Life}
    (sold : Sold workspaceId life) {stripe : StripeSubscription} (own : d.event ∈ life.events)
    (change : d.event.change = some stripe)
    (room : ∀ planId period, subscriptionPeriod stripe = some period → ∃ next rowId seats,
      syncFromStripe db.subscriptions workspaceId planId life.stripeSubscriptionId stripe =
        .ok next ∧ findByStripeId next life.stripeSubscriptionId = some
          (createSubscription workspaceId planId life.stripeSubscriptionId stripe rowId seats
            period)) :
    ∃ next row planId,
      syncFromStripe db.subscriptions workspaceId planId life.stripeSubscriptionId stripe =
        .ok next ∧ d.handle db = (⟨db.ledger, next⟩, .ok ()) ∧
      findByStripeId next life.stripeSubscriptionId = some row ∧
      row.workspaceId = workspaceId ∧ findPlan row.planId ≠ none := by
  have about := sold.own _ own
  obtain ⟨planId, plan, handled⟩ := handle_change db sold.named change about
  obtain ⟨period, current⟩ := about.period
  rw [← change_stripe change] at current
  obtain ⟨next, rowId, seats, synced, found⟩ := room planId period current
  rw [synced] at handled
  rw [change_stripe change] at plan
  exact ⟨next, _, planId, synced, handled, found, rfl, sold.plan _ own planId plan⟩

/-- In a mirrored workspace nothing is refused, and a paid invoice is granted. -/
theorem handle_mirrored (own : d.event ∈ H.latest.events) (mirrored : Mirrored H db) :
    (d.handle db).2 = .ok () ∧ Mirrored H (d.handle db).1 ∧
      (∀ id, Granted db H.workspaceId id → Granted (d.handle db).1 H.workspaceId id) ∧
      ∀ id ∈ d.event.invoiceId, Granted (d.handle db).1 H.workspaceId id := by
  have about := H.latest_sold.own _ own
  obtain ⟨row, found, here, known⟩ := mirrored.row
  obtain ⟨stripe, change⟩ | deleted | ⟨invoice, paid⟩ := d.event.event_cases
  · obtain ⟨next, new, _, _, handled, shown, same, planned⟩ := handle_synced db H.latest_sold own change
      fun planId period current => by
        obtain ⟨next, synced, shown⟩ := syncFromStripe_overwrite found here current
        exact ⟨next, row.id, row.seats, synced, shown⟩
    rw [handled]
    refine ⟨rfl, ⟨⟨new, shown, same, planned⟩, mirrored.granted⟩, fun _ h => h, ?_⟩
    rw [invoiceId_change change]
    intro id none
    cases none
  · rw [handle_deleted H.latest_sold.named deleted about]
    refine ⟨rfl, ⟨⟨_, markStatus_found .canceled found, here, known⟩, mirrored.granted⟩,
      fun _ h => h, ?_⟩
    simp [SubscriptionEvent.invoiceId, deleted]
  · rw [handle_invoice paid]
    cases renewal : renewalOf invoice with
    | none =>
      have same : onInvoicePaid db d.now d.seats (some invoice) = (db, .ok ()) := by
        simp only [onInvoicePaid, renewal]
      rw [same]
      refine ⟨rfl, mirrored, fun _ h => h, ?_⟩
      simp [SubscriptionEvent.invoiceId, paid, renewal]
    | some pair =>
      obtain ⟨id, stripeSubscriptionId⟩ := pair
      cases (about.invoice invoice paid).symm.trans (renewalOf_subscription renewal)
      have invoiceId : d.event.invoiceId = some id := by
        simp [SubscriptionEvent.invoiceId, paid, renewal]
      obtain ⟨plan, planned⟩ := Option.ne_none_iff_exists'.mp known
      simp only [onInvoicePaid, renewal, found]
      cases first : alreadyApplied db.ledger id with
      | true =>
        have listed : id ∈ db.ledger.invoiceIds := by
          by_contra absent
          cases first.symm.trans (alreadyApplied_eq_false_iff.mpr absent)
        have same : applyRenewal db d.now (d.seats row.workspaceId) row id
            (invoicePeriodEnd invoice row) = (db, .ok notApplied) := by
          simp only [applyRenewal, planned, first, if_true]
        rw [same]
        refine ⟨rfl, mirrored, fun _ h => h, ?_⟩
        intro other paid
        cases invoiceId.symm.trans paid
        exact mirrored.granted _ own _ invoiceId listed
      | false =>
        obtain ⟨next, done⟩ : ∃ next, applyRenewal db d.now (d.seats row.workspaceId) row id
            (invoicePeriodEnd invoice row) = (next, .ok ⟨plan.monthlyCredits, _, _, true⟩) :=
          applyRenewal_first planned first
        obtain ⟨_, _, _, _, _, mirror⟩ := applyRenewal_applied done rfl
        have shown := updateRenewed_found (d.seats row.workspaceId) (invoicePeriodEnd invoice row) found
        rw [← mirror] at shown
        obtain ⟨granted, kept, listed⟩ := renewed_granted done rfl
        rw [here] at granted
        rw [done]
        refine ⟨rfl, ⟨⟨_, shown, here, known⟩, ?_⟩, fun other h => kept _ other h, ?_⟩
        · intro e member other paid present
          rcases listed other present with old | rfl
          · exact kept _ other (mirrored.granted e member other paid old)
          · exact granted
        · intro other paid
          cases invoiceId.symm.trans paid
          exact granted

end

/-! Whole runs -/

section
variable {H : History} {db : Database}

/-- Where another subscription holds the workspace's row, it does so after every attempt. -/
theorem attempt_blocked {id : String} {s t : Feed} {a : Attempt} (listed : s.Lists H.events)
    (blocked : Blocked s.db.subscriptions H.workspaceId id) (taken : attempt s a = some t) :
    t.Lists H.events ∧ Blocked t.db.subscriptions H.workspaceId id := by
  obtain ⟨d, handled, turn⟩ := attempt_effect taken
  obtain ⟨own, still⟩ := listed.handled turn
  obtain ⟨life, member, inside⟩ := List.mem_flatMap.mp own
  have sold := H.sold life member
  refine ⟨still, ?_⟩
  rw [handled]
  exact handle_blocked sold.named (sold.own _ inside) blocked

/-- Nothing handled yet, or the workspace's row is that of another subscription. -/
def Refused (H : History) (db : Database) (s : Feed) : Prop :=
  s = H.start db ∨ s.Lists H.events ∧
    Blocked s.db.subscriptions H.workspaceId H.latest.stripeSubscriptionId

theorem refused_step (fresh : Fresh H db)
    (second : ¬ (H.earlier = [] ∧ findForWorkspace db.subscriptions H.workspaceId = none))
    {s t : Feed} {a : Attempt} (before : Refused H db s) (taken : attempt s a = some t) :
    Refused H db t := by
  have latest : H.latest ∈ H.lives := List.mem_append_right _ List.mem_cons_self
  rcases before with rfl | ⟨listed, blocked⟩
  · have listed : (H.start db).Lists H.events := ⟨fun _ h => h, fun _ h => by cases h⟩
    by_cases vacant : findForWorkspace db.subscriptions H.workspaceId = none
    · -- The first of the earlier subscriptions takes the row.
      cases earlier : H.earlier with
      | nil => exact absurd ⟨earlier, vacant⟩ second
      | cons first rest =>
        have here : first ∈ H.lives := by simp [History.lives, earlier]
        have sold := H.sold first here
        have other : first.stripeSubscriptionId ≠ H.latest.stripeSubscriptionId := by
          have distinct := H.distinct
          rw [earlier] at distinct
          simp only [List.cons_append, List.map_cons, List.nodup_cons, List.map_append] at distinct
          exact fun same => distinct.1 (by simp [same])
        obtain ⟨d, handled, turn⟩ := attempt_effect taken
        refine .inr ⟨(listed.handled turn).2, ?_⟩
        rcases turn with ⟨rest', order, _⟩ | ⟨none, _⟩
        · have created : d.event = ⟨.created, first.created⟩ := by
            simp only [History.start, History.events, History.lives, earlier, List.cons_append,
              List.flatMap_cons, Life.events] at order
            exact (List.cons.inj order).1.symm
          have change : d.event.change = some first.created := by
            rw [created]
            rfl
          have inside : d.event ∈ first.events := by
            rw [created]
            exact List.mem_cons_self
          obtain ⟨next, row, _, synced, outcome, found, own, _⟩ := handle_synced db sold inside change
            fun planId period current => by
              obtain ⟨next, rowId, synced, found⟩ :=
                syncFromStripe_insert (fresh.rows first here) vacant current
              exact ⟨next, rowId, 0, synced, found⟩
          rw [handled]
          change Blocked (d.handle db).1.subscriptions _ _
          rw [outcome]
          constructor
          · exact absent_of_sync (fresh.rows _ latest) other synced
          · rw [findForWorkspace_iff.mpr ⟨(findByStripeId_iff.mp found).1, own⟩]
            exact Option.some_ne_none _
        · cases none
    · have blocked : Blocked db.subscriptions H.workspaceId H.latest.stripeSubscriptionId :=
        ⟨fresh.rows _ latest, vacant⟩
      exact .inr (attempt_blocked listed blocked taken)
  · exact .inr (attempt_blocked listed blocked taken)

/-- Of the first subscription ever, either nothing is handled yet or the row is there, every
event so far was accepted, and no invoice is left that is neither ahead nor granted. -/
def Kept (H : History) (db : Database) (s : Feed) : Prop :=
  s.Lists H.latest.events ∧ (s = H.start db ∨ s.failed = [] ∧ Mirrored H s.db ∧
    ∀ e ∈ H.latest.events, ∀ id ∈ e.invoiceId, e ∈ s.upcoming ∨ Granted s.db H.workspaceId id)

/-- One accepted event of the only subscription. -/
theorem kept_of_handled {s t : Feed} {d : Delivery} (listed : t.Lists H.latest.events)
    (turn : Handled s d t) (calm : s.failed = []) (done : (d.handle s.db).2 = .ok ())
    (mirrored : Mirrored H t.db)
    (paid : ∀ id ∈ d.event.invoiceId, Granted t.db H.workspaceId id)
    (ahead : ∀ e ∈ H.latest.events, ∀ id ∈ e.invoiceId,
      e ∈ s.upcoming ∨ Granted t.db H.workspaceId id) : Kept H db t := by
  rcases turn with ⟨rest, first, upcoming, kept, _⟩ | ⟨refused, _⟩
  · refine ⟨listed, .inr ⟨(kept done).trans calm, mirrored, ?_⟩⟩
    intro e member id named
    rcases ahead e member id named with waiting | granted
    · rw [first] at waiting
      rcases List.mem_cons.mp waiting with rfl | waiting
      · exact .inr (paid id named)
      · rw [upcoming]
        exact .inl waiting
    · exact .inr granted
  · rw [calm] at refused
    cases refused

theorem kept_step (fresh : Fresh H db) (only : H.earlier = [])
    (vacant : findForWorkspace db.subscriptions H.workspaceId = none) {s t : Feed} {a : Attempt}
    (before : Kept H db s) (taken : attempt s a = some t) : Kept H db t := by
  obtain ⟨listed, phase⟩ := before
  obtain ⟨d, outcome, turn⟩ := attempt_effect taken
  obtain ⟨own, still⟩ := listed.handled turn
  rcases phase with rfl | ⟨calm, mirrored, ahead⟩
  · have events : H.events = H.latest.events := by simp [History.events, History.lives, only]
    have latest : H.latest ∈ H.lives := List.mem_append_right _ List.mem_cons_self
    have change : d.event.change = some H.latest.created := by
      rcases turn with ⟨rest, order, _⟩ | ⟨none, _⟩
      · change H.events = _ at order
        rw [events] at order
        rw [← (List.cons.inj order).1]
        rfl
      · cases none
    obtain ⟨next, row, _, _, handled, found, here, planned⟩ :=
      handle_synced db H.latest_sold own change fun planId period current => by
        obtain ⟨next, rowId, synced, found⟩ :=
          syncFromStripe_insert (fresh.rows _ latest) vacant current
        exact ⟨next, rowId, 0, synced, found⟩
    have after : t.db = ⟨db.ledger, next⟩ := outcome.trans (congrArg Prod.fst handled)
    apply kept_of_handled still turn rfl (congrArg Prod.snd handled)
    · rw [after]
      refine ⟨⟨row, found, here, planned⟩, ?_⟩
      intro e member id named present
      exact absurd present (fresh.invoices e member id named)
    · rw [invoiceId_change change]
      intro id none
      cases none
    · intro e member _ _
      rw [← events] at member
      exact .inl member
  · obtain ⟨done, kept, grows, paid⟩ := handle_mirrored own mirrored
    rw [← outcome] at kept grows paid
    apply kept_of_handled still turn calm done kept paid
    intro e member id named
    exact (ahead e member id named).imp_right (grows id)

/-- However often Stripe tries, the latest subscription gets its allowance only where it is
the first the workspace ever had. -/
theorem allowance_iff (fresh : Fresh H db) {steps : List (Transition Feed Attempt)} {s : Feed}
    (run : Run Step (H.start db) steps s) (delivered : s.upcoming = []) :
    Allowance H s.db ↔
      H.earlier = [] ∧ findForWorkspace db.subscriptions H.workspaceId = none := by
  have begun : s ≠ H.start db := by
    rintro rfl
    simp [History.start, History.events, History.lives, Life.events] at delivered
  constructor
  · intro allowance
    by_contra second
    have refused : Refused H db s :=
      run.invariant (.inl rfl) fun s a t before taken => refused_step fresh second before taken
    rcases refused with start | ⟨_, blocked⟩
    · exact begun start
    · obtain ⟨row, found, _⟩ := allowance.mirrored
      cases blocked.absent.symm.trans found
  · rintro ⟨only, vacant⟩
    have initial : Kept H db (H.start db) := by
      refine ⟨⟨fun e h => ?_, fun _ h => by cases h⟩, .inl rfl⟩
      simpa [History.start, History.events, History.lives, only] using h
    have kept : Kept H db s :=
      run.invariant initial fun s a t before taken => kept_step fresh only vacant before taken
    rcases kept.2 with start | ⟨_, mirrored, ahead⟩
    · exact absurd start begun
    · obtain ⟨row, found, here, _⟩ := mirrored.row
      refine ⟨⟨row, found, here⟩, ?_⟩
      obtain ⟨e, member, named⟩ := H.paid
      rcases ahead e member _ named with waiting | granted
      · rw [delivered] at waiting
        cases waiting
      · exact granted

end

/-- A subscription to the starter plan that was paid once and ended. -/
def starterLife (id invoiceId status : String) : Life :=
  let stripe := { Mirror.starterStripe status with id := some id }
  let invoice : StripeInvoice :=
    { id := some invoiceId, subscription := .text id, billingReason := some "subscription_create" }
  ⟨id, stripe, [⟨.invoicePaid invoice, stripe⟩, ⟨.deleted, stripe⟩]⟩

theorem starterLife_sold {id invoiceId status : String} (named : id ≠ "") :
    Sold 1 (starterLife id invoiceId status) := by
  have same : ∀ e ∈ (starterLife id invoiceId status).events,
      e.stripe = { Mirror.starterStripe status with id := some id } := by
    simp [Life.events, starterLife]
  refine ⟨named, ?_, ?_⟩
  · intro e member
    constructor
    · rw [same e member]
      rfl
    · rw [same e member]
      rfl
    · rw [same e member]
      exact ⟨"starter", rfl, by decide⟩
    · rw [same e member]
      exact ⟨(0, 100000), rfl⟩
    · intro invoice paid
      simp only [Life.events, starterLife, List.mem_cons, List.not_mem_nil, or_false] at member
      rcases member with rfl | rfl | rfl
      · cases paid
      · cases paid
        simp [subscriptionIdFromInvoice, refId, named, starterLife]
      · cases paid
  · intro e member planId plan
    rw [same e member] at plan
    cases plan
    decide

def firstLife : Life := starterLife "sub_1" "in_1" "active"
def secondLife : Life := starterLife "sub_2" "in_2" "active"

theorem starterLife_paid {id invoiceId status : String} (named : id ≠ "") (number : invoiceId ≠ "") :
    ∃ e ∈ (starterLife id invoiceId status).events, e.invoiceId = some invoiceId := by
  refine ⟨_, List.mem_cons_of_mem _ List.mem_cons_self, ?_⟩
  simp [SubscriptionEvent.invoiceId, renewalOf, subscriptionIdFromInvoice, refId, truthy,
    renewalReasons, named, number]

def onceSubscribed : History where
  workspaceId := 1
  earlier := []
  latest := firstLife
  invoiceId := "in_1"
  sold := by
    intro life member
    rw [List.mem_singleton.mp member]
    exact starterLife_sold (by decide)
  distinct := List.nodup_singleton _
  paid := starterLife_paid (by decide) (by decide)

/-- The workspace ends its subscription and takes out another one. -/
def resubscribed : History where
  workspaceId := 1
  earlier := [firstLife]
  latest := secondLife
  invoiceId := "in_2"
  sold := by
    intro life member
    have either : life = firstLife ∨ life = secondLife := by simpa using member
    rcases either with rfl | rfl <;> exact starterLife_sold (by decide)
  distinct := by decide
  paid := starterLife_paid (by decide) (by decide)

theorem fresh_empty (H : History) : Fresh H Database.empty :=
  ⟨fun _ _ => rfl, fun _ _ _ _ taken => by cases taken⟩

def turn (turn : Turn) : Attempt := ⟨turn, 0, fun _ => 1⟩

/-- The second subscription's events are refused, at first and again. -/
theorem second_subscription_refused : Fresh resubscribed Database.empty ∧
    ∃ steps s, Run Step (resubscribed.start Database.empty) steps s ∧ s.upcoming = [] ∧
      ¬ Allowance resubscribed s.db := by
  have outcome : ((follow attempt (resubscribed.start Database.empty)
      ((List.replicate 6 (turn .next)) ++ [turn (.retry 0), turn (.retry 1)])).map fun r =>
        (r.2.upcoming, (findByStripeId r.2.db.subscriptions "sub_2").isSome, r.2.failed.length)) =
      some ([], false, 2) := by decide +kernel
  obtain ⟨⟨steps, s⟩, done, facts⟩ := Option.map_eq_some_iff.mp outcome
  simp only [Prod.mk.injEq] at facts
  refine ⟨fresh_empty _, steps, s, follow_run done, facts.1, ?_⟩
  intro allowance
  obtain ⟨row, found, _⟩ := allowance.mirrored
  change findByStripeId s.db.subscriptions "sub_2" = some row at found
  rw [found] at facts
  cases facts.2.1

theorem first_subscription_gets_allowance :
    ∃ steps s, Run Step (onceSubscribed.start Database.empty) steps s ∧
      Allowance onceSubscribed s.db := by
  have outcome : ((follow attempt (onceSubscribed.start Database.empty)
      (List.replicate 3 (turn .next))).map fun r => r.2.upcoming) = some [] := by decide +kernel
  obtain ⟨⟨steps, s⟩, done, delivered⟩ := Option.map_eq_some_iff.mp outcome
  refine ⟨steps, s, follow_run done, ?_⟩
  exact (allowance_iff (fresh_empty _) (follow_run done) delivered).mpr ⟨rfl, rfl⟩

end Gomer.Resubscription
