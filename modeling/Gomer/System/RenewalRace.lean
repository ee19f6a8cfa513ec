import Mathlib.Logic.Function.Basic
import Gomer.Lib.Trace
import Gomer.Usage.Atomicity
import Gomer.Billing.Webhook

/-! Deliveries of `invoice.paid` with their steps interleaved. An insert under a committed
key fails at once; one under the key of an open transaction waits for it to end. -/
namespace Gomer.RenewalRace

open Relational Trace

/-- What one delivery calls `applyRenewal` with. -/
structure Renewal where
  subscription : Subscription
  stripeInvoiceId : String
  periodEnd : Instant

/-- An open transaction, with the rows it has inserted and those still to come. -/
structure Transaction where
  renewal : Renewal
  plan : SubscriptionPlan
  seats : Int
  startedAt : Instant
  rolledOver : Int
  written : List NewGrant
  pending : List NewGrant

def Transaction.rows (tx : Transaction) : List NewGrant :=
  renewalGrants tx.renewal.subscription tx.plan tx.renewal.stripeInvoiceId tx.renewal.periodEnd
    tx.rolledOver (seatBonusFor tx.seats)

def Transaction.result (tx : Transaction) : RenewalResult :=
  ⟨tx.plan.monthlyCredits, tx.rolledOver, seatBonusFor tx.seats, true⟩

inductive Phase where
  | idle
  | acknowledged
  | refused
  | found (renewal : Renewal)
  | checked (renewal : Renewal) (plan : SubscriptionPlan)
  | writing (tx : Transaction)
  | returned (renewal : Renewal) (result : RenewalResult)
  | failed (renewal : Renewal)

/-- Returned with a renewal that was applied. -/
def Phase.applied : Phase → Bool
  | .returned _ result => result.applied
  | _ => false

def Phase.inTransaction : Phase → Bool
  | .writing _ => true
  | _ => false

/-- `locks` are the index entries of uncommitted rows, each with the delivery that wrote it. -/
structure State where
  db : Database
  now : Instant
  locks : List (String × Nat)
  deliveries : Nat → Phase

inductive Action where
  | receive (d : Nat) (invoice : StripeInvoice)
  | check (d : Nat)
  | beginTransaction (d : Nat) (seats : Int)
  | insert (d : Nat)
  | commit (d : Nat)
  | fail (d : Nat)
  | others (rows : List NewGrant)
  | charge (p : Pricing) (scan : Scan) (input : RecordUsageInput)
  | sync (subscriptions : Subscriptions)
  | tick (later : Instant)

namespace State

def enter (s : State) (d : Nat) (phase : Phase) : State :=
  { s with deliveries := Function.update s.deliveries d phase }

def release (s : State) (d : Nat) : State :=
  { s with locks := s.locks.filter fun l => l.2 != d }

end State

def start (db : Database) (now : Instant) : State := ⟨db, now, [], fun _ => .idle⟩

/-- The update of the subscription row takes effect with the commit, as its row lock lasts
until then. Other writers insert no invoice ids. -/
def step (s : State) : Action → Option State
  | .receive d invoice =>
    match s.deliveries d with
    | .idle =>
      match renewalOf invoice with
      | none => some (s.enter d .acknowledged)
      | some (id, stripeSubscriptionId) =>
        match findByStripeId s.db.subscriptions stripeSubscriptionId with
        | none => some (s.enter d .refused)
        | some subscription =>
          some (s.enter d (.found ⟨subscription, id, invoicePeriodEnd invoice subscription⟩))
    | _ => none
  | .check d =>
    match s.deliveries d with
    | .found renewal =>
      match findPlan renewal.subscription.planId with
      | none => some (s.enter d (.returned renewal notApplied))
      | some plan =>
        if alreadyApplied s.db.ledger renewal.stripeInvoiceId then
          some (s.enter d (.returned renewal notApplied))
        else some (s.enter d (.checked renewal plan))
    | _ => none
  | .beginTransaction d seats =>
    match s.deliveries d with
    | .checked renewal plan =>
      let rolledOver := unspentPlanCredits s.db.ledger.grants s.db.ledger.allocations
        renewal.subscription.workspaceId s.now
      some (s.enter d (.writing ⟨renewal, plan, seats, s.now, rolledOver, [],
        renewalGrants renewal.subscription plan renewal.stripeInvoiceId renewal.periodEnd rolledOver
          (seatBonusFor seats)⟩))
    | _ => none
  | .insert d =>
    match s.deliveries d with
    | .writing tx =>
      match tx.pending with
      | [] => none
      | row :: rest =>
        if ¬ s.db.ledger.Insertable row then
          some ((s.release d).enter d (.returned tx.renewal notApplied))
        else if ∃ l ∈ s.locks, some l.1 = row.stripeInvoiceId ∧ l.2 ≠ d then none
        else some ({ s with locks := s.locks ++ row.stripeInvoiceId.toList.map (·, d) }.enter d
          (.writing { tx with written := tx.written ++ [row], pending := rest }))
    | _ => none
  | .commit d =>
    match s.deliveries d with
    | .writing tx =>
      match tx.pending, s.db.ledger.saveGrants tx.startedAt tx.written with
      | [], .ok ledger =>
        let subscriptions := updateRenewed s.db.subscriptions tx.renewal.subscription.id tx.seats
          tx.renewal.periodEnd
        some (({ s with db := ⟨ledger, subscriptions⟩ }.release d).enter d
          (.returned tx.renewal tx.result))
      | _, _ => none
    | _ => none
  | .fail d =>
    match s.deliveries d with
    | .found renewal => some ((s.release d).enter d (.failed renewal))
    | .checked renewal _ => some ((s.release d).enter d (.failed renewal))
    | .writing tx => some ((s.release d).enter d (.failed tx.renewal))
    | _ => none
  | .others rows =>
    if ∀ row ∈ rows, row.stripeInvoiceId = none then
      match s.db.ledger.saveGrants s.now rows with
      | .ok ledger => some { s with db := { s.db with ledger } }
      | .error _ => none
    else none
  | .charge p scan input =>
    some { s with
      db := { s.db with ledger := (recordEvent p (fun _ => none) scan s.db.ledger s.now input).1 } }
  | .sync subscriptions => some { s with db := { s.db with subscriptions } }
  | .tick later => if s.now ≤ later then some { s with now := later } else none

abbrev Step (s : State) (a : Action) (t : State) : Prop := step s a = some t

/-- The transaction a step commits. -/
def committed (x : Transition State Action) : Option Transaction :=
  match x.label with
  | .commit d =>
    match x.pre.deliveries d with
    | .writing tx => some tx
    | _ => none
  | _ => none

/-- The rows a step adds to the grants for good. -/
def inserted (x : Transition State Action) : List NewGrant :=
  match x.label with
  | .others rows => rows
  | _ => ((committed x).map (·.rows)).getD []

/-- What a step does to the subscriptions. -/
def mirrored (t : Subscriptions) (x : Transition State Action) : Subscriptions :=
  match x.label with
  | .sync subscriptions => subscriptions
  | _ =>
    match committed x with
    | some tx => updateRenewed t tx.renewal.subscription.id tx.seats tx.renewal.periodEnd
    | none => t

/-! What a step can do -/

/-- The steps of a delivery before its commit. -/
def Action.early : Action → Bool
  | .receive _ _ | .check _ | .beginTransaction _ _ | .insert _ | .fail _ => true
  | _ => false

theorem early_writes {s t : State} {a : Action} (early : a.early = true) :
    inserted ⟨s, a, t⟩ = [] ∧ (∀ u, mirrored u ⟨s, a, t⟩ = u) ∧ ∀ d, a ≠ .commit d := by
  cases a <;> cases early <;> exact ⟨rfl, fun _ => rfl, fun _ h => by cases h⟩

inductive Effect (s : State) (a : Action) (t : State) : Prop where
  | left (d : Nat) (phase : Phase) (early : a.early = true)
      (before : (s.deliveries d).applied = false) (outside : phase.inTransaction = false)
      (unapplied : phase.applied = false) (failure : ∀ renewal, phase = .failed renewal → a = .fail d)
      (deliveries : t.deliveries = Function.update s.deliveries d phase)
      (fewer : ∀ l ∈ t.locks, l ∈ s.locks) (kept : ∀ l ∈ s.locks, l.2 ≠ d → l ∈ t.locks)
      (db : t.db = s.db)
  | began (d : Nat) (tx : Transaction) (early : a.early = true)
      (before : (s.deliveries d).applied = false) (fresh : tx.written = [])
      (whole : tx.pending = tx.rows)
      (deliveries : t.deliveries = Function.update s.deliveries d (.writing tx))
      (locks : t.locks = s.locks) (db : t.db = s.db)
  | inserted (d : Nat) (tx : Transaction) (row : NewGrant) (rest : List NewGrant)
      (early : a.early = true) (before : s.deliveries d = .writing tx)
      (next : tx.pending = row :: rest) (free : s.db.ledger.Insertable row)
      (unlocked : ¬ ∃ l ∈ s.locks, some l.1 = row.stripeInvoiceId ∧ l.2 ≠ d)
      (deliveries : t.deliveries = Function.update s.deliveries d
        (.writing { tx with written := tx.written ++ [row], pending := rest }))
      (locks : t.locks = s.locks ++ row.stripeInvoiceId.toList.map (·, d)) (db : t.db = s.db)
  | committed (d : Nat) (tx : Transaction) (label : a = .commit d)
      (before : s.deliveries d = .writing tx) (done : tx.pending = [])
      (saved : s.db.ledger.saveGrants tx.startedAt tx.written = .ok t.db.ledger)
      (mirror : t.db.subscriptions = updateRenewed s.db.subscriptions tx.renewal.subscription.id
        tx.seats tx.renewal.periodEnd)
      (deliveries : t.deliveries =
        Function.update s.deliveries d (.returned tx.renewal tx.result))
      (locks : t.locks = s.locks.filter fun l => l.2 != d)
  | others (other : ∀ d, a ≠ .commit d)
      (unkeyed : ∀ row ∈ RenewalRace.inserted ⟨s, a, t⟩, row.stripeInvoiceId = none)
      (rows : t.db.ledger.grants.map (·.toNewGrant) =
        s.db.ledger.grants.map (·.toNewGrant) ++ RenewalRace.inserted ⟨s, a, t⟩)
      (mirror : t.db.subscriptions = mirrored s.db.subscriptions ⟨s, a, t⟩)
      (deliveries : t.deliveries = s.deliveries) (locks : t.locks = s.locks)

theorem charge_grants (p : Pricing) (scan : Scan) (L : Ledger) (now : Instant)
    (input : RecordUsageInput) :
    (recordEvent p (fun _ => none) scan L now input).1.grants = L.grants := by
  obtain ⟨next, done, _, grants, _⟩ :=
    @recordEvent_ok p scan L now input (fun _ => none) rfl rfl rfl
  rw [done]
  exact grants

theorem release_fewer (s : State) (d : Nat) : ∀ l ∈ (s.release d).locks, l ∈ s.locks :=
  fun _ lock => (List.mem_filter.mp lock).1

theorem release_others (s : State) (d : Nat) :
    ∀ l ∈ s.locks, l.2 ≠ d → l ∈ (s.release d).locks :=
  fun _ lock other => List.mem_filter.mpr ⟨lock, bne_iff_ne.mpr other⟩

theorem step_effect {s t : State} {a : Action} (taken : Step s a t) : Effect s a t := by
  have unapplied : ∀ {d : Nat} {phase : Phase}, s.deliveries d = phase → phase.applied = false →
      (s.deliveries d).applied = false := by
    rintro d phase rfl h
    exact h
  have waits : ∀ {d : Nat} {phase : Phase}, (s.deliveries d).applied = false → a.early = true →
      phase.inTransaction = false → phase.applied = false → (∀ renewal, phase ≠ .failed renewal) →
      Effect s a (s.enter d phase) := by
    intro d phase before early outside ends sound
    exact .left d phase early before outside ends (fun renewal h => absurd h (sound renewal)) rfl
      (fun _ lock => lock) (fun _ lock _ => lock) rfl
  have rollsBack : ∀ {d : Nat} {phase : Phase}, (s.deliveries d).applied = false →
      a.early = true → phase.inTransaction = false → phase.applied = false →
      (∀ renewal, phase = .failed renewal → a = .fail d) →
      Effect s a ((s.release d).enter d phase) := by
    intro d phase before early outside ends failure
    exact .left d phase early before outside ends failure rfl (release_fewer s d)
      (release_others s d) rfl
  cases a with
  | receive d invoice =>
    simp only [Step, step] at taken
    split at taken
    · rename_i before
      have idle := unapplied before rfl
      split at taken
      · cases taken
        exact waits idle rfl rfl rfl fun _ h => by cases h
      · split at taken <;> cases taken <;> exact waits idle rfl rfl rfl fun _ h => by cases h
    · cases taken
  | check d =>
    simp only [Step, step] at taken
    split at taken
    · rename_i before
      have found := unapplied before rfl
      split at taken
      · cases taken
        exact waits found rfl rfl rfl fun _ h => by cases h
      · split at taken <;> cases taken <;> exact waits found rfl rfl rfl fun _ h => by cases h
    · cases taken
  | beginTransaction d seats =>
    simp only [Step, step] at taken
    split at taken
    · rename_i before
      cases taken
      exact .began d _ rfl (unapplied before rfl) rfl rfl rfl rfl rfl
    · cases taken
  | insert d =>
    simp only [Step, step] at taken
    split at taken
    · rename_i tx before
      split at taken
      · cases taken
      · rename_i row rest next
        split at taken
        · cases taken
          exact rollsBack (unapplied before rfl) rfl rfl rfl fun _ h => by cases h
        · rename_i free
          split at taken
          · cases taken
          · rename_i unlocked
            cases taken
            exact .inserted d tx row rest rfl before next (Classical.not_not.mp free) unlocked rfl
              rfl rfl
    · cases taken
  | commit d =>
    simp only [Step, step] at taken
    split at taken
    · rename_i tx before
      split at taken
      · rename_i ledger done saved
        cases taken
        exact .committed d tx rfl before done saved rfl rfl rfl
      · cases taken
    · cases taken
  | fail d =>
    simp only [Step, step] at taken
    split at taken
    · rename_i before
      cases taken
      exact rollsBack (unapplied before rfl) rfl rfl rfl fun _ _ => rfl
    · rename_i before
      cases taken
      exact rollsBack (unapplied before rfl) rfl rfl rfl fun _ _ => rfl
    · rename_i before
      cases taken
      exact rollsBack (unapplied before rfl) rfl rfl rfl fun _ _ => rfl
    · cases taken
  | others rows =>
    simp only [Step, step] at taken
    split at taken
    · rename_i unkeyed
      split at taken
      · rename_i ledger saved
        cases taken
        obtain ⟨added, grants, columns, _⟩ := Ledger.saveGrants_ok saved
        refine .others (fun _ h => by cases h) unkeyed ?_ rfl rfl rfl
        change ledger.grants.map (·.toNewGrant) = _
        rw [grants, List.map_append, columns]
        rfl
      · cases taken
    · cases taken
  | charge p scan input =>
    simp only [Step, step, Option.some.injEq] at taken
    subst taken
    refine .others (fun _ h => by cases h) (fun _ h => by cases h) ?_ rfl rfl rfl
    dsimp only
    rw [charge_grants]
    exact (List.append_nil _).symm
  | sync subscriptions =>
    cases taken
    exact .others (fun _ h => by cases h) (fun _ h => by cases h) (List.append_nil _).symm rfl rfl rfl
  | tick later =>
    simp only [Step, step] at taken
    split at taken <;> cases taken
    exact .others (fun _ h => by cases h) (fun _ h => by cases h) (List.append_nil _).symm rfl rfl rfl

/-! The invariant -/

structure Invariant (s : State) : Prop where
  whole : ∀ d tx, s.deliveries d = .writing tx → tx.written ++ tx.pending = tx.rows
  held : ∀ d tx, s.deliveries d = .writing tx →
    ∀ k ∈ tx.written.filterMap (·.stripeInvoiceId), (k, d) ∈ s.locks
  apart : ∀ k d e, (k, d) ∈ s.locks → (k, e) ∈ s.locks → d = e
  free : ∀ k d, (k, d) ∈ s.locks → k ∉ s.db.ledger.invoiceIds

theorem invariant_start (db : Database) (now : Instant) : Invariant (start db now) := by
  constructor
  · intro d tx before
    cases before
  · intro d tx before
    cases before
  · intro k d e lock
    cases lock
  · intro k d lock
    cases lock

/-- A delivery outside a transaction holds no one up, whether it had locks to drop or not. -/
theorem invariant_leave {s t : State} (inv : Invariant s) {d : Nat} {phase : Phase}
    (outside : phase.inTransaction = false)
    (deliveries : t.deliveries = Function.update s.deliveries d phase)
    (fewer : ∀ l ∈ t.locks, l ∈ s.locks) (others : ∀ l ∈ s.locks, l.2 ≠ d → l ∈ t.locks)
    (db : t.db = s.db) : Invariant t := by
  have before : ∀ e tx, t.deliveries e = .writing tx → e ≠ d ∧ s.deliveries e = .writing tx := by
    intro e tx now
    rw [deliveries] at now
    by_cases same : e = d
    · subst same
      rw [Function.update_self] at now
      rw [now] at outside
      cases outside
    · rw [Function.update_of_ne same] at now
      exact ⟨same, now⟩
  constructor
  · intro e tx now
    exact inv.whole e tx (before e tx now).2
  · intro e tx now k hk
    obtain ⟨other, was⟩ := before e tx now
    exact others _ (inv.held e tx was k hk) other
  · intro k e f first second
    exact inv.apart k e f (fewer _ first) (fewer _ second)
  · intro k e lock
    rw [db]
    exact inv.free k e (fewer _ lock)

theorem invariant_begin {s t : State} (inv : Invariant s) {d : Nat} {tx : Transaction}
    (fresh : tx.written = []) (whole : tx.pending = tx.rows)
    (deliveries : t.deliveries = Function.update s.deliveries d (.writing tx))
    (locks : t.locks = s.locks) (db : t.db = s.db) : Invariant t := by
  have before : ∀ e u, t.deliveries e = .writing u → u = tx ∨ s.deliveries e = .writing u := by
    intro e u now
    rw [deliveries] at now
    by_cases same : e = d
    · subst same
      rw [Function.update_self] at now
      cases now
      exact .inl rfl
    · rw [Function.update_of_ne same] at now
      exact .inr now
  constructor
  · intro e u now
    rcases before e u now with rfl | was
    · rw [fresh, whole, List.nil_append]
    · exact inv.whole e u was
  · intro e u now k hk
    rw [locks]
    rcases before e u now with rfl | was
    · rw [fresh] at hk
      cases hk
    · exact inv.held e u was k hk
  · rw [locks]
    exact inv.apart
  · rw [locks, db]
    exact inv.free

theorem invariant_insert {s t : State} (inv : Invariant s) {d : Nat} {tx : Transaction}
    {row : NewGrant} {rest : List NewGrant} (before : s.deliveries d = .writing tx)
    (next : tx.pending = row :: rest) (free : s.db.ledger.Insertable row)
    (unlocked : ¬ ∃ l ∈ s.locks, some l.1 = row.stripeInvoiceId ∧ l.2 ≠ d)
    (deliveries : t.deliveries = Function.update s.deliveries d
      (.writing { tx with written := tx.written ++ [row], pending := rest }))
    (locks : t.locks = s.locks ++ row.stripeInvoiceId.toList.map (·, d)) (db : t.db = s.db) :
    Invariant t := by
  have lock_cases : ∀ k e, (k, e) ∈ t.locks →
      (k, e) ∈ s.locks ∨ row.stripeInvoiceId = some k ∧ e = d := by
    intro k e lock
    rw [locks] at lock
    rcases List.mem_append.mp lock with old | new
    · exact .inl old
    · obtain ⟨j, hj, pair⟩ := List.mem_map.mp new
      cases pair
      exact .inr ⟨Option.mem_toList.mp hj, rfl⟩
  -- Whoever already holds this key is the delivery that inserts.
  have own : ∀ k e, (k, e) ∈ s.locks → row.stripeInvoiceId = some k → e = d := by
    intro k e lock key
    by_contra other
    exact unlocked ⟨(k, e), lock, key.symm, other⟩
  constructor
  · intro e u now
    rw [deliveries] at now
    by_cases same : e = d
    · subst same
      rw [Function.update_self] at now
      cases now
      have whole := inv.whole e tx before
      rw [next] at whole
      simp only [List.append_assoc, List.singleton_append]
      exact whole
    · rw [Function.update_of_ne same] at now
      exact inv.whole e u now
  · intro e u now k hk
    rw [deliveries] at now
    rw [locks]
    by_cases same : e = d
    · subst same
      rw [Function.update_self] at now
      cases now
      rw [List.filterMap_append] at hk
      rcases List.mem_append.mp hk with old | new
      · exact List.mem_append_left _ (inv.held e tx before k old)
      · apply List.mem_append_right
        obtain ⟨g, hg, key⟩ := List.mem_filterMap.mp new
        rw [List.mem_singleton.mp hg] at key
        exact List.mem_map.mpr ⟨k, Option.mem_toList.mpr key, rfl⟩
    · rw [Function.update_of_ne same] at now
      exact List.mem_append_left _ (inv.held e u now k hk)
  · intro k e f first second
    rcases lock_cases k e first with old | ⟨key, rfl⟩ <;>
      rcases lock_cases k f second with old' | ⟨key', rfl⟩
    · exact inv.apart k e f old old'
    · exact own k e old key'
    · exact (own k f old' key).symm
    · rfl
  · intro k e lock
    rw [db]
    rcases lock_cases k e lock with old | ⟨key, rfl⟩
    · exact inv.free k e old
    · exact free.2 k key

theorem invariant_commit {s t : State} (inv : Invariant s) {d : Nat} {tx : Transaction}
    {phase : Phase} (outside : phase.inTransaction = false) (before : s.deliveries d = .writing tx)
    (saved : s.db.ledger.saveGrants tx.startedAt tx.written = .ok t.db.ledger)
    (deliveries : t.deliveries = Function.update s.deliveries d phase)
    (locks : t.locks = s.locks.filter fun l => l.2 != d) : Invariant t := by
  have closed : Invariant { t with db := s.db } := by
    apply invariant_leave (t := { t with db := s.db }) inv outside deliveries
    · intro l lock
      change l ∈ t.locks at lock
      rw [locks] at lock
      exact (List.mem_filter.mp lock).1
    · intro l lock other
      change l ∈ t.locks
      rw [locks]
      exact List.mem_filter.mpr ⟨lock, bne_iff_ne.mpr other⟩
    · rfl
  refine ⟨closed.whole, closed.held, closed.apart, ?_⟩
  intro k e lock taken
  rw [Ledger.invoiceIds_saved saved] at taken
  rcases List.mem_append.mp taken with old | new
  · exact closed.free k e lock old
  · rw [locks] at lock
    obtain ⟨lock, other⟩ := List.mem_filter.mp lock
    have same := inv.apart k e d lock (inv.held d tx before k new)
    exact bne_iff_ne.mp other same

theorem invariant_others {s t : State} (inv : Invariant s) (deliveries : t.deliveries = s.deliveries)
    (locks : t.locks = s.locks) (ids : t.db.ledger.invoiceIds = s.db.ledger.invoiceIds) :
    Invariant t := by
  constructor
  · rw [deliveries]
    exact inv.whole
  · rw [deliveries, locks]
    exact inv.held
  · rw [locks]
    exact inv.apart
  · rw [locks, ids]
    exact inv.free

theorem unkeyed_rows {rows : List NewGrant} (unkeyed : ∀ row ∈ rows, row.stripeInvoiceId = none) :
    rows.filterMap (·.stripeInvoiceId) = [] := by
  apply List.filterMap_eq_nil_iff.mpr
  exact unkeyed

theorem invoiceIds_rows (L : Ledger) :
    L.invoiceIds = (L.grants.map (·.toNewGrant)).filterMap (·.stripeInvoiceId) := by
  rw [List.filterMap_map]
  rfl

theorem invariant_step {s t : State} {a : Action} (inv : Invariant s) (taken : Step s a t) :
    Invariant t := by
  cases step_effect taken with
  | left d phase _ _ outside _ _ deliveries fewer kept db =>
    exact invariant_leave inv outside deliveries fewer kept db
  | began d tx _ _ fresh whole deliveries locks db =>
    exact invariant_begin inv fresh whole deliveries locks db
  | inserted d tx row rest _ before next free unlocked deliveries locks db =>
    exact invariant_insert inv before next free unlocked deliveries locks db
  | committed d tx _ before _ saved _ deliveries locks =>
    exact invariant_commit inv rfl before saved deliveries locks
  | others _ unkeyed rows _ deliveries locks =>
    apply invariant_others inv deliveries locks
    rw [invoiceIds_rows t.db.ledger, rows, List.filterMap_append, unkeyed_rows unkeyed,
      List.append_nil, ← invoiceIds_rows]

/-! What the steps write -/

/-- A step outside the commits and the other writers leaves the rows and the mirror alone. -/
theorem step_writes {s t : State} {a : Action} (inv : Invariant s) (taken : Step s a t) :
    t.db.ledger.grants.map (·.toNewGrant) =
        s.db.ledger.grants.map (·.toNewGrant) ++ inserted ⟨s, a, t⟩ ∧
      t.db.subscriptions = mirrored s.db.subscriptions ⟨s, a, t⟩ := by
  have silent : a.early = true → t.db = s.db → t.db.ledger.grants.map (·.toNewGrant) =
      s.db.ledger.grants.map (·.toNewGrant) ++ inserted ⟨s, a, t⟩ ∧
      t.db.subscriptions = mirrored s.db.subscriptions ⟨s, a, t⟩ := by
    intro early db
    obtain ⟨rows, mirror, _⟩ := early_writes (s := s) (t := t) early
    rw [rows, mirror, db, List.append_nil]
    exact ⟨rfl, rfl⟩
  cases step_effect taken with
  | left d phase early _ _ _ _ _ _ _ db => exact silent early db
  | began d tx early _ _ _ _ _ db => exact silent early db
  | inserted d tx row rest early _ _ _ _ _ _ db => exact silent early db
  | others _ _ rows mirror => exact ⟨rows, mirror⟩
  | committed d tx label before done saved mirror =>
    subst label
    have whole := inv.whole d tx before
    rw [done, List.append_nil] at whole
    obtain ⟨added, grants, columns, _⟩ := Ledger.saveGrants_ok saved
    have own : committed ⟨s, .commit d, t⟩ = some tx := by
      simp only [committed, before]
    simp only [inserted, mirrored, own, Option.map_some, Option.getD_some]
    refine ⟨?_, mirror⟩
    rw [grants, List.map_append, columns, whole]

/-! How deliveries end -/

inductive Moves (s : State) (a : Action) (t : State) : Prop where
  | stays (other : ∀ d, a ≠ .commit d) (deliveries : t.deliveries = s.deliveries)
  | enters (other : ∀ d, a ≠ .commit d) (d : Nat) (phase : Phase)
      (deliveries : t.deliveries = Function.update s.deliveries d phase)
      (before : (s.deliveries d).applied = false) (unapplied : phase.applied = false)
      (failure : ∀ renewal, phase = .failed renewal → a = .fail d)
  | commits (d : Nat) (tx : Transaction) (label : a = .commit d)
      (deliveries : t.deliveries =
        Function.update s.deliveries d (.returned tx.renewal tx.result))

theorem step_moves {s t : State} {a : Action} (taken : Step s a t) : Moves s a t := by
  cases step_effect taken with
  | left d phase early before _ unapplied failure deliveries =>
    exact .enters (early_writes (s := s) (t := t) early).2.2 d phase deliveries before unapplied failure
  | began d tx early before _ _ deliveries =>
    exact .enters (early_writes (s := s) (t := t) early).2.2 d _ deliveries before rfl
      fun _ h => by cases h
  | inserted d tx row rest early before _ _ _ deliveries =>
    have open_before : (s.deliveries d).applied = false := by
      rw [before]
      rfl
    exact .enters (early_writes (s := s) (t := t) early).2.2 d _ deliveries open_before rfl
      fun _ h => by cases h
  | committed d tx label _ _ _ _ deliveries => exact .commits d tx label deliveries
  | others other _ _ _ deliveries => exact .stays other deliveries

/-- A delivery returns an applied renewal exactly when it committed one. -/
theorem applied_run {db : Database} {now : Instant} {steps : List (Transition State Action)}
    {s : State} (run : Run Step (start db now) steps s) (d : Nat) :
    (s.deliveries d).applied = true ↔ ∃ x ∈ steps, x.label = .commit d := by
  induction run with
  | nil => exact iff_of_false Bool.false_ne_true fun ⟨x, hx, _⟩ => by cases hx
  | @snoc steps s t a _ taken ih =>
    have last : (∃ x ∈ steps ++ [⟨s, a, t⟩], x.label = Action.commit d) ↔
        (∃ x ∈ steps, x.label = .commit d) ∨ a = .commit d := by
      simp only [List.mem_append, List.mem_singleton, or_and_right, exists_or, exists_eq_left]
    rw [last, ← ih]
    cases step_moves taken with
    | stays other deliveries =>
      rw [deliveries]
      exact ⟨.inl, fun h => h.resolve_right (other d)⟩
    | enters other e phase deliveries before unapplied failure =>
      rw [deliveries]
      by_cases same : d = e
      · subst same
        rw [Function.update_self, unapplied, before]
        exact ⟨.inl, fun h => h.resolve_right (other d)⟩
      · rw [Function.update_of_ne same]
        exact ⟨.inl, fun h => h.resolve_right (other d)⟩
    | commits e tx label deliveries =>
      subst label
      rw [deliveries]
      by_cases same : d = e
      · subst same
        rw [Function.update_self]
        exact iff_of_true rfl (.inr rfl)
      · rw [Function.update_of_ne same]
        refine ⟨.inl, fun h => h.resolve_right ?_⟩
        intro label
        cases label
        exact same rfl

theorem failed_run {db : Database} {now : Instant} {steps : List (Transition State Action)}
    {s : State} (run : Run Step (start db now) steps s) (d : Nat) {renewal : Renewal}
    (failed : s.deliveries d = .failed renewal) : ∃ x ∈ steps, x.label = .fail d := by
  induction run with
  | nil => cases failed
  | @snoc steps s t a _ taken ih =>
    have earlier : s.deliveries d = .failed renewal →
        ∃ x ∈ steps ++ [⟨s, a, t⟩], x.label = Action.fail d := by
      intro before
      obtain ⟨x, hx, label⟩ := ih before
      exact ⟨x, List.mem_append_left _ hx, label⟩
    cases step_moves taken with
    | stays other deliveries =>
      rw [deliveries] at failed
      exact earlier failed
    | enters other e phase deliveries before unapplied failure =>
      rw [deliveries] at failed
      by_cases same : d = e
      · subst same
        rw [Function.update_self] at failed
        exact ⟨_, List.mem_append_right _ List.mem_cons_self, failure renewal failed⟩
      · rw [Function.update_of_ne same] at failed
        exact earlier failed
    | commits e tx label deliveries =>
      rw [deliveries] at failed
      by_cases same : d = e
      · subst same
        rw [Function.update_self] at failed
        cases failed
      · rw [Function.update_of_ne same] at failed
        exact earlier failed

/-! Whole runs -/

theorem step_invoices {s t : State} {a : Action} (inv : Invariant s) (taken : Step s a t) :
    t.db.ledger.invoiceIds = s.db.ledger.invoiceIds ++
      ((committed ⟨s, a, t⟩).map (·.renewal.stripeInvoiceId)).toList := by
  have set : ∀ tx : Transaction, tx.rows.filterMap (·.stripeInvoiceId) =
      [tx.renewal.stripeInvoiceId] := fun tx => (renewalGrants_keys ..).2
  rw [invoiceIds_rows t.db.ledger, (step_writes inv taken).1, List.filterMap_append, ← invoiceIds_rows]
  congr 1
  cases a with
  | others rows =>
    simp only [Step, step] at taken
    split at taken
    · rename_i unkeyed
      exact unkeyed_rows unkeyed
    · cases taken
  | _ =>
    simp only [inserted]
    cases committed ⟨s, _, t⟩ with
    | none => rfl
    | some tx => exact set tx

theorem invoices_run {db : Database} {now : Instant} {steps : List (Transition State Action)}
    {s : State} (run : Run Step (start db now) steps s) : s.db.ledger.invoiceIds =
      db.ledger.invoiceIds ++ (steps.filterMap committed).map (·.renewal.stripeInvoiceId) := by
  induction run with
  | nil => exact (List.append_nil _).symm
  | @snoc steps s t a earlier taken ih =>
    have inv := earlier.invariant (invariant_start db now) fun _ _ _ inv done =>
      invariant_step inv done
    rw [step_invoices inv taken, ih, List.append_assoc, List.filterMap_append, List.map_append]
    cases h : committed ⟨s, a, t⟩ <;> simp [h]

theorem writes_run {db : Database} {now : Instant} {steps : List (Transition State Action)}
    {s : State} (run : Run Step (start db now) steps s) :
    s.db.ledger.grants.map (·.toNewGrant) =
        db.ledger.grants.map (·.toNewGrant) ++ steps.flatMap inserted ∧
      s.db.subscriptions = steps.foldl mirrored db.subscriptions := by
  induction run with
  | nil => exact ⟨(List.append_nil _).symm, rfl⟩
  | @snoc steps s t a earlier taken ih =>
    have inv := earlier.invariant (invariant_start db now) fun _ _ _ inv done =>
      invariant_step inv done
    obtain ⟨rows, mirror⟩ := step_writes inv taken
    constructor
    · rw [rows, ih.1, List.append_assoc, List.flatMap_append, List.flatMap_singleton]
    · rw [mirror, ih.2, List.foldl_append]
      rfl

/-- The subscription has the seats and the period end of the renewal. -/
def Updates (x : Transition State Action) : Prop :=
  ∀ tx, committed x = some tx → ∀ row ∈ x.post.db.subscriptions.rows,
    row.id = tx.renewal.subscription.id ∧ row.seats = tx.seats ∧
        row.currentPeriodEnd = tx.renewal.periodEnd ∨
      row.id ≠ tx.renewal.subscription.id ∧ row ∈ x.pre.db.subscriptions.rows

theorem step_updates {s t : State} {a : Action} (taken : Step s a t) : Updates ⟨s, a, t⟩ := by
  intro tx own row stored
  cases a with
  | commit d =>
    simp only [Step, step] at taken
    simp only [committed] at own
    split at taken
    · rename_i open_ before
      rw [before] at own
      cases own
      split at taken
      · cases taken
        obtain ⟨old, there, rfl⟩ := List.mem_map.mp stored
        by_cases same : old.id = tx.renewal.subscription.id
        · rw [if_pos (beq_iff_eq.mpr same)]
          exact .inl ⟨same, rfl, rfl⟩
        · rw [if_neg fun eq => same (beq_iff_eq.mp eq)]
          exact .inr ⟨same, there⟩
      · cases taken
    · cases taken
  | _ => cases own

/-- What a run has done with the invoices it was given. -/
structure ExactlyOnce (db : Database) (steps : List (Transition State Action)) (s : State) :
    Prop where
  rows : s.db.ledger.grants.map (·.toNewGrant) =
    db.ledger.grants.map (·.toNewGrant) ++ steps.flatMap inserted
  mirror : s.db.subscriptions = steps.foldl mirrored db.subscriptions
  updated : ∀ x ∈ steps, Updates x
  once : (db.ledger.invoiceIds ++
    (steps.filterMap committed).map (·.renewal.stripeInvoiceId)).Nodup
  returned : ∀ d renewal result, s.deliveries d = .returned renewal result →
    (result.applied = true ↔ ∃ x ∈ steps, x.label = .commit d)
  failed : ∀ d renewal, s.deliveries d = .failed renewal → ∃ x ∈ steps, x.label = .fail d

/-- However the deliveries interleave, an invoice gets one whole set of grants and one
update; every other delivery of it adds no row and returns unapplied, unless its own
database failed. -/
theorem renewals_exactly_once {db : Database} {now : Instant}
    {steps : List (Transition State Action)} {s : State}
    (run : Run Step (start db now) steps s) : ExactlyOnce db steps s where
  rows := (writes_run run).1
  mirror := (writes_run run).2
  updated := run.lawful_of Updates (fun _ => True) (I := fun _ => True) trivial
    (fun _ _ _ _ taken _ => ⟨trivial, step_updates taken⟩) fun _ _ => trivial
  once := by
    rw [← invoices_run run]
    exact s.db.ledger.invoiceKey
  returned := by
    intro d renewal result ended
    rw [← applied_run run d, ended]
    rfl
  failed := fun d _ ended => failed_run run d ended

def starterDatabase : Database where
  ledger := Ledger.empty
  subscriptions := ⟨[starterSubscription], by decide, by decide, by decide⟩

def cycleInvoice : StripeInvoice where
  id := some "in_1"
  subscription := .text "sub_1"
  billingReason := some "subscription_cycle"
  lines := [some ⟨0, 200⟩]

/-- Both deliveries clear the pre-check and open a transaction before either inserts. -/
def doubleRenewal : List Action :=
  [.receive 0 cycleInvoice, .receive 1 cycleInvoice, .check 0, .check 1, .beginTransaction 0 6,
    .beginTransaction 1 6, .insert 0, .insert 0, .commit 0, .insert 1]

theorem double_renewal_applies_once : ∃ steps s,
    Run Step (start starterDatabase 0) steps s ∧ steps.length = 10 ∧
      (s.deliveries 0).applied = true ∧ (s.deliveries 1).applied = false ∧
      (s.db.ledger.grants.map (·.reason)) = [.subscription, .seatBonus] ∧
      ExactlyOnce starterDatabase steps s := by
  have outcome : ((follow step (start starterDatabase 0) doubleRenewal).map fun r =>
      (r.1.length, (r.2.deliveries 0).applied, (r.2.deliveries 1).applied,
        r.2.db.ledger.grants.map (·.reason))) =
      some (10, true, false, [.subscription, .seatBonus]) := by decide +kernel
  obtain ⟨r, done, checked⟩ := Option.map_eq_some_iff.mp outcome
  simp only [Prod.mk.injEq] at checked
  obtain ⟨length, wins, loses, reasons⟩ := checked
  exact ⟨r.1, r.2, follow_run done, length, wins, loses, reasons,
    renewals_exactly_once (follow_run done)⟩

theorem commit_taken {s : State} {d : Nat} {tx : Transaction} {ledger : Ledger}
    (before : s.deliveries d = .writing tx) (done : tx.pending = [])
    (saved : s.db.ledger.saveGrants tx.startedAt tx.written = .ok ledger) :
    Step s (.commit d) (({ s with db := ⟨ledger, updateRenewed s.db.subscriptions
      tx.renewal.subscription.id tx.seats tx.renewal.periodEnd⟩ }.release d).enter d
        (.returned tx.renewal tx.result)) := by
  simp only [Step, step, before, done, saved]

/-- A transaction that has written its rows is never refused at the commit. -/
theorem commit_enabled {s : State} (inv : Invariant s) {d : Nat} {tx : Transaction}
    (before : s.deliveries d = .writing tx) (done : tx.pending = []) :
    (step s (.commit d)).isSome := by
  have whole := inv.whole d tx before
  rw [done, List.append_nil] at whole
  have keys : tx.written.filterMap (·.stripeSessionId) = [] ∧
      tx.written.filterMap (·.stripeInvoiceId) = [tx.renewal.stripeInvoiceId] := by
    rw [whole]
    exact renewalGrants_keys ..
  have free : tx.renewal.stripeInvoiceId ∉ s.db.ledger.invoiceIds := by
    apply inv.free _ d
    apply inv.held d tx before
    rw [keys.2]
    exact List.mem_cons_self
  obtain ⟨ledger, saved⟩ : ∃ ledger,
      s.db.ledger.saveGrants tx.startedAt tx.written = .ok ledger := by
    apply Ledger.saveGrants_of_keys
    · rw [keys.1, List.append_nil]
      exact s.db.ledger.sessionKey
    · rw [keys.2]
      exact List.nodup_append_comm.mp (List.nodup_cons.mpr ⟨free, s.db.ledger.invoiceKey⟩)
  rw [commit_taken before done saved]
  rfl

/-! A delivery on its own -/

theorem enter_deliveries (s : State) (d : Nat) (phase : Phase) :
    (s.enter d phase).deliveries d = phase := Function.update_self ..

/-- With no other transaction open the inserts run through. -/
theorem inserts_alone {s : State} {d : Nat} {tx : Transaction}
    (before : s.deliveries d = .writing tx)
    (fits : ∀ row ∈ tx.pending, s.db.ledger.Insertable row) (own : ∀ l ∈ s.locks, l.2 = d) :
    ∃ steps t, Run Step s steps t ∧ t.db = s.db ∧
      t.deliveries d = .writing { tx with written := tx.written ++ tx.pending, pending := [] } := by
  generalize rows : tx.pending = pending at fits
  induction pending generalizing s tx with
  | nil =>
    refine ⟨[], s, .nil, rfl, ?_⟩
    rw [before, List.append_nil, ← rows]
  | cons row rest ih =>
    let next := { s with locks := s.locks ++ row.stripeInvoiceId.toList.map (·, d) }.enter d
      (.writing { tx with written := tx.written ++ [row], pending := rest })
    have taken : Step s (.insert d) next := by
      have alone : ¬ ∃ l ∈ s.locks, some l.1 = row.stripeInvoiceId ∧ l.2 ≠ d :=
        fun ⟨l, lock, _, other⟩ => other (own l lock)
      have free : ¬ ¬ s.db.ledger.Insertable row := not_not.mpr (fits row List.mem_cons_self)
      simp only [Step, step, before, rows, if_neg free, if_neg alone]
      rfl
    have held : ∀ l ∈ next.locks, l.2 = d := by
      intro l lock
      rcases List.mem_append.mp lock with old | new
      · exact own l old
      · obtain ⟨k, _, rfl⟩ := List.mem_map.mp new
        rfl
    obtain ⟨steps, t, run, db, ended⟩ := ih (s := next) (enter_deliveries ..) held rfl
      fun r hr => fits r (List.mem_cons_of_mem row hr)
    refine ⟨_, t, (Run.nil.snoc taken).append run, db, ?_⟩
    rw [ended]
    simp only [List.append_assoc, List.singleton_append]

/-- The transaction of a new invoice, run through without a break. -/
theorem transaction_alone {s : State} {d : Nat} {renewal : Renewal} {plan : SubscriptionPlan}
    (seats : Int) (before : s.deliveries d = .found renewal) (quiet : s.locks = [])
    (found : findPlan renewal.subscription.planId = some plan)
    (first : alreadyApplied s.db.ledger renewal.stripeInvoiceId = false) :
    ∃ steps t result, Run Step s steps t ∧
      applyRenewal s.db s.now seats renewal.subscription renewal.stripeInvoiceId
        renewal.periodEnd = (t.db, .ok result) ∧ t.deliveries d = .returned renewal result := by
  let ready := s.enter d (.checked renewal plan)
  have checked : Step s (.check d) ready := by
    simp only [Step, step, before, found, first, Bool.false_eq_true, if_false]
    rfl
  let rolledOver := unspentPlanCredits s.db.ledger.grants s.db.ledger.allocations
    renewal.subscription.workspaceId s.now
  let tx : Transaction := ⟨renewal, plan, seats, s.now, rolledOver, [], renewalGrants
    renewal.subscription plan renewal.stripeInvoiceId renewal.periodEnd rolledOver
    (seatBonusFor seats)⟩
  have began : Step ready (.beginTransaction d seats) (ready.enter d (.writing tx)) := by
    have phase : ready.deliveries d = .checked renewal plan := enter_deliveries ..
    simp only [Step, step, phase]
    rfl
  have fits : ∀ row ∈ tx.pending, s.db.ledger.Insertable row := renewalGrants_insertable first
  obtain ⟨inserts, written, wrote, db, phase⟩ := inserts_alone (s := ready.enter d (.writing tx))
    (enter_deliveries ..) fits (by
      intro l lock
      change l ∈ s.locks at lock
      rw [quiet] at lock
      cases lock)
  obtain ⟨next, done⟩ : ∃ next, applyRenewal s.db s.now seats renewal.subscription
      renewal.stripeInvoiceId renewal.periodEnd = (next, .ok tx.result) :=
    applyRenewal_first found first
  obtain ⟨plan', found', _, _, saved, mirror⟩ := applyRenewal_applied done rfl
  cases found.symm.trans found'
  have ledger : written.db.ledger.saveGrants s.now tx.rows = .ok next.ledger := by
    rw [db]
    exact saved
  let after := ({ written with db := ⟨next.ledger, updateRenewed written.db.subscriptions
    renewal.subscription.id seats renewal.periodEnd⟩ }.release d).enter d
      (.returned renewal tx.result)
  have commits : Step written (.commit d) after := commit_taken phase rfl ledger
  refine ⟨_, after, tx.result, (((Run.nil.snoc checked).snoc began).append wrote).snoc commits,
    ?_, enter_deliveries ..⟩
  have subscriptions : updateRenewed written.db.subscriptions renewal.subscription.id seats
      renewal.periodEnd = next.subscriptions := by
    rw [db]
    exact mirror.symm
  rw [done]
  change (next, _) = (Database.mk next.ledger (updateRenewed written.db.subscriptions
    renewal.subscription.id seats renewal.periodEnd), _)
  rw [subscriptions]

/-- From the pre-check on, a delivery whose steps nothing comes between does what
`applyRenewal` does. -/
theorem renewal_alone {s : State} {d : Nat} {renewal : Renewal} (seats : Int)
    (before : s.deliveries d = .found renewal) (quiet : s.locks = []) :
    ∃ steps t result, Run Step s steps t ∧
      applyRenewal s.db s.now seats renewal.subscription renewal.stripeInvoiceId
        renewal.periodEnd = (t.db, .ok result) ∧ t.deliveries d = .returned renewal result := by
  cases found : findPlan renewal.subscription.planId with
  | none =>
    have checked : Step s (.check d) (s.enter d (.returned renewal notApplied)) := by
      simp only [Step, step, before, found]
    refine ⟨_, _, notApplied, Run.nil.snoc checked, ?_, enter_deliveries ..⟩
    simp only [applyRenewal, found]
    rfl
  | some plan =>
    cases first : alreadyApplied s.db.ledger renewal.stripeInvoiceId with
    | true =>
      have checked : Step s (.check d) (s.enter d (.returned renewal notApplied)) := by
        simp only [Step, step, before, found, first, if_true]
      refine ⟨_, _, notApplied, Run.nil.snoc checked, ?_, enter_deliveries ..⟩
      simp only [applyRenewal, found, first, if_true]
      rfl
    | false => exact transaction_alone seats before quiet found first

end Gomer.RenewalRace
