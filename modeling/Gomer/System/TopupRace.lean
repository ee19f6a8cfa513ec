import Mathlib.Logic.Function.Basic
import Gomer.Lib.Trace
import Gomer.Billing.Webhook

/-! Deliveries of `checkout.session.completed`, the existence check of one interleaved
with the insert of another. Only the unique index decides a race. -/
namespace Gomer.TopupRace

open Relational Trace JsNumber

/-- How far one delivery has come with the session it carries. -/
inductive Phase where
  | idle
  | guarded (session : StripeCheckoutSession) (topup : Topup)
  | checked (session : StripeCheckoutSession) (topup : Topup)
  | acknowledged (session : StripeCheckoutSession)
  | failed (session : StripeCheckoutSession)

structure State where
  ledger : Ledger
  now : Instant
  deliveries : Nat → Phase

inductive Action where
  | receive (d : Nat) (session : StripeCheckoutSession)
  | check (d : Nat)
  | insert (d : Nat)
  | fail (d : Nat)
  | others (rows : List NewGrant)
  | tick (later : Instant)

def State.enter (s : State) (d : Nat) (phase : Phase) : State :=
  { s with deliveries := Function.update s.deliveries d phase }

def start (L : Ledger) (now : Instant) : State := ⟨L, now, fun _ => .idle⟩

/-- `stripe` holds the session behind each id, so every delivery of an id carries the same
one. Other writers of the table never fill in a session id. -/
def step (stripe : String → StripeCheckoutSession) (s : State) : Action → Option State
  | .receive d session =>
    match s.deliveries d with
    | .idle =>
      if ∀ id ∈ session.id, session = stripe id then
        match topupOf session with
        | none => some (s.enter d (.acknowledged session))
        | some topup => some (s.enter d (.guarded session topup))
      else none
    | _ => none
  | .check d =>
    match s.deliveries d with
    | .guarded session topup =>
      if hasGrantForStripeSession s.ledger topup.sessionId then
        some (s.enter d (.acknowledged session))
      else some (s.enter d (.checked session topup))
    | _ => none
  | .insert d =>
    match s.deliveries d with
    | .checked session topup =>
      match grantTopup s.ledger s.now topup with
      | .ok next => some { s.enter d (.acknowledged session) with ledger := next }
      | .error e =>
        if isUniqueViolation e then some (s.enter d (.acknowledged session))
        else some (s.enter d (.failed session))
    | _ => none
  | .fail d =>
    match s.deliveries d with
    | .guarded session _ => some (s.enter d (.failed session))
    | .checked session _ => some (s.enter d (.failed session))
    | _ => none
  | .others rows =>
    if ∀ row ∈ rows, row.stripeSessionId = none then
      match s.ledger.saveGrants s.now rows with
      | .ok next => some { s with ledger := next }
      | .error _ => none
    else none
  | .tick later => if s.now ≤ later then some { s with now := later } else none

section
variable (stripe : String → StripeCheckoutSession)

abbrev Step (s : State) (a : Action) (t : State) : Prop := step stripe s a = some t

/-- The database failed under a delivery: it was lost, or it refused the amount. -/
def DatabaseFailed (d : Nat) (x : Transition State Action) : Prop :=
  x.label = .fail d ∨ x.label = .insert d ∧
    ∃ session topup, x.pre.deliveries d = .checked session topup ∧ toInt32 topup.credits = none

/-- The grants recorded under one session id. -/
def creditedBy (L : Ledger) (id : String) : List CreditGrant :=
  L.grants.filter fun g => g.stripeSessionId == some id

end

/-! What passes the guards -/

theorem topupOf_some {session : StripeCheckoutSession} {topup : Topup}
    (passed : topupOf session = some topup) :
    session.id = some topup.sessionId ∧ session.workspaceId = some topup.workspaceId ∧
      topup.credits = (session.credits.map number).getD (.finite 0) ∧
      session.mode ≠ some "subscription" ∧
      (truthy session.paymentStatus = true → session.paymentStatus = some "paid") := by
  unfold topupOf at passed
  split at passed
  · cases passed
  · rename_i oneOff
    simp only at passed
    split at passed
    · rename_i id workspaceId hid hws
      split at passed
      · cases passed
      · split at passed
        · cases passed
        · rename_i paid
          cases passed
          refine ⟨hid, hws, rfl, oneOff, fun given => ?_⟩
          by_contra unpaid
          exact paid ⟨given, unpaid⟩
    · cases passed

/-- A paid one-off session with complete metadata. -/
structure Creditable (session : StripeCheckoutSession) (id : String) (workspaceId : Uuid)
    (credits : ℚ) : Prop where
  named : session.id = some id
  nonempty : id ≠ ""
  owner : session.workspaceId = some workspaceId
  amount : session.credits.map number = some (.finite credits)
  positive : 0 < credits
  oneOff : session.mode ≠ some "subscription"
  paid : truthy session.paymentStatus = true → session.paymentStatus = some "paid"

theorem topupOf_creditable {session : StripeCheckoutSession} {id : String} {workspaceId : Uuid}
    {credits : ℚ} (valid : Creditable session id workspaceId credits) :
    topupOf session = some ⟨id, workspaceId, session.userId, .finite credits, session.amountTotal,
      session.currency⟩ := by
  have settled : ¬ (truthy session.paymentStatus = true ∧
      session.paymentStatus ≠ some "paid") := fun unpaid => unpaid.2 (valid.paid unpaid.1)
  simp [topupOf, valid.named, valid.nonempty, valid.owner, valid.amount, valid.oneOff, settled,
    isPositive, Double.isFinite, valid.positive]

theorem topupOf_unpaid {session : StripeCheckoutSession}
    (unpaid : session.mode = some "subscription" ∨
      truthy session.paymentStatus = true ∧ session.paymentStatus ≠ some "paid") :
    topupOf session = none := by
  cases passed : topupOf session with
  | none => rfl
  | some topup =>
    obtain ⟨_, _, _, oneOff, paid⟩ := topupOf_some passed
    rcases unpaid with subscription | ⟨given, other⟩
    · exact absurd subscription oneOff
    · exact absurd (paid given) other

theorem hasGrant_iff {L : Ledger} {id : String} :
    hasGrantForStripeSession L id = true ↔ ∃ g ∈ L.grants, g.stripeSessionId = some id := by
  simp [hasGrantForStripeSession]

/-- The index refuses a top-up exactly when its session was recorded before. -/
theorem grantTopup_violation {L : Ledger} {now : Instant} {topup : Topup} {e : DbError}
    (refused : grantTopup L now topup = .error e) :
    isUniqueViolation e = true ∧ hasGrantForStripeSession L topup.sessionId = true ∨
      isUniqueViolation e = false ∧ toInt32 topup.credits = none := by
  unfold grantTopup at refused
  split at refused
  · rename_i amount
    cases refused
    exact .inr ⟨rfl, amount⟩
  · obtain ⟨rfl, taken⟩ := Ledger.saveGrant_error refused
    left
    refine ⟨rfl, hasGrant_iff.mpr ?_⟩
    by_contra absent
    apply taken
    refine ⟨?_, nofun⟩
    intro id hid recorded
    cases hid
    obtain ⟨g, hg, same⟩ := List.mem_filterMap.mp recorded
    exact absent ⟨g, hg, same⟩

theorem grantTopup_ok {L next : Ledger} {now : Instant} {topup : Topup}
    (saved : grantTopup L now topup = .ok next) : ∃ credits, toInt32 topup.credits = some credits ∧
      L.saveGrant now (createGrant (topupInput topup credits)) = .ok next := by
  unfold grantTopup at saved
  split at saved
  · cases saved
  · rename_i credits amount
    exact ⟨credits, amount, saved⟩

/-! What a step can do -/

section
variable (stripe : String → StripeCheckoutSession)

/-- The phases a delivery can enter without writing, and why. -/
inductive Enters (x : Transition State Action) (d : Nat) : Phase → Prop where
  | dropped {session : StripeCheckoutSession} (refused : topupOf session = none) :
      Enters x d (.acknowledged session)
  | guarded {session : StripeCheckoutSession} {topup : Topup}
      (passed : topupOf session = some topup) (held : session = stripe topup.sessionId) :
      Enters x d (.guarded session topup)
  | checked {session : StripeCheckoutSession} {topup : Topup}
      (before : x.pre.deliveries d = .guarded session topup) : Enters x d (.checked session topup)
  | duplicate {session : StripeCheckoutSession} {topup : Topup}
      (before : x.pre.deliveries d = .guarded session topup ∨
        x.pre.deliveries d = .checked session topup)
      (recorded : hasGrantForStripeSession x.pre.ledger topup.sessionId = true) :
      Enters x d (.acknowledged session)
  | failed {session : StripeCheckoutSession} (failure : DatabaseFailed d x) :
      Enters x d (.failed session)

inductive Effect (x : Transition State Action) : Prop where
  | none (ledger : x.post.ledger = x.pre.ledger) (deliveries : x.post.deliveries = x.pre.deliveries)
  | entered (d : Nat) (phase : Phase) (why : Enters stripe x d phase)
      (ledger : x.post.ledger = x.pre.ledger)
      (deliveries : x.post.deliveries = Function.update x.pre.deliveries d phase)
  | credited (d : Nat) (session : StripeCheckoutSession) (topup : Topup) (credits : Int)
      (before : x.pre.deliveries d = .checked session topup)
      (amount : toInt32 topup.credits = some credits)
      (saved : x.pre.ledger.saveGrant x.pre.now (createGrant (topupInput topup credits)) =
        .ok x.post.ledger)
      (deliveries : x.post.deliveries = Function.update x.pre.deliveries d (.acknowledged session))
  | others (added : List CreditGrant) (unkeyed : ∀ g ∈ added, g.stripeSessionId = none)
      (grants : x.post.ledger.grants = x.pre.ledger.grants ++ added)
      (deliveries : x.post.deliveries = x.pre.deliveries)

end

variable {stripe : String → StripeCheckoutSession}

theorem step_effect {s t : State} {a : Action} (taken : Step stripe s a t) :
    Effect stripe ⟨s, a, t⟩ := by
  cases a with
  | receive d session =>
    simp only [Step, step] at taken
    split at taken
    · split at taken
      · rename_i held
        split at taken
        · rename_i refused
          cases taken
          exact .entered d _ (.dropped refused) rfl rfl
        · rename_i topup passed
          cases taken
          exact .entered d _ (.guarded passed (held _ (topupOf_some passed).1)) rfl rfl
      · cases taken
    · cases taken
  | check d =>
    simp only [Step, step] at taken
    split at taken
    · rename_i session topup before
      split at taken
      · rename_i recorded
        cases taken
        exact .entered d _ (.duplicate (.inl before) recorded) rfl rfl
      · cases taken
        exact .entered d _ (.checked before) rfl rfl
    · cases taken
  | insert d =>
    simp only [Step, step] at taken
    split at taken
    · rename_i session topup before
      split at taken
      · rename_i next saved
        cases taken
        obtain ⟨credits, amount, inserted⟩ := grantTopup_ok saved
        exact .credited d session topup credits before amount inserted rfl
      · rename_i e refused
        obtain ⟨violated, recorded⟩ | ⟨fine, amount⟩ := grantTopup_violation refused
        · rw [if_pos violated] at taken
          cases taken
          exact .entered d _ (.duplicate (.inr before) recorded) rfl rfl
        · rw [if_neg (by rw [fine]; exact Bool.false_ne_true)] at taken
          cases taken
          exact .entered d _ (.failed (.inr ⟨rfl, session, topup, before, amount⟩)) rfl rfl
    · cases taken
  | fail d =>
    simp only [Step, step] at taken
    split at taken
    · cases taken
      exact .entered d _ (.failed (.inl rfl)) rfl rfl
    · cases taken
      exact .entered d _ (.failed (.inl rfl)) rfl rfl
    · cases taken
  | others rows =>
    simp only [Step, step] at taken
    split at taken
    · rename_i unkeyed
      split at taken
      · rename_i next saved
        cases taken
        obtain ⟨added, grants, columns, _⟩ := Ledger.saveGrants_ok saved
        refine .others added ?_ grants rfl
        intro g hg
        apply unkeyed g.toNewGrant
        rw [← columns]
        exact List.mem_map_of_mem hg
      · cases taken
    · cases taken
  | tick later =>
    simp only [Step, step] at taken
    split at taken
    · cases taken
      exact .none rfl rfl
    · cases taken

/-! The invariant -/

structure Invariant (stripe : String → StripeCheckoutSession) (L : Ledger) (s : State) : Prop where
  held : ∀ d session topup, s.deliveries d = .guarded session topup ∨
    s.deliveries d = .checked session topup →
    topupOf session = some topup ∧ session = stripe topup.sessionId
  rows : ∀ g ∈ s.ledger.grants, ∀ id, g.stripeSessionId = some id → g ∈ L.grants ∨
    ∃ topup credits, topupOf (stripe id) = some topup ∧ toInt32 topup.credits = some credits ∧
      g.toNewGrant = createGrant (topupInput topup credits)
  done : ∀ d session topup, s.deliveries d = .acknowledged session →
    topupOf session = some topup → ∃ g ∈ s.ledger.grants, g.stripeSessionId = some topup.sessionId

theorem invariant_start (L : Ledger) (now : Instant) : Invariant stripe L (start L now) := by
  constructor
  · intro d session topup before
    rcases before with before | before <;> cases before
  · intro g hg id _
    exact .inl hg
  · intro d session topup before
    cases before

/-- A delivery is where it was, or in the phase the step put it in. -/
theorem entered_cases {deliveries next : Nat → Phase} {d : Nat} {phase : Phase}
    (entered : next = Function.update deliveries d phase) (e : Nat) :
    e = d ∧ next e = phase ∨ next e = deliveries e := by
  by_cases same : e = d
  · subst same
    exact .inl ⟨rfl, by rw [entered, Function.update_self]⟩
  · exact .inr (by rw [entered, Function.update_of_ne same])

theorem held_step {L : Ledger} {s t : State} {a : Action} (inv : Invariant stripe L s)
    (taken : Step stripe s a t) : ∀ d session topup,
    t.deliveries d = .guarded session topup ∨ t.deliveries d = .checked session topup →
      topupOf session = some topup ∧ session = stripe topup.sessionId := by
  intro d session topup now
  cases step_effect taken with
  | none ledger deliveries =>
    rw [deliveries] at now
    exact inv.held d session topup now
  | others added unkeyed grants deliveries =>
    rw [deliveries] at now
    exact inv.held d session topup now
  | credited e session' topup' credits before amount saved deliveries =>
    obtain ⟨rfl, phase⟩ | same := entered_cases deliveries d
    · rw [phase] at now
      rcases now with now | now <;> cases now
    · rw [same] at now
      exact inv.held d session topup now
  | entered e phase why ledger deliveries =>
    obtain ⟨rfl, moved⟩ | same := entered_cases deliveries d
    · rw [moved] at now
      cases why with
      | guarded passed held =>
        rcases now with now | now <;> cases now
        exact ⟨passed, held⟩
      | checked before =>
        rcases now with now | now <;> cases now
        exact inv.held _ _ _ (.inl before)
      | _ => rcases now with now | now <;> cases now
    · rw [same] at now
      exact inv.held d session topup now

theorem rows_step {L : Ledger} {s t : State} {a : Action} (inv : Invariant stripe L s)
    (taken : Step stripe s a t) : ∀ g ∈ t.ledger.grants, ∀ id, g.stripeSessionId = some id →
      g ∈ L.grants ∨ ∃ topup credits, topupOf (stripe id) = some topup ∧
        toInt32 topup.credits = some credits ∧
          g.toNewGrant = createGrant (topupInput topup credits) := by
  intro g hg id keyed
  cases step_effect taken with
  | none ledger deliveries =>
    rw [ledger] at hg
    exact inv.rows g hg id keyed
  | entered d phase why ledger deliveries =>
    rw [ledger] at hg
    exact inv.rows g hg id keyed
  | others added unkeyed grants deliveries =>
    rw [grants] at hg
    rcases List.mem_append.mp hg with hg | hg
    · exact inv.rows g hg id keyed
    · rw [unkeyed g hg] at keyed
      cases keyed
  | credited d session topup credits before amount saved deliveries =>
    obtain ⟨_, grants, _⟩ := Ledger.saveGrant_ok saved
    rw [grants] at hg
    rcases List.mem_append.mp hg with hg | hg
    · exact inv.rows g hg id keyed
    · rw [List.mem_singleton.mp hg] at keyed ⊢
      cases keyed
      obtain ⟨passed, held⟩ := inv.held d session topup (.inr before)
      exact .inr ⟨topup, credits, held ▸ passed, amount, rfl⟩

theorem done_step {L : Ledger} {s t : State} {a : Action} (inv : Invariant stripe L s)
    (taken : Step stripe s a t) : ∀ d session topup, t.deliveries d = .acknowledged session →
      topupOf session = some topup →
      ∃ g ∈ t.ledger.grants, g.stripeSessionId = some topup.sessionId := by
  intro d session topup now passed
  cases step_effect taken with
  | none ledger deliveries =>
    rw [deliveries] at now
    rw [ledger]
    exact inv.done d session topup now passed
  | others added unkeyed grants deliveries =>
    rw [deliveries] at now
    obtain ⟨g, hg, keyed⟩ := inv.done d session topup now passed
    exact ⟨g, by rw [grants]; exact List.mem_append_left _ hg, keyed⟩
  | credited e session' topup' credits before amount saved deliveries =>
    obtain ⟨_, grants, _⟩ := Ledger.saveGrant_ok saved
    obtain ⟨rfl, moved⟩ | same := entered_cases deliveries d
    · rw [moved] at now
      cases now
      cases passed.symm.trans (inv.held _ _ _ (.inr before)).1
      exact ⟨_, by rw [grants]; exact List.mem_append_right _ List.mem_cons_self, rfl⟩
    · rw [same] at now
      obtain ⟨g, hg, keyed⟩ := inv.done d session topup now passed
      exact ⟨g, by rw [grants]; exact List.mem_append_left _ hg, keyed⟩
  | entered e phase why ledger deliveries =>
    rw [ledger]
    obtain ⟨rfl, moved⟩ | same := entered_cases deliveries d
    · rw [moved] at now
      cases why with
      | dropped refused =>
        cases now
        cases refused.symm.trans passed
      | duplicate before recorded =>
        cases now
        cases passed.symm.trans (inv.held _ _ _ before).1
        exact hasGrant_iff.mp recorded
      | _ => cases now
    · rw [same] at now
      exact inv.done d session topup now passed

theorem invariant_step {L : Ledger} {s t : State} {a : Action} (inv : Invariant stripe L s)
    (taken : Step stripe s a t) : Invariant stripe L t where
  held := held_step inv taken
  rows := rows_step inv taken
  done := done_step inv taken

/-- A delivery fails only where its database did; losing a race is no failure. -/
theorem failed_run {L : Ledger} {now : Instant} {steps : List (Transition State Action)}
    {s : State} (run : Run (Step stripe) (start L now) steps s) (d : Nat)
    {session : StripeCheckoutSession} (failed : s.deliveries d = .failed session) :
    ∃ x ∈ steps, DatabaseFailed d x := by
  induction run with
  | nil => cases failed
  | @snoc steps s t a _ taken ih =>
    have earlier : s.deliveries d = .failed session →
        ∃ x ∈ steps ++ [⟨s, a, t⟩], DatabaseFailed d x := by
      intro before
      obtain ⟨x, hx, failure⟩ := ih before
      exact ⟨x, List.mem_append_left _ hx, failure⟩
    cases step_effect taken with
    | none ledger deliveries => exact earlier (by rw [← failed]; exact (congrFun deliveries d).symm)
    | others added unkeyed grants deliveries =>
      exact earlier (by rw [← failed]; exact (congrFun deliveries d).symm)
    | credited e session' topup credits before amount saved deliveries =>
      obtain ⟨rfl, moved⟩ | same := entered_cases deliveries d
      · cases moved.symm.trans failed
      · exact earlier (same.symm.trans failed)
    | entered e phase why ledger deliveries =>
      obtain ⟨rfl, moved⟩ | same := entered_cases deliveries d
      · cases why with
        | failed failure =>
          exact ⟨_, List.mem_append_right _ List.mem_cons_self, failure⟩
        | _ => cases moved.symm.trans failed
      · exact earlier (same.symm.trans failed)

@[simp] theorem enter_ledger (s : State) (d : Nat) (phase : Phase) :
    (s.enter d phase).ledger = s.ledger := rfl
@[simp] theorem enter_now (s : State) (d : Nat) (phase : Phase) :
    (s.enter d phase).now = s.now := rfl
@[simp] theorem enter_deliveries (s : State) (d : Nat) (phase : Phase) :
    (s.enter d phase).deliveries d = phase := Function.update_self ..

/-- The outcome of the handler, as a phase. -/
def outcome (session : StripeCheckoutSession) : Except WebhookError Unit → Phase
  | .ok _ => .acknowledged session
  | .error _ => .failed session

/-- A delivery whose steps nothing comes between does what the handler does. -/
theorem delivery_alone {s : State} {d : Nat} {session : StripeCheckoutSession}
    (idle : s.deliveries d = .idle) (held : ∀ id ∈ session.id, session = stripe id) :
    ∃ steps t, Run (Step stripe) s steps t ∧
      t.ledger = (onCheckoutCompleted s.ledger s.now (some session)).1 ∧
      t.deliveries d = outcome session (onCheckoutCompleted s.ledger s.now (some session)).2 := by
  cases passed : topupOf session with
  | none =>
    have received : Step stripe s (.receive d session) (s.enter d (.acknowledged session)) := by
      simp only [Step, step, idle, if_pos held, passed]
    refine ⟨_, _, Run.nil.snoc received, ?_, ?_⟩ <;>
      simp [onCheckoutCompleted, passed, outcome]
  | some topup =>
    have received : Step stripe s (.receive d session) (s.enter d (.guarded session topup)) := by
      simp only [Step, step, idle, if_pos held, passed]
    cases recorded : hasGrantForStripeSession s.ledger topup.sessionId with
    | true =>
      have checked : Step stripe (s.enter d (.guarded session topup)) (.check d)
          ((s.enter d (.guarded session topup)).enter d (.acknowledged session)) := by
        simp [Step, step, recorded]
      refine ⟨_, _, (Run.nil.snoc received).snoc checked, ?_, ?_⟩ <;>
        simp [onCheckoutCompleted, passed, recorded, outcome]
    | false =>
      have checked : Step stripe (s.enter d (.guarded session topup)) (.check d)
          ((s.enter d (.guarded session topup)).enter d (.checked session topup)) := by
        simp [Step, step, recorded]
      let ready := (s.enter d (.guarded session topup)).enter d (.checked session topup)
      have before : ready.deliveries d = .checked session topup := enter_deliveries ..
      have started := (Run.nil.snoc received).snoc checked
      cases saved : grantTopup s.ledger s.now topup with
      | ok next =>
        have inserted : Step stripe ready (.insert d)
            { ready.enter d (.acknowledged session) with ledger := next } := by
          simp only [Step, step, before]
          simp [ready, saved]
        refine ⟨_, _, started.snoc inserted, ?_, ?_⟩
        · simp [onCheckoutCompleted, passed, recorded, saved]
        · simp only [onCheckoutCompleted, Option.bind_some, passed, recorded, saved, outcome,
            Bool.false_eq_true, if_false]
          exact enter_deliveries ..
      | error e =>
        have refused : Step stripe ready (.insert d) (ready.enter d
            (if isUniqueViolation e then .acknowledged session else .failed session)) := by
          simp only [Step, step, before]
          cases violated : isUniqueViolation e <;> simp [ready, saved, violated]
        refine ⟨_, _, started.snoc refused, ?_, ?_⟩
        · simp [onCheckoutCompleted, passed, recorded, saved, ready]
        · cases violated : isUniqueViolation e <;>
            simp [onCheckoutCompleted, passed, recorded, saved, outcome, violated]

/-- The row a session is worth. -/
def topupGrant (session : StripeCheckoutSession) (id : String) (workspaceId : Uuid)
    (credits : Int) : NewGrant where
  workspaceId
  userId := session.userId
  reason := .topup
  bucket := .topup
  credits
  amountCents := session.amountTotal
  currency := session.currency
  stripeSessionId := some id

/-- In every interleaving a session is credited once, as soon as one delivery of it is
acknowledged; an unpaid or subscription session never is; and a delivery that fails was
failed by its database. -/
theorem topups_exactly_once {L : Ledger} {now : Instant} {steps : List (Transition State Action)}
    {s : State} (run : Run (Step stripe) (start L now) steps s) {id : String}
    (fresh : creditedBy L id = []) :
    (creditedBy s.ledger id).length ≤ 1 ∧
      (∀ workspaceId credits, Creditable (stripe id) id workspaceId credits →
        (∃ d, s.deliveries d = .acknowledged (stripe id)) → ∃ n : Int, (n : ℚ) = credits ∧
          (creditedBy s.ledger id).map (·.toNewGrant) =
            [topupGrant (stripe id) id workspaceId n]) ∧
      ((stripe id).mode = some "subscription" ∨
        truthy (stripe id).paymentStatus = true ∧ (stripe id).paymentStatus ≠ some "paid" →
        creditedBy s.ledger id = []) ∧
      ∀ d session, s.deliveries d = .failed session → ∃ x ∈ steps, DatabaseFailed d x := by
  have inv := run.invariant (invariant_start L now) fun _ _ _ inv taken => invariant_step inv taken
  have once := unique_length s.ledger.sessionKey id
  have credited : ∀ g ∈ creditedBy s.ledger id, ∃ topup credits,
      topupOf (stripe id) = some topup ∧ toInt32 topup.credits = some credits ∧
        g.toNewGrant = createGrant (topupInput topup credits) := by
    intro g hg
    obtain ⟨stored, keyed⟩ := List.mem_filter.mp hg
    obtain old | new := inv.rows g stored id (beq_iff_eq.mp keyed)
    · have known : g ∈ creditedBy L id := List.mem_filter.mpr ⟨old, keyed⟩
      rw [fresh] at known
      cases known
    · exact new
  refine ⟨once, ?_, ?_, fun d session failed => failed_run run d failed⟩
  · intro workspaceId credits valid completed
    obtain ⟨d, acknowledged⟩ := completed
    have passed := topupOf_creditable valid
    obtain ⟨g, stored, keyed⟩ := inv.done d (stripe id) _ acknowledged passed
    have member : g ∈ creditedBy s.ledger id :=
      List.mem_filter.mpr ⟨stored, beq_iff_eq.mpr keyed⟩
    obtain ⟨topup, n, passed', amount, row⟩ := credited g member
    cases passed.symm.trans passed'
    refine ⟨n, toInt32_finite amount, ?_⟩
    have single : creditedBy s.ledger id = [g] := by
      obtain ⟨h, only⟩ := List.length_eq_one_iff.mp
        (Nat.le_antisymm once (List.length_pos_of_mem member))
      change creditedBy s.ledger id = [h] at only
      rw [only] at member ⊢
      rw [List.mem_singleton.mp member]
    rw [single, List.map_singleton, row]
    rfl
  · intro unpaid
    apply List.eq_nil_iff_forall_not_mem.mpr
    intro g hg
    obtain ⟨topup, _, passed, _⟩ := credited g hg
    cases (topupOf_unpaid unpaid).symm.trans passed

def packSession : StripeCheckoutSession where
  id := some "cs_1"
  mode := some "payment"
  paymentStatus := some "paid"
  amountTotal := some 2000
  currency := some "usd"
  workspaceId := some 1
  credits := some "8000"

/-- Two deliveries of one session clear the check before either inserts. -/
def doubleDelivery : List Action :=
  [.receive 0 packSession, .receive 1 packSession, .check 0, .check 1, .insert 1, .insert 0]

theorem double_delivery_credits_once : ∃ steps s,
    Run (Step fun _ => packSession) (start Ledger.empty 0) steps s ∧ steps.length = 6 ∧
      ∃ n : Int, (n : ℚ) = 8000 ∧ (creditedBy s.ledger "cs_1").map (·.toNewGrant) =
        [topupGrant packSession "cs_1" 1 n] := by
  have outcome : ((follow (step fun _ => packSession) (start Ledger.empty 0) doubleDelivery).map
      fun r => (r.1.length, match r.2.deliveries 0 with
        | .acknowledged session => decide (session = packSession)
        | _ => false)) = some (6, true) := by decide +kernel
  obtain ⟨r, done, checked⟩ := Option.map_eq_some_iff.mp outcome
  obtain ⟨length, acknowledged⟩ := Prod.mk.inj checked
  have completed : r.2.deliveries 0 = .acknowledged packSession := by
    split at acknowledged
    · rename_i session phase
      rw [phase, of_decide_eq_true acknowledged]
    · cases acknowledged
  have valid : Creditable packSession "cs_1" 1 8000 :=
    ⟨rfl, by decide, rfl, by decide +kernel, by decide +kernel, by decide, fun _ => rfl⟩
  exact ⟨r.1, r.2, follow_run done, length,
    (topups_exactly_once (follow_run done) rfl).2.1 1 8000 valid ⟨0, completed⟩⟩

/-- No delivery is ever stuck on another. -/
theorem delivery_advances (s : State) {d : Nat} {session : StripeCheckoutSession} {topup : Topup} :
    (s.deliveries d = .guarded session topup → (step stripe s (.check d)).isSome) ∧
      (s.deliveries d = .checked session topup → (step stripe s (.insert d)).isSome) := by
  constructor
  · intro before
    simp only [step, before]
    split <;> rfl
  · intro before
    simp only [step, before]
    split
    · rfl
    · split <;> rfl

end Gomer.TopupRace
