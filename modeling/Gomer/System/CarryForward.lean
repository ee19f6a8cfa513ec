import Gomer.System.Conservation

/-! What is carried from one paid period into the next, over whole histories. A renewal
reads the closing period's grant through a filter on its expiry, so what it carries
depends on when the invoice is handled. -/
namespace Gomer

open Relational Drain Trace

namespace Ledger

variable (L : Ledger) (workspaceId : Uuid)

def rolloverGrants : List CreditGrant :=
  L.grants.filter fun g => g.workspaceId == workspaceId && g.bucket == .rollover

/-- The allowance of the period paid last. -/
def previousPlanGrant : Option CreditGrant := (L.planGrants workspaceId).getLast?

def leftOver : Int := ((L.previousPlanGrant workspaceId).map fun g => max 0 (L.remainingOn g)).getD 0

/-- Every PLAN grant expires before the next one does. -/
def InOrder : Prop := (L.planGrants workspaceId).Pairwise fun g h =>
  ∃ d e, g.expiresAt = some d ∧ h.expiresAt = some e ∧ d < e

end Ledger

/-- A new invoice pays for a period that ends after every earlier one, and only a
renewal grants into the PLAN bucket. -/
def NextPeriod (workspaceId : Uuid) (s : State) : Action → Prop
  | .applyRenewal subscription _ stripeInvoiceId periodEnd =>
    subscription.workspaceId = workspaceId → alreadyApplied s.db.ledger stripeInvoiceId = false →
      ∀ g ∈ s.db.ledger.planGrants workspaceId, ∃ e ∈ g.expiresAt, e < periodEnd
  | .grantCredits input => (createGrant input).bucket ≠ .plan
  | _ => True

instance (workspaceId : Uuid) (s : State) (a : Action) : Decidable (NextPeriod workspaceId s a) :=
  match a with
  | .applyRenewal subscription _ stripeInvoiceId periodEnd =>
    inferInstanceAs (Decidable (subscription.workspaceId = workspaceId →
      alreadyApplied s.db.ledger stripeInvoiceId = false →
      ∀ g ∈ s.db.ledger.planGrants workspaceId, ∃ e ∈ g.expiresAt, e < periodEnd))
  | .grantCredits input => inferInstanceAs (Decidable ((createGrant input).bucket ≠ .plan))
  | .insertEvent .. | .readGrants .. | .insertAllocations .. | .fail .. | .tick .. =>
    inferInstanceAs (Decidable True)

/-- The steps of one workspace's consecutive paid periods. -/
def historyStep (p : Pricing) (workspaceId : Uuid) (s : State) (a : Action) : Option State :=
  if NextPeriod workspaceId s a then step p s a else none

abbrev HistoryStep (p : Pricing) (workspaceId : Uuid) (s : State) (a : Action) (t : State) : Prop :=
  historyStep p workspaceId s a = some t

theorem historyStep_taken {p : Pricing} {workspaceId : Uuid} {s t : State} {a : Action}
    (taken : HistoryStep p workspaceId s a t) : Step p s a t ∧ NextPeriod workspaceId s a := by
  simp only [HistoryStep, historyStep] at taken
  split at taken
  · rename_i next
    exact ⟨taken, next⟩
  · cases taken

/-- What one applied renewal owes the workspace: a ROLLOVER grant of what was left of the
previous allowance until the new period ends, measured without any ROLLOVER grant. -/
def CarriesExactly (workspaceId : Uuid) (x : Transition State Action) : Prop :=
  ∀ subscription seats stripeInvoiceId periodEnd,
    x.label = .applyRenewal subscription seats stripeInvoiceId periodEnd →
    subscription.workspaceId = workspaceId → ∀ next result,
    applyRenewal x.pre.db x.pre.now seats subscription stripeInvoiceId periodEnd =
      (next, .ok result) → result.applied = true →
    (next.ledger.rolloverGrants workspaceId).map (·.toNewGrant) =
        (x.pre.db.ledger.rolloverGrants workspaceId).map (·.toNewGrant) ++
          (if x.pre.db.ledger.leftOver workspaceId > 0 then
            [rolloverGrant subscription periodEnd (x.pre.db.ledger.leftOver workspaceId)]
          else []) ∧
      result.rolledOver = unspentPlanCredits
        (x.pre.db.ledger.grants.filter fun g => g.bucket ≠ .rollover) x.pre.db.ledger.allocations
        workspaceId x.pre.now

/-- The closing allowance is still live and the join counts it once, with nothing left on
an older one; or it has expired with nothing left on it. -/
def MeasuredInTime (L : Ledger) (workspaceId : Uuid) (now : Instant) : Prop :=
  ∀ older previous, L.planGrants workspaceId = older ++ [previous] →
    if unexpired now previous then
      ((L.drawsOn previous).length ≤ 1 ∨ L.DrawnWhole previous) ∧
        ∀ g ∈ older, unexpired now g = true → L.DrawnWhole g
    else previous.credits ≤ L.spentOn previous.id

def AppliedInTime (workspaceId : Uuid) (x : Transition State Action) : Prop :=
  ∀ subscription seats stripeInvoiceId periodEnd,
    x.label = .applyRenewal subscription seats stripeInvoiceId periodEnd →
    subscription.workspaceId = workspaceId → (findPlan subscription.planId).isSome →
    alreadyApplied x.pre.db.ledger stripeInvoiceId = false →
    MeasuredInTime x.pre.db.ledger workspaceId x.pre.now

/-! The rows a renewal adds to one bucket -/

/-- Inserted rows picked out by their columns. -/
theorem filter_added {L next : Ledger} {added : List CreditGrant} {rows : List NewGrant}
    (grants : next.grants = L.grants ++ added) (columns : added.map (·.toNewGrant) = rows)
    (p : NewGrant → Bool) : ∃ picked, picked.map (·.toNewGrant) = rows.filter p ∧
      next.grants.filter (fun g => p g.toNewGrant) =
        L.grants.filter (fun g => p g.toNewGrant) ++ picked := by
  refine ⟨added.filter fun g => p g.toNewGrant, ?_, ?_⟩
  · rw [← columns, List.filter_map]
    rfl
  · rw [grants, List.filter_append]

theorem renewalGrants_plan (subscription : Subscription) (plan : SubscriptionPlan)
    (stripeInvoiceId : String) (periodEnd : Instant) (rolledOver seatBonus : Int)
    (workspaceId : Uuid) :
    (renewalGrants subscription plan stripeInvoiceId periodEnd rolledOver seatBonus).filter
        (fun g => g.workspaceId == workspaceId && g.bucket == .plan) =
      if subscription.workspaceId = workspaceId then
        [planGrant subscription plan stripeInvoiceId periodEnd] else [] := by
  unfold renewalGrants
  by_cases own : subscription.workspaceId = workspaceId <;> split <;> split <;>
    simp [rolloverGrant, planGrant, seatBonusGrant, own]

theorem renewalGrants_rollover {subscription : Subscription} {plan : SubscriptionPlan}
    (stripeInvoiceId : String) (periodEnd : Instant) (rolledOver seatBonus : Int)
    {workspaceId : Uuid} (own : subscription.workspaceId = workspaceId) :
    (renewalGrants subscription plan stripeInvoiceId periodEnd rolledOver seatBonus).filter
        (fun g => g.workspaceId == workspaceId && g.bucket == .rollover) =
      if rolledOver > 0 then [rolloverGrant subscription periodEnd rolledOver] else [] := by
  unfold renewalGrants
  split <;> split <;> simp [rolloverGrant, planGrant, seatBonusGrant, own]

/-- A step of a history leaves the PLAN grants alone or adds the next period's. -/
theorem history_planGrants {p : Pricing} {workspaceId : Uuid} {s t : State} {a : Action}
    (taken : HistoryStep p workspaceId s a t) :
    t.db.ledger.planGrants workspaceId = s.db.ledger.planGrants workspaceId ∨
    ∃ g e, t.db.ledger.planGrants workspaceId = s.db.ledger.planGrants workspaceId ++ [g] ∧
      g.expiresAt = some e ∧
      ∀ h ∈ s.db.ledger.planGrants workspaceId, ∃ d, h.expiresAt = some d ∧ d < e := by
  obtain ⟨step, next⟩ := historyStep_taken taken
  cases step_effect step with
  | none other same => left; rw [same]
  | charged call input label charge => left; rw [charge]; rfl
  | drawn call event live label phase grants events allocations =>
    left
    rw [Ledger.planGrants, grants]
    rfl
  | granted other added columns first positive grants events allocations =>
    obtain ⟨picked, rows, after⟩ := filter_added grants columns
      fun g => g.workspaceId == workspaceId && g.bucket == .plan
    have unchanged : picked = [] → t.db.ledger.planGrants workspaceId =
        s.db.ledger.planGrants workspaceId := by
      rintro rfl
      exact after.trans (List.append_nil _)
    cases a with
    | grantCredits input =>
      left
      apply unchanged
      have elsewhere : ¬ (createGrant input).bucket = .plan := next
      simpa [grantedRows, elsewhere] using rows
    | applyRenewal subscription seats stripeInvoiceId periodEnd =>
      simp only [grantedRows] at rows
      split at rows
      · rename_i plan found
        rw [renewalGrants_plan] at rows
        by_cases own : subscription.workspaceId = workspaceId
        · right
          rw [if_pos own] at rows
          obtain ⟨g, rfl, row⟩ := List.map_eq_singleton_iff.mp rows
          have expiry : g.expiresAt = some periodEnd := by
            have columns := congrArg NewGrant.expiresAt row
            exact columns
          exact ⟨g, periodEnd, after, expiry, next own first⟩
        · left
          apply unchanged
          simpa [own] using rows
      · left
        apply unchanged
        simpa using rows
    | _ =>
      left
      apply unchanged
      simpa [grantedRows] using rows

theorem inOrder_step {p : Pricing} {workspaceId : Uuid} {s t : State} {a : Action}
    (ordered : s.db.ledger.InOrder workspaceId) (taken : HistoryStep p workspaceId s a t) :
    t.db.ledger.InOrder workspaceId := by
  unfold Ledger.InOrder
  obtain same | ⟨g, e, grants, expiry, later⟩ := history_planGrants taken
  · rw [same]
    exact ordered
  · rw [grants]
    apply List.pairwise_append.mpr
    refine ⟨ordered, List.pairwise_singleton _ _, ?_⟩
    intro h hh k hk
    rw [List.mem_singleton.mp hk]
    obtain ⟨d, earlier, before⟩ := later h hh
    exact ⟨d, e, earlier, expiry, before⟩

/-! What the query measures against what is left -/

/-- The join counts a live grant exactly once when it was drawn on at most once. -/
theorem measured_eq_left_iff {L : Ledger} (sound : SoundDraws L) {g : CreditGrant}
    (hg : g ∈ L.grants) : max 0 (L.remainingOn g) ≤ L.measured g ∧
      (L.measured g = max 0 (L.remainingOn g) ↔ (L.drawsOn g).length ≤ 1 ∨ L.DrawnWhole g) := by
  have credits := sound.positive g hg
  have counted := Ledger.measured_nonneg sound hg
  have whole := Ledger.measured_eq_zero_iff sound hg
  by_cases once : (L.drawsOn g).length ≤ 1
  · have one : max 1 ((L.drawsOn g).length : Int) = 1 := by omega
    have same : L.measured g = L.remainingOn g := by
      rw [Ledger.measured, one, one_mul]
      rfl
    rw [same] at counted ⊢
    refine ⟨by omega, iff_of_true (by omega) (.inl once)⟩
  · -- A second draw makes the query count the grant a second time.
    have twice : L.remainingOn g + g.credits ≤ L.measured g := by
      have many : 2 * g.credits ≤ max 1 ((L.drawsOn g).length : Int) * g.credits :=
        Int.mul_le_mul_of_nonneg_right (by omega) (Int.le_of_lt credits)
      unfold Ledger.measured Ledger.remainingOn
      omega
    refine ⟨by omega, ?_⟩
    rw [← whole]
    constructor
    · intro same
      right
      omega
    · rintro (few | none)
      · exact absurd few once
      · omega

theorem measuredInTime_last {L : Ledger} {workspaceId : Uuid} {now : Instant}
    {older : List CreditGrant} {previous : CreditGrant}
    (last : L.planGrants workspaceId = older ++ [previous]) :
    MeasuredInTime L workspaceId now ↔ if unexpired now previous then
      ((L.drawsOn previous).length ≤ 1 ∨ L.DrawnWhole previous) ∧
        ∀ g ∈ older, unexpired now g = true → L.DrawnWhole g
      else previous.credits ≤ L.spentOn previous.id := by
  constructor
  · intro inTime
    exact inTime older previous last
  · intro inTime older' previous' last'
    obtain ⟨rfl, rfl⟩ := List.append_singleton_inj.mp (last.symm.trans last')
    exact inTime

/-- The allowances before an expired one have expired as well. -/
theorem expired_through_last {L : Ledger} {workspaceId : Uuid} {now : Instant}
    {older : List CreditGrant} {previous : CreditGrant} (order : L.InOrder workspaceId)
    (last : L.planGrants workspaceId = older ++ [previous])
    (expired : unexpired now previous = false) :
    (older ++ [previous]).filter (unexpired now) = [] := by
  unfold Ledger.InOrder at order
  rw [last] at order
  obtain ⟨_, _, before⟩ := List.pairwise_append.mp order
  apply List.filter_eq_nil_iff.mpr
  intro g hg
  rcases List.mem_append.mp hg with hg | hg
  · obtain ⟨d, e, gone, expiry, earlier⟩ := before g hg previous List.mem_cons_self
    simp only [unexpired, expiry, gone, decide_eq_false_iff_not, decide_eq_true_eq] at expired ⊢
    intro soon
    exact expired (Int.lt_trans soon earlier)
  · rw [List.mem_singleton.mp hg, expired]
    exact Bool.false_ne_true

/-- A live last allowance is measured right where it is and the older ones measure nothing. -/
theorem measured_live_iff {L : Ledger} (sound : SoundDraws L) {now : Instant}
    {older : List CreditGrant} {previous : CreditGrant}
    (stored : ∀ g ∈ older ++ [previous], g ∈ L.grants) :
    max 0 (((older.filter (unexpired now)).map L.measured).sum + L.measured previous) =
        max 0 (L.remainingOn previous) ↔
      ((L.drawsOn previous).length ≤ 1 ∨ L.DrawnWhole previous) ∧
        ∀ g ∈ older, unexpired now g = true → L.DrawnWhole g := by
  have kept : ∀ g ∈ older.filter (unexpired now), g ∈ L.grants := fun g hg =>
    stored g (List.mem_append_left _ (List.mem_filter.mp hg).1)
  have olders := sum_map_nonneg L.measured _ fun g hg => Ledger.measured_nonneg sound (kept g hg)
  have zero := sum_map_eq_zero_iff L.measured _ fun g hg =>
    Ledger.measured_nonneg sound (kept g hg)
  obtain ⟨atLeast, exact_iff⟩ := measured_eq_left_iff sound
    (stored previous (List.mem_append_right _ List.mem_cons_self))
  rw [← exact_iff]
  constructor
  · intro total
    refine ⟨by omega, fun g hg alive => ?_⟩
    have member := List.mem_filter.mpr ⟨hg, alive⟩
    exact (Ledger.measured_eq_zero_iff sound (kept g member)).mp (zero.mp (by omega) g member)
  · rintro ⟨once, whole⟩
    have nothing := zero.mpr fun g hg => by
      obtain ⟨member, alive⟩ := List.mem_filter.mp hg
      exact (Ledger.measured_eq_zero_iff sound (kept g hg)).mpr (whole g member alive)
    omega

theorem unspent_eq_leftOver_iff {L : Ledger} (sound : SoundDraws L) {workspaceId : Uuid}
    (order : L.InOrder workspaceId) (now : Instant) :
    unspentPlanCredits L.grants L.allocations workspaceId now = L.leftOver workspaceId ↔
      MeasuredInTime L workspaceId now := by
  rw [unspentPlanCredits_eq]
  rcases List.eq_nil_or_concat' (L.planGrants workspaceId) with none | ⟨older, previous, last⟩
  · have nothing : L.leftOver workspaceId = 0 := by
      simp [Ledger.leftOver, Ledger.previousPlanGrant, none]
    rw [nothing, none]
    refine iff_of_true rfl ?_
    intro older previous last
    rw [none] at last
    simp at last
  · have stored : ∀ g ∈ L.planGrants workspaceId, g ∈ L.grants :=
      fun g hg => (List.mem_filter.mp hg).1
    have left : L.leftOver workspaceId = max 0 (L.remainingOn previous) := by
      simp [Ledger.leftOver, Ledger.previousPlanGrant, last]
    rw [last] at stored
    rw [measuredInTime_last last, left, last]
    cases live : unexpired now previous with
    | true =>
      have own : ([previous].filter (unexpired now)).map L.measured = [L.measured previous] := by
        simp [live]
      rw [List.filter_append, List.map_append, List.sum_append, own, List.sum_singleton, if_pos rfl]
      exact measured_live_iff sound stored
    | false =>
      rw [expired_through_last order last live]
      simp only [List.map_nil, List.sum_nil, Bool.false_eq_true, if_false, Ledger.remainingOn]
      omega

/-- Rows of one shape with different amounts are different, and none is added for zero. -/
theorem rollover_rows_iff (subscription : Subscription) (periodEnd : Instant) {m n : Int}
    (hm : 0 ≤ m) (hn : 0 ≤ n) :
    (if m > 0 then [rolloverGrant subscription periodEnd m] else []) =
      (if n > 0 then [rolloverGrant subscription periodEnd n] else []) ↔ m = n := by
  constructor
  · intro same
    split at same <;> split at same
    · exact congrArg NewGrant.credits (List.singleton_inj.mp same)
    · cases same
    · cases same
    · omega
  · rintro rfl
    rfl

theorem leftOver_nonneg (L : Ledger) (workspaceId : Uuid) : 0 ≤ L.leftOver workspaceId := by
  unfold Ledger.leftOver
  cases L.previousPlanGrant workspaceId with
  | none => exact Int.le_refl 0
  | some g => exact Int.le_max_left _ _

/-- The rollover query does not see a ROLLOVER grant. -/
theorem unspent_without_rollover (L : Ledger) (workspaceId : Uuid) (now : Instant) :
    unspentPlanCredits (L.grants.filter fun g => g.bucket ≠ .rollover) L.allocations workspaceId
      now = unspentPlanCredits L.grants L.allocations workspaceId now := by
  have same : (L.grants.filter fun g => g.bucket ≠ .rollover).filter (fun g =>
      g.workspaceId == workspaceId && g.bucket == .plan && unexpired now g) =
      L.grants.filter fun g =>
        g.workspaceId == workspaceId && g.bucket == .plan && unexpired now g := by
    rw [List.filter_filter]
    apply List.filter_congr
    intro g _
    cases g.bucket <;> simp
  have joined := fun grants => leftJoin_filter onGrant (fun g =>
    g.workspaceId == workspaceId && g.bucket == .plan && unexpired now g) grants L.allocations
  unfold unspentPlanCredits
  simp only [joined, same]

/-- A renewal appends one ROLLOVER row for what its query measured. -/
theorem applyRenewal_rollover {db next : Database} {now : Instant} {seats : Int}
    {subscription : Subscription} {stripeInvoiceId : String} {periodEnd : Instant}
    {result : RenewalResult}
    (done : applyRenewal db now seats subscription stripeInvoiceId periodEnd = (next, .ok result))
    (applied : result.applied = true) :
    result.rolledOver = unspentPlanCredits db.ledger.grants db.ledger.allocations
        subscription.workspaceId now ∧
      (next.ledger.rolloverGrants subscription.workspaceId).map (·.toNewGrant) =
        (db.ledger.rolloverGrants subscription.workspaceId).map (·.toNewGrant) ++
          (if result.rolledOver > 0 then
            [rolloverGrant subscription periodEnd result.rolledOver] else []) := by
  obtain ⟨plan, _, _, outcome, saved, _⟩ := applyRenewal_applied done applied
  obtain ⟨added, grants, columns, _⟩ := Ledger.saveGrants_ok saved
  obtain ⟨picked, rows, after⟩ := filter_added grants columns
    fun g => g.workspaceId == subscription.workspaceId && g.bucket == .rollover
  rw [renewalGrants_rollover _ _ _ _ rfl] at rows
  refine ⟨by rw [outcome], ?_⟩
  rw [Ledger.rolloverGrants, after, List.map_append, rows]
  rfl

theorem carries_iff {workspaceId : Uuid} {s t : State} {a : Action}
    (sound : SoundState s) (order : s.db.ledger.InOrder workspaceId) :
    CarriesExactly workspaceId ⟨s, a, t⟩ ↔ AppliedInTime workspaceId ⟨s, a, t⟩ := by
  have carried := unspent_eq_leftOver_iff sound.draws order s.now
  constructor
  · intro exact subscription seats stripeInvoiceId periodEnd label own known first
    obtain ⟨plan, found⟩ := Option.isSome_iff_exists.mp known
    obtain ⟨next, done⟩ := applyRenewal_first found first
    obtain ⟨rows, _⟩ := exact _ _ _ _ label own _ _ done rfl
    obtain ⟨measured, added⟩ := applyRenewal_rollover done rfl
    rw [own] at measured added
    have same := List.append_cancel_left (added.symm.trans rows)
    apply carried.mp
    rw [← measured]
    exact (rollover_rows_iff subscription periodEnd (by rw [measured]; exact le_max_left _ _)
      (leftOver_nonneg _ _)).mp same
  · intro inTime subscription seats stripeInvoiceId periodEnd label own next result done applied
    obtain ⟨plan, found, first, _⟩ := applyRenewal_applied done applied
    have left := carried.mpr
      (inTime _ _ _ _ label own (Option.isSome_iff_exists.mpr ⟨plan, found⟩) first)
    obtain ⟨measured, added⟩ := applyRenewal_rollover done applied
    rw [own] at measured added
    constructor
    · rw [added, measured, left]
    · rw [measured, unspent_without_rollover]

/-- In every history of a workspace, each renewal carries exactly what was left of the
previous allowance if and only if each finds it live and counted once, or fully spent. -/
theorem carries_exactly_iff {p : Pricing} {now : Instant} {workspaceId : Uuid}
    {steps : List (Transition State Action)} {s : State}
    (run : Run (HistoryStep p workspaceId) (State.start Database.empty now) steps s) :
    (∀ x ∈ steps, CarriesExactly workspaceId x) ↔ ∀ x ∈ steps, AppliedInTime workspaceId x := by
  refine run.forall_iff (I := fun s => SoundState s ∧ s.db.ledger.InOrder workspaceId)
    (CarriesExactly workspaceId) (AppliedInTime workspaceId) ?_ ?_ ?_
  · exact ⟨soundState_start now, List.Pairwise.nil⟩
  · intro s a t holds taken
    exact ⟨soundState_step holds.1 (historyStep_taken taken).1, inOrder_step holds.2 taken⟩
  · intro s a t holds _
    exact carries_iff holds.1 holds.2

/-- A renewal that carried nothing although the last allowance was not spent. -/
def lostLeftOver (x : Transition State Action) : Bool :=
  match x.label with
  | .applyRenewal subscription seats stripeInvoiceId periodEnd =>
    match applyRenewal x.pre.db x.pre.now seats subscription stripeInvoiceId periodEnd with
    | (next, .ok result) => result.applied && decide (subscription.workspaceId = 1) &&
        decide (x.pre.db.ledger.leftOver 1 > 0) && decide (next.ledger.rolloverGrants 1 = [])
    | _ => false
  | _ => false

theorem lostLeftOver_uncarried {x : Transition State Action} (lost : lostLeftOver x = true) :
    ¬ CarriesExactly 1 x := by
  intro carries
  unfold lostLeftOver at lost
  split at lost
  · rename_i subscription seats stripeInvoiceId periodEnd label
    split at lost
    · rename_i next result done
      simp only [Bool.and_eq_true, decide_eq_true_eq] at lost
      obtain ⟨⟨⟨applied, own⟩, left⟩, none⟩ := lost
      obtain ⟨rows, _⟩ := carries _ _ _ _ label own next result done applied
      simp [none, left] at rows
    · cases lost
  · cases lost

/-- Two consecutive periods, the second paid at a given instant. -/
def twoPeriods (delivered : Instant) : List Action :=
  [.applyRenewal starterSubscription 1 "in_1" 100, .tick delivered,
    .applyRenewal starterSubscription 1 "in_2" 200]

/-- Delivered at the very end of the first period, its invoice carries nothing of the
20000 credits that were left. -/
theorem left_over_lost : ∃ steps s,
    Run (HistoryStep exactPricing 1) (State.start Database.empty 0) steps s ∧
      ¬ ∀ x ∈ steps, CarriesExactly 1 x := by
  have outcome : ((follow (historyStep exactPricing 1) (State.start Database.empty 0)
      (twoPeriods 100)).map fun r => r.1.any lostLeftOver) = some true := by decide +kernel
  obtain ⟨r, done, lost⟩ := Option.map_eq_some_iff.mp outcome
  obtain ⟨x, hx, uncarried⟩ := List.any_eq_true.mp lost
  exact ⟨r.1, r.2, follow_run done, fun carries => lostLeftOver_uncarried uncarried (carries x hx)⟩

theorem two_periods_carry : ∃ steps s,
    Run (HistoryStep exactPricing 1) (State.start Database.empty 0) steps s ∧ steps.length = 3 ∧
      ((∀ x ∈ steps, CarriesExactly 1 x) ↔ ∀ x ∈ steps, AppliedInTime 1 x) := by
  have outcome : ((follow (historyStep exactPricing 1) (State.start Database.empty 0)
      (twoPeriods 50)).map fun r => r.1.length) = some 3 := by decide +kernel
  obtain ⟨r, done, length⟩ := Option.map_eq_some_iff.mp outcome
  exact ⟨r.1, r.2, follow_run done, length, carries_exactly_iff (follow_run done)⟩

end Gomer
