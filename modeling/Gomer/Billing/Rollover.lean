import Gomer.Billing.Subscriptions

/-! What a renewal carries forward and what it does to the live balance. The rollover
query joins without grouping, so it counts a grant once for each draw on it. -/
namespace Gomer

open Relational Drain

/-- Every draw is positive and within the grant it is made on; the grants may still be
overdrawn by several of them together. -/
structure SoundDraws (L : Ledger) : Prop where
  positive : ∀ g ∈ L.grants, 0 < g.credits
  drawn : ∀ a ∈ L.allocations, 0 < a.credits
  bounded : ∀ g ∈ L.grants, ∀ a ∈ L.allocations, a.grantId = g.id → a.credits ≤ g.credits

namespace Ledger

variable (L : Ledger)

def drawsOn (g : CreditGrant) : List CreditAllocation := L.allocations.filter (onGrant g)

/-- Drawn on, and never for less than the whole grant. -/
def DrawnWhole (g : CreditGrant) : Prop :=
  L.drawsOn g ≠ [] ∧ ∀ a ∈ L.drawsOn g, a.credits = g.credits

instance (g : CreditGrant) : Decidable (L.DrawnWhole g) :=
  inferInstanceAs (Decidable (_ ∧ _))

def planGrants (workspaceId : Uuid) : List CreditGrant :=
  L.grants.filter fun g => g.workspaceId == workspaceId && g.bucket == .plan

/-- What the rollover query counts of one grant. -/
def measured (g : CreditGrant) : Int :=
  max 1 ((L.drawsOn g).length : Int) * g.credits - L.spentOn g.id

variable {L}

theorem spentOn_nonneg (sound : SoundDraws L) (grant : Uuid) : 0 ≤ L.spentOn grant := by
  apply sum_map_nonneg
  intro a ha
  exact Int.le_of_lt (sound.drawn a (List.mem_filter.mp ha).1)

theorem mem_drawsOn {g : CreditGrant} {a : CreditAllocation} :
    a ∈ L.drawsOn g ↔ a ∈ L.allocations ∧ a.grantId = g.id := by
  simp [drawsOn, onGrant]

theorem measured_of_undrawn {g : CreditGrant} (undrawn : L.drawsOn g = []) :
    L.measured g = g.credits := by
  have spent : L.spentOn g.id = ((L.drawsOn g).map (·.credits)).sum := rfl
  simp [measured, spent, undrawn]

/-- Of a grant that was drawn on, the query counts what each draw left of it. -/
theorem measured_of_drawn {g : CreditGrant} (drawn : L.drawsOn g ≠ []) :
    L.measured g = ((L.drawsOn g).map fun a => g.credits - a.credits).sum := by
  have some : 0 < (L.drawsOn g).length := List.length_pos_iff.mpr drawn
  have atLeast : max 1 ((L.drawsOn g).length : Int) = (L.drawsOn g).length := by omega
  have left : ∀ draws : List CreditAllocation, (draws.map fun a => g.credits - a.credits).sum =
      draws.length * g.credits - (draws.map (·.credits)).sum := by
    intro draws
    induction draws with
    | nil => simp
    | cons a draws ih =>
      simp only [List.map_cons, List.sum_cons, List.length_cons, ih, Nat.cast_succ]
      ring
  rw [left, measured, atLeast]
  rfl

theorem left_nonneg (sound : SoundDraws L) {g : CreditGrant} (hg : g ∈ L.grants) :
    ∀ a ∈ L.drawsOn g, 0 ≤ g.credits - a.credits := by
  intro a ha
  obtain ⟨member, same⟩ := mem_drawsOn.mp ha
  exact Int.sub_nonneg_of_le (sound.bounded g hg a member same)

theorem measured_nonneg (sound : SoundDraws L) {g : CreditGrant} (hg : g ∈ L.grants) :
    0 ≤ L.measured g := by
  by_cases drawn : L.drawsOn g = []
  · rw [measured_of_undrawn drawn]
    exact Int.le_of_lt (sound.positive g hg)
  · rw [measured_of_drawn drawn]
    exact sum_map_nonneg _ _ (left_nonneg sound hg)

theorem measured_eq_zero_iff (sound : SoundDraws L) {g : CreditGrant} (hg : g ∈ L.grants) :
    L.measured g = 0 ↔ L.DrawnWhole g := by
  by_cases drawn : L.drawsOn g = []
  · have credits := sound.positive g hg
    rw [measured_of_undrawn drawn]
    constructor
    · intro none
      omega
    · intro whole
      exact absurd drawn whole.1
  · have nonneg := left_nonneg sound hg
    have total := sum_map_nonneg (fun a : CreditAllocation => g.credits - a.credits) _ nonneg
    have zero := sum_map_eq_zero_iff (fun a : CreditAllocation => g.credits - a.credits) _ nonneg
    rw [measured_of_drawn drawn]
    constructor
    · intro none
      refine ⟨drawn, fun a ha => ?_⟩
      have left := zero.mp (Int.le_of_eq none) a ha
      omega
    · intro whole
      have nothing : ∀ a ∈ L.drawsOn g, g.credits - a.credits = 0 := by
        intro a ha
        have all := whole.2 a ha
        omega
      have none := zero.mpr nothing
      omega

end Ledger

/-- The query counts every live PLAN grant, once per draw. -/
theorem unspentPlanCredits_eq (L : Ledger) (workspaceId : Uuid) (now : Instant) :
    unspentPlanCredits L.grants L.allocations workspaceId now =
      max 0 (((L.planGrants workspaceId).filter (unexpired now)).map L.measured).sum := by
  have picked : (L.grants.filter fun g =>
      g.workspaceId == workspaceId && g.bucket == .plan && unexpired now g) =
      (L.planGrants workspaceId).filter (unexpired now) := by
    rw [Ledger.planGrants, List.filter_filter]
    apply List.filter_congr
    intro g _
    rw [Bool.and_comm]
  have joined := leftJoin_filter onGrant
    (fun g => g.workspaceId == workspaceId && g.bucket == .plan && unexpired now g)
    L.grants L.allocations
  have split : ∀ gs : List CreditGrant, (gs.map L.measured).sum =
      (gs.map fun g => max 1 ((L.drawsOn g).length : Int) * g.credits).sum -
        (gs.map fun g => L.spentOn g.id).sum := by
    intro gs
    induction gs with
    | nil => rfl
    | cons g gs ih =>
      simp only [List.map_cons, List.sum_cons, ih, Ledger.measured]
      ring
  have credits : ∀ g, ((joinRow onGrant L.allocations g).map fun r => r.1.credits).sum =
      max 1 ((L.drawsOn g).length : Int) * g.credits :=
    fun g => joinRow_sum_left onGrant L.allocations g (·.credits)
  have spent : ∀ g, ((joinRow onGrant L.allocations g).map
      fun r => (r.2.map (·.credits)).getD 0).sum = L.spentOn g.id :=
    fun g => joinRow_sum_right onGrant L.allocations g (·.credits)
  unfold unspentPlanCredits
  simp only [joined, picked, coalesce_sum, Option.getD_some, leftJoin_sum, credits, spent, split]

/-- Nothing is carried exactly when every live PLAN grant was drawn whole. -/
theorem unspentPlanCredits_eq_zero_iff {L : Ledger} (sound : SoundDraws L) (workspaceId : Uuid)
    (now : Instant) : unspentPlanCredits L.grants L.allocations workspaceId now = 0 ↔
      ∀ g ∈ L.planGrants workspaceId, unexpired now g = true → L.DrawnWhole g := by
  have stored : ∀ g ∈ (L.planGrants workspaceId).filter (unexpired now), g ∈ L.grants := by
    intro g hg
    exact (List.mem_filter.mp (List.mem_filter.mp hg).1).1
  have zero := sum_map_eq_zero_iff L.measured ((L.planGrants workspaceId).filter (unexpired now))
    fun g hg => Ledger.measured_nonneg sound (stored g hg)
  rw [unspentPlanCredits_eq]
  constructor
  · intro none g hg live
    have member := List.mem_filter.mpr ⟨hg, live⟩
    have counted := zero.mp (by omega) g member
    exact (Ledger.measured_eq_zero_iff sound (stored g member)).mp counted
  · intro whole
    have nothing := zero.mpr fun g hg => by
      have member := List.mem_filter.mp hg
      exact (Ledger.measured_eq_zero_iff sound (stored g hg)).mpr (whole g member.1 member.2)
    omega

/-! The balance across a renewal -/

theorem holding_fresh {L next : Ledger} {added : List CreditGrant}
    (grants : next.grants = L.grants ++ added) (allocations : next.allocations = L.allocations)
    (positive : ∀ g ∈ added, 0 < g.credits) :
    holding next.remainingOn added = (added.map (·.credits)).sum := by
  unfold holding
  congr 1
  apply List.map_congr_left
  intro g hg
  have credits := positive g hg
  rw [Ledger.remainingOn, Ledger.spentOn_added grants allocations hg]
  omega

theorem liveBalance_added {L next : Ledger} {added : List CreditGrant} {workspaceId : Uuid}
    {now : Instant} (grants : next.grants = L.grants ++ added)
    (allocations : next.allocations = L.allocations) (positive : ∀ g ∈ added, 0 < g.credits)
    (live : ∀ g ∈ added, g.workspaceId = workspaceId ∧ unexpired now g = true) :
    next.liveBalance workspaceId now =
      L.liveBalance workspaceId now + (added.map (·.credits)).sum := by
  have own : added.filter (fun g => g.workspaceId == workspaceId && unexpired now g) = added := by
    apply List.filter_eq_self.mpr
    intro g hg
    simp [live g hg]
  have kept : next.remainingOn = L.remainingOn := by
    funext g
    rw [Ledger.remainingOn, Ledger.remainingOn, Ledger.spentOn_congr allocations]
  have fresh := holding_fresh grants allocations positive
  rw [kept] at fresh
  unfold Ledger.liveBalance
  rw [kept, grants, List.filter_append, holding_append, own, fresh]

theorem renewalGrants_total (subscription : Subscription) (plan : SubscriptionPlan)
    (stripeInvoiceId : String) (periodEnd : Instant) {rolledOver seatBonus : Int}
    (rolled : 0 ≤ rolledOver) (bonus : 0 ≤ seatBonus) :
    ((renewalGrants subscription plan stripeInvoiceId periodEnd rolledOver seatBonus).map
      (·.credits)).sum = rolledOver + plan.monthlyCredits + seatBonus := by
  unfold renewalGrants
  split <;> split <;> simp [rolloverGrant, planGrant, seatBonusGrant] <;> omega

theorem renewalGrants_live {subscription : Subscription} {plan : SubscriptionPlan}
    {stripeInvoiceId : String} {periodEnd : Instant} {rolledOver seatBonus : Int} {row : NewGrant}
    (h : row ∈ renewalGrants subscription plan stripeInvoiceId periodEnd rolledOver seatBonus) :
    row.workspaceId = subscription.workspaceId ∧
      (row.expiresAt = some periodEnd ∨ row.expiresAt = none) := by
  simp only [renewalGrants, List.mem_append, List.mem_singleton] at h
  obtain (h | rfl) | h := h
  · split at h
    · rw [List.mem_singleton.mp h]
      exact ⟨rfl, .inl rfl⟩
    · cases h
  · exact ⟨rfl, .inl rfl⟩
  · split at h
    · rw [List.mem_singleton.mp h]
      exact ⟨rfl, .inr rfl⟩
    · cases h

/-- A renewal adds what it grants: the carried credits stay on the old grant as well. -/
theorem applyRenewal_balance {db next : Database} {now : Instant} {seats : Int}
    {subscription : Subscription} {plan : SubscriptionPlan} {stripeInvoiceId : String}
    {periodEnd : Instant} {result : RenewalResult}
    (done : applyRenewal db now seats subscription stripeInvoiceId periodEnd = (next, .ok result))
    (applied : result.applied = true) (found : findPlan subscription.planId = some plan)
    (future : now < periodEnd) :
    next.ledger.liveBalance subscription.workspaceId now =
      db.ledger.liveBalance subscription.workspaceId now +
        unspentPlanCredits db.ledger.grants db.ledger.allocations subscription.workspaceId now +
        plan.monthlyCredits + seatBonusFor seats := by
  obtain ⟨plan', found', _, rfl, saved, _⟩ := applyRenewal_applied done applied
  cases found.symm.trans found'
  obtain ⟨added, grants, columns, _, _, allocations⟩ := Ledger.saveGrants_ok saved
  have inserted : ∀ g ∈ added, g.toNewGrant ∈ added.map (·.toNewGrant) :=
    fun g hg => List.mem_map_of_mem hg
  rw [columns] at inserted
  have live : ∀ g ∈ added, g.workspaceId = subscription.workspaceId ∧ unexpired now g = true := by
    intro g hg
    obtain ⟨own, expiry | expiry⟩ := renewalGrants_live (inserted g hg)
    · exact ⟨own, by simp [unexpired, expiry, future]⟩
    · exact ⟨own, by simp [unexpired, expiry]⟩
  have credits : (added.map (·.credits)).sum =
      ((added.map (·.toNewGrant)).map (·.credits)).sum := by
    rw [List.map_map]
    rfl
  rw [liveBalance_added grants allocations
    (fun g hg => renewalGrants_pos (findPlan_pos found) _ (inserted g hg)) live, credits, columns,
    renewalGrants_total _ _ _ _ (unspentPlanCredits_nonneg ..) (seatBonusFor_nonneg seats)]
  ring

end Gomer
