import Gomer.Billing.Rollover
import Gomer.Usage.Atomicity

/-! How far the rollover query is off, on any ledger. Its join repeats a grant for each draw on it
after the first, and the figure it makes becomes a ROLLOVER grant. -/
namespace Gomer

open Relational Drain

namespace Ledger

variable (L : Ledger) (workspaceId : Uuid) (now : Instant)

def livePlanGrants : List CreditGrant := (L.planGrants workspaceId).filter (unexpired now)

/-- The credits of the live allowances less all that points at them. -/
def unspent : Int := ((L.livePlanGrants workspaceId now).map L.remainingOn).sum

/-- The credits of a grant once more for each draw after the first. -/
def repeated (g : CreditGrant) : Int := ((L.drawsOn g).length - 1 : Nat) * g.credits

def overcount : Int := ((L.livePlanGrants workspaceId now).map L.repeated).sum

/-- What several draws together took beyond their grant. -/
def overdrawn : Int := ((L.livePlanGrants workspaceId now).map fun g =>
  max 0 (L.spentOn g.id - g.credits)).sum

variable {L}

theorem measured_eq (g : CreditGrant) : L.measured g = L.remainingOn g + L.repeated g := by
  have copies : max 1 ((L.drawsOn g).length : Int) = 1 + ((L.drawsOn g).length - 1 : Nat) := by
    omega
  rw [measured, remainingOn, repeated, copies]
  ring

theorem measured_sum (gs : List CreditGrant) :
    (gs.map L.measured).sum = (gs.map L.remainingOn).sum + (gs.map L.repeated).sum := by
  induction gs with
  | nil => rfl
  | cons g gs ih =>
    simp only [List.map_cons, List.sum_cons, ih, measured_eq]
    omega

/-- A floor under each grant instead of one under their sum. -/
theorem holding_eq (gs : List CreditGrant) : holding L.remainingOn gs =
    (gs.map L.remainingOn).sum + (gs.map fun g => max 0 (L.spentOn g.id - g.credits)).sum := by
  unfold holding
  induction gs with
  | nil => rfl
  | cons g gs ih =>
    have floored : max 0 (L.remainingOn g) =
        L.remainingOn g + max 0 (L.spentOn g.id - g.credits) := by
      rw [remainingOn]
      omega
    simp only [List.map_cons, List.sum_cons, ih, floored]
    omega

theorem holding_nonneg (gs : List CreditGrant) : 0 ≤ holding L.remainingOn gs :=
  sum_map_nonneg _ _ fun g _ => le_max_left 0 (L.remainingOn g)

end Ledger

theorem unspentPlanCredits_overcounts (L : Ledger) (workspaceId : Uuid) (now : Instant) :
    unspentPlanCredits L.grants L.allocations workspaceId now =
      max 0 (L.unspent workspaceId now + L.overcount workspaceId now) := by
  rw [unspentPlanCredits_eq]
  exact congrArg (max 0) (Ledger.measured_sum _)

/-- Allowances are positive, so nothing is counted twice only where nothing was drawn twice. -/
theorem overcount_eq_zero_iff {L : Ledger} (sound : SoundDraws L) (workspaceId : Uuid)
    (now : Instant) : L.overcount workspaceId now = 0 ↔
      ∀ g ∈ L.livePlanGrants workspaceId now, (L.drawsOn g).length ≤ 1 := by
  have stored : ∀ g ∈ L.livePlanGrants workspaceId now, 0 < g.credits := fun g hg =>
    sound.positive g (List.mem_filter.mp (List.mem_filter.mp hg).1).1
  have nonneg : ∀ g ∈ L.livePlanGrants workspaceId now, 0 ≤ L.repeated g := fun g hg =>
    Int.mul_nonneg (Int.natCast_nonneg _) (Int.le_of_lt (stored g hg))
  have once (g : CreditGrant) (hg : g ∈ L.livePlanGrants workspaceId now) :
      L.repeated g = 0 ↔ (L.drawsOn g).length ≤ 1 := by
    have credits := stored g hg
    rw [Ledger.repeated, Int.mul_eq_zero]
    omega
  have total := sum_map_nonneg _ _ nonneg
  have zero := sum_map_eq_zero_iff _ _ nonneg
  rw [← forall₂_congr once, ← zero, Ledger.overcount]
  omega

/-- The figure is what is left of the live allowances, under one floor or under a floor for each
grant, exactly when what the join repeats adds nothing or is swallowed by the floor. -/
theorem unspentPlanCredits_exact_iff (L : Ledger) (workspaceId : Uuid) (now : Instant) :
    (unspentPlanCredits L.grants L.allocations workspaceId now =
        max 0 (L.unspent workspaceId now) ↔
      L.overcount workspaceId now = 0 ∨ L.unspent workspaceId now ≤ 0 ∧
        L.unspent workspaceId now + L.overcount workspaceId now ≤ 0) ∧
    (unspentPlanCredits L.grants L.allocations workspaceId now =
        holding L.remainingOn (L.livePlanGrants workspaceId now) ↔
      L.overcount workspaceId now = L.overdrawn workspaceId now ∨
        L.unspent workspaceId now + L.overdrawn workspaceId now = 0 ∧
          L.unspent workspaceId now + L.overcount workspaceId now ≤ 0) := by
  have floored := Ledger.holding_eq (L := L) (L.livePlanGrants workspaceId now)
  have nonneg := Ledger.holding_nonneg (L := L) (L.livePlanGrants workspaceId now)
  rw [← Ledger.unspent, ← Ledger.overdrawn] at floored
  rw [unspentPlanCredits_overcounts]
  constructor <;> omega

/-- The first period paid, and two runs of 12 credits charged to it. -/
def chargedTwice : Ledger :=
  let charge (L : Ledger) : Ledger :=
    recordUsage exactPricing (fun _ => none) .table L 0 sampleRun
  charge (charge (applyRenewal Database.empty 0 1 starterSubscription "in_1" 100).1.ledger)

/-- 19976 credits are left, the figure is 39976, and the renewal halfway through the period grants
that much into the ROLLOVER bucket. -/
theorem second_draw_doubles :
    chargedTwice.unspent 1 50 = 19976 ∧
      holding chargedTwice.remainingOn (chargedTwice.livePlanGrants 1 50) = 19976 ∧
      unspentPlanCredits chargedTwice.grants chargedTwice.allocations 1 50 = 39976 ∧
      ((applyRenewal ⟨chargedTwice, Database.empty.subscriptions⟩ 50 1 starterSubscription "in_2"
        200).1.ledger.grants.filter (·.bucket == .rollover)).map (·.credits) = [39976] := by
  refine ⟨?_, ?_, ?_, ?_⟩ <;> decide +kernel

end Gomer
