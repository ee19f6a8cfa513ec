import Gomer.Usage.Pricing

/-! The plan ladder and its boot check. -/
namespace Gomer

structure SubscriptionPlan where
  id : String
  label : String
  priceCents : Nat
  monthlyCredits : Nat
  bonusCredits : Option Nat := none
  deriving DecidableEq, Repr

def subscriptionPlans : List SubscriptionPlan :=
  [⟨"starter", "Starter", 5000, 20000, none⟩,
    ⟨"small", "Small", 7500, 30000, none⟩,
    ⟨"team", "Team", 10000, 40000, none⟩,
    ⟨"business", "Business", 20000, 80000, none⟩,
    ⟨"scale", "Scale", 30000, 125000, some 5000⟩]

def findPlan (planId : String) : Option SubscriptionPlan :=
  subscriptionPlans.find? fun plan => plan.id == planId

/-- What the module load compares `monthlyCredits` with, prices being whole dollars. -/
def expectedCredits (plan : SubscriptionPlan) : Nat :=
  plan.priceCents / 100 * creditsPerDollar + plan.bonusCredits.getD 0

theorem plans_boot : ∀ plan ∈ subscriptionPlans,
    plan.priceCents % 100 = 0 ∧ plan.monthlyCredits = expectedCredits plan := by decide

theorem plans_priced : ∀ plan ∈ subscriptionPlans, 0 < plan.priceCents := by decide

/-- The allowance of a plan is never empty, since its price is not. -/
theorem findPlan_pos {planId : String} {plan : SubscriptionPlan} (found : findPlan planId = some plan) :
    0 < plan.monthlyCredits := by
  have member := List.mem_of_find?_eq_some found
  obtain ⟨whole, credits⟩ := plans_boot plan member
  have priced := plans_priced plan member
  rw [credits, expectedCredits, creditsPerDollar]
  omega

end Gomer
