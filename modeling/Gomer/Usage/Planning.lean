import Gomer.Lib.StableSort
import Gomer.Usage.Spend

/-! What `planAllocations` decides, for any grants and any charge: how much is paid, out of which
grants, and in which order. -/
namespace Gomer

open Drain

/-- `h` is spent before `g`: its bucket comes first, or it comes first in the same bucket. -/
def ComesBefore (grants : List SpendableGrant) (h g : SpendableGrant) : Prop :=
  rank h.bucket < rank g.bucket ∨ h.bucket = g.bucket ∧ [h, g].Sublist grants

structure PlansWell (grants : List SpendableGrant) (credits : Int) (plan : List PlannedAllocation) :
    Prop where
  total : (plan.map (·.credits)).sum = min (max 0 credits) (holding (·.remaining) grants)
  bounded : ∀ a ∈ plan, ∃ g ∈ grants, g.id = a.grantId ∧ g.bucket = a.bucket ∧ 0 < a.credits ∧
    a.credits ≤ g.remaining
  once : (plan.map (·.grantId)).Nodup
  sorted : plan.Pairwise fun a b => rank a.bucket ≤ rank b.bucket
  stable : ∀ bucket, ((plan.filter (·.bucket = bucket)).map (·.grantId)).Sublist
    ((grants.filter (·.bucket = bucket)).map (·.id))
  drained : ∀ g ∈ grants, (∃ a ∈ plan, a.grantId = g.id) → ∀ h ∈ grants, ComesBefore grants h g →
    0 < h.remaining → ⟨h.id, h.bucket, h.remaining⟩ ∈ plan
  permuted : ∀ other : List SpendableGrant, other.Perm grants →
    (∀ bucket, other.filter (·.bucket = bucket) = grants.filter (·.bucket = bucket)) →
    planAllocations other credits = plan

theorem rank_injective {a b : CreditBucket} (same : rank a = rank b) : a = b := by
  revert same
  cases a <;> cases b <;> decide

section
variable {grants : List SpendableGrant}

theorem ordered_eq_sort (grants : List SpendableGrant) :
    ordered grants = StableSort.sort (fun g => rank g.bucket) grants := rfl

/-- The grants of a bucket are one class of the sort. -/
theorem members_rank (bucket : CreditBucket) (grants : List SpendableGrant) :
    StableSort.members (fun g => rank g.bucket) (rank bucket) grants =
      grants.filter (·.bucket = bucket) :=
  List.filter_congr fun _ _ => decide_eq_decide.mpr ⟨rank_injective, congrArg rank⟩

theorem ordered_filter (bucket : CreditBucket) :
    (ordered grants).filter (·.bucket = bucket) = grants.filter (·.bucket = bucket) := by
  rw [← members_rank, ← members_rank, ordered_eq_sort, StableSort.members_sort]

theorem ordered_congr {other : List SpendableGrant}
    (same : ∀ bucket, other.filter (·.bucket = bucket) = grants.filter (·.bucket = bucket)) :
    ordered other = ordered grants := by
  rw [ordered_eq_sort, ordered_eq_sort]
  apply StableSort.sort_congr
  intro k
  by_cases ranked : ∃ bucket, rank bucket = k
  · obtain ⟨bucket, rfl⟩ := ranked
    rw [members_rank, members_rank]
    exact same bucket
  · have none (grants : List SpendableGrant) :
        StableSort.members (fun g => rank g.bucket) k grants = [] :=
      List.filter_eq_nil_iff.mpr fun g _ own => ranked ⟨g.bucket, of_decide_eq_true own⟩
    rw [none, none]

theorem plan_sorted (credits : Int) :
    (planAllocations grants credits).Pairwise fun a b => rank a.bucket ≤ rank b.bucket := by
  have sorted : (ordered grants).Pairwise fun g h => rank g.bucket ≤ rank h.bucket :=
    StableSort.sort_sorted _ grants
  have drawn := sorted.sublist (drain_sublist (·.remaining) (ordered grants) (max 0 credits))
  rw [planAllocations, planLoop_eq, List.pairwise_map]
  rw [List.pairwise_map] at drawn
  exact drawn

theorem plan_stable (credits : Int) (bucket : CreditBucket) :
    (((planAllocations grants credits).filter (·.bucket = bucket)).map (·.grantId)).Sublist
      ((grants.filter (·.bucket = bucket)).map (·.id)) := by
  have drawn := ((drain_sublist (·.remaining) (ordered grants) (max 0 credits)).filter
    fun g => decide (g.bucket = bucket)).map (·.id)
  rw [ordered_filter, List.filter_map, List.map_map] at drawn
  rw [planAllocations, planLoop_eq, List.filter_map, List.map_map]
  exact drawn

/-- What is drawn on a grant is drawn where it stands, after all that stands before it. -/
theorem drawn_ahead {ahead behind : List SpendableGrant} {g : SpendableGrant} {credits : Int}
    (keys : ((ahead ++ g :: behind).map (·.id)).Nodup) {t : SpendableGrant × Int}
    (drawn : t ∈ drain (·.remaining) (ahead ++ g :: behind) credits) (own : t.1.id = g.id) :
    holding (·.remaining) ahead < credits := by
  rw [List.map_append, List.map_cons] at keys
  obtain ⟨_, _, apart⟩ := List.nodup_append.mp keys
  rw [drain_append] at drawn
  rcases List.mem_append.mp drawn with first | later
  · have stands := (drain_bounds _ first).1
    exact absurd own (apart t.1.id (List.mem_map_of_mem stands) g.id List.mem_cons_self)
  · by_contra met
    rw [drain_nothing _ (by omega)] at later
    cases later

theorem plan_drained (distinct : (grants.map (·.id)).Nodup) {credits : Int} {g h : SpendableGrant}
    (member : g ∈ grants) (touched : ∃ a ∈ planAllocations grants credits, a.grantId = g.id)
    (earlier : h ∈ grants) (before : ComesBefore grants h g) (positive : 0 < h.remaining) :
    ⟨h.id, h.bucket, h.remaining⟩ ∈ planAllocations grants credits := by
  obtain ⟨a, planned, own⟩ := touched
  rw [planAllocations, planLoop_eq] at planned ⊢
  obtain ⟨t, drawn, rfl⟩ := List.mem_map.mp planned
  obtain ⟨ahead, behind, place⟩ :=
    List.append_of_mem ((ordered_perm grants).mem_iff.mpr member)
  have keys := ((ordered_perm grants).map (·.id)).nodup_iff.mpr distinct
  have first : StableSort.Before (fun g : SpendableGrant => rank g.bucket) grants h g :=
    before.imp_right fun same => ⟨congrArg rank same.1, same.2⟩
  have stands : h ∈ ahead := StableSort.mem_ahead _ distinct.of_map place earlier first
  rw [place] at drawn keys ⊢
  have covered := drawn_ahead keys drawn own
  have emptied := drain_covered SpendableGrant.remaining covered stands positive
  rw [drain_append]
  exact List.mem_map.mpr ⟨_, List.mem_append_left _ emptied, rfl⟩

end

/-- The plan pays what the grants can pay of the charge, draws on each grant once at most and in
spend order, and leaves nothing on a grant before it goes on to the next one. The numbers are
`int4` columns and sums of them, which doubles hold exactly. -/
theorem planAllocations_plans_well (grants : List SpendableGrant)
    (distinct : (grants.map (·.id)).Nodup) (credits : Int) :
    PlansWell grants credits (planAllocations grants credits) where
  total := planAllocations_total grants credits
  bounded _ planned := planAllocations_bounds planned
  once := planAllocations_distinct credits distinct
  sorted := plan_sorted credits
  stable := plan_stable credits
  drained _ member touched _ := plan_drained distinct member touched
  permuted other _ same := by rw [planAllocations, ordered_congr same, planAllocations]

/-- An overdrawn and an empty grant among two that pay, and one that is not reached. -/
theorem mixed_grants_plan :
    planAllocations [⟨1, .reward, 40⟩, ⟨2, .plan, -5⟩, ⟨3, .plan, 30⟩, ⟨4, .rollover, 0⟩,
        ⟨5, .rollover, 12⟩] 42 = [⟨5, .rollover, 12⟩, ⟨3, .plan, 30⟩] ∧
      PlansWell [⟨1, .reward, 40⟩, ⟨2, .plan, -5⟩, ⟨3, .plan, 30⟩, ⟨4, .rollover, 0⟩,
        ⟨5, .rollover, 12⟩] 42 (planAllocations [⟨1, .reward, 40⟩, ⟨2, .plan, -5⟩, ⟨3, .plan, 30⟩,
          ⟨4, .rollover, 0⟩, ⟨5, .rollover, 12⟩] 42) :=
  ⟨by decide, planAllocations_plans_well _ (by decide) 42⟩

end Gomer
