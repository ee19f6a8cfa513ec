import Mathlib.Algebra.BigOperators.Ring.List
import Gomer.Database.SubscriptionCreditModel
import Gomer.Usage.Balance

/-! The migration keeps what each workspace has. Its backfill pays the spend of a workspace out of
the grants, oldest first, as a drain does, and four new credits stand for every old one left. -/
namespace Gomer.SubscriptionCreditModel

open Relational Drain

/-- The grants of a workspace, oldest first. -/
def queue (L : Ledger) (workspaceId : Uuid) : List CreditGrant :=
  (L.grants.filter fun g => g.workspaceId = workspaceId).insertionSort NoLaterThan

theorem mem_queue {L : Ledger} {workspaceId : Uuid} {g : CreditGrant} :
    g ∈ queue L workspaceId ↔ g ∈ L.grants ∧ g.workspaceId = workspaceId := by
  simp only [queue, List.mem_insertionSort, List.mem_filter, decide_eq_true_eq]

theorem queue_perm (L : Ledger) (workspaceId : Uuid) :
    (queue L workspaceId).Perm (L.grants.filter (·.workspaceId == workspaceId)) := by
  simp only [beq_eq_decide]
  exact List.perm_insertionSort _ _

theorem queue_nodup (L : Ledger) (workspaceId : Uuid) : (queue L workspaceId).Nodup :=
  (queue_perm L workspaceId).nodup_iff.mpr (Ledger.grants_nodup.filter _)

instance : Std.Total NoLaterThan where
  total h g := by
    rcases lt_trichotomy h.createdAt g.createdAt with before | tied | after
    · exact .inl (.inl before)
    · rcases Nat.le_total h.id g.id with le | le
      · exact .inl (.inr ⟨tied, le⟩)
      · exact .inr (.inr ⟨tied.symm, le⟩)
    · exact .inr (.inl after)

instance : IsTrans CreditGrant NoLaterThan where
  trans _ _ _ := by
    rintro (first | ⟨tied, first⟩) (second | ⟨tied', second⟩)
    · exact .inl (Int.lt_trans first second)
    · exact .inl (tied' ▸ first)
    · exact .inl (tied ▸ second)
    · exact .inr ⟨tied.trans tied', Nat.le_trans first second⟩

theorem NoLaterThan.antisymm {h g : CreditGrant} (first : NoLaterThan h g)
    (second : NoLaterThan g h) : h.id = g.id := by
  rcases first with first | ⟨tied, first⟩ <;> rcases second with second | ⟨tied', second⟩
  · exact absurd first (Int.not_lt.mpr (Int.le_of_lt second))
  · exact absurd tied' (Int.ne_of_gt first)
  · exact absurd tied (Int.ne_of_gt second)
  · exact Nat.le_antisymm first second

/-- An older grant stands ahead in the queue of its workspace. -/
theorem queue_split {L : Ledger} {workspaceId : Uuid} {h g : CreditGrant}
    (hh : h ∈ queue L workspaceId) (hg : g ∈ queue L workspaceId) (apart : h.id ≠ g.id)
    (older : NoLaterThan h g) : ∃ ahead between behind,
      queue L workspaceId = ahead ++ h :: (between ++ g :: behind) := by
  obtain ⟨ahead, rest, split⟩ := List.append_of_mem hh
  rw [split] at hg
  rcases List.mem_append.mp hg with before | after
  · -- The younger one would stand ahead of the older one in a sorted list.
    have sorted : (queue L workspaceId).Pairwise NoLaterThan := List.pairwise_insertionSort _ _
    rw [split] at sorted
    have reversed := (List.pairwise_append.mp sorted).2.2 g before h List.mem_cons_self
    exact absurd (older.antisymm reversed) apart
  · rcases List.mem_cons.mp after with rfl | after
    · exact absurd rfl apart
    · obtain ⟨between, behind, tail⟩ := List.append_of_mem after
      exact ⟨ahead, between, behind, by rw [split, tail]⟩

/-! The backfill is a drain -/

def toAllocation (t : CreditGrant × Int) : CreditAllocation := ⟨none, t.1.id, t.1.bucket, t.2⟩

theorem used_eq (L : Ledger) (workspaceId : Uuid) :
    coalesce (sum (fun e : CreditEvent => some e.creditsUsed)
      (L.events.filter fun e => e.workspaceId = workspaceId)) 0 = L.used workspaceId := by
  simp only [coalesce_sum, Option.getD_some, Ledger.used, beq_eq_decide]

/-- A workspace without events is not joined: nothing is drawn there. -/
theorem used_of_absent {L : Ledger} {workspaceId : Uuid}
    (absent : workspaceId ∉ L.events.map (·.workspaceId)) : L.used workspaceId = 0 := by
  simp only [Ledger.used, beq_eq_decide]
  rw [filter_of_absent_key absent]
  rfl

theorem spend_filter (L : Ledger) (workspaceId : Uuid) :
    (spend L).filter (fun s => decide (s.1 = workspaceId)) =
      if workspaceId ∈ L.events.map (·.workspaceId) then [(workspaceId, L.used workspaceId)]
      else [] := by
  have aggregated := filter_groupBy (·.workspaceId)
    (fun rows => coalesce (sum (fun e : CreditEvent => some e.creditsUsed) rows) 0) L.events
    workspaceId
  rw [used_eq] at aggregated
  exact aggregated

/-- What the query selects for one workspace. -/
def slices (L : Ledger) (rows : List (CreditGrant × Int)) : List (CreditGrant × Int) :=
  ((join (fun r s => decide (s.1 = r.1.workspaceId)) rows (spend L)).map fun j =>
    (j.1.1, slice j.2.2 j.1.2 j.1.1.credits)).filter fun t => decide (0 < t.2)

theorem slices_queue (L : Ledger) (workspaceId : Uuid) (nonneg : ∀ g ∈ L.grants, 0 ≤ g.credits) :
    slices L ((framed [] (queue L workspaceId)).map fun r =>
        (r.1, coalesce (sum (fun g => some g.credits) r.2) 0)) =
      drain (·.credits) (queue L workspaceId) (L.used workspaceId) := by
  have owned : ∀ r ∈ (framed [] (queue L workspaceId)).map fun r =>
      (r.1, coalesce (sum (fun g : CreditGrant => some g.credits) r.2) 0),
      (spend L).filter (fun s => decide (s.1 = r.1.workspaceId)) =
        (spend L).filter fun s => decide (s.1 = workspaceId) := by
    intro r hr
    obtain ⟨x, hx, rfl⟩ := List.mem_map.mp hr
    have listed : x.1 ∈ queue L workspaceId := by
      rw [← framed_fst [] (queue L workspaceId)]
      exact List.mem_map_of_mem hx
    rw [(mem_queue.mp listed).2]
  rw [slices, join_constant _ _ _ _ owned, spend_filter]
  have drained := slices_eq_drain (·.credits) [] (queue L workspaceId) (L.used workspaceId)
    fun g hg => nonneg g (mem_queue.mp hg).1
  simp only [List.map_nil, List.sum_nil, Int.sub_zero] at drained
  rw [← drained]
  split
  · simp only [List.map_cons, List.map_nil, ← List.map_eq_flatMap, List.map_map, coalesce_sum,
      Option.getD_some, Function.comp_def]
  · rename_i absent
    rw [drained, used_of_absent absent, drain_nothing _ (le_refl 0)]
    simp

theorem backfill_eq_drain (L : Ledger) (nonneg : ∀ g ∈ L.grants, 0 ≤ g.credits) :
    backfill L = ((L.grants.map (·.workspaceId)).dedup.flatMap fun workspaceId =>
      drain (·.credits) (queue L workspaceId) (L.used workspaceId)).map toAllocation := by
  have each : (L.grants.map (·.workspaceId)).dedup.flatMap (fun workspaceId =>
        drain (·.credits) (queue L workspaceId) (L.used workspaceId)) = slices L (ranked L) := by
    have queues : (fun workspaceId =>
        drain (·.credits) (queue L workspaceId) (L.used workspaceId)) = fun workspaceId =>
          slices L ((framed [] (queue L workspaceId)).map fun r =>
            (r.1, coalesce (sum (fun g => some g.credits) r.2) 0)) :=
      funext fun workspaceId => (slices_queue L workspaceId nonneg).symm
    rw [queues]
    simp only [slices, ranked, preceding, groupBy, queue, join, List.flatMap_map,
      List.map_flatMap, List.filter_flatMap, List.flatMap_assoc]
  rw [each]
  rfl

/-- What the backfill allocates on a grant is what the drain of its workspace takes from it. -/
theorem backfill_on {L : Ledger} (nonneg : ∀ g ∈ L.grants, 0 ≤ g.credits) {g : CreditGrant}
    (hg : g ∈ L.grants) :
    (((backfill L).filter fun a => a.grantId == g.id).map (·.credits)).sum =
      taken (·.credits) (queue L g.workspaceId) (L.used g.workspaceId) g := by
  have here : ∀ workspaceId, (drain (·.credits) (queue L workspaceId) (L.used workspaceId)).filter
      (fun t => t.1.id == g.id) =
        (drain (·.credits) (queue L workspaceId) (L.used workspaceId)).filter fun t => t.1 = g := by
    intro workspaceId
    refine List.filter_congr fun t ht => ?_
    have stored := (mem_queue.mp (drain_bounds _ ht).1).1
    rw [beq_eq_decide]
    apply decide_eq_decide.mpr
    constructor
    · exact Ledger.grant_eq stored hg
    · rintro rfl
      rfl
  -- Only the partition of the grant's own workspace has it.
  have elsewhere : ∀ workspaceId, workspaceId ≠ g.workspaceId →
      workspaceId ∈ (L.grants.map (·.workspaceId)).dedup →
      taken (·.credits) (queue L workspaceId) (L.used workspaceId) g = 0 := by
    intro workspaceId other _
    by_contra drawn
    have some := taken_nonneg (·.credits) (queue L workspaceId) (L.used workspaceId) g
    exact other (mem_queue.mp (mem_of_taken (·.credits)
      (lt_of_le_of_ne some (Ne.symm drawn)))).2.symm
  have once : (L.grants.map (·.workspaceId)).dedup.count g.workspaceId = 1 :=
    List.count_eq_one_of_mem (List.nodup_dedup _)
      (List.mem_dedup.mpr (List.mem_map_of_mem hg))
  have single := List.sum_map_eq_nsmul_single g.workspaceId _ elsewhere
  rw [once, one_nsmul] at single
  rw [← single, backfill_eq_drain L nonneg, List.filter_map, List.map_map, List.filter_flatMap,
    List.map_flatMap, List.flatMap_def, List.sum_flatten, List.map_map]
  congr 1
  refine List.map_congr_left fun workspaceId _ => ?_
  simp only [Function.comp_apply, taken, total, ← here]
  rfl

/-! What the migration leaves -/

theorem backfill_attachable (L : Ledger) (empty : L.allocations = []) :
    L.Attachable (backfill L) := by
  have fields : ∀ a ∈ backfill L, a.creditEventId = none ∧ a.grantId ∈ L.grants.map (·.id) := by
    intro a ha
    obtain ⟨t, ht, rfl⟩ := List.mem_map.mp ha
    obtain ⟨j, hj, rfl⟩ := List.mem_map.mp (List.mem_filter.mp ht).1
    obtain ⟨r, hr, joined⟩ := List.mem_flatMap.mp hj
    obtain ⟨s, _, rfl⟩ := List.mem_map.mp joined
    obtain ⟨x, hx, rfl⟩ := List.mem_map.mp hr
    exact ⟨rfl, List.mem_map_of_mem (mem_of_preceding hx)⟩
  have undrawn : (backfill L).filterMap CreditAllocation.draw = [] := by
    refine List.filterMap_eq_nil_iff.mpr fun a ha => ?_
    rw [CreditAllocation.draw, (fields a ha).1]
    rfl
  refine ⟨?_, fun a ha => (fields a ha).2, fun a ha e he => ?_⟩
  · rw [empty, List.nil_append, UniqueKey, undrawn]
    exact List.nodup_nil
  · rw [(fields a ha).1] at he
    cases he

theorem redenominate_eq {old scaled : OldLedger} (done : redenominate old = some scaled) :
    old.Fits ∧ scaled.grants = old.grants.map (fun g => { g with credits := g.credits * 4 }) ∧
      scaled.events = old.events.map fun e => { e with creditsUsed := e.creditsUsed * 4 } := by
  unfold redenominate at done
  split at done
  · rename_i fits
    cases done
    exact ⟨fits, rfl, rfl⟩
  · cases done

theorem up_eq {old : OldLedger} {new : Ledger} (done : up old = some new) :
    ∃ scaled, redenominate old = some scaled ∧ new.grants = scaled.widen.grants ∧
      new.events = scaled.widen.events ∧ new.allocations = backfill scaled.widen := by
  obtain ⟨scaled, first, rest⟩ := Option.bind_eq_some_iff.mp done
  refine ⟨scaled, first, ?_⟩
  cases saved : scaled.widen.saveAllocations (backfill scaled.widen) with
  | error e =>
    rw [saved] at rest
    cases rest
  | ok ledger =>
    rw [saved] at rest
    cases rest
    exact Ledger.saveAllocations_ok saved

/-- The migration goes through whenever the new figures fit their columns. -/
theorem up_isSome_iff (old : OldLedger) : (up old).isSome = true ↔ old.Fits := by
  constructor
  · intro done
    obtain ⟨new, some⟩ := Option.isSome_iff_exists.mp done
    obtain ⟨scaled, first, _⟩ := up_eq some
    exact (redenominate_eq first).1
  · intro fits
    have first : ∃ scaled, redenominate old = some scaled := by
      unfold redenominate
      rw [if_pos fits]
      exact ⟨_, rfl⟩
    obtain ⟨scaled, first⟩ := first
    obtain ⟨new, saved⟩ :=
      Ledger.saveAllocations_of_attachable (backfill_attachable scaled.widen rfl)
    rw [up, first, Option.bind_some, saved]
    rfl

namespace OldLedger

/-- `SUM(grants)` of a workspace, before. -/
def granted (old : OldLedger) (workspaceId : Uuid) : Int :=
  ((old.grants.filter (·.workspaceId == workspaceId)).map (·.credits)).sum

/-- `SUM(events)` of a workspace, before. -/
def used (old : OldLedger) (workspaceId : Uuid) : Int :=
  ((old.events.filter (·.workspaceId == workspaceId)).map (·.creditsUsed)).sum

end OldLedger

theorem granted_widen {old scaled : OldLedger} (done : redenominate old = some scaled)
    (workspaceId : Uuid) :
    scaled.widen.granted workspaceId = old.granted workspaceId * 4 := by
  have grants : scaled.widen.grants = scaled.grants.map OldGrant.widen := rfl
  rw [Ledger.granted, grants, (redenominate_eq done).2.1, List.map_map, List.filter_map,
    List.map_map, OldLedger.granted, ← List.sum_map_mul_right]
  rfl

theorem used_widen {old scaled : OldLedger} (done : redenominate old = some scaled)
    (workspaceId : Uuid) : scaled.widen.used workspaceId = old.used workspaceId * 4 := by
  have events : scaled.widen.events = scaled.events := rfl
  rw [Ledger.used, events, (redenominate_eq done).2.2, List.filter_map, List.map_map,
    OldLedger.used, ← List.sum_map_mul_right]
  rfl

/-- What is left on the grants of a workspace, once its spend is paid out of them. -/
theorem remaining_sum {L new : Ledger} (nonneg : ∀ g ∈ L.grants, 0 ≤ g.credits)
    (charged : ∀ e ∈ L.events, 0 ≤ e.creditsUsed) (grants : new.grants = L.grants)
    (allocations : new.allocations = backfill L) (workspaceId : Uuid) :
    ((new.grants.filter (·.workspaceId == workspaceId)).map new.remainingOn).sum =
      max 0 (L.granted workspaceId - L.used workspaceId) := by
  have spent : ∀ g ∈ L.grants.filter (·.workspaceId == workspaceId), new.spentOn g.id =
      taken (·.credits) (queue L workspaceId) (L.used workspaceId) g := by
    intro g hg
    obtain ⟨stored, owned⟩ := List.mem_filter.mp hg
    rw [Ledger.spentOn, allocations, backfill_on nonneg stored, beq_iff_eq.mp owned]
  have drawn : ((L.grants.filter (·.workspaceId == workspaceId)).map fun g =>
      new.spentOn g.id).sum =
        min (max 0 (L.used workspaceId)) (holding (·.credits) (queue L workspaceId)) := by
    rw [List.map_congr_left spent, ← (queue_perm L workspaceId).map _ |>.sum_eq,
      sum_taken _ (queue_nodup L workspaceId), drain_total]
  have held : holding (·.credits) (queue L workspaceId) = L.granted workspaceId := by
    rw [holding_perm _ (queue_perm L workspaceId),
      holding_of_nonneg _ fun g hg => nonneg g (List.mem_filter.mp hg).1]
    rfl
  have owed : 0 ≤ L.used workspaceId :=
    sum_map_nonneg _ _ fun e he => charged e (List.mem_filter.mp he).1
  have both : ((L.grants.filter (·.workspaceId == workspaceId)).map new.remainingOn).sum +
      ((L.grants.filter (·.workspaceId == workspaceId)).map fun g => new.spentOn g.id).sum =
        L.granted workspaceId := by
    rw [← List.sum_map_add]
    simp only [Ledger.remainingOn, Int.sub_add_cancel]
    rfl
  rw [drawn, held] at both
  rw [grants]
  omega

theorem spentOn_le {L new : Ledger} (nonneg : ∀ g ∈ L.grants, 0 ≤ g.credits)
    (allocations : new.allocations = backfill L) {g : CreditGrant} (hg : g ∈ L.grants) :
    new.spentOn g.id ≤ g.credits := by
  have here := nonneg g hg
  obtain ⟨ahead, behind, split⟩ := List.append_of_mem (mem_queue.mpr ⟨hg, rfl⟩)
  have key := queue_nodup L g.workspaceId
  rw [Ledger.spentOn, allocations, backfill_on nonneg hg]
  rw [split] at key ⊢
  rw [taken_at _ key]
  omega

/-- Consumption is laid oldest first. -/
theorem spentOn_older {L new : Ledger} (nonneg : ∀ g ∈ L.grants, 0 ≤ g.credits)
    (allocations : new.allocations = backfill L) {g h : CreditGrant} (hg : g ∈ L.grants)
    (hh : h ∈ L.grants) (same : h.workspaceId = g.workspaceId) (apart : h.id ≠ g.id)
    (older : NoLaterThan h g) (drawn : ∃ a ∈ new.allocations, a.grantId = g.id) :
    new.spentOn h.id = h.credits := by
  obtain ⟨ahead, between, behind, split⟩ := queue_split (mem_queue.mpr ⟨hh, same⟩)
    (mem_queue.mpr ⟨hg, rfl⟩) apart older
  have positive : ∀ a ∈ (backfill L).filter (fun a => a.grantId == g.id), 0 < a.credits := by
    intro a ha
    obtain ⟨t, ht, rfl⟩ := List.mem_map.mp (List.mem_filter.mp ha).1
    exact of_decide_eq_true (List.mem_filter.mp ht).2
  have onG : 0 < (((backfill L).filter fun a => a.grantId == g.id).map (·.credits)).sum := by
    obtain ⟨a, ha, named⟩ := drawn
    rw [allocations] at ha
    have member : a ∈ (backfill L).filter fun a => a.grantId == g.id :=
      List.mem_filter.mpr ⟨ha, beq_iff_eq.mpr named⟩
    have zero := sum_map_eq_zero_iff (·.credits) _ fun b hb => Int.le_of_lt (positive b hb)
    by_contra none
    exact absurd (zero.mp (Int.not_lt.mp none) a member) (Int.ne_of_gt (positive a member))
  have key := queue_nodup L g.workspaceId
  rw [backfill_on nonneg hg, split] at onG
  rw [Ledger.spentOn, allocations, backfill_on nonneg hh, same]
  rw [split] at key ⊢
  exact taken_in_order _ key (nonneg h hh) onG

/-- Nothing that is migrated expires, and no grant is overdrawn: the balance is the sum. -/
theorem balance_eq {L new : Ledger} (nonneg : ∀ g ∈ L.grants, 0 ≤ g.credits)
    (lasting : ∀ g ∈ L.grants, g.expiresAt = none) (grants : new.grants = L.grants)
    (allocations : new.allocations = backfill L) (workspaceId : Uuid) (now : Instant) :
    (getBalance new workspaceId now).balance =
      ((new.grants.filter (·.workspaceId == workspaceId)).map new.remainingOn).sum := by
  have live : new.grants.filter (fun g => g.workspaceId == workspaceId && unexpired now g) =
      new.grants.filter (·.workspaceId == workspaceId) := by
    refine List.filter_congr fun g hg => ?_
    rw [grants] at hg
    simp only [unexpired, lasting g hg, Bool.and_true]
  rw [getBalance_balance, Ledger.liveBalance, live]
  refine holding_of_nonneg _ fun g hg => ?_
  have stored := (List.mem_filter.mp hg).1
  rw [grants] at stored
  exact Int.sub_nonneg_of_le (spentOn_le nonneg allocations stored)

/-- What is left of every grant adds up to four times what the workspace had, oldest grants are
used up first, and no grant beyond its credits; the migration goes through when the new figures fit
their columns. -/
theorem up_keeps_value (old : OldLedger) (positive : ∀ g ∈ old.grants, 0 < g.credits)
    (charged : ∀ e ∈ old.events, 0 ≤ e.creditsUsed) :
    ((up old).isSome = true ↔ old.Fits) ∧ ∀ new, up old = some new →
      (∀ workspaceId,
        ((new.grants.filter (·.workspaceId == workspaceId)).map new.remainingOn).sum =
            4 * max 0 (old.granted workspaceId - old.used workspaceId) ∧
          ∀ now, (getBalance new workspaceId now).balance =
            4 * max 0 (old.granted workspaceId - old.used workspaceId)) ∧
      (∀ g ∈ new.grants, new.spentOn g.id ≤ g.credits) ∧
      ∀ g ∈ new.grants, ∀ h ∈ new.grants, h.workspaceId = g.workspaceId → h.id ≠ g.id →
        NoLaterThan h g → (∃ a ∈ new.allocations, a.grantId = g.id) →
          new.spentOn h.id = h.credits := by
  refine ⟨up_isSome_iff old, fun new done => ?_⟩
  obtain ⟨scaled, first, grants, _, allocations⟩ := up_eq done
  have nonneg : ∀ g ∈ scaled.widen.grants, 0 ≤ g.credits := by
    intro g hg
    obtain ⟨s, hs, rfl⟩ := List.mem_map.mp hg
    rw [(redenominate_eq first).2.1] at hs
    obtain ⟨o, ho, rfl⟩ := List.mem_map.mp hs
    exact Int.mul_nonneg (Int.le_of_lt (positive o ho)) (by decide)
  have spent : ∀ e ∈ scaled.widen.events, 0 ≤ e.creditsUsed := by
    intro e he
    have events : scaled.widen.events = scaled.events := rfl
    rw [events, (redenominate_eq first).2.2] at he
    obtain ⟨o, ho, rfl⟩ := List.mem_map.mp he
    exact Int.mul_nonneg (charged o ho) (by decide)
  have lasting : ∀ g ∈ scaled.widen.grants, g.expiresAt = none := by
    intro g hg
    obtain ⟨s, _, rfl⟩ := List.mem_map.mp hg
    rfl
  have summed : ∀ workspaceId,
      ((new.grants.filter (·.workspaceId == workspaceId)).map new.remainingOn).sum =
        4 * max 0 (old.granted workspaceId - old.used workspaceId) := by
    intro workspaceId
    rw [remaining_sum nonneg spent grants allocations, granted_widen first, used_widen first]
    omega
  refine ⟨fun workspaceId => ⟨summed workspaceId, fun now => ?_⟩, ?_, ?_⟩
  · rw [balance_eq nonneg lasting grants allocations, summed]
  · intro g hg
    exact spentOn_le nonneg allocations (grants ▸ hg)
  · intro g hg h hh same apart older drawn
    exact spentOn_older nonneg allocations (grants ▸ hg) (grants ▸ hh) same apart older drawn

/-- A workspace with its onboarding grant and a top-up of the same moment, and one without runs. -/
def trial : OldLedger where
  grants := [
    ⟨2, 1, none, .topup, 500, some 500, some "usd", some "cs_1", 0⟩,
    ⟨1, 1, none, .onboarding, 10000, none, none, none, 0⟩,
    ⟨3, 2, none, .onboarding, 10000, none, none, none, 5⟩]
  events := [⟨⟨1, none, none, .thread, "chat", 0, 0, 0, 0, 0, 10200, "sonnet", none⟩, 1⟩]
  grantKey := by decide
  sessionKey := by decide
  eventKey := by decide

theorem trial_keeps_value : ∃ new, up trial = some new ∧
    (∀ now, (getBalance new 1 now).balance = 1200 ∧ (getBalance new 2 now).balance = 40000) ∧
    ∀ g ∈ new.grants, new.spentOn g.id ≤ g.credits := by
  obtain ⟨goes, law⟩ := up_keeps_value trial (by decide) (by decide)
  obtain ⟨new, done⟩ := Option.isSome_iff_exists.mp (goes.mpr (by decide))
  obtain ⟨kept, covered, _⟩ := law new done
  exact ⟨new, done, fun now => ⟨(kept 1).2 now, (kept 2).2 now⟩, covered⟩

end Gomer.SubscriptionCreditModel
