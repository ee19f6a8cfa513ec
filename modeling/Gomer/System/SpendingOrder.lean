import Gomer.System.Accounting
import Gomer.System.Conservation

/-! Whether charges are paid out of the credits that expire soonest. Two mechanisms
order the grants, the bucket ranks and the creation times; neither looks at an expiry. -/
namespace Gomer

open Relational Drain Trace

/-- A strictly earlier expiry, never-expiring counting as latest. -/
def expiresBefore (h g : CreditGrant) : Bool :=
  match h.expiresAt, g.expiresAt with
  | some a, some b => decide (a < b)
  | some _, none => true
  | none, _ => false

/-- The grants a charge goes through, in the order it does. -/
def spendQueue (scan : Scan) (L : Ledger) (workspaceId : Uuid) (now : Instant) :
    List CreditGrant :=
  (orderBy (·.createdAt) ((scan.order L.grants).filter (L.spendable workspaceId now))).insertionSort
    fun a b => rank a.bucket ≤ rank b.bucket

section
variable (p : Pricing)

/-- A charge that drew on one live grant left nothing on a live grant expiring earlier. -/
def SoonestFirst (x : Transition World Operation) : Prop :=
  ∀ scan input, x.label = .recordEvent scan input →
    ∀ g ∈ x.pre.db.ledger.grants, ∀ h ∈ x.pre.db.ledger.grants,
      g.workspaceId = input.workspaceId → h.workspaceId = input.workspaceId →
      unexpired x.pre.now g = true → unexpired x.pre.now h = true → expiresBefore h g = true →
      (∃ a ∈ x.post.db.ledger.drawsFor (x.pre.nextEvent p input), a.grantId = g.id) →
      x.post.db.ledger.remainingOn h ≤ 0

/-- For each pair that stands out of expiry order in the queue, the charge is met before it
reaches the first or takes all there is up to the second. -/
def MetInOrder (x : Transition World Operation) : Prop :=
  ∀ scan input, x.label = .recordEvent scan input → ∀ ahead g between h behind,
    spendQueue scan x.pre.db.ledger input.workspaceId x.pre.now =
      ahead ++ g :: (between ++ h :: behind) → expiresBefore h g = true →
    (x.pre.nextEvent p input).creditsUsed ≤ holding x.pre.db.ledger.remainingOn ahead ∨
      holding x.pre.db.ledger.remainingOn (ahead ++ g :: (between ++ [h])) ≤
        (x.pre.nextEvent p input).creditsUsed

end

/-! The planner drains the queue -/

theorem ordered_liveGrants (scan : Scan) (L : Ledger) (workspaceId : Uuid) (now : Instant) :
    ordered (liveGrantsForSpending scan L workspaceId now) =
      (spendQueue scan L workspaceId now).map L.toSpendable := by
  rw [liveGrants_eq, ordered, spendQueue]
  apply Eq.symm
  apply List.map_insertionSort
  intro a _ b _
  rfl

theorem spendQueue_perm (scan : Scan) (L : Ledger) (workspaceId : Uuid) (now : Instant) :
    (spendQueue scan L workspaceId now).Perm (L.grants.filter (L.spendable workspaceId now)) :=
  (List.perm_insertionSort _ _).trans
    ((orderBy_perm _ _).trans ((scan.perm L.grants).filter _))

theorem mem_spendQueue {scan : Scan} {L : Ledger} {workspaceId : Uuid} {now : Instant}
    {g : CreditGrant} : g ∈ spendQueue scan L workspaceId now ↔
      g ∈ L.grants ∧ g.workspaceId = workspaceId ∧ unexpired now g = true ∧
        0 < L.remainingOn g := by
  rw [(spendQueue_perm scan L workspaceId now).mem_iff, List.mem_filter]
  simp only [Ledger.spendable, Ledger.remainingOn, Bool.and_eq_true, beq_iff_eq, decide_eq_true_eq,
    and_assoc, Int.sub_pos]

theorem spendQueue_nodup (scan : Scan) (L : Ledger) (workspaceId : Uuid) (now : Instant) :
    (spendQueue scan L workspaceId now).Nodup :=
  (spendQueue_perm scan L workspaceId now).nodup_iff.mpr (Ledger.grants_nodup.filter _)

section
variable (p : Pricing) (scan : Scan) (L : Ledger) (now : Instant) (input : RecordUsageInput)

/-- What the plan draws on a grant is what draining the queue takes from it. -/
theorem planFor_taken {g : CreditGrant} (hg : g ∈ L.grants) :
    (((planFor p scan L now input).filter fun a => a.grantId == g.id).map (·.credits)).sum =
      taken L.remainingOn (spendQueue scan L input.workspaceId now)
        (createEvent p input).creditsUsed g := by
  have charged : 1 ≤ (createEvent p input).creditsUsed := p.creditsFor_pos _ _ _
  have charge : max 0 (createEvent p input).creditsUsed = (createEvent p input).creditsUsed := by
    omega
  rw [planFor, planned_filter _ _ fun id => id == g.id, ordered_liveGrants, drain_map, charge,
    List.filter_map, taken]
  unfold total
  rw [List.map_map]
  congr 2
  apply List.filter_congr
  intro t ht
  have stored := (mem_spendQueue.mp (drain_bounds _ ht).1).1
  simp only [Function.comp_apply, Ledger.toSpendable, beq_eq_decide]
  apply decide_eq_decide.mpr
  constructor
  · exact Ledger.grant_eq stored hg
  · rintro rfl
    rfl

/-- A grant is named in the plan exactly when something is taken from it. -/
theorem planFor_names_iff {g : CreditGrant} (hg : g ∈ L.grants) :
    (∃ a ∈ planFor p scan L now input, a.grantId = g.id) ↔
      0 < taken L.remainingOn (spendQueue scan L input.workspaceId now)
        (createEvent p input).creditsUsed g := by
  have draws : ∀ a, a ∈ (planFor p scan L now input).filter (fun a => a.grantId == g.id) ↔
      a ∈ planFor p scan L now input ∧ a.grantId = g.id := by
    simp [List.mem_filter]
  have positive : ∀ a ∈ (planFor p scan L now input).filter (fun a => a.grantId == g.id),
      0 < a.credits := by
    intro a ha
    obtain ⟨_, _, _, _, positive, _⟩ := planAllocations_bounds ((draws a).mp ha).1
    exact positive
  rw [← planFor_taken p scan L now input hg]
  constructor
  · rintro ⟨a, ha, same⟩
    have member := (draws a).mpr ⟨ha, same⟩
    have zero := sum_map_eq_zero_iff (·.credits) _ fun b hb => Int.le_of_lt (positive b hb)
    by_contra none
    have nothing := zero.mp (by omega) a member
    have some := positive a member
    omega
  · intro drawn
    by_contra none
    have empty : (planFor p scan L now input).filter (fun a => a.grantId == g.id) = [] := by
      apply List.eq_nil_iff_forall_not_mem.mpr
      intro a ha
      exact none ⟨a, (draws a).mp ha⟩
    rw [empty] at drawn
    exact absurd drawn (by decide)

end

theorem expiresBefore_irrefl (g : CreditGrant) : ¬ expiresBefore g g = true := by
  unfold expiresBefore
  cases g.expiresAt with
  | none => exact Bool.false_ne_true
  | some t => simp

section
variable {p : Pricing} {w v : World} {scan : Scan} {input : RecordUsageInput}
  (allocations : v.db.ledger.allocations = w.db.ledger.allocations ++
    (planFor p scan w.db.ledger w.now input).map (createAllocation (w.nextEvent p input)))
include allocations

/-- A charge draws on the grants the queue takes from. -/
theorem charge_draws_iff {g : CreditGrant} (stored : g ∈ w.db.ledger.grants) :
    (∃ a ∈ v.db.ledger.drawsFor (w.nextEvent p input), a.grantId = g.id) ↔
      0 < taken w.db.ledger.remainingOn (spendQueue scan w.db.ledger input.workspaceId w.now)
        (createEvent p input).creditsUsed g := by
  rw [← planFor_names_iff p scan w.db.ledger w.now input stored, drawsFor_charge allocations]
  constructor
  · rintro ⟨a, ha, same⟩
    obtain ⟨b, hb, rfl⟩ := List.mem_map.mp ha
    exact ⟨b, hb, same⟩
  · rintro ⟨b, hb, same⟩
    exact ⟨_, List.mem_map_of_mem hb, same⟩

theorem charge_leaves {h : CreditGrant} (stored : h ∈ w.db.ledger.grants) :
    v.db.ledger.remainingOn h = w.db.ledger.remainingOn h -
      taken w.db.ledger.remainingOn (spendQueue scan w.db.ledger input.workspaceId w.now)
        (createEvent p input).creditsUsed h := by
  rw [← planFor_taken p scan w.db.ledger w.now input stored, Ledger.remainingOn,
    Ledger.remainingOn, spentOn_planned allocations]
  omega

end

theorem soonest_first_step {p : Pricing} {w v : World} {o : Operation} (done : Performs p w o v) :
    SoonestFirst p ⟨w, o, v⟩ ↔ MetInOrder p ⟨w, o, v⟩ := by
  cases perform_outcome done with
  | none other same =>
    exact iff_of_true (fun scan input label => absurd label (other scan input))
      (fun scan input label => absurd label (other scan input))
  | granted other =>
    exact iff_of_true (fun scan input label => absurd label (other scan input))
      (fun scan input label => absurd label (other scan input))
  | charged scan input label grants events allocations =>
    subst label
    have law := taken_respects_iff w.db.ledger.remainingOn (fun h g => expiresBefore h g = true)
      (spendQueue_nodup scan w.db.ledger input.workspaceId w.now)
      (fun g hg => (mem_spendQueue.mp hg).2.2.2) expiresBefore_irrefl
      (createEvent p input).creditsUsed
    constructor
    · intro soonest scan' input' label
      cases label
      apply law.mp
      intro g hg h hh earlier took
      obtain ⟨storedG, ownG, liveG, _⟩ := mem_spendQueue.mp hg
      obtain ⟨storedH, ownH, liveH, _⟩ := mem_spendQueue.mp hh
      have rest := soonest scan input rfl g storedG h storedH ownG ownH liveG liveH earlier
        ((charge_draws_iff allocations storedG).mpr took)
      rw [charge_leaves allocations storedH] at rest
      omega
    · intro met scan' input' label g storedG h storedH ownG ownH liveG liveH earlier draws
      cases label
      have took := (charge_draws_iff allocations storedG).mp draws
      change v.db.ledger.remainingOn h ≤ 0
      rw [charge_leaves allocations storedH]
      by_cases some : 0 < w.db.ledger.remainingOn h
      · have hh : h ∈ spendQueue scan w.db.ledger input.workspaceId w.now :=
          mem_spendQueue.mpr ⟨storedH, ownH, liveH, some⟩
        have rest := law.mpr (met scan input rfl) g (mem_of_taken _ took) h hh earlier took
        omega
      · have nonneg := taken_nonneg w.db.ledger.remainingOn
          (spendQueue scan w.db.ledger input.workspaceId w.now) (createEvent p input).creditsUsed h
        omega

/-- In every run, each charge spends the soonest to expire first exactly when each is met
in order. -/
theorem soonest_first_iff {p : Pricing} {now : Instant} {w : World}
    {steps : List (Transition World Operation)}
    (run : Run (Performs p) ⟨Database.empty, now⟩ steps w) :
    (∀ x ∈ steps, SoonestFirst p x) ↔ ∀ x ∈ steps, MetInOrder p x :=
  run.forall_iff (I := fun _ => True) (SoonestFirst p) (MetInOrder p) trivial
    (fun _ _ _ _ _ => trivial) fun _ _ _ _ done => soonest_first_step done

/-- A charge of workspace 1 that drew on the first grant and left some of the second, which
was to expire earlier. -/
def spentLater (g h : CreditGrant) (x : Transition World Operation) : Bool :=
  match x.label with
  | .recordEvent _ input => decide (g ∈ x.pre.db.ledger.grants) &&
      decide (h ∈ x.pre.db.ledger.grants) && decide (g.workspaceId = input.workspaceId) &&
      decide (h.workspaceId = input.workspaceId) && unexpired x.pre.now g && unexpired x.pre.now h &&
      expiresBefore h g && decide (∃ a ∈ x.post.db.ledger.drawsFor
        (x.pre.nextEvent exactPricing input), a.grantId = g.id) &&
      decide (0 < x.post.db.ledger.remainingOn h)
  | _ => false

theorem spentLater_not_soonest {g h : CreditGrant} {x : Transition World Operation}
    (later : spentLater g h x = true) : ¬ SoonestFirst exactPricing x := by
  intro soonest
  unfold spentLater at later
  split at later
  · rename_i scan input label
    simp only [Bool.and_eq_true, decide_eq_true_eq] at later
    obtain ⟨⟨⟨⟨⟨⟨⟨⟨storedG, storedH⟩, ownG⟩, ownH⟩, liveG⟩, liveH⟩, earlier⟩, drawn⟩, left⟩ := later
    have none := soonest scan input label g storedG h storedH ownG ownH liveG liveH earlier drawn
    omega
  · cases later

/-- A second period paid at the given instant, then a charge. -/
def chargeAfterRenewal (delivered : Instant) : List Operation :=
  [.applyRenewal starterSubscription 1 "in_1" 100, .tick delivered,
    .applyRenewal starterSubscription 1 "in_2" 200, .recordEvent .table sampleRun]

/-- Paid halfway through the first period, the second one puts a ROLLOVER grant that ends
with it ahead of the first allowance. -/
theorem early_renewal_spent_later : ∃ steps w,
    Run (Performs exactPricing) ⟨Database.empty, 0⟩ steps w ∧
      ¬ ∀ x ∈ steps, SoonestFirst exactPricing x := by
  have outcome : ((follow (perform exactPricing) ⟨Database.empty, 0⟩ (chargeAfterRenewal 50)).map
      fun r => r.2.db.ledger.grants.any fun g => r.2.db.ledger.grants.any fun h =>
        r.1.any (spentLater g h)) = some true := by decide +kernel
  obtain ⟨r, done, later⟩ := Option.map_eq_some_iff.mp outcome
  obtain ⟨g, _, later⟩ := List.any_eq_true.mp later
  obtain ⟨h, _, later⟩ := List.any_eq_true.mp later
  obtain ⟨x, hx, later⟩ := List.any_eq_true.mp later
  exact ⟨r.1, r.2, follow_run done, fun soonest => spentLater_not_soonest later (soonest x hx)⟩

theorem charge_after_renewal_in_order : ∃ steps w,
    Run (Performs exactPricing) ⟨Database.empty, 0⟩ steps w ∧ steps.length = 4 ∧
      ((∀ x ∈ steps, SoonestFirst exactPricing x) ↔ ∀ x ∈ steps, MetInOrder exactPricing x) := by
  have outcome : ((follow (perform exactPricing) ⟨Database.empty, 0⟩ (chargeAfterRenewal 100)).map
      fun r => r.1.length) = some 4 := by decide +kernel
  obtain ⟨r, done, length⟩ := Option.map_eq_some_iff.mp outcome
  exact ⟨r.1, r.2, follow_run done, length, soonest_first_iff (follow_run done)⟩

end Gomer
