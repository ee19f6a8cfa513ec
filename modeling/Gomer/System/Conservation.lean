import Gomer.System.Interleaving
import Gomer.Billing.Rollover

/-! When a renewal conserves credits. The invariant below holds of every reachable
state, overdrawn grants included; it is what the rollover query can rely on. -/
namespace Gomer

open Relational Drain Trace

/-- The draws are sound, and so will be those of every call that already read its grants. -/
structure SoundState (s : State) : Prop where
  draws : SoundDraws s.db.ledger
  reads : ∀ call event live, s.calls call = .read event live → ∀ r ∈ live,
    ∃ g ∈ s.db.ledger.grants, g.id = r.id ∧ r.remaining ≤ g.credits

theorem soundDraws_empty : SoundDraws Ledger.empty := by
  constructor <;> simp [Ledger.empty]

theorem soundState_start (now : Instant) : SoundState (State.start Database.empty now) := by
  refine ⟨soundDraws_empty, ?_⟩
  intro call event live holds
  cases holds

theorem soundDraws_granted {L next : Ledger} {added : List CreditGrant} (sound : SoundDraws L)
    (positive : ∀ g ∈ added, 0 < g.credits) (grants : next.grants = L.grants ++ added)
    (allocations : next.allocations = L.allocations) : SoundDraws next := by
  constructor
  · rw [grants]
    intro g hg
    rcases List.mem_append.mp hg with hg | hg
    · exact sound.positive g hg
    · exact positive g hg
  · rw [allocations]
    exact sound.drawn
  · rw [grants, allocations]
    intro g hg a ha same
    rcases List.mem_append.mp hg with hg | hg
    · exact sound.bounded g hg a ha same
    · -- A new key cannot be the target of an old draw.
      have key := next.grantKey
      rw [grants, List.map_append] at key
      have old := L.grantRef a ha
      rw [same] at old
      exact absurd rfl ((List.nodup_append.mp key).2.2 _ old _ (List.mem_map_of_mem hg))

theorem soundDraws_drawn {L next : Ledger} {event : CreditEvent} {live : List SpendableGrant}
    (sound : SoundDraws L)
    (reads : ∀ r ∈ live, ∃ g ∈ L.grants, g.id = r.id ∧ r.remaining ≤ g.credits)
    (grants : next.grants = L.grants)
    (allocations : next.allocations = L.allocations ++
      (planAllocations live event.creditsUsed).map (createAllocation event)) :
    SoundDraws next := by
  constructor
  · rw [grants]
    exact sound.positive
  · rw [allocations]
    intro a ha
    rcases List.mem_append.mp ha with ha | ha
    · exact sound.drawn a ha
    · obtain ⟨b, hb, rfl⟩ := List.mem_map.mp ha
      obtain ⟨_, _, _, _, positive, _⟩ := planAllocations_bounds hb
      exact positive
  · rw [grants, allocations]
    intro g hg a ha same
    rcases List.mem_append.mp ha with ha | ha
    · exact sound.bounded g hg a ha same
    · obtain ⟨b, hb, rfl⟩ := List.mem_map.mp ha
      obtain ⟨r, hr, named, _, _, within⟩ := planAllocations_bounds hb
      obtain ⟨h, hh, key, room⟩ := reads r hr
      have target : h = g := Ledger.grant_eq hh hg (key.trans (named.trans same))
      subst target
      exact Int.le_trans within room

theorem soundState_step {p : Pricing} {s t : State} {a : Action} (sound : SoundState s)
    (taken : Step p s a t) : SoundState t := by
  have kept : ∀ g ∈ s.db.ledger.grants, g ∈ t.db.ledger.grants := by
    cases step_effect taken with
    | none other same => rw [same]; exact fun g hg => hg
    | charged call input label charge => rw [charge]; exact fun g hg => hg
    | granted other added columns first positive grants events allocations =>
      rw [grants]
      exact fun g hg => List.mem_append_left _ hg
    | drawn call event live label phase grants events allocations =>
      rw [grants]
      exact fun g hg => hg
  constructor
  · cases step_effect taken with
    | none other same => rw [same]; exact sound.draws
    | charged call input label charge =>
      rw [charge]
      exact ⟨sound.draws.positive, sound.draws.drawn, sound.draws.bounded⟩
    | granted other added columns first positive grants events allocations =>
      exact soundDraws_granted sound.draws positive grants allocations
    | drawn call event live label phase grants events allocations =>
      exact soundDraws_drawn sound.draws (sound.reads call event live phase) grants allocations
  · intro call event live holds r hr
    obtain before | ⟨scan, _, same, rfl⟩ := step_read taken holds
    · obtain ⟨g, hg, key, room⟩ := sound.reads call event live before r hr
      exact ⟨g, kept g hg, key, room⟩
    · obtain ⟨g, hg, _, rfl⟩ := mem_liveGrants.mp hr
      have spent := Ledger.spentOn_nonneg sound.draws g.id
      refine ⟨g, kept g hg, rfl, ?_⟩
      simp only [Ledger.toSpendable, Ledger.remainingOn]
      omega

theorem soundState_reachable {p : Pricing} {now : Instant} {s : State}
    (reached : Reachable (Step p) (State.start Database.empty now) s) : SoundState s := by
  obtain ⟨steps, run⟩ := reached
  exact run.invariant (soundState_start now) fun _ _ _ sound taken => soundState_step sound taken

/-- A renewal conserves credits exactly when each PLAN grant it finds live was drawn
whole; what it carries off any other stays spendable there too. -/
theorem renewal_conserves_iff {p : Pricing} {start : Instant} {s : State}
    (reached : Reachable (Step p) (State.start Database.empty start) s)
    {subscription : Subscription} {plan : SubscriptionPlan} {seats : Int} {stripeInvoiceId : String}
    {periodEnd : Instant} {next : Database} {result : RenewalResult}
    (done : applyRenewal s.db s.now seats subscription stripeInvoiceId periodEnd =
      (next, .ok result))
    (applied : result.applied = true) (found : findPlan subscription.planId = some plan)
    (future : s.now < periodEnd) :
    (getBalance next.ledger subscription.workspaceId s.now).balance =
        (getBalance s.db.ledger subscription.workspaceId s.now).balance + plan.monthlyCredits +
          seatBonusFor seats ↔
      ∀ g ∈ s.db.ledger.planGrants subscription.workspaceId, unexpired s.now g = true →
        s.db.ledger.DrawnWhole g := by
  have sound := (soundState_reachable reached).draws
  have balance := applyRenewal_balance done applied found future
  have carried := unspentPlanCredits_eq_zero_iff sound subscription.workspaceId s.now
  rw [getBalance_balance, getBalance_balance, balance, ← carried]
  constructor
  · intro conserved
    omega
  · intro none
    omega

/-- A first period paid at its start, and the clock moved on to a later instant. -/
def firstPeriod (later : Instant) : List Action :=
  [.applyRenewal starterSubscription 1 "in_1" 100, .tick later]

/-- Whether the second invoice, handled at the end of these labels, applies and takes the
balance of 20000 unspent credits or none to the given one. -/
def secondInvoice (labels : List Action) (before after : Int) : Option Bool :=
  (follow (step exactPricing) (State.start Database.empty 0) labels).map fun r =>
    match applyRenewal r.2.db r.2.now 1 starterSubscription "in_2" 200 with
    | (next, .ok result) => result.applied && decide (r.2.now < (200 : Instant)) &&
        decide ((getBalance r.2.db.ledger 1 r.2.now).balance = before) &&
        decide ((getBalance next.ledger 1 r.2.now).balance = after)
    | _ => false

theorem secondInvoice_ran {labels : List Action} {before after : Int}
    (outcome : secondInvoice labels before after = some true) :
    ∃ s next result, Reachable (Step exactPricing) (State.start Database.empty 0) s ∧
      applyRenewal s.db s.now 1 starterSubscription "in_2" 200 = (next, .ok result) ∧
      result.applied = true ∧ s.now < 200 ∧
      (getBalance s.db.ledger 1 s.now).balance = before ∧
      (getBalance next.ledger 1 s.now).balance = after := by
  obtain ⟨r, done, checked⟩ := Option.map_eq_some_iff.mp outcome
  split at checked
  · rename_i next result ran
    simp only [Bool.and_eq_true, decide_eq_true_eq] at checked
    obtain ⟨⟨⟨applied, future⟩, before⟩, after⟩ := checked
    exact ⟨r.2, next, result, ⟨r.1, follow_run done⟩, ran, applied, future, before, after⟩
  · cases checked

/-- Handled before the first period has ended, the second invoice turns 20000 unspent
credits into 40000 and adds its own allowance of 20000. -/
theorem early_renewal_duplicates :
    ∃ s next result, Reachable (Step exactPricing) (State.start Database.empty 0) s ∧
      applyRenewal s.db s.now 1 starterSubscription "in_2" 200 = (next, .ok result) ∧
      result.applied = true ∧ s.now < 200 ∧
      (getBalance next.ledger 1 s.now).balance ≠
        (getBalance s.db.ledger 1 s.now).balance + 20000 + seatBonusFor 1 := by
  have outcome : secondInvoice (firstPeriod 50) 20000 60000 = some true := by decide +kernel
  obtain ⟨s, next, result, reached, done, applied, future, before, after⟩ :=
    secondInvoice_ran outcome
  refine ⟨s, next, result, reached, done, applied, future, ?_⟩
  rw [before, after]
  decide

/-- Handled at the very instant the first period ends, it carries nothing. -/
theorem prompt_renewal_conserves :
    ∃ s next result, Reachable (Step exactPricing) (State.start Database.empty 0) s ∧
      applyRenewal s.db s.now 1 starterSubscription "in_2" 200 = (next, .ok result) ∧
      (getBalance next.ledger 1 s.now).balance = 20000 ∧
      ((getBalance next.ledger starterSubscription.workspaceId s.now).balance =
          (getBalance s.db.ledger starterSubscription.workspaceId s.now).balance +
            (⟨"starter", "Starter", 5000, 20000, none⟩ : SubscriptionPlan).monthlyCredits +
            seatBonusFor 1 ↔
        ∀ g ∈ s.db.ledger.planGrants starterSubscription.workspaceId,
          unexpired s.now g = true → s.db.ledger.DrawnWhole g) := by
  have outcome : secondInvoice (firstPeriod 100) 0 20000 = some true := by decide +kernel
  obtain ⟨s, next, result, reached, done, applied, future, before, after⟩ :=
    secondInvoice_ran outcome
  exact ⟨s, next, result, reached, done, after,
    renewal_conserves_iff reached done applied (by decide) future⟩

end Gomer
