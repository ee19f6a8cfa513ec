import Gomer.Usage.Balance

/-! The two other readers of the ledger: the owner's customer table and the
cross-check script. Both fold the allocations to one row per grant before they join. -/
namespace Gomer

open Relational Drain

structure WorkspaceCredits where
  granted : Int
  used : Int
  balance : Int
  paidCents : Int
  deriving DecidableEq, Repr

/- `SELECT "grantId", SUM(credits) AS spent FROM credit_allocations GROUP BY "grantId"` -/
def spendByGrant (L : Ledger) : List (Uuid × Option Int) :=
  (groupBy (·.grantId) L.allocations).map fun g => (g.1, sum (fun a => some a.credits) g.2)

def grantsWithSpend (L : Ledger) : List (CreditGrant × Option (Uuid × Option Int)) :=
  leftJoin (fun g s => decide (s.1 = g.id)) L.grants (spendByGrant L)

/- `COALESCE(spend.spent, 0)` -/
def spentOf (row : CreditGrant × Option (Uuid × Option Int)) : Int :=
  coalesce (row.2.bind Prod.snd) 0

structure GrantTotals where
  granted : Int
  paid : Int
  live : Int

/-- The aggregates selected for one group. -/
def grantTotals (now : Instant) (rows : List (CreditGrant × Option (Uuid × Option Int))) :
    GrantTotals where
  granted := coalesce (sum (fun r => some r.1.credits) rows) 0
  paid := coalesce (sum (fun r => r.1.amountCents) rows) 0
  live := coalesce (sum (fun r => some (if unexpired now r.1
    then max (r.1.credits - spentOf r) 0 else 0)) rows) 0

def grantRows (L : Ledger) (now : Instant) (workspaceIds : List Uuid) :
    List (Uuid × GrantTotals) :=
  let rows := (grantsWithSpend L).filter fun r => workspaceIds.contains r.1.workspaceId
  (groupBy (fun r => r.1.workspaceId) rows).map fun g => (g.1, grantTotals now g.2)

def usedRows (L : Ledger) (workspaceIds : List Uuid) : List (Uuid × Int) :=
  let rows := L.events.filter fun e => workspaceIds.contains e.workspaceId
  (groupBy (·.workspaceId) rows).map fun g =>
    (g.1, coalesce (sum (fun e => some e.creditsUsed) g.2) 0)

/-- The returned map, as its entries in the order of the ids. -/
def creditsByWorkspace (L : Ledger) (now : Instant) (workspaceIds : List Uuid) :
    List (Uuid × WorkspaceCredits) :=
  if workspaceIds.length = 0 then []
  else
    workspaceIds.map fun id =>
      let grants := (grantRows L now workspaceIds).find? fun row => row.1 = id
      let used := (usedRows L workspaceIds).find? fun row => row.1 = id
      (id, {
        granted := (grants.map (·.2.granted)).getD 0
        balance := (grants.map (·.2.live)).getD 0
        paidCents := (grants.map (·.2.paid)).getD 0
        used := (used.map Prod.snd).getD 0 })

/-- `TRUTH`, the balance without a join that fans out. -/
def truth (L : Ledger) (workspaceId : Uuid) (now : Instant) : Int :=
  let rows := (grantsWithSpend L).filter fun r =>
    r.1.workspaceId == workspaceId && unexpired now r.1
  coalesce (sum (fun r => some (max 0 (r.1.credits - spentOf r))) rows) 0

/-! Both read what `getBalance` reads -/

theorem joined_spend (L : Ledger) (g : CreditGrant) :
    ∃ s, joinRow (fun g s => decide (s.1 = g.id)) (spendByGrant L) g = [(g, s)] ∧
      spentOf (g, s) = L.spentOn g.id := by
  have row := joinRow_groupBy (fun g : CreditGrant => g.id) (·.grantId)
    (sum fun a : CreditAllocation => some a.credits) L.allocations g
  refine ⟨_, row, ?_⟩
  unfold spentOf Ledger.spentOn
  have same : (L.allocations.filter fun a => a.grantId == g.id) =
      L.allocations.filter fun a => a.grantId = g.id :=
    List.filter_congr fun a _ => beq_eq_decide _ _
  rw [same]
  split
  · simp only [Option.bind_some, coalesce_sum, Option.getD_some]
  · rename_i absent
    rw [filter_of_absent_key absent]
    rfl

/-- With one spend row per grant the join keeps one row per grant. -/
theorem grantsWithSpend_sum (L : Ledger) (p : CreditGrant → Bool) (f : CreditGrant → Int → Int) :
    (((grantsWithSpend L).filter fun r => p r.1).map fun r => f r.1 (spentOf r)).sum =
      ((L.grants.filter p).map fun g => f g (L.spentOn g.id)).sum := by
  unfold grantsWithSpend
  rw [leftJoin_filter, leftJoin_sum]
  congr 1
  refine List.map_congr_left fun g _ => ?_
  obtain ⟨s, row, spent⟩ := joined_spend L g
  rw [row, List.map_singleton, List.sum_singleton, spent]

theorem truth_eq (L : Ledger) (workspaceId : Uuid) (now : Instant) :
    truth L workspaceId now = L.liveBalance workspaceId now := by
  simp only [truth, coalesce_sum, Option.getD_some]
  exact grantsWithSpend_sum L (fun g => g.workspaceId == workspaceId && unexpired now g)
    fun g spent => max 0 (g.credits - spent)

section
variable (L : Ledger) (now : Instant) {workspaceIds : List Uuid} {workspaceId : Uuid}

/-- Restricting to the requested ids and then to one of them is restricting to that one. -/
theorem filter_requested {α : Type*} (owner : α → Uuid) (member : workspaceId ∈ workspaceIds)
    (rows : List α) :
    (rows.filter fun r => workspaceIds.contains (owner r)).filter (fun r => owner r = workspaceId) =
      rows.filter fun r => owner r = workspaceId := by
  rw [List.filter_filter]
  refine List.filter_congr fun r _ => ?_
  by_cases h : owner r = workspaceId
  · simp [h, member]
  · simp [h]

/-- The totals of a group found by its key; a missing group leaves the sums of no rows. -/
theorem groupBy_lookup {α β : Type*} (owner : α → Uuid) (f : List α → β) (rows : List α)
    (column : β → Int) (missing : column (f []) = 0) :
    ((((groupBy owner rows).map fun g => (g.1, f g.2)).find? fun row => row.1 = workspaceId).map
      fun row => column row.2).getD 0 = column (f (rows.filter fun r => owner r = workspaceId)) := by
  rw [List.find?_map]
  have found := groupBy_find owner rows workspaceId
  simp only [Function.comp_def] at found ⊢
  rw [found]
  split
  · rfl
  · rename_i absent
    rw [filter_of_absent_key absent, missing]
    rfl

theorem creditsByWorkspace_lookup (member : workspaceId ∈ workspaceIds) :
    ∃ row, (creditsByWorkspace L now workspaceIds).lookup workspaceId = some row ∧
      row.granted = L.granted workspaceId ∧ row.used = L.used workspaceId ∧
      row.balance = L.liveBalance workspaceId now := by
  have nonempty : ¬ workspaceIds.length = 0 := by
    intro h
    rw [List.length_eq_zero_iff.mp h] at member
    cases member
  have entry : ∀ f : Uuid → WorkspaceCredits,
      (workspaceIds.map fun id => (id, f id)).lookup workspaceId = some (f workspaceId) := by
    intro f
    clear nonempty
    induction workspaceIds with
    | nil => cases member
    | cons id ids ih =>
      by_cases h : workspaceId = id
      · subst h
        simp
      · have tail := (List.mem_cons.mp member).resolve_left h
        have other : (workspaceId == id) = false := beq_false_of_ne h
        simp [List.lookup_cons, other, ih tail]
  have requested := filter_requested (fun r : CreditGrant × Option (Uuid × Option Int) =>
    r.1.workspaceId) member (grantsWithSpend L)
  have events := filter_requested (fun e : CreditEvent => e.workspaceId) member L.events
  have owned : (fun g : CreditGrant => g.workspaceId == workspaceId) =
      fun g => decide (g.workspaceId = workspaceId) := funext fun g => beq_eq_decide _ _
  refine ⟨_, by rw [creditsByWorkspace, if_neg nonempty]; exact entry _, ?_, ?_, ?_⟩
  · refine (groupBy_lookup _ (grantTotals now) _ (·.granted) rfl).trans ?_
    rw [requested]
    simp only [grantTotals, Ledger.granted, coalesce_sum, Option.getD_some, owned]
    exact grantsWithSpend_sum L (fun g => decide (g.workspaceId = workspaceId)) fun g _ => g.credits
  · refine (groupBy_lookup _ (fun rows : List CreditEvent =>
      coalesce (sum (fun e => some e.creditsUsed) rows) 0) _ (fun spent => spent) rfl).trans ?_
    rw [events]
    simp only [Ledger.used, coalesce_sum, Option.getD_some]
    congr 2
  · refine (groupBy_lookup _ (grantTotals now) _ (·.live) rfl).trans ?_
    rw [requested]
    simp only [grantTotals, Ledger.liveBalance, coalesce_sum, Option.getD_some]
    have live := grantsWithSpend_sum L (fun g => decide (g.workspaceId = workspaceId)) fun g spent =>
      if unexpired now g then max (g.credits - spent) 0 else 0
    rw [live]
    have zeros : ∀ gs : List CreditGrant, (gs.map fun g => if unexpired now g then
        max (g.credits - L.spentOn g.id) 0 else 0).sum =
          holding L.remainingOn (gs.filter fun g => unexpired now g) := by
      intro gs
      induction gs with
      | nil => rfl
      | cons g gs ih =>
        cases h : unexpired now g <;> simp only [h, List.map_cons, List.sum_cons, List.filter_cons,
          Bool.false_eq_true, if_true, if_false, holding_cons, Ledger.remainingOn, ih] <;> omega
    rw [zeros, List.filter_filter]
    congr 1
    refine List.filter_congr fun g _ => ?_
    rw [Bool.and_comm, beq_eq_decide]

/-- Every reader of the ledger agrees, on any ledger and at any instant. -/
theorem read_paths_agree (scan : Scan) (member : workspaceId ∈ workspaceIds) :
    ∃ row, (creditsByWorkspace L now workspaceIds).lookup workspaceId = some row ∧
      (getBalance L workspaceId now).balance =
        ((liveGrantsForSpending scan L workspaceId now).map (·.remaining)).sum ∧
      (getBalance L workspaceId now).balance = row.balance ∧
      (getBalance L workspaceId now).balance = truth L workspaceId now ∧
      (getBalance L workspaceId now).granted = row.granted ∧
      (getBalance L workspaceId now).used = row.used := by
  obtain ⟨row, found, granted, used, balance⟩ := creditsByWorkspace_lookup L now member
  refine ⟨row, found, ?_, ?_, ?_, ?_, ?_⟩
  · rw [getBalance_balance, ← liveGrants_holding scan]
    unfold holding
    congr 1
    refine List.map_congr_left fun r hr => ?_
    obtain ⟨g, _, spendable, rfl⟩ := mem_liveGrants.mp hr
    have left := of_decide_eq_true (Bool.and_eq_true_iff.mp spendable).2
    simp only [Ledger.toSpendable, Ledger.remainingOn]
    omega
  · rw [getBalance_balance, balance]
  · rw [getBalance_balance, truth_eq]
  · rw [getBalance_granted, granted]
  · rw [getBalance_used, used]

end

/-- A grant drawn on twice beside one drawn past its credits. -/
def overdrawnLedger : Ledger where
  grants := [⟨{ workspaceId := 1, reason := .topup, bucket := .topup, credits := 100 }, 1, 0⟩,
    ⟨{ workspaceId := 1, reason := .manual, bucket := .reward, credits := 10 }, 2, 0⟩]
  events := []
  allocations := [⟨none, 1, .topup, 30⟩, ⟨none, 1, .topup, 20⟩, ⟨none, 2, .reward, 25⟩]
  grantKey := by decide
  sessionKey := by decide
  invoiceKey := by decide
  eventKey := by decide
  drawKey := by decide
  grantRef := by decide
  eventRef := by decide

theorem overdrawn_paths_agree :
    (getBalance overdrawnLedger 1 0).balance = 50 ∧
    ∃ row, (creditsByWorkspace overdrawnLedger 0 [2, 1]).lookup 1 = some row ∧
      (getBalance overdrawnLedger 1 0).balance =
        ((liveGrantsForSpending .table overdrawnLedger 1 0).map (·.remaining)).sum ∧
      (getBalance overdrawnLedger 1 0).balance = row.balance ∧
      (getBalance overdrawnLedger 1 0).balance = truth overdrawnLedger 1 0 ∧
      (getBalance overdrawnLedger 1 0).granted = row.granted ∧
      (getBalance overdrawnLedger 1 0).used = row.used :=
  ⟨by decide, read_paths_agree overdrawnLedger 0 .table (by decide)⟩

end Gomer
