import Gomer.Usage.Spend

/-! `UsageService.getBalance`: the grouped query and the loop that folds its rows
into buckets, with what they add up to. -/
namespace Gomer

open Relational Drain

structure BucketBalance where
  bucket : CreditBucket
  credits : Int
  expiresAt : Option Instant
  deriving DecidableEq, Repr

structure CreditBalance where
  granted : Int
  used : Int
  balance : Int
  expired : Int
  buckets : List BucketBalance
  deriving DecidableEq, Repr

structure UsageSummary where
  totalCreditsUsed : Int
  totalTokensUsed : Int
  eventCount : Nat
  deriving DecidableEq, Repr

def summarizeForWorkspace (L : Ledger) (workspaceId : Uuid) : UsageSummary :=
  let rows := L.events.filter fun e => e.workspaceId == workspaceId
  ⟨coalesce (sum (fun e => some e.creditsUsed) rows) 0,
    coalesce (sum (fun e => some e.tokensUsed) rows) 0, rows.length⟩

/-- One row of the grouped query. -/
structure BalanceRow where
  bucket : CreditBucket
  dead : Bool
  expiresAt : Option Instant
  granted : Int
  spent : Int
  deriving DecidableEq, Repr

/- `"expiresAt" IS NOT NULL AND "expiresAt" <= NOW()` -/
def isDead (now : Instant) (g : CreditGrant) : Bool :=
  match g.expiresAt with
  | none => false
  | some t => decide (t ≤ now)

def remainingByGrant (L : Ledger) (workspaceId : Uuid) (now : Instant) : List BalanceRow :=
  let rows := (leftJoin onGrant L.grants L.allocations).filter fun r =>
    r.1.workspaceId == workspaceId
  (groupBy Prod.fst rows).map fun g =>
    ⟨g.1.bucket, isDead now g.1, g.1.expiresAt, g.1.credits, spentColumn g.2⟩

/-- The loop's variables; `live` is the map from buckets. -/
structure Tally where
  granted : Int
  expired : Int
  live : CreditBucket → Option BucketBalance

def tallyRow (t : Tally) (row : BalanceRow) : Tally :=
  let remaining := max 0 (row.granted - row.spent)
  if row.dead then
    { t with granted := t.granted + row.granted, expired := t.expired + remaining }
  else
    let existing := t.live row.bucket
    let soonest :=
      match existing.bind (·.expiresAt), row.expiresAt with
      | some a, some b => some (min a b)
      | some a, none => some a
      | none, b => b
    { t with
      granted := t.granted + row.granted
      live := Function.update t.live row.bucket
        (some ⟨row.bucket, ((existing.map (·.credits)).getD 0) + remaining, soonest⟩) }

def tally (rows : List BalanceRow) : Tally := rows.foldl tallyRow ⟨0, 0, fun _ => none⟩

def bucketsOf (t : Tally) : List BucketBalance :=
  spendOrder.map fun bucket => (t.live bucket).getD ⟨bucket, 0, none⟩

def getBalance (L : Ledger) (workspaceId : Uuid) (now : Instant) : CreditBalance :=
  let t := tally (remainingByGrant L workspaceId now)
  let buckets := bucketsOf t
  ⟨t.granted, (summarizeForWorkspace L workspaceId).totalCreditsUsed,
    buckets.foldl (fun total bucket => total + bucket.credits) 0, t.expired, buckets⟩

/-! What the loop adds up to -/

def creditsIn (live : CreditBucket → Option BucketBalance) (bucket : CreditBucket) : Int :=
  ((live bucket).map (·.credits)).getD 0

/-- The four buckets cover the whole enumeration, so no live credit is left out. -/
theorem bucketsOf_total (t : Tally) :
    (bucketsOf t).foldl (fun total bucket => total + bucket.credits) 0 =
      (spendOrder.map (creditsIn t.live)).sum := by
  have column : ∀ bucket, ((t.live bucket).getD ⟨bucket, 0, none⟩).credits =
      creditsIn t.live bucket := by
    intro bucket
    unfold creditsIn
    cases t.live bucket <;> rfl
  simp only [bucketsOf, spendOrder, List.map_cons, List.map_nil, List.foldl_cons, List.foldl_nil,
    List.sum_cons, List.sum_nil, column]
  omega

theorem sum_update (live : CreditBucket → Option BucketBalance) (bucket : CreditBucket)
    (b : BucketBalance) : (spendOrder.map (creditsIn (Function.update live bucket (some b)))).sum =
      (spendOrder.map (creditsIn live)).sum - creditsIn live bucket + b.credits := by
  cases bucket <;> simp [spendOrder, creditsIn, Function.update] <;> omega

def remainingIn (row : BalanceRow) : Int := max 0 (row.granted - row.spent)

theorem tallyRow_sums (t : Tally) (row : BalanceRow) :
    (tallyRow t row).granted = t.granted + row.granted ∧
    (tallyRow t row).expired = t.expired + (if row.dead then remainingIn row else 0) ∧
    (spendOrder.map (creditsIn (tallyRow t row).live)).sum =
      (spendOrder.map (creditsIn t.live)).sum + (if row.dead then 0 else remainingIn row) := by
  unfold tallyRow
  cases h : row.dead
  · refine ⟨rfl, by simp, ?_⟩
    simp only [Bool.false_eq_true, if_false]
    rw [sum_update]
    simp only [creditsIn, remainingIn]
    omega
  · simp [remainingIn]

theorem tally_sums (rows : List BalanceRow) (t : Tally) :
    (rows.foldl tallyRow t).granted = t.granted + (rows.map (·.granted)).sum ∧
    (rows.foldl tallyRow t).expired =
      t.expired + ((rows.filter (·.dead)).map remainingIn).sum ∧
    (spendOrder.map (creditsIn (rows.foldl tallyRow t).live)).sum =
      (spendOrder.map (creditsIn t.live)).sum +
        ((rows.filter fun r => !r.dead).map remainingIn).sum := by
  induction rows generalizing t with
  | nil => simp
  | cons row rows ih =>
    obtain ⟨granted, expired, live⟩ := tallyRow_sums t row
    obtain ⟨granteds, expireds, lives⟩ := ih (tallyRow t row)
    rw [List.foldl_cons, granteds, expireds, lives, granted, expired, live]
    cases h : row.dead <;>
      simp only [h, List.map_cons, List.sum_cons, List.filter_cons, Bool.not_true, Bool.not_false,
        Bool.false_eq_true, if_true, if_false] <;> omega

theorem isDead_eq (now : Instant) (g : CreditGrant) : isDead now g = !unexpired now g := by
  unfold isDead unexpired
  cases g.expiresAt with
  | none => rfl
  | some t =>
    by_cases h : now < t
    · simp [h]
    · simp [h, Int.not_lt.mp h]

/-- Grouped by the primary key, the query has one row for each grant of the workspace. -/
theorem remainingByGrant_eq (L : Ledger) (workspaceId : Uuid) (now : Instant) :
    remainingByGrant L workspaceId now =
      (L.grants.filter (·.workspaceId == workspaceId)).map fun g =>
        ⟨g.bucket, isDead now g, g.expiresAt, g.credits, L.spentOn g.id⟩ := by
  have key : (L.grants.filter (·.workspaceId == workspaceId)).Nodup :=
    Ledger.grants_nodup.filter _
  have joined := leftJoin_filter onGrant (·.workspaceId == workspaceId) L.grants L.allocations
  unfold remainingByGrant
  simp only [joined, groupBy_leftJoin onGrant _ _ key, List.map_map, Function.comp_def,
    L.spentColumn_joinRow]

namespace Ledger

/-- Credits a workspace was ever granted. -/
def granted (L : Ledger) (workspaceId : Uuid) : Int :=
  ((L.grants.filter (·.workspaceId == workspaceId)).map (·.credits)).sum

/-- Credits left on grants that can no longer be spent. -/
def expired (L : Ledger) (workspaceId : Uuid) (now : Instant) : Int :=
  holding L.remainingOn
    (L.grants.filter fun g => g.workspaceId == workspaceId && !unexpired now g)

/-- Credits a workspace's runs were charged. -/
def used (L : Ledger) (workspaceId : Uuid) : Int :=
  ((L.events.filter (·.workspaceId == workspaceId)).map (·.creditsUsed)).sum

end Ledger

theorem summarizeForWorkspace_used (L : Ledger) (workspaceId : Uuid) :
    (summarizeForWorkspace L workspaceId).totalCreditsUsed = L.used workspaceId := by
  simp only [summarizeForWorkspace, coalesce_sum, Option.getD_some]
  rfl

theorem getBalance_used (L : Ledger) (workspaceId : Uuid) (now : Instant) :
    (getBalance L workspaceId now).used = L.used workspaceId :=
  summarizeForWorkspace_used L workspaceId

theorem getBalance_granted (L : Ledger) (workspaceId : Uuid) (now : Instant) :
    (getBalance L workspaceId now).granted = L.granted workspaceId := by
  have sums := (tally_sums (remainingByGrant L workspaceId now) ⟨0, 0, fun _ => none⟩).1
  rw [remainingByGrant_eq, List.map_map] at sums
  simp only [getBalance, tally, remainingByGrant_eq, sums, Int.zero_add]
  rfl

theorem getBalance_expired (L : Ledger) (workspaceId : Uuid) (now : Instant) :
    (getBalance L workspaceId now).expired = L.expired workspaceId now := by
  have sums := (tally_sums (remainingByGrant L workspaceId now) ⟨0, 0, fun _ => none⟩).2.1
  rw [remainingByGrant_eq, List.filter_map, List.map_map, List.filter_filter] at sums
  have same : ∀ g, (isDead now g && g.workspaceId == workspaceId) =
      (g.workspaceId == workspaceId && !unexpired now g) := by
    intro g
    rw [isDead_eq, Bool.and_comm]
  simp only [Function.comp_def, same] at sums
  simp only [getBalance, tally, remainingByGrant_eq, sums, Int.zero_add]
  rfl

theorem getBalance_balance (L : Ledger) (workspaceId : Uuid) (now : Instant) :
    (getBalance L workspaceId now).balance = L.liveBalance workspaceId now := by
  have sums := (tally_sums (remainingByGrant L workspaceId now) ⟨0, 0, fun _ => none⟩).2.2
  rw [remainingByGrant_eq, List.filter_map, List.map_map, List.filter_filter] at sums
  have same : ∀ g, (!isDead now g && g.workspaceId == workspaceId) =
      (g.workspaceId == workspaceId && unexpired now g) := by
    intro g
    rw [isDead_eq, Bool.not_not, Bool.and_comm]
  simp only [Function.comp_def, same] at sums
  simp only [getBalance, bucketsOf_total, tally, remainingByGrant_eq, sums]
  exact Int.zero_add _

/-- Every credit granted is drawn, live or expired, as long as no grant is overdrawn. -/
theorem granted_split (L : Ledger) (workspaceId : Uuid) (now : Instant)
    (covered : ∀ g ∈ L.grants, L.spentOn g.id ≤ g.credits) :
    L.granted workspaceId = L.allocated workspaceId + L.liveBalance workspaceId now +
      L.expired workspaceId now := by
  unfold Ledger.granted Ledger.allocated Ledger.liveBalance Ledger.expired
  revert covered
  induction L.grants with
  | nil => intro _; rfl
  | cons g gs ih =>
    intro covered
    have rest := ih fun h hh => covered h (List.mem_cons_of_mem g hh)
    have head := covered g List.mem_cons_self
    have left : max 0 (L.remainingOn g) = g.credits - L.spentOn g.id := by
      unfold Ledger.remainingOn
      omega
    cases own : g.workspaceId == workspaceId <;> cases live : unexpired now g <;>
      simp only [own, live, List.filter_cons, Bool.and_true, Bool.and_false, Bool.not_true,
        Bool.not_false, Bool.false_eq_true, if_true, if_false, List.map_cons, List.sum_cons,
        holding_cons, left] <;> omega

end Gomer
