import Gomer.Rules.Scaling
import Mathlib.Data.List.Infix

/-! `RulesService.evaluateRule`: which entities of an ad account a rule judges and acts on. Of every
list the Graph API answers one page. -/
namespace Gomer.Rules

open JsNumber Guardrails

structure MetaTypedValue where
  actionType : String
  value : String

structure InsightRow where
  spend : Option String := none
  ctr : Option String := none
  cpc : Option String := none
  campaignId : Option String := none
  campaignName : Option String := none
  adsetId : Option String := none
  adsetName : Option String := none
  costPerActionType : Option (List MetaTypedValue) := none
  purchaseRoas : Option (List MetaTypedValue) := none

structure Breach extends Guardrails.Breach where
  value : Double

def purchaseActionTypes : List String :=
  ["purchase", "omni_purchase", "offsite_conversion.fb_pixel_purchase", "onsite_web_purchase"]

def pickPurchaseValue (entries : Option (List MetaTypedValue)) : Option Double :=
  let entries := entries.getD []
  let hit := (entries.find? fun entry => purchaseActionTypes.contains entry.actionType).or
    (entries.find? fun entry => decide ("purchase".toList <:+: entry.actionType.toList))
  hit.map fun entry => number entry.value

def extractMetric (row : InsightRow) (metric : RuleMetric) : Option Double :=
  let spend := (row.spend.map number).getD .nan
  match metric with
  | .spend => if spend.isFinite then some spend else none
  | .ctr => row.ctr.map number
  | .cpc => row.cpc.map number
  | .roas => some ((pickPurchaseValue row.purchaseRoas).getD (.finite 0))
  | .cpa =>
    match pickPurchaseValue row.costPerActionType with
    | some cpa => some cpa
    | none => if Double.lt (.finite 0) spend then some (.infinite false) else none
  | .verifiedRoas => none

def breaches (value : Double) (rule : AdRule) : Bool :=
  let threshold := number rule.threshold
  match rule.comparator with
  | .gt => threshold.lt value
  | .gte => threshold.lt value || threshold.eq value
  | .lt => value.lt threshold
  | .lte => value.lt threshold || value.eq threshold

/-- The breach of a row, where it is one. -/
def breachOf (rule : AdRule) (row : InsightRow) : Option Breach :=
  match extractMetric row rule.metric with
  | none => none
  | some value =>
    if breaches value rule then
      some
        { entityId := if rule.scope = .adset then row.adsetId else row.campaignId
          entityName := if rule.scope = .adset then row.adsetName else row.campaignName
          value := value }
    else none

/-- What Meta has of an ad account: its insights by level and window, and its entities, each listed
once. -/
structure AdAccount where
  insights : RuleScope → String → String → List InsightRow
  campaigns : List BudgetRow
  adSets : List BudgetRow
  campaignsOnce : (campaigns.map (·.id)).Nodup
  adSetsOnce : (adSets.map (·.id)).Nodup

/-- One page of a list; the Graph API takes 25 where no limit is given. -/
def page {α : Type} (limit : Option Nat) (rows : List α) : List α := rows.take (limit.getD 25)

def getInsights (account : AdAccount) (level : RuleScope) (since til : String) : List InsightRow :=
  page none (account.insights level since til)

def listCampaigns (account : AdAccount) : List BudgetRow := page (some 100) account.campaigns

def listAdSetsForAccount (account : AdAccount) : List BudgetRow := page (some 200) account.adSets

/-- The breaches that were found, the rows of alerts, the budgets where they were loaded, and the
entities on which the rule has tried its action. -/
structure Evaluation where
  breaches : List Breach
  alerted : List Breach
  budgets : Option Budgets
  attempts : List (String × Except String MetaCall)

def findBreaches (rule : AdRule) (rows : List InsightRow) : List Breach :=
  rows.filterMap (breachOf rule)

def Breach.entity (breach : Breach) : Option String := nonEmpty breach.entityId

/-- `cap` is the part of the daily cap and of the cap of one run that is left. -/
def executeMutations (rule : AdRule) (account : AdAccount) (breaches : List Breach) (cap : Int) :
    Evaluation :=
  if cap ≤ 0 then ⟨breaches, [], none, []⟩
  else
    let budgets :=
      if rule.action = .scale then
        some (loadBudgets
          (if rule.scope = .adset then listAdSetsForAccount account else listCampaigns account))
      else none
    ⟨breaches, [], budgets, (sliceTo breaches cap).filterMap fun breach =>
      breach.entity.map fun id => (id, applyAction rule id (budgets.getD ∅))⟩

/-- An evaluation at `clock` in which no call fails, with the audit trail of the rule. A rule on
`verified_roas` takes a path of its own, on which it can only alert: that is left out. -/
def evaluateRule (rule : AdRule) (account : AdAccount) (since til : String)
    (trail : List AdRuleAction) (clock : Int) : Evaluation :=
  let breaches := findBreaches rule (getInsights account rule.scope since til)
  if breaches.isEmpty then ⟨breaches, [], none, []⟩
  else if !rule.actOnly then ⟨breaches, sliceTo breaches rule.maxActionsPerRun, none, []⟩
  else executeMutations rule account breaches (cap rule.toAdRule trail (dayBefore clock))

/-! What a rule owes an account -/

/-- The entities of the level that the rule acts on. -/
def AdAccount.listing (account : AdAccount) (scope : RuleScope) : List BudgetRow :=
  if scope = .adset then account.adSets else account.campaigns

def listingLimit (scope : RuleScope) : Nat := if scope = .adset then 200 else 100

/-- Every breach is considered, as many entities are acted on as the cap allows, and each breaching
entity's budget is found. -/
structure Complete (rule : AdRule) (account : AdAccount) (since til : String) (cap : Int)
    (evaluation : Evaluation) : Prop where
  considered : evaluation.breaches = findBreaches rule (account.insights rule.scope since til)
  slots : rule.actOnly = true → 0 < cap →
    evaluation.attempts.map (·.1) = sliceTo (evaluation.breaches.filterMap Breach.entity) cap
  budgets : ∀ loaded, evaluation.budgets = some loaded →
    ∀ breach ∈ findBreaches rule (account.insights rule.scope since til),
      ∀ id amount, breach.entity = some id →
        (loadBudgets (account.listing rule.scope)).lookup id = some amount →
        loaded.lookup id = some amount

/-- What the first pages leave out, and the first slots take up, breaches no other entity's due. -/
structure Covered (rule : AdRule) (account : AdAccount) (since til : String) (cap : Int) : Prop where
  considered : ∀ row ∈ (account.insights rule.scope since til).drop 25, breachOf rule row = none
  slots : rule.actOnly = true → 0 < cap →
    (∀ breach ∈ (findBreaches rule (getInsights account rule.scope since til)).take cap.toNat,
        breach.entity ≠ none) ∨
      ∀ breach ∈ (findBreaches rule (getInsights account rule.scope since til)).drop cap.toNat,
        breach.entity = none
  budgets : rule.actOnly = true → 0 < cap → rule.action = .scale →
    ∀ row ∈ (account.listing rule.scope).drop (listingLimit rule.scope),
      ∀ entry, budgetEntry row = some entry →
        ∀ breach ∈ findBreaches rule (account.insights rule.scope since til),
          breach.entity ≠ some entry.1

/-! Slices and pages -/

/-- The first `n` elements have as many images as the first `n` images, where no element without an
image comes before one that has one. -/
theorem filterMap_take_iff {α β : Type} (f : α → Option β) (xs : List α) (n : Nat) :
    (xs.take n).filterMap f = (xs.filterMap f).take n ↔
      (∀ x ∈ xs.take n, f x ≠ none) ∨ ∀ x ∈ xs.drop n, f x = none := by
  have whole : xs.filterMap f = (xs.take n).filterMap f ++ (xs.drop n).filterMap f := by
    rw [← List.filterMap_append, List.take_append_drop]
  have short : ((xs.take n).filterMap f).length ≤ (xs.take n).length := List.length_filterMap_le f _
  have size := List.length_take_le n xs
  rw [whole, List.take_append, List.take_of_length_le (short.trans size), List.self_eq_append_right,
    List.take_eq_nil_iff, ← List.filterMap_eq_nil_iff]
  refine or_congr_left' fun some => ?_
  have rest : xs.drop n ≠ [] := fun none => some (by rw [none]; rfl)
  have full : (xs.take n).length = n := by
    rw [List.length_take]
    have := List.drop_eq_nil_iff.not.mp rest
    omega
  have all : ((xs.take n).filterMap f).length = (xs.take n).length ↔ ∀ x ∈ xs.take n, f x ≠ none := by
    rw [List.length_filterMap_eq_countP, List.countP_eq_length]
    simp [Option.isSome_iff_ne_none]
  rw [← all, full]
  omega

theorem lookup_loadBudgets_iff {rows : List BudgetRow} (once : (rows.map (·.id)).Nodup) (id : String)
    (amount : Double) :
    (loadBudgets rows).lookup id = some amount ↔ ∃ row ∈ rows, budgetEntry row = some (id, amount) := by
  have same : ∀ row ∈ rows, ∀ entry, budgetEntry row = some entry → ∀ other ∈ rows, ∀ found,
      budgetEntry other = some found → found.1 = entry.1 → found = entry := by
    intro row member entry read other among found seen key
    have keys : other.id = row.id := by
      rw [(budgetEntry_some.mp read).1, (budgetEntry_some.mp seen).1, key]
    rw [List.inj_on_of_nodup_map once among member keys, read] at seen
    exact (Option.some.inj seen).symm
  by_cases listed : ∃ row ∈ rows, ∃ value, budgetEntry row = some (id, value)
  · obtain ⟨row, member, value, read⟩ := listed
    have agree : ∀ entry ∈ rows.filterMap budgetEntry, entry.1 = id → entry.2 = value := by
      intro entry among key
      obtain ⟨other, member', seen⟩ := List.mem_filterMap.mp among
      exact congrArg Prod.snd (same row member _ read other member' entry seen key)
    have present : id ∈ (rows.filterMap budgetEntry).map (·.1) :=
      List.mem_map.mpr ⟨_, List.mem_filterMap.mpr ⟨row, member, read⟩, rfl⟩
    have found : (loadBudgets rows).lookup id = some value :=
      (Record.lookup_collect _ _ _ id value agree).trans (if_pos present)
    rw [found]
    constructor
    · intro equal
      cases equal
      exact ⟨row, member, read⟩
    · rintro ⟨other, member', seen⟩
      exact congrArg (fun entry => some (Prod.snd entry))
        (same row member _ read other member' _ seen rfl).symm
  · have absent : id ∉ (rows.filterMap budgetEntry).map (·.1) := by
      intro present
      obtain ⟨entry, among, rfl⟩ := List.mem_map.mp present
      obtain ⟨row, member, read⟩ := List.mem_filterMap.mp among
      exact listed ⟨row, member, entry.2, read⟩
    have agree : ∀ entry ∈ rows.filterMap budgetEntry, entry.1 = id → entry.2 = amount :=
      fun entry among key => absurd (List.mem_map.mpr ⟨entry, among, key⟩) absent
    have missing : (loadBudgets rows).lookup id = none :=
      (Record.lookup_collect _ _ _ id amount agree).trans (if_neg absent)
    rw [missing]
    constructor
    · intro impossible
      cases impossible
    · rintro ⟨row, member, read⟩
      exact absurd ⟨row, member, amount, read⟩ listed

section
variable (rule : AdRule) (account : AdAccount) (since til : String) (trail : List AdRuleAction)
  (clock : Int)

theorem evaluateRule_breaches : (evaluateRule rule account since til trail clock).breaches =
    findBreaches rule (getInsights account rule.scope since til) := by
  unfold evaluateRule
  dsimp only
  split
  · rfl
  · split
    · rfl
    · unfold executeMutations
      split <;> rfl

theorem evaluateRule_attempts (acts : rule.actOnly = true)
    (room : 0 < cap rule.toAdRule trail (dayBefore clock)) :
    (evaluateRule rule account since til trail clock).attempts.map (·.1) =
      ((findBreaches rule (getInsights account rule.scope since til)).take
        (cap rule.toAdRule trail (dayBefore clock)).toNat).filterMap Breach.entity := by
  have sliced {α : Type} (xs : List α) : sliceTo xs (cap rule.toAdRule trail (dayBefore clock)) =
      xs.take (cap rule.toAdRule trail (dayBefore clock)).toNat := by
    rw [sliceTo, if_neg (not_lt.mpr room.le)]
  unfold evaluateRule
  dsimp only
  split
  · rename_i empty
    rw [List.isEmpty_iff.mp empty]
    simp
  · rw [acts, Bool.not_true, if_neg Bool.false_ne_true, executeMutations, if_neg (not_le.mpr room)]
    dsimp only
    rw [List.map_filterMap, sliced]
    congr 1
    funext breach
    rw [Option.map_map]
    exact Option.map_id'

theorem evaluateRule_budgets (loaded : Budgets) :
    (evaluateRule rule account since til trail clock).budgets = some loaded ↔
      findBreaches rule (getInsights account rule.scope since til) ≠ [] ∧ rule.actOnly = true ∧
        0 < cap rule.toAdRule trail (dayBefore clock) ∧ rule.action = .scale ∧
        loaded = loadBudgets ((account.listing rule.scope).take (listingLimit rule.scope)) := by
  have paged : (if rule.scope = .adset then listAdSetsForAccount account else listCampaigns account) =
      (account.listing rule.scope).take (listingLimit rule.scope) := by
    unfold AdAccount.listing listingLimit
    split <;> rfl
  unfold evaluateRule
  dsimp only
  split
  · rename_i empty
    simp [List.isEmpty_iff.mp empty]
  · rename_i some
    split
    · rename_i idle
      simp only [Bool.not_eq_true'] at idle
      simp [idle]
    · rename_i acts
      unfold executeMutations
      split
      · rename_i full
        simp [not_lt.mpr full]
      · rename_i room
        dsimp only
        rw [paged]
        have filled : findBreaches rule (getInsights account rule.scope since til) ≠ [] := by
          simpa using some
        have acting : rule.actOnly = true := by simpa using acts
        split
        · rename_i scales
          simp [filled, acting, not_le.mp room, scales, eq_comm]
        · rename_i pauses
          simp [pauses]

theorem AdAccount.listing_once (scope : RuleScope) : ((account.listing scope).map (·.id)).Nodup := by
  unfold AdAccount.listing
  split
  · exact account.adSetsOnce
  · exact account.campaignsOnce

/-- Every row that breaches is on the first page of the insights. -/
theorem considered_iff : findBreaches rule (getInsights account rule.scope since til) =
      findBreaches rule (account.insights rule.scope since til) ↔
    ∀ row ∈ (account.insights rule.scope since til).drop 25, breachOf rule row = none := by
  unfold findBreaches getInsights page
  rw [Option.getD_none]
  nth_rewrite 2 [← List.take_append_drop 25 (account.insights rule.scope since til)]
  rw [List.filterMap_append, List.self_eq_append_right, List.filterMap_eq_nil_iff]

/-- A page has the budgets of some entities exactly where none of theirs is behind it. -/
theorem page_budgets_iff {rows : List BudgetRow} (once : (rows.map (·.id)).Nodup) (limit : Nat)
    (known : String → Prop) :
    (∀ id amount, known id → (loadBudgets rows).lookup id = some amount →
        (loadBudgets (rows.take limit)).lookup id = some amount) ↔
      ∀ row ∈ rows.drop limit, ∀ entry, budgetEntry row = some entry → ¬ known entry.1 := by
  have shorter : ((rows.take limit).map (·.id)).Nodup := once.sublist ((List.take_sublist _ _).map _)
  constructor
  · intro found row behind entry read wanted
    have all := (lookup_loadBudgets_iff once entry.1 entry.2).mpr
      ⟨row, List.mem_of_mem_drop behind, read⟩
    obtain ⟨first, member, seen⟩ := (lookup_loadBudgets_iff shorter _ _).mp (found _ _ wanted all)
    have ids : first.id = row.id := by
      rw [(budgetEntry_some.mp read).1, (budgetEntry_some.mp seen).1]
    have apart : ((rows.take limit).map (·.id)).Disjoint ((rows.drop limit).map (·.id)) := by
      rw [List.map_take, List.map_drop]
      exact List.disjoint_take_drop once le_rfl
    exact apart (List.mem_map_of_mem member) (ids ▸ List.mem_map_of_mem behind)
  · intro none id amount wanted found
    obtain ⟨row, member, read⟩ := (lookup_loadBudgets_iff once _ _).mp found
    refine (lookup_loadBudgets_iff shorter _ _).mpr ⟨row, ?_, read⟩
    rw [← List.take_append_drop limit rows] at member
    exact (List.mem_append.mp member).resolve_right fun behind => none row behind _ read wanted

/-- An attempt for each entity that the cap has room for: no breach without an entity is in the way. -/
theorem evaluateRule_slots_iff (acts : rule.actOnly = true)
    (room : 0 < cap rule.toAdRule trail (dayBefore clock)) :
    (evaluateRule rule account since til trail clock).attempts.map (·.1) =
        sliceTo ((evaluateRule rule account since til trail clock).breaches.filterMap Breach.entity)
          (cap rule.toAdRule trail (dayBefore clock)) ↔
      (∀ breach ∈ (findBreaches rule (getInsights account rule.scope since til)).take
          (cap rule.toAdRule trail (dayBefore clock)).toNat, breach.entity ≠ none) ∨
        ∀ breach ∈ (findBreaches rule (getInsights account rule.scope since til)).drop
          (cap rule.toAdRule trail (dayBefore clock)).toNat, breach.entity = none := by
  have sliced (ids : List String) : sliceTo ids (cap rule.toAdRule trail (dayBefore clock)) =
      ids.take (cap rule.toAdRule trail (dayBefore clock)).toNat := by
    rw [sliceTo, if_neg (not_lt.mpr room.le)]
  rw [evaluateRule_attempts rule account since til trail clock acts room, evaluateRule_breaches,
    sliced, filterMap_take_iff]

/-- The evaluation is complete exactly where nothing that counts is behind a first page, and no breach
without an entity is before one that could have its slot. -/
theorem evaluateRule_complete_iff :
    Complete rule account since til (cap rule.toAdRule trail (dayBefore clock))
        (evaluateRule rule account since til trail clock) ↔
      Covered rule account since til (cap rule.toAdRule trail (dayBefore clock)) := by
  have once := account.listing_once rule.scope
  have slots := evaluateRule_slots_iff rule account since til trail clock
  have budgets := page_budgets_iff once (listingLimit rule.scope) fun id =>
    ∃ breach ∈ findBreaches rule (account.insights rule.scope since til), breach.entity = some id
  constructor
  · intro law
    have considered := law.considered
    rw [evaluateRule_breaches] at considered
    refine ⟨(considered_iff rule account since til).mp considered,
      fun acts room => (slots acts room).mp (law.slots acts room), ?_⟩
    intro acts room scales row behind entry read breach member wanted
    have filled : findBreaches rule (getInsights account rule.scope since til) ≠ [] := by
      rw [considered]
      exact List.ne_nil_of_mem member
    have loaded := (evaluateRule_budgets rule account since til trail clock _).mpr
      ⟨filled, acts, room, scales, rfl⟩
    refine budgets.mp (fun id amount known found => ?_) row behind entry read ⟨breach, member, wanted⟩
    obtain ⟨other, among, entity⟩ := known
    exact law.budgets _ loaded other among id amount entity found
  · intro covered
    have considered := (considered_iff rule account since til).mpr covered.considered
    refine ⟨(evaluateRule_breaches rule account since til trail clock).trans considered,
      fun acts room => (slots acts room).mpr (covered.slots acts room), ?_⟩
    intro loaded held breach member id amount entity found
    obtain ⟨-, acts, room, scales, rfl⟩ :=
      (evaluateRule_budgets rule account since til trail clock loaded).mp held
    refine budgets.mpr (fun row behind entry read known => ?_) id amount ⟨breach, member, entity⟩ found
    obtain ⟨other, among, wanted⟩ := known
    exact covered.budgets acts room scales row behind entry read other among wanted

end

/-- Pause the campaigns whose clicks cost more than one. -/
def pauseDear : AdRule where
  scope := .campaign
  action := .pause
  autoExecute := true
  maxActionsPerRun := 10
  dailyActionCap := 25
  metric := .cpc
  comparator := .gt
  threshold := "1.0000"
  windowDays := 3
  scalePct := none
  maxScalePct := 25

/-- Twenty-five campaigns with cheap clicks, and a last one with dear ones. -/
def busyAccount : AdAccount where
  insights _ _ _ := List.replicate 25 { campaignId := some "120209", cpc := some "0.50" } ++
    [{ campaignId := some "120210", cpc := some "5.00" }]
  campaigns := []
  adSets := []
  campaignsOnce := List.nodup_nil
  adSetsOnce := List.nodup_nil

/-- The rule finds no breach in the account, where one campaign breaches. -/
theorem last_campaign_unjudged :
    (evaluateRule pauseDear busyAccount "2026-07-01" "2026-07-04" [] 0).breaches.length = 0 ∧
      (findBreaches pauseDear (busyAccount.insights .campaign "2026-07-01" "2026-07-04")).length = 1 ∧
      ¬ Complete pauseDear busyAccount "2026-07-01" "2026-07-04"
        (cap pauseDear.toAdRule [] (dayBefore 0))
        (evaluateRule pauseDear busyAccount "2026-07-01" "2026-07-04" [] 0) := by
  have quiet :
      (evaluateRule pauseDear busyAccount "2026-07-01" "2026-07-04" [] 0).breaches.length = 0 := by
    decide +kernel
  have one : (findBreaches pauseDear
      (busyAccount.insights .campaign "2026-07-01" "2026-07-04")).length = 1 := by
    decide +kernel
  refine ⟨quiet, one, fun law => ?_⟩
  rw [law.considered] at quiet
  exact absurd (quiet.symm.trans one) (by decide)

end Gomer.Rules
