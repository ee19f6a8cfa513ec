import Gomer.Lib.Record
import Gomer.Lib.Rounding
import Gomer.Lib.Json
import Gomer.System.Guardrails
import Mathlib.Tactic.GCongr

/-! `RulesService.applyAction`: the change that an ad rule makes at one entity, and how far it is
from the budget that Meta has reported. -/
namespace Gomer.Rules

open JsNumber Guardrails

inductive RuleMetric where
  | spend | cpa | roas | verifiedRoas | ctr | cpc
  deriving DecidableEq, Repr

inductive RuleComparator where
  | gt | lt | gte | lte
  deriving DecidableEq, Repr

/-- What the rest of an evaluation reads of a rule. -/
structure AdRule extends Guardrails.AdRule where
  metric : RuleMetric
  comparator : RuleComparator
  threshold : String
  windowDays : Int
  scalePct : Option Int
  maxScalePct : Int

/-- A campaign or ad set of a listing. -/
structure BudgetRow where
  id : Option String
  dailyBudget : Option String

abbrev Budgets := AList fun _ : String => Double

/-- The calls of `MetaAdsService` that change an entity. -/
inductive MetaCall where
  | updateAdSet (adSetId : String) (status : Option String) (dailyBudget : Option Double)
  | updateCampaign (campaignId : String) (status : Option String) (dailyBudget : Option Double)

def update (scope : RuleScope) (entityId : String) (status : Option String)
    (dailyBudget : Option Double) : MetaCall :=
  match scope with
  | .adset => .updateAdSet entityId status dailyBudget
  | _ => .updateCampaign entityId status dailyBudget

def budgetEntry (raw : BudgetRow) : Option (String × Double) :=
  match nonEmpty raw.id, raw.dailyBudget with
  | some id, some budget => some (id, number budget)
  | _, _ => none

/-- The budgets by entity; of two rows with one id the later one counts. -/
def loadBudgets (rows : List BudgetRow) : Budgets :=
  Record.collect (·.1) (·.2) (rows.filterMap budgetEntry)

def clampPct (pct max : Int) : Int := Max.max (min pct |max|) (-|max|)

/-- `Math.max(Math.round(current * (1 + pct / 100)), 1)` -/
def scaled (current : Double) (pct : Int) : Double :=
  ((current.mul ((Double.finite 1).add (nearest (pct / 100)))).round).max (.finite 1)

/-- Of an action that is made, its call. -/
def applyAction (rule : AdRule) (entityId : String) (budgets : Budgets) : Except String MetaCall :=
  if rule.action = .pause then .ok (update rule.scope entityId (some "PAUSED") none)
  else
    match budgets.lookup entityId with
    | none => .error "no daily budget at this level to scale"
    | some current =>
      let pct := clampPct (rule.scalePct.getD 0) rule.maxScalePct
      .ok (update rule.scope entityId none (some (scaled current pct)))

theorem clampPct_abs (pct max : Int) : |clampPct pct max| ≤ |max| := by
  have positive := abs_nonneg max
  unfold clampPct
  rw [abs_le]
  omega

/-- Meta's rows for an entity have no budget, or one that reads as this number. -/
def Reports (rows : List BudgetRow) (id : String) (budget : Option Nat) : Prop :=
  (∃ row ∈ rows, row.id = some id) ∧
    ∀ row ∈ rows, row.id = some id →
      (row.dailyBudget.map fun text => digits1 10 text.toList) = budget.map some

theorem budgetEntry_some {raw : BudgetRow} {entry : String × Double} :
    budgetEntry raw = some entry ↔ raw.id = some entry.1 ∧ entry.1 ≠ "" ∧
      ∃ text, raw.dailyBudget = some text ∧ entry.2 = number text := by
  unfold budgetEntry
  constructor
  · intro read
    split at read
    · rename_i id text named priced
      cases read
      exact ⟨(nonEmpty_some named).1, (nonEmpty_some named).2, text, priced, rfl⟩
    · cases read
  · rintro ⟨named, filled, text, priced, value⟩
    have keyed : nonEmpty raw.id = some entry.1 := by simp [nonEmpty, named, filled]
    rw [keyed, priced]
    dsimp only
    rw [← value]

theorem lookup_loadBudgets {rows : List BudgetRow} {id : String} {budget : Option Nat} (named : id ≠ "")
    (reported : Reports rows id budget) :
    (loadBudgets rows).lookup id = budget.map fun n : Nat => nearest n := by
  obtain ⟨⟨row, member, own⟩, all⟩ := reported
  have entries {entry : String × Double} (listed : entry ∈ rows.filterMap budgetEntry)
      (same : entry.1 = id) : ∃ text, some (digits1 10 text.toList) = budget.map some ∧
        entry.2 = number text := by
    obtain ⟨raw, among, read⟩ := List.mem_filterMap.mp listed
    obtain ⟨keyed, -, text, priced, value⟩ := budgetEntry_some.mp read
    have known := all raw among (keyed.trans (congrArg some same))
    rw [priced] at known
    exact ⟨text, known, value⟩
  cases budget with
  | none =>
    have agree : ∀ entry ∈ rows.filterMap budgetEntry, entry.1 = id → entry.2 = .nan := by
      intro entry listed same
      obtain ⟨text, known, -⟩ := entries listed same
      cases known
    have absent : id ∉ (rows.filterMap budgetEntry).map (·.1) := by
      intro listed
      obtain ⟨entry, among, same⟩ := List.mem_map.mp listed
      obtain ⟨text, known, -⟩ := entries among same
      cases known
    exact (Record.lookup_collect _ _ _ id .nan agree).trans (if_neg absent)
  | some n =>
    have agree : ∀ entry ∈ rows.filterMap budgetEntry, entry.1 = id → entry.2 = nearest n := by
      intro entry listed same
      obtain ⟨text, known, value⟩ := entries listed same
      rw [value]
      exact number_digits (Option.some.inj known)
    have known := all row member own
    obtain ⟨text, priced, reads⟩ := Option.map_eq_some_iff.mp known
    have listed : id ∈ (rows.filterMap budgetEntry).map (·.1) :=
      List.mem_map.mpr ⟨(id, number text), List.mem_filterMap.mpr ⟨row, member,
        budgetEntry_some.mpr ⟨own, named, text, priced, rfl⟩⟩, rfl⟩
    exact (Record.lookup_collect _ _ _ id (nearest n) agree).trans (if_pos listed)

/-- How far the double for `1 + pct / 100` is off. -/
def factorError (pct : Int) : ℚ :=
  match (Double.finite 1).add (nearest (pct / 100)) with
  | .finite factor => factor - (1 + pct / 100)
  | _ => 0

/-- By how many units the ceiling lets a budget change. -/
def allowed (ceiling : Int) (budget : Nat) : Nat := (ceiling.natAbs * budget + 50) / 100

/-- The hundredths that the ceiling lacks to the next half unit. -/
def lack (ceiling : Int) (budget : Nat) : Int := (49 - budget * |ceiling|) % 100 + 1

/-- A budget whose doubles have room for an eighth of a unit, also when it is scaled. -/
abbrev Small (ceiling : Int) (budget : Nat) : Prop := budget * (100 + |ceiling|) ≤ 100 * 2 ^ 50

/-- Where the roundings of doubles do not carry a scaled budget over the ceiling. -/
inductive Scales (pct ceiling : Int) (budget : Nat) : Prop where
  /-- A percentage inside the ceiling leaves a hundredth of the budget for them. -/
  | inside (spare : |pct| < |ceiling|)
      (finite : (budget : ℚ) * (100 + |ceiling|) ≤ 100 * 2 ^ (1020 : ℤ))
  /-- Less than nothing becomes one unit. -/
  | emptied (all : pct ≤ -100) (finite : (budget : ℚ) * (100 + |ceiling|) ≤ 100 * 2 ^ (1020 : ℤ))
  /-- At the ceiling: the factor's error and half a step of the doubles end below the half unit. -/
  | raised (edge : pct = |ceiling|) (small : Small ceiling budget)
      (fits : 100 * (budget * factorError pct + halfStep (budget + allowed ceiling budget)) <
        lack ceiling budget)
  /-- Downwards, half a step of the doubles is on the budget's side. -/
  | lowered (edge : pct = -|ceiling|) (small : Small ceiling budget)
      (fits : budget ≤ allowed ceiling budget + 1 ∨
        -100 * (budget * factorError pct + halfStep (budget - allowed ceiling budget - 1)) ≤
          lack ceiling budget)
  /-- Nothing rounds. -/
  | unrounded (quarters : 25 ∣ pct) (whole : nearest budget = .finite budget)
      (amount : nearest (budget * (1 + pct / 100)) = .finite (budget * (1 + pct / 100)))
  /-- Only the product rounds, and by less than `Math.round` does. -/
  | quarters (quarters : 25 ∣ pct) (least : -100 ≤ pct) (whole : budget < 2 ^ 53)
      (amount : budget * (100 + pct) < 100 * 2 ^ 53)
  /-- Whatever the errors of the operations are, they are smaller than what the ceiling lacks. -/
  | close (fits : budget * (1 + |pct| + 2 * |100 + pct|) ≤ 2 ^ 53 * lack ceiling budget)

section
variable {n : Nat} {p M : Int}

theorem scaled_finite {c t s y : ℚ} (current : nearest n = .finite c)
    (part : nearest (p / 100) = .finite t) (sum : nearest (1 + t) = .finite s)
    (product : nearest (c * s) = .finite y) :
    scaled (nearest n) p = .finite (max ⌊y + 1 / 2⌋ 1 : Int) := by
  have top : max ((⌊y + 1 / 2⌋ : ℤ) : ℚ) 1 = ((max ⌊y + 1 / 2⌋ 1 : ℤ) : ℚ) := by
    rw [Int.cast_max, Int.cast_one]
  simp only [scaled, part, current, Double.add, sum, Double.mul, product, Double.round, Double.max, top]

/-- Percentages are at most a column of integers has. -/
theorem share_bounds (within : |p| ≤ M) (column : M < 2 ^ 31) :
    |(p : ℚ) / 100| ≤ M / 100 ∧ (0 : ℚ) ≤ M / 100 ∧ (M : ℚ) / 100 ≤ 2 ^ 25 := by
  have nonneg : (0 : ℚ) ≤ M := Int.cast_nonneg ((abs_nonneg p).trans within)
  have top : (M : ℚ) < 2 ^ 31 := by exact_mod_cast column
  refine ⟨?_, div_nonneg nonneg (by norm_num), by linarith⟩
  rw [abs_div, abs_of_pos (by norm_num : (0 : ℚ) < 100), ← Int.cast_abs]
  gcongr

theorem below_top {q : ℚ} (small : q ≤ 2 ^ 60) : q < 2 ^ (1023 : ℤ) := by
  refine small.trans_lt ?_
  rw [← zpow_natCast]
  exact zpow_lt_zpow_right₀ one_lt_two (by norm_num)

/-- The factor `1 + pct / 100` in doubles, each operation with its own rounding error. -/
theorem factor_error (within : |p| ≤ M) (column : M < 2 ^ 31) :
    ∃ t s : ℚ, nearest (p / 100) = .finite t ∧ nearest (1 + t) = .finite s ∧
      |s - (1 + p / 100)| ≤ (|(p : ℚ) / 100| + |1 + (p : ℚ) / 100|) / 2 ^ 53 + 1 / 2 ^ 80 := by
  obtain ⟨percent, nonneg, most⟩ := share_bounds within column
  have factor_le := abs_add_le 1 ((p : ℚ) / 100)
  rw [abs_one] at factor_le
  obtain ⟨t, part, offPart⟩ := nearest_within le_rfl (below_top (percent.trans (by linarith)))
  have sum_le : |1 + t| ≤ |1 + (p : ℚ) / 100| + (|(p : ℚ) / 100| / 2 ^ 53 + 1 / 2 ^ 100) := by
    have same : 1 + t = 1 + (p : ℚ) / 100 + (t - p / 100) := by ring
    rw [same]
    exact (abs_add_le _ _).trans (add_le_add_right offPart _)
  obtain ⟨s, sum, offSum⟩ := nearest_within sum_le (below_top (by linarith))
  refine ⟨t, s, part, sum, ?_⟩
  calc |s - (1 + (p : ℚ) / 100)| = |(s - (1 + t)) + (t - p / 100)| := by
        congr 1
        ring
    _ ≤ |s - (1 + t)| + |t - p / 100| := abs_add_le _ _
    _ ≤ (|1 + (p : ℚ) / 100| + (|(p : ℚ) / 100| / 2 ^ 53 + 1 / 2 ^ 100)) / 2 ^ 53 + 1 / 2 ^ 100 +
          (|(p : ℚ) / 100| / 2 ^ 53 + 1 / 2 ^ 100) := add_le_add offSum offPart
    _ ≤ (|(p : ℚ) / 100| + |1 + (p : ℚ) / 100|) / 2 ^ 53 + 1 / 2 ^ 80 := by linarith

theorem factor_nonpos (within : |p| ≤ M) (column : M < 2 ^ 31) (all : p ≤ -100) {t s : ℚ}
    (part : nearest (p / 100) = .finite t) (sum : nearest (1 + t) = .finite s) : s ≤ 0 := by
  have percent : t ≤ -1 := by
    by_cases whole : p = -100
    · have unit : nearest ((-1 : ℤ) : ℚ) = .finite ((-1 : ℤ) : ℚ) := nearest_intCast (by decide)
      have same : (p : ℚ) / 100 = ((-1 : ℤ) : ℚ) := by
        rw [whole]
        norm_num
      rw [same, unit] at part
      cases part
      exact le_of_eq (by norm_num)
    · obtain ⟨share, nonneg, most⟩ := share_bounds within column
      obtain ⟨v, near, off⟩ := nearest_within share (below_top (by linarith))
      cases part.symm.trans near
      have far : (p : ℚ) ≤ -101 := by
        have : p ≤ -101 := by omega
        exact_mod_cast this
      linarith [(abs_le.mp off).2]
  exact nearest_nonpos (by linarith) sum

/-- The product of a whole budget and a factor within its error. -/
theorem product_error {a s : ℚ} (one : (1 : ℚ) ≤ n) (top : (n : ℚ) < 2 ^ 53) (most : |a| ≤ 2 ^ 25)
    (factor : |s - (1 + a)| ≤ (|a| + |1 + a|) / 2 ^ 53 + 1 / 2 ^ 80) :
    ∃ y : ℚ, nearest (n * s) = .finite y ∧
      |y - n * (1 + a)| ≤ n * ((|a| + 2 * |1 + a|) / 2 ^ 53 + 1 / 2 ^ 78) := by
  have whole := abs_add_le 1 a
  rw [abs_one] at whole
  have factor_le : |s| ≤ |1 + a| + ((|a| + |1 + a|) / 2 ^ 53 + 1 / 2 ^ 80) := by
    calc |s| = |(1 + a) + (s - (1 + a))| := by
          congr 1
          ring
      _ ≤ |1 + a| + |s - (1 + a)| := abs_add_le _ _
      _ ≤ _ := add_le_add_right factor _
  have product_le : |n * s| ≤ n * (|1 + a| + ((|a| + |1 + a|) / 2 ^ 53 + 1 / 2 ^ 80)) := by
    rw [abs_mul, Nat.abs_cast]
    exact mul_le_mul_of_nonneg_left factor_le (by linarith)
  have bounded : n * (|1 + a| + ((|a| + |1 + a|) / 2 ^ 53 + 1 / 2 ^ 80)) < (2 : ℚ) ^ (1023 : ℤ) := by
    have le : n * (|1 + a| + ((|a| + |1 + a|) / 2 ^ 53 + 1 / 2 ^ 80)) ≤ (2 : ℚ) ^ 53 * 2 ^ 27 :=
      mul_le_mul top.le (by linarith) ((abs_nonneg s).trans factor_le) (by positivity)
    rw [← pow_add] at le
    refine le.trans_lt ?_
    rw [← zpow_natCast]
    exact zpow_lt_zpow_right₀ one_lt_two (by norm_num)
  obtain ⟨y, product, offProduct⟩ := nearest_within product_le bounded
  refine ⟨y, product, ?_⟩
  have offFactor : |(n : ℚ) * (s - (1 + a))| ≤ n * ((|a| + |1 + a|) / 2 ^ 53 + 1 / 2 ^ 80) := by
    rw [abs_mul, Nat.abs_cast]
    exact mul_le_mul_of_nonneg_left factor (by linarith)
  have second : n * (|a| + |1 + a|) ≤ n * 2 ^ 27 :=
    mul_le_mul_of_nonneg_left (by linarith) (by linarith)
  calc |y - n * (1 + a)| = |(y - n * s) + n * (s - (1 + a))| := by
        congr 1
        ring
    _ ≤ |y - n * s| + |(n : ℚ) * (s - (1 + a))| := abs_add_le _ _
    _ ≤ n * (|1 + a| + ((|a| + |1 + a|) / 2 ^ 53 + 1 / 2 ^ 80)) / 2 ^ 53 + 1 / 2 ^ 100 +
          n * ((|a| + |1 + a|) / 2 ^ 53 + 1 / 2 ^ 80) := add_le_add offProduct offFactor
    _ ≤ n * ((|a| + 2 * |1 + a|) / 2 ^ 53 + 1 / 2 ^ 78) := by linarith

theorem nearest_whole (small : n < 2 ^ 53) : nearest n = .finite n := by
  have whole : |(n : ℤ)| < 2 ^ 53 := by
    rw [Nat.abs_cast]
    exact_mod_cast small
  exact_mod_cast nearest_intCast whole

/-- A budget of up to 53 bits is scaled with the errors of three operations. -/
theorem scaled_error (within : |p| ≤ M) (column : M < 2 ^ 31) (positive : 0 < n) (small : n < 2 ^ 53) :
    ∃ y : ℚ, scaled (nearest n) p = .finite (max ⌊y + 1 / 2⌋ 1 : Int) ∧
      |y - n * (1 + p / 100)| ≤
        n * ((|(p : ℚ) / 100| + 2 * |1 + (p : ℚ) / 100|) / 2 ^ 53 + 1 / 2 ^ 78) := by
  obtain ⟨t, s, part, sum, factor⟩ := factor_error within column
  obtain ⟨percent, nonneg, most⟩ := share_bounds within column
  obtain ⟨y, product, off⟩ := product_error (Nat.one_le_cast.mpr positive) (by exact_mod_cast small)
    (percent.trans most) factor
  exact ⟨y, scaled_finite (nearest_whole small) part sum product, off⟩

/-- A budget of any size is scaled to within a hundredth of it, where the result is finite. -/
theorem scaled_rough (within : |p| ≤ M) (column : M < 2 ^ 31) (positive : 0 < n)
    (fits : (n : ℚ) * (100 + M) ≤ 100 * 2 ^ (1020 : ℤ)) :
    ∃ y : ℚ, scaled (nearest n) p = .finite (max ⌊y + 1 / 2⌋ 1 : Int) ∧ (p ≤ -100 → y ≤ 0) ∧
      |y - n * (1 + p / 100)| ≤ n / 100 := by
  obtain ⟨t, s, part, sum, offSharp⟩ := factor_error within column
  obtain ⟨percent, nonneg, most⟩ := share_bounds within column
  have sum_le := abs_add_le 1 ((p : ℚ) / 100)
  rw [abs_one] at sum_le
  have offFactor : |s - (1 + p / 100)| ≤ (1 + 2 * (M / 100)) / 2 ^ 53 + 1 / 2 ^ 80 := by linarith
  have one : (1 : ℚ) ≤ n := Nat.one_le_cast.mpr positive
  have room : (n : ℚ) * (1 + M / 100) ≤ 2 ^ (1020 : ℤ) := by linarith
  have below (B : ℚ) (le : B ≤ 4 * 2 ^ (1020 : ℤ)) : B < 2 ^ (1023 : ℤ) := by
    refine le.trans_lt ?_
    rw [show (4 : ℚ) = 2 ^ (2 : ℤ) by norm_num, ← zpow_add₀ two_ne_zero]
    exact zpow_lt_zpow_right₀ one_lt_two (by norm_num)
  generalize (M : ℚ) / 100 = m at *
  generalize (2 : ℚ) ^ (1020 : ℤ) = top at *
  have least : (n : ℚ) ≤ n * (1 + m) := le_mul_of_one_le_right (by linarith) (by linarith)
  obtain ⟨c, current, offCurrent⟩ := @nearest_within n n (Nat.abs_cast n).le (below n (by linarith))
  have offCurrent' := abs_le.mp offCurrent
  have current_le : |c| ≤ 2 * n := abs_le.mpr ⟨by linarith, by linarith⟩
  have factor_le : |s| ≤ 2 * (1 + m) := by
    have off := abs_le.mp offFactor
    have share := abs_le.mp percent
    exact abs_le.mpr ⟨by linarith, by linarith⟩
  have product_le : |c * s| ≤ 4 * (n * (1 + m)) := by
    rw [abs_mul]
    calc |c| * |s| ≤ 2 * n * (2 * (1 + m)) :=
          mul_le_mul current_le factor_le (abs_nonneg s) (by linarith)
      _ = 4 * (n * (1 + m)) := by ring
  obtain ⟨y, product, offProduct⟩ := nearest_within product_le (below _ (by linarith))
  refine ⟨y, scaled_finite current part sum product, fun all => ?_, ?_⟩
  · have nonneg : 0 ≤ c := by linarith
    exact nearest_nonpos (mul_nonpos_of_nonneg_of_nonpos nonneg
      (factor_nonpos within column all part sum)) product
  · have first : |(c - n) * s| ≤ (n / 2 ^ 53 + 1 / 2 ^ 100) * (2 * (1 + m)) := by
      rw [abs_mul]
      exact mul_le_mul offCurrent factor_le (abs_nonneg s) (by positivity)
    have second : |(n : ℚ) * (s - (1 + p / 100))| ≤ n * ((1 + 2 * m) / 2 ^ 53 + 1 / 2 ^ 80) := by
      rw [abs_mul, Nat.abs_cast]
      exact mul_le_mul_of_nonneg_left offFactor (by linarith)
    have share : (n : ℚ) * m ≤ n * 2 ^ 25 := mul_le_mul_of_nonneg_left most (by linarith)
    calc |y - n * (1 + p / 100)| = |(y - c * s) + ((c - n) * s + n * (s - (1 + p / 100)))| := by
          congr 1
          ring
      _ ≤ |y - c * s| + (|(c - n) * s| + |(n : ℚ) * (s - (1 + p / 100))|) :=
          (abs_add_le _ _).trans (add_le_add_right (abs_add_le _ _) _)
      _ ≤ 4 * (n * (1 + m)) / 2 ^ 53 + 1 / 2 ^ 100 + ((n / 2 ^ 53 + 1 / 2 ^ 100) * (2 * (1 + m)) +
            n * ((1 + 2 * m) / 2 ^ 53 + 1 / 2 ^ 80)) :=
          add_le_add offProduct (add_le_add first second)
      _ ≤ n / 100 := by linarith

/-- Quarters do not round. -/
theorem factor_quarters {k : ℤ} (small : |k| < 2 ^ 31) :
    nearest (((25 * k : ℤ) : ℚ) / 100) = .finite (((25 * k : ℤ) : ℚ) / 100) ∧
      nearest (1 + ((25 * k : ℤ) : ℚ) / 100) = .finite (1 + ((25 * k : ℤ) : ℚ) / 100) := by
  have bounds := abs_lt.mp small
  have part : ((25 * k : ℤ) : ℚ) / 100 = (k : ℚ) / 2 ^ 2 := by
    push_cast
    ring
  have sum : 1 + ((25 * k : ℤ) : ℚ) / 100 = ((k + 4 : ℤ) : ℚ) / 2 ^ 2 := by
    push_cast
    ring
  constructor
  · rw [part]
    exact nearest_dyadic (abs_lt.mpr ⟨by omega, by omega⟩) (by norm_num)
  · rw [sum]
    exact nearest_dyadic (abs_lt.mpr ⟨by omega, by omega⟩) (by norm_num)

theorem allowed_lack (M : Int) (n : Nat) :
    100 * (allowed M n : ℤ) + 50 = |M| * n + lack M n ∧ 1 ≤ lack M n ∧ lack M n ≤ 100 := by
  have share : (allowed M n : ℤ) = (|M| * n + 50) / 100 := by
    rw [allowed, Int.natCast_div]
    push_cast
    rfl
  rw [share, lack, mul_comm (n : ℤ)]
  omega

/-- What is closer to the budget than the next half unit past the ceiling rounds to within it. -/
theorem within_of_close {y : ℚ} (close : 100 * |y - n| < |M| * n + lack M n) :
    100 * |⌊y + 1 / 2⌋ - (n : ℤ)| ≤ |M| * n + 50 := by
  obtain ⟨next, least, most⟩ := allowed_lack M n
  have next' : 100 * (allowed M n : ℚ) + 50 = |M| * n + lack M n := by exact_mod_cast next
  rw [← next'] at close
  generalize (allowed M n : ℕ) = D at *
  have off := abs_lt.mp (show |y - n| < D + 1 / 2 by linarith)
  have below := Int.floor_le (y + 1 / 2)
  have above := Int.lt_floor_add_one (y + 1 / 2)
  have up : ⌊y + 1 / 2⌋ < n + D + 1 := by
    have lt : (⌊y + 1 / 2⌋ : ℚ) < ((n + D + 1 : ℤ) : ℚ) := by
      push_cast
      linarith
    exact_mod_cast lt
  have down : n - D - 1 < ⌊y + 1 / 2⌋ := by
    have lt : ((n - D - 1 : ℤ) : ℚ) < (⌊y + 1 / 2⌋ : ℚ) := by
      push_cast
      linarith
    exact_mod_cast lt
  have change : |⌊y + 1 / 2⌋ - (n : ℤ)| ≤ D := abs_le.mpr ⟨by omega, by omega⟩
  omega

theorem change_le (within : |p| ≤ M) : |(n : ℚ) * (1 + p / 100) - n| ≤ M * n / 100 := by
  have share : |(p : ℚ)| ≤ M := by exact_mod_cast within
  have same : (n : ℚ) * (1 + p / 100) - n = n * (p / 100) := by ring
  rw [same, abs_mul, Nat.abs_cast, abs_div, abs_of_pos (by norm_num : (0 : ℚ) < 100)]
  calc (n : ℚ) * (|(p : ℚ)| / 100) ≤ n * (M / 100) := by gcongr
    _ = M * n / 100 := by ring

theorem within_of_half {r : ℤ} (within : |p| ≤ M) (half : |(r : ℚ) - n * (1 + p / 100)| ≤ 1 / 2) :
    100 * |r - (n : ℤ)| ≤ M * n + 50 := by
  have off : |((r - n : ℤ) : ℚ)| ≤ 1 / 2 + M * n / 100 := by
    push_cast
    exact (abs_sub_le _ _ _).trans (add_le_add half (change_le within))
  have scaled : ((100 * |r - (n : ℤ)| : ℤ) : ℚ) ≤ ((M * n + 50 : ℤ) : ℚ) := by
    push_cast at off ⊢
    linarith
  exact_mod_cast scaled

/-- A positive budget is one unit at least. -/
theorem within_capped {r bound : ℤ} (positive : 0 < n) (kept : 100 * |r - (n : ℤ)| ≤ bound) :
    100 * |max r 1 - (n : ℤ)| ≤ bound := by
  obtain above | below := le_or_gt 1 r
  · rwa [max_eq_left above]
  · rw [abs_of_nonpos (by omega)] at kept
    rw [max_eq_right below.le, abs_of_nonpos (by omega)]
    omega

/-- A budget is raised over the ceiling from the next half unit on. -/
theorem raised_within {y : ℚ} (positive : 0 < n) (above : (n : ℚ) - 1 / 2 ≤ y) :
    100 * |max ⌊y + 1 / 2⌋ 1 - (n : ℤ)| ≤ |M| * n + 50 ↔
      ¬ ((n + allowed M n : ℕ) : ℚ) + 1 / 2 ≤ y := by
  obtain ⟨next, least, most⟩ := allowed_lack M n
  have up : (n : ℤ) ≤ ⌊y + 1 / 2⌋ := Int.le_floor.mpr (by push_cast; linarith)
  have reached : ((n + allowed M n : ℕ) : ℚ) + 1 / 2 ≤ y ↔ (n : ℤ) + allowed M n + 1 ≤ ⌊y + 1 / 2⌋ := by
    rw [Int.le_floor]
    push_cast
    constructor <;> intro _ <;> linarith
  rw [reached, max_eq_left (by omega), abs_of_nonneg (by omega)]
  omega

/-- A budget is lowered under the ceiling from below the last half unit on. -/
theorem lowered_within {y : ℚ} (positive : 0 < n) (below : y < n + 1 / 2) :
    100 * |max ⌊y + 1 / 2⌋ 1 - (n : ℤ)| ≤ |M| * n + 50 ↔
      n ≤ allowed M n + 1 ∨ ((n - allowed M n - 1 : ℕ) : ℚ) + 1 / 2 ≤ y := by
  obtain ⟨next, least, most⟩ := allowed_lack M n
  have down : ⌊y + 1 / 2⌋ < (n : ℤ) + 1 := Int.floor_lt.mpr (by push_cast; linarith)
  have reached : ((n - allowed M n - 1 : ℕ) : ℚ) + 1 / 2 ≤ y ↔
      ((n - allowed M n - 1 : ℕ) : ℤ) + 1 ≤ ⌊y + 1 / 2⌋ := by
    rw [Int.le_floor]
    push_cast
    constructor <;> intro _ <;> linarith
  have capped : max ⌊y + 1 / 2⌋ 1 ≤ (n : ℤ) := max_le (by omega) (by omega)
  rw [reached, abs_of_nonpos (by omega)]
  omega

theorem factorError_eq {t s : ℚ} (part : nearest (p / 100) = .finite t)
    (sum : nearest (1 + t) = .finite s) : s = 1 + p / 100 + factorError p := by
  simp only [factorError, part, Double.add, sum]
  ring

/-- A small budget is scaled to within half a unit, and where it is rounded is known. -/
theorem scaled_small (within : |p| ≤ |M|) (column : |M| < 2 ^ 31) (positive : 0 < n)
    (small : Small M n) :
    ∃ y : ℚ, scaled (nearest n) p = .finite (max ⌊y + 1 / 2⌋ 1 : Int) ∧
      |y - n * (1 + p / 100)| < 1 / 2 ∧ ∀ m : Nat, 0 < m → m < 2 ^ 51 →
        ((m : ℚ) + 1 / 2 ≤ y ↔ m + 1 / 2 - halfStep m ≤ n * (1 + p / 100) + n * factorError p) := by
  obtain ⟨t, s, part, sum, factor⟩ := factor_error within column
  obtain ⟨percent, nonneg, most⟩ := share_bounds within column
  have one : (1 : ℚ) ≤ n := Nat.one_le_cast.mpr positive
  have room : (n : ℚ) * (100 + |M|) ≤ 100 * 2 ^ 50 := by
    exact_mod_cast small
  have whole := abs_add_le 1 ((p : ℚ) / 100)
  rw [abs_one] at whole
  have share : (n : ℚ) * |(p : ℚ) / 100| ≤ n * (|M| / 100) :=
    mul_le_mul_of_nonneg_left percent (by linarith)
  have amount : (n : ℚ) * |1 + (p : ℚ) / 100| ≤ n * (1 + |M| / 100) :=
    mul_le_mul_of_nonneg_left (by linarith) (by linarith)
  have few : (n : ℚ) ≤ 2 ^ 50 := by
    have := mul_nonneg (by linarith : (0 : ℚ) ≤ n) nonneg
    linarith
  obtain ⟨y, product, off⟩ := product_error one (by linarith) (percent.trans most) factor
  have apart : (n : ℚ) * s = n * (1 + p / 100) + n * factorError p := by
    rw [factorError_eq part sum]
    ring
  have bounded : |(n : ℚ) * s| ≤ 2 ^ 60 := by
    have split : (n : ℚ) * s = n * (1 + p / 100) + n * (s - (1 + p / 100)) := by ring
    rw [split]
    refine (abs_add_le _ _).trans ?_
    rw [abs_mul, abs_mul, Nat.abs_cast]
    have error := mul_le_mul_of_nonneg_left factor (by linarith : (0 : ℚ) ≤ n)
    linarith
  have current : nearest n = .finite n := nearest_whole (by
    have : (n : ℚ) < 2 ^ 53 := by linarith
    exact_mod_cast this)
  refine ⟨y, scaled_finite current part sum product, by linarith, fun m filled fits => ?_⟩
  rw [half_le_nearest filled fits (below_top bounded) product, apart]

theorem Small.units (small : Small M n) : n + allowed M n < 2 ^ 51 := by
  obtain ⟨next, least, most⟩ := allowed_lack M n
  have fits : (n : ℤ) * 100 + |M| * n ≤ 100 * 2 ^ 50 := by
    rw [mul_comm |M|, ← mul_add]
    exact small
  omega

/-- The scaled budget is an integer that the ceiling allows. -/
def Keeps (pct ceiling : Int) (budget : Nat) : Prop :=
  ∃ next : Int, scaled (nearest budget) pct = .finite next ∧
    100 * |next - budget| ≤ |ceiling| * budget + 50

theorem keeps_iff {next : Int} (result : scaled (nearest n) p = .finite next) :
    Keeps p M n ↔ 100 * |next - (n : ℤ)| ≤ |M| * n + 50 := by
  constructor
  · rintro ⟨other, same, kept⟩
    cases Int.cast_inj.mp (Double.finite.inj (result.symm.trans same))
    exact kept
  · exact fun kept => ⟨next, result, kept⟩

/-- Where a small budget that is raised by as much as the ceiling has keeps it. -/
theorem raised_iff (edge : p = |M|) (column : |M| < 2 ^ 31) (positive : 0 < n) (small : Small M n) :
    Keeps p M n ↔ 100 * (n * factorError p + halfStep (n + allowed M n)) < lack M n := by
  have within : |p| ≤ |M| := by rw [edge, abs_abs]
  have share : (p : ℚ) = |M| := by exact_mod_cast edge
  have nonneg : 0 ≤ (n : ℚ) * |M| := by positivity
  obtain ⟨next, -, -⟩ := allowed_lack M n
  have next' : 100 * (allowed M n : ℚ) + 50 = |M| * n + lack M n := by exact_mod_cast next
  obtain ⟨y, result, off, near⟩ := scaled_small within column positive small
  have above := (abs_lt.mp off).1
  rw [share] at above
  rw [keeps_iff result, raised_within positive (by linarith), near _ (by omega) small.units, not_le,
    share, Nat.cast_add]
  constructor <;> intro _ <;> linarith

/-- Where a small budget that is lowered by as much as the ceiling has keeps it. -/
theorem lowered_iff (edge : p = -|M|) (column : |M| < 2 ^ 31) (positive : 0 < n) (small : Small M n) :
    Keeps p M n ↔ n ≤ allowed M n + 1 ∨
      -100 * (n * factorError p + halfStep (n - allowed M n - 1)) ≤ lack M n := by
  have within : |p| ≤ |M| := by rw [edge, abs_neg, abs_abs]
  have share : (p : ℚ) = -|M| := by exact_mod_cast edge
  have nonneg : 0 ≤ (n : ℚ) * |M| := by positivity
  obtain ⟨next, -, -⟩ := allowed_lack M n
  have next' : 100 * (allowed M n : ℚ) + 50 = |M| * n + lack M n := by exact_mod_cast next
  obtain ⟨y, result, off, near⟩ := scaled_small within column positive small
  have under := (abs_lt.mp off).2
  rw [share] at under
  rw [keeps_iff result, lowered_within positive (by linarith)]
  refine or_congr_right' fun more => ?_
  have units := small.units
  have left : ((n - allowed M n - 1 : ℕ) : ℚ) = n - allowed M n - 1 := by
    rw [Nat.cast_sub (by omega), Nat.cast_sub (by omega), Nat.cast_one]
  rw [near _ (by omega) (by omega), share, left]
  constructor <;> intro _ <;> linarith

theorem keeps_inside (spare : |p| < |M|) (column : |M| < 2 ^ 31) (positive : 0 < n)
    (finite : (n : ℚ) * (100 + |M|) ≤ 100 * 2 ^ (1020 : ℤ)) : Keeps p M n := by
  obtain ⟨y, result, -, off⟩ := scaled_rough spare.le column positive finite
  refine ⟨_, result, within_capped positive (within_of_close ?_)⟩
  have change := @change_le n p (|M| - 1) (by omega)
  have rest : (0 : ℚ) < lack M n := Int.cast_pos.mpr (allowed_lack M n).2.1
  have total : |y - n| ≤ n / 100 + (|M| - 1 : ℤ) * n / 100 :=
    (abs_sub_le _ _ _).trans (add_le_add off change)
  push_cast at total rest ⊢
  linarith

theorem keeps_emptied (all : p ≤ -100) (within : |p| ≤ |M|) (column : |M| < 2 ^ 31) (positive : 0 < n)
    (finite : (n : ℚ) * (100 + |M|) ≤ 100 * 2 ^ (1020 : ℤ)) : Keeps p M n := by
  obtain ⟨y, result, empty, -⟩ := scaled_rough within column positive finite
  have down : ⌊y + 1 / 2⌋ ≤ 0 := by
    have lt : (⌊y + 1 / 2⌋ : ℚ) < ((1 : ℤ) : ℚ) := by
      push_cast
      linarith [Int.floor_le (y + 1 / 2), empty all]
    have := Int.cast_lt.mp lt
    omega
  have most : (n : ℤ) * 100 ≤ |M| * n := by
    rw [mul_comm]
    have : 100 ≤ |M| := by
      have := abs_le.mp within
      omega
    gcongr
  refine ⟨_, result, ?_⟩
  rw [max_eq_right (by omega), abs_of_nonpos (by omega)]
  omega

theorem quarter_small {k : Int} (within : |25 * k| ≤ |M|) (column : |M| < 2 ^ 31) : |k| < 2 ^ 31 := by
  rw [abs_mul, abs_of_pos (by norm_num : (0 : ℤ) < 25)] at within
  omega

theorem keeps_unrounded (quarters : 25 ∣ p) (within : |p| ≤ |M|) (column : |M| < 2 ^ 31)
    (positive : 0 < n) (whole : nearest n = .finite n)
    (amount : nearest (n * (1 + p / 100)) = .finite (n * (1 + p / 100))) : Keeps p M n := by
  obtain ⟨k, rfl⟩ := quarters
  obtain ⟨part, sum⟩ := factor_quarters (quarter_small within column)
  exact ⟨_, scaled_finite whole part sum amount,
    within_capped positive (within_of_half within (round_error _))⟩

theorem keeps_quarters (quarters : 25 ∣ p) (least : -100 ≤ p) (within : |p| ≤ |M|)
    (column : |M| < 2 ^ 31) (positive : 0 < n) (whole : n < 2 ^ 53)
    (amount : n * (100 + p) < 100 * 2 ^ 53) : Keeps p M n := by
  obtain ⟨k, rfl⟩ := quarters
  obtain ⟨j, same⟩ : ∃ j : ℕ, (j : ℤ) = 4 + k := ⟨(4 + k).toNat, by omega⟩
  obtain ⟨part, sum⟩ := factor_quarters (quarter_small within column)
  have bits : n * j < 2 ^ 55 := by
    have quarter : (n : ℤ) * (100 + 25 * k) = 25 * (n * j) := by
      rw [same]
      ring
    rw [quarter] at amount
    have : ((n * j : ℕ) : ℤ) < 2 ^ 55 := by
      push_cast
      omega
    exact_mod_cast this
  have quarter : (n : ℚ) * (1 + ((25 * k : ℤ) : ℚ) / 100) = ((n * j : ℕ) : ℚ) / 4 := by
    have same' : (j : ℚ) = 4 + k := by exact_mod_cast same
    push_cast
    rw [same']
    ring
  obtain ⟨y, product, half⟩ := round_quarters bits
  rw [← quarter] at product half
  exact ⟨_, scaled_finite (nearest_whole whole) part sum product,
    within_capped positive (within_of_half within half)⟩

theorem keeps_close (within : |p| ≤ |M|) (column : |M| < 2 ^ 31) (positive : 0 < n)
    (fits : n * (1 + |p| + 2 * |100 + p|) ≤ 2 ^ 53 * lack M n) : Keeps p M n := by
  have least : 101 ≤ 1 + |p| + 2 * |100 + p| := by
    have turn := abs_sub_abs_le_abs_sub 100 (-p)
    rw [abs_neg, sub_neg_eq_add, abs_of_pos (by norm_num : (0 : ℤ) < 100)] at turn
    have := abs_nonneg (100 + p)
    omega
  have small : n < 2 ^ 53 := by
    have le : (n : ℤ) * 101 ≤ n * (1 + |p| + 2 * |100 + p|) :=
      mul_le_mul_of_nonneg_left least (by omega)
    have most := (allowed_lack M n).2.2
    omega
  have one : (1 : ℚ) ≤ n := Nat.one_le_cast.mpr positive
  obtain ⟨y, result, off⟩ := scaled_error within column positive small
  refine ⟨_, result, within_capped positive (within_of_close ?_)⟩
  have room : (n : ℚ) * (1 + |(p : ℚ)| + 2 * |100 + (p : ℚ)|) ≤ 2 ^ 53 * lack M n := by
    exact_mod_cast fits
  have part : |(p : ℚ) / 100| = |(p : ℚ)| / 100 := by
    rw [abs_div, abs_of_pos (by norm_num : (0 : ℚ) < 100)]
  have sum : |1 + (p : ℚ) / 100| = |100 + (p : ℚ)| / 100 := by
    rw [← abs_of_pos (by norm_num : (0 : ℚ) < 100), ← abs_div,
      abs_of_pos (by norm_num : (0 : ℚ) < 100)]
    congr 1
    ring
  rw [part, sum] at off
  have total := (abs_sub_le _ _ _).trans (add_le_add off (change_le within))
  linarith

theorem Scales.keeps (scales : Scales p M n) (within : |p| ≤ |M|) (column : |M| < 2 ^ 31)
    (positive : 0 < n) : Keeps p M n := by
  cases scales with
  | inside spare finite => exact keeps_inside spare column positive finite
  | emptied all finite => exact keeps_emptied all within column positive finite
  | raised edge small fits => exact (raised_iff edge column positive small).mpr fits
  | lowered edge small fits => exact (lowered_iff edge column positive small).mpr fits
  | unrounded quarters whole amount =>
    exact keeps_unrounded quarters within column positive whole amount
  | quarters quarters least whole amount =>
    exact keeps_quarters quarters least within column positive whole amount
  | close fits => exact keeps_close within column positive fits

/-- A small budget keeps the ceiling only there. -/
theorem scales_of_keeps (within : |p| ≤ |M|) (column : |M| < 2 ^ 31) (positive : 0 < n)
    (small : Small M n) (keeps : Keeps p M n) : Scales p M n := by
  have finite : (n : ℚ) * (100 + |M|) ≤ 100 * 2 ^ (1020 : ℤ) := by
    have least : (n : ℚ) * (100 + |M|) ≤ 100 * 2 ^ 50 := by
      exact_mod_cast small
    refine least.trans (mul_le_mul_of_nonneg_left ?_ (by norm_num))
    rw [← zpow_natCast]
    exact zpow_le_zpow_right₀ one_le_two (by norm_num)
  obtain spare | edge := lt_or_eq_of_le within
  · exact .inside spare finite
  · obtain up | down := le_or_gt 0 p
    · rw [abs_of_nonneg up] at edge
      exact .raised edge small ((raised_iff edge column positive small).mp keeps)
    · rw [abs_of_neg down, neg_eq_iff_eq_neg] at edge
      exact .lowered edge small ((lowered_iff edge column positive small).mp keeps)

end

theorem update_budget_inj {scope : RuleScope} {id : String} {amount other : Double}
    (same : update scope id none (some amount) = update scope id none (some other)) :
    amount = other := by
  cases scope <;> cases same <;> rfl

/-- An entity without a budget of its own is skipped; another one's changes by the percentage of the
ceiling at most, up to half a unit. -/
def RespectsCeiling (rule : AdRule) (entityId : String) (budget : Option Nat)
    (applied : Except String MetaCall) : Prop :=
  (∃ message, applied = .error message) ∨
    ∃ (current : Nat) (next : Int), budget = some current ∧ current ≠ 0 ∧
      applied = .ok (update rule.scope entityId none (some (.finite next))) ∧
      100 * |next - current| ≤ |rule.maxScalePct| * current + 50

/-- The entity has no budget, or one that is not zero and whose roundings do not matter. -/
def Scalable (rule : AdRule) (budget : Option Nat) : Prop :=
  ∀ current, budget = some current →
    0 < current ∧ Scales (clampPct (rule.scalePct.getD 0) rule.maxScalePct) rule.maxScalePct current

/-- `applyAction` keeps the ceiling where the budget is absent or can be scaled, and of small budgets
only there. -/
theorem applyAction_ceiling (rule : AdRule) {rows : List BudgetRow} {id : String} {budget : Option Nat}
    (scaling : rule.action = .scale) (named : id ≠ "") (reported : Reports rows id budget)
    (column : |rule.maxScalePct| < 2 ^ 31) :
    (Scalable rule budget → RespectsCeiling rule id budget (applyAction rule id (loadBudgets rows))) ∧
      ((∀ current, budget = some current → Small rule.maxScalePct current) →
        RespectsCeiling rule id budget (applyAction rule id (loadBudgets rows)) →
          Scalable rule budget) := by
  have acts : rule.action ≠ .pause := by
    rw [scaling]
    decide
  have found := lookup_loadBudgets named reported
  unfold applyAction
  rw [if_neg acts, found]
  cases budget with
  | none => exact ⟨fun _ => .inl ⟨_, rfl⟩, fun _ _ => nofun⟩
  | some current =>
    constructor
    · intro scalable
      obtain ⟨positive, scales⟩ := scalable current rfl
      obtain ⟨next, amount, kept⟩ := scales.keeps (clampPct_abs _ _) column positive
      refine .inr ⟨current, next, rfl, positive.ne', ?_, kept⟩
      exact congrArg (fun amount => Except.ok (update rule.scope id none (some amount))) amount
    · rintro small (⟨message, skipped⟩ | ⟨_, next, same, filled, amount, kept⟩)
      · cases skipped
      · cases same
        rintro _ ⟨⟩
        have positive := Nat.pos_of_ne_zero filled
        have result := update_budget_inj (Except.ok.inj amount)
        exact ⟨positive, scales_of_keeps (clampPct_abs _ _) column positive (small _ rfl)
          ⟨next, result, kept⟩⟩

/-- Raise the budgets of campaigns by a fifth. -/
def raiseBudgets : AdRule where
  scope := .campaign
  action := .scale
  autoExecute := true
  maxActionsPerRun := 10
  dailyActionCap := 25
  metric := .roas
  comparator := .gt
  threshold := "3.0000"
  windowDays := 3
  scalePct := some 20
  maxScalePct := 25

theorem reports_alone {id text : String} {budget : Nat} (read : digits1 10 text.toList = some budget) :
    Reports [⟨some id, some text⟩] id (some budget) := by
  refine ⟨⟨_, List.mem_singleton_self _, rfl⟩, fun row member _ => ?_⟩
  cases List.mem_singleton.mp member
  exact congrArg some read

theorem raise_keeps_ceiling :
    RespectsCeiling raiseBudgets "120210" (some 5000)
        (applyAction raiseBudgets "120210" (loadBudgets [⟨some "120210", some "5000"⟩])) ∧
      ¬ RespectsCeiling raiseBudgets "120210" (some 0)
        (applyAction raiseBudgets "120210" (loadBudgets [⟨some "120210", some "0"⟩])) := by
  have reported : Reports [⟨some "120210", some "5000"⟩] "120210" (some 5000) :=
    reports_alone (by decide)
  have empty : Reports [⟨some "120210", some "0"⟩] "120210" (some 0) := reports_alone (by decide)
  have filled := applyAction_ceiling raiseBudgets rfl (by decide) reported (by decide)
  have zero := applyAction_ceiling raiseBudgets rfl (by decide) empty (by decide)
  refine ⟨filled.1 ?_, fun kept => ?_⟩
  · rintro _ ⟨⟩
    exact ⟨by decide, .close (by decide)⟩
  · have scalable := zero.2 (by rintro _ ⟨⟩; decide) kept
    exact absurd (scalable 0 rfl).1 (Nat.lt_irrefl 0)

/-- 7 percent more would be 75294556270146.49: the errors of the doubles carry it over the half. -/
example : scaled (number "70368744177707") 7 = .finite 75294556270147 ∧
    ¬ 100 * |(75294556270147 : ℤ) - 70368744177707| ≤ 7 * 70368744177707 + 50 := by
  decide +kernel

/-- Where the ad sets have the budgets, Meta reports zero for the campaign. -/
theorem raise_sets_zero_budget :
    applyAction raiseBudgets "120210" (loadBudgets [⟨some "120210", some "0"⟩]) =
        .ok (.updateCampaign "120210" none (some (.finite 1))) ∧
      Reports [⟨some "120210", some "0"⟩] "120210" (some 0) ∧
      ¬ RespectsCeiling raiseBudgets "120210" (some 0)
        (applyAction raiseBudgets "120210" (loadBudgets [⟨some "120210", some "0"⟩])) := by
  have applied : applyAction raiseBudgets "120210" (loadBudgets [⟨some "120210", some "0"⟩]) =
      .ok (.updateCampaign "120210" none (some (.finite 1))) := by
    have amount : scaled (number "0") 20 = .finite 1 := by decide +kernel
    exact congrArg (fun amount => Except.ok (MetaCall.updateCampaign "120210" none (some amount))) amount
  refine ⟨applied, ?_, ?_⟩
  · exact reports_alone (by decide)
  · rw [applied]
    rintro (⟨message, skipped⟩ | ⟨current, next, same, filled, -⟩)
    · cases skipped
    · cases same
      exact filled rfl

end Gomer.Rules
