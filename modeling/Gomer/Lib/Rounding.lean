import Gomer.Lib.Number
import Mathlib.Data.List.TakeWhile
import Mathlib.Tactic.Linarith
import Mathlib.Tactic.Positivity
import Mathlib.Tactic.Ring
import Mathlib.Tactic.GCongr

/-! How far a double is from the rational that it stands for, and `Math.round`. -/
namespace JsNumber

/-- `a * b` -/
def Double.mul : Double → Double → Double
  | .finite a, .finite b => nearest (a * b)
  | .infinite a, .infinite b => .infinite (a != b)
  | .infinite a, .finite b | .finite b, .infinite a => if b = 0 then .nan else .infinite (a != (b < 0))
  | _, _ => .nan

/-- `-a` -/
def Double.neg : Double → Double
  | .finite a => .finite (-a)
  | .infinite negative => .infinite !negative
  | .nan => .nan

/-- `Math.abs` -/
def Double.abs : Double → Double
  | .finite a => .finite |a|
  | .infinite _ => .infinite false
  | .nan => .nan

/-- `a < b` -/
def Double.lt : Double → Double → Bool
  | .finite a, .finite b => a < b
  | .infinite a, .infinite b => a && !b
  | .infinite a, .finite _ => a
  | .finite _, .infinite b => !b
  | _, _ => false

/-- `a === b` -/
def Double.eq : Double → Double → Bool
  | .nan, _ => false
  | a, b => a == b

/-- `Math.round`: halves go up. -/
def Double.round : Double → Double
  | .finite a => .finite ⌊a + 1 / 2⌋
  | a => a

/-- `Math.max` -/
def Double.max : Double → Double → Double
  | .nan, _ | _, .nan => .nan
  | .infinite a, .infinite b => .infinite (a && b)
  | .infinite a, .finite b | .finite b, .infinite a => if a then .finite b else .infinite false
  | .finite a, .finite b => .finite (Max.max a b)

theorem log2_bounds {n : ℕ} (positive : n ≠ 0) :
    (2 : ℚ) ^ (n.log2 : ℤ) ≤ n ∧ (n : ℚ) < 2 ^ ((n.log2 : ℤ) + 1) := by
  have low : ((2 ^ n.log2 : ℕ) : ℚ) ≤ n := Nat.cast_le.mpr (Nat.log2_self_le positive)
  have high : (n : ℚ) < (2 ^ (n.log2 + 1) : ℕ) := Nat.cast_lt.mpr Nat.lt_log2_self
  push_cast at low high
  exact ⟨by exact_mod_cast low, by exact_mod_cast high⟩

theorem twoPow_pos (k : ℤ) : (0 : ℚ) < 2 ^ k := zpow_pos two_pos k

theorem exponent_bounds {a : ℚ} (positive : 0 < a) :
    (2 : ℚ) ^ exponent a ≤ a ∧ a < 2 ^ (exponent a + 1) := by
  have up : 0 < a.num := Rat.num_pos.mpr positive
  have parts : (a.num.natAbs : ℚ) = a * a.den := by
    rw [Rat.mul_den_eq_num, ← Int.cast_natCast, Int.natAbs_of_nonneg up.le]
  have top := log2_bounds (Int.natAbs_ne_zero.mpr up.ne')
  have bottom := log2_bounds a.den_nz
  rw [parts] at top
  unfold exponent
  dsimp only
  generalize (a.num.natAbs.log2 : ℤ) = m at *
  generalize (a.den.log2 : ℤ) = d at *
  have unit := twoPow_pos d
  have below : (2 : ℚ) ^ (m - d - 1) < a := by
    have scaled : (2 : ℚ) ^ (m - d - 1) * 2 ^ (d + 1) = 2 ^ m := by
      rw [← zpow_add₀ two_ne_zero]
      congr 1
      ring
    have le : a * a.den ≤ a * 2 ^ (d + 1) := mul_le_mul_of_nonneg_left bottom.2.le positive.le
    have lt : a * a.den < a * 2 ^ (d + 1) := mul_lt_mul_of_pos_left bottom.2 positive
    refine lt_of_mul_lt_mul_right ?_ (twoPow_pos (d + 1)).le
    rw [scaled]
    exact top.1.trans_lt lt
  have above : a < 2 ^ (m - d + 1) := by
    have scaled : (2 : ℚ) ^ (m - d + 1) * 2 ^ d = 2 ^ (m + 1) := by
      rw [← zpow_add₀ two_ne_zero]
      congr 1
      ring
    have le : a * 2 ^ d ≤ a * a.den := mul_le_mul_of_nonneg_left bottom.1 positive.le
    refine lt_of_mul_lt_mul_right ?_ unit.le
    rw [scaled]
    exact le.trans_lt top.2
  split
  · rename_i reached
    exact ⟨reached, above⟩
  · rename_i short
    refine ⟨below.le, ?_⟩
    rw [sub_add_cancel]
    exact not_le.mp short

theorem exponent_unique {a : ℚ} {k : ℤ} (low : (2 : ℚ) ^ k ≤ a) (high : a < 2 ^ (k + 1)) :
    exponent a = k := by
  obtain ⟨below, above⟩ := exponent_bounds ((twoPow_pos k).trans_le low)
  have up := (zpow_lt_zpow_iff_right₀ one_lt_two).mp (below.trans_lt high)
  have down := (zpow_lt_zpow_iff_right₀ one_lt_two).mp (low.trans_lt above)
  omega

theorem roundHalfEven_error (a : ℚ) : |roundHalfEven a - a| ≤ 1 / 2 := by
  have below := Int.floor_le a
  have above := Int.lt_floor_add_one a
  unfold roundHalfEven
  dsimp only
  rw [abs_le]
  split
  · constructor <;> linarith
  · split
    · push_cast
      constructor <;> linarith
    · split
      · constructor <;> linarith
      · push_cast
        constructor <;> linarith

/-- The distance of the doubles at a magnitude. -/
def ulp (a : ℚ) : ℚ := 2 ^ max (exponent a - 52) (-1074)

theorem ulp_pos (a : ℚ) : 0 < ulp a := twoPow_pos _

theorem ulp_half_le {a : ℚ} (positive : 0 < a) :
    ulp a / 2 ≤ a * 2 ^ (-53 : ℤ) + 2 ^ (-1075 : ℤ) := by
  unfold ulp
  obtain large | tiny := le_total (-1074) (exponent a - 52)
  · have halved : (2 : ℚ) ^ (exponent a - 52) / 2 = 2 ^ exponent a * 2 ^ (-53 : ℤ) := by
      rw [div_eq_mul_inv, ← zpow_neg_one, ← zpow_add₀ two_ne_zero, ← zpow_add₀ two_ne_zero]
      congr 1
      ring
    rw [max_eq_left large, halved]
    have le := mul_le_mul_of_nonneg_right (exponent_bounds positive).1 (twoPow_pos (-53)).le
    exact le.trans (le_add_of_nonneg_right (twoPow_pos _).le)
  · have halved : (2 : ℚ) ^ (-1074 : ℤ) / 2 = 2 ^ (-1075 : ℤ) := by
      rw [div_eq_mul_inv, ← zpow_neg_one, ← zpow_add₀ two_ne_zero]
      congr 1
    rw [max_eq_right tiny, halved]
    exact le_add_of_nonneg_left (mul_nonneg positive.le (twoPow_pos _).le)

/-- The magnitude that `nearest` chooses. -/
def rounded (a : ℚ) : ℚ := roundHalfEven (a / ulp a) * ulp a

theorem rounded_error (a : ℚ) : |rounded a - a| ≤ ulp a / 2 := by
  have scale := ulp_pos a
  have factored : rounded a - a = (roundHalfEven (a / ulp a) - a / ulp a) * ulp a := by
    rw [rounded, sub_mul, div_mul_cancel₀ _ scale.ne']
  rw [factored, abs_mul, abs_of_pos scale]
  calc |(roundHalfEven (a / ulp a) : ℚ) - a / ulp a| * ulp a ≤ 1 / 2 * ulp a :=
        mul_le_mul_of_nonneg_right (roundHalfEven_error _) scale.le
    _ = ulp a / 2 := by ring

theorem rounded_lt {a : ℚ} (positive : 0 < a) (small : a < 2 ^ (1023 : ℤ)) :
    rounded a < 2 ^ (1024 : ℕ) := by
  have top := (abs_le.mp (rounded_error a)).2
  have one : a * 2 ^ (-53 : ℤ) ≤ 2 ^ (970 : ℤ) := by
    have le := mul_le_mul_of_nonneg_right small.le (twoPow_pos (-53)).le
    rwa [← zpow_add₀ two_ne_zero] at le
  have other : (2 : ℚ) ^ (-1075 : ℤ) ≤ 2 ^ (970 : ℤ) := zpow_le_zpow_right₀ one_le_two (by norm_num)
  have fits : (2 : ℚ) ^ (970 : ℤ) + 2 ^ (970 : ℤ) ≤ 2 ^ (1023 : ℤ) := by
    rw [← two_mul, ← zpow_one_add₀ two_ne_zero]
    exact zpow_le_zpow_right₀ one_le_two (by norm_num)
  calc rounded a ≤ ulp a / 2 + a := sub_le_iff_le_add.mp top
    _ ≤ 2 ^ (1023 : ℤ) + a := by
      gcongr
      exact ((ulp_half_le positive).trans (add_le_add one other)).trans fits
    _ < 2 ^ (1023 : ℤ) + 2 ^ (1023 : ℤ) := by gcongr
    _ = 2 ^ (1024 : ℕ) := by
      rw [← two_mul, ← zpow_one_add₀ two_ne_zero, ← zpow_natCast]
      rfl

theorem nearest_rounded {q : ℚ} (some : q ≠ 0) (small : |q| < 2 ^ (1023 : ℤ)) :
    nearest q = .finite (if q < 0 then -rounded |q| else rounded |q|) := by
  unfold nearest
  rw [if_neg some]
  exact if_neg (not_le.mpr (rounded_lt (abs_pos.mpr some) small))

/-- A double is within half a unit in the last place. -/
theorem nearest_error {q : ℚ} (small : |q| < 2 ^ (1023 : ℤ)) :
    ∃ v, nearest q = .finite v ∧ |v - q| ≤ |q| * 2 ^ (-53 : ℤ) + 2 ^ (-1075 : ℤ) := by
  by_cases zero : q = 0
  · refine ⟨0, if_pos zero, ?_⟩
    rw [zero, sub_self, abs_zero, zero_mul, zero_add]
    exact (twoPow_pos _).le
  · have error := (rounded_error |q|).trans (ulp_half_le (abs_pos.mpr zero))
    refine ⟨_, nearest_rounded zero small, ?_⟩
    by_cases negative : q < 0
    · have mirror : -rounded |q| - q = -(rounded |q| - |q|) := by
        rw [abs_of_neg negative]
        ring
      rw [if_pos negative, mirror, abs_neg]
      exact error
    · rw [if_neg negative]
      rw [abs_of_nonneg (not_lt.mp negative)] at error ⊢
      exact error

/-- What a rounding adds to an error, where the magnitude is known. -/
theorem nearest_within {q B : ℚ} (within : |q| ≤ B) (most : B < 2 ^ (1023 : ℤ)) :
    ∃ v, nearest q = .finite v ∧ |v - q| ≤ B / 2 ^ 53 + 1 / 2 ^ 100 := by
  obtain ⟨v, same, error⟩ := nearest_error (within.trans_lt most)
  refine ⟨v, same, error.trans ?_⟩
  have tiny : (2 : ℚ) ^ (-1075 : ℤ) ≤ 2 ^ (-100 : ℤ) := zpow_le_zpow_right₀ one_le_two (by norm_num)
  have floor : (2 : ℚ) ^ (-100 : ℤ) = 1 / 2 ^ 100 := by norm_num
  have unit : (2 : ℚ) ^ (-53 : ℤ) = 1 / 2 ^ 53 := by norm_num
  rw [floor] at tiny
  rw [unit, div_eq_mul_one_div B]
  exact add_le_add (mul_le_mul_of_nonneg_right within (by positivity)) tiny

/-- A double is close to what it stands for, where that is not huge. -/
theorem nearest_close {q B : ℚ} (within : |q| ≤ B) (least : 1 ≤ B) (most : B ≤ 2 ^ 60) :
    ∃ v, nearest q = .finite v ∧ |v - q| ≤ B / 2 ^ 52 := by
  have small : B < 2 ^ (1023 : ℤ) := by
    refine most.trans_lt ?_
    rw [← zpow_natCast]
    exact zpow_lt_zpow_right₀ one_lt_two (by norm_num)
  obtain ⟨v, same, error⟩ := nearest_within within small
  exact ⟨v, same, by linarith⟩

theorem roundHalfEven_intCast (k : ℤ) : roundHalfEven (k : ℚ) = k := by
  unfold roundHalfEven
  dsimp only
  rw [Int.floor_intCast, sub_self, if_pos (by norm_num)]

theorem rounded_dyadic {k j : Nat} (positive : 0 < k) (small : k < 2 ^ 53) (fine : j ≤ 1000) :
    rounded (k / 2 ^ j) = k / 2 ^ j := by
  have up : (0 : ℚ) < k := Nat.cast_pos.mpr positive
  have scale : (2 : ℚ) ^ j = 2 ^ (j : ℤ) := (zpow_natCast 2 j).symm
  rw [scale]
  generalize same : (k : ℚ) / 2 ^ (j : ℤ) = q
  have back : (k : ℚ) = q * 2 ^ (j : ℤ) := by
    rw [← same, div_mul_cancel₀ _ (twoPow_pos _).ne']
  have filled : 0 < q := same ▸ div_pos up (twoPow_pos _)
  obtain ⟨low, high⟩ := exponent_bounds filled
  have least : -(j : ℤ) ≤ exponent q := by
    by_contra tiny
    have below : (2 : ℚ) ^ (exponent q + 1) ≤ 2 ^ (-(j : ℤ)) :=
      zpow_le_zpow_right₀ one_le_two (by omega)
    have one : (1 : ℚ) ≤ k := Nat.one_le_cast.mpr positive
    have under : q * 2 ^ (j : ℤ) < 2 ^ (-(j : ℤ)) * 2 ^ (j : ℤ) :=
      mul_lt_mul_of_pos_right (high.trans_le below) (twoPow_pos _)
    rw [← back, zpow_neg, inv_mul_cancel₀ (twoPow_pos _).ne'] at under
    linarith
  have most : exponent q + j ≤ 52 := by
    by_contra large
    have above : (2 : ℚ) ^ (53 : ℤ) ≤ 2 ^ (exponent q + j) := zpow_le_zpow_right₀ one_le_two (by omega)
    have beyond : (2 : ℚ) ^ exponent q * 2 ^ (j : ℤ) ≤ q * 2 ^ (j : ℤ) :=
      mul_le_mul_of_nonneg_right low (twoPow_pos _).le
    have under : (k : ℚ) < 2 ^ (53 : ℤ) := by exact_mod_cast small
    rw [← zpow_add₀ two_ne_zero, ← back] at beyond
    linarith
  obtain ⟨g, gap⟩ := Int.eq_ofNat_of_zero_le (sub_nonneg.mpr most)
  have unit : ulp q = (2 ^ (g : ℤ) * 2 ^ (j : ℤ) : ℚ)⁻¹ := by
    rw [ulp, max_eq_left (by omega), ← zpow_add₀ two_ne_zero, ← zpow_neg]
    congr 1
    omega
  have whole : q / ulp q = ((k * 2 ^ g : ℤ) : ℚ) := by
    rw [unit, div_inv_eq_mul, mul_left_comm, ← back]
    push_cast
    rw [zpow_natCast, mul_comm]
  rw [rounded, whole, roundHalfEven_intCast, ← whole, div_mul_cancel₀ _ (ulp_pos q).ne']

/-- Integers of up to 53 bits over a power of two are doubles. -/
theorem nearest_dyadic {k : ℤ} {j : Nat} (small : |k| < 2 ^ 53) (fine : j ≤ 1000) :
    nearest (k / 2 ^ j) = .finite (k / 2 ^ j) := by
  have scale : (0 : ℚ) < 2 ^ j := pow_pos two_pos j
  by_cases zero : k = 0
  · subst zero
    rw [Int.cast_zero, zero_div]
    exact if_pos rfl
  · have filled : (k : ℚ) / 2 ^ j ≠ 0 := div_ne_zero (Int.cast_ne_zero.mpr zero) scale.ne'
    have magnitude : |(k : ℚ) / 2 ^ j| = k.natAbs / 2 ^ j := by
      rw [abs_div, abs_of_pos scale, Nat.cast_natAbs, Int.cast_abs]
    have bounded : k.natAbs < 2 ^ 53 := by
      rw [Int.abs_eq_natAbs] at small
      exact_mod_cast small
    have low : |(k : ℚ) / 2 ^ j| < 2 ^ (1023 : ℤ) := by
      have under : (k.natAbs : ℚ) < 2 ^ (53 : ℕ) := by exact_mod_cast bounded
      rw [magnitude]
      refine (div_le_self (Nat.cast_nonneg _) (one_le_pow₀ one_le_two)).trans_lt (under.trans_le ?_)
      rw [← zpow_natCast]
      exact zpow_le_zpow_right₀ one_le_two (by norm_num)
    rw [nearest_rounded filled low, magnitude,
      rounded_dyadic (Int.natAbs_pos.mpr zero) bounded fine, ← magnitude]
    split
    · rename_i negative
      rw [abs_of_neg negative, neg_neg]
    · rename_i positive
      rw [abs_of_nonneg (not_lt.mp positive)]

/-- Integers of up to 53 bits are doubles. -/
theorem nearest_intCast {n : ℤ} (small : |n| < 2 ^ 53) : nearest n = .finite n := by
  simpa using nearest_dyadic small (Nat.zero_le _)

theorem nearest_nonpos {q v : ℚ} (nonpos : q ≤ 0) (value : nearest q = .finite v) : v ≤ 0 := by
  unfold nearest at value
  split at value
  · cases value
    exact le_rfl
  · rename_i filled
    have negative : q < 0 := lt_of_le_of_ne nonpos filled
    dsimp only at value
    split at value
    · cases value
    · cases value
      have nonneg : (0 : ℚ) ≤ rounded |q| := by
        have low : (0 : ℤ) ≤ roundHalfEven (|q| / ulp |q|) := by
          have off := (abs_le.mp (roundHalfEven_error (|q| / ulp |q|))).1
          have up : 0 ≤ |q| / ulp |q| := div_nonneg (abs_nonneg q) (ulp_pos _).le
          have close : (-1 : ℚ) < (roundHalfEven (|q| / ulp |q|) : ℚ) := by linarith
          have : (-1 : ℤ) < roundHalfEven (|q| / ulp |q|) := by exact_mod_cast close
          omega
        exact mul_nonneg (Int.cast_nonneg low) (ulp_pos _).le
      exact neg_nonpos.mpr nonneg

theorem roundHalfEven_half (i : ℤ) : ∃ z : ℤ, roundHalfEven (i + 1 / 2) = 2 * z := by
  have below : ⌊(i : ℚ) + 1 / 2⌋ = i := by
    rw [Int.floor_eq_iff]
    constructor <;> linarith
  have rest : (i : ℚ) + 1 / 2 - i = 1 / 2 := by ring
  unfold roundHalfEven
  dsimp only
  rw [below, rest, if_neg (lt_irrefl _), if_neg (lt_irrefl _)]
  split
  · exact ⟨i / 2, by omega⟩
  · exact ⟨(i + 1) / 2, by omega⟩

theorem round_error (y : ℚ) : |(⌊y + 1 / 2⌋ : ℚ) - y| ≤ 1 / 2 := by
  have below := Int.floor_le (y + 1 / 2)
  have above := Int.lt_floor_add_one (y + 1 / 2)
  exact abs_le.mpr ⟨by linarith, by linarith⟩

theorem round_intCast (z : ℤ) : ⌊(z : ℚ) + 1 / 2⌋ = z := by
  rw [Int.floor_eq_iff]
  constructor <;> linarith

/-- `Math.round` of the double nearest to some quarters is as good as that of the quarters. -/
theorem round_quarters {k : Nat} (small : k < 2 ^ 55) :
    ∃ y : ℚ, nearest (k / 4) = .finite y ∧ |(⌊y + 1 / 2⌋ : ℚ) - k / 4| ≤ 1 / 2 := by
  obtain few | many := Nat.lt_or_ge k (2 ^ 53)
  · have exact_ : nearest (((k : ℤ) : ℚ) / 2 ^ 2) = .finite (((k : ℤ) : ℚ) / 2 ^ 2) :=
      nearest_dyadic (by rw [Nat.abs_cast]; exact_mod_cast few) (by norm_num)
    have four : ((k : ℤ) : ℚ) / 2 ^ 2 = k / 4 := by norm_num
    rw [four] at exact_
    exact ⟨_, exact_, round_error _⟩
  · have low : (2 : ℚ) ^ 53 ≤ k := by exact_mod_cast many
    have high : (k : ℚ) < 2 ^ 55 := by exact_mod_cast small
    have up : (0 : ℚ) < k / 4 := by linarith
    have value : nearest (k / 4) = .finite (rounded (k / 4)) := by
      have under : |(k : ℚ) / 4| < 2 ^ (1023 : ℤ) := by
        rw [abs_of_pos up]
        refine (show (k : ℚ) / 4 < 2 ^ 53 by linarith).trans_le ?_
        rw [← zpow_natCast]
        exact zpow_le_zpow_right₀ one_le_two (by norm_num)
      rw [nearest_rounded up.ne' under, if_neg (not_lt.mpr up.le), abs_of_pos up]
    refine ⟨_, value, ?_⟩
    obtain half | unit := lt_or_ge ((k : ℚ) / 4) (2 ^ 52)
    · have magnitude : exponent ((k : ℚ) / 4) = 51 :=
        exponent_unique ((zpow_natCast 2 51).trans_le (by linarith))
          (half.trans_eq (zpow_natCast 2 52).symm)
      have spacing : ulp ((k : ℚ) / 4) = 1 / 2 := by
        rw [ulp, magnitude]
        norm_num
      rw [rounded, spacing]
      obtain ⟨i, even | odd⟩ := Nat.even_or_odd' k
      · have twice : (k : ℚ) / 4 / (1 / 2) = ((i : ℤ) : ℚ) := by
          rw [even]
          push_cast
          ring
        rw [twice, roundHalfEven_intCast]
        have back : ((i : ℤ) : ℚ) * (1 / 2) = k / 4 := by
          rw [← twice]
          ring
        rw [back]
        exact round_error _
      · have twice : (k : ℚ) / 4 / (1 / 2) = ((i : ℤ) : ℚ) + 1 / 2 := by
          rw [odd]
          push_cast
          ring
        obtain ⟨z, tie⟩ := roundHalfEven_half i
        have off := roundHalfEven_error ((i : ℤ) + 1 / 2)
        rw [tie] at off
        rw [twice, tie]
        push_cast at off ⊢
        have whole : (2 : ℚ) * z * (1 / 2) = z := by ring
        rw [whole, round_intCast]
        have split : (k : ℚ) / 4 = (i + 1 / 2) / 2 := by
          rw [odd]
          push_cast
          ring
        rw [split]
        have off' := abs_le.mp off
        exact abs_le.mpr ⟨by linarith, by linarith⟩
    · have magnitude : exponent ((k : ℚ) / 4) = 52 :=
        exponent_unique ((zpow_natCast 2 52).trans_le unit)
          (lt_of_lt_of_eq (by linarith) (zpow_natCast 2 53).symm)
      have spacing : ulp ((k : ℚ) / 4) = 1 := by
        rw [ulp, magnitude]
        norm_num
      rw [rounded, spacing, mul_one, div_one, round_intCast]
      exact roundHalfEven_error _

theorem floor_le_roundHalfEven (a : ℚ) : ⌊a⌋ ≤ roundHalfEven a := by
  unfold roundHalfEven
  dsimp only
  split
  · exact le_rfl
  · split
    · omega
    · split <;> omega

/-- What rounds up to an even integer: halves go to it. -/
theorem le_roundHalfEven {a : ℚ} {z : ℤ} (even : 2 ∣ z) :
    z ≤ roundHalfEven a ↔ (z : ℚ) - 1 / 2 ≤ a := by
  constructor
  · intro reached
    by_contra short
    have under := not_le.mp short
    have below : ⌊a⌋ < z := Int.floor_lt.mpr (by linarith)
    have next : ⌊a⌋ + 1 = z → a - ⌊a⌋ < 1 / 2 := by
      intro last
      have : (⌊a⌋ : ℚ) = z - 1 := by
        rw [← last]
        push_cast
        ring
      linarith
    unfold roundHalfEven at reached
    dsimp only at reached
    split at reached
    · omega
    · rename_i more
      exact more (next (by split at reached <;> [skip; split at reached] <;> omega))
  · intro reached
    have low : z - 1 ≤ ⌊a⌋ := Int.le_floor.mpr (by push_cast; linarith)
    obtain last | above := eq_or_lt_of_le low
    · have rest : ¬ a - ⌊a⌋ < 1 / 2 := by
        rw [← last]
        push_cast
        linarith
      unfold roundHalfEven
      dsimp only
      rw [if_neg rest]
      split
      · omega
      · rw [if_neg (by omega)]
        omega
    · exact (show z ≤ ⌊a⌋ by omega).trans (floor_le_roundHalfEven a)

/-- Half the distance of the doubles below some units and a half. -/
def halfStep (units : Nat) : ℚ := 2 ^ ((units.log2 : ℤ) - 53)

theorem halfStep_le {m : Nat} (positive : 0 < m) (small : m < 2 ^ 51) : halfStep m ≤ 1 / 8 := by
  have few : m.log2 < 51 := (Nat.log2_lt positive.ne').mpr small
  have eighth : (1 : ℚ) / 8 = 2 ^ (-3 : ℤ) := by norm_num
  rw [halfStep, eighth]
  exact zpow_le_zpow_right₀ one_le_two (by omega)

/-- Between two powers of two, the doubles are the multiples of one step. -/
theorem half_le_rounded {q : ℚ} {m : Nat} (small : m < 2 ^ 51) (positive : 0 < m)
    (low : (2 : ℚ) ^ (m.log2 : ℤ) ≤ q) (high : q < 2 ^ ((m.log2 : ℤ) + 1)) :
    (m : ℚ) + 1 / 2 ≤ rounded q ↔ m + 1 / 2 - halfStep m ≤ q := by
  have few : m.log2 < 51 := (Nat.log2_lt positive.ne').mpr small
  have step : ulp q = 2 ^ ((m.log2 : ℤ) - 52) := by
    rw [ulp, exponent_unique low high, max_eq_left (by omega)]
  have twice : ulp q = 2 * halfStep m := by
    rw [step, halfStep, ← zpow_one_add₀ two_ne_zero]
    congr 1
    ring
  have steps : (((2 * m + 1) * 2 ^ (51 - m.log2) : ℤ) : ℚ) * ulp q = m + 1 / 2 := by
    have scale : (2 : ℚ) ^ (51 - m.log2) * 2 ^ ((m.log2 : ℤ) - 52) = 1 / 2 := by
      rw [← zpow_natCast, ← zpow_add₀ two_ne_zero, Nat.cast_sub (by omega)]
      norm_num
    push_cast
    rw [step, mul_assoc, scale]
    ring
  have even : (2 : ℤ) ∣ (2 * m + 1) * 2 ^ (51 - m.log2) :=
    Dvd.dvd.mul_left (dvd_pow_self 2 (by omega)) _
  have unit := ulp_pos q
  generalize (2 * m + 1 : ℤ) * 2 ^ (51 - m.log2) = z at *
  calc (m : ℚ) + 1 / 2 ≤ rounded q ↔ z ≤ roundHalfEven (q / ulp q) := by
        rw [rounded, ← steps, mul_le_mul_iff_left₀ unit, Int.cast_le]
    _ ↔ (z : ℚ) - 1 / 2 ≤ q / ulp q := le_roundHalfEven even
    _ ↔ m + 1 / 2 - halfStep m ≤ q := by
        rw [le_div_iff₀ unit, sub_mul, steps, twice]
        ring_nf

/-- What rounds to some units and a half or more. -/
theorem half_le_nearest {q y : ℚ} {m : Nat} (positive : 0 < m) (small : m < 2 ^ 51)
    (bounded : |q| < 2 ^ (1023 : ℤ)) (value : nearest q = .finite y) :
    (m : ℚ) + 1 / 2 ≤ y ↔ m + 1 / 2 - halfStep m ≤ q := by
  obtain ⟨low, high⟩ := log2_bounds positive.ne'
  have next : (m : ℚ) + 1 ≤ 2 ^ ((m.log2 : ℤ) + 1) := by
    have le : ((m + 1 : ℕ) : ℚ) ≤ ((2 ^ (m.log2 + 1) : ℕ) : ℚ) := Nat.cast_le.mpr Nat.lt_log2_self
    push_cast at le
    exact_mod_cast le
  have step := halfStep_le positive small
  have up : 0 < halfStep m := twoPow_pos _
  have units : (m : ℚ) < 2 ^ 51 := by exact_mod_cast small
  have one : (1 : ℚ) ≤ m := Nat.one_le_cast.mpr positive
  obtain ⟨v, same, error⟩ := nearest_error bounded
  cases value.symm.trans same
  have tiny : (2 : ℚ) ^ (-1075 : ℤ) ≤ 1 / 100 := by
    have : (2 : ℚ) ^ (-1075 : ℤ) ≤ 2 ^ (-7 : ℤ) := zpow_le_zpow_right₀ one_le_two (by norm_num)
    exact this.trans (by norm_num)
  have part : (2 : ℚ) ^ (-53 : ℤ) = 1 / 2 ^ 53 := by norm_num
  rw [part] at error
  have off := abs_le.mp error
  obtain below | reached := lt_or_ge q (2 ^ (m.log2 : ℤ))
  · refine iff_of_false ?_ (by linarith)
    obtain nonpos | filled := le_or_gt q 0
    · have := nearest_nonpos nonpos value
      linarith
    · rw [abs_of_pos filled] at off
      linarith
  · have filled : 0 < q := (twoPow_pos _).trans_le reached
    rw [abs_of_pos filled] at off
    obtain inside | beyond := lt_or_ge q (2 ^ ((m.log2 : ℤ) + 1))
    · have same := nearest_rounded filled.ne' bounded
      rw [if_neg (not_lt.mpr filled.le), abs_of_pos filled] at same
      cases value.symm.trans same
      exact half_le_rounded small positive reached inside
    · refine iff_of_true ?_ (by linarith)
      linarith

/-! Reading an integer -/

theorem digit_ten {c : Char} (decimal : (digit 10 c).isSome) : 48 ≤ c.toNat ∧ c.toNat ≤ 57 := by
  unfold digit at decimal
  dsimp only at decimal
  split at decimal
  · rename_i inside
    simpa [Char.le_def, UInt32.le_iff_toNat_le] using inside
  · split at decimal
    · rename_i inside
      simp [Char.le_def, UInt32.le_iff_toNat_le] at inside
      split at decimal
      · have : c.toNat = c.val.toNat := rfl
        omega
      · cases decimal
    · split at decimal
      · rename_i inside
        simp [Char.le_def, UInt32.le_iff_toNat_le] at inside
        split at decimal
        · have : c.toNat = c.val.toNat := rfl
          omega
        · cases decimal
      · cases decimal

theorem foldl_none (base : Nat) (text : List Char) :
    text.foldl (fun value c => value.bind fun n => (digit base c).map fun d => base * n + d) none =
      none := by
  induction text with
  | nil => rfl
  | cons c rest ih => exact ih

theorem digits_mem {base : Nat} {text : List Char} {n : Nat} (read : digits base text = some n) :
    ∀ c ∈ text, (digit base c).isSome := by
  have step : ∀ value : Option Nat, text.foldl (fun value c => value.bind fun n =>
      (digit base c).map fun d => base * n + d) value = some n → ∀ c ∈ text, (digit base c).isSome := by
    clear read
    induction text with
    | nil => exact fun _ _ _ absent => absurd absent List.not_mem_nil
    | cons first rest ih =>
      intro value read
      rw [List.foldl_cons] at read
      refine List.forall_mem_cons.mpr ⟨?_, ih _ read⟩
      cases known : digit base first with
      | some d => rfl
      | none =>
        have lost : (value.bind fun n => (digit base first).map fun d => base * n + d) = none := by
          rw [known]
          cases value <;> rfl
        rw [lost, foldl_none] at read
        cases read
  exact step _ read

theorem trim_eq_self {text : List Char} (solid : ∀ c ∈ text, isSpace c = false) : trim text = text := by
  have kept : ∀ text : List Char, (∀ c ∈ text, isSpace c = false) → text.dropWhile isSpace = text := by
    intro text solid
    cases text with
    | nil => rfl
    | cons c rest => exact List.dropWhile_cons_of_neg (by simp [solid c List.mem_cons_self])
  rw [trim, kept text solid, kept _ fun c member => solid c (List.mem_reverse.mp member),
    List.reverse_reverse]

theorem splitAt_none {test : Char → Bool} {text : List Char} (absent : ∀ c ∈ text, test c = false) :
    splitAt test text = (text, none) := by
  have all : (text.dropWhile fun c => !test c) = [] :=
    List.dropWhile_eq_nil_iff.mpr fun c member => by simp [absent c member]
  rw [splitAt, all]

theorem ne_of_digits {text : List Char} {n : Nat} (read : digits 10 text = some n) {d : Char}
    (other : d.toNat < 48 ∨ 57 < d.toNat) : ∀ c ∈ text, c ≠ d := by
  intro c member same
  have decimal := digit_ten (digits_mem read c member)
  rw [same] at decimal
  omega

theorem decimal_digits {text : List Char} {n : Nat} (some : text ≠ [])
    (read : digits 10 text = Option.some n) : decimal text = nearest n := by
  have apart (d : Char) (other : d.toNat < 48 ∨ 57 < d.toNat) := ne_of_digits read other
  have unsigned : signed text = (false, text) := by
    cases text with
    | nil => rfl
    | cons c rest =>
      have plus := apart '+' (by decide) c List.mem_cons_self
      have minus := apart '-' (by decide) c List.mem_cons_self
      unfold signed
      split
      · rename_i same
        cases same
        exact absurd rfl plus
      · rename_i same
        cases same
        exact absurd rfl minus
      · rfl
  have ordinary : text ≠ "Infinity".toList := fun same =>
    apart 'I' (by decide) 'I' (same ▸ List.mem_cons_self) rfl
  have whole : splitAt (fun c => c == 'e' || c == 'E') text = (text, none) := splitAt_none fun c member => by
    simp [apart 'e' (by decide) c member, apart 'E' (by decide) c member]
  have pointless : splitAt (· == '.') text = (text, none) := splitAt_none fun c member => by
    simp [apart '.' (by decide) c member]
  have value : unsignedDecimal text = Option.some (n : ℚ) := by
    have places : ¬ (text = [] ∧ (none : Option (List Char)).getD [] = []) := fun none => some none.1
    simp only [unsignedDecimal, whole, pointless]
    rw [if_neg places, Option.getD_none, List.append_nil, read]
    simp [exponentPart]
  unfold decimal
  rw [unsigned]
  dsimp only
  rw [if_neg ordinary, value]
  rfl

/-- `Number` on the digits of a non-negative integer. -/
theorem number_digits {text : String} {n : Nat} (read : digits1 10 text.toList = some n) :
    number text = nearest n := by
  have some : text.toList ≠ [] := fun empty => by
    rw [empty] at read
    cases read
  have value : digits 10 text.toList = Option.some n := by
    rw [← read, digits1, if_neg some]
  have apart (d : Char) (other : d.toNat < 48 ∨ 57 < d.toNat) := ne_of_digits value other
  have solid : ∀ c ∈ text.toList, isSpace c = false := fun c member => by
    have decimal := digit_ten (digits_mem value c member)
    have listed : [9, 10, 11, 12, 13, 32, 160, 5760, 8232, 8233, 8239, 8287, 12288, 65279].contains
        c.toNat = false := by
      simp only [List.contains_eq_mem, List.mem_cons, List.not_mem_nil, or_false, decide_eq_false_iff_not]
      omega
    have ranged : (8192 ≤ c.toNat && c.toNat ≤ 8202) = false := by
      rw [decide_eq_false (by omega : ¬ 8192 ≤ c.toNat), Bool.false_and]
    rw [isSpace, listed, ranged]
    rfl
  unfold number
  rw [trim_eq_self solid]
  split
  · rename_i empty
    exact absurd empty some
  · rename_i c rest shape
    have member : c ∈ text.toList := by
      rw [shape]
      exact List.mem_cons_of_mem _ List.mem_cons_self
    have plain : ∀ d : Char, 57 < d.toNat → (c == d) = false := fun d other =>
      beq_eq_false_iff_ne.mpr (apart d (.inr other) c member)
    rw [plain 'x' (by decide), plain 'X' (by decide), plain 'o' (by decide), plain 'O' (by decide),
      plain 'b' (by decide), plain 'B' (by decide), ← shape]
    exact decimal_digits some value
  · exact decimal_digits some value

end JsNumber
