import Gomer.Lib.Render
import Gomer.Lib.Rounding

/-! Seventeen digits of a double read back as the same double. -/
namespace JsNumber

/-! What rounds to a double -/

theorem roundHalfEven_near {a : ℚ} {k : ℤ} (near : |a - k| < 1 / 2) : roundHalfEven a = k := by
  have error := roundHalfEven_error a
  have close : |((roundHalfEven a - k : ℤ) : ℚ)| < 1 := by
    push_cast
    calc |(roundHalfEven a : ℚ) - k| ≤ |roundHalfEven a - a| + |a - k| := abs_sub_le _ _ _
      _ < 1 / 2 + 1 / 2 := add_lt_add_of_le_of_lt error near
      _ = 1 := by norm_num
  rw [← Int.cast_abs] at close
  have zero := Int.abs_lt_one_iff.mp (by exact_mod_cast close)
  omega

/-- A value on the grid of `x` is what `x` rounds to, where they are less than half a unit apart. -/
theorem rounded_near {x q : ℚ} {k : ℤ} (grid : q = k * ulp x) (near : |x - q| < ulp x / 2) :
    rounded x = q := by
  have unit := ulp_pos x
  have scaled : |x / ulp x - k| < 1 / 2 := by
    have same : x / ulp x - k = (x - q) / ulp x := by
      rw [grid, sub_div, mul_div_cancel_right₀ _ unit.ne']
    rw [same, abs_div, abs_of_pos unit, div_lt_iff₀ unit]
    linarith
  rw [rounded, roundHalfEven_near scaled, grid]

/-- A positive double: on its own grid, and below the infinite. -/
structure IsDouble (q : ℚ) : Prop where
  positive : 0 < q
  grid : rounded q = q
  bounded : q < 2 ^ (1024 : ℕ)

theorem isDouble_of_nearest {q : ℚ} (positive : 0 < q) (double : nearest q = .finite q) :
    IsDouble q := by
  unfold nearest at double
  rw [if_neg positive.ne', abs_of_pos positive] at double
  dsimp only at double
  split at double
  · cases double
  · rename_i small
    rw [if_neg (not_lt.mpr positive.le)] at double
    have same : rounded q = q := by
      injection double
    exact ⟨positive, same, by rw [← same]; exact not_le.mp small⟩

theorem nearest_of_rounded {x q : ℚ} (positive : 0 < x) (same : rounded x = q)
    (bounded : q < 2 ^ (1024 : ℕ)) : nearest x = .finite q := by
  unfold nearest
  rw [if_neg positive.ne', abs_of_pos positive]
  have magnitude : (roundHalfEven (x / 2 ^ max (exponent x - 52) (-1074)) : ℚ) *
      2 ^ max (exponent x - 52) (-1074) = q := same
  simp only [magnitude, if_neg (not_le.mpr bounded), if_neg (not_lt.mpr positive.le)]

theorem zpow_grid {k e : ℤ} (le : e ≤ k) : ∃ m : ℤ, (2 : ℚ) ^ k = m * 2 ^ e := by
  obtain ⟨d, rfl⟩ := Int.exists_add_of_le le
  refine ⟨2 ^ d, ?_⟩
  rw [zpow_add₀ two_ne_zero, zpow_natCast]
  push_cast
  ring

theorem le_ulp (a : ℚ) : (2 : ℚ) ^ (exponent a - 52) ≤ ulp a :=
  zpow_le_zpow_right₀ one_le_two (le_max_left _ _)

/-- Fewer than `2 ^ 53` units make a value. -/
theorem lt_ulps {a : ℚ} (positive : 0 < a) : a < 2 ^ (53 : ℕ) * ulp a := by
  calc a < 2 ^ (exponent a + 1) := (exponent_bounds positive).2
    _ = 2 ^ (53 : ℕ) * 2 ^ (exponent a - 52) := by
      rw [← zpow_natCast, ← zpow_add₀ two_ne_zero]
      congr 1
      push_cast
      ring
    _ ≤ 2 ^ (53 : ℕ) * ulp a := by
      gcongr
      exact le_ulp a

/-- How close a value must be to a double that it stands for. -/
def closeness : ℚ := 1 / 2 * (1 / 10 ^ (16 : ℕ))

theorem closeness_ulp {q u : ℚ} (unit : 0 < u) (few : q ≤ 2 ^ (53 : ℕ) * u) :
    q * closeness < u / 2 := by
  have factor : (2 : ℚ) ^ (53 : ℕ) * closeness < 1 / 2 := by norm_num [closeness]
  have tiny : (0 : ℚ) ≤ closeness := by norm_num [closeness]
  calc q * closeness ≤ 2 ^ (53 : ℕ) * u * closeness := mul_le_mul_of_nonneg_right few tiny
    _ = u * (2 ^ (53 : ℕ) * closeness) := by ring
    _ < u * (1 / 2) := mul_lt_mul_of_pos_left factor unit
    _ = u / 2 := by ring

theorem IsDouble.onGrid {q : ℚ} (double : IsDouble q) : ∃ k : ℤ, q = k * ulp q :=
  ⟨_, double.grid.symm⟩

/-- The smallest double is a unit. -/
theorem IsDouble.least {q : ℚ} (double : IsDouble q) : ulp q ≤ q := by
  obtain ⟨k, same⟩ := double.onGrid
  have unit := ulp_pos q
  have one : 1 ≤ k := by
    by_contra none
    have gone : (k : ℚ) ≤ 0 := by exact_mod_cast Int.lt_add_one_iff.mp (not_le.mp none)
    have := mul_nonpos_of_nonpos_of_nonneg gone unit.le
    rw [← same] at this
    exact absurd double.positive (not_lt.mpr this)
  calc ulp q = 1 * ulp q := (one_mul _).symm
    _ ≤ k * ulp q := mul_le_mul_of_nonneg_right (by exact_mod_cast one) unit.le
    _ = q := same.symm

theorem IsDouble.normal_exponent {q : ℚ} (double : IsDouble q) : -1074 ≤ exponent q := by
  have low : (2 : ℚ) ^ (-1074 : ℤ) ≤ q :=
    (zpow_le_zpow_right₀ one_le_two (le_max_right _ _)).trans double.least
  have lt := low.trans_lt (exponent_bounds double.positive).2
  have := (zpow_lt_zpow_iff_right₀ one_lt_two).mp lt
  omega

/-- The next doubles above a value of the grid are a unit away. -/
theorem grid_gap {q u p : ℚ} (unit : 0 < u) {k m : ℤ} (first : q = k * u) (second : p = m * u)
    (lt : p < q) : p + u ≤ q := by
  have less : m < k := by
    have := lt
    rw [first, second] at this
    exact_mod_cast lt_of_mul_lt_mul_right this unit.le
  have le : ((m + 1 : ℤ) : ℚ) * u ≤ k * u :=
    mul_le_mul_of_nonneg_right (by exact_mod_cast less) unit.le
  rw [first, second]
  push_cast at le
  linarith

/-- What is close enough to a double rounds to it. -/
theorem nearest_near {q x : ℚ} (double : IsDouble q) (near : |x - q| ≤ q * closeness) :
    nearest x = .finite q := by
  have positive := double.positive
  obtain ⟨low, high⟩ := exponent_bounds positive
  obtain ⟨k, onGrid⟩ := double.onGrid
  have unit := ulp_pos q
  have half := near.trans_lt (closeness_ulp unit (lt_ulps positive).le)
  obtain ⟨left, right⟩ := abs_lt.mp half
  have ulpExponent : max (exponent q - 52) (-1074) ≤ exponent q := by
    have := double.normal_exponent
    omega
  obtain ⟨m, base⟩ := zpow_grid ulpExponent
  obtain ⟨n, top⟩ := zpow_grid (ulpExponent.trans (by omega : exponent q ≤ exponent q + 1))
  have below : x < 2 ^ (exponent q + 1) := by
    have := grid_gap unit top onGrid high
    linarith
  have some : 0 < x := by
    have := double.least
    linarith
  refine nearest_of_rounded some ?_ double.bounded
  obtain inside | under := le_or_gt ((2 : ℚ) ^ exponent q) x
  · have same : ulp x = ulp q := by rw [ulp, exponent_unique inside below, ulp]
    exact rounded_near (k := k) (by rw [same]; exact onGrid) (by rw [same]; exact half)
  · -- the double is a power of two, and the grid below it may be finer
    have power : q = 2 ^ exponent q := by
      by_contra other
      have := grid_gap unit onGrid base (lt_of_le_of_ne low (Ne.symm other))
      linarith
    have far : (2 : ℚ) ^ (exponent q - 1) ≤ x := by
      have quarter : q * closeness ≤ q / 2 := by
        have : closeness ≤ 1 / 2 := by norm_num [closeness]
        linarith [mul_le_mul_of_nonneg_left this positive.le]
      have halved : (2 : ℚ) ^ (exponent q - 1) = q / 2 := by
        rw [zpow_sub_one₀ two_ne_zero, ← power]
        rfl
      rw [halved]
      linarith [(abs_le.mp near).1]
    have lower : exponent x = exponent q - 1 := exponent_unique far (by rwa [sub_add_cancel])
    have finer : ulp x = 2 ^ max (exponent q - 53) (-1074) := by
      rw [ulp, lower]
      congr 1
      omega
    obtain ⟨j, fine⟩ := zpow_grid (k := exponent q) (e := max (exponent q - 53) (-1074)) (by omega)
    have few : q ≤ 2 ^ (53 : ℕ) * ulp x := by
      rw [finer]
      calc q = 2 ^ exponent q := power
        _ = 2 ^ (53 : ℕ) * 2 ^ (exponent q - 53) := by
          rw [← zpow_natCast, ← zpow_add₀ two_ne_zero]
          congr 1
          push_cast
          ring
        _ ≤ 2 ^ (53 : ℕ) * 2 ^ max (exponent q - 53) (-1074) := by
          gcongr
          · exact one_le_two
          · exact le_max_left _ _
    exact rounded_near (k := j) (by rw [finer, ← fine]; exact power)
      (near.trans_lt (closeness_ulp (ulp_pos x) few))

theorem ulp_grid {a b : ℚ} (le : exponent a ≤ exponent b) : ∃ m : ℤ, ulp b = m * ulp a :=
  zpow_grid (max_le_max_right _ (by omega))

theorem rounded_le {x : ℚ} (positive : 0 < x) (normal : -1074 ≤ exponent x) :
    rounded x ≤ 2 ^ (exponent x + 1) := by
  have unit := ulp_pos x
  obtain ⟨m, top⟩ := zpow_grid (k := exponent x + 1) (e := max (exponent x - 52) (-1074)) (by omega)
  have below : x / ulp x < m := by
    rw [div_lt_iff₀ unit]
    exact (exponent_bounds positive).2.trans_eq top
  have error := (abs_le.mp (roundHalfEven_error (x / ulp x))).2
  have bound : roundHalfEven (x / ulp x) ≤ m := by
    have : (roundHalfEven (x / ulp x) : ℚ) < ((m + 1 : ℤ) : ℚ) := by
      push_cast
      linarith
    exact Int.lt_add_one_iff.mp (by exact_mod_cast this)
  rw [rounded, top]
  exact mul_le_mul_of_nonneg_right (by exact_mod_cast bound) unit.le

/-- A rounded value is on its own grid. -/
theorem rounded_rounded {x : ℚ} (positive : 0 < x) (some : 0 < rounded x) :
    rounded (rounded x) = rounded x := by
  have onGrid : ∃ k : ℤ, rounded x = k * ulp (rounded x) := by
    obtain ⟨low, high⟩ := exponent_bounds some
    obtain le | gt := le_or_gt (exponent (rounded x)) (exponent x)
    · obtain ⟨m, coarse⟩ := ulp_grid le
      refine ⟨roundHalfEven (x / ulp x) * m, ?_⟩
      push_cast
      rw [mul_assoc, ← coarse]
      rfl
    · by_cases normal : -1074 ≤ exponent x
      · have upper := rounded_le positive normal
        have reach : (2 : ℚ) ^ (exponent x + 1) ≤ 2 ^ exponent (rounded x) :=
          zpow_le_zpow_right₀ one_le_two (by omega)
        have same : rounded x = 2 ^ exponent (rounded x) := le_antisymm (upper.trans reach) low
        obtain ⟨m, grid⟩ := zpow_grid (k := exponent (rounded x))
          (e := max (exponent (rounded x) - 52) (-1074)) (by omega)
        exact ⟨m, same.trans grid⟩
      · have tiny : ulp x = 2 ^ (-1074 : ℤ) := by
          rw [ulp, max_eq_right (by omega)]
        have least : x < 2 ^ (-1074 : ℤ) :=
          (exponent_bounds positive).2.trans_le (zpow_le_zpow_right₀ one_le_two (by omega))
        have unit := ulp_pos x
        have below : x / ulp x < 1 := by
          rw [div_lt_one unit, tiny]
          exact least
        have error := (abs_le.mp (roundHalfEven_error (x / ulp x))).2
        have one : roundHalfEven (x / ulp x) ≤ 1 := by
          have : (roundHalfEven (x / ulp x) : ℚ) < ((2 : ℤ) : ℚ) := by
            push_cast
            linarith
          exact Int.lt_add_one_iff.mp (by exact_mod_cast this)
        have upper : rounded x ≤ 2 ^ (-1074 : ℤ) := by
          rw [rounded, ← tiny]
          calc (roundHalfEven (x / ulp x) : ℚ) * ulp x ≤ 1 * ulp x :=
                mul_le_mul_of_nonneg_right (by exact_mod_cast one) unit.le
            _ = ulp x := one_mul _
        have small : exponent (rounded x) ≤ -1074 := by
          have := (zpow_le_zpow_iff_right₀ one_lt_two).mp (low.trans upper)
          exact this
        have fine : ulp (rounded x) = ulp x := by
          rw [tiny, ulp, max_eq_right (by omega)]
        exact ⟨_, by rw [fine]; rfl⟩
  obtain ⟨k, grid⟩ := onGrid
  exact rounded_near grid (by simpa using (half_pos (ulp_pos _)))

theorem rounded_nonneg {x : ℚ} (positive : 0 < x) : 0 ≤ rounded x := by
  have unit := ulp_pos x
  have error := (abs_le.mp (roundHalfEven_error (x / ulp x))).1
  have ratio := div_pos positive unit
  have bound : -1 < roundHalfEven (x / ulp x) := by
    have : ((-1 : ℤ) : ℚ) < roundHalfEven (x / ulp x) := by
      push_cast
      linarith
    exact_mod_cast this
  exact mul_nonneg (by exact_mod_cast (by omega : 0 ≤ roundHalfEven (x / ulp x))) unit.le

theorem nearest_neg {v : ℚ} (some : v ≠ 0) : nearest (-v) = (nearest v).neg := by
  unfold nearest
  rw [if_neg some, if_neg (neg_ne_zero.mpr some), abs_neg]
  dsimp only
  split
  · rcases lt_or_gt_of_ne some with negative | positive
    · simp [Double.neg, negative, negative.le]
    · simp [Double.neg, positive, positive.le]
  · rcases lt_or_gt_of_ne some with negative | positive
    · simp [Double.neg, negative, negative.le]
    · simp [Double.neg, positive, positive.le]

theorem nearest_idem_pos {x q : ℚ} (positive : 0 < x) (same : nearest x = .finite q) :
    nearest q = .finite q := by
  unfold nearest at same
  rw [if_neg positive.ne', abs_of_pos positive] at same
  dsimp only at same
  split at same
  · cases same
  · rename_i small
    rw [if_neg (not_lt.mpr positive.le)] at same
    have here : rounded x = q := by injection same
    rcases (rounded_nonneg positive).eq_or_lt with zero | some
    · rw [← here, ← zero]
      exact if_pos rfl
    · have again := rounded_rounded positive some
      rw [here] at some again
      exact nearest_of_rounded some again (by rw [← here]; exact not_le.mp small)

/-- What `nearest` gives is a double. -/
theorem nearest_idem {x q : ℚ} (same : nearest x = .finite q) : nearest q = .finite q := by
  rcases lt_trichotomy x 0 with negative | zero | positive
  · have mirrored : nearest (-x) = .finite (-q) := by
      rw [nearest_neg negative.ne, same]
      rfl
    have done := nearest_idem_pos (neg_pos.mpr negative) mirrored
    by_cases none : q = 0
    · rw [none]
      exact if_pos rfl
    · have back := nearest_neg (neg_ne_zero.mpr none)
      rw [neg_neg, done] at back
      rw [back]
      simp [Double.neg]
  · rw [zero, nearest, if_pos rfl] at same
    cases same
    exact if_pos rfl
  · exact nearest_idem_pos positive same

/-! Decimal digits -/

theorem tenPow_pos (k : ℤ) : (0 : ℚ) < 10 ^ k := zpow_pos (by norm_num) k

theorem log10_bounds {n : ℕ} (positive : n ≠ 0) :
    (10 : ℚ) ^ (Nat.log 10 n : ℤ) ≤ n ∧ (n : ℚ) < 10 ^ ((Nat.log 10 n : ℤ) + 1) := by
  have low : ((10 ^ Nat.log 10 n : ℕ) : ℚ) ≤ n := Nat.cast_le.mpr (Nat.pow_log_le_self 10 positive)
  have high : (n : ℚ) < (10 ^ (Nat.log 10 n + 1) : ℕ) :=
    Nat.cast_lt.mpr (Nat.lt_pow_succ_log_self (by decide) n)
  push_cast at low high
  exact ⟨by exact_mod_cast low, by exact_mod_cast high⟩

theorem decimalExponent_bounds {q : ℚ} (positive : 0 < q) :
    (10 : ℚ) ^ (Json.decimalExponent q - 1) ≤ q ∧ q < 10 ^ Json.decimalExponent q := by
  have ten : (10 : ℚ) ≠ 0 := by norm_num
  have up : 0 < q.num := Rat.num_pos.mpr positive
  have parts : (q.num.natAbs : ℚ) = q * q.den := by
    rw [Rat.mul_den_eq_num, ← Int.cast_natCast, Int.natAbs_of_nonneg up.le]
  have top := log10_bounds (Int.natAbs_ne_zero.mpr up.ne')
  have bottom := log10_bounds q.den_nz
  rw [parts] at top
  unfold Json.decimalExponent
  dsimp only
  generalize (Nat.log 10 q.num.natAbs : ℤ) = m at *
  generalize (Nat.log 10 q.den : ℤ) = d at *
  have below : (10 : ℚ) ^ (m - d - 1) ≤ q := by
    have scaled : (10 : ℚ) ^ (m - d - 1) * 10 ^ (d + 1) = 10 ^ m := by
      rw [← zpow_add₀ ten]
      congr 1
      ring
    have le : q * q.den ≤ q * 10 ^ (d + 1) := mul_le_mul_of_nonneg_left bottom.2.le positive.le
    refine le_of_mul_le_mul_right ?_ (tenPow_pos (d + 1))
    rw [scaled]
    exact top.1.trans le
  have above : q < 10 ^ (m - d + 1) := by
    have scaled : (10 : ℚ) ^ (m - d + 1) * 10 ^ d = 10 ^ (m + 1) := by
      rw [← zpow_add₀ ten]
      congr 1
      ring
    have le : q * 10 ^ d ≤ q * q.den := mul_le_mul_of_nonneg_left bottom.1 positive.le
    refine lt_of_mul_lt_mul_right ?_ (tenPow_pos d).le
    rw [scaled]
    exact le.trans_lt top.2
  split
  · rename_i small
    exact ⟨below, small⟩
  · rename_i large
    rw [add_sub_cancel_right]
    exact ⟨not_lt.mp large, above⟩

theorem ofDigitChars_lt {text : List Char} (decimal : ∀ c ∈ text, c.isDigit = true) :
    Nat.ofDigitChars 10 text 0 < 10 ^ text.length := by
  induction text with
  | nil => simp
  | cons c rest ih =>
    obtain ⟨here, later⟩ := List.forall_mem_cons.mp decimal
    have digit := Char.isDigit_iff_toNat.mp here
    have bound := ih later
    have nine : c.toNat - '0'.toNat ≤ 9 := by
      have : '9'.toNat = '0'.toNat + 9 := rfl
      omega
    have most := Nat.mul_le_mul_left (10 ^ rest.length) nine
    rw [Nat.ofDigitChars_cons, Nat.ofDigitChars_eq_ofDigitChars_zero, List.length_cons, pow_succ,
      Nat.mul_zero, Nat.zero_add]
    omega

/-- The digits of `v`, with the first one just behind the point and moved by `10 ^ n`. -/
structure Digits (text : List Char) (n : ℤ) (v : ℚ) : Prop where
  some : text ≠ []
  decimal : ∀ c ∈ text, c.isDigit = true
  leading : text.head? ≠ Option.some '0'
  value : v = Nat.ofDigitChars 10 text 0 * (10 : ℚ) ^ (n - text.length)

theorem toString_toList {s : ℤ} (positive : 0 ≤ s) :
    (toString s).toList = Nat.toDigits 10 s.toNat := by
  obtain ⟨n, rfl⟩ := Int.eq_ofNat_of_zero_le positive
  exact String.toList_ofList

theorem digits_natural {n k : Nat} (some : 0 < k) (low : 10 ^ (k - 1) ≤ n) (high : n < 10 ^ k) (e : ℤ) :
    Digits (Nat.toDigits 10 n) e (n * (10 : ℚ) ^ (e - k)) := by
  have decimal : ∀ c ∈ Nat.toDigits 10 n, c.isDigit = true :=
    fun c member => Nat.isDigit_of_mem_toDigits (by decide) (by decide) member
  have value : Nat.ofDigitChars 10 (Nat.toDigits 10 n) 0 = n := Nat.ofDigitChars_ten_toDigits
  have short : (Nat.toDigits 10 n).length ≤ k :=
    (Nat.length_toDigits_le_iff (by decide) some).mpr high
  have long : k ≤ (Nat.toDigits 10 n).length := by
    have bound := ofDigitChars_lt decimal
    rw [value] at bound
    have := (Nat.pow_lt_pow_iff_right (by decide : 1 < 10)).mp (low.trans_lt bound)
    omega
  have size : (Nat.toDigits 10 n).length = k := Nat.le_antisymm short long
  refine ⟨fun none => ?_, decimal, fun zero => ?_, ?_⟩
  · rw [none] at size
    exact absurd size some.ne
  · obtain ⟨rest, shape⟩ := List.head?_eq_some_iff.mp zero
    have later := ofDigitChars_lt fun c member => decimal c (shape ▸ List.mem_cons_of_mem '0' member)
    rw [shape, List.length_cons] at size
    rw [shape, Nat.ofDigitChars_cons] at value
    have same : Nat.ofDigitChars 10 rest 0 = n := value
    have shift : k - 1 = rest.length := by omega
    rw [same, ← shift] at later
    exact absurd low (not_le.mpr later)
  · rw [value, size]

/-- The digits that the search accepts read back as the double. -/
theorem digitsOf_spec {q : ℚ} {k : Nat} (positive : 0 < q) (some : 0 < k) {text : List Char} {n : ℤ}
    (found : Json.digitsOf q k = Option.some (text, n)) :
    ∃ v, Digits text n v ∧ nearest v = .finite q := by
  have ten : (10 : ℚ) ≠ 0 := by norm_num
  obtain ⟨low, high⟩ := decimalExponent_bounds positive
  unfold Json.digitsOf at found
  dsimp only at found
  generalize Json.decimalExponent q = e at *
  have scale := tenPow_pos (e - k)
  have error := abs_le.mp (roundHalfEven_error (q / 10 ^ (e - k)))
  have least : (10 : ℚ) ^ (k - 1) ≤ q / 10 ^ (e - k) := by
    rw [le_div_iff₀ scale, ← zpow_natCast, ← zpow_add₀ ten]
    refine le_trans (le_of_eq ?_) low
    congr 1
    omega
  have most : q / 10 ^ (e - k) < 10 ^ k := by
    rw [div_lt_iff₀ scale, ← zpow_natCast, ← zpow_add₀ ten]
    refine high.trans_le (le_of_eq ?_)
    congr 1
    omega
  generalize roundHalfEven (q / 10 ^ (e - k)) = s at *
  have floor : (10 : ℤ) ^ (k - 1) ≤ s := by
    have : (((10 : ℤ) ^ (k - 1) : ℤ) : ℚ) < (s + 1 : ℤ) := by
      push_cast
      linarith
    exact Int.lt_add_one_iff.mp (by exact_mod_cast this)
  have ceiling : s ≤ 10 ^ k := by
    have : (s : ℚ) < ((10 ^ k + 1 : ℤ) : ℚ) := by
      push_cast
      linarith
    exact Int.lt_add_one_iff.mp (by exact_mod_cast this)
  split at found
  · cases found
  · rename_i back
    have back := not_not.mp back
    refine ⟨s * 10 ^ (e - k), ?_, back⟩
    split at found
    · rename_i full
      cases found
      refine ⟨by simp, List.all_eq_true.mp rfl, by decide, ?_⟩
      rw [full]
      push_cast
      rw [← zpow_natCast, ← zpow_add₀ ten]
      simp [Nat.ofDigitChars_cons]
    · rename_i partly
      cases found
      have nonneg : 0 ≤ s := (pow_nonneg (by decide) _).trans floor
      obtain ⟨m, rfl⟩ := Int.eq_ofNat_of_zero_le nonneg
      rw [toString_toList nonneg]
      have under : m < 10 ^ k := by
        have := lt_of_le_of_ne ceiling partly
        exact_mod_cast this
      have natural := digits_natural some (by exact_mod_cast floor) under n
      simpa using natural

/-- Seventeen digits are enough. -/
theorem digitsOf_seventeen {q : ℚ} (double : IsDouble q) : (Json.digitsOf q 17).isSome = true := by
  obtain ⟨low, -⟩ := decimalExponent_bounds double.positive
  have scale := tenPow_pos (Json.decimalExponent q - (17 : ℕ))
  have back : nearest (roundHalfEven (q / 10 ^ (Json.decimalExponent q - (17 : ℕ))) *
      10 ^ (Json.decimalExponent q - (17 : ℕ))) = .finite q := by
    refine nearest_near double ?_
    have error := roundHalfEven_error (q / 10 ^ (Json.decimalExponent q - (17 : ℕ)))
    have factored : ∀ s : ℚ, s * 10 ^ (Json.decimalExponent q - (17 : ℕ)) - q =
        (s - q / 10 ^ (Json.decimalExponent q - (17 : ℕ))) *
          10 ^ (Json.decimalExponent q - (17 : ℕ)) := by
      intro s
      rw [sub_mul, div_mul_cancel₀ _ scale.ne']
    rw [factored, abs_mul, abs_of_pos scale]
    calc _ ≤ 1 / 2 * (10 : ℚ) ^ (Json.decimalExponent q - (17 : ℕ)) :=
          mul_le_mul_of_nonneg_right error scale.le
      _ = 10 ^ (Json.decimalExponent q - 1) * closeness := by
        have split : (10 : ℚ) ^ (Json.decimalExponent q - (17 : ℕ)) =
            10 ^ (Json.decimalExponent q - 1) * 10 ^ (-16 : ℤ) := by
          rw [← zpow_add₀ (by norm_num : (10 : ℚ) ≠ 0)]
          congr 1
          push_cast
          ring
        rw [split, closeness, zpow_neg]
        norm_num
        ring
      _ ≤ q * closeness := mul_le_mul_of_nonneg_right low (by norm_num [closeness])
  unfold Json.digitsOf
  dsimp only
  rw [if_neg (not_not.mpr back)]
  split <;> rfl

theorem shortestDigits_spec {q : ℚ} (double : IsDouble q) :
    ∃ v, Digits (Json.shortestDigits q).1 (Json.shortestDigits q).2 v ∧ nearest v = .finite q := by
  obtain ⟨found, here⟩ := Option.isSome_iff_exists.mp (digitsOf_seventeen double)
  have some : ((List.range' 1 17).findSome? (Json.digitsOf q)).isSome = true :=
    List.findSome?_isSome_iff.mpr ⟨17, by decide, by rw [here]; rfl⟩
  obtain ⟨⟨text, n⟩, first⟩ := Option.isSome_iff_exists.mp some
  obtain ⟨k, member, accepted⟩ := List.exists_of_findSome?_eq_some first
  have counted := List.mem_range'_1.mp member
  unfold Json.shortestDigits
  rw [first]
  exact digitsOf_spec double.positive (by omega) accepted

/-! The digits laid out, and read again -/

/-- A literal of a whole part, a fraction and an exponent. -/
def literal (whole : List Char) (fraction power : Option (List Char)) : List Char :=
  whole ++ (fraction.elim [] ('.' :: ·) ++ power.elim [] ('e' :: ·))

theorem splitAt_some {test : Char → Bool} {before after : List Char} {c : Char}
    (absent : ∀ c ∈ before, test c = false) (here : test c = true) :
    splitAt test (before ++ c :: after) = (before, some after) := by
  have open_ : ∀ d ∈ before, (!test d) = true := fun d member => by simp [absent d member]
  have skipped : (before ++ c :: after).dropWhile (fun c => !test c) = c :: after := by
    rw [List.dropWhile_append_of_pos open_]
    exact List.dropWhile_cons_of_neg (by simp [here])
  have taken : (before ++ c :: after).takeWhile (fun c => !test c) = before := by
    rw [List.takeWhile_append_of_pos open_, List.takeWhile_cons_of_neg (by simp [here]),
      List.append_nil]
  rw [splitAt, skipped, taken]

/-- A character of the whole part or of the fraction. -/
def isDecimal (text : List Char) : Prop := ∀ c ∈ text, c.isDigit = true

instance (text : List Char) : Decidable (isDecimal text) := List.decidableBAll _ _

theorem digit_test {text : List Char} (decimal : isDecimal text) {test : Char → Bool}
    (other : ∀ c, test c = true → c.isDigit = false) : ∀ c ∈ text, test c = false := by
  intro c member
  by_contra hit
  have := other c (Bool.eq_true_of_not_eq_false hit)
  rw [decimal c member] at this
  cases this

theorem splitAt_fraction {whole : List Char} (decimal : isDecimal whole)
    (fraction : Option (List Char)) :
    splitAt (· == '.') (whole ++ fraction.elim [] ('.' :: ·)) = (whole, fraction) := by
  have plain : ∀ c ∈ whole, (c == '.') = false := by
    refine digit_test decimal fun c same => ?_
    rw [beq_iff_eq.mp same]
    decide
  cases fraction with
  | none => simpa using splitAt_none plain
  | some places => exact splitAt_some plain (by decide)

theorem splitAt_power {whole : List Char} {fraction : Option (List Char)} (decimal : isDecimal whole)
    (places : ∀ text, fraction = some text → isDecimal text) (power : Option (List Char)) :
    splitAt (fun c => c == 'e' || c == 'E') (literal whole fraction power) =
      (whole ++ fraction.elim [] ('.' :: ·), power) := by
  have letters : ∀ c : Char, (c == 'e' || c == 'E') = true → c.isDigit = false := by
    intro c same
    rcases Bool.or_eq_true_iff.mp same with e | e <;> rw [beq_iff_eq.mp e] <;> decide
  have plain : ∀ c ∈ whole ++ fraction.elim [] ('.' :: ·), (c == 'e' || c == 'E') = false := by
    intro c member
    rcases List.mem_append.mp member with first | second
    · exact digit_test decimal letters c first
    · cases fraction with
      | none => cases second
      | some text =>
        rcases List.mem_cons.mp second with rfl | later
        · decide
        · exact digit_test (places text rfl) letters c later
  rw [literal, ← List.append_assoc]
  cases power with
  | none => simpa using splitAt_none plain
  | some text => exact splitAt_some plain (by decide)

theorem digit_isDigit {c : Char} (decimal : c.isDigit = true) :
    digit 10 c = some (c.toNat - '0'.toNat) := by
  have bounds := Char.isDigit_iff_toNat.mp decimal
  have inside : ('0' ≤ c && c ≤ '9') = true := by
    simpa [Char.le_def, UInt32.le_iff_toNat_le] using bounds
  have small : c.toNat - 48 < 10 := by
    have : '9'.toNat = 57 := rfl
    omega
  unfold digit
  dsimp only
  rw [if_pos inside, if_pos small]
  rfl

theorem digits_ofDigitChars {text : List Char} (decimal : isDecimal text) :
    digits 10 text = some (Nat.ofDigitChars 10 text 0) := by
  have run : ∀ (text : List Char) (n : Nat), isDecimal text →
      text.foldl (fun value c => value.bind fun n => (digit 10 c).map fun d => 10 * n + d) (some n) =
        some (Nat.ofDigitChars 10 text n) := by
    intro text
    induction text with
    | nil => exact fun n _ => by simp
    | cons c rest ih =>
      intro n decimal
      obtain ⟨here, later⟩ := List.forall_mem_cons.mp decimal
      rw [List.foldl_cons, Option.bind_some, digit_isDigit here, Option.map_some, ih _ later,
        Nat.ofDigitChars_cons]
  exact run text 0 decimal

theorem unsignedDecimal_literal {whole : List Char} {fraction power : Option (List Char)} {e : ℤ}
    (decimal : isDecimal whole) (places : ∀ text, fraction = some text → isDecimal text)
    (some : whole ≠ []) (exponent : exponentPart power = Option.some e) :
    unsignedDecimal (literal whole fraction power) =
      Option.some (Nat.ofDigitChars 10 (whole ++ fraction.getD []) 0 *
        (10 : ℚ) ^ (e - (fraction.getD []).length)) := by
  have all : isDecimal (whole ++ fraction.getD []) := by
    intro c member
    rcases List.mem_append.mp member with first | second
    · exact decimal c first
    · cases fraction with
      | none => cases second
      | some text => exact places text rfl c second
  simp only [unsignedDecimal, splitAt_power decimal places, splitAt_fraction decimal]
  rw [if_neg fun none => some none.1, digits_ofDigitChars all, exponent]

theorem exponentPart_sign (e : ℤ) :
    exponentPart (some (Json.exponentSign e :: (toString e.natAbs).toList)) = some e := by
  have text : (toString e.natAbs).toList = Nat.toDigits 10 e.natAbs := String.toList_ofList
  have decimal : isDecimal (Nat.toDigits 10 e.natAbs) :=
    fun c member => Nat.isDigit_of_mem_toDigits (by decide) (by decide) member
  have read : digits1 10 (Nat.toDigits 10 e.natAbs) = some e.natAbs := by
    rw [digits1, if_neg Nat.toDigits_ne_nil, digits_ofDigitChars decimal, Nat.ofDigitChars_ten_toDigits]
  rw [text, exponentPart, Json.exponentSign]
  split
  · rename_i negative
    have size : (e.natAbs : ℤ) = -e := by omega
    simp [signed, read, size]
  · rename_i positive
    have size : (e.natAbs : ℤ) = e := by omega
    simp [signed, read, size]

/-- What a literal of `JSON` consists of. -/
structure Literal (text : List Char) (v : ℚ) : Prop where
  parts : ∃ whole fraction power e, text = literal whole fraction power ∧ isDecimal whole ∧
    whole ≠ [] ∧ (whole.head? = some '0' → whole.length = 1) ∧
    (∀ places, fraction = some places → isDecimal places ∧ places ≠ []) ∧
    (∀ chars, power = some chars → ∃ c rest, chars = c :: rest ∧ (c = '-' ∨ c = '+') ∧
      isDecimal rest ∧ rest ≠ []) ∧
    exponentPart power = some e ∧
    v = Nat.ofDigitChars 10 (whole ++ fraction.getD []) 0 *
      (10 : ℚ) ^ (e - (fraction.getD []).length)

theorem signPower_parts (e : ℤ) : ∃ c rest,
    Json.exponentSign e :: (toString e.natAbs).toList = c :: rest ∧ (c = '-' ∨ c = '+') ∧
      isDecimal rest ∧ rest ≠ [] := by
  refine ⟨_, _, rfl, ?_, ?_, ?_⟩
  · unfold Json.exponentSign
    split
    · exact .inl rfl
    · exact .inr rfl
  · have text : (toString e.natAbs).toList = Nat.toDigits 10 e.natAbs := String.toList_ofList
    rw [text]
    exact fun c member => Nat.isDigit_of_mem_toDigits (by decide) (by decide) member
  · have text : (toString e.natAbs).toList = Nat.toDigits 10 e.natAbs := String.toList_ofList
    rw [text]
    exact Nat.toDigits_ne_nil

theorem isDecimal_replicate (n : Nat) : isDecimal (List.replicate n '0') := by
  intro c member
  rw [(List.mem_replicate.mp member).2]
  decide

/-- Each of the four layouts is a literal of the digits' value. -/
theorem layout_literal {text : List Char} {n : ℤ} {v : ℚ} (digits : Digits text n v) :
    Literal (Json.layout text n) v := by
  have ten : (10 : ℚ) ≠ 0 := by norm_num
  have decimal : isDecimal text := digits.decimal
  have size : 0 < text.length := List.length_pos_iff.mpr digits.some
  rw [digits.value]
  unfold Json.layout
  dsimp only
  split
  · rename_i whole
    refine ⟨text ++ List.replicate (n - text.length).toNat '0', none, none, 0, by simp [literal],
      ?_, by simp [digits.some], ?_, by simp, by simp, rfl, ?_⟩
    · intro c member
      rcases List.mem_append.mp member with first | second
      · exact decimal c first
      · exact isDecimal_replicate _ c second
    · intro zero
      rw [List.head?_append_of_ne_nil _ digits.some] at zero
      exact absurd zero digits.leading
    · rw [Option.getD_none, List.append_nil, Nat.ofDigitChars_append, Nat.ofDigitChars_replicate_zero,
        List.length_nil, Nat.cast_zero, sub_zero, zpow_zero, mul_one]
      push_cast
      rw [mul_comm, ← zpow_natCast, Int.toNat_of_nonneg (by omega)]
  · split
    · rename_i beyond inside
      have behind : n.toNat < text.length := by omega
      have whole : text.take n.toNat ≠ [] := by
        intro none
        rcases List.take_eq_nil_iff.mp none with zero | empty
        · omega
        · exact digits.some empty
      refine ⟨text.take n.toNat, some (text.drop n.toNat), none, 0, by simp [literal],
        fun c member => decimal c (List.mem_of_mem_take member), whole, ?_, ?_, by simp, rfl, ?_⟩
      · intro zero
        rw [List.head?_take, if_neg (by omega)] at zero
        exact absurd zero digits.leading
      · intro places same
        cases same
        exact ⟨fun c member => decimal c (List.mem_of_mem_drop member),
          fun none => by have := List.drop_eq_nil_iff.mp none; omega⟩
      · rw [Option.getD_some, List.take_append_drop, List.length_drop]
        congr 2
        omega
    · split
      · rename_i beyond inside small
        refine ⟨['0'], some (List.replicate (-n).toNat '0' ++ text), none, 0, by simp [literal],
          by decide, by decide, by decide, ?_, by simp, rfl, ?_⟩
        · intro places same
          cases same
          refine ⟨fun c member => ?_, by simp [digits.some]⟩
          rcases List.mem_append.mp member with first | second
          · exact isDecimal_replicate _ c first
          · exact decimal c second
        · rw [Option.getD_some, List.singleton_append, Nat.ofDigitChars_cons,
            Nat.ofDigitChars_append, Nat.mul_zero, Nat.zero_add, Nat.sub_self,
            Nat.ofDigitChars_replicate_zero, Nat.mul_zero, List.length_append, List.length_replicate]
          congr 2
          push_cast
          omega
      · have power := signPower_parts (n - 1)
        have exponent := exponentPart_sign (n - 1)
        cases text with
        | nil => exact absurd rfl digits.some
        | cons d rest =>
          have first : isDecimal [d] := fun c member =>
            decimal c (by rw [List.mem_singleton.mp member]; exact List.mem_cons_self)
          have later : isDecimal rest := fun c member => decimal c (List.mem_cons_of_mem d member)
          cases rest with
          | nil =>
            refine ⟨[d], none, some _, n - 1, rfl, first, by simp, by simp, by simp, ?_, exponent, ?_⟩
            · intro chars same
              cases same
              exact power
            · simp
          | cons second rest =>
            refine ⟨[d], some (second :: rest), some _, n - 1, rfl, first, by simp, by simp, ?_, ?_,
              exponent, ?_⟩
            · intro places same
              cases same
              exact ⟨later, by simp⟩
            · intro chars same
              cases same
              exact power
            · simp only [Option.getD_some, List.singleton_append, List.length_cons]
              congr 2
              push_cast
              ring

end JsNumber
