import Mathlib.Tactic.Linarith
import Mathlib.Data.Nat.Digits.Defs

/-! Days of the proleptic Gregorian calendar by their number from 1970-01-01 on, and their texts. -/
namespace Calendar

@[ext] structure CivilDate where
  year : Int
  month : Int
  day : Int
  deriving DecidableEq, Repr

/-- The number of the first day of a year. -/
def dayFromYear (y : Int) : Int :=
  365 * (y - 1970) + (y - 1969) / 4 - (y - 1901) / 100 + (y - 1601) / 400

/-- The last year that starts by a day. A guess is off by one at most. -/
def yearFromDay (n : Int) : Int :=
  let guess := 1970 + n * 400 / 146097
  if dayFromYear (guess + 1) ≤ n then guess + 1
  else if n < dayFromYear guess then guess - 1
  else guess

def leap (y : Int) : Int := dayFromYear (y + 1) - dayFromYear y - 365

def monthFromDay (leap n : Int) : Int :=
  if n < 31 then 1 else if n < 59 + leap then 2 else if n < 90 + leap then 3
  else if n < 120 + leap then 4 else if n < 151 + leap then 5 else if n < 181 + leap then 6
  else if n < 212 + leap then 7 else if n < 243 + leap then 8 else if n < 273 + leap then 9
  else if n < 304 + leap then 10 else if n < 334 + leap then 11 else 12

/-- The days of a year before a month. -/
def daysBefore (leap m : Int) : Int :=
  if m ≤ 1 then 0 else if m = 2 then 31 else if m = 3 then 59 + leap else if m = 4 then 90 + leap
  else if m = 5 then 120 + leap else if m = 6 then 151 + leap else if m = 7 then 181 + leap
  else if m = 8 then 212 + leap else if m = 9 then 243 + leap else if m = 10 then 273 + leap
  else if m = 11 then 304 + leap else 334 + leap

def civil (n : Int) : CivilDate :=
  let y := yearFromDay n
  let rest := n - dayFromYear y
  let m := monthFromDay (leap y) rest
  ⟨y, m, rest - daysBefore (leap y) m + 1⟩

def dayNumber (d : CivilDate) : Int :=
  dayFromYear d.year + daysBefore (leap d.year) d.month + d.day - 1

@[simp] theorem dayNumber_civil (n : Int) : dayNumber (civil n) = n := by
  simp only [dayNumber, civil]
  omega

theorem dayFromYear_mono {a b : Int} (le : a ≤ b) : dayFromYear a ≤ dayFromYear b := by
  unfold dayFromYear
  omega

/-- A day is in its year. -/
theorem yearFromDay_bounds (n : Int) :
    dayFromYear (yearFromDay n) ≤ n ∧ n < dayFromYear (yearFromDay n + 1) := by
  unfold yearFromDay
  dsimp only
  split
  · refine ⟨by assumption, ?_⟩
    unfold dayFromYear
    omega
  · split
    · refine ⟨?_, ?_⟩
      · unfold dayFromYear
        omega
      · rw [sub_add_cancel]
        assumption
    · exact ⟨by omega, by omega⟩

theorem leap_cases (y : Int) : leap y = 0 ∨ leap y = 1 := by
  unfold leap dayFromYear
  omega

theorem yearFromDay_mono {a b : Int} (le : a ≤ b) : yearFromDay a ≤ yearFromDay b := by
  by_contra later
  have first := (yearFromDay_bounds a).1
  have second := (yearFromDay_bounds b).2
  have between := dayFromYear_mono (show yearFromDay b + 1 ≤ yearFromDay a by omega)
  omega

theorem monthFromDay_bounds {l n : Int} (leap : l = 0 ∨ l = 1) (from0 : 0 ≤ n) (within : n < 365 + l) :
    1 ≤ monthFromDay l n ∧ monthFromDay l n ≤ 12 ∧ daysBefore l (monthFromDay l n) ≤ n ∧
      n ≤ daysBefore l (monthFromDay l n) + 30 := by
  fun_cases monthFromDay l n <;> norm_num [daysBefore] <;> omega

theorem civil_bounds (n : Int) :
    1 ≤ (civil n).month ∧ (civil n).month ≤ 12 ∧ 1 ≤ (civil n).day ∧ (civil n).day ≤ 31 := by
  obtain ⟨start, stop⟩ := yearFromDay_bounds n
  have days : dayFromYear (yearFromDay n + 1) =
      dayFromYear (yearFromDay n) + 365 + leap (yearFromDay n) := by
    unfold leap
    omega
  obtain ⟨first, last, low, high⟩ := monthFromDay_bounds (leap_cases (yearFromDay n))
    (by omega : 0 ≤ n - dayFromYear (yearFromDay n)) (by omega)
  simp only [civil]
  omega

/-! Texts -/

def digit (n : Nat) : Char := Char.ofNat (48 + n)

/-- The last digits of a number. -/
def fixed : Nat → Nat → List Char
  | 0, _ => []
  | width + 1, n => fixed width (n / 10) ++ [digit (n % 10)]

@[simp] theorem fixed_length (width n : Nat) : (fixed width n).length = width := by
  induction width generalizing n with
  | zero => rfl
  | succ width ih => rw [fixed, List.length_append, ih, List.length_singleton]

theorem digit_inj {a b : Nat} (small : a < 10) (other : b < 10) (same : digit a = digit b) : a = b := by
  have all : ∀ a < 10, ∀ b < 10, digit a = digit b → a = b := by decide
  exact all a small b other same

theorem fixed_inj {width a b : Nat} (small : a < 10 ^ width) (other : b < 10 ^ width)
    (same : fixed width a = fixed width b) : a = b := by
  induction width generalizing a b with
  | zero => omega
  | succ width ih =>
    obtain ⟨front, last⟩ := List.append_inj' same rfl
    rw [pow_succ] at small other
    have high := ih (Nat.div_lt_of_lt_mul (by omega)) (Nat.div_lt_of_lt_mul (by omega)) front
    have low := digit_inj (Nat.mod_lt _ (by decide)) (Nat.mod_lt _ (by decide))
      (List.singleton_inj.mp last)
    omega

/-- The day part of a date text with this year. -/
def dayText (year : List Char) (d : CivilDate) : List Char :=
  year ++ '-' :: (fixed 2 d.month.toNat ++ '-' :: fixed 2 d.day.toNat)

/-- `toISOString().slice(0, 10)`: beyond four digits a year has a sign and six of them. -/
def isoDay (n : Int) : String :=
  let d := civil n
  let year :=
    if 0 ≤ d.year ∧ d.year ≤ 9999 then fixed 4 d.year.toNat
    else (if d.year < 0 then '-' else '+') :: fixed 6 d.year.natAbs
  String.ofList ((dayText year d).take 10)

/-- `toISOString()` of a time in ms. -/
def isoText (ms : Int) : String :=
  let d := civil (ms / 86400000)
  let rest := (ms % 86400000).toNat
  let year :=
    if 0 ≤ d.year ∧ d.year ≤ 9999 then fixed 4 d.year.toNat
    else (if d.year < 0 then '-' else '+') :: fixed 6 d.year.natAbs
  String.ofList (dayText year d ++ 'T' :: fixed 2 (rest / 3600000) ++
    ':' :: fixed 2 (rest / 60000 % 60) ++ ':' :: fixed 2 (rest / 1000 % 60) ++
    '.' :: fixed 3 (rest % 1000) ++ ['Z'])

/-- `to_char(…, 'YYYY-MM-DD')`: the year before the first one is the first one before Christ. -/
def toChar (n : Int) : String :=
  let d := civil n
  let year := (if d.year ≤ 0 then 1 - d.year else d.year).toNat
  String.ofList (dayText (if year ≤ 9999 then fixed 4 year else (toString year).toList) d)

theorem take_dayText {year : List Char} (four : year.length = 4) (d : CivilDate) :
    (dayText year d).take 10 = dayText year d := by
  refine List.take_of_length_le ?_
  simp [dayText, four]

/-- In years of four digits both texts are the same. -/
theorem isoDay_eq_toChar {n : Int} (after : 1 ≤ (civil n).year) (before : (civil n).year ≤ 9999) :
    isoDay n = toChar n := by
  unfold isoDay toChar
  dsimp only
  have common : ¬ (civil n).year ≤ 0 := by omega
  rw [if_pos ⟨by omega, before⟩, take_dayText (fixed_length _ _), if_neg common, if_pos (by omega)]

theorem mem_fixed {width n : Nat} {c : Char} (member : c ∈ fixed width n) : c ≠ '-' ∧ c ≠ '+' := by
  have plain : ∀ k < 10, digit k ≠ '-' ∧ digit k ≠ '+' := by decide
  induction width generalizing n with
  | zero => cases member
  | succ width ih =>
    obtain front | last := List.mem_append.mp member
    · exact ih front
    · rw [List.mem_singleton.mp last]
      exact plain _ (Nat.mod_lt _ (by decide))

/-- A text with a sign is that of no year of four digits. -/
theorem isoDay_signed {a b : Int} (other : ¬ (0 ≤ (civil a).year ∧ (civil a).year ≤ 9999))
    (plain : 0 ≤ (civil b).year ∧ (civil b).year ≤ 9999) : isoDay a ≠ isoDay b := by
  intro same
  unfold isoDay at same
  dsimp only at same
  rw [if_neg other, if_pos plain, take_dayText (fixed_length _ _), String.ofList_inj] at same
  have heads := congrArg List.head? same
  simp only [dayText, List.cons_append, List.take_succ_cons, List.head?_cons, List.head?_append] at heads
  cases front : fixed 4 (civil b).year.toNat with
  | nil =>
    have size := fixed_length 4 (civil b).year.toNat
    rw [front] at size
    cases size
  | cons c rest =>
    obtain ⟨minus, plus⟩ := mem_fixed (front ▸ List.mem_cons_self : c ∈ fixed 4 (civil b).year.toNat)
    rw [front] at heads
    split at heads
    · exact minus (Option.some.inj heads).symm
    · exact plus (Option.some.inj heads).symm

theorem isoDay_inj {a b : Int} (plain : 0 ≤ (civil b).year ∧ (civil b).year ≤ 9999)
    (same : isoDay a = isoDay b) : a = b := by
  have both : 0 ≤ (civil a).year ∧ (civil a).year ≤ 9999 := by
    by_contra other
    exact isoDay_signed other plain same
  unfold isoDay at same
  dsimp only at same
  rw [if_pos both, if_pos plain, take_dayText (fixed_length _ _), take_dayText (fixed_length _ _),
    String.ofList_inj] at same
  obtain ⟨years, rest⟩ := List.append_inj same (by simp)
  obtain ⟨months, days⟩ := List.append_inj (List.cons.inj rest).2 (by simp)
  have boundsA := civil_bounds a
  have boundsB := civil_bounds b
  have year := fixed_inj (by omega) (by omega) years
  have month := fixed_inj (by omega) (by omega) months
  have day := fixed_inj (by omega) (by omega) (List.cons.inj days).2
  have equal : civil a = civil b := by
    rw [CivilDate.ext_iff]
    omega
  rw [← dayNumber_civil a, equal, dayNumber_civil]

end Calendar
