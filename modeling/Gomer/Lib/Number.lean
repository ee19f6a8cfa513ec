import Mathlib.Data.Rat.Floor
import Mathlib.Data.Nat.Log

/-! JavaScript numbers as far as a program reads them from text: the values of a double,
the nearest one to a rational, and `Number` on a string. The sign of zero is left out. -/
namespace JsNumber

inductive Double where
  | nan
  | infinite (negative : Bool)
  | finite (value : ℚ)
  deriving DecidableEq

def Double.isFinite : Double → Bool
  | .finite _ => true
  | _ => false

/-! Rounding to binary64 -/

/-- The exponent `k` with `2 ^ k ≤ a < 2 ^ (k + 1)`, for positive `a`. -/
def exponent (a : ℚ) : Int :=
  let k : Int := (Nat.log2 a.num.natAbs : Int) - Nat.log2 a.den
  if (2 : ℚ) ^ k ≤ a then k else k - 1

def roundHalfEven (a : ℚ) : Int :=
  let below := ⌊a⌋
  let rest := a - below
  if rest < 1 / 2 then below
  else if 1 / 2 < rest then below + 1
  else if below % 2 = 0 then below else below + 1

def nearest (q : ℚ) : Double :=
  if q = 0 then .finite 0
  else
    let ulp : ℚ := 2 ^ max (exponent |q| - 52) (-1074)
    let magnitude : ℚ := roundHalfEven (|q| / ulp) * ulp
    if 2 ^ (1024 : Nat) ≤ magnitude then .infinite (q < 0)
    else .finite (if q < 0 then -magnitude else magnitude)

def Double.add : Double → Double → Double
  | .finite a, .finite b => nearest (a + b)
  | .infinite a, .infinite b => if a = b then .infinite a else .nan
  | .infinite a, .finite _ => .infinite a
  | .finite _, .infinite b => .infinite b
  | _, _ => .nan

/-! Reading a numeric literal -/

/-- White space and line terminators, which `Number` trims off both ends. -/
def isSpace (c : Char) : Bool :=
  [9, 10, 11, 12, 13, 32, 160, 5760, 8232, 8233, 8239, 8287, 12288, 65279].contains c.toNat ||
    (8192 ≤ c.toNat && c.toNat ≤ 8202)

def trim (text : List Char) : List Char :=
  ((text.dropWhile isSpace).reverse.dropWhile isSpace).reverse

def digit (base : Nat) (c : Char) : Option Nat :=
  let value :=
    if '0' ≤ c && c ≤ '9' then c.toNat - 48
    else if 'a' ≤ c && c ≤ 'f' then c.toNat - 87
    else if 'A' ≤ c && c ≤ 'F' then c.toNat - 55
    else base
  if value < base then some value else none

def digits (base : Nat) (text : List Char) : Option Nat :=
  text.foldl (fun value c => value.bind fun n => (digit base c).map fun d => base * n + d) (some 0)

/-- Digits that must be there. -/
def digits1 (base : Nat) (text : List Char) : Option Nat :=
  if text = [] then none else digits base text

/-- The text before the first character that satisfies a test, and the text after it. -/
def splitAt (test : Char → Bool) (text : List Char) : List Char × Option (List Char) :=
  match text.dropWhile fun c => !test c with
  | [] => (text, none)
  | _ :: after => (text.takeWhile fun c => !test c, some after)

def signed (text : List Char) : Bool × List Char :=
  match text with
  | '+' :: rest => (false, rest)
  | '-' :: rest => (true, rest)
  | _ => (false, text)

def exponentPart : Option (List Char) → Option Int
  | none => some 0
  | some text =>
    (digits1 10 (signed text).2).map fun n => if (signed text).1 then -(n : Int) else n

def unsignedDecimal (text : List Char) : Option ℚ :=
  let (mantissa, power) := splitAt (fun c => c == 'e' || c == 'E') text
  let (whole, fraction) := splitAt (· == '.') mantissa
  let places := fraction.getD []
  if whole = [] ∧ places = [] then none
  else
    match digits 10 (whole ++ places), exponentPart power with
    | some n, some e => some (n * (10 : ℚ) ^ (e - places.length))
    | _, _ => none

def decimal (text : List Char) : Double :=
  let (negative, rest) := signed text
  if rest = "Infinity".toList then .infinite negative
  else
    match unsignedDecimal rest with
    | some q => nearest (if negative then -q else q)
    | none => .nan

def inBase (base : Nat) (text : List Char) : Double :=
  match digits1 base text with
  | some n => nearest n
  | none => .nan

/-- `Number(text)` -/
def number (text : String) : Double :=
  match trim text.toList with
  | [] => .finite 0
  | '0' :: c :: rest =>
    if c == 'x' || c == 'X' then inBase 16 rest
    else if c == 'o' || c == 'O' then inBase 8 rest
    else if c == 'b' || c == 'B' then inBase 2 rest
    else decimal ('0' :: c :: rest)
  | text => decimal text

/-- A number an integer column of 32 bits takes. -/
def toInt32 : Double → Option Int
  | .finite q => if q.den = 1 ∧ -2 ^ 31 ≤ q.num ∧ q.num < 2 ^ 31 then some q.num else none
  | _ => none

theorem toInt32_finite {q : ℚ} {n : Int} (fits : toInt32 (.finite q) = some n) : (n : ℚ) = q := by
  simp only [toInt32, Option.ite_none_right_eq_some, Option.some.injEq] at fits
  obtain ⟨⟨whole, _⟩, rfl⟩ := fits
  exact Rat.coe_int_num_of_den_eq_one whole

example : number " 40000 " = .finite 40000 := by decide +kernel
example : number "-1.5e2" = .finite (-150) := by decide +kernel
example : number "1e400" = .infinite false := by decide +kernel
example : number "12 credits" = .nan := by decide +kernel

end JsNumber
