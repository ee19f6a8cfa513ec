import Gomer.Lib.Json
import Gomer.Lib.Jwt

/-! The texts JavaScript makes of JSON values: `String(value)`, `JSON.stringify(value)`, and
the conversions to a number and to a boolean. -/
namespace Json

open JsNumber (Double)

/-! Numbers, with the fewest digits that read back as the same double -/

/-- The `n` with `10 ^ (n - 1) ≤ q < 10 ^ n`, for positive `q`. -/
def decimalExponent (q : ℚ) : Int :=
  let k : Int := (Nat.log 10 q.num.natAbs : Int) - Nat.log 10 q.den
  if q < (10 : ℚ) ^ k then k else if q < (10 : ℚ) ^ (k + 1) then k + 1 else k + 2

/-- The `k` digits nearest to `q` and their exponent, where these read back as `q`. Rounding
up to the next power of ten leaves a single digit. -/
def digitsOf (q : ℚ) (k : Nat) : Option (List Char × Int) :=
  let n := decimalExponent q
  let scale : ℚ := 10 ^ (n - k)
  let s := JsNumber.roundHalfEven (q / scale)
  if JsNumber.nearest (s * scale) ≠ .finite q then none
  else if s = 10 ^ k then some (['1'], n + 1)
  else some ((toString s).toList, n)

def shortestDigits (q : ℚ) : List Char × Int :=
  ((List.range' 1 17).findSome? (digitsOf q)).getD ([], 0)

def exponentSign (e : Int) : Char := if e < 0 then '-' else '+'

/-- `Number::toString` of a positive number with these digits and this exponent. -/
def layout (digits : List Char) (n : Int) : List Char :=
  let k : Int := digits.length
  if k ≤ n ∧ n ≤ 21 then digits ++ List.replicate (n - k).toNat '0'
  else if 0 < n ∧ n ≤ 21 then digits.take n.toNat ++ '.' :: digits.drop n.toNat
  else if -6 < n ∧ n ≤ 0 then '0' :: '.' :: List.replicate (-n).toNat '0' ++ digits
  else
    let power := 'e' :: exponentSign (n - 1) :: (toString (n - 1).natAbs).toList
    match digits with
    | [d] => d :: power
    | d :: rest => d :: '.' :: rest ++ power
    | [] => power

def numberText : Double → List Char
  | .nan => "NaN".toList
  | .infinite negative => (if negative then "-Infinity" else "Infinity").toList
  | .finite q =>
    if q = 0 then ['0']
    else if q < 0 then '-' :: layout (shortestDigits (-q)).1 (shortestDigits (-q)).2
    else layout (shortestDigits q).1 (shortestDigits q).2

/-! Conversions -/

def isNull : Json → Bool
  | null => true
  | _ => false

mutual
/-- `String(value)`. -/
def text : Json → List Char
  | null => "null".toList
  | bool value => (if value then "true" else "false").toList
  | num value => numberText value
  | str value => value.toList
  | arr items => joined items
  | obj _ => "[object Object]".toList

/-- The elements of an array with commas between them; `null` leaves its place empty. -/
def joined : List Json → List Char
  | [] => []
  | [item] => if item.isNull then [] else item.text
  | item :: next :: rest =>
    (if item.isNull then [] else item.text) ++ ',' :: joined (next :: rest)
end

def toText (value : Json) : String := String.ofList value.text

/-- `Number(value)`. -/
def toNumber : Json → Double
  | null => .finite 0
  | bool value => .finite (if value then 1 else 0)
  | num value => value
  | str value => JsNumber.number value
  | arr items => JsNumber.number (arr items).toText
  | obj _ => .nan

/-- `Boolean(value)`. -/
def toBool : Json → Bool
  | null => false
  | bool value => value
  | num value => decide (value ≠ .nan ∧ value ≠ .finite 0)
  | str value => value != ""
  | _ => true

mutual
def stringify : Json → List Char
  | null => "null".toList
  | bool value => (if value then "true" else "false").toList
  | num value => if value.isFinite then numberText value else "null".toList
  | str value => Jwt.quote value
  | arr items => '[' :: stringifyItems items ++ [']']
  | obj fields => '{' :: stringifyFields fields ++ ['}']

def stringifyItems : List Json → List Char
  | [] => []
  | [item] => item.stringify
  | item :: next :: rest => item.stringify ++ ',' :: stringifyItems (next :: rest)

def stringifyFields : List (String × Json) → List Char
  | [] => []
  | [field] => Jwt.quote field.1 ++ ':' :: field.2.stringify
  | field :: next :: rest =>
    Jwt.quote field.1 ++ ':' :: field.2.stringify ++ ',' :: stringifyFields (next :: rest)
end

/-- `length` of a string: UTF-16 code units. -/
def utf16Length (text : List Char) : Nat :=
  (text.map fun c => if c.toNat < 65536 then 1 else 2).sum

end Json
