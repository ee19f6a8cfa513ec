import Gomer.Lib.Shortest

/-! `JSON.parse`, and that it reads what `JSON.stringify` writes. The place that an integer-like key
gets among the keys of an object is left out. -/
namespace Json

open JsNumber (Double)

/-! UTF-16 -/

def units (c : Char) : List Nat :=
  if c.toNat < 65536 then [c.toNat]
  else [55296 + (c.toNat - 65536) / 1024, 56320 + (c.toNat - 65536) % 1024]

/-- A surrogate without its other half is shown as the replacement character. -/
def ofUnits : List Nat → List Char
  | [] => []
  | high :: low :: rest =>
    if 55296 ≤ high ∧ high < 56320 ∧ 56320 ≤ low ∧ low < 57344 then
      Char.ofNat (65536 + 1024 * (high - 55296) + (low - 56320)) :: ofUnits rest
    else (if high.isValidChar then Char.ofNat high else Char.ofNat 65533) :: ofUnits (low :: rest)
  | [one] => [if one.isValidChar then Char.ofNat one else Char.ofNat 65533]

/-! Tokens -/

def isWhite (c : Char) : Bool := [9, 10, 13, 32].contains c.toNat

def skip (text : List Char) : List Char := text.dropWhile isWhite

def isNumberChar (c : Char) : Bool :=
  c.isDigit || c == '-' || c == '+' || c == '.' || c == 'e' || c == 'E'

def someDigits (text : List Char) : Bool := !text.isEmpty && text.all Char.isDigit

def unsigned : List Char → List Char
  | '-' :: rest => rest
  | text => text

/-- The grammar of a number: no leading zero, and digits on both sides of a point. -/
def isNumber (token : List Char) : Bool :=
  let (mantissa, power) := JsNumber.splitAt (fun c => c == 'e' || c == 'E') (unsigned token)
  let (whole, fraction) := JsNumber.splitAt (· == '.') mantissa
  someDigits whole && (whole.length == 1 || whole.head? != some '0') && fraction.all someDigits &&
    power.all fun text => someDigits (JsNumber.signed text).2

def parseNumber (text : List Char) : Option (Json × List Char) :=
  let token := text.takeWhile isNumberChar
  if isNumber token then some (num (JsNumber.decimal token), text.dropWhile isNumberChar) else none

/-- The unit of an escape of one letter. -/
def simpleEscape (c : Char) : Option Nat :=
  match c with
  | '"' => some 34
  | '\\' => some 92
  | '/' => some 47
  | 'b' => some 8
  | 'f' => some 12
  | 'n' => some 10
  | 'r' => some 13
  | 't' => some 9
  | _ => none

def prepend (first : List Nat) (more : Option (List Nat × List Char)) :
    Option (List Nat × List Char) :=
  more.map fun (units, rest) => (first ++ units, rest)

/-- The units of a string up to its closing quotation mark. -/
def parseChars : List Char → Option (List Nat × List Char)
  | [] => none
  | c :: rest =>
    if c = '"' then some ([], rest)
    else if c = '\\' then
      match rest with
      | [] => none
      | 'u' :: a :: b :: d :: e :: later =>
        match JsNumber.digits 16 [a, b, d, e] with
        | some n => prepend [n] (parseChars later)
        | none => none
      | letter :: later =>
        match simpleEscape letter with
        | some n => prepend [n] (parseChars later)
        | none => none
    else if c.toNat < 32 then none
    else prepend (units c) (parseChars rest)

def parseString (text : List Char) : Option (String × List Char) :=
  (parseChars text).map fun (units, rest) => (String.ofList (ofUnits units), rest)

/-! Values -/

/-- The later one of two properties with one key takes the place of the earlier. -/
def setField (fields : List (String × Json)) (field : String × Json) : List (String × Json) :=
  if field.1 ∈ fields.map Prod.fst then
    fields.map fun other => if other.1 = field.1 then field else other
  else fields ++ [field]

def ownFields (fields : List (String × Json)) : List (String × Json) := fields.foldl setField []

mutual
def parseValue : Nat → List Char → Option (Json × List Char)
  | 0, _ => none
  | n + 1, text =>
    match skip text with
    | 'n' :: 'u' :: 'l' :: 'l' :: rest => some (null, rest)
    | 't' :: 'r' :: 'u' :: 'e' :: rest => some (bool true, rest)
    | 'f' :: 'a' :: 'l' :: 's' :: 'e' :: rest => some (bool false, rest)
    | '"' :: rest => (parseString rest).map fun (value, rest) => (str value, rest)
    | '[' :: rest =>
      match skip rest with
      | ']' :: rest => some (arr [], rest)
      | rest => (parseItems n rest).map fun (items, rest) => (arr items, rest)
    | '{' :: rest =>
      match skip rest with
      | '}' :: rest => some (obj [], rest)
      | rest => (parseFields n rest).map fun (fields, rest) => (obj (ownFields fields), rest)
    | rest => parseNumber rest

/-- The elements of an array and its closing bracket. -/
def parseItems : Nat → List Char → Option (List Json × List Char)
  | 0, _ => none
  | n + 1, text =>
    match parseValue n text with
    | none => none
    | some (item, rest) =>
      match skip rest with
      | ',' :: rest => (parseItems n rest).map fun (items, rest) => (item :: items, rest)
      | ']' :: rest => some ([item], rest)
      | _ => none

/-- The properties of an object and its closing brace. -/
def parseFields : Nat → List Char → Option (List (String × Json) × List Char)
  | 0, _ => none
  | n + 1, text =>
    match skip text with
    | '"' :: rest =>
      match parseString rest with
      | none => none
      | some (key, rest) =>
        match skip rest with
        | ':' :: rest =>
          match parseValue n rest with
          | none => none
          | some (value, rest) =>
            match skip rest with
            | ',' :: rest => (parseFields n rest).map fun (fields, rest) => ((key, value) :: fields, rest)
            | '}' :: rest => some ([(key, value)], rest)
            | _ => none
        | _ => none
    | _ => none
end

/-- `JSON.parse(text)`, where it does not throw. Every other call of the parser consumes a
character. -/
def parse (text : String) : Option Json :=
  match parseValue (2 * text.toList.length) text.toList with
  | some (value, rest) => if skip rest = [] then some value else none
  | none => none

example : (parse " [1, \x7b\"a\": -2.5e1, \"a\": null\x7d, \"\\u00e9\\n\"] ").map stringify =
    some "[1,\x7b\"a\":null\x7d,\"é\\n\"]".toList := by decide +kernel
example : (parse "[1,]").isNone ∧ (parse "01").isNone ∧ (parse "\x7ba:1\x7d").isNone := by decide +kernel

/-! What is written: strings -/

theorem ofUnits_units (text : List Char) : ofUnits (text.flatMap units) = text := by
  induction text with
  | nil => rfl
  | cons c rest ih =>
    rw [List.flatMap_cons]
    have valid := c.valid
    by_cases small : c.toNat < 65536
    · have here : units c = [c.toNat] := if_pos small
      have whole : c.toNat.isValidChar := valid
      have single : (if c.toNat.isValidChar then Char.ofNat c.toNat else Char.ofNat 65533) = c := by
        rw [if_pos whole, Char.ofNat_toNat]
      have unpaired : ¬ (55296 ≤ c.toNat ∧ c.toNat < 56320) := by
        intro surrogate
        rcases whole with low | high
        · omega
        · omega
      rw [here, List.singleton_append]
      cases later : rest.flatMap units with
      | nil =>
        rw [later] at ih
        rw [ofUnits, single]
        rw [ofUnits] at ih
        rw [← ih]
      | cons next more =>
        rw [ofUnits, if_neg fun pair => unpaired ⟨pair.1, pair.2.1⟩, single, ← later, ih]
    · have here : units c = [55296 + (c.toNat - 65536) / 1024, 56320 + (c.toNat - 65536) % 1024] :=
        if_neg small
      have top : c.toNat < 1114112 := by
        rcases valid with low | high
        · change c.toNat < 55296 at low
          omega
        · exact high.2
      have pair : 55296 ≤ 55296 + (c.toNat - 65536) / 1024 ∧
          55296 + (c.toNat - 65536) / 1024 < 56320 ∧ 56320 ≤ 56320 + (c.toNat - 65536) % 1024 ∧
          56320 + (c.toNat - 65536) % 1024 < 57344 := by omega
      have joined : 65536 + 1024 * (55296 + (c.toNat - 65536) / 1024 - 55296) +
          (56320 + (c.toNat - 65536) % 1024 - 56320) = c.toNat := by omega
      rw [here, List.cons_append, List.cons_append, List.nil_append, ofUnits, if_pos pair, joined,
        Char.ofNat_toNat, ih]

/-- The forms of an escaped character. -/
inductive Escaped (c : Char) : Prop where
  | plain (same : Jwt.escape c = [c]) (printed : 32 ≤ c.toNat) (quote : c ≠ '"') (slash : c ≠ '\\')
  | letter {l : Char} (same : Jwt.escape c = ['\\', l]) (other : l ≠ 'u')
      (read : simpleEscape l = some c.toNat)
  | unit {a b d e : Char} (same : Jwt.escape c = ['\\', 'u', a, b, d, e])
      (read : JsNumber.digits 16 [a, b, d, e] = some c.toNat)

/-- The escape of a character code is read as the code. -/
def reads (n : Nat) : Bool :=
  match Jwt.escape (Char.ofNat n) with
  | [c] => c == Char.ofNat n && 32 ≤ n && c != '"' && c != '\\'
  | [s, l] => s == '\\' && l != 'u' && simpleEscape l == some n
  | [s, u, a, b, d, e] => s == '\\' && u == 'u' && JsNumber.digits 16 [a, b, d, e] == some n
  | _ => false

theorem escaped_small : ∀ n < 93, Escaped (Char.ofNat n) := by
  intro n small
  have table : ∀ n < 93, reads n = true ∧ (Char.ofNat n).toNat = n := by decide +kernel
  obtain ⟨here, code⟩ := table n small
  unfold reads at here
  split at here
  · rename_i same
    simp only [Bool.and_eq_true, beq_iff_eq, bne_iff_ne, decide_eq_true_eq] at here
    obtain ⟨⟨⟨rfl, printed⟩, quote⟩, slash⟩ := here
    exact .plain same (by rwa [code]) quote slash
  · rename_i same
    simp only [Bool.and_eq_true, beq_iff_eq, bne_iff_ne] at here
    obtain ⟨⟨rfl, other⟩, read⟩ := here
    exact .letter same other (by rwa [code])
  · rename_i same
    simp only [Bool.and_eq_true, beq_iff_eq] at here
    obtain ⟨⟨rfl, rfl⟩, read⟩ := here
    exact .unit same (by rwa [code])
  · cases here

theorem escaped (c : Char) : Escaped c := by
  by_cases small : c.toNat < 93
  · rw [← Char.ofNat_toNat c]
    exact escaped_small c.toNat small
  · refine .plain ?_ (by omega) (fun same => ?_) fun same => ?_
    · unfold Jwt.escape
      dsimp only
      split
      all_goals first
        | omega
        | rw [if_neg (by omega)]
    · rw [same] at small
      exact small (by decide)
    · rw [same] at small
      exact small (by decide)

theorem units_small {c : Char} (small : c.toNat < 65536) : units c = [c.toNat] := if_pos small

theorem simpleEscape_lt {l : Char} {n : Nat} (read : simpleEscape l = some n) : n < 128 := by
  unfold simpleEscape at read
  split at read <;> cases read <;> decide

theorem digit_lt {base : Nat} {c : Char} {n : Nat} (read : JsNumber.digit base c = some n) :
    n < base := by
  unfold JsNumber.digit at read
  dsimp only at read
  obtain ⟨small, same⟩ := Option.ite_none_right_eq_some.mp read
  exact (Option.some.inj same) ▸ small

theorem parseChars_escape (c : Char) (rest : List Char) :
    parseChars (Jwt.escape c ++ rest) = prepend (units c) (parseChars rest) := by
  cases escaped c with
  | plain same printed quote slash =>
    rw [same, List.singleton_append, parseChars.eq_def]
    dsimp only
    rw [if_neg quote, if_neg slash, if_neg (by omega)]
  | @letter l same other read =>
    have small := simpleEscape_lt read
    rw [same, units_small (by omega)]
    simp only [List.cons_append, List.nil_append]
    rw [parseChars.eq_def]
    dsimp only
    rw [if_neg (by decide), if_pos rfl]
    split
    · rename_i empty
      cases empty
    · rename_i shape
      exact absurd (List.cons.inj shape).1 other
    · rename_i shape
      obtain ⟨rfl, rfl⟩ := List.cons.inj shape
      rw [read]
  | @unit a b d e same read =>
    have small : c.toNat < 65536 := by
      simp only [JsNumber.digits, List.foldl_cons, List.foldl_nil, Option.bind_some] at read
      cases first : JsNumber.digit 16 a with
      | none => simp [first] at read
      | some w =>
        cases second : JsNumber.digit 16 b with
        | none => simp [first, second] at read
        | some x =>
          cases third : JsNumber.digit 16 d with
          | none => simp [first, second, third] at read
          | some y =>
            cases fourth : JsNumber.digit 16 e with
            | none => simp [first, second, third, fourth] at read
            | some z =>
              simp only [first, second, third, fourth, Option.map_some, Option.bind_some,
                Option.some.injEq] at read
              have := digit_lt first
              have := digit_lt second
              have := digit_lt third
              have := digit_lt fourth
              omega
    rw [same, units_small small]
    simp only [List.cons_append, List.nil_append]
    rw [parseChars.eq_def]
    dsimp only
    rw [if_neg (by decide), if_pos rfl]
    split
    · rename_i empty
      cases empty
    · rename_i shape
      obtain ⟨-, tail⟩ := List.cons.inj shape
      cases tail
      rw [read]
    · rename_i short shape
      obtain ⟨letter, tail⟩ := List.cons.inj shape
      exact absurd tail.symm (short a b d e rest letter.symm)

theorem parseChars_quoted (text rest : List Char) :
    parseChars (text.flatMap Jwt.escape ++ Jwt.quotation :: rest) =
      some (text.flatMap units, rest) := by
  induction text with
  | nil =>
    rw [List.flatMap_nil, List.nil_append, parseChars.eq_def]
    exact if_pos rfl
  | cons c later ih =>
    rw [List.flatMap_cons, List.append_assoc, parseChars_escape, ih]
    rfl

theorem parseString_quoted (text : String) (rest : List Char) :
    parseString (text.toList.flatMap Jwt.escape ++ Jwt.quotation :: rest) = some (text, rest) := by
  rw [parseString, parseChars_quoted, Option.map_some]
  dsimp only
  rw [ofUnits_units, String.ofList_toList]

/-! Numbers -/

open JsNumber (Literal literal isDecimal nearest)

theorem isNumberChar_of_isDigit {c : Char} (decimal : c.isDigit = true) : isNumberChar c = true := by
  simp [isNumberChar, decimal]

theorem literal_chars {text : List Char} {v : ℚ} (made : Literal text v) :
    ∀ c ∈ text, isNumberChar c = true := by
  obtain ⟨whole, fraction, power, e, rfl, decimal, -, -, places, exponent, -, -⟩ := made.parts
  intro c member
  simp only [literal, List.mem_append] at member
  rcases member with first | second | third
  · exact isNumberChar_of_isDigit (decimal c first)
  · cases fraction with
    | none => cases second
    | some digits =>
      rcases List.mem_cons.mp second with rfl | later
      · decide
      · exact isNumberChar_of_isDigit ((places digits rfl).1 c later)
  · cases power with
    | none => cases third
    | some chars =>
      obtain ⟨sign, rest, rfl, signs, digits, -⟩ := exponent chars rfl
      rcases List.mem_cons.mp third with rfl | later
      · decide
      · rcases List.mem_cons.mp later with rfl | last
        · rcases signs with rfl | rfl <;> decide
        · exact isNumberChar_of_isDigit (digits c last)

theorem literal_head {text : List Char} {v : ℚ} (made : Literal text v) :
    ∃ c rest, text = c :: rest ∧ c.isDigit = true := by
  obtain ⟨whole, fraction, power, e, rfl, decimal, some, -⟩ := made.parts
  obtain ⟨c, rest, rfl⟩ := List.exists_cons_of_ne_nil some
  exact ⟨c, _, rfl, decimal c List.mem_cons_self⟩

theorem someDigits_of {text : List Char} (decimal : isDecimal text) (some : text ≠ []) :
    someDigits text = true := by
  simp only [someDigits, Bool.and_eq_true, List.all_eq_true]
  exact ⟨by simp [some], decimal⟩

theorem unsigned_digit {c : Char} {rest : List Char} (digit : c.isDigit = true) :
    unsigned (c :: rest) = c :: rest := by
  unfold unsigned
  split
  · rename_i sign
    rw [(List.cons.inj sign).1] at digit
    cases digit
  · rfl

theorem isNumber_unsigned {c : Char} {rest : List Char} (digit : c.isDigit = true) :
    isNumber ('-' :: c :: rest) = isNumber (c :: rest) := by
  unfold isNumber
  rw [unsigned_digit digit]
  rfl

theorem isNumber_literal {text : List Char} {v : ℚ} (made : Literal text v) :
    isNumber text = true := by
  obtain ⟨c, rest, shape, digit⟩ := literal_head made
  obtain ⟨whole, fraction, power, e, same, decimal, some, leading, places, exponent, -⟩ := made.parts
  have plain : unsigned text = text := by rw [shape, unsigned_digit digit]
  have powers : (power.all fun text => someDigits (JsNumber.signed text).2) = true := by
    cases power with
    | none => rfl
    | some chars =>
      obtain ⟨sign, digits, rfl, signs, decimals, more⟩ := exponent chars rfl
      rcases signs with rfl | rfl <;> exact someDigits_of decimals more
  have fractions : fraction.all someDigits = true := by
    cases fraction with
    | none => rfl
    | some digits => exact someDigits_of (places digits rfl).1 (places digits rfl).2
  have first : (whole.length == 1 || whole.head? != Option.some '0') = true := by
    by_cases zero : whole.head? = Option.some '0'
    · simp [leading zero]
    · simp [zero]
  unfold isNumber
  rw [plain, same]
  simp only [JsNumber.splitAt_power decimal fun text here => (places text here).1,
    JsNumber.splitAt_fraction decimal, someDigits_of decimal some, first, fractions, powers]
  rfl

theorem signed_digit {c : Char} {rest : List Char} (digit : c.isDigit = true) :
    JsNumber.signed (c :: rest) = (false, c :: rest) := by
  unfold JsNumber.signed
  split
  · rename_i shape
    rw [(List.cons.inj shape).1] at digit
    cases digit
  · rename_i shape
    rw [(List.cons.inj shape).1] at digit
    cases digit
  · rfl

theorem unsigned_literal {text : List Char} {v : ℚ} (made : Literal text v) :
    text ≠ "Infinity".toList ∧ JsNumber.unsignedDecimal text = some v := by
  obtain ⟨c, rest, shape, digit⟩ := literal_head made
  obtain ⟨whole, fraction, power, e, same, decimal, some, -, places, -, exponent, value⟩ := made.parts
  refine ⟨fun infinite => ?_, ?_⟩
  · rw [shape] at infinite
    rw [(List.cons.inj infinite).1] at digit
    revert digit
    decide
  · rw [same, JsNumber.unsignedDecimal_literal decimal (fun text here => (places text here).1) some
      exponent, value]

theorem decimal_literal {text : List Char} {v : ℚ} (made : Literal text v) :
    JsNumber.decimal text = nearest v ∧ JsNumber.decimal ('-' :: text) = nearest (-v) := by
  obtain ⟨finite, read⟩ := unsigned_literal made
  obtain ⟨c, rest, shape, digit⟩ := literal_head made
  constructor
  · unfold JsNumber.decimal
    rw [shape, signed_digit digit, ← shape]
    simp only [if_neg finite, read, Bool.false_eq_true, if_false]
  · unfold JsNumber.decimal
    simp only [JsNumber.signed, if_neg finite, read, if_true]

/-- No character of a number follows. -/
def Ends (rest : List Char) : Prop := ∀ c ∈ rest.head?, isNumberChar c = false

theorem takeWhile_ends {test : Char → Bool} {token rest : List Char}
    (all : ∀ c ∈ token, test c = true) (ends : ∀ c ∈ rest.head?, test c = false) :
    (token ++ rest).takeWhile test = token ∧ (token ++ rest).dropWhile test = rest := by
  rw [List.takeWhile_append_of_pos all, List.dropWhile_append_of_pos all]
  cases rest with
  | nil => simp
  | cons c rest => simp [ends c rfl]

theorem parseNumber_token {token rest : List Char} {d : Double} (ends : Ends rest)
    (all : ∀ c ∈ token, isNumberChar c = true) (valid : isNumber token = true)
    (read : JsNumber.decimal token = d) : parseNumber (token ++ rest) = some (num d, rest) := by
  obtain ⟨taken, dropped⟩ := takeWhile_ends all ends
  unfold parseNumber
  rw [taken, dropped]
  simp only [valid, if_true, read]

theorem literal_zero : Literal ['0'] 0 :=
  ⟨['0'], none, none, 0, rfl, by decide, by decide, fun _ => rfl,
    by simp, by simp, rfl, by simp [Nat.ofDigitChars_cons]⟩

theorem literal_shortest {q : ℚ} (positive : 0 < q) (double : nearest q = .finite q) :
    ∃ v, 0 < v ∧ Literal (layout (shortestDigits q).1 (shortestDigits q).2) v ∧
      nearest v = .finite q := by
  obtain ⟨v, digits, same⟩ :=
    JsNumber.shortestDigits_spec (JsNumber.isDouble_of_nearest positive double)
  refine ⟨v, ?_, JsNumber.layout_literal digits, same⟩
  rcases lt_trichotomy v 0 with negative | zero | above
  · have up : (0 : ℚ) ≤ v := by
      rw [digits.value]
      exact mul_nonneg (Nat.cast_nonneg _) (JsNumber.tenPow_pos _).le
    exact absurd negative (not_lt.mpr up)
  · rw [zero, nearest, if_pos rfl] at same
    injection same with same
    exact absurd same positive.ne
  · exact above

theorem numberText_head {q : ℚ} (double : nearest q = .finite q) :
    ∃ c rest, numberText (.finite q) = c :: rest ∧ (c = '-' ∨ c.isDigit = true) := by
  unfold numberText
  dsimp only
  split
  · exact ⟨'0', [], rfl, .inr (by decide)⟩
  · rename_i some
    split
    · exact ⟨'-', _, rfl, .inl rfl⟩
    · rename_i up
      have positive : 0 < q := lt_of_le_of_ne (not_lt.mp up) (Ne.symm some)
      obtain ⟨v, -, made, -⟩ := literal_shortest positive double
      obtain ⟨c, rest, shape, digit⟩ := literal_head made
      exact ⟨c, rest, shape, .inr digit⟩

/-- The text of a double is read as the double. -/
theorem parseNumber_numberText {q : ℚ} {rest : List Char} (double : nearest q = .finite q)
    (ends : Ends rest) :
    parseNumber (numberText (.finite q) ++ rest) = some (num (.finite q), rest) := by
  unfold numberText
  dsimp only
  split
  · rename_i zero
    rw [zero]
    exact parseNumber_token ends (literal_chars literal_zero) (isNumber_literal literal_zero)
      (decimal_literal literal_zero).1
  · rename_i some
    split
    · rename_i negative
      have mirrored : nearest (-q) = .finite (-q) := by
        rw [JsNumber.nearest_neg some, double]
        rfl
      obtain ⟨v, above, made, same⟩ := literal_shortest (neg_pos.mpr negative) mirrored
      obtain ⟨c, chars, shape, digit⟩ := literal_head made
      refine parseNumber_token ends ?_ ?_ ?_
      · intro c member
        rcases List.mem_cons.mp member with rfl | later
        · decide
        · exact literal_chars made c later
      · rw [shape, isNumber_unsigned digit, ← shape, isNumber_literal made]
      · rw [(decimal_literal made).2, JsNumber.nearest_neg above.ne', same]
        simp [Double.neg]
    · rename_i up
      have positive : 0 < q := lt_of_le_of_ne (not_lt.mp up) (Ne.symm some)
      obtain ⟨v, -, made, same⟩ := literal_shortest positive double
      exact parseNumber_token ends (literal_chars made) (isNumber_literal made)
        ((decimal_literal made).1.trans same)

/-! Values -/

mutual
/-- What a text can hold: finite doubles, and objects of distinct keys. -/
def Plain : Json → Prop
  | num value => ∃ q, value = .finite q ∧ nearest q = .finite q
  | arr items => PlainItems items
  | obj fields => (fields.map Prod.fst).Nodup ∧ PlainFields fields
  | _ => True

def PlainItems : List Json → Prop
  | [] => True
  | item :: rest => item.Plain ∧ PlainItems rest

def PlainFields : List (String × Json) → Prop
  | [] => True
  | field :: rest => field.2.Plain ∧ PlainFields rest
end

mutual
/-- The fuel that a value takes. -/
def cost : Json → Nat
  | arr items => 1 + costItems items
  | obj fields => 1 + costFields fields
  | _ => 1

def costItems : List Json → Nat
  | [] => 0
  | item :: rest => 1 + max item.cost (costItems rest)

def costFields : List (String × Json) → Nat
  | [] => 0
  | field :: rest => 1 + max field.2.cost (costFields rest)
end

theorem ownFields_distinct {fields : List (String × Json)} (distinct : (fields.map Prod.fst).Nodup) :
    ownFields fields = fields := by
  have run : ∀ later done : List (String × Json), ((done ++ later).map Prod.fst).Nodup →
      later.foldl setField done = done ++ later := by
    intro later
    induction later with
    | nil => simp
    | cons field later ih =>
      intro done apart
      have fresh : field.1 ∉ done.map Prod.fst := by
        rw [List.map_append, List.map_cons] at apart
        exact fun here => (List.disjoint_of_nodup_append apart) here List.mem_cons_self
      rw [List.foldl_cons, setField, if_neg fresh, ih _ (by simpa using apart)]
      simp
  simpa [ownFields] using run fields [] distinct

theorem ends_of {c : Char} (other : isNumberChar c = false) (rest : List Char) : Ends (c :: rest) := by
  intro d head
  rw [List.head?_cons, Option.mem_some_iff] at head
  rwa [← head]

theorem skip_cons {c : Char} (solid : isWhite c = false) (rest : List Char) :
    skip (c :: rest) = c :: rest := List.dropWhile_cons_of_neg (by simp [solid])

theorem isWhite_digit {c : Char} (digit : c = '-' ∨ c.isDigit = true) :
    isWhite c = false ∧ c ≠ 'n' ∧ c ≠ 't' ∧ c ≠ 'f' ∧ c ≠ '"' ∧ c ≠ '[' ∧ c ≠ '{' ∧ c ≠ ']' := by
  rcases digit with rfl | digit
  · decide
  · have bounds := Char.isDigit_iff_toNat.mp digit
    have zero : '0'.toNat = 48 := rfl
    have nine : '9'.toNat = 57 := rfl
    have other : ∀ d : Char, (d.toNat < 48 ∨ 57 < d.toNat) → c ≠ d := by
      rintro d outside rfl
      omega
    refine ⟨?_, other _ (by decide), other _ (by decide), other _ (by decide), other _ (by decide),
      other _ (by decide), other _ (by decide), other _ (by decide)⟩
    simp only [isWhite, List.contains_eq_mem, List.mem_cons, List.not_mem_nil, or_false,
      decide_eq_false_iff_not]
    omega

theorem stringify_head {v : Json} (plain : v.Plain) :
    ∃ c rest, v.stringify = c :: rest ∧ isWhite c = false ∧ c ≠ ']' := by
  cases v with
  | null => exact ⟨'n', "ull".toList, rfl, by decide, by decide⟩
  | bool value => cases value <;> exact ⟨_, _, rfl, by decide, by decide⟩
  | num value =>
    obtain ⟨q, rfl, double⟩ := plain
    obtain ⟨c, rest, shape, digit⟩ := numberText_head double
    obtain ⟨solid, -, -, -, -, -, -, bracket⟩ := isWhite_digit digit
    exact ⟨c, rest, shape, solid, bracket⟩
  | str value => exact ⟨'"', _, rfl, by decide, by decide⟩
  | arr items => exact ⟨'[', _, rfl, by decide, by decide⟩
  | obj fields => exact ⟨'{', _, rfl, by decide, by decide⟩

theorem parseValue_number {n : Nat} {c : Char} {rest : List Char} (digit : c = '-' ∨ c.isDigit = true) :
    parseValue (n + 1) (c :: rest) = parseNumber (c :: rest) := by
  obtain ⟨solid, null, true, false, quote, bracket, brace, -⟩ := isWhite_digit digit
  rw [parseValue, skip_cons solid]
  split
  all_goals first
    | rfl
    | (rename_i shape
       exact absurd (List.cons.inj shape).1 (by assumption))

theorem parseValue_string (n : Nat) (value : String) (rest : List Char) :
    parseValue (n + 1) (Jwt.quote value ++ rest) = some (str value, rest) := by
  have shape : Jwt.quote value ++ rest =
      '"' :: (value.toList.flatMap Jwt.escape ++ Jwt.quotation :: rest) := by
    simp [Jwt.quote, Jwt.quotation]
  rw [shape, parseValue, skip_cons (by decide)]
  simp only [parseString_quoted, Option.map_some]

theorem parseValue_array {n : Nat} {c : Char} {rest : List Char} (solid : isWhite c = false)
    (other : c ≠ ']') : parseValue (n + 1) ('[' :: c :: rest) =
      (parseItems n (c :: rest)).map fun (items, rest) => (arr items, rest) := by
  rw [parseValue, skip_cons (by decide)]
  simp only [skip_cons solid]
  split
  · rename_i shape
    exact absurd (List.cons.inj shape).1 other
  · rfl

theorem parseValue_object {n : Nat} {c : Char} {rest : List Char} (solid : isWhite c = false)
    (other : c ≠ '}') : parseValue (n + 1) ('{' :: c :: rest) =
      (parseFields n (c :: rest)).map fun (fields, rest) => (obj (ownFields fields), rest) := by
  rw [parseValue, skip_cons (by decide)]
  simp only [skip_cons solid]
  split
  · rename_i shape
    exact absurd (List.cons.inj shape).1 other
  · rfl

/-! The round trip -/

theorem parseItems_last {n : Nat} {text rest : List Char} {item : Json}
    (first : parseValue n text = some (item, ']' :: rest)) :
    parseItems (n + 1) text = some ([item], rest) := by
  rw [parseItems, first]
  rfl

theorem parseItems_more {n : Nat} {text more : List Char} {item : Json}
    (first : parseValue n text = some (item, ',' :: more)) :
    parseItems (n + 1) text =
      (parseItems n more).map fun (items, rest) => (item :: items, rest) := by
  rw [parseItems, first]
  rfl

/-- One property, up to what follows its value. -/
theorem parseFields_value {n : Nat} {key : String} {text more : List Char} {value : Json}
    (first : parseValue n text = some (value, more)) :
    parseFields (n + 1) (Jwt.quote key ++ ':' :: text) =
      match skip more with
      | ',' :: rest => (parseFields n rest).map fun (fields, rest) => ((key, value) :: fields, rest)
      | '}' :: rest => some ([(key, value)], rest)
      | _ => none := by
  have shape : Jwt.quote key ++ ':' :: text =
      '"' :: (key.toList.flatMap Jwt.escape ++ Jwt.quotation :: ':' :: text) := by
    simp [Jwt.quote, Jwt.quotation]
  rw [shape, parseFields, skip_cons (by decide)]
  simp only [parseString_quoted, skip_cons (show isWhite ':' = false from rfl), first]

mutual
theorem parseValue_stringify : (v : Json) → (n : Nat) → (rest : List Char) → v.Plain → v.cost ≤ n →
    Ends rest → parseValue n (v.stringify ++ rest) = some (v, rest)
  | .null, 0, _, _, fuel, _ => absurd fuel (by decide)
  | .null, _ + 1, _, _, _, _ => rfl
  | .bool _, 0, _, _, fuel, _ => absurd fuel (by simp [cost])
  | .bool value, _ + 1, _, _, _, _ => by cases value <;> rfl
  | .num _, 0, _, _, fuel, _ => absurd fuel (by simp [cost])
  | .num value, n + 1, rest, plain, _, ends => by
    obtain ⟨q, rfl, double⟩ := plain
    obtain ⟨c, chars, shape, digit⟩ := numberText_head double
    have text : (num (.finite q)).stringify = numberText (.finite q) := rfl
    rw [text, shape, List.cons_append, parseValue_number digit, ← List.cons_append, ← shape]
    exact parseNumber_numberText double ends
  | .str _, 0, _, _, fuel, _ => absurd fuel (by simp [cost])
  | .str value, n + 1, rest, _, _, _ => parseValue_string n value rest
  | .arr _, 0, _, _, fuel, _ => absurd fuel (by simp [cost])
  | .arr items, n + 1, rest, plain, fuel, _ => by
    have enough : costItems items ≤ n := by
      rw [cost] at fuel
      omega
    have text : (arr items).stringify = '[' :: stringifyItems items ++ [']'] := rfl
    rw [text]
    cases items with
    | nil => rfl
    | cons item more =>
      obtain ⟨c, chars, shape, solid, other⟩ := stringify_head plain.1
      have items := parseItems_stringify (item :: more) n rest plain enough (by simp)
      have start : ∃ tail, stringifyItems (item :: more) = c :: tail := by
        cases more with
        | nil => exact ⟨chars, shape⟩
        | cons next later => exact ⟨_, congrArg (· ++ _) shape⟩
      obtain ⟨tail, start⟩ := start
      rw [List.append_assoc, List.singleton_append, List.cons_append, start, List.cons_append,
        parseValue_array solid other, ← List.cons_append, ← start, items]
      rfl
  | .obj _, 0, _, _, fuel, _ => absurd fuel (by simp [cost])
  | .obj fields, n + 1, rest, plain, fuel, _ => by
    have enough : costFields fields ≤ n := by
      rw [cost] at fuel
      omega
    have text : (obj fields).stringify = '{' :: stringifyFields fields ++ ['}'] := rfl
    rw [text]
    cases fields with
    | nil => rfl
    | cons field more =>
      have read := parseFields_stringify (field :: more) n rest plain.2 enough (by simp)
      have start : ∃ tail, stringifyFields (field :: more) = '"' :: tail := by
        cases more with
        | nil => exact ⟨_, rfl⟩
        | cons next later => exact ⟨_, rfl⟩
      obtain ⟨tail, start⟩ := start
      rw [List.append_assoc, List.singleton_append, List.cons_append, start, List.cons_append,
        parseValue_object (by decide) (by decide), ← List.cons_append, ← start, read]
      simp only [Option.map_some, ownFields_distinct plain.1]

theorem parseItems_stringify : (items : List Json) → (n : Nat) → (rest : List Char) →
    PlainItems items → costItems items ≤ n → items ≠ [] →
    parseItems n (stringifyItems items ++ ']' :: rest) = some (items, rest)
  | [], _, _, _, _, filled => absurd rfl filled
  | _ :: _, 0, _, _, fuel, _ => absurd fuel (by simp [costItems])
  | [item], n + 1, rest, plain, fuel, _ => by
    have enough : item.cost ≤ n := by
      simp only [costItems] at fuel
      omega
    exact parseItems_last
      (parseValue_stringify item n (']' :: rest) plain.1 enough (ends_of (by decide) rest))
  | item :: next :: more, n + 1, rest, plain, fuel, _ => by
    have enough : item.cost ≤ n ∧ costItems (next :: more) ≤ n := by
      rw [costItems] at fuel
      omega
    have text : stringifyItems (item :: next :: more) ++ ']' :: rest =
        item.stringify ++ ',' :: (stringifyItems (next :: more) ++ ']' :: rest) := by
      simp [stringifyItems]
    rw [text, parseItems_more (parseValue_stringify item n _ plain.1 enough.1
        (ends_of (by decide) _)),
      parseItems_stringify (next :: more) n rest plain.2 enough.2 (by simp)]
    rfl

theorem parseFields_stringify : (fields : List (String × Json)) → (n : Nat) → (rest : List Char) →
    PlainFields fields → costFields fields ≤ n → fields ≠ [] →
    parseFields n (stringifyFields fields ++ '}' :: rest) = some (fields, rest)
  | [], _, _, _, _, filled => absurd rfl filled
  | _ :: _, 0, _, _, fuel, _ => absurd fuel (by simp [costFields])
  | [(key, value)], n + 1, rest, plain, fuel, _ => by
    have enough : value.cost ≤ n := by
      simp only [costFields] at fuel
      omega
    have text : stringifyFields [(key, value)] ++ '}' :: rest =
        Jwt.quote key ++ ':' :: (value.stringify ++ '}' :: rest) := by
      simp [stringifyFields]
    rw [text, parseFields_value (parseValue_stringify value n _ plain.1 enough
      (ends_of (by decide) rest))]
    rfl
  | (key, value) :: next :: more, n + 1, rest, plain, fuel, _ => by
    have enough : value.cost ≤ n ∧ costFields (next :: more) ≤ n := by
      rw [costFields] at fuel
      dsimp only at fuel
      omega
    have text : stringifyFields ((key, value) :: next :: more) ++ '}' :: rest =
        Jwt.quote key ++ ':' :: (value.stringify ++
          ',' :: (stringifyFields (next :: more) ++ '}' :: rest)) := by
      simp [stringifyFields]
    rw [text, parseFields_value (parseValue_stringify value n _ plain.1 enough.1
      (ends_of (by decide) _)), skip_cons (by decide)]
    change (parseFields n _).map _ = _
    rw [parseFields_stringify (next :: more) n rest plain.2 enough.2 (by simp)]
    rfl
end

mutual
theorem cost_lt : (v : Json) → v.Plain → v.cost + 1 ≤ 2 * v.stringify.length
  | .null, _ => by decide
  | .bool value, _ => by cases value <;> decide
  | .num value, plain => by
    obtain ⟨q, rfl, double⟩ := plain
    obtain ⟨c, chars, shape, -⟩ := numberText_head double
    change 1 + 1 ≤ 2 * (numberText (.finite q)).length
    rw [shape, List.length_cons]
    omega
  | .str value, _ => by
    have long := Jwt.length_le_quote value
    change 1 + 1 ≤ 2 * (Jwt.quote value).length
    omega
  | .arr items, plain => by
    have inner := costItems_le items plain
    have text : (arr items).stringify = '[' :: stringifyItems items ++ [']'] := rfl
    rw [text, cost, List.length_append, List.length_cons, List.length_singleton]
    omega
  | .obj fields, plain => by
    have inner := costFields_le fields plain.2
    have text : (obj fields).stringify = '{' :: stringifyFields fields ++ ['}'] := rfl
    rw [text, cost, List.length_append, List.length_cons, List.length_singleton]
    omega

theorem costItems_le : (items : List Json) → PlainItems items →
    costItems items ≤ 2 * (stringifyItems items).length
  | [], _ => by simp [costItems]
  | [item], plain => by
    have own := cost_lt item plain.1
    simp only [costItems, stringifyItems]
    omega
  | item :: next :: more, plain => by
    have own := cost_lt item plain.1
    have later := costItems_le (next :: more) plain.2
    rw [costItems, stringifyItems, List.length_append, List.length_cons]
    omega

theorem costFields_le : (fields : List (String × Json)) → PlainFields fields →
    costFields fields ≤ 2 * (stringifyFields fields).length
  | [], _ => by simp [costFields]
  | [field], plain => by
    have own := cost_lt field.2 plain.1
    simp only [costFields, stringifyFields, List.length_append, List.length_cons]
    omega
  | field :: next :: more, plain => by
    have own := cost_lt field.2 plain.1
    have later := costFields_le (next :: more) plain.2
    rw [costFields, stringifyFields]
    simp only [List.length_append, List.length_cons]
    omega
end

/-- What is written is read back. -/
theorem parse_stringify {v : Json} (plain : v.Plain) : parse (String.ofList v.stringify) = some v := by
  have enough := cost_lt v plain
  have read := parseValue_stringify v (2 * v.stringify.length) [] plain (by omega) (by simp [Ends])
  rw [List.append_nil] at read
  unfold parse
  rw [String.toList_ofList, read]
  rfl

/-! What is read -/

/-- NaN, an infinite number, or a double. -/
def SoundNumber (d : Double) : Prop := ∀ q, d = .finite q → nearest q = .finite q

mutual
/-- What `JSON.parse` makes: doubles, and objects of distinct keys. -/
def Sound : Json → Prop
  | num value => SoundNumber value
  | arr items => SoundItems items
  | obj fields => (fields.map Prod.fst).Nodup ∧ SoundFields fields
  | _ => True

def SoundItems : List Json → Prop
  | [] => True
  | item :: rest => item.Sound ∧ SoundItems rest

def SoundFields : List (String × Json) → Prop
  | [] => True
  | field :: rest => field.2.Sound ∧ SoundFields rest
end

theorem soundFields_iff {fields : List (String × Json)} :
    SoundFields fields ↔ ∀ field ∈ fields, field.2.Sound := by
  induction fields with
  | nil => simp [SoundFields]
  | cons field rest ih => simp [SoundFields, ih]

theorem setField_keys {fields : List (String × Json)} (field : String × Json)
    (distinct : (fields.map Prod.fst).Nodup) : ((setField fields field).map Prod.fst).Nodup := by
  unfold setField
  split
  · have same : (fields.map fun other => if other.1 = field.1 then field else other).map Prod.fst =
        fields.map Prod.fst := by
      rw [List.map_map]
      refine List.map_congr_left fun other _ => ?_
      dsimp only [Function.comp]
      split
      · rename_i here
        exact here.symm
      · rfl
    rwa [same]
  · rename_i fresh
    rw [List.map_append]
    exact List.nodup_append_comm.mp (List.nodup_cons.mpr ⟨fresh, distinct⟩)

theorem ownFields_sound {fields : List (String × Json)} (sound : SoundFields fields) :
    ((ownFields fields).map Prod.fst).Nodup ∧ SoundFields (ownFields fields) := by
  have run : ∀ later done : List (String × Json), (done.map Prod.fst).Nodup →
      (∀ field ∈ done, field.2.Sound) → (∀ field ∈ later, field.2.Sound) →
      ((later.foldl setField done).map Prod.fst).Nodup ∧
        ∀ field ∈ later.foldl setField done, field.2.Sound := by
    intro later
    induction later with
    | nil => exact fun done distinct each _ => ⟨distinct, each⟩
    | cons field later ih =>
      intro done distinct each all
      obtain ⟨own, others⟩ := List.forall_mem_cons.mp all
      refine ih _ (setField_keys field distinct) (fun other member => ?_) others
      unfold setField at member
      split at member
      · obtain ⟨old, listed, rfl⟩ := List.mem_map.mp member
        split
        · exact own
        · exact each old listed
      · rcases List.mem_append.mp member with old | new
        · exact each other old
        · rw [List.mem_singleton.mp new]
          exact own
  obtain ⟨distinct, each⟩ := run fields [] (by simp) (by simp) (soundFields_iff.mp sound)
  exact ⟨distinct, soundFields_iff.mpr each⟩

theorem decimal_sound (token : List Char) : SoundNumber (JsNumber.decimal token) := by
  intro q same
  unfold JsNumber.decimal at same
  dsimp only at same
  split at same
  · cases same
  · split at same
    · exact JsNumber.nearest_idem same
    · cases same

theorem parseNumber_sound {text rest : List Char} {v : Json}
    (read : parseNumber text = some (v, rest)) : v.Sound := by
  unfold parseNumber at read
  dsimp only at read
  split at read
  · cases read
    exact decimal_sound _
  · cases read

theorem map_pair {α β : Type} {x : Option (α × List Char)} {f : α → β} {v : β} {rest : List Char}
    (made : (x.map fun (a, rest) => (f a, rest)) = some (v, rest)) :
    ∃ a, x = some (a, rest) ∧ f a = v := by
  obtain ⟨⟨a, later⟩, found, same⟩ := Option.map_eq_some_iff.mp made
  cases same
  exact ⟨a, found, rfl⟩

/-- The parser of every sort of text, by induction on the fuel. -/
theorem parsed_sound (n : Nat) :
    (∀ text v rest, parseValue n text = some (v, rest) → v.Sound) ∧
    (∀ text items rest, parseItems n text = some (items, rest) → SoundItems items) ∧
    ∀ text fields rest, parseFields n text = some (fields, rest) → SoundFields fields := by
  induction n with
  | zero => exact ⟨nofun, nofun, nofun⟩
  | succ n ih =>
    obtain ⟨values, items, fields⟩ := ih
    refine ⟨fun text v rest read => ?_, fun text v rest read => ?_, fun text v rest read => ?_⟩
    · rw [parseValue] at read
      split at read
      · cases read
        trivial
      · cases read
        trivial
      · cases read
        trivial
      · obtain ⟨value, -, rfl⟩ := map_pair read
        trivial
      · split at read
        · cases read
          trivial
        · obtain ⟨list, found, rfl⟩ := map_pair read
          exact items _ _ _ found
      · split at read
        · cases read
          exact ⟨List.nodup_nil, trivial⟩
        · obtain ⟨list, found, rfl⟩ := map_pair (f := fun own => obj (ownFields own)) read
          exact ownFields_sound (fields _ _ _ found)
      · exact parseNumber_sound read
    · rw [parseItems] at read
      split at read
      · cases read
      · rename_i first
        have own := values _ _ _ first
        split at read
        · obtain ⟨list, found, rfl⟩ := map_pair read
          exact ⟨own, items _ _ _ found⟩
        · cases read
          exact ⟨own, trivial⟩
        · cases read
    · rw [parseFields] at read
      split at read
      · split at read
        · cases read
        · split at read
          · split at read
            · cases read
            · rename_i first
              have own := values _ _ _ first
              split at read
              · obtain ⟨list, found, rfl⟩ := map_pair read
                exact ⟨own, fields _ _ _ found⟩
              · cases read
                exact ⟨own, trivial⟩
              · cases read
          · cases read
      · cases read

theorem parse_sound {text : String} {v : Json} (read : parse text = some v) : v.Sound := by
  unfold parse at read
  split at read
  · rename_i found
    split at read
    · cases read
      exact (parsed_sound _).1 _ _ _ found
    · cases read
  · cases read

/-! What is written again -/

mutual
/-- `JSON.stringify` writes `null` for a number that is not finite. -/
def written : Json → Json
  | num value => if value.isFinite then num value else null
  | arr items => arr (writtenItems items)
  | obj fields => obj (writtenFields fields)
  | null => null
  | bool value => bool value
  | str value => str value

def writtenItems : List Json → List Json
  | [] => []
  | item :: rest => item.written :: writtenItems rest

def writtenFields : List (String × Json) → List (String × Json)
  | [] => []
  | field :: rest => (field.1, field.2.written) :: writtenFields rest
end

mutual
def Finite : Json → Prop
  | num value => value.isFinite = true
  | arr items => FiniteItems items
  | obj fields => FiniteFields fields
  | _ => True

def FiniteItems : List Json → Prop
  | [] => True
  | item :: rest => item.Finite ∧ FiniteItems rest

def FiniteFields : List (String × Json) → Prop
  | [] => True
  | field :: rest => field.2.Finite ∧ FiniteFields rest
end

mutual
theorem stringify_written : (v : Json) → v.written.stringify = v.stringify
  | .null | .bool _ | .str _ => rfl
  | .num value => by
    change (if value.isFinite then num value else null).stringify =
      if value.isFinite then numberText value else "null".toList
    split
    · rename_i finite
      exact if_pos finite
    · rfl
  | .arr items => congrArg (fun text => '[' :: text ++ [']']) (stringifyItems_written items)
  | .obj fields => congrArg (fun text => '{' :: text ++ ['}']) (stringifyFields_written fields)

theorem stringifyItems_written : (items : List Json) →
    stringifyItems (writtenItems items) = stringifyItems items
  | [] => rfl
  | [item] => stringify_written item
  | item :: next :: rest => by
    have first := stringify_written item
    have later := stringifyItems_written (next :: rest)
    change item.written.stringify ++ ',' :: stringifyItems (writtenItems (next :: rest)) =
      item.stringify ++ ',' :: stringifyItems (next :: rest)
    rw [first, later]

theorem stringifyFields_written : (fields : List (String × Json)) →
    stringifyFields (writtenFields fields) = stringifyFields fields
  | [] => rfl
  | [field] => congrArg (fun text => Jwt.quote field.1 ++ ':' :: text) (stringify_written field.2)
  | field :: next :: rest => by
    have first := stringify_written field.2
    have later := stringifyFields_written (next :: rest)
    change Jwt.quote field.1 ++ ':' :: field.2.written.stringify ++ ',' ::
        stringifyFields (writtenFields (next :: rest)) =
      Jwt.quote field.1 ++ ':' :: field.2.stringify ++ ',' :: stringifyFields (next :: rest)
    rw [first, later]
end

theorem writtenFields_keys (fields : List (String × Json)) :
    (writtenFields fields).map Prod.fst = fields.map Prod.fst := by
  induction fields with
  | nil => rfl
  | cons field rest ih => rw [writtenFields, List.map_cons, List.map_cons, ih]

mutual
theorem plain_written : (v : Json) → v.Sound → v.written.Plain
  | .null, _ | .bool _, _ | .str _, _ => trivial
  | .num value, sound => by
    cases value with
    | finite q => exact ⟨q, rfl, sound q rfl⟩
    | nan | infinite => trivial
  | .arr items, sound => plainItems_written items sound
  | .obj fields, sound =>
    ⟨by rw [writtenFields_keys]; exact sound.1, plainFields_written fields sound.2⟩

theorem plainItems_written : (items : List Json) → SoundItems items →
    PlainItems (writtenItems items)
  | [], _ => trivial
  | item :: rest, sound => ⟨plain_written item sound.1, plainItems_written rest sound.2⟩

theorem plainFields_written : (fields : List (String × Json)) → SoundFields fields →
    PlainFields (writtenFields fields)
  | [], _ => trivial
  | field :: rest, sound => ⟨plain_written field.2 sound.1, plainFields_written rest sound.2⟩
end

mutual
theorem written_eq_iff : (v : Json) → (v.written = v ↔ v.Finite)
  | .null | .bool _ | .str _ => by simp [written, Finite]
  | .num value => by cases value <;> simp [written, Finite, Double.isFinite]
  | .arr items => by simp [written, Finite, writtenItems_eq_iff items]
  | .obj fields => by simp [written, Finite, writtenFields_eq_iff fields]

theorem writtenItems_eq_iff : (items : List Json) → (writtenItems items = items ↔ FiniteItems items)
  | [] => by simp [writtenItems, FiniteItems]
  | item :: rest => by
    simp [writtenItems, FiniteItems, written_eq_iff item, writtenItems_eq_iff rest]

theorem writtenFields_eq_iff : (fields : List (String × Json)) →
    (writtenFields fields = fields ↔ FiniteFields fields)
  | [] => by simp [writtenFields, FiniteFields]
  | (key, value) :: rest => by
    simp [writtenFields, FiniteFields, written_eq_iff value, writtenFields_eq_iff rest]
end

mutual
theorem written_finite : (v : Json) → v.written.Finite
  | .null | .bool _ | .str _ => trivial
  | .num value => by cases value <;> simp [written, Finite, Double.isFinite]
  | .arr items => writtenItems_finite items
  | .obj fields => writtenFields_finite fields

theorem writtenItems_finite : (items : List Json) → FiniteItems (writtenItems items)
  | [] => trivial
  | item :: rest => ⟨written_finite item, writtenItems_finite rest⟩

theorem writtenFields_finite : (fields : List (String × Json)) → FiniteFields (writtenFields fields)
  | [] => trivial
  | field :: rest => ⟨written_finite field.2, writtenFields_finite rest⟩
end

theorem written_written (v : Json) : v.written.written = v.written :=
  v.written.written_eq_iff.mpr v.written_finite

/-- A value that was parsed is read back as it was, up to the numbers that are not finite. -/
theorem parse_stringify_sound {v : Json} (sound : v.Sound) :
    parse (String.ofList v.stringify) = some v.written := by
  rw [← stringify_written v]
  exact parse_stringify (plain_written v sound)

theorem written_sound {v : Json} (sound : v.Sound) : v.written.Sound :=
  parse_sound (parse_stringify_sound sound)

end Json
