import Mathlib.Data.List.Basic

/-! JSON web tokens in their compact form, HS256: the JSON text of the claims in the order
given, base64url over its UTF-8 bytes, and a signature under a secret. A signature can only
be made with the secret, so a token is the pair of its secret and its claims. -/
namespace Jwt

/-! Bytes and base64url -/

def utf8 (text : List Char) : List UInt8 := text.flatMap String.utf8EncodeChar

def alphabet : List Char :=
  "ABCDEFGHIJKLMNOPQRSTUVWXYZabcdefghijklmnopqrstuvwxyz0123456789-_".toList

def sextet (n : Nat) : Char := alphabet.getD (n % 64) 'A'

/-- Three bytes make four characters; there is no padding. -/
def base64url : List UInt8 → List Char
  | a :: b :: c :: rest =>
    let n := a.toNat * 65536 + b.toNat * 256 + c.toNat
    sextet (n / 262144) :: sextet (n / 4096) :: sextet (n / 64) :: sextet n :: base64url rest
  | [a, b] =>
    let n := a.toNat * 1024 + b.toNat * 4
    [sextet (n / 4096), sextet (n / 64), sextet n]
  | [a] => [sextet (a.toNat / 4), sextet (a.toNat * 16)]
  | [] => []

/-! The text of the claims -/

inductive Claim where
  | text (value : String)
  | number (value : Int)
  deriving DecidableEq, Repr

abbrev Claims := List (String × Claim)

def get? (claims : Claims) (name : String) : Option Claim := claims.lookup name

/-- `JSON.stringify` of one character inside a string. -/
def escape (c : Char) : List Char :=
  let hex (n : Nat) : Char := (Nat.toDigits 16 n).getD 0 '0'
  match c.toNat with
  | 8 => ['\\', 'b']
  | 9 => ['\\', 't']
  | 10 => ['\\', 'n']
  | 12 => ['\\', 'f']
  | 13 => ['\\', 'r']
  | 34 => ['\\', c]
  | 92 => ['\\', c]
  | n => if n < 32 then ['\\', 'u', '0', '0', hex (n / 16), hex (n % 16)] else [c]

def quotation : Char := Char.ofNat 34

def quote (s : String) : List Char := quotation :: s.toList.flatMap escape ++ [quotation]

def Claim.render : Claim → List Char
  | .text value => quote value
  | .number value => (toString value).toList

def member (field : String × Claim) : List Char := quote field.1 ++ ':' :: field.2.render

def members : Claims → List Char
  | [] => []
  | [field] => member field
  | field :: next :: rest => member field ++ ',' :: members (next :: rest)

def stringify (claims : Claims) : List Char := '{' :: members claims ++ ['}']

/-! Tokens -/

def header : Claims := [("alg", .text "HS256"), ("typ", .text "JWT")]

structure Signed where
  secret : String
  claims : Claims
  deriving DecidableEq, Repr

/-- The token as it is sent; `hmac` is the signature of a text under a secret. -/
def Signed.text (hmac : String → List Char → List Char) (token : Signed) : List Char :=
  let input := base64url (utf8 (stringify header)) ++
    '.' :: base64url (utf8 (stringify token.claims))
  input ++ '.' :: hmac token.secret input

/-- `sign(payload, { secret, expiresIn })` at the second `iat`. -/
def sign (secret : String) (payload : Claims) (iat expiresIn : Int) : Signed :=
  ⟨secret, payload ++ [("iat", .number iat), ("exp", .number (iat + expiresIn))]⟩

def expired (now : Int) (claims : Claims) : Bool :=
  match get? claims "exp" with
  | some (.number exp) => decide (exp ≤ now)
  | _ => false

/-- `verify(token, { secret })`: the claims, unless the signature fails or time is up. -/
def verify (secret : String) (now : Int) (token : Signed) : Option Claims :=
  if token.secret = secret ∧ expired now token.claims = false then some token.claims else none

theorem verify_eq_some_iff {secret : String} {now : Int} {token : Signed} {claims : Claims} :
    verify secret now token = some claims ↔
      token.secret = secret ∧ expired now token.claims = false ∧ token.claims = claims := by
  unfold verify
  by_cases h : token.secret = secret ∧ expired now token.claims = false
  · rw [if_pos h]
    simp [h]
  · rw [if_neg h]
    simp only [reduceCtorEq, false_iff]
    exact fun all => h ⟨all.1, all.2.1⟩

/-! Tokens whose claims begin alike begin alike -/

theorem utf8_append (a b : List Char) : utf8 (a ++ b) = utf8 a ++ utf8 b := List.flatMap_append

theorem length_le_utf8 (text : List Char) : text.length ≤ (utf8 text).length := by
  induction text with
  | nil => exact Nat.le_refl 0
  | cons c rest ih =>
    have own : 0 < (String.utf8EncodeChar c).length := by
      rw [String.length_utf8EncodeChar]
      exact c.utf8Size_pos
    have split : (utf8 (c :: rest)).length = (String.utf8EncodeChar c).length + (utf8 rest).length := by
      simp [utf8]
    rw [split, List.length_cons]
    omega

theorem base64url_append {a : List UInt8} (whole : 3 ∣ a.length) (b : List UInt8) :
    base64url (a ++ b) = base64url a ++ base64url b := by
  induction a using base64url.induct with
  | case1 x y z rest ih =>
    have shorter : 3 ∣ rest.length := by
      simp only [List.length_cons] at whole
      omega
    simp only [List.cons_append, base64url, ih shorter]
  | case2 x y => simp at whole
  | case3 x => simp at whole
  | case4 => rfl

theorem length_base64url {a : List UInt8} (whole : 3 ∣ a.length) :
    (base64url a).length = a.length / 3 * 4 := by
  induction a using base64url.induct with
  | case1 x y z rest ih =>
    have shorter : 3 ∣ rest.length := by
      simp only [List.length_cons] at whole
      omega
    simp only [base64url, List.length_cons, ih shorter]
    omega
  | case2 x y => simp at whole
  | case3 x => simp at whole
  | case4 => rfl

theorem escape_ne_nil (c : Char) : 0 < (escape c).length := by
  unfold escape
  dsimp only
  split <;> simp
  split <;> simp

/-- Escaping never shortens. -/
theorem length_le_quote (s : String) : s.length + 2 ≤ (quote s).length := by
  have inner : ∀ text : List Char, text.length ≤ (text.flatMap escape).length := by
    intro text
    induction text with
    | nil => exact Nat.le_refl 0
    | cons c rest ih =>
      have own := escape_ne_nil c
      simp only [List.flatMap_cons, List.length_append, List.length_cons]
      omega
  have chars := inner s.toList
  simp only [quote, List.length_append, List.length_cons, List.length_nil]
  rw [String.length_toList] at chars
  omega

theorem members_cons_start (field : String × Claim) (rest : Claims) :
    member field <+: members (field :: rest) := by
  cases rest with
  | nil => exact List.prefix_refl _
  | cons next rest => exact List.prefix_append _ _

/-- A first claim of 41 characters or more fixes the first 93 characters of the token. -/
theorem text_start {field : String × Claim} (long : 41 ≤ (member field).length) :
    ∃ start : List Char, 93 ≤ start.length ∧ ∀ (hmac : String → List Char → List Char)
      (token : Signed), token.claims.head? = some field → start <+: token.text hmac := by
  let opening := (utf8 ('{' :: member field)).take 42
  have enough : 42 ≤ (utf8 ('{' :: member field)).length := by
    have chars := length_le_utf8 ('{' :: member field)
    rw [List.length_cons] at chars
    omega
  have whole : opening.length = 42 := by
    simp only [opening, List.length_take]
    omega
  have divides : 3 ∣ opening.length := by
    rw [whole]
    decide
  refine ⟨base64url (utf8 (stringify header)) ++ '.' :: base64url opening, ?_, ?_⟩
  · have front : (base64url (utf8 (stringify header))).length = 36 := by decide +kernel
    have back := length_base64url divides
    rw [whole] at back
    rw [List.length_append, List.length_cons]
    omega
  · intro hmac token first
    have split : ∃ rest, utf8 (stringify token.claims) = opening ++ rest := by
      cases fields : token.claims with
      | nil =>
        rw [fields] at first
        cases first
      | cons head tail =>
        rw [fields] at first
        cases first
        obtain ⟨tail', joined⟩ := members_cons_start field tail
        refine ⟨(utf8 ('{' :: member field)).drop 42 ++ utf8 (tail' ++ ['}']), ?_⟩
        have text : stringify (field :: tail) = ('{' :: member field) ++ (tail' ++ ['}']) := by
          rw [stringify, ← joined]
          simp
        rw [text, utf8_append, ← List.append_assoc, List.take_append_drop]
    obtain ⟨rest, bytes⟩ := split
    rw [Signed.text, bytes, base64url_append divides]
    simp only [List.append_assoc, List.cons_append]
    apply (List.prefix_append_right_inj _).mpr
    apply (List.prefix_cons_inj _).mpr
    exact List.prefix_append _ _

end Jwt
