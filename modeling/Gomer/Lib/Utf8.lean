import Mathlib.Data.List.Basic
import Mathlib.Tactic.Common

/-! UTF-8: texts as bytes, and bytes that may be anything as texts, as a browser or Node reads them. -/
namespace Utf8

def encodeChar (c : Char) : List Nat := (String.utf8EncodeChar c).map (·.toNat)

def encode (text : List Char) : List Nat := text.flatMap encodeChar

/-- What stands for bytes that are no character. -/
def replacement : Char := '\uFFFD'

/-- A character that is being read: the bytes that follow the next one, the bounds of the next one,
and the code point so far. -/
structure Pending where
  after : Nat
  lower : Nat
  upper : Nat
  point : Nat

/-- The first byte of a character. -/
def lead (b : Nat) : Char ⊕ Pending :=
  if b ≤ 0x7F then .inl (Char.ofNat b)
  else if 0xC2 ≤ b ∧ b ≤ 0xDF then .inr ⟨0, 0x80, 0xBF, b % 32⟩
  else if 0xE0 ≤ b ∧ b ≤ 0xEF then
    .inr ⟨1, if b = 0xE0 then 0xA0 else 0x80, if b = 0xED then 0x9F else 0xBF, b % 16⟩
  else if 0xF0 ≤ b ∧ b ≤ 0xF4 then
    .inr ⟨2, if b = 0xF0 then 0x90 else 0x80, if b = 0xF4 then 0x8F else 0xBF, b % 8⟩
  else .inl replacement

/-- A byte that does not go on with the character begins another one. -/
def decode : Option Pending → List Nat → List Char
  | none, [] => []
  | some _, [] => [replacement]
  | none, b :: rest =>
    match lead b with
    | .inl c => c :: decode none rest
    | .inr pending => decode (some pending) rest
  | some pending, b :: rest =>
    if pending.lower ≤ b ∧ b ≤ pending.upper then
      match pending.after with
      | 0 => Char.ofNat (pending.point * 64 + b % 64) :: decode none rest
      | after + 1 => decode (some ⟨after, 0x80, 0xBF, pending.point * 64 + b % 64⟩) rest
    else
      replacement ::
        match lead b with
        | .inl c => c :: decode none rest
        | .inr pending => decode (some pending) rest

theorem encodeChar_lt {c : Char} : ∀ b ∈ encodeChar c, b < 256 := by
  intro b member
  obtain ⟨byte, _, rfl⟩ := List.mem_map.mp member
  exact byte.toNat_lt

theorem encode_lt {text : List Char} : ∀ b ∈ encode text, b < 256 := by
  intro b member
  obtain ⟨c, _, own⟩ := List.mem_flatMap.mp member
  exact encodeChar_lt b own

theorem encode_ascii {text : List Char} (ascii : ∀ c ∈ text, c.toNat < 128) :
    encode text = text.map (·.toNat) := by
  induction text with
  | nil => rfl
  | cons c rest ih =>
    obtain ⟨first, others⟩ := List.forall_mem_cons.mp ascii
    have one : encodeChar c = [c.toNat] := by
      have small : c.val.toNat ≤ 0x7F := Nat.le_of_lt_succ first
      simp only [encodeChar, String.utf8EncodeChar, if_pos small, List.map_cons, List.map_nil,
        UInt8.toNat_ofNat']
      exact congrArg (fun n => [n]) (Nat.mod_eq_of_lt (Nat.lt_trans first (by decide)))
    change encodeChar c ++ encode rest = _
    rw [one, ih others, List.map_cons, List.singleton_append]

/-! Reading the bytes of one character -/

section
variable {a b c d : Nat} (rest : List Nat)

theorem decode_one (first : a ≤ 0x7F) : decode none (a :: rest) = Char.ofNat a :: decode none rest := by
  simp only [decode, lead, if_pos first]

theorem decode_last {lower upper point : Nat} (within : lower ≤ b ∧ b ≤ upper) :
    decode (some ⟨0, lower, upper, point⟩) (b :: rest) =
      Char.ofNat (point * 64 + b % 64) :: decode none rest := by
  simp only [decode, if_pos within]

theorem decode_next {after lower upper point : Nat} (within : lower ≤ b ∧ b ≤ upper) :
    decode (some ⟨after + 1, lower, upper, point⟩) (b :: rest) =
      decode (some ⟨after, 0x80, 0xBF, point * 64 + b % 64⟩) rest := by
  simp only [decode, if_pos within]

theorem decode_two (first : 0xC2 ≤ a ∧ a ≤ 0xDF) (second : 0x80 ≤ b ∧ b ≤ 0xBF) :
    decode none (a :: b :: rest) = Char.ofNat (a % 32 * 64 + b % 64) :: decode none rest := by
  have high : ¬ a ≤ 0x7F := by omega
  rw [decode, lead, if_neg high, if_pos first]
  exact decode_last rest second

theorem decode_three (first : 0xE0 ≤ a ∧ a ≤ 0xEF) (second : 0x80 ≤ b ∧ b ≤ 0xBF)
    (least : a = 0xE0 → 0xA0 ≤ b) (surrogate : a = 0xED → b ≤ 0x9F)
    (third : 0x80 ≤ c ∧ c ≤ 0xBF) : decode none (a :: b :: c :: rest) =
      Char.ofNat ((a % 16 * 64 + b % 64) * 64 + c % 64) :: decode none rest := by
  have high : ¬ a ≤ 0x7F := by omega
  have longer : ¬ (0xC2 ≤ a ∧ a ≤ 0xDF) := by omega
  have within : (if a = 0xE0 then 0xA0 else 0x80) ≤ b ∧ b ≤ if a = 0xED then 0x9F else 0xBF := by
    constructor <;> split <;> omega
  rw [decode, lead, if_neg high, if_neg longer, if_pos first]
  exact (decode_next _ within).trans (decode_last rest third)

theorem decode_four (first : 0xF0 ≤ a ∧ a ≤ 0xF4) (second : 0x80 ≤ b ∧ b ≤ 0xBF)
    (least : a = 0xF0 → 0x90 ≤ b) (most : a = 0xF4 → b ≤ 0x8F) (third : 0x80 ≤ c ∧ c ≤ 0xBF)
    (fourth : 0x80 ≤ d ∧ d ≤ 0xBF) : decode none (a :: b :: c :: d :: rest) =
      Char.ofNat (((a % 8 * 64 + b % 64) * 64 + c % 64) * 64 + d % 64) :: decode none rest := by
  have high : ¬ a ≤ 0x7F := by omega
  have longer : ¬ (0xC2 ≤ a ∧ a ≤ 0xDF) := by omega
  have longest : ¬ (0xE0 ≤ a ∧ a ≤ 0xEF) := by omega
  have within : (if a = 0xF0 then 0x90 else 0x80) ≤ b ∧ b ≤ if a = 0xF4 then 0x8F else 0xBF := by
    constructor <;> split <;> omega
  rw [decode, lead, if_neg high, if_neg longer, if_neg longest, if_pos first]
  exact ((decode_next _ within).trans (decode_next _ third)).trans (decode_last rest fourth)

end

/-- The bytes of a character are read as this character. -/
theorem decode_encodeChar (c : Char) (rest : List Nat) :
    decode none (encodeChar c ++ rest) = c :: decode none rest := by
  have valid : c.toNat < 0xD800 ∨ 0xDFFF < c.toNat ∧ c.toNat < 0x110000 := c.valid
  have whole : ∀ n, n = c.toNat → Char.ofNat n = c := by
    rintro n rfl
    exact Char.ofNat_toNat c
  have value : c.val.toNat = c.toNat := rfl
  generalize c.toNat = v at valid whole value
  unfold encodeChar String.utf8EncodeChar
  simp only [value]
  split
  · simp only [List.map_cons, List.map_nil, UInt8.toNat_ofNat', List.cons_append, List.nil_append]
    rw [decode_one _ (by omega), whole _ (by omega)]
  · split
    · simp only [List.map_cons, List.map_nil, UInt8.toNat_ofNat', List.cons_append, List.nil_append]
      rw [decode_two _ (by omega) (by omega), whole _ (by omega)]
    · split
      · simp only [List.map_cons, List.map_nil, UInt8.toNat_ofNat', List.cons_append, List.nil_append]
        rw [decode_three _ (by omega) (by omega) (by omega) (by omega) (by omega), whole _ (by omega)]
      · simp only [List.map_cons, List.map_nil, UInt8.toNat_ofNat', List.cons_append, List.nil_append]
        rw [decode_four _ (by omega) (by omega) (by omega) (by omega) (by omega) (by omega),
          whole _ (by omega)]

theorem decode_encode (text : List Char) : decode none (encode text) = text := by
  induction text with
  | nil => rfl
  | cons c rest ih =>
    have split : encode (c :: rest) = encodeChar c ++ encode rest := rfl
    rw [split, decode_encodeChar, ih]

end Utf8
