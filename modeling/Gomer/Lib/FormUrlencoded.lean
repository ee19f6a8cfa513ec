import Gomer.Lib.Occurrence
import Gomer.Lib.Paired
import Gomer.Lib.Utf8
import Mathlib.Data.List.TakeWhile

/-! `URLSearchParams`: query strings as lists of names with values (`application/x-www-form-urlencoded`),
and a percent-encoded piece of text put back in the clear. -/
namespace FormUrlencoded

open Occurrence

/-- A name and its value. -/
abbrev Param := List Char × List Char

/-! Bytes of a query string -/

def hexValue (b : Nat) : Option Nat :=
  if 48 ≤ b ∧ b ≤ 57 then some (b - 48)
  else if 65 ≤ b ∧ b ≤ 70 then some (b - 55)
  else if 97 ≤ b ∧ b ≤ 102 then some (b - 87)
  else none

/-- A `%` that no two hexadecimal digits follow stands for itself. -/
def percentDecode : List Nat → List Nat
  | 37 :: h :: l :: rest =>
    match hexValue h, hexValue l with
    | some high, some low => (16 * high + low) :: percentDecode rest
    | _, _ => 37 :: percentDecode (h :: l :: rest)
  | b :: rest => b :: percentDecode rest
  | [] => []

def plusToSpace (b : Nat) : Nat := if b = 43 then 32 else b

/-- The text that a part of a query string stands for. -/
def decodeComponent (bytes : List Nat) : List Char :=
  Utf8.decode none (percentDecode (bytes.map plusToSpace))

def decodeSequence (bytes : List Nat) : Param :=
  (decodeComponent (bytes.takeWhile (· ≠ 61)), decodeComponent ((bytes.dropWhile (· ≠ 61)).drop 1))

/-- `new URLSearchParams(text)` -/
def parse (text : List Char) : List Param :=
  let query := match text with
    | '?' :: rest => rest
    | _ => text
  (((Utf8.encode query).splitOn 38).filter (· ≠ [])).map decodeSequence

def hexDigit (n : Nat) : Char := Char.ofNat (if n < 10 then 48 + n else 55 + n)

/-- Letters, digits and `*-._` are left as they are. -/
def unreserved (b : Nat) : Bool :=
  decide (48 ≤ b ∧ b ≤ 57) || decide (65 ≤ b ∧ b ≤ 90) || decide (97 ≤ b ∧ b ≤ 122) ||
    [42, 45, 46, 95].contains b

def encodeByte (b : Nat) : List Char :=
  if b = 32 then ['+']
  else if unreserved b then [Char.ofNat b]
  else ['%', hexDigit (b / 16), hexDigit (b % 16)]

def encodeComponent (text : List Char) : List Char := (Utf8.encode text).flatMap encodeByte

/-- `params.toString()` -/
def serialize (params : List Param) : List Char :=
  ['&'].intercalate (params.map fun param =>
    encodeComponent param.1 ++ '=' :: encodeComponent param.2)

/-- `params.set(name, value)`: over the first entry of the name, and the others go. -/
def set (name value : List Char) : List Param → List Param
  | [] => [(name, value)]
  | param :: rest =>
    if param.1 = name then (name, value) :: rest.filter fun other => other.1 ≠ name
    else param :: set name value rest

/-! What is written is read back -/

theorem hexValue_hexDigit : ∀ n < 16, hexValue (hexDigit n).toNat = some n := by decide

theorem plusToSpace_hexDigit : ∀ n < 16, plusToSpace (hexDigit n).toNat = (hexDigit n).toNat := by
  decide

/-- Two hexadecimal digits, and what follows them. -/
def pair? : List Nat → Option (Nat × List Nat)
  | h :: l :: rest =>
    (hexValue h).bind fun high => (hexValue l).map fun low => (16 * high + low, rest)
  | _ => none

theorem percentDecode_cons {b : Nat} (other : b ≠ 37) (rest : List Nat) :
    percentDecode (b :: rest) = b :: percentDecode rest := by
  rw [percentDecode.eq_def]
  split
  · rename_i same
    exact absurd (List.cons.inj same).1 other
  · rename_i same
    cases same
    rfl
  · rename_i same
    cases same

theorem pair_length {text : List Nat} {x : Nat × List Nat} (found : pair? text = some x) :
    x.2.length < text.length := by
  match text with
  | [] => cases found
  | [h] => cases found
  | h :: l :: rest =>
    obtain ⟨high, _, found⟩ := Option.bind_eq_some_iff.mp found
    obtain ⟨low, _, rfl⟩ := Option.map_eq_some_iff.mp found
    simp only [List.length_cons]
    omega

theorem percentDecode_percent (rest : List Nat) : percentDecode (37 :: rest) =
    match pair? rest with
    | some (b, later) => b :: percentDecode later
    | none => 37 :: percentDecode rest := by
  match rest with
  | [] => rfl
  | [h] => rfl
  | h :: l :: later =>
    rw [percentDecode, pair?]
    cases hexValue h with
    | none => rfl
    | some high => cases hexValue l <;> rfl

/-! A piece that an escape begins may be put in the clear -/

section
variable {part put : List Nat} {first : Nat} {tail : List Nat}

theorem not_prefix {b : Nat} {rest : List Nat} (escape : part = 37 :: tail) (other : b ≠ 37) :
    ¬ part <+: b :: rest := by
  rw [escape, List.cons_prefix_cons]
  exact fun starts => other starts.1.symm

theorem head_of_prefix {b : Nat} {rest : List Nat} (escape : part = 37 :: tail)
    (starts : part <+: b :: rest) : b = 37 := by
  by_contra other
  exact not_prefix escape other starts

/-- No piece begins inside of an escape, and none is put there. -/
theorem pair_replaceAll {clear : List Nat} (escape : part = 37 :: tail) (plain : put = first :: clear)
    (digit : hexValue first = none) (text : List Nat) :
    pair? (replaceAll part put text) =
      (pair? text).map fun x => (x.1, replaceAll part put x.2) := by
  have nonempty : part ≠ [] := by simp [escape]
  have percent : hexValue 37 = none := by decide
  match text with
  | [] => rfl
  | h :: rest =>
    by_cases starts : part <+: h :: rest
    · obtain rfl := head_of_prefix escape starts
      obtain ⟨later, same⟩ := starts
      rw [← same, replaceAll_part nonempty, same, plain, List.cons_append]
      generalize clear ++ replaceAll part (first :: clear) later = left
      cases left <;> cases rest <;> simp [pair?, digit, percent]
    · rw [replaceAll_cons starts]
      match rest with
      | [] => rfl
      | l :: rest =>
        by_cases starts : part <+: l :: rest
        · obtain rfl := head_of_prefix escape starts
          obtain ⟨later, same⟩ := starts
          rw [← same, replaceAll_part nonempty, same, plain, List.cons_append]
          simp [pair?, digit, percent]
        · rw [replaceAll_cons starts]
          cases high : hexValue h <;> cases low : hexValue l <;> simp [pair?, high, low]

theorem percentDecode_replaceAll {clear read : List Nat} (escape : part = 37 :: tail)
    (plain : put = first :: clear) (digit : hexValue first = none)
    (encoded : ∀ rest, percentDecode (part ++ rest) = read ++ percentDecode rest)
    (decoded : ∀ rest, percentDecode (put ++ rest) = read ++ percentDecode rest)
    (text : List Nat) : percentDecode (replaceAll part put text) = percentDecode text := by
  have nonempty : part ≠ [] := by simp [escape]
  -- An escape is read two bytes further on, so the induction is on the length.
  induction size : text.length using Nat.strong_induction_on generalizing text with
  | _ n ih =>
    match text with
    | [] => rfl
    | b :: rest =>
      by_cases starts : part <+: b :: rest
      · obtain ⟨later, same⟩ := starts
        have shorter : later.length < n := by
          rw [← size, ← same, List.length_append, escape, List.length_cons]
          omega
        rw [← same, replaceAll_part nonempty, encoded, decoded, ih _ shorter later rfl]
      · rw [replaceAll_cons starts]
        have shorter : rest.length < n := by
          rw [← size, List.length_cons]
          omega
        by_cases percent : b = 37
        · subst percent
          rw [percentDecode_percent, percentDecode_percent, pair_replaceAll escape plain digit]
          cases found : pair? rest with
          | none => rw [Option.map_none, ih _ shorter rest rfl]
          | some x =>
            obtain ⟨byte, later⟩ := x
            have short := Nat.lt_trans (pair_length found) shorter
            simp only [Option.map_some]
            rw [ih _ short later rfl]
        · rw [percentDecode_cons percent, percentDecode_cons percent, ih _ shorter rest rfl]

end

/-! Components -/

/-- `written` is free of separators and stands for `text`. -/
structure Writes (written text : List Char) : Prop where
  ascii : ∀ c ∈ written, c.toNat < 128
  separate : ∀ c ∈ written, c ≠ '&' ∧ c ≠ '=' ∧ c ≠ '?'
  read : decodeComponent (written.map (·.toNat)) = text

theorem encodeByte_cases : ∀ b < 256, (encodeByte b = ['+'] ∧ b = 32) ∨
    (encodeByte b = [Char.ofNat b] ∧ (Char.ofNat b).toNat = b ∧ b ≠ 37 ∧ b ≠ 43) ∨
    encodeByte b = ['%', hexDigit (b / 16), hexDigit (b % 16)] := by
  decide +kernel

theorem encodeByte_codes : ∀ b < 256, ∀ n ∈ (encodeByte b).map (·.toNat),
    n < 128 ∧ n ≠ 38 ∧ n ≠ 61 ∧ n ≠ 63 := by
  decide +kernel

theorem encodeByte_plain {b : Nat} (small : b < 256) {c : Char} (member : c ∈ encodeByte b) :
    c.toNat < 128 ∧ c ≠ '&' ∧ c ≠ '=' ∧ c ≠ '?' := by
  obtain ⟨ascii, amp, eq, query⟩ := encodeByte_codes b small c.toNat (List.mem_map_of_mem member)
  exact ⟨ascii, fun same => amp (same ▸ rfl), fun same => eq (same ▸ rfl),
    fun same => query (same ▸ rfl)⟩

theorem percentDecode_encodeByte {b : Nat} (small : b < 256) (rest : List Nat) :
    percentDecode (((encodeByte b).map (·.toNat)).map plusToSpace ++ rest) =
      b :: percentDecode rest := by
  obtain ⟨written, rfl⟩ | ⟨written, same, percent, plus⟩ | written := encodeByte_cases b small
  · rw [written]
    exact percentDecode_cons (by decide) rest
  · rw [written]
    simp only [List.map_cons, List.map_nil, same, plusToSpace, if_neg plus, List.cons_append,
      List.nil_append]
    exact percentDecode_cons percent rest
  · rw [written]
    have high := hexValue_hexDigit (b / 16) (by omega)
    have low := hexValue_hexDigit (b % 16) (by omega)
    simp only [List.map_cons, List.map_nil, plusToSpace_hexDigit (b / 16) (by omega),
      plusToSpace_hexDigit (b % 16) (by omega), List.cons_append, List.nil_append]
    have whole : 16 * (b / 16) + b % 16 = b := by omega
    refine (percentDecode_percent _).trans ?_
    simp only [pair?, high, low, Option.bind_some, Option.map_some, whole]

theorem percentDecode_encodeBytes {bytes : List Nat} (small : ∀ b ∈ bytes, b < 256) :
    percentDecode (((bytes.flatMap encodeByte).map (·.toNat)).map plusToSpace) = bytes := by
  induction bytes with
  | nil => rfl
  | cons b rest ih =>
    obtain ⟨first, others⟩ := List.forall_mem_cons.mp small
    rw [List.flatMap_cons, List.map_append, List.map_append, percentDecode_encodeByte first,
      ih others]

theorem writes_encodeComponent (text : List Char) : Writes (encodeComponent text) text := by
  have plain : ∀ c ∈ encodeComponent text, c.toNat < 128 ∧ c ≠ '&' ∧ c ≠ '=' ∧ c ≠ '?' := by
    intro c member
    obtain ⟨b, listed, own⟩ := List.mem_flatMap.mp member
    exact encodeByte_plain (Utf8.encode_lt b listed) own
  refine ⟨fun c member => (plain c member).1, fun c member => (plain c member).2, ?_⟩
  rw [decodeComponent, encodeComponent, percentDecode_encodeBytes Utf8.encode_lt,
    Utf8.decode_encode]

/-! The whole query string -/

def joined (written : List Param) : List Char :=
  ['&'].intercalate (written.map fun param => param.1 ++ '=' :: param.2)

theorem toNat_ne {c d : Char} (other : c ≠ d) : c.toNat ≠ d.toNat := fun same =>
  other (Char.toNat_inj.mp same)

theorem decodeSequence_written {written param : Param} (name : Writes written.1 param.1)
    (value : Writes written.2 param.2) :
    decodeSequence ((written.1 ++ '=' :: written.2).map (·.toNat)) = param := by
  have before : ∀ b ∈ written.1.map (·.toNat), decide (b ≠ 61) = true := by
    intro b member
    obtain ⟨c, listed, rfl⟩ := List.mem_map.mp member
    exact decide_eq_true (toNat_ne (name.separate c listed).2.1)
  rw [List.map_append, List.map_cons, decodeSequence, List.takeWhile_append_of_pos before,
    List.dropWhile_append_of_pos before]
  refine Prod.ext ?_ value.read
  rw [List.takeWhile_cons_of_neg (by decide), List.append_nil]
  exact name.read

theorem map_intercalate {α β : Type*} (f : α → β) (sep : List α) (lists : List (List α)) :
    (sep.intercalate lists).map f = (sep.map f).intercalate (lists.map (List.map f)) := by
  induction lists with
  | nil => rfl
  | cons first rest ih =>
    cases rest with
    | nil => simp
    | cons second rest =>
      rw [List.intercalate_cons_cons, List.map_append, List.map_append, ih]
      simp [List.intercalate_cons_cons]

theorem mem_intercalate {α : Type*} {sep : List α} {lists : List (List α)} {x : α}
    (member : x ∈ sep.intercalate lists) : x ∈ sep ∨ ∃ list ∈ lists, x ∈ list := by
  induction lists with
  | nil => cases member
  | cons first rest ih =>
    cases rest with
    | nil =>
      rw [List.intercalate_singleton] at member
      exact .inr ⟨first, List.mem_cons_self, member⟩
    | cons second rest =>
      rw [List.intercalate_cons_cons, List.append_assoc, List.mem_append, List.mem_append] at member
      obtain own | between | later := member
      · exact .inr ⟨first, List.mem_cons_self, own⟩
      · exact .inl between
      · exact (ih later).imp_right fun ⟨list, listed, own⟩ =>
          ⟨list, List.mem_cons_of_mem _ listed, own⟩

theorem parse_plain {text : List Char} (ascii : ∀ c ∈ text, c.toNat < 128) (plain : '?' ∉ text) :
    parse text = (((text.map (·.toNat)).splitOn 38).filter (· ≠ [])).map decodeSequence := by
  rw [← Utf8.encode_ascii ascii]
  unfold parse
  split
  · exact absurd List.mem_cons_self plain
  · rfl

/-- A query string whose components stand for those of the entries is read as these entries. -/
theorem parse_joined {written params : List Param}
    (each : List.Forall₂ (fun w p : Param => Writes w.1 p.1 ∧ Writes w.2 p.2) written params) :
    parse (joined written) = params := by
  have plain : ∀ w ∈ written, ∀ c ∈ w.1 ++ '=' :: w.2, c.toNat < 128 ∧ c ≠ '?' ∧ c ≠ '&' := by
    intro w member c own
    obtain ⟨p, _, name, value⟩ := Paired.exists_right each member
    obtain first | rfl | second := by simpa using own
    · exact ⟨name.ascii c first, (name.separate c first).2.2, (name.separate c first).1⟩
    · decide
    · exact ⟨value.ascii c second, (value.separate c second).2.2, (value.separate c second).1⟩
  have whole : ∀ c ∈ joined written, c.toNat < 128 ∧ c ≠ '?' := by
    intro c member
    obtain between | ⟨_, listed, own⟩ := mem_intercalate member
    · obtain rfl := List.mem_singleton.mp between
      decide
    · obtain ⟨w, member, rfl⟩ := List.mem_map.mp listed
      exact ⟨(plain w member c own).1, (plain w member c own).2.1⟩
  rw [parse_plain (fun c member => (whole c member).1) fun member => (whole _ member).2 rfl, joined,
    map_intercalate, List.map_map]
  have sequences : ∀ sequence ∈ written.map (List.map (·.toNat) ∘ fun w => w.1 ++ '=' :: w.2),
      38 ∉ sequence ∧ sequence ≠ [] := by
    intro sequence listed
    obtain ⟨w, member, rfl⟩ := List.mem_map.mp listed
    refine ⟨fun separator => ?_, by simp⟩
    obtain ⟨c, own, same⟩ := List.mem_map.mp separator
    exact toNat_ne (plain w member c own).2.2 same
  have read : (written.map (List.map (·.toNat) ∘ fun w => w.1 ++ '=' :: w.2)).map decodeSequence =
      params := by
    rw [List.map_map, ← List.map_id params]
    exact Paired.map_eq_map each fun w param writes => decodeSequence_written writes.1 writes.2
  cases written with
  | nil =>
    cases each
    rfl
  | cons w rest =>
    have split := List.splitOn_intercalate 38 (fun l member => (sequences l member).1) (by simp)
    have all := List.filter_eq_self.mpr fun l member => decide_eq_true (sequences l member).2
    exact (congrArg (fun l => (l.filter (· ≠ [])).map decodeSequence) split).trans
      ((congrArg (List.map decodeSequence) all).trans read)

theorem serialize_eq (params : List Param) : serialize params =
    joined (params.map fun param => (encodeComponent param.1, encodeComponent param.2)) := by
  rw [serialize, joined, List.map_map]
  rfl

/-- What is written is read back entry for entry. -/
theorem parse_serialize (params : List Param) : parse (serialize params) = params := by
  rw [serialize_eq]
  apply parse_joined
  induction params with
  | nil => exact .nil
  | cons param rest ih => exact .cons ⟨writes_encodeComponent _, writes_encodeComponent _⟩ ih

/-! Pieces put in the clear -/

/-- A piece of a query string that begins with an escape, and what it stands for. -/
structure Escaped (part put : List Char) : Prop where
  escape : ∃ tail, part = '%' :: tail
  plain : ∃ first rest, put = first :: rest ∧ hexValue first.toNat = none
  separate : ∀ c ∈ part ++ put, c.toNat < 128 ∧ c ≠ '&' ∧ c ≠ '=' ∧ c ≠ '?' ∧ c ≠ '+' ∧ c ≠ ' '
  same : ∃ bytes, (∀ rest, percentDecode (part.map (·.toNat) ++ rest) = bytes ++ percentDecode rest) ∧
    ∀ rest, percentDecode (put.map (·.toNat) ++ rest) = bytes ++ percentDecode rest

theorem Escaped.nonempty {part put : List Char} (piece : Escaped part put) : part ≠ [] := by
  obtain ⟨tail, rfl⟩ := piece.escape
  simp

theorem map_plusToSpace {text : List Char} (plain : ∀ c ∈ text, c ≠ '+') :
    (text.map (·.toNat)).map plusToSpace = text.map (·.toNat) := by
  rw [List.map_map]
  exact List.map_congr_left fun c member => if_neg (toNat_ne (plain c member))

theorem Escaped.decodeComponent {part put : List Char} (piece : Escaped part put)
    (written : List Char) : decodeComponent ((replaceAll part put written).map (·.toNat)) =
      decodeComponent (written.map (·.toNat)) := by
  have nonempty := piece.nonempty
  have nonempty' : part.map (·.toNat) ≠ [] := by simpa using nonempty
  have clear : ∀ c ∈ part ++ put, c ≠ '+' := fun c member => (piece.separate c member).2.2.2.2.1
  have faithful : ∀ x, ∀ p ∈ part.map (·.toNat), plusToSpace x = plusToSpace p → x = p := by
    intro x p member same
    obtain ⟨c, listed, rfl⟩ := List.mem_map.mp member
    have own := piece.separate c (List.mem_append_left _ listed)
    have plus : c.toNat ≠ 43 := toNat_ne own.2.2.2.2.1
    have space : c.toNat ≠ 32 := toNat_ne own.2.2.2.2.2
    simp only [plusToSpace, if_neg plus] at same
    split at same
    · exact absurd same.symm space
    · exact same
  obtain ⟨tail, escape⟩ := piece.escape
  obtain ⟨first, rest, plain, digit⟩ := piece.plain
  obtain ⟨bytes, encoded, decoded⟩ := piece.same
  have start : part.map (·.toNat) = 37 :: tail.map (·.toNat) := by rw [escape]; rfl
  have opening : put.map (·.toNat) = first.toNat :: rest.map (·.toNat) := by rw [plain]; rfl
  have read := percentDecode_replaceAll start opening digit encoded decoded
    ((written.map (·.toNat)).map plusToSpace)
  have recoded : (replaceAll part put written).map (·.toNat) =
      replaceAll (part.map (·.toNat)) (put.map (·.toNat)) (written.map (·.toNat)) :=
    replaceAll_map Char.toNat nonempty (fun x p _ same => Char.toNat_inj.mp same) written
  have spaced : (replaceAll (part.map (·.toNat)) (put.map (·.toNat))
      (written.map (·.toNat))).map plusToSpace = replaceAll ((part.map (·.toNat)).map plusToSpace)
        ((put.map (·.toNat)).map plusToSpace) ((written.map (·.toNat)).map plusToSpace) :=
    replaceAll_map plusToSpace nonempty' faithful (written.map (·.toNat))
  rw [map_plusToSpace fun c member => clear c (List.mem_append_left _ member),
    map_plusToSpace fun c member => clear c (List.mem_append_right _ member)] at spaced
  simp only [FormUrlencoded.decodeComponent]
  rw [← read, ← spaced, ← recoded]

theorem Writes.replaceAll {part put written text : List Char} (piece : Escaped part put)
    (writes : Writes written text) : Writes (replaceAll part put written) text where
  ascii c member := by
    obtain new | old := mem_replaceAll piece.nonempty member
    · exact (piece.separate c (List.mem_append_right _ new)).1
    · exact writes.ascii c old
  separate c member := by
    obtain new | old := mem_replaceAll piece.nonempty member
    · obtain ⟨_, amp, eq, query, _⟩ := piece.separate c (List.mem_append_right _ new)
      exact ⟨amp, eq, query⟩
    · exact writes.separate c old
  read := (piece.decodeComponent written).trans writes.read

theorem joined_cons_cons (first second : Param) (rest : List Param) :
    joined (first :: second :: rest) =
      (first.1 ++ '=' :: first.2) ++ '&' :: joined (second :: rest) := by
  simp [joined, List.intercalate_cons_cons]

theorem replaceAll_joined {part put : List Char} (piece : Escaped part put) (written : List Param) :
    replaceAll part put (joined written) =
      joined (written.map fun w => (replaceAll part put w.1, replaceAll part put w.2)) := by
  have amp : '&' ∉ part := fun member =>
    (piece.separate _ (List.mem_append_left _ member)).2.1 rfl
  have eq : '=' ∉ part := fun member =>
    (piece.separate _ (List.mem_append_left _ member)).2.2.1 rfl
  induction written with
  | nil => rfl
  | cons first rest ih =>
    cases rest with
    | nil =>
      simp only [joined, List.map_cons, List.map_nil, List.intercalate_singleton]
      exact replaceAll_separated piece.nonempty eq first.1 first.2
    | cons second rest =>
      rw [joined_cons_cons, replaceAll_separated piece.nonempty amp, ih,
        replaceAll_separated piece.nonempty eq]
      simp only [List.map_cons, joined_cons_cons]

/-- Putting a piece in the clear does not change what is read. -/
theorem parse_replaceAll_serialize {part put : List Char} (piece : Escaped part put)
    (params : List Param) : parse (replaceAll part put (serialize params)) = params := by
  rw [serialize_eq, replaceAll_joined piece, List.map_map]
  refine parse_joined (List.forall₂_map_left_iff.mpr ?_)
  exact List.forall₂_same.mpr fun param _ =>
    ⟨(writes_encodeComponent param.1).replaceAll piece,
      (writes_encodeComponent param.2).replaceAll piece⟩

/-! `set` writes one name and leaves the others alone -/

section
variable {name value : List Char}

theorem filter_set {keeps : Param → Bool} (leaves : ∀ text, keeps (name, text) = false)
    (params : List Param) : (set name value params).filter keeps = params.filter keeps := by
  induction params with
  | nil => simp [set, leaves]
  | cons param rest ih =>
    by_cases same : param.1 = name
    · have gone : keeps param = false := by
        obtain ⟨own, text⟩ := param
        obtain rfl := same
        exact leaves text
      have kept : (rest.filter fun other => other.1 ≠ name).filter keeps = rest.filter keeps := by
        rw [List.filter_filter]
        refine List.filter_congr fun other _ => ?_
        by_cases named : other.1 = name
        · obtain ⟨own, text⟩ := other
          obtain rfl := named
          simp [leaves]
        · simp [named]
      rw [set, if_pos same, List.filter_cons_of_neg (by simp [leaves]), kept,
        List.filter_cons_of_neg (by simp [gone])]
    · simp only [set, if_neg same, List.filter_cons, ih]

theorem filter_set_name (params : List Param) :
    (set name value params).filter (·.1 = name) = [(name, value)] := by
  induction params with
  | nil => simp [set]
  | cons param rest ih =>
    by_cases same : param.1 = name
    · simp [set, same, List.filter_filter]
    · simp [set, same, ih]

/-- A name that is written once, with the value already, is left as it is. -/
theorem set_of_filter {params : List Param}
    (once : params.filter (·.1 = name) = [(name, value)]) : set name value params = params := by
  induction params with
  | nil => cases once
  | cons param rest ih =>
    by_cases same : param.1 = name
    · simp only [List.filter_cons, same, decide_true, if_true, List.cons.injEq] at once
      have others : (rest.filter fun other => other.1 ≠ name) = rest :=
        List.filter_eq_self.mpr fun other member => by
          simpa using List.filter_eq_nil_iff.mp once.2 other member
      rw [set, if_pos same, others, once.1]
    · simp only [List.filter_cons, same, decide_false, Bool.false_eq_true, if_false] at once
      rw [set, if_neg same, ih once]

theorem mem_names_set {params : List Param} {other : List Char}
    (member : other ∈ (set name value params).map Prod.fst) :
    other = name ∨ other ∈ params.map Prod.fst := by
  induction params with
  | nil => exact .inl (by simpa [set] using member)
  | cons param rest ih =>
    by_cases same : param.1 = name
    · rw [set, if_pos same, List.map_cons, List.mem_cons] at member
      refine member.imp_right fun later => List.mem_map.mpr ?_
      obtain ⟨entry, inside, named⟩ := List.mem_map.mp later
      exact ⟨entry, List.mem_cons_of_mem _ (List.mem_filter.mp inside).1, named⟩
    · rw [set, if_neg same, List.map_cons, List.mem_cons] at member
      rcases member with rfl | later
      · exact .inr List.mem_cons_self
      · exact (ih later).imp_right (List.mem_cons_of_mem _)

/-- Two lists that are related entry by entry, by a relation that says the names are equal, stay so. -/
theorem forall₂_set {R : Param → Param → Prop} {params others : List Param}
    (named : ∀ a b, R a b → a.1 = b.1) (written : R (name, value) (name, value))
    (related : List.Forall₂ R params others) :
    List.Forall₂ R (set name value params) (set name value others) := by
  induction related with
  | nil => exact .cons written .nil
  | @cons a b as bs here later ih =>
    have same := named a b here
    by_cases own : a.1 = name
    · rw [set, set, if_pos own, if_pos (same ▸ own)]
      refine .cons written ?_
      clear ih
      induction later with
      | nil => exact .nil
      | @cons c d cs ds here _ ih =>
        have alike := named c d here
        by_cases removed : c.1 = name
        · rw [List.filter_cons_of_neg (by simpa using removed),
            List.filter_cons_of_neg (by simpa [← alike] using removed)]
          exact ih
        · rw [List.filter_cons_of_pos (by simpa using removed),
            List.filter_cons_of_pos (by simpa [← alike] using removed)]
          exact .cons here ih
    · rw [set, set, if_neg own, if_neg (same ▸ own)]
      exact .cons here ih

end

end FormUrlencoded
