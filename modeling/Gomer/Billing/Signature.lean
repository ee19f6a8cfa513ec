import Gomer.Billing.Webhook
import Gomer.Lib.Http
import Gomer.Lib.Record
import Gomer.Lib.Render
import Gomer.Lib.Rounding

/-! `BillingService.verifySignature`: which deliveries of Stripe reach the handlers. The HMAC is any
function of the secret and the message. -/
namespace Gomer.WebhookSignature

open JsNumber

abbrev Bytes := List UInt8

def webhookToleranceSeconds : Int := 5 * 60

/-- The values under each key, in their order. -/
abbrev Parts := AList fun _ : List Char => List (List Char)

/-- What the loop does with one pair; of further equal signs the text behind them is dropped. -/
def addPair (parts : Parts) (pair : List Char) : Parts :=
  match pair.splitOn '=' with
  | key :: value :: _ =>
    if key = [] ∨ value = [] then parts
    else parts.insert (trim key) ((parts.lookup (trim key)).getD [] ++ [trim value])
  | _ => parts

/-- `Buffer.from(text, 'hex')` reads up to the first pair that is not of hex digits. -/
def fromHex : List Char → Bytes
  | a :: b :: rest =>
    match digit 16 a, digit 16 b with
    | some high, some low => UInt8.ofNat (16 * high + low) :: fromHex rest
    | _, _ => []
  | _ => []

/-- `clock` is in milliseconds; the difference is taken in doubles. -/
def fresh (clock : Int) (timestamp : Double) : Bool :=
  !(Double.finite webhookToleranceSeconds).lt ((nearest (clock / 1000)).add timestamp.neg).abs

inductive WebhookFailure where
  | http (e : HttpException)
  | syntaxError
  | handler (e : WebhookError)

section
variable (hmac : String → Bytes → Bytes) (secret : String) (clock : Int)

/-- Of the body the raw bytes are signed. -/
def signed (timestamp : Double) (rawBody : Bytes) : Bytes :=
  hmac secret (Jwt.utf8 (Json.numberText timestamp ++ ['.']) ++ rawBody)

def verifySignature (rawBody : Bytes) (header : Option String) : Except HttpException Unit :=
  if secret = "" then
    .error ⟨503, "Billing webhook is not configured (set STRIPE_WEBHOOK_SECRET)", []⟩
  else
    match nonEmpty header with
    | none => .error (.unauthorized "Missing Stripe signature")
    | some header =>
      let parts := (header.toList.splitOn ',').foldl addPair ∅
      let timestamp := (((parts.lookup ['t']).bind (·.head?)).map fun t =>
        number (String.ofList t)).getD .nan
      let signatures := (parts.lookup ['v', '1']).getD []
      if !timestamp.isFinite || signatures.isEmpty then
        .error (.unauthorized "Malformed Stripe signature")
      else if !fresh clock timestamp then
        .error (.unauthorized "Stripe signature timestamp out of tolerance")
      else
        let expected := signed hmac secret timestamp rawBody
        if signatures.any fun signature => fromHex signature == expected then .ok ()
        else .error (.unauthorized "Invalid Stripe signature")

/-- `parse` is `JSON.parse` of the body, with the event that is read from it. -/
def receiveWebhook (parse : Bytes → Option StripeEvent) (db : Database) (now : Instant)
    (seats : Uuid → Int) (rawBody : Option Bytes) (header : Option String) :
    Database × Except WebhookFailure Unit :=
  match rawBody with
  | none => (db, .error (.http (.badRequest "Missing request body")))
  | some raw =>
    match verifySignature hmac secret clock raw header with
    | .error e => (db, .error (.http e))
    | .ok () =>
      match parse raw with
      | none => (db, .error .syntaxError)
      | some event =>
        let handled := handleWebhook db now seats event
        (handled.1, handled.2.mapError .handler)

/-! What a header says -/

/-- A key before the first equal sign and a value up to the next one, neither of them empty, both
trimmed. -/
def readPair (pair : List Char) : Option (List Char × List Char) :=
  match pair.splitOn '=' with
  | key :: value :: _ => if key = [] ∨ value = [] then none else some (trim key, trim value)
  | _ => none

def pairs (header : List Char) : List (List Char × List Char) :=
  (header.splitOn ',').filterMap readPair

/-- The values under one key, in their order. -/
def valuesOf (header key : List Char) : List (List Char) :=
  ((pairs header).filter fun pair => pair.1 = key).map (·.2)

/-- The first timestamp is a number close to the clock, and some signature is the HMAC of that number
and the body. -/
def Genuine (rawBody : Bytes) (header : Option String) : Prop :=
  ∃ text, header = some text ∧
    ∃ t seconds, (valuesOf text.toList ['t']).head? = some t ∧
      number (String.ofList t) = .finite seconds ∧ fresh clock (.finite seconds) = true ∧
      ∃ signature ∈ valuesOf text.toList ['v', '1'],
        fromHex signature = signed hmac secret (.finite seconds) rawBody

theorem addPair_eq (parts : Parts) (pair : List Char) :
    addPair parts pair = (readPair pair).elim parts fun read =>
      parts.insert read.1 ((parts.lookup read.1).getD [] ++ [read.2]) := by
  unfold addPair readPair
  split
  · split
    · rfl
    · rfl
  · rfl

/-- The loop adds to each key the values of its pairs. -/
theorem lookup_foldl_addPair (raw : List (List Char)) (parts : Parts) (key : List Char) :
    ((raw.foldl addPair parts).lookup key).getD [] = (parts.lookup key).getD [] ++
      ((raw.filterMap readPair).filter fun pair => pair.1 = key).map (·.2) := by
  induction raw generalizing parts with
  | nil => simp
  | cons pair raw ih =>
    rw [List.foldl_cons, ih, addPair_eq]
    cases read : readPair pair with
    | none => rw [List.filterMap_cons_none read, Option.elim_none]
    | some field =>
      rw [List.filterMap_cons_some read, Option.elim_some]
      by_cases same : field.1 = key
      · rw [same, AList.lookup_insert, List.filter_cons_of_pos (by simpa using same), List.map_cons]
        simp
      · rw [AList.lookup_insert_ne (Ne.symm same), List.filter_cons_of_neg (by simpa using same)]

theorem lookup_parts (header key : List Char) :
    (((header.splitOn ',').foldl addPair ∅).lookup key).getD [] = valuesOf header key := by
  rw [lookup_foldl_addPair]
  rfl

/-- The timestamp that the check compares: of the first value, or no number. -/
def timestampOf (header : List Char) : Double :=
  ((valuesOf header ['t']).head?.map fun t => number (String.ofList t)).getD .nan

/-- The check by what the header says, where a secret is configured. -/
theorem verifySignature_some {rawBody : Bytes} {text : String} (configured : secret ≠ "")
    (filled : text ≠ "") :
    verifySignature hmac secret clock rawBody (some text) =
      (if !(timestampOf text.toList).isFinite || (valuesOf text.toList ['v', '1']).isEmpty then
        .error (.unauthorized "Malformed Stripe signature")
      else if !fresh clock (timestampOf text.toList) then
        .error (.unauthorized "Stripe signature timestamp out of tolerance")
      else if (valuesOf text.toList ['v', '1']).any fun signature =>
          fromHex signature == signed hmac secret (timestampOf text.toList) rawBody then .ok ()
      else .error (.unauthorized "Invalid Stripe signature")) := by
  have given : nonEmpty (some text) = some text := by simp [nonEmpty, filled]
  have first : ((((text.toList.splitOn ',').foldl addPair ∅).lookup ['t']).bind (·.head?)) =
      (valuesOf text.toList ['t']).head? := by
    rw [← lookup_parts]
    cases ((text.toList.splitOn ',').foldl addPair ∅).lookup ['t'] <;> rfl
  unfold verifySignature
  rw [if_neg configured, given]
  dsimp only
  rw [first, lookup_parts]
  rfl

theorem verifySignature_none {rawBody : Bytes} {header : Option String} (configured : secret ≠ "")
    (none : nonEmpty header = none) : verifySignature hmac secret clock rawBody header =
      .error (.unauthorized "Missing Stripe signature") := by
  unfold verifySignature
  rw [if_neg configured, none]

theorem timestampOf_finite {header : List Char} {seconds : ℚ} :
    timestampOf header = .finite seconds ↔
      ∃ t, (valuesOf header ['t']).head? = some t ∧ number (String.ofList t) = .finite seconds := by
  unfold timestampOf
  cases (valuesOf header ['t']).head? <;> simp

theorem genuine_some {rawBody : Bytes} {text : String} :
    Genuine hmac secret clock rawBody (some text) ↔
      ∃ seconds, timestampOf text.toList = .finite seconds ∧
        fresh clock (.finite seconds) = true ∧
        ((valuesOf text.toList ['v', '1']).any fun signature =>
          fromHex signature == signed hmac secret (.finite seconds) rawBody) = true := by
  constructor
  · rintro ⟨_, same, t, seconds, first, value, recent, signature, member, valid⟩
    cases same
    refine ⟨seconds, timestampOf_finite.mpr ⟨t, first, value⟩, recent, ?_⟩
    exact List.any_eq_true.mpr ⟨signature, member, beq_iff_eq.mpr valid⟩
  · rintro ⟨seconds, stamped, recent, found⟩
    obtain ⟨t, first, value⟩ := timestampOf_finite.mp stamped
    obtain ⟨signature, member, valid⟩ := List.any_eq_true.mp found
    exact ⟨text, rfl, t, seconds, first, value, recent, signature, member, eq_of_beq valid⟩

/-- A header without text has no timestamp. -/
theorem genuine_given {rawBody : Bytes} {header : Option String}
    (genuine : Genuine hmac secret clock rawBody header) : ∃ text, header = some text ∧ text ≠ "" := by
  obtain ⟨text, given, t, seconds, named, -⟩ := genuine
  refine ⟨text, given, ?_⟩
  rintro rfl
  cases named

theorem verifySignature_genuine {rawBody : Bytes} {header : Option String} (configured : secret ≠ "")
    (genuine : Genuine hmac secret clock rawBody header) :
    verifySignature hmac secret clock rawBody header = .ok () := by
  obtain ⟨text, rfl, filled⟩ := genuine_given hmac secret clock genuine
  obtain ⟨seconds, stamped, recent, found⟩ := (genuine_some hmac secret clock).mp genuine
  have listed : (valuesOf text.toList ['v', '1']).isEmpty = false := by
    cases values : valuesOf text.toList ['v', '1'] with
    | nil =>
      rw [values] at found
      cases found
    | cons signature rest => rfl
  rw [verifySignature_some hmac secret clock configured filled, stamped, listed, recent, found]
  rfl

theorem verifySignature_forged {rawBody : Bytes} {header : Option String} (configured : secret ≠ "")
    (forged : ¬ Genuine hmac secret clock rawBody header) : ∃ message,
      verifySignature hmac secret clock rawBody header = .error (.unauthorized message) := by
  cases given : nonEmpty header with
  | none => exact ⟨_, verifySignature_none hmac secret clock configured given⟩
  | some text =>
    obtain ⟨rfl, filled⟩ := nonEmpty_some given
    rw [verifySignature_some hmac secret clock configured filled]
    split
    · exact ⟨_, rfl⟩
    · rename_i formed
      split
      · exact ⟨_, rfl⟩
      · rename_i recent
        split
        · -- every check has passed, so the header is genuine
          rename_i found
          refine absurd ?_ forged
          cases stamped : timestampOf text.toList with
          | finite seconds =>
            rw [stamped] at recent found
            exact (genuine_some hmac secret clock).mpr ⟨seconds, stamped, by simpa using recent, found⟩
          | infinite negative => simp [stamped, Double.isFinite] at formed
          | nan => simp [stamped, Double.isFinite] at formed
        · exact ⟨_, rfl⟩

/-- A delivery is accepted exactly where its header is genuine; any other ends with an error of the
client, and no event is handled. -/
theorem webhook_accepts_iff (parse : Bytes → Option StripeEvent) (db : Database) (now : Instant)
    (seats : Uuid → Int) (rawBody : Bytes) (header : Option String) (configured : secret ≠ "") :
    (verifySignature hmac secret clock rawBody header = .ok () ↔
        Genuine hmac secret clock rawBody header) ∧
      (¬ Genuine hmac secret clock rawBody header → ∃ e, 400 ≤ e.status ∧ e.status < 500 ∧
        receiveWebhook hmac secret clock parse db now seats (some rawBody) header =
          (db, .error (.http e))) := by
  by_cases genuine : Genuine hmac secret clock rawBody header
  · have accepted := verifySignature_genuine hmac secret clock configured genuine
    exact ⟨⟨fun _ => genuine, fun _ => accepted⟩, fun forged => absurd genuine forged⟩
  · obtain ⟨message, refused⟩ := verifySignature_forged hmac secret clock configured genuine
    refine ⟨⟨fun accepted => ?_, fun honest => absurd honest genuine⟩, fun _ => ?_⟩
    · rw [refused] at accepted
      cases accepted
    · refine ⟨.unauthorized message, (by decide : 400 ≤ 401), (by decide : 401 < 500), ?_⟩
      simp only [receiveWebhook, refused]

end

/-! The distance from the clock, in doubles -/

section
variable {clock seconds : Int} {v w : ℚ}

theorem fresh_doubles (now : nearest (clock / 1000) = .finite v)
    (difference : nearest (v + -seconds) = .finite w) :
    fresh clock (.finite seconds) = true ↔ |w| ≤ 300 := by
  simp [fresh, now, Double.neg, Double.add, difference, Double.abs, Double.lt, webhookToleranceSeconds]

theorem thousandth (clock seconds : Int) :
    |(clock : ℚ) / 1000 - seconds| = ((|clock - 1000 * seconds| : ℤ) : ℚ) / 1000 := by
  have same : (clock : ℚ) / 1000 - seconds = ((clock - 1000 * seconds : ℤ) : ℚ) / 1000 := by
    push_cast
    ring
  rw [same, abs_div, abs_of_pos (by norm_num : (0 : ℚ) < 1000), Int.cast_abs]

/-- The clock in seconds and the difference are each rounded once. -/
theorem elapsed_close (date : |clock| ≤ 2 ^ 43) (small : |seconds| ≤ 2 ^ 43) :
    ∃ v w : ℚ, nearest (clock / 1000) = .finite v ∧ nearest (v + -seconds) = .finite w ∧
      |(|w| - |(clock : ℚ) / 1000 - seconds|)| ≤
        1 / 2 ^ 17 + |(clock : ℚ) / 1000 - seconds| / 2 ^ 52 := by
  have dateQ : |(clock : ℚ)| ≤ 2 ^ 43 := by exact_mod_cast date
  have smallQ : |(seconds : ℚ)| ≤ 2 ^ 43 := by exact_mod_cast small
  have scaled : |(clock : ℚ) / 1000| ≤ 2 ^ 43 / 1000 := by
    rw [abs_div, abs_of_pos (by norm_num : (0 : ℚ) < 1000)]
    gcongr
  obtain ⟨v, now, offNow⟩ := nearest_close scaled (by norm_num) (by norm_num)
  have apart : |v + -seconds| ≤ 2 ^ 44 := by
    have first := abs_le.mp scaled
    have second := abs_le.mp offNow
    have third := abs_le.mp smallQ
    exact abs_le.mpr ⟨by linarith, by linarith⟩
  have bounded : |v + -seconds| < 2 ^ (1023 : ℤ) := by
    refine apart.trans_lt ?_
    rw [← zpow_natCast]
    exact zpow_lt_zpow_right₀ one_lt_two (by norm_num)
  obtain ⟨w, difference, offDifference⟩ := nearest_error bounded
  have tiny : (2 : ℚ) ^ (-1075 : ℤ) ≤ 2 ^ (-53 : ℤ) := zpow_le_zpow_right₀ one_le_two (by norm_num)
  have unit : (2 : ℚ) ^ (-53 : ℤ) = 1 / 2 ^ 53 := by norm_num
  rw [unit] at tiny offDifference
  have distance : |(|v + -seconds| - |(clock : ℚ) / 1000 - seconds|)| ≤ 1 / 2 ^ 18 := by
    have same : v + -seconds - ((clock : ℚ) / 1000 - seconds) = v - clock / 1000 := by ring
    refine (abs_abs_sub_abs_le _ _).trans ?_
    rw [same]
    linarith
  have rounding : |(|w| - |v + -seconds|)| ≤ |v + -seconds| * (1 / 2 ^ 53) + 1 / 2 ^ 53 :=
    (abs_abs_sub_abs_le _ _).trans (by linarith)
  refine ⟨v, w, now, difference, ?_⟩
  have first := abs_le.mp distance
  have second := abs_le.mp rounding
  exact abs_le.mpr ⟨by linarith, by linarith⟩

/-- At the limit the clock is a whole second too, so nothing is rounded. -/
theorem elapsed_limit (small : |seconds| ≤ 2 ^ 43) (limit : |clock - 1000 * seconds| = 300000)
    (now : nearest (clock / 1000) = .finite v) (difference : nearest (v + -seconds) = .finite w) :
    |w| = 300 := by
  obtain ⟨whole, gap, size⟩ : ∃ whole : ℤ, clock = 1000 * whole ∧ |whole - seconds| = 300 := by
    obtain after | before := (abs_eq (by norm_num)).mp limit
    · exact ⟨seconds + 300, by omega, by rw [add_sub_cancel_left]; rfl⟩
    · exact ⟨seconds - 300, by omega, by rw [sub_sub_cancel_left]; rfl⟩
  have bits : |whole| < 2 ^ 53 ∧ |whole - seconds| < 2 ^ 53 := by
    have second := abs_le.mp small
    have gaps := abs_le.mp size.le
    exact ⟨abs_lt.mpr ⟨by omega, by omega⟩, by omega⟩
  have exact_ : v = whole := by
    have same : (clock : ℚ) / 1000 = (whole : ℚ) := by
      rw [gap]
      push_cast
      ring
    rw [same, nearest_intCast bits.1] at now
    exact (Double.finite.inj now).symm
  have moved : w = ((whole - seconds : ℤ) : ℚ) := by
    have same : v + -seconds = ((whole - seconds : ℤ) : ℚ) := by
      rw [exact_]
      push_cast
      ring
    rw [same, nearest_intCast bits.2] at difference
    exact (Double.finite.inj difference).symm
  rw [moved, ← Int.cast_abs, size]
  norm_num

/-- Of a whole number of seconds the distance is exact. -/
theorem fresh_iff (date : |clock| ≤ 2 ^ 43) (small : |seconds| ≤ 2 ^ 43) :
    fresh clock (.finite seconds) = true ↔ |clock - 1000 * seconds| ≤ 300000 := by
  obtain ⟨v, w, now, difference, close⟩ := elapsed_close date small
  rw [fresh_doubles now difference]
  rw [thousandth] at close
  have between := abs_le.mp close
  obtain near | limit | far : |clock - 1000 * seconds| ≤ 299999 ∨ |clock - 1000 * seconds| = 300000 ∨
      300001 ≤ |clock - 1000 * seconds| := by omega
  · have below : ((|clock - 1000 * seconds| : ℤ) : ℚ) ≤ 299999 := by exact_mod_cast near
    exact iff_of_true (by linarith) (by omega)
  · exact iff_of_true (elapsed_limit small limit now difference).le limit.le
  · have above : (300001 : ℚ) ≤ ((|clock - 1000 * seconds| : ℤ) : ℚ) := by exact_mod_cast far
    exact iff_of_false (by linarith) (by omega)

end

/-! Headers as they are written -/

/-- A pair with all that is behind its first equal sign. -/
def wholePairs (header : List Char) : List (List Char × List Char) :=
  (header.splitOn ',').filterMap fun pair =>
    match pair.dropWhile (· != '=') with
    | [] => none
    | _ :: value => some (trim (pair.takeWhile (· != '=')), trim value)

def writtenValues (header key : List Char) : List (List Char) :=
  ((wholePairs header).filter fun pair => pair.1 = key).map (·.2)

/-- The timestamp is signed as it is written. -/
def SignedAsWritten (hmac : String → Bytes → Bytes) (secret : String) (clock : Int) (rawBody : Bytes)
    (header : Option String) : Prop :=
  ∃ text, header = some text ∧
    ∃ t seconds, (writtenValues text.toList ['t']).head? = some t ∧
      number (String.ofList t) = .finite seconds ∧ |clock / 1000 - seconds| ≤ webhookToleranceSeconds ∧
      ∃ signature ∈ writtenValues text.toList ['v', '1'],
        fromHex signature = hmac secret (Jwt.utf8 (t ++ ['.']) ++ rawBody)

/-- The first 32 bytes of the message. -/
def echo (_ : String) (message : Bytes) : Bytes := (message ++ List.replicate 32 0).take 32

/-- An empty body, with a timestamp that has a fraction. -/
def fractional : String :=
  "t=1700000000.0,v1=313730303030303030302e302e00000000000000000000000000000000000000"

/-- The same, with a timestamp that ends in a second equal sign. -/
def trailing : String :=
  "t=1700000000=x,v1=313730303030303030302e000000000000000000000000000000000000000000"

/-- One header is signed as it is written and refused, the other is not and is accepted. -/
theorem written_headers :
    (SignedAsWritten echo "whsec" 1700000000000 [] (some fractional) ∧
        (verifySignature echo "whsec" 1700000000000 [] (some fractional)).toOption = none) ∧
      ¬ SignedAsWritten echo "whsec" 1700000000000 [] (some trailing) ∧
        (verifySignature echo "whsec" 1700000000000 [] (some trailing)).toOption = some () := by
  refine ⟨⟨⟨fractional, rfl, "1700000000.0".toList, 1700000000, ?_⟩, by decide +kernel⟩, ?_,
    by decide +kernel⟩
  · have signature : (writtenValues fractional.toList ['v', '1']).map fromHex =
        [echo "whsec" (Jwt.utf8 ("1700000000.0".toList ++ ['.']) ++ [])] := by decide +kernel
    refine ⟨by decide +kernel, by decide +kernel, by decide +kernel, ?_⟩
    exact List.mem_map.mp (signature ▸ List.mem_singleton_self _)
  · rintro ⟨text, same, t, seconds, first, value, -⟩
    cases same
    have junk : (writtenValues trailing.toList ['t']).head? = some "1700000000=x".toList := by
      decide +kernel
    rw [junk] at first
    cases first
    have nan : number (String.ofList "1700000000=x".toList) = .nan := by decide +kernel
    rw [nan] at value
    cases value

/-- The header that Stripe sends for an empty body under this function. -/
def ordinary : String :=
  "t=1700000000,v1=313730303030303030302e000000000000000000000000000000000000000000"

theorem ordinary_header :
    (verifySignature echo "whsec" 1700000000000 [] (some ordinary) = .ok () ↔
        Genuine echo "whsec" 1700000000000 [] (some ordinary)) ∧
      (¬ Genuine echo "whsec" 1700000000000 [] (some ordinary) → ∃ e, 400 ≤ e.status ∧ e.status < 500 ∧
        receiveWebhook echo "whsec" 1700000000000 (fun _ => none) .empty 0 (fun _ => 1)
          (some []) (some ordinary) = (.empty, .error (.http e))) :=
  webhook_accepts_iff echo "whsec" 1700000000000 (fun _ => none) .empty 0 (fun _ => 1) []
    (some ordinary) (by decide)

end Gomer.WebhookSignature
