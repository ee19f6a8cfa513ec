import Gomer.Lib.FormUrlencoded

/-! `redactUrl`, and what the request log and the exception filter write of a URL: no value of a
credential parameter is in it. -/
namespace Gomer.Logging

open FormUrlencoded Occurrence

def sensitiveQueryParams : List (List Char) :=
  ["token".toList, "code".toList, "state".toList, "access_token".toList, "secret".toList]

def mask : List Char := "[redacted]".toList

/-- The mask as `URLSearchParams` writes it. -/
def encodedMask : List Char := "%5Bredacted%5D".toList

def path (url : List Char) : List Char := url.takeWhile (· ≠ '?')

/-- What follows the first `?`, read as a list of parameters. -/
def query (url : List Char) : List Param := parse ((url.dropWhile (· ≠ '?')).drop 1)

section
variable (toLowerCase : List Char → List Char)

def sensitive (key : List Char) : Bool := sensitiveQueryParams.contains (toLowerCase key)

/-- The loop over the keys, which are read before the first of them is written. -/
def redactKeys : List (List Char) → List Param × Bool → List Param × Bool
  | [], s => s
  | key :: keys, (params, redacted) =>
    if sensitive toLowerCase key then redactKeys keys (set key mask params, true)
    else redactKeys keys (params, redacted)

def redactUrl (url : List Char) : List Char :=
  if '?' ∈ url then
    let params := query url
    let (masked, redacted) := redactKeys toLowerCase (params.map Prod.fst) (params, false)
    if redacted then path url ++ '?' :: replaceAll encodedMask mask (serialize masked) else url
  else url

/-- The line of `LoggingInterceptor`. -/
def requestLine (method url ms : List Char) : List Char :=
  method ++ ' ' :: redactUrl toLowerCase url ++ ' ' :: ms ++ ['m', 's']

/-- The line of `AllExceptionsFilter`; the `path` of its body is the redacted URL as well. -/
def failureLine (method url status : List Char) : List Char :=
  method ++ ' ' :: redactUrl toLowerCase url ++ [' ', '-', '>', ' '] ++ status

end

/-! What the loop leaves -/

section
variable {toLowerCase : List Char → List Char}

theorem redactKeys_flag (keys : List (List Char)) (params : List Param) (redacted : Bool) :
    (redactKeys toLowerCase keys (params, redacted)).2 =
      (redacted || keys.any (sensitive toLowerCase)) := by
  induction keys generalizing params redacted with
  | nil => simp [redactKeys]
  | cons key keys ih =>
    by_cases secret : sensitive toLowerCase key = true <;> simp [redactKeys, secret, ih]

/-- What every writing of a credential keeps, the loop keeps. -/
theorem redactKeys_invariant {P : List Param → Prop} (keys : List (List Char))
    (step : ∀ key ∈ keys, sensitive toLowerCase key = true → ∀ params, P params →
      P (set key mask params))
    {params : List Param} (initial : P params) (redacted : Bool) :
    P (redactKeys toLowerCase keys (params, redacted)).1 := by
  induction keys generalizing params redacted with
  | nil => exact initial
  | cons key keys ih =>
    have later := fun other member => step other (List.mem_cons_of_mem key member)
    by_cases secret : sensitive toLowerCase key = true
    · rw [redactKeys, if_pos secret]
      exact ih later (step key List.mem_cons_self secret params initial) true
    · rw [redactKeys, if_neg secret]
      exact ih later initial redacted

/-- A parameter that is written once, with the mask. -/
def Masked (params : List Param) (key : List Char) : Prop :=
  params.filter (·.1 = key) = [(key, mask)]

theorem Masked.set {params : List Param} {key : List Char} (masked : Masked params key)
    (other : List Char) : Masked (set other mask params) key := by
  by_cases same : key = other
  · exact same ▸ filter_set_name params
  · exact (filter_set (fun _ => by simpa using fun h => same h.symm) params).trans masked

theorem redactKeys_masked {keys : List (List Char)} {key : List Char} (member : key ∈ keys)
    (secret : sensitive toLowerCase key = true) (params : List Param) (redacted : Bool) :
    Masked (redactKeys toLowerCase keys (params, redacted)).1 key := by
  induction keys generalizing params redacted with
  | nil => cases member
  | cons first keys ih =>
    rcases List.mem_cons.mp member with rfl | later
    · rw [redactKeys, if_pos secret]
      exact redactKeys_invariant (P := fun now => Masked now key) keys
        (fun other _ _ _ once => Masked.set once other) (filter_set_name params) true
    · rw [redactKeys]
      split
      · exact ih later _ _
      · exact ih later _ _

/-- The parameters that carry no credential. -/
def others (toLowerCase : List Char → List Char) (params : List Param) : List Param :=
  params.filter fun param => !sensitive toLowerCase param.1

def masked (toLowerCase : List Char → List Char) (params : List Param) : List Param :=
  (redactKeys toLowerCase (params.map Prod.fst) (params, false)).1

theorem masked_others (params : List Param) :
    others toLowerCase (masked toLowerCase params) = others toLowerCase params := by
  refine redactKeys_invariant (P := fun now => others toLowerCase now = others toLowerCase params)
    _ (fun key _ secret now same => ?_) rfl false
  exact (filter_set (fun _ => by simp [secret]) now).trans same

theorem names_masked {params : List Param} {key : List Char}
    (member : key ∈ (masked toLowerCase params).map Prod.fst) : key ∈ params.map Prod.fst := by
  refine redactKeys_invariant
    (P := fun now => ∀ key ∈ now.map Prod.fst, key ∈ params.map Prod.fst) _
    (fun key listed _ now within other member => ?_) (fun _ member => member) false key member
  rcases mem_names_set member with rfl | earlier
  · exact listed
  · exact within other earlier

theorem masked_of_mem {params : List Param} {key : List Char} (member : key ∈ params.map Prod.fst)
    (secret : sensitive toLowerCase key = true) : Masked (masked toLowerCase params) key :=
  redactKeys_masked member secret params false

theorem value_of_masked {params : List Param} {param : Param} (once : Masked params param.1)
    (member : param ∈ params) : param.2 = mask := by
  have listed : param ∈ params.filter (·.1 = param.1) := List.mem_filter.mpr ⟨member, by simp⟩
  rw [once, List.mem_singleton] at listed
  exact congrArg Prod.snd listed

/-- What is masked is left as it is. -/
theorem masked_masked (params : List Param) :
    masked toLowerCase (masked toLowerCase params) = masked toLowerCase params := by
  refine redactKeys_invariant (P := fun now => now = masked toLowerCase params) _
    (fun key listed secret now same => ?_) rfl false
  subst same
  exact set_of_filter (masked_of_mem (names_masked listed) secret)

/-! Two lists that differ in credentials only -/

/-- Equal but for the value, and that only where the name is one of a credential. -/
def Alike (toLowerCase : List Char → List Char) (a b : Param) : Prop :=
  a.1 = b.1 ∧ (sensitive toLowerCase a.1 = true ∨ a.2 = b.2)

theorem redactKeys_alike {as bs : List Param} (related : List.Forall₂ (Alike toLowerCase) as bs)
    (keys : List (List Char)) (redacted : Bool) : List.Forall₂ (Alike toLowerCase)
      (redactKeys toLowerCase keys (as, redacted)).1
      (redactKeys toLowerCase keys (bs, redacted)).1 := by
  induction keys generalizing as bs redacted with
  | nil => exact related
  | cons key keys ih =>
    by_cases secret : sensitive toLowerCase key = true
    · simp only [redactKeys, if_pos secret]
      exact ih (forall₂_set (fun _ _ alike => alike.1) ⟨rfl, .inr rfl⟩ related) true
    · simp only [redactKeys, if_neg secret]
      exact ih related redacted

theorem names_alike {as bs : List Param} (related : List.Forall₂ (Alike toLowerCase) as bs) :
    as.map Prod.fst = bs.map Prod.fst :=
  Paired.map_eq_map related fun _ _ alike => alike.1

/-- Where every credential has the mask for its value, nothing is left to differ. -/
theorem eq_of_alike {as bs : List Param} (related : List.Forall₂ (Alike toLowerCase) as bs)
    (left : ∀ a ∈ as, sensitive toLowerCase a.1 = true → a.2 = mask)
    (right : ∀ b ∈ bs, sensitive toLowerCase b.1 = true → b.2 = mask) : as = bs := by
  induction related with
  | nil => rfl
  | @cons a b as bs here _ ih =>
    rw [List.forall_mem_cons] at left right
    have values : a.2 = b.2 := by
      rcases here.2 with secret | same
      · rw [left.1 secret, right.1 (here.1 ▸ secret)]
      · exact same
    rw [Prod.ext here.1 values, ih left.2 right.2]

theorem value_masked (params : List Param) :
    ∀ param ∈ masked toLowerCase params, sensitive toLowerCase param.1 = true → param.2 = mask := by
  intro param member secret
  have listed := names_masked (List.mem_map_of_mem member)
  exact value_of_masked (masked_of_mem listed secret) member

theorem masked_alike {as bs : List Param} (related : List.Forall₂ (Alike toLowerCase) as bs) :
    masked toLowerCase as = masked toLowerCase bs := by
  have after : List.Forall₂ (Alike toLowerCase) (masked toLowerCase as) (masked toLowerCase bs) := by
    rw [masked, masked, ← names_alike related]
    exact redactKeys_alike related _ false
  exact eq_of_alike after (value_masked as) (value_masked bs)

/-! The mask in the clear -/

theorem mask_codes : ∀ n ∈ (encodedMask ++ mask).map (·.toNat),
    n < 128 ∧ n ≠ 38 ∧ n ≠ 61 ∧ n ≠ 63 ∧ n ≠ 43 ∧ n ≠ 32 := by decide +kernel

theorem encodedMask_escaped : Escaped encodedMask mask where
  escape := ⟨"5Bredacted%5D".toList, by decide +kernel⟩
  plain := ⟨'[', "redacted]".toList, by decide +kernel, by decide⟩
  separate c member := by
    obtain ⟨ascii, amp, eq, query, plus, space⟩ := mask_codes c.toNat (List.mem_map_of_mem member)
    exact ⟨ascii, fun same => amp (same ▸ rfl), fun same => eq (same ▸ rfl),
      fun same => query (same ▸ rfl), fun same => plus (same ▸ rfl), fun same => space (same ▸ rfl)⟩
  same := by
    refine ⟨mask.map (·.toNat), fun rest => ?_, fun rest => ?_⟩
    · rfl
    · rfl

/-! The URL -/

theorem path_append {start : List Char} (plain : '?' ∉ start) (rest : List Char) :
    path (start ++ '?' :: rest) = start := by
  have kept : ∀ c ∈ start, decide (c ≠ '?') = true := fun c member =>
    decide_eq_true fun same => plain (same ▸ member)
  rw [path, List.takeWhile_append_of_pos kept]
  simp

theorem query_append {start : List Char} (plain : '?' ∉ start) (rest : List Char) :
    query (start ++ '?' :: rest) = parse rest := by
  have kept : ∀ c ∈ start, decide (c ≠ '?') = true := fun c member =>
    decide_eq_true fun same => plain (same ▸ member)
  rw [query, List.dropWhile_append_of_pos kept]
  simp

theorem not_mem_path (url : List Char) : '?' ∉ path url := fun member => by
  simpa using List.mem_takeWhile_imp member

theorem query_of_plain {url : List Char} (plain : '?' ∉ url) : query url = [] := by
  have none_left : url.dropWhile (· ≠ '?') = [] := List.dropWhile_eq_nil_iff.mpr fun c member =>
    decide_eq_true fun same => plain (same ▸ member)
  rw [query, none_left]
  rfl

/-- Some parameter carries a credential. -/
def Credential (toLowerCase : List Char → List Char) (params : List Param) : Prop :=
  ∃ param ∈ params, sensitive toLowerCase param.1 = true

theorem flag_iff (params : List Param) :
    (redactKeys toLowerCase (params.map Prod.fst) (params, false)).2 = true ↔
      Credential toLowerCase params := by
  rw [redactKeys_flag, Bool.false_or, List.any_map, List.any_eq_true]
  rfl

theorem redactUrl_credential {url : List Char} (secret : Credential toLowerCase (query url)) :
    redactUrl toLowerCase url = path url ++ '?' ::
      replaceAll encodedMask mask (serialize (masked toLowerCase (query url))) := by
  have asked : '?' ∈ url := by
    by_contra plain
    obtain ⟨param, member, _⟩ := secret
    rw [query_of_plain plain] at member
    cases member
  rw [redactUrl, if_pos asked]
  exact if_pos ((flag_iff _).mpr secret)

theorem redactUrl_plain {url : List Char} (plain : ¬ Credential toLowerCase (query url)) :
    redactUrl toLowerCase url = url := by
  rw [redactUrl]
  split
  · exact if_neg fun flag => plain ((flag_iff _).mp flag)
  · rfl

theorem path_redactUrl (url : List Char) : path (redactUrl toLowerCase url) = path url := by
  by_cases secret : Credential toLowerCase (query url)
  · rw [redactUrl_credential secret, path_append (not_mem_path url)]
  · rw [redactUrl_plain secret]

theorem query_redactUrl {url : List Char} (secret : Credential toLowerCase (query url)) :
    query (redactUrl toLowerCase url) = masked toLowerCase (query url) := by
  rw [redactUrl_credential secret, query_append (not_mem_path url)]
  exact parse_replaceAll_serialize encodedMask_escaped _

theorem credential_masked {params : List Param} (secret : Credential toLowerCase params) :
    Credential toLowerCase (masked toLowerCase params) := by
  obtain ⟨param, member, named⟩ := secret
  have once := masked_of_mem (List.mem_map_of_mem member) named
  have listed : (param.1, mask) ∈ (masked toLowerCase params).filter (·.1 = param.1) := by
    rw [once]
    exact List.mem_singleton_self _
  exact ⟨_, (List.mem_filter.mp listed).1, named⟩

theorem redactUrl_redactUrl (url : List Char) :
    redactUrl toLowerCase (redactUrl toLowerCase url) = redactUrl toLowerCase url := by
  by_cases secret : Credential toLowerCase (query url)
  · have again : Credential toLowerCase (query (redactUrl toLowerCase url)) := by
      rw [query_redactUrl secret]
      exact credential_masked secret
    rw [redactUrl_credential again, query_redactUrl secret, masked_masked, path_redactUrl,
      ← redactUrl_credential secret]
  · rw [redactUrl_plain secret, redactUrl_plain secret]

theorem redactUrl_alike {url other : List Char} (same : path url = path other)
    (related : List.Forall₂ (Alike toLowerCase) (query url) (query other))
    (secret : Credential toLowerCase (query url)) :
    redactUrl toLowerCase url = redactUrl toLowerCase other := by
  have named : ∀ a b, Alike toLowerCase a b →
      (sensitive toLowerCase a.1 = true ↔ sensitive toLowerCase b.1 = true) :=
    fun a b alike => by rw [alike.1]
  have secret' : Credential toLowerCase (query other) :=
    (Paired.exists_iff related named).mp secret
  rw [redactUrl_credential secret, redactUrl_credential secret', same, masked_alike related]

theorem others_redactUrl (url : List Char) :
    others toLowerCase (query (redactUrl toLowerCase url)) = others toLowerCase (query url) := by
  by_cases secret : Credential toLowerCase (query url)
  · rw [query_redactUrl secret, masked_others]
  · rw [redactUrl_plain secret]

/-- Neither line shows a credential: URLs that differ in credentials only are logged alike. -/
theorem lines_alike {url other : List Char} (same : path url = path other)
    (related : List.Forall₂ (Alike toLowerCase) (query url) (query other))
    (secret : Credential toLowerCase (query url)) (method text : List Char) :
    requestLine toLowerCase method url text = requestLine toLowerCase method other text ∧
      failureLine toLowerCase method url text = failureLine toLowerCase method other text := by
  rw [requestLine, requestLine, failureLine, failureLine, redactUrl_alike same related secret]
  exact ⟨rfl, rfl⟩

/-- URLs that differ in credentials only are shown alike; the path and the other parameters are
kept; what is redacted is not changed again. -/
theorem redactUrl_sound (toLowerCase : List Char → List Char) (url : List Char) :
    (∀ other, path url = path other →
      List.Forall₂ (Alike toLowerCase) (query url) (query other) →
      Credential toLowerCase (query url) →
      redactUrl toLowerCase url = redactUrl toLowerCase other) ∧
    path (redactUrl toLowerCase url) = path url ∧
    others toLowerCase (query (redactUrl toLowerCase url)) = others toLowerCase (query url) ∧
    redactUrl toLowerCase (redactUrl toLowerCase url) = redactUrl toLowerCase url :=
  ⟨fun _ same related secret => redactUrl_alike same related secret, path_redactUrl url,
    others_redactUrl url, redactUrl_redactUrl url⟩

theorem callback_redacted :
    redactUrl (List.map Char.toLower) "/callback?Code=AQD123&days=7".toList =
      redactUrl (List.map Char.toLower) "/callback?Code=%5Bredacted]&days=7".toList :=
  (redactUrl_sound (List.map Char.toLower) "/callback?Code=AQD123&days=7".toList).1
    "/callback?Code=%5Bredacted]&days=7".toList (by decide +kernel)
    (.cons ⟨by decide +kernel, .inl (by decide +kernel)⟩
      (.cons ⟨by decide +kernel, .inr (by decide +kernel)⟩ .nil))
    ⟨_, List.mem_cons_self, by decide +kernel⟩

example : redactUrl (List.map Char.toLower) "/callback?code=AQD123&days=7".toList =
    "/callback?code=[redacted]&days=7".toList := by decide +kernel

end

end Gomer.Logging
