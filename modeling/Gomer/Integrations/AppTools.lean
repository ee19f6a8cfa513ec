import Gomer.Lib.JsonText
import Gomer.Lib.Paired
import Gomer.Lib.TextCache

/-! `IntegrationsService.listAppTools`: the actions of an app, fetched from Pipedream page by page
and cached in Redis for as long as an outage may last. -/
namespace Gomer.Integrations.AppTools

open JsNumber (Double)
open Trace

structure AppTool where
  key : String
  name : String
  description : Option String
  deriving DecidableEq

/-! The pages of Pipedream -/

structure ActionPage where
  data : List AppTool
  hasNextPage : Bool
  endCursor : Option String

def maxToolPages : Nat := 20

/-- The pages that are left to walk, from a cursor. -/
def walkPages (list : Option String → Except String ActionPage) :
    Nat → Option String → Except String (List AppTool)
  | 0, _ => .ok []
  | n + 1, after => do
    let page ← list after
    if !page.hasNextPage then .ok page.data
    else
      match nonEmpty page.endCursor with
      | none => .ok page.data
      | some cursor => do
        let rest ← walkPages list n (some cursor)
        .ok (page.data ++ rest)

/-- `PipedreamService.listAppTools` -/
def listActions (list : Option String → Except String ActionPage) : Except String (List AppTool) :=
  walkPages list maxToolPages none

/-! The tools for Meta Ads, which are ours -/

/-- The names and descriptions of `META_ADS_TOOLS`. -/
def metaAdsCatalogue : List (String × String) :=
  [("meta_ads_list_ad_accounts",
      "List the Meta (Facebook/Instagram) ad accounts the connected account can access. " ++
      "Returns each account id (e.g. \"act_123\"), name, currency, and status. Call this " ++
      "first to discover the ad_account_id needed by the other Meta Ads tools. Returns " ++
      "JSON."),
    ("meta_ads_get_insights",
      "Get Meta Ads performance insights (spend, impressions, clicks, CTR, reach, " ++
      "conversions, etc.) for an ad account, at the account/campaign/ad set/ad level, over " ++
      "a preset or custom date range. Use for questions like \"last 7 days performance for " ++
      "KIVOVA\". Returns JSON rows."),
    ("meta_ads_list_campaigns",
      "List campaigns in a Meta ad account with their id, name, status (ACTIVE/PAUSED/…), " ++
      "objective, and budgets. Use for \"what campaigns are running/paused?\". Returns JSON."),
    ("meta_ads_create_campaign",
      "Create a new Meta Ads campaign. It is ALWAYS created PAUSED — it will not spend " ++
      "until you separately activate it (meta_ads_update_campaign with status ACTIVE), " ++
      "which also needs confirmation. Confirm the name, objective, and budget with the " ++
      "user before calling. Returns the new campaign id."),
    ("meta_ads_update_campaign",
      "Update a campaign: rename, change daily budget, or set status. Setting status to " ++
      "ACTIVE starts delivery and spends money — always confirm with the user first. " ++
      "Confirm any change before calling."),
    ("meta_ads_delete_campaign",
      "Permanently delete a campaign. This is irreversible — always confirm the exact " ++
      "campaign with the user before calling."),
    ("meta_ads_duplicate_campaign",
      "Duplicate an existing campaign. With deep_copy true the campaign and all its ad " ++
      "sets and ads are cloned; otherwise just the campaign shell. The copy is created " ++
      "PAUSED so it never starts spending on its own — the user activates it separately. " ++
      "Confirm the source campaign before calling."),
    ("meta_ads_list_ad_sets",
      "List the ad sets under a campaign, with status, optimization goal, budget, and " ++
      "targeting. Returns JSON."),
    ("meta_ads_create_ad_set",
      "Create an ad set (audience, budget, schedule) under a campaign. Always created " ++
      "PAUSED. Pick optimization_goal/billing_event to match the campaign objective (e.g. " ++
      "Traffic → optimization_goal LINK_CLICKS, billing_event IMPRESSIONS). Build " ++
      "targeting per Meta’s spec; resolve interests to ids with meta_ads_search_interests " ++
      "first. Confirm details with the user."),
    ("meta_ads_update_ad_set",
      "Update an ad set: rename, change daily budget, or set status. ACTIVE starts " ++
      "spending — confirm with the user first."),
    ("meta_ads_delete_ad_set",
      "Permanently delete an ad set. Irreversible — confirm the exact ad set first."),
    ("meta_ads_duplicate_ad_set",
      "Duplicate an ad set, optionally into a different campaign (campaign_id) and " ++
      "optionally cloning its ads (deep_copy). The copy is created PAUSED. Confirm the " ++
      "source ad set first."),
    ("meta_ads_list_ads",
      "List the ads under an ad set, with status and creative. Returns JSON."),
    ("meta_ads_create_ad_creative",
      "Create a link ad creative from a Facebook Page. Requires a page_id — get one from " ++
      "meta_ads_list_pages; if the account has no Page, tell the user to connect one (ads " ++
      "cannot run without it). Confirm the creative with the user before calling. Returns " ++
      "the creative id."),
    ("meta_ads_create_ad",
      "Create an ad (PAUSED) that links an ad set to a creative. Build the creative first " ++
      "with meta_ads_create_ad_creative. Confirm with the user before calling. Returns the " ++
      "ad id."),
    ("meta_ads_update_ad",
      "Update an ad: rename or set status. ACTIVE starts delivery/spend — confirm with the " ++
      "user first."),
    ("meta_ads_delete_ad",
      "Permanently delete an ad. Irreversible — confirm the exact ad first."),
    ("meta_ads_duplicate_ad",
      "Duplicate an ad, optionally into a different ad set (ad_set_id). The copy is " ++
      "created PAUSED. Confirm the source ad first."),
    ("meta_ads_list_pages",
      "List the Facebook Pages the connected account can run ads as (needed for ad " ++
      "creatives). Returns JSON; an empty list means no Page is connected."),
    ("meta_ads_search_interests",
      "Search Meta interest targeting options by keyword (e.g. \"furniture\"), returning ids " ++
      "to use in an ad set targeting spec. Returns JSON.")]

/-- `replace(/^meta_ads_/, '')` and `replace(/_/g, ' ')`; the names are ASCII. -/
def humanizeToolName (name : String) : String :=
  let plain := (name.toList.dropPrefix? "meta_ads_".toList).getD name.toList
  match JsNumber.trim (plain.map fun c => if c = '_' then ' ' else c) with
  | [] => ""
  | first :: rest => String.ofList (first.toUpper :: rest)

def metaAdsTools : List AppTool :=
  metaAdsCatalogue.map fun tool => ⟨tool.1, humanizeToolName tool.1, some tool.2⟩

example : humanizeToolName "meta_ads_list_ad_accounts" = "List ad accounts" := by decide

/-! What is cached -/

def toolsCacheKey (appSlug : String) : String := "pd:tools:" ++ appSlug

/-- A day, in ms. -/
def toolsCacheFresh : Nat := 86400000

/-- Seven days, in ms. -/
def toolsCacheTtl : Nat := 604800000

/-- The last time of a `Date`. -/
def lastTime : Nat := 8640000000000000

def appToolJson (tool : AppTool) : Json :=
  .obj ([("key", .str tool.key), ("name", .str tool.name)] ++
    (tool.description.map fun description => ("description", Json.str description)).toList)

def text : Json → Option String
  | .str value => some value
  | _ => none

/-- `as AppTool`, which checks nothing; a value of another shape is not cached. -/
def castAppTool (json : Json) : Option AppTool := do
  let key ← (json.get? "key").bind text
  let name ← (json.get? "name").bind text
  some ⟨key, name, (json.get? "description").bind text⟩

def castAppTools : Json → Option (List AppTool)
  | .arr items => Paired.readAll castAppTool items
  | _ => none

def fetchedAt : Json → Option Double
  | .num value => some value
  | _ => none

structure CachedTools where
  tools : List AppTool
  fetchedAt : Double

/-- An entry that is missing, does not parse or has other fields is `null`. -/
def readCachedTools (raw : Option String) : Option CachedTools := do
  let raw ← nonEmpty raw
  let parsed ← Json.parse raw
  let tools ← (parsed.get? "tools").bind castAppTools
  let fetchedAt ← (parsed.get? "fetchedAt").bind fetchedAt
  some ⟨tools, fetchedAt⟩

def cachedJson (now : Nat) (tools : List AppTool) : Json :=
  .obj [("tools", .arr (tools.map appToolJson)), ("fetchedAt", .num (.finite now))]

/-- What `writeCachedTools` sets at the time `now`. -/
def cachedText (now : Nat) (tools : List AppTool) : String :=
  String.ofList (cachedJson now tools).stringify

/-- `Date.now() - cached.fetchedAt < TOOLS_CACHE_FRESH_MS` -/
def isFresh (now : Nat) (cached : CachedTools) : Bool :=
  ((Double.finite now).add cached.fetchedAt.neg).lt (.finite toolsCacheFresh)

/-- The tools that are served at once, or kept for the case that Pipedream fails. -/
def hitTools (now : Nat) (raw : Option String) : TextCache.Hit (List AppTool) :=
  match readCachedTools raw with
  | none => .make none
  | some cached => if isFresh now cached then .serve cached.tools else .make (some cached.tools)

def toolsCache : TextCache.Policy (List AppTool) (List AppTool) :=
  ⟨id, cachedText, hitTools, toolsCacheTtl⟩

/-! Its texts -/

theorem nearest_time {n : Nat} (before : n ≤ lastTime) : JsNumber.nearest n = .finite n := by
  have small : |(n : ℤ)| < 2 ^ 53 := by
    rw [Nat.abs_cast]
    unfold lastTime at before
    omega
  exact_mod_cast JsNumber.nearest_intCast small

theorem appToolJson_read (tool : AppTool) :
    (appToolJson tool).Sound ∧ (appToolJson tool).Finite ∧ castAppTool (appToolJson tool) = some tool := by
  obtain ⟨key, name, description⟩ := tool
  cases description <;>
    simp [appToolJson, castAppTool, Json.Sound, Json.SoundFields, Json.Finite, Json.FiniteFields,
      Json.get?, text]

theorem appToolJsons_read (tools : List AppTool) :
    Json.SoundItems (tools.map appToolJson) ∧ Json.FiniteItems (tools.map appToolJson) ∧
      Paired.readAll castAppTool (tools.map appToolJson) = some tools := by
  induction tools with
  | nil => exact ⟨trivial, trivial, rfl⟩
  | cons tool rest ih =>
    obtain ⟨sound, finite, read⟩ := appToolJson_read tool
    obtain ⟨sounds, finites, reads⟩ := ih
    refine ⟨⟨sound, sounds⟩, ⟨finite, finites⟩, ?_⟩
    simp [Paired.readAll, read, reads]

theorem parse_cachedText {now : Nat} (before : now ≤ lastTime) (tools : List AppTool) :
    Json.parse (cachedText now tools) = some (cachedJson now tools) := by
  obtain ⟨sound, finite, -⟩ := appToolJsons_read tools
  have number : Json.SoundNumber (.finite now) := by
    intro q same
    cases same
    exact nearest_time before
  have whole : (cachedJson now tools).Sound := by
    simp [cachedJson, Json.Sound, Json.SoundFields, sound, number]
  have same : (cachedJson now tools).written = cachedJson now tools := by
    refine (Json.written_eq_iff _).mpr ?_
    simp [cachedJson, Json.Finite, Json.FiniteFields, finite, Double.isFinite]
  rw [cachedText, Json.parse_stringify_sound whole, same]

theorem readCachedTools_cachedText {now : Nat} (before : now ≤ lastTime) (tools : List AppTool) :
    readCachedTools (some (cachedText now tools)) = some ⟨tools, .finite now⟩ := by
  have parsed := parse_cachedText before tools
  have given : cachedText now tools ≠ "" := by
    intro empty
    rw [empty] at parsed
    cases parsed
  have filled : nonEmpty (some (cachedText now tools)) = some (cachedText now tools) :=
    Option.filter_eq_some_iff.mpr ⟨rfl, by simpa using given⟩
  have read := (appToolJsons_read tools).2.2
  simp only [readCachedTools, filled, parsed, Option.bind_eq_bind, Option.bind_some]
  simp [cachedJson, Json.get?, castAppTools, read, fetchedAt]

theorem isFresh_iff {now stamp : Nat} (order : stamp ≤ now) (before : now ≤ lastTime)
    (tools : List AppTool) :
    isFresh now ⟨tools, .finite stamp⟩ = decide (now - stamp < toolsCacheFresh) := by
  have age : (now : ℚ) + -stamp = ((now - stamp : ℕ) : ℚ) := by
    rw [Nat.cast_sub order, sub_eq_add_neg]
  have within : now - stamp ≤ lastTime := by omega
  rw [isFresh, Double.neg, Double.add, age, nearest_time within, Double.lt]
  exact decide_eq_decide.mpr Nat.cast_lt

theorem toolsCache_lawful :
    toolsCache.Lawful lastTime id fun age => decide (age < toolsCacheFresh) where
  missing _ := rfl
  hit now stamp tools order before := by
    have read := readCachedTools_cachedText (order.trans before) tools
    have fresh := isFresh_iff order before tools
    dsimp only [toolsCache, id]
    unfold hitTools
    rw [read]
    dsimp only
    rw [fresh]

/-! Requests -/

abbrev Requests := TextCache.State String (List AppTool) (List AppTool)

/-- What one request asks for, and what Pipedream answers it. -/
structure Request where
  appSlug : String
  pages : Option String → Except String ActionPage

def metaAds : String := "meta_ads"

section
variable (requests : Nat → Request)

/-- What a request makes is what its pages come to. -/
def supplied : TextCache.Act String (List AppTool) → TextCache.Act String (List AppTool)
  | .make call _ => .make call (listActions (requests call).pages).toOption
  | a => a

/-- A request for Meta Ads makes no step of its own. -/
def requestStep (s : Requests) (a : TextCache.Act String (List AppTool)) : Option Requests :=
  if a.call?.any fun call => (requests call).appSlug == metaAds then none
  else
    TextCache.step toolsCache lastTime (fun call => toolsCacheKey (requests call).appSlug) s
      (supplied requests a)

abbrev RequestStep (s : Requests) (a : TextCache.Act String (List AppTool)) (t : Requests) : Prop :=
  requestStep requests s a = some t

/-- What `listAppTools` has answered; `some none` is an exception. -/
def answerOf (s : Requests) (call : Nat) : Option (Option (List AppTool)) :=
  if (requests call).appSlug = metaAds then some (some metaAdsTools)
  else
    match s.phase call with
    | .ended answer => some answer
    | _ => none

/-- What was fetched, and what failed. -/
def Fetched (s : Requests) : Prop :=
  (∀ call tools, .made call tools ∈ s.log → listActions (requests call).pages = .ok tools) ∧
    ∀ call, .failed call ∈ s.log → ∃ e, listActions (requests call).pages = .error e

/-- What a request is answered with: for Meta Ads always our own tools. An entry that another request
for the app has `stored` was `fetched` before that, and is `read` at some time. -/
inductive AnsweredAs (s : Requests) (call : Nat) : Option (List AppTool) → Prop where
  | native (own : (requests call).appSlug = metaAds) : AnsweredAs s call (some metaAdsTools)
  | live {tools : List AppTool} (listed : listActions (requests call).pages = .ok tools) :
      AnsweredAs s call (some tools)
  | fresh {other fetched checked : Nat} {tools : List AppTool}
      (app : (requests other).appSlug = (requests call).appSlug)
      (listed : listActions (requests other).pages = .ok tools)
      (order : fetched ≤ checked) (young : checked < fetched + toolsCacheFresh)
      (check : .checked call checked ∈ s.log)
      (stored : ∃ time, .stored other fetched time ∈ s.log) : AnsweredAs s call (some tools)
  | stale {other fetched stored read : Nat} {tools : List AppTool} {e : String}
      (app : (requests other).appSlug = (requests call).appSlug)
      (listed : listActions (requests other).pages = .ok tools)
      (failed : listActions (requests call).pages = .error e)
      (kept : .stored other fetched stored ∈ s.log) (found : .read call true read ∈ s.log)
      (order : stored ≤ read) (present : read < stored + toolsCacheTtl) :
      AnsweredAs s call (some tools)
  | thrown {read : Nat} {e : String} (failed : listActions (requests call).pages = .error e)
      (missing : .read call false read ∈ s.log) : AnsweredAs s call none

end

section
variable {requests : Nat → Request} {s t : Requests}

/-- Only `make` adds to what was fetched or failed. -/
theorem step_fetched {policy : TextCache.Policy (List AppTool) (List AppTool)} {key : Nat → String}
    {a : TextCache.Act String (List AppTool)} (taken : TextCache.Step policy lastTime key s a t) :
    (∀ call tools, .made call tools ∈ t.log → .made call tools ∈ s.log ∨
        a = .make call (some tools)) ∧
      ∀ call, .failed call ∈ t.log → .failed call ∈ s.log ∨ a = .make call none := by
  cases a with
  | wait clock =>
    obtain ⟨-, same⟩ := Option.ite_none_right_eq_some.mp taken
    cases same
    exact ⟨fun _ _ => .inl, fun _ => .inl⟩
  | evict key =>
    cases taken
    exact ⟨fun _ _ => .inl, fun _ => .inl⟩
  | read call reached =>
    simp only [TextCache.Step, TextCache.step] at taken
    split at taken <;> cases taken
    simp [TextCache.State.enter]
  | check call =>
    simp only [TextCache.Step, TextCache.step] at taken
    split at taken
    · split at taken <;> cases taken <;> simp [TextCache.State.enter]
    · cases taken
  | make call value =>
    simp only [TextCache.Step, TextCache.step] at taken
    split at taken <;> cases taken <;> simp [TextCache.State.enter] <;> grind
  | stamp call =>
    simp only [TextCache.Step, TextCache.step] at taken
    split at taken <;> cases taken
    simp [TextCache.State.enter]
  | store call reached =>
    simp only [TextCache.Step, TextCache.step] at taken
    split at taken
    · split at taken <;> cases taken <;> simp [TextCache.State.enter]
    · cases taken

theorem requestStep_some {a : TextCache.Act String (List AppTool)} (taken : RequestStep requests s a t) :
    TextCache.Step toolsCache lastTime (fun call => toolsCacheKey (requests call).appSlug) s
      (supplied requests a) t := by
  obtain ⟨-, taken⟩ := Option.ite_none_left_eq_some.mp taken
  exact taken

theorem supplied_make {a : TextCache.Act String (List AppTool)} {call : Nat}
    {value : Option (List AppTool)} (same : supplied requests a = .make call value) :
    value = (listActions (requests call).pages).toOption := by
  cases a with
  | make other asked =>
    cases same
    rfl
  | _ => cases same

theorem Fetched.step {a : TextCache.Act String (List AppTool)} (fetched : Fetched requests s)
    (taken : RequestStep requests s a t) : Fetched requests t := by
  obtain ⟨mades, faileds⟩ := step_fetched (requestStep_some taken)
  refine ⟨fun call tools made => ?_, fun call failed => ?_⟩
  · rcases mades call tools made with earlier | here
    · exact fetched.1 call tools earlier
    · have same := supplied_make here
      cases outcome : listActions (requests call).pages with
      | ok listed =>
        rw [outcome] at same
        cases same
        rfl
      | error e =>
        rw [outcome] at same
        cases same
  · rcases faileds call failed with earlier | here
    · exact fetched.2 call earlier
    · have same := supplied_make here
      cases outcome : listActions (requests call).pages with
      | ok listed =>
        rw [outcome] at same
        cases same
      | error e => exact ⟨e, rfl⟩

/-- Whatever the other requests do, and whenever Redis or Pipedream fails: a request for Meta Ads is
answered with our own tools, and any other with what it fetched, with what another one for the app
fetched less than a day before, or, where its own fetch fails, with what one stored less than seven
days before; it throws only where there is nothing of the kind. -/
theorem listAppTools_answers {now : Nat} (le : now ≤ lastTime)
    (reached : Reachable (RequestStep requests) (TextCache.start now) s) {call : Nat}
    {answer : Option (List AppTool)} (answered : answerOf requests s call = some answer) :
    AnsweredAs requests s call answer := by
  unfold answerOf at answered
  split at answered
  · rename_i own
    cases answered
    exact .native own
  obtain ⟨steps, run⟩ := reached
  have fetched : Fetched requests s :=
    run.invariant ⟨nofun, nofun⟩ fun s a t fetched taken => fetched.step taken
  have inv : TextCache.Inv toolsCache lastTime (fun call => toolsCacheKey (requests call).appSlug) id
      (fun age => decide (age < toolsCacheFresh)) s :=
    run.invariant (TextCache.inv_start le) fun s a t inv taken =>
      inv.step toolsCache_lawful (requestStep_some taken)
  split at answered
  case h_2 => cases answered
  rename_i ended
  cases answered
  have knows := inv.knows call
  rw [ended] at knows
  cases knows with
  | made made => exact .live (fetched.1 call _ made)
  | nothing read failed =>
    obtain ⟨e, failed⟩ := fetched.2 call failed
    exact .thrown failed read
  | cached found after check age =>
    obtain ⟨other, stored, same, made, kept, first, second, -⟩ := found.source
    have young := of_decide_eq_true age
    exact .fresh ((String.append_right_inj _).mp same) (fetched.1 other _ made) (by omega) (by omega)
      check ⟨stored, kept⟩
  | stale found after check age failed =>
    obtain ⟨other, stored, same, made, kept, -, order, young⟩ := found.source
    obtain ⟨e, failed⟩ := fetched.2 call failed
    exact .stale ((String.append_right_inj _).mp same) (fetched.1 other _ made) failed kept found.read
      order young

end

/-- The first of two requests for Notion is answered by Pipedream, the second one fails after a day. -/
def notionTwice (call : Nat) : Request :=
  ⟨if call = 2 then metaAds else "notion",
    fun _ => if call = 0 then .ok ⟨[⟨"notion-search", "Search", none⟩], false, none⟩
      else .error "unreachable"⟩

theorem notion_listed_stale : ∃ s : Requests,
    answerOf notionTwice s 1 = some (some [⟨"notion-search", "Search", none⟩]) ∧
      AnsweredAs notionTwice s 1 (some [⟨"notion-search", "Search", none⟩]) ∧
      AnsweredAs notionTwice s 2 (some metaAdsTools) := by
  obtain ⟨raw, stored⟩ : ∃ raw, cachedText 1000 [⟨"notion-search", "Search", none⟩] = raw := ⟨_, rfl⟩
  have stale : hitTools 90000000 (some (cachedText 1000 [⟨"notion-search", "Search", none⟩])) =
      .make (some [⟨"notion-search", "Search", none⟩]) :=
    toolsCache_lawful.hit 90000000 1000 _ (by decide) (by decide)
  rw [stored] at stale
  have missing : hitTools 1000 none = .make none := rfl
  have other : (("notion" : String) == metaAds) = false := rfl
  have followed : ∃ steps s, follow (requestStep notionTwice) (TextCache.start 1000)
      [.read 0 true, .check 0, .make 0 none, .stamp 0, .store 0 true, .wait 90000000, .read 1 true,
        .check 1, .make 1 none] = some (steps, s) ∧
      s.phase 1 = .ended (some [⟨"notion-search", "Search", none⟩]) := by
    simp [follow, requestStep, supplied, TextCache.step, TextCache.State.enter, TextCache.Act.call?,
      TextCache.State.live, TextCache.start, notionTwice, listActions, walkPages, maxToolPages,
      toolsCache, toolsCacheTtl, lastTime, missing, stored, stale, other, bind, Except.bind,
      Except.toOption]
  obtain ⟨steps, s, done, ended⟩ := followed
  have answered : answerOf notionTwice s 1 = some (some [⟨"notion-search", "Search", none⟩]) := by
    rw [answerOf, if_neg (by decide), ended]
  have reached : Reachable (RequestStep notionTwice) (TextCache.start 1000) s := ⟨steps, follow_run done⟩
  exact ⟨s, answered, listAppTools_answers (by decide) reached answered,
    listAppTools_answers (by decide) reached (if_pos rfl)⟩

end Gomer.Integrations.AppTools
