import Gomer.Ai.Scope
import Gomer.Lib.JsonText
import Gomer.Lib.Paired
import Gomer.Lib.TextCache

/-! `McpBridgeService.listTools`: the tools of a server, cached in Redis under its name. -/
namespace Gomer.Ai.McpBridge

open Integrations Trace

/-! What is cached -/

/-- A tool as the server lists it; its schema came as JSON. -/
structure RemoteTool where
  name : String
  description : Option String
  inputSchema : Json
  sound : inputSchema.Sound

def RemoteTool.spec (tool : RemoteTool) : ToolSpec :=
  ⟨tool.name, tool.description.getD tool.name, tool.inputSchema⟩

def toolJson (tool : ToolSpec) : Json :=
  .obj [("name", .str tool.name), ("description", .str tool.description),
    ("parameters", tool.parameters)]

def text : Json → Option String
  | .str value => some value
  | _ => none

def castTool (json : Json) : Option ToolSpec := do
  let name ← (json.get? "name").bind text
  let description ← (json.get? "description").bind text
  let parameters ← json.get? "parameters"
  some ⟨name, description, parameters⟩

/-- `as ToolSpec[]`, which checks nothing; a value of another shape is not cached. -/
def castTools : Json → Option (List ToolSpec)
  | .arr items => Paired.readAll castTool items
  | _ => none

def cacheKey (server : RemoteMcpServer) : String := "mcp:tools:" ++ server.name

/-- Ten minutes, in ms. -/
def toolCacheTtl : Nat := 600000

/-- An empty text, or one that does not parse, is a miss. -/
def readTools (cached : Option String) : Option (List ToolSpec) :=
  (nonEmpty cached).bind fun cached => (Json.parse cached).bind castTools

def toolsText (tools : List RemoteTool) : String :=
  String.ofList (Json.arr (tools.map fun tool => toolJson tool.spec)).stringify

def toolCache : TextCache.Policy (List RemoteTool) (List ToolSpec) where
  answer tools := tools.map (·.spec)
  encode _ tools := toolsText tools
  hit _ cached :=
    match readTools cached with
    | some tools => .serve tools
    | none => .make none
  ttl := toolCacheTtl

/-- A server that cannot be reached has no tools. -/
def listTools (answer : Option (List ToolSpec)) : List ToolSpec := answer.getD []

/-! Its texts -/

/-- A schema as it comes back from the cache: without the numbers that JSON cannot write. -/
def RemoteTool.cached (tool : RemoteTool) : ToolSpec :=
  ⟨tool.name, tool.description.getD tool.name, tool.inputSchema.written⟩

theorem toolJson_sound (tool : RemoteTool) : (toolJson tool.spec).Sound := by
  simp [toolJson, Json.Sound, Json.SoundFields, RemoteTool.spec, tool.sound]

theorem toolJson_written (tool : RemoteTool) :
    castTool (toolJson tool.spec).written = some tool.cached := by
  simp [toolJson, castTool, Json.written, Json.writtenFields, Json.get?, text, RemoteTool.spec,
    RemoteTool.cached]

theorem soundItems_map (tools : List RemoteTool) :
    Json.SoundItems (tools.map fun tool => toolJson tool.spec) := by
  induction tools with
  | nil => trivial
  | cons tool rest ih => exact ⟨toolJson_sound tool, ih⟩

theorem castTools_written (tools : List RemoteTool) :
    castTools (Json.arr (tools.map fun tool => toolJson tool.spec)).written =
      some (tools.map (·.cached)) := by
  refine Paired.readAll_eq_some.mpr ?_
  induction tools with
  | nil => exact .nil
  | cons tool rest ih => exact .cons (toolJson_written tool) ih

theorem parse_toolsText (tools : List RemoteTool) : Json.parse (toolsText tools) =
    some (Json.arr (tools.map fun tool => toolJson tool.spec)).written := by
  unfold toolsText
  exact Json.parse_stringify_sound (soundItems_map tools)

theorem readTools_toolsText (tools : List RemoteTool) :
    readTools (some (toolsText tools)) = some (tools.map (·.cached)) := by
  have given : toolsText tools ≠ "" := by
    intro empty
    have parsed := parse_toolsText tools
    rw [empty] at parsed
    cases parsed
  have filled : nonEmpty (some (toolsText tools)) = some (toolsText tools) :=
    Option.filter_eq_some_iff.mpr ⟨rfl, by simpa using given⟩
  rw [readTools, filled, Option.bind_some, parse_toolsText, Option.bind_some, castTools_written]

theorem toolCache_lawful (latest : Nat) :
    toolCache.Lawful latest (fun tools => tools.map (·.cached)) fun _ => true where
  missing _ := rfl
  hit now stamp tools _ _ := by
    have read := readTools_toolsText tools
    change (match readTools (some (toolsText tools)) with
      | some tools => TextCache.Hit.serve tools
      | none => .make none) = _
    rw [read]
    rfl

/-! Whose tools they are -/

/-- A connected account, as a run asks for its tools. -/
structure Asked where
  workspaceId : UuidText
  userId : UuidText
  accessLevel : IntegrationAccessLevel
  appSlug : String
  token : String
  printed : Printed workspaceId ∧ Printed userId

def Asked.externalUserId (asked : Asked) : String :=
  resolveExternalUserId asked.workspaceId asked.userId asked.accessLevel

def Asked.server (deployment : Deployment) (asked : Asked) : RemoteMcpServer :=
  ⟨asked.appSlug, mcpServerName asked.externalUserId asked.appSlug,
    mcpServerUrl deployment asked.externalUserId asked.appSlug, some asked.token, none⟩

theorem Asked.server_mem (deployment : Deployment) (asked : Asked) :
    buildMcpServers deployment asked.externalUserId [asked.appSlug] asked.token =
      [asked.server deployment] := rfl

theorem uuid_split {a b : UuidText} {x y : List Char}
    (same : a.text.toList ++ x = b.text.toList ++ y) : a = b ∧ x = y := by
  have long : a.text.toList.length = b.text.toList.length := by
    rw [String.length_toList, String.length_toList, a.length, b.length]
  obtain ⟨ids, rest⟩ := List.append_inj same long
  exact ⟨uuid_ext (String.toList_inj.mp ids), rest⟩

/-- The name of a server is that of one account's. -/
theorem server_name_inj {deployment : Deployment} {a b : Asked}
    (same : (a.server deployment).name = (b.server deployment).name) :
    a.externalUserId = b.externalUserId ∧ a.appSlug = b.appSlug := by
  have names : mcpServerName a.externalUserId a.appSlug = mcpServerName b.externalUserId b.appSlug :=
    same
  have chars := congrArg String.toList names
  simp only [mcpServerName, String.toList_append, String.toList_ofList, List.append_assoc,
    List.append_cancel_left_eq] at chars
  unfold Asked.externalUserId at names chars ⊢
  cases first : a.accessLevel with
  | team =>
    cases second : b.accessLevel with
    | team =>
      simp only [first, second, resolveExternalUserId, sanitize_printed a.printed.1,
        sanitize_printed b.printed.1] at chars ⊢
      obtain ⟨ids, rest⟩ := uuid_split chars
      rw [List.append_cancel_left_eq] at rest
      exact ⟨congrArg UuidText.text ids, String.toList_inj.mp rest⟩
    | ownerOnly =>
      rw [first, second] at names
      exact absurd names (mcpServerName_scopes a.printed.1 a.appSlug b.appSlug)
  | ownerOnly =>
    cases second : b.accessLevel with
    | team =>
      rw [first, second] at names
      exact absurd names.symm (mcpServerName_scopes b.printed.1 b.appSlug a.appSlug)
    | ownerOnly =>
      simp only [first, second, resolveExternalUserId, sanitize_private,
        sanitize_printed a.printed.2, sanitize_printed b.printed.2, List.cons_append,
        List.cons.injEq, true_and] at chars ⊢
      obtain ⟨ids, rest⟩ := uuid_split chars
      rw [List.append_cancel_left_eq] at rest
      exact ⟨congrArg privateExternalUserId ids, String.toList_inj.mp rest⟩

/-- The calls of `listTools` of any number of runs. -/
abbrev Listings := TextCache.State String (List RemoteTool) (List ToolSpec)

section
variable (deployment : Deployment) (latest : Nat) (asks : Nat → Asked)

abbrev ListingStep := TextCache.Step (W := List ToolSpec) toolCache latest fun call =>
  cacheKey ((asks call).server deployment)

/-- What a call of `listTools` answers: nothing where its server could not be reached, what it
listed itself, or what another call has listed at the address of the same account, and stored less
than ten minutes before. -/
inductive ListedAs (s : Listings) (call : Nat) : List ToolSpec → Prop where
  | unreachable (failed : .failed call ∈ s.log) : ListedAs s call []
  | live {tools : List RemoteTool} (listed : .made call tools ∈ s.log) :
      ListedAs s call (tools.map (·.spec))
  | cached {other stamp stored time : Nat} {tools : List RemoteTool}
      (listed : .made other tools ∈ s.log)
      (account : ((asks other).server deployment).url = ((asks call).server deployment).url)
      (kept : .stored other stamp stored ∈ s.log) (read : .read call true time ∈ s.log)
      (order : stored ≤ time) (young : time < stored + toolCacheTtl) :
      ListedAs s call (tools.map (·.cached))

end

/-- Runs of any members of any workspaces list tools at once, over one Redis that can fail and
forget: no run is given the tools of an account other than its own. -/
theorem listings_apart {deployment : Deployment} {now latest : Nat} {asks : Nat → Asked}
    (le : now ≤ latest) {s : Listings}
    (reached : Reachable (ListingStep deployment latest asks) (TextCache.start now) s) {call : Nat}
    {answer : Option (List ToolSpec)} (ended : s.phase call = .ended answer) :
    ListedAs deployment asks s call (listTools answer) := by
  cases TextCache.answers (toolCache_lawful latest) le reached ended with
  | made listed => exact .live listed
  | nothing read failed => exact .unreachable failed
  | stale found after check age failed => cases age
  | cached found after check age =>
    obtain ⟨other, stored, same, listed, kept, -, order, young⟩ := found.source
    obtain ⟨user, slug⟩ := server_name_inj ((String.append_right_inj _).mp same)
    refine .cached listed ?_ kept found.read order young
    rw [Asked.server, Asked.server, user, slug]

/-- Ada's Notion, listed twice, and Bob's. -/
def notionAccounts (call : Nat) : Asked :=
  ⟨acmeId, if call = 2 then bobId else adaId, .ownerOnly, "notion", "token",
    ⟨by decide, by split <;> decide⟩⟩

def searchPages : RemoteTool := ⟨"search-pages", some "Search pages", .obj [], by simp [Json.Sound, Json.SoundFields]⟩

/-- The second call finds what the first one listed; the one for the other account does not. -/
theorem notion_listed_twice : ∃ s : Listings, s.phase 1 = .ended (some [searchPages.cached]) ∧
    s.phase 2 = .ended none ∧
    ListedAs acmeDeployment notionAccounts s 1 [searchPages.cached] ∧
    ListedAs acmeDeployment notionAccounts s 2 [] := by
  obtain ⟨ada, own⟩ : ∃ key, cacheKey ((notionAccounts 0).server acmeDeployment) = key := ⟨_, rfl⟩
  have again : cacheKey ((notionAccounts 1).server acmeDeployment) = ada := own
  have apart : cacheKey ((notionAccounts 2).server acmeDeployment) ≠ ada := by
    rw [← own]
    decide
  have missing : toolCache.hit 0 none = .make none := rfl
  have absent : toolCache.hit 500 none = .make none := rfl
  have found := (toolCache_lawful 1000).hit 500 0 [searchPages] (by decide) (by decide)
  have lifetime : toolCache.ttl = 600000 := rfl
  have followed : ∃ steps s, follow (TextCache.step toolCache 1000 fun call =>
      cacheKey ((notionAccounts call).server acmeDeployment)) (TextCache.start 0 : Listings)
      [.read 0 true, .check 0, .make 0 (some [searchPages]), .stamp 0, .store 0 true, .wait 500,
        .read 1 true, .check 1, .read 2 true, .check 2, .make 2 none] = some (steps, s) ∧
      s.phase 1 = .ended (some [searchPages.cached]) ∧ s.phase 2 = .ended none := by
    simp [follow, TextCache.step, TextCache.State.enter, TextCache.State.live, TextCache.start,
      missing, absent, found, own, again, apart, lifetime]
  obtain ⟨steps, s, done, second, third⟩ := followed
  have reached := follow_run done
  exact ⟨s, second, third, listings_apart (Nat.zero_le 1000) ⟨steps, reached⟩ second,
    listings_apart (Nat.zero_le 1000) ⟨steps, reached⟩ third⟩

end Gomer.Ai.McpBridge
