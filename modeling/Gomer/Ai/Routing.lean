import Gomer.Ai.Run

/-! `ToolRouterService`: which connected apps, and which of an app's actions, a message needs.
The texts of its two questions are left out: any answer may come back. -/
namespace Gomer.Ai

def serverRouteThreshold : Nat := 1
def actionRouteThreshold : Nat := 4
def maxCandidatesInPrompt : Nat := 200

structure RoutableAction where
  name : String
  description : Option String

/-- The text that `create` answers, where it answers. -/
abbrev RouterAnswer := Except ProviderError String

/-- The UTF-16 code units of a string. -/
def codeUnits (text : String) : List Nat :=
  text.toList.flatMap fun c =>
    if c.toNat < 65536 then [c.toNat]
    else [55296 + (c.toNat - 65536) / 1024, 56320 + (c.toNat - 65536) % 1024]

/-- The order of `sort`. -/
def unitsLe : List Nat → List Nat → Bool
  | a :: as, b :: bs => a < b || a == b && unitsLe as bs
  | [], _ => true
  | _ :: _, [] => false

section
variable (parse : String → Option Json)

/-- The strings of the first bracketed array. `parse` is `JSON.parse`. -/
def parseNames (text : String) : Option (List String) :=
  match text.toList.idxOf? '[', text.toList.reverse.idxOf? ']' with
  | some start, some behind =>
    let stop := text.toList.length - behind
    if stop ≤ start + 1 then none
    else
      match parse (String.ofList ((text.toList.take stop).drop start)) with
      | some (.arr items) =>
        some (items.filterMap fun item =>
          match item with
          | .str name => some name
          | _ => none)
      | _ => none
  | _, _ => none

def chooseNames (answer : RouterAnswer) : Option (List String) :=
  match answer with
  | .error _ => none
  | .ok text => parseNames parse text

/-- `none` exposes the app whole. -/
def selectRelevantActions (answer : RouterAnswer) (actions : List RoutableAction) :
    Option (List String) :=
  if actions.length ≤ actionRouteThreshold then none
  else
    match chooseNames parse answer with
    | none => none
    | some names =>
      match (actions.take maxCandidatesInPrompt).filter fun action => names.contains action.name with
      | [] => none
      | action :: rest =>
        some (((action :: rest).map (·.name)).mergeSort fun a b => unitsLe (codeUnits a) (codeUnits b))

/-- `none` attaches every server; an empty answer is trusted. -/
def selectRelevantServers (answer : RouterAnswer) (servers : List RemoteMcpServer) :
    Option (List RemoteMcpServer) :=
  if servers.length ≤ serverRouteThreshold then none
  else
    match chooseNames parse answer with
    | none => none
    | some [] => some []
    | some (slug :: slugs) =>
      match servers.filter fun server => (slug :: slugs).contains server.appSlug with
      | [] => none
      | server :: rest => some (server :: rest)

/-- A narrowing keeps something. -/
theorem selectRelevantActions_ne_nil {answer : RouterAnswer} {actions : List RoutableAction}
    {names : List String} (narrowed : selectRelevantActions parse answer actions = some names) :
    names ≠ [] := by
  unfold selectRelevantActions at narrowed
  split at narrowed
  · cases narrowed
  · split at narrowed
    · cases narrowed
    · split at narrowed
      · cases narrowed
      · cases narrowed
        rw [ne_eq, ← List.length_eq_zero_iff, List.length_mergeSort]
        simp

/-! What a reply decides -/

/-- The elements of the first bracketed array. -/
def replyArray (answer : RouterAnswer) : Option (List Json) :=
  match answer with
  | .error _ => none
  | .ok text =>
    match text.toList.idxOf? '[', text.toList.reverse.idxOf? ']' with
    | some start, some behind =>
      let stop := text.toList.length - behind
      if stop ≤ start + 1 then none
      else
        match parse (String.ofList ((text.toList.take stop).drop start)) with
        | some (.arr items) => some items
        | _ => none
    | _, _ => none

/-- The names among the elements of an array. -/
def namesIn (items : List Json) : List String :=
  items.filterMap fun item =>
    match item with
    | .str name => some name
    | _ => none

theorem namesIn_ne_nil {items : List Json} :
    namesIn items ≠ [] ↔ ∃ name, Json.str name ∈ items := by
  unfold namesIn
  constructor
  · intro some
    obtain ⟨name, member⟩ := List.exists_mem_of_ne_nil _ some
    obtain ⟨item, found, named⟩ := List.mem_filterMap.mp member
    cases item with
    | str text => exact ⟨text, found⟩
    | null | bool | num | arr | obj => cases named
  · rintro ⟨name, member⟩
    exact List.ne_nil_of_mem (List.mem_filterMap.mpr ⟨.str name, member, rfl⟩)

theorem chooseNames_eq (answer : RouterAnswer) :
    chooseNames parse answer = (replyArray parse answer).map namesIn := by
  cases answer with
  | error _ => rfl
  | ok text =>
    simp only [chooseNames, parseNames, replyArray]
    split
    · split
      · rfl
      · split
        · rfl
        · rfl
    · rfl

/-- Every app, or the apps that the array names in the order of the connected ones, or none where
the array is empty. -/
structure FailsOpen (reply : Option (List Json)) (servers : List RemoteMcpServer)
    (selected : Option (List RemoteMcpServer)) : Prop where
  named : ∀ kept, selected = some kept → kept ≠ [] → ∃ items, reply = some items ∧
    kept = servers.filter fun server => decide (server.appSlug ∈ namesIn items)
  nothing : selected = some [] → reply = some []
  unreadable : ∀ items, reply = some items → items ≠ [] →
    (∀ server ∈ servers, server.appSlug ∉ namesIn items) → selected = none

/-- The answers of the selection, by what the reply's array has. -/
theorem selectRelevantServers_cases (answer : RouterAnswer) (servers : List RemoteMcpServer) :
    (servers.length ≤ serverRouteThreshold ∨ replyArray parse answer = none) ∧
        selectRelevantServers parse answer servers = none ∨
      ∃ items, replyArray parse answer = some items ∧ serverRouteThreshold < servers.length ∧
        (namesIn items = [] ∧ selectRelevantServers parse answer servers = some [] ∨
          namesIn items ≠ [] ∧ selectRelevantServers parse answer servers =
            Option.filter (fun kept => !kept.isEmpty)
              (some (servers.filter fun server => decide (server.appSlug ∈ namesIn items)))) := by
  unfold selectRelevantServers
  rw [chooseNames_eq]
  by_cases few : servers.length ≤ serverRouteThreshold
  · rw [if_pos few]
    exact .inl ⟨.inl few, rfl⟩
  · rw [if_neg few]
    cases replied : replyArray parse answer with
    | none => exact .inl ⟨.inr rfl, rfl⟩
    | some items =>
      refine .inr ⟨items, rfl, Nat.lt_of_not_le few, ?_⟩
      rw [Option.map_some]
      cases named : namesIn items with
      | nil => exact .inl ⟨rfl, rfl⟩
      | cons slug slugs =>
        refine .inr ⟨List.cons_ne_nil _ _, ?_⟩
        have same : (fun server : RemoteMcpServer => (slug :: slugs).contains server.appSlug) =
            fun server => decide (server.appSlug ∈ slug :: slugs) := by
          funext server
          rw [List.contains_eq_mem]
        dsimp only
        rw [same]
        cases servers.filter fun server => decide (server.appSlug ∈ slug :: slugs) with
        | nil => rfl
        | cons server rest => rfl

/-- The selection fails open exactly where an array that has elements has a string among them. -/
theorem selectRelevantServers_failsOpen_iff (answer : RouterAnswer) (servers : List RemoteMcpServer) :
    FailsOpen (replyArray parse answer) servers (selectRelevantServers parse answer servers) ↔
      (serverRouteThreshold < servers.length → ∀ items, replyArray parse answer = some items →
        items ≠ [] → ∃ name, Json.str name ∈ items) := by
  constructor
  · intro law many items replied some
    rw [← namesIn_ne_nil]
    intro none
    obtain ⟨open_, -⟩ | ⟨_, replied', -, ⟨-, kept⟩ | ⟨named, -⟩⟩ :=
      selectRelevantServers_cases parse answer servers
    · obtain few | unread := open_
      · exact Nat.not_le_of_lt many few
      · cases replied.symm.trans unread
    · exact some (Option.some.inj (replied.symm.trans (law.nothing kept)))
    · cases replied.symm.trans replied'
      exact named none
  · intro readable
    obtain ⟨-, all⟩ | ⟨items, replied, many, ⟨none, kept⟩ | ⟨-, kept⟩⟩ :=
      selectRelevantServers_cases parse answer servers
    · rw [all]
      exact ⟨fun _ h => (by cases h), fun h => (by cases h), fun _ _ _ _ => rfl⟩
    · have empty : items = [] := by
        by_contra some
        exact namesIn_ne_nil.mpr (readable many items replied some) none
      rw [kept, replied, empty]
      refine ⟨fun _ h some => ?_, fun _ => rfl, fun _ h some => ?_⟩
      · cases h
        exact absurd rfl some
      · cases h
        exact absurd rfl some
    · rw [kept, replied]
      refine ⟨fun found h _ => ?_, fun h => ?_, fun found h _ unknown => ?_⟩
      · exact ⟨items, rfl, (Option.some.inj (Option.filter_eq_some_iff.mp h).1).symm⟩
      · obtain ⟨-, kept⟩ := Option.filter_eq_some_iff.mp h
        cases kept
      · cases h
        have nobody : servers.filter (fun server => decide (server.appSlug ∈ namesIn items)) = [] :=
          List.filter_eq_nil_iff.mpr fun server member named =>
            unknown server member (of_decide_eq_true named)
        rw [nobody]
        rfl

end

/-- `JSON.parse` of a reply that wraps its one name twice. -/
def nestedAnswer : String → Option Json
  | "[[\"google_ads\"]]" => some (.arr [.arr [.str "google_ads"]])
  | _ => none

/-- The array has an element and names no app, and no app is attached. -/
theorem nested_names_attach_none :
    let servers : List RemoteMcpServer :=
      [⟨"gmail", "acme-gmail", "https://mcp.example/gmail", none, none⟩,
        ⟨"google_ads", "acme-google_ads", "https://mcp.example/google_ads", none, none⟩]
    let answer : RouterAnswer := .ok "[[\"google_ads\"]]"
    selectRelevantServers nestedAnswer answer servers = some [] ∧
      ¬ FailsOpen (replyArray nestedAnswer answer) servers
        (selectRelevantServers nestedAnswer answer servers) := by
  intro servers answer
  have attached : selectRelevantServers nestedAnswer answer servers = some [] := rfl
  refine ⟨attached, fun law => ?_⟩
  have replied : replyArray nestedAnswer answer = some [.arr [.str "google_ads"]] := rfl
  have empty := law.nothing attached
  rw [replied] at empty
  cases empty

end Gomer.Ai
