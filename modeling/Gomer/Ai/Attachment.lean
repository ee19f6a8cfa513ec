import Gomer.Ai.Routing
import Gomer.Lib.Record
import Gomer.Lib.Trace
import Mathlib.Logic.Function.Basic

/-! `AttachedAppsService` and `AiService.attachServers`: which servers a turn of a conversation
sends, and what the conversation's record keeps of it. -/
namespace Gomer.Ai

open Trace

def maxActionsPerApp : Nat := 24

/-- The actions exposed for each server; none listed is the whole app. -/
abbrev AttachedApps := AList fun _ : String => List String

/-- The records that have not expired. -/
abbrev AttachedStore := String → Option AttachedApps

/-- Which commands of a turn reach Redis. -/
structure RedisOutcome where
  get : Bool := true
  mergeGet : Bool := true
  mergeSet : Bool := true
  replaceSet : Bool := true

def attachedKey (workspaceId conversationId : String) : String :=
  "ai:attached:" ++ workspaceId ++ ":" ++ conversationId

theorem attachedKey_inj {workspaceId a b : String}
    (same : attachedKey workspaceId a = attachedKey workspaceId b) : a = b := by
  unfold attachedKey at same
  exact String.append_right_inj _ |>.mp same

namespace AttachedAppsService

/-- Empty where there is no record or Redis fails. -/
def get (reached : Bool) (store : AttachedStore) (key : String) : AttachedApps :=
  if reached then (store key).getD ∅ else ∅

def write (reached : Bool) (store : AttachedStore) (key : String) (apps : AttachedApps) :
    AttachedStore :=
  if reached then Function.update store key (some apps) else store

/-- The whole app absorbs any list; of a longer union the newest actions stay. -/
def combine (before : Option (List String)) (actions : List String) : List String :=
  if before = some [] ∨ actions = [] then []
  else
    let union := (before.getD [] ++ actions).eraseDups
    union.drop (union.length - maxActionsPerApp)

def merged (previous attaching : AttachedApps) : AttachedApps :=
  Record.update combine previous attaching.entries

def merge (redis : RedisOutcome) (store : AttachedStore) (key : String) (attaching : AttachedApps) :
    AttachedStore × AttachedApps :=
  let union := merged (get redis.mergeGet store key) attaching
  (write redis.mergeSet store key union, union)

def replace (redis : RedisOutcome) (store : AttachedStore) (key : String) (apps : AttachedApps) :
    AttachedStore :=
  write redis.replaceSet store key apps

theorem eraseDups_of_nodup {names : List String} (distinct : names.Nodup) :
    names.eraseDups = names := by
  induction names with
  | nil => rfl
  | cons name rest ih =>
    obtain ⟨fresh, distinct⟩ := List.nodup_cons.mp distinct
    have apart : (rest.filter fun other => !other == name) = rest :=
      List.filter_eq_self.mpr fun other member => by
        have unlike : other ≠ name := fun same => fresh (same ▸ member)
        simp [unlike]
    rw [List.eraseDups_cons, apart, ih distinct]

/-- The actions that are not on record. -/
def newActions (before : Option (List String)) (actions : List String) : List String :=
  actions.filter fun action => decide (action ∉ before.getD [])

/-- How many recorded actions do not fit beside the new ones. -/
def surplus (before : Option (List String)) (actions : List String) : Nat :=
  (before.getD []).length + (newActions before actions).length - maxActionsPerApp

theorem combine_nil_iff (before : Option (List String)) (actions : List String) :
    combine before actions = [] ↔ before = some [] ∨ actions = [] := by
  unfold combine
  by_cases whole : before = some [] ∨ actions = []
  · simp [whole]
  · rw [if_neg whole]
    refine ⟨fun empty => ?_, fun absorbed => absurd absorbed whole⟩
    cases actions with
    | nil => exact .inr rfl
    | cons action rest =>
      have some : (before.getD [] ++ action :: rest).eraseDups ≠ [] := by
        cases before.getD [] with
        | nil => simp [List.eraseDups_cons]
        | cons first others => simp [List.eraseDups_cons]
      have size := List.length_pos_iff.mpr some
      have gone := List.drop_eq_nil_iff.mp empty
      unfold maxActionsPerApp at gone
      omega

theorem union_eq {before : Option (List String)} {actions : List String}
    (distinct : (before.getD []).Nodup) (apart : actions.Nodup) :
    (before.getD [] ++ actions).eraseDups = before.getD [] ++ newActions before actions := by
  have fresh : actions.removeAll (before.getD []) = newActions before actions := by
    simp [List.removeAll, newActions]
  rw [List.eraseDups_append, eraseDups_of_nodup distinct, fresh, newActions,
    eraseDups_of_nodup (apart.filter _)]

/-- The new actions go behind the recorded ones, and the surplus leaves at the head. -/
theorem combine_fresh {before : Option (List String)} {actions : List String}
    (narrow : before ≠ some []) (some : actions ≠ []) (distinct : (before.getD []).Nodup)
    (apart : actions.Nodup) (few : actions.length ≤ maxActionsPerApp) :
    combine before actions =
      (before.getD []).drop (surplus before actions) ++ newActions before actions := by
  have fits : surplus before actions ≤ (before.getD []).length := by
    have fewer : (newActions before actions).length ≤ actions.length := List.length_filter_le _ _
    unfold surplus
    omega
  unfold combine
  rw [if_neg (not_or.mpr ⟨narrow, some⟩)]
  dsimp only
  rw [union_eq distinct apart, List.length_append]
  exact List.drop_append_of_le_length fits

theorem lookup_merged (previous attaching : AttachedApps) (name : String) :
    (merged previous attaching).lookup name =
      (attaching.lookup name).elim (previous.lookup name) fun actions =>
        some (combine (previous.lookup name) actions) :=
  Record.lookup_update combine attaching.nodupKeys previous name

/-- No listed action is the whole app. -/
def Exposes (actions : List String) (action : String) : Prop := actions = [] ∨ action ∈ actions

/-- What a merge owes one server, with what its record had `before`. -/
structure Accumulates (before : Option (List String)) (incoming after : List String) : Prop where
  bounded : after.length ≤ maxActionsPerApp
  distinct : after.Nodup
  sent : ∀ action ∈ incoming, Exposes after action
  dropped : ∀ action ∈ before.getD [], ¬ Exposes after action →
    maxActionsPerApp < (before.getD [] ++ incoming).eraseDups.length
  order : before = some [] ∧ after = [] ∨
    ∃ kept, kept.Sublist (before.getD []) ∧ after = kept ++ newActions before incoming

theorem disjoint_newActions (before : Option (List String)) (incoming : List String) :
    (before.getD []).Disjoint (newActions before incoming) := by
  intro action recorded fresh
  exact of_decide_eq_true (List.mem_filter.mp fresh).2 recorded

theorem combined_length (before : Option (List String)) {incoming : List String}
    (few : incoming.length ≤ maxActionsPerApp) :
    ((before.getD []).drop (surplus before incoming) ++ newActions before incoming).length ≤
      maxActionsPerApp := by
  have fewer : (newActions before incoming).length ≤ incoming.length := List.length_filter_le _ _
  rw [List.length_append, List.length_drop]
  unfold surplus
  omega

theorem combine_accumulates_iff {before : Option (List String)} {incoming : List String}
    (some : incoming ≠ []) (apart : incoming.Nodup) (few : incoming.length ≤ maxActionsPerApp)
    (distinct : (before.getD []).Nodup) :
    Accumulates before incoming (combine before incoming) ↔
      ∀ action ∈ incoming, action ∉ (before.getD []).take (surplus before incoming) := by
  by_cases whole : before = .some []
  · have absorbed : combine before incoming = [] := (combine_nil_iff before incoming).mpr (.inl whole)
    rw [absorbed, whole]
    refine ⟨fun _ action _ => by simp, fun _ => ?_⟩
    exact ⟨Nat.zero_le _, List.nodup_nil, fun _ _ => .inl rfl, fun _ member => (by cases member),
      .inl ⟨rfl, rfl⟩⟩
  · have after := combine_fresh whole some distinct apart few
    have listed : combine before incoming ≠ [] := fun none =>
      ((combine_nil_iff before incoming).mp none).elim whole some
    have separate := disjoint_newActions before incoming
    constructor
    · intro law action sent evicted
      have kept := (law.sent action sent).resolve_left listed
      rw [after, List.mem_append] at kept
      obtain stays | fresh := kept
      · exact List.disjoint_take_drop distinct le_rfl evicted stays
      · exact separate (List.mem_of_mem_take evicted) fresh
    · intro spared
      rw [after]
      refine ⟨combined_length before few, ?_, ?_, ?_, .inr ⟨_, List.drop_sublist _ _, rfl⟩⟩
      · exact List.nodup_append.mpr ⟨distinct.sublist (List.drop_sublist _ _), apart.filter _,
          fun action stays other fresh same =>
            separate (List.mem_of_mem_drop stays) (same ▸ fresh)⟩
      · intro action sent
        refine .inr (List.mem_append.mpr ?_)
        by_cases recorded : action ∈ before.getD []
        · rw [← List.take_append_drop (surplus before incoming) (before.getD [])] at recorded
          exact .inl ((List.mem_append.mp recorded).resolve_left (spared action sent))
        · exact .inr (List.mem_filter.mpr ⟨sent, decide_eq_true recorded⟩)
      · intro action recorded gone
        rw [union_eq distinct apart, List.length_append]
        by_contra small
        have none : surplus before incoming = 0 := by
          unfold surplus
          omega
        rw [none, List.drop_zero] at gone
        exact gone (.inr (List.mem_append_left _ recorded))

/-- A merge keeps all the actions of the turn exactly where none of them is among the recorded ones
that make room for the new ones. -/
theorem merge_accumulates_iff (redis : RedisOutcome) (store : AttachedStore) (key : String)
    {attaching : AttachedApps} {name : String} {incoming : List String}
    (given : attaching.lookup name = some incoming) (some : incoming ≠ []) (apart : incoming.Nodup)
    (few : incoming.length ≤ maxActionsPerApp)
    (distinct : (((get redis.mergeGet store key).lookup name).getD []).Nodup) :
    (∃ after, (merge redis store key attaching).2.lookup name = Option.some after ∧
        Accumulates ((get redis.mergeGet store key).lookup name) incoming after) ↔
      ∀ action ∈ incoming, action ∉ (((get redis.mergeGet store key).lookup name).getD []).take
        (surplus ((get redis.mergeGet store key).lookup name) incoming) := by
  have merged : (merge redis store key attaching).2.lookup name =
      Option.some (combine ((get redis.mergeGet store key).lookup name) incoming) := by
    rw [merge, lookup_merged, given, Option.elim_some]
  rw [← combine_accumulates_iff some apart few distinct, merged]
  constructor
  · rintro ⟨after, same, law⟩
    cases same
    exact law
  · exact fun law => ⟨_, rfl, law⟩

/-- As many actions as a record holds. -/
def fullRecord : List String := "abcdefghijklmnopqrstuvwx".toList.map String.singleton

def fullStore : AttachedStore := fun key =>
  if key = "ai:attached:acme:1712.0001" then some (AList.singleton "acme-google_ads" fullRecord)
  else none

/-- Actions that are all new take the places of the oldest. -/
theorem merge_new_actions :
    ∃ after, (merge {} fullStore "ai:attached:acme:1712.0001"
        (AList.singleton "acme-google_ads" ["y", "z"])).2.lookup "acme-google_ads" = some after ∧
      Accumulates (some fullRecord) ["y", "z"] after := by
  have distinct : fullRecord.Nodup := by decide +kernel
  have given : (AList.singleton "acme-google_ads" ["y", "z"] : AttachedApps).lookup "acme-google_ads" =
      some ["y", "z"] := rfl
  have recorded : (get true fullStore "ai:attached:acme:1712.0001").lookup "acme-google_ads" =
      some fullRecord := rfl
  rw [← recorded]
  exact (merge_accumulates_iff {} fullStore "ai:attached:acme:1712.0001" given (by decide) (by decide)
    (by decide) distinct).mpr (by decide +kernel)

/-- Here the turn asks again for the oldest action of the record, and loses it. -/
theorem merge_evicts_incoming :
    (merge {} fullStore "ai:attached:acme:1712.0001"
        (AList.singleton "acme-google_ads" ["a", "y"])).2.lookup "acme-google_ads" =
        some (fullRecord.tail ++ ["y"]) ∧
      fullRecord.Nodup ∧ fullRecord.length = maxActionsPerApp ∧
      ¬ ∃ after, (merge {} fullStore "ai:attached:acme:1712.0001"
          (AList.singleton "acme-google_ads" ["a", "y"])).2.lookup "acme-google_ads" = some after ∧
        Accumulates (some fullRecord) ["a", "y"] after := by
  have lost : (merge {} fullStore "ai:attached:acme:1712.0001"
      (AList.singleton "acme-google_ads" ["a", "y"])).2.lookup "acme-google_ads" =
      some (fullRecord.tail ++ ["y"]) := by decide +kernel
  refine ⟨lost, by decide +kernel, by decide +kernel, ?_⟩
  rintro ⟨after, same, law⟩
  rw [lost] at same
  cases same
  have kept := law.sent "a" (by decide)
  unfold Exposes at kept
  revert kept
  decide +kernel

end AttachedAppsService

structure AppTool where
  key : String
  description : Option String

/-- The arguments of `attachServers`, with what each call that it makes answers; those for one
server are listed under its name. -/
structure AttachTurn where
  conversationId : Option String
  branchConversationId : Option String
  servers : List RemoteMcpServer
  redis : RedisOutcome
  serverRouter : RouterAnswer
  listAppTools : String → Except String (List AppTool)
  actionRouter : String → RouterAnswer

/-- A failure lists nothing. -/
def appActions (tools : Except String (List AppTool)) : List RoutableAction :=
  match tools with
  | .error _ => []
  | .ok tools => tools.map fun tool => ⟨tool.key, tool.description⟩

def exposedTools (actions : List String) : Option (List String) :=
  if actions = [] then none else some actions

/-- The connected servers that the record has, with its actions. -/
def exposed (apps : AttachedApps) (servers : List RemoteMcpServer) : List RemoteMcpServer :=
  (servers.filter fun server => decide (server.name ∈ apps)).map fun server =>
    { server with enabledTools := exposedTools ((apps.lookup server.name).getD []) }

section
variable (parse : String → Option Json) (workspaceId : String)

/-- What a chosen server records, and the actions it is sent with. -/
def attachServer (turn : AttachTurn) (sticky : AttachedApps) (name : String) :
    List String × Option (List String) :=
  match sticky.lookup name with
  | some [] => ([], none)
  | remembered =>
    let actions := appActions (turn.listAppTools name)
    let enabled :=
      if actions.isEmpty then none else selectRelevantActions parse (turn.actionRouter name) actions
    match enabled, remembered with
    | none, some (action :: rest) => (action :: rest, some (action :: rest))
    | enabled, _ => (enabled.getD [], enabled)

/-- The names of what is on record, and of what the router adds to it. -/
def chosenServers (turn : AttachTurn) (sticky : AttachedApps) : List String :=
  let undecided := turn.servers.filter fun server => decide (server.name ∉ sticky)
  let relevant :=
    if undecided.isEmpty then []
    else (selectRelevantServers parse turn.serverRouter undecided).getD undecided
  (turn.servers.filter fun server => decide (server.name ∈ sticky)).map (·.name) ++
    relevant.map (·.name)

/-- The branch starts from what the turn sends. -/
def handToBranch (redis : RedisOutcome) (store : AttachedStore) (sending : List RemoteMcpServer)
    (branchConversationId : Option String) : AttachedStore :=
  match nonEmpty branchConversationId with
  | none => store
  | some id =>
    AttachedAppsService.replace redis store (attachedKey workspaceId id)
      (Record.collect (·.name) (fun server => server.enabledTools.getD []) sending)

def attachServers (store : AttachedStore) (turn : AttachTurn) :
    AttachedStore × List RemoteMcpServer :=
  let sticky : AttachedApps :=
    match nonEmpty turn.conversationId with
    | some id => AttachedAppsService.get turn.redis.get store (attachedKey workspaceId id)
    | none => ∅
  let chosen := chosenServers parse turn sticky
  if chosen = [] then (store, [])
  else
    let choice := turn.servers.filter fun server => decide (server.name ∈ chosen)
    let attaching := Record.collect (·.name)
      (fun server => (attachServer parse turn sticky server.name).1) choice
    let attached := choice.map fun server =>
      { server with enabledTools := (attachServer parse turn sticky server.name).2 }
    let sending :=
      match nonEmpty turn.conversationId with
      | none => (store, attached)
      | some id =>
        let merged := AttachedAppsService.merge turn.redis store (attachedKey workspaceId id) attaching
        (merged.1, exposed merged.2 turn.servers)
    (handToBranch workspaceId turn.redis sending.1 sending.2 turn.branchConversationId, sending.2)

/-! What a turn does to the record of its conversation -/

def record (store : AttachedStore) (conversationId : String) : AttachedApps :=
  (store (attachedKey workspaceId conversationId)).getD ∅

/-- No server is dropped, none that is narrow becomes whole, and none that is whole is narrowed. -/
def Grows (before after : AttachedApps) : Prop :=
  ∀ name actions, before.lookup name = some actions →
    ∃ kept, after.lookup name = some kept ∧ (kept = [] ↔ actions = [])

theorem Grows.refl (apps : AttachedApps) : Grows apps apps :=
  fun _ actions found => ⟨actions, found, Iff.rfl⟩

/-- A server that is on record is recorded whole exactly when it was. -/
theorem attachServer_nil_iff {turn : AttachTurn} {sticky : AttachedApps} {name : String}
    {actions : List String} (found : sticky.lookup name = some actions) :
    (attachServer parse turn sticky name).1 = [] ↔ actions = [] := by
  unfold attachServer
  rw [found]
  cases actions with
  | nil => simp
  | cons action rest =>
    dsimp only
    split
    · simp
    · rename_i enabled remembered unlike
      cases narrowed : (if (appActions (turn.listAppTools name)).isEmpty then none
          else selectRelevantActions parse (turn.actionRouter name)
            (appActions (turn.listAppTools name))) with
      | none => exact absurd rfl (unlike action rest narrowed)
      | some names =>
        have some : names ≠ [] := by
          split at narrowed
          · cases narrowed
          · exact selectRelevantActions_ne_nil parse narrowed
        simpa using some

theorem merged_grows {turn : AttachTurn} {sticky : AttachedApps} (choice : List RemoteMcpServer) :
    Grows sticky (AttachedAppsService.merged sticky (Record.collect (·.name)
      (fun server => (attachServer parse turn sticky server.name).1) choice)) := by
  intro name actions found
  rw [AttachedAppsService.lookup_merged, Record.lookup_collect (·.name)
    (fun server => (attachServer parse turn sticky server.name).1) choice name
    (attachServer parse turn sticky name).1 (fun server _ same => by rw [same])]
  split
  · refine ⟨_, rfl, ?_⟩
    rw [AttachedAppsService.combine_nil_iff, attachServer_nil_iff parse found, found]
    simp
  · exact ⟨actions, found, Iff.rfl⟩

/-- Every command of the turn reaches Redis. -/
def RedisOutcome.Up (redis : RedisOutcome) : Prop :=
  redis.get = true ∧ redis.mergeGet = true ∧ redis.mergeSet = true

theorem record_write (store : AttachedStore) (id : String) (apps : AttachedApps) :
    record workspaceId (AttachedAppsService.write true store (attachedKey workspaceId id) apps) id =
      apps := by
  simp [record, AttachedAppsService.write]

theorem record_write_other (reached : Bool) (store : AttachedStore) {id other : String}
    (apart : other ≠ id) (apps : AttachedApps) :
    record workspaceId (AttachedAppsService.write reached store (attachedKey workspaceId other) apps)
      id = record workspaceId store id := by
  have keys : attachedKey workspaceId id ≠ attachedKey workspaceId other :=
    fun same => apart (attachedKey_inj same).symm
  unfold record AttachedAppsService.write
  split
  · rw [Function.update_of_ne keys]
  · rfl

theorem record_handToBranch (redis : RedisOutcome) (store : AttachedStore)
    (sending : List RemoteMcpServer) {branch : Option String} {id : String}
    (apart : branch ≠ some id) :
    record workspaceId (handToBranch workspaceId redis store sending branch) id =
      record workspaceId store id := by
  unfold handToBranch
  cases named : nonEmpty branch with
  | none => rfl
  | some other =>
    have branched := (nonEmpty_some named).1
    have elsewhere : other ≠ id := fun same => apart (branched.trans (congrArg some same))
    exact record_write_other workspaceId _ _ elsewhere _

/-- A turn sends what the record of its conversation has after it. -/
theorem attachServers_own {store : AttachedStore} {turn : AttachTurn} {id : String}
    (own : nonEmpty turn.conversationId = some id) (up : turn.redis.Up)
    (apart : turn.branchConversationId ≠ some id) :
    Grows (record workspaceId store id)
        (record workspaceId (attachServers parse workspaceId store turn).1 id) ∧
      (attachServers parse workspaceId store turn).2 =
        exposed (record workspaceId (attachServers parse workspaceId store turn).1 id)
          turn.servers := by
  have sticky : AttachedAppsService.get turn.redis.get store (attachedKey workspaceId id) =
      record workspaceId store id := by
    rw [AttachedAppsService.get, up.1]
    rfl
  unfold attachServers
  simp only [own, sticky]
  split
  · rename_i none
    refine ⟨Grows.refl _, ?_⟩
    have nothing : (turn.servers.filter fun server =>
        decide (server.name ∈ record workspaceId store id)) = [] :=
      List.map_eq_nil_iff.mp (List.append_eq_nil_iff.mp none).1
    rw [exposed, nothing]
    rfl
  · dsimp only
    rw [record_handToBranch workspaceId _ _ _ apart]
    have after : (AttachedAppsService.get turn.redis.mergeGet store (attachedKey workspaceId id)) =
        record workspaceId store id := by
      rw [AttachedAppsService.get, up.2.1]
      rfl
    dsimp only [AttachedAppsService.merge]
    rw [after, up.2.2, record_write]
    exact ⟨merged_grows parse _, rfl⟩

/-- A server without what a turn decides about it. -/
def RemoteMcpServer.bare (server : RemoteMcpServer) : RemoteMcpServer :=
  { server with enabledTools := none }

theorem bare_sublist (p : RemoteMcpServer → Bool) (tools : RemoteMcpServer → Option (List String))
    (servers : List RemoteMcpServer) :
    (((servers.filter p).map fun server => { server with enabledTools := tools server }).map
      RemoteMcpServer.bare).Sublist (servers.map RemoteMcpServer.bare) := by
  rw [List.map_map]
  exact List.filter_sublist.map _

/-- Whatever is attached, it is in the order of the connected servers. -/
theorem attachServers_order (store : AttachedStore) (turn : AttachTurn) :
    ((attachServers parse workspaceId store turn).2.map RemoteMcpServer.bare).Sublist
      (turn.servers.map RemoteMcpServer.bare) := by
  unfold attachServers
  cases nonEmpty turn.conversationId with
  | none =>
    dsimp only
    split
    · exact List.nil_sublist _
    · exact bare_sublist _ _ _
  | some id =>
    dsimp only
    split
    · exact List.nil_sublist _
    · exact bare_sublist _ _ _

/-- A turn of another conversation that does not branch into this one leaves its record. -/
theorem attachServers_other {store : AttachedStore} {turn : AttachTurn} {id : String}
    (other : nonEmpty turn.conversationId ≠ some id) (apart : turn.branchConversationId ≠ some id) :
    record workspaceId (attachServers parse workspaceId store turn).1 id =
      record workspaceId store id := by
  unfold attachServers
  cases named : nonEmpty turn.conversationId with
  | none =>
    dsimp only
    split
    · rfl
    · exact record_handToBranch workspaceId _ _ _ apart
  | some own =>
    have elsewhere : own ≠ id := fun same => other (named.trans (congrArg some same))
    dsimp only
    split
    · rfl
    · rw [record_handToBranch workspaceId _ _ _ apart]
      exact record_write_other workspaceId _ _ elsewhere _

/-! Runs -/

/-- A key of the store may expire between two turns. -/
inductive AttachAction where
  | turn (turn : AttachTurn)
  | expire (key : String)

def attachStep (store : AttachedStore) : AttachAction → AttachedStore
  | .turn turn => (attachServers parse workspaceId store turn).1
  | .expire key => Function.update store key none

abbrev AttachStep (store : AttachedStore) (a : AttachAction) (next : AttachedStore) : Prop :=
  attachStep parse workspaceId store a = next

/-- The record of conversation `id` stays: Redis answers its turns, it does not expire, and no turn
hands another attachment to it. -/
def Undisturbed (id : String) : AttachAction → Prop
  | .turn turn =>
    turn.branchConversationId ≠ some id ∧ (nonEmpty turn.conversationId = some id → turn.redis.Up)
  | .expire key => key ≠ attachedKey workspaceId id

/-- What a transition is where it is a turn of conversation `id`: the connected servers, and those
that it sends. -/
def turnOf (id : String) (x : Transition AttachedStore AttachAction) :
    Option (List RemoteMcpServer × List RemoteMcpServer) :=
  match x.label with
  | .turn turn =>
    if nonEmpty turn.conversationId = some id then
      some (turn.servers, (attachServers parse workspaceId x.pre turn).2)
    else none
  | .expire _ => none

/-- What an earlier turn, which sent `sent`, leaves to a later one. -/
structure Sticks (sent connected later : List RemoteMcpServer) : Prop where
  attached : ∀ a ∈ sent, ∀ b ∈ connected, b.name = a.name → ∃ c ∈ later, c.name = a.name
  whole : ∀ a ∈ sent, a.enabledTools = none → ∀ b ∈ later, b.name = a.name → b.enabledTools = none
  narrow : ∀ a ∈ sent, a.enabledTools ≠ none → ∀ b ∈ later, b.name = a.name → b.enabledTools ≠ none

theorem mem_exposed {apps : AttachedApps} {servers : List RemoteMcpServer} {a : RemoteMcpServer}
    (member : a ∈ exposed apps servers) :
    ∃ actions, apps.lookup a.name = some actions ∧ (actions = [] ↔ a.enabledTools = none) := by
  obtain ⟨server, chosen, rfl⟩ := List.mem_map.mp member
  have recorded := of_decide_eq_true (List.mem_filter.mp chosen).2
  obtain ⟨actions, found⟩ := Option.isSome_iff_exists.mp (AList.lookup_isSome.mpr recorded)
  refine ⟨actions, found, ?_⟩
  rw [found, Option.getD_some, exposedTools]
  split <;> simp_all

/-- What the record of the conversation has of an earlier turn's servers. -/
def Recorded (id : String) (x : Transition AttachedStore AttachAction) (store : AttachedStore) : Prop :=
  ∀ turn, turnOf parse workspaceId id x = some turn → ∀ a ∈ turn.2, ∃ actions,
    (record workspaceId store id).lookup a.name = some actions ∧ (actions = [] ↔ a.enabledTools = none)

theorem Grows.recorded {parse workspaceId} {id : String} {x : Transition AttachedStore AttachAction}
    {before after : AttachedStore}
    (grows : Grows (record workspaceId before id) (record workspaceId after id))
    (known : Recorded parse workspaceId id x before) : Recorded parse workspaceId id x after := by
  intro turn named a sent
  obtain ⟨actions, found, same⟩ := known turn named a sent
  obtain ⟨kept, stays, alike⟩ := grows a.name actions found
  exact ⟨kept, stays, alike.trans same⟩

theorem sticks_exposed {apps : AttachedApps} {sent : List RemoteMcpServer}
    (known : ∀ a ∈ sent, ∃ actions, apps.lookup a.name = some actions ∧
      (actions = [] ↔ a.enabledTools = none)) (connected : List RemoteMcpServer) :
    Sticks sent connected (exposed apps connected) := by
  have alike : ∀ a ∈ sent, ∀ b ∈ exposed apps connected, b.name = a.name →
      (a.enabledTools = none ↔ b.enabledTools = none) := by
    intro a early b late same
    obtain ⟨actions, found, first⟩ := known a early
    obtain ⟨actions', found', second⟩ := mem_exposed late
    rw [same, found] at found'
    cases found'
    exact first.symm.trans second
  constructor
  · intro a early b member same
    obtain ⟨actions, found, -⟩ := known a early
    have recorded : b.name ∈ apps := by
      rw [same]
      exact AList.lookup_isSome.mp (Option.isSome_iff_exists.mpr ⟨actions, found⟩)
    exact ⟨_, List.mem_map.mpr ⟨b, List.mem_filter.mpr ⟨member, decide_eq_true recorded⟩, rfl⟩, same⟩
  · exact fun a early whole b late same => (alike a early b late same).mp whole
  · exact fun a early narrow b late same whole => narrow ((alike a early b late same).mpr whole)

/-- The record only grows, and a turn of the conversation sends what it has then. -/
theorem attachStep_cases {store next : AttachedStore} {a : AttachAction} {id : String}
    (taken : AttachStep parse workspaceId store a next) (met : Undisturbed workspaceId id a) :
    Grows (record workspaceId store id) (record workspaceId next id) ∧
      ∀ turn, turnOf parse workspaceId id ⟨store, a, next⟩ = some turn →
        turn.2 = exposed (record workspaceId next id) turn.1 := by
  subst taken
  cases a with
  | expire key =>
    have kept : record workspaceId (Function.update store key none) id = record workspaceId store id := by
      rw [record, Function.update_of_ne (Ne.symm met), record]
    refine ⟨?_, fun turn named => by cases named⟩
    change Grows _ (record workspaceId (Function.update store key none) id)
    rw [kept]
    exact Grows.refl _
  | turn turn =>
    by_cases own : nonEmpty turn.conversationId = some id
    · obtain ⟨grows, sent⟩ := attachServers_own parse workspaceId own (met.2 own) met.1
      refine ⟨grows, fun seen named => ?_⟩
      simp only [turnOf, if_pos own] at named
      cases named
      exact sent
    · refine ⟨?_, fun seen named => ?_⟩
      · change Grows _ (record workspaceId (attachServers parse workspaceId store turn).1 id)
        rw [attachServers_other parse workspaceId own met.1]
        exact Grows.refl _
      · simp only [turnOf, if_neg own] at named
        cases named

/-- In every run, a server that one turn of the conversation has sent is sent by every later turn in
which it is still connected, whole where it was whole and narrow where it was narrow; and every turn
sends its servers in the order of the connected ones. -/
theorem attachment_sticks (id : String) {start store : AttachedStore}
    {steps : List (Transition AttachedStore AttachAction)}
    (run : Run (AttachStep parse workspaceId) start steps store)
    (met : ∀ x ∈ steps, Undisturbed workspaceId id x.label) :
    (steps.filterMap (turnOf parse workspaceId id)).Pairwise
        (fun earlier later => Sticks earlier.2 later.1 later.2) ∧
      ∀ turn ∈ steps.filterMap (turnOf parse workspaceId id),
        (turn.2.map RemoteMcpServer.bare).Sublist (turn.1.map RemoteMcpServer.bare) := by
  constructor
  · refine List.pairwise_filterMap.mpr ?_
    refine run.pairwise_of (Recorded parse workspaceId id)
      (fun x => Undisturbed workspaceId id x.label) _ ?_ ?_ met
    · intro s a t taken undisturbed turn named b sent
      rw [(attachStep_cases parse workspaceId taken undisturbed).2 turn named] at sent
      exact mem_exposed sent
    · intro x s a t known taken undisturbed
      obtain ⟨grows, sends⟩ := attachStep_cases parse workspaceId taken undisturbed
      refine ⟨grows.recorded known, fun earlier first later second => ?_⟩
      rw [sends later second]
      exact sticks_exposed (grows.recorded known earlier first) later.1
  · intro turn member
    obtain ⟨x, -, named⟩ := List.mem_filterMap.mp member
    unfold turnOf at named
    split at named
    · split at named
      · cases named
        exact attachServers_order parse workspaceId _ _
      · cases named
    · cases named

end

/-! A router and a catalogue that fail after the first turn -/

/-- `JSON.parse` of the two answers below. -/
def parsedAnswer : String → Option Json
  | "[\"google_ads\"]" => some (.arr [.str "google_ads"])
  | "[\"list-campaigns\"]" => some (.arr [.str "list-campaigns"])
  | _ => none

def server (slug : String) : RemoteMcpServer :=
  ⟨slug, "pipedream-acme-" ++ slug, "https://mcp.example/" ++ slug, none, none⟩

def tools : List AppTool :=
  ["list-campaigns", "list-budgets", "create-campaign", "pause-campaign", "list-ads"].map fun key =>
    ⟨key, none⟩

def opening : AttachTurn where
  conversationId := some "1712.0001"
  branchConversationId := none
  servers := [server "gmail", server "google_ads"]
  redis := {}
  serverRouter := .ok "[\"google_ads\"]"
  listAppTools _ := .ok tools
  actionRouter _ := .ok "Here: [\"list-campaigns\"]"

def followUp : AttachTurn :=
  { opening with
    serverRouter := .error (.other "timeout")
    listAppTools := fun _ => .error "unreachable" }

theorem outage_keeps_narrow :
    let first := attachServers parsedAnswer "acme" (fun _ => none) opening
    let second := attachServers parsedAnswer "acme" first.1 followUp
    (first.2.map fun server => (server.name, server.enabledTools)) =
        [("pipedream-acme-google_ads", some ["list-campaigns"])] ∧
      Sticks first.2 followUp.servers second.2 := by
  intro first second
  have run : Run (AttachStep parsedAnswer "acme") (fun _ => none)
      ([] ++ [⟨fun _ => none, .turn opening, first.1⟩] ++ [⟨first.1, .turn followUp, second.1⟩])
      second.1 :=
    (Run.nil.snoc rfl).snoc rfl
  have met : ∀ x ∈ ([] ++ [⟨fun _ => none, .turn opening, first.1⟩] ++
      [⟨first.1, .turn followUp, second.1⟩] : List (Transition AttachedStore AttachAction)),
      Undisturbed "acme" "1712.0001" x.label := by
    simp [Undisturbed, opening, followUp, RedisOutcome.Up]
  have ordered := (attachment_sticks parsedAnswer "acme" "1712.0001" run met).1
  have own : nonEmpty opening.conversationId = some "1712.0001" := by decide
  have later : nonEmpty followUp.conversationId = some "1712.0001" := own
  refine ⟨by decide +kernel, ?_⟩
  simpa [turnOf, own, later] using ordered

end Gomer.Ai
