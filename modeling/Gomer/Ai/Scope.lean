import Gomer.Ai.Prepare
import Gomer.Ai.Turns
import Gomer.Lib.Tally

/-! Whose accounts a run reaches: every server and every bridged tool of its requests is one of an
account that the requester may use. -/
namespace Gomer.Ai

open Integrations

/-- Postgres prints a uuid in lower-case hexadecimal digits and hyphens. -/
def Printed (id : UuidText) : Prop := ∀ c ∈ id.text.toList, c ∈ "0123456789abcdef-".toList

instance (id : UuidText) : Decidable (Printed id) := List.decidableBAll _ _

/-- The parameters of a server's address. -/
def routing (deployment : Deployment) (externalUserId appSlug : String) :
    List FormUrlencoded.Param :=
  [("projectId".toList, deployment.pipedreamProjectId.toList),
    ("environment".toList, deployment.pipedreamEnvironment.toList),
    ("externalUserId".toList, externalUserId.toList), ("app".toList, appSlug.toList)]

/-- An active account of the workspace that the requester may use, and the server for it: its
address is read as the account's external user and app. -/
structure Serves (deployment : Deployment) (args : RunArguments) (table : IntegrationTable)
    (server : RemoteMcpServer) (row : Integration) : Prop where
  listed : row ∈ table.rows
  inside : row.workspaceId = args.workspaceId
  active : row.isActive = true
  pipedream : row.provider = .pipedream
  visible : row.accessLevel = .team ∨ row.accessLevel = .ownerOnly ∧ args.userId = some row.userId
  app : server.appSlug = row.appSlug
  name : server.name = mcpServerName
    (resolveExternalUserId args.workspaceId row.userId row.accessLevel) row.appSlug
  address : ∃ query, server.url = "https://remote.mcp.pipedream.net/v3?" ++ String.ofList query ∧
    FormUrlencoded.parse query = routing deployment
      (resolveExternalUserId args.workspaceId row.userId row.accessLevel) row.appSlug

def Served (deployment : Deployment) (args : RunArguments) (table : IntegrationTable)
    (server : RemoteMcpServer) : Prop :=
  ∃ row, Serves deployment args table server row

/-! The servers of the connections -/

theorem parse_mcpServerUrl (deployment : Deployment) (externalUserId appSlug : String) :
    ∃ query, mcpServerUrl deployment externalUserId appSlug =
        "https://remote.mcp.pipedream.net/v3?" ++ String.ofList query ∧
      FormUrlencoded.parse query = routing deployment externalUserId appSlug :=
  ⟨_, rfl, FormUrlencoded.parse_serialize _⟩

theorem mem_usable {args : RunArguments} {world : PrepareWorld} {c : ConnectedIntegrationView}
    (member : c ∈ usable args world) :
    ∃ row ∈ world.table.rows, c = toView world.userName row ∧
      row.workspaceId = args.workspaceId ∧ visibleTo args.userId row = true ∧
      row.isActive = true := by
  obtain ⟨seen, active⟩ := List.mem_filter.mp member
  obtain ⟨row, sorted, rfl⟩ := List.mem_map.mp seen
  obtain ⟨listed, allowed⟩ := List.mem_filter.mp (List.mem_mergeSort.mp sorted)
  obtain ⟨inside, visible⟩ := Bool.and_eq_true_iff.mp allowed
  exact ⟨row, listed, rfl, beq_iff_eq.mp inside, visible, active⟩

theorem mem_slugsAt {accessLevel : IntegrationAccessLevel} {slug : String}
    {connected : List ConnectedIntegrationView} (member : slug ∈ slugsAt accessLevel connected) :
    ∃ c ∈ connected, c.provider = .pipedream ∧ c.accessLevel = accessLevel ∧ c.appSlug = slug := by
  obtain ⟨c, kept, rfl⟩ := List.mem_map.mp (List.mem_eraseDups.mp member)
  obtain ⟨found, level⟩ := List.mem_filter.mp kept
  obtain ⟨listed, provider⟩ := List.mem_filter.mp found
  exact ⟨c, listed, beq_iff_eq.mp provider, beq_iff_eq.mp level, rfl⟩

section
variable {deployment : Deployment} {args : RunArguments} {world : PrepareWorld}

theorem serves_slug {accessLevel : IntegrationAccessLevel} {slug externalUserId token : String}
    (member : slug ∈ slugsAt accessLevel (usable args world))
    (scope : ∀ row : Integration, row.accessLevel = accessLevel → visibleTo args.userId row = true →
      externalUserId = resolveExternalUserId args.workspaceId row.userId row.accessLevel) :
    Served deployment args world.table ⟨slug, mcpServerName externalUserId slug,
      mcpServerUrl deployment externalUserId slug, some token, none⟩ := by
  obtain ⟨c, found, provider, level, rfl⟩ := mem_slugsAt member
  obtain ⟨row, listed, rfl, inside, visible, active⟩ := mem_usable found
  have same := scope row level visible
  refine ⟨row, listed, inside, active, provider, ?_, rfl, by rw [same]; rfl, ?_⟩
  · cases seen : row.accessLevel with
    | team => exact .inl rfl
    | ownerOnly =>
      have own : args.userId = some row.userId := by simpa [visibleTo, seen] using visible
      exact .inr ⟨rfl, own⟩
  · rw [← same]
    exact parse_mcpServerUrl deployment externalUserId _

theorem pipedreamServers_served (token : String) :
    ∀ server ∈ pipedreamServers deployment args (usable args world) token,
      Served deployment args world.table server := by
  intro server member
  rcases List.mem_append.mp member with team | own
  · obtain ⟨slug, listed, rfl⟩ := List.mem_map.mp team
    refine serves_slug listed fun row level _ => ?_
    rw [level]
    rfl
  · cases asker : args.userId with
    | none => simp [asker] at own
    | some userId =>
      rw [asker] at own
      obtain ⟨slug, listed, rfl⟩ := List.mem_map.mp own
      refine serves_slug listed fun row level visible => ?_
      have owner : userId = row.userId := by simpa [visibleTo, level, asker] using visible
      rw [level, owner]
      rfl

/-! Their names -/

theorem sanitize_printed {id : UuidText} (printed : Printed id) :
    McpBridge.sanitize id.text = id.text.toList := by
  have plain : ∀ c ∈ "0123456789abcdef-".toList, McpBridge.isNameChar c = true :=
    List.all_eq_true.mp (by decide)
  have each : ∀ chars : List Char, (∀ c ∈ chars, McpBridge.isNameChar c = true) →
      (chars.flatMap fun c => if McpBridge.isNameChar c then [c]
        else List.replicate (if c.toNat < 65536 then 1 else 2) '_') = chars := by
    intro chars clean
    induction chars with
    | nil => rfl
    | cons c rest ih => simp_all
  exact each _ fun c member => plain c (printed c member)

theorem sanitize_private (id : UuidText) :
    McpBridge.sanitize (privateExternalUserId id) =
      'u' :: '_' :: McpBridge.sanitize id.text := by
  simp [McpBridge.sanitize, privateExternalUserId, McpBridge.isNameChar]

theorem mcpServerName_inj {externalUserId a b : String}
    (same : mcpServerName externalUserId a = mcpServerName externalUserId b) : a = b :=
  (String.append_right_inj _).mp same

theorem mcpServerName_scopes {workspaceId userId : UuidText} (printed : Printed workspaceId)
    (a b : String) :
    mcpServerName workspaceId.text a ≠ mcpServerName (privateExternalUserId userId) b := by
  intro same
  have chars := congrArg String.toList same
  simp only [mcpServerName, sanitize_printed printed, sanitize_private, String.toList_append,
    String.toList_ofList, List.append_assoc, List.append_cancel_left_eq] at chars
  have long : workspaceId.text.toList ≠ [] := by
    intro empty
    have size := workspaceId.length
    rw [← String.length_toList, empty] at size
    cases size
  obtain ⟨c, rest, shape⟩ := List.exists_cons_of_ne_nil long
  rw [shape] at chars
  obtain rfl := (List.cons.inj chars).1
  have digit := printed 'u' (by simp [shape])
  revert digit
  decide

theorem buildMcpServers_names (externalUserId token : String) (slugs : List String) :
    (buildMcpServers deployment externalUserId slugs token).map (·.name) =
      slugs.map (mcpServerName externalUserId) := by
  simp [buildMcpServers]

/-- A team account and a private account of one app are two servers. -/
theorem pipedreamServers_names (printed : Printed args.workspaceId) (token : String)
    (connected : List ConnectedIntegrationView) :
    ((pipedreamServers deployment args connected token).map (·.name)).Nodup := by
  have once : ∀ externalUserId accessLevel,
      ((slugsAt accessLevel connected).map (mcpServerName externalUserId)).Nodup :=
    fun externalUserId accessLevel =>
      (Tally.nodup_eraseDups _).map fun _ _ same => mcpServerName_inj same
  unfold pipedreamServers
  rw [List.map_append, buildMcpServers_names]
  cases args.userId with
  | none => simpa using once args.workspaceId.text .team
  | some userId =>
    dsimp only
    rw [buildMcpServers_names]
    refine List.nodup_append.mpr ⟨once _ _, once _ _, fun a first b second same => ?_⟩
    obtain ⟨slug, _, rfl⟩ := List.mem_map.mp first
    obtain ⟨other, _, rfl⟩ := List.mem_map.mp second
    exact mcpServerName_scopes printed slug other same

end

/-! What is attached of them -/

theorem mem_attachServers (parse : String → Option Json) (workspaceId : String)
    (store : AttachedStore) (turn : AttachTurn) {server : RemoteMcpServer}
    (member : server ∈ (attachServers parse workspaceId store turn).2) :
    ∃ connected ∈ turn.servers, server.appSlug = connected.appSlug ∧ server.name = connected.name ∧
      server.url = connected.url := by
  have kept := (attachServers_order parse workspaceId store turn).subset
    (List.mem_map_of_mem (f := RemoteMcpServer.bare) member)
  obtain ⟨connected, listed, same⟩ := List.mem_map.mp kept
  have fields := congrArg (fun s : RemoteMcpServer => (s.appSlug, s.name, s.url)) same
  simp only [RemoteMcpServer.bare, Prod.mk.injEq] at fields
  exact ⟨connected, listed, fields.1.symm, fields.2.1.symm, fields.2.2.symm⟩

theorem attachServers_names (parse : String → Option Json) (workspaceId : String)
    (store : AttachedStore) (turn : AttachTurn) (distinct : (turn.servers.map (·.name)).Nodup) :
    ((attachServers parse workspaceId store turn).2.map (·.name)).Nodup := by
  have kept := (attachServers_order parse workspaceId store turn).map (·.name)
  simp only [List.map_map] at kept
  exact distinct.sublist kept

namespace McpBridge

/-- Every routed tool is one of a server that has `P`, and every listed tool is routed. -/
structure Owned (P : RemoteMcpServer → Prop) (toolset : BridgedToolset) : Prop where
  routed : ∀ name routing, toolset.byExposedName.lookup name = some routing → P routing.server
  listed : ∀ tool ∈ toolset.tools, (toolset.byExposedName.lookup tool.name).isSome = true

variable {P : RemoteMcpServer → Prop} {toolset : BridgedToolset}

theorem Owned.expose (owned : Owned P toolset) {item : RemoteMcpServer × ToolSpec} (own : P item.1)
    (exposed : String) : Owned P (expose toolset item exposed) := by
  constructor
  · intro name routing found
    by_cases here : name = exposed
    · subst here
      rw [McpBridge.expose, AList.lookup_insert] at found
      cases found
      exact own
    · rw [McpBridge.expose, AList.lookup_insert_ne here] at found
      exact owned.routed name routing found
  · intro tool member
    rcases List.mem_append.mp member with old | new
    · by_cases here : tool.name = exposed
      · rw [here, McpBridge.expose, AList.lookup_insert]
        rfl
      · rw [McpBridge.expose, AList.lookup_insert_ne here]
        exact owned.listed tool old
    · obtain rfl := List.mem_singleton.mp new
      simp [McpBridge.expose]

theorem turn_owned {fuel : Nat} {queues left : List Listing} {next : BridgedToolset}
    (owned : Owned P toolset) (own : ∀ queue ∈ queues, P queue.1)
    (ran : turn fuel toolset queues = some (next, left)) :
    Owned P next ∧ ∀ queue ∈ left, P queue.1 := by
  induction queues generalizing toolset left with
  | nil =>
    cases ran
    exact ⟨owned, own⟩
  | cons queue queues ih =>
    obtain ⟨server, remaining⟩ := queue
    obtain ⟨first, others⟩ := List.forall_mem_cons.mp own
    unfold turn at ran
    split at ran
    · cases ran
      exact ⟨owned, own⟩
    · cases remaining with
      | nil =>
        obtain ⟨⟨middle, rest⟩, later, same⟩ := Option.bind_eq_some_iff.mp ran
        cases same
        obtain ⟨after, kept⟩ := ih owned others later
        exact ⟨after, List.forall_mem_cons.mpr ⟨first, kept⟩⟩
      | cons remote remaining =>
        obtain ⟨exposing, made, ran⟩ := Option.bind_eq_some_iff.mp ran
        obtain ⟨⟨middle, rest⟩, later, same⟩ := Option.bind_eq_some_iff.mp ran
        cases same
        obtain ⟨exposed, -, rfl⟩ := Option.map_eq_some_iff.mp made
        obtain ⟨after, kept⟩ := ih (owned.expose first exposed) others later
        exact ⟨after, List.forall_mem_cons.mpr ⟨first, kept⟩⟩

theorem turns_owned {fuel n : Nat} {queues : List Listing} {next : BridgedToolset}
    (owned : Owned P toolset) (own : ∀ queue ∈ queues, P queue.1)
    (ran : turns fuel n toolset queues = some next) : Owned P next := by
  induction n generalizing toolset queues with
  | zero => cases ran
  | succ n ih =>
    rw [turns] at ran
    split at ran
    · obtain ⟨⟨middle, left⟩, one, rest⟩ := Option.bind_eq_some_iff.mp ran
      obtain ⟨after, kept⟩ := turn_owned owned own one
      exact ih after kept rest
    · cases ran
      exact owned

theorem buildToolset_owned {fuel : Nat} {listings : List Listing} {next : BridgedToolset}
    (own : ∀ listing ∈ listings, P listing.1) (ran : buildToolset fuel listings = some next) :
    Owned P next := by
  refine turns_owned ⟨fun name routing found => ?_, fun tool member => ?_⟩
    (fun queue member => own queue (List.mem_filter.mp member).1) ran
  · simp at found
  · cases member

theorem Owned.narrowTo (owned : Owned P toolset) {keep : List ToolSpec}
    (known : keep.Sublist toolset.tools) (limit : Nat) : Owned P (toolset.narrowTo keep limit) := by
  obtain ⟨tools, narrowed⟩ := narrowTo_narrowed toolset keep limit
  constructor
  · intro name routing found
    rw [narrowed.routed] at found
    split at found
    · exact owned.routed name routing found
    · cases found
  · intro tool member
    rw [tools] at member
    rw [narrowed.routed, if_pos (List.mem_map_of_mem member)]
    exact owned.listed tool (known.subset (List.mem_of_mem_take member))

end McpBridge

theorem selectRelevant_sublist {parse : String → Option Json} {answer : RouterAnswer}
    {candidates keep : List ToolSpec} (selected : selectRelevant parse answer candidates = some keep) :
    keep.Sublist candidates := by
  unfold selectRelevant at selected
  split at selected
  · cases selected
  · split at selected
    · cases selected
    · split at selected
      · cases selected
      · rename_i chosen
        cases selected
        rw [← chosen]
        exact List.filter_sublist.trans (List.take_sublist _ _)

/-! The prepared run -/

/-- Of the connected apps, only those of accounts that the requester may use. -/
structure Attached.Within (deployment : Deployment) (args : RunArguments) (table : IntegrationTable)
    (attached : Attached) : Prop where
  servers : ∀ server ∈ attached.mcpServers, Served deployment args table server
  distinct : (attached.mcpServers.map (·.name)).Nodup
  bridged : ∀ toolset, attached.bridged = some toolset →
    McpBridge.Owned (Served deployment args table) toolset

theorem Serves.renamed {deployment : Deployment} {args : RunArguments} {table : IntegrationTable}
    {server other : RemoteMcpServer} {row : Integration}
    (serves : Serves deployment args table other row) (app : server.appSlug = other.appSlug)
    (name : server.name = other.name) (url : server.url = other.url) :
    Serves deployment args table server row :=
  { serves with
    app := app.trans serves.app
    name := name.trans serves.name
    address := by rw [url]; exact serves.address }

theorem attach_within {deployment : Deployment} {args : RunArguments} {world : PrepareWorld}
    {parse : String → Option Json} {fuel : Nat} {store after : AttachedStore} {model : CatalogModel}
    {servers : List RemoteMcpServer} {attached : Attached}
    (served : ∀ server ∈ servers, Served deployment args world.table server)
    (distinct : (servers.map (·.name)).Nodup)
    (made : attach parse fuel args world store model servers = some (after, attached)) :
    attached.Within deployment args world.table := by
  unfold attach at made
  split at made
  · cases made
    have none : ∀ toolset : McpBridge.BridgedToolset, (none : Option McpBridge.BridgedToolset) =
        some toolset → McpBridge.Owned (Served deployment args world.table) toolset := by simp
    cases servers with
    | nil => exact ⟨by simp, by simp, none⟩
    | cons first rest =>
      refine ⟨fun server member => ?_, ?_, none⟩
      · obtain ⟨connected, listed, app, name, url⟩ := mem_attachServers parse _ _ _ member
        obtain ⟨row, serves⟩ := served connected listed
        exact ⟨row, serves.renamed app name url⟩
      · exact attachServers_names parse _ _ _ distinct
  · obtain ⟨toolset, built, same⟩ := Option.bind_eq_some_iff.mp made
    cases same
    have owned : McpBridge.Owned (Served deployment args world.table) toolset := by
      refine McpBridge.buildToolset_owned (fun listing member => ?_) built
      obtain ⟨server, listed, rfl⟩ := List.mem_map.mp member
      exact served server listed
    refine ⟨by simp, by simp, fun narrowed same => ?_⟩
    cases same
    refine owned.narrowTo ?_ _
    cases selected : selectRelevant parse world.toolRouter toolset.tools with
    | none => exact List.Sublist.refl _
    | some keep => exact selectRelevant_sublist selected

/-! The loop -/

/-- What an event has of the connected apps of the context. -/
def Keeps (ctx : RunContext) : Event → Prop
  | .sent request => (request.mcpServers = ctx.mcpServers ∨ request.mcpServers = []) ∧
      ∀ tool ∈ request.tools, tool ∈ ctx.localTools ∨
        ∃ toolset, ctx.bridged = some toolset ∧ tool ∈ toolset.tools
  | .executed call true => ∃ toolset, ctx.bridged = some toolset ∧ toolset.has call.name = true
  | _ => True

structure Keeping (ctx : RunContext) (s : RunState) : Prop where
  servers : s.mcpServers = ctx.mcpServers ∨ s.mcpServers = []
  bridged : s.bridged = ctx.bridged ∨ s.bridged = none
  tools : ∀ tool ∈ s.tools, tool ∈ ctx.localTools ∨
    ∃ toolset, ctx.bridged = some toolset ∧ tool ∈ toolset.tools
  log : ∀ event ∈ s.log, Keeps ctx event

theorem Executes.keeps {ctx : RunContext} {confirmVia : ConfirmMode} {bridged : Option BridgedToolset}
    {pending after : Option AiPendingAction} {calls : List ToolCall} {events : List Event}
    (kept : bridged = ctx.bridged ∨ bridged = none)
    (ran : Executes confirmVia bridged pending calls after events) :
    ∀ event ∈ events, Keeps ctx event := by
  induction ran with
  | nil => simp
  | @cons pending after call rest later made gated tail ih =>
    have first : Keeps ctx (.executed call (isBridged bridged call.name)) := by
      cases routed : isBridged bridged call.name with
      | false => trivial
      | true =>
        obtain ⟨toolset, present, has⟩ := (Option.any_eq_true _ _).mp routed
        rcases kept with same | gone
        · exact ⟨toolset, same.symm.trans present, has⟩
        · rw [gone] at present
          cases present
    intro event member
    simp only [List.cons_append, List.mem_cons, List.mem_append, List.mem_map] at member
    rcases member with rfl | ⟨m, _, rfl⟩ | rest
    · exact first
    · trivial
    · exact ih event rest

section
variable {ctx : RunContext} {s t u : RunState}

theorem Keeping.request (keeping : Keeping ctx s) : Keeps ctx (.sent (requestOf ctx s)) :=
  ⟨keeping.servers, keeping.tools⟩

theorem Keeping.dropped (keeping : Keeping ctx s) : Keeping ctx (dropConnectors ctx s) :=
  ⟨.inr rfl, .inr rfl, fun _ listed => .inl listed, keeping.log⟩

theorem Keeping.note (keeping : Keeping ctx s) {events : List Event}
    (each : ∀ event ∈ events, Keeps ctx event) : Keeping ctx (s.note events) :=
  { keeping with log := by simpa [RunState.note, or_imp, forall_and] using ⟨keeping.log, each⟩ }

theorem Keeping.asked {world : TurnWorld} {outcome : Except ProviderError ProviderResponse}
    (keeping : Keeping ctx s) (asked : Asked ctx world s (t, outcome)) : Keeping ctx t := by
  have first := keeping.request
  have again := keeping.dropped.request
  cases asked with
  | answered outcome => exact keeping.note (by simpa [Keeps] using first)
  | failed outcome fatal => exact keeping.note (by simpa [Keeps] using first)
  | retried outcome dropped retry =>
    exact keeping.dropped.note (by simpa [Keeps] using ⟨first, again⟩)
  | gaveUp outcome dropped retry =>
    exact keeping.dropped.note (by simpa [Keeps] using ⟨first, again⟩)

theorem Keeping.continued {response : ProviderResponse} {more : Bool} (keeping : Keeping ctx t)
    (continued : Continued ctx (receive t response) response (more, u)) : Keeping ctx u := by
  cases continued with
  | executed stop calls ran ids =>
    have each := ran.keeps keeping.bridged
    exact { keeping with log := by simpa [or_imp, forall_and] using ⟨keeping.log, each⟩ }
  | askedForLess | gaveUp | paused | answered => exact { keeping with }

theorem Keeping.started (ctx : RunContext) : Keeping ctx (startRun ctx) := by
  refine ⟨.inl rfl, .inl rfl, fun tool member => ?_, by simp [startRun]⟩
  rcases List.mem_append.mp member with here | bridged
  · exact .inl here
  · cases present : ctx.bridged with
    | none => simp [present] at bridged
    | some toolset =>
      rw [present] at bridged
      exact .inr ⟨toolset, rfl, bridged⟩

theorem loop_keeping (ctx : RunContext) (worlds : Nat → TurnWorld) :
    Keeping ctx (loop ctx maxIterations worlds (startRun ctx)).1 :=
  loop_rule ctx (I := fun _ _ s => Keeping ctx s) (Q := fun s _ => Keeping ctx s)
    (fun _ _ keeping => keeping)
    (fun _ _ _ _ _ keeping asked => keeping.asked asked)
    (fun _ _ _ _ _ _ keeping asked continued => (keeping.asked asked).continued continued)
    (fun _ _ _ _ _ _ keeping asked continued => (keeping.asked asked).continued continued)
    (Keeping.started ctx)

theorem run_keeps (ctx : RunContext) (worlds : Nat → TurnWorld) :
    ∀ event ∈ (run (.ready ctx) worlds).log, Keeps ctx event := by
  have keeping := loop_keeping ctx worlds
  unfold run
  dsimp only
  split
  · rename_i s e ended
    rw [ended] at keeping
    exact keeping.log
  · rename_i s ended
    rw [ended] at keeping
    dsimp only [recordUsage]
    split
    · exact keeping.log
    · exact (keeping.note (by simp [Keeps])).log

end

/-! A whole run -/

/-- What the log of a run reaches of the workspace's connections. -/
structure Confined (deployment : Deployment) (args : RunArguments) (world : PrepareWorld)
    (attached : Option Attached) (log : List Event) : Prop where
  servers : ∀ request, .sent request ∈ log → ∀ server ∈ request.mcpServers,
    Served deployment args world.table server
  distinct : ∀ request, .sent request ∈ log → (request.mcpServers.map (·.name)).Nodup
  foreign : ∀ request, .sent request ∈ log → ∀ server ∈ request.mcpServers,
    ∀ owner, args.userId ≠ some owner → ∀ query,
      server.url = "https://remote.mcp.pipedream.net/v3?" ++ String.ofList query →
      ("externalUserId".toList, (privateExternalUserId owner).toList) ∉ FormUrlencoded.parse query
  tools : ∀ request, .sent request ∈ log → ∀ tool ∈ request.tools,
    tool ∈ localToolsOf deployment.specs (usable args world) ∨
      ∃ toolset routing, attached.bind (·.bridged) = some toolset ∧
        toolset.byExposedName.lookup tool.name = some routing ∧
        Served deployment args world.table routing.server
  calls : ∀ call, .executed call true ∈ log →
    ∃ toolset routing, attached.bind (·.bridged) = some toolset ∧
      toolset.byExposedName.lookup call.name = some routing ∧
      Served deployment args world.table routing.server
  paid : log ≠ [] → 0 < world.balance ∧
    ∃ model ∈ catalog deployment, isConfigured deployment model.provider = true

section
variable {deployment : Deployment} {args : RunArguments} {world : PrepareWorld}

theorem privateExternalUserId_inj {a b : UuidText}
    (same : privateExternalUserId a = privateExternalUserId b) : a = b :=
  uuid_ext ((String.append_right_inj _).mp same)

theorem externalUser_foreign {row : Integration} {owner : UuidText}
    (visible : row.accessLevel = .team ∨ row.accessLevel = .ownerOnly ∧ args.userId = some row.userId)
    (other : args.userId ≠ some owner) :
    resolveExternalUserId args.workspaceId row.userId row.accessLevel ≠
      privateExternalUserId owner := by
  intro same
  rcases visible with team | ⟨own, asker⟩
  · rw [team] at same
    have long := congrArg String.length same
    rw [resolveExternalUserId, args.workspaceId.length, privateExternalUserId, String.length_append,
      owner.length] at long
    revert long
    decide
  · rw [own] at same
    exact other (asker.trans (congrArg some (privateExternalUserId_inj same)))

theorem Serves.foreign {table : IntegrationTable} {server : RemoteMcpServer} {row : Integration}
    (serves : Serves deployment args table server row) {owner : UuidText}
    (other : args.userId ≠ some owner) {query : List Char}
    (url : server.url = "https://remote.mcp.pipedream.net/v3?" ++ String.ofList query) :
    ("externalUserId".toList, (privateExternalUserId owner).toList) ∉ FormUrlencoded.parse query := by
  obtain ⟨own, address, read⟩ := serves.address
  have same : own = query := by
    have texts := (String.append_right_inj _).mp (address.symm.trans url)
    simpa using congrArg String.toList texts
  rw [← same, read]
  intro member
  have value : (privateExternalUserId owner).toList =
      (resolveExternalUserId args.workspaceId row.userId row.accessLevel).toList := by
    simpa [routing] using member
  exact externalUser_foreign serves.visible other (String.toList_inj.mp value).symm

theorem serversOf_served (printed : Printed args.workspaceId) {servers : List RemoteMcpServer}
    (resolved : serversOf deployment args world = .ok servers) :
    (∀ server ∈ servers, Served deployment args world.table server) ∧
      (servers.map (·.name)).Nodup := by
  simp only [serversOf] at resolved
  split at resolved
  · cases resolved
    exact ⟨by simp, by simp⟩
  · cases token : world.accessToken with
    | error e => simp [token, Except.map] at resolved
    | ok text =>
      rw [token] at resolved
      cases resolved
      exact ⟨pipedreamServers_served text, pipedreamServers_names printed text _⟩

theorem Confined.nothing (attached : Option Attached) :
    Confined deployment args world attached [] :=
  ⟨by simp, by simp, by simp, by simp, by simp, by simp⟩

/-- What the context is given decides what its run reaches. -/
theorem confined_of_within {model : CatalogModel} {attached : Attached} {log : List Event}
    (within : attached.Within deployment args world.table)
    (keeps : ∀ event ∈ log, Keeps (contextOf args world deployment model attached) event)
    (paid : 0 < world.balance) (known : model ∈ catalog deployment)
    (configured : isConfigured deployment model.provider = true) :
    Confined deployment args world (some attached) log := by
  have reached : ∀ request, .sent request ∈ log → ∀ server ∈ request.mcpServers,
      server ∈ attached.mcpServers := by
    intro request sent server member
    rcases (keeps _ sent).1 with same | none
    · rw [same] at member
      exact member
    · rw [none] at member
      cases member
  have bridge : ∀ toolset, (contextOf args world deployment model attached).bridged = some toolset →
      ∃ bridged, attached.bridged = some bridged ∧ bridged.slugs = toolset := by
    intro toolset present
    exact Option.map_eq_some_iff.mp present
  constructor
  · exact fun request sent server member =>
      within.servers server (reached request sent server member)
  · intro request sent
    rcases (keeps _ sent).1 with same | none
    · rw [same]
      exact within.distinct
    · simp [none]
  · intro request sent server member owner other query url
    obtain ⟨row, serves⟩ := within.servers server (reached request sent server member)
    exact serves.foreign other url
  · intro request sent tool member
    refine ((keeps _ sent).2 tool member).imp id ?_
    rintro ⟨toolset, present, listed⟩
    obtain ⟨bridged, here, rfl⟩ := bridge toolset present
    have owned := within.bridged bridged here
    obtain ⟨routing, found⟩ := Option.isSome_iff_exists.mp (owned.listed tool listed)
    exact ⟨bridged, routing, here, found, owned.routed _ _ found⟩
  · intro call executed
    obtain ⟨toolset, present, has⟩ := keeps _ executed
    obtain ⟨bridged, here, rfl⟩ := bridge toolset present
    rw [McpBridge.slugs_has] at has
    obtain ⟨routing, found⟩ := Option.isSome_iff_exists.mp has
    exact ⟨bridged, routing, here, found, (within.bridged bridged here).routed _ _ found⟩
  · exact fun _ => ⟨paid, model, known, configured⟩

theorem prepare_confined {parse : String → Option Json} {fuel : Nat} {store after : AttachedStore}
    {prepared : Prepared} {attached : Option Attached} (printed : Printed args.workspaceId)
    (made : prepare parse fuel args world deployment store = some (after, .ok (prepared, attached)))
    (worlds : Nat → TurnWorld) :
    Confined deployment args world attached (run prepared worlds).log := by
  simp only [prepare] at made
  split at made
  · cases made
    exact .nothing none
  · rename_i credits
    split at made
    · cases made
      exact .nothing none
    · rename_i model found
      split at made
      · cases made
        exact .nothing none
      · rename_i configured
        split at made
        · cases made
        · rename_i servers resolved
          obtain ⟨⟨next, apps⟩, attaching, same⟩ := Option.bind_eq_some_iff.mp made
          cases same
          obtain ⟨served, distinct⟩ := serversOf_served printed resolved
          exact confined_of_within (attach_within served distinct attaching) (run_keeps _ worlds)
            (Int.not_le.mp credits) (List.mem_of_find?_eq_some found)
            (Bool.eq_true_of_not_eq_false configured)

/-! The preparation ends -/

theorem buildToolset_ends (listings : List McpBridge.Listing) :
    ∃ enough, ∀ fuel, enough ≤ fuel → (McpBridge.buildToolset fuel listings).isSome = true := by
  let queues := listings.filter fun listing => !listing.2.isEmpty
  refine ⟨RoundRobin.total queues + McpBridge.maxCandidateTools + 2, fun fuel more => ?_⟩
  have room : McpBridge.maxCandidateTools + 2 ≤ fuel := by omega
  obtain ⟨toolset, ran, -⟩ := McpBridge.turns_exposes room fuel queues (by omega)
    McpBridge.exposes_empty
  exact Option.isSome_iff_exists.mpr ⟨toolset, ran⟩

theorem attach_ends (parse : String → Option Json) (args : RunArguments) (world : PrepareWorld)
    (store : AttachedStore) (model : CatalogModel) (servers : List RemoteMcpServer) :
    ∃ enough, ∀ fuel, enough ≤ fuel →
      (attach parse fuel args world store model servers).isSome = true := by
  obtain ⟨enough, ends⟩ := buildToolset_ends
    (servers.map fun server => (server, world.listTools server))
  refine ⟨enough, fun fuel more => ?_⟩
  obtain ⟨toolset, built⟩ := Option.isSome_iff_exists.mp (ends fuel more)
  unfold attach
  split
  · rfl
  · rw [built]
    rfl

theorem prepare_ends (parse : String → Option Json) (store : AttachedStore) :
    ∃ enough, ∀ fuel, enough ≤ fuel →
      (prepare parse fuel args world deployment store).isSome = true := by
  simp only [prepare]
  split
  · exact ⟨0, fun _ _ => rfl⟩
  · split
    · exact ⟨0, fun _ _ => rfl⟩
    · rename_i model found
      split
      · exact ⟨0, fun _ _ => rfl⟩
      · split
        · exact ⟨0, fun _ _ => rfl⟩
        · rename_i servers resolved
          obtain ⟨enough, ends⟩ := attach_ends parse args world store model servers
          refine ⟨enough, fun fuel more => ?_⟩
          obtain ⟨made, attached⟩ := Option.isSome_iff_exists.mp (ends fuel more)
          rw [attached]
          rfl

end

/-- The preparation ends, and in every run from it, whatever the model answers, each server of a
request and each bridged tool is one of an account that the requester may use, no server is under
another member's private scope, and without credits or a configured model nothing is sent. -/
theorem run_confined (deployment : Deployment) (args : RunArguments) (world : PrepareWorld)
    (parse : String → Option Json) (store : AttachedStore) (printed : Printed args.workspaceId) :
    (∃ enough, ∀ fuel, enough ≤ fuel →
      (prepare parse fuel args world deployment store).isSome = true) ∧
    ∀ fuel after prepared attached,
      prepare parse fuel args world deployment store = some (after, .ok (prepared, attached)) →
      ∀ worlds, Confined deployment args world attached (run prepared worlds).log :=
  ⟨prepare_ends parse store, fun _ _ _ _ made worlds => prepare_confined printed made worlds⟩

/-! Ada's run, beside a private account of Bob's -/

def acmeId : UuidText := ⟨"11111111-1111-4111-8111-111111111111", by decide⟩
def adaId : UuidText := ⟨"22222222-2222-4222-8222-222222222222", by decide⟩
def bobId : UuidText := ⟨"33333333-3333-4333-8333-333333333333", by decide⟩

def account (id userId : UuidText) (slug : String) (accessLevel : IntegrationAccessLevel) :
    Integration :=
  { confirmed ⟨slug, some slug, some slug, none, none, some true⟩ ⟨slug, slug, accessLevel, none⟩
      |>.assign (createConnection acmeId userId slug ⟨id, 0⟩) with }

def acmeTable : IntegrationTable where
  rows := [account adaId adaId "gmail" .ownerOnly, account bobId bobId "notion" .ownerOnly]
  idKey := by decide
  accountKey := by decide

def acmeDeployment : Deployment :=
  ⟨"claude-sonnet-5", [], true, false, "https://app.example", "proj_1", "production", "",
    ⟨[], [], [], [], [], [], []⟩⟩

def adaAsks : RunArguments :=
  ⟨acmeId, some adaId, "how are my campaigns doing", ⟨none, none, none, none, [], none, none⟩⟩

def acmeWorld : PrepareWorld where
  workspace := ⟨none, none, none⟩
  balance := 400
  table := acmeTable
  userName _ := none
  accessToken := .ok "token"
  requesterName := none
  memoryBlock := none
  listTools _ := []
  toolRouter := .error (.other "timeout")
  redis := {}
  serverRouter := .error (.other "timeout")
  listAppTools _ := .error "unreachable"
  actionRouter _ := .error (.other "timeout")
  nudge := none

theorem ada_reaches_her_accounts :
    ((serversOf acmeDeployment adaAsks acmeWorld).toOption.map fun servers => servers.map (·.name)) =
        some ["pipedream-u_22222222-2222-4222-8222-222222222222-gmail"] ∧
      ∀ fuel after prepared attached,
        prepare parsedAnswer fuel adaAsks acmeWorld acmeDeployment (fun _ => none) =
          some (after, .ok (prepared, attached)) →
        ∀ worlds, Confined acmeDeployment adaAsks acmeWorld attached (run prepared worlds).log :=
  ⟨by decide +kernel, (run_confined acmeDeployment adaAsks acmeWorld parsedAnswer (fun _ => none)
    (by decide)).2⟩

end Gomer.Ai
