import Gomer.Ai.Tools
import Gomer.Usage.Spend

/-! `AiService.run`: the loop of model calls, with a log of everything it sends, receives and
executes, and the usage it records. -/
namespace Gomer.Ai

open JsNumber (Double)

/-! The provider -/

inductive ProviderMessage where
  | user (content : String)
  | assistant (content : String) (toolCalls : List ToolCall) (raw : Option Json)
  | tool (results : List ToolResult)

structure RemoteMcpServer where
  appSlug : String
  name : String
  url : String
  authorizationToken : Option String
  enabledTools : Option (List String)

structure ProviderRequest where
  model : String
  system : String
  messages : List ProviderMessage
  tools : List ToolSpec
  mcpServers : List RemoteMcpServer
  adaptiveThinking : Bool

/-- `end`, `tool_use`, `pause` and `truncated`. -/
inductive ProviderStopReason where
  | ended
  | toolUse
  | pause
  | truncated
  deriving DecidableEq, Repr

/-- A tool invoked during a run, by us or by the provider. -/
structure AiAction where
  app : String
  tool : String
  isError : Bool

/-- The cached tokens are already counted in `inputTokens`. -/
structure ProviderUsage where
  inputTokens : Nat
  outputTokens : Nat
  cacheWriteTokens : Option Nat
  cacheReadTokens : Option Nat
  costUsd : Option Double
  resolvedModel : Option String
  cached : cacheWriteTokens.getD 0 + cacheReadTokens.getD 0 ≤ inputTokens

structure ProviderResponse where
  text : String
  toolCalls : List ToolCall
  remoteActivity : List AiAction
  usage : ProviderUsage
  stopReason : ProviderStopReason
  raw : Json

inductive ProviderError where
  | mcpConnection (message : String)
  | other (message : String)
  deriving DecidableEq, Repr

def ProviderError.isMcpConnection : ProviderError → Bool
  | .mcpConnection _ => true
  | .other _ => false

/-! What a run is given, and what it meets -/

inductive ConversationTurn where
  | user (content : String)
  | assistant (content : String)

/-- What `run` has resolved when the loop starts. `nudge` is the low-balance line, where one
is due. -/
structure RunContext where
  workspaceId : Uuid
  userId : Option Uuid
  model : String
  adaptiveThinking : Bool
  system : String
  localTools : List ToolSpec
  hasMeta : Bool
  bridged : Option BridgedToolset
  mcpServers : List RemoteMcpServer
  reachableApps : List String
  confirmVia : ConfirmMode
  history : List ConversationTurn
  prompt : String
  taskId : Option Uuid
  sourceName : Option String
  nudge : Option String

/-- Without credits or a usable model, a run ends in an answer. -/
inductive Prepared where
  | refused (answer : String)
  | ready (context : RunContext)

/-- One iteration: the outcome of `create`, of the retry, and of each tool. -/
structure TurnWorld where
  create : Except ProviderError ProviderResponse
  retry : Except ProviderError ProviderResponse
  tools : Nat → ToolWorld

structure RecordedUsage where
  input : RecordUsageInput
  providerCostUsd : Option Double

inductive Event where
  | sent (request : ProviderRequest)
  | received (response : ProviderResponse)
  | failed (error : ProviderError)
  | executed (call : ToolCall) (toBridge : Bool)
  | calledMeta (call : ToolCall) (request : MetaAdsCall)
  | recorded (usage : RecordedUsage)

/-- The variables of the loop, and the log with its earliest entry first. -/
structure RunState where
  messages : List ProviderMessage
  actions : List AiAction
  spaces : List AiSpace
  pending : Option AiPendingAction
  answer : String
  inputTokens : Nat
  outputTokens : Nat
  cacheWriteTokens : Nat
  cacheReadTokens : Nat
  costUsd : Option Double
  resolvedModel : Option String
  truncations : Nat
  tools : List ToolSpec
  mcpServers : List RemoteMcpServer
  bridged : Option BridgedToolset
  appSlugs : List String
  appsAvailable : Bool
  log : List Event

structure AiRunResult where
  answer : String
  connectedApps : List String
  actions : List AiAction
  spaces : List AiSpace
  pendingAction : Option AiPendingAction

def maxTruncatedRetries : Nat := 1

def truncatedAnswer : String :=
  "That was too long for me to write in one reply, so I stopped rather than publish it cut off. " ++
  "Ask for a shorter version, or for it in parts and I will add each part to the page."

def notRun : String :=
  "Not run: your reply reached the output limit before this call was complete. " ++
  "Try again with less, e.g. a shorter page, or build it and then add to it with edits."

def trim (text : String) : String := String.ofList (JsNumber.trim text.toList)

def ConversationTurn.message : ConversationTurn → ProviderMessage
  | .assistant content => .assistant content [] none
  | .user content => .user content

def RunState.say (s : RunState) (message : ProviderMessage) : RunState :=
  { s with messages := s.messages ++ [message] }

def RunState.note (s : RunState) (events : List Event) : RunState :=
  { s with log := s.log ++ events }

/-! The loop -/

section
variable (ctx : RunContext)

def startRun : RunState where
  messages := ctx.history.map ConversationTurn.message ++ [.user ctx.prompt]
  actions := []
  spaces := []
  pending := none
  answer := ""
  inputTokens := 0
  outputTokens := 0
  cacheWriteTokens := 0
  cacheReadTokens := 0
  costUsd := none
  resolvedModel := none
  truncations := 0
  tools := ctx.localTools ++ (ctx.bridged.map (·.tools)).getD []
  mcpServers := ctx.mcpServers
  bridged := ctx.bridged
  appSlugs := (ctx.reachableApps ++ if ctx.hasMeta then ["meta_ads"] else []).eraseDups
  appsAvailable := !ctx.reachableApps.isEmpty || ctx.hasMeta
  log := []

def requestOf (s : RunState) : ProviderRequest :=
  ⟨ctx.model, ctx.system, s.messages, s.tools, s.mcpServers, ctx.adaptiveThinking⟩

/-- The connectors are dropped for the rest of the run. -/
def dropConnectors (s : RunState) : RunState :=
  { s with
    mcpServers := []
    bridged := none
    tools := ctx.localTools
    appSlugs := if ctx.hasMeta then ["meta_ads"] else []
    appsAvailable := ctx.hasMeta }

/-- `provider.create`, once more without the connectors where one of them was unreachable. -/
def createResponse (world : TurnWorld) (s : RunState) :
    RunState × Except ProviderError ProviderResponse :=
  let sent := s.note [.sent (requestOf ctx s)]
  match world.create with
  | .ok response => (sent.note [.received response], .ok response)
  | .error e =>
    let failed := sent.note [.failed e]
    if s.mcpServers.isEmpty || !e.isMcpConnection then (failed, .error e)
    else
      let dropped := dropConnectors ctx failed
      let again := dropped.note [.sent (requestOf ctx dropped)]
      match world.retry with
      | .ok response => (again.note [.received response], .ok response)
      | .error e => (again.note [.failed e], .error e)

def receive (s : RunState) (response : ProviderResponse) : RunState :=
  { s with
    inputTokens := s.inputTokens + response.usage.inputTokens
    outputTokens := s.outputTokens + response.usage.outputTokens
    cacheWriteTokens := s.cacheWriteTokens + response.usage.cacheWriteTokens.getD 0
    cacheReadTokens := s.cacheReadTokens + response.usage.cacheReadTokens.getD 0
    costUsd := (response.usage.costUsd.map (s.costUsd.getD (.finite 0)).add).or s.costUsd
    resolvedModel := (nonEmpty response.usage.resolvedModel).or s.resolvedModel
    answer := s.answer ++ response.text
    actions := s.actions ++ response.remoteActivity }

def execute (world : ToolWorld) (s : RunState) (call : ToolCall) : RunState × ToolResult :=
  let run := runTool ctx.confirmVia world s.pending s.spaces call s.bridged
  let app := (s.bridged.filter (·.has call.name)).elim (localToolApp call.name) (·.appFor call.name)
  let s := { s with
    pending := run.pending
    spaces := run.spaces
    actions := s.actions ++ [⟨app, call.name, run.isError⟩]
    log := s.log ++ .executed call (isBridged s.bridged call.name) ::
      run.metaAds.map (.calledMeta call) }
  (s, toolResult call run)

def executeAll : (Nat → ToolWorld) → RunState → List ToolCall → RunState × List ToolResult
  | _, s, [] => (s, [])
  | worlds, s, call :: rest =>
    let first := execute ctx (worlds 0) s call
    let later := executeAll (fun i => worlds (i + 1)) first.1 rest
    (later.1, first.2 :: later.2)

/-- What an iteration makes of a response; `true` means one more iteration. -/
def answerTurn (worlds : Nat → ToolWorld) (s : RunState) (response : ProviderResponse) :
    Bool × RunState :=
  if response.stopReason == .toolUse && !response.toolCalls.isEmpty then
    let asked := s.say (.assistant response.text response.toolCalls (some response.raw))
    let done := executeAll ctx worlds asked response.toolCalls
    (true, done.1.say (.tool done.2))
  else if response.stopReason == .truncated && !response.toolCalls.isEmpty then
    -- the calls may be cut off: they are answered without being run
    let s := { s with truncations := s.truncations + 1 }
    if maxTruncatedRetries < s.truncations then
      let gap := if trim s.answer = "" then "" else "\n\n"
      (false, { s with answer := s.answer ++ gap ++ truncatedAnswer })
    else
      let asked := s.say (.assistant response.text response.toolCalls (some response.raw))
      (true, asked.say (.tool (response.toolCalls.map fun call => ⟨call.id, call.name, notRun, true⟩)))
  else if response.stopReason == .pause then
    (true, s.say (.assistant response.text [] (some response.raw)))
  else (false, s)

/-- The iterations that are left; an exception of `create` ends the run. -/
def loop : Nat → (Nat → TurnWorld) → RunState → RunState × Option ProviderError
  | 0, _, s => (s, none)
  | n + 1, worlds, s =>
    match createResponse ctx (worlds 0) s with
    | (s, .error e) => (s, some e)
    | (s, .ok response) =>
      match answerTurn ctx (worlds 0).tools (receive s response) response with
      | (true, s) => loop n (fun i => worlds (i + 1)) s
      | (false, s) => (s, none)

def maxIterations : Nat := 6

/-! Metering and the result -/

def usageInput (s : RunState) : RecordedUsage where
  input :=
    { workspaceId := ctx.workspaceId
      userId := ctx.userId
      taskId := ctx.taskId
      model := ctx.model
      inputTokens := s.inputTokens
      outputTokens := s.outputTokens
      cacheWriteTokens := some s.cacheWriteTokens
      cacheReadTokens := some s.cacheReadTokens
      sourceName := ctx.sourceName.getD "ai.run"
      type := some (if ctx.taskId.isSome then .scheduledTask else .thread)
      resolvedModel := s.resolvedModel }
  providerCostUsd := s.costUsd

/-- A failure to store the event is swallowed. -/
def recordUsage (s : RunState) : RunState :=
  if s.inputTokens + s.outputTokens ≤ 0 then s else s.note [.recorded (usageInput ctx s)]

def resultOf (s : RunState) : AiRunResult where
  answer := trim (s.answer ++ if trim s.answer = "" then "" else ctx.nudge.getD "")
  connectedApps := if s.appsAvailable then s.appSlugs else []
  actions := s.actions
  spaces := s.spaces
  pendingAction := s.pending

end

structure RunOutcome where
  result : Except ProviderError AiRunResult
  log : List Event

def run (prepared : Prepared) (worlds : Nat → TurnWorld) : RunOutcome :=
  match prepared with
  | .refused answer => ⟨.ok ⟨answer, [], [], [], none⟩, []⟩
  | .ready ctx =>
    match loop ctx maxIterations worlds (startRun ctx) with
    | (s, some e) => ⟨.error e, s.log⟩
    | (s, none) => ⟨.ok (resultOf ctx s), (recordUsage ctx s).log⟩

/-! A run with an ad account and nothing else -/

def adManager (confirmVia : ConfirmMode) : RunContext where
  workspaceId := 1
  userId := some 2
  model := "claude-sonnet"
  adaptiveThinking := false
  system := "You are Gaspo."
  localTools := []
  hasMeta := true
  bridged := none
  mcpServers := []
  reachableApps := []
  confirmVia := confirmVia
  history := []
  prompt := "Pause the summer campaign."
  taskId := none
  sourceName := none
  nudge := none

/-- Meta answers every call. -/
def adAccount : ToolWorld where
  bridgedContent := ""
  bridgedIsError := false
  metaToken := .ok (some "token")
  stripeKey := .ok none
  metaResult := .ok (.obj [("success", .bool true)])
  service := .ok "done"
  space := ⟨"summer", "Summer", "https://summer.example"⟩
  exportWindow := none
  exportRow := none

/-- A response of 900 tokens in and 80 out. -/
def reply (text : String) (toolCalls : List ToolCall) (stopReason : ProviderStopReason) :
    ProviderResponse where
  text := text
  toolCalls := toolCalls
  remoteActivity := []
  usage := ⟨900, 80, none, none, none, none, Nat.zero_le 900⟩
  stopReason := stopReason
  raw := .null

def turn (create : Except ProviderError ProviderResponse) : TurnWorld :=
  ⟨create, create, fun _ => adAccount⟩

def pauseCampaign : ToolCall :=
  ⟨"call_1", "meta_ads_update_campaign",
    .obj [("campaign_id", .str "120"), ("status", .str "PAUSED"), ("confirmed", .bool true)]⟩

end Gomer.Ai
