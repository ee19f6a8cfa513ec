import Gomer.Ai.Attachment
import Gomer.Ai.McpBridge
import Gomer.Integrations.Connections
import Gomer.Lib.FormUrlencoded

/-! `AiService.run` up to its loop: the refusals, the servers and tools of the connections that
the requester may use, and the system prompt. The schemas of the tools and the fixed head of the
prompt are parameters. -/
namespace Gomer.Ai

open Integrations

inductive ProviderId where
  | anthropic
  | gateway
  deriving DecidableEq, Repr

/-- A `ModelDefinition`, as far as a run reads it. -/
structure CatalogModel where
  id : String
  name : String
  provider : ProviderId
  supportsRemoteMcp : Bool
  supportsAdaptiveThinking : Option Bool

/-- An entry of `AI_GATEWAY_MODELS` with an id and a name. -/
structure GatewayModelConfig where
  id : String
  name : String

def runnableAnthropicModels : List CatalogModel :=
  [⟨"claude-sonnet-5", "Claude Sonnet 5", .anthropic, true, some true⟩,
    ⟨"claude-opus-4-8", "Claude Opus 4.8", .anthropic, true, some true⟩]

def gatewayModel (entry : GatewayModelConfig) : CatalogModel :=
  ⟨entry.id, entry.name, .gateway, false, none⟩

/-- The tool lists of the tool files. -/
structure ToolSpecs where
  spaceTools : List ToolSpec
  workspaceTools : List ToolSpec
  memoryTools : List ToolSpec
  metaAdsTools : List ToolSpec
  roasTools : List ToolSpec
  ruleTools : List ToolSpec
  sheetsTools : List ToolSpec

structure Deployment where
  model : String
  gatewayModels : List GatewayModelConfig
  anthropicConfigured : Bool
  gatewayConfigured : Bool
  frontendUrl : String
  pipedreamProjectId : String
  pipedreamEnvironment : String
  systemPrompt : String
  specs : ToolSpecs

structure RunWorkspace where
  defaultModel : Option String
  personalityTone : Option String
  workspaceInstructions : Option String

structure RunOptions where
  model : Option String
  taskId : Option Uuid
  sourceName : Option String
  confirmVia : Option ConfirmMode
  history : List ConversationTurn
  conversationId : Option String
  branchConversationId : Option String

structure RunArguments where
  workspaceId : UuidText
  userId : Option UuidText
  prompt : String
  options : RunOptions

/-- What the preparation reads and is answered. `nudge` is the low-balance line, where one will be
due. -/
structure PrepareWorld where
  workspace : RunWorkspace
  balance : Int
  table : IntegrationTable
  userName : UuidText → Option String
  accessToken : Except HttpException String
  requesterName : Option String
  memoryBlock : Option String
  listTools : RemoteMcpServer → List ToolSpec
  toolRouter : RouterAnswer
  redis : RedisOutcome
  serverRouter : RouterAnswer
  listAppTools : String → Except String (List AppTool)
  actionRouter : String → RouterAnswer
  nudge : Option String

def hexDigitValue (c : Char) : Nat := if c.isDigit then c.toNat - 48 else c.toNat - 87

/-- The number that a uuid is printed from. -/
def uuidOf (id : UuidText) : Uuid :=
  (id.text.toList.filter (· ≠ '-')).foldl (fun n c => 16 * n + hexDigitValue c) 0

/-! The model -/

section
variable (deployment : Deployment)

def catalog : List CatalogModel :=
  runnableAnthropicModels ++ deployment.gatewayModels.map gatewayModel

def resolveModel (modelId : String) : Option CatalogModel :=
  (catalog deployment).find? fun model => model.id == modelId

def isConfigured : ProviderId → Bool
  | .anthropic => deployment.anthropicConfigured
  | .gateway => deployment.gatewayConfigured

def ProviderId.text : ProviderId → String
  | .anthropic => "anthropic"
  | .gateway => "gateway"

def outOfCredits : String :=
  let billingUrl := deployment.frontendUrl ++ "/dashboard/billing"
  "This workspace is out of credits, so I can't run that request. " ++
  "Top up at <" ++ billingUrl ++ "|" ++ billingUrl ++ "> and I'll pick right back up."

def unknownModel (modelId : String) : String :=
  let settingsUrl := deployment.frontendUrl ++ "/dashboard/settings/general"
  "I'm set to use \"" ++ modelId ++ "\", which isn't a model I recognise. Pick another one at " ++
  "<" ++ settingsUrl ++ "|" ++ settingsUrl ++ ">."

def noCredentials (model : CatalogModel) : String :=
  let settingsUrl := deployment.frontendUrl ++ "/dashboard/settings/general"
  "I'm set to use " ++ model.name ++ ", but this deployment has no " ++ model.provider.text ++
  " credentials " ++
  "configured. Pick a different model at <" ++ settingsUrl ++ "|" ++ settingsUrl ++ ">."

end

/-! The servers -/

/-- `PipedreamService.buildMcpServers` for one app of an external user. -/
def mcpServerUrl (deployment : Deployment) (externalUserId appSlug : String) : String :=
  "https://remote.mcp.pipedream.net/v3?" ++ String.ofList (FormUrlencoded.serialize
    [("projectId".toList, deployment.pipedreamProjectId.toList),
      ("environment".toList, deployment.pipedreamEnvironment.toList),
      ("externalUserId".toList, externalUserId.toList), ("app".toList, appSlug.toList)])

def mcpServerName (externalUserId appSlug : String) : String :=
  "pipedream-" ++ String.ofList (McpBridge.sanitize externalUserId) ++ "-" ++ appSlug

def buildMcpServers (deployment : Deployment) (externalUserId : String) (appSlugs : List String)
    (token : String) : List RemoteMcpServer :=
  appSlugs.map fun appSlug =>
    ⟨appSlug, mcpServerName externalUserId appSlug, mcpServerUrl deployment externalUserId appSlug,
      some token, none⟩

/-- The active accounts that the requester may use. -/
def usable (args : RunArguments) (world : PrepareWorld) : List ConnectedIntegrationView :=
  (findVisibleForUser world.table args.workspaceId world.userName args.userId).filter (·.isActive)

/-- The apps connected through Pipedream at one level. -/
def slugsAt (accessLevel : IntegrationAccessLevel) (connected : List ConnectedIntegrationView) :
    List String :=
  (((connected.filter fun c => c.provider == .pipedream).filter fun c =>
    c.accessLevel == accessLevel).map (·.appSlug)).eraseDups

def pipedreamServers (deployment : Deployment) (args : RunArguments)
    (connected : List ConnectedIntegrationView) (token : String) : List RemoteMcpServer :=
  buildMcpServers deployment args.workspaceId.text (slugsAt .team connected) token ++
    match args.userId with
    | some userId =>
      buildMcpServers deployment (privateExternalUserId userId) (slugsAt .ownerOnly connected) token
    | none => []

/-- The token is asked for where there is a server to give it to. -/
def serversOf (deployment : Deployment) (args : RunArguments) (world : PrepareWorld) :
    Except HttpException (List RemoteMcpServer) :=
  let connected := usable args world
  if (pipedreamServers deployment args connected "").isEmpty then .ok []
  else world.accessToken.map (pipedreamServers deployment args connected)

/-! The local tools -/

def hasMeta (connected : List ConnectedIntegrationView) : Bool :=
  connected.any fun c => c.provider == .metaAds

def hasApp (appSlug : String) (connected : List ConnectedIntegrationView) : Bool :=
  connected.any fun c => c.provider == .pipedream && c.appSlug == appSlug

/-- Verified ROAS needs both sides. -/
def hasRoas (connected : List ConnectedIntegrationView) : Bool :=
  hasMeta connected && hasApp "stripe" connected

def hasSheets (connected : List ConnectedIntegrationView) : Bool := hasApp "google_sheets" connected

def localToolsOf (specs : ToolSpecs) (connected : List ConnectedIntegrationView) : List ToolSpec :=
  specs.spaceTools ++ specs.workspaceTools ++ specs.memoryTools ++
    (if hasMeta connected then specs.metaAdsTools else []) ++
    (if hasRoas connected then specs.roasTools else []) ++
    (if hasMeta connected then specs.ruleTools else []) ++
    (if hasSheets connected then specs.sheetsTools else [])

/-! The system prompt -/

section
variable (args : RunArguments)

def describeConnection (connection : ConnectedIntegrationView) : String :=
  let label := if connection.provider = .metaAds then "Meta Ads"
    else if connection.appName = "" then connection.appSlug else connection.appName
  let account := nonEmpty (connection.nickname.or connection.accountName)
  let ownership :=
    if connection.accessLevel = .ownerOnly then "the requester's own private account"
    else if args.userId = some connection.userId then
      "shared team account, connected by the requester"
    else "shared team account" ++
      ((nonEmpty connection.userName).map (", connected by " ++ ·)).getD ""
  label ++ " (" ++ ownership ++ (account.map ("; account: " ++ ·)).getD "" ++ ")"

def connectionLines (connected : List ConnectedIntegrationView) : List String :=
  (connected.map (describeConnection args)).eraseDups

def appsText (connected : List ConnectedIntegrationView) : String :=
  match connectionLines args connected with
  | [] => "\n\nNo apps are connected in this workspace yet."
  | lines => "\n\nApps connected and usable right now:\n" ++
      "\n".intercalate (lines.map fun line => "• " ++ line)

def requesterText (deployment : Deployment) (requesterName : Option String) : String :=
  match args.userId.bind fun _ => requesterName with
  | some name => "\n\nThe requester is " ++ name ++ ", a member of this workspace."
  | none =>
    if args.options.sourceName = some "slack" then
      "\n\nThe requester could not be matched to a workspace member account, so only shared " ++
      "team apps are listed — anything they connected privately is not reachable in this run. " ++
      "If they ask for personal data or for an app that is missing, tell them to sign in with " ++
      "Slack at <" ++ deployment.frontendUrl ++ "|" ++ deployment.frontendUrl ++
      "> so their account and private connections link up."
    else ""

end

def personalityInstructions : List (String × String) :=
  [("friendly",
      "Tone: warm and conversational. Greet the user by name when you know it, acknowledge what " ++
      "they asked before answering, and keep the register informal — without padding the answer."),
    ("professional",
      "Tone: formal and businesslike. Use complete sentences, avoid contractions, slang, and " ++
      "emoji, and present numbers precisely with their units and time period."),
    ("concise",
      "Tone: maximally terse. Answer in as few words as the question allows, prefer fragments " ++
      "and bare numbers over sentences, and omit all preamble, restatement, and closing offers.")]

def roasGuidance : String :=
  "\n\nBoth Meta Ads and Stripe are connected, so you can VERIFY ad performance instead of " ++
  "trusting Meta's self-reported conversions: use verify_roas to pair Meta spend with actual " ++
  "Stripe revenue for any profitability question (\"what's our real ROAS?\"). Prefer it over " ++
  "Meta-only numbers, present both when they differ, and always mention its caveats (blended " ++
  "revenue, currency notes). Past results are queryable with list_roas_snapshots."

def sheetsGuidance : String :=
  "\n\nGoogle Sheets is connected TWO ways and you have both. First, the Google Sheets app " ++
  "itself, whose ordinary actions do anything a person could do in Sheets — list the " ++
  "spreadsheets in the account, read a sheet, search, add or update arbitrary rows. Use " ++
  "those for any normal spreadsheet request; never tell the user you cannot list or read " ++
  "their spreadsheets, and never send them to connect Google Drive for something the " ++
  "Sheets app already covers. Second, on top of that, two reporting tools that write " ++
  "Gaspo's own datasets — verified ROAS runs, Meta campaign performance, and rule-engine " ++
  "actions: export_to_sheet for a one-off report and create_scheduled_export for a " ++
  "recurring one (\"every Monday put last week's numbers in the sheet\"), which runs on its " ++
  "own and appends only new rows so the sheet builds a history. Those two are ONLY for " ++
  "those three datasets; everything else goes through the app's own actions. Reuse a " ++
  "remembered sheet (e.g. an \"export_sheet_id\" fact) instead of creating new spreadsheets " ++
  "each time, remember the sheet id the first time one is created, and always give the " ++
  "user the spreadsheet link."

def rulesGuidance : String :=
  "\n\nYou can set up automated ad rules with create_ad_rule: scheduled checks that alert, " ++
  "pause, or scale campaigns/ad sets when a metric (CPA, ROAS, spend…) breaches a threshold — " ++
  "e.g. overnight pausing of losing campaigns or morning budget scaling of winners. " ++
  "Pause/scale rules act autonomously within guardrails and report to Slack afterwards, so " ++
  "ALWAYS describe the full rule (metric, threshold, window, action, schedule, guardrails) and " ++
  "get explicit confirmation before creating one. Use remembered targets (e.g. target_roas) as " ++
  "sensible defaults. Manage rules with list_ad_rules, set_ad_rule_active, and delete_ad_rule. " ++
  "Separately, an automatic hourly monitor alerts on CPA spikes, ROAS drops, and spend spikes " ++
  "(vs the trailing 7 days) once the workspace has an \"alerts_channel\" fact — if the user asks " ++
  "for automatic alerts, ask which channel and remember_fact its channel ID as alerts_channel."

def buttonsGuidance : String :=
  "\n\nFor Meta Ads write actions (create/update/delete a campaign, ad set, creative, or " ++
  "ad; changing budgets or status), do NOT ask for confirmation in your text. Instead call " ++
  "the appropriate tool directly with your best parameters. Calling it does not execute " ++
  "anything — the platform automatically pauses and shows the user Approve/Cancel buttons, " ++
  "and only runs the action if they approve. First gather any ids you need with read tools, " ++
  "then call the one write tool and, in one short line, state exactly what you are about to do."

def confirmViaOf (options : RunOptions) : ConfirmMode := options.confirmVia.getD .inline

def systemOf (deployment : Deployment) (args : RunArguments) (world : PrepareWorld) : String :=
  let connected := usable args world
  deployment.systemPrompt ++ appsText args connected ++
    requesterText args deployment world.requesterName ++
    ((nonEmpty world.memoryBlock).map ("\n\n" ++ ·)).getD "" ++
    ((personalityInstructions.lookup (world.workspace.personalityTone.getD "")).map
      ("\n\n" ++ ·)).getD "" ++
    ((nonEmpty (world.workspace.workspaceInstructions.map trim)).map
      ("\n\nWorkspace instructions (set by an admin of this workspace — follow them unless " ++
        "they conflict with the confirmation rules above):\n" ++ ·)).getD "" ++
    (if hasRoas connected then roasGuidance else "") ++
    (if hasSheets connected then sheetsGuidance else "") ++
    (if hasMeta connected then rulesGuidance else "") ++
    (if confirmViaOf args.options = .buttons ∧ hasMeta connected then buttonsGuidance else "")

/-! The connected apps of the run -/

def routeThreshold : Nat := 20
def maxBridgedTools : Nat := 60

/-- `ToolRouterService.selectRelevant`; `none` keeps them all. -/
def selectRelevant (parse : String → Option Json) (answer : RouterAnswer)
    (candidates : List ToolSpec) : Option (List ToolSpec) :=
  if candidates.length ≤ routeThreshold then none
  else
    match chooseNames parse answer with
    | none => none
    | some names =>
      match (candidates.take maxCandidatesInPrompt).filter fun tool => names.contains tool.name with
      | [] => none
      | tool :: rest => some (tool :: rest)

/-- What reaches the model of the connected apps: a bridged toolset, or servers. -/
structure Attached where
  bridged : Option McpBridge.BridgedToolset
  mcpServers : List RemoteMcpServer
  reachableApps : List String

section
variable (parse : String → Option Json) (fuel : Nat) (args : RunArguments) (world : PrepareWorld)

def attachTurnOf (servers : List RemoteMcpServer) : AttachTurn where
  conversationId := args.options.conversationId
  branchConversationId := args.options.branchConversationId
  servers := servers
  redis := world.redis
  serverRouter := world.serverRouter
  listAppTools := world.listAppTools
  actionRouter := world.actionRouter

def attach (store : AttachedStore) (model : CatalogModel) (servers : List RemoteMcpServer) :
    Option (AttachedStore × Attached) :=
  if model.supportsRemoteMcp then
    let sending := if servers.isEmpty then (store, [])
      else attachServers parse args.workspaceId.text store (attachTurnOf args world servers)
    some (sending.1, ⟨none, sending.2, servers.map (·.appSlug)⟩)
  else do
    let bridged ← McpBridge.buildToolset fuel
      (servers.map fun server => (server, world.listTools server))
    let keep := (selectRelevant parse world.toolRouter bridged.tools).getD bridged.tools
    some (store, ⟨some (bridged.narrowTo keep maxBridgedTools), [], bridged.apps⟩)

def contextOf (deployment : Deployment) (model : CatalogModel) (attached : Attached) :
    RunContext where
  workspaceId := uuidOf args.workspaceId
  userId := args.userId.map uuidOf
  model := model.id
  adaptiveThinking := model.supportsAdaptiveThinking.getD false
  system := systemOf deployment args world
  localTools := localToolsOf deployment.specs (usable args world)
  hasMeta := hasMeta (usable args world)
  bridged := attached.bridged.map McpBridge.BridgedToolset.slugs
  mcpServers := attached.mcpServers
  reachableApps := attached.reachableApps
  confirmVia := confirmViaOf args.options
  history := args.options.history
  prompt := args.prompt
  taskId := args.options.taskId
  sourceName := args.options.sourceName
  nudge := world.nudge

/-- The preparation with what it leaves in Redis, and the exception that it may end in. -/
def prepare (deployment : Deployment) (store : AttachedStore) :
    Option (AttachedStore × Except HttpException (Prepared × Option Attached)) :=
  let modelId := (args.options.model.or world.workspace.defaultModel).getD deployment.model
  if world.balance ≤ 0 then some (store, .ok (.refused (outOfCredits deployment), none))
  else
    match resolveModel deployment modelId with
    | none => some (store, .ok (.refused (unknownModel deployment modelId), none))
    | some model =>
      if isConfigured deployment model.provider = false then
        some (store, .ok (.refused (noCredentials deployment model), none))
      else
        match serversOf deployment args world with
        | .error e => some (store, .error e)
        | .ok servers => do
          let (store, attached) ← attach parse fuel args world store model servers
          some (store, .ok (.ready (contextOf args world deployment model attached), some attached))

end

end Gomer.Ai
