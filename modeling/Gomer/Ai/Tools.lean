import Gomer.Ai.MetaAdsTools

/-! `AiService.runTool`: where a tool call is routed, and the Marketing API calls it ends in. -/
namespace Gomer.Ai

/-- How a run gates writes: the `confirmed` flag, or buttons. -/
inductive ConfirmMode where
  | inline
  | buttons
  deriving DecidableEq, Repr

structure ToolSpec where
  name : String
  description : String
  parameters : Json

/-- The provider's `input` may be any JSON. -/
structure ToolCall where
  id : String
  name : String
  input : Json

structure ToolResult where
  id : String
  name : String
  content : String
  isError : Bool

structure AiPendingAction where
  app : String
  tool : String
  label : String
  input : Json

structure AiSpace where
  slug : String
  name : String
  url : String

/-- `byExposedName` with the app slug of each tool's server. -/
structure BridgedToolset where
  byExposedName : List (String × String)
  apps : List String
  tools : List ToolSpec

def BridgedToolset.has (toolset : BridgedToolset) (name : String) : Bool :=
  (toolset.byExposedName.lookup name).isSome

def BridgedToolset.appFor (toolset : BridgedToolset) (name : String) : String :=
  (toolset.byExposedName.lookup name).getD "app"

/-! What a tool meets -/

/-- A scheduled export, as far as a run of it calls the Marketing API. -/
structure ExportTarget where
  dataset : String
  adAccountId : Option String

/-- The answers of everything outside: the bridge, the connections, the Marketing API, and the
services behind the other tools, with the text of a result or the message of an exception. -/
structure ToolWorld where
  bridgedContent : String
  bridgedIsError : Bool
  metaToken : Except String (Option String)
  stripeKey : Except String (Option String)
  metaResult : Except String Json
  service : Except String String
  space : AiSpace
  exportWindow : Option (String × String)
  exportRow : Option ExportTarget

/-- What a tool returns, calls and leaves. -/
structure ToolRun where
  content : String
  isError : Bool
  metaAds : List MetaAdsCall
  pending : Option AiPendingAction
  spaces : List AiSpace

/-! The Meta Ads tools -/

def notExecutedYet : String :=
  "Not executed yet — this change needs the user’s approval, which will be requested " ++
  "via Approve/Cancel buttons shown under your reply. In your reply, state exactly what " ++
  "you will do (account, campaign/ad set, budget, status) in one short paragraph, then " ++
  "stop. Do not call this tool again and do not claim it is done."

def notConfirmed : String :=
  "Not executed: this changes a live ad account. Describe the exact action to the user, " ++
  "get their explicit confirmation, then call again with confirmed=true."

def noMetaConnection : String :=
  "No active Meta Ads connection is available for this workspace."

/-- `value === true` -/
def isTrue : Option Json → Bool
  | some (.bool value) => value
  | _ => false

/-- What the approval buttons are asked about. -/
def proposedAction (call : ToolCall) : AiPendingAction :=
  ⟨"meta_ads", call.name, (metaWriteLabels.lookup call.name).getD call.name, orEmpty call.input⟩

section
variable (confirmVia : ConfirmMode) (world : ToolWorld) (pending : Option AiPendingAction)
  (spaces : List AiSpace) (call : ToolCall)

def runMetaAdsTool : ToolRun :=
  let input := orEmpty call.input
  let isWrite := metaAdsWriteToolNames.contains call.name
  if isWrite && confirmVia == .buttons then
    -- only the first write of a run is captured
    ⟨notExecutedYet, false, [], pending.or (some (proposedAction call)), spaces⟩
  else
    let failed (message : String) (calls : List MetaAdsCall) : ToolRun :=
      ⟨"Meta Ads request failed: " ++ message, true, calls, pending, spaces⟩
    match world.metaToken with
    | .error message => failed message []
    | .ok token =>
      if nonEmpty token = none then ⟨noMetaConnection, true, [], pending, spaces⟩
      else if isWrite && !isTrue (input.get? "confirmed") then
        ⟨notConfirmed, false, [], pending, spaces⟩
      else
        match dispatchMetaAdsTool call.name input with
        | .error message => failed message []
        | .ok request =>
          match world.metaResult with
          | .ok result => ⟨String.ofList result.stringify, false, [request], pending, spaces⟩
          | .error message => failed message [request]

/-! The other local tools -/

/-- A tool whose executor turns every exception into a result. -/
def runServiceTool (failure : String) (calls : List MetaAdsCall) : ToolRun :=
  match world.service with
  | .ok content => ⟨content, false, calls, pending, spaces⟩
  | .error message => ⟨failure ++ message, true, calls, pending, spaces⟩

def runWorkspaceStatsTool : ToolRun :=
  runServiceTool world pending spaces "Failed to read workspace stats: " []

def runMemoryTool : ToolRun := runServiceTool world pending spaces "Memory operation failed: " []

def runRuleTool : ToolRun := runServiceTool world pending spaces "Rule operation failed: " []

/-- The Marketing API calls of `RoasService.verify`. -/
def verifyCalls (input : Json) : List MetaAdsCall :=
  match world.metaToken, world.stripeKey with
  | .ok token, .ok key =>
    if (nonEmpty token).isSome && (nonEmpty key).isSome then
      [.getInsights ⟨stringOf (input.get? "ad_account_id"), some (.str "account"), none,
        some (.str (stringOf (input.get? "since"))), some (.str (stringOf (input.get? "until"))),
        some (.arr [.str "spend", .str "account_currency"])⟩]
    else []
  | _, _ => []

def runRoasTool : ToolRun :=
  runServiceTool world pending spaces "ROAS verification failed: "
    (if call.name = "verify_roas" then verifyCalls world (orEmpty call.input) else [])

def exportDatasets : List String := ["roas_snapshots", "campaign_insights", "rule_actions"]

def campaignInsightFields : List String :=
  ["campaign_id", "campaign_name", "spend", "impressions", "clicks", "ctr", "cpc", "actions",
    "cost_per_action_type", "purchase_roas", "account_currency"]

/-- The Marketing API calls of `ExportsService.buildTable`, in a window that can be computed. -/
def buildTableCalls (dataset : String) (adAccountId : Option String) : List MetaAdsCall :=
  match world.metaToken, world.exportWindow with
  | .ok token, some (since, untilDate) =>
    if dataset = "campaign_insights" ∧ (nonEmpty token).isSome then
      [.getInsights ⟨adAccountId.getD "null", some (.str "campaign"), none, some (.str since),
        some (.str untilDate), some (.arr (campaignInsightFields.map .str))⟩]
    else []
  | _, _ => []

/-- `windowDays < 1 || windowDays > 365` of a value that is there refuses it. -/
def windowDaysAllowed (windowDays : Option Json) : Bool :=
  match windowDays.filter fun days => !days.isNull with
  | none => true
  | some days =>
    match days.toNumber with
    | .finite q => 1 ≤ q && q ≤ 365
    | .infinite _ => false
    | .nan => true

/-- `exportNow` with its `validateRequest`. -/
def exportNowCalls (input : Json) : List MetaAdsCall :=
  match input.get? "dataset" with
  | some (.str dataset) =>
    let adAccountId := (input.get? "ad_account_id").filter Json.toBool
    if exportDatasets.contains dataset && windowDaysAllowed (input.get? "window_days") &&
        (dataset != "campaign_insights" || adAccountId.isSome) then
      buildTableCalls world dataset (adAccountId.map Json.toText)
    else []
  | _ => []

def runSheetsTool : ToolRun :=
  runServiceTool world pending spaces "Sheets export failed: "
    (if call.name = "export_to_sheet" then exportNowCalls world (orEmpty call.input)
    else if call.name = "run_scheduled_export_now" then
      (world.exportRow.map fun row => buildTableCalls world row.dataset row.adAccountId).getD []
    else [])

def spaceToolActions : List (String × String) :=
  [("create_space", "build the Space"), ("update_space", "update the Space"),
    ("add_space_records", "add rows to the Space"), ("create_page", "build the page"),
    ("update_page", "change the page"), ("get_page", "read the page")]

/-- Any name that is no other tool's is taken for a new Space. -/
def runSpaceTool : ToolRun :=
  match world.service with
  | .ok content =>
    ⟨content, false, [], pending, if call.name = "get_page" then spaces else spaces ++ [world.space]⟩
  | .error detail =>
    ⟨"Failed to " ++ (spaceToolActions.lookup call.name).getD "build the Space" ++ ": " ++ detail,
      true, [], pending, spaces⟩

def memoryToolNames : List String := ["remember_fact", "recall_facts", "forget_fact"]

def roasToolNames : List String := ["verify_roas", "list_roas_snapshots"]

def ruleToolNames : List String :=
  ["create_ad_rule", "list_ad_rules", "set_ad_rule_active", "delete_ad_rule"]

def sheetsToolNames : List String :=
  ["export_to_sheet", "create_scheduled_export", "list_scheduled_exports",
    "set_scheduled_export_active", "delete_scheduled_export", "run_scheduled_export_now"]

/-- Every tool that a run can be given besides the bridged ones. -/
def localToolNames : List String :=
  spaceToolActions.map Prod.fst ++ ["get_workspace_stats"] ++ memoryToolNames ++
    metaAdsToolNames ++ roasToolNames ++ ruleToolNames ++ sheetsToolNames

def runLocalTool : ToolRun :=
  if call.name = "get_workspace_stats" then runWorkspaceStatsTool world pending spaces
  else if metaAdsToolNames.contains call.name then
    runMetaAdsTool confirmVia world pending spaces call
  else if memoryToolNames.contains call.name then runMemoryTool world pending spaces
  else if roasToolNames.contains call.name then runRoasTool world pending spaces call
  else if ruleToolNames.contains call.name then runRuleTool world pending spaces
  else if sheetsToolNames.contains call.name then runSheetsTool world pending spaces call
  else runSpaceTool world pending spaces call

def localToolApp (toolName : String) : String :=
  if metaAdsToolNames.contains toolName then "meta_ads"
  else if toolName = "get_workspace_stats" then "workspace"
  else if memoryToolNames.contains toolName then "memory"
  else if roasToolNames.contains toolName then "roas"
  else if ruleToolNames.contains toolName then "rules"
  else if sheetsToolNames.contains toolName then "google_sheets"
  else "spaces"

/-! Routing -/

def isBridged (bridged : Option BridgedToolset) (name : String) : Bool :=
  bridged.any fun toolset => toolset.has name

/-- A bridged name goes out over MCP, every other one to the local tools. -/
def runTool (bridged : Option BridgedToolset) : ToolRun :=
  if isBridged bridged call.name then
    ⟨world.bridgedContent, world.bridgedIsError, [], pending, spaces⟩
  else runLocalTool confirmVia world pending spaces call

def toolResult (run : ToolRun) : ToolResult := ⟨call.id, call.name, run.content, run.isError⟩

end

/-- A call of a tool that writes to an ad account. -/
def isMetaWrite (bridged : Option BridgedToolset) (call : ToolCall) : Bool :=
  !isBridged bridged call.name && metaAdsWriteToolNames.contains call.name

/-! What a tool can do to an ad account -/

section
variable {confirmVia : ConfirmMode} {world : ToolWorld} {pending : Option AiPendingAction}
  {spaces : List AiSpace} {call : ToolCall} {bridged : Option BridgedToolset}

theorem get?_orEmpty (input : Json) (key : String) : (orEmpty input).get? key = input.get? key := by
  cases input <;> rfl

theorem verifyCalls_reads {input : Json} {m : MetaAdsCall} (made : m ∈ verifyCalls world input) :
    m.mutating = false := by
  unfold verifyCalls at made
  split at made
  · split at made
    · rw [List.mem_singleton.mp made]
      rfl
    · cases made
  · cases made

theorem buildTableCalls_reads {dataset : String} {adAccountId : Option String} {m : MetaAdsCall}
    (made : m ∈ buildTableCalls world dataset adAccountId) : m.mutating = false := by
  unfold buildTableCalls at made
  split at made
  · split at made
    · rw [List.mem_singleton.mp made]
      rfl
    · cases made
  · cases made

theorem exportNowCalls_reads {input : Json} {m : MetaAdsCall}
    (made : m ∈ exportNowCalls world input) : m.mutating = false := by
  unfold exportNowCalls at made
  split at made
  · dsimp only at made
    split at made
    · exact buildTableCalls_reads made
    · cases made
  · cases made

theorem runServiceTool_metaAds (failure : String) (calls : List MetaAdsCall) :
    (runServiceTool world pending spaces failure calls).metaAds = calls := by
  unfold runServiceTool
  split <;> rfl

theorem runServiceTool_pending (failure : String) (calls : List MetaAdsCall) :
    (runServiceTool world pending spaces failure calls).pending = pending := by
  unfold runServiceTool
  split <;> rfl

theorem runSpaceTool_metaAds : (runSpaceTool world pending spaces call).metaAds = [] := by
  unfold runSpaceTool
  split <;> rfl

theorem runSpaceTool_pending : (runSpaceTool world pending spaces call).pending = pending := by
  unfold runSpaceTool
  split <;> rfl

/-- A write that reaches the Marketing API was confirmed, and buttons let none through. -/
theorem runMetaAdsTool_mutating {m : MetaAdsCall}
    (made : m ∈ (runMetaAdsTool confirmVia world pending spaces call).metaAds)
    (mutating : m.mutating = true) :
    metaAdsWriteToolNames.contains call.name = true ∧ confirmVia = .inline ∧
      isTrue (call.input.get? "confirmed") = true := by
  unfold runMetaAdsTool at made
  dsimp only at made
  split at made
  · cases made
  · rename_i inlined
    split at made
    · cases made
    · split at made
      · cases made
      · split at made
        · cases made
        · rename_i confirmed
          split at made
          · cases made
          · rename_i request dispatched
            have same : m = request := by
              split at made
              · exact List.mem_singleton.mp made
              · exact List.mem_singleton.mp made
            have write : metaAdsWriteToolNames.contains call.name = true := by
              rw [← dispatchMetaAdsTool_mutating dispatched, ← same]
              exact mutating
            rw [write, Bool.true_and] at inlined
            rw [write, Bool.true_and, get?_orEmpty] at confirmed
            refine ⟨write, ?_, by simpa using confirmed⟩
            cases confirmVia with
            | inline => rfl
            | buttons => exact absurd rfl inlined

theorem runMetaAdsTool_pending : (runMetaAdsTool confirmVia world pending spaces call).pending =
    if metaAdsWriteToolNames.contains call.name && confirmVia == .buttons then
      pending.or (some (proposedAction call))
    else pending := by
  unfold runMetaAdsTool
  dsimp only
  split
  · rfl
  · split
    · rfl
    · split
      · rfl
      · split
        · rfl
        · split
          · rfl
          · split <;> rfl

theorem runLocalTool_mutating {m : MetaAdsCall}
    (made : m ∈ (runLocalTool confirmVia world pending spaces call).metaAds)
    (mutating : m.mutating = true) :
    metaAdsWriteToolNames.contains call.name = true ∧ confirmVia = .inline ∧
      isTrue (call.input.get? "confirmed") = true := by
  have reads : m.mutating ≠ false := by simp [mutating]
  unfold runLocalTool at made
  split at made
  · simp [runWorkspaceStatsTool, runServiceTool_metaAds] at made
  · split at made
    · exact runMetaAdsTool_mutating made mutating
    · split at made
      · simp [runMemoryTool, runServiceTool_metaAds] at made
      · split at made
        · rw [runRoasTool, runServiceTool_metaAds] at made
          split at made
          · exact absurd (verifyCalls_reads made) reads
          · cases made
        · split at made
          · simp [runRuleTool, runServiceTool_metaAds] at made
          · split at made
            · rw [runSheetsTool, runServiceTool_metaAds] at made
              split at made
              · exact absurd (exportNowCalls_reads made) reads
              · split at made
                · cases row : world.exportRow with
                  | none => simp [row] at made
                  | some target =>
                    simp only [row, Option.map_some, Option.getD_some] at made
                    exact absurd (buildTableCalls_reads made) reads
                · cases made
            · simp [runSpaceTool_metaAds] at made

/-- No tool of another kind has the name of a write. -/
theorem write_is_metaAds {name : String} (write : metaAdsWriteToolNames.contains name = true) :
    name ≠ "get_workspace_stats" ∧ metaAdsToolNames.contains name = true := by
  constructor
  · rintro rfl
    cases write
  · simp only [metaAdsToolNames, List.contains_eq_mem, List.mem_append, decide_eq_true_eq] at write ⊢
    exact .inl write

theorem runLocalTool_pending : (runLocalTool confirmVia world pending spaces call).pending =
    if metaAdsWriteToolNames.contains call.name && confirmVia == .buttons then
      pending.or (some (proposedAction call))
    else pending := by
  cases write : metaAdsWriteToolNames.contains call.name with
  | true =>
    obtain ⟨other, known⟩ := write_is_metaAds write
    rw [runLocalTool, if_neg other, if_pos known, runMetaAdsTool_pending, write]
  | false =>
    unfold runLocalTool
    split
    · exact runServiceTool_pending _ _
    · split
      · rw [runMetaAdsTool_pending, write]
      · split
        · exact runServiceTool_pending _ _
        · split
          · exact runServiceTool_pending _ _
          · split
            · exact runServiceTool_pending _ _
            · split
              · exact runServiceTool_pending _ _
              · exact runSpaceTool_pending

theorem runTool_mutating {m : MetaAdsCall}
    (made : m ∈ (runTool confirmVia world pending spaces call bridged).metaAds)
    (mutating : m.mutating = true) :
    isMetaWrite bridged call = true ∧ confirmVia = .inline ∧
      isTrue (call.input.get? "confirmed") = true := by
  unfold runTool at made
  split at made
  · cases made
  · rename_i unbridged
    obtain ⟨write, gate⟩ := runLocalTool_mutating made mutating
    refine ⟨?_, gate⟩
    rw [isMetaWrite, write, Bool.eq_false_of_not_eq_true unbridged]
    rfl

theorem runTool_pending : (runTool confirmVia world pending spaces call bridged).pending =
    if isMetaWrite bridged call && confirmVia == .buttons then
      pending.or (some (proposedAction call))
    else pending := by
  unfold runTool isMetaWrite
  cases isBridged bridged call.name with
  | true => rfl
  | false => exact runLocalTool_pending

end

end Gomer.Ai
