import Gomer.Lib.Json
import Gomer.Database.Entities

/-! `SlackInteractionsService`: a gated write waits in Redis for a click on its card. -/
namespace Gomer

structure PendingApproval where
  workspaceId : Uuid
  requesterUserId : Option Uuid
  requesterSlackId : String
  requesterName : String
  teamId : String
  channel : String
  threadTs : Option String
  messageTs : String
  toolName : String
  input : Json
  label : String
  answer : String

structure BlockAction where
  actionId : Option String
  value : Option String

structure BlockActionsPayload where
  type : Option String
  userId : Option String := none
  name : Option String := none
  username : Option String := none
  responseUrl : Option String := none
  actions : List BlockAction := []

def approveActionId : String := "gomer_approve"
def cancelActionId : String := "gomer_cancel"

inductive SlackBlock where
  | section (text : String)
  | context (text : String)
  deriving DecidableEq

def buildResolvedBlocks (text footer : String) : List SlackBlock := [.section text, .context footer]

/-- What is sent to Slack. None of these calls throws. -/
inductive SlackCall where
  | respondEphemeral (responseUrl text : String)
  | updateMessage (botToken channel ts text : String) (blocks : List SlackBlock)
  | postMessage (botToken channel text : String) (threadTs : Option String)
  deriving DecidableEq

/-- The arguments of `executeMetaAdsAction`. -/
structure MetaAdsAction where
  workspaceId : Uuid
  userId : Option Uuid
  toolName : String
  input : Json

def PendingApproval.action (pending : PendingApproval) : MetaAdsAction :=
  ⟨pending.workspaceId, pending.requesterUserId, pending.toolName, pending.input⟩

/-- One call of `handleInteraction`, with the bot token its workspace lookup finds. -/
structure Click where
  payload : BlockActionsPayload
  botToken : Option String

namespace Click

variable (click : Click)

/-- The token and the action of a click that is looked at. -/
def route : Option (String × String) :=
  if click.payload.type ≠ some "block_actions" then none
  else
    match click.payload.actions.head? with
    | none => none
    | some action =>
      (nonEmpty action.value).bind fun token =>
        (nonEmpty action.actionId).map fun actionId => (token, actionId)

def clickerId : String := click.payload.userId.getD ""

def clickerName : String :=
  ((nonEmpty click.payload.name).or (nonEmpty click.payload.username)).getD "someone"

def respond (text : String) : List SlackCall :=
  ((nonEmpty click.payload.responseUrl).map fun url => SlackCall.respondEphemeral url text).toList

end Click

/-- What a click that found the pending approval goes on to do. -/
inductive Resolution where
  | silent (sent : List SlackCall)
  | cancel (botToken : String)
  | approve (botToken : String)
  deriving DecidableEq

def resolve (click : Click) (actionId : String) (pending : PendingApproval) : Resolution :=
  match nonEmpty click.botToken with
  | none => .silent []
  | some botToken =>
    if actionId = cancelActionId then .cancel botToken
    else if actionId ≠ approveActionId then .silent []
    else if click.clickerId ≠ pending.requesterSlackId then
      .silent (click.respond ("Only " ++ pending.requesterName ++ " can approve this action."))
    else .approve botToken

def updateResolved (botToken : String) (pending : PendingApproval) (footer : String) : SlackCall :=
  .updateMessage botToken pending.channel pending.messageTs pending.answer
    (buildResolvedBlocks pending.answer footer)

def cancelledFooter (click : Click) : String := ":x: Cancelled by " ++ click.clickerName

def approvedFooter (click : Click) : String :=
  ":white_check_mark: Approved by " ++ click.clickerName ++ " — running…"

structure ActionResult where
  ok : Bool
  summary : String

def postResult (botToken : String) (pending : PendingApproval) (result : ActionResult) : SlackCall :=
  .postMessage botToken pending.channel
    ((if result.ok then ":white_check_mark: " else ":warning: ") ++ result.summary) pending.threadTs

end Gomer
