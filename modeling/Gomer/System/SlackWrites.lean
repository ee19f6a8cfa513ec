import Gomer.Ai.Approval
import Gomer.Ai.Scope
import Gomer.Lib.Trace
import Gomer.Slack.Conversations
import Gomer.Slack.Interactions
import Gomer.System.Approvals
import Gomer.Users.Members

/-! Writes asked for on Slack: `handleEventCallback` of any messages and `handleInteraction` of any
clicks, at once. A delivery may be of an event that came before, to another instance; what a
message reads of its thread is any history. -/
namespace Gomer.SlackWrites

open Trace Slack Ai Users

/-! What is sent to Slack -/

structure Button where
  style : Option String
  text : String
  actionId : String
  value : String

inductive ApprovalBlock where
  | section (text : String)
  | actions (blockId : String) (elements : List Button)

def buildApprovalBlocks (text token label : String) : List ApprovalBlock :=
  [.section text,
    .actions ("approval:" ++ token)
      [⟨some "primary", "Approve: " ++ label, approveActionId, token⟩,
        ⟨none, "Cancel", cancelActionId, token⟩]]

/-- None of these calls throws, or is made again. Slack may refuse a message. -/
inductive Call where
  | addReaction (botToken channel timestamp name : String)
  | removeReaction (botToken channel timestamp name : String)
  | postMessage (botToken channel text : String) (threadTs : Option String)
      (blocks : Option (List ApprovalBlock)) (accepted : Bool)

def processingReaction : String := "hourglass_flowing_sand"

/-! One message -/

/-- A message with the workspace that answers it. -/
structure Received where
  message : SlackMessageEvent
  teamId : String
  channel : String
  workspaceId : UuidText
  botToken : String
  prompt : String

/-- A run that has ended in a result. -/
structure Ran where
  result : AiRunResult
  log : List Event

inductive Stage where
  | received
  | asking
  | answered
  | carded (token : String)
  | attaching (token messageTs : String)
  | patching (token messageTs : String) (record : PendingApproval)
  | failed
  | posted
  | finished

/-- `name` is the name in the member's row. -/
structure Handling extends Received where
  member : Option User := none
  name : String := ""
  ran : Option Ran := none
  stage : Stage := .received
  sent : List Call := []

/-- What is kept in Redis for an hour. -/
abbrev Store := String → Option PendingApproval

/-- `post` has the answer of Slack: none where it refuses the message or cannot be reached, otherwise
the timestamp that it may give. -/
inductive Act where
  | identify (users : List User) (profile : Option (Option String)) (id : UuidText) (name : String)
  | run (fuel : Nat) (world : PrepareWorld) (store : AttachedStore)
      (history : List ConversationTurn) (worlds : Nat → TurnWorld)
  | storePending (token : String) (acknowledged : Bool)
  | post (answer : Option (Option String))
  | attachGet
  | attachSet (acknowledged : Bool)
  | fail
  | finish

def received (workspaces : List Workspace) (envelope : SlackEventEnvelope) : Option Received := do
  let workspace ← answering workspaces envelope
  let teamId ← envelope.teamId
  let channel ← envelope.event.channel
  let botToken ← workspace.slackBotToken
  if printed : workspace.id.length = 36 then
    some
      { message := envelope.event, teamId, channel, workspaceId := ⟨workspace.id, printed⟩, botToken
        prompt := String.ofList (cleanText (envelope.event.text.getD "")) }
  else none

namespace Received

variable (r : Received)

def threadTs : Option String := threadOf r.message

def sender : Option String := nonEmpty r.message.user

def reaction : List Call :=
  ((nonEmpty r.message.ts).map fun ts =>
    .addReaction r.botToken r.channel ts processingReaction).toList

def cleared : List Call :=
  ((nonEmpty r.message.ts).map fun ts =>
    .removeReaction r.botToken r.channel ts processingReaction).toList

def handling : Handling := { r with sent := r.reaction }

/-- The member that the sender is, provisioned where there is no row yet. -/
def memberOf (users : List User) (profile : Option (Option String)) (id : UuidText) :
    Option User :=
  r.sender.bind fun slackUserId =>
    (findBySlackIdentity users r.workspaceId.text slackUserId).or
      ((profile.bind fun email =>
        upsertFromSlack users ⟨r.workspaceId.text, slackUserId, email⟩ (some .member) id).map (·.2))

def argumentsOf (member : Option User) (history : List ConversationTurn) : RunArguments where
  workspaceId := r.workspaceId
  userId := member.map (·.id)
  prompt := r.prompt
  options :=
    { model := none, taskId := none, sourceName := some "slack", confirmVia := some .buttons
      history
      conversationId := (conversationKeys r.message r.channel).memoryThreadId
      branchConversationId := (conversationKeys r.message r.channel).branchThreadId }

end Received

def answerText (result : AiRunResult) : String :=
  if result.answer = "" then "I couldn't come up with a response to that." else result.answer

def apology : String :=
  "⚠️ Sorry, something went wrong handling that. Please try again."

namespace Handling

variable (h : Handling)

def say (text : String) (blocks : Option (List ApprovalBlock)) (accepted : Bool) : Call :=
  .postMessage h.botToken h.channel text h.threadTs blocks accepted

def card (ran : Ran) (pending : AiPendingAction) (token : String) (accepted : Bool) : Call :=
  h.say (answerText ran.result)
    (some (buildApprovalBlocks (answerText ran.result) token pending.label)) accepted

/-- The write that the run put off, and who asked for it. -/
def deferred : Option (Ran × AiPendingAction × String) := do
  let ran ← h.ran
  let pending ← ran.result.pendingAction
  let sender ← h.sender
  some (ran, pending, sender)

def recordOf (ran : Ran) (pending : AiPendingAction) (sender : String) : PendingApproval where
  workspaceId := uuidOf h.workspaceId
  requesterUserId := h.member.map fun member => uuidOf member.id
  requesterSlackId := sender
  requesterName := if h.member.isSome then h.name else "the requester"
  teamId := h.teamId
  channel := h.channel
  threadTs := h.threadTs
  messageTs := ""
  toolName := pending.tool
  input := pending.input
  label := pending.label
  answer := answerText ran.result

section
variable (deployment : Deployment) (parse : String → Option Json)

/-- `aiService.run`; `none` is too little fuel. -/
def runs (fuel : Nat) (world : PrepareWorld) (store : AttachedStore)
    (history : List ConversationTurn) (worlds : Nat → TurnWorld) : Option Handling :=
  match prepare parse fuel (h.argumentsOf h.member history) world deployment store with
  | none => none
  | some (_, .error _) => some { h with stage := .failed }
  | some (_, .ok (prepared, _)) =>
    let outcome := Ai.run prepared worlds
    match outcome.result with
    | .error _ => some { h with stage := .failed }
    | .ok result => some { h with ran := some ⟨result, outcome.log⟩, stage := .answered }

/-- One step of a call. An unacknowledged write has reached Redis, and throws. -/
def step (store : Store) : Act → Option (Store × Handling)
  | .identify users profile id name =>
    match h.stage with
    | .received =>
      some (store, { h with member := h.memberOf users profile id, name, stage := .asking })
    | _ => none
  | .run fuel world attached history worlds =>
    match h.stage with
    | .asking => (h.runs deployment parse fuel world attached history worlds).map (store, ·)
    | _ => none
  | .storePending token acknowledged =>
    match h.stage, h.deferred with
    | .answered, some (ran, pending, sender) =>
      some (Function.update store token (some (h.recordOf ran pending sender)),
        { h with stage := if acknowledged then .carded token else .failed })
    | _, _ => none
  | .post answer =>
    match h.stage, h.ran, h.deferred with
    | .answered, some ran, none =>
      some (store, { h with
        stage := .posted, sent := h.sent ++ [h.say (answerText ran.result) none answer.isSome] })
    | .carded token, _, some (ran, pending, _) =>
      let stage := match nonEmpty answer.join with
        | some ts => .attaching token ts
        | none => .posted
      some (store, { h with stage, sent := h.sent ++ [h.card ran pending token answer.isSome] })
    | .failed, _, _ =>
      some (store, { h with
        stage := .posted, sent := h.sent ++ [h.say apology none answer.isSome] })
    | _, _, _ => none
  | .attachGet =>
    match h.stage with
    | .attaching token messageTs =>
      match store token with
      | none => some (store, { h with stage := .posted })
      | some record => some (store, { h with stage := .patching token messageTs record })
    | _ => none
  | .attachSet acknowledged =>
    match h.stage with
    | .patching token messageTs record =>
      some (Function.update store token (some { record with messageTs }),
        { h with stage := if acknowledged then .posted else .failed })
    | _ => none
  | .fail =>
    match h.stage with
    | .received | .asking | .attaching .. | .patching .. =>
      some (store, { h with stage := .failed })
    | .answered => if h.deferred.isSome then some (store, { h with stage := .failed }) else none
    | _ => none
  | .finish =>
    match h.stage with
    | .posted => some (store, { h with stage := .finished, sent := h.sent ++ h.cleared })
    | _ => none

end

end Handling

/-! One click -/

inductive Press where
  | read (token : String) (click : Click) (actionId : String) (pending : PendingApproval)
  | approved (botToken : String) (pending : PendingApproval)
  | finished

structure Clicking where
  payload : BlockActionsPayload
  press : Press
  sent : List SlackCall

/-- The bot token of a team. -/
def botTokenOf (workspaces : List Workspace) (teamId : String) : Option String :=
  (workspaces.find? fun workspace => workspace.slackTeamId == teamId).bind (·.slackBotToken)

/-- `handleInteraction` up to its choice, with the workspaces that its lookup finds. -/
def clicked (store : Store) (workspaces : List Workspace) (payload : BlockActionsPayload) :
    Clicking :=
  let unknown : Click := ⟨payload, none⟩
  match unknown.route with
  | none => ⟨payload, .finished, []⟩
  | some (token, actionId) =>
    match store token with
    | none =>
      ⟨payload, .finished,
        unknown.respond "This approval has expired or was already handled."⟩
    | some pending =>
      let click : Click := ⟨payload, botTokenOf workspaces pending.teamId⟩
      match resolve click actionId pending with
      | .silent calls => ⟨payload, .finished, calls⟩
      | _ => ⟨payload, .read token click actionId pending, []⟩

namespace Clicking

variable (c : Clicking)

/-- The deletion, after which the card is updated. -/
def delete (store : Store) (acknowledged : Bool) : Option (Store × Clicking) :=
  match c.press with
  | .read token click actionId pending =>
    let deleted := Function.update store token none
    if acknowledged then
      match resolve click actionId pending with
      | .cancel botToken =>
        some (deleted, { c with
          press := .finished
          sent := c.sent ++ [updateResolved botToken pending (cancelledFooter click)] })
      | .approve botToken =>
        some (deleted, { c with
          press := .approved botToken pending
          sent := c.sent ++ [updateResolved botToken pending (approvedFooter click)] })
      | .silent _ => none
    else some (deleted, { c with press := .finished })
  | _ => none

def execute (result : ActionResult) : Option (MetaAdsAction × Clicking) :=
  match c.press with
  | .approved botToken pending =>
    some (pending.action, { c with
      press := .finished, sent := c.sent ++ [postResult botToken pending result] })
  | _ => none

end Clicking

/-! The deployment -/

/-- `executed` has the clicks with the actions that they executed, the latest first. -/
structure State where
  store : Store
  messages : Nat → Option Handling
  clicks : Nat → Option Clicking
  executed : List (Nat × MetaAdsAction)

def start : State := ⟨fun _ => none, fun _ => none, fun _ => none, []⟩

inductive Action where
  | deliver (i : Nat) (workspaces : List Workspace) (envelope : SlackEventEnvelope)
  | message (i : Nat) (act : Act)
  | click (j : Nat) (workspaces : List Workspace) (payload : BlockActionsPayload)
  | delete (j : Nat) (acknowledged : Bool)
  | execute (j : Nat) (result : ActionResult)
  | abandon (j : Nat)
  | expire (token : String)

def State.put (s : State) (i : Nat) (store : Store) (h : Handling) : State :=
  { s with store, messages := Function.update s.messages i (some h) }

def State.putClick (s : State) (j : Nat) (store : Store) (c : Clicking) : State :=
  { s with store, clicks := Function.update s.clicks j (some c) }

section
variable (deployment : Deployment) (parse : String → Option Json)

/-- `abandon` is the end of a click in an exception. -/
def step (s : State) : Action → Option State
  | .deliver i workspaces envelope =>
    match s.messages i, received workspaces envelope with
    | none, some r => some (s.put i s.store r.handling)
    | _, _ => none
  | .message i act => do
    let h ← s.messages i
    let (store, after) ← h.step deployment parse s.store act
    some (s.put i store after)
  | .click j workspaces payload =>
    match s.clicks j with
    | none => some (s.putClick j s.store (clicked s.store workspaces payload))
    | some _ => none
  | .delete j acknowledged => do
    let c ← s.clicks j
    let (store, after) ← c.delete s.store acknowledged
    some (s.putClick j store after)
  | .execute j result => do
    let c ← s.clicks j
    let (action, after) ← c.execute result
    some { s.putClick j s.store after with executed := (j, action) :: s.executed }
  | .abandon j => do
    let c ← s.clicks j
    some (s.putClick j s.store { c with press := .finished })
  | .expire token => some { s with store := Function.update s.store token none }

abbrev Step (s : State) (a : Action) (t : State) : Prop := step deployment parse s a = some t

end

/-! What a step of a message does -/

section
variable {deployment : Deployment} {parse : String → Option Json}

/-- The run of a message. -/
def RunOf (deployment : Deployment) (parse : String → Option Json) (h : Handling) (ran : Ran) :
    Prop :=
  ∃ fuel world store after prepared attached history worlds,
    prepare parse fuel (h.argumentsOf h.member history) world deployment store =
      some (after, .ok (prepared, attached)) ∧
    Ai.run prepared worlds = ⟨.ok ran.result, ran.log⟩

inductive Moves (deployment : Deployment) (parse : String → Option Json) (store : Store)
    (h : Handling) : Store → Handling → Prop where
  | identified (users : List User) (profile : Option (Option String)) (id : UuidText)
      (name : String) : h.stage = .received →
      Moves deployment parse store h store
        { h with member := h.memberOf users profile id, name, stage := .asking }
  | ran (ran : Ran) : h.stage = .asking → RunOf deployment parse h ran →
      Moves deployment parse store h store { h with ran := some ran, stage := .answered }
  | stored (ran : Ran) (pending : AiPendingAction) (sender token : String) (stage : Stage) :
      h.stage = .answered → h.deferred = some (ran, pending, sender) →
      stage = .carded token ∨ stage = .failed →
      Moves deployment parse store h
        (Function.update store token (some (h.recordOf ran pending sender))) { h with stage }
  | answered (ran : Ran) (accepted : Bool) : h.stage = .answered → h.ran = some ran →
      h.deferred = none → Moves deployment parse store h store
        { h with stage := .posted, sent := h.sent ++ [h.say (answerText ran.result) none accepted] }
  | carded (ran : Ran) (pending : AiPendingAction) (sender token : String) (accepted : Bool)
      (stage : Stage) : h.stage = .carded token → h.deferred = some (ran, pending, sender) →
      (∃ ts, stage = .attaching token ts ∧ accepted = true) ∨ stage = .posted →
      Moves deployment parse store h store
        { h with stage, sent := h.sent ++ [h.card ran pending token accepted] }
  | apologised (accepted : Bool) : h.stage = .failed →
      Moves deployment parse store h store
        { h with stage := .posted, sent := h.sent ++ [h.say apology none accepted] }
  | gone (token messageTs : String) : h.stage = .attaching token messageTs →
      Moves deployment parse store h store { h with stage := .posted }
  | read (token messageTs : String) (record : PendingApproval) :
      h.stage = .attaching token messageTs → store token = some record →
      Moves deployment parse store h store { h with stage := .patching token messageTs record }
  | patched (token messageTs : String) (record : PendingApproval) (stage : Stage) :
      h.stage = .patching token messageTs record → stage = .posted ∨ stage = .failed →
      Moves deployment parse store h
        (Function.update store token (some { record with messageTs })) { h with stage }
  | failed : h.stage ≠ .failed → h.stage ≠ .posted → h.stage ≠ .finished →
      Moves deployment parse store h store { h with stage := .failed }
  | finished : h.stage = .posted →
      Moves deployment parse store h store
        { h with stage := .finished, sent := h.sent ++ h.cleared }

variable {store after : Store} {h t : Handling}

theorem runs_moves {fuel : Nat} {world : PrepareWorld} {attached : AttachedStore}
    {history : List ConversationTurn} {worlds : Nat → TurnWorld} (stage : h.stage = .asking)
    (taken : h.runs deployment parse fuel world attached history worlds = some t) :
    Moves deployment parse store h store t := by
  have broken : Moves deployment parse store h store { h with stage := .failed } := by
    refine .failed ?_ ?_ ?_ <;> rw [stage] <;> nofun
  unfold Handling.runs at taken
  split at taken
  · cases taken
  · cases taken
    exact broken
  · rename_i later prepared servers made
    dsimp only at taken
    split at taken
    · cases taken
      exact broken
    · rename_i result ended
      cases taken
      refine .ran _ stage ⟨fuel, world, attached, later, prepared, servers, history, worlds, made, ?_⟩
      rw [← ended]

theorem step_moves {act : Act} (taken : h.step deployment parse store act = some (after, t)) :
    Moves deployment parse store h after t := by
  cases act with
  | identify users profile id name =>
    simp only [Handling.step] at taken
    split at taken <;> cases taken
    rename_i stage
    exact .identified users profile id name stage
  | run fuel world attached history worlds =>
    simp only [Handling.step] at taken
    split at taken
    · rename_i stage
      obtain ⟨_, ran, same⟩ := Option.map_eq_some_iff.mp taken
      cases same
      exact runs_moves stage ran
    · cases taken
  | storePending token acknowledged =>
    simp only [Handling.step] at taken
    split at taken <;> cases taken
    rename_i ran pending sender stage deferred
    refine .stored ran pending sender token _ stage deferred ?_
    cases acknowledged with
    | true => exact .inl rfl
    | false => exact .inr rfl
  | post answer =>
    simp only [Handling.step] at taken
    split at taken <;> cases taken
    · rename_i ran stage found deferred
      exact .answered ran _ stage found deferred
    · rename_i token ran pending sender stage deferred
      refine .carded ran pending sender token _ _ stage deferred ?_
      cases answer with
      | none => exact .inr rfl
      | some given =>
        cases nonEmpty (some given).join with
        | none => exact .inr rfl
        | some ts => exact .inl ⟨ts, rfl, rfl⟩
    · rename_i stage
      exact .apologised _ stage
  | attachGet =>
    simp only [Handling.step] at taken
    split at taken
    · rename_i token messageTs stage
      split at taken <;> cases taken
      · exact .gone token messageTs stage
      · rename_i record found
        exact .read token messageTs record stage found
    · cases taken
  | attachSet acknowledged =>
    simp only [Handling.step] at taken
    split at taken <;> cases taken
    rename_i token messageTs record stage
    refine .patched token messageTs record _ stage ?_
    cases acknowledged with
    | true => exact .inl rfl
    | false => exact .inr rfl
  | fail =>
    simp only [Handling.step] at taken
    split at taken
    case h_6 => cases taken
    case h_5 =>
      rename_i stage
      split at taken <;> cases taken
      refine .failed ?_ ?_ ?_ <;> rw [stage] <;> nofun
    all_goals
      rename_i stage
      cases taken
      refine .failed ?_ ?_ ?_ <;> rw [stage] <;> nofun
  | finish =>
    simp only [Handling.step] at taken
    split at taken <;> cases taken
    rename_i stage
    exact .finished stage

/-! What a message has sent -/

/-- The replies to a message, as they were sent and as Slack took them. -/
inductive Replied (h : Handling) : List Call → Prop where
  | answer (ran : Ran) (accepted : Bool) : h.ran = some ran → h.deferred = none →
      Replied h [h.say (answerText ran.result) none accepted]
  | card (ran : Ran) (pending : AiPendingAction) (sender token : String) (accepted : Bool) :
      h.deferred = some (ran, pending, sender) → Replied h [h.card ran pending token accepted]
  | apology (accepted : Bool) : Replied h [h.say apology none accepted]
  /-- The card is out, and its timestamp could not be kept. -/
  | late (ran : Ran) (pending : AiPendingAction) (sender token : String) (accepted : Bool) :
      h.deferred = some (ran, pending, sender) →
      Replied h [h.card ran pending token true, h.say SlackWrites.apology none accepted]

/-- The card, which is out, and nothing else. -/
def Carded (h : Handling) (token : String) : Prop :=
  ∃ ran pending sender, h.deferred = some (ran, pending, sender) ∧
    h.sent = h.reaction ++ [h.card ran pending token true]

def Sent (h : Handling) : Prop :=
  match h.stage with
  | .received | .asking => h.sent = h.reaction
  | .answered => h.sent = h.reaction ∧ h.ran.isSome = true
  | .carded _ => h.sent = h.reaction ∧ h.deferred.isSome = true
  | .attaching token _ | .patching token _ _ => Carded h token
  | .failed => h.sent = h.reaction ∨ ∃ token, Carded h token
  | .posted => ∃ posts, Replied h posts ∧ h.sent = h.reaction ++ posts
  | .finished => ∃ posts, Replied h posts ∧ h.sent = h.reaction ++ posts ++ h.cleared

theorem Replied.later {posts : List Call} (replied : Replied h posts) (stage : Stage)
    (sent : List Call) : Replied { h with stage, sent } posts := by
  cases replied with
  | answer ran accepted found undeferred => exact .answer ran accepted found undeferred
  | card ran pending sender token accepted deferred =>
    exact .card ran pending sender token accepted deferred
  | apology accepted => exact .apology accepted
  | late ran pending sender token accepted deferred =>
    exact .late ran pending sender token accepted deferred

theorem Sent.unanswered (sent : Sent h) (unfailed : h.stage ≠ .failed)
    (unposted : h.stage ≠ .posted) (unfinished : h.stage ≠ .finished) :
    h.sent = h.reaction ∨ ∃ token, Carded h token := by
  unfold Sent at sent
  split at sent
  · exact .inl sent
  · exact .inl sent
  · exact .inl sent.1
  · exact .inl sent.1
  · exact .inr ⟨_, sent⟩
  · exact .inr ⟨_, sent⟩
  · contradiction
  · contradiction
  · contradiction

theorem Carded.replied {token : String} (carded : Carded h token) :
    Sent { h with stage := .posted } := by
  obtain ⟨ran, pending, sender, deferred, sent⟩ := carded
  exact ⟨_, .card ran pending sender token true deferred, sent⟩

theorem Sent.moved (sent : Sent h) (moved : Moves deployment parse store h after t) : Sent t := by
  cases moved with
  | identified users profile id name stage =>
    simp only [Sent, stage] at sent ⊢
    exact sent
  | ran ran stage _ =>
    simp only [Sent, stage] at sent ⊢
    exact ⟨sent, rfl⟩
  | stored ran pending sender token next stage deferred after =>
    simp only [Sent, stage] at sent
    rcases after with rfl | rfl
    · refine ⟨sent.1, ?_⟩
      change h.deferred.isSome = true
      rw [deferred]
      rfl
    · exact .inl sent.1
  | answered ran accepted stage found undeferred =>
    simp only [Sent, stage] at sent ⊢
    refine ⟨_, .answer ran accepted found undeferred, ?_⟩
    rw [sent.1]
    rfl
  | carded ran pending sender token accepted next stage deferred after =>
    simp only [Sent, stage] at sent
    have posted : h.sent ++ [h.card ran pending token accepted] =
        h.reaction ++ [h.card ran pending token accepted] := by rw [sent.1]
    rcases after with ⟨ts, rfl, rfl⟩ | rfl
    · exact ⟨ran, pending, sender, deferred, posted⟩
    · exact ⟨_, .card ran pending sender token accepted deferred, posted⟩
  | apologised accepted stage =>
    simp only [Sent, stage] at sent ⊢
    rcases sent with sent | ⟨token, ran, pending, sender, deferred, sent⟩
    · refine ⟨_, .apology accepted, ?_⟩
      rw [sent]
      rfl
    · refine ⟨_, .late ran pending sender token accepted deferred, ?_⟩
      rw [sent, List.append_assoc]
      rfl
  | gone token messageTs stage =>
    simp only [Sent, stage] at sent
    exact sent.replied
  | read token messageTs record stage _ =>
    simp only [Sent, stage] at sent ⊢
    exact sent
  | patched token messageTs record next stage after =>
    simp only [Sent, stage] at sent
    rcases after with rfl | rfl
    · exact sent.replied
    · exact .inr ⟨token, sent⟩
  | failed unfailed unposted unfinished =>
    exact sent.unanswered unfailed unposted unfinished
  | finished stage =>
    simp only [Sent, stage] at sent ⊢
    obtain ⟨posts, replied, sent⟩ := sent
    refine ⟨posts, replied.later .., ?_⟩
    rw [sent]

/-! Where a record comes from -/

/-- The record of the write that the message put off; `messageTs` is patched. -/
def Asks (h : Handling) (record : PendingApproval) : Prop :=
  ∃ ran pending sender, h.deferred = some (ran, pending, sender) ∧
    { record with messageTs := "" } = h.recordOf ran pending sender

structure Sound (deployment : Deployment) (parse : String → Option Json) (h : Handling) : Prop where
  delivered : ∃ workspaces envelope, received workspaces envelope = some h.toReceived
  early : h.stage = .received ∨ h.stage = .asking → h.ran = none
  member : ∀ member, h.member = some member →
    member.workspaceId = h.workspaceId.text ∧ h.sender = some member.slackUserId
  ran : ∀ ran, h.ran = some ran → RunOf deployment parse h ran
  sent : Sent h

theorem found_identity {users : List User} {workspaceId slackUserId : String} {member : User}
    (found : findBySlackIdentity users workspaceId slackUserId = some member) :
    member.workspaceId = workspaceId ∧ member.slackUserId = slackUserId := by
  have same := List.find?_some found
  simpa using same

theorem upserted_identity {users later : List User} {identity : SlackIdentity}
    {role : Option UserRole} {id : UuidText} {member : User}
    (upserted : upsertFromSlack users identity role id = some (later, member)) :
    member.workspaceId = identity.workspaceId ∧ member.slackUserId = identity.slackUserId := by
  unfold upsertFromSlack at upserted
  split at upserted
  · rename_i existing found
    cases upserted
    have own := found_identity found
    exact own
  · obtain ⟨inserted, _, same⟩ := Option.map_eq_some_iff.mp upserted
    cases same
    exact ⟨rfl, rfl⟩

theorem memberOf_identity {r : Received} {users : List User} {profile : Option (Option String)}
    {id : UuidText} {member : User} (made : r.memberOf users profile id = some member) :
    member.workspaceId = r.workspaceId.text ∧ r.sender = some member.slackUserId := by
  obtain ⟨slackUserId, sender, made⟩ := Option.bind_eq_some_iff.mp made
  suffices own : member.workspaceId = r.workspaceId.text ∧ member.slackUserId = slackUserId by
    rw [own.2]
    exact ⟨own.1, sender⟩
  rcases Option.or_eq_some_iff.mp made with found | ⟨-, made⟩
  · exact found_identity found
  · obtain ⟨⟨later, created⟩, upserted, rfl⟩ := Option.map_eq_some_iff.mp made
    obtain ⟨email, -, upserted⟩ := Option.bind_eq_some_iff.mp upserted
    exact upserted_identity upserted

theorem Sound.moved (sound : Sound deployment parse h)
    (moved : Moves deployment parse store h after t) : Sound deployment parse t := by
  refine ⟨?_, ?_, ?_, ?_, sound.sent.moved moved⟩
  · cases moved <;> exact sound.delivered
  · cases moved with
    | identified users profile id name stage => exact fun _ => sound.early (.inl stage)
    | stored ran pending sender token stage _ _ next =>
      intro early
      rcases next with rfl | rfl <;> rcases early with early | early <;> cases early
    | carded ran pending sender token accepted stage _ _ next =>
      intro early
      rcases next with ⟨ts, rfl, rfl⟩ | rfl <;> rcases early with early | early <;> cases early
    | patched token messageTs record stage _ next =>
      intro early
      rcases next with rfl | rfl <;> rcases early with early | early <;> cases early
    | _ =>
      intro early
      rcases early with early | early <;> cases early
  · cases moved with
    | identified users profile id name _ => exact fun member made => memberOf_identity made
    | _ => exact sound.member
  · cases moved with
    | identified users profile id name stage =>
      intro ran found
      cases (sound.early (.inl stage)).symm.trans found
    | ran ran _ own =>
      intro other found
      cases found
      exact own
    | _ => exact sound.ran

theorem Asks.moved {record : PendingApproval} (asks : Asks h record)
    (sound : Sound deployment parse h) (moved : Moves deployment parse store h after t) :
    Asks t record := by
  have begun : h.stage = .received ∨ h.stage = .asking → False := by
    intro early
    obtain ⟨ran, pending, sender, deferred, -⟩ := asks
    simp [Handling.deferred, sound.early early] at deferred
  cases moved with
  | identified users profile id name stage => exact (begun (.inl stage)).elim
  | ran ran stage _ => exact (begun (.inr stage)).elim
  | _ => exact asks

end

/-! The records of a deployment -/

section
variable {deployment : Deployment} {parse : String → Option Json}

def Traced (s : State) (record : PendingApproval) : Prop :=
  ∃ i h, s.messages i = some h ∧ Asks h record

/-- The person who clicked. -/
def Clicking.clickerId (c : Clicking) : String := c.payload.userId.getD ""

/-- The record that a call has read and may still use. -/
def Stage.record : Stage → Option PendingApproval
  | .patching _ _ record => some record
  | _ => none

def Press.record : Press → Option PendingApproval
  | .read _ _ _ record => some record
  | .approved _ record => some record
  | .finished => none

inductive Held (s : State) (record : PendingApproval) : Prop where
  | stored (token : String) : s.store token = some record → Held s record
  | patching (i : Nat) (h : Handling) :
      s.messages i = some h → h.stage.record = some record → Held s record
  | clicking (j : Nat) (c : Clicking) :
      s.clicks j = some c → c.press.record = some record → Held s record

/-- The click was made by the requester of what it has approved. -/
structure Own (c : Clicking) : Prop where
  reading : ∀ token click actionId record, c.press = .read token click actionId record →
    click.payload = c.payload
  approved : ∀ botToken record, c.press = .approved botToken record →
    c.clickerId = record.requesterSlackId

structure Inv (deployment : Deployment) (parse : String → Option Json) (s : State) : Prop where
  messages : ∀ i h, s.messages i = some h → Sound deployment parse h
  held : ∀ record, Held s record → Traced s record
  clicks : ∀ j c, s.clicks j = some c → Own c
  executed : ∀ x ∈ s.executed, ∃ c record, s.clicks x.1 = some c ∧ Traced s record ∧
    c.clickerId = record.requesterSlackId ∧ x.2 = record.action

theorem inv_start : Inv deployment parse start where
  messages := fun _ _ found => (Option.some_ne_none _ found.symm).elim
  held := by
    intro record held
    cases held with
    | stored token found => exact (Option.some_ne_none _ found.symm).elim
    | patching i h found _ => exact (Option.some_ne_none _ found.symm).elim
    | clicking j c found _ => exact (Option.some_ne_none _ found.symm).elim
  clicks := fun _ _ found => (Option.some_ne_none _ found.symm).elim
  executed := fun _ member => absurd member List.not_mem_nil

variable {s t : State} {record : PendingApproval}

/-! A step of a message -/

theorem traced_put {i : Nat} {store : Store} {h : Handling}
    (keeps : ∀ earlier, s.messages i = some earlier → Asks earlier record → Asks h record)
    (traced : Traced s record) : Traced (s.put i store h) record := by
  obtain ⟨k, earlier, found, asks⟩ := traced
  by_cases same : k = i
  · subst same
    exact ⟨k, h, Function.update_self .., keeps earlier found asks⟩
  · exact ⟨k, earlier, (Function.update_of_ne same ..).trans found, asks⟩

/-- What a put leaves of the state: the other messages, and all clicks. -/
theorem Inv.put (inv : Inv deployment parse s) {i : Nat} {store : Store} {h : Handling}
    (sound : Sound deployment parse h)
    (keeps : ∀ record earlier, s.messages i = some earlier → Asks earlier record → Asks h record)
    (kept : ∀ token record, store token = some record → Traced s record ∨ Asks h record)
    (read : ∀ record, h.stage.record = some record → Traced s record) :
    Inv deployment parse (s.put i store h) := by
  have still : ∀ record, Traced s record → Traced (s.put i store h) record :=
    fun record => traced_put (keeps record)
  have here : (s.put i store h).messages i = some h := Function.update_self ..
  refine ⟨?_, ?_, inv.clicks, ?_⟩
  · intro k other found
    by_cases same : k = i
    · subst same
      cases here.symm.trans found
      exact sound
    · exact inv.messages k other ((Function.update_of_ne same ..).symm.trans found)
  · intro record held
    cases held with
    | stored token found =>
      rcases kept token record found with traced | asks
      · exact still record traced
      · exact ⟨i, h, here, asks⟩
    | patching k other found held =>
      by_cases same : k = i
      · subst same
        cases here.symm.trans found
        exact still record (read record held)
      · exact still record (inv.held record
          (.patching k other ((Function.update_of_ne same ..).symm.trans found) held))
    | clicking j c found held => exact still record (inv.held record (.clicking j c found held))
  · intro x member
    obtain ⟨c, record, found, traced, rest⟩ := inv.executed x member
    exact ⟨c, record, found, still record traced, rest⟩

theorem received_sound {workspaces : List Workspace} {envelope : SlackEventEnvelope} {r : Received}
    (delivered : received workspaces envelope = some r) : Sound deployment parse r.handling where
  delivered := ⟨workspaces, envelope, delivered⟩
  early := fun _ => rfl
  member := fun _ found => (Option.some_ne_none _ found.symm).elim
  ran := fun _ found => (Option.some_ne_none _ found.symm).elim
  sent := rfl

theorem Asks.patched {h : Handling} (asks : Asks h record) (messageTs : String) :
    Asks h { record with messageTs } := asks

theorem moved_store {store after : Store} {h t : Handling} {token : String}
    (moved : Moves deployment parse store h after t) (found : after token = some record) :
    store token = some record ∨ Asks t record ∨
      ∃ old messageTs, h.stage.record = some old ∧ record = { old with messageTs } := by
  cases moved with
  | stored ran pending sender other stage _ deferred _ =>
    by_cases same : token = other
    · subst same
      rw [Function.update_self] at found
      cases found
      exact .inr (.inl ⟨ran, pending, sender, deferred, rfl⟩)
    · rw [Function.update_of_ne same] at found
      exact .inl found
  | patched other messageTs old stage reads _ =>
    by_cases same : token = other
    · subst same
      rw [Function.update_self] at found
      cases found
      refine .inr (.inr ⟨old, messageTs, ?_, rfl⟩)
      rw [reads]
      rfl
    · rw [Function.update_of_ne same] at found
      exact .inl found
  | _ => exact .inl found

theorem moved_read {store after : Store} {h t : Handling}
    (moved : Moves deployment parse store h after t) (reads : t.stage.record = some record) :
    ∃ token, store token = some record := by
  cases moved with
  | stored ran pending sender token stage _ _ next => rcases next with rfl | rfl <;> cases reads
  | carded ran pending sender token accepted stage _ _ next =>
    rcases next with ⟨ts, rfl, rfl⟩ | rfl <;> cases reads
  | patched token messageTs old stage _ next => rcases next with rfl | rfl <;> cases reads
  | read token messageTs old _ found =>
    cases reads
    exact ⟨token, found⟩
  | _ => cases reads

theorem Inv.message (inv : Inv deployment parse s) {i : Nat} {h after : Handling} {store : Store}
    (found : s.messages i = some h) (moved : Moves deployment parse s.store h store after) :
    Inv deployment parse (s.put i store after) := by
  have sound := inv.messages i h found
  refine inv.put (sound.moved moved) ?_ ?_ ?_
  · intro record earlier same asks
    cases found.symm.trans same
    exact asks.moved sound moved
  · intro token record kept
    rcases moved_store moved kept with before | asks | ⟨old, messageTs, reads, rfl⟩
    · exact .inl (inv.held record (.stored token before))
    · exact .inr asks
    · exact .inl (inv.held old (.patching i h found reads))
  · intro record reads
    obtain ⟨token, before⟩ := moved_read moved reads
    exact inv.held record (.stored token before)

theorem Inv.deliver (inv : Inv deployment parse s) {i : Nat} {r : Received}
    {workspaces : List Workspace} {envelope : SlackEventEnvelope} (free : s.messages i = none)
    (delivered : received workspaces envelope = some r) :
    Inv deployment parse (s.put i s.store r.handling) := by
  refine inv.put (received_sound delivered) ?_ ?_ ?_
  · intro record earlier found
    cases free.symm.trans found
  · intro token record kept
    exact .inl (inv.held record (.stored token kept))
  · intro record reads
    cases reads

/-! A step of a click -/

theorem clicked_read {store : Store} {workspaces : List Workspace} {payload : BlockActionsPayload}
    (reads : (clicked store workspaces payload).press.record = some record) :
    ∃ token, store token = some record := by
  unfold clicked at reads
  dsimp only at reads
  split at reads
  · cases reads
  · rename_i token actionId _
    split at reads
    · cases reads
    · rename_i pending found
      split at reads <;> cases reads
      exact ⟨token, found⟩

theorem clicked_own {store : Store} {workspaces : List Workspace} {payload : BlockActionsPayload} :
    Own (clicked store workspaces payload) := by
  unfold clicked
  dsimp only
  split
  · exact ⟨fun _ _ _ _ same => Press.noConfusion same, fun _ _ same => Press.noConfusion same⟩
  · split
    · exact ⟨fun _ _ _ _ same => Press.noConfusion same, fun _ _ same => Press.noConfusion same⟩
    · split
      · exact ⟨fun _ _ _ _ same => Press.noConfusion same, fun _ _ same => Press.noConfusion same⟩
      · refine ⟨?_, fun _ _ same => Press.noConfusion same⟩
        intro token click actionId record same
        cases same
        rfl

/-- What a deletion leaves in Redis, and the record that it goes on with. -/
theorem delete_spec {c after : Clicking} {store later : Store} {acknowledged : Bool}
    (taken : c.delete store acknowledged = some (later, after)) (own : Own c) :
    (∃ token, later = Function.update store token none) ∧
      (∀ record, after.press.record = some record → c.press.record = some record) ∧
      after.payload = c.payload ∧ Own after := by
  unfold Clicking.delete at taken
  split at taken
  · rename_i token click actionId pending press
    have same : click.payload = c.payload := own.reading token click actionId pending press
    have ended : ∀ sent, Own { c with press := .finished, sent } := fun sent =>
      ⟨fun _ _ _ _ same => Press.noConfusion same, fun _ _ same => Press.noConfusion same⟩
    dsimp only at taken
    split at taken
    · split at taken
      · cases taken
        exact ⟨⟨token, rfl⟩, fun _ reads => (Option.some_ne_none _ reads.symm).elim, rfl, ended _⟩
      · rename_i botToken choice
        cases taken
        refine ⟨⟨token, rfl⟩, fun record reads => ?_, rfl, ?_⟩
        · rw [press]
          exact reads
        · refine ⟨fun _ _ _ _ same => Press.noConfusion same, fun other record approved => ?_⟩
          cases approved
          have person := (Approvals.resolve_approve_iff.mp choice).2.2
          rw [Click.clickerId, same] at person
          exact person
      · cases taken
    · cases taken
      exact ⟨⟨token, rfl⟩, fun _ reads => (Option.some_ne_none _ reads.symm).elim, rfl, ended _⟩
  · cases taken

theorem execute_spec {c after : Clicking} {action : MetaAdsAction} {result : ActionResult}
    (taken : c.execute result = some (action, after)) :
    ∃ botToken record, c.press = .approved botToken record ∧ action = record.action ∧
      after.press = .finished ∧ after.payload = c.payload := by
  unfold Clicking.execute at taken
  split at taken <;> cases taken
  rename_i botToken record press
  exact ⟨botToken, record, press, rfl, rfl, rfl⟩

theorem Inv.putClick (inv : Inv deployment parse s) {j : Nat} {store : Store} {c : Clicking}
    (own : Own c) (same : ∀ earlier, s.clicks j = some earlier → c.payload = earlier.payload)
    (kept : ∀ token record, store token = some record → s.store token = some record)
    (reads : ∀ record, c.press.record = some record → Traced s record) :
    Inv deployment parse (s.putClick j store c) := by
  have here : (s.putClick j store c).clicks j = some c := Function.update_self ..
  refine ⟨inv.messages, ?_, ?_, ?_⟩
  · intro record held
    cases held with
    | stored token found => exact inv.held record (.stored token (kept token record found))
    | patching i h found read => exact inv.held record (.patching i h found read)
    | clicking k other found read =>
      by_cases here : k = j
      · subst here
        cases (Function.update_self ..).symm.trans found
        exact reads record read
      · exact inv.held record
          (.clicking k other ((Function.update_of_ne here ..).symm.trans found) read)
  · intro k other found
    by_cases here : k = j
    · subst here
      cases (Function.update_self ..).symm.trans found
      exact own
    · exact inv.clicks k other ((Function.update_of_ne here ..).symm.trans found)
  · intro x member
    obtain ⟨earlier, record, found, traced, person, action⟩ := inv.executed x member
    by_cases own : x.1 = j
    · subst own
      refine ⟨c, record, here, traced, ?_, action⟩
      rw [← person, Clicking.clickerId, same earlier found]
      rfl
    · exact ⟨earlier, record, (Function.update_of_ne own ..).trans found, traced, person, action⟩

theorem deleted_kept {store : Store} {token other : String}
    (kept : Function.update store token none other = some record) : store other = some record := by
  by_cases same : other = token
  · subst same
    rw [Function.update_self] at kept
    cases kept
  · rwa [Function.update_of_ne same] at kept

theorem Held.before (held : Held t record)
    (store : ∀ token, t.store token = some record → s.store token = some record)
    (messages : t.messages = s.messages) (clicks : t.clicks = s.clicks) : Held s record := by
  cases held with
  | stored token found => exact .stored token (store token found)
  | patching i h found reads => exact .patching i h (messages ▸ found) reads
  | clicking j c found reads => exact .clicking j c (clicks ▸ found) reads

theorem inv_step {a : Action} (inv : Inv deployment parse s)
    (taken : Step deployment parse s a t) : Inv deployment parse t := by
  cases a with
  | deliver i workspaces envelope =>
    simp only [Step, step] at taken
    split at taken <;> cases taken
    rename_i r free delivered
    exact inv.deliver free delivered
  | message i act =>
    obtain ⟨h, found, taken⟩ := Option.bind_eq_some_iff.mp taken
    obtain ⟨⟨store, after⟩, moved, same⟩ := Option.bind_eq_some_iff.mp taken
    cases same
    exact inv.message found (step_moves moved)
  | click j workspaces payload =>
    simp only [Step, step] at taken
    split at taken <;> cases taken
    rename_i free
    refine inv.putClick clicked_own ?_ (fun _ _ found => found) ?_
    · intro earlier found
      cases free.symm.trans found
    · intro record reads
      obtain ⟨token, found⟩ := clicked_read reads
      exact inv.held record (.stored token found)
  | delete j acknowledged =>
    obtain ⟨c, found, taken⟩ := Option.bind_eq_some_iff.mp taken
    obtain ⟨⟨store, after⟩, deleted, same⟩ := Option.bind_eq_some_iff.mp taken
    cases same
    obtain ⟨⟨token, rfl⟩, reads, payload, own⟩ := delete_spec deleted (inv.clicks j c found)
    refine inv.putClick own ?_ ?_ ?_
    · intro earlier before
      cases found.symm.trans before
      exact payload
    · intro other record kept
      exact deleted_kept kept
    · intro record read
      exact inv.held record (.clicking j c found (reads record read))
  | execute j result =>
    obtain ⟨c, found, taken⟩ := Option.bind_eq_some_iff.mp taken
    obtain ⟨⟨action, after⟩, executed, same⟩ := Option.bind_eq_some_iff.mp taken
    cases same
    obtain ⟨botToken, record, press, rfl, ended, payload⟩ := execute_spec executed
    have idle : Own after := by
      refine ⟨fun _ _ _ _ other => ?_, fun _ _ other => ?_⟩ <;> cases ended.symm.trans other
    have quiet : Inv deployment parse (s.putClick j s.store after) := by
      refine inv.putClick idle ?_ (fun _ _ kept => kept) ?_
      · intro earlier before
        cases found.symm.trans before
        exact payload
      · intro other reads
        rw [ended] at reads
        cases reads
    refine ⟨quiet.messages, fun other held => ?_, quiet.clicks, ?_⟩
    · exact quiet.held other (held.before (fun _ found => found) rfl rfl)
    intro x member
    rcases List.mem_cons.mp member with rfl | member
    · refine ⟨after, record, Function.update_self .., ?_, ?_, rfl⟩
      · refine inv.held record (.clicking j c found ?_)
        rw [press]
        rfl
      · rw [← (inv.clicks j c found).approved botToken record press, Clicking.clickerId, payload]
        rfl
    · exact quiet.executed x member
  | abandon j =>
    obtain ⟨c, found, same⟩ := Option.bind_eq_some_iff.mp taken
    cases same
    refine inv.putClick ⟨fun _ _ _ _ same => Press.noConfusion same,
      fun _ _ same => Press.noConfusion same⟩ ?_ (fun _ _ kept => kept) ?_
    · intro earlier before
      cases found.symm.trans before
      rfl
    · intro record reads
      cases reads
  | expire token =>
    cases taken
    refine ⟨inv.messages, ?_, inv.clicks, inv.executed⟩
    intro record held
    exact inv.held record (held.before (fun _ => deleted_kept) rfl rfl)

/-! What is executed -/

/-- The action is the first write that the message's run put off: a run for this person, over a message
of theirs, that wrote nothing itself. -/
structure Requested (deployment : Deployment) (parse : String → Option Json) (h : Handling)
    (slackUserId : String) (action : MetaAdsAction) : Prop where
  delivered : ∃ workspaces envelope, received workspaces envelope = some h.toReceived
  sender : h.message.user = some slackUserId
  member : ∀ member, h.member = some member →
    member.workspaceId = h.workspaceId.text ∧ member.slackUserId = slackUserId
  account : action.workspaceId = uuidOf h.workspaceId ∧
    action.userId = h.member.map fun member => uuidOf member.id
  run : ∃ ran call, h.ran = some ran ∧ RunOf deployment parse h ran ∧
    (∀ call m, .calledMeta call m ∈ ran.log → m.mutating = false) ∧
    (metaWrites ran.log).head? = some call ∧
    action.toolName = call.name ∧ action.input = orEmpty call.input

theorem prepare_asks {fuel : Nat} {args : RunArguments} {world : PrepareWorld}
    {store after : AttachedStore} {prepared : Prepared} {attached : Option Attached}
    (buttons : args.options.confirmVia = some .buttons)
    (made : prepare parse fuel args world deployment store =
      some (after, .ok (prepared, attached))) : prepared.AsksVia .buttons := by
  simp only [prepare] at made
  split at made
  · cases made
    trivial
  · split at made
    · cases made
      trivial
    · split at made
      · cases made
        trivial
      · split at made
        · cases made
        · obtain ⟨⟨later, servers⟩, -, same⟩ := Option.bind_eq_some_iff.mp made
          cases same
          exact congrArg (fun via : Option ConfirmMode => via.getD .inline) buttons

theorem requested_of_asks {h : Handling} (sound : Sound deployment parse h) (asks : Asks h record) :
    Requested deployment parse h record.requesterSlackId record.action := by
  obtain ⟨ran, pending, sender, deferred, same⟩ := asks
  obtain ⟨found, ended, rest⟩ := Option.bind_eq_some_iff.mp deferred
  obtain ⟨proposed, put, rest⟩ := Option.bind_eq_some_iff.mp rest
  obtain ⟨person, sent, parts⟩ := Option.bind_eq_some_iff.mp rest
  cases parts
  have requester : record.requesterSlackId = sender :=
    congrArg PendingApproval.requesterSlackId same
  have action := congrArg PendingApproval.action same
  change record.action = (h.recordOf ran pending sender).action at action
  rw [requester, action]
  refine ⟨sound.delivered, (Option.filter_eq_some_iff.mp sent).1, ?_, ⟨rfl, rfl⟩, ?_⟩
  · intro member known
    obtain ⟨home, own⟩ := sound.member member known
    exact ⟨home, Option.some.inj (own.symm.trans sent)⟩
  · obtain ⟨fuel, world, store, after, prepared, attached, history, worlds, made, outcome⟩ :=
      sound.ran ran ended
    have approved := run_approved .buttons prepared worlds (prepare_asks rfl made)
    rw [outcome] at approved
    have captured := approved.captured rfl ran.result rfl
    rw [put] at captured
    obtain ⟨call, first, same⟩ := Option.map_eq_some_iff.mp captured.symm
    refine ⟨ran, call, ended, sound.ran ran ended, approved.untouched rfl, first, ?_, ?_⟩
    · rw [← same]
      rfl
    · rw [← same]
      rfl

/-- Whatever fails, is lost or comes twice, and in whatever order: a write that a click on Slack
executes was asked for by the person who clicked. -/
theorem executed_was_requested (reached : Reachable (Step deployment parse) start s)
    (j : Nat) (action : MetaAdsAction) (executed : (j, action) ∈ s.executed) :
    ∃ c i h, s.clicks j = some c ∧ s.messages i = some h ∧
      Requested deployment parse h c.clickerId action := by
  obtain ⟨steps, run⟩ := reached
  have inv : Inv deployment parse s :=
    run.invariant inv_start fun _ _ _ inv taken => inv_step inv taken
  obtain ⟨c, record, clicked, ⟨i, h, found, asks⟩, person, rfl⟩ := inv.executed _ executed
  refine ⟨c, i, h, clicked, found, ?_⟩
  rw [person]
  exact requested_of_asks (inv.messages i h found) asks

def acmeTeam : Workspace := ⟨acmeId.text, "Acme", "T1", some "xoxb"⟩

def adaMentions : SlackEventEnvelope where
  eventId := some "Ev1"
  teamId := some "T1"
  event :=
    { type := "app_mention", channel := some "C1", user := some "U1"
      text := some "<@U0> pause the campaign", ts := some "1.2" }

/-- The card is posted and patched, and Ada approves it. -/
def adaApproves : List Action :=
  [.deliver 0 [acmeTeam] adaMentions, .message 0 (.identify [] (some none) adaId "Ada"),
    .message 0 (.run 0 acmeWorld (fun _ => none) [] pausing),
    .message 0 (.storePending "t" true), .message 0 (.post (some (some "1.3"))),
    .click 0 [acmeTeam] (Approvals.clickOn approveActionId).payload,
    .message 0 .attachGet, .delete 0 true, .message 0 (.attachSet true),
    .execute 0 ⟨true, "Done"⟩, .message 0 .finish]

theorem ada_requested : ∃ s action, Reachable (Step acmeDeployment fun _ => none) start s ∧
    (0, action) ∈ s.executed ∧ ∃ c i h, s.clicks 0 = some c ∧ s.messages i = some h ∧
      Requested acmeDeployment (fun _ => none) h c.clickerId action := by
  have outcome : ((follow (step acmeDeployment fun _ => none) start adaApproves).map
      fun r => r.2.executed.map (·.1)) = some [0] := by decide +kernel
  obtain ⟨⟨steps, s⟩, ran, once⟩ := Option.map_eq_some_iff.mp outcome
  obtain ⟨⟨j, action⟩, member, same⟩ : ∃ x ∈ s.executed, x.1 = 0 := by
    refine List.mem_map.mp ?_
    rw [once]
    exact List.mem_singleton.mpr rfl
  cases same
  have reached : Reachable (Step acmeDeployment fun _ => none) start s := ⟨steps, follow_run ran⟩
  exact ⟨s, action, reached, member, executed_was_requested reached 0 action member⟩

/-! What is answered -/

theorem unfinished_moves (h : Handling) (sound : Sound deployment parse h) (unfinished : h.stage ≠ .finished)
    (store : Store) : ∃ act after t, h.step deployment parse store act = some (after, t) := by
  have sent := sound.sent
  unfold Sent at sent
  split at sent
  · rename_i stage
    exact ⟨.fail, by simp [Handling.step, stage]⟩
  · rename_i stage
    exact ⟨.fail, by simp [Handling.step, stage]⟩
  · rename_i stage
    obtain ⟨ran, found⟩ := Option.isSome_iff_exists.mp sent.2
    cases deferred : h.deferred with
    | none => exact ⟨.post none, by simp [Handling.step, stage, found, deferred]⟩
    | some asked => exact ⟨.fail, by simp [Handling.step, stage, deferred]⟩
  · rename_i token stage
    obtain ⟨⟨ran, pending, sender⟩, deferred⟩ := Option.isSome_iff_exists.mp sent.2
    exact ⟨.post none, by simp [Handling.step, stage, deferred]⟩
  · rename_i stage
    exact ⟨.fail, by simp [Handling.step, stage]⟩
  · rename_i stage
    exact ⟨.fail, by simp [Handling.step, stage]⟩
  · rename_i stage
    exact ⟨.post none, by simp [Handling.step, stage]⟩
  · rename_i stage
    exact ⟨.finish, by simp [Handling.step, stage]⟩
  · contradiction

/-- The steps that a call can still make. -/
def Stage.left : Stage → Nat
  | .received => 8
  | .asking => 7
  | .answered => 6
  | .carded _ => 5
  | .attaching .. => 4
  | .patching .. => 3
  | .failed => 2
  | .posted => 1
  | .finished => 0

theorem moved_left {store after : Store} {h t : Handling}
    (moved : Moves deployment parse store h after t) : t.stage.left < h.stage.left := by
  cases moved with
  | identified _ _ _ _ stage | ran _ stage _ | answered _ _ stage _ _ | apologised _ stage
  | gone _ _ stage | read _ _ _ stage _ | finished stage => simp [stage, Stage.left]
  | stored _ _ _ _ _ stage _ next | patched _ _ _ _ stage next =>
    rcases next with rfl | rfl <;> simp [stage, Stage.left]
  | carded _ _ _ _ _ _ stage _ next =>
    rcases next with ⟨ts, rfl, rfl⟩ | rfl <;> simp [stage, Stage.left]
  | failed unfailed unposted unfinished =>
    cases stage : h.stage with
    | failed | posted | finished => contradiction
    | _ => simp [Stage.left]

/-- Whatever fails, the handling of a message that is taken up comes to an end, has the reaction taken
off, and has made one call to reply, which Slack may refuse; or two, where the card is out and its
timestamp could not be kept. -/
theorem handled_is_answered (reached : Reachable (Step deployment parse) start s) (i : Nat)
    (h : Handling) (found : s.messages i = some h) :
    (h.stage = .finished →
      ∃ posts, Replied h posts ∧ h.sent = h.reaction ++ posts ++ h.cleared) ∧
    (h.stage ≠ .finished → ∃ act t, Step deployment parse s (.message i act) t) ∧
    ∀ act t, Step deployment parse s (.message i act) t →
      ∃ after, t.messages i = some after ∧ after.stage.left < h.stage.left := by
  obtain ⟨steps, run⟩ := reached
  have inv : Inv deployment parse s :=
    run.invariant inv_start fun _ _ _ inv taken => inv_step inv taken
  have sound := inv.messages i h found
  refine ⟨fun stage => ?_, fun unfinished => ?_, fun act t taken => ?_⟩
  · have sent := sound.sent
    simp only [Sent, stage] at sent
    exact sent
  · obtain ⟨act, after, t, taken⟩ := unfinished_moves h sound unfinished s.store
    refine ⟨act, s.put i after t, ?_⟩
    simp [Step, step, found, taken]
  · obtain ⟨other, same, taken⟩ := Option.bind_eq_some_iff.mp taken
    cases found.symm.trans same
    obtain ⟨⟨store, after⟩, moved, same⟩ := Option.bind_eq_some_iff.mp taken
    cases same
    exact ⟨after, Function.update_self .., moved_left (step_moves moved)⟩

theorem ada_answered : ∃ s h, Reachable (Step acmeDeployment fun _ => none) start s ∧
    s.messages 0 = some h ∧ h.sent.length = 3 ∧
    ∃ posts, Replied h posts ∧ h.sent = h.reaction ++ posts ++ h.cleared := by
  have outcome : ((follow (step acmeDeployment fun _ => none) start adaApproves).bind fun r =>
      (r.2.messages 0).map fun h => (h.stage.left, h.sent.length)) = some (0, 3) := by
    decide +kernel
  obtain ⟨⟨steps, s⟩, ran, ended⟩ := Option.bind_eq_some_iff.mp outcome
  obtain ⟨h, found, same⟩ := Option.map_eq_some_iff.mp ended
  obtain ⟨left, sent⟩ := Prod.mk.inj same
  have reached : Reachable (Step acmeDeployment fun _ => none) start s := ⟨steps, follow_run ran⟩
  have finished : h.stage = .finished := by
    cases stage : h.stage with
    | finished => rfl
    | _ => simp [stage, Stage.left] at left
  exact ⟨s, h, reached, found, sent, (handled_is_answered reached 0 h found).1 finished⟩

end

end Gomer.SlackWrites
