import Gomer.Lib.Number
import Gomer.Lib.Render

/-! `SlackEventsService`: which messages are handled, up to the workspace and the prompt of a run. -/
namespace Gomer.Slack

structure SlackMessageEvent where
  type : String
  channelType : Option String := none
  channel : Option String := none
  user : Option String := none
  text : Option String := none
  botId : Option String := none
  subtype : Option String := none
  ts : Option String := none
  threadTs : Option String := none

structure SlackEventEnvelope where
  eventId : Option String := none
  teamId : Option String
  event : SlackMessageEvent

structure Workspace where
  id : String
  name : String
  slackTeamId : String
  slackBotToken : Option String
  deriving DecidableEq

def isHandledMessage (event : SlackMessageEvent) : Bool :=
  if (nonEmpty event.botId).isSome || (nonEmpty event.subtype).isSome then false
  else if event.type == "app_mention" then true
  else event.type == "message" && event.channelType == some "im"

/-- `replace(/<@[^>]+>/g, '')`, over at most `fuel` characters. -/
def stripMentions : Nat → List Char → List Char
  | fuel + 1, '<' :: '@' :: rest =>
    match rest.takeWhile (· != '>'), rest.dropWhile (· != '>') with
    | _ :: _, '>' :: after => stripMentions fuel after
    | _, _ => '<' :: stripMentions fuel ('@' :: rest)
  | fuel + 1, c :: rest => c :: stripMentions fuel rest
  | _, _ => []

def cleanText (text : String) : List Char :=
  JsNumber.trim (stripMentions text.length text.toList)

/-- The set of recent event ids, the oldest first. -/
def rememberEventId (seen : List String) (eventId : String) : List String :=
  let added := if eventId ∈ seen then seen else seen ++ [eventId]
  if 1000 < added.length then added.tail else added

/-- The workspace that answers a message. -/
def answering (workspaces : List Workspace) (envelope : SlackEventEnvelope) : Option Workspace :=
  if isHandledMessage envelope.event then
    match nonEmpty envelope.teamId, nonEmpty envelope.event.channel,
        cleanText (envelope.event.text.getD "") with
    | some teamId, some _, _ :: _ =>
      (workspaces.find? fun workspace => workspace.slackTeamId == teamId).filter fun workspace =>
        (nonEmpty workspace.slackBotToken).isSome
    | _, _, _ => none
  else none

/-- A repeated delivery is dropped. -/
def isRepeated (seen : List String) (envelope : SlackEventEnvelope) : Bool :=
  (nonEmpty envelope.eventId).any fun eventId => eventId ∈ seen

theorem length_rememberEventId {seen : List String} (bounded : seen.length ≤ 1000)
    (eventId : String) : (rememberEventId seen eventId).length ≤ 1000 := by
  unfold rememberEventId
  by_cases known : eventId ∈ seen
  · rw [if_pos known, if_neg (Nat.not_lt.mpr bounded)]
    exact bounded
  · rw [if_neg known]
    dsimp only
    split
    · rw [List.length_tail, List.length_append, List.length_singleton]
      omega
    · omega

/-- Slack's retry of an event that has just come is dropped. -/
theorem isRepeated_retry {seen : List String} (bounded : seen.length ≤ 1000)
    {envelope : SlackEventEnvelope} {eventId : String}
    (named : nonEmpty envelope.eventId = some eventId) :
    isRepeated (rememberEventId seen eventId) envelope = true := by
  have kept : eventId ∈ rememberEventId seen eventId := by
    unfold rememberEventId
    by_cases known : eventId ∈ seen
    · rw [if_pos known, if_neg (Nat.not_lt.mpr bounded)]
      exact known
    · rw [if_neg known]
      dsimp only
      split
      · rename_i full
        rw [List.length_append, List.length_singleton] at full
        have some : seen ≠ [] := fun none => by
          subst none
          exact absurd full (by decide)
        rw [List.tail_append_of_ne_nil some]
        exact List.mem_append_right _ List.mem_cons_self
      · exact List.mem_append_right _ List.mem_cons_self
  simp [isRepeated, named, kept]

end Gomer.Slack
