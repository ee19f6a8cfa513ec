import Gomer.Ai.Telling
import Gomer.Ai.TranscriptCache
import Mathlib.Data.List.Infix

/-! `AnthropicProvider.create`: what a message is read as, and that its requests repeat every
message as it came, with each call to a tool of ours answered in the turn after it. -/
namespace Gomer.Ai

open Anthropic

/-! A message -/

/-- The token counts leave the cached ones out. -/
structure BetaUsage where
  inputTokens : Nat
  outputTokens : Nat
  cacheCreationInputTokens : Option Nat
  cacheReadInputTokens : Option Nat

/-- The blocks are kept as they came. -/
structure BetaMessage where
  content : List Json
  stopReason : Option String
  usage : BetaUsage

namespace ContentBlock

variable (block : Json)

def text? (key : String) : Option String :=
  match block.get? key with
  | some (.str value) => some value
  | _ => none

/-- A field that the type says is a string. -/
def text (key : String) : String := (text? block key).getD ""

def isType (type : String) : Bool := text? block "type" == some type

def toolCall? : Option ToolCall :=
  if isType block "tool_use" then
    some ⟨text block "id", text block "name", (block.get? "input").elim (.obj []) orEmpty⟩
  else none

/-- Results arrive right after their call, so that the open activity is the last. -/
def activity (done : List AiAction) : List AiAction :=
  if isType block "mcp_tool_use" then
    done ++ [⟨text block "server_name", text block "name", false⟩]
  else if isType block "mcp_tool_result" then
    done.modifyLast fun last => { last with isError := isTrue (block.get? "is_error") }
  else done

end ContentBlock

open ContentBlock

namespace BetaMessage

variable (message : BetaMessage)

def toolCalls : List ToolCall := message.content.filterMap toolCall?

def stop : ProviderStopReason :=
  if message.stopReason = some "max_tokens" then .truncated
  else if message.stopReason = some "tool_use" ∧ message.toolCalls ≠ [] then .toolUse
  else if message.stopReason = some "pause_turn" then .pause
  else .ended

/-- The sizes of the prompt that was sent and of its cached parts. -/
def providerUsage : ProviderUsage where
  inputTokens := message.usage.inputTokens + message.usage.cacheCreationInputTokens.getD 0 +
    message.usage.cacheReadInputTokens.getD 0
  outputTokens := message.usage.outputTokens
  cacheWriteTokens := some (message.usage.cacheCreationInputTokens.getD 0)
  cacheReadTokens := some (message.usage.cacheReadInputTokens.getD 0)
  costUsd := none
  resolvedModel := none
  cached := by
    simp only [Option.getD_some]
    omega

end BetaMessage

def fromAnthropicMessage (message : BetaMessage) : ProviderResponse where
  text := String.join ((message.content.filter (isType · "text")).map (text · "text"))
  toolCalls := message.toolCalls
  remoteActivity := message.content.foldl (fun done block => activity block done) []
  usage := message.providerUsage
  stopReason := message.stop
  raw := .arr message.content

/-- The message, or that of what the SDK threw. -/
abbrev AnthropicAnswer := Except String BetaMessage

namespace AnthropicProvider

def create : AnthropicAnswer → Except ProviderError ProviderResponse
  | .ok message => .ok (fromAnthropicMessage message)
  | .error message =>
    -- one unreachable server fails the whole request
    if "MCP server".toList <:+: message.toList then .error (.mcpConnection message)
    else .error (.other ("AI request failed: " ++ message))

end AnthropicProvider

structure AnthropicTurn where
  create : AnthropicAnswer
  retry : AnthropicAnswer
  tools : Nat → ToolWorld

def AnthropicTurn.world (turn : AnthropicTurn) : TurnWorld :=
  ⟨AnthropicProvider.create turn.create, AnthropicProvider.create turn.retry, turn.tools⟩

/-! What is sent -/

/-- The calls of an assistant turn, and the results of a user turn. -/
inductive WireTurn where
  | asks (ids : List String)
  | answers (ids : List String)

def callIds (blocks : List Json) : List String := (blocks.filterMap toolCall?).map (·.id)

def resultIds (blocks : List Json) : List String :=
  (blocks.filter (isType · "tool_result")).map (text · "tool_use_id")

def wireTurn : AnthropicMessage → WireTurn
  | .assistant (.arr blocks) => .asks (callIds blocks)
  | .assistant _ => .asks []
  | .user content => .answers (resultIds content.toBlocks)

/-- Every call is answered in the next turn, in its place, and nothing else is; `due` are the
calls of the turn before. -/
def Settled : List String → List WireTurn → Prop
  | due, [] => due = []
  | due, .asks ids :: rest => due = [] ∧ Settled ids rest
  | due, .answers ids :: rest => ids = due ∧ Settled [] rest

/-- The content of an assistant turn of blocks. -/
def replayedContent : AnthropicMessage → Option Json
  | .assistant (.arr blocks) => some (.arr blocks)
  | _ => none

def receivedContents (log : List Event) : List Json :=
  log.filterMap fun
    | .received response => some response.raw
    | _ => none

/-! A mark leaves the calls and the results alone -/

theorem get?_withField {key other : String} (different : key ≠ other) (content : Json)
    (fields : List (String × Json)) :
    (Json.obj (JsHeap.withField other content fields)).get? key = (Json.obj fields).get? key := by
  have kept : ∀ named : List (String × Json),
      named.reverse.find? (·.1 == key) =
        (named.filter (·.1 != other)).reverse.find? (·.1 == key) := by
    intro named
    rw [← List.filter_reverse, List.find?_filter]
    congr 1
    funext field
    by_cases same : field.1 = key
    · simp [same, different]
    · simp [same]
  rw [Json.get?, Json.get?, kept, JsHeap.filter_withField, ← kept]

theorem text?_withCacheControl {key : String} (different : key ≠ "cache_control") (block : Json) :
    text? (withCacheControl block) key = text? block key := by
  cases block with
  | obj fields =>
    unfold text?
    rw [withCacheControl, get?_withField different]
  | _ => rfl

theorem resultIds_withCacheControl (init : List Json) (block : Json) :
    resultIds (init ++ [withCacheControl block]) = resultIds (init ++ [block]) := by
  have type : isType (withCacheControl block) "tool_result" = isType block "tool_result" := by
    rw [isType, isType, text?_withCacheControl (by decide)]
  have id : text (withCacheControl block) "tool_use_id" = text block "tool_use_id" := by
    rw [text, text, text?_withCacheControl (by decide)]
  simp only [resultIds, List.filter_append, List.map_append, List.filter_cons, List.filter_nil, type]
  split <;> simp [id]

theorem wireTurn_mark (message : AnthropicMessage) (breaks : message.canBreak = true) :
    wireTurn message.mark = wireTurn message := by
  cases message with
  | assistant content => rfl
  | user content =>
    obtain ⟨init, named, ends, same⟩ := mark_ends breaks
    rw [same, wireTurn, wireTurn, ends, toBlocks_blocks]
    exact congrArg WireTurn.answers (resultIds_withCacheControl init (.obj named))

theorem sentMessages_turns (messages : List ProviderMessage) :
    (sentMessages messages).map wireTurn = messages.map fun message => wireTurn (rendered message) := by
  rw [sentMessages, Trailing.map_update _ _ wireTurn_mark, List.map_map]
  rfl

theorem sentMessages_replayed (messages : List ProviderMessage) :
    (sentMessages messages).filterMap replayedContent =
      messages.filterMap fun message => replayedContent (rendered message) := by
  have same : (sentMessages messages).map replayedContent =
      (messages.map rendered).map replayedContent := by
    refine Trailing.map_update _ _ (fun message _ => ?_) _ _
    cases message <;> rfl
  calc (sentMessages messages).filterMap replayedContent
      = ((sentMessages messages).map replayedContent).filterMap id := by
        rw [List.filterMap_map, Function.id_comp]
    _ = ((messages.map rendered).map replayedContent).filterMap id := by rw [same]
    _ = messages.filterMap fun message => replayedContent (rendered message) := by
        rw [List.filterMap_map, Function.id_comp, List.filterMap_map]
        rfl

theorem resultIds_results (results : List ToolResult) :
    resultIds (results.map resultBlock) = results.map (·.id) := by
  induction results with
  | nil => rfl
  | cons result rest ih =>
    have first : resultIds [resultBlock result] = [result.id] := by
      cases flag : result.isError <;>
        simp [resultIds, isType, text, text?, resultBlock, Json.get?, flag]
    calc resultIds ((result :: rest).map resultBlock)
        = resultIds [resultBlock result] ++ resultIds (rest.map resultBlock) := by
          rw [List.map_cons, ← List.singleton_append, resultIds, List.filter_append, List.map_append]
          rfl
      _ = (result :: rest).map (·.id) := by
          rw [first, ih]
          rfl

/-! A run on Anthropic -/

theorem Settled.append {due : List String} {first second : List WireTurn}
    (before : Settled due first) (after : Settled [] second) : Settled due (first ++ second) := by
  induction first generalizing due with
  | nil =>
    cases (before : due = [])
    exact after
  | cons turn rest ih =>
    cases turn with
    | asks ids => exact ⟨before.1, ih before.2⟩
    | answers ids => exact ⟨before.1, ih before.2⟩

/-- The messages that were received are repeated as they came, and their calls are answered. -/
structure Wired (messages : List ProviderMessage) (before : List Event) : Prop where
  settled : Settled [] (messages.map fun message => wireTurn (rendered message))
  replayed : messages.filterMap (fun message => replayedContent (rendered message)) =
    receivedContents before

/-- A message that pauses asks for no tool of ours. -/
def Pauses (message : BetaMessage) : Prop :=
  message.stopReason = some "pause_turn" → message.toolCalls = []

/-- What the adapter hands on. -/
def FromAnthropic (response : ProviderResponse) : Prop :=
  ∃ message, response = fromAnthropicMessage message ∧ Pauses message

theorem receivedContents_append (first second : List Event) :
    receivedContents (first ++ second) = receivedContents first ++ receivedContents second :=
  List.filterMap_append ..

theorem Executes.unreceived {confirmVia : ConfirmMode} {bridged : Option BridgedToolset}
    {pending after : Option AiPendingAction} {calls : List ToolCall} {events : List Event}
    (ran : Executes confirmVia bridged pending calls after events) :
    receivedContents events = [] := by
  rw [receivedContents, List.filterMap_eq_nil_iff]
  intro event found
  have local? := ran.tools event found
  cases event with
  | received response => cases local?
  | _ => rfl

theorem stop_pause {message : BetaMessage} (stop : message.stop = .pause) :
    message.stopReason = some "pause_turn" := by
  unfold BetaMessage.stop at stop
  split at stop
  · cases stop
  · split at stop
    · cases stop
    · split at stop
      · assumption
      · cases stop

theorem Wired.again {ctx : RunContext} {t u : RunState} {response : ProviderResponse}
    {earlier : List Event} (log : t.log = earlier ++ [.received response])
    (wired : Wired t.messages earlier) (came : FromAnthropic response)
    (continued : Continued ctx (receive t response) response (true, u)) :
    Wired u.messages u.log := by
  obtain ⟨message, rfl, pauses⟩ := came
  have heard : receivedContents t.log = receivedContents earlier ++ [.arr message.content] := by
    rw [log, receivedContents_append]
    rfl
  have grown (more : List ProviderMessage)
      (settled : Settled [] (more.map fun message => wireTurn (rendered message)))
      (replayed : more.filterMap (fun message => replayedContent (rendered message)) =
        [.arr message.content]) : Wired (t.messages ++ more) t.log := by
    constructor
    · rw [List.map_append]
      exact wired.settled.append settled
    · rw [List.filterMap_append, wired.replayed, replayed, heard]
  cases continued with
  | @executed pending spaces actions events results stop some ran ids =>
    have told := grown [.assistant (fromAnthropicMessage message).text message.toolCalls
        (Option.some (.arr message.content)), .tool results]
      ⟨rfl, by rw [toBlocks_blocks, resultIds_results, ids]; rfl, rfl⟩ rfl
    refine ⟨told.settled, ?_⟩
    have same : receivedContents (t.log ++ events) = receivedContents t.log := by
      rw [receivedContents_append, ran.unreceived, List.append_nil]
    exact told.replayed.trans same.symm
  | @askedForLess results stop some first ids =>
    exact grown [.assistant (fromAnthropicMessage message).text message.toolCalls
        (Option.some (.arr message.content)), .tool results]
      ⟨rfl, by rw [toBlocks_blocks, resultIds_results, ids]; rfl, rfl⟩ rfl
  | paused stop =>
    have none : callIds message.content = [] := by
      rw [callIds]
      exact congrArg (List.map _) (pauses (stop_pause stop))
    exact grown [.assistant (fromAnthropicMessage message).text []
      (Option.some (.arr message.content))] ⟨rfl, none⟩ rfl

theorem wired_start (ctx : RunContext) : Wired (startRun ctx).messages [] := by
  have told : ∀ history : List ConversationTurn,
      Settled [] ((history.map ConversationTurn.message).map fun m => wireTurn (rendered m)) ∧
      (history.map ConversationTurn.message).filterMap (fun m => replayedContent (rendered m)) = [] := by
    intro history
    induction history with
    | nil => exact ⟨rfl, rfl⟩
    | cons turn rest ih => cases turn <;> exact ⟨⟨rfl, ih.1⟩, ih.2⟩
  constructor
  · rw [startRun, List.map_append]
    exact (told ctx.history).1.append ⟨rfl, rfl⟩
  · rw [startRun, List.filterMap_append, (told ctx.history).2]
    rfl

theorem wired_kept : KeptTelling Wired FromAnthropic where
  start := wired_start
  sent := fun messages before request wired =>
    ⟨wired.settled, by rw [receivedContents_append, wired.replayed]; exact (List.append_nil _).symm⟩
  failed := fun messages before e wired =>
    ⟨wired.settled, by rw [receivedContents_append, wired.replayed]; exact (List.append_nil _).symm⟩
  again := fun _ _ _ _ _ log wired came continued => wired.again log came continued

theorem create_ok_message {answer : AnthropicAnswer} {response : ProviderResponse}
    (made : AnthropicProvider.create answer = .ok response) :
    ∃ message, answer = .ok message ∧ response = fromAnthropicMessage message := by
  cases answer with
  | ok message =>
    cases made
    exact ⟨message, rfl, rfl⟩
  | error message =>
    unfold AnthropicProvider.create at made
    dsimp only at made
    split at made <;> cases made

/-- What a request of a run sends to Anthropic: every message received until then, block by block
as it came and in its order, and after each one the results of exactly the calls it makes to tools
of ours, in their order. -/
theorem run_settles (prepared : Prepared) (turns : Nat → AnthropicTurn)
    (pauses : ∀ i message, (turns i).create = .ok message ∨ (turns i).retry = .ok message →
      Pauses message) {before after : List Event} {request : ProviderRequest}
    (sent : (run prepared fun i => (turns i).world).log = before ++ .sent request :: after) :
    Settled [] ((sentMessages request.messages).map wireTurn) ∧
      (sentMessages request.messages).filterMap replayedContent = receivedContents before := by
  have promises : ∀ i, Promises FromAnthropic (turns i).world := by
    intro i response made
    rcases made with made | made
    · obtain ⟨message, came, rfl⟩ := create_ok_message made
      exact ⟨message, rfl, pauses i message (.inl came)⟩
    · obtain ⟨message, came, rfl⟩ := create_ok_message made
      exact ⟨message, rfl, pauses i message (.inr came)⟩
  have wired := run_told wired_kept prepared _ promises before request after sent
  rw [sentMessages_turns, sentMessages_replayed]
  exact ⟨wired.settled, wired.replayed⟩

/-- A message that thinks and calls a tool, which the model repeats. -/
def listingMessage : BetaMessage where
  content := [.obj [("type", .str "thinking"), ("thinking", .str "Which Spaces are there?")],
    .obj [("type", .str "tool_use"), ("id", .str "toolu_1"), ("name", .str "list_spaces"),
      ("input", .obj [])]]
  stopReason := some "tool_use"
  usage := ⟨12, 80, some 900, none⟩

def listingTurn : AnthropicTurn := ⟨.ok listingMessage, .error "overloaded", fun _ => adAccount⟩

theorem listing_settled : ∃ before request after,
    (run (.ready (adManager .inline)) fun _ => listingTurn.world).log =
      before ++ .sent request :: after ∧
    receivedContents before = [.arr listingMessage.content] ∧
    Settled [] ((sentMessages request.messages).map wireTurn) ∧
    (sentMessages request.messages).filterMap replayedContent = receivedContents before := by
  have split := (List.take_append_drop 3
    (run (.ready (adManager .inline)) fun _ => listingTurn.world).log).symm
  have pauses : ∀ message, listingTurn.create = .ok message ∨ listingTurn.retry = .ok message →
      Pauses message := by
    intro message came stop
    rcases came with came | came <;> cases came
    exact absurd stop (by decide)
  have settles := run_settles (.ready (adManager .inline)) (fun _ => listingTurn)
    (fun _ => pauses) split
  exact ⟨_, _, _, split, rfl, settles⟩

end Gomer.Ai
