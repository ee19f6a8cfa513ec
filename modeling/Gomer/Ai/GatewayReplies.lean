import Gomer.Ai.Gateway
import Gomer.Ai.Telling
import Gomer.Lib.JsonText

/-! `GatewayProvider.create`: what a completion is read as, and that the transcript of a run puts
every call to the model again as it was carried out. -/
namespace Gomer.Ai

open JsNumber (Double)

/-! A completion -/

structure CompletionFunction where
  name : String
  arguments : Option String

/-- A call of another type has no function. -/
structure CompletionCall where
  id : String
  function : Option CompletionFunction

/-- `json` is the whole message as it came. -/
structure CompletionMessage where
  content : Option String
  toolCalls : Option (List CompletionCall)
  json : Json

structure CompletionChoice where
  message : Option CompletionMessage
  finishReason : Option String

structure CompletionUsage where
  promptTokens : Option Nat
  completionTokens : Option Nat

structure ChatCompletion where
  choices : List CompletionChoice
  model : Option String
  usage : Option CompletionUsage

/-- The completion and the headers of its response, or the message of what was thrown. -/
abbrev GatewayAnswer := Except String (ChatCompletion × (String → Option String))

/-! What it is read as -/

def isObject : Json → Bool
  | .obj _ => true
  | .arr _ => true
  | _ => false

def parseArguments (raw : Option String) : Json :=
  match raw with
  | none => .obj []
  | some raw =>
    if trim raw = "" then .obj []
    else
      match Json.parse raw with
      | none => .obj []
      | some parsed => if isObject parsed then parsed else .obj []

/-- The cost and the model that the headers report. -/
def costFromHeaders (headers : String → Option String) (completionModel : Option String) :
    Option Double × Option String :=
  let costUsd := (headers "x-omniroute-response-cost").bind fun rawCost =>
    match JsNumber.number rawCost with
    | .finite cost => if 0 ≤ cost then some (.finite cost) else none
    | _ => none
  (costUsd, nonEmpty ((headers "x-omniroute-model").or completionModel))

def toolCallOf (call : CompletionCall) : Option ToolCall :=
  call.function.map fun function => ⟨call.id, function.name, parseArguments function.arguments⟩

def CompletionChoice.calls (choice : CompletionChoice) : List CompletionCall :=
  (choice.message.bind (·.toolCalls)).getD []

def responseOf (completion : ChatCompletion) (headers : String → Option String) :
    ProviderResponse :=
  let choice := completion.choices.head?
  let toolCalls := ((choice.map (·.calls)).getD []).filterMap toolCallOf
  let (costUsd, resolvedModel) := costFromHeaders headers completion.model
  { text := ((choice.bind (·.message)).bind (·.content)).getD ""
    toolCalls := toolCalls
    remoteActivity := []
    usage :=
      { inputTokens := (completion.usage.bind (·.promptTokens)).getD 0
        outputTokens := (completion.usage.bind (·.completionTokens)).getD 0
        cacheWriteTokens := none
        cacheReadTokens := none
        costUsd := costUsd
        resolvedModel := resolvedModel
        cached := Nat.zero_le _ }
    -- a reply that was cut off is truncated, whatever it calls
    stopReason :=
      if choice.bind (·.finishReason) = some "length" then .truncated
      else if toolCalls.isEmpty then .ended
      else .toolUse
    raw := ((choice.bind (·.message)).map (·.json)).getD .null }

namespace GatewayProvider

def create : GatewayAnswer → Except ProviderError ProviderResponse
  | .error message => .error (.other ("AI request failed: " ++ message))
  | .ok (completion, headers) => .ok (responseOf completion headers)

end GatewayProvider

/-- An iteration on the gateway. -/
structure GatewayTurn where
  create : GatewayAnswer
  retry : GatewayAnswer
  tools : Nat → ToolWorld

def GatewayTurn.world (turn : GatewayTurn) : TurnWorld :=
  ⟨GatewayProvider.create turn.create, GatewayProvider.create turn.retry, turn.tools⟩

/-! Arguments -/

theorem parseArguments_sound (raw : Option String) :
    (parseArguments raw).Sound ∧ isObject (parseArguments raw) = true := by
  have empty : (Json.obj []).Sound ∧ isObject (.obj []) = true := ⟨⟨List.nodup_nil, trivial⟩, rfl⟩
  unfold parseArguments
  split
  · exact empty
  · split
    · exact empty
    · split
      · exact empty
      · rename_i parsed read
        split
        · rename_i object
          exact ⟨Json.parse_sound read, object⟩
        · exact empty

theorem isObject_written {v : Json} (object : isObject v = true) :
    isObject v.written = true := by
  cases v with
  | obj fields => rfl
  | arr items => rfl
  | _ => cases object

theorem trim_cons_ne {c : Char} (rest : List Char) (solid : JsNumber.isSpace c = false) :
    trim (String.ofList (c :: rest)) ≠ "" := by
  intro blank
  have none : JsNumber.trim (c :: rest) = [] := by
    have same := congrArg String.toList blank
    rwa [trim, String.toList_ofList, String.toList_ofList] at same
  rw [JsNumber.trim, List.reverse_eq_nil_iff, List.dropWhile_eq_nil_iff,
    List.dropWhile_cons_of_neg (by simp [solid])] at none
  have space := none c (List.mem_reverse.mpr List.mem_cons_self)
  rw [solid] at space
  cases space

theorem trim_object {v : Json} (object : isObject v = true) :
    trim (String.ofList v.stringify) ≠ "" := by
  cases v with
  | obj fields => exact trim_cons_ne _ (by decide)
  | arr items => exact trim_cons_ne _ (by decide)
  | _ => cases object

/-- The arguments of a call as they are rendered are read as those that came, but for the numbers
that JSON cannot write. -/
theorem parseArguments_stringify {v : Json} (sound : v.Sound) (object : isObject v = true) :
    parseArguments (some (String.ofList v.stringify)) = v.written := by
  unfold parseArguments
  dsimp only
  rw [if_neg (trim_object object), Json.parse_stringify_sound sound]
  exact if_pos (isObject_written object)

/-! The calls of a log -/

def receivedCalls (log : List Event) : List ToolCall :=
  log.flatMap fun
    | .received response => response.toolCalls
    | _ => []

def executedCalls (log : List Event) : List ToolCall :=
  log.filterMap fun
    | .executed call _ => some call
    | _ => none

def ProviderMessage.calls : ProviderMessage → List ToolCall
  | .assistant _ toolCalls _ => toolCalls
  | _ => []

def OpenAiMessage.calls : OpenAiMessage → List OpenAiToolCall
  | .assistant _ toolCalls => toolCalls
  | _ => []

theorem receivedCalls_append (first second : List Event) :
    receivedCalls (first ++ second) = receivedCalls first ++ receivedCalls second :=
  List.flatMap_append

theorem executedCalls_append (first second : List Event) :
    executedCalls (first ++ second) = executedCalls first ++ executedCalls second :=
  List.filterMap_append ..

theorem toOpenAiMessages_calls (messages : List ProviderMessage) :
    (toOpenAiMessages messages).flatMap (·.calls) = (messages.flatMap (·.calls)).map renderCall := by
  induction messages with
  | nil => rfl
  | cons message rest ih =>
    have later : (toOpenAiMessages (message :: rest)) =
        toOpenAiMessages [message] ++ toOpenAiMessages rest := by
      simp [toOpenAiMessages]
    rw [later, List.flatMap_append, ih, List.flatMap_cons, List.map_append]
    congr 1
    cases message with
    | user content => rfl
    | assistant content toolCalls raw => simp [toOpenAiMessages, OpenAiMessage.calls,
        ProviderMessage.calls]
    | tool results =>
      refine List.flatMap_eq_nil_iff.mpr fun turn listed => ?_
      rw [toOpenAiMessages, List.flatMap_singleton] at listed
      obtain ⟨result, -, rfl⟩ := List.mem_map.mp listed
      rfl

theorem Executes.executed {confirmVia : ConfirmMode} {bridged : Option BridgedToolset}
    {pending after : Option AiPendingAction} {calls : List ToolCall} {events : List Event}
    (ran : Executes confirmVia bridged pending calls after events) :
    executedCalls events = calls ∧ receivedCalls events = [] := by
  induction ran with
  | nil => exact ⟨rfl, rfl⟩
  | @cons pending after call rest later made gated tail ih =>
    have quiet : executedCalls (made.map (.calledMeta call)) = [] ∧
        receivedCalls (made.map (.calledMeta call)) = [] := by
      induction made with
      | nil => exact ⟨rfl, rfl⟩
      | cons request made ih => exact ih fun m member => gated m (List.mem_cons_of_mem _ member)
    rw [executedCalls_append, receivedCalls_append, ih.1, ih.2]
    exact ⟨congrArg (call :: · ++ rest) quiet.1, congrArg (· ++ []) quiet.2⟩

/-! A run on the gateway -/

/-- The calls that the messages repeat are those received, and what was executed is among them in
its order. -/
structure Tells (messages : List ProviderMessage) (before : List Event) : Prop where
  calls : messages.flatMap (·.calls) = receivedCalls before
  executed : (executedCalls before).Sublist (receivedCalls before)
  read : ∀ call ∈ receivedCalls before, call.input.Sound ∧ isObject call.input = true

theorem responseOf_unpaused (completion : ChatCompletion) (headers : String → Option String) :
    (responseOf completion headers).stopReason ≠ .pause := by
  unfold responseOf
  dsimp only
  split
  · nofun
  · split <;> nofun

theorem responseOf_read {completion : ChatCompletion} {headers : String → Option String}
    {call : ToolCall} (made : call ∈ (responseOf completion headers).toolCalls) :
    call.input.Sound ∧ isObject call.input = true := by
  obtain ⟨came, -, same⟩ := List.mem_filterMap.mp made
  obtain ⟨function, -, rfl⟩ := Option.map_eq_some_iff.mp same
  exact parseArguments_sound function.arguments

theorem create_ok {answer : GatewayAnswer} {response : ProviderResponse}
    (made : GatewayProvider.create answer = .ok response) :
    response.stopReason ≠ .pause ∧
      ∀ call ∈ response.toolCalls, call.input.Sound ∧ isObject call.input = true := by
  cases answer with
  | error message => cases made
  | ok answer =>
    cases made
    exact ⟨responseOf_unpaused answer.1 answer.2, fun call member => responseOf_read member⟩

theorem Tells.quiet {messages : List ProviderMessage} {before : List Event} {event : Event}
    (tells : Tells messages before) (unheard : receivedCalls [event] = [])
    (idle : executedCalls [event] = []) : Tells messages (before ++ [event]) := by
  have heard : receivedCalls (before ++ [event]) = receivedCalls before := by
    rw [receivedCalls_append, unheard, List.append_nil]
  have done : executedCalls (before ++ [event]) = executedCalls before := by
    rw [executedCalls_append, idle, List.append_nil]
  constructor
  · exact tells.calls.trans heard.symm
  · rw [heard, done]
    exact tells.executed
  · rw [heard]
    exact tells.read

/-- The calls of a response are told with the next request, whether they were executed or not. -/
theorem Tells.again {ctx : RunContext} {t u : RunState} {response : ProviderResponse}
    {earlier : List Event} (log : t.log = earlier ++ [.received response])
    (tells : Tells t.messages earlier) (unpaused : response.stopReason ≠ .pause)
    (read : ∀ call ∈ response.toolCalls, call.input.Sound ∧ isObject call.input = true)
    (continued : Continued ctx (receive t response) response (true, u)) :
    Tells u.messages u.log := by
  have heard : receivedCalls t.log = receivedCalls earlier ++ response.toolCalls := by
    rw [log, receivedCalls_append]
    exact congrArg _ (List.append_nil _)
  have idle : executedCalls t.log = executedCalls earlier := by
    rw [log, executedCalls_append]
    exact List.append_nil _
  have reads : ∀ call ∈ receivedCalls t.log, call.input.Sound ∧ isObject call.input = true := by
    intro call member
    rw [heard] at member
    exact (List.mem_append.mp member).elim (tells.read call) (read call)
  have calls : t.messages.flatMap (·.calls) ++ response.toolCalls = receivedCalls t.log := by
    rw [heard]
    exact congrArg (· ++ response.toolCalls) tells.calls
  cases continued with
  | @executed pending spaces actions events results stop some ran ids =>
    have same : receivedCalls (t.log ++ events) = receivedCalls t.log := by
      rw [receivedCalls_append, ran.executed.2, List.append_nil]
    have done : executedCalls (t.log ++ events) =
        executedCalls earlier ++ response.toolCalls := by
      rw [executedCalls_append, idle, ran.executed.1]
    refine ⟨?_, ?_, ?_⟩
    · refine Eq.trans ?_ (calls.trans same.symm)
      simp [receive, ProviderMessage.calls]
    · rw [receive]
      dsimp only
      rw [same, done, heard]
      exact tells.executed.append (List.Sublist.refl _)
    · simpa only [receive, same] using reads
  | @askedForLess results stop some first ids =>
    refine ⟨?_, ?_, reads⟩
    · refine Eq.trans ?_ calls
      simp [receive, ProviderMessage.calls]
    · rw [receive]
      dsimp only
      rw [idle, heard]
      exact tells.executed.trans (List.sublist_append_left _ _)
  | paused stop => exact absurd stop unpaused

theorem tells_start (ctx : RunContext) : Tells (startRun ctx).messages [] := by
  refine ⟨?_, List.Sublist.refl _, nofun⟩
  have silent : ∀ history : List ConversationTurn,
      (history.map ConversationTurn.message).flatMap (·.calls) = [] := by
    intro history
    refine List.flatMap_eq_nil_iff.mpr fun message listed => ?_
    obtain ⟨turn, -, rfl⟩ := List.mem_map.mp listed
    cases turn <;> rfl
  rw [startRun, List.flatMap_append, silent]
  rfl

theorem tells_kept : KeptTelling Tells fun response => response.stopReason ≠ .pause ∧
    ∀ call ∈ response.toolCalls, call.input.Sound ∧ isObject call.input = true where
  start := tells_start
  sent := fun _ _ _ tells => tells.quiet rfl rfl
  failed := fun _ _ _ tells => tells.quiet rfl rfl
  again := fun _ _ _ _ _ log tells good continued => tells.again log good.1 good.2 continued

theorem gatewayTurn_promises (turn : GatewayTurn) : Promises (fun response =>
    response.stopReason ≠ .pause ∧
      ∀ call ∈ response.toolCalls, call.input.Sound ∧ isObject call.input = true) turn.world :=
  fun _ made => made.elim create_ok create_ok

/-- What a request of a run on the gateway repeats to the model: every call received until then,
once and in its place, by its own id and name, with arguments that are read again as the input it
was executed with, exactly where that has no number beyond the doubles. What was executed until
then is among it, in order. -/
theorem run_replays (prepared : Prepared) (turns : Nat → GatewayTurn) {before after : List Event}
    {request : ProviderRequest}
    (sent : (run prepared fun i => (turns i).world).log = before ++ .sent request :: after) :
    ((toOpenAiMessages request.messages).flatMap (·.calls)).map
        (fun call => (call.id, call.name, parseArguments (some call.arguments))) =
      (receivedCalls before).map (fun call => (call.id, call.name, call.input.written)) ∧
    (executedCalls before).Sublist (receivedCalls before) ∧
    ∀ call ∈ receivedCalls before,
      parseArguments (some (renderCall call).arguments) = call.input ↔ call.input.Finite := by
  have tells := run_told tells_kept prepared (fun i => (turns i).world)
    (fun i => gatewayTurn_promises (turns i)) before request after sent
  have reads : ∀ call ∈ receivedCalls before,
      parseArguments (some (renderCall call).arguments) = call.input.written := fun call member =>
    parseArguments_stringify (tells.read call member).1 (tells.read call member).2
  refine ⟨?_, tells.executed, fun call member => ?_⟩
  · rw [toOpenAiMessages_calls, tells.calls, List.map_map]
    refine List.map_congr_left fun call member => ?_
    exact congrArg (fun input => (call.id, call.name, input)) (reads call member)
  · rw [reads call member]
    exact call.input.written_eq_iff

/-- A completion with one call, which the model repeats. -/
def listing : GatewayTurn where
  create := .ok (⟨[⟨some ⟨none, some [⟨"call_1", some ⟨"list_spaces", some "\x7b\"limit\":1e400\x7d"⟩⟩],
    .null⟩, some "tool_calls"⟩], some "gpt", some ⟨some 900, some 80⟩⟩, fun _ => none)
  retry := .error "unreachable"
  tools := fun _ => adAccount

theorem listing_replayed : ∃ before request after,
    (run (.ready (adManager .inline)) fun _ => listing.world).log =
      before ++ .sent request :: after ∧
    (receivedCalls before).length = 1 ∧
    ((toOpenAiMessages request.messages).flatMap (·.calls)).map
        (fun call => (call.id, call.name, parseArguments (some call.arguments))) =
      (receivedCalls before).map (fun call => (call.id, call.name, call.input.written)) := by
  have split := (List.take_append_drop 3
    (run (.ready (adManager .inline)) fun _ => listing.world).log).symm
  exact ⟨_, _, _, split, rfl, (run_replays _ _ split).1⟩

end Gomer.Ai
