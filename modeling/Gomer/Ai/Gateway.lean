import Gomer.Ai.Run

/-! `GatewayProvider.toOpenAiMessages`, and the transcripts it renders into one tool message for
each call. -/
namespace Gomer.Ai

structure OpenAiToolCall where
  id : String
  name : String
  arguments : String

/-- Without calls, `tool_calls` is left out. -/
inductive OpenAiMessage where
  | user (content : String)
  | assistant (content : Option String) (toolCalls : List OpenAiToolCall)
  | tool (toolCallId content : String)

def renderCall (call : ToolCall) : OpenAiToolCall :=
  ⟨call.id, call.name, String.ofList call.input.stringify⟩

def renderResult (result : ToolResult) : OpenAiMessage := .tool result.id result.content

def toOpenAiMessages (messages : List ProviderMessage) : List OpenAiMessage :=
  messages.flatMap fun
    | .user content => [.user content]
    | .assistant content toolCalls _ => [.assistant (nonEmpty (some content)) (toolCalls.map renderCall)]
    | .tool results => results.map renderResult

/-! Transcripts -/

/-- Every turn with tool calls is followed by the turn that answers them, in their order; there
are no other tool turns. -/
inductive Answered : List ProviderMessage → Prop where
  | nil : Answered []
  | user {rest : List ProviderMessage} (content : String) (tail : Answered rest) :
      Answered (.user content :: rest)
  | text {rest : List ProviderMessage} (content : String) (raw : Option Json)
      (tail : Answered rest) : Answered (.assistant content [] raw :: rest)
  | calls {rest : List ProviderMessage} (content : String) {toolCalls : List ToolCall}
      (raw : Option Json) {results : List ToolResult}
      (ids : results.map (·.id) = toolCalls.map (·.id)) (tail : Answered rest) :
      Answered (.assistant content toolCalls raw :: .tool results :: rest)

/-- The same, read off the positions of the turns. -/
def AnswersCalls (messages : List ProviderMessage) : Prop :=
  ∀ (i : Nat) (content : String) (toolCalls : List ToolCall) (raw : Option Json),
    messages[i]? = some (.assistant content toolCalls raw) → toolCalls ≠ [] →
    ∃ results, messages[i + 1]? = some (.tool results) ∧
      results.map (·.id) = toolCalls.map (·.id)

/-- Each call gets one tool message, in the order of the calls, before anything else follows;
`unanswered` are the calls still without one. -/
def Paired : List String → List OpenAiMessage → Prop
  | unanswered, [] => unanswered = []
  | unanswered, .tool id _ :: rest => ∃ later, unanswered = id :: later ∧ Paired later rest
  | unanswered, .user _ :: rest => unanswered = [] ∧ Paired [] rest
  | unanswered, .assistant _ toolCalls :: rest =>
    unanswered = [] ∧ Paired (toolCalls.map (·.id)) rest

theorem Answered.append {first second : List ProviderMessage} (before : Answered first)
    (after : Answered second) : Answered (first ++ second) := by
  induction before with
  | nil => exact after
  | user content _ ih => exact .user content ih
  | text content raw _ ih => exact .text content raw ih
  | calls content raw ids _ ih => exact .calls content raw ids ih

theorem answersCalls_of_answered {messages : List ProviderMessage} (answered : Answered messages) :
    AnswersCalls messages := by
  induction answered with
  | nil =>
    intro i content toolCalls raw asked
    cases asked
  | user _ _ ih =>
    intro i content toolCalls raw asked some
    cases i with
    | zero => cases asked
    | succ i => exact ih i content toolCalls raw asked some
  | text _ _ _ ih =>
    intro i content toolCalls raw asked some
    cases i with
    | zero =>
      cases asked
      exact absurd rfl some
    | succ i => exact ih i content toolCalls raw asked some
  | calls _ _ ids _ ih =>
    intro i content toolCalls raw asked some
    match i with
    | 0 =>
      cases asked
      exact ⟨_, rfl, ids⟩
    | 1 => cases asked
    | i + 2 => exact ih i content toolCalls raw asked some

theorem paired_results {results : List ToolResult} {rest : List OpenAiMessage}
    (tail : Paired [] rest) :
    Paired (results.map (·.id)) (results.map renderResult ++ rest) := by
  induction results with
  | nil => exact tail
  | cons result later ih => exact ⟨_, rfl, ih⟩

theorem paired_of_answered {messages : List ProviderMessage} (answered : Answered messages) :
    Paired [] (toOpenAiMessages messages) := by
  induction answered with
  | nil => rfl
  | user content _ ih => exact ⟨rfl, ih⟩
  | text content raw _ ih => exact ⟨rfl, ih⟩
  | @calls rest content toolCalls raw results ids _ ih =>
    have named : (toolCalls.map renderCall).map (·.id) = results.map (·.id) := by
      rw [ids, List.map_map]
      rfl
    refine ⟨rfl, ?_⟩
    rw [named]
    exact paired_results ih

end Gomer.Ai
