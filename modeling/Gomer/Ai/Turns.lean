import Gomer.Ai.Run

/-! What one iteration of the loop can do: what it sends, the calls it executes and the turns it
adds. Laws about whole runs are proved from these cases with `loop_rule`. -/
namespace Gomer.Ai

/-- The calls in order, each with the Marketing API calls it made; `before` and `after` are the
captured write. -/
inductive Executes (confirmVia : ConfirmMode) (bridged : Option BridgedToolset) :
    Option AiPendingAction → List ToolCall → Option AiPendingAction → List Event → Prop where
  | nil (pending : Option AiPendingAction) : Executes confirmVia bridged pending [] pending []
  | cons {pending after : Option AiPendingAction} {call : ToolCall} {rest : List ToolCall}
      {later : List Event} (made : List MetaAdsCall)
      (gated : ∀ m ∈ made, m.mutating = true →
        isMetaWrite bridged call = true ∧ confirmVia = .inline ∧
          isTrue (call.input.get? "confirmed") = true)
      (tail : Executes confirmVia bridged
        (if isMetaWrite bridged call && confirmVia == .buttons then
          pending.or (some (proposedAction call)) else pending) rest after later) :
      Executes confirmVia bridged pending (call :: rest) after
        (.executed call (isBridged bridged call.name) :: made.map (.calledMeta call) ++ later)

/-- What the log holds of the outcome of a request. -/
def heard : Except ProviderError ProviderResponse → Event
  | .ok response => .received response
  | .error e => .failed e

def isExchange : Event → Bool
  | .executed .. => false
  | .calledMeta .. => false
  | _ => true

/-- Executing calls exchanges nothing with the provider. -/
theorem Executes.tools {confirmVia : ConfirmMode} {bridged : Option BridgedToolset}
    {pending after : Option AiPendingAction} {calls : List ToolCall} {events : List Event}
    (ran : Executes confirmVia bridged pending calls after events) :
    ∀ event ∈ events, isExchange event = false := by
  induction ran with
  | nil =>
    intro event found
    cases found
  | cons made _ _ ih =>
    intro event found
    rcases List.mem_append.mp found with found | found
    · rcases List.mem_cons.mp found with rfl | found
      · rfl
      · obtain ⟨m, _, rfl⟩ := List.mem_map.mp found
        rfl
    · exact ih event found

section
variable (ctx : RunContext)

/-- What a request comes to. -/
inductive Asked (world : TurnWorld) (s : RunState) :
    RunState × Except ProviderError ProviderResponse → Prop where
  | answered {response : ProviderResponse} (outcome : world.create = .ok response) :
      Asked world s
        (s.note [.sent (requestOf ctx s), .received response], .ok response)
  | failed {e : ProviderError} (outcome : world.create = .error e)
      (fatal : (s.mcpServers.isEmpty || !e.isMcpConnection) = true) :
      Asked world s (s.note [.sent (requestOf ctx s), .failed e], .error e)
  | retried {e : ProviderError} {response : ProviderResponse} (outcome : world.create = .error e)
      (dropped : (s.mcpServers.isEmpty || !e.isMcpConnection) = false)
      (again : world.retry = .ok response) :
      Asked world s
        ((dropConnectors ctx s).note [.sent (requestOf ctx s), .failed e,
          .sent (requestOf ctx (dropConnectors ctx s)), .received response], .ok response)
  | gaveUp {e f : ProviderError} (outcome : world.create = .error e)
      (dropped : (s.mcpServers.isEmpty || !e.isMcpConnection) = false)
      (again : world.retry = .error f) :
      Asked world s
        ((dropConnectors ctx s).note [.sent (requestOf ctx s), .failed e,
          .sent (requestOf ctx (dropConnectors ctx s)), .failed f], .error f)

theorem createResponse_asked (world : TurnWorld) (s : RunState) :
    Asked ctx world s (createResponse ctx world s) := by
  cases outcome : world.create with
  | ok response =>
    have same : createResponse ctx world s =
        (s.note [.sent (requestOf ctx s), .received response], .ok response) := by
      simp only [createResponse, outcome, RunState.note, List.append_assoc, List.cons_append,
        List.nil_append]
    exact same ▸ .answered outcome
  | error e =>
    cases fatal : s.mcpServers.isEmpty || !e.isMcpConnection with
    | true =>
      have same : createResponse ctx world s =
          (s.note [.sent (requestOf ctx s), .failed e], .error e) := by
        simp only [createResponse, outcome, RunState.note, fatal, if_true, List.append_assoc,
          List.cons_append, List.nil_append]
      exact same ▸ .failed outcome fatal
    | false =>
      cases again : world.retry with
      | ok response =>
        have same : createResponse ctx world s =
            ((dropConnectors ctx s).note [.sent (requestOf ctx s), .failed e,
              .sent (requestOf ctx (dropConnectors ctx s)), .received response],
              .ok response) := by
          simp [createResponse, outcome, again, RunState.note, fatal, dropConnectors, requestOf]
        exact same ▸ .retried outcome fatal again
      | error f =>
        have same : createResponse ctx world s =
            ((dropConnectors ctx s).note [.sent (requestOf ctx s), .failed e,
              .sent (requestOf ctx (dropConnectors ctx s)), .failed f], .error f) := by
          simp [createResponse, outcome, again, RunState.note, fatal, dropConnectors, requestOf]
        exact same ▸ .gaveUp outcome fatal again

/-- Executing calls answers each of them, and leaves the transcript and the usage alone. -/
theorem executeAll_effect (worlds : Nat → ToolWorld) (s : RunState) (calls : List ToolCall) :
    ∃ pending spaces actions events,
      (executeAll ctx worlds s calls).1 =
        { s with pending := pending, spaces := spaces, actions := actions, log := s.log ++ events } ∧
      Executes ctx.confirmVia s.bridged s.pending calls pending events ∧
      (executeAll ctx worlds s calls).2.map (·.id) = calls.map (·.id) := by
  induction calls generalizing worlds s with
  | nil => exact ⟨s.pending, s.spaces, s.actions, [], by simp [executeAll], .nil _, rfl⟩
  | cons call rest ih =>
    obtain ⟨pending, spaces, actions, events, state, ran, ids⟩ :=
      ih (fun i => worlds (i + 1)) (execute ctx (worlds 0) s call).1
    let first := runTool ctx.confirmVia (worlds 0) s.pending s.spaces call s.bridged
    have next : (execute ctx (worlds 0) s call).1.pending =
        if isMetaWrite s.bridged call && ctx.confirmVia == .buttons then
          s.pending.or (some (proposedAction call)) else s.pending := runTool_pending
    rw [next] at ran
    refine ⟨pending, spaces, actions, _, ?_,
      .cons first.metaAds (fun m made mutating => runTool_mutating made mutating) ran, ?_⟩
    · refine state.trans ?_
      simp only [execute, first, List.append_assoc, List.cons_append]
    · simp only [executeAll, List.map_cons, ids]
      rfl

/-- What an iteration makes of its response. -/
inductive Continued (s : RunState) (response : ProviderResponse) :
    Bool × RunState → Prop where
  | executed {pending : Option AiPendingAction} {spaces : List AiSpace} {actions : List AiAction}
      {events : List Event} {results : List ToolResult} (stop : response.stopReason = .toolUse)
      (calls : response.toolCalls ≠ [])
      (ran : Executes ctx.confirmVia s.bridged s.pending response.toolCalls pending events)
      (ids : results.map (·.id) = response.toolCalls.map (·.id)) :
      Continued s response (true,
        { s with
          messages := s.messages ++
            [.assistant response.text response.toolCalls (some response.raw), .tool results]
          pending := pending
          spaces := spaces
          actions := actions
          log := s.log ++ events })
  | askedForLess {results : List ToolResult} (stop : response.stopReason = .truncated)
      (calls : response.toolCalls ≠ []) (first : s.truncations = 0)
      (ids : results.map (·.id) = response.toolCalls.map (·.id)) :
      Continued s response (true,
        { s with
          messages := s.messages ++
            [.assistant response.text response.toolCalls (some response.raw), .tool results]
          truncations := 1 })
  | gaveUp {answer : String} (stop : response.stopReason = .truncated)
      (again : s.truncations ≠ 0) :
      Continued s response
        (false, { s with truncations := s.truncations + 1, answer := answer })
  | paused (stop : response.stopReason = .pause) :
      Continued s response
        (true, s.say (.assistant response.text [] (some response.raw)))
  | answered (unpaused : response.stopReason ≠ .pause)
      (done : response.stopReason = .toolUse ∨ response.stopReason = .truncated →
        response.toolCalls = []) :
      Continued s response (false, s)

theorem answerTurn_continued (worlds : Nat → ToolWorld) (s : RunState)
    (response : ProviderResponse) :
    Continued ctx s response (answerTurn ctx worlds s response) := by
  unfold answerTurn
  split
  · rename_i use
    rw [Bool.and_eq_true, beq_iff_eq] at use
    obtain ⟨pending, spaces, actions, events, state, ran, ids⟩ := executeAll_effect ctx
      worlds (s.say (.assistant response.text response.toolCalls (some response.raw)))
      response.toolCalls
    dsimp only
    rw [state]
    simp only [RunState.say, List.append_assoc, List.cons_append, List.nil_append]
    exact .executed use.1 (by simpa using use.2) ran ids
  · rename_i unused
    split
    · rename_i cut
      rw [Bool.and_eq_true, beq_iff_eq] at cut
      dsimp only
      split
      · rename_i above
        have again : s.truncations ≠ 0 := by
          simp only [maxTruncatedRetries] at above
          omega
        exact .gaveUp cut.1 again
      · rename_i below
        have first : s.truncations = 0 := by
          simp only [maxTruncatedRetries] at below
          omega
        simp only [RunState.say, List.append_assoc, List.cons_append, List.nil_append, first]
        exact .askedForLess cut.1 (by simpa using cut.2) first (by simp)
    · rename_i whole
      split
      · rename_i paused
        exact .paused (beq_iff_eq.mp paused)
      · rename_i unpaused
        refine .answered (fun stop => unpaused (beq_iff_eq.mpr stop)) fun stop => ?_
        rcases stop with stop | stop
        · simpa [stop] using unused
        · simpa [stop] using whole

/-- What holds before each iteration, with the iterations left, gives a law about the end. -/
theorem loop_rule {I : Nat → (Nat → TurnWorld) → RunState → Prop}
    {Q : RunState → Option ProviderError → Prop}
    (exhausted : ∀ worlds s, I 0 worlds s → Q s none)
    (fatal : ∀ n worlds s t e, I (n + 1) worlds s → Asked ctx (worlds 0) s (t, .error e) →
      Q t (some e))
    (again : ∀ n worlds s t response u, I (n + 1) worlds s →
      Asked ctx (worlds 0) s (t, .ok response) →
      Continued ctx (receive t response) response (true, u) → I n (fun i => worlds (i + 1)) u)
    (finished : ∀ n worlds s t response u, I (n + 1) worlds s →
      Asked ctx (worlds 0) s (t, .ok response) →
      Continued ctx (receive t response) response (false, u) → Q u none)
    {n : Nat} {worlds : Nat → TurnWorld} {s : RunState} (start : I n worlds s) :
    Q (loop ctx n worlds s).1 (loop ctx n worlds s).2 := by
  induction n generalizing worlds s with
  | zero => exact exhausted worlds s start
  | succ n ih =>
    have asked := createResponse_asked ctx (worlds 0) s
    unfold loop
    split
    · rename_i t e outcome
      rw [outcome] at asked
      exact fatal n worlds s t e start asked
    · rename_i t response outcome
      rw [outcome] at asked
      have continued := answerTurn_continued ctx (worlds 0).tools (receive t response) response
      split
      · rename_i u turn
        rw [turn] at continued
        exact ih (again n worlds s t response u start asked continued)
      · rename_i u turn
        rw [turn] at continued
        exact finished n worlds s t response u start asked continued

end

/-- The log of a run is that of its loop, with the usage at its end where it is recorded. -/
theorem run_log_rule {Q : List Event → Prop} {worlds : Nat → TurnWorld} (refused : Q [])
    (looped : ∀ ctx, Q (loop ctx maxIterations worlds (startRun ctx)).1.log)
    (recorded : ∀ log usage, Q log → Q (log ++ [.recorded usage])) (prepared : Prepared) :
    Q (run prepared worlds).log := by
  cases prepared with
  | refused answer => exact refused
  | ready ctx =>
    have before := looped ctx
    unfold run
    dsimp only
    split
    · rename_i s e ended
      rw [ended] at before
      exact before
    · rename_i s ended
      rw [ended] at before
      dsimp only [recordUsage]
      split
      · exact before
      · exact recorded _ _ before

end Gomer.Ai
