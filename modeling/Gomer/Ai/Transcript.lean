import Gomer.Ai.Gateway
import Gomer.Ai.Turns

/-! The transcript of a run: every request answers the calls it repeats, every call that came
whole is carried out once and in its place, and the requests are few. -/
namespace Gomer.Ai

def sentRequests (log : List Event) : List ProviderRequest :=
  log.filterMap fun
    | .sent request => some request
    | _ => none

/-- The calls of each `tool_use` response are executed in their order, each of them once, before
anything else is sent or received, and no other calls are; `due` are the calls still to come. -/
def CarriedOut : List ToolCall → List Event → Prop
  | due, [] => due = []
  | due, .executed call _ :: rest => ∃ later, due = call :: later ∧ CarriedOut later rest
  | due, .calledMeta _ _ :: rest => CarriedOut due rest
  | due, .received response :: rest =>
    due = [] ∧ CarriedOut (if response.stopReason = .toolUse then response.toolCalls else []) rest
  | due, _ :: rest => due = [] ∧ CarriedOut [] rest

/-- The truncated responses after which the conversation was sent again. -/
def retriedReplies : List Event → Nat
  | [] => 0
  | .received response :: rest =>
    (if response.stopReason = .truncated ∧ sentRequests rest ≠ [] then 1 else 0) +
      retriedReplies rest
  | _ :: rest => retriedReplies rest

structure Orderly (log : List Event) : Prop where
  answered : ∀ request ∈ sentRequests log, AnswersCalls request.messages
  rendered : ∀ request ∈ sentRequests log, Paired [] (toOpenAiMessages request.messages)
  carriedOut : CarriedOut [] log
  retried : retriedReplies log ≤ 1
  bounded : (sentRequests log).length ≤ 7

/-! Logs -/

def isTruncated : Event → Bool
  | .received response => response.stopReason == .truncated
  | _ => false

def isSent : Event → Bool
  | .sent _ => true
  | _ => false

theorem sentRequests_append (first second : List Event) :
    sentRequests (first ++ second) = sentRequests first ++ sentRequests second :=
  List.filterMap_append ..

theorem sentRequests_snoc {event : Event} (quiet : isSent event = false) (log : List Event) :
    sentRequests (log ++ [event]) = sentRequests log := by
  rw [sentRequests_append]
  cases event with
  | sent request => cases quiet
  | _ => exact List.append_nil _

theorem CarriedOut.append {due : List ToolCall} {first second : List Event}
    (before : CarriedOut due first) (after : CarriedOut [] second) :
    CarriedOut due (first ++ second) := by
  induction first generalizing due with
  | nil =>
    cases before
    exact after
  | cons event rest ih =>
    cases event with
    | executed call toBridge =>
      obtain ⟨later, same, tail⟩ := before
      exact ⟨later, same, ih tail⟩
    | calledMeta call request => exact ih before
    | received response => exact ⟨before.1, ih before.2⟩
    | sent request => exact ⟨before.1, ih before.2⟩
    | failed e => exact ⟨before.1, ih before.2⟩
    | recorded usage => exact ⟨before.1, ih before.2⟩

theorem carriedOut_metaAds {due : List ToolCall} {later : List Event} (call : ToolCall)
    (made : List MetaAdsCall) (tail : CarriedOut due later) :
    CarriedOut due (made.map (.calledMeta call) ++ later) := by
  induction made with
  | nil => exact tail
  | cons m rest ih => exact ih

/-- A response that leaves no calls to execute. -/
theorem carriedOut_received {response : ProviderResponse}
    (none : response.stopReason = .toolUse → response.toolCalls = []) :
    CarriedOut [] [.received response] := by
  refine ⟨rfl, ?_⟩
  split
  · rename_i use
    exact none use
  · rfl

theorem Executes.carriedOut {confirmVia : ConfirmMode} {bridged : Option BridgedToolset}
    {pending after : Option AiPendingAction} {calls : List ToolCall} {events : List Event}
    (ran : Executes confirmVia bridged pending calls after events) : CarriedOut calls events := by
  induction ran with
  | nil => rfl
  | @cons pending after call rest later made _ _ ih =>
    exact ⟨rest, rfl, carriedOut_metaAds call made ih⟩

theorem Executes.quiet {confirmVia : ConfirmMode} {bridged : Option BridgedToolset}
    {pending after : Option AiPendingAction} {calls : List ToolCall} {events : List Event}
    (ran : Executes confirmVia bridged pending calls after events) :
    sentRequests events = [] ∧ events.countP isTruncated = 0 := by
  constructor
  · refine List.filterMap_eq_nil_iff.mpr fun event found => ?_
    cases event with
    | sent request => cases ran.tools _ found
    | _ => rfl
  · refine List.countP_eq_zero.mpr fun event found truncated => ?_
    cases event with
    | received response => cases ran.tools _ found
    | _ => cases truncated

theorem retriedReplies_le (log : List Event) : retriedReplies log ≤ log.countP isTruncated := by
  induction log with
  | nil => exact Nat.le_refl 0
  | cons event rest ih =>
    rw [List.countP_cons]
    cases event with
    | received response =>
      by_cases cut : response.stopReason = .truncated
      · have counted : isTruncated (.received response) = true := beq_iff_eq.mpr cut
        simp only [retriedReplies, counted, if_true]
        split <;> omega
      · simp only [retriedReplies, cut, false_and, if_false]
        omega
    | _ => exact Nat.le_add_right_of_le ih

/-- A last event that sends nothing makes no reply a retried one. -/
theorem retriedReplies_snoc {event : Event} (quiet : isSent event = false) (log : List Event) :
    retriedReplies (log ++ [event]) = retriedReplies log := by
  induction log with
  | nil =>
    cases event with
    | sent request => cases quiet
    | received response => simp [retriedReplies, sentRequests]
    | _ => rfl
  | cons first rest ih =>
    cases first with
    | received response =>
      simp only [List.cons_append, retriedReplies, sentRequests_snoc quiet, ih]
    | _ => exact ih

theorem Orderly.snoc {log : List Event} {event : Event} (orderly : Orderly log)
    (quiet : isSent event = false) (carried : CarriedOut [] [event]) :
    Orderly (log ++ [event]) where
  answered := by simpa only [sentRequests_snoc quiet] using orderly.answered
  rendered := by simpa only [sentRequests_snoc quiet] using orderly.rendered
  carriedOut := orderly.carriedOut.append carried
  retried := by simpa only [retriedReplies_snoc quiet] using orderly.retried
  bounded := by simpa only [sentRequests_snoc quiet] using orderly.bounded

/-! Between two iterations -/

/-- `n` iterations are left; while there are connectors, one of them may send twice. -/
structure Between (n : Nat) (s : RunState) : Prop where
  messages : Answered s.messages
  requests : ∀ request ∈ sentRequests s.log, Answered request.messages
  carriedOut : CarriedOut [] s.log
  truncated : s.log.countP isTruncated = s.truncations
  few : s.truncations ≤ 1
  sent : (sentRequests s.log).length + n ≤ 6 + if s.mcpServers = [] then 1 else 0

theorem Between.orderly {n : Nat} {s : RunState} (between : Between n s) : Orderly s.log where
  answered := fun request sent => answersCalls_of_answered (between.requests request sent)
  rendered := fun request sent => paired_of_answered (between.requests request sent)
  carriedOut := between.carriedOut
  retried := by
    have counted := retriedReplies_le s.log
    have few := between.few
    rw [between.truncated] at counted
    omega
  bounded := by
    have sent := between.sent
    split at sent <;> omega

theorem answered_history (history : List ConversationTurn) (prompt : String) :
    Answered (history.map ConversationTurn.message ++ [.user prompt]) := by
  induction history with
  | nil => exact .user prompt .nil
  | cons turn rest ih =>
    cases turn with
    | user content => exact .user content ih
    | assistant content => exact .text content none ih

theorem between_start (ctx : RunContext) : Between maxIterations (startRun ctx) where
  messages := answered_history ctx.history ctx.prompt
  requests := fun _ sent => nomatch sent
  carriedOut := rfl
  truncated := rfl
  few := Nat.zero_le 1
  sent := Nat.le_add_right 6 _

section
variable {ctx : RunContext} {n : Nat} {world : TurnWorld} {s t : RunState}

/-- A request leaves everything as it was between iterations, but for the entry of its outcome. -/
theorem Between.asked {outcome : Except ProviderError ProviderResponse}
    (between : Between (n + 1) s) (asked : Asked ctx world s (t, outcome)) :
    ∃ earlier, t.log = earlier ++ [heard outcome] ∧ Between n { t with log := earlier } := by
  have once : Between n (s.note [.sent (requestOf ctx s)]) := by
    refine ⟨between.messages, ?_, between.carriedOut.append ⟨rfl, rfl⟩, ?_, between.few, ?_⟩
    · intro request sent
      rw [RunState.note, sentRequests_append] at sent
      rcases List.mem_append.mp sent with sent | sent
      · exact between.requests request sent
      · rw [List.mem_singleton.mp sent]
        exact between.messages
    · rw [RunState.note, List.countP_append, between.truncated]
      rfl
    · have sent := between.sent
      rw [RunState.note, sentRequests_append, List.length_append]
      exact Nat.le_trans (Nat.le_of_eq (by simp [sentRequests]; omega)) sent
  have twice (e : ProviderError) (connected : s.mcpServers ≠ []) :
      Between n ((dropConnectors ctx s).note [.sent (requestOf ctx s), .failed e,
        .sent (requestOf ctx (dropConnectors ctx s))]) := by
    refine ⟨between.messages, ?_, between.carriedOut.append ⟨rfl, rfl, rfl, rfl⟩, ?_, between.few, ?_⟩
    · intro request sent
      rw [RunState.note, sentRequests_append] at sent
      rcases List.mem_append.mp sent with sent | sent
      · exact between.requests request sent
      · have same : request.messages = s.messages := by
          simp only [sentRequests, List.filterMap_cons, List.filterMap_nil, List.mem_cons,
            List.not_mem_nil, or_false] at sent
          rcases sent with rfl | rfl <;> rfl
        rw [same]
        exact between.messages
    · rw [RunState.note, List.countP_append]
      exact between.truncated
    · have sent := between.sent
      rw [if_neg connected] at sent
      rw [RunState.note, sentRequests_append, List.length_append]
      simp only [dropConnectors, if_true]
      exact Nat.le_trans (Nat.le_of_eq (by simp [sentRequests]; omega)) (Nat.add_le_add_right sent 1)
  cases asked with
  | answered outcome => exact ⟨_, (List.append_assoc s.log [_] [_]).symm, once⟩
  | failed outcome fatal => exact ⟨_, (List.append_assoc s.log [_] [_]).symm, once⟩
  | @retried e response outcome dropped again =>
    have connected : s.mcpServers ≠ [] := by
      intro none
      simp [none] at dropped
    exact ⟨_, (List.append_assoc s.log [_, _, _] [_]).symm, twice e connected⟩
  | @gaveUp e f outcome dropped again =>
    have connected : s.mcpServers ≠ [] := by
      intro none
      simp [none] at dropped
    exact ⟨_, (List.append_assoc s.log [_, _, _] [_]).symm, twice e connected⟩

/-- The calls of a response are answered before the next request. -/
theorem Between.again {response : ProviderResponse} {u : RunState} {earlier : List Event}
    (log : t.log = earlier ++ [.received response]) (between : Between n { t with log := earlier })
    (continued : Continued ctx (receive t response) response (true, u)) : Between n u := by
  have unsent : sentRequests t.log = sentRequests earlier := by
    rw [log, sentRequests_snoc rfl]
  cases continued with
  | @executed pending spaces actions events results stop calls ran ids =>
    have whole : isTruncated (.received response) = false := by
      simp [isTruncated, stop]
    have carried : CarriedOut [] (.received response :: events) := by
      refine ⟨rfl, ?_⟩
      rw [if_pos stop]
      exact ran.carriedOut
    have same : sentRequests (t.log ++ events) = sentRequests earlier := by
      rw [sentRequests_append, unsent, ran.quiet.1, List.append_nil]
    refine ⟨between.messages.append (.calls _ _ ids .nil), ?_, ?_, ?_, between.few,
      Nat.le_trans (Nat.le_of_eq (congrArg (·.length + n) same)) between.sent⟩
    · intro request sent
      exact between.requests request (same ▸ sent)
    · have split : t.log ++ events = earlier ++ .received response :: events := by
        rw [log, List.append_assoc]
        rfl
      simpa only [receive, split] using between.carriedOut.append carried
    · have counted := between.truncated
      simp only [receive, log, List.countP_append, List.countP_singleton, whole, ran.quiet.2]
      simpa using counted
  | @askedForLess results stop calls first ids =>
    have cut : isTruncated (.received response) = true := beq_iff_eq.mpr stop
    have carried : CarriedOut [] [.received response] :=
      carriedOut_received fun use => nomatch stop.symm.trans use
    refine ⟨between.messages.append (.calls _ _ ids .nil), ?_, ?_, ?_, Nat.le_refl 1,
      Nat.le_trans (Nat.le_of_eq (congrArg (·.length + n) unsent)) between.sent⟩
    · intro request sent
      exact between.requests request (unsent ▸ sent)
    · simpa only [receive, log] using between.carriedOut.append carried
    · have counted : earlier.countP isTruncated = t.truncations := between.truncated
      have none : t.truncations = 0 := first
      simp only [receive, log, List.countP_append, List.countP_singleton, cut, if_true]
      rw [counted, none]
  | paused stop =>
    have whole : isTruncated (.received response) = false := by
      simp [isTruncated, stop]
    have carried : CarriedOut [] [.received response] :=
      carriedOut_received fun use => nomatch stop.symm.trans use
    refine ⟨between.messages.append (.text _ _ .nil), ?_, ?_, ?_, between.few,
      Nat.le_trans (Nat.le_of_eq (congrArg (·.length + n) unsent)) between.sent⟩
    · intro request sent
      exact between.requests request (unsent ▸ sent)
    · simpa only [receive, RunState.say, log] using between.carriedOut.append carried
    · have counted := between.truncated
      simp only [receive, RunState.say, log, List.countP_append, List.countP_singleton, whole]
      simpa using counted

theorem Between.finished {response : ProviderResponse} {u : RunState} {earlier : List Event}
    (log : t.log = earlier ++ [.received response]) (between : Between n { t with log := earlier })
    (continued : Continued ctx (receive t response) response (false, u)) : Orderly u.log := by
  have same : u.log = earlier ++ [.received response] := by
    cases continued with
    | gaveUp => exact log
    | answered => exact log
  have whole : response.stopReason = .toolUse → response.toolCalls = [] := by
    intro use
    cases continued with
    | gaveUp stop => exact nomatch stop.symm.trans use
    | answered unpaused done => exact done (.inl use)
  rw [same]
  exact between.orderly.snoc rfl (carriedOut_received whole)

theorem loop_orderly (ctx : RunContext) (n : Nat) (worlds : Nat → TurnWorld) (s : RunState)
    (start : Between n s) : Orderly (loop ctx n worlds s).1.log := by
  refine loop_rule ctx (I := fun n _ s => Between n s) (Q := fun s _ => Orderly s.log)
    (fun _ s between => between.orderly) ?_ ?_ ?_ start
  · intro n worlds s t e between asked
    obtain ⟨earlier, log, between⟩ := between.asked asked
    rw [log]
    exact between.orderly.snoc rfl ⟨rfl, rfl⟩
  · intro n worlds s t response u between asked continued
    obtain ⟨earlier, log, between⟩ := between.asked asked
    exact between.again log continued
  · intro n worlds s t response u between asked continued
    obtain ⟨earlier, log, between⟩ := between.asked asked
    exact between.finished log continued

end

theorem run_orderly (prepared : Prepared) (worlds : Nat → TurnWorld) :
    Orderly (run prepared worlds).log := by
  refine run_log_rule (Q := Orderly) ⟨?_, ?_, rfl, Nat.zero_le 1, Nat.zero_le 7⟩ ?_ ?_ prepared
  · intro request sent
    cases sent
  · intro request sent
    cases sent
  · intro ctx
    exact loop_orderly ctx maxIterations worlds (startRun ctx) (between_start ctx)
  · intro log usage orderly
    exact orderly.snoc rfl ⟨rfl, rfl⟩

example : ((run (.ready (adManager .inline)) fun
    | 0 => turn (.ok (reply "" [pauseCampaign] .toolUse))
    | _ => turn (.ok (reply "Paused." [] .ended))).log.map fun
      | .sent request => "sent " ++ toString request.messages.length
      | .received response => "received " ++ toString response.toolCalls.length
      | .executed call _ => "executed " ++ call.id
      | .calledMeta call _ => "called for " ++ call.id
      | .failed _ => "failed"
      | .recorded _ => "recorded") =
    ["sent 1", "received 1", "executed call_1", "called for call_1", "sent 3", "received 0",
      "recorded"] := by decide +kernel

/-! What was heard -/

def outcome? : Event → Option (Except ProviderError ProviderResponse)
  | .received response => some (.ok response)
  | .failed e => some (.error e)
  | _ => none

/-- The outcomes of `n` iterations, of some of them that of a retry too. -/
inductive Outcomes (worlds : Nat → TurnWorld) :
    Nat → List (Except ProviderError ProviderResponse) → Prop where
  | nil : Outcomes worlds 0 []
  | once {n : Nat} {heard : List (Except ProviderError ProviderResponse)}
      (earlier : Outcomes worlds n heard) :
      Outcomes worlds (n + 1) (heard ++ [(worlds n).create])
  | twice {n : Nat} {heard : List (Except ProviderError ProviderResponse)}
      (earlier : Outcomes worlds n heard) :
      Outcomes worlds (n + 1) (heard ++ [(worlds n).create, (worlds n).retry])

section
variable {ctx : RunContext} {worlds : Nat → TurnWorld} {n : Nat} {s t u : RunState}

theorem Outcomes.asked {outcome : Except ProviderError ProviderResponse}
    (heard : Outcomes worlds n (s.log.filterMap outcome?))
    (asked : Asked ctx (worlds n) s (t, outcome)) :
    Outcomes worlds (n + 1) (t.log.filterMap outcome?) := by
  cases asked with
  | answered created =>
    rw [RunState.note, List.filterMap_append]
    have next := heard.once
    rw [created] at next
    exact next
  | failed created fatal =>
    rw [RunState.note, List.filterMap_append]
    have next := heard.once
    rw [created] at next
    exact next
  | retried created dropped again =>
    rw [RunState.note, List.filterMap_append]
    have next := heard.twice
    rw [created, again] at next
    exact next
  | gaveUp created dropped again =>
    rw [RunState.note, List.filterMap_append]
    have next := heard.twice
    rw [created, again] at next
    exact next

theorem Executes.unheard {confirmVia : ConfirmMode} {bridged : Option BridgedToolset}
    {pending after : Option AiPendingAction} {calls : List ToolCall} {events : List Event}
    (ran : Executes confirmVia bridged pending calls after events) :
    events.filterMap outcome? = [] := by
  refine List.filterMap_eq_nil_iff.mpr fun event found => ?_
  have tool := ran.tools event found
  cases event with
  | received response => cases tool
  | failed e => cases tool
  | _ => rfl

/-- What is made of a response is not heard from the provider. -/
theorem Continued.unheard {response : ProviderResponse} {more : Bool}
    (continued : Continued ctx (receive t response) response (more, u)) :
    u.log.filterMap outcome? = t.log.filterMap outcome? := by
  cases continued with
  | executed stop calls ran ids =>
    change (t.log ++ _).filterMap outcome? = _
    rw [List.filterMap_append, ran.unheard, List.append_nil]
  | _ => rfl

theorem loop_heard (ctx : RunContext) (worlds : Nat → TurnWorld) :
    ∃ n ≤ maxIterations, Outcomes worlds n
      ((loop ctx maxIterations worlds (startRun ctx)).1.log.filterMap outcome?) := by
  refine loop_rule ctx
    (I := fun left rest s => ∃ n, n + left = maxIterations ∧ rest = (fun i => worlds (i + n)) ∧
      Outcomes worlds n (s.log.filterMap outcome?))
    (Q := fun s _ => ∃ n ≤ maxIterations, Outcomes worlds n (s.log.filterMap outcome?))
    ?_ ?_ ?_ ?_ ⟨0, Nat.zero_add _, rfl, .nil⟩
  · rintro rest s ⟨n, all, -, heard⟩
    exact ⟨n, Nat.le_of_eq all, heard⟩
  · rintro left rest s t e ⟨n, all, rfl, heard⟩ asked
    simp only [Nat.zero_add] at asked
    exact ⟨n + 1, by omega, heard.asked asked⟩
  · rintro left rest s t response u ⟨n, all, rfl, heard⟩ asked continued
    simp only [Nat.zero_add] at asked
    refine ⟨n + 1, by omega, funext fun i => congrArg worlds (by omega), ?_⟩
    rw [continued.unheard]
    exact heard.asked asked
  · rintro left rest s t response u ⟨n, all, rfl, heard⟩ asked continued
    simp only [Nat.zero_add] at asked
    refine ⟨n + 1, by omega, ?_⟩
    rw [continued.unheard]
    exact heard.asked asked

end

/-- The responses and errors in the log of a run are those that its iterations met, in order. -/
theorem run_heard (prepared : Prepared) (worlds : Nat → TurnWorld) :
    ∃ n ≤ maxIterations, Outcomes worlds n ((run prepared worlds).log.filterMap outcome?) := by
  refine run_log_rule (Q := fun log => ∃ n ≤ maxIterations, Outcomes worlds n (log.filterMap outcome?))
    ⟨0, Nat.zero_le _, .nil⟩ (fun ctx => loop_heard ctx worlds) ?_ prepared
  rintro log usage ⟨n, within, heard⟩
  rw [List.filterMap_append]
  exact ⟨n, within, (List.append_nil _).symm ▸ heard⟩

end Gomer.Ai
