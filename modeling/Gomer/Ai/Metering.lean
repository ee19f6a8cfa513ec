import Gomer.Ai.Turns

/-! The tokens a run pays for and the tokens it records. They are recorded once, after the loop,
and an exception of the provider ends the run before that. -/
namespace Gomer.Ai

inductive TokenKind where
  | input
  | output
  | cacheWrite
  | cacheRead
  deriving DecidableEq, Repr

def ProviderUsage.count (usage : ProviderUsage) : TokenKind → Int
  | .input => usage.inputTokens
  | .output => usage.outputTokens
  | .cacheWrite => (usage.cacheWriteTokens.getD 0 : Nat)
  | .cacheRead => (usage.cacheReadTokens.getD 0 : Nat)

def RunState.count (s : RunState) : TokenKind → Int
  | .input => s.inputTokens
  | .output => s.outputTokens
  | .cacheWrite => s.cacheWriteTokens
  | .cacheRead => s.cacheReadTokens

def RecordedUsage.count (usage : RecordedUsage) : TokenKind → Int
  | .input => usage.input.inputTokens
  | .output => usage.input.outputTokens
  | .cacheWrite => usage.input.cacheWriteTokens.getD 0
  | .cacheRead => usage.input.cacheReadTokens.getD 0

def receivedTokens (kind : TokenKind) (log : List Event) : Int :=
  (log.map fun
    | .received response => response.usage.count kind
    | _ => 0).sum

def recordedTokens (kind : TokenKind) (log : List Event) : Int :=
  (log.map fun
    | .recorded usage => usage.count kind
    | _ => 0).sum

/-- What is handed to `recordEvent` is what the responses of the run have used. -/
def Metered (log : List Event) : Prop :=
  ∀ kind, recordedTokens kind log = receivedTokens kind log

/-! When the provider interrupts a run that has used tokens -/

/-- The outcome of an iteration, and whether there are connectors after it. -/
def turnOutcome (connected : Bool) (world : TurnWorld) :
    Bool × Except ProviderError ProviderResponse :=
  match world.create with
  | .ok response => (connected, .ok response)
  | .error e => if connected && e.isMcpConnection then (false, world.retry) else (connected, .error e)

/-- Whether a response is followed by another request, with the truncated ones so far. -/
def asksAgain (truncations : Nat) (response : ProviderResponse) : Option Nat :=
  match response.stopReason with
  | .toolUse => if response.toolCalls = [] then none else some truncations
  | .truncated => if response.toolCalls = [] ∨ truncations ≠ 0 then none else some 1
  | .pause => some truncations
  | .ended => none

def ProviderResponse.uses (response : ProviderResponse) : Bool :=
  0 < response.usage.inputTokens + response.usage.outputTokens

/-- A request fails for good after a response that used tokens. -/
def interrupted (connected : Bool) (truncations : Nat) (used : Bool) : Nat → (Nat → TurnWorld) → Bool
  | 0, _ => false
  | n + 1, worlds =>
    match turnOutcome connected (worlds 0) with
    | (_, .error _) => used
    | (connected, .ok response) =>
      match asksAgain truncations response with
      | none => false
      | some truncations =>
        interrupted connected truncations (used || response.uses) n (fun i => worlds (i + 1))

def Prepared.interrupted (prepared : Prepared) (worlds : Nat → TurnWorld) : Bool :=
  match prepared with
  | .refused _ => false
  | .ready ctx => Ai.interrupted (!ctx.mcpServers.isEmpty) 0 false maxIterations worlds

/-! The counters of the loop -/

section
variable (kind : TokenKind) (first second : List Event)

theorem receivedTokens_append :
    receivedTokens kind (first ++ second) = receivedTokens kind first + receivedTokens kind second := by
  simp only [receivedTokens, List.map_append, List.sum_append]

theorem recordedTokens_append :
    recordedTokens kind (first ++ second) = recordedTokens kind first + recordedTokens kind second := by
  simp only [recordedTokens, List.map_append, List.sum_append]

end

/-- Nothing is recorded yet, and the counters are up to date. -/
structure Tallied (s : RunState) : Prop where
  received : ∀ kind, receivedTokens kind s.log = s.count kind
  unrecorded : ∀ kind, recordedTokens kind s.log = 0
  cached : s.cacheWriteTokens + s.cacheReadTokens ≤ s.inputTokens

def RunState.used (s : RunState) : Bool := 0 < s.inputTokens + s.outputTokens

def RunState.connected (s : RunState) : Bool := !s.mcpServers.isEmpty

section
variable {ctx : RunContext} {world : TurnWorld} {s t u : RunState} {response : ProviderResponse}

theorem Tallied.used_iff (tallied : Tallied s) :
    s.used = false ↔ ∀ kind, s.count kind = 0 := by
  have cached := tallied.cached
  simp only [RunState.used, decide_eq_false_iff_not]
  constructor
  · intro unused kind
    cases kind <;> simp only [RunState.count] <;> omega
  · intro none
    have input := none .input
    have output := none .output
    simp only [RunState.count] at input output
    omega

/-- Events that use and record nothing. -/
theorem Tallied.quiet (tallied : Tallied s) (events : List Event) (log : t.log = s.log ++ events)
    (unused : ∀ kind, receivedTokens kind events = 0)
    (unrecorded : ∀ kind, recordedTokens kind events = 0)
    (same : ∀ kind, t.count kind = s.count kind) : Tallied t where
  received := fun kind => by
    rw [log, receivedTokens_append, tallied.received, unused, same, Int.add_zero]
  unrecorded := fun kind => by
    rw [log, recordedTokens_append, tallied.unrecorded, unrecorded, Int.add_zero]
  cached := by
    have before := tallied.cached
    have write := same .cacheWrite
    have read := same .cacheRead
    have input := same .input
    simp only [RunState.count] at write read input
    omega

theorem receive_count (kind : TokenKind) :
    (receive t response).count kind = t.count kind + response.usage.count kind := by
  cases kind with
  | input | output | cacheWrite | cacheRead => exact Int.natCast_add _ _

theorem receive_used : (receive t response).used = (t.used || response.uses) := by
  rw [RunState.used, RunState.used, ProviderResponse.uses, ← Bool.decide_or]
  refine decide_eq_decide.mpr ?_
  simp only [receive]
  omega

/-- The counters take in what a response has used. -/
theorem Tallied.receive {earlier : List Event} (tallied : Tallied { t with log := earlier })
    (log : t.log = earlier ++ [.received response]) : Tallied (receive t response) where
  received := fun kind => by
    have before : receivedTokens kind earlier = t.count kind := tallied.received kind
    have used : receivedTokens kind [.received response] = response.usage.count kind :=
      Int.add_zero _
    rw [receive_count, ← used, ← before, ← receivedTokens_append, ← log]
    rfl
  unrecorded := fun kind => by
    have before : recordedTokens kind earlier = 0 := tallied.unrecorded kind
    have none : recordedTokens kind [.received response] = 0 := rfl
    rw [show (Ai.receive t response).log = earlier ++ [.received response] from log,
      recordedTokens_append, before, none]
    rfl
  cached := by
    have before : t.cacheWriteTokens + t.cacheReadTokens ≤ t.inputTokens := tallied.cached
    have cached := response.usage.cached
    simp only [Ai.receive]
    omega

theorem Tallied.answered (tallied : Tallied s) (asked : Asked ctx world s (t, .ok response)) :
    Tallied (Ai.receive t response) ∧ (Ai.receive t response).used = (s.used || response.uses) ∧
      turnOutcome s.connected world = ((Ai.receive t response).connected, .ok response) ∧
      (Ai.receive t response).truncations = s.truncations := by
  cases asked with
  | answered outcome =>
    have log := (List.append_assoc s.log [.sent (requestOf ctx s)] [.received response]).symm
    refine ⟨Tallied.receive (tallied.quiet [_] rfl (fun _ => rfl) (fun _ => rfl) fun _ => rfl) log,
      receive_used, ?_, rfl⟩
    rw [turnOutcome, outcome]
    rfl
  | @retried e response outcome dropped again =>
    have log := (List.append_assoc s.log [.sent (requestOf ctx s), .failed e,
      .sent (requestOf ctx (dropConnectors ctx s))] [.received response]).symm
    refine ⟨Tallied.receive (tallied.quiet [_, _, _] rfl (fun _ => rfl) (fun _ => rfl) fun _ => rfl)
      log, receive_used, ?_, rfl⟩
    have connected : (s.connected && e.isMcpConnection) = true := by
      simpa [RunState.connected] using dropped
    rw [turnOutcome, outcome]
    simp only [connected, if_true, again]
    rfl

theorem Tallied.failed {e : ProviderError} (tallied : Tallied s)
    (asked : Asked ctx world s (t, .error e)) :
    Tallied t ∧ t.used = s.used ∧ ∃ connected, turnOutcome s.connected world = (connected, .error e) := by
  cases asked with
  | failed outcome fatal =>
    refine ⟨tallied.quiet [_, _] rfl (fun _ => rfl) (fun _ => rfl) (fun _ => rfl), rfl,
      s.connected, ?_⟩
    have unconnected : (s.connected && e.isMcpConnection) = false := by
      rw [← Bool.not_eq_true', Bool.not_and, RunState.connected, Bool.not_not]
      exact fatal
    rw [turnOutcome, outcome]
    simp only [unconnected, Bool.false_eq_true, if_false]
  | @gaveUp e f outcome dropped again =>
    refine ⟨tallied.quiet [_, _, _, _] rfl (fun _ => rfl) (fun _ => rfl) (fun _ => rfl), rfl,
      false, ?_⟩
    have connected : (s.connected && e.isMcpConnection) = true := by
      simpa [RunState.connected] using dropped
    rw [turnOutcome, outcome]
    simp only [connected, if_true, again]

/-- Executing calls uses no tokens. -/
theorem Executes.tokens {confirmVia : ConfirmMode} {bridged : Option BridgedToolset}
    {pending after : Option AiPendingAction} {calls : List ToolCall} {events : List Event}
    (ran : Executes confirmVia bridged pending calls after events) (kind : TokenKind) :
    receivedTokens kind events = 0 ∧ recordedTokens kind events = 0 := by
  constructor
  · refine List.sum_eq_zero fun n counted => ?_
    obtain ⟨event, found, rfl⟩ := List.mem_map.mp counted
    cases event with
    | received response => cases ran.tools _ found
    | _ => rfl
  · refine List.sum_eq_zero fun n counted => ?_
    obtain ⟨event, found, rfl⟩ := List.mem_map.mp counted
    cases event with
    | recorded usage => cases ran.tools _ found
    | _ => rfl

theorem Tallied.continued {more : Bool} (tallied : Tallied s)
    (continued : Continued ctx s response (more, u)) :
    Tallied u ∧ u.used = s.used ∧ u.connected = s.connected ∧
      asksAgain s.truncations response = if more then some u.truncations else none := by
  cases continued with
  | @executed pending spaces actions events results stop calls ran ids =>
    refine ⟨tallied.quiet events rfl (fun kind => (ran.tokens kind).1)
      (fun kind => (ran.tokens kind).2) (fun _ => rfl), rfl, rfl, ?_⟩
    simp only [asksAgain, stop, calls, if_false, if_true]
  | askedForLess stop calls first ids =>
    refine ⟨tallied.quiet [] (List.append_nil _).symm (fun _ => rfl) (fun _ => rfl) (fun _ => rfl),
      rfl, rfl, ?_⟩
    simp only [asksAgain, stop, calls, first, ne_eq, not_true, or_self, if_false, if_true]
  | gaveUp stop again =>
    refine ⟨tallied.quiet [] (List.append_nil _).symm (fun _ => rfl) (fun _ => rfl) (fun _ => rfl),
      rfl, rfl, ?_⟩
    simp only [asksAgain, stop, again, ne_eq, not_false_eq_true, or_true, if_true]
    rfl
  | paused stop =>
    refine ⟨tallied.quiet [] (List.append_nil _).symm (fun _ => rfl) (fun _ => rfl) (fun _ => rfl),
      rfl, rfl, ?_⟩
    simp only [asksAgain, stop]
    rfl
  | answered unpaused done =>
    refine ⟨tallied, rfl, rfl, ?_⟩
    unfold asksAgain
    split
    · rename_i stop
      rw [if_pos (done (.inl stop))]
      rfl
    · rename_i stop
      rw [if_pos (.inl (done (.inr stop)))]
      rfl
    · rename_i stop
      exact absurd stop unpaused
    · rfl

end

/-! Runs -/

/-- The counters are right at the end of a run, and an exception that follows used tokens is one
that the provider's outcomes foretell. -/
theorem loop_tallied (ctx : RunContext) (n : Nat) (worlds : Nat → TurnWorld) (s : RunState)
    (tallied : Tallied s) :
    Tallied (loop ctx n worlds s).1 ∧
      interrupted s.connected s.truncations s.used n worlds =
        ((loop ctx n worlds s).2.isSome && (loop ctx n worlds s).1.used) := by
  refine loop_rule ctx
    (I := fun n worlds t => Tallied t ∧
      interrupted s.connected s.truncations s.used _ _ =
        interrupted t.connected t.truncations t.used n worlds)
    (Q := fun t e => Tallied t ∧
      interrupted s.connected s.truncations s.used _ _ = (e.isSome && t.used))
    ?_ ?_ ?_ ?_ ⟨tallied, rfl⟩
  · intro worlds t start
    exact start
  · intro n worlds t u e start asked
    obtain ⟨after, used, connected, outcome⟩ := start.1.failed asked
    refine ⟨after, start.2.trans ?_⟩
    rw [interrupted, outcome, used]
    rfl
  · intro n worlds t u response v start asked continued
    obtain ⟨after, used, outcome, truncations⟩ := start.1.answered asked
    obtain ⟨last, same, connected, again⟩ := after.continued continued
    refine ⟨last, start.2.trans ?_⟩
    rw [truncations, if_pos rfl] at again
    simp only [interrupted, outcome, again, same, connected, used]
  · intro n worlds t u response v start asked continued
    obtain ⟨after, used, outcome, truncations⟩ := start.1.answered asked
    obtain ⟨last, same, connected, again⟩ := after.continued continued
    refine ⟨last, start.2.trans ?_⟩
    rw [truncations, if_neg Bool.false_ne_true] at again
    simp only [interrupted, outcome, again]
    rfl

/-- Recording hands on the counters. -/
theorem recordUsage_metered {ctx : RunContext} {s : RunState} (tallied : Tallied s) :
    Metered (recordUsage ctx s).log := by
  intro kind
  unfold recordUsage
  split
  · rename_i nothing
    have unused : s.used = false := by
      simp only [RunState.used, decide_eq_false_iff_not]
      omega
    rw [tallied.received, tallied.unrecorded, tallied.used_iff.mp unused kind]
  · have handed : recordedTokens kind [.recorded (usageInput ctx s)] = s.count kind := by
      cases kind <;> rfl
    have unpaid : receivedTokens kind [.recorded (usageInput ctx s)] = 0 := rfl
    simp only [RunState.note]
    rw [recordedTokens_append, receivedTokens_append, tallied.unrecorded, tallied.received, handed,
      unpaid]
    exact Int.add_comm _ _

theorem Tallied.metered_iff {s : RunState} (tallied : Tallied s) :
    Metered s.log ↔ s.used = false := by
  rw [tallied.used_iff]
  refine forall_congr' fun kind => ?_
  rw [tallied.received, tallied.unrecorded]
  exact eq_comm

theorem run_metered_iff (prepared : Prepared) (worlds : Nat → TurnWorld) :
    Metered (run prepared worlds).log ↔ prepared.interrupted worlds = false := by
  cases prepared with
  | refused answer => exact iff_of_true (fun _ => rfl) rfl
  | ready ctx =>
    have start : Tallied (startRun ctx) := by
      refine ⟨fun kind => ?_, fun _ => rfl, Nat.le_refl 0⟩
      cases kind <;> rfl
    obtain ⟨tallied, foretold⟩ := loop_tallied ctx maxIterations worlds (startRun ctx) start
    have same : (Prepared.ready ctx).interrupted worlds =
        ((loop ctx maxIterations worlds (startRun ctx)).2.isSome &&
          (loop ctx maxIterations worlds (startRun ctx)).1.used) := foretold
    rw [same]
    unfold run
    dsimp only
    split
    · rename_i s e ended
      rw [ended] at tallied ⊢
      exact tallied.metered_iff
    · rename_i s ended
      rw [ended] at tallied ⊢
      exact iff_of_true (recordUsage_metered tallied) rfl

/-- The provider answers with a tool call and is overloaded when it gets the result. -/
def overloaded : Nat → TurnWorld
  | 0 => turn (.ok (reply "" [pauseCampaign] .toolUse))
  | _ => turn (.error (.other "529 overloaded_error"))

theorem paid_reply_unmetered :
    (run (.ready (adManager .inline)) overloaded).result = .error (.other "529 overloaded_error") ∧
      receivedTokens .input (run (.ready (adManager .inline)) overloaded).log = 900 ∧
      recordedTokens .input (run (.ready (adManager .inline)) overloaded).log = 0 ∧
      ¬ ∀ prepared worlds, Metered (run prepared worlds).log := by
  refine ⟨rfl, rfl, rfl, fun metered => ?_⟩
  exact absurd (metered (.ready (adManager .inline)) overloaded .input) (by decide)

end Gomer.Ai
