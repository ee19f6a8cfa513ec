import Gomer.Ai.Turns

/-! Writes to an ad account during a run: with buttons none is made and the first that was asked
for is returned, without them each one comes from a confirmed call. -/
namespace Gomer.Ai

/-- The executed calls of tools that write to an ad account. -/
def metaWrites (log : List Event) : List ToolCall :=
  log.filterMap fun
    | .executed call toBridge =>
      if !toBridge && metaAdsWriteToolNames.contains call.name then some call else none
    | _ => none

/-- A run that needs no answer from the provider asks under any mode. -/
def Prepared.AsksVia (confirmVia : ConfirmMode) : Prepared → Prop
  | .refused _ => True
  | .ready ctx => ctx.confirmVia = confirmVia

structure Approved (confirmVia : ConfirmMode) (outcome : RunOutcome) : Prop where
  untouched : confirmVia = .buttons →
    ∀ call m, .calledMeta call m ∈ outcome.log → m.mutating = false
  captured : confirmVia = .buttons → ∀ result, outcome.result = .ok result →
    result.pendingAction = (metaWrites outcome.log).head?.map proposedAction
  confirmed : confirmVia = .inline →
    ∀ call m, .calledMeta call m ∈ outcome.log → m.mutating = true →
      call ∈ metaWrites outcome.log ∧ isTrue (call.input.get? "confirmed") = true

/-! The gate, over the events of a log -/

theorem metaWrites_append (first second : List Event) :
    metaWrites (first ++ second) = metaWrites first ++ metaWrites second :=
  List.filterMap_append ..

theorem metaWrites_exchange {events : List Event} (exchange : events.all isExchange = true) :
    metaWrites events = [] := by
  rw [metaWrites, List.filterMap_eq_nil_iff]
  intro event found
  have quiet := List.all_eq_true.mp exchange event found
  cases event with
  | executed call toBridge => cases quiet
  | _ => rfl

theorem metaWrites_executed (bridged : Option BridgedToolset) (call : ToolCall)
    (made : List MetaAdsCall) (later : List Event) :
    metaWrites (.executed call (isBridged bridged call.name) :: made.map (.calledMeta call) ++ later) =
      (if isMetaWrite bridged call then [call] else []) ++ metaWrites later := by
  have none : metaWrites (made.map (.calledMeta call)) = [] := by
    simp [metaWrites, List.filterMap_map]
  have first : metaWrites [.executed call (isBridged bridged call.name)] =
      if isMetaWrite bridged call then [call] else [] := by
    unfold isMetaWrite
    simp only [metaWrites, List.filterMap_cons, List.filterMap_nil]
    cases !isBridged bridged call.name && metaAdsWriteToolNames.contains call.name <;> rfl
  rw [List.cons_append, ← List.singleton_append, metaWrites_append, metaWrites_append, none, first,
    List.nil_append]

section
variable {confirmVia : ConfirmMode} {bridged : Option BridgedToolset}
  {pending after : Option AiPendingAction} {calls : List ToolCall} {events : List Event}

theorem Executes.gated (ran : Executes confirmVia bridged pending calls after events) :
    ∀ call m, .calledMeta call m ∈ events → m.mutating = true →
      confirmVia = .inline ∧ call ∈ metaWrites events ∧
        isTrue (call.input.get? "confirmed") = true := by
  induction ran with
  | nil =>
    intro call m called
    cases called
  | @cons pending after call rest later made gated _ ih =>
    intro caller m called mutating
    rw [metaWrites_executed]
    rcases List.mem_append.mp called with called | called
    · rcases List.mem_cons.mp called with called | called
      · cases called
      · obtain ⟨request, mem, same⟩ := List.mem_map.mp called
        cases same
        obtain ⟨write, gate, confirmed⟩ := gated m mem mutating
        rw [write]
        exact ⟨gate, List.mem_append_left _ (List.mem_singleton.mpr rfl), confirmed⟩
    · obtain ⟨gate, found, confirmed⟩ := ih caller m called mutating
      exact ⟨gate, List.mem_append_right _ found, confirmed⟩

/-- Under buttons the first write is kept, as long as none was kept before. -/
theorem Executes.captured (ran : Executes .buttons bridged pending calls after events) :
    after = pending.or ((metaWrites events).head?.map proposedAction) := by
  induction ran with
  | nil => exact (Option.or_none ..).symm
  | @cons pending after call rest later made _ _ ih =>
    rw [metaWrites_executed, ih]
    cases write : isMetaWrite bridged call with
    | true => cases pending <;> rfl
    | false => rfl

end

/-! Runs -/

structure Gated (ctx : RunContext) (s : RunState) : Prop where
  mutating : ∀ call m, .calledMeta call m ∈ s.log → m.mutating = true →
    ctx.confirmVia = .inline ∧ call ∈ metaWrites s.log ∧
      isTrue (call.input.get? "confirmed") = true
  captured : ctx.confirmVia = .buttons →
    s.pending = (metaWrites s.log).head?.map proposedAction

section
variable {ctx : RunContext} {s t : RunState}

/-- What a run exchanges with its provider does not touch the gate. -/
theorem Gated.exchange (gated : Gated ctx s) (events : List Event)
    (quiet : events.all isExchange = true) (log : t.log = s.log ++ events)
    (pending : t.pending = s.pending) : Gated ctx t := by
  have writes : metaWrites t.log = metaWrites s.log := by
    rw [log, metaWrites_append, metaWrites_exchange quiet, List.append_nil]
  refine ⟨?_, ?_⟩
  · intro call m called mutating
    rw [writes]
    rw [log] at called
    rcases List.mem_append.mp called with called | called
    · exact gated.mutating call m called mutating
    · cases List.all_eq_true.mp quiet _ called
  · intro mode
    rw [writes, pending]
    exact gated.captured mode

theorem Gated.asked {world : TurnWorld} {outcome : Except ProviderError ProviderResponse}
    (gated : Gated ctx s) (asked : Asked ctx world s (t, outcome)) : Gated ctx t := by
  cases asked with
  | answered | failed | retried | gaveUp => exact gated.exchange _ rfl rfl rfl

theorem Gated.continued {response : ProviderResponse} {more : Bool} {u : RunState}
    (gated : Gated ctx t) (continued : Continued ctx (receive t response) response (more, u)) :
    Gated ctx u := by
  cases continued with
  | @executed pending spaces actions events results stop calls ran ids =>
    refine ⟨?_, ?_⟩
    · intro call m called mutating
      rw [metaWrites_append]
      rcases List.mem_append.mp called with called | called
      · obtain ⟨gate, found, confirmed⟩ := gated.mutating call m called mutating
        exact ⟨gate, List.mem_append_left _ found, confirmed⟩
      · obtain ⟨gate, found, confirmed⟩ := ran.gated call m called mutating
        exact ⟨gate, List.mem_append_right _ found, confirmed⟩
    · intro mode
      rw [mode] at ran
      calc pending = t.pending.or ((metaWrites events).head?.map proposedAction) := ran.captured
        _ = (metaWrites (t.log ++ events)).head?.map proposedAction := by
          rw [metaWrites_append, List.head?_append, Option.map_or, gated.captured mode]
  | askedForLess | gaveUp | paused | answered =>
    exact gated.exchange [] rfl (List.append_nil _).symm rfl

theorem recordUsage_pending (ctx : RunContext) (s : RunState) :
    (recordUsage ctx s).pending = s.pending := by
  unfold recordUsage
  split <;> rfl

theorem Gated.recordUsage (gated : Gated ctx s) : Gated ctx (recordUsage ctx s) := by
  unfold Ai.recordUsage
  split
  · exact gated
  · exact gated.exchange _ rfl rfl rfl

theorem Gated.reads (gated : Gated ctx s) (via : ctx.confirmVia = .buttons) :
    ∀ call m, .calledMeta call m ∈ s.log → m.mutating = false := by
  intro call m called
  refine Bool.eq_false_of_not_eq_true fun mutating => ?_
  have inlined := (gated.mutating call m called mutating).1
  rw [via] at inlined
  cases inlined

theorem loop_gated (ctx : RunContext) (worlds : Nat → TurnWorld) :
    Gated ctx (loop ctx maxIterations worlds (startRun ctx)).1 := by
  have start : Gated ctx (startRun ctx) := by
    refine ⟨?_, fun _ => rfl⟩
    intro call m called
    cases called
  exact loop_rule ctx (I := fun _ _ s => Gated ctx s) (Q := fun s _ => Gated ctx s)
    (fun _ _ gated => gated)
    (fun _ _ _ _ _ gated asked => gated.asked asked)
    (fun _ _ _ _ _ _ gated asked continued => (gated.asked asked).continued continued)
    (fun _ _ _ _ _ _ gated asked continued => (gated.asked asked).continued continued)
    start

end

theorem run_approved (confirmVia : ConfirmMode) (prepared : Prepared) (worlds : Nat → TurnWorld)
    (asks : prepared.AsksVia confirmVia) : Approved confirmVia (run prepared worlds) := by
  cases prepared with
  | refused answer =>
    refine ⟨?_, ?_, ?_⟩
    · intro _ call m called
      cases called
    · intro _ result same
      cases same
      rfl
    · intro _ call m called
      cases called
  | ready ctx =>
    have mode : ctx.confirmVia = confirmVia := asks
    have gated := loop_gated ctx worlds
    unfold run
    dsimp only
    split
    · rename_i s e ended
      rw [ended] at gated
      refine ⟨?_, ?_, ?_⟩
      · intro via
        exact gated.reads (mode.trans via)
      · intro _ result same
        cases same
      · intro _ call m called mutating
        exact (gated.mutating call m called mutating).2
    · rename_i s ended
      rw [ended] at gated
      have recorded := gated.recordUsage
      refine ⟨?_, ?_, ?_⟩
      · intro via
        exact recorded.reads (mode.trans via)
      · intro via result same
        cases same
        calc s.pending = (recordUsage ctx s).pending := (recordUsage_pending ctx s).symm
          _ = (metaWrites (recordUsage ctx s).log).head?.map proposedAction :=
            recorded.captured (mode.trans via)
      · intro _ call m called mutating
        exact (recorded.mutating call m called mutating).2

/-- The model pauses a campaign and then reports on it. -/
def pausing : Nat → TurnWorld
  | 0 => turn (.ok (reply "" [pauseCampaign] .toolUse))
  | _ => turn (.ok (reply "Here is what I will do." [] .ended))

theorem pause_awaits_approval :
    Approved .buttons (run (.ready (adManager .buttons)) pausing) ∧
      metaWrites (run (.ready (adManager .buttons)) pausing).log = [pauseCampaign] ∧
      Approved .inline (run (.ready (adManager .inline)) pausing) ∧
      ∃ m, .calledMeta pauseCampaign m ∈ (run (.ready (adManager .inline)) pausing).log ∧
        m.mutating = true :=
  ⟨run_approved .buttons _ _ rfl, rfl, run_approved .inline _ _ rfl, _,
    .tail _ (.tail _ (.tail _ (.head _))), rfl⟩

end Gomer.Ai
