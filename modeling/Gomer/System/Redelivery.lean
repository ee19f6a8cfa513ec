import Gomer.Lib.Trace
import Gomer.Slack.Events
import Mathlib.Data.List.Count
import Mathlib.Logic.Function.Basic

/-! Repeated deliveries of Slack events to any number of API processes. Each process remembers the
last 1000 ids that it has handled itself; a process that restarts is a new one. -/
namespace Gomer.Redelivery

open Trace Slack

structure State where
  seen : Nat → List String
  /-- Every execution of the handler's body, with the process it ran in. -/
  executed : List (Nat × SlackEventEnvelope)

def start : State := ⟨fun _ => [], []⟩

inductive Action where
  | deliver (process : Nat) (envelope : SlackEventEnvelope)

/-- `handleEventCallback` up to the body, which it enters before its first await. -/
def deliver (s : State) (process : Nat) (envelope : SlackEventEnvelope) : State :=
  if isRepeated (s.seen process) envelope then s
  else
    { seen := Function.update s.seen process (((nonEmpty envelope.eventId).map
        (rememberEventId (s.seen process))).getD (s.seen process))
      executed := s.executed ++ [(process, envelope)] }

def step (s : State) : Action → Option State
  | .deliver process envelope => some (deliver s process envelope)

abbrev Step (s : State) (a : Action) (t : State) : Prop := step s a = some t

/-- The ids of the events whose body was executed. -/
def State.handled (s : State) : List String := s.executed.filterMap fun d => nonEmpty d.2.eventId

def State.handledBy (s : State) (process : Nat) : List String :=
  (s.executed.filter (·.1 = process)).filterMap fun d => nonEmpty d.2.eventId

def AtMostOnce (s : State) : Prop := ∀ eventId, s.handled.count eventId ≤ 1

def recent (ids : List String) : List String := ids.drop (ids.length - 1000)

/-- An event that was handled before comes to the process that handled it, which has handled fewer
than 1000 others since. -/
def StillRemembered (s : State) : Action → Prop
  | .deliver process envelope => ∀ eventId, nonEmpty envelope.eventId = some eventId →
      eventId ∈ s.handled → eventId ∈ recent (s.handledBy process)

/-- The end of a list that has grown by one. -/
theorem drop_end_append {ids : List String} (eventId : String) {n : Nat} (positive : 0 < n) :
    (ids ++ [eventId]).drop (ids.length + 1 - n) =
      if n < (ids.drop (ids.length - n) ++ [eventId]).length then
        (ids.drop (ids.length - n) ++ [eventId]).tail else ids.drop (ids.length - n) ++ [eventId] := by
  have kept : (ids.drop (ids.length - n)).length = min ids.length n := by
    rw [List.length_drop]
    omega
  rw [List.length_append, List.length_singleton, kept]
  split
  · have start : ids.length + 1 - n = ids.length - n + 1 := by omega
    have short : ids.length - n + 1 ≤ ids.length := by omega
    have nonempty : ids.drop (ids.length - n) ≠ [] := List.ne_nil_of_length_pos (by omega)
    rw [List.tail_append_of_ne_nil nonempty, List.tail_drop, start,
      List.drop_append_of_le_length short]
  · have start : ids.length + 1 - n = 0 := by omega
    have all : ids.length - n = 0 := by omega
    rw [start, all, List.drop_zero, List.drop_zero]

theorem rememberEventId_recent {ids : List String} {eventId : String}
    (fresh : eventId ∉ recent ids) :
    rememberEventId (recent ids) eventId = recent (ids ++ [eventId]) := by
  have grown := @drop_end_append ids eventId 1000 (Nat.succ_pos 999)
  have length : (ids ++ [eventId]).length = ids.length + 1 := List.length_append
  simp only [rememberEventId, if_neg fresh]
  simp only [recent, length, grown]
  exact if_congr Iff.rfl rfl rfl

/-- What a process remembers is what it has handled last. -/
def Remembers (s : State) : Prop := ∀ process, s.seen process = recent (s.handledBy process)

section
variable {s : State} {process : Nat} {envelope : SlackEventEnvelope}

theorem deliver_repeated (repeated : isRepeated (s.seen process) envelope = true) :
    deliver s process envelope = s := if_pos repeated

theorem deliver_executed (first : isRepeated (s.seen process) envelope = false) :
    (deliver s process envelope).executed = s.executed ++ [(process, envelope)] := by
  rw [deliver, first]
  rfl

theorem isRepeated_iff {seen : List String} {eventId : String}
    (named : nonEmpty envelope.eventId = some eventId) :
    isRepeated seen envelope = true ↔ eventId ∈ seen := by
  simp [isRepeated, named]

theorem handled_first (first : isRepeated (s.seen process) envelope = false) :
    (deliver s process envelope).handled =
      s.handled ++ (nonEmpty envelope.eventId).toList := by
  rw [State.handled, deliver_executed first, List.filterMap_append]
  cases named : nonEmpty envelope.eventId <;> simp [State.handled, named]

theorem handledBy_first (first : isRepeated (s.seen process) envelope = false) (other : Nat) :
    (deliver s process envelope).handledBy other = s.handledBy other ++
      if process = other then (nonEmpty envelope.eventId).toList else [] := by
  rw [State.handledBy, deliver_executed first, List.filter_append, List.filterMap_append]
  by_cases own : process = other
  · cases named : nonEmpty envelope.eventId <;> simp [State.handledBy, own, named]
  · simp [State.handledBy, own]

theorem remembers_deliver (remembers : Remembers s) : Remembers (deliver s process envelope) := by
  cases repeated : isRepeated (s.seen process) envelope with
  | true =>
    rw [deliver_repeated repeated]
    exact remembers
  | false =>
    intro other
    rw [handledBy_first repeated]
    have seen : (deliver s process envelope).seen = Function.update s.seen process
        (((nonEmpty envelope.eventId).map (rememberEventId (s.seen process))).getD
          (s.seen process)) := by
      rw [deliver, repeated]
      rfl
    rw [seen, Function.update_apply]
    by_cases own : other = process
    · subst own
      rw [if_pos rfl, if_pos rfl]
      cases named : nonEmpty envelope.eventId with
      | none => simpa using remembers other
      | some eventId =>
        have fresh : eventId ∉ recent (s.handledBy other) := by
          rw [← remembers other]
          intro known
          rw [(isRepeated_iff named).mpr known] at repeated
          cases repeated
        rw [Option.map_some, Option.getD_some, remembers other, rememberEventId_recent fresh]
        rfl
    · rw [if_neg own, if_neg (Ne.symm own), List.append_nil]
      exact remembers other

/-- One more execution keeps the law where the event had none. -/
theorem once_deliver_iff (remembers : Remembers s) (once : AtMostOnce s) :
    AtMostOnce (deliver s process envelope) ↔ StillRemembered s (.deliver process envelope) := by
  cases repeated : isRepeated (s.seen process) envelope with
  | true =>
    rw [deliver_repeated repeated]
    refine iff_of_true once fun eventId named _ => ?_
    rw [← remembers process]
    exact (isRepeated_iff named).mp repeated
  | false =>
    rw [AtMostOnce, handled_first repeated]
    cases named : nonEmpty envelope.eventId with
    | none =>
      refine iff_of_true (fun eventId => ?_) fun eventId same _ => ?_
      · simpa using once eventId
      · rw [named] at same
        cases same
    | some eventId =>
      have forgotten : eventId ∉ recent (s.handledBy process) := by
        rw [← remembers process]
        intro known
        rw [(isRepeated_iff named).mpr known] at repeated
        cases repeated
      have fresh : StillRemembered s (.deliver process envelope) ↔ eventId ∉ s.handled := by
        constructor
        · exact fun remembered known => forgotten (remembered eventId named known)
        · intro new other same known
          cases named.symm.trans same
          exact absurd known new
      rw [fresh]
      constructor
      · intro once' known
        have twice := once' eventId
        have before := List.count_pos_iff.mpr known
        rw [List.count_append, Option.toList_some, List.count_singleton_self] at twice
        omega
      · intro new other
        rw [List.count_append, Option.toList_some, List.count_singleton]
        by_cases own : eventId = other
        · subst own
          rw [List.count_eq_zero.mpr new, beq_self_eq_true]
          rfl
        · rw [beq_false_of_ne own]
          exact once other

end

/-- In every run no event's body is executed twice exactly when each repeated delivery comes to a
process that still remembers the event. -/
theorem executed_once_iff {steps : List (Transition State Action)} {s : State}
    (run : Run Step start steps s) : (∀ x ∈ steps, AtMostOnce x.post) ↔
      ∀ x ∈ steps, StillRemembered x.pre x.label := by
  refine run.states_iff (I := Remembers) AtMostOnce StillRemembered ?_ ?_ ?_ ?_
  · intro process
    exact List.drop_nil.symm
  · intro s a t remembers taken
    cases a
    cases taken
    exact remembers_deliver remembers
  · intro eventId
    exact Nat.zero_le 1
  · intro s a t remembers once taken
    cases a
    cases taken
    exact once_deliver_iff remembers once

def spendQuestion : SlackEventEnvelope where
  eventId := some "Ev1"
  teamId := some "T1"
  event := { type := "app_mention", channel := some "C1", user := some "U1", text := some "spend?" }

def acme : Workspace := ⟨"w1", "Acme", "T1", some "xoxb-1"⟩

/-- Slack sends the event again, and the load balancer hands it to another process: the workspace
answers, and pays, twice. -/
theorem retry_answered_twice : ∃ steps s, Run Step start steps s ∧
    s.executed.map (fun d => (d.1, answering [acme] d.2)) = [(0, some acme), (1, some acme)] ∧
      ¬ ∀ x ∈ steps, AtMostOnce x.post := by
  let first := deliver start 0 spendQuestion
  let second := deliver first 1 spendQuestion
  refine ⟨[⟨start, .deliver 0 spendQuestion, first⟩, ⟨first, .deliver 1 spendQuestion, second⟩],
    second, (Run.nil.snoc rfl).snoc rfl, by decide +kernel, fun once => ?_⟩
  have twice := once ⟨first, .deliver 1 spendQuestion, second⟩ (by simp) "Ev1"
  exact absurd twice (by decide +kernel)

theorem retry_dropped : ∃ steps s, Run Step start steps s ∧ steps.length = 2 ∧
    ((∀ x ∈ steps, AtMostOnce x.post) ↔ ∀ x ∈ steps, StillRemembered x.pre x.label) := by
  let heard := deliver start 0 spendQuestion
  let again := deliver heard 0 spendQuestion
  have run : Run Step start [⟨start, .deliver 0 spendQuestion, heard⟩,
      ⟨heard, .deliver 0 spendQuestion, again⟩] again := (Run.nil.snoc rfl).snoc rfl
  exact ⟨_, again, run, rfl, executed_once_iff run⟩

end Gomer.Redelivery
