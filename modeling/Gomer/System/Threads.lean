import Gomer.Lib.Trace
import Gomer.Slack.Conversations
import Mathlib.Logic.Function.Basic

/-! `handleEventCallback` for any messages to one deployment at once: each reads its history, stores
its turn, runs, and stores the answer, between the steps of the others. -/
namespace Gomer.Threads

open Trace Slack

inductive Stage where
  | received
  | asking (keys : List String)
  | answering (answer : String) (keys : List String)
  deriving DecidableEq, Repr

/-- The threads that the next turn is still to be stored under. -/
def Stage.keys : Stage → List String
  | .received => []
  | .asking keys => keys
  | .answering _ keys => keys

/-- A message that is handled, and where. -/
structure Received where
  workspaceId : String
  channel : String
  message : SlackMessageEvent

def Received.threads (r : Received) : List String := turnThreads r.message r.channel

/-- `rows` are the rows behind the history. -/
structure Handling extends Received where
  prompt : String
  rows : List Message := []
  history : List Ai.ConversationTurn := []
  stage : Stage := .received

/-- `writer` is no column: it is the call that stored a row. -/
structure State where
  messages : List Message
  writer : Uuid → Option Nat
  calls : Nat → Option Handling
  seenEventIds : List String

def start : State := ⟨[], fun _ => none, fun _ => none, []⟩

/-- What an insert draws, and whether it reaches the database. -/
structure Insert where
  id : Uuid
  userId : Option String
  now : Instant
  reached : Bool

inductive Action where
  | deliver (call : Nat) (envelope : SlackEventEnvelope)
  | load (call : Nat) (reached : Bool) (ties : Uuid → Nat)
  | save (call : Nat) (insert : Insert)
  | answer (call : Nat) (answer : String)

def State.put (s : State) (call : Nat) (h : Handling) : State :=
  { s with calls := Function.update s.calls call (some h) }

def State.remember (s : State) (eventId : Option String) : State :=
  match nonEmpty eventId with
  | some eventId => { s with seenEventIds := rememberEventId s.seenEventIds eventId }
  | none => s

/-- One turn stored under one thread. -/
def State.append (s : State) (call : Nat) (insert : Insert) (workspaceId threadId : String)
    (role : MessageRole) (content : String) : State :=
  let row : Message := ⟨insert.id, workspaceId, insert.userId, threadId, role, content, insert.now⟩
  let messages := appendTurn insert.reached s.messages row
  if messages = s.messages then s
  else { s with messages, writer := Function.update s.writer row.id (some call) }

def handlingOf (workspaces : List Workspace) (envelope : SlackEventEnvelope) : Option Handling :=
  match answering workspaces envelope, envelope.event.channel with
  | some workspace, some channel =>
    some
      { workspaceId := workspace.id, channel, message := envelope.event
        prompt := String.ofList (cleanText (envelope.event.text.getD "")) }
  | _, _ => none

def loaded (s : State) (h : Handling) (reached : Bool) (ties : Uuid → Nat) : Handling :=
  match nonEmpty (conversationKeys h.message h.channel).memoryThreadId with
  | none => { h with stage := .asking h.threads }
  | some threadId =>
    { h with
      rows := threadRows reached ties s.messages h.workspaceId threadId
      history := getThread reached ties s.messages h.workspaceId threadId
      stage := .asking h.threads }

def step (workspaces : List Workspace) (s : State) : Action → Option State
  | .deliver call envelope =>
    if (s.calls call).isSome then none
    else if isRepeated s.seenEventIds envelope then some s
    else
      let s := s.remember envelope.eventId
      match handlingOf workspaces envelope with
      | some h => some (s.put call h)
      | none => some s
  | .load call reached ties =>
    match s.calls call with
    | some h => if h.stage = .received then some (s.put call (loaded s h reached ties)) else none
    | none => none
  | .save call insert =>
    match s.calls call with
    | none => none
    | some h =>
      match h.stage with
      | .asking (key :: keys) =>
        some ((s.append call insert h.workspaceId key .user h.prompt).put call
          { h with stage := .asking keys })
      | .answering answer (key :: keys) =>
        some ((s.append call { insert with userId := none } h.workspaceId key .assistant answer).put
          call { h with stage := .answering answer keys })
      | _ => none
  | .answer call answer =>
    match s.calls call with
    | none => none
    | some h =>
      if h.stage = .asking [] then
        some (s.put call
          { h with stage := .answering answer (if answer = "" then [] else h.threads) })
      else none

abbrev Step (workspaces : List Workspace) (s : State) (a : Action) (t : State) : Prop :=
  step workspaces s a = some t

/-- What a step can do. -/
inductive Effect (workspaces : List Workspace) (s : State) : Action → State → Prop where
  | dropped {call : Nat} {envelope : SlackEventEnvelope} : Effect workspaces s (.deliver call envelope) s
  | ignored {call : Nat} {envelope : SlackEventEnvelope} :
      Effect workspaces s (.deliver call envelope) (s.remember envelope.eventId)
  | received {call : Nat} {envelope : SlackEventEnvelope} {h : Handling} :
      s.calls call = none → handlingOf workspaces envelope = some h →
      Effect workspaces s (.deliver call envelope) ((s.remember envelope.eventId).put call h)
  | loaded {call : Nat} {reached : Bool} {ties : Uuid → Nat} {h : Handling} :
      s.calls call = some h → h.stage = .received →
      Effect workspaces s (.load call reached ties) (s.put call (loaded s h reached ties))
  | saved {call : Nat} {insert into : Insert} {h : Handling} {key : String} {next : Stage}
      {role : MessageRole} {content : String} :
      s.calls call = some h → h.stage.keys = key :: next.keys → next ≠ .received →
      Effect workspaces s (.save call insert)
        ((s.append call into h.workspaceId key role content).put call { h with stage := next })
  | answered {call : Nat} {answer : String} {h : Handling} {keys : List String} :
      s.calls call = some h → keys ⊆ h.threads →
      Effect workspaces s (.answer call answer) (s.put call { h with stage := .answering answer keys })

theorem step_effect {workspaces : List Workspace} {s t : State} {a : Action}
    (taken : Step workspaces s a t) : Effect workspaces s a t := by
  cases a with
  | deliver call envelope =>
    simp only [Step, step] at taken
    split at taken
    · cases taken
    · rename_i free
      split at taken
      · cases taken
        exact .dropped
      · split at taken
        · rename_i h handled
          cases taken
          exact .received (Option.not_isSome_iff_eq_none.mp free) handled
        · cases taken
          exact .ignored
  | load call reached ties =>
    simp only [Step, step] at taken
    split at taken
    · rename_i h known
      split at taken
      · rename_i received
        cases taken
        exact .loaded known received
      · cases taken
    · cases taken
  | save call insert =>
    simp only [Step, step] at taken
    split at taken
    · cases taken
    · rename_i h known
      split at taken
      · rename_i key keys stage
        cases taken
        exact .saved known (congrArg Stage.keys stage) (fun same => by cases same)
      · rename_i answer key keys stage
        cases taken
        exact .saved known (congrArg Stage.keys stage) (fun same => by cases same)
      · cases taken
  | answer call answer =>
    simp only [Step, step] at taken
    split at taken
    · cases taken
    · rename_i h known
      split at taken
      · cases taken
        refine .answered known ?_
        split
        · exact List.nil_subset _
        · exact List.Subset.refl _
      · cases taken

/-! The law -/

/-- A turn of `other` is one of `own`'s conversation: of the same thread, or of the DM message that the
thread hangs under; for an unthreaded DM, of another unthreaded message of that DM. -/
def Belongs (own other : Received) : Prop :=
  other.workspaceId = own.workspaceId ∧ other.channel = own.channel ∧
    if rollingDm own.message then rollingDm other.message = true
    else
      rollingDm other.message = false ∧ threadOf other.message = threadOf own.message ∨
        rollingDm other.message = true ∧ other.message.ts = threadOf own.message

/-- What a history may hold: turns of the same conversation that other messages left, oldest first. -/
structure Unmixed (s : State) (call : Nat) (own : Handling) : Prop where
  replays : own.history = own.rows.map replayed
  origin : ∀ row ∈ own.rows, ∃ j other, j ≠ call ∧ s.writer row.id = some j ∧
    s.calls j = some other ∧ Belongs own.toReceived other.toReceived
  ordered : own.rows.Pairwise fun a b => a.createdAt ≤ b.createdAt

/-- No thread of one channel has the `ts` of a thread or of an unthreaded DM of another, nor the id of
another DM. -/
def Apart (a b : Received) : Prop :=
  a.workspaceId = b.workspaceId →
    (rollingDm a.message = false → nonEmpty (threadOf a.message) ≠ none →
      threadOf b.message = threadOf a.message → a.channel = b.channel) ∧
    (rollingDm b.message = true → threadOf a.message = some b.channel →
      rollingDm a.message = true ∧ a.channel = b.channel)

instance (a b : Received) : Decidable (Apart a b) :=
  inferInstanceAs (Decidable (_ → _ ∧ _))

/-! Keys -/

theorem memory_threaded {h : Received} {k : String} (threaded : rollingDm h.message = false)
    (named : nonEmpty (conversationKeys h.message h.channel).memoryThreadId = some k) :
    nonEmpty (threadOf h.message) = some k := by
  simpa [conversationKeys, threaded] using named

theorem memory_rolling {h : Received} {k : String} (rolls : rollingDm h.message = true)
    (named : nonEmpty (conversationKeys h.message h.channel).memoryThreadId = some k) :
    k = h.channel := by
  simp only [conversationKeys, rolls, ↓reduceIte] at named
  exact (Option.some.inj (nonEmpty_some named).1).symm

theorem threads_threaded {h : Received} {k : String} (threaded : rollingDm h.message = false)
    (writes : k ∈ h.threads) : threadOf h.message = some k := by
  simp only [Received.threads, turnThreads, conversationKeys, threaded, Bool.false_eq_true,
    ↓reduceIte] at writes
  obtain ⟨text, listed, named⟩ := List.mem_filterMap.mp writes
  rcases List.mem_cons.mp listed with rfl | branch
  · exact (nonEmpty_some named).1
  · rw [List.mem_singleton.mp branch] at named
    cases named

/-- An unthreaded DM is stored under its channel, and under its own `ts`. -/
theorem threads_rolling {h : Received} {k : String} (rolls : rollingDm h.message = true)
    (writes : k ∈ h.threads) : k = h.channel ∨ threadOf h.message = some k ∧ h.message.ts = some k := by
  simp only [Received.threads, turnThreads, conversationKeys, rolls, ↓reduceIte] at writes
  obtain ⟨text, listed, named⟩ := List.mem_filterMap.mp writes
  rcases List.mem_cons.mp listed with rfl | branch
  · exact .inl (Option.some.inj (nonEmpty_some named).1).symm
  · rw [List.mem_singleton.mp branch] at named
    have thread := (Option.filter_eq_some_iff.mp (nonEmpty_some named).1).1
    refine .inr ⟨(nonEmpty_some thread).1, ?_⟩
    -- An empty `thread_ts` would be the thread, and then there is no branch.
    unfold rollingDm at rolls
    have absent := Option.isNone_iff_eq_none.mp (Bool.and_eq_true_iff.mp rolls).2
    unfold threadOf at thread
    cases held : h.message.threadTs with
    | none =>
      rw [held, Option.none_or] at thread
      exact (nonEmpty_some thread).1
    | some text =>
      rw [held] at absent thread
      rw [Option.some_or, absent] at thread
      cases thread

/-- Where two messages use one key, apart ones are of one conversation. -/
theorem belongs_of_key {own other : Received} (ab : Apart own other) (ba : Apart other own)
    (same : other.workspaceId = own.workspaceId) {k : String}
    (reads : nonEmpty (conversationKeys own.message own.channel).memoryThreadId = some k)
    (writes : k ∈ other.threads) : Belongs own other := by
  cases threaded : rollingDm own.message with
  | false =>
    have thread := memory_threaded threaded reads
    obtain ⟨near, far⟩ := ab same.symm
    have near (written : threadOf other.message = some k) : other.channel = own.channel :=
      (near threaded (by simp [thread]) (written.trans (nonEmpty_some thread).1.symm)).symm
    cases second : rollingDm other.message with
    | false =>
      have written := threads_threaded second writes
      refine ⟨same, near written, ?_⟩
      rw [threaded]
      exact .inl ⟨second, written.trans (nonEmpty_some thread).1.symm⟩
    | true =>
      rcases threads_rolling second writes with own | ⟨written, root⟩
      · rw [own] at thread
        have rolls := (far second (nonEmpty_some thread).1).1
        rw [threaded] at rolls
        cases rolls
      · refine ⟨same, near written, ?_⟩
        rw [threaded]
        exact .inr ⟨second, root.trans (nonEmpty_some thread).1.symm⟩
  | true =>
    have channel := memory_rolling threaded reads
    subst channel
    obtain ⟨-, far⟩ := ba same
    cases second : rollingDm other.message with
    | false =>
      have rolls := (far threaded (threads_threaded second writes)).1
      rw [second] at rolls
      cases rolls
    | true =>
      refine ⟨same, ?_, ?_⟩
      · rcases threads_rolling second writes with alike | ⟨written, -⟩
        · exact alike.symm
        · exact (far threaded written).2
      · rw [if_pos threaded]
        exact second

/-! What a run keeps -/

/-- What the rows of a history were, and still are: rows of the own thread that others stored. -/
structure Read (s : State) (call : Nat) (h : Handling) : Prop where
  replays : h.history = h.rows.map replayed
  ordered : h.rows.Pairwise fun a b => a.createdAt ≤ b.createdAt
  stored : ∀ row ∈ h.rows, row ∈ s.messages ∧ row.workspaceId = h.workspaceId ∧
    nonEmpty (conversationKeys h.message h.channel).memoryThreadId = some row.threadId ∧
    s.writer row.id ≠ some call

structure Inv (s : State) : Prop where
  written : ∀ row ∈ s.messages, ∃ j other, s.writer row.id = some j ∧ s.calls j = some other ∧
    other.workspaceId = row.workspaceId ∧ row.threadId ∈ other.threads ∧ other.stage ≠ .received
  pending : ∀ call h, s.calls call = some h → ∀ key ∈ h.stage.keys, key ∈ h.threads
  read : ∀ call h, s.calls call = some h → Read s call h

theorem start_inv : Inv start := by
  constructor
  · exact fun row absent => absurd absent List.not_mem_nil
  · intro call h absent
    cases absent
  · intro call h absent
    cases absent

/-- A call that goes on keeps its message, and a new one has stored nothing. -/
theorem Inv.put {s : State} (inv : Inv s) {call : Nat} {h : Handling}
    (same : ∀ old, s.calls call = some old → h.toReceived = old.toReceived ∧ h.stage ≠ .received)
    (pending : ∀ key ∈ h.stage.keys, key ∈ h.threads) (read : Read s call h) :
    Inv (s.put call h) := by
  constructor
  · intro row member
    obtain ⟨j, other, wrote, known, workspace, thread, going⟩ := inv.written row member
    by_cases own : j = call
    · subst own
      obtain ⟨message, stage⟩ := same other known
      refine ⟨j, h, wrote, ?_, ?_, ?_, stage⟩
      · simp only [State.put, Function.update_self]
      · rw [message]
        exact workspace
      · rw [message]
        exact thread
    · refine ⟨j, other, wrote, ?_, workspace, thread, going⟩
      simp only [State.put, Function.update_of_ne own, known]
  · intro i g known
    by_cases own : i = call
    · subst own
      simp only [State.put, Function.update_self, Option.some.injEq] at known
      exact known ▸ pending
    · simp only [State.put, Function.update_of_ne own] at known
      exact inv.pending i g known
  · intro i g known
    by_cases own : i = call
    · subst own
      simp only [State.put, Function.update_self, Option.some.injEq] at known
      subst known
      exact ⟨read.replays, read.ordered, read.stored⟩
    · simp only [State.put, Function.update_of_ne own] at known
      have before := inv.read i g known
      exact ⟨before.replays, before.ordered, before.stored⟩

theorem append_calls (s : State) (call : Nat) (insert : Insert) (workspaceId threadId : String)
    (role : MessageRole) (content : String) :
    (s.append call insert workspaceId threadId role content).calls = s.calls := by
  unfold State.append
  dsimp only
  split <;> rfl

/-- An insert that takes place stores a row under a new key. -/
theorem append_cases (s : State) (call : Nat) (insert : Insert) (workspaceId threadId : String)
    (role : MessageRole) (content : String) :
    s.append call insert workspaceId threadId role content = s ∨
      ∃ row : Message, row.workspaceId = workspaceId ∧ row.threadId = threadId ∧
        row.id ∉ s.messages.map (·.id) ∧
        s.append call insert workspaceId threadId role content =
          { s with
            messages := s.messages ++ [row]
            writer := Function.update s.writer row.id (some call) } := by
  unfold State.append
  dsimp only
  rcases appendTurn_cases insert.reached s.messages
    ⟨insert.id, workspaceId, insert.userId, threadId, role, content, insert.now⟩ with
    same | ⟨fresh, stored⟩
  · rw [if_pos same]
    exact .inl rfl
  · refine .inr ⟨⟨insert.id, workspaceId, insert.userId, threadId, role, content, insert.now⟩,
      rfl, rfl, fresh, ?_⟩
    rw [stored, if_neg (by simp)]

theorem Inv.append {s : State} (inv : Inv s) {call : Nat} {h : Handling}
    (known : s.calls call = some h) (going : h.stage ≠ .received) {threadId : String}
    (thread : threadId ∈ h.threads) (insert : Insert) (role : MessageRole) (content : String) :
    Inv (s.append call insert h.workspaceId threadId role content) := by
  rcases append_cases s call insert h.workspaceId threadId role content with same |
    ⟨row, workspace, named, fresh, stored⟩
  · rw [same]
    exact inv
  · rw [stored]
    have old : ∀ r ∈ s.messages, Function.update s.writer row.id (some call) r.id = s.writer r.id := by
      intro r member
      refine Function.update_of_ne (fun same => fresh ?_) _ _
      rw [← same]
      exact List.mem_map_of_mem member
    constructor
    · intro r member
      rcases List.mem_append.mp member with before | new
      · dsimp only
        rw [old r before]
        exact inv.written r before
      · rw [List.mem_singleton.mp new]
        refine ⟨call, h, Function.update_self .., known, workspace.symm, ?_, going⟩
        rw [named]
        exact thread
    · exact inv.pending
    · intro i g listed
      have before := inv.read i g listed
      refine ⟨before.replays, before.ordered, fun r member => ?_⟩
      obtain ⟨present, own, key, other⟩ := before.stored r member
      refine ⟨List.mem_append_left _ present, own, key, ?_⟩
      dsimp only
      rw [old r present]
      exact other

theorem remember_calls (s : State) (eventId : Option String) :
    (s.remember eventId).calls = s.calls := by
  unfold State.remember
  split <;> rfl

theorem Inv.remember {s : State} (inv : Inv s) (eventId : Option String) :
    Inv (s.remember eventId) := by
  unfold State.remember
  split
  · refine ⟨inv.written, inv.pending, fun call h known => ?_⟩
    have before := inv.read call h known
    exact ⟨before.replays, before.ordered, before.stored⟩
  · exact inv

theorem handlingOf_fresh {workspaces : List Workspace} {envelope : SlackEventEnvelope} {h : Handling}
    (handled : handlingOf workspaces envelope = some h) :
    h.rows = [] ∧ h.history = [] ∧ h.stage = .received := by
  unfold handlingOf at handled
  split at handled
  · cases handled
    exact ⟨rfl, rfl, rfl⟩
  · cases handled

theorem loaded_same (s : State) (h : Handling) (reached : Bool) (ties : Uuid → Nat) :
    (loaded s h reached ties).toReceived = h.toReceived ∧
      (loaded s h reached ties).stage = .asking h.threads := by
  unfold loaded
  split <;> exact ⟨rfl, rfl⟩

/-- A history is read before the call stores a turn of its own. -/
theorem read_loaded {s : State} (inv : Inv s) {call : Nat} {h : Handling}
    (known : s.calls call = some h) (received : h.stage = .received) (reached : Bool)
    (ties : Uuid → Nat) : Read s call (loaded s h reached ties) := by
  unfold loaded
  cases key : nonEmpty (conversationKeys h.message h.channel).memoryThreadId with
  | none =>
    have before := inv.read call h known
    exact ⟨before.replays, before.ordered, before.stored⟩
  | some threadId =>
    refine ⟨rfl, threadRows_oldest_first, fun row member => ?_⟩
    obtain ⟨present, workspace, thread⟩ := mem_threadRows member
    refine ⟨present, workspace, key.trans (congrArg some thread.symm), fun own => ?_⟩
    obtain ⟨j, other, wrote, listed, -, -, going⟩ := inv.written row present
    cases Option.some.inj (own.symm.trans wrote)
    cases Option.some.inj (known.symm.trans listed)
    exact going received

/-- The first of the threads that are left is written, and the call goes on with the others. -/
theorem Inv.saved {s : State} (inv : Inv s) {call : Nat} {h : Handling} (known : s.calls call = some h)
    {key : String} {next : Stage} (stage : h.stage.keys = key :: next.keys)
    (going : next ≠ .received) (insert : Insert) (role : MessageRole)
    (content : String) :
    Inv ((s.append call insert h.workspaceId key role content).put call { h with stage := next }) := by
  have owned := inv.pending call h known
  rw [stage] at owned
  have begun : h.stage ≠ .received := fun received => by
    rw [received] at stage
    cases stage
  have stored := inv.append known begun (owned key List.mem_cons_self) insert role content
  have listed : (s.append call insert h.workspaceId key role content).calls call = some h := by
    rw [append_calls]
    exact known
  have before := stored.read call h listed
  refine stored.put ?_ ?_ ⟨before.replays, before.ordered, before.stored⟩
  · intro old same
    cases Option.some.inj (listed.symm.trans same)
    exact ⟨rfl, going⟩
  · exact fun k member => owned k (List.mem_cons_of_mem _ member)

theorem Inv.received {s : State} (inv : Inv s) {call : Nat} {h : Handling} {workspaces : List Workspace}
    {envelope : SlackEventEnvelope} (free : s.calls call = none)
    (handled : handlingOf workspaces envelope = some h) : Inv (s.put call h) := by
  obtain ⟨rows, history, stage⟩ := handlingOf_fresh handled
  refine inv.put ?_ ?_ ⟨?_, ?_, ?_⟩
  · intro old listed
    rw [free] at listed
    cases listed
  · rw [stage]
    exact fun key absent => absurd absent List.not_mem_nil
  · rw [history, rows]
    rfl
  · rw [rows]
    exact .nil
  · rw [rows]
    exact fun row absent => absurd absent List.not_mem_nil

theorem step_inv {workspaces : List Workspace} {s t : State} {a : Action} (inv : Inv s)
    (taken : Step workspaces s a t) : Inv t := by
  cases step_effect taken with
  | dropped => exact inv
  | ignored => exact inv.remember _
  | received free handled =>
    refine (inv.remember _).received ?_ handled
    rw [remember_calls]
    exact free
  | @loaded call reached ties h known received =>
    obtain ⟨message, stage⟩ := loaded_same s h reached ties
    refine inv.put ?_ ?_ (read_loaded inv known received reached ties)
    · intro old listed
      cases Option.some.inj (known.symm.trans listed)
      refine ⟨message, ?_⟩
      rw [stage]
      exact fun same => by cases same
    · rw [stage, message]
      exact fun key member => member
  | saved known stage going => exact inv.saved known stage going _ _ _
  | @answered call answer h keys known within =>
    have before := inv.read call h known
    refine inv.put ?_ ?_ ⟨before.replays, before.ordered, before.stored⟩
    · intro old listed
      cases Option.some.inj (known.symm.trans listed)
      exact ⟨rfl, fun same => by cases same⟩
    · exact fun key member => within member

/-- The message that a transition brings. -/
def handledIn (workspaces : List Workspace) (x : Transition State Action) : Option Received :=
  match x.label with
  | .deliver _ envelope => (handlingOf workspaces envelope).map (·.toReceived)
  | _ => none

theorem put_calls {s : State} {call i : Nat} {h own : Handling}
    (known : (s.put call h).calls i = some own) : i = call ∧ h = own ∨ s.calls i = some own := by
  by_cases same : i = call
  · subst same
    simp only [State.put, Function.update_self, Option.some.injEq] at known
    exact .inl ⟨rfl, known⟩
  · simp only [State.put, Function.update_of_ne same] at known
    exact .inr known

/-- A call in progress is of the message it was, or of the one delivered. -/
theorem step_calls {workspaces : List Workspace} {s t : State} {a : Action}
    (taken : Step workspaces s a t) {call : Nat} {own : Handling} (known : t.calls call = some own) :
    (∃ old, s.calls call = some old ∧ old.toReceived = own.toReceived) ∨
      handledIn workspaces ⟨s, a, t⟩ = some own.toReceived := by
  cases step_effect taken with
  | dropped => exact .inl ⟨own, known, rfl⟩
  | ignored =>
    rw [remember_calls] at known
    exact .inl ⟨own, known, rfl⟩
  | @received _ _ h free handled =>
    rcases put_calls known with ⟨-, rfl⟩ | before
    · refine .inr ?_
      simp only [handledIn, handled, Option.map_some]
    · rw [remember_calls] at before
      exact .inl ⟨own, before, rfl⟩
  | @loaded _ reached ties h listed received =>
    rcases put_calls known with ⟨rfl, rfl⟩ | before
    · exact .inl ⟨h, listed, (loaded_same s h reached ties).1.symm⟩
    · exact .inl ⟨own, before, rfl⟩
  | saved listed stage going =>
    rcases put_calls known with ⟨rfl, rfl⟩ | before
    · exact .inl ⟨_, listed, rfl⟩
    · rw [append_calls] at before
      exact .inl ⟨own, before, rfl⟩
  | answered listed within =>
    rcases put_calls known with ⟨rfl, rfl⟩ | before
    · exact .inl ⟨_, listed, rfl⟩
    · exact .inl ⟨own, before, rfl⟩

theorem calls_handled {workspaces : List Workspace} {steps : List (Transition State Action)}
    {s : State} (run : Run (Step workspaces) start steps s) :
    ∀ call own, s.calls call = some own →
      own.toReceived ∈ steps.filterMap (handledIn workspaces) := by
  induction run with
  | nil =>
    intro call own absent
    cases absent
  | snoc earlier taken ih =>
    intro call own known
    rw [List.filterMap_append]
    rcases step_calls taken known with ⟨old, before, same⟩ | new
    · rw [← same]
      exact List.mem_append_left _ (ih call old before)
    · exact List.mem_append_right _ (List.mem_filterMap.mpr ⟨_, List.mem_singleton_self _, new⟩)

/-! Two mentions -/

def delivered (x : Transition State Action) : Option SlackEventEnvelope :=
  match x.label with
  | .deliver _ envelope => some envelope
  | _ => none

/-- A `ts` is unique within its channel. -/
abbrev TsUnique (steps : List (Transition State Action)) : Prop :=
  (steps.filterMap delivered).Pairwise fun a b =>
    ¬(a.teamId = b.teamId ∧ a.event.channel = b.event.channel ∧ a.event.ts = b.event.ts)

def acme : Workspace := ⟨"w1", "Acme", "T1", some "xoxb-1"⟩

def mention (eventId channel ts text : String) (threadTs : Option String) : SlackEventEnvelope where
  eventId := some eventId
  teamId := some "T1"
  event :=
    { type := "app_mention", channel := some channel, user := some "U1", text := some text
      ts := some ts, threadTs }

/-- A question that is answered, and a second message in another thread or the same one. -/
def twoMentions (second : SlackEventEnvelope) : List Action :=
  [.deliver 0 (mention "E1" "C1" "1712345678.000100" "<@B1> how is Spring doing?" none),
    .load 0 true id, .save 0 ⟨1, none, 10, true⟩, .answer 0 "Spring is up 4%.",
    .save 0 ⟨2, none, 20, true⟩, .deliver 1 second, .load 1 true id]

/-- In every run over messages that are apart, at every moment, the history that a call has read holds
only turns of its own conversation, oldest first and none of its own. -/
theorem conversations_unmixed (workspaces : List Workspace) {steps : List (Transition State Action)}
    {s : State} (run : Run (Step workspaces) start steps s)
    (apart : ∀ a ∈ steps.filterMap (handledIn workspaces),
      ∀ b ∈ steps.filterMap (handledIn workspaces), Apart a b) :
    ∀ call own, s.calls call = some own → Unmixed s call own := by
  have inv := run.invariant start_inv fun s a t before taken => step_inv before taken
  have brought := calls_handled run
  intro call own known
  have read := inv.read call own known
  refine ⟨read.replays, fun row member => ?_, read.ordered⟩
  obtain ⟨present, workspace, reads, foreign⟩ := read.stored row member
  obtain ⟨j, other, wrote, listed, home, writes, -⟩ := inv.written row present
  refine ⟨j, other, fun same => foreign (same ▸ wrote), wrote, listed, ?_⟩
  have here := brought call own known
  have there := brought j other listed
  exact belongs_of_key (apart _ here _ there) (apart _ there _ here) (home.trans workspace) reads writes

def reply : List Action :=
  twoMentions (mention "E2" "C1" "1712345679.000200" "<@B1> pause it" (some "1712345678.000100"))

theorem reply_unmixed : ∃ steps s, Run (Step [acme]) start steps s ∧ ∃ own, s.calls 1 = some own ∧
    own.rows.map (·.content) = ["how is Spring doing?", "Spring is up 4%."] ∧ Unmixed s 1 own := by
  have seen : (follow (step [acme]) start reply).map (fun r =>
      (r.2.calls 1).map fun h => h.rows.map (·.content)) =
      some (some ["how is Spring doing?", "Spring is up 4%."]) := by
    decide +kernel
  have separate : (follow (step [acme]) start reply).map (fun r =>
      decide (∀ a ∈ r.1.filterMap (handledIn [acme]), ∀ b ∈ r.1.filterMap (handledIn [acme]),
        Apart a b)) = some true := by
    decide +kernel
  obtain ⟨⟨steps, s⟩, done, facts⟩ := Option.map_eq_some_iff.mp seen
  rw [done, Option.map_some] at separate
  have apart := of_decide_eq_true (Option.some.inj separate)
  obtain ⟨own, known, contents⟩ := Option.map_eq_some_iff.mp facts
  have run := follow_run done
  exact ⟨steps, s, run, own, known, contents, conversations_unmixed [acme] run apart 1 own known⟩

def sameTime : List Action :=
  twoMentions (mention "E2" "C2" "1712345678.000100" "<@B1> pause it" none)

/-- The second channel's question is asked with the first channel's turns as its history. -/
theorem channels_mix : ∃ steps s, Run (Step [acme]) start steps s ∧ TsUnique steps ∧
    ∃ own, s.calls 1 = some own ∧ own.channel = "C2" ∧
      own.rows.map (·.content) = ["how is Spring doing?", "Spring is up 4%."] ∧ ¬Unmixed s 1 own := by
  have seen : (follow (step [acme]) start sameTime).map (fun r =>
      ((r.2.calls 1).map fun h => (h.channel, h.rows.map (·.id), h.rows.map (·.content)),
        (r.2.calls 0).map (·.channel), r.2.writer 1)) =
      some (some ("C2", [1, 2], ["how is Spring doing?", "Spring is up 4%."]), some "C1", some 0) := by
    decide +kernel
  have times : (follow (step [acme]) start sameTime).map (fun r => decide (TsUnique r.1)) =
      some true := by
    decide +kernel
  obtain ⟨⟨steps, s⟩, done, facts⟩ := Option.map_eq_some_iff.mp seen
  rw [done, Option.map_some] at times
  have unique := of_decide_eq_true (Option.some.inj times)
  simp only [Prod.mk.injEq, Option.map_eq_some_iff] at facts
  obtain ⟨⟨own, known, channel, ids, contents⟩, ⟨first, listed, home⟩, wrote⟩ := facts
  refine ⟨steps, s, follow_run done, unique, own, known, channel, contents, fun unmixed => ?_⟩
  cases read : own.rows with
  | nil => simp [read] at contents
  | cons row rest =>
    have id : row.id = 1 := by
      rw [read] at ids
      exact (List.cons.inj ids).1
    obtain ⟨j, other, -, by_, origin, belongs⟩ := unmixed.origin row (read ▸ List.mem_cons_self)
    rw [id] at by_
    cases Option.some.inj (wrote.symm.trans by_)
    cases Option.some.inj (listed.symm.trans origin)
    have same := belongs.2.1
    rw [home, channel] at same
    exact absurd same (by decide)

end Gomer.Threads
