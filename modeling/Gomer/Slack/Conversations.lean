import Gomer.Ai.Run
import Gomer.Lib.StableSort
import Gomer.Slack.Events
import Mathlib.Data.Prod.Lex

/-! The conversation of a Slack message, and `MessagesService`, which keeps the turns of a thread
and reads them back as the history of a run. -/
namespace Gomer.Slack

/-- A message to the bot in a DM, outside its threads. -/
def rollingDm (message : SlackMessageEvent) : Bool :=
  message.channelType == some "im" && (nonEmpty message.threadTs).isNone

/-- `thread_ts ?? ts`. -/
def threadOf (message : SlackMessageEvent) : Option String := message.threadTs.or message.ts

structure ConversationKeys where
  memoryThreadId : Option String
  branchThreadId : Option String

def conversationKeys (message : SlackMessageEvent) (channel : String) : ConversationKeys where
  memoryThreadId := if rollingDm message then some channel else threadOf message
  branchThreadId :=
    if rollingDm message then (nonEmpty (threadOf message)).filter (· != channel) else none

/-- The branch is another conversation than the one it branches from. -/
theorem conversationKeys_apart (message : SlackMessageEvent) (channel id : String)
    (own : (conversationKeys message channel).memoryThreadId = some id) :
    (conversationKeys message channel).branchThreadId ≠ some id := by
  unfold conversationKeys at own ⊢
  cases rolls : rollingDm message with
  | false => simp
  | true =>
    simp only [rolls, ↓reduceIte, Option.some.injEq] at own ⊢
    intro branch
    have other := (Option.filter_eq_some_iff.mp branch).2
    simp [own] at other

/-- The threads that a turn of this message is stored under. -/
def turnThreads (message : SlackMessageEvent) (channel : String) : List String :=
  let keys := conversationKeys message channel
  [keys.memoryThreadId, keys.branchThreadId].filterMap nonEmpty

/-! `MessagesService` -/

inductive MessageRole where
  | user
  | assistant
  deriving DecidableEq, Repr

structure Message where
  id : Uuid
  workspaceId : String
  userId : Option String
  threadId : String
  role : MessageRole
  content : String
  createdAt : Instant
  deriving DecidableEq, Repr

def historyTurnLimit : Nat := 20
def turnCharLimit : Nat := 4000

/-- `slice(0, units)`; a pair of surrogates that it would cut is left out. -/
def takeUnits : Nat → List Char → List Char
  | units, c :: rest =>
    let width := Json.utf16Length [c]
    if width ≤ units then c :: takeUnits (units - width) rest else []
  | _, [] => []

def replayed (row : Message) : Ai.ConversationTurn :=
  let content :=
    if turnCharLimit < Json.utf16Length row.content.toList then
      String.ofList (takeUnits turnCharLimit row.content.toList) ++ "…"
    else row.content
  match row.role with
  | .assistant => .assistant content
  | .user => .user content

/-- The newest rows of a thread, oldest first. `ties` is the order that the database gives to rows of
one time; a query that fails reads nothing. -/
def threadRows (reached : Bool) (ties : Uuid → Nat) (messages : List Message)
    (workspaceId threadId : String) : List Message :=
  if reached then
    ((StableSort.sort (fun row : Message => toLex (-row.createdAt, ties row.id))
      (messages.filter fun row => row.workspaceId == workspaceId && row.threadId == threadId)).take
        historyTurnLimit).reverse
  else []

def getThread (reached : Bool) (ties : Uuid → Nat) (messages : List Message)
    (workspaceId threadId : String) : List Ai.ConversationTurn :=
  (threadRows reached ties messages workspaceId threadId).map replayed

/-- A blank turn is not stored, and a failure loses it. -/
def appendTurn (reached : Bool) (messages : List Message) (row : Message) : List Message :=
  if JsNumber.trim row.content.toList = [] then messages
  else if reached && decide (row.id ∉ messages.map (·.id)) then messages ++ [row]
  else messages

theorem appendTurn_cases (reached : Bool) (messages : List Message) (row : Message) :
    appendTurn reached messages row = messages ∨
      row.id ∉ messages.map (·.id) ∧ appendTurn reached messages row = messages ++ [row] := by
  unfold appendTurn
  split
  · exact .inl rfl
  · split
    · rename_i stores
      exact .inr ⟨of_decide_eq_true (Bool.and_eq_true_iff.mp stores).2, rfl⟩
    · exact .inl rfl

section
variable {reached : Bool} {ties : Uuid → Nat} {messages : List Message} {workspaceId threadId : String}

theorem mem_threadRows {row : Message}
    (read : row ∈ threadRows reached ties messages workspaceId threadId) :
    row ∈ messages ∧ row.workspaceId = workspaceId ∧ row.threadId = threadId := by
  unfold threadRows at read
  split at read
  · have sorted := List.mem_of_mem_take (List.mem_reverse.mp read)
    have kept := ((List.perm_insertionSort _ _).mem_iff).mp sorted
    obtain ⟨member, keyed⟩ := List.mem_filter.mp kept
    simp only [Bool.and_eq_true, beq_iff_eq] at keyed
    exact ⟨member, keyed⟩
  · cases read

theorem threadRows_length : (threadRows reached ties messages workspaceId threadId).length ≤
    historyTurnLimit := by
  unfold threadRows
  split
  · rw [List.length_reverse, List.length_take]
    exact min_le_left _ _
  · exact Nat.zero_le _

theorem threadRows_oldest_first : (threadRows reached ties messages workspaceId threadId).Pairwise
    fun a b => a.createdAt ≤ b.createdAt := by
  unfold threadRows
  split
  · refine List.pairwise_reverse.mpr (List.Pairwise.imp ?_
      ((StableSort.sort_sorted (fun row : Message => toLex (-row.createdAt, ties row.id))
        _).sublist (List.take_sublist _ _)))
    intro newer older ordered
    have times := Prod.Lex.monotone_fst _ _ ordered
    simpa using times
  · exact .nil

end

end Gomer.Slack
