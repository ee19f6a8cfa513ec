import Mathlib.Data.List.Induction
import Mathlib.Data.List.ModifyLast
import Gomer.Ai.Run
import Gomer.Lib.Heap
import Gomer.Lib.Trailing

/-! `AnthropicProvider.toAnthropicMessages` and `withTranscriptCache`, on the objects they read and
make, and the messages that these objects stand for. -/
namespace Gomer.Ai.Anthropic

open JsHeap

/-! The provider -/

def cacheTtl : String := "1h"

def transcriptBreakpoints : Nat := 2

/-- The objects there are once the module is loaded: `CACHE`. -/
def moduleObjects : Heap := [.record [("type", .str "ephemeral"), ("ttl", .str cacheTtl)]]

def cache : Value := .ref 0

/-- One of `message.results`. -/
def toolResultBlock (heap : Heap) (result : Value) : Option (Heap × Value) :=
  let seen := view heap
  some (make (.record ([("type", .str "tool_result"), ("tool_use_id", get seen result "id"),
    ("content", get seen result "content")] ++
    if truthy (get seen result "isError") then [("is_error", .bool true)] else [])) heap)

def toAnthropicMessage (heap : Heap) (message : Value) : Option (Heap × Value) :=
  let seen := view heap
  if get seen message "role" = .str "user" then
    some (make (.record [("role", .str "user"), ("content", get seen message "content")]) heap)
  else if get seen message "role" = .str "assistant" then
    if truthy (get seen message "raw") then
      some (make (.record [("role", .str "assistant"), ("content", get seen message "raw")]) heap)
    else
      some (make (.record [("role", .str "assistant"), ("content", get seen message "content")]) heap)
  else do
    let results ← items? seen (get seen message "results")
    let (heap, blocks) ← mapItems toolResultBlock heap results
    let (heap, content) := make (.array blocks) heap
    some (make (.record [("role", .str "user"), ("content", content)]) heap)

def toAnthropicMessages (heap : Heap) (messages : Value) : Option (Heap × Value) := do
  let items ← items? (view heap) messages
  let (heap, converted) ← mapItems toAnthropicMessage heap items
  some (make (.array converted) heap)

/-- The blocks of a user turn, in an array of their own. -/
def copyBlocks (heap : Heap) (content : Value) : Option (Heap × Value) :=
  match content with
  | .str text =>
    let (heap, block) := make (.record [("type", .str "text"), ("text", .str text)]) heap
    some (make (.array [block]) heap)
  | _ => do
    let items ← items? (view heap) content
    some (make (.array items) heap)

/-- The turn with its last block marked, or nothing where that block goes uncached. -/
def markTail (heap : Heap) (blocks : Value) : Option (Heap × Option Value) := do
  let items ← items? (view heap) blocks
  let tail := items.getLast?.getD .undefined
  let type := get (view heap) tail "type"
  if type ≠ .str "text" ∧ type ≠ .str "tool_result" then some (heap, none)
  else
    let (heap, block) :=
      make (.record (withField "cache_control" cache (fields (view heap) tail))) heap
    let heap ← assign heap blocks (items.length - 1) block
    let (heap, turn) := make (.record [("role", .str "user"), ("content", blocks)]) heap
    some (heap, some turn)

/-- What the loop makes of one message; nothing where it goes on to the next. -/
def markMessage (heap : Heap) (message : Value) : Option (Heap × Option Value) :=
  if get (view heap) message "role" ≠ .str "user" then some (heap, none)
  else do
    let (heap, blocks) ← copyBlocks heap (get (view heap) message "content")
    markTail heap blocks

/-- The loop of `withTranscriptCache` from the element before `i` downwards. -/
def markFrom (marked : Value) : Nat → Nat → Heap → Option Heap
  | 0, _, heap => some heap
  | i + 1, remaining, heap =>
    if remaining = 0 then some heap
    else do
      let items ← items? (view heap) marked
      let message ← items[i]?
      let (heap, turn) ← markMessage heap message
      match turn with
      | none => markFrom marked i remaining heap
      | some turn =>
        let heap ← assign heap marked i turn
        markFrom marked i (remaining - 1) heap

def withTranscriptCache (heap : Heap) (messages : Value) : Option (Heap × Value) := do
  let items ← items? (view heap) messages
  let (heap, marked) := make (.array items) heap
  let heap ← markFrom marked items.length transcriptBreakpoints heap
  some (heap, marked)

/-- The `messages` of a request. -/
def requestMessages (heap : Heap) (transcript : Value) : Option (Heap × Value) := do
  let (heap, messages) ← toAnthropicMessages heap transcript
  withTranscriptCache heap messages

/-! What the objects of a transcript stand for -/

def callObject (call : ToolCall) : Json :=
  .obj [("id", .str call.id), ("name", .str call.name), ("input", call.input)]

def resultObject (result : ToolResult) : Json :=
  .obj [("id", .str result.id), ("name", .str result.name), ("content", .str result.content),
    ("isError", .bool result.isError)]

def messageObject : ProviderMessage → Json
  | .user content => .obj [("role", .str "user"), ("content", .str content)]
  | .assistant content toolCalls raw =>
    .obj ([("role", .str "assistant"), ("content", .str content),
      ("toolCalls", .arr (toolCalls.map callObject))] ++ raw.toList.map ("raw", ·))
  | .tool results =>
    .obj [("role", .str "tool"), ("results", .arr (results.map resultObject))]

/-- The array stands for these messages. -/
def Holds (heap : Heap) (transcript : Value) (messages : List ProviderMessage) : Prop :=
  Denotes (view heap) transcript (.arr (messages.map messageObject))

/-! Messages of the provider's API -/

inductive UserContent where
  | text (content : String)
  | blocks (items : List Json)

/-- An assistant turn replays whatever the provider sent. -/
inductive AnthropicMessage where
  | user (content : UserContent)
  | assistant (content : Json)

def textBlock (text : String) : Json := .obj [("type", .str "text"), ("text", .str text)]

/-- To the provider, a text is one block. -/
def UserContent.toBlocks : UserContent → List Json
  | .text content => [textBlock content]
  | .blocks items => items

def UserContent.object : UserContent → Json
  | .text content => .str content
  | .blocks items => .arr items

def AnthropicMessage.object : AnthropicMessage → Json
  | .user content => .obj [("role", .str "user"), ("content", content.object)]
  | .assistant content => .obj [("role", .str "assistant"), ("content", content)]

def cacheControl : Json := .obj [("type", .str "ephemeral"), ("ttl", .str cacheTtl)]

def resultBlock (result : ToolResult) : Json :=
  .obj ([("type", .str "tool_result"), ("tool_use_id", .str result.id),
    ("content", .str result.content)] ++ if result.isError then [("is_error", .bool true)] else [])

/-- The blocks of a turn where there are any, else its text. -/
def replayed (content : String) (raw : Option Json) : Json :=
  (raw.filter Json.toBool).getD (.str content)

def rendered : ProviderMessage → AnthropicMessage
  | .user content => .user (.text content)
  | .assistant content _ raw => .assistant (replayed content raw)
  | .tool results => .user (.blocks (results.map resultBlock))

def isCacheable (block : Json) : Bool :=
  match block.get? "type" with
  | some (.str type) => type == "text" || type == "tool_result"
  | _ => false

/-- A user turn that ends in a text or a tool result. -/
def AnthropicMessage.canBreak : AnthropicMessage → Bool
  | .user content => content.toBlocks.getLast?.any isCacheable
  | .assistant _ => false

def withCacheControl : Json → Json
  | .obj fields => .obj (withField "cache_control" cacheControl fields)
  | block => block

def AnthropicMessage.mark : AnthropicMessage → AnthropicMessage
  | .user content => .user (.blocks (content.toBlocks.modifyLast withCacheControl))
  | .assistant content => .assistant content

/-- What a request sends of a transcript. -/
def sentMessages (messages : List ProviderMessage) : List AnthropicMessage :=
  Trailing.update AnthropicMessage.canBreak AnthropicMessage.mark transcriptBreakpoints
    (messages.map rendered)

/-! Rendering -/

section
variable {P : Nat → Prop} [DecidablePred P] {heap : Heap}

theorem toolResultBlock_spec {item : Value} {result : ToolResult} (new : SeesNew P heap)
    (denotes : Denotes (within P (view heap)) item (resultObject result)) :
    ∃ after value, toolResultBlock heap item = some (after, value) ∧ heap <+: after ∧
      Denotes (within P (view after)) value (resultBlock result) := by
  have whole : Denotes (view heap) item (resultObject result) := denotes.kept (kept_within P _)
  have id : get (view heap) item "id" = .str result.id :=
    (whole.get (by simp [resultObject, Json.get?])).str_inv
  have content : get (view heap) item "content" = .str result.content :=
    (whole.get (by simp [resultObject, Json.get?])).str_inv
  have flag : Denotes (view heap) (get (view heap) item "isError") (.bool result.isError) :=
    whole.get (by simp [resultObject, Json.get?])
  have isError : truthy (get (view heap) item "isError") = result.isError := flag.truthy
  refine ⟨_, _, rfl, List.prefix_append _ _, ?_⟩
  rw [id, content, isError]
  refine denotes_record new (List.rel_append ?_ ?_)
  · exact .cons ⟨rfl, .str _⟩ (.cons ⟨rfl, .str _⟩ (.cons ⟨rfl, .str _⟩ .nil))
  · split
    · exact .cons ⟨rfl, .bool true⟩ .nil
    · exact .nil

/-- A record of a role and a content. -/
theorem denotes_turn {content : Value} {json : Json} (role : String) (new : SeesNew P heap)
    (denotes : Denotes (within P (view heap)) content json) :
    Denotes (within P (view (make (.record [("role", .str role), ("content", content)]) heap).1))
      (make (.record [("role", .str role), ("content", content)]) heap).2
      (.obj [("role", .str role), ("content", json)]) :=
  denotes_record new (.cons ⟨rfl, .str role⟩ (.cons ⟨rfl, denotes⟩ .nil))

theorem toAnthropicMessage_spec {item : Value} {message : ProviderMessage} (new : SeesNew P heap)
    (denotes : Denotes (within P (view heap)) item (messageObject message)) :
    ∃ after value, toAnthropicMessage heap item = some (after, value) ∧ heap <+: after ∧
      Denotes (within P (view after)) value (rendered message).object := by
  have seen (key : String) : get (view heap) item key = get (within P (view heap)) item key :=
    denotes.get_eq (kept_within P _) key
  unfold toAnthropicMessage
  simp only [seen]
  cases message with
  | user content =>
    have role : get (within P (view heap)) item "role" = .str "user" :=
      (denotes.get (by simp [messageObject, Json.get?])).str_inv
    have text : Denotes (within P (view heap)) (get (within P (view heap)) item "content")
        (.str content) :=
      denotes.get (by simp [messageObject, Json.get?])
    rw [if_pos role]
    exact ⟨_, _, rfl, List.prefix_append _ _, denotes_turn "user" new text⟩
  | assistant content toolCalls raw =>
    have role : get (within P (view heap)) item "role" = .str "assistant" := by
      cases raw <;> exact (denotes.get (by simp [messageObject, Json.get?])).str_inv
    have text : Denotes (within P (view heap)) (get (within P (view heap)) item "content")
        (.str content) := by
      cases raw <;> exact denotes.get (by simp [messageObject, Json.get?])
    rw [if_neg (by simp [role]), if_pos role]
    cases raw with
    | none =>
      have absent : get (within P (view heap)) item "raw" = .undefined :=
        denotes.get_undefined (by simp [messageObject, Json.get?])
      rw [absent, if_neg (by simp [truthy])]
      exact ⟨_, _, rfl, List.prefix_append _ _, denotes_turn "assistant" new text⟩
    | some raw =>
      have blocks : Denotes (within P (view heap)) (get (within P (view heap)) item "raw") raw :=
        denotes.get (by simp [messageObject, Json.get?])
      rw [blocks.truthy]
      cases given : raw.toBool with
      | true =>
        have kept : replayed content (some raw) = raw := by simp [replayed, Option.filter, given]
        simp only [rendered, kept, if_true]
        exact ⟨_, _, rfl, List.prefix_append _ _, denotes_turn "assistant" new blocks⟩
      | false =>
        have dropped : replayed content (some raw) = .str content := by
          simp [replayed, Option.filter, given]
        simp only [rendered, dropped, Bool.false_eq_true, if_false]
        exact ⟨_, _, rfl, List.prefix_append _ _, denotes_turn "assistant" new text⟩
  | tool results =>
    have role : get (within P (view heap)) item "role" = .str "tool" :=
      (denotes.get (by simp [messageObject, Json.get?])).str_inv
    have listed : Denotes (within P (view heap)) (get (within P (view heap)) item "results")
        (.arr (results.map resultObject)) := denotes.get (by simp [messageObject, Json.get?])
    obtain ⟨items, found, all⟩ := listed.items
    obtain ⟨after, blocks, mapped, grown, denoted⟩ := mapItems_spec
      (fun _ _ _ new => toolResultBlock_spec new) new all
    have further := List.prefix_append after [Object.array blocks]
    have content := denotes_array (new.grown grown) denoted
    rw [if_neg (by simp [role]), if_neg (by simp [role]), (kept_within P _).items found]
    simp only [Option.bind_eq_bind, Option.bind_some, mapped]
    exact ⟨_, _, rfl, (grown.trans further).trans (List.prefix_append _ _),
      denotes_turn "user" ((new.grown grown).grown further) content⟩

/-- The rendered transcript is an array of its own, over messages of their own. -/
theorem toAnthropicMessages_spec {transcript : Value} {items : List Value}
    {messages : List ProviderMessage} (new : SeesNew P heap)
    (listed : items? (view heap) transcript = some items)
    (all : List.Forall₂ (Denotes (within P (view heap))) items (messages.map messageObject)) :
    ∃ after value, toAnthropicMessages heap transcript = some (after, value) ∧ heap <+: after ∧
      Denotes (within P (view after)) value
        (.arr (messages.map fun message => (rendered message).object)) := by
  obtain ⟨after, converted, mapped, grown, denoted⟩ := mapItems_spec
    (fun _ _ _ new => toAnthropicMessage_spec new) new all
  refine ⟨_, _, ?_, grown.trans (List.prefix_append after [Object.array converted]),
    denotes_array (new.grown grown) denoted⟩
  simp only [toAnthropicMessages, listed, mapped, Option.bind_eq_bind, Option.bind_some]
  rfl

/-! Marking -/

/-- The copied blocks are the newest object. -/
theorem copyBlocks_spec {value : Value} {content : UserContent} (new : SeesNew P heap)
    (denotes : Denotes (within P (view heap)) value content.object) :
    ∃ base items, copyBlocks heap value = some (base ++ [.array items], .ref base.length) ∧
      heap <+: base ∧ List.Forall₂ (Denotes (within P (view base))) items content.toBlocks := by
  cases content with
  | text content =>
    rw [denotes.str_inv]
    refine ⟨_, _, rfl, List.prefix_append _ _, .cons ?_ .nil⟩
    exact denotes_record new (.cons ⟨rfl, .str "text"⟩ (.cons ⟨rfl, .str content⟩ .nil))
  | blocks items =>
    obtain ⟨address, values, rfl, found, all⟩ := denotes.arr_inv
    have listed : items? (view heap) (.ref address) = some values := by
      simp only [items?, object?, kept_within P _ address _ found]
    refine ⟨heap, values, ?_, List.prefix_rfl, all⟩
    simp only [copyBlocks, listed, Option.bind_eq_bind, Option.bind_some]
    rfl

theorem isCacheable_iff {seen : View} {value : Value} {block : Json}
    (denotes : Denotes seen value block) : isCacheable block = true ↔
      get seen value "type" = .str "text" ∨ get seen value "type" = .str "tool_result" := by
  unfold isCacheable
  cases found : block.get? "type" with
  | none =>
    rw [denotes.get_undefined found]
    simp
  | some property =>
    have type := denotes.get found
    cases property with
    | str name =>
      rw [type.str_inv]
      simp
    | _ =>
      constructor
      · intro cacheable
        cases cacheable
      · rintro (text | result)
        · rw [text] at type
          cases type.unique (.str "text")
        · rw [result] at type
          cases type.unique (.str "tool_result")

/-- What the loop makes of a message: nothing, or its marked turn. -/
def Marks (P : Nat → Prop) [DecidablePred P] (heap : Heap) (message : AnthropicMessage) :
    Option Value → Prop
  | none => message.canBreak = false
  | some turn => message.canBreak = true ∧ Denotes (within P (view heap)) turn message.mark.object

/-- The array of the copied blocks, the marked one of them, and the turn: three new objects. -/
theorem denotes_markedTurn {base : Heap} {front : List Value} {tail : Value} {init : List Json}
    {named : List (String × Json)} (new : SeesNew P base)
    (cached : Denotes (within P (view base)) cache cacheControl)
    (others : List.Forall₂ (Denotes (within P (view base))) front init)
    (denotes : Denotes (within P (view base)) tail (.obj named)) :
    Denotes (within P (view (base ++ [.array (front ++ [.ref (base.length + 1)]),
        .record (withField "cache_control" cache (fields (within P (view base)) tail)),
        .record [("role", .str "user"), ("content", .ref base.length)]]))) (.ref (base.length + 2))
      (.obj [("role", .str "user"), ("content", .arr (init ++ [withCacheControl (.obj named)]))]) := by
  generalize after_eq : base ++ _ = after
  have kept : Kept (within P (view base)) (within P (view after)) :=
    kept_within_grown (after_eq ▸ List.prefix_append _ _)
  have found (k : Nat) : within P (view after) (base.length + k) = view after (base.length + k) :=
    if_pos (new _ (Nat.le_add_right _ _))
  have block : Denotes (within P (view after)) (.ref (base.length + 1))
      (withCacheControl (.obj named)) := by
    refine .record ((found 1).trans ?_)
      (withField_denotes (denotes.fields.imp fun _ _ same => ⟨same.1, same.2.kept kept⟩)
        "cache_control" (cached.kept kept))
    simp [← after_eq, view]
  have blocks : Denotes (within P (view after)) (.ref base.length)
      (.arr (init ++ [withCacheControl (.obj named)])) := by
    refine .array ((found 0).trans ?_)
      (List.rel_append (others.imp fun _ _ item => item.kept kept) (.cons block .nil))
    simp [← after_eq, view]
  have turn : within P (view after) (base.length + 2) =
      some (.record [("role", .str "user"), ("content", .ref base.length)]) := by
    rw [found 2]
    simp [← after_eq, view]
  exact .record turn (.cons ⟨rfl, .str "user"⟩ (.cons ⟨rfl, blocks⟩ .nil))

theorem markTail_spec {base : Heap} {items : List Value} {content : UserContent}
    (new : SeesNew P base) (cached : Denotes (within P (view base)) cache cacheControl)
    (all : List.Forall₂ (Denotes (within P (view base))) items content.toBlocks) :
    ∃ after turn, markTail (base ++ [.array items]) (.ref base.length) = some (after, turn) ∧
      base <+: after ∧ Marks P after (.user content) turn := by
  have listed : items? (view (base ++ [.array items])) (.ref base.length) = some items := by
    simp [items?, object?, view]
  have grown : base <+: base ++ [.array items] := List.prefix_append _ _
  simp only [markTail, listed, Option.bind_eq_bind, Option.bind_some]
  rcases List.eq_nil_or_concat content.toBlocks with empty | ⟨init, last, ends⟩
  · rw [empty] at all
    cases all
    refine ⟨_, none, rfl, grown, ?_⟩
    simp [Marks, AnthropicMessage.canBreak, empty]
  · rw [List.concat_eq_append] at ends
    rw [ends] at all
    obtain ⟨front, tail, rfl, others, denotes⟩ := Paired.snoc all
    have breaks : AnthropicMessage.canBreak (.user content) = isCacheable last := by
      simp [AnthropicMessage.canBreak, ends]
    have type : get (view (base ++ [.array (front ++ [tail])])) tail "type" =
        get (within P (view base)) tail "type" :=
      denotes.get_eq ((kept_within P _).trans (kept_of_grown grown)) "type"
    simp only [List.getLast?_append, List.getLast?_singleton, Option.some_or, Option.getD_some, type]
    cases cacheable : isCacheable last with
    | false =>
      have skipped := mt (isCacheable_iff denotes).mpr (by simp [cacheable])
      rw [if_pos (not_or.mp skipped)]
      exact ⟨_, none, rfl, grown, breaks.trans cacheable⟩
    | true =>
      have marked := (isCacheable_iff denotes).mp cacheable
      rw [if_neg fun skipped => not_or.mpr skipped marked]
      obtain ⟨named, rfl⟩ : ∃ named, last = .obj named := by
        cases last with
        | obj named => exact ⟨named, rfl⟩
        | _ => cases cacheable
      have own : fields (view (base ++ [.array (front ++ [tail])])) tail =
          fields (within P (view base)) tail := by
        simp only [fields, denotes.object?_eq ((kept_within P _).trans (kept_of_grown grown))]
      rw [own]
      let after := base ++ [.array (front ++ [.ref (base.length + 1)]),
        .record (withField "cache_control" cache (fields (within P (view base)) tail)),
        .record [("role", .str "user"), ("content", .ref base.length)]]
      refine ⟨after, some (.ref (base.length + 2)), ?_, List.prefix_append _ _,
        breaks.trans cacheable, ?_⟩
      · simp [after, make, assign, items?, object?, view]
      · rw [AnthropicMessage.mark, AnthropicMessage.object, UserContent.object, ends,
          List.modifyLast_concat]
        exact denotes_markedTurn new cached others denotes

theorem markMessage_spec {item : Value} {message : AnthropicMessage} (new : SeesNew P heap)
    (cached : Denotes (within P (view heap)) cache cacheControl)
    (denotes : Denotes (within P (view heap)) item message.object) :
    ∃ after turn, markMessage heap item = some (after, turn) ∧ heap <+: after ∧
      Marks P after message turn := by
  have seen (key : String) : get (view heap) item key = get (within P (view heap)) item key :=
    denotes.get_eq (kept_within P _) key
  unfold markMessage
  simp only [seen]
  cases message with
  | assistant content =>
    have role : get (within P (view heap)) item "role" = .str "assistant" :=
      (denotes.get (by simp [AnthropicMessage.object, Json.get?])).str_inv
    rw [if_pos (by simp [role])]
    exact ⟨heap, none, rfl, List.prefix_rfl, rfl⟩
  | user content =>
    have role : get (within P (view heap)) item "role" = .str "user" :=
      (denotes.get (by simp [AnthropicMessage.object, Json.get?])).str_inv
    have held : Denotes (within P (view heap)) (get (within P (view heap)) item "content")
        content.object := denotes.get (by simp [AnthropicMessage.object, Json.get?])
    obtain ⟨base, items, copied, grown, all⟩ := copyBlocks_spec new held
    obtain ⟨after, turn, done, further, marks⟩ :=
      markTail_spec (new.grown grown) (cached.kept (kept_within_grown grown)) all
    rw [if_neg (by simp [role])]
    simp only [copied, Option.bind_eq_bind, Option.bind_some]
    exact ⟨after, turn, done, grown.trans further, marks⟩

end

/-! The loop -/

section
variable {P : Nat → Prop} [DecidablePred P]

/-- One message: the loop goes on before it, with its turn in its place. -/
theorem markStep {heap : Heap} {marked : Nat} {front done : List Value} {item : Value}
    {message : AnthropicMessage} (unseen : ¬ P marked) (new : SeesNew P heap)
    (cached : Denotes (within P (view heap)) cache cacheControl)
    (listed : items? (view heap) (.ref marked) = some (front ++ item :: done))
    (denotes : Denotes (within P (view heap)) item message.object) (remaining : Nat)
    (messages : List AnthropicMessage) :
    ∃ next value left changed,
      markFrom (.ref marked) (front.length + 1) (remaining + 1) heap =
        markFrom (.ref marked) front.length left next ∧
      Kept (within (· ≠ marked) (view heap)) (within (· ≠ marked) (view next)) ∧ SeesNew P next ∧
      items? (view next) (.ref marked) = some (front ++ value :: done) ∧
      Trailing.update AnthropicMessage.canBreak AnthropicMessage.mark (remaining + 1)
          (messages ++ [message]) =
        Trailing.update AnthropicMessage.canBreak AnthropicMessage.mark left messages ++ [changed] ∧
      Denotes (within P (view next)) value changed.object := by
  obtain ⟨after, turn, result, grown, marks⟩ := markMessage_spec new cached denotes
  have kept : Kept (within P (view heap)) (within P (view after)) := kept_within_grown grown
  have listed_after := (kept_of_grown grown).items listed
  have here : (front ++ item :: done)[front.length]? = some item := by simp
  rw [markFrom, if_neg (Nat.succ_ne_zero remaining)]
  simp only [listed, here, result, Option.bind_eq_bind, Option.bind_some]
  cases turn with
  | none =>
    exact ⟨after, item, remaining + 1, message, rfl, kept_within_grown grown, new.grown grown, listed_after,
      Trailing.update_snoc_skipped _ marks _ _, denotes.kept kept⟩
  | some turn =>
    have placed : (front ++ item :: done).set front.length turn = front ++ turn :: done := by simp
    let next := after.set marked (.array (front ++ turn :: done))
    have same : within P (view next) = within P (view after) := within_set unseen after _
    refine ⟨next, turn, remaining, message.mark, ?_, ?_, ?_, items?_set listed_after _,
      Trailing.update_snoc_passed _ marks.1 _ _, ?_⟩
    · simp only [assign_eq listed_after, placed, Option.bind_some, Nat.add_sub_cancel]
      rfl
    · rw [within_set fun apart => apart rfl]
      exact kept_within_grown grown
    · intro address beyond
      rw [List.length_set] at beyond
      exact new.grown grown address beyond
    · rw [same]
      exact marks.2

/-- The messages from the last one down to the first: what is behind them is done already, and the
array is out of sight of the turns. -/
theorem markFrom_spec {heap : Heap} {marked : Nat} {items done : List Value}
    {messages : List AnthropicMessage} (remaining : Nat) (unseen : ¬ P marked)
    (new : SeesNew P heap) (cached : Denotes (within P (view heap)) cache cacheControl)
    (listed : items? (view heap) (.ref marked) = some (items ++ done))
    (all : List.Forall₂ (Denotes (within P (view heap))) items
      (messages.map AnthropicMessage.object)) :
    ∃ after values, markFrom (.ref marked) items.length remaining heap = some after ∧
      Kept (within (· ≠ marked) (view heap)) (within (· ≠ marked) (view after)) ∧
      items? (view after) (.ref marked) = some (values ++ done) ∧
      List.Forall₂ (Denotes (within P (view after))) values
        ((Trailing.update AnthropicMessage.canBreak AnthropicMessage.mark remaining messages).map
          AnthropicMessage.object) := by
  induction messages using List.reverseRecOn generalizing heap items done remaining with
  | nil =>
    cases all
    exact ⟨heap, [], rfl, .refl _, listed, .nil⟩
  | append_singleton messages message ih =>
    rw [List.map_append] at all
    obtain ⟨front, item, rfl, others, denotes⟩ := Paired.snoc all
    rw [List.append_assoc, List.singleton_append] at listed
    rw [List.length_append, List.length_singleton, markFrom]
    cases remaining with
    | zero =>
      refine ⟨heap, front ++ [item], rfl, .refl _, ?_, ?_⟩
      · rwa [List.append_assoc]
      · rwa [Trailing.update_zero, List.map_append]
    | succ remaining =>
      obtain ⟨next, value, left, changed, stepped, frame, fresh, listed_next, same, denotes_next⟩ :=
        markStep unseen new cached listed denotes remaining messages
      have apart : ∀ address, P address → address ≠ marked :=
        fun address seen here => unseen (here ▸ seen)
      have kept : Kept (within P (view heap)) (within P (view next)) := frame.narrow apart
      obtain ⟨final, values, looped, later, result, all⟩ := ih left fresh (cached.kept kept)
        listed_next (others.imp fun _ _ other => other.kept kept)
      refine ⟨final, values ++ [value], stepped.trans looped, frame.trans later, ?_, ?_⟩
      · rwa [List.append_assoc]
      · rw [same, List.map_append]
        exact List.rel_append all (.cons (denotes_next.kept (later.narrow apart)) .nil)

/-- The marked copy is an array of its own, over turns that are new or were there before. -/
theorem withTranscriptCache_spec {heap : Heap} {value : Value} {messages : List AnthropicMessage}
    (new : SeesNew P heap) (cached : Denotes (within P (view heap)) cache cacheControl)
    (denotes : Denotes (within P (view heap)) value (.arr (messages.map AnthropicMessage.object))) :
    ∃ after sent, withTranscriptCache heap value = some (after, sent) ∧ heap <+: after ∧
      Denotes (within P (view after)) sent
        (.arr ((Trailing.update AnthropicMessage.canBreak AnthropicMessage.mark transcriptBreakpoints
          messages).map AnthropicMessage.object)) := by
  obtain ⟨items, found, all⟩ := denotes.items
  have listed := (kept_within P _).items found
  let marked := heap.length
  let Q : Nat → Prop := fun address => P address ∧ address ≠ marked
  have apart : Kept (view heap) (within (· ≠ marked) (view (make (.array items) heap).1)) :=
    kept_apart (kept_of_grown (List.prefix_append _ _))
  have kept : Kept (within P (view heap)) (within Q (view (make (.array items) heap).1)) :=
    (kept_make _ heap).both ((kept_within P _).trans apart)
  have fresh : SeesNew Q (make (.array items) heap).1 := by
    intro address beyond
    rw [make, List.length_append, List.length_singleton] at beyond
    exact ⟨new address (by omega), by omega⟩
  have copied : items? (view (make (.array items) heap).1) (.ref marked) = some (items ++ []) := by
    simp [items?, object?, view, make, marked]
  obtain ⟨after, values, looped, frame, result, marks⟩ := markFrom_spec transcriptBreakpoints
    (fun seen => seen.2 rfl) fresh (cached.kept kept) copied (all.imp fun _ _ item => item.kept kept)
  rw [List.append_nil] at result
  have unchanged : Kept (view heap) (view after) := (apart.trans frame).trans (kept_within _ _)
  have array : within P (view after) marked = some (.array values) := by
    rw [within, if_pos (new marked (Nat.le_refl _))]
    exact items?_ref.mp result
  refine ⟨after, .ref marked, ?_, prefix_of_kept unchanged,
    .array array (marks.imp fun _ _ turn => turn.kept ((Kept.refl _).within fun _ seen => seen.1))⟩
  simp only [withTranscriptCache, listed, Option.bind_eq_bind, Option.bind_some]
  exact congrArg (Option.bind · _) looped

theorem requestMessages_spec {heap : Heap} {transcript : Value} {items : List Value}
    {messages : List ProviderMessage} (new : SeesNew P heap)
    (cached : Denotes (within P (view heap)) cache cacheControl)
    (listed : items? (view heap) transcript = some items)
    (all : List.Forall₂ (Denotes (within P (view heap))) items (messages.map messageObject)) :
    ∃ after sent, requestMessages heap transcript = some (after, sent) ∧ heap <+: after ∧
      Denotes (within P (view after)) sent
        (.arr ((sentMessages messages).map AnthropicMessage.object)) := by
  obtain ⟨middle, converted, mapped, grown, denotes⟩ := toAnthropicMessages_spec new listed all
  have rendering : messages.map (fun message => (rendered message).object) =
      (messages.map rendered).map AnthropicMessage.object := by
    rw [List.map_map]
    rfl
  rw [rendering] at denotes
  obtain ⟨after, sent, marked, further, result⟩ := withTranscriptCache_spec (new.grown grown)
    (cached.kept (kept_within_grown grown)) denotes
  refine ⟨after, sent, ?_, grown.trans further, result⟩
  simp only [requestMessages, mapped, marked, Option.bind_eq_bind, Option.bind_some]

end

/-- Once the module is loaded, the mark can be read. -/
theorem denotes_cache {heap : Heap} (loaded : moduleObjects <+: heap) :
    Denotes (view heap) cache cacheControl := by
  have found : view heap 0 = some (.record [("type", .str "ephemeral"), ("ttl", .str cacheTtl)]) :=
    kept_of_grown loaded 0 _ rfl
  exact .record found (.cons ⟨rfl, .str "ephemeral"⟩ (.cons ⟨rfl, .str cacheTtl⟩ .nil))

end Gomer.Ai.Anthropic
