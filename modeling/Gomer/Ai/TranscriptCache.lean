import Gomer.Ai.Anthropic
import Gomer.Ai.Transcript

/-! Cache marks on a transcript: where they are, what they leave alone, and what one request of a
run has of the requests before it. -/
namespace Gomer.Ai.Anthropic

open JsHeap

/-! Where the marks are -/

def uncached : Json → Json
  | .obj fields => .obj (fields.filter (·.1 != "cache_control"))
  | block => block

/-- A message without its marks. -/
def AnthropicMessage.bare : AnthropicMessage → AnthropicMessage
  | .user content => .user (.blocks (content.toBlocks.map uncached))
  | .assistant content => .assistant content

/-- A user turn that ends in a text or a tool result, with fewer than two of them after it. -/
def breakpointAt (messages : List ProviderMessage) (i : Nat) : Bool :=
  (messages[i]?.any fun message => (rendered message).canBreak) &&
    decide ((messages.drop (i + 1)).countP (fun message => (rendered message).canBreak) < 2)

structure CacheMarks (messages : List ProviderMessage) (sent : List AnthropicMessage) : Prop where
  bare : sent.map AnthropicMessage.bare = messages.map fun message => (rendered message).bare
  replayed : ∀ (i : Nat) content toolCalls raw,
    messages[i]? = some (.assistant content toolCalls raw) →
    sent[i]? = some (.assistant (replayed content raw))
  unmarked : ∀ (i : Nat) message, messages[i]? = some message → breakpointAt messages i = false →
    sent[i]? = some (rendered message)
  marked : ∀ (i j : Nat) content block, sent[i]? = some (.user content) →
    content.toBlocks[j]? = some block →
    block.get? "cache_control" =
      if breakpointAt messages i = true ∧ j + 1 = content.toBlocks.length then some cacheControl
      else none

/-- A tool turn without results is passed over. -/
example : breakpointAt [.user "Hi", .user "Pause it.", .tool []] 0 = true := by decide

theorem sentMessages_get (messages : List ProviderMessage) (i : Nat) :
    (sentMessages messages)[i]? = messages[i]?.map fun message =>
      if breakpointAt messages i then (rendered message).mark else rendered message := by
  rw [sentMessages, Trailing.getElem?_update, List.getElem?_map, Option.map_map]
  cases found : messages[i]? with
  | none => rfl
  | some message =>
    simp only [Option.map_some, breakpointAt, found, Option.any_some,
      ← List.map_drop, List.countP_map, transcriptBreakpoints, Function.comp_def]

@[simp] theorem toBlocks_blocks (items : List Json) : UserContent.toBlocks (.blocks items) = items := rfl

/-- A turn that can be marked ends in a block, and only that block is written over. -/
theorem mark_ends {content : UserContent}
    (breaks : AnthropicMessage.canBreak (.user content) = true) :
    ∃ init named, content.toBlocks = init ++ [.obj named] ∧
      AnthropicMessage.mark (.user content) =
        .user (.blocks (init ++ [.obj (withField "cache_control" cacheControl named)])) := by
  rcases List.eq_nil_or_concat content.toBlocks with empty | ⟨init, last, ends⟩
  · simp [AnthropicMessage.canBreak, empty] at breaks
  · rw [List.concat_eq_append] at ends
    have cacheable : isCacheable last = true := by
      simpa [AnthropicMessage.canBreak, ends] using breaks
    cases last with
    | obj named =>
      refine ⟨init, named, ends, ?_⟩
      rw [AnthropicMessage.mark, ends, List.modifyLast_concat, withCacheControl]
    | _ => cases cacheable

theorem bare_mark (message : AnthropicMessage) (breaks : message.canBreak = true) :
    message.mark.bare = message.bare := by
  cases message with
  | assistant content => rfl
  | user content =>
    obtain ⟨init, named, ends, same⟩ := mark_ends breaks
    simp only [same, AnthropicMessage.bare, toBlocks_blocks, ends, List.map_append, List.map_cons,
      uncached, filter_withField]

/-- Nothing is marked when it is rendered. -/
theorem rendered_unmarked {message : ProviderMessage} {content : UserContent} {block : Json}
    (user : rendered message = .user content) (member : block ∈ content.toBlocks) :
    block.get? "cache_control" = none := by
  cases message with
  | user text =>
    cases user
    rw [List.mem_singleton.mp member]
    simp [textBlock, Json.get?]
  | assistant text toolCalls raw => cases user
  | tool results =>
    cases user
    obtain ⟨result, _, rfl⟩ := List.mem_map.mp member
    cases flag : result.isError <;> simp [resultBlock, Json.get?, flag]

theorem breaks_of_breakpointAt {messages : List ProviderMessage} {i : Nat} {message : ProviderMessage}
    (found : messages[i]? = some message) (last : breakpointAt messages i = true) :
    (rendered message).canBreak = true := by
  have both := Bool.and_eq_true_iff.mp last
  simpa [found] using both.1

theorem sentMessages_marks (messages : List ProviderMessage) :
    CacheMarks messages (sentMessages messages) where
  bare := by
    rw [sentMessages, Trailing.map_update _ _ bare_mark, List.map_map]
    rfl
  replayed := by
    intro i content toolCalls raw found
    rw [sentMessages_get, found]
    cases last : breakpointAt messages i with
    | true => cases breaks_of_breakpointAt found last
    | false => simp [rendered]
  unmarked := by
    intro i message found unmarked
    simp [sentMessages_get, found, unmarked]
  marked := by
    intro i j content block sent here
    rw [sentMessages_get] at sent
    obtain ⟨message, found, same⟩ := Option.map_eq_some_iff.mp sent
    cases last : breakpointAt messages i with
    | false =>
      rw [last, if_neg Bool.false_ne_true] at same
      rw [if_neg fun both => Bool.false_ne_true both.1]
      exact rendered_unmarked same (List.mem_of_getElem? here)
    | true =>
      have breaks := breaks_of_breakpointAt found last
      rw [last, if_pos rfl] at same
      cases shown : rendered message with
      | assistant raw =>
        rw [shown] at breaks
        cases breaks
      | user original =>
        rw [shown] at breaks same
        obtain ⟨init, named, ends, written⟩ := mark_ends breaks
        cases written.symm.trans same
        rw [toBlocks_blocks] at here ⊢
        rw [List.length_append, List.length_singleton]
        by_cases early : j < init.length
        · rw [List.getElem?_append_left early] at here
          have member : block ∈ original.toBlocks := by
            rw [ends]
            exact List.mem_append_left _ (List.mem_of_getElem? here)
          rw [if_neg (by omega), rendered_unmarked shown member]
        · have inside := (List.getElem?_eq_some_iff.mp here).choose
          rw [List.length_append, List.length_singleton] at inside
          obtain rfl : j = init.length := by omega
          rw [List.getElem?_concat_length] at here
          cases here
          simp only [Json.get?, find_withField, Option.map_some, and_self, if_true]

/-! The transcript of a run, in one array -/

/-- `messages.push(message)`, all of the message new. -/
def pushTurn (transcript : Value) (heap : Heap) (message : ProviderMessage) : Option Heap :=
  let (heap, turn) := store heap (messageObject message)
  push heap transcript turn

/-- The requests of a run, each of them over the turns pushed until then; `held` are the turns
that the array has. -/
def sendAll (transcript : Value) :
    Heap → List ProviderMessage → List ProviderRequest → Option (Heap × List Value)
  | heap, _, [] => some (heap, [])
  | heap, held, request :: rest => do
    let heap ← (request.messages.drop held.length).foldlM (pushTurn transcript) heap
    let (heap, sent) ← requestMessages heap transcript
    let (heap, later) ← sendAll transcript heap request.messages rest
    some (heap, sent :: later)

def runRequests (heap : Heap) (requests : List ProviderRequest) : Option (Heap × List Value) :=
  let (heap, transcript) := make (.array []) heap
  sendAll transcript heap [] requests

/-- Between two uses of the array: its turns do not reach it. -/
structure Transcript (array : Nat) (heap : Heap) (messages : List ProviderMessage) : Prop where
  new : SeesNew (· ≠ array) heap
  cached : Denotes (within (· ≠ array) (view heap)) cache cacheControl
  held : ∃ items, items? (view heap) (.ref array) = some items ∧
    List.Forall₂ (Denotes (within (· ≠ array) (view heap))) items (messages.map messageObject)

section
variable {array : Nat} {heap : Heap} {messages : List ProviderMessage}

theorem Transcript.holds (transcript : Transcript array heap messages) :
    Holds heap (.ref array) messages := by
  obtain ⟨items, listed, all⟩ := transcript.held
  exact .array (items?_ref.mp listed) (all.imp fun _ _ item => item.kept (kept_within _ _))

theorem Transcript.push (transcript : Transcript array heap messages) (message : ProviderMessage) :
    ∃ after, pushTurn (.ref array) heap message = some after ∧
      Kept (within (· ≠ array) (view heap)) (within (· ≠ array) (view after)) ∧
      Transcript array after (messages ++ [message]) := by
  obtain ⟨items, listed, all⟩ := transcript.held
  obtain ⟨grown, denotes⟩ := store_spec heap transcript.new (messageObject message)
  have listed_after := (kept_of_grown grown).items listed
  let stored := store heap (messageObject message)
  have kept : Kept (within (· ≠ array) (view heap)) (within (· ≠ array) (view stored.1)) :=
    kept_within_grown grown
  let after := stored.1.set array (.array (items ++ [stored.2]))
  have same : within (· ≠ array) (view after) = within (· ≠ array) (view stored.1) :=
    within_set (fun apart => apart rfl) _ _
  refine ⟨after, push_eq listed_after _, same ▸ kept, ?_, ?_, items ++ [stored.2],
    items?_set listed_after _, ?_⟩
  · intro address beyond
    rw [List.length_set] at beyond
    exact transcript.new.grown grown address beyond
  · rw [same]
    exact transcript.cached.kept kept
  · rw [same, List.map_append]
    exact List.rel_append (all.imp fun _ _ item => item.kept kept) (.cons denotes .nil)

theorem Transcript.pushAll (transcript : Transcript array heap messages)
    (added : List ProviderMessage) :
    ∃ after, added.foldlM (pushTurn (.ref array)) heap = some after ∧
      Kept (within (· ≠ array) (view heap)) (within (· ≠ array) (view after)) ∧
      Transcript array after (messages ++ added) := by
  induction added generalizing heap messages with
  | nil => exact ⟨heap, rfl, .refl _, (List.append_nil messages).symm ▸ transcript⟩
  | cons message rest ih =>
    obtain ⟨middle, pushed, kept, longer⟩ := transcript.push message
    obtain ⟨after, others, further, whole⟩ := ih longer
    rw [List.append_assoc, List.singleton_append] at whole
    refine ⟨after, ?_, kept.trans further, whole⟩
    rw [List.foldlM_cons, pushed]
    exact others

theorem Transcript.request (transcript : Transcript array heap messages) :
    ∃ after sent, requestMessages heap (.ref array) = some (after, sent) ∧ heap <+: after ∧
      Transcript array after messages ∧
      Denotes (within (· ≠ array) (view after)) sent
        (.arr ((sentMessages messages).map AnthropicMessage.object)) := by
  obtain ⟨items, listed, all⟩ := transcript.held
  obtain ⟨after, sent, requested, grown, denotes⟩ :=
    requestMessages_spec transcript.new transcript.cached listed all
  have kept : Kept (within (· ≠ array) (view heap)) (within (· ≠ array) (view after)) :=
    kept_within_grown grown
  exact ⟨after, sent, requested, grown, ⟨transcript.new.grown grown, transcript.cached.kept kept,
    items, (kept_of_grown grown).items listed, all.imp fun _ _ item => item.kept kept⟩, denotes⟩

end

/-! Requests of one run -/

/-- A later request of a run: the same turns and more of them, the same connectors or none. -/
structure Repeats (earlier later : ProviderRequest) : Prop where
  transcript : earlier.messages <+: later.messages
  settings : later.model = earlier.model ∧ later.system = earlier.system ∧
    later.adaptiveThinking = earlier.adaptiveThinking
  connectors : later.tools = earlier.tools ∧ later.mcpServers = earlier.mcpServers ∨
    later.mcpServers = [] ∧ earlier.mcpServers ≠ []

theorem Repeats.refl (request : ProviderRequest) : Repeats request request :=
  ⟨List.prefix_rfl, ⟨rfl, rfl, rfl⟩, .inl ⟨rfl, rfl⟩⟩

theorem Repeats.trans {first second third : ProviderRequest} (before : Repeats first second)
    (after : Repeats second third) : Repeats first third where
  transcript := before.transcript.trans after.transcript
  settings := ⟨after.settings.1.trans before.settings.1,
    after.settings.2.1.trans before.settings.2.1, after.settings.2.2.trans before.settings.2.2⟩
  connectors := by
    rcases after.connectors with ⟨tools, servers⟩ | ⟨dropped, connected⟩
    · rw [tools, servers]
      exact before.connectors
    · refine .inr ⟨dropped, ?_⟩
      rcases before.connectors with ⟨_, servers⟩ | ⟨without, _⟩
      · rwa [← servers]
      · exact absurd without connected

/-- The requests sent so far, and the one that would be sent now. -/
def Sending (requests : List ProviderRequest) (now : ProviderRequest) : Prop :=
  requests.Pairwise Repeats ∧ ∀ request ∈ requests, Repeats request now

theorem Sending.next {requests : List ProviderRequest} {now later : ProviderRequest}
    (sending : Sending requests now) (repeats : Repeats now later) : Sending requests later :=
  ⟨sending.1, fun request sent => (sending.2 request sent).trans repeats⟩

theorem Sending.sent {requests : List ProviderRequest} {now : ProviderRequest}
    (sending : Sending requests now) : Sending (requests ++ [now]) now := by
  constructor
  · refine List.pairwise_append.mpr ⟨sending.1, List.pairwise_singleton _ _, fun request sent last => ?_⟩
    intro same
    rw [List.mem_singleton.mp same]
    exact sending.2 request sent
  · intro request sent
    rcases List.mem_append.mp sent with sent | same
    · exact sending.2 request sent
    · rw [List.mem_singleton.mp same]
      exact .refl now

section
variable {ctx : RunContext} {world : TurnWorld} {s t : RunState}

/-- Connectors are dropped only where there are some. -/
theorem repeats_dropConnectors (connected : s.mcpServers ≠ []) :
    Repeats (requestOf ctx s) (requestOf ctx (dropConnectors ctx s)) :=
  ⟨List.prefix_rfl, ⟨rfl, rfl, rfl⟩, .inr ⟨rfl, connected⟩⟩

theorem Sending.asked {outcome : Except ProviderError ProviderResponse}
    (sending : Sending (sentRequests s.log) (requestOf ctx s)) (asked : Asked ctx world s (t, outcome)) :
    Sending (sentRequests t.log) (requestOf ctx t) := by
  have connected {e : ProviderError} (dropped : (s.mcpServers.isEmpty || !e.isMcpConnection) = false) :
      s.mcpServers ≠ [] := by
    intro none
    simp [none] at dropped
  cases asked with
  | answered _ =>
    rw [RunState.note, sentRequests_append]
    exact sending.sent
  | failed _ _ =>
    rw [RunState.note, sentRequests_append]
    exact sending.sent
  | retried _ dropped _ =>
    have again := (sending.sent.next (repeats_dropConnectors (connected dropped))).sent
    rw [List.append_assoc] at again
    rw [RunState.note, sentRequests_append]
    exact again
  | gaveUp _ dropped _ =>
    have again := (sending.sent.next (repeats_dropConnectors (connected dropped))).sent
    rw [List.append_assoc] at again
    rw [RunState.note, sentRequests_append]
    exact again

/-- A turn only adds to the transcript, and sends nothing. -/
theorem Sending.continued {response : ProviderResponse} {more : Bool} {u : RunState}
    (sending : Sending (sentRequests t.log) (requestOf ctx t))
    (continued : Continued ctx (receive t response) response (more, u)) :
    Sending (sentRequests u.log) (requestOf ctx u) := by
  have said (added : List ProviderMessage) (v : RunState) (log : sentRequests v.log = sentRequests t.log)
      (messages : v.messages = t.messages ++ added) (tools : v.tools = t.tools)
      (servers : v.mcpServers = t.mcpServers) : Sending (sentRequests v.log) (requestOf ctx v) := by
    rw [log]
    refine sending.next ⟨?_, ⟨rfl, rfl, rfl⟩, .inl ⟨tools, servers⟩⟩
    change t.messages <+: v.messages
    rw [messages]
    exact List.prefix_append _ _
  cases continued with
  | executed stop calls ran ids =>
    refine said _ _ ?_ rfl rfl rfl
    rw [sentRequests_append, ran.quiet.1, List.append_nil]
    rfl
  | askedForLess => exact said _ _ rfl rfl rfl rfl
  | gaveUp => exact sending
  | paused => exact said _ _ rfl rfl rfl rfl
  | answered => exact sending

theorem loop_sending (ctx : RunContext) (n : Nat) (worlds : Nat → TurnWorld) (s : RunState)
    (start : Sending (sentRequests s.log) (requestOf ctx s)) :
    (sentRequests (loop ctx n worlds s).1.log).Pairwise Repeats := by
  refine loop_rule ctx (I := fun _ _ s => Sending (sentRequests s.log) (requestOf ctx s))
    (Q := fun s _ => (sentRequests s.log).Pairwise Repeats) (fun _ _ sending => sending.1) ?_ ?_ ?_ start
  · intro n worlds s t e sending asked
    exact (sending.asked asked).1
  · intro n worlds s t response u sending asked continued
    exact (sending.asked asked).continued continued
  · intro n worlds s t response u sending asked continued
    exact ((sending.asked asked).continued continued).1

end

theorem run_repeats (prepared : Prepared) (worlds : Nat → TurnWorld) :
    (sentRequests (run prepared worlds).log).Pairwise Repeats := by
  refine run_log_rule (Q := fun log => (sentRequests log).Pairwise Repeats) .nil ?_ ?_ prepared
  · intro ctx
    exact loop_sending ctx maxIterations worlds (startRun ctx) ⟨.nil, fun _ sent => nomatch sent⟩
  · intro log usage repeats
    rw [sentRequests_snoc rfl]
    exact repeats

/-! The requests of a run, as they are sent -/

theorem sendAll_spec {array : Nat} {heap : Heap} {held : List ProviderMessage}
    {requests : List ProviderRequest} (transcript : Transcript array heap held)
    (longer : ∀ request ∈ requests, held <+: request.messages)
    (repeats : requests.Pairwise Repeats) :
    ∃ after sent, sendAll (.ref array) heap held requests = some (after, sent) ∧
      Kept (within (· ≠ array) (view heap)) (within (· ≠ array) (view after)) ∧
      Transcript array after ((requests.getLast?.map (·.messages)).getD held) ∧
      List.Forall₂ (fun value request => Denotes (within (· ≠ array) (view after)) value
        (.arr ((sentMessages request.messages).map AnthropicMessage.object))) sent requests := by
  induction requests generalizing heap held with
  | nil => exact ⟨heap, [], rfl, .refl _, transcript, .nil⟩
  | cons request rest ih =>
    obtain ⟨added, same⟩ := longer request List.mem_cons_self
    have drop : request.messages.drop held.length = added := by
      rw [← same, List.drop_left]
    obtain ⟨grown, pushed, before, whole⟩ := transcript.pushAll added
    rw [same] at whole
    obtain ⟨answered, value, requested, more, still, denotes⟩ := whole.request
    obtain ⟨after, later, others, further, final, all⟩ := ih still
      (fun next sent => (List.rel_of_pairwise_cons repeats sent).transcript)
      (List.Pairwise.of_cons repeats)
    refine ⟨after, value :: later, ?_, (before.trans (kept_within_grown more)).trans further, ?_,
      .cons (denotes.kept further) all⟩
    · simp only [sendAll, drop, pushed, requested, others, Option.bind_eq_bind, Option.bind_some]
    · cases rest with
      | nil => exact final
      | cons next rest => simpa only [List.getLast?_cons_cons, List.getLast?_cons, Option.map_some,
        Option.getD_some] using final

theorem transcript_start {heap : Heap} (loaded : moduleObjects <+: heap) :
    Transcript heap.length (make (.array []) heap).1 [] where
  new := by
    intro address beyond
    rw [make, List.length_append, List.length_singleton] at beyond
    omega
  cached := (denotes_cache loaded).kept (kept_apart (kept_of_grown (List.prefix_append _ _)))
  held := ⟨[], by simp [items?, object?, view, make], .nil⟩

/-- Each request carries its marks and nothing but them; the one after it repeats it and adds to
it. -/
structure Resent (requests : List ProviderRequest) (wires : List (List AnthropicMessage)) : Prop where
  marks : List.Forall₂ (fun request wire => CacheMarks request.messages wire) requests wires
  repeats : ∀ (i j : Nat) earlier later before after, i < j →
    requests[i]? = some earlier → requests[j]? = some later →
    wires[i]? = some before → wires[j]? = some after →
    Repeats earlier later ∧ ∃ appended, later.messages = earlier.messages ++ appended ∧
      after.map AnthropicMessage.bare = before.map AnthropicMessage.bare ++
        appended.map fun message => (rendered message).bare

theorem resent_of_repeats {requests : List ProviderRequest} (repeats : requests.Pairwise Repeats) :
    Resent requests (requests.map fun request => sentMessages request.messages) where
  marks := by
    rw [List.forall₂_map_right_iff, List.forall₂_same]
    exact fun request _ => sentMessages_marks request.messages
  repeats := by
    intro i j earlier later before after order first second sent again
    rw [List.getElem?_map, first] at sent
    rw [List.getElem?_map, second] at again
    cases sent
    cases again
    obtain ⟨inside, found⟩ := List.getElem?_eq_some_iff.mp first
    obtain ⟨beyond, next⟩ := List.getElem?_eq_some_iff.mp second
    have related := List.pairwise_iff_getElem.mp repeats i j inside beyond order
    rw [found, next] at related
    obtain ⟨appended, same⟩ := related.transcript
    refine ⟨related, appended, same.symm, ?_⟩
    rw [(sentMessages_marks later.messages).bare, (sentMessages_marks earlier.messages).bare, ← same,
      List.map_append]

theorem transcriptCache_frame {heap : Heap} (loaded : moduleObjects <+: heap) :
    (∀ transcript messages, Holds heap transcript messages → ∃ after sent wire,
      requestMessages heap transcript = some (after, sent) ∧ heap <+: after ∧
      Denotes (view after) sent (.arr (wire.map AnthropicMessage.object)) ∧
      CacheMarks messages wire) ∧
    ∀ prepared worlds, ∃ after sent wires,
      runRequests heap (sentRequests (run prepared worlds).log) = some (after, sent) ∧
      heap <+: after ∧
      (∀ last ∈ (sentRequests (run prepared worlds).log).getLast?,
        Holds after (.ref heap.length) last.messages) ∧
      List.Forall₂ (fun value wire =>
        Denotes (view after) value (.arr (wire.map AnthropicMessage.object))) sent wires ∧
      Resent (sentRequests (run prepared worlds).log) wires := by
  constructor
  · intro transcript messages holds
    have everywhere := kept_everywhere (view heap)
    obtain ⟨items, listed, all⟩ := holds.items
    obtain ⟨after, sent, requested, grown, denotes⟩ := requestMessages_spec (fun _ _ => trivial)
      ((denotes_cache loaded).kept everywhere) listed (all.imp fun _ _ item => item.kept everywhere)
    exact ⟨after, sent, _, requested, grown, denotes.kept (kept_within _ _),
      sentMessages_marks messages⟩
  · intro prepared worlds
    have repeats := run_repeats prepared worlds
    generalize sentRequests (run prepared worlds).log = requests at repeats ⊢
    obtain ⟨after, sent, ran, frame, transcript, all⟩ := sendAll_spec
      (transcript_start loaded) (fun _ _ => List.nil_prefix) repeats
    refine ⟨after, sent, _, ran, ?_, ?_, ?_, resent_of_repeats repeats⟩
    · have apart : Kept (view heap) (within (· ≠ heap.length) (view (make (.array []) heap).1)) :=
        kept_apart (kept_of_grown (List.prefix_append _ _))
      exact prefix_of_kept ((apart.trans frame).trans (kept_within _ _))
    · intro last found
      rw [Option.mem_def.mp found] at transcript
      exact transcript.holds
    · rw [List.forall₂_map_right_iff]
      exact all.imp fun _ _ wire => wire.kept (kept_within _ _)

/-- A turn of thinking and one call, answered. -/
def askedToPause : List ProviderMessage :=
  [.user "Pause the summer campaign.",
    .assistant "" [pauseCampaign] (some (.arr
      [.obj [("type", .str "thinking"), ("signature", .str "c2ln")],
        .obj [("type", .str "tool_use"), ("id", .str "call_1")]])),
    .tool [⟨"call_1", "meta_ads_update_campaign", "done", false⟩]]

def askedHeap : Heap × Value := store moduleObjects (.arr (askedToPause.map messageObject))

theorem asked_frame :
    (∃ after sent wire, requestMessages askedHeap.1 askedHeap.2 = some (after, sent) ∧
      askedHeap.1 <+: after ∧
      Denotes (view after) sent (.arr (wire.map AnthropicMessage.object)) ∧
      CacheMarks askedToPause wire) ∧
    ∃ (after : Heap) (sent : List Value) (wires : List (List AnthropicMessage)),
      runRequests askedHeap.1
        (sentRequests (run (.ready (adManager .inline)) fun _ =>
          turn (.ok (reply "" [pauseCampaign] .toolUse))).log) = some (after, sent) ∧
      askedHeap.1 <+: after ∧
      List.Forall₂ (fun value wire =>
        Denotes (view after) value (.arr (wire.map AnthropicMessage.object))) sent wires := by
  obtain ⟨loaded, holds⟩ := store_spec (P := fun _ => True) moduleObjects (fun _ _ => trivial)
    (.arr (askedToPause.map messageObject))
  have frame := transcriptCache_frame loaded
  obtain ⟨after, sent, wires, ran, grown, _, denotes, _⟩ := frame.2 (.ready (adManager .inline))
    fun _ => turn (.ok (reply "" [pauseCampaign] .toolUse))
  exact ⟨frame.1 _ _ (holds.kept (kept_within _ _)), after, sent, wires, ran, grown, denotes⟩

end Gomer.Ai.Anthropic
