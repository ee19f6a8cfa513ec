import Gomer.Lib.JsonText
import Gomer.Lib.Refinement
import Gomer.System.Approvals

/-! The approvals as Redis has them: each record is the text that `JSON.stringify` makes of it, and
is read again by every call. -/
namespace Gomer.Approvals.Texts

open Trace

/-! A record and its text -/

section
variable (print : Uuid → String) (uuid : String → Option Uuid)

/-- `threadTs` is left out where it is undefined. -/
def recordJson (record : PendingApproval) : Json :=
  .obj ([("workspaceId", .str (print record.workspaceId)),
    ("requesterUserId", (record.requesterUserId.map fun id => Json.str (print id)).getD .null),
    ("requesterSlackId", .str record.requesterSlackId),
    ("requesterName", .str record.requesterName), ("teamId", .str record.teamId),
    ("channel", .str record.channel)] ++
    (record.threadTs.map fun threadTs => ("threadTs", Json.str threadTs)).toList ++
    [("messageTs", .str record.messageTs), ("toolName", .str record.toolName),
    ("input", record.input), ("label", .str record.label), ("answer", .str record.answer)])

def text (json : Json) : String := String.ofList json.stringify

def textAt (json : Json) (key : String) : Option String :=
  match json.get? key with
  | some (.str value) => some value
  | _ => none

/-- `string | null` -/
def userAt (json : Json) (key : String) : Option (Option Uuid) :=
  match json.get? key with
  | some .null => some none
  | some (.str value) => (uuid value).map some
  | _ => none

/-- `as PendingApproval`, which checks nothing; a value of another shape is not stored. -/
def castRecord (json : Json) : Option PendingApproval := do
  let workspaceId ← (textAt json "workspaceId").bind uuid
  let requesterUserId ← userAt uuid json "requesterUserId"
  let requesterSlackId ← textAt json "requesterSlackId"
  let requesterName ← textAt json "requesterName"
  let teamId ← textAt json "teamId"
  let channel ← textAt json "channel"
  let messageTs ← textAt json "messageTs"
  let toolName ← textAt json "toolName"
  let input ← json.get? "input"
  let label ← textAt json "label"
  let answer ← textAt json "answer"
  some ⟨workspaceId, requesterUserId, requesterSlackId, requesterName, teamId, channel,
    textAt json "threadTs", messageTs, toolName, input, label, answer⟩

/-- `record.messageTs = messageTs` -/
def setMessageTs (messageTs : String) : Json → Json
  | .obj fields => .obj (Json.setField fields ("messageTs", .str messageTs))
  | json => json

end

/-! The machine -/

inductive Patch where
  | waiting
  | read (record : Json)
  | finished

structure State where
  store : Option String
  patch : Patch
  phase : Nat → Phase
  deleted : List Nat
  executed : List (Nat × MetaAdsAction)
  sent : List SlackCall

section
variable (uuid : String → Option Uuid) (token messageTs : String) (clicks : Nat → Click)

def afterGet (s : State) (i : Nat) (actionId : String) (pending : PendingApproval) : State :=
  match resolve (clicks i) actionId pending with
  | .silent calls => { s with phase := Function.update s.phase i .finished, sent := calls ++ s.sent }
  | _ => { s with phase := Function.update s.phase i (.read pending) }

def afterDel (s : State) (i : Nat) (actionId : String) (pending : PendingApproval) : State :=
  match resolve (clicks i) actionId pending with
  | .cancel botToken =>
    { s with store := none, phase := Function.update s.phase i .finished, deleted := i :: s.deleted,
             sent := updateResolved botToken pending (cancelledFooter (clicks i)) :: s.sent }
  | .approve botToken =>
    { s with store := none, phase := Function.update s.phase i (.approved botToken pending),
             deleted := i :: s.deleted,
             sent := updateResolved botToken pending (approvedFooter (clicks i)) :: s.sent }
  | .silent _ => s

def step (s : State) : Act → Option State
  | .patchGet =>
    match s.patch, nonEmpty s.store with
    | .waiting, none => some { s with patch := .finished }
    | .waiting, some raw =>
      match Json.parse raw with
      | none => some { s with patch := .finished }
      | some record => some { s with patch := .read record }
    | _, _ => none
  | .patchSet =>
    match s.patch with
    | .read record =>
      some { s with store := some (text (setMessageTs messageTs record)), patch := .finished }
    | _ => none
  | .get i =>
    match s.phase i, actionOf token clicks i, nonEmpty s.store with
    | .waiting, some _, none =>
      some { s with phase := Function.update s.phase i .finished,
                    sent := (clicks i).respond "This approval has expired or was already handled." ++
                      s.sent }
    | .waiting, some actionId, some raw =>
      match (Json.parse raw).bind (castRecord uuid) with
      | none => some { s with phase := Function.update s.phase i .finished }
      | some pending => some (afterGet clicks s i actionId pending)
    | _, _, _ => none
  | .del i =>
    match s.phase i, actionOf token clicks i with
    | .read pending, some actionId => some (afterDel clicks s i actionId pending)
    | _, _ => none
  | .execute i result =>
    match s.phase i with
    | .approved botToken pending =>
      some { s with phase := Function.update s.phase i .finished,
                    executed := (i, pending.action) :: s.executed,
                    sent := postResult botToken pending result :: s.sent }
    | _ => none
  | .expire => some { s with store := none }

end

/-- The token as `storePending` leaves it. -/
def stored (print : Uuid → String) (record : PendingApproval) : State where
  store := some (text (recordJson print record))
  patch := .waiting
  phase := fun _ => .waiting
  deleted := []
  executed := []
  sent := []

/-! Records that are read back -/

section
variable {print : Uuid → String} {uuid : String → Option Uuid} {token messageTs : String}
  {clicks : Nat → Click} {record : PendingApproval} {s t : Approvals.State}

/-- The ids are printed as uuids, and the input is JSON. -/
structure Readable (print : Uuid → String) (uuid : String → Option Uuid) (record : PendingApproval) :
    Prop where
  workspace : uuid (print record.workspaceId) = some record.workspaceId
  requester : ∀ id, record.requesterUserId = some id → uuid (print id) = some id
  sound : record.input.Sound
  finite : record.input.Finite

theorem Readable.patched (readable : Readable print uuid record) (messageTs : String) :
    Readable print uuid { record with messageTs } :=
  ⟨readable.workspace, readable.requester, readable.sound, readable.finite⟩

theorem recordJson_sound (sound : record.input.Sound) : (recordJson print record).Sound := by
  obtain ⟨workspaceId, requester, slackId, name, team, channel, threadTs, ts, tool, input, label,
    answer⟩ := record
  cases requester <;> cases threadTs <;>
    simp [recordJson, Json.Sound, Json.SoundFields, sound]

theorem recordJson_finite (finite : record.input.Finite) : (recordJson print record).Finite := by
  obtain ⟨workspaceId, requester, slackId, name, team, channel, threadTs, ts, tool, input, label,
    answer⟩ := record
  cases requester <;> cases threadTs <;>
    simp [recordJson, Json.Finite, Json.FiniteFields, finite]

theorem parse_text (readable : Readable print uuid record) :
    Json.parse (text (recordJson print record)) = some (recordJson print record) := by
  rw [text, Json.parse_stringify_sound (recordJson_sound readable.sound),
    (Json.written_eq_iff _).mpr (recordJson_finite readable.finite)]

theorem castRecord_recordJson (readable : Readable print uuid record) :
    castRecord uuid (recordJson print record) = some record := by
  have workspace := readable.workspace
  have requester := readable.requester
  obtain ⟨workspaceId, requesterId, slackId, name, team, channel, threadTs, ts, tool, input, label,
    answer⟩ := record
  cases requesterId with
  | none => cases threadTs <;>
      simp [castRecord, recordJson, textAt, userAt, Json.get?, workspace]
  | some id => cases threadTs <;>
      simp [castRecord, recordJson, textAt, userAt, Json.get?, workspace, requester id rfl]

theorem setMessageTs_recordJson (messageTs : String) (record : PendingApproval) :
    setMessageTs messageTs (recordJson print record) = recordJson print { record with messageTs } := by
  obtain ⟨workspaceId, requester, slackId, name, team, channel, threadTs, ts, tool, input, label,
    answer⟩ := record
  cases threadTs <;> simp [setMessageTs, recordJson, Json.setField]

theorem nonEmpty_text (readable : Readable print uuid record) :
    nonEmpty (some (text (recordJson print record))) = some (text (recordJson print record)) := by
  refine Option.filter_eq_some_iff.mpr ⟨rfl, ?_⟩
  have parsed := parse_text readable
  rw [bne_iff_ne]
  intro empty
  rw [empty] at parsed
  cases parsed

/-! The records behind the texts -/

def patchImage (print : Uuid → String) : Approvals.Patch → Patch
  | .waiting => .waiting
  | .read pending => .read (recordJson print pending)
  | .finished => .finished

def image (print : Uuid → String) (s : Approvals.State) : State where
  store := s.store.map fun record => text (recordJson print record)
  patch := patchImage print s.patch
  phase := s.phase
  deleted := s.deleted
  executed := s.executed
  sent := s.sent

structure Known (print : Uuid → String) (uuid : String → Option Uuid) (s : Approvals.State) : Prop where
  store : ∀ pending, s.store = some pending → Readable print uuid pending
  patch : ∀ pending, s.patch = .read pending → Readable print uuid pending

theorem afterGet_image (i : Nat) (actionId : String) (pending : PendingApproval) :
    afterGet clicks (image print s) i actionId pending =
      image print (Approvals.afterGet clicks s i actionId pending) := by
  unfold afterGet Approvals.afterGet
  cases resolve (clicks i) actionId pending <;> rfl

theorem afterDel_image (i : Nat) (actionId : String) (pending : PendingApproval) :
    afterDel clicks (image print s) i actionId pending =
      image print (Approvals.afterDel clicks s i actionId pending) := by
  unfold afterDel Approvals.afterDel
  cases resolve (clicks i) actionId pending <;> rfl

theorem step_image (known : Known print uuid s) (a : Act) :
    step uuid token messageTs clicks (image print s) a =
      (Approvals.step token messageTs clicks s a).map (image print) := by
  have read : ∀ pending, s.store = some pending →
      nonEmpty (image print s).store = some (text (recordJson print pending)) ∧
      Json.parse (text (recordJson print pending)) = some (recordJson print pending) ∧
      castRecord uuid (recordJson print pending) = some pending := by
    intro pending present
    have readable := known.store pending present
    refine ⟨?_, parse_text readable, castRecord_recordJson readable⟩
    simp only [image, present, Option.map_some]
    exact nonEmpty_text readable
  have missing : s.store = none → nonEmpty (image print s).store = none := by
    intro absent
    simp [image, absent, nonEmpty]
  cases a with
  | patchGet =>
    cases stage : s.patch with
    | waiting =>
      have here : (image print s).patch = .waiting := by
        simp only [image, stage, patchImage]
      cases held : s.store with
      | none =>
        simp only [step, Approvals.step, here, missing held, stage, held]
        simp [image, patchImage, held]
      | some pending =>
        obtain ⟨found, parsed, -⟩ := read pending held
        simp only [step, Approvals.step, here, found, parsed, stage, held]
        simp [image, patchImage, held]
    | read pending => simp [step, Approvals.step, image, patchImage, stage]
    | finished => simp [step, Approvals.step, image, patchImage, stage]
  | patchSet =>
    cases stage : s.patch with
    | read pending =>
      simp [step, Approvals.step, image, patchImage, stage, setMessageTs_recordJson]
    | waiting => simp [step, Approvals.step, image, patchImage, stage]
    | finished => simp [step, Approvals.step, image, patchImage, stage]
  | get i =>
    have same : (image print s).phase i = s.phase i := rfl
    simp only [step, Approvals.step, same]
    cases s.phase i with
    | waiting =>
      cases actionOf token clicks i with
      | none => rfl
      | some actionId =>
        cases held : s.store with
        | none =>
          rw [missing held]
          simp [image, patchImage, held]
        | some pending =>
          obtain ⟨found, parsed, cast⟩ := read pending held
          simp only [found, parsed, Option.bind_some, cast, Option.map_some, afterGet_image]
    | _ => rfl
  | del i =>
    have same : (image print s).phase i = s.phase i := rfl
    simp only [step, Approvals.step, same]
    cases s.phase i with
    | read pending =>
      cases actionOf token clicks i with
      | none => rfl
      | some actionId => simp only [afterDel_image, Option.map_some]
    | _ => rfl
  | execute i result =>
    have same : (image print s).phase i = s.phase i := rfl
    simp only [step, Approvals.step, same]
    cases s.phase i <;> rfl
  | expire => rfl

theorem known_step (known : Known print uuid s) {a : Act}
    (taken : Approvals.step token messageTs clicks s a = some t) : Known print uuid t := by
  cases a with
  | patchGet =>
    simp only [Approvals.step] at taken
    split at taken <;> cases taken
    · exact ⟨known.store, fun _ held => by cases held⟩
    · rename_i pending _ present
      refine ⟨known.store, fun other held => ?_⟩
      cases held
      exact known.store pending present
  | patchSet =>
    simp only [Approvals.step] at taken
    split at taken <;> cases taken
    rename_i pending held
    refine ⟨fun other present => ?_, fun _ held => by cases held⟩
    cases present
    exact (known.patch pending held).patched messageTs
  | get i =>
    simp only [Approvals.step] at taken
    split at taken <;> cases taken
    · exact ⟨known.store, known.patch⟩
    · rename_i actionId pending _ _ _
      unfold Approvals.afterGet
      split <;> exact ⟨known.store, known.patch⟩
  | del i =>
    simp only [Approvals.step] at taken
    split at taken <;> cases taken
    unfold Approvals.afterDel
    split
    · exact ⟨fun _ present => (by cases present), known.patch⟩
    · exact ⟨fun _ present => (by cases present), known.patch⟩
    · exact known
  | execute i result =>
    simp only [Approvals.step] at taken
    split at taken <;> cases taken
    exact ⟨known.store, known.patch⟩
  | expire =>
    cases taken
    exact ⟨fun _ present => (by cases present), known.patch⟩

theorem texts_commute : Refinement.Commutes (step uuid token messageTs clicks)
    (Approvals.step token messageTs clicks) (image print) (Known print uuid) :=
  ⟨fun _ a known => step_image known a, fun _ _ _ known taken => known_step known taken⟩

/-- A record as it comes back from its text. -/
def written (record : PendingApproval) : PendingApproval := { record with input := record.input.written }

theorem stored_image : stored print record = image print (Approvals.stored (written record)) := by
  have same : (recordJson print (written record)).written = (recordJson print record).written := by
    obtain ⟨workspaceId, requester, slackId, name, team, channel, threadTs, ts, tool, input, label,
    answer⟩ := record
    cases requester <;> cases threadTs <;>
      simp [recordJson, written, Json.written, Json.writtenFields, Json.written_written]
  have texts : text (recordJson print record) = text (recordJson print (written record)) := by
    rw [text, text, ← Json.stringify_written (recordJson print record), ← same,
      Json.stringify_written]
  simp only [stored, image, Approvals.stored, patchImage, Option.map_some, texts]

theorem readable_written (workspace : uuid (print record.workspaceId) = some record.workspaceId)
    (requester : ∀ id, record.requesterUserId = some id → uuid (print id) = some id)
    (sound : record.input.Sound) : Readable print uuid (written record) :=
  ⟨workspace, requester, Json.written_sound sound, record.input.written_finite⟩

/-- The approval of a record, as the texts in Redis have it, is the approval of the record that
comes back from its first text: the same calls are made in the same states. What is executed is
the action of that record, on a click of its requester. -/
theorem texts_refine_records
    (workspace : uuid (print record.workspaceId) = some record.workspaceId)
    (requester : ∀ id, record.requesterUserId = some id → uuid (print id) = some id)
    (sound : record.input.Sound) (u : State) :
    (Reachable (fun s a t => step uuid token messageTs clicks s a = some t) (stored print record) u ↔
      ∃ s, Reachable (Approvals.Step token messageTs clicks) (Approvals.stored (written record)) s ∧
        u = image print s) ∧
    (Reachable (fun s a t => step uuid token messageTs clicks s a = some t) (stored print record) u →
      ∀ x ∈ u.executed, (clicks x.1).clickerId = record.requesterSlackId ∧
        x.2 = { record.action with input := record.input.written }) := by
  have initial : Known print uuid (Approvals.stored (written record)) := by
    refine ⟨fun pending present => ?_, nofun⟩
    cases present
    exact readable_written workspace requester sound
  have commutes : Refinement.Commutes (step uuid token messageTs clicks)
      (Approvals.step token messageTs clicks) (image print) (Known print uuid) := texts_commute
  rw [stored_image]
  have both := commutes.reachable_iff (u := u) initial
  refine ⟨both, fun reached x member => ?_⟩
  obtain ⟨s, ⟨steps, run⟩, rfl⟩ := both.mp reached
  have inv : Inv token clicks (written record) s :=
    run.invariant inv_stored fun _ _ _ inv taken => inv_step inv taken
  obtain ⟨-, -, approves, same⟩ := inv.executed x member
  exact ⟨requester_of_approves approves, same⟩

end

def raiseRecord : PendingApproval :=
  { pauseRecord with input := .obj [("id", .str "23"), ("active", .bool true)] }

def printed (id : Uuid) : String := "00000000-0000-4000-8000-00000000000" ++ toString id

def printedId (text : String) : Option Uuid := [1, 7].find? fun id => printed id == text

/-- A click of the requester, with the record patched between its two calls to Redis. -/
theorem raised_from_text :
    ∃ u, Reachable (fun s a t => step printedId "t" "1.0" requesterClicks s a = some t)
        (stored printed raiseRecord) u ∧
      u.executed.map Prod.fst = [0] ∧
      ∀ x ∈ u.executed, (requesterClicks x.1).clickerId = "U1" ∧ x.2 = raiseRecord.action := by
  have got := Run.nil.snoc
    (show Approvals.Step "t" "1.0" requesterClicks (Approvals.stored (written raiseRecord))
      .patchGet _ from rfl)
  have read := got.snoc (show Approvals.Step "t" "1.0" requesterClicks _ (.get 0) _ from rfl)
  have patched := read.snoc (show Approvals.Step "t" "1.0" requesterClicks _ .patchSet _ from rfl)
  have deleted := patched.snoc (show Approvals.Step "t" "1.0" requesterClicks _ (.del 0) _ from rfl)
  have ran := deleted.snoc
    (show Approvals.Step "t" "1.0" requesterClicks _ (.execute 0 done) _ from rfl)
  have sound : raiseRecord.input.Sound := by
    simp [raiseRecord, Json.Sound, Json.SoundFields]
  have refined := @texts_refine_records printed printedId "t" "1.0" requesterClicks raiseRecord
    (by decide +kernel) (fun id same => by cases same; decide +kernel) sound
  obtain ⟨reached, executed⟩ := refined (image printed _)
  have here := reached.mpr ⟨_, ⟨_, ran⟩, rfl⟩
  exact ⟨_, here, rfl, executed here⟩

end Gomer.Approvals.Texts
