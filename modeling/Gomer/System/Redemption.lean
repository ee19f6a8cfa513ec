import Mathlib.Logic.Function.Basic
import Gomer.Lib.Trace
import Gomer.Spaces.Isolation
import Gomer.Spaces.MagicLinks

/-! Calls of `verify` with one raw token, in any interleaving. The row is read, the secret is
compared for as long as bcrypt takes, and only then the use is saved. -/
namespace Gomer.Redemption

open Trace HttpException
open Jwt (Signed)

inductive Phase where
  | waiting
  | located (space : Space)
  | unused (space : Space) (row : SpaceAuthToken)
  | compared (space : Space) (row : SpaceAuthToken)
  | used (space : Space) (row : SpaceAuthToken)
  | upserting (space : Space) (row : SpaceAuthToken) (existing : Option SpaceMember)
  | signing (space : Space) (row : SpaceAuthToken) (user : SpaceMember)
  | failed (error : HttpException)
  | returned

/-- A session that a call has returned. -/
structure Session where
  call : Nat
  time : Int
  spaceId : UuidText
  token : Signed

/-- `uses` has the calls that have saved a use of the token. Times are in milliseconds. -/
structure State where
  clock : Int
  db : SpaceDatabase
  tokens : List SpaceAuthToken
  members : List SpaceMember
  phase : Nat → Phase
  uses : List Nat
  sessions : List Session

def start (clock : Int) (db : SpaceDatabase) (tokens : List SpaceAuthToken)
    (members : List SpaceMember) : State :=
  ⟨clock, db, tokens, members, fun _ => .waiting, [], []⟩

inductive Act where
  | wait (clock : Int)
  /-- Owners publish, rename and remove their Spaces. -/
  | publish (db : SpaceDatabase)
  | locate (call : Nat) (slug : String)
  | read (call : Nat)
  | compare (call : Nat)
  | save (call : Nat)
  | findMember (call : Nat)
  | upsert (call : Nat) (id : UuidText)
  | issue (call : Nat)

def State.at (s : State) (call : Nat) (phase : Phase) : State :=
  { s with phase := Function.update s.phase call phase }

section
variable (service : AuthService) (postgres : Postgres) (raw : List Char)

def locate (s : State) (call : Nat) (slug : String) : State :=
  match findPublishedBySlug postgres s.db slug with
  | .error error => s.at call (.failed error)
  | .ok space =>
    match splitToken raw with
    | .error error => s.at call (.failed error)
    | .ok _ => s.at call (.located space)

def read (s : State) (call : Nat) (space : Space) : State :=
  match splitToken raw with
  | .error error => s.at call (.failed error)
  | .ok (tokenId, _) =>
    match readToken postgres s.tokens space tokenId s.clock with
    | .error error => s.at call (.failed error)
    | .ok row => s.at call (.unused space row)

def compare (s : State) (call : Nat) (space : Space) (row : SpaceAuthToken) : State :=
  match splitToken raw with
  | .error error => s.at call (.failed error)
  | .ok (_, secret) =>
    if Bcrypt.compare service.digest secret row.tokenHash then s.at call (.compared space row)
    else s.at call (.failed invalidToken)

def save (s : State) (call : Nat) (space : Space) (row : SpaceAuthToken) : State :=
  { s.at call (.used space row) with
    tokens := saveUsed s.tokens row.id s.clock
    uses := call :: s.uses }

def upsert (s : State) (call : Nat) (space : Space) (row : SpaceAuthToken)
    (existing : Option SpaceMember) (id : UuidText) : State :=
  match upsertMember s.members space.id row.email existing id s.clock with
  | .error error => s.at call (.failed error)
  | .ok (members, user) => { s.at call (.signing space row user) with members := members }

def issue (s : State) (call : Nat) (space : Space) (user : SpaceMember) : State :=
  match service.issueSession space.id.text user.toSpaceUser (s.clock / 1000) with
  | .error _ => s.at call (.failed internalServerError)
  | .ok token =>
    { s.at call .returned with sessions := ⟨call, s.clock, space.id, token⟩ :: s.sessions }

def step (s : State) : Act → Option State
  | .wait clock => if s.clock ≤ clock then some { s with clock := clock } else none
  | .publish db => some { s with db := db }
  | .locate call slug =>
    match s.phase call with
    | .waiting => some (locate postgres raw s call slug)
    | _ => none
  | .read call =>
    match s.phase call with
    | .located space => some (read postgres raw s call space)
    | _ => none
  | .compare call =>
    match s.phase call with
    | .unused space row => some (compare service raw s call space row)
    | _ => none
  | .save call =>
    match s.phase call with
    | .compared space row => some (save s call space row)
    | _ => none
  | .findMember call =>
    match s.phase call with
    | .used space row =>
      some (s.at call (.upserting space row (findMember s.members space.id row.email)))
    | _ => none
  | .upsert call id =>
    match s.phase call with
    | .upserting space row existing => some (upsert s call space row existing id)
    | _ => none
  | .issue call =>
    match s.phase call with
    | .signing space _ user => some (issue service s call space user)
    | _ => none

abbrev Step (s : State) (a : Act) (t : State) : Prop := step service postgres raw s a = some t

/-! The law, and the condition on a step -/

/-- The row that the raw token names. -/
def Names (row : SpaceAuthToken) : Prop :=
  ∃ tokenId secret, splitToken raw = .ok (tokenId, secret) ∧ postgres.uuid tokenId = some row.id

/-- The sessions are of the Space and of the lifetime of the token. -/
def Valid (tokens : List SpaceAuthToken) (s : State) : Prop :=
  ∀ session ∈ s.sessions, ∃ row ∈ tokens, Names postgres raw row ∧
    session.spaceId = row.spaceId ∧ session.time ≤ row.expiresAt

structure SingleUse (tokens : List SpaceAuthToken) (s : State) : Prop where
  once : s.sessions.length ≤ 1
  valid : Valid postgres raw tokens s

/-- A call saves its use while the row is still unused. -/
def Unspent (s : State) : Act → Prop
  | .save call => ∀ space row, s.phase call = .compared space row →
      ∀ stored, findToken s.tokens row.id space.id = some stored → stored.usedAt = none
  | _ => True

/-- A call is through before the token expires. -/
def InTime (s : State) : Act → Prop
  | .issue call => ∀ space row user, s.phase call = .signing space row user →
      s.clock ≤ row.expiresAt
  | _ => True

/-! What the calls have read -/

/-- What a call goes on with, before it has saved a use and after. -/
def Phase.pending : Phase → Option (Space × SpaceAuthToken)
  | .unused space row | .compared space row => some (space, row)
  | _ => none

def Phase.spent : Phase → Option (Space × SpaceAuthToken)
  | .used space row | .upserting space row _ | .signing space row _ => some (space, row)
  | _ => none

def blank (row : SpaceAuthToken) : SpaceAuthToken := { row with usedAt := none }

/-- The row of the raw token in the table, unused when it was read. -/
structure Found (tokens : List SpaceAuthToken) (space : Space) (row : SpaceAuthToken) : Prop where
  names : Names postgres raw row
  space : row.spaceId = space.id
  unused : row.usedAt = none
  stored : blank row ∈ tokens.map blank

/-- How a call stands, beside the table, the uses and the sessions of the moment. -/
structure Sound (tokens stored : List SpaceAuthToken) (uses : List Nat) (sessions : List Session)
    (call : Nat) (phase : Phase) : Prop where
  pending : ∀ space row, phase.pending = some (space, row) → Found postgres raw tokens space row ∧
    (uses = [] → findToken stored row.id space.id = some row)
  spent : ∀ space row, phase.spent = some (space, row) →
    Found postgres raw tokens space row ∧ call ∈ uses
  unreturned : phase ≠ .returned → ∀ session ∈ sessions, session.call ≠ call

structure Inv (tokens : List SpaceAuthToken) (s : State) : Prop where
  table : s.tokens.map blank = tokens.map blank
  used : s.uses ≠ [] → ∀ row ∈ s.tokens, Names postgres raw row → row.usedAt ≠ none
  phase : ∀ call, Sound postgres raw tokens s.tokens s.uses s.sessions call (s.phase call)
  calls : (s.sessions.map (·.call)).Nodup
  earlier : ∀ session ∈ s.sessions, session.call ∈ s.uses

variable {service postgres raw} {tokens : List SpaceAuthToken} {s t : State}

theorem Names.id_eq {row other : SpaceAuthToken} (first : Names postgres raw row)
    (second : Names postgres raw other) : row.id = other.id := by
  obtain ⟨tokenId, secret, split, parses⟩ := first
  obtain ⟨tokenId', secret', split', parses'⟩ := second
  cases split.symm.trans split'
  exact Option.some.inj (parses.symm.trans parses')

section
variable {stored : List SpaceAuthToken} {uses : List Nat} {sessions : List Session} {call : Nat}
  {phase : Phase}

theorem sound_quiet (pending : phase.pending = none) (spent : phase.spent = none)
    (unreturned : phase ≠ .returned → ∀ session ∈ sessions, session.call ≠ call) :
    Sound postgres raw tokens stored uses sessions call phase where
  pending _ _ some := by cases pending.symm.trans some
  spent _ _ some := by cases spent.symm.trans some
  unreturned := unreturned

theorem sound_pending {space : Space} {row : SpaceAuthToken}
    (pending : phase.pending = some (space, row)) (spent : phase.spent = none)
    (found : Found postgres raw tokens space row)
    (fresh : uses = [] → findToken stored row.id space.id = some row)
    (unreturned : ∀ session ∈ sessions, session.call ≠ call) :
    Sound postgres raw tokens stored uses sessions call phase where
  pending _ _ some := by
    cases pending.symm.trans some
    exact ⟨found, fresh⟩
  spent _ _ some := by cases spent.symm.trans some
  unreturned _ := unreturned

theorem sound_spent {space : Space} {row : SpaceAuthToken} (pending : phase.pending = none)
    (spent : phase.spent = some (space, row)) (found : Found postgres raw tokens space row)
    (own : call ∈ uses) (unreturned : ∀ session ∈ sessions, session.call ≠ call) :
    Sound postgres raw tokens stored uses sessions call phase where
  pending _ _ some := by cases pending.symm.trans some
  spent _ _ some := by
    cases spent.symm.trans some
    exact ⟨found, own⟩
  unreturned _ := unreturned

end

theorem start_inv (clock : Int) (db : SpaceDatabase) (members : List SpaceMember) :
    Inv postgres raw tokens (start clock db tokens members) where
  table := rfl
  used used := absurd rfl used
  phase _ := sound_quiet rfl rfl fun _ _ absent => absurd absent List.not_mem_nil
  calls := List.nodup_nil
  earlier _ absent := absurd absent List.not_mem_nil

/-- A call goes on, and nothing is written. -/
theorem Inv.at (inv : Inv postgres raw tokens s) {call : Nat} {phase : Phase}
    (sound : Sound postgres raw tokens s.tokens s.uses s.sessions call phase) :
    Inv postgres raw tokens (s.at call phase) where
  table := inv.table
  used := inv.used
  phase := (Function.forall_update_iff s.phase _).mpr ⟨sound, fun other _ => inv.phase other⟩
  calls := inv.calls
  earlier := inv.earlier

theorem locate_inv (inv : Inv postgres raw tokens s) {call : Nat} (slug : String)
    (unreturned : ∀ session ∈ s.sessions, session.call ≠ call) :
    Inv postgres raw tokens (locate postgres raw s call slug) := by
  unfold locate
  split
  · exact inv.at (sound_quiet rfl rfl fun _ => unreturned)
  · split <;> exact inv.at (sound_quiet rfl rfl fun _ => unreturned)

theorem read_inv (inv : Inv postgres raw tokens s) {call : Nat} (space : Space)
    (unreturned : ∀ session ∈ s.sessions, session.call ≠ call) :
    Inv postgres raw tokens (read postgres raw s call space) := by
  unfold read
  split
  · exact inv.at (sound_quiet rfl rfl fun _ => unreturned)
  · rename_i tokenId secret named
    split
    · exact inv.at (sound_quiet rfl rfl fun _ => unreturned)
    · rename_i row ok
      obtain ⟨parses, found, unused, _⟩ := readToken_ok ok
      obtain ⟨listed, _, own⟩ := findToken_some found
      have stored : blank row ∈ tokens.map blank := inv.table ▸ List.mem_map_of_mem listed
      exact inv.at (sound_pending rfl rfl ⟨⟨tokenId, secret, named, parses⟩, own, unused, stored⟩
        (fun _ => found) unreturned)

theorem compare_inv (inv : Inv postgres raw tokens s) {call : Nat} {space : Space}
    {row : SpaceAuthToken} (stands : s.phase call = .unused space row) :
    Inv postgres raw tokens (compare service raw s call space row) := by
  have sound := inv.phase call
  rw [stands] at sound
  obtain ⟨found, fresh⟩ := sound.pending space row rfl
  have unreturned := sound.unreturned (by simp)
  unfold compare
  split
  · exact inv.at (sound_quiet rfl rfl fun _ => unreturned)
  · split
    · exact inv.at (sound_pending rfl rfl found fresh unreturned)
    · exact inv.at (sound_quiet rfl rfl fun _ => unreturned)

theorem save_inv (inv : Inv postgres raw tokens s) {call : Nat} {space : Space}
    {row : SpaceAuthToken} (stands : s.phase call = .compared space row) :
    Inv postgres raw tokens (save s call space row) := by
  have sound := inv.phase call
  rw [stands] at sound
  obtain ⟨found, _⟩ := sound.pending space row rfl
  have unreturned := sound.unreturned (by simp)
  refine ⟨?_, ?_, (Function.forall_update_iff s.phase _).mpr ⟨?_, fun other _ => ?_⟩, inv.calls, ?_⟩
  · exact (saveUsed_map blank (fun _ _ => rfl) s.tokens row.id s.clock).trans inv.table
  · intro _ other known names
    exact saveUsed_used known (names.id_eq found.names)
  · exact sound_spent rfl rfl found List.mem_cons_self unreturned
  · obtain ⟨pending, spent, unanswered⟩ := inv.phase other
    exact ⟨fun space row some => ⟨(pending space row some).1, fun none => by cases none⟩,
      fun space row some => (spent space row some).imp_right (List.mem_cons_of_mem call), unanswered⟩
  · exact fun session known => List.mem_cons_of_mem call (inv.earlier session known)

theorem upsert_inv (inv : Inv postgres raw tokens s) {call : Nat} {space : Space}
    {row : SpaceAuthToken} {existing : Option SpaceMember} (id : UuidText)
    (stands : s.phase call = .upserting space row existing) :
    Inv postgres raw tokens (upsert s call space row existing id) := by
  have sound := inv.phase call
  rw [stands] at sound
  obtain ⟨found, own⟩ := sound.spent space row rfl
  have unreturned := sound.unreturned (by simp)
  unfold upsert
  split
  · exact inv.at (sound_quiet rfl rfl fun _ => unreturned)
  · rename_i members user _
    have next : Inv postgres raw tokens (s.at call (.signing space row user)) :=
      inv.at (sound_spent rfl rfl found own unreturned)
    exact ⟨next.table, next.used, next.phase, next.calls, next.earlier⟩

theorem issue_inv (inv : Inv postgres raw tokens s) {call : Nat} {space : Space}
    {row : SpaceAuthToken} {user : SpaceMember} (stands : s.phase call = .signing space row user) :
    Inv postgres raw tokens (issue service s call space user) := by
  have sound := inv.phase call
  rw [stands] at sound
  obtain ⟨found, own⟩ := sound.spent space row rfl
  have unreturned := sound.unreturned (by simp)
  unfold issue
  split
  · exact inv.at (sound_quiet rfl rfl fun _ => unreturned)
  · refine ⟨inv.table, inv.used,
      (Function.forall_update_iff s.phase _).mpr ⟨?_, fun other apart => ?_⟩, ?_, ?_⟩
    · exact sound_quiet rfl rfl fun returned => absurd rfl returned
    · obtain ⟨pending, spent, unanswered⟩ := inv.phase other
      exact ⟨pending, spent, fun waits => List.forall_mem_cons.mpr ⟨Ne.symm apart, unanswered waits⟩⟩
    · refine List.nodup_cons.mpr ⟨fun twice => ?_, inv.calls⟩
      obtain ⟨session, known, same⟩ := List.mem_map.mp twice
      exact unreturned session known same
    · exact List.forall_mem_cons.mpr ⟨own, inv.earlier⟩

section
variable (service postgres raw s)

/-- What a step does, and where the call stands that takes it. -/
inductive Taken : Act → State → Prop where
  | wait {clock : Int} : Taken (.wait clock) { s with clock := clock }
  | publish {db : SpaceDatabase} : Taken (.publish db) { s with db := db }
  | locate {call : Nat} {slug : String} (stands : s.phase call = .waiting) :
      Taken (.locate call slug) (locate postgres raw s call slug)
  | read {call : Nat} {space : Space} (stands : s.phase call = .located space) :
      Taken (.read call) (read postgres raw s call space)
  | compare {call : Nat} {space : Space} {row : SpaceAuthToken}
      (stands : s.phase call = .unused space row) :
      Taken (.compare call) (compare service raw s call space row)
  | save {call : Nat} {space : Space} {row : SpaceAuthToken}
      (stands : s.phase call = .compared space row) : Taken (.save call) (save s call space row)
  | findMember {call : Nat} {space : Space} {row : SpaceAuthToken}
      (stands : s.phase call = .used space row) : Taken (.findMember call)
        (s.at call (.upserting space row (findMember s.members space.id row.email)))
  | upsert {call : Nat} {id : UuidText} {space : Space} {row : SpaceAuthToken}
      {existing : Option SpaceMember} (stands : s.phase call = .upserting space row existing) :
      Taken (.upsert call id) (upsert s call space row existing id)
  | issue {call : Nat} {space : Space} {row : SpaceAuthToken} {user : SpaceMember}
      (stands : s.phase call = .signing space row user) :
      Taken (.issue call) (issue service s call space user)

end

theorem step_taken {a : Act} (taken : Step service postgres raw s a t) :
    Taken service postgres raw s a t := by
  cases a with
  | publish db =>
    cases taken
    exact .publish
  | wait clock =>
    simp only [Step, step] at taken
    split at taken <;> cases taken
    exact .wait
  | locate call slug =>
    simp only [Step, step] at taken
    split at taken <;> cases taken
    exact .locate ‹_›
  | read call =>
    simp only [Step, step] at taken
    split at taken <;> cases taken
    exact .read ‹_›
  | compare call =>
    simp only [Step, step] at taken
    split at taken <;> cases taken
    exact .compare ‹_›
  | save call =>
    simp only [Step, step] at taken
    split at taken <;> cases taken
    exact .save ‹_›
  | findMember call =>
    simp only [Step, step] at taken
    split at taken <;> cases taken
    exact .findMember ‹_›
  | upsert call id =>
    simp only [Step, step] at taken
    split at taken <;> cases taken
    exact .upsert ‹_›
  | issue call =>
    simp only [Step, step] at taken
    split at taken <;> cases taken
    exact .issue ‹_›

theorem step_inv {a : Act} (inv : Inv postgres raw tokens s)
    (taken : Step service postgres raw s a t) : Inv postgres raw tokens t := by
  cases step_taken taken with
  | wait => exact ⟨inv.table, inv.used, inv.phase, inv.calls, inv.earlier⟩
  | publish => exact ⟨inv.table, inv.used, inv.phase, inv.calls, inv.earlier⟩
  | @locate call slug stands =>
    exact locate_inv inv slug ((inv.phase call).unreturned (by simp [stands]))
  | @read call space stands =>
    exact read_inv inv space ((inv.phase call).unreturned (by simp [stands]))
  | compare stands => exact compare_inv inv stands
  | save stands => exact save_inv inv stands
  | @findMember call space row stands =>
    have sound := inv.phase call
    rw [stands] at sound
    obtain ⟨found, own⟩ := sound.spent space row rfl
    exact inv.at (sound_spent rfl rfl found own (sound.unreturned (by simp)))
  | @upsert call id space row existing stands => exact upsert_inv inv id stands
  | issue stands => exact issue_inv inv stands

/-! One use, and one session -/

/-- The table still has the row that a call has read. -/
theorem Found.found (inv : Inv postgres raw tokens s) {space : Space} {row : SpaceAuthToken}
    (found : Found postgres raw tokens space row) :
    ∃ stored, findToken s.tokens row.id space.id = some stored := by
  have listed : blank row ∈ s.tokens.map blank := inv.table ▸ found.stored
  obtain ⟨stored, known, same⟩ := List.mem_map.mp listed
  have id : stored.id = row.id := (congrArg SpaceAuthToken.id same :)
  have own : stored.spaceId = row.spaceId := (congrArg SpaceAuthToken.spaceId same :)
  refine Option.isSome_iff_exists.mp (List.find?_isSome.mpr ⟨stored, known, ?_⟩)
  simp [id, own, found.space]

/-- A save is the first exactly when it finds the token unspent. -/
theorem save_first_iff (inv : Inv postgres raw tokens s) {call : Nat} {space : Space}
    {row : SpaceAuthToken} (stands : s.phase call = .compared space row) :
    s.uses = [] ↔
      ∀ stored, findToken s.tokens row.id space.id = some stored → stored.usedAt = none := by
  have sound := inv.phase call
  rw [stands] at sound
  obtain ⟨found, fresh⟩ := sound.pending space row rfl
  constructor
  · intro first stored same
    cases (fresh first).symm.trans same
    exact found.unused
  · intro unspent
    by_contra used
    obtain ⟨stored, same⟩ := found.found inv
    obtain ⟨listed, id, _⟩ := findToken_some same
    obtain ⟨tokenId, secret, split, parses⟩ := found.names
    exact inv.used used stored listed ⟨tokenId, secret, split, id ▸ parses⟩ (unspent stored same)

/-- What a step adds to the uses and the sessions. -/
inductive Adds (s : State) (a : Act) (t : State) : Prop
  | nothing (uses : t.uses = s.uses) (sessions : t.sessions = s.sessions)
    (saves : ∀ call, a ≠ .save call)
  | use (call : Nat) (space : Space) (row : SpaceAuthToken) (act : a = .save call)
    (stands : s.phase call = .compared space row) (uses : t.uses = call :: s.uses)
    (sessions : t.sessions = s.sessions)
  | session (call : Nat) (space : Space) (row : SpaceAuthToken) (user : SpaceMember) (token : Signed)
    (act : a = .issue call) (stands : s.phase call = .signing space row user)
    (uses : t.uses = s.uses) (sessions : t.sessions = ⟨call, s.clock, space.id, token⟩ :: s.sessions)

theorem step_adds {a : Act} (taken : Step service postgres raw s a t) : Adds s a t := by
  cases step_taken taken with
  | @save call space row stands => exact .use call space row rfl stands rfl rfl
  | @issue call space row user stands =>
    unfold issue
    split
    · exact .nothing rfl rfl fun _ other => by cases other
    · rename_i token _
      exact .session call space row user token rfl stands rfl rfl
  | locate stands =>
    unfold locate
    split
    · exact .nothing rfl rfl fun _ other => by cases other
    · split <;> exact .nothing rfl rfl fun _ other => by cases other
  | read stands =>
    unfold read
    split
    · exact .nothing rfl rfl fun _ other => by cases other
    · split <;> exact .nothing rfl rfl fun _ other => by cases other
  | compare stands =>
    unfold compare
    split
    · exact .nothing rfl rfl fun _ other => by cases other
    · split <;> exact .nothing rfl rfl fun _ other => by cases other
  | upsert stands =>
    unfold upsert
    split <;> exact .nothing rfl rfl fun _ other => by cases other
  | _ => exact .nothing rfl rfl fun _ other => by cases other

theorem step_uses_iff {a : Act} (inv : Inv postgres raw tokens s) (once : s.uses.length ≤ 1)
    (taken : Step service postgres raw s a t) : t.uses.length ≤ 1 ↔ Unspent s a := by
  cases step_adds taken with
  | nothing uses sessions saves =>
    rw [uses]
    refine iff_of_true once ?_
    cases a with
    | save call => exact absurd rfl (saves call)
    | _ => trivial
  | use call space row act stands uses sessions =>
    subst act
    have first : t.uses.length ≤ 1 ↔ s.uses = [] := by
      rw [uses, List.length_cons, ← List.length_eq_zero_iff]
      omega
    rw [first, save_first_iff inv stands]
    constructor
    · intro unspent space' row' same
      cases stands.symm.trans same
      exact unspent
    · exact fun unspent => unspent space row stands
  | session call space row user token act stands uses sessions =>
    subst act
    rw [uses]
    exact iff_of_true once trivial

theorem step_valid {a : Act} (inv : Inv postgres raw tokens s) (valid : Valid postgres raw tokens s)
    (taken : Step service postgres raw s a t) (inTime : InTime s a) : Valid postgres raw tokens t := by
  unfold Valid
  cases step_adds taken with
  | nothing uses sessions saves => exact sessions ▸ valid
  | use call space row act stands uses sessions => exact sessions ▸ valid
  | session call space row user token act stands uses sessions =>
    subst act
    have sound := inv.phase call
    rw [stands] at sound
    obtain ⟨found, _⟩ := sound.spent space row rfl
    obtain ⟨stored, listed, same⟩ := List.mem_map.mp found.stored
    have id : stored.id = row.id := (congrArg SpaceAuthToken.id same :)
    have own : stored.spaceId = row.spaceId := (congrArg SpaceAuthToken.spaceId same :)
    have expires : stored.expiresAt = row.expiresAt := (congrArg SpaceAuthToken.expiresAt same :)
    obtain ⟨tokenId, secret, split, parses⟩ := found.names
    rw [sessions]
    refine List.forall_mem_cons.mpr ⟨⟨stored, listed, ⟨tokenId, secret, split, id ▸ parses⟩,
      (own.trans found.space).symm, ?_⟩, valid⟩
    rw [expires]
    exact inTime space row user stands

/-- Every session is that of a call that has saved a use. -/
theorem Inv.sessions_le (inv : Inv postgres raw tokens s) : s.sessions.length ≤ s.uses.length := by
  have among : s.sessions.map (·.call) ⊆ s.uses := fun call known => by
    obtain ⟨session, listed, rfl⟩ := List.mem_map.mp known
    exact inv.earlier session listed
  have le := (List.subperm_of_subset inv.calls among).length_le
  rwa [List.length_map] at le

end

/-- The token is used once exactly when each save finds it unspent; then there is one session at
most, and it is for the token's Space and before its end while the calls are through in time. -/
theorem link_used_once (service : AuthService) (postgres : Postgres) (raw : List Char) (clock : Int)
    (db : SpaceDatabase) (tokens : List SpaceAuthToken) (members : List SpaceMember)
    {steps : List (Transition State Act)} {s : State}
    (run : Run (Step service postgres raw) (start clock db tokens members) steps s) :
    ((∀ x ∈ steps, x.post.uses.length ≤ 1) ↔ ∀ x ∈ steps, Unspent x.pre x.label) ∧
      ((∀ x ∈ steps, Unspent x.pre x.label ∧ InTime x.pre x.label) →
        ∀ x ∈ steps, SingleUse postgres raw tokens x.post) := by
  have exactly := run.states_iff (I := Inv postgres raw tokens) (fun s => s.uses.length ≤ 1) Unspent
    (start_inv clock db members) (fun _ _ _ inv taken => step_inv inv taken) (Nat.zero_le 1)
    fun _ _ _ inv once taken => step_uses_iff inv once taken
  refine ⟨exactly, fun met x taken => ?_⟩
  have once := exactly.mpr (fun x taken => (met x taken).1) x taken
  obtain ⟨_, all⟩ := run.invariant_of
    (I := fun s => Inv postgres raw tokens s ∧ Valid postgres raw tokens s)
    (fun x => InTime x.pre x.label)
    ⟨start_inv clock db members, fun _ absent => absurd absent List.not_mem_nil⟩
    (fun _ _ _ before taken inTime =>
      ⟨step_inv before.1 taken, step_valid before.1 before.2 taken inTime⟩)
    fun x taken => (met x taken).2
  obtain ⟨inv, valid⟩ := all x taken
  exact ⟨Nat.le_trans inv.sessions_le once, valid⟩

/-! A link that is clicked twice -/

def deployment : AuthService := deployedService "secret" "other"

def secret : List Char := "c2VjcmV0".toList

def tokenId : UuidText := ⟨"4a1f0c52-8a7b-4a57-9a1e-0f2b6c3d9e04", by decide⟩

def link : SpaceAuthToken :=
  authToken deployment launchPlan.id "ada@example.com" tokenId "salt" secret 0

def adaMember : SpaceMember := ⟨ada, launchPlan.id, none, none⟩

def opened : State := start 0 alone [link] [adaMember]

/-- Both calls compare the secret before either has saved the use; and a call that reads the row in
time returns a session when the token has expired. -/
theorem link_used_twice :
    (∃ steps s, Run (Step deployment deployedPostgres (rawToken tokenId secret)) opened steps s ∧
      s.sessions.map (·.call) = [2, 1] ∧
      ¬ SingleUse deployedPostgres (rawToken tokenId secret) [link] s) ∧
    ∃ steps s, Run (Step deployment deployedPostgres (rawToken tokenId secret)) opened steps s ∧
      s.sessions.map (·.time) = [link.expiresAt + 5] := by
  constructor
  · let acts : List Act := [.locate 1 "launch-plan", .locate 2 "launch-plan", .read 1, .read 2,
      .compare 1, .compare 2, .save 1, .save 2, .findMember 1, .findMember 2, .upsert 1 tokenId,
      .upsert 2 tokenId, .issue 1, .issue 2]
    have run := @follow_run _ _ (step deployment deployedPostgres (rawToken tokenId secret)) opened
      _ acts _ rfl
    exact ⟨_, _, run, rfl, fun single => absurd single.once (by decide)⟩
  · let acts : List Act := [.locate 1 "launch-plan", .wait link.expiresAt, .read 1, .compare 1,
      .wait (link.expiresAt + 5), .save 1, .findMember 1, .upsert 1 tokenId, .issue 1]
    exact ⟨_, _, @follow_run _ _ (step deployment deployedPostgres (rawToken tokenId secret)) opened
      _ acts _ rfl, rfl⟩

/-- The second click comes when the first has saved the use. -/
theorem second_click_refused : ∃ steps s,
    Run (Step deployment deployedPostgres (rawToken tokenId secret)) opened steps s ∧
      s.sessions.map (·.call) = [1] ∧ s.phase 2 = .failed invalidToken ∧
      ∀ x ∈ steps, SingleUse deployedPostgres (rawToken tokenId secret) [link] x.post := by
  let acts : List Act := [.locate 1 "launch-plan", .read 1, .compare 1, .save 1,
    .locate 2 "launch-plan", .read 2, .findMember 1, .upsert 1 tokenId, .issue 1]
  have run := @follow_run _ _ (step deployment deployedPostgres (rawToken tokenId secret)) opened _
    acts _ rfl
  refine ⟨_, _, run, rfl, rfl, (link_used_once _ _ _ _ _ _ _ run).2 fun x taken => ?_⟩
  simp only [List.mem_cons, List.not_mem_nil, or_false] at taken
  rcases taken with rfl | rfl | rfl | rfl | rfl | rfl | rfl | rfl | rfl
  · exact ⟨trivial, trivial⟩
  · exact ⟨trivial, trivial⟩
  · exact ⟨trivial, trivial⟩
  · refine ⟨fun space row stands stored same => ?_, trivial⟩
    injection stands with own read
    subst own read
    cases Option.some.inj (same.symm.trans (show _ = some link from rfl))
    rfl
  · exact ⟨trivial, trivial⟩
  · exact ⟨trivial, trivial⟩
  · exact ⟨trivial, trivial⟩
  · exact ⟨trivial, trivial⟩
  · refine ⟨trivial, fun space row user stands => ?_⟩
    injection stands with _ read _
    subst read
    decide

end Gomer.Redemption
