import Mathlib.Logic.Function.Basic
import Gomer.Lib.Trace
import Gomer.Auth.Tokens

/-! Logins, refreshes, workspace switches and logouts in any interleaving: a call reads its
user in one step and writes the hash of the token it issues in a later one. -/
namespace Gomer.Rotation

open Trace
open Jwt (Signed)

inductive Phase where
  | waiting
  | found (identity : SlackIdentity) (existing : Option User)
  | issuing (user : User) (presented : Option Signed)
  | finished

/-- What happened to the tokens of a user row: one was issued, the user logged out, a
refresh that presented the token came to its end. -/
inductive Entry where
  | issued (id : UuidText) (token : Signed)
  | loggedOut (id : UuidText)
  | refreshed (id : UuidText) (token : Signed)
  deriving DecidableEq

/-- The `users` table, the calls, and the log with its latest entry first. -/
structure State where
  users : List User
  phase : Nat → Phase
  log : List Entry

inductive Act where
  | lookup (call : Nat) (identity : SlackIdentity)
  | save (call : Nat) (id : UuidText)
  | refresh (call : Nat) (token : Signed) (now : Int)
  | switchWorkspace (call : Nat) (userId workspaceId : String)
  | issue (call : Nat) (now : Int) (salt : String)
  | logout (userId : UuidText)

def start (users : List User) : State := ⟨users, fun _ => .waiting, []⟩

def State.at (s : State) (call : Nat) (phase : Phase) : State :=
  { s with phase := Function.update s.phase call phase }

/-- `upsertFromSlack` after its lookup; a new row must not break a unique index. -/
def saveLogin (s : State) (call : Nat) (identity : SlackIdentity) (existing : Option User)
    (id : UuidText) : State :=
  match existing with
  | some user =>
    let user := reactivate user identity
    { s.at call (.issuing user none) with users := saveUser s.users user }
  | none =>
    if (findBySlackIdentity s.users identity.workspaceId identity.slackUserId).isSome ∨
        s.users.any fun user => user.id == id then s.at call .finished
    else
      let user := createUser s.users identity id
      { s.at call (.issuing user none) with users := s.users ++ [user] }

def endIssue (service : AuthService) (s : State) (call : Nat) (user : User)
    (presented : Option Signed) (now : Int) (salt : String) : State :=
  match service.issueTokens user now salt with
  | .error _ => s.at call .finished
  | .ok (tokens, hash) =>
    { s.at call .finished with
      users := setRefreshTokenHash s.users user.id (some hash)
      log := .issued user.id tokens.refreshToken ::
        ((presented.map (Entry.refreshed user.id)).toList ++ s.log) }

def step (service : AuthService) (s : State) : Act → Option State
  | .lookup call identity =>
    match s.phase call with
    | .waiting => some (s.at call (.found identity
        (findBySlackIdentity s.users identity.workspaceId identity.slackUserId)))
    | _ => none
  | .save call id =>
    match s.phase call with
    | .found identity existing => some (saveLogin s call identity existing id)
    | _ => none
  | .refresh call token now =>
    match s.phase call, service.refresh s.users token now with
    | .waiting, .ok user => some (s.at call (.issuing user (some token)))
    | .waiting, .error _ => some (s.at call .finished)
    | _, _ => none
  | .switchWorkspace call userId workspaceId =>
    match s.phase call, AuthService.switchWorkspace s.users userId workspaceId with
    | .waiting, .ok target => some (s.at call (.issuing target none))
    | .waiting, .error _ => some (s.at call .finished)
    | _, _ => none
  | .issue call now salt =>
    match s.phase call with
    | .issuing user presented => some (endIssue service s call user presented now salt)
    | _ => none
  | .logout userId =>
    some { s with users := AuthService.logout s.users userId, log := .loggedOut userId :: s.log }

abbrev Step (service : AuthService) (s : State) (a : Act) (t : State) : Prop :=
  step service s a = some t

/-- The token last issued for a row, unless a logout followed. -/
def latest (log : List Entry) (id : UuidText) : Option Signed :=
  (log.findSome? fun entry =>
    match entry with
    | .issued other token => if other = id then some (some token) else none
    | .loggedOut other => if other = id then some none else none
    | .refreshed _ _ => none).join

/-- The one token a rotation leaves in force. -/
def Current (log : List Entry) (id : UuidText) (token : Signed) : Prop :=
  latest log id = some token ∧ .refreshed id token ∉ log

/-- A refresh token as `issueTokens` signs it for a user. -/
def Minted (service : AuthService) (token : Signed) : Prop :=
  ∃ user iat expiresIn,
    token = Jwt.sign service.jwt.refreshSecret (jwtPayload user) iat expiresIn

/-- A refresh accepts the current token of the user and no other. -/
def Rotates (service : AuthService) (x : Transition State Act) : Prop :=
  match x.label with
  | .refresh _ token now => Minted service token → ∀ user,
      service.refresh x.pre.users token now = .ok user → Current x.pre.log user.id token
  | _ => True

/-- Whoever presents a token in its lifetime while its user is active, with a hash stored,
presents the current one. -/
def PresentsCurrent (service : AuthService) (x : Transition State Act) : Prop :=
  match x.label with
  | .refresh _ token now => Minted service token → ∀ claims user,
      Jwt.verify service.jwt.refreshSecret now token = some claims →
      findById x.pre.users (AuthService.subject claims) = some user → user.isActive = true →
      user.refreshTokenHash ≠ none → Current x.pre.log user.id token
  | _ => True

/-! Every hash a row or a call holds is that of a token of the same user -/

section
variable {service : AuthService}

structure Inv (service : AuthService) (s : State) : Prop where
  rows : ∀ user ∈ s.users, Hashed service user
  found : ∀ call identity user, s.phase call = .found identity (some user) → Hashed service user

theorem minted_of_user {token : Signed} (minted : Minted service token) :
    ∃ id, OfUser token id := by
  obtain ⟨user, iat, expiresIn, rfl⟩ := minted
  exact ⟨user.id, rfl⟩

theorem hashed_issued {user : User} {now : Int} {salt : String} {tokens : AuthTokens}
    {hash : Bcrypt.Hash} (issued : service.issueTokens user now salt = .ok (tokens, hash)) (row : User)
    (own : row.id = user.id) : Hashed service { row with refreshTokenHash := some hash } := by
  unfold AuthService.issueTokens at issued
  split at issued
  · cases issued
  · split at issued
    · cases issued
      intro hash same
      cases same
      refine ⟨salt, _, ?_, rfl⟩
      change some _ = some (_, Jwt.Claim.text row.id.text)
      rw [own]
    · cases issued

theorem hashed_rows {users : List User} {id : UuidText} {hash : Option Bcrypt.Hash}
    (rows : ∀ user ∈ users, Hashed service user)
    (own : ∀ user : User, user.id = id → Hashed service { user with refreshTokenHash := hash }) :
    ∀ user ∈ setRefreshTokenHash users id hash, Hashed service user := by
  intro user member
  obtain ⟨row, present, rfl⟩ := List.mem_map.mp member
  split
  · rename_i same
    exact own row same
  · exact rows row present

theorem hashed_save {users : List User} {user : User} (rows : ∀ row ∈ users, Hashed service row)
    (saved : Hashed service user) : ∀ row ∈ saveUser users user, Hashed service row := by
  intro row member
  unfold saveUser at member
  split at member
  · obtain ⟨old, present, rfl⟩ := List.mem_map.mp member
    split
    · exact saved
    · exact rows old present
  · rcases List.mem_append.mp member with old | new
    · exact rows row old
    · rw [List.mem_singleton.mp new]
      exact saved

/-- A call moves on; what it holds of a login is a row of the table. -/
theorem Inv.at {s : State} (inv : Inv service s) (call : Nat) {phase : Phase}
    (held : ∀ identity user, phase = .found identity (some user) → Hashed service user)
    {users : List User} (rows : ∀ user ∈ users, Hashed service user) (log : List Entry) :
    Inv service { s.at call phase with users, log } := by
  refine ⟨rows, fun other identity user now => ?_⟩
  change Function.update s.phase call phase other = _ at now
  by_cases same : other = call
  · rw [same, Function.update_self] at now
    exact held identity user now
  · rw [Function.update_of_ne same] at now
    exact inv.found other identity user now

theorem inv_saveLogin {s : State} {call : Nat} {identity : SlackIdentity} {existing : Option User}
    (id : UuidText) (inv : Inv service s) (held : s.phase call = .found identity existing) :
    Inv service (saveLogin s call identity existing id) := by
  unfold saveLogin
  cases existing with
  | some user =>
    have saved : Hashed service (reactivate user identity) := inv.found call identity user held
    exact inv.at call (fun _ _ same => by cases same) (hashed_save inv.rows saved) s.log
  | none =>
    dsimp only
    split
    · exact inv.at call (fun _ _ same => by cases same) inv.rows s.log
    · refine inv.at call (fun _ _ same => by cases same) ?_ s.log
      intro row member
      rcases List.mem_append.mp member with old | new
      · exact inv.rows row old
      · rw [List.mem_singleton.mp new]
        intro hash none
        cases none

theorem inv_step {s t : State} {a : Act} (inv : Inv service s)
    (taken : step service s a = some t) : Inv service t := by
  cases a with
  | lookup call identity =>
    simp only [step] at taken
    split at taken <;> cases taken
    refine inv.at call (fun other user same => ?_) inv.rows s.log
    obtain ⟨_, found⟩ := Phase.found.inj same
    exact inv.rows user (List.mem_of_find?_eq_some found)
  | save call id =>
    simp only [step] at taken
    split at taken <;> cases taken
    rename_i identity existing held
    exact inv_saveLogin id inv held
  | refresh call token now =>
    simp only [step] at taken
    split at taken <;> cases taken
    all_goals exact inv.at call (fun _ _ same => by cases same) inv.rows s.log
  | switchWorkspace call userId workspaceId =>
    simp only [step] at taken
    split at taken <;> cases taken
    all_goals exact inv.at call (fun _ _ same => by cases same) inv.rows s.log
  | issue call now salt =>
    simp only [step] at taken
    split at taken <;> cases taken
    unfold endIssue
    split
    · exact inv.at call (fun _ _ same => by cases same) inv.rows s.log
    · rename_i user presented _ tokens hash issued
      refine inv.at call (fun _ _ same => by cases same) ?_ _
      exact hashed_rows inv.rows (hashed_issued issued)
  | logout userId =>
    cases taken
    refine ⟨hashed_rows inv.rows fun user _ hash none => ?_, inv.found⟩
    cases none

/-- Rotation holds exactly in the runs in which nobody presents a superseded token. -/
theorem rotates_iff {users : List User} (unissued : ∀ user ∈ users, user.refreshTokenHash = none)
    {steps : List (Transition State Act)} {s : State}
    (run : Run (Step service) (start users) steps s) :
    (∀ x ∈ steps, Rotates service x) ↔ ∀ x ∈ steps, PresentsCurrent service x := by
  have initial : Inv service (start users) := by
    refine ⟨fun user member hash stored => ?_, fun _ _ _ held => by cases held⟩
    rw [unissued user member] at stored
    cases stored
  refine Run.forall_iff _ _ initial (fun _ _ _ inv taken => inv_step inv taken) ?_ run
  intro s a t inv taken
  cases a with
  | refresh call token now =>
    simp only [Rotates, PresentsCurrent]
    refine imp_congr_right fun minted => ?_
    obtain ⟨id, own⟩ := minted_of_user minted
    have accepted : ∀ user, service.refresh s.users token now = .ok user ↔ _ := fun user =>
      @refresh_ok_iff service s.users user token now inv.rows id own
    constructor
    · intro rotates claims user verified found active stored
      apply rotates user
      obtain ⟨_, _, rfl⟩ := Jwt.verify_eq_some_iff.mp verified
      rw [subject_of_user own] at found
      exact (accepted user).mpr ⟨⟨_, verified⟩, found, active, stored⟩
    · intro current user ok
      obtain ⟨⟨claims, verified⟩, found, active, stored⟩ := (accepted user).mp ok
      apply current claims user verified _ active stored
      obtain ⟨_, _, rfl⟩ := Jwt.verify_eq_some_iff.mp verified
      rw [subject_of_user own]
      exact found
  | _ => exact Iff.rfl

end

/-- A deployment with the default lifetimes. -/
def devService : AuthService where
  jwt := ⟨"super-secret-key", "15m", "refresh-secret-key", "7d"⟩
  hmac := fun secret _ => secret.toList
  digest := fun salt input => salt ++ String.ofList (input.map fun b => Char.ofNat b.toNat)
  seconds := fun span => if span = "15m" then some 900 else if span = "7d" then some 604800 else none

def adaId : UuidText := ⟨"a3f1c2d4-0000-4000-8000-000000000001", by decide⟩

def adaIdentity : SlackIdentity := ⟨"a3f1c2d4-0000-4000-8000-000000000002", "U123", none⟩

/-- The refresh token Ada is issued at the second `now`. -/
def adaToken (now : Int) : Signed :=
  Jwt.sign devService.jwt.refreshSecret (jwtPayload (createUser [] adaIdentity adaId)) now 604800

def signIn : List Act := [.lookup 0 adaIdentity, .save 0 adaId, .issue 0 0 "salt"]

/-- After the first refresh its token is presented once more. -/
def replay : List Act :=
  signIn ++ [.refresh 1 (adaToken 0) 60, .issue 1 60 "salt", .refresh 2 (adaToken 0) 120]

theorem adaToken_minted (now : Int) : Minted devService (adaToken now) := ⟨_, _, _, rfl⟩

/-- Whether the step kept to the rotation, for runs that can be computed. -/
def kept (x : Transition State Act) : Bool :=
  match x.label with
  | .refresh _ token now =>
    match devService.refresh x.pre.users token now with
    | .ok user => decide (latest x.pre.log user.id = some token ∧
        Entry.refreshed user.id token ∉ x.pre.log)
    | .error _ => true
  | _ => true

theorem kept_iff {x : Transition State Act}
    (minted : ∀ call token now, x.label = .refresh call token now → Minted devService token) :
    kept x = true ↔ Rotates devService x := by
  unfold kept Rotates
  cases label : x.label with
  | refresh call token now =>
    have own := minted call token now label
    dsimp only
    cases outcome : devService.refresh x.pre.users token now with
    | error e => simp
    | ok user => simp [own, Current]
  | _ => simp

/-- Every refresh of the run presents a token of Ada's. -/
def presentsAda (x : Transition State Act) : Bool :=
  match x.label with
  | .refresh _ token _ => [adaToken 0, adaToken 60].contains token
  | _ => true

theorem minted_of_presentsAda {x : Transition State Act} (own : presentsAda x = true) :
    ∀ call token now, x.label = .refresh call token now → Minted devService token := by
  intro call token now label
  simp only [presentsAda, label, List.contains_cons, Bool.or_eq_true, beq_iff_eq] at own
  rcases own with rfl | rfl | none
  · exact adaToken_minted 0
  · exact adaToken_minted 60
  · cases none

theorem superseded_token_accepted :
    ∃ steps s, Run (Step devService) (start []) steps s ∧ ¬ ∀ x ∈ steps, Rotates devService x := by
  have outcome : ((follow (step devService) (start []) replay).map fun r =>
      (r.1.all presentsAda, r.1.all kept)) = some (true, false) := by decide +kernel
  obtain ⟨⟨steps, s⟩, done, facts⟩ := Option.map_eq_some_iff.mp outcome
  simp only [Prod.mk.injEq] at facts
  refine ⟨steps, s, follow_run done, fun all => ?_⟩
  have every : steps.all kept = true := by
    apply List.all_eq_true.mpr
    intro x member
    have own := List.all_eq_true.mp facts.1 x member
    exact (kept_iff (minted_of_presentsAda own)).mpr (all x member)
  cases every.symm.trans facts.2

theorem current_token_rotates :
    ∃ steps s, Run (Step devService) (start []) steps s ∧ steps ≠ [] ∧
      ∀ x ∈ steps, PresentsCurrent devService x := by
  have outcome : ((follow (step devService) (start [])
      (signIn ++ [.refresh 1 (adaToken 0) 60, .issue 1 60 "salt", .refresh 2 (adaToken 60) 120])).map
        fun r => (r.1.all presentsAda, r.1.all kept, r.1.isEmpty)) = some (true, true, false) := by
    decide +kernel
  obtain ⟨⟨steps, s⟩, done, facts⟩ := Option.map_eq_some_iff.mp outcome
  simp only [Prod.mk.injEq] at facts
  obtain ⟨ada, keeps, nonempty⟩ := facts
  refine ⟨steps, s, follow_run done, ?_, ?_⟩
  · rintro rfl
    cases nonempty
  · refine (rotates_iff (fun _ none => by cases none) (follow_run done)).mp fun x member => ?_
    have own := List.all_eq_true.mp ada x member
    exact (kept_iff (minted_of_presentsAda own)).mp (List.all_eq_true.mp keeps x member)

end Gomer.Rotation
