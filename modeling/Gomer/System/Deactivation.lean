import Gomer.Auth.Domains
import Gomer.Lib.Trace
import Gomer.Slack.Events
import Gomer.Users.Members

/-! What members can do for themselves after an admin has switched them off: signing in through
Slack, refreshing tokens, writing to the bot, opening a Space. -/
namespace Gomer.Deactivation

open Trace Users Slack
open Jwt (Signed)

/-- `deactivated` has the members that an admin has switched off and none has switched on or invited
again; `pairs`, `runs` and `sessions` have whom a token pair, a run of the AI service and a session
of a Space was given, the latest first. -/
structure State where
  users : List User
  workspaces : List Workspace
  seen : List String
  deactivated : List UuidText
  pairs : List UuidText
  runs : List (Option UuidText)
  sessions : List UuidText

def start (users : List User) : State := ⟨users, [], [], [], [], [], []⟩

inductive Act where
  | setActive (workspaceId : String) (callerUserId targetUserId : UuidText) (isActive : Bool)
  | updateRole (workspaceId : String) (callerUserId targetUserId : UuidText) (role : UserRole)
  | invite (callerUserId : UuidText) (identity : SlackIdentity) (id : UuidText)
  | install (workspaces : List Workspace)
  | signIn (identity : SlackIdentity) (id : UuidText) (now : Int) (salt : String)
  | refresh (token : Signed) (now : Int) (salt : String)
  /-- `profile` is the email of the sender's Slack profile, where it can be read. -/
  | message (envelope : SlackEventEnvelope) (profile : Option (Option String)) (id : UuidText)
  /-- `owner` is the workspace of the published Space, if there is one at the slug. -/
  | workspaceSession (owner : Option String) (workspaceId userId : String)

def administers (s : State) (workspaceId : String) (callerUserId : UuidText) : Bool :=
  s.users.any fun user => user.id == callerUserId && isAdmin workspaceId user

def setActiveBy (s : State) (workspaceId : String) (callerUserId targetUserId : UuidText)
    (isActive : Bool) : State :=
  let next := setActive callerUserId targetUserId isActive
    (Users.findMember s.users workspaceId targetUserId)
  match next.settled s.users workspaceId with
  | none => s
  | some entity =>
    { s with
      users := saveUser s.users entity
      deactivated :=
        if isActive then s.deactivated.filter (· ≠ entity.id) else entity.id :: s.deactivated }

def updateRoleBy (s : State) (workspaceId : String) (targetUserId : UuidText) (role : UserRole) :
    State :=
  let next := updateRole targetUserId role (Users.findMember s.users workspaceId targetUserId)
  match next.settled s.users workspaceId with
  | none => s
  | some entity => { s with users := saveUser s.users entity }

def invite (s : State) (identity : SlackIdentity) (id : UuidText) : State :=
  match provisionInvited s.users identity id with
  | none => s
  | some (users, member) =>
    { s with users := users, deactivated := s.deactivated.filter (· ≠ member.id) }

/-- `AuthService.issueTokens`, with the hash that it stores. -/
def issueTokens (service : AuthService) (s : State) (user : User) (now : Int) (salt : String) :
    State :=
  match service.issueTokens user now salt with
  | .error _ => s
  | .ok (_, hash) =>
    { s with
      users := setRefreshTokenHash s.users user.id (some hash)
      pairs := user.id :: s.pairs }

/-- `handleSlackCallback` -/
def signIn (service : AuthService) (s : State) (identity : SlackIdentity) (id : UuidText)
    (now : Int) (salt : String) : State :=
  match upsertFromSlack s.users identity none id with
  | none => s
  | some (users, user) => issueTokens service { s with users := users } user now salt

def refresh (service : AuthService) (s : State) (token : Signed) (now : Int) (salt : String) :
    State :=
  match service.refresh s.users token now with
  | .error _ => s
  | .ok user => issueTokens service s user now salt

/-- The member under whose id the AI service runs; a sender without a row is provisioned. -/
def answer (s : State) (workspace : Workspace) (sender : Option String)
    (profile : Option (Option String)) (id : UuidText) : State :=
  match sender with
  | none => { s with runs := none :: s.runs }
  | some slackUserId =>
    match findBySlackIdentity s.users workspace.id slackUserId with
    | some member => { s with runs := some member.id :: s.runs }
    | none =>
      match profile.bind fun email =>
          upsertFromSlack s.users ⟨workspace.id, slackUserId, email⟩ (some .member) id with
      | none => { s with runs := none :: s.runs }
      | some (users, member) => { s with users := users, runs := some member.id :: s.runs }

/-- `handleEventCallback`, for messages. -/
def message (s : State) (envelope : SlackEventEnvelope) (profile : Option (Option String))
    (id : UuidText) : State :=
  if isRepeated s.seen envelope then s
  else
    let heard := { s with
      seen := ((nonEmpty envelope.eventId).map (rememberEventId s.seen)).getD s.seen }
    match answering s.workspaces envelope with
    | none => heard
    | some workspace => answer heard workspace (nonEmpty envelope.event.user) profile id

/-- `SpacesAuthService.workspaceSession`, up to the session. -/
def workspaceSession (s : State) (owner : Option String) (workspaceId userId : String) :
    Except HttpException User :=
  match owner with
  | none => .error (.notFound "Space not found")
  | some owner =>
    if owner ≠ workspaceId then
      let current := s.workspaces.find? fun workspace => workspace.id == workspaceId
      let signedInTo := match nonEmpty (current.map (·.name)) with
        | some name => "the " ++ name ++ " workspace"
        | none => "another workspace"
      .error ⟨403, "You’re signed in to Gaspo on " ++ signedInTo ++
        ", but this app belongs to a different one. " ++
        "Sign in below with the email on that team’s Slack, or sign in to Gaspo with Slack on " ++
        "that workspace.", []⟩
    else
      match findById s.users userId with
      | none => .error (.unauthorized "Your Gaspo account is not active")
      | some user =>
        if user.isActive = false then .error (.unauthorized "Your Gaspo account is not active")
        else if nonEmpty user.email = none then
          .error ⟨403, "Your Gaspo account has no email address on file. " ++
            "Sign in below with the email on your Slack profile.", []⟩
        else .ok user

def step (service : AuthService) (s : State) : Act → Option State
  | .setActive workspaceId callerUserId targetUserId isActive =>
    if administers s workspaceId callerUserId then
      some (setActiveBy s workspaceId callerUserId targetUserId isActive)
    else none
  | .updateRole workspaceId callerUserId targetUserId role =>
    if administers s workspaceId callerUserId then
      some (updateRoleBy s workspaceId targetUserId role)
    else none
  | .invite callerUserId identity id =>
    if administers s identity.workspaceId callerUserId then some (invite s identity id) else none
  | .install workspaces => some { s with workspaces := workspaces }
  | .signIn identity id now salt => some (signIn service s identity id now salt)
  | .refresh token now salt => some (refresh service s token now salt)
  | .message envelope profile id => some (message s envelope profile id)
  | .workspaceSession owner workspaceId userId =>
    match workspaceSession s owner workspaceId userId with
    | .error _ => some s
    | .ok user => some { s with sessions := user.id :: s.sessions }

abbrev Step (service : AuthService) (s : State) (a : Act) (t : State) : Prop :=
  step service s a = some t

/-! The law, and the condition on a step -/

def Inactive (users : List User) (id : UuidText) : Prop :=
  ∀ user ∈ users, user.id = id → user.isActive = false

def Listed (users : List User) (id : UuidText) : Prop := ∃ user ∈ users, user.id = id

/-- The member is left inactive, and is given nothing on the way from `s` to `t`. -/
structure ShutOut (s t : State) (id : UuidText) : Prop where
  inactive : Inactive t.users id
  pairs : t.pairs.count id = s.pairs.count id
  runs : t.runs.count (some id) = s.runs.count (some id)
  sessions : t.sessions.count id = s.sessions.count id

/-- Members that are switched off, and that the step does not switch on or invite again, are shut
out. -/
def Sticks (x : Transition State Act) : Prop :=
  ∀ id ∈ x.pre.deactivated, id ∈ x.post.deactivated → ShutOut x.pre x.post id

/-- No member that is switched off signs in through Slack or has a message answered. -/
def KeepsAway (x : Transition State Act) : Prop :=
  match x.label with
  | .signIn identity _ _ _ => ∀ user,
      findBySlackIdentity x.pre.users identity.workspaceId identity.slackUserId = some user →
      user.id ∉ x.pre.deactivated
  | .message envelope _ _ => isRepeated x.pre.seen envelope = false → ∀ workspace slackUserId user,
      answering x.pre.workspaces envelope = some workspace →
      nonEmpty envelope.event.user = some slackUserId →
      findBySlackIdentity x.pre.users workspace.id slackUserId = some user →
      user.id ∉ x.pre.deactivated
  | _ => True

/-- Who is switched off has a row, and it is inactive. -/
structure Inv (s : State) : Prop where
  inactive : ∀ id ∈ s.deactivated, Inactive s.users id
  stored : ∀ id ∈ s.deactivated, Listed s.users id

/-! What the writes do to the rows of one member -/

section
variable {users : List User} {id : UuidText}

theorem inactive_saveUser {user : User} (inactive : Inactive users id)
    (saved : user.id = id → user.isActive = false) : Inactive (saveUser users user) id := by
  intro row known same
  rcases mem_saveUser.mp known with rfl | ⟨listed, _⟩
  · exact saved same
  · exact inactive row listed same

theorem inactive_insertUser {inserted : List User} {user : User} (inactive : Inactive users id)
    (stored : insertUser users user = some inserted) (apart : user.id ≠ id) :
    Inactive inserted id := by
  obtain ⟨rfl, _⟩ := insertUser_some stored
  intro row known same
  rcases List.mem_append.mp known with listed | new
  · exact inactive row listed same
  · rw [List.mem_singleton.mp new] at same
    exact absurd same apart

theorem inactive_setRefreshTokenHash {other : UuidText} {hash : Option Bcrypt.Hash} :
    Inactive (setRefreshTokenHash users other hash) id ↔ Inactive users id := by
  unfold Inactive setRefreshTokenHash
  rw [List.forall_mem_map]
  refine forall₂_congr fun user _ => ?_
  split <;> rfl

theorem known_saveUser {user : User} (known : Listed users id) :
    Listed (saveUser users user) id := by
  obtain ⟨row, listed, rfl⟩ := known
  by_cases same : row.id = user.id
  · exact ⟨user, mem_saveUser.mpr (.inl rfl), same.symm⟩
  · exact ⟨row, mem_saveUser.mpr (.inr ⟨listed, same⟩), rfl⟩

theorem known_insertUser {inserted : List User} {user : User}
    (known : Listed users id) (stored : insertUser users user = some inserted) :
    Listed inserted id := by
  obtain ⟨rfl, _⟩ := insertUser_some stored
  obtain ⟨row, listed, same⟩ := known
  exact ⟨row, List.mem_append_left _ listed, same⟩

theorem known_setRefreshTokenHash {other : UuidText} {hash : Option Bcrypt.Hash}
    (known : Listed users id) :
    Listed (setRefreshTokenHash users other hash) id := by
  obtain ⟨row, listed, rfl⟩ := known
  refine ⟨_, List.mem_map_of_mem listed, ?_⟩
  split <;> rfl

/-- The rows of others stay as they are. -/
theorem upsert_inactive {after : List User} {identity : SlackIdentity} {role : Option UserRole}
    {new : UuidText} {user : User}
    (upserted : upsertFromSlack users identity role new = some (after, user))
    (inactive : Inactive users id) (apart : user.id ≠ id) : Inactive after id := by
  obtain ⟨_, ⟨existing, _, _, rfl⟩ | ⟨_, stored⟩⟩ := upsertFromSlack_some upserted
  · exact inactive_saveUser inactive fun same => absurd same apart
  · exact inactive_insertUser inactive stored apart

/-- Who has a row is upserted only under that row's identity. -/
theorem upsert_apart {after : List User} {identity : SlackIdentity} {role : Option UserRole}
    {new : UuidText} {user : User}
    (upserted : upsertFromSlack users identity role new = some (after, user))
    (known : Listed users id)
    (other : ∀ existing, findBySlackIdentity users identity.workspaceId identity.slackUserId =
      some existing → existing.id ≠ id) : user.id ≠ id := by
  obtain ⟨_, ⟨existing, found, own, _⟩ | ⟨_, stored⟩⟩ := upsertFromSlack_some upserted
  · rw [own]
    exact other existing found
  · obtain ⟨_, fresh⟩ := insertUser_some stored
    obtain ⟨row, listed, same⟩ := known
    rw [← same]
    exact (fresh row listed).symm

theorem known_upsert {after : List User} {identity : SlackIdentity} {role : Option UserRole}
    {new : UuidText} {user : User}
    (upserted : upsertFromSlack users identity role new = some (after, user))
    (known : Listed users id) : Listed after id := by
  obtain ⟨_, ⟨existing, _, _, rfl⟩ | ⟨_, stored⟩⟩ := upsertFromSlack_some upserted
  · exact known_saveUser known
  · exact known_insertUser known stored

/-- The upserted row is stored, and active. -/
theorem not_inactive_upsert {after : List User} {identity : SlackIdentity} {role : Option UserRole}
    {new : UuidText} {user : User}
    (upserted : upsertFromSlack users identity role new = some (after, user)) :
    ¬ Inactive after user.id := by
  obtain ⟨active, ⟨existing, _, _, rfl⟩ | ⟨_, stored⟩⟩ := upsertFromSlack_some upserted
  · intro inactive
    have off := inactive user (mem_saveUser.mpr (.inl rfl)) rfl
    exact Bool.noConfusion (off.symm.trans active)
  · obtain ⟨rfl, _⟩ := insertUser_some stored
    intro inactive
    have off := inactive user (List.mem_append_right _ List.mem_cons_self) rfl
    exact Bool.noConfusion (off.symm.trans active)

end

/-! What the steps do to one member -/

section
variable {service : AuthService} {s t : State} {user : User} {now : Int} {salt : String}
  {id : UuidText}

theorem ShutOut.refl (inactive : Inactive s.users id) : ShutOut s s id := ⟨inactive, rfl, rfl, rfl⟩

theorem refresh_active {users : List User} {token : Signed}
    (accepted : service.refresh users token now = .ok user) :
    user ∈ users ∧ user.isActive = true := by
  unfold AuthService.refresh at accepted
  split at accepted
  · cases accepted
  · split at accepted
    · cases accepted
    · rename_i row found
      split at accepted
      · cases accepted
      · split at accepted
        · cases accepted
        · rename_i active
          split at accepted <;> cases accepted
          exact ⟨(findById_some found).1, Bool.eq_true_of_not_eq_false active⟩

theorem issueTokens_deactivated :
    (issueTokens service s user now salt).deactivated = s.deactivated := by
  unfold issueTokens
  split <;> rfl

theorem issueTokens_inactive :
    Inactive (issueTokens service s user now salt).users id ↔ Inactive s.users id := by
  unfold issueTokens
  split
  · exact Iff.rfl
  · exact inactive_setRefreshTokenHash

theorem known_issueTokens (known : Listed s.users id) :
    Listed (issueTokens service s user now salt).users id := by
  unfold issueTokens
  split
  · exact known
  · exact known_setRefreshTokenHash known

theorem issueTokens_shutOut (inactive : Inactive s.users id) (apart : user.id ≠ id) :
    ShutOut s (issueTokens service s user now salt) id := by
  unfold issueTokens
  split
  · exact .refl inactive
  · exact ⟨inactive_setRefreshTokenHash.mpr inactive, List.count_cons_of_ne apart, rfl, rfl⟩

theorem signIn_deactivated {identity : SlackIdentity} {new : UuidText} :
    (signIn service s identity new now salt).deactivated = s.deactivated := by
  unfold signIn
  split
  · rfl
  · exact issueTokens_deactivated

theorem known_signIn {identity : SlackIdentity} {new : UuidText} (known : Listed s.users id) :
    Listed (signIn service s identity new now salt).users id := by
  unfold signIn
  split
  · exact known
  · rename_i upserted
    exact known_issueTokens (known_upsert upserted known)

theorem signIn_shutOut {identity : SlackIdentity} {new : UuidText} (inactive : Inactive s.users id)
    (known : Listed s.users id)
    (other : ∀ existing, findBySlackIdentity s.users identity.workspaceId identity.slackUserId =
      some existing → existing.id ≠ id) : ShutOut s (signIn service s identity new now salt) id := by
  unfold signIn
  split
  · exact .refl inactive
  · rename_i users user upserted
    have apart := upsert_apart upserted known other
    have issued : ShutOut { s with users := users }
        (issueTokens service { s with users := users } user now salt) id :=
      issueTokens_shutOut (upsert_inactive upserted inactive apart) apart
    exact ⟨issued.inactive, issued.pairs, issued.runs, issued.sessions⟩

/-- A sign-in switches its own row on. -/
theorem not_inactive_signIn {identity : SlackIdentity} {new : UuidText} {existing : User}
    (found : findBySlackIdentity s.users identity.workspaceId identity.slackUserId = some existing) :
    ¬ Inactive (signIn service s identity new now salt).users existing.id := by
  have upserted : upsertFromSlack s.users identity none new =
      some (saveUser s.users (reactivate existing identity), reactivate existing identity) := by
    unfold upsertFromSlack
    rw [found]
  unfold signIn
  rw [upserted]
  exact fun off => not_inactive_upsert upserted (issueTokens_inactive.mp off)

theorem refresh_deactivated {token : Signed} :
    (refresh service s token now salt).deactivated = s.deactivated := by
  unfold refresh
  split
  · rfl
  · exact issueTokens_deactivated

theorem known_refresh {token : Signed} (known : Listed s.users id) :
    Listed (refresh service s token now salt).users id := by
  unfold refresh
  split
  · exact known
  · exact known_issueTokens known

theorem refresh_shutOut {token : Signed} (inactive : Inactive s.users id) :
    ShutOut s (refresh service s token now salt) id := by
  unfold refresh
  split
  · exact .refl inactive
  · rename_i user accepted
    obtain ⟨known, active⟩ := refresh_active accepted
    refine issueTokens_shutOut inactive fun same => ?_
    exact Bool.noConfusion (active.symm.trans (inactive user known same))

theorem answer_deactivated {workspace : Workspace} {sender : Option String}
    {profile : Option (Option String)} {new : UuidText} :
    (answer s workspace sender profile new).deactivated = s.deactivated := by
  unfold answer
  split
  · rfl
  · split
    · rfl
    · split <;> rfl

theorem known_answer {workspace : Workspace} {sender : Option String}
    {profile : Option (Option String)} {new : UuidText} (known : Listed s.users id) :
    Listed (answer s workspace sender profile new).users id := by
  unfold answer
  split
  · exact known
  · split
    · exact known
    · split
      · exact known
      · rename_i provisioned
        obtain ⟨email, _, upserted⟩ := Option.bind_eq_some_iff.mp provisioned
        exact known_upsert upserted known

theorem answer_shutOut {workspace : Workspace} {sender : Option String}
    {profile : Option (Option String)} {new : UuidText} (inactive : Inactive s.users id)
    (known : Listed s.users id)
    (other : ∀ slackUserId existing, sender = some slackUserId →
      findBySlackIdentity s.users workspace.id slackUserId = some existing → existing.id ≠ id) :
    ShutOut s (answer s workspace sender profile new) id := by
  have anonymous : ShutOut s { s with runs := none :: s.runs } id :=
    ⟨inactive, rfl, List.count_cons_of_ne (Option.some_ne_none id).symm, rfl⟩
  unfold answer
  split
  · exact anonymous
  · rename_i slackUserId
    split
    · rename_i member found
      have apart := other slackUserId member rfl found
      exact ⟨inactive, rfl, List.count_cons_of_ne fun same => apart (Option.some.inj same), rfl⟩
    · rename_i absent
      split
      · exact anonymous
      · rename_i users member provisioned
        obtain ⟨email, _, upserted⟩ := Option.bind_eq_some_iff.mp provisioned
        have apart : member.id ≠ id := upsert_apart upserted known fun existing found => by
          cases absent.symm.trans found
        exact ⟨upsert_inactive upserted inactive apart, rfl,
          List.count_cons_of_ne fun same => apart (Option.some.inj same), rfl⟩

/-- A message is dropped, heard, or answered. -/
theorem message_cases (s : State) (envelope : SlackEventEnvelope) (profile : Option (Option String))
    (new : UuidText) :
    message s envelope profile new = s ∨ ∃ seen,
      message s envelope profile new = { s with seen := seen } ∨
        isRepeated s.seen envelope = false ∧ ∃ workspace,
          answering s.workspaces envelope = some workspace ∧
            message s envelope profile new = answer { s with seen := seen } workspace
              (nonEmpty envelope.event.user) profile new := by
  unfold message
  split
  · exact .inl rfl
  · rename_i first
    refine .inr ⟨((nonEmpty envelope.eventId).map (rememberEventId s.seen)).getD s.seen, ?_⟩
    dsimp only
    split
    · exact .inl rfl
    · rename_i workspace answers
      exact .inr ⟨Bool.eq_false_of_not_eq_true first, workspace, answers, rfl⟩

theorem message_deactivated {envelope : SlackEventEnvelope} {profile : Option (Option String)}
    {new : UuidText} : (message s envelope profile new).deactivated = s.deactivated := by
  rcases message_cases s envelope profile new with same | ⟨seen, same | ⟨_, workspace, _, same⟩⟩
  · rw [same]
  · rw [same]
  · rw [same]
    exact answer_deactivated

theorem known_message {envelope : SlackEventEnvelope} {profile : Option (Option String)}
    {new : UuidText} (known : Listed s.users id) :
    Listed (message s envelope profile new).users id := by
  rcases message_cases s envelope profile new with same | ⟨seen, same | ⟨_, workspace, _, same⟩⟩
  · rw [same]
    exact known
  · rw [same]
    exact known
  · rw [same]
    exact known_answer known

theorem message_shutOut {envelope : SlackEventEnvelope} {profile : Option (Option String)}
    {new : UuidText} (inactive : Inactive s.users id) (known : Listed s.users id)
    (other : isRepeated s.seen envelope = false → ∀ workspace slackUserId existing,
      answering s.workspaces envelope = some workspace →
      nonEmpty envelope.event.user = some slackUserId →
      findBySlackIdentity s.users workspace.id slackUserId = some existing → existing.id ≠ id) :
    ShutOut s (message s envelope profile new) id := by
  rcases message_cases s envelope profile new with same | ⟨seen, same | ⟨first, workspace, found, same⟩⟩
  · rw [same]
    exact .refl inactive
  · rw [same]
    exact ⟨inactive, rfl, rfl, rfl⟩
  · rw [same]
    have answered : ShutOut { s with seen := seen } (answer { s with seen := seen } workspace
        (nonEmpty envelope.event.user) profile new) id :=
      answer_shutOut inactive known (other first workspace · · found)
    exact ⟨answered.inactive, answered.pairs, answered.runs, answered.sessions⟩

/-- A message of someone with a row that is answered runs under their id. -/
theorem message_runs {envelope : SlackEventEnvelope} {profile : Option (Option String)}
    {new : UuidText} {workspace : Workspace} {slackUserId : String} {existing : User}
    (first : isRepeated s.seen envelope = false)
    (answers : answering s.workspaces envelope = some workspace)
    (sender : nonEmpty envelope.event.user = some slackUserId)
    (found : findBySlackIdentity s.users workspace.id slackUserId = some existing) :
    (message s envelope profile new).runs = some existing.id :: s.runs := by
  unfold message
  rw [if_neg (Bool.not_eq_true _ ▸ first)]
  dsimp only
  rw [answers, sender]
  dsimp only [answer]
  rw [found]

theorem setActiveBy_shutOut {workspaceId : String} {callerUserId targetUserId : UuidText}
    {isActive : Bool} (inactive : Inactive s.users id)
    (still : id ∈ (setActiveBy s workspaceId callerUserId targetUserId isActive).deactivated) :
    ShutOut s (setActiveBy s workspaceId callerUserId targetUserId isActive) id := by
  unfold setActiveBy at still ⊢
  dsimp only at still ⊢
  split
  · exact .refl inactive
  · rename_i entity settled
    obtain ⟨target, _, rfl⟩ := setActive_settled settled
    rw [settled] at still
    refine ⟨inactive_saveUser inactive fun same => ?_, rfl, rfl, rfl⟩
    cases isActive with
    | false => rfl
    | true =>
      have apart := (List.mem_filter.mp still).2
      exact absurd same.symm (of_decide_eq_true apart)

theorem setActiveBy_deactivated {workspaceId : String} {callerUserId targetUserId : UuidText}
    {isActive : Bool}
    (switched : id ∈ (setActiveBy s workspaceId callerUserId targetUserId isActive).deactivated) :
    id ∈ s.deactivated ∨
      Inactive (setActiveBy s workspaceId callerUserId targetUserId isActive).users id ∧
        Listed (setActiveBy s workspaceId callerUserId targetUserId isActive).users id := by
  unfold setActiveBy at switched ⊢
  dsimp only at switched ⊢
  split
  · rename_i nothing
    rw [nothing] at switched
    exact .inl switched
  · rename_i entity settled
    obtain ⟨target, _, rfl⟩ := setActive_settled settled
    rw [settled] at switched
    cases isActive with
    | true => exact .inl (List.mem_filter.mp switched).1
    | false =>
      rcases List.mem_cons.mp switched with rfl | before
      · refine .inr ⟨fun row known same => ?_, _, mem_saveUser.mpr (.inl rfl), rfl⟩
        rcases mem_saveUser.mp known with rfl | ⟨_, apart⟩
        · rfl
        · exact absurd same apart
      · exact .inl before

theorem known_setActiveBy {workspaceId : String} {callerUserId targetUserId : UuidText}
    {isActive : Bool} (known : Listed s.users id) :
    Listed (setActiveBy s workspaceId callerUserId targetUserId isActive).users id := by
  unfold setActiveBy
  dsimp only
  split
  · exact known
  · exact known_saveUser known

theorem updateRoleBy_shutOut {workspaceId : String} {targetUserId : UuidText} {role : UserRole}
    (inactive : Inactive s.users id) :
    ShutOut s (updateRoleBy s workspaceId targetUserId role) id := by
  unfold updateRoleBy
  dsimp only
  split
  · exact .refl inactive
  · rename_i entity settled
    obtain ⟨target, known, rfl⟩ := updateRole_settled settled
    exact ⟨inactive_saveUser inactive fun same => inactive target known same, rfl, rfl, rfl⟩

theorem updateRoleBy_deactivated {workspaceId : String} {targetUserId : UuidText}
    {role : UserRole} : (updateRoleBy s workspaceId targetUserId role).deactivated = s.deactivated := by
  unfold updateRoleBy
  dsimp only
  split <;> rfl

theorem known_updateRoleBy {workspaceId : String} {targetUserId : UuidText} {role : UserRole}
    (known : Listed s.users id) : Listed (updateRoleBy s workspaceId targetUserId role).users id := by
  unfold updateRoleBy
  dsimp only
  split
  · exact known
  · exact known_saveUser known

theorem invite_shutOut {identity : SlackIdentity} {new : UuidText} (inactive : Inactive s.users id)
    (still : id ∈ (invite s identity new).deactivated) : ShutOut s (invite s identity new) id := by
  unfold invite at still ⊢
  split
  · exact .refl inactive
  · rename_i users member provisioned
    rw [provisioned] at still
    rw [provisionInvited_eq] at provisioned
    have apart : id ≠ member.id := of_decide_eq_true (List.mem_filter.mp still).2
    exact ⟨upsert_inactive provisioned inactive apart.symm, rfl, rfl, rfl⟩

theorem invite_deactivated {identity : SlackIdentity} {new : UuidText}
    (still : id ∈ (invite s identity new).deactivated) : id ∈ s.deactivated := by
  unfold invite at still
  split at still
  · exact still
  · exact (List.mem_filter.mp still).1

theorem known_invite {identity : SlackIdentity} {new : UuidText} (known : Listed s.users id) :
    Listed (invite s identity new).users id := by
  unfold invite
  split
  · exact known
  · rename_i provisioned
    rw [provisionInvited_eq] at provisioned
    exact known_upsert provisioned known

/-! Every step -/

theorem step_listed {a : Act} (taken : Step service s a t) (known : Listed s.users id) :
    Listed t.users id := by
  cases a with
  | setActive workspaceId callerUserId targetUserId isActive =>
    simp only [Step, step] at taken
    split at taken <;> cases taken
    exact known_setActiveBy known
  | updateRole workspaceId callerUserId targetUserId role =>
    simp only [Step, step] at taken
    split at taken <;> cases taken
    exact known_updateRoleBy known
  | invite callerUserId identity new =>
    simp only [Step, step] at taken
    split at taken <;> cases taken
    exact known_invite known
  | install workspaces =>
    cases taken
    exact known
  | signIn identity new now salt =>
    cases taken
    exact known_signIn known
  | refresh token now salt =>
    cases taken
    exact known_refresh known
  | message envelope profile new =>
    cases taken
    exact known_message known
  | workspaceSession owner workspaceId userId =>
    simp only [Step, step] at taken
    split at taken <;> cases taken <;> exact known

/-- Only `setActive` switches anyone off. -/
theorem step_deactivated {a : Act} (taken : Step service s a t) (switched : id ∈ t.deactivated) :
    id ∈ s.deactivated ∨ Inactive t.users id ∧ Listed t.users id := by
  cases a with
  | setActive workspaceId callerUserId targetUserId isActive =>
    simp only [Step, step] at taken
    split at taken <;> cases taken
    exact setActiveBy_deactivated switched
  | updateRole workspaceId callerUserId targetUserId role =>
    simp only [Step, step] at taken
    split at taken <;> cases taken
    rw [updateRoleBy_deactivated] at switched
    exact .inl switched
  | invite callerUserId identity new =>
    simp only [Step, step] at taken
    split at taken <;> cases taken
    exact .inl (invite_deactivated switched)
  | install workspaces =>
    cases taken
    exact .inl switched
  | signIn identity new now salt =>
    cases taken
    rw [signIn_deactivated] at switched
    exact .inl switched
  | refresh token now salt =>
    cases taken
    rw [refresh_deactivated] at switched
    exact .inl switched
  | message envelope profile new =>
    cases taken
    rw [message_deactivated] at switched
    exact .inl switched
  | workspaceSession owner workspaceId userId =>
    simp only [Step, step] at taken
    split at taken <;> cases taken <;> exact .inl switched

theorem inv_step {a : Act} (inv : Inv s) (taken : Step service s a t)
    (sticks : Sticks ⟨s, a, t⟩) : Inv t := by
  constructor
  · intro id switched
    rcases step_deactivated taken switched with before | ⟨inactive, _⟩
    · exact (sticks id before switched).inactive
    · exact inactive
  · intro id switched
    rcases step_deactivated taken switched with before | ⟨_, known⟩
    · exact step_listed taken (inv.stored id before)
    · exact known

theorem workspaceSession_active {owner : Option String} {workspaceId userId : String}
    (opened : workspaceSession s owner workspaceId userId = .ok user) :
    user ∈ s.users ∧ user.isActive = true := by
  unfold workspaceSession at opened
  split at opened
  · cases opened
  · split at opened
    · cases opened
    · split at opened
      · cases opened
      · rename_i found
        split at opened
        · cases opened
        · rename_i active
          split at opened <;> cases opened
          exact ⟨(findById_some found).1, Bool.eq_true_of_not_eq_false active⟩

theorem step_sticks_iff {a : Act} (inv : Inv s) (taken : Step service s a t) :
    Sticks ⟨s, a, t⟩ ↔ KeepsAway ⟨s, a, t⟩ := by
  cases a with
  | setActive workspaceId callerUserId targetUserId isActive =>
    simp only [Step, step] at taken
    split at taken <;> cases taken
    exact iff_of_true (fun id before => setActiveBy_shutOut (inv.inactive id before)) trivial
  | updateRole workspaceId callerUserId targetUserId role =>
    simp only [Step, step] at taken
    split at taken <;> cases taken
    exact iff_of_true (fun id before _ => updateRoleBy_shutOut (inv.inactive id before)) trivial
  | invite callerUserId identity new =>
    simp only [Step, step] at taken
    split at taken <;> cases taken
    exact iff_of_true (fun id before => invite_shutOut (inv.inactive id before)) trivial
  | install workspaces =>
    cases taken
    refine iff_of_true (fun id before _ => ?_) trivial
    exact ⟨inv.inactive id before, rfl, rfl, rfl⟩
  | signIn identity new now salt =>
    cases taken
    constructor
    · intro sticks existing found before
      have out := sticks existing.id before (by rw [signIn_deactivated]; exact before)
      exact not_inactive_signIn found out.inactive
    · intro away id before _
      refine signIn_shutOut (inv.inactive id before) (inv.stored id before) ?_
      intro existing found same
      exact away existing found (same ▸ before)
  | refresh token now salt =>
    cases taken
    exact iff_of_true (fun id before _ => refresh_shutOut (inv.inactive id before)) trivial
  | message envelope profile new =>
    cases taken
    constructor
    · intro sticks first workspace slackUserId existing answers sender found before
      have out := sticks existing.id before (by rw [message_deactivated]; exact before)
      have runs := out.runs
      dsimp only at runs
      rw [message_runs first answers sender found, List.count_cons_self] at runs
      exact absurd runs (Nat.succ_ne_self _)
    · intro away id before _
      refine message_shutOut (inv.inactive id before) (inv.stored id before) ?_
      intro first workspace slackUserId existing answers sender found same
      exact away first workspace slackUserId existing answers sender found (same ▸ before)
  | workspaceSession owner workspaceId userId =>
    simp only [Step, step] at taken
    refine iff_of_true (fun id before _ => ?_) trivial
    split at taken
    · cases taken
      exact .refl (inv.inactive id before)
    · rename_i user opened
      cases taken
      obtain ⟨known, active⟩ := workspaceSession_active opened
      refine ⟨inv.inactive id before, rfl, rfl, List.count_cons_of_ne fun same => ?_⟩
      exact Bool.noConfusion (active.symm.trans (inv.inactive id before user known same))

end

/-- Who is switched off stays so, and is given no tokens, runs or sessions, exactly as long as no
such member signs in through Slack or has a message answered. -/
theorem deactivation_sticks_iff (service : AuthService) (users : List User)
    {steps : List (Transition State Act)} {s : State}
    (run : Run (Step service) (start users) steps s) :
    (∀ x ∈ steps, Sticks x) ↔ ∀ x ∈ steps, KeepsAway x := by
  have initial : Inv (start users) :=
    ⟨fun _ absent => absurd absent List.not_mem_nil, fun _ absent => absurd absent List.not_mem_nil⟩
  exact run.lawful_steps_iff Sticks KeepsAway initial (fun _ _ _ => inv_step)
    fun _ _ _ => step_sticks_iff

/-! Ada switches Ben off -/

def adaId : UuidText := ⟨"4be1c3f0-9a57-4c0e-8d22-7f6b5a1e0d31", by decide⟩
def benId : UuidText := ⟨"c7a90d52-3e14-4f8b-b6c1-2d9e8f7a6b40", by decide⟩

def team : List User :=
  [⟨adaId, "w1", "U1", none, .admin, true, none⟩, ⟨benId, "w1", "U2", none, .member, true, none⟩]

def gaspo : Workspace := ⟨"w1", "Acme", "T1", some "xoxb"⟩

/-- "hello", written to the bot. -/
def hello (slackUserId : String) : SlackEventEnvelope :=
  ⟨none, some "T1",
    { type := "message"
      channelType := some "im"
      channel := some "D1"
      user := some slackUserId
      text := some "hello" }⟩

/-- Ben signs in again, and has his account back; or he writes to the bot, which answers him. -/
theorem deactivation_undone :
    (∃ steps s, Run (Step (deployedService "secret" "other")) (start team) steps s ∧
      s.deactivated = [benId] ∧ s.users.map (·.isActive) = [true, true] ∧ s.pairs = [benId] ∧
      ¬ ∀ x ∈ steps, Sticks x) ∧
    ∃ steps s, Run (Step (deployedService "secret" "other")) (start team) steps s ∧
      s.deactivated = [benId] ∧ s.users.map (·.isActive) = [true, false] ∧
      s.runs = [some benId] ∧ ¬ ∀ x ∈ steps, Sticks x := by
  constructor
  · let acts : List Act := [.setActive "w1" adaId benId false, .signIn ⟨"w1", "U2", none⟩ adaId 0 "s"]
    have run := @follow_run _ _ (step (deployedService "secret" "other")) (start team) _ acts _ rfl
    refine ⟨_, _, run, rfl, rfl, rfl, fun sticks => ?_⟩
    have out := sticks _ (List.mem_cons_of_mem _ List.mem_cons_self) benId List.mem_cons_self
      List.mem_cons_self
    exact absurd out.pairs (by decide)
  · let acts : List Act := [.install [gaspo], .setActive "w1" adaId benId false,
      .message (hello "U2") none adaId]
    have run := @follow_run _ _ (step (deployedService "secret" "other")) (start team) _ acts _ rfl
    refine ⟨_, _, run, rfl, rfl, rfl, fun sticks => ?_⟩
    have out := sticks _ (List.mem_cons_of_mem _ (List.mem_cons_of_mem _ List.mem_cons_self)) benId
      List.mem_cons_self List.mem_cons_self
    exact absurd out.runs (by decide)

/-- Ben, switched off, is shut out of a Space while Ada signs in; she invites him again before he
does. -/
theorem deactivation_kept :
    ∃ steps s, Run (Step (deployedService "secret" "other")) (start team) steps s ∧
      s.users.map (·.isActive) = [true, true] ∧ s.pairs = [benId, adaId] ∧ s.sessions = [] ∧
      ∀ x ∈ steps, Sticks x := by
  let acts : List Act := [.setActive "w1" adaId benId false,
    .workspaceSession (some "w1") "w1" benId.text, .signIn ⟨"w1", "U1", none⟩ adaId 0 "s",
    .invite adaId ⟨"w1", "U2", none⟩ adaId, .signIn ⟨"w1", "U2", none⟩ adaId 0 "s"]
  have run := @follow_run _ _ (step (deployedService "secret" "other")) (start team) _ acts _ rfl
  refine ⟨_, _, run, rfl, rfl, rfl,
    (deactivation_sticks_iff (deployedService "secret" "other") team run).mpr fun x taken => ?_⟩
  simp only [List.mem_cons, List.not_mem_nil, or_false] at taken
  rcases taken with rfl | rfl | rfl | rfl | rfl
  · trivial
  · trivial
  · intro existing found before
    have ada : some adaId = some existing.id := congrArg (Option.map User.id) found
    rw [← Option.some.inj ada] at before
    exact absurd before (by decide)
  · trivial
  · exact fun _ _ => List.not_mem_nil

end Gomer.Deactivation
