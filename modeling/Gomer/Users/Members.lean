import Gomer.Auth.Tokens
import Gomer.Lib.Http

/-! `UsersService`: the members of a workspace, their roles, and whether they are active. A method
is given in its parts, between which it waits for the database. -/
namespace Gomer.Users

open HttpException

def isAdmin (workspaceId : String) (user : User) : Bool :=
  user.workspaceId == workspaceId && user.role == .admin && user.isActive

/-- `findOne({ where: { id, workspaceId } })` -/
def findMember (users : List User) (workspaceId : String) (id : UuidText) : Option User :=
  users.find? fun user => user.id == id && user.workspaceId == workspaceId

def countByWorkspace (users : List User) (workspaceId : String) : Nat :=
  users.countP fun user => user.workspaceId == workspaceId

/-- The active admins other than the target. -/
def otherAdmins (users : List User) (workspaceId : String) (targetUserId : UuidText) : Nat :=
  users.countP fun user => isAdmin workspaceId user && user.id != targetUserId

/-- How `setActive` or `updateRole` goes on with the target it has read: `count` looks for other
admins, and without any throws `refusal`. -/
inductive Next where
  | done (user : User)
  | failed (error : HttpException)
  | count (entity : User) (refusal : HttpException)
  | save (entity : User)

def targetNotFound (targetUserId : UuidText) : HttpException :=
  notFound ("User " ++ targetUserId.text ++ " not found in this workspace")

def setActive (callerUserId targetUserId : UuidText) (isActive : Bool) : Option User → Next
  | none => .failed (targetNotFound targetUserId)
  | some target =>
    if target.isActive = isActive then .done target
    else if isActive = false ∧ targetUserId = callerUserId then
      .failed (badRequest "You cannot deactivate your own account")
    else if isActive = false ∧ target.role = .admin then
      .count { target with isActive := isActive }
        (badRequest "A workspace must have at least one active admin")
    else .save { target with isActive := isActive }

def updateRole (targetUserId : UuidText) (role : UserRole) : Option User → Next
  | none => .failed (targetNotFound targetUserId)
  | some target =>
    if target.role = role then .done target
    else if target.role = .admin ∧ role = .member then
      .count { target with role := role } (badRequest "A workspace must have at least one admin")
    else .save { target with role := role }

/-- `input.role ?? (isFirstUser ? ADMIN : MEMBER)` -/
def newRole (role : Option UserRole) (isFirstUser : Bool) : UserRole :=
  role.getD (if isFirstUser then .admin else .member)

def newUser (identity : SlackIdentity) (role : UserRole) (id : UuidText) : User where
  id
  workspaceId := identity.workspaceId
  slackUserId := identity.slackUserId
  email := identity.email
  role
  isActive := true
  refreshTokenHash := none

/-- An insert must break no unique index. -/
def insertUser (users : List User) (user : User) : Option (List User) :=
  if (findBySlackIdentity users user.workspaceId user.slackUserId).isSome ∨
      users.any fun row => row.id == user.id then none
  else some (users ++ [user])

/-- `setActive` and `updateRole` with nothing in between: the entity that is saved. -/
def Next.settled (users : List User) (workspaceId : String) : Next → Option User
  | .count entity _ => if otherAdmins users workspaceId entity.id = 0 then none else some entity
  | .save entity => some entity
  | _ => none

def upsertFromSlack (users : List User) (identity : SlackIdentity) (role : Option UserRole)
    (id : UuidText) : Option (List User × User) :=
  match findBySlackIdentity users identity.workspaceId identity.slackUserId with
  | some existing => some (saveUser users (reactivate existing identity), reactivate existing identity)
  | none =>
    let isFirstUser := countByWorkspace users identity.workspaceId == 0
    let user := newUser identity (newRole role isFirstUser) id
    (insertUser users user).map fun users => (users, user)

/-- The row that an admin's invite creates or switches on. -/
def provisionInvited (users : List User) (identity : SlackIdentity) (id : UuidText) :
    Option (List User × User) :=
  match findBySlackIdentity users identity.workspaceId identity.slackUserId with
  | some existing => some (saveUser users (reactivate existing identity), reactivate existing identity)
  | none =>
    let user := newUser identity .member id
    (insertUser users user).map fun users => (users, user)

/-- With nothing in between, the new row of `upsertFromSlack` is that of `createUser`. -/
theorem newUser_eq_createUser (users : List User) (identity : SlackIdentity) (id : UuidText) :
    newUser identity (newRole none (countByWorkspace users identity.workspaceId == 0)) id =
      createUser users identity id := by
  have first : (if (countByWorkspace users identity.workspaceId == 0) = true then UserRole.admin
      else .member) =
      if (users.any fun row => row.workspaceId == identity.workspaceId) = true then .member
      else .admin := by
    unfold countByWorkspace
    by_cases anyone : (users.any fun row => row.workspaceId == identity.workspaceId) = true
    · obtain ⟨row, known, own⟩ := List.any_eq_true.mp anyone
      have some : users.countP (fun row => row.workspaceId == identity.workspaceId) ≠ 0 :=
        Nat.ne_of_gt (List.countP_pos_iff.mpr ⟨row, known, own⟩)
      simp [anyone, some]
    · have nobody : users.countP (fun row => row.workspaceId == identity.workspaceId) = 0 :=
        List.countP_eq_zero.mpr fun row known own => anyone (List.any_eq_true.mpr ⟨row, known, own⟩)
      rw [if_neg anyone, nobody]
      rfl
  unfold newUser createUser newRole
  rw [Option.getD_none, first]

/-! What a save does to the admins -/

theorem mem_saveUser {users : List User} {user row : User} :
    row ∈ saveUser users user ↔ row = user ∨ row ∈ users ∧ row.id ≠ user.id := by
  unfold saveUser
  split
  · rename_i stored
    obtain ⟨before, known, same⟩ := List.any_eq_true.mp stored
    have same : before.id = user.id := beq_iff_eq.mp same
    rw [List.mem_map]
    constructor
    · rintro ⟨other, listed, rfl⟩
      split
      · exact .inl rfl
      · rename_i apart
        exact .inr ⟨listed, apart⟩
    · rintro (rfl | ⟨listed, apart⟩)
      · exact ⟨before, known, if_pos same⟩
      · exact ⟨row, listed, if_neg apart⟩
  · rename_i absent
    have fresh : ∀ other ∈ users, other.id ≠ user.id := fun other listed same =>
      absent (List.any_eq_true.mpr ⟨other, listed, beq_iff_eq.mpr same⟩)
    rw [List.mem_append, List.mem_singleton]
    constructor
    · rintro (listed | rfl)
      · exact .inr ⟨listed, fresh row listed⟩
      · exact .inl rfl
    · rintro (rfl | ⟨listed, _⟩)
      · exact .inr rfl
      · exact .inl listed

theorem insertUser_some {users inserted : List User} {user : User}
    (stored : insertUser users user = some inserted) :
    inserted = users ++ [user] ∧ ∀ row ∈ users, row.id ≠ user.id := by
  unfold insertUser at stored
  split at stored
  · cases stored
  · rename_i free
    cases stored
    refine ⟨rfl, fun row known same => free (.inr ?_)⟩
    exact List.any_eq_true.mpr ⟨row, known, beq_iff_eq.mpr same⟩

theorem provisionInvited_eq (users : List User) (identity : SlackIdentity) (id : UuidText) :
    provisionInvited users identity id = upsertFromSlack users identity (some .member) id := rfl

/-- Either the row of the identity is saved again, or a new one is inserted. -/
theorem upsertFromSlack_some {users after : List User} {identity : SlackIdentity}
    {role : Option UserRole} {id : UuidText} {user : User}
    (upserted : upsertFromSlack users identity role id = some (after, user)) :
    user.isActive = true ∧
      ((∃ existing, findBySlackIdentity users identity.workspaceId identity.slackUserId =
          some existing ∧ user.id = existing.id ∧ after = saveUser users user) ∨
        findBySlackIdentity users identity.workspaceId identity.slackUserId = none ∧
          insertUser users user = some after) := by
  unfold upsertFromSlack at upserted
  split at upserted
  · rename_i existing found
    cases upserted
    exact ⟨rfl, .inl ⟨existing, found, rfl, rfl⟩⟩
  · rename_i absent
    obtain ⟨inserted, stored, same⟩ := Option.map_eq_some_iff.mp upserted
    cases same
    exact ⟨rfl, .inr ⟨absent, stored⟩⟩

/-- What `setActive` saves: a member of the workspace, with the flag as asked for. -/
theorem setActive_settled {users : List User} {workspaceId : String}
    {callerUserId targetUserId : UuidText} {isActive : Bool} {entity : User}
    (settled : (setActive callerUserId targetUserId isActive
      (findMember users workspaceId targetUserId)).settled users workspaceId = some entity) :
    ∃ target ∈ users, entity = { target with isActive := isActive } := by
  cases found : findMember users workspaceId targetUserId with
  | none =>
    rw [found] at settled
    cases settled
  | some target =>
    refine ⟨target, List.mem_of_find?_eq_some found, ?_⟩
    rw [found] at settled
    unfold setActive at settled
    dsimp only at settled
    split at settled
    · cases settled
    · split at settled
      · cases settled
      · split at settled
        · unfold Next.settled at settled
          dsimp only at settled
          split at settled <;> cases settled
          rfl
        · cases settled
          rfl

theorem updateRole_settled {users : List User} {workspaceId : String} {targetUserId : UuidText}
    {role : UserRole} {entity : User}
    (settled : (updateRole targetUserId role
      (findMember users workspaceId targetUserId)).settled users workspaceId = some entity) :
    ∃ target ∈ users, entity = { target with role := role } := by
  cases found : findMember users workspaceId targetUserId with
  | none =>
    rw [found] at settled
    cases settled
  | some target =>
    refine ⟨target, List.mem_of_find?_eq_some found, ?_⟩
    rw [found] at settled
    unfold updateRole at settled
    dsimp only at settled
    split at settled
    · cases settled
    · split at settled
      · unfold Next.settled at settled
        dsimp only at settled
        split at settled <;> cases settled
        rfl
      · cases settled
        rfl

/-- Someone administers the workspace. -/
def HasAdmin (workspaceId : String) (users : List User) : Prop :=
  ∃ user ∈ users, isAdmin workspaceId user = true

theorem hasAdmin_saveUser {workspaceId : String} {users : List User} {user : User} :
    HasAdmin workspaceId (saveUser users user) ↔ isAdmin workspaceId user = true ∨
      ∃ other ∈ users, other.id ≠ user.id ∧ isAdmin workspaceId other = true := by
  constructor
  · rintro ⟨row, known, admin⟩
    rcases mem_saveUser.mp known with rfl | ⟨listed, apart⟩
    · exact .inl admin
    · exact .inr ⟨row, listed, apart, admin⟩
  · rintro (admin | ⟨other, listed, apart, admin⟩)
    · exact ⟨user, mem_saveUser.mpr (.inl rfl), admin⟩
    · exact ⟨other, mem_saveUser.mpr (.inr ⟨listed, apart⟩), admin⟩

theorem otherAdmins_ne_zero {workspaceId : String} {users : List User} {targetUserId : UuidText} :
    otherAdmins users workspaceId targetUserId ≠ 0 ↔
      ∃ other ∈ users, other.id ≠ targetUserId ∧ isAdmin workspaceId other = true := by
  rw [otherAdmins, Nat.ne_zero_iff_zero_lt, List.countP_pos_iff]
  refine exists_congr fun other => and_congr_right fun _ => ?_
  rw [Bool.and_eq_true, bne_iff_ne, and_comm]

end Gomer.Users
