import Gomer.Lib.Bcrypt
import Gomer.Database.Entities

/-! `AuthService`: the tokens of a workspace member, and the hash that is kept of the latest. -/
namespace Gomer

open Jwt (Claim Claims Signed)

inductive UserRole where
  | admin
  | member
  deriving DecidableEq, Repr

def UserRole.value : UserRole → String
  | .admin => "admin"
  | .member => "member"

/-- The columns of `users` that signing in reads or writes. -/
structure User where
  id : UuidText
  workspaceId : String
  slackUserId : String
  email : Option String
  role : UserRole
  isActive : Bool
  refreshTokenHash : Option Bcrypt.Hash
  deriving DecidableEq

structure JwtConfig where
  secret : String
  expiresIn : String
  refreshSecret : String
  refreshExpiresIn : String
  deriving DecidableEq, Repr

/-- The service with its configuration and the packages it calls: the HMAC and the bcrypt
digest, and the reading of a time span in seconds. -/
structure AuthService where
  jwt : JwtConfig
  hmac : String → List Char → List Char
  digest : String → List UInt8 → String
  seconds : String → Option Int

inductive AuthError where
  | unauthorized (message : String)
  | badRequest (message : String)
  | forbidden (message : String)
  | notFound (message : String)
  | error (message : String)
  deriving DecidableEq, Repr

structure AuthTokens where
  accessToken : Signed
  refreshToken : Signed
  deriving DecidableEq

/-! `UsersService` -/

def findById (users : List User) (id : String) : Option User :=
  users.find? fun user => user.id.text == id

def findBySlackIdentity (users : List User) (workspaceId slackUserId : String) : Option User :=
  users.find? fun user => user.workspaceId == workspaceId && user.slackUserId == slackUserId

/-- The active rows of the same person, by Slack id or by email. -/
def findMembershipsOf (users : List User) (user : User) : List User :=
  users.filter fun other => other.isActive &&
    (other.slackUserId == user.slackUserId ||
      user.email.any fun email => email != "" && other.email == some email)

def setRefreshTokenHash (users : List User) (id : UuidText) (hash : Option Bcrypt.Hash) :
    List User :=
  users.map fun user => if user.id = id then { user with refreshTokenHash := hash } else user

structure SlackIdentity where
  workspaceId : String
  slackUserId : String
  email : Option String
  deriving DecidableEq, Repr

/-- The entity that is saved over a row found before. -/
def reactivate (existing : User) (identity : SlackIdentity) : User :=
  { existing with email := identity.email.or existing.email, isActive := true }

/-- `save` of a loaded entity: every column as the entity has it, or a new row. -/
def saveUser (users : List User) (user : User) : List User :=
  if users.any fun row => row.id == user.id then
    users.map fun row => if row.id = user.id then user else row
  else users ++ [user]

def createUser (users : List User) (identity : SlackIdentity) (id : UuidText) : User where
  id
  workspaceId := identity.workspaceId
  slackUserId := identity.slackUserId
  email := identity.email
  role := if users.any fun row => row.workspaceId == identity.workspaceId then .member else .admin
  isActive := true
  refreshTokenHash := none

/-! `AuthService` -/

def jwtPayload (user : User) : Claims :=
  [("sub", .text user.id.text), ("workspaceId", .text user.workspaceId),
    ("slackUserId", .text user.slackUserId), ("role", .text user.role.value)]

def expiresInError : AuthError :=
  .error "\"expiresIn\" should be a number of seconds or string representing a timespan"

namespace AuthService

variable (service : AuthService)

def issueTokens (user : User) (now : Int) (salt : String) :
    Except AuthError (AuthTokens × Bcrypt.Hash) :=
  if user.workspaceId = "" then .error (.badRequest "User is not linked to a workspace")
  else
    match service.seconds service.jwt.expiresIn, service.seconds service.jwt.refreshExpiresIn with
    | some expiresIn, some refreshExpiresIn =>
      let accessToken := Jwt.sign service.jwt.secret (jwtPayload user) now expiresIn
      let refreshToken := Jwt.sign service.jwt.refreshSecret (jwtPayload user) now refreshExpiresIn
      .ok (⟨accessToken, refreshToken⟩,
        Bcrypt.hash service.digest salt (refreshToken.text service.hmac))
    | _, _ => .error expiresInError

/-- Every token the service signs names a subject. -/
def subject (claims : Claims) : String :=
  match Jwt.get? claims "sub" with
  | some (.text sub) => sub
  | _ => ""

/-- `refresh` up to the new pair: the user the token is accepted for. -/
def refresh (users : List User) (refreshToken : Signed) (now : Int) : Except AuthError User :=
  match Jwt.verify service.jwt.refreshSecret now refreshToken with
  | none => .error (.unauthorized "Invalid or expired refresh token")
  | some payload =>
    match findById users (subject payload) with
    | none => .error (.unauthorized "Refresh token is no longer valid")
    | some user =>
      match user.refreshTokenHash with
      | none => .error (.unauthorized "Refresh token is no longer valid")
      | some hash =>
        if user.isActive = false then .error (.unauthorized "Refresh token is no longer valid")
        else if Bcrypt.compare service.digest (refreshToken.text service.hmac) hash then .ok user
        else .error (.unauthorized "Refresh token mismatch")

def logout (users : List User) (userId : UuidText) : List User :=
  setRefreshTokenHash users userId none

/-- `switchWorkspace` up to the new pair: the membership it is issued for. -/
def switchWorkspace (users : List User) (userId workspaceId : String) : Except AuthError User :=
  match findById users userId with
  | none => .error (.notFound ("User " ++ userId ++ " not found"))
  | some user =>
    match (findMembershipsOf users user).find? fun membership =>
        membership.workspaceId == workspaceId with
    | none => .error (.forbidden "You are not a member of that workspace")
    | some target => .ok target

end AuthService

/-! A stored hash is that of a token of its own user -/

/-- A token whose first claim is the user's id. -/
def OfUser (token : Signed) (id : UuidText) : Prop :=
  token.claims.head? = some ("sub", .text id.text)

def Hashed (service : AuthService) (user : User) : Prop :=
  ∀ hash ∈ user.refreshTokenHash, ∃ salt token, OfUser token user.id ∧
    hash = Bcrypt.hash service.digest salt (token.text service.hmac)

theorem subject_of_user {token : Signed} {id : UuidText} (own : OfUser token id) :
    AuthService.subject token.claims = id.text := by
  unfold OfUser at own
  cases fields : token.claims with
  | nil =>
    rw [fields] at own
    cases own
  | cons field rest =>
    rw [fields] at own
    cases own
    rfl

/-- Two tokens of one user begin alike, as far as bcrypt looks. -/
theorem compare_own {service : AuthService} {id : UuidText} {a b : Signed} (salt : String)
    (first : OfUser a id) (second : OfUser b id) :
    Bcrypt.compare service.digest (a.text service.hmac)
      (Bcrypt.hash service.digest salt (b.text service.hmac)) = true := by
  have long : 41 ≤ (Jwt.member ("sub", .text id.text)).length := by
    have inner := Jwt.length_le_quote id.text
    have outer := Jwt.length_le_quote "sub"
    have three : "sub".length = 3 := by decide
    rw [id.length] at inner
    simp only [Jwt.member, Jwt.Claim.render, List.length_append, List.length_cons]
    omega
  obtain ⟨start, enough, begins⟩ := Jwt.text_start long
  exact Bcrypt.compare_hash_of_common_start service.digest salt (by omega) (begins _ a first)
    (begins _ b second)

section
variable {service : AuthService} {users : List User} {user : User}

theorem findById_some {id : String} (found : findById users id = some user) :
    user ∈ users ∧ user.id.text = id := by
  refine ⟨List.mem_of_find?_eq_some found, ?_⟩
  simpa using List.find?_some found

/-- The comparison with the hash never refuses a token of the user. -/
theorem refresh_ok_iff {token : Signed} {now : Int} (hashed : ∀ row ∈ users, Hashed service row)
    {id : UuidText} (own : OfUser token id) :
    service.refresh users token now = .ok user ↔
      (∃ claims, Jwt.verify service.jwt.refreshSecret now token = some claims) ∧
        findById users id.text = some user ∧ user.isActive = true ∧
        user.refreshTokenHash ≠ none := by
  unfold AuthService.refresh
  cases verified : Jwt.verify service.jwt.refreshSecret now token with
  | none => simp
  | some claims =>
    obtain ⟨_, _, rfl⟩ := Jwt.verify_eq_some_iff.mp verified
    simp only [subject_of_user own]
    cases found : findById users id.text with
    | none => simp
    | some row =>
      obtain ⟨member, named⟩ := findById_some found
      dsimp only
      cases stored : row.refreshTokenHash with
      | none =>
        simp only [reduceCtorEq, false_iff]
        rintro ⟨_, same, _, present⟩
        cases same
        exact present stored
      | some hash =>
        obtain ⟨salt, issued, theirs, rfl⟩ := hashed row member hash stored
        have same : row.id = id := uuid_ext named
        rw [same] at theirs
        have matched := @compare_own service id token issued salt own theirs
        cases active : row.isActive with
        | false =>
          simp only [if_true, reduceCtorEq, false_iff]
          rintro ⟨_, same, on, _⟩
          cases same
          cases active.symm.trans on
        | true =>
          simp only [matched, reduceCtorEq, if_false, if_true, Except.ok.injEq, Option.some.injEq]
          constructor
          · rintro rfl
            refine ⟨⟨_, rfl⟩, rfl, active, ?_⟩
            rw [stored]
            exact Option.some_ne_none _
          · exact fun h => h.2.1

end

end Gomer
