import Gomer.Lib.Number
import Gomer.Auth.Tokens

/-! The three kinds of token and their verifiers, under a configuration that passed
`validateEnv`. -/
namespace Gomer

open Jwt (Claim Claims Signed)

/-! `validateEnv` and `configuration` -/

abbrev Env := String → Option String

def environments : List String := ["development", "production", "test"]

def isNumber (text : String) : Bool := (JsNumber.number text).isFinite

/-- `IsOptional`: only a value that is there is checked. -/
def optional (check : String → Bool) (value : Option String) : Bool := value.all check

def required (check : String → Bool) (value : Option String) : Bool := value.any check

/-- The properties of `EnvironmentVariables`, each with its check. -/
def environmentVariables (env : Env) : List (String × (Option String → Bool)) :=
  let withoutDatabaseUrl := (env "DATABASE_URL").all (· == "")
  let validateIf (check : Option String → Bool) : Option String → Bool :=
    fun value => !withoutDatabaseUrl || check value
  [("NODE_ENV", optional environments.contains),
    ("PORT", optional isNumber),
    ("DATABASE_URL", optional (· != "")),
    ("DATABASE_HOST", validateIf (required (· != ""))),
    ("DATABASE_PORT", validateIf (required isNumber)),
    ("DATABASE_NAME", validateIf (required (· != ""))),
    ("DATABASE_USER", validateIf (required (· != ""))),
    ("DATABASE_PASSWORD", validateIf (required fun _ => true)),
    ("JWT_SECRET", required (· != "")),
    ("JWT_REFRESH_SECRET", required (· != ""))]

/-- The properties that fail their check are in the error. -/
def validateEnv (env : Env) : Except (List String) Env :=
  let errors := ((environmentVariables env).filter fun p => !p.2 (env p.1)).map (·.1)
  if errors = [] then .ok env else .error errors

def configuration (env : Env) : JwtConfig where
  secret := (env "JWT_SECRET").getD "super-secret-key"
  expiresIn := (env "JWT_EXPIRES_IN").getD "15m"
  refreshSecret := (env "JWT_REFRESH_SECRET").getD "refresh-secret-key"
  refreshExpiresIn := (env "JWT_REFRESH_EXPIRES_IN").getD "7d"

/-! `JwtStrategy` -/

structure AuthenticatedUser where
  userId : String
  workspaceId : String
  slackUserId : Option Claim
  role : String
  deriving DecidableEq, Repr

def workspaceRoles : List String := [UserRole.admin.value, UserRole.member.value]

def JwtStrategy.validate (payload : Claims) : Except AuthError AuthenticatedUser :=
  if Jwt.get? payload "scope" ≠ none then .error (.unauthorized "Not a workspace session")
  else
    match Jwt.get? payload "sub", Jwt.get? payload "workspaceId", Jwt.get? payload "role" with
    | some (.text sub), some (.text workspaceId), some (.text role) =>
      if sub = "" ∨ workspaceId = "" ∨ role ∉ workspaceRoles then
        .error (.unauthorized "Malformed workspace session")
      else .ok ⟨sub, workspaceId, Jwt.get? payload "slackUserId", role⟩
    | _, _, _ => .error (.unauthorized "Malformed workspace session")

/-! `SpacesAuthService` -/

structure SpaceUser where
  id : UuidText
  email : String
  deriving DecidableEq

structure AuthenticatedSpaceUser where
  spaceUserId : Option Claim
  spaceId : Option Claim
  email : Option Claim
  deriving DecidableEq, Repr

def sessionTtl : String := "7d"

def spaceJwtPayload (spaceId : String) (user : SpaceUser) : Claims :=
  [("sub", .text user.id.text), ("spaceId", .text spaceId), ("email", .text user.email),
    ("scope", .text "space")]

namespace AuthService

variable (service : AuthService)

/-- The bearer check of the strategy, then its `validate`. -/
def authenticate (token : Signed) (now : Int) : Except AuthError AuthenticatedUser :=
  match Jwt.verify service.jwt.secret now token with
  | none => .error (.unauthorized "Unauthorized")
  | some payload => JwtStrategy.validate payload

def issueSession (spaceId : String) (user : SpaceUser) (now : Int) : Except AuthError Signed :=
  match service.seconds sessionTtl with
  | none => .error expiresInError
  | some ttl => .ok (Jwt.sign service.jwt.secret (spaceJwtPayload spaceId user) now ttl)

def verifySession (token : Signed) (now : Int) : Except AuthError AuthenticatedSpaceUser :=
  match Jwt.verify service.jwt.secret now token with
  | none => .error (.unauthorized "Invalid space session")
  | some payload =>
    if Jwt.get? payload "scope" ≠ some (.text "space") then
      .error (.unauthorized "Not a space session")
    else .ok ⟨Jwt.get? payload "sub", Jwt.get? payload "spaceId", Jwt.get? payload "email"⟩

end AuthService

/-! The law -/

/-- Each token is accepted by the verifier of its kind while it lives, and by no other one. -/
structure DomainsDisjoint (service : AuthService) : Prop where
  access : ∀ user iat salt tokens hash, service.issueTokens user iat salt = .ok (tokens, hash) →
    ∀ now, iat ≤ now →
      (Jwt.expired now tokens.accessToken.claims = false →
        service.authenticate tokens.accessToken now =
          .ok ⟨user.id.text, user.workspaceId, some (.text user.slackUserId), user.role.value⟩) ∧
      (∀ users row, service.refresh users tokens.accessToken now ≠ .ok row) ∧
      ∀ session, service.verifySession tokens.accessToken now ≠ .ok session
  refresh : ∀ user iat salt tokens hash, service.issueTokens user iat salt = .ok (tokens, hash) →
    ∀ now, iat ≤ now →
      (Jwt.expired now tokens.refreshToken.claims = false → ∀ users,
        findById users user.id.text = some user → user.isActive = true →
        ∃ row, row.id = user.id ∧ service.refresh (setRefreshTokenHash users user.id (some hash))
          tokens.refreshToken now = .ok row) ∧
      (∀ member, service.authenticate tokens.refreshToken now ≠ .ok member) ∧
      ∀ session, service.verifySession tokens.refreshToken now ≠ .ok session
  space : ∀ spaceId user iat token, service.issueSession spaceId user iat = .ok token →
    ∀ now, iat ≤ now →
      (Jwt.expired now token.claims = false → service.verifySession token now =
        .ok ⟨some (.text user.id.text), some (.text spaceId), some (.text user.email)⟩) ∧
      (∀ member, service.authenticate token now ≠ .ok member) ∧
      ∀ users, (∀ row ∈ users, row.id ≠ user.id) → ∀ row, service.refresh users token now ≠ .ok row

/-- The service can sign tokens for members, and one of the two has a lifetime. -/
def Lives (service : AuthService) : Prop :=
  ∃ expiresIn refreshExpiresIn, service.seconds service.jwt.expiresIn = some expiresIn ∧
    service.seconds service.jwt.refreshExpiresIn = some refreshExpiresIn ∧
    (0 < expiresIn ∨ 0 < refreshExpiresIn)

/-! What the tokens carry -/

section
variable {service : AuthService} {user : User} {iat now : Int} {salt : String}
  {tokens : AuthTokens} {hash : Bcrypt.Hash}

theorem issueTokens_ok (issued : service.issueTokens user iat salt = .ok (tokens, hash)) :
    user.workspaceId ≠ "" ∧ ∃ expiresIn refreshExpiresIn,
      service.seconds service.jwt.expiresIn = some expiresIn ∧
      service.seconds service.jwt.refreshExpiresIn = some refreshExpiresIn ∧
      tokens.accessToken = Jwt.sign service.jwt.secret (jwtPayload user) iat expiresIn ∧
      tokens.refreshToken =
        Jwt.sign service.jwt.refreshSecret (jwtPayload user) iat refreshExpiresIn ∧
      hash = Bcrypt.hash service.digest salt (tokens.refreshToken.text service.hmac) := by
  unfold AuthService.issueTokens at issued
  split at issued
  · cases issued
  · rename_i linked
    split at issued
    · rename_i expiresIn refreshExpiresIn first second
      cases issued
      exact ⟨linked, expiresIn, refreshExpiresIn, first, second, rfl, rfl, rfl⟩
    · cases issued

theorem issueTokens_of_seconds {expiresIn refreshExpiresIn : Int} (linked : user.workspaceId ≠ "")
    (first : service.seconds service.jwt.expiresIn = some expiresIn)
    (second : service.seconds service.jwt.refreshExpiresIn = some refreshExpiresIn) :
    service.issueTokens user iat salt = .ok
      (⟨Jwt.sign service.jwt.secret (jwtPayload user) iat expiresIn,
        Jwt.sign service.jwt.refreshSecret (jwtPayload user) iat refreshExpiresIn⟩,
        Bcrypt.hash service.digest salt ((Jwt.sign service.jwt.refreshSecret (jwtPayload user) iat
          refreshExpiresIn).text service.hmac)) := by
  simp only [AuthService.issueTokens, first, second, if_neg linked]

/-- A member's token, of either kind: no scope, and every claim the strategy asserts. -/
theorem validate_member (secret : String) (expiresIn : Int) (linked : user.workspaceId ≠ "") :
    JwtStrategy.validate (Jwt.sign secret (jwtPayload user) iat expiresIn).claims =
      .ok ⟨user.id.text, user.workspaceId, some (.text user.slackUserId), user.role.value⟩ := by
  have named : user.id.text ≠ "" := by
    intro empty
    have length := user.id.length
    rw [empty] at length
    cases length
  have role : user.role.value ∈ workspaceRoles := by
    cases user.role <;> decide
  simp [JwtStrategy.validate, Jwt.sign, jwtPayload, Jwt.get?, List.lookup_cons, named, linked, role]

theorem expired_member (secret : String) (expiresIn : Int) :
    Jwt.expired now (Jwt.sign secret (jwtPayload user) iat expiresIn).claims =
      decide (iat + expiresIn ≤ now) := by
  simp [Jwt.expired, Jwt.sign, jwtPayload, Jwt.get?, List.lookup_cons]

theorem scope_member (secret : String) (expiresIn : Int) :
    Jwt.get? (Jwt.sign secret (jwtPayload user) iat expiresIn).claims "scope" = none := by
  simp [Jwt.sign, jwtPayload, Jwt.get?, List.lookup_cons]

theorem scope_space (secret spaceId : String) (visitor : SpaceUser) (ttl : Int) :
    Jwt.get? (Jwt.sign secret (spaceJwtPayload spaceId visitor) iat ttl).claims "scope" =
      some (.text "space") := by
  simp [Jwt.sign, spaceJwtPayload, Jwt.get?, List.lookup_cons]

/-! The verifiers -/

theorem verifySession_refuses {token : Signed} (unscoped : Jwt.get? token.claims "scope" = none)
    (session : AuthenticatedSpaceUser) : service.verifySession token now ≠ .ok session := by
  unfold AuthService.verifySession
  cases verified : Jwt.verify service.jwt.secret now token with
  | none => simp
  | some payload =>
    obtain ⟨_, _, rfl⟩ := Jwt.verify_eq_some_iff.mp verified
    simp [unscoped]

theorem authenticate_refuses_space {token : Signed}
    (marked : Jwt.get? token.claims "scope" = some (.text "space")) (member : AuthenticatedUser) :
    service.authenticate token now ≠ .ok member := by
  unfold AuthService.authenticate
  cases verified : Jwt.verify service.jwt.secret now token with
  | none => simp
  | some payload =>
    obtain ⟨_, _, rfl⟩ := Jwt.verify_eq_some_iff.mp verified
    simp [JwtStrategy.validate, marked]

theorem verify_of_other {secret : String} {token : Signed}
    (other : token.secret ≠ secret ∨ Jwt.expired now token.claims = true) :
    Jwt.verify secret now token = none := by
  refine if_neg fun h => ?_
  rcases other with different | late
  · exact different h.1
  · rw [late] at h
    cases h.2

theorem verify_of_own {secret : String} {token : Signed} (own : token.secret = secret)
    (live : Jwt.expired now token.claims = false) :
    Jwt.verify secret now token = some token.claims := if_pos ⟨own, live⟩

theorem authenticate_refuses {token : Signed}
    (other : token.secret ≠ service.jwt.secret ∨ Jwt.expired now token.claims = true)
    (member : AuthenticatedUser) : service.authenticate token now ≠ .ok member := by
  simp [AuthService.authenticate, verify_of_other other]

theorem refresh_refuses {token : Signed} {users : List User}
    (other : token.secret ≠ service.jwt.refreshSecret ∨ Jwt.expired now token.claims = true)
    (row : User) : service.refresh users token now ≠ .ok row := by
  simp [AuthService.refresh, verify_of_other other]

theorem findById_setRefreshTokenHash {users : List User} (found : findById users user.id.text = some user)
    (value : Option Bcrypt.Hash) :
    findById (setRefreshTokenHash users user.id value) user.id.text =
      some { user with refreshTokenHash := value } := by
  unfold findById setRefreshTokenHash at *
  rw [List.find?_map]
  have same : ((fun row : User => row.id.text == user.id.text) ∘ fun row =>
      if row.id = user.id then { row with refreshTokenHash := value } else row) =
        fun row => row.id.text == user.id.text := by
    funext row
    simp only [Function.comp]
    split <;> rfl
  rw [same, found]
  simp

/-- A member's token passes `refresh` where the secrets allow it: its hash need not match. -/
theorem refresh_accepts {users : List User} {token : Signed} (own : OfUser token user.id)
    (secret : token.secret = service.jwt.refreshSecret)
    (live : Jwt.expired now token.claims = false)
    (issued : service.issueTokens user iat salt = .ok (tokens, hash))
    (found : findById users user.id.text = some user) (active : user.isActive = true) :
    service.refresh (setRefreshTokenHash users user.id (some hash)) token now =
      .ok { user with refreshTokenHash := some hash } := by
  obtain ⟨_, _, _, _, _, _, refreshToken, rfl⟩ := issueTokens_ok issued
  have theirs : OfUser tokens.refreshToken user.id := by
    rw [refreshToken]
    rfl
  have matched := @compare_own service user.id token tokens.refreshToken salt own theirs
  unfold AuthService.refresh
  rw [verify_of_own secret live]
  dsimp only
  rw [subject_of_user own, findById_setRefreshTokenHash found]
  simp [active, matched]

/-! Separate secrets, or no lifetime at all -/

theorem expired_of_not_lives {expiresIn refreshExpiresIn : Int} (dead : ¬ Lives service)
    (first : service.seconds service.jwt.expiresIn = some expiresIn)
    (second : service.seconds service.jwt.refreshExpiresIn = some refreshExpiresIn) :
    expiresIn ≤ 0 ∧ refreshExpiresIn ≤ 0 := by
  constructor <;> by_contra long
  · exact dead ⟨expiresIn, refreshExpiresIn, first, second, .inl (by omega)⟩
  · exact dead ⟨expiresIn, refreshExpiresIn, first, second, .inr (by omega)⟩

/-- Neither token of a pair passes the signature check of the other one's verifier. -/
theorem foreign_of_separate
    (separate : service.jwt.secret ≠ service.jwt.refreshSecret ∨ ¬ Lives service)
    (issued : service.issueTokens user iat salt = .ok (tokens, hash)) (late : iat ≤ now) :
    (tokens.accessToken.secret ≠ service.jwt.refreshSecret ∨
        Jwt.expired now tokens.accessToken.claims = true) ∧
      (tokens.refreshToken.secret ≠ service.jwt.secret ∨
        Jwt.expired now tokens.refreshToken.claims = true) := by
  obtain ⟨_, expiresIn, refreshExpiresIn, first, second, access, refresh, _⟩ := issueTokens_ok issued
  rw [access, refresh]
  rcases separate with apart | dead
  · exact ⟨.inl apart, .inl apart.symm⟩
  · obtain ⟨short, brief⟩ := expired_of_not_lives dead first second
    rw [expired_member, expired_member]
    exact ⟨.inr (decide_eq_true (by omega)), .inr (decide_eq_true (by omega))⟩

theorem disjoint_of_separate
    (separate : service.jwt.secret ≠ service.jwt.refreshSecret ∨ ¬ Lives service) :
    DomainsDisjoint service := by
  constructor
  · intro user iat salt tokens hash issued now late
    obtain ⟨linked, expiresIn, _, _, _, access, _⟩ := issueTokens_ok issued
    have foreign := (foreign_of_separate separate issued late).1
    refine ⟨fun live => ?_, fun users row => refresh_refuses foreign row, ?_⟩
    · have own : tokens.accessToken.secret = service.jwt.secret := by
        rw [access]
        rfl
      rw [AuthService.authenticate, verify_of_own own live, access]
      exact validate_member _ _ linked
    · apply verifySession_refuses
      rw [access]
      exact scope_member _ _
  · intro user iat salt tokens hash issued now late
    obtain ⟨_, _, refreshExpiresIn, _, _, _, refresh, _⟩ := issueTokens_ok issued
    have foreign := (foreign_of_separate separate issued late).2
    refine ⟨fun live users found active => ?_, fun member => authenticate_refuses foreign member, ?_⟩
    · have own : OfUser tokens.refreshToken user.id := by
        rw [refresh]
        rfl
      have secret : tokens.refreshToken.secret = service.jwt.refreshSecret := by
        rw [refresh]
        rfl
      exact ⟨{ user with refreshTokenHash := some hash }, rfl,
        refresh_accepts own secret live issued found active⟩
    · apply verifySession_refuses
      rw [refresh]
      exact scope_member _ _
  · intro spaceId user iat token issued now late
    unfold AuthService.issueSession at issued
    split at issued
    · cases issued
    · rename_i ttl _
      cases issued
      refine ⟨fun live => ?_, authenticate_refuses_space (scope_space _ _ _ _), ?_⟩
      · have own : (Jwt.sign service.jwt.secret (spaceJwtPayload spaceId user) iat ttl).secret =
            service.jwt.secret := rfl
        rw [AuthService.verifySession, verify_of_own own live]
        dsimp only
        rw [scope_space, if_neg (by simp)]
        simp [Jwt.sign, spaceJwtPayload, Jwt.get?, List.lookup_cons]
      · intro users stranger row ok
        have absent : findById users user.id.text = none := by
          rw [findById, List.find?_eq_none]
          intro row member same
          exact stranger row member (uuid_ext (beq_iff_eq.mp same))
        have subject : AuthService.subject
            (Jwt.sign service.jwt.secret (spaceJwtPayload spaceId user) iat ttl).claims =
              user.id.text := rfl
        unfold AuthService.refresh at ok
        split at ok
        · cases ok
        · rename_i payload verified
          obtain ⟨_, _, rfl⟩ := Jwt.verify_eq_some_iff.mp verified
          rw [subject, absent] at ok
          cases ok

end

/-- A member of no particular workspace. -/
def someUser : User where
  id := ⟨"a3f1c2d4-0000-4000-8000-000000000003", by decide⟩
  workspaceId := "a3f1c2d4-0000-4000-8000-000000000002"
  slackUserId := "U123"
  email := none
  role := .member
  isActive := true
  refreshTokenHash := none

/-- Under one secret a refresh token signs its owner in, or an access token is refreshed. -/
theorem not_disjoint_of_shared {service : AuthService}
    (shared : service.jwt.secret = service.jwt.refreshSecret) (lives : Lives service) :
    ¬ DomainsDisjoint service := by
  intro disjoint
  obtain ⟨expiresIn, refreshExpiresIn, first, second, long⟩ := lives
  have linked : someUser.workspaceId ≠ "" := by decide
  have issued := @issueTokens_of_seconds service someUser 0 "" expiresIn refreshExpiresIn linked
    first second
  rcases long with long | long
  · have live : Jwt.expired 0 (Jwt.sign service.jwt.secret (jwtPayload someUser) 0 expiresIn).claims =
        false := by
      rw [expired_member]
      exact decide_eq_false (by omega)
    have found : findById [someUser] someUser.id.text = some someUser := by decide
    have own : OfUser (Jwt.sign service.jwt.secret (jwtPayload someUser) 0 expiresIn) someUser.id := rfl
    have accepted := refresh_accepts own shared live issued found rfl
    exact (disjoint.access _ _ _ _ _ issued 0 (le_refl 0)).2.1 _ _ accepted
  · have live : Jwt.expired 0 (Jwt.sign service.jwt.refreshSecret (jwtPayload someUser) 0
        refreshExpiresIn).claims = false := by
      rw [expired_member]
      exact decide_eq_false (by omega)
    have accepted : service.authenticate (Jwt.sign service.jwt.refreshSecret (jwtPayload someUser) 0
        refreshExpiresIn) 0 = .ok ⟨someUser.id.text, someUser.workspaceId,
          some (.text someUser.slackUserId), someUser.role.value⟩ := by
      have own : (Jwt.sign service.jwt.refreshSecret (jwtPayload someUser) 0 refreshExpiresIn).secret =
          service.jwt.secret := shared.symm
      rw [AuthService.authenticate, verify_of_own own live]
      exact validate_member _ _ linked
    exact (disjoint.refresh _ _ _ _ _ issued 0 (le_refl 0)).2.1 _ accepted

theorem validateEnv_ok {env checked : Env} (valid : validateEnv env = .ok checked) :
    ∀ p ∈ environmentVariables env, p.2 (env p.1) = true := by
  unfold validateEnv at valid
  dsimp only at valid
  split at valid
  · rename_i clean
    intro p member
    by_contra bad
    have listed : p.1 ∈ ((environmentVariables env).filter fun p => !p.2 (env p.1)).map (·.1) := by
      refine List.mem_map.mpr ⟨p, List.mem_filter.mpr ⟨member, ?_⟩, rfl⟩
      simpa using bad
    rw [clean] at listed
    cases listed
  · cases valid

/-- The configured secrets are the two variables, which validation found not to be empty. -/
theorem configuration_of_valid {env checked : Env} (valid : validateEnv env = .ok checked) :
    env "JWT_SECRET" = some (configuration env).secret ∧
      env "JWT_REFRESH_SECRET" = some (configuration env).refreshSecret := by
  have secret := validateEnv_ok valid ("JWT_SECRET", required (· != "")) (by simp [environmentVariables])
  have refreshSecret := validateEnv_ok valid ("JWT_REFRESH_SECRET", required (· != ""))
    (by simp [environmentVariables])
  simp only [required] at secret refreshSecret
  constructor
  · cases found : env "JWT_SECRET" with
    | none =>
      rw [found] at secret
      cases secret
    | some value => simp [configuration, found]
  · cases found : env "JWT_REFRESH_SECRET" with
    | none =>
      rw [found] at refreshSecret
      cases refreshSecret
    | some value => simp [configuration, found]

/-- Nothing but two different secrets keeps the domains of a validated configuration apart. -/
theorem domains_disjoint_iff {env checked : Env} (valid : validateEnv env = .ok checked)
    {service : AuthService} (configured : service.jwt = configuration env) :
    DomainsDisjoint service ↔
      env "JWT_SECRET" ≠ env "JWT_REFRESH_SECRET" ∨ ¬ Lives service := by
  obtain ⟨secret, refreshSecret⟩ := configuration_of_valid valid
  have apart : env "JWT_SECRET" ≠ env "JWT_REFRESH_SECRET" ↔
      service.jwt.secret ≠ service.jwt.refreshSecret := by
    rw [secret, refreshSecret, configured, Ne, Option.some.injEq]
  rw [apart]
  constructor
  · intro disjoint
    by_contra neither
    simp only [not_or, not_not] at neither
    exact not_disjoint_of_shared neither.1 neither.2 disjoint
  · exact disjoint_of_separate

/-- The variables of a deployment, under the two secrets given. -/
def deployed (secret refreshSecret : String) : Env := fun name =>
  [("DATABASE_URL", "postgres://db"), ("JWT_SECRET", secret),
    ("JWT_REFRESH_SECRET", refreshSecret)].lookup name

def deployedService (secret refreshSecret : String) : AuthService where
  jwt := configuration (deployed secret refreshSecret)
  hmac := fun secret text => secret.toList ++ text
  digest := fun salt _ => salt
  seconds := fun span => if span = "15m" then some 900 else if span = "7d" then some 604800 else none

theorem deployed_lives (secret refreshSecret : String) : Lives (deployedService secret refreshSecret) := by
  refine ⟨900, 604800, ?_, ?_, .inl (by decide)⟩ <;> rfl

/-- Nothing refuses one secret for both. -/
theorem shared_secret_mixes_domains :
    (validateEnv (deployed "secret" "secret")).isOk = true ∧
      ¬ DomainsDisjoint (deployedService "secret" "secret") :=
  ⟨by decide +kernel, not_disjoint_of_shared rfl (deployed_lives _ _)⟩

theorem separate_secrets_disjoint : DomainsDisjoint (deployedService "secret" "other") := by
  have valid : (validateEnv (deployed "secret" "other")).toOption.isSome = true := by decide +kernel
  obtain ⟨checked, ok⟩ := Option.isSome_iff_exists.mp valid
  cases outcome : validateEnv (deployed "secret" "other") with
  | error e =>
    rw [outcome] at ok
    cases ok
  | ok env => exact (domains_disjoint_iff outcome rfl).mpr (.inl (by decide))

end Gomer
