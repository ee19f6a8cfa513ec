import Mathlib.Data.List.Nodup
import Gomer.Lib.Http
import Gomer.Lib.Json
import Gomer.Database.Entities

/-! `IntegrationsService`: the connected accounts of a workspace, who may see them, and the
Meta tokens stored on their rows. -/
namespace Gomer.Integrations

open HttpException

/-- `accessLevel`: `team`, or `private` to the member who connected. -/
inductive IntegrationAccessLevel where
  | team
  | ownerOnly
  deriving DecidableEq, Repr

/-- `provider`: `pipedream` or `meta`. -/
inductive IntegrationProvider where
  | pipedream
  | metaAds
  deriving DecidableEq, Repr

structure Integration where
  id : UuidText
  workspaceId : UuidText
  userId : UuidText
  provider : IntegrationProvider
  appName : String
  appSlug : String
  externalAccountId : Option String
  accountName : Option String
  nickname : Option String
  accessLevel : IntegrationAccessLevel
  iconUrl : Option String
  isActive : Bool
  accessToken : Option String
  refreshToken : Option String
  tokenExpiresAt : Option Instant
  scopes : Option String
  connectedAt : Instant
  deriving DecidableEq

/-- The columns of the unique index; a row without an account is in no one's way. -/
def Integration.account (row : Integration) : Option (UuidText × String) :=
  row.externalAccountId.map (row.workspaceId, ·)

structure IntegrationTable where
  rows : List Integration
  idKey : (rows.map (·.id)).Nodup
  accountKey : (rows.filterMap Integration.account).Nodup

/-- A change of columns that are in no key and do not name the owner. -/
structure Assignment where
  assign : Integration → Integration
  id : ∀ row, (assign row).id = row.id
  userId : ∀ row, (assign row).userId = row.userId
  account : ∀ row, (assign row).account = row.account

namespace IntegrationTable

variable (table : IntegrationTable)

def findAccount (workspaceId : UuidText) (accountId : String) : Option Integration :=
  table.rows.find? fun row => row.workspaceId == workspaceId && row.externalAccountId == some accountId

def findOne (id workspaceId : UuidText) : Option Integration :=
  table.rows.find? fun row => row.id == id && row.workspaceId == workspaceId

/-- `save` of a loaded row. -/
def save (id : UuidText) (change : Assignment) : IntegrationTable :=
  let written (row : Integration) : Integration := if row.id = id then change.assign row else row
  { rows := table.rows.map written
    idKey := by
      have same : table.rows.map ((·.id) ∘ written) = table.rows.map (·.id) :=
        List.map_congr_left fun row _ => by
          dsimp only [Function.comp, written]
          split
          · exact change.id row
          · rfl
      rw [List.map_map, same]
      exact table.idKey
    accountKey := by
      have same : Integration.account ∘ written = Integration.account := by
        funext row
        dsimp only [Function.comp, written]
        split
        · exact change.account row
        · rfl
      rw [List.filterMap_map, same]
      exact table.accountKey }

/-- `save` of a row that `create` built; it must break no unique index. -/
def insert (row : Integration) : Except HttpException IntegrationTable :=
  if free : row.id ∉ table.rows.map (·.id) ∧
      (table.rows.filterMap Integration.account ++ [row].filterMap Integration.account).Nodup then
    .ok
      { rows := table.rows ++ [row]
        idKey := by
          rw [List.map_append]
          exact List.nodup_append_comm.mp (List.nodup_cons.mpr ⟨free.1, table.idKey⟩)
        accountKey := by
          rw [List.filterMap_append]
          exact free.2 }
  else .error internalServerError

def remove (id : UuidText) : IntegrationTable where
  rows := table.rows.filter fun row => row.id != id
  idKey := table.idKey.sublist (List.filter_sublist.map _)
  accountKey := table.accountKey.sublist (List.filter_sublist.filterMap _)

end IntegrationTable

section
variable {table : IntegrationTable}

theorem account_eq_some_iff {row : Integration} {account : UuidText × String} :
    row.account = some account ↔
      row.workspaceId = account.1 ∧ row.externalAccountId = some account.2 := by
  obtain ⟨workspaceId, accountId⟩ := account
  simp only [Integration.account, Option.map_eq_some_iff, Prod.mk.injEq]
  constructor
  · rintro ⟨_, named, same, rfl⟩
    exact ⟨same, named⟩
  · rintro ⟨same, named⟩
    exact ⟨accountId, named, same, rfl⟩

theorem findAccount_some {workspaceId : UuidText} {accountId : String} {row : Integration}
    (found : table.findAccount workspaceId accountId = some row) :
    row ∈ table.rows ∧ row.account = some (workspaceId, accountId) := by
  have query := List.find?_some found
  simp only [Bool.and_eq_true, beq_iff_eq] at query
  exact ⟨List.mem_of_find?_eq_some found, account_eq_some_iff.mpr query⟩

theorem findAccount_none {workspaceId : UuidText} {accountId : String}
    (absent : table.findAccount workspaceId accountId = none) :
    ∀ row ∈ table.rows, row.account ≠ some (workspaceId, accountId) := by
  intro row stored named
  have missed := List.find?_eq_none.mp absent row stored
  simp [account_eq_some_iff.mp named] at missed

theorem insert_rows {row : Integration} {next : IntegrationTable}
    (inserted : table.insert row = .ok next) : next.rows = table.rows ++ [row] := by
  unfold IntegrationTable.insert at inserted
  split at inserted
  · cases inserted
    rfl
  · cases inserted

theorem find_id {row : Integration} (stored : row ∈ table.rows) :
    (table.rows.find? fun other => other.id == row.id) = some row := by
  cases found : table.rows.find? fun other => other.id == row.id with
  | none => simpa using List.find?_eq_none.mp found row stored
  | some other =>
    have same : other.id = row.id := by simpa using List.find?_some found
    rw [List.inj_on_of_nodup_map table.idKey (List.mem_of_find?_eq_some found) stored same]

end

/-- The key and the time that an insert draws. -/
structure DrawnIntegration where
  id : UuidText
  now : Instant

/-! Connecting -/

/-- An account as Pipedream lists it. -/
structure Account where
  id : String
  appNameSlug : Option String
  appName : Option String
  appImgSrc : Option String
  name : Option String
  healthy : Option Bool

structure ConfirmConnectionDto where
  accountId : String
  appSlug : String
  accessLevel : IntegrationAccessLevel
  nickname : Option String

structure MetaTokenSet where
  accessToken : String
  refreshToken : Option String
  expiresAt : Option Instant
  scopes : Option String

structure MetaConnection extends MetaTokenSet where
  accountId : String
  accountName : Option String
  iconUrl : String
  appSlug : String
  appName : String

/-- `nickname?.trim() || null` -/
def trimmed (nickname : Option String) : Option String :=
  nonEmpty (nickname.map fun text => String.ofList (JsNumber.trim text.toList))

def privateExternalUserId (userId : UuidText) : String := "u:" ++ userId.text

def resolveExternalUserId (workspaceId userId : UuidText) :
    IntegrationAccessLevel → String
  | .ownerOnly => privateExternalUserId userId
  | .team => workspaceId.text

def confirmed (account : Account) (dto : ConfirmConnectionDto) : Assignment where
  assign row := { row with
    appSlug := account.appNameSlug.getD dto.appSlug
    appName := account.appName.getD dto.appSlug
    accountName := account.name
    nickname := trimmed dto.nickname
    accessLevel := dto.accessLevel
    iconUrl := account.appImgSrc
    isActive := account.healthy != some false }
  id _ := rfl
  userId _ := rfl
  account _ := rfl

def connected (connection : MetaConnection) (accessLevel : IntegrationAccessLevel) : Assignment where
  assign row := { row with
    provider := .metaAds
    appSlug := connection.appSlug
    appName := connection.appName
    accountName := connection.accountName
    accessLevel := accessLevel
    iconUrl := some connection.iconUrl
    isActive := true
    accessToken := some connection.accessToken
    refreshToken := connection.refreshToken
    tokenExpiresAt := connection.expiresAt
    scopes := connection.scopes }
  id _ := rfl
  userId _ := rfl
  account _ := rfl

section
variable (table : IntegrationTable) (workspaceId userId : UuidText)

/-- What `create` and the defaults of the columns give a new row. -/
def createConnection (accountId : String) (drawn : DrawnIntegration) : Integration where
  id := drawn.id
  workspaceId := workspaceId
  userId := userId
  provider := .pipedream
  appName := ""
  appSlug := ""
  externalAccountId := some accountId
  accountName := none
  nickname := none
  accessLevel := .team
  iconUrl := none
  isActive := true
  accessToken := none
  refreshToken := none
  tokenExpiresAt := none
  scopes := none
  connectedAt := drawn.now

/-- The upsert on workspace and account: `userId = existing?.userId ?? userId`, and the other
columns from the new grant. -/
def upsertConnection (accountId : String) (change : Assignment) (drawn : DrawnIntegration) :
    IntegrationTable × Except HttpException Integration :=
  match table.findAccount workspaceId accountId with
  | some existing => (table.save existing.id change, .ok (change.assign existing))
  | none =>
    let integration := change.assign (createConnection workspaceId userId accountId drawn)
    match table.insert integration with
    | .ok next => (next, .ok integration)
    | .error e => (table, .error e)

/-- `accounts` is what Pipedream lists under an external user id. -/
def confirmConnection (accounts : String → List Account) (dto : ConfirmConnectionDto)
    (drawn : DrawnIntegration) : IntegrationTable × Except HttpException Integration :=
  let externalUserId := resolveExternalUserId workspaceId userId dto.accessLevel
  match (accounts externalUserId).find? fun account => account.id == dto.accountId with
  | none => (table, .error (notFound "Connected account not found for this scope"))
  | some account =>
    upsertConnection table workspaceId userId account.id (confirmed account dto) drawn

end

structure MetaOAuthState where
  workspaceId : UuidText
  userId : UuidText
  accessLevel : IntegrationAccessLevel
  codeVerifier : String

/-- The pending handshakes in Redis, by `state`. -/
abbrev Handshakes := List (String × MetaOAuthState)

def startMetaConnect (redis : Handshakes) (state : String) (pending : MetaOAuthState) : Handshakes :=
  (state, pending) :: redis.filter fun entry => entry.1 != state

/-- The handshake is used up before the code is exchanged. -/
def completeMetaConnect (table : IntegrationTable) (redis : Handshakes)
    (exchangeCode : String → String → Option MetaConnection) (state code : String)
    (drawn : DrawnIntegration) :
    (IntegrationTable × Handshakes) × Except HttpException Integration :=
  match redis.lookup state with
  | none => ((table, redis), .error (notFound "Meta connect session expired or invalid"))
  | some pending =>
    let redis := redis.filter fun entry => entry.1 != state
    match exchangeCode code pending.codeVerifier with
    | none => ((table, redis), .error internalServerError)
    | some connection =>
      let done := upsertConnection table pending.workspaceId pending.userId connection.accountId
        (connected connection pending.accessLevel) drawn
      ((done.1, redis), done.2)

/-! Configuring -/

/-- `IsOptional` lets both `undefined`, the outer `none`, and `null` pass. -/
structure UpdateIntegrationDto where
  nickname : Option (Option String)
  accessLevel : Option (Option IntegrationAccessLevel)
  isActive : Option (Option Bool)

/-- `null.trim()` throws, and the other two columns take no null. -/
def UpdateIntegrationDto.hasNull (patch : UpdateIntegrationDto) : Bool :=
  patch.nickname == some none || patch.accessLevel == some none || patch.isActive == some none

def patched (patch : UpdateIntegrationDto) : Assignment where
  assign row := { row with
    nickname := if patch.nickname.isSome then trimmed patch.nickname.join else row.nickname
    accessLevel := patch.accessLevel.join.getD row.accessLevel
    isActive := patch.isActive.join.getD row.isActive }
  id _ := rfl
  userId _ := rfl
  account _ := rfl

structure ConnectedIntegrationView where
  id : UuidText
  provider : IntegrationProvider
  appName : String
  appSlug : String
  accountName : Option String
  nickname : Option String
  accessLevel : IntegrationAccessLevel
  iconUrl : Option String
  externalAccountId : Option String
  isActive : Bool
  connectedAt : Instant
  userId : UuidText
  userName : Option String

/-- `userName` reads the name column of a user. -/
def toView (userName : UuidText → Option String) (row : Integration) : ConnectedIntegrationView :=
  ⟨row.id, row.provider, row.appName, row.appSlug, row.accountName, row.nickname, row.accessLevel,
    row.iconUrl, row.externalAccountId, row.isActive, row.connectedAt, row.userId,
    userName row.userId⟩

section
variable (table : IntegrationTable) (workspaceId : UuidText)

/-- Any member's request; the row is found by its id and the workspace. -/
def update (userName : UuidText → Option String) (integrationId : UuidText)
    (patch : UpdateIntegrationDto) :
    IntegrationTable × Except HttpException ConnectedIntegrationView :=
  match table.findOne integrationId workspaceId with
  | none => (table, .error (notFound "Integration not found"))
  | some integration =>
    if patch.hasNull then (table, .error internalServerError)
    else
      (table.save integration.id (patched patch),
        .ok (toView userName ((patched patch).assign integration)))

/-- The result names the account that is revoked at Pipedream, if one is. -/
def disconnect (integrationId : UuidText) :
    IntegrationTable × Except HttpException (Option String) :=
  match table.findOne integrationId workspaceId with
  | none => (table, .error (notFound "Integration not found"))
  | some integration =>
    (table.remove integration.id,
      .ok (if integration.provider = .pipedream then nonEmpty integration.externalAccountId else none))

/-! Reading -/

def visibleTo (viewer : Option UuidText) (row : Integration) : Bool :=
  row.accessLevel == .team || viewer == some row.userId

/-- Without a `userId`, a userless run. -/
def findVisibleForUser (userName : UuidText → Option String) (userId : Option UuidText) :
    List ConnectedIntegrationView :=
  ((table.rows.filter fun row => row.workspaceId == workspaceId && visibleTo userId row).mergeSort
    fun a b => decide (b.connectedAt ≤ a.connectedAt)).map (toView userName)

def visibleMetaIntegrations (userId : Option UuidText) : List Integration :=
  table.rows.filter fun row => row.workspaceId == workspaceId && row.provider == .metaAds &&
    row.isActive && visibleTo userId row

end

/-- What a refresh meets: the clock, the token endpoint, and the configured server. -/
structure MetaMcp where
  now : Instant
  refreshAccessToken : String → Option MetaTokenSet
  mcpUrl : String

def expirySkewMs : Int := 60000

def MetaMcp.isExpired (service : MetaMcp) (expiresAt : Option Instant) : Bool :=
  expiresAt.any fun time => time - expirySkewMs ≤ service.now

def refreshedWith (refreshed : MetaTokenSet) : Assignment where
  assign row := { row with
    accessToken := some refreshed.accessToken
    refreshToken := refreshed.refreshToken.or row.refreshToken
    tokenExpiresAt := refreshed.expiresAt
    scopes := (nonEmpty refreshed.scopes).or row.scopes }
  id _ := rfl
  userId _ := rfl
  account _ := rfl

def deactivated : Assignment where
  assign row := { row with isActive := false }
  id _ := rfl
  userId _ := rfl
  account _ := rfl

def ensureFreshMetaToken (service : MetaMcp) (table : IntegrationTable) (integration : Integration) :
    IntegrationTable × Option String :=
  if (nonEmpty integration.accessToken).isSome ∧
      service.isExpired integration.tokenExpiresAt = false then (table, integration.accessToken)
  else
    match nonEmpty integration.refreshToken with
    | none => (table, integration.accessToken)
    | some refreshToken =>
      match service.refreshAccessToken refreshToken with
      | some refreshed =>
        (table.save integration.id (refreshedWith refreshed), some refreshed.accessToken)
      | none => (table.save integration.id deactivated, none)

def firstMetaToken (service : MetaMcp) (table : IntegrationTable) :
    List Integration → IntegrationTable × Option String
  | [] => (table, none)
  | row :: rest =>
    let fresh := ensureFreshMetaToken service table row
    match nonEmpty fresh.2 with
    | some token => (fresh.1, some token)
    | none => firstMetaToken service fresh.1 rest

def getMetaAccessToken (service : MetaMcp) (table : IntegrationTable) (workspaceId : UuidText)
    (userId : Option UuidText) : IntegrationTable × Option String :=
  firstMetaToken service table (visibleMetaIntegrations table workspaceId userId)

structure MetaMcpServerWithToken where
  appSlug : String
  name : String
  url : String
  authorizationToken : String

def metaServers (service : MetaMcp) (table : IntegrationTable) :
    List Integration → IntegrationTable × List MetaMcpServerWithToken
  | [] => (table, [])
  | row :: rest =>
    let fresh := ensureFreshMetaToken service table row
    let later := metaServers service fresh.1 rest
    match nonEmpty fresh.2 with
    | some token => (later.1, ⟨"meta_ads", "meta-" ++ row.id.text, service.mcpUrl, token⟩ :: later.2)
    | none => later

def buildMetaMcpServers (service : MetaMcp) (table : IntegrationTable) (workspaceId userId : UuidText) :
    IntegrationTable × List MetaMcpServerWithToken :=
  metaServers service table (visibleMetaIntegrations table workspaceId (some userId))

end Gomer.Integrations
