import Gomer.Auth.Tokens
import Gomer.Lib.Json
import Gomer.Lib.Number
import Gomer.Lib.Paging
import Gomer.Lib.Record
import Gomer.SuperAdmin.Credits
import Mathlib.Order.WithBot

/-! `SuperAdminService.listWorkspaces`: the owner's customer table, a page at a time. -/
namespace Gomer.SuperAdmin

open Paging Relational

structure Workspace where
  id : Uuid
  name : String
  slackTeamId : String
  createdAt : Instant
  deriving DecidableEq, Repr

/-- A row of `users`. -/
structure Member where
  workspaceId : Uuid
  role : UserRole
  isActive : Bool

/-- When a row of `credit_events` was made. -/
structure RunTime where
  workspaceId : Uuid
  createdAt : Instant

structure Integration where
  workspaceId : Uuid
  isActive : Bool

structure Database where
  workspaces : List Workspace
  members : List Member
  runs : List RunTime
  integrations : List Integration
  subscriptions : List Subscription
  ledger : Ledger
  distinct : (workspaces.map (·.id)).Nodup

/-- What Postgres makes of texts: ILIKE with a text and a pattern, LOWER, and the order of the
collation. -/
structure Postgres where
  ilike : String → String → Bool
  lower : String → String
  collation : Ranking String

/-! The numbers of the workspaces on a page -/

structure MemberCounts where
  total : Nat
  active : Nat
  admins : Nat
  deriving DecidableEq, Repr

structure PlanSummary where
  planId : String
  status : SubscriptionStatus
  seats : Int
  currentPeriodEnd : Instant
  deriving DecidableEq, Repr

structure CreditSummary where
  granted : Int
  used : Int
  balance : Int
  deriving DecidableEq, Repr

structure PlatformWorkspaceRow where
  id : Uuid
  name : String
  slackTeamId : String
  createdAt : Instant
  members : MemberCounts
  credits : CreditSummary
  paidCents : Int
  plan : Option PlanSummary
  connectedAccounts : Nat
  lastActivityAt : Option Instant
  deriving DecidableEq, Repr

/-- A `Map` by workspace. -/
abbrev ById (β : Type) := AList fun _ : Uuid => β

structure WorkspaceAggregates where
  members : ById MemberCounts
  credits : List (Uuid × WorkspaceCredits)
  integrations : ById Nat
  activity : ById (Option Instant)
  plans : ById Subscription

/-- One value for each workspace that has rows, as `GROUP BY "workspaceId"` selects it. -/
def grouped {α β : Type} (owner : α → Uuid) (select : List α → β) (rows : List α) :
    List (Uuid × β) :=
  (groupBy owner rows).map fun g => (g.1, select g.2)

def memberCounts (members : List Member) : MemberCounts where
  total := members.length
  active := (members.filter (·.isActive)).length
  admins := (members.filter fun member => member.role == .admin).length

/-- `MAX("createdAt")` -/
def lastRun (runs : List RunTime) : Option Instant := (runs.map (·.createdAt)).max?

def aggregatesFor (db : Database) (now : Instant) (workspaceIds : List Uuid) :
    WorkspaceAggregates :=
  if workspaceIds.length = 0 then ⟨∅, [], ∅, ∅, ∅⟩
  else
    let listed (id : Uuid) : Bool := workspaceIds.contains id
    let byWorkspace {β : Type} (rows : List (Uuid × β)) : ById β :=
      Record.collect Prod.fst Prod.snd rows
    { members := byWorkspace (grouped (·.workspaceId) memberCounts
        (db.members.filter fun row => listed row.workspaceId))
      credits := creditsByWorkspace db.ledger now workspaceIds
      integrations := byWorkspace (grouped (·.workspaceId) List.length
        (db.integrations.filter fun row => listed row.workspaceId && row.isActive))
      activity := byWorkspace (grouped (·.workspaceId) lastRun
        (db.runs.filter fun row => listed row.workspaceId))
      plans := Record.collect (·.workspaceId) id
        (db.subscriptions.filter fun row => listed row.workspaceId) }

def toWorkspaceRow (workspace : Workspace) (aggregates : WorkspaceAggregates) :
    PlatformWorkspaceRow :=
  let credits := aggregates.credits.lookup workspace.id
  let plan := aggregates.plans.lookup workspace.id
  { id := workspace.id
    name := workspace.name
    slackTeamId := workspace.slackTeamId
    createdAt := workspace.createdAt
    members := (aggregates.members.lookup workspace.id).getD ⟨0, 0, 0⟩
    credits := {
      granted := (credits.map (·.granted)).getD 0
      used := (credits.map (·.used)).getD 0
      balance := (credits.map (·.balance)).getD 0 }
    paidCents := (credits.map (·.paidCents)).getD 0
    plan := plan.map fun plan => ⟨plan.planId, plan.status, plan.seats, plan.currentPeriodEnd⟩
    connectedAccounts := (aggregates.integrations.lookup workspace.id).getD 0
    lastActivityAt := (aggregates.activity.lookup workspace.id).join }

/-! The driver query -/

inductive WorkspaceSort where
  | created | members | activity | name
  deriving DecidableEq, Repr

/-- A name that is none of the sorts is the default. -/
def resolveSort : Option String → WorkspaceSort
  | some "members" => .members
  | some "activity" => .activity
  | some "name" => .name
  | _ => .created

/-- What the driver selects; each sort joins only the aggregate that it reads. -/
structure DriverRow where
  id : Uuid
  name : String
  created : Instant
  members : Nat := 0
  activity : Option Instant := none
  deriving DecidableEq, Repr

/-- DESC NULLS LAST -/
def latestFirst : Option Instant → WithTop Instantᵒᵈ
  | some time => ↑(OrderDual.toDual time)
  | none => ⊤

def Postgres.ranking (pg : Postgres) : WorkspaceSort → Ranking DriverRow
  | .created => .on fun row => OrderDual.toDual row.created
  | .members => .on fun row => OrderDual.toDual row.members
  | .activity => .on fun row => latestFirst row.activity
  | .name => pg.collation.comap fun row => pg.lower row.name

/-- The order that the database gives to the rows of one query, for each sort. -/
abbrev Session (pg : Postgres) := (sort : WorkspaceSort) → OrderBy (pg.ranking sort)

def trimmed (search : Option String) : Option String :=
  nonEmpty (search.map fun text => String.ofList (JsNumber.trim text.toList))

def searched (pg : Postgres) (search : Option String) (workspace : Workspace) : Bool :=
  match trimmed search with
  | some text =>
    let pattern := "%" ++ text ++ "%"
    pg.ilike workspace.name pattern || pg.ilike workspace.slackTeamId pattern
  | none => true

def joined {β : Type} (db : Database) (aggregate : List (Uuid × β)) :
    List (Workspace × Option (Uuid × β)) :=
  leftJoin (fun workspace g => decide (g.1 = workspace.id)) db.workspaces aggregate

def driverRows (pg : Postgres) (db : Database) (search : Option String) (sort : WorkspaceSort) :
    List DriverRow :=
  match sort with
  | .members =>
    ((joined db (grouped (·.workspaceId) List.length db.members)).filter fun r =>
      searched pg search r.1).map fun r =>
        { id := r.1.id, name := r.1.name, created := r.1.createdAt
          members := (r.2.map Prod.snd).getD 0 }
  | .activity =>
    ((joined db (grouped (·.workspaceId) lastRun db.runs)).filter fun r =>
      searched pg search r.1).map fun r =>
        { id := r.1.id, name := r.1.name, created := r.1.createdAt
          activity := r.2.bind Prod.snd }
  | _ =>
    (db.workspaces.filter (searched pg search)).map fun workspace =>
      { id := workspace.id, name := workspace.name, created := workspace.createdAt }

structure ListOptions where
  search : Option String := none
  limit : Option Int := none
  offset : Option Int := none
  sort : Option String := none

structure ListResponse where
  total : Nat
  rows : List PlatformWorkspaceRow
  sort : WorkspaceSort

/-- `Math.min(Math.max(limit ?? 50, 1), 200)` -/
def pageSize (limit : Option Int) : Nat := (min (max (limit.getD 50) 1) 200).toNat

def listWorkspaces (pg : Postgres) (db : Database) (session : Session pg) (now : Instant)
    (options : ListOptions) : ListResponse :=
  let limit := pageSize options.limit
  let offset := (max (options.offset.getD 0) 0).toNat
  let sort := resolveSort options.sort
  let ordered := page ((session sort).run (driverRows pg db options.search sort)) offset limit
  let total := (db.workspaces.filter (searched pg options.search)).length
  let ids := ordered.map (·.id)
  if ids.length = 0 then ⟨total, [], sort⟩
  else
    let workspaces := db.workspaces.filter fun workspace => ids.contains workspace.id
    let aggregates := aggregatesFor db now ids
    let byId : ById Workspace := Record.collect (·.id) id workspaces
    ⟨total, (ids.filterMap byId.lookup).map fun workspace => toWorkspaceRow workspace aggregates,
      sort⟩

end Gomer.SuperAdmin
