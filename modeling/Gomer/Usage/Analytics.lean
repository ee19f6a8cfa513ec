import Gomer.Lib.StableSort
import Gomer.Usage.Spend

/-! The aggregates of the usage page: what each of the four queries counts, over which events. -/
namespace Gomer.Analytics

open Relational

/-- The instant is in microseconds. -/
structure MeteredEvent extends CreditEvent where
  createdAt : Int
  deriving DecidableEq

structure ScheduledTask where
  id : Uuid
  name : String
  createdByUserId : Option Uuid
  cronExpression : Option String
  isActive : Bool
  deriving DecidableEq

/-- Scheduled tasks and credit events. An event of a task has the scheduled type from when it was
recorded; its `taskId` names a task that is there, or became null when that was deleted. -/
structure TaskLog where
  tasks : List ScheduledTask
  events : List MeteredEvent
  typed : ∀ e ∈ events, e.taskId.isSome → e.type = .scheduledTask
  taskRef : ∀ e ∈ events, ∀ task ∈ e.taskId, task ∈ tasks.map (·.id)

namespace TaskLog

/-- The type comes from the task of the run; the foreign key refuses a task that is not there. -/
def record (log : TaskLog) (row : MeteredEvent) : Option TaskLog :=
  if known : ∀ task ∈ row.taskId, task ∈ log.tasks.map (·.id) then
    some
      { log with
        events := log.events ++
          [{ row with type := if row.taskId.isSome then .scheduledTask else .thread }]
        typed := by
          simp only [List.forall_mem_append, List.forall_mem_singleton]
          exact ⟨log.typed, fun run => if_pos run⟩
        taskRef := by
          simp only [List.forall_mem_append, List.forall_mem_singleton]
          exact ⟨log.taskRef, known⟩ }
  else none

end TaskLog

/-- In milliseconds, both ends included. -/
structure DateRange where
  fromMs : Int
  toMs : Int

/-- `date_trunc('day', …)` in a session in UTC, as the number of the day. -/
def dayOf (e : MeteredEvent) : Int := e.createdAt / 86400000000

def utcDay (ms : Int) : Int := ms / 86400000

def scopedEvents (workspaceId : Uuid) (range : DateRange) : Select MeteredEvent :=
  (((Select.mk []).where_ fun e => e.workspaceId == workspaceId).andWhere
    fun e => decide (range.fromMs * 1000 ≤ e.createdAt)).andWhere
    fun e => decide (e.createdAt ≤ range.toMs * 1000)

/-- `SUM(event.creditsUsed)` of one group, read as a number. -/
def credits (events : List MeteredEvent) : Int :=
  coalesce (sum (fun e => some e.creditsUsed) events) 0

structure DailyCreditPoint where
  day : Int
  thread : Int := 0
  scheduledTask : Int := 0
  credits : Int := 0
  deriving DecidableEq, Repr

/-- `Map.set`, on a map that keeps the order in which its keys came. -/
def setDay (byDay : List DailyCreditPoint) (entry : DailyCreditPoint) : List DailyCreditPoint :=
  if entry.day ∈ byDay.map (·.day) then byDay.map fun d => if d.day = entry.day then entry else d
  else byDay ++ [entry]

def addRow (byDay : List DailyCreditPoint) (row : (Int × CreditEventType) × Int) :
    List DailyCreditPoint :=
  let entry := (byDay.find? (·.day == row.1.1)).getD { day := row.1.1 }
  let entry := match row.1.2 with
    | .scheduledTask => { entry with scheduledTask := entry.scheduledTask + row.2 }
    | .thread => { entry with thread := entry.thread + row.2 }
  setDay byDay { entry with credits := entry.credits + row.2 }

def dailyUsageSplit (log : TaskLog) (workspaceId : Uuid) (range : DateRange) :
    List DailyCreditPoint :=
  let rows := (groupBy (fun e => (dayOf e, e.type))
    ((scopedEvents workspaceId range).rows log.events)).map fun g => (g.1, credits g.2)
  (orderBy (·.1.1) rows).foldl addRow []

/-- One row of the grouped query of `topTasks`. -/
structure TaskRow where
  taskId : Option Uuid
  credits : Int
  runs : Nat
  lastRun : Option Int
  deriving DecidableEq, Repr

/-- The order in which the groups come, which decides among those that tie. -/
structure Scan where
  order : List TaskRow → List TaskRow
  perm : ∀ rows, (order rows).Perm rows

def Scan.table : Scan := ⟨id, fun rows => List.Perm.refl rows⟩

/-- One point for each day of the window. -/
def zeroFilledDays (rows : List DailyCreditPoint) (range : DateRange) : List DailyCreditPoint :=
  let first := utcDay range.fromMs
  let last := utcDay range.toMs
  (List.range (last - first + 1).toNat).map fun i : Nat =>
    ((rows.filter fun row => row.day = first + i).getLast?).getD { day := first + i }

def InRange (range : DateRange) (e : MeteredEvent) : Bool :=
  decide (range.fromMs * 1000 ≤ e.createdAt) && decide (e.createdAt ≤ range.toMs * 1000)

section
variable (log : TaskLog) (workspaceId : Uuid) (range : DateRange)

def ownEvents : List MeteredEvent := log.events.filter fun e => e.workspaceId == workspaceId

def ranged : List MeteredEvent := (ownEvents log workspaceId).filter (InRange range)

variable {log workspaceId range}

theorem scopedEvents_rows : (scopedEvents workspaceId range).rows log.events =
    ranged log workspaceId range := by
  rw [ranged, ownEvents, List.filter_filter]
  refine List.filter_congr fun e _ => ?_
  simp [scopedEvents, Select.where_, Select.andWhere, InRange, Bool.and_comm]

theorem inRange_day {e : MeteredEvent} (within : InRange range e = true) :
    utcDay range.fromMs ≤ dayOf e ∧ dayOf e ≤ utcDay range.toMs := by
  simp only [InRange, Bool.and_eq_true, decide_eq_true_eq] at within
  unfold utcDay dayOf
  omega

/-- The database may return any group first. -/
def Scan.front (row : TaskRow) : Scan where
  order rows := if row ∈ rows then row :: rows.erase row else rows
  perm rows := by
    split
    · rename_i stands
      exact (List.perm_cons_erase stands).symm
    · exact List.Perm.refl rows

end

def meteredRun (id : Uuid) (taskId : Option Uuid) (creditsUsed createdAt : Int) : MeteredEvent where
  id
  workspaceId := 1
  userId := none
  taskId
  type := .thread
  sourceName := "ai.run"
  inputTokens := 1000
  outputTokens := 1000
  cacheWriteTokens := 0
  cacheReadTokens := 0
  tokensUsed := 2000
  creditsUsed
  model := "retired"
  resolvedModel := none
  createdAt

end Gomer.Analytics
