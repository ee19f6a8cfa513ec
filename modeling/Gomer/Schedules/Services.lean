import Gomer.Database.Entities
import Gomer.Lib.Orm
import Gomer.Lib.Render

/-! The services of ad rules, scheduled tasks and scheduled exports, as operations on one row: what
each one loads, and the columns it has set when it saves. -/
namespace Gomer.Schedules

open Orm

/-- `CronExpressionParser.parse(cronExpression, { tz }).next()` at the time of the call; it throws
for an invalid expression. -/
abbrev Cron := String → Option String → Option Instant

/-! Ad rules -/

inductive RuleColumn where
  | workspaceId
  | cronExpression
  | timezone
  | isActive
  | lastRun
  | nextRun
  deriving DecidableEq, Repr

def RuleColumn.Value : RuleColumn → Type
  | .workspaceId => Uuid
  | .cronExpression => String
  | .timezone => Option String
  | .isActive => Bool
  | .lastRun | .nextRun => Option Instant

instance : (k : RuleColumn) → DecidableEq k.Value
  | .workspaceId => inferInstanceAs (DecidableEq Uuid)
  | .cronExpression => inferInstanceAs (DecidableEq String)
  | .timezone => inferInstanceAs (DecidableEq (Option String))
  | .isActive => inferInstanceAs (DecidableEq Bool)
  | .lastRun | .nextRun => inferInstanceAs (DecidableEq (Option Instant))

abbrev AdRule := Entity RuleColumn.Value

/-- `isActive AND nextRun IS NOT NULL AND nextRun <= now` -/
def isDue (now : Instant) (isActive : Bool) (nextRun : Option Instant) : Bool :=
  isActive && nextRun.any (· ≤ now)

/-- A call of `RulesService`; `lastRun` is the time at which the evaluation has ended. -/
inductive RuleOperation where
  | setActive (workspaceId : Uuid) (isActive : Bool) (nextRunFrom : Cron)
  | remove (workspaceId : Uuid)
  | runDueRules (now lastRun : Instant) (nextRunFrom : Cron)

def setRuleActive (isActive : Bool) (nextRun : Option Instant) : Change RuleColumn.Value
  | .isActive => some isActive
  | .nextRun => nextRun.map some
  | _ => none

def ruleHasRun (lastRun nextRun : Instant) : Change RuleColumn.Value
  | .lastRun => some (some lastRun)
  | .nextRun => some (some nextRun)
  | _ => none

def RuleOperation.operation : RuleOperation → Operation RuleColumn.Value
  | .setActive workspaceId isActive nextRunFrom =>
    { kind := .edit
      starts := fun rule => rule .workspaceId == workspaceId
      change := fun rule =>
        if isActive then
          (nextRunFrom (rule .cronExpression) (rule .timezone)).map fun nextRun =>
            setRuleActive true (some nextRun)
        else some (setRuleActive false none) }
  | .remove workspaceId =>
    { kind := .removal
      starts := fun rule => rule .workspaceId == workspaceId
      change := fun _ => none }
  | .runDueRules now lastRun nextRunFrom =>
    { kind := .job
      starts := fun rule => isDue now (rule .isActive) (rule .nextRun)
      change := fun rule =>
        (nextRunFrom (rule .cronExpression) (rule .timezone)).map (ruleHasRun lastRun) }

/-! Scheduled tasks -/

inductive TaskType where
  | user
  | system
  deriving DecidableEq, Repr

inductive TaskColumn where
  | workspaceId
  | name
  | description
  | cronExpression
  | timezone
  | prompt
  | slackChannelId
  | isActive
  | type
  | model
  | lastRun
  | nextRun
  | oneTime
  deriving DecidableEq, Repr

def TaskColumn.Value : TaskColumn → Type
  | .workspaceId => Uuid
  | .name | .cronExpression | .prompt => String
  | .description | .timezone | .slackChannelId | .model => Option String
  | .isActive | .oneTime => Bool
  | .type => TaskType
  | .lastRun | .nextRun => Option Instant

instance : (k : TaskColumn) → DecidableEq k.Value
  | .workspaceId => inferInstanceAs (DecidableEq Uuid)
  | .name | .cronExpression | .prompt => inferInstanceAs (DecidableEq String)
  | .description | .timezone | .slackChannelId | .model =>
    inferInstanceAs (DecidableEq (Option String))
  | .isActive | .oneTime => inferInstanceAs (DecidableEq Bool)
  | .type => inferInstanceAs (DecidableEq TaskType)
  | .lastRun | .nextRun => inferInstanceAs (DecidableEq (Option Instant))

abbrev ScheduledTask := Entity TaskColumn.Value

/-- A field that is left out stays as it is. -/
structure UpdateTaskDto where
  name : Option String := none
  prompt : Option String := none
  description : Option String := none
  model : Option String := none
  oneTime : Option Bool := none
  isActive : Option Bool := none
  slackChannelId : Option String := none
  timezone : Option String := none
  cronExpression : Option String := none

/-- What a member gives for a new task. -/
structure CreateTaskDto where
  name : String
  prompt : String
  cronExpression : String
  timezone : Option String := none
  slackChannelId : Option String := none
  description : Option String := none
  model : Option String := none
  oneTime : Option Bool := none

/-- A call of `TasksService`. -/
inductive TaskOperation where
  | update (workspaceId : Uuid) (dto : UpdateTaskDto) (nextRunFrom : Cron)
  | remove (workspaceId : Uuid)
  | runNow (workspaceId : Uuid) (lastRun : Instant) (nextRunFrom : Cron)
  | runDueTasks (now lastRun : Instant) (nextRunFrom : Cron)

/-- `value || null` of a field that is there. -/
def orNull (field : Option String) : Option (Option String) := field.map fun text => nonEmpty (some text)

/-- `TasksService.create`; nothing is inserted when the schedule is invalid. -/
def createTask (workspaceId : Uuid) (dto : CreateTaskDto) (nextRunFrom : Cron) :
    Option ScheduledTask :=
  (nextRunFrom dto.cronExpression dto.timezone).map fun nextRun => fun
    | .workspaceId => workspaceId
    | .name => dto.name
    | .description => dto.description
    | .cronExpression => dto.cronExpression
    | .timezone => dto.timezone
    | .prompt => dto.prompt
    | .slackChannelId => dto.slackChannelId
    | .isActive => true
    | .type => TaskType.user
    | .model => dto.model
    | .lastRun => none
    | .nextRun => some nextRun
    | .oneTime => dto.oneTime.getD false

def updateTask (dto : UpdateTaskDto) (nextRun : Option Instant) : Change TaskColumn.Value
  | .name => dto.name
  | .prompt => dto.prompt
  | .description => dto.description.map some
  | .model => orNull dto.model
  | .oneTime => dto.oneTime
  | .isActive => dto.isActive
  | .slackChannelId => orNull dto.slackChannelId
  | .timezone => orNull dto.timezone
  | .cronExpression => dto.cronExpression
  | .nextRun => nextRun.map some
  | _ => none

/-- A task that runs once is inactive afterwards, and has no next run. -/
def taskHasRun (lastRun : Instant) (nextRun : Option Instant) : Change TaskColumn.Value
  | .lastRun => some (some lastRun)
  | .isActive => if nextRun.isNone then some false else none
  | .nextRun => some nextRun
  | _ => none

/-- The end of `executeTask`, whether the run has failed or not. -/
def executeTask (lastRun : Instant) (nextRunFrom : Cron) (task : ScheduledTask) :
    Option (Change TaskColumn.Value) :=
  let oneTime : Bool := task .oneTime
  if oneTime then some (taskHasRun lastRun none)
  else
    (nextRunFrom (task .cronExpression) (task .timezone)).map fun nextRun =>
      taskHasRun lastRun (some nextRun)

def isOwned (workspaceId : Uuid) (task : ScheduledTask) : Bool :=
  task .workspaceId == workspaceId && task .type != TaskType.system

def TaskOperation.operation : TaskOperation → Operation TaskColumn.Value
  | .update workspaceId dto nextRunFrom =>
    { kind := .edit
      starts := isOwned workspaceId
      change := fun task =>
        if dto.cronExpression.isSome || dto.timezone.isSome then
          (nextRunFrom (dto.cronExpression.getD (task .cronExpression))
            ((orNull dto.timezone).getD (task .timezone))).map fun nextRun =>
              updateTask dto (some nextRun)
        else some (updateTask dto none) }
  | .remove workspaceId =>
    { kind := .removal
      starts := isOwned workspaceId
      change := fun _ => none }
  | .runNow workspaceId lastRun nextRunFrom =>
    { kind := .job
      starts := fun task => task .workspaceId == workspaceId
      change := executeTask lastRun nextRunFrom }
  | .runDueTasks now lastRun nextRunFrom =>
    { kind := .job
      starts := fun task => isDue now (task .isActive) (task .nextRun)
      change := executeTask lastRun nextRunFrom }

/-! Scheduled exports -/

inductive ExportColumn where
  | workspaceId
  | spreadsheetId
  | spreadsheetUrl
  | cronExpression
  | timezone
  | isActive
  | lastRun
  | nextRun
  | lastExportedAt
  | lastRowCount
  | lastError
  deriving DecidableEq, Repr

def ExportColumn.Value : ExportColumn → Type
  | .workspaceId => Uuid
  | .spreadsheetId | .spreadsheetUrl | .timezone | .lastError => Option String
  | .cronExpression => String
  | .isActive => Bool
  | .lastRun | .nextRun | .lastExportedAt => Option Instant
  | .lastRowCount => Option Nat

instance : (k : ExportColumn) → DecidableEq k.Value
  | .workspaceId => inferInstanceAs (DecidableEq Uuid)
  | .spreadsheetId | .spreadsheetUrl | .timezone | .lastError =>
    inferInstanceAs (DecidableEq (Option String))
  | .cronExpression => inferInstanceAs (DecidableEq String)
  | .isActive => inferInstanceAs (DecidableEq Bool)
  | .lastRun | .nextRun | .lastExportedAt => inferInstanceAs (DecidableEq (Option Instant))
  | .lastRowCount => inferInstanceAs (DecidableEq (Option Nat))

abbrev ScheduledExport := Entity ExportColumn.Value

/-- What `buildTable` and `write` have led to. -/
structure Exported where
  spreadsheetId : String
  spreadsheetUrl : String
  rows : Nat
  watermark : Option Instant

/-- One execution: its times, and its outcome or the message of the exception. -/
structure ExportRun where
  startedAt : Instant
  lastRun : Instant
  outcome : ScheduledExport → Except String Exported

/-- A call of `ExportsService`. -/
inductive ExportOperation where
  | setActive (workspaceId : Uuid) (isActive : Bool) (nextRunFrom : Cron)
  | remove (workspaceId : Uuid)
  | runNow (workspaceId : Uuid) (run : ExportRun)
  | runDueExports (now : Instant) (run : ExportRun) (nextRunFrom : Cron)

def setExportActive (isActive : Bool) (nextRun : Option Instant) : Change ExportColumn.Value
  | .isActive => some isActive
  | .nextRun => nextRun.map some
  | _ => none

/-- The columns that `runExport` sets; without `nextRun` the schedule is not advanced. -/
def exportHasRun (run : ExportRun) (nextRun : Option Instant) (scheduled : ScheduledExport) :
    Change ExportColumn.Value :=
  match run.outcome scheduled with
  | .ok exported => fun
    | .spreadsheetId => some (some exported.spreadsheetId)
    | .spreadsheetUrl => some (some exported.spreadsheetUrl)
    | .lastRowCount => some (some exported.rows)
    | .lastError => some none
    | .lastExportedAt => some (some (exported.watermark.getD run.startedAt))
    | .lastRun => some (some run.lastRun)
    | .nextRun => nextRun.map some
    | _ => none
  | .error message => fun
    | .lastRowCount => some none
    | .lastError => some (some message)
    | .lastRun => some (some run.lastRun)
    | .nextRun => nextRun.map some
    | _ => none

def ExportOperation.operation : ExportOperation → Operation ExportColumn.Value
  | .setActive workspaceId isActive nextRunFrom =>
    { kind := .edit
      starts := fun scheduled => scheduled .workspaceId == workspaceId
      change := fun scheduled =>
        if isActive then
          (nextRunFrom (scheduled .cronExpression) (scheduled .timezone)).map fun nextRun =>
            setExportActive true (some nextRun)
        else some (setExportActive false none) }
  | .remove workspaceId =>
    { kind := .removal
      starts := fun scheduled => scheduled .workspaceId == workspaceId
      change := fun _ => none }
  | .runNow workspaceId run =>
    { kind := .job
      starts := fun scheduled => scheduled .workspaceId == workspaceId
      change := fun scheduled => some (exportHasRun run none scheduled) }
  | .runDueExports now run nextRunFrom =>
    { kind := .job
      starts := fun scheduled => isDue now (scheduled .isActive) (scheduled .nextRun)
      change := fun scheduled =>
        (nextRunFrom (scheduled .cronExpression) (scheduled .timezone)).map fun nextRun =>
          exportHasRun run (some nextRun) scheduled }

end Gomer.Schedules
