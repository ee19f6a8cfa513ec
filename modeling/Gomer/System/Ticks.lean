import Gomer.Lib.Throwing
import Gomer.Schedules.Exports
import Gomer.System.Schedules

/-! One tick of each scheduler: the loops over what is due, the bookkeeping that follows each item,
and the reports that are posted afterwards. -/
namespace Gomer.Ticks

open Orm Schedules Throwing

/-- A row that is due, with the columns that a tick only reads. -/
structure Due (V : Type) where
  id : Uuid
  name : String
  slackChannelId : Option String
  row : V

/-- `RuleRunReport` and `ExportRunReport` -/
structure RunReport where
  id : Uuid
  name : String
  workspaceId : Uuid
  slackChannelId : Option String
  message : Option String
  deriving DecidableEq, Repr

/-- What comes of one item: what its run leads to, the time after it with the schedule at that time,
and the error of the save. -/
structure Fate (α : Type) where
  ran : Except String α
  lastRun : Instant
  nextRunFrom : Cron
  saveError : Option String

inductive Event (V : Type) where
  | attempt (id : Uuid)
  | save (id : Uuid) (row : V)

def Event.attempted {V : Type} : Event V → Option Uuid
  | .attempt id => some id
  | .save _ _ => none

/-- The items that have been attempted, in order. -/
def attempts {V α : Type} (outcome : Outcome (Event V) α) : List Uuid :=
  outcome.done.filterMap Event.attempted

/-- The end of a `finally` block; `nextRunFrom` throws where there is no change. -/
def saveRow {K : Type} {V : K → Type} (due : Due (Entity V)) (cronExpression : String)
    (change : Option (Change V)) (saveError : Option String) : Outcome (Event (Entity V)) Unit :=
  match change with
  | none => .throws ("Invalid cron expression: \"" ++ cronExpression ++ "\"")
  | some change => .sends (.save due.id (change.apply due.row)) saveError

/-- A run whose exception is reported, and the bookkeeping after it. -/
def guarded {V α : Type} (id : Uuid) (fate : Fate α) (done : α → RunReport)
    (failed : String → RunReport) (last : Outcome (Event V) Unit) : Outcome (Event V) RunReport :=
  let ran : Outcome (Event V) RunReport := ⟨[.attempt id], fate.ran.map done⟩
  (ran.tryCatch fun message => .returns (failed message)).tryFinally last

/-! Rules -/

def ruleReport (rule : Due AdRule) (message : Option String) : RunReport :=
  ⟨rule.id, rule.name, rule.row .workspaceId, rule.slackChannelId, message⟩

def ruleFailed (rule : Due AdRule) (message : String) : RunReport :=
  ruleReport rule (some ("⚠️ Rule *" ++ rule.name ++ "* could not run: " ++ message))

/-- One pass of the loop; `evaluateRule` leads to the message of a report. -/
def runRule (fate : Fate (Option String)) (rule : Due AdRule) : Outcome (Event AdRule) RunReport :=
  guarded rule.id fate (ruleReport rule) (ruleFailed rule) <|
    saveRow rule (rule.row .cronExpression)
      ((fate.nextRunFrom (rule.row .cronExpression) (rule.row .timezone)).map
        (ruleHasRun fate.lastRun)) fate.saveError

def runDueRules (fate : Uuid → Fate (Option String)) (due : List (Due AdRule)) :
    Outcome (Event AdRule) (List RunReport) :=
  .forEach (fun rule => runRule (fate rule.id) rule) due

/-! Exports -/

structure DueExport extends Due ScheduledExport where
  request : ExportRequest

def datasetLabel : ExportDataset → String
  | .roasSnapshots => "verified ROAS"
  | .campaignInsights => "campaign performance"
  | .ruleActions => "rule action"

def successMessage (scheduled : DueExport) (exported : Exported) : Option String :=
  if exported.rows = 0 then none
  else some ("📊 Export *" ++ scheduled.name ++ "* — " ++ toString exported.rows ++ " " ++
    datasetLabel scheduled.request.dataset ++ " row(s) added to <" ++ exported.spreadsheetUrl ++ "|" ++
    scheduled.request.sheetTitle ++ ">.")

def exportReport (scheduled : DueExport) (message : Option String) : RunReport :=
  ⟨scheduled.id, scheduled.name, scheduled.row .workspaceId, scheduled.slackChannelId, message⟩

def exportDone (scheduled : DueExport) (exported : Exported) : RunReport :=
  exportReport scheduled (successMessage scheduled exported)

def exportFailed (scheduled : DueExport) (message : String) : RunReport :=
  exportReport scheduled (some ("⚠️ Export *" ++ scheduled.name ++ "* failed: " ++ message))

/-- `runExport`, with `advanceSchedule`. -/
def runExport (startedAt : Instant) (fate : Fate Exported) (scheduled : DueExport) :
    Outcome (Event ScheduledExport) RunReport :=
  guarded scheduled.id fate (exportDone scheduled) (exportFailed scheduled) <|
    saveRow scheduled.toDue (scheduled.row .cronExpression)
      ((fate.nextRunFrom (scheduled.row .cronExpression) (scheduled.row .timezone)).map fun nextRun =>
        exportHasRun ⟨startedAt, fate.lastRun, fun _ => fate.ran⟩ (some nextRun) scheduled.row)
      fate.saveError

def runDueExports (startedAt : Uuid → Instant) (fate : Uuid → Fate Exported) (due : List DueExport) :
    Outcome (Event ScheduledExport) (List RunReport) :=
  .forEach (fun scheduled => runExport (startedAt scheduled.id) (fate scheduled.id) scheduled) due

/-! Tasks -/

/-- The run leads to an answer, whose delivery can fail. -/
def executeTask (fate : Fate String) (deliver : String → Option String) (task : Due ScheduledTask) :
    Outcome (Event ScheduledTask) Unit :=
  let ran : Outcome (Event ScheduledTask) String := ⟨[.attempt task.id], fate.ran⟩
  let delivered (answer : String) : Outcome (Event ScheduledTask) Unit :=
    match deliver answer with
    | none => .returns ()
    | some message => .throws message
  (ran.andThen delivered).tryFinally <|
    saveRow task (task.row .cronExpression)
      (Schedules.executeTask fate.lastRun fate.nextRunFrom task.row) fate.saveError

/-- One pass of the loop. -/
def runTask (fate : Fate String) (deliver : String → Option String) (task : Due ScheduledTask) :
    Outcome (Event ScheduledTask) Unit :=
  (executeTask fate deliver task).tryCatch fun _ => .returns ()

def runDueTasks (fate : Uuid → Fate String) (deliver : Uuid → String → Option String)
    (due : List (Due ScheduledTask)) : Outcome (Event ScheduledTask) (List Unit) :=
  .forEach (fun task => runTask (fate task.id) (deliver task.id) task) due

/-! The delivery of the reports -/

structure Post where
  slackBotToken : String
  slackChannelId : String
  message : String
  deriving DecidableEq, Repr

/-- What a report is posted as; `findById` can fail. -/
def postOf (findById : Uuid → Except String (Option (Option String))) (report : RunReport) :
    Option Post := do
  let message ← nonEmpty report.message
  let slackChannelId ← nonEmpty report.slackChannelId
  let workspace ← (findById report.workspaceId).toOption
  let slackBotToken ← nonEmpty workspace.join
  return ⟨slackBotToken, slackChannelId, message⟩

/-- The posts that `tick` attempts. -/
def tick {V : Type} (findById : Uuid → Except String (Option (Option String)))
    (run : Outcome (Event V) (List RunReport)) : List Post :=
  match run.result with
  | .ok reports => reports.filterMap (postOf findById)
  | .error _ => []

/-! One item -/

/-- The bookkeeping after an item goes through: its schedule still parses, and its row is saved. -/
def Settles {α : Type} (fate : Fate α) (cronExpression : String) (timezone : Option String) : Prop :=
  (fate.nextRunFrom cronExpression timezone).isSome = true ∧ fate.saveError = none

/-- What an item reports: its result, or its failure. -/
def reported {α : Type} (fate : Fate α) (done : α → RunReport) (failed : String → RunReport) :
    RunReport :=
  match fate.ran with
  | .ok value => done value
  | .error message => failed message

theorem saveRow_attempts {K : Type} {V : K → Type} (due : Due (Entity V)) (cronExpression : String)
    (change : Option (Change V)) (saveError : Option String) :
    attempts (saveRow due cronExpression change saveError) = [] := by
  cases change <;> rfl

theorem saveRow_ok_iff {K : Type} {V : K → Type} {due : Due (Entity V)} {cronExpression : String}
    {change : Option (Change V)} {saveError : Option String} :
    (saveRow due cronExpression change saveError).result = .ok () ↔
      change.isSome = true ∧ saveError = none := by
  cases change <;> cases saveError <;> simp [saveRow, Outcome.throws, Outcome.sends]

section
variable {V α : Type} {id : Uuid} {fate : Fate α} {done : α → RunReport} {failed : String → RunReport}
  {last : Outcome (Event V) Unit}

theorem guarded_attempts (quiet : attempts last = []) :
    attempts (guarded id fate done failed last) = [id] := by
  unfold attempts at quiet ⊢
  unfold guarded
  cases ran : fate.ran <;>
    simp [Outcome.tryFinally, Outcome.tryCatch, Except.map, Outcome.returns, Event.attempted, quiet]

theorem guarded_ok_iff {report : RunReport} :
    (guarded id fate done failed last).result = .ok report ↔
      last.result = .ok () ∧ report = reported fate done failed := by
  have caught : ((⟨[.attempt id], fate.ran.map done⟩ : Outcome (Event V) RunReport).tryCatch
      fun message => .returns (failed message)).result = .ok (reported fate done failed) := by
    unfold reported
    cases ran : fate.ran <;> rfl
  unfold guarded
  cases ends : last.result with
  | ok _ =>
    rw [Outcome.tryFinally_ok ends, caught, Except.ok.injEq]
    exact ⟨fun same => ⟨rfl, same.symm⟩, fun both => both.2.symm⟩
  | error message =>
    rw [Outcome.tryFinally_error ends]
    exact iff_of_false (fun ok => by cases ok) fun both => by cases both.1

end

/-- A report is returned when the bookkeeping goes through. -/
theorem guarded_settles_iff {K α : Type} {V : K → Type} {id : Uuid} {fate : Fate α}
    {done : α → RunReport} {failed : String → RunReport} {report : RunReport} (due : Due (Entity V))
    (cronExpression : String) (timezone : Option String) (change : Instant → Change V) :
    (guarded id fate done failed (saveRow due cronExpression
        ((fate.nextRunFrom cronExpression timezone).map change) fate.saveError)).result = .ok report ↔
      Settles fate cronExpression timezone ∧ report = reported fate done failed := by
  rw [guarded_ok_iff, saveRow_ok_iff, Option.isSome_map]
  rfl

/-! The loops -/

/-- Every item has been attempted, and every report returned. -/
structure Complete {V : Type} (ids : List Uuid) (reports : List RunReport)
    (run : Outcome (Event V) (List RunReport)) : Prop where
  attempted : attempts run = ids
  returned : run.result = .ok reports

theorem attempts_flatMap {V α β : Type} {body : α → Outcome (Event V) β} {id : α → Uuid}
    (own : ∀ item, attempts (body item) = [id item]) (items : List α) :
    (items.flatMap fun item => (body item).done).filterMap Event.attempted = items.map id := by
  induction items with
  | nil => rfl
  | cons item rest ih =>
    have first : (body item).done.filterMap Event.attempted = [id item] := own item
    rw [List.flatMap_cons, List.filterMap_append, first, ih, List.map_cons, List.singleton_append]

section
variable {V α : Type} {body : α → Outcome (Event V) RunReport} {id : α → Uuid}
  {report : α → RunReport} {settles : α → Prop}

theorem forEach_complete_iff (own : ∀ item, attempts (body item) = [id item])
    (ends : ∀ item result, (body item).result = .ok result ↔ settles item ∧ result = report item)
    (items : List α) :
    Complete (items.map id) (items.map report) (Outcome.forEach body items) ↔
      ∀ item ∈ items, settles item := by
  constructor
  · intro complete item member
    obtain ⟨result, ok⟩ := Outcome.forEach_ok_iff.mp ⟨_, complete.returned⟩ item member
    exact ((ends item result).mp ok).1
  · intro fine
    have whole := @Outcome.forEach_returns _ _ _ body report items fun item member =>
      (ends item _).mpr ⟨fine item member, rfl⟩
    constructor
    · rw [attempts, whole]
      exact attempts_flatMap own items
    · rw [whole]

/-- An item whose bookkeeping fails is the last one that is attempted, and no report is posted. -/
theorem forEach_stops (own : ∀ item, attempts (body item) = [id item])
    (ends : ∀ item result, (body item).result = .ok result ↔ settles item ∧ result = report item)
    {before after : List α} {item : α} (fine : ∀ earlier ∈ before, settles earlier)
    (broken : ¬settles item) (findById : Uuid → Except String (Option (Option String))) :
    attempts (Outcome.forEach body (before ++ item :: after)) = before.map id ++ [id item] ∧
      tick findById (Outcome.forEach body (before ++ item :: after)) = [] := by
  cases fails : (body item).result with
  | ok result => exact absurd ((ends item result).mp fails).1 broken
  | error message =>
    have whole := @Outcome.forEach_throws _ _ _ body report before after item message
      (fun earlier member => (ends earlier _).mpr ⟨fine earlier member, rfl⟩) fails
    constructor
    · rw [attempts, whole]
      exact (attempts_flatMap own _).trans List.map_append
    · rw [tick, whole]

end

theorem runTask_attempts (fate : Fate String) (deliver : String → Option String)
    (task : Due ScheduledTask) : attempts (runTask fate deliver task) = [task.id] := by
  have quiet := saveRow_attempts task (task.row .cronExpression)
    (Schedules.executeTask fate.lastRun fate.nextRunFrom task.row) fate.saveError
  unfold attempts at quiet ⊢
  have body : (executeTask fate deliver task).done.filterMap Event.attempted = [task.id] := by
    unfold executeTask
    cases fate.ran with
    | error message => simp [Outcome.tryFinally, Outcome.andThen, Event.attempted, quiet]
    | ok answer =>
      cases sent : deliver answer <;> simp [Outcome.tryFinally, Outcome.andThen, Outcome.returns,
        Outcome.throws, Event.attempted, quiet, sent]
  unfold runTask Outcome.tryCatch
  split
  · exact body
  · simp [body, Outcome.returns]

theorem runTask_returns (fate : Fate String) (deliver : String → Option String)
    (task : Due ScheduledTask) : (runTask fate deliver task).result = .ok () := by
  unfold runTask Outcome.tryCatch
  split
  · rename_i ok
    exact ok
  · rfl

/-- A task that throws ends nothing. -/
theorem runDueTasks_attempts (fate : Uuid → Fate String) (deliver : Uuid → String → Option String)
    (due : List (Due ScheduledTask)) :
    attempts (runDueTasks fate deliver due) = due.map (·.id) := by
  have whole := @Outcome.forEach_returns _ _ _
    (fun task => runTask (fate task.id) (deliver task.id) task) (fun _ => ()) due
    fun task _ => runTask_returns _ _ task
  rw [attempts, runDueTasks, whole]
  exact attempts_flatMap (fun task => runTask_attempts _ _ task) due

/-! Which ticks are complete -/

def RuleSettles (fate : Uuid → Fate (Option String)) (rule : Due AdRule) : Prop :=
  Settles (fate rule.id) (rule.row .cronExpression) (rule.row .timezone)

def ExportSettles (fate : Uuid → Fate Exported) (scheduled : DueExport) : Prop :=
  Settles (fate scheduled.id) (scheduled.row .cronExpression) (scheduled.row .timezone)

def ruleReported (fate : Uuid → Fate (Option String)) (rule : Due AdRule) : RunReport :=
  reported (fate rule.id) (ruleReport rule) (ruleFailed rule)

def exportReported (fate : Uuid → Fate Exported) (scheduled : DueExport) : RunReport :=
  reported (fate scheduled.id) (exportDone scheduled) (exportFailed scheduled)

theorem runRule_ok_iff (fate : Uuid → Fate (Option String)) (rule : Due AdRule) (report : RunReport) :
    (runRule (fate rule.id) rule).result = .ok report ↔
      RuleSettles fate rule ∧ report = ruleReported fate rule :=
  guarded_settles_iff rule _ _ _

theorem runExport_ok_iff (startedAt : Uuid → Instant) (fate : Uuid → Fate Exported)
    (scheduled : DueExport) (report : RunReport) :
    (runExport (startedAt scheduled.id) (fate scheduled.id) scheduled).result = .ok report ↔
      ExportSettles fate scheduled ∧ report = exportReported fate scheduled :=
  guarded_settles_iff scheduled.toDue _ _ _

theorem runDueRules_complete_iff (fate : Uuid → Fate (Option String)) (due : List (Due AdRule)) :
    Complete (due.map (·.id)) (due.map (ruleReported fate)) (runDueRules fate due) ↔
      ∀ rule ∈ due, RuleSettles fate rule :=
  forEach_complete_iff (fun _ => guarded_attempts (saveRow_attempts _ _ _ _)) (runRule_ok_iff fate) due

theorem runDueExports_complete_iff (startedAt : Uuid → Instant) (fate : Uuid → Fate Exported)
    (due : List DueExport) :
    Complete (due.map (·.id)) (due.map (exportReported fate)) (runDueExports startedAt fate due) ↔
      ∀ scheduled ∈ due, ExportSettles fate scheduled :=
  forEach_complete_iff (fun _ => guarded_attempts (saveRow_attempts _ _ _ _))
    (runExport_ok_iff startedAt fate) due

/-- Behind a rule whose bookkeeping fails nothing is attempted, and the scheduler posts nothing. -/
theorem runDueRules_stops {fate : Uuid → Fate (Option String)} {before after : List (Due AdRule)}
    {rule : Due AdRule} (fine : ∀ earlier ∈ before, RuleSettles fate earlier)
    (broken : ¬RuleSettles fate rule) (findById : Uuid → Except String (Option (Option String))) :
    attempts (runDueRules fate (before ++ rule :: after)) = before.map (·.id) ++ [rule.id] ∧
      tick findById (runDueRules fate (before ++ rule :: after)) = [] :=
  forEach_stops (fun _ => guarded_attempts (saveRow_attempts _ _ _ _)) (runRule_ok_iff fate) fine broken
    findById

theorem runDueExports_stops {startedAt : Uuid → Instant} {fate : Uuid → Fate Exported}
    {before after : List DueExport} {scheduled : DueExport}
    (fine : ∀ earlier ∈ before, ExportSettles fate earlier) (broken : ¬ExportSettles fate scheduled)
    (findById : Uuid → Except String (Option (Option String))) :
    attempts (runDueExports startedAt fate (before ++ scheduled :: after)) =
        before.map (·.id) ++ [scheduled.id] ∧
      tick findById (runDueExports startedAt fate (before ++ scheduled :: after)) = [] :=
  forEach_stops (fun _ => guarded_attempts (saveRow_attempts _ _ _ _)) (runExport_ok_iff startedAt fate)
    fine broken findById

/-- No failure keeps another item from being attempted, or the reports from being returned, exactly
when the bookkeeping after each rule and each export goes through. -/
theorem ticks_complete_iff (ruleFate : Uuid → Fate (Option String)) (rules : List (Due AdRule))
    (startedAt : Uuid → Instant) (exportFate : Uuid → Fate Exported) (exports : List DueExport)
    (taskFate : Uuid → Fate String) (deliver : Uuid → String → Option String)
    (tasks : List (Due ScheduledTask)) :
    Complete (rules.map (·.id)) (rules.map (ruleReported ruleFate)) (runDueRules ruleFate rules) ∧
        Complete (exports.map (·.id)) (exports.map (exportReported exportFate))
          (runDueExports startedAt exportFate exports) ∧
        attempts (runDueTasks taskFate deliver tasks) = tasks.map (·.id) ↔
      (∀ rule ∈ rules, RuleSettles ruleFate rule) ∧
        ∀ scheduled ∈ exports, ExportSettles exportFate scheduled := by
  rw [runDueRules_complete_iff, runDueExports_complete_iff]
  have all := runDueTasks_attempts taskFate deliver tasks
  exact ⟨fun three => ⟨three.1, three.2.1⟩, fun two => ⟨two.1, two.2, all⟩⟩

def dueRule (id : Uuid) (name : String) : Due AdRule := ⟨id, name, some "C1", cheapClicks⟩

/-- The first rule has acted, and then its row is not saved. -/
def lostConnection (id : Uuid) : Fate (Option String) where
  ran := .ok (some "Paused 3 ads.")
  lastRun := 10
  nextRunFrom := hourly
  saveError := if id = 1 then some "Connection terminated unexpectedly" else none

/-- The second rule is not attempted, and what the first one did is not reported. -/
theorem save_failure_blocks :
    attempts (runDueRules lostConnection [dueRule 1 "Cheap", dueRule 2 "Dear"]) = [1] ∧
      (runDueRules lostConnection [dueRule 1 "Cheap", dueRule 2 "Dear"]).result =
        .error "Connection terminated unexpectedly" ∧
      ¬Complete [1, 2] ([dueRule 1 "Cheap", dueRule 2 "Dear"].map (ruleReported lostConnection))
        (runDueRules lostConnection [dueRule 1 "Cheap", dueRule 2 "Dear"]) :=
  ⟨rfl, rfl, fun complete => absurd complete.attempted (by decide)⟩

end Gomer.Ticks
