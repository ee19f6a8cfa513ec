import Gomer.Schedules.Services

/-! Member operations on a rule, a task or an export while it is being executed. An execution holds
the entity it has loaded until it saves it whole, and what members write in between is undone
unless the save `Respects` it. -/
namespace Gomer.Schedules

open Orm Trace

section
variable {K : Type} {V : K → Type} [∀ k, DecidableEq (V k)]

/-- In every interleaving of the operations, nothing that members have written is undone exactly
when every save keeps to the condition. -/
def KeptExactly (ops : Nat → Operation V) (row : Entity V) : Prop :=
  ∀ steps s, Run (Step ops) (start row) steps s →
    ((∀ x ∈ steps, Kept x.post) ↔ ∀ x ∈ steps, Respects ops x.pre x.label)

theorem keptExactly (ops : Nat → Operation V) (row : Entity V) : KeptExactly ops row :=
  fun _ _ run => run_kept_iff run

end

theorem edits_kept_iff (rules : Nat → RuleOperation) (rule : AdRule) (tasks : Nat → TaskOperation)
    (task : ScheduledTask) (exports : Nat → ExportOperation) (scheduled : ScheduledExport) :
    KeptExactly (fun i => (rules i).operation) rule ∧
      KeptExactly (fun i => (tasks i).operation) task ∧
      KeptExactly (fun i => (exports i).operation) scheduled :=
  ⟨keptExactly _ rule, keptExactly _ task, keptExactly _ scheduled⟩

/-! A task, a rule and an export that are due -/

def hourly : Cron := fun _ _ => some 3600

def dailyReport : ScheduledTask
  | .workspaceId => (1 : Nat)
  | .name => "Daily report"
  | .description => none
  | .cronExpression => "0 * * * *"
  | .timezone => none
  | .prompt => "Report on the campaigns."
  | .slackChannelId => none
  | .isActive => true
  | .type => TaskType.user
  | .model => none
  | .lastRun => none
  | .nextRun => some (0 : Int)
  | .oneTime => false

def cheapClicks : AdRule
  | .workspaceId => (1 : Nat)
  | .cronExpression => "0 * * * *"
  | .timezone => none
  | .isActive => true
  | .lastRun => none
  | .nextRun => some (0 : Int)

def weeklySheet : ScheduledExport
  | .workspaceId => (1 : Nat)
  | .spreadsheetId => none
  | .spreadsheetUrl => none
  | .cronExpression => "0 * * * *"
  | .timezone => none
  | .isActive => true
  | .lastRun => none
  | .nextRun => some (0 : Int)
  | .lastExportedAt => none
  | .lastRowCount => none
  | .lastError => none

/-- The tick, and a member who pauses the task. -/
def pausing : Nat → TaskOperation
  | 0 => .runDueTasks 10 70 hourly
  | _ => .update 1 { isActive := some false } hourly

/-- The tick, and a member who deletes the rule. -/
def deleting : Nat → RuleOperation
  | 0 => .runDueRules 10 70 hourly
  | _ => .remove 1

/-- The tick, and a member who pauses the export. -/
def disabling : Nat → ExportOperation
  | 0 => .runDueExports 10 ⟨10, 70, fun _ => .error "quota exceeded"⟩ hourly
  | _ => .setActive 1 false hourly

theorem pause_undone :
    (∃ steps s, Run (Step fun i => (pausing i).operation) (start dailyReport) steps s ∧
      Finished s ∧ s.owed .isActive = some (2, false) ∧
      s.row.map (fun task => task .isActive) = some true ∧ ¬ Kept s) ∧
    (∃ steps s, Run (Step fun i => (deleting i).operation) (start cheapClicks) steps s ∧
      Finished s ∧ s.removed = true ∧ s.row.isSome = true ∧ ¬ Kept s) ∧
    ∃ steps s, Run (Step fun i => (disabling i).operation) (start weeklySheet) steps s ∧
      Finished s ∧ s.owed .isActive = some (2, false) ∧
      s.row.map (fun scheduled => scheduled .isActive) = some true ∧ ¬ Kept s := by
  refine ⟨?_, ?_, ?_⟩
  · let acts : List Act := [.load 0, .load 1, .reread 1, .write 1, .reread 0, .write 0]
    have run := @follow_run _ _ (step fun i => (pausing i).operation) (start dailyReport) _ acts _ rfl
    refine ⟨_, _, run, finished_of_two rfl rfl fun _ => rfl, rfl, rfl, fun kept => ?_⟩
    have same : true = false := kept.owed _ rfl .isActive 2 false rfl
    cases same
  · let acts : List Act := [.load 0, .load 1, .delete 1, .reread 0, .write 0]
    have run := @follow_run _ _ (step fun i => (deleting i).operation) (start cheapClicks) _ acts _ rfl
    refine ⟨_, _, run, finished_of_two rfl rfl fun _ => rfl, rfl, rfl, fun kept => ?_⟩
    cases kept.removed rfl
  · let acts : List Act := [.load 0, .load 1, .reread 1, .write 1, .reread 0, .write 0]
    have run := @follow_run _ _ (step fun i => (disabling i).operation) (start weeklySheet) _ acts _ rfl
    refine ⟨_, _, run, finished_of_two rfl rfl fun _ => rfl, rfl, rfl, fun kept => ?_⟩
    have same : true = false := kept.owed _ rfl .isActive 2 false rfl
    cases same

/-- No save can undo anything while no member has written. -/
theorem respects_unowed {K : Type} {V : K → Type} {ops : Nat → Operation V} {s : State V} {a : Act}
    (unowed : ∀ k, s.owed k = none) (present : s.row ≠ none) : Respects ops s a := by
  cases a with
  | write i =>
    intro entity change seen since saving
    cases seen with
    | none => exact present
    | some seen =>
      intro _ k time value _ owed
      cases (unowed k).symm.trans owed
  | _ => trivial

/-- A pause after the execution has saved the task. -/
theorem later_pause_kept :
    ∃ steps s, Run (Step fun i => (pausing i).operation) (start dailyReport) steps s ∧
      Finished s ∧ s.row.map (fun task => task .isActive) = some false ∧ ∀ x ∈ steps, Kept x.post := by
  let acts : List Act := [.load 0, .reread 0, .write 0, .load 1, .reread 1, .write 1]
  have run := @follow_run _ _ (step fun i => (pausing i).operation) (start dailyReport) _ acts _ rfl
  refine ⟨_, _, run, finished_of_two rfl rfl fun _ => rfl, rfl, ?_⟩
  have law := (edits_kept_iff deleting cheapClicks pausing dailyReport disabling weeklySheet).2.1
  refine (law _ _ run).mpr fun x taken => ?_
  simp only [List.mem_cons, List.not_mem_nil, or_false] at taken
  rcases taken with rfl | rfl | rfl | rfl | rfl | rfl
  all_goals
    refine respects_unowed (fun k => ?_) (Option.some_ne_none _)
    cases k <;> rfl

end Gomer.Schedules
