import Gomer.Schedules.Services

/-! The schedule of one task through its whole life, one call after the other. A task that is
switched on again keeps the next run it was left with, unless the same call gives it a new schedule;
the services of rules and exports compute it anew. -/
namespace Gomer.Schedules

open Orm Trace

def isActive (task : ScheduledTask) : Bool := task .isActive
def nextRun (task : ScheduledTask) : Option Instant := task .nextRun

/-- The first fire time after a moment, of an expression in a time zone. -/
abbrev FireTimes := Instant → Cron

def firstFire (fire : FireTimes) (now : Instant) (task : ScheduledTask) : Option Instant :=
  fire now (task .cronExpression) (task .timezone)

/-- A call on the task, with the time at which it saves; a failing execution saves as well. -/
inductive TaskCall where
  | create (workspaceId : Uuid) (dto : CreateTaskDto) (now : Instant)
  | update (workspaceId : Uuid) (dto : UpdateTaskDto) (now : Instant)
  | runNow (workspaceId : Uuid) (lastRun : Instant)
  | runDueTasks (now lastRun : Instant)

def TaskCall.perform (fire : FireTimes) (task : Option ScheduledTask) :
    TaskCall → Option ScheduledTask
  | .create workspaceId dto now =>
    match task with
    | none => createTask workspaceId dto (fire now)
    | some task => some task
  | .update workspaceId dto now =>
    task.map (TaskOperation.update workspaceId dto (fire now)).operation.alone
  | .runNow workspaceId lastRun =>
    task.map (TaskOperation.runNow workspaceId lastRun (fire lastRun)).operation.alone
  | .runDueTasks now lastRun =>
    task.map (TaskOperation.runDueTasks now lastRun (fire lastRun)).operation.alone

abbrev Calls (fire : FireTimes) (task : Option ScheduledTask) (call : TaskCall)
    (after : Option ScheduledTask) : Prop :=
  call.perform fire task = after

/-- An active task has a next run. -/
def Live (task : Option ScheduledTask) : Prop :=
  ∀ t, task = some t → isActive t = true → nextRun t ≠ none

/-- A task that an update has switched on runs next at its first fire time from then on. -/
def ResumesAnew (fire : FireTimes) (x : Transition (Option ScheduledTask) TaskCall) : Prop :=
  ∀ workspaceId dto now before after, x.label = .update workspaceId dto now →
    x.pre = some before → x.post = some after → isActive before = false → isActive after = true →
    ∃ time, firstFire fire now after = some time ∧ nextRun after = some time

/-- The condition on a call. -/
def Reschedules (fire : FireTimes) (x : Transition (Option ScheduledTask) TaskCall) : Prop :=
  ∀ workspaceId dto now task, x.label = .update workspaceId dto now → x.pre = some task →
    isOwned workspaceId task = true → isActive task = false → dto.isActive = some true →
    dto.cronExpression.isSome = true ∨ dto.timezone.isSome = true ∨
      ∃ time, firstFire fire now task = some time ∧ nextRun task = some time

/-! What a call does to the schedule -/

section
variable {fire : FireTimes} {task : ScheduledTask}

theorem create_live {workspaceId : Uuid} {dto : CreateTaskDto} {now : Instant} :
    Live (createTask workspaceId dto (fire now)) := by
  intro t created _
  unfold createTask at created
  obtain ⟨time, _, rfl⟩ := Option.map_eq_some_iff.mp created
  exact Option.some_ne_none time

/-- An execution leaves the task inactive, or with its next fire time. -/
theorem execute_live {lastRun : Instant} {change : Change TaskColumn.Value}
    (ran : executeTask lastRun (fire lastRun) task = some change) :
    isActive (change.apply task) = true → nextRun (change.apply task) ≠ none := by
  unfold executeTask at ran
  dsimp only at ran
  split at ran
  · cases ran
    intro active
    cases active
  · obtain ⟨time, _, rfl⟩ := Option.map_eq_some_iff.mp ran
    intro _
    exact Option.some_ne_none time

theorem job_live {op : Operation TaskColumn.Value} {lastRun : Instant}
    (job : op.change = executeTask lastRun (fire lastRun)) (live : Live (some task)) :
    Live (some (op.alone task)) := by
  intro t same active
  cases same
  unfold Operation.alone at active ⊢
  rw [job] at active ⊢
  split at active
  · rename_i starts
    rw [if_pos starts]
    cases ran : executeTask lastRun (fire lastRun) task with
    | none =>
      rw [ran] at active
      exact live task rfl active
    | some change =>
      rw [ran] at active
      exact execute_live ran active
  · rename_i idle
    rw [if_neg idle]
    exact live task rfl active

/-- What an update leaves: the task as it was when it is refused, or the fields it gives and, when
they change the schedule, the first fire time. -/
theorem update_cases (workspaceId : Uuid) (dto : UpdateTaskDto) (now : Instant) :
    (TaskOperation.update workspaceId dto (fire now)).operation.alone task = task ∧
        (isOwned workspaceId task = true →
          (dto.cronExpression.isSome || dto.timezone.isSome) = true) ∨
    isOwned workspaceId task = true ∧
      ((dto.cronExpression.isSome || dto.timezone.isSome) = true ∧
          (∃ time, (TaskOperation.update workspaceId dto (fire now)).operation.alone task =
              (updateTask dto (some time)).apply task ∧
            firstFire fire now ((updateTask dto (some time)).apply task) = some time) ∨
        (dto.cronExpression.isSome || dto.timezone.isSome) = false ∧
          (TaskOperation.update workspaceId dto (fire now)).operation.alone task =
            (updateTask dto none).apply task) := by
  unfold Operation.alone TaskOperation.operation
  dsimp only
  split
  · rename_i owned
    cases given : dto.cronExpression.isSome || dto.timezone.isSome with
    | true =>
      rw [if_pos rfl]
      cases next : fire now (dto.cronExpression.getD (task .cronExpression))
          ((orNull dto.timezone).getD (task .timezone)) with
      | none => exact .inl ⟨rfl, fun _ => rfl⟩
      | some time => exact .inr ⟨owned, .inl ⟨rfl, time, rfl, next⟩⟩
    | false =>
      rw [if_neg Bool.false_ne_true]
      exact .inr ⟨owned, .inr ⟨rfl, rfl⟩⟩
  · rename_i foreign
    exact .inl ⟨rfl, fun owned => absurd owned foreign⟩

theorem updated_isActive (dto : UpdateTaskDto) (next : Option Instant) :
    isActive ((updateTask dto next).apply task) = dto.isActive.getD (isActive task) := rfl

theorem updated_nextRun (dto : UpdateTaskDto) (next : Option Instant) :
    nextRun ((updateTask dto next).apply task) = (next.map some).getD (nextRun task) := rfl

/-- Without a new schedule the first fire time is that of the old one. -/
theorem updated_firstFire {dto : UpdateTaskDto} {now : Instant}
    (given : (dto.cronExpression.isSome || dto.timezone.isSome) = false) :
    firstFire fire now ((updateTask dto none).apply task) = firstFire fire now task := by
  obtain ⟨expression, zone⟩ := Bool.or_eq_false_iff.mp given
  have cron : dto.cronExpression = none := by simpa using expression
  have timezone : dto.timezone = none := by simpa using zone
  have unfolded : firstFire fire now ((updateTask dto none).apply task) =
      fire now (dto.cronExpression.getD (task .cronExpression))
        ((orNull dto.timezone).getD (task .timezone)) := rfl
  rw [unfolded, cron, timezone]
  rfl

theorem switched_on {flag : Option Bool} (active : flag.getD false = true) : flag = some true := by
  cases flag with
  | none => cases active
  | some flag => exact congrArg some active

/-- The law of one call, from what an update leaves. -/
theorem update_lawful_iff (workspaceId : Uuid) (dto : UpdateTaskDto) {now : Instant}
    {after : ScheduledTask} (live : Live (some task))
    (updated : (TaskOperation.update workspaceId dto (fire now)).operation.alone task = after) :
    ((isActive after = true → nextRun after ≠ none) ∧
        (isActive task = false → isActive after = true →
          ∃ time, firstFire fire now after = some time ∧ nextRun after = some time)) ↔
      (isOwned workspaceId task = true → isActive task = false → dto.isActive = some true →
        dto.cronExpression.isSome = true ∨ dto.timezone.isSome = true ∨
          ∃ time, firstFire fire now task = some time ∧ nextRun task = some time) := by
  obtain ⟨same, refused⟩ | ⟨owned, ⟨given, time, written, first⟩ | ⟨given, written⟩⟩ :=
    update_cases workspaceId dto now
  · rw [updated] at same
    subst same
    refine iff_of_true ⟨live _ rfl, fun idle active => ?_⟩ fun owned _ _ => ?_
    · exact absurd (idle.symm.trans active) Bool.false_ne_true
    · rcases Bool.or_eq_true_iff.mp (refused owned) with cron | zone
      · exact .inl cron
      · exact .inr (.inl zone)
  · -- The schedule is given anew.
    rw [updated] at written
    subst written
    have set : nextRun ((updateTask dto (some time)).apply task) = some time := rfl
    refine iff_of_true ⟨fun _ => ?_, fun _ _ => ⟨time, first, set⟩⟩ fun _ _ _ => ?_
    · rw [set]
      exact Option.some_ne_none time
    · rcases Bool.or_eq_true_iff.mp given with cron | zone
      · exact .inl cron
      · exact .inr (.inl zone)
  · rw [updated] at written
    subst written
    rw [updated_firstFire given, updated_nextRun, updated_isActive]
    obtain ⟨expression, zone⟩ := Bool.or_eq_false_iff.mp given
    have none : (none.map some).getD (nextRun task) = nextRun task := rfl
    rw [expression, zone, none]
    constructor
    · rintro ⟨_, anew⟩ _ idle on
      exact .inr (.inr (anew idle (by rw [on]; rfl)))
    · intro condition
      have resumed : isActive task = false → dto.isActive.getD (isActive task) = true →
          ∃ time, firstFire fire now task = some time ∧ nextRun task = some time := by
        intro idle active
        rw [idle] at active
        rcases condition owned idle (switched_on active) with no | no | anew
        · cases no
        · cases no
        · exact anew
      refine ⟨fun active => ?_, resumed⟩
      cases idle : isActive task with
      | true => exact live task rfl idle
      | false =>
        obtain ⟨time, _, next⟩ := resumed idle active
        rw [next]
        exact Option.some_ne_none time

end

theorem call_live {fire : FireTimes} {task after : Option ScheduledTask} {call : TaskCall}
    (live : Live task) (called : Calls fire task call after)
    (other : ∀ workspaceId dto now, call ≠ .update workspaceId dto now) : Live after := by
  subst called
  cases call with
  | create workspaceId dto now =>
    cases task with
    | none => exact create_live
    | some task => exact live
  | update workspaceId dto now => exact absurd rfl (other workspaceId dto now)
  | runNow workspaceId lastRun =>
    cases task with
    | none => exact live
    | some task => exact job_live rfl live
  | runDueTasks now lastRun =>
    cases task with
    | none => exact live
    | some task => exact job_live rfl live

theorem other_lawful_iff {fire : FireTimes} {task after : Option ScheduledTask} {call : TaskCall}
    (live : Live task) (called : Calls fire task call after)
    (other : ∀ workspaceId dto now, call ≠ .update workspaceId dto now) :
    (Live after ∧ ResumesAnew fire ⟨task, call, after⟩) ↔ Reschedules fire ⟨task, call, after⟩ := by
  refine iff_of_true ⟨call_live live called other, ?_⟩ ?_
  · intro workspaceId dto now _ _ same
    exact absurd same (other workspaceId dto now)
  · intro workspaceId dto now _ same
    exact absurd same (other workspaceId dto now)

theorem call_lawful_iff {fire : FireTimes} {task after : Option ScheduledTask} {call : TaskCall}
    (live : Live task) (called : Calls fire task call after) :
    (Live after ∧ ResumesAnew fire ⟨task, call, after⟩) ↔ Reschedules fire ⟨task, call, after⟩ := by
  cases call with
  | update workspaceId dto now =>
    cases task with
    | none =>
      subst called
      refine iff_of_true ⟨live, ?_⟩ ?_
      · intro _ _ _ _ _ _ absent
        cases absent
      · intro _ _ _ _ _ absent
        cases absent
    | some task =>
      obtain ⟨t, result⟩ : ∃ t, after = some t := ⟨_, called.symm⟩
      subst result
      have one := update_lawful_iff workspaceId dto live
        (Option.some.inj called)
      constructor
      · rintro ⟨living, anew⟩ _ _ _ _ same pre
        cases same
        cases pre
        exact one.mp ⟨living t rfl, anew workspaceId dto now task t rfl rfl rfl⟩
      · intro condition
        obtain ⟨living, anew⟩ := one.mpr (condition workspaceId dto now task rfl rfl)
        refine ⟨fun _ same => Option.some.inj same ▸ living, ?_⟩
        intro _ _ _ _ _ same pre post
        cases same
        cases pre
        cases post
        exact anew
  | create workspaceId dto now =>
    exact other_lawful_iff live called fun _ _ _ same => by cases same
  | runNow workspaceId lastRun =>
    exact other_lawful_iff live called fun _ _ _ same => by cases same
  | runDueTasks now lastRun =>
    exact other_lawful_iff live called fun _ _ _ same => by cases same

/-! Rules and exports -/

/-- A rule that is switched on runs next at its first fire time, or the call is refused. -/
def RuleResumesAnew (fire : FireTimes) : Prop :=
  ∀ workspaceId now (rule : AdRule),
    (RuleOperation.setActive workspaceId true (fire now)).operation.alone rule = rule ∨
      ∃ time, fire now (rule .cronExpression) (rule .timezone) = some time ∧
        (RuleOperation.setActive workspaceId true (fire now)).operation.alone rule =
          (setRuleActive true (some time)).apply rule

/-- So does an export. -/
def ExportResumesAnew (fire : FireTimes) : Prop :=
  ∀ workspaceId now (scheduled : ScheduledExport),
    (ExportOperation.setActive workspaceId true (fire now)).operation.alone scheduled =
        scheduled ∨
      ∃ time, fire now (scheduled .cronExpression) (scheduled .timezone) = some time ∧
        (ExportOperation.setActive workspaceId true (fire now)).operation.alone scheduled =
          (setExportActive true (some time)).apply scheduled

theorem rule_resumes_anew (fire : FireTimes) : RuleResumesAnew fire := by
  intro workspaceId now rule
  unfold Operation.alone RuleOperation.operation
  dsimp only
  split
  · cases next : fire now (rule .cronExpression) (rule .timezone) with
    | none => exact .inl rfl
    | some time => exact .inr ⟨time, rfl, rfl⟩
  · exact .inl rfl

theorem export_resumes_anew (fire : FireTimes) : ExportResumesAnew fire := by
  intro workspaceId now scheduled
  unfold Operation.alone ExportOperation.operation
  dsimp only
  split
  · cases next : fire now (scheduled .cronExpression) (scheduled .timezone) with
    | none => exact .inl rfl
    | some time => exact .inr ⟨time, rfl, rfl⟩
  · exact .inl rfl

/-- A task stays live through a history, as rules and exports do, exactly when every update that
switches it on gives it a schedule or finds the first fire time in place. -/
theorem task_live_iff (fire : FireTimes) {steps : List (Transition (Option ScheduledTask) TaskCall)}
    {task : Option ScheduledTask} (run : Run (Calls fire) none steps task) :
    ((∀ x ∈ steps, Live x.post ∧ ResumesAnew fire x) ↔ ∀ x ∈ steps, Reschedules fire x) ∧
      RuleResumesAnew fire ∧ ExportResumesAnew fire :=
  ⟨run.lawful_steps_iff (I := Live) (fun x => Live x.post ∧ ResumesAnew fire x) (Reschedules fire)
      (fun _ none => by cases none) (fun _ _ _ _ _ law => law.1)
      (fun _ _ _ live called => call_lawful_iff live called),
    rule_resumes_anew fire, export_resumes_anew fire⟩

/-! A task that is finished or paused, and switched on again -/

/-- At every full hour. -/
def fullHours : FireTimes := fun now _ _ => some ((now / 3600 + 1) * 3600)

def reminder : CreateTaskDto where
  name := "Reminder"
  prompt := "Remind the team."
  cronExpression := "0 * * * *"
  oneTime := some true

def digest : CreateTaskDto where
  name := "Digest"
  prompt := "Sum up the day."
  cronExpression := "0 * * * *"

/-- A reminder that has run is switched on again and never runs; a digest that is paused for hours
runs at once for a slot that it has missed. -/
theorem resumed_stale :
    (∃ steps task, Run (Calls fullHours) none steps (some task) ∧ isActive task = true ∧
      nextRun task = none) ∧
    ∃ steps task, Run (Calls fullHours) none steps (some task) ∧ isActive task = true ∧
      nextRun task = some 3600 ∧ firstFire fullHours 10000 task = some 10800 ∧
      ¬ ∀ x ∈ steps, ResumesAnew fullHours x := by
  constructor
  · have created := (@Run.nil _ _ (Calls fullHours) none).snoc
      (a := .create 1 reminder 10) rfl
    have ran := created.snoc (a := .runDueTasks 3600 3605) rfl
    have resumed := ran.snoc (a := .update 1 { isActive := some true } 4000) rfl
    exact ⟨_, _, resumed, rfl, rfl⟩
  · have created := (@Run.nil _ _ (Calls fullHours) none).snoc
      (a := .create 1 digest 10) rfl
    have paused := created.snoc (a := .update 1 { isActive := some false } 20) rfl
    have resumed := paused.snoc (a := .update 1 { isActive := some true } 10000) rfl
    refine ⟨_, _, resumed, rfl, rfl, rfl, fun law => ?_⟩
    obtain ⟨time, first, next⟩ := law _ (List.mem_append_right _ (List.mem_singleton_self _))
      1 _ 10000 _ _ rfl rfl rfl rfl rfl
    cases first.symm.trans (show _ = some (10800 : Int) from rfl)
    cases next

/-- The pause ends with a schedule of its own. -/
theorem resumed_with_schedule : ∃ steps task, Run (Calls fullHours) none steps (some task) ∧
    isActive task = true ∧ nextRun task = some 10800 ∧
      ∀ x ∈ steps, Live x.post ∧ ResumesAnew fullHours x := by
  have created := (@Run.nil _ _ (Calls fullHours) none).snoc
    (a := .create 1 digest 10) rfl
  have paused := created.snoc (a := .update 1 { isActive := some false } 20) rfl
  have resumed := paused.snoc
    (a := .update 1 { isActive := some true, cronExpression := some "0 * * * *" } 10000) rfl
  refine ⟨_, _, resumed, rfl, rfl, (task_live_iff fullHours resumed).1.mpr fun x taken => ?_⟩
  simp only [List.nil_append, List.mem_append, List.mem_singleton] at taken
  rcases taken with (rfl | rfl) | rfl
  · intro _ _ _ _ same
    cases same
  · intro _ _ _ _ same _ _ _ on
    cases same
    cases on
  · intro _ _ _ _ same
    cases same
    exact fun _ _ _ _ => .inl rfl

end Gomer.Schedules
