import Mathlib.Data.Int.Order.Basic
import Gomer.Lib.Polling
import Gomer.System.Resumption
import Gomer.System.Schedules

/-! The per-minute ticks of rules, tasks and exports on any number of API instances. The guard
against overlapping ticks is a flag of the process, and a row stays due until its execution has
ended. -/
namespace Gomer.Schedules

open Orm Polling Trace

/-- A rule's evaluation; an error of its save, or of the schedule before it, ends the tick. -/
def rules (fire : FireTimes) : Job AdRule Unit Instant where
  slot rule := rule .nextRun
  due now := (RuleOperation.runDueRules now now (fire now)).operation.starts
  advance now _ rule :=
    ((RuleOperation.runDueRules now now (fire now)).operation.change rule).map (·.apply rule)
  aborts := true

/-- A task's run; `runDueTasks` catches its error and goes on. -/
def tasks (fire : FireTimes) : Job ScheduledTask Unit Instant where
  slot task := task .nextRun
  due now := (TaskOperation.runDueTasks now now (fire now)).operation.starts
  advance now _ task :=
    ((TaskOperation.runDueTasks now now (fire now)).operation.change task).map (·.apply task)
  aborts := false

def exports (fire : FireTimes) : Job ScheduledExport ExportRun Instant where
  slot scheduled := scheduled .nextRun
  due now scheduled := isDue now (scheduled .isActive) (scheduled .nextRun)
  advance now run scheduled :=
    ((ExportOperation.runDueExports now run (fire now)).operation.change scheduled).map
      (·.apply scheduled)
  aborts := true

/-- `next()` is after the moment at which it is called. -/
def Later (fire : FireTimes) : Prop :=
  ∀ now cronExpression timezone time, fire now cronExpression timezone = some time → now < time

theorem isDue_slot {now : Instant} {isActive : Bool} {nextRun : Option Instant}
    (due : isDue now isActive nextRun = true) : ∃ time, nextRun = some time ∧ time ≤ now := by
  unfold isDue at due
  rw [Bool.and_eq_true] at due
  cases nextRun with
  | none => cases due.2
  | some time => exact ⟨time, rfl, of_decide_eq_true due.2⟩

theorem rules_forward {fire : FireTimes} (later : Later fire) : (rules fire).Forward where
  due _ _ due := isDue_slot due
  later now _ rule next saved time slot := by
    obtain ⟨change, computed, rfl⟩ := Option.map_eq_some_iff.mp saved
    obtain ⟨nextRun, fires, rfl⟩ := Option.map_eq_some_iff.mp computed
    cases slot
    exact later now _ _ _ fires

theorem tasks_forward {fire : FireTimes} (later : Later fire) : (tasks fire).Forward where
  due _ _ due := isDue_slot due
  later now _ task next saved time slot := by
    obtain ⟨change, computed, rfl⟩ := Option.map_eq_some_iff.mp saved
    change executeTask now (fire now) task = some change at computed
    unfold executeTask at computed
    dsimp only at computed
    split at computed
    · cases computed
      cases slot
    · obtain ⟨nextRun, fires, rfl⟩ := Option.map_eq_some_iff.mp computed
      cases slot
      exact later now _ _ _ fires

theorem exports_forward {fire : FireTimes} (later : Later fire) : (exports fire).Forward where
  due _ _ due := isDue_slot due
  later now run scheduled next saved time slot := by
    obtain ⟨change, computed, rfl⟩ := Option.map_eq_some_iff.mp saved
    obtain ⟨nextRun, fires, rfl⟩ := Option.map_eq_some_iff.mp computed
    have same : exportHasRun run (some nextRun) scheduled .nextRun = some (some nextRun) := by
      unfold exportHasRun
      cases run.outcome scheduled <;> rfl
    have stored : (some nextRun : Option Instant) = some time := by
      rw [← slot]
      change some nextRun = (exportHasRun run (some nextRun) scheduled .nextRun).getD _
      rw [same]
      rfl
    cases stored
    exact later now _ _ _ fires

/-- Each slot is executed by at most one instance exactly when each execution finds its row as it
was loaded and unclaimed by another instance, and at most once when it is unclaimed altogether. -/
def OnceExactly {R O : Type} (job : Job R O Instant) : Prop :=
  ∀ (keys : List Uuid) (row : Uuid → R) (clock : Instant), keys.Nodup →
    ∀ (steps : List (Transition (State Nat Uuid R Instant) (Act Nat Uuid O Instant)))
      (s : State Nat Uuid R Instant), Run (Step job keys) (Polling.start clock row) steps s →
      ((∀ x ∈ steps, Once Eq x.post) ↔ ∀ x ∈ steps, Unclaimed job Eq x.pre x.label) ∧
        ((∀ x ∈ steps, Once (fun _ _ => False) x.post) ↔
          ∀ x ∈ steps, Unclaimed job (fun _ _ => False) x.pre x.label)

theorem onceExactly {R O : Type} {job : Job R O Instant} (forward : job.Forward) :
    OnceExactly job := fun _ _ _ unique _ _ run =>
  ⟨run_once_iff forward unique (fun _ _ same => same) run,
    run_once_iff forward unique (fun _ _ never => never.elim) run⟩

theorem slot_executed_once_iff (fire : FireTimes) (later : Later fire) :
    OnceExactly (rules fire) ∧ OnceExactly (tasks fire) ∧ OnceExactly (exports fire) :=
  ⟨onceExactly (rules_forward later), onceExactly (tasks_forward later),
    onceExactly (exports_forward later)⟩

theorem fullHours_later : Later fullHours := by
  have next (now : Int) : now < (now / 3600 + 1) * 3600 := by omega
  intro now _ _ time fires
  cases fires
  exact next now

/-- Two instances tick at the same minute. -/
def bothTick {O : Type} : List (Act Nat Uuid O Instant) :=
  [.query 0 [1], .query 1 [1], .execute 0, .execute 1]

/-- Both find the row due, and both execute it. -/
theorem slot_executed_twice :
    (∃ steps s, Run (Step (rules fullHours) [1]) (Polling.start 0 fun _ => cheapClicks) steps s ∧
      s.executions = [⟨1, 1, some 0⟩, ⟨0, 1, some 0⟩] ∧ ¬ Once Eq s) ∧
    (∃ steps s, Run (Step (tasks fullHours) [1]) (Polling.start 0 fun _ => dailyReport) steps s ∧
      s.executions = [⟨1, 1, some 0⟩, ⟨0, 1, some 0⟩] ∧ ¬ Once Eq s) ∧
    ∃ steps s, Run (Step (exports fullHours) [1]) (Polling.start 0 fun _ => weeklySheet) steps s ∧
      s.executions = [⟨1, 1, some 0⟩, ⟨0, 1, some 0⟩] ∧ ¬ Once Eq s := by
  refine ⟨⟨_, _, @follow_run _ _ (step (rules fullHours) [1]) _ _ bothTick _ rfl, rfl, fun once => ?_⟩,
    ⟨_, _, @follow_run _ _ (step (tasks fullHours) [1]) _ _ bothTick _ rfl, rfl, fun once => ?_⟩,
    ⟨_, _, @follow_run _ _ (step (exports fullHours) [1]) _ _ bothTick _ rfl, rfl, fun once => ?_⟩⟩
  all_goals
    have same : (1 : Nat) = 0 := List.rel_of_pairwise_cons once List.mem_cons_self rfl rfl
    cases same

/-- The other instance ticks when the slot has been saved, and executes the next one. -/
theorem slots_executed_once : ∃ steps s,
    Run (Step (rules fullHours) [1]) (Polling.start 0 fun _ => cheapClicks) steps s ∧
      s.executions = [⟨1, 1, some 3600⟩, ⟨0, 1, some 0⟩] ∧ ∀ x ∈ steps, Once Eq x.post := by
  let acts : List (Act Nat Uuid Unit Instant) := [.query 0 [1], .execute 0, .save 0 () true,
    .finish 0, .wait 3600, .query 1 [1], .execute 1]
  have run := @follow_run _ _ (step (rules fullHours) [1])
    (Polling.start 0 fun _ => cheapClicks) _ acts _ rfl
  refine ⟨_, _, run, rfl, ((slot_executed_once_iff fullHours fullHours_later).1 [1] _ 0
    (List.nodup_cons.mpr ⟨List.not_mem_nil, List.nodup_nil⟩) _ _ run).1.mpr fun x taken => ?_⟩
  simp only [List.mem_cons, List.not_mem_nil, or_false] at taken
  rcases taken with rfl | rfl | rfl | rfl | rfl | rfl | rfl
  · trivial
  · intro key row queue next
    injection next with same
    injection same with head _
    cases head
    exact ⟨rfl, fun _ absent => absurd absent List.not_mem_nil⟩
  · trivial
  · trivial
  · trivial
  · trivial
  · intro key row queue next
    injection next with same
    injection same with head _
    cases head
    exact ⟨rfl, fun _ absent => absurd absent List.not_mem_nil⟩

end Gomer.Schedules
