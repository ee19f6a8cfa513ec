import Gomer.Schedules.Exports
import Gomer.System.Schedules

/-! Where a recurring export writes, over its runs. The first run creates the spreadsheet, but its id
is recorded only when all the later requests of that run have gone well; a run that fails in between
leaves a spreadsheet behind, and the next one makes another. -/
namespace Gomer.Schedules

open Orm Trace

variable {Row : Type}

/-- A run on request, or by schedule. -/
inductive ExportCall (Row : Type) where
  | runNow (workspaceId : Uuid) (run : Execution Row)
  | runDueExports (now : Instant) (run : Execution Row) (nextRunFrom : Cron)

def ExportCall.execution : ExportCall Row → Execution Row
  | .runNow _ run | .runDueExports _ run _ => run

def ExportCall.operation (req : ExportRequest) : ExportCall Row → Operation ExportColumn.Value
  | .runNow workspaceId run => (ExportOperation.runNow workspaceId (run.toRun req)).operation
  | .runDueExports now run nextRunFrom =>
    (ExportOperation.runDueExports now (run.toRun req) nextRunFrom).operation

/-- The row is saved at the end of the run, when its next run can be computed. -/
def ExportCall.saves (scheduled : ScheduledExport) : ExportCall Row → Bool
  | .runNow _ _ => true
  | .runDueExports _ _ nextRunFrom =>
    (nextRunFrom (scheduled .cronExpression) (scheduled .timezone)).isSome

/-- The export, and the requests that its runs have made. -/
structure Sheets (Row : Type) where
  scheduled : ScheduledExport
  calls : List (SheetsCall Row)

def spreadsheetId (scheduled : ScheduledExport) : Option String := scheduled .spreadsheetId

def ExportCall.perform (req : ExportRequest) (s : Sheets Row) (call : ExportCall Row) : Sheets Row :=
  if (call.operation req).starts s.scheduled then
    { scheduled := (call.operation req).alone s.scheduled
      calls := s.calls ++ (call.execution.attempt req (spreadsheetId s.scheduled)).1 }
  else s

abbrev Exports (req : ExportRequest) (s : Sheets Row) (call : ExportCall Row) (t : Sheets Row) :
    Prop :=
  call.perform req s = t

/-- At most one spreadsheet has been created, and every request went there. -/
def OneDestination (s : Sheets Row) : Prop :=
  (created s.calls).length ≤ 1 ∧ ∃ id, ∀ call ∈ s.calls, call.target = id

/-- Whatever the next run meets, it writes to the spreadsheet there is. -/
def StaysThere (req : ExportRequest) (s : Sheets Row) : Prop :=
  OneDestination s ∧ ∀ again : ExportCall Row, OneDestination (again.perform req s)

/-- The spreadsheet that requests have gone to is on the row. -/
structure KeepsDestination (s : Sheets Row) : Prop where
  once : (created s.calls).length ≤ 1
  same : ∀ call ∈ s.calls, spreadsheetId s.scheduled = some call.target

/-- The condition on a run: when it creates the spreadsheet, no later request fails, and the row is
saved. -/
def Completes (req : ExportRequest) (s : Sheets Row) (call : ExportCall Row) : Prop :=
  (call.operation req).starts s.scheduled = true → nonEmpty (spreadsheetId s.scheduled) = none →
    call.execution.connected = true → call.execution.google.fails .createSpreadsheet = none →
    ∀ table watermark, call.execution.built = .ok (table, watermark) →
      Answers call.execution.google req.sheetTitle table.rows ∧ call.saves s.scheduled = true

/-- Only spreadsheets with an id have been written to. -/
def Named (s : Sheets Row) : Prop := ∀ call ∈ s.calls, call.target ≠ ""

/-! What a run does -/

/-- The spreadsheet on the row after a run that is saved. -/
def recordedBy (outcome : Except String Exported) (recorded : Option String) : Option String :=
  match outcome with
  | .ok exported => some exported.spreadsheetId
  | .error _ => recorded

theorem run_spreadsheetId (req : ExportRequest) (scheduled : ScheduledExport) (run : Execution Row)
    (nextRun : Option Instant) :
    spreadsheetId ((exportHasRun (run.toRun req) nextRun scheduled).apply scheduled) =
      recordedBy (run.attempt req (spreadsheetId scheduled)).2 (spreadsheetId scheduled) := by
  have outcome : (run.toRun req).outcome scheduled =
    (run.attempt req (spreadsheetId scheduled)).2 := rfl
  unfold exportHasRun
  rw [outcome]
  cases (run.attempt req (spreadsheetId scheduled)).2 <;> rfl

theorem alone_spreadsheetId {req : ExportRequest} {scheduled : ScheduledExport}
    {call : ExportCall Row} (starts : (call.operation req).starts scheduled = true) :
    spreadsheetId ((call.operation req).alone scheduled) =
      if call.saves scheduled then
        recordedBy (call.execution.attempt req (spreadsheetId scheduled)).2 (spreadsheetId scheduled)
      else spreadsheetId scheduled := by
  unfold Operation.alone
  rw [if_pos starts]
  cases call with
  | runNow workspaceId run => exact run_spreadsheetId req scheduled run none
  | runDueExports now run nextRunFrom =>
    simp only [ExportCall.operation, ExportOperation.operation, ExportCall.saves,
      ExportCall.execution]
    rcases Option.eq_none_or_eq_some
      (nextRunFrom (scheduled .cronExpression) (scheduled .timezone)) with none | ⟨time, next⟩
    · simp only [none, Option.map_none, Option.isSome_none, Bool.false_eq_true, if_false]
    · simp only [next, Option.map_some, Option.isSome_some, if_true]
      exact run_spreadsheetId req scheduled run (some time)

theorem except_map_ok {α β : Type} {f : α → β} {x : Except String α} {b : β}
    (ok : x.map f = .ok b) : ∃ a, x = .ok a ∧ f a = b := by
  cases x with
  | error e => cases ok
  | ok a =>
    cases ok
    exact ⟨a, rfl, rfl⟩

theorem noFills (id : String) : Fills id ([] : List (SheetsCall Row)) :=
  ⟨fun _ absent => absurd absent List.not_mem_nil, rfl⟩

/-- What a run writes to a spreadsheet that is recorded. -/
theorem attempt_recorded (req : ExportRequest) (run : Execution Row) {recorded : Option String}
    {id : String} (known : nonEmpty recorded = some id) :
    Fills id (run.attempt req recorded).1 ∧
      ∀ exported, (run.attempt req recorded).2 = .ok exported → exported.spreadsheetId = id := by
  unfold Execution.attempt
  split
  · exact ⟨noFills id, fun _ ok => by cases ok⟩
  · rename_i table watermark built
    unfold writeExport
    split
    · simp only [writeTable, known]
      refine ⟨fill_fills _ _ _ _ _ _, fun exported ok => ?_⟩
      obtain ⟨result, filled, rfl⟩ := except_map_ok ok
      exact (fill_ok _ _ _ _ _ _ filled).1
    · exact ⟨noFills id, fun _ ok => by cases ok⟩

/-- A run without a spreadsheet stops before it creates one, or creates one and goes on there. -/
theorem attempt_unrecorded (req : ExportRequest) (run : Execution Row) {recorded : Option String}
    (unknown : nonEmpty recorded = none) :
    ((run.attempt req recorded).1 = [] ∧ (∀ e, (run.attempt req recorded).2 ≠ .ok e) ∧
      ¬ (run.connected = true ∧ run.google.fails .createSpreadsheet = none ∧
        ∃ table watermark, run.built = .ok (table, watermark))) ∨
    ∃ title table watermark filled, run.connected = true ∧
      run.google.fails .createSpreadsheet = none ∧ run.built = .ok (table, watermark) ∧
      (run.attempt req recorded).1 =
        .createSpreadsheet run.google.newId title req.sheetTitle :: filled ∧
      Fills run.google.newId filled ∧
      (∀ exported, (run.attempt req recorded).2 = .ok exported →
        exported.spreadsheetId = run.google.newId) ∧
      ((∃ exported, (run.attempt req recorded).2 = .ok exported) ↔
        Answers run.google req.sheetTitle table.rows) := by
  unfold Execution.attempt
  split
  · rename_i message built
    refine .inl ⟨rfl, fun _ ok => (by cases ok), ?_⟩
    rintro ⟨_, _, _, _, ok⟩
    cases built.symm.trans ok
  · rename_i table watermark built
    unfold writeExport
    split
    · rename_i connected
      cases fails : run.google.fails .createSpreadsheet with
      | some message =>
        simp only [writeTable, unknown, fails]
        refine .inl ⟨trivial, fun _ ok => (by cases ok), ?_⟩
        rintro ⟨_, no, _⟩
        cases no
      | none =>
        simp only [writeTable, unknown, fails]
        refine .inr ⟨_, table, watermark, _, connected, trivial, built, rfl, fill_fills _ _ _ _ _ _,
          fun exported ok => ?_, fun done => ?_, fun answers => ?_⟩
        · obtain ⟨result, filled, rfl⟩ := except_map_ok ok
          exact (fill_ok _ _ _ _ _ _ filled).1
        · obtain ⟨exported, ok⟩ := done
          obtain ⟨result, filled, _⟩ := except_map_ok ok
          exact (fill_ok _ _ _ _ _ _ filled).2
        · obtain ⟨result, filled⟩ := fill_of_answers run.google run.google.newId _ true
            ⟨recorded, req.spreadsheetTitle.getD (defaultTitle req.dataset), req.sheetTitle⟩
            table answers
          exact ⟨_, by rw [filled]; rfl⟩
    · rename_i disconnected
      refine .inl ⟨rfl, fun _ ok => (by cases ok), ?_⟩
      rintro ⟨connected, _⟩
      exact disconnected connected

/-! One run, and all of them -/

section
variable {req : ExportRequest} {s t : Sheets Row} {call : ExportCall Row}

theorem created_append (xs ys : List (SheetsCall Row)) :
    created (xs ++ ys) = created xs ++ created ys :=
  List.filterMap_append

/-- While there is no spreadsheet, nothing has been written. -/
theorem nothing_written (law : KeepsDestination s) (named : Named s)
    (unknown : nonEmpty (spreadsheetId s.scheduled) = none) : s.calls = [] := by
  rw [List.eq_nil_iff_forall_not_mem]
  intro call made
  rw [law.same call made] at unknown
  have some : nonEmpty (some call.target) = some call.target := by
    unfold nonEmpty
    simp [named call made]
  cases some.symm.trans unknown

/-- A run to a spreadsheet that is recorded goes on there. -/
theorem recorded_keeps (law : KeepsDestination s) {id : String}
    (known : nonEmpty (spreadsheetId s.scheduled) = some id)
    (starts : (call.operation req).starts s.scheduled = true) :
    KeepsDestination (Sheets.mk ((call.operation req).alone s.scheduled)
      (s.calls ++ (call.execution.attempt req (spreadsheetId s.scheduled)).1)) := by
  obtain ⟨⟨targets, none⟩, ok⟩ := attempt_recorded req call.execution known
  obtain ⟨recorded, _⟩ := nonEmpty_some known
  have still : spreadsheetId ((call.operation req).alone s.scheduled) = some id := by
    rw [alone_spreadsheetId starts]
    split
    · unfold recordedBy
      split
      · rename_i exported done
        rw [ok exported done]
      · exact recorded
    · exact recorded
  refine ⟨?_, fun c made => ?_⟩
  · rw [created_append, none, List.append_nil]
    exact law.once
  · rw [still]
    rcases List.mem_append.mp made with before | now
    · rw [← law.same c before, recorded]
    · rw [targets c now]

/-- A run that creates the spreadsheet keeps it exactly when it is recorded. -/
theorem unrecorded_keeps_iff (law : KeepsDestination s) (named : Named s)
    (unknown : nonEmpty (spreadsheetId s.scheduled) = none)
    (starts : (call.operation req).starts s.scheduled = true) :
    KeepsDestination (Sheets.mk ((call.operation req).alone s.scheduled)
      (s.calls ++ (call.execution.attempt req (spreadsheetId s.scheduled)).1)) ↔
      Completes req s call := by
  rw [nothing_written law named unknown, List.nil_append]
  rcases attempt_unrecorded req call.execution unknown with
    ⟨idle, _, stopped⟩ | ⟨title, table, watermark, filled, connected, creates, built, calls,
      ⟨targets, none⟩, ok, done⟩
  · rw [idle]
    refine iff_of_true ⟨Nat.zero_le 1, fun _ absent => absurd absent List.not_mem_nil⟩ ?_
    intro _ _ connected creates table watermark built
    exact absurd ⟨connected, creates, table, watermark, built⟩ stopped
  · have completes : Completes req s call ↔
        Answers call.execution.google req.sheetTitle table.rows ∧
          call.saves s.scheduled = true := by
      constructor
      · intro condition
        exact condition starts unknown connected creates table watermark built
      · intro both _ _ _ _ table' watermark' built'
        cases built.symm.trans built'
        exact both
    have fresh : spreadsheetId s.scheduled ≠ some call.execution.google.newId := by
      intro same
      have known : nonEmpty (some call.execution.google.newId) =
          some call.execution.google.newId := by
        unfold nonEmpty
        simp [call.execution.google.newId_ne]
      rw [same, known] at unknown
      cases unknown
    rw [completes, ← done, calls]
    constructor
    · intro kept
      have recorded := kept.same _ List.mem_cons_self
      dsimp only at recorded
      rw [alone_spreadsheetId starts] at recorded
      split at recorded
      · rename_i saves
        refine ⟨?_, saves⟩
        unfold recordedBy at recorded
        split at recorded
        · rename_i exported result
          exact ⟨exported, result⟩
        · exact absurd recorded fresh
      · exact absurd recorded fresh
    · rintro ⟨⟨exported, result⟩, saves⟩
      have recorded : spreadsheetId ((call.operation req).alone s.scheduled) =
          some call.execution.google.newId := by
        rw [alone_spreadsheetId starts, if_pos saves, result, ← ok exported result]
        rfl
      refine ⟨?_, fun c made => ?_⟩
      · have one : created (SheetsCall.createSpreadsheet call.execution.google.newId title
            req.sheetTitle :: filled) = [call.execution.google.newId] := by
          rw [created, List.filterMap_cons]
          exact congrArg (call.execution.google.newId :: ·) none
        rw [one]
        exact Nat.le_refl 1
      · rw [recorded]
        rcases List.mem_cons.mp made with rfl | made
        · rfl
        · rw [targets c made]

theorem call_keeps_iff (law : KeepsDestination s) (named : Named s) (called : Exports req s call t) :
    KeepsDestination t ↔ Completes req s call := by
  subst called
  unfold ExportCall.perform
  split
  · rename_i starts
    cases known : nonEmpty (spreadsheetId s.scheduled) with
    | some id =>
      refine iff_of_true (recorded_keeps law known starts) fun _ unknown => ?_
      cases known.symm.trans unknown
    | none => exact unrecorded_keeps_iff law named known starts
  · rename_i idle
    exact iff_of_true law fun starts => absurd starts idle

theorem call_named (named : Named s) (called : Exports req s call t) : Named t := by
  subst called
  unfold ExportCall.perform
  split
  · intro c made
    rcases List.mem_append.mp made with before | now
    · exact named c before
    · cases known : nonEmpty (spreadsheetId s.scheduled) with
      | some id =>
        rw [(attempt_recorded req call.execution known).1.1 c now]
        exact (nonEmpty_some known).2
      | none =>
        rcases attempt_unrecorded req call.execution known with
          ⟨idle, _⟩ | ⟨title, table, watermark, filled, _, _, _, calls, ⟨targets, _⟩, _⟩
        · rw [idle] at now
          cases now
        · rw [calls] at now
          rcases List.mem_cons.mp now with rfl | now
          · exact call.execution.google.newId_ne
          · rw [targets c now]
            exact call.execution.google.newId_ne
  · exact named

end

section
variable {req : ExportRequest} {s t : Sheets Row} {call : ExportCall Row}

theorem KeepsDestination.one (law : KeepsDestination s) : OneDestination s := by
  refine ⟨law.once, (spreadsheetId s.scheduled).getD "", fun call made => ?_⟩
  rw [law.same call made]
  rfl

/-- With the spreadsheet on the row, the next run writes there or, with none, creates one. -/
theorem KeepsDestination.stays (law : KeepsDestination s) (named : Named s) :
    StaysThere req s := by
  refine ⟨law.one, fun again => ?_⟩
  unfold ExportCall.perform
  split
  · rename_i starts
    cases known : nonEmpty (spreadsheetId s.scheduled) with
    | some id => exact (recorded_keeps law known starts).one
    | none =>
      rw [nothing_written law named known, List.nil_append]
      rcases attempt_unrecorded req again.execution known with
        ⟨idle, _⟩ | ⟨title, table, watermark, filled, _, _, _, calls, ⟨targets, none⟩, _⟩
      · rw [idle]
        exact ⟨Nat.zero_le 1, "", fun _ absent => absurd absent List.not_mem_nil⟩
      · rw [calls]
        have one : created (SheetsCall.createSpreadsheet again.execution.google.newId title
            req.sheetTitle :: filled) = [again.execution.google.newId] := by
          rw [created, List.filterMap_cons]
          exact congrArg (again.execution.google.newId :: ·) none
        refine ⟨?_, again.execution.google.newId, fun c made => ?_⟩
        · rw [one]
          exact Nat.le_refl 1
        · rcases List.mem_cons.mp made with rfl | made
          · rfl
          · exact targets c made
  · exact law.one

/-- A run in which nothing fails. -/
def smooth (built : Except String (ExportTable Row × Option Instant)) : Execution Row where
  startedAt := 0
  lastRun := 0
  built := built
  connected := true
  google := ⟨"new", by decide, none, none, [], false, fun _ => none⟩

/-- After a run that fails once it has created the spreadsheet, a run in which nothing fails creates
another. -/
theorem smooth_creates {built : Except String (ExportTable Row × Option Instant)}
    {table : ExportTable Row} {watermark : Option Instant} (fine : built = .ok (table, watermark))
    (unknown : nonEmpty (spreadsheetId t.scheduled) = none) (once : created t.calls ≠ []) :
    ¬ StaysThere req t := by
  intro stays
  have again := (stays.2 (.runNow (t.scheduled .workspaceId) (smooth built))).1
  have starts : ((ExportCall.runNow (t.scheduled .workspaceId) (smooth built)).operation req).starts
      t.scheduled = true := beq_self_eq_true _
  rw [ExportCall.perform, if_pos starts] at again
  dsimp only at again
  rcases attempt_unrecorded req (smooth built) unknown with
    ⟨_, _, stopped⟩ | ⟨title, _, _, filled, _, _, _, calls, _⟩
  · exact stopped ⟨rfl, rfl, table, watermark, fine⟩
  · have two : created (t.calls ++
        ((smooth built).attempt req (spreadsheetId t.scheduled)).1) =
          created t.calls ++ (smooth built).google.newId :: created filled := by
      rw [created_append, calls]
      rfl
    have some : 0 < (created t.calls).length := List.length_pos_iff.mpr once
    have execution : (ExportCall.runNow (t.scheduled .workspaceId) (smooth built)).execution =
      smooth built := rfl
    rw [execution, two, List.length_append, List.length_cons] at again
    omega

theorem incomplete_doubles (called : Exports req s call t) (fails : ¬ Completes req s call) :
    ¬ StaysThere req t := by
  intro stays
  apply fails
  intro starts unknown connected creates table watermark built
  by_contra unfinished
  rcases attempt_unrecorded req call.execution unknown with
    ⟨_, _, stopped⟩ | ⟨title, table', watermark', filled, _, _, built', calls, _, _, done⟩
  · exact stopped ⟨connected, creates, table, watermark, built⟩
  · cases built.symm.trans built'
    rw [← done] at unfinished
    subst called
    rw [ExportCall.perform, if_pos starts] at stays
    refine smooth_creates built ?_ ?_ stays
    · -- The id has not got onto the row.
      have still : spreadsheetId ((call.operation req).alone s.scheduled) =
          spreadsheetId s.scheduled := by
        rw [alone_spreadsheetId starts]
        split
        · rename_i saves
          unfold recordedBy
          split
          · rename_i exported result
            exact absurd ⟨⟨exported, result⟩, saves⟩ unfinished
          · rfl
        · rfl
      dsimp only
      rw [still, unknown]
    · dsimp only
      rw [created_append, calls]
      simp [created, SheetsCall.created]

end

/-- An export has one destination through all its runs exactly when no run that creates the
spreadsheet fails after that. -/
theorem destination_kept_iff (req : ExportRequest) (scheduled : ScheduledExport)
    {steps : List (Transition (Sheets Row) (ExportCall Row))} {s : Sheets Row}
    (run : Run (Exports req) ⟨scheduled, []⟩ steps s) :
    (∀ x ∈ steps, StaysThere req x.post) ↔ ∀ x ∈ steps, Completes req x.pre x.label := by
  have initial : KeepsDestination (Sheets.mk scheduled ([] : List (SheetsCall Row))) :=
    ⟨Nat.zero_le 1, fun _ absent => absurd absent List.not_mem_nil⟩
  have completes : ∀ (s : Sheets Row) call t, Exports req s call t → StaysThere req t →
      Completes req s call := by
    intro s call t called stays
    by_contra fails
    exact incomplete_doubles called fails stays
  exact run.lawful_steps_iff (I := fun s => KeepsDestination s ∧ Named s)
    (fun x => StaysThere req x.post) (fun x => Completes req x.pre x.label)
    ⟨initial, fun _ absent => absurd absent List.not_mem_nil⟩
    (fun s call t inv called stays =>
      ⟨(call_keeps_iff inv.1 inv.2 called).mpr (completes s call t called stays),
        call_named inv.2 called⟩)
    (fun s call t inv called => ⟨completes s call t called, fun done =>
      ((call_keeps_iff inv.1 inv.2 called).mpr done).stays (call_named inv.2 called)⟩)

/-! The first run of a weekly sheet -/

def roasSheet : ExportRequest := ⟨.roasSnapshots, 7, some "Weekly ROAS", "Verified ROAS"⟩

/-- A run with one row, in which the given requests fail. -/
def weeklyRun (newId : String) (newId_ne : newId ≠ "") (content : Bool)
    (fails : SheetsRequest → Option String) : ExportCall (List String) :=
  .runNow 1 {
    startedAt := 0
    lastRun := 10
    built := .ok (⟨["Run at", "ROAS"], [["Monday", "2.1"]]⟩, some 5)
    connected := true
    google := ⟨newId, newId_ne, none, none, ["Verified ROAS"], content, fails⟩ }

def exceeded : SheetsRequest → Option String
  | .append => some "Quota exceeded"
  | _ => none

/-- The rows cannot be appended; the next run makes a second spreadsheet. -/
theorem second_spreadsheet : ∃ steps, ∃ s : Sheets (List String),
    Run (Exports roasSheet) ⟨weeklySheet, []⟩ steps s ∧ created s.calls = ["first", "second"] ∧
      ¬ OneDestination s := by
  have failed := (@Run.nil _ _ (Exports roasSheet) ⟨weeklySheet, []⟩).snoc
    (a := weeklyRun "first" (by decide) false exceeded) rfl
  have again := failed.snoc (a := weeklyRun "second" (by decide) false fun _ => none) rfl
  refine ⟨_, _, again, rfl, fun one => ?_⟩
  exact absurd one.1 (by decide)

/-- The first run goes well; the second fails, and keeps the spreadsheet. -/
theorem failure_keeps : ∃ steps, ∃ s : Sheets (List String),
    Run (Exports roasSheet) ⟨weeklySheet, []⟩ steps s ∧ created s.calls = ["first"] ∧
      ∀ x ∈ steps, StaysThere roasSheet x.post := by
  have done := (@Run.nil _ _ (Exports roasSheet) ⟨weeklySheet, []⟩).snoc
    (a := weeklyRun "first" (by decide) false fun _ => none) rfl
  have failed := done.snoc (a := weeklyRun "second" (by decide) true exceeded) rfl
  refine ⟨_, _, failed, rfl, (destination_kept_iff roasSheet weeklySheet failed).mpr ?_⟩
  intro x taken
  simp only [List.nil_append, List.mem_append, List.mem_singleton] at taken
  rcases taken with rfl | rfl
  · intro _ _ _ _ table watermark built
    exact ⟨⟨rfl, .inr rfl, rfl, .inr rfl⟩, rfl⟩
  · intro _ unknown
    cases unknown

end Gomer.Schedules
