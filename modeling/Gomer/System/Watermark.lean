import Mathlib.Data.List.Nodup
import Gomer.Database.Entities
import Gomer.Lib.Trace
import Gomer.Schedules.Exports

/-! A recurring export of an event dataset, over its successful runs. Each run resumes behind the
newest row of the one before, by a time that has lost the digits below a millisecond, while rows are
created and committed at any moment. -/
namespace Gomer.Watermark

open Trace

/-- A snapshot or a rule action. -/
structure Event where
  id : Nat
  createdAt : Int
  deriving DecidableEq, Repr

def maxRowsPerRun : Nat := 500

/-- `newest`, over the dates of the rows. -/
def newest (dates : List Int) : Option Int :=
  dates.foldl (fun latest date =>
    match latest with
    | none => some date
    | some time => if time < date then some date else some time) none

/-- Where the next run resumes: `built.watermark ?? startedAt`. -/
def nextWatermark (startedAt : Int) (page : List Event) : Int :=
  (newest (page.map fun row => toDate row.createdAt)).getD startedAt

def daysAgo (now : Int) (days : Nat) : Int := now - days * (24 * 60 * 60 * 1000)

/-- `createdAt > since`, oldest first; rows that tie come in any order. -/
def IsAnswer (rows : List Event) (since : Int) (answer : List Event) : Prop :=
  answer.Perm (rows.filter fun row => ofDate since < row.createdAt) ∧
    answer.Pairwise fun a b => a.createdAt ≤ b.createdAt

instance (rows : List Event) (since : Int) (answer : List Event) :
    Decidable (IsAnswer rows since answer) := inferInstanceAs (Decidable (_ ∧ _))

inductive Phase where
  | idle
  | started (startedAt watermark : Int)
  | fetched (startedAt : Int) (page : List Event)
  deriving DecidableEq, Repr

/-- `pending` holds the rows of transactions that have not committed; `lookback` is where the first
run has started to look. -/
structure State where
  clock : Int
  visible : List Event
  pending : List Event
  lastExportedAt : Option Int
  lookback : Option Int
  appended : List Event
  phase : Phase
  deriving DecidableEq, Repr

def State.rows (s : State) : List Event := s.visible ++ s.pending

def start (clock : Int) : State := ⟨clock, [], [], none, none, [], .idle⟩

inductive Act where
  | wait (clock : Int)
  | insert (id : Nat)
  | commit (row : Event)
  | begin
  | query (answer : List Event)
  | finish
  deriving DecidableEq, Repr

def step (windowDays : Nat) (s : State) : Act → Option State
  | .wait clock => if s.clock ≤ clock then some { s with clock := clock } else none
  | .insert id =>
    if id ∈ s.rows.map (·.id) then none
    else some { s with pending := s.pending ++ [⟨id, s.clock⟩] }
  | .commit row =>
    if row ∈ s.pending then
      some { s with visible := s.visible ++ [row], pending := s.pending.erase row }
    else none
  | .begin =>
    match s.phase with
    | .idle =>
      let startedAt := toDate s.clock
      let watermark := s.lastExportedAt.getD (daysAgo startedAt windowDays)
      some { s with
        lookback := some (s.lookback.getD watermark)
        phase := .started startedAt watermark }
    | _ => none
  | .query answer =>
    match s.phase with
    | .started startedAt watermark =>
      if IsAnswer s.visible watermark answer then
        some { s with phase := .fetched startedAt (answer.take maxRowsPerRun) }
      else none
    | _ => none
  | .finish =>
    match s.phase with
    | .fetched startedAt page =>
      some { s with
        appended := s.appended ++ page
        lastExportedAt := some (nextWatermark startedAt page)
        phase := .idle }
    | _ => none

abbrev Step (windowDays : Nat) (s : State) (a : Act) (t : State) : Prop :=
  step windowDays s a = some t

/-- The row of an export after a successful run, as `nextWatermark` has it. -/
theorem exportHasRun_lastExportedAt (run : Schedules.ExportRun) (nextRun : Option Int)
    (scheduled : Schedules.ScheduledExport) {exported : Schedules.Exported} (page : List Event)
    (succeeded : run.outcome scheduled = .ok exported)
    (watermark : exported.watermark = newest (page.map fun row => toDate row.createdAt)) :
    Schedules.exportHasRun run nextRun scheduled .lastExportedAt =
      some (some (nextWatermark run.startedAt page)) := by
  unfold Schedules.exportHasRun
  rw [succeeded]
  dsimp only
  rw [watermark]
  rfl

/-! The law, and the condition on a step -/

/-- The rows of the lookback up to the watermark are the ones that have been exported, each once. -/
structure Resumable (s : State) : Prop where
  once : s.appended.Nodup
  apart : ∀ watermark lookback, s.lastExportedAt = some watermark → s.lookback = some lookback →
    ∀ row ∈ s.rows, ofDate lookback < row.createdAt →
      (row ∈ s.appended ↔ row.createdAt ≤ ofDate watermark)

/-- The newest row of a page falls on a whole millisecond. -/
def WholeNewest (page : List Event) : Prop :=
  ∀ row ∈ page, (∀ other ∈ page, other.createdAt ≤ row.createdAt) → row.createdAt % 1000 = 0

/-- A run leaves no row that it has not read at or before its watermark, and cuts no digits off it;
no row is created at or before the watermark later. -/
def CleanCut (s : State) : Act → Prop
  | .finish => ∀ startedAt page lookback, s.phase = .fetched startedAt page →
      s.lookback = some lookback → WholeNewest page ∧
        ∀ row ∈ s.rows, row ∉ s.appended → row ∉ page → ofDate lookback < row.createdAt →
          ofDate (nextWatermark startedAt page) < row.createdAt
  | .insert _ => ∀ watermark lookback, s.lastExportedAt = some watermark →
      s.lookback = some lookback → ofDate lookback < s.clock → ofDate watermark < s.clock
  | _ => True

/-! What the code keeps in any case -/

/-- A run that resumes behind `watermark`. -/
structure Running (s : State) (startedAt watermark : Int) : Prop where
  resumes : s.lastExportedAt.getD watermark = watermark
  first : s.lastExportedAt = none → s.lookback = some watermark
  lookback : ∃ lookback, s.lookback = some lookback ∧ lookback ≤ watermark
  before : watermark ≤ startedAt
  past : ofDate startedAt ≤ s.clock

def Phase.Sound (s : State) : Phase → Prop
  | .idle => s.lastExportedAt = none → s.lookback = none
  | .started startedAt watermark => Running s startedAt watermark
  | .fetched startedAt page => ∃ watermark, Running s startedAt watermark ∧ page.Nodup ∧
      ∀ row ∈ page, row ∈ s.visible ∧ ofDate watermark < row.createdAt

structure Inv (s : State) : Prop where
  ids : (s.rows.map (·.id)).Nodup
  past : ∀ row ∈ s.rows, row.createdAt ≤ s.clock
  exported : ∀ row ∈ s.appended, row ∈ s.visible
  unmarked : s.lastExportedAt = none → s.appended = []
  marked : ∀ watermark, s.lastExportedAt = some watermark → ofDate watermark ≤ s.clock ∧
    ∃ lookback, s.lookback = some lookback ∧ lookback ≤ watermark
  phase : s.phase.Sound s

theorem newest_spec (dates : List Int) (latest : Option Int) :
    let newest := dates.foldl (fun latest date =>
      match latest with
      | none => some date
      | some time => if time < date then some date else some time) latest
    (∀ date, date ∈ dates ∨ latest = some date → ∃ time, newest = some time ∧ date ≤ time) ∧
      ∀ time, newest = some time → time ∈ dates ∨ latest = some time := by
  induction dates generalizing latest with
  | nil =>
    refine ⟨fun date known => ?_, fun time same => .inr same⟩
    rcases known with absent | known
    · cases absent
    · exact ⟨date, known, Int.le_refl date⟩
  | cons head rest ih =>
    simp only [List.foldl_cons, List.mem_cons]
    cases latest with
    | none =>
      obtain ⟨above, found⟩ := ih (some head)
      refine ⟨fun date known => ?_, fun time same => ?_⟩
      · rcases known with (rfl | known) | known
        · exact above date (.inr rfl)
        · exact above date (.inl known)
        · cases known
      · rcases found time same with known | known
        · exact .inl (.inr known)
        · exact .inl (.inl (Option.some.inj known).symm)
    | some last =>
      dsimp only
      split
      · rename_i later
        obtain ⟨above, found⟩ := ih (some head)
        obtain ⟨time, latest, le⟩ := above head (.inr rfl)
        refine ⟨fun date known => ?_, fun time same => ?_⟩
        · rcases known with (rfl | known) | known
          · exact above date (.inr rfl)
          · exact above date (.inl known)
          · cases known
            exact ⟨time, latest, by omega⟩
        · rcases found time same with known | known
          · exact .inl (.inr known)
          · exact .inl (.inl (Option.some.inj known).symm)
      · rename_i earlier
        obtain ⟨above, found⟩ := ih (some last)
        obtain ⟨time, latest, le⟩ := above last (.inr rfl)
        refine ⟨fun date known => ?_, fun time same => ?_⟩
        · rcases known with (rfl | known) | known
          · exact ⟨time, latest, by omega⟩
          · exact above date (.inl known)
          · exact above date (.inr known)
        · rcases found time same with known | known
          · exact .inl (.inr known)
          · exact .inr known

/-- Behind a page with rows, the watermark is the latest date among them. -/
theorem nextWatermark_cons (startedAt : Int) {page : List Event} (rows : page ≠ []) :
    (∀ row ∈ page, toDate row.createdAt ≤ nextWatermark startedAt page) ∧
      ∃ row ∈ page, nextWatermark startedAt page = toDate row.createdAt := by
  obtain ⟨above, found⟩ := newest_spec (page.map fun row => toDate row.createdAt) none
  have listed : ∀ row ∈ page, ∃ time, newest (page.map fun row => toDate row.createdAt) = some time ∧
      toDate row.createdAt ≤ time := fun row member => above _ (.inl (List.mem_map_of_mem member))
  obtain ⟨row, member⟩ := List.exists_mem_of_ne_nil page rows
  obtain ⟨time, latest, _⟩ := listed row member
  have value : nextWatermark startedAt page = time := by
    rw [nextWatermark, latest]
    rfl
  rw [value]
  refine ⟨fun other known => ?_, ?_⟩
  · obtain ⟨time', same, le⟩ := listed other known
    cases latest.symm.trans same
    exact le
  · rcases found time latest with known | none
    · obtain ⟨newest, member, same⟩ := List.mem_map.mp known
      exact ⟨newest, member, same.symm⟩
    · cases none

theorem exists_latest {page : List Event} (rows : page ≠ []) :
    ∃ row ∈ page, ∀ other ∈ page, other.createdAt ≤ row.createdAt := by
  induction page with
  | nil => exact absurd rfl rows
  | cons first rest ih =>
    by_cases more : rest = []
    · subst more
      exact ⟨first, List.mem_cons_self, fun other member =>
        (List.mem_singleton.mp member) ▸ Int.le_refl _⟩
    · obtain ⟨row, member, latest⟩ := ih more
      by_cases le : first.createdAt ≤ row.createdAt
      · exact ⟨row, List.mem_cons_of_mem first member, List.forall_mem_cons.mpr ⟨le, latest⟩⟩
      · refine ⟨first, List.mem_cons_self, List.forall_mem_cons.mpr ⟨Int.le_refl _, ?_⟩⟩
        intro other known
        have below := latest other known
        omega

/-- No digits are cut off exactly when the page lies at or before the next watermark. -/
theorem wholeNewest_iff (startedAt : Int) (page : List Event) : WholeNewest page ↔
    ∀ row ∈ page, row.createdAt ≤ ofDate (nextWatermark startedAt page) := by
  by_cases rows : page = []
  · subst rows
    exact iff_of_true (fun _ absent => absurd absent List.not_mem_nil)
      fun _ absent => absurd absent List.not_mem_nil
  · obtain ⟨above, last, member, value⟩ := nextWatermark_cons startedAt rows
    constructor
    · intro whole row known
      obtain ⟨newest, listed, latest⟩ := exists_latest rows
      have exact := whole newest listed latest
      have below := latest row known
      have date := above newest listed
      unfold toDate at date
      unfold ofDate
      omega
    · intro below row known latest
      have bound := below row known
      have order := latest last member
      rw [value] at bound
      unfold ofDate toDate at bound
      omega

section
variable {s t : State} {windowDays : Nat}

/-- What a step does, and where it can be taken. -/
inductive Taken (windowDays : Nat) (s : State) : Act → State → Prop where
  | wait {clock : Int} (later : s.clock ≤ clock) :
      Taken windowDays s (.wait clock) { s with clock := clock }
  | insert {id : Nat} (fresh : id ∉ s.rows.map (·.id)) :
      Taken windowDays s (.insert id) { s with pending := s.pending ++ [⟨id, s.clock⟩] }
  | commit {row : Event} (member : row ∈ s.pending) :
      Taken windowDays s (.commit row)
        { s with visible := s.visible ++ [row], pending := s.pending.erase row }
  | begin {watermark : Int} (idle : s.phase = .idle)
      (resumes : watermark = s.lastExportedAt.getD (daysAgo (toDate s.clock) windowDays)) :
      Taken windowDays s .begin
        { s with
          lookback := some (s.lookback.getD watermark)
          phase := .started (toDate s.clock) watermark }
  | query {startedAt watermark : Int} {answer : List Event}
      (started : s.phase = .started startedAt watermark)
      (answers : IsAnswer s.visible watermark answer) :
      Taken windowDays s (.query answer)
        { s with phase := .fetched startedAt (answer.take maxRowsPerRun) }
  | finish {startedAt : Int} {page : List Event} (fetched : s.phase = .fetched startedAt page) :
      Taken windowDays s .finish
        { s with
          appended := s.appended ++ page
          lastExportedAt := some (nextWatermark startedAt page)
          phase := .idle }

theorem step_taken {a : Act} (taken : Step windowDays s a t) : Taken windowDays s a t := by
  cases a with
  | wait clock =>
    simp only [Step, step] at taken
    split at taken <;> cases taken
    rename_i later
    exact .wait later
  | insert id =>
    simp only [Step, step] at taken
    split at taken <;> cases taken
    rename_i fresh
    exact .insert fresh
  | commit row =>
    simp only [Step, step] at taken
    split at taken <;> cases taken
    rename_i member
    exact .commit member
  | begin =>
    simp only [Step, step] at taken
    split at taken <;> cases taken
    rename_i idle
    exact .begin idle rfl
  | query answer =>
    simp only [Step, step] at taken
    split at taken
    · rename_i startedAt watermark started
      split at taken <;> cases taken
      rename_i answers
      exact .query started answers
    · cases taken
  | finish =>
    simp only [Step, step] at taken
    split at taken <;> cases taken
    rename_i startedAt page fetched
    exact .finish fetched

theorem Running.mono {startedAt watermark : Int} (running : Running s startedAt watermark)
    (mark : t.lastExportedAt = s.lastExportedAt) (lookback : t.lookback = s.lookback)
    (clock : s.clock ≤ t.clock) : Running t startedAt watermark where
  resumes := by rw [mark, running.resumes]
  first := by rw [mark, lookback]; exact running.first
  lookback := by rw [lookback]; exact running.lookback
  before := running.before
  past := Int.le_trans running.past clock

/-- Steps between those of a run: time passes, and rows come and become visible. -/
theorem Phase.Sound.mono {phase : Phase} (sound : phase.Sound s)
    (mark : t.lastExportedAt = s.lastExportedAt) (lookback : t.lookback = s.lookback)
    (clock : s.clock ≤ t.clock) (visible : ∀ row ∈ s.visible, row ∈ t.visible) :
    phase.Sound t := by
  cases phase with
  | idle =>
    intro unmarked
    rw [lookback]
    exact sound (mark ▸ unmarked)
  | started startedAt watermark => exact Running.mono sound mark lookback clock
  | fetched startedAt page =>
    obtain ⟨watermark, running, nodup, rows⟩ := sound
    exact ⟨watermark, running.mono mark lookback clock, nodup,
      fun row member => ⟨visible row (rows row member).1, (rows row member).2⟩⟩

theorem Running.next {startedAt watermark : Int} {page : List Event}
    (running : Running s startedAt watermark)
    (rows : ∀ row ∈ page, row.createdAt ≤ s.clock ∧ ofDate watermark < row.createdAt) :
    watermark ≤ nextWatermark startedAt page ∧
      ofDate (nextWatermark startedAt page) ≤ s.clock := by
  by_cases none : page = []
  · subst none
    exact ⟨running.before, running.past⟩
  · obtain ⟨_, row, member, value⟩ := nextWatermark_cons startedAt none
    obtain ⟨past, after⟩ := rows row member
    rw [value]
    unfold ofDate toDate at *
    omega

theorem mem_rows {row : Event} : row ∈ s.rows ↔ row ∈ s.visible ∨ row ∈ s.pending :=
  List.mem_append

theorem commit_rows {row : Event} (member : row ∈ s.pending) :
    (s.visible ++ [row] ++ s.pending.erase row).Perm s.rows := by
  rw [List.append_assoc]
  exact (List.perm_cons_erase member).symm.append_left s.visible

theorem Inv.idle (inv : Inv s) (idle : s.phase = .idle) (unmarked : s.lastExportedAt = none) :
    s.lookback = none := by
  have sound := inv.phase
  rw [idle] at sound
  exact sound unmarked

theorem Inv.running (inv : Inv s) {startedAt watermark : Int}
    (started : s.phase = .started startedAt watermark) : Running s startedAt watermark := by
  have sound := inv.phase
  rw [started] at sound
  exact sound

theorem Inv.fetched (inv : Inv s) {startedAt : Int} {page : List Event}
    (fetched : s.phase = .fetched startedAt page) :
    ∃ watermark, Running s startedAt watermark ∧ page.Nodup ∧
      ∀ row ∈ page, row ∈ s.visible ∧ ofDate watermark < row.createdAt := by
  have sound := inv.phase
  rw [fetched] at sound
  exact sound

theorem rows_insert (id : Nat) : State.rows { s with pending := s.pending ++ [⟨id, s.clock⟩] } =
    s.rows ++ [⟨id, s.clock⟩] := by
  simp [State.rows]

/-- A run resumes where the one before has stopped, and the first one a window ago. -/
theorem Inv.begin (inv : Inv s) (idle : s.phase = .idle) {watermark : Int}
    (resumes : watermark = s.lastExportedAt.getD (daysAgo (toDate s.clock) windowDays)) :
    Running { s with
      lookback := some (s.lookback.getD watermark)
      phase := .started (toDate s.clock) watermark } (toDate s.clock) watermark := by
  subst resumes
  have past : ofDate (toDate s.clock) ≤ s.clock := by
    unfold ofDate toDate
    omega
  cases mark : s.lastExportedAt with
  | none =>
    refine ⟨by simp, fun _ => by simp [inv.idle idle mark], ?_, ?_, past⟩
    · exact ⟨_, by simp [inv.idle idle mark], Int.le_refl _⟩
    · simp only [Option.getD_none, daysAgo]
      omega
  | some watermark =>
    obtain ⟨before, lookback, known, le⟩ := inv.marked watermark mark
    refine ⟨by simp, fun none => ?_, ?_, ?_, past⟩
    · cases none
    · exact ⟨lookback, by simp [known], by simpa using le⟩
    · simp only [Option.getD_some]
      unfold ofDate at before
      unfold toDate
      omega

theorem step_inv {a : Act} (inv : Inv s) (taken : Step windowDays s a t) : Inv t := by
  cases step_taken taken with
  | wait later =>
    exact ⟨inv.ids, fun row member => Int.le_trans (inv.past row member) later, inv.exported,
      inv.unmarked, fun watermark mark => ⟨Int.le_trans (inv.marked watermark mark).1 later,
        (inv.marked watermark mark).2⟩, inv.phase.mono rfl rfl later fun _ known => known⟩
  | @insert id fresh =>
    refine ⟨?_, ?_, inv.exported, inv.unmarked, inv.marked,
      inv.phase.mono rfl rfl (Int.le_refl _) fun _ known => known⟩
    · rw [rows_insert, List.map_append]
      exact List.nodup_append_comm.mp (List.nodup_cons.mpr ⟨fresh, inv.ids⟩)
    · rw [rows_insert]
      intro row member
      rcases List.mem_append.mp member with old | new
      · exact inv.past row old
      · rw [List.mem_singleton.mp new]
  | commit member =>
    have same := commit_rows member
    exact ⟨(same.map _).nodup_iff.mpr inv.ids, fun r hr => inv.past r (same.mem_iff.mp hr),
      fun r hr => List.mem_append_left _ (inv.exported r hr), inv.unmarked, inv.marked,
      inv.phase.mono rfl rfl (Int.le_refl _) fun r hr => List.mem_append_left _ hr⟩
  | begin idle resumes =>
    refine ⟨inv.ids, inv.past, inv.exported, inv.unmarked, ?_, inv.begin idle resumes⟩
    intro watermark mark
    obtain ⟨past, lookback, known, le⟩ := inv.marked watermark mark
    exact ⟨past, lookback, by simp [known], le⟩
  | @query startedAt watermark answer started answers =>
    have nodup : answer.Nodup := answers.1.nodup_iff.mpr
      ((List.nodup_append.mp (inv.ids.of_map _)).1.filter _)
    refine ⟨inv.ids, inv.past, inv.exported, inv.unmarked, inv.marked, watermark,
      (inv.running started).mono rfl rfl (Int.le_refl _), nodup.sublist (List.take_sublist _ _), ?_⟩
    intro row member
    obtain ⟨visible, after⟩ := List.mem_filter.mp
      (answers.1.mem_iff.mp ((List.take_sublist _ _).subset member))
    exact ⟨visible, of_decide_eq_true after⟩
  | @finish startedAt page fetched =>
    obtain ⟨watermark, running, _, rows⟩ := inv.fetched fetched
    obtain ⟨ge, le⟩ := running.next fun row member =>
      ⟨inv.past row (mem_rows.mpr (.inl (rows row member).1)), (rows row member).2⟩
    refine ⟨inv.ids, inv.past, ?_, fun none => (by cases none), ?_, fun none => (by cases none)⟩
    · intro row member
      rcases List.mem_append.mp member with old | new
      · exact inv.exported row old
      · exact (rows row new).1
    · intro mark same
      cases same
      obtain ⟨lookback, known, before⟩ := running.lookback
      exact ⟨le, lookback, known, Int.le_trans before ge⟩

/-! What a step keeps of the law -/

theorem insert_resumable_iff (inv : Inv s) (law : Resumable s) {id : Nat}
    (taken : Step windowDays s (.insert id) t) : Resumable t ↔ CleanCut s (.insert id) := by
  cases step_taken taken with
  | insert fresh =>
    have new : (⟨id, s.clock⟩ : Event) ∉ s.appended := by
      intro member
      exact fresh (List.mem_map_of_mem (mem_rows.mpr (.inl (inv.exported _ member))))
    constructor
    · intro after watermark lookback mark known recent
      have listed : (⟨id, s.clock⟩ : Event) ∈ s.rows ++ [⟨id, s.clock⟩] :=
        List.mem_append_right _ (List.mem_singleton_self _)
      have iff := after.apart watermark lookback mark known _ (rows_insert id ▸ listed) recent
      by_contra late
      exact new (iff.mpr (Int.not_lt.mp late))
    · intro clean
      refine ⟨law.once, fun watermark lookback mark known row member recent => ?_⟩
      rw [rows_insert] at member
      rcases List.mem_append.mp member with old | last
      · exact law.apart watermark lookback mark known row old recent
      · cases List.mem_singleton.mp last
        exact iff_of_false new (Int.not_le.mpr (clean watermark lookback mark known recent))

theorem finish_resumable_iff (inv : Inv s) (law : Resumable s)
    (taken : Step windowDays s .finish t) : Resumable t ↔ CleanCut s .finish := by
  cases step_taken taken with
  | @finish startedAt page fetched =>
    obtain ⟨watermark, running, nodup, rows⟩ := inv.fetched fetched
    obtain ⟨lookback, known, le⟩ := running.lookback
    have visible : ∀ row ∈ page, row ∈ s.rows := fun row member =>
      mem_rows.mpr (.inl (rows row member).1)
    have recent : ∀ row ∈ page, ofDate lookback < row.createdAt := by
      intro row member
      have after := (rows row member).2
      unfold ofDate at *
      omega
    -- Everything exported before lies at or before the old watermark.
    have old : ∀ row ∈ s.appended, ofDate lookback < row.createdAt →
        row.createdAt ≤ ofDate watermark := by
      intro row member late
      cases mark : s.lastExportedAt with
      | none =>
        rw [inv.unmarked mark] at member
        cases member
      | some time =>
        have same := running.resumes
        rw [mark, Option.getD_some] at same
        subst same
        exact (law.apart _ lookback mark known row
          (mem_rows.mpr (.inl (inv.exported row member))) late).mp member
    have next := (running.next fun row member => ⟨inv.past row (visible row member),
      (rows row member).2⟩).1
    constructor
    · intro after startedAt' page' lookback' fetched' known'
      cases fetched.symm.trans fetched'
      cases known.symm.trans known'
      have apart := after.apart _ lookback rfl known
      refine ⟨(wholeNewest_iff startedAt page).mpr fun row member => ?_,
        fun row member unread unfetched late => ?_⟩
      · exact (apart row (visible row member) (recent row member)).mp
          (List.mem_append_right _ member)
      · by_contra early
        rcases List.mem_append.mp ((apart row member late).mpr (Int.not_lt.mp early)) with h | h
        · exact unread h
        · exact unfetched h
    · intro clean
      obtain ⟨whole, behind⟩ := clean startedAt page lookback fetched known
      refine ⟨?_, fun mark lookback' same known' row member late => ?_⟩
      · refine List.nodup_append.mpr ⟨law.once, nodup, ?_⟩
        rintro row exported _ again rfl
        have before := old row exported (recent row again)
        have after := (rows row again).2
        omega
      · cases same
        cases known.symm.trans known'
        constructor
        · intro exported
          rcases List.mem_append.mp exported with before | now
          · have bound := old row before late
            unfold ofDate at *
            omega
          · exact (wholeNewest_iff startedAt page).mp whole row now
        · intro early
          by_contra unread
          rw [List.mem_append, not_or] at unread
          have late' := behind row member unread.1 unread.2 late
          omega

theorem step_resumable_iff {a : Act} (inv : Inv s) (law : Resumable s)
    (taken : Step windowDays s a t) : Resumable t ↔ CleanCut s a := by
  cases step_taken taken with
  | insert fresh => exact insert_resumable_iff inv law taken
  | finish fetched => exact finish_resumable_iff inv law taken
  | wait later => exact iff_of_true ⟨law.once, law.apart⟩ trivial
  | commit member =>
    refine iff_of_true ?_ trivial
    exact ⟨law.once, fun watermark lookback mark known r hr =>
      law.apart watermark lookback mark known r ((commit_rows member).mem_iff.mp hr)⟩
  | begin idle resumes =>
    refine iff_of_true ⟨law.once, fun watermark lookback mark known => ?_⟩ trivial
    obtain ⟨_, since, before, _⟩ := inv.marked watermark mark
    refine law.apart watermark lookback mark ?_
    rw [before]
    simpa [before] using known
  | query started answers => exact iff_of_true ⟨law.once, law.apart⟩ trivial

end

theorem start_inv (clock : Int) : Inv (start clock) where
  ids := List.nodup_nil
  past := fun _ absent => absurd absent List.not_mem_nil
  exported := fun _ absent => absurd absent List.not_mem_nil
  unmarked := fun _ => rfl
  marked := fun _ none => by cases none
  phase := fun _ => rfl

theorem start_resumable (clock : Int) : Resumable (start clock) where
  once := List.nodup_nil
  apart := fun _ _ none => by cases none

theorem run_resumable_iff {windowDays : Nat} {clock : Int} {steps : List (Transition State Act)}
    {s : State} (run : Run (Step windowDays) (start clock) steps s) :
    (∀ x ∈ steps, Resumable x.post) ↔ ∀ x ∈ steps, CleanCut x.pre x.label :=
  run.states_iff Resumable CleanCut (start_inv clock)
    (fun _ _ _ inv taken => step_inv inv taken) (start_resumable clock)
    (fun _ _ _ inv law taken => step_resumable_iff inv law taken)

/-! Enough runs -/

def finishes : Act → Bool
  | .finish => true
  | _ => false

def runs (steps : List (Transition State Act)) : Nat := steps.countP fun x => finishes x.label

/-- The rows created up to a row. -/
def upTo (s : State) (row : Event) : Nat :=
  s.rows.countP fun other => other.createdAt ≤ row.createdAt

/-- What a run has fetched has the row, or is full of rows up to it. -/
def Phase.Takes (row : Event) : Phase → Prop
  | .fetched _ page => row ∈ page ∨
      page.length = maxRowsPerRun ∧ ∀ other ∈ page, other.createdAt ≤ row.createdAt
  | _ => True

/-- After `n` runs the row is exported, or every run but the first was taken up by rows up to it. -/
structure Progress (row : Event) (n : Nat) (s : State) : Prop where
  visible : row ∈ s.visible
  exported : row ∈ s.appended ∨
    maxRowsPerRun * (n - 1) ≤ s.appended.countP (fun other => other.createdAt ≤ row.createdAt) ∧
      (n = 0 ∨ s.phase.Takes row)

/-- A sorted answer that is cut off before a row has only rows up to it. -/
theorem take_takes {rows answer : List Event} {since startedAt : Int} {row : Event}
    (answers : IsAnswer rows since answer) (member : row ∈ rows)
    (after : ofDate since < row.createdAt) :
    (Phase.fetched startedAt (answer.take maxRowsPerRun)).Takes row := by
  have listed : row ∈ answer :=
    answers.1.mem_iff.mpr (List.mem_filter.mpr ⟨member, decide_eq_true after⟩)
  rw [← List.take_append_drop maxRowsPerRun answer] at listed
  rcases List.mem_append.mp listed with within | beyond
  · exact .inl within
  · have sorted := answers.2
    rw [← List.take_append_drop maxRowsPerRun answer] at sorted
    refine .inr ⟨?_, fun other taken => (List.pairwise_append.mp sorted).2.2 other taken row beyond⟩
    have long : 0 < (answer.drop maxRowsPerRun).length := List.length_pos_of_mem beyond
    rw [List.length_drop] at long
    rw [List.length_take]
    omega

section
variable {s t : State} {windowDays : Nat} {row : Event} {n : Nat}

theorem Progress.of_same (before : Progress row n s) (visible : ∀ r ∈ s.visible, r ∈ t.visible)
    (appended : t.appended = s.appended) (phase : s.phase.Takes row → t.phase.Takes row) :
    Progress row n t where
  visible := visible row before.visible
  exported := by
    rw [appended]
    rcases before.exported with done | ⟨many, takes⟩
    · exact .inl done
    · exact .inr ⟨many, takes.imp_right phase⟩

theorem lookback_kept {a : Act} (taken : Step windowDays s a t) {lookback : Int}
    (known : s.lookback = some lookback) : t.lookback = some lookback := by
  cases step_taken taken with
  | begin idle resumes => simp [known]
  | _ => exact known

theorem query_progress {answer : List Event} (inv : Inv s) (law : Resumable s)
    (recent : ∀ lookback, s.lookback = some lookback → ofDate lookback < row.createdAt)
    (before : Progress row n s) (taken : Step windowDays s (.query answer) t) :
    Progress row n t := by
  cases step_taken taken with
  | @query startedAt watermark _ started answers =>
    refine ⟨before.visible, ?_⟩
    by_cases done : row ∈ s.appended
    · exact .inl done
    · have many := (before.exported.resolve_left done).1
      refine .inr ⟨many, .inr (take_takes answers before.visible ?_)⟩
      -- What is not exported lies behind the watermark that the run resumes from.
      have running := inv.running started
      obtain ⟨lookback, known, le⟩ := running.lookback
      cases mark : s.lastExportedAt with
      | none => exact recent watermark (running.first mark)
      | some time =>
        have same := running.resumes
        rw [mark, Option.getD_some] at same
        subst same
        have apart := law.apart time lookback mark known row
          (mem_rows.mpr (.inl before.visible)) (recent lookback known)
        by_contra early
        exact done (apart.mpr (Int.not_lt.mp early))

theorem finish_progress (before : Progress row n s) (taken : Step windowDays s .finish t) :
    Progress row (n + 1) t := by
  cases step_taken taken with
  | @finish startedAt page fetched =>
    refine ⟨before.visible, ?_⟩
    rcases before.exported with done | ⟨many, takes⟩
    · exact .inl (List.mem_append_left _ done)
    · rcases takes with first | takes
      · subst first
        exact .inr ⟨Nat.zero_le _, .inr trivial⟩
      · rw [fetched] at takes
        rcases takes with within | ⟨full, below⟩
        · exact .inl (List.mem_append_right _ within)
        · have every : page.countP (fun other => other.createdAt ≤ row.createdAt) =
              maxRowsPerRun := by
            rw [← full, List.countP_eq_length]
            exact fun other member => decide_eq_true (below other member)
          refine .inr ⟨?_, .inr trivial⟩
          rw [List.countP_append, every]
          unfold maxRowsPerRun at *
          omega

theorem step_progress {a : Act} (inv : Inv s) (law : Resumable s)
    (recent : ∀ lookback, s.lookback = some lookback → ofDate lookback < row.createdAt)
    (before : Progress row n s) (taken : Step windowDays s a t) :
    Progress row (n + if finishes a then 1 else 0) t := by
  cases step_taken taken with
  | query started answers => exact query_progress inv law recent before taken
  | finish fetched => exact finish_progress before taken
  | wait later => exact before.of_same (fun _ known => known) rfl id
  | insert fresh => exact before.of_same (fun _ known => known) rfl fun takes => takes
  | commit member => exact before.of_same (fun _ known => List.mem_append_left _ known) rfl id
  | begin idle resumes => exact before.of_same (fun _ known => known) rfl fun _ => trivial

theorem run_law {rest : List (Transition State Act)} (run : Run (Step windowDays) s rest t)
    (inv : Inv s) (law : Resumable s) (clean : ∀ x ∈ rest, CleanCut x.pre x.label) :
    Inv t ∧ Resumable t := by
  have kept : ∀ u a v, Inv u ∧ Resumable u → Step windowDays u a v → CleanCut u a →
      Inv v ∧ Resumable v := fun _ _ _ ⟨inv, law⟩ taken met =>
    ⟨step_inv inv taken, (step_resumable_iff inv law taken).mpr met⟩
  exact (run.invariant_of (fun x => CleanCut x.pre x.label) ⟨inv, law⟩ kept clean).1

theorem run_progress {rest : List (Transition State Act)} (run : Run (Step windowDays) s rest t)
    (inv : Inv s) (law : Resumable s) (clean : ∀ x ∈ rest, CleanCut x.pre x.label)
    (recent : ∀ lookback, t.lookback = some lookback → ofDate lookback < row.createdAt)
    (member : row ∈ s.visible) : Progress row (runs rest) t := by
  induction run with
  | nil => exact ⟨member, .inr ⟨Nat.zero_le _, .inl rfl⟩⟩
  | @snoc steps u t a earlier taken ih =>
    rw [List.forall_mem_append] at clean
    have earliest : ∀ lookback, u.lookback = some lookback → ofDate lookback < row.createdAt :=
      fun lookback known => recent lookback (lookback_kept taken known)
    obtain ⟨invU, lawU⟩ := run_law earlier inv law clean.1
    have counted : runs (steps ++ [⟨u, a, t⟩]) = runs steps + if finishes a then 1 else 0 := by
      rw [runs, List.countP_append, List.countP_singleton]
      rfl
    rw [counted]
    exact step_progress invU lawU earliest (ih clean.1 earliest) taken

/-- No more rows have been exported than were created. -/
theorem exported_le (inv : Inv s) (law : Resumable s) (row : Event) :
    s.appended.countP (fun other => other.createdAt ≤ row.createdAt) ≤ upTo s row := by
  rw [List.countP_eq_length_filter, upTo, List.countP_eq_length_filter]
  refine (List.subperm_of_subset (law.once.filter _) fun other member => ?_).length_le
  obtain ⟨exported, early⟩ := List.mem_filter.mp member
  exact List.mem_filter.mpr ⟨mem_rows.mpr (.inl (inv.exported other exported)), early⟩

theorem exported_of_enough (inv : Inv s) (law : Resumable s) (progress : Progress row n s)
    (enough : upTo s row / maxRowsPerRun + 2 ≤ n) : row ∈ s.appended := by
  rcases progress.exported with done | ⟨many, _⟩
  · exact done
  · have le := exported_le inv law row
    unfold maxRowsPerRun at *
    omega

end

/-! A row that a watermark has passed -/

/-- The row is not exported, and the next run resumes behind it. -/
structure Lost (row : Event) (s : State) : Prop where
  unread : row ∉ s.appended
  passed : ∃ watermark, s.lastExportedAt = some watermark ∧ row.createdAt ≤ ofDate watermark
  unfetched : ∀ startedAt page, s.phase = .fetched startedAt page → row ∉ page

section
variable {s t : State} {windowDays : Nat} {row : Event}

/-- A run that goes on after the row was lost resumes behind it. -/
theorem Lost.behind (lost : Lost row s) {startedAt since : Int}
    (running : Running s startedAt since) : row.createdAt ≤ ofDate since := by
  obtain ⟨watermark, mark, early⟩ := lost.passed
  have same := running.resumes
  rw [mark, Option.getD_some] at same
  rwa [← same]

theorem step_lost {a : Act} (inv : Inv s) (lost : Lost row s) (taken : Step windowDays s a t) :
    Lost row t := by
  cases step_taken taken with
  | begin idle resumes => exact ⟨lost.unread, lost.passed, fun _ _ other => by cases other⟩
  | @query startedAt since answer started answers =>
    refine ⟨lost.unread, lost.passed, fun _ _ fetched member => ?_⟩
    cases fetched
    have early := lost.behind (inv.running started)
    have listed := answers.1.mem_iff.mp ((List.take_sublist _ _).subset member)
    have after := of_decide_eq_true (List.mem_filter.mp listed).2
    omega
  | @finish startedAt page fetched =>
    obtain ⟨since, running, _, rows⟩ := inv.fetched fetched
    have early := lost.behind running
    have next := (running.next fun r member =>
      ⟨inv.past r (mem_rows.mpr (.inl (rows r member).1)), (rows r member).2⟩).1
    refine ⟨fun member => ?_, ⟨_, rfl, ?_⟩, fun _ _ other => by cases other⟩
    · rcases List.mem_append.mp member with before | now
      · exact lost.unread before
      · exact lost.unfetched startedAt page fetched now
    · unfold ofDate at *
      omega
  | _ => exact ⟨lost.unread, lost.passed, lost.unfetched⟩

/-- No number of runs brings it back. -/
theorem lost_for_good {rest : List (Transition State Act)} (run : Run (Step windowDays) s rest t)
    (inv : Inv s) (lost : Lost row s) : row ∉ t.appended := by
  have both := run.invariant (I := fun s => Inv s ∧ Lost row s) ⟨inv, lost⟩
    fun _ _ _ before taken => ⟨step_inv before.1 taken, step_lost before.1 before.2 taken⟩
  exact both.2.unread

end

/-- The watermark separates what is exported from what is not exactly as long as every step is a
clean cut; then no row is exported twice, and each one is once enough runs have followed it. -/
theorem exported_exactly_once (windowDays : Nat) (clock : Int)
    {steps : List (Transition State Act)} {s : State}
    (run : Run (Step windowDays) (start clock) steps s) :
    ((∀ x ∈ steps, Resumable x.post) ↔ ∀ x ∈ steps, CleanCut x.pre x.label) ∧
      ((∀ x ∈ steps, CleanCut x.pre x.label) → s.appended.Nodup ∧
        ∀ rest t, Run (Step windowDays) s rest t → (∀ x ∈ rest, CleanCut x.pre x.label) →
          ∀ row ∈ s.visible, ∀ lookback, t.lookback = some lookback →
            ofDate lookback < row.createdAt → upTo t row / maxRowsPerRun + 2 ≤ runs rest →
              t.appended.count row = 1) := by
  refine ⟨run_resumable_iff run, fun clean => ?_⟩
  obtain ⟨inv, law⟩ := run_law run (start_inv clock) (start_resumable clock) clean
  refine ⟨law.once, fun rest t later clean' row member lookback known recent enough => ?_⟩
  obtain ⟨invT, lawT⟩ := run_law later inv law clean'
  have progress := run_progress later inv law clean' (fun other same => by
    cases known.symm.trans same
    exact recent) member
  exact List.count_eq_one_of_mem lawT.once (exported_of_enough invT lawT progress enough)

/-- Half a millisecond is cut off the watermark, and the next run exports the row again; a row that
commits after a later one has been exported is passed over for good. -/
theorem repeated_and_lost :
    (∃ steps s, Run (Step 7) (start 10000500) steps s ∧ s.appended.count ⟨1, 10000500⟩ = 2) ∧
    ∃ steps s, Run (Step 7) (start 10000000) steps s ∧ ⟨1, 10000000⟩ ∈ s.visible ∧
      ∀ rest t, Run (Step 7) s rest t → ⟨1, 10000000⟩ ∉ t.appended := by
  constructor
  · let row : Event := ⟨1, 10000500⟩
    let acts : List Act := [.insert 1, .commit row, .begin, .query [row], .finish, .begin,
      .query [row], .finish]
    have run := @follow_run _ _ (step 7) (start 10000500) _ acts _ rfl
    exact ⟨_, _, run, rfl⟩
  · let early : Event := ⟨1, 10000000⟩
    let late : Event := ⟨2, 10001000⟩
    let acts : List Act := [.insert 1, .wait 10001000, .insert 2, .commit late, .begin,
      .query [late], .finish, .commit early]
    have run := @follow_run _ _ (step 7) (start 10000000) _ acts _ rfl
    have inv := run.invariant (start_inv 10000000) fun _ _ _ before taken => step_inv before taken
    refine ⟨_, _, run, by decide, fun rest t later => lost_for_good later inv ⟨by decide, ?_, ?_⟩⟩
    · exact ⟨10001, rfl, by decide⟩
    · intro _ _ fetched
      cases fetched

/-- A snapshot of a whole millisecond, and two runs that follow it. -/
theorem exported_once : ∃ s rest t, Reachable (Step 7) (start 10000000) s ∧
    Run (Step 7) s rest t ∧ t.appended.count ⟨1, 10000000⟩ = 1 := by
  let row : Event := ⟨1, 10000000⟩
  let stored : State := ⟨10000000, [row], [], none, none, [], .idle⟩
  have first := @follow_run _ _ (step 7) (start 10000000) stored [.insert 1, .commit row] _ rfl
  have rest := @follow_run _ _ (step 7) stored _
    [.begin, .query [row], .finish, .begin, .query [], .finish] _ rfl
  have law := (exported_exactly_once 7 10000000 first).2 fun x taken => by
    simp only [List.mem_cons, List.not_mem_nil, or_false] at taken
    rcases taken with rfl | rfl
    · intro _ _ none
      cases none
    · trivial
  refine ⟨stored, _, _, ⟨_, first⟩, rest, law.2 _ _ rest (fun x taken => ?_) row (by decide)
    (-604790000) rfl (by decide) (by decide)⟩
  simp only [List.mem_cons, List.not_mem_nil, or_false] at taken
  rcases taken with rfl | rfl | rfl | rfl | rfl | rfl
  · trivial
  · trivial
  · intro startedAt page lookback fetched _
    cases fetched
    refine ⟨fun r member _ => ?_, fun r member _ unread _ => ?_⟩
    · rw [List.mem_singleton.mp member]
      rfl
    · exact absurd member unread
  · trivial
  · trivial
  · intro startedAt page lookback fetched _
    cases fetched
    refine ⟨fun r absent => ?_, fun r member unread _ _ => ?_⟩
    · cases absent
    · exact absurd member unread

end Gomer.Watermark
