import Gomer.Lib.Orm

/-! Operations that each set some columns of one row, in any interleaving: when every column has what
the last completed operation that supplied it has supplied. -/
namespace Orm

open Trace

variable {K : Type*} {V : K → Type*}

/-- Beside the database, what was last supplied for each column. -/
structure Annotated (V : K → Type*) where
  db : State V
  supplied : Entity V

def Annotated.start (row : Entity V) : Annotated V := ⟨Orm.start row, row⟩

/-- An operation completes with its write. -/
def Annotated.record (s : Annotated V) : Act → Entity V
  | .write i =>
    match s.db.phase i with
    | .saving _ change _ _ => change.apply s.supplied
    | _ => s.supplied
  | _ => s.supplied

/-- Every column has what was last supplied for it. -/
def Settled (s : Annotated V) : Prop := s.db.row = some s.supplied

/-- A column is sent where what was read differs from the entity. So the row must still have the
value that was supplied, where it had that already; and what was loaded, where it is sent unasked. -/
def ColumnCurrent {k : K} (change : Option (V k)) (loaded seen row : V k) : Prop :=
  match change with
  | some value => seen = value → row = value
  | none => seen ≠ loaded → row = loaded

/-- Nothing has come between the load and the write. -/
theorem columnCurrent_self {k : K} (change : Option (V k)) (value : V k) :
    ColumnCurrent change value value value := by
  cases change with
  | none => exact fun _ => rfl
  | some _ => exact id

/-- The condition on a step. -/
def Current (s : Annotated V) : Act → Prop
  | .write i => ∀ entity change seen since row, s.db.phase i = .saving entity change (some seen) since →
      s.db.row = some row → ∀ k, ColumnCurrent (change k) (entity k) (seen k) (row k)
  | _ => True

theorem finished_reads (entity : Entity V) (change : Change V) (since : Nat) :
    (Phase.finished : Phase V) ≠ .saving entity change none since := by
  intro same
  cases same

theorem loaded_reads (row : Entity V) (time : Nat) (entity : Entity V) (change : Change V)
    (since : Nat) : Phase.loaded row time ≠ .saving entity change none since := by
  intro same
  cases same

/-- The row is there, and every save has read it. -/
structure Present (s : Annotated V) : Prop where
  row : s.db.row ≠ none
  seen : ∀ i entity change since, s.db.phase i ≠ .saving entity change none since

theorem start_present (row : Entity V) : Present (Annotated.start row) where
  row := Option.some_ne_none row
  seen := fun _ _ _ _ saving => by cases saving

/-- The phase that a step enters is the only one that changes. -/
theorem Present.enter {s t : Annotated V} (before : Present s) {i : Nat} {phase : Phase V}
    (row : t.db.row ≠ none) (moved : t.db.phase = Function.update s.db.phase i phase)
    (seen : ∀ entity change since, phase ≠ .saving entity change none since) : Present t where
  row := row
  seen := fun j entity change since saving => by
    by_cases same : j = i
    · rw [moved, same, Function.update_self] at saving
      exact seen entity change since saving
    · rw [moved, Function.update_of_ne same] at saving
      exact before.seen j entity change since saving

section
variable [∀ k, DecidableEq (V k)] (ops : Nat → Operation V)

def Annotated.next (s : Annotated V) (a : Act) : Option (Annotated V) :=
  (step ops s.db a).map fun db => ⟨db, s.record a⟩

abbrev Supplies (s : Annotated V) (a : Act) (t : Annotated V) : Prop := s.next ops a = some t

variable {ops} {s t : Annotated V}

/-- A step is the write of a save, or it leaves the row and enters a phase. -/
theorem step_effect (stay : ∀ i, (ops i).kind ≠ .removal) {s t : State V} {a : Act}
    (present : s.row ≠ none) (taken : step ops s a = some t) :
    (∃ i entity change seen since, a = .write i ∧ s.phase i = .saving entity change seen since ∧
      t = write s i (ops i).kind entity change since seen) ∨
    (∀ i, a ≠ .write i) ∧ t.row = s.row ∧ ∃ i phase, t.phase = Function.update s.phase i phase ∧
      ∀ entity change since, phase ≠ .saving entity change none since := by
  cases a with
  | load i =>
    right
    refine ⟨by rintro _ ⟨⟩, ?_⟩
    simp only [step] at taken
    split at taken
    · cases taken
      exact ⟨rfl, i, .finished, rfl, finished_reads⟩
    · cases taken
      refine ⟨rfl, i, _, rfl, ?_⟩
      split
      · exact loaded_reads _ _
      · exact finished_reads
    · cases taken
  | reread i =>
    right
    refine ⟨by rintro _ ⟨⟩, ?_⟩
    simp only [step] at taken
    split at taken
    · rename_i entity since loaded
      rw [if_neg (stay i)] at taken
      cases taken
      unfold reread
      split
      · exact ⟨rfl, i, .finished, rfl, finished_reads⟩
      · rename_i change set
        have fresh : ∀ e c n, Phase.saving entity change s.row since ≠ .saving e c none n := by
          intro e c n same
          injection same with _ _ none _
          exact present none
        dsimp only
        split <;> exact ⟨rfl, i, _, rfl, fresh⟩
    · cases taken
  | write i =>
    left
    simp only [step] at taken
    split at taken
    · rename_i entity change seen since saving
      cases taken
      exact ⟨i, entity, change, seen, since, rfl, saving, rfl⟩
    · cases taken
  | delete i =>
    simp only [step] at taken
    split at taken
    · rw [if_neg (stay i)] at taken
      cases taken
    · cases taken

theorem next_present (stay : ∀ i, (ops i).kind ≠ .removal) {a : Act} (before : Present s)
    (taken : Supplies ops s a t) : Present t := by
  obtain ⟨db, stepped, rfl⟩ := Option.map_eq_some_iff.mp taken
  obtain ⟨i, entity, change, seen, since, rfl, saving, rfl⟩ | ⟨_, same, i, phase, moved, fresh⟩ :=
    step_effect stay before.row stepped
  · cases seen with
    | none => exact absurd saving (before.seen i entity change since)
    | some seen =>
      refine before.enter ?_ rfl finished_reads
      simpa [write] using before.row
  · refine before.enter ?_ moved fresh
    simpa [same] using before.row

/-- A column that the save gets right. -/
theorem column_iff {k : K} (change : Change V) (entity seen row : Entity V) :
    updateRow seen (change.apply entity) row k = change.apply row k ↔
      ColumnCurrent (change k) (entity k) (seen k) (row k) := by
  unfold updateRow Change.apply ColumnCurrent
  cases change k with
  | none => by_cases same : seen k = entity k <;> simp [same, eq_comm]
  | some value => by_cases same : seen k = value <;> simp [same]

theorem settled_iff_current (stay : ∀ i, (ops i).kind ≠ .removal) {a : Act} (before : Present s)
    (settled : Settled s) (taken : Supplies ops s a t) : Settled t ↔ Current s a := by
  obtain ⟨db, stepped, rfl⟩ := Option.map_eq_some_iff.mp taken
  obtain ⟨i, entity, change, seen, since, rfl, saving, rfl⟩ | ⟨other, same, _⟩ :=
    step_effect stay before.row stepped
  · cases seen with
    | none => exact absurd saving (before.seen i entity change since)
    | some seen =>
      have supplied : s.record (.write i) = change.apply s.supplied := by
        simp only [Annotated.record, saving]
      have stored : s.db.row = some s.supplied := settled
      have updated : (write s.db i (ops i).kind entity change since (some seen)).row =
          some (updateRow seen (change.apply entity) s.supplied) := by
        simp only [write, stored, Option.map_some]
      have columns : Settled ⟨write s.db i (ops i).kind entity change since (some seen),
          s.record (.write i)⟩ ↔
          ∀ k, ColumnCurrent (change k) (entity k) (seen k) (s.supplied k) := by
        rw [Settled, updated, supplied, Option.some.injEq, funext_iff]
        exact forall_congr' fun k => column_iff change entity seen s.supplied
      rw [columns]
      constructor
      · intro all entity' change' seen' since' row saving' stored' k
        cases saving.symm.trans saving'
        cases stored.symm.trans stored'
        exact all k
      · intro current k
        exact current entity change seen since s.supplied saving stored k
  · have kept : s.record a = s.supplied := by
      cases a with
      | write i => exact absurd rfl (other i)
      | load i => rfl
      | reread i => rfl
      | delete i => rfl
    have current : Current s a := by
      cases a with
      | write i => exact absurd rfl (other i)
      | load i => trivial
      | reread i => trivial
      | delete i => trivial
    refine iff_of_true ?_ current
    rw [Settled, same, kept]
    exact settled

/-- In a run of operations that remove nothing. -/
theorem run_settled_iff (stay : ∀ i, (ops i).kind ≠ .removal) {row : Entity V}
    {steps : List (Transition (Annotated V) Act)} {s : Annotated V}
    (run : Run (Supplies ops) (Annotated.start row) steps s) :
    (∀ x ∈ steps, Settled x.post) ↔ ∀ x ∈ steps, Current x.pre x.label :=
  run.states_iff Settled Current (start_present row)
    (fun _ _ _ before taken => next_present stay before taken) rfl
    fun _ _ _ before settled taken => settled_iff_current stay before settled taken

end

end Orm
