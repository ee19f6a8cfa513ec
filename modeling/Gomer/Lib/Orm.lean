import Mathlib.Logic.Function.Basic
import Gomer.Lib.Trace

/-! Operations that load one row, change the entity in memory and save it whole, in any
interleaving. A save reads the row again, sends every column in which the entity differs from it,
and inserts an entity whose row is gone. What the edits wrote is kept apart from the row, so that
a column can be found to have lost it. -/
namespace Orm

open Trace

variable {K : Type*} {V : K → Type*}

/-- A value for each column. -/
abbrev Entity (V : K → Type*) := (k : K) → V k

/-- The columns that an operation sets. -/
abbrev Change (V : K → Type*) := (k : K) → Option (V k)

def Change.apply (change : Change V) (entity : Entity V) : Entity V :=
  fun k => (change k).getD (entity k)

inductive Kind where
  | edit
  | removal
  | job
  deriving DecidableEq, Repr

/-- An operation on the row it loads; one that fails before its save makes no change. -/
structure Operation (V : K → Type*) where
  kind : Kind
  starts : Entity V → Bool
  change : Entity V → Option (Change V)

/-- `since` is the time at which the entity was loaded. -/
inductive Phase (V : K → Type*) where
  | waiting
  | loaded (entity : Entity V) (since : Nat)
  | saving (entity : Entity V) (change : Change V) (seen : Option (Entity V)) (since : Nat)
  | finished

/-- `clock` counts what edits have written; `owed` has the last of it for each column, with its
time, until a job that was started later writes the column. -/
structure State (V : K → Type*) where
  row : Option (Entity V)
  phase : Nat → Phase V
  clock : Nat
  owed : (k : K) → Option (Nat × V k)
  removed : Bool

def start (row : Entity V) : State V where
  row := some row
  phase := fun _ => .waiting
  clock := 0
  owed := fun _ => none
  removed := false

inductive Act where
  | load (i : Nat)
  | reread (i : Nat)
  | write (i : Nat)
  | delete (i : Nat)
  deriving DecidableEq, Repr

def State.enter (s : State V) (i : Nat) (phase : Phase V) : State V :=
  { s with phase := Function.update s.phase i phase }

section
variable [∀ k, DecidableEq (V k)]

/-- An `UPDATE` of the columns in which the entity differs from what was read. -/
def updateRow (seen entity row : Entity V) : Entity V :=
  fun k => if seen k = entity k then row k else entity k

/-- An edit has written a column that already has its value when the row is read again. -/
def owedOnReread (s : State V) (change : Change V) (k : K) : Option (Nat × V k) :=
  match s.row with
  | none => s.owed k
  | some row => if change k = some (row k) then some (s.clock + 1, row k) else s.owed k

def owedOnWrite (s : State V) (kind : Kind) (change : Change V) (since : Nat)
    (seen entity : Entity V) (k : K) : Option (Nat × V k) :=
  if change k = none ∨ seen k = entity k then s.owed k
  else if kind = .edit then some (s.clock + 1, entity k)
  else (s.owed k).filter fun written => since < written.1

def reread (s : State V) (i : Nat) (op : Operation V) (entity : Entity V) (since : Nat) : State V :=
  match op.change entity with
  | none => s.enter i .finished
  | some change =>
    let saving := s.enter i (.saving entity change s.row since)
    if op.kind = .edit then
      { saving with clock := s.clock + 1, owed := owedOnReread s change }
    else saving

def write (s : State V) (i : Nat) (kind : Kind) (entity : Entity V) (change : Change V) (since : Nat)
    (seen : Option (Entity V)) : State V :=
  let done := s.enter i .finished
  let saved := change.apply entity
  match seen with
  | some seen =>
    { done with
      row := s.row.map (updateRow seen saved)
      clock := s.clock + 1
      owed := owedOnWrite s kind change since seen saved }
  | none =>
    -- a second row with the same key is refused
    match s.row with
    | none => { done with row := some saved }
    | some _ => done

variable (ops : Nat → Operation V)

def step (s : State V) : Act → Option (State V)
  | .load i =>
    match s.phase i, s.row with
    | .waiting, none => some (s.enter i .finished)
    | .waiting, some row =>
      some (s.enter i (if (ops i).starts row then .loaded row s.clock else .finished))
    | _, _ => none
  | .reread i =>
    match s.phase i with
    | .loaded entity since =>
      if (ops i).kind = .removal then none else some (reread s i (ops i) entity since)
    | _ => none
  | .write i =>
    match s.phase i with
    | .saving entity change seen since => some (write s i (ops i).kind entity change since seen)
    | _ => none
  | .delete i =>
    match s.phase i with
    | .loaded _ _ =>
      if (ops i).kind = .removal then
        some { s.enter i .finished with row := none, removed := true }
      else none
    | _ => none

abbrev Step (s : State V) (a : Act) (t : State V) : Prop := step ops s a = some t

end

def Finished (s : State V) : Prop := ∀ i, s.phase i = .waiting ∨ s.phase i = .finished

theorem finished_of_two {s : State V} (first : s.phase 0 = .finished)
    (second : s.phase 1 = .finished) (rest : ∀ i, s.phase (i + 2) = .waiting) : Finished s := by
  intro i
  match i with
  | 0 => exact .inr first
  | 1 => exact .inr second
  | i + 2 => exact .inl (rest i)

/-- Each column has what an edit has last written, and a removed row is gone. -/
structure Kept (s : State V) : Prop where
  owed : ∀ row, s.row = some row → ∀ k time value, s.owed k = some (time, value) → row k = value
  removed : s.removed = true → s.row = none

/-- A save sends into no column that an edit has written since the entity was loaded anything
else than the edit did, unless it is an edit of that column, and it inserts nothing. -/
def KeepsEdits (s : State V) (kind : Kind) (entity : Entity V) (change : Change V) (since : Nat) :
    Option (Entity V) → Prop
  | none => s.row ≠ none
  | some seen => s.row ≠ none → ∀ k time value, seen k ≠ change.apply entity k →
      s.owed k = some (time, value) → since < time →
      kind = .edit ∧ change k ≠ none ∨ change.apply entity k = value

/-- The condition on a step. -/
def Respects (ops : Nat → Operation V) (s : State V) : Act → Prop
  | .write i => ∀ entity change seen since, s.phase i = .saving entity change seen since →
    KeepsEdits s (ops i).kind entity change since seen
  | _ => True

/-! The entities in memory -/

def Phase.held : Phase V → Option (Entity V × Nat)
  | .loaded entity since => some (entity, since)
  | .saving entity _ _ since => some (entity, since)
  | _ => none

/-- An entity in memory has what was owed when it was loaded. -/
structure UpToDate (s : State V) : Prop where
  gone : s.row = none → s.removed = true
  missed : ∀ i entity change since, s.phase i = .saving entity change none since → s.removed = true
  held : ∀ i entity since, (s.phase i).held = some (entity, since) → since ≤ s.clock ∧
    ∀ k time value, s.owed k = some (time, value) → time ≤ since → entity k = value

theorem start_upToDate (row : Entity V) : UpToDate (start row) where
  gone := fun none => nomatch none
  missed := fun _ _ _ _ saving => nomatch saving
  held := fun _ _ _ held => nomatch held

theorem start_kept (row : Entity V) : Kept (start row) where
  owed := fun _ _ _ _ _ none => nomatch none
  removed := fun removed => nomatch removed

section
variable {s t : State V}

/-- Nothing is owed from before that was not owed then. -/
def Newer (s t : State V) : Prop :=
  s.clock ≤ t.clock ∧
    ∀ k time value, t.owed k = some (time, value) → time ≤ s.clock → s.owed k = some (time, value)

theorem Newer.refl (s : State V) : Newer s s := ⟨Nat.le_refl _, fun _ _ _ owed _ => owed⟩

/-- A step of operation `i` leaves the other entities as they are. -/
theorem UpToDate.after (before : UpToDate s) (newer : Newer s t) {i : Nat} {phase : Phase V}
    (moved : t.phase = Function.update s.phase i phase)
    (gone : t.row = none → t.removed = true) (kept : s.removed = true → t.removed = true)
    (missed : ∀ entity change since, phase = .saving entity change none since → t.removed = true)
    (held : ∀ entity since, phase.held = some (entity, since) → since ≤ t.clock ∧
      ∀ k time value, t.owed k = some (time, value) → time ≤ since → entity k = value) :
    UpToDate t where
  gone := gone
  missed := fun j entity change since saving => by
    by_cases same : j = i
    · rw [moved, same, Function.update_self] at saving
      exact missed entity change since saving
    · rw [moved, Function.update_of_ne same] at saving
      exact kept (before.missed j entity change since saving)
  held := fun j entity since holds => by
    by_cases same : j = i
    · rw [moved, same, Function.update_self] at holds
      exact held entity since holds
    · rw [moved, Function.update_of_ne same] at holds
      obtain ⟨early, agrees⟩ := before.held j entity since holds
      refine ⟨Nat.le_trans early newer.1, fun k time value owed old => ?_⟩
      exact agrees k time value (newer.2 k time value owed (Nat.le_trans old early)) old

end

section
variable [∀ k, DecidableEq (V k)] {ops : Nat → Operation V} {s t : State V} {i : Nat}

theorem load_upToDate (before : UpToDate s) (kept : Kept s) (taken : step ops s (.load i) = some t) :
    UpToDate t := by
  simp only [step] at taken
  split at taken
  · cases taken
    exact before.after (.refl s) rfl before.gone id (fun _ _ _ saving => nomatch saving)
      (fun _ _ held => nomatch held)
  · rename_i row waiting loaded
    cases taken
    split
    · refine before.after (.refl s) rfl before.gone id (fun _ _ _ saving => nomatch saving) ?_
      intro entity since held
      cases held
      exact ⟨Nat.le_refl _, fun k time value owed _ => kept.owed row loaded k time value owed⟩
    · exact before.after (.refl s) rfl before.gone id (fun _ _ _ saving => nomatch saving)
        (fun _ _ held => nomatch held)
  · cases taken

theorem owedOnReread_newer (s : State V) (change : Change V) (k : K) {time : Nat} {value : V k}
    (owed : owedOnReread s change k = some (time, value)) (old : time ≤ s.clock) :
    s.owed k = some (time, value) := by
  unfold owedOnReread at owed
  split at owed
  · exact owed
  · split at owed
    · cases owed
      omega
    · exact owed

theorem owedOnWrite_newer (s : State V) (kind : Kind) (change : Change V) (since : Nat)
    (seen entity : Entity V) (k : K) {time : Nat} {value : V k}
    (owed : owedOnWrite s kind change since seen entity k = some (time, value))
    (old : time ≤ s.clock) : s.owed k = some (time, value) := by
  unfold owedOnWrite at owed
  split at owed
  · exact owed
  · split at owed
    · cases owed
      omega
    · exact (Option.filter_eq_some_iff.mp owed).1

theorem reread_upToDate (before : UpToDate s)
    (taken : step ops s (.reread i) = some t) : UpToDate t := by
  simp only [step] at taken
  split at taken
  · rename_i entity since phase
    have holds := before.held i entity since (by rw [phase]; rfl)
    split at taken
    · cases taken
    · cases taken
      unfold reread
      split
      · exact before.after (.refl s) rfl before.gone id (fun _ _ _ saving => nomatch saving)
          (fun _ _ held => nomatch held)
      · rename_i change changed
        dsimp only
        split
        · have newer : Newer s { s.enter i (.saving entity change s.row since) with
              clock := s.clock + 1, owed := owedOnReread s change } :=
            ⟨Nat.le_succ _, fun k _ _ owed old => owedOnReread_newer s change k owed old⟩
          refine before.after newer rfl before.gone id ?_ ?_
          · intro _ _ _ saving
            injection saving with _ _ none _
            exact before.gone none
          · intro _ _ held
            cases held
            refine ⟨Nat.le_succ_of_le holds.1, fun k time value owed old => ?_⟩
            exact holds.2 k time value (newer.2 k time value owed (Nat.le_trans old holds.1)) old
        · refine before.after (.refl s) rfl before.gone id ?_ ?_
          · intro _ _ _ saving
            injection saving with _ _ none _
            exact before.gone none
          · intro _ _ held
            cases held
            exact holds
  · cases taken

theorem write_upToDate (before : UpToDate s)
    (taken : step ops s (.write i) = some t) : UpToDate t := by
  simp only [step] at taken
  split at taken
  · rename_i entity change seen since phase
    cases taken
    unfold write
    cases seen with
    | some seen =>
      refine before.after ⟨Nat.le_succ _, fun k _ _ owed old =>
        owedOnWrite_newer s _ change since seen _ k owed old⟩ rfl ?_ id
        (fun _ _ _ saving => nomatch saving) (fun _ _ held => nomatch held)
      intro none
      exact before.gone (Option.map_eq_none_iff.mp none)
    | none =>
      dsimp only
      split
      · exact before.after (.refl s) rfl (fun none => nomatch none) id
          (fun _ _ _ saving => nomatch saving) (fun _ _ held => nomatch held)
      · exact before.after (.refl s) rfl before.gone id (fun _ _ _ saving => nomatch saving)
          (fun _ _ held => nomatch held)
  · cases taken

theorem step_upToDate {a : Act} (before : UpToDate s) (kept : Kept s) (taken : Step ops s a t) :
    UpToDate t := by
  cases a with
  | load i => exact load_upToDate before kept taken
  | reread i => exact reread_upToDate before taken
  | write i => exact write_upToDate before taken
  | delete i =>
    simp only [Step, step] at taken
    split at taken
    · split at taken
      · cases taken
        exact before.after (.refl s) rfl (fun _ => rfl) (fun _ => rfl)
          (fun _ _ _ saving => nomatch saving) (fun _ _ held => nomatch held)
      · cases taken
    · cases taken

/-! What keeps the edits -/

theorem reread_kept (kept : Kept s) (taken : step ops s (.reread i) = some t) : Kept t := by
  simp only [step] at taken
  split at taken
  · split at taken
    · cases taken
    · cases taken
      unfold reread
      split
      · exact ⟨kept.owed, kept.removed⟩
      · dsimp only
        split
        · refine ⟨fun row stored k time value owed => ?_, kept.removed⟩
          have present : s.row = some row := stored
          simp only [owedOnReread, present] at owed
          split at owed
          · cases owed
            rfl
          · exact kept.owed row present k time value owed
        · exact ⟨kept.owed, kept.removed⟩
  · cases taken

theorem write_kept_iff {entity seen : Entity V} {change : Change V} {since : Nat} {row : Entity V}
    (before : UpToDate s) (kept : Kept s) (stored : s.row = some row)
    (saving : s.phase i = .saving entity change (some seen) since) (kind : Kind) :
    Kept (write s i kind entity change since (some seen)) ↔
      ∀ k time value, seen k ≠ change.apply entity k → s.owed k = some (time, value) →
        since < time → kind = .edit ∧ change k ≠ none ∨ change.apply entity k = value := by
  have held := (before.held i entity since (by rw [saving]; rfl)).2
  have updated : (write s i kind entity change since (some seen)).row =
      some (updateRow seen (change.apply entity) row) := by
    simp only [write, stored, Option.map_some]
  constructor
  · intro after k time value sent owed late
    by_cases edited : kind = .edit ∧ change k ≠ none
    · exact .inl edited
    · have still : owedOnWrite s kind change since seen (change.apply entity) k =
          some (time, value) := by
        unfold owedOnWrite
        split
        · exact owed
        · rename_i set
          have job : kind ≠ .edit := fun edit =>
            edited ⟨edit, fun none => set (.inl none)⟩
          rw [if_neg job, owed, Option.filter_some, if_pos (decide_eq_true late)]
      have same := after.owed _ updated k time value still
      rw [updateRow, if_neg sent] at same
      exact .inr same
  · intro respects
    refine ⟨?_, ?_⟩
    · intro row' same k time value owed
      cases updated.symm.trans same
      have owed : owedOnWrite s kind change since seen (change.apply entity) k =
        some (time, value) := owed
      by_cases sent : seen k = change.apply entity k
      · rw [owedOnWrite, if_pos (.inr sent)] at owed
        rw [updateRow, if_pos sent]
        exact kept.owed row stored k time value owed
      · rw [updateRow, if_neg sent]
        cases set : change k with
        | none =>
          have before : s.owed k = some (time, value) := by
            rwa [owedOnWrite, if_pos (.inl set)] at owed
          by_cases late : since < time
          · rcases respects k time value sent before late with edited | same
            · exact absurd set edited.2
            · exact same
          · rw [Change.apply, set]
            exact held k time value before (Nat.le_of_not_lt late)
        | some w =>
          have both : ¬ (change k = none ∨ seen k = change.apply entity k) := by
            simp [set, sent]
          rw [owedOnWrite, if_neg both] at owed
          split at owed
          · cases owed
            rfl
          · rename_i job
            obtain ⟨before, late⟩ := Option.filter_eq_some_iff.mp owed
            rcases respects k time value sent before (of_decide_eq_true late) with edited | same
            · exact absurd edited.1 job
            · exact same
    · intro removed
      rw [kept.removed removed] at stored
      cases stored

theorem kept_iff_respects {a : Act} (before : UpToDate s) (kept : Kept s) (taken : Step ops s a t) :
    Kept t ↔ Respects ops s a := by
  cases a with
  | load i =>
    refine iff_of_true ?_ trivial
    simp only [Step, step] at taken
    split at taken
    · cases taken
      exact ⟨kept.owed, kept.removed⟩
    · cases taken
      exact ⟨kept.owed, kept.removed⟩
    · cases taken
  | reread i => exact iff_of_true (reread_kept kept taken) trivial
  | delete i =>
    refine iff_of_true ?_ trivial
    simp only [Step, step] at taken
    split at taken
    · split at taken
      · cases taken
        refine ⟨fun _ none => ?_, fun _ => rfl⟩
        cases none
      · cases taken
    · cases taken
  | write i =>
    simp only [Step, step] at taken
    split at taken
    · rename_i entity change seen since saving
      cases taken
      have condition : Respects ops s (.write i) ↔
          KeepsEdits s (ops i).kind entity change since seen := by
        constructor
        · intro respects
          exact respects entity change seen since saving
        · intro keeps entity' change' seen' since' saving'
          cases saving.symm.trans saving'
          exact keeps
      rw [condition]
      cases seen with
      | none =>
        have removed := before.missed i entity change since saving
        have gone := kept.removed removed
        refine iff_of_false (fun after => ?_) (fun stored => stored gone)
        simp only [write, gone] at after
        cases after.removed removed
      | some seen =>
        cases stored : s.row with
        | none =>
          refine iff_of_true ⟨fun row same => ?_, fun _ => ?_⟩ fun present => absurd stored present
          · simp [write, stored] at same
          · simp only [write, stored, Option.map_none]
        | some row =>
          rw [write_kept_iff before kept stored saving]
          have present : s.row ≠ none := by simp [stored]
          exact ⟨fun keeps _ => keeps, fun keeps => keeps present⟩
    · cases taken

end

/-! Operations that nothing comes between -/

/-- The row that an operation leaves. -/
def Operation.alone (op : Operation V) (row : Entity V) : Entity V :=
  if op.starts row then
    match op.change row with
    | none => row
    | some change => change.apply row
  else row

theorem run_kept_iff [∀ k, DecidableEq (V k)] {ops : Nat → Operation V} {row : Entity V}
    {steps : List (Transition (State V) Act)} {s : State V}
    (run : Run (Step ops) (start row) steps s) :
    (∀ x ∈ steps, Kept x.post) ↔ ∀ x ∈ steps, Respects ops x.pre x.label :=
  run.lawful_iff Kept (Respects ops) (start_upToDate row) (start_kept row)
    (fun _ _ _ before kept taken _ => step_upToDate before kept taken)
    (fun _ _ _ before kept taken => kept_iff_respects before kept taken)

end Orm
