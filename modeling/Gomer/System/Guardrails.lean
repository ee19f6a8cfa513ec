import Mathlib.Data.List.Count
import Gomer.Database.Entities
import Gomer.Lib.Trace

/-! The evaluations of one ad rule, one after another, over the changes that Meta has applied for
it and the rows of its audit trail. A change is applied before its row is inserted, and either of
the two can fail. -/
namespace Gomer.Guardrails

open Trace

inductive RuleScope where
  | account | campaign | adset
  deriving DecidableEq, Repr

inductive RuleActionType where
  | alert | pause | scale
  deriving DecidableEq, Repr

/-- What an evaluation reads of an `AdRule`; a rule over `verified_roas` has account scope. -/
structure AdRule where
  scope : RuleScope
  action : RuleActionType
  autoExecute : Bool
  maxActionsPerRun : Int
  dailyActionCap : Int
  deriving DecidableEq, Repr

structure Breach where
  entityId : Option String
  entityName : Option String
  deriving DecidableEq, Repr

structure AdRuleAction where
  entityType : RuleScope
  entityId : Option String
  entityName : Option String
  action : RuleActionType
  success : Bool
  error : Option String
  createdAt : Int
  deriving DecidableEq, Repr

/-- `slice(0, n)`; a negative `n` counts from the end. -/
def sliceTo {α : Type*} (xs : List α) (n : Int) : List α :=
  xs.take (if n < 0 then n + xs.length else n).toNat

def AdRule.actOnly (rule : AdRule) : Bool :=
  rule.action != .alert && rule.autoExecute && rule.scope != .account

/-- The answer to a call that changes an entity: done, refused, or applied and not answered. -/
inductive Answer where
  | done
  | refused (message : String)
  | lost (message : String)
  deriving DecidableEq, Repr

def Answer.applied : Answer → Bool
  | .refused _ => false
  | _ => true

def Answer.error : Answer → Option String
  | .done => none
  | .refused message | .lost message => some message

/-- `recording` waits for the row of an attempt; `error` is what the attempt has thrown. -/
inductive Phase where
  | idle
  | alerting (rest : List Breach)
  | acting (budgets : List String) (rest : List Breach)
  | recording (breach : Breach) (error : Option String) (budgets : List String) (rest : List Breach)
  deriving DecidableEq, Repr

/-- Times are in microseconds. `applied` has the time of every change that Meta has applied for the
rule, `inRun` the number of them in the evaluation at hand, `since` where its count has begun. -/
structure State where
  clock : Int
  rows : List AdRuleAction
  phase : Phase
  applied : List Int
  inRun : Nat
  since : Int
  deriving DecidableEq, Repr

def day : Int := 24 * 60 * 60 * 1000

/-- `Date.now() - 24 * 60 * 60 * 1000` -/
def dayBefore (clock : Int) : Int := ofDate (toDate clock - day)

def start (clock : Int) : State := ⟨clock, [], .idle, [], 0, dayBefore clock⟩

def usedToday (rule : AdRule) (rows : List AdRuleAction) (since : Int) : Nat :=
  rows.countP fun row => row.success && row.action == rule.action && decide (since < row.createdAt)

def cap (rule : AdRule) (rows : List AdRuleAction) (since : Int) : Int :=
  min rule.maxActionsPerRun (max (rule.dailyActionCap - usedToday rule rows since) 0)

def recordAction (rule : AdRule) (clock : Int) (breach : Breach) (action : RuleActionType)
    (success : Bool) (error : Option String) : AdRuleAction :=
  ⟨rule.scope, breach.entityId, breach.entityName, action, success, error, clock⟩

/-- What `evaluateRule` does with the breaches it has found. `budgets` are the entities with a
budget, or `none` where they could not be loaded. -/
def evaluate (rule : AdRule) (s : State) (breaches : List Breach) (budgets : Option (List String)) :
    State :=
  let since := dayBefore s.clock
  let run := { s with inRun := 0, since := since }
  if breaches = [] then run
  else if !rule.actOnly then
    { run with phase := .alerting (sliceTo breaches rule.maxActionsPerRun) }
  else if cap rule s.rows since ≤ 0 then run
  else
    let acting := fun budgets =>
      { run with phase := .acting budgets (sliceTo breaches (cap rule s.rows since)) }
    if rule.action = .scale then
      match budgets with
      | some budgets => acting budgets
      | none => run
    else acting []

/-- `applyAction` at a breach: `none` where no call is made. -/
def applyAction (rule : AdRule) (entityId : String) (budgets : List String) : Except String Unit :=
  if rule.action ≠ .pause ∧ entityId ∉ budgets then
    .error "no daily budget at this level to scale"
  else .ok ()

inductive Act where
  | wait (clock : Int)
  | evaluate (breaches : List Breach) (budgets : Option (List String))
  | act (answer : Answer)
  /-- The insert of a row; it can be stored and its answer be lost. -/
  | record (stored answered : Bool)
  | finish
  deriving DecidableEq, Repr

/-- The call for the next breach, with the answer that it gets where it is made. -/
def act (rule : AdRule) (s : State) (answer : Answer) (budgets : List String) (breach : Breach)
    (rest : List Breach) : State :=
  match breach.entityId with
  | none | some "" => { s with phase := .acting budgets rest }
  | some entityId =>
    match applyAction rule entityId budgets with
    | .error message => { s with phase := .recording breach (some message) budgets rest }
    | .ok () =>
      let called := { s with phase := .recording breach answer.error budgets rest }
      if answer.applied then { called with applied := s.clock :: s.applied, inRun := s.inRun + 1 }
      else called

/-- A failed insert after a change is an error of the attempt; one of a failed attempt ends the
evaluation. -/
def record (rule : AdRule) (s : State) (stored answered : Bool) (breach : Breach)
    (error : Option String) (budgets : List String) (rest : List Breach) : State :=
  let row := recordAction rule s.clock breach rule.action error.isNone error
  let inserted := if stored then { s with rows := row :: s.rows } else s
  if stored && answered then { inserted with phase := .acting budgets rest }
  else match error with
    | none => { inserted with phase := .recording breach (some "insert failed") budgets rest }
    | some _ => { inserted with phase := .idle }

def step (rule : AdRule) (s : State) : Act → Option State
  | .wait clock => if s.clock ≤ clock then some { s with clock := clock } else none
  | .evaluate breaches budgets =>
    match s.phase with
    | .idle => some (evaluate rule s breaches budgets)
    | _ => none
  | .act answer =>
    match s.phase with
    | .acting budgets (breach :: rest) => some (act rule s answer budgets breach rest)
    | _ => none
  | .record stored answered =>
    match s.phase with
    | .alerting (breach :: rest) =>
      let row := recordAction rule s.clock breach .alert true none
      let inserted := if stored then { s with rows := row :: s.rows } else s
      some { inserted with phase := if stored && answered then .alerting rest else .idle }
    | .recording breach error budgets rest =>
      some (record rule s stored answered breach error budgets rest)
    | _ => none
  | .finish =>
    match s.phase with
    | .alerting [] | .acting _ [] => some { s with phase := .idle }
    | _ => none

abbrev Step (rule : AdRule) (s : State) (a : Act) (t : State) : Prop := step rule s a = some t

/-! The law, and the condition on a step -/

/-- The changes applied in the 24 hours from `time` on. -/
def appliedFrom (s : State) (time : Int) : Nat :=
  s.applied.countP fun change => decide (time ≤ change ∧ change < time + ofDate day)

def appliedAfter (s : State) (since : Int) : Nat :=
  s.applied.countP fun change => decide (since < change)

structure WithinCaps (rule : AdRule) (s : State) : Prop where
  perRun : (s.inRun : Int) ≤ max rule.maxActionsPerRun 0
  daily : ∀ time, (appliedFrom s time : Int) ≤ max rule.dailyActionCap 0

/-- When an evaluation counts, the audit trail has a successful row for every change that Meta has
applied since. Without a breach, and where the rule only alerts, none counts. -/
def Audited (rule : AdRule) (s : State) : Act → Prop
  | .evaluate breaches _ => breaches ≠ [] → rule.actOnly = true →
    appliedAfter s (dayBefore s.clock) ≤ usedToday rule s.rows (dayBefore s.clock)
  | _ => True

/-! What each step can do -/

/-- The breaches that the evaluation may still act on. -/
def Phase.left : Phase → Nat
  | .acting _ rest | .recording _ _ _ rest => rest.length
  | _ => 0

/-- A change has been answered, and its row is not stored. -/
def Phase.pending : Phase → Nat
  | .recording _ none _ _ => 1
  | _ => 0

section
variable {rule : AdRule} {s t : State}

theorem length_sliceTo {α : Type*} (xs : List α) {n : Int} (positive : 0 < n) :
    ((sliceTo xs n).length : Int) ≤ n := by
  have le := List.length_take_le n.toNat xs
  unfold sliceTo
  rw [if_neg (Int.not_lt.mpr (Int.le_of_lt positive))]
  omega

/-- An evaluation starts a new count, and acts on no more breaches than its cap. -/
theorem evaluate_spec (rule : AdRule) (idle : s.phase = .idle) (breaches : List Breach)
    (budgets : Option (List String)) :
    ∃ phase : Phase, evaluate rule s breaches budgets =
      { s with inRun := 0, since := dayBefore s.clock, phase := phase } ∧
        (phase.left : Int) ≤ max (cap rule s.rows (dayBefore s.clock)) 0 ∧
        (phase.left ≠ 0 → breaches ≠ [] ∧ rule.actOnly = true) := by
  have quiet : { s with inRun := 0, since := dayBefore s.clock } =
      { s with inRun := 0, since := dayBefore s.clock, phase := .idle } := by
    rw [← idle]
  unfold evaluate
  dsimp only
  split
  · exact ⟨.idle, quiet, Int.le_max_right _ _, nofun⟩
  · rename_i some
    split
    · exact ⟨_, rfl, Int.le_max_right _ _, nofun⟩
    · rename_i only
      have counts : breaches ≠ [] ∧ rule.actOnly = true := ⟨some, by simpa using only⟩
      split
      · exact ⟨.idle, quiet, Int.le_max_right _ _, nofun⟩
      · rename_i room
        have short := length_sliceTo breaches (Int.not_le.mp room)
        split
        · split
          · exact ⟨_, rfl, Int.le_trans short (Int.le_max_left _ _), fun _ => counts⟩
          · exact ⟨.idle, quiet, Int.le_max_right _ _, nofun⟩
        · exact ⟨_, rfl, Int.le_trans short (Int.le_max_left _ _), fun _ => counts⟩

/-- A breach is acted on at most once. -/
theorem act_spec (rule : AdRule) (s : State) (answer : Answer) (budgets : List String)
    (breach : Breach) (rest : List Breach) :
    ∃ phase : Phase, phase.left = rest.length ∧
      (act rule s answer budgets breach rest = { s with phase := phase } ∨
        answer.applied = true ∧ phase = .recording breach answer.error budgets rest ∧
          act rule s answer budgets breach rest =
            { s with phase := phase, applied := s.clock :: s.applied, inRun := s.inRun + 1 }) := by
  unfold act
  split
  · exact ⟨.acting budgets rest, rfl, .inl rfl⟩
  · exact ⟨.acting budgets rest, rfl, .inl rfl⟩
  · split
    · exact ⟨.recording breach _ budgets rest, rfl, .inl rfl⟩
    · refine ⟨.recording breach answer.error budgets rest, rfl, ?_⟩
      dsimp only
      split
      · rename_i applied
        exact .inr ⟨applied, rfl, rfl⟩
      · exact .inl rfl

/-- After an insert no change waits for its row, whether the row is stored or not. -/
theorem record_spec (rule : AdRule) (s : State) (stored answered : Bool) (breach : Breach)
    (error : Option String) (budgets : List String) (rest : List Breach) :
    ∃ phase : Phase, phase.left ≤ rest.length ∧ phase.pending = 0 ∧
      record rule s stored answered breach error budgets rest =
        { s with
          phase := phase
          rows := if stored then recordAction rule s.clock breach rule.action error.isNone error :: s.rows
            else s.rows } := by
  have inserted (row : AdRuleAction) : (if stored then { s with rows := row :: s.rows } else s) =
      { s with rows := if stored then row :: s.rows else s.rows } := by
    cases stored <;> rfl
  unfold record
  simp only [inserted]
  split
  · exact ⟨.acting budgets rest, Nat.le_refl _, rfl, rfl⟩
  · split
    · exact ⟨.recording breach (some "insert failed") budgets rest, Nat.le_refl _, rfl, rfl⟩
    · exact ⟨.idle, Nat.zero_le _, rfl, rfl⟩

/-- What a step does to the changes that count against the caps. -/
inductive Effect (rule : AdRule) (s : State) (a : Act) (t : State) : Prop
  | quiet (clock : s.clock ≤ t.clock) (applied : t.applied = s.applied) (inRun : t.inRun = s.inRun)
    (since : t.since = s.since) (left : t.phase.left ≤ s.phase.left)
  | begins (breaches : List Breach) (budgets : Option (List String))
    (act : a = .evaluate breaches budgets) (clock : t.clock = s.clock) (applied : t.applied = s.applied)
    (inRun : t.inRun = 0) (since : t.since = dayBefore s.clock)
    (left : (t.phase.left : Int) ≤ max (cap rule s.rows (dayBefore s.clock)) 0)
    (counts : t.phase.left ≠ 0 → breaches ≠ [] ∧ rule.actOnly = true)
  | applies (clock : t.clock = s.clock) (applied : t.applied = s.clock :: s.applied)
    (inRun : t.inRun = s.inRun + 1) (since : t.since = s.since)
    (left : t.phase.left + 1 = s.phase.left)

theorem step_effect {a : Act} (taken : Step rule s a t) : Effect rule s a t := by
  cases a with
  | wait clock =>
    simp only [Step, step] at taken
    split at taken
    · rename_i later
      cases taken
      exact .quiet later rfl rfl rfl (Nat.le_refl _)
    · cases taken
  | evaluate breaches budgets =>
    simp only [Step, step] at taken
    split at taken
    · rename_i idle
      cases taken
      obtain ⟨phase, same, left, counts⟩ := evaluate_spec rule idle breaches budgets
      rw [same]
      exact .begins breaches budgets rfl rfl rfl rfl rfl left counts
    · cases taken
  | act answer =>
    simp only [Step, step] at taken
    split at taken
    · rename_i budgets breach rest acting
      cases taken
      have more : s.phase.left = rest.length + 1 := by
        rw [acting]
        rfl
      obtain ⟨phase, left, same | ⟨_, _, same⟩⟩ := act_spec rule s answer budgets breach rest
      · rw [same]
        exact .quiet (Int.le_refl _) rfl rfl rfl (by dsimp only; omega)
      · rw [same]
        exact .applies rfl rfl rfl rfl (by dsimp only; omega)
    · cases taken
  | record stored answered =>
    simp only [Step, step] at taken
    split at taken
    · cases taken
      cases stored <;> cases answered <;> exact .quiet (Int.le_refl _) rfl rfl rfl (Nat.zero_le _)
    · rename_i breach error budgets rest recording
      cases taken
      obtain ⟨phase, left, _, same⟩ := record_spec rule s stored answered breach error budgets rest
      rw [same]
      refine .quiet (Int.le_refl _) rfl rfl rfl ?_
      rw [recording]
      exact left
    · cases taken
  | finish =>
    simp only [Step, step] at taken
    split at taken
    · cases taken
      exact .quiet (Int.le_refl _) rfl rfl rfl (Nat.zero_le _)
    · cases taken
      exact .quiet (Int.le_refl _) rfl rfl rfl (Nat.zero_le _)
    · cases taken

/-! The caps -/

theorem dayBefore_mono {clock later : Int} (le : clock ≤ later) :
    dayBefore clock ≤ dayBefore later := by
  unfold dayBefore ofDate toDate
  omega

theorem appliedAfter_mono {since later : Int} (le : since ≤ later) :
    appliedAfter s later ≤ appliedAfter s since :=
  List.countP_mono_left fun change _ after => by
    simp only [decide_eq_true_eq] at after ⊢
    omega

/-- The changes of a window are among those that an evaluation inside it has counted. -/
theorem appliedFrom_le {time : Int} (since : s.since ≤ dayBefore s.clock)
    (inside : s.clock < time + ofDate day) : appliedFrom s time ≤ appliedAfter s s.since := by
  refine List.countP_mono_left fun change _ among => ?_
  simp only [decide_eq_true_eq] at among ⊢
  unfold dayBefore ofDate toDate at since
  unfold ofDate at inside
  omega

theorem dayBefore_lt (clock : Int) : dayBefore clock < clock := by
  unfold dayBefore ofDate toDate day
  omega

/-- What an evaluation may still change fits under `maxActionsPerRun`. -/
def WithinRun (rule : AdRule) (s : State) : Prop :=
  (s.inRun + s.phase.left : Int) ≤ max rule.maxActionsPerRun 0

/-- What an evaluation may still change fits under `dailyActionCap`, with all that has been applied
since it has counted. -/
structure WithinDay (rule : AdRule) (s : State) : Prop where
  left : (appliedAfter s s.since + s.phase.left : Int) ≤ max rule.dailyActionCap 0
  since : s.since ≤ dayBefore s.clock
  daily : ∀ time, (appliedFrom s time : Int) ≤ max rule.dailyActionCap 0

theorem step_withinRun {a : Act} (within : WithinRun rule s) (taken : Step rule s a t) :
    WithinRun rule t := by
  unfold WithinRun at *
  cases step_effect taken with
  | quiet clock applied inRun since left => omega
  | begins breaches budgets act clock applied inRun since left counts =>
    have le : cap rule s.rows (dayBefore s.clock) ≤ rule.maxActionsPerRun := Int.min_le_left _ _
    omega
  | applies clock applied inRun since left => omega

theorem step_withinDay {a : Act} (within : WithinDay rule s) (taken : Step rule s a t)
    (audited : Audited rule s a) : WithinDay rule t := by
  obtain ⟨fits, started, daily⟩ := within
  cases step_effect taken with
  | quiet clock applied inRun since left =>
    refine ⟨?_, ?_, fun time => ?_⟩
    · unfold appliedAfter at *
      rw [applied, since]
      omega
    · rw [since]
      exact Int.le_trans started (dayBefore_mono clock)
    · unfold appliedFrom
      rw [applied]
      exact daily time
  | begins breaches budgets act clock applied inRun since left counts =>
    subst act
    have audited : t.phase.left ≠ 0 →
        appliedAfter s (dayBefore s.clock) ≤ usedToday rule s.rows (dayBefore s.clock) :=
      fun more => audited (counts more).1 (counts more).2
    have fewer := appliedAfter_mono (s := s) started
    have le : cap rule s.rows (dayBefore s.clock) ≤
        max (rule.dailyActionCap - usedToday rule s.rows (dayBefore s.clock)) 0 :=
      Int.min_le_right _ _
    refine ⟨?_, ?_, fun time => ?_⟩
    · by_cases none : t.phase.left = 0
      · unfold appliedAfter at *
        rw [applied, since, none]
        omega
      · have counted := audited none
        unfold appliedAfter at *
        rw [applied, since]
        omega
    · have counted : t.since = dayBefore t.clock := by rw [since, clock]
      exact Int.le_of_eq counted
    · unfold appliedFrom
      rw [applied]
      exact daily time
  | applies clock applied inRun since left =>
    have after : appliedAfter t t.since = appliedAfter s s.since + 1 := by
      have now : s.since < s.clock := Int.lt_of_le_of_lt started (dayBefore_lt s.clock)
      unfold appliedAfter
      rw [applied, since]
      exact List.countP_cons_of_pos (decide_eq_true now)
    have counted : t.since ≤ dayBefore t.clock := by
      rw [since, clock]
      exact started
    refine ⟨by omega, counted, fun time => ?_⟩
    by_cases inside : time ≤ s.clock ∧ s.clock < time + ofDate day
    · have le := appliedFrom_le counted (by rw [clock]; exact inside.2)
      omega
    · unfold appliedFrom at *
      rw [applied, List.countP_cons_of_neg (by simpa using inside)]
      exact daily time

/-! Runs in which nothing fails behind an applied change -/

/-- An applied change is answered, and its row is stored. -/
def Recorded (s : State) : Act → Prop
  | .act answer => answer.applied = true → answer.error = none
  | .record stored _ => s.phase.pending = 1 → stored = true
  | _ => True

/-- Every change has its row, but for the one whose row is to be inserted. -/
structure Accounted (rule : AdRule) (s : State) : Prop where
  past : ∀ change ∈ s.applied, change ≤ s.clock
  rows : ∀ since, appliedAfter s since ≤ usedToday rule s.rows since + s.phase.pending

theorem usedToday_cons (row : AdRuleAction) (rows : List AdRuleAction) (since : Int) :
    usedToday rule rows since ≤ usedToday rule (row :: rows) since :=
  (List.sublist_cons_self row rows).countP_le

theorem usedToday_recorded (rule : AdRule) (rows : List AdRuleAction) (breach : Breach)
    {since clock : Int} (later : since < clock) :
    usedToday rule (recordAction rule clock breach rule.action true none :: rows) since =
      usedToday rule rows since + 1 := by
  unfold usedToday
  exact List.countP_cons_of_pos (by simp [recordAction, later])

/-- Neither the changes nor the rows are fewer than they were, and no change waits for its row. -/
theorem Accounted.mono (accounted : Accounted rule s) (clock : s.clock ≤ t.clock)
    (applied : t.applied = s.applied) (settled : s.phase.pending ≤ t.phase.pending)
    (rows : ∀ since, usedToday rule s.rows since ≤ usedToday rule t.rows since) :
    Accounted rule t where
  past change among := Int.le_trans (accounted.past change (applied ▸ among)) clock
  rows since := by
    have before := accounted.rows since
    have more := rows since
    unfold appliedAfter at *
    rw [applied]
    omega

theorem appliedAfter_clock (accounted : Accounted rule s) {since : Int} (le : s.clock ≤ since) :
    appliedAfter s since = 0 := by
  refine List.countP_eq_zero.mpr fun change among => ?_
  have past := accounted.past change among
  simp only [decide_eq_true_eq]
  omega

theorem step_accounted {a : Act} (accounted : Accounted rule s) (taken : Step rule s a t)
    (recorded : Recorded s a) : Accounted rule t := by
  cases a with
  | wait clock =>
    simp only [Step, step] at taken
    split at taken
    · rename_i later
      cases taken
      exact accounted.mono later rfl (Nat.le_refl _) fun _ => Nat.le_refl _
    · cases taken
  | evaluate breaches budgets =>
    simp only [Step, step] at taken
    split at taken
    · rename_i idle
      cases taken
      obtain ⟨phase, same, _⟩ := evaluate_spec rule idle breaches budgets
      rw [same]
      refine accounted.mono (Int.le_refl _) rfl ?_ fun _ => Nat.le_refl _
      rw [idle]
      exact Nat.zero_le _
    · cases taken
  | act answer =>
    simp only [Step, step] at taken
    split at taken
    · rename_i budgets breach rest acting
      cases taken
      have settled : s.phase.pending = 0 := by
        rw [acting]
        rfl
      obtain ⟨phase, _, same | ⟨applied, waits, same⟩⟩ := act_spec rule s answer budgets breach rest
      · rw [same]
        refine accounted.mono (Int.le_refl _) rfl ?_ fun _ => Nat.le_refl _
        rw [settled]
        exact Nat.zero_le _
      · rw [same]
        have answered := recorded applied
        subst waits
        refine ⟨List.forall_mem_cons.mpr ⟨Int.le_refl _, accounted.past⟩, fun since => ?_⟩
        have before := accounted.rows since
        have one : appliedAfter { s with applied := s.clock :: s.applied } since ≤
            appliedAfter s since + 1 := by
          unfold appliedAfter
          rw [List.countP_cons]
          split <;> omega
        rw [answered]
        exact Nat.le_trans one (by simp only [Phase.pending]; omega)
    · cases taken
  | record stored answered =>
    simp only [Step, step] at taken
    split at taken
    · rename_i breach rest alerting
      cases taken
      have settled : s.phase.pending = 0 := by
        rw [alerting]
        rfl
      cases stored
      · exact accounted.mono (Int.le_refl _) rfl (settled ▸ Nat.zero_le _) fun _ => Nat.le_refl _
      · exact accounted.mono (Int.le_refl _) rfl (settled ▸ Nat.zero_le _) fun _ =>
          usedToday_cons _ _ _
    · rename_i breach error budgets rest recording
      cases taken
      obtain ⟨phase, _, settled, same⟩ :=
        record_spec rule s stored answered breach error budgets rest
      rw [same]
      cases error with
      | none =>
        have waits : s.phase.pending = 1 := by
          rw [recording]
          rfl
        have inserted := recorded waits
        subst inserted
        refine ⟨accounted.past, fun since => ?_⟩
        have before := accounted.rows since
        rw [if_pos rfl]
        by_cases later : since < s.clock
        · have counted := usedToday_recorded rule s.rows breach later
          rw [waits] at before
          exact Nat.le_trans before (Nat.le_of_eq (by rw [settled]; exact counted.symm))
        · have nothing := appliedAfter_clock accounted (Int.not_lt.mp later)
          exact Nat.le_trans (Nat.le_of_eq nothing) (Nat.zero_le _)
      | some message =>
        refine accounted.mono (Int.le_refl _) rfl ?_ fun since => ?_
        · rw [recording]
          exact Nat.zero_le _
        · dsimp only
          split
          · exact usedToday_cons _ _ _
          · exact Nat.le_refl _
    · cases taken
  | finish =>
    simp only [Step, step] at taken
    split at taken
    · rename_i alerting
      cases taken
      exact accounted.mono (Int.le_refl _) rfl (alerting ▸ Nat.le_refl _) fun _ => Nat.le_refl _
    · rename_i acting
      cases taken
      exact accounted.mono (Int.le_refl _) rfl (acting ▸ Nat.le_refl _) fun _ => Nat.le_refl _
    · cases taken

theorem start_accounted (rule : AdRule) (clock : Int) : Accounted rule (start clock) :=
  ⟨fun _ absent => absurd absent List.not_mem_nil, fun _ => Nat.zero_le _⟩

theorem start_withinDay (rule : AdRule) (clock : Int) : WithinDay rule (start clock) :=
  ⟨Int.le_max_right _ _, Int.le_refl _, fun _ => Int.le_max_right _ _⟩

end

variable {rule : AdRule} {clock : Int} {steps : List (Transition State Act)} {s : State}

/-- Then every evaluation finds the audit trail complete. -/
theorem recorded_audited (run : Run (Step rule) (start clock) steps s)
    (recorded : ∀ x ∈ steps, Recorded x.pre x.label) : ∀ x ∈ steps, Audited rule x.pre x.label := by
  induction run with
  | nil => exact fun _ absent => absurd absent List.not_mem_nil
  | @snoc steps s t a earlier taken ih =>
    simp only [List.forall_mem_append, List.forall_mem_singleton] at recorded ⊢
    refine ⟨ih recorded.1, ?_⟩
    have accounted := (earlier.invariant_of (fun x => Recorded x.pre x.label)
      (start_accounted rule clock) (fun _ _ _ => step_accounted) recorded.1).1
    cases a with
    | evaluate breaches budgets =>
      have rows := accounted.rows (dayBefore s.clock)
      have settled : s.phase.pending = 0 := by
        simp only [Step, step] at taken
        split at taken
        · rename_i idle
          rw [idle]
          rfl
        · cases taken
      rw [settled] at rows
      exact fun _ _ => rows
    | _ => trivial

/-- No evaluation changes more than `maxActionsPerRun`, and no 24 hours see more changes than
`dailyActionCap` as long as each evaluation that counts finds a row for every change. -/
theorem caps_hold (rule : AdRule) (clock : Int) {steps : List (Transition State Act)} {s : State}
    (run : Run (Step rule) (start clock) steps s) :
    (∀ x ∈ steps, (x.post.inRun : Int) ≤ max rule.maxActionsPerRun 0) ∧
      ((∀ x ∈ steps, Audited rule x.pre x.label) → ∀ x ∈ steps, WithinCaps rule x.post) := by
  have perRun : ∀ x ∈ steps, (x.post.inRun : Int) ≤ max rule.maxActionsPerRun 0 := by
    have all := (run.invariant_of (I := WithinRun rule) (fun _ => True) (Int.le_max_right _ _)
      (fun _ _ _ within taken _ => step_withinRun within taken) fun _ _ => trivial).2
    intro x taken
    have within := all x taken
    unfold WithinRun at within
    omega
  refine ⟨perRun, fun audited x taken => ⟨perRun x taken, ?_⟩⟩
  exact ((run.invariant_of (fun x => Audited rule x.pre x.label) (start_withinDay rule clock)
    (fun _ _ _ => step_withinDay) audited).2 x taken).daily

/-- Pause the campaigns whose clicks are too dear, one a day. -/
def onePause : AdRule := ⟨.campaign, .pause, true, 1, 1⟩

def dear : Breach := ⟨some "120210", some "Summer"⟩

/-- The insert behind a pause fails, and the next evaluation pauses once more. -/
theorem cap_exceeded : ∃ steps s, Run (Step onePause) (start 0) steps s ∧
    ¬ WithinCaps onePause s := by
  let acts : List Act := [.evaluate [dear] none, .act .done, .record false false, .record true true,
    .finish, .evaluate [dear] none, .act .done]
  refine ⟨_, _, @follow_run _ _ (step onePause) (start 0) _ acts _ rfl, fun within => ?_⟩
  exact absurd (within.daily 0) (by decide)

theorem cap_kept : ∃ steps s, Run (Step onePause) (start 0) steps s ∧
    ∀ x ∈ steps, WithinCaps onePause x.post := by
  let acts : List Act := [.evaluate [dear] none, .act .done, .record true true, .finish,
    .evaluate [dear] none]
  have run := @follow_run _ _ (step onePause) (start 0) _ acts _ rfl
  refine ⟨_, _, run, (caps_hold onePause 0 run).2 fun x taken => ?_⟩
  simp only [List.mem_cons, List.not_mem_nil, or_false] at taken
  rcases taken with rfl | rfl | rfl | rfl | rfl
  · exact fun _ _ => Nat.zero_le _
  · trivial
  · trivial
  · trivial
  · intro _ _
    decide +kernel

end Gomer.Guardrails
