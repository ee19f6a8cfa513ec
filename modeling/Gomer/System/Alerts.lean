import Gomer.Lib.Relational
import Gomer.Lib.Trace
import Mathlib.Data.List.Nodup
import Mathlib.Logic.Function.Basic

/-! Monitoring sweeps on any number of instances over one table of alerts. A sweep measures an
account for one day, and asks the clock again for the day under which it records what it found. -/
namespace Gomer.Alerts

open Relational Trace

/-- A signal that fired on an account, and the UTC day it was measured for. -/
structure Anomaly where
  workspaceId : String
  adAccountId : String
  metric : String
  message : String
  measured : Int
  deriving DecidableEq

structure AnomalyAlert where
  workspaceId : String
  adAccountId : String
  metric : String
  day : Int
  message : String
  deriving DecidableEq

/-- The columns of the unique index. -/
def AnomalyAlert.index (row : AnomalyAlert) : String × String × String × Int :=
  (row.workspaceId, row.adAccountId, row.metric, row.day)

def Anomaly.key (a : Anomaly) : String × String × String × Int :=
  (a.workspaceId, a.adAccountId, a.metric, a.measured)

/-- `isoDaysAgo(0)`, as the number of the day. -/
def today (now : Int) : Int := now / 86400000

/-- Where a sweep of one workspace awaits: the insights of an account, or the insert of a finding;
between two awaits it has findings left to record. -/
inductive Phase where
  | measuring (adAccountId : String) (day : Int)
  | recording (findings : List Anomaly)
  | inserting (finding : Anomaly) (row : AnomalyAlert) (findings : List Anomaly)

structure Sweep where
  workspaceId : String
  reports : List Anomaly
  phase : Phase

structure State where
  now : Int
  /-- The table, and which anomaly each row was inserted for. -/
  alerts : List (AnomalyAlert × Anomaly)
  sweeps : Nat → Option Sweep
  /-- What the sweeps that ended have returned. -/
  reported : List Anomaly

def start (now : Int) : State := ⟨now, [], fun _ => none, []⟩

inductive Action where
  | tick (now : Int)
  | sweepWorkspace (sweep : Nat) (workspaceId : String)
  | checkAccount (sweep : Nat) (adAccountId : String)
  | insights (sweep : Nat) (findings : List (String × String))
  | insightsFail (sweep : Nat)
  | recordOnce (sweep : Nat)
  | insert (sweep : Nat) (outcome : Completion)
  | finish (sweep : Nat)

def State.put (s : State) (sweep : Nat) (entry : Option Sweep) : State :=
  { s with sweeps := Function.update s.sweeps sweep entry }

def taken (alerts : List (AnomalyAlert × Anomaly)) (row : AnomalyAlert) : Bool :=
  row.index ∈ alerts.map (·.1.index)

/-- The row that `recordOnce` builds, with the day of this moment. -/
def createAlert (a : Anomaly) (day : Int) : AnomalyAlert :=
  ⟨a.workspaceId, a.adAccountId, a.metric, day, a.message⟩

/-- The table after the insert, and what `recordOnce` returns. -/
def insertAlert (alerts : List (AnomalyAlert × Anomaly)) (finding : Anomaly) (row : AnomalyAlert)
    (outcome : Completion) : List (AnomalyAlert × Anomaly) × Bool :=
  if taken alerts row || outcome == .refused then (alerts, false)
  else (alerts ++ [(row, finding)], outcome == .executed)

def step (s : State) : Action → Option State
  | .tick now => if s.now ≤ now then some { s with now } else none
  | .sweepWorkspace sweep workspaceId =>
    match s.sweeps sweep with
    | none => some (s.put sweep (some ⟨workspaceId, [], .recording []⟩))
    | some _ => none
  | .checkAccount sweep adAccountId =>
    match s.sweeps sweep with
    | some ⟨workspaceId, reports, .recording []⟩ =>
      some (s.put sweep (some ⟨workspaceId, reports, .measuring adAccountId (today s.now)⟩))
    | _ => none
  | .insights sweep findings =>
    match s.sweeps sweep with
    | some ⟨workspaceId, reports, .measuring adAccountId day⟩ =>
      some (s.put sweep (some ⟨workspaceId, reports, .recording (findings.map fun f =>
        ⟨workspaceId, adAccountId, f.1, f.2, day⟩)⟩))
    | _ => none
  -- The exception leaves `sweepWorkspace`, and its local `reports` with it.
  | .insightsFail sweep =>
    match s.sweeps sweep with
    | some ⟨_, _, .measuring _ _⟩ => some (s.put sweep none)
    | _ => none
  | .recordOnce sweep =>
    match s.sweeps sweep with
    | some ⟨workspaceId, reports, .recording (a :: findings)⟩ =>
      some (s.put sweep (some ⟨workspaceId, reports,
        .inserting a (createAlert a (today s.now)) findings⟩))
    | _ => none
  | .insert sweep outcome =>
    match s.sweeps sweep with
    | some ⟨workspaceId, reports, .inserting a row findings⟩ =>
      match insertAlert s.alerts a row outcome with
      | (alerts, recorded) => some { s.put sweep (some ⟨workspaceId,
          if recorded then reports ++ [a] else reports, .recording findings⟩) with alerts }
    | _ => none
  | .finish sweep =>
    match s.sweeps sweep with
    | some ⟨_, reports, .recording []⟩ =>
      some { s.put sweep none with reported := s.reported ++ reports }
    | _ => none

abbrev Step (s : State) (a : Action) (t : State) : Prop := step s a = some t

/-! The law, and the condition on a step -/

/-- The insert of the step had this outcome for the sweep's finding. -/
def Suppressed (x : Transition State Action) (a : Anomaly) : Prop :=
  ∃ sweep outcome workspaceId reports row findings, x.label = .insert sweep outcome ∧
    x.pre.sweeps sweep = some ⟨workspaceId, reports, .inserting a row findings⟩ ∧
    x.post.sweeps sweep = some ⟨workspaceId, reports, .recording findings⟩

/-- One report for each anomaly and day, none for a row of another day, and none lost. -/
structure AlertsOnce (x : Transition State Action) : Prop where
  once : (x.post.reported.map Anomaly.key).Nodup
  suppressed : ∀ a, Suppressed x a → ∃ r ∈ x.pre.alerts, r.1.index = a.key ∧ r.2.key = a.key
  kept : ∀ sweep entry, x.label = .insightsFail sweep → x.pre.sweeps sweep = some entry →
    entry.reports = []

/-- A finding is recorded on the day it was measured for, only a taken key fails the insert, and no
account fails after another one had something to report. -/
def undisturbed (s : State) : Action → Bool
  | .recordOnce sweep =>
    match s.sweeps sweep with
    | some ⟨_, _, .recording (a :: _)⟩ => today s.now == a.measured
    | _ => true
  | .insert sweep outcome =>
    match s.sweeps sweep with
    | some ⟨_, _, .inserting _ row _⟩ => outcome == .executed || taken s.alerts row
    | _ => true
  | .insightsFail sweep =>
    match s.sweeps sweep with
    | some entry => entry.reports == []
    | none => true
  | _ => true

abbrev Undisturbed (s : State) (a : Action) : Prop := undisturbed s a = true

/-! Who holds which report: a sweep, until it returns, or everyone -/

def State.held (s : State) : Option Nat → List Anomaly
  | none => s.reported
  | some sweep => ((s.sweeps sweep).map (·.reports)).getD []

/-- Every report has its row, and stands in one place once. -/
structure Accounted (alerts : List (AnomalyAlert × Anomaly)) (held : Option Nat → List Anomaly) :
    Prop where
  once : ∀ h, ((held h).map Anomaly.key).Nodup
  apart : ∀ h h', h ≠ h' → ∀ a ∈ held h, ∀ b ∈ held h', a.key ≠ b.key
  stored : ∀ h, ∀ a ∈ held h, a.key ∈ alerts.map (·.1.index)

/-- The row on its way to the table is one for the day that was measured. -/
def Sweep.Stamped (entry : Sweep) : Prop :=
  match entry.phase with
  | .inserting a row _ => row.index = a.key
  | _ => True

structure Inv (s : State) : Prop where
  accounted : Accounted s.alerts s.held
  rows : ∀ r ∈ s.alerts, r.1.index = r.2.key
  stamped : ∀ sweep, ∀ entry ∈ s.sweeps sweep, entry.Stamped

section
variable {alerts : List (AnomalyAlert × Anomaly)} {held : Option Nat → List Anomaly}

theorem mem_push {holder h : Option Nat} {a b : Anomaly} :
    b ∈ Function.update held holder (held holder ++ [a]) h ↔ b ∈ held h ∨ h = holder ∧ b = a := by
  rw [Function.update_apply]
  split
  · rename_i own
    subst own
    simp
  · rename_i other
    simp [other]

/-- A report whose key had no row. -/
theorem Accounted.push (accounted : Accounted alerts held) (holder : Option Nat) {a : Anomaly}
    {row : AnomalyAlert} (own : row.index = a.key) (free : row.index ∉ alerts.map (·.1.index)) :
    Accounted (alerts ++ [(row, a)]) (Function.update held holder (held holder ++ [a])) := by
  have fresh (h : Option Nat) (b : Anomaly) (hb : b ∈ held h) : b.key ≠ a.key := by
    intro same
    have known := accounted.stored h b hb
    rw [same, ← own] at known
    exact free known
  refine ⟨fun h => ?_, fun h h' ne b hb c hc => ?_, fun h b hb => ?_⟩
  · rw [Function.update_apply]
    split
    · rw [List.map_append, List.map_singleton, List.nodup_append]
      refine ⟨accounted.once holder, List.nodup_singleton _, fun k hk k' hk' => ?_⟩
      obtain ⟨b, hb, rfl⟩ := List.mem_map.mp hk
      rw [List.mem_singleton.mp hk']
      exact fresh holder b hb
    · exact accounted.once h
  · rcases mem_push.mp hb with old | ⟨here, rfl⟩ <;> rcases mem_push.mp hc with old' | ⟨there, rfl⟩
    · exact accounted.apart h h' ne b old c old'
    · exact fresh h b old
    · exact (fresh h' c old').symm
    · exact absurd (here.trans there.symm) ne
  · rw [List.map_append]
    rcases mem_push.mp hb with hb | ⟨_, rfl⟩
    · exact List.mem_append_left _ (accounted.stored h b hb)
    · rw [← own]
      exact List.mem_append_right _ List.mem_cons_self

/-- A sweep hands over what it holds. -/
theorem Accounted.hand (accounted : Accounted alerts held) (sweep : Nat) :
    Accounted alerts (Function.update (Function.update held (some sweep) []) none
      (held none ++ held (some sweep))) := by
  have origin (h : Option Nat) (b : Anomaly) (hb : b ∈ Function.update (Function.update held
      (some sweep) []) none (held none ++ held (some sweep)) h) :
      b ∈ held h ∧ h ≠ some sweep ∨ h = none ∧ b ∈ held (some sweep) := by
    rw [Function.update_apply] at hb
    split at hb
    · rename_i returned
      subst returned
      rcases List.mem_append.mp hb with old | new
      · exact .inl ⟨old, by simp⟩
      · exact .inr ⟨rfl, new⟩
    · rw [Function.update_apply] at hb
      split at hb
      · cases hb
      · rename_i other
        exact .inl ⟨hb, other⟩
  refine ⟨fun h => ?_, fun h h' ne b hb c hc => ?_, fun h b hb => ?_⟩
  · rw [Function.update_apply]
    split
    · rw [List.map_append, List.nodup_append]
      refine ⟨accounted.once none, accounted.once (some sweep), fun k hk k' hk' => ?_⟩
      obtain ⟨b, hb, rfl⟩ := List.mem_map.mp hk
      obtain ⟨c, hc, rfl⟩ := List.mem_map.mp hk'
      exact accounted.apart none (some sweep) (by simp) b hb c hc
    · rw [Function.update_apply]
      split
      · exact List.nodup_nil
      · exact accounted.once h
  · rcases origin h b hb with ⟨own, away⟩ | ⟨rfl, own⟩ <;>
      rcases origin h' c hc with ⟨own', away'⟩ | ⟨rfl, own'⟩
    · exact accounted.apart h h' ne b own c own'
    · exact accounted.apart h (some sweep) away b own c own'
    · exact accounted.apart (some sweep) h' away'.symm b own c own'
    · exact absurd rfl ne
  · rcases origin h b hb with ⟨own, _⟩ | ⟨_, own⟩
    · exact accounted.stored h b own
    · exact accounted.stored _ b own

end

section
variable {s : State}

/-- What the sweeps hold, with the entry of one replaced. -/
theorem held_put (sweep : Nat) (entry : Option Sweep) : (s.put sweep entry).held =
    Function.update s.held (some sweep) ((entry.map (·.reports)).getD []) := by
  funext h
  cases h with
  | none => rfl
  | some other =>
    simp only [State.held, State.put, Function.update_apply, Option.some.injEq]
    split <;> rfl

/-- Replacing an entry by one with the same reports. -/
theorem held_put_same (sweep : Nat) (entry : Option Sweep)
    (same : (entry.map (·.reports)).getD [] = s.held (some sweep)) :
    (s.put sweep entry).held = s.held := by
  rw [held_put, same, Function.update_eq_self]

theorem stamped_put (stamped : ∀ sweep, ∀ entry ∈ s.sweeps sweep, entry.Stamped) {sweep : Nat}
    {entry : Option Sweep} (new : ∀ e ∈ entry, e.Stamped) :
    ∀ other, ∀ e ∈ (s.put sweep entry).sweeps other, e.Stamped := by
  intro other e he
  simp only [State.put, Function.update_apply] at he
  split at he
  · exact new e he
  · exact stamped other e he

theorem held_some {sweep : Nat} {entry : Sweep} (here : s.sweeps sweep = some entry) :
    s.held (some sweep) = entry.reports := by
  rw [State.held, here]
  rfl

/-- A sweep that goes on, with the reports that it has. -/
theorem Inv.goOn (inv : Inv s) {sweep : Nat} {old new : Sweep} (here : s.sweeps sweep = some old)
    (same : new.reports = old.reports) (stamped : new.Stamped) : Inv (s.put sweep (some new)) where
  accounted := by
    have held : (s.put sweep (some new)).held = s.held :=
      held_put_same _ _ (same.trans (held_some here).symm)
    rw [held]
    exact inv.accounted
  rows := inv.rows
  stamped := stamped_put inv.stamped fun e he => by
    cases he
    exact stamped

theorem undisturbed_insert {sweep : Nat} {outcome : Completion} {workspaceId : String}
    {reports findings : List Anomaly} {a : Anomaly} {row : AnomalyAlert}
    (here : s.sweeps sweep = some ⟨workspaceId, reports, .inserting a row findings⟩)
    (met : Undisturbed s (.insert sweep outcome)) :
    outcome = .executed ∨ taken s.alerts row = true := by
  simpa [Undisturbed, undisturbed, here] using met

theorem insert_cases {t : State} {sweep : Nat} {outcome : Completion}
    (done : Step s (.insert sweep outcome) t) : ∃ workspaceId reports a row findings,
      s.sweeps sweep = some ⟨workspaceId, reports, .inserting a row findings⟩ ∧
      ((taken s.alerts row = true ∨ outcome = .refused) ∧
          t = s.put sweep (some ⟨workspaceId, reports, .recording findings⟩) ∨
        taken s.alerts row = false ∧ t = { s.put sweep (some ⟨workspaceId,
          if outcome = .executed then reports ++ [a] else reports, .recording findings⟩) with
            alerts := s.alerts ++ [(row, a)] }) := by
  simp only [Step, step] at done
  split at done
  · rename_i workspaceId reports a row findings here
    refine ⟨workspaceId, reports, a, row, findings, here, ?_⟩
    simp only [insertAlert] at done
    split at done
    · rename_i none
      cases done
      simp only [Bool.or_eq_true, beq_iff_eq] at none
      exact .inl ⟨none, rfl⟩
    · rename_i some
      cases done
      simp only [Bool.or_eq_true, not_or, Bool.not_eq_true] at some
      refine .inr ⟨some.1, ?_⟩
      cases outcome <;> rfl
  · cases done

theorem inv_insert {t : State} {sweep : Nat} {outcome : Completion} (inv : Inv s)
    (done : Step s (.insert sweep outcome) t) (met : Undisturbed s (.insert sweep outcome)) :
    Inv t := by
  obtain ⟨workspaceId, reports, a, row, findings, here, ⟨_, rfl⟩ | ⟨free, rfl⟩⟩ := insert_cases done
  · exact inv.goOn here rfl trivial
  · have own : row.index = a.key := inv.stamped sweep _ here
    have executed : outcome = .executed :=
      (undisturbed_insert here met).resolve_right (by rw [free]; exact Bool.false_ne_true)
    rw [if_pos executed]
    refine ⟨?_, ?_, stamped_put inv.stamped fun e he => ?_⟩
    · have pushed := inv.accounted.push (some sweep) own (of_decide_eq_false free)
      rw [held_some here] at pushed
      have held : (s.put sweep (some ⟨workspaceId, reports ++ [a], .recording findings⟩)).held =
          Function.update s.held (some sweep) (reports ++ [a]) := held_put _ _
      rw [← held] at pushed
      exact pushed
    · intro r hr
      rcases List.mem_append.mp hr with old | new
      · exact inv.rows r old
      · rw [List.mem_singleton.mp new]
        exact own
    · cases he
      trivial

theorem inv_finish {t : State} {sweep : Nat} (inv : Inv s) (done : Step s (.finish sweep) t) :
    Inv t := by
  simp only [Step, step] at done
  split at done
  · rename_i workspaceId reports here
    cases done
    refine ⟨?_, inv.rows, stamped_put inv.stamped fun e he => by cases he⟩
    have handed := inv.accounted.hand sweep
    have held : State.held { s.put sweep none with reported := s.reported ++ reports } =
        Function.update (Function.update s.held (some sweep) []) none
          (s.held none ++ s.held (some sweep)) := by
      funext h
      have put : (s.put sweep none).held = Function.update s.held (some sweep) [] := held_put _ _
      cases h with
      | none =>
        rw [Function.update_self, held_some here]
        rfl
      | some other =>
        rw [Function.update_of_ne (Option.some_ne_none other), ← put]
        rfl
    rw [held]
    exact handed
  · cases done

theorem inv_step {a : Action} {t : State} (inv : Inv s) (done : Step s a t)
    (met : Undisturbed s a) : Inv t := by
  cases a with
  | tick now =>
    simp only [Step, step] at done
    split at done
    · cases done
      exact ⟨inv.accounted, inv.rows, inv.stamped⟩
    · cases done
  | sweepWorkspace sweep workspaceId =>
    simp only [Step, step] at done
    split at done
    · rename_i absent
      cases done
      have nothing : s.held (some sweep) = [] := by rw [State.held, absent]; rfl
      refine ⟨?_, inv.rows, stamped_put inv.stamped fun e he => ?_⟩
      · rw [held_put_same _ (some ⟨workspaceId, [], .recording []⟩) nothing.symm]
        exact inv.accounted
      · cases he
        trivial
    · cases done
  | checkAccount sweep adAccountId =>
    simp only [Step, step] at done
    split at done
    · rename_i here
      cases done
      exact inv.goOn here rfl trivial
    · cases done
  | insights sweep findings =>
    simp only [Step, step] at done
    split at done
    · rename_i here
      cases done
      exact inv.goOn here rfl trivial
    · cases done
  | insightsFail sweep =>
    simp only [Step, step] at done
    split at done
    · rename_i here
      cases done
      have none : s.held (some sweep) = [] := by
        rw [held_some here]
        simpa [Undisturbed, undisturbed, here] using met
      refine ⟨?_, inv.rows, stamped_put inv.stamped fun e he => by cases he⟩
      rw [held_put_same _ Option.none none.symm]
      exact inv.accounted
    · cases done
  | recordOnce sweep =>
    simp only [Step, step] at done
    split at done
    · rename_i workspaceId reports a findings here
      cases done
      have day : today s.now = a.measured := by simpa [Undisturbed, undisturbed, here] using met
      exact inv.goOn here rfl (by simp [Sweep.Stamped, createAlert, AnomalyAlert.index,
        Anomaly.key, day])
    · cases done
  | insert sweep outcome => exact inv_insert inv done met
  | finish sweep => exact inv_finish inv done

/-- One step under the condition obeys the law. -/
theorem alertsOnce_step {a : Action} {t : State} (inv : Inv s) (done : Step s a t)
    (met : Undisturbed s a) : AlertsOnce ⟨s, a, t⟩ where
  once := (inv_step inv done met).accounted.once none
  suppressed b := by
    rintro ⟨sweep, outcome, workspaceId, reports, row, findings, rfl, here, after⟩
    have own : row.index = b.key := inv.stamped sweep _ here
    obtain ⟨_, _, _, _, _, here', ⟨unchanged, rfl⟩ | ⟨free, rfl⟩⟩ := insert_cases done
    · cases here.symm.trans here'
      have known : taken s.alerts row = true := by
        rcases undisturbed_insert here met with rfl | known
        · exact unchanged.resolve_right (by decide)
        · exact known
      obtain ⟨r, hr, index⟩ := List.mem_map.mp (of_decide_eq_true known)
      exact ⟨r, hr, index.trans own, (inv.rows r hr).symm.trans (index.trans own)⟩
    · cases here.symm.trans here'
      have executed : outcome = .executed :=
        (undisturbed_insert here met).resolve_right (by rw [free]; exact Bool.false_ne_true)
      simp [executed, State.put] at after
  kept sweep entry label stands := by
    cases label
    have here : s.sweeps sweep = some entry := stands
    simpa [Undisturbed, undisturbed, here] using met

end

theorem inv_start (now : Int) : Inv (start now) where
  accounted := by
    have nothing : ∀ h, (start now).held h = [] := by
      intro h
      cases h <;> rfl
    refine ⟨fun h => ?_, fun h _ _ a ha => ?_, fun h a ha => ?_⟩
    · rw [nothing]
      exact List.nodup_nil
    · rw [nothing] at ha
      cases ha
    · rw [nothing] at ha
      cases ha
  rows _ absent := by cases absent
  stamped _ _ absent := by cases absent

/-- Undisturbed sweeps report each anomaly once a day, whatever else the others do. -/
theorem alerts_once {now : Int} {steps : List (Transition State Action)} {s : State}
    (run : Run Step (start now) steps s) (met : ∀ x ∈ steps, Undisturbed x.pre x.label) :
    ∀ x ∈ steps, AlertsOnce x :=
  run.lawful_of (I := Inv) AlertsOnce (fun x => Undisturbed x.pre x.label) (inv_start now)
    (fun _ _ _ inv done met => ⟨inv_step inv done met, alertsOnce_step inv done met⟩) met

/-- One account whose cost per purchase is up, from the sweep's start to its end. -/
def sweepOnce (sweep : Nat) : List Action :=
  [.sweepWorkspace sweep "w1", .checkAccount sweep "act_1", .insights sweep [("cpa_spike", "up")],
    .recordOnce sweep, .insert sweep .executed, .finish sweep]

/-- The sweep of the last hour of a day measures before midnight and records after it. -/
def acrossMidnight : List Action :=
  sweepOnce 0 ++
    [.tick 86399000, .sweepWorkspace 1 "w1", .checkAccount 1 "act_1",
      .insights 1 [("cpa_spike", "up")], .tick 86401000, .recordOnce 1, .insert 1 .executed,
      .finish 1] ++ [.tick 90000000] ++ sweepOnce 2

/-- The anomaly of the first day is reported twice, and that of the second day never. -/
theorem midnight_reports_twice : ∃ steps s, Run Step (start 0) steps s ∧
    s.reported.map (·.measured) = [0, 0] ∧ ¬ ∀ x ∈ steps, AlertsOnce x := by
  have outcome : ((follow step (start 0) acrossMidnight).map fun r =>
      (r.2.reported.map (·.measured), r.1.any fun x =>
        !decide (x.post.reported.map Anomaly.key).Nodup)) = some ([0, 0], true) := by
    decide +kernel
  obtain ⟨r, done, checked⟩ := Option.map_eq_some_iff.mp outcome
  simp only [Prod.mk.injEq] at checked
  obtain ⟨days, twice⟩ := checked
  obtain ⟨x, hx, repeated⟩ := List.any_eq_true.mp twice
  refine ⟨r.1, r.2, follow_run done, days, fun law => ?_⟩
  simp [(law x hx).once] at repeated

theorem one_alert : ∃ steps s, Run Step (start 0) steps s ∧ s.reported.length = 1 ∧
    ∀ x ∈ steps, AlertsOnce x := by
  have outcome : ((follow step (start 0) (sweepOnce 0 ++ sweepOnce 1)).map fun r =>
      (r.2.reported.length, r.1.all fun x => undisturbed x.pre x.label)) = some (1, true) := by
    decide +kernel
  obtain ⟨r, done, checked⟩ := Option.map_eq_some_iff.mp outcome
  simp only [Prod.mk.injEq] at checked
  obtain ⟨length, met⟩ := checked
  exact ⟨r.1, r.2, follow_run done, length, alerts_once (follow_run done)
    (List.all_eq_true.mp met)⟩

end Gomer.Alerts
