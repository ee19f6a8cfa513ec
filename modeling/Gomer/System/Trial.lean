import Gomer.Lib.Trace
import Gomer.Usage.Spend
import Mathlib.Logic.Function.Basic

/-! Installs of a Slack team, interleaved statement by statement. The call that creates the
workspace grants the trial afterwards and swallows a failure to; a call that finds the workspace
never grants. -/
namespace Gomer.Trial

open Relational Trace

structure Workspace where
  id : Uuid
  name : String
  slackTeamId : String
  slackBotToken : Option String
  deriving DecidableEq

structure UpsertWorkspaceFromSlackInput where
  name : String
  slackTeamId : String
  /-- An explicit null is `some none`. -/
  slackBotToken : Option (Option String) := none
  deriving DecidableEq

/-- The table with its primary key and its unique column. -/
structure Workspaces where
  rows : List Workspace
  idKey : (rows.map (·.id)).Nodup
  teamKey : (rows.map (·.slackTeamId)).Nodup

namespace Workspaces

def empty : Workspaces := ⟨[], List.nodup_nil, List.nodup_nil⟩

variable (t : Workspaces)

def findBySlackTeamId (slackTeamId : String) : Option Workspace :=
  t.rows.find? (·.slackTeamId == slackTeamId)

def nextId : Uuid := freshId (t.rows.map (·.id))

theorem nextId_fresh : t.nextId ∉ t.rows.map (·.id) := freshId_notMem _

theorem nodup_append {α : Type} {used : List α} {new : α} (distinct : used.Nodup)
    (fresh : new ∉ used) : (used ++ [new]).Nodup :=
  List.nodup_append_comm.mp (List.nodup_cons.mpr ⟨fresh, distinct⟩)

/-- The insert of a new workspace, refused where the team has one. -/
def insert (input : UpsertWorkspaceFromSlackInput) : Option Workspaces :=
  if free : input.slackTeamId ∉ t.rows.map (·.slackTeamId) then
    some
      { rows := t.rows ++ [⟨t.nextId, input.name, input.slackTeamId,
          input.slackBotToken.join⟩]
        idKey := by
          rw [List.map_append]
          exact nodup_append t.idKey t.nextId_fresh
        teamKey := by
          rw [List.map_append]
          exact nodup_append t.teamKey free }
  else none

/-- The name and, where one was given, the token. -/
def update (existing : Workspace) (input : UpsertWorkspaceFromSlackInput) : Workspaces :=
  let set (row : Workspace) : Workspace :=
    if row.id = existing.id then
      { row with
        name := input.name
        slackBotToken := input.slackBotToken.getD existing.slackBotToken }
    else row
  have kept {α : Type} (column : Workspace → α) (same : ∀ row, column (set row) = column row) :
      (t.rows.map set).map column = t.rows.map column := by
    rw [List.map_map]
    exact List.map_congr_left fun row _ => same row
  { rows := t.rows.map set
    idKey := by
      rw [kept (·.id) fun row => by dsimp only [set]; split <;> rfl]
      exact t.idKey
    teamKey := by
      rw [kept (·.slackTeamId) fun row => by dsimp only [set]; split <;> rfl]
      exact t.teamKey }

end Workspaces

def trialCreditsPerSeat : Int := 25 * creditsPerDollar
def trialCreditsFloor : Int := 100 * creditsPerDollar

/-- `seats` is what `countActiveByWorkspace` returns. -/
def onboardingCredits (workspaceId : Uuid) (seats : Int) : GrantCreditsInput where
  workspaceId := workspaceId
  reason := .onboarding
  credits := max trialCreditsFloor (max 1 seats * trialCreditsPerSeat)

def isOnboarding (workspaceId : Uuid) (g : CreditGrant) : Bool :=
  g.workspaceId == workspaceId && g.reason == .onboarding

/-- The next statement of one `upsertFromSlack` call, or how it ended. After `inserting` the call
is in `grantOnboardingCredits`; `created` says whether the grant was stored. -/
inductive Phase where
  | idle
  | finding (input : UpsertWorkspaceFromSlackInput)
  | updating (input : UpsertWorkspaceFromSlackInput) (existing : Workspace)
  | inserting (input : UpsertWorkspaceFromSlackInput)
  | checking (workspaceId : Uuid)
  | counting (workspaceId : Uuid)
  | granting (workspaceId : Uuid) (seats : Int)
  | updated (workspaceId : Uuid)
  | created (workspaceId : Uuid) (stored : Bool)
  | thrown
  deriving DecidableEq

structure State where
  workspaces : Workspaces
  ledger : Ledger
  calls : Nat → Phase

def start : State := ⟨.empty, .empty, fun _ => .idle⟩

/-- A read that fails has no answer. -/
inductive Action where
  | upsertFromSlack (call : Nat) (input : UpsertWorkspaceFromSlackInput)
  | find (call : Nat) (answered : Bool)
  | update (call : Nat) (completion : Completion)
  | insert (call : Nat) (completion : Completion)
  | check (call : Nat) (answered : Bool)
  | count (call : Nat) (seats : Option Int)
  | grant (call : Nat) (now : Instant) (completion : Completion)

def State.put (s : State) (call : Nat) (phase : Phase) : State :=
  { s with calls := Function.update s.calls call phase }

/-- After the answer to the first query. -/
def afterFind (t : Workspaces) (input : UpsertWorkspaceFromSlackInput) : Phase :=
  match t.findBySlackTeamId input.slackTeamId with
  | some existing => .updating input existing
  | none => .inserting input

def step (s : State) : Action → Option State
  | .upsertFromSlack call input =>
    match s.calls call with
    | .idle => some (s.put call (.finding input))
    | _ => none
  | .find call answered =>
    match s.calls call with
    | .finding input => some (s.put call (if answered then afterFind s.workspaces input else .thrown))
    | _ => none
  | .update call completion =>
    match s.calls call with
    | .updating input existing =>
      some { s.put call (if completion = .executed then .updated existing.id else .thrown) with
        workspaces := if completion = .refused then s.workspaces
          else s.workspaces.update existing input }
    | _ => none
  | .insert call completion =>
    match s.calls call with
    | .inserting input =>
      match completion, s.workspaces.insert input with
      | .executed, some workspaces =>
        some { s.put call (.checking s.workspaces.nextId) with workspaces }
      | .unanswered, some workspaces => some { s.put call .thrown with workspaces }
      | _, _ => some (s.put call .thrown)
    | _ => none
  -- From here on a failure is logged and the call returns the workspace.
  | .check call answered =>
    match s.calls call with
    | .checking workspaceId =>
      some (s.put call (if answered then
          if s.ledger.grants.any (isOnboarding workspaceId) then .created workspaceId true
          else .counting workspaceId
        else .created workspaceId false))
    | _ => none
  | .count call seats =>
    match s.calls call with
    | .counting workspaceId =>
      some (s.put call ((seats.map (.granting workspaceId)).getD (.created workspaceId false)))
    | _ => none
  | .grant call now completion =>
    match s.calls call with
    | .granting workspaceId seats =>
      match completion, grantCredits s.ledger now (onboardingCredits workspaceId seats) with
      | .refused, _ | _, .error _ => some (s.put call (.created workspaceId false))
      | _, .ok ledger => some { s.put call (.created workspaceId true) with ledger }
    | _ => none

abbrev Step (s : State) (a : Action) (t : State) : Prop := step s a = some t

/-! The law, and the condition on a step -/

def State.trials (s : State) (workspaceId : Uuid) : Nat :=
  s.ledger.grants.countP (isOnboarding workspaceId)

/-- Every statement of the call was carried out. -/
def Phase.Completed (phase : Phase) (workspaceId : Uuid) : Prop :=
  phase = .updated workspaceId ∨ phase = .created workspaceId true

def AtMostOne (s : State) : Prop := ∀ workspaceId, s.trials workspaceId ≤ 1

def OnceCompleted (s : State) : Prop :=
  ∀ call workspaceId, (s.calls call).Completed workspaceId → s.trials workspaceId = 1

/-- A call that found the workspace ends after the call that created it has stored its grant. -/
def CreatorFirst (s : State) : Action → Prop
  | .update call completion => completion = .executed → ∀ input existing,
      s.calls call = .updating input existing → ∃ creator, s.calls creator = .created existing.id true
  | _ => True

/-- The workspace that the call has inserted. -/
def Phase.creates : Phase → Option Uuid
  | .checking workspaceId | .counting workspaceId | .granting workspaceId _
  | .created workspaceId _ => some workspaceId
  | _ => none

def Phase.stored : Phase → Bool
  | .created _ stored => stored
  | _ => false

/-- A workspace has one creator at most, and the grant that its creator has stored. -/
structure Inv (s : State) : Prop where
  unique : ∀ call other workspaceId, (s.calls call).creates = some workspaceId →
    (s.calls other).creates = some workspaceId → call = other
  listed : ∀ call workspaceId, (s.calls call).creates = some workspaceId →
    workspaceId ∈ s.workspaces.rows.map (·.id)
  granted : ∀ call workspaceId, (s.calls call).creates = some workspaceId →
    s.trials workspaceId = (s.calls call).stored.toNat
  ungranted : ∀ workspaceId, (∀ call, (s.calls call).creates ≠ some workspaceId) →
    s.trials workspaceId = 0

/-! What one statement can do -/

section
variable {s t : State}

/-- The call goes on without having inserted or stored anything. -/
structure Moves (s t : State) (call : Nat) (phase : Phase) : Prop where
  calls : t.calls = Function.update s.calls call phase
  ledger : t.ledger = s.ledger
  listed : ∀ id ∈ s.workspaces.rows.map (·.id), id ∈ t.workspaces.rows.map (·.id)
  creates : phase.creates = (s.calls call).creates
  stored : phase.stored = (s.calls call).stored

/-- The call inserts the team's workspace. -/
structure Creates (s t : State) (call : Nat) (workspaceId : Uuid) : Prop where
  calls : t.calls = Function.update s.calls call (.checking workspaceId)
  ledger : t.ledger = s.ledger
  fresh : workspaceId ∉ s.workspaces.rows.map (·.id)
  listed : t.workspaces.rows.map (·.id) = s.workspaces.rows.map (·.id) ++ [workspaceId]
  phase : (s.calls call).creates = none

/-- The creating call stores its grant. -/
structure Stores (s t : State) (call : Nat) (workspaceId : Uuid) : Prop where
  calls : t.calls = Function.update s.calls call (.created workspaceId true)
  workspaces : t.workspaces = s.workspaces
  phase : ∃ seats, s.calls call = .granting workspaceId seats
  grants : ∃ g, t.ledger.grants = s.ledger.grants ++ [g] ∧
    ∀ other, isOnboarding other g = decide (other = workspaceId)

theorem update_ids (t : Workspaces) (existing : Workspace) (input : UpsertWorkspaceFromSlackInput) :
    (t.update existing input).rows.map (·.id) = t.rows.map (·.id) := by
  apply Relational.map_fixed
  intro row
  split <;> rfl

theorem insert_ids {t next : Workspaces} {input : UpsertWorkspaceFromSlackInput}
    (done : t.insert input = some next) :
    next.rows.map (·.id) = t.rows.map (·.id) ++ [t.nextId] := by
  unfold Workspaces.insert at done
  split at done
  · cases done
    exact List.map_append
  · cases done

theorem grant_rows {L next : Ledger} {now : Instant} {workspaceId : Uuid} {seats : Int}
    (done : grantCredits L now (onboardingCredits workspaceId seats) = .ok next) :
    ∃ g, next.grants = L.grants ++ [g] ∧
      ∀ other, isOnboarding other g = decide (other = workspaceId) := by
  obtain ⟨_, grants, _⟩ := Ledger.saveGrant_ok done
  refine ⟨_, grants, fun other => ?_⟩
  by_cases same : other = workspaceId
  · subst same
    simp [isOnboarding, Ledger.nextGrant, createGrant, onboardingCredits]
  · simp [isOnboarding, Ledger.nextGrant, createGrant, onboardingCredits, same, Ne.symm same]

theorem moves_put {call : Nat} {phase old : Phase} (here : s.calls call = old)
    (creates : phase.creates = old.creates) (stored : phase.stored = old.stored) :
    Moves s (s.put call phase) call phase :=
  ⟨rfl, rfl, fun _ listed => listed, here ▸ creates, here ▸ stored⟩

/-- A call that goes on without a workspace of its own, and is not yet done. -/
theorem moves_plain {a : Action} {call : Nat} {phase old : Phase} (here : s.calls call = old)
    (creates : phase.creates = old.creates) (stored : phase.stored = old.stored)
    (first : CreatorFirst s a) (unfinished : ∀ w, ¬ phase.Completed w) :
    ∃ call' phase', Moves s (s.put call phase) call' phase' ∧
      (CreatorFirst s a ∧ (∀ w, ¬ phase'.Completed w) ∨ ∃ input existing,
        a = .update call' .executed ∧ s.calls call' = .updating input existing ∧
          phase' = .updated existing.id) :=
  ⟨call, phase, moves_put here creates stored, .inl ⟨first, unfinished⟩⟩

theorem afterFind_plain (rows : Workspaces) (input : UpsertWorkspaceFromSlackInput) :
    (afterFind rows input).creates = none ∧ (afterFind rows input).stored = false ∧
      ∀ w, ¬ (afterFind rows input).Completed w := by
  unfold afterFind
  split <;> simp [Phase.creates, Phase.stored, Phase.Completed]

theorem trials_ne_zero {workspaceId : Uuid}
    (found : s.ledger.grants.any (isOnboarding workspaceId) = true) : s.trials workspaceId ≠ 0 := by
  obtain ⟨g, stored, own⟩ := List.any_eq_true.mp found
  intro none
  exact List.countP_eq_zero.mp none g stored own

theorem step_cases {a : Action} (done : Step s a t) :
    (∃ call phase, Moves s t call phase ∧
      (CreatorFirst s a ∧ (∀ w, ¬ phase.Completed w) ∨ ∃ input existing,
        a = .update call .executed ∧ s.calls call = .updating input existing ∧
          phase = .updated existing.id)) ∨
    CreatorFirst s a ∧ ((∃ call workspaceId, Creates s t call workspaceId) ∨
      (∃ call workspaceId, Stores s t call workspaceId) ∨
      ∃ call workspaceId, s.calls call = .checking workspaceId ∧ s.trials workspaceId ≠ 0) := by
  cases a with
  | upsertFromSlack call input =>
    simp only [Step, step] at done
    split at done
    · rename_i here
      cases done
      exact .inl (moves_plain here rfl rfl trivial (by simp [Phase.Completed]))
    · cases done
  | find call answered =>
    simp only [Step, step] at done
    split at done
    · rename_i input here
      cases done
      obtain ⟨creates, stored, unfinished⟩ := afterFind_plain s.workspaces input
      cases answered with
      | true => exact .inl (moves_plain here creates stored trivial unfinished)
      | false =>
        exact .inl (moves_plain here rfl rfl trivial (by simp [Phase.Completed]))
    · cases done
  | update call completion =>
    simp only [Step, step] at done
    split at done
    · rename_i input existing here
      cases done
      have listed : ∀ id ∈ s.workspaces.rows.map (·.id), id ∈ (if completion = .refused then
          s.workspaces else s.workspaces.update existing input).rows.map (·.id) := by
        intro id stands
        split
        · exact stands
        · rwa [update_ids]
      refine .inl ⟨call, _, ⟨rfl, rfl, listed, ?_, ?_⟩, ?_⟩
      · rw [here]
        split <;> rfl
      · rw [here]
        split <;> rfl
      · by_cases executed : completion = .executed
        · subst executed
          exact .inr ⟨input, existing, rfl, here, rfl⟩
        · exact .inl ⟨fun ran => absurd ran executed, by simp [executed, Phase.Completed]⟩
    · cases done
  | insert call completion =>
    simp only [Step, step] at done
    split at done
    · rename_i input here
      split at done
      · rename_i workspaces inserted
        cases done
        exact .inr ⟨trivial, .inl ⟨call, _, rfl, rfl, s.workspaces.nextId_fresh,
          insert_ids inserted, by rw [here]; rfl⟩⟩
      · rename_i workspaces inserted
        cases done
        refine .inl ⟨call, .thrown, ⟨rfl, rfl, fun id stands => ?_, by rw [here]; rfl,
          by rw [here]; rfl⟩, .inl ⟨trivial, by simp [Phase.Completed]⟩⟩
        exact insert_ids inserted ▸ List.mem_append_left _ stands
      · cases done
        exact .inl (moves_plain here rfl rfl trivial (by simp [Phase.Completed]))
    · cases done
  | check call answered =>
    simp only [Step, step] at done
    split at done
    · rename_i workspaceId here
      cases done
      cases answered with
      | false =>
        exact .inl (moves_plain here rfl rfl trivial (by simp [Phase.Completed]))
      | true =>
        by_cases found : s.ledger.grants.any (isOnboarding workspaceId) = true
        · exact .inr ⟨trivial, .inr (.inr ⟨call, workspaceId, here, trials_ne_zero found⟩)⟩
        · simp only [found, if_true, Bool.false_eq_true, if_false]
          exact .inl (moves_plain here rfl rfl trivial (by simp [Phase.Completed]))
    · cases done
  | count call seats =>
    simp only [Step, step] at done
    split at done
    · rename_i workspaceId here
      cases done
      cases seats with
      | none =>
        exact .inl (moves_plain here rfl rfl trivial (by simp [Phase.Completed]))
      | some seats =>
        exact .inl (moves_plain here rfl rfl trivial (by simp [Phase.Completed]))
    · cases done
  | grant call now completion =>
    simp only [Step, step] at done
    split at done
    · rename_i workspaceId seats here
      split at done
      · cases done
        exact .inl (moves_plain here rfl rfl trivial (by simp [Phase.Completed]))
      · cases done
        exact .inl (moves_plain here rfl rfl trivial (by simp [Phase.Completed]))
      · rename_i saved
        cases done
        exact .inr ⟨trivial, .inr (.inl ⟨call, workspaceId, rfl, rfl, ⟨seats, here⟩,
          grant_rows saved⟩)⟩
    · cases done

/-! What the invariant makes of them -/

theorem eq_created {phase : Phase} {workspaceId : Uuid} (creates : phase.creates = some workspaceId)
    (stored : phase.stored = true) : phase = .created workspaceId true := by
  cases phase with
  | created own flag =>
    cases creates
    cases stored
    rfl
  | _ => cases stored

theorem trials_eq_one_iff (inv : Inv s) (workspaceId : Uuid) :
    s.trials workspaceId = 1 ↔ ∃ call, s.calls call = .created workspaceId true := by
  constructor
  · intro one
    by_cases made : ∃ call, (s.calls call).creates = some workspaceId
    · obtain ⟨call, creates⟩ := made
      have granted := inv.granted call workspaceId creates
      refine ⟨call, eq_created creates ?_⟩
      rw [one] at granted
      exact Bool.toNat_eq_one.mp granted.symm
    · have none := inv.ungranted workspaceId fun call creates => made ⟨call, creates⟩
      omega
  · rintro ⟨call, phase⟩
    have granted := inv.granted call workspaceId (by rw [phase]; rfl)
    rw [granted, phase]
    rfl

theorem atMostOne_of_inv (inv : Inv s) : AtMostOne s := by
  intro workspaceId
  by_cases made : ∃ call, (s.calls call).creates = some workspaceId
  · obtain ⟨call, creates⟩ := made
    rw [inv.granted call workspaceId creates]
    exact Bool.toNat_le _
  · rw [inv.ungranted workspaceId fun call creates => made ⟨call, creates⟩]
    exact Nat.zero_le 1

theorem Moves.trials {call : Nat} {phase : Phase} (moves : Moves s t call phase)
    (workspaceId : Uuid) : t.trials workspaceId = s.trials workspaceId := by
  rw [State.trials, moves.ledger, State.trials]

theorem Moves.kept {call : Nat} {phase : Phase} (moves : Moves s t call phase) (other : Nat) :
    (t.calls other).creates = (s.calls other).creates ∧
      (t.calls other).stored = (s.calls other).stored := by
  rw [moves.calls, Function.update_apply]
  split
  · rename_i same
    subst same
    exact ⟨moves.creates, moves.stored⟩
  · exact ⟨rfl, rfl⟩

theorem Moves.inv {call : Nat} {phase : Phase} (moves : Moves s t call phase) (inv : Inv s) :
    Inv t where
  unique a b workspaceId first second := by
    rw [(moves.kept _).1] at first second
    exact inv.unique a b workspaceId first second
  listed a workspaceId creates := by
    rw [(moves.kept a).1] at creates
    exact moves.listed _ (inv.listed a workspaceId creates)
  granted a workspaceId creates := by
    rw [(moves.kept a).1] at creates
    rw [moves.trials, (moves.kept a).2]
    exact inv.granted a workspaceId creates
  ungranted workspaceId none := by
    rw [moves.trials]
    exact inv.ungranted workspaceId fun a => (moves.kept a).1 ▸ none a

theorem Creates.inv {call : Nat} {workspaceId : Uuid} (creates : Creates s t call workspaceId)
    (inv : Inv s) : Inv t := by
  have trials (w : Uuid) : t.trials w = s.trials w := by
    rw [State.trials, creates.ledger, State.trials]
  -- No call has created this workspace before, as it is not in the table.
  have unmade (a : Nat) : (s.calls a).creates ≠ some workspaceId := fun made =>
    creates.fresh (inv.listed a workspaceId made)
  have made (a : Nat) : (t.calls a).creates =
      if a = call then some workspaceId else (s.calls a).creates := by
    rw [creates.calls, Function.update_apply]
    split <;> rfl
  have unstored (a : Nat) : (t.calls a).stored = if a = call then false else (s.calls a).stored := by
    rw [creates.calls, Function.update_apply]
    split <;> rfl
  refine ⟨fun a b w first second => ?_, fun a w own => ?_, fun a w own => ?_, fun w none => ?_⟩
  · rw [made] at first second
    split at first <;> split at second
    · rename_i here there
      rw [here, there]
    · rw [← first] at second
      exact absurd second (unmade b)
    · rw [← second] at first
      exact absurd first (unmade a)
    · exact inv.unique a b w first second
  · rw [creates.listed]
    rw [made] at own
    split at own
    · cases own
      exact List.mem_append_right _ List.mem_cons_self
    · exact List.mem_append_left _ (inv.listed a w own)
  · rw [trials, unstored]
    rw [made] at own
    split at own
    · rename_i here
      cases own
      rw [if_pos here, inv.ungranted workspaceId unmade]
      rfl
    · rename_i other
      rw [if_neg other]
      exact inv.granted a w own
  · rw [trials]
    refine inv.ungranted w fun a own => ?_
    by_cases here : a = call
    · rw [here, creates.phase] at own
      cases own
    · exact none a (by rw [made, if_neg here]; exact own)

theorem Stores.trials {call : Nat} {workspaceId : Uuid} (stores : Stores s t call workspaceId)
    (w : Uuid) : t.trials w = s.trials w + if w = workspaceId then 1 else 0 := by
  obtain ⟨g, grants, own⟩ := stores.grants
  rw [State.trials, grants, List.countP_append, List.countP_singleton, own, State.trials]
  simp only [decide_eq_true_eq]

theorem Stores.before {call : Nat} {workspaceId : Uuid} (stores : Stores s t call workspaceId)
    (inv : Inv s) : s.trials workspaceId = 0 := by
  obtain ⟨seats, here⟩ := stores.phase
  have granted := inv.granted call workspaceId (by rw [here]; rfl)
  rw [granted, here]
  rfl

theorem Stores.inv {call : Nat} {workspaceId : Uuid} (stores : Stores s t call workspaceId)
    (inv : Inv s) : Inv t := by
  obtain ⟨seats, here⟩ := stores.phase
  have creates (a : Nat) : (t.calls a).creates = (s.calls a).creates := by
    rw [stores.calls, Function.update_apply]
    split
    · rename_i same
      rw [same, here]
      rfl
    · rfl
  refine ⟨fun a b w first second => ?_, fun a w own => ?_, fun a w own => ?_, fun w none => ?_⟩
  · rw [creates] at first second
    exact inv.unique a b w first second
  · rw [creates] at own
    rw [stores.workspaces]
    exact inv.listed a w own
  · rw [creates] at own
    rw [stores.trials, stores.calls, Function.update_apply]
    by_cases same : a = call
    · rw [if_pos same]
      rw [same, here] at own
      cases own
      rw [if_pos rfl, stores.before inv]
      rfl
    · have other : w ≠ workspaceId := by
        rintro rfl
        exact same (inv.unique a call w own (by rw [here]; rfl))
      rw [if_neg same, if_neg other]
      exact inv.granted a w own
  · have other : w ≠ workspaceId := by
      rintro rfl
      exact none call (by rw [creates, here]; rfl)
    rw [stores.trials, if_neg other]
    exact inv.ungranted w fun a => creates a ▸ none a

theorem unfound (inv : Inv s) {call : Nat} {workspaceId : Uuid}
    (here : s.calls call = .checking workspaceId) : s.trials workspaceId = 0 := by
  rw [inv.granted call workspaceId (by rw [here]; rfl), here]
  rfl

theorem inv_step {a : Action} (inv : Inv s) (done : Step s a t) : Inv t := by
  rcases step_cases done with ⟨_, _, moves, _⟩ | ⟨_, ⟨_, _, creates⟩ | ⟨_, _, stores⟩ |
    ⟨_, _, here, some⟩⟩
  · exact moves.inv inv
  · exact creates.inv inv
  · exact stores.inv inv
  · exact absurd (unfound inv here) some

/-- A call that goes on keeps the law where it did not end, or ended after the creator. -/
theorem onceCompleted_moves {call : Nat} {phase : Phase} (moves : Moves s t call phase)
    (once : OnceCompleted s) :
    OnceCompleted t ↔ ∀ w, phase.Completed w → s.trials w = 1 := by
  constructor
  · intro law w completed
    rw [← moves.trials]
    refine law call w ?_
    rwa [moves.calls, Function.update_self]
  · intro own other w completed
    rw [moves.trials]
    rw [moves.calls, Function.update_apply] at completed
    split at completed
    · exact own w completed
    · exact once other w completed

theorem onceCompleted_iff {a : Action} (inv : Inv s) (once : OnceCompleted s) (done : Step s a t) :
    OnceCompleted t ↔ CreatorFirst s a := by
  rcases step_cases done with ⟨call, phase, moves, ⟨first, unfinished⟩ |
      ⟨input, existing, rfl, here, rfl⟩⟩ |
    ⟨first, ⟨call, workspaceId, creates⟩ | ⟨call, workspaceId, stores⟩ | ⟨_, _, here, some⟩⟩
  · rw [onceCompleted_moves moves once]
    exact iff_of_true (fun w completed => absurd completed (unfinished w)) first
  · rw [onceCompleted_moves moves once]
    constructor
    · intro one _ input' existing' here'
      cases here.symm.trans here'
      exact (trials_eq_one_iff inv _).mp (one _ (.inl rfl))
    · rintro first w (ended | ended)
      · cases ended
        exact (trials_eq_one_iff inv _).mpr (first rfl input existing here)
      · cases ended
  · refine iff_of_true (fun other w completed => ?_) first
    rw [creates.calls, Function.update_apply] at completed
    rw [State.trials, creates.ledger]
    split at completed
    · rcases completed with ended | ended <;> cases ended
    · exact once other w completed
  · refine iff_of_true (fun other w completed => ?_) first
    rw [stores.calls, Function.update_apply] at completed
    rw [stores.trials]
    split at completed
    · rcases completed with ended | ended
      · cases ended
      · cases ended
        rw [stores.before inv, if_pos rfl]
    · have one := once other w completed
      have before := stores.before inv
      have apart : w ≠ workspaceId := by
        rintro rfl
        omega
      rw [one, if_neg apart]
  · exact absurd (unfound inv here) some

end

theorem inv_start : Inv start where
  unique _ _ _ absent := by cases absent
  listed _ _ absent := by cases absent
  granted _ _ absent := by cases absent
  ungranted _ _ := rfl

/-- No team gets the trial twice; each completed install leaves it granted exactly when no call that
found the workspace ends before its creator has stored the grant. -/
theorem trial_granted_iff {steps : List (Transition State Action)} {s : State}
    (run : Run Step start steps s) : (∀ x ∈ steps, AtMostOne x.post) ∧
      ((∀ x ∈ steps, OnceCompleted x.post) ↔ ∀ x ∈ steps, CreatorFirst x.pre x.label) := by
  constructor
  · have all := (run.invariant_of (I := Inv) (fun _ => True) inv_start
      (fun _ _ _ inv done _ => inv_step inv done) fun _ _ => trivial).2
    exact fun x hx => atMostOne_of_inv (all x hx)
  · refine run.states_iff (I := Inv) OnceCompleted CreatorFirst inv_start
      (fun _ _ _ inv done => inv_step inv done) ?_
      (fun _ _ _ inv once done => onceCompleted_iff inv once done)
    rintro call w (ended | ended) <;> cases ended

def acmeInstall : UpsertWorkspaceFromSlackInput := ⟨"Acme", "T1", some (some "xoxb-1")⟩

/-- A first install, its grant ending in the given way, and the install again. -/
def installTwice (completion : Completion) : List Action :=
  [.upsertFromSlack 0 acmeInstall, .find 0 true, .insert 0 .executed, .check 0 true,
    .count 0 (some 3), .grant 0 0 completion, .upsertFromSlack 1 acmeInstall, .find 1 true,
    .update 1 .executed]

/-- The grant of the first install fails, and the second one, without any failure, leaves the
workspace without a trial. -/
theorem retry_grants_nothing : ∃ steps s, Run Step start steps s ∧
    s.calls 1 = .updated 1 ∧ s.trials 1 = 0 ∧ ¬ ∀ x ∈ steps, OnceCompleted x.post := by
  have outcome : ((follow step start (installTwice .refused)).map fun r =>
      (decide (∃ x ∈ r.1, x.post.calls 1 = .updated 1 ∧ x.post.trials 1 = 0),
        decide (r.2.calls 1 = .updated 1), r.2.trials 1)) = some (true, true, 0) := by
    decide +kernel
  obtain ⟨r, done, checked⟩ := Option.map_eq_some_iff.mp outcome
  simp only [Prod.mk.injEq, decide_eq_true_eq] at checked
  obtain ⟨⟨x, hx, ended, none⟩, updated, trials⟩ := checked
  refine ⟨r.1, r.2, follow_run done, updated, trials, fun law => ?_⟩
  have one := law x hx 1 1 (.inl ended)
  omega

theorem second_install : ∃ steps s, Run Step start steps s ∧ s.trials 1 = 1 ∧
    (∀ x ∈ steps, AtMostOne x.post) ∧
      ((∀ x ∈ steps, OnceCompleted x.post) ↔ ∀ x ∈ steps, CreatorFirst x.pre x.label) := by
  have outcome : ((follow step start (installTwice .executed)).map fun r => r.2.trials 1) =
      some 1 := by decide +kernel
  obtain ⟨r, done, trials⟩ := Option.map_eq_some_iff.mp outcome
  exact ⟨r.1, r.2, follow_run done, trials, trial_granted_iff (follow_run done)⟩

end Gomer.Trial
