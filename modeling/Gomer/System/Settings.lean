import Gomer.Database.Entities
import Gomer.Lib.Json
import Gomer.Lib.Supplied

/-! The row of one workspace under `WorkspacesService`: the settings that admins save section by
section, and the columns that a Slack install refreshes. Either call saves the entity it has loaded. -/
namespace Gomer.WorkspacesService

open Orm Trace

/-- The columns that a call reads or sets. -/
inductive WorkspaceColumn where
  | id
  | name
  | slackTeamId
  | slackBotToken
  | workspaceInstructions
  | defaultModel
  | personalityTone
  deriving DecidableEq, Repr

def WorkspaceColumn.Value : WorkspaceColumn → Type
  | .id => Uuid
  | .name | .slackTeamId => String
  | .slackBotToken | .workspaceInstructions | .defaultModel | .personalityTone => Option String

instance : (k : WorkspaceColumn) → DecidableEq k.Value
  | .id => inferInstanceAs (DecidableEq Uuid)
  | .name | .slackTeamId => inferInstanceAs (DecidableEq String)
  | .slackBotToken | .workspaceInstructions | .defaultModel | .personalityTone =>
    inferInstanceAs (DecidableEq (Option String))

abbrev Workspace := Entity WorkspaceColumn.Value

/-- A field that is left out stays as it is; `some none` is `null`. -/
structure UpdateWorkspaceSettingsInput where
  defaultModel : Option (Option String) := none
  personalityTone : Option (Option String) := none
  workspaceInstructions : Option (Option String) := none

structure UpsertWorkspaceFromSlackInput where
  slackTeamId : String
  name : String
  slackBotToken : Option (Option String) := none

/-- `value?.trim() || null` -/
def trimmed (value : Option String) : Option String :=
  nonEmpty (value.map fun text => String.ofList (JsNumber.trim text.toList))

def settingsChange (input : UpdateWorkspaceSettingsInput) : Change WorkspaceColumn.Value
  | .defaultModel => input.defaultModel
  | .personalityTone => input.personalityTone
  | .workspaceInstructions => input.workspaceInstructions.map trimmed
  | _ => none

def slackChange (input : UpsertWorkspaceFromSlackInput) : Change WorkspaceColumn.Value
  | .name => some input.name
  | .slackBotToken => input.slackBotToken
  | _ => none

inductive Call where
  | updateSettings (id : Uuid) (input : UpdateWorkspaceSettingsInput)
  | upsertFromSlack (input : UpsertWorkspaceFromSlackInput)

/-- A call for another workspace does not find this row; for another team it makes a row of its own. -/
def Call.operation : Call → Operation WorkspaceColumn.Value
  | .updateSettings id input =>
    { kind := .edit
      starts := fun workspace => workspace .id == id
      change := fun _ => some (settingsChange input) }
  | .upsertFromSlack input =>
    { kind := .edit
      starts := fun workspace => workspace .slackTeamId == input.slackTeamId
      change := fun _ => some (slackChange input) }

theorem operation_stays (call : Call) : call.operation.kind ≠ .removal := by
  cases call <;> exact Kind.noConfusion

/-- Every column has what the last completed call that supplied it has supplied, exactly as long as
the columns that a save sends unasked, or has found with their new values, have not been changed. -/
theorem settings_settled_iff (calls : Nat → Call) (workspace : Workspace)
    {steps : List (Transition (Annotated WorkspaceColumn.Value) Act)}
    {s : Annotated WorkspaceColumn.Value}
    (run : Run (Supplies fun i => (calls i).operation) (Annotated.start workspace) steps s) :
    (∀ x ∈ steps, Settled x.post) ↔ ∀ x ∈ steps, Current x.pre x.label :=
  run_settled_iff (fun i => operation_stays (calls i)) run

def acme : Workspace
  | .id => (1 : Nat)
  | .name => "Acme"
  | .slackTeamId => "T1"
  | .slackBotToken => some "xoxb-1"
  | .workspaceInstructions => none
  | .defaultModel => some "gpt-5"
  | .personalityTone => some "friendly"

/-- Two sections of the settings page. -/
def sections : Nat → Call
  | 0 => .updateSettings 1 { defaultModel := some (some "claude-opus") }
  | _ => .updateSettings 1 { personalityTone := some (some "direct") }

def defaultModel (workspace : Workspace) : Option String := workspace .defaultModel

/-- The second save brings the old model back. -/
theorem section_wiped : ∃ steps s,
    Run (Supplies fun i => (sections i).operation) (Annotated.start acme) steps s ∧ Finished s.db ∧
      defaultModel s.supplied = some "claude-opus" ∧
      s.db.row.map defaultModel = some (some "gpt-5") ∧ ¬Settled s := by
  let acts : List Act := [.load 0, .load 1, .reread 0, .write 0, .reread 1, .write 1]
  have run := @follow_run _ _ (Annotated.next fun i => (sections i).operation) (Annotated.start acme) _
    acts _ rfl
  refine ⟨_, _, run, finished_of_two rfl rfl fun _ => rfl, rfl, rfl, fun settled => ?_⟩
  have same : some (some "gpt-5") = some (some "claude-opus") :=
    congrArg (fun row => Option.map defaultModel row) settled
  exact absurd same (by decide)

/-- An install after the first section has been saved. -/
def reinstall : Nat → Call
  | 0 => .updateSettings 1 { defaultModel := some (some "claude-opus") }
  | _ => .upsertFromSlack
    { slackTeamId := "T1", name := "Acme Inc.", slackBotToken := some (some "xoxb-2") }

theorem later_install_settles : ∃ steps s,
    Run (Supplies fun i => (reinstall i).operation) (Annotated.start acme) steps s ∧ Finished s.db ∧
      s.db.row.map defaultModel = some (some "claude-opus") ∧ ∀ x ∈ steps, Settled x.post := by
  let acts : List Act := [.load 0, .reread 0, .write 0, .load 1, .reread 1, .write 1]
  have run := @follow_run _ _ (Annotated.next fun i => (reinstall i).operation) (Annotated.start acme) _
    acts _ rfl
  refine ⟨_, _, run, finished_of_two rfl rfl fun _ => rfl, rfl,
    (settings_settled_iff reinstall acme run).mpr fun x taken => ?_⟩
  simp only [List.mem_cons, List.not_mem_nil, or_false] at taken
  rcases taken with rfl | rfl | rfl | rfl | rfl | rfl
  · trivial
  · trivial
  · intro entity change seen since row saving stored k
    cases saving
    cases stored
    exact columnCurrent_self _ _
  · trivial
  · trivial
  · intro entity change seen since row saving stored k
    cases saving
    cases stored
    exact columnCurrent_self _ _

end Gomer.WorkspacesService
