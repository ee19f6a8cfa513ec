import Mathlib.Logic.Function.Basic
import Gomer.Lib.Trace
import Gomer.Users.Members

/-! The admins of one workspace: `setActive` and `updateRole` by its admins, sign-ins, and the
provisioning of members who send a message, in any interleaving. The check for other admins is a
count, and the save comes later. -/
namespace Gomer.Administration

open Trace Users

/-- A call; `signsIn` is a sign-in through Slack, other calls of `upsertFromSlack` give a role. -/
inductive Phase where
  | waiting
  | counting (entity : User) (refusal : HttpException)
  | saving (entity : User) (signsIn : Bool)
  | upserting (identity : SlackIdentity) (role : Option UserRole)
  | electing (identity : SlackIdentity) (role : Option UserRole)
  | inserting (identity : SlackIdentity) (role : UserRole) (signsIn : Bool)
  | failed (error : HttpException)
  | finished

/-- `founder` is the row with which the first sign-in has been completed. -/
structure State where
  users : List User
  phase : Nat → Phase
  founder : Option User

/-- A workspace that no one has signed in to yet. -/
def start (users : List User) : State := ⟨users, fun _ => .waiting, none⟩

inductive Act where
  | setActive (call : Nat) (callerUserId targetUserId : UuidText) (isActive : Bool)
  | updateRole (call : Nat) (callerUserId targetUserId : UuidText) (role : UserRole)
  | count (call : Nat)
  | save (call : Nat)
  | signIn (call : Nat) (slackUserId : String) (email : Option String)
  /-- A message of someone without a row provisions one. -/
  | message (call : Nat) (slackUserId : String) (email : Option String)
  | lookup (call : Nat)
  | elect (call : Nat)
  | insert (call : Nat) (id : UuidText)
  deriving DecidableEq

def State.at (s : State) (call : Nat) (phase : Phase) : State :=
  { s with phase := Function.update s.phase call phase }

def Phase.next : Next → Phase
  | .done _ => .finished
  | .failed error => .failed error
  | .count entity refusal => .counting entity refusal
  | .save entity => .saving entity false

variable (workspaceId : String)

/-- The caller is an active admin when the call begins. -/
def State.administers (s : State) (callerUserId : UuidText) : Bool :=
  s.users.any fun user => user.id == callerUserId && isAdmin workspaceId user

/-- The first sign-in to be completed makes its person the founder. -/
def State.signedIn (s : State) (user : User) (signsIn : Bool) : State :=
  { s with founder := if signsIn then some (s.founder.getD user) else s.founder }

def step (s : State) : Act → Option State
  | .setActive call callerUserId targetUserId isActive =>
    match s.phase call with
    | .waiting =>
      if s.administers workspaceId callerUserId then
        some (s.at call (.next (setActive callerUserId targetUserId isActive
          (Users.findMember s.users workspaceId targetUserId))))
      else none
    | _ => none
  | .updateRole call callerUserId targetUserId role =>
    match s.phase call with
    | .waiting =>
      if s.administers workspaceId callerUserId then
        some (s.at call (.next (updateRole targetUserId role
          (Users.findMember s.users workspaceId targetUserId))))
      else none
    | _ => none
  | .count call =>
    match s.phase call with
    | .counting entity refusal =>
      some (s.at call (if otherAdmins s.users workspaceId entity.id = 0 then .failed refusal
        else .saving entity false))
    | _ => none
  | .save call =>
    match s.phase call with
    | .saving entity signsIn =>
      some ({ s.at call .finished with users := saveUser s.users entity }.signedIn entity signsIn)
    | _ => none
  | .signIn call slackUserId email =>
    match s.phase call with
    | .waiting => some (s.at call (.upserting ⟨workspaceId, slackUserId, email⟩ none))
    | _ => none
  | .message call slackUserId email =>
    match s.phase call, findBySlackIdentity s.users workspaceId slackUserId with
    | .waiting, none =>
      some (s.at call (.upserting ⟨workspaceId, slackUserId, email⟩ (some .member)))
    | .waiting, some _ => some (s.at call .finished)
    | _, _ => none
  | .lookup call =>
    match s.phase call with
    | .upserting identity role =>
      match findBySlackIdentity s.users identity.workspaceId identity.slackUserId with
      | some existing => some (s.at call (.saving (reactivate existing identity) role.isNone))
      | none => some (s.at call (.electing identity role))
    | _ => none
  | .elect call =>
    match s.phase call with
    | .electing identity role =>
      let isFirstUser := countByWorkspace s.users identity.workspaceId == 0
      some (s.at call (.inserting identity (newRole role isFirstUser) role.isNone))
    | _ => none
  | .insert call id =>
    match s.phase call with
    | .inserting identity role signsIn =>
      let user := newUser identity role id
      match insertUser s.users user with
      | none => some (s.at call (.failed .internalServerError))
      | some users => some ({ s.at call .finished with users := users }.signedIn user signsIn)
    | _ => none

abbrev Step (s : State) (a : Act) (t : State) : Prop := step workspaceId s a = some t

/-! The law, and the condition on a step -/

/-- The person of the first sign-in has become an active admin, and there is one ever after. -/
def Governed (s : State) : Prop :=
  ∀ founder, s.founder = some founder → isAdmin workspaceId founder = true ∧
    HasAdmin workspaceId s.users

/-- The first sign-in makes an admin, and every later save is of an active admin or leaves one. -/
def Leaves (s : State) : Act → Prop
  | .save call => ∀ entity signsIn, s.phase call = .saving entity signsIn →
      (s.founder = none → signsIn = true → isAdmin workspaceId entity = true) ∧
        (s.founder ≠ none → isAdmin workspaceId entity = true ∨
          otherAdmins s.users workspaceId entity.id ≠ 0)
  | .insert call id => ∀ identity role signsIn, s.phase call = .inserting identity role signsIn →
      insertUser s.users (newUser identity role id) ≠ none → s.founder = none → signsIn = true →
        isAdmin workspaceId (newUser identity role id) = true
  | _ => True

section
variable {workspaceId} {s t : State} {call : Nat}

theorem signedIn_governed {user : User} {signsIn : Bool} :
    Governed workspaceId (s.signedIn user signsIn) ↔
      (s.founder = none → signsIn = true →
        isAdmin workspaceId user = true ∧ HasAdmin workspaceId s.users) ∧
        (s.founder ≠ none → Governed workspaceId s) := by
  cases known : s.founder with
  | none =>
    cases signsIn <;> simp [Governed, State.signedIn, known]
  | some founder =>
    cases signsIn <;> simp [Governed, State.signedIn, known]

/-- A save leaves an admin exactly when it is of one, or its check for others would pass now. -/
theorem save_governed_iff (governed : Governed workspaceId s) {entity : User} {signsIn : Bool} :
    Governed workspaceId
        ({ s.at call .finished with users := saveUser s.users entity }.signedIn entity signsIn) ↔
      (s.founder = none → signsIn = true → isAdmin workspaceId entity = true) ∧
        (s.founder ≠ none → isAdmin workspaceId entity = true ∨
          otherAdmins s.users workspaceId entity.id ≠ 0) := by
  rw [signedIn_governed, otherAdmins_ne_zero, ← hasAdmin_saveUser]
  refine and_congr (forall₂_congr fun _ _ => ?_) (forall_congr' fun founded => ?_)
  · exact and_iff_left_of_imp fun admin => hasAdmin_saveUser.mpr (.inl admin)
  · obtain ⟨founder, known⟩ := Option.ne_none_iff_exists'.mp founded
    constructor
    · intro after
      exact (after founder known).2
    · intro admin other same
      exact ⟨(governed other same).1, admin⟩

theorem insert_governed_iff (governed : Governed workspaceId s) {user : User} {users : List User}
    {signsIn : Bool} (stored : insertUser s.users user = some users) :
    Governed workspaceId ({ s.at call .finished with users := users }.signedIn user signsIn) ↔
      (s.founder = none → signsIn = true → isAdmin workspaceId user = true) := by
  obtain ⟨rfl, _⟩ := insertUser_some stored
  rw [signedIn_governed]
  constructor
  · exact fun after first signsIn => (after.1 first signsIn).1
  · refine fun admin => ⟨fun first signsIn => ⟨admin first signsIn, user, ?_, admin first signsIn⟩, ?_⟩
    · exact List.mem_append_right _ List.mem_cons_self
    · intro _ founder same
      obtain ⟨became, other, known, holds⟩ := governed founder same
      exact ⟨became, other, List.mem_append_left _ known, holds⟩

theorem step_governed_iff {a : Act} (governed : Governed workspaceId s)
    (taken : Step workspaceId s a t) : Governed workspaceId t ↔ Leaves workspaceId s a := by
  cases a with
  | save call =>
    simp only [Step, step] at taken
    split at taken
    · rename_i entity signsIn stands
      cases taken
      rw [save_governed_iff governed]
      constructor
      · intro leaves entity' signsIn' same
        cases stands.symm.trans same
        exact leaves
      · exact fun leaves => leaves entity signsIn stands
    · cases taken
  | insert call id =>
    simp only [Step, step] at taken
    split at taken
    · rename_i identity role signsIn stands
      split at taken
      · rename_i refused
        cases taken
        refine iff_of_true governed fun identity' role' signsIn' same stored => ?_
        cases stands.symm.trans same
        exact absurd refused stored
      · rename_i users stored
        cases taken
        rw [insert_governed_iff governed stored]
        constructor
        · intro admin identity' role' signsIn' same _
          cases stands.symm.trans same
          exact admin
        · intro leaves
          exact leaves identity role signsIn stands (by rw [stored]; exact Option.some_ne_none users)
    · cases taken
  | setActive call callerUserId targetUserId isActive =>
    simp only [Step, step] at taken
    split at taken
    · split at taken <;> cases taken
      exact iff_of_true governed trivial
    · cases taken
  | updateRole call callerUserId targetUserId role =>
    simp only [Step, step] at taken
    split at taken
    · split at taken <;> cases taken
      exact iff_of_true governed trivial
    · cases taken
  | lookup call =>
    simp only [Step, step] at taken
    split at taken
    · split at taken <;> cases taken <;> exact iff_of_true governed trivial
    · cases taken
  | message call slackUserId email =>
    simp only [Step, step] at taken
    split at taken <;> cases taken <;> exact iff_of_true governed trivial
  | _ =>
    simp only [Step, step] at taken
    split at taken <;> cases taken
    exact iff_of_true governed trivial

/-- A save that follows its count at once meets the condition. -/
theorem counted_leaves {entity : User} {refusal : HttpException}
    (stands : s.phase call = .counting entity refusal) (founded : s.founder ≠ none)
    (taken : Step workspaceId s (.count call) t) : Leaves workspaceId t (.save call) := by
  simp only [Step, step, stands] at taken
  cases taken
  have moved : (s.at call (if otherAdmins s.users workspaceId entity.id = 0 then .failed refusal
      else .saving entity false)).phase call =
        if otherAdmins s.users workspaceId entity.id = 0 then .failed refusal
        else .saving entity false := Function.update_self call _ s.phase
  intro entity' signsIn same
  rw [moved] at same
  split at same
  · cases same
  · rename_i others
    cases same
    exact ⟨fun unfounded => absurd unfounded founded, fun _ => .inr others⟩

end

/-- From the first sign-in on the workspace has an active admin exactly when that sign-in makes one
and each save of someone who is none would pass the check for others at that moment. -/
theorem admin_remains_iff (workspaceId : String) (users : List User)
    {steps : List (Transition State Act)} {s : State}
    (run : Run (Step workspaceId) (start users) steps s) :
    (∀ x ∈ steps, Governed workspaceId x.post) ↔ ∀ x ∈ steps, Leaves workspaceId x.pre x.label :=
  run.states_iff (I := fun _ => True) (Governed workspaceId) (Leaves workspaceId) trivial
    (fun _ _ _ _ _ => trivial) (fun _ none => by cases none)
    fun _ _ _ _ governed taken => step_governed_iff governed taken

/-! Two people of one workspace -/

def adaId : UuidText := ⟨"6d3e51b8-07a2-4f9d-9c45-e1b2f8a07c61", by decide⟩
def benId : UuidText := ⟨"b2d7e6c1-1c1e-4b55-8f43-91a6a0c7de04", by decide⟩

/-- Ada signs in and is the first, Ben signs in after her, and she makes him an admin. -/
def twoAdmins : List Act :=
  [.signIn 0 "U1" none, .lookup 0, .elect 0, .insert 0 adaId, .signIn 1 "U2" none, .lookup 1,
    .elect 1, .insert 1 benId, .updateRole 2 adaId benId .admin, .save 2]

/-- Each demotes the other, and both counts come before both saves; and the first sign-in counts a
member who has sent a message a moment before. -/
theorem admins_lost :
    (∃ steps s, Run (Step "w1") (start []) steps s ∧ s.founder ≠ none ∧
      s.users.map (·.role) = [.member, .member] ∧ ¬ Governed "w1" s) ∧
    ∃ steps s, Run (Step "w1") (start []) steps s ∧
      s.founder.map (·.role) = some .member ∧ ¬ Governed "w1" s := by
  constructor
  · let acts : List Act := twoAdmins ++ [.updateRole 3 adaId benId .member,
      .updateRole 4 benId adaId .member, .count 3, .count 4, .save 3, .save 4]
    have run := @follow_run _ _ (step "w1") (start []) _ acts _ rfl
    refine ⟨_, _, run, Option.some_ne_none _, rfl, fun governed => ?_⟩
    obtain ⟨_, user, known, admin⟩ := governed _ rfl
    revert user
    decide
  · let acts : List Act := [.signIn 0 "U1" none, .message 1 "U2" none, .lookup 1, .elect 1,
      .insert 1 benId, .lookup 0, .elect 0, .insert 0 adaId]
    have run := @follow_run _ _ (step "w1") (start []) _ acts _ rfl
    refine ⟨_, _, run, rfl, fun governed => ?_⟩
    cases (governed _ rfl).1

/-- The promotion leaves two. -/
theorem admins_remain : ∃ steps s, Run (Step "w1") (start []) steps s ∧
    s.users.map (·.role) = [.admin, .admin] ∧ ∀ x ∈ steps, Governed "w1" x.post := by
  have run := @follow_run _ _ (step "w1") (start []) _ twoAdmins _ rfl
  refine ⟨_, _, run, rfl, (admin_remains_iff "w1" [] run).mpr fun x taken => ?_⟩
  simp only [List.mem_cons, List.not_mem_nil, or_false] at taken
  rcases taken with rfl | rfl | rfl | rfl | rfl | rfl | rfl | rfl | rfl | rfl
  · trivial
  · trivial
  · trivial
  · intro identity role signsIn stands _ _ _
    injection stands with who what _
    subst who what
    rfl
  · trivial
  · trivial
  · trivial
  · intro _ _ _ _ _ first
    cases first
  · trivial
  · intro entity signsIn stands
    injection stands with who _
    subst who
    exact ⟨fun first => (by cases first), fun _ => .inl rfl⟩

end Gomer.Administration
