import Gomer.Auth.Tokens
import Gomer.Lib.Http
import Gomer.Lib.Json
import Gomer.Lib.Record
import Gomer.Lib.Relational
import Gomer.Lib.Serial

/-! `InvitesService.invite`: addresses resolved to people of the Slack team, one after another, with
what is known of the members carried along. -/
namespace Gomer.Invites

open HttpException Relational

/-- The columns of `users` that an invite reads or writes. A date is its time in ms. -/
structure Member where
  id : UuidText
  workspaceId : String
  slackUserId : String
  name : String
  email : Option String
  avatarUrl : Option String
  role : UserRole
  isActive : Bool
  invitedAt : Option Int
  lastActiveAt : Option Int
  deriving DecidableEq

def Member.identity (member : Member) : String × String := (member.workspaceId, member.slackUserId)

/-- The rows of `users`, the oldest first, under `UQ_users_workspace_slack_user`. -/
structure MemberTable where
  rows : List Member
  slackKey : (rows.map (·.identity)).Nodup

def MemberTable.find (users : MemberTable) (workspaceId slackUserId : String) : Option Member :=
  users.rows.find? fun row => decide (row.identity = (workspaceId, slackUserId))

/-- Added by an admin and not yet seen in Slack or the dashboard. -/
def isPendingInvite (user : Member) : Bool :=
  user.isActive && user.invitedAt.isSome && user.lastActiveAt.isNone

def onTeam (user : Member) : Bool := user.isActive && !isPendingInvite user

/-- Lower-cased, trimmed and without repetitions. The set `seen` holds what `out` does. -/
def normalizeEmails (toLowerCase : String → String) (emails : List String) : List String :=
  emails.foldl (fun out raw =>
    let email := toLowerCase (String.ofList (JsNumber.trim raw.toList))
    if email = "" ∨ email ∈ out then out else out ++ [email]) []

/-! What Slack knows of an address -/

structure SlackPerson where
  id : String
  name : String
  email : Option String
  avatarUrl : Option String
  deleted : Bool
  isBot : Bool

inductive SlackEmailLookup where
  | error
  | notFound
  | found (person : SlackPerson)

/-- How the requests for one address end, and when; `id` is that of a new row. -/
structure Happening where
  lookup : SlackEmailLookup
  save : Completion
  failure : String
  id : UuidText
  now : Int
  delivered : Option String

/-! `UsersService.provisionInvited` -/

def reinvited (existing : Member) (person : SlackPerson) (now : Int) : Member :=
  { existing with
    name := if person.name = "" then existing.name else person.name
    email := person.email.or existing.email
    avatarUrl := person.avatarUrl.or existing.avatarUrl
    isActive := true
    invitedAt := some now }

def newMember (workspaceId : String) (person : SlackPerson) (id : UuidText) (now : Int) : Member :=
  ⟨id, workspaceId, person.id, person.name, person.email, person.avatarUrl, .member, true, some now,
    none⟩

/-- `save`: over the row with this identity, or a new row. -/
def MemberTable.save (users : MemberTable) (member : Member) : MemberTable where
  rows :=
    if member.identity ∈ users.rows.map (·.identity) then
      users.rows.map fun row => if row.identity = member.identity then member else row
    else users.rows ++ [member]
  slackKey := by
    split
    · rw [map_fixed]
      · exact users.slackKey
      · intro row
        split
        · rename_i same
          exact same.symm
        · rfl
    · rename_i fresh
      rw [List.map_append]
      exact List.nodup_append_comm.mp (List.nodup_cons.mpr ⟨fresh, users.slackKey⟩)

/-- The row to save for a person: the one found by Slack identity, or a new one. -/
def provisioned (users : MemberTable) (workspaceId : String) (person : SlackPerson)
    (happening : Happening) : Member :=
  match users.find workspaceId person.id with
  | some existing => reinvited existing person happening.now
  | none => newMember workspaceId person happening.id happening.now

def provisionInvited (users : MemberTable) (workspaceId : String) (person : SlackPerson)
    (happening : Happening) : MemberTable × Except String Member :=
  let member := provisioned users workspaceId person happening
  match happening.save with
  | .executed => (users.save member, .ok member)
  | .refused => (users, .error happening.failure)
  | .unanswered => (users.save member, .error happening.failure)

/-! `InvitesService` -/

inductive InviteStatus where
  | invited
  | already_member
  | not_in_slack
  | failed
  deriving DecidableEq

structure InviteResult where
  email : String
  status : InviteStatus
  name : Option String
  notified : Bool
  message : String
  deriving DecidableEq

inductive Event where
  | provisions (slackUserId : String)
  | delivers (slackUserId text : String)
  deriving DecidableEq

def Event.person : Event → String
  | .provisions slackUserId => slackUserId
  | .delivers slackUserId _ => slackUserId

structure InviteBatch where
  workspaceId : String
  dashboardUrl : String
  message : String

/-- The maps of the batch, with the table and the requests that it has sent. -/
structure State where
  users : MemberTable
  byEmail : AList fun _ : String => Member
  bySlackId : AList fun _ : String => Member
  sent : List Event

def alreadyMember (email name : String) : InviteResult :=
  ⟨email, .already_member, some name, false, name ++ " is already on the team."⟩

def invitedMessage (batch : InviteBatch) (name : String) (notified reminder : Bool) : String :=
  if notified = false then
    "Added " ++ name ++ ", but the Slack DM could not be sent. They can sign in at " ++
      batch.dashboardUrl ++ "."
  else if reminder then "Sent " ++ name ++ " another Slack reminder."
  else "Added " ++ name ++ " and sent them a Slack DM."

def notInSlack (email : String) (name : Option String) (message : String) : InviteResult :=
  ⟨email, .not_in_slack, name, false, message⟩

def inviteOne (batch : InviteBatch) (happens : String → Happening) (s : State) (email : String) :
    State × Except String InviteResult :=
  match (s.byEmail.lookup email).filter onTeam with
  | some known => (s, .ok (alreadyMember email known.name))
  | none =>
    match (happens email).lookup with
    | .error =>
      (s, .ok ⟨email, .failed, none, false, "Slack didn't answer. Try again in a minute."⟩)
    | .notFound =>
      (s, .ok (notInSlack email none
        "Not in your Slack workspace yet. Add them to Slack first, then invite again."))
    | .found person =>
      if person.deleted then
        (s, .ok (notInSlack email person.name
          (person.name ++ "'s Slack account is deactivated.")))
      else if person.isBot then
        (s, .ok (notInSlack email person.name (person.name ++ " is a bot, not a person.")))
      else
        match (s.bySlackId.lookup person.id).filter onTeam with
        | some existing => (s, .ok (alreadyMember email existing.name))
        | none =>
          let reminder := (s.bySlackId.lookup person.id).any isPendingInvite
          match provisionInvited s.users batch.workspaceId person (happens email) with
          | (users, .error failure) =>
            ({ s with users, sent := s.sent ++ [.provisions person.id] }, .error failure)
          | (users, .ok member) =>
            let notified := (happens email).delivered.isSome
            ({ users
               byEmail := s.byEmail.insert email member
               bySlackId := s.bySlackId.insert member.slackUserId member
               sent := s.sent ++ [.provisions person.id, .delivers person.id batch.message] },
              .ok ⟨email, .invited, some member.name, notified,
                invitedMessage batch member.name notified reminder⟩)

/-- The maps that a batch begins with. -/
def opening (toLowerCase : String → String) (users : MemberTable) (workspaceId : String) : State :=
  let members := users.rows.filter fun row => row.workspaceId == workspaceId
  { users
    byEmail := Record.collect (fun row => toLowerCase (row.email.getD "")) id
      (members.filter fun row => (nonEmpty row.email).isSome)
    bySlackId := Record.collect (·.slackUserId) id members
    sent := [] }

structure InviteWorkspace where
  name : String
  slackBotToken : Option String

inductive InviteError where
  | http (exception : HttpException)
  | thrown (message : String)

def dashboardUrl (frontendUrl : String) : String :=
  String.ofList (frontendUrl.toList.reverse.dropWhile (· == '/')).reverse ++ "/sign-in"

def buildInviteMessage (inviterName workspaceName dashboardUrl : String) : String :=
  let trimmed := String.ofList (JsNumber.trim inviterName.toList)
  let inviter := if trimmed = "" then "A teammate" else trimmed
  "\n".intercalate
    ["Hi :wave: *" ++ inviter ++ "* added you to *" ++ workspaceName ++
        "* on Gaspo, your team's AI coworker.",
      "",
      ":speech_balloon: *DM me here* — just message me like a coworker. Research, analysis, reports, automation — anything.",
      ":bar_chart: *Open the dashboard* at <" ++ dashboardUrl ++
        "> — sign in with Slack to see usage, connected tools and your team.",
      "",
      "Try one now — just reply here:",
      "• _Summarize the last week of activity in one of our channels_"]

def invite (toLowerCase : String → String) (frontendUrl : String)
    (workspaces : String → Option InviteWorkspace) (happens : String → Happening)
    (users : MemberTable) (workspaceId : String) (inviterUserId : UuidText) (emails : List String) :
    (MemberTable × List Event) × Except InviteError (List InviteResult) :=
  match workspaces workspaceId with
  | none =>
    ((users, []), .error (.http (notFound ("Workspace " ++ workspaceId ++ " not found"))))
  | some workspace =>
    match nonEmpty workspace.slackBotToken with
    | none =>
      ((users, []), .error (.http (badRequest
        "Gaspo is not installed in your Slack workspace. Reinstall it from the sign-in page, then invite again.")))
    | some _ =>
      match users.rows.find? fun row => row.id == inviterUserId with
      | none =>
        ((users, []), .error (.http (notFound ("User " ++ inviterUserId.text ++ " not found"))))
      | some inviter =>
        let url := dashboardUrl frontendUrl
        let batch := ⟨workspaceId, url, buildInviteMessage inviter.name workspace.name url⟩
        let done := Serial.run (inviteOne batch happens) (opening toLowerCase users workspaceId)
          (normalizeEmails toLowerCase emails)
        ((done.1.users, done.1.sent), done.2.mapError .thrown)

end Gomer.Invites
