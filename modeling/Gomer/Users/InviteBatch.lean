import Gomer.Users.Invites
import Mathlib.Data.List.Induction

/-! Batches of invites: one result for each address, whatever happens to the others, and people who
are on the team are left alone. -/
namespace Gomer.Invites

open Relational

/-! The table -/

section
variable {users : MemberTable} {workspaceId : String} {person : SlackPerson} {happening : Happening}

theorem find_eq_some_iff {slackUserId : String} {row : Member} :
    users.find workspaceId slackUserId = some row ↔
      row ∈ users.rows ∧ row.identity = (workspaceId, slackUserId) := by
  have unique := find_unique_iff users.slackKey (k := (workspaceId, slackUserId)) (x := row)
  rw [← unique]
  rfl

theorem mem_save {member row : Member} : row ∈ (users.save member).rows ↔
    row = member ∨ row ∈ users.rows ∧ row.identity ≠ member.identity := by
  simp only [MemberTable.save]
  split
  · rename_i known
    simp only [List.mem_map]
    constructor
    · rintro ⟨old, listed, rfl⟩
      split
      · exact .inl rfl
      · rename_i other
        exact .inr ⟨listed, other⟩
    · rintro (rfl | ⟨listed, other⟩)
      · obtain ⟨old, listed, same⟩ := List.mem_map.mp known
        exact ⟨old, listed, if_pos same⟩
      · exact ⟨row, listed, if_neg other⟩
  · rename_i fresh
    rw [List.mem_append, List.mem_singleton]
    constructor
    · rintro (listed | rfl)
      · exact .inr ⟨listed, fun same => fresh (same ▸ List.mem_map_of_mem listed)⟩
      · exact .inl rfl
    · rintro (rfl | ⟨listed, _⟩)
      · exact .inr rfl
      · exact .inl listed

theorem find_save (member : Member) (slackUserId : String) :
    (users.save member).find workspaceId slackUserId =
      if member.identity = (workspaceId, slackUserId) then some member
      else users.find workspaceId slackUserId := by
  refine Option.ext fun row => ?_
  rw [find_eq_some_iff, mem_save]
  split
  · rename_i named
    constructor
    · rintro ⟨rfl | ⟨_, other⟩, same⟩
      · rfl
      · exact absurd (same.trans named.symm) other
    · rintro ⟨⟩
      exact ⟨.inl rfl, named⟩
  · rename_i named
    rw [find_eq_some_iff]
    constructor
    · rintro ⟨rfl | ⟨listed, _⟩, same⟩
      · exact absurd same named
      · exact ⟨listed, same⟩
    · rintro ⟨listed, same⟩
      exact ⟨.inr ⟨listed, fun own => named (own.symm.trans same)⟩, same⟩

theorem provisioned_identity :
    (provisioned users workspaceId person happening).identity = (workspaceId, person.id) := by
  unfold provisioned
  split
  · rename_i existing found
    exact (find_eq_some_iff.mp found).2
  · rfl

/-- The saved row is active and invited, and was seen when the row before it was. -/
theorem provisioned_row : (provisioned users workspaceId person happening).isActive = true ∧
    (provisioned users workspaceId person happening).invitedAt.isSome = true ∧
    (provisioned users workspaceId person happening).lastActiveAt =
      (users.find workspaceId person.id).bind (·.lastActiveAt) := by
  unfold provisioned
  split
  · rename_i existing found
    exact ⟨rfl, rfl, by rw [found]; rfl⟩
  · rename_i absent
    exact ⟨rfl, rfl, by rw [absent]; rfl⟩

end

/-! One address -/

section
variable {batch : InviteBatch} {happens : String → Happening} {s t : State} {email : String}

/-- The live person that Slack finds at the address. -/
def person? (happening : Happening) : Option SlackPerson :=
  match happening.lookup with
  | .found person => if person.deleted || person.isBot then none else some person
  | _ => none

/-- The person for whom the address comes to a save. -/
def admits (happens : String → Happening) (s : State) (email : String) : Option SlackPerson :=
  if (s.byEmail.lookup email).any onTeam then none
  else (person? (happens email)).filter fun person =>
    !(s.bySlackId.lookup person.id).any onTeam

/-- The state after a person's row was saved and the DM sent. -/
def State.admitted (s : State) (batch : InviteBatch) (email : String) (person : SlackPerson)
    (happening : Happening) : State :=
  let member := provisioned s.users batch.workspaceId person happening
  { users := s.users.save member
    byEmail := s.byEmail.insert email member
    bySlackId := s.bySlackId.insert member.slackUserId member
    sent := s.sent ++ [.provisions person.id, .delivers person.id batch.message] }

theorem filter_of_any {p : Member → Bool} {o : Option Member} (any : o.any p = true) :
    ∃ x, o.filter p = some x := by
  obtain ⟨x, rfl, holds⟩ := (Option.any_eq_true _ _).mp any
  exact ⟨x, by simp [Option.filter_some, holds]⟩

theorem filter_of_not_any {p : Member → Bool} {o : Option Member} (any : o.any p = false) :
    o.filter p = none := by
  cases o with
  | none => rfl
  | some x => simpa [Option.filter_some] using any

/-- An address that admits nobody has a result and changes nothing; one that admits somebody
comes to the save. -/
theorem inviteOne_cases (batch : InviteBatch) (happens : String → Happening) (s : State)
    (email : String) :
    (admits happens s email = none ∧ ∃ result, result.email = email ∧
      inviteOne batch happens s email = (s, .ok result)) ∨
    ∃ person, admits happens s email = some person ∧
      (((happens email).save = .executed ∧ ∃ result, result.email = email ∧
        inviteOne batch happens s email =
          (s.admitted batch email person (happens email), .ok result)) ∨
      ((happens email).save ≠ .executed ∧ ∃ users failure,
        (users = s.users ∨
          users = s.users.save (provisioned s.users batch.workspaceId person (happens email))) ∧
        inviteOne batch happens s email =
          ({ s with users, sent := s.sent ++ [.provisions person.id] }, .error failure))) := by
  unfold inviteOne admits
  by_cases known : (s.byEmail.lookup email).any onTeam = true
  · obtain ⟨member, found⟩ := filter_of_any known
    rw [found, if_pos known]
    exact .inl ⟨rfl, _, rfl, rfl⟩
  · rw [filter_of_not_any (Bool.not_eq_true _ ▸ known), if_neg known]
    unfold person?
    cases (happens email).lookup with
    | error => exact .inl ⟨rfl, _, rfl, rfl⟩
    | notFound => exact .inl ⟨rfl, _, rfl, rfl⟩
    | found person =>
      dsimp only
      by_cases deleted : person.deleted = true
      · simp only [deleted, Bool.true_or, if_true]
        exact .inl ⟨rfl, _, rfl, rfl⟩
      · by_cases isBot : person.isBot = true
        · simp only [deleted, isBot, Bool.or_true, if_true]
          exact .inl ⟨rfl, _, rfl, rfl⟩
        · simp only [deleted, isBot, Bool.or_self, Bool.false_eq_true, if_false]
          by_cases member : (s.bySlackId.lookup person.id).any onTeam = true
          · obtain ⟨existing, found⟩ := filter_of_any member
            simp only [found, Option.filter_some, member]
            exact .inl ⟨rfl, _, rfl, rfl⟩
          · simp only [filter_of_not_any (Bool.not_eq_true _ ▸ member), Option.filter_some, member]
            refine .inr ⟨person, rfl, ?_⟩
            unfold provisionInvited
            cases (happens email).save with
            | executed => exact .inl ⟨rfl, _, rfl, rfl⟩
            | refused => exact .inr ⟨nofun, _, _, .inl rfl, rfl⟩
            | unanswered => exact .inr ⟨nofun, _, _, .inr rfl, rfl⟩

end

/-! The batch: what has become of each person after the addresses so far -/

section
variable {toLowerCase : String → String} {users : MemberTable} {batch : InviteBatch}
  {happens : String → Happening} {before : List String} {s t : State} {email id : String}

theorem opening_agrees (toLowerCase : String → String) (users : MemberTable)
    (workspaceId id : String) :
    (opening toLowerCase users workspaceId).bySlackId.lookup id = users.find workspaceId id := by
  have listed : ∀ row ∈ users.rows.filter (fun row => row.workspaceId == workspaceId),
      row.slackUserId = id → users.find workspaceId id = some row := by
    intro row member named
    obtain ⟨known, own⟩ := List.mem_filter.mp member
    exact find_eq_some_iff.mpr ⟨known, Prod.ext (beq_iff_eq.mp own) named⟩
  have collected := fun v => Record.lookup_collect (·.slackUserId) (fun row : Member => row)
    (users.rows.filter fun row => row.workspaceId == workspaceId) id v
  cases found : users.find workspaceId id with
  | some row =>
    obtain ⟨known, named⟩ := find_eq_some_iff.mp found
    have member : row ∈ users.rows.filter (fun row => row.workspaceId == workspaceId) :=
      List.mem_filter.mpr ⟨known, beq_iff_eq.mpr (congrArg Prod.fst named)⟩
    have value := collected row fun other member named =>
      Option.some.inj ((listed other member named).symm.trans found)
    exact value.trans (if_pos (List.mem_map.mpr ⟨row, member, congrArg Prod.snd named⟩))
  | none =>
    have nobody : id ∉ (users.rows.filter fun row => row.workspaceId == workspaceId).map
        (·.slackUserId) := by
      intro member
      obtain ⟨row, member, named⟩ := List.mem_map.mp member
      exact absurd (found.symm.trans (listed row member named)) nofun
    cases value : (opening toLowerCase users workspaceId).bySlackId.lookup id with
    | none => rfl
    | some row =>
      have absent := collected row fun other member named =>
        absurd (List.mem_map.mpr ⟨other, member, named⟩) nobody
      exact value.symm.trans (absent.trans (if_neg nobody))

theorem admits_eq_some_iff {person : SlackPerson} : admits happens s email = some person ↔
    (s.byEmail.lookup email).any onTeam = false ∧ person? (happens email) = some person ∧
      (s.bySlackId.lookup person.id).any onTeam = false := by
  unfold admits
  split
  · rename_i known
    simp [known]
  · rename_i unknown
    rw [Option.filter_eq_some_iff]
    simp [unknown]

variable (toLowerCase users batch happens)

abbrev start : State := opening toLowerCase users batch.workspaceId

/-- The address, were it the first of the batch, would come to a save for this person. -/
def Eligible (email id : String) : Prop :=
  ∃ person, admits happens (start toLowerCase users batch) email = some person ∧ person.id = id

/-- The person has been seen by the time of the batch, also one who is not active any more. -/
def Seen (id : String) : Prop :=
  ((users.find batch.workspaceId id).bind (·.lastActiveAt)).isSome = true

structure Progress (before : List String) (s : State) : Prop where
  emails : ∀ email ∉ before,
    s.byEmail.lookup email = (start toLowerCase users batch).byEmail.lookup email
  agree : ∀ id, s.bySlackId.lookup id = s.users.find batch.workspaceId id
  touched : ∀ id, (∃ email ∈ before, Eligible toLowerCase users batch happens email id) →
    ∃ row, s.users.find batch.workspaceId id = some row ∧ row.isActive = true ∧
      row.invitedAt.isSome = true ∧
      row.lastActiveAt = (users.find batch.workspaceId id).bind (·.lastActiveAt)
  untouched : ∀ id, (¬ ∃ email ∈ before, Eligible toLowerCase users batch happens email id) →
    s.users.find batch.workspaceId id = users.find batch.workspaceId id

variable {toLowerCase users batch happens}

theorem Progress.initial :
    Progress toLowerCase users batch happens [] (start toLowerCase users batch) where
  emails _ _ := rfl
  agree := opening_agrees toLowerCase users batch.workspaceId
  touched := by simp
  untouched _ _ := rfl

/-- A person of the batch is on the team by now, if they were before or were switched on again. -/
theorem Progress.standing (progress : Progress toLowerCase users batch happens before s) (id : String) :
    (s.bySlackId.lookup id).any onTeam = true ↔
      (users.find batch.workspaceId id).any onTeam = true ∨ Seen users batch id ∧
        ∃ email ∈ before, Eligible toLowerCase users batch happens email id := by
  rw [progress.agree]
  by_cases earlier : ∃ email ∈ before, Eligible toLowerCase users batch happens email id
  · obtain ⟨row, found, active, invited, kept⟩ := progress.touched id earlier
    have off : (users.find batch.workspaceId id).any onTeam = false := by
      obtain ⟨email, _, person, admitted, rfl⟩ := earlier
      rw [← opening_agrees toLowerCase]
      exact (admits_eq_some_iff.mp admitted).2.2
    have seen : Seen users batch id ↔ row.lastActiveAt.isSome = true := by rw [Seen, kept]
    rw [found, off, seen]
    simp [earlier, onTeam, isPendingInvite, active, invited]
  · rw [progress.untouched id earlier]
    simp [earlier]

/-- Whom an address admits after others is whom it would admit first, unless an earlier address has
switched this person on again. -/
theorem Progress.admits_iff (progress : Progress toLowerCase users batch happens before s)
    (fresh : email ∉ before) {person : SlackPerson} : admits happens s email = some person ↔
      admits happens (start toLowerCase users batch) email = some person ∧
        ¬ (Seen users batch person.id ∧
          ∃ email ∈ before, Eligible toLowerCase users batch happens email person.id) := by
  have standing := progress.standing person.id
  rw [admits_eq_some_iff, admits_eq_some_iff, progress.emails email fresh, opening_agrees,
    ← Bool.not_eq_true (Option.any _ (s.bySlackId.lookup person.id)), standing]
  simp only [not_or, Bool.not_eq_true, and_assoc]

theorem eligible_snoc (before : List String) (email id : String) :
    (∃ e ∈ before ++ [email], Eligible toLowerCase users batch happens e id) ↔
      (∃ e ∈ before, Eligible toLowerCase users batch happens e id) ∨
        Eligible toLowerCase users batch happens email id := by
  simp [or_and_right, exists_or]

/-- Nobody is admitted: who would have been is on the team again since an earlier address. -/
theorem Progress.skip (progress : Progress toLowerCase users batch happens before s)
    (fresh : email ∉ before) (nobody : admits happens s email = none) :
    Progress toLowerCase users batch happens (before ++ [email]) s := by
  have again : ∀ id, Eligible toLowerCase users batch happens email id →
      ∃ e ∈ before, Eligible toLowerCase users batch happens e id := by
    rintro id ⟨person, first, rfl⟩
    by_contra alone
    have now := (progress.admits_iff fresh).mpr ⟨first, fun both => alone both.2⟩
    exact absurd (nobody.symm.trans now) nofun
  refine ⟨fun e absent => progress.emails e fun member => absent ?_, progress.agree, ?_, ?_⟩
  · exact List.mem_append_left _ member
  · intro id earlier
    exact progress.touched id (((eligible_snoc before email id).mp earlier).elim (fun e => e) (again id))
  · intro id never
    exact progress.untouched id fun earlier =>
      never ((eligible_snoc before email id).mpr (.inl earlier))

theorem Progress.save (progress : Progress toLowerCase users batch happens before s)
    (fresh : email ∉ before) {person : SlackPerson} (admitted : admits happens s email = some person) :
    Progress toLowerCase users batch happens (before ++ [email])
      (s.admitted batch email person (happens email)) := by
  have first := ((progress.admits_iff fresh).mp admitted).1
  have named := @provisioned_identity s.users batch.workspaceId person (happens email)
  have found := fun id => @find_save s.users batch.workspaceId
    (provisioned s.users batch.workspaceId person (happens email)) id
  have own : ∀ id, Eligible toLowerCase users batch happens email id ↔ id = person.id := by
    intro id
    constructor
    · rintro ⟨other, also, rfl⟩
      rw [Option.some.inj (also.symm.trans first)]
    · rintro rfl
      exact ⟨person, first, rfl⟩
  simp only [named, Prod.mk.injEq, true_and] at found
  have slackUserId := congrArg Prod.snd named
  simp only [Member.identity] at slackUserId
  refine ⟨fun e absent => ?_, fun id => ?_, fun id earlier => ?_, fun id never => ?_⟩
  · have other : e ≠ email := fun same => absent (by simp [same])
    have later : e ∉ before := fun member => absent (List.mem_append_left _ member)
    exact (AList.lookup_insert_ne other).trans (progress.emails e later)
  · by_cases same : id = person.id
    · subst same
      simp only [State.admitted, found, if_true, slackUserId, AList.lookup_insert]
    · simp only [State.admitted, found, if_neg (Ne.symm same), slackUserId,
        AList.lookup_insert_ne same]
      exact progress.agree id
  · by_cases same : id = person.id
    · subst same
      obtain ⟨active, invited, kept⟩ := @provisioned_row s.users batch.workspaceId person
        (happens email)
      refine ⟨_, by simp only [State.admitted, found, if_true], active, invited, kept.trans ?_⟩
      by_cases before : ∃ e ∈ before, Eligible toLowerCase users batch happens e person.id
      · obtain ⟨row, known, _, _, seen⟩ := progress.touched _ before
        rw [known]
        exact seen
      · rw [progress.untouched _ before]
    · have before := ((eligible_snoc before email id).mp earlier).resolve_right fun now =>
        same ((own id).mp now)
      simp only [State.admitted, found, if_neg (Ne.symm same)]
      exact progress.touched id before
  · have same : id ≠ person.id := fun same =>
      never ((eligible_snoc before email id).mpr (.inr ((own id).mpr same)))
    simp only [State.admitted, found, if_neg (Ne.symm same)]
    exact progress.untouched id fun earlier =>
      never ((eligible_snoc before email id).mpr (.inl earlier))

theorem Progress.next (progress : Progress toLowerCase users batch happens before s)
    (fresh : email ∉ before) {result : InviteResult}
    (fine : inviteOne batch happens s email = (t, .ok result)) :
    Progress toLowerCase users batch happens (before ++ [email]) t := by
  obtain ⟨nobody, _, _, kept⟩ | ⟨person, admitted, ⟨_, _, _, saved⟩ | ⟨_, _, _, _, failed⟩⟩ :=
    inviteOne_cases batch happens s email
  · cases kept.symm.trans fine
    exact progress.skip fresh nobody
  · cases saved.symm.trans fine
    exact progress.save fresh admitted
  · cases failed.symm.trans fine

theorem Progress.of_reaches {done : List String} (distinct : done.Nodup)
    (reached : Serial.Reaches (inviteOne batch happens) (start toLowerCase users batch) done s) :
    Progress toLowerCase users batch happens done s := by
  rw [← List.nil_append done]
  exact reached.invariant Progress.initial
    (fun _ _ _ _ _ progress fresh fine => progress.next fresh fine) distinct

end

/-! The addresses -/

/-- The addresses of a batch, each where it is named first; a blank one is none. -/
def addresses (toLowerCase : String → String) (emails : List String) : List String :=
  ((emails.map fun raw => toLowerCase (String.ofList (JsNumber.trim raw.toList))).filter
    (· ≠ "")).eraseDups

theorem normalizeEmails_eq (toLowerCase : String → String) (emails : List String) :
    normalizeEmails toLowerCase emails = addresses toLowerCase emails := by
  induction emails using List.reverseRecOn with
  | nil => rfl
  | append_singleton emails raw ih =>
    unfold normalizeEmails addresses at ih ⊢
    rw [List.foldl_append, ih, List.map_append, List.filter_append, List.eraseDups_append]
    simp only [List.foldl_cons, List.foldl_nil, List.map_cons, List.map_nil, List.mem_eraseDups]
    generalize toLowerCase (String.ofList (JsNumber.trim raw.toList)) = email
    generalize (emails.map _).filter _ = earlier
    by_cases blank : email = ""
    · simp [blank, List.removeAll]
    · split
      · rename_i known
        have known := known.resolve_left blank
        simp [blank, List.removeAll, known]
      · rename_i fresh
        have fresh := (not_or.mp fresh).2
        simp [blank, List.removeAll, fresh, List.eraseDups_cons]

theorem addresses_nodup (toLowerCase : String → String) (emails : List String) :
    (addresses toLowerCase emails).Nodup := by
  rw [← normalizeEmails_eq]
  induction emails using List.reverseRecOn with
  | nil => exact List.nodup_nil
  | append_singleton emails raw ih =>
    unfold normalizeEmails at ih ⊢
    rw [List.foldl_append, List.foldl_cons, List.foldl_nil]
    dsimp only
    split
    · exact ih
    · rename_i fresh
      exact List.nodup_append_comm.mp (List.nodup_cons.mpr ⟨(not_or.mp fresh).2, ih⟩)

/-! The batch as a whole -/

/-- An invite by a signed-in admin of a workspace in which the app is installed. -/
structure Call where
  toLowerCase : String → String
  frontendUrl : String
  workspaces : String → Option InviteWorkspace
  happens : String → Happening
  users : MemberTable
  workspaceId : String
  inviterUserId : UuidText
  emails : List String
  workspace : InviteWorkspace
  known : workspaces workspaceId = some workspace
  installed : (nonEmpty workspace.slackBotToken).isSome = true
  inviter : Member
  signedIn : (users.rows.find? fun row => row.id == inviterUserId) = some inviter

namespace Call

variable (c : Call)

def invite : (MemberTable × List Event) × Except InviteError (List InviteResult) :=
  Invites.invite c.toLowerCase c.frontendUrl c.workspaces c.happens c.users c.workspaceId
    c.inviterUserId c.emails

def batch : InviteBatch where
  workspaceId := c.workspaceId
  dashboardUrl := dashboardUrl c.frontendUrl
  message := buildInviteMessage c.inviter.name c.workspace.name (dashboardUrl c.frontendUrl)

def start : State := opening c.toLowerCase c.users c.workspaceId

abbrev one : State → String → State × Except String InviteResult := inviteOne c.batch c.happens

theorem invite_eq : c.invite =
    (((Serial.run c.one c.start (normalizeEmails c.toLowerCase c.emails)).1.users,
      (Serial.run c.one c.start (normalizeEmails c.toLowerCase c.emails)).1.sent),
      (Serial.run c.one c.start (normalizeEmails c.toLowerCase c.emails)).2.mapError .thrown) := by
  obtain ⟨token, named⟩ := Option.isSome_iff_exists.mp c.installed
  simp only [invite, Invites.invite, c.known, named, c.signedIn]
  rfl

/-- The requests about one person. -/
def about (slackUserId : String) (sent : List Event) : List Event :=
  sent.filter fun event => event.person == slackUserId

/-- One result for each address, in their order, and whoever is active and has been seen when the
batch comes to an address keeps their row, and gets no save and no DM from it. -/
structure Isolated : Prop where
  results : ∃ results, c.invite.2 = .ok results ∧
    results.map (·.email) = addresses c.toLowerCase c.emails
  spares : ∀ before email after s,
    addresses c.toLowerCase c.emails = before ++ email :: after →
    Serial.Reaches c.one c.start before s →
    ∀ member ∈ s.users.rows, member.workspaceId = c.workspaceId → member.isActive = true →
      member.lastActiveAt.isSome = true →
      member ∈ (c.one s email).1.users.rows ∧
        about member.slackUserId (c.one s email).1.sent = about member.slackUserId s.sent

/-- The address comes to a save: the first one of its person does, and a later one unless the
earlier has switched a person who was seen before on again. -/
def Saves (before : List String) (email : String) : Prop :=
  ∃ person, admits c.happens c.start email = some person ∧
    ¬ (Seen c.users c.batch person.id ∧
      ∃ earlier ∈ before, Eligible c.toLowerCase c.users c.batch c.happens earlier person.id)

theorem admitted_iff {before : List String} {email : String} {s : State} (fresh : email ∉ before)
    (progress : Progress c.toLowerCase c.users c.batch c.happens before s) :
    (∃ person, admits c.happens s email = some person) ↔ c.Saves before email :=
  exists_congr fun _ => progress.admits_iff fresh

theorem result_iff (s : State) (email : String) : (∃ result, (c.one s email).2 = .ok result) ↔
    ((∃ person, admits c.happens s email = some person) → (c.happens email).save = .executed) := by
  obtain ⟨none, result, _, kept⟩ | ⟨person, admitted, ⟨saved, result, _, done⟩ |
    ⟨unsaved, _, _, _, failed⟩⟩ := inviteOne_cases c.batch c.happens s email
  · simp [one, kept, none]
  · simp [one, done, saved]
  · simp [one, failed, admitted, unsaved]

theorem result_email (s : State) (email : String) (result : InviteResult)
    (fine : (c.one s email).2 = .ok result) : result.email = email := by
  obtain ⟨_, _, named, kept⟩ | ⟨_, _, ⟨_, _, named, done⟩ | ⟨_, _, _, _, failed⟩⟩ :=
    inviteOne_cases c.batch c.happens s email
  · rw [one, kept] at fine
    cases fine
    exact named
  · rw [one, done] at fine
    cases fine
    exact named
  · rw [one, failed] at fine
    cases fine

/-- Whoever is on the team is not admitted. -/
theorem spared {s : State} {email : String} {member : Member}
    (agree : ∀ id, s.bySlackId.lookup id = s.users.find c.workspaceId id)
    (listed : member ∈ s.users.rows) (own : member.workspaceId = c.workspaceId)
    (active : member.isActive = true) (seen : member.lastActiveAt.isSome = true) :
    member ∈ (c.one s email).1.users.rows ∧
      about member.slackUserId (c.one s email).1.sent = about member.slackUserId s.sent := by
  have found : s.users.find c.workspaceId member.slackUserId = some member :=
    find_eq_some_iff.mpr ⟨listed, by rw [Member.identity, own]⟩
  have other : ∀ person, admits c.happens s email = some person →
      person.id ≠ member.slackUserId := by
    intro person admitted same
    have off := (admits_eq_some_iff.mp admitted).2.2
    rw [agree, same, found] at off
    simp [onTeam, isPendingInvite, active, Option.isSome_iff_ne_none.mp seen] at off
  have apart : ∀ person, admits c.happens s email = some person →
      member.identity ≠ (provisioned s.users c.batch.workspaceId person (c.happens email)).identity := by
    intro person admitted same
    rw [provisioned_identity] at same
    exact other person admitted (congrArg Prod.snd same).symm
  obtain ⟨_, _, _, kept⟩ | ⟨person, admitted, ⟨_, _, _, done⟩ | ⟨_, users, _, table, failed⟩⟩ :=
    inviteOne_cases c.batch c.happens s email
  · rw [one, kept]
    exact ⟨listed, rfl⟩
  · rw [one, done]
    refine ⟨mem_save.mpr (.inr ⟨listed, apart person admitted⟩), ?_⟩
    simp [about, State.admitted, Event.person, other person admitted]
  · rw [one, failed]
    refine ⟨?_, by simp [about, Event.person, other person admitted]⟩
    obtain rfl | rfl := table
    · exact listed
    · exact mem_save.mpr (.inr ⟨listed, apart person admitted⟩)

theorem run_ok {results : List InviteResult} (fine : c.invite.2 = .ok results) :
    ∃ values, (Serial.run c.one c.start (addresses c.toLowerCase c.emails)).2 = .ok values := by
  rw [invite_eq, normalizeEmails_eq] at fine
  cases ran : (Serial.run c.one c.start (addresses c.toLowerCase c.emails)).2 with
  | error e =>
    rw [ran] at fine
    cases fine
  | ok values => exact ⟨values, rfl⟩

/-- A batch is isolated exactly when each save that its addresses come to is carried out. -/
theorem isolated_iff : c.Isolated ↔ ∀ before email after,
    addresses c.toLowerCase c.emails = before ++ email :: after → c.Saves before email →
      (c.happens email).save = .executed := by
  have distinct := addresses_nodup c.toLowerCase c.emails
  have progress : ∀ before email after s,
      addresses c.toLowerCase c.emails = before ++ email :: after →
      Serial.Reaches c.one c.start before s → email ∉ before ∧
        Progress c.toLowerCase c.users c.batch c.happens before s := by
    intro before email after s split reached
    rw [split] at distinct
    obtain ⟨earlier, _, apart⟩ := List.nodup_append.mp distinct
    exact ⟨fun member => apart email member email List.mem_cons_self rfl,
      Progress.of_reaches earlier reached⟩
  constructor
  · intro isolated before email after split saves
    obtain ⟨results, fine, _⟩ := isolated.results
    obtain ⟨values, ran⟩ := c.run_ok fine
    obtain ⟨s, reached⟩ := Serial.reaches_of_ok ran split
    obtain ⟨fresh, now⟩ := progress before email after s split reached
    have result := Serial.run_ok_iff.mp ⟨values, ran⟩ before email after s split reached
    exact (c.result_iff s email).mp result ((c.admitted_iff fresh now).mpr saves)
  · intro carried
    have ok : ∃ values, (Serial.run c.one c.start (addresses c.toLowerCase c.emails)).2 =
        .ok values := by
      refine Serial.run_ok_iff.mpr fun before email after s split reached => ?_
      obtain ⟨fresh, now⟩ := progress before email after s split reached
      exact (c.result_iff s email).mpr fun admitted =>
        carried before email after split ((c.admitted_iff fresh now).mp admitted)
    obtain ⟨values, ran⟩ := ok
    refine ⟨⟨values, ?_, Serial.run_map c.result_email ran⟩, ?_⟩
    · rw [invite_eq, normalizeEmails_eq, ran]
      rfl
    · intro before email after s split reached member listed own active seen
      exact c.spared (progress before email after s split reached).2.agree listed own active seen

end Call

def adminId : UuidText := ⟨"7a1d9c40-52be-4e0b-9f63-0c8d1e2f3a4b", by decide⟩

def newcomerId : UuidText := ⟨"e3b0c442-98fc-4c14-9afb-f4c8996fb924", by decide⟩

def admin : Member :=
  ⟨adminId, "ws", "U_ADMIN", "Ada", some "ada@acme.co", none, .admin, true, none, some 0⟩

/-- Slack knows each address, and the save for `bob@acme.co` is refused. -/
def refusedFirst : Call where
  toLowerCase := id
  frontendUrl := "https://gaspo.co"
  workspaces _ := some ⟨"Acme", some "xoxb-1"⟩
  happens email :=
    { lookup := .found ⟨email, email, some email, none, false, false⟩
      save := if email = "bob@acme.co" then .refused else .executed
      failure := "Connection terminated"
      id := newcomerId
      now := 1
      delivered := some "1.0" }
  users := ⟨[admin], by decide⟩
  workspaceId := "ws"
  inviterUserId := adminId
  emails := ["bob@acme.co", "eve@acme.co"]
  workspace := ⟨"Acme", some "xoxb-1"⟩
  known := rfl
  installed := by decide
  inviter := admin
  signedIn := by decide

/-- The refused save ends the batch: neither address has a result. -/
theorem refused_save_aborts : ¬ refusedFirst.Isolated := by
  intro isolated
  obtain ⟨results, fine, _⟩ := isolated.results
  have thrown : (match refusedFirst.invite.2 with | .ok _ => true | .error _ => false) = false := by
    decide +kernel
  rw [fine] at thrown
  cases thrown

end Gomer.Invites
