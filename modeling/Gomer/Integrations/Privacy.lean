import Mathlib.Data.List.Pairwise
import Gomer.Lib.Trace
import Gomer.Integrations.Connections

/-! Private connections under any sequence of connects, updates, disconnects and token
refreshes. -/
namespace Gomer.Integrations

open Trace

/-- An account within its workspace. -/
abbrev AccountKey := UuidText × String

/-- What members did about an account: one connected it, or set it to team. -/
inductive Entry where
  | granted (account : AccountKey) (userId : UuidText) (accessLevel : IntegrationAccessLevel)
  | madeTeam (account : AccountKey) (userId : UuidText)
  deriving DecidableEq

/-- The rows, the pending handshakes, and the log with its latest entry first. -/
structure State where
  table : IntegrationTable
  redis : Handshakes
  log : List Entry

def start (table : IntegrationTable) (redis : Handshakes) : State := ⟨table, redis, []⟩

/-- Each member's request names the member, also where the service is not told who asks. -/
inductive Act where
  | startMetaConnect (state : String) (pending : MetaOAuthState)
  | expire (state : String)
  | completeMetaConnect (exchangeCode : String → String → Option MetaConnection)
      (state code : String) (drawn : DrawnIntegration)
  | confirmConnection (workspaceId userId : UuidText) (accounts : String → List Account)
      (dto : ConfirmConnectionDto) (drawn : DrawnIntegration)
  | update (workspaceId userId : UuidText) (userName : UuidText → Option String)
      (integrationId : UuidText) (patch : UpdateIntegrationDto)
  | disconnect (workspaceId userId integrationId : UuidText)
  | getMetaAccessToken (service : MetaMcp) (workspaceId : UuidText) (userId : Option UuidText)
  | buildMetaMcpServers (service : MetaMcp) (workspaceId userId : UuidText)

/-- What the log records of an operation. -/
def logged (s : State) : Act → Option Entry
  | .completeMetaConnect exchangeCode state code drawn =>
    match s.redis.lookup state,
        (completeMetaConnect s.table s.redis exchangeCode state code drawn).2 with
    | some pending, .ok row =>
      row.account.map fun account => .granted account pending.userId pending.accessLevel
    | _, _ => none
  | .confirmConnection workspaceId userId accounts dto drawn =>
    match (confirmConnection s.table workspaceId userId accounts dto drawn).2 with
    | .ok row => row.account.map fun account => .granted account userId dto.accessLevel
    | .error _ => none
  | .update workspaceId userId _ integrationId patch =>
    match s.table.findOne integrationId workspaceId with
    | some row =>
      if patch.hasNull = false ∧ patch.accessLevel = some (some .team) then
        row.account.map fun account => .madeTeam account userId
      else none
    | none => none
  | _ => none

def perform (s : State) : Act → State
  | .startMetaConnect state pending => { s with redis := startMetaConnect s.redis state pending }
  | .expire state => { s with redis := s.redis.filter fun entry => entry.1 != state }
  | .completeMetaConnect exchangeCode state code drawn =>
    let done := completeMetaConnect s.table s.redis exchangeCode state code drawn
    { s with table := done.1.1, redis := done.1.2 }
  | .confirmConnection workspaceId userId accounts dto drawn =>
    { s with table := (confirmConnection s.table workspaceId userId accounts dto drawn).1 }
  | .update workspaceId _ userName integrationId patch =>
    { s with table := (update s.table workspaceId userName integrationId patch).1 }
  | .disconnect workspaceId _ integrationId =>
    { s with table := (disconnect s.table workspaceId integrationId).1 }
  | .getMetaAccessToken service workspaceId userId =>
    { s with table := (getMetaAccessToken service s.table workspaceId userId).1 }
  | .buildMetaMcpServers service workspaceId userId =>
    { s with table := (buildMetaMcpServers service s.table workspaceId userId).1 }

def Step (s : State) (act : Act) (t : State) : Prop :=
  t = { perform s act with log := (logged s act).toList ++ s.log }

/-! The law -/

/-- The member's latest grant of the account was private, and the member has not set it to
team since. -/
def withheld (account : AccountKey) (userId : UuidText) : List Entry → Bool
  | [] => false
  | .granted granted member accessLevel :: log =>
    if granted = account ∧ member = userId then accessLevel == .ownerOnly
    else withheld account userId log
  | .madeTeam shared member :: log =>
    if shared = account ∧ member = userId then false else withheld account userId log

/-- No read for anyone else shows the account or hands out its token: each token comes from
the row of another account. -/
structure KeptPrivate (table : IntegrationTable) (account : AccountKey) (userId : UuidText) :
    Prop where
  views : ∀ userName viewer, viewer ≠ some userId →
    ∀ view ∈ findVisibleForUser table account.1 userName viewer,
      view.externalAccountId ≠ some account.2
  token : ∀ service viewer, viewer ≠ some userId → ∀ token,
    (getMetaAccessToken service table account.1 viewer).2 = some token →
    ∃ row ∈ table.rows, row.account ≠ some account ∧
      (ensureFreshMetaToken service table row).2 = some token
  servers : ∀ service viewer, viewer ≠ userId →
    ∀ server ∈ (buildMetaMcpServers service table account.1 viewer).2,
    ∃ row ∈ table.rows, row.account ≠ some account ∧ server.name = "meta-" ++ row.id.text ∧
      (ensureFreshMetaToken service table row).2 = some server.authorizationToken

def Private (s : State) : Prop :=
  ∀ account userId, withheld account userId s.log = true → KeptPrivate s.table account userId

/-- Nobody else withholds the account, and a private grant finds no row of another owner. -/
def Allowed (s : State) : Entry → Prop
  | .granted account userId accessLevel =>
    (∀ other, other ≠ userId → withheld account other s.log = false) ∧
      (accessLevel = .ownerOnly →
        ∀ row ∈ s.table.rows, row.account = some account → row.userId = userId)
  | .madeTeam account userId => ∀ other, other ≠ userId → withheld account other s.log = false

def Respects (s : State) (act : Act) : Prop := ∀ entry ∈ logged s act, Allowed s entry

/-! What reads hand out -/

section
variable {service : MetaMcp} {table : IntegrationTable} {account : AccountKey} {userId : UuidText}
  {rows : List Integration}

/-- The token of a row does not depend on the table. -/
theorem ensureFreshMetaToken_token (other : IntegrationTable) (row : Integration) :
    (ensureFreshMetaToken service other row).2 = (ensureFreshMetaToken service table row).2 := by
  unfold ensureFreshMetaToken
  split
  · rfl
  · split
    · rfl
    · split <;> rfl

theorem firstMetaToken_drawn {token : String}
    (found : (firstMetaToken service table rows).2 = some token) :
    ∃ row ∈ rows, (ensureFreshMetaToken service table row).2 = some token := by
  induction rows generalizing table with
  | nil => cases found
  | cons row rest ih =>
    simp only [firstMetaToken] at found
    split at found
    · rename_i text usable
      cases found
      exact ⟨row, List.mem_cons_self .., (nonEmpty_some usable).1⟩
    · obtain ⟨later, member, drawn⟩ := ih found
      rw [ensureFreshMetaToken_token] at drawn
      exact ⟨later, List.mem_cons_of_mem row member, drawn⟩

theorem metaServers_drawn {server : MetaMcpServerWithToken}
    (served : server ∈ (metaServers service table rows).2) :
    ∃ row ∈ rows, server.name = "meta-" ++ row.id.text ∧
      (ensureFreshMetaToken service table row).2 = some server.authorizationToken := by
  induction rows generalizing table with
  | nil => cases served
  | cons row rest ih =>
    simp only [metaServers] at served
    have tail : ∀ {first : IntegrationTable}, server ∈ (metaServers service first rest).2 →
        ∃ row' ∈ row :: rest, server.name = "meta-" ++ row'.id.text ∧
          (ensureFreshMetaToken service table row').2 = some server.authorizationToken := by
      intro first later
      obtain ⟨row', member, named, drawn⟩ := ih later
      rw [ensureFreshMetaToken_token] at drawn
      exact ⟨row', List.mem_cons_of_mem row member, named, drawn⟩
    split at served
    · rename_i text usable
      rcases List.mem_cons.mp served with rfl | later
      · exact ⟨row, List.mem_cons_self .., rfl, (nonEmpty_some usable).1⟩
      · exact tail later
    · exact tail served

theorem view_of_visible {userName : UuidText → Option String} {viewer : Option UuidText}
    {row : Integration} (stored : row ∈ table.rows) (named : row.account = some account)
    (visible : visibleTo viewer row = true) :
    ∃ view ∈ findVisibleForUser table account.1 userName viewer,
      view.externalAccountId = some account.2 := by
  obtain ⟨here, external⟩ := account_eq_some_iff.mp named
  refine ⟨toView userName row, List.mem_map_of_mem (List.mem_mergeSort.mpr ?_), external⟩
  exact List.mem_filter.mpr ⟨stored, by simp [here, visible]⟩

theorem mem_visibleMetaIntegrations {workspaceId : UuidText} {viewer : Option UuidText}
    {row : Integration} (used : row ∈ visibleMetaIntegrations table workspaceId viewer) :
    row ∈ table.rows ∧ visibleTo viewer row = true := by
  obtain ⟨stored, query⟩ := List.mem_filter.mp used
  exact ⟨stored, (Bool.and_eq_true_iff.mp query).2⟩

/-- An account is kept private exactly where its row is the member's own and private. -/
theorem keptPrivate_iff : KeptPrivate table account userId ↔
    ∀ row ∈ table.rows, row.account = some account →
      row.userId = userId ∧ row.accessLevel = .ownerOnly := by
  constructor
  · intro kept row stored named
    have hidden : ∀ viewer, viewer ≠ some userId → visibleTo viewer row = false := by
      intro viewer other
      by_contra visible
      obtain ⟨view, listed, shown⟩ := @view_of_visible table account (fun _ => none) viewer row
        stored named (Bool.eq_true_of_not_eq_false visible)
      exact kept.views _ viewer other view listed shown
    constructor
    · by_contra foreign
      have seen := hidden (some row.userId) fun same => foreign (Option.some.inj same)
      simp [visibleTo] at seen
    · have unseen := hidden none nofun
      cases level : row.accessLevel with
      | team => simp [visibleTo, level] at unseen
      | ownerOnly => rfl
  · intro own
    -- A row that someone else may use is the row of another account.
    have foreign : ∀ row ∈ table.rows, ∀ viewer, viewer ≠ some userId →
        visibleTo viewer row = true → row.account ≠ some account := by
      intro row stored viewer other visible named
      obtain ⟨mine, level⟩ := own row stored named
      simp only [visibleTo, mine, level, Bool.or_eq_true, beq_iff_eq, reduceCtorEq, false_or]
        at visible
      exact other visible
    constructor
    · intro userName viewer other view listed shown
      obtain ⟨row, sorted, rfl⟩ := List.mem_map.mp listed
      obtain ⟨stored, query⟩ := List.mem_filter.mp (List.mem_mergeSort.mp sorted)
      obtain ⟨here, visible⟩ := Bool.and_eq_true_iff.mp query
      exact foreign row stored viewer other visible
        (account_eq_some_iff.mpr ⟨beq_iff_eq.mp here, shown⟩)
    · intro service viewer other token found
      obtain ⟨row, used, drawn⟩ := firstMetaToken_drawn found
      obtain ⟨stored, visible⟩ := mem_visibleMetaIntegrations used
      exact ⟨row, stored, foreign row stored viewer other visible, drawn⟩
    · intro service viewer other server served
      obtain ⟨row, used, named, drawn⟩ := metaServers_drawn served
      obtain ⟨stored, visible⟩ := mem_visibleMetaIntegrations used
      have someone : some viewer ≠ some userId := fun same => other (Option.some.inj same)
      exact ⟨row, stored, foreign row stored _ someone visible, named, drawn⟩

end

/-! What one operation does -/

/-- Rows of accounts come from earlier rows with the same owner, and none becomes a team one. -/
def Narrows (old new : IntegrationTable) : Prop :=
  ∀ row ∈ new.rows, ∀ account, row.account = some account → ∃ before ∈ old.rows,
    before.account = some account ∧ row.userId = before.userId ∧
      (row.accessLevel = before.accessLevel ∨ row.accessLevel = .ownerOnly)

theorem Narrows.refl (table : IntegrationTable) : Narrows table table :=
  fun row stored _ named => ⟨row, stored, named, rfl, .inl rfl⟩

theorem Narrows.trans {a b c : IntegrationTable} (first : Narrows a b) (second : Narrows b c) :
    Narrows a c := by
  intro row stored account named
  obtain ⟨mid, there, named', owner, level⟩ := second row stored account named
  obtain ⟨before, stored', named'', owner', level'⟩ := first mid there account named'
  refine ⟨before, stored', named'', owner.trans owner', ?_⟩
  rcases level with same | closed
  · rwa [same]
  · exact .inr closed

section
variable {table : IntegrationTable}

theorem narrows_save (id : UuidText) {change : Assignment}
    (level : ∀ row ∈ table.rows, row.id = id → (change.assign row).accessLevel = row.accessLevel ∨
      (change.assign row).accessLevel = .ownerOnly ∨ row.account = none) :
    Narrows table (table.save id change) := by
  intro row stored account named
  obtain ⟨before, there, rfl⟩ := List.mem_map.mp stored
  split at named
  · rename_i chosen
    rw [change.account] at named
    rw [if_pos chosen]
    refine ⟨before, there, named, change.userId before, ?_⟩
    rcases level before there chosen with same | closed | unnamed
    · exact .inl same
    · exact .inr closed
    · rw [unnamed] at named
      cases named
  · rename_i other
    rw [if_neg other]
    exact ⟨before, there, named, rfl, .inl rfl⟩

theorem narrows_remove (id : UuidText) : Narrows table (table.remove id) :=
  fun row stored _ named => ⟨row, (List.mem_filter.mp stored).1, named, rfl, .inl rfl⟩

theorem narrows_ensureFreshMetaToken (service : MetaMcp) (table : IntegrationTable)
    (row : Integration) : Narrows table (ensureFreshMetaToken service table row).1 := by
  unfold ensureFreshMetaToken
  split
  · exact .refl table
  · split
    · exact .refl table
    · split
      · exact narrows_save _ fun _ _ _ => .inl rfl
      · exact narrows_save _ fun _ _ _ => .inl rfl

theorem narrows_firstMetaToken (service : MetaMcp) (table : IntegrationTable)
    (rows : List Integration) : Narrows table (firstMetaToken service table rows).1 := by
  induction rows generalizing table with
  | nil => exact .refl table
  | cons row rest ih =>
    have fresh := narrows_ensureFreshMetaToken service table row
    simp only [firstMetaToken]
    split
    · exact fresh
    · exact fresh.trans (ih _)

theorem narrows_metaServers (service : MetaMcp) (table : IntegrationTable)
    (rows : List Integration) : Narrows table (metaServers service table rows).1 := by
  induction rows generalizing table with
  | nil => exact .refl table
  | cons row rest ih =>
    have fresh := narrows_ensureFreshMetaToken service table row
    simp only [metaServers]
    split
    · exact fresh.trans (ih _)
    · exact fresh.trans (ih _)

theorem account_unique {a b : Integration} {account : AccountKey} (first : a ∈ table.rows)
    (second : b ∈ table.rows) (named : a.account = some account) (named' : b.account = some account) :
    a = b := by
  by_contra apart
  have distinct := List.pairwise_filterMap.mp table.accountKey
  have symmetric : Std.Symm fun a b : Integration =>
      ∀ k, a.account = some k → ∀ k', b.account = some k' → k ≠ k' :=
    ⟨fun _ _ h k member k' member' => (h k' member' k member).symm⟩
  exact distinct.forall first second apart account named account named' rfl

theorem id_unique {a b : Integration} (first : a ∈ table.rows) (second : b ∈ table.rows)
    (same : a.id = b.id) : a = b := List.inj_on_of_nodup_map table.idKey first second same

end

/-- A grant writes the row of its account only: its level is the granted one, its owner the
first one. -/
structure Grants (old new : IntegrationTable) (account : AccountKey) (userId : UuidText)
    (accessLevel : IntegrationAccessLevel) : Prop where
  stored : ∃ row ∈ new.rows, row.account = some account
  level : ∀ row ∈ new.rows, row.account = some account → row.accessLevel = accessLevel
  owner : ∀ row ∈ new.rows, row.account = some account →
    (∃ before ∈ old.rows, before.account = some account ∧ row.userId = before.userId) ∨
      (∀ before ∈ old.rows, before.account ≠ some account) ∧ row.userId = userId
  others : ∀ row ∈ new.rows, row.account ≠ some account → row ∈ old.rows

/-- An update to team shows the row of its account. -/
structure Opens (old new : IntegrationTable) (account : AccountKey) : Prop where
  shown : ∃ row ∈ new.rows, row.account = some account ∧ row.accessLevel = .team
  others : ∀ row ∈ new.rows, row.account ≠ some account → row ∈ old.rows

section
variable {table : IntegrationTable} {account : AccountKey}

theorem save_others {existing : Integration} (stored : existing ∈ table.rows)
    (named : existing.account = some account) (change : Assignment) :
    ∀ row ∈ (table.save existing.id change).rows, row.account ≠ some account → row ∈ table.rows := by
  intro row written foreign
  obtain ⟨before, there, rfl⟩ := List.mem_map.mp written
  split at foreign
  · rename_i chosen
    rw [change.account, id_unique there stored chosen] at foreign
    exact absurd named foreign
  · rename_i other
    rwa [if_neg other]

theorem save_account {existing : Integration} (stored : existing ∈ table.rows)
    (named : existing.account = some account) (change : Assignment) :
    ∀ row ∈ (table.save existing.id change).rows, row.account = some account →
      row = change.assign existing := by
  intro row written mine
  obtain ⟨before, there, rfl⟩ := List.mem_map.mp written
  split at mine
  · rename_i chosen
    rw [if_pos chosen, id_unique there stored chosen]
  · rename_i other
    exact absurd (congrArg (·.id) (account_unique there stored mine named)) other

theorem mem_save {existing : Integration} (stored : existing ∈ table.rows) (change : Assignment) :
    change.assign existing ∈ (table.save existing.id change).rows :=
  List.mem_map.mpr ⟨existing, stored, if_pos rfl⟩

theorem grants_save {existing : Integration} (stored : existing ∈ table.rows)
    (named : existing.account = some account) (change : Assignment) (userId : UuidText) :
    Grants table (table.save existing.id change) account userId
      (change.assign existing).accessLevel := by
  have only := save_account stored named change
  constructor
  · exact ⟨_, mem_save stored change, (change.account existing).trans named⟩
  · intro row written mine
    rw [only row written mine]
  · intro row written mine
    rw [only row written mine]
    exact .inl ⟨existing, stored, named, change.userId existing⟩
  · exact save_others stored named change

theorem grants_insert {created : Integration} {next : IntegrationTable}
    (absent : ∀ row ∈ table.rows, row.account ≠ some account)
    (named : created.account = some account) (inserted : table.insert created = .ok next) :
    Grants table next account created.userId created.accessLevel := by
  have written : ∀ row ∈ next.rows, row ∈ table.rows ∨ row = created := by
    intro row stored
    rw [insert_rows inserted] at stored
    rcases List.mem_append.mp stored with old | new
    · exact .inl old
    · exact .inr (List.mem_singleton.mp new)
  have only : ∀ row ∈ next.rows, row.account = some account → row = created :=
    fun row stored mine => (written row stored).resolve_left fun old => absent row old mine
  constructor
  · refine ⟨created, ?_, named⟩
    rw [insert_rows inserted]
    exact List.mem_append_right _ (List.mem_singleton.mpr rfl)
  · intro row stored mine
    rw [only row stored mine]
  · intro row stored mine
    rw [only row stored mine]
    exact .inr ⟨absent, rfl⟩
  · intro row stored foreign
    refine (written row stored).resolve_right fun same => foreign ?_
    rw [same, named]

theorem upsertConnection_effect (workspaceId userId : UuidText) (accountId : String)
    {change : Assignment} (drawn : DrawnIntegration) {accessLevel : IntegrationAccessLevel}
    (level : ∀ row, (change.assign row).accessLevel = accessLevel) :
    let done := upsertConnection table workspaceId userId accountId change drawn
    (∃ row, done.2 = .ok row ∧ row.account = some (workspaceId, accountId) ∧
        Grants table done.1 (workspaceId, accountId) userId accessLevel) ∨
      ∃ e, done = (table, .error e) := by
  unfold upsertConnection
  cases found : table.findAccount workspaceId accountId with
  | some existing =>
    obtain ⟨stored, named⟩ := findAccount_some found
    have grants := grants_save stored named change userId
    rw [level] at grants
    exact .inl ⟨change.assign existing, rfl, (change.account existing).trans named, grants⟩
  | none =>
    let created := change.assign (createConnection workspaceId userId accountId drawn)
    have named : created.account = some (workspaceId, accountId) := change.account _
    dsimp only
    split
    · rename_i next inserted
      have grants := grants_insert (findAccount_none found) named inserted
      rw [show created.userId = userId from change.userId _, level] at grants
      exact .inl ⟨created, rfl, named, grants⟩
    · rename_i e _
      exact .inr ⟨e, rfl⟩

end

/-- What a step does to the rows, by what it logs. -/
inductive Effect (old new : IntegrationTable) : Option Entry → Prop where
  | quiet (narrows : Narrows old new) : Effect old new none
  | granted {account : AccountKey} {userId : UuidText} {accessLevel : IntegrationAccessLevel}
      (grants : Grants old new account userId accessLevel) :
      Effect old new (some (.granted account userId accessLevel))
  | opened {account : AccountKey} {userId : UuidText} (opens : Opens old new account) :
      Effect old new (some (.madeTeam account userId))

theorem findOne_some {table : IntegrationTable} {id workspaceId : UuidText} {row : Integration}
    (found : table.findOne id workspaceId = some row) : row ∈ table.rows :=
  List.mem_of_find?_eq_some found

theorem patched_level {patch : UpdateIntegrationDto} (bad : patch.hasNull = false)
    (unshared : patch.accessLevel ≠ some (some .team)) (row : Integration) :
    ((patched patch).assign row).accessLevel = row.accessLevel ∨
      ((patched patch).assign row).accessLevel = .ownerOnly ∨ row.account = none := by
  cases level : patch.accessLevel with
  | none => exact .inl (by simp [patched, level])
  | some given =>
    cases given with
    | none => simp [UpdateIntegrationDto.hasNull, level] at bad
    | some given =>
      cases given with
      | team => exact absurd level unshared
      | ownerOnly => exact .inr (.inl (by simp [patched, level]))

theorem update_effect (s : State) (workspaceId userId : UuidText)
    (userName : UuidText → Option String) (integrationId : UuidText)
    (patch : UpdateIntegrationDto) :
    Effect s.table (update s.table workspaceId userName integrationId patch).1
      (logged s (.update workspaceId userId userName integrationId patch)) := by
  unfold update
  simp only [logged]
  cases found : s.table.findOne integrationId workspaceId with
  | none => exact .quiet (.refl _)
  | some row =>
    dsimp only
    cases bad : patch.hasNull with
    | true => simpa using .quiet (.refl _)
    | false =>
      simp only [Bool.false_eq_true, if_false, true_and]
      split
      · rename_i shared
        cases named : row.account with
        | none =>
          refine .quiet (narrows_save _ fun other there same => .inr (.inr ?_))
          rwa [id_unique there (findOne_some found) same]
        | some account =>
          have stored := findOne_some found
          refine .opened ⟨⟨_, mem_save stored _, ((patched patch).account row).trans named, ?_⟩,
            save_others stored named _⟩
          simp [patched, shared]
      · rename_i unshared
        exact .quiet (narrows_save _ fun other _ _ => patched_level bad unshared other)

theorem step_effect (s : State) (act : Act) :
    Effect s.table (perform s act).table (logged s act) := by
  cases act with
  | startMetaConnect state pending => exact .quiet (.refl _)
  | expire state => exact .quiet (.refl _)
  | completeMetaConnect exchangeCode state code drawn =>
    simp only [perform, logged, completeMetaConnect]
    cases s.redis.lookup state with
    | none => exact .quiet (.refl _)
    | some pending =>
      dsimp only
      cases exchangeCode code pending.codeVerifier with
      | none => exact .quiet (.refl _)
      | some connection =>
        dsimp only
        rcases @upsertConnection_effect s.table pending.workspaceId pending.userId
          connection.accountId (connected connection pending.accessLevel) drawn
          pending.accessLevel (fun _ => rfl) with ⟨row, ok, named, grants⟩ | ⟨e, failed⟩
        · rw [ok]
          dsimp only
          rw [named]
          exact .granted grants
        · rw [failed]
          exact .quiet (.refl _)
  | confirmConnection workspaceId userId accounts dto drawn =>
    simp only [perform, logged, confirmConnection]
    cases (accounts (resolveExternalUserId workspaceId userId dto.accessLevel)).find?
        fun account => account.id == dto.accountId with
    | none => exact .quiet (.refl _)
    | some account =>
      dsimp only
      rcases @upsertConnection_effect s.table workspaceId userId account.id (confirmed account dto)
        drawn dto.accessLevel (fun _ => rfl) with ⟨row, ok, named, grants⟩ | ⟨e, failed⟩
      · rw [ok]
        dsimp only
        rw [named]
        exact .granted grants
      · rw [failed]
        exact .quiet (.refl _)
  | update workspaceId userId userName integrationId patch =>
    exact update_effect s workspaceId userId userName integrationId patch
  | disconnect workspaceId userId integrationId =>
    simp only [perform, logged, disconnect]
    split
    · exact .quiet (.refl _)
    · exact .quiet (narrows_remove _)
  | getMetaAccessToken service workspaceId userId =>
    exact .quiet (narrows_firstMetaToken service s.table _)
  | buildMetaMcpServers service workspaceId userId =>
    exact .quiet (narrows_metaServers service s.table _)

/-! The law over a step -/

section
variable {account shared : AccountKey} {userId member : UuidText}
  {accessLevel : IntegrationAccessLevel} {log : List Entry}

theorem withheld_granted_self :
    withheld account userId (.granted account userId accessLevel :: log) = true ↔
      accessLevel = .ownerOnly := by
  simp [withheld]

theorem withheld_granted_other (other : ¬ (shared = account ∧ member = userId)) :
    withheld account userId (.granted shared member accessLevel :: log) =
      withheld account userId log := if_neg other

theorem withheld_madeTeam_self :
    withheld account userId (.madeTeam account userId :: log) = false := by
  simp [withheld]

theorem withheld_madeTeam_other (other : ¬ (shared = account ∧ member = userId)) :
    withheld account userId (.madeTeam shared member :: log) = withheld account userId log :=
  if_neg other

end

theorem private_iff (s : State) : Private s ↔
    ∀ account userId, withheld account userId s.log = true → ∀ row ∈ s.table.rows,
      row.account = some account → row.userId = userId ∧ row.accessLevel = .ownerOnly := by
  simp only [Private, keptPrivate_iff]

theorem private_quiet {s t : State} (law : Private s) (narrows : Narrows s.table t.table)
    (log : t.log = s.log) : Private t := by
  rw [private_iff] at law ⊢
  intro account userId held row stored named
  rw [log] at held
  obtain ⟨before, there, named', owner, level⟩ := narrows row stored account named
  obtain ⟨mine, closed⟩ := law account userId held before there named'
  refine ⟨owner.trans mine, ?_⟩
  rcases level with same | narrowed
  · rwa [same]
  · exact narrowed

theorem private_granted_iff {s t : State} {account : AccountKey} {userId : UuidText}
    {accessLevel : IntegrationAccessLevel} (law : Private s)
    (grants : Grants s.table t.table account userId accessLevel)
    (log : t.log = .granted account userId accessLevel :: s.log) :
    Private t ↔ Allowed s (.granted account userId accessLevel) := by
  rw [private_iff] at law ⊢
  obtain ⟨row, stored, named⟩ := grants.stored
  have level := grants.level row stored named
  constructor
  · intro kept
    have own : accessLevel = .ownerOnly → row.userId = userId := by
      intro closed
      refine (kept account userId ?_ row stored named).1
      rw [log]
      exact withheld_granted_self.mpr closed
    constructor
    · intro other apart
      by_contra held
      have still : withheld account other t.log = true := by
        rw [log, withheld_granted_other fun same => apart same.2.symm]
        exact Bool.eq_true_of_not_eq_false held
      obtain ⟨theirs, closed⟩ := kept account other still row stored named
      exact apart (theirs.symm.trans (own (level.symm.trans closed)))
    · intro closed before there named'
      rcases grants.owner row stored named with ⟨first, there', named'', owner⟩ | ⟨absent, _⟩
      · rw [account_unique there there' named' named'', ← owner]
        exact own closed
      · exact absurd named' (absent before there)
  · rintro ⟨alone, mine⟩ shared member held row stored named
    by_cases same : shared = account
    · cases same
      have isGranter : member = userId := by
        by_contra apart
        rw [log, withheld_granted_other fun both => apart both.2.symm, alone member apart] at held
        cases held
      cases isGranter
      rw [log, withheld_granted_self] at held
      refine ⟨?_, (grants.level row stored named).trans held⟩
      rcases grants.owner row stored named with ⟨before, there, named', owner⟩ | ⟨_, owner⟩
      · exact owner.trans (mine held before there named')
      · exact owner
    · rw [log, withheld_granted_other fun both => same both.1.symm] at held
      refine law shared member held row (grants.others row stored fun other => same ?_) named
      exact Option.some.inj (named.symm.trans other)

theorem private_opened_iff {s t : State} {account : AccountKey} {userId : UuidText}
    (law : Private s) (opens : Opens s.table t.table account)
    (log : t.log = .madeTeam account userId :: s.log) :
    Private t ↔ Allowed s (.madeTeam account userId) := by
  rw [private_iff] at law ⊢
  obtain ⟨row, stored, named, shown⟩ := opens.shown
  constructor
  · intro kept other apart
    by_contra held
    have still : withheld account other t.log = true := by
      rw [log, withheld_madeTeam_other fun same => apart same.2.symm]
      exact Bool.eq_true_of_not_eq_false held
    cases shown.symm.trans (kept account other still row stored named).2
  · intro alone shared member held row stored named
    by_cases same : shared = account
    · cases same
      by_cases self : member = userId
      · rw [self, log, withheld_madeTeam_self] at held
        cases held
      · rw [log, withheld_madeTeam_other fun both => self both.2.symm, alone member self] at held
        cases held
    · rw [log, withheld_madeTeam_other fun both => same both.1.symm] at held
      refine law shared member held row (opens.others row stored fun other => same ?_) named
      exact Option.some.inj (named.symm.trans other)

theorem private_step_iff {s t : State} {act : Act} (law : Private s) (taken : Step s act t) :
    Private t ↔ Respects s act := by
  have effect := step_effect s act
  have log : t.log = (logged s act).toList ++ s.log := congrArg State.log taken
  rw [show (perform s act).table = t.table from (congrArg State.table taken).symm] at effect
  simp only [Respects]
  generalize logged s act = entry at effect log
  cases effect with
  | quiet narrows => simpa using private_quiet law narrows log
  | granted grants => simpa using private_granted_iff law grants log
  | opened opens => simpa using private_opened_iff law opens log

/-- Private connections stay private in exactly the runs whose steps leave a withheld account
to its owner. -/
theorem private_kept_iff {table : IntegrationTable} {redis : Handshakes}
    {steps : List (Transition State Act)} {s : State}
    (run : Run Step (start table redis) steps s) :
    (∀ x ∈ steps, Private x.post) ↔ ∀ x ∈ steps, Respects x.pre x.label := by
  refine run.states_iff Private Respects (I := fun _ => True) trivial (fun _ _ _ _ _ => trivial) ?_
    fun _ _ _ _ law taken => private_step_iff law taken
  rw [private_iff]
  intro account userId held
  cases held

/-! A workspace of two -/

def acme : UuidText := ⟨"5b0c2f0e-6b1d-4f5e-9a58-0d7d2a1f6a10", by decide⟩
def ada : UuidText := ⟨"1d5f3c8a-97a4-4f0e-8c3b-3b1a2c4d5e11", by decide⟩
def bo : UuidText := ⟨"9e2b7d46-1c0f-4b7a-a2d1-7f6e5d4c3b12", by decide⟩

def empty : IntegrationTable := ⟨[], by decide, by decide⟩

/-- The token endpoint, for a login of one Meta user whose code says who granted. -/
def exchange (code _verifier : String) : Option MetaConnection :=
  some { accessToken := "token of " ++ code, refreshToken := none, expiresAt := none, scopes := none
         accountId := "meta:1001", accountName := some "Acme Ads", iconUrl := "icon"
         appSlug := "meta_ads", appName := "Meta Ads" }

def connectAct (state member : String) (row : UuidText) : Act :=
  .completeMetaConnect exchange state member ⟨row, 0⟩

def handshakes : Handshakes :=
  [("first", ⟨acme, ada, .team, "v1"⟩), ("second", ⟨acme, bo, .ownerOnly, "v2"⟩)]

def reader : MetaMcp := ⟨0, fun _ => none, "https://mcp.example"⟩

def next (s : State) (act : Act) : Option State :=
  some { perform s act with log := (logged s act).toList ++ s.log }

theorem followed {steps : List (Transition State Act)} {s : State} {labels : List Act}
    (done : follow next (start empty handshakes) labels = some (steps, s)) :
    Run Step (start empty handshakes) steps s := by
  have run := follow_run done
  have same : (fun s a t => next s a = some t) = Step := by
    funext s a t
    exact propext ⟨fun h => (Option.some.inj h).symm, fun h => congrArg some h.symm⟩
  rwa [same] at run

/-- Ada connects an account for the team, Bo connects it as private: it stays Ada's row, and
she is handed Bo's token. -/
theorem private_token_leaks :
    ∃ steps s, Run Step (start empty handshakes) steps s ∧
      withheld (acme, "meta:1001") bo s.log = true ∧
      (getMetaAccessToken reader s.table acme (some ada)).2 = some "token of bo" ∧
      ¬ ∀ x ∈ steps, Private x.post := by
  let labels := [connectAct "first" "ada" bo, connectAct "second" "bo" acme]
  refine ⟨_, _, @followed _ _ labels rfl, by decide +kernel, by decide +kernel, ?_⟩
  intro kept
  have law := kept _ (List.mem_cons_of_mem _ (List.mem_cons_self ..))
  rw [private_iff] at law
  have owner := (law (acme, "meta:1001") bo (by decide +kernel) _ (List.mem_cons_self ..)
    (by decide +kernel)).1
  exact absurd owner (by decide +kernel)

/-- Bo's private connection, which Ada asks for in vain. -/
theorem private_connection_kept :
    ∃ steps s, Run Step (start empty handshakes) steps s ∧ steps.length = 2 ∧
      ∀ x ∈ steps, Private x.post := by
  let labels := [connectAct "second" "bo" acme, .getMetaAccessToken reader acme (some ada)]
  have run := @followed _ _ labels rfl
  refine ⟨_, _, run, rfl, (private_kept_iff run).mpr ?_⟩
  intro x taken entry said
  rcases List.mem_cons.mp taken with rfl | later
  · have granted : logged (start empty handshakes) (connectAct "second" "bo" acme) =
        some (.granted (acme, "meta:1001") bo .ownerOnly) := by decide +kernel
    cases granted.symm.trans said
    exact ⟨fun _ _ => rfl, fun _ row stored => nomatch stored⟩
  · rw [List.mem_singleton.mp later] at said
    cases said

end Gomer.Integrations
