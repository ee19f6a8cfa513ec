import Gomer.Integrations.Connections
import Gomer.Lib.JsonText
import Gomer.Lib.Relational
import Gomer.Lib.TextCache

/-! Connecting Meta accounts: any number of handshakes that members start, and of calls of the
public callback, whoever makes them. A callback finds the row of its account, reads it again to
save it and writes it in statements of their own, between which the rest of the service writes to
the table as well. -/
namespace Gomer.MetaHandshake

open Integrations Trace Relational

/-! The pending handshake, as it is stored -/

def stateTtl : Nat := 600000

def stateKey (state : String) : String := "meta:oauth:" ++ state

def levelText : IntegrationAccessLevel → String
  | .team => "team"
  | .ownerOnly => "private"

def stateJson (pending : MetaOAuthState) : Json :=
  .obj [("workspaceId", .str pending.workspaceId.text), ("userId", .str pending.userId.text),
    ("accessLevel", .str (levelText pending.accessLevel)), ("codeVerifier", .str pending.codeVerifier)]

def stateText (pending : MetaOAuthState) : String := String.ofList (stateJson pending).stringify

def textAt (json : Json) (key : String) : Option String :=
  match json.get? key with
  | some (.str value) => some value
  | _ => none

def uuidAt (json : Json) (key : String) : Option UuidText :=
  (textAt json key).bind fun text => if length : text.length = 36 then some ⟨text, length⟩ else none

def levelAt (json : Json) (key : String) : Option IntegrationAccessLevel :=
  match textAt json key with
  | some "team" => some .team
  | some "private" => some .ownerOnly
  | _ => none

/-- `JSON.parse(raw) as MetaOAuthState`, which checks nothing; a value of another shape is not
stored. -/
def readState (raw : String) : Option MetaOAuthState := do
  let json ← Json.parse raw
  let workspaceId ← uuidAt json "workspaceId"
  let userId ← uuidAt json "userId"
  let accessLevel ← levelAt json "accessLevel"
  let codeVerifier ← textAt json "codeVerifier"
  some ⟨workspaceId, userId, accessLevel, codeVerifier⟩

theorem readState_stateText (pending : MetaOAuthState) :
    readState (stateText pending) = some pending := by
  obtain ⟨workspaceId, userId, accessLevel, codeVerifier⟩ := pending
  have sound : (stateJson ⟨workspaceId, userId, accessLevel, codeVerifier⟩).Sound := by
    simp [stateJson, Json.Sound, Json.SoundFields]
  have parsed : Json.parse (stateText ⟨workspaceId, userId, accessLevel, codeVerifier⟩) =
      some (stateJson ⟨workspaceId, userId, accessLevel, codeVerifier⟩) := by
    rw [stateText, Json.parse_stringify_sound sound]
    simp [stateJson, Json.written, Json.writtenFields]
  rw [readState, parsed]
  cases accessLevel <;>
    simp [stateJson, uuidAt, levelAt, textAt, Json.get?, levelText, workspaceId.length, userId.length]

/-! Meta -/

structure Callback where
  state : String
  code : String

/-- What `startMetaConnect` draws, and for whom. -/
structure Start where
  state : String
  pending : MetaOAuthState

/-- What the Graph API says of the owner of a token. -/
structure GraphUser where
  id : Option String
  name : Option String

/-- Without an answer that has an id, a random one. -/
def resolveAccount (me : Option GraphUser) (drawn : String) : String × Option String :=
  match me.bind fun me => (nonEmpty me.id).map (·, me.name) with
  | some (id, name) => ("meta:" ++ id, name)
  | none => ("meta:" ++ drawn, none)

def exchangeCode (tokens : MetaTokenSet) (me : Option GraphUser) (drawn : String) : MetaConnection where
  toMetaTokenSet := tokens
  accountId := (resolveAccount me drawn).1
  accountName := (resolveAccount me drawn).2
  iconUrl := "https://www.facebook.com/images/fb_icon_325x325.png"
  appSlug := "meta_ads"
  appName := "Meta Ads"

/-! The saves -/

/-- What no statement changes of a row. -/
structure Key where
  account : Option (UuidText × String)
  userId : UuidText
  deriving DecidableEq

def keyOf (row : Integration) : Key := ⟨row.account, row.userId⟩

theorem keyOf_assign (change : Assignment) (row : Integration) :
    keyOf (change.assign row) = keyOf row := by
  rw [keyOf, change.account, change.userId]
  rfl

/-- A column that the save sends: where the entity has another value than was read. -/
def sent {α : Type} [DecidableEq α] (seen entity row : Integration) (column : Integration → α) : α :=
  if column seen = column entity then column row else column entity

/-- The `UPDATE` of a save. The columns left out are set by nobody. -/
def updated (seen entity : Integration) : Assignment where
  assign row := { row with
    provider := sent seen entity row (·.provider)
    appName := sent seen entity row (·.appName)
    appSlug := sent seen entity row (·.appSlug)
    accountName := sent seen entity row (·.accountName)
    nickname := sent seen entity row (·.nickname)
    accessLevel := sent seen entity row (·.accessLevel)
    iconUrl := sent seen entity row (·.iconUrl)
    isActive := sent seen entity row (·.isActive)
    accessToken := sent seen entity row (·.accessToken)
    refreshToken := sent seen entity row (·.refreshToken)
    tokenExpiresAt := sent seen entity row (·.tokenExpiresAt)
    scopes := sent seen entity row (·.scopes) }
  id _ := rfl
  userId _ := rfl
  account _ := rfl

/-- What a code was exchanged for, and the handshake it was exchanged with, read at a time. -/
structure Exchange where
  pending : MetaOAuthState
  time : Nat
  connection : MetaConnection

def Exchange.account (exchange : Exchange) : UuidText × String :=
  (exchange.pending.workspaceId, exchange.connection.accountId)

def Exchange.change (exchange : Exchange) : Assignment :=
  connected exchange.connection exchange.pending.accessLevel

def Exchange.created (exchange : Exchange) (drawn : DrawnIntegration) : Integration :=
  exchange.change.assign
    (createConnection exchange.pending.workspaceId exchange.pending.userId exchange.connection.accountId
      drawn)

/-! The machine -/

inductive Phase where
  | waiting
  | read (raw : String) (time : Nat)
  | consumed (pending : MetaOAuthState) (time : Nat)
  | exchanged (exchange : Exchange)
  | absent (exchange : Exchange)
  | loaded (existing : Integration) (exchange : Exchange)
  | saving (entity : Integration) (seen : Option Integration) (exchange : Exchange)
  | ended

/-- `keys` has the key of every row there has been. -/
structure State where
  now : Nat
  redis : String → Option TextCache.Entry
  started : List (Nat × Nat)
  phase : Nat → Phase
  table : IntegrationTable
  keys : UuidText → Option Key

def start (now : Nat) (table : IntegrationTable) : State where
  now := now
  redis := fun _ => none
  started := []
  phase := fun _ => .waiting
  table := table
  keys := fun id => (table.rows.find? fun row => row.id == id).map keyOf

/-- A statement of the rest of the service. -/
inductive Other where
  | edit (id : UuidText) (change : Assignment)
  | remove (id : UuidText)
  | insert (row : Integration)

inductive Act where
  | wait (clock : Nat)
  | start (i : Nat)
  | evict (key : String)
  | other (statement : Other)
  | get (call : Nat) (reached : Bool)
  | del (call : Nat) (completion : Completion)
  | exchange (call : Nat) (me : Option GraphUser) (drawn : String)
  | find (call : Nat) (reached : Bool)
  | insert (call : Nat) (drawn : DrawnIntegration) (completion : Completion)
  | reread (call : Nat) (reached : Bool)
  | update (call : Nat) (completion : Completion)

/-- The call whose save may change the table. -/
def Act.save? : Act → Option Nat
  | .insert call _ _ => some call
  | .update call _ => some call
  | _ => none

def State.at (s : State) (call : Nat) (phase : Phase) : State :=
  { s with phase := Function.update s.phase call phase }

def State.insert (s : State) (row : Integration) : State :=
  match s.table.insert row with
  | .ok table => { s with table := table, keys := Function.update s.keys row.id (some (keyOf row)) }
  | .error _ => s

/-- An id that was drawn is new; a save brings a row that is gone back with its key. -/
def State.others (s : State) : Other → Option State
  | .edit id change => some { s with table := s.table.save id change }
  | .remove id => some { s with table := s.table.remove id }
  | .insert row =>
    if s.keys row.id = none ∨ s.keys row.id = some (keyOf row) then some (s.insert row) else none

/-- The statement that a save sends after it has read the row again. -/
def State.save (s : State) (entity : Integration) : Option Integration → State
  | some seen => { s with table := s.table.save entity.id (updated seen entity) }
  | none => s.insert entity

section
variable (redeem : Nat → String → String → Option MetaTokenSet) (starts : Nat → Start)
  (calls : Nat → Callback)

/-- `redeem` is what Meta's token endpoint answers a call, for a code and a verifier. -/
def step (s : State) : Act → Option State
  | .wait clock => if s.now ≤ clock then some { s with now := clock } else none
  | .start i =>
    if i ∈ s.started.map Prod.fst then none
    else
      some { s with
        redis := Function.update s.redis (stateKey (starts i).state)
          (some ⟨stateText (starts i).pending, s.now + stateTtl⟩)
        started := (i, s.now) :: s.started }
  | .evict key => some { s with redis := Function.update s.redis key none }
  | .other statement => s.others statement
  | .get call reached =>
    match s.phase call with
    | .waiting =>
      let found := (s.redis (stateKey (calls call).state)).filter fun entry =>
        reached && decide (s.now < entry.expiresAt)
      match found with
      | none => some (s.at call .ended)
      | some entry => some (s.at call (.read entry.text s.now))
    | _ => none
  | .del call completion =>
    match s.phase call with
    | .read raw time =>
      let deleted := { s with redis := Function.update s.redis (stateKey (calls call).state) none }
      match completion, readState raw with
      | .executed, some pending => some (deleted.at call (.consumed pending time))
      | .refused, _ => some (s.at call .ended)
      | _, _ => some (deleted.at call .ended)
    | _ => none
  | .exchange call me drawn =>
    match s.phase call with
    | .consumed pending time =>
      match redeem call (calls call).code pending.codeVerifier with
      | none => some (s.at call .ended)
      | some tokens => some (s.at call (.exchanged ⟨pending, time, exchangeCode tokens me drawn⟩))
    | _ => none
  | .find call reached =>
    match s.phase call with
    | .exchanged exchange =>
      if reached then
        match s.table.findAccount exchange.pending.workspaceId exchange.connection.accountId with
        | none => some (s.at call (.absent exchange))
        | some existing => some (s.at call (.loaded existing exchange))
      else some (s.at call .ended)
    | _ => none
  | .insert call drawn completion =>
    match s.phase call with
    | .absent exchange =>
      if completion = .refused then some (s.at call .ended)
      else if s.keys drawn.id = none then some ((s.insert (exchange.created drawn)).at call .ended)
      else none
    | _ => none
  | .reread call reached =>
    match s.phase call with
    | .loaded existing exchange =>
      let seen := s.table.rows.find? fun row => row.id == existing.id
      if reached then some (s.at call (.saving (exchange.change.assign existing) seen exchange))
      else some (s.at call .ended)
    | _ => none
  | .update call completion =>
    match s.phase call with
    | .saving entity seen _ =>
      if completion = .refused then some (s.at call .ended)
      else some ((s.save entity seen).at call .ended)
    | _ => none

abbrev Step (s : State) (a : Act) (t : State) : Prop := step redeem starts calls s a = some t

end

/-! What a save does -/

/-- A handshake that a member started under the state of the call, less than ten minutes before it
was read. -/
structure Began (starts : Nat → Start) (state : String) (pending : MetaOAuthState) (time : Nat)
    (i began : Nat) : Prop where
  state : state = (starts i).state
  pending : pending = (starts i).pending
  before : began ≤ time
  young : time < began + stateTtl

/-- The column has what was granted, or what it had. -/
def Granted {α : Type} (table : IntegrationTable) (row : Integration) (column : Integration → α)
    (value : α) : Prop :=
  column row = value ∨ ∃ old ∈ table.rows, old.id = row.id ∧ column row = column old

/-- A row as a call has saved it: of the workspace of its handshake and the account it was granted.
A row with a new id is the member's, another one stays its owner's. -/
structure Connected (exchange : Exchange) (s : State) (row : Integration) : Prop where
  account : row.account = some exchange.account
  owner : row.userId = ((s.keys row.id).map (·.userId)).getD exchange.pending.userId
  provider : Granted s.table row (·.provider) .metaAds
  accessLevel : Granted s.table row (·.accessLevel) exchange.pending.accessLevel
  accessToken : Granted s.table row (·.accessToken) (some exchange.connection.accessToken)
  refreshToken : Granted s.table row (·.refreshToken) exchange.connection.refreshToken
  tokenExpiresAt : Granted s.table row (·.tokenExpiresAt) exchange.connection.expiresAt
  scopes : Granted s.table row (·.scopes) exchange.connection.scopes

structure Saved (exchange : Exchange) (s t : State) : Prop where
  rows : ∀ row ∈ t.table.rows, row ∈ s.table.rows ∨ Connected exchange s row
  kept : ∀ old ∈ s.table.rows, ∃ row ∈ t.table.rows, row.id = old.id

section
variable {s : State} {exchange : Exchange}

theorem State.insert_table (s : State) (row : Integration) :
    (s.insert row).table = s.table ∨ (s.insert row).table.rows = s.table.rows ++ [row] ∧
      (s.insert row).keys = Function.update s.keys row.id (some (keyOf row)) := by
  unfold State.insert
  split
  · rename_i table inserted
    exact .inr ⟨insert_rows inserted, rfl⟩
  · exact .inl rfl

theorem saved_insert {row : Integration} (connected : Connected exchange s row) :
    (s.insert row).table = s.table ∨ Saved exchange s (s.insert row) := by
  refine (s.insert_table row).imp_right fun ⟨rows, _⟩ => ?_
  constructor
  · intro other stored
    rw [rows] at stored
    refine (List.mem_append.mp stored).imp_right fun new => ?_
    rwa [List.mem_singleton.mp new]
  · intro old stored
    exact ⟨old, rows ▸ List.mem_append_left _ stored, rfl⟩

theorem connected_created {drawn : DrawnIntegration} (fresh : s.keys drawn.id = none) :
    Connected exchange s (exchange.created drawn) where
  account := rfl
  owner := by
    change _ = ((s.keys drawn.id).map (·.userId)).getD _
    rw [fresh]
    rfl
  provider := .inl rfl
  accessLevel := .inl rfl
  accessToken := .inl rfl
  refreshToken := .inl rfl
  tokenExpiresAt := .inl rfl
  scopes := .inl rfl

/-- The entity of a call that found a row. -/
structure Found (exchange : Exchange) (s : State) (entity existing : Integration) : Prop where
  entity : entity = exchange.change.assign existing
  key : s.keys existing.id = some (keyOf existing)
  account : existing.account = some exchange.account

theorem connected_found {entity existing : Integration} (found : Found exchange s entity existing) :
    Connected exchange s entity := by
  obtain ⟨rfl, key, account⟩ := found
  refine ⟨account, ?_, .inl rfl, .inl rfl, .inl rfl, .inl rfl, .inl rfl, .inl rfl⟩
  change existing.userId = ((s.keys existing.id).map (·.userId)).getD _
  rw [key]
  rfl

theorem sent_or {α : Type} [DecidableEq α] (seen entity row : Integration)
    (column : Integration → α) :
    sent seen entity row column = column entity ∨ sent seen entity row column = column row := by
  unfold sent
  split
  · exact .inr rfl
  · exact .inl rfl

theorem saved_update {entity existing seen : Integration} (found : Found exchange s entity existing)
    (keyed : ∀ row ∈ s.table.rows, s.keys row.id = some (keyOf row)) :
    Saved exchange s (s.save entity (some seen)) := by
  constructor
  · intro row stored
    obtain ⟨old, there, rfl⟩ := List.mem_map.mp stored
    by_cases own : old.id = entity.id
    swap
    · rw [if_neg own]
      exact .inl there
    rw [if_pos own]
    obtain ⟨rfl, key, account⟩ := found
    have same : keyOf old = keyOf existing := by
      have known := keyed old there
      rw [own] at known
      exact Option.some.inj (known.symm.trans key)
    have granted {α : Type} [DecidableEq α] (column : Integration → α)
        (assigned : column ((updated seen (exchange.change.assign existing)).assign old) =
          sent seen (exchange.change.assign existing) old column) :
        Granted s.table ((updated seen (exchange.change.assign existing)).assign old) column
          (column (exchange.change.assign existing)) :=
      (sent_or seen (exchange.change.assign existing) old column).imp assigned.trans fun kept =>
        ⟨old, there, rfl, assigned.trans kept⟩
    refine .inr ⟨(congrArg Key.account same).trans account, ?_, granted (·.provider) rfl,
      granted (·.accessLevel) rfl, granted (·.accessToken) rfl, granted (·.refreshToken) rfl,
      granted (·.tokenExpiresAt) rfl, granted (·.scopes) rfl⟩
    change old.userId = ((s.keys old.id).map (·.userId)).getD _
    rw [keyed old there]
    rfl
  · intro old stored
    refine ⟨_, List.mem_map_of_mem stored, ?_⟩
    split
    · exact (updated seen entity).id old
    · rfl

end

/-! What the calls know -/

section
variable (redeem : Nat → String → String → Option MetaTokenSet) (starts : Nat → Start)
  (calls : Nat → Callback)

def Read (s : State) (call : Nat) (pending : MetaOAuthState) (time : Nat) : Prop :=
  ∃ i began, (i, began) ∈ s.started ∧ Began starts (calls call).state pending time i began

structure Exchanged (s : State) (call : Nat) (exchange : Exchange) : Prop where
  read : Read starts calls s call exchange.pending exchange.time
  tokens : redeem call (calls call).code exchange.pending.codeVerifier =
    some exchange.connection.toMetaTokenSet

/-- What a call knows between its steps. -/
def Knows (s : State) (call : Nat) : Phase → Prop
  | .read raw time => ∃ pending, raw = stateText pending ∧ Read starts calls s call pending time
  | .consumed pending time => Read starts calls s call pending time
  | .exchanged exchange => Exchanged redeem starts calls s call exchange
  | .absent exchange => Exchanged redeem starts calls s call exchange
  | .loaded existing exchange => Exchanged redeem starts calls s call exchange ∧
      Found exchange s (exchange.change.assign existing) existing
  | .saving entity _ exchange => Exchanged redeem starts calls s call exchange ∧
      ∃ existing, Found exchange s entity existing
  | _ => True

def Stored (s : State) : Prop :=
  ∀ key entry, s.redis key = some entry → ∃ i began, (i, began) ∈ s.started ∧
    key = stateKey (starts i).state ∧ began ≤ s.now ∧
    entry = ⟨stateText (starts i).pending, began + stateTtl⟩

structure Inv (s : State) : Prop where
  stored : Stored starts s
  knows : ∀ call, Knows redeem starts calls s call (s.phase call)
  keyed : ∀ row ∈ s.table.rows, s.keys row.id = some (keyOf row)

end

section
variable {redeem : Nat → String → String → Option MetaTokenSet} {starts : Nat → Start}
  {calls : Nat → Callback} {s t : State}

/-- What is known stays known. -/
structure Grown (s t : State) : Prop where
  started : s.started ⊆ t.started
  keys : ∀ id key, s.keys id = some key → t.keys id = some key

theorem Grown.refl (s : State) : Grown s s := ⟨List.Subset.refl _, fun _ _ known => known⟩

theorem Read.mono {call : Nat} {pending : MetaOAuthState} {time : Nat} (grown : Grown s t)
    (read : Read starts calls s call pending time) : Read starts calls t call pending time := by
  obtain ⟨i, began, listed, rest⟩ := read
  exact ⟨i, began, grown.started listed, rest⟩

theorem Exchanged.mono {call : Nat} {exchange : Exchange} (grown : Grown s t)
    (exchanged : Exchanged redeem starts calls s call exchange) :
    Exchanged redeem starts calls t call exchange :=
  ⟨exchanged.read.mono grown, exchanged.tokens⟩

theorem Found.mono {exchange : Exchange} {entity existing : Integration} (grown : Grown s t)
    (found : Found exchange s entity existing) : Found exchange t entity existing :=
  ⟨found.entity, grown.keys _ _ found.key, found.account⟩

theorem Knows.mono {call : Nat} {phase : Phase} (grown : Grown s t)
    (knows : Knows redeem starts calls s call phase) : Knows redeem starts calls t call phase := by
  cases phase with
  | read raw time =>
    obtain ⟨pending, same, read⟩ := knows
    exact ⟨pending, same, read.mono grown⟩
  | consumed pending time => exact Read.mono grown knows
  | exchanged exchange => exact Exchanged.mono grown knows
  | absent exchange => exact Exchanged.mono grown knows
  | loaded existing exchange => exact ⟨knows.1.mono grown, knows.2.mono grown⟩
  | saving entity seen exchange =>
    obtain ⟨exchanged, existing, found⟩ := knows
    exact ⟨exchanged.mono grown, existing, found.mono grown⟩
  | waiting => trivial
  | ended => trivial

/-- A step that moves no call. -/
theorem Inv.grow (inv : Inv redeem starts calls s) (grown : Grown s t) (phase : t.phase = s.phase)
    (stored : Stored starts t) (keyed : ∀ row ∈ t.table.rows, t.keys row.id = some (keyOf row)) :
    Inv redeem starts calls t where
  stored := stored
  knows call := by
    rw [phase]
    exact (inv.knows call).mono grown
  keyed := keyed

/-- A call comes to a phase. -/
theorem Inv.move (inv : Inv redeem starts calls s) {call : Nat} (phase : Phase)
    (knows : Knows redeem starts calls s call phase) : Inv redeem starts calls (s.at call phase) where
  stored := inv.stored
  knows other := by
    have grown : Grown s (s.at call phase) := ⟨(Grown.refl s).started, (Grown.refl s).keys⟩
    by_cases same : other = call
    · subst same
      have here : (s.at other phase).phase other = phase := Function.update_self ..
      rw [here]
      exact knows.mono grown
    · have there : (s.at call phase).phase other = s.phase other := Function.update_of_ne same ..
      rw [there]
      exact (inv.knows other).mono grown
  keyed := inv.keyed

theorem Inv.stop (inv : Inv redeem starts calls s) (call : Nat) :
    Inv redeem starts calls (s.at call .ended) := inv.move .ended True.intro

theorem inv_start (now : Nat) (table : IntegrationTable) :
    Inv redeem starts calls (start now table) where
  stored := fun _ _ absent => nomatch absent
  knows := fun _ => True.intro
  keyed _ stored := congrArg (Option.map keyOf) (find_id stored)

theorem Stored.delete (stored : Stored starts s) (key : String) :
    Stored starts { s with redis := Function.update s.redis key none } := by
  intro other entry held
  by_cases own : other = key
  · subst own
    simp at held
  · exact stored other entry (by simpa [Function.update_of_ne own] using held)

/-- An `INSERT` of a row whose id is new, or known with the same key. -/
theorem Inv.insert (inv : Inv redeem starts calls s) (row : Integration)
    (free : s.keys row.id = none ∨ s.keys row.id = some (keyOf row)) :
    Inv redeem starts calls (s.insert row) := by
  unfold State.insert
  split
  swap
  · exact inv
  rename_i table inserted
  have known : ∀ id key, s.keys id = some key →
      Function.update s.keys row.id (some (keyOf row)) id = some key := by
    intro id key held
    by_cases own : id = row.id
    · subst own
      rw [Function.update_self]
      rcases free with none | same
      · exact nomatch none.symm.trans held
      · exact same.symm.trans held
    · rwa [Function.update_of_ne own]
  refine inv.grow ⟨List.Subset.refl _, known⟩ rfl inv.stored fun other stored => ?_
  have stored : other ∈ table.rows := stored
  rw [insert_rows inserted] at stored
  rcases List.mem_append.mp stored with old | new
  · exact known _ _ (inv.keyed other old)
  · rw [List.mem_singleton.mp new]
    exact Function.update_self ..

/-- An `UPDATE` of one row. -/
theorem Inv.edit (inv : Inv redeem starts calls s) (id : UuidText) (change : Assignment) :
    Inv redeem starts calls { s with table := s.table.save id change } := by
  refine inv.grow ⟨(Grown.refl s).started, (Grown.refl s).keys⟩ rfl inv.stored fun row stored => ?_
  obtain ⟨old, there, rfl⟩ := List.mem_map.mp stored
  have known : s.keys old.id = some (keyOf old) := inv.keyed old there
  split
  · change s.keys (change.assign old).id = _
    rw [change.id, keyOf_assign]
    exact known
  · exact known

theorem Inv.other {statement : Other} (inv : Inv redeem starts calls s)
    (taken : s.others statement = some t) : Inv redeem starts calls t := by
  cases statement with
  | edit id change =>
    cases taken
    exact inv.edit id change
  | remove id =>
    cases taken
    refine inv.grow ⟨(Grown.refl s).started, (Grown.refl s).keys⟩ rfl inv.stored fun row stored => ?_
    exact inv.keyed row (List.mem_filter.mp stored).1
  | insert row =>
    obtain ⟨free, same⟩ := Option.ite_none_right_eq_some.mp taken
    cases same
    exact inv.insert row free

theorem Found.free {exchange : Exchange} {entity existing : Integration}
    (found : Found exchange s entity existing) : s.keys entity.id = some (keyOf entity) := by
  obtain ⟨rfl, key, -⟩ := found
  rw [exchange.change.id, keyOf_assign]
  exact key

theorem Inv.save {exchange : Exchange} {entity existing : Integration} {seen : Option Integration}
    (inv : Inv redeem starts calls s) (found : Found exchange s entity existing) :
    Inv redeem starts calls (s.save entity seen) := by
  cases seen with
  | some seen => exact inv.edit entity.id (updated seen entity)
  | none => exact inv.insert entity (.inr found.free)

theorem saved_save {exchange : Exchange} {entity existing : Integration} {seen : Option Integration}
    (inv : Inv redeem starts calls s) (found : Found exchange s entity existing) :
    (s.save entity seen).table = s.table ∨ Saved exchange s (s.save entity seen) := by
  cases seen with
  | some seen => exact .inr (saved_update found inv.keyed)
  | none => exact saved_insert (connected_found found)

/-- The text that a call reads. -/
theorem Inv.found (inv : Inv redeem starts calls s) {call : Nat} {entry : TextCache.Entry}
    {reached : Bool} (found : ((s.redis (stateKey (calls call).state)).filter fun entry =>
      reached && decide (s.now < entry.expiresAt)) = some entry) :
    Knows redeem starts calls s call (.read entry.text s.now) := by
  obtain ⟨held, live⟩ := Option.filter_eq_some_iff.mp found
  obtain ⟨i, began, listed, key, order, rfl⟩ := inv.stored _ _ held
  have young : s.now < began + stateTtl := of_decide_eq_true (Bool.and_eq_true_iff.mp live).2
  exact ⟨(starts i).pending, rfl, i, began, listed, (String.append_right_inj _).mp key, rfl, order,
    young⟩

/-- A change of the table is one of the rest of the service, or a save of a call that has had its
code exchanged. -/
def Lawful (redeem : Nat → String → String → Option MetaTokenSet) (starts : Nat → Start)
    (calls : Nat → Callback) (s : State) (a : Act) (t : State) : Prop :=
  (∃ statement, a = .other statement) ∨ t.table = s.table ∨
    ∃ call exchange, a.save? = some call ∧ Exchanged redeem starts calls s call exchange ∧
      Saved exchange s t

theorem Inv.step {a : Act} (inv : Inv redeem starts calls s) (taken : Step redeem starts calls s a t) :
    Inv redeem starts calls t ∧ Lawful redeem starts calls s a t := by
  have idle := Grown.refl s
  cases a with
  | wait clock =>
    obtain ⟨later, same⟩ := Option.ite_none_right_eq_some.mp taken
    cases same
    refine ⟨inv.grow ⟨idle.started, idle.keys⟩ rfl (fun key entry held => ?_) inv.keyed,
      .inr (.inl rfl)⟩
    obtain ⟨i, began, listed, same, order, shape⟩ := inv.stored key entry held
    exact ⟨i, began, listed, same, Nat.le_trans order later, shape⟩
  | start i =>
    obtain ⟨-, same⟩ := Option.ite_none_left_eq_some.mp taken
    cases same
    refine ⟨inv.grow ⟨List.subset_cons_self _ _, idle.keys⟩ rfl (fun key entry held => ?_) inv.keyed,
      .inr (.inl rfl)⟩
    by_cases own : key = stateKey (starts i).state
    · subst own
      simp only [Function.update_self, Option.some.injEq] at held
      exact ⟨i, s.now, List.mem_cons_self, rfl, Nat.le_refl _, held.symm⟩
    · obtain ⟨j, began, listed, rest⟩ :=
        inv.stored key entry (by simpa [Function.update_of_ne own] using held)
      exact ⟨j, began, List.mem_cons_of_mem _ listed, rest⟩
  | evict gone =>
    cases taken
    exact ⟨inv.grow ⟨idle.started, idle.keys⟩ rfl (inv.stored.delete gone) inv.keyed, .inr (.inl rfl)⟩
  | other statement => exact ⟨inv.other taken, .inl ⟨statement, rfl⟩⟩
  | get call reached =>
    simp only [Step, MetaHandshake.step] at taken
    split at taken
    · split at taken
      · cases taken
        exact ⟨inv.stop call, .inr (.inl rfl)⟩
      · rename_i entry found
        cases taken
        exact ⟨inv.move (.read entry.text s.now) (inv.found found), .inr (.inl rfl)⟩
    · cases taken
  | del call completion =>
    simp only [Step, MetaHandshake.step] at taken
    split at taken
    swap
    · cases taken
    rename_i raw time before
    have knows := inv.knows call
    rw [before] at knows
    obtain ⟨pending, rfl, read⟩ := knows
    have deleted : Inv redeem starts calls
        { s with redis := Function.update s.redis (stateKey (calls call).state) none } :=
      inv.grow ⟨idle.started, idle.keys⟩ rfl (inv.stored.delete _) inv.keyed
    rw [readState_stateText] at taken
    cases completion with
    | executed =>
      cases taken
      exact ⟨deleted.move (.consumed pending time) read, .inr (.inl rfl)⟩
    | refused =>
      cases taken
      exact ⟨inv.stop call, .inr (.inl rfl)⟩
    | unanswered =>
      cases taken
      exact ⟨deleted.stop call, .inr (.inl rfl)⟩
  | exchange call me drawn =>
    simp only [Step, MetaHandshake.step] at taken
    split at taken
    swap
    · cases taken
    rename_i pending time before
    have read := inv.knows call
    rw [before] at read
    split at taken
    · cases taken
      exact ⟨inv.stop call, .inr (.inl rfl)⟩
    · rename_i tokens redeemed
      cases taken
      exact ⟨inv.move (.exchanged _) ⟨read, redeemed⟩, .inr (.inl rfl)⟩
  | find call reached =>
    simp only [Step, MetaHandshake.step] at taken
    split at taken
    swap
    · cases taken
    rename_i exchange before
    have exchanged := inv.knows call
    rw [before] at exchanged
    split at taken
    · split at taken
      · cases taken
        exact ⟨inv.move (.absent exchange) exchanged, .inr (.inl rfl)⟩
      · rename_i existing found
        cases taken
        obtain ⟨stored, account⟩ := findAccount_some found
        exact ⟨inv.move (.loaded existing exchange)
          ⟨exchanged, rfl, inv.keyed existing stored, account⟩, .inr (.inl rfl)⟩
    · cases taken
      exact ⟨inv.stop call, .inr (.inl rfl)⟩
  | insert call drawn completion =>
    simp only [Step, MetaHandshake.step] at taken
    split at taken
    swap
    · cases taken
    rename_i exchange before
    have exchanged := inv.knows call
    rw [before] at exchanged
    split at taken
    · cases taken
      exact ⟨inv.stop call, .inr (.inl rfl)⟩
    obtain ⟨fresh, same⟩ := Option.ite_none_right_eq_some.mp taken
    cases same
    refine ⟨(inv.insert (exchange.created drawn) (.inl fresh)).stop call, .inr ?_⟩
    exact (saved_insert (connected_created fresh)).imp_right fun saved =>
      ⟨call, exchange, rfl, exchanged, saved.rows, saved.kept⟩
  | reread call reached =>
    simp only [Step, MetaHandshake.step] at taken
    split at taken
    swap
    · cases taken
    rename_i existing exchange before
    have knows := inv.knows call
    rw [before] at knows
    split at taken
    · cases taken
      exact ⟨inv.move (.saving _ _ exchange) ⟨knows.1, existing, knows.2⟩, .inr (.inl rfl)⟩
    · cases taken
      exact ⟨inv.stop call, .inr (.inl rfl)⟩
  | update call completion =>
    simp only [Step, MetaHandshake.step] at taken
    split at taken
    swap
    · cases taken
    rename_i entity seen exchange before
    have knows := inv.knows call
    rw [before] at knows
    obtain ⟨exchanged, existing, found⟩ := knows
    split at taken
    · cases taken
      exact ⟨inv.stop call, .inr (.inl rfl)⟩
    · cases taken
      refine ⟨(inv.save found).stop call, .inr ?_⟩
      exact (saved_save inv found).imp_right fun saved =>
        ⟨call, exchange, rfl, exchanged, saved.rows, saved.kept⟩

end

/-- What a call was granted: the tokens are those of its own code, which was issued on the consent
page of the handshake that the call names, and of no other. -/
structure Own (challengeOf : String → Option String) (s256 : String → String)
    (redeem : Nat → String → String → Option MetaTokenSet) (starts : Nat → Start)
    (started : List (Nat × Nat)) (call : Nat) (callback : Callback) (exchange : Exchange)
    (i began : Nat) : Prop where
  listed : (i, began) ∈ started
  began : Began starts callback.state exchange.pending exchange.time i began
  tokens : redeem call callback.code exchange.pending.codeVerifier =
    some exchange.connection.toMetaTokenSet
  challenge : ∀ j ∈ started.map Prod.fst,
    challengeOf callback.code = some (s256 (starts j).pending.codeVerifier) ↔ j = i

section
variable {challengeOf : String → Option String} {s256 : String → String}
  {redeem : Nat → String → String → Option MetaTokenSet} {starts : Nat → Start}
  {calls : Nat → Callback} {s : State}

end

/-! A callback that nothing comes between -/

section
variable {redeem : Nat → String → String → Option MetaTokenSet} {starts : Nat → Start}
  {calls : Nat → Callback} {s : State}

/-- The state after a callback: its handshake is gone, and the table is as the upsert leaves it. -/
def State.after (s : State) (key : String) (call : Nat) (table : IntegrationTable)
    (keys : UuidText → Option Key) : State :=
  { s with
    redis := Function.update s.redis key none
    phase := Function.update s.phase call .ended
    table := table
    keys := keys }

end

/-! Ada connects an account for the team, then Bo the same one for himself: the row stays Ada's -/

def acmeId : UuidText := ⟨"55555555-5555-4555-8555-555555555555", by decide⟩
def adaId : UuidText := ⟨"66666666-6666-4666-8666-666666666666", by decide⟩
def boId : UuidText := ⟨"99999999-9999-4999-8999-999999999999", by decide⟩
def rowId : UuidText := ⟨"44444444-4444-4444-8444-444444444444", by decide⟩

def adaVerifier : String := "dBjftJeZ4CVP-mB92K27uhbUJU1p1r_wW1gFWFOEjXk"
def boVerifier : String := "3fKq0sX8mZ1vT7bR5nYd2cWgHjLpQxUeAi4oSy9tVwE"

def startAt : Nat → Start
  | 0 => ⟨"ada-state", acmeId, adaId, .team, adaVerifier⟩
  | _ => ⟨"bo-state", acmeId, boId, .ownerOnly, boVerifier⟩

end Gomer.MetaHandshake
