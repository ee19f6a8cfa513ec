import Gomer.Lib.Tenant
import Gomer.Spaces.Records

/-! The rows of one Space among those of all: what a request with a session of the Space
answers, and what it changes. -/
namespace Gomer

open Jwt (Claim Signed)
open HttpException

def ownSpace (id : UuidText) (space : Space) : Bool := space.id == id

def ownRecord (id : UuidText) (row : SpaceRecord) : Bool := row.spaceId == id

namespace SpaceDatabase

variable (db : SpaceDatabase) (id : UuidText)

/-- The tables with the rows of one Space only. -/
def restrict : SpaceDatabase where
  spaces := Tenant.inside (ownSpace id) db.spaces
  records := Tenant.inside (ownRecord id) db.records
  slugKey := db.slugKey.sublist (List.filter_sublist.map _)
  recordKey := db.recordKey.sublist (List.filter_sublist.map _)

/-- The tables without the rows of that Space. -/
def others : SpaceDatabase where
  spaces := Tenant.outside (ownSpace id) db.spaces
  records := Tenant.outside (ownRecord id) db.records
  slugKey := db.slugKey.sublist (List.filter_sublist.map _)
  recordKey := db.recordKey.sublist (List.filter_sublist.map _)

/-- Whether the slug is the one of a published Space, whosever it is. -/
def publishes (slug : String) : Bool :=
  db.spaces.any fun space => space.slug == slug && space.status == .published

end SpaceDatabase

/-- With a session of the Space, a request answers from the Space's own rows and from whether
its slug is in use, changes no row of another Space, and does nothing where the slug does not
lead to the Space. -/
structure Isolated (service : AuthService) (postgres : Postgres) (id : UuidText) (token : Signed) :
    Prop where
  response : ∀ (db db' : SpaceDatabase) (request : SpaceRequest) (generated : Generated) (now : Int),
    request.token = some token → db.restrict id = db'.restrict id →
    db.publishes request.slug = db'.publishes request.slug →
    generated.id ∉ db.records.map (·.id) → generated.id ∉ db'.records.map (·.id) →
    (handleSpaceRequest service postgres db request generated now).2 =
        (handleSpaceRequest service postgres db' request generated now).2 ∧
      (handleSpaceRequest service postgres db request generated now).1.restrict id =
        (handleSpaceRequest service postgres db' request generated now).1.restrict id
  others : ∀ (db : SpaceDatabase) (request : SpaceRequest) (generated : Generated) (now : Int),
    request.token = some token →
    (handleSpaceRequest service postgres db request generated now).1.others id = db.others id
  foreign : ∀ (db : SpaceDatabase) (request : SpaceRequest) (generated : Generated) (now : Int),
    request.token = some token →
    (∀ space, findPublishedBySlug postgres db request.slug = .ok space → space.id ≠ id) →
    (handleSpaceRequest service postgres db request generated now).1 = db ∧
      ∃ e, (handleSpaceRequest service postgres db request generated now).2 = .error e

/-! Operations keyed on the Space -/

/-- An operation that answers and writes the same where the tables hold the Space's rows only,
provided that the key it draws is a new one, and that leaves the rows of the others. -/
structure KeyedOn {α : Type} (id key : UuidText) (db : SpaceDatabase)
    (op : SpaceDatabase → SpaceDatabase × α) : Prop where
  own : key ∉ db.records.map (·.id) → op (db.restrict id) = ((op db).1.restrict id, (op db).2)
  others : (op db).1.others id = db.others id

namespace KeyedOn

variable {α β : Type} {id key : UuidText} {db db' : SpaceDatabase}
  {op : SpaceDatabase → SpaceDatabase × α}

theorem read {f : SpaceDatabase → α} (same : f (db.restrict id) = f db) :
    KeyedOn id key db fun db => (db, f db) where
  own _ := by rw [same]
  others := rfl

theorem fails (result : α) : KeyedOn id key db fun db => (db, result) := read rfl

theorem answers (keyed : KeyedOn id key db op) (f : α → β) :
    KeyedOn id key db fun db => ((op db).1, f (op db).2) where
  own new := by
    dsimp only
    rw [keyed.own new]
  others := keyed.others

theorem two_runs (first : KeyedOn id key db op) (second : KeyedOn id key db' op)
    (same : db.restrict id = db'.restrict id) (new : key ∉ db.records.map (·.id))
    (new' : key ∉ db'.records.map (·.id)) :
    (op db).2 = (op db').2 ∧ (op db).1.restrict id = (op db').1.restrict id := by
  have equal := first.own new
  rw [same, second.own new'] at equal
  exact ⟨(congrArg (·.2) equal).symm, (congrArg (·.1) equal).symm⟩

end KeyedOn

/-! The store -/

section
variable {db : SpaceDatabase} {id : UuidText}

theorem insertRecord_new {row : SpaceRecord} (new : row.id ∉ db.records.map (·.id)) :
    ∃ next, db.insertRecord row = .ok next ∧ next.spaces = db.spaces ∧
      next.records = db.records ++ [row] :=
  ⟨_, dif_pos new, rfl, rfl⟩

theorem insertRecord_taken {row : SpaceRecord} (taken : ¬ row.id ∉ db.records.map (·.id)) :
    db.insertRecord row = .error internalServerError := dif_neg taken

theorem restrict_new {key : UuidText} (new : key ∉ db.records.map (·.id)) :
    key ∉ (db.restrict id).records.map (·.id) :=
  fun member => new ((List.filter_sublist.map _).subset member)

theorem inserted_restrict {row : SpaceRecord} {next narrowed : SpaceDatabase}
    (mine : row.spaceId = id) (spaces : next.spaces = db.spaces)
    (records : next.records = db.records ++ [row])
    (spaces' : narrowed.spaces = (db.restrict id).spaces)
    (records' : narrowed.records = (db.restrict id).records ++ [row]) :
    narrowed = next.restrict id := by
  have own : ownRecord id row = true := by simp [ownRecord, mine]
  apply SpaceDatabase.ext
  · simp only [spaces', SpaceDatabase.restrict, spaces]
  · simp only [records', SpaceDatabase.restrict, records, Tenant.append_inside own]

theorem inserted_others {row : SpaceRecord} {next : SpaceDatabase} (mine : row.spaceId = id)
    (spaces : next.spaces = db.spaces) (records : next.records = db.records ++ [row]) :
    next.others id = db.others id := by
  have own : ownRecord id row = true := by simp [ownRecord, mine]
  apply SpaceDatabase.ext
  · simp only [SpaceDatabase.others, spaces]
  · simp only [SpaceDatabase.others, records, Tenant.append_outside own]

/-- The key of a record is unique, so an update by the key alone stays within its Space. -/
theorem setData_confined {record : SpaceRecord} (stored : record ∈ db.records)
    (mine : record.spaceId = id) (data : List (String × Json)) (now : Instant) :
    Tenant.Confined (ownRecord id) db.records fun row =>
      if row.id = record.id then { row with data, updatedAt := now } else row where
  others row member foreign := by
    refine if_neg fun same => ?_
    have equal : row = record := List.inj_on_of_nodup_map db.recordKey member stored same
    simp [ownRecord, equal, mine] at foreign
  keeps row _ own := by
    split
    · exact own
    · exact own

theorem setData_restrict {record : SpaceRecord} (stored : record ∈ db.records)
    (mine : record.spaceId = id) (data : List (String × Json)) (now : Instant) :
    (db.restrict id).setData record.id data now = (db.setData record.id data now).restrict id :=
  SpaceDatabase.ext rfl (Tenant.map_inside (setData_confined stored mine data now)).symm

theorem setData_others {record : SpaceRecord} (stored : record ∈ db.records)
    (mine : record.spaceId = id) (data : List (String × Json)) (now : Instant) :
    (db.setData record.id data now).others id = db.others id :=
  SpaceDatabase.ext rfl (Tenant.map_outside (setData_confined stored mine data now))

theorem deleteRecords_restrict (p : SpaceRecord → Bool) :
    (db.restrict id).deleteRecords p = (db.deleteRecords p).restrict id :=
  SpaceDatabase.ext rfl Tenant.remove_inside.symm

theorem deleteRecords_others {p : SpaceRecord → Bool}
    (keyed : ∀ row, p row = true → ownRecord id row = true) :
    (db.deleteRecords p).others id = db.others id :=
  SpaceDatabase.ext rfl (Tenant.remove_outside fun row kept => keyed row (by simpa using kept))

theorem setPageState_confined {p : Space → Bool} (keyed : ∀ row, p row = true → ownSpace id row = true)
    (next : List (String × Json) → List (String × Json)) :
    Tenant.Confined (ownSpace id) db.spaces fun row =>
      if p row then { row with pageState := next row.pageState } else row where
  others row _ foreign := by
    refine if_neg fun chosen => ?_
    rw [keyed row chosen] at foreign
    cases foreign
  keeps row _ own := by
    split
    · exact own
    · exact own

theorem setPageState_restrict {p : Space → Bool}
    (keyed : ∀ row, p row = true → ownSpace id row = true)
    (next : List (String × Json) → List (String × Json)) :
    (db.restrict id).setPageState p next = (db.setPageState p next).restrict id :=
  SpaceDatabase.ext (Tenant.map_inside (setPageState_confined keyed next)).symm rfl

theorem setPageState_others {p : Space → Bool}
    (keyed : ∀ row, p row = true → ownSpace id row = true)
    (next : List (String × Json) → List (String × Json)) :
    (db.setPageState p next).others id = db.others id :=
  SpaceDatabase.ext (Tenant.map_outside (setPageState_confined keyed next)) rfl

end

/-! The methods of the service, for the Space that the guard pinned -/

section
variable (postgres : Postgres) (db : SpaceDatabase) (space : Space) (key : UuidText)

theorem ofEntity_own {entity : EntitySpec} {row : SpaceRecord}
    (keyed : ofEntity space entity row = true) : ownRecord space.id row = true :=
  (Bool.and_eq_true_iff.mp keyed).1

theorem listRecords_keyed (entityName : String) :
    KeyedOn space.id key db fun db => (db, listRecords db space entityName) := by
  apply KeyedOn.read
  unfold listRecords
  congr 1
  funext entity
  have rows : (db.restrict space.id).records.filter (ofEntity space entity) =
      db.records.filter (ofEntity space entity) :=
    Tenant.filter_inside fun row => ofEntity_own space
  rw [rows]

theorem createRecord_keyed (entityName : String) (data : Json) (spaceUserId : Option String)
    (generated : Generated) :
    KeyedOn space.id generated.id db fun db =>
      createRecord postgres db space entityName data spaceUserId generated := by
  unfold createRecord
  cases entityOrFail space entityName with
  | error e => exact .fails (Except.error e)
  | ok entity =>
    dsimp only
    cases validateRecordData entity data with
    | error e => exact .fails (Except.error e.response)
    | ok clean =>
      dsimp only
      split
      · exact .fails (Except.error internalServerError)
      · let row : SpaceRecord := ⟨generated.id, space.id, entity.name, clean, spaceUserId,
          generated.now, generated.now⟩
        constructor
        · intro new
          obtain ⟨next, written, spaces, records⟩ := @insertRecord_new db row new
          obtain ⟨next', written', spaces', records'⟩ :=
            @insertRecord_new (db.restrict space.id) row (restrict_new new)
          rw [written, written', inserted_restrict rfl spaces records spaces' records']
        · by_cases new : generated.id ∉ db.records.map (·.id)
          · obtain ⟨next, written, spaces, records⟩ := @insertRecord_new db row new
            rw [written]
            exact inserted_others rfl spaces records
          · rw [@insertRecord_taken db row new]

theorem saveRecord_keyed {record : SpaceRecord} (stored : record ∈ db.records)
    (mine : record.spaceId = space.id) (clean : List (String × Json)) (now : Instant) :
    KeyedOn space.id key db fun db => saveRecord postgres db record clean now := by
  unfold saveRecord
  split
  · exact .fails (Except.error internalServerError)
  · split
    · exact .fails (Except.ok _)
    · constructor
      · intro _
        rw [setData_restrict stored mine]
      · exact setData_others stored mine clean now

theorem updateRecord_keyed (entityName recordId : String) (data : Json) (now : Instant) :
    KeyedOn space.id key db fun db =>
      updateRecord postgres db space entityName recordId data now := by
  unfold updateRecord findRecord
  cases entityOrFail space entityName with
  | error e => exact .fails (Except.error e)
  | ok entity =>
    dsimp only
    cases postgres.uuid recordId with
    | none => exact .fails (Except.error internalServerError)
    | some id =>
      dsimp only
      have search : (db.restrict space.id).records.find?
          (fun row => row.id == id && ofEntity space entity row) =
            db.records.find? fun row => row.id == id && ofEntity space entity row :=
        Tenant.find_inside fun row hit => ofEntity_own space (Bool.and_eq_true_iff.mp hit).2
      cases found : db.records.find? (fun row => row.id == id && ofEntity space entity row) with
      | none => constructor <;> simp only [search, found, implies_true]
      | some record =>
        have stored := List.mem_of_find?_eq_some found
        have mine : record.spaceId = space.id := by
          have hit := List.find?_some found
          simpa [ownRecord] using ofEntity_own space (Bool.and_eq_true_iff.mp hit).2
        cases validateRecordData entity data with
        | error e => constructor <;> simp only [search, found, implies_true]
        | ok clean =>
          have saved := saveRecord_keyed postgres db space key stored mine clean now
          constructor
          · simpa only [search, found] using saved.own
          · simpa only [found] using saved.others

theorem deleteRecord_keyed (entityName recordId : String) :
    KeyedOn space.id key db fun db => deleteRecord postgres db space entityName recordId := by
  unfold deleteRecord
  cases entityOrFail space entityName with
  | error e => exact .fails (Except.error e)
  | ok entity =>
    dsimp only
    cases postgres.uuid recordId with
    | none => exact .fails (Except.error internalServerError)
    | some id =>
      dsimp only
      have own : ∀ row : SpaceRecord, (row.id == id && ofEntity space entity row) = true →
          ownRecord space.id row = true :=
        fun row hit => ofEntity_own space (Bool.and_eq_true_iff.mp hit).2
      have search : (db.restrict space.id).records.any
          (fun row => row.id == id && ofEntity space entity row) =
            db.records.any fun row => row.id == id && ofEntity space entity row :=
        Tenant.any_inside own
      constructor
      · intro _
        rw [search]
        split
        · rw [deleteRecords_restrict]
        · rfl
      · split
        · exact deleteRecords_others own
        · rfl

theorem pageDocument_keyed : KeyedOn space.id key db fun db => (db, pageDocument db space) := by
  apply KeyedOn.read
  unfold pageDocument
  have search : (db.restrict space.id).spaces.find? (fun row => row.id == space.id) =
      db.spaces.find? fun row => row.id == space.id := Tenant.find_inside fun _ hit => hit
  rw [search]

theorem savePageState_keyed (name : String) (value : Json) :
    KeyedOn space.id key db fun db => savePageState postgres db space name value := by
  unfold savePageState
  split
  · exact .fails (Except.error (notFound "Page not found"))
  · cases validatePageStateEntry name value with
    | error e => exact .fails (Except.error e)
    | ok entry =>
      dsimp only
      split
      · exact .fails (Except.error internalServerError)
      · have own : ∀ row : Space, (row.id == space.id && decide (postgres.octetLength
            (nextPageState entry.1 entry.2 row.pageState) ≤ maxPageStateBytes)) = true →
              ownSpace space.id row = true := fun row fits => (Bool.and_eq_true_iff.mp fits).1
        have search : (db.restrict space.id).spaces.any _ = db.spaces.any _ :=
          Tenant.any_inside own
        constructor
        · intro _
          rw [search]
          split
          · rw [setPageState_restrict own]
          · rfl
        · split
          · exact setPageState_others own _
          · rfl

/-- Every route keeps to the Space. -/
theorem dispatch_keyed (spaceUser : AuthenticatedSpaceUser) (generated : Generated)
    (route : SpaceRoute) :
    KeyedOn space.id generated.id db fun db =>
      dispatch postgres db space spaceUser generated route := by
  cases route with
  | listRecords entity =>
    exact (listRecords_keyed db space generated.id entity).answers (Except.map SpaceResponse.records)
  | createRecord entity body =>
    simp only [dispatch]
    cases recordDataDto body with
    | error e => exact .fails (Except.error e)
    | ok data =>
      exact (createRecord_keyed postgres db space entity data _ generated).answers
        (Except.map SpaceResponse.record)
  | updateRecord entity recordId body =>
    simp only [dispatch]
    cases recordDataDto body with
    | error e => exact .fails (Except.error e)
    | ok data =>
      exact (updateRecord_keyed postgres db space generated.id entity recordId data
        generated.now).answers (Except.map SpaceResponse.record)
  | deleteRecord entity recordId =>
    exact (deleteRecord_keyed postgres db space generated.id entity recordId).answers
      (Except.map fun _ => SpaceResponse.success)
  | page => exact (pageDocument_keyed db space generated.id).answers (Except.map SpaceResponse.page)
  | savePageState body =>
    simp only [dispatch]
    cases pageStateDto body with
    | error e => exact .fails (Except.error e)
    | ok entry =>
      exact (savePageState_keyed postgres db space generated.id entry.1 entry.2).answers
        (Except.map fun _ => SpaceResponse.success)

end

/-! The guard -/

section
variable {service : AuthService} {postgres : Postgres} {db db' : SpaceDatabase} {id : UuidText}
  {user : SpaceUser} {iat now : Int} {token : Signed} {slug : String} {space : Space}
  {spaceUser : AuthenticatedSpaceUser}

theorem verifySession_minted (minted : service.issueSession id.text user iat = .ok token)
    (verified : service.verifySession token now = .ok spaceUser) :
    spaceUser.spaceId = some (.text id.text) := by
  unfold AuthService.issueSession at minted
  cases lifetime : service.seconds sessionTtl with
  | none => simp [lifetime] at minted
  | some ttl =>
    simp only [lifetime, Except.ok.injEq] at minted
    subst minted
    unfold AuthService.verifySession at verified
    split at verified
    · cases verified
    · rename_i payload accepted
      obtain ⟨_, _, rfl⟩ := Jwt.verify_eq_some_iff.mp accepted
      split at verified
      · cases verified
      · cases verified
        simp [Jwt.sign, spaceJwtPayload, Jwt.get?, List.lookup_cons]

theorem findPublishedBySlug_ok (found : findPublishedBySlug postgres db slug = .ok space) :
    space ∈ db.spaces ∧ space.slug = slug ∧ space.status = .published := by
  unfold findPublishedBySlug at found
  split at found
  · split at found
    · cases found
    · rename_i row hit
      cases found
      have query := List.find?_some hit
      simp only [Bool.and_eq_true, beq_iff_eq] at query
      exact ⟨List.mem_of_find?_eq_some hit, query⟩
  · cases found

/-- A slug leads to the Space in every database with the Space's rows. -/
theorem findPublishedBySlug_own (same : db.restrict id = db'.restrict id)
    (found : findPublishedBySlug postgres db slug = .ok space) (mine : space.id = id) :
    findPublishedBySlug postgres db' slug = .ok space := by
  obtain ⟨stored, named, live⟩ := findPublishedBySlug_ok found
  have inside : space ∈ (db.restrict id).spaces :=
    List.mem_filter.mpr ⟨stored, by simp [ownSpace, mine]⟩
  rw [same] at inside
  have stored' : space ∈ db'.spaces := (List.mem_filter.mp inside).1
  unfold findPublishedBySlug at found ⊢
  split at found
  · rename_i encodable
    cases hit : db'.spaces.find? fun row => row.slug == slug && row.status == .published with
    | none =>
      have missed := List.find?_eq_none.mp hit space stored'
      simp [named, live] at missed
    | some row =>
      have query := List.find?_some hit
      simp only [Bool.and_eq_true, beq_iff_eq] at query
      have equal : row = space := List.inj_on_of_nodup_map db'.slugKey
        (List.mem_of_find?_eq_some hit) stored' (query.1.trans named.symm)
      rw [equal, if_pos encodable]
  · cases found

theorem publishes_eq (db : SpaceDatabase) (slug : String) : db.publishes slug =
    (db.spaces.find? fun space => space.slug == slug && space.status == .published).isSome := by
  rw [Bool.eq_iff_iff, SpaceDatabase.publishes, List.any_eq_true, List.find?_isSome]

theorem findPublishedBySlug_error_iff {e : HttpException} :
    findPublishedBySlug postgres db slug = .error e ↔
      if postgres.encodable slug then db.publishes slug = false ∧ e = notFound "Space not found"
      else e = internalServerError := by
  rw [publishes_eq]
  unfold findPublishedBySlug
  split
  · cases db.spaces.find? fun row => row.slug == slug && row.status == .published with
    | none => simp [eq_comm]
    | some row => simp
  · simp [eq_comm]

/-- A slug in use leads to the same Space, or to foreign ones. -/
theorem findPublishedBySlug_same (same : db.restrict id = db'.restrict id)
    (used : db.publishes slug = db'.publishes slug) :
    findPublishedBySlug postgres db slug = findPublishedBySlug postgres db' slug ∨
      ∃ a b, findPublishedBySlug postgres db slug = .ok a ∧ a.id ≠ id ∧
        findPublishedBySlug postgres db' slug = .ok b ∧ b.id ≠ id := by
  cases first : findPublishedBySlug postgres db slug with
  | error e =>
    have refused := findPublishedBySlug_error_iff.mp first
    rw [used] at refused
    exact .inl (findPublishedBySlug_error_iff.mpr refused).symm
  | ok a =>
    cases second : findPublishedBySlug postgres db' slug with
    | error e =>
      have refused := findPublishedBySlug_error_iff.mp second
      rw [← used] at refused
      cases first.symm.trans (findPublishedBySlug_error_iff.mpr refused)
    | ok b =>
      by_cases mine : a.id = id
      · exact .inl ((findPublishedBySlug_own same first mine).symm.trans second)
      · by_cases mine' : b.id = id
        · exact .inl (first.symm.trans (findPublishedBySlug_own same.symm second mine'))
        · exact .inr ⟨a, b, rfl, mine, rfl, mine'⟩

/-- The guard lets through to the Space of the session only. -/
theorem canActivate_pins (minted : service.issueSession id.text user iat = .ok token)
    (passed : SpaceAuthGuard.canActivate service postgres db (some token) slug now =
      .ok (space, spaceUser)) :
    space.id = id ∧ findPublishedBySlug postgres db slug = .ok space := by
  unfold SpaceAuthGuard.canActivate at passed
  dsimp only at passed
  split at passed
  · cases passed
  · cases passed
  · rename_i session verified
    split at passed
    · cases passed
    · rename_i row found
      split at passed
      · cases passed
      · rename_i pinned
        cases passed
        have session := verifySession_minted minted verified
        have same := (not_not.mp pinned).trans session
        exact ⟨uuid_ext (Claim.text.inj (Option.some.inj same)), found⟩

/-- What the guard answers depends on the Space's rows and on the use of the slug. -/
theorem canActivate_same (minted : service.issueSession id.text user iat = .ok token)
    (same : db.restrict id = db'.restrict id) (used : db.publishes slug = db'.publishes slug) :
    SpaceAuthGuard.canActivate service postgres db (some token) slug now =
      SpaceAuthGuard.canActivate service postgres db' (some token) slug now := by
  unfold SpaceAuthGuard.canActivate
  dsimp only
  cases verified : service.verifySession token now with
  | error e => cases e <;> rfl
  | ok session =>
    dsimp only
    rcases @findPublishedBySlug_same postgres db db' id slug same used with
      equal | ⟨a, b, first, foreign, second, foreign'⟩
    · rw [equal]
    · have refused : ∀ space : Space, space.id ≠ id →
          some (Claim.text space.id.text) ≠ session.spaceId := by
        intro space foreign claimed
        have same := claimed.trans (verifySession_minted minted verified)
        exact foreign (uuid_ext (Claim.text.inj (Option.some.inj same)))
      rw [first, second]
      dsimp only
      rw [if_pos (refused a foreign), if_pos (refused b foreign')]

end

theorem spaces_isolated (service : AuthService) (postgres : Postgres) (id : UuidText)
    (user : SpaceUser) (iat : Int) (token : Signed)
    (minted : service.issueSession id.text user iat = .ok token) :
    Isolated service postgres id token := by
  constructor
  · intro db db' request generated now carried same used new new'
    have guard := @canActivate_same service postgres db db' id user iat now token request.slug
      minted same used
    unfold handleSpaceRequest
    rw [carried, guard]
    cases passed : SpaceAuthGuard.canActivate service postgres db' (some token) request.slug now with
    | error e => exact ⟨rfl, same⟩
    | ok pinned =>
      obtain ⟨rfl, _⟩ := canActivate_pins minted passed
      exact (dispatch_keyed postgres db pinned.1 pinned.2 generated request.route).two_runs
        (dispatch_keyed postgres db' pinned.1 pinned.2 generated request.route) same new new'
  · intro db request generated now carried
    unfold handleSpaceRequest
    rw [carried]
    cases passed : SpaceAuthGuard.canActivate service postgres db (some token) request.slug now with
    | error e => rfl
    | ok pinned =>
      obtain ⟨rfl, _⟩ := canActivate_pins minted passed
      exact (dispatch_keyed postgres db pinned.1 pinned.2 generated request.route).others
  · intro db request generated now carried elsewhere
    unfold handleSpaceRequest
    rw [carried]
    cases passed : SpaceAuthGuard.canActivate service postgres db (some token) request.slug now with
    | error e => exact ⟨rfl, e, rfl⟩
    | ok pinned =>
      obtain ⟨mine, found⟩ := canActivate_pins minted passed
      exact absurd mine (elsewhere pinned.1 found)

/-- Postgres as far as the requests of a page need it. -/
def deployedPostgres : Postgres where
  uuid text := if length : text.length = 36 then some ⟨text, length⟩ else none
  encodable text := !text.toList.contains (Char.ofNat 0)
  storable _ := true
  sameData a b := Json.stringify (.obj a) == Json.stringify (.obj b)
  octetLength state := (Json.stringify (.obj state)).length

def launchPlan : Space :=
  ⟨⟨"7c0a4f5e-7d0e-4f1b-9b63-2f2f6c1d8e01", by decide⟩, "launch-plan", .published, .page, [],
    some "<h1>Launch</h1>", []⟩

def leadTracker : Space :=
  ⟨⟨"c5b9a6d2-0a55-4c1e-8d0e-5b1f3f9a7e02", by decide⟩, "lead-tracker", .published, .app,
    [⟨"Lead", [⟨"email", .string, true, none, none⟩]⟩], none, []⟩

def alone : SpaceDatabase := ⟨[launchPlan], [], by decide, by decide⟩

def besideLeads : SpaceDatabase := ⟨[launchPlan, leadTracker], [], by decide, by decide⟩

def ada : SpaceUser := ⟨⟨"0f1c8a34-52f0-4c6f-a4d6-6a6f0f2b9c03", by decide⟩, "ada@example.com"⟩

def adaSession : Signed :=
  Jwt.sign "secret" (spaceJwtPayload launchPlan.id.text ada) 0 604800

theorem adaSession_minted :
    (deployedService "secret" "other").issueSession launchPlan.id.text ada 0 = .ok adaSession := rfl

theorem launch_plan_isolated :
    Isolated (deployedService "secret" "other") deployedPostgres launchPlan.id adaSession :=
  spaces_isolated _ _ _ ada 0 _ adaSession_minted

/-- A slug is refused in two ways, by whether some other team uses it. -/
theorem slug_in_use_shows :
    ¬ ∀ (db db' : SpaceDatabase) (request : SpaceRequest) (generated : Generated) (now : Int),
      request.token = some adaSession → db.restrict launchPlan.id = db'.restrict launchPlan.id →
      generated.id ∉ db.records.map (·.id) → generated.id ∉ db'.records.map (·.id) →
      (handleSpaceRequest (deployedService "secret" "other") deployedPostgres db request generated now).2 =
        (handleSpaceRequest (deployedService "secret" "other") deployedPostgres db' request generated
          now).2 := by
  intro claimed
  have equal := claimed alone besideLeads ⟨"lead-tracker", some adaSession, .page⟩
    ⟨leadTracker.id, 0⟩ 60 rfl rfl (by decide) (by decide)
  have absent : (handleSpaceRequest (deployedService "secret" "other") deployedPostgres alone
      ⟨"lead-tracker", some adaSession, .page⟩ ⟨leadTracker.id, 0⟩ 60).2 =
        .error (notFound "Space not found") := rfl
  have foreign : (handleSpaceRequest (deployedService "secret" "other") deployedPostgres besideLeads
      ⟨"lead-tracker", some adaSession, .page⟩ ⟨leadTracker.id, 0⟩ 60).2 =
        .error (unauthorized "Session does not belong to this app") := rfl
  rw [absent, foreign] at equal
  simp [notFound, unauthorized] at equal

end Gomer
