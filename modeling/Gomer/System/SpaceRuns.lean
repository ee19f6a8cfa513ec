import Mathlib.Logic.Function.Basic
import Gomer.Lib.Trace
import Gomer.Spaces.Tables

/-! Any number of calls of `SpacesService` at once, one statement of the database a step: any of
them may fail, or be carried out with its answer lost. -/
namespace Gomer.SpaceRuns

open Trace SpaceTables Seeds HttpException

/-- The last three come from the runtime, behind a session for the Space of the slug. -/
inductive Call where
  | createFromSpec (workspaceId : String) (userId : Option String) (specInput : Json)
      (recordsInput : Option Json)
  | createPage (workspaceId : String) (userId : Option String) (input : Json)
  | updateSpec (workspaceId slug : String) (specInput : Json)
  | updatePage (workspaceId slug : String) (input : UpdatePageInput)
  | addRecords (workspaceId slug : String) (recordsInput : Option Json)
  | deleteForWorkspace (workspaceId : String) (id : UuidText)
  | createRecord (slug entityName : String) (data : Json) (spaceUserId : Option String)
  | updateRecord (slug entityName : String) (recordId : UuidText) (data : Json)
  | deleteRecord (slug entityName : String) (recordId : UuidText)

/-- What a call holds between two statements. -/
inductive Phase where
  | waiting
  | naming (draft : Draft) (candidate : String) (suffix : Nat)
  | named (draft : Draft) (slug : String)
  | found (space : SpaceRow)
  | filling (space : SpaceRow) (seeds : List SeedRecord)
  | respecced (entity : SpaceRow)
  | saving (entity : SpaceRow) (seen : Option SpaceRow)
  | edited (page : SpaceRow) (html : String) (title : PageTitle)
  | entering (space : SpaceRow) (entityName : String) (data : List (String × Json))
      (spaceUserId : Option String)
  | corrected (record : SpaceRecord)
  | savingRecord (record : SpaceRecord) (seen : Option SpaceRecord)
  | removing (space : SpaceRow) (entityName : String) (recordId : UuidText)
  | ended (result : Except HttpException Unit)

/-- `history` and `filed` have every version of a row that there has been. -/
structure State where
  spaces : List SpaceRow
  records : List SpaceRecord
  history : List SpaceRow
  filed : List SpaceRecord
  phase : Nat → Phase

def start : State := ⟨[], [], [], [], fun _ => .waiting⟩

/-- What one statement does to the tables. -/
inductive Effect where
  | nothing
  | addSpace (row : SpaceRow) (records : List SpaceRecord)
  | addRecords (records : List SpaceRecord)
  | setSpace (id : UuidText) (f : SpaceRow → SpaceRow)
  | setRecord (id : UuidText) (f : SpaceRecord → SpaceRecord)
  | dropSpace (id : UuidText)
  | dropRecords (p : SpaceRecord → Bool)

def setAt {α : Type} (key : α → UuidText) (id : UuidText) (f : α → α) (rows : List α) : List α :=
  rows.map fun row => if key row = id then f row else row

namespace State

variable (s : State)

def enter (i : Nat) (phase : Phase) : State :=
  { s with phase := Function.update s.phase i phase }

def apply : Effect → State
  | .nothing => s
  | .addSpace row records =>
    { s with
      spaces := s.spaces ++ [row]
      records := s.records ++ records
      history := s.history ++ [row]
      filed := s.filed ++ records }
  | .addRecords records =>
    { s with records := s.records ++ records, filed := s.filed ++ records }
  | .setSpace id f =>
    let spaces := setAt SpaceRow.id id f s.spaces
    { s with spaces := spaces, history := s.history ++ spaces }
  | .setRecord id f =>
    let records := setAt SpaceRecord.id id f s.records
    { s with records := records, filed := s.filed ++ records }
  -- the records of the Space go with it
  | .dropSpace id =>
    { s with
      spaces := s.spaces.filter fun row => row.id != id
      records := s.records.filter fun record => record.spaceId != id }
  | .dropRecords p => { s with records := s.records.filter fun record => !p record }

def hasSpace (id : UuidText) : Bool := s.spaces.any fun row => row.id == id

def hasSlug (slug : String) : Bool := s.spaces.any fun row => row.slug == slug

/-- Ids that `randomUUID` can draw: no record has had one of them. -/
def Drawn (records : List SpaceRecord) : Prop :=
  (records.map SpaceRecord.id).Nodup ∧
    ∀ record ∈ records, record.id ∉ s.filed.map SpaceRecord.id

instance (records : List SpaceRecord) : Decidable (s.Drawn records) :=
  inferInstanceAs (Decidable (_ ∧ _))

/-- `WHERE slug AND workspaceId`. -/
def findForWorkspace (workspaceId slug : String) : Option SpaceRow :=
  s.spaces.find? fun row => row.slug == slug && row.workspaceId == workspaceId

def findPublished (slug : String) : Option SpaceRow :=
  s.spaces.find? fun row => row.slug == slug && row.status == .published

end State

inductive Act where
  | begin (i : Nat) (draw : Nat → UuidText)
  | exists (i : Nat)
  | insert (i : Nat) (id : UuidText) (now : Instant) (answered : Bool)
  | load (i : Nat)
  | lookup (i : Nat) (draw : Nat → UuidText)
  | reread (i : Nat)
  | write (i : Nat) (now : Instant) (answered : Bool)
  | fail (i : Nat)

def Act.call : Act → Nat
  | .begin i _ | .exists i | .insert i _ _ _ | .load i | .lookup i _ | .reread i | .write i _ _
  | .fail i => i

def refused (e : HttpException) : Phase := .ended (.error e)

/-- The end of a statement that was carried out. -/
def done (answered : Bool) : Phase :=
  .ended (if answered then .ok () else .error internalServerError)

section
variable (toLowerCase : String → String) (same : Json → Json → Bool) (calls : Nat → Call)

def naming : Except HttpException Draft → Phase
  | .error e => refused e
  | .ok draft => .naming draft (slugBase toLowerCase draft.name) 1

/-- `findAppForWorkspace` and what the call does with the app. -/
def withApp (s : State) (workspaceId slug : String) (next : SpaceRow → Phase) : Phase :=
  match s.findForWorkspace workspaceId slug with
  | none => refused (notFound "Space not found")
  | some space =>
    if space.kind = .page then
      refused (badRequest ("\"" ++ slug ++ "\" is a page, not an app. Change it with update_page"))
    else next space

/-- `findPageForWorkspace` and what the call does with the page. -/
def withPage (s : State) (workspaceId slug : String) (next : SpaceRow → Phase) : Phase :=
  match s.findForWorkspace workspaceId slug with
  | none => refused (notFound "Page not found")
  | some space =>
    if space.kind = .page then next space
    else refused (badRequest ("\"" ++ slug ++
      "\" is an app, not a page. Change it with update_space or add_space_records"))

/-- The Space of the session, and `entityOrFail`. -/
def withEntity (s : State) (slug entityName : String) (next : SpaceRow → EntitySpec → Phase) :
    Phase :=
  match s.findPublished slug with
  | none => refused (notFound "Space not found")
  | some space =>
    match entityOrFail space.space entityName with
    | .error e => refused e
    | .ok entity => next space entity

/-- What a call does with the first row it reads. -/
def loaded (s : State) : Call → Option Phase
  | .updateSpec workspaceId slug specInput =>
    some (withApp s workspaceId slug fun space =>
      match respecced space specInput with
      | .error e => refused e
      | .ok entity => .respecced entity)
  | .updatePage workspaceId slug input =>
    some (withPage s workspaceId slug fun page =>
      match editedPage page.space page.title input with
      | .error e => refused e
      | .ok (html, title) => .edited page html title)
  | .addRecords workspaceId slug _ => some (withApp s workspaceId slug .found)
  | .createRecord slug entityName data spaceUserId =>
    some (withEntity s slug entityName fun space entity =>
      match validateRecordData entity data with
      | .error e => refused e.response
      | .ok clean => .entering space entity.name clean spaceUserId)
  | .updateRecord slug entityName _ _ =>
    some (withEntity s slug entityName fun space _ => .found space)
  | .deleteRecord slug entityName recordId =>
    some (withEntity s slug entityName fun space entity => .removing space entity.name recordId)
  | _ => none

/-- The entities that a field of the app refers to. -/
def targets (spec : List EntitySpec) : List String :=
  spec.flatMap fun entity => entity.fields.filterMap fun field =>
    if field.type = .reference then nonEmpty field.refEntity else none

def existingRows (s : State) (space : SpaceRow) : List SeedRecord :=
  (s.records.filter fun record => record.spaceId == space.id &&
    (targets (specEntities space.spec)).contains record.entityName).map fun record =>
      ⟨record.id, record.entityName, record.data⟩

def filled (s : State) (space : SpaceRow) (recordsInput : Option Json) (draw : Nat → UuidText) :
    Phase :=
  match prepareSeedRecords toLowerCase (specEntities space.spec) recordsInput
      (existingRows s space) draw with
  | .error e => refused e.response
  | .ok [] => refused (badRequest ("records is empty. This app has " ++
      describeApp (specEntities space.spec)))
  | .ok seeds => .filling space seeds

/-- `findOne` and the validation of `updateRecord`. -/
def corrected (s : State) (space : SpaceRow) (entityName : String) (recordId : UuidText)
    (data : Json) : Phase :=
  match entityOrFail space.space entityName with
  | .error e => refused e
  | .ok entity =>
    match s.records.find? fun record => record.id == recordId && ofEntity space.space entity record with
    | none => refused (notFound "Record not found")
    | some record =>
      match validateRecordData entity data with
      | .error e => refused e.response
      | .ok clean => .corrected { record with data := stored clean }

/-- A save of a record writes the columns that differ from those it read again. -/
def savedRecord (seen entity : SpaceRecord) (now : Instant) (row : SpaceRecord) : SpaceRecord :=
  { row with
    spaceId := saved (· == ·) seen.spaceId entity.spaceId row.spaceId
    entityName := saved (· == ·) seen.entityName entity.entityName row.entityName
    data := saved (fun a b => same (.obj a) (.obj b)) seen.data entity.data row.data
    createdBySpaceUserId := saved (· == ·) seen.createdBySpaceUserId entity.createdBySpaceUserId
      row.createdBySpaceUserId
    createdAt := saved (· == ·) seen.createdAt entity.createdAt row.createdAt
    updatedAt := now }

/-- The statement that a call is about to make, with the phase after it; a constraint that fails
ends the call. -/
def statement (s : State) (now : Instant) (answered : Bool) : Call → Phase → Option (Effect × Phase)
  | _, .filling space seeds =>
    let records := seedRows space.id now seeds
    if ¬s.Drawn records then none
    else if s.hasSpace space.id then some (.addRecords records, done answered)
    else some (.nothing, refused internalServerError)
  | _, .saving entity (some seen) =>
    some (.setSpace entity.id (savedSpace same seen entity), done answered)
  | _, .saving entity none =>
    if s.hasSpace entity.id ∨ s.hasSlug entity.slug then
      some (.nothing, refused internalServerError)
    else some (.addSpace (restored entity) [], done answered)
  | _, .edited page html title =>
    some (.setSpace page.id fun row =>
      { row with html := some html, name := title.name, spec := .obj title.spec }, done answered)
  | _, .savingRecord record (some seen) =>
    some (.setRecord record.id (savedRecord same seen record now), done answered)
  | _, .savingRecord record none =>
    if record.id ∈ s.records.map SpaceRecord.id ∨ s.hasSpace record.spaceId = false then
      some (.nothing, refused internalServerError)
    else some (.addRecords [record], done answered)
  | _, .removing space entityName recordId =>
    let keyed (record : SpaceRecord) : Bool := record.id == recordId &&
      record.spaceId == space.id && record.entityName == entityName
    if s.records.any keyed then some (.dropRecords keyed, done answered)
    else some (.nothing, refused (notFound "Record not found"))
  | .deleteForWorkspace workspaceId id, .waiting =>
    if s.spaces.any fun row => row.id == id && row.workspaceId == workspaceId then
      some (.dropSpace id, done answered)
    else some (.nothing, refused (notFound "Space not found"))
  | _, _ => none

/-- An `INSERT` with an id drawn for it. -/
def inserted (s : State) (id : UuidText) (now : Instant) (answered : Bool) :
    Phase → Option (Effect × Phase)
  | .named draft slug =>
    let row := draft.row slug id
    let records := seedRows id now draft.seeds
    if id ∈ s.history.map SpaceRow.id ∨ ¬s.Drawn records then none
    else if s.hasSlug slug then some (.nothing, refused internalServerError)
    else some (.addSpace row records, done answered)
  | .entering space entityName data spaceUserId =>
    let records := [⟨id, space.id, entityName, stored data, spaceUserId, now, now⟩]
    if ¬s.Drawn records then none
    else if s.hasSpace space.id then some (.addRecords records, done answered)
    else some (.nothing, refused internalServerError)
  | _ => none

def effect (s : State) : Act → Option (Effect × Phase)
  | .begin i draw =>
    match s.phase i, calls i with
    | .waiting, .createFromSpec workspaceId userId specInput recordsInput =>
      some (.nothing, naming toLowerCase
        (appDraft toLowerCase workspaceId userId specInput recordsInput draw))
    | .waiting, .createPage workspaceId userId input =>
      some (.nothing, naming toLowerCase (pageDraft workspaceId userId input))
    | _, _ => none
  | .exists i =>
    match s.phase i with
    | .naming draft candidate suffix =>
      some (.nothing, if s.hasSlug candidate then
          .naming draft (suffixed toLowerCase draft.name (suffix + 1)) (suffix + 1)
        else .named draft candidate)
    | _ => none
  | .insert i id now answered => inserted s id now answered (s.phase i)
  | .load i =>
    match s.phase i with
    | .waiting => (loaded s (calls i)).map fun phase => (.nothing, phase)
    | _ => none
  | .lookup i draw =>
    match s.phase i, calls i with
    | .found space, .addRecords _ _ recordsInput =>
      some (.nothing, filled toLowerCase s space recordsInput draw)
    | .found space, .updateRecord _ entityName recordId data =>
      some (.nothing, corrected s space entityName recordId data)
    | _, _ => none
  | .reread i =>
    match s.phase i with
    | .respecced entity =>
      some (.nothing, .saving entity (s.spaces.find? fun row => row.id == entity.id))
    | .corrected record =>
      some (.nothing, .savingRecord record (s.records.find? fun row => row.id == record.id))
    | _ => none
  | .write i now answered => statement same s now answered (calls i) (s.phase i)
  | .fail i =>
    match s.phase i with
    | .ended _ => none
    | _ => some (.nothing, refused internalServerError)

def step (s : State) (a : Act) : Option State :=
  (effect toLowerCase same calls s a).map fun made => (s.apply made.1).enter a.call made.2

abbrev Step (s : State) (a : Act) (t : State) : Prop := step toLowerCase same calls s a = some t

end

/-! What holds of the tables -/

/-- Some version of its app's spec has the record's entity, and the data was clean for it. -/
def Filed (history : List SpaceRow) (record : SpaceRecord) : Prop :=
  ∃ version ∈ history, version.id = record.spaceId ∧ version.kind = .app ∧
    ∃ entity clean, findEntity (specEntities version.spec) record.entityName = some entity ∧
      Conforms entity clean ∧ record.data = stored clean

def place (record : SpaceRecord) : UuidText × String := (record.spaceId, record.entityName)

structure Tables (s : State) : Prop where
  live : ∀ row ∈ s.spaces, row ∈ s.history
  ids : (s.spaces.map SpaceRow.id).Nodup
  slugs : (s.spaces.map SpaceRow.slug).Nodup
  sound : ∀ row ∈ s.history, row.Sound
  identity : ∀ row ∈ s.history, ∀ other ∈ s.history, row.id = other.id →
    row.identity = other.identity
  kept : ∀ record ∈ s.records, record ∈ s.filed
  homes : ∀ record ∈ s.records, s.hasSpace record.spaceId = true
  recordIds : (s.records.map SpaceRecord.id).Nodup
  filed : ∀ record ∈ s.filed, Filed s.history record
  places : ∀ record ∈ s.filed, ∀ other ∈ s.filed, record.id = other.id → place record = place other

/-- What a statement may do to such tables. -/
inductive Allowed (s : State) : Effect → Prop where
  | nothing : Allowed s .nothing
  | addSpace (row : SpaceRow) (records : List SpaceRecord) (sound : row.Sound)
      (slug : s.hasSlug row.slug = false) (id : s.hasSpace row.id = false)
      (identity : ∀ version ∈ s.history, version.id = row.id → version.identity = row.identity)
      (homes : ∀ record ∈ records, record.spaceId = row.id)
      (filed : ∀ record ∈ records, Filed [row] record) (drawn : s.Drawn records) :
      Allowed s (.addSpace row records)
  | addRecords (records : List SpaceRecord) (filed : ∀ record ∈ records, Filed s.history record)
      (homes : ∀ record ∈ records, s.hasSpace record.spaceId = true)
      (once : (records.map SpaceRecord.id).Nodup)
      (new : ∀ record ∈ records, record.id ∉ s.records.map SpaceRecord.id)
      (places : ∀ record ∈ records, ∀ version ∈ s.filed, version.id = record.id →
        place version = place record) :
      Allowed s (.addRecords records)
  | setSpace (id : UuidText) (f : SpaceRow → SpaceRow)
      (sound : ∀ row ∈ s.spaces, row.id = id →
        (f row).id = id ∧ (f row).identity = row.identity ∧ (f row).Sound) :
      Allowed s (.setSpace id f)
  | setRecord (id : UuidText) (f : SpaceRecord → SpaceRecord)
      (sound : ∀ record ∈ s.records, record.id = id →
        (f record).id = id ∧ place (f record) = place record ∧ Filed s.history (f record)) :
      Allowed s (.setRecord id f)
  | dropSpace (id : UuidText) : Allowed s (.dropSpace id)
  | dropRecords (p : SpaceRecord → Bool) : Allowed s (.dropRecords p)

theorem Filed.mono {history later : List SpaceRow} {record : SpaceRecord}
    (filed : Filed history record) (more : ∀ row ∈ history, row ∈ later) : Filed later record := by
  obtain ⟨version, seen, rest⟩ := filed
  exact ⟨version, more version seen, rest⟩

section
variable {s : State}

theorem hasSpace_iff {id : UuidText} : s.hasSpace id = true ↔ ∃ row ∈ s.spaces, row.id = id := by
  simp [State.hasSpace]

theorem setAt_keys {α : Type} {key : α → UuidText} {id : UuidText} {f : α → α} {rows : List α}
    (kept : ∀ row ∈ rows, key row = id → key (f row) = id) :
    (setAt key id f rows).map key = rows.map key := by
  rw [setAt, List.map_map]
  refine List.map_congr_left fun row member => ?_
  dsimp only [Function.comp]
  split
  · rename_i here
    rw [kept row member here, here]
  · rfl

theorem mem_setAt {α : Type} {key : α → UuidText} {id : UuidText} {f : α → α} {rows : List α}
    {row : α} (member : row ∈ setAt key id f rows) :
    (∃ old ∈ rows, key old = id ∧ row = f old) ∨ row ∈ rows ∧ key row ≠ id := by
  obtain ⟨old, inside, rfl⟩ := List.mem_map.mp member
  by_cases here : key old = id
  · exact .inl ⟨old, inside, here, by rw [if_pos here]⟩
  · rw [if_neg here]
    exact .inr ⟨inside, here⟩

theorem nodup_append_new {α β : Type} {key : α → β} {rows more : List α}
    (once : (rows.map key).Nodup) (again : (more.map key).Nodup)
    (new : ∀ row ∈ more, key row ∉ rows.map key) : ((rows ++ more).map key).Nodup := by
  rw [List.map_append, List.nodup_append]
  refine ⟨once, again, fun a first b second same => ?_⟩
  obtain ⟨row, inside, rfl⟩ := List.mem_map.mp second
  rw [same] at first
  exact new row inside first

theorem Tables.addSpace (tables : Tables s) {row : SpaceRow} {records : List SpaceRecord}
    (sound : row.Sound) (slug : s.hasSlug row.slug = false) (id : s.hasSpace row.id = false)
    (identity : ∀ version ∈ s.history, version.id = row.id → version.identity = row.identity)
    (homes : ∀ record ∈ records, record.spaceId = row.id)
    (filed : ∀ record ∈ records, Filed [row] record) (drawn : s.Drawn records) :
    Tables (s.apply (.addSpace row records)) := by
  have grown : ∀ version ∈ s.history, version ∈ s.history ++ [row] := fun _ =>
    List.mem_append_left _
  constructor
  · intro other member
    obtain earlier | last := List.mem_append.mp member
    · exact grown other (tables.live other earlier)
    · exact List.mem_append_right _ last
  · refine nodup_append_new tables.ids (by simp) fun other last => ?_
    rw [List.mem_singleton.mp last]
    simpa [State.hasSpace] using id
  · refine nodup_append_new tables.slugs (by simp) fun other last => ?_
    rw [List.mem_singleton.mp last]
    simpa [State.hasSlug] using slug
  · intro other member
    obtain earlier | last := List.mem_append.mp member
    · exact tables.sound other earlier
    · rw [List.mem_singleton.mp last]
      exact sound
  · intro one first two second same
    obtain first | first := List.mem_append.mp first <;>
      obtain second | second := List.mem_append.mp second
    · exact tables.identity one first two second same
    · rw [List.mem_singleton.mp second] at same ⊢
      exact identity one first same
    · rw [List.mem_singleton.mp first] at same ⊢
      exact (identity two second same.symm).symm
    · rw [List.mem_singleton.mp first, List.mem_singleton.mp second]
  · intro record member
    obtain earlier | last := List.mem_append.mp member
    · exact List.mem_append_left _ (tables.kept record earlier)
    · exact List.mem_append_right _ last
  · intro record member
    refine hasSpace_iff.mpr ?_
    obtain earlier | last := List.mem_append.mp member
    · obtain ⟨home, inside, same⟩ := hasSpace_iff.mp (tables.homes record earlier)
      exact ⟨home, List.mem_append_left _ inside, same⟩
    · exact ⟨row, List.mem_append_right _ List.mem_cons_self, (homes record last).symm⟩
  · refine nodup_append_new tables.recordIds drawn.1 fun record last present => ?_
    obtain ⟨other, inside, same⟩ := List.mem_map.mp present
    exact drawn.2 record last (same ▸ List.mem_map_of_mem (tables.kept other inside))
  · intro record member
    obtain earlier | last := List.mem_append.mp member
    · exact (tables.filed record earlier).mono grown
    · exact (filed record last).mono fun version here => List.mem_append_right _ here
  · intro one first two second same
    obtain first | first := List.mem_append.mp first <;>
      obtain second | second := List.mem_append.mp second
    · exact tables.places one first two second same
    · exact absurd (same ▸ List.mem_map_of_mem first) (drawn.2 two second)
    · exact absurd (same.symm ▸ List.mem_map_of_mem second) (drawn.2 one first)
    · rw [List.inj_on_of_nodup_map drawn.1 first second same]

theorem Tables.addRecords (tables : Tables s) {records : List SpaceRecord}
    (filed : ∀ record ∈ records, Filed s.history record)
    (homes : ∀ record ∈ records, s.hasSpace record.spaceId = true)
    (once : (records.map SpaceRecord.id).Nodup)
    (new : ∀ record ∈ records, record.id ∉ s.records.map SpaceRecord.id)
    (places : ∀ record ∈ records, ∀ version ∈ s.filed, version.id = record.id →
      place version = place record) : Tables (s.apply (.addRecords records)) := by
  refine { tables with
    kept := fun record member => ?_
    homes := fun record member => ?_
    recordIds := nodup_append_new tables.recordIds once new
    filed := fun record member => ?_
    places := fun one first two second same => ?_ }
  · obtain earlier | last := List.mem_append.mp member
    · exact List.mem_append_left _ (tables.kept record earlier)
    · exact List.mem_append_right _ last
  · exact (List.mem_append.mp member).elim (tables.homes record) (homes record)
  · exact (List.mem_append.mp member).elim (tables.filed record) (filed record)
  · obtain first | first := List.mem_append.mp first <;>
      obtain second | second := List.mem_append.mp second
    · exact tables.places one first two second same
    · exact places two second one first same
    · exact (places one first two second same.symm).symm
    · rw [List.inj_on_of_nodup_map once first second same]

theorem Tables.setSpace (tables : Tables s) {id : UuidText} {f : SpaceRow → SpaceRow}
    (sound : ∀ row ∈ s.spaces, row.id = id →
      (f row).id = id ∧ (f row).identity = row.identity ∧ (f row).Sound) :
    Tables (s.apply (.setSpace id f)) := by
  -- every row is a version of a row of before, with the same identity
  have origin : ∀ row ∈ s.history ++ setAt SpaceRow.id id f s.spaces,
      row.Sound ∧ ∃ old ∈ s.history, old.id = row.id ∧ old.identity = row.identity := by
    intro row member
    obtain earlier | now := List.mem_append.mp member
    · exact ⟨tables.sound row earlier, row, earlier, rfl, rfl⟩
    · obtain ⟨old, inside, here, rfl⟩ | ⟨inside, -⟩ := mem_setAt now
      · obtain ⟨same, unmoved, good⟩ := sound old inside here
        exact ⟨good, old, tables.live old inside, here.trans same.symm, unmoved.symm⟩
      · exact ⟨tables.sound row (tables.live row inside), row, tables.live row inside, rfl, rfl⟩
  have keys : (setAt SpaceRow.id id f s.spaces).map SpaceRow.id = s.spaces.map SpaceRow.id :=
    setAt_keys fun row member here => (sound row member here).1
  have slugs : (setAt SpaceRow.id id f s.spaces).map SpaceRow.slug = s.spaces.map SpaceRow.slug := by
    rw [setAt, List.map_map]
    refine List.map_congr_left fun row member => ?_
    dsimp only [Function.comp]
    split
    · rename_i here
      exact congrArg Identity.slug (sound row member here).2.1
    · rfl
  refine { tables with
    live := fun row member => List.mem_append_right _ member
    ids := by
      change ((setAt SpaceRow.id id f s.spaces).map SpaceRow.id).Nodup
      rw [keys]
      exact tables.ids
    slugs := by
      change ((setAt SpaceRow.id id f s.spaces).map SpaceRow.slug).Nodup
      rw [slugs]
      exact tables.slugs
    sound := fun row member => (origin row member).1
    identity := fun one first two second same => ?_
    homes := fun record member => ?_
    filed := fun record member => (tables.filed record member).mono fun _ => List.mem_append_left _ }
  · obtain ⟨-, old, seen, id, identity⟩ := origin one first
    obtain ⟨-, older, seenToo, idToo, identityToo⟩ := origin two second
    rw [← identity, ← identityToo]
    exact tables.identity old seen older seenToo (id.trans (same.trans idToo.symm))
  · obtain ⟨home, inside, same⟩ := hasSpace_iff.mp (tables.homes record member)
    have present : home.id ∈ (setAt SpaceRow.id id f s.spaces).map SpaceRow.id := by
      rw [keys]
      exact List.mem_map_of_mem inside
    obtain ⟨row, there, sameId⟩ := List.mem_map.mp present
    exact hasSpace_iff.mpr ⟨row, there, sameId.trans same⟩

theorem Tables.setRecord (tables : Tables s) {id : UuidText} {f : SpaceRecord → SpaceRecord}
    (sound : ∀ record ∈ s.records, record.id = id →
      (f record).id = id ∧ place (f record) = place record ∧ Filed s.history (f record)) :
    Tables (s.apply (.setRecord id f)) := by
  have origin : ∀ record ∈ s.filed ++ setAt SpaceRecord.id id f s.records,
      Filed s.history record ∧ ∃ old ∈ s.filed, old.id = record.id ∧ place old = place record := by
    intro record member
    obtain earlier | now := List.mem_append.mp member
    · exact ⟨tables.filed record earlier, record, earlier, rfl, rfl⟩
    · obtain ⟨old, inside, here, rfl⟩ | ⟨inside, -⟩ := mem_setAt now
      · obtain ⟨same, unmoved, good⟩ := sound old inside here
        exact ⟨good, old, tables.kept old inside, here.trans same.symm, unmoved.symm⟩
      · exact ⟨tables.filed record (tables.kept record inside), record, tables.kept record inside,
          rfl, rfl⟩
  have keys : (setAt SpaceRecord.id id f s.records).map SpaceRecord.id =
      s.records.map SpaceRecord.id :=
    setAt_keys fun record member here => (sound record member here).1
  refine { tables with
    kept := fun record member => List.mem_append_right _ member
    homes := fun record member => ?_
    recordIds := by
      change ((setAt SpaceRecord.id id f s.records).map SpaceRecord.id).Nodup
      rw [keys]
      exact tables.recordIds
    filed := fun record member => (origin record member).1
    places := fun one first two second same => ?_ }
  · obtain ⟨old, inside, here, rfl⟩ | ⟨inside, -⟩ := mem_setAt member
    · have unmoved := congrArg Prod.fst (sound old inside here).2.1
      change s.hasSpace (f old).spaceId = true
      rw [show (f old).spaceId = old.spaceId from unmoved]
      exact tables.homes old inside
    · exact tables.homes record inside
  · obtain ⟨-, old, seen, id, unmoved⟩ := origin one first
    obtain ⟨-, older, seenToo, idToo, unmovedToo⟩ := origin two second
    rw [← unmoved, ← unmovedToo]
    exact tables.places old seen older seenToo (id.trans (same.trans idToo.symm))

theorem Tables.dropSpace (tables : Tables s) (id : UuidText) :
    Tables (s.apply (.dropSpace id)) := by
  refine { tables with
    live := fun row member => tables.live row (List.mem_of_mem_filter member)
    ids := tables.ids.sublist (List.filter_sublist.map _)
    slugs := tables.slugs.sublist (List.filter_sublist.map _)
    kept := fun record member => tables.kept record (List.mem_of_mem_filter member)
    homes := fun record member => ?_
    recordIds := tables.recordIds.sublist (List.filter_sublist.map _) }
  obtain ⟨inside, elsewhere⟩ := List.mem_filter.mp member
  obtain ⟨home, there, same⟩ := hasSpace_iff.mp (tables.homes record inside)
  refine hasSpace_iff.mpr ⟨home, List.mem_filter.mpr ⟨there, ?_⟩, same⟩
  rw [same]
  exact elsewhere

theorem Tables.apply (tables : Tables s) {e : Effect} (allowed : Allowed s e) :
    Tables (s.apply e) := by
  cases allowed with
  | nothing => exact tables
  | addSpace row records sound slug id identity homes filed drawn =>
    exact tables.addSpace sound slug id identity homes filed drawn
  | addRecords records filed homes once new places =>
    exact tables.addRecords filed homes once new places
  | setSpace id f sound => exact tables.setSpace sound
  | setRecord id f sound => exact tables.setRecord sound
  | dropSpace id => exact tables.dropSpace id
  | dropRecords p =>
    exact { tables with
      kept := fun record member => tables.kept record (List.mem_of_mem_filter member)
      homes := fun record member => tables.homes record (List.mem_of_mem_filter member)
      recordIds := tables.recordIds.sublist (List.filter_sublist.map _) }

theorem history_grows (e : Effect) {row : SpaceRow} (seen : row ∈ s.history) :
    row ∈ (s.apply e).history := by
  cases e with
  | addSpace | setSpace => exact List.mem_append_left _ seen
  | _ => exact seen

theorem filed_grows (e : Effect) {record : SpaceRecord} (seen : record ∈ s.filed) :
    record ∈ (s.apply e).filed := by
  cases e with
  | addSpace | addRecords | setRecord => exact List.mem_append_left _ seen
  | _ => exact seen

end

/-! What a call knows -/

/-- The Spaces that a call makes. -/
def Call.Makes : Call → Identity → Prop
  | .createFromSpec workspaceId userId _ _, space
  | .createPage workspaceId userId _, space =>
    space.workspaceId = workspaceId ∧ space.createdByUserId = userId
  | _, _ => False

/-- The Spaces of before that a call is for. -/
def Call.Owns : Call → UuidText → Identity → Prop
  | .createFromSpec _ _ _ _, _, _ | .createPage _ _ _, _, _ => False
  | .updateSpec workspaceId slug _, _, space
  | .updatePage workspaceId slug _, _, space
  | .addRecords workspaceId slug _, _, space =>
    space.workspaceId = workspaceId ∧ space.slug = slug
  | .deleteForWorkspace workspaceId id, own, space => own = id ∧ space.workspaceId = workspaceId
  | .createRecord slug _ _ _, _, space
  | .updateRecord slug _ _ _, _, space
  | .deleteRecord slug _ _, _, space => space.slug = slug ∧ space.status = .published

section
variable (calls : Nat → Call) (s : State) (i : Nat)

/-- A version of a Space that the call is for. -/
def Own (row : SpaceRow) : Prop := row ∈ s.history ∧ (calls i).Owns row.id row.identity

/-- A version of a record of such a Space. -/
def OwnRecord (record : SpaceRecord) : Prop :=
  (∃ row, Own calls s i row ∧ row.id = record.spaceId) ∧
    ∃ version ∈ s.filed, version.id = record.id ∧ place version = place record

structure Drafted (draft : Draft) (slug : String) : Prop where
  sound : draft.Sound
  slug : UrlSafe slug
  own : ∀ id slug, (calls i).Makes (draft.row slug id).identity

/-- An app as `updateSpec` will save it. -/
structure Respecced (entity : SpaceRow) : Prop where
  call : ∃ workspaceId slug specInput, calls i = .updateSpec workspaceId slug specInput
  own : ∃ row, Own calls s i row ∧ row.id = entity.id ∧ row.identity = entity.identity
  app : entity.kind = .app
  accepted : Specs.validateAppSpec entity.spec = .ok entity.spec

def Knows : Phase → Prop
  | .naming draft candidate _ => Drafted calls i draft candidate
  | .named draft slug => Drafted calls i draft slug
  | .found space => Own calls s i space
  | .filling space seeds => Own calls s i space ∧ space.kind = .app ∧ Seeds space.spec seeds
  | .respecced entity => Respecced calls s i entity
  | .saving entity seen => Respecced calls s i entity ∧
      ∀ row, seen = some row → row ∈ s.history ∧ row.id = entity.id
  | .edited page html title => Own calls s i page ∧ page.kind = .page ∧
      PageSpec title.name (.obj title.spec) ∧ validatePageHtml (.str html) = .ok html
  | .entering space entityName data _ => Own calls s i space ∧ space.kind = .app ∧
      ∃ entity, findEntity (specEntities space.spec) entityName = some entity ∧ Conforms entity data
  | .corrected record => OwnRecord calls s i record ∧ Filed s.history record
  | .savingRecord record seen => (OwnRecord calls s i record ∧ Filed s.history record) ∧
      ∀ row, seen = some row → row ∈ s.filed ∧ row.id = record.id
  | .removing space _ _ => Own calls s i space
  | _ => True

end

/-- The Spaces that a statement can change, or whose records. -/
def Touched (s : State) : Effect → UuidText → Prop
  | .nothing, _ => False
  | .addSpace row _, id => id = row.id
  | .addRecords records, id => ∃ record ∈ records, record.spaceId = id
  | .setSpace own _, id => id = own
  | .setRecord own _, id => ∃ record ∈ s.records, record.id = own ∧ record.spaceId = id
  | .dropSpace own, id => id = own
  | .dropRecords p, id => ∃ record ∈ s.records, p record = true ∧ record.spaceId = id

section
variable {toLowerCase : String → String} {same : Json → Json → Bool} {calls : Nat → Call}
  {s t : State} {i : Nat} {phase : Phase} {entity : SpaceRow}

theorem Own.mono {row : SpaceRow} (own : Own calls s i row)
    (more : ∀ row ∈ s.history, row ∈ t.history) : Own calls t i row :=
  ⟨more row own.1, own.2⟩

theorem OwnRecord.mono {record : SpaceRecord} (own : OwnRecord calls s i record)
    (more : ∀ row ∈ s.history, row ∈ t.history) (filed : ∀ row ∈ s.filed, row ∈ t.filed) :
    OwnRecord calls t i record := by
  obtain ⟨⟨row, own, same⟩, version, seen, rest⟩ := own
  exact ⟨⟨row, own.mono more, same⟩, version, filed version seen, rest⟩

theorem Respecced.mono {entity : SpaceRow} (respecced : Respecced calls s i entity)
    (more : ∀ row ∈ s.history, row ∈ t.history) : Respecced calls t i entity := by
  obtain ⟨call, ⟨row, own, same⟩, app, accepted⟩ := respecced
  exact ⟨call, ⟨row, own.mono more, same⟩, app, accepted⟩

theorem Knows.mono (knows : Knows calls s i phase) (more : ∀ row ∈ s.history, row ∈ t.history)
    (filed : ∀ row ∈ s.filed, row ∈ t.filed) : Knows calls t i phase := by
  cases phase with
  | found space => exact Own.mono knows more
  | filling space seeds => exact ⟨knows.1.mono more, knows.2⟩
  | respecced entity => exact Respecced.mono knows more
  | saving entity seen =>
    exact ⟨knows.1.mono more, fun row found => ⟨more row (knows.2 row found).1, (knows.2 row found).2⟩⟩
  | edited page html title => exact ⟨knows.1.mono more, knows.2⟩
  | entering space entityName data spaceUserId => exact ⟨knows.1.mono more, knows.2⟩
  | corrected record => exact ⟨knows.1.mono more filed, knows.2.mono more⟩
  | savingRecord record seen =>
    exact ⟨⟨knows.1.1.mono more filed, knows.1.2.mono more⟩,
      fun row found => ⟨filed row (knows.2 row found).1, (knows.2 row found).2⟩⟩
  | removing space entityName recordId => exact Own.mono knows more
  | _ => exact knows

/-- What the next statement of a call is, and what the call knows after it. -/
structure Good (calls : Nat → Call) (s : State) (i : Nat) (made : Effect × Phase) : Prop where
  allowed : Allowed s made.1
  knows : Knows calls (s.apply made.1) i made.2
  within : ∀ id, Touched s made.1 id → (∃ row, Own calls (s.apply made.1) i row ∧ row.id = id) ∨
    id ∉ s.history.map SpaceRow.id ∧
      ∃ row ∈ (s.apply made.1).history, row.id = id ∧ (calls i).Makes row.identity
  back : ∀ row records, made.1 = .addSpace row records → row.id ∉ s.history.map SpaceRow.id ∨
    ∃ workspaceId slug specInput, calls i = .updateSpec workspaceId slug specInput

theorem Good.quiet (knows : Knows calls s i phase) : Good calls s i (.nothing, phase) :=
  ⟨.nothing, knows, fun _ touched => touched.elim, fun _ _ same => Effect.noConfusion same⟩

theorem page_entities {row : SpaceRow} (sound : row.Sound) (page : row.kind = .page) :
    specEntities row.spec = [] := by
  obtain ⟨spec, -⟩ := sound.2.page page
  simp [specEntities, Specs.entitiesOf, Specs.elements, Specs.items?, spec.entities]

/-- A Space that declares an entity is no page. -/
theorem app_of_entity {row : SpaceRow} {name : String} {entity : EntitySpec} (sound : row.Sound)
    (found : findEntity (specEntities row.spec) name = some entity) : row.kind = .app := by
  cases kind : row.kind with
  | app => rfl
  | page =>
    rw [page_entities sound kind] at found
    cases found

theorem entityOrFail_ok {row : SpaceRow} {name : String} {entity : EntitySpec}
    (found : entityOrFail row.space name = .ok entity) :
    findEntity (specEntities row.spec) name = some entity ∧ entity.name = name := by
  unfold entityOrFail at found
  split at found
  · cases found
  · rename_i declared
    cases found
    have named := List.find?_some declared
    exact ⟨declared, by simpa using named⟩

theorem findForWorkspace_some {workspaceId slug : String} {row : SpaceRow}
    (found : s.findForWorkspace workspaceId slug = some row) :
    row ∈ s.spaces ∧ row.identity.workspaceId = workspaceId ∧ row.identity.slug = slug := by
  have test := List.find?_some found
  rw [Bool.and_eq_true, beq_iff_eq, beq_iff_eq] at test
  exact ⟨List.mem_of_find?_eq_some found, test.2, test.1⟩

theorem findPublished_some {slug : String} {row : SpaceRow}
    (found : s.findPublished slug = some row) :
    row ∈ s.spaces ∧ row.identity.slug = slug ∧ row.identity.status = .published := by
  have test := List.find?_some found
  rw [Bool.and_eq_true, beq_iff_eq, beq_iff_eq] at test
  exact ⟨List.mem_of_find?_eq_some found, test⟩

theorem knows_withApp {workspaceId slug : String} {next : SpaceRow → Phase}
    (knows : ∀ row, s.findForWorkspace workspaceId slug = some row → row.kind = .app →
      Knows calls s i (next row)) : Knows calls s i (withApp s workspaceId slug next) := by
  unfold withApp
  split
  · trivial
  · rename_i row found
    split
    · trivial
    · rename_i app
      refine knows row found ?_
      cases kind : row.kind with
      | app => rfl
      | page => exact absurd kind app

theorem knows_withPage {workspaceId slug : String} {next : SpaceRow → Phase}
    (knows : ∀ row, s.findForWorkspace workspaceId slug = some row → row.kind = .page →
      Knows calls s i (next row)) : Knows calls s i (withPage s workspaceId slug next) := by
  unfold withPage
  split
  · trivial
  · rename_i row found
    split
    · exact knows row found ‹_›
    · trivial

theorem knows_withEntity {slug entityName : String} {next : SpaceRow → EntitySpec → Phase}
    (knows : ∀ row entity, s.findPublished slug = some row →
      findEntity (specEntities row.spec) entityName = some entity → entity.name = entityName →
      Knows calls s i (next row entity)) :
    Knows calls s i (withEntity s slug entityName next) := by
  unfold withEntity
  split
  · trivial
  · rename_i row found
    split
    · trivial
    · rename_i entity declared
      obtain ⟨declared, named⟩ := entityOrFail_ok declared
      exact knows row entity found declared named

/-- The entities of a Space declare each field once. -/
theorem sound_distinct {row : SpaceRow} (sound : row.Sound) :
    ∀ entity ∈ specEntities row.spec, (entity.fields.map FieldSpec.name).Nodup := by
  cases kind : row.kind with
  | app => exact specEntities_distinct (sound.2.app kind).1
  | page =>
    rw [page_entities sound kind]
    exact fun entity absent => absurd absent List.not_mem_nil

theorem loaded_knows (tables : Tables s) (read : loaded s (calls i) = some phase) :
    Knows calls s i phase := by
  have own : ∀ row ∈ s.spaces, (calls i).Owns row.id row.identity → Own calls s i row :=
    fun row inside owns => ⟨tables.live row inside, owns⟩
  cases call : calls i with
  | createFromSpec | createPage | deleteForWorkspace =>
    rw [call] at read
    cases read
  | updateSpec workspaceId slug specInput =>
    rw [call] at read
    cases read
    refine knows_withApp fun row found app => ?_
    obtain ⟨inside, workspace, named⟩ := findForWorkspace_some found
    split
    · trivial
    · rename_i entity made
      obtain ⟨id, identity, -, accepted⟩ := respecced_sound made
      refine ⟨⟨_, _, _, call⟩, ⟨row, own row inside ?_, id.symm, identity.symm⟩, ?_, accepted⟩
      · rw [call]
        exact ⟨workspace, named⟩
      · exact (congrArg Identity.kind identity).trans app
  | updatePage workspaceId slug input =>
    rw [call] at read
    cases read
    refine knows_withPage fun row found page => ?_
    obtain ⟨inside, workspace, named⟩ := findForWorkspace_some found
    split
    · trivial
    · rename_i html title made
      obtain ⟨spec, -⟩ := (tables.sound row (tables.live row inside)).2.page page
      refine ⟨own row inside ?_, page, editedPage_sound spec made⟩
      rw [call]
      exact ⟨workspace, named⟩
  | addRecords workspaceId slug recordsInput =>
    rw [call] at read
    cases read
    refine knows_withApp fun row found app => ?_
    obtain ⟨inside, workspace, named⟩ := findForWorkspace_some found
    refine own row inside ?_
    rw [call]
    exact ⟨workspace, named⟩
  | createRecord slug entityName data spaceUserId =>
    rw [call] at read
    cases read
    refine knows_withEntity fun row entity found declared named => ?_
    obtain ⟨inside, published⟩ := findPublished_some found
    have sound := tables.sound row (tables.live row inside)
    have app := app_of_entity sound declared
    split
    · trivial
    · rename_i clean made
      have distinct := sound_distinct sound entity (findEntity_mem declared)
      refine ⟨own row inside ?_, app, entity, by rw [named]; exact declared,
        (conforms_validated distinct made).1⟩
      rw [call]
      exact published
  | updateRecord slug entityName recordId data =>
    rw [call] at read
    cases read
    refine knows_withEntity fun row entity found declared named => ?_
    obtain ⟨inside, published⟩ := findPublished_some found
    refine own row inside ?_
    rw [call]
    exact published
  | deleteRecord slug entityName recordId =>
    rw [call] at read
    cases read
    refine knows_withEntity fun row entity found declared named => ?_
    obtain ⟨inside, published⟩ := findPublished_some found
    refine own row inside ?_
    rw [call]
    exact published

theorem seedRows_mem {id : UuidText} {now : Instant} {seeds : List SeedRecord} {record : SpaceRecord}
    (member : record ∈ seedRows id now seeds) : record.spaceId = id ∧
      ∃ seed ∈ seeds, record.entityName = seed.entityName ∧ record.data = stored seed.data := by
  obtain ⟨⟨seed, k⟩, inside, rfl⟩ := List.mem_map.mp member
  exact ⟨rfl, seed, List.fst_mem_of_mem_zipIdx inside, rfl, rfl⟩

theorem seedRows_filed {row : SpaceRow} {history : List SpaceRow} (seen : row ∈ history)
    (app : row.kind = .app) {now : Instant} {seeds : List SeedRecord} (clean : Seeds row.spec seeds) :
    ∀ record ∈ seedRows row.id now seeds, Filed history record := by
  intro record member
  obtain ⟨home, seed, given, named, data⟩ := seedRows_mem member
  obtain ⟨entity, declared, conforms⟩ := clean seed given
  exact ⟨row, seen, home.symm, app, entity, seed.data, by rw [named]; exact declared, conforms, data⟩

theorem filled_knows (tables : Tables s) {space : SpaceRow} (own : Own calls s i space)
    (recordsInput : Option Json) (draw : Nat → UuidText) :
    Knows calls s i (filled toLowerCase s space recordsInput draw) := by
  have sound := tables.sound space own.1
  unfold filled
  split
  · trivial
  · trivial
  · rename_i seeds some_ prepared
    have clean := prepared_conform (sound_distinct sound) prepared
    refine ⟨own, ?_, clean⟩
    cases seeds with
    | nil => exact absurd rfl some_
    | cons seed rest =>
      obtain ⟨entity, declared, -⟩ := clean seed List.mem_cons_self
      exact app_of_entity sound declared

theorem corrected_knows (tables : Tables s) {space : SpaceRow} (own : Own calls s i space)
    (entityName : String) (recordId : UuidText) (data : Json) :
    Knows calls s i (corrected s space entityName recordId data) := by
  have sound := tables.sound space own.1
  unfold corrected
  split
  · trivial
  · rename_i entity declared
    obtain ⟨declared, named⟩ := entityOrFail_ok declared
    split
    · trivial
    · rename_i record found
      split
      · trivial
      · rename_i clean made
        have test := List.find?_some found
        simp only [ofEntity, Bool.and_eq_true, beq_iff_eq] at test
        have kept := tables.kept record (List.mem_of_find?_eq_some found)
        have distinct := sound_distinct sound entity (findEntity_mem declared)
        refine ⟨⟨⟨space, own, test.2.1.symm⟩, record, kept, rfl, rfl⟩, space, own.1, test.2.1.symm,
          app_of_entity sound declared, entity, clean, ?_, (conforms_validated distinct made).1, rfl⟩
        change findEntity _ record.entityName = _
        rw [test.2.2, named]
        exact declared

/-- Rows of a Space that are new to the tables. -/
theorem allowed_drawn (tables : Tables s) {records : List SpaceRecord} {id : UuidText}
    (drawn : s.Drawn records) (present : s.hasSpace id = true)
    (home : ∀ record ∈ records, record.spaceId = id)
    (filed : ∀ record ∈ records, Filed s.history record) : Allowed s (.addRecords records) := by
  refine .addRecords records filed (fun record member => ?_) drawn.1 (fun record member there => ?_)
    fun record member version seen same => ?_
  · rw [home record member]
    exact present
  · obtain ⟨other, inside, same⟩ := List.mem_map.mp there
    exact drawn.2 record member (same ▸ List.mem_map_of_mem (tables.kept other inside))
  · exact absurd (same ▸ List.mem_map_of_mem seen) (drawn.2 record member)

theorem good_drawn (tables : Tables s) {records : List SpaceRecord} {space : SpaceRow}
    (own : Own calls s i space) (drawn : s.Drawn records) (present : s.hasSpace space.id = true)
    (home : ∀ record ∈ records, record.spaceId = space.id)
    (filed : ∀ record ∈ records, Filed s.history record) (answered : Bool) :
    Good calls s i (.addRecords records, done answered) := by
  refine ⟨allowed_drawn tables drawn present home filed, trivial, fun id touched => ?_,
    fun _ _ same => Effect.noConfusion same⟩
  obtain ⟨record, member, rfl⟩ := touched
  exact .inl ⟨space, own, (home record member).symm⟩

theorem inserted_good (tables : Tables s) {id : UuidText} {now : Instant} {answered : Bool}
    {made : Effect × Phase} (knows : Knows calls s i phase)
    (next : inserted s id now answered phase = some made) : Good calls s i made := by
  unfold inserted at next
  split at next
  · rename_i draft slug
    dsimp only at next
    split at next
    · cases next
    · rename_i fresh
      obtain ⟨unseen, drawn⟩ := not_or.mp fresh
      split at next
      · cases next
        exact .quiet trivial
      · rename_i free
        cases next
        have missing : s.hasSpace id = false := by
          rw [← Bool.not_eq_true]
          intro present
          obtain ⟨row, inside, same⟩ := hasSpace_iff.mp present
          exact unseen (same ▸ List.mem_map_of_mem (tables.live row inside))
        refine ⟨.addSpace (draft.row slug id) _ ⟨knows.slug, knows.sound.content⟩
          (Bool.eq_false_of_not_eq_true free) missing (fun version seen same => ?_)
          (fun record member => (seedRows_mem member).1) (fun record member => ?_)
          (not_not.mp drawn), trivial, ?_, fun row rows same => ?_⟩
        · exact absurd (List.mem_map.mpr ⟨version, seen, same⟩) unseen
        · -- a page has no rows
          cases kind : draft.kind with
          | app =>
            exact @seedRows_filed (draft.row slug id) _ List.mem_cons_self kind _ _
              knows.sound.seeds record member
          | page =>
            rw [knows.sound.page kind] at member
            cases member
        · intro other here
          rw [here]
          exact .inr ⟨unseen, draft.row slug id, List.mem_append_right _ List.mem_cons_self, rfl,
            knows.own id slug⟩
        · cases same
          exact .inl unseen
  · rename_i space entityName data spaceUserId
    obtain ⟨own, app, entity, declared, conforms⟩ := knows
    dsimp only at next
    split at next
    · cases next
    · rename_i drawn
      split at next
      · rename_i present
        cases next
        refine good_drawn tables own (not_not.mp drawn) present (fun record member => ?_)
          (fun record member => ?_) answered
        · rw [List.mem_singleton.mp member]
        · rw [List.mem_singleton.mp member]
          exact ⟨space, own.1, rfl, app, entity, data, declared, conforms, rfl⟩
      · cases next
        exact .quiet trivial
  · cases next

theorem Respecced.seen (respecced : Respecced calls s i entity) (tables : Tables s)
    {version : SpaceRow} (seen : version ∈ s.history) (same : version.id = entity.id) :
    version.identity = entity.identity := by
  obtain ⟨row, own, id, identity⟩ := respecced.own
  rw [← identity]
  exact tables.identity version seen row own.1 (same.trans id.symm)

theorem saving_good (tables : Tables s) (respecced : Respecced calls s i entity) {seen : SpaceRow}
    (read : seen ∈ s.history) (here : seen.id = entity.id) (answered : Bool) :
    Good calls s i (.setSpace entity.id (savedSpace same seen entity), done answered) := by
  have unmoved := respecced.seen tables read here
  refine ⟨.setSpace _ _ fun row inside own => ?_, trivial, ?_, fun _ _ same => Effect.noConfusion same⟩
  · have live := tables.live row inside
    have identity := @savedSpace_identity same seen entity row unmoved
    have kind : row.kind = .app :=
      (congrArg Identity.kind (respecced.seen tables live own)).trans respecced.app
    obtain ⟨safe, content⟩ := tables.sound row live
    obtain ⟨accepted, html⟩ := content.app kind
    have slug : (savedSpace same seen entity row).slug = row.slug := congrArg Identity.slug identity
    have still : (savedSpace same seen entity row).kind = .app :=
      (congrArg Identity.kind identity).trans kind
    refine ⟨own, identity, by rw [slug]; exact safe, fun _ => ⟨?_, html⟩, fun page => ?_⟩
    · simp only [savedSpace, saved]
      split
      · exact accepted
      · exact respecced.accepted
    · rw [still] at page
      cases page
  · rintro _ rfl
    obtain ⟨row, own, id, -⟩ := respecced.own
    exact .inl ⟨row, own.mono fun _ => history_grows _, id⟩

theorem restored_good (tables : Tables s) (respecced : Respecced calls s i entity)
    (free : ¬(s.hasSpace entity.id ∨ s.hasSlug entity.slug)) (answered : Bool) :
    Good calls s i (.addSpace (restored entity) [], done answered) := by
  obtain ⟨row, own, id, identity⟩ := respecced.own
  have slug : row.slug = entity.slug := congrArg Identity.slug identity
  have sound : (restored entity).Sound := by
    refine ⟨?_, fun _ => ⟨respecced.accepted, rfl⟩, fun page => ?_⟩
    · change UrlSafe entity.slug
      rw [← slug]
      exact (tables.sound row own.1).1
    · exact absurd (respecced.app.symm.trans page) nofun
  obtain ⟨missing, named⟩ := not_or.mp free
  refine ⟨.addSpace _ _ sound (Bool.eq_false_of_not_eq_true named)
    (Bool.eq_false_of_not_eq_true missing) (fun version seen same => ?_) nofun nofun
    ⟨List.nodup_nil, nofun⟩, trivial, ?_, fun _ _ _ => .inr respecced.call⟩
  · exact respecced.seen tables seen same
  · rintro _ rfl
    refine .inl ⟨restored entity, ⟨List.mem_append_right _ List.mem_cons_self, ?_⟩, rfl⟩
    have owns := own.2
    rw [id, identity] at owns
    exact owns

theorem edited_good (tables : Tables s) {page : SpaceRow} (own : Own calls s i page)
    (kind : page.kind = .page) {html : String} {title : PageTitle}
    (spec : PageSpec title.name (.obj title.spec))
    (valid : validatePageHtml (.str html) = .ok html) (answered : Bool) :
    Good calls s i (.setSpace page.id fun row =>
      { row with html := some html, name := title.name, spec := .obj title.spec },
      done answered) := by
  refine ⟨.setSpace _ _ fun row inside here => ⟨here, rfl, ?_⟩, trivial, ?_,
    fun _ _ same => Effect.noConfusion same⟩
  · have live := tables.live row inside
    have still : row.kind = .page :=
      (congrArg Identity.kind (tables.identity row live page own.1 here)).trans kind
    refine ⟨(tables.sound row live).1, fun app => ?_, fun _ => ⟨spec, html, rfl, valid⟩⟩
    exact absurd (still.symm.trans app) nofun
  · rintro _ rfl
    exact .inl ⟨page, own.mono fun _ => history_grows _, rfl⟩

theorem Filed.moved {history : List SpaceRow} {record other : SpaceRecord}
    (filed : Filed history record) (same : place other = place record)
    (data : other.data = record.data) : Filed history other := by
  obtain ⟨home, named⟩ := Prod.mk.inj same
  unfold Filed at filed ⊢
  rw [home, named, data]
  exact filed

theorem OwnRecord.seen {record version : SpaceRecord} (own : OwnRecord calls s i record)
    (tables : Tables s) (seen : version ∈ s.filed) (same : version.id = record.id) :
    place version = place record := by
  obtain ⟨-, other, known, id, unmoved⟩ := own
  rw [← unmoved]
  exact tables.places version seen other known (same.trans id.symm)

theorem savingRecord_good (tables : Tables s) {record seen : SpaceRecord}
    (own : OwnRecord calls s i record) (filed : Filed s.history record) (read : seen ∈ s.filed)
    (here : seen.id = record.id) (now : Instant) (answered : Bool) :
    Good calls s i (.setRecord record.id (savedRecord same seen record now), done answered) := by
  obtain ⟨home, named⟩ := Prod.mk.inj (own.seen tables read here)
  refine ⟨.setRecord _ _ fun row inside at_ => ?_, trivial, ?_,
    fun _ _ same => Effect.noConfusion same⟩
  · have unmoved : place (savedRecord same seen record now row) = place row := by
      simp [place, savedRecord, saved, home, named]
    refine ⟨at_, unmoved, ?_⟩
    have kept := tables.kept row inside
    by_cases equal : (savedRecord same seen record now row).data = row.data
    · exact (tables.filed row kept).moved unmoved equal
    · refine filed.moved (unmoved.trans (own.seen tables kept at_)) ?_
      simp only [savedRecord, saved] at equal ⊢
      split
      · rename_i unchanged
        rw [if_pos unchanged] at equal
        exact absurd rfl equal
      · rfl
  · rintro _ ⟨row, inside, same, rfl⟩
    obtain ⟨space, own', id⟩ := own.1
    have home := congrArg Prod.fst (own.seen tables (tables.kept row inside) same)
    exact .inl ⟨space, own', id.trans home.symm⟩

theorem statement_good (tables : Tables s) {now : Instant} {answered : Bool}
    {made : Effect × Phase} (knows : Knows calls s i phase)
    (next : statement same s now answered (calls i) phase = some made) : Good calls s i made := by
  unfold statement at next
  split at next
  · rename_i space seeds
    obtain ⟨own, app, clean⟩ := knows
    dsimp only at next
    split at next
    · cases next
    · rename_i drawn
      split at next
      · rename_i present
        cases next
        exact good_drawn tables own (not_not.mp drawn) present
          (fun record member => (seedRows_mem member).1) (seedRows_filed own.1 app clean) answered
      · cases next
        exact .quiet trivial
  · rename_i entity seen
    cases next
    obtain ⟨read, here⟩ := knows.2 seen rfl
    exact saving_good tables knows.1 read here answered
  · rename_i entity
    split at next
    · cases next
      exact .quiet trivial
    · rename_i free
      cases next
      exact restored_good tables knows.1 free answered
  · rename_i page html title
    cases next
    obtain ⟨own, kind, spec, valid⟩ := knows
    exact edited_good tables own kind spec valid answered
  · rename_i record seen
    cases next
    obtain ⟨read, here⟩ := knows.2 seen rfl
    exact savingRecord_good tables knows.1.1 knows.1.2 read here now answered
  · rename_i record
    split at next
    · cases next
      exact .quiet trivial
    · rename_i free
      cases next
      obtain ⟨missing, present⟩ := not_or.mp free
      obtain ⟨⟨own, filed⟩, -⟩ := knows
      refine ⟨.addRecords _ (fun other member => ?_) (fun other member => ?_) (by simp)
        (fun other member => ?_) (fun other member version seen same => ?_), trivial, ?_,
        fun _ _ same => Effect.noConfusion same⟩
      · rw [List.mem_singleton.mp member]
        exact filed
      · rw [List.mem_singleton.mp member]
        exact Bool.eq_true_of_not_eq_false present
      · rw [List.mem_singleton.mp member]
        exact missing
      · rw [List.mem_singleton.mp member] at same ⊢
        exact own.seen tables seen same
      · rintro _ ⟨other, member, rfl⟩
        rw [List.mem_singleton.mp member]
        exact .inl own.1
  · rename_i space entityName recordId
    dsimp only at next
    split at next
    · cases next
      refine ⟨.dropRecords _, trivial, ?_, fun _ _ same => Effect.noConfusion same⟩
      rintro _ ⟨record, inside, keyed, rfl⟩
      simp only [Bool.and_eq_true, beq_iff_eq] at keyed
      exact .inl ⟨space, knows, keyed.1.2.symm⟩
    · cases next
      exact .quiet trivial
  · rename_i workspaceId id call
    split at next
    · rename_i present
      cases next
      obtain ⟨row, inside, keyed⟩ := List.any_eq_true.mp present
      simp only [Bool.and_eq_true, beq_iff_eq] at keyed
      refine ⟨.dropSpace id, trivial, ?_, fun _ _ same => Effect.noConfusion same⟩
      rintro _ rfl
      refine .inl ⟨row, ⟨tables.live row inside, ?_⟩, keyed.1⟩
      rw [call]
      exact keyed
    · cases next
      exact .quiet trivial
  · cases next

theorem drafted_naming {made : Except HttpException Draft}
    (drafted : ∀ draft, made = .ok draft → draft.Sound ∧
      ∀ id slug, (calls i).Makes (draft.row slug id).identity) :
    Knows calls s i (naming toLowerCase made) := by
  cases made with
  | error e => trivial
  | ok draft =>
    obtain ⟨sound, own⟩ := drafted draft rfl
    exact ⟨sound, slugBase_urlSafe toLowerCase draft.name, own⟩

structure Inv (calls : Nat → Call) (s : State) : Prop where
  tables : Tables s
  knows : ∀ i, Knows calls s i (s.phase i)

theorem inv_start : Inv calls start where
  tables := ⟨nofun, List.nodup_nil, List.nodup_nil, nofun, nofun, nofun, nofun, List.nodup_nil,
    nofun, nofun⟩
  knows _ := trivial

theorem begin_good {draw : Nat → UuidText} {made : Effect × Phase}
    (next : effect toLowerCase same calls s (.begin i draw) = some made) :
    Good calls s i made := by
  simp only [effect] at next
  split at next
  · rename_i workspaceId userId specInput recordsInput waiting call
    cases next
    refine .quiet (drafted_naming fun draft made => ⟨appDraft_sound made, fun id slug => ?_⟩)
    rw [call]
    unfold appDraft at made
    split at made
    · cases made
    · split at made <;> cases made
      exact ⟨rfl, rfl⟩
  · rename_i workspaceId userId input waiting call
    cases next
    refine .quiet (drafted_naming fun draft made => ⟨pageDraft_sound made, fun id slug => ?_⟩)
    rw [call]
    unfold pageDraft at made
    cases valid : validatePageInput input with
    | error e =>
      rw [valid] at made
      cases made
    | ok page =>
      rw [valid] at made
      cases made
      exact ⟨rfl, rfl⟩
  · cases next

theorem effect_good (inv : Inv calls s) {a : Act} {made : Effect × Phase}
    (next : effect toLowerCase same calls s a = some made) : Good calls s a.call made := by
  have knows := inv.knows a.call
  cases a with
  | begin i draw => exact begin_good next
  | «exists» i =>
    simp only [effect, Act.call] at next knows
    split at next
    · rename_i draft candidate suffix at_
      rw [at_] at knows
      cases next
      refine .quiet ?_
      split
      · exact ⟨knows.sound, suffixed_urlSafe toLowerCase draft.name (suffix + 1), knows.own⟩
      · exact knows
    · cases next
  | insert i id now answered => exact inserted_good inv.tables knows next
  | load i =>
    simp only [effect] at next
    split at next
    · obtain ⟨phase, read, rfl⟩ := Option.map_eq_some_iff.mp next
      exact .quiet (loaded_knows inv.tables read)
    · cases next
  | lookup i draw =>
    simp only [effect, Act.call] at next knows
    split at next
    · rename_i space _ _ recordsInput at_ call
      rw [at_] at knows
      cases next
      exact .quiet (filled_knows inv.tables knows recordsInput draw)
    · rename_i space _ entityName recordId data at_ call
      rw [at_] at knows
      cases next
      exact .quiet (corrected_knows inv.tables knows entityName recordId data)
    · cases next
  | reread i =>
    simp only [effect, Act.call] at next knows
    split at next
    · rename_i entity at_
      rw [at_] at knows
      cases next
      refine .quiet ⟨knows, fun row found => ?_⟩
      exact ⟨inv.tables.live row (List.mem_of_find?_eq_some found), by
        simpa using List.find?_some found⟩
    · rename_i record at_
      rw [at_] at knows
      cases next
      refine .quiet ⟨knows, fun row found => ?_⟩
      exact ⟨inv.tables.kept row (List.mem_of_find?_eq_some found), by
        simpa using List.find?_some found⟩
    · cases next
  | write i now answered => exact statement_good inv.tables knows next
  | fail i =>
    simp only [effect] at next
    split at next
    · cases next
    · cases next
      exact .quiet trivial

theorem step_good (inv : Inv calls s) {a : Act} (taken : Step toLowerCase same calls s a t) :
    ∃ made, Good calls s a.call made ∧ t = (s.apply made.1).enter a.call made.2 := by
  obtain ⟨made, next, rfl⟩ := Option.map_eq_some_iff.mp taken
  exact ⟨made, effect_good inv next, rfl⟩

theorem inv_step (inv : Inv calls s) {a : Act} (taken : Step toLowerCase same calls s a t) :
    Inv calls t := by
  obtain ⟨⟨e, phase⟩, good, rfl⟩ := step_good inv taken
  have tables := inv.tables.apply good.allowed
  refine ⟨⟨tables.live, tables.ids, tables.slugs, tables.sound, tables.identity, tables.kept,
    tables.homes, tables.recordIds, tables.filed, tables.places⟩, fun j => ?_⟩
  by_cases same : j = a.call
  · subst same
    have now := @Knows.mono calls _ ((s.apply e).enter a.call phase) a.call phase good.knows
      (fun _ seen => seen) fun _ seen => seen
    simpa [State.enter] using now
  · have phases : ((s.apply e).enter a.call phase).phase j = s.phase j := by
      refine (Function.update_of_ne same _ _).trans ?_
      cases e <;> rfl
    rw [phases]
    exact (inv.knows j).mono (fun _ => history_grows e) fun _ => filed_grows e

/-! Whole runs -/

theorem apply_history {e : Effect} {row : SpaceRow} (seen : row ∈ (s.apply e).history) :
    row ∈ s.history ∨ row ∈ (s.apply e).spaces := by
  cases e with
  | addSpace | setSpace =>
    exact (List.mem_append.mp seen).imp_right fun now => by
      first | exact now | exact List.mem_append_right _ now
  | _ => exact .inl seen

/-- The history is of versions that the table has had. -/
theorem history_seen {steps : List (Transition State Act)}
    (run : Run (Step toLowerCase same calls) start steps s) :
    ∀ version ∈ s.history, ∃ x ∈ steps, version ∈ x.post.spaces := by
  induction run with
  | nil => exact fun version absent => absurd absent List.not_mem_nil
  | @snoc steps s t a run taken ih =>
    intro version seen
    obtain ⟨made, -, rfl⟩ := Option.map_eq_some_iff.mp taken
    obtain before | now := apply_history seen
    · obtain ⟨x, earlier, there⟩ := ih version before
      exact ⟨x, List.mem_append_left _ earlier, there⟩
    · exact ⟨_, List.mem_append_right _ List.mem_cons_self, now⟩

/-- Whatever fails, and however the calls overlap: slugs are distinct and safe in a URL, an app has
an accepted spec and a page a valid document, and every record is of an app that is there, and was
clean for an entity that the app's spec has had. -/
theorem tables_stay_sound {steps : List (Transition State Act)}
    (run : Run (Step toLowerCase same calls) start steps s) :
    (s.spaces.map SpaceRow.slug).Nodup ∧ (∀ row ∈ s.spaces, row.Sound) ∧
    ∀ record ∈ s.records, ∃ row ∈ s.spaces, row.id = record.spaceId ∧ row.kind = .app ∧
      ∃ x ∈ steps, ∃ version ∈ x.post.spaces, version.id = row.id ∧
        ∃ entity clean, findEntity (specEntities version.spec) record.entityName = some entity ∧
          Conforms entity clean ∧ record.data = stored clean := by
  have inv : Inv calls s := run.invariant inv_start fun _ _ _ inv taken => inv_step inv taken
  have tables := inv.tables
  refine ⟨tables.slugs, fun row inside => tables.sound row (tables.live row inside),
    fun record member => ?_⟩
  obtain ⟨row, inside, home⟩ := hasSpace_iff.mp (tables.homes record member)
  obtain ⟨version, seen, own, app, clean⟩ := tables.filed record (tables.kept record member)
  obtain ⟨x, earlier, there⟩ := history_seen run version seen
  have identity := tables.identity row (tables.live row inside) version seen (home.trans own.symm)
  exact ⟨row, inside, home, (congrArg Identity.kind identity).trans app, x, earlier, version, there,
    own.trans home.symm, clean⟩

/-- The row of a Space. -/
def spacesOf (s : State) (id : UuidText) : List SpaceRow := s.spaces.filter fun row => row.id == id

def recordsOf (s : State) (id : UuidText) : List SpaceRecord :=
  s.records.filter fun record => record.spaceId == id

theorem setAt_filter {α : Type} {key : α → UuidText} {id : UuidText} {f : α → α} {test : α → Bool}
    {rows : List α}
    (outside : ∀ row ∈ rows, key row = id → test row = false ∧ test (f row) = false) :
    (setAt key id f rows).filter test = rows.filter test := by
  induction rows with
  | nil => rfl
  | cons row rest ih =>
    obtain ⟨here, later⟩ := List.forall_mem_cons.mp outside
    have tail := ih later
    rw [setAt, List.map_cons, List.filter_cons, List.filter_cons]
    by_cases own : key row = id
    · obtain ⟨old, new⟩ := here own
      simpa [own, old, new, setAt] using tail
    · rw [if_neg own]
      split
      · exact congrArg (row :: ·) tail
      · exact tail

theorem filter_more {α : Type} {test : α → Bool} {rows more : List α}
    (outside : ∀ row ∈ more, test row = false) : (rows ++ more).filter test = rows.filter test := by
  have none_ : more.filter test = [] :=
    List.filter_eq_nil_iff.mpr fun row member => by simp [outside row member]
  rw [List.filter_append, none_, List.append_nil]

/-- What a statement does not touch, it leaves. -/
theorem untouched {e : Effect} (allowed : Allowed s e) {id : UuidText} (apart : ¬Touched s e id) :
    spacesOf (s.apply e) id = spacesOf s id ∧ recordsOf (s.apply e) id = recordsOf s id := by
  cases allowed with
  | nothing => exact ⟨rfl, rfl⟩
  | addSpace row records sound slug fresh identity homes =>
    have other : row.id ≠ id := fun same => apart same.symm
    refine ⟨filter_more fun new last => ?_, filter_more fun record new => ?_⟩
    · rw [List.mem_singleton.mp last]
      exact beq_eq_false_iff_ne.mpr other
    · rw [homes record new]
      exact beq_eq_false_iff_ne.mpr other
  | addRecords records =>
    exact ⟨rfl, filter_more fun record new =>
      beq_eq_false_iff_ne.mpr fun same => apart ⟨record, new, same⟩⟩
  | setSpace own f sound =>
    have other : own ≠ id := fun same => apart same.symm
    refine ⟨setAt_filter fun row inside here => ?_, rfl⟩
    rw [here, (sound row inside here).1]
    exact ⟨beq_eq_false_iff_ne.mpr other, beq_eq_false_iff_ne.mpr other⟩
  | setRecord own f sound =>
    refine ⟨rfl, setAt_filter fun record inside here => ?_⟩
    have home : (f record).spaceId = record.spaceId :=
      congrArg Prod.fst (sound record inside here).2.1
    have other : record.spaceId ≠ id := fun same => apart ⟨record, inside, here, same⟩
    rw [home]
    exact ⟨beq_eq_false_iff_ne.mpr other, beq_eq_false_iff_ne.mpr other⟩
  | dropSpace own =>
    have other : own ≠ id := fun same => apart same.symm
    have kept : ∀ key : UuidText, (key == id && key != own) = (key == id) := by
      intro key
      by_cases same : key = id
      · simp [same, Ne.symm other]
      · simp [same]
    constructor
    · change (s.spaces.filter _).filter _ = _
      simp only [List.filter_filter, kept, spacesOf]
    · change (s.records.filter _).filter _ = _
      simp only [List.filter_filter, kept, recordsOf]
  | dropRecords p =>
    refine ⟨rfl, ?_⟩
    change (s.records.filter _).filter _ = _
    rw [List.filter_filter, recordsOf]
    refine List.filter_congr fun record inside => ?_
    by_cases same : record.spaceId = id
    · have out : p record = false :=
        Bool.eq_false_of_not_eq_true fun hit => apart ⟨record, inside, hit, same⟩
      simp [same, out]
    · simp [same]

/-- A version of a row stays in the history. -/
theorem history_kept {steps : List (Transition State Act)}
    (run : Run (Step toLowerCase same calls) start steps s) :
    ∀ x ∈ steps, ∀ row, row ∈ x.post.spaces ∨ row ∈ x.post.history → row ∈ s.history := by
  induction run with
  | nil => exact fun x absent => absurd absent List.not_mem_nil
  | @snoc steps s t a run taken ih =>
    have inv : Inv calls s := run.invariant inv_start fun _ _ _ inv taken => inv_step inv taken
    have later := inv_step inv taken
    obtain ⟨made, -, rfl⟩ := Option.map_eq_some_iff.mp taken
    intro x member row seen
    obtain before | last := List.mem_append.mp member
    · exact history_grows made.1 (ih x before row seen)
    · rw [List.mem_singleton.mp last] at seen
      exact seen.elim (later.tables.live row) id

/-- A Space keeps its workspace, author, slug and kind in every state of a run. A step leaves every
Space alone, with its records, but those that its call is for and one that it makes; and a Space that
was deleted comes back only where an `updateSpec` that had read it saves. -/
theorem spaces_apart {steps : List (Transition State Act)}
    (run : Run (Step toLowerCase same calls) start steps s) :
    (∀ x ∈ steps, ∀ row ∈ x.post.spaces, ∀ y ∈ steps, ∀ other ∈ y.post.spaces,
      row.id = other.id → row.identity = other.identity) ∧
    ∀ x ∈ steps,
      (∀ y ∈ steps, ∀ row ∈ y.post.spaces, ¬(calls x.label.call).Owns row.id row.identity →
        spacesOf x.post row.id = spacesOf x.pre row.id ∧
            recordsOf x.post row.id = recordsOf x.pre row.id ∨
          row.id ∉ x.pre.history.map SpaceRow.id ∧ (calls x.label.call).Makes row.identity) ∧
      ∀ row ∈ x.post.spaces, row.id ∉ x.pre.spaces.map SpaceRow.id →
        row.id ∉ x.pre.history.map SpaceRow.id ∨
          ∃ workspaceId slug specInput, calls x.label.call = .updateSpec workspaceId slug specInput := by
  have inv : Inv calls s := run.invariant inv_start fun _ _ _ inv taken => inv_step inv taken
  have kept := history_kept run
  have good : ∀ x ∈ steps, ∃ made, Good calls x.pre x.label.call made ∧
      x.post = (x.pre.apply made.1).enter x.label.call made.2 :=
    run.lawful_of (fun x => ∃ made, Good calls x.pre x.label.call made ∧
        x.post = (x.pre.apply made.1).enter x.label.call made.2) (fun _ => True) inv_start
      (fun s a t inv taken _ => ⟨inv_step inv taken, step_good inv taken⟩) fun _ _ => trivial
  refine ⟨fun x first row here y second other there same => ?_, fun x member => ⟨?_, ?_⟩⟩
  · exact inv.tables.identity row (kept x first row (.inl here)) other
      (kept y second other (.inl there)) same
  · intro y second row there stranger
    obtain ⟨⟨e, phase⟩, good, post⟩ := good x member
    -- another version of the row has its identity
    have same : ∀ other ∈ (x.pre.apply e).history, other.id = row.id →
        other.identity = row.identity := by
      intro other seen id
      have seen : other ∈ s.history := kept x member other (.inr (by rw [post]; exact seen))
      exact inv.tables.identity other seen row (kept y second row (.inl there)) id
    by_cases touched : Touched x.pre e row.id
    · obtain ⟨own, ⟨seen, owns⟩, id⟩ | ⟨unseen, made, seen, id, makes⟩ := good.within row.id touched
      · rw [id, same own seen id] at owns
        exact absurd owns stranger
      · rw [same made seen id] at makes
        exact .inr ⟨unseen, makes⟩
    · rw [post]
      exact .inl (untouched good.allowed touched)
  · intro row here missing
    obtain ⟨⟨e, phase⟩, good, post⟩ := good x member
    rw [post] at here
    cases e with
    | addSpace new records =>
      obtain before | last := List.mem_append.mp here
      · exact absurd (List.mem_map_of_mem before) missing
      · rw [List.mem_singleton.mp last]
        exact good.back new records rfl
    | setSpace id f =>
      obtain ⟨old, inside, own, rfl⟩ | ⟨inside, -⟩ := mem_setAt here
      · cases good.allowed with
        | setSpace _ _ sound =>
          have same : (f old).id = old.id := (sound old inside own).1.trans own.symm
          exact absurd (List.mem_map.mpr ⟨old, inside, same.symm⟩) missing
      · exact absurd (List.mem_map_of_mem inside) missing
    | dropSpace id => exact absurd (List.mem_map_of_mem (List.mem_of_mem_filter here)) missing
    | _ => exact absurd (List.mem_map_of_mem here) missing

end

/-! An app of tasks, deleted while its spec is being replaced -/

def tasksId : UuidText := ⟨"77777777-7777-4777-8777-777777777777", by decide⟩

def taskCalls : Nat → Call
  | 0 => .createFromSpec "acme" none taskSpec (some (.obj [("Task", .arr [launch])]))
  | 1 => .updateSpec "acme" "tasks" taskSpec
  | _ => .deleteForWorkspace "acme" tasksId

def taskBuilt : List Act :=
  [.begin 0 numberedDraws.id, .exists 0, .insert 0 tasksId 0 true]

/-- Two calls make the app at once, then a row is entered while its spec is being replaced. -/
def launchCalls : Nat → Call
  | 0 | 1 => .createFromSpec "acme" none taskSpec (some (.obj [("Task", .arr [launch])]))
  | 2 => .createRecord "tasks" "Task" launch none
  | _ => .updateSpec "acme" "tasks" taskSpec

def launched : List Act :=
  [.begin 0 numberedDraws.id, .begin 1 fun n => numberedDraws.id (n + 20), .exists 0, .exists 1,
    .insert 0 tasksId 0 true, .insert 1 (numberedDraws.id 8) 0 true, .load 2, .load 3,
    .insert 2 (numberedDraws.id 9) 0 true, .reread 3, .write 3 0 true]

theorem launch_filed : ∃ steps s,
    Run (Step String.toLower (fun _ _ => false) launchCalls) start steps s ∧
    s.spaces.map (·.slug) = ["tasks"] ∧ s.records.length = 2 ∧
    ∀ record ∈ s.records, ∃ row ∈ s.spaces, row.id = record.spaceId ∧ row.kind = .app := by
  have ran : ((follow (step String.toLower (fun _ _ => false) launchCalls) start launched).map
      fun r => (r.2.spaces.map (·.slug), r.2.records.length)) = some (["tasks"], 2) := by
    decide +kernel
  obtain ⟨⟨steps, s⟩, done, outcome⟩ := Option.map_eq_some_iff.mp ran
  obtain ⟨slugs, count⟩ := Prod.mk.inj outcome
  have run := follow_run done
  refine ⟨steps, s, run, slugs, count, fun record member => ?_⟩
  obtain ⟨row, inside, home, app, -⟩ := (tables_stay_sound run).2.2 record member
  exact ⟨row, inside, home, app⟩

/-- The app comes back without its row. -/
theorem tasks_return : ∃ steps s, Run (Step String.toLower (fun _ _ => false) taskCalls) start steps s ∧
    s.spaces.map (·.slug) = ["tasks"] ∧ s.records.length = 0 ∧
    ∀ x ∈ steps, ∀ row ∈ x.post.spaces, row.id ∉ x.pre.spaces.map SpaceRow.id →
      row.id ∉ x.pre.history.map SpaceRow.id ∨
        ∃ workspaceId slug specInput,
          taskCalls x.label.call = .updateSpec workspaceId slug specInput := by
  have ran : ((follow (step String.toLower (fun _ _ => false) taskCalls) start
      (taskBuilt ++ [.load 1, .write 2 0 true, .reread 1, .write 1 0 true])).map fun r =>
        (r.2.spaces.map (·.slug), r.2.records.length)) = some (["tasks"], 0) := by decide +kernel
  obtain ⟨⟨steps, s⟩, done, outcome⟩ := Option.map_eq_some_iff.mp ran
  obtain ⟨slugs, none_⟩ := Prod.mk.inj outcome
  have run := follow_run done
  exact ⟨steps, s, run, slugs, none_, fun x member => ((spaces_apart run).2 x member).2⟩

end Gomer.SpaceRuns
