import Mathlib.Data.List.Nodup
import Gomer.Lib.Http
import Gomer.Lib.Render
import Gomer.Database.Entities
import Gomer.Auth.Domains

/-! `SpacesService` and the routes behind `SpaceAuthGuard`: the rows and pages of the apps of
all workspaces, in shared tables. -/
namespace Gomer

open Jwt (Claim Signed)
open HttpException

/-! Specs -/

inductive FieldType where
  | string
  | text
  | number
  | date
  | datetime
  | boolean
  | select
  | reference
  deriving DecidableEq, Repr

structure FieldSpec where
  name : String
  type : FieldType
  required : Bool := false
  options : Option (List Json) := none
  refEntity : Option String := none

structure EntitySpec where
  name : String
  fields : List FieldSpec

inductive SpaceKind where
  | app
  | page
  deriving DecidableEq, Repr

inductive SpaceStatus where
  | draft
  | published
  deriving DecidableEq, Repr

structure Space where
  id : UuidText
  slug : String
  status : SpaceStatus
  kind : SpaceKind
  entities : List EntitySpec
  html : Option String
  pageState : List (String × Json)

structure SpaceRecord where
  id : UuidText
  spaceId : UuidText
  entityName : String
  data : List (String × Json)
  createdBySpaceUserId : Option String
  createdAt : Instant
  updatedAt : Instant

/-- The tables with the unique slug and the keys of the records. -/
@[ext]
structure SpaceDatabase where
  spaces : List Space
  records : List SpaceRecord
  slugKey : (spaces.map (·.slug)).Nodup
  recordKey : (records.map (·.id)).Nodup

/-! `validateRecordData` -/

def isObject : Json → Bool
  | .obj _ => true
  | _ => false

/-- The methods of `Object.prototype` that a field can be named after, with their own names. -/
def objectPrototype : List (String × String) :=
  [("constructor", "Object"), ("hasOwnProperty", "hasOwnProperty"),
    ("isPrototypeOf", "isPrototypeOf"), ("propertyIsEnumerable", "propertyIsEnumerable"),
    ("toLocaleString", "toLocaleString"), ("toString", "toString"), ("valueOf", "valueOf")]

/-- What `data[name]` reads: a property of the payload, or a method with its source text. -/
inductive Raw where
  | own (value : Json)
  | inherited (source : String)

def property (data : Json) (name : String) : Option Raw :=
  match data.get? name with
  | some value => some (.own value)
  | none => (objectPrototype.lookup name).map fun method =>
      .inherited ("function " ++ method ++ "() { [native code] }")

mutual
/-- An object whose own `toString` hides the method has no primitive value. -/
def convertible : Json → Bool
  | .obj fields => !fields.any fun field => field.1 == "toString"
  | .arr items => allConvertible items
  | _ => true

def allConvertible : List Json → Bool
  | [] => true
  | item :: items => convertible item && allConvertible items
end

def isBlank : Json → Bool
  | .null => true
  | .str value => value == ""
  | _ => false

namespace Raw

def isBlank : Raw → Bool
  | own value => Gomer.isBlank value
  | inherited _ => false

@[simp] theorem isBlank_own (value : Json) : (own value).isBlank = Gomer.isBlank value := rfl

@[simp] theorem isBlank_inherited (source : String) : (inherited source).isBlank = false := rfl

/-- `String(raw)`, where it does not throw. -/
def text? : Raw → Option String
  | own value => if convertible value then some value.toText else none
  | inherited source => some source

/-- `Number(raw)`, where it does not throw. -/
def number? : Raw → Option JsNumber.Double
  | own value => if convertible value then some value.toNumber else none
  | inherited _ => some .nan

def toBool : Raw → Bool
  | own value => value.toBool
  | inherited _ => true

end Raw

inductive FieldError where
  | invalid (message : String)
  | typeError

def isText (text : String) : Json → Bool
  | .str value => value == text
  | _ => false

/-- `options.join(', ')` -/
def joinOptions (options : List Json) : String :=
  ", ".intercalate (options.map fun option => if option.isNull then "" else option.toText)

def coerceFieldValue (field : FieldSpec) (raw : Raw) : Except FieldError Json :=
  match field.type with
  | .number =>
    match raw.number? with
    | none => .error .typeError
    | some num =>
      if num = .nan then .error (.invalid (field.name ++ " must be a number")) else .ok (.num num)
  | .boolean => .ok (.bool raw.toBool)
  | .select =>
    match field.options with
    | none => .error (.invalid (field.name ++ " must be one of: "))
    | some options =>
      match raw.text? with
      | none => .error .typeError
      | some text =>
        if options.any (isText text) then .ok (.str text)
        else if allConvertible options then
          .error (.invalid (field.name ++ " must be one of: " ++ joinOptions options))
        else .error .typeError
  | _ =>
    match raw.text? with
    | none => .error .typeError
    | some text => .ok (.str text)

/-- What one field contributes: nothing, an error, or a value. -/
def validateField (data : Json) (field : FieldSpec) : Except FieldError (Option Json) :=
  match (property data field.name).filter fun raw => !raw.isBlank with
  | none => if field.required then .error (.invalid (field.name ++ " is required")) else .ok none
  | some raw => (coerceFieldValue field raw).map some

/-- What `validateRecordData` throws: its own exception, or that of a conversion. -/
inductive RecordError where
  | http (exception : HttpException)
  | typeError

/-- The exception filter answers any other exception with a 500. -/
def RecordError.response : RecordError → HttpException
  | .http exception => exception
  | .typeError => internalServerError

def isTypeError : Except FieldError (Option Json) → Bool
  | .error .typeError => true
  | _ => false

def invalidMessage : Except FieldError (Option Json) → Option String
  | .error (.invalid message) => some message
  | _ => none

def coercedValue : Except FieldError (Option Json) → Option Json
  | .ok value => value
  | .error _ => none

def validateRecordData (entity : EntitySpec) (data : Json) :
    Except RecordError (List (String × Json)) :=
  if isObject data then
    let outcomes := entity.fields.map (validateField data)
    if outcomes.any isTypeError then .error .typeError
    else
      let errors := outcomes.filterMap invalidMessage
      if errors = [] then
        .ok (entity.fields.filterMap fun field =>
          (coercedValue (validateField data field)).map fun value => (field.name, value))
      else .error (.http (badRequest "Invalid record" errors))
  else .error (.http (badRequest "record data must be an object"))

/-! The store -/

/-- What Postgres and the driver decide: which texts are uuids, which texts and JSON are stored
(a NUL character is not), when two objects are the same one, and how many bytes one takes. -/
structure Postgres where
  uuid : String → Option UuidText
  encodable : String → Bool
  storable : Json → Bool
  sameData : List (String × Json) → List (String × Json) → Bool
  octetLength : List (String × Json) → Nat

/-- The key and the time that an insert draws. -/
structure Generated where
  id : UuidText
  now : Instant

namespace SpaceDatabase

variable (db : SpaceDatabase)

/-- `INSERT INTO space_records`; the key is unique. -/
def insertRecord (row : SpaceRecord) : Except HttpException SpaceDatabase :=
  if fresh : row.id ∉ db.records.map (·.id) then
    .ok { db with
      records := db.records ++ [row]
      recordKey := by
        rw [List.map_append]
        exact List.nodup_append_comm.mp (List.nodup_cons.mpr ⟨fresh, db.recordKey⟩) }
  else .error internalServerError

def setData (id : UuidText) (data : List (String × Json)) (now : Instant) : SpaceDatabase :=
  let written (row : SpaceRecord) : SpaceRecord :=
    if row.id = id then { row with data, updatedAt := now } else row
  { db with
    records := db.records.map written
    recordKey := by
      have same : db.records.map ((·.id) ∘ written) = db.records.map (·.id) :=
        List.map_congr_left fun row _ => by dsimp only [Function.comp, written]; split <;> rfl
      rw [List.map_map, same]
      exact db.recordKey }

def deleteRecords (p : SpaceRecord → Bool) : SpaceDatabase :=
  { db with
    records := db.records.filter fun row => !p row
    recordKey := db.recordKey.sublist (List.filter_sublist.map _) }

def setPageState (p : Space → Bool) (next : List (String × Json) → List (String × Json)) :
    SpaceDatabase :=
  let written (space : Space) : Space :=
    if p space then { space with pageState := next space.pageState } else space
  { db with
    spaces := db.spaces.map written
    slugKey := by
      have same : db.spaces.map ((·.slug) ∘ written) = db.spaces.map (·.slug) :=
        List.map_congr_left fun space _ => by dsimp only [Function.comp, written]; split <;> rfl
      rw [List.map_map, same]
      exact db.slugKey }

end SpaceDatabase

/-! `SpacesService` -/

section
variable (postgres : Postgres) (db : SpaceDatabase) (space : Space)

def entityOrFail (entityName : String) : Except HttpException EntitySpec :=
  match space.entities.find? fun entity => entity.name == entityName with
  | none => .error (notFound ("Unknown entity \"" ++ entityName ++ "\""))
  | some entity => .ok entity

def findPublishedBySlug (slug : String) : Except HttpException Space :=
  if postgres.encodable slug then
    match db.spaces.find? fun space => space.slug == slug && space.status == .published with
    | none => .error (notFound "Space not found")
    | some space => .ok space
  else .error internalServerError

def ofEntity (entity : EntitySpec) (row : SpaceRecord) : Bool :=
  row.spaceId == space.id && row.entityName == entity.name

def createRecord (entityName : String) (data : Json) (spaceUserId : Option String)
    (generated : Generated) : SpaceDatabase × Except HttpException SpaceRecord :=
  match entityOrFail space entityName with
  | .error e => (db, .error e)
  | .ok entity =>
    match validateRecordData entity data with
    | .error e => (db, .error e.response)
    | .ok clean =>
      let row : SpaceRecord :=
        ⟨generated.id, space.id, entity.name, clean, spaceUserId, generated.now, generated.now⟩
      if postgres.storable (.obj clean) = false then (db, .error internalServerError)
      else
        match db.insertRecord row with
        | .ok next => (next, .ok row)
        | .error e => (db, .error e)

/-- Newest first. -/
def listRecords (entityName : String) : Except HttpException (List SpaceRecord) :=
  (entityOrFail space entityName).map fun entity =>
    (db.records.filter (ofEntity space entity)).mergeSort fun a b => decide (b.createdAt ≤ a.createdAt)

/-- `findOne` with the id and the Space's key; a text that is no uuid is an error of the database. -/
def findRecord (entity : EntitySpec) (recordId : String) :
    Except HttpException (Option SpaceRecord) :=
  match postgres.uuid recordId with
  | none => .error internalServerError
  | some id => .ok (db.records.find? fun row => row.id == id && ofEntity space entity row)

/-- `save` of a loaded record; it writes nothing where no column differs. -/
def saveRecord (record : SpaceRecord) (clean : List (String × Json)) (now : Instant) :
    SpaceDatabase × Except HttpException SpaceRecord :=
  if postgres.storable (.obj clean) = false then (db, .error internalServerError)
  else if postgres.sameData record.data clean then (db, .ok { record with data := clean })
  else (db.setData record.id clean now, .ok { record with data := clean, updatedAt := now })

def updateRecord (entityName recordId : String) (data : Json) (now : Instant) :
    SpaceDatabase × Except HttpException SpaceRecord :=
  match entityOrFail space entityName with
  | .error e => (db, .error e)
  | .ok entity =>
    match findRecord postgres db space entity recordId with
    | .error e => (db, .error e)
    | .ok none => (db, .error (notFound "Record not found"))
    | .ok (some record) =>
      match validateRecordData entity data with
      | .error e => (db, .error e.response)
      | .ok clean => saveRecord postgres db record clean now

def deleteRecord (entityName recordId : String) : SpaceDatabase × Except HttpException Unit :=
  match entityOrFail space entityName with
  | .error e => (db, .error e)
  | .ok entity =>
    match postgres.uuid recordId with
    | none => (db, .error internalServerError)
    | some id =>
      let keyed (row : SpaceRecord) : Bool := row.id == id && ofEntity space entity row
      if db.records.any keyed then (db.deleteRecords keyed, .ok ())
      else (db, .error (notFound "Record not found"))

structure PageDocument where
  html : String
  state : List (String × Json)

def pageDocument : Except HttpException PageDocument :=
  if space.kind ≠ .page then .error (notFound "Page not found")
  else
    match db.spaces.find? fun row => row.id == space.id with
    | none => .error (notFound "Page not found")
    | some row =>
      match nonEmpty row.html with
      | none => .error (notFound "Page not found")
      | some html => .ok ⟨html, row.pageState⟩

def maxPageStateBytes : Nat := 1000000
def maxStateValueChars : Nat := 100000

/-- `value` is what is stored; `null` removes the key. -/
def validatePageStateEntry (key : String) (value : Json) : Except HttpException (String × Json) :=
  if key = "" ∨ 200 < Json.utf16Length key.toList then
    .error (badRequest "key must be a string of 1 to 200 characters")
  else if maxStateValueChars < Json.utf16Length value.stringify then
    .error (badRequest "value must be JSON of at most 100000 characters")
  else .ok (key, value)

def nextPageState (key : String) (value : Json) (state : List (String × Json)) :
    List (String × Json) :=
  let rest := state.filter fun field => field.1 != key
  if value.isNull then rest else rest ++ [(key, value)]

def savePageState (key : String) (value : Json) : SpaceDatabase × Except HttpException Unit :=
  if space.kind ≠ .page then (db, .error (notFound "Page not found"))
  else
    match validatePageStateEntry key value with
    | .error e => (db, .error e)
    | .ok entry =>
      let next := nextPageState entry.1 entry.2
      let fits (row : Space) : Bool := row.id == space.id &&
        decide (postgres.octetLength (next row.pageState) ≤ maxPageStateBytes)
      if postgres.storable (.obj [entry]) = false then (db, .error internalServerError)
      else if db.spaces.any fits then (db.setPageState fits next, .ok ())
      else (db, .error (badRequest "This page has saved too much data"))

end

/-! The routes -/

inductive SpaceRoute where
  | listRecords (entity : String)
  | createRecord (entity : String) (body : Json)
  | updateRecord (entity recordId : String) (body : Json)
  | deleteRecord (entity recordId : String)
  | page
  | savePageState (body : Json)

/-- The bearer token is absent where the header is. -/
structure SpaceRequest where
  slug : String
  token : Option Signed
  route : SpaceRoute

inductive SpaceResponse where
  | records (rows : List SpaceRecord)
  | record (row : SpaceRecord)
  | page (document : PageDocument)
  | success

def SpaceAuthGuard.canActivate (service : AuthService) (postgres : Postgres) (db : SpaceDatabase)
    (token : Option Signed) (slug : String) (now : Int) :
    Except HttpException (Space × AuthenticatedSpaceUser) :=
  match token with
  | none => .error (unauthorized "Missing space session")
  | some token =>
    match service.verifySession token now with
    | .error (.unauthorized message) => .error (unauthorized message)
    | .error _ => .error internalServerError
    | .ok spaceUser =>
      match findPublishedBySlug postgres db slug with
      | .error e => .error e
      | .ok space =>
        if some (.text space.id.text) ≠ spaceUser.spaceId then
          .error (unauthorized "Session does not belong to this app")
        else .ok (space, spaceUser)

/-- A body with no property beyond those of its class. -/
def whitelisted (names : List String) : Json → Bool
  | .obj fields => fields.all fun field => names.contains field.1
  | _ => false

def recordDataDto (body : Json) : Except HttpException Json :=
  match body.get? "data" with
  | some data => if whitelisted ["data"] body && isObject data then .ok data
      else .error (badRequest "Bad Request")
  | none => .error (badRequest "Bad Request")

/-- The key is converted to a string before it is checked. -/
def pageStateDto (body : Json) : Except HttpException (String × Json) :=
  match (body.get? "key").filter fun key => !key.isNull with
  | some key =>
    if whitelisted ["key", "value"] body && 1 ≤ key.toText.length && key.toText.length ≤ 200 then
      .ok (key.toText, (body.get? "value").getD .null)
    else .error (badRequest "Bad Request")
  | none => .error (badRequest "Bad Request")

def userIdOf (spaceUser : AuthenticatedSpaceUser) : Option String :=
  match spaceUser.spaceUserId with
  | some (.text id) => some id
  | _ => none

/-- The controller method of a route, for the Space that the guard pinned. -/
def dispatch (postgres : Postgres) (db : SpaceDatabase) (space : Space)
    (spaceUser : AuthenticatedSpaceUser) (generated : Generated) :
    SpaceRoute → SpaceDatabase × Except HttpException SpaceResponse
  | .listRecords entity => (db, (listRecords db space entity).map .records)
  | .createRecord entity body =>
    match recordDataDto body with
    | .error e => (db, .error e)
    | .ok data =>
      let done := createRecord postgres db space entity data (userIdOf spaceUser) generated
      (done.1, done.2.map .record)
  | .updateRecord entity recordId body =>
    match recordDataDto body with
    | .error e => (db, .error e)
    | .ok data =>
      let done := updateRecord postgres db space entity recordId data generated.now
      (done.1, done.2.map .record)
  | .deleteRecord entity recordId =>
    let done := deleteRecord postgres db space entity recordId
    (done.1, done.2.map fun _ => .success)
  | .page => (db, (pageDocument db space).map .page)
  | .savePageState body =>
    match pageStateDto body with
    | .error e => (db, .error e)
    | .ok (key, value) =>
      let done := savePageState postgres db space key value
      (done.1, done.2.map fun _ => .success)

def handleSpaceRequest (service : AuthService) (postgres : Postgres) (db : SpaceDatabase)
    (request : SpaceRequest) (generated : Generated) (now : Int) :
    SpaceDatabase × Except HttpException SpaceResponse :=
  match SpaceAuthGuard.canActivate service postgres db request.token request.slug now with
  | .error e => (db, .error e)
  | .ok (space, spaceUser) => dispatch postgres db space spaceUser generated request.route

end Gomer
