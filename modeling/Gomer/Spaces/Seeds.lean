import Gomer.Spaces.RecordData
import Mathlib.Data.List.Sort

/-! `prepareSeedRecords`: the starting rows of an app, with their references resolved. -/
namespace Gomer.Seeds

open HttpException
open Specs (recordEntity entitiesOf)

def maxSeedRecords : Nat := 200

/-- A row with its id; also a row that is already in the app. -/
structure SeedRecord where
  id : UuidText
  entityName : String
  data : List (String × Json)

/-- A seed and the place in the input that its errors name. -/
structure Placed where
  seed : SeedRecord
  path : String

/-- The entities of an accepted spec, as far as rows are checked against them. -/
def specEntities (spec : Json) : List EntitySpec := (entitiesOf spec).map recordEntity

def findEntity (spec : List EntitySpec) (name : String) : Option EntitySpec :=
  spec.find? fun entity => entity.name == name

def isLabel (field : FieldSpec) : Bool := field.type == .string || field.type == .text

def labelFieldOf (entity : EntitySpec) : Option FieldSpec := entity.fields.find? isLabel

/-! The app spelled out for an error -/

def typeText (field : FieldSpec) : String :=
  match field.type with
  | .string => "string"
  | .text => "text"
  | .number => "number"
  | .date => "date"
  | .datetime => "datetime"
  | .boolean => "boolean"
  | .select => "select: " ++ " | ".intercalate ((field.options.getD []).map fun option =>
      if option.isNull then "" else option.toText)
  | .reference => "reference to a " ++ field.refEntity.getD "undefined" ++ ", by its name"

def describeEntity (entity : EntitySpec) : String :=
  entity.name ++ ": " ++ ", ".intercalate (entity.fields.map fun field =>
    field.name ++ " (" ++ typeText field ++ (if field.required then ", required" else "") ++ ")")

def describeApp (spec : List EntitySpec) : String := "; ".intercalate (spec.map describeEntity)

/-- `join` throws on an option that has no primitive value. -/
def describable (spec : List EntitySpec) : Bool :=
  spec.all fun entity => entity.fields.all fun field =>
    field.type != .select || allConvertible (field.options.getD [])

/-! The keys of an object, as `Object.keys` lists them -/

/-- An array index: JavaScript lists these first, in ascending order. -/
def indexKey (key : String) : Option Nat :=
  (JsNumber.digits1 10 key.toList).filter fun index =>
    Nat.toDigits 10 index == key.toList && index < 4294967295

def orderedKeys (names : List String) : List String :=
  let keys := names.eraseDups
  ((keys.filter fun key => (indexKey key).isSome).insertionSort
      fun a b => (indexKey a).getD 0 ≤ (indexKey b).getD 0) ++
    keys.filter fun key => (indexKey key).isNone

def keysOf : Json → List String
  | .obj fields => orderedKeys (fields.map Prod.fst)
  | _ => []

/-- `Object.entries` -/
def entriesOf (value : Json) : List (String × Json) :=
  (keysOf value).map fun key => (key, (value.get? key).getD .null)

def rowsOf : Json → List Json
  | .arr rows => rows
  | _ => []

/-! The first pass: every row by itself -/

/-- The problems of a rejected record, or the message of the exception. -/
def reasons : RecordError → List String
  | .http exception => if exception.errors = [] then [exception.message] else exception.errors
  | .typeError => ["Cannot convert object to primitive value"]

def rowData (entity : EntitySpec) (row : Json) (path : String) :
    Except (List String) (List (String × Json)) :=
  if isObject row then
    let unknown := (keysOf row).filter fun key => !(entity.fields.map FieldSpec.name).contains key
    if unknown ≠ [] then
      .error [path ++ ": unknown field " ++ ", ".intercalate (unknown.map fun key => "\"" ++ key ++ "\"")]
    else
      match validateRecordData entity row with
      | .ok data => if data = [] then .error [path ++ " has no values"] else .ok data
      | .error e => .error ((reasons e).map fun reason => path ++ ": " ++ reason)
  else .error [path ++ " must be an object"]

/-- A row that passed, before it has an id. -/
structure Checked where
  entityName : String
  data : List (String × Json)
  path : String

def entryRows (spec : List EntitySpec) (entry : String × Json) :
    List (Except (List String) Checked) :=
  match findEntity spec entry.1 with
  | none => [.error ["records." ++ entry.1 ++ ": no such entity"]]
  | some entity =>
    match entry.2 with
    | .arr rows => rows.zipIdx.map fun row =>
        let path := "records." ++ entry.1 ++ "[" ++ Nat.repr row.2 ++ "]"
        (rowData entity row.1 path).map fun data => ⟨entry.1, data, path⟩
    | _ => [.error ["records." ++ entry.1 ++ " must be a list of rows"]]

def problems : Except (List String) Checked → List String
  | .error messages => messages
  | .ok _ => []

def checkedRow : Except (List String) Checked → Option Checked
  | .ok row => some row
  | .error _ => none

/-! The second pass: references -/

section
variable (toLowerCase : String → String) (spec : List EntitySpec)

/-- A name up to case and surrounding spaces. -/
def nameKey (name : String) : String :=
  toLowerCase (String.ofList (JsNumber.trim name.toList))

/-- The key a row is found by. -/
def labelKey (entityName : String) (data : List (String × Json)) : Option String :=
  match (findEntity spec entityName).bind labelFieldOf with
  | none => none
  | some field =>
    match data.lookup field.name with
    | some (.str label) =>
      if JsNumber.trim label.toList = [] then none else some (nameKey toLowerCase label)
    | _ => none

/-- `byName`; the first entry of a key counts, as a key is never written twice. -/
def byName (rows : List SeedRecord) : List ((String × String) × UuidText) :=
  rows.filterMap fun row =>
    (labelKey toLowerCase spec row.entityName row.data).map fun key => ((row.entityName, key), row.id)

def setField (data : List (String × Json)) (name : String) (value : Json) : List (String × Json) :=
  data.map fun entry => if entry.1 = name then (name, value) else entry

def resolveField (names : List ((String × String) × UuidText)) (path : String)
    (state : List (String × Json) × List String) (field : FieldSpec) :
    List (String × Json) × List String :=
  match field.type, state.1.lookup field.name with
  | .reference, some (.str value) =>
    match names.lookup (field.refEntity.getD "", nameKey toLowerCase value) with
    | some id => (setField state.1 field.name (.str id.text), state.2)
    | none =>
      let target := field.refEntity.getD "undefined"
      (state.1, state.2 ++ [path ++ "." ++ field.name ++ ": no " ++ target ++ " named \"" ++
        value ++ "\". Give the name of a " ++ target ++
        " added in this call or already in the app"])
  | _, _ => state

def resolveRow (names : List ((String × String) × UuidText)) (placed : Placed) :
    SeedRecord × List String :=
  let fields := ((findEntity spec placed.seed.entityName).map EntitySpec.fields).getD []
  let resolved := fields.foldl (resolveField toLowerCase names placed.path) (placed.seed.data, [])
  ({ placed.seed with data := resolved.1 }, resolved.2)

end

/-! `prepareSeedRecords` -/

/-- The ids that `randomUUID` draws in one call: distinct, and none of a row that is already
there. -/
structure Draws (existing : List SeedRecord) where
  id : Nat → UuidText
  distinct : ∀ m < maxSeedRecords, ∀ n < maxSeedRecords, id m = id n → m = n
  fresh : ∀ n < maxSeedRecords, ∀ row ∈ existing, id n ≠ row.id

def placeRows (draw : Nat → UuidText) (rows : List Checked) : List Placed :=
  rows.zipIdx.map fun row => ⟨⟨draw row.2, row.1.entityName, row.1.data⟩, row.1.path⟩

def prepareSeedRecords (toLowerCase : String → String) (spec : List EntitySpec)
    (input : Option Json) (existing : List SeedRecord) (draw : Nat → UuidText) :
    Except RecordError (List SeedRecord) :=
  match input with
  | none | some .null => .ok []
  | some (.obj fields) =>
    let entries := entriesOf (.obj fields)
    let total := (entries.map fun entry => (rowsOf entry.2).length).sum
    if maxSeedRecords < total then
      .error (.http (badRequest ("records holds " ++ Nat.repr total ++
        " rows; one call may add at most " ++ Nat.repr maxSeedRecords)))
    else
      let outcomes := entries.flatMap (entryRows spec)
      let seeds := placeRows draw (outcomes.filterMap checkedRow)
      let names := byName toLowerCase spec (seeds.map Placed.seed ++ existing)
      let resolved := seeds.map (resolveRow toLowerCase spec names)
      let errors := outcomes.flatMap problems ++ resolved.flatMap Prod.snd
      if errors = [] then .ok (resolved.map Prod.fst)
      else if describable spec then
        .error (.http (badRequest "Invalid starting records"
          (errors ++ ["This app has " ++ describeApp spec])))
      else .error .typeError
  | some _ => .error (.http (badRequest
      "records must map each entity name to a list of rows, e.g. \x7b \"Task\": [\x7b ... \x7d] \x7d"))

end Gomer.Seeds
