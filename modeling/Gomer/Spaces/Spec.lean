import Gomer.Lib.Paired
import Gomer.Spaces.Records

/-! `validateAppSpec`: which app specs are accepted, and what an accepted one may still lack. -/
namespace Gomer.Specs

open HttpException

/-- The errors collected, one message where a check fails. -/
def check (ok : Bool) (message : String) : List String := if ok then [] else [message]

def text? : Option Json → Option String
  | some (.str value) => some value
  | _ => none

def items? : Option Json → Option (List Json)
  | some (.arr items) => some items
  | _ => none

def bool? : Option Json → Option Bool
  | some (.bool value) => some value
  | _ => none

/-- `typeof value === 'string' && value.trim() !== ''` -/
def hasText (value : Option Json) : Bool :=
  (text? value).any fun text => JsNumber.trim text.toList != []

/-- `NAME_RE` -/
def nameRe (name : String) : Bool :=
  match name.toList with
  | [] => false
  | first :: rest => first.isAlpha && rest.all fun c => c.isAlphanum || c == '_'

def fieldTypes : List (String × FieldType) :=
  [("string", .string), ("text", .text), ("number", .number), ("date", .date),
    ("datetime", .datetime), ("boolean", .boolean), ("select", .select), ("reference", .reference)]

def fieldType? (value : Option Json) : Option FieldType := (text? value).bind fun name => fieldTypes.lookup name

def kinds : List String := ["count", "sum", "list"]

/-! The checks, each with the errors it adds -/

/-- `forEach` of a validator over an array, which hands the names on. -/
def eachNamed (validate : Json → String → List String → List String × List String) (path : String) :
    Nat → List Json → List String → List String × List String
  | _, [], names => (names, [])
  | index, value :: values, names =>
    let first := validate value (path ++ "[" ++ Nat.repr index ++ "]") names
    let rest := eachNamed validate path (index + 1) values first.1
    (rest.1, first.2 ++ rest.2)

/-- An identifier that is new joins the names. -/
def declare (value : Json) (path : String) (notIdentifier : String) (names : List String) :
    List String × List String :=
  match (text? (value.get? "name")).filter nameRe with
  | none => (names, [path ++ notIdentifier])
  | some name =>
    if names.contains name then (names, [path ++ ".name \"" ++ name ++ "\" is duplicated"])
    else (names ++ [name], [])

def validateField (field : Json) (path : String) (fieldNames : List String) :
    List String × List String :=
  if isObject field then
    let named := declare field path ".name must be an identifier" fieldNames
    let type := field.get? "type"
    (named.1, named.2 ++
      check (hasText (field.get? "label")) (path ++ ".label is required") ++
      check (fieldType? type).isSome
        (path ++ ".type must be one of: " ++ ", ".intercalate (fieldTypes.map Prod.fst)) ++
      check (text? type != some "select" || (items? (field.get? "options")).any fun o => !o.isEmpty)
        (path ++ ".options is required for select fields") ++
      check (text? type != some "reference" || (text? (field.get? "refEntity")).isSome)
        (path ++ ".refEntity is required for reference fields") ++
      check ((field.get? "required").isNone || (bool? (field.get? "required")).isSome)
        (path ++ ".required must be a boolean"))
  else (fieldNames, [path ++ " must be an object"])

def validateEntity (entity : Json) (path : String) (entityNames : List String) :
    List String × List String :=
  if isObject entity then
    let named := declare entity path ".name must be an identifier (letters, digits, underscore)"
      entityNames
    (named.1, named.2 ++
      check (hasText (entity.get? "label")) (path ++ ".label is required") ++
      match items? (entity.get? "fields") with
      | none | some [] => [path ++ ".fields must be a non-empty array"]
      | some fields => (eachNamed validateField (path ++ ".fields") 0 fields []).2)
  else (entityNames, [path ++ " must be an object"])

/-- Whether a value names an entity. -/
def namesEntity (value : Option Json) (entityNames : List String) : Bool :=
  (text? value).any fun name => entityNames.contains name

def validateWidget (entityNames : List String) (widget : Json) (path : String) : List String :=
  if isObject widget then
    check ((text? (widget.get? "kind")).any fun kind => kinds.contains kind)
      (path ++ ".kind must be one of: " ++ ", ".intercalate kinds) ++
    check (hasText (widget.get? "label")) (path ++ ".label is required") ++
    check (namesEntity (widget.get? "entity") entityNames)
      (path ++ ".entity must reference a defined entity") ++
    check (text? (widget.get? "kind") != some "sum" || (text? (widget.get? "field")).isSome)
      (path ++ ".field is required for sum widgets")
  else [path ++ " must be an object"]

/-- `forEach` of a validator over an array. -/
def each (validate : Json → String → List String) (path : String) (values : List Json) :
    List String :=
  values.zipIdx.flatMap fun entry => validate entry.1 (path ++ "[" ++ Nat.repr entry.2 ++ "]")

def validateView (entityNames : List String) (view : Json) (path : String) : List String :=
  if isObject view then
    check (hasText (view.get? "title")) (path ++ ".title is required") ++
    match text? (view.get? "type") with
    | some "form" | some "table" =>
      check (namesEntity (view.get? "entity") entityNames)
        (path ++ ".entity must reference a defined entity")
    | some "dashboard" =>
      match items? (view.get? "widgets") with
      | none | some [] => [path ++ ".widgets must be a non-empty array"]
      | some widgets => each (validateWidget entityNames) (path ++ ".widgets") widgets
    | _ => [path ++ ".type must be 'form', 'table', or 'dashboard'"]
  else [path ++ " must be an object"]

def validateAuth : Option Json → List String
  | some (.obj fields) =>
    check (text? ((Json.obj fields).get? "mode") == some "magic-link")
      "spec.auth.mode must be 'magic-link'" ++
    check (bool? ((Json.obj fields).get? "allowSignup")).isSome "spec.auth.allowSignup must be a boolean"
  | _ => ["spec.auth is required"]

def validateEntities (entities : Option Json) : List String × List String :=
  match items? entities with
  | none | some [] => ([], ["spec.entities must be a non-empty array"])
  | some entities => eachNamed validateEntity "spec.entities" 0 entities []

def validateViews (entityNames : List String) (views : Option Json) : List String :=
  match items? views with
  | none | some [] => ["spec.views must be a non-empty array"]
  | some views => each (validateView entityNames) "spec.views" views

/-- The value itself comes back. -/
def validateAppSpec (input : Json) : Except HttpException Json :=
  if isObject input then
    let entities := validateEntities (input.get? "entities")
    let errors :=
      check (hasText (input.get? "name")) "spec.name is required" ++
      check ((input.get? "description").isNone || (text? (input.get? "description")).isSome)
        "spec.description must be a string" ++
      entities.2 ++ validateViews entities.1 (input.get? "views") ++ validateAuth (input.get? "auth")
    if errors = [] then .ok input else .error (badRequest "Invalid app spec" errors)
  else .error (badRequest "spec must be an object")

/-! What an app spec is: the types of `app-spec.ts`, read from a JSON value -/

structure FieldSpec where
  name : String
  label : String
  type : FieldType
  required : Option Bool
  options : Option (List String)
  refEntity : Option String
  deriving DecidableEq

structure EntitySpec where
  name : String
  label : String
  fields : List FieldSpec
  deriving DecidableEq

inductive DashboardWidgetKind where
  | count
  | sum
  | list
  deriving DecidableEq

structure DashboardWidgetSpec where
  kind : DashboardWidgetKind
  label : String
  entity : String
  field : Option String
  deriving DecidableEq

inductive ViewSpec where
  | form (title entity : String) (fields : Option (List String))
  | table (title entity : String) (columns : Option (List String))
  | dashboard (title : String) (widgets : List DashboardWidgetSpec)
  deriving DecidableEq

/-- The one mode, `magic-link`, is left out. -/
structure AuthSpec where
  allowSignup : Bool
  deriving DecidableEq

structure AppSpec where
  name : String
  description : Option String
  entities : List EntitySpec
  views : List ViewSpec
  auth : AuthSpec
  deriving DecidableEq

section
variable {α : Type}

/-- An optional property: absent, or of its type. -/
def optional (read : Option Json → Option α) (value : Option Json) : Option (Option α) :=
  if value.isNone then some none else (read value).map some

def list? (read : Json → Option α) (value : Option Json) : Option (List α) :=
  (items? value).bind (Paired.readAll read)

end

def strings? (value : Option Json) : Option (List String) := list? (fun item => text? (some item)) value

def kind? (value : Option Json) : Option DashboardWidgetKind :=
  match text? value with
  | some "count" => some .count
  | some "sum" => some .sum
  | some "list" => some .list
  | _ => none

def FieldSpec.of? (field : Json) : Option FieldSpec := do
  let name ← text? (field.get? "name")
  let label ← text? (field.get? "label")
  let type ← fieldType? (field.get? "type")
  let required ← optional bool? (field.get? "required")
  let options ← optional strings? (field.get? "options")
  let refEntity ← optional text? (field.get? "refEntity")
  some ⟨name, label, type, required, options, refEntity⟩

def EntitySpec.of? (entity : Json) : Option EntitySpec := do
  let name ← text? (entity.get? "name")
  let label ← text? (entity.get? "label")
  let fields ← list? FieldSpec.of? (entity.get? "fields")
  some ⟨name, label, fields⟩

def DashboardWidgetSpec.of? (widget : Json) : Option DashboardWidgetSpec := do
  let kind ← kind? (widget.get? "kind")
  let label ← text? (widget.get? "label")
  let entity ← text? (widget.get? "entity")
  let field ← optional text? (widget.get? "field")
  some ⟨kind, label, entity, field⟩

def ViewSpec.of? (view : Json) : Option ViewSpec := do
  let title ← text? (view.get? "title")
  match text? (view.get? "type") with
  | some "form" => do
    let entity ← text? (view.get? "entity")
    let fields ← optional strings? (view.get? "fields")
    some (.form title entity fields)
  | some "table" => do
    let entity ← text? (view.get? "entity")
    let columns ← optional strings? (view.get? "columns")
    some (.table title entity columns)
  | some "dashboard" => do
    let widgets ← list? DashboardWidgetSpec.of? (view.get? "widgets")
    some (.dashboard title widgets)
  | _ => none

def AuthSpec.of? (auth : Json) : Option AuthSpec :=
  if text? (auth.get? "mode") = some "magic-link" then
    (bool? (auth.get? "allowSignup")).map AuthSpec.mk
  else none

def AppSpec.of? (input : Json) : Option AppSpec := do
  let name ← text? (input.get? "name")
  let description ← optional text? (input.get? "description")
  let entities ← list? EntitySpec.of? (input.get? "entities")
  let views ← list? ViewSpec.of? (input.get? "views")
  let auth ← (input.get? "auth").bind AuthSpec.of?
  some ⟨name, description, entities, views, auth⟩

/-! Closed specs -/

/-- The entity of that name, with a field for each of the names. -/
def HasFields (entities : List EntitySpec) (entity : String) (names : Option (List String)) : Prop :=
  ∃ e ∈ entities, e.name = entity ∧ ∀ name ∈ names.getD [], ∃ field ∈ e.fields, field.name = name

def DashboardWidgetSpec.Resolves (entities : List EntitySpec) (widget : DashboardWidgetSpec) : Prop :=
  ∃ e ∈ entities, e.name = widget.entity ∧
    (widget.kind = .sum → ∃ field ∈ e.fields, widget.field = some field.name ∧ field.type = .number)

def ViewSpec.Resolves (entities : List EntitySpec) : ViewSpec → Prop
  | .form _ entity fields => HasFields entities entity fields
  | .table _ entity columns => HasFields entities entity columns
  | .dashboard _ widgets => ∀ widget ∈ widgets, widget.Resolves entities

/-- Every name that the spec mentions is declared in it. -/
structure AppSpec.Closed (spec : AppSpec) : Prop where
  entityNames : (spec.entities.map EntitySpec.name).Nodup
  fieldNames : ∀ entity ∈ spec.entities, (entity.fields.map FieldSpec.name).Nodup
  options : ∀ entity ∈ spec.entities, ∀ field ∈ entity.fields, field.type = .select →
    ∃ options, field.options = some options ∧ options ≠ []
  references : ∀ entity ∈ spec.entities, ∀ field ∈ entity.fields, field.type = .reference →
    ∃ target ∈ spec.entities, field.refEntity = some target.name
  views : ∀ view ∈ spec.views, view.Resolves spec.entities

end Gomer.Specs
