import Gomer.Spaces.Spec

/-! What `validateAppSpec` leaves unchecked: an accepted spec is a closed app spec exactly when the
references and the optional parts that no check reads are in order. -/
namespace Gomer.Specs

/-! What the checks say -/

theorem check_nil {ok : Bool} {message : String} : check ok message = [] ↔ ok = true := by
  cases ok <;> simp [check]

theorem declare_nil {value : Json} {path notIdentifier : String} {names : List String}
    (passed : (declare value path notIdentifier names).2 = []) :
    ∃ name, text? (value.get? "name") = some name ∧ name ∉ names ∧
      (declare value path notIdentifier names).1 = names ++ [name] := by
  unfold declare at passed ⊢
  cases found : (text? (value.get? "name")).filter nameRe with
  | none => simp [found] at passed
  | some name =>
    simp only [found] at passed ⊢
    split at passed
    · cases passed
    · rename_i new
      rw [if_neg new]
      exact ⟨name, (Option.filter_eq_some_iff.mp found).1, by simpa using new, rfl⟩

/-- A value whose name is `name`, and which is good. -/
def Named (Good : Json → Prop) (value : Json) (name : String) : Prop :=
  text? (value.get? "name") = some name ∧ Good value

theorem eachNamed_nil {Good : Json → Prop}
    {validate : Json → String → List String → List String × List String}
    (one : ∀ value path names, (validate value path names).2 = [] →
      ∃ name, Named Good value name ∧ name ∉ names ∧ (validate value path names).1 = names ++ [name])
    {path : String} {index : Nat} {values : List Json} {names : List String} (distinct : names.Nodup)
    (passed : (eachNamed validate path index values names).2 = []) :
    ∃ new, (eachNamed validate path index values names).1 = names ++ new ∧ (names ++ new).Nodup ∧
      List.Forall₂ (Named Good) values new := by
  induction values generalizing index names with
  | nil => exact ⟨[], by simp [eachNamed], by simpa using distinct, .nil⟩
  | cons value values ih =>
    rw [eachNamed] at passed ⊢
    obtain ⟨first, rest⟩ := List.append_eq_nil_iff.mp passed
    obtain ⟨name, named, fresh, grown⟩ := one _ _ _ first
    have larger : (names ++ [name]).Nodup := by
      refine List.nodup_append.mpr ⟨distinct, List.nodup_singleton _, ?_⟩
      rintro old known _ new rfl
      rw [List.mem_singleton.mp new] at known
      exact fresh known
    rw [grown] at rest ⊢
    obtain ⟨new, all, distinct, related⟩ := ih larger rest
    rw [List.append_assoc, List.singleton_append] at all distinct
    exact ⟨name :: new, all, distinct, .cons named related⟩

/-- What is checked of a field besides its name. -/
structure CheckedField (field : Json) : Prop where
  label : (text? (field.get? "label")).isSome = true
  type : (fieldType? (field.get? "type")).isSome = true
  options : text? (field.get? "type") = some "select" →
    ∃ options, items? (field.get? "options") = some options ∧ options ≠ []
  refEntity : text? (field.get? "type") = some "reference" →
    (text? (field.get? "refEntity")).isSome = true
  required : (optional bool? (field.get? "required")).isSome = true

/-- What is checked of an entity besides its name. -/
structure CheckedEntity (entity : Json) : Prop where
  label : (text? (entity.get? "label")).isSome = true
  fields : ∃ fields names, items? (entity.get? "fields") = some fields ∧ names.Nodup ∧
    List.Forall₂ (Named CheckedField) fields names

structure CheckedWidget (entityNames : List String) (widget : Json) : Prop where
  kind : (kind? (widget.get? "kind")).isSome = true
  label : (text? (widget.get? "label")).isSome = true
  entity : ∃ name ∈ entityNames, text? (widget.get? "entity") = some name
  field : text? (widget.get? "kind") = some "sum" → (text? (widget.get? "field")).isSome = true

inductive CheckedView (entityNames : List String) (view : Json) : Prop where
  | form (type : text? (view.get? "type") = some "form")
      (title : (text? (view.get? "title")).isSome = true)
      (entity : ∃ name ∈ entityNames, text? (view.get? "entity") = some name)
  | table (type : text? (view.get? "type") = some "table")
      (title : (text? (view.get? "title")).isSome = true)
      (entity : ∃ name ∈ entityNames, text? (view.get? "entity") = some name)
  | dashboard (type : text? (view.get? "type") = some "dashboard")
      (title : (text? (view.get? "title")).isSome = true)
      (widgets : ∃ widgets, items? (view.get? "widgets") = some widgets ∧
        ∀ widget ∈ widgets, CheckedWidget entityNames widget)

structure Checked (input : Json) (entities views : List Json) (entityNames : List String) : Prop where
  name : (text? (input.get? "name")).isSome = true
  description : (optional text? (input.get? "description")).isSome = true
  given : items? (input.get? "entities") = some entities
  distinct : entityNames.Nodup
  named : List.Forall₂ (Named CheckedEntity) entities entityNames
  shown : items? (input.get? "views") = some views
  checked : ∀ view ∈ views, CheckedView entityNames view
  auth : ((input.get? "auth").bind AuthSpec.of?).isSome = true

theorem hasText_text {value : Option Json} (given : hasText value = true) :
    (text? value).isSome = true := by
  obtain ⟨text, found, _⟩ := (Option.any_eq_true _ _).mp given
  rw [found]
  rfl

theorem optional_isSome {α : Type} {read : Option Json → Option α} {value : Option Json}
    (given : (value.isNone || (read value).isSome) = true) : (optional read value).isSome = true := by
  unfold optional
  split
  · rfl
  · rename_i present
    rw [Option.isSome_map]
    simpa [present] using given

theorem validateField_nil (field : Json) (path : String) (names : List String)
    (passed : (validateField field path names).2 = []) :
    ∃ name, Named CheckedField field name ∧ name ∉ names ∧
      (validateField field path names).1 = names ++ [name] := by
  unfold validateField at passed ⊢
  split at passed
  · rename_i isObj
    rw [if_pos isObj]
    simp only [List.append_eq_nil_iff, check_nil] at passed
    obtain ⟨⟨⟨⟨⟨named, label⟩, type⟩, options⟩, refEntity⟩, required⟩ := passed
    obtain ⟨name, found, fresh, grown⟩ := declare_nil named
    refine ⟨name, ⟨found, hasText_text label, type, fun select => ?_, fun reference => ?_,
      optional_isSome required⟩, fresh, grown⟩
    · simp only [select, bne_self_eq_false, Bool.false_or] at options
      obtain ⟨given, found, some⟩ := (Option.any_eq_true _ _).mp options
      exact ⟨given, found, by simpa using some⟩
    · simpa [reference] using refEntity
  · cases passed

theorem validateEntity_nil (entity : Json) (path : String) (names : List String)
    (passed : (validateEntity entity path names).2 = []) :
    ∃ name, Named CheckedEntity entity name ∧ name ∉ names ∧
      (validateEntity entity path names).1 = names ++ [name] := by
  unfold validateEntity at passed ⊢
  split at passed
  · rename_i isObj
    rw [if_pos isObj]
    simp only [List.append_eq_nil_iff, check_nil] at passed
    obtain ⟨⟨named, label⟩, fields⟩ := passed
    obtain ⟨name, found, fresh, grown⟩ := declare_nil named
    refine ⟨name, ⟨found, hasText_text label, ?_⟩, fresh, grown⟩
    split at fields
    · cases fields
    · cases fields
    · rename_i given _ isArray
      obtain ⟨new, _, distinct, related⟩ := eachNamed_nil validateField_nil List.nodup_nil fields
      exact ⟨given, new, isArray, distinct, related⟩
  · cases passed

theorem namesEntity_mem {value : Option Json} {entityNames : List String}
    (given : namesEntity value entityNames = true) :
    ∃ name ∈ entityNames, text? value = some name := by
  obtain ⟨name, found, known⟩ := (Option.any_eq_true _ _).mp given
  exact ⟨name, by simpa using known, found⟩

theorem each_nil {validate : Json → String → List String} {path : String} {values : List Json}
    (passed : each validate path values = []) :
    ∀ value ∈ values, ∃ at_, validate value at_ = [] := by
  intro value member
  obtain ⟨index, found⟩ := List.mem_iff_getElem?.mp member
  exact ⟨_, List.flatMap_eq_nil_iff.mp passed (value, index) (List.mem_zipIdx_iff_getElem?.mpr found)⟩

theorem validateWidget_nil {entityNames : List String} {widget : Json} {path : String}
    (passed : validateWidget entityNames widget path = []) : CheckedWidget entityNames widget := by
  unfold validateWidget at passed
  split at passed
  · simp only [List.append_eq_nil_iff, check_nil] at passed
    obtain ⟨⟨⟨kind, label⟩, entity⟩, field⟩ := passed
    refine ⟨?_, hasText_text label, namesEntity_mem entity, fun sum => by simpa [sum] using field⟩
    obtain ⟨name, found, known⟩ := (Option.any_eq_true _ _).mp kind
    have cases : name = "count" ∨ name = "sum" ∨ name = "list" := by simpa [kinds] using known
    rcases cases with rfl | rfl | rfl <;> simp [kind?, found]
  · cases passed

theorem validateView_nil {entityNames : List String} {view : Json} {path : String}
    (passed : validateView entityNames view path = []) : CheckedView entityNames view := by
  unfold validateView at passed
  split at passed
  · simp only [List.append_eq_nil_iff, check_nil] at passed
    obtain ⟨title, body⟩ := passed
    have title := hasText_text title
    split at body
    · rename_i type
      exact .form type title (namesEntity_mem (check_nil.mp body))
    · rename_i type
      exact .table type title (namesEntity_mem (check_nil.mp body))
    · rename_i type
      split at body
      · cases body
      · cases body
      · rename_i widgets _ isArray
        refine .dashboard type title ⟨widgets, isArray, fun widget member => ?_⟩
        obtain ⟨path, passed⟩ := each_nil body widget member
        exact validateWidget_nil passed
    · cases body
  · cases passed

theorem validateAuth_nil {auth : Option Json} (passed : validateAuth auth = []) :
    (auth.bind AuthSpec.of?).isSome = true := by
  unfold validateAuth at passed
  split at passed
  · rename_i fields
    simp only [List.append_eq_nil_iff, check_nil, beq_iff_eq] at passed
    obtain ⟨mode, allowSignup⟩ := passed
    simp only [Option.bind_some, AuthSpec.of?, if_pos mode, Option.isSome_map]
    exact allowSignup
  · cases passed

theorem validateEntities_nil {value : Option Json} (passed : (validateEntities value).2 = []) :
    ∃ entities, items? value = some entities ∧ (validateEntities value).1.Nodup ∧
      List.Forall₂ (Named CheckedEntity) entities (validateEntities value).1 := by
  unfold validateEntities at passed ⊢
  cases found : items? value with
  | none => simp [found] at passed
  | some entities =>
    cases entities with
    | nil => simp [found] at passed
    | cons entity entities =>
      simp only [found] at passed ⊢
      obtain ⟨names, all, distinct, named⟩ :=
        eachNamed_nil validateEntity_nil List.nodup_nil passed
      rw [List.nil_append] at all distinct
      rw [all]
      exact ⟨_, rfl, distinct, named⟩

theorem validateViews_nil {entityNames : List String} {value : Option Json}
    (passed : validateViews entityNames value = []) :
    ∃ views, items? value = some views ∧ ∀ view ∈ views, CheckedView entityNames view := by
  unfold validateViews at passed
  split at passed
  · cases passed
  · cases passed
  · rename_i views _ found
    refine ⟨views, found, fun view member => ?_⟩
    obtain ⟨path, passed⟩ := each_nil passed view member
    exact validateView_nil passed

/-- What every check together says of an accepted value. -/
theorem validateAppSpec_ok {input value : Json} (accepted : validateAppSpec input = .ok value) :
    value = input ∧ ∃ entities views entityNames, Checked input entities views entityNames := by
  unfold validateAppSpec at accepted
  split at accepted
  · dsimp only at accepted
    split at accepted
    · rename_i passed
      cases accepted
      simp only [List.append_eq_nil_iff, check_nil] at passed
      obtain ⟨⟨⟨⟨name, description⟩, entities⟩, views⟩, auth⟩ := passed
      obtain ⟨given, areEntities, distinct, named⟩ := validateEntities_nil entities
      obtain ⟨shown, areViews, checked⟩ := validateViews_nil views
      exact ⟨rfl, given, shown, _, hasText_text name, optional_isSome description, areEntities,
        distinct, named, areViews, checked, validateAuth_nil auth⟩
    · cases accepted
  · cases accepted

/-! What no check reads -/

def elements (value : Option Json) : List Json := (items? value).getD []

def entitiesOf (input : Json) : List Json := elements (input.get? "entities")

def fieldsOf (entity : Json) : List Json := elements (entity.get? "fields")

/-- Optional parts that have the type `app-spec.ts` gives them, where they are there. -/
structure TypedField (field : Json) : Prop where
  options : (optional strings? (field.get? "options")).isSome = true
  refEntity : (optional text? (field.get? "refEntity")).isSome = true

structure TypedView (view : Json) : Prop where
  fields : text? (view.get? "type") = some "form" →
    (optional strings? (view.get? "fields")).isSome = true
  columns : text? (view.get? "type") = some "table" →
    (optional strings? (view.get? "columns")).isSome = true
  widgets : text? (view.get? "type") = some "dashboard" → ∀ widget ∈ elements (view.get? "widgets"),
    (optional text? (widget.get? "field")).isSome = true

/-- The referenced entity is one of the spec. -/
def LinkedField (input field : Json) : Prop :=
  fieldType? (field.get? "type") = some .reference →
    ∃ target ∈ entitiesOf input, text? (target.get? "name") = text? (field.get? "refEntity")

/-- The names at `key` are fields of the entity of the view. -/
def LinkedNames (input view : Json) (key : String) : Prop :=
  ∃ entity ∈ entitiesOf input, text? (entity.get? "name") = text? (view.get? "entity") ∧
    ∀ names, optional strings? (view.get? key) = some (some names) → ∀ name ∈ names,
      ∃ field ∈ fieldsOf entity, text? (field.get? "name") = some name

/-- A sum is over a number field of the entity of the widget. -/
def LinkedWidget (input widget : Json) : Prop :=
  ∃ entity ∈ entitiesOf input, text? (entity.get? "name") = text? (widget.get? "entity") ∧
    (kind? (widget.get? "kind") = some .sum → ∃ field ∈ fieldsOf entity,
      text? (field.get? "name") = text? (widget.get? "field") ∧
        fieldType? (field.get? "type") = some .number)

structure LinkedView (input view : Json) : Prop where
  fields : text? (view.get? "type") = some "form" → LinkedNames input view "fields"
  columns : text? (view.get? "type") = some "table" → LinkedNames input view "columns"
  widgets : text? (view.get? "type") = some "dashboard" → ∀ widget ∈ elements (view.get? "widgets"),
    LinkedWidget input widget

/-- The parts that no check reads are of their types, and name what is declared. -/
structure Resolved (input : Json) : Prop where
  typedFields : ∀ entity ∈ entitiesOf input, ∀ field ∈ fieldsOf entity, TypedField field
  typedViews : ∀ view ∈ elements (input.get? "views"), TypedView view
  linkedFields : ∀ entity ∈ entitiesOf input, ∀ field ∈ fieldsOf entity, LinkedField input field
  linkedViews : ∀ view ∈ elements (input.get? "views"), LinkedView input view

/-! Reading a spec -/

section
variable {α : Type} {read : Json → Option α} {value : Option Json}

theorem list?_related {results : List α} (found : list? read value = some results) :
    List.Forall₂ (fun item result => read item = some result) (elements value) results := by
  obtain ⟨items, isArray, all⟩ := Option.bind_eq_some_iff.mp found
  rw [elements, isArray]
  exact Paired.readAll_eq_some.mp all

theorem list?_isSome {items : List Json} (isArray : items? value = some items) :
    (list? read value).isSome = true ↔ ∀ item ∈ items, (read item).isSome = true := by
  rw [list?, isArray, Option.bind_some, Paired.readAll_isSome]

theorem elements_eq {items : List Json} (isArray : items? value = some items) :
    elements value = items := by
  rw [elements, isArray]
  rfl

end

theorem optional_some {α : Type} {read : Option Json → Option α} {value : Option Json}
    (absent : read none = none) (result : Option α) (found : optional read value = some result) :
    read value = result := by
  unfold optional at found
  split at found
  · rename_i missing
    cases found
    rw [Option.isNone_iff_eq_none.mp missing, absent]
  · obtain ⟨given, here, rfl⟩ := Option.map_eq_some_iff.mp found
    exact here

theorem FieldSpec.of?_eq_some {field : Json} {spec : FieldSpec} (found : of? field = some spec) :
    text? (field.get? "name") = some spec.name ∧ fieldType? (field.get? "type") = some spec.type ∧
      optional strings? (field.get? "options") = some spec.options ∧
      optional text? (field.get? "refEntity") = some spec.refEntity := by
  simp only [of?, Option.bind_eq_bind, Option.bind_eq_some_iff, Option.some.injEq] at found
  obtain ⟨name, named, label, _, type, typed, required, _, options, opted, refEntity, refers, rfl⟩ :=
    found
  exact ⟨named, typed, opted, refers⟩

theorem EntitySpec.of?_eq_some {entity : Json} {spec : EntitySpec} (found : of? entity = some spec) :
    text? (entity.get? "name") = some spec.name ∧
      List.Forall₂ (fun field result => FieldSpec.of? field = some result) (fieldsOf entity)
        spec.fields := by
  simp only [of?, Option.bind_eq_bind, Option.bind_eq_some_iff, Option.some.injEq] at found
  obtain ⟨name, named, label, _, fields, all, rfl⟩ := found
  exact ⟨named, list?_related all⟩

theorem DashboardWidgetSpec.of?_eq_some {widget : Json} {spec : DashboardWidgetSpec}
    (found : of? widget = some spec) :
    kind? (widget.get? "kind") = some spec.kind ∧ text? (widget.get? "entity") = some spec.entity ∧
      optional text? (widget.get? "field") = some spec.field := by
  simp only [of?, Option.bind_eq_bind, Option.bind_eq_some_iff, Option.some.injEq] at found
  obtain ⟨kind, kinds, label, _, entity, named, field, given, rfl⟩ := found
  exact ⟨kinds, named, given⟩

/-! A checked value reads as a spec where its optional parts have their types -/

theorem FieldSpec.of?_isSome {field : Json} {name : String} (checked : Named CheckedField field name) :
    (of? field).isSome = true ↔ TypedField field := by
  obtain ⟨named, checked⟩ := checked
  obtain ⟨label, labelled⟩ := Option.isSome_iff_exists.mp checked.label
  obtain ⟨type, typed⟩ := Option.isSome_iff_exists.mp checked.type
  obtain ⟨required, given⟩ := Option.isSome_iff_exists.mp checked.required
  simp only [of?, named, labelled, typed, given, Option.bind_eq_bind, Option.bind_some]
  constructor
  · intro found
    obtain ⟨spec, found⟩ := Option.isSome_iff_exists.mp found
    obtain ⟨options, opted, rest⟩ := Option.bind_eq_some_iff.mp found
    obtain ⟨refEntity, refers, _⟩ := Option.bind_eq_some_iff.mp rest
    exact ⟨by rw [opted]; rfl, by rw [refers]; rfl⟩
  · rintro ⟨options, refEntity⟩
    obtain ⟨options, opted⟩ := Option.isSome_iff_exists.mp options
    obtain ⟨refEntity, refers⟩ := Option.isSome_iff_exists.mp refEntity
    rw [opted, Option.bind_some, refers]
    rfl

theorem EntitySpec.of?_isSome {entity : Json} {name : String}
    (checked : Named CheckedEntity entity name) :
    (of? entity).isSome = true ↔ ∀ field ∈ fieldsOf entity, TypedField field := by
  obtain ⟨named, checked⟩ := checked
  obtain ⟨label, labelled⟩ := Option.isSome_iff_exists.mp checked.label
  obtain ⟨fields, names, isArray, _, each⟩ := checked.fields
  have all : (list? FieldSpec.of? (entity.get? "fields")).isSome = true ↔
      ∀ field ∈ fields, TypedField field := by
    rw [list?_isSome isArray]
    refine forall₂_congr fun field member => ?_
    obtain ⟨name, _, checked⟩ := Paired.exists_right each member
    exact FieldSpec.of?_isSome checked
  rw [fieldsOf, elements_eq isArray, ← all]
  simp only [of?, named, labelled, Option.bind_eq_bind, Option.bind_some]
  cases list? FieldSpec.of? (entity.get? "fields") <;> rfl

theorem DashboardWidgetSpec.of?_isSome {entityNames : List String} {widget : Json}
    (checked : CheckedWidget entityNames widget) :
    (of? widget).isSome = true ↔ (optional text? (widget.get? "field")).isSome = true := by
  obtain ⟨kind, kinds⟩ := Option.isSome_iff_exists.mp checked.kind
  obtain ⟨label, labelled⟩ := Option.isSome_iff_exists.mp checked.label
  obtain ⟨entity, _, named⟩ := checked.entity
  simp only [of?, kinds, labelled, named, Option.bind_eq_bind, Option.bind_some]
  cases optional text? (widget.get? "field") <;> rfl

theorem ViewSpec.of?_isSome {entityNames : List String} {view : Json}
    (checked : CheckedView entityNames view) : (of? view).isSome = true ↔ TypedView view := by
  cases checked with
  | form type title entity =>
    obtain ⟨title, titled⟩ := Option.isSome_iff_exists.mp title
    obtain ⟨entity, _, named⟩ := entity
    have only : TypedView view ↔ (optional strings? (view.get? "fields")).isSome = true :=
      ⟨fun typed => typed.fields type, fun typed =>
        ⟨fun _ => typed, by simp [type], by simp [type]⟩⟩
    rw [only]
    simp only [of?, titled, type, named, Option.bind_eq_bind, Option.bind_some]
    cases optional strings? (view.get? "fields") <;> rfl
  | table type title entity =>
    obtain ⟨title, titled⟩ := Option.isSome_iff_exists.mp title
    obtain ⟨entity, _, named⟩ := entity
    have only : TypedView view ↔ (optional strings? (view.get? "columns")).isSome = true :=
      ⟨fun typed => typed.columns type, fun typed =>
        ⟨by simp [type], fun _ => typed, by simp [type]⟩⟩
    rw [only]
    simp only [of?, titled, type, named, Option.bind_eq_bind, Option.bind_some]
    cases optional strings? (view.get? "columns") <;> rfl
  | dashboard type title widgets =>
    obtain ⟨title, titled⟩ := Option.isSome_iff_exists.mp title
    obtain ⟨widgets, isArray, each⟩ := widgets
    have only : TypedView view ↔
        (list? DashboardWidgetSpec.of? (view.get? "widgets")).isSome = true := by
      rw [list?_isSome isArray]
      have parts : (∀ widget ∈ widgets, (DashboardWidgetSpec.of? widget).isSome = true) ↔
          ∀ widget ∈ widgets, (optional text? (widget.get? "field")).isSome = true :=
        forall₂_congr fun widget member => DashboardWidgetSpec.of?_isSome (each widget member)
      rw [parts]
      constructor
      · intro typed
        rw [← elements_eq isArray]
        exact typed.widgets type
      · intro typed
        refine ⟨by simp [type], by simp [type], fun _ => ?_⟩
        rw [elements_eq isArray]
        exact typed
    rw [only]
    simp only [of?, titled, type, Option.bind_eq_bind, Option.bind_some]
    cases list? DashboardWidgetSpec.of? (view.get? "widgets") <;> rfl

theorem AppSpec.of?_isSome {input : Json} {entities views : List Json} {entityNames : List String}
    (checked : Checked input entities views entityNames) :
    (of? input).isSome = true ↔
      (∀ entity ∈ entitiesOf input, ∀ field ∈ fieldsOf entity, TypedField field) ∧
        ∀ view ∈ elements (input.get? "views"), TypedView view := by
  obtain ⟨name, named⟩ := Option.isSome_iff_exists.mp checked.name
  obtain ⟨description, described⟩ := Option.isSome_iff_exists.mp checked.description
  obtain ⟨auth, allowed⟩ := Option.isSome_iff_exists.mp checked.auth
  have fields : (list? EntitySpec.of? (input.get? "entities")).isSome = true ↔
      ∀ entity ∈ entitiesOf input, ∀ field ∈ fieldsOf entity, TypedField field := by
    rw [list?_isSome checked.given, entitiesOf, elements_eq checked.given]
    refine forall₂_congr fun entity member => ?_
    obtain ⟨name, _, named⟩ := Paired.exists_right checked.named member
    exact EntitySpec.of?_isSome named
  have shown : (list? ViewSpec.of? (input.get? "views")).isSome = true ↔
      ∀ view ∈ elements (input.get? "views"), TypedView view := by
    rw [list?_isSome checked.shown, elements_eq checked.shown]
    exact forall₂_congr fun view member => ViewSpec.of?_isSome (checked.checked view member)
  rw [← fields, ← shown]
  simp only [of?, named, described, allowed, Option.bind_eq_bind, Option.bind_some]
  cases list? EntitySpec.of? (input.get? "entities") with
  | none => simp
  | some entities => cases list? ViewSpec.of? (input.get? "views") <;> simp

/-! The names of a spec and of the value it was read from -/

section
variable {input : Json} {entities : List EntitySpec}

theorem linkedField_iff {field : Json} {spec : FieldSpec}
    (read : List.Forall₂ (fun entity result => EntitySpec.of? entity = some result)
      (entitiesOf input) entities) (found : FieldSpec.of? field = some spec) :
    LinkedField input field ↔
      (spec.type = .reference → ∃ target ∈ entities, spec.refEntity = some target.name) := by
  obtain ⟨_, typed, _, refers⟩ := FieldSpec.of?_eq_some found
  have targets : (∃ target ∈ entitiesOf input,
      text? (target.get? "name") = text? (field.get? "refEntity")) ↔
        ∃ target ∈ entities, spec.refEntity = some target.name := by
    refine Paired.exists_iff read fun target result found => ?_
    rw [(EntitySpec.of?_eq_some found).1, optional_some rfl _ refers, eq_comm]
  rw [LinkedField, typed, targets, Option.some.injEq]

theorem linkedNames_iff {view : Json} {key entity : String} {names : Option (List String)}
    (read : List.Forall₂ (fun entity result => EntitySpec.of? entity = some result)
      (entitiesOf input) entities) (named : text? (view.get? "entity") = some entity)
    (given : optional strings? (view.get? key) = some names) :
    LinkedNames input view key ↔ HasFields entities entity names := by
  refine Paired.exists_iff read fun candidate result found => ?_
  obtain ⟨name, fields⟩ := EntitySpec.of?_eq_some found
  have each : ∀ wanted : String, (∃ field ∈ fieldsOf candidate,
      text? (field.get? "name") = some wanted) ↔ ∃ field ∈ result.fields, field.name = wanted :=
    fun wanted => Paired.exists_iff fields fun field spec found => by
      rw [(FieldSpec.of?_eq_some found).1, Option.some.injEq]
  rw [name, named, given, Option.some.injEq]
  refine and_congr_right fun _ => ?_
  cases names with
  | none => simp
  | some names => simp [each]

theorem linkedWidget_iff {widget : Json} {spec : DashboardWidgetSpec}
    (read : List.Forall₂ (fun entity result => EntitySpec.of? entity = some result)
      (entitiesOf input) entities) (found : DashboardWidgetSpec.of? widget = some spec) :
    LinkedWidget input widget ↔ spec.Resolves entities := by
  obtain ⟨kind, named, given⟩ := DashboardWidgetSpec.of?_eq_some found
  refine Paired.exists_iff read fun candidate result found => ?_
  obtain ⟨name, fields⟩ := EntitySpec.of?_eq_some found
  have numbers : (∃ field ∈ fieldsOf candidate, text? (field.get? "name") = text? (widget.get? "field") ∧
      fieldType? (field.get? "type") = some .number) ↔
        ∃ field ∈ result.fields, spec.field = some field.name ∧ field.type = .number := by
    refine Paired.exists_iff fields fun field fieldSpec found => ?_
    obtain ⟨named, typed, _⟩ := FieldSpec.of?_eq_some found
    rw [named, typed, optional_some rfl _ given, eq_comm, Option.some.injEq]
  rw [name, named, kind, numbers, Option.some.injEq, Option.some.injEq]

theorem linkedView_iff {view : Json} {spec : ViewSpec}
    (read : List.Forall₂ (fun entity result => EntitySpec.of? entity = some result)
      (entitiesOf input) entities) (found : ViewSpec.of? view = some spec) :
    LinkedView input view ↔ spec.Resolves entities := by
  simp only [ViewSpec.of?, Option.bind_eq_bind, Option.bind_eq_some_iff] at found
  obtain ⟨title, _, found⟩ := found
  split at found
  · rename_i type
    simp only [Option.bind_eq_some_iff, Option.some.injEq] at found
    obtain ⟨entity, named, names, given, rfl⟩ := found
    have only : LinkedView input view ↔ LinkedNames input view "fields" :=
      ⟨fun linked => linked.fields type, fun linked =>
        ⟨fun _ => linked, by simp [type], by simp [type]⟩⟩
    rw [only, linkedNames_iff read named given]
    rfl
  · rename_i type
    simp only [Option.bind_eq_some_iff, Option.some.injEq] at found
    obtain ⟨entity, named, names, given, rfl⟩ := found
    have only : LinkedView input view ↔ LinkedNames input view "columns" :=
      ⟨fun linked => linked.columns type, fun linked =>
        ⟨by simp [type], fun _ => linked, by simp [type]⟩⟩
    rw [only, linkedNames_iff read named given]
    rfl
  · rename_i type
    simp only [Option.bind_eq_some_iff, Option.some.injEq] at found
    obtain ⟨widgets, given, rfl⟩ := found
    have only : LinkedView input view ↔
        ∀ widget ∈ elements (view.get? "widgets"), LinkedWidget input widget :=
      ⟨fun linked => linked.widgets type, fun linked =>
        ⟨by simp [type], by simp [type], fun _ => linked⟩⟩
    rw [only]
    exact Paired.forall_iff (list?_related given) fun widget result found =>
      linkedWidget_iff read found
  · cases found

end

/-! Accepted specs -/

section
variable {input : Json} {entities views : List Json} {entityNames : List String} {spec : AppSpec}

theorem AppSpec.of?_eq_some (found : AppSpec.of? input = some spec) :
    List.Forall₂ (fun entity result => EntitySpec.of? entity = some result) (entitiesOf input)
      spec.entities ∧
    List.Forall₂ (fun view result => ViewSpec.of? view = some result)
      (elements (input.get? "views")) spec.views := by
  simp only [of?, Option.bind_eq_bind, Option.bind_eq_some_iff, Option.some.injEq] at found
  obtain ⟨_, _, _, _, entities, read, views, shown, _, _, rfl⟩ := found
  exact ⟨list?_related read, list?_related shown⟩

theorem select_options {field : Json} {name : String} {spec : FieldSpec}
    (checked : Named CheckedField field name) (found : FieldSpec.of? field = some spec)
    (select : spec.type = .select) : ∃ options, spec.options = some options ∧ options ≠ [] := by
  obtain ⟨_, typed, opted, _⟩ := FieldSpec.of?_eq_some found
  have type : text? (field.get? "type") = some "select" := by
    rw [select] at typed
    obtain ⟨text, given, looked⟩ := Option.bind_eq_some_iff.mp typed
    have only : ∀ entry ∈ fieldTypes, entry.2 = .select → entry.1 = "select" := by decide
    have listed : (text, FieldType.select) ∈ fieldTypes := by
      obtain ⟨before, after, parts, _⟩ := List.lookup_eq_some_iff.mp looked
      simp [parts]
    rw [given]
    exact congrArg some (only _ listed rfl)
  obtain ⟨values, isArray, some⟩ := checked.2.options type
  have read := optional_some rfl _ opted
  rw [strings?, list?, isArray, Option.bind_some] at read
  cases given : spec.options with
  | none =>
    have defined : (field.get? "options").isNone = false := by
      cases here : field.get? "options" with
      | none => simp [here, items?] at isArray
      | some value => rfl
    rw [optional, defined, given] at opted
    simp at opted
  | some options =>
    refine ⟨options, rfl, ?_⟩
    rintro rfl
    rw [given] at read
    exact some (List.forall₂_nil_right_iff.mp (Paired.readAll_eq_some.mp read))

theorem closed_iff (checked : Checked input entities views entityNames)
    (found : AppSpec.of? input = some spec) :
    spec.Closed ↔ (∀ entity ∈ entitiesOf input, ∀ field ∈ fieldsOf entity, LinkedField input field) ∧
      ∀ view ∈ elements (input.get? "views"), LinkedView input view := by
  obtain ⟨read, shown⟩ := AppSpec.of?_eq_some found
  have fields : (∀ entity ∈ entitiesOf input, ∀ field ∈ fieldsOf entity, LinkedField input field) ↔
      ∀ entity ∈ spec.entities, ∀ field ∈ entity.fields, field.type = .reference →
        ∃ target ∈ spec.entities, field.refEntity = some target.name :=
    Paired.forall_iff read fun entity result found =>
      Paired.forall_iff (EntitySpec.of?_eq_some found).2 fun field spec found =>
        linkedField_iff read found
  have views : (∀ view ∈ elements (input.get? "views"), LinkedView input view) ↔
      ∀ view ∈ spec.views, view.Resolves spec.entities :=
    Paired.forall_iff shown fun view result found => linkedView_iff read found
  rw [fields, views]
  constructor
  · intro closed
    exact ⟨closed.references, closed.views⟩
  · rintro ⟨references, resolved⟩
    rw [entitiesOf, elements_eq checked.given] at read
    refine ⟨?_, fun entity member => ?_, fun entity member field inside => ?_, references, resolved⟩
    · rw [Paired.map_eq read checked.named fun value result name found named =>
        Option.some.inj ((EntitySpec.of?_eq_some found).1.symm.trans named.1)]
      exact checked.distinct
    · obtain ⟨value, present, found⟩ := Paired.exists_left read member
      obtain ⟨name, _, named⟩ := Paired.exists_right checked.named present
      obtain ⟨values, names, isArray, distinct, each⟩ := named.2.fields
      have fields := (EntitySpec.of?_eq_some found).2
      rw [fieldsOf, elements_eq isArray] at fields
      rw [Paired.map_eq fields each fun value result name found named =>
        Option.some.inj ((FieldSpec.of?_eq_some found).1.symm.trans named.1)]
      exact distinct
    · obtain ⟨value, present, found⟩ := Paired.exists_left read member
      obtain ⟨name, _, named⟩ := Paired.exists_right checked.named present
      obtain ⟨values, names, isArray, _, each⟩ := named.2.fields
      have fields := (EntitySpec.of?_eq_some found).2
      rw [fieldsOf, elements_eq isArray] at fields
      obtain ⟨value, present, found⟩ := Paired.exists_left fields inside
      obtain ⟨name, _, checked⟩ := Paired.exists_right each present
      exact select_options checked found

end

/-- An accepted value is a closed app spec exactly when the parts that no check reads are in order. -/
theorem accepted_closed_iff {input value : Json} (accepted : validateAppSpec input = .ok value) :
    (∃ spec, AppSpec.of? value = some spec ∧ spec.Closed) ↔ Resolved input := by
  obtain ⟨rfl, entities, views, entityNames, checked⟩ := validateAppSpec_ok accepted
  constructor
  · rintro ⟨spec, found, closed⟩
    obtain ⟨typedFields, typedViews⟩ := (AppSpec.of?_isSome checked).mp (by rw [found]; rfl)
    obtain ⟨linkedFields, linkedViews⟩ := (closed_iff checked found).mp closed
    exact ⟨typedFields, typedViews, linkedFields, linkedViews⟩
  · intro resolved
    obtain ⟨spec, found⟩ := Option.isSome_iff_exists.mp
      ((AppSpec.of?_isSome checked).mpr ⟨resolved.typedFields, resolved.typedViews⟩)
    exact ⟨spec, found, (closed_iff checked found).mpr ⟨resolved.linkedFields, resolved.linkedViews⟩⟩

/-- An app of one entity, whose one field besides the name is `field`. -/
def oneEntitySpec (field : Json) : Json :=
  .obj [("name", .str "Tasks"),
    ("entities", .arr [.obj [("name", .str "Task"), ("label", .str "Task"), ("fields", .arr [
      .obj [("name", .str "title"), ("label", .str "Title"), ("type", .str "string")], field])]]),
    ("views", .arr [.obj [("type", .str "table"), ("title", .str "Tasks"), ("entity", .str "Task")]]),
    ("auth", .obj [("mode", .str "magic-link"), ("allowSignup", .bool true)])]

def referenceTo (entity : String) : Json :=
  .obj [("name", .str "phase"), ("label", .str "Phase"), ("type", .str "reference"),
    ("refEntity", .str entity)]

theorem oneEntitySpec_accepted (entity : String) :
    validateAppSpec (oneEntitySpec (referenceTo entity)) = .ok (oneEntitySpec (referenceTo entity)) :=
  rfl

/-- `accepted_closed_iff` where a reference names the one entity there is. -/
theorem accepted_closed_task :
    (∃ spec, AppSpec.of? (oneEntitySpec (referenceTo "Task")) = some spec ∧ spec.Closed) ↔
      Resolved (oneEntitySpec (referenceTo "Task")) :=
  accepted_closed_iff (oneEntitySpec_accepted "Task")

/-- A reference to an entity that nobody declares is accepted. -/
theorem dangling_reference_accepted : ∃ input value, validateAppSpec input = .ok value ∧
    ¬ ∃ spec, AppSpec.of? value = some spec ∧ spec.Closed := by
  refine ⟨_, _, oneEntitySpec_accepted "Ghost", ?_⟩
  rintro ⟨spec, found, closed⟩
  let phase : FieldSpec := ⟨"phase", "Phase", .reference, none, none, some "Ghost"⟩
  let task : EntitySpec := ⟨"Task", "Task", [⟨"title", "Title", .string, none, none, none⟩, phase]⟩
  have read : AppSpec.of? (oneEntitySpec (referenceTo "Ghost")) =
      some ⟨"Tasks", none, [task], [.table "Tasks" "Task" none], ⟨true⟩⟩ := by decide +kernel
  cases Option.some.inj (read.symm.trans found)
  obtain ⟨target, member, named⟩ :=
    closed.references task List.mem_cons_self phase (by simp [task]) rfl
  rw [List.mem_singleton.mp member] at named
  exact absurd named (by decide)

end Gomer.Specs
