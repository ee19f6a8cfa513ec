import Gomer.Spaces.ClosedSpecs

/-! `validateRecordData` on the entities that `validateEntity` accepts: which records come back
whole, and which do not survive being stored. -/
namespace Gomer.Specs

/-! An accepted entity as `validateRecordData` reads it -/

def recordField (field : Json) : Gomer.FieldSpec where
  name := (text? (field.get? "name")).getD ""
  type := (fieldType? (field.get? "type")).getD .string
  required := (bool? (field.get? "required")).getD false
  options := items? (field.get? "options")
  refEntity := text? (field.get? "refEntity")

def recordEntity (entity : Json) : Gomer.EntitySpec where
  name := (text? (entity.get? "name")).getD ""
  fields := (fieldsOf entity).map recordField

/-- `validateEntity` found nothing wrong, in a spec with some other entities. -/
def ValidEntity (entity : Json) : Prop := ∃ path names, (validateEntity entity path names).2 = []

theorem recordEntity_distinct {entity : Json} (checked : CheckedEntity entity) :
    ((recordEntity entity).fields.map Gomer.FieldSpec.name).Nodup := by
  obtain ⟨fields, names, isArray, distinct, each⟩ := checked.fields
  have same : (recordEntity entity).fields.map Gomer.FieldSpec.name = names := by
    rw [recordEntity, fieldsOf, elements_eq isArray, List.map_map]
    refine Paired.map_eq (List.forall₂_same.mpr fun field _ => rfl) each ?_
    rintro field _ name rfl named
    rw [Function.comp_apply, recordField, named.1]
    rfl
  rw [same]
  exact distinct

theorem recordEntity_names {entity : Json} (valid : ValidEntity entity) :
    ((recordEntity entity).fields.map Gomer.FieldSpec.name).Nodup := by
  obtain ⟨path, names, passed⟩ := valid
  obtain ⟨_, named, _⟩ := validateEntity_nil entity path names passed
  exact recordEntity_distinct named.2

/-! A record that is stored as JSON and read back -/

mutual
/-- `JSON.parse(JSON.stringify(value))`: a number that is not finite becomes `null`. -/
def reread : Json → Json
  | .num value => if value.isFinite then .num value else .null
  | .arr items => .arr (rereadItems items)
  | .obj fields => .obj (rereadFields fields)
  | value => value

def rereadItems : List Json → List Json
  | [] => []
  | item :: items => reread item :: rereadItems items

def rereadFields : List (String × Json) → List (String × Json)
  | [] => []
  | field :: fields => (field.1, reread field.2) :: rereadFields fields
end

/-- A value of the type of its field. A date is any text. -/
def HasType (field : Gomer.FieldSpec) (value : Json) : Prop :=
  match field.type with
  | .number => ∃ num, value = .num num ∧ num ≠ .nan
  | .boolean => ∃ flag, value = .bool flag
  | .select => ∃ text, value = .str text ∧ (field.options.getD []).any (isText text) = true
  | _ => ∃ text, value = .str text

structure CleanRecord (entity : Gomer.EntitySpec) (data : Json) (clean : List (String × Json)) :
    Prop where
  own : ∀ entry ∈ clean, entry.1 ∈ entity.fields.map Gomer.FieldSpec.name ∧
    (data.get? entry.1).isSome = true
  required : ∀ field ∈ entity.fields, field.required = true →
    ∃ value, (field.name, value) ∈ clean ∧ isBlank value = false
  typed : ∀ field ∈ entity.fields, ∀ value, (field.name, value) ∈ clean → HasType field value
  stable : validateRecordData entity (reread (.obj clean)) = .ok clean

/-- The value becomes a finite number, a boolean or a text that is not empty. -/
def FaithfulValue (field : Gomer.FieldSpec) (raw : Json) : Prop :=
  match field.type with
  | .number => raw.toNumber.isFinite = true
  | .boolean => True
  | _ => raw.toText ≠ ""

/-- The payload's own value, unless it is blank, is faithful; where it is blank or missing, no
method of `Object.prototype` stands in for it. -/
def FaithfulField (data : Json) (field : Gomer.FieldSpec) : Prop :=
  match (data.get? field.name).filter fun raw => !isBlank raw with
  | none => objectPrototype.lookup field.name = none
  | some raw => FaithfulValue field raw

/-! What a validation collects -/

/-- The entries of a record that passed. -/
def collected (entity : Gomer.EntitySpec) (data : Json) : List (String × Json) :=
  entity.fields.filterMap fun field =>
    (coercedValue (Gomer.validateField data field)).map fun value => (field.name, value)

theorem validateRecordData_ok_iff {entity : Gomer.EntitySpec} {data : Json}
    {clean : List (String × Json)} :
    validateRecordData entity data = .ok clean ↔ isObject data = true ∧
      (∀ field ∈ entity.fields, ∃ value, Gomer.validateField data field = .ok value) ∧
      clean = collected entity data := by
  have passes : ∀ outcome, isTypeError outcome = false → invalidMessage outcome = none →
      ∃ value, outcome = .ok value := by
    intro outcome converts valid
    match outcome with
    | .ok value => exact ⟨value, rfl⟩
    | .error (.invalid message) => cases valid
    | .error .typeError => cases converts
  unfold validateRecordData
  split
  · rename_i object
    dsimp only
    split
    · rename_i thrown
      obtain ⟨outcome, member, isThrown⟩ := List.any_eq_true.mp thrown
      obtain ⟨field, inFields, rfl⟩ := List.mem_map.mp member
      constructor
      · rintro ⟨⟩
      · rintro ⟨_, all, _⟩
        obtain ⟨value, same⟩ := all field inFields
        rw [same] at isThrown
        cases isThrown
    · rename_i converts
      simp only [List.any_map, List.any_eq_true, Function.comp_apply, not_exists, not_and,
        Bool.not_eq_true] at converts
      split
      · rename_i valid
        rw [List.filterMap_eq_nil_iff] at valid
        constructor
        · intro same
          exact ⟨object, fun field member => passes _ (converts field member)
            (valid _ (List.mem_map_of_mem member)), (Except.ok.inj same).symm⟩
        · rintro ⟨_, _, rfl⟩
          rfl
      · rename_i invalid
        constructor
        · rintro ⟨⟩
        · rintro ⟨_, all, _⟩
          refine absurd (List.filterMap_eq_nil_iff.mpr fun outcome member => ?_) invalid
          obtain ⟨field, inFields, rfl⟩ := List.mem_map.mp member
          obtain ⟨value, same⟩ := all field inFields
          rw [same]
          rfl
  · rename_i notObject
    simp [notObject]

section
variable {entity : Gomer.EntitySpec} {data : Json}

theorem mem_collected {name : String} {value : Json} :
    (name, value) ∈ collected entity data ↔ ∃ field ∈ entity.fields, field.name = name ∧
      coercedValue (Gomer.validateField data field) = some value := by
  constructor
  · intro member
    obtain ⟨field, inFields, made⟩ := List.mem_filterMap.mp member
    obtain ⟨result, found, same⟩ := Option.map_eq_some_iff.mp made
    obtain ⟨rfl, rfl⟩ := Prod.mk.inj same
    exact ⟨field, inFields, rfl, found⟩
  · rintro ⟨field, inFields, rfl, found⟩
    exact List.mem_filterMap.mpr ⟨field, inFields, by rw [found]; rfl⟩

/-- A field has the value that validation gave it, and no other. -/
theorem mem_collected_iff (distinct : (entity.fields.map Gomer.FieldSpec.name).Nodup)
    {field : Gomer.FieldSpec} (member : field ∈ entity.fields) {value : Json} :
    (field.name, value) ∈ collected entity data ↔
      coercedValue (Gomer.validateField data field) = some value := by
  rw [mem_collected]
  constructor
  · rintro ⟨other, inFields, same, found⟩
    rw [← List.inj_on_of_nodup_map distinct inFields member same]
    exact found
  · intro found
    exact ⟨field, member, rfl, found⟩

theorem get?_of_only {entries : List (String × Json)} {name : String}
    {value : Option Json} (only : ∀ v, (name, v) ∈ entries ↔ value = some v) :
    (Json.obj entries).get? name = value := by
  rw [Json.get?]
  cases found : entries.reverse.find? fun field => field.1 == name with
  | none =>
    cases value with
    | none => rfl
    | some v =>
      have member := (only v).mpr rfl
      have missing := List.find?_eq_none.mp found (name, v) (List.mem_reverse.mpr member)
      simp at missing
  | some entry =>
    have named : entry.1 = name := by simpa using List.find?_some found
    have member := List.mem_reverse.mp (List.mem_of_find?_eq_some found)
    rw [← named] at only
    exact ((only entry.2).mp member).symm

theorem rereadFields_eq (fields : List (String × Json)) :
    rereadFields fields = fields.map fun field => (field.1, reread field.2) := by
  induction fields with
  | nil => rfl
  | cons field fields ih => rw [rereadFields, ih, List.map_cons]

/-- What the record that was read back has for a field. -/
theorem get?_reread (distinct : (entity.fields.map Gomer.FieldSpec.name).Nodup)
    {field : Gomer.FieldSpec} (member : field ∈ entity.fields) :
    (reread (.obj (collected entity data))).get? field.name =
      (coercedValue (Gomer.validateField data field)).map reread := by
  rw [reread, rereadFields_eq]
  refine get?_of_only fun value => ?_
  rw [List.mem_map, Option.map_eq_some_iff]
  constructor
  · rintro ⟨⟨name, original⟩, inside, same⟩
    obtain ⟨rfl, rfl⟩ := Prod.mk.inj same
    exact ⟨original, (mem_collected_iff distinct member).mp inside, rfl⟩
  · rintro ⟨original, found, rfl⟩
    exact ⟨(field.name, original), (mem_collected_iff distinct member).mpr found, rfl⟩

end

/-! One field -/

theorem text?_str (text : String) : (Raw.own (.str text)).text? = some text := by
  have same : (Json.str text).toText = text := String.ofList_toList
  rw [← congrArg some same]
  rfl

/-- What coercion can make of a value. -/
inductive Coerced (field : Gomer.FieldSpec) (raw : Raw) : Json → Prop
  | number (num : JsNumber.Double) (type : field.type = .number) (read : raw.number? = some num)
      (valid : num ≠ .nan) : Coerced field raw (.num num)
  | boolean (type : field.type = .boolean) : Coerced field raw (.bool raw.toBool)
  | option (text : String) (type : field.type = .select) (read : raw.text? = some text)
      (listed : (field.options.getD []).any (isText text) = true) : Coerced field raw (.str text)
  | text (text : String) (number : field.type ≠ .number) (boolean : field.type ≠ .boolean)
      (select : field.type ≠ .select) (read : raw.text? = some text) : Coerced field raw (.str text)

theorem coerceFieldValue_ok_iff {field : Gomer.FieldSpec} {raw : Raw} {value : Json} :
    coerceFieldValue field raw = .ok value ↔ Coerced field raw value := by
  constructor
  · intro made
    unfold coerceFieldValue at made
    split at made
    · rename_i type
      split at made
      · cases made
      · rename_i num read
        split at made
        · cases made
        · rename_i valid
          cases made
          exact .number num type read valid
    · rename_i type
      cases made
      exact .boolean type
    · rename_i type
      split at made
      · cases made
      · rename_i options given
        split at made
        · cases made
        · rename_i text read
          split at made
          · rename_i listed
            cases made
            exact .option text type read (by rw [given]; exact listed)
          · split at made <;> cases made
    · rename_i number boolean select
      split at made
      · cases made
      · rename_i text read
        cases made
        exact .text text number boolean select read
  · intro coerced
    cases coerced with
    | number num type read valid => simp only [coerceFieldValue, type, read, if_neg valid]
    | boolean type => simp only [coerceFieldValue, type]
    | option text type read listed =>
      cases given : field.options with
      | none => simp [given] at listed
      | some options =>
        rw [given, Option.getD_some] at listed
        simp only [coerceFieldValue, type, given, read, listed, if_true]
    | text text number boolean select read =>
      cases type : field.type with
      | number => exact absurd type number
      | boolean => exact absurd type boolean
      | select => exact absurd type select
      | _ => simp only [coerceFieldValue, type, read]

/-- A value that comes back as it is: not blank, the same after storage, and coerced to itself. -/
structure Stable (field : Gomer.FieldSpec) (value : Json) : Prop where
  present : isBlank value = false
  kept : reread value = value
  coerced : coerceFieldValue field (.own value) = .ok value

theorem Coerced.hasType {field : Gomer.FieldSpec} {raw : Raw} {value : Json}
    (coerced : Coerced field raw value) : HasType field value := by
  cases coerced with
  | number num type read valid => simp [HasType, type, valid]
  | boolean type => simp [HasType, type]
  | option text type read listed => simpa [HasType, type] using listed
  | text text number boolean select read =>
    cases type : field.type with
    | number => exact absurd type number
    | boolean => exact absurd type boolean
    | select => exact absurd type select
    | _ => simp [HasType, type]

/-- A faithful value becomes a stable one, any other one that storage or the check for blanks
drops. -/
theorem Coerced.stable_iff {field : Gomer.FieldSpec} {raw value : Json}
    (coerced : Coerced field (.own raw) value) :
    (FaithfulValue field raw → Stable field value) ∧
      (¬ FaithfulValue field raw → isBlank (reread value) = true) := by
  have own : ∀ {text : String}, (Raw.own raw).text? = some text → raw.toText = text := by
    intro text read
    simp only [Raw.text?] at read
    split at read
    · exact Option.some.inj read
    · cases read
  cases coerced with
  | number num type read valid =>
    have same : raw.toNumber = num := by
      simp only [Raw.number?] at read
      split at read
      · exact Option.some.inj read
      · cases read
    simp only [FaithfulValue, type, same]
    cases finite : num.isFinite with
    | true =>
      refine ⟨fun _ => ⟨rfl, by simp [reread, finite], ?_⟩, fun not => absurd rfl not⟩
      exact coerceFieldValue_ok_iff.mpr (.number num type rfl valid)
    | false =>
      exact ⟨fun impossible => absurd impossible Bool.false_ne_true,
        fun _ => by simp [reread, finite, isBlank]⟩
  | boolean type =>
    simp only [FaithfulValue, type, not_true_eq_false, false_implies, and_true, true_implies]
    exact ⟨rfl, rfl, coerceFieldValue_ok_iff.mpr (.boolean type)⟩
  | option text type read listed =>
    simp only [FaithfulValue, type, own read]
    refine ⟨fun some => ⟨by simpa [isBlank] using some, rfl, ?_⟩, fun empty => ?_⟩
    · exact coerceFieldValue_ok_iff.mpr (.option text type (text?_str text) listed)
    · simpa [reread, isBlank] using empty
  | text text number boolean select read =>
    have faithful : FaithfulValue field raw ↔ text ≠ "" := by
      rw [← own read, FaithfulValue]
      cases type : field.type with
      | number => exact absurd type number
      | boolean => exact absurd type boolean
      | _ => exact Iff.rfl
    rw [faithful]
    refine ⟨fun some => ⟨by simpa [isBlank] using some, rfl, ?_⟩, fun empty => ?_⟩
    · exact coerceFieldValue_ok_iff.mpr (.text text number boolean select (text?_str text))
    · simpa [reread, isBlank] using empty

/-! The whole record -/

section
variable {entity : Gomer.EntitySpec} {data : Json}

theorem validateField_own {field : Gomer.FieldSpec} {raw : Json}
    (own : data.get? field.name = some raw) (present : isBlank raw = false) :
    Gomer.validateField data field = (coerceFieldValue field (.own raw)).map some := by
  simp [Gomer.validateField, property, own, present, Option.filter_some]

theorem validateField_blank {field : Gomer.FieldSpec} {raw : Json}
    (own : data.get? field.name = some raw) (blank : isBlank raw = true) :
    Gomer.validateField data field =
      if field.required then .error (.invalid (field.name ++ " is required")) else .ok none := by
  simp [Gomer.validateField, property, own, blank, Option.filter_some]

theorem validateField_absent {field : Gomer.FieldSpec} (missing : data.get? field.name = none)
    (plain : objectPrototype.lookup field.name = none) :
    Gomer.validateField data field =
      if field.required then .error (.invalid (field.name ++ " is required")) else .ok none := by
  simp [Gomer.validateField, property, missing, plain]

theorem validateField_inherited {field : Gomer.FieldSpec} (missing : data.get? field.name = none)
    {method : String} (found : objectPrototype.lookup field.name = some method) :
    Gomer.validateField data field = (coerceFieldValue field
      (.inherited ("function " ++ method ++ "() { [native code] }"))).map some := by
  simp [Gomer.validateField, property, missing, found, Option.filter_some]

/-- An inherited method that passes is stored. -/
theorem coerced_of_inherited {field : Gomer.FieldSpec} (missing : data.get? field.name = none)
    {method : String} (found : objectPrototype.lookup field.name = some method)
    {result : Option Json} (passed : Gomer.validateField data field = .ok result) :
    ∃ value, coercedValue (Gomer.validateField data field) = some value := by
  rw [validateField_inherited missing found] at passed ⊢
  cases made : coerceFieldValue field
      (.inherited ("function " ++ method ++ "() { [native code] }")) with
  | error e =>
    rw [made] at passed
    cases passed
  | ok value => exact ⟨value, rfl⟩

/-- Only a coerced value is stored. -/
theorem validateField_some {field : Gomer.FieldSpec} {value : Json}
    (stored : Gomer.validateField data field = .ok (some value)) :
    ∃ raw, Coerced field raw value ∧ ∀ own, raw = .own own →
      data.get? field.name = some own ∧ isBlank own = false := by
  unfold Gomer.validateField at stored
  split at stored
  · split at stored <;> cases stored
  · rename_i raw found
    obtain ⟨read, present⟩ := Option.filter_eq_some_iff.mp found
    cases made : coerceFieldValue field raw with
    | error e =>
      rw [made] at stored
      cases stored
    | ok result =>
      rw [made] at stored
      cases stored
      refine ⟨raw, coerceFieldValue_ok_iff.mp made, ?_⟩
      rintro own rfl
      unfold property at read
      split at read
      · cases read
        exact ⟨by assumption, by simpa using present⟩
      · obtain ⟨_, _, impossible⟩ := Option.map_eq_some_iff.mp read
        cases impossible

theorem required_present {field : Gomer.FieldSpec} (required : field.required = true)
    {result : Option Json} (passed : Gomer.validateField data field = .ok result) :
    ∃ value, result = some value := by
  unfold Gomer.validateField at passed
  split at passed
  · rw [if_pos required] at passed
    cases passed
  · cases made : coerceFieldValue field _ with
    | error e =>
      rw [made] at passed
      cases passed
    | ok value =>
      rw [made] at passed
      cases passed
      exact ⟨value, rfl⟩

theorem faithful_some {field : Gomer.FieldSpec} (faithful : FaithfulField data field) {value : Json}
    (stored : Gomer.validateField data field = .ok (some value)) :
    (data.get? field.name).isSome = true ∧ Stable field value := by
  unfold FaithfulField at faithful
  split at faithful
  · rename_i none
    cases own : data.get? field.name with
    | none =>
      rw [validateField_absent own faithful] at stored
      split at stored <;> cases stored
    | some raw =>
      rw [own] at none
      rw [validateField_blank own (by simpa [Option.filter_some] using none)] at stored
      split at stored <;> cases stored
  · rename_i raw found
    obtain ⟨own, present⟩ := Option.filter_eq_some_iff.mp found
    rw [validateField_own own (by simpa using present)] at stored
    cases made : coerceFieldValue field (.own raw) with
    | error e =>
      rw [made] at stored
      cases stored
    | ok result =>
      rw [made] at stored
      cases stored
      rw [own]
      exact ⟨rfl, (coerceFieldValue_ok_iff.mp made).stable_iff.1 faithful⟩

theorem faithful_none {field : Gomer.FieldSpec} (faithful : FaithfulField data field)
    (skipped : Gomer.validateField data field = .ok none) :
    field.required = false ∧ objectPrototype.lookup field.name = none := by
  have optional : field.required = false := by
    by_contra required
    obtain ⟨value, impossible⟩ := required_present (by simpa using required) skipped
    cases impossible
  refine ⟨optional, ?_⟩
  unfold FaithfulField at faithful
  split at faithful
  · exact faithful
  · rename_i raw found
    obtain ⟨own, present⟩ := Option.filter_eq_some_iff.mp found
    rw [validateField_own own (by simpa using present)] at skipped
    cases made : coerceFieldValue field (.own raw) with
    | error e =>
      rw [made] at skipped
      cases skipped
    | ok result =>
      rw [made] at skipped
      cases skipped

/-- A faithful field validates to the same value again. -/
theorem faithful_again (distinct : (entity.fields.map Gomer.FieldSpec.name).Nodup)
    {field : Gomer.FieldSpec} (member : field ∈ entity.fields) (faithful : FaithfulField data field)
    {result : Option Json} (passed : Gomer.validateField data field = .ok result) :
    Gomer.validateField (reread (.obj (collected entity data))) field = .ok result := by
  have read := @get?_reread entity data distinct field member
  rw [passed, coercedValue] at read
  cases result with
  | none =>
    obtain ⟨optional, plain⟩ := faithful_none faithful passed
    rw [validateField_absent read plain, optional]
    rfl
  | some value =>
    obtain ⟨_, stable⟩ := faithful_some faithful passed
    rw [Option.map_some, stable.kept] at read
    rw [validateField_own read stable.present, stable.coerced]
    rfl

theorem clean_of_faithful (distinct : (entity.fields.map Gomer.FieldSpec.name).Nodup)
    (all : ∀ field ∈ entity.fields, ∃ value, Gomer.validateField data field = .ok value)
    (faithful : ∀ field ∈ entity.fields, FaithfulField data field) :
    CleanRecord entity data (collected entity data) := by
  have stored : ∀ field ∈ entity.fields, ∀ value,
      coercedValue (Gomer.validateField data field) = some value →
        Gomer.validateField data field = .ok (some value) := by
    intro field member value coerced
    obtain ⟨result, passed⟩ := all field member
    rw [passed] at coerced ⊢
    exact congrArg Except.ok coerced
  refine ⟨?_, ?_, ?_, ?_⟩
  · rintro ⟨name, value⟩ member
    obtain ⟨field, inFields, rfl, coerced⟩ := mem_collected.mp member
    exact ⟨List.mem_map_of_mem inFields,
      (faithful_some (faithful field inFields) (stored field inFields value coerced)).1⟩
  · intro field member required
    obtain ⟨result, passed⟩ := all field member
    obtain ⟨value, rfl⟩ := required_present required passed
    refine ⟨value, (mem_collected_iff distinct member).mpr (by rw [passed]; rfl), ?_⟩
    exact (faithful_some (faithful field member) passed).2.present
  · intro field member value inside
    have passed := stored field member value ((mem_collected_iff distinct member).mp inside)
    obtain ⟨raw, coerced, _⟩ := validateField_some passed
    exact coerced.hasType
  · have again : ∀ field ∈ entity.fields,
        Gomer.validateField (reread (.obj (collected entity data))) field =
          Gomer.validateField data field := by
      intro field member
      obtain ⟨result, passed⟩ := all field member
      rw [faithful_again distinct member (faithful field member) passed, passed]
    refine validateRecordData_ok_iff.mpr ⟨rfl, fun field member => ?_, ?_⟩
    · rw [again field member]
      exact all field member
    · exact List.filterMap_congr fun field member => by rw [again field member]

theorem faithful_of_clean (distinct : (entity.fields.map Gomer.FieldSpec.name).Nodup)
    (all : ∀ field ∈ entity.fields, ∃ value, Gomer.validateField data field = .ok value)
    (clean : CleanRecord entity data (collected entity data)) :
    ∀ field ∈ entity.fields, FaithfulField data field := by
  obtain ⟨_, allAgain, same⟩ := validateRecordData_ok_iff.mp clean.stable
  intro field member
  have read := @get?_reread entity data distinct field member
  obtain ⟨result, passed⟩ := all field member
  -- both validations collect the same value for the field
  have agree : ∀ value, coercedValue (Gomer.validateField data field) = some value ↔
      coercedValue (Gomer.validateField (reread (.obj (collected entity data))) field) =
        some value := by
    intro value
    have first := @mem_collected_iff entity data distinct field member value
    have second := @mem_collected_iff entity (reread (.obj (collected entity data))) distinct field
      member value
    rw [← first, ← second, ← same]
  unfold FaithfulField
  split
  · rename_i none
    cases method : objectPrototype.lookup field.name with
    | none => rfl
    | some source =>
      exfalso
      cases own : data.get? field.name with
      | none =>
        obtain ⟨value, coerced⟩ := coerced_of_inherited own method passed
        have present := (clean.own _ ((mem_collected_iff distinct member).mpr coerced)).2
        rw [own] at present
        cases present
      | some raw =>
        rw [own] at none
        have skipped := validateField_blank own (by simpa [Option.filter_some] using none)
        have nothing : coercedValue (Gomer.validateField data field) = Option.none := by
          rw [skipped]
          split <;> rfl
        rw [nothing, Option.map_none] at read
        obtain ⟨again, passedAgain⟩ := allAgain field member
        obtain ⟨value, coerced⟩ := coerced_of_inherited read method passedAgain
        have impossible := (agree value).mpr coerced
        rw [nothing] at impossible
        cases impossible
  · rename_i raw found
    obtain ⟨own, present⟩ := Option.filter_eq_some_iff.mp found
    have coerce := validateField_own own (by simpa using present)
    by_contra unfaithful
    cases made : coerceFieldValue field (.own raw) with
    | error e =>
      rw [coerce, made] at passed
      cases passed
    | ok value =>
      have stored : coercedValue (Gomer.validateField data field) = some value := by
        rw [coerce, made]
        rfl
      have blank := (coerceFieldValue_ok_iff.mp made).stable_iff.2 unfaithful
      rw [stored, Option.map_some] at read
      have impossible := (agree value).mp stored
      rw [validateField_blank read blank] at impossible
      split at impossible <;> cases impossible

end

/-- A record that `validateRecordData` returns is clean, and the same after storage, exactly when
the payload is faithful to every field. -/
theorem record_clean_iff {entity data : Json} {clean : List (String × Json)}
    (valid : ValidEntity entity)
    (returned : validateRecordData (recordEntity entity) data = .ok clean) :
    CleanRecord (recordEntity entity) data clean ↔
      ∀ field ∈ (recordEntity entity).fields, FaithfulField data field := by
  obtain ⟨_, all, rfl⟩ := validateRecordData_ok_iff.mp returned
  have distinct := recordEntity_names valid
  exact ⟨faithful_of_clean distinct all, clean_of_faithful distinct all⟩

/-- An entity whose one field is required. -/
def taskEntity : Json :=
  .obj [("name", .str "Task"), ("label", .str "Task"), ("fields", .arr [
    .obj [("name", .str "title"), ("label", .str "Title"), ("type", .str "string"),
      ("required", .bool true)]])]

theorem taskEntity_valid : ValidEntity taskEntity := ⟨"spec.entities[0]", [], rfl⟩

/-- `record_clean_iff` where a title is given as text. -/
theorem titled_record_clean :
    CleanRecord (recordEntity taskEntity) (.obj [("title", .str "Launch")])
        [("title", .str "Launch")] ↔
      ∀ field ∈ (recordEntity taskEntity).fields,
        FaithfulField (.obj [("title", .str "Launch")]) field :=
  record_clean_iff taskEntity_valid rfl

/-- An empty array passes for a required text, and is stored as an empty one. -/
theorem empty_array_passes : ∃ entity data clean, ValidEntity entity ∧
    validateRecordData (recordEntity entity) data = .ok clean ∧
      ¬ CleanRecord (recordEntity entity) data clean := by
  refine ⟨taskEntity, .obj [("title", .arr [])], [("title", .str "")], taskEntity_valid, rfl, ?_⟩
  intro clean
  obtain ⟨value, stored, present⟩ := clean.required _ List.mem_cons_self rfl
  have empty : value = .str "" := (Prod.mk.inj (List.mem_singleton.mp stored)).2
  rw [empty] at present
  cases present

end Gomer.Specs
