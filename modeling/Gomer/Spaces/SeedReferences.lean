import Gomer.Lib.Calendar
import Gomer.Spaces.Seeds

/-! `prepareSeedRecords` is all or nothing: what makes it throw, and where the references of the
rows it returns point. -/
namespace Gomer.Seeds

open Specs (recordEntity entitiesOf)

/-! What the input asks for -/

/-- The rows in input order, with the names of their entities. -/
def inputRows : Option Json → List (String × Json)
  | some value => (entriesOf value).flatMap fun entry => (rowsOf entry.2).map (Prod.mk entry.1)
  | none => []

/-- A row that passes every check of its own, and the data it is stored with. -/
def ValidRow (spec : List EntitySpec) (row : String × Json) (data : List (String × Json)) : Prop :=
  ∃ entity, findEntity spec row.1 = some entity ∧ isObject row.2 = true ∧
    (∀ key ∈ keysOf row.2, key ∈ entity.fields.map FieldSpec.name) ∧
    validateRecordData entity row.2 = .ok data ∧ data ≠ []

section
variable (toLowerCase : String → String) (spec : List EntitySpec)

/-- A row of the entity whose label is `written`, up to case and surrounding spaces. -/
def Carries (target written entityName : String) (data : List (String × Json)) : Prop :=
  entityName = target ∧
    labelKey toLowerCase spec entityName data = some (nameKey toLowerCase written)

/-- Some row of the batch or of the app carries the name. -/
def Known (input : Option Json) (existing : List SeedRecord) (target written : String) : Prop :=
  (∃ row ∈ inputRows input, ∃ data, ValidRow spec row data ∧
    Carries toLowerCase spec target written row.1 data) ∨
  ∃ row ∈ existing, Carries toLowerCase spec target written row.entityName row.data

/-- No row, field or reference is invalid. -/
structure ValidRecords (input : Option Json) (existing : List SeedRecord) : Prop where
  shape : ∀ value, input = some value → value.isNull = true ∨ isObject value = true
  entries : ∀ value, input = some value → ∀ entry ∈ entriesOf value,
    (findEntity spec entry.1).isSome = true ∧ ∃ rows, entry.2 = .arr rows
  rows : ∀ row ∈ inputRows input, ∃ data, ValidRow spec row data
  references : ∀ row ∈ inputRows input, ∀ data, ValidRow spec row data →
    ∀ entity, findEntity spec row.1 = some entity → ∀ field ∈ entity.fields,
      field.type = .reference → ∀ written, data.lookup field.name = some (.str written) →
        Known toLowerCase spec input existing (field.refEntity.getD "") written

/-- The id of a row that carries the name: of the batch if one there does, else of the app. -/
def PointsTo (seeds existing : List SeedRecord) (target written : String) (id : UuidText) : Prop :=
  (∃ row ∈ seeds, Carries toLowerCase spec target written row.entityName row.data ∧ row.id = id) ∨
  (∀ row ∈ seeds, ¬ Carries toLowerCase spec target written row.entityName row.data) ∧
    ∃ row ∈ existing, Carries toLowerCase spec target written row.entityName row.data ∧ row.id = id

/-- The record of an input row: its data, with an id for each name that a reference was written
with. -/
structure SeedOf (seeds existing : List SeedRecord) (row : String × Json) (seed : SeedRecord) :
    Prop where
  entityName : seed.entityName = row.1
  data : ∃ entity data, findEntity spec row.1 = some entity ∧ ValidRow spec row data ∧
    seed.data.map Prod.fst = data.map Prod.fst ∧
    ∀ field ∈ entity.fields,
      (field.type ≠ .reference → seed.data.lookup field.name = data.lookup field.name) ∧
      (field.type = .reference → ∀ value, seed.data.lookup field.name = some value →
        ∃ written id, data.lookup field.name = some (.str written) ∧ value = .str id.text ∧
          PointsTo toLowerCase spec seeds existing (field.refEntity.getD "") written id)

/-- What `prepareSeedRecords` returns. -/
structure Seeded (input : Option Json) (existing seeds : List SeedRecord) : Prop where
  rows : List.Forall₂ (SeedOf toLowerCase spec seeds existing) (inputRows input) seeds
  distinct : (seeds.map SeedRecord.id).Nodup
  fresh : ∀ seed ∈ seeds, ∀ row ∈ existing, seed.id ≠ row.id

end

/-! The first pass -/

theorem rowData_ok {entity : EntitySpec} {row : Json} {path : String}
    {data : List (String × Json)} :
    rowData entity row path = .ok data ↔ isObject row = true ∧
      (∀ key ∈ keysOf row, key ∈ entity.fields.map FieldSpec.name) ∧
      validateRecordData entity row = .ok data ∧ data ≠ [] := by
  have known : (keysOf row).filter (fun key => !(entity.fields.map FieldSpec.name).contains key) = [] ↔
      ∀ key ∈ keysOf row, key ∈ entity.fields.map FieldSpec.name := by
    simp only [List.filter_eq_nil_iff, Bool.not_eq_true', Bool.not_eq_false, List.contains_eq_mem,
      decide_eq_true_eq]
  unfold rowData
  split
  · rename_i object
    dsimp only
    split
    · rename_i unknown
      rw [Ne, known] at unknown
      constructor
      · rintro ⟨⟩
      · rintro ⟨_, every, _⟩
        exact absurd every unknown
    · rename_i every
      rw [not_not, known] at every
      cases validateRecordData entity row with
      | error e => simp
      | ok found =>
        dsimp only
        split
        · rename_i empty
          subst empty
          constructor
          · rintro ⟨⟩
          · rintro ⟨_, _, same, some⟩
            exact absurd (Except.ok.inj same).symm some
        · rename_i some
          constructor
          · intro same
            cases same
            exact ⟨object, every, rfl, some⟩
          · rintro ⟨_, _, same, _⟩
            exact congrArg Except.ok (Except.ok.inj same)
  · rename_i notObject
    simp [notObject]

theorem rowData_error {entity : EntitySpec} {row : Json} {path : String} {messages : List String}
    (failed : rowData entity row path = .error messages) : messages ≠ [] := by
  have some_reason : ∀ e, reasons e ≠ [] := by
    intro e
    cases e with
    | http exception =>
      rw [reasons]
      split
      · exact List.cons_ne_nil _ _
      · assumption
    | typeError => exact List.cons_ne_nil _ _
  unfold rowData at failed
  split at failed
  · dsimp only at failed
    split at failed
    · cases failed
      exact List.cons_ne_nil _ _
    · split at failed
      · split at failed
        · cases failed
          exact List.cons_ne_nil _ _
        · cases failed
      · cases failed
        exact mt List.map_eq_nil_iff.mp (some_reason _)
  · cases failed
    exact List.cons_ne_nil _ _

/-- A row as it was checked. -/
def CheckedAs (spec : List EntitySpec) (row : String × Json) (checked : Checked) : Prop :=
  checked.entityName = row.1 ∧ ValidRow spec row checked.data

theorem rows_related {spec : List EntitySpec} {name : String} {entity : EntitySpec}
    (found : findEntity spec name = some entity) (path : Nat → String) (rows : List Json) (start : Nat) :
    (((rows.zipIdx start).map fun row =>
        (rowData entity row.1 (path row.2)).map fun data =>
          (⟨name, data, path row.2⟩ : Checked)).flatMap problems = [] ↔
      ∀ row ∈ rows, ∃ data, ValidRow spec (name, row) data) ∧
    ((∀ row ∈ rows, ∃ data, ValidRow spec (name, row) data) →
      List.Forall₂ (CheckedAs spec) (rows.map (Prod.mk name))
        (((rows.zipIdx start).map fun row =>
          (rowData entity row.1 (path row.2)).map fun data =>
            (⟨name, data, path row.2⟩ : Checked)).filterMap checkedRow)) := by
  have valid : ∀ row data, ValidRow spec (name, row) data ↔
      ∀ path, rowData entity row path = .ok data := by
    intro row data
    constructor
    · rintro ⟨other, same, rest⟩ path
      cases Option.some.inj (found.symm.trans same)
      exact rowData_ok.mpr rest
    · intro passed
      exact ⟨entity, found, rowData_ok.mp (passed "")⟩
  have same : ∀ row data path path', rowData entity row path = .ok data →
      rowData entity row path' = .ok data :=
    fun row data path path' passed => rowData_ok.mpr (rowData_ok.mp passed)
  induction rows generalizing start with
  | nil => exact ⟨by simp, fun _ => .nil⟩
  | cons row rows ih =>
    obtain ⟨iff, related⟩ := ih (start + 1)
    simp only [List.zipIdx_cons, List.map_cons, List.flatMap_cons, List.append_eq_nil_iff, iff,
      List.forall_mem_cons]
    cases here : rowData entity row (path start) with
    | error messages =>
      have invalid : ¬ ∃ data, ValidRow spec (name, row) data := by
        rintro ⟨data, passed⟩
        rw [(valid row data).mp passed] at here
        cases here
      refine ⟨⟨fun none => absurd none.1 (rowData_error here), fun all => absurd all.1 invalid⟩,
        fun all => absurd all.1 invalid⟩
    | ok data =>
      have passed : ValidRow spec (name, row) data :=
        (valid row data).mpr fun other => same _ _ _ _ here
      refine ⟨⟨fun none => ⟨⟨data, passed⟩, none.2⟩, fun all => ⟨rfl, all.2⟩⟩, fun all => ?_⟩
      exact .cons ⟨rfl, passed⟩ (related all.2)

theorem entryRows_related (spec : List EntitySpec) (entry : String × Json) :
    ((entryRows spec entry).flatMap problems = [] ↔
      ((findEntity spec entry.1).isSome = true ∧ ∃ rows, entry.2 = .arr rows) ∧
        ∀ row ∈ rowsOf entry.2, ∃ data, ValidRow spec (entry.1, row) data) ∧
    ((entryRows spec entry).flatMap problems = [] →
      List.Forall₂ (CheckedAs spec) ((rowsOf entry.2).map (Prod.mk entry.1))
        ((entryRows spec entry).filterMap checkedRow)) := by
  obtain ⟨name, value⟩ := entry
  cases found : findEntity spec name with
  | none => simp [entryRows, found, problems]
  | some entity =>
    cases value with
    | arr rows =>
      obtain ⟨iff, related⟩ := rows_related found
        (fun index => "records." ++ name ++ "[" ++ Nat.repr index ++ "]") rows 0
      simp only [entryRows, found]
      exact ⟨iff.trans ⟨fun all => ⟨⟨rfl, rows, rfl⟩, all⟩, And.right⟩,
        fun none => related (iff.mp none)⟩
    | _ => simp [entryRows, found, problems]

/-- The first pass over every entry. -/
theorem outcomes_related (spec : List EntitySpec) (entries : List (String × Json)) :
    ((entries.flatMap (entryRows spec)).flatMap problems = [] ↔
      ∀ entry ∈ entries, ((findEntity spec entry.1).isSome = true ∧ ∃ rows, entry.2 = .arr rows) ∧
        ∀ row ∈ rowsOf entry.2, ∃ data, ValidRow spec (entry.1, row) data) ∧
    ((entries.flatMap (entryRows spec)).flatMap problems = [] →
      List.Forall₂ (CheckedAs spec)
        (entries.flatMap fun entry => (rowsOf entry.2).map (Prod.mk entry.1))
        ((entries.flatMap (entryRows spec)).filterMap checkedRow)) := by
  induction entries with
  | nil => exact ⟨by simp, fun _ => .nil⟩
  | cons entry entries ih =>
    obtain ⟨iff, related⟩ := ih
    obtain ⟨first, relatedFirst⟩ := entryRows_related spec entry
    rw [List.flatMap_cons, List.flatMap_append, List.append_eq_nil_iff, List.forall_mem_cons, first,
      iff, List.flatMap_cons, List.filterMap_append]
    refine ⟨Iff.rfl, fun both => ?_⟩
    exact List.rel_append (relatedFirst (first.mpr both.1)) (related (iff.mpr both.2))

/-! Ids -/

theorem placeRows_related (draw : Nat → UuidText) (rows : List Checked) :
    List.Forall₂ (fun checked placed => placed.seed.entityName = checked.entityName ∧
      placed.seed.data = checked.data) rows (placeRows draw rows) := by
  refine List.forall₂_map_right_iff.mpr ?_
  refine (List.forall₂_iff_zip.mpr ⟨by simp, fun {checked row} paired => ?_⟩)
  have same : checked = row.1 := by
    obtain ⟨index, bound, here⟩ := List.mem_iff_getElem.mp paired
    rw [List.getElem_zip, List.getElem_zipIdx] at here
    obtain ⟨rfl, rfl⟩ := Prod.mk.inj here
    rfl
  rw [same]
  exact ⟨rfl, rfl⟩

theorem placeRows_ids (draw : Nat → UuidText) (rows : List Checked) :
    (placeRows draw rows).map (fun placed => placed.seed.id) = (List.range rows.length).map draw := by
  rw [placeRows, List.map_map]
  have index : (fun placed : Placed => placed.seed.id) ∘
      (fun row : Checked × Nat =>
        (⟨⟨draw row.2, row.1.entityName, row.1.data⟩, row.1.path⟩ : Placed)) = draw ∘ Prod.snd := rfl
  rw [index, ← List.map_map, List.zipIdx_map_snd, List.range_eq_range']

/-! The second pass -/

section
variable {toLowerCase : String → String} {spec : List EntitySpec}

theorem lookup_byName_iff {rows : List SeedRecord} {target key : String} {id : UuidText} :
    (byName toLowerCase spec rows).lookup (target, key) = some id →
      ∃ row ∈ rows, (row.entityName = target ∧
        labelKey toLowerCase spec row.entityName row.data = some key) ∧ row.id = id := by
  intro found
  obtain ⟨before, after, parts, _⟩ := List.lookup_eq_some_iff.mp found
  have listed : ((target, key), id) ∈ byName toLowerCase spec rows := by
    rw [parts]
    exact List.mem_append_right _ List.mem_cons_self
  obtain ⟨row, member, made⟩ := List.mem_filterMap.mp listed
  obtain ⟨label, labelled, same⟩ := Option.map_eq_some_iff.mp made
  obtain ⟨names, rfl⟩ := Prod.mk.inj same
  obtain ⟨rfl, rfl⟩ := Prod.mk.inj names
  exact ⟨row, member, ⟨rfl, labelled⟩, rfl⟩

theorem lookup_byName_none {rows : List SeedRecord} {target key : String}
    (absent : (byName toLowerCase spec rows).lookup (target, key) = none) :
    ∀ row ∈ rows, ¬ (row.entityName = target ∧
      labelKey toLowerCase spec row.entityName row.data = some key) := by
  rintro row member ⟨rfl, labelled⟩
  have listed : ((row.entityName, key), row.id) ∈ byName toLowerCase spec rows :=
    List.mem_filterMap.mpr ⟨row, member, by rw [labelled]; rfl⟩
  have differs := List.lookup_eq_none_iff.mp absent _ listed
  simp at differs

theorem byName_append (rows more : List SeedRecord) :
    byName toLowerCase spec (rows ++ more) =
      byName toLowerCase spec rows ++ byName toLowerCase spec more := List.filterMap_append

theorem setField_keys (data : List (String × Json)) (name : String) (value : Json) :
    (setField data name value).map Prod.fst = data.map Prod.fst := by
  rw [setField, List.map_map]
  refine List.map_congr_left fun entry _ => ?_
  by_cases here : entry.1 = name <;> simp [here]

theorem setField_lookup_self {data : List (String × Json)} {name : String} {old : Json}
    (present : data.lookup name = some old) (value : Json) :
    (setField data name value).lookup name = some value := by
  induction data with
  | nil => cases present
  | cons entry data ih =>
    obtain ⟨key, first⟩ := entry
    by_cases here : key = name
    · subst here
      simp [setField]
    · have skip : (name == key) = false := beq_eq_false_iff_ne.mpr (Ne.symm here)
      rw [List.lookup_cons, skip] at present
      rw [setField, List.map_cons, if_neg here, List.lookup_cons, skip]
      exact ih present

theorem setField_lookup_ne (data : List (String × Json)) {name other : String}
    (differ : other ≠ name) (value : Json) :
    (setField data name value).lookup other = data.lookup other := by
  induction data with
  | nil => rfl
  | cons entry data ih =>
    obtain ⟨key, first⟩ := entry
    rw [setField, List.map_cons]
    by_cases here : key = name
    · subst here
      have skip : (other == key) = false := beq_eq_false_iff_ne.mpr differ
      rw [if_pos rfl, List.lookup_cons, List.lookup_cons, skip]
      exact ih
    · rw [if_neg here, List.lookup_cons, List.lookup_cons]
      cases other == key with
      | true => rfl
      | false => exact ih

variable (toLowerCase) in
/-- What becomes of a field's value. -/
def resolvedValue (names : List ((String × String) × UuidText)) (field : FieldSpec) :
    Option Json → Option Json
  | some (.str written) =>
    if field.type = .reference then
      match names.lookup (field.refEntity.getD "", nameKey toLowerCase written) with
      | some id => some (.str id.text)
      | none => some (.str written)
    else some (.str written)
  | value => value

variable (toLowerCase) in
def Resolvable (names : List ((String × String) × UuidText)) (field : FieldSpec)
    (value : Option Json) : Prop :=
  field.type = .reference → ∀ written, value = some (.str written) →
    ∃ id, names.lookup (field.refEntity.getD "", nameKey toLowerCase written) = some id

theorem resolveField_spec (names : List ((String × String) × UuidText)) (path : String)
    (state : List (String × Json) × List String) (field : FieldSpec) :
    let next := resolveField toLowerCase names path state field
    next.1.map Prod.fst = state.1.map Prod.fst ∧
    (∀ other, other ≠ field.name → next.1.lookup other = state.1.lookup other) ∧
    next.1.lookup field.name = resolvedValue toLowerCase names field (state.1.lookup field.name) ∧
    (next.2 = [] ↔ state.2 = [] ∧ Resolvable toLowerCase names field (state.1.lookup field.name)) := by
  dsimp only
  unfold resolveField
  split
  · rename_i value reference read
    cases found : names.lookup (field.refEntity.getD "", nameKey toLowerCase value) with
    | some id =>
      refine ⟨setField_keys _ _ _, fun other differ => setField_lookup_ne _ differ _, ?_, ?_⟩
      · rw [read, setField_lookup_self read]
        simp [resolvedValue, reference, found]
      · refine ⟨fun none => ⟨none, fun _ written same => ?_⟩, And.left⟩
        rw [read] at same
        cases same
        exact ⟨id, found⟩
    | none =>
      refine ⟨rfl, fun _ _ => rfl, ?_, ?_⟩
      · rw [read]
        simp [resolvedValue, reference, found]
      · constructor
        · intro none
          simp at none
        · rintro ⟨_, resolvable⟩
          obtain ⟨id, known⟩ := resolvable reference value read
          rw [found] at known
          cases known
  · rename_i unaffected
    have plain : ∀ written, field.type = .reference → state.1.lookup field.name ≠ some (.str written) :=
      fun written reference same => unaffected written reference same
    refine ⟨rfl, fun _ _ => rfl, ?_, fun none => ⟨none, fun reference written same =>
      absurd same (plain written reference)⟩, And.left⟩
    unfold resolvedValue
    split
    · rename_i written read
      rw [if_neg fun reference => plain written reference read]
      exact read
    · rfl

/-- The loop over the fields of one row. -/
theorem resolveFields_spec (names : List ((String × String) × UuidText)) (path : String)
    (fields : List FieldSpec) (distinct : (fields.map FieldSpec.name).Nodup)
    (state : List (String × Json) × List String) :
    let final := fields.foldl (resolveField toLowerCase names path) state
    final.1.map Prod.fst = state.1.map Prod.fst ∧
    (∀ other, other ∉ fields.map FieldSpec.name → final.1.lookup other = state.1.lookup other) ∧
    (∀ field ∈ fields, final.1.lookup field.name =
      resolvedValue toLowerCase names field (state.1.lookup field.name)) ∧
    (final.2 = [] ↔ state.2 = [] ∧
      ∀ field ∈ fields, Resolvable toLowerCase names field (state.1.lookup field.name)) := by
  dsimp only
  induction fields generalizing state with
  | nil => simp
  | cons field fields ih =>
    obtain ⟨absent, distinct⟩ := List.nodup_cons.mp distinct
    obtain ⟨keys, others, own, errors⟩ := @resolveField_spec toLowerCase names path state field
    obtain ⟨laterKeys, laterOthers, laterOwn, laterErrors⟩ :=
      ih distinct (resolveField toLowerCase names path state field)
    have apart : ∀ later ∈ fields, later.name ≠ field.name := fun later member same =>
      absent (same ▸ List.mem_map_of_mem member)
    rw [List.foldl_cons]
    refine ⟨laterKeys.trans keys, fun other outside => ?_, ?_, ?_⟩
    · rw [List.map_cons, List.mem_cons, not_or] at outside
      rw [laterOthers other outside.2, others other outside.1]
    · rw [List.forall_mem_cons]
      refine ⟨by rw [laterOthers _ absent, own], fun later member => ?_⟩
      rw [laterOwn later member, others _ (apart later member)]
    · rw [laterErrors, errors, List.forall_mem_cons, and_assoc]
      refine and_congr_right fun _ => and_congr_right fun _ => forall₂_congr fun later member => ?_
      rw [others _ (apart later member)]

/-! Rows with their ids -/

theorem findEntity_mem {name : String} {entity : EntitySpec}
    (found : findEntity spec name = some entity) : entity ∈ spec := List.mem_of_find?_eq_some found

theorem ValidRow.unique {row : String × Json} {data other : List (String × Json)}
    (valid : ValidRow spec row data) (again : ValidRow spec row other) : data = other := by
  obtain ⟨entity, found, _, _, made, _⟩ := valid
  obtain ⟨entity', found', _, _, made', _⟩ := again
  cases Option.some.inj (found.symm.trans found')
  exact Except.ok.inj (made.symm.trans made')

/-- The value of a reference is a text. -/
theorem reference_text {row : String × Json} {data : List (String × Json)} {entity : EntitySpec}
    (valid : ValidRow spec row data) (found : findEntity spec row.1 = some entity)
    (distinct : (entity.fields.map FieldSpec.name).Nodup) {field : FieldSpec}
    (member : field ∈ entity.fields) (reference : field.type = .reference) {value : Json}
    (read : data.lookup field.name = some value) : ∃ written, value = .str written := by
  obtain ⟨entity', found', _, _, made, _⟩ := valid
  cases Option.some.inj (found.symm.trans found')
  obtain ⟨_, all, rfl⟩ := Specs.validateRecordData_ok_iff.mp made
  obtain ⟨before, after, parts, _⟩ := List.lookup_eq_some_iff.mp read
  have stored : (field.name, value) ∈ Specs.collected entity row.2 := by
    rw [parts]
    exact List.mem_append_right _ List.mem_cons_self
  have coerced := (Specs.mem_collected_iff distinct member).mp stored
  obtain ⟨result, passed⟩ := all field member
  rw [passed] at coerced
  have found : Gomer.validateField row.2 field = .ok (some value) := by
    rw [passed]
    exact congrArg Except.ok coerced
  obtain ⟨raw, coerced, _⟩ := Specs.validateField_some found
  have typed := coerced.hasType
  simpa [Specs.HasType, reference] using typed

theorem resolveRow_spec (names : List ((String × String) × UuidText)) {placed : Placed}
    {entity : EntitySpec} (found : findEntity spec placed.seed.entityName = some entity)
    (distinct : (entity.fields.map FieldSpec.name).Nodup) :
    let next := resolveRow toLowerCase spec names placed
    next.1.data.map Prod.fst = placed.seed.data.map Prod.fst ∧
    (∀ field ∈ entity.fields, next.1.data.lookup field.name =
      resolvedValue toLowerCase names field (placed.seed.data.lookup field.name)) ∧
    (next.2 = [] ↔ ∀ field ∈ entity.fields,
      Resolvable toLowerCase names field (placed.seed.data.lookup field.name)) := by
  obtain ⟨keys, _, own, errors⟩ :=
    @resolveFields_spec toLowerCase names placed.path entity.fields distinct (placed.seed.data, [])
  dsimp only
  rw [resolveRow, found]
  exact ⟨keys, own, errors.trans (and_iff_right rfl)⟩

theorem resolvedValue_plain (names : List ((String × String) × UuidText)) {field : FieldSpec}
    (plain : field.type ≠ .reference) (value : Option Json) :
    resolvedValue toLowerCase names field value = value := by
  unfold resolvedValue
  split
  · rw [if_neg plain]
  · rfl

/-- Resolving a row leaves the label that it is found by. -/
theorem labelKey_resolved (names : List ((String × String) × UuidText)) {placed : Placed}
    {entity : EntitySpec} (found : findEntity spec placed.seed.entityName = some entity)
    (distinct : (entity.fields.map FieldSpec.name).Nodup) :
    labelKey toLowerCase spec placed.seed.entityName
        (resolveRow toLowerCase spec names placed).1.data =
      labelKey toLowerCase spec placed.seed.entityName placed.seed.data := by
  obtain ⟨_, own, _⟩ := @resolveRow_spec toLowerCase spec names placed entity found distinct
  unfold labelKey
  rw [found, Option.bind_some]
  cases label : labelFieldOf entity with
  | none => rfl
  | some field =>
    have plain : field.type ≠ .reference := by
      have isLabel := List.find?_some label
      intro reference
      simp [Seeds.isLabel, reference] at isLabel
    dsimp only
    rw [own field (List.mem_of_find?_eq_some label), resolvedValue_plain names plain]

/-! The batch -/

/-- A row with the seed that was placed for it. -/
def PlacedFor (spec : List EntitySpec) (row : String × Json) (placed : Placed) : Prop :=
  placed.seed.entityName = row.1 ∧ ValidRow spec row placed.seed.data

variable {rows : List (String × Json)} {seeds : List Placed} {existing : List SeedRecord}

theorem carried_iff (related : List.Forall₂ (PlacedFor spec) rows seeds) (target written : String) :
    (∃ row ∈ rows, ∃ data, ValidRow spec row data ∧
      Carries toLowerCase spec target written row.1 data) ↔
    ∃ placed ∈ seeds, Carries toLowerCase spec target written placed.seed.entityName
      placed.seed.data := by
  refine Paired.exists_iff related fun row placed pair => ?_
  obtain ⟨name, valid⟩ := pair
  rw [name]
  constructor
  · rintro ⟨data, again, carries⟩
    rwa [valid.unique again]
  · exact fun carries => ⟨_, valid, carries⟩

/-- A name is found exactly where some row of the batch or of the app carries it. -/
theorem lookup_iff (related : List.Forall₂ (PlacedFor spec) rows seeds) (target written : String) :
    (∃ id, (byName toLowerCase spec (seeds.map Placed.seed ++ existing)).lookup
      (target, nameKey toLowerCase written) = some id) ↔
    (∃ row ∈ rows, ∃ data, ValidRow spec row data ∧
      Carries toLowerCase spec target written row.1 data) ∨
    ∃ row ∈ existing, Carries toLowerCase spec target written row.entityName row.data := by
  rw [carried_iff related]
  constructor
  · rintro ⟨id, found⟩
    obtain ⟨row, member, carries, _⟩ := lookup_byName_iff found
    rcases List.mem_append.mp member with batch | app
    · obtain ⟨placed, inside, rfl⟩ := List.mem_map.mp batch
      exact .inl ⟨placed, inside, carries⟩
    · exact .inr ⟨row, app, carries⟩
  · intro known
    cases found : (byName toLowerCase spec (seeds.map Placed.seed ++ existing)).lookup
        (target, nameKey toLowerCase written) with
    | some id => exact ⟨id, rfl⟩
    | none =>
      have absent := lookup_byName_none found
      rcases known with ⟨placed, inside, carries⟩ | ⟨row, app, carries⟩
      · exact absurd carries
          (absent _ (List.mem_append_left _ (List.mem_map_of_mem inside)))
      · exact absurd carries (absent _ (List.mem_append_right _ app))

variable (distinct : ∀ entity ∈ spec, (entity.fields.map FieldSpec.name).Nodup)
include distinct

theorem PlacedFor.entity {row : String × Json} {placed : Placed} (pair : PlacedFor spec row placed) :
    ∃ entity, findEntity spec row.1 = some entity ∧
      findEntity spec placed.seed.entityName = some entity ∧
      (entity.fields.map FieldSpec.name).Nodup := by
  obtain ⟨name, entity, found, rest⟩ := pair
  exact ⟨entity, found, by rw [name, found], distinct _ (findEntity_mem found)⟩

/-- The second pass finds no problem exactly where every reference names a row. -/
theorem resolved_errors_iff (related : List.Forall₂ (PlacedFor spec) rows seeds) :
    (seeds.map (resolveRow toLowerCase spec
        (byName toLowerCase spec (seeds.map Placed.seed ++ existing)))).flatMap Prod.snd = [] ↔
      ∀ row ∈ rows, ∀ data, ValidRow spec row data → ∀ entity, findEntity spec row.1 = some entity →
        ∀ field ∈ entity.fields, field.type = .reference →
          ∀ written, data.lookup field.name = some (.str written) →
            (∃ row ∈ rows, ∃ data, ValidRow spec row data ∧
              Carries toLowerCase spec (field.refEntity.getD "") written row.1 data) ∨
            ∃ row ∈ existing,
              Carries toLowerCase spec (field.refEntity.getD "") written row.entityName row.data := by
  rw [List.flatMap_eq_nil_iff, List.forall_mem_map]
  refine (Paired.forall_iff related fun row placed pair => ?_).symm
  obtain ⟨entity, found, foundSeed, fields⟩ := pair.entity distinct
  obtain ⟨_, _, errors⟩ := @resolveRow_spec toLowerCase spec
    (byName toLowerCase spec (seeds.map Placed.seed ++ existing)) placed entity foundSeed fields
  rw [errors]
  constructor
  · intro all field member reference written read
    exact (lookup_iff related _ _).mpr (all _ pair.2 entity found field member reference written read)
  · intro all data valid other foundOther field member reference written read
    cases Option.some.inj (found.symm.trans foundOther)
    cases pair.2.unique valid
    exact (lookup_iff related _ _).mp (all field member reference written read)

/-- Where a found name points, among the rows with their references resolved. -/
theorem pointsTo_of_lookup (related : List.Forall₂ (PlacedFor spec) rows seeds)
    {target written : String} {id : UuidText}
    (found : (byName toLowerCase spec (seeds.map Placed.seed ++ existing)).lookup
      (target, nameKey toLowerCase written) = some id) :
    PointsTo toLowerCase spec ((seeds.map (resolveRow toLowerCase spec
      (byName toLowerCase spec (seeds.map Placed.seed ++ existing)))).map Prod.fst) existing
        target written id := by
  have label : ∀ placed ∈ seeds, labelKey toLowerCase spec placed.seed.entityName
      (resolveRow toLowerCase spec
        (byName toLowerCase spec (seeds.map Placed.seed ++ existing)) placed).1.data =
          labelKey toLowerCase spec placed.seed.entityName placed.seed.data := by
    intro placed member
    obtain ⟨row, _, pair⟩ := Paired.exists_left related member
    obtain ⟨entity, _, foundSeed, fields⟩ := pair.entity distinct
    exact labelKey_resolved _ foundSeed fields
  rw [byName_append, List.lookup_append] at found
  cases batch : (byName toLowerCase spec (seeds.map Placed.seed)).lookup
      (target, nameKey toLowerCase written) with
  | some other =>
    rw [batch, Option.some_or] at found
    cases found
    obtain ⟨row, member, ⟨name, labelled⟩, same⟩ := lookup_byName_iff batch
    obtain ⟨placed, inside, rfl⟩ := List.mem_map.mp member
    refine .inl ⟨_, List.mem_map_of_mem (List.mem_map_of_mem inside), ⟨name, ?_⟩, same⟩
    exact (label placed inside).trans labelled
  | none =>
    rw [batch, Option.none_or] at found
    obtain ⟨row, member, carries, same⟩ := lookup_byName_iff found
    refine .inr ⟨?_, row, member, carries, same⟩
    intro seed inSeeds
    obtain ⟨resolved, inResolved, rfl⟩ := List.mem_map.mp inSeeds
    obtain ⟨placed, inside, rfl⟩ := List.mem_map.mp inResolved
    rintro ⟨name, labelled⟩
    exact lookup_byName_none batch _ (List.mem_map_of_mem inside)
      ⟨name, (label placed inside).symm.trans labelled⟩

theorem seedOf_resolved (related : List.Forall₂ (PlacedFor spec) rows seeds)
    (resolved : (seeds.map (resolveRow toLowerCase spec
      (byName toLowerCase spec (seeds.map Placed.seed ++ existing)))).flatMap Prod.snd = []) :
    List.Forall₂ (SeedOf toLowerCase spec ((seeds.map (resolveRow toLowerCase spec
      (byName toLowerCase spec (seeds.map Placed.seed ++ existing)))).map Prod.fst) existing) rows
      ((seeds.map (resolveRow toLowerCase spec
        (byName toLowerCase spec (seeds.map Placed.seed ++ existing)))).map Prod.fst) := by
  rw [List.flatMap_eq_nil_iff, List.forall_mem_map] at resolved
  have both := (List.forall₂_and_left _ _).mpr ⟨resolved, related.flip⟩
  refine List.Forall₂.flip (List.forall₂_map_left_iff.mpr (List.forall₂_map_left_iff.mpr ?_))
  refine both.imp fun placed row found => ?_
  obtain ⟨none, pair⟩ := found
  obtain ⟨entity, foundRow, foundSeed, fields⟩ := PlacedFor.entity distinct pair
  obtain ⟨keys, own, errors⟩ := @resolveRow_spec toLowerCase spec
    (byName toLowerCase spec (seeds.map Placed.seed ++ existing)) placed entity foundSeed fields
  refine ⟨pair.1, entity, placed.seed.data, foundRow, pair.2, keys, fun field member =>
    ⟨fun plain => ?_, fun reference value read => ?_⟩⟩
  · rw [own field member, resolvedValue_plain _ plain]
  · rw [own field member] at read
    cases original : placed.seed.data.lookup field.name with
    | none =>
      rw [original] at read
      cases read
    | some first =>
      obtain ⟨written, rfl⟩ := reference_text pair.2 foundRow fields member reference original
      obtain ⟨id, found⟩ := errors.mp none field member reference written original
      rw [original] at read
      simp only [resolvedValue, reference, if_true, found, Option.some.injEq] at read
      exact ⟨written, id, rfl, read.symm, pointsTo_of_lookup distinct related found⟩

omit distinct in
/-- The rows of a batch that passed its first pass, each with its seed. -/
theorem placed_related (fields : List (String × Json)) (draw : Nat → UuidText)
    (passed : ((entriesOf (.obj fields)).flatMap (entryRows spec)).flatMap problems = []) :
    List.Forall₂ (PlacedFor spec) (inputRows (some (.obj fields)))
      (placeRows draw (((entriesOf (.obj fields)).flatMap (entryRows spec)).filterMap checkedRow)) := by
  have checked := (outcomes_related spec (entriesOf (.obj fields))).2 passed
  have placed := placeRows_related draw
    (((entriesOf (.obj fields)).flatMap (entryRows spec)).filterMap checkedRow)
  refine Paired.trans checked placed fun row checked placed first second => ?_
  exact ⟨second.1.trans first.1, by rw [second.2]; exact first.2⟩

/-- Neither pass finds a problem exactly where no row, field or reference is invalid. -/
theorem valid_iff (fields : List (String × Json)) (draw : Nat → UuidText) :
    let outcomes := (entriesOf (.obj fields)).flatMap (entryRows spec)
    let seeds := placeRows draw (outcomes.filterMap checkedRow)
    ValidRecords toLowerCase spec (some (.obj fields)) existing ↔ outcomes.flatMap problems = [] ∧
      (seeds.map (resolveRow toLowerCase spec
        (byName toLowerCase spec (seeds.map Placed.seed ++ existing)))).flatMap Prod.snd = [] := by
  dsimp only
  have first := (outcomes_related spec (entriesOf (.obj fields))).1
  constructor
  · intro valid
    have passed := first.mpr fun entry member => ⟨valid.entries _ rfl entry member,
      fun row inside => valid.rows _ (List.mem_flatMap.mpr ⟨entry, member, List.mem_map_of_mem inside⟩)⟩
    exact ⟨passed, (resolved_errors_iff distinct (placed_related fields draw passed)).mpr
      valid.references⟩
  · rintro ⟨passed, resolved⟩
    have entries := first.mp passed
    refine ⟨?_, ?_, ?_, (resolved_errors_iff distinct (placed_related fields draw passed)).mp resolved⟩
    · rintro value ⟨⟩
      exact .inr rfl
    · rintro value ⟨⟩ entry member
      exact (entries entry member).1
    · intro row member
      obtain ⟨entry, inEntries, inside⟩ := List.mem_flatMap.mp member
      obtain ⟨value, inRows, rfl⟩ := List.mem_map.mp inside
      exact (entries entry inEntries).2 value inRows

omit distinct in
/-- Resolving references leaves the drawn ids. -/
theorem resolved_ids (draw : Nat → UuidText) (rows : List Checked)
    (names : List ((String × String) × UuidText)) :
    (((placeRows draw rows).map (resolveRow toLowerCase spec names)).map Prod.fst).map SeedRecord.id =
      (List.range rows.length).map draw := by
  rw [← placeRows_ids, List.map_map, List.map_map]
  rfl

omit distinct in
theorem Draws.nodup (draws : Draws existing) {n : Nat} (few : n ≤ maxSeedRecords) :
    ((List.range n).map draws.id).Nodup := by
  refine List.Nodup.map_on (fun k first m second same => ?_) List.nodup_range
  exact draws.distinct k (Nat.lt_of_lt_of_le (List.mem_range.mp first) few) m
    (Nat.lt_of_lt_of_le (List.mem_range.mp second) few) same

omit distinct in
theorem Draws.new (draws : Draws existing) {n : Nat} (few : n ≤ maxSeedRecords) {id : UuidText}
    (drawn : id ∈ (List.range n).map draws.id) : ∀ row ∈ existing, id ≠ row.id := by
  obtain ⟨k, inRange, rfl⟩ := List.mem_map.mp drawn
  exact draws.fresh k (Nat.lt_of_lt_of_le (List.mem_range.mp inRange) few)

/-- What `prepareSeedRecords` is for: all rows where all are valid and few enough, or none. -/
def AllOrNothing (toLowerCase : String → String) (spec : List EntitySpec) (input : Option Json)
    (existing : List SeedRecord) (result : Except RecordError (List SeedRecord)) : Prop :=
  ((∃ seeds, result = .ok seeds) ↔ ValidRecords toLowerCase spec input existing ∧
    (inputRows input).length ≤ maxSeedRecords) ∧
  ∀ seeds, result = .ok seeds → Seeded toLowerCase spec input existing seeds

omit distinct in
theorem AllOrNothing.refused {input : Option Json} {e : RecordError}
    (invalid : ValidRecords toLowerCase spec input existing →
      ¬ (inputRows input).length ≤ maxSeedRecords) :
    AllOrNothing toLowerCase spec input existing (.error e) := by
  refine ⟨⟨?_, fun both => absurd both.2 (invalid both.1)⟩, ?_⟩
  · rintro ⟨_, ⟨⟩⟩
  · rintro _ ⟨⟩

omit distinct in
theorem AllOrNothing.prepared {input : Option Json} {seeds : List SeedRecord}
    (valid : ValidRecords toLowerCase spec input existing)
    (few : (inputRows input).length ≤ maxSeedRecords)
    (seeded : Seeded toLowerCase spec input existing seeds) :
    AllOrNothing toLowerCase spec input existing (.ok seeds) := by
  refine ⟨⟨fun _ => ⟨valid, few⟩, fun _ => ⟨seeds, rfl⟩⟩, ?_⟩
  rintro _ ⟨⟩
  exact seeded

theorem prepareSeedRecords_object (fields : List (String × Json)) (draws : Draws existing) :
    AllOrNothing toLowerCase spec (some (.obj fields)) existing
      (prepareSeedRecords toLowerCase spec (some (.obj fields)) existing draws.id) := by
  have size : ((entriesOf (.obj fields)).map fun entry => (rowsOf entry.2).length).sum =
      (inputRows (some (.obj fields))).length := by
    simp [inputRows, List.length_flatMap]
  have valid := @valid_iff toLowerCase spec existing distinct fields draws.id
  dsimp only at valid
  unfold prepareSeedRecords
  dsimp only
  rw [size]
  split
  · rename_i many
    exact .refused fun _ => Nat.not_le.mpr many
  · rename_i few
    split
    · rename_i none
      obtain ⟨passed, resolved⟩ := List.append_eq_nil_iff.mp none
      have related := placed_related fields draws.id passed
      have checked := (outcomes_related spec (entriesOf (.obj fields))).2 passed
      have bound := Nat.le_trans (Nat.le_of_eq checked.length_eq.symm) (Nat.not_lt.mp few)
      refine .prepared (valid.mpr ⟨passed, resolved⟩) (Nat.not_lt.mp few)
        ⟨seedOf_resolved distinct related resolved, ?_, fun seed member => ?_⟩
      · rw [resolved_ids]
        exact draws.nodup bound
      · exact draws.new bound (resolved_ids draws.id _ _ ▸ List.mem_map_of_mem member)
    · rename_i some
      have invalid : ¬ ValidRecords toLowerCase spec (.some (.obj fields)) existing := fun all =>
        some (List.append_eq_nil_iff.mpr (valid.mp all))
      split
      · exact .refused fun all => absurd all invalid
      · exact .refused fun all => absurd all invalid

omit distinct in
/-- Where no records are given there is nothing to do. -/
theorem allOrNothing_absent {input : Option Json} (absent : input = none ∨ input = some .null) :
    AllOrNothing toLowerCase spec input existing (.ok []) := by
  have rows : inputRows input = [] := by rcases absent with rfl | rfl <;> rfl
  have null : ∀ value, input = some value → value = .null := by
    rintro value rfl
    exact absent.elim nofun fun same => Option.some.inj same
  refine .prepared ⟨fun value same => .inl ?_, fun value same entry member => ?_, ?_, ?_⟩ ?_ ⟨?_, ?_, ?_⟩
  · rw [null value same]
    rfl
  · rw [null value same] at member
    cases member
  · rw [rows]
    exact fun row member => absurd member List.not_mem_nil
  · rw [rows]
    exact fun row member => absurd member List.not_mem_nil
  · rw [rows]
    exact Nat.zero_le _
  · rw [rows]
    exact .nil
  · exact List.nodup_nil
  · exact fun seed member => absurd member List.not_mem_nil

omit distinct in
theorem allOrNothing_refused {value : Json} {e : RecordError} (present : value.isNull = false)
    (notObject : isObject value = false) :
    AllOrNothing toLowerCase spec (some value) existing (.error e) := by
  refine .refused fun valid => ?_
  rcases valid.shape value rfl with isNull | object
  · rw [present] at isNull
    cases isNull
  · rw [notObject] at object
    cases object

end

/-- For every accepted spec, records come back exactly where no row, field or reference is invalid
and there are at most 200 rows; then one for each row, with its references resolved. -/
theorem prepareSeedRecords_all_or_nothing {value spec : Json}
    (accepted : Specs.validateAppSpec value = .ok spec) (toLowerCase : String → String)
    (input : Option Json) (existing : List SeedRecord) (draws : Draws existing) :
    ((∃ seeds, prepareSeedRecords toLowerCase (specEntities spec) input existing draws.id = .ok seeds) ↔
      ValidRecords toLowerCase (specEntities spec) input existing ∧
        (inputRows input).length ≤ maxSeedRecords) ∧
    ∀ seeds, prepareSeedRecords toLowerCase (specEntities spec) input existing draws.id = .ok seeds →
      Seeded toLowerCase (specEntities spec) input existing seeds := by
  obtain ⟨rfl, entities, views, entityNames, checked⟩ := Specs.validateAppSpec_ok accepted
  have distinct : ∀ entity ∈ specEntities spec, (entity.fields.map FieldSpec.name).Nodup := by
    intro entity member
    obtain ⟨json, inside, rfl⟩ := List.mem_map.mp member
    rw [entitiesOf, Specs.elements_eq checked.given] at inside
    obtain ⟨name, _, named⟩ := Paired.exists_right checked.named inside
    exact Specs.recordEntity_distinct named.2
  cases input with
  | none => exact allOrNothing_absent (.inl rfl)
  | some value =>
    cases value with
    | null => exact allOrNothing_absent (.inr rfl)
    | obj fields => exact prepareSeedRecords_object distinct fields draws
    | bool flag => exact allOrNothing_refused rfl rfl
    | num num => exact allOrNothing_refused rfl rfl
    | str text => exact allOrNothing_refused rfl rfl
    | arr items => exact allOrNothing_refused rfl rfl

/-! An app of tasks -/

def taskSpec : Json :=
  .obj [("name", .str "Tasks"), ("entities", .arr [Specs.taskEntity]),
    ("views", .arr [.obj [("type", .str "table"), ("title", .str "Tasks"), ("entity", .str "Task")]]),
    ("auth", .obj [("mode", .str "magic-link"), ("allowSignup", .bool true)])]

theorem taskSpec_accepted : Specs.validateAppSpec taskSpec = .ok taskSpec := rfl

def launch : Json := .obj [("title", .str "Launch")]

theorem launch_valid : ValidRow (specEntities taskSpec) ("Task", launch) [("title", .str "Launch")] := by
  refine ⟨recordEntity Specs.taskEntity, rfl, rfl, ?_, rfl, List.cons_ne_nil _ _⟩
  decide +kernel

/-- Ids that differ in their last digits. -/
def numberedDraws : Draws [] where
  id n := ⟨String.ofList (List.replicate 24 '0' ++ Calendar.fixed 12 n), by
    rw [String.length_ofList, List.length_append, List.length_replicate, Calendar.fixed_length]⟩
  distinct m small n other same := by
    have texts := congrArg String.toList (congrArg UuidText.text same)
    rw [String.toList_ofList, String.toList_ofList] at texts
    simp only [maxSeedRecords] at small other
    exact Calendar.fixed_inj (by omega) (by omega) (List.append_cancel_left texts)
  fresh _ _ _ member := absurd member List.not_mem_nil

/-- A step names the one it comes after. -/
def stepEntity : Json :=
  .obj [("name", .str "Step"), ("label", .str "Step"), ("fields", .arr [
    .obj [("name", .str "title"), ("label", .str "Title"), ("type", .str "string"),
      ("required", .bool true)],
    .obj [("name", .str "after"), ("label", .str "After"), ("type", .str "reference"),
      ("refEntity", .str "Step")]])]

def planSpec : Json :=
  .obj [("name", .str "Plan"), ("entities", .arr [stepEntity]),
    ("views", .arr [.obj [("type", .str "table"), ("title", .str "Steps"), ("entity", .str "Step")]]),
    ("auth", .obj [("mode", .str "magic-link"), ("allowSignup", .bool true)])]

theorem planSpec_accepted : Specs.validateAppSpec planSpec = .ok planSpec := rfl

def planRows : Json :=
  .obj [("Step", .arr [.obj [("title", .str "Launch"), ("after", .str "draft")],
    .obj [("title", .str "Draft")]])]

/-- The launch comes after the draft, which is listed below it and written with a capital. -/
theorem two_steps_prepared : ∃ seeds,
    prepareSeedRecords String.toLower (specEntities planSpec) (some planRows) [] numberedDraws.id =
      .ok seeds ∧
    seeds.map (fun seed => seed.data.map fun field => (field.1, Specs.text? (some field.2))) =
      [[("title", some "Launch"), ("after", some (numberedDraws.id 1).text)],
        [("title", some "Draft")]] ∧
    Seeded String.toLower (specEntities planSpec) (some planRows) [] seeds := by
  have shown : (prepareSeedRecords String.toLower (specEntities planSpec) (some planRows) []
      numberedDraws.id).toOption.map (fun seeds => seeds.map fun seed =>
        seed.data.map fun field => (field.1, Specs.text? (some field.2))) =
      some [[("title", some "Launch"), ("after", some (numberedDraws.id 1).text)],
        [("title", some "Draft")]] := by decide +kernel
  obtain ⟨seeds, found, same⟩ := Option.map_eq_some_iff.mp shown
  have prepared : prepareSeedRecords String.toLower (specEntities planSpec) (some planRows) []
      numberedDraws.id = .ok seeds := by
    cases outcome : prepareSeedRecords String.toLower (specEntities planSpec) (some planRows) []
        numberedDraws.id with
    | ok other =>
      rw [outcome] at found
      rw [Option.some.inj found]
    | error e =>
      rw [outcome] at found
      cases found
  exact ⟨seeds, prepared, same, (prepareSeedRecords_all_or_nothing planSpec_accepted String.toLower
    _ [] numberedDraws).2 seeds prepared⟩

/-- As many rows as one may want, all of them valid. -/
def launches (count : Nat) : Json := .obj [("Task", .arr (List.replicate count launch))]

theorem launches_entries (count : Nat) :
    entriesOf (launches count) = [("Task", .arr (List.replicate count launch))] := by
  have keys : orderedKeys ["Task"] = ["Task"] := by decide +kernel
  rw [launches, entriesOf, keysOf, List.map_singleton, keys]
  rfl

theorem launches_rows (count : Nat) :
    inputRows (some (launches count)) = List.replicate count ("Task", launch) := by
  rw [inputRows, launches_entries]
  simp [rowsOf]

theorem launches_valid (count : Nat) :
    ValidRecords String.toLower (specEntities taskSpec) (some (launches count)) [] := by
  have task : findEntity (specEntities taskSpec) "Task" = some (recordEntity Specs.taskEntity) := rfl
  refine ⟨?_, ?_, ?_, ?_⟩
  · rintro value ⟨⟩
    exact .inr rfl
  · rintro value ⟨⟩ entry member
    rw [launches_entries, List.mem_singleton] at member
    rw [member, task]
    exact ⟨rfl, _, rfl⟩
  · intro row member
    rw [launches_rows] at member
    rw [(List.mem_replicate.mp member).2]
    exact ⟨_, launch_valid⟩
  · intro row member data valid entity found field inFields reference
    rw [launches_rows] at member
    rw [(List.mem_replicate.mp member).2, task] at found
    cases found
    rw [List.mem_singleton.mp inFields] at reference
    cases reference

/-- 201 valid rows are refused. -/
theorem many_rows_refused : ∃ value spec input, Specs.validateAppSpec value = .ok spec ∧
    ValidRecords String.toLower (specEntities spec) input [] ∧
      ¬ ∃ seeds, prepareSeedRecords String.toLower (specEntities spec) input [] numberedDraws.id =
        .ok seeds := by
  refine ⟨taskSpec, taskSpec, some (launches 201), taskSpec_accepted, launches_valid 201, ?_⟩
  rintro ⟨seeds, returned⟩
  have total : ((entriesOf (launches 201)).map fun entry => (rowsOf entry.2).length).sum = 201 := by
    rw [launches_entries, List.map_singleton, List.sum_singleton, rowsOf, List.length_replicate]
  rw [launches] at total returned
  unfold prepareSeedRecords at returned
  dsimp only at returned
  rw [total, if_pos (by decide)] at returned
  cases returned

end Gomer.Seeds
