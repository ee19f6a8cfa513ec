import Gomer.Lib.Fresh
import Gomer.Spaces.PageEdits
import Gomer.Spaces.SeedReferences

/-! The rows of `spaces` and `space_records` as `SpacesService` makes them: what a new Space or page
is, and which records belong in an app. -/
namespace Gomer.SpaceTables

open Seeds HttpException

/-! Records -/

/-- What a record of an entity holds, before it is stored as JSON. -/
structure Conforms (entity : EntitySpec) (data : List (String × Json)) : Prop where
  declared : ∀ name ∈ data.map Prod.fst, name ∈ entity.fields.map FieldSpec.name
  typed : ∀ field ∈ entity.fields, ∀ value, (field.name, value) ∈ data →
    Specs.HasType field value
  required : ∀ field ∈ entity.fields, field.required = true → field.name ∈ data.map Prod.fst

theorem collected_keys (entity : EntitySpec) (data : Json) :
    ((Specs.collected entity data).map Prod.fst).Sublist (entity.fields.map FieldSpec.name) := by
  unfold Specs.collected
  induction entity.fields with
  | nil => exact .slnil
  | cons field fields ih =>
    cases made : coercedValue (Gomer.validateField data field) with
    | none => simpa [made] using ih.cons field.name
    | some value => simpa [made] using ih.cons_cons field.name

theorem conforms_validated {entity : EntitySpec} {data : Json} {clean : List (String × Json)}
    (distinct : (entity.fields.map FieldSpec.name).Nodup)
    (made : validateRecordData entity data = .ok clean) :
    Conforms entity clean ∧ (clean.map Prod.fst).Nodup := by
  obtain ⟨-, all, rfl⟩ := Specs.validateRecordData_ok_iff.mp made
  have keys := collected_keys entity data
  refine ⟨⟨fun name member => keys.subset member, fun field member value stored => ?_,
    fun field member required => ?_⟩, keys.nodup distinct⟩
  · have coerced := (Specs.mem_collected_iff distinct member).mp stored
    obtain ⟨result, passed⟩ := all field member
    rw [passed] at coerced
    have found : Gomer.validateField data field = .ok (some value) := by
      rw [passed]
      exact congrArg Except.ok coerced
    obtain ⟨raw, coerced, -⟩ := Specs.validateField_some found
    exact coerced.hasType
  · obtain ⟨result, passed⟩ := all field member
    obtain ⟨value, rfl⟩ := Specs.required_present required passed
    have stored : (field.name, value) ∈ Specs.collected entity data := by
      rw [Specs.mem_collected_iff distinct member, passed]
      rfl
    exact List.mem_map_of_mem stored

theorem lookup_of_mem {data : List (String × Json)} (distinct : (data.map Prod.fst).Nodup)
    {name : String} {value : Json} (member : (name, value) ∈ data) :
    data.lookup name = some value := by
  obtain ⟨before, after, rfl⟩ := List.append_of_mem member
  rw [List.map_append, List.map_cons, List.nodup_append] at distinct
  refine List.lookup_eq_some_iff.mpr ⟨before, after, rfl, fun entry earlier => ?_⟩
  rw [bne_iff_ne]
  exact fun same => distinct.2.2 _ (List.mem_map_of_mem earlier) _ List.mem_cons_self same.symm

theorem mem_of_lookup {data : List (String × Json)} {name : String} {value : Json}
    (found : data.lookup name = some value) : (name, value) ∈ data := by
  obtain ⟨before, after, rfl, -⟩ := List.lookup_eq_some_iff.mp found
  exact List.mem_append_right _ List.mem_cons_self

section
variable {toLowerCase : String → String} {spec : List EntitySpec} {existing seeds : List SeedRecord}

/-- Where a name was written for a row, its id keeps the record in order. -/
theorem conforms_seed {row : String × Json} {seed : SeedRecord}
    (distinct : ∀ entity ∈ spec, (entity.fields.map FieldSpec.name).Nodup)
    (made : SeedOf toLowerCase spec seeds existing row seed) :
    ∃ entity, findEntity spec seed.entityName = some entity ∧ Conforms entity seed.data := by
  obtain ⟨named, entity, data, found, valid, keys, fields⟩ := made
  obtain ⟨other, same, -, -, made, -⟩ := id valid
  cases Option.some.inj (found.symm.trans same)
  have names := distinct entity (findEntity_mem found)
  obtain ⟨conforms, once⟩ := conforms_validated names made
  refine ⟨entity, by rw [named]; exact found, ?_, fun field member value stored => ?_, ?_⟩
  · rw [keys]
    exact conforms.declared
  · have read := lookup_of_mem (by rw [keys]; exact once) stored
    by_cases reference : field.type = .reference
    · obtain ⟨written, id, -, rfl, -⟩ := (fields field member).2 reference value read
      simp [Specs.HasType, reference]
    · rw [(fields field member).1 reference] at read
      exact conforms.typed field member value (mem_of_lookup read)
  · rw [keys]
    exact conforms.required

theorem prepared_conform {input : Option Json} {draw : Nat → UuidText}
    (distinct : ∀ entity ∈ spec, (entity.fields.map FieldSpec.name).Nodup)
    (made : prepareSeedRecords toLowerCase spec input existing draw = .ok seeds) :
    ∀ seed ∈ seeds, ∃ entity, findEntity spec seed.entityName = some entity ∧
      Conforms entity seed.data := by
  unfold prepareSeedRecords at made
  split at made
  · cases made
    exact fun seed absent => absurd absent List.not_mem_nil
  · cases made
    exact fun seed absent => absurd absent List.not_mem_nil
  · dsimp only at made
    split at made
    · cases made
    · split at made
      · rename_i none
        cases made
        obtain ⟨passed, resolved⟩ := List.append_eq_nil_iff.mp none
        have related := seedOf_resolved distinct (placed_related _ draw passed) resolved
        intro seed member
        obtain ⟨row, -, made⟩ := Paired.exists_left related member
        exact conforms_seed distinct made
      · split at made <;> cases made
  · cases made

end

theorem specEntities_distinct {value spec : Json} (accepted : Specs.validateAppSpec value = .ok spec) :
    ∀ entity ∈ specEntities spec, (entity.fields.map FieldSpec.name).Nodup := by
  obtain ⟨rfl, entities, views, entityNames, checked⟩ := Specs.validateAppSpec_ok accepted
  intro entity member
  obtain ⟨json, inside, rfl⟩ := List.mem_map.mp member
  rw [Specs.entitiesOf, Specs.elements_eq checked.given] at inside
  obtain ⟨name, -, named⟩ := Paired.exists_right checked.named inside
  exact Specs.recordEntity_distinct named.2

/-! The name in the address of a Space -/

/-- `[a-z0-9]`. -/
def slugChar (c : Char) : Bool := decide ('a' ≤ c ∧ c ≤ 'z') || decide ('0' ≤ c ∧ c ≤ '9')

/-- `replace(/[^a-z0-9]+/g, '-')`; `gap` is whether the last character was replaced. -/
def dashed : List Char → (gap : Bool) → List Char
  | [], _ => []
  | c :: rest, gap =>
    if slugChar c then c :: dashed rest false
    else if gap then dashed rest true else '-' :: dashed rest true

/-- `replace(/^-+|-+$/g, '')`. -/
def trimDashes (text : List Char) : List Char :=
  ((text.dropWhile (· == '-')).reverse.dropWhile (· == '-')).reverse

section
variable (toLowerCase : String → String)

def slugBase (name : String) : String :=
  let lower := (toLowerCase (String.ofList (JsNumber.trim name.toList))).toList
  (nonEmpty (some (String.ofList ((trimDashes (dashed lower false)).take 48)))).getD "app"

/-- The candidate after `suffix - 1` others. -/
def suffixed (name : String) (suffix : Nat) : String :=
  slugBase toLowerCase name ++ "-" ++ Nat.repr suffix

end

/-- What `uniqueSlug` tries: it needs no escape in a URL, and does not begin with a dash. -/
structure UrlSafe (slug : String) : Prop where
  leading : ∃ c rest, slug.toList = c :: rest ∧ slugChar c = true
  chars : ∀ c ∈ slug.toList, slugChar c = true ∨ c = '-'

theorem dashed_chars (text : List Char) (gap : Bool) :
    ∀ c ∈ dashed text gap, slugChar c = true ∨ c = '-' := by
  induction text generalizing gap with
  | nil => simp [dashed]
  | cons c rest ih =>
    unfold dashed
    split
    · rename_i allowed
      simp only [List.forall_mem_cons]
      exact ⟨.inl allowed, ih false⟩
    · split
      · exact ih true
      · simp only [List.forall_mem_cons]
        exact ⟨.inr trivial, ih true⟩

theorem trimDashes_leading {text rest : List Char} {c : Char}
    (trimmed : trimDashes text = c :: rest) : c ≠ '-' := by
  have front : trimDashes text <+: text.dropWhile (· == '-') := by
    rw [trimDashes, ← List.reverse_suffix, List.reverse_reverse]
    exact List.dropWhile_suffix _
  obtain ⟨tail, whole⟩ := front
  rw [trimmed, List.cons_append] at whole
  have first := List.head?_dropWhile_not (· == '-') text
  rw [← whole] at first
  simpa using first

theorem slugBase_urlSafe (toLowerCase : String → String) (name : String) :
    UrlSafe (slugBase toLowerCase name) := by
  unfold slugBase
  dsimp only
  generalize (toLowerCase (String.ofList (JsNumber.trim name.toList))).toList = lower
  cases kept : (trimDashes (dashed lower false)).take 48 with
  | nil =>
    have all : "app".toList.all slugChar = true := by decide
    exact ⟨⟨'a', ['p', 'p'], rfl, rfl⟩, fun c member => .inl (List.all_eq_true.mp all c member)⟩
  | cons c rest =>
    have given : nonEmpty (some (String.ofList (c :: rest))) = some (String.ofList (c :: rest)) := by
      simp [nonEmpty]
    have allowed : ∀ d ∈ c :: rest, slugChar d = true ∨ d = '-' := by
      intro d member
      rw [← kept] at member
      have inside := List.mem_of_mem_take member
      refine dashed_chars lower false d ?_
      have sub : (trimDashes (dashed lower false)).Sublist (dashed lower false) := by
        refine List.Sublist.trans ?_ (List.dropWhile_sublist (· == '-'))
        exact (List.dropWhile_sublist _).reverse.trans (by rw [List.reverse_reverse])
      exact sub.subset inside
    obtain ⟨tail, trimmed⟩ : ∃ tail, trimDashes (dashed lower false) = c :: tail := by
      cases whole : trimDashes (dashed lower false) with
      | nil => rw [whole] at kept; cases kept
      | cons d tail =>
        rw [whole, List.take_succ_cons] at kept
        exact ⟨tail, by rw [(List.cons.inj kept).1]⟩
    rw [given, Option.getD_some]
    refine ⟨⟨c, rest, String.toList_ofList, ?_⟩, by rwa [String.toList_ofList]⟩
    exact (allowed c List.mem_cons_self).resolve_right (trimDashes_leading trimmed)

theorem suffixed_urlSafe (toLowerCase : String → String) (name : String) (suffix : Nat) :
    UrlSafe (suffixed toLowerCase name suffix) := by
  obtain ⟨⟨c, rest, shape, first⟩, chars⟩ := slugBase_urlSafe toLowerCase name
  have whole : (suffixed toLowerCase name suffix).toList =
      (slugBase toLowerCase name).toList ++ '-' :: (Nat.repr suffix).toList := by
    simp [suffixed, String.toList_append]
  refine ⟨⟨c, rest ++ '-' :: (Nat.repr suffix).toList, by rw [whole, shape]; rfl, first⟩, ?_⟩
  rw [whole]
  simp only [List.forall_mem_append, List.forall_mem_cons]
  refine ⟨chars, .inr trivial, fun d member => .inl ?_⟩
  have digit := Nat.isDigit_of_mem_toDigits (by decide) (by decide) (Nat.toList_repr ▸ member)
  simp only [Char.isDigit, Bool.and_eq_true, decide_eq_true_eq] at digit
  simp only [slugChar, Bool.or_eq_true, decide_eq_true_eq]
  exact .inr digit

/-! Spaces -/

structure SpaceRow where
  id : UuidText
  workspaceId : String
  createdByUserId : Option String
  slug : String
  name : String
  description : Option String
  spec : Json
  status : SpaceStatus
  kind : SpaceKind
  html : Option String
  pageState : List (String × Json)

/-- The columns that no operation sets again. -/
structure Identity where
  workspaceId : String
  createdByUserId : Option String
  slug : String
  status : SpaceStatus
  kind : SpaceKind
  deriving DecidableEq

def fieldsOf : Json → List (String × Json)
  | .obj fields => fields
  | _ => []

namespace SpaceRow

def identity (row : SpaceRow) : Identity :=
  ⟨row.workspaceId, row.createdByUserId, row.slug, row.status, row.kind⟩

/-- The row as the runtime reads it. -/
def space (row : SpaceRow) : Space :=
  ⟨row.id, row.slug, row.status, row.kind, specEntities row.spec, row.html, row.pageState⟩

def title (row : SpaceRow) : PageTitle := ⟨row.workspaceId, row.name, fieldsOf row.spec⟩

end SpaceRow

structure PageInput where
  name : String
  description : Option String
  html : String
  allowSignup : Bool

def validatePageInput (input : Json) : Except HttpException PageInput :=
  if isObject input then
    match Specs.text? (input.get? "name") with
    | none => .error (badRequest "name is required")
    | some name =>
      if JsNumber.trim name.toList = [] then .error (badRequest "name is required")
      else if (input.get? "description").isSome ∧ (Specs.text? (input.get? "description")).isNone then
        .error (badRequest "description must be a string")
      else if (input.get? "allowSignup").isSome ∧ (Specs.bool? (input.get? "allowSignup")).isNone then
        .error (badRequest "allowSignup must be a boolean")
      else
        match validatePageHtml ((input.get? "html").getD .null) with
        | .error e => .error e
        | .ok html => .ok {
            name := String.ofList (JsNumber.trim name.toList)
            description := Specs.text? (input.get? "description")
            html := html
            allowSignup := Specs.bool? (input.get? "allowSignup") == some true }
  else .error (badRequest "page input must be an object")

/-- The spec a page carries: no entities or views, only who may sign in. -/
def pageSpec (name : String) (description : Option String) (allowSignup : Bool) : Json :=
  .obj (("name", .str name) ::
    ((nonEmpty description).toList.map fun text => ("description", .str text)) ++
    [("entities", .arr []), ("views", .arr []),
      ("auth", .obj [("mode", .str "magic-link"), ("allowSignup", .bool allowSignup)])])

/-- A new Space before it has a slug and an id. -/
structure Draft where
  workspaceId : String
  createdByUserId : Option String
  name : String
  description : Option String
  spec : Json
  kind : SpaceKind
  html : Option String
  seeds : List SeedRecord

section
variable (toLowerCase : String → String)

/-- The first part of `createFromSpec`. -/
def appDraft (workspaceId : String) (userId : Option String) (specInput : Json)
    (recordsInput : Option Json) (draw : Nat → UuidText) : Except HttpException Draft :=
  match Specs.validateAppSpec specInput with
  | .error e => .error e
  | .ok spec =>
    match prepareSeedRecords toLowerCase (specEntities spec) recordsInput [] draw with
    | .error e => .error e.response
    | .ok seeds => .ok {
        workspaceId := workspaceId
        createdByUserId := userId
        name := (Specs.text? (spec.get? "name")).getD ""
        description := Specs.text? (spec.get? "description")
        spec := spec
        kind := .app
        html := none
        seeds := seeds }

end

/-- The first part of `createPage`. -/
def pageDraft (workspaceId : String) (userId : Option String) (input : Json) :
    Except HttpException Draft :=
  (validatePageInput input).map fun page => {
    workspaceId := workspaceId
    createdByUserId := userId
    name := page.name
    description := page.description
    spec := pageSpec page.name page.description page.allowSignup
    kind := .page
    html := some page.html
    seeds := [] }

def Draft.row (draft : Draft) (slug : String) (id : UuidText) : SpaceRow where
  id := id
  workspaceId := draft.workspaceId
  createdByUserId := draft.createdByUserId
  slug := slug
  name := draft.name
  description := draft.description
  spec := draft.spec
  status := .published
  kind := draft.kind
  html := draft.html
  pageState := []

/-- What is stored of a record's data. -/
def stored (data : List (String × Json)) : List (String × Json) := Specs.rereadFields data

/-- The rows that `insertSeeds` saves, each a millisecond older than the one before it. -/
def seedRows (spaceId : UuidText) (now : Instant) (seeds : List SeedRecord) : List SpaceRecord :=
  seeds.zipIdx.map fun seed =>
    ⟨seed.1.id, spaceId, seed.1.entityName, stored seed.1.data, none, now - seed.2, now⟩

/-- `updateSpec` on the row that it has read. -/
def respecced (row : SpaceRow) (specInput : Json) : Except HttpException SpaceRow :=
  (Specs.validateAppSpec specInput).map fun spec => { row with
    spec := spec
    name := (Specs.text? (spec.get? "name")).getD ""
    description := Specs.text? (spec.get? "description") }

/-- A column of an `UPDATE` that `save` makes of an entity, which it read again as `seen`. -/
def saved {α : Type} (same : α → α → Bool) (seen entity row : α) : α :=
  if same seen entity then row else entity

/-- `html` and `pageState` are not selected, and stay. -/
def savedSpace (same : Json → Json → Bool) (seen entity row : SpaceRow) : SpaceRow :=
  { row with
    workspaceId := saved (· == ·) seen.workspaceId entity.workspaceId row.workspaceId
    createdByUserId :=
      saved (· == ·) seen.createdByUserId entity.createdByUserId row.createdByUserId
    slug := saved (· == ·) seen.slug entity.slug row.slug
    name := saved (· == ·) seen.name entity.name row.name
    description := saved (· == ·) seen.description entity.description row.description
    spec := saved same seen.spec entity.spec row.spec
    status := saved (· == ·) seen.status entity.status row.status
    kind := saved (· == ·) seen.kind entity.kind row.kind }

/-- An `INSERT` by `save`; the columns that were not selected get their defaults. -/
def restored (entity : SpaceRow) : SpaceRow := { entity with html := none, pageState := [] }

/-! What a Space is -/

structure PageSpec (name : String) (spec : Json) : Prop where
  name : spec.get? "name" = some (.str name)
  entities : spec.get? "entities" = some (.arr [])
  views : spec.get? "views" = some (.arr [])
  auth : ∃ allowSignup, spec.get? "auth" =
    some (.obj [("mode", .str "magic-link"), ("allowSignup", .bool allowSignup)])

/-- An app has a spec that was accepted and no document; a page has a document and no entities. -/
structure Content (kind : SpaceKind) (name : String) (spec : Json) (html : Option String) :
    Prop where
  app : kind = .app → Specs.validateAppSpec spec = .ok spec ∧ html = none
  page : kind = .page → PageSpec name spec ∧
    ∃ text, html = some text ∧ validatePageHtml (.str text) = .ok text

def SpaceRow.Sound (row : SpaceRow) : Prop :=
  UrlSafe row.slug ∧ Content row.kind row.name row.spec row.html

/-- Rows of an app, one of whose entities each of them fills in. -/
def Seeds (spec : Json) (seeds : List SeedRecord) : Prop :=
  ∀ seed ∈ seeds, ∃ entity, findEntity (specEntities spec) seed.entityName = some entity ∧
    Conforms entity seed.data

structure Draft.Sound (draft : Draft) : Prop where
  content : Content draft.kind draft.name draft.spec draft.html
  seeds : Seeds draft.spec draft.seeds
  page : draft.kind = .page → draft.seeds = []

theorem validateAppSpec_same {value spec : Json} (accepted : Specs.validateAppSpec value = .ok spec) :
    Specs.validateAppSpec spec = .ok spec := by
  obtain ⟨rfl, -⟩ := Specs.validateAppSpec_ok accepted
  exact accepted

theorem appDraft_sound {toLowerCase : String → String} {workspaceId : String}
    {userId : Option String} {specInput : Json} {recordsInput : Option Json}
    {draw : Nat → UuidText} {draft : Draft}
    (made : appDraft toLowerCase workspaceId userId specInput recordsInput draw = .ok draft) :
    draft.Sound := by
  unfold appDraft at made
  split at made
  · cases made
  · rename_i spec accepted
    split at made
    · cases made
    · rename_i seeds prepared
      cases made
      exact ⟨⟨fun _ => ⟨validateAppSpec_same accepted, rfl⟩, nofun⟩,
        prepared_conform (specEntities_distinct accepted) prepared, nofun⟩

theorem validatePageHtml_same {value : Json} {html : String}
    (valid : validatePageHtml value = .ok html) : validatePageHtml (.str html) = .ok html := by
  cases value with
  | str text =>
    obtain ⟨rfl, -⟩ := (PageEdits.validatePageHtml_ok_iff text html).mp valid
    exact valid
  | _ => cases valid

theorem pageSpec_page (name : String) (description : Option String) (allowSignup : Bool) :
    PageSpec name (pageSpec name description allowSignup) := by
  unfold pageSpec
  cases nonEmpty description with
  | none => exact ⟨rfl, rfl, rfl, allowSignup, rfl⟩
  | some text => exact ⟨rfl, rfl, rfl, allowSignup, rfl⟩

theorem pageDraft_sound {workspaceId : String} {userId : Option String} {input : Json}
    {draft : Draft} (made : pageDraft workspaceId userId input = .ok draft) : draft.Sound := by
  unfold pageDraft at made
  cases valid : validatePageInput input with
  | error e =>
    rw [valid] at made
    cases made
  | ok page =>
    rw [valid] at made
    cases made
    have html : validatePageHtml (.str page.html) = .ok page.html := by
      unfold validatePageInput at valid
      split at valid
      · split at valid
        · cases valid
        · split at valid
          · cases valid
          · split at valid
            · cases valid
            · split at valid
              · cases valid
              · split at valid
                · cases valid
                · rename_i passed
                  cases valid
                  exact validatePageHtml_same passed
      · cases valid
    exact ⟨⟨nofun, fun _ => ⟨pageSpec_page _ _ _, page.html, rfl, html⟩⟩,
      fun _ absent => absurd absent List.not_mem_nil, fun _ => rfl⟩

theorem applyPageEdits_valid {html out : String} {edits : Json}
    (made : applyPageEdits html edits = .ok out) : validatePageHtml (.str out) = .ok out := by
  unfold applyPageEdits at made
  split at made
  · split at made
    · exact validatePageHtml_same made
    · cases made
  · cases made

/-- A spec with another name. -/
theorem pageSpec_renamed {title : PageTitle} {name : String} (spec : PageSpec name (.obj title.spec))
    (other : String) : PageSpec other (.obj (renamed title other).spec) := by
  have kept : ∀ key, key ≠ "name" →
      (Json.obj (renamed title other).spec).get? key = (Json.obj title.spec).get? key := by
    intro key differs
    have last : ("name" == key) = false := beq_eq_false_iff_ne.mpr (Ne.symm differs)
    simp only [renamed, Json.get?, List.reverse_append, List.reverse_singleton,
      List.singleton_append, List.find?_cons, last, ← List.filter_reverse, List.find?_filter]
    congr 2
    funext field
    by_cases hit : field.1 = key
    · simp [hit, differs]
    · simp [hit]
  have own : (Json.obj (renamed title other).spec).get? "name" = some (.str other) := by
    simp [renamed, Json.get?]
  obtain ⟨-, entities, views, allowSignup, auth⟩ := spec
  exact ⟨own, by rw [kept _ (by decide), entities], by rw [kept _ (by decide), views], allowSignup,
    by rw [kept _ (by decide), auth]⟩

theorem editedPage_sound {row : SpaceRow} {input : UpdatePageInput} {html : String}
    {title : PageTitle} (spec : PageSpec row.name row.spec)
    (made : editedPage row.space row.title input = .ok (html, title)) :
    PageSpec title.name (.obj title.spec) ∧ validatePageHtml (.str html) = .ok html := by
  have own : PageSpec row.title.name (.obj row.title.spec) := by
    cases shape : row.spec with
    | obj fields => simpa [SpaceRow.title, fieldsOf, shape] using spec
    | _ =>
      have name := spec.name
      rw [shape] at name
      cases name
  unfold editedPage at made
  dsimp only at made
  split at made
  · cases made
  · rename_i text document
    have valid : validatePageHtml (.str text) = .ok text := by
      split at document
      · exact validatePageHtml_same document
      · exact applyPageEdits_valid document
      · cases document
    split at made
    · cases made
      exact ⟨own, valid⟩
    · split at made
      · cases made
      · cases made
        exact ⟨pageSpec_renamed own _, valid⟩
    · cases made

theorem respecced_sound {row entity : SpaceRow} {specInput : Json}
    (made : respecced row specInput = .ok entity) :
    entity.id = row.id ∧ entity.identity = row.identity ∧ entity.html = row.html ∧
      Specs.validateAppSpec entity.spec = .ok entity.spec := by
  unfold respecced at made
  cases accepted : Specs.validateAppSpec specInput with
  | error e =>
    rw [accepted] at made
    cases made
  | ok spec =>
    rw [accepted] at made
    cases made
    exact ⟨rfl, rfl, rfl, validateAppSpec_same accepted⟩

/-- Where the identity is the one that was read, a save leaves it. -/
theorem savedSpace_identity {same : Json → Json → Bool} {seen entity row : SpaceRow}
    (unmoved : seen.identity = entity.identity) :
    (savedSpace same seen entity row).identity = row.identity := by
  simp only [SpaceRow.identity, Identity.mk.injEq] at unmoved
  simp [SpaceRow.identity, savedSpace, saved, unmoved]

end Gomer.SpaceTables
