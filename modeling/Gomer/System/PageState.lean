import Gomer.Lib.Relational
import Gomer.Lib.Trace
import Gomer.Spaces.Pages
import Mathlib.Logic.Function.Basic

/-! Saves of what pages remember, interleaved with edits of the pages. A save is one conditional
UPDATE; an edit reads a row, and writes other columns of it later. -/
namespace Gomer.PageState

open Trace

/-- An edit between its read and its UPDATE. -/
structure Draft where
  id : UuidText
  html : String
  title : PageTitle

structure State where
  db : SpaceDatabase
  idKey : (db.spaces.map (·.id)).Nodup
  titles : UuidText → Option PageTitle
  drafts : Nat → Option Draft

def start : State := ⟨⟨[], [], List.nodup_nil, List.nodup_nil⟩, List.nodup_nil, fun _ => none,
  fun _ => none⟩

inductive Action where
  | createPage (id : UuidText) (slug html : String) (title : PageTitle)
  | savePageState (space : Space) (key : String) (value : Json)
  | readPage (call : Nat) (workspaceId slug : String) (input : UpdatePageInput)
  | writePage (call : Nat)

/-- The row of a new page; its state is the column's default. -/
def newPage (id : UuidText) (slug html : String) : Space :=
  ⟨id, slug, .published, .page, [], some html, []⟩

theorem setPageState_ids (db : SpaceDatabase) (p : Space → Bool)
    (next : List (String × Json) → List (String × Json)) :
    (db.setPageState p next).spaces.map (·.id) = db.spaces.map (·.id) := by
  apply Relational.map_fixed
  intro row
  split <;> rfl

theorem setHtml_ids (db : SpaceDatabase) (id : UuidText) (html : String) :
    (db.setHtml id html).spaces.map (·.id) = db.spaces.map (·.id) := by
  apply Relational.map_fixed
  intro row
  split <;> rfl

theorem validatePageStateEntry_ok {key : String} {value : Json} {entry : String × Json}
    (valid : validatePageStateEntry key value = .ok entry) : entry = (key, value) := by
  unfold validatePageStateEntry at valid
  split at valid
  · cases valid
  · split at valid
    · cases valid
    · cases valid
      rfl

section
variable (postgres : Postgres) (db : SpaceDatabase)

def fits (space : Space) (key : String) (value : Json) (row : Space) : Bool :=
  row.id == space.id &&
    decide (postgres.octetLength (nextPageState key value row.pageState) ≤ maxPageStateBytes)

/-- A save either is refused and changes nothing, or merges the key into the rows that fit. -/
theorem savePageState_cases (space : Space) (key : String) (value : Json) :
    (∃ e, savePageState postgres db space key value = (db, .error e)) ∨
      db.spaces.any (fits postgres space key value) = true ∧
        savePageState postgres db space key value =
          (db.setPageState (fits postgres space key value) (nextPageState key value), .ok ()) := by
  unfold savePageState
  split
  · exact .inl ⟨_, rfl⟩
  · split
    · exact .inl ⟨_, rfl⟩
    · rename_i entry valid
      have same := validatePageStateEntry_ok valid
      subst same
      dsimp only
      split
      · exact .inl ⟨_, rfl⟩
      · split
        · rename_i some
          exact .inr ⟨some, rfl⟩
        · exact .inl ⟨_, rfl⟩

theorem savePageState_ids (space : Space) (key : String) (value : Json) :
    (savePageState postgres db space key value).1.spaces.map (·.id) = db.spaces.map (·.id) := by
  rcases savePageState_cases postgres db space key value with ⟨e, refused⟩ | ⟨_, saved⟩
  · rw [refused]
  · rw [saved]
    exact setPageState_ids db _ _

end

def State.saved (postgres : Postgres) (s : State) (space : Space) (key : String) (value : Json) :
    State :=
  { s with
    db := (savePageState postgres s.db space key value).1
    idKey := by
      rw [savePageState_ids]
      exact s.idKey }

def step (postgres : Postgres) (s : State) : Action → Option State
  | .createPage id slug html title =>
    if fresh : id ∉ s.db.spaces.map (·.id) ∧ slug ∉ s.db.spaces.map (·.slug) then
      some
        { s with
          db := { s.db with
            spaces := s.db.spaces ++ [newPage id slug html]
            slugKey := by
              rw [List.map_append]
              exact List.nodup_append_comm.mp (List.nodup_cons.mpr ⟨fresh.2, s.db.slugKey⟩) }
          idKey := by
            rw [List.map_append]
            exact List.nodup_append_comm.mp (List.nodup_cons.mpr ⟨fresh.1, s.idKey⟩)
          titles := Function.update s.titles id (some title) }
    else none
  | .savePageState space key value => some (s.saved postgres space key value)
  | .readPage call workspaceId slug input =>
    match s.drafts call, findPageForWorkspace s.db s.titles workspaceId slug with
    | some _, _ => none
    | none, .error _ => some s
    | none, .ok (page, title) =>
      match editedPage page title input with
      | .error _ => some s
      | .ok (html, title) =>
        some { s with drafts := Function.update s.drafts call (some ⟨page.id, html, title⟩) }
  | .writePage call =>
    match s.drafts call with
    | none => none
    | some draft =>
      some
        { db := s.db.setHtml draft.id draft.html
          idKey := by
            rw [setHtml_ids]
            exact s.idKey
          titles := Function.update s.titles draft.id (some draft.title)
          drafts := Function.update s.drafts call none }

abbrev Step (postgres : Postgres) (s : State) (a : Action) (t : State) : Prop :=
  step postgres s a = some t

/-- What the page with this id remembers. -/
def stateOf (db : SpaceDatabase) (id : UuidText) : List (String × Json) :=
  ((db.spaces.find? (·.id == id)).map (·.pageState)).getD []

def valueOf (db : SpaceDatabase) (id : UuidText) (key : String) : Option Json :=
  (Json.obj (stateOf db id)).get? key

/-- What a saved value leaves under its key. -/
def stored (value : Json) : Option Json := if value.isNull then none else some value

theorem get?_nextPageState (key : String) (value : Json) (state : List (String × Json))
    (other : String) :
    (Json.obj (nextPageState key value state)).get? other =
      if other = key then stored value else (Json.obj state).get? other := by
  have gone : ((state.filter fun field => field.1 != key).reverse.find?
      fun field => field.1 == key) = none := by
    simp
  have kept (wanted : other ≠ key) :
      ((state.filter fun field => field.1 != key).reverse.find? fun field => field.1 == other) =
        state.reverse.find? fun field => field.1 == other := by
    rw [← List.filter_reverse, List.find?_filter]
    congr 1
    funext field
    by_cases named : field.1 = other
    · simp [named, wanted]
    · simp [named]
  unfold Json.get? nextPageState stored
  by_cases wanted : other = key
  · subst wanted
    by_cases removed : value.isNull = true
    · simp only [removed, ↓reduceIte, gone, Option.map_none]
    · simp [removed]
  · by_cases removed : value.isNull = true
    · simp only [removed, ↓reduceIte, kept wanted, wanted]
    · simp only [removed, Bool.false_eq_true, ↓reduceIte, wanted, List.reverse_append,
        List.reverse_cons, List.reverse_nil, List.nil_append, List.singleton_append,
        List.find?_cons, beq_eq_false_iff_ne.mpr (Ne.symm wanted), kept wanted]

/-! What one action does to what a page remembers -/

section
variable {db : SpaceDatabase} (idKey : (db.spaces.map (·.id)).Nodup)

include idKey in
theorem stateOf_setPageState (id own : UuidText) (p : Space → Bool)
    (next : List (String × Json) → List (String × Json)) (some : db.spaces.any p = true)
    (only : ∀ row, p row = true → row.id = own) :
    stateOf (db.setPageState p next) id =
      if id = own then next (stateOf db id) else stateOf db id := by
  obtain ⟨hit, member, fit⟩ := List.any_eq_true.mp some
  have found : db.spaces.find? (·.id == own) = Option.some hit :=
    (Relational.find_unique_iff idKey).mpr ⟨member, only hit fit⟩
  unfold stateOf SpaceDatabase.setPageState
  rw [Relational.find_fixed fun row => by split <;> rfl]
  split
  · rename_i same
    subst same
    simp [found, fit]
  · rename_i other
    cases which : db.spaces.find? (·.id == id) with
    | none => rfl
    | some row =>
      have named := ((Relational.find_unique_iff idKey).mp which).2
      have unfit : p row = false := by
        by_contra fits
        exact other (named.symm.trans (only row (by simpa using fits)))
      simp [unfit]

theorem stateOf_setHtml (db : SpaceDatabase) (id own : UuidText) (html : String) :
    stateOf (db.setHtml own html) id = stateOf db id := by
  unfold stateOf SpaceDatabase.setHtml
  rw [Relational.find_fixed fun row => by split <;> rfl, Option.map_map]
  congr 2
  funext row
  simp only [Function.comp_apply]
  split <;> rfl

variable (postgres : Postgres)

def accepts (postgres : Postgres) (db : SpaceDatabase) (space : Space) (key : String)
    (value : Json) : Bool :=
  (savePageState postgres db space key value).2.isOk

/-- A refused save changes nothing. -/
theorem savePageState_refused {space : Space} {key : String} {value : Json}
    (refused : accepts postgres db space key value = false) :
    (savePageState postgres db space key value).1 = db := by
  rcases savePageState_cases postgres db space key value with ⟨e, same⟩ | ⟨_, saved⟩
  · rw [same]
  · rw [accepts, saved] at refused
    cases refused

include idKey in
theorem valueOf_savePageState (space : Space) (key : String) (value : Json) (id : UuidText)
    (other : String) :
    valueOf (savePageState postgres db space key value).1 id other =
      if accepts postgres db space key value = true ∧ id = space.id ∧ other = key then stored value
      else valueOf db id other := by
  rcases savePageState_cases postgres db space key value with ⟨e, refused⟩ | ⟨some, saved⟩
  · have no : accepts postgres db space key value = false := by rw [accepts, refused]; rfl
    simp [refused, no]
  · have yes : accepts postgres db space key value = true := by rw [accepts, saved]; rfl
    have only (row : Space) (fit : fits postgres space key value row = true) : row.id = space.id := by
      unfold fits at fit
      exact beq_iff_eq.mp (Bool.and_eq_true_iff.mp fit).1
    rw [saved, valueOf, stateOf_setPageState idKey id space.id _ _ some only]
    by_cases own : id = space.id
    · simp only [own, ↓reduceIte, get?_nextPageState, yes, true_and, valueOf]
    · simp only [own, ↓reduceIte, false_and, and_false, valueOf]

include idKey in
/-- Two saves of different keys leave the same in both orders where each is accepted in both or
refused in both. -/
theorem savePageState_comm {space space' : Space} {key key' : String} {value value' : Json}
    (different : key ≠ key')
    (first : accepts postgres (savePageState postgres db space' key' value').1 space key value =
      accepts postgres db space key value)
    (second : accepts postgres (savePageState postgres db space key value).1 space' key' value' =
      accepts postgres db space' key' value') (id : UuidText) (other : String) :
    valueOf (savePageState postgres (savePageState postgres db space key value).1
        space' key' value').1 id other =
      valueOf (savePageState postgres (savePageState postgres db space' key' value').1
        space key value).1 id other := by
  have after (space : Space) (key : String) (value : Json) :
      ((savePageState postgres db space key value).1.spaces.map (·.id)).Nodup := by
    rw [savePageState_ids]
    exact idKey
  rw [valueOf_savePageState (after _ _ _), valueOf_savePageState idKey,
    valueOf_savePageState (after _ _ _), valueOf_savePageState idKey, first, second]
  by_cases named : other = key
  · subst named
    simp [different]
  · simp [named]

theorem bounded_savePageState {space : Space} {key : String} {value : Json}
    (bounded : ∀ row ∈ db.spaces, postgres.octetLength row.pageState ≤ maxPageStateBytes) :
    ∀ row ∈ (savePageState postgres db space key value).1.spaces,
      postgres.octetLength row.pageState ≤ maxPageStateBytes := by
  rcases savePageState_cases postgres db space key value with ⟨e, refused⟩ | ⟨_, saved⟩
  · rw [refused]
    exact bounded
  · rw [saved]
    intro row member
    obtain ⟨old, present, rfl⟩ := List.mem_map.mp member
    split
    · rename_i fit
      unfold fits at fit
      exact of_decide_eq_true (Bool.and_eq_true_iff.mp fit).2
    · exact bounded old present

end

/-! Runs -/

section
variable (postgres : Postgres)

/-- The save that a transition stores: its page, its key and its value. -/
def accepted (x : Transition State Action) : Option (UuidText × String × Json) :=
  match x.label with
  | .savePageState space key value =>
    if accepts postgres x.pre.db space key value then some (space.id, key, value) else none
  | _ => none

/-- The value of the last successful save of a key. -/
def lastSaved (steps : List (Transition State Action)) (id : UuidText) (key : String) : Option Json :=
  ((steps.filterMap (accepted postgres)).reverse.find? fun save =>
    save.1 == id && save.2.1 == key).map (·.2.2)

@[simp] theorem lastSaved_nil (id : UuidText) (key : String) : lastSaved postgres [] id key = none :=
  rfl

theorem lastSaved_snoc (steps : List (Transition State Action)) (x : Transition State Action)
    (id : UuidText) (key : String) :
    lastSaved postgres (steps ++ [x]) id key =
      match accepted postgres x with
      | some save => if id = save.1 ∧ key = save.2.1 then some save.2.2
        else lastSaved postgres steps id key
      | none => lastSaved postgres steps id key := by
  unfold lastSaved
  rw [List.filterMap_append, List.filterMap_cons, List.filterMap_nil]
  cases accepted postgres x with
  | none => simp only [List.append_nil]
  | some save =>
    simp only [List.reverse_append, List.reverse_singleton, List.singleton_append, List.find?_cons]
    by_cases same : id = save.1 ∧ key = save.2.1
    · simp [same.1, same.2]
    · rw [if_neg same]
      have other : (save.1 == id && save.2.1 == key) = false := by
        rw [Bool.and_eq_false_iff, beq_eq_false_iff_ne, beq_eq_false_iff_ne]
        by_contra both
        push Not at both
        exact same ⟨both.1.symm, both.2.symm⟩
      rw [other]

def Action.Saves : Action → Prop
  | .savePageState .. => True
  | _ => False

/-- A step that is no save leaves what every page remembers; a new page remembers nothing. -/
theorem step_other {s t : State} {a : Action} (taken : Step postgres s a t) (other : ¬a.Saves) :
    (∀ id, stateOf t.db id = stateOf s.db id) ∧
      ∀ row ∈ t.db.spaces, row.pageState = [] ∨
        ∃ old ∈ s.db.spaces, row.pageState = old.pageState := by
  have kept : (∀ id, stateOf s.db id = stateOf s.db id) ∧
      ∀ row ∈ s.db.spaces, row.pageState = [] ∨
        ∃ old ∈ s.db.spaces, row.pageState = old.pageState :=
    ⟨fun _ => rfl, fun row member => .inr ⟨row, member, rfl⟩⟩
  cases a with
  | savePageState => exact absurd trivial other
  | createPage id slug html title =>
    simp only [Step, step] at taken
    split at taken
    · rename_i fresh
      cases taken
      refine ⟨fun wanted => ?_, fun row member => ?_⟩
      · unfold stateOf
        rw [List.find?_append]
        cases found : s.db.spaces.find? (·.id == wanted) with
        | some row => rfl
        | none => by_cases named : id = wanted <;> simp [newPage, named]
      · rcases List.mem_append.mp member with old | new
        · exact .inr ⟨row, old, rfl⟩
        · rw [List.mem_singleton.mp new]
          exact .inl rfl
    · cases taken
  | readPage call workspaceId slug input =>
    simp only [Step, step] at taken
    split at taken
    · cases taken
    · cases taken
      exact kept
    · split at taken <;> cases taken <;> exact kept
  | writePage call =>
    simp only [Step, step] at taken
    split at taken
    · cases taken
    · cases taken
      refine ⟨fun id => stateOf_setHtml _ _ _ _, fun row member => ?_⟩
      obtain ⟨old, present, rfl⟩ := List.mem_map.mp member
      refine .inr ⟨old, present, ?_⟩
      split <;> rfl

/-- What a run keeps of every page. -/
structure StateKept (steps : List (Transition State Action)) (s : State) : Prop where
  last : ∀ id key, valueOf s.db id key = (lastSaved postgres steps id key).bind stored
  refused : ∀ x ∈ steps, ∀ space key value, x.label = .savePageState space key value →
    accepts postgres x.pre.db space key value = false → x.post = x.pre
  edited : ∀ x ∈ steps, ¬x.label.Saves → ∀ id, stateOf x.post.db id = stateOf x.pre.db id
  bounded : ∀ row ∈ s.db.spaces, postgres.octetLength row.pageState ≤ maxPageStateBytes

theorem run_kept (empty : postgres.octetLength [] ≤ maxPageStateBytes)
    {steps : List (Transition State Action)} {s : State} (run : Run (Step postgres) start steps s) :
    StateKept postgres steps s := by
  induction run with
  | nil =>
    constructor
    · intro id key
      rfl
    · simp
    · simp
    · exact fun row absent => absurd absent List.not_mem_nil
  | @snoc steps s t a earlier taken ih =>
    by_cases saves : a.Saves
    · cases a with
      | savePageState space key value =>
        cases taken
        constructor
        · intro id other
          rw [lastSaved_snoc]
          simp only [accepted, State.saved, valueOf_savePageState s.idKey]
          by_cases yes : accepts postgres s.db space key value = true
          · by_cases same : id = space.id ∧ other = key
            · simp [yes, same]
            · simp [yes, same, ih.last]
          · simp [yes, ih.last]
        · simp only [List.forall_mem_append, List.forall_mem_singleton]
          refine ⟨ih.refused, fun _ _ _ same refused => ?_⟩
          cases same
          simp only [State.saved, savePageState_refused postgres refused]
        · simp only [List.forall_mem_append, List.forall_mem_singleton]
          exact ⟨ih.edited, fun other => absurd saves other⟩
        · exact bounded_savePageState postgres ih.bounded
      | _ => exact saves.elim
    · obtain ⟨same, rows⟩ := step_other postgres taken saves
      have unsaved : accepted postgres ⟨s, a, t⟩ = none := by
        cases a with
        | savePageState => exact absurd trivial saves
        | _ => rfl
      constructor
      · intro id key
        rw [lastSaved_snoc, unsaved, valueOf, same id]
        exact ih.last id key
      · simp only [List.forall_mem_append, List.forall_mem_singleton]
        refine ⟨ih.refused, fun _ _ _ named _ => ?_⟩
        rw [named] at saves
        exact absurd trivial saves
      · simp only [List.forall_mem_append, List.forall_mem_singleton]
        exact ⟨ih.edited, fun _ => same⟩
      · intro row member
        rcases rows row member with new | ⟨old, present, kept⟩
        · rw [new]
          exact empty
        · rw [kept]
          exact ih.bounded old present

end

/-! A page near its bound -/

section
variable {postgres : Postgres} {db : SpaceDatabase}

theorem accepts_iff (space : Space) (key : String) (value : Json) :
    accepts postgres db space key value = true ↔
      space.kind = .page ∧ validatePageStateEntry key value = .ok (key, value) ∧
        postgres.storable (.obj [(key, value)]) = true ∧
          db.spaces.any (fits postgres space key value) = true := by
  unfold accepts savePageState
  split
  · rename_i other
    simp [other, Except.isOk, Except.toBool]
  · rename_i page
    split
    · rename_i e invalid
      simp [invalid, Except.isOk, Except.toBool]
    · rename_i entry valid
      have same := validatePageStateEntry_ok valid
      subst same
      dsimp only
      split
      · rename_i unstorable
        simp [unstorable, Except.isOk, Except.toBool]
      · rename_i stores
        split
        · rename_i some
          simp only [Except.isOk, Except.toBool, true_iff]
          exact ⟨not_not.mp page, valid, Bool.not_eq_false _ |>.mp stores, some⟩
        · rename_i none
          simp only [Except.isOk, Except.toBool, Bool.false_eq_true, false_iff]
          exact fun all => none all.2.2.2

theorem savePageState_single {row space : Space} {key : String} {value : Json}
    (single : db.spaces = [row])
    (yes : accepts postgres db space key value = true) :
    (savePageState postgres db space key value).1.spaces =
      [{ row with pageState := nextPageState key value row.pageState }] := by
  rcases savePageState_cases postgres db space key value with ⟨e, refused⟩ | ⟨some, saved⟩
  · rw [accepts, refused] at yes
    cases yes
  · rw [single, List.any_cons, List.any_nil, Bool.or_false] at some
    simp [saved, SpaceDatabase.setPageState, single, some]

end

def utf8Length (text : List Char) : Nat := (text.map Char.utf8Size).sum

@[simp] theorem utf8Length_cons (c : Char) (text : List Char) :
    utf8Length (c :: text) = c.utf8Size + utf8Length text := rfl

@[simp] theorem utf8Length_append (a b : List Char) :
    utf8Length (a ++ b) = utf8Length a + utf8Length b := by
  simp [utf8Length]

/-- `text` of a jsonb object whose members are scalars. -/
def jsonbMembers : List (String × Json) → List Char
  | [] => []
  | [field] => Jwt.quote field.1 ++ ": ".toList ++ field.2.stringify
  | field :: next :: rest =>
    Jwt.quote field.1 ++ ": ".toList ++ field.2.stringify ++ ", ".toList ++
      jsonbMembers (next :: rest)

def jsonbText (fields : List (String × Json)) : List Char := '{' :: jsonbMembers fields ++ ['}']

/-- Postgres, of texts without NUL characters. -/
def jsonb : Postgres where
  uuid text := if length : text.length = 36 then some ⟨text, length⟩ else none
  encodable _ := true
  storable _ := true
  sameData a b := jsonbText a == jsonbText b
  octetLength fields := utf8Length (jsonbText fields)

/-- `n` ticks; each is three bytes. -/
def ticks (n : Nat) : Json := .str (String.ofList (List.replicate n '✓'))

theorem stringify_ticks (n : Nat) :
    (ticks n).stringify = Jwt.quotation :: List.replicate n '✓' ++ [Jwt.quotation] := by
  have plain : Jwt.escape '✓' = ['✓'] := by decide
  simp [ticks, Json.stringify, Jwt.quote, List.flatMap_replicate, plain]

theorem utf8Length_ticks (n : Nat) : utf8Length (ticks n).stringify = 3 * n + 2 := by
  have wide : '✓'.utf8Size = 3 := by decide
  have quotes : Jwt.quotation.utf8Size = 1 := by decide
  rw [stringify_ticks]
  simp [utf8Length, wide, quotes]
  omega

theorem utf16Length_ticks (n : Nat) : Json.utf16Length (ticks n).stringify = n + 2 := by
  have quotes : Jwt.quotation.toNat < 65536 := by decide
  rw [stringify_ticks]
  simp [Json.utf16Length, quotes]
  omega

theorem accepts_ticks {db : SpaceDatabase} {row space : Space} {key : String} {n : Nat}
    (single : db.spaces = [row]) (own : row.id = space.id) (page : space.kind = .page)
    (named : key ≠ "" ∧ Json.utf16Length key.toList ≤ 200) (short : n ≤ 99998) :
    accepts jsonb db space key (ticks n) = true ↔
      jsonb.octetLength (nextPageState key (ticks n) row.pageState) ≤ maxPageStateBytes := by
  have valid : validatePageStateEntry key (ticks n) = .ok (key, ticks n) := by
    unfold validatePageStateEntry
    rw [if_neg (by simpa [named.1] using named.2), if_neg]
    rw [utf16Length_ticks]
    unfold maxStateValueChars
    omega
  simp [accepts_iff, page, valid, single, fits, own, show jsonb.storable _ = true from rfl]

def planId : UuidText := ⟨"0c6a5d52-8f0e-4b7c-9c4e-2d1b7f3a9e15", by decide⟩

/-- A page of ticks. -/
def plan (fields : List (String × Nat)) : Space :=
  { newPage planId "plan" "<h1>Plan</h1>" with
    pageState := fields.map fun field => (field.1, ticks field.2) }

theorem nextPageState_plan (key : String) (n : Nat) (fields : List (String × Nat))
    (fresh : key ∉ fields.map (·.1)) :
    nextPageState key (ticks n) (plan fields).pageState = (plan (fields ++ [(key, n)])).pageState := by
  have kept : (plan fields).pageState.filter (fun field => field.1 != key) = (plan fields).pageState := by
    refine List.filter_eq_self.mpr fun field member => ?_
    obtain ⟨old, present, rfl⟩ := List.mem_map.mp member
    simpa using fun same => fresh (List.mem_map.mpr ⟨old, present, same⟩)
  rw [nextPageState, kept]
  simp [ticks, Json.isNull, plan]

/-- An entry takes nine bytes beside its ticks, with what stands between two entries. -/
theorem octetLength_plan (field : String × Nat) (rest : List (String × Nat))
    (letters : ∀ f ∈ field :: rest, utf8Length (Jwt.quote f.1) = 3) :
    jsonb.octetLength (plan (field :: rest)).pageState =
      ((field :: rest).map fun f => 3 * f.2 + 9).sum := by
  have colon : utf8Length ": ".toList = 2 := by decide
  have comma : utf8Length ", ".toList = 2 := by decide
  have braces : '{'.utf8Size = 1 ∧ utf8Length ['}'] = 1 := by decide
  have members : utf8Length (jsonbMembers ((field :: rest).map fun f => (f.1, ticks f.2))) + 2 =
      ((field :: rest).map fun f => 3 * f.2 + 9).sum := by
    induction rest generalizing field with
    | nil =>
      have own := letters field List.mem_cons_self
      simp only [List.map_cons, List.map_nil, jsonbMembers, utf8Length_append, own, colon,
        utf8Length_ticks, List.sum_cons, List.sum_nil]
      omega
    | cons next rest ih =>
      have own := letters field List.mem_cons_self
      have later := ih next fun f member => letters f (List.mem_cons_of_mem _ member)
      simp only [List.map_cons, jsonbMembers, utf8Length_append, own, colon, comma,
        utf8Length_ticks, List.sum_cons] at later ⊢
      omega
  change utf8Length ('{' :: jsonbMembers ((field :: rest).map fun f => (f.1, ticks f.2)) ++ ['}']) = _
  rw [List.cons_append, utf8Length_cons, utf8Length_append, braces.1, braces.2]
  omega

def blank : State where
  db := ⟨[plan []], [], by simp, List.nodup_nil⟩
  idKey := by simp
  titles := Function.update start.titles planId (some ⟨"workspace", "Plan", []⟩)
  drafts := start.drafts

def tick (s : State) (key : String) (n : Nat) : State := s.saved jsonb (plan []) key (ticks n)

/-- Three long notes. -/
def nearFull : State := tick (tick (tick blank "a" 99998) "b" 99998) "c" 99998

def letters : List String := ["a", "b", "c", "d", "e"]

theorem letters_short : ∀ key ∈ letters, (key ≠ "" ∧ Json.utf16Length key.toList ≤ 200) ∧
    utf8Length (Jwt.quote key) = 3 := by
  decide

section
variable {s : State} {fields : List (String × Nat)} {key : String} {n : Nat}
  (before : s.db.spaces = [plan fields]) (known : ∀ f ∈ fields ++ [(key, n)], f.1 ∈ letters)
  (fresh : key ∉ fields.map (·.1)) (short : n ≤ 99998)
include before known fresh short

theorem tick_accepted : accepts jsonb s.db (plan []) key (ticks n) = true ↔
    ((fields ++ [(key, n)]).map fun f => 3 * f.2 + 9).sum ≤ maxPageStateBytes := by
  have named := (letters_short key (known (key, n) (by simp))).1
  have own : (plan fields).id = (plan []).id := rfl
  rw [accepts_ticks before own rfl named short, nextPageState_plan key n fields fresh]
  cases same : fields ++ [(key, n)] with
  | nil => simp at same
  | cons field rest =>
    rw [same] at known
    rw [octetLength_plan field rest fun f member => (letters_short f.1 (known f member)).2]

theorem tick_spaces (fits : ((fields ++ [(key, n)]).map fun f => 3 * f.2 + 9).sum ≤ maxPageStateBytes) :
    (tick s key n).db.spaces = [plan (fields ++ [(key, n)])] := by
  have yes := (tick_accepted before known fresh short).mpr fits
  have after := savePageState_single before yes
  rw [nextPageState_plan key n fields fresh] at after
  exact after

end

theorem valueOf_tick (s : State) (key : String) (n : Nat) (id : UuidText) (other : String) :
    valueOf (tick s key n).db id other =
      if accepts jsonb s.db (plan []) key (ticks n) = true ∧ id = planId ∧ other = key then
        some (ticks n)
      else valueOf s.db id other := by
  have kept : stored (ticks n) = some (ticks n) := rfl
  unfold tick State.saved
  rw [valueOf_savePageState s.idKey, kept]
  rfl

theorem nearFull_spaces :
    nearFull.db.spaces = [plan [("a", 99998), ("b", 99998), ("c", 99998)]] := by
  have first : (tick blank "a" 99998).db.spaces = [plan [("a", 99998)]] :=
    tick_spaces (show blank.db.spaces = [plan []] from rfl) (by decide) (by decide) (by decide)
      (by decide)
  have second : (tick (tick blank "a" 99998) "b" 99998).db.spaces =
      [plan [("a", 99998), ("b", 99998)]] :=
    tick_spaces first (by decide) (by decide) (by decide) (by decide)
  exact tick_spaces second (by decide) (by decide) (by decide) (by decide)

theorem nearFull_run : ∃ steps, Run (Step jsonb) start steps nearFull := by
  have saved (s : State) (key : String) (n : Nat) :
      Step jsonb s (.savePageState (plan []) key (ticks n)) (tick s key n) := rfl
  have created : Step jsonb start
      (.createPage planId "plan" "<h1>Plan</h1>" ⟨"workspace", "Plan", []⟩) blank := by
    simp [Step, step, start, blank, plan, newPage]
  exact ⟨_, (((Run.nil.snoc created).snoc (saved _ _ _)).snoc (saved _ _ _)).snoc (saved _ _ _)⟩

/-- Whatever is saved and edited, in whatever order, each key of each page holds the value of its
last successful save, an edit leaves them all, and no page holds more than its bound. From any
state reached, two saves of different keys leave the same in both orders where the order does
not decide which of them is accepted. -/
theorem page_state_kept (postgres : Postgres)
    (empty : postgres.octetLength [] ≤ maxPageStateBytes) {steps : List (Transition State Action)}
    {s : State} (run : Run (Step postgres) start steps s) :
    StateKept postgres steps s ∧
      ∀ (space space' : Space) (key key' : String) (value value' : Json), key ≠ key' →
        accepts postgres (s.saved postgres space' key' value').db space key value =
          accepts postgres s.db space key value →
        accepts postgres (s.saved postgres space key value).db space' key' value' =
          accepts postgres s.db space' key' value' →
        ∀ id other,
          valueOf ((s.saved postgres space key value).saved postgres space' key' value').db id other =
            valueOf ((s.saved postgres space' key' value').saved postgres space key value).db
              id other :=
  ⟨run_kept postgres empty run, fun _ _ _ _ _ _ different first second =>
    savePageState_comm s.idKey postgres different first second⟩

theorem notes_commute : ∃ steps, StateKept jsonb steps nearFull ∧ ∀ id other,
    valueOf (tick (tick nearFull "d" 20) "e" 20).db id other =
      valueOf (tick (tick nearFull "e" 20) "d" 20).db id other := by
  obtain ⟨steps, run⟩ := nearFull_run
  have d : (tick nearFull "d" 20).db.spaces =
      [plan [("a", 99998), ("b", 99998), ("c", 99998), ("d", 20)]] :=
    tick_spaces nearFull_spaces (by decide) (by decide) (by decide) (by decide)
  have e : (tick nearFull "e" 20).db.spaces =
      [plan [("a", 99998), ("b", 99998), ("c", 99998), ("e", 20)]] :=
    tick_spaces nearFull_spaces (by decide) (by decide) (by decide) (by decide)
  have all := page_state_kept jsonb (by decide) run
  refine ⟨steps, all.1, all.2 (plan []) (plan []) "d" "e" (ticks 20) (ticks 20) (by decide) ?_ ?_⟩
  · exact ((tick_accepted e (by decide) (by decide) (by decide)).mpr (by decide)).trans
      ((tick_accepted nearFull_spaces (by decide) (by decide) (by decide)).mpr (by decide)).symm
  · exact ((tick_accepted d (by decide) (by decide) (by decide)).mpr (by decide)).trans
      ((tick_accepted nearFull_spaces (by decide) (by decide) (by decide)).mpr (by decide)).symm

/-- Of two saves that do not both fit, the first in order stays and the other is refused. -/
theorem order_decides : ∃ (steps : List (Transition State Action)) (s : State),
    Run (Step jsonb) start steps s ∧
      valueOf (tick (tick s "d" 20000) "e" 20000).db planId "e" = none ∧
      valueOf (tick (tick s "e" 20000) "d" 20000).db planId "e" = some (ticks 20000) := by
  obtain ⟨steps, run⟩ := nearFull_run
  have fitted : (tick nearFull "d" 20000).db.spaces =
      [plan [("a", 99998), ("b", 99998), ("c", 99998), ("d", 20000)]] :=
    tick_spaces nearFull_spaces (by decide) (by decide) (by decide) (by decide)
  have taken : accepts jsonb nearFull.db (plan []) "e" (ticks 20000) = true :=
    (tick_accepted nearFull_spaces (by decide) (by decide) (by decide)).mpr (by decide)
  have refused : ¬accepts jsonb (tick nearFull "d" 20000).db (plan []) "e" (ticks 20000) = true :=
    fun yes => absurd ((tick_accepted fitted (by decide) (by decide) (by decide)).mp yes) (by decide)
  have absent : valueOf nearFull.db planId "e" = none := by
    rw [valueOf, stateOf, nearFull_spaces]
    rfl
  refine ⟨steps, nearFull, run, ?_, ?_⟩
  · rw [valueOf_tick, if_neg fun yes => refused yes.1, valueOf_tick, if_neg, absent]
    exact fun yes => absurd yes.2.2 (by decide)
  · rw [valueOf_tick, if_neg fun yes => absurd yes.2.2 (by decide), valueOf_tick,
      if_pos ⟨taken, rfl, rfl⟩]

end Gomer.PageState
