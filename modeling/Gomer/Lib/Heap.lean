import Gomer.Lib.Paired
import Gomer.Lib.Render

/-! The heap of a JavaScript program: its arrays and objects by address. A value stands for a
JSON document where everything it reaches does. New objects change nothing about the documents
of older values, and neither does a write to an object out of their sight. -/
namespace JsHeap

inductive Value where
  | undefined
  | null
  | bool (value : Bool)
  | num (value : JsNumber.Double)
  | str (value : String)
  | ref (address : Nat)
  deriving DecidableEq

/-- A record lists its own properties; of two with one key the later one counts. -/
inductive Object where
  | array (items : List Value)
  | record (fields : List (String × Value))

/-- An address is a position. -/
abbrev Heap := List Object

/-- The objects in sight. -/
abbrev View := Nat → Option Object

def view (heap : Heap) : View := fun address => heap[address]?

/-- The objects at some of the addresses. -/
def within (P : Nat → Prop) [DecidablePred P] (seen : View) : View := fun address =>
  if P address then seen address else none

/-! What a program does -/

def make (object : Object) (heap : Heap) : Heap × Value := (heap ++ [object], .ref heap.length)

def object? (seen : View) : Value → Option Object
  | .ref address => seen address
  | _ => none

/-- The elements of an array; reading those of anything else throws. -/
def items? (seen : View) (value : Value) : Option (List Value) :=
  match object? seen value with
  | some (.array items) => some items
  | _ => none

/-- The properties that `{ ...value }` copies. -/
def fields (seen : View) (value : Value) : List (String × Value) :=
  match object? seen value with
  | some (.record fields) => fields
  | _ => []

def property? (seen : View) (value : Value) (key : String) : Option Value :=
  ((fields seen value).reverse.find? fun field => field.1 == key).map (·.2)

/-- `value.key` -/
def get (seen : View) (value : Value) (key : String) : Value :=
  (property? seen value key).getD .undefined

/-- The properties of `{ ...value, key: content }`. -/
def withField {β : Type*} (key : String) (content : β) (fields : List (String × β)) :
    List (String × β) :=
  if fields.any (·.1 == key) then
    fields.map fun field => if field.1 == key then (key, content) else field
  else fields ++ [(key, content)]

/-- `Boolean(value)` -/
def truthy : Value → Bool
  | .undefined => false
  | .null => false
  | .bool value => value
  | .num value => decide (value ≠ .nan ∧ value ≠ .finite 0)
  | .str value => value != ""
  | .ref _ => true

/-- `array[index] = value`, where there is such an element. -/
def assign (heap : Heap) (array : Value) (index : Nat) (value : Value) : Option Heap :=
  match array, items? (view heap) array with
  | .ref address, some items => some (heap.set address (.array (items.set index value)))
  | _, _ => none

/-- `array.push(value)` -/
def push (heap : Heap) (array : Value) (value : Value) : Option Heap :=
  match array, items? (view heap) array with
  | .ref address, some items => some (heap.set address (.array (items ++ [value])))
  | _, _ => none

/-- `items.map(convert)` -/
def mapItems (convert : Heap → Value → Option (Heap × Value)) :
    Heap → List Value → Option (Heap × List Value)
  | heap, [] => some (heap, [])
  | heap, item :: rest => do
    let (heap, first) ← convert heap item
    let (heap, later) ← mapItems convert heap rest
    some (heap, first :: later)

mutual
/-- A document as it comes out of a parser, all of its objects new. -/
def store (heap : Heap) : Json → Heap × Value
  | .null => (heap, .null)
  | .bool value => (heap, .bool value)
  | .num value => (heap, .num value)
  | .str value => (heap, .str value)
  | .arr items =>
    let stored := storeItems heap items
    make (.array stored.2) stored.1
  | .obj fields =>
    let stored := storeFields heap fields
    make (.record stored.2) stored.1

def storeItems (heap : Heap) : List Json → Heap × List Value
  | [] => (heap, [])
  | item :: rest =>
    let first := store heap item
    let later := storeItems first.1 rest
    (later.1, first.2 :: later.2)

def storeFields (heap : Heap) : List (String × Json) → Heap × List (String × Value)
  | [] => (heap, [])
  | (key, value) :: rest =>
    let first := store heap value
    let later := storeFields first.1 rest
    (later.1, (key, first.2) :: later.2)
end

/-! What a value stands for -/

/-- The document of a value, as far as `depth` objects below one another. -/
def read (seen : View) : Nat → Value → Option Json
  | _, .undefined => none
  | _, .null => some .null
  | _, .bool value => some (.bool value)
  | _, .num value => some (.num value)
  | _, .str value => some (.str value)
  | 0, .ref _ => none
  | depth + 1, .ref address =>
    match seen address with
    | none => none
    | some (.array items) => (Paired.readAll (read seen depth) items).map .arr
    | some (.record fields) =>
      (Paired.readAll (fun field => (read seen depth field.2).map (field.1, ·)) fields).map .obj

def Denotes (seen : View) (value : Value) (json : Json) : Prop :=
  ∃ depth, read seen depth value = some json

/-- Every object in sight is the same in a later view. -/
def Kept (before after : View) : Prop :=
  ∀ address object, before address = some object → after address = some object

/-! Views -/

theorem Kept.refl (seen : View) : Kept seen seen := fun _ _ found => found

theorem Kept.items {before after : View} (kept : Kept before after) {value : Value}
    {items : List Value} (found : items? before value = some items) :
    items? after value = some items := by
  cases value with
  | ref address =>
    simp only [items?, object?] at found ⊢
    cases here : before address with
    | none => simp [here] at found
    | some object =>
      rw [here] at found
      rw [kept address object here]
      exact found
  | _ => cases found

theorem Kept.trans {first second third : View} (before : Kept first second)
    (after : Kept second third) : Kept first third :=
  fun address object found => after address object (before address object found)

/-- Every object that is made from now on is in sight. -/
def SeesNew (P : Nat → Prop) (heap : Heap) : Prop := ∀ address, heap.length ≤ address → P address

theorem SeesNew.grown {P : Nat → Prop} {before after : Heap} (new : SeesNew P before)
    (grown : before <+: after) : SeesNew P after :=
  fun address beyond => new address (Nat.le_trans grown.length_le beyond)

section
variable {P Q : Nat → Prop} [DecidablePred P] [DecidablePred Q]

theorem Kept.within {before after : View} (kept : Kept before after) (wider : ∀ a, P a → Q a) :
    Kept (within P before) (JsHeap.within Q after) := by
  intro address object found
  unfold JsHeap.within at found ⊢
  split at found
  · rename_i inside
    rw [if_pos (wider address inside)]
    exact kept address object found
  · cases found

theorem Kept.narrow {before after : View}
    (kept : Kept (JsHeap.within Q before) (JsHeap.within Q after))
    (narrower : ∀ a, P a → Q a) : Kept (JsHeap.within P before) (JsHeap.within P after) := by
  intro address object found
  unfold JsHeap.within at found ⊢
  split at found
  · rename_i inside
    have wide : JsHeap.within Q before address = some object :=
      (if_pos (narrower address inside)).trans found
    have later := kept address object wide
    rw [JsHeap.within, if_pos (narrower address inside)] at later
    rwa [if_pos inside]
  · cases found

theorem kept_within (P : Nat → Prop) [DecidablePred P] (seen : View) : Kept (within P seen) seen := by
  intro address object found
  unfold within at found
  split at found
  · exact found
  · cases found

theorem kept_of_grown {before after : Heap} (grown : before <+: after) :
    Kept (view before) (view after) := by
  obtain ⟨added, rfl⟩ := grown
  intro address object found
  have old : address < before.length := (List.getElem?_eq_some_iff.mp found).choose
  exact (List.getElem?_append_left old).trans found

theorem prefix_of_kept {before after : Heap} (kept : Kept (view before) (view after)) :
    before <+: after := by
  refine List.prefix_iff_getElem?.mpr fun address old => ?_
  exact kept address before[address] (List.getElem?_eq_getElem old)

theorem kept_make (object : Object) (heap : Heap) :
    Kept (within P (view heap)) (within P (view (make object heap).1)) :=
  (kept_of_grown (List.prefix_append heap [object])).within fun _ inside => inside

theorem within_make (object : Object) {heap : Heap} (new : SeesNew P heap) :
    within P (view (make object heap).1) heap.length = some object := by
  rw [within, if_pos (new heap.length (Nat.le_refl _))]
  simp [view, make]

theorem kept_everywhere (seen : View) : Kept seen (within (fun _ => True) seen) :=
  fun _ _ found => (if_pos trivial).trans found

/-- What was there before can be told apart from the next object. -/
theorem kept_apart {heap : Heap} {after : View} (kept : Kept (view heap) after) :
    Kept (view heap) (within (· ≠ heap.length) after) := by
  intro address object found
  have old : address < heap.length := (List.getElem?_eq_some_iff.mp found).choose
  rw [within, if_pos (Nat.ne_of_lt old)]
  exact kept address object found

theorem Kept.both {before after : View} (first : Kept before (JsHeap.within P after))
    (second : Kept before (JsHeap.within Q after)) :
    Kept before (JsHeap.within (fun address => P address ∧ Q address) after) := by
  intro address object found
  have one := first address object found
  have two := second address object found
  unfold JsHeap.within at one two ⊢
  split at one
  · rename_i left
    split at two
    · rename_i right
      rw [if_pos ⟨left, right⟩]
      exact one
    · cases two
  · cases one

/-- A write out of sight goes unnoticed. -/
theorem within_set {address : Nat} (unseen : ¬ P address) (heap : Heap) (object : Object) :
    within P (view (heap.set address object)) = within P (view heap) := by
  funext other
  unfold within view
  split
  · rename_i inside
    rw [List.getElem?_set_ne fun same : address = other => unseen (same ▸ inside)]
  · rfl

end

/-! Documents -/

section
variable {seen : View}

/-- A deeper reading of a later view finds what an earlier one found. -/
theorem read_mono {before after : View} (kept : Kept before after) {depth deeper : Nat}
    (below : depth ≤ deeper) {value : Value} {json : Json}
    (found : read before depth value = some json) : read after deeper value = some json := by
  induction depth generalizing deeper value json with
  | zero =>
    cases value with
    | ref address => cases found
    | _ => cases deeper <;> exact found
  | succ depth ih =>
    obtain ⟨deeper, rfl⟩ : ∃ rest, deeper = rest + 1 := ⟨deeper - 1, by omega⟩
    have under : depth ≤ deeper := Nat.le_of_succ_le_succ below
    cases value with
    | ref address =>
      unfold read at found ⊢
      cases here : before address with
      | none => simp [here] at found
      | some object =>
        rw [kept address object here]
        rw [here] at found
        cases object with
        | array items =>
          obtain ⟨jsons, all, same⟩ := Option.map_eq_some_iff.mp found
          refine Option.map_eq_some_iff.mpr ⟨jsons, ?_, same⟩
          rw [Paired.readAll_eq_some] at all ⊢
          exact all.imp fun _ _ item => ih under item
        | record fields =>
          obtain ⟨jsons, all, same⟩ := Option.map_eq_some_iff.mp found
          refine Option.map_eq_some_iff.mpr ⟨jsons, ?_, same⟩
          rw [Paired.readAll_eq_some] at all ⊢
          refine all.imp fun _ _ field => ?_
          obtain ⟨json, item, same⟩ := Option.map_eq_some_iff.mp field
          exact Option.map_eq_some_iff.mpr ⟨json, ih under item, same⟩
    | _ => exact found

theorem Denotes.kept {before after : View} {value : Value} {json : Json}
    (denotes : Denotes before value json) (kept : Kept before after) : Denotes after value json := by
  obtain ⟨depth, found⟩ := denotes
  exact ⟨depth, read_mono kept (Nat.le_refl depth) found⟩

theorem Denotes.unique {value : Value} {json other : Json} (denotes : Denotes seen value json)
    (also : Denotes seen value other) : json = other := by
  obtain ⟨depth, found⟩ := denotes
  obtain ⟨deeper, again⟩ := also
  have first := read_mono (Kept.refl seen) (Nat.le_max_left depth deeper) found
  have second := read_mono (Kept.refl seen) (Nat.le_max_right depth deeper) again
  exact Option.some.inj (first.symm.trans second)

/-- A property and the property of the document it stands for. -/
def DenotesField (seen : View) (field : String × Value) (named : String × Json) : Prop :=
  field.1 = named.1 ∧ Denotes seen field.2 named.2

/-- Readings of different depths fit into one. -/
theorem exists_depth {α β : Type*} {R : Nat → α → β → Prop} {items : List α} {jsons : List β}
    (deeper : ∀ n k a b, n ≤ k → R n a b → R k a b)
    (all : List.Forall₂ (fun a b => ∃ n, R n a b) items jsons) :
    ∃ n, List.Forall₂ (R n) items jsons := by
  induction all with
  | nil => exact ⟨0, .nil⟩
  | cons here _ ih =>
    obtain ⟨n, first⟩ := here
    obtain ⟨k, later⟩ := ih
    refine ⟨max n k, .cons (deeper n _ _ _ (Nat.le_max_left n k) first) ?_⟩
    exact later.imp fun a b item => deeper k _ a b (Nat.le_max_right n k) item

theorem Denotes.array {address : Nat} {items : List Value} {jsons : List Json}
    (found : seen address = some (.array items)) (all : List.Forall₂ (Denotes seen) items jsons) :
    Denotes seen (.ref address) (.arr jsons) := by
  obtain ⟨depth, all⟩ := exists_depth (R := fun n a b => read seen n a = some b)
    (fun n k a b below item => read_mono (Kept.refl seen) below item) all
  refine ⟨depth + 1, ?_⟩
  simp only [read, found, Paired.readAll_eq_some.mpr all, Option.map_some]

theorem Denotes.record {address : Nat} {fields : List (String × Value)}
    {named : List (String × Json)} (found : seen address = some (.record fields))
    (all : List.Forall₂ (DenotesField seen) fields named) :
    Denotes seen (.ref address) (.obj named) := by
  have each : List.Forall₂ (fun field json =>
      ∃ n, (read seen n field.2).map (field.1, ·) = some json) fields named := by
    refine all.imp fun field json same => ?_
    obtain ⟨key, n, item⟩ := same
    exact ⟨n, by rw [item, Option.map_some, key]⟩
  obtain ⟨depth, all⟩ := exists_depth
    (R := fun n (field : String × Value) json => (read seen n field.2).map (field.1, ·) = some json)
    (fun n k field json below item => by
      obtain ⟨value, found, same⟩ := Option.map_eq_some_iff.mp item
      exact Option.map_eq_some_iff.mpr ⟨value, read_mono (Kept.refl seen) below found, same⟩) each
  refine ⟨depth + 1, ?_⟩
  simp only [read, found, Paired.readAll_eq_some.mpr all, Option.map_some]

theorem Denotes.str (text : String) : Denotes seen (.str text) (.str text) := ⟨0, rfl⟩

theorem Denotes.bool (value : Bool) : Denotes seen (.bool value) (.bool value) := ⟨0, rfl⟩

/-- What an address that stands for a document holds. -/
theorem Denotes.object {address : Nat} {json : Json} (denotes : Denotes seen (.ref address) json) :
    (∃ items jsons, seen address = some (.array items) ∧ json = .arr jsons ∧
      List.Forall₂ (Denotes seen) items jsons) ∨
    ∃ fields named, seen address = some (.record fields) ∧ json = .obj named ∧
      List.Forall₂ (DenotesField seen) fields named := by
  obtain ⟨depth, found⟩ := denotes
  cases depth with
  | zero => cases found
  | succ depth =>
    unfold read at found
    split at found
    · cases found
    · rename_i items here
      obtain ⟨jsons, all, same⟩ := Option.map_eq_some_iff.mp found
      rw [Paired.readAll_eq_some] at all
      exact .inl ⟨items, jsons, here, same.symm, all.imp fun _ _ item => ⟨depth, item⟩⟩
    · rename_i fields here
      obtain ⟨named, all, same⟩ := Option.map_eq_some_iff.mp found
      rw [Paired.readAll_eq_some] at all
      refine .inr ⟨fields, named, here, same.symm, all.imp fun field json item => ?_⟩
      obtain ⟨value, inner, pair⟩ := Option.map_eq_some_iff.mp item
      exact ⟨congrArg Prod.fst pair, depth, inner.trans (congrArg (some ·.2) pair)⟩

theorem Denotes.str_inv {value : Value} {text : String} (denotes : Denotes seen value (.str text)) :
    value = .str text := by
  cases value with
  | ref address =>
    rcases denotes.object with ⟨_, _, _, other, _⟩ | ⟨_, _, _, other, _⟩ <;> cases other
  | undefined =>
    obtain ⟨depth, found⟩ := denotes
    cases depth <;> cases found
  | _ =>
    obtain ⟨depth, found⟩ := denotes
    cases depth <;> cases found <;> rfl

/-- A value that stands for an array or an object is an address. -/
theorem Denotes.arr_inv {value : Value} {jsons : List Json} (denotes : Denotes seen value (.arr jsons)) :
    ∃ address items, value = .ref address ∧ seen address = some (.array items) ∧
      List.Forall₂ (Denotes seen) items jsons := by
  cases value with
  | ref address =>
    rcases denotes.object with ⟨items, _, found, same, all⟩ | ⟨_, _, _, other, _⟩
    · cases same
      exact ⟨address, items, rfl, found, all⟩
    · cases other
  | _ =>
    obtain ⟨depth, found⟩ := denotes
    cases depth <;> cases found

theorem Denotes.obj_inv {value : Value} {named : List (String × Json)}
    (denotes : Denotes seen value (.obj named)) :
    ∃ address fields, value = .ref address ∧ seen address = some (.record fields) ∧
      List.Forall₂ (DenotesField seen) fields named := by
  cases value with
  | ref address =>
    rcases denotes.object with ⟨_, _, _, other, _⟩ | ⟨fields, _, found, same, all⟩
    · cases other
    · cases same
      exact ⟨address, fields, rfl, found, all⟩
  | _ =>
    obtain ⟨depth, found⟩ := denotes
    cases depth <;> cases found

theorem Denotes.items {value : Value} {jsons : List Json} (denotes : Denotes seen value (.arr jsons)) :
    ∃ items, items? seen value = some items ∧ List.Forall₂ (Denotes seen) items jsons := by
  obtain ⟨address, items, rfl, found, all⟩ := denotes.arr_inv
  exact ⟨items, by simp only [items?, object?, found], all⟩

theorem Denotes.fields {value : Value} {named : List (String × Json)}
    (denotes : Denotes seen value (.obj named)) :
    List.Forall₂ (DenotesField seen) (fields seen value) named := by
  obtain ⟨address, own, rfl, found, all⟩ := denotes.obj_inv
  simpa only [JsHeap.fields, object?, found] using all

theorem find_denotes {fields : List (String × Value)} {named : List (String × Json)}
    (all : List.Forall₂ (DenotesField seen) fields named) (key : String) :
    Option.Rel (DenotesField seen) (fields.find? (·.1 == key)) (named.find? (·.1 == key)) := by
  induction all with
  | nil => exact .none
  | @cons field json _ _ here _ ih =>
    rw [List.find?_cons, List.find?_cons, here.1]
    cases json.1 == key with
    | true => exact .some here
    | false => exact ih

/-- A property stands for the property of the document. -/
theorem Denotes.property {value : Value} {json : Json} (denotes : Denotes seen value json)
    (key : String) : Option.Rel (Denotes seen) (property? seen value key) (json.get? key) := by
  cases json with
  | obj named =>
    have related := find_denotes (List.rel_reverse denotes.fields) key
    simp only [property?, Json.get?]
    revert related
    generalize (JsHeap.fields seen value).reverse.find? (·.1 == key) = own
    generalize named.reverse.find? (·.1 == key) = listed
    intro related
    cases related with
    | none => exact .none
    | some same => exact .some same.2
  | arr jsons =>
    obtain ⟨address, items, rfl, found, _⟩ := denotes.arr_inv
    simp only [property?, JsHeap.fields, object?, found]
    exact .none
  | _ =>
    cases value with
    | ref address => rcases denotes.object with ⟨_, _, _, other, _⟩ | ⟨_, _, _, other, _⟩ <;> cases other
    | _ => exact .none

theorem Denotes.get {value : Value} {json property : Json} {key : String}
    (denotes : Denotes seen value json) (found : json.get? key = some property) :
    Denotes seen (get seen value key) property := by
  have related := denotes.property key
  rw [found] at related
  unfold JsHeap.get
  cases here : property? seen value key with
  | none =>
    rw [here] at related
    cases related
  | some own =>
    rw [here] at related
    cases related with
    | some same => exact same

theorem Denotes.get_undefined {value : Value} {json : Json} {key : String}
    (denotes : Denotes seen value json) (absent : json.get? key = none) :
    JsHeap.get seen value key = .undefined := by
  have related := denotes.property key
  rw [absent] at related
  unfold JsHeap.get
  cases here : property? seen value key with
  | none => rfl
  | some own =>
    rw [here] at related
    cases related

/-- A later view of a document finds the same object at its address. -/
theorem Denotes.object?_eq {later : View} {value : Value} {json : Json}
    (denotes : Denotes seen value json) (kept : Kept seen later) :
    object? later value = object? seen value := by
  cases value with
  | ref address =>
    rcases denotes.object with ⟨_, _, found, _, _⟩ | ⟨_, _, found, _, _⟩
    · exact (kept address _ found).trans found.symm
    · exact (kept address _ found).trans found.symm
  | _ => rfl

theorem Denotes.get_eq {later : View} {value : Value} {json : Json} (denotes : Denotes seen value json)
    (kept : Kept seen later) (key : String) : JsHeap.get later value key = JsHeap.get seen value key := by
  simp only [JsHeap.get, property?, JsHeap.fields, denotes.object?_eq kept]

theorem Denotes.truthy {value : Value} {json : Json} (denotes : Denotes seen value json) :
    truthy value = json.toBool := by
  cases value with
  | ref address =>
    rcases denotes.object with ⟨_, _, _, rfl, _⟩ | ⟨_, _, _, rfl, _⟩ <;> rfl
  | undefined =>
    obtain ⟨depth, found⟩ := denotes
    cases depth <;> cases found
  | _ =>
    obtain ⟨depth, found⟩ := denotes
    cases depth <;> cases found <;> rfl

theorem withField_denotes {fields : List (String × Value)} {named : List (String × Json)}
    {content : Value} {json : Json} (all : List.Forall₂ (DenotesField seen) fields named)
    (key : String) (denotes : Denotes seen content json) :
    List.Forall₂ (DenotesField seen) (withField key content fields) (withField key json named) := by
  have keys : fields.map (·.1) = named.map (·.1) := Paired.map_eq_map all fun _ _ same => same.1
  have present : fields.any (·.1 == key) = named.any (·.1 == key) := by
    have both := congrArg (List.any · (· == key)) keys
    simpa only [List.any_map, Function.comp_def] using both
  unfold withField
  rw [present]
  split
  · rw [List.forall₂_map_left_iff, List.forall₂_map_right_iff]
    refine all.imp fun field json same => ?_
    rw [same.1]
    split
    · exact ⟨rfl, denotes⟩
    · exact same
  · exact List.rel_append all (.cons ⟨rfl, denotes⟩ .nil)

end

/-! A field written over -/

section
variable {β : Type*} (key : String) (content : β) (fields : List (String × β))

theorem find_withField :
    (withField key content fields).reverse.find? (·.1 == key) = some (key, content) := by
  unfold withField
  split
  · rename_i present
    let write (field : String × β) := if field.1 == key then (key, content) else field
    have matched : (fun field => (write field).1 == key) = fun field => field.1 == key := by
      funext field
      simp only [write]
      split
      · rename_i same
        rw [same, beq_self_eq_true]
      · rfl
    obtain ⟨field, member, same⟩ := List.any_eq_true.mp present
    rw [← List.map_reverse, List.find?_map]
    change Option.map write (fields.reverse.find? fun field => (write field).1 == key) = _
    rw [matched]
    cases found : fields.reverse.find? (·.1 == key) with
    | none => exact absurd same (List.find?_eq_none.mp found field (List.mem_reverse.mpr member))
    | some last =>
      have named := List.find?_some found
      rw [Option.map_some, Option.some.injEq]
      exact if_pos named
  · simp

theorem filter_withField :
    (withField key content fields).filter (·.1 != key) = fields.filter (·.1 != key) := by
  unfold withField
  split
  · rename_i present
    clear present
    induction fields with
    | nil => rfl
    | cons field rest ih =>
      rw [List.map_cons]
      by_cases same : field.1 = key
      · simpa [same] using ih
      · simpa [same] using ih
  · simp

end

/-! Writing -/

theorem items?_ref {seen : View} {address : Nat} {items : List Value} :
    items? seen (.ref address) = some items ↔ seen address = some (.array items) := by
  simp only [items?, object?]
  cases seen address with
  | none => simp
  | some object => cases object <;> simp

theorem items?_set {heap : Heap} {address : Nat} {items : List Value}
    (found : items? (view heap) (.ref address) = some items) (written : List Value) :
    items? (view (heap.set address (.array written))) (.ref address) = some written := by
  have old : address < heap.length := by
    by_contra beyond
    simp [items?, object?, view, List.getElem?_eq_none (Nat.le_of_not_lt beyond)] at found
  simp [items?, object?, view, old]

theorem assign_eq {heap : Heap} {address : Nat} {items : List Value}
    (found : items? (view heap) (.ref address) = some items) (index : Nat) (value : Value) :
    assign heap (.ref address) index value =
      some (heap.set address (.array (items.set index value))) := by
  simp only [assign, found]

theorem push_eq {heap : Heap} {address : Nat} {items : List Value}
    (found : items? (view heap) (.ref address) = some items) (value : Value) :
    push heap (.ref address) value = some (heap.set address (.array (items ++ [value]))) := by
  simp only [push, found]

/-! New objects -/

section
variable {P : Nat → Prop} [DecidablePred P]

theorem denotes_array {heap : Heap} {items : List Value} {jsons : List Json} (new : SeesNew P heap)
    (all : List.Forall₂ (Denotes (within P (view heap))) items jsons) :
    Denotes (within P (view (make (.array items) heap).1)) (make (.array items) heap).2 (.arr jsons) :=
  .array (within_make _ new) (all.imp fun _ _ item => item.kept (kept_make _ heap))

theorem denotes_record {heap : Heap} {fields : List (String × Value)} {named : List (String × Json)}
    (new : SeesNew P heap) (all : List.Forall₂ (DenotesField (within P (view heap))) fields named) :
    Denotes (within P (view (make (.record fields) heap).1)) (make (.record fields) heap).2
      (.obj named) :=
  .record (within_make _ new) (all.imp fun _ _ same => ⟨same.1, same.2.kept (kept_make _ heap)⟩)

theorem kept_within_grown {before after : Heap} (grown : before <+: after) :
    Kept (within P (view before)) (within P (view after)) :=
  (kept_of_grown grown).within fun _ inside => inside

mutual
/-- A stored document is made of new objects only, and reads back. -/
theorem store_spec (heap : Heap) (new : SeesNew P heap) : (json : Json) →
    heap <+: (store heap json).1 ∧ Denotes (within P (view (store heap json).1)) (store heap json).2 json
  | .null => ⟨List.prefix_rfl, 0, rfl⟩
  | .bool _ => ⟨List.prefix_rfl, 0, rfl⟩
  | .num _ => ⟨List.prefix_rfl, 0, rfl⟩
  | .str _ => ⟨List.prefix_rfl, 0, rfl⟩
  | .arr items => by
    obtain ⟨grown, all⟩ := storeItems_spec heap new items
    exact ⟨grown.trans (List.prefix_append _ _), denotes_array (new.grown grown) all⟩
  | .obj fields => by
    obtain ⟨grown, all⟩ := storeFields_spec heap new fields
    exact ⟨grown.trans (List.prefix_append _ _), denotes_record (new.grown grown) all⟩

theorem storeItems_spec (heap : Heap) (new : SeesNew P heap) : (jsons : List Json) →
    heap <+: (storeItems heap jsons).1 ∧
    List.Forall₂ (Denotes (within P (view (storeItems heap jsons).1))) (storeItems heap jsons).2 jsons
  | [] => ⟨List.prefix_rfl, .nil⟩
  | json :: rest => by
    obtain ⟨grown, first⟩ := store_spec heap new json
    obtain ⟨further, later⟩ := storeItems_spec (store heap json).1 (new.grown grown) rest
    exact ⟨grown.trans further, .cons (first.kept (kept_within_grown further)) later⟩

theorem storeFields_spec (heap : Heap) (new : SeesNew P heap) : (named : List (String × Json)) →
    heap <+: (storeFields heap named).1 ∧
    List.Forall₂ (DenotesField (within P (view (storeFields heap named).1)))
      (storeFields heap named).2 named
  | [] => ⟨List.prefix_rfl, .nil⟩
  | (key, json) :: rest => by
    obtain ⟨grown, first⟩ := store_spec heap new json
    obtain ⟨further, later⟩ := storeFields_spec (store heap json).1 (new.grown grown) rest
    exact ⟨grown.trans further, .cons ⟨rfl, first.kept (kept_within_grown further)⟩ later⟩
end

/-- A conversion that only makes new objects, item by item. -/
theorem mapItems_spec {convert : Heap → Value → Option (Heap × Value)} {α : Type*}
    {source target : α → Json}
    (each : ∀ heap item a, SeesNew P heap → Denotes (within P (view heap)) item (source a) →
      ∃ after value, convert heap item = some (after, value) ∧ heap <+: after ∧
        Denotes (within P (view after)) value (target a))
    {heap : Heap} {items : List Value} {as : List α} (new : SeesNew P heap)
    (all : List.Forall₂ (Denotes (within P (view heap))) items (as.map source)) :
    ∃ after values, mapItems convert heap items = some (after, values) ∧ heap <+: after ∧
      List.Forall₂ (Denotes (within P (view after))) values (as.map target) := by
  induction as generalizing heap items with
  | nil =>
    cases all
    exact ⟨heap, [], rfl, List.prefix_rfl, .nil⟩
  | cons a as ih =>
    cases all with
    | @cons item _ rest _ here later =>
      obtain ⟨middle, value, converted, grown, first⟩ := each heap item a new here
      obtain ⟨after, values, mapped, further, others⟩ :=
        ih (new.grown grown) (later.imp fun _ _ item => item.kept (kept_within_grown grown))
      refine ⟨after, value :: values, ?_, grown.trans further,
        .cons (first.kept (kept_within_grown further)) others⟩
      simp only [mapItems, converted, mapped, Option.bind_eq_bind, Option.bind_some]

end

end JsHeap
