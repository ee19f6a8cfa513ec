import Gomer.Lib.Number

/-! JSON values as JavaScript holds them after `JSON.parse`. An object lists its own
properties; of two with one key the later one counts. -/

inductive Json where
  | null
  | bool (value : Bool)
  | num (value : JsNumber.Double)
  | str (value : String)
  | arr (items : List Json)
  | obj (fields : List (String × Json))

namespace Json

instance : Inhabited Json := ⟨null⟩

/-- `value[key]`, where there is such a property. -/
def get? (value : Json) (key : String) : Option Json :=
  match value with
  | obj fields => (fields.reverse.find? fun field => field.1 == key).map (·.2)
  | _ => none

end Json

/-- `s || undefined`: the empty string counts as absent. -/
def nonEmpty (s : Option String) : Option String := s.filter (· != "")

theorem nonEmpty_some {s : Option String} {text : String} (given : nonEmpty s = some text) :
    s = some text ∧ text ≠ "" := by
  obtain ⟨same, named⟩ := Option.filter_eq_some_iff.mp given
  exact ⟨same, by simpa using named⟩
