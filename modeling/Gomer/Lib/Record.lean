import Mathlib.Data.List.AList

/-! Records with string or other keys, written entry by entry: what a lookup finds afterwards. -/
namespace Record

variable {κ β : Type*} [DecidableEq κ]

/-- Each entry updates the value that its key has. -/
def update (combine : Option β → β → β) (record : AList fun _ : κ => β)
    (entries : List (Sigma fun _ : κ => β)) : AList fun _ : κ => β :=
  entries.foldl (fun done entry => done.insert entry.1 (combine (done.lookup entry.1) entry.2)) record

theorem lookup_update (combine : Option β → β → β) {entries : List (Sigma fun _ : κ => β)}
    (keys : entries.NodupKeys) (record : AList fun _ : κ => β) (k : κ) :
    (update combine record entries).lookup k =
      (entries.dlookup k).elim (record.lookup k) fun value =>
        some (combine (record.lookup k) value) := by
  induction entries generalizing record with
  | nil => rfl
  | cons entry rest ih =>
    obtain ⟨key, value⟩ := entry
    obtain ⟨absent, later⟩ := List.nodupKeys_cons.mp keys
    change (update combine (record.insert key (combine (record.lookup key) value)) rest).lookup k = _
    rw [ih later]
    by_cases same : k = key
    · subst same
      rw [List.dlookup_eq_none.mpr absent, List.dlookup_cons_eq, AList.lookup_insert]
      rfl
    · rw [List.dlookup_cons_ne _ _ same, AList.lookup_insert_ne same]

/-- Rows written into a record under their keys. -/
def collect {α : Type*} (key : α → κ) (value : α → β) (rows : List α) : AList fun _ : κ => β :=
  rows.foldl (fun done row => done.insert (key row) (value row)) ∅

/-- Where rows of one key have one value, their order does not matter. -/
theorem lookup_collect {α : Type*} (key : α → κ) (value : α → β) (rows : List α) (k : κ) (v : β)
    (agree : ∀ row ∈ rows, key row = k → value row = v) :
    (collect key value rows).lookup k = if k ∈ rows.map key then some v else none := by
  have start : ∀ done : AList fun _ : κ => β,
      (rows.foldl (fun done row => done.insert (key row) (value row)) done).lookup k =
        if k ∈ rows.map key then some v else done.lookup k := by
    induction rows with
    | nil => exact fun _ => rfl
    | cons row rest ih =>
      intro done
      rw [List.foldl_cons, ih fun r member => agree r (List.mem_cons_of_mem _ member)]
      by_cases same : key row = k
      · rw [← agree row List.mem_cons_self same, ← same]
        simp
      · rw [AList.lookup_insert_ne (Ne.symm same)]
        simp [Ne.symm same]
  exact start ∅

end Record
