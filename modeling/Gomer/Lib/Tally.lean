import Mathlib.Data.List.Induction
import Mathlib.Data.List.Nodup

/-! A `Map` that rows are counted into under their keys. Its entries stand in the order in which
their keys first came, and each is made of the rows of its own key alone. -/
namespace Tally

variable {α κ σ : Type*} [DecidableEq κ]

def get (k : κ) (entries : List (κ × σ)) : Option σ :=
  (entries.find? fun entry => entry.1 = k).map Prod.snd

/-- An entry keeps its place; a new one comes last. -/
def set (k : κ) (value : σ) : List (κ × σ) → List (κ × σ)
  | [] => [(k, value)]
  | entry :: rest => if entry.1 = k then (k, value) :: rest else entry :: set k value rest

/-- `step` takes a row into the entry of its key, which is `init` where there is none yet. -/
def count (key : α → κ) (step : σ → α → σ) (init : σ) (entries : List (κ × σ)) (row : α) :
    List (κ × σ) :=
  set (key row) (step ((get (key row) entries).getD init) row) entries

/-- What the rows of each key add up to. -/
def total (key : α → κ) (step : σ → α → σ) (init : σ) (rows : List α) : List (κ × σ) :=
  (rows.map key).eraseDups.map fun k => (k, (rows.filter fun row => key row = k).foldl step init)

theorem get_map (k : κ) (value : κ → σ) (ks : List κ) :
    get k (ks.map fun j => (j, value j)) = if k ∈ ks then some (value k) else none := by
  induction ks with
  | nil => rfl
  | cons j ks ih =>
    by_cases same : j = k
    · subst same
      simp [get]
    · have other : ¬ k = j := fun h => same h.symm
      simp only [get, List.map_cons, List.find?_cons, same, decide_false, List.mem_cons, other,
        false_or]
      exact ih

theorem set_absent (k : κ) (new : σ) (value : κ → σ) {ks : List κ} (absent : k ∉ ks) :
    set k new (ks.map fun j => (j, value j)) = ks.map (fun j => (j, value j)) ++ [(k, new)] := by
  induction ks with
  | nil => rfl
  | cons j ks ih =>
    obtain ⟨other, later⟩ := not_or.mp (mt List.mem_cons.mpr absent)
    simp only [List.map_cons, set, if_neg (Ne.symm other), ih later, List.cons_append]

theorem set_present (k : κ) (new : σ) (value : κ → σ) {ks : List κ} (distinct : ks.Nodup)
    (present : k ∈ ks) : set k new (ks.map fun j => (j, value j)) =
      ks.map fun j => (j, if j = k then new else value j) := by
  induction ks with
  | nil => exact absurd present List.not_mem_nil
  | cons j ks ih =>
    obtain ⟨fresh, rest⟩ := List.nodup_cons.mp distinct
    by_cases same : j = k
    · subst same
      simp only [List.map_cons, set, if_true, List.cons.injEq, true_and]
      apply List.map_congr_left
      intro i later
      have other : i ≠ j := fun h => fresh (h ▸ later)
      simp only [if_neg other]
    · have later : k ∈ ks := (List.mem_cons.mp present).resolve_left fun h => same h.symm
      simp only [List.map_cons, set, if_neg same, ih rest later]

theorem nodup_eraseDups (ks : List κ) : ks.eraseDups.Nodup := by
  induction ks using List.reverseRecOn with
  | nil => exact List.nodup_nil
  | append_singleton ks k ih =>
    rw [List.eraseDups_append]
    by_cases seen : k ∈ ks
    · simpa [List.removeAll, seen] using ih
    · have alone : ([k].removeAll ks).eraseDups = [k] := by
        simp [List.removeAll, seen, List.eraseDups_cons]
      rw [alone]
      apply List.nodup_append.mpr
      refine ⟨ih, List.nodup_singleton k, ?_⟩
      intro i earlier j last same
      exact seen (List.mem_eraseDups.mp (List.mem_singleton.mp last ▸ same ▸ earlier))

/-- One more row changes the entry of its own key. -/
theorem count_total (key : α → κ) (step : σ → α → σ) (init : σ) (rows : List α) (row : α) :
    count key step init (total key step init rows) row = total key step init (rows ++ [row]) := by
  have own : (rows ++ [row]).filter (fun r => key r = key row) =
      rows.filter (fun r => key r = key row) ++ [row] := by simp
  have others : ∀ k, k ≠ key row → (rows ++ [row]).filter (fun r => key r = k) =
      rows.filter fun r => key r = k := by
    intro k other
    simp [List.filter_append, Ne.symm other]
  unfold count
  by_cases seen : key row ∈ rows.map key
  · have keys : ((rows ++ [row]).map key).eraseDups = (rows.map key).eraseDups := by
      rw [List.map_append, List.eraseDups_append]
      simp [List.removeAll, List.mem_map.mp seen]
    unfold total
    rw [get_map, if_pos (List.mem_eraseDups.mpr seen), keys,
      set_present _ _ _ (nodup_eraseDups _) (List.mem_eraseDups.mpr seen)]
    apply List.map_congr_left
    intro k _
    by_cases same : k = key row
    · subst same
      rw [if_pos rfl, own, List.foldl_append]
      rfl
    · rw [if_neg same, others k same]
  · have keys : ((rows ++ [row]).map key).eraseDups = (rows.map key).eraseDups ++ [key row] := by
      rw [List.map_append, List.eraseDups_append]
      have alone : [key row].removeAll (rows.map key) = [key row] := by
        unfold List.removeAll
        simp only [List.filter_cons, List.elem_eq_mem, seen, decide_false, Bool.not_false, if_true,
          List.filter_nil]
      simp [alone, List.eraseDups_cons]
    have none : rows.filter (fun r => key r = key row) = [] := by
      apply List.filter_eq_nil_iff.mpr
      intro r member same
      exact seen (List.mem_map.mpr ⟨r, member, of_decide_eq_true same⟩)
    have absent : key row ∉ (rows.map key).eraseDups := fun h => seen (List.mem_eraseDups.mp h)
    unfold total
    rw [get_map, if_neg absent, keys, set_absent _ _ _ absent, List.map_append, List.map_singleton,
      own, none]
    congr 1
    apply List.map_congr_left
    intro k member
    rw [others k fun same => absent (same ▸ member)]

/-- Counting more rows into the entries of earlier ones. -/
theorem foldl_count (key : α → κ) (step : σ → α → σ) (init : σ) (earlier rows : List α) :
    rows.foldl (count key step init) (total key step init earlier) =
      total key step init (earlier ++ rows) := by
  induction rows generalizing earlier with
  | nil => rw [List.append_nil, List.foldl_nil]
  | cons row rest ih =>
    rw [List.foldl_cons, count_total, ih, List.append_assoc, List.singleton_append]

end Tally
