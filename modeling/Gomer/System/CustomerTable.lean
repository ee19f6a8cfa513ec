import Gomer.Lib.Paired
import Gomer.SuperAdmin.Workspaces
import Mathlib.Logic.Function.Basic

/-! The customer table read to its end, page after page. Every page is a query of its own, and the
sorts have no tie-breaker. -/
namespace Gomer.SuperAdmin

open Paging Relational

/-! One driver row for each workspace -/

section
variable {α β : Type}

/-- What GROUP BY has for one workspace. -/
def groupOf (owner : α → Uuid) (select : List α → β) (rows : List α) (k : Uuid) : Option β :=
  if k ∈ rows.map owner then some (select (rows.filter fun x => owner x = k)) else none

variable {owner : α → Uuid} {rows : List α} {k : Uuid}

/-- A workspace without rows has the value of no rows. -/
theorem groupOf_getD {select : List α → β} {d : β} (empty : select [] = d) :
    (groupOf owner select rows k).getD d = select (rows.filter fun x => owner x = k) := by
  by_cases present : k ∈ rows.map owner
  · rw [groupOf, if_pos present]
    rfl
  · rw [groupOf, if_neg present, filter_of_absent_key present, empty]
    rfl

theorem groupOf_join {select : List α → Option β} (empty : select [] = none) :
    (groupOf owner select rows k).join = select (rows.filter fun x => owner x = k) := by
  rw [← groupOf_getD empty]
  cases groupOf owner select rows k <;> rfl

theorem bind_snd_map (k : Uuid) (value : Option (Option β)) :
    (value.map (Prod.mk k)).bind Prod.snd = value.join := by
  cases value <;> rfl

theorem lookup_grouped (owner : α → Uuid) (select : List α → β) (rows : List α) (k : Uuid) :
    (Record.collect Prod.fst Prod.snd (grouped owner select rows)).lookup k =
      groupOf owner select rows k := by
  have keys : (grouped owner select rows).map Prod.fst = (rows.map owner).dedup := by
    rw [grouped, groupBy, List.map_map, List.map_map]
    exact List.map_id' _
  rw [Record.lookup_collect Prod.fst Prod.snd _ k (select (rows.filter fun x => owner x = k)), keys]
  · simp only [List.mem_dedup]
    rfl
  · intro row member same
    obtain ⟨g, listed, rfl⟩ := List.mem_map.mp member
    have own := (mem_groupBy.mp listed).2
    change g.1 = k at same
    rw [own, same]

theorem joined_grouped (db : Database) (owner : α → Uuid) (select : List α → β) (rows : List α) :
    joined db (grouped owner select rows) = db.workspaces.map fun workspace =>
      (workspace, (groupOf owner select rows workspace.id).map (Prod.mk workspace.id)) := by
  rw [List.map_eq_flatMap]
  refine congrArg (fun row => db.workspaces.flatMap row) (funext fun workspace => ?_)
  refine (joinRow_groupBy (·.id) owner select rows workspace).trans ?_
  rw [groupOf, apply_ite (Option.map _)]
  rfl

end

/-- The driver's row of one workspace. -/
def driverRow (db : Database) (sort : WorkspaceSort) (workspace : Workspace) : DriverRow where
  id := workspace.id
  name := workspace.name
  created := workspace.createdAt
  members :=
    match sort with
    | .members => (db.members.filter fun row => row.workspaceId = workspace.id).length
    | _ => 0
  activity :=
    match sort with
    | .activity => lastRun (db.runs.filter fun row => row.workspaceId = workspace.id)
    | _ => none

def matching (pg : Postgres) (db : Database) (search : Option String) : List Workspace :=
  db.workspaces.filter (searched pg search)

theorem driverRows_eq (pg : Postgres) (db : Database) (search : Option String)
    (sort : WorkspaceSort) :
    driverRows pg db search sort = (matching pg db search).map (driverRow db sort) := by
  cases sort with
  | created => rfl
  | name => rfl
  | members =>
    rw [driverRows, joined_grouped, List.filter_map, List.map_map, matching]
    refine List.map_congr_left fun workspace _ => ?_
    have total := @groupOf_getD _ _ (·.workspaceId) db.members workspace.id _ _
      (List.length_nil (α := Member))
    simp only [Function.comp_apply, Option.map_map, Function.comp_def, Option.map_id']
    rw [total]
    rfl
  | activity =>
    rw [driverRows, joined_grouped, List.filter_map, List.map_map, matching]
    refine List.map_congr_left fun workspace _ => ?_
    have seen := @groupOf_join _ _ (·.workspaceId) db.runs workspace.id lastRun rfl
    exact congrArg (DriverRow.mk _ _ _ 0) ((bind_snd_map _ _).trans seen)

theorem driverRows_ids (pg : Postgres) (db : Database) (search : Option String)
    (sort : WorkspaceSort) :
    (driverRows pg db search sort).map (·.id) = (matching pg db search).map (·.id) := by
  rw [driverRows_eq, List.map_map]
  rfl

theorem matching_distinct (pg : Postgres) (db : Database) (search : Option String) :
    ((matching pg db search).map (·.id)).Nodup :=
  db.distinct.sublist (List.filter_sublist.map _)

/-! The body of a row shows what the driver has sorted by -/

/-- What a row of the table shows of the columns that are sorted by. -/
def PlatformWorkspaceRow.columns (row : PlatformWorkspaceRow) : DriverRow :=
  ⟨row.id, row.name, row.createdAt, row.members.total, row.lastActivityAt⟩

/-- A row of the table for a row of the driver. -/
structure Shows (sort : WorkspaceSort) (driver : DriverRow) (row : PlatformWorkspaceRow) : Prop where
  id : row.id = driver.id
  name : row.name = driver.name
  created : row.createdAt = driver.created
  members : sort = .members → row.members.total = driver.members
  activity : sort = .activity → row.lastActivityAt = driver.activity

theorem Shows.le_iff {pg : Postgres} {sort : WorkspaceSort} {d d' : DriverRow}
    {row row' : PlatformWorkspaceRow} (shows_ : Shows sort d row) (other : Shows sort d' row') :
    (pg.ranking sort).le d d' ↔ (pg.ranking sort).le row.columns row'.columns := by
  cases sort with
  | created =>
    simp only [Postgres.ranking, Ranking.on, PlatformWorkspaceRow.columns, shows_.created,
      other.created]
  | name =>
    simp only [Postgres.ranking, Ranking.comap, PlatformWorkspaceRow.columns, shows_.name,
      other.name]
  | members =>
    simp only [Postgres.ranking, Ranking.on, PlatformWorkspaceRow.columns, shows_.members rfl,
      other.members rfl]
  | activity =>
    simp only [Postgres.ranking, Ranking.on, PlatformWorkspaceRow.columns, shows_.activity rfl,
      other.activity rfl]

theorem toWorkspaceRow_shows (db : Database) (now : Instant) {ids : List Uuid}
    {workspace : Workspace} (listed : workspace.id ∈ ids) (sort : WorkspaceSort) :
    Shows sort (driverRow db sort workspace)
      (toWorkspaceRow workspace (aggregatesFor db now ids)) := by
  have some_ids : ¬ ids.length = 0 := by
    intro empty
    rw [List.length_eq_zero_iff.mp empty] at listed
    cases listed
  refine ⟨rfl, rfl, rfl, fun same => ?_, fun same => ?_⟩
  · subst same
    have total := @groupOf_getD _ _ (·.workspaceId)
      (db.members.filter fun row => ids.contains row.workspaceId) workspace.id memberCounts ⟨0, 0, 0⟩ rfl
    simp only [toWorkspaceRow, aggregatesFor, if_neg some_ids, lookup_grouped, driverRow]
    rw [total, filter_requested _ listed]
    rfl
  · subst same
    have seen := @groupOf_join _ _ (·.workspaceId)
      (db.runs.filter fun row => ids.contains row.workspaceId) workspace.id lastRun rfl
    simp only [toWorkspaceRow, aggregatesFor, if_neg some_ids, lookup_grouped, driverRow]
    rw [seen, filter_requested _ listed]

/-! One page -/

theorem forall₂_found {R : DriverRow → PlatformWorkspaceRow → Prop} {lookup : Uuid → Option Workspace}
    {body : Workspace → PlatformWorkspaceRow} {ordered : List DriverRow}
    (found : ∀ d ∈ ordered, ∃ workspace, lookup d.id = some workspace ∧ R d (body workspace)) :
    List.Forall₂ R ordered (((ordered.map (·.id)).filterMap lookup).map body) := by
  induction ordered with
  | nil => exact .nil
  | cons d rest ih =>
    obtain ⟨⟨workspace, here, shown⟩, later⟩ := List.forall_mem_cons.mp found
    rw [List.map_cons, List.filterMap_cons, here]
    exact .cons shown (ih later)

theorem byId_lookup (db : Database) {ids : List Uuid} {workspace : Workspace}
    (member : workspace ∈ db.workspaces) (listed : workspace.id ∈ ids) :
    (Record.collect (·.id) id (db.workspaces.filter fun w => ids.contains w.id)).lookup
      workspace.id = some workspace := by
  have found : workspace ∈ db.workspaces.filter fun w => ids.contains w.id :=
    List.mem_filter.mpr ⟨member, by simpa using listed⟩
  rw [Record.lookup_collect (·.id) id _ workspace.id workspace]
  · exact if_pos (List.mem_map_of_mem found)
  · intro other inside same
    exact List.inj_on_of_nodup_map db.distinct (List.mem_filter.mp inside).1 member same

theorem listWorkspaces_rows (pg : Postgres) (db : Database) (session : Session pg) (now : Instant)
    (options : ListOptions) :
    List.Forall₂ (Shows (resolveSort options.sort))
      (page ((session (resolveSort options.sort)).run
        (driverRows pg db options.search (resolveSort options.sort)))
        (max (options.offset.getD 0) 0).toNat (pageSize options.limit))
      (listWorkspaces pg db session now options).rows := by
  have valid := (session (resolveSort options.sort)).valid
    (driverRows pg db options.search (resolveSort options.sort))
  unfold listWorkspaces
  dsimp only
  generalize picked : page _ _ _ = ordered
  have within : ∀ d ∈ ordered, ∃ workspace ∈ db.workspaces,
      driverRow db (resolveSort options.sort) workspace = d := by
    intro d member
    rw [← picked] at member
    have listed := valid.perm.mem_iff.mp ((List.drop_subset _ _) ((List.take_subset _ _) member))
    rw [driverRows_eq] at listed
    obtain ⟨workspace, matched, same⟩ := List.mem_map.mp listed
    exact ⟨workspace, (List.mem_filter.mp matched).1, same⟩
  split
  · rename_i empty
    rw [List.length_map, List.length_eq_zero_iff] at empty
    subst empty
    exact .nil
  · refine forall₂_found fun d member => ?_
    obtain ⟨workspace, stored, rfl⟩ := within d member
    have listed : workspace.id ∈ ordered.map (·.id) :=
      List.mem_map.mpr ⟨_, member, rfl⟩
    exact ⟨workspace, byId_lookup db stored listed, toWorkspaceRow_shows db now listed _⟩

/-! The table -/

/-- The pages at the offsets 0, L, 2L, … up to the total, each asked for at its own time. -/
def readTable (pg : Postgres) (db : Database) (sessions : Nat → Session pg) (times : Nat → Instant)
    (search sort : Option String) (limit : Option Int) : List PlatformWorkspaceRow :=
  let size := pageSize limit
  let first := listWorkspaces pg db (sessions 0) (times 0) { search, sort, limit }
  (List.range ((first.total + size - 1) / size)).flatMap fun k =>
    (listWorkspaces pg db (sessions k) (times k)
      { search, sort, limit, offset := some (k * size : Nat) }).rows

/-- Every matching workspace once, in the order that is asked for. -/
structure Complete (pg : Postgres) (db : Database) (search sort : Option String)
    (read : List PlatformWorkspaceRow) : Prop where
  once : (read.map (·.id)).Perm ((matching pg db search).map (·.id))
  ordered : (read.map (·.columns)).Pairwise (pg.ranking (resolveSort sort)).le

theorem pageSize_pos (limit : Option Int) : 0 < pageSize limit := by
  unfold pageSize
  omega

theorem pages_suffice (total : Nat) {size : Nat} (positive : 0 < size) :
    total ≤ (total + size - 1) / size * size := by
  have whole := Nat.div_add_mod (total + size - 1) size
  have rest := Nat.mod_lt (total + size - 1) positive
  rw [Nat.mul_comm] at whole
  omega

section
variable (pg : Postgres) (db : Database) (search sort : Option String) (limit : Option Int)

abbrev tableRows : List DriverRow := driverRows pg db search (resolveSort sort)

theorem tableRows_nodup : (tableRows pg db search sort).Nodup := by
  have distinct := matching_distinct pg db search
  rw [← driverRows_ids pg db search (resolveSort sort)] at distinct
  exact distinct.of_map _

theorem tableRows_length : (tableRows pg db search sort).length = (matching pg db search).length := by
  rw [tableRows, driverRows_eq, List.length_map]

/-- The number of pages that are read. -/
def pageCount : Nat := ((matching pg db search).length + pageSize limit - 1) / pageSize limit

theorem readTable_shows (sessions : Nat → Session pg) (times : Nat → Instant) :
    List.Forall₂ (Shows (resolveSort sort))
      (reading (fun k => (sessions k (resolveSort sort)).run (tableRows pg db search sort))
        (pageSize limit) (pageSize limit) (pageCount pg db search limit))
      (readTable pg db sessions times search sort limit) := by
  have total : (listWorkspaces pg db (sessions 0) (times 0) { search, sort, limit }).total =
      (matching pg db search).length := by
    unfold listWorkspaces
    dsimp only
    split <;> rfl
  unfold reading readTable
  dsimp only
  rw [total]
  refine List.rel_flatMap (R := Eq) (List.forall₂_refl _) ?_
  rintro k _ rfl
  have shown := listWorkspaces_rows pg db (sessions k) (times k)
    { search, sort, limit, offset := some (k * pageSize limit : Nat) }
  have start : (max ((some ((k * pageSize limit : Nat) : Int)).getD 0) 0).toNat =
      k * pageSize limit := by
    rw [Option.getD_some]
    omega
  rw [start] at shown
  exact shown

end

section
variable {pg : Postgres} {db : Database} {search sort : Option String} {limit : Option Int}

theorem ids_of_shows {order : WorkspaceSort} {ds : List DriverRow} {rows : List PlatformWorkspaceRow}
    (shown : List.Forall₂ (Shows order) ds rows) : rows.map (·.id) = ds.map (·.id) :=
  (Paired.map_eq_map shown fun _ _ row => row.id.symm).symm

theorem ordered_of_shows {order : WorkspaceSort} {ds : List DriverRow}
    {rows : List PlatformWorkspaceRow} (shown : List.Forall₂ (Shows order) ds rows)
    (sorted : ds.Pairwise (pg.ranking order).le) :
    (rows.map (·.columns)).Pairwise (pg.ranking order).le := by
  induction shown with
  | nil => exact .nil
  | @cons d row ds rows here later ih =>
    obtain ⟨least, sorted⟩ := List.pairwise_cons.mp sorted
    refine List.pairwise_cons.mpr ⟨fun columns member => ?_, ih sorted⟩
    obtain ⟨row', inside, rfl⟩ := List.mem_map.mp member
    obtain ⟨d', inside', shown'⟩ := Paired.exists_left later inside
    exact (here.le_iff shown').mp (least d' inside')

/-- Where no tie is cut by the end of a page, the table is complete however ties are resolved. -/
theorem complete_of_whole (whole : ∀ k, ¬ Straddles (pg.ranking (resolveSort sort))
      (tableRows pg db search sort) (k * pageSize limit))
    (sessions : Nat → Session pg) (times : Nat → Instant) :
    Complete pg db search sort (readTable pg db sessions times search sort limit) := by
  have shown := readTable_shows pg db search sort limit sessions times
  have valid := fun k => (sessions k (resolveSort sort)).valid (tableRows pg db search sort)
  have all := pages_suffice (matching pg db search).length (pageSize_pos limit)
  rw [← tableRows_length pg db search sort] at all
  constructor
  · rw [ids_of_shows shown, ← driverRows_ids pg db search (resolveSort sort)]
    refine (reading_perm (tableRows_nodup pg db search sort) valid whole ?_).map _
    rw [pageCount, ← tableRows_length pg db search sort]
    exact all
  · exact ordered_of_shows shown (reading_sorted valid le_rfl)

/-- Where a tie is cut, two pages may show one workspace. -/
theorem exists_incomplete {k : Nat} (cut : Straddles (pg.ranking (resolveSort sort))
      (tableRows pg db search sort) (k * pageSize limit)) (times : Nat → Instant) :
    ∃ sessions, ¬ Complete pg db search sort
      (readTable pg db sessions times search sort limit) := by
  have all := pages_suffice (matching pg db search).length (pageSize_pos limit)
  rw [← tableRows_length pg db search sort] at all
  obtain ⟨answers, valid, twice⟩ :=
    reading_twice ((OrderBy.stable _).valid (tableRows pg db search sort)) cut all
  have stable : Session pg := fun order => OrderBy.stable (pg.ranking order)
  refine ⟨fun k => Function.update stable (resolveSort sort) (OrderBy.giving (valid k)),
    fun complete => twice ?_⟩
  have shown := readTable_shows pg db search sort limit
    (fun k => Function.update stable (resolveSort sort) (OrderBy.giving (valid k))) times
  simp only [Function.update_self, OrderBy.giving_run] at shown
  have distinct := complete.once.nodup_iff.mpr (matching_distinct pg db search)
  rw [ids_of_shows shown, pageCount, ← tableRows_length pg db search sort] at distinct
  exact distinct.of_map _

end

/-- The table that is read page by page is complete, however the database resolves ties in each
query, exactly where no tie is cut by the end of a page. -/
theorem readTable_complete_iff (pg : Postgres) (db : Database) (times : Nat → Instant)
    (search sort : Option String) (limit : Option Int) :
    (∀ sessions, Complete pg db search sort
      (readTable pg db sessions times search sort limit)) ↔
      ∀ k, ¬ Straddles (pg.ranking (resolveSort sort)) (tableRows pg db search sort)
        (k * pageSize limit) := by
  constructor
  · intro complete k cut
    obtain ⟨sessions, missing⟩ := exists_incomplete cut times
    exact missing (complete sessions)
  · intro whole sessions
    exact complete_of_whole whole sessions times

/-! Two workspaces without members -/

def twoEmpty : Database where
  workspaces := [⟨1, "Acme", "T01", 1786000000000000⟩, ⟨2, "Globex", "T02", 1786100000000000⟩]
  members := []
  runs := []
  integrations := []
  subscriptions := []
  ledger := .empty
  distinct := by decide

/-- Names of another length are told apart by it, as far as `twoEmpty` goes. -/
def shortNames : Postgres where
  ilike _ _ := true
  lower := String.toLower
  collation := .on String.length

/-- The second query resolves the tie the other way. -/
def wavering (k : Nat) : Session shortNames := fun sort =>
  if k = 1 then .backward (shortNames.ranking sort) else .stable (shortNames.ranking sort)

theorem wavering_repeats :
    (readTable shortNames twoEmpty wavering (fun _ => 0) none (some "members") (some 1)).map
        (·.id) = [1, 1] ∧
      ¬ Complete shortNames twoEmpty none (some "members")
        (readTable shortNames twoEmpty wavering (fun _ => 0) none (some "members") (some 1)) := by
  have read : (readTable shortNames twoEmpty wavering (fun _ => 0) none (some "members")
      (some 1)).map (·.id) = [1, 1] := by decide +kernel
  refine ⟨read, fun complete => ?_⟩
  have distinct := complete.once.nodup_iff.mpr (matching_distinct _ _ _)
  rw [read] at distinct
  exact absurd distinct (by decide)

end Gomer.SuperAdmin
