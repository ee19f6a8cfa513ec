import Gomer.Lib.Calendar
import Gomer.Lib.Json
import Gomer.Lib.Record
import Gomer.Lib.Rounding
import Gomer.Usage.Analytics

/-! The usage chart day by day: the window that is asked for, the days that the grouped query names,
and the cursor that fills the gaps between them. -/
namespace Gomer.UsageSeries

open Relational Analytics Calendar JsNumber

def dayMs : Int := 24 * 60 * 60 * 1000

def defaultRangeDays : Int := 30
def maxRangeDays : Int := 366

/-- `parse` is the time of `new Date(text)`, where that is a date. -/
def parseRange (parse : String → Option Int) (now : Int) (fromText toText : Option String) :
    Except String DateRange :=
  match nonEmpty fromText, nonEmpty toText with
  | none, none => .ok ⟨now - defaultRangeDays * dayMs, now⟩
  | some first, some last =>
    match parse first, parse last with
    | some fromMs, some toMs =>
      if toMs < fromMs then .error "from must not be after to"
      else if maxRangeDays * dayMs < toMs - fromMs then .error "range must not exceed 366 days"
      else .ok ⟨fromMs, toMs⟩
    | _, _ => .error "from and to must be ISO-8601 dates"
  | _, _ => .error "from and to must be supplied together"

structure Figures where
  thread : Int := 0
  scheduledTask : Int := 0
  credits : Int := 0
  deriving DecidableEq, Repr

structure DayPoint extends Figures where
  day : String
  deriving DecidableEq, Repr

/-- The order of the days' texts. -/
def textLe : List Char → List Char → Bool
  | a :: as, b :: bs => decide (a.toNat < b.toNat) || a == b && textLe as bs
  | [], _ => true
  | _ :: _, [] => false

/-- What the loop does with a row. Rows of one day follow one another, so the map's newest entry is
the one that a row may add to. -/
def addRow (byDay : AList fun _ : String => Figures) (row : (String × CreditEventType) × Int) :
    AList fun _ : String => Figures :=
  let entry := (byDay.lookup row.1.1).getD {}
  let entry := match row.1.2 with
    | .scheduledTask => { entry with scheduledTask := entry.scheduledTask + row.2 }
    | .thread => { entry with thread := entry.thread + row.2 }
  byDay.insert row.1.1 { entry with credits := entry.credits + row.2 }

/-- The rows of the query, grouped by the text of the day. -/
def dayRows (log : TaskLog) (workspaceId : Uuid) (range : DateRange) :
    List ((String × CreditEventType) × Int) :=
  ((groupBy (fun e => (toChar (dayOf e), e.type)) ((scopedEvents workspaceId range).rows log.events)).map
    fun g => (g.1, Analytics.credits g.2)).insertionSort
      fun a b => textLe a.1.1.toList b.1.1.toList = true

def dailyUsageSplit (log : TaskLog) (workspaceId : Uuid) (range : DateRange) : List DayPoint :=
  ((dayRows log workspaceId range).foldl addRow ∅).entries.reverse.map fun entry =>
    { entry.2 with day := entry.1 }

/-- `setUTCHours(0, 0, 0, 0)` -/
def startOfDay (time : Int) : Int := time / dayMs * dayMs

/-- `setUTCDate(getUTCDate() + 1)` -/
def nextDate (time : Int) : Int :=
  let d := civil (time / dayMs)
  dayNumber { d with day := d.day + 1 } * dayMs + time % dayMs

/-- Past the end of a month or a year too, the next date is a day later. -/
theorem nextDate_eq (time : Int) : nextDate time = time + dayMs := by
  have next : dayNumber { civil (time / dayMs) with day := (civil (time / dayMs)).day + 1 } =
      time / dayMs + 1 := by
    have same := dayNumber_civil (time / dayMs)
    unfold dayNumber at same ⊢
    dsimp only
    omega
  unfold nextDate
  dsimp only
  rw [next]
  unfold dayMs
  omega

/-- The point of a day, from a map in which the last row of a day counts. -/
def pointOf (rows : List DayPoint) (day : String) : DayPoint :=
  ((rows.filter fun row => row.day = day).getLast?).getD { day := day }

def fillDays (rows : List DayPoint) (cursor last : Int) : List DayPoint :=
  if cursor ≤ last then
    pointOf rows (isoDay (cursor / dayMs)) :: fillDays rows (nextDate cursor) last
  else []
termination_by (last - cursor + 1).toNat
decreasing_by
  rw [nextDate_eq]
  unfold dayMs
  omega

def zeroFilledDays (rows : List DayPoint) (range : DateRange) : List DayPoint :=
  fillDays rows (startOfDay range.fromMs) (startOfDay range.toMs)

/-- `burnPerDay` of `analyticsForWorkspace` -/
def burnPerDay (daily : List DayPoint) (range : DateRange) : Double :=
  let series := zeroFilledDays daily range
  if 0 < series.length then (nearest ((daily.map (·.credits)).sum / series.length)).round
  else .finite 0

/-! One point a day -/

structure OnePerDay (daily series : List DayPoint) (first last : Int) : Prop where
  days : series.map (·.day) = (List.range (last - first + 1).toNat).map fun i : Nat => isoDay (first + i)
  distinct : (series.map (·.day)).Nodup
  kept : ∀ row ∈ daily, row ∈ series
  zero : ∀ point ∈ series, point.day ∉ daily.map (·.day) → point = { day := point.day }
  total : ∀ figure : Figures → Int, figure {} = 0 →
    (series.map fun point => figure point.toFigures).sum =
      (daily.map fun row => figure row.toFigures).sum
  some : 0 < series.length

/-- The cursor visits each day from the first one to the last. -/
theorem fillDays_eq (rows : List DayPoint) (first last : Int) :
    fillDays rows (first * dayMs) (last * dayMs) =
      (List.range (last - first + 1).toNat).map fun i : Nat => pointOf rows (isoDay (first + i)) := by
  generalize left : (last - first + 1).toNat = n
  induction n generalizing first with
  | zero =>
    have done : ¬ first * dayMs ≤ last * dayMs := by
      unfold dayMs
      omega
    rw [fillDays, if_neg done]
    rfl
  | succ n ih =>
    have more : first * dayMs ≤ last * dayMs := by
      unfold dayMs
      omega
    have here : first * dayMs / dayMs = first := by
      unfold dayMs
      omega
    have next : nextDate (first * dayMs) = (first + 1) * dayMs := by
      rw [nextDate_eq]
      ring
    rw [fillDays, if_pos more, here, next, ih (first + 1) (by omega), List.range_succ_eq_map,
      List.map_cons, List.map_map]
    refine congrArg₂ List.cons ?_ (List.map_congr_left fun i _ => ?_)
    · rw [Int.natCast_zero, add_zero]
    · have place : first + 1 + (i : Int) = first + ((i + 1 : Nat) : Int) := by omega
      rw [Function.comp_apply, Nat.succ_eq_add_one, place]

theorem mem_addRow {byDay : AList fun _ : String => Figures} {row : (String × CreditEventType) × Int}
    {day : String} : day ∈ addRow byDay row ↔ day = row.1.1 ∨ day ∈ byDay := AList.mem_insert _

theorem mem_foldl_addRow {rows : List ((String × CreditEventType) × Int)}
    {byDay : AList fun _ : String => Figures} {day : String} (member : day ∈ rows.foldl addRow byDay) :
    day ∈ byDay ∨ ∃ row ∈ rows, row.1.1 = day := by
  induction rows generalizing byDay with
  | nil => exact .inl member
  | cons row rows ih =>
    obtain earlier | ⟨later, listed, same⟩ := ih member
    · obtain here | before := mem_addRow.mp earlier
      · exact .inr ⟨row, List.mem_cons_self, here.symm⟩
      · exact .inl before
    · exact .inr ⟨later, List.mem_cons_of_mem _ listed, same⟩

theorem dailyUsageSplit_days (log : TaskLog) (workspaceId : Uuid) (range : DateRange) :
    (dailyUsageSplit log workspaceId range).map (·.day) =
      ((dayRows log workspaceId range).foldl addRow ∅).keys.reverse := by
  rw [dailyUsageSplit, List.map_map, AList.keys, List.keys, ← List.map_reverse]
  rfl

theorem dailyUsageSplit_once (log : TaskLog) (workspaceId : Uuid) (range : DateRange) :
    ((dailyUsageSplit log workspaceId range).map (·.day)).Nodup := by
  rw [dailyUsageSplit_days, List.nodup_reverse]
  exact AList.keys_nodup _

/-- A day of the query is that of an event in the window. -/
theorem dailyUsageSplit_within {log : TaskLog} {workspaceId : Uuid} {range : DateRange} {row : DayPoint}
    (listed : row ∈ dailyUsageSplit log workspaceId range) :
    ∃ day, row.day = toChar day ∧ utcDay range.fromMs ≤ day ∧ day ≤ utcDay range.toMs := by
  have keyed : row.day ∈ (dayRows log workspaceId range).foldl addRow ∅ := by
    have among := List.mem_map_of_mem (f := fun d : DayPoint => d.day) listed
    rw [dailyUsageSplit_days] at among
    exact AList.mem_keys.mpr (List.mem_reverse.mp among)
  obtain none | ⟨group, member, same⟩ := mem_foldl_addRow keyed
  · exact absurd none (AList.notMem_empty _)
  · rw [dayRows, List.mem_insertionSort] at member
    obtain ⟨g, grouped, rfl⟩ := List.mem_map.mp member
    obtain ⟨e, inside, key⟩ := List.mem_map.mp (mem_groupBy.mp grouped).1
    rw [scopedEvents_rows] at inside
    refine ⟨dayOf e, ?_, inRange_day (List.mem_filter.mp inside).2⟩
    rw [← same, ← key]

/-- A day that has a row has one. -/
theorem filter_day {daily : List DayPoint} (once : (daily.map (·.day)).Nodup) {row : DayPoint}
    (listed : row ∈ daily) : daily.filter (fun other => other.day = row.day) = [row] := by
  induction daily with
  | nil => cases listed
  | cons d daily ih =>
    obtain ⟨fresh, rest⟩ := List.nodup_cons.mp once
    obtain rfl | later := List.mem_cons.mp listed
    · rw [List.filter_cons_of_pos (by simp), filter_of_absent_key fresh]
    · have apart : d.day ≠ row.day := fun same =>
        fresh (List.mem_map.mpr ⟨row, later, same.symm⟩)
      rw [List.filter_cons_of_neg (by simpa using apart), ih rest later]

theorem pointOf_row {daily : List DayPoint} (once : (daily.map (·.day)).Nodup) {row : DayPoint}
    (listed : row ∈ daily) : pointOf daily row.day = row := by
  rw [pointOf, filter_day once listed]
  rfl

theorem pointOf_absent {daily : List DayPoint} {day : String} (absent : day ∉ daily.map (·.day)) :
    pointOf daily day = { day := day } := by
  rw [pointOf, filter_of_absent_key absent]
  rfl

theorem pointOf_day (daily : List DayPoint) (day : String) : (pointOf daily day).day = day := by
  unfold pointOf
  cases found : (daily.filter fun row => row.day = day).getLast? with
  | none => rfl
  | some row => exact of_decide_eq_true (List.mem_filter.mp (List.mem_of_getLast? found)).2

theorem pointOf_figure {daily : List DayPoint} (once : (daily.map (·.day)).Nodup)
    (figure : Figures → Int) (zero : figure {} = 0) (day : String) :
    figure (pointOf daily day).toFigures =
      ((daily.filter fun row => row.day = day).map fun row => figure row.toFigures).sum := by
  by_cases known : day ∈ daily.map (·.day)
  · obtain ⟨row, listed, rfl⟩ := List.mem_map.mp known
    rw [pointOf_row once listed, filter_day once listed, List.map_singleton, List.sum_singleton]
  · rw [pointOf_absent known, filter_of_absent_key known]
    exact zero

theorem parseRange_ordered {parse : String → Option Int} {now : Int} {fromText toText : Option String}
    {range : DateRange} (accepted : parseRange parse now fromText toText = .ok range) :
    range.fromMs ≤ range.toMs := by
  unfold parseRange at accepted
  split at accepted
  · cases accepted
    unfold defaultRangeDays dayMs
    dsimp only
    omega
  · split at accepted
    · split at accepted
      · cases accepted
      · rename_i ordered
        split at accepted
        · cases accepted
        · cases accepted
          exact Int.not_lt.mp ordered
    · cases accepted
  · cases accepted

/-- The days of a window, as the loop writes them. -/
def dayTexts (first last : Int) : List String :=
  (List.range (last - first + 1).toNat).map fun i : Nat => isoDay (first + i)

theorem zeroFilledDays_eq (rows : List DayPoint) (range : DateRange) :
    zeroFilledDays rows range =
      (dayTexts (utcDay range.fromMs) (utcDay range.toMs)).map (pointOf rows) := by
  rw [dayTexts, List.map_map]
  exact fillDays_eq rows (utcDay range.fromMs) (utcDay range.toMs)

theorem utcDay_ordered {range : DateRange} (ordered : range.fromMs ≤ range.toMs) :
    utcDay range.fromMs ≤ utcDay range.toMs := by
  unfold utcDay
  omega

section
variable {first last : Int} (early : 1 ≤ (civil first).year) (late : (civil last).year ≤ 9999)
include early late

/-- Every day of the window is in a year that both texts write alike. -/
theorem plain_year {day : Int} (after : first ≤ day) (before : day ≤ last) :
    1 ≤ (civil day).year ∧ (civil day).year ≤ 9999 :=
  ⟨le_trans early (yearFromDay_mono after), le_trans (yearFromDay_mono before) late⟩

theorem dayTexts_nodup : (dayTexts first last).Nodup := by
  refine List.nodup_range.map_on fun i _ j inside same => ?_
  have inside := List.mem_range.mp inside
  obtain ⟨low, high⟩ := @plain_year first last early late (first + j) (by omega) (by omega)
  have equal := isoDay_inj ⟨by omega, high⟩ same
  omega

theorem toChar_mem_dayTexts {day : Int} (after : first ≤ day) (before : day ≤ last) :
    toChar day ∈ dayTexts first last := by
  obtain ⟨low, high⟩ := plain_year early late after before
  rw [← isoDay_eq_toChar low high]
  have place : first + ((day - first).toNat : Int) = day := by omega
  exact List.mem_map.mpr ⟨(day - first).toNat, List.mem_range.mpr (by omega), congrArg isoDay place⟩

end

theorem map_pointOf_day (daily : List DayPoint) (days : List String) :
    (days.map (pointOf daily)).map (·.day) = days := by
  rw [List.map_map]
  exact (List.map_congr_left fun day _ => pointOf_day daily day).trans (List.map_id days)

/-- A figure adds up to the same over the days as over the rows. -/
theorem sum_pointOf {daily : List DayPoint} {days : List String} (once : (daily.map (·.day)).Nodup)
    (distinct : days.Nodup) (placed : ∀ row ∈ daily, row.day ∈ days) (figure : Figures → Int)
    (zero : figure {} = 0) :
    ((days.map (pointOf daily)).map fun point => figure point.toFigures).sum =
      (daily.map fun row => figure row.toFigures).sum := by
  have all : daily.filter (fun row => row.day ∈ days) = daily :=
    List.filter_eq_self.mpr fun row listed => decide_eq_true (placed row listed)
  calc ((days.map (pointOf daily)).map fun point => figure point.toFigures).sum
      = (days.map fun day =>
          ((daily.filter fun row => row.day = day).map fun row => figure row.toFigures).sum).sum := by
        rw [List.map_map]
        exact congrArg List.sum (List.map_congr_left fun day _ => pointOf_figure once figure zero day)
    _ = ((daily.filter fun row => row.day ∈ days).map fun row => figure row.toFigures).sum :=
        sum_by_key (·.day) (fun row => figure row.toFigures) daily distinct
    _ = (daily.map fun row => figure row.toFigures).sum := by rw [all]

theorem zeroFilledDays_onePerDay (parse : String → Option Int) (now : Int)
    {fromText toText : Option String} {range : DateRange}
    (accepted : parseRange parse now fromText toText = .ok range)
    (early : 1 ≤ (civil (utcDay range.fromMs)).year) (late : (civil (utcDay range.toMs)).year ≤ 9999)
    (log : TaskLog) (workspaceId : Uuid) :
    OnePerDay (dailyUsageSplit log workspaceId range)
      (zeroFilledDays (dailyUsageSplit log workspaceId range) range) (utcDay range.fromMs)
      (utcDay range.toMs) := by
  have once := dailyUsageSplit_once log workspaceId range
  have distinct := dayTexts_nodup early late
  have ordered := utcDay_ordered (parseRange_ordered accepted)
  have placed : ∀ row ∈ dailyUsageSplit log workspaceId range,
      row.day ∈ dayTexts (utcDay range.fromMs) (utcDay range.toMs) := by
    intro row listed
    obtain ⟨day, text, after, before⟩ := dailyUsageSplit_within listed
    rw [text]
    exact toChar_mem_dayTexts early late after before
  rw [zeroFilledDays_eq]
  refine ⟨map_pointOf_day _ _, ?_, ?_, ?_, ?_, ?_⟩
  · rw [map_pointOf_day]
    exact distinct
  · intro row listed
    exact List.mem_map.mpr ⟨row.day, placed row listed, pointOf_row once listed⟩
  · intro point member absent
    obtain ⟨day, -, rfl⟩ := List.mem_map.mp member
    rw [pointOf_day] at absent ⊢
    exact pointOf_absent absent
  · exact fun figure zero => sum_pointOf once distinct placed figure zero
  · rw [List.length_map, dayTexts, List.length_map, List.length_range]
    omega

/-- In years that both texts write alike, the series has a point for each day of the window, the row
of the day where there is one, and the burn is over that many days. -/
theorem series_one_per_day (parse : String → Option Int) (now : Int) {fromText toText : Option String}
    {range : DateRange} (accepted : parseRange parse now fromText toText = .ok range)
    (early : 1 ≤ (civil (utcDay range.fromMs)).year) (late : (civil (utcDay range.toMs)).year ≤ 9999)
    (log : TaskLog) (workspaceId : Uuid) :
    OnePerDay (dailyUsageSplit log workspaceId range)
        (zeroFilledDays (dailyUsageSplit log workspaceId range) range) (utcDay range.fromMs)
        (utcDay range.toMs) ∧
      burnPerDay (dailyUsageSplit log workspaceId range) range =
        (nearest (((dailyUsageSplit log workspaceId range).map (·.credits)).sum /
          (utcDay range.toMs - utcDay range.fromMs + 1))).round := by
  have series := zeroFilledDays_onePerDay parse now accepted early late log workspaceId
  refine ⟨series, ?_⟩
  have ordered := parseRange_ordered accepted
  have size : ((zeroFilledDays (dailyUsageSplit log workspaceId range) range).length : ℚ) =
      utcDay range.toMs - utcDay range.fromMs + 1 := by
    have days : ((zeroFilledDays (dailyUsageSplit log workspaceId range) range).length : Int) =
        utcDay range.toMs - utcDay range.fromMs + 1 := by
      have le := utcDay_ordered ordered
      rw [zeroFilledDays_eq, List.length_map, dayTexts, List.length_map, List.length_range]
      omega
    exact_mod_cast congrArg (fun n : Int => (n : ℚ)) days
  unfold burnPerDay
  dsimp only
  rw [if_pos series.some, size]

/-- `new Date` on the texts of two windows. -/
def parsedDates : String → Option Int
  | "2024-02-28T12:00:00Z" => some 1709121600000
  | "2024-03-01T06:00:00Z" => some 1709272800000
  | "0000-06-15T00:00:00Z" => some (dayNumber ⟨0, 6, 15⟩ * dayMs)
  | "0000-06-15T12:00:00Z" => some (dayNumber ⟨0, 6, 15⟩ * dayMs + 43200000)
  | _ => none

/-- One thread of the workspace, at a time in microseconds. -/
def oneEvent (createdAt : Int) : TaskLog where
  tasks := []
  events := [meteredRun 1 none 30 createdAt]
  typed e member run := by
    rw [List.mem_singleton.mp member] at run
    cases run
  taskRef e member task own := by
    rw [List.mem_singleton.mp member] at own
    cases own

theorem leap_day_has_a_bar :
    OnePerDay (dailyUsageSplit (oneEvent 1709208000000000) 1 ⟨1709121600000, 1709272800000⟩)
      (zeroFilledDays (dailyUsageSplit (oneEvent 1709208000000000) 1 ⟨1709121600000, 1709272800000⟩)
        ⟨1709121600000, 1709272800000⟩)
      (utcDay 1709121600000) (utcDay 1709272800000) ∧
    burnPerDay (dailyUsageSplit (oneEvent 1709208000000000) 1 ⟨1709121600000, 1709272800000⟩)
      ⟨1709121600000, 1709272800000⟩ =
      (nearest (((dailyUsageSplit (oneEvent 1709208000000000) 1
        ⟨1709121600000, 1709272800000⟩).map (·.credits)).sum /
          (utcDay 1709272800000 - utcDay 1709121600000 + 1))).round := by
  have accepted : parseRange parsedDates 0 (some "2024-02-28T12:00:00Z") (some "2024-03-01T06:00:00Z") =
      .ok ⟨1709121600000, 1709272800000⟩ := rfl
  exact series_one_per_day parsedDates 0 accepted (by decide) (by decide) (oneEvent 1709208000000000) 1

/-- An event in the year 0 has its row under the first year, which the series does not reach. -/
theorem year_zero_lost : ∃ range,
    parseRange parsedDates 0 (some "0000-06-15T00:00:00Z") (some "0000-06-15T12:00:00Z") = .ok range ∧
      (civil (utcDay range.fromMs)).year = 0 ∧ (civil (utcDay range.toMs)).year = 0 ∧
      ¬ OnePerDay (dailyUsageSplit (oneEvent (dayNumber ⟨0, 6, 15⟩ * dayMs * 1000)) 1 range)
        (zeroFilledDays (dailyUsageSplit (oneEvent (dayNumber ⟨0, 6, 15⟩ * dayMs * 1000)) 1 range) range)
        (utcDay range.fromMs) (utcDay range.toMs) := by
  refine ⟨⟨dayNumber ⟨0, 6, 15⟩ * dayMs, dayNumber ⟨0, 6, 15⟩ * dayMs + 43200000⟩, rfl, by decide,
    by decide, fun law => ?_⟩
  have rows : (dailyUsageSplit (oneEvent (dayNumber ⟨0, 6, 15⟩ * dayMs * 1000)) 1
      ⟨dayNumber ⟨0, 6, 15⟩ * dayMs, dayNumber ⟨0, 6, 15⟩ * dayMs + 43200000⟩).map (·.day) =
      ["0001-06-15"] := by decide +kernel
  have keys : ((List.range (utcDay (dayNumber ⟨0, 6, 15⟩ * dayMs + 43200000) -
      utcDay (dayNumber ⟨0, 6, 15⟩ * dayMs) + 1).toNat).map fun i : Nat =>
        isoDay (utcDay (dayNumber ⟨0, 6, 15⟩ * dayMs) + i)) = ["0000-06-15"] := by decide +kernel
  have days := law.days.trans keys
  obtain ⟨row, listed, day⟩ := List.mem_map.mp (rows ▸ List.mem_singleton_self "0001-06-15")
  have placed := List.mem_map_of_mem (f := fun d : DayPoint => d.day) (law.kept row listed)
  rw [days, day] at placed
  revert placed
  decide

end Gomer.UsageSeries
