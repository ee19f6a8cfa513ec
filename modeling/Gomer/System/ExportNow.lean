import Gomer.Lib.Calendar
import Gomer.Lib.Paging
import Gomer.Lib.Rounding
import Gomer.System.Watermark

/-! `ExportsService.exportNow`: one export of a window, from the query of the events to the rows that
Google Sheets is sent. -/
namespace Gomer.ExportNow

open JsNumber Paging Schedules
open Watermark (maxRowsPerRun newest)

structure RoasSnapshot where
  workspaceId : Uuid
  adAccountId : String
  sinceDate : String
  untilDate : String
  metaSpend : String
  spendCurrency : Option String
  stripeRevenue : String
  revenueCurrency : Option String
  roas : Option String
  purchases : Int
  cpa : Option String
  caveats : Option (List String)
  createdAt : Instant

structure AdRuleAction where
  ruleId : String
  workspaceId : Uuid
  entityType : String
  entityId : Option String
  entityName : Option String
  metricValue : Option String
  action : String
  detail : Option String
  success : Bool
  error : Option String
  createdAt : Instant

structure RuleName where
  id : String
  name : String

inductive CellValue where
  | blank
  | text (value : String)
  | number (value : ℚ)

abbrev Row := List CellValue

def cell (value : Option String) : CellValue := (value.map .text).getD .blank

/-- Numeric strings as numbers. -/
def num (value : Option String) : CellValue :=
  match nonEmpty value with
  | none => .blank
  | some text =>
    match JsNumber.number text with
    | .finite q => .number q
    | _ => .blank

def roasHeaders : Row :=
  ["Verified At", "Ad Account", "Window Start", "Window End", "Meta Spend", "Spend Currency",
    "Stripe Revenue", "Revenue Currency", "Verified ROAS", "Purchases", "Verified CPA",
    "Caveats"].map .text

def snapshotRow (snapshot : RoasSnapshot) : Row :=
  [.text (Calendar.isoText (toDate snapshot.createdAt)), .text snapshot.adAccountId,
    .text snapshot.sinceDate, .text snapshot.untilDate, num (some snapshot.metaSpend),
    cell snapshot.spendCurrency, num (some snapshot.stripeRevenue), cell snapshot.revenueCurrency,
    num snapshot.roas, .number snapshot.purchases, num snapshot.cpa,
    cell (snapshot.caveats.map (String.intercalate " | "))]

def roasSnapshotTable (snapshots : List RoasSnapshot) : ExportTable Row :=
  ⟨roasHeaders, snapshots.map snapshotRow⟩

def ruleActionHeaders : Row :=
  ["Time", "Rule", "Entity Type", "Entity", "Entity ID", "Metric Value", "Action", "Detail",
    "Result", "Error"].map .text

def actionRow (rules : List RuleName) (action : AdRuleAction) : Row :=
  let rule := rules.find? fun rule => rule.id = action.ruleId
  [.text (Calendar.isoText (toDate action.createdAt)),
    .text ((rule.map (·.name)).getD action.ruleId), .text action.entityType, cell action.entityName,
    cell action.entityId, num action.metricValue, .text action.action, cell action.detail,
    .text (if action.success then "success" else "failed"), cell action.error]

def ruleActionTable (rules : List RuleName) (actions : List AdRuleAction) : ExportTable Row :=
  ⟨ruleActionHeaders, actions.map (actionRow rules)⟩

/-! The events of a window -/

abbrev oldestSnapshot : Ranking RoasSnapshot := .on (·.createdAt)

abbrev oldestAction : Ranking AdRuleAction := .on (·.createdAt)

def snapshotsAfter (snapshots : List RoasSnapshot) (workspaceId : Uuid) (since : Instant) :
    List RoasSnapshot :=
  snapshots.filter fun row => row.workspaceId = workspaceId ∧ ofDate since < row.createdAt

def actionsAfter (actions : List AdRuleAction) (workspaceId : Uuid) (since : Instant) :
    List AdRuleAction :=
  actions.filter fun row => row.workspaceId = workspaceId ∧ ofDate since < row.createdAt

/-- The tables as the queries find them, the order that each gives to rows of one time, and what
`getMetaAccessToken` and `getInsights` end with. -/
structure Database where
  snapshots : List RoasSnapshot
  actions : List AdRuleAction
  rules : List RuleName
  snapshotOrder : OrderBy oldestSnapshot
  actionOrder : OrderBy oldestAction
  insights : Except String (ExportTable Row)

def snapshotsSince (db : Database) (workspaceId : Uuid) (since : Instant) (limit : Nat) :
    List RoasSnapshot :=
  (db.snapshotOrder.run (snapshotsAfter db.snapshots workspaceId since)).take limit

def actionsForWorkspace (db : Database) (workspaceId : Uuid) (since : Instant) (limit : Nat) :
    List AdRuleAction :=
  (db.actionOrder.run (actionsAfter db.actions workspaceId since)).take limit

def buildTable (db : Database) (workspaceId : Uuid) (dataset : ExportDataset)
    (watermark : Instant) : Except String (ExportTable Row × Option Instant) :=
  match dataset with
  | .roasSnapshots =>
    let snapshots := snapshotsSince db workspaceId watermark maxRowsPerRun
    .ok (roasSnapshotTable snapshots, newest (snapshots.map fun row => toDate row.createdAt))
  | .ruleActions =>
    let actions := actionsForWorkspace db workspaceId watermark maxRowsPerRun
    .ok (ruleActionTable db.rules actions, newest (actions.map fun row => toDate row.createdAt))
  | .campaignInsights => db.insights.map fun table => (table, none)

/-! The request -/

structure ExportRequest where
  dataset : ExportDataset
  adAccountId : Option String := none
  windowDays : Option Double := none
  spreadsheetId : Option String := none
  spreadsheetTitle : Option String := none
  sheetTitle : Option String := none

def validateRequest (request : ExportRequest) : Option String :=
  if request.dataset = .campaignInsights ∧ nonEmpty request.adAccountId = none then
    some "campaign_insights exports need an ad account id"
  else
    match request.windowDays with
    | some days =>
      if days.lt (.finite 1) || Double.lt (.finite 365) days then
        some "windowDays must be between 1 and 365"
      else none
    | none => none

/-- `new Date(time)`: none for an invalid date. -/
def dateOf : Double → Option Instant
  | .finite time =>
    if |time| ≤ 8640000000000000 then some (if 0 ≤ time then ⌊time⌋ else ⌈time⌉) else none
  | _ => none

def daysAgo (now : Instant) (days : Double) : Option Instant :=
  let hours := days.mul (.finite 24)
  let span := ((hours.mul (.finite 60)).mul (.finite 60)).mul (.finite 1000)
  dateOf (Double.add (.finite now) span.neg)

/-- What `Date.now()` is each time that it is asked. -/
structure Clock where
  untilAt : Instant
  sinceAt : Instant
  startAt : Instant

structure ExportRunResult where
  dataset : ExportDataset
  rowsExported : Nat
  spreadsheetId : String
  spreadsheetUrl : String
  sheetTitle : String
  spreadsheetCreated : Bool
  since : String
  untilDate : String

/-- `write`; it does not read the days of the request. -/
def write (google : Google) (connected : Bool) (request : ExportRequest) (table : ExportTable Row) :
    Written Row :=
  writeExport google connected ⟨request.dataset, 0, request.spreadsheetTitle,
    request.sheetTitle.getD (defaultSheetTitle request.dataset)⟩ request.spreadsheetId table

/-- The requests made of Google, and the result or the message of the exception. -/
def exportNow (db : Database) (clock : Clock) (google : Google) (connected : Bool)
    (workspaceId : Uuid) (request : ExportRequest) :
    List (SheetsCall Row) × Except String ExportRunResult :=
  match validateRequest request with
  | some message => ([], .error message)
  | none =>
    let windowDays := request.windowDays.getD (.finite 7)
    match daysAgo clock.sinceAt windowDays, daysAgo clock.startAt windowDays with
    | some since, some start =>
      match buildTable db workspaceId request.dataset start with
      | .error message => ([], .error message)
      | .ok (table, _) =>
        let written := write google connected request table
        (written.1, written.2.map fun sheet => {
          dataset := request.dataset
          rowsExported := table.rows.length
          spreadsheetId := sheet.spreadsheetId
          spreadsheetUrl := sheet.spreadsheetUrl
          sheetTitle := sheet.sheetTitle
          spreadsheetCreated := sheet.spreadsheetCreated
          since := Calendar.isoDay (since / 86400000)
          untilDate := Calendar.isoDay (clock.untilAt / 86400000) })
    | _, _ => ([], .error "Invalid time value")

/-! What is sent -/

section
variable {google : Google} {table : ExportTable Row}

/-- The rows that requests append. -/
def appended (calls : List (SheetsCall Row)) : List Row :=
  calls.flatMap fun call =>
    match call with
    | .append _ _ values => values
    | _ => []

/-- Headers go to a tab that has nothing in its first row. -/
def headerRows (google : Google) (headers : Row) : List Row :=
  if google.content then [] else [headers]

theorem appended_request {kind : SheetsRequest} {needed : Bool} {call : SheetsCall Row}
    {rest : Written Row} {result : SheetWriteResult}
    (ok : (Schedules.request google kind needed call rest).2 = .ok result) :
    appended (Schedules.request google kind needed call rest).1 =
      (if needed then appended [call] else []) ++ appended rest.1 := by
  have fine := (request_ok_iff.mp ok).1
  cases needed with
  | false => rfl
  | true =>
    unfold Schedules.request
    rw [if_pos rfl, if_pos rfl, fine rfl]
    simp [appended]

theorem appended_fill {id : String} {url : Option String} {fresh : Bool}
    {destination : SheetDestination} {result : SheetWriteResult}
    (ok : (fill google id url fresh destination table).2 = .ok result) :
    appended (fill google id url fresh destination table).1 =
      headerRows google table.headers ++ table.rows := by
  have metadata := (request_ok_iff.mp ok).2
  have tab := (request_ok_iff.mp metadata).2
  have probe := (request_ok_iff.mp tab).2
  unfold fill
  dsimp only
  rw [appended_request ok, appended_request metadata, appended_request tab, appended_request probe]
  cases content : google.content with
  | false => simp [appended, headerRows, content]
  | true => cases rows : table.rows <;> simp [appended, headerRows, content]

theorem appended_writeTable {destination : SheetDestination} {result : SheetWriteResult}
    (ok : (writeTable google destination table).2 = .ok result) :
    appended (writeTable google destination table).1 =
      headerRows google table.headers ++ table.rows := by
  unfold writeTable at ok ⊢
  cases given : nonEmpty destination.spreadsheetId with
  | some id =>
    rw [given] at ok
    exact appended_fill ok
  | none =>
    rw [given] at ok
    cases failed : google.fails .createSpreadsheet with
    | some message =>
      rw [failed] at ok
      cases ok
    | none =>
      rw [failed] at ok
      exact appended_fill ok

theorem writeTable_ok (answers : ∀ kind, google.fails kind = none) (destination : SheetDestination) :
    ∃ result, (writeTable google destination table).2 = .ok result := by
  have complete : Answers google destination.sheetTitle table.rows :=
    ⟨answers _, .inr (answers _), answers _, .inr (answers _)⟩
  unfold writeTable
  cases nonEmpty destination.spreadsheetId with
  | some id => exact fill_of_answers google id none false destination table complete
  | none =>
    dsimp only
    rw [answers]
    exact fill_of_answers google _ _ true destination table complete

end

/-! The whole window -/

/-- A window of whole days starts so many times 24 hours ago. -/
theorem daysAgo_whole {now : ℤ} {days : Nat} (year : days ≤ 365)
    (small : |now| ≤ 8600000000000000) :
    daysAgo now (.finite days) = some (Watermark.daysAgo now days) := by
  have step : ∀ (factor value : ℤ), |value * factor| < 2 ^ 53 →
      Double.mul (.finite value) (.finite factor) = .finite (value * factor : ℤ) :=
    fun factor value fits => by rw [Double.mul, ← Int.cast_mul, nearest_intCast fits]
  have bounded := abs_le.mp small
  have fits : ∀ n : ℤ, 0 ≤ n → n < 2 ^ 53 → |n| < 2 ^ 53 := fun n positive under => by
    rwa [abs_of_nonneg positive]
  have hours := step 24 days (fits _ (by omega) (by omega))
  have minutes := step 60 (days * 24) (fits _ (by omega) (by omega))
  have seconds := step 60 (days * 24 * 60) (fits _ (by omega) (by omega))
  have span := step 1000 (days * 24 * 60 * 60) (fits _ (by omega) (by omega))
  have left : Double.add (.finite (now : ℚ))
      (Double.neg (.finite (days * 24 * 60 * 60 * 1000 : ℤ))) =
        .finite ((now - days * 24 * 60 * 60 * 1000 : ℤ) : ℚ) := by
    rw [Double.neg, Double.add, ← Int.cast_neg, ← Int.cast_add, ← Int.sub_eq_add_neg]
    exact nearest_intCast (abs_lt.mpr ⟨by omega, by omega⟩)
  push_cast at hours minutes seconds span left
  have date : dateOf (.finite ((now - days * 24 * 60 * 60 * 1000 : ℤ) : ℚ)) =
      some (now - days * 24 * 60 * 60 * 1000) := by
    have within : |(now - days * 24 * 60 * 60 * 1000 : ℤ)| ≤ 8640000000000000 :=
      abs_le.mpr ⟨by omega, by omega⟩
    have within' : |((now - days * 24 * 60 * 60 * 1000 : ℤ) : ℚ)| ≤ 8640000000000000 := by
      exact_mod_cast within
    rw [dateOf, if_pos within', Int.floor_intCast, Int.ceil_intCast, ite_self]
  push_cast at date
  have same : now - days * 24 * 60 * 60 * 1000 = Watermark.daysAgo now days := by
    unfold Watermark.daysAgo
    omega
  rw [daysAgo, hours, minutes, seconds, span]
  exact (congrArg dateOf left).trans (date.trans (congrArg some same))

section
variable {α : Type*}

/-- The events are appended one for one, oldest first, and counted. -/
def Complete (r : Ranking α) (events : List α) (row : α → Row) (headers sent : List Row)
    (count : Nat) : Prop :=
  (∃ ordered, IsAnswer r events ordered ∧ sent = headers ++ ordered.map row) ∧
    count = events.length

theorem complete_iff {r : Ranking α} (order : OrderBy r) (events : List α) (row : α → Row)
    (headers : List Row) (cap : Nat) :
    Complete r events row headers (headers ++ ((order.run events).take cap).map row)
      (((order.run events).take cap).map row).length ↔ events.length ≤ cap := by
  have length := (order.valid events).perm.length_eq
  constructor
  · rintro ⟨_, count⟩
    rw [List.length_map, List.length_take] at count
    omega
  · intro few
    rw [List.take_of_length_le (by omega), List.length_map]
    exact ⟨⟨_, order.valid events, rfl⟩, length⟩

end

def eventCount (db : Database) (workspaceId : Uuid) (dataset : ExportDataset) (start : Instant) :
    Nat :=
  match dataset with
  | .roasSnapshots => (snapshotsAfter db.snapshots workspaceId start).length
  | .ruleActions => (actionsAfter db.actions workspaceId start).length
  | .campaignInsights => 0

/-- What an export that starts at `start` is to append and to report. -/
def Covers (db : Database) (google : Google) (workspaceId : Uuid) (dataset : ExportDataset)
    (start : Instant) (calls : List (SheetsCall Row)) (count : Nat) : Prop :=
  match dataset with
  | .roasSnapshots => Complete oldestSnapshot (snapshotsAfter db.snapshots workspaceId start)
      snapshotRow (headerRows google roasHeaders) (appended calls) count
  | .ruleActions => Complete oldestAction (actionsAfter db.actions workspaceId start)
      (actionRow db.rules) (headerRows google ruleActionHeaders) (appended calls) count
  | .campaignInsights => True

def windowStart (clock : Clock) (request : ExportRequest) : Option Instant :=
  daysAgo clock.startAt (request.windowDays.getD (.finite 7))

section
variable {db : Database} {clock : Clock} {google : Google} {connected : Bool} {workspaceId : Uuid}
  {request : ExportRequest} {start : Instant} {result : ExportRunResult}

theorem exportNow_sent (begins : windowStart clock request = some start)
    (ok : (exportNow db clock google connected workspaceId request).2 = .ok result) :
    ∃ table watermark, buildTable db workspaceId request.dataset start = .ok (table, watermark) ∧
      appended (exportNow db clock google connected workspaceId request).1 =
        headerRows google table.headers ++ table.rows ∧
      result.rowsExported = table.rows.length := by
  unfold windowStart at begins
  unfold exportNow at ok ⊢
  cases invalid : validateRequest request with
  | some message =>
    rw [invalid] at ok
    cases ok
  | none =>
    rw [invalid] at ok
    dsimp only at ok ⊢
    rw [begins] at ok ⊢
    cases since : daysAgo clock.sinceAt (request.windowDays.getD (.finite 7)) with
    | none =>
      rw [since] at ok
      cases ok
    | some since' =>
      rw [since] at ok
      dsimp only at ok ⊢
      cases built : buildTable db workspaceId request.dataset start with
      | error message =>
        rw [built] at ok
        cases ok
      | ok pair =>
        rw [built] at ok
        obtain ⟨table, watermark⟩ := pair
        dsimp only at ok ⊢
        cases written : (write google connected request table).2 with
        | error message =>
          rw [written] at ok
          cases ok
        | ok sheet =>
          rw [written] at ok
          cases ok
          refine ⟨table, watermark, rfl, ?_, rfl⟩
          unfold write writeExport at written ⊢
          cases connected with
          | false => cases written
          | true => exact appended_writeTable written

theorem covers_iff (event : request.dataset ≠ .campaignInsights)
    (begins : windowStart clock request = some start)
    (ok : (exportNow db clock google connected workspaceId request).2 = .ok result) :
    Covers db google workspaceId request.dataset start
        (exportNow db clock google connected workspaceId request).1 result.rowsExported ↔
      eventCount db workspaceId request.dataset start ≤ maxRowsPerRun := by
  obtain ⟨table, watermark, built, sent, count⟩ := exportNow_sent begins ok
  rw [count]
  generalize request.dataset = dataset at event built
  cases dataset with
  | roasSnapshots =>
    cases built
    simp only [Covers, sent]
    exact complete_iff db.snapshotOrder _ snapshotRow _ maxRowsPerRun
  | ruleActions =>
    cases built
    simp only [Covers, sent]
    exact complete_iff db.actionOrder _ (actionRow db.rules) _ maxRowsPerRun
  | campaignInsights => exact absurd rfl event

/-- Where no request fails the export returns. -/
theorem exportNow_ok (event : request.dataset ≠ .campaignInsights)
    (valid : validateRequest request = none) (begins : windowStart clock request = some start)
    (since : (daysAgo clock.sinceAt (request.windowDays.getD (.finite 7))).isSome)
    (answers : ∀ kind, google.fails kind = none) :
    ∃ result, (exportNow db clock google true workspaceId request).2 = .ok result := by
  obtain ⟨since', since⟩ := Option.isSome_iff_exists.mp since
  obtain ⟨pair, built⟩ : ∃ pair, buildTable db workspaceId request.dataset start = .ok pair := by
    generalize request.dataset = dataset at event
    cases dataset with
    | roasSnapshots => exact ⟨_, rfl⟩
    | ruleActions => exact ⟨_, rfl⟩
    | campaignInsights => exact absurd rfl event
  unfold windowStart at begins
  unfold exportNow write writeExport
  rw [valid]
  dsimp only
  rw [since, begins]
  dsimp only
  rw [built]
  dsimp only
  obtain ⟨sheet, written⟩ := @writeTable_ok google pair.1 answers _
  rw [if_pos rfl, written]
  exact ⟨_, rfl⟩

end

/-- An export of a window covers it exactly where the rows fit into one run of a schedule, in whatever
order rows of one time are read; and it returns where no request fails. -/
theorem exportNow_covers_iff (db : Database) (clock : Clock) (google : Google) (connected : Bool)
    (workspaceId : Uuid) (request : ExportRequest) (start : Instant)
    (event : request.dataset ≠ .campaignInsights) (begins : windowStart clock request = some start) :
    (∀ result, (exportNow db clock google connected workspaceId request).2 = .ok result →
      (Covers db google workspaceId request.dataset start
          (exportNow db clock google connected workspaceId request).1 result.rowsExported ↔
        eventCount db workspaceId request.dataset start ≤ maxRowsPerRun)) ∧
    (connected = true → validateRequest request = none →
      (daysAgo clock.sinceAt (request.windowDays.getD (.finite 7))).isSome →
      (∀ kind, google.fails kind = none) →
      ∃ result, (exportNow db clock google connected workspaceId request).2 = .ok result) := by
  refine ⟨fun result ok => covers_iff event begins ok, fun linked valid since answers => ?_⟩
  subst linked
  exact exportNow_ok event valid begins since answers

/-! A busy month -/

/-- One verification for each second before `now`. -/
def busySnapshot (now : Instant) (i : Nat) : RoasSnapshot where
  workspaceId := 1
  adAccountId := "act_123"
  sinceDate := "2026-08-01"
  untilDate := "2026-08-07"
  metaSpend := "1500.00"
  spendCurrency := some "PKR"
  stripeRevenue := "4200.50"
  revenueCurrency := some "PKR"
  roas := some "2.8003"
  purchases := 12
  cpa := some "125.00"
  caveats := none
  createdAt := ofDate now - 1000000 * i

def busyNow : Instant := 1786354200000

def busyClock : Clock := ⟨busyNow, busyNow, busyNow⟩

def busyDatabase (count : Nat) : Database where
  snapshots := (List.range count).map (busySnapshot busyNow)
  actions := []
  rules := []
  snapshotOrder := .stable _
  actionOrder := .stable _
  insights := .error "No active Meta Ads connection is available."

def freshSheet : Google where
  newId := "sheet"
  newId_ne := by decide
  newUrl := none
  metadataUrl := none
  titles := []
  content := false
  fails _ := none

def lastMonth : ExportRequest := { dataset := .roasSnapshots, windowDays := some (.finite 30) }

theorem lastMonth_begins :
    windowStart busyClock lastMonth = some (Watermark.daysAgo busyNow 30) := by
  have year : 30 ≤ 365 := by omega
  have small : |(1786354200000 : ℤ)| ≤ 8600000000000000 := by decide
  exact daysAgo_whole year small

theorem busy_eventCount {count : Nat} (month : count ≤ 1000) :
    eventCount (busyDatabase count) 1 .roasSnapshots (Watermark.daysAgo busyNow 30) = count := by
  have all : snapshotsAfter (busyDatabase count).snapshots 1 (Watermark.daysAgo busyNow 30) =
      (busyDatabase count).snapshots := by
    refine List.filter_eq_self.mpr fun row member => decide_eq_true ?_
    obtain ⟨i, listed, rfl⟩ := List.mem_map.mp member
    have few := List.mem_range.mp listed
    refine ⟨rfl, ?_⟩
    simp only [busySnapshot, ofDate, Watermark.daysAgo, busyNow]
    omega
  rw [eventCount, all]
  simp [busyDatabase]

theorem busy_exportNow_ok (count : Nat) : ∃ result,
    (exportNow (busyDatabase count) busyClock freshSheet true 1 lastMonth).2 = .ok result :=
  exportNow_ok (by decide) (by decide +kernel) lastMonth_begins
    (by rw [show daysAgo busyClock.sinceAt (lastMonth.windowDays.getD (.finite 7)) = _ from
      lastMonth_begins]; rfl) fun _ => rfl

theorem quiet_month_covered : ∃ result,
    (exportNow (busyDatabase 500) busyClock freshSheet true 1 lastMonth).2 = .ok result ∧
      Covers (busyDatabase 500) freshSheet 1 .roasSnapshots (Watermark.daysAgo busyNow 30)
        (exportNow (busyDatabase 500) busyClock freshSheet true 1 lastMonth).1
        result.rowsExported := by
  have settled := exportNow_covers_iff (busyDatabase 500) busyClock freshSheet true 1 lastMonth
    (Watermark.daysAgo busyNow 30) (by decide) lastMonth_begins
  obtain ⟨result, ok⟩ := busy_exportNow_ok 500
  exact ⟨result, ok, (settled.1 result ok).mpr (busy_eventCount (by omega)).le⟩

/-- Of 501 snapshots an export of thirty days leaves one out. -/
theorem busy_month_cut : ∃ result,
    (exportNow (busyDatabase 501) busyClock freshSheet true 1 lastMonth).2 = .ok result ∧
      result.rowsExported = 500 ∧
      eventCount (busyDatabase 501) 1 .roasSnapshots (Watermark.daysAgo busyNow 30) = 501 ∧
      ¬ Covers (busyDatabase 501) freshSheet 1 .roasSnapshots (Watermark.daysAgo busyNow 30)
        (exportNow (busyDatabase 501) busyClock freshSheet true 1 lastMonth).1
        result.rowsExported := by
  have events := @busy_eventCount 501 (by omega)
  obtain ⟨result, ok⟩ := busy_exportNow_ok 501
  refine ⟨result, ok, ?_, events, fun covers => ?_⟩
  · obtain ⟨table, watermark, built, _, count⟩ := exportNow_sent lastMonth_begins ok
    cases built
    have length := ((busyDatabase 501).snapshotOrder.valid
      (snapshotsAfter (busyDatabase 501).snapshots 1 (Watermark.daysAgo busyNow 30))).perm.length_eq
    change _ = eventCount (busyDatabase 501) 1 .roasSnapshots (Watermark.daysAgo busyNow 30)
      at length
    rw [count, roasSnapshotTable, List.length_map, snapshotsSince, List.length_take, length, events]
    rfl
  · have few := (covers_iff (by decide) lastMonth_begins ok).mp covers
    change eventCount _ _ .roasSnapshots _ ≤ 500 at few
    omega

end Gomer.ExportNow
