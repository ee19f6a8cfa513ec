import Gomer.Lib.Number
import Gomer.Schedules.Services

/-! One execution of a scheduled export: the requests that `writeTable` makes of Google Sheets, one
after the other, and what becomes of the export's row. -/
namespace Gomer.Schedules

open Orm

inductive ExportDataset where
  | roasSnapshots | campaignInsights | ruleActions
  deriving DecidableEq, Repr

def defaultSheetTitle : ExportDataset → String
  | .roasSnapshots => "Verified ROAS"
  | .campaignInsights => "Campaign Performance"
  | .ruleActions => "Rule Actions"

def defaultTitle (dataset : ExportDataset) : String := "Gaspo — " ++ defaultSheetTitle dataset

/-- The columns of an export that no run changes. -/
structure ExportRequest where
  dataset : ExportDataset
  windowDays : Nat
  spreadsheetTitle : Option String
  sheetTitle : String

/-- Header row and data; a row is what is sent for it. -/
structure ExportTable (Row : Type) where
  headers : Row
  rows : List Row

structure SheetDestination where
  spreadsheetId : Option String
  spreadsheetTitle : String
  sheetTitle : String

structure SheetWriteResult where
  spreadsheetId : String
  spreadsheetUrl : String
  sheetTitle : String
  rowsAppended : Nat
  headerWritten : Bool
  spreadsheetCreated : Bool

inductive SheetsRequest where
  | createSpreadsheet | getSpreadsheet | addSheet | hasContent | append
  deriving DecidableEq, Repr

/-- A request that Google has been sent, with the spreadsheet it is about; a creation is one that
has been carried out. -/
inductive SheetsCall (Row : Type) where
  | createSpreadsheet (id title sheetTitle : String)
  | getSpreadsheet (id : String)
  | addSheet (id title : String)
  | hasContent (id title : String)
  | append (id title : String) (values : List Row)
  deriving DecidableEq

def SheetsCall.target {Row : Type} : SheetsCall Row → String
  | .createSpreadsheet id _ _ | .getSpreadsheet id | .addSheet id _ | .hasContent id _
  | .append id _ _ => id

/-- What Google answers in one run: the id of a new spreadsheet, the metadata, and which requests
fail with which message. -/
structure Google where
  newId : String
  newId_ne : newId ≠ ""
  newUrl : Option String
  metadataUrl : Option String
  titles : List String
  content : Bool
  fails : SheetsRequest → Option String

/-- The requests made, and the result or the message of the exception. -/
abbrev Written (Row : Type) := List (SheetsCall Row) × Except String SheetWriteResult

section
variable {Row : Type}

def urlFor (id : String) : String := "https://docs.google.com/spreadsheets/d/" ++ id ++ "/edit"

/-- A request, where it is needed, and what follows unless it fails. -/
def request (google : Google) (kind : SheetsRequest) (needed : Bool) (call : SheetsCall Row)
    (rest : Written Row) : Written Row :=
  if needed then
    match google.fails kind with
    | some message => ([call], .error message)
    | none => (call :: rest.1, rest.2)
  else rest

/-- The part of `writeTable` that has a spreadsheet. -/
def fill (google : Google) (id : String) (url : Option String) (fresh : Bool)
    (destination : SheetDestination) (table : ExportTable Row) : Written Row :=
  let title := destination.sheetTitle
  let headerWritten := !google.content
  let values := if headerWritten then table.headers :: table.rows else table.rows
  let result : SheetWriteResult := {
    spreadsheetId := id
    spreadsheetUrl := (google.metadataUrl.or url).getD (urlFor id)
    sheetTitle := title
    rowsAppended := table.rows.length
    headerWritten := headerWritten
    spreadsheetCreated := fresh }
  request google .getSpreadsheet true (.getSpreadsheet id) <|
    request google .addSheet (title ∉ google.titles) (.addSheet id title) <|
      request google .hasContent true (.hasContent id title) <|
        request google .append (!values.isEmpty) (.append id title values) ([], .ok result)

def writeTable (google : Google) (destination : SheetDestination) (table : ExportTable Row) :
    Written Row :=
  match nonEmpty destination.spreadsheetId with
  | some id => fill google id none false destination table
  | none =>
    match google.fails .createSpreadsheet with
    | some message => ([], .error message)
    | none =>
      let id := google.newId
      let title := (nonEmpty (some
        (String.ofList (JsNumber.trim destination.spreadsheetTitle.toList)))).getD "Gaspo export"
      let filled :=
        fill google id (some (google.newUrl.getD (urlFor id))) true destination table
      (.createSpreadsheet id title destination.sheetTitle :: filled.1, filled.2)

/-- `write`, with or without a Google Sheets connection. -/
def writeExport (google : Google) (connected : Bool) (req : ExportRequest)
    (spreadsheetId : Option String) (table : ExportTable Row) : Written Row :=
  if connected then
    writeTable google ⟨spreadsheetId, req.spreadsheetTitle.getD (defaultTitle req.dataset),
      req.sheetTitle⟩ table
  else ([], .error ("No active Google Sheets connection is available — connect Google Sheets in " ++
    "Integrations first."))

/-- One execution: its times, the outcome of `buildTable`, and the world that `write` meets. -/
structure Execution (Row : Type) where
  startedAt : Instant
  lastRun : Instant
  built : Except String (ExportTable Row × Option Instant)
  connected : Bool
  google : Google

/-- The body of `runExport`. -/
def Execution.attempt (run : Execution Row) (req : ExportRequest) (spreadsheetId : Option String) :
    List (SheetsCall Row) × Except String Exported :=
  match run.built with
  | .error message => ([], .error message)
  | .ok (table, watermark) =>
    let written := writeExport run.google run.connected req spreadsheetId table
    (written.1, written.2.map fun result =>
      ⟨result.spreadsheetId, result.spreadsheetUrl, table.rows.length, watermark⟩)

/-- What `runExport` makes of the row. -/
def Execution.toRun (run : Execution Row) (req : ExportRequest) : ExportRun where
  startedAt := run.startedAt
  lastRun := run.lastRun
  outcome := fun scheduled => (run.attempt req (scheduled .spreadsheetId)).2

/-! Which requests a run makes, and when none of them fails -/

def SheetsCall.created : SheetsCall Row → Option String
  | .createSpreadsheet id _ _ => some id
  | _ => none

/-- The spreadsheets that requests have created. -/
def created (calls : List (SheetsCall Row)) : List String := calls.filterMap SheetsCall.created

/-- None of the requests that fill a sheet fails. -/
structure Answers (google : Google) (title : String) (rows : List Row) : Prop where
  metadata : google.fails .getSpreadsheet = none
  tab : title ∈ google.titles ∨ google.fails .addSheet = none
  probe : google.fails .hasContent = none
  data : google.content = true ∧ rows = [] ∨ google.fails .append = none

/-- Requests about one spreadsheet that create none. -/
def Fills (id : String) (calls : List (SheetsCall Row)) : Prop :=
  (∀ c ∈ calls, c.target = id) ∧ created calls = []

theorem request_fills {google : Google} {kind : SheetsRequest} {needed : Bool}
    {call : SheetsCall Row} {rest : Written Row} {id : String} (own : call.target = id)
    (none : call.created = none) (others : Fills id rest.1) :
    Fills id (request google kind needed call rest).1 := by
  have first : ∀ calls, created calls = [] → created (call :: calls) = [] := by
    intro calls empty
    rw [created, List.filterMap_cons, none]
    exact empty
  unfold request
  split
  · split
    · refine ⟨fun c hc => ?_, first [] rfl⟩
      rw [List.mem_singleton.mp hc, own]
    · refine ⟨fun c hc => ?_, first _ others.2⟩
      rcases List.mem_cons.mp hc with rfl | hc
      · exact own
      · exact others.1 c hc
  · exact others

theorem request_ok_iff {google : Google} {kind : SheetsRequest} {needed : Bool}
    {call : SheetsCall Row} {rest : Written Row} {result : SheetWriteResult} :
    (request google kind needed call rest).2 = .ok result ↔
      (needed = true → google.fails kind = none) ∧ rest.2 = .ok result := by
  unfold request
  split
  · rename_i need
    split
    · rename_i failed
      rw [failed]
      exact iff_of_false (fun ok => by cases ok) fun both => by cases both.1 need
    · rename_i fine
      exact ⟨fun ok => ⟨fun _ => fine, ok⟩, fun both => both.2⟩
  · rename_i unneeded
    exact ⟨fun ok => ⟨fun need => absurd need unneeded, ok⟩, fun both => both.2⟩

section
variable (google : Google) (id : String) (url : Option String) (fresh : Bool)
  (destination : SheetDestination) (table : ExportTable Row)

theorem fill_fills : Fills id (fill google id url fresh destination table).1 :=
  request_fills rfl rfl <| request_fills rfl rfl <| request_fills rfl rfl <|
    request_fills rfl rfl ⟨fun _ absent => absurd absent List.not_mem_nil, rfl⟩

theorem fill_ok {result : SheetWriteResult}
    (ok : (fill google id url fresh destination table).2 = .ok result) :
    result.spreadsheetId = id ∧ Answers google destination.sheetTitle table.rows := by
  obtain ⟨metadata, ok⟩ := request_ok_iff.mp ok
  obtain ⟨tab, ok⟩ := request_ok_iff.mp ok
  obtain ⟨probe, ok⟩ := request_ok_iff.mp ok
  obtain ⟨data, ok⟩ := request_ok_iff.mp ok
  injection ok with same
  subst same
  refine ⟨rfl, metadata rfl, ?_, probe rfl, ?_⟩
  · by_cases present : destination.sheetTitle ∈ google.titles
    · exact .inl present
    · exact .inr (tab (decide_eq_true present))
  · cases content : google.content with
    | false =>
      rw [content] at data
      exact .inr (data rfl)
    | true =>
      rw [content] at data
      cases rows : table.rows with
      | nil => exact .inl ⟨rfl, rfl⟩
      | cons row rest =>
        rw [rows] at data
        exact .inr (data rfl)

theorem fill_of_answers (answers : Answers google destination.sheetTitle table.rows) :
    ∃ result, (fill google id url fresh destination table).2 = .ok result := by
  refine ⟨_, request_ok_iff.mpr ⟨fun _ => answers.metadata, request_ok_iff.mpr ⟨fun absent => ?_,
    request_ok_iff.mpr ⟨fun _ => answers.probe, request_ok_iff.mpr ⟨fun some => ?_, rfl⟩⟩⟩⟩⟩
  · exact answers.tab.resolve_left (of_decide_eq_true absent)
  · rcases answers.data with ⟨content, rows⟩ | appends
    · rw [content, rows] at some
      cases some
    · exact appends

end

end

end Gomer.Schedules
