import Mathlib.Data.List.Nodup
import Mathlib.Logic.Function.Basic
import Gomer.Lib.Trace
import Gomer.Schedules.Exports

/-! The tabs that `writeTable` fills: any number of calls at once, on the same and on other
spreadsheets, each request of which may be lost or fail after it was carried out. While they run
nobody else writes to a spreadsheet. -/
namespace Gomer.SheetLog

open Trace Schedules

/-- One call of `writeTable`. -/
structure Job (Row : Type) where
  destination : SheetDestination
  table : ExportTable Row

/-- The answer to a request that changes something; one that fails may have been carried out. -/
inductive Reply where
  | answered
  | lost (message : String)
  | landed (message : String)

/-- The spreadsheet of a call. -/
structure Target where
  id : String
  url : Option String
  created : Bool

inductive Phase where
  | waiting
  | opened (target : Target)
  | listed (target : Target) (titles : List String)
  | ready (target : Target)
  | probed (target : Target) (content : Bool)
  | returned (result : SheetWriteResult)
  | thrown (message : String)

/-- An append that was carried out; `headed` is whether the header row came with it. -/
structure Entry where
  call : Nat
  id : String
  headed : Bool

/-- `titles` are the tabs of each spreadsheet there is, `rows` what is in a tab. -/
structure State (Row : Type) where
  titles : String → Option (List String)
  rows : String → String → List Row
  phase : Nat → Phase
  log : List Entry

/-- No call has begun; the spreadsheets are as they were left. -/
def start {Row : Type} (titles : String → Option (List String))
    (opening : String → String → List Row) : State Row :=
  ⟨titles, opening, fun _ => .waiting, []⟩

inductive Act where
  | open (i : Nat)
  | createSpreadsheet (i : Nat) (id : String) (url : Option String) (reply : Reply)
  | getSpreadsheet (i : Nat) (url : Option String) (failure : Option String)
  | addSheet (i : Nat) (reply : Reply)
  | hasContent (i : Nat) (failure : Option String)
  | append (i : Nat) (reply : Reply)

section
variable {Row : Type} (filled : Row → Bool) (tableEnd : List Row → Nat) (jobs : Nat → Job Row)

def State.enter (s : State Row) (i : Nat) (phase : Phase) : State Row :=
  { s with phase := Function.update s.phase i phase }

def Reply.message? : Reply → Option String
  | .answered => none
  | .lost message | .landed message => some message

def Reply.reached : Reply → Bool
  | .lost _ => false
  | _ => true

def title (i : Nat) : String := (jobs i).destination.sheetTitle

def valuesOf (i : Nat) (content : Bool) : List Row :=
  if content then (jobs i).table.rows else (jobs i).table.headers :: (jobs i).table.rows

def resultOf (i : Nat) (target : Target) (content : Bool) : SheetWriteResult where
  spreadsheetId := target.id
  spreadsheetUrl := target.url.getD (urlFor target.id)
  sheetTitle := title jobs i
  rowsAppended := (jobs i).table.rows.length
  headerWritten := !content
  spreadsheetCreated := target.created

/-- `values:append` with `INSERT_ROWS`: new rows for the values, after the table that Google finds at
A1. The rows of that table end at `tableEnd`. -/
def inserted (held values : List Row) : List Row :=
  held.take (tableEnd held) ++ (values ++ held.drop (tableEnd held))

/-- The table at A1 takes in the rows that have something in the first column, from the first row
on, up to a row that has not. -/
def TakesIn : Prop :=
  ∀ above below, (∀ row ∈ above, filled row = true) → above.length ≤ tableEnd (above ++ below)

def State.appended (s : State Row) (i : Nat) (target : Target) (content : Bool) : State Row :=
  { s with
    rows := Function.update s.rows target.id (Function.update (s.rows target.id) (title jobs i)
      (inserted tableEnd (s.rows target.id (title jobs i)) (valuesOf jobs i content)))
    log := s.log ++ [⟨i, target.id, !content⟩] }

def State.addTab (s : State Row) (id : String) (titles : List String) : State Row :=
  { s with titles := Function.update s.titles id (some titles) }

/-- Where a request fails, the call throws; `next` is where it goes on otherwise. -/
def State.proceed (s : State Row) (i : Nat) (failure : Option String) (next : Phase) : State Row :=
  s.enter i (match failure with
    | some message => .thrown message
    | none => next)

def step (s : State Row) : Act → Option (State Row)
  | .open i =>
    match s.phase i, nonEmpty (jobs i).destination.spreadsheetId with
    | .waiting, some id => some (s.enter i (.opened ⟨id, none, false⟩))
    | _, _ => none
  | .createSpreadsheet i id url reply =>
    match s.phase i, nonEmpty (jobs i).destination.spreadsheetId, s.titles id with
    | .waiting, none, none =>
      let done := if reply.reached then s.addTab id [title jobs i] else s
      some (done.proceed i reply.message? (.opened ⟨id, some (url.getD (urlFor id)), true⟩))
    | _, _, _ => none
  | .getSpreadsheet i url failure =>
    match s.phase i with
    | .opened target =>
      match s.titles target.id, failure with
      | _, some message => some (s.enter i (.thrown message))
      | some titles, none =>
        some (s.enter i (.listed { target with url := url.or target.url } titles))
      -- a spreadsheet that is not there is never listed
      | none, none => none
    | _ => none
  | .addSheet i reply =>
    match s.phase i with
    | .listed target titles =>
      if title jobs i ∈ titles then some (s.enter i (.ready target))
      else
        let now := (s.titles target.id).getD []
        -- another call may have added the tab by now: the request is refused
        if title jobs i ∈ now ∧ reply.reached then none
        else
          let done := if reply.reached then s.addTab target.id (now ++ [title jobs i]) else s
          some (done.proceed i reply.message? (.ready target))
    | _ => none
  | .hasContent i failure =>
    match s.phase i with
    | .ready target =>
      some (s.proceed i failure
        (.probed target ((s.rows target.id (title jobs i)).head?.any filled)))
    | _ => none
  | .append i reply =>
    match s.phase i with
    | .probed target content =>
      if (valuesOf jobs i content).isEmpty then
        some (s.enter i (.returned (resultOf jobs i target content)))
      else
        let done := if reply.reached then s.appended tableEnd jobs i target content else s
        some (done.proceed i reply.message? (.returned (resultOf jobs i target content)))
    | _ => none

abbrev Step (s : State Row) (a : Act) (t : State Row) : Prop := step filled tableEnd jobs s a = some t

/-! What is in a tab -/

/-- The appends to a tab. -/
def tabLog (s : State Row) (id tab : String) : List Entry :=
  s.log.filter fun entry => entry.id == id && title jobs entry.call == tab

def block (entry : Entry) : List Row := valuesOf jobs entry.call (!entry.headed)

/-- A call puts the header row only into an empty tab. -/
def Orderly (s : State Row) : Act → Prop
  | .append i reply => reply.reached = true → ∀ target, s.phase i = .probed target false →
    s.rows target.id (title jobs i) = []
  | _ => True

/-- No append to a tab after the first one brings the header row. -/
def HeadedOnce (s : State Row) : Prop :=
  ∀ id tab, (tabLog jobs s id tab).Pairwise fun _ later => later.headed = false

/-- What a call knows when it enters a phase. -/
def Fits (s : State Row) (i : Nat) : Phase → Prop
  | .probed target content => content = (s.rows target.id (title jobs i)).head?.any filled
  | .returned result => ∃ target, s.phase i = .probed target true ∧
    result = resultOf jobs i target true ∧ (jobs i).table.rows = []
  | _ => True

inductive Ended : Phase → Prop where
  | returned (result : SheetWriteResult) : Ended (.returned result)
  | thrown (message : String) : Ended (.thrown message)

/-- A step moves one call on, and an append that is carried out adds its values. -/
inductive Moves (s : State Row) (a : Act) (t : State Row) : Prop where
  | quiet (i : Nat) (phase : Phase) (open_ : ¬Ended (s.phase i)) (rows : t.rows = s.rows)
      (log : t.log = s.log) (phases : t.phase = Function.update s.phase i phase)
      (fits : Fits filled jobs s i phase) (orderly : Orderly jobs s a)
  | appended (i : Nat) (reply : Reply) (target : Target) (content : Bool)
      (label : a = .append i reply) (reached : reply.reached = true)
      (at_ : s.phase i = .probed target content)
      (same : t = ((s.appended tableEnd jobs i target content).proceed i reply.message?
        (.returned (resultOf jobs i target content))))

/-- What the appends make of a tab, and what the calls know of it. -/
structure Sound (opening : String → String → List Row) (s : State Row) : Prop where
  contents : ∀ id tab,
    s.rows id tab = ((tabLog jobs s id tab).map (block jobs)).foldl (inserted tableEnd) (opening id tab)
  once : (s.log.map Entry.call).Nodup
  logged : ∀ entry ∈ s.log, Ended (s.phase entry.call)
  returned : ∀ i result, s.phase i = .returned result →
    result.sheetTitle = title jobs i ∧ result.rowsAppended = (jobs i).table.rows.length ∧
      (⟨i, result.spreadsheetId, result.headerWritten⟩ ∈ s.log ∨
        result.headerWritten = false ∧ (jobs i).table.rows = [])
  content : ∀ i target, s.phase i = .probed target true →
    (s.rows target.id (title jobs i)).head?.any filled = true
  blank : ∀ i target, s.phase i = .probed target false →
    (opening target.id (title jobs i)).head?.any filled = false
  headed : ∀ id tab, opening id tab = [] → ∀ first, (tabLog jobs s id tab).head? = some first →
    first.headed = true

/-! What the appends make of a tab -/

section
variable {filled : Row → Bool} {tableEnd : List Row → Nat} {held values : List Row}

theorem inserted_perm (held values : List Row) :
    (inserted tableEnd held values).Perm (held ++ values) := by
  have below : (inserted tableEnd held values).Perm
      (held.take (tableEnd held) ++ (held.drop (tableEnd held) ++ values)) :=
    List.perm_append_comm.append_left _
  rwa [← List.append_assoc, List.take_append_drop] at below

theorem sublist_inserted (held values : List Row) : held.Sublist (inserted tableEnd held values) := by
  have parts := List.take_append_drop (tableEnd held) held
  have kept : (held.take (tableEnd held) ++ held.drop (tableEnd held)).Sublist
      (inserted tableEnd held values) :=
    (List.Sublist.refl _).append (List.sublist_append_right _ _)
  rwa [parts] at kept

/-- A tab without gaps is a table to its end. -/
theorem inserted_filled (takesIn : TakesIn filled tableEnd) (all : ∀ row ∈ held, filled row = true) :
    inserted tableEnd held values = held ++ values := by
  have whole : held.length ≤ tableEnd held := by simpa using takesIn held [] all
  rw [inserted, List.take_of_length_le whole, List.drop_of_length_le whole, List.append_nil]

/-- A tab that begins with something still does. -/
theorem head_inserted (takesIn : TakesIn filled tableEnd) (begun : held.head?.any filled = true) :
    (inserted tableEnd held values).head?.any filled = true := by
  cases held with
  | nil => cases begun
  | cons row rest =>
    have within : 1 ≤ tableEnd (row :: rest) :=
      takesIn [row] rest fun other same => List.mem_singleton.mp same ▸ begun
    rw [inserted, List.take_cons within]
    exact begun

theorem foldl_inserted_perm (blocks : List (List Row)) :
    (blocks.foldl (inserted tableEnd) held).Perm (held ++ blocks.flatten) := by
  induction blocks generalizing held with
  | nil => rw [List.flatten_nil, List.append_nil, List.foldl_nil]
  | cons block rest ih =>
    rw [List.flatten_cons, ← List.append_assoc, List.foldl_cons]
    exact ih.trans ((inserted_perm held block).append_right _)

theorem sublist_foldl_inserted (blocks : List (List Row)) :
    held.Sublist (blocks.foldl (inserted tableEnd) held) := by
  induction blocks generalizing held with
  | nil => exact .refl _
  | cons block rest ih => exact (sublist_inserted held block).trans ih

theorem foldl_inserted_filled (takesIn : TakesIn filled tableEnd) {blocks : List (List Row)}
    (all : ∀ row ∈ held ++ blocks.flatten, filled row = true) :
    blocks.foldl (inserted tableEnd) held = held ++ blocks.flatten := by
  induction blocks generalizing held with
  | nil => rw [List.flatten_nil, List.append_nil, List.foldl_nil]
  | cons block rest ih =>
    rw [List.flatten_cons, ← List.append_assoc] at all ⊢
    rw [List.foldl_cons,
      inserted_filled takesIn fun row there =>
        all row (List.mem_append_left _ (List.mem_append_left _ there))]
    exact ih all

theorem head_foldl_inserted (takesIn : TakesIn filled tableEnd) (blocks : List (List Row))
    (begun : held.head?.any filled = true) :
    (blocks.foldl (inserted tableEnd) held).head?.any filled = true := by
  induction blocks generalizing held with
  | nil => exact begun
  | cons block rest ih => exact ih (head_inserted takesIn begun)

end

variable {filled : Row → Bool} {tableEnd : List Row → Nat} {jobs : Nat → Job Row} {s t : State Row}
  {a : Act}

theorem proceed_quiet {i : Nat} {u : State Row} {failure : Option String} {next : Phase}
    (open_ : ¬Ended (s.phase i)) (rows : u.rows = s.rows) (log : u.log = s.log)
    (phases : u.phase = s.phase) (fits : Fits filled jobs s i next)
    (orderly : Orderly jobs s a) : Moves filled tableEnd jobs s a (u.proceed i failure next) := by
  cases failure with
  | none => exact .quiet i next open_ rows log (congrArg (Function.update · i _) phases) fits orderly
  | some message =>
    exact .quiet i (.thrown message) open_ rows log (congrArg (Function.update · i _) phases)
      trivial orderly

theorem step_moves (taken : step filled tableEnd jobs s a = some t) :
    Moves filled tableEnd jobs s a t := by
  cases a with
  | «open» i =>
    simp only [step] at taken
    split at taken
    · rename_i id waiting given
      cases taken
      exact .quiet i _ (by rw [waiting]; nofun) rfl rfl rfl trivial trivial
    · cases taken
  | createSpreadsheet i id url reply =>
    simp only [step] at taken
    split at taken
    · rename_i waiting given fresh
      cases taken
      refine proceed_quiet (by rw [waiting]; nofun) ?_ ?_ ?_ trivial trivial <;>
        split <;> rfl
    · cases taken
  | getSpreadsheet i url failure =>
    simp only [step] at taken
    split at taken
    · rename_i target opened
      have open_ : ¬Ended (s.phase i) := by rw [opened]; nofun
      split at taken <;> cases taken
      · exact .quiet i _ open_ rfl rfl rfl trivial trivial
      · exact .quiet i _ open_ rfl rfl rfl trivial trivial
    · cases taken
  | addSheet i reply =>
    simp only [step] at taken
    split at taken
    · rename_i target titles listed
      have open_ : ¬Ended (s.phase i) := by rw [listed]; nofun
      split at taken
      · cases taken
        exact .quiet i _ open_ rfl rfl rfl trivial trivial
      · split at taken
        · cases taken
        · cases taken
          refine proceed_quiet open_ ?_ ?_ ?_ trivial trivial <;> split <;> rfl
    · cases taken
  | hasContent i failure =>
    simp only [step] at taken
    split at taken
    · rename_i target ready
      cases taken
      exact proceed_quiet (by rw [ready]; nofun) rfl rfl rfl rfl trivial
    · cases taken
  | append i reply =>
    simp only [step] at taken
    split at taken
    · rename_i target content probed
      have open_ : ¬Ended (s.phase i) := by rw [probed]; nofun
      split at taken
      · rename_i nothing
        cases taken
        -- the header row is a value, so the tab had content and there are no rows
        cases content with
        | false => cases nothing
        | true =>
          refine .quiet i _ open_ rfl rfl rfl ⟨target, probed, rfl, List.isEmpty_iff.mp nothing⟩ ?_
          intro _ other held
          cases probed.symm.trans held
      · cases taken
        cases reached : reply.reached with
        | true => exact .appended i reply target content rfl reached probed rfl
        | false =>
          obtain ⟨message, lost⟩ : ∃ message, reply = .lost message := by
            cases reply with
            | lost message => exact ⟨message, rfl⟩
            | answered => cases reached
            | landed message => cases reached
          subst lost
          refine .quiet i _ open_ rfl rfl rfl trivial ?_
          intro arrived
          cases arrived
    · cases taken

section
variable {opening : String → String → List Row}

theorem sound_start (titles : String → Option (List String)) :
    Sound filled tableEnd jobs opening (start titles opening) where
  contents id tab := rfl
  once := List.nodup_nil
  logged entry held := absurd held List.not_mem_nil
  returned i result now := by cases now
  content i target now := by cases now
  blank i target now := by cases now
  headed id tab empty first found := by cases found

theorem phase_cases {phases : Nat → Phase} {i j : Nat} {phase now : Phase}
    (held : Function.update phases i phase j = now) :
    j = i ∧ phase = now ∨ j ≠ i ∧ phases j = now := by
  by_cases same : j = i
  · subst same
    rw [Function.update_self] at held
    exact .inl ⟨rfl, held⟩
  · rw [Function.update_of_ne same] at held
    exact .inr ⟨same, held⟩

/-- What a call that found nothing knows of the tab as it was left. -/
theorem Sound.blank_of (takesIn : TakesIn filled tableEnd)
    (sound : Sound filled tableEnd jobs opening s) {id tab : String}
    (nothing : (s.rows id tab).head?.any filled = false) :
    (opening id tab).head?.any filled = false := by
  rw [sound.contents id tab] at nothing
  cases left : (opening id tab).head?.any filled with
  | false => rfl
  | true => exact absurd ((head_foldl_inserted takesIn _ left).symm.trans nothing) nofun

theorem Sound.quiet (takesIn : TakesIn filled tableEnd)
    (sound : Sound filled tableEnd jobs opening s) {i : Nat} {phase : Phase}
    (open_ : ¬Ended (s.phase i)) (rows : t.rows = s.rows) (log : t.log = s.log)
    (phases : t.phase = Function.update s.phase i phase) (fits : Fits filled jobs s i phase) :
    Sound filled tableEnd jobs opening t := by
  have sameLog : ∀ id tab, tabLog jobs t id tab = tabLog jobs s id tab := by
    intro id tab
    rw [tabLog, log, tabLog]
  constructor
  · intro id tab
    rw [rows, sameLog]
    exact sound.contents id tab
  · rw [log]
    exact sound.once
  · intro entry held
    rw [log] at held
    have ended := sound.logged entry held
    have other : entry.call ≠ i := by
      intro same
      rw [same] at ended
      exact open_ ended
    rw [phases, Function.update_of_ne other]
    exact ended
  · intro j result now
    rw [phases] at now
    rw [log]
    obtain ⟨rfl, rfl⟩ | ⟨-, before⟩ := phase_cases now
    · obtain ⟨target, -, rfl, none_⟩ := fits
      exact ⟨rfl, rfl, .inr ⟨rfl, none_⟩⟩
    · exact sound.returned j result before
  · intro j target now
    rw [phases] at now
    rw [rows]
    obtain ⟨rfl, rfl⟩ | ⟨-, before⟩ := phase_cases now
    · exact fits.symm
    · exact sound.content j target before
  · intro j target now
    rw [phases] at now
    obtain ⟨rfl, rfl⟩ | ⟨-, before⟩ := phase_cases now
    · exact sound.blank_of takesIn fits.symm
    · exact sound.blank j target before
  · intro id tab empty first found
    rw [sameLog] at found
    exact sound.headed id tab empty first found

theorem tabLog_appended (i : Nat) (target : Target) (content : Bool) (id tab : String) :
    tabLog jobs (s.appended tableEnd jobs i target content) id tab = tabLog jobs s id tab ++
      if target.id = id ∧ title jobs i = tab then [⟨i, target.id, !content⟩] else [] := by
  simp only [tabLog, State.appended, List.filter_append, List.filter_cons, List.filter_nil,
    Bool.and_eq_true, beq_iff_eq]

theorem rows_appended (i : Nat) (target : Target) (content : Bool) (id tab : String) :
    (s.appended tableEnd jobs i target content).rows id tab =
      if target.id = id ∧ title jobs i = tab then
        inserted tableEnd (s.rows id tab) (valuesOf jobs i content)
      else s.rows id tab := by
  simp only [State.appended]
  by_cases there : target.id = id
  · subst there
    rw [Function.update_self]
    by_cases same : title jobs i = tab
    · subst same
      rw [Function.update_self, if_pos ⟨rfl, rfl⟩]
    · rw [Function.update_of_ne (Ne.symm same), if_neg fun both => same both.2]
  · rw [Function.update_of_ne (Ne.symm there), if_neg fun both => there both.1]

/-- The first append to an empty tab brings the header row. -/
theorem Sound.first_headed (sound : Sound filled tableEnd jobs opening s) {i : Nat} {target : Target}
    {content : Bool} (probed : s.phase i = .probed target content)
    (empty : opening target.id (title jobs i) = [])
    (unwritten : tabLog jobs s target.id (title jobs i) = []) : content = false := by
  cases content with
  | false => rfl
  | true =>
    have held := sound.content i target probed
    rw [sound.contents, empty, unwritten] at held
    cases held

theorem Sound.appended (takesIn : TakesIn filled tableEnd)
    (sound : Sound filled tableEnd jobs opening s) {i : Nat} {reply : Reply} {target : Target}
    {content : Bool} (probed : s.phase i = .probed target content) :
    Sound filled tableEnd jobs opening ((s.appended tableEnd jobs i target content).proceed i reply.message?
      (.returned (resultOf jobs i target content))) := by
  have open_ : ¬Ended (s.phase i) := by rw [probed]; nofun
  constructor
  · intro id tab
    change (s.appended tableEnd jobs i target content).rows id tab =
      ((tabLog jobs (s.appended tableEnd jobs i target content) id tab).map (block jobs)).foldl
        (inserted tableEnd) (opening id tab)
    rw [rows_appended, tabLog_appended, List.map_append, List.foldl_append, ← sound.contents id tab]
    split
    · rw [List.map_singleton, List.foldl_cons, List.foldl_nil, block, Bool.not_not]
    · rfl
  · change ((s.log ++ [(⟨i, target.id, !content⟩ : Entry)]).map Entry.call).Nodup
    rw [List.map_append, List.nodup_append]
    refine ⟨sound.once, List.nodup_singleton _, ?_⟩
    intro j earlier k last same
    obtain ⟨entry, held, rfl⟩ := List.mem_map.mp earlier
    have now : entry.call = i := same.trans (List.mem_singleton.mp last)
    have ended := sound.logged entry held
    rw [now] at ended
    exact open_ ended
  · intro entry held
    change Ended (Function.update s.phase i _ entry.call)
    obtain earlier | last := List.mem_append.mp held
    · have ended := sound.logged entry earlier
      have other : entry.call ≠ i := by
        intro same
        rw [same] at ended
        exact open_ ended
      rw [Function.update_of_ne other]
      exact ended
    · rw [List.mem_singleton.mp last, Function.update_self]
      cases reply with
      | answered => exact .returned _
      | lost message => exact .thrown _
      | landed message => exact .thrown _
  · intro j result now
    obtain ⟨rfl, now⟩ | ⟨-, before⟩ := phase_cases now
    · cases reply with
      | answered =>
        cases now
        exact ⟨rfl, rfl, .inl (List.mem_append_right _ (List.mem_singleton.mpr rfl))⟩
      | lost message => cases now
      | landed message => cases now
    · obtain ⟨titled, counted, entered⟩ := sound.returned j result before
      exact ⟨titled, counted, entered.imp_left (List.mem_append_left _)⟩
  · intro j other now
    obtain ⟨-, now⟩ | ⟨-, before⟩ := phase_cases now
    · cases reply <;> cases now
    · change ((s.appended tableEnd jobs i target content).rows other.id (title jobs j)).head?.any filled = true
      rw [rows_appended]
      split
      · exact head_inserted takesIn (sound.content j other before)
      · exact sound.content j other before
  · intro j other now
    obtain ⟨-, now⟩ | ⟨-, before⟩ := phase_cases now
    · cases reply <;> cases now
    · exact sound.blank j other before
  · intro id tab empty first found
    change (tabLog jobs (s.appended tableEnd jobs i target content) id tab).head? = some first at found
    rw [tabLog_appended] at found
    cases earlier : tabLog jobs s id tab with
    | nil =>
      rw [earlier, List.nil_append] at found
      split at found
      · rename_i here
        obtain ⟨rfl, rfl⟩ := here
        cases found
        rw [sound.first_headed probed empty earlier]
        rfl
      · cases found
    | cons entry rest =>
      rw [earlier] at found
      exact sound.headed id tab empty first (earlier ▸ found)

theorem sound_step (takesIn : TakesIn filled tableEnd) (sound : Sound filled tableEnd jobs opening s)
    (taken : Step filled tableEnd jobs s a t) :
    Sound filled tableEnd jobs opening t := by
  cases step_moves taken with
  | quiet i phase open_ rows log phases fits => exact sound.quiet takesIn open_ rows log phases fits
  | appended i reply target content label reached probed same =>
    rw [same]
    exact sound.appended takesIn probed

theorem Sound.perm (sound : Sound filled tableEnd jobs opening s) (id tab : String) :
    (s.rows id tab).Perm (opening id tab ++ (tabLog jobs s id tab).flatMap (block jobs)) := by
  rw [sound.contents, List.flatMap_def]
  exact foldl_inserted_perm _

theorem Sound.sublist (sound : Sound filled tableEnd jobs opening s) (id tab : String) :
    (opening id tab).Sublist (s.rows id tab) := by
  rw [sound.contents]
  exact sublist_foldl_inserted _

/-- Headers are not blank, and a tab that is not empty begins with something. -/
structure Plain (filled : Row → Bool) (jobs : Nat → Job Row)
    (opening : String → String → List Row) : Prop where
  headers : ∀ i, filled (jobs i).table.headers = true
  opening : ∀ id tab, opening id tab = [] ∨ (opening id tab).head?.any filled = true

/-- A tab where a call found nothing is empty until something is appended to it. -/
theorem Sound.unwritten_iff (plain : Plain filled jobs opening)
    (sound : Sound filled tableEnd jobs opening s) {i : Nat} {target : Target} (probed : s.phase i = .probed target false) :
    s.rows target.id (title jobs i) = [] ↔ tabLog jobs s target.id (title jobs i) = [] := by
  have empty : opening target.id (title jobs i) = [] := by
    refine (plain.opening target.id (title jobs i)).resolve_right ?_
    rw [sound.blank i target probed]
    exact Bool.false_ne_true
  have all := sound.perm target.id (title jobs i)
  rw [empty, List.nil_append] at all
  constructor
  · intro nothing
    rw [nothing] at all
    cases written : tabLog jobs s target.id (title jobs i) with
    | nil => rfl
    | cons entry rest =>
      have headed := sound.headed _ _ empty entry (by rw [written]; rfl)
      rw [written, List.flatMap_cons, block, headed] at all
      cases all.nil_eq
  · intro unwritten
    rw [unwritten] at all
    exact all.eq_nil

/-- A step keeps the header row of every tab the only one exactly where it is orderly. -/
theorem headedOnce_step (plain : Plain filled jobs opening) (sound : Sound filled tableEnd jobs opening s)
    (before : HeadedOnce jobs s) (taken : Step filled tableEnd jobs s a t) :
    HeadedOnce jobs t ↔ Orderly jobs s a := by
  cases step_moves taken with
  | quiet i phase open_ rows log phases fits orderly =>
    refine iff_of_true ?_ orderly
    intro id tab
    rw [tabLog, log]
    exact before id tab
  | appended i reply target content label reached probed same =>
    subst label
    have unfolded : HeadedOnce jobs t ↔
        ∀ entry ∈ tabLog jobs s target.id (title jobs i), (!content) = false := by
      rw [same]
      constructor
      · intro once entry held
        have all := once target.id (title jobs i)
        change (tabLog jobs (s.appended tableEnd jobs i target content) _ _).Pairwise _ at all
        rw [tabLog_appended, if_pos ⟨rfl, rfl⟩, List.pairwise_append] at all
        exact all.2.2 entry held _ (List.mem_singleton.mpr rfl)
      · intro plainly id tab
        change (tabLog jobs (s.appended tableEnd jobs i target content) id tab).Pairwise _
        rw [tabLog_appended]
        split
        · rename_i here
          obtain ⟨rfl, rfl⟩ := here
          refine List.pairwise_append.mpr ⟨before _ _, List.pairwise_singleton _ _, ?_⟩
          intro entry held last now
          rw [List.mem_singleton.mp now]
          exact plainly entry held
        · rw [List.append_nil]
          exact before id tab
    rw [unfolded]
    cases content with
    | true =>
      refine iff_of_true (fun _ _ => rfl) ?_
      intro _ other held
      cases probed.symm.trans held
    | false =>
      constructor
      · intro none_ _ other held
        cases probed.symm.trans held
        refine (sound.unwritten_iff plain probed).mpr (List.eq_nil_iff_forall_not_mem.mpr ?_)
        intro entry written
        exact absurd (none_ entry written) nofun
      · intro orderly entry held
        have nothing := (sound.unwritten_iff plain probed).mp (orderly reached target probed)
        rw [nothing] at held
        cases held

theorem headedOnce_start (titles : String → Option (List String)) :
    HeadedOnce jobs (start titles opening) := fun _ _ => .nil

/-- A tab has what it was left with, in its order, and besides that what the calls appended, each of
them once at most: one below the other where no row of it all is without its first cell. A call that
returns has appended what it says, and the header row of a tab comes once exactly where every call
that found the tab empty appends to it while it is. -/
theorem tabs_are_logs {titles : String → Option (List String)}
    {steps : List (Transition (State Row) Act)} (takesIn : TakesIn filled tableEnd)
    (plain : Plain filled jobs opening)
    (run : Run (Step filled tableEnd jobs) (start titles opening) steps s) :
    (∀ id tab, (opening id tab).Sublist (s.rows id tab) ∧
      (s.rows id tab).Perm (opening id tab ++ (tabLog jobs s id tab).flatMap (block jobs))) ∧
      (∀ id tab, (∀ row ∈ s.rows id tab, filled row = true) →
        s.rows id tab = opening id tab ++ (tabLog jobs s id tab).flatMap (block jobs)) ∧
      (s.log.map Entry.call).Nodup ∧
      (∀ i result, s.phase i = .returned result →
        result.sheetTitle = title jobs i ∧ result.rowsAppended = (jobs i).table.rows.length ∧
          (⟨i, result.spreadsheetId, result.headerWritten⟩ ∈ s.log ∨
            result.headerWritten = false ∧ (jobs i).table.rows = [])) ∧
      ((∀ x ∈ steps, HeadedOnce jobs x.post) ↔ ∀ x ∈ steps, Orderly jobs x.pre x.label) := by
  have sound : Sound filled tableEnd jobs opening s :=
    run.invariant (sound_start titles) fun _ _ _ sound taken => sound_step takesIn sound taken
  refine ⟨fun id tab => ⟨sound.sublist id tab, sound.perm id tab⟩, fun id tab all => ?_, sound.once,
    sound.returned, ?_⟩
  · have each : ∀ row ∈ opening id tab ++ (tabLog jobs s id tab).flatMap (block jobs),
        filled row = true := fun row there => all row ((sound.perm id tab).mem_iff.mpr there)
    rw [List.flatMap_def] at each ⊢
    rw [sound.contents]
    exact foldl_inserted_filled takesIn each
  · exact run.states_iff (HeadedOnce jobs) (Orderly jobs) (sound_start titles)
      (fun _ _ _ sound taken => sound_step takesIn sound taken) (headedOnce_start titles)
      fun _ _ _ sound before taken => headedOnce_step plain sound before taken

end

/-- Two exports of one spend row each to the tab "Spend" of an empty spreadsheet. -/
def spendJobs (i : Nat) : Job (List String) where
  destination := ⟨some "sheet", "Spend export", "Spend"⟩
  table := ⟨["Day", "Spend"], [[if i = 0 then "Monday" else "Tuesday", "12"]]⟩

def spendTitles : String → Option (List String) := fun _ => some ["Spend"]

def cellFilled (row : List String) : Bool := row.head?.any fun cell => cell != ""

/-- The rows up to the first gap. -/
def gapless (rows : List (List String)) : Nat := (rows.takeWhile cellFilled).length

theorem gapless_takesIn : TakesIn cellFilled gapless := by
  intro above below all
  rw [gapless, List.takeWhile_append_of_pos all, List.length_append]
  exact Nat.le_add_right ..

-- below a gap, the rows of before end up under the new ones
example : inserted gapless [["Day", "Spend"], ["", ""], ["Total", "30"]] [["Monday", "12"]] =
    [["Day", "Spend"], ["Monday", "12"], ["", ""], ["Total", "30"]] := by decide

theorem spend_plain : Plain cellFilled spendJobs fun _ _ => [] where
  headers _ := rfl
  opening _ _ := .inl rfl

theorem spend_headed_twice : ∃ steps s,
    Run (Step cellFilled gapless spendJobs) (start spendTitles fun _ _ => []) steps s ∧
      s.rows "sheet" "Spend" =
        [["Day", "Spend"], ["Monday", "12"], ["Day", "Spend"], ["Tuesday", "12"]] ∧
      ¬∀ x ∈ steps, Orderly spendJobs x.pre x.label := by
  have ran : ∃ r, follow (step cellFilled gapless spendJobs) (start spendTitles fun _ _ => [])
      [.open 0, .open 1, .getSpreadsheet 0 none none, .getSpreadsheet 1 none none,
        .addSheet 0 .answered, .addSheet 1 .answered, .hasContent 0 none, .hasContent 1 none,
        .append 0 .answered, .append 1 .answered] = some r := ⟨_, rfl⟩
  obtain ⟨⟨steps, s⟩, taken⟩ := ran
  have run := follow_run taken
  refine ⟨steps, s, run, ?_, ?_⟩
  · cases taken
    decide +kernel
  · rw [← (tabs_are_logs gapless_takesIn spend_plain run).2.2.2.2]
    intro once
    cases taken
    have last := once _ (List.mem_of_getLast? rfl) "sheet" "Spend"
    revert last
    decide +kernel

end

end Gomer.SheetLog
