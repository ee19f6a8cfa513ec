import Mathlib.Data.Finset.Card
import Gomer.Lib.Json
import Gomer.Lib.Rounding
import Gomer.Lib.Tally
import Gomer.Database.Entities

/-! `StripeService`: the revenue of a window, added up over the pages of the charge list. Amounts
are integers of minor units; their sums stay far below `2 ^ 53`, where doubles add exactly. -/
namespace Gomer.StripeService

open JsNumber

def PAGE_LIMIT : Nat := 100

def MAX_PAGES : Nat := 10

def ZERO_DECIMAL : List String :=
  ["bif", "clp", "djf", "gnf", "jpy", "kmf", "krw", "mga", "pyg", "rwf", "ugx", "vnd", "vuv", "xaf",
    "xof", "xpf"]

structure StripeRevenueByCurrency where
  currency : String
  grossRevenue : Double
  refunded : Double
  netRevenue : Double
  charges : Nat
  uniqueCustomers : Nat
  deriving DecidableEq

structure StripeRevenueResult where
  byCurrency : List StripeRevenueByCurrency
  truncated : Bool
  deriving DecidableEq

structure StripeCharge where
  id : String
  amount : Int
  amount_refunded : Int
  currency : String
  status : String
  paid : Bool
  customer : Option String
  deriving DecidableEq, Repr

structure Query where
  limit : Nat
  createdGte : Int
  createdLte : Int
  starting_after : Option String
  deriving DecidableEq, Repr

structure Page where
  data : List StripeCharge
  has_more : Bool

/-- `error` is the envelope, with the message that it may carry. -/
structure Response where
  ok : Bool
  status : Nat
  error : Option (Option String)
  body : Page

def get (res : Response) : Except String Page :=
  if !res.ok || res.error.isSome then
    .error (res.error.join.getD s!"Stripe API error (HTTP {res.status})")
  else .ok res.body

/-- An amount is an integer, and `Math.round` leaves it. -/
def toMajor (amount : Int) (currency : String) : Double :=
  if currency ∈ ZERO_DECIMAL then nearest amount else nearest (amount / 100)

structure Entry where
  gross : Int
  refunded : Int
  charges : Nat
  customers : Finset String
  deriving DecidableEq

def Entry.empty : Entry := ⟨0, 0, 0, ∅⟩

def Entry.add (entry : Entry) (charge : StripeCharge) : Entry where
  gross := entry.gross + charge.amount
  refunded := entry.refunded + charge.amount_refunded
  charges := entry.charges + 1
  customers :=
    match nonEmpty charge.customer with
    | some customer => insert customer entry.customers
    | none => entry.customers

def StripeCharge.counts (charge : StripeCharge) : Bool :=
  charge.status == "succeeded" && charge.paid

/-- Currency codes are ASCII. -/
def StripeCharge.code (charge : StripeCharge) : String := charge.currency.toLower

def addCharge (totals : List (String × Entry)) (charge : StripeCharge) : List (String × Entry) :=
  if charge.counts then Tally.count StripeCharge.code Entry.add .empty totals charge else totals

def query (since til : Instant) (startingAfter : Option String) : Query where
  limit := PAGE_LIMIT
  createdGte := since / 1000
  createdLte := til / 1000
  starting_after := nonEmpty startingAfter

structure Paging where
  totals : List (String × Entry)
  startingAfter : Option String
  truncated : Bool

/-- The loop, with the number of pages that it may still fetch. -/
def readPages (fetch : Query → Response) (since til : Instant) : Nat → Paging → Except String Paging
  | 0, paging => .ok paging
  | left + 1, paging =>
    match get (fetch (query since til paging.startingAfter)) with
    | .error message => .error message
    | .ok body =>
      let totals := body.data.foldl addCharge paging.totals
      match body.has_more, body.data.getLast? with
      | true, some last =>
        readPages fetch since til left
          { totals, startingAfter := some last.id, truncated := paging.truncated || left == 0 }
      | _, _ => .ok { paging with totals }

def revenueRow (entry : String × Entry) : StripeRevenueByCurrency where
  currency := entry.1
  grossRevenue := toMajor entry.2.gross entry.1
  refunded := toMajor entry.2.refunded entry.1
  netRevenue := toMajor (entry.2.gross - entry.2.refunded) entry.1
  charges := entry.2.charges
  uniqueCustomers := entry.2.customers.card

def getRevenue (fetch : Query → Response) (since til : Instant) : Except String StripeRevenueResult :=
  match readPages fetch since til MAX_PAGES ⟨[], none, false⟩ with
  | .error message => .error message
  | .ok paging => .ok ⟨paging.totals.map revenueRow, paging.truncated⟩

/-! What Stripe answers -/

/-- The first page of what is left of a list: it is filled up to the limit, and says whether more
remains behind it. -/
structure Answers (res : Response) (rest : List StripeCharge) : Prop where
  ok : res.ok = true
  error : res.error = none
  order : res.body.data <+: rest
  filled : res.body.data.length = min PAGE_LIMIT rest.length
  more : res.body.has_more = true ↔ res.body.data.length < rest.length

/-- The list of the window, in its fixed order; a cursor names the last charge before a page. -/
structure Serves (fetch : Query → Response) (since til : Instant) (charges : List StripeCharge) :
    Prop where
  named : ∀ charge ∈ charges, charge.id ≠ ""
  page : ∀ before rest, charges = before ++ rest →
    Answers (fetch (query since til (before.getLast?.map StripeCharge.id))) rest

/-- What the list has after a cursor. -/
def remaining (charges : List StripeCharge) : Option String → List StripeCharge
  | none => charges
  | some id => (charges.dropWhile fun charge : StripeCharge => charge.id != id).tail

/-- A server of a list, by its documentation. -/
def listCharges (charges : List StripeCharge) (q : Query) : Response :=
  let rest := remaining charges q.starting_after
  ⟨true, 200, none, ⟨rest.take q.limit, q.limit < rest.length⟩⟩

theorem remaining_append {before rest : List StripeCharge}
    (distinct : ((before ++ rest).map StripeCharge.id).Nodup)
    (named : ∀ charge ∈ before ++ rest, charge.id ≠ "") :
    remaining (before ++ rest) (nonEmpty (before.getLast?.map StripeCharge.id)) = rest := by
  cases before using List.reverseRecOn with
  | nil => rfl
  | append_singleton before last _ =>
    have text : last.id ≠ "" := named last (by simp)
    have skipped : ∀ charge ∈ before, (charge.id != last.id) = true := by
      intro charge earlier
      apply bne_iff_ne.mpr
      intro same
      rw [List.append_assoc, List.map_append] at distinct
      exact (List.nodup_append.mp distinct).2.2 _ (List.mem_map_of_mem earlier) _
        (List.mem_map_of_mem (List.mem_append_left _ (List.mem_singleton_self last))) same
    have cursor : nonEmpty ((before ++ [last]).getLast?.map StripeCharge.id) = some last.id := by
      simp [nonEmpty, text]
    rw [cursor, remaining, List.append_assoc, List.dropWhile_append_of_pos skipped]
    simp

theorem listCharges_serves {charges : List StripeCharge} (since til : Instant)
    (distinct : (charges.map StripeCharge.id).Nodup) (named : ∀ charge ∈ charges, charge.id ≠ "") :
    Serves (listCharges charges) since til charges := by
  refine ⟨named, ?_⟩
  intro before rest parts
  subst parts
  unfold listCharges
  simp only [query, remaining_append distinct named]
  refine ⟨rfl, rfl, List.take_prefix _ _, List.length_take, ?_⟩
  rw [decide_eq_true_iff, List.length_take]
  omega

/-! The run -/

/-- The totals of the charges that count. -/
def totalsOf (rows : List StripeCharge) : List (String × Entry) :=
  Tally.total StripeCharge.code Entry.add .empty (rows.filter StripeCharge.counts)

theorem foldl_addCharge (earlier charges : List StripeCharge) :
    charges.foldl addCharge (totalsOf earlier) = totalsOf (earlier ++ charges) := by
  have only : ∀ totals, charges.foldl addCharge totals =
      (charges.filter StripeCharge.counts).foldl
        (Tally.count StripeCharge.code Entry.add .empty) totals := by
    intro totals
    rw [List.foldl_filter]
    rfl
  rw [only, totalsOf, Tally.foldl_count, totalsOf, List.filter_append]

theorem get_answered {res : Response} {rest : List StripeCharge} (answers : Answers res rest) :
    get res = .ok res.body := by
  simp [get, answers.ok, answers.error]

/-- A page is the list up to the limit. -/
theorem Answers.data {res : Response} {rest : List StripeCharge} (answers : Answers res rest) :
    res.body.data = rest.take PAGE_LIMIT := by
  have part := List.prefix_iff_eq_take.mp answers.order
  rw [answers.filled, List.take_eq_take_min, min_assoc, min_self, ← List.take_eq_take_min] at part
  exact part

theorem Answers.has_more {res : Response} {rest : List StripeCharge} (answers : Answers res rest) :
    res.body.has_more = decide (PAGE_LIMIT < rest.length) := by
  rw [Bool.eq_iff_iff, answers.more, answers.filled, decide_eq_true_iff]
  omega

/-- Where the loop stands when it has read the charges `before` a page. -/
def pagingAfter (before : List StripeCharge) (truncated : Bool) : Paging :=
  ⟨totalsOf before, before.getLast?.map StripeCharge.id, truncated⟩

section
variable {fetch : Query → Response} {since til : Instant} {charges before rest : List StripeCharge}
  (serves : Serves fetch since til charges) (parts : charges = before ++ rest) (left : Nat)
include serves parts

/-- A page that is the last one. -/
theorem readPages_last (few : rest.length ≤ PAGE_LIMIT) :
    readPages fetch since til (left + 1) (pagingAfter before false) =
      .ok { pagingAfter before false with totals := totalsOf (before ++ rest) } := by
  have answers := serves.page before rest parts
  have done := answers.has_more
  rw [decide_eq_false (by omega)] at done
  unfold readPages
  simp only [pagingAfter, get_answered answers, done]
  rw [answers.data, List.take_of_length_le few, foldl_addCharge]

/-- A page with more behind it. -/
theorem readPages_more (more : PAGE_LIMIT < rest.length) :
    readPages fetch since til (left + 1) (pagingAfter before false) =
      readPages fetch since til left
        (pagingAfter (before ++ rest.take PAGE_LIMIT) (left == 0)) := by
  have answers := serves.page before rest parts
  have flag := answers.has_more
  rw [decide_eq_true more] at flag
  have filled : (rest.take PAGE_LIMIT).length ≠ 0 := by
    rw [List.length_take, Nat.min_eq_left more.le]
    decide
  obtain ⟨last, ends⟩ : ∃ last, (rest.take PAGE_LIMIT).getLast? = some last :=
    ⟨_, List.getLast?_eq_some_getLast (List.ne_nil_of_length_pos (Nat.pos_of_ne_zero filled))⟩
  conv_lhs => unfold readPages
  simp only [pagingAfter, get_answered answers, flag, answers.data, ends, foldl_addCharge,
    Bool.false_or, List.getLast?_append, Option.some_or, Option.map_some]

/-- What the pages that are left read of the charges that are left. -/
theorem readPages_reads : ∃ paging,
    readPages fetch since til (left + 1) (pagingAfter before false) = .ok paging ∧
      paging.totals = totalsOf (before ++ rest.take ((left + 1) * PAGE_LIMIT)) ∧
      paging.truncated = decide ((left + 1) * PAGE_LIMIT < rest.length) := by
  induction left generalizing before rest with
  | zero =>
    rw [zero_add, one_mul]
    obtain few | more := le_or_gt rest.length PAGE_LIMIT
    · refine ⟨_, readPages_last serves parts 0 few, ?_, ?_⟩
      · rw [List.take_of_length_le few]
      · exact (decide_eq_false (not_lt.mpr few)).symm
    · refine ⟨_, readPages_more serves parts 0 more, rfl, ?_⟩
      exact (decide_eq_true more).symm
  | succ left ih =>
    have pages : (left + 1 + 1) * PAGE_LIMIT = PAGE_LIMIT + (left + 1) * PAGE_LIMIT := by
      rw [Nat.succ_mul, Nat.add_comm]
    obtain few | more := le_or_gt rest.length PAGE_LIMIT
    · refine ⟨_, readPages_last serves parts _ few, ?_, ?_⟩
      · rw [List.take_of_length_le (by omega)]
      · exact (decide_eq_false (by omega)).symm
    · have next : charges = (before ++ rest.take PAGE_LIMIT) ++ rest.drop PAGE_LIMIT := by
        rw [List.append_assoc, List.take_append_drop]
        exact parts
      obtain ⟨paging, run, totals, truncated⟩ := ih next
      refine ⟨paging, (readPages_more serves parts _ more).trans run, ?_, ?_⟩
      · rw [totals, pages, List.take_add, List.append_assoc]
      · rw [truncated, pages, List.length_drop]
        congr 1
        apply propext
        omega

end

/-- An amount in major units: the hundredth part of it, or the amount itself in a currency without
minor units. -/
def major (amount : Int) (currency : String) : ℚ :=
  if currency ∈ ZERO_DECIMAL then amount else amount / 100

theorem toMajor_eq (amount : Int) (currency : String) :
    toMajor amount currency = nearest (major amount currency) := by
  unfold toMajor major
  split <;> rfl

/-- The figures of a currency, each the double nearest to the exact one. -/
def revenueOf (charges : List StripeCharge) (currency : String) : StripeRevenueByCurrency :=
  let own := charges.filter fun charge => charge.code = currency
  let gross := (own.map StripeCharge.amount).sum
  let refunded := (own.map StripeCharge.amount_refunded).sum
  { currency
    grossRevenue := nearest (major gross currency)
    refunded := nearest (major refunded currency)
    netRevenue := nearest (major (gross - refunded) currency)
    charges := own.length
    uniqueCustomers := (own.filterMap fun charge => nonEmpty charge.customer).toFinset.card }

theorem foldl_add (charges : List StripeCharge) (entry : Entry) :
    charges.foldl Entry.add entry =
      ⟨entry.gross + (charges.map StripeCharge.amount).sum,
        entry.refunded + (charges.map StripeCharge.amount_refunded).sum,
        entry.charges + charges.length,
        entry.customers ∪ (charges.filterMap fun charge => nonEmpty charge.customer).toFinset⟩ := by
  induction charges generalizing entry with
  | nil => simp
  | cons charge rest ih =>
    rw [List.foldl_cons, ih]
    unfold Entry.add
    cases named : nonEmpty charge.customer <;>
      simp [named, Int.add_assoc, Nat.add_comm, Nat.add_left_comm]

theorem revenueRow_total (charges : List StripeCharge) :
    (totalsOf charges).map revenueRow =
      ((charges.filter StripeCharge.counts).map StripeCharge.code).eraseDups.map
        (revenueOf (charges.filter StripeCharge.counts)) := by
  unfold totalsOf Tally.total
  rw [List.map_map]
  apply List.map_congr_left
  intro currency _
  simp only [Function.comp_apply, revenueRow, revenueOf, foldl_add, Entry.empty, Int.zero_add,
    Nat.zero_add, Finset.empty_union, toMajor_eq]

/-- The charges that a report is about. -/
def counted (charges : List StripeCharge) : List StripeCharge :=
  (charges.take 1000).filter StripeCharge.counts

/-- Of the first thousand charges, each that has succeeded and is paid is counted once, in its
currency. -/
theorem getRevenue_first_thousand {fetch : Query → Response} {since til : Instant}
    {charges : List StripeCharge} (serves : Serves fetch since til charges) :
    ∃ result, getRevenue fetch since til = .ok result ∧
      result.byCurrency =
        ((counted charges).map StripeCharge.code).eraseDups.map (revenueOf (counted charges)) ∧
      (result.truncated = true ↔ 1000 < charges.length) := by
  obtain ⟨paging, run, totals, truncated⟩ :=
    readPages_reads serves (List.nil_append charges).symm 9
  have start : pagingAfter [] false = ⟨[], none, false⟩ := rfl
  refine ⟨⟨paging.totals.map revenueRow, paging.truncated⟩, ?_, ?_, ?_⟩
  · unfold getRevenue
    rw [← start]
    simp only [MAX_PAGES, run]
  · rw [totals, List.nil_append, revenueRow_total]
    rfl
  · rw [truncated, decide_eq_true_iff]
    rfl

def sold (id : String) (amount refunded : Int) (currency status : String) : StripeCharge where
  id := id
  amount := amount
  amount_refunded := refunded
  currency := currency
  status := status
  paid := true
  customer := some "cus_1"

def twoCurrencies : List StripeCharge :=
  [sold "ch_3" 1250 0 "usd" "succeeded", sold "ch_2" 900 0 "usd" "failed",
    sold "ch_1" 800 300 "jpy" "succeeded"]

theorem two_currencies_are_apart : ∃ result,
    getRevenue (listCharges twoCurrencies) 0 86_399_000 = .ok result ∧
      result.byCurrency = [⟨"usd", .finite (25 / 2), .finite 0, .finite (25 / 2), 1, 1⟩,
        ⟨"jpy", .finite 800, .finite 300, .finite 500, 1, 1⟩] ∧ ¬result.truncated = true := by
  have distinct : (twoCurrencies.map StripeCharge.id).Nodup := by decide
  have named : ∀ charge ∈ twoCurrencies, charge.id ≠ "" := by decide
  have figures : ((counted twoCurrencies).map StripeCharge.code).eraseDups.map
      (revenueOf (counted twoCurrencies)) =
        [⟨"usd", .finite (25 / 2), .finite 0, .finite (25 / 2), 1, 1⟩,
          ⟨"jpy", .finite 800, .finite 300, .finite 500, 1, 1⟩] := by decide +kernel
  obtain ⟨result, run, rows, cut⟩ :=
    getRevenue_first_thousand (listCharges_serves 0 86_399_000 distinct named)
  exact ⟨result, run, rows.trans figures, mt cut.mp (by decide)⟩

end Gomer.StripeService
