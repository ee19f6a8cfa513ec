import Mathlib.Order.ConditionallyCompleteLattice.Finset
import Mathlib.Data.Int.Interval
import Mathlib.Data.Int.ConditionallyCompleteOrder
import Gomer.Lib.Calendar

/-! The windows of days over which rules, exports and the monitor ask for insights. Times are in
milliseconds. -/
namespace Gomer.Lookback

open Calendar

/-- Both ends are included. -/
structure InsightsWindow where
  since : String
  til : String
  deriving DecidableEq, Repr

def dayMs : Int := 24 * 60 * 60 * 1000

/-- The UTC day of a time. -/
def today (now : Int) : Int := now / dayMs

def date (time : Int) : String := isoDay (time / dayMs)

def RulesService.window (now days : Int) : InsightsWindow :=
  ⟨date (now - days * dayMs), date now⟩

def ExportsService.daysAgo (now days : Int) : Int := now - days * dayMs

/-- `later` is the second reading of the clock, in `daysAgo`. -/
def ExportsService.window (now later days : Int) : InsightsWindow :=
  ⟨date (ExportsService.daysAgo later days), date now⟩

def MonitoringService.isoDaysAgo (now days : Int) : String := date (now - days * dayMs)

/-- The baseline of the monitor; each end reads the clock. -/
def MonitoringService.baseline (now later : Int) : InsightsWindow :=
  ⟨MonitoringService.isoDaysAgo now 7, MonitoringService.isoDaysAgo later 1⟩

/-- A text of the form that Meta and `RoasService` read as one UTC day. -/
def Names (text : String) (day : Int) : Prop :=
  text = isoDay day ∧ 0 ≤ (civil day).year ∧ (civil day).year ≤ 9999

/-- Exactly `n` days, of which `last` is the last one. -/
def Covers (window : InsightsWindow) (n last : Int) : Prop :=
  ∃ first, Names window.since first ∧ Names window.til last ∧ (Finset.Icc first last).card = n

theorem day_sub (time days : Int) : (time - days * dayMs) / dayMs = time / dayMs - days := by
  unfold dayMs
  omega

/-- A window whose first day is known has as many days as there are from it on. -/
theorem covers_iff {window : InsightsWindow} {n first last : Int} (since : window.since = isoDay first)
    (til : window.til = isoDay last) (positive : 1 ≤ n) :
    Covers window n last ↔ (0 ≤ (civil first).year ∧ (civil first).year ≤ 9999) ∧
      (0 ≤ (civil last).year ∧ (civil last).year ≤ 9999) ∧ n = last - first + 1 := by
  constructor
  · rintro ⟨day, ⟨named, plain⟩, ⟨-, plainLast⟩, days⟩
    have same := isoDay_inj plain (since.symm.trans named)
    rw [Int.card_Icc] at days
    subst same
    exact ⟨plain, plainLast, by omega⟩
  · rintro ⟨plain, plainLast, days⟩
    refine ⟨first, ⟨since, plain⟩, ⟨til, plainLast⟩, ?_⟩
    rw [Int.card_Icc]
    omega

/-- The sibling of the two windows counts its seven days. -/
theorem baseline_covers (now : Int) (plain : 0 ≤ (civil (today now - 7)).year)
    (common : (civil (today now - 1)).year ≤ 9999) :
    Covers (MonitoringService.baseline now now) 7 (today now - 1) := by
  have since : (MonitoringService.baseline now now).since = isoDay (today now - 7) :=
    congrArg isoDay (day_sub now 7)
  have til : (MonitoringService.baseline now now).til = isoDay (today now - 1) :=
    congrArg isoDay (day_sub now 1)
  have mono := yearFromDay_mono (show today now - 7 ≤ today now - 1 by omega)
  simp only [civil] at plain common
  refine (covers_iff since til (by decide)).mpr ⟨⟨plain, ?_⟩, ⟨?_, common⟩, by omega⟩
  · exact mono.trans common
  · exact plain.trans mono

/-- Neither window has `n` days: both start a day too early. Only a midnight between the two readings
of the clock makes the one of an export right. -/
theorem windows_one_too_many (now later : Int) {n : Int} (positive : 1 ≤ n) :
    ¬ Covers (RulesService.window now n) n (today now) ∧
      (Covers (ExportsService.window now later n) n (today now) → today later = today now + 1) := by
  have rules : (RulesService.window now n).since = isoDay (today now - n) :=
    congrArg isoDay (day_sub now n)
  have exports : (ExportsService.window now later n).since = isoDay (today later - n) :=
    congrArg isoDay (day_sub later n)
  have rulesTil : (RulesService.window now n).til = isoDay (today now) := rfl
  have exportsTil : (ExportsService.window now later n).til = isoDay (today now) := rfl
  rw [covers_iff rules rulesTil positive, covers_iff exports exportsTil positive]
  constructor
  · rintro ⟨-, -, days⟩
    omega
  · rintro ⟨-, -, days⟩
    omega

theorem one_day_is_two : ¬ Covers (RulesService.window 1783166400000 1) 1 (today 1783166400000) ∧
    (Covers (ExportsService.window 1783166400000 1783166400000 1) 1 (today 1783166400000) →
      today 1783166400000 = today 1783166400000 + 1) :=
  windows_one_too_many 1783166400000 1783166400000 (by decide)

/-- The last three days at 2026-07-04T12:00:00Z begin on the first, which makes four. -/
theorem three_days_are_four :
    RulesService.window 1783166400000 3 = ⟨"2026-07-01", "2026-07-04"⟩ ∧
      ExportsService.window 1783166400000 1783166400000 3 = ⟨"2026-07-01", "2026-07-04"⟩ ∧
      ¬ Covers (RulesService.window 1783166400000 3) 3 (today 1783166400000) := by
  refine ⟨by decide +kernel, by decide +kernel, ?_⟩
  have since : (RulesService.window 1783166400000 3).since = isoDay (today 1783166400000 - 3) :=
    congrArg isoDay (day_sub 1783166400000 3)
  have til : (RulesService.window 1783166400000 3).til = isoDay (today 1783166400000) := rfl
  rw [covers_iff since til (by decide)]
  rintro ⟨-, -, days⟩
  omega

end Gomer.Lookback
