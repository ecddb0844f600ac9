/-
# `Schedule.Pages` — the pages of the calendar

A page of the calendar is a month, and two views show it: the grid
(`_CalendarState.build`) and the header (`_MonthYearState.build`).  Both have
`10 * 12` pages and decode the month and the year from the index of the page;
`getPageIndex` encodes them.

    encode   indexOf yearlist year * 12 + (month - 1)
    decode   month  p % 12 + 1     year  yearlist[p ~/ 12]

The year list has eleven years and the views have pages for ten, so a date has a
page exactly when its year is in 2015 … 2024 (`pages_iff`); a later one is sent
behind the last page, and a year outside the list to one of the indices -12 … -1.
A greyed cell leads to a page next to its own exactly when, further, it lies in
a month next to that of the page.  With a constant offset it always does.
-/
import CalendarApp.Schedule.Grid

namespace CalendarApp

open Lib

/-- `itemCount` of both views: 10 years, 12 months. -/
def pageCount : Nat := 10 * 12

/-- `gridyear` of a page; an index outside the list throws. -/
def gridyear (position : Nat) : Option Int := yearlist[position / 12]?

/-- `gridmonth` of a page. -/
def gridmonth (position : Nat) : Int := (position % 12 : Nat) + 1

/-- The text of the header on a page. -/
def headerText (position : Nat) : Option String :=
  monthlist[position % 12]?.bind fun month =>
    yearlist[position / 12]?.map fun year => month ++ ", " ++ toString year

/-- The name of the month and the year of a date. -/
def monthYearOf (z : Zone) (d : Int) : Option String :=
  monthlist[((z.date d).month - 1).toNat]?.map fun month =>
    month ++ ", " ++ toString (z.date d).year

/-- The index of a date is a page, and both views decode the date's month and
year from it. -/
def OwnPage (z : Zone) (d : Int) : Prop :=
  ∃ p : Nat, getPageIndex z d = p ∧ p < pageCount ∧ gridyear p = some (z.date d).year ∧
    gridmonth p = (z.date d).month ∧ headerText p = monthYearOf z d

/-- The year is one of those the pages are for. -/
def InYears (z : Zone) (d : Int) : Prop := 2015 ≤ (z.date d).year ∧ (z.date d).year ≤ 2024

instance (z : Zone) (d : Int) : Decidable (InYears z d) := inferInstanceAs (Decidable (_ ∧ _))

/-- The number of the month of a date, counted from the month of page 0. -/
def monthNumber (z : Zone) (d : Int) : Int :=
  ((z.date d).year - 2015) * 12 + ((z.date d).month - 1)

/-- The date is in the month before or after that of the page. -/
def Beside (z : Zone) (p : Nat) (d : Int) : Prop :=
  monthNumber z d = (p : Int) - 1 ∨ monthNumber z d = (p : Int) + 1

/-- Tapping the greyed cell of a date moves from page `p` to the one before or
after it, and that is the page of the date. -/
def MovesBeside (z : Zone) (p : Nat) (d : Int) : Prop :=
  OwnPage z d ∧ (getPageIndex z d = (p : Int) - 1 ∨ getPageIndex z d = (p : Int) + 1)

/-! ## Encoding -/

theorem indexOf_yearlist {y : Int} (h₁ : 2015 ≤ y) (h₂ : y ≤ 2025) :
    indexOf yearlist y = y - 2015 := by
  interval_cases y <;> rfl

variable {z : Zone} {d : Int}

theorem month_range (z : Zone) (d : Int) : 1 ≤ (z.date d).month ∧ (z.date d).month ≤ 12 := by
  obtain ⟨h₁, h₂, -, -⟩ := dateOf_valid (z.day d)
  exact ⟨h₁, h₂⟩

theorem getPageIndex_eq (h₁ : 2015 ≤ (z.date d).year) (h₂ : (z.date d).year ≤ 2025) :
    getPageIndex z d = monthNumber z d := by
  rw [getPageIndex, indexOf_yearlist h₁ h₂, monthNumber]

/-- Any other year is taken for the one before the list. -/
theorem getPageIndex_outside (h : (z.date d).year ∉ yearlist) :
    -12 ≤ getPageIndex z d ∧ getPageIndex z d ≤ -1 := by
  have hmonth := month_range z d
  rw [getPageIndex, indexOf_of_not_mem h]
  omega

/-! ## Decoding -/

/-- The year and the month that the views decode from a page. -/
theorem decode_page {p : Nat} (hp : p < pageCount) :
    gridyear p = some ((2015 : Int) + (p / 12 : Nat)) ∧ gridmonth p = (p % 12 : Nat) + 1 := by
  have hyear : p / 12 < 10 := Nat.div_lt_of_lt_mul hp
  refine ⟨?_, rfl⟩
  rw [gridyear]
  generalize p / 12 = year at *
  interval_cases year <;> rfl

theorem ownPage_iff : OwnPage z d ↔ InYears z d := by
  obtain ⟨hm₁, hm₂⟩ := month_range z d
  constructor
  · rintro ⟨p, -, hp, hyear, -, -⟩
    rw [(decode_page hp).1] at hyear
    have hlt : p / 12 < 10 := Nat.div_lt_of_lt_mul hp
    rw [InYears, ← Option.some.inj hyear]
    omega
  · rintro ⟨h₁, h₂⟩
    have hindex := getPageIndex_eq h₁ (by omega)
    rw [monthNumber] at hindex
    have hcount : pageCount = 120 := rfl
    have hp : (getPageIndex z d).toNat < pageCount := by omega
    have hdiv : ((getPageIndex z d).toNat / 12 : Nat) = (z.date d).year - 2015 := by omega
    have hmod : ((getPageIndex z d).toNat % 12 : Nat) = ((z.date d).month - 1).toNat := by omega
    have hyear : yearlist[(getPageIndex z d).toNat / 12]? = some (z.date d).year :=
      (decode_page hp).1.trans (congrArg some (by omega))
    refine ⟨(getPageIndex z d).toNat, by omega, hp, hyear, by rw [gridmonth]; omega, ?_⟩
    rw [headerText, hmod, hyear, monthYearOf]
    cases monthlist[((z.date d).month - 1).toNat]? <;> rfl

/-! ## Greyed cells -/

theorem movesBeside_iff (p : Nat) : MovesBeside z p d ↔ InYears z d ∧ Beside z p d := by
  rw [MovesBeside, ownPage_iff, Beside]
  constructor
  · rintro ⟨hyears, hmove⟩
    rw [getPageIndex_eq hyears.1 (by have := hyears.2; omega)] at hmove
    exact ⟨hyears, hmove⟩
  · rintro ⟨hyears, hbeside⟩
    rw [getPageIndex_eq hyears.1 (by have := hyears.2; omega)]
    exact ⟨hyears, hbeside⟩

/-- With a constant offset, the greyed cells of a page are in the months beside
it. -/
theorem beside_of_greyed {k : Int} {p : Nat} (hp : p < pageCount) {y : Int}
    (hyear : gridyear p = some y) {items : List Days.Item}
    (hbuild : Days.build (Zone.fixed k) (gridmonth p) y = some items) {cur : Int}
    (hmem : .day true cur ∈ items) : Beside (Zone.fixed k) p cur := by
  obtain rfl := Option.some.inj ((decode_page hp).1.symm.trans hyear)
  obtain ⟨n, rfl, hfirst, hlast, hgreyed⟩ :=
    Days.mem_build_fixed (by rw [gridmonth]; omega) (by rw [gridmonth]; omega) hbuild hmem
  have hnot := hgreyed.mp rfl
  have hmonday := weekday_range (rolledDay (2015 + (p / 12 : Nat)) (gridmonth p) 1)
  have hsunday := weekday_range (rolledDay (2015 + (p / 12 : Nat)) (gridmonth p + 1) 0)
  -- the month of the page is the one numbered `m`; the cells reach six days beyond it
  generalize hm : (2015 + (p / 12 : Nat) : Int) * 12 + (gridmonth p - 1) = m at *
  have hm' : m = 2015 * 12 + p := by
    rw [← hm, gridmonth]
    omega
  rw [Days.firstCell, rolledDay_monthStart, hm] at hfirst
  rw [rolledDay_monthStart, hm] at hmonday
  have hnext : (2015 + (p / 12 : Nat) : Int) * 12 + (gridmonth p + 1 - 1) = m + 1 := by omega
  rw [rolledDay_zero, rolledDay_monthStart, hnext] at hlast hsunday
  have hsame : (dateOf n).year * 12 + ((dateOf n).month - 1) ≠ m := by
    intro hc
    have hmonth := month_range (Zone.fixed k) ((Zone.fixed k).midnight n)
    rw [Days.date_midnight] at hmonth
    refine hnot ?_
    rw [gridmonth] at hm ⊢
    omega
  have hin := (dateOf_monthStart_iff (m := m) (n := n)).not.mp hsame
  have hbefore := monthStart_succ (m - 1)
  have hafter := monthStart_succ (m + 1)
  rw [Int.sub_add_cancel] at hbefore
  rw [Beside, monthNumber, Days.date_midnight]
  by_cases hearly : n < monthStart m
  · have hmonth := (dateOf_monthStart_iff (m := m - 1) (n := n)).mpr
      ⟨by omega, by rw [Int.sub_add_cancel]; exact hearly⟩
    left
    omega
  · have hmonth := (dateOf_monthStart_iff (m := m + 1) (n := n)).mpr ⟨by omega, by omega⟩
    right
    omega

/-! ## Every date and its page -/

/-- A date has its own page exactly when its year is in 2015 … 2024; these dates
share an index only within a month; and a greyed cell moves to the page before
or after its own exactly when its date is such a date in a month beside it,
which with a constant offset it always is. -/
theorem pages_iff (z : Zone) :
    (∀ d, OwnPage z d ↔ InYears z d) ∧
    (∀ d d', InYears z d → InYears z d' → getPageIndex z d = getPageIndex z d' →
      (z.date d).year = (z.date d').year ∧ (z.date d).month = (z.date d').month) ∧
    (∀ p < pageCount, ∀ y, gridyear p = some y →
      ∀ items, Days.build z (gridmonth p) y = some items → ∀ cur, .day true cur ∈ items →
        (MovesBeside z p cur ↔ InYears z cur ∧ Beside z p cur) ∧
          ((∃ k, z = Zone.fixed k) → Beside z p cur)) := by
  refine ⟨fun d => ownPage_iff, ?_, ?_⟩
  · intro d d' hd hd' hindex
    have hmonth := month_range z d
    have hmonth' := month_range z d'
    rw [getPageIndex_eq hd.1 (by have := hd.2; omega),
      getPageIndex_eq hd'.1 (by have := hd'.2; omega), monthNumber, monthNumber] at hindex
    omega
  · intro p hp y hyear items hbuild cur hmem
    refine ⟨movesBeside_iff p, ?_⟩
    rintro ⟨k, rfl⟩
    exact beside_of_greyed hp hyear hbuild hmem

/-- On New Year's Day 2025 the calendar is opened on page 120 of 120. -/
theorem pages_newYear_fails : ¬ ∀ (z : Zone) (now : Int), OwnPage z now := by
  intro h
  have hyears := ownPage_iff.mp (h (Zone.fixed 0) 1735689600000)
  exact absurd hyears (by decide)

/-- A greyed cell of the last page, and one of the first. -/
example : getPageIndex (Zone.fixed 0) 1735689600000 = pageCount ∧
    getPageIndex (Zone.fixed 0) 1419897600000 = -1 := by decide

end CalendarApp
