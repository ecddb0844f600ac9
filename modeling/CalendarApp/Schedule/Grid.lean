/-
# `Schedule.Grid` — the month grid, `_DaysState.build`

`Days(month, year)` lays out a month in rows of seven: the names of the
weekdays, and then one cell a day from the Monday at or before the first of
the month to the Sunday at or after its last.  All of it is computed from four
instants.

    startDay   0:00 on the first          calStart   startDay - (weekday - 1) days
    endDay     0:00 on day 0 of month+1   calEnd     endDay + (7 - weekday) days

`itemCount` is a difference of instants in whole days, cut off towards zero.
With a constant offset a day is 24 hours, and the grid is the calendar of the
month (`build_isCalendar`).
-/
import CalendarApp.Lib.Lists
import CalendarApp.Main

namespace CalendarApp

open Lib

namespace Days

variable (z : Zone) (month year : Int)

/-- `Duration(days: days)`. -/
def durationDays (days : Int) : Int := days * 86400000

/-- `DateTime.weekday`. -/
def weekdayOf (t : Int) : Int := weekday (z.day t)

def startDay : Int := z.dateTime year month 1

def calStart : Int :=
  startDay z month year - durationDays (weekdayOf z (startDay z month year) - 1)

def endDay : Int := z.dateTime year (month + 1) 0

def calEnd : Int := endDay z month year + durationDays (7 - weekdayOf z (endDay z month year))

/-- `calEnd.difference(calStart).inDays + 1 + 7` -/
def itemCount : Int := (calEnd z month year - calStart z month year).tdiv 86400000 + 1 + 7

/-- An item of the grid: a header cell, or `Day(notInCal, day)`. -/
inductive Item where
  | header (text : String)
  | day (notInCal : Bool) (day : Int)
  deriving DecidableEq, Repr

/-- The item is the cell of the date. -/
def Item.isOn (z : Zone) (d : Date) : Item → Bool
  | .header _ => false
  | .day _ cur => z.date cur = d

/-- The cell of the grid for a date. -/
def dayItem (cur : Int) : Item :=
  .day (cur < startDay z month year || cur > endDay z month year) cur

def itemBuilder (i : Nat) : Option Item :=
  if i < 7 then weeklistCap[i]?.map .header
  else some (dayItem z month year (calStart z month year + durationDays (i - 7)))

/-- The grid; a header without a name throws. -/
def build : Option (List Item) :=
  (List.range (itemCount z month year).toNat).mapM (itemBuilder z month year)

/-- The items are the calendar of the month: seven headers, and `weeks` weeks
of cells for the days from `first` on. -/
structure IsCalendar (items : List Item) (first : Int) (weeks : Nat) : Prop where
  /-- the headers name the days of the week -/
  headers : items.take 7 = weeklistCap.map .header
  /-- the other cells are consecutive days, each at its midnight -/
  consecutive : ∃ notInCal : Nat → Bool,
    items.drop 7 = (List.range (7 * weeks)).map fun i => .day (notInCal i) (z.midnight (first + i))
  /-- in full weeks -/
  count : 28 ≤ 7 * weeks ∧ 7 * weeks ≤ 42
  /-- a cell is on the weekday that the header of its column names -/
  column : ∀ i b cur, (items.drop 7)[i]? = some (.day b cur) →
    items[i % 7]? = weeklistCap[(weekdayOf z cur - 1).toNat]?.map .header
  /-- every date of the month has exactly one cell -/
  once : ∀ d : Date, d.Valid → d.year = year → d.month = month →
    (items.drop 7).countP (Item.isOn z d) = 1
  /-- and exactly the other cells are marked -/
  marked : ∀ b cur, .day b cur ∈ items.drop 7 →
    (b = true ↔ ¬ ((z.date cur).year = year ∧ (z.date cur).month = month))

/-! ## The days of the grid -/

variable {z month year} {k : Int}

theorem weekdayOf_midnight (n : Int) : weekdayOf (Zone.fixed k) ((Zone.fixed k).midnight n) =
    weekday n := by
  rw [weekdayOf, Zone.fixed_everyDay]

/-- The Monday of the week in which the month begins. -/
def firstCell (month year : Int) : Int :=
  rolledDay year month 1 - (weekday (rolledDay year month 1) - 1)

theorem calStart_fixed :
    calStart (Zone.fixed k) month year = (Zone.fixed k).midnight (firstCell month year) := by
  have hstart : startDay (Zone.fixed k) month year =
      (Zone.fixed k).midnight (rolledDay year month 1) := rfl
  rw [calStart, hstart, weekdayOf_midnight]
  simp only [Zone.fixed_midnight, durationDays, firstCell]
  omega

theorem itemCount_fixed : itemCount (Zone.fixed k) month year =
    rolledDay year (month + 1) 0 + (7 - weekday (rolledDay year (month + 1) 0)) -
      firstCell month year + 1 + 7 := by
  have hend : endDay (Zone.fixed k) month year =
      (Zone.fixed k).midnight (rolledDay year (month + 1) 0) := rfl
  have hdiff : calEnd (Zone.fixed k) month year - calStart (Zone.fixed k) month year =
      (rolledDay year (month + 1) 0 + (7 - weekday (rolledDay year (month + 1) 0)) -
        firstCell month year) * 86400000 := by
    rw [calStart_fixed, calEnd, hend, weekdayOf_midnight]
    simp only [Zone.fixed_midnight, durationDays]
    omega
  rw [itemCount, hdiff, Int.mul_tdiv_cancel _ (by decide)]

/-- From the first Monday to the last Sunday there are four to six weeks. -/
theorem exists_weeks (h₁ : 1 ≤ month) (h₂ : month ≤ 12) :
    ∃ weeks : Nat, 28 ≤ 7 * weeks ∧ 7 * weeks ≤ 42 ∧
      rolledDay year (month + 1) 0 + (7 - weekday (rolledDay year (month + 1) 0)) -
        firstCell month year + 1 = 7 * weeks := by
  have hlength := @monthLength_range (isLeap year) month h₁ h₂
  rw [monthLength] at hlength
  have hlast : rolledDay year (month + 1) 0 = rolledDay year month 1 +
      (daysBefore (isLeap year) (month + 1) - daysBefore (isLeap year) month) - 1 := by
    rw [rolledDay_first h₁ h₂, rolledDay_last h₁ h₂]
    omega
  generalize daysBefore (isLeap year) (month + 1) - daysBefore (isLeap year) month = len at *
  simp only [firstCell, hlast, weekday]
  generalize rolledDay year month 1 = n
  refine ⟨((n + len - 1 + (7 - ((n + len - 1 + 3) % 7 + 1)) - (n - ((n + 3) % 7 + 1 - 1)) + 1) /
    7).toNat, ?_, ?_, ?_⟩ <;> omega

theorem build_fixed {weeks : Nat}
    (hweeks : rolledDay year (month + 1) 0 + (7 - weekday (rolledDay year (month + 1) 0)) -
      firstCell month year + 1 = 7 * weeks) :
    build (Zone.fixed k) month year = some (weeklistCap.map .header ++
      (List.range (7 * weeks)).map fun i : Nat =>
        dayItem (Zone.fixed k) month year
          ((Zone.fixed k).midnight (firstCell month year + i))) := by
  have hcount : (itemCount (Zone.fixed k) month year).toNat = 7 + 7 * weeks := by
    rw [itemCount_fixed, hweeks]
    omega
  rw [build, hcount, mapM_some_iff, List.range_add, List.map_append, List.map_append]
  have hheaders : (List.range 7).map (itemBuilder (Zone.fixed k) month year) =
      (weeklistCap.map Item.header).map some := rfl
  rw [hheaders]
  refine congrArg _ ?_
  rw [List.map_map, List.map_map]
  refine List.map_congr_left fun i _ => ?_
  have hi : ¬ 7 + i < 7 := by omega
  simp only [Function.comp, itemBuilder, if_neg hi, calStart_fixed, Zone.fixed_midnight,
    durationDays]
  congr 2
  omega

/-! ## The calendar -/

theorem firstCell_monday : weekday (firstCell month year) = 1 :=
  weekday_monday (rolledDay year month 1)

theorem dayItem_midnight (h₁ : 1 ≤ month) (h₂ : month ≤ 12) (n : Int) :
    ∃ b, dayItem (Zone.fixed k) month year ((Zone.fixed k).midnight n) =
        .day b ((Zone.fixed k).midnight n) ∧
      (b = true ↔ ¬ ((dateOf n).year = year ∧ (dateOf n).month = month)) := by
  have hstart : startDay (Zone.fixed k) month year =
      (Zone.fixed k).midnight (rolledDay year month 1) := rfl
  have hend : endDay (Zone.fixed k) month year =
      (Zone.fixed k).midnight (rolledDay year (month + 1) 0) := rfl
  rw [dayItem, hstart, hend, dateOf_month_iff h₁ h₂]
  refine ⟨_, rfl, ?_⟩
  rw [Bool.or_eq_true, decide_eq_true_eq, decide_eq_true_eq, Zone.fixed_midnight,
    Zone.fixed_midnight, Zone.fixed_midnight]
  omega

theorem date_midnight (n : Int) :
    (Zone.fixed k).date ((Zone.fixed k).midnight n) = dateOf n := by
  rw [Zone.date, Zone.fixed_everyDay]

theorem countP_isOn {first : Int} {count : Nat} {d : Date} (hd : d.Valid)
    (hfirst : first ≤ d.number) (hlast : d.number < first + count) :
    ((List.range count).map fun i : Nat =>
      dayItem (Zone.fixed k) month year ((Zone.fixed k).midnight (first + i))).countP
        (Item.isOn (Zone.fixed k) d) = 1 := by
  have hcell : ∀ i ∈ List.range count, (Item.isOn (Zone.fixed k) d ∘ fun i : Nat =>
      dayItem (Zone.fixed k) month year ((Zone.fixed k).midnight (first + i))) i = true ↔
        (i == (d.number - first).toNat) = true := by
    intro i _
    have hdate : dateOf (first + i) = d ↔ first + i = d.number := by
      constructor
      · rintro rfl
        exact (dayNumber_dateOf _).symm
      · intro hnumber
        rw [hnumber]
        exact dateOf_dayNumber hd
    simp only [Function.comp, dayItem, Item.isOn, date_midnight, hdate, decide_eq_true_eq,
      beq_iff_eq]
    omega
  have hlt : (d.number - first).toNat < count := by omega
  rw [List.countP_map, List.countP_congr hcell]
  exact List.count_range.trans (if_pos hlt)

/-- With a constant offset, a cell is a day from the first Monday to the last
Sunday, and is marked unless it is in the month. -/
theorem mem_build_fixed (h₁ : 1 ≤ month) (h₂ : month ≤ 12) {items : List Item} {b : Bool}
    {cur : Int} (hbuild : build (Zone.fixed k) month year = some items)
    (hmem : .day b cur ∈ items) :
    ∃ n, cur = (Zone.fixed k).midnight n ∧ firstCell month year ≤ n ∧
      n ≤ rolledDay year (month + 1) 0 + (7 - weekday (rolledDay year (month + 1) 0)) ∧
      (b = true ↔ ¬ ((dateOf n).year = year ∧ (dateOf n).month = month)) := by
  obtain ⟨weeks, -, -, hweeks⟩ := @exists_weeks month year h₁ h₂
  obtain rfl := Option.some.inj (hbuild.symm.trans (build_fixed hweeks))
  rcases List.mem_append.mp hmem with hmem | hmem
  · obtain ⟨text, -, hitem⟩ := List.mem_map.mp hmem
    cases hitem
  · obtain ⟨i, hi, hitem⟩ := List.mem_map.mp hmem
    rw [List.mem_range] at hi
    obtain ⟨b', hday, hb'⟩ := @dayItem_midnight month year k h₁ h₂ (firstCell month year + i)
    cases hday.symm.trans hitem
    exact ⟨firstCell month year + i, rfl, by omega, by omega, hb'⟩

/-- In a zone with a constant offset, `Days` builds the calendar of every
month. -/
theorem build_isCalendar (k : Int) {month year : Int} (h₁ : 1 ≤ month) (h₂ : month ≤ 12) :
    ∃ items first weeks, build (Zone.fixed k) month year = some items ∧
      IsCalendar (Zone.fixed k) month year items first weeks := by
  obtain ⟨weeks, hmin, hmax, hweeks⟩ := @exists_weeks month year h₁ h₂
  have hbuild := @build_fixed month year k weeks hweeks
  refine ⟨_, firstCell month year, weeks, hbuild, ?_⟩
  have hdrop : (weeklistCap.map Item.header ++ (List.range (7 * weeks)).map fun i : Nat =>
      dayItem (Zone.fixed k) month year
        ((Zone.fixed k).midnight (firstCell month year + i))).drop 7 =
      (List.range (7 * weeks)).map fun i : Nat =>
        dayItem (Zone.fixed k) month year ((Zone.fixed k).midnight (firstCell month year + i)) :=
    rfl
  refine ⟨rfl, ⟨_, hdrop⟩, ⟨hmin, hmax⟩, ?_, ?_, ?_⟩
  · intro i b cur hcell
    rw [hdrop, List.getElem?_map] at hcell
    obtain ⟨j, hj, hitem⟩ := Option.map_eq_some_iff.mp hcell
    obtain ⟨hlt, rfl⟩ := List.getElem?_eq_some_iff.mp hj
    rw [List.getElem_range] at hitem
    cases hitem
    rw [weekdayOf_midnight, weekday_of_monday firstCell_monday]
    have hi : i % 7 < 7 := Nat.mod_lt i (by decide)
    have hindex : (((i : Int) % 7 + 1 - 1)).toNat = i % 7 := by omega
    rw [hindex, List.getElem?_append_left hi, List.getElem?_map]
  · rintro d hd rfl rfl
    have hdate : dateOf d.number = d := dateOf_dayNumber hd
    have hrange := (@dateOf_month_iff d.year d.month d.number h₁ h₂).mp (by rw [hdate]; simp)
    have hmonday := weekday_range (rolledDay d.year d.month 1)
    have hsunday := weekday_range (rolledDay d.year (d.month + 1) 0)
    rw [hdrop]
    refine countP_isOn hd ?_ ?_
    · rw [firstCell]
      omega
    · push_cast
      omega
  · intro b cur hmem
    rw [hdrop] at hmem
    obtain ⟨i, -, hitem⟩ := List.mem_map.mp hmem
    obtain ⟨b', hday, hb'⟩ := @dayItem_midnight month year k h₁ h₂ (firstCell month year + i)
    cases hday.symm.trans hitem
    rw [date_midnight]
    exact hb'

/-- May 2019 in Hong Kong. -/
theorem build_isCalendar_may : ∃ items first weeks,
    build (Zone.fixed 28800000) 5 2019 = some items ∧
      IsCalendar (Zone.fixed 28800000) 5 2019 items first weeks :=
  build_isCalendar 28800000 (by decide) (by decide)

/-- May 2019 takes five weeks, from Monday 29 April on. -/
example : firstCell 5 2019 = 18015 ∧ dateOf 18015 = ⟨2019, 4, 29⟩ ∧
    itemCount (Zone.fixed 28800000) 5 2019 = 7 * 5 + 7 := by decide

end Days

end CalendarApp
