/-
# `Schedule.Years` — ten years, page by page

Every page of the calendar is built for itself: it decodes its month from its
index and computes the cells from the first and the last of the month.  Read
one after another, with a constant offset, the cells that are not greyed are
the days from 1 January 2015 to 31 December 2024, in their order and each once
(`pages_inCal`).  A day stands on the page that `getPageIndex` has for it, under
the header with its own month and year.
-/
import CalendarApp.Lib.Span
import CalendarApp.Schedule.Pages

namespace CalendarApp

open Lib

namespace Days

/-- `Days(gridmonth, gridyear)` of a page; an index outside the year list
throws. -/
def page (z : Zone) (position : Nat) : Option (List Item) :=
  (gridyear position).bind fun year => build z (gridmonth position) year

/-- The day of a cell that is not greyed. -/
def Item.inCal : Item → Option Int
  | .day false cur => some cur
  | _ => none

/-- Page by page, the calendar has the days from `first` on and before `next`,
each on its own page. -/
structure ReadsThrough (z : Zone) (pages : List (List Item)) (first next : Int) : Prop where
  days : pages.flatten.filterMap Item.inCal = (Int.range first next).map z.midnight
  own : ∀ (p : Nat) items cur, pages[p]? = some items → cur ∈ items.filterMap Item.inCal →
    getPageIndex z cur = p ∧ headerText p = monthYearOf z cur

variable {k month year : Int}

theorem filterMap_inCal (h₁ : 1 ≤ month) (h₂ : month ≤ 12) (first : Int) (n : Nat) :
    ((List.range n).map fun i : Nat =>
        dayItem (Zone.fixed k) month year ((Zone.fixed k).midnight (first + i))).filterMap
          Item.inCal =
      ((Int.range first (first + n)).filter fun m =>
        monthStart (year * 12 + (month - 1)) ≤ m ∧
          m < monthStart (year * 12 + (month - 1) + 1)).map (Zone.fixed k).midnight := by
  have hcell : ∀ m : Int, (dayItem (Zone.fixed k) month year ((Zone.fixed k).midnight m)).inCal =
      if monthStart (year * 12 + (month - 1)) ≤ m ∧ m < monthStart (year * 12 + (month - 1) + 1)
      then some ((Zone.fixed k).midnight m) else none := by
    intro m
    obtain ⟨b, hday, hb⟩ := @dayItem_midnight month year k h₁ h₂ m
    have hmonth : (dateOf m).year = year ∧ (dateOf m).month = month ↔
        monthStart (year * 12 + (month - 1)) ≤ m ∧
          m < monthStart (year * 12 + (month - 1) + 1) := by
      rw [← dateOf_monthStart_iff]
      obtain ⟨h₃, h₄, -, -⟩ := dateOf_valid m
      omega
    rw [hmonth] at hb
    rw [hday]
    cases b with
    | false => exact (if_pos (Decidable.not_not.mp (mt hb.mpr Bool.false_ne_true))).symm
    | true => exact (if_neg (hb.mp rfl)).symm
  have hcells : ((List.range n).map fun i : Nat =>
      dayItem (Zone.fixed k) month year ((Zone.fixed k).midnight (first + i))) =
      (Int.range first (first + n)).map fun m =>
        dayItem (Zone.fixed k) month year ((Zone.fixed k).midnight m) := by
    rw [range_eq_map, List.map_map]
    rfl
  rw [hcells, List.filterMap_map, ← List.filterMap_eq_map, List.filterMap_filter]
  refine List.filterMap_congr fun m _ => ?_
  simp only [Function.comp, hcell, decide_eq_true_eq]

theorem exists_page (k : Int) {p : Nat} (hp : p < pageCount) :
    ∃ items, page (Zone.fixed k) p = some items ∧ items.filterMap Item.inCal =
      (Int.range (monthStart (2015 * 12 + p)) (monthStart (2015 * 12 + p + 1))).map
        (Zone.fixed k).midnight := by
  obtain ⟨hyear, -⟩ := decode_page hp
  have h₁ : 1 ≤ gridmonth p := by
    rw [gridmonth]
    omega
  have h₂ : gridmonth p ≤ 12 := by
    rw [gridmonth]
    omega
  have hnumber : (2015 + (p / 12 : Nat) : Int) * 12 + (gridmonth p - 1) = 2015 * 12 + p := by
    rw [gridmonth]
    omega
  obtain ⟨weeks, -, -, hweeks⟩ := @exists_weeks (gridmonth p) (2015 + (p / 12 : Nat)) h₁ h₂
  refine ⟨_, by rw [page, hyear, Option.bind_some, build_fixed hweeks], ?_⟩
  have hheaders : (weeklistCap.map Item.header).filterMap Item.inCal = [] := rfl
  rw [List.filterMap_append, hheaders, List.nil_append, filterMap_inCal h₁ h₂, hnumber]
  -- the cells begin with the week of the first day, and end with that of the last
  have hmonday := weekday_range (rolledDay (2015 + (p / 12 : Nat)) (gridmonth p) 1)
  have hsunday := weekday_range (rolledDay (2015 + (p / 12 : Nat)) (gridmonth p + 1) 0)
  have hfirst : rolledDay (2015 + (p / 12 : Nat)) (gridmonth p) 1 = monthStart (2015 * 12 + p) := by
    rw [rolledDay_monthStart, hnumber]
  have hlast : rolledDay (2015 + (p / 12 : Nat)) (gridmonth p + 1) 0 =
      monthStart (2015 * 12 + p + 1) - 1 := by
    rw [rolledDay_zero, rolledDay_monthStart]
    congr 2
    omega
  have hlength := monthStart_succ (2015 * 12 + p)
  rw [hlast] at hsunday hweeks
  rw [firstCell, hfirst] at hweeks ⊢
  rw [hfirst] at hmonday
  rw [filter_range (by omega) (by omega) (by omega)]

/-- All pages are built, and have the days of the years 2015 to 2024, in their
order and each once. -/
theorem exists_pages (k : Int) : ∃ pages, (List.range pageCount).mapM (page (Zone.fixed k)) =
    some pages ∧ pages.flatten.filterMap Item.inCal =
      (Int.range (rolledDay 2015 1 1) (rolledDay 2025 1 1)).map (Zone.fixed k).midnight := by
  have hsome : ((List.range pageCount).mapM (page (Zone.fixed k))).isSome = true := by
    refine mapM_isSome_iff.mpr fun p hp => ?_
    obtain ⟨items, hitems, -⟩ := exists_page k (List.mem_range.mp hp)
    rw [hitems]
    rfl
  obtain ⟨pages, hpages⟩ := Option.isSome_iff_exists.mp hsome
  refine ⟨pages, hpages, ?_⟩
  have hdays : pages.map (fun items => items.filterMap Item.inCal) =
      (List.range pageCount).map fun p : Nat =>
        (Int.range (monthStart (2015 * 12 + p)) (monthStart (2015 * 12 + (p + 1 : Nat)))).map
          (Zone.fixed k).midnight := by
    have hread := congrArg
      (List.map fun o => ((Option.map fun items => items.filterMap Item.inCal) o).getD [])
      (mapM_some_iff.mp hpages)
    simp only [List.map_map, Function.comp_def, Option.map_some, Option.getD_some] at hread
    rw [← hread]
    refine List.map_congr_left fun p hp => ?_
    obtain ⟨items, hitems, hdays⟩ := exists_page k (List.mem_range.mp hp)
    rw [hitems, Option.map_some, Option.getD_some, hdays, Nat.cast_add_one, ← add_assoc]
  have hmonths : ∀ p, p < pageCount → monthStart (2015 * 12 + p) ≤
      monthStart (2015 * 12 + (p + 1 : Nat)) := by
    intro p _
    have hlength := monthStart_succ (2015 * 12 + p)
    rw [Nat.cast_add_one, ← add_assoc]
    omega
  rw [List.filterMap_flatten, hdays, ← List.flatMap_def, ← List.map_flatMap,
    (flatMap_range (g := fun p : Nat => monthStart (2015 * 12 + p)) hmonths).1,
    rolledDay_monthStart, rolledDay_monthStart]
  rfl

theorem page_of_pages {pages : List (List Item)} {p : Nat} {items : List Item}
    (hpages : (List.range pageCount).mapM (page (Zone.fixed k)) = some pages)
    (hitems : pages[p]? = some items) :
    p < pageCount ∧ page (Zone.fixed k) p = some items := by
  have hp : p < pageCount := by
    have hlt := (List.getElem?_eq_some_iff.mp hitems).1
    rwa [length_of_mapM hpages, List.length_range] at hlt
  have hat := congrArg (fun l => l[p]?) (mapM_some_iff.mp hpages)
  simp only [List.getElem?_map, List.getElem?_range hp, hitems, Option.map_some,
    Option.some.injEq] at hat
  exact ⟨hp, hat⟩

/-- The pages of the calendar, one after another, have the days of the years 2015
to 2024, in their order and each once; and each on the page that is computed for
it, under its own month and year. -/
theorem pages_inCal (k : Int) : ∃ pages, (List.range pageCount).mapM (page (Zone.fixed k)) =
    some pages ∧
      ReadsThrough (Zone.fixed k) pages (rolledDay 2015 1 1) (rolledDay 2025 1 1) := by
  obtain ⟨pages, hpages, hdays⟩ := exists_pages k
  refine ⟨pages, hpages, hdays, ?_⟩
  intro p items cur hitems hcur
  obtain ⟨hp, hat⟩ := page_of_pages hpages hitems
  obtain ⟨items', hitems', hdays⟩ := exists_page k hp
  obtain rfl := Option.some.inj (hat.symm.trans hitems')
  rw [hdays] at hcur
  obtain ⟨n, hn, rfl⟩ := List.mem_map.mp hcur
  rw [Int.mem_range_iff, ← dateOf_monthStart_iff] at hn
  obtain ⟨h₃, h₄, -, -⟩ := dateOf_valid n
  have hcount : pageCount = 120 := rfl
  have hyears : InYears (Zone.fixed k) ((Zone.fixed k).midnight n) := by
    rw [InYears, date_midnight]
    omega
  obtain ⟨p', hindex, -, -, -, hheader⟩ := ownPage_iff.mpr hyears
  have hnumber := getPageIndex_eq hyears.1 (hyears.2.trans (by decide))
  rw [monthNumber, date_midnight] at hnumber
  have hown : getPageIndex (Zone.fixed k) ((Zone.fixed k).midnight n) = p := by omega
  obtain rfl : p' = p := by omega
  exact ⟨hown, hheader⟩

end Days

end CalendarApp
