/-
# `Schedule.Cells` — what a cell announces, and what its list shows

A cell of the calendar shows a day before anything is tapped: its number, its
colour, today in bold, the selected day with a dot, and a ring for each event
of the user on that day.  Tapping it selects the day, and the list below shows
the label of the day and a row for each event.

    no ring          No event so far
    rings c₁ ... cₙ   n rows, with bars of these colours in this order

Cell and list read the documents with queries and filters of their own.  In
every reachable world they agree, on every cell of all pages and whatever the
user selects: nothing throws, the list has what the cell announced, and the
colour of the number tells the days of other months and the Sundays
(`cells_announce`).  Read through, the pages have today in bold once, and one
dot, as long as the years last.
-/
import CalendarApp.Event.Going
import CalendarApp.Event.ListItem
import CalendarApp.Schedule.Years

namespace CalendarApp

open Lib

/-! ## The cell -/

namespace Day

inductive TextColor where
  | grey
  | red
  | black
  deriving DecidableEq, Repr

/-- What a cell shows. -/
structure Look where
  text : String
  textColor : TextColor
  bold : Bool
  /-- `paintColor` is not transparent -/
  dot : Bool
  /-- `colors`, an arc for each -/
  rings : List SampleColor
  deriving DecidableEq, Repr

/-- `build`, for the last snapshot of the user's events; `now` is the time of
the build. -/
def build (z : Zone) (notInCal : Bool) (day selectedDay now : Int)
    (snapshot : Option Documents) : Option Look := do
  let isSelected := isSameDate z day selectedDay
  let isToday := isSameDate z day now
  let isSunday := Days.weekdayOf z day = 7
  let colors ← (snapshot.map fun documents => ringColors documents day).getD (some [])
  return {
    text := toString (z.date day).day
    textColor := if notInCal then .grey else if isSunday then .red else .black
    bold := isToday
    dot := isSelected
    rings := colors }

end Day

/-! ## The list -/

/-- What `Event` shows below the calendar. -/
inductive EventList where
  | message (text : String)
  | list (label : String × String) (rows : List ListItem)
  deriving DecidableEq, Repr

namespace EventList

def noEvent : EventList := .message "No event so far"

/-- `todayLabel`; a month without a name throws. -/
def todayLabel (z : Zone) (selectedDay : Int) : Option (String × String) :=
  monthlist[((z.date selectedDay).month - 1).toNat]?.map fun month =>
    (toString (z.date selectedDay).day, month)

/-- `build`, for the last snapshot of the user's events. -/
def build (z : Zone) (selectedDay : Int) (snapshot : Option Documents) : Option EventList :=
  match snapshot with
  | none => some noEvent
  | some documents =>
      if documents.length > 0 then do
        let events ← listedEvents z documents selectedDay
        if events.length = 0 then return noEvent
        let label ← todayLabel z selectedDay
        let rows ← events.mapM fun event => listitem z event selectedDay
        return .list label rows
      else some noEvent

end EventList

/-- A cell announces what the list shows once its day is selected. -/
structure Announces (look : Day.Look) (month : Option String) (list : EventList) : Prop where
  empty : look.rings = [] ↔ list = .noEvent
  rows : ∀ label rows, list = .list label rows →
    label.1 = look.text ∧ some label.2 = month ∧ rows.map ListItem.color = look.rings

namespace Days

/-- The cells that are not greyed, as they look, page by page. -/
def looksInCal (z : Zone) (pages : List (List Item)) (selectedDay now : Int)
    (snapshot : Option Documents) : List Day.Look :=
  (pages.flatten.filterMap Item.inCal).filterMap fun cur =>
    Day.build z false cur selectedDay now snapshot

/-- The day is of the month of the page. -/
def OfMonth (z : Zone) (p : Nat) (cur : Int) : Prop :=
  gridyear p = some (z.date cur).year ∧ gridmonth p = (z.date cur).month

/-- Every cell is built, and announces what its list shows; the days of other
months are grey and the Sundays red; and today is bold, and the selected day
has a dot, on one cell that is not greyed, if on any. -/
structure CellsShow (z : Zone) (pages : List (List Item)) (documents : Documents)
    (selectedDay now : Int) : Prop where
  cell : ∀ (p : Nat) items (i : Nat) b cur, pages[p]? = some items →
    items[i]? = some (.day b cur) → ∃ look list,
      Day.build z b cur selectedDay now (some documents) = some look ∧
      EventList.build z cur (some documents) = some list ∧
      Announces look monthlist[((z.date cur).month - 1).toNat]? list ∧
      (look.textColor = .grey ↔ ¬ OfMonth z p cur) ∧
      (look.textColor = .red ↔ OfMonth z p cur ∧ i % 7 = 6)
  today : (looksInCal z pages selectedDay now (some documents)).countP Day.Look.bold =
    if InYears z now then 1 else 0
  selected : (looksInCal z pages selectedDay now (some documents)).countP Day.Look.dot =
    if InYears z selectedDay then 1 else 0

end Days

/-! ## Cell and list agree -/

variable {z : Zone} {documents : Documents} {d : Int}

theorem ringColors_eq (z : Zone) (documents : Documents) (d : Int) :
    ringColors documents d = (eventRows z d documents).map (List.map ListItem.color) := by
  rw [eventRows, listedEvents, mapM_bind_mapM, map_mapM]
  refine congrArg (fun f => List.mapM f (listedDocuments documents d)) (funext fun p => ?_)
  rw [fromFirestore]
  cases typeOfText p.2.type with
  | none => rfl
  | some type =>
      show typecolor[type.index]? = (Option.map _ typecolor[type.index]?).map ListItem.color
      rw [Option.map_map]
      exact Option.map_id'.symm

theorem exists_rows (z : Zone) (d : Int)
    (htypes : ∀ p ∈ documents, (typeOfText p.2.type).isSome = true) :
    ∃ events rows, listedEvents z documents d = some events ∧
      (events.mapM fun event => listitem z event d) = some rows ∧
      ringColors documents d = some (rows.map ListItem.color) ∧
      rows.length = events.length := by
  obtain ⟨events, colors, hevents, hcolors, -, -⟩ := shows_listedDocuments z d htypes
  have hrows : (eventRows z d documents).map (List.map ListItem.color) = some colors :=
    (ringColors_eq z documents d).symm.trans hcolors
  obtain ⟨rows, hmap, hrows⟩ := Option.map_eq_some_iff.mp hrows
  rw [eventRows, hevents] at hmap
  exact ⟨events, rows, hevents, hmap, hrows ▸ hcolors, length_of_mapM hmap⟩

theorem todayLabel_eq (z : Zone) (d : Int) :
    ∃ month, monthlist[((z.date d).month - 1).toNat]? = some month ∧
      EventList.todayLabel z d = some (toString (z.date d).day, month) := by
  have hrange := month_range z d
  have hlt : ((z.date d).month - 1).toNat < monthlist.length := by
    show _ < 12
    omega
  refine ⟨monthlist[((z.date d).month - 1).toNat], List.getElem?_eq_getElem hlt, ?_⟩
  rw [EventList.todayLabel, List.getElem?_eq_getElem hlt]
  rfl

theorem Day.build_eq {rings : List SampleColor} (h : ringColors documents d = some rings)
    (z : Zone) (b : Bool) (selectedDay now : Int) :
    Day.build z b d selectedDay now (some documents) = some
      { text := toString (z.date d).day
        textColor := if b then .grey else if Days.weekdayOf z d = 7 then .red else .black
        bold := isSameDate z d now
        dot := isSameDate z d selectedDay
        rings := rings } := by
  simp only [Day.build, Option.map_some, Option.getD_some, h]
  rfl

theorem EventList.build_eq {events : List FetchedEvent} {label : String × String}
    {rows : List ListItem} (hevents : listedEvents z documents d = some events)
    (hlabel : todayLabel z d = some label)
    (hrows : (events.mapM fun event => listitem z event d) = some rows) :
    build z d (some documents) =
      some (if events.length = 0 then noEvent else .list label rows) := by
  cases documents with
  | nil =>
      cases hevents
      rfl
  | cons p documents =>
      simp only [build, hevents, hlabel, hrows, List.length_cons, Nat.zero_lt_succ, gt_iff_lt,
        if_true, Option.bind_eq_bind, Option.bind_some, Option.pure_def]
      split
      · rfl
      · rfl

theorem exists_announces (z : Zone) (d : Int) (b : Bool) (selectedDay now : Int)
    (htypes : ∀ p ∈ documents, (typeOfText p.2.type).isSome = true) :
    ∃ look list, Day.build z b d selectedDay now (some documents) = some look ∧
      EventList.build z d (some documents) = some list ∧
      Announces look monthlist[((z.date d).month - 1).toNat]? list ∧
      look.textColor = (if b then .grey else if Days.weekdayOf z d = 7 then .red else .black) ∧
      look.bold = isSameDate z d now ∧ look.dot = isSameDate z d selectedDay := by
  obtain ⟨events, rows, hevents, hrows, hrings, hlength⟩ := exists_rows z d htypes
  obtain ⟨month, hmonth, hlabel⟩ := todayLabel_eq z d
  refine ⟨_, _, Day.build_eq hrings z b selectedDay now, EventList.build_eq hevents hlabel hrows,
    ⟨?_, ?_⟩, rfl, rfl, rfl⟩
  · show rows.map ListItem.color = [] ↔ _
    rw [List.map_eq_nil_iff, ← List.length_eq_zero_iff, hlength]
    split
    · next hempty => exact iff_of_true hempty rfl
    · next hempty => exact iff_of_false hempty nofun
  · intro label' rows' hlist
    split at hlist
    · cases hlist
    · cases hlist
      exact ⟨rfl, hmonth.symm, rfl⟩

namespace Days

variable {k : Int} {pages : List (List Item)}

/-- The cell at a place of a page: its day, whether it is greyed, and its column. -/
theorem cell_of_page {p i : Nat} {items : List Item} {b : Bool} {cur : Int} (hp : p < pageCount)
    (hpage : page (Zone.fixed k) p = some items) (hcell : items[i]? = some (.day b cur)) :
    (b = true ↔ ¬ OfMonth (Zone.fixed k) p cur) ∧
      (weekdayOf (Zone.fixed k) cur = 7 ↔ i % 7 = 6) := by
  obtain ⟨hyear, -⟩ := decode_page hp
  have h₁ : 1 ≤ gridmonth p := by
    rw [gridmonth]
    omega
  have h₂ : gridmonth p ≤ 12 := by
    rw [gridmonth]
    omega
  rw [page, hyear, Option.bind_some] at hpage
  obtain ⟨weeks, -, -, hweeks⟩ := @exists_weeks (gridmonth p) (2015 + (p / 12 : Nat)) h₁ h₂
  obtain rfl := Option.some.inj (hpage.symm.trans (build_fixed hweeks))
  have hi : 7 ≤ i := by
    by_contra hi
    have hlt : i < (weeklistCap.map Item.header).length := Nat.lt_of_not_le hi
    rw [List.getElem?_append_left hlt, List.getElem?_map] at hcell
    obtain ⟨text, -, htext⟩ := Option.map_eq_some_iff.mp hcell
    cases htext
  rw [List.getElem?_append_right hi, List.getElem?_map] at hcell
  obtain ⟨j, hj, hitem⟩ := Option.map_eq_some_iff.mp hcell
  obtain ⟨hlt, rfl⟩ := List.getElem?_eq_some_iff.mp hj
  have hseven : (weeklistCap.map Item.header).length = 7 := rfl
  rw [List.getElem_range, hseven] at hitem
  obtain ⟨b', hday, hb'⟩ := @dayItem_midnight (gridmonth p) (2015 + (p / 12 : Nat)) k h₁ h₂
    (firstCell (gridmonth p) (2015 + (p / 12 : Nat)) + (i - 7 : Nat))
  cases hday.symm.trans hitem
  refine ⟨?_, ?_⟩
  · rw [hb', OfMonth, hyear, date_midnight, Option.some.injEq]
    exact not_congr (and_congr eq_comm eq_comm)
  · rw [weekdayOf_midnight, weekday_of_monday firstCell_monday]
    omega

/-- Read through, the pages have the day of `t` once, if it is in the years. -/
theorem countP_day (k t : Int) {days : List Int}
    (hdays : days = (Int.range (rolledDay 2015 1 1) (rolledDay 2025 1 1)).map
      (Zone.fixed k).midnight) :
    days.countP (fun cur => isSameDate (Zone.fixed k) cur t) =
      if InYears (Zone.fixed k) t then 1 else 0 := by
  have hsame : ∀ n ∈ Int.range (rolledDay 2015 1 1) (rolledDay 2025 1 1),
      ((fun cur => isSameDate (Zone.fixed k) cur t) ∘ (Zone.fixed k).midnight) n = true ↔
        (n == (Zone.fixed k).day t) = true := by
    intro n _
    rw [Function.comp_apply, isSameDate_iff, Zone.fixed_everyDay, beq_iff_eq]
  have hyears : InYears (Zone.fixed k) t ↔ rolledDay 2015 1 1 ≤ (Zone.fixed k).day t ∧
      (Zone.fixed k).day t < rolledDay 2025 1 1 := by
    have hfirst : rolledDay 2015 1 1 = yearStart 2015 := rfl
    have hnext : rolledDay 2025 1 1 = yearStart 2025 := rfl
    rw [hfirst, hnext, ← not_le, yearStart_le_iff, yearStart_le_iff]
    show 2015 ≤ yearOf ((Zone.fixed k).day t) ∧ yearOf ((Zone.fixed k).day t) ≤ 2024 ↔ _
    omega
  rw [hdays, List.countP_map, List.countP_congr hsame, if_congr hyears rfl rfl]
  exact count_range _ _ _

theorem cellsShow (hpages : (List.range pageCount).mapM (page (Zone.fixed k)) = some pages)
    (hdays : pages.flatten.filterMap Item.inCal =
      (Int.range (rolledDay 2015 1 1) (rolledDay 2025 1 1)).map (Zone.fixed k).midnight)
    (htypes : ∀ p ∈ documents, (typeOfText p.2.type).isSome = true) (selectedDay now : Int) :
    CellsShow (Zone.fixed k) pages documents selectedDay now where
  cell p items i b cur hitems hcell := by
    obtain ⟨hp, hpage⟩ := page_of_pages hpages hitems
    obtain ⟨hgrey, hsunday⟩ := cell_of_page hp hpage hcell
    obtain ⟨look, list, hlook, hlist, hannounces, hcolor, -, -⟩ :=
      exists_announces (Zone.fixed k) cur b selectedDay now htypes
    refine ⟨look, list, hlook, hlist, hannounces, ?_⟩
    rw [hcolor]
    cases b with
    | true =>
        have hother : ¬ OfMonth (Zone.fixed k) p cur := hgrey.mp rfl
        exact ⟨iff_of_true rfl hother, iff_of_false nofun fun h => hother h.1⟩
    | false =>
        have hof : OfMonth (Zone.fixed k) p cur := not_not.mp (mt hgrey.mpr Bool.false_ne_true)
        rw [← hsunday, if_neg Bool.false_ne_true]
        split
        · next h => exact ⟨iff_of_false (by decide) (not_not.mpr hof), iff_of_true rfl ⟨hof, h⟩⟩
        · next h => exact ⟨iff_of_false (by decide) (not_not.mpr hof),
            iff_of_false (by decide) fun h' => h h'.2⟩
  today := by
    rw [looksInCal, List.countP_filterMap, ← countP_day k now hdays]
    refine List.countP_congr fun cur _ => ?_
    obtain ⟨look, -, hlook, -, -, -, hbold, -⟩ :=
      exists_announces (Zone.fixed k) cur false selectedDay now htypes
    rw [hlook, ← hbold]
    rfl
  selected := by
    rw [looksInCal, List.countP_filterMap, ← countP_day k selectedDay hdays]
    refine List.countP_congr fun cur _ => ?_
    obtain ⟨look, -, hlook, -, -, -, -, hdot⟩ :=
      exists_announces (Zone.fixed k) cur false selectedDay now htypes
    rw [hlook, ← hdot]
    rfl

/-- In every reachable world, for every user, whatever day he has selected and
whenever the calendar is built: every cell of every page announces what its list
shows, and today and the selected day are marked once. -/
theorem cells_announce (hashCode : String → Int) (user : Nat → Uid) (start : Int)
    {tr : List (World.Action × World)}
    (hrun : Run (StepOf (World.step hashCode user)) (World.start start) tr) (u : Uid)
    (k selectedDay now : Int) :
    ∃ pages, (List.range pageCount).mapM (page (Zone.fixed k)) = some pages ∧
      CellsShow (Zone.fixed k) pages
        (eventsOf (final (World.start start) tr).store.documents u) selectedDay now := by
  obtain ⟨pages, hpages, hdays⟩ := exists_pages k
  refine ⟨pages, hpages, cellsShow hpages hdays (fun p hp => ?_) selectedDay now⟩
  have hstored := Collection.mem_documents.mp (mem_eventsOf.mp hp).1
  exact (World.recorded_legible hrun).2.stored p.1 p.2 hstored

/-- The host of one event, on 1 May 2019 in Hong Kong. -/
theorem cells_announce_host : ∃ (tr : List (World.Action × World)) (pages : List (List Item)),
    (eventsOf (final (World.start 0) tr).store.documents firstUid).map Prod.fst = ["e"] ∧
      (List.range pageCount).mapM (page (Zone.fixed 28800000)) = some pages ∧
      CellsShow (Zone.fixed 28800000) pages
        (eventsOf (final (World.start 0) tr).store.documents firstUid)
        1556640000000 1556687100000 := by
  obtain ⟨tr, -, hrun, hevents⟩ := exists_run
    (f := World.step oneAtATime World.twoUsers) (s := World.start 0)
    (P := fun tr =>
      (eventsOf (final (World.start 0) tr).store.documents firstUid).map Prod.fst = ["e"])
    [.act 0 (.signUp ""), .deliver 0 "",
      .act 0 (.createEvent (EventModal.ofDay (Zone.fixed 28800000) 1556640000000 1556687100000)),
      .deliver 0 "e"]
    (by decide +kernel)
  obtain ⟨pages, hpages, hshow⟩ := cells_announce oneAtATime World.twoUsers 0 hrun firstUid
    28800000 1556640000000 1556687100000
  exact ⟨tr, pages, hevents, hpages, hshow⟩

end Days

end CalendarApp
