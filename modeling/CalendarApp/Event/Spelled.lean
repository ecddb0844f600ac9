/-
# `Event.Spelled` — what the wheels of the picker say together

Each wheel of the picker has a text in its middle.

    year   month   day   hour   minute   AM/PM
    2019   May      1     12      30      PM

Above them stands the block of the active side.  The wheels are turned to the
instant of the side, and the block prints its fields.  Put together in its
layout, for some weekday, the texts of the wheels are those of the block exactly
when the wheels show the fields as they are written; on wheels that show the
instant this is so exactly when the side is printed as it is read back
(`wheelsSpell_iff`).  The screen that is opened in the last hour of a day has
12:30 PM above wheels that say 12:30 AM (`wheelsSpell_lateEvening`).
-/
import CalendarApp.Event.Picker
import CalendarApp.Event.Printed

namespace CalendarApp

open Lib

namespace NewEventState

variable (z : Zone)

/-- The texts of the children of a wheel, as `initWidgetList` makes them. -/
def widgetTexts (s : NewEventState) : Wheel → List String
  | .year => yearlist.map toString
  | .month => monthlist3
  | .day => (List.range s.dayCount).map fun index => toString (index + 1)
  | .hour => (List.range 12).map fun index => if index = 0 then "12" else toString index
  | .minute => (List.range 60).map fun index =>
      if index < 10 then "0" ++ toString index else toString index
  | .apm => ["AM", "PM"]

/-- The text in the middle of a wheel; beside the ends of a wheel that does not
loop there is none. -/
def said (s : NewEventState) (w : Wheel) : Option String :=
  if w.looping || 0 ≤ s.controller.item w then
    (s.widgetTexts w)[s.childIndex w (s.controller.item w)]?
  else none

/-- The texts of the date wheels, put together as `dateParser` does it. -/
def saidDate (s : NewEventState) (weekday : String) : Option String := do
  let day ← s.said .day
  let month ← s.said .month
  let year ← s.said .year
  return weekday ++ ", " ++ day ++ " " ++ month ++ " " ++ year

/-- The texts of the time wheels, put together as `timeParser` does it. -/
def saidTime (s : NewEventState) : Option String := do
  let hour ← s.said .hour
  let minute ← s.said .minute
  let apm ← s.said .apm
  return hour ++ ":" ++ minute ++ " " ++ apm

/-- The texts of the wheels, put together as the block of a side does it; all
day the time wheels are not built. -/
def saidBlock (s : NewEventState) (weekday : String) : Option (String × String) :=
  if s.event.allday then do
    let day ← s.said .day
    let month ← s.said .month
    let year ← s.said .year
    return (year, weekday ++ ", " ++ day ++ " " ++ month)
  else do
    let date ← s.saidDate weekday
    let time ← s.saidTime
    return (date, time)

/-- What stands in the block of the active side. -/
def activeBlock (s : NewEventState) : Option (String × String) :=
  NewEvent.datetimeBlock z s.event.allday (s.event.date s.side) (s.event.time s.side)

/-- The wheels say what stands in the block of the active side, for some
weekday. -/
def WheelsSpell (s : NewEventState) : Prop :=
  ∃ weekday ∈ weeklistCap, s.saidBlock weekday = s.activeBlock z

/-- The wheels that are built show the fields of the active side, as they are
written. -/
def ShowsFields (s : NewEventState) : Prop :=
  s.shownDate = some (z.date (s.event.date s.side)) ∧
    (s.event.allday = false → s.shownTime = (s.event.time s.side).printed)

/-- The block of the active side would be the same with the fields that are read
back of its instant. -/
def PrintsInstant (s : NewEventState) : Prop :=
  NewEvent.datetimeBlock z s.event.allday s.activeDate (TimeOfDay.fromDateTime z s.activeDate) =
    s.activeBlock z

instance (s : NewEventState) : Decidable (s.ShowsFields z) :=
  inferInstanceAs (Decidable (_ ∧ _))

instance (s : NewEventState) : Decidable (s.ShowsActive z) :=
  inferInstanceAs (Decidable (_ ∧ _))

variable {z} {s : NewEventState}

theorem childIndex_lt {w : Wheel} (hw : w.looping = true) (hpos : 0 < s.children w) (p : Int) :
    s.childIndex w p < s.children w := by
  have hmod := Int.emod_lt_of_pos p (Int.natCast_pos.mpr hpos)
  have hnonneg := Int.emod_nonneg p (b := (s.children w : Int)) (by omega)
  rw [childIndex, if_pos hw]
  omega

theorem said_looping {w : Wheel} (hw : w.looping = true) :
    s.said w = (s.widgetTexts w)[s.childIndex w (s.controller.item w)]? := by
  simp only [said, hw, Bool.true_or, if_true]

theorem said_day (hpos : 0 < s.dayCount) : s.said .day =
    some (toString ((s.childIndex .day (s.controller.item .day) : Int) + 1)) := by
  have hlt : s.childIndex .day (s.controller.item .day) < s.dayCount :=
    childIndex_lt (w := .day) rfl hpos (s.controller.item .day)
  rw [said_looping rfl, widgetTexts, List.getElem?_map, List.getElem?_range hlt]
  rfl

theorem said_year : s.said .year =
    (if 0 ≤ s.controller.item .year then yearlist[s.childIndex .year (s.controller.item .year)]?
      else none).map toString := by
  simp only [said, Wheel.looping, Bool.false_or, decide_eq_true_eq, widgetTexts, List.getElem?_map]
  split <;> rfl

theorem said_month :
    s.said .month = monthlist3[s.childIndex .month (s.controller.item .month)]? := by
  rw [said_looping rfl, widgetTexts]

theorem said_date (hpos : 0 < s.dayCount) {α : Type} (layout : String → String → String → α) :
    (do
      let day ← s.said .day
      let month ← s.said .month
      let year ← s.said .year
      return layout day month year) =
    s.shownDate.bind fun d => (monthlist3[(d.month - 1).toNat]?).map fun month =>
      layout (toString d.day) month (toString d.year) := by
  have hindex : ((s.childIndex .month (s.controller.item .month) : Int) + 1 - 1).toNat =
      s.childIndex .month (s.controller.item .month) := by omega
  rw [said_day hpos, said_year, said_month, shownDate]
  cases (if 0 ≤ s.controller.item .year then
      yearlist[s.childIndex .year (s.controller.item .year)]? else none) with
  | none => cases monthlist3[s.childIndex .month (s.controller.item .month)]? <;> rfl
  | some y =>
      simp only [Option.map_some, Option.bind_eq_bind, Option.bind_some, hindex, Option.pure_def]
      cases monthlist3[s.childIndex .month (s.controller.item .month)]? <;> rfl

theorem shownDate_range {d : Date} (h : s.shownDate = some d) : 1 ≤ d.month ∧ 1 ≤ d.day := by
  obtain ⟨y, -, rfl⟩ := Option.map_eq_some_iff.mp h
  exact ⟨by simp only []; omega, by simp only []; omega⟩

theorem said_layout_iff {α : Type}
    (layout : String → String → String → String → α) (t : Int)
    (hlayout : ∀ {w w' m m' : String} {n n' y y' : Int}, w ∈ weeklistCap → w' ∈ weeklistCap →
      m ∈ monthlist3 → m' ∈ monthlist3 → 0 ≤ n → 0 ≤ n' →
      layout w (toString n) m (toString y) = layout w' (toString n') m' (toString y') →
      n = n' ∧ m = m' ∧ y = y') {w m : String}
    (hw : weeklistCap[(weekday (z.day t) - 1).toNat]? = some w)
    (hm : monthlist3[((z.date t).month - 1).toNat]? = some m) :
    (∃ weekday ∈ weeklistCap,
      (s.shownDate.bind fun d => (monthlist3[(d.month - 1).toNat]?).map fun month =>
        layout weekday (toString d.day) month (toString d.year)) =
      some (layout w (toString (z.date t).day) m (toString (z.date t).year))) ↔
      s.shownDate = some (z.date t) := by
  obtain ⟨hmonth, hday⟩ := date_range z t
  constructor
  · rintro ⟨weekday, hweek, h⟩
    obtain ⟨d, hd, h⟩ := Option.bind_eq_some_iff.mp h
    obtain ⟨month, hmo, h⟩ := Option.map_eq_some_iff.mp h
    obtain ⟨hdm, hdd⟩ := shownDate_range hd
    obtain ⟨hn, hname, hy⟩ := hlayout hweek (List.mem_of_getElem? hw) (List.mem_of_getElem? hmo)
      (List.mem_of_getElem? hm) (by omega) (by omega) h
    have hmonths := (index_of_name monthlist3_names.1 hdm hmonth hmo hm).mp hname
    rw [hd]
    cases d with
    | mk year month day =>
        cases hn
        cases hmonths
        cases hy
        rfl
  · intro h
    refine ⟨w, List.mem_of_getElem? hw, ?_⟩
    rw [h, Option.bind_some, hm, Option.map_some]

theorem said_hour (half : Bool) : s.said .hour = some (toString (hour12
    ((s.childIndex .hour (s.controller.item .hour) : Int) + if half then 12 else 0))) := by
  have hlt := childIndex_lt (s := s) (w := .hour) rfl (by decide : 0 < 12)
    (s.controller.item .hour)
  simp only [children] at hlt
  rw [said_looping rfl, widgetTexts, List.getElem?_map, List.getElem?_range hlt]
  generalize s.childIndex .hour (s.controller.item .hour) = h at hlt
  interval_cases h <;> cases half <;> rfl

theorem said_minute : s.said .minute =
    some (minutestr (s.childIndex .minute (s.controller.item .minute))) := by
  have hlt := childIndex_lt (s := s) (w := .minute) rfl (by decide : 0 < 60)
    (s.controller.item .minute)
  simp only [children] at hlt
  rw [said_looping rfl, widgetTexts, List.getElem?_map, List.getElem?_range hlt]
  simp only [minutestr, Option.map_some, Nat.cast_lt_ofNat]
  split <;> rfl

theorem said_apm (hapm : s.controller.item .apm = 0 ∨ s.controller.item .apm = 1) :
    ∃ half : Bool, s.said .apm = some (if half then "PM" else "AM") ∧
      12 * (s.childIndex .apm (s.controller.item .apm) : Int) = if half then 12 else 0 := by
  rcases hapm with h | h
  · exact ⟨false, by simp only [said, widgetTexts, h]; rfl, by rw [h]; rfl⟩
  · exact ⟨true, by simp only [said, widgetTexts, h]; rfl, by rw [h]; rfl⟩

theorem saidTime_eq (hapm : s.controller.item .apm = 0 ∨ s.controller.item .apm = 1) :
    s.shownTime.Valid ∧ s.saidTime = some (timeParser s.shownTime) := by
  have hhour : s.childIndex .hour (s.controller.item .hour) < 12 :=
    childIndex_lt (w := .hour) rfl (by decide : 0 < 12) _
  have hminute : s.childIndex .minute (s.controller.item .minute) < 60 :=
    childIndex_lt (w := .minute) rfl (by decide : 0 < 60) _
  obtain ⟨half, hsaid, hhalf⟩ := said_apm hapm
  have happly : apmstr (s.childIndex .hour (s.controller.item .hour) + if half then 12 else 0) =
      if half then "PM" else "AM" := by
    cases half with
    | true => exact if_pos (by simp only [if_true]; omega)
    | false => exact if_neg (by simp only [Bool.false_eq_true, if_false]; omega)
  constructor
  · simp only [TimeOfDay.Valid, shownTime, hhalf]
    split <;> omega
  · rw [saidTime, said_hour half, said_minute, hsaid]
    simp only [timeParser, clockText, shownTime, hhalf, happly, Option.bind_eq_bind,
      Option.bind_some, Option.pure_def, String.append_assoc]

/-- The wheels say the block exactly when they show its fields. -/
theorem wheelsSpell_iff_showsFields (hpos : 0 < s.dayCount)
    (hapm : s.controller.item .apm = 0 ∨ s.controller.item .apm = 1) :
    s.WheelsSpell z ↔ s.ShowsFields z := by
  obtain ⟨hvalid, htime⟩ := saidTime_eq hapm
  obtain ⟨w, m, hw, hm⟩ := names_of_day (z.day (s.event.date s.side))
  rw [WheelsSpell, ShowsFields, activeBlock]
  generalize s.event.date s.side = t at *
  generalize s.event.time s.side = c at *
  cases hall : s.event.allday with
  | false =>
      have hblock : NewEvent.datetimeBlock z false t c = some (w ++ ", " ++
          toString (z.date t).day ++ " " ++ m ++ " " ++ toString (z.date t).year,
          timeParser c) := by
        simp only [NewEvent.datetimeBlock, dateParser, Zone.date, hw, hm]
        rfl
      have hdate := said_layout_iff (s := s) (z := z)
        (fun w n m y => w ++ ", " ++ n ++ " " ++ m ++ " " ++ y) t
        (fun hw hw' hm hm' hn hn' h => by
          have hlong := congrArg (fun text => text ++ " " ++ "") h
          obtain ⟨-, hn, hm, hy, -⟩ := (longText_inj hw hw' hm hm' hn hn').mp hlong
          exact ⟨hn, hm, hy⟩) hw hm
      have hsaid : ∀ weekday, s.saidBlock weekday =
          (s.saidDate weekday).map fun date => (date, timeParser s.shownTime) := by
        intro weekday
        rw [saidBlock, hall, if_neg Bool.false_ne_true, htime]
        cases s.saidDate weekday <;> rfl
      have heq : s.shownTime = c.printed ↔ timeParser s.shownTime = timeParser c := by
        rw [timeParser_iff, hvalid.printed]
      rw [← hdate, heq, hblock, forall_prop_of_true rfl]
      simp only [hsaid, saidDate, said_date hpos, Option.map_eq_some_iff, Prod.mk.injEq]
      constructor
      · rintro ⟨weekday, hweek, text, htext, rfl, hclock⟩
        exact ⟨⟨weekday, hweek, htext⟩, hclock⟩
      · rintro ⟨⟨weekday, hweek, htext⟩, hclock⟩
        exact ⟨weekday, hweek, _, htext, rfl, hclock⟩
  | true =>
      have hblock : NewEvent.datetimeBlock z true t c = some (toString (z.date t).year,
          w ++ ", " ++ toString (z.date t).day ++ " " ++ m) := by
        simp only [NewEvent.datetimeBlock, dateParser2, Zone.date, hw, hm]
        rfl
      have hdate := said_layout_iff (s := s) (z := z)
        (fun w n m y => (y, w ++ ", " ++ n ++ " " ++ m)) t
        (fun hw hw' hm hm' hn hn' h => by
          obtain ⟨hy, htext⟩ := Prod.mk.inj h
          obtain ⟨-, hn, hm⟩ := (layout_inj (weeklistCap_names.2 _ hw) (weeklistCap_names.2 _ hw')
            hn hn').mp htext
          exact ⟨hn, hm, Int.repr_inj.mp hy⟩) hw hm
      rw [← hdate, hblock]
      simp only [saidBlock, hall, if_true, said_date hpos, Bool.true_eq_false, false_implies,
        and_true]

/-- On wheels that show the instant of the active side, the fields are shown
exactly when the block would be the same with those of the instant. -/
theorem showsFields_iff (hactive : s.ShowsActive z) : s.ShowsFields z ↔ s.PrintsInstant z := by
  obtain ⟨hdate, htime⟩ := hactive
  have hvalid := TimeOfDay.fromDateTime_valid z s.activeDate
  rw [PrintsInstant, activeBlock, datetimeBlock_iff, SameBlock, hvalid.printed, ShowsFields, hdate,
    Option.some.injEq]
  refine and_congr ?_ (forall_congr' fun hall => by rw [htime hall])
  rw [day_eq_iff]
  constructor
  · intro h
    exact ⟨congrArg Date.year h, congrArg Date.month h, congrArg Date.day h⟩
  · rintro ⟨hyear, hmonth, hday⟩
    generalize z.date s.activeDate = d at *
    generalize z.date (s.event.date s.side) = d' at *
    cases d
    cases d'
    simp only [Date.mk.injEq]
    exact ⟨hyear, hmonth, hday⟩

end NewEventState

end CalendarApp
