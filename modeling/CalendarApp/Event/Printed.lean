/-
# `Event.Printed` — what the screens print of an event's times

Four screens print the two sides of an event, each with texts of its own.

    NewEvent      dateParser, timeParser       all day: the year, dateParser2
    EventDetail   dateParser3, timeParser
    Invitation    dateParser2, timeParser
    UserScreen    dateParser, timeParser, for the start only

The editor prints the fields that were entered, the others the fields that
`fromFirestore` computes from the stored instants.  A text tells the day it is
made of and the minute as it is written, the one of an invitation at least among
the days of a week.  So a screen prints what was entered exactly when the clock
runs steadily from midnight to the clock time, up to the hour 24 that is
written like 12, and a block without a time exactly when the clock time is still
on its day (`printed_iff`).
-/
import CalendarApp.Event.DateText

namespace CalendarApp

open Lib

/-! ## The blocks of the screens -/

/-- `datetimeBlock(d, t, flag)` of the editor: its two texts. -/
def NewEvent.datetimeBlock (z : Zone) (allday : Bool) (d : Int) (t : TimeOfDay) :
    Option (String × String) :=
  if allday then (dateParser2 z d).map fun text => (toString (z.date d).year, text)
  else (dateParser z d).map fun text => (text, timeParser t)

/-- The four texts of the cards FROM and TO. -/
def EventDetail.fromTo (z : Zone) (event : EventFields) : (String × String) × String × String :=
  ((dateParser3 z event.startDate, timeParser event.startTime),
    dateParser3 z event.endDate, timeParser event.endTime)

/-- `timeBlock(d, t)` of an invitation. -/
def Invitation.timeBlock (z : Zone) (d : Int) (t : TimeOfDay) : Option (String × String) :=
  (dateParser2 z d).map fun text => (text, timeParser t)

/-- `eventDetail(event)` of the user's screen: when, the title and the note. -/
def UserScreen.eventDetail (z : Zone) (event : EventFields) : Option (String × String × String) :=
  (dateParser z event.startDate).map fun text =>
    (text ++ " " ++ timeParser event.startTime, event.title, "Note: " ++ event.note)

/-- Two sides of which the texts are the same. -/
def SameSide (z : Zone) (d d' : Int) (t t' : TimeOfDay) : Prop :=
  z.day d = z.day d' ∧ t.printed = t'.printed

/-- Two sides of which a block of the editor is the same; all day it leaves the
time out. -/
def SameBlock (z : Zone) (allday : Bool) (d d' : Int) (t t' : TimeOfDay) : Prop :=
  z.day d = z.day d' ∧ (allday = false → t.printed = t'.printed)

/-! ## What the texts tell -/

section

variable {z : Zone} {d d' : Int} {t t' : TimeOfDay} {e e' : EventFields}

theorem datetimeBlock_iff {allday : Bool} :
    NewEvent.datetimeBlock z allday d t = NewEvent.datetimeBlock z allday d' t' ↔
      SameBlock z allday d d' t t' := by
  cases allday with
  | false =>
      obtain ⟨text, htext⟩ := Option.isSome_iff_exists.mp (dateParser_isSome z d)
      obtain ⟨text', htext'⟩ := Option.isSome_iff_exists.mp (dateParser_isSome z d')
      rw [SameBlock, ← dateParser_iff, ← timeParser_iff, htext, htext']
      simp only [NewEvent.datetimeBlock, Bool.false_eq_true, if_false, htext, htext',
        Option.map_some, Option.some.injEq, Prod.mk.injEq, forall_const]
  | true =>
      -- the year and the text without a year tell the day
      obtain ⟨text, htext⟩ := Option.isSome_iff_exists.mp (dateParser2_isSome z d)
      obtain ⟨text', htext'⟩ := Option.isSome_iff_exists.mp (dateParser2_isSome z d')
      have hshort := dateParser2_iff z d d'
      rw [htext, htext', Option.some.injEq] at hshort
      simp only [NewEvent.datetimeBlock, if_true, htext, htext', Option.map_some,
        Option.some.injEq, Prod.mk.injEq, SameBlock, Bool.true_eq_false, false_implies, and_true]
      rw [hshort]
      constructor
      · rintro ⟨hyear, -, hmonth, hday⟩
        exact (day_eq_iff z d d').mpr ⟨Int.repr_inj.mp hyear, hmonth, hday⟩
      · intro h
        obtain ⟨hyear, hmonth, hday⟩ := (day_eq_iff z d d').mp h
        exact ⟨by rw [hyear], by rw [h], hmonth, hday⟩

theorem fromTo_iff : EventDetail.fromTo z e = EventDetail.fromTo z e' ↔
    SameSide z e.startDate e'.startDate e.startTime e'.startTime ∧
      SameSide z e.endDate e'.endDate e.endTime e'.endTime := by
  simp only [EventDetail.fromTo, Prod.mk.injEq, SameSide, dateParser3_iff, timeParser_iff]

theorem eventDetail_iff : UserScreen.eventDetail z e = UserScreen.eventDetail z e' ↔
    SameSide z e.startDate e'.startDate e.startTime e'.startTime ∧ e.title = e'.title ∧
      e.note = e'.note := by
  have hwhen := dateParser_append_iff z e.startDate e'.startDate (timeParser e.startTime)
    (timeParser e'.startTime)
  obtain ⟨text, htext⟩ := Option.isSome_iff_exists.mp (dateParser_isSome z e.startDate)
  obtain ⟨text', htext'⟩ := Option.isSome_iff_exists.mp (dateParser_isSome z e'.startDate)
  rw [timeParser_iff] at hwhen
  rw [SameSide, ← hwhen]
  simp only [UserScreen.eventDetail, htext, htext', Option.map_some, Option.some.injEq,
    Prod.mk.injEq]
  refine and_congr_right fun _ => and_congr_right fun _ => ⟨fun h => ?_, fun h => by rw [h]⟩
  have hchars := congrArg String.toList h
  simp only [String.toList_append] at hchars
  exact String.toList_inj.mp (List.append_cancel_left hchars)

theorem timeBlock_iff : Invitation.timeBlock z d t = Invitation.timeBlock z d' t' ↔
    dateParser2 z d = dateParser2 z d' ∧ t.printed = t'.printed := by
  obtain ⟨text, htext⟩ := Option.isSome_iff_exists.mp (dateParser2_isSome z d)
  obtain ⟨text', htext'⟩ := Option.isSome_iff_exists.mp (dateParser2_isSome z d')
  rw [← timeParser_iff, htext, htext']
  simp only [Invitation.timeBlock, htext, htext', Option.map_some, Option.some.injEq,
    Prod.mk.injEq]

/-- Within a week the weekday tells the day. -/
theorem day_eq_of_week (h : dateParser2 z d = dateParser2 z d') (hlow : z.day d' - 7 < z.day d)
    (hhigh : z.day d < z.day d' + 7) : z.day d = z.day d' := by
  have hweek := ((dateParser2_iff z d d').mp h).1
  simp only [weekday] at hweek
  omega

end

/-! ## What was entered is printed -/

/-- The clock runs from midnight to the clock time as steadily as the text tells:
it then shows the time that is written. -/
def SteadyPrinted (z : Zone) (d : Int) (t : TimeOfDay) : Prop :=
  t.printed.Valid ∧
    0 ≤ t.duration - t.printed.duration + (z.offset (d + t.duration) - z.offset d) ∧
      t.duration - t.printed.duration + (z.offset (d + t.duration) - z.offset d) < 60000

/-- The clock does not pass midnight on the way to the clock time. -/
def StaysOnDay (z : Zone) (d : Int) (t : TimeOfDay) : Prop :=
  0 ≤ t.duration + (z.offset (d + t.duration) - z.offset d) ∧
    t.duration + (z.offset (d + t.duration) - z.offset d) < 86400000

/-- What a block of the editor needs. -/
def SteadyBlock (z : Zone) (allday : Bool) (d : Int) (t : TimeOfDay) : Prop :=
  if allday then StaysOnDay z d t else SteadyPrinted z d t

instance (z : Zone) (d : Int) (t : TimeOfDay) : Decidable (SteadyPrinted z d t) :=
  inferInstanceAs (Decidable (_ ∧ _ ∧ _))

section

variable {z : Zone} {d : Int} {t : TimeOfDay}

theorem steadyPrinted_iff (ht : t.Valid) : SteadyPrinted z d t ↔ Steady z d t := by
  rw [SteadyPrinted, ht.printed, Steady, Int.sub_self, Int.zero_add]
  exact and_iff_right ht

theorem staysOnDay_iff (hd : z.IsMidnight d) :
    z.day (d + t.duration) = z.day d ↔ StaysOnDay z d t := by
  have hwall := wall_add hd t
  have heq := z.wall_eq (d + t.duration)
  have hclock := z.clock_range (d + t.duration)
  rw [StaysOnDay]
  constructor
  · intro h
    rw [h] at heq
    omega
  · rintro ⟨h₀, h₁⟩
    exact (z.day_unique hwall h₀ h₁).1

theorem readBack_printed_iff (hd : z.IsMidnight d) :
    SameSide z (d + t.duration) d (TimeOfDay.fromDateTime z (d + t.duration)) t ↔
      SteadyPrinted z d t := by
  have hvalid := TimeOfDay.fromDateTime_valid z (d + t.duration)
  have hwall := wall_add hd t
  have heq := z.wall_eq (d + t.duration)
  rw [SameSide, hvalid.printed, SteadyPrinted]
  constructor
  · rintro ⟨hday, htime⟩
    have hprinted : t.printed.Valid := htime ▸ hvalid
    obtain ⟨hlow, hhigh⟩ := (TimeOfDay.fromDateTime_eq_iff hprinted).mp htime
    rw [hday] at heq
    exact ⟨hprinted, by omega, by omega⟩
  · rintro ⟨hprinted, h₀, h₁⟩
    obtain ⟨hdur₀, hdur₁⟩ := TimeOfDay.duration_range hprinted
    obtain ⟨hday, hclock⟩ := z.day_unique hwall (by omega) (by omega)
    exact ⟨hday, (TimeOfDay.fromDateTime_eq_iff hprinted).mpr (by rw [hclock]; omega)⟩

theorem readBack_block_iff {allday : Bool} (hd : z.IsMidnight d) :
    SameBlock z allday (d + t.duration) d (TimeOfDay.fromDateTime z (d + t.duration)) t ↔
      SteadyBlock z allday d t := by
  cases allday with
  | false =>
      rw [SteadyBlock, if_neg Bool.false_ne_true, ← readBack_printed_iff hd, SameBlock, SameSide]
      simp only [forall_const]
  | true =>
      rw [SteadyBlock, if_pos rfl, ← staysOnDay_iff hd, SameBlock]
      simp only [Bool.true_eq_false, false_implies, and_true]

theorem day_near (hd : z.IsMidnight d) (hoffset : ∀ i, |z.offset i| < 86400000)
    (ht : t.printed.Valid) :
    z.day d - 7 < z.day (d + t.duration) ∧ z.day (d + t.duration) < z.day d + 7 := by
  have hwall := wall_add hd t
  have heq := z.wall_eq (d + t.duration)
  have hclock := z.clock_range (d + t.duration)
  obtain ⟨hlow, hhigh⟩ := abs_lt.mp (hoffset d)
  obtain ⟨hlow', hhigh'⟩ := abs_lt.mp (hoffset (d + t.duration))
  have hdur : 0 ≤ t.duration ∧ t.duration < 90000000 := by
    rw [TimeOfDay.printed] at ht
    rw [TimeOfDay.duration]
    split at ht
    · next h24 =>
        obtain ⟨-, -, h₂, h₃⟩ := ht
        simp only at h₂ h₃
        omega
    · obtain ⟨h₀, h₁, h₂, h₃⟩ := ht
      omega
  constructor <;> omega

end

/-- An event with dates at midnight and a type that has a text. -/
structure Enterable (z : Zone) (e : EventModal) : Prop where
  startDate : z.IsMidnight e.startDate
  endDate : z.IsMidnight e.endDate
  type : ∃ i, typePicker i = some e.type

/-- The screens print of the stored event `f` what the editor had of `e`. -/
structure PrintsEntered (z : Zone) (e : EventModal) (f : FetchedEvent) : Prop where
  detail : EventDetail.fromTo z f.toEventFields = EventDetail.fromTo z e.toEventFields ↔
    SteadyPrinted z e.startDate e.startTime ∧ SteadyPrinted z e.endDate e.endTime
  card : UserScreen.eventDetail z f.toEventFields = UserScreen.eventDetail z e.toEventFields ↔
    SteadyPrinted z e.startDate e.startTime
  editor : NewEvent.datetimeBlock z f.allday f.startDate f.startTime =
      NewEvent.datetimeBlock z e.allday e.startDate e.startTime ∧
    NewEvent.datetimeBlock z f.allday f.endDate f.endTime =
      NewEvent.datetimeBlock z e.allday e.endDate e.endTime ↔
    SteadyBlock z e.allday e.startDate e.startTime ∧ SteadyBlock z e.allday e.endDate e.endTime
  /-- a block of an invitation prints what was entered if the clock runs steadily -/
  start : SteadyPrinted z e.startDate e.startTime →
    Invitation.timeBlock z f.startDate f.startTime =
      Invitation.timeBlock z e.startDate e.startTime
  finish : SteadyPrinted z e.endDate e.endTime →
    Invitation.timeBlock z f.endDate f.endTime = Invitation.timeBlock z e.endDate e.endTime
  /-- and only then, on clocks less than a day from UTC -/
  invitation : (∀ i, |z.offset i| < 86400000) →
    (Invitation.timeBlock z f.startDate f.startTime =
        Invitation.timeBlock z e.startDate e.startTime →
      SteadyPrinted z e.startDate e.startTime) ∧
    (Invitation.timeBlock z f.endDate f.endTime = Invitation.timeBlock z e.endDate e.endTime →
      SteadyPrinted z e.endDate e.endTime)

theorem timeBlock_readBack {z : Zone} {d d' : Int} {t t' : TimeOfDay} (hd : z.IsMidnight d)
    (hday : z.day d' = z.day (d + t.duration))
    (htime : t' = TimeOfDay.fromDateTime z (d + t.duration)) :
    (SteadyPrinted z d t → Invitation.timeBlock z d' t' = Invitation.timeBlock z d t) ∧
      ((∀ i, |z.offset i| < 86400000) →
        Invitation.timeBlock z d' t' = Invitation.timeBlock z d t → SteadyPrinted z d t) := by
  rw [timeBlock_iff, ← readBack_printed_iff hd, SameSide, ← hday, ← htime]
  constructor
  · rintro ⟨hsame, hprinted⟩
    refine ⟨?_, hprinted⟩
    rw [dateParser2, dateParser2, Zone.date, Zone.date, hsame]
  · rintro hoffset ⟨htext, hprinted⟩
    have hvalid : t'.Valid := htime ▸ TimeOfDay.fromDateTime_valid z _
    obtain ⟨hlow, hhigh⟩ := day_near hd hoffset (hprinted ▸ hvalid.printed.symm ▸ hvalid)
    rw [← hday] at hlow hhigh
    exact ⟨day_eq_of_week htext hlow hhigh, hprinted⟩

/-- Where no day is skipped, every screen prints of a stored event the dates
and the times that were entered, exactly when the clock runs steadily from
midnight to the times it prints. -/
theorem printed_iff {z : Zone} (hz : z.EveryDay) (userId documentID : String) {e : EventModal}
    (he : Enterable z e) : ∃ doc f, addEvent userId e = some doc ∧
      fromFirestore z documentID doc = some f ∧ PrintsEntered z e f := by
  obtain ⟨i, hi⟩ := he.type
  obtain ⟨doc, f, hadd, hfetch, hfields⟩ :=
    fromFirestore_addEvent z userId documentID (typePicker_index hi)
  refine ⟨doc, f, hadd, hfetch, ?_⟩
  simp only [EventModal.instant, EventModal.date, EventModal.time] at hfields
  have hsd : z.day f.startDate = z.day (e.startDate + e.startTime.duration) := by
    rw [hfields, hz]
  have hed : z.day f.endDate = z.day (e.endDate + e.endTime.duration) := by
    rw [hfields, hz]
  have hst : f.startTime = TimeOfDay.fromDateTime z (e.startDate + e.startTime.duration) :=
    congrArg EventFields.startTime hfields
  have het : f.endTime = TimeOfDay.fromDateTime z (e.endDate + e.endTime.duration) :=
    congrArg EventFields.endTime hfields
  have htitle : f.title = e.title := by rw [hfields]
  have hnote : f.note = e.note := by rw [hfields]
  have hallday : f.allday = e.allday := by rw [hfields]
  have hstart := timeBlock_readBack he.startDate hsd hst
  have hfinish := timeBlock_readBack he.endDate hed het
  refine ⟨?_, ?_, ?_, hstart.1, hfinish.1, fun hoffset => ⟨hstart.2 hoffset, hfinish.2 hoffset⟩⟩
  · rw [fromTo_iff, ← readBack_printed_iff he.startDate, ← readBack_printed_iff he.endDate,
      SameSide, SameSide, SameSide, SameSide, hsd, hed, hst, het]
  · rw [eventDetail_iff, ← readBack_printed_iff he.startDate, SameSide, SameSide, hsd, hst]
    exact and_iff_left ⟨htitle, hnote⟩
  · rw [hallday, datetimeBlock_iff, datetimeBlock_iff, ← readBack_block_iff he.startDate,
      ← readBack_block_iff he.endDate, SameBlock, SameBlock, SameBlock, SameBlock, hsd, hed, hst,
      het]

/-- On 1 May 2019 in Hong Kong, as the screen has it when it is opened at 23:30:
to 24:30. -/
def lateMeeting : EventModal :=
  { mayMeeting with startTime := ⟨23, 30⟩, endTime := ⟨24, 30⟩, startapm := .PM, endapm := .PM }

/-- Its card is printed as it was entered, and its end is not. -/
theorem printed_lateMeeting : ∃ doc f, addEvent "u" lateMeeting = some doc ∧
    fromFirestore (Zone.fixed 28800000) "d" doc = some f ∧
      PrintsEntered (Zone.fixed 28800000) lateMeeting f ∧
      UserScreen.eventDetail (Zone.fixed 28800000) f.toEventFields =
        UserScreen.eventDetail (Zone.fixed 28800000) lateMeeting.toEventFields ∧
      EventDetail.fromTo (Zone.fixed 28800000) f.toEventFields ≠
        EventDetail.fromTo (Zone.fixed 28800000) lateMeeting.toEventFields := by
  obtain ⟨doc, f, hadd, hfetch, hprints⟩ :=
    printed_iff (Zone.fixed_everyDay 28800000) "u" "d" (e := lateMeeting)
      ⟨by decide, by decide, ⟨6, rfl⟩⟩
  refine ⟨doc, f, hadd, hfetch, hprints, hprints.card.mpr ?_, fun h => ?_⟩
  · exact (steadyPrinted_iff (by decide)).mpr (steady_fixed _ _ _)
  · exact absurd (hprints.detail.mp h).2 (by decide)

end CalendarApp
