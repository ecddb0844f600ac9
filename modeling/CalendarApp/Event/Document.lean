/-
# `Event.Document` — writing an event and reading it back

`addEvent` (event_new.dart) writes an event as four epochs and some texts;
`EventModal.fromFirestore` (event_modal.dart) reads it back.  The writer
adds a clock time to a local midnight as a duration; the reader takes the
local fields of the sum.  The two agree exactly when the wall clock advances
with real time from the midnight to the event:

    local fields of  midnight + (h:m)  =  (that date, h:m)
        iff  the UTC offset there exceeds the offset at the midnight
             by at least 0 and less than one minute           (`readBack_iff`)

The type travels as an index into two lists of different lengths.  Every
type the picker offers has a text, and the text is read back as the same
type (`typeOfText_typeText`), although `typelist` calls it by another name.
-/
import CalendarApp.Event.Modal

namespace CalendarApp

open Lib

/-- A document of the `events` collection. -/
structure EventDoc where
  host : String
  participants : List String
  /-- the key `start` -/
  startAt : Int
  startDate : Int
  /-- the key `end` -/
  endAt : Int
  endDate : Int
  title : String
  location : String
  allday : Bool
  type : String
  note : String
  deriving DecidableEq, Repr

/-- `EventModal` as `fromFirestore` sets it. -/
structure FetchedEvent extends EventFields where
  id : String
  parti : List String
  deriving DecidableEq, Repr

/-- `errorlist`. -/
def errorlist : List String :=
  ["Title cannot be empty", "Start date cannot be later than end date"]

/-- `validation()`: the message shown, or leave to call `addEvent`. -/
def validation (e : EventModal) : Except String Unit :=
  if e.title = "" then .error errorlist[0]
  else if e.getStartandEnd.1 > e.getStartandEnd.2 then .error errorlist[1]
  else .ok ()

/-- The map that `addEvent` passes to `add`, for the text of the type. -/
def EventDoc.ofModal (userId : String) (e : EventModal) (text : String) : EventDoc where
  host := userId
  participants := [userId]
  startAt := e.startDate + e.startTime.duration
  startDate := e.startDate
  endAt := e.endDate + e.endTime.duration
  endDate := e.endDate
  title := e.title
  location := e.location
  allday := e.allday
  type := text
  note := e.note

/-- `addEvent` for the signed-in user; `none` when `typeText` throws. -/
def addEvent (userId : String) (e : EventModal) : Option EventDoc :=
  e.typeText.map (EventDoc.ofModal userId e)

/-- The assignments of `EventModal.fromFirestore`, for the type found. -/
def FetchedEvent.ofDoc (z : Zone) (documentID : String) (document : EventDoc)
    (type : EventType) : FetchedEvent :=
  let start := document.startAt
  let finish := document.endAt
  { id := documentID
    startDate := z.dateTime (z.date start).year (z.date start).month (z.date start).day
    endDate := z.dateTime (z.date finish).year (z.date finish).month (z.date finish).day
    startTime := TimeOfDay.fromDateTime z start
    endTime := TimeOfDay.fromDateTime z finish
    title := document.title
    location := document.location
    note := document.note
    type := type
    allday := document.allday
    parti := document.participants }

/-- `EventModal.fromFirestore`; `none` when the type lookup throws. -/
def fromFirestore (z : Zone) (documentID : String) (document : EventDoc) :
    Option FetchedEvent :=
  (typeOfText document.type).map (FetchedEvent.ofDoc z documentID document)

/-- The `i`-th item of `typePicker`, which has `typelist.length` items. -/
def typePicker (i : Nat) : Option EventType :=
  if i < typelist.length then EventType.values[i]? else none

theorem validation_ok {e : EventModal} :
    validation e = .ok () ↔ e.title ≠ "" ∧ e.instant .start ≤ e.instant .finish := by
  have hse : e.getStartandEnd = (e.instant .start, e.instant .finish) := rfl
  simp only [validation, hse]
  by_cases ht : e.title = ""
  · rw [if_pos ht]
    exact ⟨fun hc => (nomatch hc), fun hc => absurd ht hc.1⟩
  · rw [if_neg ht]
    by_cases hlt : e.instant .start > e.instant .finish
    · rw [if_pos hlt]
      exact ⟨fun hc => (nomatch hc), fun hc => absurd hc.2 (by omega)⟩
    · rw [if_neg hlt]
      exact ⟨fun _ => ⟨ht, by omega⟩, fun _ => rfl⟩

/-! ## The type -/

theorem values_index {i : Nat} {t : EventType} (h : EventType.values[i]? = some t) :
    t.index = i := by
  obtain ⟨hlt, rfl⟩ := List.getElem?_eq_some_iff.mp h
  have hlen : i < 9 := hlt
  interval_cases i <;> rfl

theorem typePicker_index {i : Nat} {t : EventType} (h : typePicker i = some t) :
    t.index < typelist.length := by
  simp only [typePicker] at h
  split at h
  · next hi =>
      rw [values_index h]
      exact hi
  · cases h

theorem typeOfText_index {text : String} {t : EventType} (h : typeOfText text = some t) :
    t.index < typelist.length := by
  simp only [typeOfText] at h
  split at h
  · next hfound =>
      rw [values_index h]
      exact indexOf_lt_length hfound
  · cases h

/-- A picked type has a text, and the text reads back as that type. -/
theorem typeOfText_typeText {e : EventModal} (h : e.type.index < typelist.length) :
    ∃ text, e.typeText = some text ∧ typeOfText text = some e.type := by
  simp only [EventModal.typeText]
  cases ht : e.type with
  | Family => rw [ht] at h; exact absurd h (by decide)
  | _ => exact ⟨_, rfl, by decide⟩

/-! ## Dates and clock times -/

/-- The wall clock runs with real time from the side's midnight to its clock
time: the offset grows by less than a minute and does not shrink. -/
def Steady (z : Zone) (d : Int) (t : TimeOfDay) : Prop :=
  0 ≤ z.offset (d + t.duration) - z.offset d ∧
    z.offset (d + t.duration) - z.offset d < 60000

instance (z : Zone) (d : Int) (t : TimeOfDay) : Decidable (Steady z d t) :=
  inferInstanceAs (Decidable (_ ∧ _))

theorem wall_add {z : Zone} {d : Int} (hd : z.IsMidnight d) (t : TimeOfDay) :
    z.wall (d + t.duration) = z.day d * 86400000 +
      (t.duration + (z.offset (d + t.duration) - z.offset d)) := by
  have hwall := z.wall_eq d
  rw [hd.1] at hwall
  simp only [Zone.wall] at *
  omega

theorem readBack_iff {z : Zone} {d : Int} {t : TimeOfDay} (hd : z.IsMidnight d)
    (ht : t.Valid) :
    z.midnight (z.day (d + t.duration)) = d ∧ TimeOfDay.fromDateTime z (d + t.duration) = t ↔
      Steady z d t := by
  have hwall := wall_add hd t
  have heq := z.wall_eq (d + t.duration)
  obtain ⟨hdur₀, hdur₁⟩ := TimeOfDay.duration_range ht
  rw [TimeOfDay.fromDateTime_eq_iff ht]
  simp only [Steady]
  constructor
  · rintro ⟨hdate, hclock⟩
    -- the same midnight, hence the same local day; the clock is then off by
    -- exactly the change of the offset
    have hday : z.day (d + t.duration) = z.day d := by
      refine z.midnight_inj ?_
      rw [hdate, hd.2]
    rw [hday] at heq
    omega
  · rintro ⟨hδ₀, hδ₁⟩
    obtain ⟨hday, hclock⟩ := z.day_unique hwall (by omega) (by omega)
    refine ⟨by rw [hday, hd.2], ?_, ?_⟩ <;> rw [hclock] <;> omega

/-! ## The round trip -/

/-- Saving and reading back in the same zone returns the entered fields. -/
def RoundTrips (z : Zone) (userId documentID : String) (e : EventModal) : Prop :=
  ∃ doc, addEvent userId e = some doc ∧
    ∃ f, fromFirestore z documentID doc = some f ∧ f.toEventFields = e.toEventFields

/-- What is read back of a saved event: everything as entered but the dates
and the clock times, which are the local fields of the two instants. -/
theorem fromFirestore_addEvent (z : Zone) (userId documentID : String) {e : EventModal}
    (htype : e.type.index < typelist.length) :
    ∃ doc f, addEvent userId e = some doc ∧ fromFirestore z documentID doc = some f ∧
      f.toEventFields = { e.toEventFields with
        startDate := z.midnight (z.day (e.instant .start))
        endDate := z.midnight (z.day (e.instant .finish))
        startTime := TimeOfDay.fromDateTime z (e.instant .start)
        endTime := TimeOfDay.fromDateTime z (e.instant .finish) } := by
  obtain ⟨text, htext, hback⟩ := typeOfText_typeText htype
  have hfetch : fromFirestore z documentID (EventDoc.ofModal userId e text)
      = some (FetchedEvent.ofDoc z documentID (EventDoc.ofModal userId e text) e.type) :=
    congrArg (Option.map _) hback
  refine ⟨_, _, congrArg (Option.map _) htext, hfetch, ?_⟩
  simp only [FetchedEvent.ofDoc, EventDoc.ofModal, Zone.dateTime_date]
  rfl

/-- An event is read back as entered exactly when both of its sides are
steady. -/
theorem roundTrips_iff (z : Zone) (userId documentID : String) (e : EventModal)
    (hstart : z.IsMidnight e.startDate) (hend : z.IsMidnight e.endDate)
    (hst : e.startTime.Valid) (het : e.endTime.Valid)
    (htype : ∃ i, typePicker i = some e.type) :
    RoundTrips z userId documentID e ↔
      Steady z e.startDate e.startTime ∧ Steady z e.endDate e.endTime := by
  obtain ⟨i, hi⟩ := htype
  obtain ⟨doc, f, hadd, hfetch, hfields⟩ :=
    fromFirestore_addEvent z userId documentID (typePicker_index hi)
  rw [← readBack_iff hstart hst, ← readBack_iff hend het]
  constructor
  · rintro ⟨doc', hadd', f', hfetch', hsame⟩
    obtain rfl : doc = doc' := Option.some.inj (hadd.symm.trans hadd')
    obtain rfl : f = f' := Option.some.inj (hfetch.symm.trans hfetch')
    have h := hfields.symm.trans hsame
    exact ⟨⟨congrArg EventFields.startDate h, congrArg EventFields.startTime h⟩,
      ⟨congrArg EventFields.endDate h, congrArg EventFields.endTime h⟩⟩
  · rintro ⟨⟨h₁, h₂⟩, ⟨h₃, h₄⟩⟩
    refine ⟨doc, hadd, f, hfetch, ?_⟩
    simp only [EventModal.instant, EventModal.date, EventModal.time] at hfields
    rw [hfields, h₁, h₂, h₃, h₄]

/-- A zone with a constant offset is steady everywhere. -/
theorem steady_fixed (k : Int) (d : Int) (t : TimeOfDay) :
    Steady (Zone.fixed k) d t := by
  have h : (Zone.fixed k).offset (d + t.duration) - (Zone.fixed k).offset d = 0 :=
    Int.sub_self k
  simp only [Steady, h]
  omega

/-- 10:30 to 11:30 on 1 May 2019 in Hong Kong. -/
def mayMeeting : EventModal where
  startDate := 1556640000000
  endDate := 1556640000000
  startTime := ⟨10, 30⟩
  endTime := ⟨11, 30⟩
  startapm := .AM
  endapm := .AM
  title := "Meeting"
  location := ""
  note := ""
  type := .Dating
  allday := false

theorem roundTrips_hongKong : RoundTrips (Zone.fixed 28800000) "u" "d" mayMeeting :=
  (roundTrips_iff (Zone.fixed 28800000) "u" "d" mayMeeting (by decide) (by decide)
    (by decide) (by decide) ⟨6, rfl⟩).mpr
    ⟨steady_fixed _ _ _, steady_fixed _ _ _⟩

/-- 10:00 to 11:00 on 31 March 2019, when London's clocks went forward at
1:00. -/
def springMeeting : EventModal :=
  { mayMeeting with
    startDate := 1553990400000
    endDate := 1553990400000
    startTime := ⟨10, 0⟩
    endTime := ⟨11, 0⟩ }

/-- The clock times exist on the date, and the event is read back an hour
later than it was entered. -/
theorem roundTrips_london_fails :
    (Zone.summer 1553994000000).IsMidnight springMeeting.startDate ∧
      (Zone.summer 1553994000000).IsMidnight springMeeting.endDate ∧
      springMeeting.startTime.Valid ∧ springMeeting.endTime.Valid ∧
      typePicker 6 = some springMeeting.type ∧
      TimeOfDay.fromDateTime (Zone.summer 1553994000000) 1554022800000 = ⟨10, 0⟩ ∧
      TimeOfDay.fromDateTime (Zone.summer 1553994000000) 1554026400000 = ⟨11, 0⟩ ∧
      ¬ RoundTrips (Zone.summer 1553994000000) "u" "d" springMeeting := by
  refine ⟨by decide, by decide, by decide, by decide, by decide, by decide, by decide, ?_⟩
  rintro ⟨doc, hadd, f, hfetch, hsame⟩
  obtain ⟨doc', f', hadd', hfetch', hfields⟩ :=
    fromFirestore_addEvent (Zone.summer 1553994000000) "u" "d"
      (show springMeeting.type.index < typelist.length by decide)
  obtain rfl : doc = doc' := Option.some.inj (hadd.symm.trans hadd')
  obtain rfl : f = f' := Option.some.inj (hfetch.symm.trans hfetch')
  have htime := congrArg EventFields.startTime (hfields.symm.trans hsame)
  exact absurd htime (by decide)

end CalendarApp
