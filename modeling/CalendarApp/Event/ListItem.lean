/-
# `Event.ListItem` — the row of an event on a day, `listitem`

`_EventState.build` makes one row for each event of the selected day.  Its time
line depends on the day.

    start date          startTime - 0:00        (startTime - endTime when the
    end date                0:00 - endTime        event ends on the same day)
    another day         All day

Read as a part of the day it stands for, a row is a slice: a `0:00` behind the
dash that is not the end's is the midnight ending the day.  With a constant
offset, and for a document whose dates are the days of its instants, the slices
of the days the event is listed on lead from its start to its end
(`slices_tile`).
-/
import CalendarApp.Event.ClockText
import CalendarApp.Event.View
import CalendarApp.Lib.Tiles

namespace CalendarApp

open Lib

/-- What `listitem` shows of an event. -/
structure ListItem where
  color : SampleColor
  time : String
  title : String
  location : Option String
  deriving DecidableEq, Repr

section Row

variable (z : Zone) (event : FetchedEvent) (d : Int)

/-- `st` -/
def listStart : TimeOfDay :=
  if isSameDate z d event.startDate then event.startTime else ⟨0, 0⟩

/-- `et` -/
def listEnd : TimeOfDay :=
  if isSameDate z d event.endDate then event.endTime else ⟨0, 0⟩

/-- The line with the time. -/
def listTime : String :=
  if isSameDate z d event.startDate || isSameDate z d event.endDate then
    timeParser (listStart z event d) ++ " - " ++ timeParser (listEnd z event d)
  else "All day"

/-- `listitem` on the selected day `d`; a type without a colour throws. -/
def listitem : Option ListItem :=
  typecolor[event.type.index]?.map fun color =>
    { color := color
      time := listTime z event d
      title := event.title
      location := if event.location ≠ "" then some event.location else none }

/-- The rows of `_EventState.build` for the selected day. -/
def eventRows (documents : Documents) : Option (List ListItem) :=
  (listedEvents z documents d).bind fun events => events.mapM fun event => listitem z event d

/-- The part of the day that the row stands for. -/
def slice : Int × Int :=
  (d + (listStart z event d).duration,
    if isSameDate z d event.endDate then d + (listEnd z event d).duration
    else z.midnight (z.day d + 1))

end Row

/-- The rows of the event `p` on the days `days` cut the time from its start to
its end into slices. -/
structure SlicedByDay (k : Int) (store : Documents) (viewer : String)
    (p : String × EventDoc) (event : FetchedEvent) (days : List Int) : Prop where
  /-- the event is listed from its start date to its end date -/
  listed : ∀ d, p ∈ listedDocuments (eventsOf store viewer) d ↔
    p.2.startDate ≤ d ∧ d ≤ p.2.endDate
  /-- which are the days `days`, in order -/
  onDays : ∀ n, p ∈ listedDocuments (eventsOf store viewer) ((Zone.fixed k).midnight n) ↔ n ∈ days
  ordered : days.Pairwise (· < ·)
  /-- the slices of the days lead from the start to the end -/
  tiles : Tiles p.2.startAt
    (days.map fun n => slice (Zone.fixed k) event ((Zone.fixed k).midnight n)) p.2.endAt
  /-- a moment of the event is in one slice, any other in none -/
  once : ∀ t, (days.map fun n =>
      slice (Zone.fixed k) event ((Zone.fixed k).midnight n)).countP (Covers t) =
    if p.2.startAt ≤ t ∧ t < p.2.endAt then 1 else 0
  /-- the row of a day shows its slice: all of the day, or two clock times -/
  shown : ∀ n ∈ days, ∃ row, listitem (Zone.fixed k) event ((Zone.fixed k).midnight n) = some row ∧
    (row.time = "All day" ∧ slice (Zone.fixed k) event ((Zone.fixed k).midnight n) =
        ((Zone.fixed k).midnight n, (Zone.fixed k).midnight (n + 1)) ∨
      row.time =
        timeParser (TimeOfDay.fromDateTime (Zone.fixed k)
          (slice (Zone.fixed k) event ((Zone.fixed k).midnight n)).1) ++ " - " ++
        timeParser (TimeOfDay.fromDateTime (Zone.fixed k)
          (slice (Zone.fixed k) event ((Zone.fixed k).midnight n)).2))

/-! ## The text of a slice -/

theorem fromDateTime_duration {z : Zone} {t : Int} (h : z.clock t % 60000 = 0) :
    (TimeOfDay.fromDateTime z t).duration = z.clock t := by
  have hrange := z.clock_range t
  simp only [TimeOfDay.fromDateTime, TimeOfDay.duration, Zone.hour, Zone.minute]
  omega

variable {k : Int} {event : FetchedEvent}

theorem fromDateTime_midnight_add (n : Int) {t : TimeOfDay} (h : t.Valid) :
    TimeOfDay.fromDateTime (Zone.fixed k) ((Zone.fixed k).midnight n + t.duration) = t :=
  ((readBack_iff (Zone.fixed_isMidnight k n) h).mpr (steady_fixed k _ t)).2

theorem listStart_valid (h : event.startTime.Valid) (d : Int) :
    (listStart (Zone.fixed k) event d).Valid := by
  rw [listStart]
  split
  · exact h
  · decide

theorem listEnd_valid (h : event.endTime.Valid) (d : Int) :
    (listEnd (Zone.fixed k) event d).Valid := by
  rw [listEnd]
  split
  · exact h
  · decide

/-- The row of a day shows its slice. -/
theorem listTime_slice (hst : event.startTime.Valid) (het : event.endTime.Valid) (n : Int) :
    let s := slice (Zone.fixed k) event ((Zone.fixed k).midnight n)
    listTime (Zone.fixed k) event ((Zone.fixed k).midnight n) = "All day" ∧
        s = ((Zone.fixed k).midnight n, (Zone.fixed k).midnight (n + 1)) ∨
      listTime (Zone.fixed k) event ((Zone.fixed k).midnight n) =
        timeParser (TimeOfDay.fromDateTime (Zone.fixed k) s.1) ++ " - " ++
          timeParser (TimeOfDay.fromDateTime (Zone.fixed k) s.2) := by
  have hfirst : TimeOfDay.fromDateTime (Zone.fixed k)
      (slice (Zone.fixed k) event ((Zone.fixed k).midnight n)).1 =
        listStart (Zone.fixed k) event ((Zone.fixed k).midnight n) :=
    fromDateTime_midnight_add n (listStart_valid hst _)
  have hnext := fromDateTime_midnight_add (k := k) (n + 1) (t := ⟨0, 0⟩) (by decide)
  have hzero : (⟨0, 0⟩ : TimeOfDay).duration = 0 := rfl
  rw [hzero, Int.add_zero] at hnext
  have hlast : TimeOfDay.fromDateTime (Zone.fixed k)
      (slice (Zone.fixed k) event ((Zone.fixed k).midnight n)).2 =
        listEnd (Zone.fixed k) event ((Zone.fixed k).midnight n) := by
    cases hend : isSameDate (Zone.fixed k) ((Zone.fixed k).midnight n) event.endDate with
    | true =>
        simp only [slice, hend, if_true]
        exact fromDateTime_midnight_add n (listEnd_valid het _)
    | false =>
        simp only [slice, listEnd, hend, Bool.false_eq_true, if_false, Zone.fixed_everyDay k n]
        exact hnext
  simp only [hfirst, hlast, listTime]
  split
  · exact Or.inr rfl
  · next hother =>
      rw [Bool.or_eq_true, not_or] at hother
      refine Or.inl ⟨rfl, ?_⟩
      simp only [slice, listStart, hother.1, hother.2, Bool.false_eq_true, if_false, hzero,
        Int.add_zero, Zone.fixed_everyDay k n]

/-! ## The slices of a document -/

/-- The days from `first` to `last`. -/
def daysFrom (first last : Int) : List Int :=
  (List.range (last + 1 - first).toNat).map fun i : Nat => first + i

theorem mem_daysFrom {first last n : Int} : n ∈ daysFrom first last ↔ first ≤ n ∧ n ≤ last := by
  rw [daysFrom, List.mem_map]
  constructor
  · rintro ⟨i, hi, rfl⟩
    rw [List.mem_range] at hi
    omega
  · rintro ⟨hfirst, hlast⟩
    refine ⟨(n - first).toNat, List.mem_range.mpr ?_, ?_⟩ <;> omega

theorem ordered_daysFrom (first last : Int) : (daysFrom first last).Pairwise (· < ·) := by
  rw [daysFrom, List.pairwise_map]
  refine List.pairwise_lt_range.imp ?_
  intro i j hij
  omega

theorem slice_ofDoc {docId : String} {doc : EventDoc} {type : EventType}
    (hstart : (Zone.fixed k).clock doc.startAt % 60000 = 0)
    (hend : (Zone.fixed k).clock doc.endAt % 60000 = 0) (n : Int) :
    slice (Zone.fixed k) (FetchedEvent.ofDoc (Zone.fixed k) docId doc type)
        ((Zone.fixed k).midnight n) =
      (if n = (Zone.fixed k).day doc.startAt then doc.startAt else (Zone.fixed k).midnight n,
        if n = (Zone.fixed k).day doc.endAt then doc.endAt
        else (Zone.fixed k).midnight (n + 1)) := by
  have hsame : ∀ t, isSameDate (Zone.fixed k) ((Zone.fixed k).midnight n)
      ((Zone.fixed k).dateTime ((Zone.fixed k).date t).year ((Zone.fixed k).date t).month
        ((Zone.fixed k).date t).day) = decide (n = (Zone.fixed k).day t) := by
    intro t
    rw [Bool.eq_iff_iff, isSameDate_iff, decide_eq_true_eq, Zone.dateTime_date,
      Zone.fixed_everyDay, Zone.fixed_everyDay]
  have hstartAt := (Zone.fixed k).wall_eq doc.startAt
  have hendAt := (Zone.fixed k).wall_eq doc.endAt
  have hzero : (⟨0, 0⟩ : TimeOfDay).duration = 0 := rfl
  simp only [slice, listStart, listEnd, FetchedEvent.ofDoc, hsame, decide_eq_true_eq,
    Zone.fixed_everyDay k n]
  rw [Prod.mk.injEq]
  constructor
  · split
    · next hday =>
        rw [fromDateTime_duration hstart, Zone.fixed_midnight, hday]
        rw [Zone.fixed_wall] at hstartAt
        omega
    · rw [hzero, Int.add_zero]
  · split
    · next hday =>
        rw [fromDateTime_duration hend, Zone.fixed_midnight, hday]
        rw [Zone.fixed_wall] at hendAt
        omega
    · rfl

/-- The slices of the days from the one of the start to the one of the end. -/
theorem tiles_slices {docId : String} {doc : EventDoc} {type : EventType}
    (hstart : (Zone.fixed k).clock doc.startAt % 60000 = 0)
    (hend : (Zone.fixed k).clock doc.endAt % 60000 = 0) (hle : doc.startAt ≤ doc.endAt) :
    Tiles doc.startAt
      ((daysFrom ((Zone.fixed k).day doc.startAt) ((Zone.fixed k).day doc.endAt)).map fun n =>
        slice (Zone.fixed k) (FetchedEvent.ofDoc (Zone.fixed k) docId doc type)
          ((Zone.fixed k).midnight n))
      doc.endAt := by
  have hs := (Zone.fixed k).wall_eq doc.startAt
  have he := (Zone.fixed k).wall_eq doc.endAt
  have hs₀ := (Zone.fixed k).clock_range doc.startAt
  have he₀ := (Zone.fixed k).clock_range doc.endAt
  rw [Zone.fixed_wall] at hs he
  simp only [daysFrom, List.map_map, Function.comp_def, slice_ofDoc hstart hend]
  simp only [Zone.fixed_midnight]
  generalize (Zone.fixed k).day doc.startAt = first at *
  generalize (Zone.fixed k).day doc.endAt = last at *
  generalize hcount : (last + 1 - first).toNat = count
  -- the points that bound the slices: the start, the midnights, the end
  let g : Nat → Int := fun i =>
    if i = 0 then doc.startAt else if i < count then (first + i) * 86400000 - k else doc.endAt
  have hfirst : g 0 = doc.startAt := if_pos rfl
  have hlast : g count = doc.endAt := by
    simp only [g]
    rw [if_neg (by omega), if_neg (lt_irrefl _)]
  have hmono : ∀ i, i < count → g i ≤ g (i + 1) := by
    intro i hi
    simp only [g, if_neg (Nat.succ_ne_zero i)]
    split <;> split <;> omega
  have htiles := Tiles.range hmono
  rw [hfirst, hlast] at htiles
  refine cast (congrArg (fun l => Tiles doc.startAt l doc.endAt) ?_) htiles
  refine List.map_congr_left fun i hi => ?_
  rw [List.mem_range] at hi
  simp only [g, if_neg (Nat.succ_ne_zero i), Prod.mk.injEq]
  constructor <;> split <;> split <;> omega

/-- A stored event whose dates are the days of its start and its end is sliced
by day: on a device with a constant offset, its rows cut the time from its
start to its end without a gap and without an overlap. -/
theorem slices_tile (k : Int) {host viewer docId : String} {e : EventModal} {doc : EventDoc}
    {parti : List String} {store : Documents} (hadd : addEvent host e = some doc)
    (hmem : (docId, { doc with participants := parti }) ∈ store) (hview : viewer ∈ parti)
    (hle : doc.startAt ≤ doc.endAt)
    (hstart : doc.startDate = (Zone.fixed k).midnight ((Zone.fixed k).day doc.startAt))
    (hend : doc.endDate = (Zone.fixed k).midnight ((Zone.fixed k).day doc.endAt)) :
    ∃ event days,
      fromFirestore (Zone.fixed k) docId { doc with participants := parti } = some event ∧
      SlicedByDay k store viewer (docId, { doc with participants := parti }) event days := by
  obtain ⟨text, htext, rfl⟩ := Option.map_eq_some_iff.mp hadd
  obtain ⟨hlt, rfl⟩ := List.getElem?_eq_some_iff.mp htext
  obtain ⟨text', htext', htype⟩ := typeOfText_typeText hlt
  obtain rfl : text' = typelist[e.type.index] := Option.some.inj (htext'.symm.trans htext)
  -- the clock times are whole minutes after the midnights
  have hstartMinute : (Zone.fixed k).clock (e.startDate + e.startTime.duration) % 60000 = 0 := by
    have hwall := (Zone.fixed k).wall_eq (e.startDate + e.startTime.duration)
    simp only [EventDoc.ofModal, Zone.fixed_midnight, Zone.fixed_wall] at hstart hwall
    rw [TimeOfDay.duration] at *
    omega
  have hendMinute : (Zone.fixed k).clock (e.endDate + e.endTime.duration) % 60000 = 0 := by
    have hwall := (Zone.fixed k).wall_eq (e.endDate + e.endTime.duration)
    simp only [EventDoc.ofModal, Zone.fixed_midnight, Zone.fixed_wall] at hend hwall
    rw [TimeOfDay.duration] at *
    omega
  have hfetch : fromFirestore (Zone.fixed k) docId
      { EventDoc.ofModal host e typelist[e.type.index] with participants := parti } =
      some (FetchedEvent.ofDoc (Zone.fixed k) docId
        { EventDoc.ofModal host e typelist[e.type.index] with participants := parti } e.type) :=
    congrArg (Option.map _) htype
  have hown : (docId, { EventDoc.ofModal host e typelist[e.type.index] with
      participants := parti }) ∈ eventsOf store viewer := mem_eventsOf.mpr ⟨hmem, hview⟩
  have hlisted : ∀ d, (docId, { EventDoc.ofModal host e typelist[e.type.index] with
      participants := parti }) ∈ listedDocuments (eventsOf store viewer) d ↔
        e.startDate ≤ d ∧ d ≤ e.endDate := fun d => mem_listedDocuments.trans (and_iff_right hown)
  have htiles := @tiles_slices k docId
    { EventDoc.ofModal host e typelist[e.type.index] with participants := parti } e.type
    hstartMinute hendMinute hle
  refine ⟨_, daysFrom _ _, hfetch, hlisted, ?_, ordered_daysFrom _ _, htiles,
    fun t => htiles.countP t, ?_⟩
  · intro n
    rw [hlisted, mem_daysFrom]
    simp only [EventDoc.ofModal, Zone.fixed_midnight] at hstart hend ⊢
    omega
  · intro n hn
    have hcolor : e.type.index < typecolor.length := hlt
    refine ⟨_, congrArg (Option.map _) (List.getElem?_eq_getElem hcolor), ?_⟩
    exact listTime_slice (TimeOfDay.fromDateTime_valid _ _) (TimeOfDay.fromDateTime_valid _ _) n

/-- 20:00 on 1 May to 9:30 on 3 May 2019 in Hong Kong. -/
def mayNights : EventModal :=
  { mayMeeting with endDate := 1556812800000, startTime := ⟨20, 0⟩, endTime := ⟨9, 30⟩ }

theorem slices_tile_mayNights : ∃ event days,
    fromFirestore (Zone.fixed 28800000) "d"
        { EventDoc.ofModal "host" mayNights "Friend" with participants := ["friend"] } =
      some event ∧
    SlicedByDay 28800000
      [("d", { EventDoc.ofModal "host" mayNights "Friend" with participants := ["friend"] })]
      "friend" ("d", { EventDoc.ofModal "host" mayNights "Friend" with participants := ["friend"] })
      event days :=
  @slices_tile 28800000 "host" "friend" "d" mayNights (EventDoc.ofModal "host" mayNights "Friend")
    ["friend"] _ (by decide) (by decide) (by decide) (by decide) (by decide) (by decide)

/-- Its three rows. -/
example : (fromFirestore (Zone.fixed 28800000) "d" (EventDoc.ofModal "host" mayNights "Friend")).map
    (fun event => [18017, 18018, 18019].map fun n =>
      listTime (Zone.fixed 28800000) event ((Zone.fixed 28800000).midnight n)) =
    some ["8:00 PM - 12:00 AM", "All day", "12:00 AM - 9:30 AM"] := by decide

end CalendarApp
