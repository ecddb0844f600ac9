/-
# `Event.View` — on which days an event is shown

Two screens decide it, each with a filter of its own over the documents of
the events the user takes part in: the event list (`_EventState.build`,
event_view.dart) against the selected day, and a day cell
(`_DayState.build`, calendar_component.dart) against its own day, for the
rings around the number; the list has an item and the cell a ring for each
document that passes (`shows_listedDocuments`).  Both compare the stored
`startDate` and `endDate`, midnights of the device that wrote the event, with
a midnight of the device that shows it.  For offsets `k` (writer) and `k'`
(viewer) the result is

    shown on the viewer days from the one of `start` to the one of `end`,
    and on at least one
      iff  a viewer midnight lies in [startDate, start],
           none in (endDate, end], and the two days are in order

and, with `r` the difference `k' - k` within a day, that is the case exactly
when `r` is zero, or `r` carries the start's clock time past midnight and not
the end's, and `endDate` is not before (in the second case: after)
`startDate` (`midnightsMeet_iff`).
-/
import CalendarApp.Event.Document
import CalendarApp.Lib.Lists

namespace CalendarApp

open Lib

/-- A document with its id. -/
abbrev Documents := List (String × EventDoc)

/-- The query `events` where `participants` contains `userId`. -/
def eventsOf (store : Documents) (userId : String) : Documents :=
  store.filter fun p => p.2.participants.contains userId

/-- The documents that the loop of `_EventState.build` turns into list items. -/
def listedDocuments (documents : Documents) (selectedDayEpoch : Int) : Documents :=
  documents.filter fun p =>
    p.2.startDate ≤ selectedDayEpoch && p.2.endDate ≥ selectedDayEpoch

/-- `events` of `_EventState.build`; a type without a text throws. -/
def listedEvents (z : Zone) (documents : Documents) (selectedDayEpoch : Int) :
    Option (List FetchedEvent) :=
  (listedDocuments documents selectedDayEpoch).mapM fun p => fromFirestore z p.1 p.2

/-- The documents for which the loop of `_DayState.build` adds a colour. -/
def ringedDocuments (documents : Documents) (epoch : Int) : Documents :=
  documents.filter fun p => p.2.startDate ≤ epoch && p.2.endDate ≥ epoch

/-- `colors` of `_DayState.build`: one ring for each document of the day. -/
def ringColors (documents : Documents) (epoch : Int) : Option (List SampleColor) :=
  (ringedDocuments documents epoch).mapM fun p =>
    (typeOfText p.2.type).bind fun type => typecolor[type.index]?

theorem mem_listedDocuments {documents : Documents} {d : Int} {p : String × EventDoc} :
    p ∈ listedDocuments documents d ↔
      p ∈ documents ∧ p.2.startDate ≤ d ∧ d ≤ p.2.endDate := by
  simp [listedDocuments]

theorem mem_ringedDocuments {documents : Documents} {d : Int} {p : String × EventDoc} :
    p ∈ ringedDocuments documents d ↔
      p ∈ documents ∧ p.2.startDate ≤ d ∧ d ≤ p.2.endDate := by
  simp [ringedDocuments]

theorem mem_eventsOf {store : Documents} {u : String} {p : String × EventDoc} :
    p ∈ eventsOf store u ↔ p ∈ store ∧ u ∈ p.2.participants := by
  simp [eventsOf]

/-- The two screens agree. -/
theorem listed_iff_ringed {documents : Documents} {d : Int} {p : String × EventDoc} :
    p ∈ listedDocuments documents d ↔ p ∈ ringedDocuments documents d := by
  rw [mem_listedDocuments, mem_ringedDocuments]

/-- Where every type has a text, both screens show the documents of the day:
the list has one item for each, in their order, and the day as many rings. -/
theorem shows_listedDocuments (z : Zone) {documents : Documents} (d : Int)
    (htypes : ∀ p ∈ documents, (typeOfText p.2.type).isSome = true) :
    ∃ events colors, listedEvents z documents d = some events ∧
      ringColors documents d = some colors ∧
      events.map FetchedEvent.id = (listedDocuments documents d).map Prod.fst ∧
      colors.length = (listedDocuments documents d).length := by
  have hlisted : (listedEvents z documents d).isSome = true := by
    refine mapM_isSome_iff.mpr fun p hp => ?_
    rw [fromFirestore, Option.isSome_map]
    exact htypes p (mem_listedDocuments.mp hp).1
  have hringed : (ringColors documents d).isSome = true := by
    refine mapM_isSome_iff.mpr fun p hp => ?_
    obtain ⟨t, ht⟩ := Option.isSome_iff_exists.mp (htypes p (mem_ringedDocuments.mp hp).1)
    have hlt : t.index < typecolor.length := typeOfText_index ht
    rw [ht, Option.bind_some, List.getElem?_eq_getElem hlt]
    rfl
  obtain ⟨events, hevents⟩ := Option.isSome_iff_exists.mp hlisted
  obtain ⟨colors, hcolors⟩ := Option.isSome_iff_exists.mp hringed
  refine ⟨events, colors, hevents, hcolors, map_of_mapM hevents ?_, length_of_mapM hcolors⟩
  rintro p f hf
  obtain ⟨t, -, rfl⟩ := Option.map_eq_some_iff.mp hf
  rfl

/-! ## The days -/

/-- On a viewer's device with offset `k`, the event `p` is listed and ringed
on exactly the days from the one of its start to the one of its end, and it
is listed on some day. -/
structure ShownOnItsDays (k : Int) (store : Documents) (viewer : String)
    (p : String × EventDoc) : Prop where
  listed : ∀ n, p ∈ listedDocuments (eventsOf store viewer) ((Zone.fixed k).midnight n) ↔
    (Zone.fixed k).day p.2.startAt ≤ n ∧ n ≤ (Zone.fixed k).day p.2.endAt
  ringed : ∀ n, p ∈ ringedDocuments (eventsOf store viewer) ((Zone.fixed k).midnight n) ↔
    (Zone.fixed k).day p.2.startAt ≤ n ∧ n ≤ (Zone.fixed k).day p.2.endAt
  someDay : ∃ n, p ∈ listedDocuments (eventsOf store viewer) ((Zone.fixed k).midnight n)

/-- The viewer's days of the start and the end are in order, a viewer midnight
lies between the stored date of the start and the start, and none between the
stored date of the end and the end. -/
def MidnightsMeet (k : Int) (doc : EventDoc) : Prop :=
  (Zone.fixed k).day doc.startAt ≤ (Zone.fixed k).day doc.endAt ∧
    (∃ n, doc.startDate ≤ (Zone.fixed k).midnight n ∧
      (Zone.fixed k).midnight n ≤ doc.startAt) ∧
    ¬ ∃ n, doc.endDate < (Zone.fixed k).midnight n ∧
      (Zone.fixed k).midnight n ≤ doc.endAt

/-- What `addEvent` stores of an event with valid clock times. -/
theorem addEvent_epochs {host : String} {e : EventModal} {doc : EventDoc}
    (hst : e.startTime.Valid) (het : e.endTime.Valid) (hadd : addEvent host e = some doc) :
    doc.startDate ≤ doc.startAt ∧ doc.startAt < doc.startDate + 86400000 ∧
      doc.endDate ≤ doc.endAt := by
  obtain ⟨hs₀, hs₁⟩ := TimeOfDay.duration_range hst
  obtain ⟨hf₀, -⟩ := TimeOfDay.duration_range het
  obtain ⟨text, -, rfl⟩ := Option.map_eq_some_iff.mp hadd
  simp only [EventDoc.ofModal]
  omega

/-- The condition on the two devices and the event: by `r`, the difference of
the offsets within a day, nothing is shifted, or the start is shifted past
midnight and the end is not; and the dates leave a day between them. -/
def OffsetsAgree (k k' : Int) (e : EventModal) : Prop :=
  let r := (k' - k) % 86400000
  (r = 0 ∧ e.startDate ≤ e.endDate) ∨
    (86400000 ≤ e.startTime.duration + r ∧ e.endTime.duration + r < 86400000 ∧
      e.startDate < e.endDate)

instance (k k' : Int) (e : EventModal) : Decidable (OffsetsAgree k k' e) :=
  inferInstanceAs (Decidable (_ ∧ _ ∨ _ ∧ _ ∧ _))

theorem midnightsMeet_iff {k k' : Int} {host : String} {e : EventModal} {doc : EventDoc}
    (hstart : (Zone.fixed k).IsMidnight e.startDate)
    (hend : (Zone.fixed k).IsMidnight e.endDate)
    (hst : e.startTime.Valid) (het : e.endTime.Valid) (hadd : addEvent host e = some doc) :
    MidnightsMeet k' doc ↔ OffsetsAgree k k' e := by
  obtain ⟨hs₀, hs₁⟩ := TimeOfDay.duration_range hst
  obtain ⟨hf₀, hf₁⟩ := TimeOfDay.duration_range het
  have hsd := hstart.1
  have hed := hend.1
  obtain ⟨text, -, rfl⟩ := Option.map_eq_some_iff.mp hadd
  simp only [MidnightsMeet, OffsetsAgree, EventDoc.ofModal, Zone.fixed_midnight,
    Zone.fixed_clock, Zone.fixed_day] at *
  generalize e.startTime.duration = st at *
  generalize e.endTime.duration = et at *
  constructor
  · rintro ⟨hdays, ⟨n, hn₀, hn₁⟩, hnone⟩
    have hlast : ¬ e.endDate < (e.endDate + et + k') / 86400000 * 86400000 - k' := fun hc =>
      hnone ⟨(e.endDate + et + k') / 86400000, hc, by omega⟩
    omega
  · intro h
    refine ⟨by omega, ⟨(e.startDate + st + k') / 86400000, by omega, by omega⟩, ?_⟩
    rintro ⟨n, hn₀, hn₁⟩
    omega

/-- The event is shown on its days exactly when the offsets agree for it.
Later participants join the stored document, its epochs stay. -/
theorem shownDays_iff (k k' : Int) (host viewer docId : String) (e : EventModal)
    (doc : EventDoc) (parti : List String) (store : Documents)
    (hstart : (Zone.fixed k).IsMidnight e.startDate)
    (hend : (Zone.fixed k).IsMidnight e.endDate)
    (hst : e.startTime.Valid) (het : e.endTime.Valid) (hadd : addEvent host e = some doc)
    (hmem : (docId, { doc with participants := parti }) ∈ store)
    (hview : viewer ∈ parti) :
    ShownOnItsDays k' store viewer (docId, { doc with participants := parti }) ↔
      OffsetsAgree k k' e := by
  obtain ⟨hss, hs, hee⟩ := addEvent_epochs hst het hadd
  have hown : (docId, { doc with participants := parti }) ∈ eventsOf store viewer :=
    mem_eventsOf.mpr ⟨hmem, hview⟩
  have hlisted : ∀ n, (docId, { doc with participants := parti }) ∈
        listedDocuments (eventsOf store viewer) ((Zone.fixed k').midnight n) ↔
      doc.startDate ≤ (Zone.fixed k').midnight n ∧
        (Zone.fixed k').midnight n ≤ doc.endDate := fun n =>
    mem_listedDocuments.trans (and_iff_right hown)
  rw [← midnightsMeet_iff hstart hend hst het hadd, MidnightsMeet,
    ← Zone.fixed_span_iff k' hss hs hee]
  constructor
  · rintro ⟨hlist, -, n, hn⟩
    exact ⟨fun n => (hlisted n).symm.trans (hlist n), n, (hlisted n).mp hn⟩
  · rintro ⟨hdays, n, hn⟩
    exact ⟨fun n => (hlisted n).trans (hdays n),
      fun n => listed_iff_ringed.symm.trans ((hlisted n).trans (hdays n)),
      n, (hlisted n).mpr hn⟩

/-- From 22:00 on the first of May 2019 in Hong Kong to 6:00 on the second. -/
def nightShift : EventModal :=
  { mayMeeting with
    endDate := 1556726400000
    startTime := ⟨22, 0⟩
    endTime := ⟨6, 0⟩
    startapm := .PM }

/-- In London both are on the first of May, and the night shift is shown on it. -/
theorem shownDays_londonNight :
    ShownOnItsDays 0 [("d", EventDoc.ofModal "host" nightShift "Friend")] "host"
      ("d", EventDoc.ofModal "host" nightShift "Friend") :=
  (shownDays_iff 28800000 0 "host" "host" "d" nightShift
    (EventDoc.ofModal "host" nightShift "Friend") ["host"]
    [("d", EventDoc.ofModal "host" nightShift "Friend")]
    (by decide) (by decide) (by decide) (by decide) (by decide) (by decide)
    (by decide)).mpr (by decide)

/-- The document of `mayMeeting`, with the invited friend. -/
def mayDocument : EventDoc :=
  { EventDoc.ofModal "host" mayMeeting "Friend" with participants := ["host", "friend"] }

/-- In London the Hong Kong meeting is on no day at all. -/
theorem shownDays_london_fails :
    (Zone.fixed 28800000).IsMidnight mayMeeting.startDate ∧
      (Zone.fixed 28800000).IsMidnight mayMeeting.endDate ∧
      mayMeeting.startTime.Valid ∧ mayMeeting.endTime.Valid ∧
      validation mayMeeting = .ok () ∧
      addEvent "host" mayMeeting = some (EventDoc.ofModal "host" mayMeeting "Friend") ∧
      (∀ n, ("d", mayDocument) ∉
        listedDocuments (eventsOf [("d", mayDocument)] "friend") ((Zone.fixed 0).midnight n)) ∧
      ¬ ShownOnItsDays 0 [("d", mayDocument)] "friend" ("d", mayDocument) := by
  have hnone : ∀ n, ("d", mayDocument) ∉
      listedDocuments (eventsOf [("d", mayDocument)] "friend")
        ((Zone.fixed 0).midnight n) := by
    intro n hn
    rw [mem_listedDocuments, Zone.fixed_midnight] at hn
    have hlow : mayDocument.startDate = 1556640000000 := rfl
    have hhigh : mayDocument.endDate = 1556640000000 := rfl
    obtain ⟨-, h₀, h₁⟩ := hn
    simp only [hlow, hhigh] at h₀ h₁
    omega
  refine ⟨by decide, by decide, by decide, by decide, by decide, by decide, hnone, fun h => ?_⟩
  exact hnone 18017 ((h.listed 18017).mpr (by decide))

end CalendarApp
