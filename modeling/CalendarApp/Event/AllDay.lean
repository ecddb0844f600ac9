/-
# `Event.AllDay` — an all-day event and its hidden clock times

With `allday` set, the editor shows the dates of an event and not its clock
times (`datetimeBlock`).  The times are still there: `validation` compares the
instants they make, `addEvent` stores these, and `listitem` shows them, since it
does not look at `allday`.  For two events that differ in the hidden times only
(`HiddenTimes`) they make no difference (`ClockFree`) exactly when

    the title is empty                          both are refused
    each start is after its end                 both are refused
    the times are the same
    no start is after its end, and the          both are on no day
      end date is before the start date

(`clockFree_iff`), where the entered times are read back as entered.  With a
constant offset they always are, and the last case does not occur.
-/
import CalendarApp.Event.ListItem

namespace CalendarApp

open Lib

/-- Two states of the editor that differ in the clock times, and the flags that
go with them, of an all-day event. -/
structure HiddenTimes (e e' : EventModal) : Prop where
  differ : e' = { e with
    startTime := e'.startTime, endTime := e'.endTime
    startapm := e'.startapm, endapm := e'.endapm }
  allday : e.allday = true
  valid : ∀ s, (e.time s).Valid ∧ (e'.time s).Valid
  flags : ∀ s, e.apm s = APM.ofHour (e.time s).hour ∧ e'.apm s = APM.ofHour (e'.time s).hour

/-- The hidden times make no difference: to `validation`, and to the rows of
the stored documents on any day. -/
structure ClockFree (z : Zone) (userId docId : String) (e e' : EventModal) : Prop where
  accepted : validation e = .ok () ↔ validation e' = .ok ()
  shown : validation e = .ok () → validation e' = .ok () →
    ∃ doc doc', addEvent userId e = some doc ∧ addEvent userId e' = some doc' ∧
      ∀ n, (eventRows z (z.midnight n) [(docId, doc)]).isSome = true ∧
        eventRows z (z.midnight n) [(docId, doc)] = eventRows z (z.midnight n) [(docId, doc')]

/-- The start is after the end. -/
def EventModal.Late (e : EventModal) : Prop := e.instant .finish < e.instant .start

instance (e : EventModal) : Decidable e.Late := inferInstanceAs (Decidable (_ < _))

/-- The times do not matter. -/
def TimesUnused (e e' : EventModal) : Prop :=
  e.title = "" ∨ (e.Late ∧ e'.Late) ∨ (e.startTime = e'.startTime ∧ e.endTime = e'.endTime) ∨
    (¬ e.Late ∧ ¬ e'.Late ∧ e.endDate < e.startDate)

instance (e e' : EventModal) : Decidable (TimesUnused e e') :=
  inferInstanceAs (Decidable (_ ∨ _ ∧ _ ∨ _ ∧ _ ∨ _ ∧ _ ∧ _))

theorem validation_accepts {e : EventModal} :
    validation e = .ok () ↔ e.title ≠ "" ∧ ¬ e.Late := by
  rw [validation_ok, EventModal.Late, not_lt]

/-! ## The rows of one document -/

variable {z : Zone} {userId docId : String} {doc : EventDoc} {d : Int}

theorem eventRows_of_not_listed (h : ¬ (doc.startDate ≤ d ∧ d ≤ doc.endDate)) :
    eventRows z d [(docId, doc)] = some [] := by
  have hlisted : listedDocuments [(docId, doc)] d = [] := by
    refine List.eq_nil_iff_forall_not_mem.mpr ?_
    intro p hp
    obtain ⟨hmem, hdates⟩ := mem_listedDocuments.mp hp
    rw [List.mem_singleton] at hmem
    subst hmem
    exact h hdates
  rw [eventRows, listedEvents, hlisted]
  rfl

theorem eventRows_of_listed {f : FetchedEvent} {row : ListItem}
    (h : doc.startDate ≤ d ∧ d ≤ doc.endDate) (hf : fromFirestore z docId doc = some f)
    (hrow : listitem z f d = some row) : eventRows z d [(docId, doc)] = some [row] := by
  have hlisted : listedDocuments [(docId, doc)] d = [(docId, doc)] := by
    simp only [listedDocuments, List.filter_cons, List.filter_nil, ge_iff_le, h, decide_true,
      Bool.and_self, if_true]
  have hevents : [(docId, doc)].mapM (fun p => fromFirestore z p.1 p.2) = some [f] :=
    mapM_some_iff.mpr (by rw [List.map_singleton, hf]; rfl)
  rw [eventRows, listedEvents, hlisted, hevents]
  exact mapM_some_iff.mpr (by rw [List.map_singleton, hrow]; rfl)

theorem eventRows_addEvent {e : EventModal} (htype : e.type.index < typelist.length)
    (hadd : addEvent userId e = some doc) (hdates : e.startDate ≤ d ∧ d ≤ e.endDate) :
    ∃ f row, fromFirestore z docId doc = some f ∧ eventRows z d [(docId, doc)] = some [row] ∧
      row.time = listTime z f d ∧
      f.toEventFields = { e.toEventFields with
        startDate := z.midnight (z.day (e.instant .start))
        endDate := z.midnight (z.day (e.instant .finish))
        startTime := TimeOfDay.fromDateTime z (e.instant .start)
        endTime := TimeOfDay.fromDateTime z (e.instant .finish) } := by
  obtain ⟨doc', f, hadd', hf, hfields⟩ := fromFirestore_addEvent z userId docId htype
  obtain rfl : doc = doc' := Option.some.inj (hadd.symm.trans hadd')
  have hftype := congrArg EventFields.type hfields
  have hindex : f.type.index < typecolor.length := by
    rw [hftype]
    exact htype
  have hrow : listitem z f d = some
      { color := typecolor[f.type.index]
        time := listTime z f d
        title := f.title
        location := if f.location ≠ "" then some f.location else none } :=
    congrArg (Option.map _) (List.getElem?_eq_getElem hindex)
  obtain ⟨text, -, rfl⟩ := Option.map_eq_some_iff.mp hadd
  exact ⟨f, _, hf, eventRows_of_listed hdates hf hrow, rfl, hfields⟩

/-! ## The times that are used -/

/-- The fields of the event are read back as they were entered. -/
structure ReadAsEntered (z : Zone) (e : EventModal) : Prop where
  valid : ∀ s, (e.time s).Valid
  midnight : ∀ s, z.IsMidnight (e.date s)
  steady : ∀ s, Steady z (e.date s) (e.time s)

/-- The two times in the row of the start date, and in that of the end date. -/
def rowTimes (z : Zone) (e : EventModal) : Side → TimeOfDay × TimeOfDay
  | .start => (e.startTime, if isSameDate z e.startDate e.endDate then e.endTime else ⟨0, 0⟩)
  | .finish => (if isSameDate z e.endDate e.startDate then e.startTime else ⟨0, 0⟩, e.endTime)

theorem rowTimes_valid {e : EventModal} (h : ∀ s, (e.time s).Valid) (s : Side) :
    (rowTimes z e s).1.Valid ∧ (rowTimes z e s).2.Valid := by
  have hzero : (⟨0, 0⟩ : TimeOfDay).Valid := by decide
  cases s with
  | start =>
      refine ⟨h .start, ?_⟩
      show (if isSameDate z e.startDate e.endDate then e.endTime else ⟨0, 0⟩ : TimeOfDay).Valid
      split
      · exact h .finish
      · exact hzero
  | finish =>
      refine ⟨?_, h .finish⟩
      show (if isSameDate z e.endDate e.startDate then e.startTime else ⟨0, 0⟩ : TimeOfDay).Valid
      split
      · exact h .start
      · exact hzero

/-- The row of the start date tells the start time as entered, and the row of the
end date the end time. -/
theorem listTime_boundary {e : EventModal} {f : FetchedEvent} (h : ReadAsEntered z e)
    (hfields : f.toEventFields = { e.toEventFields with
      startDate := z.midnight (z.day (e.instant .start))
      endDate := z.midnight (z.day (e.instant .finish))
      startTime := TimeOfDay.fromDateTime z (e.instant .start)
      endTime := TimeOfDay.fromDateTime z (e.instant .finish) }) (s : Side) :
    listTime z f (e.date s) =
      timeParser (rowTimes z e s).1 ++ " - " ++ timeParser (rowTimes z e s).2 := by
  obtain ⟨hdate₁, htime₁⟩ := (readBack_iff (h.midnight .start) (h.valid .start)).mpr
    (h.steady .start)
  obtain ⟨hdate₂, htime₂⟩ := (readBack_iff (h.midnight .finish) (h.valid .finish)).mpr
    (h.steady .finish)
  have hsd : f.startDate = e.startDate := (congrArg EventFields.startDate hfields).trans hdate₁
  have hed : f.endDate = e.endDate := (congrArg EventFields.endDate hfields).trans hdate₂
  have hs : f.startTime = e.startTime := (congrArg EventFields.startTime hfields).trans htime₁
  have he : f.endTime = e.endTime := (congrArg EventFields.endTime hfields).trans htime₂
  have hsame : ∀ t, isSameDate z t t = true := fun t => isSameDate_iff.mpr rfl
  cases s <;> simp only [listTime, listStart, listEnd, EventModal.date, rowTimes, hsd, hed, hs, he,
    hsame, Bool.true_or, Bool.or_true, if_true]

/-- On its first and its last date a stored event has one row, with these times. -/
theorem exists_boundaryRow (docId : String) {e : EventModal} (h : ReadAsEntered z e)
    (htype : e.type.index < typelist.length) (hadd : addEvent userId e = some doc)
    (hdates : e.startDate ≤ e.endDate) (s : Side) :
    ∃ row, eventRows z (e.date s) [(docId, doc)] = some [row] ∧
      row.time = timeParser (rowTimes z e s).1 ++ " - " ++ timeParser (rowTimes z e s).2 := by
  have hlisted : e.startDate ≤ e.date s ∧ e.date s ≤ e.endDate := by
    cases s with
    | start => exact ⟨le_refl _, hdates⟩
    | finish => exact ⟨hdates, le_refl _⟩
  obtain ⟨f, row, -, hrow, htime, hfields⟩ :=
    @eventRows_addEvent z userId docId doc _ e htype hadd hlisted
  exact ⟨row, hrow, htime.trans (listTime_boundary h hfields s)⟩

namespace HiddenTimes

variable {e e' : EventModal}

theorem title (h : HiddenTimes e e') : e'.title = e.title := by
  rw [h.differ]

theorem startDate (h : HiddenTimes e e') : e'.startDate = e.startDate := by
  rw [h.differ]

theorem endDate (h : HiddenTimes e e') : e'.endDate = e.endDate := by
  rw [h.differ]

theorem date (h : HiddenTimes e e') (s : Side) : e'.date s = e.date s := by
  cases s with
  | start => exact h.startDate
  | finish => exact h.endDate

theorem type (h : HiddenTimes e e') : e'.type = e.type := by
  rw [h.differ]

theorem eq (h : HiddenTimes e e') (hst : e.startTime = e'.startTime)
    (het : e.endTime = e'.endTime) : e' = e := by
  have hstart := h.flags .start
  have hend := h.flags .finish
  simp only [EventModal.apm, EventModal.time] at hstart hend
  rw [h.differ, ← hst, ← het, hstart.2, hend.2, ← hst, ← het, ← hstart.1, ← hend.1]

theorem accepted_iff (h : HiddenTimes e e') (hlate : e.Late ↔ e'.Late) :
    validation e = .ok () ↔ validation e' = .ok () := by
  rw [validation_accepts, validation_accepts, h.title, hlate]

end HiddenTimes

section

variable {e e' : EventModal}

theorem eventRows_isSome (htype : e.type.index < typelist.length)
    (hadd : addEvent userId e = some doc) : (eventRows z d [(docId, doc)]).isSome = true := by
  by_cases hdates : e.startDate ≤ d ∧ d ≤ e.endDate
  · obtain ⟨f, row, -, hrows, -, -⟩ := @eventRows_addEvent z userId docId doc d e htype hadd hdates
    rw [hrows]
    rfl
  · obtain ⟨text, -, rfl⟩ := Option.map_eq_some_iff.mp hadd
    rw [eventRows_of_not_listed hdates]
    rfl

theorem clockFree_of_unused (h : HiddenTimes e e') (htype : e.type.index < typelist.length)
    (hunused : TimesUnused e e') : ClockFree z userId docId e e' := by
  rcases hunused with htitle | ⟨hlate, hlate'⟩ | ⟨hst, het⟩ | ⟨hlate, hlate', hdates⟩
  · have hrefused : ¬ validation e = .ok () := fun hok => (validation_accepts.mp hok).1 htitle
    have hrefused' : ¬ validation e' = .ok () := fun hok =>
      (validation_accepts.mp hok).1 (h.title.trans htitle)
    exact ⟨iff_of_false hrefused hrefused', fun hok => absurd hok hrefused⟩
  · have hrefused : ¬ validation e = .ok () := fun hok => (validation_accepts.mp hok).2 hlate
    exact ⟨h.accepted_iff (iff_of_true hlate hlate'), fun hok => absurd hok hrefused⟩
  · obtain rfl := h.eq hst het
    obtain ⟨doc, -, hadd, -, -⟩ := fromFirestore_addEvent z userId docId htype
    exact ⟨Iff.rfl, fun _ _ => ⟨doc, doc, hadd, hadd, fun n =>
      ⟨eventRows_isSome htype hadd, rfl⟩⟩⟩
  · refine ⟨h.accepted_iff (iff_of_false hlate hlate'), fun _ _ => ?_⟩
    obtain ⟨doc, -, hadd, -, -⟩ := fromFirestore_addEvent z userId docId htype
    have htype' : e'.type.index < typelist.length := h.type ▸ htype
    obtain ⟨doc', -, hadd', -, -⟩ := fromFirestore_addEvent z userId docId htype'
    refine ⟨doc, doc', hadd, hadd', fun n => ⟨eventRows_isSome htype hadd, ?_⟩⟩
    -- neither document is listed on any day
    obtain ⟨text, -, rfl⟩ := Option.map_eq_some_iff.mp hadd
    obtain ⟨text', -, rfl⟩ := Option.map_eq_some_iff.mp hadd'
    have hnone : ¬ (e.startDate ≤ z.midnight n ∧ z.midnight n ≤ e.endDate) := fun hc =>
      absurd (hc.1.trans hc.2) (not_le.mpr hdates)
    have hnone' : ¬ (e'.startDate ≤ z.midnight n ∧ z.midnight n ≤ e'.endDate) := by
      rw [h.startDate, h.endDate]
      exact hnone
    rw [eventRows_of_not_listed hnone, eventRows_of_not_listed hnone']

/-- Events that make the same row on their first and their last date have the
same times. -/
theorem times_of_rows (h : HiddenTimes e e') (he : ReadAsEntered z e) (he' : ReadAsEntered z e')
    (htype : e.type.index < typelist.length) (hdates : e.startDate ≤ e.endDate)
    {doc doc' : EventDoc} (hadd : addEvent userId e = some doc)
    (hadd' : addEvent userId e' = some doc')
    (hrows : ∀ s, eventRows z (e.date s) [(docId, doc)] = eventRows z (e.date s) [(docId, doc')]) :
    e.startTime = e'.startTime ∧ e.endTime = e'.endTime := by
  have htype' : e'.type.index < typelist.length := h.type ▸ htype
  have hdates' : e'.startDate ≤ e'.endDate := by
    rw [h.startDate, h.endDate]
    exact hdates
  have hsame : ∀ s, (rowTimes z e s).1 = (rowTimes z e' s).1 ∧
      (rowTimes z e s).2 = (rowTimes z e' s).2 := by
    intro s
    obtain ⟨row, hrow, htime⟩ := exists_boundaryRow docId he htype hadd hdates s
    obtain ⟨row', hrow', htime'⟩ := exists_boundaryRow docId he' htype' hadd' hdates' s
    rw [h.date s, ← hrows s, hrow] at hrow'
    obtain rfl : row = row' := (List.cons.inj (Option.some.inj hrow')).1
    obtain ⟨hfirst, hsecond⟩ := rowTimes_valid he.valid s
    obtain ⟨hfirst', hsecond'⟩ := rowTimes_valid he'.valid s
    exact (range_inj hfirst hfirst' hsecond hsecond').mp (htime.symm.trans htime')
  exact ⟨(hsame .start).1, (hsame .finish).2⟩

/-- If the times make no difference and are read back as entered, they are not
used. -/
theorem unused_of_clockFree (h : HiddenTimes e e') (htype : e.type.index < typelist.length)
    (he : ReadAsEntered z e) (he' : ReadAsEntered z e')
    (hfree : ClockFree z userId docId e e') : TimesUnused e e' := by
  by_cases htitle : e.title = ""
  · exact Or.inl htitle
  have haccepted := hfree.accepted
  rw [validation_accepts, validation_accepts, h.title, and_iff_right htitle,
    and_iff_right htitle] at haccepted
  by_cases hlate : e.Late
  · exact Or.inr (Or.inl ⟨hlate, not_not.mp fun hc => haccepted.mpr hc hlate⟩)
  by_cases hdates : e.endDate < e.startDate
  · exact Or.inr (Or.inr (Or.inr ⟨hlate, haccepted.mp hlate, hdates⟩))
  -- both are accepted, and listed on the first and the last date
  have hok : validation e = .ok () := validation_accepts.mpr ⟨htitle, hlate⟩
  obtain ⟨doc, doc', hadd, hadd', hrows⟩ := hfree.shown hok (hfree.accepted.mp hok)
  have hsame : ∀ s, eventRows z (e.date s) [(docId, doc)] =
      eventRows z (e.date s) [(docId, doc')] := by
    intro s
    rw [← (he.midnight s).2]
    exact (hrows _).2
  exact Or.inr (Or.inr (Or.inl
    (times_of_rows h he he' htype (not_lt.mp hdates) hadd hadd' hsame)))

end

/-- The hidden times of an all-day event make no difference when they are not
used, and where they are read back as entered, only then. -/
theorem clockFree_iff (z : Zone) (userId docId : String) {e e' : EventModal}
    (h : HiddenTimes e e') (hstart : z.IsMidnight e.startDate) (hend : z.IsMidnight e.endDate)
    (htype : ∃ i, typePicker i = some e.type) :
    (TimesUnused e e' → ClockFree z userId docId e e') ∧
      ((∀ s, Steady z (e.date s) (e.time s) ∧ Steady z (e'.date s) (e'.time s)) →
        (ClockFree z userId docId e e' ↔ TimesUnused e e')) := by
  obtain ⟨i, hi⟩ := htype
  have hindex := typePicker_index hi
  have hunused : TimesUnused e e' → ClockFree z userId docId e e' := clockFree_of_unused h hindex
  refine ⟨hunused, fun hsteady => ⟨fun hfree => ?_, hunused⟩⟩
  have hmidnight : ∀ s, z.IsMidnight (e.date s) := fun s => by
    cases s with
    | start => exact hstart
    | finish => exact hend
  have he : ReadAsEntered z e :=
    ⟨fun s => (h.valid s).1, hmidnight, fun s => (hsteady s).1⟩
  have he' : ReadAsEntered z e' :=
    ⟨fun s => (h.valid s).2, fun s => h.date s ▸ hmidnight s, fun s => (hsteady s).2⟩
  exact unused_of_clockFree h hindex he he' hfree

/-- The first of May 2019 in Hong Kong, all day; at the times of `mayMeeting`. -/
def mayDayOff : EventModal := { mayMeeting with allday := true }

/-- The same day off, with the times the other way round. -/
def mayDayOff' : EventModal :=
  { mayDayOff with startTime := mayDayOff.endTime, endTime := mayDayOff.startTime }

/-- From 12:30 to 9:30: late as well, and refused for other times. -/
def mayDayOff'' : EventModal :=
  { mayDayOff with startTime := ⟨12, 30⟩, endTime := ⟨9, 30⟩, startapm := .PM }

theorem clockFree_mayDayOff_late :
    ClockFree (Zone.fixed 28800000) "u" "d" mayDayOff' mayDayOff'' :=
  ((clockFree_iff (Zone.fixed 28800000) "u" "d"
    ⟨rfl, rfl, fun s => by cases s <;> decide, fun s => by cases s <;> decide⟩ (by decide)
    (by decide) ⟨6, rfl⟩).2 fun _ => ⟨steady_fixed _ _ _, steady_fixed _ _ _⟩).mpr (by decide)

/-- One state is accepted, the other is refused. -/
theorem clockFree_mayDayOff_fails : ¬ ∀ (z : Zone) (userId docId : String) (e e' : EventModal),
    HiddenTimes e e' → z.IsMidnight e.startDate → z.IsMidnight e.endDate →
      (∃ i, typePicker i = some e.type) → ClockFree z userId docId e e' := by
  intro h
  have hfree := h (Zone.fixed 28800000) "u" "d" mayDayOff mayDayOff'
    ⟨rfl, rfl, fun s => by cases s <;> decide, fun s => by cases s <;> decide⟩ (by decide)
    (by decide) ⟨6, rfl⟩
  exact absurd hfree.accepted (by decide)

end CalendarApp
