/-
# `Event.Edited` — from the editor to the calendars of all participants

An event passes through three machines before it is seen.

    editor      wheels, fields and the check, then `addEvent`   (NewEvent)
    server      add, accept, leave, from any device             (World)
    calendar    ten years of pages, and the list of a day       (Days, Event)

On devices with one constant offset, and as long as the editors are used with
care (`NewEventState.Careful`), they fit together.  The editor hands over an
event in order, so what is written is well formed; joining and leaving change
the participants only, so every document of every reachable world is; and a
well-formed document lies on the days from the one of its start to the one of its
end.  So the pages, read through, ring the event on exactly these days for
exactly the users who take part in it (`edited_shown`).
-/
import CalendarApp.Event.Going
import CalendarApp.Event.Stored
import CalendarApp.Schedule.Years

namespace CalendarApp

open Lib

/-- The event as an editor has it when `addEvent` reads it: the screen was not
opened in the last hour of a day, was used with care, and the check has
passed. -/
def EventModal.Edited (k : Int) (event : EventModal) : Prop :=
  ∃ (day now : Int) (tr : List (NewEventState.Action × NewEventState)),
    (Zone.fixed k).hour now ≠ 23 ∧
      Run (StepOf (NewEventState.step (Zone.fixed k)))
        (NewEventState.opened (Zone.fixed k) day now) tr ∧
      Guarded (NewEventState.Careful (Zone.fixed k))
        (NewEventState.opened (Zone.fixed k) day now) tr ∧
      (final (NewEventState.opened (Zone.fixed k) day now) tr).popped = true ∧
      (final (NewEventState.opened (Zone.fixed k) day now) tr).event = event

/-- Where the calendar of a user with offset `k` shows the event `e`, filed under
`E`, of which `last` was applied last for him. -/
structure OnItsDays (k : Int) (s : Store) (E : String) (e : EventDoc) (u : Uid)
    (last : Option Bool) : Prop where
  wellFormed : WellFormed (Zone.fixed k) e
  /-- the list of a day -/
  listed : ∀ n, (E, e) ∈ listedDocuments (eventsOf s.documents u) ((Zone.fixed k).midnight n) ↔
    TakesPart last e.host u ∧ (Zone.fixed k).day e.startAt ≤ n ∧ n ≤ (Zone.fixed k).day e.endAt
  /-- the cells of all pages, in their order -/
  ringed : TakesPart last e.host u →
    ∃ pages, (List.range pageCount).mapM (Days.page (Zone.fixed k)) = some pages ∧
      (pages.flatten.filterMap Days.Item.inCal).filter
          (fun cur => (E, e) ∈ ringedDocuments (eventsOf s.documents u) cur) =
        (Int.range (max (rolledDay 2015 1 1) ((Zone.fixed k).day e.startAt))
          (min ((Zone.fixed k).day e.endAt + 1) (rolledDay 2025 1 1))).map
            (Zone.fixed k).midnight

/-! ## What the editor hands over -/

theorem NewEventState.prepared_run {k : Int} {s : NewEventState}
    {tr : List (NewEventState.Action × NewEventState)} (hs : s.Prepared k)
    (hrun : Run (StepOf (step (Zone.fixed k))) s tr)
    (hcareful : Guarded (Careful (Zone.fixed k)) s tr) : (final s tr).Prepared k := by
  have hall : Always (Prepared k) s tr :=
    Always.of_guarded (fun s a s' hI h hc => (hI.step h hc).2) hs hrun hcareful
  exact hall.final

theorem EventModal.Edited.wellFormed {k : Int} {event : EventModal} {userId : String}
    {e : EventDoc} (h : event.Edited k) (hadd : addEvent userId event = some e) :
    WellFormed (Zone.fixed k) e := by
  obtain ⟨day, now, tr, hnow, hrun, hcareful, hpopped, rfl⟩ := h
  have hprepared := NewEventState.prepared_run (NewEventState.prepared_opened hnow) hrun hcareful
  refine (EventModal.wellFormed_iff hprepared.midnights hadd).mpr ?_
  exact ⟨hprepared.checksOrder hpopped, (hprepared.clockFields .start).1.inDay,
    (hprepared.clockFields .finish).1.inDay⟩

/-! ## The days of a document -/

theorem WellFormed.days {k : Int} {e : EventDoc} (h : WellFormed (Zone.fixed k) e) (n : Int) :
    e.startDate ≤ (Zone.fixed k).midnight n ∧ (Zone.fixed k).midnight n ≤ e.endDate ↔
      (Zone.fixed k).day e.startAt ≤ n ∧ n ≤ (Zone.fixed k).day e.endAt := by
  rw [h.startDate, h.endDate]
  simp only [Zone.fixed_midnight]
  omega

theorem onItsDays {k : Int} {s : Store} {E : String} {e : EventDoc} {u : Uid}
    {last : Option Bool} (he : s.events.lookup E = some e) (h : WellFormed (Zone.fixed k) e)
    (hpart : (u : String) ∈ e.participants ↔ TakesPart last e.host u) :
    OnItsDays k s E e u last := by
  have hmem : (E, e) ∈ eventsOf s.documents u ↔ TakesPart last e.host u :=
    (s.mem_eventsOf_iff he u).trans hpart
  refine ⟨h, fun n => ?_, fun hlast => ?_⟩
  · rw [mem_listedDocuments, hmem, h.days]
  · obtain ⟨pages, hpages, hdays⟩ := Days.exists_pages k
    refine ⟨pages, hpages, ?_⟩
    have hcell : ∀ n ∈ Int.range (rolledDay 2015 1 1) (rolledDay 2025 1 1),
        decide ((E, e) ∈ ringedDocuments (eventsOf s.documents u) ((Zone.fixed k).midnight n)) =
          decide ((Zone.fixed k).day e.startAt ≤ n ∧ n < (Zone.fixed k).day e.endAt + 1) := by
      intro n _
      refine decide_eq_decide.mpr ?_
      rw [mem_ringedDocuments, hmem, h.days, Int.lt_add_one_iff]
      exact and_iff_right hlast
    rw [hdays, List.filter_map]
    refine congrArg (List.map (Zone.fixed k).midnight) ?_
    rw [← filter_range_inter]
    exact List.filter_congr hcell

namespace World

/-- The events of a command come out of an editor. -/
def Action.Edited (k : Int) : Action → Prop
  | .act _ (.createEvent event) => event.Edited k
  | _ => True

/-- In every reachable world whose events came out of editors that were used with
care, on devices with one offset: every event is well formed, and is on the list
and on the pages of exactly the users who take part in it, on exactly its
days. -/
theorem edited_shown (hashCode : String → Int) (user : Nat → Uid) (now k : Int)
    {tr : List (Action × World)} (hrun : Run (StepOf (step hashCode user)) (start now) tr)
    (hedited : Guarded (fun _ a => a.Edited k) (start now) tr) :
    ∀ E e, (final (start now) tr).store.events.lookup E = some e → ∀ u : Uid,
      OnItsDays k (final (start now) tr).store E e u ((final (start now) tr).ownLast user E u) := by
  have hall : Always (fun w : World => w.EventsAre (WellFormed (Zone.fixed k))) (start now) tr := by
    refine Always.of_guarded (fun w a w' hP h ha => ?_) (EventsAre.start now) hrun hedited
    refine hP.step (fun e u joins he => ?_) (fun d event e hact hadd => ?_) h
    · cases joins <;> exact ⟨he.ordered, he.startDate, he.endDate, he.dates⟩
    · subst hact
      exact EventModal.Edited.wellFormed ha hadd
  intro E e he u
  obtain ⟨hR, -⟩ := recorded_legible hrun
  exact onItsDays he (hall.final.stored E e he) ((hR.written E e he).mem_iff u)

/-- Lunch at 12:30 on 1 May 2019, as the editor makes it. -/
def lunch : EventModal :=
  { EventModal.ofDay (Zone.fixed 0) 1556668800000 1556713800000 with title := "Lunch" }

theorem edited_lunch : lunch.Edited 0 := by
  obtain ⟨tr, -, hrun, hcareful, hpopped, hevent⟩ := exists_run
    (f := NewEventState.step (Zone.fixed 0))
    (s := NewEventState.opened (Zone.fixed 0) 1556668800000 1556713800000)
    (P := fun tr => Guarded (NewEventState.Careful (Zone.fixed 0))
        (NewEventState.opened (Zone.fixed 0) 1556668800000 1556713800000) tr ∧
      (final (NewEventState.opened (Zone.fixed 0) 1556668800000 1556713800000) tr).popped = true ∧
      (final (NewEventState.opened (Zone.fixed 0) 1556668800000 1556713800000) tr).event = lunch)
    [.title "Lunch", .add] (by decide)
  exact ⟨1556668800000, 1556713800000, tr, by decide, hrun, hcareful, hpopped, hevent⟩

theorem edited_shown_lunch : ∃ (tr : List (Action × World)) (e : EventDoc),
    (final (start 0) tr).store.events.lookup "e" = some e ∧
      (Zone.fixed 0).day e.startAt = 18017 ∧
      OnItsDays 0 (final (start 0) tr).store "e" e firstUid
        ((final (start 0) tr).ownLast twoUsers "e" firstUid) := by
  obtain ⟨tr, hacts, hrun, hday⟩ := exists_run
    (f := step oneAtATime twoUsers) (s := start 0)
    (P := fun tr => ((final (start 0) tr).store.events.lookup "e").any
      (fun e => decide ((Zone.fixed 0).day e.startAt = 18017)) = true)
    [.act 0 (.signUp ""), .deliver 0 "", .act 0 (.createEvent lunch), .deliver 0 "e"]
    (by decide +kernel)
  obtain ⟨e, he, hday⟩ := (Option.any_eq_true _ _).mp hday
  have hedited : Guarded (fun _ a => Action.Edited 0 a) (start 0) tr := by
    refine .of_actions ?_
    rw [hacts]
    simp only [List.forall_mem_cons, Action.Edited, edited_lunch, true_and]
    exact fun _ h => nomatch h
  exact ⟨tr, e, he, of_decide_eq_true hday,
    edited_shown oneAtATime twoUsers 0 0 hrun hedited "e" e he firstUid⟩

end World

end CalendarApp
