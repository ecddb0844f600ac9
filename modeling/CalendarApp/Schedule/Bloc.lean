/-
# `Schedule.Bloc` — the selected day, bloc.dart

The selected day is kept in three places: a field of the bloc, the stream the
screens listen to, and the preferences.

    initPrefs     reads the preferences into the field, and emits it
    DayTap        sets the field, emits it, and saves it
    PageChange    touches none of them
    returnNow     emits the current date

`returnNow` alone leaves the field and the preferences as they are, so the
three agree along a run exactly when it is called only on the current date
(`oneDay_iff`).

A preference holds the text of a `DateTime`, which is its wall-clock reading
without the offset; `parse` resolves the reading in the zone of the device.
-/
import CalendarApp.Main
import CalendarApp.Lib.Run

namespace CalendarApp

open Lib

/-- The events of the bloc, calendar_event.dart. -/
inductive CalendarEvent where
  | dayTap (data : Int)
  | pageChange (data : Int)
  deriving DecidableEq, Repr

/-- `DateTime.toString`, as the wall-clock reading in the text. -/
def textOfDay (z : Zone) (day : Int) : Int := z.wall day

/-- `DateTime.parse` of such a text. -/
def parseDay (z : Zone) (text : Int) : Int := z.resolve text

theorem day_parseDay (z : Zone) (day : Int) :
    z.day (parseDay z (textOfDay z day)) = z.day day :=
  congrArg (· / 86400000) (z.resolve_wall day)

/-! ## The bloc -/

structure CalendarBloc where
  selectedDay : Int
  today : Int
  /-- `prefs != null` -/
  prefs : Bool
  /-- the values added to `_selectedDaySink` -/
  selectedDaySink : List Int
  /-- the values added to `_pageIndexSink` -/
  pageIndexSink : List Int
  deriving DecidableEq, Repr

namespace CalendarBloc

variable (z : Zone)

/-- `CalendarBloc()`, up to the await of `initPrefs`. -/
def create (now : Int) : CalendarBloc :=
  let today := z.dateTime (z.date now).year (z.date now).month (z.date now).day
  { selectedDay := today
    today := today
    prefs := false
    selectedDaySink := []
    pageIndexSink := [getPageIndex z today] }

/-- `initPrefs()` after its await. -/
def initPrefs (savedDay : Option Int) (b : CalendarBloc) : CalendarBloc :=
  let selectedDay := (savedDay.map (parseDay z)).getD b.selectedDay
  { b with
    prefs := true
    selectedDay := selectedDay
    selectedDaySink := b.selectedDaySink ++ [selectedDay] }

/-- `setPrefs()`: the preference afterwards.  Without `prefs` it throws in its
own future. -/
def setPrefs (savedDay : Option Int) (b : CalendarBloc) : Option Int :=
  if b.prefs then some (textOfDay z b.selectedDay) else savedDay

/-- `_onCalendarEvent(event)`: the bloc and the preference afterwards. -/
def onCalendarEvent (event : CalendarEvent) (savedDay : Option Int) (b : CalendarBloc) :
    CalendarBloc × Option Int :=
  match event with
  | .dayTap data =>
      let b₁ := { b with selectedDay := data, selectedDaySink := b.selectedDaySink ++ [data] }
      (b₁, b₁.setPrefs z savedDay)
  | .pageChange data => ({ b with pageIndexSink := b.pageIndexSink ++ [data] }, savedDay)

/-- `returnNow()`. -/
def returnNow (b : CalendarBloc) : CalendarBloc :=
  { b with
    selectedDaySink := b.selectedDaySink ++ [b.today]
    pageIndexSink := b.pageIndexSink ++ [getPageIndex z b.today] }

/-- The last value on `selectedDayStream`. -/
def lastSelected (b : CalendarBloc) : Option Int := b.selectedDaySink.getLast?

end CalendarBloc

/-! ## Runs of one bloc -/

/-- A bloc, and the preference `selectedDay` of the device. -/
structure BlocState where
  bloc : CalendarBloc
  savedDay : Option Int
  deriving DecidableEq, Repr

namespace BlocState

inductive Action where
  | initPrefs
  | event (e : CalendarEvent)
  | returnNow
  deriving DecidableEq, Repr

/-- The preference may hold the day of an earlier session. -/
def start (z : Zone) (now : Int) (savedDay : Option Int) : BlocState :=
  ⟨CalendarBloc.create z now, savedDay⟩

def step (z : Zone) (s : BlocState) : Action → Option BlocState
  | .initPrefs =>
      if s.bloc.prefs then none else some { s with bloc := s.bloc.initPrefs z s.savedDay }
  | .event e =>
      let r := s.bloc.onCalendarEvent z e s.savedDay
      some ⟨r.1, r.2⟩
  | .returnNow => some { s with bloc := s.bloc.returnNow z }

/-- Once the preferences are loaded, the field is the last day emitted. -/
def Coherent (s : BlocState) : Prop :=
  s.bloc.prefs = true → s.bloc.lastSelected = some s.bloc.selectedDay

/-- After a step the field is the last day emitted, and if the step has
changed that day, what is saved reads back as the same day. -/
def OneDay (z : Zone) (s : BlocState) (_ : Action) (s' : BlocState) : Prop :=
  s'.Coherent ∧
    (s.bloc.prefs = true → s'.bloc.lastSelected ≠ s.bloc.lastSelected →
      ∃ text ∈ s'.savedDay, z.day (parseDay z text) = z.day s'.bloc.selectedDay)

/-- `returnNow` is called on the current date. -/
def ReturnsOnToday (s : BlocState) : Action → Prop
  | .returnNow => s.bloc.prefs = true → s.bloc.selectedDay = s.bloc.today
  | _ => True

instance (s : BlocState) : ∀ a, Decidable (ReturnsOnToday s a)
  | .returnNow => inferInstanceAs (Decidable (_ → _))
  | .initPrefs | .event _ => inferInstanceAs (Decidable True)

variable {z : Zone} {s s' : BlocState}

theorem coherent_start (now : Int) (savedDay : Option Int) : (start z now savedDay).Coherent :=
  nofun

/-- One step leaves one selected day exactly when it does not return to
another one. -/
theorem step_oneDay {a : Action} (hc : s.Coherent) (h : step z s a = some s') :
    OneDay z s a s' ↔ ReturnsOnToday s a := by
  cases a with
  | initPrefs =>
      simp only [step] at h
      split at h
      · cases h
      · next hp =>
          cases h
          refine iff_of_true ⟨fun _ => ?_, fun hp' => absurd hp' hp⟩ trivial
          exact List.getLast?_concat ..
  | event e =>
      cases h
      cases e with
      | dayTap data =>
          refine iff_of_true ⟨fun _ => List.getLast?_concat .., fun hp _ => ?_⟩ trivial
          refine ⟨textOfDay z data, ?_, day_parseDay z data⟩
          exact if_pos hp
      | pageChange data => exact iff_of_true ⟨hc, fun _ hne => absurd rfl hne⟩ trivial
  | returnNow =>
      cases h
      have hlast : (s.bloc.returnNow z).lastSelected = some s.bloc.today :=
        List.getLast?_concat ..
      constructor
      · intro hone hp
        exact (Option.some.inj (hlast.symm.trans (hone.1 hp))).symm
      · intro hret
        refine ⟨fun hp => ?_, fun hp hne => absurd ?_ hne⟩
        · exact hlast.trans (congrArg some (hret hp).symm)
        · exact hlast.trans ((congrArg some (hret hp).symm).trans (hc hp).symm)

/-- Along a run there is one selected day exactly when `returnNow` is called
only on the current date. -/
theorem oneDay_iff (z : Zone) (now : Int) (savedDay : Option Int)
    {tr : List (Action × BlocState)}
    (hrun : Run (StepOf (step z)) (start z now savedDay) tr) :
    Along (OneDay z) (start z now savedDay) tr ↔
      Guarded ReturnsOnToday (start z now savedDay) tr :=
  along_iff_guarded (Q := OneDay z) (C := ReturnsOnToday) (I := Coherent)
    (fun _ _ _ hc h => step_oneDay hc h) (fun _ _ _ _ _ hone => hone.1)
    (coherent_start now savedDay) hrun

/-- 10 May 2019 is tapped, then 1 May, the current date. -/
theorem oneDay_tapToday : ∃ tr : List (Action × BlocState),
    tr.map Prod.fst = [.initPrefs, .event (.dayTap 1557446400000),
        .event (.dayTap 1556668800000), .returnNow] ∧
      Along (OneDay (Zone.fixed 0)) (start (Zone.fixed 0) 1556713800000 none) tr := by
  obtain ⟨tr, hacts, hrun, hguard⟩ := exists_run
    (f := step (Zone.fixed 0)) (s := start (Zone.fixed 0) 1556713800000 none)
    (P := fun tr => Guarded ReturnsOnToday (start (Zone.fixed 0) 1556713800000 none) tr)
    [.initPrefs, .event (.dayTap 1557446400000), .event (.dayTap 1556668800000), .returnNow]
    (by decide)
  exact ⟨tr, hacts, (oneDay_iff (Zone.fixed 0) 1556713800000 none hrun).mpr hguard⟩

/-- 10 May 2019 is tapped, and `returnNow` shows the events of 1 May while
10 May stays selected. -/
theorem oneDay_return_fails : ¬ ∀ (z : Zone) (now : Int) (savedDay : Option Int) (tr),
    Run (StepOf (step z)) (start z now savedDay) tr →
      Along (OneDay z) (start z now savedDay) tr := by
  intro h
  obtain ⟨tr, -, hrun, hprefs, hbad⟩ := exists_run
    (f := step (Zone.fixed 0)) (s := start (Zone.fixed 0) 1556713800000 none)
    (P := fun tr => (final (start (Zone.fixed 0) 1556713800000 none) tr).bloc.prefs = true ∧
      (final (start (Zone.fixed 0) 1556713800000 none) tr).bloc.lastSelected ≠
        some (final (start (Zone.fixed 0) 1556713800000 none) tr).bloc.selectedDay)
    [.initPrefs, .event (.dayTap 1557446400000), .returnNow] (by decide)
  have hcoherent : Always Coherent (start (Zone.fixed 0) 1556713800000 none) tr :=
    ⟨coherent_start _ _, Along.imp (fun _ _ _ hone => hone.1) (h _ _ _ _ hrun)⟩
  exact hbad (hcoherent.final hprefs)

end BlocState

end CalendarApp
