/-
# `Schedule.Home` — taps, timers and replaced blocs

Every build of `HomePage` (index.dart) makes a new `InheritedCalendar` with a
new bloc.  The old blocs stay alive: their `initPrefs` may still resume, their
event queues are still delivered, and a timer that a grey day started adds
its event to the bloc the day was built with.

    tap          adds to the queue of the bloc in use
    tapGrey      starts a timer of 500 ms, which adds to that queue
    fire         the oldest timer runs out
    deliver k    bloc k handles the first event of its queue
    initPrefs k  bloc k reads the preference into its field
    rebuild      a new bloc is in use

When nothing is outstanding the bloc in use has selected the last day that
was tapped, provided that (`Orderly`)

    a tap is handled after every earlier one, by a bloc that can save it (or
    finds nothing else saved), and not by an old bloc once the one in use has
    read the preference

    a rebuild comes when the last tap handled is saved

(`lastTap_wins`).  Each clause excludes one of the ways a tap gets lost.
-/
import CalendarApp.Lib.Queues
import CalendarApp.Schedule.Bloc

namespace CalendarApp

open Lib

/-- A tap of the user on a day: the taps are numbered as they are made. -/
structure DayTapped where
  number : Nat
  day : Int
  deriving DecidableEq, Repr

/-- The blocs, of which `current` is in use and the ones below it are old,
with their event queues and the timers that run. -/
structure HomeState where
  current : Nat
  bloc : Nat → CalendarBloc
  queue : Nat → List DayTapped
  timers : List (Nat × DayTapped)
  savedDay : Option Int
  /-- the last tap made -/
  lastTap : Option DayTapped
  /-- the last tap handled -/
  handled : Option DayTapped

namespace HomeState

inductive Action where
  | initPrefs (k : Nat)
  | tap (day : Int)
  | tapGrey (day : Int)
  | fire
  | deliver (k : Nat)
  | rebuild (now : Int)
  deriving DecidableEq, Repr

variable (z : Zone)

/-- The first build. -/
def opened (now : Int) (savedDay : Option Int) : HomeState where
  current := 0
  bloc _ := CalendarBloc.create z now
  queue _ := []
  timers := []
  savedDay := savedDay
  lastTap := none
  handled := none

/-- The tap the user makes next. -/
def nextTap (s : HomeState) (day : Int) : DayTapped :=
  ⟨(s.lastTap.map fun t => t.number + 1).getD 0, day⟩

/-- `calendarEvent.add(DayTap(t.day))`, on bloc `k`. -/
def enqueue (queue : Nat → List DayTapped) (k : Nat) (t : DayTapped) : Nat → List DayTapped :=
  Function.update queue k (queue k ++ [t])

def step (s : HomeState) : Action → Option HomeState
  | .initPrefs k =>
      if k ≤ s.current ∧ (s.bloc k).prefs = false then
        some { s with bloc := Function.update s.bloc k ((s.bloc k).initPrefs z s.savedDay) }
      else none
  | .tap day =>
      some { s with
        queue := enqueue s.queue s.current (s.nextTap day)
        lastTap := some (s.nextTap day) }
  | .tapGrey day =>
      some { s with
        timers := s.timers ++ [(s.current, s.nextTap day)]
        lastTap := some (s.nextTap day) }
  | .fire =>
      match s.timers with
      | [] => none
      | (k, t) :: timers => some { s with queue := enqueue s.queue k t, timers := timers }
  | .deliver k =>
      match s.queue k with
      | [] => none
      | t :: queue =>
          let r := (s.bloc k).onCalendarEvent z (.dayTap t.day) s.savedDay
          some { s with
            bloc := Function.update s.bloc k r.1
            queue := Function.update s.queue k queue
            savedDay := r.2
            handled := some t }
  | .rebuild now =>
      some { s with
        current := s.current + 1
        bloc := Function.update s.bloc (s.current + 1) (CalendarBloc.create z now)
        queue := Function.update s.queue (s.current + 1) [] }

/-- No timer runs, no event is queued, and every bloc has its preferences. -/
def Quiet (s : HomeState) : Prop :=
  s.timers = [] ∧ ∀ k ≤ s.current, s.queue k = [] ∧ (s.bloc k).prefs = true

/-- At rest, the bloc in use has selected the day of the last tap. -/
def LastTapWins (s : HomeState) : Prop :=
  s.Quiet → ∀ t ∈ s.lastTap, z.day (s.bloc s.current).selectedDay = z.day t.day

/-- What a bloc does with the tap `t`: it saves it, or it is in use and finds
nothing else saved; and it is in use, or the bloc in use has yet to read the
preference. -/
def Saves (s : HomeState) (k : Nat) (t : DayTapped) : Prop :=
  ((s.bloc k).prefs = true ∨
      k = s.current ∧ ∀ text ∈ s.savedDay, text = textOfDay z t.day) ∧
    (k = s.current ∨ (s.bloc s.current).prefs = false)

/-- Taps are handled in the order they are made, by a bloc that saves them,
and the bloc is replaced when the last tap handled is saved. -/
def Orderly (s : HomeState) : Action → Prop
  | .deliver k => ∀ t ∈ (s.queue k).head?,
      (∀ t' ∈ s.handled, t'.number < t.number) ∧ s.Saves z k t
  | .rebuild _ => ∀ t ∈ s.handled, s.savedDay = some (textOfDay z t.day)
  | _ => True

instance (s : HomeState) : Decidable s.Quiet :=
  inferInstanceAs (Decidable (_ ∧ _))

instance (s : HomeState) (k : Nat) (t : DayTapped) : Decidable (s.Saves z k t) :=
  inferInstanceAs (Decidable (_ ∧ _))

instance (s : HomeState) : ∀ a, Decidable (Orderly z s a)
  | .deliver _ => inferInstanceAs (Decidable (∀ _ ∈ _, _ ∧ _))
  | .rebuild _ => inferInstanceAs (Decidable (∀ _ ∈ _, _))
  | .initPrefs _ | .tap _ | .tapGrey _ | .fire => inferInstanceAs (Decidable True)

/-! ## The invariant -/

/-- The taps that wait in a queue or behind a timer. -/
def Pending (s : HomeState) (t : DayTapped) : Prop :=
  (∃ k, (k, t) ∈ s.timers) ∨ ∃ k, t ∈ s.queue k

/-- What an orderly run keeps. -/
structure InOrder (s : HomeState) : Prop where
  /-- a timer or a queue belongs to a bloc that was made -/
  timers : ∀ p ∈ s.timers, p.1 ≤ s.current
  queues : ∀ k, s.current < k → s.queue k = []
  /-- the last tap has the highest number of the taps that wait -/
  latest : ∀ t, s.Pending t → ∃ l ∈ s.lastTap, t.number ≤ l.number
  /-- and it waits itself unless it was handled -/
  waits : ∀ l ∈ s.lastTap, s.handled = some l ∨ s.Pending l
  /-- the last tap handled is selected, or about to be -/
  selected : ∀ t ∈ s.handled, if (s.bloc s.current).prefs = true
    then z.day (s.bloc s.current).selectedDay = z.day t.day
    else s.savedDay = some (textOfDay z t.day) ∨
      s.savedDay = none ∧ (s.bloc s.current).selectedDay = t.day

variable {z} {s s' : HomeState}

theorem InOrder.opened (now : Int) (savedDay : Option Int) :
    (opened z now savedDay).InOrder z where
  timers := nofun
  queues _ _ := rfl
  latest := by rintro t (⟨k, hk⟩ | ⟨k, hk⟩) <;> cases hk
  waits := nofun
  selected := nofun

theorem selected_initPrefs {b : CalendarBloc} {savedDay : Option Int} {t : DayTapped}
    (h : savedDay = some (textOfDay z t.day) ∨ savedDay = none ∧ b.selectedDay = t.day) :
    z.day (b.initPrefs z savedDay).selectedDay = z.day t.day := by
  rcases h with rfl | ⟨rfl, hday⟩
  · exact day_parseDay z t.day
  · exact congrArg z.day hday

theorem latest_nextTap (hI : s.InOrder z) (day : Int) {t : DayTapped} (ht : s.Pending t) :
    t.number ≤ (s.nextTap day).number := by
  obtain ⟨l, hl, hle⟩ := hI.latest t ht
  rw [nextTap, Option.mem_def.mp hl]
  exact Nat.le_succ_of_le hle

theorem mem_enqueue {queue : Nat → List DayTapped} {k j : Nat} {t u : DayTapped} :
    u ∈ enqueue queue k t j ↔ u ∈ queue j ∨ j = k ∧ u = t := by
  rw [enqueue, mem_update_append, List.mem_singleton]

theorem InOrder.initPrefs {k : Nat} (hI : s.InOrder z) (hp : (s.bloc k).prefs = false) :
    InOrder z { s with
      bloc := Function.update s.bloc k ((s.bloc k).initPrefs z s.savedDay) } where
  timers := hI.timers
  queues := hI.queues
  latest := hI.latest
  waits := hI.waits
  selected t ht := by
    have hold := hI.selected t ht
    by_cases hk : s.current = k
    · subst hk
      rw [if_neg (Bool.eq_false_iff.mp hp)] at hold
      simp only [Function.update_self]
      exact (if_pos rfl).mpr (selected_initPrefs hold)
    · simp only [Function.update_of_ne hk]
      exact hold

theorem enqueue_above {k j : Nat} {t : DayTapped} (hI : s.InOrder z) (hk : k ≤ s.current)
    (hj : s.current < j) : enqueue s.queue k t j = [] := by
  rw [enqueue, Function.update_of_ne (Nat.ne_of_gt (Nat.lt_of_le_of_lt hk hj))]
  exact hI.queues j hj

theorem InOrder.tap (hI : s.InOrder z) (day : Int) :
    InOrder z { s with
      queue := enqueue s.queue s.current (s.nextTap day)
      lastTap := some (s.nextTap day) } where
  timers := hI.timers
  queues k hk := enqueue_above hI (le_refl _) hk
  latest t ht := by
    refine ⟨s.nextTap day, rfl, ?_⟩
    rcases ht with htimer | ⟨j, hj⟩
    · exact latest_nextTap hI day (Or.inl htimer)
    · rcases mem_enqueue.mp hj with hj | ⟨-, rfl⟩
      · exact latest_nextTap hI day (Or.inr ⟨j, hj⟩)
      · exact le_refl _
  waits := by
    rintro l ⟨⟩
    exact Or.inr (Or.inr ⟨s.current, mem_enqueue.mpr (Or.inr ⟨rfl, rfl⟩)⟩)
  selected := hI.selected

theorem InOrder.tapGrey (hI : s.InOrder z) (day : Int) :
    InOrder z { s with
      timers := s.timers ++ [(s.current, s.nextTap day)]
      lastTap := some (s.nextTap day) } where
  timers p hp := by
    rcases List.mem_append.mp hp with hp | hp
    · exact hI.timers p hp
    · rw [List.mem_singleton.mp hp]
  queues := hI.queues
  latest t ht := by
    refine ⟨s.nextTap day, rfl, ?_⟩
    rcases ht with ⟨k, hk⟩ | hq
    · rcases List.mem_append.mp hk with hk | hk
      · exact latest_nextTap hI day (Or.inl ⟨k, hk⟩)
      · rw [(Prod.mk.inj (List.mem_singleton.mp hk)).2]
    · exact latest_nextTap hI day (Or.inr hq)
  waits := by
    rintro l ⟨⟩
    exact Or.inr (Or.inl ⟨s.current, List.mem_append_right _ (List.mem_singleton_self _)⟩)
  selected := hI.selected

theorem InOrder.fire {k : Nat} {t : DayTapped} {timers : List (Nat × DayTapped)}
    (hI : s.InOrder z) (htimers : s.timers = (k, t) :: timers) :
    InOrder z { s with queue := enqueue s.queue k t, timers := timers } := by
  have hk : k ≤ s.current := hI.timers (k, t) (by rw [htimers]; exact List.mem_cons_self)
  -- the tap moves from the timers to a queue
  have hpending : ∀ u, Pending { s with queue := enqueue s.queue k t, timers := timers } u ↔
      s.Pending u := by
    intro u
    constructor
    · rintro (⟨j, hj⟩ | ⟨j, hj⟩)
      · exact Or.inl ⟨j, by rw [htimers]; exact List.mem_cons_of_mem _ hj⟩
      · rcases mem_enqueue.mp hj with hj | ⟨-, rfl⟩
        · exact Or.inr ⟨j, hj⟩
        · exact Or.inl ⟨k, by rw [htimers]; exact List.mem_cons_self⟩
    · rintro (⟨j, hj⟩ | ⟨j, hj⟩)
      · rw [htimers] at hj
        rcases List.mem_cons.mp hj with hj | hj
        · exact Or.inr ⟨k, mem_enqueue.mpr (Or.inr ⟨rfl, (Prod.mk.inj hj).2⟩)⟩
        · exact Or.inl ⟨j, hj⟩
      · exact Or.inr ⟨j, mem_enqueue.mpr (Or.inl hj)⟩
  refine ⟨fun p hp => hI.timers p ?_, fun j hj => enqueue_above hI hk hj,
    fun u hu => hI.latest u ((hpending u).mp hu),
    fun l hl => (hI.waits l hl).imp_right (hpending l).mpr, hI.selected⟩
  rw [htimers]
  exact List.mem_cons_of_mem _ hp

/-- What the bloc of an orderly delivery has selected or saved. -/
theorem selected_deliver {k : Nat} {t : DayTapped} (hsaves : s.Saves z k t) :
    let r := (s.bloc k).onCalendarEvent z (.dayTap t.day) s.savedDay
    if (Function.update s.bloc k r.1 s.current).prefs = true
      then z.day (Function.update s.bloc k r.1 s.current).selectedDay = z.day t.day
      else r.2 = some (textOfDay z t.day) ∨
        r.2 = none ∧ (Function.update s.bloc k r.1 s.current).selectedDay = t.day := by
  obtain ⟨hsaved, hcurrent⟩ := hsaves
  simp only [CalendarBloc.onCalendarEvent, CalendarBloc.setPrefs]
  by_cases hk : s.current = k
  · subst hk
    simp only [Function.update_self]
    split
    · exact trivial
    · next hp =>
        rcases hsaved with hp' | ⟨-, hsame⟩
        · exact absurd hp' hp
        · cases htext : s.savedDay with
          | none => exact Or.inr ⟨rfl, trivial⟩
          | some text => exact Or.inl (congrArg some (hsame text htext))
  · have hp : (s.bloc s.current).prefs = false := hcurrent.resolve_left (Ne.symm hk)
    have hpk : (s.bloc k).prefs = true := hsaved.resolve_right fun h => hk h.1.symm
    rw [Function.update_of_ne hk, if_neg (Bool.eq_false_iff.mp hp), if_pos hpk]
    exact Or.inl rfl

theorem InOrder.deliver {k : Nat} {t : DayTapped} {queue : List DayTapped}
    (hI : s.InOrder z) (hqueue : s.queue k = t :: queue)
    (hnumber : ∀ t' ∈ s.handled, t'.number < t.number) (hsaves : s.Saves z k t) :
    let r := (s.bloc k).onCalendarEvent z (.dayTap t.day) s.savedDay
    InOrder z { s with
      bloc := Function.update s.bloc k r.1
      queue := Function.update s.queue k queue
      savedDay := r.2
      handled := some t } := by
  intro r
  have hmem : ∀ j u, u ∈ Function.update s.queue k queue j → u ∈ s.queue j := by
    intro j u hu
    refine mem_of_mem_update ?_ hu
    rw [hqueue]
    exact List.subset_cons_self t queue
  refine ⟨hI.timers, fun j hj => ?_, fun u hu => hI.latest u (hu.imp_right ?_),
    fun l hl => ?_, ?_⟩
  · have hold := hI.queues j hj
    refine List.eq_nil_iff_forall_not_mem.mpr fun u hu => ?_
    have hu' := hmem j u hu
    rw [hold] at hu'
    cases hu'
  · rintro ⟨j, hj⟩
    exact ⟨j, hmem j u hj⟩
  · -- the last tap cannot have been handled before: this one would be newer
    obtain ⟨l', hl', hle⟩ := hI.latest t (Or.inr ⟨k, by rw [hqueue]; exact List.mem_cons_self⟩)
    obtain rfl : l = l' := Option.some.inj (hl.symm.trans hl')
    rcases hI.waits l hl with hhandled | hwaits | ⟨j, hj⟩
    · exact absurd (hnumber l hhandled) (Nat.not_lt.mpr hle)
    · exact Or.inr (Or.inl hwaits)
    · rcases mem_update_of_mem hqueue hj with ⟨-, rfl⟩ | hj
      · exact Or.inl rfl
      · exact Or.inr (Or.inr ⟨j, hj⟩)
  · rintro u ⟨⟩
    exact selected_deliver hsaves

theorem InOrder.rebuild (hI : s.InOrder z) (now : Int)
    (hsaved : ∀ t ∈ s.handled, s.savedDay = some (textOfDay z t.day)) :
    InOrder z { s with
      current := s.current + 1
      bloc := Function.update s.bloc (s.current + 1) (CalendarBloc.create z now)
      queue := Function.update s.queue (s.current + 1) [] } := by
  have hsame : Function.update s.queue (s.current + 1) [] = s.queue := by
    rw [← hI.queues (s.current + 1) (Nat.lt_succ_self _)]
    exact Function.update_eq_self _ _
  rw [hsame]
  refine ⟨fun p hp => Nat.le_succ_of_le (hI.timers p hp),
    fun k hk => hI.queues k (Nat.lt_of_succ_lt hk), hI.latest, hI.waits, fun t ht => ?_⟩
  simp only [Function.update_self]
  exact (if_neg Bool.false_ne_true).mpr (Or.inl (hsaved t ht))

theorem InOrder.step {a : Action} (hI : s.InOrder z) (h : step z s a = some s')
    (hord : s.Orderly z a) : s'.InOrder z := by
  cases a with
  | initPrefs k =>
      simp only [HomeState.step] at h
      split at h
      · next hc => cases h; exact hI.initPrefs hc.2
      · cases h
  | tap day => cases h; exact hI.tap day
  | tapGrey day => cases h; exact hI.tapGrey day
  | fire =>
      simp only [HomeState.step] at h
      split at h
      · cases h
      · next htimers => cases h; exact hI.fire htimers
  | deliver k =>
      simp only [HomeState.step] at h
      split at h
      · cases h
      · next t queue hqueue =>
          cases h
          obtain ⟨hnumber, hsaves⟩ := hord t (by rw [hqueue]; rfl)
          exact hI.deliver hqueue hnumber hsaves
  | rebuild now => cases h; exact hI.rebuild now hord

/-! ## The last tap wins -/

theorem InOrder.lastTapWins (hI : s.InOrder z) : s.LastTapWins z := by
  rintro ⟨htimers, hquiet⟩ t ht
  have hhandled : s.handled = some t := by
    rcases hI.waits t ht with h | ⟨k, hk⟩ | ⟨k, hk⟩
    · exact h
    · rw [htimers] at hk
      cases hk
    · rcases Nat.lt_or_ge s.current k with hlt | hle
      · rw [hI.queues k hlt] at hk
        cases hk
      · rw [(hquiet k hle).1] at hk
        cases hk
  have hsel := hI.selected t hhandled
  rwa [if_pos (hquiet s.current (le_refl _)).2] at hsel

/-- In every state of an orderly run, once nothing is outstanding, the bloc in
use has selected the day of the last tap. -/
theorem lastTap_wins (z : Zone) (now : Int) (savedDay : Option Int)
    {tr : List (Action × HomeState)} (hrun : Run (StepOf (step z)) (opened z now savedDay) tr)
    (horderly : Guarded (Orderly z) (opened z now savedDay) tr) :
    Always (LastTapWins z) (opened z now savedDay) tr := by
  have halways : Always (InOrder z) (opened z now savedDay) tr :=
    Always.of_guarded (fun s a s' hI h hord => hI.step h hord)
      (InOrder.opened now savedDay) hrun horderly
  exact ⟨halways.1.lastTapWins, Along.imp (fun _ _ _ hI => hI.lastTapWins) halways.2⟩

/-- 10 May 2019 is tapped and handled, the page is rebuilt, and 1 June is
tapped as a grey day while the new bloc waits for its preferences. -/
theorem lastTap_wins_june : ∃ tr : List (Action × HomeState),
    tr.map Prod.fst = [.initPrefs 0, .tap 1557446400000, .deliver 0, .rebuild 1556713800000,
        .tapGrey 1559347200000, .initPrefs 1, .fire, .deliver 1] ∧
      (final (opened (Zone.fixed 0) 1556713800000 none) tr).Quiet ∧
      Always (LastTapWins (Zone.fixed 0)) (opened (Zone.fixed 0) 1556713800000 none) tr := by
  obtain ⟨tr, hacts, hrun, hquiet, hguard⟩ := exists_run
    (f := step (Zone.fixed 0)) (s := opened (Zone.fixed 0) 1556713800000 none)
    (P := fun tr => (final (opened (Zone.fixed 0) 1556713800000 none) tr).Quiet ∧
      Guarded (Orderly (Zone.fixed 0)) (opened (Zone.fixed 0) 1556713800000 none) tr)
    [.initPrefs 0, .tap 1557446400000, .deliver 0, .rebuild 1556713800000,
      .tapGrey 1559347200000, .initPrefs 1, .fire, .deliver 1] (by decide)
  exact ⟨tr, hacts, hquiet, lastTap_wins (Zone.fixed 0) 1556713800000 none hrun hguard⟩

/-- 3 May 2019 is saved from an earlier session.  10 May is tapped and handled
before `initPrefs` resumes, which puts 3 May back. -/
theorem lastTap_prefs_fails : ¬ ∀ (z : Zone) (now : Int) (savedDay : Option Int) (tr),
    Run (StepOf (step z)) (opened z now savedDay) tr →
      Always (LastTapWins z) (opened z now savedDay) tr := by
  intro h
  obtain ⟨tr, -, hrun, hquiet, hlast, hday⟩ := exists_run
    (f := step (Zone.fixed 0)) (s := opened (Zone.fixed 0) 1556713800000 (some 1556841600000))
    (P := fun tr =>
      (final (opened (Zone.fixed 0) 1556713800000 (some 1556841600000)) tr).Quiet ∧
      (final (opened (Zone.fixed 0) 1556713800000 (some 1556841600000)) tr).lastTap =
        some ⟨0, 1557446400000⟩ ∧
      ((final (opened (Zone.fixed 0) 1556713800000 (some 1556841600000)) tr).bloc 0).selectedDay =
          1556841600000 ∧
      (final (opened (Zone.fixed 0) 1556713800000 (some 1556841600000)) tr).current = 0)
    [.tap 1557446400000, .deliver 0, .initPrefs 0] (by decide)
  have hwins := (h _ _ _ _ hrun).final hquiet _ hlast
  rw [hday.2, hday.1] at hwins
  exact absurd hwins (by decide)

end HomeState

end CalendarApp
