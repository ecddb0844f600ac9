/-
# `Schedule.Close` — signing out closes the bloc

`handleSignOut` (user_screen.dart) disposes of the bloc in use: its three
controllers are closed and the saved day is removed from `prefs`.  Adding to a
closed controller throws, and so does `prefs` before it is loaded.

    tap, pageChange    add to the event controller of the bloc in use
    tapGrey            starts a timer of 500 ms, which adds to it
    fire               the oldest timer runs out
    deliver k          bloc k handles the first event of its queue
    initPrefs k        bloc k goes on after its await, and emits the day
    returnNow          emits the current date
    rebuild            another bloc is in use
    signOut            handleSignOut has come to dispose

An event that was added before `close` is still delivered.  After the
navigation the home screen is covered: nobody taps on it, but its timers, its
queues, its page animation and the await of `initPrefs` go on.

A run is safe exactly when (`Undisturbed`)

    nothing is added to or delivered by a bloc that is closed

    no `DayTap` is delivered and no sign-out comes to `dispose` before the
    bloc has its preferences

(`closingSafe_iff`).  Taps and `returnNow` need no condition.
-/
import CalendarApp.Schedule.Bloc

namespace CalendarApp

open Lib

/-- The blocs, of which `current` is in use, with what is closed and what still
comes. -/
structure ClosingState where
  current : Nat
  bloc : Nat → CalendarBloc
  /-- the controllers of the bloc are closed -/
  closed : Nat → Bool
  queue : Nat → List CalendarEvent
  timers : List (Nat × CalendarEvent)
  savedDay : Option Int
  /-- the sign-in screen covers the home screen -/
  left : Bool
  /-- something was added to a closed controller, or `prefs` was null -/
  thrown : Bool
  /-- a sign-out has thrown in `dispose`, before the navigation -/
  stuck : Bool

namespace ClosingState

inductive Action where
  | tap (day : Int)
  | tapGrey (day : Int)
  | pageChange (position : Int)
  | fire
  | deliver (k : Nat)
  | initPrefs (k : Nat)
  | returnNow
  | rebuild (now : Int)
  | signOut
  deriving DecidableEq, Repr

variable (z : Zone)

/-- The first build of the home screen. -/
def opened (now : Int) (savedDay : Option Int) : ClosingState where
  current := 0
  bloc _ := CalendarBloc.create z now
  closed _ := false
  queue _ := []
  timers := []
  savedDay := savedDay
  left := false
  thrown := false
  stuck := false

/-- Something throws. -/
def throws (s : ClosingState) : ClosingState := { s with thrown := true }

def setBloc (s : ClosingState) (k : Nat) (b : CalendarBloc) : ClosingState :=
  { s with bloc := Function.update s.bloc k b }

/-- `calendarEvent.add(e)` on bloc `k`. -/
def add (s : ClosingState) (k : Nat) (e : CalendarEvent) : ClosingState :=
  if s.closed k then s.throws
  else { s with queue := Function.update s.queue k (s.queue k ++ [e]) }

/-- `_onCalendarEvent(e)` of bloc `k`; a `DayTap` sets the field before its
first `add`, and calls `setPrefs` after it. -/
def onCalendarEvent (s : ClosingState) (k : Nat) (e : CalendarEvent) : ClosingState :=
  let r := (s.bloc k).onCalendarEvent z e s.savedDay
  match e with
  | .dayTap data =>
      if s.closed k then (s.setBloc k { s.bloc k with selectedDay := data }).throws
      else
        { s.setBloc k r.1 with
          savedDay := r.2
          thrown := s.thrown || !(s.bloc k).prefs }
  | .pageChange _ => if s.closed k then s.throws else s.setBloc k r.1

/-- `initPrefs()` of bloc `k` after its await; `prefs` and the field are set
before the `add`. -/
def initPrefs (s : ClosingState) (k : Nat) : ClosingState :=
  let b := (s.bloc k).initPrefs z s.savedDay
  if s.closed k then
    (s.setBloc k { b with selectedDaySink := (s.bloc k).selectedDaySink }).throws
  else s.setBloc k b

/-- `returnNow()` of the bloc in use. -/
def returnNow (s : ClosingState) : ClosingState :=
  if s.closed s.current then s.throws
  else s.setBloc s.current ((s.bloc s.current).returnNow z)

/-- `handleSignOut()` from `dispose` on; the preferences have been cleared. -/
def signOut (s : ClosingState) : ClosingState :=
  let s₁ := { s with closed := Function.update s.closed s.current true, savedDay := none }
  if (s.bloc s.current).prefs then { s₁ with left := true }
  else { s₁.throws with stuck := true }

def step (s : ClosingState) : Action → Option ClosingState
  | .tap day => if s.left then none else some (s.add s.current (.dayTap day))
  | .tapGrey day =>
      if s.left then none
      else some { s with timers := s.timers ++ [(s.current, .dayTap day)] }
  | .pageChange position => some (s.add s.current (.pageChange position))
  | .fire =>
      match s.timers with
      | [] => none
      | (k, e) :: timers => some ({ s with timers := timers }.add k e)
  | .deliver k =>
      match s.queue k with
      | [] => none
      | e :: queue =>
          some ({ s with queue := Function.update s.queue k queue }.onCalendarEvent z k e)
  | .initPrefs k =>
      if k ≤ s.current ∧ (s.bloc k).prefs = false then some (s.initPrefs z k) else none
  | .returnNow => if s.left then none else some (s.returnNow z)
  | .rebuild now =>
      some { s with
        current := s.current + 1
        bloc := Function.update s.bloc (s.current + 1) (CalendarBloc.create z now)
        closed := Function.update s.closed (s.current + 1) false
        queue := Function.update s.queue (s.current + 1) []
        left := false }
  | .signOut => if s.left then none else some s.signOut

/-- Nothing was added to a closed controller, `prefs` was not used while null,
and every sign-out that came to `dispose` went on to the navigation. -/
structure Safe (s : ClosingState) : Prop where
  thrown : s.thrown = false
  stuck : s.stuck = false

/-- `_onCalendarEvent` calls `setPrefs`. -/
def usesPrefs : CalendarEvent → Bool
  | .dayTap _ => true
  | .pageChange _ => false

/-- The action meets no closed bloc, and no null `prefs`. -/
def Undisturbed (s : ClosingState) : Action → Prop
  | .pageChange _ => s.closed s.current = false
  | .fire => ∀ p ∈ s.timers.head?, s.closed p.1 = false
  | .deliver k => s.closed k = false ∧
      ∀ e ∈ (s.queue k).head?, usesPrefs e = true → (s.bloc k).prefs = true
  | .initPrefs k => s.closed k = false
  | .signOut => (s.bloc s.current).prefs = true
  | _ => True

instance (s : ClosingState) : ∀ a, Decidable (Undisturbed s a)
  | .pageChange _ | .initPrefs _ | .signOut => inferInstanceAs (Decidable (_ = _))
  | .fire => inferInstanceAs (Decidable (∀ _ ∈ _, _))
  | .deliver _ => inferInstanceAs (Decidable (_ ∧ ∀ _ ∈ _, _ → _))
  | .tap _ | .tapGrey _ | .returnNow | .rebuild _ => inferInstanceAs (Decidable True)

/-- The bloc in use is closed by a sign-out that has left the home screen. -/
def LeftClosed (s : ClosingState) : Prop :=
  s.thrown = false → s.closed s.current = true → s.left = true

variable {z} {s s' : ClosingState}

/-- What a step can do. -/
inductive Stepped (z : Zone) (s : ClosingState) : Action → ClosingState → Prop
  | tap (day : Int) : s.left = false → Stepped z s (.tap day) (s.add s.current (.dayTap day))
  | tapGrey (day : Int) : s.left = false →
      Stepped z s (.tapGrey day) { s with timers := s.timers ++ [(s.current, .dayTap day)] }
  | pageChange (position : Int) :
      Stepped z s (.pageChange position) (s.add s.current (.pageChange position))
  | fire (k : Nat) (e : CalendarEvent) (timers : List (Nat × CalendarEvent)) :
      s.timers = (k, e) :: timers → Stepped z s .fire ({ s with timers := timers }.add k e)
  | deliver (k : Nat) (e : CalendarEvent) (queue : List CalendarEvent) :
      s.queue k = e :: queue → Stepped z s (.deliver k)
        ({ s with queue := Function.update s.queue k queue }.onCalendarEvent z k e)
  | initPrefs (k : Nat) : k ≤ s.current → (s.bloc k).prefs = false →
      Stepped z s (.initPrefs k) (s.initPrefs z k)
  | returnNow : s.left = false → Stepped z s .returnNow (s.returnNow z)
  | rebuild (now : Int) : Stepped z s (.rebuild now) { s with
      current := s.current + 1
      bloc := Function.update s.bloc (s.current + 1) (CalendarBloc.create z now)
      closed := Function.update s.closed (s.current + 1) false
      queue := Function.update s.queue (s.current + 1) []
      left := false }
  | signOut : s.left = false → Stepped z s .signOut s.signOut

theorem stepped_of_step {a : Action} (h : s.step z a = some s') : Stepped z s a s' := by
  cases a with
  | tap day =>
      simp only [step] at h
      split at h
      · cases h
      · next hleft =>
          cases h
          exact .tap day (Bool.eq_false_iff.mpr hleft)
  | tapGrey day =>
      simp only [step] at h
      split at h
      · cases h
      · next hleft =>
          cases h
          exact .tapGrey day (Bool.eq_false_iff.mpr hleft)
  | pageChange position =>
      cases h
      exact .pageChange position
  | fire =>
      simp only [step] at h
      split at h
      · cases h
      · next k e timers htimers =>
          cases h
          exact .fire k e timers htimers
  | deliver k =>
      simp only [step] at h
      split at h
      · cases h
      · next e queue hqueue =>
          cases h
          exact .deliver k e queue hqueue
  | initPrefs k =>
      simp only [step] at h
      split at h
      · next hk =>
          cases h
          exact .initPrefs k hk.1 hk.2
      · cases h
  | returnNow =>
      simp only [step] at h
      split at h
      · cases h
      · next hleft =>
          cases h
          exact .returnNow (Bool.eq_false_iff.mpr hleft)
  | rebuild now =>
      cases h
      exact .rebuild now
  | signOut =>
      simp only [step] at h
      split at h
      · cases h
      · next hleft =>
          cases h
          exact .signOut (Bool.eq_false_iff.mpr hleft)

theorem not_safe_throws (s : ClosingState) : ¬ s.throws.Safe := fun h => nomatch h.thrown

theorem safe_add {k : Nat} {e : CalendarEvent} (hs : s.Safe) :
    (s.add k e).Safe ↔ s.closed k = false := by
  simp only [add]
  cases hk : s.closed k with
  | true => exact iff_of_false (not_safe_throws s) nofun
  | false => exact iff_of_true ⟨hs.thrown, hs.stuck⟩ rfl

theorem safe_onCalendarEvent {k : Nat} {e : CalendarEvent} (hs : s.Safe) :
    (s.onCalendarEvent z k e).Safe ↔
      s.closed k = false ∧ (usesPrefs e = true → (s.bloc k).prefs = true) := by
  cases hk : s.closed k with
  | true =>
      refine iff_of_false ?_ fun h => nomatch h.1
      cases e with
      | dayTap data =>
          simp only [onCalendarEvent, hk, if_true]
          exact not_safe_throws _
      | pageChange data =>
          simp only [onCalendarEvent, hk, if_true]
          exact not_safe_throws _
  | false =>
      rw [and_iff_right rfl]
      cases e with
      | dayTap data =>
          simp only [onCalendarEvent, hk, Bool.false_eq_true, if_false]
          constructor
          · intro h _
            have hthrown : (s.thrown || !(s.bloc k).prefs) = false := h.thrown
            rwa [hs.thrown, Bool.false_or, Bool.not_eq_false'] at hthrown
          · intro h
            refine ⟨?_, hs.stuck⟩
            show (s.thrown || !(s.bloc k).prefs) = false
            rw [hs.thrown, h rfl]
            rfl
      | pageChange data =>
          simp only [onCalendarEvent, hk, Bool.false_eq_true, if_false]
          exact iff_of_true ⟨hs.thrown, hs.stuck⟩ nofun

theorem safe_initPrefs {k : Nat} (hs : s.Safe) :
    (s.initPrefs z k).Safe ↔ s.closed k = false := by
  simp only [initPrefs]
  cases hk : s.closed k with
  | true => exact iff_of_false (not_safe_throws _) nofun
  | false => exact iff_of_true ⟨hs.thrown, hs.stuck⟩ rfl

theorem safe_returnNow (hs : s.Safe) :
    (s.returnNow z).Safe ↔ s.closed s.current = false := by
  simp only [returnNow]
  cases hk : s.closed s.current with
  | true => exact iff_of_false (not_safe_throws s) nofun
  | false => exact iff_of_true ⟨hs.thrown, hs.stuck⟩ rfl

theorem safe_signOut (hs : s.Safe) :
    s.signOut.Safe ↔ (s.bloc s.current).prefs = true := by
  simp only [signOut]
  cases hp : (s.bloc s.current).prefs with
  | true => exact iff_of_true ⟨hs.thrown, hs.stuck⟩ rfl
  | false => exact iff_of_false (fun h => nomatch h.stuck) nofun

/-- While the home screen is in use, its bloc is open. -/
theorem open_of_not_left (hI : s.LeftClosed) (hs : s.Safe) (hleft : s.left = false) :
    s.closed s.current = false := by
  cases hk : s.closed s.current with
  | true => exact absurd (hI hs.thrown hk) (Bool.eq_false_iff.mp hleft)
  | false => rfl

/-- One step is safe exactly when it is not disturbed. -/
theorem step_safe {a : Action} (hI : s.LeftClosed) (hs : s.Safe) (h : s.step z a = some s') :
    s'.Safe ↔ s.Undisturbed a := by
  cases stepped_of_step h with
  | tap day hleft =>
      rw [safe_add hs]
      exact iff_of_true (open_of_not_left hI hs hleft) trivial
  | tapGrey day _ => exact iff_of_true ⟨hs.thrown, hs.stuck⟩ trivial
  | pageChange position => exact safe_add hs
  | fire k e timers htimers =>
      simp only [Undisturbed, htimers, List.head?_cons, Option.mem_some_iff, forall_eq']
      exact safe_add ⟨hs.thrown, hs.stuck⟩
  | deliver k e queue hqueue =>
      simp only [Undisturbed, hqueue, List.head?_cons, Option.mem_some_iff, forall_eq']
      exact safe_onCalendarEvent ⟨hs.thrown, hs.stuck⟩
  | initPrefs k _ _ => exact safe_initPrefs hs
  | returnNow hleft =>
      rw [safe_returnNow hs]
      exact iff_of_true (open_of_not_left hI hs hleft) trivial
  | rebuild now => exact iff_of_true ⟨hs.thrown, hs.stuck⟩ trivial
  | signOut _ => exact safe_signOut hs

theorem LeftClosed.same (hI : s.LeftClosed) (hcurrent : s'.current = s.current)
    (hclosed : s'.closed = s.closed) (hleft : s'.left = s.left)
    (hthrown : s'.thrown = false → s.thrown = false) : s'.LeftClosed := by
  intro ht hk
  rw [hcurrent, hclosed] at hk
  rw [hleft]
  exact hI (hthrown ht) hk

theorem LeftClosed.add (hI : s.LeftClosed) (k : Nat) (e : CalendarEvent) :
    (s.add k e).LeftClosed := by
  simp only [ClosingState.add]
  split
  · exact fun ht => nomatch ht
  · exact hI.same rfl rfl rfl id

theorem LeftClosed.onCalendarEvent (hI : s.LeftClosed) (k : Nat) (e : CalendarEvent) :
    (s.onCalendarEvent z k e).LeftClosed := by
  cases e with
  | dayTap data =>
      simp only [ClosingState.onCalendarEvent]
      split
      · exact fun ht => nomatch ht
      · exact hI.same rfl rfl rfl fun ht => (Bool.or_eq_false_iff.mp ht).1
  | pageChange data =>
      simp only [ClosingState.onCalendarEvent]
      split
      · exact fun ht => nomatch ht
      · exact hI.same rfl rfl rfl id

theorem LeftClosed.step {a : Action} (hI : s.LeftClosed) (h : s.step z a = some s') :
    s'.LeftClosed := by
  cases stepped_of_step h with
  | tap day _ => exact hI.add _ _
  | tapGrey day _ => exact hI.same rfl rfl rfl id
  | pageChange position => exact hI.add _ _
  | fire k e timers _ =>
      apply LeftClosed.add
      exact hI.same rfl rfl rfl id
  | deliver k e queue _ =>
      apply LeftClosed.onCalendarEvent
      exact hI.same rfl rfl rfl id
  | initPrefs k _ _ =>
      simp only [ClosingState.initPrefs]
      split
      · exact fun ht => nomatch ht
      · exact hI.same rfl rfl rfl id
  | returnNow _ =>
      simp only [ClosingState.returnNow]
      split
      · exact fun ht => nomatch ht
      · exact hI.same rfl rfl rfl id
  | rebuild now =>
      intro _ hk
      simp only [Function.update_self, Bool.false_eq_true] at hk
  | signOut _ =>
      simp only [ClosingState.signOut]
      split
      · exact fun _ _ => rfl
      · exact fun ht => nomatch ht

/-- A run is safe exactly when no action meets a closed bloc or a null
`prefs`. -/
theorem closingSafe_iff (z : Zone) (now : Int) (savedDay : Option Int)
    {tr : List (Action × ClosingState)}
    (hrun : Run (StepOf (step z)) (opened z now savedDay) tr) :
    Always Safe (opened z now savedDay) tr ↔ Guarded Undisturbed (opened z now savedDay) tr :=
  always_iff_guarded (I := LeftClosed) (P := Safe) (C := Undisturbed)
    (fun _ _ _ hI hs h => step_safe hI hs h) (fun _ _ _ hI h => hI.step h)
    (fun _ hk => nomatch hk) ⟨rfl, rfl⟩ hrun

/-- A day is tapped and delivered, and then the user signs out. -/
theorem closingSafe_tap : ∃ tr : List (Action × ClosingState),
    tr.map Prod.fst = [.initPrefs 0, .tapGrey 1557446400000, .fire, .deliver 0, .signOut] ∧
      Always Safe (opened (Zone.fixed 0) 1556713800000 none) tr := by
  obtain ⟨tr, hacts, hrun, hguard⟩ := exists_run
    (f := step (Zone.fixed 0)) (s := opened (Zone.fixed 0) 1556713800000 none)
    (P := fun tr => Guarded Undisturbed (opened (Zone.fixed 0) 1556713800000 none) tr)
    [.initPrefs 0, .tapGrey 1557446400000, .fire, .deliver 0, .signOut] (by decide)
  exact ⟨tr, hacts, (closingSafe_iff (Zone.fixed 0) 1556713800000 none hrun).mpr hguard⟩

/-- The user signs out within the 500 ms after a tap on a greyed day. -/
theorem closingSafe_timer_fails : ¬ ∀ (z : Zone) (now : Int) (savedDay : Option Int) (tr),
    Run (StepOf (step z)) (opened z now savedDay) tr →
      Always Safe (opened z now savedDay) tr := by
  intro h
  obtain ⟨tr, -, hrun, hthrown⟩ := exists_run
    (f := step (Zone.fixed 0)) (s := opened (Zone.fixed 0) 1556713800000 none)
    (P := fun tr => (final (opened (Zone.fixed 0) 1556713800000 none) tr).thrown = true)
    [.initPrefs 0, .tapGrey 1557446400000, .signOut, .fire] (by decide)
  have hsafe := (h _ _ _ _ hrun).final.thrown
  rw [hthrown] at hsafe
  cases hsafe

end ClosingState

end CalendarApp
