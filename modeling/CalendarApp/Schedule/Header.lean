/-
# `Schedule.Header` — the header follows the grid

Two page views show a month: the grid, which the user can drag, and the
header, which only `monthyearController` moves.  The header is sent after the
grid by timers of 100 ms, started in two places.

    onPageChanged      the page the grid has reached
    pageAnimatedTo     the page the grid was asked for, together with the request

The timers fire in order, so the header ends on the page of the last one
started (`destination`).  A page change brings it to the page of the grid.  A
request brings it to the page asked for, where the grid is going too, unless a
drag stops it before it has changed its page: then the grid settles where it
was, no page change is reported, and the header goes on alone.

So header and grid agree whenever they are at rest exactly when, each time
everything comes to rest, a page change has followed the last request, or the
grid is on the page asked for (`header_iff`).  No drag into a request that has
not begun to change the page is enough.
-/
import CalendarApp.Schedule.Pages
import CalendarApp.Lib.Run

namespace CalendarApp

open Lib

/-- What moves the grid. -/
inductive Motion where
  | idle
  /-- a finger, and the view settling after it -/
  | drag
  /-- `animateToPage` -/
  | animate (target : Int)
  deriving DecidableEq, Repr

/-- The motion can take the grid from a page to `k`. -/
def Motion.reaches (page k : Int) : Motion → Bool
  | .idle => false
  | .drag => true
  | .animate target => page < k && k ≤ target || target ≤ k && k < page

/-- The motion can end on a page. -/
def Motion.stops (page : Int) : Motion → Bool
  | .idle => false
  | .drag => true
  | .animate target => page = target

/-- The page a controller stops at when it is sent to a page. -/
def clampPage (p : Int) : Int := max 0 (min p (pageCount - 1))

/-- The two page views and the timers between them. -/
structure CalendarPages where
  /-- the page of `calendarController` -/
  page : Int
  motion : Motion
  /-- the pages the header will be sent to, as the timers were started -/
  timers : List Int
  /-- the page of `monthyearController` at rest -/
  header : Int
  /-- the page the header is moving to -/
  headerTo : Option Int
  /-- the last page asked for, if no page change has been reported since -/
  request : Option Int
  deriving DecidableEq, Repr

namespace CalendarPages

inductive Action where
  /-- a tap on a greyed day -/
  | tapDay (day : Int)
  /-- a tap on the title CALENDAR -/
  | tapCalendar (now : Int)
  | drag
  | pageChange (position : Int)
  | settle
  | fire
  | headerSettle
  deriving DecidableEq, Repr

/-- The controllers as they are created, at the times `now` and `now'`. -/
def start (z : Zone) (now now' : Int) : CalendarPages where
  page := clampPage (getPageIndex z now)
  motion := .idle
  timers := []
  header := clampPage (getPageIndex z now')
  headerTo := none
  request := none

/-- `pageAnimatedTo(newPageIndex)`. -/
def pageAnimatedTo (newPageIndex : Int) (s : CalendarPages) : CalendarPages :=
  { s with
    motion := .animate (clampPage newPageIndex)
    timers := s.timers ++ [newPageIndex]
    request := some (clampPage newPageIndex) }

/-- `headerAnimatedTo(newPageIndex)`. -/
def headerAnimatedTo (newPageIndex : Int) (s : CalendarPages) : CalendarPages :=
  { s with timers := s.timers ++ [newPageIndex] }

/-- `onPageChanged` of the grid. -/
def onPageChanged (position : Int) (s : CalendarPages) : CalendarPages :=
  headerAnimatedTo position { s with page := position, request := none }

/-- The rounded page of the grid can become `k`: any page under a finger, and one
on the way of an animation. -/
def CanReach (s : CalendarPages) (k : Int) : Prop :=
  0 ≤ k ∧ k < pageCount ∧ k ≠ s.page ∧ s.motion.reaches s.page k = true

/-- The grid can stop: on the nearest page after a drag, and an animation on its
target. -/
def CanSettle (s : CalendarPages) : Prop := s.motion.stops s.page = true

instance (s : CalendarPages) (k : Int) : Decidable (s.CanReach k) :=
  inferInstanceAs (Decidable (_ ∧ _ ∧ _ ∧ _))

instance (s : CalendarPages) : Decidable s.CanSettle := inferInstanceAs (Decidable (_ = _))

def step (z : Zone) (s : CalendarPages) : Action → Option CalendarPages
  | .tapDay day => some (s.pageAnimatedTo (getPageIndex z day))
  | .tapCalendar now => some (s.pageAnimatedTo (getPageIndex z now))
  | .drag => some { s with motion := .drag }
  | .pageChange position => if s.CanReach position then some (s.onPageChanged position) else none
  | .settle => if s.CanSettle then some { s with motion := .idle } else none
  | .fire =>
      match s.timers with
      | [] => none
      | p :: timers => some { s with timers := timers, headerTo := some (clampPage p) }
  | .headerSettle =>
      match s.headerTo with
      | none => none
      | some q => some { s with header := q, headerTo := none }

/-- No timer is pending and neither view is moving. -/
def AtRest (s : CalendarPages) : Prop :=
  s.timers = [] ∧ s.motion = .idle ∧ s.headerTo = none

instance (s : CalendarPages) : Decidable s.AtRest :=
  inferInstanceAs (Decidable (_ ∧ _ ∧ _))

/-- At rest, the two controllers are on the same page. -/
def Agrees (s : CalendarPages) : Prop := s.AtRest → s.header = s.page

/-- Nothing moves after the step, and nothing waits. -/
def Ends (s : CalendarPages) : Action → Prop
  | .settle => s.timers = [] ∧ s.headerTo = none
  | .headerSettle => s.timers = [] ∧ s.motion = .idle
  | _ => False

/-- A step after which everything is at rest is taken on the page asked for, or
after a page change. -/
def RequestMet (s : CalendarPages) (a : Action) : Prop :=
  s.Ends a → ∀ q ∈ s.request, s.page = q

instance (s : CalendarPages) : ∀ a : Action, Decidable (s.Ends a)
  | .settle | .headerSettle => inferInstanceAs (Decidable (_ ∧ _))
  | .tapDay _ | .tapCalendar _ | .drag | .pageChange _ | .fire =>
      inferInstanceAs (Decidable False)

instance (s : CalendarPages) (a : Action) : Decidable (s.RequestMet a) :=
  inferInstanceAs (Decidable (_ → ∀ q ∈ s.request, s.page = q))

/-- No drag stops a request before the page has changed. -/
def Undisturbed (s : CalendarPages) (a : Action) : Prop :=
  a = .drag → ∀ q ∈ s.request, s.page = q

/-! ## Where the header ends -/

/-- The page the header is on when the timers have fired. -/
def destination (s : CalendarPages) : Int :=
  (s.timers.getLast?.map clampPage).getD (s.headerTo.getD s.header)

/-- The header ends on the page asked for, or else on that of the grid. -/
def Follows (s : CalendarPages) : Prop := s.destination = s.request.getD s.page

/-- The grid is on the page asked for, or on its way. -/
def Underway (s : CalendarPages) : Prop :=
  ∀ q ∈ s.request, s.page = q ∨ s.motion = .animate q

variable {z : Zone} {s s' : CalendarPages} {a : Action}

theorem clampPage_of_page {k : Int} (h₁ : 0 ≤ k) (h₂ : k < pageCount) : clampPage k = k := by
  rw [clampPage]
  omega

/-- What a step can do. -/
inductive Stepped (z : Zone) (s : CalendarPages) : Action → CalendarPages → Prop
  | tapDay (day : Int) : Stepped z s (.tapDay day) (s.pageAnimatedTo (getPageIndex z day))
  | tapCalendar (now : Int) :
      Stepped z s (.tapCalendar now) (s.pageAnimatedTo (getPageIndex z now))
  | drag : Stepped z s .drag { s with motion := .drag }
  | pageChange (k : Int) : s.CanReach k → Stepped z s (.pageChange k) (s.onPageChanged k)
  | settle : s.CanSettle → Stepped z s .settle { s with motion := .idle }
  | fire (p : Int) (timers : List Int) : s.timers = p :: timers →
      Stepped z s .fire { s with timers := timers, headerTo := some (clampPage p) }
  | headerSettle (q : Int) : s.headerTo = some q →
      Stepped z s .headerSettle { s with header := q, headerTo := none }

theorem stepped_of_step (h : s.step z a = some s') : Stepped z s a s' := by
  cases a with
  | tapDay day =>
      cases h
      exact .tapDay day
  | tapCalendar now =>
      cases h
      exact .tapCalendar now
  | drag =>
      cases h
      exact .drag
  | pageChange k =>
      obtain ⟨hreach, heq⟩ := Option.ite_none_right_eq_some.mp h
      cases heq
      exact .pageChange k hreach
  | settle =>
      obtain ⟨hsettle, heq⟩ := Option.ite_none_right_eq_some.mp h
      cases heq
      exact .settle hsettle
  | fire =>
      simp only [step] at h
      split at h
      · cases h
      · next p timers htimers =>
          cases h
          exact .fire p timers htimers
  | headerSettle =>
      simp only [step] at h
      split at h
      · cases h
      · next q hq =>
          cases h
          exact .headerSettle q hq

theorem destination_append (s : CalendarPages) (p : Int) :
    (s.headerAnimatedTo p).destination = clampPage p := by
  rw [destination, headerAnimatedTo, List.getLast?_concat]
  rfl

theorem destination_pageAnimatedTo (s : CalendarPages) (p : Int) :
    (s.pageAnimatedTo p).destination = clampPage p :=
  destination_append _ p

theorem destination_fire {p : Int} {timers : List Int} (h : s.timers = p :: timers) :
    destination { s with timers := timers, headerTo := some (clampPage p) } = s.destination := by
  simp only [destination, h, List.getLast?_cons]
  cases timers.getLast? <;> rfl

theorem Follows.step (hI : s.Follows) (h : s.step z a = some s') : s'.Follows := by
  cases stepped_of_step h with
  | tapDay day => exact destination_pageAnimatedTo s _
  | tapCalendar now => exact destination_pageAnimatedTo s _
  | drag => exact hI
  | pageChange k hreach =>
      exact (destination_append _ k).trans (clampPage_of_page hreach.1 hreach.2.1)
  | settle _ => exact hI
  | fire p timers htimers => exact (destination_fire htimers).trans hI
  | headerSettle q hq =>
      have hsame : destination { s with header := q, headerTo := none } = s.destination := by
        rw [destination, destination, hq]
        rfl
      exact hsame.trans hI

theorem page_of_settle {q : Int} (h : s.CanSettle) (hmotion : s.motion = .animate q) :
    s.page = q := by
  rw [CanSettle, hmotion, Motion.stops] at h
  exact of_decide_eq_true h

/-- An undisturbed request goes on until the page changes. -/
theorem Underway.step (hI : s.Underway) (h : s.step z a = some s') (hC : s.Undisturbed a) :
    s'.Underway := by
  cases stepped_of_step h with
  | tapDay day => exact fun q hq => Or.inr (congrArg Motion.animate (Option.some.inj hq))
  | tapCalendar now => exact fun q hq => Or.inr (congrArg Motion.animate (Option.some.inj hq))
  | drag => exact fun q hq => Or.inl (hC rfl q hq)
  | pageChange k _ => exact fun q hq => nomatch hq
  | settle hsettle =>
      intro q hq
      rcases hI q hq with hpage | hmotion
      · exact Or.inl hpage
      · have hpage : s.page = q := page_of_settle hsettle hmotion
        exact Or.inl hpage
  | fire p timers htimers => exact hI
  | headerSettle q hq => exact hI

theorem atRest_step (h : s.step z a = some s') : s'.AtRest ↔ s.Ends a := by
  cases stepped_of_step h with
  | tapDay day => exact ⟨fun hrest => (nomatch hrest.2.1), fun hends => hends.elim⟩
  | tapCalendar now => exact ⟨fun hrest => (nomatch hrest.2.1), fun hends => hends.elim⟩
  | drag => exact ⟨fun hrest => (nomatch hrest.2.1), fun hends => hends.elim⟩
  | pageChange k _ =>
      refine ⟨fun hrest => ?_, fun hends => hends.elim⟩
      exact absurd hrest.1 (List.append_ne_nil_of_right_ne_nil _ (by simp))
  | settle _ => exact ⟨fun hrest => ⟨hrest.1, hrest.2.2⟩, fun hends => ⟨hends.1, rfl, hends.2⟩⟩
  | fire p timers _ => exact ⟨fun hrest => (nomatch hrest.2.2), fun hends => hends.elim⟩
  | headerSettle q _ =>
      exact ⟨fun hrest => ⟨hrest.1, hrest.2.1⟩, fun hends => ⟨hends.1, hends.2, rfl⟩⟩

theorem page_of_ends (h : s.step z a = some s') (hends : s.Ends a) :
    s'.page = s.page ∧ s'.request = s.request := by
  cases stepped_of_step h with
  | settle _ => exact ⟨rfl, rfl⟩
  | headerSettle q _ => exact ⟨rfl, rfl⟩
  | tapDay day => exact hends.elim
  | tapCalendar now => exact hends.elim
  | drag => exact hends.elim
  | pageChange k _ => exact hends.elim
  | fire p timers _ => exact hends.elim

theorem destination_of_atRest (h : s.AtRest) : s.destination = s.header := by
  rw [destination, h.1, h.2.2]
  rfl

/-- A step leaves them in agreement exactly when the request is met. -/
theorem agrees_step (hI : s.Follows) (h : s.step z a = some s') :
    s'.Agrees ↔ s.RequestMet a := by
  rw [Agrees, RequestMet, atRest_step h]
  refine forall_congr' fun hends => ?_
  obtain ⟨hpage, hrequest⟩ := page_of_ends h hends
  have hheader : s'.header = s.request.getD s.page := by
    rw [← destination_of_atRest ((atRest_step h).mpr hends), ← hrequest, ← hpage]
    exact hI.step h
  rw [hheader, hpage]
  cases s.request with
  | none => exact ⟨fun _ q hq => (nomatch hq), fun _ => rfl⟩
  | some q => exact ⟨fun heq q' hq' => Option.some.inj hq' ▸ heq.symm, fun heq => (heq q rfl).symm⟩

/-- What is on its way is met when everything comes to rest. -/
theorem Underway.requestMet (hI : s.Underway) (h : s.step z a = some s') : s.RequestMet a := by
  intro hends q hq
  rcases hI q hq with hpage | hmotion
  · exact hpage
  · cases stepped_of_step h with
    | settle hsettle => exact page_of_settle hsettle hmotion
    | headerSettle p hp => exact absurd (hmotion.symm.trans hends.2) (by simp)
    | tapDay day => exact hends.elim
    | tapCalendar now => exact hends.elim
    | drag => exact hends.elim
    | pageChange k _ => exact hends.elim
    | fire p timers _ => exact hends.elim

/-! ## Along a run -/

/-- The header and the grid agree at rest throughout a run exactly when their
controllers were created on one page and each time everything comes to rest the
last request is met; it is met as long as no drag stops a request before the
page has changed. -/
theorem header_iff (z : Zone) (now now' : Int) {tr : List (Action × CalendarPages)}
    (hrun : Run (StepOf (step z)) (start z now now') tr) :
    (Always Agrees (start z now now') tr ↔
      clampPage (getPageIndex z now) = clampPage (getPageIndex z now') ∧
        Guarded RequestMet (start z now now') tr) ∧
    (Guarded Undisturbed (start z now now') tr → Guarded RequestMet (start z now now') tr) := by
  have hexact : (start z now now').Follows → (start z now now').Agrees →
      (Always Agrees (start z now now') tr ↔ Guarded RequestMet (start z now now') tr) :=
    fun hI hP => always_iff_guarded (I := Follows) (P := Agrees) (C := RequestMet)
      (fun _ _ _ hI _ h => agrees_step hI h) (fun _ _ _ hI h => hI.step h) hI hP hrun
  constructor
  · constructor
    · intro h
      have hsame : clampPage (getPageIndex z now') = clampPage (getPageIndex z now) :=
        h.1 ⟨rfl, rfl, rfl⟩
      exact ⟨hsame.symm, (hexact hsame h.1).mp h⟩
    · rintro ⟨hsame, hgd⟩
      exact (hexact hsame.symm fun _ => hsame.symm).mpr hgd
  · intro hgd
    have hmet : ∀ s a s', s.Underway → StepOf (step z) s a s' → s.Undisturbed a →
        s.RequestMet a ∧ s'.Underway :=
      fun s a s' hI h hC => ⟨hI.requestMet h, hI.step h hC⟩
    exact Along.of_guarded hmet (fun q hq => nomatch hq) hrun hgd

/-- A tap on the first of June, in May 2019, that nothing disturbs. -/
theorem header_june : ∃ tr : List (Action × CalendarPages),
    (final (start (Zone.fixed 0) 1557878400000 1557878400000) tr).header = 53 ∧
    Always Agrees (start (Zone.fixed 0) 1557878400000 1557878400000) tr := by
  obtain ⟨tr, -, hrun, hheader, hgd⟩ := exists_run
    (f := step (Zone.fixed 0)) (s := start (Zone.fixed 0) 1557878400000 1557878400000)
    (P := fun tr =>
      (final (start (Zone.fixed 0) 1557878400000 1557878400000) tr).header = 53 ∧
        Guarded RequestMet (start (Zone.fixed 0) 1557878400000 1557878400000) tr)
    [.tapDay 1559347200000, .fire, .pageChange 53, .settle, .headerSettle, .fire, .headerSettle]
    (by decide +kernel)
  exact ⟨tr, hheader, (header_iff (Zone.fixed 0) _ _ hrun).1.mpr ⟨rfl, hgd⟩⟩

/-- In May 2019 the first of June is tapped, and a finger holds the grid before
June has come half into view: the grid settles on May, and the header goes to
June. -/
theorem header_heldGrid_fails : ¬ ∀ (z : Zone) (now : Int) (tr : List (Action × CalendarPages)),
    Run (StepOf (step z)) (start z now now) tr → Always Agrees (start z now now) tr := by
  intro h
  obtain ⟨tr, -, hrun, hrest, hapart⟩ := exists_run
    (f := step (Zone.fixed 0)) (s := start (Zone.fixed 0) 1557878400000 1557878400000)
    (P := fun tr =>
      (final (start (Zone.fixed 0) 1557878400000 1557878400000) tr).AtRest ∧
        (final (start (Zone.fixed 0) 1557878400000 1557878400000) tr).header ≠
          (final (start (Zone.fixed 0) 1557878400000 1557878400000) tr).page)
    [.tapDay 1559347200000, .drag, .settle, .fire, .headerSettle] (by decide +kernel)
  have hagrees := (h (Zone.fixed 0) 1557878400000 tr hrun).final
  exact hapart (hagrees hrest)

end CalendarPages

end CalendarApp
