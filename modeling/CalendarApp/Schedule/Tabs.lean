/-
# `Schedule.Tabs` — the three tabs of the home page, index.dart

The home page has two page views with the same three pages: the icons in the
head, and the screens in the body.  Both can be swiped, an icon can be tapped,
and each of these calls `pageAnimateTo`, which sends both views to one page and
makes it the current one, whose icon is lit.

    tap on an icon      pageAnimateTo(icon)
    a view reaches k    onPageChanged(k), that is pageAnimateTo(k)

So the views answer each other: the animation of one is cut short by a page
that the other reports on its way, and reports pages itself.  This ends.  Each
report brings one view to the new current page and the other one not further
from it than both were from the old one (`rank_lt`), so that without another
tap or finger everything comes to rest (`Settles`).

What is at rest agrees (both views are on the current page) as long as no
finger catches a view on its way (`Uncaught`).  One that does can let it go
where it was, and no page is reported (`tabs_caught_fails`).
-/
import CalendarApp.Schedule.Header
import Mathlib.Logic.Relation

namespace CalendarApp

open Lib

/-- The two page views. -/
inductive TabView where
  | head
  | body
  deriving DecidableEq, Repr

def TabView.other : TabView → TabView
  | .head => .body
  | .body => .head

/-- A page view: the page it reported last, and how it moves. -/
structure Pager where
  page : Int
  motion : Motion
  deriving DecidableEq, Repr

/-- The children of both views. -/
def tabCount : Int := 3

/-- `_IntermidiateWidgetState`. -/
structure Tabs where
  view : TabView → Pager
  currentPage : Int

namespace Tabs

inductive Action where
  | tap (page : Int)
  /-- a finger on a view, and the view settling after it -/
  | drag (v : TabView)
  | pageChange (v : TabView) (position : Int)
  | settle (v : TabView)
  deriving DecidableEq, Repr

/-- The views go on by themselves. -/
def Action.machine : Action → Bool
  | .pageChange _ _ => true
  | .settle _ => true
  | _ => false

/-- `initState()`. -/
def start : Tabs where
  view _ := ⟨1, .idle⟩
  currentPage := 1

/-- `pageAnimateTo(page)`. -/
def pageAnimateTo (page : Int) (s : Tabs) : Tabs where
  view v := { s.view v with motion := .animate page }
  currentPage := page

/-- The view has another motion. -/
def move (s : Tabs) (v : TabView) (motion : Motion) : Tabs :=
  { s with view := Function.update s.view v { s.view v with motion := motion } }

/-- The view has another page. -/
def turn (s : Tabs) (v : TabView) (page : Int) : Tabs :=
  { s with view := Function.update s.view v { s.view v with page := page } }

/-- The view can report the page: any page under a finger, and one on the way of
an animation. -/
def CanReach (s : Tabs) (v : TabView) (k : Int) : Prop :=
  0 ≤ k ∧ k < tabCount ∧ k ≠ (s.view v).page ∧ (s.view v).motion.reaches (s.view v).page k = true

instance (s : Tabs) (v : TabView) (k : Int) : Decidable (s.CanReach v k) :=
  inferInstanceAs (Decidable (_ ∧ _ ∧ _ ∧ _))

def step (s : Tabs) : Action → Option Tabs
  | .tap page => if 0 ≤ page ∧ page < tabCount then some (s.pageAnimateTo page) else none
  | .drag v => some (s.move v .drag)
  | .pageChange v position =>
      if s.CanReach v position then some ((s.turn v position).pageAnimateTo position) else none
  | .settle v =>
      if (s.view v).motion.stops (s.view v).page then some (s.move v .idle) else none

/-- Neither view moves. -/
def AtRest (s : Tabs) : Prop := ∀ v, (s.view v).motion = .idle

/-- At rest both views are on the current page. -/
def Agrees (s : Tabs) : Prop := s.AtRest → ∀ v, (s.view v).page = s.currentPage

/-- No finger catches a view that is not on the current page. -/
def Uncaught (s : Tabs) : Action → Prop
  | .drag v => (s.view v).page = s.currentPage
  | _ => True

instance (s : Tabs) : ∀ a : Action, Decidable (s.Uncaught a)
  | .drag _ => inferInstanceAs (Decidable (_ = _))
  | .tap _ | .pageChange _ _ | .settle _ => inferInstanceAs (Decidable True)

/-- One view goes on, without a tap and without a new finger. -/
def GoesOn (s s' : Tabs) : Prop := ∃ a, a.machine = true ∧ s.step a = some s'

/-- Left to itself, everything comes to rest: there is no endless sequence of
steps, and none ends before that. -/
structure Settles (s : Tabs) : Prop where
  ends : Acc (flip GoesOn) s
  rests : ∀ s', Relation.ReflTransGen GoesOn s s' → s'.AtRest ∨ ∃ s'', GoesOn s' s''

/-! ## What a step does -/

/-- The pages are tabs, and an animation goes to the current page. -/
structure Aimed (s : Tabs) : Prop where
  pages : ∀ v, 0 ≤ (s.view v).page ∧ (s.view v).page < tabCount
  current : 0 ≤ s.currentPage ∧ s.currentPage < tabCount
  target : ∀ v t, (s.view v).motion = .animate t → t = s.currentPage

/-- A view that is not on its way is on the current page. -/
def Kept (s : Tabs) : Prop :=
  ∀ v, (∀ t, (s.view v).motion ≠ .animate t) → (s.view v).page = s.currentPage

variable {s s' : Tabs} {a : Action} {v u : TabView}

@[simp] theorem view_move_self (s : Tabs) (v : TabView) (motion : Motion) :
    (s.move v motion).view v = ⟨(s.view v).page, motion⟩ := Function.update_self ..

theorem view_move_other (s : Tabs) {v u : TabView} (h : u ≠ v) (motion : Motion) :
    (s.move v motion).view u = s.view u := Function.update_of_ne h ..

@[simp] theorem page_turn_self (s : Tabs) (v : TabView) (page : Int) :
    ((s.turn v page).view v).page = page := by
  simp only [turn, Function.update_self]

theorem view_turn_other (s : Tabs) {v u : TabView} (h : u ≠ v) (page : Int) :
    (s.turn v page).view u = s.view u := Function.update_of_ne h ..

theorem page_move (s : Tabs) (v u : TabView) (motion : Motion) :
    ((s.move v motion).view u).page = (s.view u).page := by
  by_cases h : u = v
  · subst h
    rw [view_move_self]
  · rw [view_move_other s h]

/-- What a step can do. -/
inductive Stepped (s : Tabs) : Action → Tabs → Prop
  | tap (page : Int) : 0 ≤ page → page < tabCount → Stepped s (.tap page) (s.pageAnimateTo page)
  | drag (v : TabView) : Stepped s (.drag v) (s.move v .drag)
  | pageChange (v : TabView) (k : Int) : s.CanReach v k →
      Stepped s (.pageChange v k) ((s.turn v k).pageAnimateTo k)
  | settle (v : TabView) : (s.view v).motion.stops (s.view v).page = true →
      Stepped s (.settle v) (s.move v .idle)

theorem stepped_of_step (h : s.step a = some s') : Stepped s a s' := by
  cases a with
  | tap page =>
      obtain ⟨hrange, heq⟩ := Option.ite_none_right_eq_some.mp h
      cases heq
      exact .tap page hrange.1 hrange.2
  | drag v =>
      cases h
      exact .drag v
  | pageChange v k =>
      obtain ⟨hreach, heq⟩ := Option.ite_none_right_eq_some.mp h
      cases heq
      exact .pageChange v k hreach
  | settle v =>
      obtain ⟨hstops, heq⟩ := Option.ite_none_right_eq_some.mp h
      cases heq
      exact .settle v hstops

theorem Aimed.start : Tabs.start.Aimed where
  pages _ := ⟨Int.one_nonneg, show (1 : Int) < 3 by decide⟩
  current := ⟨Int.one_nonneg, show (1 : Int) < 3 by decide⟩
  target _ _ h := nomatch h

theorem Aimed.move (hI : s.Aimed) (v : TabView) {motion : Motion}
    (h : ∀ t, motion ≠ .animate t) : (s.move v motion).Aimed where
  pages u := by
    rw [page_move]
    exact hI.pages u
  current := hI.current
  target u t ht := by
    by_cases hu : u = v
    · subst hu
      rw [view_move_self] at ht
      exact absurd ht (h t)
    · rw [view_move_other s hu] at ht
      exact hI.target u t ht

theorem Aimed.pageAnimateTo {k : Int}
    (hpages : ∀ v, 0 ≤ (s.view v).page ∧ (s.view v).page < tabCount)
    (h₀ : 0 ≤ k) (h₁ : k < tabCount) : (s.pageAnimateTo k).Aimed where
  pages := hpages
  current := ⟨h₀, h₁⟩
  target _ _ ht := (Motion.animate.inj ht).symm

theorem Aimed.step (hI : s.Aimed) (h : s.step a = some s') : s'.Aimed := by
  cases stepped_of_step h with
  | tap page h₀ h₁ => exact .pageAnimateTo hI.pages h₀ h₁
  | drag v => exact hI.move v nofun
  | pageChange v k hreach =>
      refine .pageAnimateTo (fun u => ?_) hreach.1 hreach.2.1
      by_cases hu : u = v
      · subst hu
        rw [page_turn_self]
        exact ⟨hreach.1, hreach.2.1⟩
      · rw [view_turn_other s hu]
        exact hI.pages u
  | settle v _ => exact hI.move v nofun

/-! ## Everything comes to rest -/

/-- What a view may still do: three for each page it is off the current one, and
a finger can take it anywhere. -/
def cost (currentPage : Int) (p : Pager) : Nat :=
  3 * (p.page - currentPage).natAbs +
    match p.motion with
    | .idle => 0
    | .animate _ => 1
    | .drag => 9

/-- What both views may still do. -/
def rank (s : Tabs) : Nat :=
  cost s.currentPage (s.view .head) + cost s.currentPage (s.view .body)

theorem rank_eq (s : Tabs) (v : TabView) :
    s.rank = cost s.currentPage (s.view v) + cost s.currentPage (s.view v.other) := by
  cases v with
  | head => rfl
  | body => exact Nat.add_comm _ _

theorem other_ne (v : TabView) : v.other ≠ v := by cases v <;> decide

/-- A page that an animation reports is nearer to its target. -/
theorem closer_of_reaches {page k t : Int} (h : (Motion.animate t).reaches page k = true) :
    (k - t).natAbs < (page - t).natAbs := by
  simp only [Motion.reaches, Bool.or_eq_true, Bool.and_eq_true, decide_eq_true_eq] at h
  omega

/-- The rank after a report: one view is there, and both are on their way. -/
theorem rank_pageChange (s : Tabs) (v : TabView) (k : Int) :
    ((s.turn v k).pageAnimateTo k).rank = 3 * ((s.view v.other).page - k).natAbs + 2 := by
  rw [rank_eq _ v]
  simp only [pageAnimateTo, cost, page_turn_self, view_turn_other s (other_ne v)]
  omega

/-- Every step of the views themselves lowers the rank. -/
theorem rank_lt (hI : s.Aimed) (ha : a.machine = true) (h : s.step a = some s') :
    s'.rank < s.rank := by
  cases stepped_of_step h with
  | tap page _ _ => cases ha
  | drag v => cases ha
  | pageChange v k hreach =>
      obtain ⟨h₀, h₁, -, hmotion⟩ := hreach
      obtain ⟨hp₀, hp₁⟩ := hI.pages v.other
      rw [rank_pageChange, rank_eq s v, cost, cost]
      cases hm : (s.view v).motion with
      | idle =>
          rw [hm] at hmotion
          cases hmotion
      | drag =>
          simp only [tabCount] at h₁ hp₁
          simp only
          omega
      | animate t =>
          obtain rfl := hI.target v t hm
          rw [hm] at hmotion
          have hcloser := closer_of_reaches hmotion
          simp only
          omega
  | settle v hstops =>
      have hother : (s.move v .idle).view v.other = s.view v.other :=
        view_move_other s (other_ne v) .idle
      rw [rank_eq _ v, rank_eq s v, view_move_self, hother]
      refine Nat.add_lt_add_right ?_ _
      show cost s.currentPage _ < _
      rw [cost, cost]
      cases hm : (s.view v).motion with
      | idle =>
          rw [hm] at hstops
          cases hstops
      | drag =>
          simp only
          omega
      | animate t =>
          simp only
          omega

theorem goesOn_of_moving (hI : s.Aimed) {v : TabView} (h : (s.view v).motion ≠ .idle) :
    ∃ s', GoesOn s s' := by
  cases hm : (s.view v).motion with
  | idle => exact absurd hm h
  | drag => exact ⟨s.move v .idle, .settle v, rfl, if_pos (by rw [hm]; rfl)⟩
  | animate t =>
      by_cases hpage : (s.view v).page = t
      · refine ⟨s.move v .idle, .settle v, rfl, if_pos ?_⟩
        rw [hm]
        exact decide_eq_true hpage
      · refine ⟨(s.turn v t).pageAnimateTo t, .pageChange v t, rfl, if_pos ?_⟩
        obtain rfl := hI.target v t hm
        refine ⟨hI.current.1, hI.current.2, Ne.symm hpage, ?_⟩
        rw [hm, Motion.reaches]
        simp only [Bool.or_eq_true, Bool.and_eq_true, decide_eq_true_eq]
        omega

theorem Aimed.goesOn (hI : s.Aimed) (h : GoesOn s s') : s'.Aimed := by
  obtain ⟨a, -, ha⟩ := h
  exact hI.step ha

theorem Aimed.to_settles (hI : s.Aimed) : s.Settles where
  ends := by
    -- by the rank, which is a measure on the states that keep the invariant
    induction hn : s.rank using Nat.strongRecOn generalizing s with
    | ind n ih =>
        refine Acc.intro s fun s' hgo => ?_
        obtain ⟨a, ha, h⟩ := hgo
        exact ih s'.rank (hn ▸ rank_lt hI ha h) (hI.step h) rfl
  rests s' hgo := by
    have hI' : s'.Aimed := by
      induction hgo with
      | refl => exact hI
      | tail _ hlast ih => exact ih.goesOn hlast
    by_cases hrest : s'.AtRest
    · exact Or.inl hrest
    · obtain ⟨v, hv⟩ := not_forall.mp hrest
      exact Or.inr (goesOn_of_moving hI' hv)

/-! ## What is at rest agrees -/

theorem Kept.start : Tabs.start.Kept := fun _ _ => rfl

theorem Kept.move (hK : s.Kept) {v : TabView} {motion : Motion}
    (h : (s.view v).page = s.currentPage) : (s.move v motion).Kept := by
  intro u hu
  rw [page_move]
  by_cases huv : u = v
  · subst huv
    exact h
  · rw [view_move_other s huv] at hu
    exact hK u hu

/-- Where no finger catches a view on its way, every view is on the current page
or goes there. -/
theorem Kept.step (hI : s.Aimed) (hK : s.Kept) (h : s.step a = some s') (hC : s.Uncaught a) :
    s'.Kept := by
  cases stepped_of_step h with
  | tap page _ _ => exact fun u hu => absurd rfl (hu page)
  | drag v => exact hK.move hC
  | pageChange v k _ => exact fun u hu => absurd rfl (hu k)
  | settle v hstops =>
      refine hK.move ?_
      cases hm : (s.view v).motion with
      | idle =>
          rw [hm] at hstops
          cases hstops
      | drag => exact hK v fun t ht => nomatch hm.symm.trans ht
      | animate t =>
          rw [hm] at hstops
          exact (of_decide_eq_true hstops).trans (hI.target v t hm)

theorem Kept.agrees (hK : s.Kept) : s.Agrees := by
  intro hrest v
  refine hK v fun t ht => ?_
  rw [hrest v] at ht
  cases ht

/-- However the user taps and swipes: in every state the views come to rest when
they are left to themselves; and as long as no finger catches a view on its
way, both are on the current page whenever they are at rest. -/
theorem tabs_settle {tr : List (Action × Tabs)} (hrun : Run (StepOf step) start tr) :
    Always Settles start tr ∧ (Guarded Uncaught start tr → Always Agrees start tr) := by
  constructor
  · exact ⟨Aimed.start.to_settles, Along.of_run
      (fun _ _ _ hI h => ⟨(hI.step h).to_settles, hI.step h⟩) Aimed.start hrun⟩
  · intro hgd
    have hall : Always (fun s => s.Aimed ∧ s.Kept) start tr := Always.of_guarded
      (fun _ _ _ hI h hC => ⟨hI.1.step h, hI.2.step hI.1 h hC⟩) ⟨Aimed.start, Kept.start⟩ hrun hgd
    exact ⟨Kept.start.agrees, Along.imp (fun _ _ _ hI => hI.2.agrees) hall.2⟩

/-- The first icon is tapped, and then the last one, when the body has reached the
first page and the head has not: the body reports the page between them, and
both views end there. -/
theorem tabs_settle_between : ∃ tr : List (Action × Tabs),
    (final start tr).currentPage = 1 ∧ ((final start tr).view .body).page = 1 ∧
      (final start tr).AtRest ∧ Always Settles start tr ∧ Always Agrees start tr := by
  obtain ⟨tr, -, hrun, hpage, hbody, hhead, hidle, hgd⟩ := exists_run
    (f := step) (s := start)
    (P := fun tr => (final start tr).currentPage = 1 ∧ ((final start tr).view .body).page = 1 ∧
      ((final start tr).view .head).motion = .idle ∧
      ((final start tr).view .body).motion = .idle ∧ Guarded Uncaught start tr)
    [.tap 0, .pageChange .body 0, .tap 2, .pageChange .body 1, .settle .head, .settle .body]
    (by decide)
  obtain ⟨hsettles, hagrees⟩ := tabs_settle hrun
  refine ⟨tr, hpage, hbody, ?_, hsettles, hagrees hgd⟩
  rintro (_ | _)
  · exact hhead
  · exact hidle

/-- The icons are swiped to the last tab, and a finger holds the screen before it
has come half into view: the head stays on the last tab, the body goes back. -/
theorem tabs_caught_fails : ¬ ∀ tr : List (Action × Tabs),
    Run (StepOf step) start tr → Always Agrees start tr := by
  intro h
  obtain ⟨tr, -, hrun, hhead, hidle, hapart⟩ := exists_run
    (f := step) (s := start)
    (P := fun tr => ((final start tr).view .head).motion = .idle ∧
      ((final start tr).view .body).motion = .idle ∧
      ((final start tr).view .body).page ≠ (final start tr).currentPage)
    [.drag .head, .pageChange .head 2, .settle .head, .drag .body, .settle .body] (by decide)
  refine hapart ((h tr hrun).final ?_ .body)
  rintro (_ | _)
  · exact hhead
  · exact hidle

end Tabs

end CalendarApp
