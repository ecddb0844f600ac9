/-
# `Event.Picker` — what the wheels show when the picker opens

The picker decodes to a date and a time: a wheel shows the child its position
stands for, a looping wheel modulo its length, and a position outside a wheel
that does not loop shows nothing.  A tap on a side corrects the side when the
start is not before the end (`checkBefore`), and the wheels then stand

    open picker      on the items of the corrected instant
    closed picker    on the items of the instant before the correction

while the day wheel has the length it got when the screen was first built.
So what is shown is the instant of the side exactly when

    no correction    its year is in `yearlist` and its day on the day wheel
    open picker      the same of the corrected instant
    closed picker    the year before the correction is in `yearlist`, and the
                     correction changes nothing the wheels show (where the
                     day wheel may have wrapped)

(`showsActive_iff`).
-/
import CalendarApp.Event.NewEvent

namespace CalendarApp

open Lib

namespace NewEventState

variable (z : Zone)

/-- The date on the date wheels. -/
def shownDate (s : NewEventState) : Option Date :=
  (if 0 ≤ s.controller.item .year then yearlist[s.childIndex .year (s.controller.item .year)]?
    else none).map fun y =>
      ⟨y, s.childIndex .month (s.controller.item .month) + 1,
        s.childIndex .day (s.controller.item .day) + 1⟩

/-- The time on the time wheels; the 12 of the hour wheel is its child 0. -/
def shownTime (s : NewEventState) : TimeOfDay :=
  ⟨s.childIndex .hour (s.controller.item .hour)
      + 12 * s.childIndex .apm (s.controller.item .apm),
    s.childIndex .minute (s.controller.item .minute)⟩

/-- The wheels that are built show the instant of the active side. -/
def ShowsActive (s : NewEventState) : Prop :=
  s.shownDate = some (z.date s.activeDate) ∧
    (s.event.allday = false → s.shownTime = TimeOfDay.fromDateTime z s.activeDate)

/-- The day wheel at the item of day `d`. -/
def wrappedDay (s : NewEventState) (d : Int) : Int := (d - 1) % s.dayCount + 1

/-- The date of `t` is on the wheels. -/
def OnWheels (s : NewEventState) (t : Int) : Prop :=
  (z.date t).year ∈ yearlist ∧ (z.date t).day ≤ s.dayCount

/-- Wheels set to the items of `old` show `new`. -/
def SameItems (s : NewEventState) (old new : Int) : Prop :=
  (z.date old).year ∈ yearlist ∧
    (z.date new).year = (z.date old).year ∧ (z.date new).month = (z.date old).month ∧
    (z.date new).day = s.wrappedDay (z.date old).day ∧
    (s.event.allday = false →
      TimeOfDay.fromDateTime z new = TimeOfDay.fromDateTime z old)

/-- The condition under which a tap on a side shows the instant of the side. -/
def OpensTrue (side : Side) (s : NewEventState) : Prop :=
  if s.event.checkBefore then OnWheels z s (s.event.instant side)
  else if s.visible then OnWheels z s (EventModal.ofFields z (s.event.corrected side))
  else SameItems z s (s.event.instant side) (EventModal.ofFields z (s.event.corrected side))

instance (s : NewEventState) (t : Int) : Decidable (OnWheels z s t) :=
  inferInstanceAs (Decidable (_ ∧ _))

instance (s : NewEventState) (old new : Int) : Decidable (SameItems z s old new) :=
  inferInstanceAs (Decidable (_ ∧ _ ∧ _ ∧ _ ∧ (_ → _)))

instance (side : Side) (s : NewEventState) : Decidable (OpensTrue z side s) :=
  inferInstanceAs (Decidable (if s.event.checkBefore = true then _ else
    if s.visible = true then _ else _))

/-! ## Items and what they show -/

variable {z} {s s' : NewEventState}

theorem shownDate_of_items {t : Int} {d : Date}
    (hy : s.controller.item .year = initItem z t .year)
    (hm : s.controller.item .month = initItem z t .month)
    (hd : s.controller.item .day = initItem z t .day) (hpos : 0 < s.dayCount) :
    s.shownDate = some d ↔ (z.date t).year ∈ yearlist ∧
      d.year = (z.date t).year ∧ d.month = (z.date t).month ∧
      d.day = s.wrappedDay (z.date t).day := by
  obtain ⟨hm₁, hm₂, hd₁, -⟩ := dateOf_valid (z.day t)
  change 1 ≤ (z.date t).month at hm₁
  change (z.date t).month ≤ 12 at hm₂
  have hmonth : (s.childIndex .month (s.controller.item .month) : Int) + 1
      = (z.date t).month := by
    rw [hm]
    simp only [childIndex, Wheel.looping, children, initItem, if_true]
    omega
  have hday : (s.childIndex .day (s.controller.item .day) : Int) + 1
      = s.wrappedDay (z.date t).day := by
    rw [hd]
    simp only [childIndex, Wheel.looping, children, initItem, if_true, wrappedDay]
    have hmod := Int.emod_nonneg ((z.date t).day - 1) (b := (s.dayCount : Int)) (by omega)
    omega
  rw [shownDate, hmonth, hday, hy]
  simp only [initItem, childIndex, Wheel.looping, Bool.false_eq_true, if_false]
  by_cases hyear : (z.date t).year ∈ yearlist
  · obtain ⟨i, hi, hget⟩ := indexOf_of_mem hyear
    have hnat : 0 ≤ (i : Int) := Int.natCast_nonneg i
    rw [hi, if_pos hnat, Int.toNat_natCast, hget]
    cases d with
    | mk dy dm dd =>
        simp only [Option.map_some, Option.some.injEq, Date.mk.injEq, hyear, true_and,
          eq_comm]
  · rw [indexOf_of_not_mem hyear, if_neg (by decide)]
    exact iff_of_false (Option.some_ne_none d).symm fun h => hyear h.1

theorem shownTime_of_items {t : Int}
    (hh : s.controller.item .hour = initItem z t .hour)
    (hm : s.controller.item .minute = initItem z t .minute)
    (ha : s.controller.item .apm = initItem z t .apm) :
    s.shownTime = TimeOfDay.fromDateTime z t := by
  obtain ⟨hh₀, hh₁⟩ := z.hour_range t
  obtain ⟨hm₀, hm₁⟩ := z.minute_range t
  rw [shownTime, hh, hm, ha, TimeOfDay.fromDateTime, TimeOfDay.mk.injEq]
  simp only [childIndex, Wheel.looping, children, initItem, if_true, Bool.false_eq_true, if_false]
  refine ⟨?_, by omega⟩
  split <;> split <;> omega

theorem wrappedDay_eq_iff (hpos : 0 < s.dayCount) {d : Int} (hd : 1 ≤ d) :
    d = s.wrappedDay d ↔ d ≤ s.dayCount := by
  have hn : (0 : Int) < s.dayCount := Int.natCast_pos.mpr hpos
  constructor
  · intro h
    have hlt := Int.emod_lt_of_pos (d - 1) hn
    simp only [wrappedDay] at h
    omega
  · intro h
    have hmod := Int.emod_eq_of_lt (a := d - 1) (b := s.dayCount) (by omega) (by omega)
    simp only [wrappedDay, hmod]
    omega

/-! ## The day wheel -/

theorem dayCount_opened (day now : Int) : 0 < (opened z day now).dayCount := by
  obtain ⟨-, -, hd, -⟩ := dateOf_valid (z.day (z.dateTime
    (z.date (EventModal.ofDay z day now).startDate).year
    ((z.date (EventModal.ofDay z day now).startDate).month + 1) 0))
  exact Int.pos_iff_toNat_pos.mp (Int.lt_of_lt_of_le (by decide) hd)

theorem dayCount_step {a : Action} (hs : s.Settled) (h : step z s a = some s') :
    s'.dayCount = s.dayCount := by
  cases step_cases hs h with
  | _ => rfl

theorem dayCount_reachable {day now : Int}
    (h : Reachable (StepOf (step z)) (opened z day now) s) : 0 < s.dayCount := by
  have hboth : s.Settled ∧ 0 < s.dayCount := by
    refine h.invariant (I := fun s => s.Settled ∧ 0 < s.dayCount)
      ⟨Settled.opened day now, dayCount_opened day now⟩ ?_
    rintro s a s' ⟨hs, hpos⟩ hstep
    refine ⟨hs.step hstep, ?_⟩
    rw [dayCount_step hs hstep]
    exact hpos
  exact hboth.2

/-! ## The picker opens on the truth -/

theorem activeDate_triggered (side : Side) :
    (triggered z side s).activeDate = (s.event.update z side).instant side := by
  rw [activeDate_eq]
  cases side <;> rfl

/-- The items after a tap, of the wheels that are built.  A wheel that is built
after the tap was built before it, if the picker was open. -/
theorem item_triggered (side : Side) {w : Wheel} (hs : s.Settled)
    (hw : (w.ofDate || !s.event.allday) = true) :
    (triggered z side s).controller.item w = initItem z
      (if s.visible then (s.event.update z side).instant side else s.event.instant side) w := by
  simp only [triggered]
  cases hv : s.visible with
  | false => rfl
  | true =>
      have hmounted : s.mounted w = true := by
        rw [mounted, hs.attached, hv, Bool.true_and]
        exact hw
      simp only [if_true]
      rw [if_pos hmounted]

/-- What is shown after a tap, in terms of the instant the wheels were set to. -/
theorem showsActive_triggered {side : Side} (hs : s.Settled) (hpos : 0 < s.dayCount) :
    (triggered z side s).ShowsActive z ↔
      SameItems z s (if s.visible then (s.event.update z side).instant side
        else s.event.instant side) ((s.event.update z side).instant side) := by
  have hdate := shownDate_of_items (z := z)
    (d := z.date ((s.event.update z side).instant side)) (item_triggered side hs rfl)
    (item_triggered side hs rfl) (item_triggered side hs rfl) hpos
  rw [ShowsActive, activeDate_triggered, hdate, SameItems]
  simp only [and_assoc]
  refine and_congr_right fun _ => and_congr_right fun _ => and_congr_right fun _ =>
    and_congr_right fun _ => ?_
  have hallday : (triggered z side s).event.allday = s.event.allday :=
    EventModal.allday_update z side s.event
  rw [hallday]
  refine forall_congr' fun hoff => ?_
  have htime : ∀ w : Wheel, (w.ofDate || !s.event.allday) = true := fun w => by
    rw [hoff]; exact Bool.or_true _
  rw [shownTime_of_items (item_triggered side hs (htime _))
    (item_triggered side hs (htime _)) (item_triggered side hs (htime _))]
  exact eq_comm

theorem sameItems_self (hpos : 0 < s.dayCount) (t : Int) :
    SameItems z s t t ↔ OnWheels z s t := by
  obtain ⟨-, -, hd, -⟩ := dateOf_valid (z.day t)
  simp only [SameItems, OnWheels, true_and, implies_true, and_true]
  exact and_congr_right fun _ => wrappedDay_eq_iff hpos hd

/-- A tap on a side shows the side's instant exactly when `OpensTrue`. -/
theorem showsActive_iff {day now : Int}
    (hs : Reachable (StepOf (step z)) (opened z day now) s) (side : Side)
    (h : step z s (.tap side) = some s') : s'.ShowsActive z ↔ OpensTrue z side s := by
  have hset := Settled.reachable hs
  have hpos := dayCount_reachable hs
  rw [step_tap] at h
  split at h
  · cases h
  cases h
  rw [showsActive_triggered hset hpos, EventModal.instant_update, OpensTrue]
  by_cases hbefore : s.event.checkBefore = true
  · rw [if_pos hbefore, if_pos hbefore, ite_self, sameItems_self hpos]
  · rw [if_neg hbefore, if_neg hbefore]
    by_cases hv : s.visible = true
    · rw [if_pos hv, if_pos hv, sameItems_self hpos]
    · rw [if_neg hv, if_neg hv]

/-- The first tap on the start, on the screen opened for 1 May 2019 at 12:30. -/
theorem showsActive_mayDay : ∃ s',
    step (Zone.fixed 0) (opened (Zone.fixed 0) 1556668800000 45000000) .startTap = some s' ∧
      s'.ShowsActive (Zone.fixed 0) := by
  have hopened : Reachable (StepOf (step (Zone.fixed 0)))
      (opened (Zone.fixed 0) 1556668800000 45000000)
      (opened (Zone.fixed 0) 1556668800000 45000000) := ⟨[], trivial, rfl⟩
  exact ⟨_, rfl, (showsActive_iff hopened .start rfl).mpr (by decide)⟩

/-- The same screen after the end was set to 1:30 AM: a tap on the start moves
it to 0:30, and the wheels show 12:30. -/
theorem showsActive_correction_fails : ¬ ∀ (z : Zone) (day now : Int) (s s') (side : Side),
    Reachable (StepOf (step z)) (opened z day now) s → step z s (.tap side) = some s' →
      s'.ShowsActive z := by
  intro h
  obtain ⟨tr, -, hrun, hshown⟩ := exists_run
    (f := step (Zone.fixed 0)) (s := opened (Zone.fixed 0) 1556668800000 45000000)
    (P := fun tr => (step (Zone.fixed 0)
        (final (opened (Zone.fixed 0) 1556668800000 45000000) tr) .startTap).any
      (fun s' => s'.event.allday = false ∧ s'.shownTime = ⟨12, 30⟩ ∧
        TimeOfDay.fromDateTime (Zone.fixed 0) s'.activeDate = ⟨0, 30⟩) = true)
    [.endTap, .turn .apm 0, .confirm] (by decide)
  obtain ⟨s', hstep, hs'⟩ := (Option.any_eq_true _ _).mp hshown
  obtain ⟨hoff, hshown, htrue⟩ := of_decide_eq_true hs'
  have hclaim := (h _ _ _ _ _ .start ⟨tr, hrun, rfl⟩ hstep).2 hoff
  rw [hshown, htrue] at hclaim
  exact absurd hclaim (by decide)

end NewEventState

end CalendarApp
