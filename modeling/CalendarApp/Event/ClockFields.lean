/-
# `Event.ClockFields` — hours, minutes and AM/PM flags stay in step

The hour setters trust the AM/PM flag, the AM/PM setters add or take twelve
from whatever the hour is, so the clock fields are right only as long as

    hour in 0..23,   minute in 0..59,   flag = AM  iff  hour < 12

on both sides (`ClockFields`).  Every edit of the screen keeps this except
two.  The constructor sets the end to `now.hour + 1`, which is 24 in the last
hour of the day; and an AM/PM wheel that does not stand on the event's flag
reports, when it is turned, the flag the event already has, and the hour
leaves its range by twelve (`halfDay_clockFields`).  So

    the clock fields are right in every state of a run
      iff  the screen was not opened between 23:00 and 24:00
           and an AM/PM wheel is turned only where it shows the flag

(`clockFields_iff`).  A wheel stops showing the flag when a closed picker is
opened on a side that the correction then moves (`trigger_eq`).
-/
import CalendarApp.Event.NewEvent

namespace CalendarApp

open Lib

/-- A time of day, with the flag of its half. -/
def SideOk (t : TimeOfDay) (a : APM) : Prop :=
  t.Valid ∧ (a = .AM ↔ t.hour < 12)

theorem sideOk_ofHour {t : TimeOfDay} (h : t.Valid) : SideOk t (APM.ofHour t.hour) := by
  refine ⟨h, ?_⟩
  simp only [APM.ofHour]
  by_cases hh : t.hour < 12
  · rw [if_pos hh]
    exact iff_of_true rfl hh
  · rw [if_neg hh]
    exact iff_of_false nofun hh

theorem sideOk_toAM {t : TimeOfDay} {a : APM} (h : SideOk t a) :
    SideOk ⟨t.hour - 12, t.minute⟩ .AM ↔ a = .PM := by
  obtain ⟨⟨hh₀, hh₁, hm⟩, hflag⟩ := h
  cases a with
  | AM =>
      have hlt : t.hour < 12 := hflag.mp rfl
      refine iff_of_false (fun hc => ?_) nofun
      have h₀ : 0 ≤ t.hour - 12 := hc.1.1
      omega
  | PM =>
      have hge : ¬ t.hour < 12 := fun hc => nomatch hflag.mpr hc
      have h₀ : 0 ≤ t.hour - 12 := by omega
      have h₁ : t.hour - 12 < 12 := by omega
      exact iff_of_true ⟨⟨h₀, h₁.trans (by decide), hm⟩, iff_of_true rfl h₁⟩ rfl

theorem sideOk_toPM {t : TimeOfDay} {a : APM} (h : SideOk t a) :
    SideOk ⟨t.hour + 12, t.minute⟩ .PM ↔ a = .AM := by
  obtain ⟨⟨hh₀, hh₁, hm⟩, hflag⟩ := h
  cases a with
  | AM =>
      have hlt : t.hour < 12 := hflag.mp rfl
      have h₀ : 12 ≤ t.hour + 12 := by omega
      have h₁ : t.hour + 12 < 24 := by omega
      exact iff_of_true ⟨⟨Int.le_trans (by decide) h₀, h₁, hm⟩,
        iff_of_false nofun (Int.not_lt.mpr h₀)⟩ rfl
  | PM =>
      have hge : ¬ t.hour < 12 := fun hc => nomatch hflag.mpr hc
      refine iff_of_false (fun hc => ?_) nofun
      have h₁ : t.hour + 12 < 24 := hc.1.2.1
      omega

namespace EventModal

/-- Both sides are as a clock has them. -/
def ClockFields (e : EventModal) : Prop := ∀ s, SideOk (e.time s) (e.apm s)

instance (t : TimeOfDay) (a : APM) : Decidable (SideOk t a) :=
  inferInstanceAs (Decidable (_ ∧ _))

theorem clockFields_iff_sides (e : EventModal) :
    e.ClockFields ↔ SideOk e.startTime e.startapm ∧ SideOk e.endTime e.endapm :=
  ⟨fun h => ⟨h .start, h .finish⟩, fun h s => by cases s; exacts [h.1, h.2]⟩

instance (e : EventModal) : Decidable e.ClockFields :=
  decidable_of_iff _ e.clockFields_iff_sides.symm

/-- The edits of the screen other than turning an AM/PM wheel. -/
inductive Edit (z : Zone) (e : EventModal) : EventModal → Prop
  | text {e' : EventModal} : e'.date = e.date → e'.time = e.time → e'.apm = e.apm →
      Edit z e e'
  | date (s : Side) (n : Int) : Edit z e (e.setDate s (z.midnight n))
  | hour (s : Side) {t : Nat} : t < 12 → Edit z e (e.hour s t)
  | minute (s : Side) {t : Nat} : t < 60 → Edit z e (e.minute s t)
  | update (s : Side) : Edit z e (e.update z s)

/-! ## What each edit does to a side -/

variable {z : Zone} {e e' : EventModal}

theorem ClockFields.edit_iff {s : Side} (h : e.ClockFields)
    (hother : ∀ s', s' ≠ s → e'.time s' = e.time s' ∧ e'.apm s' = e.apm s') :
    e'.ClockFields ↔ SideOk (e'.time s) (e'.apm s) := by
  constructor
  · intro h'
    exact h' s
  · intro hself s'
    by_cases hs : s' = s
    · subst hs; exact hself
    · rw [(hother s' hs).1, (hother s' hs).2]
      exact h s'

theorem ClockFields.hour {t : Nat} (ht : t < 12) (h : e.ClockFields) (s : Side) :
    (e.hour s t).ClockFields := by
  obtain ⟨⟨-, -, hm₀, hm₁⟩, -⟩ := h s
  simp only [EventModal.hour]
  cases ha : e.apm s with
  | AM =>
      refine (h.edit_iff fun s' hs => ⟨time_setTime_other _ _ hs, apm_setTime ..⟩).mpr ?_
      rw [time_setTime_self, apm_setTime, ha]
      have h₁ : (t : Int) < 12 := Int.ofNat_lt.mpr ht
      exact ⟨⟨Int.natCast_nonneg t, h₁.trans (by decide), hm₀, hm₁⟩, iff_of_true rfl h₁⟩
  | PM =>
      refine (h.edit_iff fun s' hs => ⟨time_setTime_other _ _ hs, apm_setTime ..⟩).mpr ?_
      rw [time_setTime_self, apm_setTime, ha]
      have h₀ : (12 : Int) ≤ t + 12 := by omega
      have h₁ : (t : Int) + 12 < 24 := by omega
      exact ⟨⟨Int.le_trans (by decide) h₀, h₁, hm₀, hm₁⟩,
        iff_of_false nofun (Int.not_lt.mpr h₀)⟩

theorem ClockFields.minute {t : Nat} (ht : t < 60) (h : e.ClockFields) (s : Side) :
    (e.minute s t).ClockFields := by
  obtain ⟨⟨hh₀, hh₁, -, -⟩, hapm⟩ := h s
  simp only [EventModal.minute]
  refine (h.edit_iff fun s' hs => ⟨time_setTime_other _ _ hs, apm_setTime ..⟩).mpr ?_
  rw [time_setTime_self, apm_setTime]
  exact ⟨⟨hh₀, hh₁, Int.natCast_nonneg t, Int.ofNat_lt.mpr ht⟩, hapm⟩

theorem ClockFields.update (h : e.ClockFields) (s : Side) : (e.update z s).ClockFields := by
  rw [update_eq]
  split
  · exact h
  · refine (h.edit_iff (s := s) fun s' hs => ?_).mpr ?_
    · simp only [correct, time_setApm, apm_setApm_other _ _ hs, apm_setTime, apm_setDate,
        time_setTime_other _ _ hs, time_setDate, and_self]
    · simp only [correct, time_setApm, time_setTime_self, apm_setApm_self]
      exact sideOk_ofHour (TimeOfDay.fromDateTime_valid z _)

theorem Edit.clockFields (hedit : Edit z e e') (h : e.ClockFields) : e'.ClockFields := by
  cases hedit with
  | text hd ht ha => intro s; rw [ht, ha]; exact h s
  | date s n => intro s'; rw [time_setDate, apm_setDate]; exact h s'
  | hour s ht => exact h.hour ht s
  | minute s ht => exact h.minute ht s
  | update s => exact h.update s

/-- Turning an AM/PM wheel keeps the clock fields right exactly when it picks
the other flag. -/
theorem halfDay_clockFields {s : Side} {a : Nat} (h : e.ClockFields)
    (ha : e.halfDay s a = some e') : e'.ClockFields ↔ a ≠ (e.apm s).index := by
  obtain ⟨f, hf, rfl⟩ := Option.map_eq_some_iff.mp ha
  have hother : ∀ (f : APM) (t : TimeOfDay) (s' : Side), s' ≠ s →
      ((e.setApm s f).setTime s t).time s' = e.time s' ∧
        ((e.setApm s f).setTime s t).apm s' = e.apm s' := by
    intro f t s' hs
    simp only [time_setTime_other _ _ hs, time_setApm, apm_setTime,
      apm_setApm_other _ _ hs, and_self]
  have hside := h s
  match a, hf with
  | 0, hf =>
      cases hf
      refine (h.edit_iff (hother _ _)).trans ?_
      rw [time_setTime_self, apm_setTime, apm_setApm_self, sideOk_toAM hside]
      cases e.apm s <;> decide
  | 1, hf =>
      cases hf
      refine (h.edit_iff (hother _ _)).trans ?_
      rw [time_setTime_self, apm_setTime, apm_setApm_self, sideOk_toPM hside]
      cases e.apm s <;> decide

/-- The constructor sets right clock fields except in the last hour of the
day. -/
theorem ofDay_clockFields (day now : Int) :
    (ofDay z day now).ClockFields ↔ z.hour now ≠ 23 := by
  obtain ⟨hh₀, hh₁⟩ := z.hour_range now
  obtain ⟨hm₀, hm₁⟩ := z.minute_range now
  constructor
  · intro h hc
    have hend : z.hour now + 1 < 24 := (h .finish).1.2.1
    omega
  · intro hne s
    cases s with
    | start => exact sideOk_ofHour (t := ⟨z.hour now, z.minute now⟩) ⟨hh₀, hh₁, hm₀, hm₁⟩
    | finish =>
        have h₀ : 0 ≤ z.hour now + 1 := by omega
        have h₁ : z.hour now + 1 < 24 := by omega
        exact sideOk_ofHour (t := ⟨z.hour now + 1, z.minute now⟩) ⟨h₀, h₁, hm₀, hm₁⟩

end EventModal

namespace NewEventState

open EventModal

variable {z : Zone} {s s' : NewEventState}

/-- An AM/PM wheel is turned only where it shows the flag of its side. -/
def HalfDayInStep (s : NewEventState) : Action → Prop
  | .turn .apm _ => s.controller.item .apm = (s.event.apm s.side).index
  | _ => True

instance (s : NewEventState) : ∀ a, Decidable (HalfDayInStep s a)
  | .turn .apm _ => inferInstanceAs (Decidable (_ = _))
  | .turn .year _ | .turn .month _ | .turn .day _ | .turn .hour _ | .turn .minute _
  | .startTap | .endTap | .confirm | .allday _ | .title _ | .location _ | .note _
  | .type _ | .add | .write _ => inferInstanceAs (Decidable True)

theorem halfDayInStep_of_ne {a : Action} (h : ∀ w p, a ≠ .turn w p) : HalfDayInStep s a := by
  cases a with
  | turn w p => exact absurd rfl (h w p)
  | _ => exact trivial

theorem pick_side (w : Wheel) (i : Nat) : s.pick z w i = match w with
    | .year => s.event.year z s.side i
    | .month => some (s.event.month z s.side i)
    | .day => some (s.event.day z s.side i)
    | .hour => some (s.event.hour s.side i)
    | .minute => some (s.event.minute s.side i)
    | .apm => s.event.halfDay s.side i := by
  simp only [pick, side]
  cases w <;> cases s.startFlag <;> rfl

theorem pick_edit {w : Wheel} (hw : w ≠ .apm) {p : Int} {e : EventModal}
    (h : s.pick z w (s.childIndex w p) = some e) : Edit z s.event e := by
  rw [pick_side] at h
  cases w with
  | year =>
      obtain ⟨y, -, rfl⟩ := Option.map_eq_some_iff.mp h
      exact .date _ _
  | month => cases h; exact .date _ _
  | day => cases h; exact .date _ _
  | hour =>
      cases h
      have hlt : (p % 12).toNat < 12 := by omega
      exact .hour _ hlt
  | minute =>
      cases h
      have hlt : (p % 60).toNat < 60 := by omega
      exact .minute _ hlt
  | apm => exact absurd rfl hw

/-- One step keeps the clock fields right exactly when it is in step. -/
theorem step_clockFields {a : Action} (hs : s.Settled) (hc : s.event.ClockFields)
    (h : step z s a = some s') : s'.event.ClockFields ↔ HalfDayInStep s a := by
  cases step_cases hs h with
  | tap side _ =>
      exact iff_of_true (hc.update side) (halfDayInStep_of_ne fun _ _ => by
        cases side <;> exact nofun)
  | confirm _ _ => exact iff_of_true hc trivial
  | turn w p e hturn hpick =>
      by_cases hw : w = .apm
      · subst hw
        obtain ⟨hne, hp⟩ := canTurn_apm hturn
        have hitem := hs.apmItem
        rw [pick_side] at hpick
        -- the wheel has two items, so it shows the flag iff it reports the other one
        refine (halfDay_clockFields hc hpick).trans ?_
        simp only [HalfDayInStep, childIndex, Wheel.looping, Bool.false_eq_true, if_false]
        cases s.event.apm s.side <;> simp only [APM.index] <;> omega
      · refine iff_of_true ((pick_edit hw hpick).clockFields hc) ?_
        cases w with
        | apm => exact absurd rfl hw
        | _ => exact trivial
  | edit hturn _ _ hd ht ha =>
      exact iff_of_true ((Edit.text (z := z) hd ht ha).clockFields hc) (halfDayInStep_of_ne hturn)
  | refused _ _ _ | accepted _ _ | write _ _ _ _ => exact iff_of_true hc trivial

/-- The clock fields are right in every state of a run exactly when the
screen was not opened in the last hour of a day and AM/PM wheels are turned
only in step with the flag. -/
theorem clockFields_iff (z : Zone) (day now : Int) {tr : List (Action × NewEventState)}
    (hrun : Run (StepOf (step z)) (opened z day now) tr) :
    Always (fun s => s.event.ClockFields) (opened z day now) tr ↔
      z.hour now ≠ 23 ∧ Guarded HalfDayInStep (opened z day now) tr := by
  have hopened : (opened z day now).event.ClockFields ↔ z.hour now ≠ 23 :=
    ofDay_clockFields day now
  have hrule : z.hour now ≠ 23 →
      (Always (fun s => s.event.ClockFields) (opened z day now) tr ↔
        Guarded HalfDayInStep (opened z day now) tr) := by
    intro hnow
    exact always_iff_guarded (I := Settled) (P := fun s => s.event.ClockFields)
      (fun s a s' hs hc h => step_clockFields hs hc h) (fun s a s' hs h => hs.step h)
      (Settled.opened day now) (hopened.mpr hnow) hrun
  constructor
  · intro h
    have hnow := hopened.mp h.1
    exact ⟨hnow, (hrule hnow).mp h⟩
  · rintro ⟨hnow, hguard⟩
    exact (hrule hnow).mpr hguard

/-- Opened at 12:30, the end is set to 2:30 AM, then PM again. -/
theorem clockFields_inStep : ∃ tr : List (Action × NewEventState),
    tr.map Prod.fst = [.endTap, .turn .hour 2, .turn .apm 0, .turn .apm 1, .confirm] ∧
      Always (fun s => s.event.ClockFields) (opened (Zone.fixed 0) 0 45000000) tr := by
  obtain ⟨tr, hacts, hrun, hguard⟩ := exists_run
    (f := step (Zone.fixed 0)) (s := opened (Zone.fixed 0) 0 45000000)
    (P := fun tr => Guarded HalfDayInStep (opened (Zone.fixed 0) 0 45000000) tr)
    [.endTap, .turn .hour 2, .turn .apm 0, .turn .apm 1, .confirm] (by decide)
  exact ⟨tr, hacts, (clockFields_iff (Zone.fixed 0) 0 45000000 hrun).mpr ⟨by decide, hguard⟩⟩

/-- Opened at 12:30: the end is turned to AM, so that opening the start moves
it to 0:30 while its wheel stands on PM.  Turning the wheel to AM takes
twelve hours from 0:30. -/
theorem clockFields_halfDay_fails : ¬ ∀ (z : Zone) (day now : Int) (tr),
    Run (StepOf (step z)) (opened z day now) tr →
      Always (fun s => s.event.ClockFields) (opened z day now) tr := by
  intro h
  obtain ⟨tr, -, hrun, hbad⟩ := exists_run
    (f := step (Zone.fixed 0)) (s := opened (Zone.fixed 0) 0 45000000)
    (P := fun tr => (final (opened (Zone.fixed 0) 0 45000000) tr).event.startTime.hour = -12)
    [.endTap, .turn .apm 0, .confirm, .startTap, .turn .apm 0] (by decide)
  have hhour := (h _ _ _ _ hrun).final .start
  have hpos : 0 ≤ (final (opened (Zone.fixed 0) 0 45000000) tr).event.startTime.hour := hhour.1.1
  rw [hbad] at hpos
  exact absurd hpos (by decide)

end NewEventState

end CalendarApp
