/-
# `Event.Stored` — the documents the screen writes

With a constant UTC offset a document is well formed when its start is not
after its end and each stored date is the midnight of the day of its instant.
Both dates of the event are always midnights, so a write is well formed
exactly when, at that moment,

    start ≤ end,  and both clock times lie between 0:00 and 24:00

(`wellFormed_iff`).  `validation` has checked the first, some reports of
wheels earlier, and nothing checks the second.  What the user has to avoid
for every write to be well formed is (`Careful`)

    opening the screen between 23:00 and 24:00
    turning an AM/PM wheel that does not show the flag
    a wheel that, after the press on the button, takes the start past the end
-/
import CalendarApp.Event.ClockFields

namespace CalendarApp

open Lib

/-- A document whose dates are the days of its instants, in order. -/
structure WellFormed (z : Zone) (doc : EventDoc) : Prop where
  ordered : doc.startAt ≤ doc.endAt
  startDate : doc.startDate = z.midnight (z.day doc.startAt)
  endDate : doc.endDate = z.midnight (z.day doc.endAt)
  dates : doc.startDate ≤ doc.endDate

/-- A clock time that stays on the day it is added to. -/
def TimeOfDay.InDay (t : TimeOfDay) : Prop := 0 ≤ t.duration ∧ t.duration < 86400000

instance (t : TimeOfDay) : Decidable t.InDay :=
  inferInstanceAs (Decidable (_ ∧ _))

theorem TimeOfDay.Valid.inDay {t : TimeOfDay} (h : t.Valid) : t.InDay := by
  obtain ⟨h₀, h₁⟩ := duration_range h
  exact ⟨h₀, by omega⟩

theorem midnight_add_iff {k t : Int} (h : (Zone.fixed k).IsMidnight t) (c : TimeOfDay) :
    t = (Zone.fixed k).midnight ((Zone.fixed k).day (t + c.duration)) ↔ c.InDay := by
  have hclock := h.1
  rw [Zone.fixed_clock] at hclock
  rw [Zone.fixed_midnight, Zone.fixed_day, TimeOfDay.InDay]
  constructor
  · intro ht
    constructor <;> omega
  · rintro ⟨h₀, h₁⟩
    omega

namespace EventModal

/-- Both dates are midnights. -/
def Midnights (z : Zone) (e : EventModal) : Prop := ∀ s, z.IsMidnight (e.date s)

/-- Both instants are in order, and the clock times are in their days. -/
def InOrder (e : EventModal) : Prop :=
  e.instant .start ≤ e.instant .finish ∧ e.startTime.InDay ∧ e.endTime.InDay

instance (e : EventModal) : Decidable e.InOrder :=
  inferInstanceAs (Decidable (_ ∧ _ ∧ _))

/-- What `addEvent` writes is well formed exactly when the event is in order. -/
theorem wellFormed_iff {k : Int} {e : EventModal} {userId : String} {doc : EventDoc}
    (hmid : e.Midnights (Zone.fixed k)) (h : addEvent userId e = some doc) :
    WellFormed (Zone.fixed k) doc ↔ e.InOrder := by
  obtain ⟨text, -, rfl⟩ := Option.map_eq_some_iff.mp h
  have hstart := midnight_add_iff (hmid .start) e.startTime
  have hend := midnight_add_iff (hmid .finish) e.endTime
  constructor
  · intro hwf
    exact ⟨hwf.ordered, hstart.mp hwf.startDate, hend.mp hwf.endDate⟩
  · rintro ⟨hle, hst, het⟩
    refine ⟨hle, hstart.mpr hst, hend.mpr het, ?_⟩
    show e.startDate ≤ e.endDate
    rw [show e.startDate = _ from hstart.mpr hst, show e.endDate = _ from hend.mpr het]
    have hday : (e.startDate + e.startTime.duration + k) / 86400000
        ≤ (e.endDate + e.endTime.duration + k) / 86400000 :=
      Int.ediv_le_ediv (by decide) (Int.add_le_add_right hle k)
    simp only [date, Zone.fixed_midnight, Zone.fixed_day]
    omega

/-! ## The dates stay midnights -/

variable {k : Int} {e e' : EventModal}

theorem midnights_ofDay (day now : Int) :
    (ofDay (Zone.fixed k) day now).Midnights (Zone.fixed k) := fun s => by
  cases s <;> exact Zone.fixed_isMidnight k _

theorem Midnights.setDate (h : e.Midnights (Zone.fixed k)) (s : Side) (n : Int) :
    (e.setDate s ((Zone.fixed k).midnight n)).Midnights (Zone.fixed k) := by
  intro s'
  by_cases hs : s' = s
  · subst hs
    rw [date_setDate_self]
    exact Zone.fixed_isMidnight k n
  · rw [date_setDate_other _ _ hs]
    exact h s'

theorem Edit.midnights (hedit : Edit (Zone.fixed k) e e') (h : e.Midnights (Zone.fixed k)) :
    e'.Midnights (Zone.fixed k) := by
  cases hedit with
  | text hd _ _ => intro s; rw [hd]; exact h s
  | date s n => exact h.setDate s n
  | hour s _ =>
      intro s'
      simp only [EventModal.hour]
      split <;> (rw [date_setTime]; exact h s')
  | minute s _ => intro s'; rw [EventModal.minute, date_setTime]; exact h s'
  | update s =>
      rw [update_eq]
      split
      · exact h
      · intro s'
        rw [correct, date_setApm, date_setTime]
        exact h.setDate s _ s'

theorem Midnights.halfDay {s : Side} {a : Nat} (h : e.Midnights (Zone.fixed k))
    (ha : e.halfDay s a = some e') : e'.Midnights (Zone.fixed k) := by
  obtain ⟨f, -, rfl⟩ := Option.map_eq_some_iff.mp ha
  intro s'
  cases f <;> (rw [date_setTime, date_setApm]; exact h s')

end EventModal

namespace NewEventState

open EventModal

variable {k : Int} {z : Zone} {s s' : NewEventState}

/-- The document written, if one is, is well formed. -/
def StoresWellFormed (z : Zone) (s : NewEventState) : Prop :=
  ∀ doc, s.written = some doc → WellFormed z doc

/-- The event is in order when it is written. -/
def WritesInOrder (s : NewEventState) : Action → Prop
  | .write _ => s.event.InOrder
  | _ => True

/-- No report of a wheel after the press on the button takes the start past
the end. -/
def OrderKept (z : Zone) (s : NewEventState) : Action → Prop
  | .turn w p => s.popped = true → ∀ e ∈ s.pick z w (s.childIndex w p),
      e.instant .start ≤ e.instant .finish
  | _ => True

/-- The care that keeps the event in order. -/
def Careful (z : Zone) (s : NewEventState) (a : Action) : Prop :=
  HalfDayInStep s a ∧ OrderKept z s a

instance (z : Zone) (s : NewEventState) : ∀ a, Decidable (OrderKept z s a)
  | .turn _ _ => inferInstanceAs (Decidable (_ → _))
  | .startTap | .endTap | .confirm | .allday _ | .title _ | .location _ | .note _
  | .type _ | .add | .write _ => inferInstanceAs (Decidable True)

instance (z : Zone) (s : NewEventState) (a : Action) : Decidable (Careful z s a) :=
  inferInstanceAs (Decidable (_ ∧ _))

theorem writesInOrder_of_ne {a : Action} (h : ∀ userId, a ≠ .write userId) :
    s.WritesInOrder a := by
  cases a with
  | write userId => exact absurd rfl (h userId)
  | _ => exact trivial

theorem step_midnights {a : Action} (hs : s.Settled) (hm : s.event.Midnights (Zone.fixed k))
    (h : step (Zone.fixed k) s a = some s') : s'.event.Midnights (Zone.fixed k) := by
  cases step_cases hs h with
  | tap side _ => exact (Edit.update side).midnights hm
  | turn w p e _ hpick =>
      by_cases hw : w = .apm
      · subst hw
        rw [pick_side] at hpick
        exact hm.halfDay hpick
      · exact (pick_edit hw hpick).midnights hm
  | edit _ _ _ hd ht ha => exact (Edit.text hd ht ha).midnights hm
  | confirm _ _ | refused _ _ _ | accepted _ _ | write _ _ _ _ => exact hm

/-- One step stores nothing but well-formed documents exactly when what it
writes is in order. -/
theorem step_stores {a : Action} (hs : s.Settled) (hm : s.event.Midnights (Zone.fixed k))
    (hw : s.StoresWellFormed (Zone.fixed k)) (h : step (Zone.fixed k) s a = some s') :
    s'.StoresWellFormed (Zone.fixed k) ↔ s.WritesInOrder a := by
  cases step_cases hs h with
  | write userId doc _ hadd =>
      refine Iff.trans ?_ (wellFormed_iff hm hadd)
      constructor
      · intro hstored
        exact hstored doc rfl
      · rintro hdoc _ ⟨⟩
        exact hdoc
  | edit _ hne _ _ _ _ => exact iff_of_true hw (writesInOrder_of_ne hne)
  | tap side _ => exact iff_of_true hw (writesInOrder_of_ne fun _ => by cases side <;> exact nofun)
  | confirm _ _ | turn _ _ _ _ _ | refused _ _ _ | accepted _ _ => exact iff_of_true hw trivial

/-- After the press on the button the start is not after the end. -/
def ChecksOrder (s : NewEventState) : Prop :=
  s.popped = true → s.event.instant .start ≤ s.event.instant .finish

/-- Careful steps keep what `validation` has checked. -/
theorem step_checksOrder {a : Action} (hs : s.Settled) (hv : s.ChecksOrder)
    (h : step z s a = some s') (hkept : OrderKept z s a) : s'.ChecksOrder := by
  have hopen : s.popped = false → s'.popped = s.popped → s'.ChecksOrder := by
    intro hp hp' hpop
    rw [hp', hp] at hpop
    cases hpop
  cases step_cases hs h with
  | tap _ hp | confirm hp _ | edit _ _ hp _ _ _ | refused _ hp _ => exact hopen hp rfl
  | turn w p e _ hpick => exact fun hp => hkept hp e hpick
  | accepted _ hvalid => exact fun _ => (validation_ok.mp hvalid).2
  | write _ _ _ _ => exact hv

/-- What the steps of a careful run rely on. -/
structure Prepared (k : Int) (s : NewEventState) : Prop where
  settled : s.Settled
  midnights : s.event.Midnights (Zone.fixed k)
  clockFields : s.event.ClockFields
  checksOrder : s.ChecksOrder

theorem Prepared.step {a : Action} (hI : s.Prepared k)
    (h : NewEventState.step (Zone.fixed k) s a = some s') (hc : Careful (Zone.fixed k) s a) :
    s.WritesInOrder a ∧ s'.Prepared k := by
  constructor
  · cases step_cases hI.settled h with
    | write _ _ hp _ =>
        exact ⟨hI.checksOrder hp, (hI.clockFields .start).1.inDay,
          (hI.clockFields .finish).1.inDay⟩
    | edit _ hne _ _ _ _ => exact writesInOrder_of_ne hne
    | tap side _ => exact writesInOrder_of_ne fun _ => by cases side <;> exact nofun
    | confirm _ _ | turn _ _ _ _ _ | refused _ _ _ | accepted _ _ => exact trivial
  · exact ⟨hI.settled.step h, step_midnights hI.settled hI.midnights h,
      (step_clockFields hI.settled hI.clockFields h).mpr hc.1,
      step_checksOrder hI.settled hI.checksOrder h hc.2⟩

theorem prepared_opened {day now : Int} (hnow : (Zone.fixed k).hour now ≠ 23) :
    (opened (Zone.fixed k) day now).Prepared k where
  settled := Settled.opened day now
  midnights := midnights_ofDay day now
  clockFields := (ofDay_clockFields day now).mpr hnow
  checksOrder := nofun

/-- A run stores nothing but well-formed documents exactly when the event is
in order at its write, and a careful run on a screen not opened in the last
hour of a day has it in order. -/
theorem stores_iff (k day now : Int) {tr : List (Action × NewEventState)}
    (hrun : Run (StepOf (step (Zone.fixed k))) (opened (Zone.fixed k) day now) tr) :
    (Always (StoresWellFormed (Zone.fixed k)) (opened (Zone.fixed k) day now) tr ↔
        Guarded WritesInOrder (opened (Zone.fixed k) day now) tr) ∧
      ((Zone.fixed k).hour now ≠ 23 →
        Guarded (Careful (Zone.fixed k)) (opened (Zone.fixed k) day now) tr →
          Always (StoresWellFormed (Zone.fixed k)) (opened (Zone.fixed k) day now) tr) := by
  have hnone : (opened (Zone.fixed k) day now).StoresWellFormed (Zone.fixed k) := nofun
  have hexact := always_iff_guarded (P := StoresWellFormed (Zone.fixed k))
    (I := fun s => s.Settled ∧ s.event.Midnights (Zone.fixed k))
    (fun s a s' hI hw h => step_stores hI.1 hI.2 hw h)
    (fun s a s' hI h => ⟨hI.1.step h, step_midnights hI.1 hI.2 h⟩)
    ⟨Settled.opened day now, midnights_ofDay day now⟩ hnone hrun
  refine ⟨hexact, fun hnow hcareful => hexact.mpr ?_⟩
  exact Along.of_guarded (fun s a s' hI h hc => hI.step h hc) (prepared_opened hnow) hrun
    hcareful

/-- Opened at 12:30 on 1 May 2019, titled and added. -/
theorem stores_lunch : ∃ tr : List (Action × NewEventState),
    tr.map Prod.fst = [.title "Lunch", .add, .write "u"] ∧
      (final (opened (Zone.fixed 0) 1556668800000 1556713800000) tr).written.isSome = true ∧
      Always (StoresWellFormed (Zone.fixed 0))
        (opened (Zone.fixed 0) 1556668800000 1556713800000) tr := by
  obtain ⟨tr, hacts, hrun, hguard, hdoc⟩ := exists_run
    (f := step (Zone.fixed 0)) (s := opened (Zone.fixed 0) 1556668800000 1556713800000)
    (P := fun tr => Guarded (Careful (Zone.fixed 0))
        (opened (Zone.fixed 0) 1556668800000 1556713800000) tr ∧
      (final (opened (Zone.fixed 0) 1556668800000 1556713800000) tr).written.isSome = true)
    [.title "Lunch", .add, .write "u"] (by decide)
  exact ⟨tr, hacts, hdoc, (stores_iff 0 1556668800000 1556713800000 hrun).2 (by decide) hguard⟩

/-- Opened at 23:30 on 1 May 2019, titled and added: the end is 0:30 on 2 May
and the end date stays 1 May. -/
theorem stores_lateEvening_fails : ¬ ∀ (k day now : Int) (tr),
    Run (StepOf (step (Zone.fixed k))) (opened (Zone.fixed k) day now) tr →
      Always (StoresWellFormed (Zone.fixed k)) (opened (Zone.fixed k) day now) tr := by
  intro h
  obtain ⟨tr, -, hrun, hbad⟩ := exists_run
    (f := step (Zone.fixed 0)) (s := opened (Zone.fixed 0) 1556668800000 1556753400000)
    (P := fun tr => ((final (opened (Zone.fixed 0) 1556668800000 1556753400000) tr).written.any
      fun doc => doc.endAt = 1556757000000 ∧ doc.endDate = 1556668800000) = true)
    [.title "Film", .add, .write "u"] (by decide)
  obtain ⟨doc, hdoc, hfields⟩ := (Option.any_eq_true _ _).mp hbad
  obtain ⟨hend, hdate⟩ := of_decide_eq_true hfields
  have hmidnight := ((h _ _ _ _ hrun).final doc hdoc).endDate
  rw [hend, hdate] at hmidnight
  exact absurd hmidnight (by decide)

end NewEventState

end CalendarApp
