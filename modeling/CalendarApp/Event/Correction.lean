/-
# `Event.Correction` — what the two corrections establish

`endUpdate` and `startUpdate` split an instant into a midnight and a clock
time, and `getStartandEnd` puts it together again.  With a constant UTC offset
the split loses nothing, as long as the instant is a whole minute after a
midnight; and every instant of an event is one, whatever its clock fields are.
So a correction sets its side exactly one hour from the other one,

    endUpdate      end   = start + 1 h
    startUpdate    start = end - 1 h

the start is before the end after it, and a second correction finds nothing
to do (`correction_restores`).
-/
import CalendarApp.Event.Stored

namespace CalendarApp

open Lib

namespace EventModal

/-- What the correction of the side `s`, which turned `e` into `e'`, has to
establish. -/
structure Restores (z : Zone) (s : Side) (e e' : EventModal) : Prop where
  /-- the start is before the end -/
  before : e'.checkBefore = true
  /-- the fields of the other side are unchanged -/
  other : ∀ s', s' ≠ s → e'.date s' = e.date s' ∧ e'.time s' = e.time s' ∧ e'.apm s' = e.apm s'
  /-- an event in order is left alone -/
  unchanged : e.checkBefore = true → e' = e
  /-- any other becomes an hour long -/
  hour : e.checkBefore = false → e'.instant .finish = e'.instant .start + 3600000
  /-- with the side's date on the day of its instant -/
  midnight : e.checkBefore = false → e'.date s = z.midnight (z.day (e'.instant s))
  /-- and its clock fields in step -/
  clock : e.checkBefore = false → SideOk (e'.time s) (e'.apm s)
  /-- a second correction changes nothing -/
  again : e'.update z s = e'

variable {k : Int} {e : EventModal}

theorem ofFields_fixed {t : Int} (h : (t + k) % 60000 = 0) : ofFields (Zone.fixed k) t = t := by
  simp only [ofFields, Zone.fixed_midnight, Zone.fixed_day, TimeOfDay.duration,
    TimeOfDay.fromDateTime, Zone.hour, Zone.minute, Zone.fixed_clock]
  omega

theorem instant_wholeMinute (h : e.Midnights (Zone.fixed k)) (s : Side) :
    (e.instant s + k) % 60000 = 0 := by
  have hclock := (h s).1
  rw [Zone.fixed_clock] at hclock
  simp only [instant, TimeOfDay.duration]
  omega

/-- The corrected side stands on the instant it was corrected to. -/
theorem instant_corrected (h : e.Midnights (Zone.fixed k)) (s : Side)
    (hb : e.checkBefore = false) : (e.update (Zone.fixed k) s).instant s = e.corrected s := by
  rw [instant_update, if_neg (Bool.eq_false_iff.mp hb)]
  refine ofFields_fixed ?_
  cases s with
  | start =>
      have hend := instant_wholeMinute h .finish
      simp only [corrected]
      omega
  | finish =>
      have hstart := instant_wholeMinute h .start
      simp only [corrected]
      omega

theorem update_other (z : Zone) (e : EventModal) {s s' : Side} (hs : s' ≠ s) :
    (e.update z s).date s' = e.date s' ∧ (e.update z s).time s' = e.time s' ∧
      (e.update z s).apm s' = e.apm s' := by
  rw [update_eq]
  split
  · exact ⟨rfl, rfl, rfl⟩
  · simp only [correct, date_setApm, date_setTime, date_setDate_other _ _ hs, time_setApm,
      time_setTime_other _ _ hs, time_setDate, apm_setApm_other _ _ hs, apm_setTime,
      apm_setDate, and_self]

theorem hour_corrected (h : e.Midnights (Zone.fixed k)) (s : Side) (hb : e.checkBefore = false) :
    (e.update (Zone.fixed k) s).instant .finish =
      (e.update (Zone.fixed k) s).instant .start + 3600000 := by
  have hself := instant_corrected h s hb
  have hother : ∀ s', s' ≠ s → (e.update (Zone.fixed k) s).instant s' = e.instant s' := by
    intro s' hs
    obtain ⟨hd, ht, -⟩ := update_other (Zone.fixed k) e hs
    rw [instant, instant, hd, ht]
  cases s with
  | start =>
      rw [hself, hother .finish (by decide), corrected]
      omega
  | finish =>
      rw [hself, hother .start (by decide), corrected]

theorem checkBefore_iff (e : EventModal) :
    e.checkBefore = true ↔ e.instant .start < e.instant .finish :=
  decide_eq_true_iff

theorem update_restores (h : e.Midnights (Zone.fixed k)) (s : Side) :
    Restores (Zone.fixed k) s e (e.update (Zone.fixed k) s) := by
  have hbefore : (e.update (Zone.fixed k) s).checkBefore = true := by
    cases hb : e.checkBefore with
    | true =>
        rw [update_eq, if_pos hb]
        exact hb
    | false =>
        have hour := hour_corrected h s hb
        rw [checkBefore_iff, hour]
        omega
  have hcorrect : e.checkBefore = false → e.update (Zone.fixed k) s =
      e.correct (Zone.fixed k) s (e.corrected s) := by
    intro hb
    rw [update_eq, if_neg (Bool.eq_false_iff.mp hb)]
  refine ⟨hbefore, fun s' hs => update_other _ e hs, fun hb => ?_, hour_corrected h s,
    fun hb => ?_, fun hb => ?_, ?_⟩
  · rw [update_eq, if_pos hb]
  · rw [instant_corrected h s hb, hcorrect hb, correct, date_setApm, date_setTime,
      date_setDate_self, Zone.dateTime_date]
  · rw [hcorrect hb, correct, time_setApm, time_setTime_self, apm_setApm_self]
    exact sideOk_ofHour (TimeOfDay.fromDateTime_valid _ _)
  · rw [update_eq, if_pos hbefore]

/-- With a constant offset and midnights for dates, whatever the clock fields,
both corrections do what they are for. -/
theorem correction_restores (k : Int) (e : EventModal) (h : e.Midnights (Zone.fixed k)) :
    Restores (Zone.fixed k) .finish e (e.endUpdate (Zone.fixed k)) ∧
      Restores (Zone.fixed k) .start e (e.startUpdate (Zone.fixed k)) :=
  ⟨update_restores h .finish, update_restores h .start⟩

/-- An event on 1 May 2019 in Hong Kong that ends at 30:-1 before it starts
at 99:70. -/
def oddMeeting : EventModal :=
  { mayMeeting with startTime := ⟨99, 70⟩, endTime := ⟨30, -1⟩ }

theorem correction_restores_odd :
    Restores (Zone.fixed 28800000) .finish oddMeeting
        (oddMeeting.endUpdate (Zone.fixed 28800000)) ∧
      Restores (Zone.fixed 28800000) .start oddMeeting
        (oddMeeting.startUpdate (Zone.fixed 28800000)) :=
  correction_restores 28800000 oddMeeting fun s => by cases s <;> decide

end EventModal

end CalendarApp
