/-
# `Event.Modal` — the event editor's data, event_modal.dart

`EventModal` holds one event: two dates (instants of a local midnight), two
clock times whose fields nothing checks, and two AM/PM flags.  The source
writes every mutator twice, once for the start and once for the end; here
each pair is one definition over a `Side`, and the source's names are that
definition at a side.

    startYear / endYear      startHour / endHour      startAPM / endAPM
    startMonth / endMonth    startMinute / endMinute
    startDay / endDay        startUpdate / endUpdate (`correct`)

`EventModal.fromFirestore` leaves the flags null and `EventModal(day)` leaves
the document id and the participants null, so the fields both of them set are
a structure of their own, `EventFields`.  An index outside an enumeration or
a list is an exception in the source and `none` here.
-/
import CalendarApp.Main

namespace CalendarApp

open Lib

/-! ## Enumerations and their lists -/

/-- `enum APM`. -/
inductive APM where
  | AM
  | PM
  deriving DecidableEq, Repr

def APM.values : List APM := [.AM, .PM]

def APM.index : APM → Nat
  | .AM => 0
  | .PM => 1

/-- `APM.values[hour < 12 ? 0 : 1]`. -/
def APM.ofHour (hour : Int) : APM := if hour < 12 then .AM else .PM

/-- `enum Type`. -/
inductive EventType where
  | Todo | Birthday | Work | Study | Doctor | Trip | Dating | Friend | Family
  deriving DecidableEq, Repr

/-- `Type.values`. -/
def EventType.values : List EventType :=
  [.Todo, .Birthday, .Work, .Study, .Doctor, .Trip, .Dating, .Friend, .Family]

/-- `type.index`. -/
def EventType.index : EventType → Nat
  | .Todo => 0 | .Birthday => 1 | .Work => 2 | .Study => 3 | .Doctor => 4
  | .Trip => 5 | .Dating => 6 | .Friend => 7 | .Family => 8

/-- `typelist`, which has no entry for `Trip` and is one shorter than the
enumeration. -/
def typelist : List String :=
  ["Todo", "Birthday", "Work", "Study", "Doctor", "Dating", "Friend", "Family"]

/-- The colours of main.dart that `typecolor` uses. -/
inductive SampleColor where
  | grey | lightOrange | deepBlue | lightBlue | red | pink | deepGreen | lightPurple
  deriving DecidableEq, Repr

def typecolor : List SampleColor :=
  [.grey, .lightOrange, .deepBlue, .lightBlue, .red, .pink, .deepGreen, .lightPurple]

/-- `Type.values[typelist.indexOf(text)]`; index -1 throws. -/
def typeOfText (text : String) : Option EventType :=
  if 0 ≤ indexOf typelist text then EventType.values[(indexOf typelist text).toNat]?
  else none

/-! ## Clock times -/

/-- Flutter's `TimeOfDay`: two integers, not checked. -/
structure TimeOfDay where
  hour : Int
  minute : Int
  deriving DecidableEq, Repr

/-- `Duration(hours: hour, minutes: minute)`, in milliseconds. -/
def TimeOfDay.duration (t : TimeOfDay) : Int := t.hour * 3600000 + t.minute * 60000

/-- `TimeOfDay.fromDateTime`. -/
def TimeOfDay.fromDateTime (z : Zone) (t : Int) : TimeOfDay := ⟨z.hour t, z.minute t⟩

/-- A time a clock can show. -/
def TimeOfDay.Valid (t : TimeOfDay) : Prop :=
  0 ≤ t.hour ∧ t.hour < 24 ∧ 0 ≤ t.minute ∧ t.minute < 60

instance (t : TimeOfDay) : Decidable t.Valid :=
  inferInstanceAs (Decidable (_ ∧ _ ∧ _ ∧ _))

theorem TimeOfDay.fromDateTime_valid (z : Zone) (t : Int) : (fromDateTime z t).Valid :=
  ⟨(z.hour_range t).1, (z.hour_range t).2, (z.minute_range t).1, (z.minute_range t).2⟩

theorem TimeOfDay.duration_range {t : TimeOfDay} (h : t.Valid) :
    0 ≤ t.duration ∧ t.duration + 60000 ≤ 86400000 := by
  obtain ⟨h₀, h₁, h₂, h₃⟩ := h
  simp only [TimeOfDay.duration]
  omega

theorem TimeOfDay.fromDateTime_eq_iff {z : Zone} {i : Int} {t : TimeOfDay}
    (h : t.Valid) :
    fromDateTime z i = t ↔ t.duration ≤ z.clock i ∧ z.clock i < t.duration + 60000 := by
  obtain ⟨h₀, h₁, h₂, h₃⟩ := h
  have hrange := z.clock_range i
  cases t with
  | mk hour minute =>
      simp only [fromDateTime, TimeOfDay.mk.injEq, Zone.hour, Zone.minute,
        TimeOfDay.duration] at *
      omega

/-! ## The event -/

/-- The fields that both constructors set. -/
structure EventFields where
  startDate : Int
  endDate : Int
  startTime : TimeOfDay
  endTime : TimeOfDay
  title : String
  location : String
  note : String
  type : EventType
  allday : Bool
  deriving DecidableEq, Repr

/-- `EventModal` as the editor has it. -/
structure EventModal extends EventFields where
  startapm : APM
  endapm : APM
  deriving DecidableEq, Repr

/-- The two halves of an event, in the order of `getStartandEnd`. -/
inductive Side where
  | start
  | finish
  deriving DecidableEq, Repr

namespace EventModal

def date (e : EventModal) : Side → Int
  | .start => e.startDate
  | .finish => e.endDate

def time (e : EventModal) : Side → TimeOfDay
  | .start => e.startTime
  | .finish => e.endTime

def apm (e : EventModal) : Side → APM
  | .start => e.startapm
  | .finish => e.endapm

def setDate (e : EventModal) : Side → Int → EventModal
  | .start, d => { e with startDate := d }
  | .finish, d => { e with endDate := d }

def setTime (e : EventModal) : Side → TimeOfDay → EventModal
  | .start, t => { e with startTime := t }
  | .finish, t => { e with endTime := t }

def setApm (e : EventModal) : Side → APM → EventModal
  | .start, a => { e with startapm := a }
  | .finish, a => { e with endapm := a }

section Fields

variable (e : EventModal) (s : Side) (d : Int) (t : TimeOfDay) (a : APM)

@[simp] theorem date_setDate_self : (e.setDate s d).date s = d := by cases s <;> rfl
@[simp] theorem time_setDate (s' : Side) : (e.setDate s d).time s' = e.time s' := by
  cases s <;> cases s' <;> rfl
@[simp] theorem apm_setDate (s' : Side) : (e.setDate s d).apm s' = e.apm s' := by
  cases s <;> cases s' <;> rfl
@[simp] theorem date_setTime (s' : Side) : (e.setTime s t).date s' = e.date s' := by
  cases s <;> cases s' <;> rfl
@[simp] theorem time_setTime_self : (e.setTime s t).time s = t := by cases s <;> rfl
@[simp] theorem apm_setTime (s' : Side) : (e.setTime s t).apm s' = e.apm s' := by
  cases s <;> cases s' <;> rfl
@[simp] theorem date_setApm (s' : Side) : (e.setApm s a).date s' = e.date s' := by
  cases s <;> cases s' <;> rfl
@[simp] theorem time_setApm (s' : Side) : (e.setApm s a).time s' = e.time s' := by
  cases s <;> cases s' <;> rfl
@[simp] theorem apm_setApm_self : (e.setApm s a).apm s = a := by cases s <;> rfl
@[simp] theorem allday_setDate : (e.setDate s d).allday = e.allday := by cases s <;> rfl
@[simp] theorem allday_setTime : (e.setTime s t).allday = e.allday := by cases s <;> rfl
@[simp] theorem allday_setApm : (e.setApm s a).allday = e.allday := by cases s <;> rfl

variable {s} {s' : Side} (h : s' ≠ s)

include h in
@[simp] theorem date_setDate_other : (e.setDate s d).date s' = e.date s' := by
  cases s <;> cases s' <;> first | rfl | exact absurd rfl h
include h in
@[simp] theorem time_setTime_other : (e.setTime s t).time s' = e.time s' := by
  cases s <;> cases s' <;> first | rfl | exact absurd rfl h
include h in
@[simp] theorem apm_setApm_other : (e.setApm s a).apm s' = e.apm s' := by
  cases s <;> cases s' <;> first | rfl | exact absurd rfl h

end Fields

/-! ## Constructor -/

variable (z : Zone)

/-- `EventModal(day)`, constructed at the instant `now`. -/
def ofDay (day now : Int) : EventModal where
  startDate := z.dateTime (z.date day).year (z.date day).month (z.date day).day
  endDate := z.dateTime (z.date day).year (z.date day).month (z.date day).day
  startTime := ⟨z.hour now, z.minute now⟩
  endTime := ⟨z.hour now + 1, z.minute now⟩
  startapm := APM.ofHour (z.hour now)
  endapm := APM.ofHour (z.hour now + 1)
  title := ""
  location := ""
  note := ""
  type := .Todo
  allday := false

/-- `typeText()`; the last value of the enumeration has no text. -/
def typeText (e : EventModal) : Option String := typelist[e.type.index]?

/-! ## The date and time setters -/

/-- Sets the year of a side from an index of `yearlist`. -/
def year (s : Side) (e : EventModal) (d : Nat) : Option EventModal :=
  yearlist[d]?.map fun y =>
    e.setDate s (z.dateTime y (z.date (e.date s)).month (z.date (e.date s)).day)

def month (s : Side) (e : EventModal) (d : Nat) : EventModal :=
  e.setDate s (z.dateTime (z.date (e.date s)).year (d + 1) (z.date (e.date s)).day)

def day (s : Side) (e : EventModal) (d : Nat) : EventModal :=
  e.setDate s (z.dateTime (z.date (e.date s)).year (z.date (e.date s)).month (d + 1))

/-- Sets the hour of a side from the 12-hour wheel, by the AM/PM flag. -/
def hour (s : Side) (e : EventModal) (t : Nat) : EventModal :=
  match e.apm s with
  | .AM => e.setTime s ⟨t, (e.time s).minute⟩
  | .PM => e.setTime s ⟨t + 12, (e.time s).minute⟩

def minute (s : Side) (e : EventModal) (t : Nat) : EventModal :=
  e.setTime s ⟨(e.time s).hour, t⟩

/-- Sets the flag of a side and moves its hour by half a day. -/
def halfDay (s : Side) (e : EventModal) (a : Nat) : Option EventModal :=
  APM.values[a]?.map fun f =>
    match f with
    | .AM => (e.setApm s f).setTime s ⟨(e.time s).hour - 12, (e.time s).minute⟩
    | .PM => (e.setApm s f).setTime s ⟨(e.time s).hour + 12, (e.time s).minute⟩

def startYear (e : EventModal) (d : Nat) : Option EventModal := year z .start e d
def startMonth (e : EventModal) (d : Nat) : EventModal := month z .start e d
def startDay (e : EventModal) (d : Nat) : EventModal := day z .start e d
def startHour (e : EventModal) (t : Nat) : EventModal := hour .start e t
def startMinute (e : EventModal) (t : Nat) : EventModal := minute .start e t
def startAPM (e : EventModal) (a : Nat) : Option EventModal := halfDay .start e a
def endYear (e : EventModal) (d : Nat) : Option EventModal := year z .finish e d
def endMonth (e : EventModal) (d : Nat) : EventModal := month z .finish e d
def endDay (e : EventModal) (d : Nat) : EventModal := day z .finish e d
def endHour (e : EventModal) (t : Nat) : EventModal := hour .finish e t
def endMinute (e : EventModal) (t : Nat) : EventModal := minute .finish e t
def endAPM (e : EventModal) (a : Nat) : Option EventModal := halfDay .finish e a

/-! ## Comparison and correction -/

/-- One side's instant: its midnight plus its clock time. -/
def instant (e : EventModal) (s : Side) : Int := e.date s + (e.time s).duration

/-- `getStartandEnd()`. -/
def getStartandEnd (e : EventModal) : Int × Int :=
  (e.startDate + e.startTime.duration, e.endDate + e.endTime.duration)

/-- `checkBefore()`. -/
def checkBefore (e : EventModal) : Bool :=
  (e.getStartandEnd).1 < (e.getStartandEnd).2

/-- Puts a side on the instant `t`: its date, its clock time and its flag. -/
def correct (s : Side) (e : EventModal) (t : Int) : EventModal :=
  ((e.setDate s (z.dateTime (z.date t).year (z.date t).month (z.date t).day)).setTime s
    (TimeOfDay.fromDateTime z t)).setApm s (APM.ofHour (TimeOfDay.fromDateTime z t).hour)

/-- `endUpdate()`: an end that is not after the start moves one hour past it. -/
def endUpdate (e : EventModal) : EventModal :=
  if e.checkBefore then e else e.correct z .finish ((e.getStartandEnd).1 + 3600000)

/-- `startUpdate()`: a start that is not before the end moves one hour ahead
of it. -/
def startUpdate (e : EventModal) : EventModal :=
  if e.checkBefore then e else e.correct z .start ((e.getStartandEnd).2 - 3600000)

/-- The correction that belongs to a side. -/
def update (s : Side) (e : EventModal) : EventModal :=
  match s with
  | .start => e.startUpdate z
  | .finish => e.endUpdate z

/-- The instant a correction moves its side to. -/
def corrected (s : Side) (e : EventModal) : Int :=
  match s with
  | .start => e.instant .finish - 3600000
  | .finish => e.instant .start + 3600000

theorem update_eq (s : Side) (e : EventModal) :
    e.update z s = if e.checkBefore then e else e.correct z s (e.corrected s) := by
  cases s <;> rfl

/-- The instant that the date and the clock fields of `t` make. -/
def ofFields (t : Int) : Int := z.midnight (z.day t) + (TimeOfDay.fromDateTime z t).duration

theorem instant_update (s : Side) (e : EventModal) :
    (e.update z s).instant s =
      if e.checkBefore then e.instant s else ofFields z (e.corrected s) := by
  rw [update_eq]
  split
  · rfl
  · simp only [instant, correct, date_setApm, date_setTime, date_setDate_self, time_setApm,
      time_setTime_self, Zone.dateTime_date, ofFields]

@[simp] theorem allday_update (s : Side) (e : EventModal) :
    (e.update z s).allday = e.allday := by
  rw [update_eq]
  split
  · rfl
  · simp only [correct, allday_setApm, allday_setTime, allday_setDate]

end EventModal

end CalendarApp
