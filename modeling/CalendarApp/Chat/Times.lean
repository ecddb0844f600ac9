/-
# `Chat.Times` — the time shown with a message

Three widgets of the chat show a time with a message, each with a formatter of
its own in the layout of `timeParser` (`clockText`).

    widget                 formatter             reads
    text bubble            Message.timestamp     the clock, while it is drawn
    invitation bubble      timestamp             the time of the message
    row of ChatScreen      timestamp             the time of the message

All three write the hour `hour > 11 ? hour - 11 : hour`, which is the hour of
the 12-hour clock from 1 to 11 o'clock in the morning only.  A message is shown
with its time, on all widgets that show it, exactly when it was sent in these
hours and, for a text, the clock reads the same minute while it is drawn
(`oneTime_iff`).  No text shows its time at every moment.
-/
import CalendarApp.Chat.Bubbles
import CalendarApp.Event.ClockText

namespace CalendarApp

open Lib

/-- `hour > 11 ? hour - 11 : hour` -/
def hourstr (hour : Int) : Int := if hour > 11 then hour - 11 else hour

/-- `Message.timestamp()`, which asks for the time twice. -/
def Message.timestamp (z : Zone) (now now' : Int) : String :=
  clockText (hourstr (z.hour now)) (z.hour now) (z.minute now')

/-- `_InvitationState.timestamp`. -/
def Invitation.timestamp (z : Zone) (d : Int) : String :=
  clockText (hourstr (z.hour d)) (z.hour d) (z.minute d)

/-- `_ChatScreenState.timestamp`. -/
def ChatScreen.timestamp (z : Zone) (d : Int) : String :=
  clockText (hourstr (z.hour d)) (z.hour d) (z.minute d)

/-- The time in a bubble that is drawn at `now`, and a little later `now'`. -/
def BubbleKind.timeText (z : Zone) (now now' : Int) (msg : MsgModal) : BubbleKind → String
  | message => Message.timestamp z now now'
  | invitation => Invitation.timestamp z msg.time

/-- The text of the local time of a message. -/
def localText (z : Zone) (msg : MsgModal) : String :=
  timeParser (TimeOfDay.fromDateTime z msg.time)

/-- Drawn at `now`, the bubble of the message and its row show its time. -/
structure OneTime (z : Zone) (msg : MsgModal) (now now' : Int) : Prop where
  bubble : ∀ kind : BubbleKind, kind.type = msg.type →
    kind.timeText z now now' msg = localText z msg
  row : ChatScreen.timestamp z msg.time = localText z msg

/-- From 1 o'clock to 11:59 in the morning. -/
def Morning (z : Zone) (t : Int) : Prop := 1 ≤ z.hour t ∧ z.hour t ≤ 11

/-- The clock reads the hour of `t` and then its minute. -/
def SameReading (z : Zone) (now now' t : Int) : Prop :=
  z.hour now = z.hour t ∧ z.minute now' = z.minute t

instance (z : Zone) (t : Int) : Decidable (Morning z t) := inferInstanceAs (Decidable (_ ∧ _))

instance (z : Zone) (now now' t : Int) : Decidable (SameReading z now now' t) :=
  inferInstanceAs (Decidable (_ ∧ _))

variable {z : Zone}

theorem clockText_eq_iff {now now' t : Int} :
    clockText (hourstr (z.hour now)) (z.hour now) (z.minute now') =
        timeParser (TimeOfDay.fromDateTime z t) ↔
      (hourstr (z.hour now) = hour12 (z.hour t) ∧ (11 < z.hour now ↔ 11 < z.hour t)) ∧
        z.minute now' = z.minute t := by
  rw [timeParser, and_assoc]
  exact clockText_inj

/-- The formatter agrees with `timeParser` in the morning only. -/
theorem timestamp_eq_iff {t : Int} :
    ChatScreen.timestamp z t = timeParser (TimeOfDay.fromDateTime z t) ↔ Morning z t := by
  have ht := z.hour_range t
  rw [ChatScreen.timestamp, clockText_eq_iff, and_iff_left rfl, and_iff_left Iff.rfl, Morning,
    hourstr, hour12]
  constructor
  · intro h
    split at h <;> split at h <;> omega
  · rintro ⟨h₁, h₁₁⟩
    rw [if_neg (by omega), if_pos (by omega), if_neg (by omega)]

theorem message_timestamp_eq_iff {now now' t : Int} (ht : Morning z t) :
    Message.timestamp z now now' = timeParser (TimeOfDay.fromDateTime z t) ↔
      SameReading z now now' t := by
  have hnow := z.hour_range now
  obtain ⟨h₁, h₁₁⟩ := ht
  rw [Message.timestamp, clockText_eq_iff, SameReading]
  refine and_congr_left fun _ => ?_
  have hshown : hour12 (z.hour t) = z.hour t := by
    rw [hour12, if_pos (by omega), if_neg (by omega)]
  rw [hshown, hourstr]
  constructor
  · rintro ⟨hhour, hhalf⟩
    rw [if_neg (by omega)] at hhour
    exact hhour
  · intro hhour
    rw [hhour, if_neg (by omega)]
    exact ⟨rfl, Iff.rfl⟩

/-- A message is shown with its time at a moment exactly when it was sent in the
morning and, if it is a text, the clock then has the same reading. -/
theorem oneTime_moment_iff {msg : MsgModal} {now now' : Int} :
    OneTime z msg now now' ↔
      Morning z msg.time ∧ (msg.type = 0 → SameReading z now now' msg.time) := by
  constructor
  · rintro ⟨hbubble, hrow⟩
    have hmorning := timestamp_eq_iff.mp hrow
    exact ⟨hmorning, fun htext =>
      (message_timestamp_eq_iff hmorning).mp (hbubble .message htext.symm)⟩
  · rintro ⟨hmorning, hreading⟩
    refine ⟨?_, timestamp_eq_iff.mpr hmorning⟩
    intro kind hkind
    cases kind with
    | message => exact (message_timestamp_eq_iff hmorning).mpr (hreading hkind.symm)
    | invitation => exact timestamp_eq_iff.mpr hmorning

/-- On a device with a constant offset, a message is shown with its time at a
moment exactly when it was sent from 1 o'clock to 11:59 in the morning and, if
it is a text, the clock has the same reading at that moment; so at every moment
exactly when it was sent in these hours and is no text. -/
theorem oneTime_iff (k : Int) (msg : MsgModal) :
    (∀ now now', OneTime (Zone.fixed k) msg now now' ↔
      Morning (Zone.fixed k) msg.time ∧
        (msg.type = 0 → SameReading (Zone.fixed k) now now' msg.time)) ∧
    ((∀ now now', OneTime (Zone.fixed k) msg now now') ↔
      Morning (Zone.fixed k) msg.time ∧ msg.type ≠ 0) := by
  refine ⟨fun now now' => oneTime_moment_iff, ?_⟩
  constructor
  · intro h
    refine ⟨(oneTime_moment_iff.mp (h 0 0)).1, fun htext => ?_⟩
    -- at local midnight the hour is not one of the morning
    have hmidnight := oneTime_moment_iff.mp (h (-k) (-k))
    have hhour := (hmidnight.2 htext).1
    have hmorning := hmidnight.1.1
    have hzero : (Zone.fixed k).hour (-k) = 0 := by
      rw [Zone.hour, Zone.fixed_clock, Int.add_comm, Int.add_right_neg]
      rfl
    omega
  · rintro ⟨hmorning, htext⟩ now now'
    exact oneTime_moment_iff.mpr ⟨hmorning, fun hc => absurd hc htext⟩

/-- A text sent in Hong Kong at 13:05 on 1 May 2019. -/
def mayText : MsgModal where
  id := "m"
  content := "Hello"
  idFrom := "a"
  idTo := "b"
  time := 1556687100000
  type := 0
  isRead := false
  isReacted := false

/-- Drawn right away, it is shown with 2:05 PM. -/
theorem oneTime_mayText_fails :
    Message.timestamp (Zone.fixed 28800000) mayText.time mayText.time = "2:05 PM" ∧
      localText (Zone.fixed 28800000) mayText = "1:05 PM" ∧
      ¬ ∀ (k : Int) (msg : MsgModal) (now : Int), OneTime (Zone.fixed k) msg now now := by
  refine ⟨by decide, by decide, fun h => ?_⟩
  have hmorning := (oneTime_moment_iff.mp (h 28800000 mayText mayText.time)).1
  exact absurd hmorning (by decide)

end CalendarApp
