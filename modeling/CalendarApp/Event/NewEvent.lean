/-
# `Event.NewEvent` — the screen of event_new.dart as a state machine

The screen holds the event, the flags that say which side the picker edits,
and six scroll controllers, one for each wheel.  What Flutter does with them
is part of the state: a controller has a position, and the wheels are
attached to their controllers from one frame to the next.

    initController   six new controllers at the items of one instant, detached
    jumpToItem       moves an attached wheel; a detached one stays
    frame            the next frame attaches the wheels iff the picker is visible
    turn w p         the user moves a built wheel to another position `p`

A wheel reports only a change of its position, and the report is dropped
while `isAnimating` is set (`onSelectedItemChanged`).  In all-day mode the
three time wheels are not built.  `add` is the press on the button: it runs
`validation`, and when that passes the sheet is popped, after which only
wheel reports still arrive before `write`, the resumption of `addEvent`.

An index error in a handler is `none`; `step` is also `none` for an action
the screen does not offer in its state.
-/
import CalendarApp.Lib.Run
import CalendarApp.Event.Document

namespace CalendarApp

open Lib

/-! ## Wheels -/

/-- The wheels, in the order of `controller`. -/
inductive Wheel where
  | year | month | day | hour | minute | apm
  deriving DecidableEq, Repr

namespace Wheel

def all : List Wheel := [.year, .month, .day, .hour, .minute, .apm]

/-- The `looping` argument of the pickers. -/
def looping : Wheel → Bool
  | .month | .day | .hour | .minute => true
  | .year | .apm => false

/-- The wheels that are built in all-day mode as well. -/
def ofDate : Wheel → Bool
  | .year | .month | .day => true
  | .hour | .minute | .apm => false

end Wheel

/-- `initItem`: the item of each wheel for an instant. -/
def initItem (z : Zone) (date : Int) : Wheel → Int
  | .year => indexOf yearlist (z.date date).year
  | .month => (z.date date).month - 1
  | .day => (z.date date).day - 1
  | .hour => if z.hour date > 11 then z.hour date - 12 else z.hour date
  | .minute => z.minute date
  | .apm => if z.hour date < 12 then 0 else 1

/-- The controllers: their positions, and whether wheels are attached. -/
structure Controllers where
  item : Wheel → Int
  attached : Bool

/-! ## The screen -/

structure NewEventState where
  event : EventModal
  startFlag : Bool
  endFlag : Bool
  isAnimating : Bool
  controller : Controllers
  /-- `dayWidget.length` -/
  dayCount : Nat
  snackBar : List String
  popped : Bool
  written : Option EventDoc

namespace NewEventState

variable (z : Zone)

/-- The side the picker edits: `getStartandEnd()[startFlag ? 0 : 1]`. -/
def side (s : NewEventState) : Side := if s.startFlag then .start else .finish

def activeDate (s : NewEventState) : Int :=
  if s.startFlag then s.event.getStartandEnd.1 else s.event.getStartandEnd.2

/-- The argument of `Visibility` around the picker. -/
def visible (s : NewEventState) : Bool := s.startFlag || s.endFlag

/-- The number of children of a wheel. -/
def children (s : NewEventState) : Wheel → Nat
  | .year => yearlist.length
  | .month => 12
  | .day => s.dayCount
  | .hour => 12
  | .minute => 60
  | .apm => 2

/-- The child at item `p`: a looping wheel repeats its children. -/
def childIndex (s : NewEventState) (w : Wheel) (p : Int) : Nat :=
  if w.looping then (p % s.children w).toNat else p.toNat

/-- A wheel that was built in the last frame. -/
def mounted (s : NewEventState) (w : Wheel) : Bool :=
  s.controller.attached && (w.ofDate || !s.event.allday)

def withItems (s : NewEventState) (f : Wheel → Int) : NewEventState :=
  { s with controller := { s.controller with item := f } }

def setItem (s : NewEventState) (w : Wheel) (p : Int) : NewEventState :=
  s.withItems fun w' => if w' = w then p else s.controller.item w'

/-- The first build: `EventModal(selectedDay)`, `initWidgetList`, and the
controllers that `datetimePicker` makes when there are none. -/
def opened (day now : Int) : NewEventState :=
  let event := EventModal.ofDay z day now
  { event := event
    startFlag := false
    endFlag := false
    isAnimating := false
    controller := ⟨initItem z event.getStartandEnd.2, false⟩
    dayCount := (z.date (z.dateTime (z.date event.startDate).year
      ((z.date event.startDate).month + 1) 0)).day.toNat
    snackBar := []
    popped := false
    written := none }

/-- `initController()`. -/
def initController (s : NewEventState) : NewEventState :=
  { s with controller := ⟨initItem z s.activeDate, false⟩ }

/-- The setter a wheel calls: `startFlag ? event.startX(i) : event.endX(i)`. -/
def pick (s : NewEventState) (w : Wheel) (i : Nat) : Option EventModal :=
  match w with
  | .year => if s.startFlag then s.event.startYear z i else s.event.endYear z i
  | .month => some (if s.startFlag then s.event.startMonth z i else s.event.endMonth z i)
  | .day => some (if s.startFlag then s.event.startDay z i else s.event.endDay z i)
  | .hour => some (if s.startFlag then s.event.startHour i else s.event.endHour i)
  | .minute => some (if s.startFlag then s.event.startMinute i else s.event.endMinute i)
  | .apm => if s.startFlag then s.event.startAPM i else s.event.endAPM i

def onSelectedItemChanged (w : Wheel) (i : Nat) (s : NewEventState) :
    Option NewEventState :=
  if s.isAnimating then some s
  else (s.pick z w i).map fun e => { s with event := e }

/-- `controller[w].jumpToItem(p)`, with the report of the wheel. -/
def jumpToItem (w : Wheel) (p : Int) (s : NewEventState) : Option NewEventState :=
  if s.mounted w then
    if p = s.controller.item w then some s
    else onSelectedItemChanged z w (s.childIndex w p) (s.setItem w p)
  else some s

/-- `pickerAnimate()`. -/
def pickerAnimate (s : NewEventState) : Option NewEventState :=
  (Wheel.all.foldlM (fun s' w => jumpToItem z w (initItem z s.activeDate w) s')
    { s with isAnimating := true }).map fun s' => { s' with isAnimating := false }

/-- `startTrigger()`. -/
def startTrigger (s : NewEventState) : Option NewEventState :=
  let s₁ := if !s.endFlag && !s.startFlag then initController z { s with startFlag := true }
    else s
  pickerAnimate z
    { s₁ with startFlag := true, endFlag := false, event := s₁.event.startUpdate z }

/-- `endTrigger()`. -/
def endTrigger (s : NewEventState) : Option NewEventState :=
  let s₁ := if !s.endFlag && !s.startFlag then initController z { s with startFlag := false }
    else s
  pickerAnimate z
    { s₁ with startFlag := false, endFlag := true, event := s₁.event.endUpdate z }

/-- `pickerTrigger()`. -/
def pickerTrigger (s : NewEventState) : NewEventState :=
  { s with startFlag := false, endFlag := false }

/-- The next frame builds the wheels if the picker is visible. -/
def frame (s : NewEventState) : NewEventState :=
  { s with controller := { s.controller with attached := s.visible } }

/-! ## Steps -/

inductive Action where
  | startTap
  | endTap
  | confirm
  | turn (w : Wheel) (p : Int)
  | allday (on : Bool)
  | title (text : String)
  | location (text : String)
  | note (text : String)
  | type (i : Nat)
  | add
  | write (userId : String)
  deriving DecidableEq, Repr

/-- The positions the user can move a wheel to. -/
def canTurn (s : NewEventState) (w : Wheel) (p : Int) : Bool :=
  s.mounted w && p ≠ s.controller.item w && (w.looping || (0 ≤ p && p < s.children w))

/-- One interaction, and the frame after it. -/
def step (s : NewEventState) : Action → Option NewEventState
  | .startTap => if s.popped then none else (startTrigger z s).map frame
  | .endTap => if s.popped then none else (endTrigger z s).map frame
  | .confirm => if s.popped || !s.visible then none else some (frame (pickerTrigger s))
  | .turn w p =>
      if s.canTurn w p then
        (onSelectedItemChanged z w (s.childIndex w p) (s.setItem w p)).map frame
      else none
  | .allday on =>
      if s.popped || s.visible then none
      else some { s with event := { s.event with allday := on } }
  | .title text =>
      if s.popped then none else some { s with event := { s.event with title := text } }
  | .location text =>
      if s.popped then none else some { s with event := { s.event with location := text } }
  | .note text =>
      if s.popped then none else some { s with event := { s.event with note := text } }
  | .type i =>
      if s.popped then none
      else (typePicker i).map fun t => { s with event := { s.event with type := t } }
  | .add =>
      if s.popped then none
      else match validation s.event with
        | .error message => some { s with snackBar := s.snackBar ++ [message] }
        | .ok () => some { s with popped := true }
  | .write userId =>
      if s.popped && s.written.isNone then
        (addEvent userId s.event).map fun doc => { s with written := some doc }
      else none

/-! ## What a step does to the event -/

variable {z} {s s' : NewEventState}

@[simp] theorem mounted_setItem (w w' : Wheel) (p : Int) :
    (s.setItem w p).mounted w' = s.mounted w' := rfl

@[simp] theorem item_setItem (w w' : Wheel) (p : Int) :
    (s.setItem w p).controller.item w' = if w' = w then p else s.controller.item w' := rfl

theorem activeDate_eq : s.activeDate = s.event.instant s.side := by
  simp only [activeDate, side]
  cases s.startFlag <;> rfl

theorem jumpToItem_animating (h : s.isAnimating = true) (w : Wheel) (p : Int) :
    jumpToItem z w p s = some (if s.mounted w then s.setItem w p else s) := by
  simp only [jumpToItem]
  by_cases hm : s.mounted w = true
  · rw [if_pos hm, if_pos hm]
    by_cases hp : p = s.controller.item w
    · have hsame : (fun w' => if w' = w then p else s.controller.item w')
          = s.controller.item := by
        funext w'
        by_cases hw : w' = w
        · rw [if_pos hw, hp, hw]
        · rw [if_neg hw]
      rw [if_pos hp, setItem, hsame]
      rfl
    · have hset : (s.setItem w p).isAnimating = true := h
      rw [if_neg hp, onSelectedItemChanged, if_pos hset]
  · rw [if_neg hm, if_neg hm]

theorem foldlM_jumpToItem (f : Wheel → Int) :
    ∀ (l : List Wheel) (s : NewEventState), s.isAnimating = true →
      l.foldlM (fun s w => jumpToItem z w (f w) s) s = some (s.withItems fun w =>
        if w ∈ l ∧ s.mounted w = true then f w else s.controller.item w)
  | [], s, _ => by simp [withItems]
  | w :: l, s, h => by
      rw [List.foldlM_cons, jumpToItem_animating h]
      simp only [Option.bind_eq_bind, Option.bind_some]
      by_cases hm : s.mounted w = true
      · rw [if_pos hm, foldlM_jumpToItem f l (s.setItem w (f w)) h]
        refine congrArg (fun g => some (s.withItems g)) (funext fun w' => ?_)
        by_cases hw : w' = w
        · subst hw; simp [hm]
        · simp [hw]
      · rw [if_neg hm, foldlM_jumpToItem f l s h]
        refine congrArg (fun g => some (s.withItems g)) (funext fun w' => ?_)
        by_cases hw : w' = w
        · subst hw; simp [hm]
        · simp [hw]

/-- What `pickerAnimate` does: every built wheel is put on the item of the
active side, and no report reaches the event. -/
theorem pickerAnimate_eq (s : NewEventState) :
    pickerAnimate z s = some ({ s with isAnimating := false }.withItems fun w =>
      if s.mounted w = true then initItem z s.activeDate w else s.controller.item w) := by
  have hall : ∀ w, w ∈ Wheel.all := fun w => by cases w <;> decide
  simp only [pickerAnimate]
  rw [foldlM_jumpToItem _ _ _ rfl]
  simp only [hall, true_and, Option.map_some]
  rfl

/-! ## The triggers -/

/-- `startTrigger` and `endTrigger`, by side. -/
def trigger (z : Zone) (side : Side) (s : NewEventState) : Option NewEventState :=
  match side with
  | .start => startTrigger z s
  | .finish => endTrigger z s

/-- What a trigger does.  An open picker is moved to the corrected instant;
a closed one gets new controllers at the instant before the correction, and
the jumps do not reach them. -/
theorem trigger_eq (side : Side) (s : NewEventState) :
    trigger z side s = some { s with
      startFlag := side == .start
      endFlag := side == .finish
      isAnimating := false
      event := s.event.update z side
      controller :=
        if s.visible then
          ⟨fun w => if s.mounted w = true
              then initItem z ((s.event.update z side).instant side) w
              else s.controller.item w, s.controller.attached⟩
        else ⟨initItem z (s.event.instant side), false⟩ } := by
  have hallday := EventModal.allday_update z side s.event
  cases hstart : s.startFlag <;> cases hend : s.endFlag <;> cases side <;>
    simp only [trigger, startTrigger, endTrigger, hstart, hend, pickerAnimate_eq, visible,
      Bool.not_true, Bool.not_false, Bool.and_true, Bool.and_false, Bool.and_self,
      Bool.or_true, Bool.or_false, Bool.or_self, if_true, Bool.false_eq_true,
      if_false] <;>
    simp only [EventModal.update] at hallday ⊢ <;>
    simp only [mounted, hallday, initController, withItems, activeDate, Bool.false_and,
      Bool.false_eq_true, if_false, if_true] <;>
    rfl

/-! ## What holds between steps -/

/-- The action that opens the picker on a side. -/
def Action.tap : Side → Action
  | .start => .startTap
  | .finish => .endTap

/-- The state after a tap on a side and the frame that follows. -/
def triggered (z : Zone) (side : Side) (s : NewEventState) : NewEventState where
  event := s.event.update z side
  startFlag := side == .start
  endFlag := side == .finish
  isAnimating := false
  controller :=
    ⟨if s.visible then fun w => if s.mounted w = true
        then initItem z ((s.event.update z side).instant side) w
        else s.controller.item w
      else initItem z (s.event.instant side), true⟩
  dayCount := s.dayCount
  snackBar := s.snackBar
  popped := s.popped
  written := s.written

/-- The state after the report of a wheel. -/
def turned (w : Wheel) (p : Int) (e : EventModal) (s : NewEventState) : NewEventState :=
  frame { s.setItem w p with event := e }

/-- What a step can do. -/
inductive Stepped (z : Zone) (s : NewEventState) : Action → NewEventState → Prop
  | tap (side : Side) : s.popped = false → Stepped z s (.tap side) (triggered z side s)
  | confirm : s.popped = false → s.visible = true →
      Stepped z s .confirm (frame (pickerTrigger s))
  | turn (w : Wheel) (p : Int) (e : EventModal) : s.canTurn w p = true →
      s.pick z w (s.childIndex w p) = some e → Stepped z s (.turn w p) (turned w p e s)
  | edit {a : Action} {e : EventModal} : (∀ w p, a ≠ .turn w p) → (∀ u, a ≠ .write u) →
      s.popped = false → e.date = s.event.date → e.time = s.event.time →
      e.apm = s.event.apm → Stepped z s a { s with event := e }
  | refused (message : String) : s.popped = false → validation s.event = .error message →
      Stepped z s .add { s with snackBar := s.snackBar ++ [message] }
  | accepted : s.popped = false → validation s.event = .ok () →
      Stepped z s .add { s with popped := true }
  | write (userId : String) (doc : EventDoc) : s.popped = true →
      addEvent userId s.event = some doc →
      Stepped z s (.write userId) { s with written := some doc }

/-- Between steps no animation runs, the wheels are attached while the picker
is visible, at most one side is edited, and the AM/PM wheel shows a flag. -/
structure Settled (s : NewEventState) : Prop where
  calm : s.isAnimating = false
  attached : s.controller.attached = s.visible
  oneSide : (s.startFlag && s.endFlag) = false
  apmItem : s.controller.item .apm = 0 ∨ s.controller.item .apm = 1

@[simp] theorem item_turned (w w' : Wheel) (p : Int) (e : EventModal) :
    (turned w p e s).controller.item w' = if w' = w then p else s.controller.item w' := rfl

theorem step_tap (side : Side) :
    step z s (.tap side) = if s.popped then none else some (triggered z side s) := by
  have htrigger : (trigger z side s).map frame = some (triggered z side s) := by
    rw [trigger_eq, Option.map_some, triggered, frame]
    cases s.visible <;> cases side <;> rfl
  cases side <;> rw [← htrigger] <;> rfl

theorem step_turn (h : s.isAnimating = false) (w : Wheel) (p : Int) :
    step z s (.turn w p) = if s.canTurn w p then
      (s.pick z w (s.childIndex w p)).map fun e => turned w p e s else none := by
  have hset : ¬ (s.setItem w p).isAnimating = true := by
    rw [show (s.setItem w p).isAnimating = s.isAnimating from rfl, h]
    exact Bool.false_ne_true
  rw [step, onSelectedItemChanged, if_neg hset, Option.map_map]
  rfl

theorem step_cases {a : Action} (hs : s.Settled) (h : step z s a = some s') :
    Stepped z s a s' := by
  have htap : ∀ side, step z s (.tap side) = some s' → Stepped z s (.tap side) s' := by
    intro side h
    rw [step_tap] at h
    split at h
    · cases h
    · next hp =>
        cases h
        exact .tap side (Bool.eq_false_iff.mpr hp)
  cases a with
  | startTap => exact htap .start h
  | endTap => exact htap .finish h
  | confirm =>
      simp only [step] at h
      split at h
      · cases h
      · next hc =>
          cases h
          simp only [Bool.or_eq_true, not_or, Bool.not_eq_true, Bool.not_eq_false'] at hc
          exact .confirm hc.1 hc.2
  | turn w p =>
      rw [step_turn hs.calm] at h
      split at h
      · next hc =>
          obtain ⟨e, he, rfl⟩ := Option.map_eq_some_iff.mp h
          exact .turn w p e hc he
      · cases h
  | allday _ =>
      simp only [step] at h
      split at h
      · cases h
      · next hc =>
          cases h
          simp only [Bool.or_eq_true, not_or, Bool.not_eq_true] at hc
          exact .edit nofun nofun hc.1 rfl rfl rfl
  | title _ | location _ | note _ =>
      simp only [step] at h
      split at h
      · cases h
      · next hp =>
          cases h
          exact .edit nofun nofun (Bool.eq_false_iff.mpr hp) rfl rfl rfl
  | type i =>
      simp only [step] at h
      split at h
      · cases h
      · next hp =>
          obtain ⟨t, -, rfl⟩ := Option.map_eq_some_iff.mp h
          exact .edit nofun nofun (Bool.eq_false_iff.mpr hp) rfl rfl rfl
  | add =>
      simp only [step] at h
      split at h
      · cases h
      · next hp =>
          have hpopped := Bool.eq_false_iff.mpr hp
          split at h
          · next message hv => cases h; exact .refused message hpopped hv
          · next hv => cases h; exact .accepted hpopped hv
  | write userId =>
      simp only [step] at h
      split at h
      · next hc =>
          obtain ⟨doc, hdoc, rfl⟩ := Option.map_eq_some_iff.mp h
          exact .write userId doc (Bool.and_eq_true_iff.mp hc).1 hdoc
      · cases h

/-! ## The invariant of the picker -/

theorem initItem_apm (t : Int) : initItem z t .apm = 0 ∨ initItem z t .apm = 1 := by
  simp only [initItem]
  split
  · exact Or.inl rfl
  · exact Or.inr rfl

theorem canTurn_apm {p : Int} (h : s.canTurn .apm p = true) :
    p ≠ s.controller.item .apm ∧ (p = 0 ∨ p = 1) := by
  simp only [canTurn, Wheel.looping, Bool.false_or, Bool.and_eq_true, decide_eq_true_eq,
    children] at h
  obtain ⟨⟨-, hne⟩, h₀, h₁⟩ := h
  have h₂ : p < 2 := of_decide_eq_true h₁
  exact ⟨hne, by omega⟩

theorem Settled.opened (day now : Int) : (opened z day now).Settled :=
  ⟨rfl, rfl, rfl, initItem_apm _⟩

theorem Settled.step {a : Action} (hs : s.Settled) (h : step z s a = some s') :
    s'.Settled := by
  cases step_cases hs h with
  | tap side _ =>
      refine ⟨rfl, by cases side <;> rfl, by cases side <;> rfl, ?_⟩
      simp only [triggered]
      split
      · simp only
        split
        · exact initItem_apm _
        · exact hs.apmItem
      · exact initItem_apm _
  | confirm _ _ => exact ⟨hs.calm, rfl, rfl, hs.apmItem⟩
  | turn w p e hc _ =>
      refine ⟨hs.calm, rfl, hs.oneSide, ?_⟩
      by_cases hw : Wheel.apm = w
      · subst hw
        rw [item_turned, if_pos rfl]
        exact (canTurn_apm hc).2
      · rw [item_turned, if_neg hw]
        exact hs.apmItem
  | edit _ _ _ _ _ _ | refused _ _ _ | accepted _ _ | write _ _ _ _ =>
      exact ⟨hs.calm, hs.attached, hs.oneSide, hs.apmItem⟩

/-- Every state of the screen is settled. -/
theorem Settled.reachable {day now : Int}
    (h : Reachable (StepOf (NewEventState.step z)) (NewEventState.opened z day now) s) :
    s.Settled :=
  h.invariant (Settled.opened day now) fun _ _ _ hs hstep => hs.step hstep

end NewEventState

end CalendarApp
