/-
# `Event.Going` — what the calendar and an invitation say of a participant

Whether a user takes part in an event is shown in three places, each with a
query of its own.

    the event list, a day cell    events whose participants contain the user
    an answered invitation        `event.parti.contains(msg.idTo)`

On the server the participants are what every user did last to the event
(`Recorded`).  So in every reachable world the three places agree with each
other and with the user's own last press of Accept or Delete Event; in
particular an invitation that was accepted says Rejected once the user has
left the event, and one that was declined says Going after another one was
accepted.

`Invitation.build` is the whole card.  It reads the event from the store, and
whether it is answered from the bubble, which shows the message that it was
created for (`ChatView.createdFor`): the two buttons are there until one of them
is pressed, whatever has been answered on another device meanwhile.
-/
import CalendarApp.Chat.Times
import CalendarApp.Event.Participants
import CalendarApp.Event.Printed
import CalendarApp.Event.View

namespace CalendarApp

open Lib

namespace Invitation

/-- What the card of an invitation shows. -/
structure Card where
  /-- at the end of the row, not at its start -/
  atEnd : Bool
  typeText : String
  title : String
  start : String × String
  finish : String × String
  location : Option String
  timestamp : String
  /-- the two ticks: blue once the message is read -/
  ticks : Option Bool
  buttons : List String
  answer : Option String
  deriving DecidableEq, Repr

/-- `build` of the state, for the last snapshot of the event; there is no card
before the first one, nor where a lookup throws. -/
def build (z : Zone) (state : BubbleState) (snapshot : Option EventDoc) : Option Card := do
  let ⟨msg, isOwnMessage⟩ := state
  let document ← snapshot
  let event ← fromFirestore z msg.content document
  let typeText ← typelist[event.type.index]?
  let start ← timeBlock z event.startDate event.startTime
  let finish ← timeBlock z event.endDate event.endTime
  let isGoing := event.parti.contains msg.idTo
  return {
    atEnd := isOwnMessage
    typeText := typeText
    title := event.title
    start := start
    finish := finish
    location := if event.location ≠ "" then some ("at " ++ event.location) else none
    timestamp := timestamp z msg.time
    ticks := if isOwnMessage then some msg.isRead else none
    buttons := if isOwnMessage || msg.isReacted then [] else ["Decline", "Accept"]
    answer := if !isOwnMessage && msg.isReacted then
      some (if isGoing then "Going" else "Rejected") else none }

end Invitation

/-- The `events` collection as the screens get it. -/
def Store.documents (s : Store) : Documents := s.events.documents

/-- The query for the events of a user finds those he is a participant of. -/
theorem Store.mem_eventsOf_iff (s : Store) {E : String} {e : EventDoc}
    (he : s.events.lookup E = some e) (u : String) :
    (E, e) ∈ eventsOf s.documents u ↔ u ∈ e.participants := by
  rw [mem_eventsOf, Store.documents, Collection.mem_documents]
  exact and_iff_right he

/-- The user takes part in the event: he accepted last, or is the host and did
nothing. -/
def TakesPart (last : Option Bool) (host u : String) : Prop :=
  last = some true ∨ last = none ∧ u = host

/-- Where and how a screen shows the event `e`, filed under `E`, to a user of
whom `last` was applied last. -/
structure ShowsPart (z : Zone) (s : Store) (E : String) (e : EventDoc) (u : Uid)
    (last : Option Bool) : Prop where
  /-- the event list and the day cell, on the days of the event -/
  listed : ∀ d, ((E, e) ∈ listedDocuments (eventsOf s.documents u) d ↔
    (e.startDate ≤ d ∧ d ≤ e.endDate) ∧ TakesPart last e.host u)
  ringed : ∀ d, ((E, e) ∈ ringedDocuments (eventsOf s.documents u) d ↔
    (e.startDate ≤ d ∧ d ≤ e.endDate) ∧ TakesPart last e.host u)
  /-- a bubble with an invitation to it that was sent to the user, on a device of
  his -/
  card : ∀ b : BubbleState, b.msg.content = E → b.msg.idTo = u → b.isOwnMessage = false →
    ∃ card, Invitation.build z b (some e) = some card ∧
      (card.buttons ≠ [] ↔ b.msg.isReacted = false) ∧
      (card.answer = some "Going" ↔ b.msg.isReacted = true ∧ TakesPart last e.host u) ∧
      (card.answer = some "Rejected" ↔ b.msg.isReacted = true ∧ ¬ TakesPart last e.host u)

/-- The card of a legible event, in the parts that depend on the answer. -/
theorem build_card (z : Zone) (b : BubbleState) {e : EventDoc}
    (h : (typeOfText e.type).isSome = true) :
    ∃ card, Invitation.build z b (some e) = some card ∧
      card.buttons =
        (if b.isOwnMessage || b.msg.isReacted then [] else ["Decline", "Accept"]) ∧
      card.answer = if !b.isOwnMessage && b.msg.isReacted then
        some (if e.participants.contains b.msg.idTo then "Going" else "Rejected") else none := by
  obtain ⟨msg, own⟩ := b
  obtain ⟨type, htype⟩ := Option.isSome_iff_exists.mp h
  have hfetch : fromFirestore z msg.content e = some (.ofDoc z msg.content e type) := by
    rw [fromFirestore, htype, Option.map_some]
  have hparti : (FetchedEvent.ofDoc z msg.content e type).parti = e.participants := rfl
  have hblock : ∀ d t, ∃ block, Invitation.timeBlock z d t = some block := by
    intro d t
    obtain ⟨text, htext⟩ := Option.isSome_iff_exists.mp (dateParser2_isSome z d)
    exact ⟨_, by rw [Invitation.timeBlock, htext, Option.map_some]⟩
  obtain ⟨start, hstart⟩ := hblock (FetchedEvent.ofDoc z msg.content e type).startDate
    (FetchedEvent.ofDoc z msg.content e type).startTime
  obtain ⟨finish, hfinish⟩ := hblock (FetchedEvent.ofDoc z msg.content e type).endDate
    (FetchedEvent.ofDoc z msg.content e type).endTime
  have hindex : type.index < typelist.length := typeOfText_index htype
  have htext : typelist[(FetchedEvent.ofDoc z msg.content e type).type.index]? =
      some typelist[type.index] := List.getElem?_eq_getElem hindex
  simp only [Invitation.build, Option.bind_eq_bind, Option.bind_some, Option.pure_def, hfetch,
    htext, hstart, hfinish, hparti]
  exact ⟨_, rfl, rfl, rfl⟩

theorem showsPart {z : Zone} {s : Store} {E : String} {e : EventDoc} {u : Uid}
    {last : Option Bool} (he : s.events.lookup E = some e)
    (htype : (typeOfText e.type).isSome = true)
    (hpart : (u : String) ∈ e.participants ↔ TakesPart last e.host u) :
    ShowsPart z s E e u last := by
  have hmem : (E, e) ∈ eventsOf s.documents u ↔ TakesPart last e.host u :=
    (s.mem_eventsOf_iff he u).trans hpart
  refine ⟨fun d => ?_, fun d => ?_, ?_⟩
  · rw [mem_listedDocuments, hmem]
    exact and_comm
  · rw [mem_ringedDocuments, hmem]
    exact and_comm
  · intro b _ hto hown
    obtain ⟨card, hcard, hbuttons, hanswer⟩ := build_card z b htype
    rw [hto, hown] at hanswer
    rw [hown] at hbuttons
    refine ⟨card, hcard, ?_, ?_, ?_⟩
    · rw [hbuttons]
      cases b.msg.isReacted <;> simp
    · rw [hanswer, ← hpart]
      cases b.msg.isReacted <;> simp
    · rw [hanswer, ← hpart]
      cases b.msg.isReacted <;> simp

/-! ## Every stored event can be read -/

namespace World

variable {hashCode : String → Int} {user : Nat → Uid} {w w' : World} {a : Action} {d : Nat}
  {r : Request}

/-- Every event, on the server or on its way there, has the property. -/
structure EventsAre (P : EventDoc → Prop) (w : World) : Prop where
  stored : ∀ E e, w.store.events.lookup E = some e → P e
  queued : ∀ d e, .addEvent e ∈ w.queue d → P e

section EventsAre

variable {P : EventDoc → Prop}

theorem EventsAre.start (now : Int) : (World.start now).EventsAre P where
  stored _ _ he := nomatch he
  queued _ _ hr := nomatch hr

theorem EventsAre.delivered {newId : String} {q : List Request} {store : Store}
    (hset : ∀ e u joins, P e → P (e.set u joins)) (hP : w.EventsAre P) (hq : w.queue d = r :: q)
    (h : w.store.Applied newId r store) : (w.delivered d r store).EventsAre P where
  stored E e' he' := by
    rcases Store.events_apply h E with ⟨-, hsame⟩ | ⟨e, rfl, -, hnew⟩ |
      ⟨u, joins, e, -, hold, hnew⟩
    · exact hP.stored E e' (hsame ▸ he')
    · obtain rfl := Option.some.inj (hnew.symm.trans he')
      exact hP.queued d e (hq ▸ List.mem_cons_self)
    · obtain rfl := Option.some.inj (hnew.symm.trans he')
      exact hset e u joins (hP.stored E e hold)
  queued e _ hr := hP.queued e _ (mem_of_mem_pop hr)

/-- A property of all events is kept if it does not depend on the participants
and what `addEvent` writes has it. -/
theorem EventsAre.step (hset : ∀ e u joins, P e → P (e.set u joins))
    (hadd : ∀ d event e, a = .act d (.createEvent event) → addEvent (user d) event = some e → P e)
    (hP : w.EventsAre P) (h : w.step hashCode user a = some w') : w'.EventsAre P := by
  cases stepped_of_step h with
  | act d c rs hrs =>
      refine ⟨hP.stored, fun e document hr => ?_⟩
      rcases mem_send.mp hr with hold | ⟨-, hnew⟩
      · exact hP.queued e document hold
      · cases sent_of_requests hrs hnew with
        | addEvent event document hc hdoc => exact hadd d event document (hc ▸ rfl) hdoc
  | deliver d newId r q store hq happ => exact hP.delivered hset hq happ
  | fail d r q hq => exact ⟨hP.stored, fun e _ hr => hP.queued e _ (mem_of_mem_pop hr)⟩

end EventsAre

/-- Every event has a type that the screens can read. -/
abbrev Legible (w : World) : Prop := w.EventsAre fun e => (typeOfText e.type).isSome = true

theorem typeOfText_addEvent {host : String} {event : EventModal} {e : EventDoc}
    (h : addEvent host event = some e) : (typeOfText e.type).isSome = true := by
  obtain ⟨text, htext, rfl⟩ := Option.map_eq_some_iff.mp h
  obtain ⟨text', htext', htype⟩ := typeOfText_typeText (List.getElem?_eq_some_iff.mp htext).1
  obtain rfl := Option.some.inj (htext.symm.trans htext')
  exact Option.isSome_of_eq_some htype

theorem legible_step (hL : w.Legible) (h : w.step hashCode user a = some w') : w'.Legible := by
  refine hL.step (fun e u joins he => ?_) (fun _ _ _ _ => typeOfText_addEvent) h
  have hkept : (e.set u joins).type = e.type := by cases joins <;> rfl
  rwa [hkept]

theorem recorded_legible {now : Int} {tr : List (Action × World)}
    (hrun : Run (StepOf (step hashCode user)) (World.start now) tr) :
    (final (World.start now) tr).Recorded user ∧ (final (World.start now) tr).Legible := by
  have hall := Reachable.invariant
    (I := fun w : World => w.Honest hashCode user ∧ w.Recorded user ∧ w.Legible)
    ⟨Honest.start now, Recorded.start now, EventsAre.start now⟩
    (fun w a w' hI h => ⟨hI.1.step h, hI.2.1.step hI.1 h, legible_step hI.2.2 h⟩) ⟨tr, hrun, rfl⟩
  exact hall.2

/-- In every reachable world the event list, the day cells and the answered
invitations of every user agree: they show him as a participant exactly when
he accepted the event last, or is its host and has neither left nor accepted
it.  In a room that is open an invitation counts as answered if it was so in
the snapshot that its bubble was created for, or was answered by a button of
the bubble since. -/
theorem parts_shown (hashCode : String → Int) (user : Nat → Uid) (now : Int) (z : Zone)
    {tr : List (Action × World)} (hrun : Run (StepOf (step hashCode user)) (start now) tr)
    (id : String) {room : List (ChatView.Action × ChatView)}
    (hroom : Run (StepOf ChatView.step) (ChatView.opened id) room) :
    (∀ E e, (final (start now) tr).store.events.lookup E = some e → ∀ u : Uid,
      ShowsPart z (final (start now) tr).store E e u
        ((final (start now) tr).ownLast user E u)) ∧
      ∀ i b, (final (ChatView.opened id) room).bubbles[i]? = some b →
        ChatView.CreatedFor (ChatView.opened id) i b room := by
  obtain ⟨hR, hL⟩ := recorded_legible hrun
  refine ⟨fun E e he u => ?_, ChatView.createdFor id hroom⟩
  exact showsPart he (hL.stored E e he) ((hR.written E e he).mem_iff u)

/-- The invitation of the first user to the second, before it is answered. -/
def firstInvitation : MsgDoc where
  idFrom := firstUid
  idTo := thirdUid
  timestamp := 1
  content := "e"
  type := 1
  isRead := true
  isReacted := some false

/-- The event of the first user, in which nobody else takes part. -/
def leftEvent : EventDoc :=
  EventDoc.ofModal (firstUid : String)
    (EventModal.ofDay (Zone.fixed 0) 1556668800000 1556713800000) "Todo"

/-- The second user accepts the invitation and leaves: a bubble that is created
then says Rejected, although he pressed Accept.  On another device of his the
room has been open all the time, and the bubble there still has its buttons. -/
theorem parts_shown_leave : ∃ (tr : List (Action × World))
    (room : List (ChatView.Action × ChatView)),
    (final (start 0) tr).store.events.lookup "e" = some leftEvent ∧
      ((final (start 0) tr).store.messages (chatId oneAtATime firstUid thirdUid)).lookup "m" =
        some firstInvitation.reacted ∧
      (Invitation.build (Zone.fixed 0)
        ⟨MsgModal.fromFirestore "m" firstInvitation.reacted, false⟩ (some leftEvent)).bind
          Invitation.Card.answer = some "Rejected" ∧
      (final (ChatView.opened (thirdUid : String)) room).bubbles.map (fun b =>
        (Invitation.build (Zone.fixed 0) b.state (some leftEvent)).map
          Invitation.Card.buttons) = [some ["Decline", "Accept"]] ∧
      ShowsPart (Zone.fixed 0) (final (start 0) tr).store "e" leftEvent thirdUid
        ((final (start 0) tr).ownLast twoUsers "e" thirdUid) ∧
      ∀ i b, (final (ChatView.opened (thirdUid : String)) room).bubbles[i]? = some b →
        ChatView.CreatedFor (ChatView.opened (thirdUid : String)) i b room := by
  obtain ⟨tr, -, hrun, hevent, hmessage⟩ := exists_run
    (f := step oneAtATime twoUsers) (s := start 0)
    (P := fun tr => (final (start 0) tr).store.events.lookup "e" = some leftEvent ∧
      ((final (start 0) tr).store.messages (chatId oneAtATime firstUid thirdUid)).lookup "m" =
        some firstInvitation.reacted)
    [.act 0 (.signUp ""), .act 1 (.signUp ""), .deliver 0 "", .deliver 1 "",
      .act 0 (.createEvent (EventModal.ofDay (Zone.fixed 0) 1556668800000 1556713800000)),
      .deliver 0 "e", .act 0 (.invite thirdUid "e" 1), .deliver 0 "m", .deliver 0 "",
      .act 1 (.receive firstUid ["m"]), .act 1 (.react firstUid "m" true), .act 1 (.leave "e"),
      .deliver 1 "", .deliver 1 "", .deliver 1 "", .deliver 1 ""]
    (by decide +kernel)
  obtain ⟨room, -, hroom, hbuttons⟩ := exists_run
    (f := ChatView.step) (s := ChatView.opened (thirdUid : String))
    (P := fun room => (final (ChatView.opened (thirdUid : String)) room).bubbles.map (fun b =>
      (Invitation.build (Zone.fixed 0) b.state (some leftEvent)).map Invitation.Card.buttons) =
        [some ["Decline", "Accept"]])
    [.snapshot [("m", firstInvitation)], .snapshot [("m", firstInvitation.reacted)]]
    (by decide +kernel)
  obtain ⟨hparts, hlife⟩ :=
    parts_shown oneAtATime twoUsers 0 (Zone.fixed 0) hrun (thirdUid : String) hroom
  exact ⟨tr, room, hevent, hmessage, by decide +kernel, hbuttons, hparts "e" leftEvent hevent _,
    hlife⟩

end World

end CalendarApp
