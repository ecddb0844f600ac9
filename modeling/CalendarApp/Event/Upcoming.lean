/-
# `Event.Upcoming` — the next event, on the user's screen

The card of the user's screen asks the server for the events that the user
takes part in and that start at the time of its build or later, in the order
of their start.

    no document     You have no event coming
    documents[0]    when it starts, its title and its note

In every reachable world it therefore shows the one event that starts next
among those the user accepted last, or hosts and did nothing to
(`upcoming_next`).  While the documents stay as they are the card keeps an
event until it starts, and goes on to one that is not earlier
(`IsNext.later`).
-/
import CalendarApp.Event.Going
import CalendarApp.Lib.Query

namespace CalendarApp

open Lib

namespace UserScreen

/-- The documents of the card's stream, when it is built at `now`. -/
def comingDocuments (documents : Documents) (userId : String) (now : Int) : Documents :=
  Query.orderBy EventDoc.startAt
    ((eventsOf documents userId).filter fun p => now ≤ p.2.startAt)

/-- What the card shows. -/
inductive Upcoming where
  | nothing
  | event (color : SampleColor) (texts : String × String × String)
  deriving DecidableEq, Repr

/-- The column of a document: `eventDetail` of the event made of it. -/
def column (z : Zone) (documentID : String) (document : EventDoc) : Option Upcoming := do
  let event ← fromFirestore z documentID document
  let color ← typecolor[event.type.index]?
  let texts ← eventDetail z event.toEventFields
  return .event color texts

/-- The builder of the card, for the documents of its snapshot. -/
def build (z : Zone) : Documents → Option Upcoming
  | [] => some .nothing
  | p :: _ => column z p.1 p.2

end UserScreen

/-- The user takes part in the event `e`, filed under `E`, which starts at
`now` or later. -/
def IsComing (s : Store) (last : String → Option Bool) (u : String) (now : Int) (E : String)
    (e : EventDoc) : Prop :=
  s.events.lookup E = some e ∧ TakesPart (last E) e.host u ∧ now ≤ e.startAt

/-- It starts next; of events that start together it has the least id. -/
structure IsNext (s : Store) (last : String → Option Bool) (u : String) (now : Int) (E : String)
    (e : EventDoc) : Prop where
  coming : IsComing s last u now E e
  first : ∀ E' e', IsComing s last u now E' e' →
    e.startAt < e'.startAt ∨ e.startAt = e'.startAt ∧ E ≤ E'

/-- What the card of the user shows at `now`: the next event, or nothing. -/
structure ShowsNext (z : Zone) (s : Store) (last : String → Option Bool) (u : String) (now : Int) :
    Prop where
  card : ∃ card, UserScreen.build z (UserScreen.comingDocuments s.documents u now) = some card ∧
    (card = .nothing ↔ ¬ ∃ E e, IsComing s last u now E e) ∧
    ∀ E e, IsNext s last u now E e → UserScreen.column z E e = some card
  next : (∃ E e, IsComing s last u now E e) → ∃ E e, IsNext s last u now E e
  /-- as long as the documents stay, the card keeps an event until it starts,
  and goes on to one that does not start earlier -/
  later : ∀ E e now' E' e', IsNext s last u now E e → now ≤ now' → IsNext s last u now' E' e' →
    e.startAt ≤ e'.startAt ∧ (now' ≤ e.startAt → E = E' ∧ e = e')

variable {z : Zone} {s : Store} {last : String → Option Bool} {u E E' : String} {now now' : Int}
  {e e' : EventDoc}

/-! ## As time passes -/

/-- The next event is the next one until it starts. -/
theorem IsNext.stays (h : IsNext s last u now E e) (hnow : now ≤ now') (hstart : now' ≤ e.startAt) :
    IsNext s last u now' E e where
  coming := ⟨h.coming.1, h.coming.2.1, hstart⟩
  first E' e' h' := h.first E' e' ⟨h'.1, h'.2.1, hnow.trans h'.2.2⟩

theorem IsNext.unique (h : IsNext s last u now E e) (h' : IsNext s last u now E' e') :
    E = E' ∧ e = e' := by
  have hid : E = E' := by
    rcases h.first E' e' h'.coming with hlt | ⟨heq, hle⟩
    · rcases h'.first E e h.coming with hlt' | ⟨heq', -⟩
      · exact absurd hlt' hlt.asymm
      · exact absurd heq' hlt.ne'
    · rcases h'.first E e h.coming with hlt' | ⟨-, hle'⟩
      · exact absurd heq.symm hlt'.ne
      · exact le_antisymm hle hle'
  subst hid
  exact ⟨rfl, Option.some.inj (h.coming.1.symm.trans h'.coming.1)⟩

/-- At a later time the next event is the same one, or it has started and the
next one is not earlier. -/
theorem IsNext.later (h : IsNext s last u now E e) (hnow : now ≤ now')
    (h' : IsNext s last u now' E' e') :
    e.startAt ≤ e'.startAt ∧ (now' ≤ e.startAt → E = E' ∧ e = e') := by
  refine ⟨?_, fun hstart => (h.stays hnow hstart).unique h'⟩
  rcases h.first E' e' ⟨h'.coming.1, h'.coming.2.1, hnow.trans h'.coming.2.2⟩ with
    hlt | ⟨heq, -⟩
  · exact hlt.le
  · exact heq.le

/-! ## The card -/

theorem column_isSome (z : Zone) (E : String) {e : EventDoc}
    (h : (typeOfText e.type).isSome = true) :
    ∃ color texts, UserScreen.column z E e = some (.event color texts) := by
  obtain ⟨type, htype⟩ := Option.isSome_iff_exists.mp h
  have hfetch : fromFirestore z E e = some (.ofDoc z E e type) := by
    rw [fromFirestore, htype, Option.map_some]
  have hindex : type.index < typecolor.length := typeOfText_index htype
  have hcolor : typecolor[(FetchedEvent.ofDoc z E e type).type.index]? =
      some typecolor[type.index] := List.getElem?_eq_getElem hindex
  obtain ⟨text, htext⟩ := Option.isSome_iff_exists.mp
    (dateParser_isSome z (FetchedEvent.ofDoc z E e type).startDate)
  have htexts : ∃ texts, UserScreen.eventDetail z (FetchedEvent.ofDoc z E e type).toEventFields =
      some texts := ⟨_, by rw [UserScreen.eventDetail, htext, Option.map_some]⟩
  obtain ⟨texts, htexts⟩ := htexts
  refine ⟨typecolor[type.index], texts, ?_⟩
  simp only [UserScreen.column, Option.bind_eq_bind, Option.bind_some, Option.pure_def, hfetch,
    hcolor, htexts]

section Card

variable (hpart : ∀ E e, s.events.lookup E = some e →
  (u ∈ e.participants ↔ TakesPart (last E) e.host u))
include hpart

theorem mem_coming {p : String × EventDoc} :
    p ∈ (eventsOf s.documents u).filter (fun p => now ≤ p.2.startAt) ↔
      IsComing s last u now p.1 p.2 := by
  rw [List.mem_filter, mem_eventsOf, Store.documents, Collection.mem_documents, decide_eq_true_eq,
    IsComing, and_assoc]
  exact and_congr_right fun he => and_congr_left fun _ => hpart p.1 p.2 he

/-- The first document of the stream is the next event. -/
theorem head?_comingDocuments :
    (UserScreen.comingDocuments s.documents u now).head? = some (E, e) ↔
      IsNext s last u now E e := by
  have hids : (((eventsOf s.documents u).filter fun p => now ≤ p.2.startAt).map Prod.fst).Nodup :=
    (Collection.nodup_documents s.events).sublist
      ((List.filter_sublist.trans List.filter_sublist).map _)
  rw [UserScreen.comingDocuments, Query.head?_orderBy hids, mem_coming hpart]
  constructor
  · rintro ⟨hcoming, hall⟩
    exact ⟨hcoming, fun E' e' h' => hall (E', e') ((mem_coming hpart).mpr h')⟩
  · rintro ⟨hcoming, hfirst⟩
    exact ⟨hcoming, fun p hp => hfirst p.1 p.2 ((mem_coming hpart).mp hp)⟩

theorem comingDocuments_eq_nil :
    UserScreen.comingDocuments s.documents u now = [] ↔ ¬ ∃ E e, IsComing s last u now E e := by
  rw [← List.head?_eq_none_iff, UserScreen.comingDocuments, Query.head?_orderBy_eq_none,
    List.eq_nil_iff_forall_not_mem]
  constructor
  · rintro h ⟨E, e, hcoming⟩
    exact h (E, e) ((mem_coming hpart).mpr hcoming)
  · intro h p hp
    exact h ⟨p.1, p.2, (mem_coming hpart).mp hp⟩

theorem showsNext (z : Zone)
    (htypes : ∀ E e, s.events.lookup E = some e → (typeOfText e.type).isSome = true) :
    ShowsNext z s last u now := by
  cases hdocs : UserScreen.comingDocuments s.documents u now with
  | nil =>
      have hnone := (comingDocuments_eq_nil hpart).mp hdocs
      refine ⟨⟨.nothing, by rw [hdocs, UserScreen.build], iff_of_true rfl hnone, ?_⟩,
        fun h => absurd h hnone, fun _ _ _ _ _ h hnow h' => h.later hnow h'⟩
      intro E e h
      exact absurd ⟨E, e, h.coming⟩ hnone
  | cons p rest =>
      have hnext : IsNext s last u now p.1 p.2 :=
        (head?_comingDocuments hpart).mp (by rw [hdocs, List.head?_cons])
      obtain ⟨color, texts, hcolumn⟩ := column_isSome z p.1 (htypes p.1 p.2 hnext.coming.1)
      refine ⟨⟨.event color texts, by rw [hdocs, UserScreen.build, hcolumn], ?_, ?_⟩,
        fun _ => ⟨p.1, p.2, hnext⟩, fun _ _ _ _ _ h hnow h' => h.later hnow h'⟩
      · exact iff_of_false nofun (not_not_intro ⟨p.1, p.2, hnext.coming⟩)
      · intro E e h
        have hhead := (head?_comingDocuments hpart).mpr h
        rw [hdocs, List.head?_cons, Option.some.injEq] at hhead
        rw [← hcolumn, hhead]

end Card

namespace World

/-- In every reachable world the card of every user, built at any time, shows
the event that starts next among those he accepted last, or hosts and neither
accepted nor left; and that there is none exactly when there is none. -/
theorem upcoming_next (hashCode : String → Int) (user : Nat → Uid) (start now : Int) (z : Zone)
    {tr : List (Action × World)} (hrun : Run (StepOf (step hashCode user)) (World.start start) tr)
    (u : Uid) :
    ShowsNext z (final (World.start start) tr).store
      (fun E => (final (World.start start) tr).ownLast user E u) u now := by
  obtain ⟨hR, hL⟩ := recorded_legible hrun
  exact showsNext (fun E e he => (hR.written E e he).mem_iff u) z hL.stored

/-- A user has an event on the first and one on the second of May, and leaves
the first. -/
theorem upcoming_next_second : ∃ tr : List (Action × World),
    (final (start 0) tr).store.events.keys.length = 2 ∧
      UserScreen.build (Zone.fixed 0) (UserScreen.comingDocuments
        (final (start 0) tr).store.documents firstUid 1556668800000) =
          some (.event .grey ("Thu, 2 May 2019 12:30 PM", "", "Note: ")) ∧
      ShowsNext (Zone.fixed 0) (final (start 0) tr).store
        (fun E => (final (start 0) tr).ownLast twoUsers E firstUid) firstUid 1556668800000 := by
  obtain ⟨tr, -, hrun, hread⟩ := exists_run
    (f := step oneAtATime twoUsers) (s := start 0)
    (P := fun tr => (final (start 0) tr).store.events.keys.length = 2 ∧
      UserScreen.build (Zone.fixed 0) (UserScreen.comingDocuments
        (final (start 0) tr).store.documents firstUid 1556668800000) =
          some (.event .grey ("Thu, 2 May 2019 12:30 PM", "", "Note: ")))
    [.act 0 (.signUp ""), .deliver 0 "",
      .act 0 (.createEvent (EventModal.ofDay (Zone.fixed 0) 1556668800000 1556713800000)),
      .act 0 (.createEvent (EventModal.ofDay (Zone.fixed 0) 1556755200000 1556713800000)),
      .act 0 (.leave "e"), .deliver 0 "e", .deliver 0 "f", .deliver 0 ""]
    (by decide +kernel)
  exact ⟨tr, hread.1, hread.2,
    upcoming_next oneAtATime twoUsers 0 1556668800000 (Zone.fixed 0) hrun firstUid⟩

end World

end CalendarApp
