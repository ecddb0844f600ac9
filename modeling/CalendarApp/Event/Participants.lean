/-
# `Event.Participants` — who takes part in an event

Three screens change the participants of an event.

    addEvent                  the new list [host]
    handleButton(true)        arrayUnion of the user who presses Accept
    Delete Event              arrayRemove of the user who presses it

The server applies the last two to the list it holds, so they do not
overwrite each other, and each names the user of the device it comes from.
The list is then determined by what every user did last to the event: who
accepted is in it, who pressed Delete Event is not, and who did neither is in
it as the host (`participants_ownLast`).
-/
import CalendarApp.Server.World

namespace CalendarApp

open Lib

/-- The user a request lets join (`true`) or leave the event `E`. -/
def Request.eventOp (E : String) : Request → Option (String × Bool)
  | .write (.joinEvent eventId userId) => if eventId = E then some (userId, true) else none
  | .leaveEvent eventId userId => if eventId = E then some (userId, false) else none
  | _ => none

/-- The event after the user has joined or left. -/
def EventDoc.set (e : EventDoc) (u : String) (joins : Bool) : EventDoc :=
  if joins then e.join u else e.leave u

theorem EventDoc.host_set (e : EventDoc) (u : String) (joins : Bool) :
    (e.set u joins).host = e.host := by
  cases joins <;> rfl

theorem EventDoc.nodup_set {e : EventDoc} (h : e.participants.Nodup) (u : String)
    (joins : Bool) : (e.set u joins).participants.Nodup := by
  cases joins with
  | true => exact nodup_arrayUnion h u
  | false => exact nodup_arrayRemove h u

theorem EventDoc.mem_set {e : EventDoc} {u v : String} {joins : Bool} :
    v ∈ (e.set u joins).participants ↔
      if v = u then joins = true else v ∈ e.participants := by
  by_cases hv : v = u
  · rw [if_pos hv]
    cases joins with
    | true => exact iff_of_true (mem_arrayUnion.mpr (Or.inr hv)) rfl
    | false => exact iff_of_false (fun h => (mem_arrayRemove.mp h).2 hv) nofun
  · rw [if_neg hv]
    cases joins with
    | true =>
        refine mem_arrayUnion.trans ⟨fun h => ?_, Or.inl⟩
        exact h.resolve_right hv
    | false => exact mem_arrayRemove.trans (and_iff_left hv)

theorem Store.events_apply {newId : String} {s s' : Store} {r : Request}
    (h : s.Applied newId r s') (E : String) :
    (r.eventOp E = none ∧ s'.events.lookup E = s.events.lookup E) ∨
      (∃ e, r = .addEvent e ∧ s.events.lookup E = none ∧ s'.events.lookup E = some e) ∨
      ∃ u joins e, r.eventOp E = some (u, joins) ∧ s.events.lookup E = some e ∧
        s'.events.lookup E = some (e.set u joins) := by
  cases h with
  | joinEvent E₁ u e he =>
      simp only [Request.eventOp, Store.setEvents, Collection.lookup_insert_eq]
      by_cases hE : E = E₁
      · subst hE
        exact Or.inr (Or.inr ⟨u, true, e, if_pos rfl, he, if_pos rfl⟩)
      · exact Or.inl ⟨if_neg (Ne.symm hE), if_neg hE⟩
  | leaveEvent E₁ u e he =>
      simp only [Request.eventOp, Store.setEvents, Collection.lookup_insert_eq]
      by_cases hE : E = E₁
      · subst hE
        exact Or.inr (Or.inr ⟨u, false, e, if_pos rfl, he, if_pos rfl⟩)
      · exact Or.inl ⟨if_neg (Ne.symm hE), if_neg hE⟩
  | addEvent e hnew =>
      simp only [Store.setEvents, Collection.lookup_insert_eq]
      by_cases hE : E = newId
      · subst hE
        exact Or.inr (Or.inl ⟨e, rfl, hnew, if_pos rfl⟩)
      · exact Or.inl ⟨rfl, if_neg hE⟩
  | addMessage _ _ _ => exact Or.inl ⟨rfl, rfl⟩
  | setRoom _ _ _ => exact Or.inl ⟨rfl, rfl⟩
  | setRead _ _ _ _ => exact Or.inl ⟨rfl, rfl⟩
  | setReacted _ _ _ _ => exact Or.inl ⟨rfl, rfl⟩
  | setUser _ => exact Or.inl ⟨rfl, rfl⟩

namespace World

variable (hashCode : String → Int) (user : Nat → Uid)

/-- The last operation on the event `E` that was applied for `u`: `true` for
an Accept. -/
def ownLast (w : World) (E : String) (u : Uid) : Option Bool :=
  w.applied.findSome? fun p => if user p.1 = u then (p.2.eventOp E).map Prod.snd else none

/-- The participants of an event are those who accepted last, and the host if
he did nothing. -/
structure Participation (last : Uid → Option Bool) (e : EventDoc) : Prop where
  nodup : e.participants.Nodup
  mem_iff : ∀ u : Uid, (u : String) ∈ e.participants ↔
    last u = some true ∨ last u = none ∧ (u : String) = e.host

/-- Nobody changes the part another user takes in an event. -/
def OwnOnly (w : World) (a : Action) (w' : World) : Prop :=
  ∀ E e, w.store.events.lookup E = some e →
    ∃ e', w'.store.events.lookup E = some e' ∧ e'.host = e.host ∧
      ∀ u : Uid, ((u : String) ∈ e'.participants ↔ (u : String) ∈ e.participants) ∨
        ∃ d newId r, a = .deliver d newId ∧ (w.queue d).head? = some r ∧
          (r.eventOp E).isSome = true ∧ user d = u

variable {hashCode user} {w w' : World} {a : Action} {d : Nat} {r : Request} {store : Store}

theorem ownLast_delivered (E : String) (u : Uid) :
    (w.delivered d r store).ownLast user E u =
      if user d = u then ((r.eventOp E).map Prod.snd).or (w.ownLast user E u)
      else w.ownLast user E u := by
  by_cases hu : user d = u
  · simp only [ownLast, delivered, List.findSome?_cons, if_pos hu]
    cases r.eventOp E <;> rfl
  · simp only [ownLast, delivered, List.findSome?_cons, if_neg hu]

theorem ownLast_of_no_op {E : String} (hop : r.eventOp E = none) :
    (w.delivered d r store).ownLast user E = w.ownLast user E := by
  funext u
  rw [ownLast_delivered, hop]
  exact ite_self _

/-- An operation on an event comes from a device of the user it names. -/
theorem Honest.eventOp (hI : w.Honest hashCode user) {q : List Request} (hq : w.queue d = r :: q)
    {E u : String} {joins : Bool} (h : r.eventOp E = some (u, joins)) : u = user d := by
  have hbelongs := hI.queued d r (hq ▸ List.mem_cons_self)
  cases r with
  | write x =>
      cases x with
      | joinEvent E₁ u₁ =>
          simp only [Request.eventOp] at h
          split at h <;> cases h
          exact hbelongs
      | addMessage _ _ => cases h
      | setRoom _ _ _ => cases h
      | setRead _ _ => cases h
      | setReacted _ _ => cases h
  | leaveEvent E₁ u₁ =>
      simp only [Request.eventOp] at h
      split at h <;> cases h
      exact hbelongs
  | addEvent _ => cases h
  | setUser _ => cases h

/-- What the participants of all events are, with the events nobody has
written yet. -/
structure Recorded (user : Nat → Uid) (w : World) : Prop where
  unwritten : ∀ E, w.store.events.lookup E = none → ∀ u, w.ownLast user E u = none
  written : ∀ E e, w.store.events.lookup E = some e → Participation (w.ownLast user E) e

theorem Recorded.start (now : Int) : (World.start now).Recorded user where
  unwritten _ _ _ := rfl
  written _ _ he := nomatch he

theorem Participation.set {last : Uid → Option Bool} {e : EventDoc} (h : Participation last e)
    (u : Uid) (joins : Bool) :
    Participation (fun v => if u = v then some joins else last v) (e.set u joins) where
  nodup := EventDoc.nodup_set h.nodup u joins
  mem_iff v := by
    rw [EventDoc.mem_set, EventDoc.host_set]
    by_cases hu : u = v
    · subst hu
      rw [if_pos rfl, if_pos rfl]
      cases joins <;> simp
    · rw [if_neg fun heq => hu (Subtype.ext heq).symm, if_neg hu]
      exact h.mem_iff v

/-- In a new event the host takes part. -/
theorem Participation.addEvent {last : Uid → Option Bool} {e : EventDoc}
    (hlast : ∀ u, last u = none) (hparticipants : e.participants = [e.host]) :
    Participation last e where
  nodup := hparticipants ▸ List.nodup_singleton _
  mem_iff u := by
    rw [hlast u, hparticipants, List.mem_singleton]
    exact ⟨fun hu => Or.inr ⟨rfl, hu⟩, fun hu => (hu.resolve_left nofun).2⟩

theorem Recorded.delivered {newId : String} {q : List Request} (hI : w.Honest hashCode user)
    (hR : w.Recorded user) (hq : w.queue d = r :: q) (h : w.store.Applied newId r store) :
    (w.delivered d r store).Recorded user where
  unwritten E hnone u := by
    rcases Store.events_apply h E with ⟨hop, hsame⟩ | ⟨e, -, -, hnew⟩ | ⟨v, joins, e, -, -, hnew⟩
    · rw [ownLast_of_no_op hop, hR.unwritten E (hsame ▸ hnone) u]
    · cases hnone.symm.trans hnew
    · cases hnone.symm.trans hnew
  written E e' he' := by
    rcases Store.events_apply h E with ⟨hop, hsame⟩ | ⟨e, rfl, hnone, hnew⟩ |
      ⟨v, joins, e, hop, hold, hnew⟩
    · rw [ownLast_of_no_op hop]
      exact hR.written E e' (hsame ▸ he')
    · obtain rfl := Option.some.inj (hnew.symm.trans he')
      obtain ⟨hhost, hparticipants⟩ := hI.queued d _ (hq ▸ List.mem_cons_self)
      rw [ownLast_of_no_op rfl]
      exact .addEvent (hR.unwritten E hnone) (by rw [hparticipants, hhost])
    · obtain rfl := Option.some.inj (hnew.symm.trans he')
      obtain rfl := hI.eventOp hq hop
      have hlast : (w.delivered d r store).ownLast user E =
          fun u => if user d = u then some joins else w.ownLast user E u := by
        funext u
        rw [ownLast_delivered, hop]
        rfl
      rw [hlast]
      exact (hR.written E e hold).set (user d) joins

theorem Recorded.step (hI : w.Honest hashCode user) (hR : w.Recorded user)
    (h : w.step hashCode user a = some w') : w'.Recorded user := by
  cases stepped_of_step h with
  | act d c rs hrs => exact ⟨hR.unwritten, hR.written⟩
  | deliver d newId r q store hq happ => exact hR.delivered hI hq happ
  | fail d r q hq => exact ⟨hR.unwritten, hR.written⟩

theorem step_ownOnly (hI : w.Honest hashCode user) (h : w.step hashCode user a = some w') :
    OwnOnly user w a w' := by
  intro E e he
  cases stepped_of_step h with
  | act d c rs hrs => exact ⟨e, he, rfl, fun u => Or.inl Iff.rfl⟩
  | fail d r q hq => exact ⟨e, he, rfl, fun u => Or.inl Iff.rfl⟩
  | deliver d newId r q store hq happ =>
      rcases Store.events_apply happ E with ⟨-, hsame⟩ | ⟨e', -, hnone, -⟩ |
        ⟨v, joins, e', hop, hold, hnew⟩
      · exact ⟨e, hsame.trans he, rfl, fun u => Or.inl Iff.rfl⟩
      · cases hnone.symm.trans he
      · obtain rfl := Option.some.inj (hold.symm.trans he)
        obtain rfl := hI.eventOp hq hop
        refine ⟨e'.set (user d) joins, hnew, EventDoc.host_set .., fun u => ?_⟩
        by_cases hu : user d = u
        · refine Or.inr ⟨d, newId, r, rfl, ?_, ?_, hu⟩
          · rw [hq, List.head?_cons]
          · rw [hop, Option.isSome_some]
        · refine Or.inl ?_
          rw [EventDoc.mem_set, if_neg fun heq => hu (Subtype.ext heq).symm]

/-- After every run the participants of every event are the users whose last
operation on it was an Accept, with the host as long as he did nothing; the
steps of the run change nobody else's part; and a Decline changes no event. -/
theorem participants_ownLast (hashCode : String → Int) (user : Nat → Uid) (now : Int)
    {tr : List (Action × World)} (hrun : Run (StepOf (step hashCode user)) (start now) tr) :
    (∀ E e, (final (start now) tr).store.events.lookup E = some e →
        Participation ((final (start now) tr).ownLast user E) e) ∧
      Along (OwnOnly user) (start now) tr ∧
      ∀ msg, ∀ x ∈ handleButton hashCode msg false, ∀ newId s s',
        Store.apply newId s (.write x) = some s' → s'.events = s.events := by
  have hstep : ∀ w a w', w.Honest hashCode user ∧ w.Recorded user →
      StepOf (step hashCode user) w a w' → w'.Honest hashCode user ∧ w'.Recorded user :=
    fun w a w' hI h => ⟨hI.1.step h, hI.2.step hI.1 h⟩
  have hstart : (start now).Honest hashCode user ∧ (start now).Recorded user :=
    ⟨Honest.start now, Recorded.start now⟩
  refine ⟨?_, ?_, ?_⟩
  · exact (Reachable.invariant (I := fun w : World => w.Honest hashCode user ∧ w.Recorded user)
      hstart hstep ⟨tr, hrun, rfl⟩).2.written
  · exact Along.of_run (I := fun w : World => w.Honest hashCode user ∧ w.Recorded user)
      (fun w a w' hI h => ⟨step_ownOnly hI.1 h, hstep w a w' hI h⟩) hstart hrun
  · intro msg x hx newId s s' h
    obtain rfl := List.mem_singleton.mp hx
    cases Store.applied_of_apply h with
    | setReacted R id m hm => rfl

/-- The second user accepts the invitation of the first, who leaves. -/
theorem participants_ownLast_accept : ∃ tr : List (Action × World),
    (((final (start 0) tr).store.events.lookup "e").map EventDoc.participants =
        some [(thirdUid : String)]) ∧
      (∀ E e, (final (start 0) tr).store.events.lookup E = some e →
        Participation ((final (start 0) tr).ownLast twoUsers E) e) ∧
      Along (OwnOnly twoUsers) (start 0) tr := by
  obtain ⟨tr, -, hrun, hread⟩ := exists_run
    (f := step oneAtATime twoUsers) (s := start 0)
    (P := fun tr => ((final (start 0) tr).store.events.lookup "e").map EventDoc.participants =
        some [(thirdUid : String)])
    [.act 0 (.signUp ""), .act 1 (.signUp ""), .deliver 0 "", .deliver 1 "",
      .act 0 (.createEvent (EventModal.ofDay (Zone.fixed 0) 1556668800000 1556713800000)),
      .act 0 (.invite thirdUid "e" 1), .act 0 (.leave "e"), .deliver 0 "e", .deliver 0 "m",
      .act 1 (.receive firstUid ["m"]), .act 1 (.react firstUid "m" true), .deliver 1 "",
      .deliver 0 "", .deliver 0 "", .deliver 1 "", .deliver 1 ""]
    (by decide +kernel)
  obtain ⟨hlast, hown, -⟩ := participants_ownLast oneAtATime twoUsers 0 hrun
  exact ⟨tr, hread, hlast, hown⟩

end World

end CalendarApp
