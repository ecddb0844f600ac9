/-
# `Server.Deliveries` — the order of the deliveries

The requests of one device arrive in the order in which it sent them.  Those
of different devices arrive in any order.  How much of that order is seen in
the store afterwards?

The store is read as a set of cells, one for each document it could hold
(`Store.data`), and a request as one operation on one cell (`data_apply`):

    add to a room, addEvent      creates the document
    setData of a room, a user    puts the document
    isRead, isReacted            sets a mark
    arrayUnion, arrayRemove      puts one user in, takes one user out

Marks commute, and so do the changes of the participants of an event, up to
the order of the list, except that one user joins and leaves.  Two documents
of one room name the same users.  What is left are `disputes`: a user who
answers the same event differently on two devices, or signs up with two
photos.

So from every reachable world, whatever interleaving the network chooses, the
stores agree on every message, every user, every event up to the order of its
participants, and every room up to `last_updated` and the order of its users,
unless two devices of one account dispute (`deliveries_agree`).  A dispute is
always seen (`Store.not_agrees`).
-/
import CalendarApp.Chat.History
import CalendarApp.Event.Participants
import CalendarApp.Lib.Interleave

namespace CalendarApp

open Lib

/-! ## Documents and their cells -/

/-- A document, of any kind. -/
inductive Document where
  | message (m : MsgDoc)
  | room (doc : RoomDoc)
  | event (e : EventDoc)
  | user (u : UserModal)

/-- A place for a document. -/
inductive Cell where
  | message (R id : String)
  | room (R : String)
  | event (E : String)
  | user (u : String)
  deriving DecidableEq

/-- The event, with the same participants in some order. -/
structure EventDoc.Same (e e' : EventDoc) : Prop where
  later : e.Later e'
  participants : e.participants.Perm e'.participants

/-- Documents that differ in the order of their users and in `last_updated`
only. -/
inductive Document.Same : Document → Document → Prop
  | message (m : MsgDoc) : Same (.message m) (.message m)
  | room {doc doc' : RoomDoc} : doc.Later doc' → Same (.room doc) (.room doc')
  | event {e e' : EventDoc} : e.Same e' → Same (.event e) (.event e')
  | user (u : UserModal) : Same (.user u) (.user u)

/-- The stores hold the same documents, up to the order of the users in them
and to `last_updated`. -/
structure Store.Agrees (s s' : Store) : Prop where
  messages : ∀ R id, (s.messages R).lookup id = (s'.messages R).lookup id
  rooms : ∀ R, Option.Rel RoomDoc.Later (s.rooms.lookup R) (s'.rooms.lookup R)
  events : ∀ E, Option.Rel EventDoc.Same (s.events.lookup E) (s'.events.lookup E)
  users : ∀ u, s.users.lookup u = s'.users.lookup u

/-- The document in a cell. -/
def Store.data (s : Store) : Cell → Option Document
  | .message R id => ((s.messages R).lookup id).map .message
  | .room R => (s.rooms.lookup R).map .room
  | .event E => (s.events.lookup E).map .event
  | .user u => (s.users.lookup u).map .user

namespace Document

/-- A mark on a message. -/
def mark (f : MsgDoc → MsgDoc) : Document → Option Document
  | .message m => some (.message (f m))
  | _ => none

/-- A user joins or leaves an event. -/
def answer (u : String) (joins : Bool) : Document → Option Document
  | .event e => some (.event (e.set u joins))
  | _ => none

end Document

namespace Request

/-- The cell a request touches; `add` chooses `newId`. -/
def cell (newId : String) : Request → Cell
  | .write (.addMessage R _) => .message R newId
  | .write (.setRoom R _ _) => .room R
  | .write (.setRead R id) => .message R id
  | .write (.setReacted R id) => .message R id
  | .write (.joinEvent E _) => .event E
  | .leaveEvent E _ => .event E
  | .addEvent _ => .event newId
  | .setUser u => .user u.id

/-- What a request does there. -/
def op : Request → Op Document
  | .write (.addMessage _ m) => .create (.message m)
  | .write (.setRoom _ us t) => .put (.room ⟨us, t⟩)
  | .write (.setRead _ _) => .change (Document.mark MsgDoc.read)
  | .write (.setReacted _ _) => .change (Document.mark MsgDoc.reacted)
  | .write (.joinEvent _ u) => .change (Document.answer u true)
  | .leaveEvent _ u => .change (Document.answer u false)
  | .addEvent e => .create (.event e)
  | .setUser u => .put (.user u)

/-- One user joins and leaves an event, or has two documents. -/
def disputes : Request → Request → Bool
  | .write (.joinEvent E u), .leaveEvent E' u' => E = E' ∧ u = u'
  | .leaveEvent E u, .write (.joinEvent E' u') => E = E' ∧ u = u'
  | .setUser u, .setUser u' => u.id = u'.id ∧ u ≠ u'
  | _, _ => false

/-- The disputes. -/
inductive Disputed : Request → Request → Prop
  | joinLeave (E u : String) : Disputed (.write (.joinEvent E u)) (.leaveEvent E u)
  | leaveJoin (E u : String) : Disputed (.leaveEvent E u) (.write (.joinEvent E u))
  | setUser {u u' : UserModal} : u.id = u'.id → u ≠ u' → Disputed (.setUser u) (.setUser u')

theorem disputed_of_disputes {r r' : Request} (h : r.disputes r' = true) : r.Disputed r' := by
  cases r with
  | setUser u =>
      cases r' with
      | setUser u' =>
          obtain ⟨hid, hne⟩ := of_decide_eq_true h
          exact .setUser hid hne
      | write _ => cases h
      | leaveEvent _ _ => cases h
      | addEvent _ => cases h
  | leaveEvent E u =>
      cases r' with
      | write x =>
          cases x with
          | joinEvent E' u' =>
              obtain ⟨rfl, rfl⟩ := of_decide_eq_true h
              exact .leaveJoin E u
          | _ => cases h
      | leaveEvent _ _ => cases h
      | addEvent _ => cases h
      | setUser _ => cases h
  | write x =>
      cases x with
      | joinEvent E u =>
          cases r' with
          | leaveEvent E' u' =>
              obtain ⟨rfl, rfl⟩ := of_decide_eq_true h
              exact .joinLeave E u
          | write _ => cases h
          | addEvent _ => cases h
          | setUser _ => cases h
      | _ => cases h
  | addEvent _ => cases h

end Request

/-! ## The operations commute -/

theorem RoomDoc.later_equivalence : Equivalence RoomDoc.Later where
  refl := RoomDoc.Later.refl
  symm h := List.Perm.symm h
  trans h h' := List.Perm.trans h' h

theorem EventDoc.same_equivalence : Equivalence EventDoc.Same where
  refl e := ⟨.refl e, .refl _⟩
  symm {e e'} h := by
    refine ⟨?_, h.participants.symm⟩
    have hlater := h.later
    simp only [EventDoc.Later] at hlater ⊢
    rw [hlater]
  trans h h' := ⟨h.later.trans h'.later, h.participants.trans h'.participants⟩

theorem Document.same_equivalence : Equivalence Document.Same where
  refl x := by
    cases x with
    | message m => exact .message m
    | room doc => exact .room (.refl doc)
    | event e => exact .event (EventDoc.same_equivalence.refl e)
    | user u => exact .user u
  symm h := by
    cases h with
    | message m => exact .message m
    | room h => exact .room (RoomDoc.later_equivalence.symm h)
    | event h => exact .event (EventDoc.same_equivalence.symm h)
    | user u => exact .user u
  trans h h' := by
    cases h with
    | message m => exact h'
    | room h =>
        cases h' with
        | room h' => exact .room (RoomDoc.later_equivalence.trans h h')
    | event h =>
        cases h' with
        | event h' => exact .event (EventDoc.same_equivalence.trans h h')
    | user u => exact h'

section Answers

variable {ps ps' : List String} {u v : String} {joins joins' : Bool} {e e' : EventDoc}

theorem arrayUnion_perm (h : ps.Perm ps') (u : String) :
    (arrayUnion ps u).Perm (arrayUnion ps' u) := by
  simp only [arrayUnion, h.mem_iff]
  split
  · exact h
  · exact h.append_right _

theorem arrayUnion_of_mem (h : u ∈ ps) : arrayUnion ps u = ps := if_pos h

theorem arrayUnion_of_not_mem (h : u ∉ ps) : arrayUnion ps u = ps ++ [u] := if_neg h

theorem arrayUnion_comm (ps : List String) (huv : u ≠ v) :
    (arrayUnion (arrayUnion ps u) v).Perm (arrayUnion (arrayUnion ps v) u) := by
  by_cases hu : u ∈ ps
  · rw [arrayUnion_of_mem hu, arrayUnion_of_mem (mem_arrayUnion.mpr (Or.inl hu))]
  by_cases hv : v ∈ ps
  · rw [arrayUnion_of_mem hv, arrayUnion_of_mem (mem_arrayUnion.mpr (Or.inl hv))]
  -- both are new, and are appended in one order or the other
  have hv' : v ∉ arrayUnion ps u := fun h => (mem_arrayUnion.mp h).elim hv huv.symm
  have hu' : u ∉ arrayUnion ps v := fun h => (mem_arrayUnion.mp h).elim hu huv
  rw [arrayUnion_of_not_mem hv', arrayUnion_of_not_mem hu', arrayUnion_of_not_mem hu,
    arrayUnion_of_not_mem hv, List.append_assoc, List.append_assoc]
  exact (List.Perm.swap v u []).append_left ps

theorem arrayRemove_comm (ps : List String) (u v : String) :
    arrayRemove (arrayRemove ps u) v = arrayRemove (arrayRemove ps v) u := by
  simp only [arrayRemove, List.filter_filter, Bool.and_comm]

theorem arrayRemove_arrayUnion (ps : List String) (huv : u ≠ v) :
    arrayRemove (arrayUnion ps u) v = arrayUnion (arrayRemove ps v) u := by
  have hu : u ∈ arrayRemove ps v ↔ u ∈ ps := mem_arrayRemove.trans (and_iff_left huv)
  rw [arrayUnion, arrayUnion, if_congr hu rfl rfl]
  split
  · rfl
  · rw [arrayRemove, List.filter_append]
    simp [arrayRemove, huv]

theorem EventDoc.later_set (h : e.Later e') (u v : String) (joins joins' : Bool) :
    (e.set u joins).Later (e'.set v joins') := by
  simp only [EventDoc.Later] at h ⊢
  rw [h]
  cases joins <;> cases joins' <;> rfl

theorem EventDoc.Same.set (h : e.Same e') (u : String) (joins : Bool) :
    (e.set u joins).Same (e'.set u joins) := by
  refine ⟨later_set h.later u u joins joins, ?_⟩
  cases joins with
  | true => exact arrayUnion_perm h.participants u
  | false => exact h.participants.filter _

theorem EventDoc.set_comm (e : EventDoc) (h : u = v → joins = joins') :
    ((e.set u joins).set v joins').Same ((e.set v joins').set u joins) := by
  by_cases huv : u = v
  · subst huv
    rw [h rfl]
    exact same_equivalence.refl _
  · refine ⟨later_set (later_set (.refl e) u v joins joins') v u joins' joins, ?_⟩
    cases joins with
    | true =>
        cases joins' with
        | true => exact arrayUnion_comm e.participants huv
        | false => exact .of_eq (arrayRemove_arrayUnion e.participants huv)
    | false =>
        cases joins' with
        | true => exact .of_eq (arrayRemove_arrayUnion e.participants (Ne.symm huv)).symm
        | false => exact .of_eq (arrayRemove_comm e.participants u v)

theorem EventDoc.not_same (h : (e.join u).Same (e'.leave u)) : False := by
  have hmem : u ∈ (e.join u).participants := mem_arrayUnion.mpr (Or.inr rfl)
  exact (mem_arrayRemove.mp (h.participants.mem_iff.mp hmem)).2 rfl

end Answers

theorem Document.respects_mark (f : MsgDoc → MsgDoc) :
    (Op.change (Document.mark f)).Respects Document.Same := by
  intro x x' y h hx
  cases h with
  | message m => exact ⟨y, hx, Document.same_equivalence.refl y⟩
  | room _ => cases hx
  | event _ => cases hx
  | user _ => cases hx

theorem Document.respects_answer (u : String) (joins : Bool) :
    (Op.change (Document.answer u joins)).Respects Document.Same := by
  intro x x' y h hx
  cases h with
  | message _ => cases hx
  | room _ => cases hx
  | event h =>
      cases hx
      exact ⟨_, rfl, .event (h.set u joins)⟩
  | user _ => cases hx

theorem Request.respects_op (r : Request) : r.op.Respects Document.Same := by
  cases r with
  | write w =>
      cases w with
      | addMessage _ _ => trivial
      | setRoom _ _ _ => trivial
      | setRead _ _ => exact Document.respects_mark _
      | setReacted _ _ => exact Document.respects_mark _
      | joinEvent _ u => exact Document.respects_answer u true
  | leaveEvent _ u => exact Document.respects_answer u false
  | addEvent _ => trivial
  | setUser _ => trivial

theorem Document.commutes_mark {f g : MsgDoc → MsgDoc} (h : ∀ m, g (f m) = f (g m)) :
    (Op.change (mark f)).Commutes Document.Same (.change (mark g)) := by
  intro x y z hy hz
  cases x with
  | message m =>
      cases hy
      cases hz
      exact ⟨.message (g (f m)), .message (f (g m)), rfl, rfl, h m ▸ .message _⟩
  | room _ => cases hy
  | event _ => cases hy
  | user _ => cases hy

theorem Document.commutes_answer {u v : String} {joins joins' : Bool}
    (h : u = v → joins = joins') :
    (Op.change (answer u joins)).Commutes Document.Same (.change (answer v joins')) := by
  intro x y z hy hz
  cases x with
  | message _ => cases hy
  | room _ => cases hy
  | event e =>
      cases hy
      cases hz
      exact ⟨_, _, rfl, rfl, .event (e.set_comm h)⟩
  | user _ => cases hy

namespace Request

variable {newId newId' : String} {r r' : Request}

theorem op_message {R id : String} (h : r.cell newId = .message R id) :
    (∃ m, r.op = .create (.message m)) ∨
      ∃ f, (f = MsgDoc.read ∨ f = MsgDoc.reacted) ∧ r.op = .change (Document.mark f) := by
  cases r with
  | write w =>
      cases w with
      | addMessage _ m => exact Or.inl ⟨m, rfl⟩
      | setRead _ _ => exact Or.inr ⟨_, Or.inl rfl, rfl⟩
      | setReacted _ _ => exact Or.inr ⟨_, Or.inr rfl, rfl⟩
      | setRoom _ _ _ => cases h
      | joinEvent _ _ => cases h
  | leaveEvent _ _ => cases h
  | addEvent _ => cases h
  | setUser _ => cases h

theorem op_event {E : String} (h : r.cell newId = .event E) :
    (∃ e, r.op = .create (.event e)) ∨
      ∃ u, r = .write (.joinEvent E u) ∨ r = .leaveEvent E u := by
  cases r with
  | write w =>
      cases w with
      | joinEvent _ u =>
          cases h
          exact Or.inr ⟨u, Or.inl rfl⟩
      | addMessage _ _ => cases h
      | setRead _ _ => cases h
      | setReacted _ _ => cases h
      | setRoom _ _ _ => cases h
  | leaveEvent _ u =>
      cases h
      exact Or.inr ⟨u, Or.inr rfl⟩
  | addEvent e => exact Or.inl ⟨e, rfl⟩
  | setUser _ => cases h

theorem eq_setRoom {R : String} (h : r.cell newId = .room R) :
    ∃ us t, r = .write (.setRoom R us t) := by
  cases r with
  | write w =>
      cases w with
      | setRoom _ us t =>
          cases h
          exact ⟨us, t, rfl⟩
      | addMessage _ _ => cases h
      | setRead _ _ => cases h
      | setReacted _ _ => cases h
      | joinEvent _ _ => cases h
  | leaveEvent _ _ => cases h
  | addEvent _ => cases h
  | setUser _ => cases h

theorem eq_setUser {u : String} (h : r.cell newId = .user u) :
    ∃ document, r = .setUser document ∧ document.id = u := by
  cases r with
  | write w => cases w <;> cases h
  | leaveEvent _ _ => cases h
  | addEvent _ => cases h
  | setUser document => exact ⟨document, rfl, Cell.user.inj h⟩

theorem commutes_event {E u u' : String} (hr : r = .write (.joinEvent E u) ∨ r = .leaveEvent E u)
    (hr' : r' = .write (.joinEvent E u') ∨ r' = .leaveEvent E u')
    (hfair : r.disputes r' = false) : r.op.Commutes Document.Same r'.op := by
  rcases hr with rfl | rfl
  · rcases hr' with rfl | rfl
    · exact Document.commutes_answer fun _ => rfl
    · simp only [disputes, true_and, decide_eq_false_iff_not] at hfair
      exact Document.commutes_answer fun hu => absurd hu hfair
  · rcases hr' with rfl | rfl
    · simp only [disputes, true_and, decide_eq_false_iff_not] at hfair
      exact Document.commutes_answer fun hu => absurd hu hfair
    · exact Document.commutes_answer fun _ => rfl

/-- Requests that touch one cell commute, unless they dispute or both create
a document. -/
theorem commutes_op (hcell : r.cell newId = r'.cell newId')
    (hrooms : ∀ R us t us' t', r = .write (.setRoom R us t) → r' = .write (.setRoom R us' t') →
      us.Perm us') (hfair : r.disputes r' = false) :
    r.op.Commutes Document.Same r'.op ∨ ∃ x y, r.op = .create x ∧ r'.op = .create y := by
  cases hc : r.cell newId with
  | message R id =>
      rcases op_message hc with ⟨m, hm⟩ | ⟨f, hf, hop⟩
      · rcases op_message (hcell.symm.trans hc) with ⟨m', hm'⟩ | ⟨g, hg, hop'⟩
        · exact Or.inr ⟨_, _, hm, hm'⟩
        · rw [hm, hop']
          exact Or.inl trivial
      · rcases op_message (hcell.symm.trans hc) with ⟨m', hm'⟩ | ⟨g, hg, hop'⟩
        · rw [hop, hm']
          exact Or.inl trivial
        · rw [hop, hop']
          refine Or.inl (Document.commutes_mark fun m => ?_)
          rcases hf with rfl | rfl <;> rcases hg with rfl | rfl <;> rfl
  | event E =>
      rcases op_event hc with ⟨e, he⟩ | ⟨u, hu⟩
      · rcases op_event (hcell.symm.trans hc) with ⟨e', he'⟩ | ⟨u', rfl | rfl⟩
        · exact Or.inr ⟨_, _, he, he'⟩
        · rw [he]
          exact Or.inl trivial
        · rw [he]
          exact Or.inl trivial
      · rcases op_event (hcell.symm.trans hc) with ⟨e', he'⟩ | ⟨u', hu'⟩
        · rw [he']
          rcases hu with rfl | rfl
          · exact Or.inl trivial
          · exact Or.inl trivial
        · exact Or.inl (commutes_event hu hu' hfair)
  | room R =>
      obtain ⟨us, t, rfl⟩ := eq_setRoom hc
      obtain ⟨us', t', rfl⟩ := eq_setRoom (hcell.symm.trans hc)
      exact Or.inl (.room (hrooms R us t us' t' rfl rfl))
  | user u =>
      obtain ⟨document, rfl, hid⟩ := eq_setUser hc
      obtain ⟨document', rfl, hid'⟩ := eq_setUser (hcell.symm.trans hc)
      simp only [disputes, decide_eq_false_iff_not, not_and, not_not] at hfair
      obtain rfl := hfair (hid.trans hid'.symm)
      exact Or.inl (.user _)

end Request

namespace Store

variable {s s' : Store} {newId : String} {r : Request}

/-! ## The store, cell by cell -/

theorem data_setMessages (s : Store) (R id : String) (m : MsgDoc) :
    (s.setMessages R ((s.messages R).insert id m)).data =
      Function.update s.data (.message R id) (some (.message m)) := by
  funext k
  rw [Function.update_apply]
  cases k with
  | message R' id' =>
      simp only [data, lookup_setMessages, Cell.message.injEq]
      split
      · rfl
      · rfl
  | room _ => rfl
  | event _ => rfl
  | user _ => rfl

theorem data_setEvents (s : Store) (E : String) (e : EventDoc) :
    (s.setEvents (s.events.insert E e)).data =
      Function.update s.data (.event E) (some (.event e)) := by
  funext k
  rw [Function.update_apply]
  cases k with
  | event E' =>
      simp only [data, setEvents, Collection.lookup_insert_eq, Cell.event.injEq]
      split
      · rfl
      · rfl
  | message _ _ => rfl
  | room _ => rfl
  | user _ => rfl

theorem data_setRoom (s : Store) (R : String) (doc : RoomDoc) :
    data { s with rooms := s.rooms.insert R doc } =
      Function.update s.data (.room R) (some (.room doc)) := by
  funext k
  rw [Function.update_apply]
  cases k with
  | room R' =>
      simp only [data, Collection.lookup_insert_eq, Cell.room.injEq]
      split
      · rfl
      · rfl
  | message _ _ => rfl
  | event _ => rfl
  | user _ => rfl

theorem data_setUser (s : Store) (u : UserModal) :
    data { s with users := s.users.insert u.id u } =
      Function.update s.data (.user u.id) (some (.user u)) := by
  funext k
  rw [Function.update_apply]
  cases k with
  | user u' =>
      simp only [data, Collection.lookup_insert_eq, Cell.user.injEq]
      split
      · rfl
      · rfl
  | message _ _ => rfl
  | event _ => rfl
  | room _ => rfl

theorem data_applied (h : s.Applied newId r s') :
    touch (fun p : String × Request => p.2.cell p.1) (fun p => p.2.op) s.data (newId, r) =
      some s'.data := by
  rw [touch_eq_some]
  cases h with
  | addMessage R m hnew =>
      refine ⟨.message m, ?_, (data_setMessages s R newId m).symm⟩
      simp only [Request.cell, data, hnew]
      rfl
  | setRoom R us t => exact ⟨.room ⟨us, t⟩, rfl, (data_setRoom s R ⟨us, t⟩).symm⟩
  | setRead R id m hm =>
      refine ⟨.message m.read, ?_, (data_setMessages s R id m.read).symm⟩
      simp only [Request.cell, data, hm]
      rfl
  | setReacted R id m hm =>
      refine ⟨.message m.reacted, ?_, (data_setMessages s R id m.reacted).symm⟩
      simp only [Request.cell, data, hm]
      rfl
  | joinEvent E u e he =>
      refine ⟨.event (e.join u), ?_, (data_setEvents s E (e.join u)).symm⟩
      simp only [Request.cell, data, he]
      rfl
  | leaveEvent E u e he =>
      refine ⟨.event (e.leave u), ?_, (data_setEvents s E (e.leave u)).symm⟩
      simp only [Request.cell, data, he]
      rfl
  | addEvent e hnew =>
      refine ⟨.event e, ?_, (data_setEvents s newId e).symm⟩
      simp only [Request.cell, data, hnew]
      rfl
  | setUser u => exact ⟨.user u, rfl, (data_setUser s u).symm⟩

theorem rel_of_map {α : Type} {g : α → Document} {S : α → α → Prop} {o o' : Option α}
    (hS : ∀ x y, (g x).Same (g y) → S x y)
    (h : Option.Rel Document.Same (o.map g) (o'.map g)) : Option.Rel S o o' := by
  cases o with
  | none =>
      cases o' with
      | none => exact .none
      | some _ => cases h
  | some x =>
      cases o' with
      | none => cases h
      | some y =>
          cases h with
          | some hxy => exact .some (hS x y hxy)

theorem eq_of_rel {α : Type} {o o' : Option α} (h : Option.Rel (fun x y => x = y) o o') :
    o = o' := by
  cases h with
  | some h => rw [h]
  | none => rfl

/-- The order of requests that dispute is seen: the stores after one of them and
after the other do not agree. -/
theorem not_agrees {newId' : String} {r' : Request} {t t' : Store} (h : r.disputes r' = true)
    (ht : s.Applied newId r t) (ht' : s'.Applied newId' r' t') : ¬ t.Agrees t' := by
  intro hagree
  cases Request.disputed_of_disputes h with
  | joinLeave E u =>
      cases ht with
      | joinEvent E u e he =>
          cases ht' with
          | leaveEvent E u e' he' =>
              have hE := hagree.events E
              simp only [setEvents, Collection.lookup_insert_eq, if_true] at hE
              cases hE with
              | some hsame => exact EventDoc.not_same hsame
  | leaveJoin E u =>
      cases ht with
      | leaveEvent E u e he =>
          cases ht' with
          | joinEvent E u e' he' =>
              have hE := hagree.events E
              simp only [setEvents, Collection.lookup_insert_eq, if_true] at hE
              cases hE with
              | some hsame => exact EventDoc.not_same (EventDoc.same_equivalence.symm hsame)
  | @setUser u u' hid hne =>
      cases ht with
      | setUser _ =>
          cases ht' with
          | setUser _ =>
              have hu := hagree.users u.id
              simp only [Collection.lookup_insert_eq, hid, if_true] at hu
              exact hne (Option.some.inj hu)

theorem agrees_of_alike (h : Alike Document.Same s.data s'.data) : s.Agrees s' where
  messages R id := eq_of_rel (rel_of_map (fun _ _ hxy => by cases hxy; rfl) (h (.message R id)))
  rooms R := rel_of_map (fun _ _ hxy => by cases hxy with | room h => exact h) (h (.room R))
  events E := rel_of_map (fun _ _ hxy => by cases hxy with | event h => exact h) (h (.event E))
  users u := eq_of_rel (rel_of_map (fun _ _ hxy => by cases hxy; rfl) (h (.user u)))

end Store

namespace World

/-! ## What the network does -/

/-- A delivery or a failure. -/
def Action.ofNetwork : Action → Bool
  | .act _ _ => false
  | .deliver _ _ => true
  | .fail _ => true

/-- The actions of a run that concern the device `d`. -/
def ofDevice (d : Nat) (tr : List (Action × World)) : List Action :=
  (tr.map Prod.fst).filter fun a => a.device = d

def arrivalsIn (w : World) : Action → List (Nat × String × Request)
  | .deliver d newId => (w.queue d).head?.toList.map fun r => (d, newId, r)
  | _ => []

/-- The requests applied in a run, with their devices and with the ids for
what they add. -/
def arrivals : World → List (Action × World) → List (Nat × String × Request)
  | _, [] => []
  | w, (a, w') :: tr => w.arrivalsIn a ++ arrivals w' tr

/-- What arrives of one queue. -/
def served : List Request → List Action → List (String × Request)
  | r :: q, .deliver _ newId :: as => (newId, r) :: served q as
  | _ :: q, .fail _ :: as => served q as
  | _, _ => []

theorem mem_of_served {p : String × Request} : ∀ {q : List Request} {as : List Action},
    p ∈ served q as → p.2 ∈ q
  | r :: q, .deliver _ newId :: as, h => by
      rcases List.mem_cons.mp h with rfl | h
      · exact List.mem_cons_self
      · exact List.mem_cons_of_mem _ (mem_of_served h)
  | _ :: q, .fail _ :: as, h => by
      have htail : p ∈ served q as := h
      exact List.mem_cons_of_mem _ (mem_of_served htail)
  | _ :: _, .act _ _ :: _, h => nomatch h
  | [], _, h => by
      simp only [served] at h
      cases h
  | _ :: _, [], h => nomatch h

variable {hashCode : String → Int} {user : Nat → Uid} {w w' : World} {d : Nat}

theorem arrivalsIn_deliver {newId : String} {r : Request} {q : List Request}
    (hq : w.queue d = r :: q) : w.arrivalsIn (.deliver d newId) = [(d, newId, r)] := by
  simp only [arrivalsIn, hq]
  rfl

theorem ofDevice_cons (a : Action) (w' : World) (tr : List (Action × World)) :
    ofDevice d ((a, w') :: tr) = if a.device = d then a :: ofDevice d tr else ofDevice d tr := by
  simp only [ofDevice, List.map_cons, List.filter_cons, decide_eq_true_eq]

/-- What the network takes from the queue of a device depends on the actions
of that device only. -/
theorem ofWriter_arrivals (d : Nat) : ∀ {w : World} {tr : List (Action × World)},
    Run (StepOf (step hashCode user)) w tr → (∀ a ∈ tr.map Prod.fst, a.ofNetwork = true) →
      ofWriter d (arrivals w tr) = served (w.queue d) (ofDevice d tr)
  | w, [], _, _ => by
      show [] = served (w.queue d) []
      cases w.queue d with
      | nil => rfl
      | cons _ _ => rfl
  | w, (a, w') :: tr, ⟨h, hrun⟩, hnet => by
      obtain ⟨hnet, htail⟩ := List.forall_mem_cons.mp hnet
      have ih := ofWriter_arrivals d hrun htail
      rw [arrivals, ofDevice_cons]
      cases stepped_of_step h with
      | act e c rs hrs => cases hnet
      | deliver e newId r q store hq happ =>
          rw [arrivalsIn_deliver hq, List.singleton_append, ofWriter_cons, ih]
          show (if e = d then (newId, r) :: served (pop w.queue e d) _
            else served (pop w.queue e d) _) = served (w.queue d)
              (if e = d then .deliver e newId :: ofDevice d tr else ofDevice d tr)
          by_cases hed : e = d
          · subst hed
            rw [if_pos rfl, if_pos rfl, hq, pop, Function.update_self, hq]
            rfl
          · rw [if_neg hed, if_neg hed, pop, Function.update_of_ne (Ne.symm hed)]
      | fail e r q hq =>
          refine ih.trans ?_
          show served (pop w.queue e d) (ofDevice d tr) = served (w.queue d)
            (if e = d then .fail e :: ofDevice d tr else ofDevice d tr)
          by_cases hed : e = d
          · subst hed
            rw [if_pos rfl, hq, pop, Function.update_self, hq]
            rfl
          · rw [if_neg hed, pop, Function.update_of_ne (Ne.symm hed)]

/-- The store after deliveries, cell by cell. -/
theorem foldlM_arrivals : ∀ {w : World} {tr : List (Action × World)},
    Run (StepOf (step hashCode user)) w tr →
      ((arrivals w tr).map Prod.snd).foldlM
        (touch (fun p : String × Request => p.2.cell p.1) (fun p => p.2.op)) w.store.data =
          some (final w tr).store.data
  | _, [], _ => rfl
  | w, (a, w') :: tr, ⟨h, hrun⟩ => by
      have ih := foldlM_arrivals hrun
      rw [arrivals, List.map_append, List.foldlM_append, final]
      cases stepped_of_step h with
      | act e c rs hrs => exact ih
      | deliver e newId r q store hq happ =>
          rw [arrivalsIn_deliver hq, List.map_singleton, List.foldlM_cons,
            Store.data_applied happ]
          exact ih
      | fail e r q hq => exact ih

theorem queue_network (d : Nat) : ∀ {w : World} {tr : List (Action × World)},
    Run (StepOf (step hashCode user)) w tr → (∀ a ∈ tr.map Prod.fst, a.ofNetwork = true) →
      (final w tr).queue d = (w.queue d).drop (ofDevice d tr).length
  | _, [], _, _ => rfl
  | w, (a, w') :: tr, ⟨h, hrun⟩, hnet => by
      obtain ⟨hnet, htail⟩ := List.forall_mem_cons.mp hnet
      rw [final, queue_network d hrun htail, ofDevice_cons]
      split
      · next had =>
          subst had
          have hpop : w'.queue a.device = (w.queue a.device).tail := by
            cases stepped_of_step h with
            | act e c rs hrs => cases hnet
            | deliver e newId r q store hq happ => exact Function.update_self _ _ _
            | fail e r q hq => exact Function.update_self _ _ _
          rw [hpop, List.drop_tail, List.length_cons]
      · next had => rw [step_queue h (Ne.symm had)]

/-! ## The order of the deliveries does not matter -/

/-- Requests that wait on devices of different users do not dispute. -/
theorem Honest.no_dispute (hI : w.Honest hashCode user) {d e : Nat} {r r' : Request}
    (hne : user d ≠ user e) (hr : r ∈ w.queue d) (hr' : r' ∈ w.queue e) :
    r.disputes r' = false := by
  have hval : (user d : String) ≠ user e := fun h => hne (Subtype.ext h)
  have hd := hI.queued d r hr
  have he := hI.queued e r' hr'
  refine Bool.eq_false_iff.mpr fun h => ?_
  cases Request.disputed_of_disputes h with
  | joinLeave E u => exact hval (hd.symm.trans he)
  | leaveJoin E u => exact hval (hd.symm.trans he)
  | setUser hid _ => exact hval (hd.symm.trans (hid.trans he))

theorem Honest.rooms_perm (hI : w.Honest hashCode user) {d e : Nat} {R : String}
    {us us' : List String} {t t' : Int} (hr : .write (.setRoom R us t) ∈ w.queue d)
    (hr' : .write (.setRoom R us' t') ∈ w.queue e) : us.Perm us' := by
  obtain ⟨peer, hR, hus⟩ := hI.queued d _ hr
  obtain ⟨peer', hR', hus'⟩ := hI.queued e _ hr'
  exact Store.perm_of_room ⟨_, _, hus', hR'⟩ ⟨_, _, hus, hR⟩

/-- From a reachable world on, let the network deliver and fail the requests
of each device as it likes, twice: the same for each device, interleaved
differently.  If no two devices of one account dispute, the stores agree, and
the same requests still wait. -/
theorem deliveries_agree (hashCode : String → Int) (user : Nat → Uid) (now : Int)
    {tr tr₁ tr₂ : List (Action × World)}
    (hrun : Run (StepOf (step hashCode user)) (start now) tr)
    (hrun₁ : Run (StepOf (step hashCode user)) (final (start now) tr) tr₁)
    (hrun₂ : Run (StepOf (step hashCode user)) (final (start now) tr) tr₂)
    (hnet : ∀ a ∈ tr₁.map Prod.fst, a.ofNetwork = true)
    (hsame : ∀ d, ofDevice d tr₁ = ofDevice d tr₂)
    (hfair : ∀ d e, d ≠ e → user d = user e → ∀ r ∈ (final (start now) tr).queue d,
      ∀ r' ∈ (final (start now) tr).queue e, r.disputes r' = false) :
    (final (final (start now) tr) tr₁).store.Agrees (final (final (start now) tr) tr₂).store ∧
      ∀ d, (final (final (start now) tr) tr₁).queue d =
        (final (final (start now) tr) tr₂).queue d := by
  have hI : (final (start now) tr).Honest hashCode user :=
    (grows_run (Sincere.start now) hrun).2.honest
  generalize final (start now) tr = w at *
  have hnet₂ : ∀ a ∈ tr₂.map Prod.fst, a.ofNetwork = true := by
    intro a ha
    have hown : a ∈ ofDevice a.device tr₂ := List.mem_filter.mpr ⟨ha, decide_eq_true rfl⟩
    exact hnet a (List.mem_filter.mp (hsame a.device ▸ hown)).1
  have hmem : ∀ {x : Nat × String × Request}, x ∈ arrivals w tr₁ → x.2.2 ∈ w.queue x.1 := by
    intro x hx
    have hserved : x.2 ∈ served (w.queue x.1) (ofDevice x.1 tr₁) := by
      rw [← ofWriter_arrivals x.1 hrun₁ hnet]
      exact mem_ofWriter.mpr hx
    exact mem_of_served hserved
  refine ⟨Store.agrees_of_alike ?_, fun d => ?_⟩
  · refine alike_of_ofWriter Document.same_equivalence (fun p => p.2.respects_op) (fun d => ?_) ?_
      (foldlM_arrivals hrun₁) (foldlM_arrivals hrun₂)
    · rw [ofWriter_arrivals d hrun₁ hnet, ofWriter_arrivals d hrun₂ hnet₂, hsame]
    · intro x hx y hy hne hcell
      refine Request.commutes_op hcell (fun R us t us' t' hr hr' => ?_) ?_
      · exact hI.rooms_perm (hr ▸ hmem hx) (hr' ▸ hmem hy)
      · by_cases huser : user x.1 = user y.1
        · exact hfair x.1 y.1 hne huser x.2.2 (hmem hx) y.2.2 (hmem hy)
        · exact hI.no_dispute huser (hmem hx) (hmem hy)
  · rw [queue_network d hrun₁ hnet, queue_network d hrun₂ hnet₂, hsame]

theorem twoUsers_eq {d e : Nat} (hne : d ≠ e) (h : twoUsers d = twoUsers e) : 0 < d ∧ 0 < e := by
  have hfirst : ∀ k, twoUsers 0 = twoUsers (k + 1) → False := by
    intro k hk
    have hk : firstUid = thirdUid := hk
    exact absurd hk (by decide +kernel)
  rcases d with _ | d
  · rcases e with _ | e
    · exact absurd rfl hne
    · exact (hfirst e h).elim
  · rcases e with _ | e
    · exact (hfirst d h.symm).elim
    · exact ⟨Nat.succ_pos d, Nat.succ_pos e⟩

/-- Two users write to each other at once; the documents of their room arrive
in one order and in the other. -/
theorem deliveries_agree_dialogue : ∃ w₁ w₂ : World,
    w₁.store.rooms.lookup (chatId oneAtATime firstUid thirdUid) =
        some ⟨[(thirdUid : String), (firstUid : String)], 2⟩ ∧
      w₂.store.rooms.lookup (chatId oneAtATime firstUid thirdUid) =
        some ⟨[(firstUid : String), (thirdUid : String)], 1⟩ ∧
      w₁.store.Agrees w₂.store ∧ ∀ d, w₁.queue d = w₂.queue d := by
  obtain ⟨tr, hacts, hrun, h₁, h₂⟩ := exists_run
    (f := step oneAtATime twoUsers) (s := start 0)
    (P := fun tr => ((exec (step oneAtATime twoUsers) (final (start 0) tr)
        [.deliver 0 "a", .deliver 0 "", .deliver 1 "b", .deliver 1 ""]).any fun tr₁ =>
          decide ((final (final (start 0) tr) tr₁).store.rooms.lookup
            (chatId oneAtATime firstUid thirdUid) =
              some ⟨[(thirdUid : String), (firstUid : String)], 2⟩)) = true ∧
      ((exec (step oneAtATime twoUsers) (final (start 0) tr)
        [.deliver 1 "b", .deliver 0 "a", .deliver 1 "", .deliver 0 ""]).any fun tr₂ =>
          decide ((final (final (start 0) tr) tr₂).store.rooms.lookup
            (chatId oneAtATime firstUid thirdUid) =
              some ⟨[(firstUid : String), (thirdUid : String)], 1⟩)) = true)
    [.act 0 (.signUp ""), .act 1 (.signUp ""), .deliver 0 "", .deliver 1 "",
      .act 0 (.submit thirdUid "hi" 1), .act 1 (.submit firstUid "hello" 2)]
    (by decide +kernel)
  obtain ⟨tr₁, hacts₁, hrun₁, hroom₁⟩ := exists_run _ h₁
  obtain ⟨tr₂, hacts₂, hrun₂, hroom₂⟩ := exists_run _ h₂
  have hnet : ∀ a ∈ tr₁.map Prod.fst, a.ofNetwork = true := by
    rw [hacts₁]
    simp [Action.ofNetwork]
  have hsame : ∀ d, ofDevice d tr₁ = ofDevice d tr₂ := by
    intro d
    rw [ofDevice, ofDevice, hacts₁, hacts₂]
    rcases d with _ | _ | d <;> rfl
  -- no other device has anything to send
  have hquiet : ∀ d, (final (start 0) tr).queue (d + 2) = [] := by
    intro d
    refine run_queue hrun ?_
    rw [hacts]
    simp [Action.device]
  refine ⟨_, _, hroom₁, hroom₂,
    deliveries_agree oneAtATime twoUsers 0 hrun hrun₁ hrun₂ hnet hsame ?_⟩
  intro d e hne huser r hr r' hr'
  -- so `d` and `e` are not both among the first two
  obtain ⟨hd, he⟩ := twoUsers_eq hne huser
  rcases d with _ | _ | d
  · exact absurd hd (lt_irrefl 0)
  · rcases e with _ | _ | e
    · exact absurd he (lt_irrefl 0)
    · exact absurd rfl hne
    · rw [hquiet e] at hr'
      cases hr'
  · rw [hquiet d] at hr
    cases hr

end World

end CalendarApp
