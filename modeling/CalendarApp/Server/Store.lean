/-
# `Server.Store` — the documents on the server, and one request to it

The store of the app has four kinds of documents.

    users / uid                  a user
    events / id                  an event
    chat_room / R                the document of room R
    chat_room / R / R / id       a message of room R

A request is one write of a screen.  `apply` is what the server makes of it:
`add` puts a document under an id nobody uses, `setData` replaces a document,
and `updateData` changes the one that is there and is rejected when there is
none.  `arrayUnion` and `arrayRemove` change the value the server holds at
that moment.

`Applied` lists what an accepted request does, and the store is read off it
kind by kind: messages are only ever added and marked (`message_kept`,
`message_new`), a room's document changes by `setData` on that room alone
(`rooms_apply`), and an event by a request that names it.
-/
import CalendarApp.Chat.Modal
import CalendarApp.Event.Document
import CalendarApp.Lib.Collection

namespace CalendarApp

open Lib

/-- A document of the `chat_room` collection. -/
structure RoomDoc where
  users : List String
  /-- the key `last_updated` -/
  lastUpdated : Int
  deriving DecidableEq, Repr

/-- The documents on the server. -/
structure Store where
  rooms : Collection RoomDoc
  messages : String → Collection MsgDoc
  events : Collection EventDoc
  users : Collection UserModal

/-- A write of a screen. -/
inductive Request where
  | write (w : Write)
  /-- `updateData({'participants': FieldValue.arrayRemove([userId])})` -/
  | leaveEvent (eventId userId : String)
  /-- `add` to the collection `events` -/
  | addEvent (document : EventDoc)
  /-- `setData` of the user's document -/
  | setUser (document : UserModal)
  deriving DecidableEq, Repr

/-- `FieldValue.arrayUnion([value])`. -/
def arrayUnion (values : List String) (value : String) : List String :=
  if value ∈ values then values else values ++ [value]

/-- `FieldValue.arrayRemove([value])`. -/
def arrayRemove (values : List String) (value : String) : List String :=
  values.filter (· ≠ value)

@[simp] theorem mem_arrayUnion {values : List String} {u v : String} :
    u ∈ arrayUnion values v ↔ u ∈ values ∨ u = v := by
  simp only [arrayUnion]
  split
  · next hv =>
      refine ⟨Or.inl, ?_⟩
      rintro (hu | rfl)
      · exact hu
      · exact hv
  · rw [List.mem_append, List.mem_singleton]

@[simp] theorem mem_arrayRemove {values : List String} {u v : String} :
    u ∈ arrayRemove values v ↔ u ∈ values ∧ u ≠ v := by
  simp only [arrayRemove, List.mem_filter, decide_eq_true_eq]

theorem nodup_arrayUnion {values : List String} (h : values.Nodup) (v : String) :
    (arrayUnion values v).Nodup := by
  simp only [arrayUnion]
  split
  · exact h
  · next hv =>
      exact List.nodup_append.mpr ⟨h, List.nodup_singleton v, fun a ha b hb => by
        rintro rfl
        exact hv (List.mem_singleton.mp hb ▸ ha)⟩

theorem nodup_arrayRemove {values : List String} (h : values.Nodup) (v : String) :
    (arrayRemove values v).Nodup :=
  h.filter _

/-! ## Marks on a message -/

namespace MsgDoc

def read (m : MsgDoc) : MsgDoc := { m with isRead := true }

def reacted (m : MsgDoc) : MsgDoc := { m with isReacted := some true }

/-- `m'` is `m`, with more marks. -/
structure Marked (m m' : MsgDoc) : Prop where
  idFrom : m'.idFrom = m.idFrom
  idTo : m'.idTo = m.idTo
  timestamp : m'.timestamp = m.timestamp
  content : m'.content = m.content
  type : m'.type = m.type
  isRead : m.isRead = true → m'.isRead = true

theorem Marked.refl (m : MsgDoc) : m.Marked m := ⟨rfl, rfl, rfl, rfl, rfl, id⟩

theorem marked_read (m : MsgDoc) : m.Marked m.read := ⟨rfl, rfl, rfl, rfl, rfl, fun _ => rfl⟩

theorem marked_reacted (m : MsgDoc) : m.Marked m.reacted := ⟨rfl, rfl, rfl, rfl, rfl, id⟩

end MsgDoc

namespace EventDoc

def join (userId : String) (e : EventDoc) : EventDoc :=
  { e with participants := arrayUnion e.participants userId }

def leave (userId : String) (e : EventDoc) : EventDoc :=
  { e with participants := arrayRemove e.participants userId }

end EventDoc

/-! ## One request -/

namespace Store

/-- No documents. -/
def empty : Store := ⟨∅, fun _ => ∅, ∅, ∅⟩

def setMessages (s : Store) (chatId : String) (c : Collection MsgDoc) : Store :=
  { s with messages := Function.update s.messages chatId c }

def setEvents (s : Store) (c : Collection EventDoc) : Store := { s with events := c }

/-- The request at the server; an `add` stores its document under `newId`. -/
def apply (newId : String) (s : Store) : Request → Option Store
  | .write (.addMessage chatId message) =>
      ((s.messages chatId).create newId message).map (s.setMessages chatId)
  | .write (.setRoom chatId users lastUpdated) =>
      some { s with rooms := s.rooms.insert chatId ⟨users, lastUpdated⟩ }
  | .write (.setRead chatId messageId) =>
      ((s.messages chatId).update messageId MsgDoc.read).map (s.setMessages chatId)
  | .write (.setReacted chatId messageId) =>
      ((s.messages chatId).update messageId MsgDoc.reacted).map (s.setMessages chatId)
  | .write (.joinEvent eventId userId) =>
      (s.events.update eventId (EventDoc.join userId)).map s.setEvents
  | .leaveEvent eventId userId =>
      (s.events.update eventId (EventDoc.leave userId)).map s.setEvents
  | .addEvent document => (s.events.create newId document).map s.setEvents
  | .setUser document => some { s with users := s.users.insert document.id document }

/-- What an accepted request does. -/
inductive Applied (newId : String) (s : Store) : Request → Store → Prop
  | addMessage (R : String) (m : MsgDoc) : (s.messages R).lookup newId = none →
      Applied newId s (.write (.addMessage R m))
        (s.setMessages R ((s.messages R).insert newId m))
  | setRoom (R : String) (us : List String) (t : Int) :
      Applied newId s (.write (.setRoom R us t)) { s with rooms := s.rooms.insert R ⟨us, t⟩ }
  | setRead (R id : String) (m : MsgDoc) : (s.messages R).lookup id = some m →
      Applied newId s (.write (.setRead R id))
        (s.setMessages R ((s.messages R).insert id m.read))
  | setReacted (R id : String) (m : MsgDoc) : (s.messages R).lookup id = some m →
      Applied newId s (.write (.setReacted R id))
        (s.setMessages R ((s.messages R).insert id m.reacted))
  | joinEvent (E u : String) (e : EventDoc) : s.events.lookup E = some e →
      Applied newId s (.write (.joinEvent E u)) (s.setEvents (s.events.insert E (e.join u)))
  | leaveEvent (E u : String) (e : EventDoc) : s.events.lookup E = some e →
      Applied newId s (.leaveEvent E u) (s.setEvents (s.events.insert E (e.leave u)))
  | addEvent (e : EventDoc) : s.events.lookup newId = none →
      Applied newId s (.addEvent e) (s.setEvents (s.events.insert newId e))
  | setUser (u : UserModal) :
      Applied newId s (.setUser u) { s with users := s.users.insert u.id u }

variable {newId : String} {s s' : Store} {r : Request}

theorem applied_of_apply (h : s.apply newId r = some s') : Applied newId s r s' := by
  cases r with
  | write w =>
      cases w with
      | addMessage R m =>
          obtain ⟨c, hc, rfl⟩ := Option.map_eq_some_iff.mp h
          obtain ⟨hid, rfl⟩ := Collection.create_eq_some.mp hc
          exact .addMessage R m hid
      | setRoom R us t =>
          cases h
          exact .setRoom R us t
      | setRead R id =>
          obtain ⟨c, hc, rfl⟩ := Option.map_eq_some_iff.mp h
          obtain ⟨m, hm, rfl⟩ := Collection.update_eq_some.mp hc
          exact .setRead R id m hm
      | setReacted R id =>
          obtain ⟨c, hc, rfl⟩ := Option.map_eq_some_iff.mp h
          obtain ⟨m, hm, rfl⟩ := Collection.update_eq_some.mp hc
          exact .setReacted R id m hm
      | joinEvent E u =>
          obtain ⟨c, hc, rfl⟩ := Option.map_eq_some_iff.mp h
          obtain ⟨e, he, rfl⟩ := Collection.update_eq_some.mp hc
          exact .joinEvent E u e he
  | leaveEvent E u =>
      obtain ⟨c, hc, rfl⟩ := Option.map_eq_some_iff.mp h
      obtain ⟨e, he, rfl⟩ := Collection.update_eq_some.mp hc
      exact .leaveEvent E u e he
  | addEvent e =>
      obtain ⟨c, hc, rfl⟩ := Option.map_eq_some_iff.mp h
      obtain ⟨hid, rfl⟩ := Collection.create_eq_some.mp hc
      exact .addEvent e hid
  | setUser u =>
      cases h
      exact .setUser u

/-! ## The messages -/

theorem lookup_setMessages (s : Store) (R R' id id' : String) (m : MsgDoc) :
    ((s.setMessages R ((s.messages R).insert id m)).messages R').lookup id' =
      if R' = R ∧ id' = id then some m else (s.messages R').lookup id' := by
  simp only [setMessages]
  by_cases hR : R' = R
  · subst hR
    simp only [Function.update_self, true_and, Collection.lookup_insert_eq]
  · simp only [Function.update_of_ne hR, hR, false_and, if_false]

theorem lookup_marked {R id R' id' : String} {m m₁ m' : MsgDoc}
    (hm : (s.messages R).lookup id = some m) (hmark : m.Marked m₁)
    (h : (s.messages R').lookup id' = some m') :
    ∃ m₂, ((s.setMessages R ((s.messages R).insert id m₁)).messages R').lookup id' = some m₂ ∧
      m'.Marked m₂ := by
  rw [lookup_setMessages]
  split
  · next heq =>
      obtain ⟨rfl, rfl⟩ := heq
      obtain rfl := Option.some.inj (hm.symm.trans h)
      exact ⟨m₁, rfl, hmark⟩
  · exact ⟨m', h, .refl m'⟩

/-- A stored message stays, and keeps its marks. -/
theorem message_kept (h : Applied newId s r s') {R id : String} {m : MsgDoc}
    (hm : (s.messages R).lookup id = some m) :
    ∃ m', (s'.messages R).lookup id = some m' ∧ m.Marked m' := by
  cases h with
  | addMessage R₁ m₁ hnew =>
      refine ⟨m, ?_, .refl m⟩
      rw [lookup_setMessages, if_neg]
      · exact hm
      · rintro ⟨rfl, rfl⟩
        rw [hnew] at hm
        cases hm
  | setRead R₁ id₁ m₁ h₁ => exact lookup_marked h₁ m₁.marked_read hm
  | setReacted R₁ id₁ m₁ h₁ => exact lookup_marked h₁ m₁.marked_reacted hm
  | setRoom _ _ _ => exact ⟨m, hm, .refl m⟩
  | joinEvent _ _ _ _ => exact ⟨m, hm, .refl m⟩
  | leaveEvent _ _ _ _ => exact ⟨m, hm, .refl m⟩
  | addEvent _ _ => exact ⟨m, hm, .refl m⟩
  | setUser _ => exact ⟨m, hm, .refl m⟩

/-- A stored message was just added, or it was stored before and became read
only by a request that says so. -/
theorem message_new (h : Applied newId s r s') {R id : String} {m' : MsgDoc}
    (hm' : (s'.messages R).lookup id = some m') :
    r = .write (.addMessage R m') ∨ ∃ m, (s.messages R).lookup id = some m ∧ m.Marked m' ∧
      (m'.isRead = true → m.isRead = true ∨ r = .write (.setRead R id)) := by
  have hsame : (s.messages R).lookup id = some m' → r = .write (.addMessage R m') ∨
      ∃ m, (s.messages R).lookup id = some m ∧ m.Marked m' ∧
        (m'.isRead = true → m.isRead = true ∨ r = .write (.setRead R id)) :=
    fun hm => Or.inr ⟨m', hm, .refl m', Or.inl⟩
  cases h with
  | addMessage R₁ m₁ hnew =>
      rw [lookup_setMessages] at hm'
      split at hm'
      · next heq =>
          obtain ⟨rfl, rfl⟩ := heq
          cases hm'
          exact Or.inl rfl
      · exact hsame hm'
  | setRead R₁ id₁ m₁ h₁ =>
      rw [lookup_setMessages] at hm'
      split at hm'
      · next heq =>
          obtain ⟨rfl, rfl⟩ := heq
          cases hm'
          exact Or.inr ⟨m₁, h₁, m₁.marked_read, fun _ => Or.inr rfl⟩
      · exact hsame hm'
  | setReacted R₁ id₁ m₁ h₁ =>
      rw [lookup_setMessages] at hm'
      split at hm'
      · next heq =>
          obtain ⟨rfl, rfl⟩ := heq
          cases hm'
          exact Or.inr ⟨m₁, h₁, m₁.marked_reacted, Or.inl⟩
      · exact hsame hm'
  | setRoom _ _ _ => exact hsame hm'
  | joinEvent _ _ _ _ => exact hsame hm'
  | leaveEvent _ _ _ _ => exact hsame hm'
  | addEvent _ _ => exact hsame hm'
  | setUser _ => exact hsame hm'

/-! ## Rooms and users -/

/-- The document of a room after a request. -/
theorem rooms_apply (h : Applied newId s r s') (R : String) :
    s'.rooms.lookup R = s.rooms.lookup R ∨
      ∃ us t, r = .write (.setRoom R us t) ∧ s'.rooms.lookup R = some ⟨us, t⟩ := by
  cases h with
  | setRoom R₁ us t =>
      show (s.rooms.insert R₁ ⟨us, t⟩).lookup R = _ ∨ _
      rw [Collection.lookup_insert_eq]
      split
      · next heq => exact Or.inr ⟨us, t, by rw [heq], rfl⟩
      · exact Or.inl rfl
  | addMessage _ _ _ => exact Or.inl rfl
  | setRead _ _ _ _ => exact Or.inl rfl
  | setReacted _ _ _ _ => exact Or.inl rfl
  | joinEvent _ _ _ _ => exact Or.inl rfl
  | leaveEvent _ _ _ _ => exact Or.inl rfl
  | addEvent _ _ => exact Or.inl rfl
  | setUser _ => exact Or.inl rfl

theorem users_apply (h : Applied newId s r s') {k : String} {u : UserModal}
    (hu : s'.users.lookup k = some u) : s.users.lookup k = some u ∨ u.id = k := by
  cases h with
  | setUser u₁ =>
      change (s.users.insert u₁.id u₁).lookup k = some u at hu
      rw [Collection.lookup_insert_eq] at hu
      split at hu
      · next hk =>
          cases hu
          exact Or.inr hk.symm
      · exact Or.inl hu
  | addMessage _ _ _ => exact Or.inl hu
  | setRoom _ _ _ => exact Or.inl hu
  | setRead _ _ _ _ => exact Or.inl hu
  | setReacted _ _ _ _ => exact Or.inl hu
  | joinEvent _ _ _ _ => exact Or.inl hu
  | leaveEvent _ _ _ _ => exact Or.inl hu
  | addEvent _ _ => exact Or.inl hu

end Store

end CalendarApp
