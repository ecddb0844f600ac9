/-
# `Chat.OpenRoom` — a room that its users have open

A room is open on any number of clients of its two users.  The list builder
of a client writes `isRead = true` for every message of the peer that it
builds, on every rebuild, and no code asks whether the message is read
already.  A write that changes the data of the room makes a snapshot for each
client, which rebuilds its list.

    submit, invite, react     a client sends writes
    receive i                 client i rebuilds on the next snapshot
    build i                   client i rebuilds without one: a scroll, the keyboard
    apply i                   the first write of client i reaches the server

`Touch` is what a write does to the messages of the room: it adds one, sets a
mark on one, or leaves them as they are.  What changes them is paid for: the
first mark as read by a message that was unread, a message by its `add`, which
costs two, and a reaction by the tap (`Touch.unread_le`).
-/
import CalendarApp.Chat.Room
import CalendarApp.Server.Store

namespace CalendarApp

open Lib

/-- `snapshot.data.documents` of the room, ordered by `timestamp`, as messages. -/
def Store.roomSnapshot (s : Store) (R : String) : List MsgModal :=
  ((s.messages R).entries.map fun e => MsgModal.fromFirestore e.1 e.2).mergeSort
    fun m m' => m.time ≤ m'.time

/-- The open room on the clients `ι`. -/
structure OpenRoom (ι : Type) where
  store : Store
  /-- the messages of the snapshot built last -/
  shown : ι → List MsgModal
  /-- the snapshots that wait for the client -/
  incoming : ι → List (List MsgModal)
  /-- the writes that wait for the server -/
  writes : ι → List Write
  /-- the items the lists have built -/
  built : List (ι × MsgModal)
  /-- the messages of the marks that changed data -/
  marks : List String
  /-- the snapshots made since the room was opened -/
  snapshots : Nat

namespace OpenRoom

inductive Action (ι : Type) where
  | submit (i : ι) (msg : String) (now : Int)
  | invite (i : ι) (eventId : String) (now : Int)
  | react (i : ι) (msg : MsgModal) (accept : Bool)
  | receive (i : ι) (items : List Nat)
  | build (i : ι) (items : List Nat)
  | apply (i : ι) (newId : String)

variable {ι : Type}

/-- The snapshots an action pays for. -/
def Action.cost : Action ι → Nat
  | .submit _ _ _ => 2
  | .invite _ _ _ => 2
  | .react _ _ _ => 1
  | _ => 0

/-- A user sends something into the room. -/
def Action.sends : Action ι → Bool
  | .submit _ _ _ => true
  | .invite _ _ _ => true
  | .react _ _ _ => true
  | _ => false

/-- The action is one of the cycle, not one of a user. -/
def Action.cycle : Action ι → Bool
  | .receive _ _ => true
  | .apply _ _ => true
  | _ => false

/-- The room as the clients open it. -/
def start (R : String) (store : Store) : OpenRoom ι where
  store := store
  shown _ := []
  incoming _ := [store.roomSnapshot R]
  writes _ := []
  built := []
  marks := []
  snapshots := 0

/-- What the server makes of a write: an update of a document that is not
there is rejected. -/
def serve (newId : String) (store : Store) : Write → Option Store
  | .addMessage R m => store.apply newId (.write (.addMessage R m))
  | w => some ((store.apply newId (.write w)).getD store)

/-- The message a write marks. -/
def marksOf : Write → List String
  | .setRead _ id => [id]
  | _ => []

variable [DecidableEq ι] (hashCode : String → Int) (own peer : ι → String) (R : String)

/-- The ids of the room screen of a client. -/
def room (i : ι) : RoomIds := readLocal hashCode (some (own i)) (peer i)

/-- The client sends writes. -/
def sent (s : OpenRoom ι) (i : ι) (ws : List Write) : OpenRoom ι :=
  { s with writes := Function.update s.writes i (s.writes i ++ ws) }

/-- The client takes the snapshot `messages`, and the rest waits. -/
def took (s : OpenRoom ι) (i : ι) (messages : List MsgModal) (rest : List (List MsgModal)) :
    OpenRoom ι :=
  { s with
    shown := Function.update s.shown i messages
    incoming := Function.update s.incoming i rest }

/-- The messages of the items that a list builds. -/
def buildItems (s : OpenRoom ι) (i : ι) (items : List Nat) : List MsgModal :=
  items.filterMap fun k => (s.shown i)[k]?

/-- The list of the client builds these items. -/
def rebuilt (s : OpenRoom ι) (i : ι) (items : List Nat) : OpenRoom ι :=
  { s.sent i ((s.buildItems i items).flatMap (markRead (room hashCode own peer i))) with
    built := (s.buildItems i items).map (fun msg => (i, msg)) ++ s.built }

/-- The write `w` of the client has been served, and `q` waits. -/
def served (s : OpenRoom ι) (i : ι) (w : Write) (q : List Write) (store : Store) : OpenRoom ι :=
  let changed := (s.store.messages R).changed (store.messages R)
  { s with
    store := store
    writes := Function.update s.writes i q
    incoming := if changed then fun j => s.incoming j ++ [store.roomSnapshot R] else s.incoming
    marks := if changed then marksOf w ++ s.marks else s.marks
    snapshots := if changed then s.snapshots + 1 else s.snapshots }

def step (s : OpenRoom ι) : Action ι → Option (OpenRoom ι)
  | .submit i msg now => some (s.sent i (handleSubmit (room hashCode own peer i) msg now))
  | .invite i eventId now =>
      some (s.sent i (invitationTo hashCode (own i) eventId now (peer i)))
  | .react i msg accept => some (s.sent i (handleButton hashCode msg accept))
  | .receive i items =>
      match s.incoming i with
      | [] => none
      | messages :: rest => some ((s.took i messages rest).rebuilt hashCode own peer i items)
  | .build i items => some (s.rebuilt hashCode own peer i items)
  | .apply i newId =>
      match s.writes i with
      | [] => none
      | w :: q => (serve newId s.store w).map (s.served R i w q)

/-- No snapshot and no write is on its way. -/
def AtRest (s : OpenRoom ι) : Prop := ∀ i, s.incoming i = [] ∧ s.writes i = []

instance [Fintype ι] (s : OpenRoom ι) : Decidable s.AtRest :=
  inferInstanceAs (Decidable (∀ i, s.incoming i = [] ∧ s.writes i = []))

/-- Nobody sends anything, and the lists build only what they have built. -/
def Revisits (s : OpenRoom ι) : Action ι → Prop
  | .build i items => ∀ msg ∈ s.buildItems i items, ∃ msg', (i, msg') ∈ s.built ∧ msg'.id = msg.id
  | a => a.sends = false

/-! ## One write at the server -/

/-- The message is read. -/
def IsRead (c : Collection MsgDoc) (id : String) : Prop :=
  ∃ m, c.lookup id = some m ∧ m.isRead = true

/-- The message is of a document of the collection. -/
def Of (c : Collection MsgDoc) (msg : MsgModal) : Prop :=
  ∃ m, c.lookup msg.id = some m ∧ m.idFrom = msg.idFrom

/-- The snapshot has the documents of the collection. -/
def Shows (messages : List MsgModal) (c : Collection MsgDoc) : Prop :=
  ∀ msg, msg ∈ messages ↔ ∃ m, c.lookup msg.id = some m ∧ MsgModal.fromFirestore msg.id m = msg

/-- The number of messages not yet read. -/
def unread (c : Collection MsgDoc) : Nat := c.count fun m => !m.isRead

/-- The snapshots a write pays for. -/
def weight : Write → Nat
  | .addMessage _ _ => 2
  | .setReacted _ _ => 1
  | _ => 0

/-- What a write does to the messages `c` of the room `R`. -/
inductive Touch (newId R : String) (c : Collection MsgDoc) : Write → Collection MsgDoc → Prop
  | add (m : MsgDoc) : c.lookup newId = none → Touch newId R c (.addMessage R m) (c.insert newId m)
  | read (id : String) (m : MsgDoc) : c.lookup id = some m →
      Touch newId R c (.setRead R id) (c.insert id m.read)
  | react (id : String) (m : MsgDoc) : c.lookup id = some m →
      Touch newId R c (.setReacted R id) (c.insert id m.reacted)
  | other (w : Write) : (∀ id, w = .setRead R id → c.lookup id = none) → Touch newId R c w c

variable {hashCode own peer R} {s s' : OpenRoom ι} {a : Action ι} {i : ι} {w : Write}
  {newId : String} {c c' : Collection MsgDoc}

theorem mem_roomSnapshot (store : Store) : Shows (store.roomSnapshot R) (store.messages R) := by
  intro msg
  rw [Store.roomSnapshot, List.mem_mergeSort, List.mem_map]
  constructor
  · rintro ⟨⟨id, m⟩, he, rfl⟩
    exact ⟨m, AList.mem_lookup_iff.mpr he, rfl⟩
  · rintro ⟨m, hm, hmsg⟩
    exact ⟨⟨msg.id, m⟩, AList.mem_lookup_iff.mp hm, hmsg⟩

theorem setMessages_messages (store : Store) (R R' : String) :
    (store.setMessages R' c).messages R = if R = R' then c else store.messages R := by
  simp only [Store.setMessages]
  split
  · next h =>
      subst h
      exact Function.update_self ..
  · next h => exact Function.update_of_ne h ..

theorem touch_setMessages {R' : String} {store : Store}
    (hsame : R = R' → Touch newId R (store.messages R) w c)
    (hother : R ≠ R' → ∀ id, w ≠ .setRead R id) :
    Touch newId R (store.messages R) w ((store.setMessages R' c).messages R) := by
  rw [setMessages_messages]
  split
  · next h => exact hsame h
  · next h => exact .other w fun id hw => absurd hw (hother h id)

theorem touch_of_applied {store store' : Store} (h : store.Applied newId (.write w) store') :
    Touch newId R (store.messages R) w (store'.messages R) := by
  cases h with
  | addMessage R' m hnew =>
      refine touch_setMessages (fun h => ?_) (fun _ _ => by simp)
      subst h
      exact .add m hnew
  | setRead R' id m hm =>
      refine touch_setMessages (fun h => ?_) (fun hne id' heq => ?_)
      · subst h
        exact .read id m hm
      · cases heq
        exact hne rfl
  | setReacted R' id m hm =>
      refine touch_setMessages (fun h => ?_) (fun _ _ => by simp)
      subst h
      exact .react id m hm
  | setRoom R' us t => exact .other _ fun _ hw => nomatch hw
  | joinEvent E u e he => exact .other _ fun _ hw => nomatch hw

theorem apply_of_serve {store store' : Store} (h : serve newId store w = some store') :
    store.apply newId (.write w) = some store' ∨
      store.apply newId (.write w) = none ∧ store' = store := by
  have hgetD : ∀ {o : Option Store}, some (o.getD store) = some store' →
      o = some store' ∨ o = none ∧ store' = store := by
    intro o ho
    cases o with
    | none => exact Or.inr ⟨rfl, (Option.some.inj ho).symm⟩
    | some store₁ => exact Or.inl ho
  cases w with
  | addMessage R' m => exact Or.inl h
  | setRoom _ _ _ => exact hgetD h
  | setRead _ _ => exact hgetD h
  | setReacted _ _ => exact hgetD h
  | joinEvent _ _ => exact hgetD h

theorem touch_of_serve {store store' : Store} (h : serve newId store w = some store') :
    Touch newId R (store.messages R) w (store'.messages R) := by
  rcases apply_of_serve h with happ | ⟨hnone, rfl⟩
  · exact touch_of_applied (Store.applied_of_apply happ)
  · refine .other w fun id hw => ?_
    subst hw
    exact Option.map_eq_none_iff.mp (Option.map_eq_none_iff.mp hnone)

namespace Touch

theorem kept (h : Touch newId R c w c') {id : String} {m : MsgDoc} (hm : c.lookup id = some m) :
    ∃ m', c'.lookup id = some m' ∧ m.Marked m' := by
  have hinsert : ∀ id' m' m₁, c.lookup id' = some m₁ → m₁.Marked m' →
      ∃ m₂, (c.insert id' m').lookup id = some m₂ ∧ m.Marked m₂ := by
    intro id' m' m₁ hm₁ hmark
    rw [Collection.lookup_insert_eq]
    split
    · next hid =>
        subst hid
        obtain rfl := Option.some.inj (hm.symm.trans hm₁)
        exact ⟨m', rfl, hmark⟩
    · exact ⟨m, hm, .refl m⟩
  cases h with
  | add m₁ hnew =>
      refine ⟨m, ?_, .refl m⟩
      rw [Collection.lookup_insert_eq, if_neg]
      · exact hm
      · rintro rfl
        exact absurd (hnew.symm.trans hm) (by simp)
  | read id₁ m₁ hm₁ => exact hinsert id₁ m₁.read m₁ hm₁ m₁.marked_read
  | react id₁ m₁ hm₁ => exact hinsert id₁ m₁.reacted m₁ hm₁ m₁.marked_reacted
  | other w hw => exact ⟨m, hm, .refl m⟩

theorem isRead (h : Touch newId R c w c') {id : String} (hid : IsRead c id) : IsRead c' id := by
  obtain ⟨m, hm, hread⟩ := hid
  obtain ⟨m', hm', hmark⟩ := h.kept hm
  exact ⟨m', hm', hmark.isRead hread⟩

theorem of (h : Touch newId R c w c') {msg : MsgModal} (hmsg : Of c msg) : Of c' msg := by
  obtain ⟨m, hm, hfrom⟩ := hmsg
  obtain ⟨m', hm', hmark⟩ := h.kept hm
  exact ⟨m', hm', hmark.idFrom.trans hfrom⟩

theorem reads {id : String} {m : MsgDoc} (h : Touch newId R c (.setRead R id) c')
    (hm : c.lookup id = some m) : IsRead c' id := by
  cases h with
  | read _ m₁ hm₁ => exact ⟨m₁.read, AList.lookup_insert c, rfl⟩
  | other _ hw => exact absurd ((hw id rfl).symm.trans hm) (by simp)

theorem marks (h : Touch newId R c w c') (hch : c.changed c' = true) {id : String}
    (hid : id ∈ marksOf w) : ¬ IsRead c id ∧ IsRead c' id := by
  cases h with
  | add _ _ => cases hid
  | react _ _ _ => cases hid
  | other w hw =>
      have hsame : c.changed c = false := Collection.changed_eq_false.mpr fun _ => rfl
      exact absurd (hsame.symm.trans hch) (by simp)
  | read id₁ m hm =>
      obtain rfl := List.mem_singleton.mp hid
      refine ⟨?_, m.read, AList.lookup_insert c, rfl⟩
      rintro ⟨m', hm', hread⟩
      obtain rfl := Option.some.inj (hm.symm.trans hm')
      refine Collection.changed_insert.mp hch (hm.trans (congrArg some ?_))
      rw [MsgDoc.read, ← hread]

theorem unchanged {id : String} (h : Touch newId R c (.setRead R id) c') (hid : IsRead c id) :
    c.changed c' = false := by
  rw [← Bool.not_eq_true]
  exact fun hch => (h.marks hch (List.mem_singleton_self id)).1 hid

/-- A change is paid for. -/
theorem unread_le (h : Touch newId R c w c') :
    unread c' + (if c.changed c' then 1 else 0) ≤ unread c + weight w := by
  have hone : (if c.changed c' then 1 else 0) ≤ 1 := by split <;> simp
  cases h with
  | add m hnew =>
      have hcount : unread (c.insert newId m) = unread c + if !m.isRead then 1 else 0 :=
        Collection.count_insert_new hnew
      have hnewOne : (if !m.isRead then 1 else 0) ≤ 1 := by split <;> simp
      simp only [weight]
      omega
  | react id m hm =>
      have hcount : unread (c.insert id m.reacted) + (if !m.isRead then 1 else 0) =
          unread c + if !m.isRead then 1 else 0 := Collection.count_insert_old hm
      simp only [weight]
      omega
  | other w hw =>
      have hsame : c.changed c = false := Collection.changed_eq_false.mpr fun _ => rfl
      rw [hsame, if_neg (by simp)]
      exact Nat.le_add_right _ _
  | read id m hm =>
      have hcount : unread (c.insert id m.read) + (if !m.isRead then 1 else 0) = unread c + 0 :=
        Collection.count_insert_old hm
      cases hread : m.isRead with
      | true =>
          have htouch : Touch newId R c (.setRead R id) (c.insert id m.read) := .read id m hm
          rw [htouch.unchanged ⟨m, hm, hread⟩, if_neg (by simp)]
          omega
      | false =>
          rw [hread] at hcount
          simp only [Bool.not_false, if_true] at hcount
          omega

end Touch

/-- A write that changes no data makes no snapshot. -/
theorem served_of_unchanged {q : List Write} {store : Store}
    (h : (s.store.messages R).changed (store.messages R) = false) :
    (s.served R i w q store).incoming = s.incoming ∧ (s.served R i w q store).marks = s.marks ∧
      (s.served R i w q store).snapshots = s.snapshots := by
  simp only [served, h, Bool.false_eq_true, if_false, and_self]

/-- A write that changes data makes one for each client. -/
theorem served_of_changed {q : List Write} {store : Store}
    (h : (s.store.messages R).changed (store.messages R) = true) :
    (s.served R i w q store).incoming = (fun j => s.incoming j ++ [store.roomSnapshot R]) ∧
      (s.served R i w q store).marks = marksOf w ++ s.marks ∧
      (s.served R i w q store).snapshots = s.snapshots + 1 := by
  simp only [served, h, if_true, and_self]

/-! ## What a step can do -/

/-- What a step can do. -/
inductive Stepped (hashCode : String → Int) (own peer : ι → String) (R : String)
    (s : OpenRoom ι) : Action ι → OpenRoom ι → Prop
  | send (a : Action ι) (i : ι) (ws : List Write) : a.sends = true →
      (ws.map weight).sum ≤ a.cost → (∀ R' id, .setRead R' id ∉ ws) →
      Stepped hashCode own peer R s a (s.sent i ws)
  | receive (i : ι) (items : List Nat) (messages : List MsgModal) (rest : List (List MsgModal)) :
      s.incoming i = messages :: rest →
      Stepped hashCode own peer R s (.receive i items)
        ((s.took i messages rest).rebuilt hashCode own peer i items)
  | build (i : ι) (items : List Nat) :
      Stepped hashCode own peer R s (.build i items) (s.rebuilt hashCode own peer i items)
  | apply (i : ι) (newId : String) (w : Write) (q : List Write) (store : Store) :
      s.writes i = w :: q → Touch newId R (s.store.messages R) w (store.messages R) →
      Stepped hashCode own peer R s (.apply i newId) (s.served R i w q store)

theorem stepped_of_step (h : step hashCode own peer R s a = some s') :
    Stepped hashCode own peer R s a s' := by
  cases a with
  | submit i msg now =>
      cases h
      refine .send _ i _ rfl ?_ ?_
      · simp only [handleSubmit]
        split <;> simp [weight, Action.cost]
      · intro R' id hmem
        simp only [handleSubmit] at hmem
        split at hmem
        · cases hmem
        · rcases List.mem_pair.mp hmem with heq | heq <;> cases heq
  | invite i eventId now =>
      cases h
      refine .send _ i _ rfl (by simp [invitationTo, weight, Action.cost]) ?_
      intro R' id hmem
      rcases List.mem_pair.mp hmem with heq | heq <;> cases heq
  | react i msg accept =>
      cases h
      refine .send _ i _ rfl ?_ ?_
      · cases accept <;> simp [handleButton, weight, Action.cost]
      · intro R' id hmem
        cases accept <;> simp [handleButton] at hmem
  | receive i items =>
      simp only [step] at h
      split at h
      · cases h
      · next messages rest hin =>
          cases h
          exact .receive i items messages rest hin
  | build i items =>
      cases h
      exact .build i items
  | apply i newId =>
      simp only [step] at h
      split at h
      · cases h
      · next w q hq =>
          obtain ⟨store, hstore, rfl⟩ := Option.map_eq_some_iff.mp h
          exact .apply i newId w q store hq (touch_of_serve hstore)

end OpenRoom

end CalendarApp
