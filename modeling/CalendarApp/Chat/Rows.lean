/-
# `Chat.Rows` — the rows of the chat screen

`ChatScreen` listens to three kinds of snapshots, each of some state that the
server has been in, and none of them waits for another.

    chats k      the rooms of the user, latest first: the rows
    users k      the users, for the photo and the name of the peer
    room i k     the document of the room in row i

A row takes the first member of the document that is not the user, looks it
up among the users last delivered, and opens a room screen for what it finds.
The builders of the rows have no keys: when the rooms change places, a row
keeps the document it was given until another one is delivered to it.

Every document names its two users, the writer first, and a room belongs to
one pair of users (`RoomOf`).  The rows find their peers exactly as long as
(`Finds`)

    chats    a row that has a document stays with its room
    users    the list has the other member of every document in a row
    room     the document has another member, the list has that member, and
             unless the user wrote the document himself the hash codes of
             the two differ
-/
import CalendarApp.Chat.Order

namespace CalendarApp

open Lib

/-! ## A row -/

/-- `List.indexWhere`: the first index, or -1. -/
def indexWhere {α : Type} (p : α → Bool) (l : List α) : Int :=
  match l.findIdx? p with
  | some i => i
  | none => -1

/-- The element at an index, which throws for -1. -/
def elementAt {α : Type} (l : List α) (i : Int) : Option α :=
  if i < 0 then none else l[i.toNat]?

/-- `userBlock`: the peer of the row, or `none` where it throws. -/
def userBlock (userId : String) (users : List UserModal) (chatroomUsersId : List String) :
    Option UserModal :=
  (chatroomUsersId.find? (· ≠ userId)).bind fun peerId =>
    elementAt users (indexWhere (fun user => user.id = peerId) users)

theorem elementAt_indexWhere {α : Type} (p : α → Bool) (l : List α) :
    elementAt l (indexWhere p l) = l.find? p := by
  rcases Option.eq_none_or_eq_some (l.findIdx? p) with hi | ⟨i, hi⟩
  · have hindex : indexWhere p l = -1 := by simp only [indexWhere, hi]
    rw [List.findIdx?_eq_none_iff] at hi
    rw [hindex, elementAt, if_pos (by decide)]
    exact (List.find?_eq_none.mpr fun x hx => by simp [hi x hx]).symm
  · have hindex : indexWhere p l = i := by simp only [indexWhere, hi]
    obtain ⟨hlt, hp, hbefore⟩ := List.findIdx?_eq_some_iff_getElem.mp hi
    rw [hindex, elementAt, if_neg (by omega), Int.toNat_natCast, List.getElem?_eq_getElem hlt]
    refine (List.find?_eq_some_iff_getElem.mpr ⟨hp, i, hlt, rfl, ?_⟩).symm
    intro j hj
    simpa using hbefore j hj

/-- The document `us` of the room `R` names its two users. -/
def RoomOf (hashCode : String → Int) (R : String) (us : List String) : Prop :=
  ∃ a b : Uid, us = [(a : String), (b : String)] ∧ R = chatId hashCode a b

/-- The row of the room `R` finds the other member of the room, and opens the
room. -/
def RowFinds (hashCode : String → Int) (me : Uid) (store : Store) (R : String)
    (users : List UserModal) (us : List String) : Prop :=
  ∃ peer, userBlock me users us = some peer ∧
    (readLocal hashCode (some me) peer.id).chatId = R ∧
    ∀ doc, store.rooms.lookup R = some doc → doc.users.Perm [(me : String), peer.id]

variable {hashCode : String → Int} {me : Uid} {R S : String} {us : List String}

theorem RoomOf.unique (h : RoomOf hashCode S us) (hme : (me : String) ∈ us) {p q : String}
    (hp : p ∈ us ∧ p ≠ me) (hq : q ∈ us ∧ q ≠ me) : p = q := by
  obtain ⟨a, b, rfl, -⟩ := h
  have hpair : ∀ x ∈ [(a : String), (b : String)], x ≠ me → x = a ∧ (b : String) = me ∨
      x = b ∧ (a : String) = me := by
    intro x hx hne
    rcases List.mem_pair.mp hx with rfl | rfl
    · rcases List.mem_pair.mp hme with hma | hmb
      · exact absurd hma.symm hne
      · exact Or.inl ⟨rfl, hmb.symm⟩
    · rcases List.mem_pair.mp hme with hma | hmb
      · exact Or.inr ⟨rfl, hma.symm⟩
      · exact absurd hmb.symm hne
  rcases hpair p hp.1 hp.2 with ⟨rfl, hb⟩ | ⟨rfl, ha⟩
  · rcases hpair q hq.1 hq.2 with ⟨rfl, -⟩ | ⟨rfl, -⟩
    · rfl
    · exact absurd hb hq.2
  · rcases hpair q hq.1 hq.2 with ⟨rfl, -⟩ | ⟨rfl, -⟩
    · exact absurd ha hq.2
    · rfl

theorem userBlock_some {userId : String} {users : List UserModal} {peer : UserModal}
    (h : userBlock userId users us = some peer) :
    peer ∈ users ∧ peer.id ∈ us ∧ peer.id ≠ userId := by
  obtain ⟨p, hp, hpeer⟩ := Option.bind_eq_some_iff.mp h
  rw [elementAt_indexWhere] at hpeer
  have hid : peer.id = p := by simpa using List.find?_some hpeer
  have hne : p ≠ userId := by simpa using List.find?_some hp
  exact ⟨List.mem_of_find?_eq_some hpeer, hid ▸ List.mem_of_find?_eq_some hp, hid ▸ hne⟩

theorem exists_userBlock {users : List UserModal} {p : String} (h : RoomOf hashCode S us)
    (hme : (me : String) ∈ us) (hp : p ∈ us ∧ p ≠ me) (husers : p ∈ users.map UserModal.id) :
    ∃ peer, userBlock me users us = some peer ∧ peer.id = p := by
  cases hfind : us.find? (· ≠ (me : String)) with
  | none => exact absurd hp.2 (by simpa using List.find?_eq_none.mp hfind p hp.1)
  | some q =>
      have hq : q ∈ us ∧ q ≠ me :=
        ⟨List.mem_of_find?_eq_some hfind, by simpa using List.find?_some hfind⟩
      obtain rfl := h.unique hme hq hp
      obtain ⟨user, huser, rfl⟩ := List.mem_map.mp husers
      cases hpeer : users.find? (fun u => u.id = user.id) with
      | none => exact absurd (List.find?_eq_none.mp hpeer user huser) (by simp)
      | some peer =>
          refine ⟨peer, ?_, by simpa using List.find?_some hpeer⟩
          rw [userBlock, hfind, Option.bind_some, elementAt_indexWhere, hpeer]

/-- What a row finds, in terms of the members. -/
theorem rowFinds_iff {store : Store} {users : List UserModal}
    (hstore : ∀ doc, store.rooms.lookup R = some doc → RoomOf hashCode R doc.users)
    (h : RoomOf hashCode S us) (hme : (me : String) ∈ us) :
    RowFinds hashCode me store R users us ↔
      ∃ p, (p ∈ us ∧ p ≠ me) ∧ p ∈ users.map UserModal.id ∧ chatId hashCode me p = R := by
  constructor
  · rintro ⟨peer, hblock, hopens, -⟩
    obtain ⟨hpeer, hmem, hne⟩ := userBlock_some hblock
    exact ⟨peer.id, ⟨hmem, hne⟩, List.mem_map_of_mem hpeer, hopens⟩
  · rintro ⟨p, hp, husers, hopens⟩
    obtain ⟨peer, hblock, rfl⟩ := exists_userBlock h hme hp husers
    refine ⟨peer, hblock, hopens, fun doc hdoc => ?_⟩
    obtain ⟨a, b, hab, hR⟩ := hstore doc hdoc
    obtain ⟨c, d, rfl, -⟩ := h
    obtain ⟨q, hq⟩ : ∃ q : Uid, (q : String) = peer.id := by
      rcases List.mem_pair.mp hp.1 with hc | hd
      · exact ⟨c, hc.symm⟩
      · exact ⟨d, hd.symm⟩
    rw [hab, ← hq]
    rw [← hq] at hopens
    rcases Sym2.eq_iff.mp (users_of_chatId (hR.symm.trans hopens.symm)) with
      ⟨rfl, rfl⟩ | ⟨rfl, rfl⟩
    · exact List.Perm.refl _
    · exact List.Perm.swap ..

/-! ## The screen -/

/-- The server and the chat screen of one client. -/
structure ChatScreen where
  world : World
  /-- the states the server has been in, the last one first -/
  past : List Store
  /-- `chatId`, from the last snapshot of the rooms -/
  chatIds : Option (List String)
  /-- `users`, from the last snapshot of the users -/
  users : Option (List UserModal)
  /-- the members in the document that row `i` was given last -/
  row : Nat → Option (List String)

namespace ChatScreen

inductive Action where
  | world (a : World.Action)
  | chats (k : Nat)
  | users (k : Nat)
  | room (i k : Nat)

/-- Nobody has signed up, and the screen has got no snapshot. -/
def start (now : Int) : ChatScreen where
  world := World.start now
  past := [Store.empty]
  chatIds := none
  users := none
  row _ := none

variable (hashCode : String → Int) (user : Nat → Uid) (me : Uid)

/-- The room of row `i`. -/
def roomAt (s : ChatScreen) (i : Nat) : Option String := s.chatIds.bind (·[i]?)

/-- The rooms in the snapshot of a store. -/
def roomsIn (store : Store) : List String := (store.chatList me).map Prod.fst

/-- The screen after a snapshot of the rooms: a row that is still there keeps
its document. -/
def gotChats (s : ChatScreen) (store : Store) : ChatScreen :=
  { s with
    chatIds := some (roomsIn me store)
    row := fun i => if i < (roomsIn me store).length then s.row i else none }

/-- The screen after a snapshot of the users. -/
def gotUsers (s : ChatScreen) (store : Store) : ChatScreen :=
  { s with users := some store.users.docs }

/-- The screen after a snapshot of the document of row `i`. -/
def gotRoom (s : ChatScreen) (i : Nat) (doc : RoomDoc) : ChatScreen :=
  { s with row := Function.update s.row i (some doc.users) }

/-- A step of the server, or a snapshot of the `k`-th last state of it.  The
users are asked for when there are rooms, and a row is there when there are
users. -/
def step (s : ChatScreen) : Action → Option ChatScreen
  | .world a => (s.world.step hashCode user a).map fun w =>
      { s with world := w, past := w.store :: s.past }
  | .chats k => s.past[k]?.map (s.gotChats me)
  | .users k => if s.chatIds.isSome = true then s.past[k]?.map s.gotUsers else none
  | .room i k =>
      if s.users.isSome = true then
        (s.past[k]?.bind fun store => (s.roomAt i).bind fun R => store.rooms.lookup R).map
          (s.gotRoom i)
      else none

/-- Every row that has a document finds its peer. -/
def RowsFind (s : ChatScreen) : Prop :=
  ∀ i R users us, s.roomAt i = some R → s.users = some users → s.row i = some us →
    RowFinds hashCode me s.world.store R users us

/-- The document has another member, who is in the list. -/
def Known (users : List UserModal) (us : List String) : Prop :=
  ∃ p ∈ us, p ≠ me ∧ p ∈ users.map UserModal.id

/-- The user wrote the document, or the hash codes of its members differ. -/
def Untied (us : List String) : Prop :=
  us.head? = some (me : String) ∨ ∀ p ∈ us, p ≠ me → hashCode p ≠ hashCode me

/-- The rows find their peers with what a snapshot brings. -/
def Finds (s : ChatScreen) : Action → Prop
  | .world _ => True
  | .chats k => ∀ store ∈ s.past[k]?, ∀ p ∈ (roomsIn me store).zipIdx,
      (s.row p.2).isSome = true → s.roomAt p.2 = some p.1
  | .users k => ∀ store ∈ s.past[k]?, ∀ ids ∈ s.chatIds, ∀ i ∈ List.range ids.length,
      ∀ us ∈ s.row i, Known me store.users.docs us
  | .room i k => ∀ store ∈ s.past[k]?, ∀ R ∈ s.roomAt i, ∀ doc ∈ store.rooms.lookup R,
      ∀ users ∈ s.users, Known me users doc.users ∧ Untied hashCode me doc.users

instance (users : List UserModal) (us : List String) : Decidable (Known me users us) :=
  inferInstanceAs (Decidable (∃ _ ∈ _, _))

instance (us : List String) : Decidable (Untied hashCode me us) :=
  inferInstanceAs (Decidable (_ ∨ _))

instance (s : ChatScreen) : ∀ a, Decidable (Finds hashCode me s a)
  | .world _ => inferInstanceAs (Decidable True)
  | .chats _ => inferInstanceAs (Decidable (∀ _ ∈ _, ∀ _ ∈ _, _ → _))
  | .users _ => inferInstanceAs (Decidable (∀ _ ∈ _, ∀ _ ∈ _, ∀ _ ∈ _, ∀ _ ∈ _, _))
  | .room _ _ => inferInstanceAs (Decidable (∀ _ ∈ _, ∀ _ ∈ _, ∀ _ ∈ _, ∀ _ ∈ _, _))

/-- What a step can do. -/
inductive Stepped (s : ChatScreen) : Action → ChatScreen → Prop
  | world (a : World.Action) (w : World) : s.world.step hashCode user a = some w →
      Stepped s (.world a) { s with world := w, past := w.store :: s.past }
  | chats (k : Nat) (store : Store) : s.past[k]? = some store →
      Stepped s (.chats k) (s.gotChats me store)
  | users (k : Nat) (ids : List String) (store : Store) : s.chatIds = some ids →
      s.past[k]? = some store → Stepped s (.users k) (s.gotUsers store)
  | room (i k : Nat) (users : List UserModal) (R : String) (store : Store) (doc : RoomDoc) :
      s.users = some users → s.past[k]? = some store → s.roomAt i = some R →
      store.rooms.lookup R = some doc → Stepped s (.room i k) (s.gotRoom i doc)

/-- What the screen shows is of rooms of the user. -/
structure Consistent (s : ChatScreen) : Prop where
  honest : s.world.Honest hashCode user
  current : s.world.store ∈ s.past
  rooms : ∀ store ∈ s.past, ∀ R doc, store.rooms.lookup R = some doc →
    RoomOf hashCode R doc.users
  mine : ∀ i R, s.roomAt i = some R → ∃ us, RoomOf hashCode R us ∧ (me : String) ∈ us
  shown : ∀ i us, s.row i = some us →
    (∃ S, RoomOf hashCode S us) ∧ (me : String) ∈ us ∧ (∃ R, s.roomAt i = some R) ∧
      ∃ users, s.users = some users

variable {hashCode user me} {s s' : ChatScreen} {a : Action}

theorem stepped_of_step (h : s.step hashCode user me a = some s') :
    Stepped hashCode user me s a s' := by
  cases a with
  | world a =>
      obtain ⟨w, hw, rfl⟩ := Option.map_eq_some_iff.mp h
      exact .world a w hw
  | chats k =>
      obtain ⟨store, hstore, rfl⟩ := Option.map_eq_some_iff.mp h
      exact .chats k store hstore
  | users k =>
      simp only [step] at h
      split at h
      · next hids =>
          obtain ⟨ids, hids⟩ := Option.isSome_iff_exists.mp hids
          obtain ⟨store, hstore, rfl⟩ := Option.map_eq_some_iff.mp h
          exact .users k ids store hids hstore
      · cases h
  | room i k =>
      simp only [step] at h
      split at h
      · next husers =>
          obtain ⟨users, husers⟩ := Option.isSome_iff_exists.mp husers
          obtain ⟨doc, hdoc, rfl⟩ := Option.map_eq_some_iff.mp h
          obtain ⟨store, hstore, hdoc⟩ := Option.bind_eq_some_iff.mp hdoc
          obtain ⟨R, hR, hdoc⟩ := Option.bind_eq_some_iff.mp hdoc
          exact .room i k users R store doc husers hstore hR hdoc
      · cases h

theorem mem_of_room {R : String} {us us' : List String} (h : RoomOf hashCode R us)
    (h' : RoomOf hashCode R us') {p : String} (hp : p ∈ us) : p ∈ us' := by
  obtain ⟨a, b, rfl, hR⟩ := h
  obtain ⟨c, d, rfl, hR'⟩ := h'
  rcases Sym2.eq_iff.mp (users_of_chatId (hR.symm.trans hR')) with ⟨rfl, rfl⟩ | ⟨rfl, rfl⟩
  · exact hp
  · exact List.mem_pair.mpr (List.mem_pair.mp hp).symm

theorem Consistent.start (now : Int) : (ChatScreen.start now).Consistent hashCode user me where
  honest := World.Honest.start now
  current := List.mem_cons_self
  rooms store hstore R doc hdoc := by
    obtain rfl := List.mem_singleton.mp hstore
    cases hdoc
  mine _ _ hR := nomatch hR
  shown _ _ hus := nomatch hus

theorem rooms_step {w w' : World} {a : World.Action} (hI : w.Honest hashCode user)
    (hrooms : ∀ R doc, w.store.rooms.lookup R = some doc → RoomOf hashCode R doc.users)
    (h : w.step hashCode user a = some w') :
    ∀ R doc, w'.store.rooms.lookup R = some doc → RoomOf hashCode R doc.users := by
  intro R doc hdoc
  cases World.stepped_of_step h with
  | act d c rs hrs => exact hrooms R doc hdoc
  | fail d r q hq => exact hrooms R doc hdoc
  | deliver d newId r q store hq happ =>
      rcases Store.rooms_apply happ R with hsame | ⟨us, t, rfl, hnew⟩
      · exact hrooms R doc (hsame ▸ hdoc)
      · obtain rfl := Option.some.inj (hnew.symm.trans hdoc)
        obtain ⟨peer, hR, hus⟩ := hI.queued d _ (hq ▸ List.mem_cons_self)
        exact ⟨user d, peer, hus, hR⟩

theorem mem_roomsIn {store : Store} {R : String} (h : R ∈ roomsIn me store) :
    ∃ doc, store.rooms.lookup R = some doc ∧ (me : String) ∈ doc.users := by
  obtain ⟨⟨R, doc⟩, hp, rfl⟩ := List.mem_map.mp h
  obtain ⟨hentry, hme⟩ := List.mem_filter.mp (List.mem_mergeSort.mp hp)
  obtain ⟨e, he, heq⟩ := List.mem_map.mp hentry
  cases heq
  exact ⟨e.2, AList.mem_lookup_iff.mpr he, of_decide_eq_true hme⟩

theorem Consistent.step (hI : s.Consistent hashCode user me)
    (h : s.step hashCode user me a = some s') : s'.Consistent hashCode user me := by
  cases stepped_of_step h with
  | world a w hw =>
      refine ⟨hI.honest.step hw, List.mem_cons_self, ?_, hI.mine, hI.shown⟩
      intro store hstore
      rcases List.mem_cons.mp hstore with rfl | hold
      · exact rooms_step hI.honest (hI.rooms _ hI.current) hw
      · exact hI.rooms store hold
  | chats k store hstore =>
      refine ⟨hI.honest, hI.current, hI.rooms, ?_, ?_⟩
      · intro i R hR
        obtain ⟨doc, hdoc, hme⟩ := mem_roomsIn (List.mem_of_getElem? hR)
        exact ⟨doc.users, hI.rooms store (List.mem_of_getElem? hstore) R doc hdoc, hme⟩
      · intro i us hus
        simp only [gotChats] at hus
        split at hus
        · next hlt =>
            obtain ⟨hS, hme, -, husers⟩ := hI.shown i us hus
            exact ⟨hS, hme, ⟨_, List.getElem?_eq_getElem hlt⟩, husers⟩
        · cases hus
  | users k ids store hids hstore =>
      refine ⟨hI.honest, hI.current, hI.rooms, hI.mine, ?_⟩
      intro i us hus
      obtain ⟨hS, hme, hR, -⟩ := hI.shown i us hus
      exact ⟨hS, hme, hR, store.users.docs, rfl⟩
  | room i k users R store doc husers hstore hR hdoc =>
      refine ⟨hI.honest, hI.current, hI.rooms, hI.mine, ?_⟩
      intro j us hus
      by_cases hj : j = i
      · subst hj
        simp only [gotRoom, Function.update_self, Option.some.injEq] at hus
        subst hus
        have hroom := hI.rooms store (List.mem_of_getElem? hstore) R doc hdoc
        obtain ⟨us, hus, hme⟩ := hI.mine j R hR
        exact ⟨⟨R, hroom⟩, mem_of_room hus hroom hme, ⟨R, hR⟩, users, husers⟩
      · simp only [gotRoom, Function.update_of_ne hj] at hus
        exact hI.shown j us hus

/-! ## When the rows find their peers -/

/-- The row opens its own room unless the peer wrote the document and the hash
codes are equal. -/
theorem opens_iff {R : String} {us : List String} {p : String} (h : RoomOf hashCode R us)
    (hme : (me : String) ∈ us) (hp : p ∈ us ∧ p ≠ me) :
    chatId hashCode me p = R ↔ Untied hashCode me us := by
  have hunique : ∀ q, q ∈ us ∧ q ≠ me → q = p := fun q hq => h.unique hme hq hp
  obtain ⟨a, b, rfl, rfl⟩ := h
  rcases List.mem_pair.mp hme with ha | hb
  · obtain rfl : me = a := Subtype.ext ha
    obtain rfl : p = b := (List.mem_pair.mp hp.1).resolve_left hp.2
    exact iff_of_true rfl (Or.inl rfl)
  · obtain rfl : me = b := Subtype.ext hb
    obtain rfl : p = a := (List.mem_pair.mp hp.1).resolve_right hp.2
    have hne : me ≠ a := fun heq => hp.2 (congrArg Subtype.val heq).symm
    rw [chatId_eq_iff, chosenPair_swap hne]
    constructor
    · intro hdiff
      refine Or.inr fun q hq hqme => ?_
      rw [hunique q ⟨hq, hqme⟩]
      exact hdiff.symm
    · rintro (hhead | hdiff)
      · exact absurd (Option.some.inj hhead) hp.2
      · exact (hdiff a hp.1 hp.2).symm

theorem Consistent.finds_iff (hI : s.Consistent hashCode user me) {R : String}
    {users : List UserModal} {us : List String} (h : ∃ S, RoomOf hashCode S us)
    (hme : (me : String) ∈ us) :
    RowFinds hashCode me s.world.store R users us ↔
      ∃ p, (p ∈ us ∧ p ≠ me) ∧ p ∈ users.map UserModal.id ∧ chatId hashCode me p = R := by
  obtain ⟨S, hS⟩ := h
  exact rowFinds_iff (hI.rooms _ hI.current R) hS hme

theorem chats_rowsFind {store : Store} (hI : s.Consistent hashCode user me)
    (hF : s.RowsFind hashCode me) :
    (s.gotChats me store).RowsFind hashCode me ↔ ∀ p ∈ (roomsIn me store).zipIdx,
      (s.row p.2).isSome = true → s.roomAt p.2 = some p.1 := by
  constructor
  · rintro hF' ⟨R, i⟩ hRi hrow
    have hR : (roomsIn me store)[i]? = some R := List.mem_zipIdx_iff_getElem?.mp hRi
    obtain ⟨us, hus⟩ := Option.isSome_iff_exists.mp hrow
    obtain ⟨⟨S, hS⟩, hme, ⟨R₀, hR₀⟩, users, husers⟩ := hI.shown i us hus
    have hlt : i < (roomsIn me store).length := (List.getElem?_eq_some_iff.mp hR).1
    obtain ⟨p, hp, -, hopens⟩ := (hI.finds_iff ⟨S, hS⟩ hme).mp (hF i R₀ users us hR₀ husers hus)
    obtain ⟨q, hq, -, hopens'⟩ := (hI.finds_iff ⟨S, hS⟩ hme).mp
      (hF' i R users us hR husers ((if_pos hlt).trans hus))
    rw [hR₀, ← hopens, hS.unique hme hp hq, hopens']
  · intro hstay i R users us hR husers hus
    have hR : (roomsIn me store)[i]? = some R := hR
    have hlt : i < (roomsIn me store).length := (List.getElem?_eq_some_iff.mp hR).1
    have hus : s.row i = some us := (if_pos hlt).symm.trans hus
    have hstill := hstay (R, i) (List.mem_zipIdx_iff_getElem?.mpr hR) (hus ▸ rfl)
    exact hF i R users us hstill husers hus

theorem users_rowsFind {ids : List String} {store : Store} (hI : s.Consistent hashCode user me)
    (hF : s.RowsFind hashCode me) (hids : s.chatIds = some ids) :
    (s.gotUsers store).RowsFind hashCode me ↔
      ∀ i ∈ List.range ids.length, ∀ us ∈ s.row i, Known me store.users.docs us := by
  constructor
  · intro hF' i _ us hus
    obtain ⟨hS, hme, ⟨R, hR⟩, -⟩ := hI.shown i us hus
    obtain ⟨p, hp, hknown, -⟩ := (hI.finds_iff hS hme).mp (hF' i R store.users.docs us hR rfl hus)
    exact ⟨p, hp.1, hp.2, hknown⟩
  · intro hknown i R users us hR husers hus
    cases husers
    have hlt : i < ids.length := by
      have hget : s.chatIds.bind (·[i]?) = some R := hR
      rw [hids, Option.bind_some] at hget
      exact (List.getElem?_eq_some_iff.mp hget).1
    obtain ⟨⟨S, hS⟩, hme, -, users₀, husers₀⟩ := hI.shown i us hus
    obtain ⟨p, hp, -, hopens⟩ := (hI.finds_iff ⟨S, hS⟩ hme).mp (hF i R users₀ us hR husers₀ hus)
    obtain ⟨q, hq, hqme, hmem⟩ := hknown i (List.mem_range.mpr hlt) us hus
    rw [hS.unique hme ⟨hq, hqme⟩ hp] at hmem
    exact (hI.finds_iff ⟨S, hS⟩ hme).mpr ⟨p, hp, hmem, hopens⟩

theorem room_rowsFind {i : Nat} {R : String} {users : List UserModal} {doc : RoomDoc}
    (hI : s.Consistent hashCode user me) (hF : s.RowsFind hashCode me) (hR : s.roomAt i = some R)
    (husers : s.users = some users) (hdoc : RoomOf hashCode R doc.users)
    (hme : (me : String) ∈ doc.users) :
    (s.gotRoom i doc).RowsFind hashCode me ↔
      Known me users doc.users ∧ Untied hashCode me doc.users := by
  constructor
  · intro hF'
    have hrow : (s.gotRoom i doc).row i = some doc.users := Function.update_self ..
    obtain ⟨p, hp, hknown, hopens⟩ :=
      (hI.finds_iff ⟨R, hdoc⟩ hme).mp (hF' i R users doc.users hR husers hrow)
    exact ⟨⟨p, hp.1, hp.2, hknown⟩, (opens_iff hdoc hme hp).mp hopens⟩
  · rintro ⟨⟨p, hp, hpme, hknown⟩, huntied⟩ j R' users' us hR' husers' hus
    by_cases hj : j = i
    · subst hj
      obtain rfl := Option.some.inj (hR.symm.trans hR')
      obtain rfl := Option.some.inj (husers.symm.trans husers')
      simp only [gotRoom, Function.update_self, Option.some.injEq] at hus
      subst hus
      exact (hI.finds_iff ⟨R, hdoc⟩ hme).mpr ⟨p, ⟨hp, hpme⟩, hknown,
        (opens_iff hdoc hme ⟨hp, hpme⟩).mpr huntied⟩
    · simp only [gotRoom, Function.update_of_ne hj] at hus
      exact hF j R' users' us hR' husers' hus

/-- One step leaves every row with its peer exactly when what it brings has
the peers. -/
theorem step_rowsFind (hI : s.Consistent hashCode user me) (hF : s.RowsFind hashCode me)
    (h : s.step hashCode user me a = some s') :
    s'.RowsFind hashCode me ↔ s.Finds hashCode me a := by
  have hI' := hI.step h
  cases stepped_of_step h with
  | world a w hw =>
      refine iff_of_true (fun i R users us hR husers hus => ?_) trivial
      obtain ⟨hS, hme, -, -⟩ := hI.shown i us hus
      exact (hI'.finds_iff hS hme).mpr ((hI.finds_iff hS hme).mp (hF i R users us hR husers hus))
  | chats k store hstore =>
      simp only [Finds, hstore, Option.mem_some_iff, forall_eq']
      exact chats_rowsFind hI hF
  | users k ids store hids hstore =>
      simp only [Finds, hstore, hids, Option.mem_some_iff, forall_eq']
      exact users_rowsFind hI hF hids
  | room i k users R store doc husers hstore hR hdoc =>
      simp only [Finds, hstore, hR, hdoc, husers, Option.mem_some_iff, forall_eq']
      have hroom := hI.rooms store (List.mem_of_getElem? hstore) R doc hdoc
      obtain ⟨us, hus, hme⟩ := hI.mine i R hR
      exact room_rowsFind hI hF hR husers hroom (mem_of_room hus hroom hme)

/-- Along a run the rows find their peers exactly as long as every snapshot
brings what they need. -/
theorem rowsFind_iff (hashCode : String → Int) (user : Nat → Uid) (me : Uid) (now : Int)
    {tr : List (Action × ChatScreen)}
    (hrun : Run (StepOf (step hashCode user me)) (start now) tr) :
    Always (RowsFind hashCode me) (start now) tr ↔
      Guarded (Finds hashCode me) (start now) tr :=
  always_iff_guarded (I := Consistent hashCode user me) (C := Finds hashCode me)
    (fun _ _ _ => step_rowsFind) (fun _ _ _ hI h => hI.step h) (Consistent.start now)
    (fun _ _ _ _ hR => nomatch hR) hrun

/-- A message comes from a user who is in the list. -/
theorem rowsFind_greeting : ∃ tr : List (Action × ChatScreen),
    ((final (start 0) tr).row 0 = some [(thirdUid : String), (firstUid : String)]) ∧
      Always (RowsFind oneAtATime firstUid) (start 0) tr := by
  obtain ⟨tr, -, hrun, hrow, hfinds⟩ := exists_run
    (f := step oneAtATime World.twoUsers firstUid) (s := start 0)
    (P := fun tr => (final (start 0) tr).row 0 = some [(thirdUid : String), (firstUid : String)] ∧
      Guarded (Finds oneAtATime firstUid) (start 0) tr)
    [.world (.act 0 (.signUp "")), .world (.act 1 (.signUp "")), .world (.deliver 0 ""),
      .world (.deliver 1 ""), .world (.act 1 (.submit firstUid "hi" 1)),
      .world (.deliver 1 "m"), .world (.deliver 1 ""), .chats 0, .users 0, .room 0 0]
    (by decide +kernel)
  exact ⟨tr, hrow, (rowsFind_iff oneAtATime World.twoUsers firstUid 0 hrun).mpr hfinds⟩

/-- A new user writes, and his room is delivered while the list of users is
still the one without him. -/
theorem rowsFind_newUser_fails :
    ¬ ∀ (hashCode : String → Int) (user : Nat → Uid) (me : Uid) (now : Int)
      (tr : List (Action × ChatScreen)), Run (StepOf (step hashCode user me)) (start now) tr →
        Always (RowsFind hashCode me) (start now) tr := by
  intro h
  obtain ⟨tr, -, hrun, hroom, hbad⟩ := exists_run
    (f := step oneAtATime World.twoUsers firstUid) (s := start 0)
    (P := fun tr => ((final (start 0) tr).roomAt 0).isSome = true ∧
      ∃ users ∈ (final (start 0) tr).users, ∃ us ∈ (final (start 0) tr).row 0,
        userBlock firstUid users us = none)
    [.world (.act 0 (.signUp "")), .world (.deliver 0 ""), .chats 0, .users 0,
      .world (.act 1 (.signUp "")), .world (.deliver 1 ""),
      .world (.act 1 (.submit firstUid "hi" 1)), .world (.deliver 1 "m"), .world (.deliver 1 ""),
      .chats 0, .room 0 0]
    (by decide +kernel)
  obtain ⟨R, hR⟩ := Option.isSome_iff_exists.mp hroom
  obtain ⟨users, husers, us, hus, hnone⟩ := hbad
  obtain ⟨peer, hpeer, -⟩ := (h _ _ _ _ tr hrun).final 0 R users us hR husers hus
  rw [hnone] at hpeer
  cases hpeer

end ChatScreen

end CalendarApp
