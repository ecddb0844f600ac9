/-
# `Chat.Reach` — the two lists of people

Two screens list the people a user can open a conversation with, each from
snapshots of the rooms that contain him and of all users.

    ChatScreen   a row for each room: the peer, if the room has a message
    NewChat      the users who are in none of these rooms, and not himself

They are complementary when no row is blank: a room that has a document has a
message too (`Filled`), since the message goes ahead of the document in the
queue of its sender.  So in every state that a run without failing writes
visits, at rest or not, every other user of the app is on one of the screens
and not on both (`reachedOnce_always`), and he is on NewChat once, since a user's
document is filed under his id.
-/
import CalendarApp.Chat.Rows

namespace CalendarApp

open Lib

namespace ChatScreen

/-- The peer of a row of the screen that is not blank. -/
def rowPeer (me : String) (store : Store) (R : String) : Option UserModal :=
  (store.rooms.lookup R).bind fun doc =>
    (userBlock me store.users.docs doc.users).bind fun peer =>
      if (store.messages R).docs.isEmpty then none else some peer

/-- The peers on the screen, room by room. -/
def peers (me : String) (store : Store) : List UserModal :=
  ((store.chatList me).map Prod.fst).filterMap (rowPeer me store)

end ChatScreen

namespace NewChat

/-- `peersId`: the other members of the rooms. -/
def peersId (userId : String) (store : Store) : List String :=
  (store.chatList userId).flatMap fun p => p.2.users.filter (· ≠ userId)

/-- `users`: the documents that pass the test of the loop. -/
def users (userId : String) (store : Store) : List UserModal :=
  store.users.docs.filter fun u => !(peersId userId store).contains u.id && u.id ≠ userId

end NewChat

/-- Every other user is on one of the two screens of `me`, once if on NewChat;
`me` is on none. -/
structure ReachedOnce (store : Store) (me : String) : Prop where
  others : ∀ v ∈ store.users, v ≠ me →
    v ∈ (ChatScreen.peers me store).map UserModal.id ∧
        ((NewChat.users me store).map UserModal.id).count v = 0 ∨
      v ∉ (ChatScreen.peers me store).map UserModal.id ∧
        ((NewChat.users me store).map UserModal.id).count v = 1
  self : me ∉ (ChatScreen.peers me store).map UserModal.id ∧
    me ∉ (NewChat.users me store).map UserModal.id

/-! ## What the lists are made of -/

/-- A document of a room that contains the user, in the store. -/
def Store.HasRoom (s : Store) (me R : String) (doc : RoomDoc) : Prop :=
  s.rooms.lookup R = some doc ∧ me ∈ doc.users

/-- What the two lists rely on. -/
structure Store.Filled (hashCode : String → Int) (s : Store) : Prop where
  /-- a room is of two users -/
  rooms : ∀ R doc, s.rooms.lookup R = some doc → RoomOf hashCode R doc.users
  /-- and has a message -/
  filled : ∀ R doc, s.rooms.lookup R = some doc → ∃ t, t ∈ s.timestamps R
  /-- a user is filed under his id -/
  keyed : ∀ k u, s.users.lookup k = some u → u.id = k

variable {hashCode : String → Int} {store : Store} {me v R : String} {doc : RoomDoc}

theorem mem_chatList : (R, doc) ∈ store.chatList me ↔ store.HasRoom me R doc := by
  rw [Store.chatList, List.mem_mergeSort, List.mem_filter, decide_eq_true_eq, Store.HasRoom]
  refine and_congr_left fun _ => ?_
  constructor
  · intro h
    obtain ⟨e, he, heq⟩ := List.mem_map.mp h
    cases heq
    exact AList.mem_lookup_iff.mpr he
  · intro h
    exact List.mem_map.mpr ⟨⟨R, doc⟩, AList.mem_lookup_iff.mp h, rfl⟩

theorem mem_peersId :
    v ∈ NewChat.peersId me store ↔ ∃ R doc, store.HasRoom me R doc ∧ v ∈ doc.users ∧ v ≠ me := by
  rw [NewChat.peersId, List.mem_flatMap]
  constructor
  · rintro ⟨⟨R, doc⟩, hroom, hv⟩
    obtain ⟨hmem, hne⟩ := List.mem_filter.mp hv
    exact ⟨R, doc, mem_chatList.mp hroom, hmem, of_decide_eq_true hne⟩
  · rintro ⟨R, doc, hroom, hmem, hne⟩
    exact ⟨(R, doc), mem_chatList.mpr hroom, List.mem_filter.mpr ⟨hmem, decide_eq_true hne⟩⟩

namespace Store.Filled

theorem mem_users (h : store.Filled hashCode) :
    v ∈ store.users ↔ v ∈ store.users.docs.map UserModal.id := by
  rw [← AList.lookup_isSome, Option.isSome_iff_exists, List.mem_map]
  constructor
  · rintro ⟨u, hu⟩
    exact ⟨u, Collection.mem_docs.mpr ⟨v, hu⟩, h.keyed v u hu⟩
  · rintro ⟨u, hu, rfl⟩
    obtain ⟨k, hk⟩ := Collection.mem_docs.mp hu
    rw [h.keyed k u hk]
    exact ⟨u, hk⟩

theorem nodup_users (h : store.Filled hashCode) : (store.users.docs.map UserModal.id).Nodup := by
  have hkeys : store.users.docs.map UserModal.id = store.users.entries.keys := by
    rw [Collection.docs, List.map_map, List.keys]
    refine List.map_congr_left fun e he => ?_
    exact h.keyed e.1 e.2 (AList.mem_lookup_iff.mpr he)
  rw [hkeys]
  exact store.users.nodupKeys

/-- Every other user who is in a room is on the screen, and nobody else. -/
theorem mem_peers {me : Uid} (h : store.Filled hashCode) (hv : v ∈ store.users) :
    v ∈ (ChatScreen.peers me store).map UserModal.id ↔ v ∈ NewChat.peersId me store := by
  rw [mem_peersId, ChatScreen.peers, List.mem_map]
  constructor
  · rintro ⟨peer, hpeer, rfl⟩
    obtain ⟨R, hR, hrow⟩ := List.mem_filterMap.mp hpeer
    obtain ⟨⟨R, doc'⟩, hroom, rfl⟩ := List.mem_map.mp hR
    obtain ⟨doc, hdoc, hrow⟩ := Option.bind_eq_some_iff.mp hrow
    obtain ⟨peer', hblock, hrow⟩ := Option.bind_eq_some_iff.mp hrow
    split at hrow
    · cases hrow
    · cases hrow
      obtain ⟨-, hmem, hne⟩ := userBlock_some hblock
      obtain ⟨hdoc', hme⟩ := mem_chatList.mp hroom
      obtain rfl : doc' = doc := Option.some.inj (hdoc'.symm.trans hdoc)
      exact ⟨R, doc', ⟨hdoc, hme⟩, hmem, hne⟩
  · rintro ⟨R, doc, ⟨hdoc, hme⟩, hmem, hne⟩
    obtain ⟨peer, hblock, hid⟩ := exists_userBlock (h.rooms R doc hdoc) hme ⟨hmem, hne⟩
      (h.mem_users.mp hv)
    refine ⟨peer, List.mem_filterMap.mpr ⟨R, ?_, ?_⟩, hid⟩
    · exact List.mem_map.mpr ⟨(R, doc), mem_chatList.mpr ⟨hdoc, hme⟩, rfl⟩
    · -- the room has a message, so the row is not blank
      obtain ⟨t, ht⟩ := h.filled R doc hdoc
      have hdocs : (store.messages R).docs.isEmpty = false := by
        obtain ⟨m, hm, -⟩ := List.mem_map.mp ht
        exact List.isEmpty_eq_false_iff.mpr (List.ne_nil_of_mem hm)
      rw [ChatScreen.rowPeer, hdoc, Option.bind_some, hblock, Option.bind_some, hdocs]
      rfl

/-- On the other screen are the users who are in no room. -/
theorem count_newChat (h : store.Filled hashCode) (hv : v ∈ store.users) (hne : v ≠ me) :
    ((NewChat.users me store).map UserModal.id).count v =
      if v ∈ NewChat.peersId me store then 0 else 1 := by
  split
  · next hpeer =>
      rw [List.count_eq_zero]
      intro hmem
      obtain ⟨u, hu, rfl⟩ := List.mem_map.mp hmem
      have htest := (List.mem_filter.mp hu).2
      simp only [Bool.and_eq_true, Bool.not_eq_true', List.contains_eq_mem, decide_eq_false_iff_not]
        at htest
      exact htest.1 hpeer
  · next hpeer =>
      obtain ⟨u, hu, rfl⟩ := List.mem_map.mp (h.mem_users.mp hv)
      have hmem : u ∈ NewChat.users me store := by
        refine List.mem_filter.mpr ⟨hu, ?_⟩
        simp only [Bool.and_eq_true, Bool.not_eq_true', List.contains_eq_mem,
          decide_eq_false_iff_not, decide_eq_true_eq]
        exact ⟨hpeer, hne⟩
      have hsub : ((NewChat.users me store).map UserModal.id).Sublist
          (store.users.docs.map UserModal.id) := List.filter_sublist.map UserModal.id
      exact List.count_eq_one_of_mem (hsub.nodup h.nodup_users) (List.mem_map_of_mem hmem)

theorem reachedOnce (h : store.Filled hashCode) (me : Uid) : ReachedOnce store me where
  others v hv hne := by
    rw [h.mem_peers hv, h.count_newChat hv hne]
    by_cases hpeer : v ∈ NewChat.peersId me store
    · exact Or.inl ⟨hpeer, if_pos hpeer⟩
    · exact Or.inr ⟨hpeer, if_neg hpeer⟩
  self := by
    constructor
    · intro hmem
      obtain ⟨peer, hpeer, hid⟩ := List.mem_map.mp hmem
      obtain ⟨R, -, hrow⟩ := List.mem_filterMap.mp hpeer
      obtain ⟨doc, -, hrow⟩ := Option.bind_eq_some_iff.mp hrow
      obtain ⟨peer', hblock, hrow⟩ := Option.bind_eq_some_iff.mp hrow
      split at hrow
      · cases hrow
      · cases hrow
        exact (userBlock_some hblock).2.2 hid
    · intro hmem
      obtain ⟨u, hu, hid⟩ := List.mem_map.mp hmem
      have htest := (List.mem_filter.mp hu).2
      rw [Bool.and_eq_true, decide_eq_true_eq] at htest
      exact htest.2 hid

end Store.Filled

/-! ## Along a run -/

namespace World

/-- What a run without failing writes keeps. -/
structure Reaching (hashCode : String → Int) (user : Nat → Uid) (w : World) : Prop where
  honest : w.Honest hashCode user
  inPairs : w.InPairs
  filled : w.store.Filled hashCode

variable {user : Nat → Uid} {w w' : World} {a : Action}

theorem Reaching.start (now : Int) : (World.start now).Reaching hashCode user where
  honest := Honest.start now
  inPairs := InPairs.start now
  filled := ⟨fun _ _ h => (nomatch h), fun _ _ h => (nomatch h), fun _ _ h => (nomatch h)⟩

theorem filled_delivered {d : Nat} {newId : String} {r : Request} {q : List Request}
    {store : Store} (hI : w.Reaching hashCode user) (hq : w.queue d = r :: q)
    (happ : w.store.Applied newId r store) {R : String} {doc : RoomDoc}
    (hdoc : store.rooms.lookup R = some doc) : ∃ t, t ∈ store.timestamps R := by
  have hgrow : ∀ t, t ∈ w.store.timestamps R → t ∈ store.timestamps R := fun t ht =>
    (Store.timestamps_apply happ).mpr (Or.inl ht)
  rcases Store.rooms_apply happ R with hsame | ⟨us, t, rfl, -⟩
  · obtain ⟨t, ht⟩ := hI.filled.filled R doc (hsame ▸ hdoc)
    exact ⟨t, hgrow t ht⟩
  · -- the message of the document went ahead of it
    exact ⟨t, hgrow t ((hq ▸ hI.inPairs.backed d).head rfl)⟩

theorem Reaching.step (hI : w.Reaching hashCode user) (h : w.work hashCode user a = some w') :
    w'.Reaching hashCode user := by
  obtain ⟨hstep, hworks⟩ := step_of_work h
  have hrooms := ChatScreen.rooms_step hI.honest hI.filled.rooms hstep
  refine ⟨hI.honest.step hstep, hI.inPairs.step h, ?_⟩
  cases stepped_of_step hstep with
  | act d c rs hrs => exact hI.filled
  | deliver d newId r q store hq happ =>
      refine ⟨hrooms, fun R doc hdoc => filled_delivered hI hq happ hdoc, fun k u hu => ?_⟩
      rcases Store.users_apply happ hu with hold | hid
      · exact hI.filled.keyed k u hold
      · exact hid
  | fail d r q hq => exact absurd rfl (hworks d)

/-- In every state of a run without failing writes, at rest or not, every other
registered user is on exactly one of the two screens of a user, and the user
himself on none. -/
theorem reachedOnce_always (hashCode : String → Int) (user : Nat → Uid) (now : Int)
    {tr : List (Action × World)} (hrun : Run (StepOf (work hashCode user)) (start now) tr) :
    Always (fun w => ∀ me : Uid, ReachedOnce w.store me) (start now) tr := by
  have hkept : ∀ w a w', w.Reaching hashCode user → StepOf (work hashCode user) w a w' →
      (∀ me : Uid, ReachedOnce w'.store me) ∧ w'.Reaching hashCode user := by
    intro w a w' hI h
    have hI' := hI.step h
    exact ⟨hI'.filled.reachedOnce, hI'⟩
  have hstart : (World.start now).Reaching hashCode user := .start now
  exact ⟨hstart.filled.reachedOnce, Along.of_run hkept hstart hrun⟩

/-- After a message the two users have each other on ChatScreen. -/
theorem reachedOnce_greeting : ∃ tr : List (Action × World),
    (ChatScreen.peers (firstUid : String) (final (start 0) tr).store).map UserModal.id =
      [(thirdUid : String)] ∧
    Always (fun w => ∀ me : Uid, ReachedOnce w.store me) (start 0) tr := by
  obtain ⟨tr, -, hrun, hpeers⟩ := exists_run
    (f := work oneAtATime twoUsers) (s := start 0)
    (P := fun tr => (ChatScreen.peers (firstUid : String) (final (start 0) tr).store).map
      UserModal.id = [(thirdUid : String)])
    [.act 0 (.signUp ""), .act 1 (.signUp ""), .deliver 0 "", .deliver 1 "",
      .act 1 (.submit firstUid "hi" 1), .deliver 1 "m", .deliver 1 ""]
    (by decide +kernel)
  exact ⟨tr, hpeers, reachedOnce_always oneAtATime twoUsers 0 hrun⟩

end World

end CalendarApp
