/-
# `Chat.TwoWrites` — operations that change two documents

    _handleSubmit         adds a message and sets the room's document
    sendInvitation        does so for every invitee
    handleButton(true)    marks the invitation and joins the event

The two writes are sent one after the other and nothing ties them together,
so each of them may fail by itself.  Then one document is changed and the
other is not, unless the change had been made before: the room's document
already says so, the invitation was already answered, or the user already
takes part (`twoWrites_iff`).

The invitees of a sheet are different users, so their rooms are different,
and what happens to one invitation does not touch the documents of another
(`applyWrites_invitee`).
-/
import CalendarApp.Server.Store
import CalendarApp.Event.Invite
import CalendarApp.Lib.Atomic

namespace CalendarApp

open Lib

namespace Store

/-- An id that no room has a message under. -/
structure FreshId (s : Store) where
  id : String
  fresh : ∀ R, (s.messages R).lookup id = none

/-- One write: it fails, or is applied with the id for an `add`. -/
def attempt (s : Store) (w : Write) : Option String → Store
  | none => s
  | some newId => (s.apply newId (.write w)).getD s

/-- The writes one after the other, of which the `k`-th has the outcome
`outcome k`. -/
def applyWrites (outcome : Nat → Option String) : Nat → Store → List Write → Store
  | _, s, [] => s
  | k, s, w :: ws => applyWrites outcome (k + 1) (s.attempt w (outcome k)) ws

/-- The store has the same messages in the room `R`, and the same document of
it. -/
structure SameRoom (R : String) (s s' : Store) : Prop where
  messages : s'.messages R = s.messages R
  room : s'.rooms.lookup R = s.rooms.lookup R

/-- Both documents of a message sent into `R` are there, or neither changed. -/
def SentOrNot (R : String) (m : MsgDoc) (room : RoomDoc) (s s' : Store) : Prop :=
  ((∃ id, (s.messages R).lookup id = none ∧ (s'.messages R).lookup id = some m) ∧
      s'.rooms.lookup R = some room) ∨
    (s'.messages R = s.messages R ∧ s'.rooms.lookup R = s.rooms.lookup R)

/-- The invitation is answered. -/
def Answered (s : Store) (R id : String) : Prop :=
  ((s.messages R).lookup id).bind MsgDoc.isReacted = some true

/-- The user takes part in the event. -/
def TakesPart (s : Store) (E u : String) : Prop :=
  ∃ e, s.events.lookup E = some e ∧ u ∈ e.participants

/-- The invitation is answered and the user takes part, or neither document
changed. -/
def AcceptedOrNot (R id E u : String) (s s' : Store) : Prop :=
  (s'.Answered R id ∧ s'.TakesPart E u) ∨
    ((s'.messages R).lookup id = (s.messages R).lookup id ∧
      s'.events.lookup E = s.events.lookup E)

variable {s s' : Store} {R : String}

theorem SameRoom.refl (s : Store) : SameRoom R s s := ⟨rfl, rfl⟩

theorem SameRoom.trans {s'' : Store} (h : SameRoom R s s') (h' : SameRoom R s' s'') :
    SameRoom R s s'' :=
  ⟨h'.messages.trans h.messages, h'.room.trans h.room⟩

/-- A write that is attempted changes nothing, or is applied. -/
theorem attempt_cases (s : Store) (w : Write) (o : Option String) :
    s.attempt w o = s ∨ ∃ newId, s.Applied newId (.write w) (s.attempt w o) := by
  cases o with
  | none => exact Or.inl rfl
  | some newId =>
      simp only [attempt]
      cases happ : s.apply newId (.write w) with
      | none => exact Or.inl rfl
      | some s' => exact Or.inr ⟨newId, applied_of_apply happ⟩

theorem sameRoom_attempt {w : Write} (hw : w.room ≠ some R) (s : Store) (o : Option String) :
    SameRoom R s (s.attempt w o) := by
  rcases attempt_cases s w o with hsame | ⟨newId, happ⟩
  · rw [hsame]
    exact .refl s
  · generalize s.attempt w o = s' at happ
    have hR : ∀ R', w.room = some R' → R ≠ R' := fun R' hR' h => hw (h ▸ hR')
    cases happ with
    | addMessage R' m hnew => exact ⟨Function.update_of_ne (hR R' rfl) _ _, rfl⟩
    | setRoom R' us t => exact ⟨rfl, AList.lookup_insert_ne (hR R' rfl)⟩
    | setRead R' id m hm => exact ⟨Function.update_of_ne (hR R' rfl) _ _, rfl⟩
    | setReacted R' id m hm => exact ⟨Function.update_of_ne (hR R' rfl) _ _, rfl⟩
    | joinEvent E u e he => exact ⟨rfl, rfl⟩

theorem sameRoom_applyWrites {outcome : Nat → Option String} :
    ∀ {ws : List Write} (k : Nat) (s : Store), (∀ w ∈ ws, w.room ≠ some R) →
      SameRoom R s (applyWrites outcome k s ws)
  | [], _, s, _ => .refl s
  | w :: _, k, s, h =>
      (sameRoom_attempt (h w List.mem_cons_self) s (outcome k)).trans
        (sameRoom_applyWrites (k + 1) _ fun w' hw' => h w' (List.mem_cons_of_mem _ hw'))

theorem applyWrites_append {outcome : Nat → Option String} :
    ∀ (k : Nat) (s : Store) (ws ws' : List Write),
      applyWrites outcome k s (ws ++ ws') =
        applyWrites outcome (k + ws.length) (applyWrites outcome k s ws) ws'
  | _, _, [], _ => rfl
  | k, s, w :: ws, ws' => by
      rw [List.cons_append, applyWrites, applyWrites_append (k + 1), applyWrites,
        List.length_cons, Nat.add_right_comm, Nat.add_assoc]

/-! ## A message and its room -/

theorem messages_attempt_add {s₀ : Store} (hs : SameRoom R s s₀) (m : MsgDoc)
    {o : Option String} (hfresh : ∀ id ∈ o, (s.messages R).lookup id = none) :
    (s₀.attempt (.addMessage R m) o).messages R =
      o.elim (s.messages R) fun id => (s.messages R).insert id m := by
  cases o with
  | none => exact hs.messages
  | some id =>
      have hnew : (s₀.messages R).create id m = some ((s₀.messages R).insert id m) :=
        Collection.create_eq_some.mpr ⟨hs.messages ▸ hfresh id rfl, rfl⟩
      simp only [attempt, apply]
      rw [hnew, Option.map_some, Option.getD_some, setMessages, hs.messages]
      exact Function.update_self ..

theorem rooms_attempt_add (s : Store) (m : MsgDoc) (o : Option String) :
    (s.attempt (.addMessage R m) o).rooms = s.rooms := by
  rcases attempt_cases s (.addMessage R m) o with hsame | ⟨newId, happ⟩
  · rw [hsame]
  · generalize s.attempt (.addMessage R m) o = s' at happ
    cases happ
    rfl

theorem messages_attempt_room (s : Store) (us : List String) (t : Int) (o : Option String) :
    (s.attempt (.setRoom R us t) o).messages = s.messages := by
  cases o <;> rfl

theorem rooms_attempt_room (s : Store) (room : RoomDoc) (o : Option String) :
    (s.attempt (.setRoom R room.users room.lastUpdated) o).rooms.lookup R =
      if o.isSome = true then some room else s.rooms.lookup R := by
  cases o with
  | none => rfl
  | some id => exact AList.lookup_insert s.rooms

theorem aim_add {o : Option String} (hfresh : ∀ id ∈ o, (s.messages R).lookup id = none)
    {m : MsgDoc}
    (h : s'.messages R = o.elim (s.messages R) fun id => (s.messages R).insert id m) :
    Aim (o.isSome = true) False
      (∃ id, (s.messages R).lookup id = none ∧ (s'.messages R).lookup id = some m)
      (s'.messages R = s.messages R) := by
  rw [h]
  cases o with
  | none =>
      refine .of_skipped nofun rfl ⟨?_, False.elim⟩
      rintro ⟨id, hnone, hsome⟩
      cases hnone.symm.trans hsome
  | some id =>
      have hnone := hfresh id rfl
      have hsome : ((s.messages R).insert id m).lookup id = some m := AList.lookup_insert _
      refine .of_applied rfl ⟨id, hnone, hsome⟩ ⟨?_, False.elim⟩
      intro hsame
      have hsame : (s.messages R).insert id m = s.messages R := hsame
      rw [hsame, hnone] at hsome
      cases hsome

theorem aim_room {o : Option String} {room : RoomDoc}
    (h : s'.rooms.lookup R = if o.isSome = true then some room else s.rooms.lookup R) :
    Aim (o.isSome = true) (s.rooms.lookup R = some room) (s'.rooms.lookup R = some room)
      (s'.rooms.lookup R = s.rooms.lookup R) := by
  rw [h]
  by_cases ho : o.isSome = true
  · rw [if_pos ho]
    exact .of_applied ho rfl eq_comm
  · rw [if_neg ho]
    exact .of_skipped ho rfl Iff.rfl

/-- A message is added with its room's document, or neither is changed, exactly
when both writes are applied, or neither, or the document said so before. -/
theorem sentOrNot_iff {s₀ : Store} (hs : SameRoom R s s₀) {outcome : Nat → Option String}
    (hfresh : ∀ k, ∀ id ∈ outcome k, (s.messages R).lookup id = none) (k : Nat) (m : MsgDoc)
    (room : RoomDoc) (hs' : SameRoom R
      (applyWrites outcome k s₀ [.addMessage R m, .setRoom R room.users room.lastUpdated]) s') :
    SentOrNot R m room s s' ↔
      ((outcome k).isSome = true ↔ (outcome (k + 1)).isSome = true) ∨
        s.rooms.lookup R = some room := by
  have hmessages : s'.messages R = _ := hs'.messages.trans
    ((congrFun (messages_attempt_room ..) R).trans (messages_attempt_add hs m (hfresh k)))
  have hrooms : s'.rooms.lookup R = _ := hs'.room.trans (rooms_attempt_room ..)
  rw [rooms_attempt_add, hs.room] at hrooms
  have hiff := allOrNothing_iff (aim_add (hfresh k) hmessages) (aim_room hrooms)
  rw [false_or] at hiff
  exact hiff

/-! ## An answer and its event -/

theorem aim_reacted (s : Store) (R id : String) (o : Option String) :
    Aim (o.isSome = true ∧ ((s.messages R).lookup id).isSome = true) (s.Answered R id)
      ((s.attempt (.setReacted R id) o).Answered R id)
      (((s.attempt (.setReacted R id) o).messages R).lookup id = (s.messages R).lookup id) := by
  cases hm : (s.messages R).lookup id with
  | none =>
      have hsame : s.attempt (.setReacted R id) o = s := by
        cases o with
        | none => rfl
        | some newId =>
            simp only [attempt, apply, Collection.update, hm, Option.map_none, Option.getD_none]
      rw [hsame, hm]
      exact .of_skipped (fun h => nomatch h.2) rfl Iff.rfl
  | some m =>
      cases o with
      | none => exact .of_skipped (fun h => nomatch h.1) hm Iff.rfl
      | some newId =>
          have hafter : ((s.attempt (.setReacted R id) (some newId)).messages R).lookup id =
              some m.reacted := by
            simp only [attempt, apply, Collection.update, hm, Option.map_some, Option.getD_some,
              lookup_setMessages, and_self, if_true]
          refine .of_applied ⟨rfl, rfl⟩ ?_ ?_
          · rw [Answered, hafter]
            rfl
          · rw [hafter, Answered, hm, Option.bind_some, Option.some.injEq]
            constructor
            · intro h
              rw [← h]
              rfl
            · intro h
              cases m
              cases h
              rfl

theorem aim_join (s : Store) (E u : String) (o : Option String) :
    Aim (o.isSome = true ∧ (s.events.lookup E).isSome = true) (s.TakesPart E u)
      ((s.attempt (.joinEvent E u) o).TakesPart E u)
      ((s.attempt (.joinEvent E u) o).events.lookup E = s.events.lookup E) := by
  cases he : s.events.lookup E with
  | none =>
      have hsame : s.attempt (.joinEvent E u) o = s := by
        cases o with
        | none => rfl
        | some newId =>
            simp only [attempt, apply, Collection.update, he, Option.map_none, Option.getD_none]
      rw [hsame, he]
      exact .of_skipped (fun h => nomatch h.2) rfl Iff.rfl
  | some e =>
      cases o with
      | none => exact .of_skipped (fun h => nomatch h.1) he Iff.rfl
      | some newId =>
          have hafter : (s.attempt (.joinEvent E u) (some newId)).events.lookup E =
              some (e.join u) := by
            simp only [attempt, apply, Collection.update, he, Option.map_some, Option.getD_some,
              setEvents, AList.lookup_insert]
          refine .of_applied ⟨rfl, rfl⟩ ?_ ?_
          · exact ⟨e.join u, hafter, mem_arrayUnion.mpr (Or.inr rfl)⟩
          · rw [hafter, Option.some.injEq]
            constructor
            · intro h
              refine ⟨e, he, ?_⟩
              rw [← h]
              exact mem_arrayUnion.mpr (Or.inr rfl)
            · rintro ⟨e', he', hu⟩
              obtain rfl := Option.some.inj (he.symm.trans he')
              rw [EventDoc.join, arrayUnion, if_pos hu]

theorem messages_attempt_join (s : Store) (E u : String) (o : Option String) :
    (s.attempt (.joinEvent E u) o).messages = s.messages := by
  rcases attempt_cases s (.joinEvent E u) o with hsame | ⟨newId, happ⟩
  · rw [hsame]
  · generalize s.attempt (.joinEvent E u) o = s' at happ
    cases happ
    rfl

theorem events_attempt_reacted (s : Store) (R id : String) (o : Option String) :
    (s.attempt (.setReacted R id) o).events = s.events := by
  rcases attempt_cases s (.setReacted R id) o with hsame | ⟨newId, happ⟩
  · rw [hsame]
  · generalize s.attempt (.setReacted R id) o = s' at happ
    cases happ
    rfl

/-- An answer marks the invitation and joins the event, or does neither, exactly
when both writes are applied, or neither, or one of the two was done before. -/
theorem acceptedOrNot_iff (s : Store) (R id E u : String) (outcome : Nat → Option String) :
    AcceptedOrNot R id E u s
        (applyWrites outcome 0 s [.setReacted R id, .joinEvent E u]) ↔
      (((outcome 0).isSome = true ∧ ((s.messages R).lookup id).isSome = true) ↔
          (outcome 1).isSome = true ∧ (s.events.lookup E).isSome = true) ∨
        s.Answered R id ∨ s.TakesPart E u := by
  have hreact := aim_reacted s R id (outcome 0)
  have hjoin := aim_join (s.attempt (.setReacted R id) (outcome 0)) E u (outcome 1)
  simp only [TakesPart, events_attempt_reacted] at hjoin
  simp only [AcceptedOrNot, applyWrites, Answered, TakesPart, messages_attempt_join]
  exact allOrNothing_iff hreact hjoin

/-- The store after the writes, with fresh ids for what is added. -/
def after (s : Store) (outcome : Nat → Option s.FreshId) (ws : List Write) : Store :=
  applyWrites (fun k => (outcome k).map FreshId.id) 0 s ws

theorem fresh_outcome {s : Store} (outcome : Nat → Option s.FreshId) (R : String) (k : Nat) :
    ∀ id ∈ (outcome k).map FreshId.id, (s.messages R).lookup id = none := by
  intro id hid
  obtain ⟨fresh, -, rfl⟩ := Option.map_eq_some_iff.mp (Option.mem_def.mp hid)
  exact fresh.fresh R

end Store

/-! ## The three operations -/

/-- The message of `_handleSubmit`. -/
def textMessage (room : RoomIds) (msg : String) (now : Int) : MsgDoc where
  idFrom := room.id
  idTo := room.peerId
  timestamp := now
  content := msg
  type := 0
  isRead := false
  isReacted := none

/-- The message of `sendInvitation`. -/
def invitationMessage (userId eventId : String) (now : Int) (peerId : String) : MsgDoc where
  idFrom := userId
  idTo := peerId
  timestamp := now
  content := eventId
  type := 1
  isRead := false
  isReacted := some false

open Store

variable {hashCode : String → Int} {s s₀ s' : Store} {userId peer : Uid} {eventId : String}
  {now : Nat → Int}

theorem room_invitationTo {p : Uid} (hp : p ≠ peer) (t : Int) :
    ∀ w ∈ invitationTo hashCode userId eventId t p,
      w.room ≠ some (chatId hashCode userId peer) := by
  have hroom : chatId hashCode userId p ≠ chatId hashCode userId peer := fun h =>
    hp (Sym2.congr_right.mp (users_of_chatId h))
  intro w hw hR
  rcases List.mem_pair.mp hw with rfl | rfl <;> exact hroom (Option.some.inj hR)

/-- What happens to the documents of one invitee depends on his two writes
alone. -/
theorem applyWrites_invitee {outcome : Nat → Option String}
    (hfresh : ∀ k, ∀ id ∈ outcome k,
      (s.messages (chatId hashCode userId peer)).lookup id = none) :
    ∀ {peers : List Uid} {i : Nat} (j k : Nat) (s₀ : Store), peers.Nodup →
      peers[i]? = some peer → SameRoom (chatId hashCode userId peer) s s₀ →
      (SentOrNot (chatId hashCode userId peer)
          (invitationMessage userId eventId (now (j + i)) peer)
          ⟨[(userId : String), (peer : String)], now (j + i)⟩ s
          (applyWrites outcome k s₀
            (((peers.map fun u : Uid => (u : String)).zipIdx j).flatMap fun p =>
              invitationTo hashCode userId eventId (now p.2) p.1)) ↔
        ((outcome (k + 2 * i)).isSome = true ↔ (outcome (k + 2 * i + 1)).isSome = true) ∨
          s.rooms.lookup (chatId hashCode userId peer) =
            some ⟨[(userId : String), (peer : String)], now (j + i)⟩)
  | p :: peers, 0, j, k, s₀, hnd, hpeer, hs => by
      obtain rfl : p = peer := Option.some.inj hpeer
      rw [List.map_cons, List.zipIdx_cons, List.flatMap_cons, applyWrites_append]
      refine sentOrNot_iff hs hfresh k _ ⟨_, _⟩ (sameRoom_applyWrites _ _ ?_)
      intro w hw
      obtain ⟨q, hq, hw⟩ := List.mem_flatMap.mp hw
      obtain ⟨q', hq', hval⟩ := List.mem_map.mp (List.fst_mem_of_mem_zipIdx hq)
      rw [← hval] at hw
      refine room_invitationTo ?_ _ w hw
      rintro rfl
      exact (List.nodup_cons.mp hnd).1 hq'
  | p :: peers, i + 1, j, k, s₀, hnd, hpeer, hs => by
      have hpeer : peers[i]? = some peer := hpeer
      have hne : p ≠ peer := by
        rintro rfl
        exact (List.nodup_cons.mp hnd).1 (List.mem_of_getElem? hpeer)
      have hother : ∀ w ∈ invitationTo hashCode userId eventId (now j) p,
          w.room ≠ some (chatId hashCode userId peer) := room_invitationTo hne (now j)
      have hs₁ : SameRoom _ s
          (applyWrites outcome k s₀ (invitationTo hashCode userId eventId (now j) p)) :=
        hs.trans (sameRoom_applyWrites k s₀ hother)
      have ih := applyWrites_invitee hfresh (j + 1) (k + 2) _ (List.nodup_cons.mp hnd).2 hpeer hs₁
      rw [List.map_cons, List.zipIdx_cons, List.flatMap_cons, applyWrites_append]
      rw [Nat.add_right_comm j 1 i, Nat.add_right_comm k 2 (2 * i)] at ih
      exact ih

/-- After each of the three operations both of its documents are changed, or
neither is. -/
structure AllOrNothing (hashCode : String → Int) (s : Store)
    (outcome : Nat → Option s.FreshId) : Prop where
  submit : ∀ (room : RoomIds) (msg : String) (now : Int),
    SentOrNot room.chatId (textMessage room msg now) ⟨[room.id, room.peerId], now⟩ s
      (s.after outcome (handleSubmit room msg now))
  invite : ∀ (userId : Uid) (eventId : String) (now : Nat → Int) (sheet : InviteSheet)
      (peers : List Uid) (writes : List Write), peers.Nodup →
    sheet.usersId = some (peers.map fun u : Uid => (u : String)) →
    sheet.sendInvitation hashCode userId eventId now = some writes →
    ∀ (i : Nat) (peer : Uid), peers[i]? = some peer →
      SentOrNot (chatId hashCode userId peer) (invitationMessage userId eventId (now i) peer)
        ⟨[(userId : String), (peer : String)], now i⟩ s (s.after outcome writes)
  accept : ∀ msg : MsgModal,
    AcceptedOrNot (chatId hashCode msg.idTo msg.idFrom) msg.id msg.content msg.idTo s
      (s.after outcome (handleButton hashCode msg true))

theorem submit_iff (outcome : Nat → Option s.FreshId) (room : RoomIds) (msg : String)
    (now : Int) :
    SentOrNot room.chatId (textMessage room msg now) ⟨[room.id, room.peerId], now⟩ s
        (s.after outcome (handleSubmit room msg now)) ↔
      msg.toList.all isWhiteSpace = true ∨
        ((outcome 0).isSome = true ↔ (outcome 1).isSome = true) ∨
          s.rooms.lookup room.chatId = some ⟨[room.id, room.peerId], now⟩ := by
  simp only [handleSubmit]
  by_cases hblank : msg.toList.all isWhiteSpace = true
  · rw [if_pos hblank]
    exact iff_of_true (Or.inr ⟨rfl, rfl⟩) (Or.inl hblank)
  · rw [if_neg hblank, or_iff_right hblank]
    have hiff := sentOrNot_iff (SameRoom.refl s) (fresh_outcome outcome room.chatId) 0
      (textMessage room msg now) ⟨[room.id, room.peerId], now⟩ (SameRoom.refl _)
    rw [Option.isSome_map, Option.isSome_map] at hiff
    exact hiff

theorem invite_iff (outcome : Nat → Option s.FreshId) {sheet : InviteSheet} {peers : List Uid}
    {writes : List Write} (hnd : peers.Nodup)
    (hids : sheet.usersId = some (peers.map fun u : Uid => (u : String)))
    (hsend : sheet.sendInvitation hashCode userId eventId now = some writes) {i : Nat}
    (hpeer : peers[i]? = some peer) :
    SentOrNot (chatId hashCode userId peer) (invitationMessage userId eventId (now i) peer)
        ⟨[(userId : String), (peer : String)], now i⟩ s (s.after outcome writes) ↔
      ((outcome (2 * i)).isSome = true ↔ (outcome (2 * i + 1)).isSome = true) ∨
        s.rooms.lookup (chatId hashCode userId peer) =
          some ⟨[(userId : String), (peer : String)], now i⟩ := by
  have hwrites := hsend
  rw [InviteSheet.sendInvitation, hids, Option.map_some, Option.some.injEq] at hwrites
  have hiff := @applyWrites_invitee hashCode s userId peer eventId now _
    (fresh_outcome outcome (chatId hashCode userId peer)) _ _ 0 0 s hnd hpeer (.refl s)
  rw [Nat.zero_add, Nat.zero_add, Option.isSome_map, Option.isSome_map, hwrites] at hiff
  exact hiff

theorem accept_iff (outcome : Nat → Option s.FreshId) (msg : MsgModal) :
    AcceptedOrNot (chatId hashCode msg.idTo msg.idFrom) msg.id msg.content msg.idTo s
        (s.after outcome (handleButton hashCode msg true)) ↔
      (((outcome 0).isSome = true ∧
            ((s.messages (chatId hashCode msg.idTo msg.idFrom)).lookup msg.id).isSome = true) ↔
          (outcome 1).isSome = true ∧ (s.events.lookup msg.content).isSome = true) ∨
        s.Answered (chatId hashCode msg.idTo msg.idFrom) msg.id ∨
          s.TakesPart msg.content msg.idTo := by
  have hiff := acceptedOrNot_iff s (chatId hashCode msg.idTo msg.idFrom) msg.id msg.content
    msg.idTo fun k => (outcome k).map FreshId.id
  rw [Option.isSome_map, Option.isSome_map] at hiff
  exact hiff

/-- Each operation changes both of its documents or neither exactly when both of
its writes are applied, or neither is, or one of the two had nothing to
change. -/
theorem twoWrites_iff (hashCode : String → Int) (s : Store) (outcome : Nat → Option s.FreshId) :
    (∀ (room : RoomIds) (msg : String) (now : Int),
      SentOrNot room.chatId (textMessage room msg now) ⟨[room.id, room.peerId], now⟩ s
          (s.after outcome (handleSubmit room msg now)) ↔
        msg.toList.all isWhiteSpace = true ∨
          ((outcome 0).isSome = true ↔ (outcome 1).isSome = true) ∨
            s.rooms.lookup room.chatId = some ⟨[room.id, room.peerId], now⟩) ∧
    (∀ (userId : Uid) (eventId : String) (now : Nat → Int) (sheet : InviteSheet)
        (peers : List Uid) (writes : List Write), peers.Nodup →
      sheet.usersId = some (peers.map fun u : Uid => (u : String)) →
      sheet.sendInvitation hashCode userId eventId now = some writes →
      ∀ (i : Nat) (peer : Uid), peers[i]? = some peer →
        (SentOrNot (chatId hashCode userId peer) (invitationMessage userId eventId (now i) peer)
            ⟨[(userId : String), (peer : String)], now i⟩ s (s.after outcome writes) ↔
          ((outcome (2 * i)).isSome = true ↔ (outcome (2 * i + 1)).isSome = true) ∨
            s.rooms.lookup (chatId hashCode userId peer) =
              some ⟨[(userId : String), (peer : String)], now i⟩)) ∧
    ∀ msg : MsgModal,
      AcceptedOrNot (chatId hashCode msg.idTo msg.idFrom) msg.id msg.content msg.idTo s
          (s.after outcome (handleButton hashCode msg true)) ↔
        (((outcome 0).isSome = true ∧
              ((s.messages (chatId hashCode msg.idTo msg.idFrom)).lookup msg.id).isSome = true) ↔
            (outcome 1).isSome = true ∧ (s.events.lookup msg.content).isSome = true) ∨
          s.Answered (chatId hashCode msg.idTo msg.idFrom) msg.id ∨
            s.TakesPart msg.content msg.idTo := by
  refine ⟨submit_iff outcome, ?_, accept_iff outcome⟩
  intro userId eventId now sheet peers writes hnd hids hsend i peer hpeer
  exact invite_iff outcome hnd hids hsend hpeer

/-- A sheet with two users picked. -/
def twoPicked : InviteSheet where
  isInvited := [true, true]
  users := [⟨secondUid, ""⟩, ⟨thirdUid, ""⟩]
  parti := []

/-- The first of two invitations arrives, and the other one fails as a whole. -/
theorem twoWrites_second : ∃ writes,
    twoPicked.sendInvitation oneAtATime firstUid "e" (fun i => 7 + i) = some writes ∧
      SentOrNot (chatId oneAtATime firstUid thirdUid)
        (invitationMessage firstUid "e" 8 thirdUid)
        ⟨[(firstUid : String), (thirdUid : String)], 8⟩ Store.empty
        (Store.empty.after (fun k => if k < 2 then some ⟨"m", fun _ => rfl⟩ else none) writes) := by
  obtain ⟨-, hinvite, -⟩ := twoWrites_iff oneAtATime Store.empty
    fun k => if k < 2 then some ⟨"m", fun _ => rfl⟩ else none
  refine ⟨_, rfl, (hinvite firstUid "e" (fun i => 7 + i) twoPicked [secondUid, thirdUid] _ ?_ rfl
    rfl 1 thirdUid rfl).mpr (Or.inl ?_)⟩
  · decide +kernel
  · decide

/-- A message is added while the document of its room fails. -/
theorem allOrNothing_submit_fails :
    ¬ ∀ (hashCode : String → Int) (s : Store) (outcome : Nat → Option s.FreshId),
      AllOrNothing hashCode s outcome := by
  intro h
  have hsent := (h oneAtATime Store.empty
    fun k => if k = 0 then some ⟨"m", fun _ => rfl⟩ else none).submit
    (readLocal oneAtATime (some firstUid) thirdUid) "hi" 1
  rcases hsent with ⟨-, hroom⟩ | ⟨hsame, -⟩
  · revert hroom
    decide +kernel
  · have hmessage := congrArg (AList.lookup "m") hsame
    revert hmessage
    decide +kernel

end CalendarApp
