/-
# `Chat.Preview` — the last message, in the list of conversations

A row of the chat screen shows the last message of its room without opening
it.  Row and room ask for the messages with queries of their own.

    row     orderBy timestamp, descending     documents[0]
    room    orderBy timestamp                 all of them, a bubble each

The row is right because the two orders are each other's reverse, also where
two messages have the same time.  So in every reachable world a row shows the
last bubble of its room: its text, or `Invitation` for an invitation, with an
arrow exactly when the bubble stands on the side of the user's own messages; it
is blank exactly when the room has no bubble; and it never throws, since a
message is a text or an invitation (`rows_preview`).
-/
import CalendarApp.Chat.Order
import CalendarApp.Chat.Reactions
import CalendarApp.Chat.Times
import CalendarApp.Lib.Query
import Mathlib.Data.String.Basic

namespace CalendarApp

open Lib

namespace ChatScreen

/-- What a row shows of the last message: beside the peer's photo and name, an
arrow, a text and a time. -/
structure Tile where
  peer : UserModal
  forward : Bool
  text : String
  time : String
  deriving DecidableEq, Repr

/-- `msg`, which stays null for another type. -/
def subtitle (message : MsgModal) : Option String :=
  if message.type = 0 then some message.content
  else if message.type = 1 then some "Invitation"
  else none

/-- The builder of the inner stream of a row: blank without a message, and
`none` where the text is null. -/
def tile (z : Zone) (userId : String) (peer : UserModal) :
    ChatView.Snapshot → Option (Option Tile)
  | [] => some none
  | p :: _ =>
      let message := MsgModal.fromFirestore p.1 p.2
      (subtitle message).map fun msg => some
        { peer := peer
          forward := message.idFrom = userId
          text := msg
          time := timestamp z message.time }

/-- The messages of a row: `orderBy("timestamp", descending: true)`. -/
def rowSnapshot (s : Store) (R : String) : ChatView.Snapshot :=
  Query.orderByDescending MsgDoc.timestamp (s.messages R).documents

end ChatScreen

/-- The messages of an open room: `orderBy("timestamp", descending: false)`. -/
def ChatRoom.snapshot (s : Store) (R : String) : ChatView.Snapshot :=
  Query.orderBy MsgDoc.timestamp (s.messages R).documents

/-- The bubbles of a room that the user opens. -/
def ChatRoom.bubbles (s : Store) (R id : String) : List BubbleWidget :=
  builtItems id ((snapshot s R).map fun p => MsgModal.fromFirestore p.1 p.2)

/-- What a row says of a bubble. -/
def BubbleWidget.summary (z : Zone) (peer : UserModal) (w : BubbleWidget) : ChatScreen.Tile where
  peer := peer
  forward := w.isOwnMessage
  text := match w.kind with
    | .message => w.msg.content
    | .invitation => "Invitation"
  time := ChatScreen.timestamp z w.msg.time

/-- The row of the room `R` shows the last bubble of the room. -/
structure PreviewsLast (z : Zone) (s : Store) (R id : String) (peer : UserModal) : Prop where
  /-- there is a bubble for every message, in the order of their times -/
  all : (ChatRoom.bubbles s R id).map BubbleWidget.msg =
    (ChatRoom.snapshot s R).map fun p => MsgModal.fromFirestore p.1 p.2
  inOrder : (ChatRoom.bubbles s R id).Pairwise fun w w' => w.msg.time ≤ w'.msg.time
  last : ChatScreen.tile z id peer (ChatScreen.rowSnapshot s R) =
    some ((ChatRoom.bubbles s R id).getLast?.map (·.summary z peer))
  /-- the row is that of the newest message -/
  newest : s.newest R = (ChatRoom.bubbles s R id).getLast?.map fun w => w.msg.time

variable {z : Zone} {s : Store} {R id : String} {peer : UserModal}

theorem ChatRoom.mem_snapshot {p : String × MsgDoc} :
    p ∈ snapshot s R ↔ (s.messages R).lookup p.1 = some p.2 :=
  Query.mem_orderBy.trans Collection.mem_documents

/-- The row's messages are the room's, from the last one to the first. -/
theorem rowSnapshot_eq (s : Store) (R : String) :
    ChatScreen.rowSnapshot s R = (ChatRoom.snapshot s R).reverse :=
  Query.orderByDescending_eq (Collection.nodup_documents _)

theorem tile_eq {p : String × MsgDoc} {ps : ChatView.Snapshot}
    (h : p.2.type = 0 ∨ p.2.type = 1) : ∃ w,
      itemBuilder id (MsgModal.fromFirestore p.1 p.2) = some w ∧
        w.msg = MsgModal.fromFirestore p.1 p.2 ∧
        ChatScreen.tile z id peer (p :: ps) = some (some (w.summary z peer)) := by
  rcases h with h | h
  · refine ⟨⟨.message, MsgModal.fromFirestore p.1 p.2, p.2.idFrom = id⟩, if_pos h, rfl, ?_⟩
    have hsubtitle : ChatScreen.subtitle (MsgModal.fromFirestore p.1 p.2) = some p.2.content :=
      if_pos h
    simp only [ChatScreen.tile, hsubtitle, Option.map_some]
    rfl
  · have htype : (MsgModal.fromFirestore p.1 p.2).type = 1 := h
    have hne : ¬ (MsgModal.fromFirestore p.1 p.2).type = 0 := by
      rw [htype]
      decide
    refine ⟨⟨.invitation, MsgModal.fromFirestore p.1 p.2, p.2.idFrom = id⟩, ?_, rfl, ?_⟩
    · rw [itemBuilder, if_neg hne, if_pos htype]
      rfl
    · have hsubtitle : ChatScreen.subtitle (MsgModal.fromFirestore p.1 p.2) =
          some "Invitation" := by
        rw [ChatScreen.subtitle, if_neg hne, if_pos htype]
      simp only [ChatScreen.tile, hsubtitle, Option.map_some]
      rfl

theorem builtItems_append (id : String) {ms ms' : List MsgModal} (h : ChatView.Typed ms) :
    builtItems id (ms ++ ms') = builtItems id ms ++ builtItems id ms' := by
  induction ms with
  | nil => rfl
  | cons m ms ih =>
      obtain ⟨hm, hms⟩ := List.forall_mem_cons.mp h
      obtain ⟨k, -, hbuild⟩ := ChatView.itemBuilder_type id hm
      rw [List.cons_append, builtItems, builtItems, hbuild, ih hms, List.cons_append]

theorem map_msg_builtItems (id : String) {ms : List MsgModal} (h : ChatView.Typed ms) :
    (builtItems id ms).map BubbleWidget.msg = ms := by
  induction ms with
  | nil => rfl
  | cons m ms ih =>
      obtain ⟨hm, hms⟩ := List.forall_mem_cons.mp h
      obtain ⟨k, -, hbuild⟩ := ChatView.itemBuilder_type id hm
      rw [builtItems, hbuild, List.map_cons, ih hms]

theorem newest_eq_getLast? (s : Store) (R : String) :
    s.newest R = (ChatRoom.snapshot s R).getLast?.map fun p => p.2.timestamp := by
  rcases List.eq_nil_or_concat' (ChatRoom.snapshot s R) with hnil | ⟨before, p, hsnap⟩
  · rw [hnil, List.getLast?_nil, Option.map_none, Store.newest_eq_none]
    intro t ht
    obtain ⟨id, m, hm, -⟩ := Store.mem_timestamps.mp ht
    have hmem : (id, m) ∈ ChatRoom.snapshot s R := ChatRoom.mem_snapshot.mpr hm
    rw [hnil] at hmem
    exact List.not_mem_nil hmem
  · rw [hsnap, List.getLast?_concat, Option.map_some, Store.newest_eq_some]
    have hsorted : (ChatRoom.snapshot s R).Pairwise (Query.NotAfter MsgDoc.timestamp) :=
      Query.pairwise_orderBy MsgDoc.timestamp _
    have hlast : p ∈ ChatRoom.snapshot s R := by
      rw [hsnap]
      exact List.mem_concat_self
    refine ⟨Store.mem_timestamps.mpr ⟨p.1, p.2, ChatRoom.mem_snapshot.mp hlast, rfl⟩, ?_⟩
    intro t ht
    obtain ⟨id, m, hm, rfl⟩ := Store.mem_timestamps.mp ht
    have hmem : (id, m) ∈ ChatRoom.snapshot s R := ChatRoom.mem_snapshot.mpr hm
    rw [hsnap] at hmem hsorted
    rcases List.mem_append.mp hmem with hbefore | hself
    · exact ((List.pairwise_append.mp hsorted).2.2 _ hbefore _ List.mem_cons_self).key_le
    · exact (congrArg (fun q => q.2.timestamp) (List.mem_singleton.mp hself)).le

/-- Where every message is a text or an invitation, a row previews its room. -/
theorem previewsLast (z : Zone) (id : String) (peer : UserModal)
    (h : ∀ k m, (s.messages R).lookup k = some m → m.type = 0 ∨ m.type = 1) :
    PreviewsLast z s R id peer := by
  have htyped : ∀ {ps : ChatView.Snapshot}, (∀ p ∈ ps, p ∈ ChatRoom.snapshot s R) →
      ChatView.Typed (ps.map fun p => MsgModal.fromFirestore p.1 p.2) := by
    intro ps hps m hm
    obtain ⟨p, hp, rfl⟩ := List.mem_map.mp hm
    exact h p.1 p.2 (ChatRoom.mem_snapshot.mp (hps p hp))
  have hall : (ChatRoom.bubbles s R id).map BubbleWidget.msg =
      (ChatRoom.snapshot s R).map fun p => MsgModal.fromFirestore p.1 p.2 :=
    map_msg_builtItems id (htyped fun _ hp => hp)
  have hsorted : (ChatRoom.snapshot s R).Pairwise (Query.NotAfter MsgDoc.timestamp) :=
    Query.pairwise_orderBy MsgDoc.timestamp _
  refine ⟨hall, ?_, ?_, ?_⟩
  · rw [← List.pairwise_map (f := BubbleWidget.msg) (R := fun m m' => m.time ≤ m'.time), hall,
      List.pairwise_map]
    exact hsorted.imp Query.NotAfter.key_le
  · rw [rowSnapshot_eq]
    rcases List.eq_nil_or_concat' (ChatRoom.snapshot s R) with hnil | ⟨before, p, hsnap⟩
    · rw [ChatRoom.bubbles, hnil]
      rfl
    · have hp : p ∈ ChatRoom.snapshot s R := by
        rw [hsnap]
        exact List.mem_concat_self
      have hbefore : ∀ q ∈ before, q ∈ ChatRoom.snapshot s R := by
        intro q hq
        rw [hsnap]
        exact List.mem_append_left _ hq
      obtain ⟨w, hbuild, -, htile⟩ :=
        @tile_eq z id peer p before.reverse (h p.1 p.2 (ChatRoom.mem_snapshot.mp hp))
      rw [ChatRoom.bubbles, hsnap, List.reverse_append, List.map_append,
        builtItems_append id (htyped hbefore), List.reverse_singleton, List.singleton_append,
        htile, List.map_singleton, builtItems, hbuild, builtItems, List.getLast?_concat,
        Option.map_some]
  · rw [newest_eq_getLast?]
    have hlast := congrArg (fun ms => ms.getLast?.map MsgModal.time) hall
    simp only [List.getLast?_map, Option.map_map] at hlast
    exact hlast.symm

namespace World

/-- In every reachable world the row of a room shows the last bubble of the
room, for every user and every peer it finds. -/
theorem rows_preview (hashCode : String → Int) (user : Nat → Uid) (now : Int) (z : Zone)
    {tr : List (Action × World)} (hrun : Run (StepOf (step hashCode user)) (start now) tr) :
    ∀ R id peer, PreviewsLast z (final (start now) tr).store R id peer := by
  intro R id peer
  refine previewsLast z id peer fun k m hm => ?_
  cases (answered_run hrun).stored R k m hm with
  | text htype _ => exact Or.inl htype
  | waiting htype _ => exact Or.inr htype
  | given accept htype _ _ _ => exact Or.inr htype

/-- An invitation from the first user, in the row of the second. -/
theorem rows_preview_invitation : ∃ tr : List (Action × World),
    ChatScreen.tile (Zone.fixed 0) thirdUid ⟨firstUid, ""⟩
        (ChatScreen.rowSnapshot (final (start 0) tr).store
          (chatId oneAtATime firstUid thirdUid)) =
      some (some ⟨⟨firstUid, ""⟩, false, "Invitation", "0:00 AM"⟩) ∧
    ∀ R id peer, PreviewsLast (Zone.fixed 0) (final (start 0) tr).store R id peer := by
  obtain ⟨tr, -, hrun, htile⟩ := exists_run
    (f := step oneAtATime twoUsers) (s := start 0)
    (P := fun tr => ChatScreen.tile (Zone.fixed 0) thirdUid ⟨firstUid, ""⟩
        (ChatScreen.rowSnapshot (final (start 0) tr).store
          (chatId oneAtATime firstUid thirdUid)) =
      some (some ⟨⟨firstUid, ""⟩, false, "Invitation", "0:00 AM"⟩))
    [.act 0 (.signUp ""), .act 1 (.signUp ""), .deliver 0 "", .deliver 1 "",
      .act 0 (.invite thirdUid "e" 1), .deliver 0 "m", .deliver 0 ""]
    (by decide +kernel)
  exact ⟨tr, htile, rows_preview oneAtATime twoUsers 0 (Zone.fixed 0) hrun⟩

end World

end CalendarApp
