/-
# `Chat.Room` — which room a conversation lives in

A device computes the id of a room from the two user ids and their hash
codes.  The rule stands three times in the source, in `readLocal` for the
room a screen reads and writes, in `sendInvitation` for the room an
invitation is written to, and in `handleButton` for the room whose message a
reaction updates.

    chatId a b  =  a-b   if hashCode a ≤ hashCode b
                   b-a   otherwise

Ids without a dash can be read off the room id, so the rule names the ordered
pair it has chosen.  It chooses the same pair from both ends unless the two
hash codes are equal: then each end puts itself first (`roomIdentity_iff`).
A hash code of finite range takes one value at two ids, so such a pair exists
whatever the function is (`exists_tie`).
-/
import CalendarApp.Chat.Modal
import Mathlib.Data.Sym.Sym2
import Mathlib.Data.Set.Finite.Basic
import Mathlib.Data.Fintype.Pigeonhole

namespace CalendarApp

variable (hashCode : String → Int)

/-- The id of the room of two users, computed on the device of `id`. -/
def chatId (id peerId : String) : String :=
  if hashCode id ≤ hashCode peerId then id ++ "-" ++ peerId else peerId ++ "-" ++ id

/-! ## The room screen -/

/-- The ids a `ChatRoom` screen works with. -/
structure RoomIds where
  id : String
  peerId : String
  chatId : String
  deriving DecidableEq, Repr

/-- `readLocal()`, for the id saved in the preferences. -/
def readLocal (savedId : Option String) (peerId : String) : RoomIds where
  id := savedId.getD ""
  peerId := peerId
  chatId := chatId hashCode (savedId.getD "") peerId

/-- The characters that `trim` removes. -/
def isWhiteSpace (c : Char) : Bool :=
  (0x9 ≤ c.toNat && c.toNat ≤ 0xD) || (0x2000 ≤ c.toNat && c.toNat ≤ 0x200A) ||
    [0x20, 0x85, 0xA0, 0x1680, 0x2028, 0x2029, 0x202F, 0x205F, 0x3000, 0xFEFF].contains c.toNat

/-- `_handleSubmit(msg)`: the writes it sends, in order. -/
def handleSubmit (room : RoomIds) (msg : String) (now : Int) : List Write :=
  if msg.toList.all isWhiteSpace then []
  else
    [.addMessage room.chatId
      { idFrom := room.id
        idTo := room.peerId
        timestamp := now
        content := msg
        type := 0
        isRead := false
        isReacted := none },
      .setRoom room.chatId [room.id, room.peerId] now]

/-- The write of `itemBuilder` for a message of the list. -/
def markRead (room : RoomIds) (msg : MsgModal) : List Write :=
  if msg.idFrom = room.id then [] else [.setRead room.chatId msg.id]

/-! ## Invitations -/

/-- The loop body of `sendInvitation`, for one invitee. -/
def invitationTo (userId eventId : String) (now : Int) (peerId : String) : List Write :=
  [.addMessage (chatId hashCode userId peerId)
    { idFrom := userId
      idTo := peerId
      timestamp := now
      content := eventId
      type := 1
      isRead := false
      isReacted := some false },
    .setRoom (chatId hashCode userId peerId) [userId, peerId] now]

/-- The writes of `handleButton(accept)`. -/
def handleButton (msg : MsgModal) (accept : Bool) : List Write :=
  .setReacted (chatId hashCode msg.idTo msg.idFrom) msg.id ::
    if accept then [.joinEvent msg.content msg.idTo] else []

/-! ## The rooms a device uses -/

/-- A device signed in as `own` reads, or writes to, the room `r` for its
conversation with `peer`. -/
inductive UsesRoom (own peer r : String) : Prop
  | reads : (readLocal hashCode (some own) peer).chatId = r → UsesRoom own peer r
  | submits (msg : String) (now : Int) (w : Write) :
      w ∈ handleSubmit (readLocal hashCode (some own) peer) msg now → w.room = some r →
      UsesRoom own peer r
  | marks (msg : MsgModal) (w : Write) :
      w ∈ markRead (readLocal hashCode (some own) peer) msg → w.room = some r →
      UsesRoom own peer r
  | invites (eventId : String) (now : Int) (w : Write) :
      w ∈ invitationTo hashCode own eventId now peer → w.room = some r → UsesRoom own peer r
  | reacts (msg : MsgModal) (accept : Bool) (w : Write) : msg.idTo = own → msg.idFrom = peer →
      w ∈ handleButton hashCode msg accept → w.room = some r → UsesRoom own peer r

variable {hashCode}

theorem usesRoom_iff {own peer r : String} :
    UsesRoom hashCode own peer r ↔ r = chatId hashCode own peer := by
  constructor
  · intro h
    cases h with
    | reads h => exact h.symm
    | submits msg now w hw hr =>
        simp only [handleSubmit] at hw
        split at hw
        · cases hw
        · rcases List.mem_pair.mp hw with rfl | rfl <;> exact (Option.some.inj hr).symm
    | marks msg w hw hr =>
        simp only [markRead] at hw
        split at hw
        · cases hw
        · obtain rfl := List.mem_singleton.mp hw
          exact (Option.some.inj hr).symm
    | invites eventId now w hw hr =>
        rcases List.mem_pair.mp hw with rfl | rfl <;> exact (Option.some.inj hr).symm
    | reacts msg accept w hto hfrom hw hr =>
        subst hto hfrom
        rcases List.mem_cons.mp hw with rfl | hw
        · exact (Option.some.inj hr).symm
        · split at hw
          · obtain rfl := List.mem_singleton.mp hw
            cases hr
          · cases hw
  · rintro rfl
    exact .reads rfl

/-! ## Ids without a dash -/

/-- A user id: not empty, and without a dash. -/
def Uid := { s : String // s ≠ "" ∧ '-' ∉ s.toList }

instance : CoeOut Uid String := ⟨Subtype.val⟩

instance : DecidableEq Uid := inferInstanceAs (DecidableEq (Subtype _))

theorem dash_injective {a b c d : Uid}
    (h : (a : String) ++ "-" ++ b = (c : String) ++ "-" ++ d) : a = c ∧ b = d := by
  have hdash : "-".toList = ['-'] := by decide
  have hlist := congrArg String.toList h
  simp only [String.toList_append, hdash, List.append_assoc, List.singleton_append] at hlist
  obtain ⟨hac, -, hbd⟩ :=
    (List.append_cons_inj_of_notMem a.property.2 b.property.2).mp hlist
  exact ⟨Subtype.ext (String.toList_inj.mp hac), Subtype.ext (String.toList_inj.mp hbd)⟩

/-- The ordered pair that the rule chooses. -/
def chosenPair (hashCode : String → Int) (a b : Uid) : Uid × Uid :=
  if hashCode a ≤ hashCode b then (a, b) else (b, a)

/-- The room id names the chosen pair. -/
theorem chatId_eq_iff {a b c d : Uid} :
    chatId hashCode a b = chatId hashCode c d ↔
      chosenPair hashCode a b = chosenPair hashCode c d := by
  have hname : ∀ a b : Uid, chatId hashCode a b =
      ((chosenPair hashCode a b).1 : String) ++ "-" ++ (chosenPair hashCode a b).2 := by
    intro a b
    simp only [chatId, chosenPair]
    split <;> rfl
  rw [hname, hname]
  constructor
  · intro h
    obtain ⟨h₁, h₂⟩ := dash_injective h
    exact Prod.ext h₁ h₂
  · intro h
    rw [h]

theorem chosenPair_mk (a b : Uid) :
    s((chosenPair hashCode a b).1, (chosenPair hashCode a b).2) = s(a, b) := by
  simp only [chosenPair]
  split
  · rfl
  · exact Sym2.eq_swap

theorem users_of_chatId {a b c d : Uid} (h : chatId hashCode a b = chatId hashCode c d) :
    s(a, b) = s(c, d) := by
  rw [← @chosenPair_mk hashCode a b, chatId_eq_iff.mp h, chosenPair_mk]

/-- Both ends choose the same pair unless their hash codes are equal. -/
theorem chosenPair_swap {a b : Uid} (hab : a ≠ b) :
    chosenPair hashCode a b = chosenPair hashCode b a ↔ hashCode a ≠ hashCode b := by
  simp only [chosenPair]
  constructor
  · intro h heq
    rw [if_pos (le_of_eq heq), if_pos (le_of_eq heq.symm)] at h
    exact hab (congrArg Prod.fst h)
  · intro hne
    rcases lt_or_gt_of_ne hne with hlt | hgt
    · rw [if_pos (le_of_lt hlt), if_neg (not_le.mpr hlt)]
    · rw [if_neg (not_le.mpr hgt), if_pos (le_of_lt hgt)]

/-! ## One room for every pair -/

/-- Whatever a device of `a` does for `b` and a device of `c` does for `d`
concerns the same room exactly when the two pairs of users are the same. -/
def RoomIdentity (hashCode : String → Int) (a b c d : Uid) : Prop :=
  ∀ r r', UsesRoom hashCode a b r → UsesRoom hashCode c d r' → (r = r' ↔ s(a, b) = s(c, d))

theorem roomIdentity_eq {a b c d : Uid} :
    RoomIdentity hashCode a b c d ↔
      (chosenPair hashCode a b = chosenPair hashCode c d ↔ s(a, b) = s(c, d)) := by
  rw [← chatId_eq_iff]
  constructor
  · intro h
    exact h _ _ (usesRoom_iff.mpr rfl) (usesRoom_iff.mpr rfl)
  · intro h r r' hr hr'
    rw [usesRoom_iff.mp hr, usesRoom_iff.mp hr']
    exact h

/-- The rooms identify the pair of users, except for the two ends of a pair
whose hash codes are equal. -/
theorem roomIdentity_iff (hashCode : String → Int) (a b c d : Uid) (hab : a ≠ b) (hcd : c ≠ d) :
    RoomIdentity hashCode a b c d ↔ ¬ (c = b ∧ d = a ∧ hashCode a = hashCode b) := by
  rw [roomIdentity_eq]
  have hpair : chosenPair hashCode a b = chosenPair hashCode c d → s(a, b) = s(c, d) :=
    fun h => users_of_chatId (chatId_eq_iff.mpr h)
  constructor
  · rintro h ⟨rfl, rfl, htie⟩
    exact (chosenPair_swap hab).mp (h.mpr Sym2.eq_swap) htie
  · intro htie
    refine ⟨hpair, fun hsame => ?_⟩
    rcases Sym2.eq_iff.mp hsame with ⟨rfl, rfl⟩ | ⟨rfl, rfl⟩
    · rfl
    · exact (chosenPair_swap hab).mpr fun heq => htie ⟨rfl, rfl, heq⟩

/-! ## Ties -/

/-- The ids `a`, `aa`, `aaa`, ... -/
def uidOfLength (n : Nat) : Uid :=
  ⟨String.ofList (List.replicate (n + 1) 'a'), by
    constructor
    · intro h
      have hlen := congrArg (fun s => s.toList.length) h
      simp at hlen
    · rw [String.toList_ofList]
      intro h
      exact absurd (List.eq_of_mem_replicate h) (by decide)⟩

instance : Infinite Uid :=
  Infinite.of_injective uidOfLength fun m n h => by
    have hlen := congrArg (fun u : Uid => (u : String).toList.length) h
    simpa [uidOfLength] using hlen

/-- Whatever function of finite range hashes the ids, two users are in
different rooms from their two ends. -/
theorem exists_tie (hfin : (Set.range hashCode).Finite) :
    ∃ a b : Uid, a ≠ b ∧ ¬ RoomIdentity hashCode a b b a := by
  have : Finite (Set.range hashCode) := hfin
  obtain ⟨a, b, hab, hhash⟩ := Finite.exists_ne_map_eq_of_infinite
    fun u : Uid => (⟨hashCode u, Set.mem_range_self _⟩ : Set.range hashCode)
  refine ⟨a, b, hab, fun h => ?_⟩
  exact (roomIdentity_eq.mp h |>.mpr Sym2.eq_swap |> (chosenPair_swap hab).mp)
    (congrArg Subtype.val hhash)

def mixHash (hash : Nat) (c : Char) : Nat :=
  let h₁ := (hash + c.toNat) % 2 ^ 32
  let h₂ := (h₁ + h₁ <<< 10) % 2 ^ 32
  h₂ ^^^ (h₂ >>> 6)

def finishHash (hash : Nat) : Nat :=
  let h₁ := (hash + hash <<< 3) % 2 ^ 32
  let h₂ := h₁ ^^^ (h₁ >>> 11)
  let h₃ := (h₂ + h₂ <<< 15) % 2 ^ 30
  if h₃ = 0 then 1 else h₃

/-- A hash code of 30 bits, computed from the characters one at a time. -/
def oneAtATime (s : String) : Int := finishHash (s.toList.foldl mixHash 0)

/-- Two ids with the hash code 987634843. -/
def firstUid : Uid := ⟨"NaZMj6ltAZ1xLUcFdz5BYhsixrys", by decide +kernel⟩
def secondUid : Uid := ⟨"ybYlx4P9FI87bM0oxk8hWT5UlUYu", by decide +kernel⟩

/-- An id with another hash code. -/
def thirdUid : Uid := ⟨"NaZMj6ltAZ1xLUcFdz5BYhsixryt", by decide +kernel⟩

theorem roomIdentity_untied : RoomIdentity oneAtATime firstUid thirdUid thirdUid firstUid :=
  (roomIdentity_iff oneAtATime firstUid thirdUid thirdUid firstUid
    (fun h => absurd (congrArg Subtype.val h) (by decide +kernel))
    (fun h => absurd (congrArg Subtype.val h) (by decide +kernel))).mpr
    fun h => absurd h.2.2 (by decide +kernel)

/-- The first writes for the second into a room that the second does not
read. -/
theorem roomIdentity_tie_fails :
    ¬ ∀ a b c d : Uid, a ≠ b → c ≠ d → RoomIdentity oneAtATime a b c d := by
  intro h
  have hne : firstUid ≠ secondUid := fun h =>
    absurd (congrArg Subtype.val h) (by decide +kernel)
  have hids := roomIdentity_eq.mp (h firstUid secondUid secondUid firstUid hne hne.symm)
  exact (chosenPair_swap hne).mp (hids.mpr Sym2.eq_swap) (by decide +kernel)

end CalendarApp
