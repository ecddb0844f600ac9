/-
# `Chat.Receipts` — who has read a message

The reader of a message decides from `idFrom` alone that a message is not
its own, and marks it as read.  Nobody looks at `idTo`.  Still a message is
only ever marked by a device of its addressee, because

    a message is written to the room of its sender and its addressee
    the room id names these two users, whatever the hash codes are
    a device opens rooms of its own user only

so that whoever opens the room and is not the sender is the addressee
(`Honest.addressed`).  A device marks what a snapshot of the open room shows
it (`received_of_run`), and no request takes a mark back.
-/
import CalendarApp.Server.World

namespace CalendarApp

namespace World

open Lib

variable (hashCode : String → Int) (user : Nat → Uid)

/-- In the run, device `d` had the room `R` open and got the message `id` in a
snapshot. -/
def GotSnapshot (tr : List (Action × World)) (d : Nat) (R id : String) : Prop :=
  ∃ peer ids, .act d (.receive peer ids) ∈ tr.map Prod.fst ∧ id ∈ ids ∧
    R = (room hashCode user d peer).chatId

/-- What the world `w` after the run says about its messages. -/
structure Sound (tr : List (Action × World)) (w : World) : Prop where
  /-- a device of the addressee, and not of the sender, got a message read -/
  read : ∀ R id m, (w.store.messages R).lookup id = some m → m.isRead = true →
    ∃ d, GotSnapshot hashCode user tr d R id ∧ (user d : String) = m.idTo ∧ m.idTo ≠ m.idFrom
  /-- a room has the messages between the two users it was computed from -/
  users : ∀ R id m, (w.store.messages R).lookup id = some m →
    (∃ a b : Uid, R = chatId hashCode a b) ∧
      ∀ a b : Uid, R = chatId hashCode a b → s((a : String), (b : String)) = s(m.idFrom, m.idTo)

/-- A message that is read stays, and stays read. -/
def ReadStays (w : World) (_ : Action) (w' : World) : Prop :=
  ∀ R id m, (w.store.messages R).lookup id = some m → m.isRead = true →
    ∃ m', (w'.store.messages R).lookup id = some m' ∧ m'.isRead = true

variable {hashCode user} {w w' : World} {a : Action}

theorem step_readStays (h : w.step hashCode user a = some w') : ReadStays w a w' := by
  intro R id m hm hread
  cases stepped_of_step h with
  | act d c rs hrs => exact ⟨m, hm, hread⟩
  | deliver d newId r q store hq happ =>
      obtain ⟨m', hm', hmark⟩ := Store.message_kept happ hm
      exact ⟨m', hm', hmark.isRead hread⟩
  | fail d r q hq => exact ⟨m, hm, hread⟩

/-- Every receipt is of a snapshot. -/
theorem step_received (h : w.step hashCode user a = some w') {d : Nat} {R id : String}
    (hrec : (d, R, id) ∈ w'.received) : (d, R, id) ∈ w.received ∨
      ∃ peer ids, a = .act d (.receive peer ids) ∧ id ∈ ids ∧
        R = (room hashCode user d peer).chatId := by
  cases stepped_of_step h with
  | act e c rs hrs =>
      cases c with
      | receive peer ids =>
          rcases List.mem_append.mp hrec with hnew | hold
          · obtain ⟨id', hid, heq⟩ := List.mem_map.mp hnew
            cases heq
            exact Or.inr ⟨peer, ids, rfl, hid, rfl⟩
          · exact Or.inl hold
      | signUp _ => exact Or.inl hrec
      | signIn => exact Or.inl hrec
      | submit _ _ _ => exact Or.inl hrec
      | invite _ _ _ => exact Or.inl hrec
      | react _ _ _ => exact Or.inl hrec
      | createEvent _ => exact Or.inl hrec
      | leave _ => exact Or.inl hrec
  | deliver e newId r q store hq happ => exact Or.inl hrec
  | fail e r q hq => exact Or.inl hrec

theorem received_of_run {d : Nat} {R id : String} :
    ∀ {w : World} {tr : List (Action × World)}, Run (StepOf (step hashCode user)) w tr →
      (d, R, id) ∈ (final w tr).received →
      (d, R, id) ∈ w.received ∨ GotSnapshot hashCode user tr d R id
  | _, [], _, hrec => Or.inl hrec
  | w, (a, w') :: tr, ⟨h, hrun⟩, hrec => by
      rcases received_of_run hrun hrec with hold | ⟨peer, ids, hact, hid, hR⟩
      · rcases step_received h hold with hold | ⟨peer, ids, rfl, hid, hR⟩
        · exact Or.inl hold
        · exact Or.inr ⟨peer, ids, List.mem_cons_self, hid, hR⟩
      · exact Or.inr ⟨peer, ids, List.mem_cons_of_mem _ hact, hid, hR⟩

/-- A room names the users of its messages. -/
theorem Honest.users (hI : w.Honest hashCode user) {R id : String} {m : MsgDoc}
    (hm : (w.store.messages R).lookup id = some m) {a b : Uid} (hR : R = chatId hashCode a b) :
    s((a : String), (b : String)) = s(m.idFrom, m.idTo) := by
  obtain ⟨a', b', hfrom, hto, hR'⟩ := hI.filed R id m hm
  rw [hfrom, hto]
  exact congrArg (Sym2.map Subtype.val) (users_of_chatId (hR.symm.trans hR'))

/-- Read receipts are sound after every run, and reading is never undone. -/
theorem receipts_sound (hashCode : String → Int) (user : Nat → Uid) (now : Int)
    {tr : List (Action × World)} (hrun : Run (StepOf (step hashCode user)) (start now) tr) :
    Sound hashCode user tr (final (start now) tr) ∧ Along ReadStays (start now) tr := by
  have hI : (final (start now) tr).Honest hashCode user :=
    Reachable.invariant (Honest.start now) (fun _ _ _ hI h => hI.step h) ⟨tr, hrun, rfl⟩
  refine ⟨⟨?_, ?_⟩, Along.imp (fun _ _ _ h => step_readStays h) hrun⟩
  · intro R id m hm hread
    obtain ⟨d, hrec, hto, hfrom⟩ := hI.read R id m hm hread
    refine ⟨d, ?_, hto.symm, fun heq => hfrom (heq.symm.trans hto)⟩
    rcases received_of_run hrun hrec with hnone | hgot
    · cases hnone
    · exact hgot
  · intro R id m hm
    obtain ⟨a, b, -, -, hR⟩ := hI.filed R id m hm
    exact ⟨⟨a, b, hR⟩, fun _ _ => hI.users hm⟩

/-- The first user reads what the other one wrote. -/
theorem receipts_sound_greeting : ∃ tr : List (Action × World),
    ((((final (start 0) tr).store.messages (chatId oneAtATime firstUid thirdUid)).lookup "m").map
        MsgDoc.isRead = some true) ∧
      Sound oneAtATime twoUsers tr (final (start 0) tr) ∧ Along ReadStays (start 0) tr := by
  obtain ⟨tr, -, hrun, hread⟩ := exists_run
    (f := step oneAtATime twoUsers) (s := start 0)
    (P := fun tr => (((final (start 0) tr).store.messages
      (chatId oneAtATime firstUid thirdUid)).lookup "m").map MsgDoc.isRead = some true)
    [.act 0 (.signUp ""), .act 1 (.signUp ""), .deliver 0 "", .deliver 1 "",
      .act 1 (.submit firstUid "hi" 1), .deliver 1 "m", .act 0 (.receive thirdUid ["m"]),
      .deliver 0 ""]
    (by decide +kernel)
  exact ⟨tr, hread, receipts_sound oneAtATime twoUsers 0 hrun⟩

end World

end CalendarApp
