/-
# `Chat.Reactions` — an invitation is answered by the one it was sent to

The mark `isReacted` hides the buttons of an invitation and shows the answer
in their place.  It is set by `handleButton`, which computes the room anew
from the two ids of the message, and the server does not look at who sends
it.  Still a mark is only ever found where the addressee pressed a button for
that very message:

    the message is in the room the device has open, and not its own
    so it is from the peer to the user of the device (`Honest.addressed`)
    and `handleButton`, which puts the addressee first, computes the room
    that `readLocal` computed, whatever the hash codes are

A text message has no mark at all.  In the same way every user whom a
request lets join an event has pressed Accept for an invitation to it that
was sent to him.

`Origin` says which command a request comes from, where it posts a message or
answers one.
-/
import CalendarApp.Chat.History

namespace CalendarApp

open Lib

/-- Neither a message nor an answer to one. -/
def Request.silent : Request → Bool
  | .write (.addMessage _ _) => false
  | .write (.setReacted _ _) => false
  | .write (.joinEvent _ _) => false
  | .write (.setRoom _ _ _) => true
  | .write (.setRead _ _) => true
  | .leaveEvent _ _ => true
  | .addEvent _ => true
  | .setUser _ => true

/-- A message as it is sent: a text, or an invitation without an answer. -/
def MsgDoc.Fresh (m : MsgDoc) : Prop :=
  m.type = 0 ∧ m.isReacted = none ∨ m.type = 1 ∧ m.isReacted = some false

namespace Store

theorem of_lookup_setMessages {s : Store} {R R' id id' : String} {m m' : MsgDoc}
    (h : ((s.setMessages R ((s.messages R).insert id m)).messages R').lookup id' = some m') :
    (R = R' ∧ id = id' ∧ m = m') ∨ (s.messages R').lookup id' = some m' := by
  rw [lookup_setMessages] at h
  split at h
  · next heq =>
      cases h
      exact Or.inl ⟨heq.1.symm, heq.2.symm, rfl⟩
  · exact Or.inr h

/-- A stored message was just added, or it was stored before and was answered
only by a request that says so. -/
theorem message_reacted {newId : String} {s s' : Store} {r : Request}
    (h : s.Applied newId r s') {R id : String} {m' : MsgDoc}
    (hm' : (s'.messages R).lookup id = some m') :
    r = .write (.addMessage R m') ∨ ∃ m, (s.messages R).lookup id = some m ∧ m.Marked m' ∧
      (m'.isReacted = m.isReacted ∨
        m'.isReacted = some true ∧ r = .write (.setReacted R id)) := by
  have hsame : (s.messages R).lookup id = some m' → r = .write (.addMessage R m') ∨
      ∃ m, (s.messages R).lookup id = some m ∧ m.Marked m' ∧
        (m'.isReacted = m.isReacted ∨
          m'.isReacted = some true ∧ r = .write (.setReacted R id)) :=
    fun hm => Or.inr ⟨m', hm, .refl m', Or.inl rfl⟩
  cases h with
  | addMessage R₁ m₁ hnew =>
      rcases of_lookup_setMessages hm' with ⟨rfl, rfl, rfl⟩ | hold
      · exact Or.inl rfl
      · exact hsame hold
  | setRead R₁ id₁ m₁ h₁ =>
      rcases of_lookup_setMessages hm' with ⟨rfl, rfl, rfl⟩ | hold
      · exact Or.inr ⟨m₁, h₁, m₁.marked_read, Or.inl rfl⟩
      · exact hsame hold
  | setReacted R₁ id₁ m₁ h₁ =>
      rcases of_lookup_setMessages hm' with ⟨rfl, rfl, rfl⟩ | hold
      · exact Or.inr ⟨m₁, h₁, m₁.marked_reacted, Or.inr ⟨rfl, rfl⟩⟩
      · exact hsame hold
  | setRoom _ _ _ => exact hsame hm'
  | joinEvent _ _ _ _ => exact hsame hm'
  | leaveEvent _ _ _ _ => exact hsame hm'
  | addEvent _ _ => exact hsame hm'
  | setUser _ => exact hsame hm'

end Store

namespace World

variable (hashCode : String → Int) (user : Nat → Uid)

/-! ## Where requests come from -/

/-- An invitation that device `d` has open for `peer`, and that is not its own. -/
structure Invites (w : World) (d : Nat) (peer : Uid) (id : String) (m : MsgDoc) : Prop where
  stored : (w.store.messages (chatId hashCode (user d) peer)).lookup id = some m
  type : m.type = 1
  notOwn : m.idFrom ≠ user d

/-- The command that a request comes from. -/
inductive Origin (w : World) (d : Nat) : Command → Request → Prop
  | submit (peer : Uid) (msg : String) (now : Int) (R : String) (m : MsgDoc) :
      m.type = 0 → m.isReacted = none →
      Origin w d (.submit peer msg now) (.write (.addMessage R m))
  | invite (peer : Uid) (E : String) (now : Int) (R : String) (m : MsgDoc) :
      m.type = 1 → m.isReacted = some false → m.content = E → m.idFrom = user d →
      m.idTo = peer → Origin w d (.invite peer E now) (.write (.addMessage R m))
  | react (peer : Uid) (id : String) (accept : Bool) (m : MsgDoc) :
      w.Invites hashCode user d peer id m →
      Origin w d (.react peer id accept) (.write (.setReacted (chatId hashCode m.idTo m.idFrom) id))
  | accept (peer : Uid) (id : String) (m : MsgDoc) : w.Invites hashCode user d peer id m →
      Origin w d (.react peer id true) (.write (.joinEvent m.content m.idTo))
  | other (c : Command) (r : Request) : r.silent = true → Origin w d c r

variable {hashCode user} {w w' : World} {a : Action} {d : Nat} {c : Command}
  {rs : List Request} {r : Request} {tr : List (Action × World)}

theorem silent_receive {peer : Uid} {ids : List String}
    (hr : r ∈ ids.flatMap fun id =>
      (((w.roomMessages hashCode user d peer).lookup id).map fun document =>
        (markRead (room hashCode user d peer) (MsgModal.fromFirestore id document)).map
          Request.write).getD []) : r.silent = true := by
  obtain ⟨id, -, hr⟩ := List.mem_flatMap.mp hr
  cases hm : (w.roomMessages hashCode user d peer).lookup id with
  | none =>
      rw [hm] at hr
      cases hr
  | some m =>
      rw [hm] at hr
      obtain ⟨x, hx, rfl⟩ := List.mem_map.mp hr
      simp only [markRead] at hx
      split at hx
      · cases hx
      · obtain rfl := List.mem_singleton.mp hx
        rfl

theorem origin_of_requests (h : w.requests hashCode user d c = some rs) (hr : r ∈ rs) :
    Origin hashCode user w d c r := by
  cases c with
  | signUp photo =>
      cases h
      obtain rfl := List.mem_singleton.mp hr
      exact .other _ _ rfl
  | signIn =>
      simp only [requests] at h
      split at h
      · cases h
        cases hr
      · cases h
  | submit peer msg now =>
      simp only [requests] at h
      split at h
      · cases h
        obtain ⟨x, hx, rfl⟩ := List.mem_map.mp hr
        simp only [handleSubmit] at hx
        split at hx
        · cases hx
        · rcases List.mem_pair.mp hx with rfl | rfl
          · exact .submit peer msg now _ _ rfl rfl
          · exact .other _ _ rfl
      · cases h
  | invite peer E now =>
      simp only [requests] at h
      split at h
      · cases h
        obtain ⟨x, hx, rfl⟩ := List.mem_map.mp hr
        rcases List.mem_pair.mp hx with rfl | rfl
        · exact .invite peer E now _ _ rfl rfl rfl rfl rfl
        · exact .other _ _ rfl
      · cases h
  | receive peer ids =>
      simp only [requests] at h
      split at h
      · cases h
        exact .other _ _ (silent_receive hr)
      · cases h
  | react peer id accept =>
      simp only [requests] at h
      split at h
      · cases h
      · next m hm =>
          split at h
          · next hcan =>
              cases h
              obtain ⟨x, hx, rfl⟩ := List.mem_map.mp hr
              have hinv : w.Invites hashCode user d peer id m := ⟨hm, hcan.2.1, hcan.2.2⟩
              rcases List.mem_cons.mp hx with rfl | hx
              · exact .react peer id accept m hinv
              · cases accept with
                | false => cases hx
                | true =>
                    obtain rfl := List.mem_singleton.mp hx
                    exact .accept peer id m hinv
          · cases h
  | createEvent event =>
      simp only [requests] at h
      split at h
      · cases h
        obtain ⟨document, -, rfl⟩ := List.mem_map.mp hr
        exact .other _ _ rfl
      · cases h
  | leave E =>
      simp only [requests] at h
      split at h
      · cases h
        obtain rfl := List.mem_singleton.mp hr
        exact .other _ _ rfl
      · cases h

/-! ## Whose answers are recorded -/

/-- In the run, a device of the addressee pressed the button `accept` of the
message `id` of the room `R`, which it had open for the sender. -/
def Pressed (hashCode : String → Int) (user : Nat → Uid) (tr : List (Action × World))
    (R id : String) (m : MsgDoc) (accept : Bool) : Prop :=
  ∃ (d : Nat) (peer : Uid), .act d (.react peer id accept) ∈ tr.map Prod.fst ∧
    m.idTo = user d ∧ m.idFrom = peer ∧ R = chatId hashCode (user d) peer

/-- The user `u` accepted, in the run, an invitation to `E` that is stored and
was sent to him. -/
def Accepted (hashCode : String → Int) (user : Nat → Uid) (tr : List (Action × World))
    (w : World) (E u : String) : Prop :=
  ∃ R id m, (w.store.messages R).lookup id = some m ∧ m.type = 1 ∧ m.content = E ∧
    m.idTo = u ∧ m.idFrom ≠ u ∧ Pressed hashCode user tr R id m true

/-- The mark of a stored message: none on a text, and on an invitation the
addressee's answer. -/
inductive Answer (hashCode : String → Int) (user : Nat → Uid) (tr : List (Action × World))
    (R id : String) (m : MsgDoc) : Prop
  | text : m.type = 0 → m.isReacted = none → Answer hashCode user tr R id m
  | waiting : m.type = 1 → m.isReacted = some false → Answer hashCode user tr R id m
  | given (accept : Bool) : m.type = 1 → m.isReacted = some true → m.idFrom ≠ m.idTo →
      Pressed hashCode user tr R id m accept → Answer hashCode user tr R id m

/-- What a request that waits or was applied says of the run before it. -/
def Founded (hashCode : String → Int) (user : Nat → Uid) (tr : List (Action × World))
    (w : World) : Request → Prop
  | .write (.addMessage _ m) => m.Fresh
  | .write (.setReacted R id) => ∃ m accept, (w.store.messages R).lookup id = some m ∧
      m.type = 1 ∧ m.idFrom ≠ m.idTo ∧ Pressed hashCode user tr R id m accept
  | .write (.joinEvent E u) => Accepted hashCode user tr w E u
  | .write (.setRoom _ _ _) => True
  | .write (.setRead _ _) => True
  | .leaveEvent _ _ => True
  | .addEvent _ => True
  | .setUser _ => True

/-- What the messages and the requests of `w` say about the run `tr` to it. -/
structure Answered (hashCode : String → Int) (user : Nat → Uid) (tr : List (Action × World))
    (w : World) : Prop where
  stored : ∀ R id m, (w.store.messages R).lookup id = some m → Answer hashCode user tr R id m
  queued : ∀ d, ∀ r ∈ w.queue d, Founded hashCode user tr w r
  applied : ∀ p ∈ w.applied, Founded hashCode user tr w p.2

theorem founded_of_silent (h : r.silent = true) : Founded hashCode user tr w r := by
  cases r with
  | write x =>
      cases x with
      | addMessage _ _ => cases h
      | setReacted _ _ => cases h
      | joinEvent _ _ => cases h
      | setRoom _ _ _ => trivial
      | setRead _ _ => trivial
  | leaveEvent _ _ => trivial
  | addEvent _ => trivial
  | setUser _ => trivial

theorem Pressed.snoc {R id : String} {m : MsgDoc} {accept : Bool}
    (h : Pressed hashCode user tr R id m accept) (e : Action × World) :
    Pressed hashCode user (tr ++ [e]) R id m accept := by
  obtain ⟨d, peer, hact, hpress⟩ := h
  refine ⟨d, peer, ?_, hpress⟩
  rw [List.map_append]
  exact List.mem_append_left _ hact

theorem Pressed.marked {R id : String} {m m' : MsgDoc} {accept : Bool}
    (h : Pressed hashCode user tr R id m accept) (hmark : m.Marked m') :
    Pressed hashCode user tr R id m' accept := by
  obtain ⟨d, peer, hact, hto, hfrom, hR⟩ := h
  exact ⟨d, peer, hact, hmark.idTo.trans hto, hmark.idFrom.trans hfrom, hR⟩

theorem Founded.snoc (h : Founded hashCode user tr w r) (e : Action × World)
    (hkept : ∀ R id m, (w.store.messages R).lookup id = some m →
      ∃ m', (w'.store.messages R).lookup id = some m' ∧ m.Marked m') :
    Founded hashCode user (tr ++ [e]) w' r := by
  cases r with
  | write x =>
      cases x with
      | addMessage _ _ => exact h
      | setReacted R id =>
          obtain ⟨m, accept, hm, htype, hne, hpress⟩ := h
          obtain ⟨m', hm', hmark⟩ := hkept R id m hm
          refine ⟨m', accept, hm', hmark.type.trans htype, ?_, (hpress.marked hmark).snoc e⟩
          rw [hmark.idFrom, hmark.idTo]
          exact hne
      | joinEvent E u =>
          obtain ⟨R, id, m, hm, htype, hE, hto, hfrom, hpress⟩ := h
          obtain ⟨m', hm', hmark⟩ := hkept R id m hm
          refine ⟨R, id, m', hm', hmark.type.trans htype, hmark.content.trans hE,
            hmark.idTo.trans hto, ?_, (hpress.marked hmark).snoc e⟩
          rw [hmark.idFrom]
          exact hfrom
      | setRoom _ _ _ => trivial
      | setRead _ _ => trivial
  | leaveEvent _ _ => trivial
  | addEvent _ => trivial
  | setUser _ => trivial

theorem Answer.snoc {R id : String} {m : MsgDoc} (h : Answer hashCode user tr R id m)
    (e : Action × World) : Answer hashCode user (tr ++ [e]) R id m := by
  cases h with
  | text htype hnone => exact .text htype hnone
  | waiting htype hfalse => exact .waiting htype hfalse
  | given accept htype htrue hne hpress => exact .given accept htype htrue hne (hpress.snoc e)

theorem Invites.ends {peer : Uid} {id : String} {m : MsgDoc} (hI : w.Honest hashCode user)
    (h : w.Invites hashCode user d peer id m) :
    m.idTo = user d ∧ m.idFrom = peer := by
  obtain ⟨a, b, hfrom, hto, hR⟩ := hI.filed _ _ _ h.stored
  rcases Sym2.eq_iff.mp (users_of_chatId hR) with ⟨rfl, -⟩ | ⟨rfl, rfl⟩
  · exact absurd hfrom h.notOwn
  · exact ⟨hto, hfrom⟩

/-- What a command sends is founded on the command. -/
theorem Origin.founded (hI : w.Honest hashCode user) (h : Origin hashCode user w d c r)
    (hstore : w'.store = w.store) :
    Founded hashCode user (tr ++ [(.act d c, w')]) w' r := by
  have hact : ∀ {c : Command}, Action.act d c ∈ (tr ++ [(Action.act d c, w')]).map Prod.fst := by
    intro c
    rw [List.map_append]
    exact List.mem_append_right _ List.mem_cons_self
  cases h with
  | submit peer msg now R m htype hnone => exact Or.inl ⟨htype, hnone⟩
  | invite peer E now R m htype hfalse _ _ _ => exact Or.inr ⟨htype, hfalse⟩
  | react peer id accept m hinv =>
      obtain ⟨hto, hfrom⟩ := hinv.ends hI
      have hroom : chatId hashCode m.idTo m.idFrom = chatId hashCode (user d) peer := by
        rw [hto, hfrom]
      have hne : m.idFrom ≠ m.idTo := fun heq => hinv.notOwn (heq.trans hto)
      refine ⟨m, accept, ?_, hinv.type, hne, d, peer, hact, hto, hfrom, hroom⟩
      rw [hstore, hroom]
      exact hinv.stored
  | accept peer id m hinv =>
      obtain ⟨hto, hfrom⟩ := hinv.ends hI
      have hne : m.idFrom ≠ m.idTo := fun heq => hinv.notOwn (heq.trans hto)
      refine ⟨chatId hashCode (user d) peer, id, m, ?_, hinv.type, rfl, rfl, hne,
        d, peer, hact, hto, hfrom, rfl⟩
      rw [hstore]
      exact hinv.stored
  | other _ _ hsilent => exact founded_of_silent hsilent

theorem Answered.start (now : Int) : Answered hashCode user [] (World.start now) where
  stored _ _ _ hm := nomatch hm
  queued _ _ hr := nomatch hr
  applied _ hp := nomatch hp

theorem Answered.answer {newId : String} {store : Store} (hA : Answered hashCode user tr w)
    (hr : Founded hashCode user tr w r) (happ : w.store.Applied newId r store) {R id : String}
    {m' : MsgDoc} (hm' : (store.messages R).lookup id = some m') :
    Answer hashCode user tr R id m' := by
  rcases Store.message_reacted happ hm' with rfl | ⟨m, hm, hmark, hsame | ⟨htrue, rfl⟩⟩
  · rcases hr with ⟨htype, hnone⟩ | ⟨htype, hfalse⟩
    · exact .text htype hnone
    · exact .waiting htype hfalse
  · cases hA.stored R id m hm with
    | text htype hnone => exact .text (hmark.type.trans htype) (hsame.trans hnone)
    | waiting htype hfalse => exact .waiting (hmark.type.trans htype) (hsame.trans hfalse)
    | given accept htype htrue hne hpress =>
        refine .given accept (hmark.type.trans htype) (hsame.trans htrue) ?_ (hpress.marked hmark)
        rw [hmark.idFrom, hmark.idTo]
        exact hne
  · obtain ⟨m₁, accept, hm₁, htype, hne, hpress⟩ := hr
    obtain rfl := Option.some.inj (hm.symm.trans hm₁)
    refine .given accept (hmark.type.trans htype) htrue ?_ (hpress.marked hmark)
    rw [hmark.idFrom, hmark.idTo]
    exact hne

theorem step_messages (h : w.step hashCode user a = some w') (R id : String) (m : MsgDoc)
    (hm : (w.store.messages R).lookup id = some m) :
    ∃ m', (w'.store.messages R).lookup id = some m' ∧ m.Marked m' := by
  cases stepped_of_step h with
  | act d c rs hrs => exact ⟨m, hm, .refl m⟩
  | deliver d newId r q store hq happ => exact Store.message_kept happ hm
  | fail d r q hq => exact ⟨m, hm, .refl m⟩

theorem Answered.step (hI : w.Honest hashCode user) (hA : Answered hashCode user tr w)
    (h : w.step hashCode user a = some w') : Answered hashCode user (tr ++ [(a, w')]) w' := by
  have hkept := step_messages h
  cases stepped_of_step h with
  | act d c rs hrs =>
      refine ⟨fun R id m hm => (hA.stored R id m hm).snoc _, ?_,
        fun p hp => (hA.applied p hp).snoc _ hkept⟩
      intro e r hr
      rcases mem_send.mp hr with hold | ⟨rfl, hnew⟩
      · exact (hA.queued e r hold).snoc _ hkept
      · exact (origin_of_requests hrs hnew).founded hI rfl
  | deliver d newId r q store hq happ =>
      have hhead : Founded hashCode user tr w r := hA.queued d r (hq ▸ List.mem_cons_self)
      refine ⟨fun R id m hm => (hA.answer hhead happ hm).snoc _,
        fun e r' hr' => (hA.queued e r' (mem_of_mem_pop hr')).snoc _ hkept, ?_⟩
      intro p hp
      rcases List.mem_cons.mp hp with rfl | hold
      · exact hhead.snoc _ hkept
      · exact (hA.applied p hold).snoc _ hkept
  | fail d r q hq =>
      exact ⟨fun R id m hm => (hA.stored R id m hm).snoc _,
        fun e r' hr' => (hA.queued e r' (mem_of_mem_pop hr')).snoc _ hkept,
        fun p hp => (hA.applied p hp).snoc _ hkept⟩

theorem answered_run {now : Int} (hrun : Run (StepOf (step hashCode user)) (World.start now) tr) :
    Answered hashCode user tr (final (World.start now) tr) := by
  refine (Run.history (I := fun tr => (final (World.start now) tr).Honest hashCode user ∧
    Answered hashCode user tr (final (World.start now) tr))
    ⟨Honest.start now, Answered.start now⟩ ?_ hrun).2
  intro tr a w' _ hI h
  rw [final_append]
  exact ⟨hI.1.step h, hI.2.step hI.1 h⟩

/-- What the answers on the server say about the run to it. -/
structure AnswersSound (hashCode : String → Int) (user : Nat → Uid) (tr : List (Action × World))
    (w : World) : Prop where
  /-- a message is a text without a mark, or an invitation marked by a device
  of its addressee, and not of its sender, in answer to it -/
  marks : ∀ R id m, (w.store.messages R).lookup id = some m → Answer hashCode user tr R id m
  /-- whoever a request let join an event accepted an invitation to it -/
  joins : ∀ d E u, (d, .write (.joinEvent E u)) ∈ w.applied → Accepted hashCode user tr w E u

/-- Whatever the devices do, whatever the hash codes are: a mark `isReacted` is
on an invitation only, by a device of its addressee whose user pressed a button
for that message; and whoever joined an event had pressed Accept for an
invitation to it that was sent to him. -/
theorem answers_sound (hashCode : String → Int) (user : Nat → Uid) (now : Int)
    {tr : List (Action × World)} (hrun : Run (StepOf (step hashCode user)) (start now) tr) :
    AnswersSound hashCode user tr (final (start now) tr) := by
  have hA := answered_run hrun
  exact ⟨hA.stored, fun d E u hp => hA.applied _ hp⟩

/-- The second user accepts the invitation of the first. -/
theorem answers_sound_accept : ∃ tr : List (Action × World),
    (((final (start 0) tr).store.messages (chatId oneAtATime firstUid thirdUid)).lookup "m").map
        MsgDoc.isReacted = some (some true) ∧
      (1, .write (.joinEvent "e" thirdUid)) ∈ (final (start 0) tr).applied ∧
      AnswersSound oneAtATime twoUsers tr (final (start 0) tr) := by
  obtain ⟨tr, -, hrun, hmark, hjoin⟩ := exists_run
    (f := step oneAtATime twoUsers) (s := start 0)
    (P := fun tr => (((final (start 0) tr).store.messages
        (chatId oneAtATime firstUid thirdUid)).lookup "m").map MsgDoc.isReacted =
          some (some true) ∧
      (1, .write (.joinEvent "e" thirdUid)) ∈ (final (start 0) tr).applied)
    [.act 0 (.signUp ""), .act 1 (.signUp ""), .deliver 0 "", .deliver 1 "",
      .act 0 (.createEvent (EventModal.ofDay (Zone.fixed 0) 1556668800000 1556713800000)),
      .deliver 0 "e", .act 0 (.invite thirdUid "e" 1), .deliver 0 "m",
      .act 1 (.receive firstUid ["m"]), .act 1 (.react firstUid "m" true), .deliver 1 "",
      .deliver 1 "", .deliver 1 ""]
    (by decide +kernel)
  exact ⟨tr, hmark, hjoin, answers_sound oneAtATime twoUsers 0 hrun⟩

end World

end CalendarApp
