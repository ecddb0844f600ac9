/-
# `Server.World` — the clients and the server

A world is the store together with the devices that write to it.  Device `d`
is signed in as `user d`; several devices may be signed in as one user.  What
a screen writes waits in the queue of its device, possibly for as long as
the device is offline, and reaches the server in order.

    signUp                    the user's document is written
    submit, invite            a message and the document of its room
    receive                   a snapshot of an open room is built
    react                     the buttons of an invitation
    createEvent, leave        addEvent, and Delete Event
    deliver d                 the first request of d is applied
    fail d                    the first request of d fails

A Google sign-in also writes its user's document (`setData` for a new user,
`updateData` of name, e-mail, phone and photo for a known one); these writes
are not among the requests here.

The clocks are synchronised: a message carries the one time of the world,
which does not run backwards.  Two records are kept for the statements only:
the receipts (which device received which message in a snapshot) and the
requests that were applied, the last one first.

`Sent` lists the requests a command can send, and `Stepped` what a step can
do.  `Honest` is what every reachable world keeps: a request waits only in
the queue of a device it belongs to, every message is in the room of its two
users, and a message is read only where its addressee received it.
-/
import CalendarApp.Server.Store
import CalendarApp.Chat.Room
import CalendarApp.Lib.Run
import CalendarApp.Lib.Queues

namespace CalendarApp

open Lib

/-- What a user does on a device. -/
inductive Command where
  | signUp (photo : String)
  | signIn
  | submit (peer : Uid) (msg : String) (now : Int)
  | invite (peer : Uid) (eventId : String) (now : Int)
  | receive (peer : Uid) (messageIds : List String)
  | react (peer : Uid) (messageId : String) (accept : Bool)
  | createEvent (event : EventModal)
  | leave (eventId : String)

/-- The commands that send a message into a room. -/
def Command.sends : Command → Bool
  | .submit _ _ _ => true
  | .invite _ _ _ => true
  | _ => false

structure World where
  store : Store
  queue : Nat → List Request
  clock : Int
  signedIn : List Nat
  /-- the receipts: device, room, and message -/
  received : List (Nat × String × String)
  /-- the requests applied, with the devices that sent them -/
  applied : List (Nat × Request)

namespace World

inductive Action where
  | act (d : Nat) (c : Command)
  | deliver (d : Nat) (newId : String)
  | fail (d : Nat)

/-- Nobody has signed up. -/
def start (now : Int) : World where
  store := .empty
  queue _ := []
  clock := now
  signedIn := []
  received := []
  applied := []

variable (hashCode : String → Int) (user : Nat → Uid)

/-- The ids of the room screen that device `d` opens for `peer`. -/
def room (d : Nat) (peer : Uid) : RoomIds := readLocal hashCode (some (user d)) peer

/-- The messages that device `d` finds in its room for `peer`. -/
def roomMessages (w : World) (d : Nat) (peer : Uid) : Collection MsgDoc :=
  w.store.messages (room hashCode user d peer).chatId

/-- A list of users on device `d` can show `peer`. -/
def Offers (w : World) (d : Nat) (peer : Uid) : Prop :=
  (peer : String) ∈ w.store.users ∨ peer = user d

instance (w : World) (d : Nat) (peer : Uid) : Decidable (w.Offers user d peer) :=
  inferInstanceAs (Decidable (_ ∨ _))

/-- The device can send to `peer` at that time. -/
def CanSend (w : World) (d : Nat) (peer : Uid) (now : Int) : Prop :=
  d ∈ w.signedIn ∧ w.Offers user d peer ∧ w.clock ≤ now

instance (w : World) (d : Nat) (peer : Uid) (now : Int) : Decidable (w.CanSend user d peer now) :=
  inferInstanceAs (Decidable (_ ∧ _ ∧ _))

/-- The requests a command sends, if it is possible. -/
def requests (w : World) (d : Nat) : Command → Option (List Request)
  | .signUp photo => some [.setUser ⟨user d, photo⟩]
  | .signIn => if (user d : String) ∈ w.store.users then some [] else none
  | .submit peer msg now =>
      if w.CanSend user d peer now then
        some ((handleSubmit (room hashCode user d peer) msg now).map .write)
      else none
  | .invite peer eventId now =>
      if w.CanSend user d peer now then
        some ((invitationTo hashCode (user d) eventId now peer).map .write)
      else none
  | .receive peer messageIds =>
      if d ∈ w.signedIn ∧ ∀ id ∈ messageIds, id ∈ w.roomMessages hashCode user d peer then
        some (messageIds.flatMap fun id =>
          (((w.roomMessages hashCode user d peer).lookup id).map fun document =>
            (markRead (room hashCode user d peer) (MsgModal.fromFirestore id document)).map
              .write).getD [])
      else none
  | .react peer messageId accept =>
      match (w.roomMessages hashCode user d peer).lookup messageId with
      | none => none
      | some document =>
          if (d, (room hashCode user d peer).chatId, messageId) ∈ w.received ∧
              document.type = 1 ∧ document.idFrom ≠ user d then
            some ((handleButton hashCode (MsgModal.fromFirestore messageId document) accept).map
              .write)
          else none
  | .createEvent event =>
      if d ∈ w.signedIn then some ((addEvent (user d) event).toList.map .addEvent) else none
  | .leave eventId => if d ∈ w.signedIn then some [.leaveEvent eventId (user d)] else none

/-- The time after a command. -/
def clockAfter (w : World) : Command → Int
  | .submit _ _ now => now
  | .invite _ _ now => now
  | _ => w.clock

/-- The devices signed in after a command of `d`. -/
def signedInAfter (w : World) (d : Nat) : Command → List Nat
  | .signUp _ => d :: w.signedIn
  | .signIn => d :: w.signedIn
  | _ => w.signedIn

/-- The receipts after a command of `d`. -/
def receivedAfter (w : World) (d : Nat) : Command → List (Nat × String × String)
  | .receive peer messageIds =>
      messageIds.map (fun id => (d, (room hashCode user d peer).chatId, id)) ++ w.received
  | _ => w.received

/-- The world after a command of `d` that sends `rs`. -/
def acted (w : World) (d : Nat) (c : Command) (rs : List Request) : World :=
  { w with
    queue := send w.queue d rs
    clock := w.clockAfter c
    signedIn := w.signedInAfter d c
    received := w.receivedAfter hashCode user d c }

/-- The world after the first request of `d` has been applied. -/
def delivered (w : World) (d : Nat) (r : Request) (store : Store) : World :=
  { w with
    store := store
    queue := pop w.queue d
    applied := (d, r) :: w.applied }

def step (w : World) : Action → Option World
  | .act d c => (w.requests hashCode user d c).map (w.acted hashCode user d c)
  | .deliver d newId =>
      match w.queue d with
      | [] => none
      | r :: _ => (w.store.apply newId r).map (w.delivered d r)
  | .fail d =>
      match w.queue d with
      | [] => none
      | _ :: _ => some { w with queue := pop w.queue d }

/-! ## What a step can do -/

/-- What a step can do. -/
inductive Stepped (w : World) : Action → World → Prop
  | act (d : Nat) (c : Command) (rs : List Request) :
      w.requests hashCode user d c = some rs →
      Stepped w (.act d c) (w.acted hashCode user d c rs)
  | deliver (d : Nat) (newId : String) (r : Request) (q : List Request) (store : Store) :
      w.queue d = r :: q → w.store.Applied newId r store →
      Stepped w (.deliver d newId) (w.delivered d r store)
  | fail (d : Nat) (r : Request) (q : List Request) : w.queue d = r :: q →
      Stepped w (.fail d) { w with queue := pop w.queue d }

/-- What a command can send. -/
inductive Sent (w : World) (d : Nat) (c : Command) : Request → Prop
  | setUser (photo : String) : c = .signUp photo → Sent w d c (.setUser ⟨user d, photo⟩)
  | addMessage (peer : Uid) (m : MsgDoc) : c.sends = true → w.Offers user d peer →
      m.idFrom = user d → m.idTo = peer → m.isRead = false →
      Sent w d c (.write (.addMessage (chatId hashCode (user d) peer) m))
  | setRoom (peer : Uid) (now : Int) : c.sends = true → d ∈ w.signedIn →
      w.Offers user d peer →
      Sent w d c (.write (.setRoom (chatId hashCode (user d) peer) [(user d : String), peer] now))
  | setRead (peer : Uid) (id : String) (m : MsgDoc) :
      (w.store.messages (chatId hashCode (user d) peer)).lookup id = some m →
      m.idFrom ≠ user d →
      (d, chatId hashCode (user d) peer, id) ∈ w.receivedAfter hashCode user d c →
      Sent w d c (.write (.setRead (chatId hashCode (user d) peer) id))
  | setReacted (R id : String) : Sent w d c (.write (.setReacted R id))
  | joinEvent (peer : Uid) (id : String) (m : MsgDoc) : c = .react peer id true →
      (w.store.messages (chatId hashCode (user d) peer)).lookup id = some m →
      m.idFrom ≠ user d → Sent w d c (.write (.joinEvent m.content m.idTo))
  | leaveEvent (E : String) : c = .leave E → Sent w d c (.leaveEvent E (user d))
  | addEvent (event : EventModal) (document : EventDoc) : c = .createEvent event →
      addEvent (user d) event = some document → Sent w d c (.addEvent document)

variable {hashCode user} {w w' : World} {a : Action} {d : Nat} {c : Command}
  {rs : List Request} {r : Request}

theorem stepped_of_step (h : w.step hashCode user a = some w') :
    Stepped hashCode user w a w' := by
  cases a with
  | act d c =>
      obtain ⟨rs, hrs, rfl⟩ := Option.map_eq_some_iff.mp h
      exact .act d c rs hrs
  | deliver d newId =>
      simp only [step] at h
      split at h
      · cases h
      · next r q hq =>
          obtain ⟨store, hstore, rfl⟩ := Option.map_eq_some_iff.mp h
          exact .deliver d newId r q store hq (Store.applied_of_apply hstore)
  | fail d =>
      simp only [step] at h
      split at h
      · cases h
      · next r q hq =>
          cases h
          exact .fail d r q hq

theorem sent_pair {peer : Uid} {m : MsgDoc} {now : Int} {x : Write} (hsends : c.sends = true)
    (hcan : w.CanSend user d peer now) (hfrom : m.idFrom = user d) (hto : m.idTo = peer)
    (hread : m.isRead = false)
    (hx : x ∈ [.addMessage (chatId hashCode (user d) peer) m,
      .setRoom (chatId hashCode (user d) peer) [(user d : String), peer] now]) :
    Sent hashCode user w d c (.write x) := by
  rcases List.mem_pair.mp hx with rfl | rfl
  · exact .addMessage peer m hsends hcan.2.1 hfrom hto hread
  · exact .setRoom peer now hsends hcan.1 hcan.2.1

theorem sent_receive {peer : Uid} {ids : List String}
    (hr : r ∈ ids.flatMap fun id =>
      (((w.roomMessages hashCode user d peer).lookup id).map fun document =>
        (markRead (room hashCode user d peer) (MsgModal.fromFirestore id document)).map
          Request.write).getD []) :
    Sent hashCode user w d (.receive peer ids) r := by
  obtain ⟨id, hid, hr⟩ := List.mem_flatMap.mp hr
  cases hm : (w.roomMessages hashCode user d peer).lookup id with
  | none =>
      rw [hm] at hr
      cases hr
  | some m =>
      rw [hm] at hr
      obtain ⟨x, hx, rfl⟩ := List.mem_map.mp hr
      simp only [markRead] at hx
      split at hx
      · cases hx
      · next hne =>
          obtain rfl := List.mem_singleton.mp hx
          exact .setRead peer id m hm hne
            (List.mem_append_left _ (List.mem_map.mpr ⟨id, hid, rfl⟩))

theorem sent_react {peer : Uid} {id : String} {accept : Bool} {m : MsgDoc} {x : Write}
    (hm : (w.roomMessages hashCode user d peer).lookup id = some m) (hfrom : m.idFrom ≠ user d)
    (hx : x ∈ handleButton hashCode (MsgModal.fromFirestore id m) accept) :
    Sent hashCode user w d (.react peer id accept) (.write x) := by
  rcases List.mem_cons.mp hx with rfl | hx
  · exact .setReacted _ _
  · cases accept with
    | false => cases hx
    | true =>
        obtain rfl := List.mem_singleton.mp hx
        exact .joinEvent peer id m rfl hm hfrom

theorem sent_of_requests (h : w.requests hashCode user d c = some rs) (hr : r ∈ rs) :
    Sent hashCode user w d c r := by
  cases c with
  | signUp photo =>
      cases h
      obtain rfl := List.mem_singleton.mp hr
      exact .setUser photo rfl
  | signIn =>
      simp only [requests] at h
      split at h
      · cases h
        cases hr
      · cases h
  | submit peer msg now =>
      simp only [requests] at h
      split at h
      · next hcan =>
          cases h
          obtain ⟨x, hx, rfl⟩ := List.mem_map.mp hr
          simp only [handleSubmit] at hx
          split at hx
          · cases hx
          · exact sent_pair rfl hcan rfl rfl rfl hx
      · cases h
  | invite peer eventId now =>
      simp only [requests] at h
      split at h
      · next hcan =>
          cases h
          obtain ⟨x, hx, rfl⟩ := List.mem_map.mp hr
          exact sent_pair rfl hcan rfl rfl rfl hx
      · cases h
  | receive peer ids =>
      simp only [requests] at h
      split at h
      · cases h
        exact sent_receive hr
      · cases h
  | react peer id accept =>
      simp only [requests] at h
      split at h
      · cases h
      · next m hm =>
          split at h
          · next hcan =>
              cases h
              obtain ⟨x, hx, rfl⟩ := List.mem_map.mp hr
              exact sent_react hm hcan.2.2 hx
          · cases h
  | createEvent event =>
      simp only [requests] at h
      split at h
      · cases h
        obtain ⟨document, hdocument, rfl⟩ := List.mem_map.mp hr
        exact .addEvent event document rfl (Option.mem_toList.mp hdocument)
      · cases h
  | leave E =>
      simp only [requests] at h
      split at h
      · cases h
        obtain rfl := List.mem_singleton.mp hr
        exact .leaveEvent E rfl
      · cases h

/-! ## The requests that wait -/

/-- A request belongs to the device it waits on. -/
def Belongs (hashCode : String → Int) (user : Nat → Uid) (w : World) (d : Nat) :
    Request → Prop
  | .write (.addMessage R m) => ∃ peer : Uid,
      R = chatId hashCode (user d) peer ∧ m.idFrom = user d ∧ m.idTo = peer ∧ m.isRead = false
  | .write (.setRoom R us _) => ∃ peer : Uid,
      R = chatId hashCode (user d) peer ∧ us = [(user d : String), (peer : String)]
  | .write (.setRead R id) => (d, R, id) ∈ w.received ∧
      ∃ m, (w.store.messages R).lookup id = some m ∧ m.idTo = user d ∧ m.idFrom ≠ user d
  | .write (.setReacted _ _) => True
  | .write (.joinEvent _ u) => u = user d
  | .leaveEvent _ u => u = user d
  | .addEvent e => e.host = user d ∧ e.participants = [(user d : String)]
  | .setUser u => u.id = user d

/-- What every reachable world keeps. -/
structure Honest (hashCode : String → Int) (user : Nat → Uid) (w : World) : Prop where
  /-- a request waits on a device it belongs to -/
  queued : ∀ d, ∀ r ∈ w.queue d, w.Belongs hashCode user d r
  /-- a message is in the room of its two users -/
  filed : ∀ R id m, (w.store.messages R).lookup id = some m →
    ∃ a b : Uid, m.idFrom = a ∧ m.idTo = b ∧ R = chatId hashCode a b
  /-- a message is read where its addressee, not its sender, received it -/
  read : ∀ R id m, (w.store.messages R).lookup id = some m → m.isRead = true →
    ∃ d, (d, R, id) ∈ w.received ∧ m.idTo = user d ∧ m.idFrom ≠ user d

/-- A message that a user finds in a room of his and did not send is
addressed to him. -/
theorem Honest.addressed (h : w.Honest hashCode user) {peer : Uid} {id : String} {m : MsgDoc}
    (hm : (w.store.messages (chatId hashCode (user d) peer)).lookup id = some m)
    (hne : m.idFrom ≠ user d) : m.idTo = user d := by
  obtain ⟨a, b, hfrom, hto, hR⟩ := h.filed _ _ _ hm
  rcases Sym2.eq_iff.mp (users_of_chatId hR) with ⟨rfl, -⟩ | ⟨rfl, -⟩
  · exact absurd hfrom hne
  · exact hto

theorem Belongs.mono (h : w.Belongs hashCode user d r)
    (hreceived : ∀ x ∈ w.received, x ∈ w'.received)
    (hkept : ∀ R id m, (w.store.messages R).lookup id = some m →
      ∃ m', (w'.store.messages R).lookup id = some m' ∧ m.Marked m') :
    w'.Belongs hashCode user d r := by
  cases r with
  | write x =>
      cases x with
      | setRead R id =>
          obtain ⟨hrec, m, hm, hto, hfrom⟩ := h
          obtain ⟨m', hm', hmark⟩ := hkept R id m hm
          exact ⟨hreceived _ hrec, m', hm', hmark.idTo.trans hto,
            fun heq => hfrom (hmark.idFrom.symm.trans heq)⟩
      | addMessage _ _ => exact h
      | setRoom _ _ _ => exact h
      | setReacted _ _ => exact h
      | joinEvent _ _ => exact h
  | leaveEvent _ _ => exact h
  | addEvent _ => exact h
  | setUser _ => exact h

theorem mem_receivedAfter (w : World) (d : Nat) (c : Command) {x : Nat × String × String}
    (hx : x ∈ w.received) : x ∈ w.receivedAfter hashCode user d c := by
  cases c with
  | receive peer ids => exact List.mem_append_right _ hx
  | signUp _ => exact hx
  | signIn => exact hx
  | submit _ _ _ => exact hx
  | invite _ _ _ => exact hx
  | react _ _ _ => exact hx
  | createEvent _ => exact hx
  | leave _ => exact hx

/-- What a command sends belongs to its device. -/
theorem Sent.belongs (hI : w.Honest hashCode user) (h : Sent hashCode user w d c r) :
    (w.acted hashCode user d c rs).Belongs hashCode user d r := by
  cases h with
  | setUser photo _ => rfl
  | addMessage peer m _ _ hfrom hto hread => exact ⟨peer, rfl, hfrom, hto, hread⟩
  | setRoom peer now _ _ _ => exact ⟨peer, rfl, rfl⟩
  | setRead peer id m hm hne hrec => exact ⟨hrec, m, hm, hI.addressed hm hne, hne⟩
  | setReacted R id => trivial
  | joinEvent peer id m _ hm hne => exact hI.addressed hm hne
  | leaveEvent E _ => rfl
  | addEvent event document _ hdocument =>
      obtain ⟨text, -, rfl⟩ := Option.map_eq_some_iff.mp hdocument
      exact ⟨rfl, rfl⟩

theorem Honest.start (now : Int) : (World.start now).Honest hashCode user where
  queued _ _ hr := nomatch hr
  filed _ _ _ hm := nomatch hm
  read _ _ _ hm := nomatch hm

theorem Honest.acted (hI : w.Honest hashCode user)
    (h : w.requests hashCode user d c = some rs) :
    (w.acted hashCode user d c rs).Honest hashCode user where
  queued e r hr := by
    rcases mem_send.mp hr with hold | ⟨rfl, hnew⟩
    · exact (hI.queued e r hold).mono (fun _ => mem_receivedAfter w d c)
        fun _ _ m hm => ⟨m, hm, .refl m⟩
    · exact (sent_of_requests h hnew).belongs hI
  filed := hI.filed
  read R id m hm hread := by
    obtain ⟨e, hrec, hto, hfrom⟩ := hI.read R id m hm hread
    exact ⟨e, mem_receivedAfter w d c hrec, hto, hfrom⟩

theorem Honest.delivered {newId : String} {q : List Request} {store : Store}
    (hI : w.Honest hashCode user) (hq : w.queue d = r :: q)
    (h : w.store.Applied newId r store) : (w.delivered d r store).Honest hashCode user where
  queued e r' hr' :=
    (hI.queued e r' (mem_of_mem_pop hr')).mono (fun _ => id) fun _ _ _ => Store.message_kept h
  filed R id m' hm' := by
    rcases Store.message_new h hm' with rfl | ⟨m, hm, hmark, -⟩
    · obtain ⟨peer, hR, hfrom, hto, -⟩ := hI.queued d _ (hq ▸ List.mem_cons_self)
      exact ⟨user d, peer, hfrom, hto, hR⟩
    · obtain ⟨a, b, hfrom, hto, hR⟩ := hI.filed R id m hm
      exact ⟨a, b, hmark.idFrom.trans hfrom, hmark.idTo.trans hto, hR⟩
  read R id m' hm' hread := by
    have hbelongs := hI.queued d r (hq ▸ List.mem_cons_self)
    rcases Store.message_new h hm' with rfl | ⟨m, hm, hmark, hnew⟩
    · obtain ⟨-, -, -, -, hunread⟩ := hbelongs
      rw [hunread] at hread
      cases hread
    · rcases hnew hread with hread | rfl
      · obtain ⟨e, hrec, hto, hfrom⟩ := hI.read R id m hm hread
        exact ⟨e, hrec, hmark.idTo.trans hto, fun heq => hfrom (hmark.idFrom.symm.trans heq)⟩
      · obtain ⟨hrec, m₁, hm₁, hto, hfrom⟩ := hbelongs
        obtain rfl := Option.some.inj (hm₁.symm.trans hm)
        exact ⟨d, hrec, hmark.idTo.trans hto, fun heq => hfrom (hmark.idFrom.symm.trans heq)⟩

theorem Honest.fail (hI : w.Honest hashCode user) :
    { w with queue := pop w.queue d }.Honest hashCode user where
  queued e r hr := (hI.queued e r (mem_of_mem_pop hr)).mono (fun _ => id)
    fun _ _ m hm => ⟨m, hm, .refl m⟩
  filed := hI.filed
  read := hI.read

theorem Honest.step (hI : w.Honest hashCode user) (h : w.step hashCode user a = some w') :
    w'.Honest hashCode user := by
  cases stepped_of_step h with
  | act d c rs hrs => exact hI.acted hrs
  | deliver d newId r q store hq happ => exact hI.delivered hq happ
  | fail d r q hq => exact hI.fail

/-! ## Devices that do nothing -/

/-- The device of an action. -/
def Action.device : Action → Nat
  | .act d _ => d
  | .deliver d _ => d
  | .fail d => d

theorem step_queue (h : w.step hashCode user a = some w') {e : Nat} (he : e ≠ a.device) :
    w'.queue e = w.queue e := by
  cases stepped_of_step h with
  | act d c rs hrs => exact Function.update_of_ne he _ _
  | deliver d newId r q store hq happ => exact Function.update_of_ne he _ _
  | fail d r q hq => exact Function.update_of_ne he _ _

/-- A device that does nothing in a run keeps its queue. -/
theorem run_queue {e : Nat} : ∀ {w : World} {tr : List (Action × World)},
    Run (StepOf (step hashCode user)) w tr → (∀ a ∈ tr.map Prod.fst, e ≠ a.device) →
      (final w tr).queue e = w.queue e
  | _, [], _, _ => rfl
  | w, (a, w') :: tr, ⟨h, hrun⟩, hact => by
      have htail := run_queue hrun fun a' ha' => hact a' (List.mem_cons_of_mem _ ha')
      exact htail.trans (step_queue h (hact a List.mem_cons_self))

/-- Two users, on a device each. -/
def twoUsers (d : Nat) : Uid := if d = 0 then firstUid else thirdUid

end World

end CalendarApp
