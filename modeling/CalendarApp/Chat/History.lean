/-
# `Chat.History` — the store only grows, and no request is lost or repeated

No screen deletes a document.  Delete Event takes the user off the
participants, a reaction sets a mark, and a room's document is replaced by
one of the same two users.  So whatever interleaving of the devices led from
one store to a later one, the earlier documents are in the later store, and
this is all that may have become of them:

    message      isRead and isReacted have become true
    event        the participants have changed
    room         the users stand in another order, `last_updated` is another

A user is still there under his id; what his document says is left out, since
a Google sign-in also updates its name, e-mail and phone.

What is in the store came there by requests, and these are accounted for
device by device (`Conserved`): of what the commands of a device sent, a part
was applied, a part waits and a part has failed, in the order of sending.
Each accepted `add` of a message is one document, so the messages of a room
are the messages that were applied, up to their marks, each as often as it
was applied.
-/
import CalendarApp.Chat.Rows

namespace CalendarApp

open Lib

/-! ## Later documents -/

/-- `m'` is `m` with more marks. -/
structure MsgDoc.Later (m m' : MsgDoc) : Prop where
  marked : m.Marked m'
  reacted : m'.isReacted = m.isReacted ∨ m'.isReacted = some true

/-- `e'` is `e` with other participants. -/
def EventDoc.Later (e e' : EventDoc) : Prop := e' = { e with participants := e'.participants }

/-- `r'` is of the users of `r`. -/
def RoomDoc.Later (r r' : RoomDoc) : Prop := r'.users.Perm r.users

/-- Everything in `s` is in `s'`, some time later. -/
structure Store.Grows (s s' : Store) : Prop where
  messages : ∀ R, Collection.Grows MsgDoc.Later (s.messages R) (s'.messages R)
  events : Collection.Grows EventDoc.Later s.events s'.events
  rooms : Collection.Grows RoomDoc.Later s.rooms s'.rooms
  users : ∀ uid ∈ s.users, uid ∈ s'.users

theorem MsgDoc.Later.refl (m : MsgDoc) : m.Later m := ⟨.refl m, Or.inl rfl⟩

theorem MsgDoc.Later.trans {m m' m'' : MsgDoc} (h : m.Later m') (h' : m'.Later m'') :
    m.Later m'' where
  marked :=
    { idFrom := h'.marked.idFrom.trans h.marked.idFrom
      idTo := h'.marked.idTo.trans h.marked.idTo
      timestamp := h'.marked.timestamp.trans h.marked.timestamp
      content := h'.marked.content.trans h.marked.content
      type := h'.marked.type.trans h.marked.type
      isRead := fun hread => h'.marked.isRead (h.marked.isRead hread) }
  reacted := by
    rcases h'.reacted with hsame | htrue
    · rw [hsame]
      exact h.reacted
    · exact Or.inr htrue

theorem EventDoc.Later.refl (e : EventDoc) : e.Later e := rfl

theorem EventDoc.Later.trans {e e' e'' : EventDoc} (h : e.Later e') (h' : e'.Later e'') :
    e.Later e'' := by
  simp only [EventDoc.Later] at h h' ⊢
  rw [h', h]

theorem RoomDoc.Later.refl (r : RoomDoc) : r.Later r := List.Perm.refl _

namespace Store

theorem Grows.refl (s : Store) : s.Grows s where
  messages _ := Collection.Grows.refl MsgDoc.Later.refl _
  events := Collection.Grows.refl EventDoc.Later.refl _
  rooms := Collection.Grows.refl RoomDoc.Later.refl _
  users _ h := h

theorem Grows.trans {s s' s'' : Store} (h : s.Grows s') (h' : s'.Grows s'') : s.Grows s'' where
  messages R := (h.messages R).trans (fun _ _ _ => MsgDoc.Later.trans) (h'.messages R)
  events := h.events.trans (fun _ _ _ => EventDoc.Later.trans) h'.events
  rooms := h.rooms.trans (fun _ _ _ hr hr' => hr'.trans hr) h'.rooms
  users uid hu := h'.users uid (h.users uid hu)

/-- The rooms name their two users. -/
def Named (hashCode : String → Int) (s : Store) : Prop :=
  ∀ R doc, s.rooms.lookup R = some doc → RoomOf hashCode R doc.users

variable {hashCode : String → Int} {newId R : String} {s s' : Store} {r : Request}

theorem perm_of_room {us us' : List String} (h : RoomOf hashCode R us)
    (h' : RoomOf hashCode R us') : us'.Perm us := by
  obtain ⟨a, b, rfl, hR⟩ := h
  obtain ⟨c, d, rfl, hR'⟩ := h'
  rcases Sym2.eq_iff.mp (users_of_chatId (hR.symm.trans hR')) with ⟨rfl, rfl⟩ | ⟨rfl, rfl⟩
  · exact .refl _
  · exact .swap _ _ _

theorem messages_grow {id : String} {m : MsgDoc}
    (h : ∀ m₀, (s.messages R).lookup id = some m₀ → m₀.Later m) (R' : String) :
    Collection.Grows MsgDoc.Later (s.messages R')
      ((s.setMessages R ((s.messages R).insert id m)).messages R') := by
  by_cases hR : R' = R
  · subst hR
    simp only [setMessages, Function.update_self]
    exact Collection.grows_insert MsgDoc.Later.refl h
  · simp only [setMessages, Function.update_of_ne hR]
    exact Collection.Grows.refl MsgDoc.Later.refl _

theorem Grows.ofMessages {s' : Store} (hm : ∀ R, Collection.Grows MsgDoc.Later (s.messages R)
    (s'.messages R)) (he : s'.events = s.events) (hr : s'.rooms = s.rooms)
    (hu : s'.users = s.users) : s.Grows s' where
  messages := hm
  events := he ▸ (Grows.refl s).events
  rooms := hr ▸ (Grows.refl s).rooms
  users := hu ▸ (Grows.refl s).users

theorem Grows.ofEvents {E : String} {e : EventDoc}
    (h : ∀ e₀, s.events.lookup E = some e₀ → e₀.Later e) :
    s.Grows (s.setEvents (s.events.insert E e)) where
  messages := (Grows.refl s).messages
  events := Collection.grows_insert EventDoc.Later.refl h
  rooms := (Grows.refl s).rooms
  users := (Grows.refl s).users

/-- Whatever request is applied, the store grows. -/
theorem grows_applied (hN : s.Named hashCode) (h : s.Applied newId r s')
    (hroom : ∀ R us t, r = .write (.setRoom R us t) → RoomOf hashCode R us) : s.Grows s' := by
  have hold : ∀ {α : Type} {R : α → α → Prop} {c : Collection α} {id : String} {x y : α},
      c.lookup id = some x → R x y → ∀ x₀, c.lookup id = some x₀ → R x₀ y := by
    intro α R c id x y hx hR x₀ hx₀
    rw [← Option.some.inj (hx.symm.trans hx₀)]
    exact hR
  cases h with
  | addMessage R m hnew =>
      refine .ofMessages (messages_grow fun m₀ hm₀ => ?_) rfl rfl rfl
      rw [hnew] at hm₀
      cases hm₀
  | setRoom R us t =>
      refine ⟨(Grows.refl s).messages, (Grows.refl s).events, ?_, (Grows.refl s).users⟩
      refine Collection.grows_insert RoomDoc.Later.refl fun doc hdoc => ?_
      exact perm_of_room (hN R doc hdoc) (hroom R us t rfl)
  | setRead R id m hm =>
      exact .ofMessages (messages_grow (hold hm ⟨m.marked_read, Or.inl rfl⟩)) rfl rfl rfl
  | setReacted R id m hm =>
      exact .ofMessages (messages_grow (hold hm ⟨m.marked_reacted, Or.inr rfl⟩)) rfl rfl rfl
  | joinEvent E u e he => exact .ofEvents (hold he rfl)
  | leaveEvent E u e he => exact .ofEvents (hold he rfl)
  | addEvent e hnew =>
      refine .ofEvents fun e₀ he₀ => ?_
      rw [hnew] at he₀
      cases he₀
  | setUser u =>
      refine ⟨(Grows.refl s).messages, (Grows.refl s).events, (Grows.refl s).rooms, ?_⟩
      exact fun uid huid => AList.mem_insert _ |>.mpr (Or.inr huid)

end Store

namespace World

variable (hashCode : String → Int) (user : Nat → Uid)

/-! ## What becomes of a request -/

/-- The requests an action sends, each with its device. -/
def sentIn (w : World) : Action → List (Nat × Request)
  | .act d c => ((w.requests hashCode user d c).getD []).map fun r => (d, r)
  | .deliver _ _ => []
  | .fail _ => []

/-- The requests sent in a run. -/
def sent : World → List (Action × World) → List (Nat × Request)
  | _, [] => []
  | w, (a, w') :: tr => w.sentIn hashCode user a ++ sent w' tr

def failsIn (d : Nat) : Action → Nat
  | .fail e => if e = d then 1 else 0
  | .act _ _ => 0
  | .deliver _ _ => 0

/-- How many requests of `d` have failed in a run. -/
def failures (d : Nat) (tr : List (Action × World)) : Nat :=
  (tr.map fun e => failsIn d e.1).sum

end World

/-- The message that a request adds to the room `R`. -/
def Request.messageTo (R : String) : Request → Option MsgDoc
  | .write (.addMessage chatId message) => if chatId = R then some message else none
  | _ => none

/-- The message without its marks. -/
def MsgDoc.unmarked (m : MsgDoc) : MsgDoc := { m with isRead := false, isReacted := none }

/-- The messages of a room, in no order and without their marks. -/
def Store.posted (s : Store) (R : String) : List MsgDoc :=
  (Collection.docs (s.messages R)).map MsgDoc.unmarked

/-- The messages that some requests add to the room `R`, without their marks. -/
def postings (R : String) (rs : List (Nat × Request)) : List MsgDoc :=
  (rs.filterMap fun p => p.2.messageTo R).map MsgDoc.unmarked

namespace World

/-- What became of all that was sent in a run `tr` to the world `w`. -/
structure Accounted (hashCode : String → Int) (user : Nat → Uid) (now : Int)
    (tr : List (Action × World)) (w : World) : Prop where
  /-- a request of a device was applied, waits, or has failed -/
  requests : ∀ d, Conserved (ofWriter d (sent hashCode user (start now) tr))
    (ofWriter d w.applied.reverse) (w.queue d) (failures d tr)
  /-- the messages of a room are those that were applied -/
  applied : ∀ R, (w.store.posted R).Perm (postings R w.applied)
  /-- at rest, they are those that were sent -/
  sent : (∀ d, w.queue d = [] ∧ failures d tr = 0) →
    ∀ R, (w.store.posted R).Perm (postings R (sent hashCode user (start now) tr))

variable {hashCode user} {w w' : World} {a : Action} {d : Nat} {r : Request} {store : Store}

/-! ## The store of every later world -/

theorem named_step (hI : w.Honest hashCode user) (hN : w.store.Named hashCode)
    (h : w.step hashCode user a = some w') : w'.store.Named hashCode :=
  ChatScreen.rooms_step hI hN h

theorem grows_step (hI : w.Honest hashCode user) (hN : w.store.Named hashCode)
    (h : w.step hashCode user a = some w') : w.store.Grows w'.store := by
  cases stepped_of_step h with
  | act d c rs hrs => exact .refl _
  | fail d r q hq => exact .refl _
  | deliver d newId r q store hq happ =>
      refine Store.grows_applied hN happ fun R us t hr => ?_
      obtain ⟨peer, hR, hus⟩ := hr ▸ hI.queued d r (hq ▸ List.mem_cons_self)
      exact ⟨user d, peer, hus, hR⟩

/-- What a world has recorded is honest and its rooms name their users. -/
structure Sincere (hashCode : String → Int) (user : Nat → Uid) (w : World) : Prop where
  honest : w.Honest hashCode user
  named : w.store.Named hashCode

theorem Sincere.start (now : Int) : (World.start now).Sincere hashCode user where
  honest := Honest.start now
  named := fun _ _ h => nomatch h

theorem grows_run {tr : List (Action × World)} (hI : w.Sincere hashCode user)
    (hrun : Run (StepOf (step hashCode user)) w tr) :
    w.store.Grows (final w tr).store ∧ (final w tr).Sincere hashCode user := by
  refine rel_of_run (R := fun w w' : World => w.store.Grows w'.store)
    (fun w => .refl w.store) (fun _ _ _ h h' => h.trans h') ?_ hI hrun
  intro w a w' hI h
  exact ⟨grows_step hI.honest hI.named h, hI.honest.step h, named_step hI.honest hI.named h⟩

/-- Whatever the devices do, every document of the store is in every later
store of the run; a message has changed there in its marks only, an event in
its participants, and a room in the order of its users and its time. -/
theorem store_grows (hashCode : String → Int) (user : Nat → Uid) (now : Int)
    {tr tr' : List (Action × World)}
    (hrun : Run (StepOf (step hashCode user)) (start now) (tr ++ tr')) :
    (final (start now) tr).store.Grows (final (start now) (tr ++ tr')).store := by
  obtain ⟨htr, htr'⟩ := along_append.mp hrun
  rw [final_append]
  exact (grows_run (grows_run (Sincere.start now) htr).2 htr').1

/-- The first user invites the other one to an event, and leaves it. -/
theorem store_grows_leave : ∃ tr tr' : List (Action × World),
    (((final (start 0) tr).store.events.lookup "e").map EventDoc.participants =
        some [(firstUid : String)]) ∧
      (((final (start 0) (tr ++ tr')).store.events.lookup "e").map EventDoc.participants =
        some []) ∧
      (final (start 0) tr).store.Grows (final (start 0) (tr ++ tr')).store := by
  obtain ⟨tr, -, hrun, htr⟩ := exists_run
    (f := step oneAtATime twoUsers) (s := start 0)
    (P := fun tr => ((final (start 0) (tr.take 4)).store.events.lookup "e").map
        EventDoc.participants = some [(firstUid : String)] ∧
      ((final (start 0) tr).store.events.lookup "e").map EventDoc.participants = some [])
    [.act 0 (.signUp ""), .deliver 0 "",
      .act 0 (.createEvent (EventModal.ofDay (Zone.fixed 0) 1556668800000 1556713800000)),
      .deliver 0 "e", .act 0 (.leave "e"), .deliver 0 ""]
    (by decide +kernel)
  have hsplit : tr.take 4 ++ tr.drop 4 = tr := List.take_append_drop 4 tr
  have hrun' : Run (StepOf (step oneAtATime twoUsers)) (start 0) (tr.take 4 ++ tr.drop 4) := by
    rw [hsplit]
    exact hrun
  refine ⟨tr.take 4, tr.drop 4, htr.1, ?_, store_grows oneAtATime twoUsers 0 hrun'⟩
  rw [hsplit]
  exact htr.2

/-! ## Every request is accounted for -/

theorem sent_append (hashCode : String → Int) (user : Nat → Uid) :
    ∀ (w : World) (tr tr' : List (Action × World)),
      sent hashCode user w (tr ++ tr') =
        sent hashCode user w tr ++ sent hashCode user (final w tr) tr'
  | _, [], _ => rfl
  | w, (a, w') :: tr, tr' => by
      simp only [List.cons_append, sent, final, List.append_assoc]
      rw [sent_append hashCode user w' tr tr']

theorem failures_append (d : Nat) (tr tr' : List (Action × World)) :
    failures d (tr ++ tr') = failures d tr + failures d tr' := by
  simp only [failures, List.map_append, List.sum_append]

/-- One step accounts for what it sends, applies or drops. -/
theorem conserved_step {sent : List (Nat × Request)} {e n : Nat}
    (hI : Conserved (ofWriter e sent) (ofWriter e w.applied.reverse) (w.queue e) n)
    (h : w.step hashCode user a = some w') :
    Conserved (ofWriter e (sent ++ w.sentIn hashCode user a)) (ofWriter e w'.applied.reverse)
      (w'.queue e) (n + failsIn e a) := by
  rw [ofWriter_append]
  cases stepped_of_step h with
  | act d c rs hrs =>
      simp only [sentIn, hrs, Option.getD_some, ofWriter_tagged]
      split
      · next hde =>
          subst hde
          simp only [acted, Lib.send, Function.update_self]
          exact hI.send rs
      · next hde =>
          rw [List.append_nil]
          simp only [acted, Lib.send, Function.update_of_ne (Ne.symm hde)]
          exact hI
  | deliver d newId r q store hq happ =>
      have hout : ofWriter e (w.delivered d r store).applied.reverse =
          ofWriter e w.applied.reverse ++ if d = e then [r] else [] := by
        rw [delivered, List.reverse_cons, ofWriter_append]
        exact congrArg _ (ofWriter_tagged e d [r])
      rw [hout]
      simp only [sentIn, delivered, pop]
      by_cases hde : d = e
      · subst hde
        rw [hq] at hI
        rw [if_pos rfl, Function.update_self, hq]
        exact (List.append_nil _).symm ▸ hI.take
      · rw [if_neg hde, Function.update_of_ne (Ne.symm hde), List.append_nil]
        exact (List.append_nil _).symm ▸ hI
  | fail d r q hq =>
      simp only [sentIn, failsIn, pop]
      by_cases hde : d = e
      · subst hde
        rw [hq] at hI
        rw [if_pos rfl, Function.update_self, hq]
        exact (List.append_nil _).symm ▸ hI.drop
      · rw [if_neg hde, Function.update_of_ne (Ne.symm hde)]
        exact (List.append_nil _).symm ▸ hI

theorem posted_applied {newId : String} {s s' : Store} (h : s.Applied newId r s') (R : String) :
    (s'.posted R).Perm (((r.messageTo R).map MsgDoc.unmarked).toList ++ s.posted R) := by
  -- a mark is not seen in the message without its marks
  have hmark : ∀ {R₁ id : String} {m m₁ : MsgDoc}, (s.messages R₁).lookup id = some m →
      m₁.unmarked = m.unmarked →
      ((s.setMessages R₁ ((s.messages R₁).insert id m₁)).posted R).Perm (s.posted R) := by
    intro R₁ id m m₁ hm hsame
    simp only [Store.posted, Store.setMessages]
    by_cases hR : R = R₁
    · subst hR
      rw [Function.update_self]
      exact Collection.map_docs_insert_old hm hsame
    · rw [Function.update_of_ne hR]
  cases h with
  | addMessage R₁ m hnew =>
      simp only [Request.messageTo, Store.posted, Store.setMessages]
      by_cases hR : R₁ = R
      · subst hR
        rw [if_pos rfl, Function.update_self, Collection.docs_insert_new hnew]
        exact List.Perm.refl _
      · rw [if_neg hR, Function.update_of_ne (Ne.symm hR)]
        exact List.Perm.refl _
  | setRead R₁ id m hm => exact hmark hm rfl
  | setReacted R₁ id m hm => exact hmark hm rfl
  | setRoom _ _ _ => exact List.Perm.refl _
  | joinEvent _ _ _ _ => exact List.Perm.refl _
  | leaveEvent _ _ _ _ => exact List.Perm.refl _
  | addEvent _ _ => exact List.Perm.refl _
  | setUser _ => exact List.Perm.refl _

theorem postings_cons (R : String) (p : Nat × Request) (l : List (Nat × Request)) :
    postings R (p :: l) = ((p.2.messageTo R).map MsgDoc.unmarked).toList ++ postings R l := by
  simp only [postings, List.filterMap_cons]
  cases p.2.messageTo R <;> rfl

/-- Whatever the devices do and in whatever order their requests arrive or
fail, each request is applied once, waits, or has failed, in the order its
device has sent it; the messages of a room are those applied, no more and no
less; and when nothing failed and nothing waits, they are all that was sent. -/
theorem accounted (hashCode : String → Int) (user : Nat → Uid) (now : Int)
    {tr : List (Action × World)} (hrun : Run (StepOf (step hashCode user)) (start now) tr) :
    Accounted hashCode user now tr (final (start now) tr) := by
  have hrequests : ∀ d, Conserved (ofWriter d (sent hashCode user (start now) tr))
      (ofWriter d (final (start now) tr).applied.reverse) ((final (start now) tr).queue d)
      (failures d tr) := by
    intro d
    refine Run.history (I := fun tr => Conserved (ofWriter d (sent hashCode user (start now) tr))
      (ofWriter d (final (start now) tr).applied.reverse) ((final (start now) tr).queue d)
      (failures d tr)) .start ?_ hrun
    intro tr a w' _ hI h
    rw [sent_append, final_append, failures_append]
    have hstep := conserved_step hI h
    simp only [sent, final, List.append_nil]
    exact hstep
  have happlied : ∀ R, ((final (start now) tr).store.posted R).Perm
      (postings R (final (start now) tr).applied) := by
    intro R
    refine Reachable.invariant (I := fun w : World =>
      (w.store.posted R).Perm (postings R w.applied)) (List.Perm.refl _) ?_ ⟨tr, hrun, rfl⟩
    intro w a w' hI h
    cases stepped_of_step h with
    | act d c rs hrs => exact hI
    | fail d r q hq => exact hI
    | deliver d newId r q store hq happ =>
        rw [delivered, postings_cons]
        exact (posted_applied happ R).trans (hI.append_left _)
  refine ⟨hrequests, happlied, fun hrest R => (happlied R).trans ?_⟩
  have hsame : ∀ d, ofWriter d (final (start now) tr).applied.reverse =
      ofWriter d (sent hashCode user (start now) tr) := by
    intro d
    have hd := hrequests d
    rw [(hrest d).1, (hrest d).2] at hd
    rw [← hd.eq, List.append_nil]
  have hperm := (List.reverse_perm _).symm.trans (perm_of_ofWriter hsame)
  exact (hperm.filterMap _).map _

/-- The first user writes twice; the first message and its room's document
arrive, the second message fails and the document of its room waits. -/
theorem accounted_oneLost : ∃ tr : List (Action × World),
    ((final (start 0) tr).store.posted (chatId oneAtATime firstUid thirdUid)).length = 1 ∧
      failures 0 tr = 1 ∧ ((final (start 0) tr).queue 0).length = 1 ∧
      Accounted oneAtATime twoUsers 0 tr (final (start 0) tr) := by
  obtain ⟨tr, -, hrun, hpost, hfail, hwait⟩ := exists_run
    (f := step oneAtATime twoUsers) (s := start 0)
    (P := fun tr =>
      ((final (start 0) tr).store.posted (chatId oneAtATime firstUid thirdUid)).length = 1 ∧
      failures 0 tr = 1 ∧ ((final (start 0) tr).queue 0).length = 1)
    [.act 0 (.signUp ""), .act 1 (.signUp ""), .deliver 0 "", .deliver 1 "",
      .act 0 (.submit thirdUid "hi" 1), .act 0 (.submit thirdUid "there" 2), .deliver 0 "m",
      .deliver 0 "", .fail 0]
    (by decide +kernel)
  exact ⟨tr, hpost, hfail, hwait, accounted oneAtATime twoUsers 0 hrun⟩

end World

end CalendarApp
