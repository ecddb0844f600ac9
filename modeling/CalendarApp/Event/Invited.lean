/-
# `Event.Invited` — who can come to take part in an event

The server lets every user write to every event.  What limits the
participants is the screens: an invitation is sent from the detail of an
event, which is opened from the list of the user's own events, and an event is
joined from an invitation only.  So a device invites to an event its user
takes part in, in some earlier state of the server, or to an event of its own
that has not reached the server yet (`InvitesKnown`), and then

    host ── invitation ──▶ u₁ ── invitation ──▶ u₂ ── ... ──▶ u

is a chain of stored invitations to the event for every participant `u`,
whatever the devices did and in whatever order.  Who has left the event may
still be a link: his invitations stay valid.
-/
import CalendarApp.Chat.Reactions
import CalendarApp.Event.Participants
import Mathlib.Logic.Relation

namespace CalendarApp

open Lib

namespace Store

/-- An invitation to `E` from `a` to `b` is on the server. -/
def Invited (s : Store) (E a b : String) : Prop :=
  ∃ R id m, (s.messages R).lookup id = some m ∧ m.type = 1 ∧ m.content = E ∧
    m.idFrom = a ∧ m.idTo = b

/-- Invitations to `E` lead from `a` to `b`. -/
def Reached (s : Store) (E : String) : String → String → Prop :=
  Relation.ReflTransGen (s.Invited E)

variable {s s' : Store} {E a b : String}

theorem Invited.grows (hgrow : s.Grows s') (h : s.Invited E a b) : s'.Invited E a b := by
  obtain ⟨R, id, m, hm, htype, hE, hfrom, hto⟩ := h
  obtain ⟨m', hm', hlater⟩ := hgrow.messages R id m hm
  exact ⟨R, id, m', hm', hlater.marked.type.trans htype, hlater.marked.content.trans hE,
    hlater.marked.idFrom.trans hfrom, hlater.marked.idTo.trans hto⟩

theorem Reached.grows (hgrow : s.Grows s') (h : s.Reached E a b) : s'.Reached E a b :=
  Relation.ReflTransGen.mono (fun _ _ => Invited.grows hgrow) _ _ h

end Store

namespace World

/-- In the run, the event `E` is hosted by `u` whenever it is on the server. -/
def HostedBy (now : Int) (tr : List (Action × World)) (E u : String) : Prop :=
  ∀ pre, pre <+: tr → ∀ e, (final (start now) pre).store.events.lookup E = some e → e.host = u

/-- Whoever invites to an event has been a participant of it, in some earlier
state of the server, or is its host. -/
def InvitesKnown (user : Nat → Uid) (now : Int) (tr : List (Action × World)) : Prop :=
  ∀ before d peer E t w', before ++ [(.act d (.invite peer E t), w')] <+: tr →
    (∃ pre, pre <+: before ∧ ∃ e,
      (final (start now) pre).store.events.lookup E = some e ∧ (user d : String) ∈ e.participants) ∨
    HostedBy now tr E (user d)

/-- Invitations lead from the host of `E` to `a`, or `a` is to be the host. -/
def Knows (own : String → String → Prop) (s : Store) (E a : String) : Prop :=
  (∃ e, s.events.lookup E = some e ∧ s.Reached E e.host a) ∨ own E a

/-- Invitations lead to every participant and to every inviter. -/
structure Linked (own : String → String → Prop) (w : World) : Prop where
  participants : ∀ E e, w.store.events.lookup E = some e → ∀ u ∈ e.participants,
    w.store.Reached E e.host u
  stored : ∀ R id m, (w.store.messages R).lookup id = some m → m.type = 1 →
    Knows own w.store m.content m.idFrom
  queued : ∀ d R m, .write (.addMessage R m) ∈ w.queue d → m.type = 1 →
    Knows own w.store m.content m.idFrom

variable {hashCode : String → Int} {user : Nat → Uid} {own : String → String → Prop}
  {w w' : World} {a : Action} {d : Nat} {r : Request} {tr : List (Action × World)}

theorem Knows.grows {s s' : Store} {E u : String} (hgrow : s.Grows s') (h : Knows own s E u) :
    Knows own s' E u := by
  rcases h with ⟨e, he, hreach⟩ | hown
  · obtain ⟨e', he', hlater⟩ := hgrow.events E e he
    have hhost : e'.host = e.host := by
      rw [show e' = _ from hlater]
    exact Or.inl ⟨e', he', hhost.symm ▸ hreach.grows hgrow⟩
  · exact Or.inr hown

theorem Knows.reached {s : Store} {E u : String} {e : EventDoc} (h : Knows own s E u)
    (hown : ∀ u, own E u → e.host = u) (he : s.events.lookup E = some e) :
    s.Reached E e.host u := by
  rcases h with ⟨e', he', hreach⟩ | hu
  · rw [Option.some.inj (he.symm.trans he')]
    exact hreach
  · rw [hown u hu]
    exact .refl

theorem Linked.start (now : Int) : Linked own (World.start now) where
  participants _ _ he := nomatch he
  stored _ _ _ hm := nomatch hm
  queued _ _ _ hr := nomatch hr

theorem accepted_of_eventOp {E u : String} (hop : r.eventOp E = some (u, true))
    (hr : Founded hashCode user tr w r) : Accepted hashCode user tr w E u := by
  cases r with
  | write x =>
      cases x with
      | joinEvent E₁ u₁ =>
          simp only [Request.eventOp] at hop
          split at hop
          · next heq =>
              cases hop
              exact heq ▸ hr
          · cases hop
      | addMessage _ _ => cases hop
      | setRoom _ _ _ => cases hop
      | setRead _ _ => cases hop
      | setReacted _ _ => cases hop
  | leaveEvent E₁ u₁ =>
      simp only [Request.eventOp] at hop
      split at hop <;> cases hop
  | addEvent _ => cases hop
  | setUser _ => cases hop

theorem Linked.acted {c : Command} {rs : List Request} (hL : Linked own w)
    (hrs : w.requests hashCode user d c = some rs)
    (hinvite : ∀ peer E t, c = .invite peer E t → Knows own w.store E (user d)) :
    Linked own (w.acted hashCode user d c rs) where
  participants := hL.participants
  stored := hL.stored
  queued e R m hr htype := by
    rcases mem_send.mp hr with hold | ⟨rfl, hnew⟩
    · exact hL.queued e R m hold htype
    · cases origin_of_requests hrs hnew with
      | submit peer msg now R m htext _ =>
          rw [htext] at htype
          cases htype
      | invite peer E now R m _ _ hE hfrom _ =>
          rw [hE, hfrom]
          exact hinvite peer E now rfl
      | other _ _ hsilent => cases hsilent

theorem Linked.delivered {newId : String} {q : List Request} {store : Store}
    (hI : w.Sincere hashCode user) (hA : Answered hashCode user tr w) (hL : Linked own w)
    (hown : ∀ E e u, w.store.events.lookup E = some e → own E u → e.host = u)
    (hq : w.queue d = r :: q) (happ : w.store.Applied newId r store)
    (hgrow : w.store.Grows store) : Linked own (w.delivered d r store) where
  participants E e' he' u hu := by
    have hhead : r ∈ w.queue d := hq ▸ List.mem_cons_self
    rcases Store.events_apply happ E with ⟨-, hsame⟩ | ⟨e, rfl, -, hnew⟩ |
      ⟨v, joins, e, hop, hold, hnew⟩
    · exact (hL.participants E e' (hsame ▸ he') u hu).grows hgrow
    · obtain rfl := Option.some.inj (hnew.symm.trans he')
      obtain ⟨hhost, hparticipants⟩ := hI.honest.queued d _ hhead
      rw [hparticipants, ← hhost, List.mem_singleton] at hu
      rw [hu]
      exact .refl
    · obtain rfl := Option.some.inj (hnew.symm.trans he')
      rw [EventDoc.host_set]
      rw [EventDoc.mem_set] at hu
      split at hu
      · next heq =>
          -- the user who joins was invited by somebody who is linked
          subst heq hu
          obtain ⟨R, id, m, hm, htype, hE, hto, -, -⟩ :=
            accepted_of_eventOp hop (hA.queued d r hhead)
          have hknows := hL.stored R id m hm htype
          rw [hE] at hknows
          have hreach := hknows.reached (fun u => hown E e u hold) hold
          have hlink : w.store.Reached E e.host u :=
            hreach.tail ⟨R, id, m, hm, htype, hE, rfl, hto⟩
          exact hlink.grows hgrow
      · exact (hL.participants E e hold u hu).grows hgrow
  stored R id m' hm' htype := by
    rcases Store.message_new happ hm' with rfl | ⟨m, hm, hmark, -⟩
    · exact (hL.queued d R m' (hq ▸ List.mem_cons_self) htype).grows hgrow
    · rw [hmark.content, hmark.idFrom]
      exact (hL.stored R id m hm (hmark.type.symm.trans htype)).grows hgrow
  queued e R m hr htype := (hL.queued e R m (mem_of_mem_pop hr) htype).grows hgrow

/-- One step keeps what is linked, if an invitation is sent by one who knows
the event. -/
theorem Linked.step (hI : w.Sincere hashCode user) (hA : Answered hashCode user tr w)
    (hL : Linked own w)
    (hown : ∀ E e u, w.store.events.lookup E = some e → own E u → e.host = u)
    (hinvite : ∀ d peer E t, a = .act d (.invite peer E t) → Knows own w.store E (user d))
    (h : w.step hashCode user a = some w') : Linked own w' := by
  have hgrow := grows_step hI.honest hI.named h
  cases stepped_of_step h with
  | act d c rs hrs => exact hL.acted hrs fun peer E t hc => hinvite d peer E t (by rw [hc])
  | deliver d newId r q store hq happ => exact hL.delivered hI hA hown hq happ hgrow
  | fail d r q hq =>
      exact ⟨hL.participants, hL.stored, fun e R m hr => hL.queued e R m (mem_of_mem_pop hr)⟩

theorem knows_of_past {now : Int} {before since : List (Action × World)} {E u : String}
    {e : EventDoc} (hrun : Run (StepOf (step hashCode user)) (World.start now) (before ++ since))
    (hL : Linked own (final (World.start now) before))
    (he : (final (World.start now) before).store.events.lookup E = some e)
    (hu : u ∈ e.participants) :
    Knows own (final (World.start now) (before ++ since)).store E u := by
  obtain ⟨hbefore, hsince⟩ := along_append.mp hrun
  have hgrow := (grows_run (grows_run (Sincere.start now) hbefore).2 hsince).1
  have hthen : Knows own (final (World.start now) before).store E u :=
    Or.inl ⟨e, he, hL.participants E e he u hu⟩
  rw [final_append]
  exact hthen.grows hgrow

/-- Everything is linked at the end of every beginning of a run in which
whoever invites knows the event. -/
theorem linked_run {now : Int} {whole : List (Action × World)}
    (hrun : Run (StepOf (step hashCode user)) (World.start now) whole)
    (hown : ∀ pre, pre <+: whole → ∀ E e u,
      (final (World.start now) pre).store.events.lookup E = some e → own E u → e.host = u)
    (hknown : ∀ before d peer E t w', before ++ [(.act d (.invite peer E t), w')] <+: whole →
      (∃ pre, pre <+: before ∧ ∃ e, (final (World.start now) pre).store.events.lookup E = some e ∧
        (user d : String) ∈ e.participants) ∨ own E (user d)) :
    ∀ tr, tr <+: whole → ∀ pre, pre <+: tr → Linked own (final (World.start now) pre) := by
  intro tr
  induction tr using List.reverseRecOn with
  | nil =>
      intro _ pre hpre
      rw [List.prefix_nil.mp hpre]
      exact Linked.start now
  | append_singleton tr e ih =>
      intro htr pre hpre
      have hbefore : tr <+: whole := (List.prefix_append tr [e]).trans htr
      rcases List.prefix_concat_iff.mp hpre with rfl | hpre
      · -- the step to the world after `e`
        obtain ⟨a, w'⟩ := e
        obtain ⟨rest, hrest⟩ := htr
        obtain ⟨hrun₁, -⟩ := along_append.mp (hrest ▸ hrun)
        obtain ⟨hrun₂, hlast, -⟩ := along_append.mp hrun₁
        rw [final_append]
        refine Linked.step (grows_run (Sincere.start now) hrun₂).2 (answered_run hrun₂)
          (ih hbefore tr (List.prefix_refl tr)) (hown tr hbefore) ?_ hlast
        rintro d peer E t rfl
        rcases hknown tr d peer E t w' ⟨rest, hrest⟩ with ⟨past, ⟨since, rfl⟩, e, he, hu⟩ | hhost
        · exact knows_of_past hrun₂ (ih hbefore past (List.prefix_append _ _)) he hu
        · exact Or.inr hhost
      · exact ih hbefore pre hpre

/-- After every run in which users invite to events they know, a chain of
stored invitations leads from the host of an event to each participant. -/
theorem participants_invited (hashCode : String → Int) (user : Nat → Uid) (now : Int)
    {tr : List (Action × World)} (hrun : Run (StepOf (step hashCode user)) (start now) tr)
    (hknown : InvitesKnown user now tr) :
    ∀ E e, (final (start now) tr).store.events.lookup E = some e → ∀ u ∈ e.participants,
      (final (start now) tr).store.Reached E e.host u := by
  have hlinked : Linked (HostedBy now tr) (final (start now) tr) :=
    linked_run hrun (fun pre hpre _ e _ he hu => hu pre hpre e he) hknown tr (List.prefix_refl tr)
      tr (List.prefix_refl tr)
  exact hlinked.participants

/-! ## A test for runs -/

/-- `user d` took part in `E` before the entry `k` of the run. -/
def seenBefore (user : Nat → Uid) (now : Int) (tr : List (Action × World)) (k d : Nat)
    (E : String) : Bool :=
  (List.range (k + 1)).any fun j =>
    ((final (start now) (tr.take j)).store.events.lookup E).any fun e =>
      decide ((user d : String) ∈ e.participants)

/-- Every invitation of the run is to an event the inviter took part in before. -/
def invitesSeen (user : Nat → Uid) (now : Int) (tr : List (Action × World)) : Bool :=
  (List.range tr.length).all fun k =>
    match tr[k]? with
    | some (.act d (.invite _ E _), _) => seenBefore user now tr k d E
    | _ => true

/-- Three users, on a device each. -/
def threeUsers (d : Nat) : Uid :=
  if d = 0 then firstUid else if d = 1 then thirdUid else secondUid

theorem invitesKnown_of_seen {now : Int} (h : invitesSeen user now tr = true) :
    InvitesKnown user now tr := by
  rintro before d peer E t w' ⟨rest, rfl⟩
  have hlt : before.length <
      (before ++ [(Action.act d (.invite peer E t), w')] ++ rest).length := by
    simp only [List.length_append, List.length_singleton]
    omega
  have hentry : (before ++ [(Action.act d (.invite peer E t), w')] ++ rest)[before.length]? =
      some (.act d (.invite peer E t), w') := by
    simp
  have hk := List.all_eq_true.mp h before.length (List.mem_range.mpr hlt)
  rw [hentry] at hk
  obtain ⟨j, hj, hseen⟩ := List.any_eq_true.mp hk
  obtain ⟨e, he, hu⟩ := (Option.any_eq_true _ _).mp hseen
  have htake : (before ++ [(Action.act d (.invite peer E t), w')] ++ rest).take j =
      before.take j := by
    rw [List.append_assoc, List.take_append_of_le_length]
    exact Nat.lt_succ_iff.mp (List.mem_range.mp hj)
  rw [htake] at he
  exact Or.inl ⟨before.take j, List.take_prefix j before, e, he, of_decide_eq_true hu⟩

/-- The first user invites the second, who accepts, invites the third and
leaves; the third accepts. -/
theorem participants_invited_chain : ∃ tr : List (Action × World),
    (((final (start 0) tr).store.events.lookup "e").map EventDoc.participants =
        some [(firstUid : String), secondUid]) ∧
      ∀ E e, (final (start 0) tr).store.events.lookup E = some e → ∀ u ∈ e.participants,
        (final (start 0) tr).store.Reached E e.host u := by
  obtain ⟨tr, -, hrun, hevent, hseen⟩ := exists_run
    (f := step oneAtATime threeUsers) (s := start 0)
    (P := fun tr => ((final (start 0) tr).store.events.lookup "e").map EventDoc.participants =
        some [(firstUid : String), secondUid] ∧ invitesSeen threeUsers 0 tr = true)
    [.act 0 (.signUp ""), .act 1 (.signUp ""), .act 2 (.signUp ""), .deliver 0 "", .deliver 1 "",
      .deliver 2 "",
      .act 0 (.createEvent (EventModal.ofDay (Zone.fixed 0) 1556668800000 1556713800000)),
      .deliver 0 "e", .act 0 (.invite thirdUid "e" 1), .deliver 0 "m",
      .act 1 (.receive firstUid ["m"]), .act 1 (.react firstUid "m" true), .deliver 1 "",
      .deliver 1 "", .deliver 1 "", .act 1 (.invite secondUid "e" 2), .act 1 (.leave "e"),
      .deliver 1 "n", .deliver 1 "", .deliver 1 "", .act 2 (.receive thirdUid ["n"]),
      .act 2 (.react thirdUid "n" true), .deliver 2 "", .deliver 2 "", .deliver 2 ""]
    (by decide +kernel)
  exact ⟨tr, hevent,
    participants_invited oneAtATime threeUsers 0 hrun (invitesKnown_of_seen hseen)⟩

end World

end CalendarApp
