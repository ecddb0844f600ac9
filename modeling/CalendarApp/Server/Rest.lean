/-
# `Server.Rest` — no write is rejected, and every world can come to rest

`updateData` is rejected where the document is missing, and the write is lost.
Nothing on the devices checks for that.  Still it does not happen: whatever a
request changes is there when its turn comes.

    a mark          on a message that was received, and messages stay
    Accept          for an invitation, to an event that was stored when the
                    invitation was sent, and events stay
    Delete Event    of an event that was opened

What is needed is that users invite to and leave only events that they have
opened, from the list of the stored ones (`OpensStored`).  Then from every
reachable world every order of deliveries that takes no more from a queue than
there is can be carried out, and one that takes everything leads to rest
(`comes_to_rest`).
-/
import CalendarApp.Chat.Reactions
import CalendarApp.Event.Participants

namespace CalendarApp

open Lib

namespace Store

/-- What the request changes is there. -/
def Ready (s : Store) : Request → Prop
  | .write (.addMessage _ _) => True
  | .write (.setRoom _ _ _) => True
  | .write (.setRead R id) => id ∈ s.messages R
  | .write (.setReacted R id) => id ∈ s.messages R
  | .write (.joinEvent E _) => E ∈ s.events
  | .leaveEvent E _ => E ∈ s.events
  | .addEvent _ => True
  | .setUser _ => True

variable {s s' : Store} {newId : String} {r : Request}

theorem exists_apply (h : s.Ready r) : ∃ newId s', s.apply newId r = some s' := by
  have hcreate : ∀ {α : Type} (c : Collection α) (x : α),
      ∃ newId c', c.create newId x = some c' := by
    intro α c x
    obtain ⟨id, hid⟩ := c.exists_unused
    exact ⟨id, _, Collection.create_eq_some.mpr ⟨hid, rfl⟩⟩
  have hupdate : ∀ {α : Type} {c : Collection α} {id : String} (f : α → α), id ∈ c →
      ∃ c', c.update id f = some c' := by
    intro α c id f hid
    obtain ⟨x, hx⟩ := Option.isSome_iff_exists.mp (AList.lookup_isSome.mpr hid)
    exact ⟨_, Collection.update_eq_some.mpr ⟨x, hx, rfl⟩⟩
  cases r with
  | write w =>
      cases w with
      | addMessage R m =>
          obtain ⟨id, c, hc⟩ := hcreate (s.messages R) m
          exact ⟨id, _, congrArg (Option.map (s.setMessages R)) hc⟩
      | setRoom R us t => exact ⟨"", _, rfl⟩
      | setRead R id =>
          obtain ⟨c, hc⟩ := hupdate MsgDoc.read h
          exact ⟨"", _, congrArg (Option.map (s.setMessages R)) hc⟩
      | setReacted R id =>
          obtain ⟨c, hc⟩ := hupdate MsgDoc.reacted h
          exact ⟨"", _, congrArg (Option.map (s.setMessages R)) hc⟩
      | joinEvent E u =>
          obtain ⟨c, hc⟩ := hupdate (EventDoc.join u) h
          exact ⟨"", _, congrArg (Option.map s.setEvents) hc⟩
  | leaveEvent E u =>
      obtain ⟨c, hc⟩ := hupdate (EventDoc.leave u) h
      exact ⟨"", _, congrArg (Option.map s.setEvents) hc⟩
  | addEvent e =>
      obtain ⟨id, c, hc⟩ := hcreate s.events e
      exact ⟨id, _, congrArg (Option.map s.setEvents) hc⟩
  | setUser u => exact ⟨"", _, rfl⟩

theorem event_kept (h : s.Applied newId r s') {E : String} (hE : E ∈ s.events) : E ∈ s'.events := by
  rw [← AList.lookup_isSome] at hE ⊢
  rcases events_apply h E with ⟨-, hsame⟩ | ⟨e, -, -, hnew⟩ | ⟨u, joins, e, -, -, hnew⟩
  · rwa [hsame]
  · rw [hnew]
    rfl
  · rw [hnew]
    rfl

end Store

namespace World

/-- The device whose request an action delivers. -/
def Action.delivers : Action → Option Nat
  | .deliver d _ => some d
  | .act _ _ => none
  | .fail _ => none

/-- Users invite to and leave only events that the server has. -/
def OpensStored (w : World) : Action → Prop
  | .act _ (.invite _ E _) => E ∈ w.store.events
  | .act _ (.leave E) => E ∈ w.store.events
  | _ => True

instance (w : World) : ∀ a, Decidable (w.OpensStored a)
  | .act _ (.invite _ E _) => inferInstanceAs (Decidable (E ∈ w.store.events))
  | .act _ (.leave E) => inferInstanceAs (Decidable (E ∈ w.store.events))
  | .act _ (.signUp _) | .act _ .signIn | .act _ (.submit _ _ _) | .act _ (.receive _ _)
  | .act _ (.react _ _ _) | .act _ (.createEvent _) | .deliver _ _ | .fail _ =>
      inferInstanceAs (Decidable True)

/-- The events that are spoken of are stored. -/
structure Mentions (w : World) : Prop where
  /-- in an invitation -/
  stored : ∀ R id m, (w.store.messages R).lookup id = some m → m.type = 1 →
    m.content ∈ w.store.events
  /-- in an invitation on its way -/
  queued : ∀ d R m, .write (.addMessage R m) ∈ w.queue d → m.type = 1 →
    m.content ∈ w.store.events
  /-- by one who leaves it -/
  left : ∀ d E u, .leaveEvent E u ∈ w.queue d → E ∈ w.store.events

variable {hashCode : String → Int} {user : Nat → Uid} {w w' : World} {a : Action} {d : Nat}
  {r : Request} {tr : List (Action × World)}

/-! ## What a request changes is there -/

theorem Mentions.start (now : Int) : (World.start now).Mentions where
  stored _ _ _ hm := nomatch hm
  queued _ _ _ hr := nomatch hr
  left _ _ _ hr := nomatch hr

theorem Mentions.delivered {newId : String} {q : List Request} {store : Store}
    (hM : w.Mentions) (hq : w.queue d = r :: q) (h : w.store.Applied newId r store) :
    (w.delivered d r store).Mentions where
  stored R id m' hm' htype := by
    rcases Store.message_new h hm' with rfl | ⟨m, hm, hmark, -⟩
    · exact Store.event_kept h (hM.queued d R m' (hq ▸ List.mem_cons_self) htype)
    · have hE := hM.stored R id m hm (hmark.type.symm.trans htype)
      rw [← hmark.content] at hE
      exact Store.event_kept h hE
  queued e R m hr htype := Store.event_kept h (hM.queued e R m (mem_of_mem_pop hr) htype)
  left e E u hr := Store.event_kept h (hM.left e E u (mem_of_mem_pop hr))

theorem Mentions.step (hM : w.Mentions) (h : w.step hashCode user a = some w')
    (hopen : w.OpensStored a) : w'.Mentions := by
  cases stepped_of_step h with
  | act d c rs hrs =>
      refine ⟨hM.stored, fun e R m hr htype => ?_, fun e E u hr => ?_⟩
      · rcases mem_send.mp hr with hold | ⟨-, hnew⟩
        · exact hM.queued e R m hold htype
        · cases origin_of_requests hrs hnew with
          | submit _ _ _ _ _ htext _ =>
              rw [htext] at htype
              cases htype
          | invite peer E now _ _ _ _ hE _ _ =>
              rw [hE]
              exact hopen
          | other _ _ hsilent => cases hsilent
      · rcases mem_send.mp hr with hold | ⟨-, hnew⟩
        · exact hM.left e E u hold
        · cases sent_of_requests hrs hnew with
          | leaveEvent E hc =>
              subst hc
              exact hopen
  | deliver d newId r q store hq happ => exact hM.delivered hq happ
  | fail d r q hq =>
      exact ⟨hM.stored, fun e R m hr => hM.queued e R m (mem_of_mem_pop hr),
        fun e E u hr => hM.left e E u (mem_of_mem_pop hr)⟩

/-- Every request that waits is ready. -/
theorem ready_of_queued (hI : w.Honest hashCode user) (hA : Answered hashCode user tr w)
    (hM : w.Mentions) (hr : r ∈ w.queue d) : w.store.Ready r := by
  have hbelongs := hI.queued d r hr
  have hfounded := hA.queued d r hr
  cases r with
  | write x =>
      cases x with
      | addMessage _ _ => trivial
      | setRoom _ _ _ => trivial
      | setRead R id =>
          obtain ⟨-, m, hm, -, -⟩ := hbelongs
          exact AList.lookup_isSome.mp (Option.isSome_of_eq_some hm)
      | setReacted R id =>
          obtain ⟨m, -, hm, -, -, -⟩ := hfounded
          exact AList.lookup_isSome.mp (Option.isSome_of_eq_some hm)
      | joinEvent E u =>
          obtain ⟨R, id, m, hm, htype, rfl, -⟩ := hfounded
          exact hM.stored R id m hm htype
  | leaveEvent E u => exact hM.left d E u hr
  | addEvent _ => trivial
  | setUser _ => trivial

/-! ## Every order of deliveries -/

/-- What the next delivery relies on. -/
def Prompt (hashCode : String → Int) (user : Nat → Uid) (w : World) : Prop :=
  w.Honest hashCode user ∧ (∃ tr, Answered hashCode user tr w) ∧ w.Mentions

theorem prompt_run {now : Int} (hrun : Run (StepOf (step hashCode user)) (World.start now) tr)
    (hopen : Guarded OpensStored (World.start now) tr) :
    (final (World.start now) tr).Prompt hashCode user := by
  have hall : Always Mentions (World.start now) tr :=
    Always.of_guarded (fun _ _ _ hM h => hM.step h) (Mentions.start now) hrun hopen
  exact ⟨(grows_run (Sincere.start now) hrun).2.honest, ⟨tr, answered_run hrun⟩, hall.final⟩

theorem Prompt.deliver {newId : String} (h : w.Prompt hashCode user)
    (hstep : w.step hashCode user (.deliver d newId) = some w') : w'.Prompt hashCode user := by
  obtain ⟨hI, ⟨tr, hA⟩, hM⟩ := h
  exact ⟨hI.step hstep, ⟨_, hA.step hI hstep⟩, hM.step hstep trivial⟩

theorem Prompt.exists_deliver (h : w.Prompt hashCode user) (hd : w.queue d ≠ []) :
    ∃ newId w', w.step hashCode user (.deliver d newId) = some w' ∧
      w'.queue = pop w.queue d := by
  obtain ⟨hI, ⟨tr, hA⟩, hM⟩ := h
  obtain ⟨r, q, hq⟩ := List.exists_cons_of_ne_nil hd
  have hready : w.store.Ready r := ready_of_queued hI hA hM (hq ▸ List.mem_cons_self)
  obtain ⟨newId, store, happ⟩ := Store.exists_apply hready
  refine ⟨newId, w.delivered d r store, ?_, rfl⟩
  simp only [step, hq, happ, Option.map_some]

/-- The queues can be served in every order. -/
theorem Prompt.exists_run : ∀ {schedule : List Nat} {w : World}, w.Prompt hashCode user →
    (∀ d, schedule.count d ≤ (w.queue d).length) →
      ∃ tr, Run (StepOf (step hashCode user)) w tr ∧
        (tr.map fun e => e.1.delivers) = schedule.map some ∧
        ∀ d, (final w tr).queue d = (w.queue d).drop (schedule.count d)
  | [], w, _, _ => ⟨[], trivial, rfl, fun _ => rfl⟩
  | d :: schedule, w, h, hcount => by
      have hd : w.queue d ≠ [] := by
        intro hempty
        have hlen := hcount d
        rw [hempty, List.count_cons_self] at hlen
        cases hlen
      obtain ⟨newId, w', hstep, hqueue⟩ := h.exists_deliver hd
      have hleft : ∀ e, (w.queue e).drop ((d :: schedule).count e) =
          (w'.queue e).drop (schedule.count e) ∧ schedule.count e ≤ (w'.queue e).length := by
        intro e
        have hlen := hcount e
        rw [hqueue, pop]
        by_cases hed : e = d
        · subst hed
          rw [List.count_cons_self] at hlen ⊢
          rw [Function.update_self, List.drop_tail, List.length_tail]
          exact ⟨rfl, Nat.le_sub_one_of_lt hlen⟩
        · rw [List.count_cons_of_ne (Ne.symm hed)] at hlen ⊢
          rw [Function.update_of_ne hed]
          exact ⟨rfl, hlen⟩
      obtain ⟨tr, hrun, hdelivers, hrest⟩ := (h.deliver hstep).exists_run fun e => (hleft e).2
      refine ⟨(.deliver d newId, w') :: tr, ⟨hstep, hrun⟩, ?_, fun e => ?_⟩
      · rw [List.map_cons, List.map_cons, hdelivers]
        rfl
      · exact (hrest e).trans (hleft e).1.symm

/-- From every reachable world whose users opened stored events, the network can
deliver what waits in every order of the devices; some order delivers all of it,
and every such order leads to rest. -/
theorem comes_to_rest (hashCode : String → Int) (user : Nat → Uid) (now : Int)
    {tr : List (Action × World)} (hrun : Run (StepOf (step hashCode user)) (start now) tr)
    (hopen : Guarded OpensStored (start now) tr) :
    (∃ schedule : List Nat, ∀ d, schedule.count d = ((final (start now) tr).queue d).length) ∧
      ∀ schedule : List Nat, (∀ d, schedule.count d ≤ ((final (start now) tr).queue d).length) →
        ∃ tr', Run (StepOf (step hashCode user)) (final (start now) tr) tr' ∧
          (tr'.map fun e => e.1.delivers) = schedule.map some ∧
          ∀ d, (final (final (start now) tr) tr').queue d =
            ((final (start now) tr).queue d).drop (schedule.count d) := by
  refine ⟨?_, fun schedule hcount => (prompt_run hrun hopen).exists_run hcount⟩
  -- only the devices that did something have a queue
  refine exists_schedule (S := ((tr.map Prod.fst).map Action.device).toFinset) fun d hd => ?_
  rw [run_queue hrun fun a ha hda => ?_]
  · rfl
  · refine hd (List.mem_toFinset.mpr ?_)
    rw [hda]
    exact List.mem_map_of_mem ha

/-- The first user has invited the second one, who has accepted; everything
waits, and the second device is served first. -/
theorem comes_to_rest_accept : ∃ tr tr' : List (Action × World),
    ((final (start 0) tr).queue 0).length = 2 ∧ ((final (start 0) tr).queue 1).length = 3 ∧
      (tr'.map fun e => e.1.delivers) = [some 1, some 1, some 0, some 1, some 0] ∧
      ∀ d, (final (final (start 0) tr) tr').queue d = [] := by
  obtain ⟨tr, hacts, hrun, hopen, h₀, h₁⟩ := exists_run
    (f := step oneAtATime twoUsers) (s := start 0)
    (P := fun tr => Guarded OpensStored (start 0) tr ∧
      ((final (start 0) tr).queue 0).length = 2 ∧ ((final (start 0) tr).queue 1).length = 3)
    [.act 0 (.signUp ""), .act 1 (.signUp ""), .deliver 0 "", .deliver 1 "",
      .act 0 (.createEvent (EventModal.ofDay (Zone.fixed 0) 1556668800000 1556713800000)),
      .deliver 0 "e", .act 0 (.invite thirdUid "e" 1), .deliver 0 "m", .deliver 0 "",
      .act 1 (.receive firstUid ["m"]), .act 1 (.react firstUid "m" true),
      .act 0 (.submit thirdUid "hi" 2)]
    (by decide +kernel)
  -- no other device has anything to send
  have hquiet : ∀ d, (final (start 0) tr).queue (d + 2) = [] := by
    intro d
    refine run_queue hrun ?_
    rw [hacts]
    simp [Action.device]
  have hlength : ∀ d, ((final (start 0) tr).queue d).length = [1, 1, 0, 1, 0].count d := by
    intro d
    rcases d with _ | _ | d
    · exact h₀
    · exact h₁
    · rw [hquiet d]
      rfl
  obtain ⟨tr', -, hdelivers, hrest⟩ :=
    (comes_to_rest oneAtATime twoUsers 0 hrun hopen).2 [1, 1, 0, 1, 0] fun d => (hlength d).ge
  refine ⟨tr, tr', h₀, h₁, hdelivers, fun d => ?_⟩
  rw [hrest d, ← hlength d, List.drop_length]

end World

end CalendarApp
