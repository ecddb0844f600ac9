/-
# `Chat.Marking` — marking as read comes to rest

The clients that have a room open wake each other: building a list writes
marks, a mark makes snapshots, and a snapshot rebuilds the lists.  Nothing in
the code stops this.  It stops because a mark on a read message changes no
data.

    potential     the messages not yet read, and what the writes on their way
                  are paid for (`potential_step`)
    measure       the potential, the snapshots on their way, and the writes

The potential and the snapshots made together rise by what the users send and
by nothing else, and each step of the cycle of `receive` and `apply` makes the
measure smaller (`measure_lt`).  When the cycle has ended, what was built is
read, and building it again makes no snapshot (`settles`).
-/
import CalendarApp.Chat.OpenRoom
import CalendarApp.Lib.Run
import CalendarApp.Lib.Queues
import Mathlib.Data.Prod.Lex

namespace CalendarApp

open Lib

namespace OpenRoom

variable {ι : Type} [DecidableEq ι] {hashCode : String → Int} {own peer : ι → String} {R : String}
  {s s' : OpenRoom ι} {a : Action ι} {i : ι} {w : Write} {newId : String}

/-! ## The potential -/

/-- The snapshots that are paid for and not made yet. -/
def potential [Fintype ι] (R : String) (s : OpenRoom ι) : Nat :=
  unread (s.store.messages R) + ∑ i, ((s.writes i).map weight).sum

theorem weight_markRead (room : RoomIds) (msgs : List MsgModal) :
    ((msgs.flatMap (markRead room)).map weight).sum = 0 := by
  refine List.sum_eq_zero fun n hn => ?_
  obtain ⟨w, hw, rfl⟩ := List.mem_map.mp hn
  obtain ⟨msg, -, hw⟩ := List.mem_flatMap.mp hw
  simp only [markRead] at hw
  split at hw
  · cases hw
  · obtain rfl := List.mem_singleton.mp hw
    rfl

variable [Fintype ι]

theorem potential_sent (ws : List Write) :
    (s.sent i ws).potential R = s.potential R + (ws.map weight).sum := by
  have hsum := sum_update (fun ws : List Write => (ws.map weight).sum) s.writes i
    (s.writes i ++ ws)
  rw [List.map_append, List.sum_append] at hsum
  simp only [potential, sent]
  omega

theorem potential_rebuilt (items : List Nat) :
    (s.rebuilt hashCode own peer i items).potential R = s.potential R := by
  have hsent := potential_sent (s := s) (R := R) (i := i)
    ((s.buildItems i items).flatMap (markRead (room hashCode own peer i)))
  rw [weight_markRead] at hsent
  exact hsent

theorem potential_served {q : List Write} {store : Store} (hq : s.writes i = w :: q)
    (h : Touch newId R (s.store.messages R) w (store.messages R)) :
    (s.served R i w q store).potential R + (s.served R i w q store).snapshots ≤
      s.potential R + s.snapshots := by
  have hsum := sum_update (fun ws : List Write => (ws.map weight).sum) s.writes i q
  rw [hq, List.map_cons, List.sum_cons] at hsum
  have hle := h.unread_le
  have hmade : (s.served R i w q store).snapshots =
      s.snapshots + if (s.store.messages R).changed (store.messages R) then 1 else 0 := by
    simp only [served]
    split <;> rfl
  rw [hmade]
  simp only [potential, served]
  omega

/-- The snapshots made and those paid for rise by what an action costs. -/
theorem potential_step (h : StepOf (step hashCode own peer R) s a s') :
    s'.potential R + s'.snapshots ≤ s.potential R + s.snapshots + a.cost := by
  cases stepped_of_step h with
  | send a i ws _ hcost _ =>
      rw [potential_sent]
      show _ + s.snapshots ≤ _
      omega
  | receive i items messages rest hin =>
      rw [potential_rebuilt]
      exact Nat.le_add_right _ _
  | build i items =>
      rw [potential_rebuilt]
      exact Nat.le_add_right _ _
  | apply i newId w q store hq htouch => exact potential_served hq htouch

/-! ## The cycle ends -/

/-- The measure of the cycle: the snapshots to come, those on their way, and
the writes on their way. -/
def measure (R : String) (s : OpenRoom ι) : ℕ ×ₗ ℕ ×ₗ ℕ :=
  toLex (s.potential R, toLex (∑ i, (s.incoming i).length, ∑ i, (s.writes i).length))

/-- A step of the cycle. -/
def CycleStep (hashCode : String → Int) (own peer : ι → String) (R : String)
    (s s' : OpenRoom ι) : Prop :=
  ∃ a : Action ι, a.cycle = true ∧ step hashCode own peer R s a = some s'

omit [DecidableEq ι] [Fintype ι] in
theorem not_cycle_of_sends (h : a.sends = true) : ¬ a.cycle = true := by
  cases a with
  | receive _ _ => cases h
  | apply _ _ => cases h
  | submit _ _ _ => exact Bool.false_ne_true
  | invite _ _ _ => exact Bool.false_ne_true
  | react _ _ _ => exact Bool.false_ne_true
  | build _ _ => exact Bool.false_ne_true

theorem measure_lt (h : CycleStep hashCode own peer R s s') : s'.measure R < s.measure R := by
  obtain ⟨a, hcycle, h⟩ := h
  simp only [measure, Prod.Lex.toLex_lt_toLex]
  cases stepped_of_step h with
  | send a i ws hsends _ _ => exact absurd hcycle (not_cycle_of_sends hsends)
  | receive i items messages rest hin =>
      have hsum := sum_update List.length s.incoming i rest
      rw [hin, List.length_cons] at hsum
      refine Or.inr ⟨potential_rebuilt items, Or.inl ?_⟩
      show ∑ j, (Function.update s.incoming i rest j).length < _
      omega
  | build i items => cases hcycle
  | apply i newId w q store hq htouch =>
      have hle := potential_served hq htouch
      have hsum := sum_update List.length s.writes i q
      rw [hq, List.length_cons] at hsum
      by_cases hch : (s.store.messages R).changed (store.messages R) = true
      · -- a snapshot is made, and its price is gone
        obtain ⟨-, -, hmade⟩ := s.served_of_changed (i := i) (w := w) (q := q) hch
        exact Or.inl (by omega)
      · obtain ⟨hincoming, -, hmade⟩ :=
          s.served_of_unchanged (i := i) (w := w) (q := q) (Bool.not_eq_true _ ▸ hch)
        have hwrites : ∑ j, ((s.served R i w q store).writes j).length <
            ∑ j, (s.writes j).length := by
          show ∑ j, (Function.update s.writes i q j).length < _
          omega
        rw [hincoming]
        rcases Nat.lt_or_ge ((s.served R i w q store).potential R) (s.potential R) with hlt | hge
        · exact Or.inl hlt
        · exact Or.inr ⟨by omega, Or.inr ⟨rfl, hwrites⟩⟩

/-- No run of the cycle goes on for ever. -/
theorem wellFounded_cycle (hashCode : String → Int) (own peer : ι → String) (R : String) :
    WellFounded (flip (CycleStep hashCode own peer R)) :=
  Subrelation.wf measure_lt (InvImage.wf (measure R) wellFounded_lt)

/-! ## What every reachable state keeps -/

omit [Fintype ι]

/-- The messages a client shows when every snapshot has come. -/
def latest (s : OpenRoom ι) (i : ι) : List MsgModal := (s.incoming i).getLastD (s.shown i)

/-- What every reachable state keeps. -/
structure Sound (own : ι → String) (R : String) (s : OpenRoom ι) : Prop where
  /-- a snapshot is of stored messages -/
  shown : ∀ i, ∀ messages ∈ s.shown i :: s.incoming i, ∀ msg ∈ messages,
    Of (s.store.messages R) msg
  /-- a mark on its way is of a stored message of the room -/
  waiting : ∀ i R' id, .setRead R' id ∈ s.writes i →
    R' = R ∧ ∃ m, (s.store.messages R).lookup id = some m
  /-- what was built is stored, and read or on its way to be -/
  built : ∀ i msg, (i, msg) ∈ s.built → Of (s.store.messages R) msg ∧
    (msg.idFrom ≠ own i → IsRead (s.store.messages R) msg.id ∨ .setRead R msg.id ∈ s.writes i)
  /-- what was marked is read -/
  marked : ∀ id ∈ s.marks, IsRead (s.store.messages R) id
  once : s.marks.Nodup
  /-- the latest snapshot has the stored messages -/
  latest : ∀ i, Shows (s.latest i) (s.store.messages R)

theorem mem_sent {j : ι} {ws : List Write} :
    w ∈ (s.sent i ws).writes j ↔ w ∈ s.writes j ∨ j = i ∧ w ∈ ws :=
  mem_update_append

omit [DecidableEq ι] in
theorem mem_buildItems {items : List Nat} {msg : MsgModal} (h : msg ∈ s.buildItems i items) :
    msg ∈ s.shown i := by
  obtain ⟨k, -, hk⟩ := List.mem_filterMap.mp h
  exact List.mem_of_getElem? hk

theorem mem_flatMap_markRead {ids : RoomIds} {msgs : List MsgModal} :
    w ∈ msgs.flatMap (markRead ids) ↔
      ∃ msg ∈ msgs, msg.idFrom ≠ ids.id ∧ w = .setRead ids.chatId msg.id := by
  rw [List.mem_flatMap]
  refine exists_congr fun msg => and_congr_right fun _ => ?_
  simp only [markRead]
  split
  · next h => exact ⟨fun hw => absurd hw List.not_mem_nil, fun hw => absurd h hw.1⟩
  · next h => rw [List.mem_singleton, and_iff_right h]

namespace Sound

omit [DecidableEq ι] in
theorem start (own : ι → String) (R : String) (store : Store) :
    (start R store : OpenRoom ι).Sound own R where
  shown i messages hmessages msg hmsg := by
    rcases List.mem_pair.mp hmessages with rfl | rfl
    · cases hmsg
    · obtain ⟨m, hm, hdoc⟩ := (mem_roomSnapshot store msg).mp hmsg
      exact ⟨m, hm, congrArg MsgModal.idFrom hdoc⟩
  waiting i R' id h := nomatch h
  built i msg h := nomatch h
  marked id h := nomatch h
  once := List.nodup_nil
  latest i := mem_roomSnapshot store

theorem sent (hI : s.Sound own R) (i : ι) (ws : List Write)
    (hws : ∀ R' id, .setRead R' id ∈ ws → R' = R ∧ ∃ m, (s.store.messages R).lookup id = some m) :
    (s.sent i ws).Sound own R where
  shown := hI.shown
  waiting j R' id hmem := by
    rcases mem_sent.mp hmem with hold | ⟨-, hnew⟩
    · exact hI.waiting j R' id hold
    · exact hws R' id hnew
  built j msg hmsg := by
    obtain ⟨hof, hread⟩ := hI.built j msg hmsg
    exact ⟨hof, fun hpeer => (hread hpeer).imp_right fun hmem => mem_sent.mpr (Or.inl hmem)⟩
  marked := hI.marked
  once := hI.once
  latest := hI.latest

theorem took (hI : s.Sound own R) {messages : List MsgModal} {rest : List (List MsgModal)}
    (hin : s.incoming i = messages :: rest) : (s.took i messages rest).Sound own R where
  shown j := by
    simp only [OpenRoom.took]
    by_cases hj : j = i
    · subst hj
      rw [Function.update_self, Function.update_self]
      exact fun ms hms => hI.shown j ms (List.mem_cons_of_mem _ (hin ▸ hms))
    · rw [Function.update_of_ne hj, Function.update_of_ne hj]
      exact hI.shown j
  waiting := hI.waiting
  built := hI.built
  marked := hI.marked
  once := hI.once
  latest j := by
    have hsame : (s.took i messages rest).latest j = s.latest j := by
      simp only [OpenRoom.latest, OpenRoom.took]
      by_cases hj : j = i
      · subst hj
        rw [Function.update_self, Function.update_self, hin, List.getLastD_cons]
      · rw [Function.update_of_ne hj, Function.update_of_ne hj]
    rw [hsame]
    exact hI.latest j

theorem rebuilt (hI : s.Sound own R) (hroom : (room hashCode own peer i).chatId = R)
    (items : List Nat) : (s.rebuilt hashCode own peer i items).Sound own R := by
  have hof : ∀ msg ∈ s.buildItems i items, Of (s.store.messages R) msg := fun msg hmsg =>
    hI.shown i _ List.mem_cons_self msg (mem_buildItems hmsg)
  have hmarks : ∀ R' id,
      .setRead R' id ∈ (s.buildItems i items).flatMap (markRead (room hashCode own peer i)) →
      R' = R ∧ ∃ m, (s.store.messages R).lookup id = some m := by
    intro R' id hmem
    obtain ⟨msg, hmsg, -, heq⟩ := mem_flatMap_markRead.mp hmem
    cases heq
    obtain ⟨m, hm, -⟩ := hof msg hmsg
    exact ⟨hroom, m, hm⟩
  have hsent := hI.sent i _ hmarks
  refine ⟨hsent.shown, hsent.waiting, ?_, hsent.marked, hsent.once, hsent.latest⟩
  intro j msg hmsg
  rcases List.mem_append.mp hmsg with hnew | hold
  · obtain ⟨msg', hmsg', heq⟩ := List.mem_map.mp hnew
    cases heq
    refine ⟨hof msg hmsg', fun hpeer => Or.inr (mem_sent.mpr (Or.inr ⟨rfl, ?_⟩))⟩
    exact mem_flatMap_markRead.mpr ⟨msg, hmsg', hpeer, by rw [hroom]⟩
  · exact hsent.built j msg hold

theorem mem_writes_served {j : ι} {v : Write} {q : List Write} {store : Store}
    (h : v ∈ (s.served R i w q store).writes j) (hq : s.writes i = w :: q) : v ∈ s.writes j :=
  mem_of_mem_update (hq ▸ List.subset_cons_self w q) h

theorem writes_served {j : ι} {v : Write} {q : List Write} {store : Store}
    (h : v ∈ s.writes j) (hq : s.writes i = w :: q) :
    v ∈ (s.served R i w q store).writes j ∨ v = w := by
  rcases mem_update_of_mem hq h with ⟨-, rfl⟩ | hwaits
  · exact Or.inr rfl
  · exact Or.inl hwaits

theorem waiting_served (hI : s.Sound own R) {q : List Write} {store : Store}
    (hq : s.writes i = w :: q) (h : Touch newId R (s.store.messages R) w (store.messages R))
    {j : ι} {R' id : String} (hmem : .setRead R' id ∈ (s.served R i w q store).writes j) :
    R' = R ∧ ∃ m, (store.messages R).lookup id = some m := by
  obtain ⟨hR, m, hm⟩ := hI.waiting j R' id (mem_writes_served hmem hq)
  obtain ⟨m', hm', -⟩ := h.kept hm
  exact ⟨hR, m', hm'⟩

theorem built_served (hI : s.Sound own R) {q : List Write} {store : Store}
    (hq : s.writes i = w :: q) (h : Touch newId R (s.store.messages R) w (store.messages R))
    {j : ι} {msg : MsgModal} (hmsg : (j, msg) ∈ s.built) : Of (store.messages R) msg ∧
      (msg.idFrom ≠ own j → IsRead (store.messages R) msg.id ∨
        .setRead R msg.id ∈ (s.served R i w q store).writes j) := by
  obtain ⟨hof, hread⟩ := hI.built j msg hmsg
  refine ⟨h.of hof, fun hpeer => ?_⟩
  rcases hread hpeer with hread | hmem
  · exact Or.inl (h.isRead hread)
  · rcases writes_served hmem hq with hmem | rfl
    · exact Or.inr hmem
    · -- its own mark has been served
      obtain ⟨m, hm, -⟩ := hof
      exact Or.inl (h.reads hm)

omit [DecidableEq ι] in
theorem marks_served (hI : s.Sound own R) {store : Store}
    (h : Touch newId R (s.store.messages R) w (store.messages R))
    (hch : (s.store.messages R).changed (store.messages R) = true) :
    (∀ id ∈ marksOf w ++ s.marks, IsRead (store.messages R) id) ∧
      (marksOf w ++ s.marks).Nodup := by
  constructor
  · intro id hid
    rcases List.mem_append.mp hid with hnew | hold
    · exact (h.marks hch hnew).2
    · exact h.isRead (hI.marked id hold)
  · rw [List.nodup_append]
    refine ⟨?_, hI.once, fun id hid id' hid' => ?_⟩
    · cases w <;> simp [marksOf]
    · rintro rfl
      exact (h.marks hch hid).1 (hI.marked id hid')

theorem served (hI : s.Sound own R) {q : List Write} {store : Store} (hq : s.writes i = w :: q)
    (h : Touch newId R (s.store.messages R) w (store.messages R)) :
    (s.served R i w q store).Sound own R := by
  have hwaiting : ∀ j R' id, .setRead R' id ∈ (s.served R i w q store).writes j →
      R' = R ∧ ∃ m, (store.messages R).lookup id = some m :=
    fun j R' id hmem => hI.waiting_served hq h hmem
  have hbuilt : ∀ j msg, (j, msg) ∈ s.built → Of (store.messages R) msg ∧
      (msg.idFrom ≠ own j → IsRead (store.messages R) msg.id ∨
        .setRead R msg.id ∈ (s.served R i w q store).writes j) :=
    fun j msg hmsg => hI.built_served hq h hmsg
  cases hch : (s.store.messages R).changed (store.messages R) with
  | false =>
      obtain ⟨hincoming, hmarks, -⟩ := s.served_of_unchanged (i := i) (w := w) (q := q) hch
      have hsame := Collection.changed_eq_false.mp hch
      refine ⟨?_, hwaiting, hbuilt, ?_, hmarks ▸ hI.once, fun j msg => ?_⟩
      · rw [hincoming]
        exact fun j ms hms msg hmsg => h.of (hI.shown j ms hms msg hmsg)
      · rw [hmarks]
        exact fun id hid => h.isRead (hI.marked id hid)
      · rw [OpenRoom.latest, hincoming]
        show _ ↔ ∃ m, (store.messages R).lookup msg.id = some m ∧ _
        rw [hsame]
        exact hI.latest j msg
  | true =>
      obtain ⟨hincoming, hmarks, -⟩ := s.served_of_changed (i := i) (w := w) (q := q) hch
      obtain ⟨hmarked, honce⟩ := hI.marks_served h hch
      refine ⟨?_, hwaiting, hbuilt, hmarks ▸ hmarked, hmarks ▸ honce, fun j => ?_⟩
      · rw [hincoming]
        intro j ms hms msg hmsg
        rw [← List.cons_append, List.mem_append, List.mem_singleton] at hms
        rcases hms with hold | rfl
        · exact h.of (hI.shown j ms hold msg hmsg)
        · obtain ⟨m, hm, hdoc⟩ := (mem_roomSnapshot store msg).mp hmsg
          exact ⟨m, hm, congrArg MsgModal.idFrom hdoc⟩
      · rw [OpenRoom.latest, hincoming, List.getLastD_concat]
        exact mem_roomSnapshot store

theorem step (hroom : ∀ i, (room hashCode own peer i).chatId = R) (hI : s.Sound own R)
    (h : StepOf (step hashCode own peer R) s a s') : s'.Sound own R := by
  cases stepped_of_step h with
  | send a i ws _ _ hws => exact hI.sent i ws fun R' id hmem => absurd hmem (hws R' id)
  | receive i items messages rest hin => exact (hI.took hin).rebuilt (hroom i) items
  | build i items => exact hI.rebuilt (hroom i) items
  | apply i newId w q store hq htouch => exact hI.served hq htouch

end Sound

/-! ## Progress, and rest -/

/-- A room that is not at rest has a step of the cycle. -/
theorem exists_cycleStep (h : ¬ s.AtRest) : ∃ s', CycleStep hashCode own peer R s s' := by
  simp only [AtRest, not_forall] at h
  obtain ⟨i, hi⟩ := h
  cases hin : s.incoming i with
  | cons messages rest =>
      exact ⟨_, .receive i [], rfl, by rw [step, hin]⟩
  | nil =>
      cases hq : s.writes i with
      | nil => exact absurd ⟨hin, hq⟩ hi
      | cons w q =>
          have hserved : ∃ newId store, serve newId s.store w = some store := by
            cases w with
            | addMessage R' m =>
                obtain ⟨newId, hnew⟩ := (s.store.messages R').exists_unused
                have hcreate := Collection.create_eq_some (x := m).mpr ⟨hnew, rfl⟩
                exact ⟨newId, _, congrArg (Option.map _) hcreate⟩
            | setRoom _ _ _ => exact ⟨"", _, rfl⟩
            | setRead _ _ => exact ⟨"", _, rfl⟩
            | setReacted _ _ => exact ⟨"", _, rfl⟩
            | joinEvent _ _ => exact ⟨"", _, rfl⟩
          obtain ⟨newId, store, hstore⟩ := hserved
          refine ⟨s.served R i w q store, .apply i newId, rfl, ?_⟩
          simp only [step, hq, hstore, Option.map_some]

/-- What holds at rest. -/
structure Settled (hashCode : String → Int) (own peer : ι → String) (R : String)
    (s : OpenRoom ι) : Prop where
  /-- every message of a peer that was built is read -/
  read : ∀ i msg, (i, msg) ∈ s.built → msg.idFrom ≠ own i →
    ∃ m, (s.store.messages R).lookup msg.id = some m ∧ m.isRead = true
  /-- every client shows the stored messages -/
  shown : ∀ i msg, msg ∈ s.shown i ↔
    ∃ m, (s.store.messages R).lookup msg.id = some m ∧ MsgModal.fromFirestore msg.id m = msg
  /-- and no snapshot is made until somebody sends or builds something new -/
  still : ∀ tr, Run (StepOf (step hashCode own peer R)) s tr → Guarded Revisits s tr →
    Always (fun s' => s'.snapshots = s.snapshots) s tr

/-- Only marks of read messages are on their way, and what was built is read. -/
structure Quiet (own : ι → String) (R : String) (s : OpenRoom ι) : Prop where
  sound : s.Sound own R
  incoming : ∀ i, s.incoming i = []
  writes : ∀ i, ∀ w ∈ s.writes i, ∃ id, w = .setRead R id ∧ IsRead (s.store.messages R) id
  built : ∀ i msg, (i, msg) ∈ s.built → msg.idFrom ≠ own i → IsRead (s.store.messages R) msg.id

omit [DecidableEq ι] in
theorem Sound.quiet (hI : s.Sound own R) (h : s.AtRest) : s.Quiet own R where
  sound := hI
  incoming i := (h i).1
  writes i w hw := by
    rw [(h i).2] at hw
    cases hw
  built i msg hmsg hpeer := by
    rcases (hI.built i msg hmsg).2 hpeer with hread | hmem
    · exact hread
    · rw [(h i).2] at hmem
      cases hmem

namespace Quiet

theorem rebuilt (hQ : s.Quiet own R) (hroom : (room hashCode own peer i).chatId = R)
    {items : List Nat} (hgd : s.Revisits (.build i items)) :
    (s.rebuilt hashCode own peer i items).Quiet own R := by
  have hread : ∀ msg ∈ s.buildItems i items, msg.idFrom ≠ own i →
      IsRead (s.store.messages R) msg.id := by
    intro msg hmsg hpeer
    obtain ⟨msg', hbuilt, hid⟩ := hgd msg hmsg
    -- the two are of one document, so of one sender
    obtain ⟨m, hm, hfrom⟩ := hQ.sound.shown i _ List.mem_cons_self msg (mem_buildItems hmsg)
    obtain ⟨m', hm', hfrom'⟩ := (hQ.sound.built i msg' hbuilt).1
    rw [hid, hm] at hm'
    cases hm'
    rw [← hid]
    exact hQ.built i msg' hbuilt (hfrom'.symm.trans hfrom ▸ hpeer)
  refine ⟨hQ.sound.rebuilt hroom items, hQ.incoming, fun j w hw => ?_, fun j msg hmsg hpeer => ?_⟩
  · rcases mem_sent.mp hw with hold | ⟨-, hnew⟩
    · exact hQ.writes j w hold
    · obtain ⟨msg, hmsg, hpeer, rfl⟩ := mem_flatMap_markRead.mp hnew
      exact ⟨msg.id, by rw [hroom], hread msg hmsg hpeer⟩
  · rcases List.mem_append.mp hmsg with hnew | hold
    · obtain ⟨msg', hmsg', heq⟩ := List.mem_map.mp hnew
      cases heq
      exact hread msg hmsg' hpeer
    · exact hQ.built j msg hold hpeer

theorem served (hQ : s.Quiet own R) {q : List Write} {store : Store} (hq : s.writes i = w :: q)
    (h : Touch newId R (s.store.messages R) w (store.messages R)) :
    (s.served R i w q store).Quiet own R ∧ (s.served R i w q store).snapshots = s.snapshots := by
  obtain ⟨id, rfl, hid⟩ := hQ.writes i w (hq ▸ List.mem_cons_self)
  obtain ⟨hincoming, -, hmade⟩ :=
    s.served_of_unchanged (i := i) (w := .setRead R id) (q := q) (h.unchanged hid)
  constructor
  · refine ⟨hQ.sound.served hq h, hincoming ▸ hQ.incoming, fun j v hv => ?_, ?_⟩
    · obtain ⟨id', rfl, hid'⟩ := hQ.writes j v (Sound.mem_writes_served hv hq)
      exact ⟨id', rfl, h.isRead hid'⟩
    · exact fun j msg hmsg hpeer => h.isRead (hQ.built j msg hmsg hpeer)
  · exact hmade

theorem step (hroom : ∀ i, (room hashCode own peer i).chatId = R) (hQ : s.Quiet own R)
    (h : StepOf (step hashCode own peer R) s a s') (hgd : s.Revisits a) :
    s'.Quiet own R ∧ s'.snapshots = s.snapshots := by
  cases stepped_of_step h with
  | send a i ws hsends _ _ =>
      cases a with
      | submit _ _ _ => cases hgd
      | invite _ _ _ => cases hgd
      | react _ _ _ => cases hgd
      | receive _ _ => cases hsends
      | build _ _ => cases hsends
      | apply _ _ => cases hsends
  | receive i items messages rest hin => exact absurd (hin.symm.trans (hQ.incoming i)) (by simp)
  | build i items => exact ⟨hQ.rebuilt (hroom i) hgd, rfl⟩
  | apply i newId w q store hq htouch => exact hQ.served hq htouch

end Quiet

theorem Sound.settled (hroom : ∀ i, (room hashCode own peer i).chatId = R) (hI : s.Sound own R)
    (h : s.AtRest) : s.Settled hashCode own peer R := by
  have hQ := hI.quiet h
  refine ⟨hQ.built, fun i => ?_, fun tr hrun hgd => ?_⟩
  · have hlatest : s.latest i = s.shown i := by
      rw [OpenRoom.latest, (h i).1, List.getLastD_nil]
    exact hlatest ▸ hI.latest i
  · have hkept : ∀ t a t', (t.Quiet own R ∧ t.snapshots = s.snapshots) →
        StepOf (OpenRoom.step hashCode own peer R) t a t' → t.Revisits a →
        t'.snapshots = s.snapshots ∧ t'.Quiet own R ∧ t'.snapshots = s.snapshots := by
      intro t a t' ⟨hQt, heq⟩ hstep hrevisit
      obtain ⟨hQ', heq'⟩ := hQt.step hroom hstep hrevisit
      exact ⟨heq'.trans heq, hQ', heq'.trans heq⟩
    exact ⟨rfl, Along.of_guarded hkept ⟨hQ, rfl⟩ hrun hgd⟩

/-! ## Marking comes to rest -/

/-- What holds after a run that opened the room on `store`. -/
structure Settles [Fintype ι] (hashCode : String → Int) (own peer : ι → String) (R : String)
    (store : Store) (tr : List (Action ι × OpenRoom ι)) (s : OpenRoom ι) : Prop where
  /-- no message had its data changed by two marks -/
  once : s.marks.Nodup
  /-- the snapshots are paid for by the messages that were unread and by what was sent -/
  bounded : s.snapshots ≤ unread (store.messages R) + (tr.map fun e => e.1.cost).sum
  /-- the cycle ends -/
  ends : Acc (flip (CycleStep hashCode own peer R)) s
  /-- and goes on until the room is at rest -/
  goesOn : ¬ s.AtRest → ∃ s', CycleStep hashCode own peer R s s'
  settled : s.AtRest → s.Settled hashCode own peer R

/-- Whatever the users of a room send and their clients build, in any order:
each message is marked at most once, the snapshots are finite in number, and
the cycle of snapshots and marks ends, with every message of a peer that was
built read. -/
theorem settles [Fintype ι] (hashCode : String → Int) (own peer : ι → String) (R : String)
    (hroom : ∀ i, (room hashCode own peer i).chatId = R) (store : Store)
    {tr : List (Action ι × OpenRoom ι)}
    (hrun : Run (StepOf (step hashCode own peer R)) (start R store) tr) :
    Settles hashCode own peer R store tr (final (start R store) tr) := by
  have hI : (final (start R store) tr).Sound own R :=
    Reachable.invariant (Sound.start own R store) (fun _ _ _ hI h => hI.step hroom h)
      ⟨tr, hrun, rfl⟩
  have hbudget := le_of_run (f := fun s : OpenRoom ι => s.potential R + s.snapshots)
    (fun _ _ _ h => potential_step h) hrun
  have hstart : (start R store : OpenRoom ι).potential R = unread (store.messages R) := by
    simp [potential, start]
  refine ⟨hI.once, ?_, (wellFounded_cycle hashCode own peer R).apply _, exists_cycleStep,
    hI.settled hroom⟩
  calc (final (start R store) tr).snapshots
      ≤ (final (start R store) tr).potential R + (final (start R store) tr).snapshots :=
        Nat.le_add_left _ _
    _ ≤ _ := hbudget
    _ = _ := by rw [hstart]; rfl

/-- A client of each of two users. -/
def twoClients (b : Bool) : String := (if b then firstUid else thirdUid : Uid)

/-- One greets the other, who reads it. -/
theorem settles_greeting : ∃ tr : List (Action Bool × OpenRoom Bool),
    (final (start (chatId oneAtATime firstUid thirdUid) .empty) tr).snapshots = 2 ∧
      (final (start (chatId oneAtATime firstUid thirdUid) .empty) tr).AtRest ∧
      Settles oneAtATime twoClients (fun b => twoClients !b) (chatId oneAtATime firstUid thirdUid)
        .empty tr (final (start (chatId oneAtATime firstUid thirdUid) .empty) tr) := by
  have hroom : ∀ b, (room oneAtATime twoClients (fun b => twoClients !b) b).chatId =
      chatId oneAtATime firstUid thirdUid := by decide +kernel
  obtain ⟨tr, -, hrun, hsnapshots, hrest⟩ := exists_run
    (f := step oneAtATime twoClients (fun b => twoClients !b)
      (chatId oneAtATime firstUid thirdUid))
    (s := start (chatId oneAtATime firstUid thirdUid) .empty)
    (P := fun tr =>
      (final (start (chatId oneAtATime firstUid thirdUid) .empty) tr).snapshots = 2 ∧
        (final (start (chatId oneAtATime firstUid thirdUid) .empty) tr).AtRest)
    [.submit false "hi" 1, .receive false [], .receive true [], .apply false "m",
      .apply false "", .receive true [0], .apply true "", .receive true [0], .apply true "",
      .receive false [0], .receive false [0]]
    (by decide +kernel)
  exact ⟨tr, hsnapshots, hrest, settles oneAtATime twoClients (fun b => twoClients !b) _ hroom
    .empty hrun⟩

end OpenRoom

end CalendarApp
