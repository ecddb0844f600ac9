/-
# `Chat.Order` — the order of the conversations

A message is sent in two writes: `add` of the message, and `setData` of the
room with the same time as `last_updated`.  The screen lists the rooms by
`last_updated`, the latest first.  That is the order of the newest messages
as long as every room document tells the time of the newest message of its
room (`listed_of_upToDate`).

    add                 leaves its setData behind it in the same queue
    setData             comes when its own message is stored
    setData, the last   leaves the room up to date exactly when no stored
    one in flight       message is newer than it

The server does not compare the times, so a device that was offline
overwrites the room with its old time.  A run keeps all rooms up to date
exactly when the last document in flight to a room is never older than a
message stored there (`inOrder_iff`).
-/
import CalendarApp.Server.World

namespace CalendarApp

open Lib

/-- The request is one of the two writes of a message sent into `R`. -/
def Request.sendsTo (R : String) : Request → Bool
  | .write (.addMessage chatId _) => chatId = R
  | .write (.setRoom chatId _ _) => chatId = R
  | _ => false

namespace Store

/-- The timestamps of the messages in the room. -/
def timestamps (s : Store) (R : String) : List Int := (s.messages R).docs.map MsgDoc.timestamp

/-- The timestamp of the newest message in the room. -/
def newest (s : Store) (R : String) : Option Int := (s.timestamps R).max?

/-- The query of `ChatScreen`: the rooms of the user, ordered by
`last_updated` descending. -/
def chatList (s : Store) (userId : String) : List (String × RoomDoc) :=
  ((s.rooms.entries.map fun e => (e.1, e.2)).filter fun p => userId ∈ p.2.users).mergeSort
    fun p p' => p'.2.lastUpdated ≤ p.2.lastUpdated

variable {s s' : Store} {R : String} {t : Int}

theorem mem_timestamps :
    t ∈ s.timestamps R ↔ ∃ id m, (s.messages R).lookup id = some m ∧ m.timestamp = t := by
  simp only [timestamps, List.mem_map, Collection.mem_docs]
  constructor
  · rintro ⟨m, ⟨id, hid⟩, ht⟩
    exact ⟨id, m, hid, ht⟩
  · rintro ⟨id, m, hid, ht⟩
    exact ⟨m, ⟨id, hid⟩, ht⟩

theorem newest_eq_some : s.newest R = some t ↔
    t ∈ s.timestamps R ∧ ∀ t' ∈ s.timestamps R, t' ≤ t :=
  List.max?_eq_some_iff

theorem newest_eq_none : s.newest R = none ↔ ∀ t, t ∉ s.timestamps R :=
  List.max?_eq_none_iff.trans List.eq_nil_iff_forall_not_mem

theorem newest_congr (h : ∀ t, t ∈ s'.timestamps R ↔ t ∈ s.timestamps R) :
    s'.newest R = s.newest R := by
  cases hs : s.newest R with
  | none =>
      rw [newest_eq_none] at hs ⊢
      exact fun t ht => hs t ((h t).mp ht)
  | some t =>
      rw [newest_eq_some] at hs ⊢
      exact ⟨(h t).mpr hs.1, fun t' ht' => hs.2 t' ((h t').mp ht')⟩

theorem timestamps_apply {newId : String} {r : Request} (h : s.Applied newId r s') :
    t ∈ s'.timestamps R ↔ t ∈ s.timestamps R ∨
      ∃ m, r = .write (.addMessage R m) ∧ m.timestamp = t := by
  rw [mem_timestamps, mem_timestamps]
  constructor
  · rintro ⟨id, m', hm', ht⟩
    rcases message_new h hm' with rfl | ⟨m, hm, hmark, -⟩
    · exact Or.inr ⟨m', rfl, ht⟩
    · exact Or.inl ⟨id, m, hm, hmark.timestamp.symm.trans ht⟩
  · rintro (⟨id, m, hm, ht⟩ | ⟨m, rfl, ht⟩)
    · obtain ⟨m', hm', hmark⟩ := message_kept h hm
      exact ⟨id, m', hm', hmark.timestamp.trans ht⟩
    · cases h with
      | addMessage _ _ hnew =>
          exact ⟨newId, m, (lookup_setMessages ..).trans (if_pos ⟨rfl, rfl⟩), ht⟩

end Store

/-! ## Two writes in a row -/

/-- Every `add` in the queue has its `setData` behind it. -/
def Paired : List Request → Prop
  | [] => True
  | .write (.addMessage R _) :: q => (∃ us t, .write (.setRoom R us t) ∈ q) ∧ Paired q
  | _ :: q => Paired q

/-- A `setData` relies on a message with its time. -/
def needsMessage : Request → Set (String × Int)
  | .write (.setRoom R _ t) => {(R, t)}
  | _ => ∅

/-- An `add` provides one. -/
def givesMessage : Request → Set (String × Int)
  | .write (.addMessage R m) => {(R, m.timestamp)}
  | _ => ∅

/-- The messages a store has, by room and time. -/
def Store.sentTimes (s : Store) : Set (String × Int) := {p | p.2 ∈ s.timestamps p.1}

theorem Paired.tail {r : Request} {q : List Request} (h : Paired (r :: q)) : Paired q := by
  unfold Paired at h
  split at h
  · next heq => cases heq
  · next heq =>
      cases heq
      exact h.2
  · next heq =>
      cases heq
      exact h

theorem Paired.append : ∀ {q rs : List Request}, Paired q → Paired rs → Paired (q ++ rs)
  | [], _, _, hrs => hrs
  | r :: q, rs, hq, hrs => by
      have htail := hq.tail.append hrs
      cases r with
      | write x =>
          cases x with
          | addMessage R m =>
              obtain ⟨⟨us, t, hmem⟩, -⟩ := hq
              exact ⟨⟨us, t, List.mem_append_left _ hmem⟩, htail⟩
          | setRoom _ _ _ => exact htail
          | setRead _ _ => exact htail
          | setReacted _ _ => exact htail
          | joinEvent _ _ => exact htail
      | leaveEvent _ _ => exact htail
      | addEvent _ => exact htail
      | setUser _ => exact htail

theorem paired_of_no_sends : ∀ {rs : List Request},
    (∀ r ∈ rs, ∀ R, r.sendsTo R = false) →
      Paired rs ∧ ∀ F, Backed needsMessage givesMessage F rs
  | [], _ => ⟨trivial, fun _ => trivial⟩
  | r :: rs, h => by
      obtain ⟨hpaired, hbacked⟩ :=
        paired_of_no_sends fun r' hr' => h r' (List.mem_cons_of_mem _ hr')
      have hr := h r List.mem_cons_self
      cases r with
      | write x =>
          cases x with
          | addMessage R m => exact absurd (hr R) (by simp [Request.sendsTo])
          | setRoom R us t => exact absurd (hr R) (by simp [Request.sendsTo])
          | setRead _ _ => exact ⟨hpaired, fun F => ⟨Set.empty_subset F, hbacked _⟩⟩
          | setReacted _ _ => exact ⟨hpaired, fun F => ⟨Set.empty_subset F, hbacked _⟩⟩
          | joinEvent _ _ => exact ⟨hpaired, fun F => ⟨Set.empty_subset F, hbacked _⟩⟩
      | leaveEvent _ _ => exact ⟨hpaired, fun F => ⟨Set.empty_subset F, hbacked _⟩⟩
      | addEvent _ => exact ⟨hpaired, fun F => ⟨Set.empty_subset F, hbacked _⟩⟩
      | setUser _ => exact ⟨hpaired, fun F => ⟨Set.empty_subset F, hbacked _⟩⟩

theorem paired_send (R : String) (m : MsgDoc) (us : List String) :
    let rs := [Request.write (.addMessage R m), .write (.setRoom R us m.timestamp)]
    Paired rs ∧ ∀ F, Backed needsMessage givesMessage F rs :=
  ⟨⟨⟨us, m.timestamp, List.mem_cons_self⟩, trivial⟩,
    fun F => ⟨Set.empty_subset F, Set.subset_union_right, trivial⟩⟩

/-- No message in the room is newer than the document. -/
def Request.NewestIn (s : Store) : Request → Prop
  | .write (.setRoom R _ t) => ∀ t' ∈ s.timestamps R, t' ≤ t
  | _ => True

instance (s : Store) : ∀ r : Request, Decidable (r.NewestIn s)
  | .write (.setRoom _ _ _) => inferInstanceAs (Decidable (∀ _ ∈ _, _))
  | .write (.addMessage _ _) | .write (.setRead _ _) | .write (.setReacted _ _)
  | .write (.joinEvent _ _) | .leaveEvent _ _ | .addEvent _ | .setUser _ =>
      inferInstanceAs (Decidable True)

namespace World

variable (hashCode : String → Int) (user : Nat → Uid)

/-- The step of a world in which no write fails. -/
def work (w : World) : Action → Option World
  | .fail _ => none
  | a => w.step hashCode user a

/-- A write of a message sent into `R` waits in some queue. -/
def InFlight (w : World) (R : String) : Prop := ∃ d, ∃ r ∈ w.queue d, r.sendsTo R = true

/-- At rest, the room document has the time of the newest message. -/
def UpToDate (w : World) (R : String) : Prop :=
  ¬ w.InFlight R → (w.store.rooms.lookup R).map RoomDoc.lastUpdated = w.store.newest R

/-- Every room is up to date, and at rest every user's list of rooms is in the
order of their newest messages. -/
structure InOrder (w : World) : Prop where
  upToDate : ∀ R, w.UpToDate R
  listed : (∀ R, ¬ w.InFlight R) → ∀ userId, (w.store.chatList userId).Pairwise fun p p' =>
    ∃ t t', w.store.newest p.1 = some t ∧ w.store.newest p'.1 = some t' ∧ t' ≤ t

/-- The last room document in flight to a room is not older than a message
that is stored there. -/
def NewestLast (w : World) : Action → Prop
  | .deliver d _ => ∀ R us t q, w.queue d = .write (.setRoom R us t) :: q →
      (∀ e, ∀ r ∈ pop w.queue d e, r.sendsTo R = false) → ∀ t' ∈ w.store.timestamps R, t' ≤ t
  | _ => True

/-- The document that is delivered next is not older than a message in its
room. -/
def NewestNext (w : World) : Action → Prop
  | .deliver d _ => ∀ r ∈ (w.queue d).head?, r.NewestIn w.store
  | _ => True

instance (w : World) : ∀ a, Decidable (NewestNext w a)
  | .deliver _ _ => inferInstanceAs (Decidable (∀ _ ∈ _, _))
  | .act _ _ | .fail _ => inferInstanceAs (Decidable True)

/-- What waits in the queues comes in pairs that rely on each other. -/
structure InPairs (w : World) : Prop where
  paired : ∀ d, Paired (w.queue d)
  backed : ∀ d, Backed needsMessage givesMessage w.store.sentTimes (w.queue d)

variable {hashCode user} {w w' : World} {a : Action} {d : Nat} {c : Command}
  {rs : List Request}

theorem step_of_work (h : w.work hashCode user a = some w') :
    w.step hashCode user a = some w' ∧ ∀ d, a ≠ .fail d := by
  cases a with
  | act d c => exact ⟨h, nofun⟩
  | deliver d newId => exact ⟨h, nofun⟩
  | fail d => cases h

theorem NewestNext.newestLast (h : w.NewestNext a) : w.NewestLast a := by
  cases a with
  | deliver d newId =>
      intro R us t q hq _
      exact h _ (by rw [hq, List.head?_cons]; rfl)
  | act d c => trivial
  | fail d => trivial

/-- A list by `last_updated` is a list by newest messages. -/
theorem listed_of_upToDate (h : ∀ R, w.UpToDate R) (hrest : ∀ R, ¬ w.InFlight R)
    (userId : String) : (w.store.chatList userId).Pairwise fun p p' =>
      ∃ t t', w.store.newest p.1 = some t ∧ w.store.newest p'.1 = some t' ∧ t' ≤ t := by
  have hnewest : ∀ p ∈ w.store.chatList userId, w.store.newest p.1 = some p.2.lastUpdated := by
    intro p hp
    obtain ⟨e, he, rfl⟩ := List.mem_map.mp (List.mem_filter.mp (List.mem_mergeSort.mp hp)).1
    rw [← h e.1 (hrest e.1), AList.mem_lookup_iff.mpr he]
    rfl
  have hsorted : (w.store.chatList userId).Pairwise
      fun p p' => decide (p'.2.lastUpdated ≤ p.2.lastUpdated) = true := by
    refine List.pairwise_mergeSort ?_ ?_ _
    · intro p q r hpq hqr
      simp only [decide_eq_true_eq] at hpq hqr ⊢
      exact hqr.trans hpq
    · intro p q
      simpa using le_total q.2.lastUpdated p.2.lastUpdated
  refine (hsorted.imp_of_mem ?_)
  intro p p' hp hp' hle
  exact ⟨_, _, hnewest p hp, hnewest p' hp', of_decide_eq_true hle⟩

theorem inOrder_iff_upToDate : w.InOrder ↔ ∀ R, w.UpToDate R :=
  ⟨fun h => h.upToDate, fun h => ⟨h, listed_of_upToDate h⟩⟩

/-- A command sends its messages in pairs. -/
theorem paired_requests (h : w.requests hashCode user d c = some rs) :
    Paired rs ∧ ∀ F, Backed needsMessage givesMessage F rs := by
  by_cases hc : c.sends = true
  · cases c with
    | submit peer msg now =>
        simp only [requests] at h
        split at h
        · cases h
          simp only [handleSubmit]
          split
          · exact ⟨trivial, fun _ => trivial⟩
          · exact paired_send _ _ _
        · cases h
    | invite peer eventId now =>
        simp only [requests] at h
        split at h
        · cases h
          exact paired_send _ _ _
        · cases h
    | signUp _ => cases hc
    | signIn => cases hc
    | receive _ _ => cases hc
    | react _ _ _ => cases hc
    | createEvent _ => cases hc
    | leave _ => cases hc
  · refine paired_of_no_sends fun r hr R => ?_
    cases sent_of_requests h hr with
    | addMessage peer m hsends => exact absurd hsends hc
    | setRoom peer now hsends => exact absurd hsends hc
    | setUser _ _ => rfl
    | setRead _ _ _ _ _ _ => rfl
    | setReacted _ _ => rfl
    | joinEvent _ _ _ _ _ _ => rfl
    | leaveEvent _ _ => rfl
    | addEvent _ _ _ _ => rfl

theorem InPairs.start (now : Int) : (World.start now).InPairs where
  paired _ := trivial
  backed _ := trivial

theorem InPairs.step (hI : w.InPairs) (h : w.work hashCode user a = some w') : w'.InPairs := by
  obtain ⟨hstep, hworks⟩ := step_of_work h
  cases stepped_of_step hstep with
  | act d c rs hrs =>
      obtain ⟨hpaired, hbacked⟩ := paired_requests hrs
      exact ⟨forall_send hI.paired ((hI.paired d).append hpaired),
        forall_send (P := fun _ => Backed _ _ _) hI.backed ((hI.backed d).append (hbacked _))⟩
  | deliver d newId r q store hq happ =>
      have hmono : w.store.sentTimes ⊆ store.sentTimes := fun p hp =>
        (Store.timestamps_apply happ).mpr (Or.inl hp)
      refine ⟨forall_pop hI.paired ?_, forall_pop (P := fun _ => Backed _ _ _)
        (fun e => (hI.backed e).mono hmono) ?_⟩
      · rw [hq, List.tail_cons]
        exact (hq ▸ hI.paired d).tail
      · rw [hq, List.tail_cons]
        refine (hq ▸ hI.backed d).tail hmono ?_
        rintro ⟨R, t⟩ ht
        cases r with
        | write x =>
            cases x with
            | addMessage R' m =>
                cases ht
                exact (Store.timestamps_apply happ).mpr (Or.inr ⟨m, rfl, rfl⟩)
            | setRoom _ _ _ => cases ht
            | setRead _ _ => cases ht
            | setReacted _ _ => cases ht
            | joinEvent _ _ => cases ht
        | leaveEvent _ _ => cases ht
        | addEvent _ => cases ht
        | setUser _ => cases ht
  | fail d r q hq => exact absurd rfl (hworks d)

/-! ## When a room is up to date -/

theorem room_apply {newId : String} {r : Request} {store : Store} {R : String}
    (h : w.store.Applied newId r store) (hr : r.sendsTo R = false) :
    store.rooms.lookup R = w.store.rooms.lookup R ∧ store.newest R = w.store.newest R := by
  constructor
  · rcases Store.rooms_apply h R with hsame | ⟨us, t, rfl, -⟩
    · exact hsame
    · simp [Request.sendsTo] at hr
  · refine Store.newest_congr fun t => ?_
    rw [Store.timestamps_apply h, or_iff_left]
    rintro ⟨m, rfl, -⟩
    simp [Request.sendsTo] at hr

theorem upToDate_setRoom {newId R : String} {us : List String} {t : Int} {q : List Request}
    {store : Store} (hI : w.InPairs) (hq : w.queue d = .write (.setRoom R us t) :: q)
    (h : w.store.Applied newId (.write (.setRoom R us t)) store) :
    (store.rooms.lookup R).map RoomDoc.lastUpdated = store.newest R ↔
      ∀ t' ∈ w.store.timestamps R, t' ≤ t := by
  have hsent : t ∈ w.store.timestamps R := (hq ▸ hI.backed d).head rfl
  have hnewest : store.newest R = w.store.newest R := by
    refine Store.newest_congr fun t' => ?_
    rw [Store.timestamps_apply h, or_iff_left]
    rintro ⟨m, heq, -⟩
    cases heq
  have hroom : store.rooms.lookup R = some ⟨us, t⟩ := by
    cases h
    exact AList.lookup_insert _
  rw [hnewest, hroom, Option.map_some, eq_comm, Store.newest_eq_some]
  exact and_iff_right hsent

/-- A delivered request leaves every room up to date exactly when it is not
the last document of a room with a newer message. -/
theorem deliver_upToDate {newId : String} {r : Request} {q : List Request} {store : Store}
    (hI : w.InPairs) (hU : ∀ R, w.UpToDate R) (hq : w.queue d = r :: q)
    (h : w.store.Applied newId r store) :
    (∀ R, (w.delivered d r store).UpToDate R) ↔ NewestLast w (.deliver d newId) := by
  constructor
  · rintro hU' R us t q' hq' hlast
    obtain ⟨rfl, rfl⟩ := List.cons.inj (hq.symm.trans hq')
    refine (upToDate_setRoom hI hq h).mp (hU' R ?_)
    rintro ⟨e, r, hr, hsends⟩
    exact absurd hsends (Bool.eq_false_iff.mp (hlast e r hr))
  · intro hlast R hrest
    have hold : ∀ e, ∀ r' ∈ pop w.queue d e, r'.sendsTo R = false := fun e r' hr' =>
      Bool.eq_false_iff.mpr fun hsends => hrest ⟨e, r', hr', hsends⟩
    by_cases hr : r.sendsTo R = true
    · cases r with
      | write x =>
          cases x with
          | addMessage R' m =>
              -- its room document is still behind it
              obtain rfl : R' = R := of_decide_eq_true hr
              obtain ⟨us, t, hmem⟩ := (hq ▸ hI.paired d).1
              have hwaits : .write (.setRoom R' us t) ∈ w.queue d := by
                rw [hq]
                exact List.mem_cons_of_mem _ hmem
              rcases mem_pop_of_mem hq hwaits with ⟨-, hhead⟩ | hpop
              · cases hhead
              · exact absurd ⟨d, _, hpop, decide_eq_true rfl⟩ hrest
          | setRoom R' us t =>
              obtain rfl : R' = R := of_decide_eq_true hr
              exact (upToDate_setRoom hI hq h).mpr (hlast R' us t q hq hold)
          | setRead _ _ => cases hr
          | setReacted _ _ => cases hr
          | joinEvent _ _ => cases hr
      | leaveEvent _ _ => cases hr
      | addEvent _ => cases hr
      | setUser _ => cases hr
    · obtain ⟨hrooms, hnewest⟩ := room_apply h (Bool.eq_false_iff.mpr hr)
      show (store.rooms.lookup R).map RoomDoc.lastUpdated = store.newest R
      rw [hrooms, hnewest]
      refine hU R ?_
      rintro ⟨e, r', hr', hsends⟩
      rcases mem_pop_of_mem hq hr' with ⟨-, rfl⟩ | hpop
      · exact hr hsends
      · exact hrest ⟨e, r', hpop, hsends⟩

theorem step_inOrder (hI : w.InPairs) (hO : w.InOrder) (h : w.work hashCode user a = some w') :
    w'.InOrder ↔ NewestLast w a := by
  rw [inOrder_iff_upToDate] at hO ⊢
  obtain ⟨hstep, hworks⟩ := step_of_work h
  cases stepped_of_step hstep with
  | act d c rs hrs =>
      refine iff_of_true (fun R hrest => hO R ?_) trivial
      rintro ⟨e, r, hr, hsends⟩
      exact hrest ⟨e, r, mem_send.mpr (Or.inl hr), hsends⟩
  | deliver d newId r q store hq happ => exact deliver_upToDate hI hO hq happ
  | fail d r q hq => exact absurd rfl (hworks d)

theorem InOrder.start (now : Int) : (World.start now).InOrder :=
  inOrder_iff_upToDate.mpr fun _ _ => rfl

/-- In a run without failing writes the rooms are in the order of their newest
messages, whenever nothing is in flight, exactly when the last document in
flight to a room is never older than a message there. -/
theorem inOrder_iff (hashCode : String → Int) (user : Nat → Uid) (now : Int)
    {tr : List (Action × World)} (hrun : Run (StepOf (work hashCode user)) (start now) tr) :
    Always InOrder (start now) tr ↔ Guarded NewestLast (start now) tr :=
  always_iff_guarded (I := InPairs) (P := InOrder) (C := NewestLast)
    (fun _ _ _ hI hO h => step_inOrder hI hO h) (fun _ _ _ hI h => hI.step h)
    (InPairs.start now) (InOrder.start now) hrun

/-- A message and its answer. -/
theorem inOrder_dialogue : ∃ tr : List (Action × World),
    (final (start 0) tr).store.newest (chatId oneAtATime firstUid thirdUid) = some 2 ∧
      Always InOrder (start 0) tr := by
  obtain ⟨tr, -, hrun, hnewest, hnext⟩ := exists_run
    (f := work oneAtATime twoUsers) (s := start 0)
    (P := fun tr => (final (start 0) tr).store.newest (chatId oneAtATime firstUid thirdUid) =
      some 2 ∧ Guarded NewestNext (start 0) tr)
    [.act 0 (.signUp ""), .act 1 (.signUp ""), .deliver 0 "", .deliver 1 "",
      .act 0 (.submit thirdUid "hi" 1), .deliver 0 "m", .deliver 0 "",
      .act 1 (.submit firstUid "hello" 2), .deliver 1 "n", .deliver 1 ""]
    (by decide +kernel)
  exact ⟨tr, hnewest, (inOrder_iff oneAtATime twoUsers 0 hrun).mpr
    (Along.imp (fun _ _ _ h => h.newestLast) hnext)⟩

/-- The first of the two messages waits on its device until the answer has
arrived; its document then overwrites the newer one. -/
theorem inOrder_late_fails : ¬ ∀ (hashCode : String → Int) (user : Nat → Uid) (now : Int)
    (tr : List (Action × World)), Run (StepOf (work hashCode user)) (start now) tr →
      Always InOrder (start now) tr := by
  intro h
  obtain ⟨tr, hact, hrun, hrest, hroom, hnewest⟩ := exists_run
    (f := work oneAtATime twoUsers) (s := start 0)
    (P := fun tr => (∀ d ∈ ([0, 1] : List Nat), (final (start 0) tr).queue d = []) ∧
      ((final (start 0) tr).store.rooms.lookup (chatId oneAtATime firstUid thirdUid)).map
        RoomDoc.lastUpdated = some 1 ∧
      (final (start 0) tr).store.newest (chatId oneAtATime firstUid thirdUid) = some 2)
    [.act 0 (.signUp ""), .act 1 (.signUp ""), .deliver 0 "", .deliver 1 "",
      .act 0 (.submit thirdUid "hi" 1), .act 1 (.submit firstUid "hello" 2),
      .deliver 1 "n", .deliver 1 "", .deliver 0 "m", .deliver 0 ""]
    (by decide +kernel)
  have hempty : ∀ d, (final (start 0) tr).queue d = [] := by
    intro d
    by_cases hd : d ∈ ([0, 1] : List Nat)
    · exact hrest d hd
    · have hsteps : Run (StepOf (step oneAtATime twoUsers)) (start 0) tr :=
        Along.imp (fun _ _ _ h => (step_of_work h).1) hrun
      refine run_queue hsteps fun a ha hda => hd ?_
      rw [hact] at ha
      rw [hda]
      clear hd hda
      revert a
      decide
  have hup := (h _ _ _ tr hrun).final.upToDate (chatId oneAtATime firstUid thirdUid)
    fun ⟨d, r, hr, _⟩ => by simp [hempty d] at hr
  rw [hroom, hnewest] at hup
  cases hup

end World

end CalendarApp
