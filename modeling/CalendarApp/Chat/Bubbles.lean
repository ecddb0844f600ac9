/-
# `Chat.Bubbles` — the messages a room shows

An open room rebuilds its list on every snapshot of its collection.  A
message becomes a `Message` or an `Invitation` by its type; for another type
the item builder returns null, which ends the list.  Both bubbles copy the
message into their state when the state is created, and draw from that copy
ever after: `Message.didUpdateWidget` leaves it as it is, and `Invitation`
has none.  The list has no keys, so states are kept by position
(`Lib.Reconcile`).  The one thing that changes a copy is a button of an
invitation, which sets its `isReacted`.

Not all of a message is drawn.

    content      on every bubble
    isRead       the ticks of an own message
    isReacted    the buttons, or the answer, of an invitation of the other user

The room shows the current messages after every snapshot of a run exactly when
every snapshot

    has messages of the two types only, and
    repeats what is drawn, at each position the snapshot before it had, or
    changes the type there; an invitation answered here counts as answered
                                                        (`showsMessages_iff`)

A bubble shows the message of the snapshot that created it, answered if it was
so then or a button of the bubble has been pressed since (`createdFor`); what
later snapshots have at its position never reaches it.
-/
import CalendarApp.Chat.Modal
import CalendarApp.Lib.Reconcile
import CalendarApp.Lib.Run

namespace CalendarApp

open Lib

/-- The two widgets of the list. -/
inductive BubbleKind where
  | message
  | invitation
  deriving DecidableEq, Repr

/-- The type of the messages a bubble is for. -/
def BubbleKind.type : BubbleKind → Int
  | message => 0
  | invitation => 1

/-- The widget `Message(msg, isOwnMessage)` or `Invitation(msg, isOwnMessage)`. -/
structure BubbleWidget where
  kind : BubbleKind
  msg : MsgModal
  isOwnMessage : Bool
  deriving DecidableEq, Repr

/-- The fields of `_MessageState` and `_InvitationState` that the builds read. -/
structure BubbleState where
  msg : MsgModal
  isOwnMessage : Bool
  deriving DecidableEq, Repr

/-- `initState()`, the same in both. -/
def initBubble (w : BubbleWidget) : BubbleState := ⟨w.msg, w.isOwnMessage⟩

/-- What is to be seen of a message's type, content and flags. -/
structure Drawn where
  type : Int
  content : String
  /-- the ticks, blue once the message is read -/
  ticks : Option Bool
  /-- the answer, instead of the two buttons -/
  answered : Option Bool
  deriving DecidableEq, Repr

/-- `build` of a bubble, as far as it draws the message. -/
def BubbleKind.draw (k : BubbleKind) (s : BubbleState) : Drawn where
  type := k.type
  content := s.msg.content
  ticks := if s.isOwnMessage then some s.msg.isRead else none
  answered := match k with
    | .message => none
    | .invitation => if s.isOwnMessage then none else some s.msg.isReacted

/-- `itemBuilder`, for the signed-in user. -/
def itemBuilder (id : String) (msg : MsgModal) : Option BubbleWidget :=
  if msg.type = 0 then some ⟨.message, msg, msg.idFrom = id⟩
  else if msg.type = 1 then some ⟨.invitation, msg, msg.idFrom = id⟩
  else none

/-- The items the list builds: it ends where the builder returns null. -/
def builtItems (id : String) : List MsgModal → List BubbleWidget
  | [] => []
  | m :: ms =>
      match itemBuilder id m with
      | some w => w :: builtItems id ms
      | none => []

/-- `msg.isReacted = true` -/
def MsgModal.react (msg : MsgModal) : MsgModal := { msg with isReacted := true }

/-! ## The open room -/

/-- The room of the user `id`: the messages of the latest snapshot, with the
invitations that were answered here since then, and the bubbles. -/
structure ChatView where
  id : String
  messages : List MsgModal
  bubbles : List (Element BubbleKind BubbleState)
  deriving DecidableEq, Repr

namespace ChatView

def opened (id : String) : ChatView := ⟨id, [], []⟩

/-- A snapshot: the documents with their ids, in the order of `timestamp`. -/
abbrev Snapshot := List (String × MsgDoc)

inductive Action where
  | snapshot (documents : Snapshot)
  /-- a button of the bubble at `i` -/
  | press (i : Nat)
  deriving DecidableEq, Repr

/-- The builder of the stream, for a snapshot. -/
def build (documents : Snapshot) (s : ChatView) : ChatView :=
  let messages := documents.map fun p => MsgModal.fromFirestore p.1 p.2
  { s with
    messages := messages
    bubbles := reconcile BubbleWidget.kind initBubble s.bubbles (builtItems s.id messages) }

/-- A bubble that has its buttons. -/
def Waits (e : Element BubbleKind BubbleState) : Prop :=
  e.kind = .invitation ∧ e.state.isOwnMessage = false ∧ e.state.msg.isReacted = false

instance (e : Element BubbleKind BubbleState) : Decidable (Waits e) :=
  inferInstanceAs (Decidable (_ ∧ _ ∧ _))

/-- The `setState` of `handleButton`. -/
def setReacted (e : Element BubbleKind BubbleState) : Element BubbleKind BubbleState :=
  { e with state := { e.state with msg := e.state.msg.react } }

def press (i : Nat) (s : ChatView) : Option ChatView :=
  match s.bubbles[i]? with
  | none => none
  | some e =>
      if Waits e then
        some { s with
          messages := s.messages.modify i MsgModal.react
          bubbles := s.bubbles.modify i setReacted }
      else none

/-- The snapshots of a query ordered by `timestamp`, and the buttons. -/
def step (s : ChatView) : Action → Option ChatView
  | .snapshot documents =>
      if documents.Pairwise (fun p q => p.2.timestamp ≤ q.2.timestamp) then
        some (s.build documents)
      else none
  | .press i => s.press i

/-- What the user `id` is to see of a message. -/
def drawn (id : String) (m : MsgModal) : Drawn where
  type := m.type
  content := m.content
  ticks := if m.idFrom = id then some m.isRead else none
  answered := if m.type = 1 ∧ m.idFrom ≠ id then some m.isReacted else none

/-- After a snapshot the bubble at each position shows the message there. -/
def ShowsMessages (_ : ChatView) (a : Action) (s' : ChatView) : Prop :=
  ∀ documents, a = .snapshot documents →
    s'.bubbles.map (fun e => e.kind.draw e.state) =
      documents.map fun p => drawn s'.id (MsgModal.fromFirestore p.1 p.2)

/-- The messages are texts and invitations. -/
def Typed (messages : List MsgModal) : Prop := ∀ m ∈ messages, m.type = 0 ∨ m.type = 1

/-- Nothing that is drawn for the user `id` differs. -/
def Repeated (id : String) (m m' : MsgModal) : Prop :=
  m.content = m'.content ∧ (m.idFrom = id ↔ m'.idFrom = id) ∧
    (m.idFrom = id → m.isRead = m'.isRead) ∧
    (m.type = 1 → m.idFrom ≠ id → m.isReacted = m'.isReacted)

/-- The snapshot repeats what is drawn of the last one at its positions, except
where the type changes. -/
def Repeats (s : ChatView) : Action → Prop
  | .snapshot documents =>
      Typed (documents.map fun p => MsgModal.fromFirestore p.1 p.2) ∧
        ∀ p ∈ s.messages.zip (documents.map fun p => MsgModal.fromFirestore p.1 p.2),
          p.1.type = p.2.type → Repeated s.id p.1 p.2
  | .press _ => True

instance (messages : List MsgModal) : Decidable (Typed messages) :=
  inferInstanceAs (Decidable (∀ _ ∈ _, _))

instance (id : String) (m m' : MsgModal) : Decidable (Repeated id m m') :=
  inferInstanceAs (Decidable (_ ∧ _ ∧ (_ → _) ∧ (_ → _ → _)))

instance (s : ChatView) : ∀ a, Decidable (Repeats s a)
  | .snapshot _ => inferInstanceAs (Decidable (_ ∧ ∀ _ ∈ _, _ → _))
  | .press _ => inferInstanceAs (Decidable True)

/-! ## What is built -/

variable {id : String} {s s' : ChatView}

theorem itemBuilder_type (id : String) {m : MsgModal} (h : m.type = 0 ∨ m.type = 1) :
    ∃ k : BubbleKind, k.type = m.type ∧ itemBuilder id m = some ⟨k, m, m.idFrom = id⟩ := by
  rcases h with h | h
  · exact ⟨.message, h.symm, if_pos h⟩
  · refine ⟨.invitation, h.symm, ?_⟩
    rw [itemBuilder, if_neg (by rw [h]; decide), if_pos h]

theorem draw_initBubble {k : BubbleKind} {m : MsgModal} (hk : k.type = m.type) :
    k.draw (initBubble ⟨k, m, m.idFrom = id⟩) = drawn id m := by
  have hinv : m.type = 1 ↔ k = .invitation := by
    rw [← hk]
    cases k <;> decide
  simp only [BubbleKind.draw, initBubble, drawn, hk, hinv, decide_eq_true_eq]
  cases k <;> by_cases hown : m.idFrom = id <;> simp [hown]

theorem map_builtItems (id : String) {ms : List MsgModal} (h : Typed ms) :
    (builtItems id ms).map (fun w => w.kind.draw (initBubble w)) = ms.map (drawn id) := by
  induction ms with
  | nil => rfl
  | cons m ms ih =>
      obtain ⟨hm, hms⟩ := List.forall_mem_cons.mp h
      obtain ⟨k, hk, hbuild⟩ := itemBuilder_type id hm
      rw [builtItems, hbuild, List.map_cons, List.map_cons, ih hms, draw_initBubble hk]

theorem length_builtItems {ms : List MsgModal} (h : (builtItems id ms).length = ms.length) :
    Typed ms := by
  induction ms with
  | nil => exact nofun
  | cons m ms ih =>
      simp only [builtItems] at h
      split at h
      · next w hw =>
          refine List.forall_mem_cons.mpr ⟨?_, ih (Nat.succ.inj h)⟩
          simp only [itemBuilder] at hw
          split at hw
          · next h₀ => exact Or.inl h₀
          · split at hw
            · next h₁ => exact Or.inr h₁
            · cases hw
      · cases h

theorem BubbleKind.type_injective {k k' : BubbleKind} (h : k.type = k'.type) : k = k' := by
  cases k <;> cases k' <;> first | rfl | exact absurd h (by decide)

theorem drawn_eq_iff {m m' : MsgModal} (htype : m.type = m'.type) :
    drawn id m = drawn id m' ↔ Repeated id m m' := by
  have hsome : ∀ {p q : Prop} [Decidable p] [Decidable q] {b c : Bool},
      ((if p then some b else none) = if q then some c else none) ↔ (p ↔ q) ∧ (p → b = c) := by
    intro p q _ _ b c
    by_cases hp : p <;> by_cases hq : q <;> simp [hp, hq]
  simp only [drawn, Drawn.mk.injEq, htype, true_and, hsome, Repeated]
  constructor
  · rintro ⟨hcontent, ⟨hside, hread⟩, -, hreacted⟩
    exact ⟨hcontent, hside, hread, fun h₁ hne => hreacted ⟨h₁, hne⟩⟩
  · rintro ⟨hcontent, hside, hread, hreacted⟩
    exact ⟨hcontent, ⟨hside, hread⟩, and_congr_right fun _ => not_congr hside,
      fun h => hreacted h.1 h.2⟩

/-- Two lists of typed messages build items that agree exactly when they
repeat each other. -/
theorem agree_builtItems {ms ms' : List MsgModal} (h : Typed ms) (h' : Typed ms') :
    Agree BubbleWidget.kind initBubble BubbleKind.draw (builtItems id ms) (builtItems id ms') ↔
      ∀ p ∈ ms.zip ms', p.1.type = p.2.type → Repeated id p.1 p.2 := by
  induction ms generalizing ms' with
  | nil =>
      rw [builtItems, List.zip_nil_left]
      exact iff_of_true (agree_nil _) fun _ hp => absurd hp List.not_mem_nil
  | cons m ms ih =>
      cases ms' with
      | nil =>
          rw [List.zip_nil_right]
          exact iff_of_true (agree_nil_right _) fun _ hp => absurd hp List.not_mem_nil
      | cons m' ms' =>
          obtain ⟨hm, hms⟩ := List.forall_mem_cons.mp h
          obtain ⟨hm', hms'⟩ := List.forall_mem_cons.mp h'
          obtain ⟨k, hk, hbuild⟩ := itemBuilder_type id hm
          obtain ⟨k', hk', hbuild'⟩ := itemBuilder_type id hm'
          simp only [builtItems, hbuild, hbuild', agree_cons, List.zip_cons_cons,
            List.forall_mem_cons, draw_initBubble hk, draw_initBubble hk']
          refine and_congr ?_ (ih hms hms')
          rw [← hk, ← hk']
          constructor
          · intro hagree htype
            exact (drawn_eq_iff (hk.symm.trans (htype.trans hk'))).mp
              (hagree (BubbleKind.type_injective htype))
          · intro hrepeat hkind
            have htype : k.type = k'.type := congrArg BubbleKind.type hkind
            exact (drawn_eq_iff (hk.symm.trans (htype.trans hk'))).mpr (hrepeat htype)

/-! ## Steps -/

/-- The bubbles show the messages. -/
structure InStep (s : ChatView) : Prop where
  typed : Typed s.messages
  shows : Shows BubbleWidget.kind initBubble BubbleKind.draw s.bubbles
    (builtItems s.id s.messages)

theorem itemBuilder_react (id : String) (m : MsgModal) :
    itemBuilder id m.react = (itemBuilder id m).map fun w => { w with msg := w.msg.react } := by
  have htype : m.react.type = m.type := rfl
  simp only [itemBuilder, htype]
  split
  · rfl
  · split <;> rfl

theorem builtItems_modify (id : String) {ms : List MsgModal} (i : Nat) (h : Typed ms) :
    builtItems id (ms.modify i MsgModal.react) =
      (builtItems id ms).modify i fun w => { w with msg := w.msg.react } := by
  induction ms generalizing i with
  | nil => rw [List.modify_nil, builtItems, List.modify_nil]
  | cons m ms ih =>
      obtain ⟨hm, hms⟩ := List.forall_mem_cons.mp h
      obtain ⟨k, -, hbuild⟩ := itemBuilder_type id hm
      cases i with
      | zero =>
          rw [List.modify_zero_cons, builtItems, builtItems, itemBuilder_react, hbuild,
            Option.map_some, List.modify_zero_cons]
      | succ i =>
          rw [List.modify_succ_cons, builtItems, builtItems, hbuild, ih i hms,
            List.modify_succ_cons]

theorem Typed.modify {ms : List MsgModal} {i : Nat} (h : Typed ms) :
    Typed (ms.modify i MsgModal.react) := by
  induction ms generalizing i with
  | nil => rwa [List.modify_nil]
  | cons m ms ih =>
      obtain ⟨hm, hms⟩ := List.forall_mem_cons.mp h
      cases i with
      | zero => exact List.forall_mem_cons.mpr ⟨hm, hms⟩
      | succ i => exact List.forall_mem_cons.mpr ⟨hm, ih hms⟩

theorem InStep.press {i : Nat} (hs : s.InStep) (h : s.press i = some s') : s'.InStep := by
  simp only [ChatView.press] at h
  split at h
  · cases h
  · next e he =>
      split at h
      · next hwaits =>
          cases h
          refine ⟨hs.typed.modify, ?_⟩
          rw [builtItems_modify _ _ hs.typed]
          refine hs.shows.modify fun e' w he' hkind hview => ?_
          obtain rfl : e = e' := Option.some.inj (he.symm.trans he')
          obtain ⟨hinv, hown, -⟩ := hwaits
          obtain ⟨kind, msg, own⟩ := w
          obtain rfl : kind = .invitation := hkind.symm.trans hinv
          refine ⟨hkind, ?_⟩
          simp only [hinv, BubbleKind.draw, initBubble, Drawn.mk.injEq, hown, true_and] at hview
          cases own with
          | true => exact absurd hview.2.1 (by simp)
          | false => simp [setReacted, hinv, BubbleKind.draw, initBubble, hown, MsgModal.react,
              hview.1]
      · cases h

/-- After a snapshot the bubbles are of the kinds of its items, and show the
messages exactly when they are in step with them. -/
theorem showsMessages_build (documents : Snapshot) (t : ChatView) :
    ShowsMessages t (.snapshot documents) (s.build documents) ↔ (s.build documents).InStep := by
  have hkinds : (s.build documents).bubbles.map Element.kind =
      (builtItems s.id (s.build documents).messages).map BubbleWidget.kind :=
    map_kind_reconcile _ _
  have hmessages : (documents.map fun p => drawn s.id (MsgModal.fromFirestore p.1 p.2)) =
      (s.build documents).messages.map (drawn s.id) := by
    simp only [build, List.map_map, Function.comp_def]
  constructor
  · intro h
    have hdrawn := (h documents rfl).trans hmessages
    have hlen : (builtItems s.id (s.build documents).messages).length =
        (s.build documents).messages.length := by
      have hbubbles := congrArg List.length hkinds
      have hshown := congrArg List.length hdrawn
      simp only [List.length_map] at hbubbles hshown
      exact hbubbles.symm.trans hshown
    have htyped := length_builtItems hlen
    exact ⟨htyped, hkinds, hdrawn.trans (map_builtItems s.id htyped).symm⟩
  · rintro ⟨htyped, hshows⟩ _ ⟨⟩
    exact (hshows.views.trans (map_builtItems s.id htyped)).trans hmessages.symm

/-- A room that is in step shows the messages of the next snapshot exactly when
it repeats the last one. -/
theorem step_showsMessages {a : Action} (hs : s.InStep) (h : step s a = some s') :
    ShowsMessages s a s' ↔ s.Repeats a := by
  cases a with
  | press i => exact iff_of_true nofun trivial
  | snapshot documents =>
      simp only [step] at h
      split at h
      · cases h
        rw [showsMessages_build]
        constructor
        · intro hstep
          exact ⟨hstep.typed, (agree_builtItems hs.typed hstep.typed).mp
            ((shows_reconcile_iff hs.shows).mp hstep.shows)⟩
        · rintro ⟨htyped, hrepeat⟩
          exact ⟨htyped, (shows_reconcile_iff hs.shows).mpr
            ((agree_builtItems hs.typed htyped).mpr hrepeat)⟩
      · cases h

theorem step_inStep {a : Action} (hs : s.InStep) (h : step s a = some s')
    (hshows : ShowsMessages s a s') : s'.InStep := by
  cases a with
  | press i => exact hs.press h
  | snapshot documents =>
      simp only [step] at h
      split at h
      · cases h
        exact (showsMessages_build documents s).mp hshows
      · cases h

/-- After every snapshot of an open room the bubbles show its messages exactly
when every snapshot repeats the one before it. -/
theorem showsMessages_iff (id : String) {tr : List (Action × ChatView)}
    (hrun : Run (StepOf step) (opened id) tr) :
    Along ShowsMessages (opened id) tr ↔ Guarded Repeats (opened id) tr := by
  have hopened : (opened id).InStep := ⟨nofun, rfl, rfl⟩
  exact along_iff_guarded (Q := ShowsMessages) (C := Repeats) (I := InStep)
    (fun s a s' hs h => step_showsMessages hs h)
    (fun s a s' hs h hshows => step_inStep hs h hshows) hopened hrun

/-! ## The life of a bubble -/

/-- A bubble of the kind `k` at `i`. -/
def HasKind (i : Nat) (k : BubbleKind) (s : ChatView) : Prop :=
  ∃ b, s.bubbles[i]? = some b ∧ b.kind = k

/-- The bubble `b` at `i` was created at a snapshot of the run, for the message
at `i`, has been there since, and differs from it by its own buttons only. -/
inductive CreatedFor (s₀ : ChatView) (i : Nat) (b : Element BubbleKind BubbleState) :
    List (Action × ChatView) → Prop where
  | intro (tr₁ : List (Action × ChatView)) (documents : Snapshot) (s₁ : ChatView)
      (tr₂ : List (Action × ChatView)) (p : String × MsgDoc) (hp : documents[i]? = some p)
      (hnew : ¬ HasKind i b.kind (final s₀ tr₁))
      (hkept : Along (fun _ _ s => HasKind i b.kind s) s₁ tr₂)
      (hmsg : b.state.msg = if .press i ∈ tr₂.map Prod.fst
        then (MsgModal.fromFirestore p.1 p.2).react else MsgModal.fromFirestore p.1 p.2)
      (hown : b.state.isOwnMessage = decide (p.2.idFrom = s₀.id)) :
      CreatedFor s₀ i b (tr₁ ++ (.snapshot documents, s₁) :: tr₂)

theorem CreatedFor.snoc {s₀ : ChatView} {i : Nat} {b b' : Element BubbleKind BubbleState}
    {tr : List (Action × ChatView)} {a : Action} (h : CreatedFor s₀ i b tr)
    (hb' : s'.bubbles[i]? = some b') (hkind : b'.kind = b.kind)
    (hmsg : b'.state.msg = if a = .press i then b.state.msg.react else b.state.msg)
    (hown : b'.state.isOwnMessage = b.state.isOwnMessage) :
    CreatedFor s₀ i b' (tr ++ [(a, s')]) := by
  cases h with
  | intro tr₁ documents s₁ tr₂ p hp hnew hkept hstate hside =>
      rw [List.append_assoc, List.cons_append]
      refine .intro tr₁ documents s₁ (tr₂ ++ [(a, s')]) p hp (hkind ▸ hnew) ?_ ?_
        (hown.trans hside)
      · rw [hkind]
        exact along_append.mpr ⟨hkept, ⟨b', hb', hkind⟩, trivial⟩
      · have htwice : (MsgModal.fromFirestore p.1 p.2).react.react =
            (MsgModal.fromFirestore p.1 p.2).react := rfl
        rw [hmsg, hstate, List.map_append, List.map_singleton]
        simp only [List.mem_append, List.mem_singleton, eq_comm (a := Action.press i)]
        by_cases ha : a = .press i <;> by_cases hold : .press i ∈ tr₂.map Prod.fst <;>
          simp [ha, hold, htwice]

theorem getElem?_builtItems {ms : List MsgModal} {i : Nat} {w : BubbleWidget}
    (h : (builtItems id ms)[i]? = some w) :
    ∃ m, ms[i]? = some m ∧ itemBuilder id m = some w := by
  induction ms generalizing i with
  | nil => cases h
  | cons m ms ih =>
      rw [builtItems] at h
      split at h
      · next w₀ hw₀ =>
          cases i with
          | zero => exact ⟨m, rfl, hw₀.trans h⟩
          | succ i => exact ih h
      · cases h

theorem initBubble_of_itemBuilder {m : MsgModal} {w : BubbleWidget}
    (h : itemBuilder id m = some w) : initBubble w = ⟨m, m.idFrom = id⟩ := by
  rw [itemBuilder] at h
  split at h
  · cases h
    rfl
  · split at h
    · cases h
      rfl
    · cases h

theorem step_id {a : Action} (h : step s a = some s') : s'.id = s.id := by
  cases a with
  | snapshot documents =>
      rw [step] at h
      split at h
      · cases h
        rfl
      · cases h
  | press i =>
      rw [step, ChatView.press] at h
      split at h
      · cases h
      · split at h
        · cases h
          rfl
        · cases h

theorem createdFor_build {s₀ : ChatView} {tr : List (Action × ChatView)} {documents : Snapshot}
    {i : Nat} {b : Element BubbleKind BubbleState}
    (hid : (final s₀ tr).id = s₀.id)
    (hI : ∀ b, (final s₀ tr).bubbles[i]? = some b → CreatedFor s₀ i b tr)
    (hb : ((final s₀ tr).build documents).bubbles[i]? = some b) :
    CreatedFor s₀ i b (tr ++ [(.snapshot documents, (final s₀ tr).build documents)]) := by
  have hreconciled := hb
  simp only [build, getElem?_reconcile, hid, Option.map_eq_some_iff] at hreconciled
  obtain ⟨w, hw, hchild⟩ := hreconciled
  obtain ⟨m, hm, hbuilt⟩ := getElem?_builtItems hw
  rw [List.getElem?_map, Option.map_eq_some_iff] at hm
  obtain ⟨p, hp, rfl⟩ := hm
  cases hold : (final s₀ tr).bubbles[i]?.filter fun e => e.kind = w.kind with
  | some e =>
      obtain ⟨he, -⟩ := Option.filter_eq_some_iff.mp hold
      rw [hold, Option.getD_some] at hchild
      subst hchild
      exact (hI e he).snoc hb rfl (if_neg nofun).symm rfl
  | none =>
      rw [hold, Option.getD_none] at hchild
      subst hchild
      refine .intro tr documents _ [] p hp ?_ trivial ?_ ?_
      · rintro ⟨e, he, hkind⟩
        rw [he, Option.filter_some, if_pos (decide_eq_true hkind)] at hold
        cases hold
      · rw [initBubble_of_itemBuilder hbuilt]
        rfl
      · rw [initBubble_of_itemBuilder hbuilt]
        rfl

/-- Every bubble of an open room shows the message that it was created for. -/
theorem createdFor (id : String) {tr : List (Action × ChatView)}
    (hrun : Run (StepOf step) (opened id) tr) :
    ∀ i b, (final (opened id) tr).bubbles[i]? = some b → CreatedFor (opened id) i b tr := by
  have hall : (final (opened id) tr).id = id ∧ ∀ i b,
      (final (opened id) tr).bubbles[i]? = some b → CreatedFor (opened id) i b tr := by
    refine Run.history (I := fun tr => (final (opened id) tr).id = id ∧ ∀ i b,
      (final (opened id) tr).bubbles[i]? = some b → CreatedFor (opened id) i b tr)
      ⟨rfl, nofun⟩ ?_ hrun
    rintro tr a s' - ⟨hid, hI⟩ h
    rw [final_append]
    refine ⟨(step_id h).trans hid, fun i b hb => ?_⟩
    cases a with
    | snapshot documents =>
        simp only [StepOf, step] at h
        split at h
        · cases h
          exact createdFor_build hid (hI i) hb
        · cases h
    | press j =>
        simp only [StepOf, step, ChatView.press] at h
        split at h
        · cases h
        · split at h
          · cases h
            have hbubble := hb
            simp only [final, List.getElem?_modify] at hbubble
            obtain ⟨e, he, rfl⟩ := Option.map_eq_some_iff.mp hbubble
            by_cases hji : j = i
            · subst hji
              rw [if_pos rfl] at hb ⊢
              exact (hI j e he).snoc hb rfl (if_pos rfl).symm rfl
            · rw [if_neg hji] at hb ⊢
              exact (hI i e he).snoc hb rfl (if_neg fun h => hji (Action.press.inj h)).symm rfl
          · cases h
  exact hall.2

/-- A text from Bob, and an invitation from him. -/
def bobText : MsgDoc where
  idFrom := "bob"
  idTo := "alice"
  timestamp := 1
  content := "Hello"
  type := 0
  isRead := false
  isReacted := none

def bobInvitation : MsgDoc :=
  { bobText with timestamp := 2, content := "e", type := 1, isReacted := some false }

/-- Alice reads the text, answers the invitation, and the next snapshot has
both. -/
theorem showsMessages_answer : ∃ tr : List (Action × ChatView),
    tr.map Prod.fst =
      [.snapshot [("m", bobText)],
        .snapshot [("m", { bobText with isRead := true }), ("n", bobInvitation)], .press 1,
        .snapshot [("m", { bobText with isRead := true }),
          ("n", { bobInvitation with isReacted := some true })]] ∧
      Along ShowsMessages (opened "alice") tr := by
  obtain ⟨tr, hacts, hrun, hguard⟩ := exists_run (f := step) (s := opened "alice")
    (P := fun tr => Guarded Repeats (opened "alice") tr)
    [.snapshot [("m", bobText)],
      .snapshot [("m", { bobText with isRead := true }), ("n", bobInvitation)], .press 1,
      .snapshot [("m", { bobText with isRead := true }),
        ("n", { bobInvitation with isReacted := some true })]] (by decide)
  exact ⟨tr, hacts, (showsMessages_iff "alice" hrun).mpr hguard⟩

/-- Bob has the room open when Alice reads his text: the ticks stay grey. -/
theorem showsMessages_read_fails : ¬ ∀ (id : String) (tr),
    Run (StepOf step) (opened id) tr → Along ShowsMessages (opened id) tr := by
  intro h
  let before : Snapshot := [("m", bobText)]
  let after : Snapshot := [("m", { bobText with isRead := true })]
  have hrun : Run (StepOf step) (opened "bob")
      [(.snapshot before, (opened "bob").build before),
        (.snapshot after, ((opened "bob").build before).build after)] :=
    ⟨rfl, rfl, trivial⟩
  exact absurd ((h _ _ hrun).2.1 after rfl) (by decide)

end ChatView

end CalendarApp
