import Deepstream.Client.Aside
import Deepstream.Client.Socket

/-!
What becomes of a client that has closed its socket.

Nothing opens the socket again. The connection stays `CLOSED` or in `ERROR`, where
neither requests nor messages about events and presence are sent.
-/

namespace Deepstream

open Reentrant (Keeps Policy Prog Regime wp)

/-- What may still happen after some history when the socket was closed -/
def Harmless (t : List Item) : Item → Prop
  | .call .wsOpen | .enter .onOpen => False
  | .call (.setUri _) => socketOpen t = false
  | .call (.wsSend m _) => m.header.topic = .connection
  | .note (.became c) => c.state = .closed ∨ c.state = .error
  | _ => True

/-- Only harmless things have happened since the socket was closed. -/
def Sealed : List Item → Prop
  | [] => True
  | i :: t => (.call .wsClose ∈ t → Harmless t i) ∧ Sealed t

/-- The state of a client that has closed its socket -/
structure Shut (w : World) : Prop where
  deliberate : w.state.deliberateClose = true
  state : w.state.state = .closed ∨ w.state.state = .error
  socket : socketOpen w.trace = false

structure IsSealed (w : World) : Prop where
  history : Sealed w.trace
  shut : .call .wsClose ∈ w.trace → Shut w

/-- The history before the socket was closed, if it was closed right now -/
def beforeClosing : List Item → List Item
  | .call .wsClose :: t => t
  | .enter .onClose :: .call .wsClose :: t => t
  | t => t

/-- While the socket is being closed, the end of the connection is still to be reported. -/
structure AlmostSealed (w : World) : Prop where
  history : Sealed w.trace
  deliberate : .call .wsClose ∈ w.trace → w.state.deliberateClose = true
  shut : .call .wsClose ∈ beforeClosing w.trace → Shut w

/-- During the calls of the socket nobody else closes it. -/
def sealing : Regime interface where
  quiet := Call.isSocket
  inv _ := AlmostSealed
  rel quiet w w' := quiet = true → .call .wsClose ∈ w'.trace → .call .wsClose ∈ w.trace
  pre e w := (∃ t, w.trace = .enter e :: t) ∧
    ((∃ uri, e = .construct uri) ∨ e = .onOpen → .call .wsClose ∉ w.trace) ∧
    ∀ c rest, w.stack.tail = .inr c :: rest → c.isSocket = true → e.isNotice = true
  abort _ _ := True

theorem mem_of_mem_beforeClosing {t : List Item} {i : Item} (h : i ∈ beforeClosing t) : i ∈ t := by
  unfold beforeClosing at h
  split at h
  · exact List.mem_cons_of_mem _ h
  · exact List.mem_cons_of_mem _ (List.mem_cons_of_mem _ h)
  · exact h

theorem IsSealed.almost {w : World} (h : IsSealed w) : AlmostSealed w where
  history := h.history
  deliberate hmem := (h.shut hmem).deliberate
  shut hmem := h.shut (mem_of_mem_beforeClosing hmem)

/-- Something has happened that does not begin to close the socket. -/
theorem IsSealed.cons {w w' : World} (h : IsSealed w) {i : Item} (htrace : w'.trace = i :: w.trace)
    (hi : i ≠ .call .wsClose) (hharmless : .call .wsClose ∈ w.trace → Harmless w.trace i)
    (hsocket : socketOpen w.trace = false → socketOpen (i :: w.trace) = false)
    (hdeliberate : w'.state.deliberateClose = w.state.deliberateClose)
    (hstate : .call .wsClose ∈ w.trace → w.state.state = .closed ∨ w.state.state = .error →
      w'.state.state = .closed ∨ w'.state.state = .error) : IsSealed w' := by
  refine ⟨htrace ▸ ⟨hharmless, h.history⟩, fun hmem => ?_⟩
  rw [htrace] at hmem
  have hmem : .call .wsClose ∈ w.trace := (List.mem_cons.mp hmem).resolve_left (Ne.symm hi)
  have hshut := h.shut hmem
  refine ⟨hdeliberate.trans hshut.deliberate, hstate hmem hshut.state, ?_⟩
  rw [htrace]
  exact hsocket hshut.socket

/-- Something has happened that changes nothing. -/
theorem IsSealed.neutral {w w' : World} (h : IsSealed w) {i : Item}
    (htrace : w'.trace = i :: w.trace) (hi : i ≠ .call .wsClose) (hharmless : ∀ t, Harmless t i)
    (hsocket : socketOpen (i :: w.trace) = socketOpen w.trace) (hstate : w'.state = w.state) :
    IsSealed w' :=
  h.cons htrace hi (fun _ => hharmless _) hsocket.trans (hstate ▸ rfl) fun _ hs => hstate ▸ hs

/-- A change of the state that the seal allows -/
theorem IsSealed.became {w : World} (h : IsSealed w) {s : ConnectionState}
    (hs : .call .wsClose ∈ w.trace → s = .closed ∨ s = .error) :
    IsSealed (Reentrant.World.noted { w with state := { w.state with state := s } }
      (.became { w.state with state := s })) :=
  h.cons rfl nofun hs id rfl fun hmem _ => hs hmem

theorem beforeClosing_inCall {w : World} {c : Call} (hcall : w.InCall c) (hc : c ≠ .wsClose) :
    beforeClosing w.trace = w.trace := by
  unfold beforeClosing
  split
  · next htrace => exact absurd (hcall.head _ (by rw [htrace]; rfl)).symm hc
  · next htrace => exact absurd (by rw [htrace]; rfl) (hcall.paused .onClose)
  · rfl

section Programs
variable {α : Type}

abbrev Seals (p : Program α) : Prop :=
  Keeps sealing.contract pocoSocket IsSealed p

theorem seals_modify {f : Client → Client} (hstate : ∀ c, (f c).state = c.state)
    (hdeliberate : ∀ c, (f c).deliberateClose = c.deliberateClose) : Seals (Prog.modify f) := by
  apply Reentrant.keeps_modify
  intro w hw
  refine ⟨hw.history, fun hmem => ?_⟩
  obtain ⟨hclose, hclosed, hsocket⟩ := hw.shut hmem
  exact ⟨(hdeliberate _).trans hclose, hclosed.imp (hstate _).trans (hstate _).trans, hsocket⟩

theorem seals_leave {n : Note} (hn : ∀ t, Harmless t (.note n)) : Seals (Program.leave n) :=
  Reentrant.keeps_leave fun _ hw => hw.neutral rfl nofun hn rfl rfl

/-- Sealed, and the socket was closed only if it was before -/
structure StaysSealed (first w : World) : Prop where
  isSealed : IsSealed w
  mem : .call .wsClose ∈ w.trace → .call .wsClose ∈ first.trace

/-- A call other than to close the socket, if it is harmless -/
theorem wp_ask_stays {c : Call} (hc : c ≠ .wsClose) {w : World} (hw : IsSealed w)
    (hharmless : .call .wsClose ∈ w.trace → Harmless w.trace (.call c))
    {Q : c.Answer → World → Prop} {E : Exception → World → Prop}
    (hQ : ∀ a w', IsSealed w' → (c.isSocket = true → StaysSealed w w') → Q a w')
    (hE : ∀ x w', IsSealed w' → (c.isSocket = true → StaysSealed w w') → E x w') :
    wp sealing.contract pocoSocket (Program.ask c) Q E w := by
  have hcalling : IsSealed (Reentrant.World.calling w c) :=
    hw.cons rfl (fun h => hc (by cases h; rfl)) hharmless id rfl fun _ => id
  apply Reentrant.wp_ask
  · exact ⟨hcalling.almost, _, rfl⟩
  · intro w' hlater hafter
    obtain ⟨hw', hrel⟩ := hafter
    have hbefore := beforeClosing_inCall hlater.inCall hc
    have hsealed : IsSealed w' := ⟨hw'.history, fun hmem => hw'.shut (hbefore.symm ▸ hmem)⟩
    have hback : ∀ r, IsSealed (w'.returned c r) ∧
        (c.isSocket = true → StaysSealed w (w'.returned c r)) := by
      intro r
      have hreturned : IsSealed (w'.returned c r) :=
        hsealed.neutral (i := .back c r) rfl nofun (fun _ => trivial) rfl rfl
      refine ⟨hreturned, fun hsocket => ⟨hreturned, fun hmem => ?_⟩⟩
      have hmem := hrel hsocket ((List.mem_cons.mp hmem).resolve_left nofun)
      exact (List.mem_cons.mp hmem).resolve_left fun h => hc (by cases h; rfl)
    exact ⟨fun a _ => hQ a _ (hback _).1 (hback _).2, fun x _ => hE x _ (hback _).1 (hback _).2⟩

theorem wp_ask_sealed {c : Call} (hc : c ≠ .wsClose) {w : World} (hw : IsSealed w)
    (hharmless : .call .wsClose ∈ w.trace → Harmless w.trace (.call c)) :
    wp sealing.contract pocoSocket (Program.ask c) (fun _ => IsSealed) (fun _ => IsSealed) w :=
  wp_ask_stays hc hw hharmless (fun _ _ hw' _ => hw') fun _ _ hw' _ => hw'

theorem seals_ask {c : Call} (hc : c ≠ .wsClose) (hharmless : ∀ t, Harmless t (.call c)) :
    Seals (Program.ask c) :=
  fun _ hw => wp_ask_sealed hc hw fun _ => hharmless _

theorem seals_setUri (uri : Buffer) : Seals (Program.ask (.setUri uri)) :=
  fun _ hw => wp_ask_sealed (c := .setUri uri) nofun hw fun hmem => (hw.shut hmem).socket

/-- Closing the socket -/
theorem seals_close : Seals Connection.close := by
  intro w hw
  unfold Connection.close
  rw [Reentrant.wp_bind, Reentrant.wp_modify]
  apply Reentrant.wp_ask
  · refine ⟨⟨⟨fun _ => trivial, hw.history⟩, fun _ => rfl, fun hmem => ?_⟩, _, rfl⟩
    obtain ⟨-, hclosed, hsocket⟩ := hw.shut hmem
    exact ⟨rfl, hclosed, hsocket⟩
  · intro w' hlater hafter
    have hback : ∀ r, pocoSocket.back w' .wsClose r → IsSealed (w'.returned .wsClose r) := by
      intro r hback
      obtain ⟨e, r', t, htrace⟩ := pocoSocket_back_wsClose hback
      have hbefore : beforeClosing w'.trace = w'.trace := by
        rw [htrace]
        rfl
      have hsealed : IsSealed w' :=
        ⟨hafter.1.history, fun hmem => hafter.1.shut (hbefore.symm ▸ hmem)⟩
      exact hsealed.neutral (i := .back .wsClose r) rfl nofun (fun _ => trivial) rfl rfl
    exact ⟨fun a => hback _, fun x => hback _⟩

/-- In `OPEN` the socket was not closed. -/
theorem wp_handOver_sealed (m : MessageBuilder) (buffer : Buffer) {w : World}
    (hopen : w.state.state = .open) (hw : IsSealed w) :
    wp sealing.contract pocoSocket (Program.ask (.wsSend m buffer)) (fun _ => IsSealed)
      (fun _ => IsSealed) w := by
  apply wp_ask_sealed (c := .wsSend m buffer) nofun hw
  intro hmem
  cases (hw.shut hmem).state with
  | inl hclosed => cases hopen.symm.trans hclosed
  | inr herror => cases hopen.symm.trans herror

theorem aside_sealed : Aside sealing.contract pocoSocket IsSealed where
  routine := {
    abort := fun _ _ _ => trivial
    ask := fun c hc => by
      cases c with
      | setUri | wsOpen | wsClose | wsSend | loginCallback | queryFn => cases hc
      | _ => exact seals_ask nofun fun _ => trivial
    nextId := Reentrant.keeps_read_bind fun _ =>
      Reentrant.keeps_bind (seals_modify (fun _ => rfl) fun _ => rfl) fun _ =>
        Reentrant.keeps_pure _ }
  modifyEvent _ := seals_modify (fun _ => rfl) fun _ => rfl
  modifyPresence _ := seals_modify (fun _ => rfl) fun _ => rfl
  queryFn _ _ := seals_ask nofun fun _ => trivial
  emitted _ := seals_leave fun _ => trivial
  sending _ := seals_leave fun _ => trivial
  handEvent m buffer _ _ hopen hw := wp_handOver_sealed m buffer hopen hw
  handPresence m buffer _ _ hopen hw := wp_handOver_sealed m buffer hopen hw

section Handlers
variable [Build] {n : Nat}

theorem wp_setState_sealed {s : ConnectionState} {w : World} (hw : IsSealed w)
    (hs : .call .wsClose ∈ w.trace → s = .closed ∨ s = .error) :
    wp sealing.contract pocoSocket (Connection.setState n s) (fun _ => IsSealed)
      (fun _ => IsSealed) w :=
  aside_sealed.wp_setState (fun _ => hw) fun _ => hw.became hs

/-- After the socket was closed a message leads to no other state than `ERROR`. -/
theorem seals_transition (m : MessageProxy) : Seals (Connection.transition n m) := by
  intro w hw
  unfold Connection.transition
  rw [Reentrant.wp_bind, Reentrant.wp_read, Reentrant.wp_bind]
  apply wp_lift_asserts (fun _ _ => trivial) (onlyAsserts_transitionIncoming _ _)
  intro s hs
  rw [Reentrant.wp_bind, wp_when]
  refine ⟨fun herror => ?_, fun herror => ?_⟩
  · apply Reentrant.wp_mono (aside_sealed.routine.report _ w hw)
    · exact fun _ w' hw' => wp_setState_sealed hw' fun _ => .inr herror
    · exact fun _ _ hw' => hw'
  · apply wp_setState_sealed hw
    intro hmem
    have hin := (transitionIncoming_eq_ok hs).2.resolve_right fun h => herror h.1
    generalize m.view.header.topic = topic, m.view.header.action = action at hin
    cases (hw.shut hmem).state with
    | inl hclosed =>
        rw [hclosed] at hin
        cases hin
        exact .inl rfl
    | inr hstate =>
        rw [hstate] at hin
        cases hin
        exact .inr rfl

/-- A message of the handshake, with what is known where it is handed over -/
theorem wp_send_sealed {m : MessageBuilder} {w : World} (hw : IsSealed w)
    (hm : m.header.topic = .connection ∨ m.header.topic = .auth)
    (hclosed : ∀ s, Outgoes w.state.state m.header.topic m.header.action s →
      .call .wsClose ∈ w.trace → m.header.topic = .connection ∧ s = w.state.state) :
    wp sealing.contract pocoSocket (Connection.send n m) (fun _ => IsSealed)
      (fun _ => IsSealed) w := by
  have hsending : IsSealed (w.noted (.sending m)) :=
    hw.neutral rfl nofun (fun _ => trivial) rfl rfl
  apply wp_send_handshake (fun _ _ => trivial) hm
  · exact fun _ _ => hsending.neutral rfl nofun (fun _ => trivial) rfl rfl
  · intro s _ hout
    have hmem : ∀ {t : List Item}, .call .wsClose ∈ .note (.sending m) :: t →
        .call .wsClose ∈ t :=
      fun h => (List.mem_cons.mp h).resolve_left nofun
    have htransmit : ∀ w' : World, IsSealed w' →
        (.call .wsClose ∈ w'.trace → .call .wsClose ∈ w.trace) →
        wp sealing.contract pocoSocket (Connection.transmit m) (fun _ => IsSealed)
          (fun _ => IsSealed) w' := by
      intro w' hw' hback
      unfold Connection.transmit
      rw [Reentrant.wp_bind]
      apply wp_lift
      · exact fun buffer _ => wp_ask_sealed (c := .wsSend m buffer) nofun hw' fun h =>
          (hclosed s hout (hback h)).1
      · exact fun _ _ => hw'
      · exact fun _ _ => trivial
    rw [Reentrant.wp_bind]
    apply wp_setState (fun _ _ => trivial)
    · exact hout.open
    · exact fun _ => htransmit _ hsending hmem
    · intro _
      apply htransmit
      · apply hsending.became
        intro h
        have hs := (hclosed s hout (hmem h)).2
        rw [hs]
        exact (hw.shut (hmem h)).state
      · exact fun h => hmem ((List.mem_cons.mp h).resolve_left nofun)

theorem seals_sendConnection {m : MessageBuilder} (hm : m.header.topic = .connection) :
    Seals (Connection.send n m) := by
  intro w hw
  apply wp_send_sealed hw (.inl hm)
  intro s hout hmem
  refine ⟨hm, ?_⟩
  rw [hm] at hout
  generalize m.header.action = action at hout
  cases (hw.shut hmem).state with
  | inl hclosed =>
      rw [hclosed] at hout ⊢
      cases hout
      rfl
  | inr herror =>
      rw [herror] at hout ⊢
      cases hout
      rfl

theorem seals_sendRequest {m : MessageBuilder} (hm : m.header.topic = .auth) :
    Seals (Connection.send n m) := by
  intro w hw
  apply wp_send_sealed hw (.inr hm)
  intro s hout hmem
  rw [hm] at hout
  cases (hw.shut hmem).state with
  | inl hclosed =>
      rw [hclosed] at hout
      cases hout
  | inr herror =>
      rw [herror] at hout
      cases hout

theorem responsive_sealed : Responsive sealing.contract pocoSocket IsSealed n where
  transition := seals_transition
  pong m := seals_sendConnection (congrArg Header.topic m.property.1)
  challengeResponse _ m := seals_sendConnection (congrArg Header.topic m.property.1)
  authenticationRequest :=
    Connection.keeps_sendAuthenticationRequest aside_sealed.routine fun _ => seals_sendRequest
  event m := Event.keeps_notify aside_sealed.routine.toSubscriberRoutine
    (fun _ => aside_sealed.modifyEvent _) m
    fun _ => aside_sealed.sendWith _
  presence m := Presence.keeps_notify aside_sealed.routine.toSubscriberRoutine m
    (fun _ => aside_sealed.modifyPresence _) (fun _ => aside_sealed.queryFn) fun _ => aside_sealed.modifyPresence _

theorem seals_handleMessage (m : MessageProxy) : Seals (Connection.handleMessage n m) :=
  Connection.keeps_handleMessage aside_sealed.routine responsive_sealed seals_setUri seals_close m
    (fun _ _ _ _ => seals_ask nofun fun _ => trivial) fun _ => seals_leave fun _ => trivial

/-- The entries of the application, and messages -/
theorem seals_program (e : Entry) (he : e.isNotice = false)
    (hconstruct : ∀ uri, e ≠ .construct uri) : Seals (program n e) := by
  cases e with
  | construct uri => exact absurd rfl (hconstruct uri)
  | onOpen | onClose | onError => cases he
  | onMessage raw =>
      exact Connection.keeps_onMessage aside_sealed.routine raw seals_handleMessage
  | login auth callback =>
      exact Connection.keeps_login responsive_sealed.authenticationRequest auth callback
        (seals_modify (fun _ => rfl) fun _ => rfl)
  | close => exact seals_close
  | _ => exact aside_sealed.program n _ trivial

omit [Build] in
theorem StaysSealed.trans {w w' w'' : World} (h : StaysSealed w w') (h' : StaysSealed w' w'') :
    StaysSealed w w'' :=
  ⟨h'.isSealed, fun hmem => h.mem (h'.mem hmem)⟩

theorem wp_onOpen_sealed {w : World} (hw : IsSealed w) (hnever : .call .wsClose ∉ w.trace) :
    wp sealing.contract pocoSocket (Connection.onOpen n) (fun _ => StaysSealed w)
      (fun _ => StaysSealed w) w := by
  have hattempt : IsSealed { w with state := { w.state with reconnectionAttempt := 0 } } :=
    ⟨hw.history, fun hmem => absurd hmem hnever⟩
  unfold Connection.onOpen
  rw [Reentrant.wp_bind, Reentrant.wp_modify]
  apply wp_setState (fun _ _ => trivial)
  · exact nofun
  · exact fun _ => ⟨hattempt, id⟩
  · intro _
    refine ⟨hattempt.became fun hmem => absurd hmem hnever, fun hmem => ?_⟩
    exact (List.mem_cons.mp hmem).resolve_left nofun

/-- The end of the connection, of which the client may be informed while it closes -/
theorem wp_onClose_sealed {w : World} (hw : AlmostSealed w) (hsocket : socketOpen w.trace = false) :
    wp sealing.contract pocoSocket (Connection.onClose n) (fun _ => StaysSealed w)
      (fun _ => StaysSealed w) w := by
  unfold Connection.onClose
  rw [Reentrant.wp_bind, Reentrant.wp_read]
  split
  · apply wp_setState (fun _ _ => trivial)
    · exact nofun
    · intro hclosed
      refine ⟨⟨hw.history, fun hmem => ?_⟩, id⟩
      exact ⟨hw.deliberate hmem, .inl hclosed.symm, hsocket⟩
    · intro _
      have hmem' : ∀ {i : Item} {t : List Item}, .call .wsClose ∈ i :: t →
          i ≠ .call .wsClose → .call .wsClose ∈ t :=
        fun h hi => (List.mem_cons.mp h).resolve_left (Ne.symm hi)
      refine ⟨⟨⟨fun _ => .inl rfl, hw.history⟩, fun hmem => ?_⟩, fun hmem => hmem' hmem nofun⟩
      exact ⟨hw.deliberate (hmem' hmem nofun), .inl rfl, hsocket⟩
  · next hgoes =>
      have hnever : .call .wsClose ∉ w.trace := fun hmem => hgoes (.inl (hw.deliberate hmem))
      have hopens : ∀ w' : World, IsSealed w' →
          (.call .wsClose ∈ w'.trace → .call .wsClose ∈ w.trace) →
          wp sealing.contract pocoSocket (Program.ask .wsOpen) (fun _ => StaysSealed w)
            (fun _ => StaysSealed w) w' := by
        intro w' hw' hback
        apply wp_ask_stays (c := .wsOpen) nofun hw' fun hmem => absurd (hback hmem) hnever
        · exact fun _ w'' _ hstays => ⟨(hstays rfl).isSealed, fun h => hback ((hstays rfl).mem h)⟩
        · exact fun _ w'' _ hstays => ⟨(hstays rfl).isSealed, fun h => hback ((hstays rfl).mem h)⟩
      have hattempt : IsSealed { w with state := { w.state with
          reconnectionAttempt := w.state.reconnectionAttempt + 1 } } :=
        ⟨hw.history, fun hmem => absurd hmem hnever⟩
      rw [Reentrant.wp_bind, Reentrant.wp_modify, Reentrant.wp_bind]
      apply wp_setState (fun _ _ => trivial)
      · exact nofun
      · exact fun _ => hopens _ hattempt id
      · intro _
        apply hopens _ (hattempt.became fun hmem => absurd hmem hnever)
        exact fun hmem => (List.mem_cons.mp hmem).resolve_left nofun

/-- The construction, during which nobody closes the socket -/
theorem wp_construct_sealed {uri : Buffer} {w : World} (hw : IsSealed w)
    (hnever : .call .wsClose ∉ w.trace) :
    wp sealing.contract pocoSocket (Connection.construct uri) (fun _ => IsSealed)
      (fun _ => IsSealed) w := by
  have hnever' : ∀ {w' : World}, StaysSealed w w' → .call .wsClose ∉ w'.trace :=
    fun hstays hmem => hnever (hstays.mem hmem)
  unfold Connection.construct
  rw [Reentrant.wp_bind]
  apply wp_ask_stays (c := .wsState) nofun hw (fun _ => trivial)
  · intro _ w₁ _ hstays
    have hw₁ := hstays rfl
    rw [Reentrant.wp_bind]
    apply wp_assert_of (fun _ _ => trivial)
    intro _
    rw [Reentrant.wp_bind]
    apply wp_ask_stays (c := .setUri uri) nofun hw₁.isSealed fun hmem => absurd hmem (hnever' hw₁)
    · intro _ w₂ _ hstays
      have hw₂ := hw₁.trans (hstays rfl)
      rw [Reentrant.wp_bind]
      apply wp_ask_stays (c := .wsOpen) nofun hw₂.isSealed fun hmem => absurd hmem (hnever' hw₂)
      · intro _ w₃ hw₃ _
        rw [Reentrant.wp_bind]
        apply wp_ask_stays (c := .idle) nofun hw₃ fun _ => trivial
        · exact nofun
        · exact fun _ _ hw₄ _ => hw₄
      · exact fun _ _ hw₃ _ => hw₃
    · exact fun _ _ hw₂ _ => hw₂
  · exact fun _ _ hw₁ _ => hw₁

omit [Build] in
theorem StaysSealed.left {first w : World} (h : StaysSealed first w) (e : Entry)
    (r : Except Exception Unit) : StaysSealed first (w.left e r) :=
  ⟨h.isSealed.neutral (i := .leave e r) rfl nofun (fun _ => trivial) rfl rfl,
    fun hmem => h.mem ((List.mem_cons.mp hmem).resolve_left nofun)⟩

omit [Build] in
/-- An entry during a call other than to close the socket -/
theorem AlmostSealed.entered {w : World} {c : Call} (h : AlmostSealed w) (hcall : w.InCall c)
    (hc : c ≠ .wsClose) {e : Entry} (he : e = .onOpen → .call .wsClose ∉ w.trace) :
    AlmostSealed (w.entered e) := by
  have hmem : .call .wsClose ∈ (w.entered e).trace → .call .wsClose ∈ w.trace :=
    fun hmem => (List.mem_cons.mp hmem).resolve_left nofun
  have hshut : .call .wsClose ∈ w.trace → Shut w := by
    intro hclosed
    apply h.shut
    rwa [beforeClosing_inCall hcall hc]
  refine ⟨⟨fun hclosed => ?_, h.history⟩, fun hclosed => h.deliberate (hmem hclosed), ?_⟩
  · cases e with
    | onOpen => exact absurd hclosed (he rfl)
    | _ => trivial
  · intro hclosed
    have hclosed' := hmem (mem_of_mem_beforeClosing hclosed)
    obtain ⟨hdeliberate, hstate, hsocket⟩ := hshut hclosed'
    refine ⟨hdeliberate, hstate, ?_⟩
    cases e with
    | onOpen => exact absurd hclosed' (he rfl)
    | onClose => rfl
    | onError _ => rfl
    | _ => exact hsocket

omit [Build] in
/-- What a socket enters keeps the seal, and opens no socket that was closed. -/
theorem PocoEnters.almostSealed {w : World} {c : Call} {e : Entry} (h : PocoEnters w c e)
    (hcall : w.InCall c) (hw : AlmostSealed w) : AlmostSealed (w.entered e) ∧
      ((∃ uri, e = .construct uri) ∨ e = .onOpen → .call .wsClose ∉ w.trace) ∧
      (c.isSocket = true → e.isNotice = true) := by
  have hnotice : e.isOutcome = true → e.isNotice = true ∧ ∀ uri, e ≠ .construct uri := by
    intro he
    cases e with
    | onOpen | onError => exact ⟨rfl, nofun⟩
    | _ => cases he
  cases h with
  | wsOpen t htrace e he =>
      have hnever : .call .wsClose ∉ w.trace := by
        intro hmem
        have hhistory := hw.history
        rw [htrace] at hmem hhistory
        exact hhistory.1 ((List.mem_cons.mp hmem).resolve_left nofun)
      exact ⟨hw.entered hcall nofun fun _ => hnever, fun _ => hnever, fun _ => (hnotice he).1⟩
  | setUri uri t htrace hopen e he =>
      have hnever : .call .wsClose ∉ w.trace := by
        intro hmem
        have hhistory := hw.history
        rw [htrace] at hmem hhistory
        have hclosed : socketOpen t = false :=
          hhistory.1 ((List.mem_cons.mp hmem).resolve_left nofun)
        cases hclosed.symm.trans hopen
      exact ⟨hw.entered hcall nofun fun _ => hnever, fun _ => hnever, fun _ => (hnotice he).1⟩
  | wsClose t htrace =>
      refine ⟨⟨⟨fun _ => trivial, hw.history⟩, fun hmem => ?_, fun hmem => ?_⟩, nofun, fun _ => rfl⟩
      · exact hw.deliberate ((List.mem_cons.mp hmem).resolve_left nofun)
      · have hbefore : beforeClosing (w.entered .onClose).trace = beforeClosing w.trace := by
          change beforeClosing (.enter .onClose :: w.trace) = _
          rw [htrace]
          rfl
        obtain ⟨hdeliberate, hstate, -⟩ := hw.shut (hbefore ▸ hmem)
        exact ⟨hdeliberate, hstate, rfl⟩
  | wsSend m buffer t htrace error =>
      exact ⟨hw.entered hcall nofun nofun, nofun, fun _ => rfl⟩
  | external c hc e he =>
      refine ⟨hw.entered hcall (by rintro rfl; cases hc) ?_, ?_, fun h => by rw [hc] at h; cases h⟩
      · rintro rfl
        cases he
      · rintro (⟨uri, rfl⟩ | rfl)
        · cases he
        · cases he

theorem sealing_sound : sealing.Sound pocoSocket (program n) where
  refl _ _ _ := id
  trans _ _ _ _ h h' hquiet hmem := h hquiet (h' hquiet hmem)
  enter w c e hcall hinv hpermit := by
    obtain ⟨hentered, hnever, hnotice⟩ :=
      (pocoSocket_enter hcall hpermit).almostSealed hcall hinv
    have hmem : .call .wsClose ∈ (w.entered e).trace → .call .wsClose ∈ w.trace :=
      fun hmem => (List.mem_cons.mp hmem).resolve_left nofun
    refine ⟨hentered, fun _ => hmem, ⟨w.trace, rfl⟩, fun he h => hnever he (hmem h), ?_⟩
    intro c' rest' hstack'
    obtain ⟨rest, hstack⟩ := hcall.stack
    change w.stack = _ at hstack'
    rw [hstack] at hstack'
    cases hstack'
    exact hnotice
  entry e w hinv hpre := by
    obtain ⟨⟨t, htrace⟩, hnever, hnotice⟩ := hpre
    have hstays : ∀ w' r, StaysSealed w w' →
        AlmostSealed (w'.left e r) ∧ sealing.rel (sealing.background w) w (w'.left e r) :=
      fun w' r hw' => ⟨(hw'.left e r).isSealed.almost, fun _ => (hw'.left e r).mem⟩
    have hsealed : e ≠ .onClose → IsSealed w := by
      refine fun he => ⟨hinv.history, fun hmem => hinv.shut ?_⟩
      rw [htrace] at hmem ⊢
      unfold beforeClosing
      split
      · next h => cases h
      · next h =>
          cases h
          exact absurd rfl he
      · exact hmem
    have happlication : e.isNotice = false → ∀ w' r, IsSealed w' →
        AlmostSealed (w'.left e r) ∧ sealing.rel (sealing.background w) w (w'.left e r) := by
      intro he w' r hw'
      have hleft : IsSealed (w'.left e r) :=
        hw'.neutral (i := .leave e r) rfl nofun (fun _ => trivial) rfl rfl
      refine ⟨hleft.almost, fun hbackground => ?_⟩
      unfold Regime.background at hbackground
      split at hbackground
      · next c rest hstack =>
          have := hnotice c rest (by rw [hstack]; rfl) hbackground
          rw [he] at this
          cases this
      · cases hbackground
    have hprogram : e.isNotice = false → (∀ uri, e ≠ .construct uri) →
        wp sealing.contract pocoSocket (program n e)
          (fun _ w' => AlmostSealed (w'.left e (.ok ())) ∧
            sealing.rel (sealing.background w) w (w'.left e (.ok ())))
          (fun x w' => AlmostSealed (w'.left e (.error x)) ∧
            sealing.rel (sealing.background w) w (w'.left e (.error x))) w := by
      intro he hconstruct
      apply Reentrant.wp_mono
        (seals_program e he hconstruct w (hsealed (by rintro rfl; cases he)))
      · exact fun _ w' hw' => happlication he w' _ hw'
      · exact fun x w' hw' => happlication he w' _ hw'
    cases e with
    | onOpen =>
        apply Reentrant.wp_mono (wp_onOpen_sealed (hsealed nofun) (hnever (.inr rfl)))
        · exact fun _ w' hw' => hstays w' _ hw'
        · exact fun x w' hw' => hstays w' _ hw'
    | onClose =>
        apply Reentrant.wp_mono (wp_onClose_sealed hinv (by rw [htrace]; rfl))
        · exact fun _ w' hw' => hstays w' _ hw'
        · exact fun x w' hw' => hstays w' _ hw'
    | onError error =>
        apply Reentrant.wp_mono (wp_onClose_sealed hinv (by rw [htrace]; rfl))
        · exact fun _ w' hw' => hstays w' _ hw'
        · exact fun x w' hw' => hstays w' _ hw'
    | construct uri =>
        apply Reentrant.wp_mono (wp_construct_sealed (hsealed nofun) (hnever (.inl ⟨uri, rfl⟩)))
        · exact fun _ w' hw' => happlication rfl w' _ hw'
        · exact fun x w' hw' => happlication rfl w' _ hw'
    | _ => exact hprogram rfl nofun

omit [Build] in
theorem Sealed.harmless {newer older : List Item} (h : Sealed (newer ++ .call .wsClose :: older))
    {a b : List Item} {i : Item} (hnewer : newer = a ++ i :: b) :
    Harmless (b ++ .call .wsClose :: older) i := by
  subst hnewer
  induction a with
  | nil => exact h.1 (List.mem_append_right _ (List.mem_cons_self ..))
  | cons j a ih => exact ih h.2

/-- Once the client has closed its socket, neither it nor the socket opens it again, the
state is `CLOSED` or `ERROR` as soon as closing has returned and whenever it changes, and
only messages about the connection are handed to the socket. -/
theorem closed_for_good (n : Nat) (uri : Buffer) (cfg : Reentrant.Config interface)
    (hreach : Reaches pocoSocket n uri cfg) (hrunning : cfg.fault = none)
    (newer older : List Item) (htrace : cfg.world.trace = newer ++ .call .wsClose :: older) :
    .call .wsOpen ∉ newer ∧ .enter .onOpen ∉ newer ∧
      (∀ a b uri', newer = a ++ .call (.setUri uri') :: b →
        socketOpen (b ++ .call .wsClose :: older) = false) ∧
      (∀ m buffer, .call (.wsSend m buffer) ∈ newer → m.header.topic = .connection) ∧
      (∀ c, .note (.became c) ∈ newer → c.state = .closed ∨ c.state = .error) ∧
      (newer ≠ [] → cfg.world.state.state = .closed ∨ cfg.world.state.state = .error) := by
  have hmain : sealing.inv false (Reentrant.World.entered { state := {} } (.construct uri)) :=
    ⟨⟨nofun, trivial⟩, nofun, nofun⟩
  have hholds := sealing_sound.holds ⟨trivial, nofun, nofun⟩
    ⟨hmain, ⟨_, rfl⟩, fun _ => nofun, fun _ _ h => absurd h.symm (List.cons_ne_nil _ _)⟩ hreach
  unfold Regime.Holds at hholds
  rw [hrunning] at hholds
  obtain ⟨hpaused, hcases⟩ := hholds
  have hsealed : AlmostSealed cfg.world := by
    cases hcases with
    | inl h => exact h.2
    | inr h =>
        obtain ⟨c, rest, -, hinv⟩ := h
        exact hinv
  have hhistory := hsealed.history
  rw [htrace] at hhistory
  have hmem : ∀ i, i ∈ newer → ∃ t, Harmless t i := by
    intro i hi
    obtain ⟨a, b, hnewer⟩ := List.append_of_mem hi
    exact ⟨_, hhistory.harmless hnewer⟩
  have hstate : newer ≠ [] → Shut cfg.world := by
    intro hne
    apply hsealed.shut
    rw [htrace]
    cases newer with
    | nil => exact absurd rfl hne
    | cons i newer =>
        have hclosed : .call .wsClose ∈ newer ++ .call .wsClose :: older :=
          List.mem_append_right _ (List.mem_cons_self ..)
        unfold beforeClosing
        split
        · next h =>
            cases h
            exact hclosed
        · next h =>
            obtain ⟨rfl, -⟩ := List.cons.inj h
            exact absurd (by rw [htrace]; rfl) (hpaused .onClose)
        · exact List.mem_cons_of_mem _ hclosed
  refine ⟨?_, ?_, ?_, ?_, ?_, fun hne => (hstate hne).state⟩
  · exact fun hi => (hmem _ hi).elim fun _ h => h
  · exact fun hi => (hmem _ hi).elim fun _ h => h
  · exact fun a b uri' hnewer => hhistory.harmless hnewer
  · exact fun m buffer hi => (hmem _ hi).elim fun _ h => h
  · exact fun c hi => (hmem _ hi).elim fun _ h => h

end Handlers
end Programs
/-- A client in `OPEN` that is closed by its user and is sent a ping that was under way -/
def closedByUser : List (Reentrant.Move interface) :=
  loggedIn ++ [.enter .close, .enter .onClose, accept, receive "C|PI+"]

def Closing.closes : Item → Bool
  | .call .wsClose => true
  | _ => false

open Closing in
theorem exists_of_closes {t : List Item} (h : t.tail.any closes = true) :
    ∃ newer older, newer ≠ [] ∧ t = newer ++ .call .wsClose :: older := by
  cases t with
  | nil => cases h
  | cons first t =>
      obtain ⟨i, hmem, hi⟩ := List.any_eq_true.mp h
      obtain ⟨newer, older, hsplit⟩ := List.append_of_mem hmem
      unfold closes at hi
      split at hi
      · exact ⟨first :: newer, older, List.cons_ne_nil _ _, congrArg (List.cons first) hsplit⟩
      · cases hi

theorem closed_for_good_closedByUser : let _ : Build := release
    ∃ cfg newer older, Reaches pocoSocket 9 [] cfg ∧
      cfg.world.trace = newer ++ .call .wsClose :: older ∧ .call .wsOpen ∉ newer ∧
      (cfg.world.state.state = .closed ∨ cfg.world.state.state = .error) := by
  intro _
  let cfg := after 9 [] closedByUser
  have hreach : Reaches pocoSocket 9 [] cfg := by
    apply Reentrant.reachable_run
    decide +kernel
  have hrunning : cfg.fault = none := by decide +kernel
  have hcloses : cfg.world.trace.tail.any Closing.closes = true := by decide +kernel
  clear_value cfg
  obtain ⟨newer, older, hne, htrace⟩ := exists_of_closes hcloses
  obtain ⟨hopen, -, -, -, -, hstate⟩ :=
    closed_for_good 9 [] cfg hreach hrunning newer older htrace
  exact ⟨cfg, newer, older, hreach, htrace, hopen, hstate hne⟩

end Deepstream
