import Deepstream.Outgoing
import Deepstream.Pairing
import Deepstream.Reentrant.Memory

/-!
The handshake as a protocol of its own.

A connection changes its state because its socket opened or was lost, because of
the message that it is handling, or because of a message that it is about to
send. Every run of a client, whatever its environment does, is a run of this
protocol, and says nothing to the server that the protocol does not permit.
-/

namespace Deepstream

open Program (leave)
open Reentrant (Keeps Policy Prog Regime memories wp)

/-- Why a connection changes its state -/
inductive Cause where
  | opened
  | lost
  | received (h : Header)
  | sending (h : Header)

/-- The changes of state of the protocol -/
inductive Moves : ConnectionState → Cause → ConnectionState → Prop where
  | opened (s : ConnectionState) : Moves s .opened .awaitConnection
  | closed (s : ConnectionState) : Moves s .lost .closed
  | reconnecting (s : ConnectionState) : Moves s .lost .reconnecting
  | received {s s' : ConnectionState} {h : Header} (hin : Incomes s h.topic h.action s') :
      Moves s (.received h) s'
  | unexpected (s : ConnectionState) {h : Header} (hh : h.topic = .connection ∨ h.topic = .auth) :
      Moves s (.received h) .error
  | sending {s s' : ConnectionState} {h : Header} (hout : Outgoes s h.topic h.action s') :
      Moves s (.sending h) s'

/-- The message that is being handled, after a note -/
def Note.handling : Note → Option Header → Option Header
  | .dispatched m _, _ => some m.header
  | _, header => header

/-- The message that each entry handles which has not ended, innermost first -/
def handlings (t : List Item) : List (Option Header) :=
  memories (I := interface) none Note.handling t

/-- Why the state changes right after some history -/
def causeOf : List Item → Option Cause
  | .note (.sending m) :: _ => some (.sending m.header)
  | .enter .onOpen :: _ => some .opened
  | .enter .onClose :: _ | .enter (.onError _) :: _ => some .lost
  | t => ((handlings t).head?.join).map .received

/-- The messages that may be handed to the socket right after some history: one whose sending has
just changed the state, or one that does not change it -/
inductive Hands : List Item → MessageBuilder → Prop where
  | handshake (c : Client) (m : MessageBuilder) (t : List Item) :
      Hands (.note (.became c) :: .note (.sending m) :: t) m
  | pong (t : List Item) (m : MessageBuilder)
      (hm : m.header.topic = .connection ∧ m.header.action = .pong) : Hands t m
  | aside (t : List Item) (m : MessageBuilder)
      (hm : m.header.topic = .event ∨ m.header.topic = .presence)
      (hopen : stateOf t = .open) : Hands t m

/-- All changes of state are those of the protocol, and so are the messages. -/
def Lawful : List Item → Prop
  | [] => True
  | .note (.became c) :: t => (c.state ≠ stateOf t ∧
      ∃ cause, causeOf t = some cause ∧ Moves (stateOf t) cause c.state) ∧ Lawful t
  | .call (.wsSend m _) :: t => Hands t m ∧ Lawful t
  | _ :: t => Lawful t

/-- Neither a change of state nor a message for the socket -/
def Item.IsSilent : Item → Prop
  | .note (.became _) | .call (.wsSend _ _) => False
  | _ => True

/-- Nothing about the entries and the messages they handle -/
def Item.IsInner : Item → Prop
  | .enter _ | .leave _ _ | .note (.dispatched _ _) => False
  | _ => True

/-- The last that happened is no cause of its own. -/
def Settled : List Item → Prop
  | .note (.sending _) :: _ | .enter _ :: _ => False
  | _ => True

/-- Only a heartbeat leaves the state as it is. -/
theorem Outgoes.pong_or_changes {state s : ConnectionState} {topic : Topic} {action : Action}
    (h : Outgoes state topic action s) : (topic = .connection ∧ action = .pong) ∨ s ≠ state := by
  cases h with
  | pong => exact .inl ⟨rfl, rfl⟩
  | challengeResponse | request => exact .inr (by decide)

theorem handlings_cons {i : Item} (t : List Item) (hi : i.IsInner) :
    handlings (i :: t) = handlings t := by
  cases i with
  | enter | leave => exact hi.elim
  | call | back => rfl
  | note n =>
      cases n with
      | dispatched => exact hi.elim
      | _ => exact congrFun List.modifyHead_id _

theorem handlings_interrupted {t : List Item} (h : Reentrant.Interrupted t) (u : List Item) :
    handlings (t ++ u) = handlings u :=
  Reentrant.memories_interrupted (I := interface) none Note.handling h u

theorem stateOf_cons {i : Item} (t : List Item) (hi : ∀ c, i ≠ .note (.became c)) :
    stateOf (i :: t) = stateOf t := by
  cases i with
  | note n =>
      cases n with
      | became c => exact absurd rfl (hi c)
      | _ => rfl
  | _ => rfl

theorem lawful_cons {i : Item} {t : List Item} (hi : i.IsSilent) (h : Lawful t) :
    Lawful (i :: t) := by
  cases i with
  | note n =>
      cases n with
      | became => exact hi.elim
      | _ => exact h
  | call c =>
      cases c with
      | wsSend => exact hi.elim
      | _ => exact h
  | _ => exact h

theorem lawful_of_cons {i : Item} {t : List Item} (h : Lawful (i :: t)) : Lawful t := by
  cases i with
  | note n =>
      cases n with
      | became => exact h.2
      | _ => exact h
  | call c =>
      cases c with
      | wsSend => exact h.2
      | _ => exact h
  | _ => exact h

theorem lawful_of_append {newer older : List Item} (h : Lawful (newer ++ older)) :
    Lawful older := by
  induction newer with
  | nil => exact h
  | cons i newer ih => exact ih (lawful_of_cons h)

/-- A message is being handled, and the last that happened was something else. -/
theorem causeOf_settled {t : List Item} (h : Settled t) {header : Header}
    {levels : List (Option Header)} (hlevels : handlings t = some header :: levels) :
    causeOf t = some (.received header) := by
  unfold causeOf
  split
  · exact h.elim
  · exact h.elim
  · exact h.elim
  · exact h.elim
  · rw [hlevels]
    rfl

/-- What is true of a client at any moment -/
structure IsLawful (levels : List (Option Header)) (w : World) : Prop where
  atLevels : handlings w.trace = levels
  lawful : Lawful w.trace
  state : stateOf w.trace = w.state.state

def lawfulness : Regime interface where
  quiet _ := false
  inv _ w := Lawful w.trace ∧ stateOf w.trace = w.state.state
  rel _ _ _ := True
  pre e w := ∃ t, w.trace = .enter e :: t
  abort _ w := Lawful w.trace ∧ stateOf w.trace = w.state.state

section Programs
variable {P : Policy interface} {levels : List (Option Header)} {α : Type}

theorem IsLawful.inv {w : World} (h : IsLawful levels w) :
    Lawful w.trace ∧ stateOf w.trace = w.state.state :=
  ⟨h.lawful, h.state⟩

variable (P levels) in
abbrev IsLawfully (p : Program α) : Prop :=
  Keeps lawfulness.contract P (IsLawful levels) p

/-- Something has happened that is neither an entry nor a change of state. -/
theorem IsLawful.cons {w w' : World} (h : IsLawful levels w) {i : Item}
    (htrace : w'.trace = i :: w.trace) (hinner : i.IsInner) (hchange : ∀ c, i ≠ .note (.became c))
    (hlawful : Lawful (i :: w.trace)) (hstate : w'.state.state = w.state.state) :
    IsLawful levels w' := by
  constructor
  · rw [htrace, handlings_cons _ hinner, h.atLevels]
  · rw [htrace]
    exact hlawful
  · rw [htrace, stateOf_cons _ hchange, h.state, hstate]

theorem IsLawful.became {w : World} (h : IsLawful levels w) {s : ConnectionState} {cause : Cause}
    (hcause : causeOf w.trace = some cause) (hmoves : Moves w.state.state cause s)
    (hne : s ≠ w.state.state) :
    IsLawful levels (Reentrant.World.noted { w with state := { w.state with state := s } }
      (.became { w.state with state := s })) := by
  constructor
  · exact (handlings_cons w.trace (i := .note (.became _)) trivial).trans h.atLevels
  · rw [← h.state] at hmoves hne
    exact ⟨⟨hne, cause, hcause, hmoves⟩, h.lawful⟩
  · rfl

theorem lawfully_modify {f : Client → Client} (hf : ∀ c, (f c).state = c.state) :
    IsLawfully P levels (Prog.modify f) :=
  Reentrant.keeps_modify fun w hw => ⟨hw.atLevels, hw.lawful, hw.state.trans (hf w.state).symm⟩

theorem lawfully_leave {n : Note} (hinner : Item.IsInner (.note n))
    (hsilent : Item.IsSilent (.note n)) : IsLawfully P levels (Program.leave n) := by
  apply Reentrant.keeps_leave
  intro w hw
  apply hw.cons rfl hinner
  · rintro c ⟨⟩
    exact hsilent
  · exact lawful_cons hsilent hw.lawful
  · rfl

/-- A call returns to a world in which the message that is being handled is the same. -/
theorem wp_ask_lawful {c : Call} {w : World} (hw : IsLawful levels w)
    (hlawful : Lawful (.call c :: w.trace)) {Q : c.Answer → World → Prop}
    {E : Exception → World → Prop}
    (hQ : ∀ a w', IsLawful levels w' → Settled w'.trace → Q a w')
    (hE : ∀ x w', IsLawful levels w' → Settled w'.trace → E x w') :
    wp lawfulness.contract P (Program.ask c) Q E w := by
  have hcalling : IsLawful levels (Reentrant.World.calling w c) := by
    apply hw.cons (i := .call c) rfl trivial
    · rintro _ ⟨⟩
    · exact hlawful
    · rfl
  apply Reentrant.wp_ask
  · exact ⟨hcalling.inv, _, rfl⟩
  · intro w' hduring hafter
    have hlevels : handlings w'.trace = levels := by
      obtain ⟨t, hentries, ht⟩ := hduring.entries
      rw [ht, handlings_interrupted hentries]
      exact hcalling.atLevels
    have hw' : IsLawful levels w' := ⟨hlevels, hafter.1.1, hafter.1.2⟩
    have hreturned : ∀ r, IsLawful levels (w'.returned c r) := by
      intro r
      apply hw'.cons (i := .back c r) rfl trivial
      · rintro _ ⟨⟩
      · exact lawful_cons (i := .back c r) trivial hw'.lawful
      · rfl
    exact ⟨fun a _ => hQ a _ (hreturned _) trivial, fun x _ => hE x _ (hreturned _) trivial⟩

theorem lawfully_ask {c : Call} (hc : Item.IsSilent (.call c)) :
    IsLawfully P levels (Program.ask c) :=
  fun _ hw => wp_ask_lawful hw (lawful_cons hc hw.lawful) (fun _ _ h _ => h) fun _ _ h _ => h

theorem routine_lawful : Routine lawfulness.contract P (IsLawful levels) where
  abort _ _ hw := hw.inv
  ask c hc := by
    apply lawfully_ask
    cases c with
    | wsSend => cases hc
    | _ => trivial
  nextId := Reentrant.keeps_read_bind fun _ =>
    Reentrant.keeps_bind (lawfully_modify fun _ => rfl) fun _ => Reentrant.keeps_pure _

theorem wp_handAside_lawful (m : MessageBuilder) (buffer : Buffer) {w : World}
    (hm : m.header.topic = .event ∨ m.header.topic = .presence) (hopen : w.state.state = .open)
    (hw : IsLawful levels w) :
    wp lawfulness.contract P (Program.ask (.wsSend m buffer)) (fun _ => IsLawful levels)
      (fun _ => IsLawful levels) w := by
  apply wp_ask_lawful hw
  · exact ⟨.aside _ m hm (hw.state.trans hopen), hw.lawful⟩
  · exact fun _ _ h _ => h
  · exact fun _ _ h _ => h

theorem aside_lawful : Aside lawfulness.contract P (IsLawful levels) where
  routine := routine_lawful
  modifyEvent _ := lawfully_modify fun _ => rfl
  modifyPresence _ := lawfully_modify fun _ => rfl
  queryFn _ _ := lawfully_ask trivial
  emitted _ := lawfully_leave trivial trivial
  sending _ := lawfully_leave trivial trivial
  handEvent m buffer _ hm hopen hw := wp_handAside_lawful m buffer (.inl hm) hopen hw
  handPresence m buffer _ hm hopen hw := wp_handAside_lawful m buffer (.inr hm) hopen hw

theorem socketRoutine_lawful : SocketRoutine lawfulness.contract P (IsLawful levels) where
  setUri _ := lawfully_ask trivial
  wsOpen := lawfully_ask trivial
  close := Connection.keeps_close (lawfully_modify fun _ => rfl) (lawfully_ask trivial)
  attempt _ := lawfully_modify fun _ => rfl

section Handlers
variable [Build] {n : Nat}

/-- A change of state that has a cause -/
theorem wp_setState_lawful {s : ConnectionState} {w : World} (hw : IsLawful levels w)
    {cause : Cause} (hcause : causeOf w.trace = some cause) (hmoves : Moves w.state.state cause s) :
    wp lawfulness.contract P (Connection.setState n s) (fun _ => IsLawful levels)
      (fun _ => IsLawful levels) w :=
  aside_lawful.wp_setState (fun _ => hw) (hw.became hcause hmoves)

/-- A change to a state other than `OPEN` makes no calls, so it can be told from the history that
it has just happened. -/
theorem wp_setState_sending {m : MessageBuilder} {s : ConnectionState} {w : World}
    (hw : IsLawful levels w) (htrace : ∃ t, w.trace = .note (.sending m) :: t)
    (hout : Outgoes w.state.state m.header.topic m.header.action s) :
    wp lawfulness.contract P (Connection.setState n s)
      (fun _ w' => IsLawful levels w' ∧ Hands w'.trace m) (fun _ => IsLawful levels) w := by
  obtain ⟨t, htrace⟩ := htrace
  have hcause : causeOf w.trace = some (.sending m.header) := by
    rw [htrace]
    rfl
  have hbecame := hw.became hcause (.sending hout)
  unfold Connection.setState
  rw [Reentrant.wp_bind, Reentrant.wp_read, wp_when]
  refine ⟨fun hne => ?_, fun hsame => ⟨hw, ?_⟩⟩
  · cases n with
    | zero => exact (hbecame hne).inv
    | succ n =>
        change wp _ P (Event.onConnectionStateChange _ n s) _ _ _
        unfold Event.onConnectionStateChange
        rw [wp_when]
        refine ⟨fun hopen => absurd (hopen.trans (hout.open hopen).symm) hne, fun _ => ?_⟩
        refine ⟨hbecame hne, ?_⟩
        change Hands (.note (.became _) :: w.trace) m
        rw [htrace]
        exact .handshake _ m t
  · cases hout.pong_or_changes with
    | inl hpong => exact .pong _ m hpong
    | inr hne => exact absurd hne hsame

/-- A message of the handshake is handed over right after it has changed the state. -/
theorem lawfully_send (m : MessageBuilder)
    (hm : m.header.topic = .connection ∨ m.header.topic = .auth) :
    IsLawfully P levels (Connection.send n m) := by
  intro w hw
  unfold Connection.send Connection.sendWith
  rw [Reentrant.wp_bind, wp_leave, Reentrant.wp_bind]
  have hnoted : IsLawful levels (Reentrant.World.noted w (.sending m)) :=
    (aside_lawful (P := P)).sending m w hw
  generalize hw' : Reentrant.World.noted w (.sending m) = w' at hnoted
  have htrace : ∃ t, w'.trace = .note (.sending m) :: t := ⟨w.trace, by rw [← hw']; rfl⟩
  apply wp_debugMsg_of fun _ => hnoted.inv
  rw [Reentrant.wp_bind, Reentrant.wp_read, if_pos hm, Reentrant.wp_bind]
  have hrefuse : ∀ s : ConnectionState, IsLawfully P levels (do
      leave (.refused m)
      Program.assert .connection "new_state != ConnectionState::ERROR" (s ≠ .error)
      (Prog.raise (.logicError "Invalid client state transition") : Program Bool)) := fun s =>
    Reentrant.keeps_bind (lawfully_leave trivial trivial) fun _ =>
      Reentrant.keeps_bind (routine_lawful.assert _ _ _) fun _ => Reentrant.keeps_raise _
  apply wp_lift
  · intro s hs
    rw [Reentrant.wp_bind, wp_when]
    refine ⟨fun herror => ?_, fun hne => ?_⟩
    · rw [if_pos herror]
      exact (Reentrant.wp_bind _ _ _ _ _).mp (hrefuse s w' hnoted)
    · have hout := (transitionOutgoing_eq_ok hs).2.resolve_right fun h => hne h.1
      rw [Reentrant.wp_bind, wp_assert _ _ _ hne, if_neg hne, Reentrant.wp_bind]
      apply Reentrant.wp_mono (wp_setState_sending hnoted htrace hout)
      · rintro _ w₁ ⟨hw₁, hhands⟩
        unfold Connection.transmit
        rw [Reentrant.wp_bind]
        apply wp_lift
        · intro buffer _
          apply wp_ask_lawful (c := .wsSend m buffer) hw₁ ⟨hhands, hw₁.lawful⟩
          · exact fun _ _ h _ => h
          · exact fun _ _ h _ => h
        · exact fun _ _ => hw₁
        · exact fun _ _ => hw₁.inv
      · exact fun _ _ h => h
  · exact fun _ _ => hnoted
  · exact fun _ _ => hnoted.inv

theorem handshakes_lawful : Handshakes lawfulness.contract P (IsLawful levels) n where
  pong m := lawfully_send m.val (.inl (congrArg Header.topic m.property.1))
  challengeResponse _ m := lawfully_send m.val (.inl (congrArg Header.topic m.property.1))
  authenticationRequest :=
    Connection.keeps_sendAuthenticationRequest routine_lawful fun m hm => lawfully_send m (.inr hm)

end Handlers

/-- A message is being handled, and no cause of its own has happened since. -/
structure IsHandling (header : Header) (levels : List (Option Header)) (w : World) : Prop extends
    IsLawful (some header :: levels) w where
  settled : Settled w.trace

section Handling
variable {header : Header}

theorem handling_modify {f : Client → Client} (hf : ∀ c, (f c).state = c.state) :
    Keeps lawfulness.contract P (IsHandling header levels) (Prog.modify f) :=
  Reentrant.keeps_modify fun w hw =>
    ⟨⟨hw.atLevels, hw.lawful, hw.state.trans (hf w.state).symm⟩, hw.settled⟩

theorem handling_ask {c : Call} (hc : Item.IsSilent (.call c)) :
    Keeps lawfulness.contract P (IsHandling header levels) (Program.ask c) :=
  fun _ hw => wp_ask_lawful hw.toIsLawful (lawful_cons hc hw.lawful)
    (fun _ _ hlawful hsettled => ⟨hlawful, hsettled⟩)
    fun _ _ hlawful hsettled => ⟨hlawful, hsettled⟩

theorem routine_handling : Routine lawfulness.contract P (IsHandling header levels) where
  abort _ _ hw := hw.inv
  ask c hc := by
    apply handling_ask
    cases c with
    | wsSend => cases hc
    | _ => trivial
  nextId := Reentrant.keeps_read_bind fun _ =>
    Reentrant.keeps_bind (handling_modify fun _ => rfl) fun _ => Reentrant.keeps_pure _

variable [Build] {n : Nat}

/-- The message that is being handled is the cause of what `transition_incoming` says. -/
theorem wp_transition_lawful {m : MessageProxy} {w : World}
    (hm : m.header.topic = .connection ∨ m.header.topic = .auth)
    (hw : IsHandling m.header levels w) :
    wp lawfulness.contract P (Connection.transition n m)
      (fun _ => IsLawful (some m.header :: levels)) (fun _ => IsLawful (some m.header :: levels))
      w := by
  unfold Connection.transition
  rw [Reentrant.wp_bind, Reentrant.wp_read, Reentrant.wp_bind]
  apply wp_lift
  · intro s hs
    rw [Reentrant.wp_bind, wp_when]
    refine ⟨fun herror => ?_, fun hne => ?_⟩
    · apply Reentrant.wp_mono (routine_handling.report _ w hw)
      · intro _ w' hw'
        have hcause := causeOf_settled hw'.settled hw'.atLevels
        rw [herror]
        exact wp_setState_lawful hw'.toIsLawful hcause (.unexpected _ hm)
      · exact fun _ _ h => h.toIsLawful
    · have hcause := causeOf_settled hw.settled hw.atLevels
      have hin := (transitionIncoming_eq_ok hs).2.resolve_right fun h => hne h.1
      exact wp_setState_lawful hw.toIsLawful hcause (.received hin)
  · exact fun _ _ => hw.toIsLawful
  · exact fun _ _ => hw.inv

/-- The handling of a message -/
theorem wp_handleMessage_lawful {x : Option Header} {w : World} (hw : IsLawful (x :: levels) w)
    (m : MessageProxy) :
    wp lawfulness.contract P (Connection.handleMessage n m)
      (fun _ w' => ∃ y, IsLawful (y :: levels) w') (fun _ w' => ∃ y, IsLawful (y :: levels) w')
      w := by
  have hnoted : IsHandling m.header levels (w.noted (.dispatched m w.state)) := by
    refine ⟨⟨?_, hw.lawful, hw.state⟩, trivial⟩
    change (handlings w.trace).modifyHead (Note.handling (.dispatched m w.state)) = _
    rw [hw.atLevels]
    rfl
  have hdone : ∀ (_ : Unit) (w' : World), IsLawful (some m.header :: levels) w' →
      ∃ y, IsLawful (y :: levels) w' := fun _ _ h => ⟨_, h⟩
  unfold Connection.handleMessage
  rw [Reentrant.wp_bind, Reentrant.wp_read, Reentrant.wp_bind, wp_leave, Reentrant.wp_bind]
  generalize w.noted (.dispatched m w.state) = w' at hnoted
  have hlawful : IsLawful (some m.header :: levels) w' := hnoted.toIsLawful
  apply wp_debugMsg_of fun _ => hnoted.inv
  have haside : Aside lawfulness.contract P (IsLawful (some m.header :: levels)) := aside_lawful
  suffices hkept : wp lawfulness.contract P _ (fun _ => IsLawful (some m.header :: levels))
      (fun _ => IsLawful (some m.header :: levels)) w' from
    Reentrant.wp_mono hkept hdone fun _ _ h => ⟨_, h⟩
  split
  · exact Event.keeps_notify routine_lawful.toSubscriberRoutine
      (fun _ => haside.modifyEvent _) m.view
      (fun _ => haside.toEventAside.sendWith _) w' hlawful
  · exact Presence.keeps_notify routine_lawful.toSubscriberRoutine m.view (fun _ => haside.modifyPresence _)
      (fun _ => haside.queryFn) (fun _ => haside.modifyPresence _) w' hlawful
  · next htopic =>
      unfold Connection.handleConnectionResponse
      rw [Reentrant.wp_bind]
      apply Reentrant.wp_mono (wp_transition_lawful (.inl htopic) hnoted)
      · exact fun _ => Connection.keeps_connectionAction routine_lawful handshakes_lawful m
          fun _ => lawfully_ask trivial
      · exact fun _ _ h => h
  · next htopic =>
      unfold Connection.handleAuthenticationResponse
      rw [Reentrant.wp_bind]
      have haction : Keeps lawfulness.contract P (IsHandling m.header levels)
          (Connection.authenticationAction m) :=
        Connection.keeps_authenticationAction routine_handling
          (Connection.keeps_close (handling_modify fun _ => rfl) (handling_ask trivial)) m
          fun _ _ _ => handling_ask trivial
      apply Reentrant.wp_mono (haction w' hnoted)
      · exact fun _ _ => wp_transition_lawful (.inr htopic)
      · exact fun _ _ h => h.toIsLawful
  · have hreport : IsLawfully P (some m.header :: levels) (do
        Program.report (.unsolicited m.header)
        Program.assert .connection "0" False) :=
      Reentrant.keeps_bind (routine_lawful.report _) fun _ => routine_lawful.assert _ _ _
    exact hreport w' hlawful

end Handling

section Entries
variable [Build] {n : Nat}

/-- The messages of a buffer are handled one after another. -/
theorem lawfully_onMessage (raw : Buffer) :
    Keeps lawfulness.contract P (fun w => ∃ y, IsLawful (y :: levels) w)
      (Connection.onMessage n raw) := by
  have hroutine : Routine lawfulness.contract P fun w => ∃ y, IsLawful (y :: levels) w := {
    abort := fun _ _ ⟨_, hw⟩ => hw.inv
    ask := fun c hc w ⟨y, hw⟩ =>
      Reentrant.wp_mono (routine_lawful.ask c hc w hw) (fun _ _ h => ⟨y, h⟩) fun _ _ h => ⟨y, h⟩
    nextId := fun w ⟨y, hw⟩ =>
      Reentrant.wp_mono (routine_lawful.nextId w hw) (fun _ _ h => ⟨y, h⟩) fun _ _ h => ⟨y, h⟩ }
  exact Connection.keeps_onMessage hroutine raw fun m w ⟨_, hw⟩ => wp_handleMessage_lawful hw m

/-- The socket has opened. -/
theorem wp_onOpen_lawful {w : World} (hw : IsLawful levels w)
    (hcause : causeOf w.trace = some .opened) :
    wp lawfulness.contract P (Connection.onOpen n) (fun _ => IsLawful levels)
      (fun _ => IsLawful levels) w := by
  unfold Connection.onOpen
  rw [Reentrant.wp_bind, Reentrant.wp_modify]
  exact wp_setState_lawful ⟨hw.atLevels, hw.lawful, hw.state⟩ hcause (.opened _)

/-- The socket was lost. -/
theorem wp_onClose_lawful {w : World} (hw : IsLawful levels w)
    (hcause : causeOf w.trace = some .lost) :
    wp lawfulness.contract P (Connection.onClose n) (fun _ => IsLawful levels)
      (fun _ => IsLawful levels) w := by
  unfold Connection.onClose
  rw [Reentrant.wp_bind, Reentrant.wp_read]
  split
  · exact wp_setState_lawful hw hcause (.closed _)
  · rw [Reentrant.wp_bind, Reentrant.wp_modify, Reentrant.wp_bind]
    have hcounted : IsLawful levels { w with state := { w.state with
        reconnectionAttempt := w.state.reconnectionAttempt + 1 } } :=
      ⟨hw.atLevels, hw.lawful, hw.state⟩
    apply Reentrant.wp_mono (wp_setState_lawful hcounted hcause (.reconnecting _))
    · exact fun _ w' hw' => socketRoutine_lawful.wsOpen w' hw'
    · exact fun _ _ h => h

theorem wp_program_lawful (e : Entry) {w : World} (hw : IsLawful (none :: levels) w)
    (htrace : ∃ t, w.trace = .enter e :: t) :
    wp lawfulness.contract P (program n e) (fun _ w' => ∃ y, IsLawful (y :: levels) w')
      (fun _ w' => ∃ y, IsLawful (y :: levels) w') w := by
  obtain ⟨t, htrace⟩ := htrace
  have hdone : ∀ p : Program Unit, wp lawfulness.contract P p (fun _ => IsLawful (none :: levels))
      (fun _ => IsLawful (none :: levels)) w →
      wp lawfulness.contract P p (fun _ w' => ∃ y, IsLawful (y :: levels) w')
        (fun _ w' => ∃ y, IsLawful (y :: levels) w') w :=
    fun p h => Reentrant.wp_mono h (fun _ _ h => ⟨_, h⟩) fun _ _ h => ⟨_, h⟩
  cases e with
  | onMessage raw => exact lawfully_onMessage raw w ⟨none, hw⟩
  | onOpen =>
      apply hdone
      exact wp_onOpen_lawful hw (by rw [htrace]; rfl)
  | onClose =>
      apply hdone
      exact wp_onClose_lawful hw (by rw [htrace]; rfl)
  | onError error =>
      apply hdone
      exact wp_onClose_lawful hw (by rw [htrace]; rfl)
  | construct uri =>
      apply hdone
      exact Connection.keeps_construct routine_lawful socketRoutine_lawful uri w hw
  | login auth callback =>
      apply hdone
      exact Connection.keeps_login handshakes_lawful.authenticationRequest auth callback
        (lawfully_modify fun _ => rfl) w hw
  | close =>
      apply hdone
      exact socketRoutine_lawful.close w hw
  | _ =>
      apply hdone
      refine aside_lawful.program n _ ?_ w hw
      trivial

theorem lawfulness_sound : lawfulness.Sound P (program n) where
  refl _ _ := trivial
  trans _ _ _ _ _ _ := trivial
  enter w c e _ hinv _ := ⟨hinv, trivial, w.trace, rfl⟩
  entry e w hinv hpre := by
    have hw : IsLawful (none :: handlings w.trace.tail) w := by
      obtain ⟨t, htrace⟩ := hpre
      refine ⟨?_, hinv.1, hinv.2⟩
      rw [htrace]
      rfl
    have hleft : ∀ r, ∀ w' : World, (∃ y, IsLawful (y :: handlings w.trace.tail) w') →
        lawfulness.inv (lawfulness.background w) (w'.left e r) ∧
          lawfulness.rel (lawfulness.background w) w (w'.left e r) :=
      fun r w' ⟨_, hw'⟩ => ⟨hw'.inv, trivial⟩
    exact Reentrant.wp_mono (wp_program_lawful e hw hpre) (fun _ => hleft _) fun _ => hleft _

end Entries
end Programs

theorem lawful_of_reaches [Build] {P : Policy interface} {n : Nat} {uri : Buffer}
    {cfg : Reentrant.Config interface} (hreach : Reaches P n uri cfg) :
    Lawful cfg.world.trace ∧ stateOf cfg.world.trace = cfg.world.state.state := by
  have hholds := (lawfulness_sound (P := P)).holds ⟨trivial, rfl⟩
    ⟨⟨trivial, rfl⟩, ⟨_, rfl⟩⟩ hreach
  unfold Regime.Holds at hholds
  split at hholds
  · exact hholds
  · obtain ⟨-, ⟨-, h⟩ | ⟨_, _, -, h⟩⟩ := hholds
    · exact h
    · exact h

/-- Every run of a client, in any environment, is a run of the protocol: each change of state has
its cause, and each message is handed over where it may be. -/
theorem transitions_lawful [Build] (P : Policy interface) (n : Nat) (uri : Buffer)
    (cfg : Reentrant.Config interface) (hreach : Reaches P n uri cfg) :
    stateOf cfg.world.trace = cfg.world.state.state ∧
      (∀ newer c older, cfg.world.trace = newer ++ .note (.became c) :: older →
        c.state ≠ stateOf older ∧
          ∃ cause, causeOf older = some cause ∧ Moves (stateOf older) cause c.state) ∧
      ∀ newer m buffer older, cfg.world.trace = newer ++ .call (.wsSend m buffer) :: older →
        Hands older m := by
  obtain ⟨hlawful, hstate⟩ := lawful_of_reaches hreach
  refine ⟨hstate, fun newer c older htrace => ?_, fun newer m buffer older htrace => ?_⟩
  · rw [htrace] at hlawful
    exact (lawful_of_append hlawful).1
  · rw [htrace] at hlawful
    exact (lawful_of_append hlawful).1

theorem transitions_lawful_loggedIn : ∃ cfg : Reentrant.Config interface,
    @Reaches release (.any interface) 9 [] cfg ∧ cfg.world.state.state = .open ∧
    stateOf cfg.world.trace = cfg.world.state.state ∧
      (∀ newer c older, cfg.world.trace = newer ++ .note (.became c) :: older →
        c.state ≠ stateOf older ∧
          ∃ cause, causeOf older = some cause ∧ Moves (stateOf older) cause c.state) ∧
      ∀ newer m buffer older, cfg.world.trace = newer ++ .call (.wsSend m buffer) :: older →
        Hands older m :=
  have hreach := @reaches_after release 9 [] loggedIn
  ⟨_, hreach, by decide +kernel, @transitions_lawful release (.any interface) 9 [] _ hreach⟩

section Order

/-- Where a message has its place: the answer to the challenge, requests, and anything else that
is no answer to a ping -/
def Header.rank (h : Header) : Nat :=
  match h.topic, h.action with
  | .connection, .challengeResponse => 1
  | .auth, .request => 2
  | .event, _ | .presence, _ => 3
  | _, _ => 4

/-- How far the messages of a connection may have got -/
def ConnectionState.phase : ConnectionState → Nat
  | .awaitConnection | .challenging => 0
  | .challengingWait => 1
  | .awaitAuthentication | .authenticating => 2
  | .open | .closed | .reconnecting | .error => 3

/-- The messages that were handed to the socket since a connection was last awaited, newest first,
without the answers to pings -/
def spoken : List Item → List Header
  | [] => []
  | .note (.became c) :: t => if c.state = .awaitConnection then [] else spoken t
  | .call (.wsSend m _) :: t =>
      if m.header.topic = .connection ∧ m.header.action = .pong then spoken t
      else m.header :: spoken t
  | _ :: t => spoken t

/-- The challenge is answered first, and once; then there are requests, and then the rest. -/
structure RankedInOrder (s : ConnectionState) (headers : List Header) : Prop where
  order : headers.Pairwise fun newer older => older.rank ≤ newer.rank ∧ 1 < newer.rank
  bounds : ∀ h ∈ headers, 0 < h.rank ∧ h.rank ≤ s.phase

/-- A client does not acknowledge anything. -/
structure SpokenInOrder (s : ConnectionState) (headers : List Header) : Prop
    extends RankedInOrder s headers where
  plain : ∀ h ∈ headers, h.isAck = false

theorem exists_of_not_silent {i : Item} (h : ¬i.IsSilent) :
    (∃ c, i = .note (.became c)) ∨ ∃ m buffer, i = .call (.wsSend m buffer) := by
  cases i with
  | note n =>
      cases n with
      | became c => exact .inl ⟨c, rfl⟩
      | _ => exact absurd trivial h
  | call c =>
      cases c with
      | wsSend m buffer => exact .inr ⟨m, buffer, rfl⟩
      | _ => exact absurd trivial h
  | _ => exact absurd trivial h

theorem spoken_cons {i : Item} (t : List Item) (hi : i.IsSilent) : spoken (i :: t) = spoken t := by
  cases i with
  | note n =>
      cases n with
      | became => exact hi.elim
      | _ => rfl
  | call c =>
      cases c with
      | wsSend => exact hi.elim
      | _ => rfl
  | _ => rfl

theorem Incomes.phase_le {s s' : ConnectionState} {topic : Topic} {action : Action}
    (h : Incomes s topic action s') (hs : s' ≠ .awaitConnection) : s.phase ≤ s'.phase := by
  cases h with
  | redirect => exact absurd rfl hs
  | ping | «open» => exact Nat.le_refl _
  | _ => decide

/-- Sending a message brings a connection to the phase of this message. -/
theorem Outgoes.phase_eq {s s' : ConnectionState} {h : Header}
    (hout : Outgoes s h.topic h.action s') (hs : s' ≠ s) :
    h.rank = s'.phase ∧ (s.phase = 0 ∧ h.rank = 1 ∨ s.phase = 2 ∧ h.rank = 2) := by
  obtain ⟨topic, action, isAck⟩ := h
  cases hout with
  | pong => exact absurd rfl hs
  | challengeResponse | request => cases isAck <;> decide

/-- A connection goes on to later messages only, until it begins again. -/
theorem Moves.phase_le {s s' : ConnectionState} {cause : Cause} (h : Moves s cause s')
    (hs : s' ≠ .awaitConnection) : s.phase ≤ s'.phase := by
  cases h with
  | opened => exact absurd rfl hs
  | closed | reconnecting | unexpected => cases s <;> decide
  | received hin => exact hin.phase_le hs
  | sending hout =>
      by_cases hne : s' = s
      · rw [hne]
      · obtain ⟨hrank, ⟨h, h'⟩ | ⟨h, h'⟩⟩ := hout.phase_eq hne <;> omega

theorem RankedInOrder.mono {s s' : ConnectionState} {headers : List Header}
    (h : RankedInOrder s headers) (hphase : s.phase ≤ s'.phase) : RankedInOrder s' headers :=
  ⟨h.order, fun header hmem =>
    ⟨(h.bounds header hmem).1, (h.bounds header hmem).2.trans hphase⟩⟩

/-- A message is said that is not earlier than where the connection has got. -/
theorem RankedInOrder.cons {s : ConnectionState} {headers : List Header}
    (h : RankedInOrder s headers) {header : Header} (hrank : header.rank = s.phase)
    (hlate : headers = [] ∨ 1 < header.rank) (hpos : 0 < header.rank) :
    RankedInOrder s (header :: headers) := by
  refine ⟨List.pairwise_cons.mpr ⟨fun older hmem => ?_, h.order⟩, fun x hmem => ?_⟩
  · obtain rfl | hlate := hlate
    · cases hmem
    · exact ⟨hrank ▸ (h.bounds older hmem).2, hlate⟩
  · cases List.mem_cons.mp hmem with
    | inl heq =>
        rw [heq]
        exact ⟨hpos, hrank.le⟩
    | inr hmem => exact h.bounds x hmem

/-- Where nothing can have been said yet -/
theorem RankedInOrder.eq_nil {s : ConnectionState} {headers : List Header}
    (h : RankedInOrder s headers) (hs : s.phase = 0) : headers = [] := by
  apply List.eq_nil_iff_forall_not_mem.mpr
  intro header hmem
  obtain ⟨hpos, hle⟩ := h.bounds header hmem
  omega

/-- A message of the handshake is said once its sending has changed the state. -/
theorem RankedInOrder.handshake {t : List Item} {c : Client} {m : MessageBuilder}
    (hbefore : RankedInOrder (stateOf t) (spoken t))
    (hlawful : Lawful (.note (.became c) :: .note (.sending m) :: t)) :
    RankedInOrder c.state (m.header :: spoken (.note (.became c) :: .note (.sending m) :: t)) := by
  obtain ⟨⟨hne, cause, hcause, hmoves⟩, -⟩ := hlawful
  cases hcause
  have hstate : stateOf (.note (.sending m) :: t) = stateOf t := rfl
  rw [hstate] at hne hmoves
  cases hmoves with
  | sending hout =>
      obtain ⟨hrank, hphases⟩ := hout.phase_eq hne
      have hspoken : spoken (.note (.became c) :: .note (.sending m) :: t) = spoken t := by
        have hawait : c.state ≠ .awaitConnection := by
          intro hawait
          have hphase : c.state.phase = 0 := by rw [hawait]; rfl
          omega
        exact if_neg hawait
      rw [hspoken]
      apply (hbefore.mono (by omega)).cons hrank
      · obtain ⟨hs, -⟩ | ⟨-, hlate⟩ := hphases
        · exact .inl (hbefore.eq_nil hs)
        · exact .inr (by omega)
      · omega

/-- A message about events or presence is said in `OPEN`. -/
theorem RankedInOrder.aside {t : List Item} {m : MessageBuilder}
    (h : RankedInOrder (stateOf t) (spoken t))
    (hm : m.header.topic = .event ∨ m.header.topic = .presence) (hopen : stateOf t = .open) :
    RankedInOrder (stateOf t) (m.header :: spoken t) := by
  have hrank : m.header.rank = 3 := by
    unfold Header.rank
    obtain hm | hm := hm <;> rw [hm]
  have hphase : (stateOf t).phase = 3 := by
    rw [hopen]
    rfl
  exact h.cons (by omega) (.inr (by omega)) (by omega)

/-- By induction on the history, where a message of the handshake goes back to before its change of
state -/
theorem rankedInOrder_of_lawful (t : List Item) (h : Lawful t) :
    RankedInOrder (stateOf t) (spoken t) := by
  induction hn : t.length using Nat.strong_induction_on generalizing t with
  | _ n ih =>
      cases t with
      | nil => exact ⟨.nil, fun _ hmem => absurd hmem List.not_mem_nil⟩
      | cons i t =>
          rw [List.length_cons] at hn
          have htail := ih t.length (by omega) t (lawful_of_cons h) rfl
          by_cases hsilent : i.IsSilent
          · rw [spoken_cons t hsilent, stateOf_cons t]
            · exact htail
            · rintro c rfl
              exact hsilent
          · obtain ⟨c, rfl⟩ | ⟨m, buffer, rfl⟩ := exists_of_not_silent hsilent
            · obtain ⟨⟨-, cause, -, hmoves⟩, -⟩ := h
              change RankedInOrder c.state (if c.state = .awaitConnection then [] else spoken t)
              by_cases hawait : c.state = .awaitConnection
              · rw [if_pos hawait]
                exact ⟨.nil, fun _ hmem => absurd hmem List.not_mem_nil⟩
              · rw [if_neg hawait]
                exact htail.mono (hmoves.phase_le hawait)
            · obtain ⟨hhands, hlawful⟩ := h
              change RankedInOrder (stateOf t) (if m.header.topic = .connection ∧
                m.header.action = .pong then spoken t else m.header :: spoken t)
              split
              · exact htail
              · next hpong =>
                  cases hhands with
                  | pong _ _ hm => exact absurd hm hpong
                  | aside _ _ hm hopen => exact htail.aside hm hopen
                  | handshake c _ t =>
                      simp only [List.length_cons] at hn
                      have hbefore := ih t.length (by omega) t
                        (lawful_of_cons (lawful_of_cons hlawful)) rfl
                      exact hbefore.handshake hlawful

theorem exists_of_mem_spoken {h : Header} {t : List Item} (hmem : h ∈ spoken t) :
    ∃ m buffer, .call (.wsSend m buffer) ∈ t ∧ m.header = h := by
  induction t with
  | nil => cases hmem
  | cons i t ih =>
      have hlater : h ∈ spoken t → ∃ m buffer, .call (.wsSend m buffer) ∈ i :: t ∧ m.header = h := by
        intro hmem
        obtain ⟨m, buffer, hm, hh⟩ := ih hmem
        exact ⟨m, buffer, List.mem_cons_of_mem _ hm, hh⟩
      by_cases hsilent : i.IsSilent
      · rw [spoken_cons t hsilent] at hmem
        exact hlater hmem
      · obtain ⟨c, rfl⟩ | ⟨m, buffer, rfl⟩ := exists_of_not_silent hsilent
        · unfold spoken at hmem
          split at hmem
          · cases hmem
          · exact hlater hmem
        · unfold spoken at hmem
          split at hmem
          · exact hlater hmem
          · cases List.mem_cons.mp hmem with
            | inl heq => exact ⟨m, buffer, List.mem_cons_self .., heq.symm⟩
            | inr hmem => exact hlater hmem

/-- Since a connection was last awaited a client has said at most one answer to the challenge, then
requests, and then messages about events and presence, and only as far as its state permits. -/
theorem spoken_inOrder [Build] (P : Policy interface) (n : Nat) (uri : Buffer)
    (cfg : Reentrant.Config interface) (hreach : Reaches P n uri cfg) :
    SpokenInOrder cfg.world.state.state (spoken cfg.world.trace) := by
  obtain ⟨hlawful, hstate⟩ := lawful_of_reaches hreach
  have houtgoing : Outgoing (fun _ => True) cfg.world :=
    outgoing_reaches (fun _ _ _ _ _ => trivial) hreach
  refine ⟨hstate ▸ rankedInOrder_of_lawful _ hlawful, fun h hmem => ?_⟩
  obtain ⟨m, buffer, hm, rfl⟩ := exists_of_mem_spoken hmem
  exact (houtgoing.recorded.sent m buffer hm).1.isAck

theorem spoken_inOrder_loggedIn :
    spoken (@after release 9 [] loggedIn).world.trace =
        [ { topic := .auth, action := .request }
        , { topic := .connection, action := .challengeResponse } ] ∧
      SpokenInOrder (@after release 9 [] loggedIn).world.state.state
        (spoken (@after release 9 [] loggedIn).world.trace) :=
  ⟨by decide +kernel,
    @spoken_inOrder release (.any interface) 9 [] _ (@reaches_after release 9 [] loggedIn)⟩

end Order

section Account

/-- The states since a connection was last awaited, newest first, and why each was taken -/
def account : List Item → List (Option Cause × ConnectionState)
  | [] => []
  | .note (.became c) :: t =>
      (causeOf t, c.state) :: if c.state = .awaitConnection then [] else account t
  | _ :: t => account t

/-- How a connection gets from its opening to a state of the handshake, newest step first. Only
assertions look at whether a message is an acknowledgement, which is left open. -/
inductive Handshaken : ConnectionState → List (Option Cause × ConnectionState) → Prop where
  | opened : Handshaken .awaitConnection [(some .opened, .awaitConnection)]
  | redirected (isAck : Bool) :
      Handshaken .awaitConnection
        [(some (.received ⟨.connection, .redirect, isAck⟩), .awaitConnection)]
  | challenged (isAck : Bool) {l : List (Option Cause × ConnectionState)}
      (h : Handshaken .awaitConnection l) :
      Handshaken .challenging
        ((some (.received ⟨.connection, .challenge, isAck⟩), .challenging) :: l)
  | answered (isAck : Bool) {l : List (Option Cause × ConnectionState)}
      (h : Handshaken .challenging l) :
      Handshaken .challengingWait
        ((some (.sending ⟨.connection, .challengeResponse, isAck⟩), .challengingWait) :: l)
  | accepted (isAck : Bool) {l : List (Option Cause × ConnectionState)}
      (h : Handshaken .challengingWait l) :
      Handshaken .awaitAuthentication
        ((some (.received ⟨.connection, .challengeResponse, isAck⟩), .awaitAuthentication) :: l)
  | requested (isAck : Bool) {l : List (Option Cause × ConnectionState)}
      (h : Handshaken .awaitAuthentication l) :
      Handshaken .authenticating
        ((some (.sending ⟨.auth, .request, isAck⟩), .authenticating) :: l)
  | rejected (isAck : Bool) {l : List (Option Cause × ConnectionState)}
      (h : Handshaken .authenticating l) :
      Handshaken .awaitAuthentication
        ((some (.received ⟨.auth, .errorInvalidAuthData, isAck⟩), .awaitAuthentication) :: l)
  | authenticated (isAck : Bool) {l : List (Option Cause × ConnectionState)}
      (h : Handshaken .authenticating l) :
      Handshaken .open ((some (.received ⟨.auth, .request, isAck⟩), .open) :: l)

/-- A connection that is opening or open -/
def ConnectionState.IsAlive (s : ConnectionState) : Prop :=
  s ≠ .closed ∧ s ≠ .reconnecting ∧ s ≠ .error
  deriving Decidable

theorem account_cons {i : Item} (t : List Item) (hi : ∀ c, i ≠ .note (.became c)) :
    account (i :: t) = account t := by
  cases i with
  | note n =>
      cases n with
      | became c => exact absurd rfl (hi c)
      | _ => rfl
  | _ => rfl

/-- One change of state -/
theorem Handshaken.became {s s' : ConnectionState} {cause : Cause}
    {l : List (Option Cause × ConnectionState)} (h : s.IsAlive → Handshaken s l)
    (hmoves : Moves s cause s') (hne : s' ≠ s) (hs' : s'.IsAlive) :
    Handshaken s' ((some cause, s') :: if s' = .awaitConnection then [] else l) := by
  cases hmoves with
  | opened => exact .opened
  | closed => exact absurd rfl hs'.1
  | reconnecting => exact absurd rfl hs'.2.1
  | unexpected => exact absurd rfl hs'.2.2
  | @received _ h' hin =>
      obtain ⟨topic, action, isAck⟩ := h'
      cases hin with
      | ping | «open» => exact absurd rfl hne
      | challenge => exact .challenged isAck (h (by decide))
      | challengeResponse => exact .accepted isAck (h (by decide))
      | redirect => exact .redirected isAck
      | request => exact .authenticated isAck (h (by decide))
      | invalidAuthData => exact .rejected isAck (h (by decide))
      | reject | tooManyAuthAttempts | invalidAuthMsg => exact absurd rfl hs'.1
  | @sending _ h' hout =>
      obtain ⟨topic, action, isAck⟩ := h'
      cases hout with
      | pong => exact absurd rfl hne
      | challengeResponse => exact .answered isAck (h (by decide))
      | request => exact .requested isAck (h (by decide))

theorem handshaken_of_lawful (t : List Item) (h : Lawful t) (halive : (stateOf t).IsAlive) :
    Handshaken (stateOf t) (account t) := by
  induction t with
  | nil => exact absurd rfl halive.1
  | cons i t ih =>
      by_cases hi : ∃ c, i = .note (.became c)
      · obtain ⟨c, rfl⟩ := hi
        obtain ⟨⟨hne, cause, hcause, hmoves⟩, hlawful⟩ := h
        change Handshaken c.state ((causeOf t, c.state) ::
          if c.state = .awaitConnection then [] else account t)
        rw [hcause]
        exact .became (ih hlawful) hmoves hne halive
      · have hne : ∀ c, i ≠ .note (.became c) := fun c hc => hi ⟨c, hc⟩
        rw [stateOf_cons t hne] at halive ⊢
        rw [account_cons t hne]
        exact ih (lawful_of_cons h) halive

/-- A connection that is opening or open has gone through the handshake, every step for the reason
the protocol gives for it. -/
theorem handshaken [Build] (P : Policy interface) (n : Nat) (uri : Buffer)
    (cfg : Reentrant.Config interface) (hreach : Reaches P n uri cfg)
    (halive : cfg.world.state.state.IsAlive) :
    Handshaken cfg.world.state.state (account cfg.world.trace) := by
  obtain ⟨hlawful, hstate⟩ := lawful_of_reaches hreach
  rw [← hstate] at halive ⊢
  exact handshaken_of_lawful _ hlawful halive

theorem handshaken_loggedIn :
    (account (@after release 9 [] loggedIn).world.trace).map Prod.snd =
        [.open, .authenticating, .awaitAuthentication, .challengingWait, .challenging,
          .awaitConnection] ∧
      Handshaken (@after release 9 [] loggedIn).world.state.state
        (account (@after release 9 [] loggedIn).world.trace) :=
  ⟨by decide +kernel,
    @handshaken release (.any interface) 9 [] _ (@reaches_after release 9 [] loggedIn)
      (by decide +kernel)⟩

end Account

end Deepstream
