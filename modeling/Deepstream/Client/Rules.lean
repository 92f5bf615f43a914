import Deepstream.Client.Transition
import Deepstream.Reentrant.Regime

/-!
Rules for the programs of a client.

An invariant that does not look at events, or at presence, is kept by all their
functions as soon as the messages they send keep it. The same holds of the
handlers of a connection, whose changes of state and messages are left as
premises.
-/

namespace Deepstream

open Reentrant (Contract Policy Prog Keeps wp)

section Wp
variable {C : Contract interface} {P : Policy interface} {α β : Type} {Q : α → World → Prop}
  {E : Exception → World → Prop} {w : World}

@[simp] theorem wp_lift_ok (a : α) : wp C P (Program.lift (.ok a)) Q E w ↔ Q a w :=
  Iff.rfl

@[simp] theorem wp_lift_thrown (x : Exception) :
    wp C P (Program.lift (.error (.thrown x))) Q E w ↔ E x w :=
  Iff.rfl

theorem wp_lift (x : Except Failure α) (hok : ∀ a, x = .ok a → Q a w)
    (hthrown : ∀ e, x = .error (.thrown e) → E e w)
    (habort : ∀ f, x = .error f → C.abort f w) : wp C P (Program.lift x) Q E w := by
  unfold Program.lift
  split
  · exact hok _ rfl
  · exact hthrown _ rfl
  · exact habort _ rfl

@[simp] theorem wp_when (cond : Prop) [Decidable cond] (p : Program Unit)
    (Q : Unit → World → Prop) :
    wp C P (Prog.when cond p) Q E w ↔ (cond → wp C P p Q E w) ∧ (¬cond → Q () w) := by
  unfold Prog.when
  split <;> simp [*]

@[simp] theorem wp_ignore (p : Program Bool) (Q : Unit → World → Prop) :
    wp C P (Program.ignore p) Q E w ↔ wp C P p (fun _ => Q ()) E w := by
  unfold Program.ignore
  rw [Reentrant.wp_bind]
  exact Iff.rfl

@[simp] theorem wp_leave (n : Note) (Q : Unit → World → Prop) :
    wp C P (Program.leave n) Q E w ↔ Q () (w.noted n) :=
  Iff.rfl

@[simp] theorem wp_modifyEvent (f : Event → Event) (Q : Unit → World → Prop) :
    wp C P (Program.modifyEvent f) Q E w ↔
      Q () { w with state := { w.state with event := f w.state.event } } :=
  Iff.rfl

@[simp] theorem wp_modifyPresence (f : Presence → Presence) (Q : Unit → World → Prop) :
    wp C P (Program.modifyPresence f) Q E w ↔
      Q () { w with state := { w.state with presence := f w.state.presence } } :=
  Iff.rfl

@[simp] theorem wp_nextId (Q : Nat → World → Prop) :
    wp C P Program.nextId Q E w ↔ Q w.state.subscriptionCounter { w with
      state := { w.state with
        subscriptionCounter := (w.state.subscriptionCounter + 1) % 2 ^ 64 } } :=
  Iff.rfl

theorem wp_assert [Build] (file : SourceFile) (text : String) (cond : Prop) [Decidable cond]
    (h : cond) (Q : Unit → World → Prop) :
    wp C P (Program.assert file text cond) Q E w ↔ Q () w := by
  unfold Program.assert
  rw [check_of file text cond h]
  exact wp_lift_ok ()

/-- An assertion that holds where assertions are compiled in -/
theorem wp_assert_enabled [Build] (file : SourceFile) (text : String) (cond : Prop)
    [Decidable cond] (h : Build.asserts = true → cond) (Q : Unit → World → Prop) :
    wp C P (Program.assert file text cond) Q E w ↔ Q () w := by
  have hcheck : check file text cond = .ok () := by
    rw [check_eq_ok_iff]
    cases hasserts : Build.asserts with
    | false => exact .inl rfl
    | true => exact .inr (h hasserts)
  unfold Program.assert
  rw [hcheck]
  exact wp_lift_ok ()

/-- An assertion that does not hold -/
theorem wp_assert_fails [Build] (file : SourceFile) (text : String) (cond : Prop) [Decidable cond]
    (hasserts : Build.asserts = true) (h : ¬cond) (Q : Unit → World → Prop) :
    wp C P (Program.assert file text cond) Q E w ↔ C.abort (.assertion file text) w := by
  unfold Program.assert check
  rw [if_pos ⟨hasserts, h⟩]
  rfl

/-- A message is built, or an argument with a unit separator is refused. -/
theorem wp_build (topic : Topic) (action : Action) (arguments : List Buffer)
    (hlen : arguments.length ≤ 2) (Q : Built topic action arguments → World → Prop)
    (hok : (∀ arg ∈ arguments, asciiUnitSeparator ∉ arg) → ∀ m, Q m w)
    (herror : (∃ arg ∈ arguments, asciiUnitSeparator ∈ arg) →
      E (.invalidArgument "ASCII unit separator in payload detected") w) :
    wp C P (Program.build topic action arguments) Q E w := by
  have hcases := MessageBuilder.addArguments_cases (.ofHeader { topic, action }) arguments
    (by simpa [MessageBuilder.ofHeader] using hlen.trans (by decide))
  unfold Program.build
  split
  · next m h =>
      cases hcases with
      | inl hclean => exact hok hclean.1 _
      | inr hbad =>
          rw [hbad.2] at h
          cases h
  · next f h =>
      cases hcases with
      | inl hclean =>
          obtain ⟨-, m, hm⟩ := hclean
          rw [hm] at h
          cases h
      | inr hbad =>
          rw [hbad.2] at h
          cases h
          exact herror hbad.1

/-- A message with one argument that has no unit separator -/
theorem wp_build_clean {topic : Topic} {action : Action} {name : Buffer}
    (hclean : asciiUnitSeparator ∉ name) {Q : Built topic action [name] → World → Prop}
    (hQ : ∀ message, Q message w) :
    wp C P (Program.build topic action [name]) Q E w := by
  apply wp_build
  · exact Nat.le_succ 1
  · exact fun _ => hQ
  · rintro ⟨arg, hmem, harg⟩
    cases List.mem_singleton.mp hmem
    exact absurd harg hclean

theorem wp_debugMsg_of [Build] (habort : ∀ f, C.abort f w) (h : Header) {Q : Unit → World → Prop}
    (hQ : Q () w) : wp C P (Connection.debugMsg h) Q E w := by
  unfold Connection.debugMsg
  rw [wp_when]
  refine ⟨fun _ => ?_, fun _ => hQ⟩
  rw [Reentrant.wp_bind]
  apply wp_lift
  · exact fun _ _ => hQ
  · exact fun e he => absurd he (text_ne_thrown h e)
  · exact fun f _ => habort f

/-- A message about events or presence is handed over in `OPEN`, unless it is too long. -/
theorem wp_sendWith [Build] {setState : ConnectionState → Program Unit} {m : MessageBuilder}
    {Q : Bool → World → Prop} (habort : ∀ f, C.abort f (w.noted (.sending m)))
    (hm : ¬(m.header.topic = .connection ∨ m.header.topic = .auth))
    (hclosed : w.state.state ≠ .open → Q false (w.noted (.sending m)))
    (hopen : w.state.state = .open → ∀ buffer, m.toBinary = .ok buffer →
      wp C P (Program.ask (.wsSend m buffer)) Q E (w.noted (.sending m)))
    (hthrown : w.state.state = .open → ∀ e, m.toBinary = .error (.thrown e) →
      E e (w.noted (.sending m))) :
    wp C P (Connection.sendWith setState m) Q E w := by
  unfold Connection.sendWith
  rw [Reentrant.wp_bind, wp_leave, Reentrant.wp_bind]
  apply wp_debugMsg_of habort
  rw [Reentrant.wp_bind, Reentrant.wp_read, if_neg hm]
  split
  · next hstate =>
      unfold Connection.transmit
      rw [Reentrant.wp_bind]
      apply wp_lift
      · exact hopen hstate
      · exact hthrown hstate
      · exact fun f _ => habort f
  · next hstate => exact hclosed hstate

section Connection
variable [Build] (habort : ∀ f w, C.abort f w) {n : Nat}
include habort

theorem wp_lift_asserts {x : Except Failure α} (hx : OnlyAsserts x)
    (hok : ∀ a, x = .ok a → Q a w) : wp C P (Program.lift x) Q E w := by
  apply wp_lift x hok
  · intro e h
    obtain ⟨-, file, text, heq, -⟩ := hx _ h
    cases heq
  · exact fun f _ => habort f w

theorem wp_assert_of (file : SourceFile) (text : String) (cond : Prop) [Decidable cond]
    {Q : Unit → World → Prop} (h : (Build.asserts = true → cond) → Q () w) :
    wp C P (Program.assert file text cond) Q E w := by
  by_cases hcond : Build.asserts = true → cond
  · rw [wp_assert_enabled _ _ _ hcond]
    exact h hcond
  · obtain ⟨hasserts, hcond⟩ := Classical.not_imp.mp hcond
    rw [wp_assert_fails _ _ _ hasserts hcond]
    exact habort _ w

omit habort in
theorem wp_assert_elim {file : SourceFile} {text : String} {cond : Prop} [Decidable cond]
    {Q : Unit → World → Prop} (hcond : Build.asserts = true → cond)
    (h : wp C P (Program.assert file text cond) Q E w) : Q () w :=
  (wp_assert_enabled file text cond hcond Q).mp h

/-- A change to a state other than `OPEN` makes no calls. -/
theorem wp_setState {s : ConnectionState} (hs : s = .open → w.state.state = .open)
    {Q : Unit → World → Prop} (hsame : s = w.state.state → Q () w)
    (hchange : s ≠ w.state.state →
      Q () (Reentrant.World.noted { w with state := { w.state with state := s } }
        (.became { w.state with state := s }))) :
    wp C P (Connection.setState n s) Q E w := by
  unfold Connection.setState
  rw [Reentrant.wp_bind, Reentrant.wp_read, wp_when]
  refine ⟨fun hne => ?_, fun h => hsame (Classical.not_not.mp h)⟩
  cases n with
  | zero => exact habort _ _
  | succ n =>
      change wp C P (Event.onConnectionStateChange _ n s) Q E _
      unfold Event.onConnectionStateChange
      rw [wp_when]
      exact ⟨fun hopen => absurd (hopen.trans (hs hopen).symm) hne, fun _ => hchange hne⟩

omit habort in
/-- A change to a state other than `OPEN`, where the bound on the loops is not reached. -/
theorem wp_setState_of_pos {s : ConnectionState} {Q : Unit → World → Prop} (hn : 0 < n)
    (hs : s ≠ .open) (hQ : ∀ w' : World, w'.state = { w.state with state := s } → Q () w') :
    wp C P (Connection.setState n s) Q E w := by
  unfold Connection.setState
  rw [Reentrant.wp_bind, Reentrant.wp_read, wp_when]
  refine ⟨fun _ => ?_, fun hsame => ?_⟩
  · cases n with
    | zero => exact absurd hn (Nat.lt_irrefl 0)
    | succ n =>
        change wp C P (Event.onConnectionStateChange _ n s) Q E _
        unfold Event.onConnectionStateChange
        rw [wp_when]
        exact ⟨fun hopen => absurd hopen hs, fun _ => hQ _ rfl⟩
  · rw [Classical.not_not.mp hsame] at hQ
    exact hQ w rfl

omit habort in
theorem wp_setState_elim {s : ConnectionState} {Q : Unit → World → Prop} (hn : 0 < n)
    (hs : s ≠ .open) (h : wp C P (Connection.setState n s) Q E w) :
    ∃ w' : World, w'.state = { w.state with state := s } ∧ Q () w' := by
  unfold Connection.setState at h
  rw [Reentrant.wp_bind, Reentrant.wp_read, wp_when] at h
  by_cases hsame : s = w.state.state
  · exact ⟨w, by rw [hsame], h.2 fun hne => hne hsame⟩
  · cases n with
    | zero => exact absurd hn (Nat.lt_irrefl 0)
    | succ n =>
        have hchange : wp C P (Event.onConnectionStateChange _ n s) Q E _ := h.1 hsame
        unfold Event.onConnectionStateChange at hchange
        rw [wp_when] at hchange
        exact ⟨_, rfl, hchange.2 hs⟩

theorem wp_debugMsg (h : Header) {Q : Unit → World → Prop} (hQ : Q () w) :
    wp C P (Connection.debugMsg h) Q E w :=
  wp_debugMsg_of (fun f => habort f w) h hQ

omit habort in
theorem wp_debugMsg_iff {h : Header} (hmem : h ∈ headers) {Q : Unit → World → Prop} :
    wp C P (Connection.debugMsg h) Q E w ↔ Q () w := by
  obtain ⟨text, htext⟩ := exists_text_eq_ok hmem
  unfold Connection.debugMsg
  rw [wp_when, Reentrant.wp_bind, htext, wp_lift_ok]
  change (_ → Q () w) ∧ (_ → Q () w) ↔ Q () w
  by_cases hasserts : Build.asserts = true <;> simp [hasserts]

/-- A message of the handshake is refused, or the state changes and it is handed over. -/
theorem wp_send_handshake {m : MessageBuilder} {Q : Bool → World → Prop}
    (hm : m.header.topic = .connection ∨ m.header.topic = .auth)
    (hrefused : Build.asserts = false → w.state.state = .error ∨
        (∀ s, ¬Outgoes w.state.state m.header.topic m.header.action s) →
      E (.logicError "Invalid client state transition")
        ((w.noted (.sending m)).noted (.refused m)))
    (hsend : ∀ s, w.state.state ≠ .error →
        Outgoes w.state.state m.header.topic m.header.action s →
      wp C P (Connection.setState n s >>= fun _ => Connection.transmit m) Q E
        (w.noted (.sending m))) :
    wp C P (Connection.send n m) Q E w := by
  unfold Connection.send Connection.sendWith
  rw [Reentrant.wp_bind, wp_leave, Reentrant.wp_bind]
  apply wp_debugMsg habort
  rw [Reentrant.wp_bind, Reentrant.wp_read, if_pos hm, Reentrant.wp_bind]
  apply wp_lift_asserts habort (onlyAsserts_transitionOutgoing _ _)
  intro s hs
  have hout := (transitionOutgoing_eq_ok hs).2
  rw [Reentrant.wp_bind, wp_when]
  refine ⟨fun hs' => ?_, fun hs' => ?_⟩
  · rw [wp_leave, Reentrant.wp_bind]
    apply wp_assert_of habort
    intro hasserts
    rw [if_pos hs', Reentrant.wp_raise]
    apply hrefused
    · cases h : Build.asserts with
      | false => rfl
      | true => exact absurd hs' (hasserts h)
    · exact hout.imp (fun h => h.eq_error hs') And.right
  · rw [Reentrant.wp_bind]
    apply wp_assert_of habort
    intro _
    rw [if_neg hs']
    have hout := hout.resolve_right fun h => hs' h.1
    exact hsend s (fun herror => hs' (hout.error herror)) hout

omit habort in
/-- In `ERROR` no message of the handshake is sent: an assertion fails or an exception is
thrown. -/
theorem wp_send_of_error {m : MessageBuilder} {Q : Bool → World → Prop}
    (hm : m.header.topic = .connection ∨ m.header.topic = .auth) (hstate : w.state.state = .error)
    (habort : ∀ f w', w'.state = w.state → C.abort f w')
    (hE : ∀ w', w'.state = w.state →
      E (.logicError "Invalid client state transition") w') :
    wp C P (Connection.send n m) Q E w := by
  have habort' : ∀ f, C.abort f (w.noted (.sending m)) := fun f => habort f _ rfl
  unfold Connection.send Connection.sendWith
  rw [Reentrant.wp_bind, wp_leave, Reentrant.wp_bind]
  apply wp_debugMsg_of habort'
  rw [Reentrant.wp_bind, Reentrant.wp_read, if_pos hm, Reentrant.wp_bind]
  apply wp_lift
  · intro s hs
    have herror : s = .error := transitionOutgoing_error (hstate ▸ hs)
    rw [Reentrant.wp_bind, wp_when]
    refine ⟨fun _ => ?_, fun hne => absurd herror hne⟩
    rw [wp_leave, Reentrant.wp_bind, if_pos herror]
    apply wp_lift
    · exact fun _ _ => hE _ rfl
    · intro e he
      obtain ⟨-, file, text, heq, -⟩ := onlyAsserts_check _ _ (by decide) _ he
      cases heq
    · exact fun f _ => habort f _ rfl
  · intro e he
    obtain ⟨-, file, text, heq, -⟩ := onlyAsserts_transitionOutgoing _ _ _ he
    cases heq
  · exact fun f _ => habort f _ rfl

theorem wp_report (r : Report) {Q : Unit → World → Prop}
    (hQ : ∀ text, wp C P (Program.ask (.errorHandler r text)) Q E w) :
    wp C P (Program.report r) Q E w := by
  unfold Program.report
  rw [Reentrant.wp_bind]
  apply wp_lift
  · exact fun text _ => hQ text
  · exact fun e he => absurd he (reportText_ne_thrown r e)
  · exact fun f _ => habort f w

end Connection

end Wp

variable (C : Contract interface) (P : Policy interface) (Inv : World → Prop)

/-- An invariant that is indifferent to the callbacks of `subscribe` and `listen`. -/
structure SubscriberRoutine : Prop where
  abort : ∀ f w, Inv w → C.abort f w
  subscriber : ∀ c : Call, c.isSubscriber = true → Keeps C P Inv (Program.ask c)
  nextId : Keeps C P Inv Program.nextId

/-- An invariant that is indifferent to most calls. -/
structure Routine : Prop extends SubscriberRoutine C P Inv where
  ask : ∀ c : Call, c.isRoutine = true → Keeps C P Inv (Program.ask c)
  subscriber := fun c hc => ask c (Call.isRoutine_of_isSubscriber hc)

/-- An invariant that the calls of the socket keep, other than handing a message over. -/
structure SocketRoutine : Prop where
  setUri : ∀ uri, Keeps C P Inv (Program.ask (.setUri uri))
  wsOpen : Keeps C P Inv (Program.ask .wsOpen)
  close : Keeps C P Inv Connection.close
  attempt : ∀ k : Nat → Nat, Keeps C P Inv
    (Prog.modify fun c : Client => { c with reconnectionAttempt := k c.reconnectionAttempt })

variable {C P Inv}

section Routine
variable (hr : SubscriberRoutine C P Inv) {α : Type}
include hr

theorem SubscriberRoutine.lift (x : Except Failure α) : Keeps C P Inv (Program.lift x) := by
  intro w hw
  apply wp_lift
  · exact fun _ _ => hw
  · exact fun _ _ => hw
  · exact fun f _ => hr.abort f w hw

theorem SubscriberRoutine.assert [Build] (file : SourceFile) (text : String) (cond : Prop)
    {_ : Decidable cond} : Keeps C P Inv (Program.assert file text cond) :=
  hr.lift _

theorem SubscriberRoutine.build (topic : Topic) (action : Action) (arguments : List Buffer) :
    Keeps C P Inv (Program.build topic action arguments) := by
  unfold Program.build
  split
  · exact Reentrant.keeps_pure _
  · exact hr.lift _

omit hr in
theorem keeps_ignore {p : Program Bool} (h : Keeps C P Inv p) :
    Keeps C P Inv (Program.ignore p) :=
  Reentrant.keeps_bind h fun _ => Reentrant.keeps_pure ()

theorem SubscriberRoutine.send (send_ : MessageBuilder → Program Bool) (topic : Topic) (action : Action)
    (arguments : List Buffer)
    (h : ∀ m : MessageBuilder, m.header = { topic, action } → Keeps C P Inv (send_ m)) :
    Keeps C P Inv (Program.build topic action arguments >>=
      fun message => Program.ignore (send_ message.val)) := by
  apply Reentrant.keeps_bind (hr.build topic action arguments)
  intro message
  apply keeps_ignore
  exact h message.val message.property.1

omit hr in
theorem Routine.report [Build] (hr : Routine C P Inv) (r : Report) :
    Keeps C P Inv (Program.report r) := by
  apply Reentrant.keeps_bind
  · exact hr.lift _
  · intro text
    exact hr.ask _ rfl

omit hr in
theorem keeps_invoke (f : Function) (call : Nat → Program α)
    (h : ∀ f, Keeps C P Inv (call f)) : Keeps C P Inv (Program.invoke f call) := by
  unfold Program.invoke
  split
  · exact h _
  · exact Reentrant.keeps_raise _

theorem SubscriberRoutine.debugMsg [Build] (h : Header) : Keeps C P Inv (Connection.debugMsg h) := by
  apply Reentrant.keeps_when
  intro _
  exact Reentrant.keeps_bind (hr.lift _) fun _ => Reentrant.keeps_pure ()

end Routine

section Event
variable [Build] (hr : SubscriberRoutine C P Inv) (hmodify : ∀ f, Keeps C P Inv (Program.modifyEvent f))
  {send_ : MessageBuilder → Program Bool}
  (hsend : ∀ m : MessageBuilder, m.header.topic = .event → Keeps C P Inv (send_ m))
include hr hmodify

omit hmodify in
theorem Event.keeps_notifySubscribers
    (hinsert : ∀ id, Keeps C P Inv (Program.modifyEvent fun e =>
      { e with subscribeFnMap := e.subscribeFnMap.insertIfNew id none })) (m : Message) :
    Keeps C P Inv (Event.notifySubscribers m) := by
  apply Reentrant.keeps_bind (hr.assert _ _ _)
  intro _
  apply Reentrant.keeps_bind (hr.assert _ _ _)
  intro _
  apply Reentrant.keeps_when
  intro _
  apply Reentrant.keeps_bind (hr.lift _)
  intro name
  apply Reentrant.keeps_bind (hr.lift _)
  intro data
  apply Reentrant.keeps_read_bind
  intro c
  split
  · exact Reentrant.keeps_pure ()
  · apply Reentrant.keeps_forEach
    intro id _
    apply Reentrant.keeps_bind (hinsert id)
    intro _
    apply Reentrant.keeps_read_bind
    intro c
    apply keeps_invoke
    intro f
    exact hr.subscriber _ rfl

theorem Event.keeps_eraseFn (id : Nat) : Keeps C P Inv (Event.eraseFn id) := by
  apply Reentrant.keeps_read_bind
  intro c
  apply Reentrant.keeps_bind (hmodify _)
  intro _
  exact hr.assert _ _ _

omit hmodify in
theorem Event.keeps_notifyListeners (m : Message)
    (hlisten : m.header.action ≠ .subscriptionForPatternRemoved →
      ∀ el : MessageBuilder, el.header.topic = .event → Keeps C P Inv (send_ el)) :
    Keeps C P Inv (Event.notifyListeners send_ m) := by
  apply Reentrant.keeps_bind (hr.assert _ _ _)
  intro _
  apply Reentrant.keeps_bind (hr.assert _ _ _)
  intro _
  apply Reentrant.keeps_bind (hr.assert _ _ _)
  intro _
  apply Reentrant.keeps_bind (hr.lift _)
  intro pattern
  apply Reentrant.keeps_bind (hr.lift _)
  intro matched
  apply Reentrant.keeps_read_bind
  intro c
  split
  · exact Reentrant.keeps_pure ()
  · apply Reentrant.keeps_bind
    · apply keeps_invoke
      intro f
      exact hr.subscriber _ rfl
    · intro accept
      apply Reentrant.keeps_when
      intro hfound
      apply hr.send
      intro el hel
      apply hlisten hfound
      rw [hel]

omit hmodify in
/-- Only a pattern that was found is answered. -/
theorem Event.keeps_notify
    (hinsert : ∀ id, Keeps C P Inv (Program.modifyEvent fun e =>
      { e with subscribeFnMap := e.subscribeFnMap.insertIfNew id none })) (m : Message)
    (hlisten : m.header.action = .subscriptionForPatternFound →
      ∀ el : MessageBuilder, el.header.topic = .event → Keeps C P Inv (send_ el)) :
    Keeps C P Inv (Event.notify send_ m) := by
  apply Reentrant.keeps_bind (hr.assert _ _ _)
  intro _
  split
  · exact keeps_notifySubscribers hr hinsert m
  · next hfound =>
      apply Reentrant.keeps_bind (hr.assert _ _ _)
      exact fun _ => keeps_notifyListeners hr m fun _ => hlisten hfound
  · next hremoved =>
      apply Reentrant.keeps_bind (hr.assert _ _ _)
      exact fun _ => keeps_notifyListeners hr m fun hne => absurd hremoved hne
  all_goals exact hr.assert _ _ _

include hsend

theorem Event.keeps_emit (hemitted : ∀ m, Keeps C P Inv (Program.leave (.emitted m)))
    (name data : Buffer) : Keeps C P Inv (Event.emit send_ name data) := by
  unfold Event.emit
  split
  · exact Reentrant.keeps_raise _
  · apply Reentrant.keeps_bind (hr.build _ _ _)
    intro evt
    apply Reentrant.keeps_bind (hemitted _)
    intro _
    apply Reentrant.keeps_bind
    · apply hsend
      rw [evt.property.1]
    · intro sent
      apply Reentrant.keeps_bind
      · apply Reentrant.keeps_when
        intro _
        unfold Event.enqueue
        exact hmodify _
      · intro _
        apply Reentrant.keeps_read_bind
        intro c
        exact Reentrant.keeps_when fun _ => keeps_notify hr (fun _ => hmodify _) _ fun _ => hsend

omit hsend in
theorem Event.keeps_pushSubscriber (name : Buffer) (place id : Nat) :
    Keeps C P Inv (Event.pushSubscriber name place id) := by
  apply Reentrant.keeps_read_bind
  intro c
  split
  · exact Reentrant.keeps_abort _ (hr.abort _)
  · split
    · exact Reentrant.keeps_bind (hr.assert _ _ _) fun _ => hmodify _
    · exact Reentrant.keeps_abort _ (hr.abort _)

theorem Event.keeps_subscribe (name : Buffer) (callback : Function) :
    Keeps C P Inv (Event.subscribe send_ name callback) := by
  unfold Event.subscribe
  split
  · exact Reentrant.keeps_raise _
  · apply Reentrant.keeps_bind hr.nextId
    intro id
    apply Reentrant.keeps_bind
    · apply Reentrant.keeps_read_bind
      intro c
      exact Reentrant.keeps_bind (hmodify _) fun _ => Reentrant.keeps_pure _
    · intro inserted
      apply Reentrant.keeps_bind (hr.assert _ _ _)
      intro _
      apply Reentrant.keeps_bind
      · apply Reentrant.keeps_read_bind
        intro c
        split
        · exact Reentrant.keeps_pure _
        · exact Reentrant.keeps_bind (hmodify _) fun _ => Reentrant.keeps_pure _
      · intro subscribers
        apply Reentrant.keeps_bind
        · apply Reentrant.keeps_when
          intro _
          apply hr.send
          intro message hmessage
          apply hsend
          rw [hmessage]
        · intro _
          apply Reentrant.keeps_bind (keeps_pushSubscriber hr hmodify _ _ _)
          exact fun _ => Reentrant.keeps_pure _

theorem Event.keeps_unsubscribe (name : Buffer) :
    Keeps C P Inv (Event.unsubscribe send_ name) := by
  apply Reentrant.keeps_read_bind
  intro c
  split
  · exact Reentrant.keeps_pure ()
  · apply Reentrant.keeps_bind
    · exact Reentrant.keeps_forEach fun id _ => keeps_eraseFn hr hmodify id
    · intro _
      apply Reentrant.keeps_bind (hmodify _)
      intro _
      apply Reentrant.keeps_read_bind
      intro c
      apply Reentrant.keeps_when
      intro _
      apply hr.send
      intro message hmessage
      apply hsend
      rw [hmessage]

theorem Event.keeps_unsubscribeId (name : Buffer) (id : Nat) :
    Keeps C P Inv (Event.unsubscribeId send_ name id) := by
  apply Reentrant.keeps_read_bind
  intro c
  split
  · exact Reentrant.keeps_pure ()
  · split
    · apply Reentrant.keeps_bind (hmodify _)
      intro _
      apply Reentrant.keeps_bind (keeps_eraseFn hr hmodify id)
      intro _
      exact Reentrant.keeps_when fun _ => keeps_unsubscribe hr hmodify hsend name
    · exact hr.assert _ _ _

omit [Build] in
theorem Event.keeps_listen (pattern : Buffer) (callback : Function) :
    Keeps C P Inv (Event.listen send_ pattern callback) := by
  unfold Event.listen
  split
  · exact Reentrant.keeps_raise _
  · apply Reentrant.keeps_read_bind
    intro c
    apply Reentrant.keeps_when
    intro _
    apply Reentrant.keeps_bind (hmodify _)
    intro _
    apply hr.send
    intro message hmessage
    apply hsend
    rw [hmessage]

omit [Build] in
theorem Event.keeps_unlisten (pattern : Buffer) :
    Keeps C P Inv (Event.unlisten send_ pattern) := by
  apply Reentrant.keeps_read_bind
  intro c
  apply Reentrant.keeps_when
  intro _
  apply Reentrant.keeps_bind (hmodify _)
  intro _
  apply hr.send
  intro message hmessage
  apply hsend
  rw [hmessage]

omit [Build] hmodify in
theorem Event.keeps_announce {α : Type} (map : Event → NameMap (Node α)) (action : Action)
    (n : Nat) (entry : Option (Buffer × Node α)) :
    Keeps C P Inv (Event.announce send_ map action n entry) := by
  induction n generalizing entry with
  | zero =>
      cases entry with
      | none => exact Reentrant.keeps_pure ()
      | some entry => exact Reentrant.keeps_abort _ (hr.abort _)
  | succ n ih =>
      cases entry with
      | none => exact Reentrant.keeps_pure ()
      | some entry =>
          apply Reentrant.keeps_bind (hr.build _ _ _)
          intro message
          apply Reentrant.keeps_bind
          · apply hsend
            rw [message.property.1]
          · intro sent
            apply Reentrant.keeps_when
            intro _
            apply Reentrant.keeps_read_bind
            intro c
            split
            · exact ih _
            · exact Reentrant.keeps_abort _ (hr.abort _)

omit [Build] in
theorem Event.keeps_flush (n : Nat) : Keeps C P Inv (Event.flush send_ n) := by
  induction n with
  | zero => exact Reentrant.keeps_abort _ (hr.abort _)
  | succ n ih =>
      apply Reentrant.keeps_read_bind
      intro c
      split
      · exact Reentrant.keeps_pure ()
      · next message _ _ =>
          apply Reentrant.keeps_bind
          · apply hsend
            rw [message.property.1]
          · intro sent
            apply Reentrant.keeps_when
            intro _
            apply Reentrant.keeps_read_bind
            intro c
            split
            · exact Reentrant.keeps_abort _ (hr.abort _)
            · exact Reentrant.keeps_bind (hmodify _) fun _ => ih

omit [Build] in
theorem Event.keeps_onConnectionStateChange (n : Nat) (state : ConnectionState) :
    Keeps C P Inv (Event.onConnectionStateChange send_ n state) := by
  apply Reentrant.keeps_when
  intro _
  apply Reentrant.keeps_bind
  · exact Reentrant.keeps_read_bind fun c => keeps_announce hr hsend _ _ n _
  · intro _
    apply Reentrant.keeps_bind
    · exact Reentrant.keeps_read_bind fun c => keeps_announce hr hsend _ _ n _
    · intro _
      exact keeps_flush hr hmodify hsend n

end Event

variable (C P Inv) in
/-- The messages of `Presence` keep an invariant. -/
structure PresenceSends (send_ : MessageBuilder → Program Bool) : Prop where
  subscribe : ∀ m : Built .presence .subscribe [], Keeps C P Inv (send_ m.val)
  unsubscribe : ∀ m : Built .presence .unsubscribe [], Keeps C P Inv (send_ m.val)
  query : ∀ m : Built .presence .query [bytes "Q"], Keeps C P Inv (send_ m.val)

section Presence
variable [Build] (hr : SubscriberRoutine C P Inv) {send_ : MessageBuilder → Program Bool}
include hr

theorem Presence.keeps_notify (m : Message)
    (hinsert : ∀ id, Keeps C P Inv (Program.modifyPresence fun p =>
      { p with subscribeFnMap := p.subscribeFnMap.insertIfNew id none }))
    (hquery : m.header.action = .query → ∀ f users, Keeps C P Inv (Program.ask (.queryFn f users)))
    (hclear : m.header.action = .query → Keeps C P Inv (Program.modifyPresence fun p =>
      { p with querents := [], querentsVersion := p.querentsVersion + 1 })) :
    Keeps C P Inv (Presence.notify m) := by
  apply Reentrant.keeps_bind (hr.assert _ _ _)
  intro _
  split
  · exact Reentrant.keeps_pure ()
  split
  · next haction =>
    apply Reentrant.keeps_bind (hr.lift _)
    intro users
    apply Reentrant.keeps_read_bind
    intro c
    apply Reentrant.keeps_bind
    · apply Reentrant.keeps_forEach
      intro f _
      apply Reentrant.keeps_bind
      · apply keeps_invoke
        exact fun f => hquery haction f _
      · intro _
        apply Reentrant.keeps_read_bind
        intro c
        exact Reentrant.keeps_when fun _ => Reentrant.keeps_abort _ (hr.abort _)
    · exact fun _ => hclear haction
  split
  · exact hr.assert _ _ _
  · apply Reentrant.keeps_read_bind
    intro c
    apply Reentrant.keeps_forEach
    intro id _
    apply Reentrant.keeps_bind (hinsert id)
    intro _
    apply Reentrant.keeps_read_bind
    intro c
    apply Reentrant.keeps_bind (hr.lift _)
    intro name
    apply keeps_invoke
    intro f
    exact hr.subscriber _ rfl

omit [Build] in
theorem Presence.keeps_getAll (f : Function)
    (hpush : Keeps C P Inv (Program.modifyPresence fun p =>
      { p with querents := p.querents ++ [f], querentsVersion := p.querentsVersion + 1 }))
    (hsend : ∀ m : Built .presence .query [bytes "Q"], Keeps C P Inv (send_ m.val)) :
    Keeps C P Inv (Presence.getAll send_ f) := by
  apply Reentrant.keeps_bind hpush
  intro _
  apply Reentrant.keeps_read_bind
  intro c
  apply Reentrant.keeps_when
  intro _
  apply Reentrant.keeps_bind (hr.build _ _ _)
  exact fun message => keeps_ignore (hsend message)

variable (hmodify : ∀ f, (∀ p : Presence, (f p).querents = p.querents ∧
    (f p).querentsVersion = p.querentsVersion) → Keeps C P Inv (Program.modifyPresence f))
include hmodify

theorem Presence.keeps_subscribe
    (hsend : ∀ m : Built .presence .subscribe [], Keeps C P Inv (send_ m.val))
    (callback : Function) : Keeps C P Inv (Presence.subscribe send_ callback) := by
  apply Reentrant.keeps_bind hr.nextId
  intro id
  apply Reentrant.keeps_bind
  · apply Reentrant.keeps_read_bind
    intro c
    refine Reentrant.keeps_bind (hmodify _ ?_) fun _ => Reentrant.keeps_pure _
    exact fun _ => ⟨rfl, rfl⟩
  intro inserted
  apply Reentrant.keeps_bind (hr.assert _ _ _)
  intro _
  apply Reentrant.keeps_read_bind
  intro c
  apply Reentrant.keeps_bind
  · apply Reentrant.keeps_when
    intro _
    apply Reentrant.keeps_bind (hr.build _ _ _)
    exact fun message => keeps_ignore (hsend message)
  · intro _
    refine Reentrant.keeps_bind (hmodify _ ?_) fun _ => Reentrant.keeps_pure _
    exact fun _ => ⟨rfl, rfl⟩

variable (hsend : ∀ m : Built .presence .unsubscribe [], Keeps C P Inv (send_ m.val))
include hsend

theorem Presence.keeps_unsubscribeId (id : Nat) :
    Keeps C P Inv (Presence.unsubscribeId send_ id) := by
  apply Reentrant.keeps_read_bind
  intro c
  apply Reentrant.keeps_bind (hr.assert _ _ _)
  intro _
  apply Reentrant.keeps_when
  intro _
  refine Reentrant.keeps_bind (hmodify _ ?_) fun _ => ?_
  · exact fun _ => ⟨rfl, rfl⟩
  apply Reentrant.keeps_bind (hr.assert _ _ _)
  intro _
  apply Reentrant.keeps_when
  intro _
  apply Reentrant.keeps_bind (hr.build _ _ _)
  exact fun message => keeps_ignore (hsend message)

theorem Presence.keeps_unsubscribe : Keeps C P Inv (Presence.unsubscribe send_) := by
  apply Reentrant.keeps_read_bind
  intro c
  apply Reentrant.keeps_bind (hr.assert _ _ _)
  intro _
  refine Reentrant.keeps_bind (hmodify _ ?_) fun _ => ?_
  · exact fun _ => ⟨rfl, rfl⟩
  apply Reentrant.keeps_bind (hr.build _ _ _)
  exact fun message => keeps_ignore (hsend message)

end Presence

variable (C P Inv) in
/-- The messages of the handshake keep an invariant. -/
structure Handshakes [Build] (n : Nat) : Prop where
  pong : ∀ m : Built .connection .pong [], Keeps C P Inv (Connection.send n m.val)
  challengeResponse : ∀ uri, ∀ m : Built .connection .challengeResponse [uri],
    Keeps C P Inv (Connection.send n m.val)
  authenticationRequest : Keeps C P Inv (Connection.sendAuthenticationRequest n)

variable (C P Inv) in
/-- What the handlers of a connection do to its state, and what they send -/
structure Responsive [Build] (n : Nat) : Prop extends Handshakes C P Inv n where
  transition : ∀ m, Keeps C P Inv (Connection.transition n m)
  event : ∀ m, Keeps C P Inv (Event.notify (Connection.send n) m)
  presence : ∀ m, Keeps C P Inv (Presence.notify m)

theorem Connection.keeps_close
    (hdeliberate : Keeps C P Inv
      (Prog.modify fun c : Client => { c with deliberateClose := true }))
    (hclose : Keeps C P Inv (Program.ask .wsClose)) : Keeps C P Inv Connection.close :=
  Reentrant.keeps_bind hdeliberate fun _ => hclose

section Connection
variable [Build] {n : Nat} (hr : Routine C P Inv)
include hr

theorem Connection.keeps_authenticationAction (hclose : Keeps C P Inv Connection.close)
    (m : MessageProxy) (hcallback : m.header.action = .request →
      ∀ f data, Keeps C P Inv (Program.ask (.loginCallback f data))) : Keeps C P Inv (Connection.authenticationAction m) := by
  unfold Connection.authenticationAction
  split
  · exact Reentrant.keeps_bind (hr.report _) fun _ => hclose
  · exact Reentrant.keeps_bind (hr.report _) fun _ => hclose
  · exact Reentrant.keeps_bind (hr.report _) fun _ => hclose
  · next haction =>
      apply Reentrant.keeps_bind (hr.assert _ _ _)
      intro _
      apply Reentrant.keeps_read_bind
      intro c
      split
      · exact Reentrant.keeps_pure ()
      · apply Reentrant.keeps_bind (hr.lift _)
        intro data
        apply keeps_invoke
        exact fun f => hcallback haction f data
  · exact Reentrant.keeps_read_bind fun c => hr.report _

theorem Connection.keeps_construct (hs : SocketRoutine C P Inv) (uri : Buffer) :
    Keeps C P Inv (Connection.construct uri) := by
  apply Reentrant.keeps_bind
  · exact hr.ask _ rfl
  · intro wsState
    apply Reentrant.keeps_bind (hr.assert _ _ _)
    intro _
    apply Reentrant.keeps_bind (hs.setUri uri)
    intro _
    apply Reentrant.keeps_bind hs.wsOpen
    intro _
    apply Reentrant.keeps_bind
    · exact hr.ask _ rfl
    · exact nofun

theorem Connection.keeps_sendAuthenticationRequest
    (hsend : ∀ m : MessageBuilder, m.header.topic = .auth → Keeps C P Inv (Connection.send n m)) :
    Keeps C P Inv (Connection.sendAuthenticationRequest n) := by
  apply Reentrant.keeps_read_bind
  intro c
  apply Reentrant.keeps_bind (hr.assert _ _ _)
  intro _
  apply Reentrant.keeps_bind (hr.assert _ _ _)
  intro _
  split
  · exact Reentrant.keeps_abort _ (hr.abort _)
  · apply hr.send
    intro message hmessage
    apply hsend
    rw [hmessage]

theorem Connection.keeps_transition (hsetState : ∀ s, Keeps C P Inv (Connection.setState n s))
    (m : MessageProxy) : Keeps C P Inv (Connection.transition n m) := by
  apply Reentrant.keeps_read_bind
  intro c
  apply Reentrant.keeps_bind (hr.lift _)
  intro newState
  apply Reentrant.keeps_bind
  · exact Reentrant.keeps_when fun _ => hr.report _
  · exact fun _ => hsetState _

theorem Connection.keeps_connectionAction (hn : Handshakes C P Inv n) (m : MessageProxy)
    (hsetUri : ∀ uri, Keeps C P Inv (Program.ask (.setUri uri))) :
    Keeps C P Inv (Connection.connectionAction n m) := by
  unfold Connection.connectionAction
  split
  · exact Reentrant.keeps_bind (hr.build _ _ _) fun pong => keeps_ignore (hn.pong pong)
  · apply Reentrant.keeps_bind
    · exact hr.ask _ rfl
    · intro uri
      apply Reentrant.keeps_bind (hr.build _ _ _)
      exact fun response => keeps_ignore (hn.challengeResponse uri response)
  · apply Reentrant.keeps_read_bind
    intro c
    exact Reentrant.keeps_when fun _ => hn.authenticationRequest
  · split
    · exact hr.report _
    · apply Reentrant.keeps_bind (hr.lift _)
      intro uri
      exact hsetUri _
  · exact Reentrant.keeps_read_bind fun c => hr.report _

/-- The handling of a message, once it is noted -/
theorem Connection.keeps_handled (hn : Handshakes C P Inv n) (m : MessageProxy)
    (hdispatched : ∀ c, Keeps C P Inv (Program.leave (.dispatched m c)))
    (hevent : m.header.topic = .event → Keeps C P Inv (Event.notify (Connection.send n) m.view))
    (hpresence : m.header.topic = .presence → Keeps C P Inv (Presence.notify m.view))
    (hsetUri : ∀ uri, Keeps C P Inv (Program.ask (.setUri uri)))
    (haction : m.header.topic = .auth → Keeps C P Inv (Connection.authenticationAction m))
    (htransition : Keeps C P Inv (Connection.transition n m)) :
    Keeps C P Inv (Connection.handleMessage n m) := by
  apply Reentrant.keeps_read_bind
  intro c
  apply Reentrant.keeps_bind (hdispatched c)
  intro _
  apply Reentrant.keeps_bind (hr.debugMsg _)
  intro _
  split
  · next htopic => exact hevent htopic
  · next htopic => exact hpresence htopic
  · apply Reentrant.keeps_bind htransition
    exact fun _ => keeps_connectionAction hr hn m hsetUri
  · next htopic => exact Reentrant.keeps_bind (haction htopic) fun _ => htransition
  · exact Reentrant.keeps_bind (hr.report _) fun _ => hr.assert _ _ _

theorem Connection.keeps_handleMessage (hn : Responsive C P Inv n)
    (hsetUri : ∀ uri, Keeps C P Inv (Program.ask (.setUri uri)))
    (hclose : Keeps C P Inv Connection.close) (m : MessageProxy)
    (hcallback : m.header.topic = .auth → m.header.action = .request →
      ∀ f data, Keeps C P Inv (Program.ask (.loginCallback f data)))
    (hdispatched : ∀ c, Keeps C P Inv (Program.leave (.dispatched m c))) :
    Keeps C P Inv (Connection.handleMessage n m) :=
  keeps_handled hr hn.toHandshakes m hdispatched (fun _ => hn.event _) (fun _ => hn.presence _)
    hsetUri (fun htopic => keeps_authenticationAction hr hclose m (hcallback htopic))
    (hn.transition m)

/-- The messages of a buffer -/
theorem Connection.keeps_messages (raw : Buffer) (hmessage : ∀ messages errors,
      Parser.execute (raw ++ [0, 0]) = .ok (messages, errors) →
        ∀ m ∈ messages, Keeps C P Inv (Connection.handleMessage n m)) :
    Keeps C P Inv (Connection.onMessage n raw) := by
  intro w hw
  unfold Connection.onMessage
  rw [Reentrant.wp_bind]
  apply wp_lift
  · rintro ⟨messages, errors⟩ hexecute
    have hloops : Keeps C P Inv (do
        Prog.forEach errors fun error => Program.report (.parserError error raw)
        Prog.forEach messages (Connection.handleMessage n)) :=
      Reentrant.keeps_bind (Reentrant.keeps_forEach fun error _ => hr.report _)
        fun _ => Reentrant.keeps_forEach (hmessage messages errors hexecute)
    exact hloops w hw
  · exact fun _ _ => hw
  · exact fun f _ => hr.abort f w hw

theorem Connection.keeps_onMessage (raw : Buffer)
    (hmessage : ∀ m, Keeps C P Inv (Connection.handleMessage n m)) :
    Keeps C P Inv (Connection.onMessage n raw) :=
  keeps_messages hr raw fun _ _ _ m _ => hmessage m

omit hr in
theorem Connection.keeps_onOpen (hs : SocketRoutine C P Inv)
    (hsetState : ∀ s, s ≠ .open → Keeps C P Inv (Connection.setState n s)) :
    Keeps C P Inv (Connection.onOpen n) :=
  Reentrant.keeps_bind (hs.attempt fun _ => 0) fun _ => hsetState .awaitConnection nofun

omit hr in
theorem Connection.keeps_onClose (hs : SocketRoutine C P Inv)
    (hclosed : Keeps C P Inv (Connection.setState n .closed))
    (hreconnecting : Keeps C P Inv (Connection.setState n .reconnecting)) :
    Keeps C P Inv (Connection.onClose n) := by
  apply Reentrant.keeps_read_bind
  intro c
  split
  · exact hclosed
  · apply Reentrant.keeps_bind (hs.attempt (· + 1))
    intro _
    apply Reentrant.keeps_bind hreconnecting
    exact fun _ => hs.wsOpen

omit hr in
theorem Connection.keeps_login (hrequest : Keeps C P Inv (Connection.sendAuthenticationRequest n))
    (auth : Buffer) (callback : Function)
    (hlogin : Keeps C P Inv (Prog.modify fun c : Client =>
      { c with loginCallback := some callback, authParams := some auth })) :
    Keeps C P Inv (Connection.login n auth callback) := by
  apply Reentrant.keeps_read_bind
  intro c
  apply Reentrant.keeps_when
  intro _
  apply Reentrant.keeps_bind hlogin
  intro _
  apply Reentrant.keeps_read_bind
  intro c
  exact Reentrant.keeps_when fun _ => hrequest

end Connection
end Deepstream
