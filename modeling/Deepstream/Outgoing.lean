import Deepstream.Client.Rules
import Deepstream.Client.Runs

/-!
Where the messages of a client come from.

Every message that is sent was asked for by an entry, or belongs to the
handshake. Names, patterns, credentials and whole messages are stored before
they are sent, so the invariant also speaks about the maps and the queue.
-/

namespace Deepstream

open Reentrant (Policy Prog Keeps Regime wp)

/-- The messages there is a reason to send after a history. A pattern that was listened to
is given up with a message of its own, which may be excluded. -/
inductive Origin (mayUnlisten : Buffer → Prop) (history : List Item) :
    Header → List Buffer → Prop where
  | emit (name data : Buffer) (hname : name ≠ []) (h : .enter (.emit name data) ∈ history) :
      Origin mayUnlisten history { topic := .event, action := .event } [name, data]
  | subscribe (name : Buffer) (callback : Function)
      (h : .enter (.subscribe name callback) ∈ history) :
      Origin mayUnlisten history { topic := .event, action := .subscribe } [name]
  | unsubscribe (name : Buffer) (h : .enter (.unsubscribe name) ∈ history) :
      Origin mayUnlisten history { topic := .event, action := .unsubscribe } [name]
  | unsubscribeId (name : Buffer) (id : Nat) (h : .enter (.unsubscribeId name id) ∈ history) :
      Origin mayUnlisten history { topic := .event, action := .unsubscribe } [name]
  | listen (pattern : Buffer) (callback : Function)
      (h : .enter (.listen pattern callback) ∈ history) :
      Origin mayUnlisten history { topic := .event, action := .listen } [pattern]
  | unlisten (pattern : Buffer) (h : mayUnlisten pattern) :
      Origin mayUnlisten history { topic := .event, action := .unlisten } [pattern]
  | listenAccept (pattern matched : Buffer) :
      Origin mayUnlisten history { topic := .event, action := .listenAccept } [pattern, matched]
  | listenReject (pattern matched : Buffer) :
      Origin mayUnlisten history { topic := .event, action := .listenReject } [pattern, matched]
  | login (auth : Buffer) (callback : Function) (h : .enter (.login auth callback) ∈ history) :
      Origin mayUnlisten history { topic := .auth, action := .request } [auth]
  | challengeResponse (uri : Buffer) :
      Origin mayUnlisten history { topic := .connection, action := .challengeResponse } [uri]
  | pong : Origin mayUnlisten history { topic := .connection, action := .pong } []
  | presenceSubscribe : Origin mayUnlisten history { topic := .presence, action := .subscribe } []
  | presenceUnsubscribe :
      Origin mayUnlisten history { topic := .presence, action := .unsubscribe } []
  | query : Origin mayUnlisten history { topic := .presence, action := .query } [bytes "Q"]

variable {mayUnlisten : Buffer → Prop}

theorem Origin.mono {history history' : List Item} {header : Header} {arguments : List Buffer}
    (h : Origin mayUnlisten history header arguments) (hsuffix : history <:+ history') :
    Origin mayUnlisten history' header arguments := by
  cases h with
  | emit name data hname h => exact .emit name data hname (hsuffix.subset h)
  | subscribe name callback h => exact .subscribe name callback (hsuffix.subset h)
  | unsubscribe name h => exact .unsubscribe name (hsuffix.subset h)
  | unsubscribeId name id h => exact .unsubscribeId name id (hsuffix.subset h)
  | listen pattern callback h => exact .listen pattern callback (hsuffix.subset h)
  | unlisten pattern h => exact .unlisten pattern h
  | listenAccept pattern matched => exact .listenAccept pattern matched
  | listenReject pattern matched => exact .listenReject pattern matched
  | login auth callback h => exact .login auth callback (hsuffix.subset h)
  | challengeResponse uri => exact .challengeResponse uri
  | pong => exact .pong
  | presenceSubscribe => exact .presenceSubscribe
  | presenceUnsubscribe => exact .presenceUnsubscribe
  | query => exact .query

/-- A client does not acknowledge anything. -/
theorem Origin.isAck {history : List Item} {h : Header} {arguments : List Buffer}
    (horigin : Origin mayUnlisten history h arguments) :
    h.isAck = false := by
  cases horigin <;> rfl

/-- What the state holds back to be sent later has an origin. -/
structure Stored (mayUnlisten : Buffer → Prop) (history : List Item) (c : Client) : Prop where
  queued : ∀ m ∈ c.event.sendQueue, Origin mayUnlisten history m.val.header m.val.arguments
  subscribers : ∀ name ∈ c.event.subscriberMap,
    Origin mayUnlisten history { topic := .event, action := .subscribe } [name]
  listeners : ∀ pattern ∈ c.event.listenerMap,
    Origin mayUnlisten history { topic := .event, action := .listen } [pattern]
  authParams : ∀ auth, c.authParams = some auth →
    Origin mayUnlisten history { topic := .auth, action := .request } [auth]

/-- What a history says about the messages in it -/
structure Recorded [Build] (mayUnlisten : Buffer → Prop) (history : List Item) : Prop where
  sending : ∀ m, .note (.sending m) ∈ history → Origin mayUnlisten history m.header m.arguments
  sent : ∀ m buffer, .call (.wsSend m buffer) ∈ history →
    Origin mayUnlisten history m.header m.arguments ∧ m.toBinary = .ok buffer

/-- Whatever was or will be sent has an origin. -/
structure Outgoing [Build] (mayUnlisten : Buffer → Prop) (w : World) : Prop where
  stored : Stored mayUnlisten w.trace w.state
  recorded : Recorded mayUnlisten w.trace

/-- Items that hand no message over -/
def Item.IsNeutral : Item → Prop
  | .note (.sending _) => False
  | .call (.wsSend _ _) => False
  | _ => True

theorem Stored.mono {history history' : List Item} {c : Client}
    (h : Stored mayUnlisten history c) (hsuffix : history <:+ history') :
    Stored mayUnlisten history' c where
  queued m hm := (h.queued m hm).mono hsuffix
  subscribers name hname := (h.subscribers name hname).mono hsuffix
  listeners pattern hpattern := (h.listeners pattern hpattern).mono hsuffix
  authParams auth hauth := (h.authParams auth hauth).mono hsuffix

section Outgoing
variable [Build]

theorem Recorded.cons {history : List Item} (h : Recorded mayUnlisten history) (i : Item)
    (hsending : ∀ m, i = .note (.sending m) → Origin mayUnlisten history m.header m.arguments)
    (hsent : ∀ m buffer, i = .call (.wsSend m buffer) →
      Origin mayUnlisten history m.header m.arguments ∧ m.toBinary = .ok buffer) :
    Recorded mayUnlisten (i :: history) where
  sending m hm := by
    apply Origin.mono _ (List.suffix_cons i history)
    cases List.mem_cons.mp hm with
    | inl heq => exact hsending m heq.symm
    | inr hmem => exact h.sending m hmem
  sent m buffer hm := by
    rw [and_comm]
    cases List.mem_cons.mp hm with
    | inl heq =>
        obtain ⟨horigin, hbinary⟩ := hsent m buffer heq.symm
        exact ⟨hbinary, horigin.mono (List.suffix_cons i history)⟩
    | inr hmem =>
        obtain ⟨horigin, hbinary⟩ := h.sent m buffer hmem
        exact ⟨hbinary, horigin.mono (List.suffix_cons i history)⟩

theorem Outgoing.neutral {w w' : World} (h : Outgoing mayUnlisten w) (i : Item)
    (htrace : w'.trace = i :: w.trace) (hstate : w'.state = w.state) (hi : i.IsNeutral) :
    Outgoing mayUnlisten w' where
  stored := by
    rw [htrace, hstate]
    exact h.stored.mono (List.suffix_cons i _)
  recorded := by
    rw [htrace]
    apply h.recorded.cons i
    · intro m heq
      rw [heq] at hi
      exact hi.elim
    · intro m buffer heq
      rw [heq] at hi
      exact hi.elim

end Outgoing

section Programs
variable [Build] (mayUnlisten)

/-- No call is quiet: whatever the environment does while it answers, messages keep their
origins. -/
def outgoing : Regime interface where
  quiet _ := false
  inv _ := Outgoing mayUnlisten
  rel _ _ _ := True
  pre e w := .enter e ∈ w.trace ∧ ∀ pattern, e = .unlisten pattern →
    pattern ∈ w.state.event.listenerMap → asciiUnitSeparator ∉ pattern → mayUnlisten pattern
  abort _ := Outgoing mayUnlisten

/-- The invariant, after more than a given history -/
def Grown (history : List Item) (w : World) : Prop :=
  Outgoing mayUnlisten w ∧ history <:+ w.trace

variable (P : Policy interface) {α : Type}

/-- A program that sends nothing without an origin in a history or in what was stored -/
abbrev Justified (history : List Item) (p : Program α) : Prop :=
  Keeps (outgoing mayUnlisten).contract P (Grown mayUnlisten history) p

variable {mayUnlisten P} {history : List Item}

theorem Grown.neutral {w w' : World} (h : Grown mayUnlisten history w) (i : Item)
    (htrace : w'.trace = i :: w.trace) (hstate : w'.state = w.state) (hi : i.IsNeutral) :
    Grown mayUnlisten history w' := by
  refine ⟨h.1.neutral i htrace hstate hi, ?_⟩
  rw [htrace]
  exact h.2.trans (List.suffix_cons i _)

theorem justified_state {f : Client → Client}
    (h : ∀ t c, history <:+ t → Stored mayUnlisten t c → Stored mayUnlisten t (f c)) :
    Justified mayUnlisten P history (Prog.modify f) :=
  Reentrant.keeps_modify fun _ hw => ⟨⟨h _ _ hw.2 hw.1.stored, hw.1.recorded⟩, hw.2⟩

/-- What was stored when the state is read has an origin in the history up to there. -/
theorem justified_read {next : Client → Program α}
    (h : ∀ t c, history <:+ t → Stored mayUnlisten t c → Justified mayUnlisten P t (next c)) :
    Justified mayUnlisten P history (Prog.read >>= next) := by
  intro w hw
  apply Reentrant.wp_mono (h w.trace w.state hw.2 hw.1.stored w ⟨hw.1, List.suffix_refl _⟩)
  · exact fun a w' hw' => ⟨hw'.1, hw.2.trans hw'.2⟩
  · exact fun x w' hw' => ⟨hw'.1, hw.2.trans hw'.2⟩

/-- A call that is not one to `send` -/
theorem justified_ask (c : Call) (hc : ∀ m buffer, c ≠ .wsSend m buffer) :
    Justified mayUnlisten P history (Program.ask c) := by
  apply Reentrant.keeps_ask
  · intro w hw
    refine ⟨hw.1.neutral (.call c) rfl rfl ?_, _, rfl⟩
    cases c with
    | wsSend m buffer => exact absurd rfl (hc m buffer)
    | _ => trivial
  · intro w w' r hw hlater hafter _
    have hgrown : Grown mayUnlisten history w' :=
      ⟨hafter.1, hw.2.trans ((List.suffix_cons _ _).trans hlater.trace)⟩
    exact hgrown.neutral (.back c r) rfl rfl trivial

variable (mayUnlisten P history) in
theorem routine_grown :
    Routine (outgoing mayUnlisten).contract P (Grown mayUnlisten history) where
  abort f w hw := hw.1
  ask c hc := by
    apply justified_ask
    rintro m buffer rfl
    cases hc
  nextId := by
    apply Reentrant.keeps_read_bind
    intro c
    apply Reentrant.keeps_bind (justified_state _) fun _ => Reentrant.keeps_pure _
    exact fun _ _ _ h => ⟨h.queued, h.subscribers, h.listeners, h.authParams⟩

variable (mayUnlisten P history) in
theorem socketRoutine_grown :
    SocketRoutine (outgoing mayUnlisten).contract P (Grown mayUnlisten history) where
  setUri _ := justified_ask _ fun _ _ => nofun
  wsOpen := justified_ask _ fun _ _ => nofun
  close := Connection.keeps_close
    (justified_state fun _ _ _ h => ⟨h.queued, h.subscribers, h.listeners, h.authParams⟩)
    (justified_ask _ fun _ _ => nofun)
  attempt _ := justified_state fun _ _ _ h =>
    ⟨h.queued, h.subscribers, h.listeners, h.authParams⟩

theorem justified_abort (f : Failure) : Justified mayUnlisten P history (.abort f : Program α) :=
  fun _ hw => hw.1

theorem justified_modifyEvent {f : Event → Event}
    (hqueued : ∀ e, ∀ m ∈ (f e).sendQueue, m ∈ e.sendQueue ∨
      Origin mayUnlisten history m.val.header m.val.arguments)
    (hsubscribers : ∀ e, ∀ name ∈ (f e).subscriberMap, name ∈ e.subscriberMap ∨
      Origin mayUnlisten history { topic := .event, action := .subscribe } [name])
    (hlisteners : ∀ e, ∀ pattern ∈ (f e).listenerMap, pattern ∈ e.listenerMap ∨
      Origin mayUnlisten history { topic := .event, action := .listen } [pattern]) :
    Justified mayUnlisten P history (Program.modifyEvent f) := by
  apply justified_state
  intro t c hsuffix h
  refine ⟨?_, ?_, ?_, h.authParams⟩
  · intro m hm
    cases hqueued c.event m hm with
    | inl hold => exact h.queued m hold
    | inr horigin => exact horigin.mono hsuffix
  · intro name hname
    cases hsubscribers c.event name hname with
    | inl hold => exact h.subscribers name hold
    | inr horigin => exact horigin.mono hsuffix
  · intro pattern hpattern
    cases hlisteners c.event pattern hpattern with
    | inl hold => exact h.listeners pattern hold
    | inr horigin => exact horigin.mono hsuffix

/-- A change of the functions of subscribers only -/
theorem justified_subscribeFnMap (f : Event → Std.TreeMap Nat Function) :
    Justified mayUnlisten P history
      (Program.modifyEvent fun e => { e with subscribeFnMap := f e }) :=
  justified_modifyEvent (fun _ _ h => .inl h) (fun _ _ h => .inl h) fun _ _ h => .inl h

theorem justified_modifyPresence (f : Presence → Presence) :
    Justified mayUnlisten P history (Program.modifyPresence f) :=
  justified_state fun _ _ _ h => ⟨h.queued, h.subscribers, h.listeners, h.authParams⟩

section Send
variable {send_ : MessageBuilder → Program Bool}
  (hsend : ∀ t m, Origin mayUnlisten t m.header m.arguments → Justified mayUnlisten P t (send_ m))
include hsend

theorem justified_send {topic : Topic} {action : Action} {arguments : List Buffer}
    (h : Origin mayUnlisten history { topic, action } arguments) :
    Justified mayUnlisten P history (Program.build topic action arguments >>=
      fun message => Program.ignore (send_ message.val)) := by
  apply Reentrant.keeps_bind ((routine_grown _ P history).build _ _ _)
  intro message
  apply keeps_ignore
  apply hsend
  rw [message.property.1, message.property.2]
  exact h

theorem justified_notifyListeners (m : Message) :
    Justified mayUnlisten P history (Event.notifyListeners send_ m) := by
  have hr := routine_grown mayUnlisten P history
  apply Reentrant.keeps_bind (hr.assert _ _ _)
  intro _
  apply Reentrant.keeps_bind (hr.assert _ _ _)
  intro _
  apply Reentrant.keeps_bind (hr.assert _ _ _)
  intro _
  apply Reentrant.keeps_bind (hr.lift _)
  intro pattern
  apply Reentrant.keeps_bind (hr.lift _)
  intro matched
  apply Reentrant.keeps_read_bind
  intro c
  split
  · exact Reentrant.keeps_pure ()
  · apply Reentrant.keeps_bind
    · exact keeps_invoke _ _ fun f => hr.ask _ rfl
    · intro accept
      apply Reentrant.keeps_when
      intro _
      apply justified_send hsend
      cases accept with
      | true => exact .listenAccept pattern matched
      | false => exact .listenReject pattern matched

theorem justified_notify (m : Message) :
    Justified mayUnlisten P history (Event.notify send_ m) := by
  have hr := routine_grown mayUnlisten P history
  apply Reentrant.keeps_bind (hr.assert _ _ _)
  intro _
  split
  · apply Reentrant.keeps_bind (hr.assert _ _ _)
    intro _
    apply Reentrant.keeps_bind (hr.assert _ _ _)
    intro _
    apply Reentrant.keeps_when
    intro _
    apply Reentrant.keeps_bind (hr.lift _)
    intro name
    apply Reentrant.keeps_bind (hr.lift _)
    intro data
    apply Reentrant.keeps_read_bind
    intro c
    split
    · exact Reentrant.keeps_pure ()
    · apply Reentrant.keeps_forEach
      intro id _
      apply Reentrant.keeps_bind (justified_subscribeFnMap _)
      intro _
      apply Reentrant.keeps_read_bind
      intro c
      exact keeps_invoke _ _ fun f => hr.ask _ rfl
  · exact Reentrant.keeps_bind (hr.assert _ _ _) fun _ => justified_notifyListeners hsend m
  · exact Reentrant.keeps_bind (hr.assert _ _ _) fun _ => justified_notifyListeners hsend m
  all_goals exact hr.assert _ _ _

theorem justified_emit (name data : Buffer) (h : .enter (.emit name data) ∈ history) :
    Justified mayUnlisten P history (Event.emit send_ name data) := by
  have hr := routine_grown mayUnlisten P history
  unfold Event.emit
  split
  · exact Reentrant.keeps_raise _
  · next hname =>
    apply Reentrant.keeps_bind (hr.build _ _ _)
    intro evt
    have horigin : Origin mayUnlisten history evt.val.header evt.val.arguments := by
      rw [evt.property.1, evt.property.2]
      exact .emit name data hname h
    apply Reentrant.keeps_bind
    · exact Reentrant.keeps_leave fun w hw => hw.neutral _ rfl rfl trivial
    · intro _
      apply Reentrant.keeps_bind (hsend history evt.val horigin)
      intro sent
      apply Reentrant.keeps_bind
      · apply Reentrant.keeps_when
        intro _
        unfold Event.enqueue
        apply justified_modifyEvent
        · intro e m hm
          cases List.mem_append.mp hm with
          | inl hold => exact .inl hold
          | inr hnew =>
              rw [List.mem_singleton.mp hnew]
              exact .inr horigin
        · exact fun _ _ hold => .inl hold
        · exact fun _ _ hold => .inl hold
      · intro _
        apply Reentrant.keeps_read_bind
        intro c
        exact Reentrant.keeps_when fun _ => justified_notify hsend _

theorem justified_subscribe (name : Buffer) (callback : Function)
    (h : .enter (.subscribe name callback) ∈ history) :
    Justified mayUnlisten P history (Event.subscribe send_ name callback) := by
  have hr := routine_grown mayUnlisten P history
  -- every change of the map adds at most this name
  have hname : ∀ f : Event → Node (List Nat), ∀ k : Event → Nat,
      Justified mayUnlisten P history (Program.modifyEvent fun e =>
        { e with subscriberMap := e.subscriberMap.insert name (f e), places := k e }) := by
    intro f k
    apply justified_modifyEvent
    · exact fun _ _ hold => .inl hold
    · intro e name' hname'
      cases Std.TreeMap.mem_insert.mp hname' with
      | inl heq =>
          rw [← Std.LawfulEqCmp.eq_of_compare heq]
          exact .inr (.subscribe name callback h)
      | inr hold => exact .inl hold
    · exact fun _ _ hold => .inl hold
  unfold Event.subscribe
  split
  · exact Reentrant.keeps_raise _
  · apply Reentrant.keeps_bind hr.nextId
    intro id
    apply Reentrant.keeps_bind
    · apply Reentrant.keeps_read_bind
      intro c
      exact Reentrant.keeps_bind (justified_subscribeFnMap _) fun _ => Reentrant.keeps_pure _
    · intro inserted
      apply Reentrant.keeps_bind (hr.assert _ _ _)
      intro _
      apply Reentrant.keeps_bind
      · apply Reentrant.keeps_read_bind
        intro c
        split
        · exact Reentrant.keeps_pure _
        · exact Reentrant.keeps_bind (hname _ _) fun _ => Reentrant.keeps_pure _
      · intro subscribers
        apply Reentrant.keeps_bind
        · exact Reentrant.keeps_when fun _ => justified_send hsend (.subscribe name callback h)
        · intro _
          apply Reentrant.keeps_bind
          · apply Reentrant.keeps_read_bind
            intro c
            split
            · exact justified_abort _
            · split
              · exact Reentrant.keeps_bind (hr.assert _ _ _) fun _ => hname _ Event.places
              · exact justified_abort _
          · exact fun _ => Reentrant.keeps_pure _

omit hsend in
theorem justified_eraseFn (id : Nat) :
    Justified mayUnlisten P history (Event.eraseFn id) := by
  apply Reentrant.keeps_read_bind
  intro c
  apply Reentrant.keeps_bind (justified_subscribeFnMap _)
  exact fun _ => (routine_grown _ P history).assert _ _ _

theorem justified_unsubscribe (name : Buffer)
    (h : Origin mayUnlisten history { topic := .event, action := .unsubscribe } [name]) :
    Justified mayUnlisten P history (Event.unsubscribe send_ name) := by
  apply Reentrant.keeps_read_bind
  intro c
  split
  · exact Reentrant.keeps_pure ()
  · apply Reentrant.keeps_bind
    · exact Reentrant.keeps_forEach fun id _ => justified_eraseFn id
    · intro _
      apply Reentrant.keeps_bind
      · apply justified_modifyEvent
        · exact fun _ _ hold => .inl hold
        · exact fun _ _ hname => .inl (Std.TreeMap.mem_of_mem_erase hname)
        · exact fun _ _ hold => .inl hold
      · intro _
        apply Reentrant.keeps_read_bind
        intro c
        exact Reentrant.keeps_when fun _ => justified_send hsend h

theorem justified_unsubscribeId (name : Buffer) (id : Nat)
    (h : .enter (.unsubscribeId name id) ∈ history) :
    Justified mayUnlisten P history (Event.unsubscribeId send_ name id) := by
  have hr := routine_grown mayUnlisten P history
  apply justified_read
  intro t c hsuffix hstored
  have hr' := routine_grown mayUnlisten P t
  split
  · exact Reentrant.keeps_pure ()
  · next node hnode =>
      split
      · apply Reentrant.keeps_bind
        · apply justified_modifyEvent
          · exact fun _ _ hold => .inl hold
          · intro e name' hname'
            cases Std.TreeMap.mem_insert.mp hname' with
            | inl heq =>
                rw [← Std.LawfulEqCmp.eq_of_compare heq]
                refine .inr (hstored.subscribers name ?_)
                exact NameMap.mem_of_getElem? hnode
            | inr hold => exact .inl hold
          · exact fun _ _ hold => .inl hold
        · intro _
          apply Reentrant.keeps_bind (justified_eraseFn id)
          intro _
          apply Reentrant.keeps_when
          intro _
          exact justified_unsubscribe hsend name (.unsubscribeId name id (hsuffix.subset h))
      · exact hr'.assert _ _ _

theorem justified_listen (pattern : Buffer) (callback : Function)
    (h : .enter (.listen pattern callback) ∈ history) :
    Justified mayUnlisten P history (Event.listen send_ pattern callback) := by
  unfold Event.listen
  split
  · exact Reentrant.keeps_raise _
  · apply Reentrant.keeps_read_bind
    intro c
    apply Reentrant.keeps_when
    intro _
    apply Reentrant.keeps_bind
    · apply justified_modifyEvent
      · exact fun _ _ hold => .inl hold
      · exact fun _ _ hold => .inl hold
      · intro e pattern' hpattern'
        cases Std.TreeMap.mem_insert.mp hpattern' with
        | inl heq =>
            rw [← Std.LawfulEqCmp.eq_of_compare heq]
            exact .inr (.listen pattern callback h)
        | inr hold => exact .inl hold
    · exact fun _ => justified_send hsend (.listen pattern callback h)

/-- Without a separator the message is built, which the entry must have been permitted for. -/
theorem justified_unlisten (pattern : Buffer) (w : World) (hw : Grown mayUnlisten history w)
    (h : pattern ∈ w.state.event.listenerMap → asciiUnitSeparator ∉ pattern →
      mayUnlisten pattern) :
    wp (outgoing mayUnlisten).contract P (Event.unlisten send_ pattern)
      (fun _ w' => Grown mayUnlisten history w') (fun _ w' => Grown mayUnlisten history w') w := by
  unfold Event.unlisten
  rw [Reentrant.wp_bind, Reentrant.wp_read, wp_when]
  refine ⟨fun hmem => ?_, fun _ => hw⟩
  have herase : Justified mayUnlisten P history (Program.modifyEvent fun e =>
      { e with listenerMap := e.listenerMap.erase pattern }) := by
    apply justified_modifyEvent
    · exact fun _ _ hold => .inl hold
    · exact fun _ _ hold => .inl hold
    · exact fun _ _ hpattern => .inl (Std.TreeMap.mem_of_mem_erase hpattern)
  rw [Reentrant.wp_bind, wp_modifyEvent, Reentrant.wp_bind]
  have hw' := herase w hw
  apply wp_build _ _ _ (by simp)
  · intro hclean message
    have hmay := h hmem (hclean pattern (List.mem_singleton.mpr rfl))
    rw [wp_ignore]
    apply hsend history message.val _ _ hw'
    rw [message.property.1, message.property.2]
    exact .unlisten pattern hmay
  · exact fun _ => hw'

theorem justified_announce {β : Type} (map : Event → NameMap (Node β)) (action : Action)
    (horigin : ∀ t c, Stored mayUnlisten t c → ∀ name ∈ map c.event,
      Origin mayUnlisten t { topic := .event, action } [name])
    (n : Nat) (entry : Option (Buffer × Node β))
    (hentry : ∀ e, entry = some e →
      Origin mayUnlisten history { topic := .event, action } [e.1]) :
    Justified mayUnlisten P history (Event.announce send_ map action n entry) := by
  induction n generalizing entry history with
  | zero =>
      cases entry with
      | none => exact Reentrant.keeps_pure ()
      | some entry => exact justified_abort _
  | succ n ih =>
      cases entry with
      | none => exact Reentrant.keeps_pure ()
      | some entry =>
          apply Reentrant.keeps_bind ((routine_grown _ P history).build _ _ _)
          intro message
          apply Reentrant.keeps_bind
          · apply hsend
            rw [message.property.1, message.property.2]
            exact hentry entry rfl
          · intro sent
            apply Reentrant.keeps_when
            intro _
            apply justified_read
            intro t c _ hstored
            split
            · apply ih
              intro e he
              exact horigin t c hstored e.1 (NameMap.mem_of_after he)
            · exact justified_abort _

theorem justified_flush (n : Nat) : Justified mayUnlisten P history (Event.flush send_ n) := by
  induction n generalizing history with
  | zero => exact justified_abort _
  | succ n ih =>
      apply justified_read
      intro t c _ hstored
      split
      · exact Reentrant.keeps_pure ()
      · next message queue hqueue =>
          apply Reentrant.keeps_bind
          · apply hsend
            exact hstored.queued message (by rw [hqueue]; exact List.mem_cons_self ..)
          · intro sent
            apply Reentrant.keeps_when
            intro _
            apply justified_read
            intro t' c' _ hstored'
            split
            · exact justified_abort _
            · next _ queue' hqueue' =>
                apply Reentrant.keeps_bind _ fun _ => ih
                apply justified_modifyEvent
                · intro e m hm
                  refine .inr (hstored'.queued m ?_)
                  rw [hqueue']
                  exact List.mem_cons_of_mem _ hm
                · exact fun _ _ hold => .inl hold
                · exact fun _ _ hold => .inl hold

theorem justified_onConnectionStateChange (n : Nat) (state : ConnectionState) :
    Justified mayUnlisten P history (Event.onConnectionStateChange send_ n state) := by
  have hfirst : ∀ {β : Type} (map : NameMap β) entry, map.toList.head? = some entry →
      entry.1 ∈ map := by
    intro β map entry h
    exact NameMap.mem_of_mem_toList (List.mem_of_mem_head? h)
  apply Reentrant.keeps_when
  intro _
  apply Reentrant.keeps_bind
  · apply justified_read
    intro t c _ hstored
    apply justified_announce hsend _ _ (fun _ _ h => h.subscribers)
    exact fun e he => hstored.subscribers e.1 (hfirst _ e he)
  · intro _
    apply Reentrant.keeps_bind
    · apply justified_read
      intro t c _ hstored
      apply justified_announce hsend _ _ (fun _ _ h => h.listeners)
      exact fun e he => hstored.listeners e.1 (hfirst _ e he)
    · exact fun _ => justified_flush hsend n

end Send

/-- A message with an origin may be handed over, whatever setting the state leads to. -/
theorem justified_sendWith {setState : ConnectionState → Program Unit}
    (hset : ∀ s, Justified mayUnlisten P history (setState s)) (m : MessageBuilder)
    (h : Origin mayUnlisten history m.header m.arguments) :
    Justified mayUnlisten P history (Connection.sendWith setState m) := by
  have hr := routine_grown mayUnlisten P history
  have htransmit : Justified mayUnlisten P history (Connection.transmit m) := by
    intro w hw
    unfold Connection.transmit
    rw [Reentrant.wp_bind]
    apply wp_lift
    · intro buffer hbinary
      apply Reentrant.wp_ask
      · refine ⟨⟨hw.1.stored.mono (List.suffix_cons _ _), ?_⟩, _, rfl⟩
        apply hw.1.recorded.cons
        · nofun
        · intro m' buffer' heq
          cases heq
          exact ⟨h.mono hw.2, hbinary⟩
      · intro w' hlater hafter
        have hgrown : Grown mayUnlisten history w' :=
          ⟨hafter.1, hw.2.trans ((List.suffix_cons _ _).trans hlater.trace)⟩
        exact ⟨fun _ _ => hgrown.neutral _ rfl rfl trivial,
          fun _ _ => hgrown.neutral _ rfl rfl trivial⟩
    · exact fun _ _ => hw
    · exact fun _ _ => hw.1
  apply Reentrant.keeps_bind
  · apply Reentrant.keeps_leave
    intro w hw
    refine ⟨⟨hw.1.stored.mono (List.suffix_cons _ _), ?_⟩, hw.2.trans (List.suffix_cons _ _)⟩
    apply hw.1.recorded.cons
    · intro m' heq
      cases heq
      exact h.mono hw.2
    · nofun
  · intro _
    apply Reentrant.keeps_bind (hr.debugMsg _)
    intro _
    apply Reentrant.keeps_read_bind
    intro c
    split
    · apply Reentrant.keeps_bind (hr.lift _)
      intro newState
      apply Reentrant.keeps_bind
      · apply Reentrant.keeps_when
        intro _
        exact Reentrant.keeps_leave fun w hw => hw.neutral _ rfl rfl trivial
      · intro _
        apply Reentrant.keeps_bind (hr.assert _ _ _)
        intro _
        split
        · exact Reentrant.keeps_raise _
        · exact Reentrant.keeps_bind (hset newState) fun _ => htransmit
    · split
      · exact htransmit
      · exact Reentrant.keeps_pure _

theorem justified_setState (n : Nat) (state : ConnectionState) :
    Justified mayUnlisten P history (Connection.setState n state) := by
  induction n generalizing history state with
  | zero =>
      apply Reentrant.keeps_read_bind
      intro c
      apply Reentrant.keeps_when
      intro _
      apply Reentrant.keeps_bind
      · exact justified_state fun _ _ _ h => ⟨h.queued, h.subscribers, h.listeners, h.authParams⟩
      · intro _
        apply Reentrant.keeps_bind _ fun _ => justified_abort _
        exact Reentrant.keeps_leave fun w hw => hw.neutral _ rfl rfl trivial
  | succ n ih =>
      apply Reentrant.keeps_read_bind
      intro c
      apply Reentrant.keeps_when
      intro _
      apply Reentrant.keeps_bind
      · exact justified_state fun _ _ _ h => ⟨h.queued, h.subscribers, h.listeners, h.authParams⟩
      · intro _
        apply Reentrant.keeps_bind
        · exact Reentrant.keeps_leave fun w hw => hw.neutral _ rfl rfl trivial
        · intro _
          apply justified_onConnectionStateChange
          intro t m h
          exact justified_sendWith (fun s => ih s) m h

variable (mayUnlisten P) in
theorem justified_connectionSend (n : Nat) (t : List Item) (m : MessageBuilder)
    (h : Origin mayUnlisten t m.header m.arguments) :
    Justified mayUnlisten P t (Connection.send n m) :=
  justified_sendWith (justified_setState n) m h

theorem justified_sendAuthenticationRequest (n : Nat) :
    Justified mayUnlisten P history (Connection.sendAuthenticationRequest n) := by
  apply justified_read
  intro t c _ hstored
  have hr := routine_grown mayUnlisten P t
  apply Reentrant.keeps_bind (hr.assert _ _ _)
  intro _
  apply Reentrant.keeps_bind (hr.assert _ _ _)
  intro _
  split
  · exact justified_abort _
  · next auth hauth =>
      exact justified_send (justified_connectionSend _ _ n) (hstored.authParams auth hauth)

variable (mayUnlisten P history) in
theorem responsive_grown (n : Nat) :
    Responsive (outgoing mayUnlisten).contract P (Grown mayUnlisten history) n where
  transition := Connection.keeps_transition (routine_grown _ _ _) (justified_setState n)
  pong m := by
    apply justified_connectionSend
    rw [m.property.1, m.property.2]
    exact .pong
  challengeResponse uri m := by
    apply justified_connectionSend
    rw [m.property.1, m.property.2]
    exact .challengeResponse uri
  authenticationRequest := justified_sendAuthenticationRequest n
  event := justified_notify (justified_connectionSend _ _ n)
  presence m := Presence.keeps_notify (routine_grown _ _ _).toSubscriberRoutine m (fun _ => justified_modifyPresence _)
    (fun _ _ _ => justified_ask _ fun _ _ => nofun) fun _ => justified_modifyPresence _

variable (mayUnlisten P history) in
theorem presenceSends_grown (n : Nat) :
    PresenceSends (outgoing mayUnlisten).contract P (Grown mayUnlisten history)
      (Connection.send n) where
  subscribe m := by
    apply justified_connectionSend
    rw [m.property.1, m.property.2]
    exact .presenceSubscribe
  unsubscribe m := by
    apply justified_connectionSend
    rw [m.property.1, m.property.2]
    exact .presenceUnsubscribe
  query m := by
    apply justified_connectionSend
    rw [m.property.1, m.property.2]
    exact .query

/-- Every entry that is not the end of listening, once its beginning is in the history -/
theorem justified_program (n : Nat) (e : Entry) (h : .enter e ∈ history)
    (hunlisten : ∀ pattern, e ≠ .unlisten pattern) :
    Justified mayUnlisten P history (program n e) := by
  have hr := routine_grown mayUnlisten P history
  have hs := socketRoutine_grown mayUnlisten P history
  have hn := responsive_grown mayUnlisten P history n
  have hp := presenceSends_grown mayUnlisten P history n
  have hsend := justified_connectionSend mayUnlisten P n
  cases e with
  | construct uri => exact Connection.keeps_construct hr hs uri
  | onOpen => exact Connection.keeps_onOpen hs fun s _ => justified_setState n s
  | onClose | onError =>
      exact Connection.keeps_onClose hs (justified_setState n _) (justified_setState n _)
  | onMessage raw =>
      apply Connection.keeps_onMessage hr
      intro m
      apply Connection.keeps_handleMessage hr hn hs.setUri hs.close m
      · exact fun _ _ _ _ => justified_ask _ fun _ _ => nofun
      exact fun c => Reentrant.keeps_leave fun w hw => hw.neutral _ rfl rfl trivial
  | login auth callback =>
      apply Connection.keeps_login hn.authenticationRequest
      apply justified_state
      intro t c hsuffix hstored
      refine ⟨hstored.queued, hstored.subscribers, hstored.listeners, ?_⟩
      intro auth' hauth'
      cases hauth'
      exact .login auth callback (hsuffix.subset h)
  | close => exact hs.close
  | emit name data => exact justified_emit hsend name data h
  | subscribe name callback =>
      exact Reentrant.keeps_bind (justified_subscribe hsend name callback h) fun _ =>
        Reentrant.keeps_pure _
  | unsubscribe name => exact justified_unsubscribe hsend name (.unsubscribe name h)
  | unsubscribeId name id => exact justified_unsubscribeId hsend name id h
  | listen pattern callback => exact justified_listen hsend pattern callback h
  | unlisten pattern => exact absurd rfl (hunlisten pattern)
  | presenceSubscribe callback =>
      exact Reentrant.keeps_bind (Presence.keeps_subscribe hr.toSubscriberRoutine
        (fun f _ => justified_modifyPresence f) hp.subscribe callback)
        fun _ => Reentrant.keeps_pure _
  | presenceUnsubscribeId id =>
      exact Presence.keeps_unsubscribeId hr.toSubscriberRoutine (fun f _ => justified_modifyPresence f)
        hp.unsubscribe id
  | presenceUnsubscribe =>
      exact Presence.keeps_unsubscribe hr.toSubscriberRoutine (fun f _ => justified_modifyPresence f) hp.unsubscribe
  | getAll f => exact Presence.keeps_getAll hr.toSubscriberRoutine f (justified_modifyPresence _) hp.query

/-- Under a policy that excludes some patterns from being given up, the regime is sound. -/
theorem outgoing_sound (n : Nat)
    (hpolicy : ∀ w pattern, P.enter w (.unlisten pattern) →
      pattern ∈ w.state.event.listenerMap → asciiUnitSeparator ∉ pattern → mayUnlisten pattern) :
    (outgoing mayUnlisten).Sound P (program n) where
  refl _ _ := trivial
  trans _ _ _ _ _ _ := trivial
  enter w c e hcall hinv hpermit := by
    refine ⟨hinv.neutral (.enter e) rfl rfl trivial, trivial, List.mem_cons_self .., ?_⟩
    intro pattern heq
    rw [heq] at hpermit
    exact hpolicy w pattern hpermit
  entry e w hinv hpre := by
    have hgrown : Grown mayUnlisten w.trace w := ⟨hinv, List.suffix_refl _⟩
    have hprogram : wp (outgoing mayUnlisten).contract P (program n e)
        (fun _ w' => Grown mayUnlisten w.trace w') (fun _ w' => Grown mayUnlisten w.trace w') w := by
      by_cases hunlisten : ∃ pattern, e = .unlisten pattern
      · obtain ⟨pattern, rfl⟩ := hunlisten
        exact justified_unlisten (justified_connectionSend _ _ n) pattern w hgrown (hpre.2 pattern rfl)
      · exact justified_program n e hpre.1 (not_exists.mp hunlisten) w hgrown
    apply Reentrant.wp_mono hprogram
    · exact fun _ w' hw' => ⟨hw'.1.neutral (.leave e (.ok ())) rfl rfl trivial, trivial⟩
    · exact fun x w' hw' => ⟨hw'.1.neutral (.leave e (.error x)) rfl rfl trivial, trivial⟩

/-- At any moment of a permitted run, everything handed over so far had an origin. -/
theorem outgoing_reaches {n : Nat} {uri : Buffer} {cfg : Reentrant.Config interface}
    (hpolicy : ∀ w pattern, P.enter w (.unlisten pattern) →
      pattern ∈ w.state.event.listenerMap → asciiUnitSeparator ∉ pattern → mayUnlisten pattern)
    (hreach : Reaches P n uri cfg) : Outgoing mayUnlisten cfg.world := by
  have hempty : Outgoing mayUnlisten { state := {} } :=
    ⟨⟨nofun, fun _ h => absurd h Std.TreeMap.not_mem_emptyc,
      fun _ h => absurd h Std.TreeMap.not_mem_emptyc, nofun⟩, nofun, nofun⟩
  have hholds := (outgoing_sound n hpolicy).holds hempty
    ⟨hempty.neutral (.enter (.construct uri)) rfl rfl trivial, List.mem_cons_self .., nofun⟩ hreach
  unfold Regime.Holds at hholds
  split at hholds
  · exact hholds
  · cases hholds.2 with
    | inl h => exact h.2
    | inr h =>
        obtain ⟨c, rest, -, hinv⟩ := h
        exact hinv

end Programs

/-- The header occurs in the table, and the number of arguments lies in its range. -/
def MessageBuilder.InFormat [Build] (m : MessageBuilder) : Prop :=
  m.header ∈ headers ∧ ∃ range, m.header.numArguments = .ok range ∧
    range.1 ≤ m.arguments.length ∧ m.arguments.length ≤ range.2

/-- The environment never gives up a pattern that is listened to, unless the pattern has a
separator in it. -/
def neverUnlisten : Policy interface where
  enter w
    | .unlisten pattern => pattern ∈ w.state.event.listenerMap → asciiUnitSeparator ∈ pattern
    | _ => True
  back _ _ _ := True

instance (w : World) (e : Entry) : Decidable (neverUnlisten.enter w e) := by
  unfold neverUnlisten
  cases e <;> infer_instance

instance (w : World) (c : Call) (r : Except Exception c.Answer) :
    Decidable (neverUnlisten.back w c r) :=
  .isTrue trivial

theorem Origin.inFormat [Build] {history : List Item} {m : MessageBuilder}
    (h : Origin (fun _ => False) history m.header m.arguments) : m.InFormat := by
  have table : ∀ (header : Header) (hmem : header ∈ headers) (numArgs : Nat),
      TableHeader.Allows ⟨header, hmem⟩ numArgs → m.header = header →
        m.arguments.length = numArgs → m.InFormat := by
    intro header hmem numArgs hallows hheader hlength
    unfold MessageBuilder.InFormat
    rw [hheader, hlength]
    exact ⟨hmem, _, numArguments_tableHeader ⟨header, hmem⟩, hallows⟩
  generalize hheader : m.header = header at h
  generalize harguments : m.arguments = arguments at h
  have hlength := congrArg List.length harguments
  cases h with
  | unlisten _ h => exact h.elim
  | _ =>
      refine table _ (by decide) _ ?_ hheader hlength
      simp only [List.length_cons, List.length_nil]
      decide

section Format
variable [Build]

/-- Every message that is to be sent is in the format, as long as no pattern is given up. -/
theorem sending_inFormat (n : Nat) (uri : Buffer) (cfg : Reentrant.Config interface)
    (hreach : Reaches neverUnlisten n uri cfg) (m : MessageBuilder)
    (hsending : m ∈ sending cfg.world) :
    m.InFormat ∧ (∃ text, m.header.toString = .ok (some text)) ∧
      (∃ binary, m.header.toBinary = .ok binary) ∧
      (m.payloadSize < 2 ^ 31 → ∃ buffer, m.toBinary = .ok buffer) := by
  have houtgoing : Outgoing (fun _ => False) cfg.world := by
    apply outgoing_reaches _ hreach
    intro w pattern hpermit hmem hclean
    exact hclean (hpermit hmem)
  have hformat := (houtgoing.recorded.sending m (mem_sending.mp hsending)).inFormat
  let t : TableHeader := ⟨m.header, hformat.1⟩
  refine ⟨hformat, ⟨t.text, toString_tableHeader t⟩, ⟨t.binary, toBinary_tableHeader t⟩, ?_⟩
  exact fun hsize => ⟨_, (m.toBinary_eq t rfl).1 hsize⟩

end Format

/-- The request for authentication of a login is in the format. -/
theorem sending_inFormat_loggedIn : ∃ m ∈ sending (@after release 9 [] loggedIn).world,
    m.header = { topic := .auth, action := .request } ∧ @MessageBuilder.InFormat release m := by
  let _ : Build := release
  have hmem : { topic := .auth, action := .request } ∈
      (sending (after 9 [] loggedIn).world).map MessageBuilder.header := by
    decide +kernel
  obtain ⟨m, hm, hheader⟩ := List.mem_map.mp hmem
  have hreach : Reaches neverUnlisten 9 [] (after 9 [] loggedIn) := by
    apply Reentrant.reachable_run
    decide +kernel
  exact ⟨m, hm, hheader, (sending_inFormat 9 [] _ hreach m hm).1⟩

/-- Giving up a pattern that was listened to asks `send` for a header outside the table. -/
theorem unlisten_not_inFormat :
    ¬∀ (cfg : Reentrant.Config interface), @Reaches release (.any interface) 9 [] cfg →
      ∀ m ∈ sending cfg.world, @MessageBuilder.InFormat release m := by
  let _ : Build := release
  intro hclaim
  have hmem : { topic := .event, action := .unlisten } ∈
      (sending (after 9 [] (connecting ++ [.enter (.listen (bytes "a") (some 0)),
        .enter (.unlisten (bytes "a"))])).world).map MessageBuilder.header := by
    decide +kernel
  obtain ⟨m, hm, hheader⟩ := List.mem_map.mp hmem
  have hformat := (hclaim _ (reaches_after 9 [] _) m hm).1
  rw [hheader] at hformat
  revert hformat
  decide

end Deepstream
