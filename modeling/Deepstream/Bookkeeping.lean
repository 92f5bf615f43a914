import Deepstream.Books

/-!
The programs of the events keep the books.

What is sent is either accepted, and entered in the books, or the connection is
lost. While the socket sends a message the client may be told so, and then all
that was to be announced waits until the connection opens again.
-/

namespace Deepstream

open Reentrant (Keeps Policy Prog Regime wp)

variable {tidy : Prop}

theorem bookkeeping_inv {quiet : Bool} {w : World} (h : UpToDate tidy w) :
    (bookkeeping tidy).inv quiet w := by
  cases quiet with
  | true => exact ⟨h.writable, fun _ => h.toBooked⟩
  | false => exact h

/-- While the socket is called either nothing has happened or the connection was lost. -/
theorem during_socket {w w' : World} {c : Call}
    (hduring : Reentrant.World.During (Reentrant.World.calling w c) w')
    (hrel : (bookkeeping tidy).rel true (Reentrant.World.calling w c) w') :
    w' = Reentrant.World.calling w c ∨
      Unbooked (Reentrant.World.calling w c) w' ∧ w'.state.state ≠ .open := by
  obtain ⟨hsame, ⟨e, t, htrace⟩ | hidle | hlost⟩ := hrel rfl
  · exact absurd (by rw [htrace]; rfl) (hduring.inCall.paused e)
  · exact .inl hidle
  · exact .inr ⟨hsame, hlost⟩

theorem Unbooked.calling (w : World) (c : Call) : Unbooked w (Reentrant.World.calling w c) :=
  .cons (i := .call c) rfl rfl rfl

section Programs
variable {α : Type}

abbrev Updates (tidy : Prop) (p : Program α) : Prop :=
  Keeps (bookkeeping tidy).contract honestSocket (UpToDate tidy) p

theorem updates_modify {f : Client → Client} (hevent : ∀ c, (f c).event = c.event)
    (hstate : ∀ c, (f c).state = c.state) : Updates tidy (Prog.modify f) :=
  Reentrant.keeps_modify fun w hw =>
    hw.unbooked (.modified rfl (hevent _)) fun hopen => (hstate w.state) ▸ hopen

theorem updates_leave {n : Note} (hn : Item.isBooked (.note n) = false) :
    Updates tidy (Program.leave n) :=
  Reentrant.keeps_leave fun _ hw => hw.unbooked (.cons rfl hn rfl) id

/-- A call whose answer is not booked -/
theorem updates_ask {c : Call} (hc : ∀ r, Item.isBooked (.back c r) = false) :
    Updates tidy (Program.ask c) := by
  have hreturned : ∀ w' r, UpToDate tidy w' → UpToDate tidy (w'.returned c r) :=
    fun w' r hw' => hw'.unbooked (.cons rfl (hc r) rfl) id
  apply Reentrant.keeps_ask
  · intro w hw
    exact ⟨bookkeeping_inv (hw.unbooked (.calling w c) id), _, rfl⟩
  · intro w w' r hw hduring hafter _
    apply hreturned
    have hcalling := hw.unbooked (.calling w c) id
    change (bookkeeping tidy).inv c.isTransfer w' ∧ (bookkeeping tidy).rel c.isTransfer _ w' at hafter
    cases htransfer : c.isTransfer with
    | true =>
        rw [htransfer] at hafter
        obtain rfl | ⟨hsame, hlost⟩ := during_socket hduring hafter.2
        · exact hcalling
        · exact hcalling.lost hsame hlost
    | false =>
        rw [htransfer] at hafter
        exact hafter.1

theorem routine_updates (tidy : Prop) :
    Routine (bookkeeping tidy).contract honestSocket (UpToDate tidy) where
  abort _ _ _ := trivial
  ask c hc := by
    apply updates_ask
    cases c with
    | wsSend m buffer => cases hc
    | _ => exact fun _ => rfl
  nextId := Reentrant.keeps_read_bind fun _ =>
    Reentrant.keeps_bind (updates_modify (fun _ => rfl) fun _ => rfl) fun _ =>
      Reentrant.keeps_pure _

theorem socketRoutine_updates :
    SocketRoutine (bookkeeping tidy).contract honestSocket (UpToDate tidy) where
  setUri _ := updates_ask fun _ => rfl
  wsOpen := updates_ask fun _ => rfl
  close := Connection.keeps_close (updates_modify (fun _ => rfl) fun _ => rfl)
    (updates_ask fun _ => rfl)
  attempt _ := updates_modify (fun _ => rfl) fun _ => rfl

/-- Handing a message over whose acceptance is not booked -/
theorem updates_hand {m : MessageBuilder} (hm : m.isBooked = false) (buffer : Buffer) :
    Updates tidy (Program.ask (.wsSend m buffer)) := by
  apply updates_ask
  intro r
  cases r with
  | error x => rfl
  | ok sent =>
      cases sent with
      | true => exact hm
      | false => rfl

theorem not_booked {m : MessageBuilder} (hm : m.header.topic ≠ .event) : m.isBooked = false :=
  decide_eq_false fun h => hm h.1

/-- The world after a message was sent -/
def sent (w : World) (m : MessageBuilder) (buffer : Buffer) : World :=
  (Reentrant.World.calling (w.noted (.sending m)) (.wsSend m buffer)).returned (.wsSend m buffer)
    (.ok true)

/-- A message about events is accepted, or the connection is lost, or both. -/
theorem wp_hand {m : MessageBuilder} {buffer : Buffer} {w : World} (hm : m.header.topic = .event)
    (hopen : w.state.state = .open) (hw : Writable w.state.event)
    (hbooked : m.header.action ≠ .event → Booked w) {Q : Bool → World → Prop}
    {E : Exception → World → Prop}
    (hsent : Q true ((Reentrant.World.calling w (.wsSend m buffer)).returned (.wsSend m buffer)
      (.ok true)))
    (hleft : ∀ w', Unbooked w w' → w'.state.state ≠ .open →
      Q true (w'.returned (.wsSend m buffer) (.ok true)))
    (hlost : ∀ w', Unbooked w w' → w'.state.state ≠ .open → Q false w') :
    wp (bookkeeping tidy).contract honestSocket (Program.ask (.wsSend m buffer)) Q E w := by
  have hcalling := Unbooked.calling w (.wsSend m buffer)
  apply Reentrant.wp_ask
  · refine ⟨⟨hw, fun hbetween => ?_⟩, _, rfl⟩
    have hcarries := hbetween _ List.mem_cons_self
    exact (hbooked fun haction => of_decide_eq_false hcarries ⟨hm, haction⟩).unbooked hcalling
  · intro w' hduring hafter
    have hcases := during_socket hduring hafter.2
    constructor
    · intro accepted hback
      cases accepted with
      | true =>
          obtain rfl | ⟨hsame, hclosed⟩ := hcases
          · exact hsent
          · exact hleft w' (hcalling.trans hsame) hclosed
      | false =>
          obtain rfl | ⟨hsame, hclosed⟩ := hcases
          · rcases hback hm with hended | hclosed
            · cases hended
            · exact absurd hopen hclosed
          · exact hlost _ (hcalling.trans (hsame.trans (.cons rfl rfl rfl))) hclosed
    · exact fun x hback => absurd hm hback

section Sending
variable [Build] {setState : ConnectionState → Program Unit} {w : World}

/-- A message whose header is not in the table cannot be written. -/
theorem toBinary_of_not_mem {m : MessageBuilder} (hmem : m.header ∉ headers) :
    ∃ failure, m.toBinary = .error failure ∧ ∀ e, failure ≠ .thrown e := by
  obtain ⟨failure, hfailure, hcases⟩ := size_of_not_mem m.header hmem
  refine ⟨failure, ?_, ?_⟩
  · unfold MessageBuilder.toBinary MessageBuilder.size
    rw [hfailure]
    rfl
  · rintro e rfl
    rcases hcases with h | h <;> cases h

/-- Writing a short message fails for good or not at all. -/
theorem toBinary_ne_thrown {m : MessageBuilder} (hsize : m.payloadSize < 2 ^ 31) (e : Exception) :
    m.toBinary ≠ .error (.thrown e) := by
  intro hthrown
  by_cases hmem : m.header ∈ headers
  · rw [(m.toBinary_eq ⟨_, hmem⟩ rfl).1 hsize] at hthrown
    cases hthrown
  · obtain ⟨failure, hfailure, hne⟩ := toBinary_of_not_mem hmem
    rw [hfailure] at hthrown
    exact hne e (Except.error.inj hthrown)

/-- A short message about events is sent, or the connection is not open, or both. -/
theorem wp_send {m : MessageBuilder} (htopic : m.header.topic = .event)
    (hsize : m.payloadSize < 2 ^ 31) (hw : Writable w.state.event)
    (hbooked : m.header.action ≠ .event → Booked w) {Q : Bool → World → Prop}
    {E : Exception → World → Prop}
    (hsent : w.state.state = .open → ∀ buffer, m.toBinary = .ok buffer →
      Q true (sent w m buffer))
    (hleft : w.state.state = .open → ∀ buffer, m.toBinary = .ok buffer → ∀ w', Unbooked w w' →
      w'.state.state ≠ .open → Q true (w'.returned (.wsSend m buffer) (.ok true)))
    (hlost : ∀ w', Unbooked w w' → w'.state.state ≠ .open → Q false w') :
    wp (bookkeeping tidy).contract honestSocket (Connection.sendWith setState m) Q E w := by
  have hsending : Unbooked w (w.noted (.sending m)) := .cons rfl rfl rfl
  apply wp_sendWith (fun _ => trivial)
  · exact not_handshake htopic (by decide)
  · exact fun hclosed => hlost _ hsending hclosed
  · intro hopen buffer hbinary
    apply wp_hand (w := w.noted (.sending m)) htopic hopen hw
    · exact fun haction => (hbooked haction).unbooked hsending
    · exact hsent hopen buffer hbinary
    · exact fun w' hsame => hleft hopen buffer hbinary w' (hsending.trans hsame)
    · exact fun w' hsame => hlost w' (hsending.trans hsame)
  · exact fun _ e hthrown => absurd hthrown (toBinary_ne_thrown hsize e)

/-- Sending a message about events that the books are not kept of -/
theorem updates_send {m : MessageBuilder} (hm : m.header.topic = .event)
    (hbooked : m.isBooked = false) : Updates tidy (Connection.sendWith setState m) :=
  (routine_updates tidy).sendWith (fun _ => updates_leave rfl) setState m
    (not_handshake hm (by decide)) fun buffer _ _ hw => updates_hand hbooked buffer _ hw

end Sending

namespace Event

/-- A message of one action was accepted about some of the names, and none about any other. -/
structure Heard (first second action : Action) (names : List Buffer) (w w' : World) : Prop where
  state : w'.state = w.state
  about : ∀ name, acceptedSince first second name w'.trace =
    if name ∈ names then action :: acceptedSince first second name w.trace
    else acceptedSince first second name w.trace
  aside : ∀ first' second', Announces first' second' → first' ≠ first → ∀ name,
    acceptedSince first' second' name w'.trace = acceptedSince first' second' name w.trace

section Hearing
variable {first second action : Action} {w w' w'' : World} {name : Buffer} {names : List Buffer}

theorem Heard.refl : Heard first second action [] w w where
  state := rfl
  about _ := (if_neg List.not_mem_nil).symm
  aside _ _ _ _ _ := rfl

theorem Heard.cons (h : Heard first second action [name] w w')
    (h' : Heard first second action names w' w'') (hfresh : name ∉ names) :
    Heard first second action (name :: names) w w'' where
  state := h'.state.trans h.state
  about other := by
    rw [h'.about other, h.about other]
    by_cases hother : other = name
    · subst hother
      rw [if_neg hfresh, if_pos List.mem_cons_self, if_pos List.mem_cons_self]
    · simp only [List.mem_cons, hother, List.not_mem_nil, or_self, if_false, false_or]
  aside first' second' hpair hne other := by
    rw [h'.aside first' second' hpair hne other, h.aside first' second' hpair hne other]

/-- Of other messages the books of the pairs say nothing. -/
theorem acceptedSince_sent {m : MessageBuilder} (hfirst : m.header.action ≠ first)
    (hsecond : m.header.action ≠ second) (w : World) (buffer name : Buffer) :
    acceptedSince first second name (sent w m buffer).trace =
      acceptedSince first second name w.trace :=
  if_neg fun h => h.2.1.elim hfirst hsecond

theorem heard_sent (hpair : Announces first second) (haction : action = first ∨ action = second)
    (message : Built .event action [name]) (w : World) (buffer : Buffer) :
    Heard first second action [name] w (sent w message.val buffer) where
  state := rfl
  about other := by
    refine (acceptedSince_answered (w := w) haction message other).trans ?_
    simp only [List.mem_singleton]
  aside first' second' hpair' hne other := by
    have hmessage : message.val.header.action = action := congrArg Header.action message.property.1
    apply acceptedSince_sent <;> rw [hmessage] <;> rcases haction with rfl | rfl <;>
      cases hpair <;> cases hpair' <;> first | exact absurd rfl hne | decide

theorem payloadSize_name (hname : Announceable name) (message : Built .event action [name]) :
    message.val.payloadSize < 2 ^ 31 := by
  rw [MessageBuilder.payloadSize, message.property.2]
  exact hname.2

theorem action_ne_event (hpair : Announces first second)
    (haction : action = first ∨ action = second) (message : Built .event action [name]) :
    message.val.header.action ≠ .event := by
  rw [message.property.1]
  rcases haction with rfl | rfl <;> cases hpair <;> decide

end Hearing

/-- The books of the events say nothing about a message about a name. -/
theorem booked_returned {w : World} (h : Booked w) {m : MessageBuilder}
    (hm : m.header.action ≠ .event) (buffer : Buffer) :
    Booked (w.returned (.wsSend m buffer) (.ok true)) := by
  refine ⟨h.writable, ?_⟩
  change emittedEvents w.trace = _ ++ (if m.header.topic = .event ∧ m.header.action = .event then
    m :: acceptedEvents w.trace else acceptedEvents w.trace)
  rw [if_neg fun hevent => hm hevent.2]
  exact h.events

theorem booked_sent {w : World} (h : Booked w) {m : MessageBuilder}
    (hm : m.header.action ≠ .event) (buffer : Buffer) : Booked (sent w m buffer) :=
  booked_returned (w := Reentrant.World.calling (w.noted (.sending m)) (.wsSend m buffer))
    ⟨h.writable, h.events⟩ hm buffer

/-- The event that was emitted last is accepted, and there is no other that waits. -/
theorem booked_accepted {w : World} (hw : Writable w.state.event)
    (hqueue : w.state.event.sendQueue = []) {m : MessageBuilder}
    (hm : m.header.topic = .event ∧ m.header.action = .event)
    (hevents : emittedEvents w.trace = m :: acceptedEvents w.trace) (buffer : Buffer) :
    Booked (w.returned (.wsSend m buffer) (.ok true)) := by
  refine ⟨hw, ?_⟩
  change emittedEvents w.trace = (queuedEvents w.state.event).reverse ++
    (if m.header.topic = .event ∧ m.header.action = .event then
      m :: acceptedEvents w.trace else acceptedEvents w.trace)
  rw [if_pos hm, queuedEvents, hqueue]
  exact hevents

theorem booked_enqueued {w : World} (hw : Writable w.state.event) (m : EventMessage)
    (hsize : m.val.payloadSize < 2 ^ 31) (hevents : emittedEvents w.trace =
      m.val :: ((queuedEvents w.state.event).reverse ++ acceptedEvents w.trace)) :
    Booked { w with state := { w.state with event := { w.state.event with
      sendQueue := w.state.event.sendQueue ++ [m] } } } := by
  refine ⟨⟨hw.subscribers, hw.listeners, fun m' hm' => ?_⟩, ?_⟩
  · rcases List.mem_append.mp hm' with hm' | hm'
    · exact hw.queue m' hm'
    · rw [List.mem_singleton.mp hm']
      exact hsize
  · change emittedEvents w.trace =
      ((w.state.event.sendQueue ++ [m]).map fun m : EventMessage => m.val).reverse ++
        acceptedEvents w.trace
    rw [hevents, List.map_append, List.reverse_append]
    rfl

/-- An event that is sent is no message about a name. -/
theorem told_sent {w : World} (h : Told tidy w) {m : MessageBuilder} (hm : m.header.action = .event)
    (buffer : Buffer) : Told tidy (sent w m buffer) := by
  refine h.same rfl (fun _ => Iff.rfl) fun first second hpair => ?_
  apply acceptedSince_sent <;> rw [hm] <;> cases hpair <;> decide

/-- A change of the maps, of which the server need not be told yet -/
theorem booked_modified {w : World} (h : Booked w) {e : Event}
    (hqueue : e.sendQueue = w.state.event.sendQueue)
    (hlisteners : ∀ name ∈ e.listenerMap, Announceable name)
    (hsubscribers : ∀ name ∈ e.subscriberMap, Announceable name) :
    Booked { w with state := { w.state with event := e } } := by
  refine ⟨⟨hsubscribers, hlisteners, hqueue.symm ▸ h.writable.queue⟩, ?_⟩
  change emittedEvents w.trace = (e.sendQueue.map _).reverse ++ _
  rw [hqueue]
  exact h.events

/-- No name is added or removed. -/
theorem current_modified {w : World} (h : Current tidy w) {e : Event}
    (hqueue : e.sendQueue = w.state.event.sendQueue)
    (hlisteners : e.listenerMap = w.state.event.listenerMap)
    (hsubscribers : ∀ name, name ∈ e.subscriberMap ↔ name ∈ w.state.event.subscriberMap) :
    Current tidy { w with state := { w.state with event := e } } where
  toBooked := by
    apply booked_modified h.toBooked hqueue
    · exact hlisteners.symm ▸ h.writable.listeners
    · exact fun name hmem => h.writable.subscribers name ((hsubscribers name).mp hmem)
  queue hopen := hqueue.trans (h.queue hopen)
  told hopen := (h.told hopen).same hlisteners hsubscribers fun _ _ _ _ => rfl

/-- A change of the callbacks alone -/
theorem updates_subscribeFnMap (f : Event → Std.TreeMap Nat Function) :
    Updates tidy (Program.modifyEvent fun e => { e with subscribeFnMap := f e }) := by
  intro w hw
  rw [wp_modifyEvent]
  exact ⟨current_modified hw.toCurrent rfl rfl fun _ => Iff.rfl, hw.peopled⟩

theorem peopledBut_insert {excepted : Buffer → Prop} {e e' : Event} {about : Buffer}
    {node : Node (List Nat)} (hmap : e'.subscriberMap = e.subscriberMap.insert about node)
    (hothers : ∀ name other, e.subscriberMap[name]? = some other → name ≠ about →
      ¬excepted name → other.value ≠ [])
    (habout : ¬excepted about → node.value ≠ []) : PeopledBut excepted e' := by
  intro name other hother hname
  rw [hmap, Std.TreeMap.getElem?_insert] at hother
  split at hother
  · next heq =>
      cases hother
      exact habout (Std.LawfulEqCmp.eq_of_compare heq ▸ hname)
  · next hne =>
      refine hothers name other hother ?_ hname
      rintro rfl
      exact hne Std.ReflCmp.compare_self

variable [Build] {setState : ConnectionState → Program Unit}

theorem updates_notifySubscribers (m : Message) : Updates tidy (notifySubscribers m) := by
  have hr := routine_updates tidy
  apply Reentrant.keeps_bind (hr.assert _ _ _)
  intro _
  apply Reentrant.keeps_bind (hr.assert _ _ _)
  intro _
  apply Reentrant.keeps_when
  intro _
  apply Reentrant.keeps_bind (hr.lift _)
  intro name
  apply Reentrant.keeps_bind (hr.lift _)
  intro data
  apply Reentrant.keeps_read_bind
  intro c
  split
  · exact Reentrant.keeps_pure ()
  · apply Reentrant.keeps_forEach
    intro id _
    apply Reentrant.keeps_bind (updates_subscribeFnMap _)
    intro _
    apply Reentrant.keeps_read_bind
    intro c
    exact keeps_invoke _ _ fun f => hr.ask _ rfl

/-- Whether to provide a pattern is answered with messages the books are not kept of. -/
theorem updates_notifyListeners (m : Message) :
    Updates tidy (notifyListeners (Connection.sendWith setState) m) := by
  have hr := routine_updates tidy
  apply Reentrant.keeps_bind (hr.assert _ _ _)
  intro _
  apply Reentrant.keeps_bind (hr.assert _ _ _)
  intro _
  apply Reentrant.keeps_bind (hr.assert _ _ _)
  intro _
  apply Reentrant.keeps_bind (hr.lift _)
  intro pattern
  apply Reentrant.keeps_bind (hr.lift _)
  intro matched
  apply Reentrant.keeps_read_bind
  intro c
  split
  · exact Reentrant.keeps_pure ()
  · apply Reentrant.keeps_bind
    · exact keeps_invoke _ _ fun f => hr.ask _ rfl
    · intro accept
      apply Reentrant.keeps_when
      intro _
      apply hr.send
      intro el hel
      apply updates_send (congrArg Header.topic hel)
      unfold MessageBuilder.isBooked
      rw [hel]
      cases accept <;> rfl

theorem updates_notify (m : Message) : Updates tidy (notify (Connection.sendWith setState) m) := by
  have hr := routine_updates tidy
  apply Reentrant.keeps_bind (hr.assert _ _ _)
  intro _
  split
  · exact updates_notifySubscribers m
  · exact Reentrant.keeps_bind (hr.assert _ _ _) fun _ => updates_notifyListeners m
  · exact Reentrant.keeps_bind (hr.assert _ _ _) fun _ => updates_notifyListeners m
  all_goals exact hr.assert _ _ _

/-- The server is told of a name, or of its removal, or the connection is not open. -/
theorem wp_tell_heard {first second action : Action} (hpair : Announces first second)
    (haction : action = first ∨ action = second) {name : Buffer} (hname : Announceable name)
    {w : World} (hw : Booked w) {Q : Unit → World → Prop} {E : Exception → World → Prop}
    (hheard : w.state.state = .open → ∀ w', Heard first second action [name] w w' → Booked w' →
      Q () w')
    (hlost : ∀ w', Booked w' → w'.state.event = w.state.event → w'.state.state ≠ .open → Q () w') :
    wp (bookkeeping tidy).contract honestSocket (Program.build .event action [name] >>=
        fun message => Program.ignore (Connection.sendWith setState message.val)) Q E w := by
  rw [Reentrant.wp_bind]
  apply wp_build_clean hname.1
  intro message
  rw [wp_ignore]
  have haction' := action_ne_event hpair haction message
  apply wp_send (congrArg Header.topic message.property.1) (payloadSize_name hname message)
    hw.writable fun _ => hw
  · intro hopen buffer _
    exact hheard hopen _ (heard_sent hpair haction message w buffer)
      (booked_sent hw haction' buffer)
  · intro _ buffer _ w' hsame
    exact hlost _ (booked_returned (hw.unbooked hsame) haction' buffer) hsame.event
  · exact fun w' hsame => hlost w' (hw.unbooked hsame) hsame.event

/-- A name that has a list, which is empty if the server is still to be told of it -/
structure Listed (tidy : Prop) (name : Buffer) (node : Node (List Nat)) (w : World) : Prop
    extends Booked w where
  queue : w.state.state = .open → w.state.event.sendQueue = []
  told : node.value = [] → w.state.state = .open →
    ∀ w', Heard .subscribe .unsubscribe .subscribe [name] w w' → Told tidy w'
  peopled : PeopledBut (· = name) w.state.event
  upToDate : node.value ≠ [] → UpToDate tidy w

omit [Build] in
theorem told_subscribed {w w₁ w' : World} {name : Buffer} {node : Node (List Nat)}
    (hheard : Heard .subscribe .unsubscribe .subscribe [name] w₁ w') (h : Told tidy w)
    (hnew : name ∉ w.state.event.subscriberMap)
    (hlisteners : w₁.state.event.listenerMap = w.state.event.listenerMap)
    (hsubscribers : w₁.state.event.subscriberMap = w.state.event.subscriberMap.insert name node)
    (htrace : w₁.trace = w.trace) : Told tidy w' := by
  have hmem : ∀ other, other ∈ w'.state.event.subscriberMap ↔
      other = name ∨ other ∈ w.state.event.subscriberMap := by
    intro other
    rw [hheard.state, hsubscribers, Std.TreeMap.mem_insert, Std.LawfulEqCmp.compare_eq_iff_eq,
      eq_comm]
  have habout : ∀ other, acceptedSince .subscribe .unsubscribe other w'.trace =
      if other = name then .subscribe :: acceptedSince .subscribe .unsubscribe other w.trace
      else acceptedSince .subscribe .unsubscribe other w.trace := by
    intro other
    rw [hheard.about, htrace]
    simp only [List.mem_singleton]
  refine ⟨h.listeners.same ?_ fun pattern => ?_, fun other hother => ?_, fun htidy other => ?_⟩
  · rw [hheard.state, hlisteners]
  · rw [hheard.aside _ _ .listeners (by decide), htrace]
  · rw [habout]
    split
    · rfl
    · next hne => exact h.subscribers other (((hmem other).mp hother).resolve_left hne)
  · rw [habout, hmem]
    obtain ⟨hturns, hknown⟩ := h.exact htidy other
    split
    · next heq =>
        subst heq
        exact ⟨(alternates_cons_first (by decide) _).mpr ⟨fun hlast => hnew (hknown hlast), hturns⟩,
          fun _ => .inl rfl⟩
    · exact ⟨hturns, fun hlast => .inr (hknown hlast)⟩

omit [Build] in
theorem wp_subscriberList {name : Buffer} (hname : Announceable name) {w : World}
    (hw : UpToDate tidy w) {E : Exception → World → Prop} :
    wp (bookkeeping tidy).contract honestSocket (subscriberList name) (Listed tidy name) E
      w := by
  unfold subscriberList
  rw [Reentrant.wp_bind, Reentrant.wp_read]
  split
  · next node hnode =>
      have hne := hw.peopled name node hnode not_false
      exact ⟨hw.toBooked, hw.queue, fun hempty => absurd hempty hne, (hw.but name).peopled,
        fun _ => hw⟩
  · next hnone =>
      have hnew : name ∉ w.state.event.subscriberMap := fun hmem => by
        rw [Std.TreeMap.mem_iff_isSome_getElem?, hnone] at hmem
        cases hmem
      rw [Reentrant.wp_bind, wp_modifyEvent]
      refine ⟨booked_modified hw.toBooked rfl hw.writable.listeners fun other hmem => ?_, hw.queue,
        fun _ hopen w' hheard => told_subscribed hheard (hw.told hopen) hnew rfl rfl rfl,
        peopledBut_insert (e := w.state.event) rfl ?_ fun hne => absurd rfl hne,
        fun hne => absurd rfl hne⟩
      · rw [Std.TreeMap.mem_insert, Std.LawfulEqCmp.compare_eq_iff_eq] at hmem
        rcases hmem with rfl | hmem
        · exact hname
        · exact hw.writable.subscribers other hmem
      · exact fun other node hnode _ _ => hw.peopled other node hnode not_false

theorem wp_pushSubscriber_upToDate {name : Buffer} (place id : Nat) {w : World}
    (hw : UpToDateBut tidy name w) {E : Exception → World → Prop} :
    wp (bookkeeping tidy).contract honestSocket (pushSubscriber name place id)
      (fun _ => UpToDate tidy) E w := by
  unfold pushSubscriber
  rw [Reentrant.wp_bind, Reentrant.wp_read]
  split
  · trivial
  · next node hnode =>
      split
      · rw [Reentrant.wp_bind]
        apply wp_assert_of fun _ _ => trivial
        intro _
        rw [wp_modifyEvent]
        refine ⟨current_modified hw.toCurrent rfl rfl
          (NameMap.mem_insert_iff (NameMap.mem_of_getElem? hnode) _), ?_⟩
        apply peopledBut_insert (e := w.state.event) rfl
        · exact fun other node hother hne _ => hw.peopled other node hother hne
        · exact fun _ => List.append_ne_nil_of_right_ne_nil _ (List.cons_ne_nil _ _)
      · trivial

theorem updates_subscribe {name : Buffer} (hname : Announceable name) (callback : Function) :
    Updates tidy (subscribe (Connection.sendWith setState) name callback) := by
  have hr := routine_updates tidy
  have hpush : ∀ place id w, UpToDateBut tidy name w →
      wp (bookkeeping tidy).contract honestSocket
        (pushSubscriber name place id >>= fun _ => pure id) (fun _ => UpToDate tidy)
        (fun _ => UpToDate tidy) w := by
    intro place id w hw
    rw [Reentrant.wp_bind]
    exact wp_pushSubscriber_upToDate place id hw
  unfold subscribe
  split
  · exact Reentrant.keeps_raise _
  · apply Reentrant.keeps_bind hr.nextId
    intro id
    apply Reentrant.keeps_bind
    · apply Reentrant.keeps_read_bind
      intro c
      exact Reentrant.keeps_bind (updates_subscribeFnMap _) fun _ => Reentrant.keeps_pure _
    · intro inserted
      apply Reentrant.keeps_bind (hr.assert _ _ _)
      intro _ w hw
      rw [Reentrant.wp_bind]
      apply Reentrant.wp_mono (wp_subscriberList hname hw)
      · intro subscribers w₁ hlisted
        rw [Reentrant.wp_bind, wp_when]
        refine ⟨fun hempty => ?_, fun hne => hpush _ _ w₁ ((hlisted.upToDate hne).but name)⟩
        apply wp_tell_heard .subscribers (.inl rfl) hname hlisted.toBooked
        · intro hopen w₂ hheard hbooked
          apply hpush
          refine ⟨⟨hbooked, ?_, fun _ => hlisted.told hempty hopen w₂ hheard⟩, ?_⟩
          · rw [hheard.state]
            exact hlisted.queue
          · rw [hheard.state]
            exact hlisted.peopled
        · intro w₂ hbooked hevent hclosed
          apply hpush
          refine ⟨⟨hbooked, fun hopen => absurd hopen hclosed, fun hopen => absurd hopen hclosed⟩,
            ?_⟩
          rw [hevent]
          exact hlisted.peopled
      · exact fun _ _ h => h

section Erasing
variable {w : World} {Q : Unit → World → Prop} {E : Exception → World → Prop}
  (hQ : ∀ fns, Q () { w with state := { w.state with
    event := { w.state.event with subscribeFnMap := fns } } })
include hQ

theorem wp_eraseFn_modified (id : Nat) :
    wp (bookkeeping tidy).contract honestSocket (eraseFn id) Q E w := by
  unfold eraseFn
  rw [Reentrant.wp_bind, Reentrant.wp_read, Reentrant.wp_bind, wp_modifyEvent]
  apply wp_assert_of fun _ _ => trivial
  exact fun _ => hQ _

/-- The callbacks of a name are erased, and nothing else. -/
theorem wp_eraseFns_modified (ids : List Nat) :
    wp (bookkeeping tidy).contract honestSocket (Prog.forEach ids eraseFn) Q E w := by
  induction ids generalizing w with
  | nil => exact hQ w.state.event.subscribeFnMap
  | cons id ids ih =>
      unfold Prog.forEach
      rw [Reentrant.wp_bind]
      apply wp_eraseFn_modified
      exact fun fns => ih hQ

end Erasing

omit [Build] in
/-- The only subscription is given up. -/
theorem told_unsubscribed {w w₁ w' : World} {name : Buffer}
    (hheard : Heard .subscribe .unsubscribe .unsubscribe [name] w₁ w') (h : Told tidy w)
    (hmem : name ∈ w.state.event.subscriberMap)
    (hlisteners : w₁.state.event.listenerMap = w.state.event.listenerMap)
    (hsubscribers : w₁.state.event.subscriberMap = w.state.event.subscriberMap.erase name)
    (hempty : w₁.state.event.subscriberMap.isEmpty = true) (htrace : w₁.trace = w.trace) :
    Told tidy w' := by
  have hnone : ∀ other, other ∉ w₁.state.event.subscriberMap :=
    fun other => Std.TreeMap.not_mem_of_isEmpty hempty
  have honly : ∀ other ∈ w.state.event.subscriberMap, other = name := by
    intro other hother
    by_contra hne
    refine hnone other ?_
    rw [hsubscribers, Std.TreeMap.mem_erase, ne_eq, Std.LawfulEqCmp.compare_eq_iff_eq]
    exact ⟨Ne.symm hne, hother⟩
  have habout : ∀ other, acceptedSince .subscribe .unsubscribe other w'.trace =
      if other = name then .unsubscribe :: acceptedSince .subscribe .unsubscribe other w.trace
      else acceptedSince .subscribe .unsubscribe other w.trace := by
    intro other
    rw [hheard.about, htrace]
    simp only [List.mem_singleton]
  refine ⟨h.listeners.same ?_ fun pattern => ?_, fun other hother => ?_, fun htidy other => ?_⟩
  · rw [hheard.state, hlisteners]
  · rw [hheard.aside _ _ .listeners (by decide), htrace]
  · rw [hheard.state] at hother
    exact absurd hother (hnone other)
  · rw [habout]
    obtain ⟨hturns, hknown⟩ := h.exact htidy other
    split
    · next heq =>
        subst heq
        exact ⟨(alternates_cons_second (by decide) _).mpr ⟨h.subscribers other hmem, hturns⟩,
          fun hlast => by cases hlast⟩
    · next hne => exact ⟨hturns, fun hlast => absurd (honly other (hknown hlast)) hne⟩

/-- The server is told when there is no subscription left. -/
theorem wp_unsubscribe_upToDate {name : Buffer} {w : World} (hw : UpToDateBut tidy name w)
    (honly : tidy → w.state.state = .open → name ∈ w.state.event.subscriberMap →
      w.state.event.subscriberMap.size = 1) {E : Exception → World → Prop} :
    wp (bookkeeping tidy).contract honestSocket
      (unsubscribe (Connection.sendWith setState) name) (fun _ => UpToDate tidy) E w := by
  unfold unsubscribe
  rw [Reentrant.wp_bind, Reentrant.wp_read]
  split
  · next hnone =>
      refine ⟨hw.toCurrent, fun other node hnode _ => hw.peopled other node hnode ?_⟩
      rintro rfl
      rw [hnone] at hnode
      cases hnode
  · next node hnode =>
      have hmem := NameMap.mem_of_getElem? hnode
      have hname := hw.writable.subscribers name hmem
      rw [Reentrant.wp_bind]
      apply wp_eraseFns_modified
      intro fns
      rw [Reentrant.wp_bind, wp_modifyEvent, Reentrant.wp_bind, Reentrant.wp_read, wp_when]
      have herase : ∀ other, other ∈ w.state.event.subscriberMap.erase name ↔
          other ≠ name ∧ other ∈ w.state.event.subscriberMap := by
        intro other
        rw [Std.TreeMap.mem_erase, ne_eq, Std.LawfulEqCmp.compare_eq_iff_eq, eq_comm]
      have hbooked : Booked { w with state := { w.state with event := { w.state.event with
          subscribeFnMap := fns, subscriberMap := w.state.event.subscriberMap.erase name } } } := by
        apply booked_modified hw.toBooked
        · rfl
        · exact hw.writable.listeners
        · exact fun other hother => hw.writable.subscribers other ((herase other).mp hother).2
      have hpeopled : ∀ e : Event, e.subscriberMap = w.state.event.subscriberMap.erase name →
          PeopledBut (fun _ => False) e := by
        intro e he other node' hnode' _
        rw [he, Std.TreeMap.getElem?_erase] at hnode'
        split at hnode'
        · cases hnode'
        · next hne =>
            refine hw.peopled other node' hnode' ?_
            rintro rfl
            exact hne Std.ReflCmp.compare_self
      refine ⟨fun hempty => ?_, fun hleft => ?_⟩
      · apply wp_tell_heard .subscribers (.inr rfl) hname hbooked
        · intro hopen w' hheard hbooked'
          refine ⟨⟨hbooked', ?_, fun _ => told_unsubscribed hheard (hw.told hopen) hmem rfl rfl
            hempty rfl⟩, ?_⟩
          · rw [hheard.state]
            exact hw.queue
          · rw [hheard.state]
            exact hpeopled _ rfl
        · intro w' hbooked' hevent hclosed
          refine hbooked'.closed ?_ hclosed
          rw [hevent]
          exact hpeopled _ rfl
      · refine ⟨⟨hbooked, hw.queue, fun hopen => ?_⟩, hpeopled _ rfl⟩
        have h := hw.told hopen
        refine ⟨h.listeners, fun other hother => h.subscribers other ((herase other).mp hother).2,
          fun htidy => absurd ?_ hleft⟩
        change (w.state.event.subscriberMap.erase name).isEmpty = true
        rw [Std.TreeMap.isEmpty_eq_size_eq_zero, Std.TreeMap.size_erase,
          if_pos (Std.TreeMap.contains_iff_mem.mpr hmem), honly htidy hopen hmem]
        rfl

theorem wp_unsubscribeId_upToDate {name : Buffer} {id : Nat} {w : World} (hw : UpToDate tidy w)
    (htidy : tidy → Entry.IsTidy w.state (.unsubscribeId name id)) :
    wp (bookkeeping tidy).contract honestSocket
      (unsubscribeId (Connection.sendWith setState) name id) (fun _ => UpToDate tidy)
      (fun _ => UpToDate tidy) w := by
  unfold unsubscribeId
  rw [Reentrant.wp_bind, Reentrant.wp_read]
  split
  · exact hw
  · next node hnode =>
      have hmem := NameMap.mem_of_getElem? hnode
      split
      · next hid =>
          rw [Reentrant.wp_bind, wp_modifyEvent, Reentrant.wp_bind]
          apply wp_eraseFn_modified
          intro fns
          have hcurrent : Current tidy { w with state := { w.state with
              event := { w.state.event with
                subscribeFnMap := fns, subscriberMap := w.state.event.subscriberMap.insert name
                  { node with value := node.value.erase id } } } } :=
            current_modified hw.toCurrent rfl rfl (NameMap.mem_insert_iff hmem _)
          have hothers : ∀ other node', w.state.event.subscriberMap[other]? = some node' →
              other ≠ name → node'.value ≠ [] :=
            fun other node' hnode' _ => hw.peopled other node' hnode' not_false
          rw [wp_when]
          refine ⟨fun hempty => ?_, fun hne => ?_⟩
          · apply wp_unsubscribe_upToDate
            · refine ⟨hcurrent, peopledBut_insert (e := w.state.event) rfl ?_ fun hname => ?_⟩
              · exact fun other node' hnode' hother _ => hothers other node' hnode' hother
              · exact absurd rfl hname
            · intro ht hopen _
              have hlast : node.value = [id] := by
                rcases List.erase_eq_nil_iff.mp hempty with hnil | hlast
                · rw [hnil] at hid
                  exact absurd hid List.not_mem_nil
                · exact hlast
              change (w.state.event.subscriberMap.insert name _).size = 1
              rw [Std.TreeMap.size_insert, if_pos (Std.TreeMap.contains_iff_mem.mpr hmem)]
              exact htidy ht hopen (by rw [hnode, Option.map_some, hlast])
          · refine ⟨hcurrent, peopledBut_insert (e := w.state.event) rfl ?_ fun _ => hne⟩
            exact fun other node' hnode' hother _ => hothers other node' hnode' hother
      · exact (routine_updates tidy).assert _ _ _ w hw

theorem updates_listen {pattern : Buffer} (hpattern : Announceable pattern) (callback : Function) :
    Updates tidy (listen (Connection.sendWith setState) pattern callback) := by
  intro w hw
  unfold listen
  split
  · exact hw
  · rw [Reentrant.wp_bind, Reentrant.wp_read, wp_when]
    refine ⟨fun hfresh => ?_, fun _ => hw⟩
    have hinsert : ∀ name, name ∈ w.state.event.listenerMap.insert pattern
        ⟨w.state.event.places, callback⟩ ↔ name = pattern ∨ name ∈ w.state.event.listenerMap := by
      intro name
      rw [Std.TreeMap.mem_insert, Std.LawfulEqCmp.compare_eq_iff_eq, eq_comm]
    rw [Reentrant.wp_bind, wp_modifyEvent]
    have hbooked : Booked { w with state := { w.state with event := { w.state.event with
        listenerMap := w.state.event.listenerMap.insert pattern ⟨w.state.event.places, callback⟩
        places := w.state.event.places + 1 } } } := by
      apply booked_modified hw.toBooked
      · rfl
      · intro name hname
        rcases (hinsert name).mp hname with rfl | hmem
        · exact hpattern
        · exact hw.writable.listeners name hmem
      · exact hw.writable.subscribers
    apply wp_tell_heard .listeners (.inl rfl) hpattern hbooked
    · intro hopen w' hheard hbooked'
      have h := hw.told hopen
      have hsubscriptions : ∀ name, acceptedSince .subscribe .unsubscribe name w'.trace =
          acceptedSince .subscribe .unsubscribe name w.trace :=
        hheard.aside _ _ .subscribers (by decide)
      refine ⟨⟨hbooked', fun _ => ?_, fun _ => ⟨fun name => ?_, fun name hmem => ?_,
        fun htidy name => ?_⟩⟩, ?_⟩
      · rw [hheard.state]
        exact hw.queue hopen
      · have hknown : acceptedSince .listen .unlisten name w.trace =
            if name ∈ w.state.event.listenerMap then [.listen] else [] := h.listeners name
        rw [hheard.about name, hheard.state]
        change (if name ∈ [pattern] then .listen :: acceptedSince .listen .unlisten name w.trace
          else acceptedSince .listen .unlisten name w.trace) = _
        rw [hknown]
        simp only [List.mem_singleton, hinsert name]
        by_cases hname : name = pattern
        · subst hname
          simp only [if_true, true_or, if_neg hfresh]
        · simp only [hname, false_or, if_false]
      · rw [hheard.state] at hmem
        rw [hsubscriptions]
        exact h.subscribers name hmem
      · rw [hsubscriptions, hheard.state]
        exact h.exact htidy name
      · rw [hheard.state]
        exact hw.peopled
    · intro w' hbooked' hevent hclosed
      refine hbooked'.closed ?_ hclosed
      rw [hevent]
      exact hw.peopled

theorem updates_unlisten (pattern : Buffer) :
    Updates tidy (unlisten (Connection.sendWith setState) pattern) := by
  intro w hw
  unfold unlisten
  rw [Reentrant.wp_bind, Reentrant.wp_read, wp_when]
  refine ⟨fun hmem => ?_, fun _ => hw⟩
  have herase : ∀ name, name ∈ w.state.event.listenerMap.erase pattern ↔
      name ≠ pattern ∧ name ∈ w.state.event.listenerMap := by
    intro name
    rw [Std.TreeMap.mem_erase, ne_eq, Std.LawfulEqCmp.compare_eq_iff_eq, eq_comm]
  rw [Reentrant.wp_bind, wp_modifyEvent, Reentrant.wp_bind]
  have hpattern := hw.writable.listeners pattern hmem
  have hbooked : Booked { w with state := { w.state with event := { w.state.event with
      listenerMap := w.state.event.listenerMap.erase pattern } } } := by
    apply booked_modified hw.toBooked
    · rfl
    · exact fun name hname => hw.writable.listeners name ((herase name).mp hname).2
    · exact hw.writable.subscribers
  apply wp_build_clean hpattern.1
  intro message
  rw [wp_ignore]
  have hunwritten : ∀ buffer, message.val.toBinary ≠ .ok buffer := by
    intro buffer hbinary
    have hheader : message.val.header ∉ headers := by
      rw [message.property.1]
      decide
    obtain ⟨failure, hfailure, -⟩ := toBinary_of_not_mem hheader
    rw [hfailure] at hbinary
    cases hbinary
  apply wp_send (congrArg Header.topic message.property.1) (payloadSize_name hpattern message)
    hbooked.writable fun _ => hbooked
  · exact fun _ buffer hbinary => absurd hbinary (hunwritten buffer)
  · exact fun _ buffer hbinary => absurd hbinary (hunwritten buffer)
  · intro w' hsame hclosed
    refine (hbooked.unbooked hsame).closed ?_ hclosed
    rw [hsame.event]
    exact hw.peopled

/-- An event is accepted at once, or it waits for the connection. -/
theorem updates_emit {name data : Buffer} (hsize : name.length + data.length < 2 ^ 31) :
    Updates tidy (emit (Connection.sendWith setState) name data) := by
  intro w hw
  unfold emit
  split
  · exact hw
  · rw [Reentrant.wp_bind]
    apply wp_build
    · exact Nat.le_refl 2
    · intro _ evt
      have hpayload : evt.val.payloadSize < 2 ^ 31 := by
        rw [MessageBuilder.payloadSize, evt.property.2]
        exact hsize
      have hevent : evt.val.header.topic = .event ∧ evt.val.header.action = .event := by
        rw [evt.property.1]
        exact ⟨rfl, rfl⟩
      have hnotify : Updates tidy (do
          let c ← Prog.read
          Prog.when (name ∈ c.event.subscriberMap)
            (notify (Connection.sendWith setState) evt.val.view)) :=
        Reentrant.keeps_read_bind fun _ => Reentrant.keeps_when fun _ => updates_notify _
      rw [Reentrant.wp_bind, wp_leave, Reentrant.wp_bind]
      have hemitted : w.state.state = .open → emittedEvents (w.noted (.emitted evt.val)).trace =
          evt.val :: acceptedEvents (w.noted (.emitted evt.val)).trace := by
        intro hopen
        change evt.val :: emittedEvents w.trace = evt.val :: acceptedEvents w.trace
        rw [hw.events, queuedEvents, hw.queue hopen]
        rfl
      apply wp_send (w := w.noted (.emitted evt.val)) hevent.1 hpayload hw.writable
        fun haction => absurd hevent.2 haction
      · intro hopen buffer _
        have hbooked : Booked (sent (w.noted (.emitted evt.val)) evt.val buffer) :=
          booked_accepted (w := Reentrant.World.calling ((w.noted (.emitted evt.val)).noted
            (.sending evt.val)) (.wsSend evt.val buffer)) hw.writable (hw.queue hopen) hevent
            (hemitted hopen) buffer
        refine hnotify _ ⟨⟨hbooked, fun _ => hw.queue hopen, fun _ => ?_⟩, hw.peopled⟩
        have htold : Told tidy (w.noted (.emitted evt.val)) :=
          (hw.told hopen).same rfl (fun _ => Iff.rfl) fun _ _ _ _ => rfl
        exact told_sent htold hevent.2 buffer
      · intro hopen buffer _ w' hsame hclosed
        have hqueue : w'.state.event.sendQueue = [] := hsame.event ▸ hw.queue hopen
        refine hnotify _ (Booked.closed (booked_accepted (hsame.event ▸ hw.writable) hqueue hevent
          ?_ buffer) (hsame.event ▸ hw.peopled) hclosed)
        rw [hsame.emittedEvents, hsame.acceptedEvents]
        exact hemitted hopen
      · intro w' hsame hclosed
        refine hnotify _ (Booked.closed (booked_enqueued (hsame.event ▸ hw.writable) _ hpayload ?_)
          ?_ hclosed)
        · rw [hsame.emittedEvents, hsame.acceptedEvents, hsame.event]
          exact congrArg (List.cons evt.val) hw.events
        · change PeopledBut _ { w'.state.event with sendQueue := _ }
          rw [hsame.event]
          exact hw.peopled
    · exact fun _ => hw

section Opening

/-- What is left when the names of a map were announced, as far as the connection lasted -/
structure Announced (first second : Action) (names : List Buffer) (w w' : World) : Prop where
  booked : Booked w'
  event : w'.state.event = w.state.event
  lost : w.state.state ≠ .open → w'.state.state ≠ .open
  heard : w'.state.state = .open → Heard first second first names w w'

/-- The loop over a map announces all of its names, unless the connection is lost. -/
theorem wp_announce_heard {β : Type} {map : Event → NameMap (Node β)} {first second : Action}
    (hpair : Announces first second) {n : Nat} {done rest : List (Buffer × Node β)} {w : World}
    (hw : Booked w) (hnames : ∀ name ∈ map w.state.event, Announceable name)
    (hlist : (map w.state.event).toList = done ++ rest) {E : Exception → World → Prop} :
    wp (bookkeeping tidy).contract honestSocket
      (announce (Connection.sendWith setState) map first n rest.head?)
      (fun _ => Announced first second (rest.map Prod.fst) w) E w := by
  induction rest generalizing done n w with
  | nil => cases n <;> exact ⟨hw, rfl, id, fun _ => .refl⟩
  | cons entry rest ih =>
      cases n with
      | zero => trivial
      | succ n =>
          obtain ⟨name, node⟩ := entry
          have hbound : (map w.state.event)[name]? = some node := by
            rw [← Std.TreeMap.mem_toList_iff_getElem?_eq_some, hlist]
            exact List.mem_append_right _ List.mem_cons_self
          have hname := hnames name (NameMap.mem_of_getElem? hbound)
          have hrest : ∀ (w₁ : World) (Q : Unit → World → Prop), Booked w₁ →
              w₁.state.event = w.state.event →
              (∀ w', Announced first second (rest.map Prod.fst) w₁ w' → Q () w') →
              wp (bookkeeping tidy).contract honestSocket (Prog.when (true = true) do
                let c ← Prog.read
                if ((map c.event)[name]?).map Node.place = some node.place then
                  announce (Connection.sendWith setState) map first n ((map c.event).after name)
                else .abort .undefined) Q E w₁ := by
            intro w₁ Q hw₁ hevent hQ
            rw [wp_when]
            refine ⟨fun _ => ?_, fun hne => absurd rfl hne⟩
            rw [Reentrant.wp_bind, Reentrant.wp_read, hevent, hbound, Option.map_some, if_pos rfl,
              NameMap.after_eq hlist]
            have hlist₁ : (map w₁.state.event).toList = (done ++ [(name, node)]) ++ rest := by
              rw [hevent, hlist, List.append_assoc]
              rfl
            exact Reentrant.wp_mono (ih hw₁ (hevent.symm ▸ hnames) hlist₁) (fun _ => hQ)
              fun _ _ h => h
          unfold announce
          rw [List.head?_cons]
          rw [Reentrant.wp_bind]
          apply wp_build_clean hname.1
          intro message
          have haction := action_ne_event hpair (.inl rfl) message
          rw [Reentrant.wp_bind]
          apply wp_send (congrArg Header.topic message.property.1) (payloadSize_name hname message)
            hw.writable fun _ => hw
          · intro hopen buffer _
            have hheard : Heard first second first [name] w (sent w message.val buffer) :=
              heard_sent hpair (.inl rfl) message w buffer
            apply hrest (sent w message.val buffer) _ (booked_sent hw haction buffer) rfl
            intro w' h
            refine ⟨h.booked, h.event, fun hclosed => absurd hopen hclosed, fun hopen' => ?_⟩
            exact hheard.cons (h.heard hopen') (NameMap.not_mem_of_toList hlist)
          · intro _ buffer _ w' hsame hclosed
            apply hrest _ _ (booked_returned (hw.unbooked hsame) haction buffer) hsame.event
            intro w'' h
            have hlost := h.lost hclosed
            exact ⟨h.booked, h.event.trans hsame.event, fun _ => hlost,
              fun hopen => absurd hopen hlost⟩
          · intro w' hsame hclosed
            rw [wp_when]
            exact ⟨fun hsent => absurd hsent Bool.false_ne_true,
              fun _ => ⟨hw.unbooked hsame, hsame.event, fun _ => hclosed,
                fun hopen => absurd hopen hclosed⟩⟩

/-- The event at the head of the queue is sent, or the connection is lost, or both. -/
theorem wp_send_queued {w : World} (hw : Booked w)
    (hpeopled : PeopledBut (fun _ => False) w.state.event)
    (htold : w.state.state = .open → Told tidy w) {m : EventMessage} {queue : List EventMessage}
    (hqueue : w.state.event.sendQueue = m :: queue) {Q : Bool → World → Prop}
    {E : Exception → World → Prop}
    (hsent : ∀ w₁ : World, Booked { w₁ with state := { w₁.state with
        event := { w₁.state.event with sendQueue := queue } } } →
      w₁.state.event = w.state.event → (w₁.state.state = .open → Told tidy w₁) → Q true w₁)
    (hlost : ∀ w', UpToDate tidy w' → Q false w') :
    wp (bookkeeping tidy).contract honestSocket (Connection.sendWith setState m.val) Q E w := by
  have hm : m ∈ w.state.event.sendQueue := hqueue ▸ List.mem_cons_self
  have hevent : m.val.header.topic = .event ∧ m.val.header.action = .event := by
    rw [m.property.1]
    exact ⟨rfl, rfl⟩
  have hpopped : ∀ (w₁ : World) (buffer : Buffer), Unbooked w w₁ →
      Booked { w₁.returned (.wsSend m.val buffer) (.ok true) with
        state := { w₁.state with event := { w₁.state.event with sendQueue := queue } } } := by
    intro w₁ buffer hsame
    have hevents := hw.events
    rw [hsame.event]
    refine ⟨⟨hw.writable.subscribers, hw.writable.listeners, fun m' hm' => ?_⟩, ?_⟩
    · exact hw.writable.queue m' (hqueue ▸ List.mem_cons_of_mem _ hm')
    · change emittedEvents w₁.trace = (queue.map fun m : EventMessage => m.val).reverse ++
        (if m.val.header.topic = .event ∧ m.val.header.action = .event then
          m.val :: acceptedEvents w₁.trace else acceptedEvents w₁.trace)
      rw [if_pos hevent, hsame.emittedEvents, hsame.acceptedEvents, hevents, queuedEvents, hqueue,
        List.map_cons, List.reverse_cons, List.append_assoc]
      rfl
  apply wp_send hevent.1 (hw.writable.queue m hm) hw.writable
    fun haction => absurd hevent.2 haction
  · intro hopen buffer _
    apply hsent (sent w m.val buffer)
    · have hsending : Unbooked w (w.noted (.sending m.val)) := .cons rfl rfl rfl
      exact hpopped _ buffer (hsending.trans (.calling _ (.wsSend m.val buffer)))
    · rfl
    · exact fun _ => told_sent (htold hopen) hevent.2 buffer
  · intro _ buffer _ w' hsame hclosed
    exact hsent _ (hpopped w' buffer hsame) hsame.event fun hopen => absurd hopen hclosed
  · intro w' hsame hclosed
    exact hlost w' ((hw.unbooked hsame).closed (hsame.event ▸ hpeopled) hclosed)

/-- The loop over the queue empties it, unless the connection is lost. -/
theorem wp_flush {n : Nat} {w : World} (hw : Booked w)
    (hpeopled : PeopledBut (fun _ => False) w.state.event)
    (htold : w.state.state = .open → Told tidy w) {E : Exception → World → Prop} :
    wp (bookkeeping tidy).contract honestSocket (flush (Connection.sendWith setState) n)
      (fun _ => UpToDate tidy) E w := by
  induction n generalizing w with
  | zero => trivial
  | succ n ih =>
      unfold flush
      rw [Reentrant.wp_bind, Reentrant.wp_read]
      split
      · next hqueue => exact ⟨⟨hw, fun _ => hqueue, htold⟩, hpeopled⟩
      · next m queue hqueue =>
          rw [Reentrant.wp_bind]
          apply wp_send_queued hw hpeopled htold hqueue
          · intro w₁ hw₁ hevent₁ htold₁
            rw [wp_when]
            refine ⟨fun _ => ?_, fun hne => absurd rfl hne⟩
            rw [Reentrant.wp_bind, Reentrant.wp_read, hevent₁, hqueue]
            rw [Reentrant.wp_bind, wp_modifyEvent]
            apply ih hw₁
            · change PeopledBut _ { w₁.state.event with sendQueue := queue }
              rw [hevent₁]
              exact hpeopled
            · exact fun hopen => (htold₁ hopen).same rfl (fun _ => Iff.rfl) fun _ _ _ _ => rfl
          · intro w' hw'
            rw [wp_when]
            exact ⟨fun hsent => absurd hsent Bool.false_ne_true, fun _ => hw'⟩

/-- When the connection opens, every name and every event that waits is sent. -/
theorem wp_onOpen {n : Nat} {w : World} (hw : Booked w)
    (hpeopled : PeopledBut (fun _ => False) w.state.event)
    (hfresh : ∀ first second name, acceptedSince first second name w.trace = [])
    {E : Exception → World → Prop} :
    wp (bookkeeping tidy).contract honestSocket
      (onConnectionStateChange (Connection.sendWith setState) n .open) (fun _ => UpToDate tidy) E
      w := by
  unfold onConnectionStateChange
  rw [wp_when]
  refine ⟨fun _ => ?_, fun hne => absurd rfl hne⟩
  have hkey : ∀ {β : Type} {map : NameMap β} {name : Buffer},
      name ∈ map.toList.map Prod.fst ↔ name ∈ map := by
    intro β map name
    rw [Std.TreeMap.map_fst_toList_eq_keys, Std.TreeMap.mem_keys]
  rw [Reentrant.wp_bind]
  unfold resubscribe
  rw [Reentrant.wp_bind, Reentrant.wp_read]
  apply Reentrant.wp_mono (wp_announce_heard .subscribers hw hw.writable.subscribers
    (List.nil_append _).symm)
  · rintro _ w₁ ⟨hw₁, hevent₁, -, hheard₁⟩
    rw [Reentrant.wp_bind]
    unfold relisten
    rw [Reentrant.wp_bind, Reentrant.wp_read]
    apply Reentrant.wp_mono (wp_announce_heard .listeners hw₁ hw₁.writable.listeners
      (List.nil_append _).symm)
    · rintro _ w₂ ⟨hw₂, hevent₂, -, hheard₂⟩
      have hevent := hevent₂.trans hevent₁
      apply wp_flush hw₂ (hevent.symm ▸ hpeopled)
      intro hopen
      have hlisteners := hheard₂ hopen
      have hsubscribers := hheard₁ (hlisteners.state ▸ hopen)
      have hknown : ∀ pattern, acceptedSince .listen .unlisten pattern w₂.trace =
          if pattern ∈ w₁.state.event.listenerMap then [.listen] else [] := by
        intro pattern
        rw [hlisteners.about, hsubscribers.aside _ _ .listeners (by decide), hfresh]
        simp only [hkey]
      have hsubscribed : ∀ name, acceptedSince .subscribe .unsubscribe name w₂.trace =
          if name ∈ w₂.state.event.subscriberMap then [.subscribe] else [] := by
        intro name
        rw [hlisteners.aside _ _ .subscribers (by decide), hsubscribers.about, hfresh, hevent]
        simp only [hkey]
      refine ⟨fun pattern => ?_, fun name hmem => ?_, fun _ name => ?_⟩
      · rw [hknown, hlisteners.state]
      · rw [hsubscribed, if_pos hmem]
        rfl
      · rw [hsubscribed]
        split
        · next hmem => exact ⟨⟨rfl, trivial⟩, fun _ => hmem⟩
        · exact ⟨trivial, fun hlast => by cases hlast⟩
    · exact fun _ _ h => h
  · exact fun _ _ h => h

end Opening
end Event

end Programs
end Deepstream
