import Deepstream.Client.Wrapped
import Deepstream.Injection
import Deepstream.Registration

/-!
Events that carry JSON values from one client to another.

A value is given a prefix, becomes an argument of a message, is read by another
client and decoded there for the functions of its subscribers. A string is sent
as it is, so the record separators in it are those of the message.
-/

namespace Deepstream

open Reentrant (Conduct Prog answering evaluate wp)

/-- The text of a value has no control characters, and can be read back. -/
structure Textual [JsonLibrary] (v : Json) : Prop where
  parse : JsonLibrary.parse (JsonLibrary.dump v) = .ok v
  printable : ∀ c ∈ JsonLibrary.dump v, 32 ≤ c

namespace TypeSerializer
variable [JsonLibrary] {v : Json} {data : Buffer}

/-- Decoding undoes encoding. -/
theorem prefixedToJson_toPrefixedBuffer (htextual : Textual v)
    (h : toPrefixedBuffer v = .ok data) : prefixedToJson data = ([], .ok v) := by
  have hparse := htextual.parse
  cases v with
  | null | string s =>
      cases h
      rfl
  | boolean b =>
      cases b <;> cases h <;> rfl
  | number x | object x | array x =>
      cases h
      change toJson _ = _
      unfold toJson
      rw [hparse]
  | discarded => cases h

/-- Only a string puts separators into a message. -/
theorem recordSeparator_mem_iff (htextual : Textual v) (h : toPrefixedBuffer v = .ok data) :
    asciiRecordSeparator ∈ data ↔ ∃ s, v = .string s ∧ asciiRecordSeparator ∈ s := by
  have hdump : asciiRecordSeparator ∉ JsonLibrary.dump v :=
    fun hmem => absurd (htextual.printable _ hmem) (by decide)
  cases v with
  | null =>
      cases h
      exact iff_of_false (by decide) (by rintro ⟨s, ⟨⟩, -⟩)
  | string s =>
      cases h
      change asciiRecordSeparator ∈ (83 : UInt8) :: s ↔ _
      simp only [List.mem_cons, Json.string.injEq, exists_eq_left']
      exact or_iff_right (by decide)
  | boolean b =>
      cases b <;> cases h <;> exact iff_of_false (by decide) (by rintro ⟨s, ⟨⟩, -⟩)
  | number x | object x | array x =>
      cases h
      refine iff_of_false ?_ (by rintro ⟨s, ⟨⟩, -⟩)
      rw [List.mem_cons, not_or]
      exact ⟨by decide, hdump⟩
  | discarded => cases h

theorem exists_letter (h : toPrefixedBuffer v = .ok data) :
    ∃ (p : PayloadType) (rest : Buffer), data = p.letter :: rest := by
  cases v with
  | discarded => cases h
  | boolean b => cases b <;> cases h <;> exact ⟨_, _, rfl⟩
  | _ =>
      cases h
      exact ⟨_, _, rfl⟩

/-- The first letter of an encoded value is none of those that begin the second word of a header
without arguments. -/
theorem not_mem_bareHeaders (h : toPrefixedBuffer v = .ok data) (k : Buffer) :
    (k, beginning data) ∉ bareHeaders := by
  obtain ⟨p, rest, rfl⟩ := exists_letter h
  have hhead : ∀ words ∈ bareHeaders, words.2.head? ≠ some p.letter := by
    cases p <;> decide
  intro hmem
  apply hhead _ hmem
  unfold beginning
  rw [List.takeWhile_cons_of_pos (by cases p <;> decide)]
  rfl

end TypeSerializer

/-- The first thing that a call of `emit` handed to the socket, between two worlds -/
def Emitted (w w' : World) (buffer : Buffer) : Prop :=
  ∃ (m : MessageBuilder) (newer : List Item), w'.trace = newer ++
    .call (.wsSend m buffer) :: .note (.sending m) :: .note (.emitted m) :: w.trace

section Emission
variable [Build] {conduct : Conduct interface} {w w' : World}

omit [Build] in
theorem eq_of_lift_done {α : Type} {x : Except Failure α} {a : α}
    (h : evaluate conduct (Program.lift x) w = (.done a, w')) : x = .ok a ∧ w' = w := by
  unfold Program.lift at h
  split at h
  · cases h
    exact ⟨rfl, rfl⟩
  · cases h
  · cases h

omit [Build] in
theorem eq_of_build_done {topic : Topic} {action : Action} {arguments : List Buffer}
    {m : Built topic action arguments}
    (h : evaluate conduct (Program.build topic action arguments) w = (.done m, w')) : w' = w := by
  unfold Program.build at h
  split at h
  · cases h
    rfl
  · cases (eq_of_lift_done h).1

theorem eq_of_debugMsg_done {h : Header}
    (hdone : evaluate conduct (Connection.debugMsg h) w = (.done (), w')) : w' = w := by
  unfold Connection.debugMsg Prog.when at hdone
  split at hdone
  · obtain ⟨_, w₁, hlift, hpure⟩ := Reentrant.exists_of_evaluate_bind hdone
    cases hpure
    exact (eq_of_lift_done hlift).2
  · cases hdone
    rfl

variable (hduring : ∀ (w : World) (c : Call), Reentrant.World.During w (conduct w c).1)
include hduring

omit [Build] in
theorem suffix_of_ask_done {c : Call} {a : c.Answer}
    (h : evaluate conduct (Program.ask c) w = (.done a, w')) :
    .call c :: w.trace <:+ w'.trace := by
  have hcall := hduring (Reentrant.World.calling w c) c
  rcases hconduct : conduct (Reentrant.World.calling w c) c with ⟨w₁, result⟩
  rw [hconduct] at hcall
  change evaluate conduct (.call c .ret) w = _ at h
  cases result with
  | ok a =>
      rw [Reentrant.evaluate_call_ok hconduct] at h
      cases h
      exact hcall.trace.trans (List.suffix_cons _ _)
  | error x =>
      rw [Reentrant.evaluate_call_error hconduct] at h
      cases h

/-- In `OPEN` a message about events is handed to the socket, if sending it returns. -/
theorem suffix_of_send_done {n : Nat} {m : MessageBuilder} {sent : Bool}
    (htopic : m.header.topic = .event) (hopen : w.state.state = .open)
    (h : evaluate conduct (Connection.send n m) w = (.done sent, w')) :
    ∃ buffer, m.toBinary = .ok buffer ∧
      .call (.wsSend m buffer) :: .note (.sending m) :: w.trace <:+ w'.trace := by
  have hnot : ¬(m.header.topic = .connection ∨ m.header.topic = .auth) := by
    rw [htopic]
    decide
  unfold Connection.send Connection.sendWith at h
  obtain ⟨_, w₁, hleave, h⟩ := Reentrant.exists_of_evaluate_bind h
  cases hleave
  obtain ⟨_, w₁, hdebug, h⟩ := Reentrant.exists_of_evaluate_bind h
  cases eq_of_debugMsg_done hdebug
  obtain ⟨c, w₁, hread, h⟩ := Reentrant.exists_of_evaluate_bind h
  cases hread
  have hopen' : (w.noted (.sending m)).state.state = .open := hopen
  rw [if_neg hnot, if_pos hopen'] at h
  obtain ⟨buffer, w₁, hlift, h⟩ := Reentrant.exists_of_evaluate_bind h
  obtain ⟨hbinary, rfl⟩ := eq_of_lift_done hlift
  exact ⟨buffer, hbinary, suffix_of_ask_done hduring h⟩

/-- What is handed over by a call of `emit` that returns -/
theorem binary_of_emitted {n : Nat} {name data buffer : Buffer} (hopen : w.state.state = .open)
    (h : evaluate conduct (Event.emit (Connection.send n) name data) w = (.done (), w'))
    (hemitted : Emitted w w' buffer) :
    name ≠ [] ∧ ∃ evt : Built .event .event [name, data], evt.val.toBinary = .ok buffer := by
  unfold Event.emit at h
  split at h
  · cases h
  · next hne =>
      obtain ⟨evt, w₁, hbuild, h⟩ := Reentrant.exists_of_evaluate_bind h
      cases eq_of_build_done hbuild
      obtain ⟨_, w₁, hleave, h⟩ := Reentrant.exists_of_evaluate_bind h
      cases hleave
      obtain ⟨sent, w₁, hsend, h⟩ := Reentrant.exists_of_evaluate_bind h
      have htopic : evt.val.header.topic = .event := by rw [evt.property.1]
      have hopen' : (w.noted (.emitted evt.val)).state.state = .open := hopen
      obtain ⟨buffer', hbinary, hhanded⟩ := suffix_of_send_done hduring htopic hopen' hsend
      have hlater := (Reentrant.later_of_evaluate hduring h).trace
      obtain ⟨m, newer, htrace⟩ := hemitted
      have hsuffix := List.suffix_of_suffix_length_le (hhanded.trans hlater)
        (htrace ▸ List.suffix_append _ _) (by rfl)
      have heq := hsuffix.eq_of_length rfl
      obtain ⟨hcall, -⟩ := List.cons.inj heq
      cases hcall
      exact ⟨hne, evt, hbinary⟩

end Emission

/-- A buffer that begins with a sentence is read as this sentence first. -/
theorem exists_first_message [Build] (s : Sentence) (rest : Buffer) :
    ∃ m messages errors, Parser.execute (s.text ++ rest ++ [0, 0]) = .ok (m :: messages, errors) ∧
      (∃ s', Parser.Reads m 0 s' ∧ s'.header = s.header ∧ s'.arguments = s.arguments) ∧
      (rest = [] → messages = [] ∧ errors = []) := by
  obtain ⟨messages, errors, hexecute, hread, hbatch⟩ := Parser.execute_eq (s.text ++ rest)
  have hpieces := hread
  rw [referencePieces_text] at hpieces
  cases hpieces with
  | @cons m _ messages _ hat hmessages =>
      obtain ⟨s', htext, hreads⟩ := hat.denotes
      refine ⟨m, messages, errors, hexecute, ⟨s', hreads, text_injective s' s htext⟩, ?_⟩
      rintro rfl
      refine ⟨List.forall₂_nil_right_iff.mp hmessages, hbatch.mpr ⟨[s], ?_⟩⟩
      rw [List.append_nil, List.flatMap_singleton]

section Reception
variable [JsonLibrary] {made : Wrappers} {user : World → Nat → Json → World}
  {function : Nat → Nat} {name data : Buffer} {node : Node (List Nat)} {value : Json} {w : World}

/-- The subscribers of a name, and the functions of users that their callbacks invoke -/
structure Subscribed (made : Wrappers) (function : Nat → Nat) (name : Buffer)
    (node : Node (List Nat)) (e : Event) : Prop where
  found : e.subscriberMap[name]? = some node
  callbacks : ∀ id ∈ node.value, ∃ f, e.subscribeFnMap[id]? = some (some f) ∧
    made.subscriber f = some (function id)

/-- Every subscriber is called once, in order. -/
theorem wp_subscribers (hcourteous : made.Courteous user Client.event)
    (hdecoded : (TypeSerializer.prefixedToJson data).2 = .ok value) (ids : List Nat)
    (hcallbacks : ∀ id ∈ ids, ∃ f, w.state.event.subscribeFnMap[id]? = some (some f) ∧
      made.subscriber f = some (function id)) :
    wp (made.contract user False) (answering made.answer)
      (Prog.forEach ids fun id => do
        Program.modifyEvent fun e => { e with
          subscribeFnMap := e.subscribeFnMap.insertIfNew id none }
        let c ← Prog.read
        Program.invoke (c.event.subscribeFnMap.getD id none) fun f =>
          Program.ask (.subscribeFn f data))
      (fun _ w' => made.invocations w'.trace =
        (ids.map fun id => ⟨function id, value⟩).reverse ++ made.invocations w.trace)
      (fun _ _ => False) w := by
  induction ids generalizing w with
  | nil => rfl
  | cons id ids ih =>
      obtain ⟨f, hfound, hsubscriber⟩ := hcallbacks id (List.mem_cons_self ..)
      have houtcome : made.outcome (.subscribeFn f data) = some (.ok ⟨function id, value⟩) := by
        change some (coreCallback (made.subscriber f) data).2 = _
        rw [hsubscriber, coreCallback_some hdecoded]
      unfold Prog.forEach
      rw [Reentrant.wp_bind, Reentrant.wp_bind, wp_modifyEvent, Reentrant.wp_bind,
        Reentrant.wp_read]
      dsimp only
      rw [Event.getD_insertIfNew_of_found hfound]
      apply Reentrant.wp_ask_happening rfl
      · change Except.map _ (coreCallback (made.subscriber f) data).2 = _
        rw [hsubscriber, coreCallback_some hdecoded]
        rfl
      rw [Wrappers.duringCall_of houtcome]
      refine Reentrant.wp_mono (ih ?_) ?_ fun _ _ hE => hE
      · intro id' hmem
        obtain ⟨f', hfound', hsubscriber'⟩ := hcallbacks id' (List.mem_cons_of_mem _ hmem)
        refine ⟨f', ?_, hsubscriber'⟩
        change (user _ _ _).state.event.subscribeFnMap[id']? = _
        rw [hcourteous.kept]
        exact (Event.lookup_insertIfNew_of_found hfound _ id').trans hfound'
      · intro _ w' hinvocations
        rw [hinvocations, List.map_cons, List.reverse_cons, List.append_assoc]
        change _ ++ made.invocations (user _ _ _).trace = _
        rw [hcourteous.invocations]
        exact congrArg _ (Wrappers.invocations_call houtcome _)

variable [Build]

/-- An event that was received is passed on to the subscribers of its name. -/
theorem wp_received (hcourteous : made.Courteous user Client.event)
    (hdecoded : (TypeSerializer.prefixedToJson data).2 = .ok value)
    (hsubscribed : Subscribed made function name node w.state.event) {m : MessageProxy}
    (hheader : m.header = { topic := .event, action := .event }) (hnum : m.numArguments = 2)
    (hname : m.get 0 = .ok name) (hdata : m.get 1 = .ok data) (n : Nat) :
    wp (made.contract user False) (answering made.answer) (Connection.handleMessage n m)
      (fun _ w' => made.invocations w'.trace =
        (node.value.map fun id => ⟨function id, value⟩).reverse ++ made.invocations w.trace)
      (fun _ _ => False) w := by
  have hmem : m.header ∈ headers := by
    rw [hheader]
    decide
  unfold Connection.handleMessage
  rw [Reentrant.wp_bind, Reentrant.wp_read, Reentrant.wp_bind, wp_leave, Reentrant.wp_bind,
    wp_debugMsg_iff hmem, hheader]
  change wp _ _ (Event.notify (Connection.send n) m.view) _ _ _
  have hview : m.view.header = { topic := .event, action := .event } := hheader
  unfold Event.notify
  rw [Reentrant.wp_bind, wp_assert _ _ _ (by rw [hview]), hview]
  change wp _ _ (Event.notifySubscribers m.view) _ _ _
  unfold Event.notifySubscribers
  rw [Reentrant.wp_bind, wp_assert _ _ _ (by rw [hview]), Reentrant.wp_bind,
    wp_assert _ _ _ (by rw [hview]; exact hnum), wp_when, hview]
  refine ⟨fun _ => ?_, fun hnot => absurd rfl hnot⟩
  rw [Reentrant.wp_bind]
  change wp _ _ (Program.lift (m.get 0)) _ _ _
  rw [hname, wp_lift_ok, Reentrant.wp_bind]
  change wp _ _ (Program.lift (m.get 1)) _ _ _
  have hfound : (w.noted (.dispatched m w.state)).state.event.subscriberMap[name]? = some node :=
    hsubscribed.found
  rw [hdata, wp_lift_ok, Reentrant.wp_bind, Reentrant.wp_read, hfound]
  exact wp_subscribers (w := w.noted (.dispatched m w.state)) hcourteous hdecoded node.value
    hsubscribed.callbacks

/-- Errors of the parser are reported, and nothing else happens. -/
theorem wp_parserErrors (raw : Buffer) (errors : List Parser.Error) :
    wp (made.contract user False) (answering made.answer)
      (Prog.forEach errors fun error => Program.report (.parserError error raw))
      (fun _ w' => w'.state = w.state ∧ made.invocations w'.trace = made.invocations w.trace)
      (fun _ _ => False) w := by
  induction errors generalizing w with
  | nil => exact ⟨rfl, rfl⟩
  | cons error errors ih =>
      unfold Prog.forEach
      rw [Reentrant.wp_bind]
      change wp _ _ (Program.lift (.ok (_ : Buffer)) >>= fun text =>
        Program.ask (.errorHandler _ text)) _ _ _
      rw [Reentrant.wp_bind, wp_lift_ok]
      apply Reentrant.wp_ask_happening rfl rfl
      exact Reentrant.wp_mono ih (fun _ _ h => ⟨h.1, h.2⟩) fun _ _ hE => hE

theorem state_of_parserErrors (hcourteous : made.Courteous user Client.event) {raw : Buffer}
    {errors : List Parser.Error} {w' : World} (h : evaluate (made.conduct user)
      (Prog.forEach errors fun error => Program.report (.parserError error raw)) w =
        (.done (), w')) :
    w'.state = w.state ∧ made.invocations w'.trace = made.invocations w.trace := by
  have hends := Reentrant.ends_of_wp (hcourteous.obeys False) (wp_parserErrors raw errors (w := w))
  rwa [h] at hends

end Reception

/-- The header of an event -/
def eventHeader : TableHeader :=
  ⟨{ topic := .event, action := .event }, by decide⟩

theorem arity_eventHeader : eventHeader.arity = (2, 2) := by
  decide

theorem serialize_of_toBinary [Build] {name data buffer : Buffer}
    (evt : Built .event .event [name, data]) (hbinary : evt.val.toBinary = .ok buffer) :
    buffer = serialize eventHeader.binary [name, data] := by
  obtain ⟨hheader, harguments⟩ := evt.property
  have hcases := evt.val.toBinary_eq eventHeader hheader
  by_cases hsize : evt.val.payloadSize < 2 ^ 31
  · rw [hcases.1 hsize, harguments] at hbinary
    exact (Except.ok.inj hbinary).symm
  · obtain herror | herror := hcases.2 (Nat.le_of_not_lt hsize)
    · cases herror.symm.trans hbinary
    · cases herror.symm.trans hbinary

/-- No message is read in an event whose name contains a record separator. -/
theorem execute_eq_nil [Build] [JsonLibrary] {name data buffer : Buffer} {v : Json}
    (evt : Built .event .event [name, data]) (hbinary : evt.val.toBinary = .ok buffer)
    (hdata : TypeSerializer.toPrefixedBuffer v = .ok data) (hsep : asciiRecordSeparator ∈ name) :
    ∃ errors, Parser.execute (buffer ++ [0, 0]) = .ok ([], errors) := by
  obtain ⟨-, harguments⟩ := evt.property
  obtain ⟨k, n, hk, hname, -⟩ := exists_last hsep
  have honly := (onlyMessage_event_name arity_eventHeader harguments hk hname).mpr
    (TypeSerializer.not_mem_bareHeaders hdata k)
  rw [harguments, ← serialize_of_toBinary evt hbinary] at honly
  obtain ⟨messages, errors, hexecute, -, hsame⟩ := honly
  cases messages with
  | nil => exact ⟨errors, hexecute⟩
  | cons p ps =>
      obtain ⟨offset, s, hreads⟩ := Parser.exists_reads hexecute (List.mem_cons_self ..)
      have hs := ((hsame p (List.mem_cons_self ..)).eq hreads).2
      have hreadable := s.readable name (by rw [← hs, harguments]; exact List.mem_cons_self ..)
      exact absurd hsep hreadable.2.1

/-- An event without separators in its arguments is a sentence. -/
def eventSentence (name data : Buffer) (hname : Readable name) (hdata : Readable data) :
    Sentence where
  header := eventHeader
  arguments := [name, data]
  readable := by
    intro a ha
    rcases List.mem_pair.mp ha with rfl | rfl
    · exact hname
    · exact hdata
  allowed := by
    unfold TableHeader.Allows
    rw [arity_eventHeader]
    exact ⟨le_rfl, le_rfl⟩

section Received
variable [Build] [JsonLibrary] {made : Wrappers} {user : World → Nat → Json → World}
  (hcourteous : made.Courteous user Client.event) {n : Nat} {receiver : World} {name data : Buffer}
  {node : Node (List Nat)} {function : Nat → Nat} {value : Json}
  (hsubscribed : Subscribed made function name node receiver.state.event)
  (hname : Readable name) (hdata : Readable data)
  (hdecoded : (TypeSerializer.prefixedToJson data).2 = .ok value)
include hcourteous hsubscribed hdecoded

/-- A buffer that is one event is received. -/
theorem received_alone : ∃ w',
    evaluate (made.conduct user) (Connection.onMessage n (eventSentence name data hname hdata).text)
      receiver = (.done (), w') ∧
    made.invocations w'.trace = (node.value.map fun id => ⟨function id, value⟩).reverse ++
      made.invocations receiver.trace := by
  obtain ⟨m, messages, errors, hexecute, ⟨s, hreads, hheader, harguments⟩, hnil⟩ :=
    exists_first_message (eventSentence name data hname hdata) []
  obtain ⟨rfl, rfl⟩ := hnil rfl
  rw [List.append_nil] at hexecute
  have hget := hreads.get
  have hnum := hreads.numArguments
  rw [harguments] at hnum
  simp only [harguments] at hget
  have hwp : wp (made.contract user False) (answering made.answer)
      (Connection.onMessage n (eventSentence name data hname hdata).text)
      (fun _ w' => made.invocations w'.trace =
        (node.value.map fun id => ⟨function id, value⟩).reverse ++
          made.invocations receiver.trace) (fun _ _ => False) receiver := by
    unfold Connection.onMessage
    rw [hexecute, Reentrant.wp_bind, wp_lift_ok]
    change wp _ _ (Connection.handleMessage n m >>= fun _ => pure ()) _ _ _
    rw [Reentrant.wp_bind]
    exact wp_received hcourteous hdecoded hsubscribed (hreads.header.trans (by rw [hheader]; rfl))
      hnum (hget 0 Nat.zero_lt_two) (hget 1 Nat.one_lt_two) n
  have hends := Reentrant.ends_of_wp (hcourteous.obeys False) hwp
  generalize evaluate _ _ receiver = r at hends ⊢
  obtain ⟨outcome, w'⟩ := r
  cases outcome with
  | done a => exact ⟨w', rfl, hends⟩
  | raised x => exact hends.elim
  | aborted f => exact hends.elim

/-- A buffer that begins with an event: the functions of its subscribers are invoked first. -/
theorem received_first {rest : Buffer} {w' : World}
    (h : evaluate (made.conduct user) (Connection.onMessage n
      ((eventSentence name data hname hdata).text ++ rest)) receiver = (.done (), w')) :
    ∃ newer, made.invocations w'.trace =
      newer ++ ((node.value.map fun id => ⟨function id, value⟩).reverse ++
        made.invocations receiver.trace) := by
  have hduring : ∀ (w : World) (c : Call), Reentrant.World.During w (made.conduct user w c).1 :=
    Reentrant.during_happening hcourteous.during_duringCall
  obtain ⟨m, messages, errors, hexecute, ⟨s, hreads, hheader, harguments⟩, -⟩ :=
    exists_first_message (eventSentence name data hname hdata) rest
  have hget := hreads.get
  have hnum := hreads.numArguments
  rw [harguments] at hnum
  simp only [harguments] at hget
  unfold Connection.onMessage at h
  rw [hexecute] at h
  obtain ⟨_, w₀, hlift, h⟩ := Reentrant.exists_of_evaluate_bind h
  cases hlift
  obtain ⟨_, w₁, herrors, h⟩ := Reentrant.exists_of_evaluate_bind h
  obtain ⟨_, w₂, hfirst, h⟩ := Reentrant.exists_of_evaluate_bind h
  obtain ⟨hstate, hinvocations⟩ := state_of_parserErrors hcourteous herrors
  have hends := Reentrant.ends_of_wp (hcourteous.obeys False) (wp_received hcourteous hdecoded
    (hstate ▸ hsubscribed) (hreads.header.trans (by rw [hheader]; rfl)) hnum
    (hget 0 Nat.zero_lt_two) (hget 1 Nat.one_lt_two) n)
  rw [hfirst] at hends
  obtain ⟨newer, hnewer⟩ := (Reentrant.later_of_evaluate hduring h).trace
  refine ⟨made.invocations newer, ?_⟩
  rw [← hnewer, ← hinvocations, ← hends]
  exact List.filterMap_append

end Received

section Carried
variable [Build] [JsonLibrary]

/-- Receiving a buffer returns, and every subscriber's function is invoked once, in order,
with the value. -/
def Carried (v : Json) (buffer : Buffer) (made : Wrappers) (user : World → Nat → Json → World)
    (n : Nat) (receiver : World) (node : Node (List Nat)) (function : Nat → Nat) : Prop :=
  ∃ w', evaluate (made.conduct user) (Connection.onMessage n buffer) receiver = (.done (), w') ∧
    made.invocations w'.trace =
      (node.value.map fun id => ⟨function id, v⟩).reverse ++ made.invocations receiver.trace

section Receiver
variable {made : Wrappers} {user : World → Nat → Json → World}
  (hcourteous : made.Courteous user Client.event) {n : Nat} {receiver : World}
  {name data buffer : Buffer} {node : Node (List Nat)} {function : Nat → Nat} {v : Json}
  (evt : Built .event .event [name, data])
  (hbinary : evt.val.toBinary = .ok buffer)
include hcourteous hbinary

/-- Nothing is received if the name contains a record separator. -/
theorem not_carried_of_name (hne : node.value ≠ [])
    (hdata : TypeSerializer.toPrefixedBuffer v = .ok data) (hsep : asciiRecordSeparator ∈ name) :
    ¬Carried v buffer made user n receiver node function := by
  rintro ⟨w', h, hinvocations⟩
  obtain ⟨errors, hexecute⟩ := execute_eq_nil evt hbinary hdata hsep
  unfold Connection.onMessage at h
  rw [hexecute] at h
  obtain ⟨_, w₀, hlift, h⟩ := Reentrant.exists_of_evaluate_bind h
  cases hlift
  obtain ⟨_, w₁, herrors, h⟩ := Reentrant.exists_of_evaluate_bind h
  cases h
  rw [(state_of_parserErrors hcourteous herrors).2, List.self_eq_append_left,
    List.reverse_eq_nil_iff, List.map_eq_nil_iff] at hinvocations
  exact hne hinvocations

variable (hsubscribed : Subscribed made function name node receiver.state.event)
  (hnonempty : name ≠ []) (hname : asciiRecordSeparator ∉ name)
include hsubscribed hnonempty hname

include evt in
omit [Build] [JsonLibrary] hcourteous hsubscribed hbinary in
theorem readable_name : Readable name :=
  ⟨hnonempty, hname, evt.val.arguments_clean name
    (by rw [evt.property.2]; exact List.mem_cons_self ..)⟩

/-- What precedes a record separator in a string is received, and not the string. -/
theorem not_carried_of_string {s : Buffer} (hne : node.value ≠ [])
    (hdata : data = PayloadType.string.letter :: s) (hsep : asciiRecordSeparator ∈ s) :
    ¬Carried (.string s) buffer made user n receiver node function := by
  rintro ⟨w', h, hinvocations⟩
  obtain ⟨p, q, rfl, hp⟩ := List.eq_append_cons_of_mem hsep
  have hclean : asciiUnitSeparator ∉ data := evt.val.arguments_clean data (by
    rw [evt.property.2]
    exact List.mem_cons_of_mem _ (List.mem_cons_self ..))
  have hunit : asciiUnitSeparator ∉ PayloadType.string.letter :: p := by
    rw [hdata] at hclean
    exact fun hmem => hclean (List.mem_append_left (asciiRecordSeparator :: q) hmem)
  have hreadable : Readable (PayloadType.string.letter :: p) := by
    refine ⟨List.cons_ne_nil _ _, ?_, hunit⟩
    rw [List.mem_cons, not_or]
    exact ⟨by decide, hp⟩
  have htext : buffer =
      (eventSentence name _ (readable_name evt hnonempty hname) hreadable).text ++
        (q ++ [asciiRecordSeparator]) := by
    have hbuffer := serialize_of_toBinary evt hbinary
    rw [hdata] at hbuffer
    rw [hbuffer]
    simp [Sentence.text, eventSentence, serialize]
  rw [htext] at h
  obtain ⟨newer, hnewer⟩ := received_first hcourteous hsubscribed _ hreadable rfl h
  rw [hinvocations, ← List.append_assoc] at hnewer
  have hlists := List.append_cancel_right hnewer
  obtain ⟨id, ids, hids⟩ := List.exists_cons_of_ne_nil hne
  rw [hids, List.map_cons, List.map_cons, List.reverse_cons, List.reverse_cons,
    ← List.append_assoc] at hlists
  -- the first subscriber's function was invoked with less than the string
  have hlast := List.singleton_inj.mp (List.append_inj' hlists rfl).2
  have hvalue := Json.string.inj (congrArg Invocation.data hlast)
  exact List.cons_ne_nil _ _ (List.append_right_eq_self.mp hvalue)

theorem carried_of_clean (htextual : Textual v)
    (hdata : TypeSerializer.toPrefixedBuffer v = .ok data) (hsep : asciiRecordSeparator ∉ data) :
    Carried v buffer made user n receiver node function := by
  have hreadable : Readable data := by
    obtain ⟨p, rest, rfl⟩ := TypeSerializer.exists_letter hdata
    exact ⟨List.cons_ne_nil _ _, hsep, evt.val.arguments_clean _ (by
      rw [evt.property.2]
      exact List.mem_cons_of_mem _ (List.mem_cons_self ..))⟩
  unfold Carried
  rw [serialize_of_toBinary evt hbinary]
  exact received_alone hcourteous hsubscribed (readable_name evt hnonempty hname) hreadable
    (congrArg Prod.snd (TypeSerializer.prefixedToJson_toPrefixedBuffer htextual hdata))

end Receiver

omit [Build] in
theorem prefixed_of_emit {name data : Buffer} {v : Json}
    (h : EventWrapper.emit name v = .ok (name, data)) :
    TypeSerializer.toPrefixedBuffer v = .ok data := by
  unfold EventWrapper.emit at h
  cases hprefixed : TypeSerializer.toPrefixedBuffer v with
  | error x =>
      rw [hprefixed] at h
      cases h
  | ok data' =>
      rw [hprefixed] at h
      cases h
      rfl

/-- A value that was emitted on an open connection arrives iff neither the name nor, if it is a
string, the value itself contains a record separator. -/
theorem carried_iff (name : Buffer) (v : Json) (htextual : Textual v)
    (conduct : Conduct interface)
    (hduring : ∀ (w : World) (c : Call), Reentrant.World.During w (conduct w c).1) (n : Nat)
    (w w' : World) (hopen : w.state.state = .open) (data : Buffer)
    (hwrapper : EventWrapper.emit name v = .ok (name, data))
    (hemit : evaluate conduct (Event.emit (Connection.send n) name data) w = (.done (), w'))
    (buffer : Buffer) (hemitted : Emitted w w' buffer)
    (made : Wrappers) (user : World → Nat → Json → World)
    (hcourteous : made.Courteous user Client.event) (n' : Nat) (receiver : World)
    (node : Node (List Nat)) (hne : node.value ≠ []) (function : Nat → Nat)
    (hsubscribed : Subscribed made function name node receiver.state.event) :
    Carried v buffer made user n' receiver node function ↔
      asciiRecordSeparator ∉ name ∧ ∀ s, v = .string s → asciiRecordSeparator ∉ s := by
  obtain ⟨hnonempty, evt, hbinary⟩ := binary_of_emitted hduring hopen hemit hemitted
  have hdata := prefixed_of_emit hwrapper
  by_cases hsep : asciiRecordSeparator ∈ name
  · exact iff_of_false (not_carried_of_name hcourteous evt hbinary hne hdata hsep)
      fun h => h.1 hsep
  · by_cases hmem : asciiRecordSeparator ∈ data
    · obtain ⟨s, rfl, hs⟩ := (TypeSerializer.recordSeparator_mem_iff htextual hdata).mp hmem
      cases hdata
      exact iff_of_false (not_carried_of_string hcourteous evt hbinary hsubscribed hnonempty hsep
        hne rfl hs) fun h => h.2 s rfl hs
    · refine iff_of_true (carried_of_clean hcourteous evt hbinary hsubscribed hnonempty hsep
        htextual hdata hmem) ⟨hsep, fun s hs hmem' => hmem ?_⟩
      exact (TypeSerializer.recordSeparator_mem_iff htextual hdata).mpr ⟨s, hs, hmem'⟩

end Carried

/-- A client that is open and has done nothing -/
def opened : World where
  state := { state := .open }

/-- A client with one subscriber of `a` -/
def subscribed : World where
  state :=
    { event :=
        { subscriberMap := (∅ : NameMap (Node (List Nat))).insert (bytes "a") ⟨0, [0]⟩
          subscribeFnMap := (∅ : Std.TreeMap Nat Function).insert 0 (some 5) } }

/-- The function of the subscriber is 7. -/
def madeForSeven [JsonLibrary] : Wrappers :=
  ⟨fun _ => .anonymously, fun _ => some 7⟩

theorem subscribed_found [JsonLibrary] :
    Subscribed madeForSeven (fun _ => 7) (bytes "a") ⟨0, [0]⟩ subscribed.state.event := by
  refine ⟨Std.TreeMap.getElem?_insert_self, fun id hid => ⟨5, ?_, rfl⟩⟩
  rw [List.mem_singleton.mp hid]
  exact Std.TreeMap.getElem?_insert_self

set_option maxRecDepth 4000 in
/-- The empty object arrives. -/
theorem carried_emptyObject : let _ : Build := release
    let _ : JsonLibrary := exampleLibrary []
    ∃ w' buffer, evaluate (.quiet accepting) (Event.emit (Connection.send 9) (bytes "a")
        (bytes "O{}")) opened = (.done (), w') ∧ Emitted opened w' buffer ∧
      (Carried (.object ()) buffer madeForSeven (fun w _ _ => w) 9 subscribed ⟨0, [0]⟩ (fun _ => 7) ↔
        asciiRecordSeparator ∉ bytes "a" ∧
          ∀ s, (.object () : Json) = .string s → asciiRecordSeparator ∉ s) := by
  intro _ _
  have hemit : ∃ w' buffer, evaluate (.quiet accepting) (Event.emit (Connection.send 9) (bytes "a")
      (bytes "O{}")) opened = (.done (), w') ∧ Emitted opened w' buffer :=
    ⟨_, _, rfl, _, [_], rfl⟩
  obtain ⟨w', buffer, hdone, hemitted⟩ := hemit
  have htextual : Textual (.object () : Json) := ⟨rfl, by decide⟩
  exact ⟨w', buffer, hdone, hemitted, carried_iff (bytes "a") (.object ()) htextual
    (.quiet accepting) (fun w _ => .refl w) 9 opened w' rfl (bytes "O{}") rfl hdone buffer hemitted
    madeForSeven _ (madeForSeven.courteous_idle _) 9 subscribed _ (List.cons_ne_nil _ _) _
    subscribed_found⟩

set_option maxRecDepth 4000 in
/-- A record separator does not. -/
theorem separator_not_carried : let _ : Build := release
    let _ : JsonLibrary := exampleLibrary [[30]]
    ¬∀ v : Json, Textual v → ∀ data, EventWrapper.emit (bytes "a") v = .ok (bytes "a", data) →
      ∀ w' buffer, evaluate (.quiet accepting) (Event.emit (Connection.send 9) (bytes "a") data)
        opened = (.done (), w') → Emitted opened w' buffer →
      Carried v buffer madeForSeven (fun w _ _ => w) 9 subscribed ⟨0, [0]⟩ (fun _ => 7) := by
  intro _ _ hclaim
  have hemit : ∃ w' buffer, evaluate (.quiet accepting) (Event.emit (Connection.send 9) (bytes "a")
      [83, 30]) opened = (.done (), w') ∧ Emitted opened w' buffer :=
    ⟨_, _, rfl, _, [_], rfl⟩
  obtain ⟨w', buffer, hdone, hemitted⟩ := hemit
  have htextual : Textual (.string [30] : Json) := ⟨rfl, by decide⟩
  have hcarried := hclaim (.string [30]) htextual [83, 30] rfl w' buffer hdone hemitted
  obtain ⟨hnonempty, evt, hbinary⟩ := binary_of_emitted (fun w _ => .refl w) rfl hdone hemitted
  exact not_carried_of_string (madeForSeven.courteous_idle _) evt hbinary subscribed_found
    hnonempty (by decide) (List.cons_ne_nil _ _) rfl (by decide) hcarried

end Deepstream
