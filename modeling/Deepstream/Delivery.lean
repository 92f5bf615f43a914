import Deepstream.Alternation
import Deepstream.Registration

/-!
Events and the callbacks that are called for them.

An event calls the callbacks that are registered under its name, in the order
of their registrations, until one of them is empty or raises an exception.
-/

namespace Deepstream
namespace Event

open Reentrant (Outcome Prog answering evaluate performAll undisturbed wp)

/-- All callbacks were called with the data, in order. -/
def Delivered (callbacks : List Function) (data : Buffer) (w w' : World) : Prop :=
  ∃ fs : List Nat, fs.map some = callbacks ∧ called w' = (fs.map (Call.subscribeFn · data)).reverse ++ called w

/-- The callbacks were called with the data, in order, until one was empty or raised an
exception. -/
def Abandoned (callbacks : List Function) (data : Buffer) (w w' : World) : Prop :=
  ∃ fs : List Nat, called w' = (fs.map (Call.subscribeFn · data)).reverse ++ called w ∧
    (fs.map some ++ [none] <+: callbacks ∨ fs.map some <+: callbacks ∧
      ∃ f x, w'.trace.head? = some (.back (.subscribeFn f data) (.error x)))

/-- A message is an event. -/
structure Carries (m : Message) (name data : Buffer) : Prop where
  header : m.header = { topic := .event, action := .event }
  numArguments : m.numArguments = 2
  name : m.get 0 = .ok name
  data : m.get 1 = .ok data

/-- The turn of an identifier in `notify_subscribers_` -/
def turn (data : Buffer) (id : Nat) : Program Unit := do
  Program.modifyEvent fun e => { e with subscribeFnMap := e.subscribeFnMap.insertIfNew id none }
  let c ← Prog.read
  Program.invoke (c.event.subscribeFnMap.getD id none) fun f => Program.ask (.subscribeFn f data)

section Notify
variable [Build] {C : Reentrant.Contract interface} {P : Reentrant.Policy interface}
  {w : World} {name data : Buffer} {Q : Unit → World → Prop} {E : Exception → World → Prop}

/-- `notify_` of an event goes through the subscribers of its name. -/
theorem wp_notify_of {m : Message} (hm : Carries m name data)
    (hnone : w.state.event.subscriberMap[name]? = none → Q () w)
    (hsome : ∀ node : Node (List Nat), w.state.event.subscriberMap[name]? = some node →
      wp C P (Prog.forEach node.value (turn data)) Q E w) :
    wp C P (Event.notify mockSend m) Q E w := by
  have htopic : m.header.topic = .event := by rw [hm.header]
  have haction : m.header.action = .event := by rw [hm.header]
  have hack : m.header.isAck = false := by rw [hm.header]
  have hnum : m.numArguments = if m.header.isAck then 1 else 2 := by
    rw [hm.numArguments, hack]
    rfl
  unfold Event.notify
  rw [Reentrant.wp_bind, wp_assert _ _ _ htopic, haction]
  change wp _ _ (notifySubscribers m) _ _ _
  unfold notifySubscribers
  rw [Reentrant.wp_bind, wp_assert _ _ _ haction, Reentrant.wp_bind, wp_assert _ _ _ hnum, wp_when]
  refine ⟨fun _ => ?_, fun hne => absurd hack hne⟩
  rw [hm.name, hm.data, Reentrant.wp_bind, wp_lift_ok, Reentrant.wp_bind, wp_lift_ok,
    Reentrant.wp_bind, Reentrant.wp_read]
  cases hnode : w.state.event.subscriberMap[name]? with
  | none => exact hnone hnode
  | some node => exact hsome node hnode

/-- A message was sent or put into the queue, and nothing else has changed. -/
structure Queued (w w₁ : World) : Prop where
  state : ∃ queue, w₁.state = { w.state with event := { w.state.event with sendQueue := queue } }
  called : called w₁ = called w

/-- `emit` goes through the subscribers whether or not the event was sent. -/
theorem wp_emit_of (hsends : Sends C P) (hne : name ≠ []) (hclean : asciiUnitSeparator ∉ name)
    (hrefused : asciiUnitSeparator ∈ data → ∀ x, E x w)
    (hnone : asciiUnitSeparator ∉ data → ∀ w₁, Queued w w₁ →
      w₁.state.event.subscriberMap[name]? = none → Q () w₁)
    (hsome : asciiUnitSeparator ∉ data → ∀ w₁ (node : Node (List Nat)), Queued w w₁ →
      w₁.state.event.subscriberMap[name]? = some node →
        wp C P (Prog.forEach node.value (turn data)) Q E w₁) :
    wp C P (Event.emit mockSend name data) Q E w := by
  unfold Event.emit
  rw [if_neg hne, Reentrant.wp_bind]
  apply wp_build
  · exact Nat.le_refl 2
  · intro hargs evt
    have hdata : asciiUnitSeparator ∉ data :=
      hargs data (List.mem_cons_of_mem _ (List.mem_singleton_self data))
    have hget : ∀ (i : Nat) (arg : Buffer), [name, data][i]? = some arg →
        evt.val.get i = .ok arg := by
      intro i arg hi
      unfold MessageBuilder.get
      rw [evt.property.2, hi]
    have hcarries : Carries evt.val.view name data :=
      ⟨evt.property.1, congrArg List.length evt.property.2, hget 0 name rfl, hget 1 data rfl⟩
    have hnotify : ∀ w₁, Queued w w₁ → wp C P (Prog.read >>= fun c : Client =>
        Prog.when (name ∈ c.event.subscriberMap) (Event.notify mockSend evt.val.view)) Q E w₁ := by
      intro w₁ hqueued
      rw [Reentrant.wp_bind, Reentrant.wp_read, wp_when]
      refine ⟨fun _ => ?_, fun hmem => ?_⟩
      · exact wp_notify_of hcarries (hnone hdata w₁ hqueued) fun node => hsome hdata w₁ node hqueued
      · exact hnone hdata w₁ hqueued (Std.TreeMap.getElem?_eq_none hmem)
    rw [Reentrant.wp_bind, wp_leave, Reentrant.wp_bind]
    apply hsends
    intro sent
    rw [Reentrant.wp_bind, wp_when]
    refine ⟨fun _ => ?_, fun _ => hnotify _ ⟨⟨_, rfl⟩, rfl⟩⟩
    unfold enqueue
    rw [wp_modifyEvent]
    exact hnotify _ ⟨⟨_, rfl⟩, rfl⟩
  · rintro ⟨arg, hmem, hsep⟩
    apply hrefused
    cases List.mem_cons.mp hmem with
    | inl heq => exact absurd (heq ▸ hsep) hclean
    | inr hmem => exact List.mem_singleton.mp hmem ▸ hsep

omit [Build] in
theorem Represents.queued {s : Registry} {w₁ : World} (h : Represents s w) (hqueued : Queued w w₁) :
    Represents s w₁ := by
  obtain ⟨queue, hstate⟩ := hqueued.state
  apply h.same
  · rw [hstate]
    exact h.counter
  · rw [hstate]
  · intro id
    rw [hstate]

end Notify

section Quiet
variable {answer : Replies} {fault : Failure → Prop} {w w₁ w' : World} {s : Registry}
  {data : Buffer} {callbacks : List Function}

theorem Delivered.cons {f : Nat} (hcalled : called w₁ = .subscribeFn f data :: called w)
    (h : Delivered callbacks data w₁ w') : Delivered (some f :: callbacks) data w w' := by
  obtain ⟨fs, rfl, hfs⟩ := h
  refine ⟨f :: fs, rfl, ?_⟩
  rw [hfs, hcalled, List.map_cons, List.reverse_cons, List.append_assoc]
  rfl

theorem Abandoned.cons {f : Nat} (hcalled : called w₁ = .subscribeFn f data :: called w)
    (h : Abandoned callbacks data w₁ w') : Abandoned (some f :: callbacks) data w w' := by
  obtain ⟨fs, hfs, hend⟩ := h
  refine ⟨f :: fs, ?_, ?_⟩
  · rw [hfs, hcalled, List.map_cons, List.reverse_cons, List.append_assoc]
    rfl
  · rw [List.map_cons, List.cons_append, List.prefix_cons_inj, List.prefix_cons_inj]
    exact hend

theorem Delivered.of_called (hcalled : called w₁ = called w)
    (h : Delivered callbacks data w₁ w') : Delivered callbacks data w w' := by
  unfold Delivered at h ⊢
  rwa [hcalled] at h

theorem Abandoned.of_called (hcalled : called w₁ = called w)
    (h : Abandoned callbacks data w₁ w') : Abandoned callbacks data w w' := by
  unfold Abandoned at h ⊢
  rwa [hcalled] at h

theorem Delivered.of_missing {name : Buffer} (h : Represents s w)
    (hnode : w.state.event.subscriberMap[name]? = none) :
    Delivered (s.callbacks name) data w w := by
  refine ⟨[], ?_, rfl⟩
  exact (congrArg (List.map Registration.callback)
    (List.map_eq_nil_iff.mp (h.missing name hnode))).symm

theorem wp_turns {registrations : List Registration} (h : Represents s w)
    (hmem : ∀ r ∈ registrations, r ∈ s.registrations) :
    wp (undisturbed fault) (answering answer)
      (Prog.forEach (registrations.map Registration.id) (turn data))
      (fun _ w' => Represents s w' ∧
        Delivered (registrations.map Registration.callback) data w w')
      (fun _ w' => Represents s w' ∧
        Abandoned (registrations.map Registration.callback) data w w') w := by
  induction registrations generalizing w with
  | nil => exact ⟨h, [], rfl, rfl⟩
  | cons r registrations ih =>
      have hr := h.registered r (hmem r (List.mem_cons_self ..))
      have hfns : ∀ id : Nat, (w.state.event.subscribeFnMap.insertIfNew r.id none)[id]? =
          w.state.event.subscribeFnMap[id]? :=
        lookup_insertIfNew_of_found hr none
      have hcallback : (w.state.event.subscribeFnMap.insertIfNew r.id none).getD r.id none =
          r.callback :=
        getD_insertIfNew_of_found hr none none
      unfold List.map Prog.forEach turn
      rw [Reentrant.wp_bind, Reentrant.wp_bind, wp_modifyEvent, Reentrant.wp_bind,
        Reentrant.wp_read, hcallback]
      cases r.callback with
      | none => exact ⟨h.same h.counter rfl hfns, [], rfl, .inl ⟨_, rfl⟩⟩
      | some f =>
          apply Reentrant.wp_ask_answering
          · intro _ _
            refine Reentrant.wp_mono (ih (h.same ?_ ?_ ?_)
              fun r' hr' => hmem r' (List.mem_cons_of_mem _ hr')) ?_ ?_
            · exact h.counter
            · rfl
            · exact hfns
            · exact fun _ _ hw => ⟨hw.1, hw.2.cons rfl⟩
            · exact fun _ _ hw => ⟨hw.1, hw.2.cons rfl⟩
          · intro x _
            refine ⟨h.same h.counter rfl hfns, [f], rfl, .inr ⟨⟨_, rfl⟩, f, x, rfl⟩⟩

variable [Build]

/-- `notify_` of an event -/
theorem wp_notify {m : Message} {name : Buffer} (hm : Carries m name data) (h : Represents s w) :
    wp (undisturbed fault) (answering answer) (Event.notify mockSend m)
      (fun _ w' => Represents s w' ∧ Delivered (s.callbacks name) data w w')
      (fun _ w' => Represents s w' ∧ Abandoned (s.callbacks name) data w w') w := by
  apply wp_notify_of hm
  · exact fun hnode => ⟨h, .of_missing h hnode⟩
  · intro node hnode
    rw [(h.found name node hnode).1]
    exact wp_turns h fun r hr => List.mem_of_mem_filter hr

/-- An event is delivered whether or not it was sent. -/
theorem wp_emit {name : Buffer} (hsends : Sends (undisturbed fault) (answering answer))
    (h : Represents s w) (hne : name ≠ []) (hclean : asciiUnitSeparator ∉ name) :
    wp (undisturbed fault) (answering answer) (Event.emit mockSend name data)
      (fun _ w' => Represents s w' ∧ asciiUnitSeparator ∉ data ∧
        Delivered (s.callbacks name) data w w')
      (fun _ w' => Represents s w' ∧
        if asciiUnitSeparator ∈ data then called w' = called w
        else Abandoned (s.callbacks name) data w w') w := by
  apply wp_emit_of hsends hne hclean
  · intro hdata _
    rw [if_pos hdata]
    exact ⟨h, rfl⟩
  · exact fun hdata w₁ hqueued hnode =>
      ⟨h.queued hqueued, hdata, (Delivered.of_missing (h.queued hqueued) hnode).of_called
        hqueued.called⟩
  · intro hdata w₁ node hqueued hnode
    rw [((h.queued hqueued).found name node hnode).1]
    refine Reentrant.wp_mono (wp_turns (h.queued hqueued)
      fun r hr => List.mem_of_mem_filter hr) ?_ ?_
    · exact fun _ _ hw => ⟨hw.1, hdata, hw.2.of_called hqueued.called⟩
    · intro _ _ hw
      rw [if_neg hdata]
      exact ⟨hw.1, hw.2.of_called hqueued.called⟩

end Quiet

/-- A message for an `Event` object -/
structure Incoming [Build] where
  message : MessageProxy
  name : Buffer
  data : Buffer
  carries : Carries message.view name data

/-- What can happen to an `Event` object that shares its counter with a `Presence` object -/
inductive Occurrence [Build] where
  | operation (op : Operation)
  | emit (name : Name) (data : Buffer)
  | received (incoming : Incoming)
  | presenceSubscribe (callback : Function)

section Occurrences
variable [Build]

namespace Occurrence

def program : Occurrence → Program (Option Nat)
  | operation op => op.program
  | emit name data => do
      Event.emit mockSend name.val data
      return none
  | received incoming => do
      Event.notify mockSend incoming.message.view
      return none
  | presenceSubscribe callback => do
      let _ ← Presence.subscribe mockSend callback
      return none

/-- The event there is, with its name; data that cannot be an argument is refused. -/
def event : Occurrence → Option (Buffer × Buffer)
  | emit name data => if asciiUnitSeparator ∈ data then none else some (name.val, data)
  | received incoming => some (incoming.name, incoming.data)
  | _ => none

end Occurrence

theorem Occurrence.event_of_mem {name : Name} {data : Buffer} (h : asciiUnitSeparator ∈ data) :
    (Occurrence.emit name data).event = none :=
  if_pos h

theorem Occurrence.event_of_not_mem {name : Name} {data : Buffer} (h : asciiUnitSeparator ∉ data) :
    (Occurrence.emit name data).event = some (name.val, data) :=
  if_neg h

namespace Registry

def after (s : Registry) : Occurrence → Registry
  | .operation op => s.step op
  | .presenceSubscribe _ => s.skip
  | _ => s

def returned (s : Registry) : Occurrence → Option Nat
  | .operation op => s.returns op
  | _ => none

/-- The callbacks of an event were called, and no others. -/
def Delivers (s : Registry) (o : Occurrence) (w w' : World) : Prop :=
  match o.event with
  | some (name, data) => Delivered (s.callbacks name) data w w'
  | none => called w' = called w

/-- The callbacks of an event were called up to one that did not return. -/
def Abandons (s : Registry) (o : Occurrence) (w w' : World) : Prop :=
  match o.event with
  | some (name, data) => Abandoned (s.callbacks name) data w w'
  | none => called w' = called w

end Registry

/-- Something has happened to an object as it should to the registrations. -/
structure Completed (s : Registry) (o : Occurrence) (w : World) (result : Option Nat)
    (w' : World) : Prop where
  represents : Represents (s.after o) w'
  returned : result = s.returned o
  fresh : ∀ id ∈ result, id ∉ s.registrations.map Registration.id
  delivers : s.Delivers o w w'

/-- An event has ended with an exception. -/
structure Raised (s : Registry) (o : Occurrence) (w w' : World) : Prop where
  represents : Represents (s.after o) w'
  event : ∀ op, o ≠ .operation op
  abandons : s.Abandons o w w'

/-- What happens to an object is what should happen to the registrations. -/
def Refines (s : Registry) (o : Occurrence) (w : World) :
    Outcome interface (Option Nat) × World → Prop :=
  Reentrant.Ends (Completed s o w) (fun _ => Raised s o w) (fun _ _ => False)

section Step
variable {answer : Replies} {w : World} {s : Registry}
  (hsends : ∀ w m buffer, ∃ sent, answer w (.wsSend m buffer) = .ok sent)

include hsends in
theorem wp_presenceSubscribe {fault : Failure → Prop} {E : Exception → World → Prop}
    (callback : Function) (h : Represents s w) (hasserts : Build.asserts = false)
    {Q : Nat → World → Prop}
    (hQ : ∀ id w', Represents s.skip w' → called w' = called w → Q id w') :
    wp (undisturbed fault) (answering answer) (Presence.subscribe mockSend callback) Q E w := by
  apply Presence.wp_subscribe (sends_answering hsends)
  · rw [hasserts]
    exact fun htrue => by cases htrue
  · intro w' hdoes
    refine hQ _ w' (h.recount ?_ hdoes.beside.other) hdoes.called
    rw [hdoes.state, ← h.counter]
    rfl

include hsends in
theorem wp_occurrence (o : Occurrence) (h : Represents s w) (hasserts : Build.asserts = false)
    (hfresh : ∀ name callback, o = .operation (.subscribe name callback) → s.Fresh) :
    wp (undisturbed fun _ : Failure => False) (answering answer) o.program
      (Completed s o w) (fun _ => Raised s o w) w := by
  cases o with
  | operation op =>
      have hadmits : s.Admits op := by
        cases op with
        | subscribe name callback => exact hfresh name callback rfl
        | unsubscribeId =>
            intro htrue
            rw [hasserts] at htrue
            cases htrue
        | unsubscribe | listen | unlisten => trivial
      refine Reentrant.wp_mono (wp_operation (sends_answering hsends) op h hadmits) ?_ ?_
      · rintro result w' ⟨h', rfl, hbeside⟩
        refine ⟨h', rfl, fun id hid => ?_, hbeside.called⟩
        cases op with
        | subscribe name callback =>
            cases Option.mem_some_iff.mp hid
            exact hadmits
        | unsubscribe | unsubscribeId | listen | unlisten => cases hid
      · exact fun _ _ hfalse => hfalse.elim
  | emit name data =>
      unfold Occurrence.program
      rw [Reentrant.wp_bind]
      refine Reentrant.wp_mono (wp_emit (sends_answering hsends) h name.property.1 name.property.2) ?_ ?_
      · rintro _ w' ⟨h', hdata, hdelivered⟩
        refine ⟨h', rfl, by rintro _ ⟨⟩, ?_⟩
        unfold Registry.Delivers
        rw [Occurrence.event_of_not_mem hdata]
        exact hdelivered
      · rintro _ w' ⟨h', habandoned⟩
        refine ⟨h', by rintro _ ⟨⟩, ?_⟩
        unfold Registry.Abandons
        by_cases hdata : asciiUnitSeparator ∈ data
        · rw [if_pos hdata] at habandoned
          rw [Occurrence.event_of_mem hdata]
          exact habandoned
        · rw [if_neg hdata] at habandoned
          rw [Occurrence.event_of_not_mem hdata]
          exact habandoned
  | received incoming =>
      unfold Occurrence.program
      rw [Reentrant.wp_bind]
      refine Reentrant.wp_mono (wp_notify incoming.carries h) ?_ ?_
      · exact fun _ _ hw => ⟨hw.1, rfl, by rintro _ ⟨⟩, hw.2⟩
      · exact fun _ _ hw => ⟨hw.1, by rintro _ ⟨⟩, hw.2⟩
  | presenceSubscribe callback =>
      unfold Occurrence.program
      rw [Reentrant.wp_bind]
      apply wp_presenceSubscribe hsends callback h hasserts
      exact fun _ _ h' hcalled => ⟨h', rfl, by rintro _ ⟨⟩, hcalled⟩

end Step

end Occurrences

/-- Identifiers are handed out in order. -/
structure Young (s : Registry) (n : Nat) : Prop where
  counter : s.counter ≤ n
  ids : ∀ r ∈ s.registrations, r.id < s.counter

theorem Young.fresh {s : Registry} {n : Nat} (h : Young s n) : s.Fresh := by
  intro hmem
  obtain ⟨r, hr, hid⟩ := List.mem_map.mp hmem
  exact absurd (h.ids r hr) (by omega)

section Occurrences
variable [Build]

theorem Young.after {s : Registry} {n : Nat} (h : Young s n) (hn : n + 1 < 2 ^ 64)
    (o : Occurrence) : Young (s.after o) (n + 1) := by
  have hcounter := h.counter
  have hnext : (s.counter + 1) % 2 ^ 64 = s.counter + 1 := Nat.mod_eq_of_lt (by omega)
  have hids : ∀ r ∈ s.registrations, r.id < s.counter + 1 :=
    fun r hr => Nat.lt_succ_of_lt (h.ids r hr)
  cases o with
  | operation op =>
      cases op with
      | subscribe name callback =>
          constructor
          · exact (Nat.mod_le _ _).trans (by omega)
          · intro r hr
            change r.id < (s.counter + 1) % 2 ^ 64
            rw [hnext]
            cases List.mem_append.mp hr with
            | inl hr => exact hids r hr
            | inr hr =>
                cases List.mem_singleton.mp hr
                exact Nat.lt_succ_self _
      | unsubscribe | unsubscribeId =>
          exact ⟨Nat.le_succ_of_le hcounter, fun r hr => h.ids r (List.mem_of_mem_filter hr)⟩
      | listen | unlisten => exact ⟨Nat.le_succ_of_le hcounter, h.ids⟩
  | presenceSubscribe callback =>
      constructor
      · exact (Nat.mod_le _ _).trans (by omega)
      · intro r hr
        change r.id < (s.counter + 1) % 2 ^ 64
        rw [hnext]
        exact hids r hr
  | emit | received => exact ⟨Nat.le_succ_of_le hcounter, h.ids⟩

/-- Identifiers are not in use before the counter has wrapped around. -/
theorem fresh_of_length (os : List Occurrence) (hlen : os.length < 2 ^ 64) :
    (os.foldl Registry.after {}).Fresh := by
  have hyoung : ∀ (s : Registry) (n : Nat), Young s n → n + os.length < 2 ^ 64 →
      Young (os.foldl Registry.after s) (n + os.length) := by
    clear hlen
    induction os with
    | nil => exact fun s n h _ => h
    | cons o os ih =>
        intro s n h hn
        rw [List.length_cons] at hn ⊢
        rw [List.foldl_cons, show n + (os.length + 1) = (n + 1) + os.length by omega]
        exact ih _ _ (h.after (by omega) o) (by omega)
  have hstart : Young {} 0 := ⟨Nat.le_refl _, fun r hr => absurd hr List.not_mem_nil⟩
  exact (hyoung {} 0 hstart (by omega)).fresh

/-- With assertions compiled out, the maps represent the list of registrations in every state,
and whatever happens next does to them what it should, as long as every subscription gets an
identifier that is not in use. -/
theorem refines_of_fresh (hasserts : Build.asserts = false) (answer : Replies)
    (hsends : ∀ w m buffer, ∃ sent, answer w (.wsSend m buffer) = .ok sent)
    (os : List Occurrence) (o : Occurrence)
    (hfresh : ∀ older name callback newer,
      os ++ [o] = older ++ .operation (.subscribe name callback) :: newer →
        (older.foldl Registry.after {}).Fresh) :
    ∃ w, performAll (.quiet answer) Occurrence.program os { state := {} } = .ok w ∧
      WellFormed w.state.event ∧
      Refines (os.foldl Registry.after {}) o w (evaluate (.quiet answer) o.program w) := by
  have hobeys := Reentrant.quiet_obeys answer fun _ : Failure => False
  have hstep : ∀ (s : Registry) (w : World) (o : Occurrence), Represents s w →
      (∀ name callback, o = .operation (.subscribe name callback) → s.Fresh) →
      wp (undisturbed fun _ : Failure => False) (answering answer) o.program
        (fun _ => Represents (s.after o)) (fun _ => Represents (s.after o)) w :=
    fun _ _ o h hadmits => Reentrant.wp_mono (wp_occurrence hsends o h hasserts hadmits)
      (fun _ _ hw => hw.represents) (fun _ _ hw => hw.represents)
  have hadmits : ∀ older o' newer, os = older ++ o' :: newer → ∀ name callback,
      o' = .operation (.subscribe name callback) → (older.foldl Registry.after {}).Fresh := by
    rintro older _ newer rfl name callback rfl
    apply hfresh older name callback (newer ++ [o])
    rw [List.append_assoc, List.cons_append]
  obtain ⟨w, hperform⟩ := Reentrant.exists_performAll hobeys hstep (fun _ _ hfalse => hfalse) os
    represents_nil hadmits
  have h := Reentrant.simulates hobeys hstep os represents_nil hadmits hperform
  refine ⟨w, hperform, h.wellFormed, ?_⟩
  apply Reentrant.ends_of_wp hobeys
  apply wp_occurrence hsends o h hasserts
  rintro name callback rfl
  exact hfresh os name callback [] rfl

end Occurrences

theorem refines_of_fresh_unsubscribed : let _ : Build := release
    ∃ w, performAll (.quiet accepting) Occurrence.program
        [.operation (.subscribe nameA (some 0)), .presenceSubscribe (some 1),
          .operation (.subscribe nameA (some 2)),
          .operation (.unsubscribeId nameA 0)] { state := {} } = .ok w ∧
      WellFormed w.state.event ∧
      Refines ⟨[⟨bytes "a", 2, some 2⟩], 3⟩ (.emit nameA []) w
        (evaluate (.quiet accepting) (Occurrence.emit nameA []).program w) := by
  intro _
  refine refines_of_fresh rfl accepting (fun _ _ _ => ⟨true, rfl⟩)
    [.operation (.subscribe nameA (some 0)), .presenceSubscribe (some 1),
      .operation (.subscribe nameA (some 2)),
      .operation (.unsubscribeId nameA 0)] _ ?_
  intro older name callback newer hos
  apply fresh_of_length
  have hlen := congrArg List.length hos
  simp only [List.length_append, List.length_cons, List.length_nil] at hlen
  omega

section Wrapped
variable [Build]

/-- Subscriptions that are taken back at once, one after the other -/
def turns (k : Nat) (name : Name) (callback : Function) : List Occurrence :=
  (List.replicate k [.operation (.subscribe name callback), .operation (.unsubscribe name)]).flatten

omit [Build] in
theorem unsubscribe_subscribe {s : Registry} {name : Buffer}
    (hname : ∀ r ∈ s.registrations, r.name ≠ name) (callback : Function) :
    (s.subscribe name callback).unsubscribe name = s.skip := by
  have hothers : s.registrations.filter (·.name ≠ name) = s.registrations :=
    List.filter_eq_self.mpr fun r hr => decide_eq_true (hname r hr)
  unfold Registry.subscribe Registry.unsubscribe Registry.skip
  rw [List.filter_append, hothers]
  simp

theorem after_turns (k : Nat) (name : Name) (callback : Function) (s : Registry)
    (hs : s.counter < 2 ^ 64) (hname : ∀ r ∈ s.registrations, r.name ≠ name.val) :
    (turns k name callback).foldl Registry.after s =
      { s with counter := (s.counter + k) % 2 ^ 64 } := by
  induction k generalizing s with
  | zero =>
      rw [Nat.add_zero, Nat.mod_eq_of_lt hs]
      rfl
  | succ k ih =>
      have hskip : s.skip.counter < 2 ^ 64 := Nat.mod_lt _ (by omega)
      have hcounter : ((s.counter + 1) % 2 ^ 64 + k) % 2 ^ 64 = (s.counter + (k + 1)) % 2 ^ 64 := by
        rw [Nat.mod_add_mod, Nat.add_assoc, Nat.add_comm 1 k]
      change (turns k name callback).foldl _
        ((s.subscribe name.val callback).unsubscribe name.val) = _
      rw [unsubscribe_subscribe hname, ih _ hskip hname]
      exact congrArg (Registry.mk s.registrations) hcounter

/-- A subscription, subscriptions under another name that are taken back until the counter has
wrapped around, and another subscription -/
theorem not_refines_of_wrapped {k : Nat} (hk : (1 + k) % 2 ^ 64 = 0) {name name' : Name}
    (hname : name.val ≠ name'.val) (callback callback' : Function) (w : World)
    (r : Outcome interface (Option Nat) × World) :
    ¬Refines ((.operation (.subscribe name callback) :: turns k name' callback').foldl
        Registry.after {})
      (.operation (.subscribe name' callback')) w r := by
  have hone : (1 : Nat) < 2 ^ 64 := by omega
  rw [List.foldl_cons, after_turns k name' callback' _ hone]
  · intro hrefines
    obtain ⟨outcome, w'⟩ := r
    cases outcome with
    | done result =>
        have hnodup := (Completed.represents hrefines).nodup
        change [0, (1 + k) % 2 ^ 64].Nodup at hnodup
        rw [hk] at hnodup
        exact absurd hnodup (by decide)
    | raised x => exact Raised.event hrefines _ rfl
    | aborted f => exact hrefines
  · intro r hr
    cases List.mem_singleton.mp hr
    exact hname

end Wrapped

/-- A subscriber gets the identifier of another one after as many subscriptions as there are
identifiers, of which never more than two exist at a time. -/
theorem not_refines_wrapped : let _ : Build := release
    ¬∀ answer : Replies, (∀ w m buffer, ∃ sent, answer w (.wsSend m buffer) = .ok sent) →
      ∀ os o, ∃ w, performAll (.quiet answer) Occurrence.program os { state := {} } = .ok w ∧
        WellFormed w.state.event ∧
        Refines (os.foldl Registry.after {}) o w (evaluate (.quiet answer) o.program w) := by
  intro _ hclaim
  obtain ⟨w, -, -, hrefines⟩ := hclaim accepting (fun _ _ _ => ⟨true, rfl⟩)
    (.operation (.subscribe nameA (some 0)) :: turns (2 ^ 64 - 1) nameB (some 1))
    (.operation (.subscribe nameB (some 1)))
  exact not_refines_of_wrapped (by omega) (by decide) _ _ w _ hrefines

end Event
end Deepstream
