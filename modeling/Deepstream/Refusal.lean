import Deepstream.Client.Failures
import Deepstream.Client.Runs
import Deepstream.Registration

/-!
What is left behind by a call whose argument is refused.

`emit` refuses its arguments before it does anything. `subscribe` and `listen`
refuse an empty name first, but a unit separator only when the maps have changed
already.
-/

namespace Deepstream

open Reentrant (Activity Config Contract Policy Prog wp)

/-- The maps and the queue are as they were, and nothing was handed to the socket. -/
structure Unchanged (w w' : World) : Prop where
  subscriberMap : ∀ name : Buffer,
    w'.state.event.subscriberMap[name]? = w.state.event.subscriberMap[name]?
  subscribeFnMap : ∀ id : Nat,
    w'.state.event.subscribeFnMap[id]? = w.state.event.subscribeFnMap[id]?
  listenerMap : ∀ pattern : Buffer,
    w'.state.event.listenerMap[pattern]? = w.state.event.listenerMap[pattern]?
  sendQueue : w'.state.event.sendQueue = w.state.event.sendQueue
  handed : handed w' = handed w

/-- An entry has ended because an argument was refused, not because a call of it was answered
with an exception. -/
def Refused (e : Entry) (w : World) : Prop :=
  ∃ what items, w.trace = .leave e (.error (.invalidArgument what)) :: items ∧
    ∀ c x, items.head? ≠ some (.back c (.error x))

/-- `subscribe`, `listen` and `emit` -/
def Entry.Publishes : Entry → Prop
  | .subscribe _ _ | .listen _ _ | .emit _ _ => True
  | _ => False

/-- The name is empty, or there is nothing to be changed before an argument is refused: the name
is known, and the identifier is taken. -/
def Entry.Harmless (e : Entry) (c : Client) : Prop :=
  match e with
  | .subscribe name _ => name = [] ∨
      name ∈ c.event.subscriberMap ∧ c.subscriptionCounter ∈ c.event.subscribeFnMap
  | .listen pattern _ => pattern = []
  | _ => True

/-- Entries that refuse an argument change nothing if they are harmless. -/
def refusing : Contract interface where
  outside _ := True
  before _ _ := True
  after _ _ _ := True
  pre _ _ := True
  post e w w' := e.Publishes → Refused e w' → (Unchanged w w' ↔ e.Harmless w.state)
  abort _ _ := True

/-- Any failure but a refused argument -/
def NotRefusal (f : Failure) : Prop :=
  ∀ what, f ≠ .thrown (.invalidArgument what)

theorem tolerant_notRefusal : Tolerant NotRefusal where
  assertion _ _ _ := by rintro _ ⟨⟩
  undefined := by rintro _ ⟨⟩
  exhausted := by rintro _ ⟨⟩
  thrown _ h := by
    rintro what ⟨⟩
    exact h what rfl

section Refusal
variable {P : Policy interface} {w w₁ : World} {e : Entry} {α : Type}

/-- Where an argument cannot be refused any more nothing is promised. -/
theorem wp_refusing {p : Program α} (h : Confined NotRefusal p) :
    wp refusing P p (fun _ w' => refusing.post e w (w'.left e (.ok ())))
      (fun x w' => refusing.post e w (w'.left e (.error x))) w₁ := by
  refine Reentrant.wp_mono
    (Reentrant.wp_of_only (fun _ _ => trivial) (fun _ _ _ => trivial) h w₁) ?_ ?_
  · rintro _ w' - - ⟨what, items, htrace, -⟩
    cases htrace
  · rintro x w' hx - ⟨what, items, htrace, hown⟩
    cases htrace
    cases hx with
    | inl hx => exact absurd rfl (hx what)
    | inr hpassed =>
        obtain ⟨c, x, hhead⟩ := hpassed
        exact absurd hhead (hown c x)

variable [Build]

theorem confined_pushSubscriber (name : Buffer) (place id : Nat) :
    Confined NotRefusal (Event.pushSubscriber name place id) := by
  apply Reentrant.only_read_bind
  intro c
  split
  · exact tolerant_notRefusal.undefined
  · split
    · exact Reentrant.only_bind (tolerant_notRefusal.assert (by decide) _ _)
        fun _ => confined_modifyEvent _
    · exact tolerant_notRefusal.undefined

/-- What a call does once its message was built -/
theorem confined_sent {topic : Topic} {action : Action} {arguments : List Buffer}
    (htopic : topic = .event) (n : Nat) (m : Built topic action arguments) :
    Confined NotRefusal (Program.ignore (Connection.send n m.val)) := by
  apply confined_ignore
  apply tolerant_notRefusal.send_event
  rw [m.property.1, htopic]

theorem confined_notify {m : Message} {name data : Buffer} (hname : m.get 0 = .ok name)
    (hdata : m.get 1 = .ok data) (haction : m.header.action = .event) (n : Nat) :
    Confined NotRefusal (Event.notify (Connection.send n) m) := by
  unfold Event.notify
  apply Reentrant.only_bind (tolerant_notRefusal.assert (by decide) _ _)
  intro _
  rw [haction]
  change Confined NotRefusal (Event.notifySubscribers m)
  unfold Event.notifySubscribers
  apply Reentrant.only_bind (tolerant_notRefusal.assert (by decide) _ _)
  intro _
  apply Reentrant.only_bind (tolerant_notRefusal.assert (by decide) _ _)
  intro _
  apply Reentrant.only_when
  intro _
  rw [hname, hdata]
  apply Reentrant.only_read_bind
  intro c
  split
  · exact Reentrant.only_pure _
  · apply Reentrant.only_forEach
    intro id _
    apply Reentrant.only_bind (confined_modifyEvent _)
    intro _
    apply Reentrant.only_read_bind
    intro c
    exact tolerant_notRefusal.invoke _ _ fun f => Reentrant.only_ask _

omit [Build] in
theorem unchanged_left {result : Except Exception Unit} {e' : Entry} (h : Unchanged w w₁) :
    Unchanged w (w₁.left e' result) :=
  ⟨h.subscriberMap, h.subscribeFnMap, h.listenerMap, h.sendQueue, h.handed⟩

omit [Build] in
theorem unchanged_of_entered {e' : Entry} (h : Unchanged (w.entered e') w₁) : Unchanged w w₁ :=
  ⟨h.subscriberMap, h.subscribeFnMap, h.listenerMap, h.sendQueue, h.handed⟩

omit [Build] in
theorem unchanged_entered {e' : Entry} (h : Unchanged w w₁) : Unchanged (w.entered e') w₁ :=
  ⟨h.subscriberMap, h.subscribeFnMap, h.listenerMap, h.sendQueue, h.handed⟩

/-- What `subscribe` does once it has changed the maps -/
theorem wp_subscribed {cond : Prop} [Decidable cond] {name : Buffer} (n place id : Nat)
    (hrefused : cond → ∀ what, refusing.post e w (w₁.left e (.error (.invalidArgument what)))) :
    wp refusing P
      (Prog.when cond (do
          let message ← Program.build .event .subscribe [name]
          Program.ignore (Connection.send n message.val)) >>= fun _ =>
        Event.pushSubscriber name place id >>= fun _ => pure id)
      (fun _ w' => refusing.post e w (w'.left e (.ok ())))
      (fun x w' => refusing.post e w (w'.left e (.error x))) w₁ := by
  have hpush : Confined NotRefusal
      (Event.pushSubscriber name place id >>= fun _ => (pure id : Program Nat)) :=
    Reentrant.only_bind (confined_pushSubscriber name place id) fun _ => Reentrant.only_pure _
  by_cases hcond : cond
  · rw [Reentrant.wp_bind, wp_when]
    refine ⟨fun _ => ?_, fun h => absurd hcond h⟩
    rw [Reentrant.wp_bind]
    apply wp_build
    · exact Nat.le_succ 1
    · intro _ m
      rw [← Reentrant.wp_bind]
      exact wp_refusing (Reentrant.only_bind (confined_sent rfl n m) fun _ => hpush)
    · exact fun _ => hrefused hcond _
  · exact wp_refusing (Reentrant.only_bind (Reentrant.only_when fun h => absurd h hcond)
      fun _ => hpush)

/-- `subscribe` refuses a name when the counter, a callback and an empty list were stored. -/
theorem wp_subscribe_refusing (n : Nat) (name : Buffer) (callback : Function) :
    wp refusing P (program n (.subscribe name callback))
      (fun _ w' => refusing.post (.subscribe name callback) w
        (w'.left (.subscribe name callback) (.ok ())))
      (fun x w' => refusing.post (.subscribe name callback) w
        (w'.left (.subscribe name callback) (.error x))) w := by
  change wp refusing P (Event.subscribe (Connection.send n) name callback >>= fun _ => pure ()) _ _ w
  rw [Reentrant.wp_bind]
  unfold Event.subscribe
  by_cases hne : name = []
  · rw [if_pos hne]
    exact fun _ _ => ⟨fun _ => .inl hne, fun _ =>
      unchanged_left ⟨fun _ => rfl, fun _ => rfl, fun _ => rfl, rfl, rfl⟩⟩
  · rw [if_neg hne, Reentrant.wp_bind, wp_nextId, Reentrant.wp_bind]
    unfold Event.insertFn
    rw [Reentrant.wp_bind, Reentrant.wp_read, Reentrant.wp_bind, wp_modifyEvent, Reentrant.wp_pure,
      Reentrant.wp_bind]
    apply wp_assert_of fun _ _ => trivial
    intro _
    rw [Reentrant.wp_bind]
    unfold Event.subscriberList
    rw [Reentrant.wp_bind, Reentrant.wp_read]
    dsimp only
    cases hnode : w.state.event.subscriberMap[name]? with
    | some node =>
        change wp _ _ (pure node) _ _ _
        rw [Reentrant.wp_pure]
        refine wp_subscribed n _ _ fun _ what _ _ => ?_
        have hname : name ∈ w.state.event.subscriberMap := NameMap.mem_of_getElem? hnode
        constructor
        · intro hunchanged
          refine .inr ⟨hname, ?_⟩
          have hfns := hunchanged.subscribeFnMap w.state.subscriptionCounter
          change (w.state.event.subscribeFnMap.insertIfNew _ _)[_]? = _ at hfns
          rw [Event.lookup_insertIfNew] at hfns
          by_contra hfresh
          rw [if_pos ⟨rfl, Std.TreeMap.getElem?_eq_none hfresh⟩,
            Std.TreeMap.getElem?_eq_none hfresh] at hfns
          cases hfns
        · intro hharmless
          obtain ⟨-, hused⟩ := hharmless.resolve_left hne
          refine unchanged_left ⟨fun _ => rfl, fun id => ?_, fun _ => rfl, rfl, rfl⟩
          exact Event.lookup_insertIfNew_of_found (Std.TreeMap.getElem?_eq_some_getElem hused) _ id
    | none =>
        change wp _ _ (Program.modifyEvent _ >>= fun _ => pure _) _ _ _
        rw [Reentrant.wp_bind, wp_modifyEvent, Reentrant.wp_pure]
        refine wp_subscribed n _ _ fun _ what _ _ => iff_of_false ?_ ?_
        · intro hunchanged
          have hmap := hunchanged.subscriberMap name
          change (w.state.event.subscriberMap.insert name _)[name]? = _ at hmap
          rw [Std.TreeMap.getElem?_insert_self, hnode] at hmap
          cases hmap
        · rintro (hname | ⟨hname, -⟩)
          · exact hne hname
          · rw [Std.TreeMap.mem_iff_isSome_getElem?, hnode] at hname
            cases hname

/-- `listen` refuses a pattern when it was added to the map. -/
theorem wp_listen_refusing (n : Nat) (pattern : Buffer) (callback : Function) :
    wp refusing P (program n (.listen pattern callback))
      (fun _ w' => refusing.post (.listen pattern callback) w
        (w'.left (.listen pattern callback) (.ok ())))
      (fun x w' => refusing.post (.listen pattern callback) w
        (w'.left (.listen pattern callback) (.error x))) w := by
  change wp refusing P (Event.listen (Connection.send n) pattern callback) _ _ w
  unfold Event.listen
  by_cases hne : pattern = []
  · rw [if_pos hne]
    exact fun _ _ => ⟨fun _ => hne, fun _ =>
      unchanged_left ⟨fun _ => rfl, fun _ => rfl, fun _ => rfl, rfl, rfl⟩⟩
  · rw [if_neg hne, Reentrant.wp_bind, Reentrant.wp_read]
    by_cases hknown : pattern ∈ w.state.event.listenerMap
    · refine wp_refusing (Reentrant.only_when fun h => absurd hknown h)
    · rw [wp_when]
      refine ⟨fun _ => ?_, fun h => absurd hknown h⟩
      rw [Reentrant.wp_bind, wp_modifyEvent, Reentrant.wp_bind]
      apply wp_build
      · exact Nat.le_succ 1
      · exact fun _ m => wp_refusing (confined_sent rfl n m)
      · intro _ _ _
        refine iff_of_false (fun hunchanged => ?_) hne
        have hmap := hunchanged.listenerMap pattern
        change (w.state.event.listenerMap.insert pattern _)[pattern]? = _ at hmap
        rw [Std.TreeMap.getElem?_insert_self, Std.TreeMap.getElem?_eq_none hknown] at hmap
        cases hmap

/-- `emit` refuses its arguments before anything else. -/
theorem wp_emit_refusing (n : Nat) (name data : Buffer) :
    wp refusing P (program n (.emit name data))
      (fun _ w' => refusing.post (.emit name data) w (w'.left (.emit name data) (.ok ())))
      (fun x w' => refusing.post (.emit name data) w (w'.left (.emit name data) (.error x))) w := by
  have hunchanged : ∀ what, refusing.post (.emit name data) w
      (w.left (.emit name data) (.error (.invalidArgument what))) := fun _ _ _ =>
    iff_of_true (unchanged_left ⟨fun _ => rfl, fun _ => rfl, fun _ => rfl, rfl, rfl⟩) trivial
  change wp refusing P (Event.emit (Connection.send n) name data) _ _ w
  unfold Event.emit
  by_cases hne : name = []
  · rw [if_pos hne]
    exact hunchanged _
  · rw [if_neg hne, Reentrant.wp_bind]
    apply wp_build
    · exact le_rfl
    · intro _ evt
      apply wp_refusing
      apply Reentrant.only_bind (Reentrant.only_leave _)
      intro _
      have hsend := tolerant_notRefusal.send_event
        (by rw [evt.property.1] : evt.val.header.topic = .event) n
      apply Reentrant.only_bind hsend
      intro sent
      have henqueue : Confined NotRefusal (Event.enqueue evt) := by
        unfold Event.enqueue
        exact confined_modifyEvent _
      apply Reentrant.only_bind (Reentrant.only_when fun _ => henqueue)
      intro _
      apply Reentrant.only_read_bind
      intro c
      apply Reentrant.only_when
      intro _
      have hget : ∀ (i : Nat) (arg : Buffer), [name, data][i]? = some arg →
          evt.val.get i = .ok arg := by
        intro i arg hi
        unfold MessageBuilder.get
        rw [evt.property.2, hi]
      exact confined_notify (hget 0 name rfl) (hget 1 data rfl) (by
        change evt.val.header.action = .event
        rw [evt.property.1]) n
    · exact fun _ => hunchanged _

theorem refusing_met (n : Nat) : refusing.Met P (program n) where
  entry e w _ := by
    have hother : ¬e.Publishes → wp refusing P (program n e)
        (fun _ w' => refusing.post e w (w'.left e (.ok ())))
        (fun x w' => refusing.post e w (w'.left e (.error x))) w := by
      intro hpublishes
      refine Reentrant.wp_mono (Reentrant.wp_of_only (fun _ _ => trivial) (fun _ _ _ => trivial)
        (Reentrant.only_true _) w) ?_ ?_
      · exact fun _ _ _ h => absurd h hpublishes
      · exact fun _ _ _ h => absurd h hpublishes
    cases e with
    | subscribe name callback => exact wp_subscribe_refusing n name callback
    | listen pattern callback => exact wp_listen_refusing n pattern callback
    | emit name data => exact wp_emit_refusing n name data
    | _ => exact hother id
  refl _ _ _ := trivial
  enter _ _ _ _ _ _ _ _ := trivial
  stay _ _ _ _ _ _ _ _ _ _ _ := trivial
  outside _ _ _ _ _ _ := trivial

end Refusal

/-- Nothing has changed after a refused call if and only if the call was harmless. -/
theorem unchanged_iff_harmless [Build] (n : Nat) (uri : Buffer) (cfg now : Config interface)
    (hreach : Reaches (.any interface) n uri cfg) (e : Entry) (hpublishes : e.Publishes)
    (hactivity : Activity (.any interface) (program n) cfg e now) (hended : cfg.Ended now)
    (hrefused : Refused e now.world) :
    Unchanged cfg.world now.world ↔ e.Harmless cfg.world.state := by
  have hmet := refusing_met (P := .any interface) n
  have hkept := hmet.kept trivial trivial hreach
  obtain ⟨-, hpost, -⟩ := hmet.post_of_ended hkept hactivity hended
  have hiff := hpost hpublishes hrefused
  exact ⟨fun h => hiff.mp (unchanged_entered h), fun h => unchanged_of_entered (hiff.mpr h)⟩

section
variable [Build]

/-- A client that waits for the handshake, and after it was told to listen for `pattern` -/
def beforeListening : Config interface :=
  after 9 [] connecting

def afterListening (pattern : Buffer) : Config interface :=
  Reentrant.next (program 9) beforeListening (.enter (.listen pattern (some 0)))

end

theorem activity_listening (pattern : Buffer) : let _ : Build := release
    Reaches (.any interface) 9 [] beforeListening ∧
      Activity (.any interface) (program 9) beforeListening (.listen pattern (some 0))
        (afterListening pattern) := by
  intro _
  refine ⟨reaches_after .., Activity.enter ?_ ?_ trivial⟩
  · decide +kernel
  · decide +kernel

theorem refused_listening : let _ : Build := release
    beforeListening.Ended (afterListening [asciiUnitSeparator]) ∧
      Refused (.listen [asciiUnitSeparator] (some 0))
        (afterListening [asciiUnitSeparator]).world := by
  intro _
  refine ⟨⟨by decide +kernel, by decide +kernel⟩, _, _, rfl, ?_⟩
  rintro c x ⟨⟩

theorem refused_listening_empty : let _ : Build := release
    beforeListening.Ended (afterListening []) ∧
      Refused (.listen [] (some 0)) (afterListening []).world := by
  intro _
  refine ⟨⟨by decide +kernel, by decide +kernel⟩, _, _, rfl, ?_⟩
  rintro c x ⟨⟩

theorem unchanged_listening_empty : let _ : Build := release
    ∃ cfg now, Reaches (.any interface) 9 [] cfg ∧ cfg.Ended now ∧
      Refused (.listen [] (some 0)) now.world ∧ Unchanged cfg.world now.world := by
  intro _
  obtain ⟨hreach, hactivity⟩ := activity_listening []
  obtain ⟨hended, hrefused⟩ := refused_listening_empty
  exact ⟨_, _, hreach, hended, hrefused,
    (unchanged_iff_harmless 9 [] _ _ hreach (.listen [] (some 0)) trivial hactivity hended
      hrefused).mpr rfl⟩

/-- A pattern with a unit separator is refused and can be found in the map afterwards. -/
theorem changed_listening : let _ : Build := release
    ¬∀ cfg now : Config interface, Reaches (.any interface) 9 [] cfg →
      ∀ e : Entry, e.Publishes → Activity (.any interface) (program 9) cfg e now →
        cfg.Ended now → Refused e now.world → Unchanged cfg.world now.world := by
  intro _ hclaim
  obtain ⟨hreach, hactivity⟩ := activity_listening [asciiUnitSeparator]
  obtain ⟨hended, hrefused⟩ := refused_listening
  have hunchanged := hclaim _ _ hreach (.listen [asciiUnitSeparator] (some 0)) trivial hactivity
    hended hrefused
  have hmap := hunchanged.listenerMap [asciiUnitSeparator]
  have hbefore : beforeListening.world.state.event.listenerMap[[asciiUnitSeparator]]?.isSome =
      false := by decide +kernel
  have hafter : (afterListening
      [asciiUnitSeparator]).world.state.event.listenerMap[[asciiUnitSeparator]]?.isSome = true := by
    decide +kernel
  rw [hmap, hbefore] at hafter
  cases hafter

end Deepstream
