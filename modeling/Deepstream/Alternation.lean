import Deepstream.Client.Objects

/-!
What a `Presence` object tells the server about its subscribers.

`subscribe` and `unsubscribe` of one callback announce a change only when the
list of subscribers becomes non-empty or empty. `unsubscribe` of all callbacks
does not look at the list.
-/

namespace Deepstream
namespace Presence

open Reentrant (answering evaluate performAll undisturbed wp)

/-- The calls that change the subscribers -/
inductive Operation where
  | subscribe (callback : Function)
  | unsubscribeId (id : Nat)
  | unsubscribe

def Operation.program [Build] : Operation → Program Unit
  | .subscribe callback => do
      let _ ← Presence.subscribe mockSend callback
      pure ()
  | .unsubscribeId id => Presence.unsubscribeId mockSend id
  | .unsubscribe => Presence.unsubscribe mockSend

/-- The subscriptions there should be, and the next identifier -/
structure Subscribed where
  ids : List Nat := []
  counter : Nat := 0

def Subscribed.step (s : Subscribed) : Operation → Subscribed
  | .subscribe _ => { ids := s.ids ++ [s.counter], counter := (s.counter + 1) % 2 ^ 64 }
  | .unsubscribeId id => { s with ids := s.ids.erase id }
  | .unsubscribe => { s with ids := [] }

/-- Everybody is unsubscribed only while somebody is subscribed. -/
def Subscribed.Admits (s : Subscribed) (op : Operation) : Prop :=
  op = .unsubscribe → s.ids ≠ []

/-- Every subscription gets an identifier that is not in use. -/
def Subscribed.Fresh (s : Subscribed) : Operation → Prop
  | .subscribe _ => s.counter ∉ s.ids
  | _ => True

/-- The subscription messages that were sent, newest first -/
def announced (w : World) : List Action :=
  (handed w).filterMap fun p =>
    if p.1.header.topic = .presence ∧
      (p.1.header.action = .subscribe ∨ p.1.header.action = .unsubscribe)
    then some p.1.header.action else none

/-- The messages sent take turns, and the last one says whether there are subscribers. -/
structure Told (w : World) : Prop where
  alternates : Alternates .subscribe .unsubscribe (announced w)
  last : (announced w).head? = some .subscribe ↔ w.state.presence.subscribers ≠ []

theorem announced_of_handed {action : Action} {w w' : World} {message : Built .presence action []}
    (haction : action = .subscribe ∨ action = .unsubscribe)
    (hhanded : handed w' = (message.val, []) :: handed w) :
    announced w' = action :: announced w := by
  have hsome : (if message.val.header.topic = .presence ∧
      (message.val.header.action = .subscribe ∨ message.val.header.action = .unsubscribe)
      then some message.val.header.action else none) = some action := by
    rw [message.property.1, if_pos ⟨rfl, haction⟩]
  unfold announced
  rw [hhanded]
  exact List.filterMap_cons_some hsome

namespace Operation

/-- The members after a call -/
def leaves (c : Client) : Operation → Client
  | .subscribe callback =>
      { c with
        subscriptionCounter := (c.subscriptionCounter + 1) % 2 ^ 64
        presence := { c.presence with
          subscribeFnMap := c.presence.subscribeFnMap.insertIfNew c.subscriptionCounter callback
          subscribers := c.presence.subscribers ++ [c.subscriptionCounter] } }
  | .unsubscribeId id =>
      if id ∈ c.presence.subscribers then
        { c with presence := { c.presence with
            subscribeFnMap := c.presence.subscribeFnMap.erase id
            subscribers := c.presence.subscribers.erase id } }
      else c
  | .unsubscribe =>
      { c with presence := { c.presence with subscribeFnMap := ∅, subscribers := [] } }

/-- The subscription messages that a call sends -/
def announces (c : Client) : Operation → List Action
  | .subscribe _ => if c.presence.subscribers = [] then [.subscribe] else []
  | .unsubscribeId id =>
      if id ∈ c.presence.subscribers ∧ c.presence.subscribers.erase id = [] then [.unsubscribe]
      else []
  | .unsubscribe => [.unsubscribe]

section Branches
variable {c : Client} {id : Nat}

theorem leaves_of_mem (h : id ∈ c.presence.subscribers) :
    (unsubscribeId id).leaves c = { c with presence := { c.presence with
      subscribeFnMap := c.presence.subscribeFnMap.erase id
      subscribers := c.presence.subscribers.erase id } } :=
  if_pos h

theorem leaves_of_not_mem (h : id ∉ c.presence.subscribers) : (unsubscribeId id).leaves c = c :=
  if_neg h

theorem announces_of_empty (h : c.presence.subscribers = []) (callback : Function) :
    (subscribe callback).announces c = [.subscribe] :=
  if_pos h

theorem announces_of_ne_nil (h : c.presence.subscribers ≠ []) (callback : Function) :
    (subscribe callback).announces c = [] :=
  if_neg h

theorem announces_of_last (h : id ∈ c.presence.subscribers)
    (hempty : c.presence.subscribers.erase id = []) :
    (unsubscribeId id).announces c = [.unsubscribe] :=
  if_pos ⟨h, hempty⟩

theorem announces_of_left (h : id ∈ c.presence.subscribers → c.presence.subscribers.erase id ≠ []) :
    (unsubscribeId id).announces c = [] :=
  if_neg fun hlast => h hlast.1 hlast.2

end Branches

/-- What a call does -/
structure Does (op : Operation) (w w' : World) : Prop where
  state : w'.state = op.leaves w.state
  announced : announced w' = op.announces w.state ++ announced w
  called : called w' = called w

theorem event_leaves (c : Client) (op : Operation) : (op.leaves c).event = c.event := by
  cases op with
  | subscribe | unsubscribe => rfl
  | unsubscribeId id =>
      by_cases hmem : id ∈ c.presence.subscribers
      · rw [leaves_of_mem hmem]
      · rw [leaves_of_not_mem hmem]

theorem Does.beside {op : Operation} {w w' : World} (h : op.Does w w') :
    Beside Client.event w w' :=
  ⟨h.called, by rw [h.state, event_leaves]⟩

end Operation

/-- There is a callback for every identifier in the list, and for no other. -/
structure Kept (c : Presence) : Prop where
  nodup : c.subscribers.Nodup
  keys : ∀ id, id ∈ c.subscribeFnMap ↔ id ∈ c.subscribers

namespace Kept
variable {c : Presence}

/-- There are as many callbacks as identifiers. -/
theorem size (h : Kept c) : c.subscribeFnMap.size = c.subscribers.length := by
  rw [← Std.TreeMap.length_keys]
  apply List.Perm.length_eq
  refine (List.perm_ext_iff_of_nodup Std.TreeMap.nodup_keys h.nodup).mpr fun id => ?_
  rw [Std.TreeMap.mem_keys, h.keys]

theorem leaves {c : Client} (h : Kept c.presence) (op : Operation)
    (hnew : ∀ callback, op = .subscribe callback → c.subscriptionCounter ∉ c.presence.subscribers) :
    Kept (op.leaves c).presence := by
  cases op with
  | subscribe callback =>
      refine ⟨?_, fun id => ?_⟩
      · change (c.presence.subscribers ++ [_]).Nodup
        rw [List.nodup_append_comm]
        exact List.nodup_cons.mpr ⟨hnew callback rfl, h.nodup⟩
      · change id ∈ c.presence.subscribeFnMap.insertIfNew _ _ ↔ id ∈ c.presence.subscribers ++ [_]
        rw [Std.TreeMap.mem_insertIfNew, h.keys, List.mem_append, List.mem_singleton,
          compare_eq_iff_eq, or_comm, eq_comm]
  | unsubscribeId id =>
      by_cases hmem : id ∈ c.presence.subscribers
      · rw [Operation.leaves_of_mem hmem]
        refine ⟨h.nodup.erase id, fun id' => ?_⟩
        change id' ∈ c.presence.subscribeFnMap.erase id ↔ id' ∈ c.presence.subscribers.erase id
        rw [Std.TreeMap.mem_erase, h.keys, h.nodup.mem_erase_iff, ne_eq, compare_eq_iff_eq, eq_comm]
      · rw [Operation.leaves_of_not_mem hmem]
        exact h
  | unsubscribe =>
      exact ⟨List.nodup_nil, fun id => iff_of_false Std.TreeMap.not_mem_emptyc List.not_mem_nil⟩

end Kept

section Calls
variable [Build] {C : Reentrant.Contract interface} {P : Reentrant.Policy interface} {w : World}
  {E : Exception → World → Prop}

section Sending
variable (hsends : Sends C P)
include hsends

theorem wp_subscribe (callback : Function) {Q : Nat → World → Prop}
    (hnew : Build.asserts = true → w.state.subscriptionCounter ∉ w.state.presence.subscribeFnMap)
    (hQ : ∀ w', Operation.Does (.subscribe callback) w w' → Q w.state.subscriptionCounter w') :
    wp C P (Presence.subscribe mockSend callback) Q E w := by
  unfold Presence.subscribe
  rw [Reentrant.wp_bind, wp_nextId, Reentrant.wp_bind]
  unfold insertFn
  rw [Reentrant.wp_bind, Reentrant.wp_read, Reentrant.wp_bind, wp_modifyPresence,
    Reentrant.wp_pure, Reentrant.wp_bind, wp_assert_enabled, Reentrant.wp_bind, Reentrant.wp_read,
    Reentrant.wp_bind, wp_when]
  · refine ⟨fun (hempty : w.state.presence.subscribers = []) => ?_,
      fun (hne : w.state.presence.subscribers ≠ []) => ?_⟩
    · apply wp_announcement hsends
      intro message w' hstate hhanded hcalled
      rw [Reentrant.wp_bind, wp_modifyPresence, Reentrant.wp_pure]
      refine hQ _ ⟨?_, ?_, hcalled⟩
      · rw [hstate]
        rfl
      · rw [Operation.announces_of_empty hempty]
        exact announced_of_handed (.inl rfl) hhanded
    · rw [Reentrant.wp_bind, wp_modifyPresence, Reentrant.wp_pure]
      refine hQ _ ⟨rfl, ?_, rfl⟩
      rw [Operation.announces_of_ne_nil hne]
      rfl
  · exact fun hasserts => decide_eq_true (hnew hasserts)

theorem wp_unsubscribeId (id : Nat) {Q : Unit → World → Prop}
    (hkept : Build.asserts = true → Kept w.state.presence)
    (hQ : ∀ w', Operation.Does (.unsubscribeId id) w w' → Q () w') :
    wp C P (Presence.unsubscribeId mockSend id) Q E w := by
  unfold Presence.unsubscribeId
  rw [Reentrant.wp_bind, Reentrant.wp_read, Reentrant.wp_bind,
    wp_assert_enabled _ _ _ fun hasserts => (hkept hasserts).size, wp_when]
  refine ⟨fun hmem => ?_, fun hmem => ?_⟩
  · rw [Reentrant.wp_bind, wp_modifyPresence, Reentrant.wp_bind,
      wp_assert_enabled _ _ _ fun hasserts => ((hkept hasserts).keys id).mpr hmem, wp_when]
    refine ⟨fun hempty => ?_, fun hleft => ?_⟩
    · apply wp_announcement hsends
      intro message w' hstate hhanded hcalled
      refine hQ w' ⟨?_, ?_, hcalled⟩
      · rw [hstate, Operation.leaves_of_mem hmem]
      · rw [Operation.announces_of_last hmem hempty]
        exact announced_of_handed (.inr rfl) hhanded
    · refine hQ _ ⟨(Operation.leaves_of_mem hmem).symm, ?_, rfl⟩
      rw [Operation.announces_of_left fun _ => hleft]
      rfl
  · refine hQ w ⟨(Operation.leaves_of_not_mem hmem).symm, ?_, rfl⟩
    rw [Operation.announces_of_left fun h => absurd h hmem]
    rfl

theorem wp_unsubscribe {Q : Unit → World → Prop}
    (hkept : Build.asserts = true → Kept w.state.presence)
    (hQ : ∀ w', Operation.Does .unsubscribe w w' → Q () w') :
    wp C P (Presence.unsubscribe mockSend) Q E w := by
  unfold Presence.unsubscribe
  rw [Reentrant.wp_bind, Reentrant.wp_read, Reentrant.wp_bind,
    wp_assert_enabled _ _ _ fun hasserts => (hkept hasserts).size, Reentrant.wp_bind,
    wp_modifyPresence]
  apply wp_announcement hsends
  intro message w' hstate hhanded hcalled
  exact hQ w' ⟨hstate, announced_of_handed (.inr rfl) hhanded, hcalled⟩

theorem wp_operation (op : Operation) {Q : Unit → World → Prop}
    (hkept : Build.asserts = true → Kept w.state.presence)
    (hnew : Build.asserts = true → ∀ callback, op = .subscribe callback →
      w.state.subscriptionCounter ∉ w.state.presence.subscribers)
    (hQ : ∀ w', op.Does w w' → Q () w') : wp C P op.program Q E w := by
  cases op with
  | subscribe callback =>
      unfold Operation.program
      rw [Reentrant.wp_bind]
      apply wp_subscribe hsends callback _ hQ
      exact fun hasserts hmem => hnew hasserts callback rfl (((hkept hasserts).keys _).mp hmem)
  | unsubscribeId id => exact wp_unsubscribeId hsends id hkept hQ
  | unsubscribe => exact wp_unsubscribe hsends hkept hQ

end Sending

/-- An assertion fails if the identifier of a subscription is in use. -/
theorem wp_subscribe_fails (callback : Function) (hasserts : Build.asserts = true)
    (hkept : Kept w.state.presence)
    (hmem : w.state.subscriptionCounter ∈ w.state.presence.subscribers)
    (habort : ∀ text w, C.abort (.assertion .presence text) w) {Q : Nat → World → Prop} :
    wp C P (Presence.subscribe mockSend callback) Q E w := by
  unfold Presence.subscribe
  rw [Reentrant.wp_bind, wp_nextId, Reentrant.wp_bind]
  unfold insertFn
  rw [Reentrant.wp_bind, Reentrant.wp_read, Reentrant.wp_bind, wp_modifyPresence,
    Reentrant.wp_pure, Reentrant.wp_bind, wp_assert_fails _ _ _ hasserts]
  · exact habort _ _
  · exact fun hnew => of_decide_eq_true hnew ((hkept.keys _).mpr hmem)

end Calls

section Showing
variable [Build] {w w' : World} {s : Subscribed} {op : Operation}

/-- A `Presence` object with the subscriptions there should be. Where assertions are compiled in,
no identifier was used twice. -/
structure Shows (s : Subscribed) (w : World) : Prop where
  subscribers : w.state.presence.subscribers = s.ids
  counter : w.state.subscriptionCounter = s.counter
  last : (announced w).head? = some .subscribe ↔ w.state.presence.subscribers ≠ []
  kept : Build.asserts = true → Kept w.state.presence

namespace Shows

theorem initial : Shows {} { state := {} } where
  subscribers := rfl
  counter := rfl
  last := iff_of_false (by decide) (not_not_intro rfl)
  kept _ := ⟨List.nodup_nil, fun _ => iff_of_false Std.TreeMap.not_mem_emptyc List.not_mem_nil⟩

theorem new (h : Shows s w) (hfresh : s.Fresh op) (callback : Function)
    (hop : op = .subscribe callback) :
    w.state.subscriptionCounter ∉ w.state.presence.subscribers := by
  subst hop
  rw [h.counter, h.subscribers]
  exact hfresh

/-- The last message says whether there are subscribers, whatever the call. -/
theorem last_does (h : Shows s w) (hdoes : op.Does w w') :
    (announced w').head? = some .subscribe ↔ w'.state.presence.subscribers ≠ [] := by
  rw [hdoes.state, hdoes.announced]
  cases op with
  | subscribe callback =>
      refine iff_of_true ?_ (List.append_ne_nil_of_right_ne_nil _ (List.cons_ne_nil _ _))
      by_cases hempty : w.state.presence.subscribers = []
      · rw [Operation.announces_of_empty hempty]
        rfl
      · rw [Operation.announces_of_ne_nil hempty]
        exact h.last.mpr hempty
  | unsubscribeId id =>
      by_cases hmem : id ∈ w.state.presence.subscribers
      · rw [Operation.leaves_of_mem hmem]
        by_cases hempty : w.state.presence.subscribers.erase id = []
        · rw [Operation.announces_of_last hmem hempty]
          exact iff_of_false (by rintro ⟨⟩) (not_not_intro hempty)
        · rw [Operation.announces_of_left fun _ => hempty]
          exact iff_of_true (h.last.mpr (List.ne_nil_of_mem hmem)) hempty
      · rw [Operation.leaves_of_not_mem hmem,
          Operation.announces_of_left fun h => absurd h hmem]
        exact h.last
  | unsubscribe => exact iff_of_false (by rintro ⟨⟩) (not_not_intro rfl)

theorem does (h : Shows s w) (hfresh : Build.asserts = true → s.Fresh op) (hdoes : op.Does w w') :
    Shows (s.step op) w' where
  subscribers := by
    rw [hdoes.state]
    cases op with
    | subscribe callback => exact congrArg₂ (· ++ [·]) h.subscribers h.counter
    | unsubscribeId id =>
        change _ = s.ids.erase id
        rw [← h.subscribers]
        by_cases hmem : id ∈ w.state.presence.subscribers
        · rw [Operation.leaves_of_mem hmem]
        · rw [Operation.leaves_of_not_mem hmem, List.erase_of_not_mem hmem]
    | unsubscribe => rfl
  counter := by
    rw [hdoes.state]
    cases op with
    | subscribe callback => exact congrArg (fun counter => (counter + 1) % 2 ^ 64) h.counter
    | unsubscribeId id =>
        by_cases hmem : id ∈ w.state.presence.subscribers
        · rw [Operation.leaves_of_mem hmem]
          exact h.counter
        · rw [Operation.leaves_of_not_mem hmem]
          exact h.counter
    | unsubscribe => exact h.counter
  last := h.last_does hdoes
  kept hasserts := by
    rw [hdoes.state]
    exact (h.kept hasserts).leaves op (h.new (hfresh hasserts))

/-- A call keeps the turns exactly if it is admitted. -/
theorem alternates_iff (h : Shows s w) (hdoes : op.Does w w') :
    Alternates .subscribe .unsubscribe (announced w') ↔
      Alternates .subscribe .unsubscribe (announced w) ∧ s.Admits op := by
  have hne : Action.subscribe ≠ .unsubscribe := by decide
  rw [hdoes.announced]
  cases op with
  | subscribe callback =>
      rw [and_iff_left (show s.Admits (.subscribe callback) from fun hop => by cases hop)]
      by_cases hempty : w.state.presence.subscribers = []
      · rw [Operation.announces_of_empty hempty]
        refine (alternates_cons_first hne _).trans (and_iff_right ?_)
        exact fun hlast => h.last.mp hlast hempty
      · rw [Operation.announces_of_ne_nil hempty]
        rfl
  | unsubscribeId id =>
      rw [and_iff_left (show s.Admits (.unsubscribeId id) from fun hop => by cases hop)]
      by_cases hlast :
          id ∈ w.state.presence.subscribers → w.state.presence.subscribers.erase id ≠ []
      · rw [Operation.announces_of_left hlast]
        rfl
      · obtain ⟨hmem, hempty⟩ := Classical.not_imp.mp hlast
        rw [Operation.announces_of_last hmem (not_not.mp hempty)]
        refine (alternates_cons_second hne _).trans (and_iff_right ?_)
        exact h.last.mpr (List.ne_nil_of_mem hmem)
  | unsubscribe =>
      refine (alternates_cons_second hne (announced w)).trans ?_
      rw [h.last, h.subscribers, and_comm]
      exact and_congr_right fun _ => ⟨fun hids _ => hids, fun hadmits => hadmits rfl⟩

end Shows

end Showing

section Sequences
variable [Build] {answer : Replies} {w : World} {s : Subscribed}

theorem wp_shows {fault : Failure → Prop}
    (hsends : ∀ w m buffer, answer w (.wsSend m buffer) = .ok true) (op : Operation)
    (h : Shows s w) (hfresh : Build.asserts = true → s.Fresh op) :
    wp (undisturbed fault) (answering answer) op.program
      (fun _ w' => Shows (s.step op) w' ∧
        (Alternates .subscribe .unsubscribe (announced w') ↔
          Alternates .subscribe .unsubscribe (announced w) ∧ s.Admits op))
      (fun _ _ => False) w := by
  apply wp_operation (sends_answering fun w m buffer => ⟨true, hsends w m buffer⟩) op h.kept
    fun hasserts => h.new (hfresh hasserts)
  exact fun w' hdoes => ⟨h.does hfresh hdoes, h.alternates_iff hdoes⟩

theorem wp_shows_fails {fault : Failure → Prop} (hfault : ∀ text, fault (.assertion .presence text))
    (op : Operation) (h : Shows s w) (hnot : ¬(Build.asserts = true → s.Fresh op)) :
    wp (undisturbed fault) (answering answer) op.program (fun _ _ => False)
      (fun _ _ => False) w := by
  obtain ⟨hasserts, hused⟩ := Classical.not_imp.mp hnot
  cases op with
  | subscribe callback =>
      unfold Operation.program
      rw [Reentrant.wp_bind]
      apply wp_subscribe_fails callback hasserts (h.kept hasserts) _ fun text _ => hfault text
      rw [h.counter, h.subscribers]
      exact not_not.mp hused
  | unsubscribeId | unsubscribe => exact absurd trivial hused

section Performing
variable (hsends : ∀ w m buffer, answer w (.wsSend m buffer) = .ok true) (ops : List Operation)
include hsends

theorem shows_of_performed
    (hperform : performAll (.quiet answer) Operation.program ops { state := {} } = .ok w) :
    Shows (ops.foldl Subscribed.step {}) w ∧
      (Alternates .subscribe .unsubscribe (announced w) ↔
        True ∧ ∀ older op newer, ops = older ++ op :: newer →
          (older.foldl Subscribed.step {}).Admits op) := by
  apply Reentrant.simulates_iff (T := fun w => Alternates .subscribe .unsubscribe (announced w))
    (Reentrant.quiet_obeys answer fun _ => True) _ ops .initial hperform
  intro s w op h
  by_cases hfresh : Build.asserts = true → s.Fresh op
  · exact Reentrant.wp_mono (wp_shows hsends op h hfresh) (fun _ _ h' => h')
      fun _ _ hfalse => hfalse.elim
  · exact Reentrant.wp_mono (wp_shows_fails (fun _ => trivial) op h hfresh)
      (fun _ _ hfalse => hfalse.elim) fun _ _ hfalse => hfalse.elim

theorem performed_iff_fresh :
    (∃ w, performAll (.quiet answer) Operation.program ops { state := {} } = .ok w) ↔
      ∀ older op newer, ops = older ++ op :: newer →
        Build.asserts = true → (older.foldl Subscribed.step {}).Fresh op := by
  have hstep : ∀ (s : Subscribed) (w : World) (op : Operation), Shows s w →
      (Build.asserts = true → s.Fresh op) →
      wp (undisturbed fun _ : Failure => False) (answering answer) op.program
        (fun _ => Shows (s.step op)) (fun _ => Shows (s.step op)) w :=
    fun s w op h hfresh => Reentrant.wp_mono (wp_shows hsends op h hfresh) (fun _ _ h' => h'.1)
      fun _ _ hfalse => hfalse.elim
  have hfail : ∀ (s : Subscribed) (w : World) (op : Operation), Shows s w →
      ¬(Build.asserts = true → s.Fresh op) →
      Reentrant.Ends (fun _ _ => False) (fun _ _ => False) (fun _ _ => True)
        (evaluate (.quiet answer) op.program w) :=
    fun s w op h hnot => Reentrant.ends_of_wp
      (Reentrant.quiet_obeys answer fun _ : Failure => True)
      (wp_shows_fails (fun _ => trivial) op h hnot)
  obtain ⟨hall, hperform⟩ | ⟨⟨older, op, newer, hops, hnot⟩, f, -, hperform⟩ :=
    Reentrant.simulates_or_fails (Reentrant.quiet_obeys answer fun _ : Failure => False) hstep
      (fun _ _ hfalse => hfalse) hfail ops .initial
  · exact iff_of_true hperform hall
  · refine iff_of_false ?_ fun hall => hnot (hall older op newer hops)
    rintro ⟨w, hends⟩
    rw [hperform] at hends
    cases hends

end Performing

/-- The messages take turns, and the last one tells whether there are subscribers, exactly as
long as everybody is unsubscribed only while somebody is subscribed. A sequence comes to its end
unless an assertion finds that the identifier of a subscription is in use. -/
theorem told_iff_admitted (answer : Replies)
    (hsends : ∀ w m buffer, answer w (.wsSend m buffer) = .ok true) (ops : List Operation) :
    (∀ w, performAll (.quiet answer) Operation.program ops { state := {} } = .ok w →
      w.state.presence.subscribers = (ops.foldl Subscribed.step {}).ids ∧
      (Told w ↔ ∀ older newer, ops = older ++ .unsubscribe :: newer →
        (older.foldl Subscribed.step {}).ids ≠ [])) ∧
    ((∃ w, performAll (.quiet answer) Operation.program ops { state := {} } = .ok w) ↔
      (Build.asserts = true → ∀ older callback newer, ops = older ++ .subscribe callback :: newer →
        (older.foldl Subscribed.step {}).counter ∉ (older.foldl Subscribed.step {}).ids)) := by
  constructor
  · intro w hperform
    obtain ⟨hshows, hturns⟩ := shows_of_performed hsends ops hperform
    refine ⟨hshows.subscribers, fun htold older newer hops => ?_, fun hadmits => ?_⟩
    · exact (hturns.mp htold.alternates).2 older .unsubscribe newer hops rfl
    · refine ⟨hturns.mpr ⟨trivial, ?_⟩, hshows.last⟩
      rintro older op newer hops rfl
      exact hadmits older newer hops
  · refine (performed_iff_fresh hsends ops).trans ⟨fun hall => ?_, fun hall => ?_⟩
    · exact fun hasserts older callback newer hops => hall older _ newer hops hasserts
    · intro older op newer hops hasserts
      cases op with
      | subscribe callback => exact hall hasserts older callback newer hops
      | unsubscribeId | unsubscribe => trivial

end Sequences

theorem told_iff_admitted_resubscribed : let _ : Build := debug
    ∃ w, performAll (.quiet accepting) Operation.program
        [.subscribe (some 0), .unsubscribe, .subscribe (some 1)] { state := {} } = .ok w ∧
      Told w ∧ announced w = [.subscribe, .unsubscribe, .subscribe] := by
  intro _
  refine ⟨_, rfl, ((told_iff_admitted accepting (fun _ _ _ => rfl)
    [.subscribe (some 0), .unsubscribe, .subscribe (some 1)]).1 _ rfl).2.mpr ?_, rfl⟩
  intro older newer hops
  rcases older with _ | ⟨_, _ | ⟨_, _ | ⟨_, older⟩⟩⟩
  · cases hops
  · cases hops
    exact List.cons_ne_nil _ _
  · cases hops
  · exact absurd (congrArg List.length hops) (by simp)

/-- Unsubscribing everybody when nobody is subscribed is told to the server. -/
theorem not_told_unsubscribed : let _ : Build := release
    ¬∀ answer : Replies, (∀ w m buffer, answer w (.wsSend m buffer) = .ok true) →
      ∀ ops w, performAll (.quiet answer) Operation.program ops { state := {} } = .ok w →
        Told w := by
  intro _ hclaim
  have htold := hclaim accepting (fun _ _ _ => rfl) [.unsubscribe] _ rfl
  exact absurd htold.alternates (by unfold Alternates; exact fun h => absurd h.1 (by decide))

end Presence
end Deepstream
