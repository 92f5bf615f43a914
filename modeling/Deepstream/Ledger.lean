import Deepstream.Bookkeeping

/-!
The events, subscriptions and patterns of a client in the books of its server.

Every entry keeps the books, also one that is made while a message is on its
way. So events are neither lost nor reordered, and the server knows of the
patterns and subscriptions that there are.
-/

namespace Deepstream

open Reentrant (Keeps Policy Prog Regime wp)

variable {tidy : Prop}

section Handlers
variable [Build] {n : Nat}

/-- A change of state, after which everything is sent that waited for an open connection -/
theorem updates_setState (s : ConnectionState) : Updates tidy (Connection.setState n s) := by
  intro w hw
  by_cases hs : s = .open
  · subst hs
    unfold Connection.setState
    rw [Reentrant.wp_bind, Reentrant.wp_read, wp_when]
    refine ⟨fun _ => ?_, fun _ => hw⟩
    cases n with
    | zero => trivial
    | succ n =>
        exact Event.wp_onOpen (w := Reentrant.World.noted
          { w with state := { w.state with state := .open } }
          (.became { w.state with state := .open })) ⟨hw.writable, hw.events⟩ hw.peopled
          fun _ _ _ => if_pos rfl
  · apply wp_setState (fun _ _ => trivial) fun h => absurd h hs
    · exact fun _ => hw
    · intro _
      refine Booked.closed (hw.toBooked.unbooked ?_) hw.peopled hs
      exact .cons rfl (decide_eq_false hs) rfl

theorem handshakes_updates :
    Handshakes (bookkeeping tidy).contract honestSocket (UpToDate tidy) n := by
  have hr := routine_updates tidy
  have hsending : ∀ m, Updates tidy (Program.leave (.sending m)) := fun _ => updates_leave rfl
  have hrefused : ∀ m, Updates tidy (Program.leave (.refused m)) := fun _ => updates_leave rfl
  have hset : ∀ s w, (s = .open → w.state.state = .open) → UpToDate tidy w →
      wp (bookkeeping tidy).contract honestSocket (Connection.setState n s)
        (fun _ => UpToDate tidy) (fun _ => UpToDate tidy) w := fun s w _ hw => updates_setState s w hw
  have hhand : ∀ m buffer, m.header.topic ≠ .event →
      Updates tidy (Program.ask (.wsSend m buffer)) :=
    fun m buffer hm => updates_hand (not_booked hm) buffer
  apply hr.handshakes hsending hrefused hset
  · exact fun m buffer hm => hhand m buffer (by rw [hm]; decide)
  · apply Connection.keeps_sendAuthenticationRequest hr
    intro m hm
    apply hr.sendHandshake hsending m (.inr hm) (hrefused m) hset
    exact fun buffer => hhand m buffer (by rw [hm]; decide)

omit [Build] in
theorem presenceAside_updates :
    PresenceAside (bookkeeping tidy).contract honestSocket (UpToDate tidy) where
  routine := routine_updates tidy
  sending _ := updates_leave rfl
  modifyPresence _ := updates_modify (fun _ => rfl) fun _ => rfl
  queryFn _ _ := updates_ask fun _ => rfl
  handPresence m buffer w hm _ hw := updates_hand (not_booked (by rw [hm]; decide)) buffer w hw

theorem responsive_updates :
    Responsive (bookkeeping tidy).contract honestSocket (UpToDate tidy) n where
  toHandshakes := handshakes_updates
  transition := Connection.keeps_transition (routine_updates tidy) updates_setState
  event m := Event.updates_notify m
  presence m := Presence.keeps_notify (routine_updates tidy).toSubscriberRoutine m
    (fun _ => presenceAside_updates.modifyPresence _) (fun _ => presenceAside_updates.queryFn)
    fun _ => presenceAside_updates.modifyPresence _

theorem updates_handleMessage (m : MessageProxy) : Updates tidy (Connection.handleMessage n m) :=
  Connection.keeps_handleMessage (routine_updates tidy) responsive_updates
    socketRoutine_updates.setUri socketRoutine_updates.close m (fun _ _ _ _ => updates_ask fun _ => rfl)
    fun _ => updates_leave rfl

theorem wp_program (e : Entry) (he : e.IsWritable) {w : World} (htidy : tidy → e.IsTidy w.state)
    (hw : UpToDate tidy w) :
    wp (bookkeeping tidy).contract honestSocket (program n e) (fun _ => UpToDate tidy)
      (fun _ => UpToDate tidy) w := by
  cases e with
  | emit name data => exact Event.updates_emit he w hw
  | subscribe name callback =>
      exact Reentrant.keeps_bind (Event.updates_subscribe he callback)
        (fun _ => Reentrant.keeps_pure _) w hw
  | unsubscribe name => exact Event.wp_unsubscribe_upToDate (hw.but name) htidy
  | unsubscribeId name id => exact Event.wp_unsubscribeId_upToDate hw htidy
  | listen pattern callback => exact Event.updates_listen he callback w hw
  | unlisten pattern => exact Event.updates_unlisten pattern w hw
  | presenceSubscribe f => exact presenceAside_updates.program n (.presenceSubscribe f) trivial w hw
  | presenceUnsubscribeId id =>
      exact presenceAside_updates.program n (.presenceUnsubscribeId id) trivial w hw
  | presenceUnsubscribe => exact presenceAside_updates.program n .presenceUnsubscribe trivial w hw
  | getAll f => exact presenceAside_updates.program n (.getAll f) trivial w hw
  | _ =>
      exact Connection.keeps_program (routine_updates tidy) socketRoutine_updates handshakes_updates
        (fun s _ => updates_setState s) updates_handleMessage
        (fun _ _ => updates_modify (fun _ => rfl) fun _ => rfl) _ id w hw

/-- What a notice of the socket leaves behind -/
structure Noticed (first w : World) : Prop where
  unbooked : Unbooked first w
  stack : w.stack = first.stack
  closed : w.state.state ≠ .open

/-- The end of a connection, of which the client may be informed while it sends -/
theorem wp_onClose_noticed {w : World} (hw : (bookkeeping tidy).inv true w) :
    wp (bookkeeping tidy).contract honestSocket (Connection.onClose n) (fun _ => Noticed w)
      (fun _ => Noticed w) w := by
  unfold Connection.onClose
  rw [Reentrant.wp_bind, Reentrant.wp_read]
  split
  · apply wp_setState (fun _ _ => trivial)
    · exact nofun
    · exact fun hclosed => ⟨.refl w, rfl, hclosed ▸ nofun⟩
    · exact fun _ => ⟨.cons (i := .note _) rfl rfl rfl, rfl, nofun⟩
  · have hopens : ∀ w' : World, Noticed w w' →
        wp (bookkeeping tidy).contract honestSocket (Program.ask .wsOpen) (fun _ => Noticed w)
          (fun _ => Noticed w) w' := by
      intro w' hw'
      have hcalling := hw'.unbooked.trans (.calling w' .wsOpen)
      have hstack : (Reentrant.World.calling w' .wsOpen).stack = .inr .wsOpen :: w.stack :=
        congrArg _ hw'.stack
      apply Reentrant.wp_ask
      · refine ⟨⟨?_, fun hbetween => ?_⟩, _, rfl⟩
        · exact hcalling.event ▸ hw.1
        · refine (hw.2 fun frame hframe => hbetween frame ?_).unbooked hcalling
          rw [hstack]
          exact List.mem_cons_of_mem _ hframe
      · intro w'' hduring hafter
        have hreturned : ∀ r, Noticed w (w''.returned .wsOpen r) := by
          intro r
          have hleft : (w''.returned .wsOpen r).stack = w.stack := by
            change w''.stack.tail = w.stack
            rw [hduring.later.stack, hstack]
            rfl
          obtain rfl | ⟨hsame, hclosed⟩ := during_socket hduring hafter.2
          · exact ⟨hcalling.trans (.cons rfl rfl rfl), hleft, hw'.closed⟩
          · exact ⟨(hcalling.trans hsame).trans (.cons rfl rfl rfl), hleft, hclosed⟩
        exact ⟨fun _ _ => hreturned _, fun _ _ => hreturned _⟩
    rw [Reentrant.wp_bind, Reentrant.wp_modify, Reentrant.wp_bind]
    apply wp_setState (fun _ _ => trivial)
    · exact nofun
    · intro hreconnecting
      exact hopens _ ⟨.modified rfl rfl, rfl, hreconnecting ▸ nofun⟩
    · exact fun _ => hopens _ ⟨.cons (i := .note _) rfl rfl rfl, rfl, nofun⟩

theorem wp_onOpen_noticed {w : World} :
    wp (bookkeeping tidy).contract honestSocket (Connection.onOpen n) (fun _ => Noticed w)
      (fun _ => Noticed w) w := by
  unfold Connection.onOpen
  rw [Reentrant.wp_bind, Reentrant.wp_modify]
  apply wp_setState (fun _ _ => trivial)
  · exact nofun
  · exact fun hawait => ⟨.modified rfl rfl, rfl, hawait ▸ nofun⟩
  · exact fun _ => ⟨.cons (i := .note _) rfl rfl rfl, rfl, nofun⟩

/-- The books are kept under every policy that permits no more than `moderateSocket`. -/
theorem bookkeeping_sound {P : Policy interface}
    (henter : ∀ w e, P.enter w e → moderateSocket.enter w e ∧ (tidy → e.IsTidy w.state))
    (hback : ∀ w c r, P.back w c r → honestSocket.back w c r) :
    (bookkeeping tidy).Sound P (program n) where
  refl _ w _ := ⟨.refl w, .inr (.inl rfl)⟩
  trans _ w w' w'' h h' hquiet := by
    obtain ⟨hsame, hstate⟩ := h hquiet
    obtain ⟨hsame', hstate'⟩ := h' hquiet
    refine ⟨hsame.trans hsame', ?_⟩
    rcases hstate' with henter | rfl | hlost
    · exact .inl henter
    · exact hstate
    · exact .inr (.inr hlost)
  enter w c e hcall hinv hpermit := by
    obtain ⟨hpermit, htidy⟩ := henter w e hpermit
    have hentered : Unbooked w (w.entered e) := .cons (i := .enter e) rfl rfl rfl
    refine ⟨?_, fun _ => ⟨hentered, .inl ⟨e, w.trace, rfl⟩⟩, hpermit.2, htidy, w.stack, rfl, ?_⟩
    · change (bookkeeping tidy).inv c.isTransfer w at hinv
      change (bookkeeping tidy).inv c.isTransfer (w.entered e)
      cases htransfer : c.isTransfer with
      | true =>
          rw [htransfer] at hinv
          refine ⟨hinv.1, fun hbetween => (hinv.2 fun frame hframe => ?_).unbooked hentered⟩
          exact hbetween frame (List.mem_cons_of_mem _ hframe)
      | false =>
          rw [htransfer] at hinv
          exact UpToDate.unbooked hinv hentered id
    · exact fun c' rest' hstack' => hpermit.1 c' (innermost_of_stack hstack')
  entry e w hinv hpre := by
    obtain ⟨hwritable, htidy, outer, hstack, hnotice⟩ := hpre
    refine Reentrant.wp_fewer ?_ hback
    change (bookkeeping tidy).inv ((bookkeeping tidy).background w) w at hinv
    cases hbackground : (bookkeeping tidy).background w with
    | false =>
        rw [hbackground] at hinv
        have hleft : ∀ r, ∀ w' : World, UpToDate tidy w' →
            (bookkeeping tidy).inv false (w'.left e r) ∧
              (bookkeeping tidy).rel false w (w'.left e r) :=
          fun r w' hw' => ⟨hw'.unbooked (.cons (i := .leave e r) rfl rfl rfl) id, nofun⟩
        exact Reentrant.wp_mono (wp_program e hwritable htidy hinv) (fun _ => hleft _)
          fun _ => hleft _
    | true =>
        rw [hbackground] at hinv
        have hleft : ∀ r, ∀ w' : World, Noticed w w' → (bookkeeping tidy).inv true (w'.left e r) ∧
            (bookkeeping tidy).rel true w (w'.left e r) := by
          intro r w' hw'
          have hleave : Unbooked w' (w'.left e r) := .cons (i := .leave e r) rfl rfl rfl
          have hsame := hw'.unbooked.trans hleave
          refine ⟨⟨hsame.event ▸ hinv.1, fun hbetween => ?_⟩, fun _ => ⟨hsame, .inr (.inr hw'.closed)⟩⟩
          refine (hinv.2 fun frame hframe => ?_).unbooked hsame
          rw [hstack] at hframe
          rcases List.mem_cons.mp hframe with rfl | houter
          · rfl
          · apply hbetween
            change frame ∈ w'.stack.tail
            rw [hw'.stack, hstack]
            exact houter
        have he : e.isNotice = true := by
          unfold Regime.background at hbackground
          rw [hstack] at hbackground
          split at hbackground
          · next c rest houter =>
              exact hnotice c rest (List.cons.inj houter).2 hbackground
          · cases hbackground
        cases e with
        | onOpen =>
            exact Reentrant.wp_mono wp_onOpen_noticed (fun _ => hleft _) fun _ => hleft _
        | onClose | onError =>
            exact Reentrant.wp_mono (wp_onClose_noticed hinv) (fun _ => hleft _) fun _ => hleft _
        | _ => cases he

section Reaching
variable {P : Policy interface}
  (henter : ∀ w e, P.enter w e → moderateSocket.enter w e ∧ (tidy → e.IsTidy w.state))
  (hback : ∀ w c r, P.back w c r → honestSocket.back w c r)
  {uri : Buffer} {cfg : Reentrant.Config interface} (hreach : Reaches P n uri cfg)
  (hrunning : cfg.fault = none)
include henter hback hreach hrunning

/-- A client that waits for nothing to be opened or sent is up to date, and the books are right
while no event is being handed over. -/
theorem bookkeeping_holds :
    ((∀ c ∈ innermost cfg.world, Call.isTransfer c = false) → UpToDate tidy cfg.world) ∧
      (BetweenEvents cfg.world → Booked cfg.world) := by
  have hstart : ∀ t : List Item, emittedEvents t = [] → acceptedEvents t = [] →
      ∀ stack, UpToDate tidy { state := {}, trace := t, stack } := by
    intro t hemitted haccepted stack
    refine Booked.closed ⟨⟨?_, ?_, nofun⟩, ?_⟩ ?_ nofun
    · exact fun _ hmem => absurd hmem Std.TreeMap.not_mem_emptyc
    · exact fun _ hmem => absurd hmem Std.TreeMap.not_mem_emptyc
    · change emittedEvents t = [] ++ acceptedEvents t
      rw [hemitted, haccepted]
      rfl
    · exact fun _ _ hnode => absurd (NameMap.mem_of_getElem? hnode) Std.TreeMap.not_mem_emptyc
  have hpre : (bookkeeping tidy).pre (.construct uri)
      (Reentrant.World.entered { state := {} } (.construct uri)) :=
    ⟨trivial, fun _ => trivial, [], rfl, fun _ _ h => absurd h.symm (List.cons_ne_nil _ _)⟩
  have hholds := (bookkeeping_sound henter hback).holds (hstart [] rfl rfl [])
    ⟨hstart _ rfl rfl _, hpre⟩ hreach
  unfold Regime.Holds at hholds
  rw [hrunning] at hholds
  obtain ⟨-, ⟨-, hinv⟩ | ⟨c, rest, hstack, hinv⟩⟩ := hholds
  · exact ⟨fun _ => hinv, fun _ => (UpToDate.toCurrent hinv).toBooked⟩
  · change (bookkeeping tidy).inv c.isTransfer _ at hinv
    cases htransfer : c.isTransfer with
    | true =>
        rw [htransfer] at hinv
        refine ⟨fun hquiet => ?_, hinv.2⟩
        rw [hquiet c (innermost_of_stack hstack)] at htransfer
        cases htransfer
    | false =>
        rw [htransfer] at hinv
        exact ⟨fun _ => hinv, fun _ => (UpToDate.toCurrent hinv).toBooked⟩

end Reaching

/-- A client of `dependableSocket` is up to date, tidy or not. -/
theorem upToDate_of_dependable {uri : Buffer} {cfg : Reentrant.Config interface}
    (hreach : Reaches dependableSocket n uri cfg) (hrunning : cfg.fault = none)
    (hsocket : ∀ c ∈ innermost cfg.world, Call.isSocket c = false) : UpToDate False cfg.world := by
  refine (bookkeeping_holds (fun _ _ hpermit => ⟨dependableSocket_enter hpermit, False.elim⟩)
    (fun _ _ _ => dependableSocket_back) hreach hrunning).1 fun c hc => ?_
  have hquiet := hsocket c hc
  cases c with
  | wsOpen | wsSend => cases hquiet
  | _ => rfl

/-- Whenever no method of the socket is running, the events that were accepted and those that
wait are those that were emitted, in the order they were emitted in. -/
theorem events_conserved (n : Nat) (uri : Buffer) (cfg : Reentrant.Config interface)
    (hreach : Reaches dependableSocket n uri cfg) (hrunning : cfg.fault = none)
    (hsocket : ∀ c ∈ innermost cfg.world, Call.isSocket c = false) :
    (emittedEvents cfg.world.trace).reverse =
        (acceptedEvents cfg.world.trace).reverse ++ queuedEvents cfg.world.state.event ∧
      (cfg.world.state.state = .open → queuedEvents cfg.world.state.event = []) := by
  have hcurrent := upToDate_of_dependable hreach hrunning hsocket
  refine ⟨?_, fun hopen => ?_⟩
  · rw [hcurrent.events, List.reverse_append, List.reverse_reverse]
  · rw [queuedEvents, hcurrent.queue hopen]
    rfl

/-- While no event is being handed over, the events that were accepted and those that wait are
those that were emitted, in the order they were emitted in. -/
theorem events_inOrder (n : Nat) (uri : Buffer) (cfg : Reentrant.Config interface)
    (hreach : Reaches moderateSocket n uri cfg) (hrunning : cfg.fault = none)
    (hbetween : BetweenEvents cfg.world) :
    (emittedEvents cfg.world.trace).reverse =
      (acceptedEvents cfg.world.trace).reverse ++ queuedEvents cfg.world.state.event := by
  have henter : ∀ w e, moderateSocket.enter w e →
      moderateSocket.enter w e ∧ (False → e.IsTidy w.state) :=
    fun _ _ hpermit => ⟨hpermit, False.elim⟩
  have hbooked := (bookkeeping_holds henter (fun _ _ _ => id) hreach hrunning).2 hbetween
  rw [hbooked.events, List.reverse_append, List.reverse_reverse]

end Handlers

/-- An event, a pattern and a subscription that wait for the connection, a pattern that is given up
before, and an event that does not have to wait -/
def openedLate : List (Reentrant.Move interface) :=
  connecting ++ [.enter (.emit (bytes "a") (bytes "S1")), .enter (.listen (bytes "p") (some 1)),
    .enter (.listen (bytes "q") (some 3)), .enter (.unlisten (bytes "q")),
    .enter (.subscribe (bytes "b") (some 2)), receive "C|CH+", accept, accept, receive "C|A+",
    .enter (.login (bytes "{}") (some 0)), accept, receive "A|A+", accept, accept, accept, accept,
    .enter (.emit (bytes "a") (bytes "S2")), accept]

/-- An event is not sent, since the connection is lost; it is opened again meanwhile. -/
def lostWhileSending : List (Reentrant.Move interface) :=
  openedLate ++ [.enter (.emit (bytes "a") (bytes "S3")), .enter (.onError []), .enter .onOpen,
    accept, .back fun
      | .wsSend _ _ => .ok false
      | _ => .error (.user 0)]

theorem idle_of_all {w : World} (h : (innermost w).all (fun c => !c.isSocket) = true) :
    ∀ c ∈ innermost w, Call.isSocket c = false := by
  intro c hc
  rw [Option.mem_def.mp hc] at h
  simpa using h

/-- Two of three events were sent. -/
theorem events_conserved_lostWhileSending : let _ : Build := release
    ∃ cfg, Reaches dependableSocket 9 [] cfg ∧ (acceptedEvents cfg.world.trace).length = 2 ∧
      (queuedEvents cfg.world.state.event).length = 1 ∧
      (emittedEvents cfg.world.trace).reverse =
        (acceptedEvents cfg.world.trace).reverse ++ queuedEvents cfg.world.state.event := by
  intro _
  let cfg := after 9 [] lostWhileSending
  have hreach : Reaches dependableSocket 9 [] cfg := by
    apply Reentrant.reachable_run
    decide +kernel
  have hrunning : cfg.fault = none := by decide +kernel
  have hsocket := idle_of_all (w := cfg.world) (by decide +kernel)
  have haccepted : (acceptedEvents cfg.world.trace).length = 2 := by decide +kernel
  have hqueued : (queuedEvents cfg.world.state.event).length = 1 := by decide +kernel
  exact ⟨cfg, hreach, haccepted, hqueued, (events_conserved 9 [] cfg hreach hrunning hsocket).1⟩

/-- Two of three events were sent, and the subscription is about to be announced once more. -/
theorem events_inOrder_resubscribing : let _ : Build := release
    ∃ cfg, Reaches moderateSocket 9 [] cfg ∧ cfg.world.state.state = .open ∧
      (acceptedEvents cfg.world.trace).length = 2 ∧
      (queuedEvents cfg.world.state.event).length = 1 ∧
      (emittedEvents cfg.world.trace).reverse =
        (acceptedEvents cfg.world.trace).reverse ++ queuedEvents cfg.world.state.event := by
  intro _
  let cfg := after 9 [] (lostWhileSending ++ [receive "C|CH+", accept, accept, receive "C|A+",
    accept, receive "A|A+", accept])
  have hreach : Reaches moderateSocket 9 [] cfg := by
    apply Reentrant.reachable_run
    decide +kernel
  obtain ⟨hrunning, hbetween, hopen, haccepted, hqueued⟩ : cfg.fault = none ∧
      BetweenEvents cfg.world ∧ cfg.world.state.state = .open ∧
      (acceptedEvents cfg.world.trace).length = 2 ∧
      (queuedEvents cfg.world.state.event).length = 1 := by
    decide +kernel
  exact ⟨cfg, hreach, hopen, haccepted, hqueued, events_inOrder 9 [] cfg hreach hrunning hbetween⟩

section Throwing
variable {n : Nat} {w : World} (hopen : w.state.state = .open) {x : Exception}
include hopen

/-- A message that cannot be written is not handed over. -/
theorem advance_send_thrown {m : MessageBuilder} (hm : m.header.topic = .event) :
    let _ : Build := release
    m.toBinary = .error (.thrown x) →
      Reentrant.advance (Connection.send n m) w = (.raised x, w.noted (.sending m)) := by
  intro _ hthrown
  have htransmit : Connection.transmit m = .raise x := by
    unfold Connection.transmit
    rw [hthrown]
    rfl
  have hdebugMsg : Connection.debugMsg m.header = pure () := rfl
  unfold Connection.send Connection.sendWith
  rw [hdebugMsg]
  change Reentrant.advance (if m.header.topic = .connection ∨ m.header.topic = .auth then _
    else if w.state.state = .open then Connection.transmit m else _) (w.noted (.sending m)) = _
  rw [if_neg (not_handshake hm (by decide)), if_pos hopen, htransmit]
  rfl

/-- An event that cannot be written is neither handed over nor does it wait. -/
theorem advance_emit_thrown {name data : Buffer} (hname : name ≠ [])
    (hclean : ∀ arg ∈ [name, data], asciiUnitSeparator ∉ arg) :
    let _ : Build := release
    (∀ evt : Built .event .event [name, data], evt.val.toBinary = .error (.thrown x)) →
      ∃ evt : Built .event .event [name, data],
        Reentrant.advance (program n (.emit name data)) w =
          (.raised x, (w.noted (.emitted evt.val)).noted (.sending evt.val)) := by
  intro _ hthrown
  have hroom : (MessageBuilder.ofHeader { topic := .event, action := .event }).arguments.length +
      [name, data].length ≤ maxArguments := by
    change 2 ≤ maxArguments
    decide
  obtain ⟨evt, hbuild⟩ : ∃ evt, Program.build .event .event [name, data] = .ret evt := by
    obtain ⟨-, m, hm⟩ := (MessageBuilder.addArguments_cases _ [name, data] hroom).resolve_right
      fun hbad => hbad.1.elim fun arg harg => hclean arg harg.1 harg.2
    unfold Program.build
    split
    · exact ⟨_, rfl⟩
    · next h =>
        rw [hm] at h
        cases h
  refine ⟨evt, ?_⟩
  have hm : evt.val.header.topic = .event := congrArg Header.topic evt.property.1
  change Reentrant.advance (Event.emit (Connection.send n) name data) w = _
  unfold Event.emit
  rw [if_neg hname, hbuild]
  change Reentrant.advance (Connection.send n evt.val >>= _) (w.noted (.emitted evt.val)) = _
  apply Reentrant.advance_bind_raised
  exact advance_send_thrown (w := w.noted (.emitted evt.val)) hopen hm (hthrown evt)

end Throwing

/-- An event that carries two gibibytes is neither sent nor queued. -/
theorem events_not_inOrder : let _ : Build := release
    ¬∀ cfg, Reaches honestSocket 9 [] cfg → cfg.fault = none → BetweenEvents cfg.world →
      (emittedEvents cfg.world.trace).reverse =
        (acceptedEvents cfg.world.trace).reverse ++ queuedEvents cfg.world.state.event := by
  intro _ hclaim
  let cfg := after 9 [] loggedIn
  have hreach : Reaches honestSocket 9 [] cfg := by
    apply Reentrant.reachable_run
    decide +kernel
  obtain ⟨hrunning, hframes, hidle, hopen, hbetween, haccepted, hqueued⟩ : cfg.fault = none ∧
      cfg.frames.isEmpty = false ∧ IsIdle cfg.world ∧ cfg.world.state.state = .open ∧
      BetweenEvents cfg.world ∧ (acceptedEvents cfg.world.trace).isEmpty = true ∧
      (queuedEvents cfg.world.state.event).isEmpty = true := by
    decide +kernel
  clear_value cfg
  obtain ⟨uri, hstack⟩ := hidle
  have hclean : ∀ arg ∈ [bytes "a", List.replicate (2 ^ 31) 97], asciiUnitSeparator ∉ arg := by
    intro arg harg hmem
    rcases List.mem_pair.mp harg with rfl | rfl
    · exact absurd hmem (by decide)
    · cases List.eq_of_mem_replicate hmem
  have hthrown : ∀ evt : Built .event .event [bytes "a", List.replicate (2 ^ 31) 97],
      evt.val.toBinary = .error (.thrown .lengthError) := by
    intro evt
    have hsize : evt.val.payloadSize = 1 + 2 ^ 31 := by
      rw [MessageBuilder.payloadSize, evt.property.2, List.map_cons, List.map_cons,
        List.length_replicate]
      rfl
    apply evt.val.toBinary_negative ⟨{ topic := .event, action := .event }, by decide⟩
    · exact evt.property.1
    · rw [evt.property.2]
      rfl
    · rw [hsize]
      decide
    · rw [hsize]
      decide
  let emission : Entry := .emit (bytes "a") (List.replicate (2 ^ 31) 97)
  have hname : bytes "a" ≠ [] := by decide
  obtain ⟨evt, hadvance⟩ := advance_emit_thrown (n := 9) (w := cfg.world.entered emission) hopen
    hname hclean hthrown
  have hpermit : honestSocket.Permits cfg (.enter emission) := by
    unfold Policy.Permits
    split
    · trivial
    · intro c hc htransfer
      rw [Option.mem_def, innermost_of_stack hstack] at hc
      cases hc
      cases htransfer
    · next hmove => cases hmove
  have hlater := hreach.next cfg (.enter emission) hpermit
  have hsuspended : cfg.frames ≠ [] := by
    intro hnil
    rw [hnil] at hframes
    cases hframes
  rw [Reentrant.next_enter (program 9) hrunning hsuspended emission, hadvance] at hlater
  have horder := hclaim _ hlater rfl hbetween
  change (evt.val :: emittedEvents cfg.world.trace).reverse =
    (acceptedEvents cfg.world.trace).reverse ++ queuedEvents cfg.world.state.event at horder
  rw [List.isEmpty_iff.mp haccepted, List.isEmpty_iff.mp hqueued, List.reverse_cons] at horder
  exact List.append_ne_nil_of_right_ne_nil _ (List.cons_ne_nil _ _) horder

section Names
variable [Build]

/-- Whenever no method of the socket is running, the server of an open connection has been told
once of every pattern that is listened to, and of no other. -/
theorem patterns_mirrored (n : Nat) (uri : Buffer) (cfg : Reentrant.Config interface)
    (hreach : Reaches dependableSocket n uri cfg) (hrunning : cfg.fault = none)
    (hsocket : ∀ c ∈ innermost cfg.world, Call.isSocket c = false)
    (hopen : cfg.world.state.state = .open) (pattern : Buffer) :
    acceptedSince .listen .unlisten pattern cfg.world.trace =
      if pattern ∈ cfg.world.state.event.listenerMap then [.listen] else [] :=
  ((upToDate_of_dependable hreach hrunning hsocket).told hopen).listeners pattern

end Names

theorem patterns_mirrored_openedLate : let _ : Build := release
    ∃ cfg, Reaches dependableSocket 9 [] cfg ∧ cfg.world.state.state = .open ∧
      acceptedSince .listen .unlisten (bytes "p") cfg.world.trace = [.listen] ∧
      acceptedSince .listen .unlisten (bytes "q") cfg.world.trace = [] := by
  intro _
  let cfg := after 9 [] openedLate
  have hreach : Reaches dependableSocket 9 [] cfg := by
    apply Reentrant.reachable_run
    decide +kernel
  have hrunning : cfg.fault = none := by decide +kernel
  have hsocket := idle_of_all (w := cfg.world) (by decide +kernel)
  have hopen : cfg.world.state.state = .open := by decide +kernel
  have hmirrored := patterns_mirrored 9 [] cfg hreach hrunning hsocket hopen
  have hlistened : bytes "p" ∈ cfg.world.state.event.listenerMap := by decide +kernel
  have hgiven : bytes "q" ∉ cfg.world.state.event.listenerMap := by decide +kernel
  refine ⟨cfg, hreach, hopen, ?_, ?_⟩
  · rw [hmirrored, if_pos hlistened]
  · rw [hmirrored, if_neg hgiven]

section Names
variable [Build]

/-- Whenever no method of the socket is running, the last that the server of an open connection
has been told about a name with subscribers is its subscription. -/
theorem subscriptions_known (n : Nat) (uri : Buffer) (cfg : Reentrant.Config interface)
    (hreach : Reaches dependableSocket n uri cfg) (hrunning : cfg.fault = none)
    (hsocket : ∀ c ∈ innermost cfg.world, Call.isSocket c = false)
    (hopen : cfg.world.state.state = .open) (name : Buffer)
    (hname : name ∈ cfg.world.state.event.subscriberMap) :
    (acceptedSince .subscribe .unsubscribe name cfg.world.trace).head? = some .subscribe :=
  ((upToDate_of_dependable hreach hrunning hsocket).told hopen).subscribers name hname

end Names

theorem subscriptions_known_openedLate : let _ : Build := release
    ∃ cfg, Reaches dependableSocket 9 [] cfg ∧ cfg.world.state.state = .open ∧
      (acceptedSince .subscribe .unsubscribe (bytes "b") cfg.world.trace).head? =
        some .subscribe := by
  intro _
  let cfg := after 9 [] openedLate
  have hreach : Reaches dependableSocket 9 [] cfg := by
    apply Reentrant.reachable_run
    decide +kernel
  have hrunning : cfg.fault = none := by decide +kernel
  have hsocket := idle_of_all (w := cfg.world) (by decide +kernel)
  have hopen : cfg.world.state.state = .open := by decide +kernel
  have hname : bytes "b" ∈ cfg.world.state.event.subscriberMap := by decide +kernel
  exact ⟨cfg, hreach, hopen,
    subscriptions_known 9 [] cfg hreach hrunning hsocket hopen (bytes "b") hname⟩

section Names
variable [Build]

/-- While nothing is being opened or sent, the server of an open connection has been told of every
name in turns, and believes that there is a subscription where there is one. -/
theorem subscriptions_mirrored (n : Nat) (uri : Buffer) (cfg : Reentrant.Config interface)
    (hreach : Reaches tidySocket n uri cfg) (hrunning : cfg.fault = none)
    (hquiet : ∀ c ∈ innermost cfg.world, Call.isTransfer c = false)
    (hopen : cfg.world.state.state = .open) (name : Buffer) :
    Alternates .subscribe .unsubscribe
        (acceptedSince .subscribe .unsubscribe name cfg.world.trace) ∧
      ((acceptedSince .subscribe .unsubscribe name cfg.world.trace).head? = some .subscribe ↔
        name ∈ cfg.world.state.event.subscriberMap) := by
  have henter : ∀ w e, tidySocket.enter w e →
      moderateSocket.enter w e ∧ (True → e.IsTidy w.state) :=
    fun _ _ hpermit => ⟨hpermit.1, fun _ => hpermit.2⟩
  have htold := ((bookkeeping_holds henter (fun _ _ _ => id) hreach hrunning).1 hquiet).told hopen
  obtain ⟨hturns, hknown⟩ := htold.exact trivial name
  exact ⟨hturns, hknown, htold.subscribers name⟩

end Names

/-- Two subscriptions that wait for the connection -/
def subscribedTwice : List (Reentrant.Move interface) :=
  connecting ++ [.enter (.subscribe (bytes "a") (some 1)), .enter (.subscribe (bytes "b") (some 2)),
    receive "C|CH+", accept, accept, receive "C|A+", .enter (.login (bytes "{}") (some 0)), accept]

/-- A subscription is given up and made again, while it is the only one. -/
theorem subscriptions_mirrored_subscribedAgain : let _ : Build := release
    ∃ cfg, Reaches tidySocket 9 [] cfg ∧ cfg.world.state.state = .open ∧
      (acceptedSince .subscribe .unsubscribe (bytes "a") cfg.world.trace).length = 3 ∧
      Alternates .subscribe .unsubscribe
        (acceptedSince .subscribe .unsubscribe (bytes "a") cfg.world.trace) ∧
      bytes "a" ∈ cfg.world.state.event.subscriberMap := by
  intro _
  let cfg := after 9 [] (subscribedTwice ++ [.enter (.unsubscribe (bytes "b")), receive "A|A+",
    accept, accept, .enter (.unsubscribeId (bytes "a") 0), accept,
    .enter (.subscribe (bytes "a") (some 1)), accept])
  have hreach : Reaches tidySocket 9 [] cfg := by
    apply Reentrant.reachable_run
    decide +kernel
  obtain ⟨hrunning, hquiet, hopen, htold⟩ : cfg.fault = none ∧
      (∀ c ∈ innermost cfg.world, Call.isTransfer c = false) ∧ cfg.world.state.state = .open ∧
      acceptedSince .subscribe .unsubscribe (bytes "a") cfg.world.trace =
        [.subscribe, .unsubscribe, .subscribe] := by
    decide +kernel
  clear_value cfg
  obtain ⟨hturns, hknown⟩ :=
    subscriptions_mirrored 9 [] cfg hreach hrunning hquiet hopen (bytes "a")
  exact ⟨cfg, hreach, hopen, congrArg List.length htold, hturns,
    hknown.mp (congrArg List.head? htold)⟩

/-- The server is not told that one of two subscriptions is given up. -/
theorem subscriptions_not_mirrored : let _ : Build := release
    ¬∀ cfg, Reaches dependableSocket 9 [] cfg → cfg.fault = none → IsIdle cfg.world →
      cfg.world.state.state = .open → ∀ name,
      (acceptedSince .subscribe .unsubscribe name cfg.world.trace).head? = some .subscribe →
        name ∈ cfg.world.state.event.subscriberMap := by
  intro _ hmirrored
  let cfg := after 9 [] (subscribedTwice ++ [receive "A|A+", accept, accept, accept,
    .enter (.unsubscribe (bytes "a"))])
  have hreach : Reaches dependableSocket 9 [] cfg := by
    apply Reentrant.reachable_run
    decide +kernel
  have hrunning : cfg.fault = none := by decide +kernel
  have hidle : IsIdle cfg.world := by decide +kernel
  have hopen : cfg.world.state.state = .open := by decide +kernel
  have hlast : (acceptedSince .subscribe .unsubscribe (bytes "a") cfg.world.trace).head? =
      some .subscribe := by
    decide +kernel
  have hgone : bytes "a" ∉ cfg.world.state.event.subscriberMap := by decide +kernel
  exact hgone (hmirrored cfg hreach hrunning hidle hopen (bytes "a") hlast)

end Deepstream
