import Deepstream.Client.Aside
import Deepstream.Client.Runs

/-!
Login callbacks and the requests they are called for.

A login replaces both the credentials and the callback, while the request that
carries the credentials is sent, and answered, at other times. The invariant
pairs the stored callback with the stored credentials, and the credentials with
the last request as long as nobody has logged in since.
-/

namespace Deepstream

open Reentrant (Keeps Policy Prog Regime wp)

/-- The state that a history leads to -/
def stateOf (history : List Item) : ConnectionState :=
  (history.findSome? fun
    | .note (.became c) => some c.state
    | _ => none).getD .closed

def MessageBuilder.isRequest (m : MessageBuilder) : Bool :=
  m.header = { topic := .auth, action := .request }

/-- The arguments of the last request for authentication that was handed over -/
def lastRequest (history : List Item) : Option (List Buffer) :=
  history.findSome? fun
    | .call (.wsSend m _) => if m.isRequest then some m.arguments else none
    | _ => none

/-- Someone has logged in since the last request was handed over. -/
def loginSince (history : List Item) : Bool :=
  (history.findSome? fun
    | .enter (.login _ _) => some true
    | .call (.wsSend m _) => if m.isRequest then some false else none
    | _ => none).getD true

/-- The last login that took effect: in `OPEN` a login is ignored. -/
def lastLogin : List Item → Option (Buffer × Function)
  | [] => none
  | .enter (.login auth callback) :: older =>
      if stateOf older = .open then lastLogin older else some (auth, callback)
  | _ :: older => lastLogin older

/-- A callback belongs to the last login, whose credentials were handed over last. -/
def Belongs (history : List Item) (f : Nat) : Prop :=
  ∃ auth, lastLogin history = some (auth, some f) ∧ lastRequest history = some [auth]

/-- No message that acknowledges a login is handled after a login that it does not belong to. -/
def Unambiguous (history : List Item) : Prop :=
  ∀ newer m c older, history = newer ++ .note (.dispatched m c) :: older →
    m.header.topic = .auth → m.header.action = .request → loginSince older = false

/-- The stored credentials and callback, and the callbacks so far -/
structure Paired (history : List Item) (c : Client) : Prop where
  state : stateOf history = c.state
  stored : ∀ callback, c.loginCallback = some callback →
    ∃ auth, c.authParams = some auth ∧ lastLogin history = some (auth, callback)
  requested : loginSince history = false →
    ∃ auth, c.authParams = some auth ∧ lastRequest history = some [auth]
  invoked : ∀ newer f data older, history = newer ++ .call (.loginCallback f data) :: older →
    Belongs older f

/-- Items that have nothing to do with logging in -/
def Item.IsAside : Item → Prop
  | .note (.became _) | .enter (.login _ _) | .call (.wsSend _ _) | .call (.loginCallback _ _) =>
      False
  | _ => True

theorem Unambiguous.tail {i : Item} {history : List Item} (h : Unambiguous (i :: history)) :
    Unambiguous history :=
  fun newer m c older heq => h (i :: newer) m c older (congrArg (List.cons i) heq)

section Items
variable {i : Item} {history : List Item} {c : Client}

theorem lastLogin_cons (h : ∀ auth callback, i ≠ .enter (.login auth callback)) :
    lastLogin (i :: history) = lastLogin history := by
  cases i with
  | enter e =>
      cases e with
      | login auth callback => exact absurd rfl (h auth callback)
      | _ => rfl
  | _ => rfl

theorem lastRequest_send (m : MessageBuilder) (buffer : Buffer) :
    lastRequest (.call (.wsSend m buffer) :: history) =
      if m.isRequest then some m.arguments else lastRequest history := by
  unfold lastRequest
  rw [List.findSome?_cons]
  cases h : m.isRequest <;> simp [h]

theorem loginSince_send (m : MessageBuilder) (buffer : Buffer) :
    loginSince (.call (.wsSend m buffer) :: history) =
      if m.isRequest then false else loginSince history := by
  unfold loginSince
  rw [List.findSome?_cons]
  cases h : m.isRequest <;> simp [h]

theorem unambiguous_cons : Unambiguous (i :: history) ↔
    (∀ m c, i = .note (.dispatched m c) → m.header.topic = .auth → m.header.action = .request →
      loginSince history = false) ∧ Unambiguous history := by
  constructor
  · intro h
    refine ⟨fun m c hi => h [] m c history (congrArg (· :: history) hi), h.tail⟩
  · rintro ⟨hhead, htail⟩ newer m c older heq
    cases newer with
    | nil =>
        obtain ⟨hi, rfl⟩ := List.cons.inj heq
        exact hhead m c hi
    | cons _ newer => exact htail newer m c older (List.cons.inj heq).2

/-- A callback that was not invoked just now -/
theorem Paired.invoked_cons (h : Paired history c)
    (hi : ∀ f data, i = .call (.loginCallback f data) → Belongs history f) (newer : List Item)
    (f : Nat) (data : Buffer) (older : List Item)
    (heq : i :: history = newer ++ .call (.loginCallback f data) :: older) : Belongs older f := by
  cases newer with
  | nil =>
      obtain ⟨rfl, rfl⟩ := List.cons.inj heq
      exact hi f data rfl
  | cons _ newer => exact h.invoked newer f data older (List.cons.inj heq).2

theorem Paired.aside (h : Paired history c) (hi : i.IsAside) : Paired (i :: history) c := by
  have hlogin : lastLogin (i :: history) = lastLogin history := by
    apply lastLogin_cons
    rintro auth callback rfl
    exact hi
  have hcases : stateOf (i :: history) = stateOf history ∧
      lastRequest (i :: history) = lastRequest history ∧
      loginSince (i :: history) = loginSince history := by
    unfold stateOf lastRequest loginSince
    cases i with
    | enter e => cases e <;> first | exact ⟨rfl, rfl, rfl⟩ | exact hi.elim
    | call c => cases c <;> first | exact ⟨rfl, rfl, rfl⟩ | exact hi.elim
    | note n => cases n <;> first | exact ⟨rfl, rfl, rfl⟩ | exact hi.elim
    | leave e result => exact ⟨rfl, rfl, rfl⟩
    | back c result => exact ⟨rfl, rfl, rfl⟩
  obtain ⟨hstate, hrequest, hsince⟩ := hcases
  refine ⟨hstate.trans h.state, ?_, ?_, ?_⟩
  · rw [hlogin]
    exact h.stored
  · rw [hrequest, hsince]
    exact h.requested
  · apply h.invoked_cons
    rintro f data rfl
    exact hi.elim

theorem Paired.became (h : Paired history c) (s : ConnectionState) :
    Paired (.note (.became { c with state := s }) :: history) { c with state := s } where
  state := rfl
  stored := by
    rw [lastLogin_cons (by rintro _ _ ⟨⟩)]
    exact h.stored
  requested := h.requested
  invoked := h.invoked_cons (fun _ _ => nofun)

theorem Paired.send {m : MessageBuilder} {buffer : Buffer} (h : Paired history c)
    (hm : m.isRequest = true → ∃ auth, c.authParams = some auth ∧ m.arguments = [auth]) :
    Paired (.call (.wsSend m buffer) :: history) c where
  state := h.state
  stored := by
    rw [lastLogin_cons (by rintro _ _ ⟨⟩)]
    exact h.stored
  requested := by
    rw [loginSince_send, lastRequest_send]
    cases hrequest : m.isRequest with
    | false => exact h.requested
    | true =>
        intro _
        obtain ⟨auth, hauth, harguments⟩ := hm hrequest
        exact ⟨auth, hauth, congrArg some harguments⟩
  invoked := h.invoked_cons (fun _ _ => nofun)

theorem Paired.callback {f : Nat} {data : Buffer} (h : Paired history c)
    (hf : Belongs history f) : Paired (.call (.loginCallback f data) :: history) c where
  state := h.state
  stored := by
    rw [lastLogin_cons (by rintro _ _ ⟨⟩)]
    exact h.stored
  requested := h.requested
  invoked := h.invoked_cons (by rintro _ _ heq; cases heq; exact hf)

/-- A login in `OPEN` changes nothing, any other is stored. -/
theorem Paired.login_open (h : Paired history c) (hopen : c.state = .open) (auth : Buffer)
    (callback : Function) : Paired (.enter (.login auth callback) :: history) c where
  state := h.state
  stored := by
    unfold lastLogin
    rw [if_pos (h.state.trans hopen)]
    exact h.stored
  requested := nofun
  invoked := h.invoked_cons (fun _ _ => nofun)

theorem Paired.login (h : Paired history c) (hopen : c.state ≠ .open) (auth : Buffer)
    (callback : Function) : Paired (.enter (.login auth callback) :: history)
      { c with loginCallback := some callback, authParams := some auth } where
  state := h.state
  stored := by
    intro callback' heq
    cases heq
    refine ⟨auth, rfl, ?_⟩
    unfold lastLogin
    rw [if_neg fun heq => hopen (h.state.symm.trans heq)]
  requested := nofun
  invoked := h.invoked_cons (fun _ _ => nofun)

theorem Paired.congr {c' : Client} (h : Paired history c) (hstate : c'.state = c.state)
    (hcallback : c'.loginCallback = c.loginCallback) (hauth : c'.authParams = c.authParams) :
    Paired history c' where
  state := h.state.trans hstate.symm
  stored := by
    rw [hcallback, hauth]
    exact h.stored
  requested := by
    rw [hauth]
    exact h.requested
  invoked := h.invoked

end Items

instance decidableUnambiguous : DecidablePred Unambiguous
  | [] => .isTrue fun newer m c older h => absurd h (by cases newer <;> exact nofun)
  | i :: history =>
      have := decidableUnambiguous history
      have : Decidable (∀ m c, i = .note (.dispatched m c) → m.header.topic = .auth →
          m.header.action = .request → loginSince history = false) :=
        match i with
        | .note (.dispatched m c) => decidable_of_iff
            (m.header.topic = .auth → m.header.action = .request → loginSince history = false)
            ⟨fun h m' c' heq => by cases heq; exact h, fun h => h m c rfl⟩
        | .note (.became _) | .note (.sending _) | .note (.refused _) | .note (.emitted _)
        | .enter _ | .leave _ _ | .call _ | .back _ _ => .isTrue (by rintro _ _ ⟨⟩)
      decidable_of_iff _ unambiguous_cons.symm

/-- A login that has only begun is not part of what is settled. -/
def settled : List Item → List Item
  | .enter (.login _ _) :: older => older
  | history => history

/-- An entry that has just begun is the innermost one. -/
def AtEntry (w : World) : Prop :=
  ∀ e, w.trace.head? = some (.enter e) → w.stack.head? = some (.inl e)

def pairing : Regime interface where
  quiet _ := false
  inv _ w := AtEntry w ∧ (Unambiguous (settled w.trace) → Paired (settled w.trace) w.state)
  rel _ _ _ := True
  pre e w := w.trace.head? = some (.enter e)
  abort _ _ := True

/-- The invariant between calls -/
def IsPaired (w : World) : Prop :=
  Unambiguous w.trace → Paired w.trace w.state

theorem settled_enter {e : Entry} {history : List Item}
    (he : ∀ auth callback, e ≠ .login auth callback) :
    settled (.enter e :: history) = .enter e :: history := by
  cases e with
  | login auth callback => exact absurd rfl (he auth callback)
  | _ => rfl

theorem settled_eq {w : World} (h : AtEntry w) (hstack : ∀ e, w.stack.head? ≠ some (.inl e)) :
    settled w.trace = w.trace := by
  unfold settled
  split
  · next heq => exact absurd (h _ (by rw [heq]; rfl)) (hstack _)
  · rfl

theorem not_inl_of_stack {w : World} {c : Call} {rest : List (Entry ⊕ Call)}
    (hstack : w.stack = .inr c :: rest) (e : Entry) : w.stack.head? ≠ some (.inl e) := by
  rw [hstack]
  exact nofun

section Programs
variable {P : Policy interface} {α : Type}

/-- A program keeps callbacks and credentials paired. -/
abbrev Pairs (P : Policy interface) (p : Program α) : Prop :=
  Keeps pairing.contract P IsPaired p

theorem IsPaired.aside {w w' : World} (h : IsPaired w) {i : Item} (hi : i.IsAside)
    (htrace : w'.trace = i :: w.trace) (hstate : w'.state = w.state) : IsPaired w' := by
  intro hunambiguous
  rw [htrace] at hunambiguous ⊢
  rw [hstate]
  exact (h hunambiguous.tail).aside hi

theorem IsPaired.noted {w : World} (h : IsPaired w) {n : Note} (hn : Item.IsAside (.note n)) :
    IsPaired (Reentrant.World.noted w n) :=
  h.aside hn rfl rfl

theorem wp_ask_paired {c : Call} {w : World} (hcall : IsPaired (Reentrant.World.calling w c)) :
    wp pairing.contract P (Program.ask c) (fun _ => IsPaired) (fun _ => IsPaired) w := by
  apply Reentrant.wp_ask
  · refine ⟨⟨?_, hcall⟩, _, rfl⟩
    intro e he
    cases he
  · intro w' hlater hafter
    obtain ⟨⟨hentry, hpaired⟩, -⟩ := hafter
    rw [settled_eq hentry (not_inl_of_stack hlater.stack)] at hpaired
    have hback : ∀ r, IsPaired (w'.returned c r) := fun r =>
      IsPaired.aside (i := .back c r) hpaired trivial rfl rfl
    exact ⟨fun a _ => hback (.ok a), fun x _ => hback (.error x)⟩

theorem pairs_ask_aside {c : Call} (hc : Item.IsAside (.call c)) : Pairs P (Program.ask c) :=
  fun _ hw => wp_ask_paired (hw.aside hc rfl rfl)

theorem pairs_modify {f : Client → Client} (hstate : ∀ c, (f c).state = c.state)
    (hcallback : ∀ c, (f c).loginCallback = c.loginCallback)
    (hauth : ∀ c, (f c).authParams = c.authParams) : Pairs P (Prog.modify f) := by
  apply Reentrant.keeps_modify
  intro w hw hunambiguous
  exact (hw hunambiguous).congr (hstate _) (hcallback _) (hauth _)

theorem pairs_leave {n : Note} (hn : Item.IsAside (.note n)) : Pairs P (Program.leave n) :=
  Reentrant.keeps_leave fun _ hw => hw.noted hn

theorem routine_paired : Routine pairing.contract P IsPaired where
  abort _ _ _ := trivial
  ask c hc := by
    apply pairs_ask_aside
    cases c <;> trivial
  nextId := by
    apply Reentrant.keeps_read_bind
    intro c
    exact Reentrant.keeps_bind (pairs_modify (fun _ => rfl) (fun _ => rfl) fun _ => rfl) fun _ =>
      Reentrant.keeps_pure _

theorem socketRoutine_paired : SocketRoutine pairing.contract P IsPaired where
  setUri _ := pairs_ask_aside trivial
  wsOpen := pairs_ask_aside trivial
  close := Connection.keeps_close (pairs_modify (fun _ => rfl) (fun _ => rfl) fun _ => rfl)
    (pairs_ask_aside trivial)
  attempt _ := pairs_modify (fun _ => rfl) (fun _ => rfl) fun _ => rfl

theorem isRequest_eq_false {m : MessageBuilder} (hm : m.header.topic ≠ .auth) :
    m.isRequest = false := by
  unfold MessageBuilder.isRequest
  rw [decide_eq_false_iff_not]
  exact fun heq => hm (congrArg Header.topic heq)

theorem pairs_handOver {m : MessageBuilder} (buffer : Buffer) (hm : m.isRequest = false) :
    Pairs P (Program.ask (.wsSend m buffer)) := by
  intro w hw
  apply wp_ask_paired
  intro hunambiguous
  apply (hw hunambiguous.tail).send
  rw [hm]
  exact nofun

theorem aside_paired : Aside pairing.contract P IsPaired where
  routine := routine_paired
  modifyEvent _ := pairs_modify (fun _ => rfl) (fun _ => rfl) fun _ => rfl
  modifyPresence _ := pairs_modify (fun _ => rfl) (fun _ => rfl) fun _ => rfl
  queryFn _ _ := pairs_ask_aside trivial
  emitted _ := pairs_leave trivial
  sending _ := pairs_leave trivial
  handEvent m buffer w hm _ := by
    apply pairs_handOver
    apply isRequest_eq_false
    rw [hm]
    exact nofun
  handPresence m buffer w hm _ := by
    apply pairs_handOver
    apply isRequest_eq_false
    rw [hm]
    exact nofun

theorem keepsChanges_paired : KeepsChanges IsPaired := by
  intro s w _ hw hunambiguous
  exact (hw hunambiguous.tail).became s

section Handlers
variable [Build] {n : Nat}

omit [Build] in
theorem abort_pairing (f : Failure) (w : World) : pairing.contract.abort f w :=
  trivial

/-- The credentials that are stored are handed over. -/
theorem wp_transmit_paired {m : MessageBuilder} {auth : Buffer} {w : World} (hw : IsPaired w)
    (harguments : m.arguments = [auth]) (hauth : w.state.authParams = some auth) :
    wp pairing.contract P (Connection.transmit m) (fun _ => IsPaired) (fun _ => IsPaired) w := by
  unfold Connection.transmit
  rw [Reentrant.wp_bind]
  apply wp_lift
  · intro buffer _
    apply wp_ask_paired
    intro hunambiguous
    exact (hw hunambiguous.tail).send fun _ => ⟨auth, hauth, harguments⟩
  · exact fun _ _ => hw
  · exact fun f _ => abort_pairing f w

theorem pairs_sendAuthenticationRequest : Pairs P (Connection.sendAuthenticationRequest n) := by
  intro w hw
  unfold Connection.sendAuthenticationRequest
  rw [Reentrant.wp_bind, Reentrant.wp_read, Reentrant.wp_bind]
  apply wp_assert_of abort_pairing
  intro _
  rw [Reentrant.wp_bind]
  apply wp_assert_of abort_pairing
  intro _
  split
  · exact abort_pairing _ _
  · next auth hauth =>
      rw [Reentrant.wp_bind]
      apply wp_build _ _ _ (by simp)
      · intro _ request
        have hheader := request.property.1
        have hsending : IsPaired (Reentrant.World.noted w (.sending request.val)) :=
          hw.noted trivial
        rw [wp_ignore]
        apply wp_send_handshake abort_pairing
        · exact .inr (congrArg Header.topic hheader)
        · exact fun _ _ => hsending.noted trivial
        · intro s _ hout
          rw [Reentrant.wp_bind]
          apply wp_setState abort_pairing
          · exact hout.open
          · exact fun _ => wp_transmit_paired hsending request.property.2 hauth
          · intro hne
            exact wp_transmit_paired (keepsChanges_paired s _ hne hsending) request.property.2 hauth
      · exact fun _ => hw

theorem responsive_paired : Responsive pairing.contract P IsPaired n :=
  aside_paired.responsive keepsChanges_paired n (fun _ => pairs_leave trivial)
    (fun m buffer hm => pairs_handOver buffer (isRequest_eq_false (by
      rw [hm]
      exact nofun)))
    pairs_sendAuthenticationRequest

/-- A login that has just begun -/
theorem wp_login_paired {auth : Buffer} {callback : Function} {history : List Item} {w : World}
    (htrace : w.trace = .enter (.login auth callback) :: history)
    (hw : Unambiguous history → Paired history w.state) :
    wp pairing.contract P (Connection.login n auth callback) (fun _ => IsPaired)
      (fun _ => IsPaired) w := by
  unfold Connection.login
  rw [Reentrant.wp_bind, Reentrant.wp_read, wp_when]
  constructor
  · intro hopen
    rw [Reentrant.wp_bind, Reentrant.wp_modify, Reentrant.wp_bind, Reentrant.wp_read, wp_when]
    have hpaired : IsPaired { w with state := { w.state with
        loginCallback := some callback, authParams := some auth } } := by
      intro hunambiguous
      change Unambiguous w.trace at hunambiguous
      change Paired w.trace _
      rw [htrace] at hunambiguous ⊢
      exact (hw hunambiguous.tail).login hopen auth callback
    exact ⟨fun _ => pairs_sendAuthenticationRequest _ hpaired, fun _ => hpaired⟩
  · intro hopen hunambiguous
    rw [htrace] at hunambiguous ⊢
    exact (hw hunambiguous.tail).login_open (Classical.not_not.mp hopen) auth callback

/-- The login callback is invoked for a message that was noted. -/
theorem wp_authenticationAction_paired {m : MessageProxy} {c : Client} {history : List Item}
    {w : World} (htopic : m.header.topic = .auth) (haction : m.header.action = .request)
    (htrace : w.trace = .note (.dispatched m c) :: history) (hw : IsPaired w) :
    wp pairing.contract P (Connection.authenticationAction m) (fun _ => IsPaired)
      (fun _ => IsPaired) w := by
  unfold Connection.authenticationAction
  rw [haction]
  rw [Reentrant.wp_bind]
  apply wp_assert_of abort_pairing
  intro _
  rw [Reentrant.wp_bind, Reentrant.wp_read]
  split
  · exact hw
  · next callback hcallback =>
      rw [Reentrant.wp_bind]
      apply wp_lift
      · intro data _
        unfold Program.invoke
        split
        · next f =>
            apply wp_ask_paired
            intro hunambiguous
            have hpaired := hw hunambiguous.tail
            have hsince : loginSince w.trace = false := by
              rw [htrace]
              exact hunambiguous [.call (.loginCallback f data)] m c history
                (congrArg (List.cons _) htrace) htopic haction
            obtain ⟨auth, hauth, hrequest⟩ := hpaired.requested hsince
            obtain ⟨auth', hauth', hlogin⟩ := hpaired.stored _ hcallback
            rw [hauth] at hauth'
            cases hauth'
            exact hpaired.callback ⟨auth, hlogin, hrequest⟩
        · exact hw
      · exact fun _ _ => hw
      · exact fun f _ => abort_pairing f w

theorem pairs_handleMessage (m : MessageProxy) : Pairs P (Connection.handleMessage n m) := by
  by_cases hrequest : m.header.topic = .auth ∧ m.header.action = .request
  · obtain ⟨htopic, haction⟩ := hrequest
    intro w hw
    unfold Connection.handleMessage
    rw [Reentrant.wp_bind, Reentrant.wp_read, Reentrant.wp_bind, wp_leave, Reentrant.wp_bind]
    apply wp_debugMsg abort_pairing
    rw [htopic]
    unfold Connection.handleAuthenticationResponse
    rw [Reentrant.wp_bind]
    apply Reentrant.wp_mono (wp_authenticationAction_paired htopic haction rfl
      (hw.noted (n := .dispatched m w.state) trivial))
    · intro _ w' hw'
      exact responsive_paired.transition m w' hw'
    · exact fun _ _ hw' => hw'
  · apply Connection.keeps_handleMessage routine_paired responsive_paired
      socketRoutine_paired.setUri socketRoutine_paired.close m
    · exact fun htopic haction => absurd ⟨htopic, haction⟩ hrequest
    · exact fun _ => pairs_leave trivial

theorem pairs_program (e : Entry) (he : ∀ auth callback, e ≠ .login auth callback) :
    Pairs P (program n e) := by
  have hs := socketRoutine_paired (P := P)
  have hset := aside_paired.setState (P := P) keepsChanges_paired n
  cases e with
  | construct uri => exact Connection.keeps_construct routine_paired hs uri
  | onOpen => exact Connection.keeps_onOpen hs fun s _ => hset s
  | onClose => exact Connection.keeps_onClose hs (hset .closed) (hset .reconnecting)
  | onError error => exact Connection.keeps_onClose hs (hset .closed) (hset .reconnecting)
  | onMessage raw => exact Connection.keeps_onMessage routine_paired raw pairs_handleMessage
  | login auth callback => exact absurd rfl (he auth callback)
  | close => exact hs.close
  | _ => exact aside_paired.program n _ trivial

theorem pairing_sound : pairing.Sound P (program n) where
  refl _ _ := trivial
  trans _ _ _ _ _ _ := trivial
  enter w c e hcall hinv _ := by
    obtain ⟨rest, hstack⟩ := hcall.stack
    refine ⟨⟨?_, ?_⟩, trivial, rfl⟩
    · intro e' he'
      cases he'
      rfl
    · obtain ⟨hentry, hpaired⟩ := hinv
      rw [settled_eq hentry (not_inl_of_stack hstack)] at hpaired
      change Unambiguous (settled (.enter e :: w.trace)) →
        Paired (settled (.enter e :: w.trace)) w.state
      by_cases hlogin : ∃ auth callback, e = .login auth callback
      · obtain ⟨auth, callback, rfl⟩ := hlogin
        exact hpaired
      · have he : ∀ auth callback, e ≠ .login auth callback :=
          fun auth callback heq => hlogin ⟨auth, callback, heq⟩
        rw [settled_enter he]
        intro hunambiguous
        apply (hpaired hunambiguous.tail).aside
        cases e with
        | login auth callback => exact absurd rfl (he auth callback)
        | _ => trivial
  entry e w hinv hpre := by
    obtain ⟨-, hpaired⟩ := hinv
    have hprogram : wp pairing.contract P (program n e) (fun _ => IsPaired) (fun _ => IsPaired)
        w := by
      cases htrace : w.trace with
      | nil =>
          change w.trace.head? = _ at hpre
          rw [htrace] at hpre
          cases hpre
      | cons i history =>
          change w.trace.head? = _ at hpre
          rw [htrace] at hpre hpaired
          cases hpre
          by_cases hlogin : ∃ auth callback, e = .login auth callback
          · obtain ⟨auth, callback, rfl⟩ := hlogin
            exact wp_login_paired htrace hpaired
          · have he : ∀ auth callback, e ≠ .login auth callback :=
              fun auth callback heq => hlogin ⟨auth, callback, heq⟩
            apply pairs_program e he
            intro hunambiguous
            rw [htrace] at hunambiguous ⊢
            rw [settled_enter he] at hpaired
            exact hpaired hunambiguous
    have hleft : ∀ w' r, IsPaired w' → pairing.inv (pairing.background w) (w'.left e r) ∧
        pairing.rel (pairing.background w) w (w'.left e r) := by
      intro w' r hw'
      refine ⟨⟨?_, ?_⟩, trivial⟩
      · intro e' he'
        cases he'
      · have hleft : IsPaired (Reentrant.World.left w' e r) :=
          hw'.aside (i := .leave e r) trivial rfl rfl
        exact hleft
    exact Reentrant.wp_mono hprogram (fun _ w' => hleft w' _) fun x w' => hleft w' _

/-- A login callback is invoked for the credentials that were sent last, as long as nobody
logs in between a request and its acknowledgement. -/
theorem loginCallback_belongs (n : Nat) (uri : Buffer) (cfg : Reentrant.Config interface)
    (hreach : Reaches (.any interface) n uri cfg) (hrunning : cfg.fault = none)
    (hunambiguous : Unambiguous cfg.world.trace) (newer : List Item) (f : Nat) (data : Buffer)
    (older : List Item) (htrace : cfg.world.trace = newer ++ .call (.loginCallback f data) :: older) :
    Belongs older f := by
  have hstart : Paired [] {} :=
    ⟨rfl, nofun, nofun, fun newer _ _ _ h => absurd h (by cases newer <;> exact nofun)⟩
  have hconstruct : Paired [.enter (.construct uri)] {} := hstart.aside trivial
  have hmain : pairing.inv false (Reentrant.World.entered { state := {} } (.construct uri)) :=
    ⟨by rintro e ⟨⟩; rfl, fun _ => hconstruct⟩
  have hholds := pairing_sound.holds ⟨nofun, fun _ => hstart⟩ ⟨hmain, rfl⟩ hreach
  have hinv : IsPaired cfg.world := by
    unfold Regime.Holds at hholds
    rw [hrunning] at hholds
    cases hholds.2 with
    | inl h =>
        obtain ⟨hstack, hentry, hpaired⟩ := h
        rwa [settled_eq hentry (by rw [hstack]; exact nofun)] at hpaired
    | inr h =>
        obtain ⟨c, rest, hstack, hentry, hpaired⟩ := h
        rwa [settled_eq hentry (not_inl_of_stack hstack)] at hpaired
  exact (hinv hunambiguous).invoked newer f data older htrace

end Handlers
end Programs

/-- The last thing that happened is that a login callback was invoked. -/
def invokesCallback : List Item → Bool
  | .call (.loginCallback _ _) :: _ => true
  | _ => false

theorem exists_of_invokesCallback {history : List Item} (h : invokesCallback history = true) :
    ∃ f data older, history = .call (.loginCallback f data) :: older := by
  unfold invokesCallback at h
  split at h
  · exact ⟨_, _, _, rfl⟩
  · cases h

/-- The callback of the only login is invoked for the credentials of that login. -/
theorem loginCallback_belongs_loggedIn : ∃ f data older,
    (@after release 9 [] (challenged ++ [.enter (.login (bytes "{}") (some 0)), accept,
      receive "A|A+"])).world.trace = .call (.loginCallback f data) :: older ∧ Belongs older f := by
  let _ : Build := release
  have hreach := reaches_after 9 [] (challenged ++ [.enter (.login (bytes "{}") (some 0)), accept,
    receive "A|A+"])
  have hrunning : (after 9 [] (challenged ++ [.enter (.login (bytes "{}") (some 0)), accept,
    receive "A|A+"])).fault = none := by decide +kernel
  have hunambiguous : Unambiguous (after 9 [] (challenged ++
    [.enter (.login (bytes "{}") (some 0)), accept, receive "A|A+"])).world.trace := by
    decide +kernel
  have hinvokes : invokesCallback (after 9 [] (challenged ++
    [.enter (.login (bytes "{}") (some 0)), accept, receive "A|A+"])).world.trace = true := by
    decide +kernel
  generalize after 9 [] _ = cfg at *
  obtain ⟨f, data, older, htrace⟩ := exists_of_invokesCallback hinvokes
  exact ⟨f, data, older, htrace, loginCallback_belongs 9 [] cfg hreach hrunning hunambiguous [] f
    data older htrace⟩

/-- An acknowledgement of a login was handled while the client authenticated. -/
def Pairing.authenticates : Item → Bool
  | .note (.dispatched m c) => m.header.topic = .auth → m.header.action = .request →
      c.state = .authenticating
  | _ => true

/-- A second login before the acknowledgement takes over the callback, not the request. -/
theorem secondLogin_not_belongs : let _ : Build := release
    ¬∀ cfg : Reentrant.Config interface, Reaches (.any interface) 9 [] cfg →
      (∀ m c, .note (.dispatched m c) ∈ cfg.world.trace → m.header.topic = .auth →
        m.header.action = .request → c.state = .authenticating) →
      ∀ newer f data older, cfg.world.trace = newer ++ .call (.loginCallback f data) :: older →
        Belongs older f := by
  intro _ hclaim
  let cfg := after 9 [] (challenged ++ [.enter (.login (bytes "a") (some 0)), accept,
    .enter (.login (bytes "b") (some 1)), receive "A|A+"])
  have hreach : Reaches (.any interface) 9 [] cfg := reaches_after 9 [] _
  have hauthenticating : cfg.world.trace.all Pairing.authenticates = true := by decide +kernel
  have hinvokes : invokesCallback cfg.world.trace = true := by decide +kernel
  have hauth : (lastLogin cfg.world.trace).map (fun p => some [p.1]) ≠
      some (lastRequest cfg.world.trace) := by
    decide +kernel
  clear_value cfg
  obtain ⟨f, data, older, htrace⟩ := exists_of_invokesCallback hinvokes
  have hbelongs := hclaim cfg hreach (fun m c hmem => by
    have h := List.all_eq_true.mp hauthenticating _ hmem
    exact of_decide_eq_true h) [] f data older htrace
  obtain ⟨auth, hlogin, hrequest⟩ := hbelongs
  rw [htrace] at hauth
  change (lastLogin older).map _ ≠ some (lastRequest older) at hauth
  rw [hlogin, hrequest] at hauth
  exact hauth rfl

end Deepstream
