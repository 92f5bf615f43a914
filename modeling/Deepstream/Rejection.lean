import Deepstream.Client.Aside
import Deepstream.Client.Socket

/-!
What becomes of a connection whose login is rejected.

The client closes the socket, whose handler reports the end of the connection at
once. The state is `CLOSED` then, but the transition for the message that was
handled comes after that, and it finds the message forbidden.
-/

namespace Deepstream

open Reentrant (Activity Keeps Policy Prog Regime wp)

/-- Messages of the server on which the client closes the socket -/
def MessageProxy.Rejects (m : MessageProxy) : Prop :=
  m.header.topic = .auth ∧ (m.header.action = .errorTooManyAuthAttempts ∨
    m.header.action = .errorInvalidAuthData ∨ m.header.action = .errorInvalidAuthMsg)

/-- `ERROR` was not entered in a part of a history, and the error handler returned. -/
structure Calm (t : List Item) : Prop where
  state : ∀ c, .note (.became c) ∈ t → c.state ≠ .error
  errorHandler : ∀ r text x, .back (.errorHandler r text) (.error x) ∉ t

/-- After every rejection `ERROR` was entered, or the error handler raised. -/
def Resolved (t : List Item) : Prop :=
  ∀ newer m c older, t = newer ++ .note (.dispatched m c) :: older → m.Rejects → ¬Calm newer

theorem Calm.mono {t t' : List Item} (h : Calm t') (hsub : ∀ i ∈ t, i ∈ t') : Calm t where
  state c hc := h.state c (hsub _ hc)
  errorHandler r text x hx := h.errorHandler r text x (hsub _ hx)

theorem Resolved.append {t t' : List Item} (h : Resolved t) (h' : Resolved t') :
    Resolved (t' ++ t) := by
  intro newer m c older heq hrejects hcalm
  obtain ⟨u, rfl, hu⟩ | ⟨u, rfl, hu⟩ := List.append_eq_append_iff.mp heq
  · exact h u m c older hu hrejects (hcalm.mono fun i hi => List.mem_append_right _ hi)
  · cases u with
    | nil =>
        rw [List.nil_append] at hu
        rw [List.append_nil] at heq
        exact h [] m c older hu.symm hrejects (hcalm.mono fun i hi => absurd hi List.not_mem_nil)
    | cons i u =>
        obtain ⟨rfl, rfl⟩ := List.cons.inj hu
        exact h' newer m c u rfl hrejects hcalm

theorem resolved_nil : Resolved [] :=
  fun newer _ _ _ h => by cases newer <;> cases h

theorem Resolved.cons {t : List Item} (h : Resolved t) {i : Item}
    (hi : ∀ m c, i = .note (.dispatched m c) → ¬m.Rejects) : Resolved (i :: t) := by
  intro newer m c older heq hrejects hcalm
  cases newer with
  | nil => exact hi m c (List.cons.inj heq).1 hrejects
  | cons _ newer =>
      exact h newer m c older (List.cons.inj heq).2 hrejects
        (hcalm.mono fun i hi => List.mem_cons_of_mem _ hi)

/-- A rejection after which `ERROR` was entered -/
theorem Resolved.rejection {t t' : List Item} (h' : Resolved t') (herror : ¬Calm t')
    (i : Item) : Resolved (t' ++ i :: t) := by
  intro newer m c older heq hrejects hcalm
  obtain ⟨u, rfl, hu⟩ | ⟨u, rfl, hu⟩ := List.append_eq_append_iff.mp heq
  · exact herror (hcalm.mono fun i hi => List.mem_append_left _ hi)
  · cases u with
    | nil => exact herror (hcalm.mono (by simp))
    | cons j u =>
        obtain ⟨rfl, -⟩ := List.cons.inj hu
        exact h' newer m c u rfl hrejects hcalm

/-- What happened between two worlds: rejections were resolved, and if the state is `ERROR`,
then this is seen in the history. -/
structure Continues (w w' : World) : Prop where
  trace : ∃ t, w'.trace = t ++ w.trace ∧ Resolved t ∧
    (w'.state.state = .error → w.state.state = .error ∨ ¬Calm t)

theorem Continues.refl (w : World) : Continues w w :=
  ⟨[], rfl, resolved_nil, .inl⟩

theorem Continues.trans {w w' w'' : World} (h : Continues w w') (h' : Continues w' w'') :
    Continues w w'' := by
  obtain ⟨t, ht, hresolved, herror⟩ := h.trace
  obtain ⟨t', ht', hresolved', herror'⟩ := h'.trace
  refine ⟨t' ++ t, by rw [ht', ht, List.append_assoc], hresolved.append hresolved', ?_⟩
  intro hstate
  have hmem : ∀ u, (u = t ∨ u = t') → ¬Calm u → ¬Calm (t' ++ t) := by
    rintro u (rfl | rfl) hu hcalm
    · exact hu (hcalm.mono fun i hi => List.mem_append_right _ hi)
    · exact hu (hcalm.mono fun i hi => List.mem_append_left _ hi)
  cases herror' hstate with
  | inl hmiddle => exact (herror hmiddle).imp id (hmem t (.inl rfl))
  | inr hentered => exact .inr (hmem t' (.inr rfl) hentered)

/-- An item that neither rejects a login nor stands for a change of state -/
theorem Continues.cons {w w' w'' : World} (h : Continues w w') {i : Item}
    (hi : ∀ m c, i = .note (.dispatched m c) → ¬m.Rejects) (htrace : w''.trace = i :: w'.trace)
    (hstate : w''.state.state = w'.state.state) : Continues w w'' := by
  apply h.trans
  exact ⟨[i], htrace, resolved_nil.cons hi, fun herror => .inl (hstate ▸ herror)⟩

theorem Continues.became {w w' : World} (h : Continues w w') (s : ConnectionState) :
    Continues w (Reentrant.World.noted { w' with state := { w'.state with state := s } }
      (.became { w'.state with state := s })) := by
  apply h.trans
  refine ⟨[.note (.became { w'.state with state := s })], rfl, ?_, ?_⟩
  · apply resolved_nil.cons
    rintro _ _ ⟨⟩
  · intro herror
    exact .inr fun hcalm => hcalm.state _ (List.mem_singleton_self _) herror

/-- `ERROR` was entered between two worlds, or the error handler raised. -/
def Errs (w w' : World) : Prop :=
  ∃ t, w'.trace = t ++ w.trace ∧ Resolved t ∧ ¬Calm t

theorem Errs.after {w w' w'' : World} (h : Errs w' w'') (hbefore : Continues w w') :
    Errs w w'' := by
  obtain ⟨t, ht, hresolved, herror⟩ := h
  obtain ⟨t', ht', hresolved', -⟩ := hbefore.trace
  refine ⟨t ++ t', by rw [ht, ht', List.append_assoc], hresolved'.append hresolved, ?_⟩
  exact fun hcalm => herror (hcalm.mono fun i hi => List.mem_append_left _ hi)

/-- At a call to close the socket, the state is `CLOSED` once the end was reported. -/
def closing : Regime interface where
  quiet
    | .wsClose => true
    | _ => false
  inv
    | true, w => w.state.deliberateClose = true ∧
        ((justEnded w).isSome = true → w.state.state = .closed)
    | false, _ => True
  rel _ := Continues
  pre e w := match w.stack with
    | _ :: .inr .wsClose :: _ => e = .onClose
    | _ => True
  abort _ _ := True

section Programs
variable {α : Type} {first : World}

/-- A program resolves the rejections it is given. -/
abbrev Resolves (first : World) (p : Program α) : Prop :=
  Keeps closing.contract synchronousClose (Continues first) p

theorem resolves_modify {f : Client → Client} (hf : ∀ c, (f c).state = c.state) :
    Resolves first (Prog.modify f) := by
  apply Reentrant.keeps_modify
  intro w hw
  apply hw.trans
  exact ⟨[], rfl, resolved_nil, fun herror => .inl (hf w.state ▸ herror)⟩

theorem resolves_leave {n : Note} (hn : ∀ m c, n = .dispatched m c → ¬m.Rejects) :
    Resolves first (Program.leave n) := by
  apply Reentrant.keeps_leave
  intro w hw
  exact hw.cons (fun m c heq => hn m c (by cases heq; rfl)) rfl rfl

/-- A call during which anything may happen -/
theorem resolves_ask {c : Call} (hc : closing.quiet c = false) :
    Resolves first (Program.ask c) := by
  apply Reentrant.keeps_ask
  · intro w _
    change closing.inv (closing.quiet c) _ ∧ _
    rw [hc]
    exact ⟨trivial, _, rfl⟩
  · intro w w' r hw _ hafter _
    have hcall : Continues first (Reentrant.World.calling w c) :=
      hw.cons (i := .call c) (by rintro _ _ ⟨⟩) rfl rfl
    exact (hcall.trans hafter.2).cons (i := .back c r) (by rintro _ _ ⟨⟩) rfl rfl

/-- Closing the socket closes the connection. -/
theorem wp_close {Q : Unit → World → Prop} {E : Exception → World → Prop} {w : World}
    (hQ : ∀ w', Continues w w' → w'.state.state = .closed → Q () w') :
    wp closing.contract synchronousClose Connection.close Q E w := by
  unfold Connection.close
  rw [Reentrant.wp_bind, Reentrant.wp_modify]
  apply Reentrant.wp_ask
  · exact ⟨⟨rfl, nofun⟩, _, rfl⟩
  · intro w' _ hafter
    obtain ⟨⟨-, hclosed⟩, hcontinues⟩ := hafter
    refine ⟨fun a hback => ?_, fun x hback => nomatch hback.2⟩
    apply hQ
    · have hcall : Continues w (Reentrant.World.calling
          { w with state := { w.state with deliberateClose := true } } .wsClose) :=
        (Continues.refl w).cons (i := .call .wsClose) (by rintro _ _ ⟨⟩) rfl rfl
      exact (hcall.trans hcontinues).cons (i := .back .wsClose (.ok a)) (by rintro _ _ ⟨⟩) rfl rfl
    · exact hclosed hback.1

theorem resolves_close : Resolves first Connection.close :=
  fun _ hw => wp_close fun _ hw' _ => hw.trans hw'

theorem aside_resolves : Aside closing.contract synchronousClose (Continues first) where
  routine := {
    abort := fun _ _ _ => trivial
    ask := fun c hc => resolves_ask (by cases c <;> first | rfl | cases hc)
    nextId := Reentrant.keeps_read_bind fun _ =>
      Reentrant.keeps_bind (resolves_modify fun _ => rfl) fun _ => Reentrant.keeps_pure _ }
  modifyEvent _ := resolves_modify fun _ => rfl
  modifyPresence _ := resolves_modify fun _ => rfl
  queryFn _ _ := resolves_ask rfl
  emitted _ := resolves_leave (by rintro _ _ ⟨⟩)
  sending _ := resolves_leave (by rintro _ _ ⟨⟩)
  handEvent _ _ w _ _ := resolves_ask rfl w
  handPresence _ _ w _ _ := resolves_ask rfl w

theorem socketRoutine_resolves :
    SocketRoutine closing.contract synchronousClose (Continues first) where
  setUri _ := resolves_ask rfl
  wsOpen := resolves_ask rfl
  close := resolves_close
  attempt _ := resolves_modify fun _ => rfl

theorem keepsChanges_continues : KeepsChanges (Continues first) :=
  fun s _ _ hw => hw.became s

section Handlers
variable [Build] {n : Nat} {m : MessageProxy}

theorem responsive_resolves : Responsive closing.contract synchronousClose (Continues first) n :=
  aside_resolves.responsive keepsChanges_continues n
    (fun _ => resolves_leave (by rintro _ _ ⟨⟩)) (fun _ _ _ => resolves_ask rfl)
    (Connection.keeps_sendAuthenticationRequest aside_resolves.routine fun m hm =>
      aside_resolves.routine.sendHandshake aside_resolves.sending m (.inr hm)
        (resolves_leave (by rintro _ _ ⟨⟩))
        (fun s w _ => aside_resolves.setState keepsChanges_continues n s w) fun _ => resolves_ask rfl)

theorem wp_report_calm {r : Report} {Q : Unit → World → Prop} {E : Exception → World → Prop}
    {w : World} (hQ : ∀ w', Continues w w' → Q () w') (hE : ∀ x w', Errs w w' → E x w') :
    wp closing.contract synchronousClose (Program.report r) Q E w := by
  apply wp_report (fun _ _ => trivial)
  intro text
  have hresolves : Resolves w (Program.ask (.errorHandler r text)) := resolves_ask rfl
  have hasked := hresolves w (.refl w)
  refine ⟨hasked.1, fun w' result hlater hafter hback => ?_⟩
  have hcontinues := hasked.2 w' result hlater hafter hback
  cases result with
  | ok a => exact hQ _ hcontinues
  | error x =>
      have hcall : Continues w (Reentrant.World.calling w (.errorHandler r text)) :=
        (Continues.refl w).cons (i := .call _) (by rintro _ _ ⟨⟩) rfl rfl
      obtain ⟨t, ht, hresolved, -⟩ := (hcall.trans hafter.2).trace
      refine hE x _ ⟨.back (.errorHandler r text) (.error x) :: t, congrArg (List.cons _) ht,
        hresolved.cons (by rintro _ _ ⟨⟩), ?_⟩
      exact fun hcalm => hcalm.errorHandler r text x (List.mem_cons_self ..)

/-- In `CLOSED` every message about authentication is forbidden. -/
theorem wp_transition_closed (htopic : m.header.topic = .auth) {Q : Unit → World → Prop}
    {E : Exception → World → Prop} {w : World} (hclosed : w.state.state = .closed)
    (hQ : ∀ w', Errs w w' → Q () w') (hE : ∀ x w', Errs w w' → E x w') :
    wp closing.contract synchronousClose (Connection.transition n m) Q E w := by
  unfold Connection.transition
  rw [Reentrant.wp_bind, Reentrant.wp_read, Reentrant.wp_bind]
  apply wp_lift_asserts (fun _ _ => trivial) (onlyAsserts_transitionIncoming _ _)
  intro s hs
  have herror : s = .error := by
    cases (transitionIncoming_eq_ok hs).2 with
    | inl hin =>
        have hauth : m.view.header.topic = .auth := htopic
        rw [hclosed, hauth] at hin
        cases hin
    | inr h => exact h.1
  rw [Reentrant.wp_bind, wp_when]
  refine ⟨fun _ => ?_, fun hne => absurd herror hne⟩
  apply wp_report_calm _ hE
  intro w' hw'
  rw [herror]
  apply wp_setState (fun _ _ => trivial)
  · exact nofun
  · intro heq
    obtain ⟨t, ht, hresolved, hentered⟩ := hw'.trace
    refine hQ _ ⟨t, ht, hresolved, (hentered heq.symm).resolve_left ?_⟩
    rw [hclosed]
    exact nofun
  · intro _
    obtain ⟨t, ht, hresolved, -⟩ := hw'.trace
    refine hQ _ ⟨.note (.became _) :: t, congrArg (List.cons _) ht,
      hresolved.cons (by rintro _ _ ⟨⟩), ?_⟩
    exact fun hcalm => hcalm.state _ (List.mem_cons_self ..) rfl

/-- The handling of a rejection -/
theorem wp_handleAuthenticationResponse_rejects (hrejects : m.Rejects) {w : World} :
    wp closing.contract synchronousClose (Connection.handleAuthenticationResponse n m)
      (fun _ w' => Errs w w') (fun _ w' => Errs w w') w := by
  have hclose : ∀ w₁ : World, Continues w w₁ →
      wp closing.contract synchronousClose Connection.close
        (fun _ => wp closing.contract synchronousClose (Connection.transition n m)
          (fun _ w' => Errs w w') (fun _ w' => Errs w w')) (fun _ w' => Errs w w') w₁ := by
    intro w₁ hw₁
    apply wp_close
    intro w₂ hw₂ hclosed
    apply wp_transition_closed hrejects.1 hclosed
    · exact fun w' hw' => hw'.after (hw₁.trans hw₂)
    · exact fun x w' hw' => hw'.after (hw₁.trans hw₂)
  unfold Connection.handleAuthenticationResponse Connection.authenticationAction
  rw [Reentrant.wp_bind]
  obtain haction | haction | haction := hrejects.2
  · rw [haction, Reentrant.wp_bind]
    exact wp_report_calm hclose fun _ _ hw' => hw'
  · rw [haction, Reentrant.wp_bind]
    exact wp_report_calm hclose fun _ _ hw' => hw'
  · rw [haction, Reentrant.wp_bind]
    exact wp_report_calm hclose fun _ _ hw' => hw'

theorem resolves_handleMessage (m : MessageProxy) :
    Resolves first (Connection.handleMessage n m) := by
  by_cases hrejects : m.Rejects
  · intro w hw
    unfold Connection.handleMessage
    rw [Reentrant.wp_bind, Reentrant.wp_read, Reentrant.wp_bind, wp_leave, Reentrant.wp_bind]
    apply wp_debugMsg (fun _ _ => trivial)
    rw [hrejects.1]
    have herrs : ∀ w' : World, Errs (w.noted (.dispatched m w.state)) w' →
        Continues first w' := by
      rintro w' ⟨t, ht, hresolved, herror⟩
      obtain ⟨t', ht', -, -⟩ := hw.trace
      refine ⟨t ++ .note (.dispatched m w.state) :: t', ?_, hresolved.rejection herror _,
        fun _ => .inr fun hcalm => ?_⟩
      · rw [ht, List.append_assoc, List.cons_append, ← ht']
        rfl
      · exact herror (hcalm.mono fun i hi => List.mem_append_left _ hi)
    apply Reentrant.wp_mono (wp_handleAuthenticationResponse_rejects hrejects)
    · exact fun _ w' hw' => herrs w' hw'
    · exact fun _ w' hw' => herrs w' hw'
  · apply Connection.keeps_handleMessage aside_resolves.routine responsive_resolves
      socketRoutine_resolves.setUri socketRoutine_resolves.close m
    · exact fun _ _ _ _ => resolves_ask rfl
    · intro c
      apply resolves_leave
      rintro _ _ ⟨⟩
      exact hrejects

theorem resolves_program (e : Entry) : Resolves first (program n e) := by
  have haside : Aside closing.contract synchronousClose (Continues first) := aside_resolves
  have hs : SocketRoutine closing.contract synchronousClose (Continues first) :=
    socketRoutine_resolves
  have hn : Responsive closing.contract synchronousClose (Continues first) n := responsive_resolves
  by_cases he : e.IsAside
  · exact haside.program n e he
  · apply Connection.keeps_program haside.routine hs hn.toHandshakes
    · exact fun s _ => haside.setState keepsChanges_continues n s
    · exact resolves_handleMessage
    · exact fun _ _ => resolves_modify fun _ => rfl
    · exact he

/-- The end of a connection that was asked for closes it. -/
theorem wp_onClose_deliberate {w : World} (hdeliberate : w.state.deliberateClose = true)
    {Q : Unit → World → Prop} {E : Exception → World → Prop}
    (hQ : ∀ w' : World, w'.state.deliberateClose = true → w'.state.state = .closed →
      Continues w w' → Q () w') :
    wp closing.contract synchronousClose (Connection.onClose n) Q E w := by
  unfold Connection.onClose
  rw [Reentrant.wp_bind, Reentrant.wp_read, if_pos (.inl hdeliberate)]
  apply wp_setState (fun _ _ => trivial)
  · exact nofun
  · exact fun heq => hQ w hdeliberate heq.symm (.refl w)
  · exact fun _ => hQ _ hdeliberate rfl ((Continues.refl w).became .closed)

theorem closing_sound : closing.Sound synchronousClose (program n) where
  refl _ w := .refl w
  trans _ _ _ _ h h' := h.trans h'
  enter w c e hcall hinv hpermit := by
    obtain ⟨rest, hstack⟩ := hcall.stack
    have hcontinues : Continues w (w.entered e) :=
      (Continues.refl w).cons (i := .enter e) (by rintro _ _ ⟨⟩) rfl rfl
    have hinnermost := innermost_of_stack hstack
    unfold synchronousClose at hpermit
    dsimp only at hpermit
    rw [hinnermost] at hpermit
    refine ⟨?_, hcontinues, ?_⟩
    · cases c with
      | wsClose => exact ⟨hinv.1, nofun⟩
      | _ => trivial
    · unfold closing
      dsimp only [Reentrant.World.entered]
      rw [hstack]
      cases c with
      | wsClose => exact hpermit
      | _ => trivial
  entry e w hinv hpre := by
    have hleft : ∀ w' r, Continues w w' → Continues w (w'.left e r) := fun w' r hw' =>
      hw'.cons (i := .leave e r) (by rintro _ _ ⟨⟩) rfl rfl
    cases hbackground : closing.background w with
    | false =>
        apply Reentrant.wp_mono (resolves_program e w (.refl w))
        · exact fun _ w' hw' => ⟨trivial, hleft w' _ hw'⟩
        · exact fun x w' hw' => ⟨trivial, hleft w' _ hw'⟩
    | true =>
        rw [hbackground] at hinv
        have he : e = .onClose := by
          unfold Regime.background at hbackground
          split at hbackground
          · next c rest hstack =>
              unfold closing at hpre
              dsimp only at hpre
              rw [hstack] at hpre
              cases c with
              | wsClose => exact hpre
              | _ => cases hbackground
          · cases hbackground
        subst he
        apply wp_onClose_deliberate hinv.1
        exact fun w' hdeliberate hclosed hw' => ⟨⟨hdeliberate, fun _ => hclosed⟩, hleft w' _ hw'⟩

/-- After every rejection the connection comes to `ERROR`, although it was closed. -/
theorem rejection_errs (n : Nat) (uri : Buffer) (cfg now : Reentrant.Config interface)
    (hreach : Reaches synchronousClose n uri cfg) (raw : Buffer)
    (hactivity : Activity synchronousClose (program n) cfg (.onMessage raw) now)
    (hended : cfg.Ended now) (newer : List Item) (m : MessageProxy) (c : Client)
    (older : List Item) (hsince : cfg.since now = newer ++ .note (.dispatched m c) :: older)
    (hrejects : m.Rejects)
    (hreturns : ∀ r text x, .back (.errorHandler r text) (.error x) ∉ newer) :
    ∃ c, .note (.became c) ∈ newer ∧ c.state = .error := by
  have hrel := (closing_sound.ended trivial ⟨trivial, trivial⟩ hreach hactivity hended).2
  obtain ⟨t, ht, hresolved, -⟩ := hrel.trace
  have ht' : now.world.trace = (t ++ [.enter (.onMessage raw)]) ++ cfg.world.trace := by
    rw [ht, List.append_assoc]
    rfl
  rw [Reentrant.Config.since_eq ht'] at hsince
  have hentered : Resolved [.enter (.onMessage raw)] := resolved_nil.cons (by rintro _ _ ⟨⟩)
  by_contra hnever
  refine (hentered.append hresolved) newer m c older hsince hrejects ⟨fun c hc herror => ?_, hreturns⟩
  exact hnever ⟨c, hc, herror⟩

end Handlers
end Programs

instance (m : MessageProxy) : Decidable m.Rejects :=
  inferInstanceAs (Decidable (_ ∧ _))

def Rejection.isDispatched : Item → Bool
  | .note (.dispatched m _) => m.Rejects
  | _ => false

def Rejection.handlerRaises : Item → Bool
  | .back (.errorHandler _ _) (.error _) => true
  | _ => false

open Rejection in
theorem exists_rejection {t : List Item} (h : t.any isDispatched = true)
    (hreturns : t.any handlerRaises = false) :
    ∃ newer m c older, t = newer ++ .note (.dispatched m c) :: older ∧ m.Rejects ∧
      ∀ r text x, .back (.errorHandler r text) (.error x) ∉ newer := by
  obtain ⟨i, hmem, hi⟩ := List.any_eq_true.mp h
  obtain ⟨newer, older, rfl⟩ := List.append_of_mem hmem
  unfold isDispatched at hi
  split at hi
  · next m c =>
      refine ⟨newer, m, c, older, rfl, of_decide_eq_true hi, fun r text x hx => ?_⟩
      exact List.any_eq_false.mp hreturns _ (List.mem_append_left _ hx) rfl
  · cases hi

/-- A login that was sent and not answered yet -/
def awaitingAnswer : List (Reentrant.Move interface) :=
  challenged ++ [.enter (.login (bytes "{}") (some 0)), accept]

def invalidAuthData : Buffer :=
  fromHumanReadable (bytes "A|E|INVALID_AUTH_DATA|x+")

/-- The rejection is reported, the socket is closed and says so, and the transition is
reported. -/
def rejected : List (Reentrant.Move interface) :=
  [accept, .enter .onClose, accept, accept]

section
variable [Build]

/-- The configuration before a rejection arrives, and after it was handled -/
def beforeRejection : Reentrant.Config interface :=
  after 9 [] awaitingAnswer

def afterRejection : Reentrant.Config interface :=
  rejected.foldl (Reentrant.next (program 9))
    (Reentrant.next (program 9) beforeRejection (.enter (.onMessage invalidAuthData)))

end

theorem activity_rejection : let _ : Build := release
    Reaches synchronousClose 9 [] beforeRejection ∧
      Activity synchronousClose (program 9) beforeRejection (.onMessage invalidAuthData)
        afterRejection ∧
      beforeRejection.Ended afterRejection := by
  intro _
  refine ⟨?_, ?_, ?_⟩
  · apply Reentrant.reachable_run
    decide +kernel
  · refine Activity.moves _ _ (Activity.enter ?_ ?_ ?_) ?_
    · decide +kernel
    · decide +kernel
    · decide +kernel
    · decide +kernel
  · exact ⟨by decide +kernel, by decide +kernel⟩

theorem rejection_errs_invalidAuthData : let _ : Build := release
    ∃ cfg now, Reaches synchronousClose 9 [] cfg ∧
      Activity synchronousClose (program 9) cfg (.onMessage invalidAuthData) now ∧
      cfg.Ended now ∧ ∃ c, .note (.became c) ∈ cfg.since now ∧ c.state = .error := by
  intro _
  obtain ⟨hreach, hactivity, hended⟩ := activity_rejection
  have hdispatched : (beforeRejection.since afterRejection).any Rejection.isDispatched = true := by
    decide +kernel
  have hreturns : (beforeRejection.since afterRejection).any Rejection.handlerRaises = false := by
    decide +kernel
  generalize beforeRejection = cfg at *
  generalize afterRejection = now at *
  obtain ⟨newer, m, c, older, hsince, hrejects, hreturns⟩ :=
    exists_rejection hdispatched hreturns
  obtain ⟨c', hmem, herror⟩ := rejection_errs 9 [] cfg now hreach invalidAuthData hactivity hended
    newer m c older hsince hrejects hreturns
  exact ⟨cfg, now, hreach, hactivity, hended, c', hsince ▸ List.mem_append_left _ hmem, herror⟩

/-- The connection is not `CLOSED` once a rejection was handled. -/
theorem rejection_not_closed : let _ : Build := release
    ¬∀ cfg : Reentrant.Config interface, Reaches synchronousClose 9 [] cfg →
      cfg.world.state.state ≠ .error →
      ∀ raw now, Activity synchronousClose (program 9) cfg (.onMessage raw) now →
        cfg.Ended now →
        (∃ m c, .note (.dispatched m c) ∈ cfg.since now ∧ m.Rejects) →
        now.world.state.state = .closed := by
  intro _ hclaim
  obtain ⟨hreach, hactivity, hended⟩ := activity_rejection
  have hstate : beforeRejection.world.state.state ≠ .error := by decide +kernel
  have hstate' : afterRejection.world.state.state ≠ .closed := by decide +kernel
  have hdispatched : (beforeRejection.since afterRejection).any Rejection.isDispatched = true := by
    decide +kernel
  have hreturns : (beforeRejection.since afterRejection).any Rejection.handlerRaises = false := by
    decide +kernel
  generalize beforeRejection = cfg at *
  generalize afterRejection = now at *
  obtain ⟨newer, m, c, older, hsince, hrejects, -⟩ := exists_rejection hdispatched hreturns
  apply hstate'
  apply hclaim cfg hreach hstate invalidAuthData now hactivity hended
  exact ⟨m, c, hsince ▸ List.mem_append_right _ (List.mem_cons_self ..), hrejects⟩

end Deepstream
