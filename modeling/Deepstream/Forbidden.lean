import Deepstream.Client.Rules
import Deepstream.Client.Runs
import Deepstream.RoundTrip

/-!
Messages that are forbidden in the current state.

The transition of a forbidden message leads to `ERROR`, but the action of the
message is carried out all the same. The environment may do whatever it likes to
the client while the handler of errors runs, so the statements are about the
calls that the handling of one message makes itself; where the client is left
alone meanwhile, they say how the handling ends as well.
-/

namespace Deepstream

open Reentrant (Contract Policy Prog wp)

/-- Calls through which a message has an effect outside of the client -/
def Call.IsEffect : Call → Bool
  | .wsSend _ _ | .loginCallback _ _ | .setUri _ | .wsOpen => true
  | _ => false

/-- No call is an effect. The environment may do anything to the client at a call, except
that reading the address of the socket changes nothing; a calm environment leaves the client
alone, or closes the connection when it is asked to, and `fails` holds where the program is
ended by an assertion. -/
def reporting (calm : Prop) (fails : World → Prop) : Contract interface where
  outside _ := True
  before c _ := c.IsEffect = false
  after c w w' := (c = .uri → w'.state = w.state) ∧
    (calm → w'.state = w.state ∨ c = .wsClose ∧ w'.state = { w.state with state := .closed })
  pre _ _ := True
  post _ _ _ := True
  abort _ w := calm → fails w

/-- In a calm environment calls do not raise exceptions. -/
def returning (calm : Prop) : Policy interface where
  enter _ _ := True
  back _ _ r := calm → ∃ a, r = .ok a

/-- A program that only reports until its end; in a calm environment an exception is not that
of an empty callback, and `fails` holds when it is thrown. -/
abbrev Reporting {α : Type} (calm : Prop) (fails : World → Prop) (p : Program α)
    (Q : α → World → Prop) (w : World) : Prop :=
  wp (reporting calm fails) (returning calm) p Q
    (fun x w' => calm → x ≠ .badFunctionCall ∧ fails w') w

section Forbidden
variable [Build]

/-- The handling of a message hands nothing to the socket, neither invokes the login callback
nor changes the address, and opens nothing. In a calm environment it ends in `ERROR`, or
`fails` holds where it is ended by an exception or an assertion. -/
def Reports (fails : World → Prop) (n : Nat) (m : MessageProxy) (w : World) : Prop :=
  ∀ calm : Prop, Reporting calm fails (Connection.handleMessage n m)
    (fun _ w' => calm → w'.state.state = .error) w

/-- However the handling ends, it has entered `ERROR`. -/
def OnlyReports : Nat → MessageProxy → World → Prop :=
  Reports fun w' => w'.state.state = .error

/-- The handling returns, and has entered `ERROR`. -/
def ReportsAndReturns : Nat → MessageProxy → World → Prop :=
  Reports fun _ => False

/-- A redirection with an address, or the answer to a request for authentication while a login
callback is stored, which may be empty, or one that fails its assertion -/
def Acts (m : MessageProxy) (c : Client) : Prop :=
  (m.header.topic = .connection ∧ m.header.action = .redirect ∧ 1 ≤ m.numArguments) ∨
    (m.header.topic = .auth ∧ m.header.action = .request ∧
      (c.loginCallback ≠ none ∨ Build.asserts = true ∧ m.header.isAck = false))

/-- A message that the client replies to -/
def IsAnswered (m : MessageProxy) (c : Client) : Prop :=
  m.header.topic = .connection ∧
    (m.header.action = .ping ∨ m.header.action = .challenge ∨
      m.header.action = .challengeResponse ∧ c.authParams ≠ none)

variable {calm : Prop} {fails : World → Prop} {n : Nat} {m : MessageProxy}

omit [Build] in
theorem abort_reporting (hcalm : ¬calm) (f : Failure) (w : World) :
    (reporting calm fails).abort f w :=
  fun h => absurd h hcalm

/-- After a report nothing is known, except in a calm environment. -/
theorem reporting_report {r : Report} (hr : ∃ text, r.text = .ok text) {Q : Unit → World → Prop}
    {w : World} (hQ : ∀ w', (calm → w'.state = w.state) → Q () w') :
    Reporting calm fails (Program.report r) Q w := by
  obtain ⟨text, htext⟩ := hr
  unfold Program.report
  rw [Reporting, Reentrant.wp_bind, htext, wp_lift_ok]
  apply Reentrant.wp_ask
  · rfl
  · intro w' _ hafter
    refine ⟨fun _ _ => hQ _ fun hcalm => ?_, fun x hback hcalm => ?_⟩
    · cases hafter.2 hcalm with
      | inl hstate => exact hstate
      | inr hclose => cases hclose.1
    · obtain ⟨_, heq⟩ := hback hcalm
      cases heq

omit [Build] in
theorem reporting_close {Q : Unit → World → Prop} {w : World}
    (hQ : ∀ w', (calm → w'.state.state = w.state.state ∨ w'.state.state = .closed) → Q () w') :
    Reporting calm fails Connection.close Q w := by
  unfold Connection.close Reporting
  rw [Reentrant.wp_bind, Reentrant.wp_modify]
  apply Reentrant.wp_ask
  · rfl
  · intro w' _ hafter
    refine ⟨fun _ _ => hQ _ fun hcalm => ?_, fun x hback hcalm => ?_⟩
    · change w'.state.state = w.state.state ∨ w'.state.state = .closed
      cases hafter.2 hcalm with
      | inl hstate =>
          rw [hstate]
          exact .inl rfl
      | inr hclose =>
          rw [hclose.2]
          exact .inr rfl
    · obtain ⟨_, heq⟩ := hback hcalm
      cases heq

/-- The transition of a forbidden message -/
theorem reporting_transition (hn : 0 < n) (hmem : m.header ∈ headers) {Q : Unit → World → Prop}
    {w : World} (h : transitionIncoming w.state.state m.view = .ok .error)
    (hQ : ∀ w', w'.state.state = .error → (calm → w'.state.authParams = w.state.authParams) →
      Q () w') :
    Reporting calm fails (Connection.transition n m) Q w := by
  unfold Connection.transition
  rw [Reporting, Reentrant.wp_bind, Reentrant.wp_read, h, Reentrant.wp_bind, wp_lift_ok,
    Reentrant.wp_bind, wp_when]
  refine ⟨fun _ => ?_, fun hne => absurd rfl hne⟩
  apply reporting_report (exists_reportText_eq_ok hmem rfl)
  intro w₁ hw₁
  apply wp_setState_of_pos hn (by decide)
  intro w₂ hw₂
  apply hQ
  · rw [hw₂]
  · intro hcalm
    rw [hw₂, hw₁ hcalm]

/-- In `ERROR` a message of the handshake is refused. -/
theorem reporting_send {topic : Topic} {action : Action} {arguments : List Buffer}
    (htopic : topic = .connection ∨ topic = .auth) (hlen : arguments.length ≤ 2)
    {Q : Unit → World → Prop} {w : World} (hstate : w.state.state = .error)
    (hfails : calm → ∀ w' : World, w'.state.state = .error → fails w') :
    Reporting calm fails (Program.build topic action arguments >>= fun message =>
      Program.ignore (Connection.send n message.val)) Q w := by
  have hfails' : calm → ∀ w' : World, w'.state = w.state → fails w' :=
    fun hcalm w' hw' => hfails hcalm w' (by rw [hw', hstate])
  rw [Reporting, Reentrant.wp_bind]
  apply wp_build _ _ _ hlen
  · intro _ message
    rw [wp_ignore]
    apply wp_send_of_error _ hstate
    · exact fun f w' hw' hcalm => hfails' hcalm w' hw'
    · exact fun w' hw' hcalm => ⟨nofun, hfails' hcalm w' hw'⟩
    · rw [message.property.1]
      exact htopic
  · exact fun _ hcalm => ⟨nofun, hfails hcalm w hstate⟩

theorem reporting_assert {file : SourceFile} {text : String} {cond : Prop} [Decidable cond]
    {Q : Unit → World → Prop} {w : World} (hfails : calm → fails w) (hQ : Q () w) :
    Reporting calm fails (Program.assert file text cond) Q w := by
  by_cases hcond : Build.asserts = true → cond
  · rw [Reporting, wp_assert_enabled _ _ _ hcond]
    exact hQ
  · obtain ⟨hasserts, hcond⟩ := Classical.not_imp.mp hcond
    rw [Reporting, wp_assert_fails _ _ _ hasserts hcond]
    exact hfails

theorem reporting_sendAuthenticationRequest {Q : Unit → World → Prop} {w : World}
    (hstate : w.state.state = .error)
    (hfails : calm → ∀ w' : World, w'.state.state = .error → fails w') :
    Reporting calm fails (Connection.sendAuthenticationRequest n) Q w := by
  have hnow : calm → fails w := fun hcalm => hfails hcalm w hstate
  unfold Connection.sendAuthenticationRequest
  rw [Reporting, Reentrant.wp_bind, Reentrant.wp_read, Reentrant.wp_bind]
  apply reporting_assert hnow
  rw [Reentrant.wp_bind]
  apply reporting_assert hnow
  split
  · exact hnow
  · exact reporting_send (.inr rfl) (by simp) hstate hfails

/-- What is done with a message of the handshake in `ERROR`, unless it is a redirection -/
theorem reporting_connectionAction {w : World} (hmem : m.header ∈ headers)
    (hstate : w.state.state = .error)
    (hredirect : m.header.action = .redirect → m.numArguments < 1)
    (hfails : (m.header.action = .ping ∨ m.header.action = .challenge ∨
        m.header.action = .challengeResponse ∧ w.state.authParams ≠ none) →
      calm → ∀ w' : World, w'.state.state = .error → fails w') :
    Reporting calm fails (Connection.connectionAction n m)
      (fun _ w' => calm → w'.state.state = .error) w := by
  have hreport : ∀ {r : Report}, (∃ text, r.text = .ok text) → Reporting calm fails
      (Program.report r) (fun _ w' => calm → w'.state.state = .error) w := by
    intro r hr
    apply reporting_report hr
    intro w' hw' hcalm
    rw [hw' hcalm, hstate]
  unfold Connection.connectionAction
  split
  · next haction =>
      exact reporting_send (.inl rfl) (Nat.zero_le _) hstate (hfails (.inl haction))
  · next haction =>
      rw [Reporting, Reentrant.wp_bind]
      apply Reentrant.wp_ask
      · rfl
      · intro w' _ hafter
        have hstate' : w'.state.state = .error := by
          rw [hafter.1 rfl]
          exact hstate
        have hfails' := hfails (.inr (.inl haction))
        refine ⟨fun uri _ => reporting_send (.inl rfl) (by simp) hstate' hfails', ?_⟩
        intro x hback hcalm
        obtain ⟨_, heq⟩ := hback hcalm
        cases heq
  · next haction =>
      rw [Reporting, Reentrant.wp_bind, Reentrant.wp_read, wp_when]
      refine ⟨fun hauth => ?_, fun _ _ => hstate⟩
      exact reporting_sendAuthenticationRequest hstate (hfails (.inr (.inr ⟨haction, hauth⟩)))
  · next haction =>
      rw [if_pos (hredirect haction)]
      exact hreport ⟨_, rfl⟩
  · rw [Reporting, Reentrant.wp_bind, Reentrant.wp_read]
    exact hreport (exists_reportText_eq_ok hmem rfl)

omit [Build] in
theorem open_of_incomes {state : ConnectionState} {topic : Topic} {action : Action}
    (h : Incomes state topic action .open) (htopic : topic = .auth) (haction : action ≠ .request) :
    state = .open := by
  cases h with
  | ping => cases htopic
  | request => exact absurd rfl haction
  | «open» => rfl

/-- What becomes of a message about authentication whose action was carried out -/
theorem reporting_transition_auth (hn : 0 < n) (hmem : m.header ∈ headers) {w : World}
    (htopic : m.header.topic = .auth) (hopen : m.header.action ≠ .request)
    (hcalm : calm → transitionIncoming w.state.state m.view = .ok .error) :
    Reporting calm fails (Connection.transition n m) (fun _ w' => calm → w'.state.state = .error)
      w := by
  by_cases h : calm
  · exact reporting_transition hn hmem (hcalm h) fun _ hw' _ _ => hw'
  · unfold Connection.transition
    rw [Reporting, Reentrant.wp_bind, Reentrant.wp_read, Reentrant.wp_bind]
    apply wp_lift_asserts (abort_reporting h) (onlyAsserts_transitionIncoming _ _)
    intro s hs
    rw [Reentrant.wp_bind, wp_when]
    refine ⟨fun herror => ?_, fun herror => ?_⟩
    · apply reporting_report (exists_reportText_eq_ok hmem rfl)
      intro w' _
      rw [herror]
      exact wp_setState_of_pos hn (by decide) fun _ _ hcalm => absurd hcalm h
    · have hin := (transitionIncoming_eq_ok hs).2.resolve_right fun h => herror h.1
      apply wp_setState (abort_reporting h)
      · rintro rfl
        exact open_of_incomes hin htopic hopen
      · exact fun _ hcalm => absurd hcalm h
      · exact fun _ hcalm => absurd hcalm h

/-- A forbidden message of the server about authentication -/
theorem reporting_handleAuthenticationResponse (hn : 0 < n) (hmem : m.header ∈ headers) {w : World}
    (htopic : m.header.topic = .auth) (h : transitionIncoming w.state.state m.view = .ok .error)
    (hacts : ¬Acts m w.state) :
    Reporting calm fails (Connection.handleAuthenticationResponse n m)
      (fun _ w' => calm → w'.state.state = .error) w := by
  have hclosed : transitionIncoming .closed m.view = .ok .error :=
    transitionIncoming_closed htopic h
  have hreject : ∀ r : Report, (∃ text, r.text = .ok text) → m.header.action ≠ .request →
      Reporting calm fails (do Program.report r; Connection.close)
        (fun _ => Reporting calm fails (Connection.transition n m)
          (fun _ w' => calm → w'.state.state = .error)) w := by
    intro r hr haction
    rw [Reporting, Reentrant.wp_bind]
    apply reporting_report hr
    intro w₁ hw₁
    apply reporting_close
    intro w₂ hw₂
    apply reporting_transition_auth hn hmem htopic haction
    intro hcalm
    cases hw₂ hcalm with
    | inl hstate => rw [hstate, hw₁ hcalm, h]
    | inr hstate => rw [hstate, hclosed]
  unfold Connection.handleAuthenticationResponse
  rw [Reporting, Reentrant.wp_bind]
  unfold Connection.authenticationAction
  split
  · next haction => exact hreject _ ⟨_, rfl⟩ (by rw [haction]; decide)
  · next haction => exact hreject _ ⟨_, rfl⟩ (by rw [haction]; decide)
  · next haction => exact hreject _ ⟨_, rfl⟩ (by rw [haction]; decide)
  · next haction =>
      have hack : Build.asserts = true → m.header.isAck = true := by
        intro hasserts
        by_contra hack
        exact hacts (.inr ⟨htopic, haction, .inr ⟨hasserts, Bool.eq_false_iff.mpr hack⟩⟩)
      rw [Reentrant.wp_bind, wp_assert_enabled _ _ _ hack, Reentrant.wp_bind, Reentrant.wp_read]
      split
      · exact reporting_transition hn hmem h fun w' hw' _ _ => hw'
      · next callback hcallback =>
          refine absurd (.inr ⟨htopic, haction, .inl ?_⟩) hacts
          rw [hcallback]
          exact Option.some_ne_none callback
  · next haction =>
      rw [Reentrant.wp_bind, Reentrant.wp_read]
      apply reporting_report (exists_reportText_eq_ok hmem rfl)
      intro w₁ hw₁
      apply reporting_transition_auth hn hmem htopic haction
      intro hcalm
      rw [hw₁ hcalm, h]

/-- The handling of a forbidden message that does not act -/
theorem reports_of_not_acts {w : World} (hn : 0 < n) (hmem : m.header ∈ headers)
    (htopic : m.header.topic = .connection ∨ m.header.topic = .auth)
    (h : transitionIncoming w.state.state m.view = .ok .error) (hacts : ¬Acts m w.state)
    (hfails : IsAnswered m w.state → ∀ w' : World, w'.state.state = .error → fails w') :
    Reports fails n m w := by
  intro calm
  unfold Connection.handleMessage
  rw [Reporting, Reentrant.wp_bind, Reentrant.wp_read, Reentrant.wp_bind, wp_leave,
    Reentrant.wp_bind, wp_debugMsg_iff hmem]
  have hnoted : transitionIncoming
      (Reentrant.World.noted w (.dispatched m w.state)).state.state m.view = .ok .error := h
  cases htopic with
  | inl htopic =>
      rw [htopic]
      unfold Connection.handleConnectionResponse
      rw [Reentrant.wp_bind]
      apply reporting_transition hn hmem hnoted
      intro w' hw' hauth
      apply reporting_connectionAction hmem hw'
      · exact fun haction => Nat.lt_of_not_le fun hnum => hacts (.inl ⟨htopic, haction, hnum⟩)
      · intro hanswered hcalm
        rw [hauth hcalm] at hanswered
        exact hfails ⟨htopic, hanswered⟩
  | inr htopic =>
      rw [htopic]
      exact reporting_handleAuthenticationResponse hn hmem htopic hnoted hacts

section Elim
variable {Q : Unit → World → Prop} {w : World}

omit [Build] in
/-- A call may return at once and leave everything as it is. -/
theorem reporting_ask_elim {c : Call} {Q : c.Answer → World → Prop}
    (h : Reporting calm fails (Program.ask c) Q w) (a : c.Answer) :
    c.IsEffect = false ∧ Q a ((Reentrant.World.calling w c).returned c (.ok a)) := by
  refine ⟨h.1, h.2 _ (.ok a) (.refl _) ⟨fun _ => rfl, fun _ => .inl rfl⟩ ?_⟩
  exact fun _ => ⟨a, rfl⟩

theorem reporting_transition_elim (hn : 0 < n) (hmem : m.header ∈ headers)
    (h : transitionIncoming w.state.state m.view = .ok .error)
    (hwp : Reporting calm fails (Connection.transition n m) Q w) :
    ∃ w' : World, w'.state = { w.state with state := .error } ∧ Q () w' := by
  obtain ⟨text, htext⟩ : ∃ text, (Report.connectionErrorState w.state.state m.header).text =
      .ok text := exists_reportText_eq_ok hmem rfl
  unfold Connection.transition at hwp
  rw [Reporting, Reentrant.wp_bind, Reentrant.wp_read, h, Reentrant.wp_bind, wp_lift_ok,
    Reentrant.wp_bind, wp_when] at hwp
  have hreport := hwp.1 rfl
  unfold Program.report at hreport
  rw [Reentrant.wp_bind, htext, wp_lift_ok] at hreport
  obtain ⟨-, hset⟩ := reporting_ask_elim hreport ()
  obtain ⟨w', hw', hQ⟩ := wp_setState_elim hn (by decide) hset
  exact ⟨w', hw', hQ⟩

/-- The action of a forbidden message about the connection is carried out in `ERROR`. -/
theorem reports_connection_elim (hn : 0 < n) (hmem : m.header ∈ headers)
    (htopic : m.header.topic = .connection)
    (h : transitionIncoming w.state.state m.view = .ok .error) (hreports : Reports fails n m w)
    (calm : Prop) : ∃ w' : World, w'.state = { w.state with state := .error } ∧
      Reporting calm fails (Connection.connectionAction n m)
        (fun _ w' => calm → w'.state.state = .error) w' := by
  have hwp := hreports calm
  unfold Connection.handleMessage at hwp
  rw [Reporting, Reentrant.wp_bind, Reentrant.wp_read, Reentrant.wp_bind, wp_leave,
    Reentrant.wp_bind, wp_debugMsg_iff hmem, htopic] at hwp
  change Reporting calm fails (Connection.handleConnectionResponse n m) _ _ at hwp
  unfold Connection.handleConnectionResponse at hwp
  rw [Reporting, Reentrant.wp_bind] at hwp
  have hnoted : transitionIncoming
      (Reentrant.World.noted w (.dispatched m w.state)).state.state m.view = .ok .error := h
  obtain ⟨w', hw', haction⟩ := reporting_transition_elim hn hmem hnoted hwp
  exact ⟨w', hw', haction⟩

end Elim

/-- A redirection or a login that is forbidden acts all the same. -/
theorem not_reports_of_acts {offset : Nat} {s : Sentence} {w : World}
    (hreads : Parser.Reads m offset s) (hn : 0 < n)
    (h : transitionIncoming w.state.state m.view = .ok .error) (hacts : Acts m w.state)
    (hfails : ∀ w' : World, fails w' → w'.state.state = .error) : ¬Reports fails n m w := by
  intro hreports
  have hmem : m.header ∈ headers := by
    rw [hreads.header]
    exact s.header.property
  have hget : 1 ≤ m.numArguments → ∃ a, m.get 0 = .ok a := by
    intro hnum
    rw [hreads.numArguments] at hnum
    exact ⟨_, hreads.get 0 hnum⟩
  cases hacts with
  | inl hredirect =>
      obtain ⟨htopic, haction, hnum⟩ := hredirect
      obtain ⟨uri, huri⟩ := hget hnum
      obtain ⟨w', -, hwp⟩ := reports_connection_elim hn hmem htopic h hreports True
      unfold Connection.connectionAction at hwp
      rw [haction] at hwp
      change Reporting True fails (ite _ _ _) _ _ at hwp
      rw [if_neg (Nat.not_lt_of_le hnum), huri, Reporting, Reentrant.wp_bind, wp_lift_ok] at hwp
      cases hwp.1
  | inr hlogin =>
      obtain ⟨htopic, haction, hlogin⟩ := hlogin
      have hwp := hreports True
      unfold Connection.handleMessage at hwp
      rw [Reporting, Reentrant.wp_bind, Reentrant.wp_read, Reentrant.wp_bind, wp_leave,
        Reentrant.wp_bind, wp_debugMsg_iff hmem, htopic] at hwp
      change Reporting True fails (Connection.handleAuthenticationResponse n m) _ _ at hwp
      unfold Connection.handleAuthenticationResponse Connection.authenticationAction at hwp
      rw [haction] at hwp
      rw [Reporting, Reentrant.wp_bind, Reentrant.wp_bind] at hwp
      by_cases hack : Build.asserts = true → m.header.isAck = true
      · have hdata : ∃ data, (if m.numArguments < 1 then .ok (bytes "L") else m.get 0) =
            .ok data := by
          split
          · exact ⟨_, rfl⟩
          · next hnum => exact hget (Nat.le_of_not_lt hnum)
        obtain ⟨data, hdata⟩ := hdata
        obtain ⟨callback, hcallback⟩ : ∃ callback, w.state.loginCallback = some callback := by
          apply Option.ne_none_iff_exists'.mp
          apply hlogin.resolve_right
          rintro ⟨hasserts, hfalse⟩
          exact Bool.eq_false_iff.mp hfalse (hack hasserts)
        have hcallback' : (Reentrant.World.noted w (.dispatched m w.state)).state.loginCallback =
            some callback := hcallback
        have hinvoke := wp_assert_elim hack hwp
        rw [Reentrant.wp_bind, Reentrant.wp_read, hcallback', hdata, Reentrant.wp_bind,
          wp_lift_ok] at hinvoke
        cases callback with
        | none => exact absurd rfl (hinvoke trivial).1
        | some f => cases hinvoke.1
      · -- the assertion fails before anything is reported
        obtain ⟨hasserts, hack⟩ := Classical.not_imp.mp hack
        rw [wp_assert_fails _ _ _ hasserts hack] at hwp
        have herror := hfails _ (hwp trivial)
        exact (transitionIncoming_eq_ok h).1 hasserts herror

section Certain
variable {α : Type} {Q : α → World → Prop} {w : World}

/-- A program that may not fail in a calm environment -/
abbrev Certain (p : Program α) (Q : α → World → Prop) (w : World) : Prop :=
  Reporting True (fun _ => False) p Q w

omit [Build] in
theorem certain_lift_elim {x : Except Failure α} (h : Certain (Program.lift x) Q w) :
    ∃ a, x = .ok a ∧ Q a w := by
  cases x with
  | ok a => exact ⟨a, rfl, h⟩
  | error f =>
      cases f with
      | thrown e => exact absurd (h trivial).2 id
      | _ => exact absurd (h trivial) id

theorem certain_assert_elim {file : SourceFile} {text : String} {cond : Prop} [Decidable cond]
    {Q : Unit → World → Prop} (h : Certain (Program.assert file text cond) Q w) :
    (Build.asserts = true → cond) ∧ Q () w := by
  obtain ⟨_, hcheck, hQ⟩ := certain_lift_elim h
  refine ⟨fun hasserts => ?_, hQ⟩
  cases (check_eq_ok_iff _ _ _).mp hcheck with
  | inl hrelease => exact absurd (hrelease.symm.trans hasserts) Bool.false_ne_true
  | inr hcond => exact hcond

theorem certain_debugMsg_elim {h : Header} {Q : Unit → World → Prop}
    (hwp : Certain (Connection.debugMsg h) Q w) : Q () w := by
  unfold Connection.debugMsg at hwp
  rw [Certain, Reporting, wp_when] at hwp
  by_cases hasserts : Build.asserts = true
  · have htext := hwp.1 hasserts
    rw [Reentrant.wp_bind] at htext
    obtain ⟨_, -, hQ⟩ := certain_lift_elim htext
    exact hQ
  · exact hwp.2 hasserts

/-- In `ERROR` no message of the handshake can be sent. -/
theorem not_certain_send {m : MessageBuilder} {Q : Bool → World → Prop}
    (hm : m.header.topic = .connection ∨ m.header.topic = .auth) (hstate : w.state.state = .error) :
    ¬Certain (Connection.send n m) Q w := by
  intro h
  unfold Connection.send Connection.sendWith at h
  rw [Certain, Reporting, Reentrant.wp_bind, wp_leave, Reentrant.wp_bind] at h
  have hread := certain_debugMsg_elim h
  rw [Reentrant.wp_bind, Reentrant.wp_read, if_pos hm, Reentrant.wp_bind] at hread
  obtain ⟨s, hs, hrefuse⟩ := certain_lift_elim hread
  change transitionOutgoing w.state.state m.view = .ok s at hs
  rw [hstate] at hs
  cases transitionOutgoing_error hs
  rw [Reentrant.wp_bind, wp_when] at hrefuse
  have hassert := hrefuse.1 rfl
  rw [wp_leave, Reentrant.wp_bind] at hassert
  exact ((certain_assert_elim hassert).2 trivial).2

/-- Neither can one be built and sent. -/
theorem not_certain_reply {topic : Topic} {action : Action} {arguments : List Buffer}
    {Q : Unit → World → Prop} (htopic : topic = .connection ∨ topic = .auth)
    (hstate : w.state.state = .error) :
    ¬Certain (Program.build topic action arguments >>= fun message =>
      Program.ignore (Connection.send n message.val)) Q w := by
  intro h
  rw [Certain, Reporting, Reentrant.wp_bind] at h
  unfold Program.build at h
  split at h
  · next message hmessage =>
      change wp _ _ (Program.ignore (Connection.send n message)) _ _ w at h
      rw [wp_ignore] at h
      refine not_certain_send ?_ hstate h
      rw [(MessageBuilder.addArguments_eq_ok _ message arguments hmessage).1]
      exact htopic
  · obtain ⟨_, hf, -⟩ := certain_lift_elim h
    cases hf

end Certain

/-- The client replies in `ERROR`, which fails. -/
theorem not_returns_of_answered {w : World} (hn : 0 < n) (hmem : m.header ∈ headers)
    (h : transitionIncoming w.state.state m.view = .ok .error) (hanswered : IsAnswered m w.state) :
    ¬ReportsAndReturns n m w := by
  intro hreports
  obtain ⟨htopic, haction⟩ := hanswered
  obtain ⟨w', hw', hwp⟩ := reports_connection_elim hn hmem htopic h hreports True
  have hstate : w'.state.state = .error := by rw [hw']
  unfold Connection.connectionAction at hwp
  obtain haction | haction | ⟨haction, hauth⟩ := haction
  · rw [haction] at hwp
    exact not_certain_reply (.inl rfl) hstate hwp
  · rw [haction] at hwp
    change Certain (Program.ask .uri >>= _) _ _ at hwp
    rw [Certain, Reporting, Reentrant.wp_bind] at hwp
    obtain ⟨-, hreply⟩ := reporting_ask_elim hwp []
    refine not_certain_reply (.inl rfl) ?_ hreply
    exact hstate
  · rw [haction] at hwp
    change Certain (Prog.read >>= _) _ _ at hwp
    rw [Certain, Reporting, Reentrant.wp_bind, Reentrant.wp_read, wp_when] at hwp
    have hrequest := hwp.1 (by rw [hw']; exact hauth)
    unfold Connection.sendAuthenticationRequest at hrequest
    rw [Reentrant.wp_bind, Reentrant.wp_read, Reentrant.wp_bind] at hrequest
    have hrequest := (certain_assert_elim hrequest).2
    rw [Reentrant.wp_bind] at hrequest
    have hrequest := (certain_assert_elim hrequest).2
    split at hrequest
    · exact hrequest trivial
    · exact not_certain_reply (.inr rfl) hstate hrequest

/-- A message of the server that is forbidden in a state only reports iff it does not act, and
returns from it iff the client does not reply to it either. -/
theorem onlyReports_iff (n : Nat) (hn : 0 < n) (raw : Buffer) (messages : List MessageProxy)
    (errors : List Parser.Error)
    (hexecute : Parser.execute (raw ++ [0, 0]) = .ok (messages, errors)) (m : MessageProxy)
    (hm : m ∈ messages) (htopic : m.header.topic = .connection ∨ m.header.topic = .auth)
    (w : World) (hforbidden : transitionIncoming w.state.state m.view = .ok .error) :
    (OnlyReports n m w ↔ ¬Acts m w.state) ∧
      (ReportsAndReturns n m w ↔ ¬Acts m w.state ∧ ¬IsAnswered m w.state) := by
  obtain ⟨offset, s, hreads⟩ := Parser.exists_reads hexecute hm
  have hmem : m.header ∈ headers := by
    rw [hreads.header]
    exact s.header.property
  refine ⟨⟨fun honly hacts => ?_, fun hacts => ?_⟩, ⟨fun hreturns => ⟨fun hacts => ?_, fun h => ?_⟩,
    fun ⟨hacts, hanswered⟩ => ?_⟩⟩
  · exact not_reports_of_acts hreads hn hforbidden hacts (fun _ h => h) honly
  · exact reports_of_not_acts hn hmem htopic hforbidden hacts fun _ _ h => h
  · exact not_reports_of_acts hreads hn hforbidden hacts (fun _ h => absurd h id) hreturns
  · exact not_returns_of_answered hn hmem hforbidden h hreturns
  · exact reports_of_not_acts hn hmem htopic hforbidden hacts fun h => absurd h hanswered

end Forbidden

/-- A redirection to `b` -/
def redirection : Buffer :=
  fromHumanReadable (bytes "C|RED|b+")

/-- The message that is read in a redirection -/
def redirectionMessage : MessageProxy where
  base := redirection ++ [0, 0]
  offset := 0
  size := 8
  header := { topic := .connection, action := .redirect }
  arguments := [⟨6, 1⟩]

theorem execute_redirection :
    @Parser.execute release (redirection ++ [0, 0]) = .ok ([redirectionMessage], []) := by
  decide +kernel

theorem forbidden_redirection :
    @transitionIncoming release (@after release 9 [] connecting).world.state.state
      (@MessageProxy.view release redirectionMessage) = .ok .error := by
  decide +kernel

/-- In `AWAIT_CONNECTION` a redirection does more than to report. -/
theorem redirection_not_onlyReports :
    ¬@OnlyReports release 9 redirectionMessage (@after release 9 [] connecting).world := by
  let _ : Build := release
  have hacts : Acts redirectionMessage (after 9 [] connecting).world.state :=
    .inl ⟨rfl, rfl, by decide⟩
  rw [(onlyReports_iff 9 (by decide) redirection _ _ execute_redirection redirectionMessage
    (List.mem_singleton_self _) (.inl rfl) _ forbidden_redirection).1]
  exact not_not_intro hacts

/-- A redirection that arrives before the challenge changes the address. -/
theorem redirection_acts : let _ : Build := release
    ¬∀ cfg : Reentrant.Config interface, Reaches (.any interface) 9 [] cfg →
      ∀ raw messages errors, Parser.execute (raw ++ [0, 0]) = .ok (messages, errors) →
      ∀ m ∈ messages, m.header.topic = .connection ∨ m.header.topic = .auth →
      transitionIncoming cfg.world.state.state m.view = .ok .error →
      OnlyReports 9 m cfg.world := by
  intro _ hclaim
  have hmem : redirectionMessage ∈ [redirectionMessage] := List.mem_singleton_self _
  obtain ⟨offset, s, hreads⟩ := Parser.exists_reads execute_redirection hmem
  exact not_reports_of_acts hreads (by decide) forbidden_redirection
    (.inl ⟨rfl, rfl, by decide⟩) (fun _ h => h) (hclaim _ (reaches_after 9 [] connecting)
      redirection _ _ execute_redirection redirectionMessage hmem (.inl rfl) forbidden_redirection)

end Deepstream
