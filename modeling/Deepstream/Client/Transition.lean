import Deepstream.Client.Connection

/-!
The two transition functions: what they return, and that only assertions fail in them.
-/

namespace Deepstream

/-- The messages that the client may send in a state, and the state they lead to -/
inductive Outgoes : ConnectionState → Topic → Action → ConnectionState → Prop where
  | pong (s : ConnectionState) : Outgoes s .connection .pong s
  | challengeResponse : Outgoes .challenging .connection .challengeResponse .challengingWait
  | request : Outgoes .awaitAuthentication .auth .request .authenticating

theorem Outgoes.eq_error {state s : ConnectionState} {topic : Topic} {action : Action}
    (h : Outgoes state topic action s) (hs : s = .error) : state = .error := by
  cases h with
  | pong => exact hs
  | challengeResponse | request => cases hs

theorem Outgoes.error {state s : ConnectionState} {topic : Topic} {action : Action}
    (h : Outgoes state topic action s) (hstate : state = .error) : s = .error := by
  cases h with
  | pong => exact hstate
  | challengeResponse | request => cases hstate

theorem Outgoes.open {state s : ConnectionState} {topic : Topic} {action : Action}
    (h : Outgoes state topic action s) (hs : s = .open) : state = .open := by
  cases h with
  | pong => exact hs
  | challengeResponse | request => cases hs

/-- The messages that the server may send in a state, and the state they lead to -/
inductive Incomes : ConnectionState → Topic → Action → ConnectionState → Prop where
  | ping (s : ConnectionState) : Incomes s .connection .ping s
  | challenge : Incomes .awaitConnection .connection .challenge .challenging
  | challengeResponse : Incomes .challengingWait .connection .challengeResponse .awaitAuthentication
  | redirect : Incomes .challengingWait .connection .redirect .awaitConnection
  | reject : Incomes .challengingWait .connection .reject .closed
  | request : Incomes .authenticating .auth .request .open
  | tooManyAuthAttempts : Incomes .authenticating .auth .errorTooManyAuthAttempts .closed
  | invalidAuthData : Incomes .authenticating .auth .errorInvalidAuthData .awaitAuthentication
  | invalidAuthMsg : Incomes .authenticating .auth .errorInvalidAuthMsg .closed
  | open (topic : Topic) (action : Action) : Incomes .open topic action .open

theorem Incomes.eq_error {state s : ConnectionState} {topic : Topic} {action : Action}
    (h : Incomes state topic action s) (hs : s = .error) : state = .error := by
  cases h with
  | ping => exact hs
  | _ => cases hs

/-- Only the answer to a request leads to `OPEN`. -/
theorem Incomes.request_of_open {state s : ConnectionState} {topic : Topic} {action : Action}
    (h : Incomes state topic action s) (hs : s = .open) (hstate : state ≠ .open) :
    topic = .auth ∧ action = .request := by
  cases h with
  | request => exact ⟨rfl, rfl⟩
  | ping | «open» => exact absurd hs hstate
  | _ => cases hs

section Transition
variable [Build]

/-- Only an assertion can fail in a computation, and none about the arguments of a message. -/
def OnlyAsserts {α : Type} (x : Except Failure α) : Prop :=
  ∀ f, x = .error f → Build.asserts = true ∧
    ∃ file text, f = .assertion file text ∧ file ≠ .messageProxy

theorem onlyAsserts_ok {α : Type} (a : α) : OnlyAsserts (.ok a) :=
  nofun

theorem onlyAsserts_check {file : SourceFile} (text : String) (cond : Prop) [Decidable cond]
    (hfile : file ≠ .messageProxy) : OnlyAsserts (check file text cond) := by
  intro f h
  unfold check at h
  split at h
  · next hcond =>
      cases h
      exact ⟨hcond.1, file, text, rfl, hfile⟩
  · cases h

theorem onlyAsserts_bind {α β : Type} {x : Except Failure α} {next : α → Except Failure β}
    (hx : OnlyAsserts x) (hnext : ∀ a, OnlyAsserts (next a)) : OnlyAsserts (x >>= next) := by
  intro f h
  cases x with
  | ok a => exact hnext a f h
  | error f' =>
      cases h
      exact hx f rfl

theorem onlyAsserts_checkArity (m : Message) : OnlyAsserts (checkArity m) := by
  apply onlyAsserts_bind
  · unfold Header.numArguments
    split
    · exact onlyAsserts_ok _
    · exact onlyAsserts_bind (onlyAsserts_check _ _ (by decide)) fun _ => onlyAsserts_ok _
  · intro expected
    exact onlyAsserts_bind (onlyAsserts_check _ _ (by decide)) fun _ => onlyAsserts_check _ _ (by decide)

theorem onlyAsserts_transitionIncoming (state : ConnectionState) (m : Message) :
    OnlyAsserts (transitionIncoming state m) := by
  apply onlyAsserts_bind (onlyAsserts_check _ _ (by decide))
  intro _
  apply onlyAsserts_bind (onlyAsserts_checkArity m)
  intro _
  split
  all_goals first
    | exact onlyAsserts_ok _
    | exact onlyAsserts_bind (onlyAsserts_check _ _ (by decide)) fun _ => onlyAsserts_ok _

theorem onlyAsserts_transitionOutgoing (state : ConnectionState) (m : Message) :
    OnlyAsserts (transitionOutgoing state m) := by
  apply onlyAsserts_bind (onlyAsserts_check _ _ (by decide))
  intro _
  apply onlyAsserts_bind (onlyAsserts_check _ _ (by decide))
  intro _
  apply onlyAsserts_bind (onlyAsserts_checkArity m)
  intro _
  split
  all_goals first
    | exact onlyAsserts_ok _
    | exact onlyAsserts_bind (onlyAsserts_check _ _ (by decide)) fun _ => onlyAsserts_ok _

theorem onlyAsserts_toString (h : Header) : OnlyAsserts h.toString := by
  unfold Header.toString
  split
  · exact onlyAsserts_ok _
  · exact onlyAsserts_bind (onlyAsserts_check _ _ (by decide)) fun _ => onlyAsserts_ok _

theorem text_ne_thrown (h : Header) (e : Exception) : h.text ≠ .error (.thrown e) := by
  intro heq
  unfold Header.text at heq
  cases htext : h.toString with
  | ok text =>
      rw [htext] at heq
      cases text <;> cases heq
  | error f =>
      obtain ⟨-, file, text, rfl, -⟩ := onlyAsserts_toString h f htext
      rw [htext] at heq
      cases heq

theorem exists_text_eq_ok {h : Header} (hmem : h ∈ headers) : ∃ text, h.text = .ok text := by
  have hname : h.toString = .ok (some _) := toString_tableHeader ⟨h, hmem⟩
  unfold Header.text
  rw [hname]
  exact ⟨_, rfl⟩

theorem exists_reportText_eq_ok {r : Report} {h : Header} {next : Buffer → Buffer}
    (hmem : h ∈ headers) (hr : r.text = h.text >>= fun text => .ok (next text)) :
    ∃ text, r.text = .ok text := by
  obtain ⟨text, htext⟩ := exists_text_eq_ok hmem
  rw [hr, htext]
  exact ⟨_, rfl⟩

theorem get_ne_thrown (m : MessageProxy) (i : Nat) (e : Exception) :
    m.get i ≠ .error (.thrown e) := by
  intro heq
  unfold MessageProxy.get check at heq
  split at heq
  · cases heq
  · dsimp only [Bind.bind, Except.bind] at heq
    split at heq
    · unfold slice at heq
      split at heq <;> cases heq
    · cases heq

theorem reportText_ne_thrown (r : Report) (e : Exception) : r.text ≠ .error (.thrown e) := by
  have hheader : ∀ (h : Header) (next : Buffer → Buffer),
      (h.text >>= fun text => (.ok (next text) : Except Failure Buffer)) ≠ .error (.thrown e) := by
    intro h next heq
    cases htext : h.text with
    | ok text =>
        rw [htext] at heq
        cases heq
    | error f =>
        rw [htext] at heq
        cases heq
        exact text_ne_thrown h e htext
  cases r with
  | unsolicited h => exact hheader h _
  | connectionErrorState previous h => exact hheader h _
  | unknownConnectionAction s h => exact hheader h _
  | unknownAuthenticationAction s h => exact hheader h _
  | _ => exact nofun

/-- An assertion before a computation that returns -/
theorem check_bind_eq_ok {file : SourceFile} {text : String} {cond : Prop} [Decidable cond]
    {α : Type} {next : Unit → Except Failure α} {a : α}
    (h : (check file text cond >>= next) = .ok a) :
    (Build.asserts = true → cond) ∧ next () = .ok a := by
  unfold check at h
  split at h
  · cases h
  · next hcond => exact ⟨fun hasserts => Classical.not_not.mp fun hn => hcond ⟨hasserts, hn⟩, h⟩

omit [Build] in
theorem bind_eq_ok {α β : Type} {x : Except Failure α} {next : α → Except Failure β} {b : β}
    (h : (x >>= next) = .ok b) : ∃ a, x = .ok a ∧ next a = .ok b := by
  cases x with
  | ok a => exact ⟨a, rfl, h⟩
  | error f => cases h

theorem transitionOutgoing_eq_ok {state s : ConnectionState} {m : Message}
    (h : transitionOutgoing state m = .ok s) :
    (Build.asserts = true → state ≠ .error ∧ state ≠ .closed) ∧
      (Outgoes state m.header.topic m.header.action s ∨
        s = .error ∧ ∀ s', ¬Outgoes state m.header.topic m.header.action s') := by
  obtain ⟨herror, h⟩ := check_bind_eq_ok h
  obtain ⟨hclosed, h⟩ := check_bind_eq_ok h
  obtain ⟨_, -, h⟩ := bind_eq_ok h
  refine ⟨fun hasserts => ⟨herror hasserts, hclosed hasserts⟩, ?_⟩
  generalize m.header.topic = topic, m.header.action = action at h
  split at h
  · obtain ⟨-, h⟩ := check_bind_eq_ok h
    cases h
    exact .inl (.pong _)
  · obtain ⟨-, h⟩ := check_bind_eq_ok h
    cases h
    exact .inl .challengeResponse
  · obtain ⟨-, h⟩ := check_bind_eq_ok h
    cases h
    exact .inl .request
  · next hpong hchallengeResponse hrequest =>
      cases h
      refine .inr ⟨rfl, fun s' hs' => ?_⟩
      cases hs' with
      | pong => exact hpong rfl rfl
      | challengeResponse => exact hchallengeResponse rfl rfl rfl
      | request => exact hrequest rfl rfl rfl

theorem transitionOutgoing_error {m : Message} {s : ConnectionState}
    (h : transitionOutgoing .error m = .ok s) : s = .error := by
  cases (transitionOutgoing_eq_ok h).2 with
  | inl hout => exact hout.error rfl
  | inr herror => exact herror.1

theorem transitionIncoming_eq_ok {state s : ConnectionState} {m : Message}
    (h : transitionIncoming state m = .ok s) :
    (Build.asserts = true → state ≠ .error) ∧
      (Incomes state m.header.topic m.header.action s ∨
        s = .error ∧ ∀ s', ¬Incomes state m.header.topic m.header.action s') := by
  obtain ⟨herror, h⟩ := check_bind_eq_ok h
  obtain ⟨_, -, h⟩ := bind_eq_ok h
  refine ⟨herror, ?_⟩
  generalize m.header.topic = topic, m.header.action = action at h
  split at h
  all_goals try
    obtain ⟨-, h⟩ := check_bind_eq_ok h
    cases h
    exact .inl (by constructor)
  · cases h
    exact .inl (.open _ _)
  · cases h
    refine .inr ⟨rfl, fun s' hs' => ?_⟩
    cases hs' <;> simp_all

/-- In `CLOSED` no message about authentication is expected, however it came to be accepted. -/
theorem transitionIncoming_closed {state s : ConnectionState} {m : Message}
    (htopic : m.header.topic = .auth) (h : transitionIncoming state m = .ok s) :
    transitionIncoming .closed m = .ok .error := by
  obtain ⟨-, h⟩ := check_bind_eq_ok h
  obtain ⟨_, harity, -⟩ := bind_eq_ok h
  unfold transitionIncoming
  rw [check_of _ _ _ (by decide), harity, htopic]
  rfl

end Transition
end Deepstream
