import Deepstream.Client.Aside
import Deepstream.Client.Socket

/-!
Messages of an old connection that are handled after a new one was opened.

All messages of a buffer are handled by the activity of one `on_message`, and a
socket that is opened meanwhile says so before they have all been handled. Those
about events and presence do no harm, unless one asks to listen for a pattern
while the new connection is already in `OPEN`.
-/

namespace Deepstream

open Reentrant (Balanced Interrupted Keeps Policy Prog Regime wp)

/-- An entry that has not ended: whether a socket was opened since it began, and which
message of before that it handles -/
structure Level where
  reopened : Bool := false
  stale : Option Header := none
  deriving DecidableEq

def Level.handle (m : MessageProxy) (l : Level) : Level :=
  { l with stale := if l.reopened = true then some m.header else none }

/-- The entries that have not ended after some history, innermost first -/
def levels : List Item → List Level
  | [] => []
  | .enter .onOpen :: t => {} :: (levels t).map fun l => { l with reopened := true }
  | .enter _ :: t => {} :: levels t
  | .leave _ _ :: t => (levels t).tail
  | .note (.dispatched m _) :: t => (levels t).modifyHead (Level.handle m)
  | _ :: t => levels t

def stales (t : List Item) : List (Option Header) :=
  (levels t).map Level.stale

/-- Whether a socket was opened since the innermost entry began -/
def reopened (t : List Item) : Bool :=
  (levels t).head?.any Level.reopened

/-- No message of an old connection is being handled by the innermost entry. -/
def Fresh (levels : List (Option Header)) : Prop :=
  ∀ h, levels.head? ≠ some (some h)

def Header.IsPattern (h : Header) : Prop :=
  h.topic = .event ∧ h.action = .subscriptionForPatternFound
  deriving Decidable

/-- A pattern of an old connection is being answered. -/
def Answers (levels : List (Option Header)) : Prop :=
  ∃ x ∈ levels, ∃ h ∈ x, h.IsPattern
  deriving Decidable

/-- What the connection does to its state, and to its socket -/
def Item.Acts : Item → Prop
  | .call (.wsSend _ _) | .call (.setUri _) | .call .wsOpen | .call .wsClose => True
  | .note (.became _) => True
  | _ => False

/-- Neither the beginning nor the end of an entry, nor a message that it comes to -/
def Item.IsPlain : Item → Prop
  | .enter _ | .leave _ _ | .note (.dispatched _ _) => False
  | _ => True

/-- Nothing is done for messages of an old connection. -/
def Inert : List Item → Prop
  | [] => True
  | i :: t => (i.Acts → Fresh (stales t)) ∧ Inert t

/-- A message that does no harm where it is handled -/
structure Tolerable (t : List Item) (m : MessageProxy) (c : Client) : Prop where
  topic : reopened t = true → m.header.topic ≠ .connection ∧ m.header.topic ≠ .auth
  pattern : reopened t = true → m.header.IsPattern → c.state ≠ .open
  request : m.header.topic = .auth → m.header.action = .request → ¬Answers (stales t)

/-- All messages do no harm where they are handled. -/
def AllTolerable : List Item → Prop
  | [] => True
  | .note (.dispatched m c) :: t => Tolerable t m c ∧ AllTolerable t
  | _ :: t => AllTolerable t

instance (t : List Item) (m : MessageProxy) (c : Client) : Decidable (Tolerable t m c) :=
  decidable_of_iff
    ((reopened t = true → m.header.topic ≠ .connection ∧ m.header.topic ≠ .auth) ∧
      (reopened t = true → m.header.IsPattern → c.state ≠ .open) ∧
      (m.header.topic = .auth → m.header.action = .request → ¬Answers (stales t)))
    ⟨fun h => ⟨h.1, h.2.1, h.2.2⟩, fun h => ⟨h.topic, h.pattern, h.request⟩⟩

instance decidableAllTolerable : (t : List Item) → Decidable (AllTolerable t)
  | [] => .isTrue trivial
  | .note (.dispatched m c) :: t =>
      have := decidableAllTolerable t
      inferInstanceAs (Decidable (Tolerable t m c ∧ AllTolerable t))
  | .note (.became _) :: t | .note (.sending _) :: t | .note (.refused _) :: t
  | .note (.emitted _) :: t | .enter _ :: t | .leave _ _ :: t | .call _ :: t | .back _ _ :: t =>
      decidableAllTolerable t

theorem stales_cons {i : Item} (t : List Item) (hi : i.IsPlain) : stales (i :: t) = stales t := by
  cases i with
  | enter e => exact hi.elim
  | leave e r => exact hi.elim
  | note n =>
      cases n with
      | dispatched m c => exact hi.elim
      | _ => rfl
  | _ => rfl

theorem stales_enter (e : Entry) (t : List Item) : stales (.enter e :: t) = none :: stales t := by
  cases e with
  | onOpen =>
      change none :: ((levels t).map _).map Level.stale = _
      rw [List.map_map]
      rfl
  | _ => rfl

theorem stales_leave (e : Entry) (r : Except Exception Unit) (t : List Item) :
    stales (.leave e r :: t) = (stales t).tail :=
  List.map_tail

/-- Only the innermost entry handles the message. -/
theorem stales_dispatched (m : MessageProxy) (c : Client) (t : List Item) :
    stales (.note (.dispatched m c) :: t) =
      (stales t).modifyHead fun _ => if reopened t = true then some m.header else none := by
  unfold stales reopened
  change ((levels t).modifyHead (Level.handle m)).map Level.stale = _
  cases levels t with
  | nil => rfl
  | cons l ls => rfl

theorem allTolerable_of_cons {i : Item} {t : List Item} (h : AllTolerable (i :: t)) :
    AllTolerable t := by
  cases i with
  | note n =>
      cases n with
      | dispatched m c => exact h.2
      | _ => exact h
  | _ => exact h

theorem allTolerable_of_suffix {t t' : List Item} (hsuffix : t <:+ t') (h : AllTolerable t') :
    AllTolerable t := by
  obtain ⟨u, rfl⟩ := hsuffix
  induction u with
  | nil => exact h
  | cons i u ih => exact ih (allTolerable_of_cons h)

/-- What an entry does leaves the entries around it as they are. -/
theorem stales_balanced {t : List Item} (h : Balanced t) (u : List Item) :
    (stales (t ++ u)).tail = (stales u).tail := by
  induction h generalizing u with
  | nil => rfl
  | note n t _ ih =>
      rw [← ih u]
      cases n with
      | dispatched m c =>
          change (stales (.note (.dispatched m c) :: (t ++ u))).tail = _
          rw [stales_dispatched, List.tail_modifyHead]
      | _ => rfl
  | call c result body t _ _ ihbody ih =>
      rw [List.cons_append, List.append_assoc, ← ih u]
      exact ihbody (.call c :: (t ++ u))
  | entry e result body t _ _ ihbody ih =>
      rw [List.cons_append, List.append_assoc, stales_leave, ihbody, List.cons_append,
        stales_enter]
      exact ih u

theorem stales_interrupted {t : List Item} (h : Interrupted t) (u : List Item) :
    stales (t ++ u) = stales u := by
  induction h with
  | nil => rfl
  | entry e result body t hbody _ ih =>
      rw [List.cons_append, List.append_assoc, stales_leave, stales_balanced hbody,
        List.cons_append, stales_enter]
      exact ih

/-- Nothing has been done for old messages if all were tolerable, and no answer to an old
pattern can be sent. -/
structure Orderly (w : World) : Prop where
  inert : Inert w.trace
  answers : Answers (stales w.trace) → w.state.state ≠ .open

def staleness : Regime interface where
  quiet _ := false
  inv _ w := AllTolerable w.trace → Orderly w
  rel _ _ _ := True
  pre e w := ∃ t, w.trace = .enter e :: t
  abort _ w := AllTolerable w.trace → Orderly w

/-- A program at its levels, with what it may assume if all messages are tolerable -/
structure IsOrderly (levels : List (Option Header)) (assumed : Prop) (w : World) : Prop where
  atLevels : stales w.trace = levels
  orderly : AllTolerable w.trace → assumed ∧ Orderly w

section Programs
variable {P : Policy interface} {levels : List (Option Header)} {assumed : Prop} {α : Type}

theorem IsOrderly.inv {w : World} (h : IsOrderly levels assumed w) :
    AllTolerable w.trace → Orderly w :=
  fun htolerable => (h.orderly htolerable).2

variable (P levels assumed) in
abbrev IsKept (p : Program α) : Prop :=
  Keeps staleness.contract P (IsOrderly levels assumed) p

/-- Something has happened, and it was permitted to. -/
theorem IsOrderly.cons {w w' : World} (h : IsOrderly levels assumed w) {i : Item}
    (htrace : w'.trace = i :: w.trace) (hstales : stales (i :: w.trace) = levels)
    (hacts : assumed → (Answers levels → w.state.state ≠ .open) → i.Acts → Fresh levels)
    (hstate : assumed → Answers levels → w.state.state ≠ .open → w'.state.state ≠ .open) :
    IsOrderly levels assumed w' := by
  refine ⟨htrace ▸ hstales, fun htolerable => ?_⟩
  rw [htrace] at htolerable
  obtain ⟨hassumed, hinert, hanswers⟩ := h.orderly (allTolerable_of_cons htolerable)
  rw [h.atLevels] at hanswers
  refine ⟨hassumed, ?_, ?_⟩
  · rw [htrace]
    refine ⟨fun hi => ?_, hinert⟩
    rw [h.atLevels]
    exact hacts hassumed hanswers hi
  · rw [htrace, hstales]
    exact fun hlevels => hstate hassumed hlevels (hanswers hlevels)

/-- The state has changed, but not to `OPEN` while a pattern is being answered. -/
theorem IsOrderly.became {w : World} (h : IsOrderly levels assumed w) {s : ConnectionState}
    (hfresh : assumed → Fresh levels) (hs : assumed → s = .open → ¬Answers levels) :
    IsOrderly levels assumed (Reentrant.World.noted { w with state := { w.state with state := s } }
      (.became { w.state with state := s })) := by
  apply h.cons (i := .note (.became _)) rfl
  · exact (stales_cons (i := .note (.became _)) w.trace trivial).trans h.atLevels
  · exact fun hassumed _ _ => hfresh hassumed
  · exact fun hassumed hlevels _ hopen => hs hassumed hopen hlevels

theorem kept_modify {f : Client → Client} (hf : ∀ c, (f c).state = c.state) :
    IsKept P levels assumed (Prog.modify f) := by
  apply Reentrant.keeps_modify
  intro w hw
  refine ⟨hw.atLevels, fun htolerable => ?_⟩
  obtain ⟨hassumed, hinert, hanswers⟩ := hw.orderly htolerable
  exact ⟨hassumed, hinert, fun hlevels => hf w.state ▸ hanswers hlevels⟩

theorem kept_leave {n : Note} (hn : Item.IsPlain (.note n)) (hacts : ¬Item.Acts (.note n)) :
    IsKept P levels assumed (Program.leave n) := by
  apply Reentrant.keeps_leave
  intro w hw
  apply hw.cons rfl
  · exact (stales_cons w.trace hn).trans hw.atLevels
  · exact fun _ _ h => absurd h hacts
  · exact fun _ _ h => h

theorem wp_ask_orderly {c : Call} {w : World} (hw : IsOrderly levels assumed w)
    (hacts : assumed → (Answers levels → w.state.state ≠ .open) → Item.Acts (.call c) →
      Fresh levels) :
    wp staleness.contract P (Program.ask c) (fun _ => IsOrderly levels assumed)
      (fun _ => IsOrderly levels assumed) w := by
  have hcalling : IsOrderly levels assumed (Reentrant.World.calling w c) := by
    apply hw.cons (i := .call c) rfl
    · exact (stales_cons (i := .call c) w.trace trivial).trans hw.atLevels
    · exact hacts
    · exact fun _ _ h => h
  apply Reentrant.wp_ask
  · exact ⟨hcalling.inv, _, rfl⟩
  · intro w' hduring hafter
    have hstales : stales w'.trace = levels := by
      obtain ⟨t, hentries, ht⟩ := hduring.entries
      rw [ht, stales_interrupted hentries]
      exact hcalling.atLevels
    have hw' : IsOrderly levels assumed w' := by
      refine ⟨hstales, fun htolerable => ⟨?_, hafter.1 htolerable⟩⟩
      exact (hcalling.orderly (allTolerable_of_suffix hduring.trace htolerable)).1
    have hreturned : ∀ r, IsOrderly levels assumed (w'.returned c r) := by
      intro r
      apply hw'.cons (i := .back c r) rfl
      · exact (stales_cons (i := .back c r) w'.trace trivial).trans hstales
      · exact fun _ _ h => h.elim
      · exact fun _ _ h => h
    exact ⟨fun a _ => hreturned _, fun x _ => hreturned _⟩

theorem kept_ask {c : Call} (hacts : assumed → Item.Acts (.call c) → Fresh levels) :
    IsKept P levels assumed (Program.ask c) :=
  fun _ hw => wp_ask_orderly hw fun hassumed _ => hacts hassumed

theorem routine_orderly : Routine staleness.contract P (IsOrderly levels assumed) where
  abort _ _ hw := hw.inv
  ask c hc := by
    apply kept_ask
    cases c with
    | setUri | wsOpen | wsClose | wsSend | loginCallback | queryFn => cases hc
    | _ => exact fun _ h => h.elim
  nextId := Reentrant.keeps_read_bind fun _ =>
    Reentrant.keeps_bind (kept_modify fun _ => rfl) fun _ => Reentrant.keeps_pure _

theorem wp_handOver_orderly (hsends : assumed → Fresh levels ∨ Answers levels)
    (m : MessageBuilder) (buffer : Buffer) {w : World} (hopen : w.state.state = .open)
    (hw : IsOrderly levels assumed w) :
    wp staleness.contract P (Program.ask (.wsSend m buffer)) (fun _ => IsOrderly levels assumed)
      (fun _ => IsOrderly levels assumed) w := by
  apply wp_ask_orderly hw
  intro hassumed hanswers _
  cases hsends hassumed with
  | inl hfresh => exact hfresh
  | inr hlevels => exact absurd hopen (hanswers hlevels)

/-- At a level where answers to patterns are all that may be sent -/
theorem aside_orderly (hsends : assumed → Fresh levels ∨ Answers levels) :
    Aside staleness.contract P (IsOrderly levels assumed) where
  routine := routine_orderly
  modifyEvent _ := kept_modify fun _ => rfl
  modifyPresence _ := kept_modify fun _ => rfl
  queryFn _ _ := kept_ask fun _ hacts => hacts.elim
  emitted _ := kept_leave trivial id
  sending _ := kept_leave trivial id
  handEvent m buffer _ _ hopen hw := wp_handOver_orderly hsends m buffer hopen hw
  handPresence m buffer _ _ hopen hw := wp_handOver_orderly hsends m buffer hopen hw

section Handlers
variable [Build] {n : Nat}

theorem wp_setState_orderly (hfresh : assumed → Fresh levels) {s : ConnectionState} {w : World}
    (hw : IsOrderly levels assumed w)
    (hs : assumed → s = .open → w.state.state ≠ .open → ¬Answers levels) :
    wp staleness.contract P (Connection.setState n s) (fun _ => IsOrderly levels assumed)
      (fun _ => IsOrderly levels assumed) w := by
  apply (aside_orderly fun hassumed => .inl (hfresh hassumed)).wp_setState fun _ => hw
  intro hne
  apply hw.became hfresh
  intro hassumed hopen
  exact hs hassumed hopen fun hstate => hne (hopen.trans hstate.symm)

theorem kept_setState (hfresh : assumed → Fresh levels) (s : ConnectionState) (hs : s ≠ .open) :
    IsKept P levels assumed (Connection.setState n s) :=
  fun _ hw => wp_setState_orderly hfresh hw fun _ hopen => absurd hopen hs

/-- Only the answer to a request leads to `OPEN`. -/
theorem kept_transition (hfresh : assumed → Fresh levels) (m : MessageProxy)
    (hrequest : assumed → m.header.topic = .auth → m.header.action = .request → ¬Answers levels) :
    IsKept P levels assumed (Connection.transition n m) := by
  intro w hw
  unfold Connection.transition
  rw [Reentrant.wp_bind, Reentrant.wp_read, Reentrant.wp_bind]
  apply wp_lift
  · intro s hs
    rw [Reentrant.wp_bind, wp_when]
    refine ⟨fun herror => ?_, fun herror => ?_⟩
    · apply Reentrant.wp_mono (routine_orderly.report _ w hw)
      · intro _ w' hw'
        apply kept_setState hfresh s _ w' hw'
        rw [herror]
        exact nofun
      · exact fun _ _ hw' => hw'
    · apply wp_setState_orderly hfresh hw
      intro hassumed hopen hstate
      have hin := (transitionIncoming_eq_ok hs).2.resolve_right fun h => herror h.1
      obtain ⟨htopic, haction⟩ := hin.request_of_open hopen hstate
      exact hrequest hassumed htopic haction
  · exact fun _ _ => hw
  · exact fun _ _ => hw.inv

theorem handshakes_orderly (hfresh : assumed → Fresh levels) :
    Handshakes staleness.contract P (IsOrderly levels assumed) n := by
  have haside := aside_orderly (P := P) fun hassumed => .inl (hfresh hassumed)
  have hrefused : ∀ m, IsKept P levels assumed (Program.leave (.refused m)) :=
    fun m => kept_leave trivial id
  have hset : ∀ s w, (s = .open → w.state.state = .open) → IsOrderly levels assumed w →
      wp staleness.contract P (Connection.setState n s) (fun _ => IsOrderly levels assumed)
        (fun _ => IsOrderly levels assumed) w :=
    fun s w hopen hw => wp_setState_orderly hfresh hw fun _ hs hne => absurd (hopen hs) hne
  have hask : ∀ m buffer, IsKept P levels assumed (Program.ask (.wsSend m buffer)) :=
    fun m buffer => kept_ask fun hassumed _ => hfresh hassumed
  apply routine_orderly.handshakes haside.sending hrefused hset fun m buffer _ => hask m buffer
  apply Connection.keeps_sendAuthenticationRequest routine_orderly
  exact fun m hm => routine_orderly.sendHandshake haside.sending m (.inr hm) (hrefused m) hset (hask m)

omit [Build] in
theorem socketRoutine_orderly (hfresh : assumed → Fresh levels) :
    SocketRoutine staleness.contract P (IsOrderly levels assumed) where
  setUri _ := kept_ask fun hassumed _ => hfresh hassumed
  wsOpen := kept_ask fun hassumed _ => hfresh hassumed
  close := Connection.keeps_close (kept_modify fun _ => rfl)
    (kept_ask fun hassumed _ => hfresh hassumed)
  attempt _ := kept_modify fun _ => rfl

/-- What may be assumed once a message is being handled -/
structure Assumed (m : MessageProxy) (x : Option Header) (levels : List (Option Header)) :
    Prop where
  fresh : m.header.topic = .connection ∨ m.header.topic = .auth → x = none
  request : m.header.topic = .auth → m.header.action = .request → ¬Answers (x :: levels)

omit [Build] in
/-- A message begins to be handled. -/
theorem IsOrderly.dispatched {x : Option Header} {w : World}
    (h : IsOrderly (x :: levels) True w) (m : MessageProxy) :
    ∃ y, (y = none ∨ y = some m.header) ∧
      IsOrderly (y :: levels) (Assumed m y levels) (w.noted (.dispatched m w.state)) := by
  have hstales := stales_dispatched m w.state w.trace
  rw [h.atLevels] at hstales
  refine ⟨if reopened w.trace = true then some m.header else none, ?_, hstales,
    fun htolerable => ?_⟩
  · split
    · exact .inr rfl
    · exact .inl rfl
  obtain ⟨hharmless, htolerable⟩ := htolerable
  obtain ⟨-, hinert, hanswers⟩ := h.orderly htolerable
  have hlower : ∀ y ∈ levels, ∀ h ∈ y, h.IsPattern → Answers (stales w.trace) := by
    intro y hy h' hh hpattern
    rw [h.atLevels]
    exact ⟨y, List.mem_cons_of_mem _ hy, h', hh, hpattern⟩
  have hfresh : m.header.topic = .connection ∨ m.header.topic = .auth →
      (if reopened w.trace = true then some m.header else none) = none := by
    intro htopic
    split
    · next hreopened =>
        obtain ⟨hconnection, hauth⟩ := hharmless.topic hreopened
        exact absurd htopic (not_or.mpr ⟨hconnection, hauth⟩)
    · rfl
  refine ⟨⟨hfresh, ?_⟩, ⟨fun hacts => hacts.elim, hinert⟩, ?_⟩
  · rintro hauth hrequest ⟨y, hy, h', hh, hpattern⟩
    cases List.mem_cons.mp hy with
    | inl hhead =>
        rw [hhead, hfresh (.inr hauth)] at hh
        cases hh
    | inr hlevels => exact hharmless.request hauth hrequest (hlower y hlevels h' hh hpattern)
  · change Answers (stales (.note (.dispatched m w.state) :: w.trace)) → _
    rw [hstales]
    rintro ⟨y, hy, h', hh, hpattern⟩
    cases List.mem_cons.mp hy with
    | inl hhead =>
        rw [hhead] at hh
        split at hh
        · next hreopened =>
            cases hh
            exact hharmless.pattern hreopened hpattern
        · cases hh
    | inr hlevels => exact hanswers (hlower y hlevels h' hh hpattern)

/-- The handling of a message -/
theorem wp_handleMessage_orderly {x : Option Header} {w : World}
    (hw : IsOrderly (x :: levels) True w) (m : MessageProxy) :
    wp staleness.contract P (Connection.handleMessage n m)
      (fun _ w' => ∃ y, IsOrderly (y :: levels) True w')
      (fun _ w' => ∃ y, IsOrderly (y :: levels) True w') w := by
  obtain ⟨y, hy, hw'⟩ := hw.dispatched m
  have hfresh : ∀ topic, (topic = .connection ∨ topic = .auth) → m.header.topic = topic →
      Assumed m y levels → Fresh (y :: levels) := by
    rintro topic htopic rfl hassumed h heq
    rw [hassumed.fresh htopic] at heq
    cases heq
  have hkept : ∀ p : Program Unit, IsKept P (y :: levels) (Assumed m y levels) p →
      wp staleness.contract P p (fun _ w' => ∃ y, IsOrderly (y :: levels) True w')
        (fun _ w' => ∃ y, IsOrderly (y :: levels) True w')
        (Reentrant.World.noted w (.dispatched m w.state)) := by
    intro p hp
    have hdone : ∀ w' : World, IsOrderly (y :: levels) (Assumed m y levels) w' →
        ∃ y, IsOrderly (y :: levels) True w' :=
      fun w' h => ⟨y, h.atLevels, fun htolerable => ⟨trivial, h.inv htolerable⟩⟩
    exact Reentrant.wp_mono (hp _ hw') (fun _ => hdone) fun _ => hdone
  unfold Connection.handleMessage
  rw [Reentrant.wp_bind, Reentrant.wp_read, Reentrant.wp_bind, wp_leave]
  apply hkept
  apply Reentrant.keeps_bind (routine_orderly.debugMsg _)
  intro _
  have hmodify : ∀ f, IsKept P (y :: levels) (Assumed m y levels) (Program.modifyEvent f) :=
    fun f => kept_modify fun _ => rfl
  split
  · next htopic =>
      apply Event.keeps_notify routine_orderly.toSubscriberRoutine fun _ => hmodify _
      intro haction
      apply (aside_orderly fun _ => ?_).sendWith
      obtain rfl | rfl := hy
      · exact .inl nofun
      · exact .inr ⟨some m.header, List.mem_cons_self .., m.header, rfl, htopic, haction⟩
  · exact Presence.keeps_notify routine_orderly.toSubscriberRoutine m.view (fun _ => kept_modify fun _ => rfl)
      (fun _ _ _ => kept_ask fun _ hacts => hacts.elim) fun _ => kept_modify fun _ => rfl
  · next htopic =>
      have hfresh := hfresh .connection (.inl rfl) htopic
      unfold Connection.handleConnectionResponse
      apply Reentrant.keeps_bind
      · apply kept_transition hfresh
        intro _ hauth
        rw [htopic] at hauth
        cases hauth
      · intro _
        exact Connection.keeps_connectionAction routine_orderly (handshakes_orderly hfresh) m
          (socketRoutine_orderly hfresh).setUri
  · next htopic =>
      have hfresh := hfresh .auth (.inr rfl) htopic
      unfold Connection.handleAuthenticationResponse
      apply Reentrant.keeps_bind
      · apply Connection.keeps_authenticationAction routine_orderly
          (socketRoutine_orderly hfresh).close m
        exact fun _ f data => kept_ask fun _ hacts => hacts.elim
      · exact fun _ => kept_transition hfresh m Assumed.request
  · exact Reentrant.keeps_bind (routine_orderly.report _) fun _ => routine_orderly.assert _ _ _

/-- The messages of a buffer are handled one after another. -/
theorem handles_onMessage (raw : Buffer) :
    Keeps staleness.contract P (fun w => ∃ y, IsOrderly (y :: levels) True w)
      (Connection.onMessage n raw) := by
  have hroutine : Routine staleness.contract P
      fun w => ∃ y, IsOrderly (y :: levels) True w := {
    abort := fun _ _ ⟨_, hw⟩ => hw.inv
    ask := fun c hc w ⟨y, hw⟩ =>
      Reentrant.wp_mono (routine_orderly.ask c hc w hw) (fun _ _ h => ⟨y, h⟩) fun _ _ h => ⟨y, h⟩
    nextId := fun w ⟨y, hw⟩ =>
      Reentrant.wp_mono (routine_orderly.nextId w hw) (fun _ _ h => ⟨y, h⟩) fun _ _ h => ⟨y, h⟩ }
  exact Connection.keeps_onMessage hroutine raw fun m w ⟨x, hw⟩ => wp_handleMessage_orderly hw m

/-- Entries other than messages, which are never of an old connection -/
theorem kept_program (e : Entry) (he : ∀ raw, e ≠ .onMessage raw) :
    IsKept P (none :: levels) True (program n e) := by
  have hfresh : True → Fresh (none :: levels) := fun _ => nofun
  have haside := aside_orderly (P := P) fun h => .inl (hfresh h)
  have hs := socketRoutine_orderly (P := P) hfresh
  have hset := kept_setState (P := P) (n := n) hfresh
  cases e with
  | construct uri => exact Connection.keeps_construct routine_orderly hs uri
  | onOpen => exact Connection.keeps_onOpen hs hset
  | onClose | onError =>
      exact Connection.keeps_onClose hs (hset .closed nofun) (hset .reconnecting nofun)
  | onMessage raw => exact absurd rfl (he raw)
  | login auth callback =>
      exact Connection.keeps_login (handshakes_orderly hfresh).authenticationRequest auth callback
        (kept_modify fun _ => rfl)
  | close => exact hs.close
  | _ => exact haside.program n _ trivial

theorem wp_program_orderly (e : Entry) {w : World} (hw : IsOrderly (none :: levels) True w) :
    wp staleness.contract P (program n e) (fun _ w' => ∃ y, IsOrderly (y :: levels) True w')
      (fun _ w' => ∃ y, IsOrderly (y :: levels) True w') w := by
  by_cases he : ∃ raw, e = .onMessage raw
  · obtain ⟨raw, rfl⟩ := he
    exact handles_onMessage raw w ⟨none, hw⟩
  · have hkept : IsKept P (none :: levels) True (program n e) :=
      kept_program e fun raw heq => he ⟨raw, heq⟩
    exact Reentrant.wp_mono (hkept w hw) (fun _ _ h => ⟨none, h⟩) fun _ _ h => ⟨none, h⟩

theorem staleness_sound : staleness.Sound P (program n) where
  refl _ _ := trivial
  trans _ _ _ _ _ _ := trivial
  enter w c e _ hinv _ := by
    refine ⟨fun htolerable => ?_, trivial, w.trace, rfl⟩
    obtain ⟨hinert, hanswers⟩ := hinv htolerable
    refine ⟨⟨fun h => h.elim, hinert⟩, ?_⟩
    change Answers (stales (.enter e :: w.trace)) → w.state.state ≠ .open
    rw [stales_enter]
    rintro ⟨y, hy, h, hh, hpattern⟩
    cases List.mem_cons.mp hy with
    | inl hhead =>
        rw [hhead] at hh
        cases hh
    | inr hmem => exact hanswers ⟨y, hmem, h, hh, hpattern⟩
  entry e w hinv hpre := by
    obtain ⟨t, htrace⟩ := hpre
    have hw : IsOrderly (none :: stales t) True w :=
      ⟨htrace ▸ stales_enter e t, fun htolerable => ⟨trivial, hinv htolerable⟩⟩
    have hleft : ∀ r, ∀ w' : World, (∃ y, IsOrderly (y :: stales t) True w') →
        staleness.inv (staleness.background w) (w'.left e r) ∧
          staleness.rel (staleness.background w) w (w'.left e r) := by
      rintro r w' ⟨y, hw'⟩
      refine ⟨fun htolerable => ?_, trivial⟩
      obtain ⟨-, hinert, hanswers⟩ := hw'.orderly htolerable
      refine ⟨⟨fun h => h.elim, hinert⟩, ?_⟩
      change Answers (stales (.leave e r :: w'.trace)) → w'.state.state ≠ .open
      rw [stales_leave]
      rintro ⟨z, hz, hpattern⟩
      exact hanswers ⟨z, List.mem_of_mem_tail hz, hpattern⟩
    exact Reentrant.wp_mono (wp_program_orderly e hw) (fun _ => hleft _) fun _ => hleft _

end Handlers
end Programs

theorem Inert.fresh {newer older : List Item} {i : Item} (h : Inert (newer ++ i :: older))
    (hi : i.Acts) : Fresh (stales older) := by
  induction newer with
  | nil => exact h.1 hi
  | cons j newer ih => exact ih h.2

/-- If after every new connection only tolerable messages of the old one are left, then the
connection does nothing for any of them. -/
theorem stale_ignored [Build] (P : Policy interface) (n : Nat) (uri : Buffer)
    (cfg : Reentrant.Config interface) (hreach : Reaches P n uri cfg)
    (htolerable : AllTolerable cfg.world.trace) (newer older : List Item) (i : Item)
    (htrace : cfg.world.trace = newer ++ i :: older) (hi : i.Acts) : Fresh (stales older) := by
  have hstart : staleness.inv false { state := {} } :=
    fun _ => ⟨trivial, fun ⟨_, hmem, _⟩ => absurd hmem List.not_mem_nil⟩
  have hmain : staleness.inv false (Reentrant.World.entered { state := {} } (.construct uri)) := by
    refine fun _ => ⟨⟨fun h => h.elim, trivial⟩, ?_⟩
    rintro ⟨y, hy, h, hh, -⟩
    rw [List.mem_singleton.mp hy] at hh
    cases hh
  have hholds := (staleness_sound (P := P)).holds hstart ⟨hmain, ⟨_, rfl⟩⟩ hreach
  have horderly : Orderly cfg.world := by
    unfold Regime.Holds at hholds
    split at hholds
    · exact hholds htolerable
    · obtain ⟨-, ⟨-, h⟩ | ⟨_, _, -, h⟩⟩ := hholds
      · exact h htolerable
      · exact h htolerable
  have hinert := horderly.inert
  rw [htrace] at hinert
  exact hinert.fresh hi

/-- A client with a subscriber is redirected, and there is a message in the buffer after that. -/
def redirected (message : String) : List (Reentrant.Move interface) :=
  connecting ++ [.enter (.subscribe (bytes "a") (some 0)), receive "C|CH+", accept, accept,
    receive ("C|RED|ws://b+" ++ message), .enter .onOpen, accept]

def Item.isChange : Item → Bool
  | .note (.became _) => true
  | _ => false

theorem exists_of_isChange {t : List Item} (h : t.any Item.isChange = true) :
    ∃ newer i older, t = newer ++ i :: older ∧ i.Acts := by
  obtain ⟨i, hmem, hi⟩ := List.any_eq_true.mp h
  obtain ⟨newer, older, ht⟩ := List.append_of_mem hmem
  refine ⟨newer, i, older, ht, ?_⟩
  unfold Item.isChange at hi
  split at hi
  · trivial
  · cases hi

/-- An event that is sent along with the redirection is still handed to its subscriber. -/
theorem stale_ignored_event : let _ : Build := release
    ∃ cfg newer older i, Reaches pocoSocket 9 [] cfg ∧
      stales cfg.world.trace = [some { topic := .event, action := .event }, none] ∧
      cfg.world.trace = newer ++ i :: older ∧ i.Acts ∧ Fresh (stales older) := by
  intro _
  let cfg := after 9 [] (redirected "E|EVT|a|Sb+")
  have hreach : Reaches pocoSocket 9 [] cfg := by
    apply Reentrant.reachable_run
    decide +kernel
  have htolerable : decide (AllTolerable cfg.world.trace) = true := by decide +kernel
  have hstales : stales cfg.world.trace = [some { topic := .event, action := .event }, none] := by
    decide +kernel
  have hchange : cfg.world.trace.any Item.isChange = true := by decide +kernel
  clear_value cfg
  obtain ⟨newer, i, older, htrace, hi⟩ := exists_of_isChange hchange
  exact ⟨cfg, newer, older, i, hreach, hstales, htrace, hi,
    stale_ignored pocoSocket 9 [] cfg hreach (of_decide_eq_true htolerable) newer older i htrace hi⟩

/-- Whether the last that happened is that an answer to an old message was sent -/
def answersStale : List Item → Bool
  | .call (.wsSend _ _) :: t => (stales t).head?.any Option.isSome
  | _ => false

theorem exists_of_answersStale {t : List Item} (h : answersStale t = true) :
    ∃ m buffer older, t = .call (.wsSend m buffer) :: older ∧ ¬Fresh (stales older) := by
  unfold answersStale at h
  split at h
  · next m buffer older =>
      refine ⟨m, buffer, older, rfl, fun hfresh => ?_⟩
      cases hhead : (stales older).head? with
      | none =>
          rw [hhead] at h
          cases h
      | some x =>
          rw [hhead] at h
          cases x with
          | none => cases h
          | some header => exact hfresh header hhead
  · cases h

/-- The challenge of the old connection is answered on the new one. -/
theorem stale_not_ignored : let _ : Build := release
    ¬∀ cfg : Reentrant.Config interface, Reaches pocoSocket 9 [] cfg →
      ∀ newer older i, cfg.world.trace = newer ++ i :: older → i.Acts →
        Fresh (stales older) := by
  intro _ hclaim
  let cfg := after 9 [] (redirected "C|CH+" ++ [accept])
  have hreach : Reaches pocoSocket 9 [] cfg := by
    apply Reentrant.reachable_run
    decide +kernel
  have hanswers : answersStale cfg.world.trace = true := by decide +kernel
  clear_value cfg
  obtain ⟨m, buffer, older, htrace, hstale⟩ := exists_of_answersStale hanswers
  exact hstale (hclaim cfg hreach [] older (.call (.wsSend m buffer)) htrace trivial)

end Deepstream
