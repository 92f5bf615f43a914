import Deepstream.Client.Aside
import Deepstream.Client.Socket

/-!
How often a lost connection is opened again.

When a connection ends the client opens the socket, which may fail and report
that before it returns, so that the client tries again from within. The counter
of the attempts bounds this recursion; it is reset when the socket opens.
-/

namespace Deepstream

open Reentrant (Activity Config Keeps Move Policy Prog Regime Suspended advance next settle wp)

/-- The ways in which the end of a connection is reported -/
def Entry.isEnd : Entry → Bool
  | .onClose | .onError _ => true
  | _ => false

/-- The number of times the client has opened the socket -/
def opens (t : List Item) : Nat :=
  t.countP fun
    | .call .wsOpen => true
    | _ => false

/-- The world after a change of state -/
def changed (w : World) (s : ConnectionState) : World :=
  if s = w.state.state then w
  else Reentrant.World.noted { w with state := { w.state with state := s } }
    (.became { w.state with state := s })

/-- The world with another number of attempts -/
def attempting (w : World) (k : Nat) : World :=
  { w with state := { w.state with reconnectionAttempt := k } }

/-- The world where a client that has lost its connection opens the socket again -/
def reconnecting (w : World) : World :=
  Reentrant.World.calling
    (changed (attempting w (w.state.reconnectionAttempt + 1)) .reconnecting) .wsOpen

section Changed
variable (w : World) (s : ConnectionState)

@[simp] theorem changed_state : (changed w s).state = { w.state with state := s } := by
  unfold changed
  split
  · next h => rw [h]
  · rfl

@[simp] theorem changed_stack : (changed w s).stack = w.stack := by
  unfold changed
  split <;> rfl

theorem changed_trace : ∃ t, (changed w s).trace = t ++ w.trace ∧ t.length ≤ 1 ∧
    ∀ i ∈ t, ∃ n, i = .note n := by
  unfold changed
  split
  · exact ⟨[], rfl, Nat.zero_le 1, fun _ hi => absurd hi List.not_mem_nil⟩
  · exact ⟨[.note _], rfl, Nat.le_refl 1, fun i hi => ⟨_, List.mem_singleton.mp hi⟩⟩

end Changed

section Attempts
variable [Build] {n : Nat}

theorem advance_setState {s : ConnectionState} (hn : 0 < n) (hs : s ≠ .open) (w : World) :
    advance (Connection.setState n s) w = (.done (), changed w s) := by
  cases n with
  | zero => exact absurd hn (Nat.lt_irrefl 0)
  | succ n =>
      have hread : advance (I := interface) Prog.read w = (.done w.state, w) := rfl
      unfold Connection.setState changed
      rw [Reentrant.advance_bind hread]
      unfold Prog.when
      by_cases hsame : s = w.state.state
      · rw [if_neg (not_not_intro hsame), if_pos hsame]
        rfl
      · rw [if_pos hsame, if_neg hsame]
        change advance (Event.onConnectionStateChange _ n s) _ = _
        unfold Event.onConnectionStateChange Prog.when
        rw [if_neg hs]
        rfl

theorem advance_onClose (hn : 0 < n) (w : World) :
    advance (Connection.onClose n) w =
      if w.state.deliberateClose = true ∨ 3 ≤ w.state.reconnectionAttempt then
        (.done (), changed w .closed)
      else (.paused .wsOpen .ret, reconnecting w) := by
  have hread : advance (I := interface) Prog.read w = (.done w.state, w) := rfl
  unfold Connection.onClose
  rw [Reentrant.advance_bind hread]
  split
  · exact advance_setState hn (by decide) w
  · rw [Reentrant.advance_bind (a := ()) rfl]
    exact Reentrant.advance_bind (advance_setState hn (by decide) _)

theorem advance_onOpen (hn : 0 < n) (w : World) :
    advance (Connection.onOpen n) w = (.done (), changed (attempting w 0) .awaitConnection) := by
  unfold Connection.onOpen
  rw [Reentrant.advance_bind (a := ()) rfl]
  exact advance_setState hn (by decide) _

theorem settle_end {e : Entry} (hn : 0 < n) (he : e.isEnd = true)
    (frames : List (Suspended interface)) (w : World) :
    settle e frames (advance (program n e) w) =
      if w.state.deliberateClose = true ∨ 3 ≤ w.state.reconnectionAttempt then
        { world := (changed w .closed).left e (.ok ()), frames }
      else { world := reconnecting w, frames := ⟨e, .wsOpen, .ret⟩ :: frames } := by
  have hprogram : program n e = Connection.onClose n := by
    cases e with
    | onClose => rfl
    | onError => rfl
    | _ => cases he
  rw [hprogram, advance_onClose hn]
  split <;> rfl

end Attempts

/-- The ends of connections that `entries` report, each suspended where it opens the socket -/
structure Suspends (cfg now : Config interface) (entries : List Entry) : Prop where
  running : now.fault = none
  frames : now.frames = entries.map (fun e => ⟨e, .wsOpen, .ret⟩) ++ cfg.frames
  stack : now.world.stack = entries.flatMap (fun e => [.inr .wsOpen, .inl e]) ++ cfg.world.stack

/-- The socket was opened as often as there are suspended entries, and never successfully. -/
structure Trying (cfg now : Config interface) (entries : List Entry) : Prop
    extends Suspends cfg now entries where
  trace : ∃ t, now.world.trace = t ++ cfg.world.trace ∧ opens t = entries.length ∧
    .enter .onOpen ∉ t
  attempt : now.world.state.reconnectionAttempt =
    cfg.world.state.reconnectionAttempt + entries.length
  bound : entries.length ≤ 3 - cfg.world.state.reconnectionAttempt

/-- The last attempt is over, and what is suspended has only to return. -/
structure Returning (cfg now : Config interface) (entries : List Entry) : Prop
    extends Suspends cfg now entries where
  trace : ∃ e t, now.world.trace = .leave e (.ok ()) :: t ++ cfg.world.trace ∧
    opens t ≤ 3 - cfg.world.state.reconnectionAttempt ∧
    (.enter .onOpen ∈ t → now.world.state.state = .awaitConnection) ∧
    (.enter .onOpen ∉ t → now.world.state.state = .closed)

theorem opens_notes {t : List Item} (h : ∀ i ∈ t, ∃ n, i = .note n) : opens t = 0 := by
  apply List.countP_eq_zero.mpr
  intro i hi
  obtain ⟨n, rfl⟩ := h i hi
  exact Bool.false_ne_true

theorem not_mem_notes {t : List Item} (h : ∀ i ∈ t, ∃ n, i = .note n) (e : Entry) :
    .enter e ∉ t := by
  intro hmem
  obtain ⟨n, hn⟩ := h _ hmem
  cases hn

section Steps
variable [Build] {n : Nat} {cfg now : Config interface} {entries : List Entry} {e : Entry}

omit [Build] in
theorem Trying.start (hrunning : cfg.fault = none) : Trying cfg cfg [] where
  running := hrunning
  frames := rfl
  stack := rfl
  trace := ⟨[], rfl, rfl, List.not_mem_nil⟩
  attempt := rfl
  bound := Nat.zero_le _

/-- Another end of a connection is reported. -/
theorem Trying.reports (h : Trying cfg now entries) (hn : 0 < n) (he : e.isEnd = true) :
    (Trying cfg (settle e now.frames (advance (program n e) (now.world.entered e)))
        (e :: entries) ∧
      justCalled (settle e now.frames (advance (program n e) (now.world.entered e))).world = true) ∨
    Returning cfg (settle e now.frames (advance (program n e) (now.world.entered e))) entries := by
  obtain ⟨t, ht, hopens, hnever⟩ := h.trace
  have hne : e ≠ .onOpen := by
    rintro rfl
    cases he
  have hentered : .enter .onOpen ∉ (.enter e :: t : List Item) := by
    intro hmem
    cases List.mem_cons.mp hmem with
    | inl heq => exact hne (by cases heq; rfl)
    | inr hmem => exact hnever hmem
  rw [settle_end hn he]
  split
  · right
    obtain ⟨u, hu, -, hnotes⟩ := changed_trace (now.world.entered e) .closed
    refine ⟨⟨rfl, h.frames, ?_⟩, e, u ++ .enter e :: t, ?_, ?_, ?_, ?_⟩
    · change (changed (now.world.entered e) .closed).stack.tail = _
      rw [changed_stack]
      exact h.stack
    · change .leave e (.ok ()) :: (changed (now.world.entered e) .closed).trace = _
      rw [hu]
      change _ :: (u ++ .enter e :: now.world.trace) = _
      rw [ht]
      simp
    · have hcount : opens (u ++ .enter e :: t) = opens t := by
        unfold opens at *
        rw [List.countP_append, ← opens, opens_notes hnotes, Nat.zero_add,
          List.countP_cons_of_neg Bool.false_ne_true]
      rw [hcount, hopens]
      exact h.bound
    · intro hmem
      cases List.mem_append.mp hmem with
      | inl hmem => exact absurd hmem (not_mem_notes hnotes _)
      | inr hmem => exact absurd hmem hentered
    · intro _
      change (changed (now.world.entered e) .closed).state.state = _
      rw [changed_state]
  · next hgoes =>
      left
      obtain ⟨u, hu, -, hnotes⟩ := changed_trace (attempting (now.world.entered e)
        (now.world.state.reconnectionAttempt + 1)) .reconnecting
      have hlt : now.world.state.reconnectionAttempt < 3 :=
        Nat.lt_of_not_le fun hle => hgoes (.inr hle)
      have hattempt := h.attempt
      refine ⟨⟨⟨rfl, ?_, ?_⟩, ⟨.call .wsOpen :: (u ++ .enter e :: t), ?_, ?_, ?_⟩, ?_, ?_⟩, rfl⟩
      · change _ :: now.frames = _
        rw [h.frames]
        rfl
      · change .inr .wsOpen :: (changed _ .reconnecting).stack = _
        rw [changed_stack]
        change _ :: .inl e :: now.world.stack = _
        rw [h.stack]
        rfl
      · change .call .wsOpen :: (changed (attempting (now.world.entered e)
          (now.world.state.reconnectionAttempt + 1)) .reconnecting).trace = _
        rw [hu]
        change _ :: (u ++ .enter e :: now.world.trace) = _
        rw [ht]
        simp
      · unfold opens at hopens ⊢
        rw [List.countP_cons_of_pos rfl, List.countP_append, ← opens, opens_notes hnotes,
          Nat.zero_add, List.countP_cons_of_neg Bool.false_ne_true, hopens]
        rfl
      · intro hmem
        cases List.mem_append.mp ((List.mem_cons.mp hmem).resolve_left nofun) with
        | inl hmem => exact not_mem_notes hnotes _ hmem
        | inr hmem => exact hentered hmem
      · change (changed _ .reconnecting).state.reconnectionAttempt = _
        rw [changed_state]
        change now.world.state.reconnectionAttempt + 1 = _
        rw [hattempt, List.length_cons, Nat.add_assoc]
      · rw [List.length_cons]
        omega

/-- The socket opens. -/
theorem Trying.opened (h : Trying cfg now entries) (hn : 0 < n) :
    Returning cfg (settle .onOpen now.frames
      (advance (program n .onOpen) (now.world.entered .onOpen))) entries := by
  obtain ⟨t, ht, hopens, -⟩ := h.trace
  have hprogram : program n .onOpen = Connection.onOpen n := rfl
  rw [hprogram, advance_onOpen hn]
  obtain ⟨u, hu, -, hnotes⟩ :=
    changed_trace (attempting (now.world.entered .onOpen) 0) .awaitConnection
  have hmem : .enter .onOpen ∈ u ++ .enter .onOpen :: t :=
    List.mem_append_right _ (List.mem_cons_self ..)
  refine ⟨⟨rfl, h.frames, ?_⟩, .onOpen, u ++ .enter .onOpen :: t, ?_, ?_, fun _ => ?_,
    fun hnever => absurd hmem hnever⟩
  · change (changed _ .awaitConnection).stack.tail = _
    rw [changed_stack]
    exact h.stack
  · change .leave .onOpen (.ok ()) :: (changed _ .awaitConnection).trace = _
    rw [hu]
    change _ :: (u ++ .enter .onOpen :: now.world.trace) = _
    rw [ht]
    simp
  · unfold opens at hopens ⊢
    rw [List.countP_append, ← opens, opens_notes hnotes, Nat.zero_add,
      List.countP_cons_of_neg Bool.false_ne_true, hopens]
    exact h.bound
  · change (changed _ .awaitConnection).state.state = _
    rw [changed_state]

omit [Build] in
/-- A suspended entry returns, as opening the socket did. -/
theorem Returning.back (h : Returning cfg now (e :: entries)) :
    Returning cfg (settle e (entries.map (fun e => ⟨e, .wsOpen, .ret⟩) ++ cfg.frames)
      (.done (), now.world.returned .wsOpen (.ok ()))) entries := by
  obtain ⟨e', t, ht, hopens, hopened, hfailed⟩ := h.trace
  have hmem : .enter .onOpen ∈ (.back .wsOpen (.ok ()) :: .leave e' (.ok ()) :: t : List Item) ↔
      .enter .onOpen ∈ t :=
    ⟨fun h => (List.mem_cons.mp ((List.mem_cons.mp h).resolve_left nofun)).resolve_left nofun,
      fun h => List.mem_cons_of_mem _ (List.mem_cons_of_mem _ h)⟩
  refine ⟨⟨rfl, rfl, ?_⟩, e, .back .wsOpen (.ok ()) :: .leave e' (.ok ()) :: t, ?_, ?_, ?_, ?_⟩
  · change now.world.stack.tail.tail = _
    rw [h.stack]
    rfl
  · change .leave e (.ok ()) :: .back .wsOpen (.ok ()) :: now.world.trace = _
    rw [ht]
    rfl
  · unfold opens at *
    rw [List.countP_cons_of_neg Bool.false_ne_true, List.countP_cons_of_neg Bool.false_ne_true]
    exact hopens
  · rw [hmem]
    exact hopened
  · rw [hmem]
    exact hfailed

variable (cfg) in
/-- An activity that began with the end of a connection, and how many moves it has left -/
inductive Phase : Nat → Config interface → Prop where
  | opening (now : Config interface) (e : Entry) (entries : List Entry)
      (htrying : Trying cfg now (e :: entries)) (hcalled : justCalled now.world = true) :
      Phase (1 + 2 * (3 - cfg.world.state.reconnectionAttempt - (e :: entries).length) +
        (e :: entries).length) now
  | returning (now : Config interface) (entries : List Entry)
      (hreturning : Returning cfg now entries) : Phase entries.length now

theorem Phase.start (hrunning : cfg.fault = none) (hframes : cfg.frames ≠ []) (hn : 0 < n)
    (he : e.isEnd = true) : ∃ left ≤ 2 * (3 - cfg.world.state.reconnectionAttempt),
      Phase cfg left (next (program n) cfg (.enter e)) := by
  rw [Reentrant.next_enter _ hrunning hframes]
  cases (Trying.start hrunning).reports hn he with
  | inl h =>
      have hbound := h.1.bound
      refine ⟨_, ?_, .opening _ e [] h.1 h.2⟩
      rw [List.length_singleton] at *
      omega
  | inr h => exact ⟨_, Nat.zero_le _, .returning _ [] h⟩

/-- One move of such an activity -/
theorem Phase.next {left : Nat} {move : Move interface} (h : Phase cfg left now) (hn : 0 < n)
    (hactive : now.frames.length ≠ cfg.frames.length) (hmove : openingSocket.Permits now move) :
    ∃ left' < left, Phase cfg left' (Reentrant.next (program n) now move) := by
  cases h with
  | opening _ e entries htrying hcalled =>
      have hframes := htrying.frames
      have hinnermost : innermost now.world = some .wsOpen :=
        innermost_of_stack htrying.stack
      unfold Policy.Permits at hmove
      rw [List.map_cons, List.cons_append] at hframes
      rw [hframes] at hmove
      cases move with
      | enter e' =>
          change openingSocket.enter now.world e' at hmove
          unfold openingSocket at hmove
          dsimp only at hmove
          rw [hinnermost] at hmove
          rw [Reentrant.next_enter _ htrying.running (by rw [hframes]; exact List.cons_ne_nil _ _)]
          cases e' with
          | onOpen => exact ⟨_, by omega, .returning _ _ (htrying.opened hn)⟩
          | onError error =>
              cases htrying.reports hn (e := .onError error) rfl with
              | inl h =>
                  have hbound := h.1.bound
                  refine ⟨_, ?_, .opening _ _ _ h.1 h.2⟩
                  simp only [List.length_cons] at *
                  omega
              | inr h => exact ⟨_, by omega, .returning _ _ h⟩
          | _ => cases hmove.2
      | back answer =>
          have hended : justEnded now.world = none := by
            unfold justCalled at hcalled
            unfold justEnded
            split at hcalled
            · next htrace => rw [htrace]
            · cases hcalled
          change openingSocket.back now.world .wsOpen _ at hmove
          unfold openingSocket at hmove
          dsimp only at hmove
          rw [hended] at hmove
          exact hmove.elim
  | returning _ entries hreturning =>
      cases entries with
      | nil => exact absurd (congrArg List.length hreturning.frames) hactive
      | cons e entries =>
          have hframes := hreturning.frames
          obtain ⟨e', t, ht, -⟩ := hreturning.trace
          have hinnermost : innermost now.world = some .wsOpen :=
            innermost_of_stack hreturning.stack
          unfold Policy.Permits at hmove
          rw [List.map_cons, List.cons_append] at hframes
          rw [hframes] at hmove
          cases move with
          | enter e' =>
              change openingSocket.enter now.world e' at hmove
              unfold openingSocket justCalled at hmove
              dsimp only at hmove
              rw [hinnermost, ht] at hmove
              cases hmove.1
          | back answer =>
              rw [Reentrant.next_back _ hreturning.running hframes]
              change openingSocket.back now.world .wsOpen _ at hmove
              unfold openingSocket justEnded at hmove
              dsimp only at hmove
              rw [ht] at hmove
              cases hanswer : answer .wsOpen with
              | ok a =>
                  refine ⟨_, Nat.lt_succ_self _, .returning _ _ ?_⟩
                  exact hreturning.back
              | error x =>
                  rw [hanswer] at hmove
                  cases hmove

/-- The end of a connection leads through these phases, whatever the socket does. -/
theorem exists_phase (hn : 0 < n) (he : e.isEnd = true)
    (h : Activity openingSocket (program n) cfg e now) :
    ∃ left ≤ 2 * (3 - cfg.world.state.reconnectionAttempt), Phase cfg left now := by
  induction h with
  | enter hrunning hframes hmove => exact Phase.start hrunning hframes hn he
  | move now move _ hactive hmove ih =>
      obtain ⟨left, hle, hphase⟩ := ih
      obtain ⟨left', hlt, hphase'⟩ := hphase.next hn hactive hmove
      exact ⟨left', by omega, hphase'⟩

theorem Phase.terminates {left : Nat} {moves : List (Move interface)} (h : Phase cfg left now)
    (hn : 0 < n) (hactive : Reentrant.ActiveFrom openingSocket (program n) cfg now moves) :
    moves.length ≤ left := by
  induction moves generalizing now left with
  | nil => exact Nat.zero_le _
  | cons move moves ih =>
      obtain ⟨left', hlt, hphase'⟩ := h.next hn hactive.1 hactive.2.1
      have hle := ih hphase' hactive.2.2
      rw [List.length_cons]
      omega

omit [Build] in
theorem Phase.running {left : Nat} (h : Phase cfg left now) : now.fault = none := by
  cases h with
  | opening _ _ _ htrying _ => exact htrying.running
  | returning _ _ hreturning => exact hreturning.running

omit [Build] in
theorem Phase.opens_le {left : Nat} (h : Phase cfg left now) :
    opens (cfg.since now) ≤ 3 - cfg.world.state.reconnectionAttempt := by
  cases h with
  | opening _ e entries htrying _ =>
      obtain ⟨t, ht, hopens, -⟩ := htrying.trace
      rw [Config.since_eq ht, hopens]
      exact htrying.bound
  | returning _ entries hreturning =>
      obtain ⟨e, t, ht, hopens, -⟩ := hreturning.trace
      rw [Config.since_eq ht]
      exact hopens

omit [Build] in
/-- The state in which such an activity ends -/
theorem Phase.ended {left : Nat} (h : Phase cfg left now) (hended : cfg.Ended now) :
    (.enter .onOpen ∈ cfg.since now → now.world.state.state = .awaitConnection) ∧
      (.enter .onOpen ∉ cfg.since now → now.world.state.state = .closed) := by
  cases h with
  | opening _ e entries htrying _ =>
      have hlength := hended.length
      rw [htrying.frames, List.length_append, List.length_map, List.length_cons] at hlength
      omega
  | returning _ entries hreturning =>
      obtain ⟨e, t, ht, -, hopened, hfailed⟩ := hreturning.trace
      rw [Config.since_eq ht]
      have hmem : .enter .onOpen ∈ (.leave e (.ok ()) :: t : List Item) ↔ .enter .onOpen ∈ t :=
        ⟨fun h => (List.mem_cons.mp h).resolve_left nofun, List.mem_cons_of_mem _⟩
      rw [hmem]
      exact ⟨hopened, hfailed⟩

end Steps

/-- How often opening the socket has failed since it last opened: such a failure is reported
from within the call that opens it. -/
def failures : List Item → Nat
  | [] => 0
  | .enter .onOpen :: _ => 0
  | .enter (.onError _) :: .call .wsOpen :: t => failures t + 1
  | .enter (.onError _) :: .call (.setUri _) :: t => failures t + 1
  | _ :: t => failures t

/-- The counter bounds the failures. -/
structure Budget (w : World) : Prop where
  attempt : w.state.reconnectionAttempt ≤ 3
  failed : failures w.trace ≤ w.state.reconnectionAttempt + 1
  history : ∀ t, t <:+ w.trace → failures t ≤ 4

/-- An open socket starts afresh. -/
def Afresh (w : World) : Prop :=
  socketOpen w.trace = true → w.state.reconnectionAttempt = 0 ∧ failures w.trace = 0

structure Spent (w : World) : Prop extends Budget w where
  afresh : Afresh w

/-- When `on_open` is called the counter is still to be reset, and when the socket is about to
be opened there has been an attempt for every failure. -/
structure Spending (w : World) : Prop extends Budget w where
  afresh : w.trace.head? ≠ some (.enter .onOpen) → Afresh w
  opening : w.trace.head? = some (.call .wsOpen) → failures w.trace ≤
    w.state.reconnectionAttempt

/-- A socket that is not open is not touched by its simpler methods. -/
def spending : Regime interface where
  quiet
    | .wsState | .uri | .setUri _ => true
    | _ => false
  inv _ := Spending
  rel quiet w w' := quiet = true → (∃ c t, w.trace = .call c :: t) → socketOpen w.trace = false →
    w' = w
  pre e w := (∃ t, w.trace = .enter e :: t) ∧ ∀ uri, e = .construct uri →
    failures w.trace = 0 ∧ socketOpen w.trace = false
  abort _ _ := True

/-- What such a socket enters, and when -/
inductive OpeningEnters (w : World) : Call → Entry → Prop where
  | wsOpen (t : List Item) (htrace : w.trace = .call .wsOpen :: t) (e : Entry)
      (he : e.isOutcome = true) : OpeningEnters w .wsOpen e
  | setUri (uri : Buffer) (t : List Item) (htrace : w.trace = .call (.setUri uri) :: t)
      (hopen : socketOpen w.trace = true) (e : Entry) (he : e.isOutcome = true) :
      OpeningEnters w (.setUri uri) e
  | other (c : Call) (hquiet : spending.quiet c = false) (hc : c ≠ .wsOpen) (e : Entry)
      (he : ∀ uri, e ≠ .construct uri) : OpeningEnters w c e

theorem openingSocket_enter {w : World} {c : Call} {e : Entry} (hcall : w.InCall c)
    (h : openingSocket.enter w e) : OpeningEnters w c e := by
  obtain ⟨rest, hstack⟩ := hcall.stack
  unfold openingSocket at h
  dsimp only at h
  rw [innermost_of_stack hstack] at h
  cases c with
  | wsOpen =>
      obtain ⟨t, htrace⟩ := exists_of_justCalled hcall h.1
      exact .wsOpen t htrace e h.2
  | setUri uri =>
      obtain ⟨t, htrace⟩ := exists_of_justCalled hcall h.1
      exact .setUri uri t htrace h.2.1 e h.2.2
  | uri => exact h.elim
  | wsState => exact h.elim
  | _ => exact .other _ rfl (by rintro ⟨⟩) e h

/-- Items other than the entries that a socket makes when it changes -/
def Item.isQuiet : Item → Bool
  | .enter e => !e.isNotice
  | _ => true

theorem failures_cons {i : Item} (hi : i.isQuiet = true) (t : List Item) :
    failures (i :: t) = failures t := by
  cases i with
  | enter e =>
      cases e with
      | onOpen | onClose | onError => cases hi
      | _ => rfl
  | _ => rfl

theorem socketOpen_cons {i : Item} (hi : i.isQuiet = true) (t : List Item) :
    socketOpen (i :: t) = socketOpen t := by
  cases i with
  | enter e =>
      cases e with
      | onOpen | onClose | onError => cases hi
      | _ => rfl
  | _ => rfl

/-- Something has happened that leaves the number of failures within the budget. -/
theorem Budget.cons {w w' : World} (h : Budget w) {i : Item} (htrace : w'.trace = i :: w.trace)
    (hattempt : w'.state.reconnectionAttempt = w.state.reconnectionAttempt)
    (hi : failures (i :: w.trace) ≤ w.state.reconnectionAttempt + 1) : Budget w' := by
  refine ⟨hattempt ▸ h.attempt, by rwa [htrace, hattempt], fun t ht => ?_⟩
  rw [htrace] at ht
  cases List.suffix_cons_iff.mp ht with
  | inl heq =>
      rw [heq]
      exact hi.trans (Nat.succ_le_succ h.attempt)
  | inr ht => exact h.history t ht

theorem Spent.cons {w w' : World} (h : Spent w) {i : Item} (hi : i.isQuiet = true)
    (htrace : w'.trace = i :: w.trace)
    (hattempt : w'.state.reconnectionAttempt = w.state.reconnectionAttempt) : Spent w' := by
  refine ⟨h.toBudget.cons htrace hattempt (by rw [failures_cons hi]; exact h.failed), ?_⟩
  intro hopen
  rw [htrace, socketOpen_cons hi] at hopen
  rw [htrace, failures_cons hi, hattempt]
  exact h.afresh hopen

theorem Spent.spending {w : World} (h : Spent w)
    (hopening : w.trace.head? = some (.call .wsOpen) → failures w.trace ≤
      w.state.reconnectionAttempt) : Spending w :=
  ⟨h.toBudget, fun _ => h.afresh, hopening⟩

theorem Spending.spent {w : World} (h : Spending w) (hpaused : w.Paused) : Spent w :=
  ⟨h.toBudget, h.afresh (hpaused .onOpen)⟩

section Programs
variable {α : Type}

abbrev Spends (p : Program α) : Prop :=
  Keeps spending.contract openingSocket Spent p

theorem spends_modify {f : Client → Client}
    (hf : ∀ c, (f c).reconnectionAttempt = c.reconnectionAttempt) : Spends (Prog.modify f) := by
  apply Reentrant.keeps_modify
  intro w hw
  refine ⟨⟨(hf _).symm ▸ hw.attempt, (hf _).symm ▸ hw.failed, hw.history⟩, fun hopen => ?_⟩
  exact (hf w.state).symm ▸ hw.afresh hopen

theorem spends_leave (n : Note) : Spends (Program.leave n) :=
  Reentrant.keeps_leave fun _ hw => hw.cons (i := .note n) rfl rfl rfl

/-- A call, if there has been an attempt for every failure where it is to open the socket -/
theorem wp_ask_spent {c : Call} {w : World} (hw : Spent w)
    (hc : c = .wsOpen → failures w.trace ≤ w.state.reconnectionAttempt) :
    wp spending.contract openingSocket (Program.ask c) (fun _ => Spent) (fun _ => Spent) w := by
  have hcalling : Spent (Reentrant.World.calling w c) := hw.cons (i := .call c) rfl rfl rfl
  apply Reentrant.wp_ask
  · refine ⟨hcalling.spending fun hhead => ?_, _, rfl⟩
    change failures (.call c :: w.trace) ≤ _
    rw [failures_cons rfl]
    exact hc (by cases hhead; rfl)
  · intro w' hlater hafter
    have hw' := hafter.1.spent hlater.inCall.paused
    exact ⟨fun a _ => hw'.cons (i := .back c (.ok a)) rfl rfl rfl,
      fun x _ => hw'.cons (i := .back c (.error x)) rfl rfl rfl⟩

theorem spends_ask {c : Call} (hc : c ≠ .wsOpen) : Spends (Program.ask c) :=
  fun _ hw => wp_ask_spent hw fun heq => absurd heq hc

/-- A simple method of a socket that is not open -/
theorem wp_ask_still {c : Call} (hc : spending.quiet c = true) {w : World} (hw : Spent w)
    (hclosed : socketOpen w.trace = false) {Q : c.Answer → World → Prop}
    {E : Exception → World → Prop}
    (hQ : ∀ a, Q a ((Reentrant.World.calling w c).returned c (.ok a)))
    (hE : ∀ x, E x ((Reentrant.World.calling w c).returned c (.error x))) :
    wp spending.contract openingSocket (Program.ask c) Q E w := by
  have hcalling : Spent (Reentrant.World.calling w c) := hw.cons (i := .call c) rfl rfl rfl
  apply Reentrant.wp_ask
  · refine ⟨hcalling.spending fun hhead => ?_, _, rfl⟩
    cases hhead
    cases hc
  · intro w' _ hafter
    have hsame : w' = Reentrant.World.calling w c := hafter.2 hc ⟨c, w.trace, rfl⟩ hclosed
    rw [hsame]
    exact ⟨fun a _ => hQ a, fun x _ => hE x⟩

theorem aside_spent : Aside spending.contract openingSocket Spent where
  routine := {
    abort := fun _ _ _ => trivial
    ask := fun c hc => spends_ask (by rintro rfl; cases hc)
    nextId := Reentrant.keeps_read_bind fun _ =>
      Reentrant.keeps_bind (spends_modify fun _ => rfl) fun _ => Reentrant.keeps_pure _ }
  modifyEvent _ := spends_modify fun _ => rfl
  modifyPresence _ := spends_modify fun _ => rfl
  queryFn _ _ := spends_ask nofun
  emitted m := spends_leave (.emitted m)
  sending m := spends_leave (.sending m)
  handEvent m buffer w _ _ := spends_ask (c := .wsSend m buffer) nofun w
  handPresence m buffer w _ _ := spends_ask (c := .wsSend m buffer) nofun w

theorem keepsChanges_spent : KeepsChanges Spent :=
  fun _ _ _ hw => hw.cons (i := .note _) rfl rfl rfl

theorem spends_close : Spends Connection.close :=
  Connection.keeps_close (spends_modify fun _ => rfl) (spends_ask nofun)

section Handlers
variable [Build] {n : Nat} {cfg : Config interface}

theorem responsive_spent : Responsive spending.contract openingSocket Spent n :=
  aside_spent.responsive keepsChanges_spent n (fun m => spends_leave (.refused m))
    (fun m buffer _ => spends_ask (c := .wsSend m buffer) nofun)
    (Connection.keeps_sendAuthenticationRequest aside_spent.routine fun m hm =>
      aside_spent.routine.sendHandshake aside_spent.sending m (.inr hm) (spends_leave (.refused m))
        (fun s w _ => aside_spent.setState keepsChanges_spent n s w)
        fun buffer => spends_ask (c := .wsSend m buffer) nofun)

theorem spends_program (e : Entry) (he : e.isNotice = false)
    (hconstruct : ∀ uri, e ≠ .construct uri) : Spends (program n e) := by
  have hr := aside_spent.routine
  cases e with
  | construct uri => exact absurd rfl (hconstruct uri)
  | onOpen | onClose | onError => cases he
  | onMessage raw =>
      apply Connection.keeps_onMessage hr raw
      intro m
      apply Connection.keeps_handleMessage hr responsive_spent
        (fun uri => spends_ask (c := .setUri uri) nofun) spends_close m
      · exact fun _ _ f data => spends_ask (c := .loginCallback f data) nofun
      · exact fun c => spends_leave (.dispatched m c)
  | login auth callback =>
      exact Connection.keeps_login responsive_spent.authenticationRequest auth callback
        (spends_modify fun _ => rfl)
  | close => exact spends_close
  | _ => exact aside_spent.program n _ trivial

/-- The counter is reset. -/
theorem wp_onOpen_spent {w : World} (hw : Budget w) (hfresh : failures w.trace = 0) :
    wp spending.contract openingSocket (Connection.onOpen n) (fun _ => Spent) (fun _ => Spent)
      w := by
  unfold Connection.onOpen
  rw [Reentrant.wp_bind, Reentrant.wp_modify]
  apply aside_spent.setState keepsChanges_spent
  exact ⟨⟨Nat.zero_le _, by rw [hfresh]; exact Nat.zero_le _, hw.history⟩, fun _ => ⟨rfl, hfresh⟩⟩

/-- The counter is increased before the socket is opened. -/
theorem wp_onClose_spent {w : World} (hw : Spent w) (hclosed : socketOpen w.trace = false) :
    wp spending.contract openingSocket (Connection.onClose n) (fun _ => Spent) (fun _ => Spent)
      w := by
  unfold Connection.onClose
  rw [Reentrant.wp_bind, Reentrant.wp_read]
  split
  · exact aside_spent.setState keepsChanges_spent n _ w hw
  · next hgoes =>
      have hlt : w.state.reconnectionAttempt < 3 :=
        Nat.lt_of_not_le fun hle => hgoes (.inr hle)
      have hattempt : Spent { w with state := { w.state with
          reconnectionAttempt := w.state.reconnectionAttempt + 1 } } :=
        ⟨⟨hlt, hw.failed.trans (Nat.le_succ _), hw.history⟩,
          fun hopen => absurd hopen (by rw [hclosed]; exact Bool.false_ne_true)⟩
      rw [Reentrant.wp_bind, Reentrant.wp_modify, Reentrant.wp_bind]
      apply wp_setState (fun _ _ => trivial)
      · exact nofun
      · exact fun _ => wp_ask_spent hattempt fun _ => hw.failed
      · intro hne
        apply wp_ask_spent (keepsChanges_spent _ _ hne hattempt)
        intro _
        change failures (.note _ :: w.trace) ≤ _
        rw [failures_cons rfl]
        exact hw.failed

/-- The socket is opened for the first time. -/
theorem wp_construct_spent {uri : Buffer} {w : World} (hw : Spent w)
    (hfresh : failures w.trace = 0) (hclosed : socketOpen w.trace = false) :
    wp spending.contract openingSocket (Connection.construct uri) (fun _ => Spent)
      (fun _ => Spent) w := by
  have hasked : ∀ {w : World} {c : Call} (r : Except Exception c.Answer), Spent w →
      Spent ((Reentrant.World.calling w c).returned c r) := by
    intro w c r hw
    have hcalling : Spent (Reentrant.World.calling w c) := hw.cons (i := .call c) rfl rfl rfl
    exact hcalling.cons (i := .back c r) rfl rfl rfl
  unfold Connection.construct
  rw [Reentrant.wp_bind]
  apply wp_ask_still rfl hw hclosed
  · intro wsState
    rw [Reentrant.wp_bind]
    apply wp_assert_of (fun _ _ => trivial)
    intro _
    have hw₁ := hasked (c := .wsState) (.ok wsState) hw
    rw [Reentrant.wp_bind]
    apply wp_ask_still (c := .setUri uri) rfl hw₁ hclosed
    · intro _
      have hw₂ := hasked (c := .setUri uri) (.ok ()) hw₁
      rw [Reentrant.wp_bind]
      apply Reentrant.wp_mono (wp_ask_spent (c := .wsOpen) hw₂ fun _ => ?_)
      · intro _ w₃ hw₃
        rw [Reentrant.wp_bind]
        apply Reentrant.wp_mono (wp_ask_spent (c := .idle) hw₃ nofun)
        · exact nofun
        · exact fun _ _ hw₄ => hw₄
      · exact fun _ _ hw₃ => hw₃
      · change failures w.trace ≤ _
        rw [hfresh]
        exact Nat.zero_le _
    · exact fun x => hasked (c := .setUri uri) (.error x) hw₁
  · exact fun x => hasked (c := .wsState) (.error x) hw

omit [Build] in
/-- An end of the connection that is not the outcome of opening the socket -/
theorem failures_onError {w : World} {c : Call} (hcall : w.InCall c) (hc : c ≠ .wsOpen)
    (hquiet : spending.quiet c = false) (error : Buffer) :
    failures (.enter (.onError error) :: w.trace) = failures w.trace := by
  cases htrace : w.trace with
  | nil => rfl
  | cons i t =>
      cases i with
      | call c' =>
          cases hcall.head c' (by rw [htrace]; rfl)
          cases c with
          | wsOpen => exact absurd rfl hc
          | setUri => cases hquiet
          | _ => rfl
      | _ => rfl

omit [Build] in
/-- What such a socket enters stays within the budget. -/
theorem OpeningEnters.spending {w : World} {c : Call} {e : Entry} (h : OpeningEnters w c e)
    (hcall : w.InCall c) (hw : Spending w) : Spending (w.entered e) ∧
      (∀ uri, e ≠ .construct uri) ∧
      (spending.quiet c = true → socketOpen w.trace = true) := by
  have hspent := hw.spent hcall.paused
  have hopened : Spending (w.entered .onOpen) := by
    have hfresh : failures (.enter .onOpen :: w.trace) = 0 := by
      unfold failures
      rfl
    exact ⟨hspent.toBudget.cons rfl rfl (by rw [hfresh]; exact Nat.zero_le _),
      fun hhead => absurd rfl hhead, nofun⟩
  have hfailed : ∀ error, failures (.enter (.onError error) :: w.trace) ≤
      w.state.reconnectionAttempt + 1 → Spending (w.entered (.onError error)) :=
    fun error hfailed => ⟨hspent.toBudget.cons rfl rfl hfailed, fun _ => nofun, nofun⟩
  cases h with
  | wsOpen t htrace e he =>
      refine ⟨?_, (by rintro uri rfl; cases he), nofun⟩
      cases e with
      | onOpen => exact hopened
      | onError error =>
          apply hfailed
          have hopening := hw.opening (by rw [htrace]; rfl)
          rw [htrace] at hopening ⊢
          exact Nat.succ_le_succ hopening
      | _ => cases he
  | setUri uri t htrace hopen e he =>
      refine ⟨?_, (by rintro uri rfl; cases he), fun _ => hopen⟩
      cases e with
      | onOpen => exact hopened
      | onError error =>
          apply hfailed
          obtain ⟨hattempt, hnone⟩ := hspent.afresh hopen
          rw [htrace] at hnone ⊢
          rw [hattempt]
          exact Nat.le_of_eq (congrArg Nat.succ hnone)
      | _ => cases he
  | other c hquiet hc e he =>
      refine ⟨?_, he, fun h => by rw [hquiet] at h; cases h⟩
      cases e with
      | onOpen => exact hopened
      | onClose =>
          exact ⟨hspent.toBudget.cons rfl rfl hspent.failed, fun _ => nofun, nofun⟩
      | onError error =>
          apply hfailed
          rw [failures_onError hcall hc hquiet]
          exact hspent.failed
      | _ => exact Spent.spending (hspent.cons (i := .enter _) rfl rfl rfl) nofun

theorem spending_sound : spending.Sound openingSocket (program n) where
  refl _ _ _ _ _ := rfl
  trans _ w w' w'' h h' hquiet hhead hclosed := by
    have hsame := h hquiet hhead hclosed
    subst hsame
    exact h' hquiet hhead hclosed
  enter w c e hcall hinv hpermit := by
    obtain ⟨hentered, hconstruct, hopen⟩ := (openingSocket_enter hcall hpermit).spending hcall hinv
    refine ⟨hentered, fun hquiet _ hclosed => ?_, ⟨w.trace, rfl⟩, fun uri he => ?_⟩
    · rw [hopen hquiet] at hclosed
      cases hclosed
    · exact absurd he (hconstruct uri)
  entry e w hinv hpre := by
    obtain ⟨⟨t, htrace⟩, hconstruct⟩ := hpre
    have hspent : e ≠ .onOpen → Spent w := by
      refine fun he => ⟨hinv.toBudget, hinv.afresh fun hhead => he ?_⟩
      rw [htrace] at hhead
      cases hhead
      rfl
    have hleft : ∀ w' r, Spent w' →
        Spending (w'.left e r) ∧ spending.rel (spending.background w) w (w'.left e r) := by
      intro w' r hw'
      have hended : Spent (w'.left e r) := hw'.cons (i := .leave e r) rfl rfl rfl
      refine ⟨hended.spending nofun, fun _ hhead => ?_⟩
      obtain ⟨c, t', htrace'⟩ := hhead
      rw [htrace] at htrace'
      cases htrace'
    have hprogram : wp spending.contract openingSocket (program n e) (fun _ => Spent)
        (fun _ => Spent) w := by
      cases e with
      | onOpen => exact wp_onOpen_spent hinv.toBudget (by rw [htrace]; unfold failures; rfl)
      | onClose => exact wp_onClose_spent (hspent nofun) (by rw [htrace]; rfl)
      | onError error => exact wp_onClose_spent (hspent nofun) (by rw [htrace]; rfl)
      | construct uri =>
          obtain ⟨hfresh, hclosed⟩ := hconstruct uri rfl
          exact wp_construct_spent (hspent nofun) hfresh hclosed
      | _ => exact spends_program _ rfl (by rintro _ ⟨⟩) w (hspent nofun)
    apply Reentrant.wp_mono hprogram
    · exact fun _ w' hw' => hleft w' _ hw'
    · exact fun x w' hw' => hleft w' _ hw'

theorem budget_reaches {uri : Buffer} (hreach : Reaches openingSocket n uri cfg)
    (hrunning : cfg.fault = none) : Budget cfg.world := by
  have hempty : Budget { state := {} } := by
    refine ⟨Nat.zero_le _, Nat.zero_le _, fun t ht => ?_⟩
    rw [List.suffix_nil.mp ht]
    exact Nat.zero_le _
  have hstart : Spent { state := {} } := ⟨hempty, nofun⟩
  have hmain : Spent (Reentrant.World.entered { state := {} } (.construct uri)) :=
    hstart.cons (i := .enter (.construct uri)) rfl rfl rfl
  have hholds := spending_sound.holds (hstart.spending nofun)
    ⟨hmain.spending nofun, ⟨_, rfl⟩, fun _ _ => ⟨rfl, rfl⟩⟩ hreach
  unfold Regime.Holds at hholds
  rw [hrunning] at hholds
  cases hholds.2 with
  | inl h => exact h.2.toBudget
  | inr h =>
      obtain ⟨c, rest, -, hinv⟩ := h
      exact hinv.toBudget

/-- The counter is at most 3, opening the socket does not fail more than 4 times in a row,
and the end of a connection opens it only as often as the counter allows, makes finitely many
moves, and ends in `AWAIT_CONNECTION` or `CLOSED` as the socket opened or not. -/
theorem reconnection_bounded (n : Nat) (hn : 0 < n) (uri : Buffer) (cfg : Config interface)
    (hreach : Reaches openingSocket n uri cfg) (hrunning : cfg.fault = none) :
    cfg.world.state.reconnectionAttempt ≤ 3 ∧
      (∀ t, t <:+ cfg.world.trace → failures t ≤ 4) ∧
      ∀ e now, e.isEnd = true → Activity openingSocket (program n) cfg e now →
        now.fault = none ∧
        opens (cfg.since now) ≤ 3 - cfg.world.state.reconnectionAttempt ∧
        (∀ moves, Reentrant.ActiveFrom openingSocket (program n) cfg now moves →
          moves.length ≤ 2 * (3 - cfg.world.state.reconnectionAttempt)) ∧
        (cfg.Ended now →
          (.enter .onOpen ∈ cfg.since now → now.world.state.state = .awaitConnection) ∧
          (.enter .onOpen ∉ cfg.since now → now.world.state.state = .closed)) := by
  have hbudget := budget_reaches hreach hrunning
  refine ⟨hbudget.attempt, hbudget.history, fun e now he hactivity => ?_⟩
  obtain ⟨left, hle, hphase⟩ := exists_phase hn he hactivity
  refine ⟨hphase.running, hphase.opens_le, fun moves hactive => ?_, hphase.ended⟩
  exact (hphase.terminates hn hactive).trans hle

end Handlers
end Programs
/-- A connection ends, the socket fails to open, and then it opens. -/
theorem reconnection_bounded_secondAttempt : let _ : Build := release
    ∃ cfg now, Reaches openingSocket 9 [] cfg ∧
      Activity openingSocket (program 9) cfg .onClose now ∧ cfg.Ended now ∧
      opens (cfg.since now) = 2 ∧ cfg.world.state.reconnectionAttempt ≤ 3 ∧
      now.world.state.state = .awaitConnection := by
  intro _
  let cfg := after 9 [] connecting
  let now := [.enter (.onError []), .enter .onOpen, accept, accept].foldl (next (program 9))
    (next (program 9) cfg (.enter .onClose))
  have hreach : Reaches openingSocket 9 [] cfg := by
    apply Reentrant.reachable_run
    decide +kernel
  have hrunning : cfg.fault = none := by decide +kernel
  have hactivity : Activity openingSocket (program 9) cfg .onClose now := by
    refine Activity.moves _ _ (Activity.enter ?_ ?_ ?_) ?_
    · decide +kernel
    · decide +kernel
    · decide +kernel
    · decide +kernel
  have hended : cfg.Ended now := ⟨by decide +kernel, by decide +kernel⟩
  have hopens : opens (cfg.since now) = 2 := by decide +kernel
  have hopened : .onOpen ∈ entered (cfg.since now) := by decide +kernel
  clear_value cfg now
  have hmem := mem_entered.mp hopened
  obtain ⟨hattempt, -, hends⟩ := reconnection_bounded 9 (by decide) [] cfg hreach hrunning
  obtain ⟨-, -, -, hstate⟩ := hends .onClose now rfl hactivity
  exact ⟨cfg, now, hreach, hactivity, hended, hopens, hattempt, (hstate hended).1 hmem⟩

end Deepstream
