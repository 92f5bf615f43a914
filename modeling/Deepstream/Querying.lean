import Deepstream.Client.Aside
import Deepstream.Client.Socket

/-!
Queries for who is logged in.

The functions given to `get_all` wait together for one response, and only the
first of them sends a query. They are called in order when a response is handled,
and leave when all of them were called.
-/

namespace Deepstream

open Reentrant (Keeps Policy Prog Regime wp)

def Header.IsQuery (h : Header) : Prop :=
  h.topic = .presence ∧ h.action = .query
  deriving Decidable

/-- The functions given to `get_all`, newest first -/
def asked (t : List Item) : List Function :=
  t.filterMap fun
    | .enter (.getAll f) => some f
    | _ => none

/-- The functions that were called with a list of users, newest first -/
def served (t : List Item) : List Function :=
  t.filterMap fun
    | .call (.queryFn f _) => some (some f)
    | _ => none

/-- The last response that was handled -/
def lastResponse : List Item → Option MessageProxy
  | [] => none
  | .note (.dispatched m _) :: t => if m.header.IsQuery then some m else lastResponse t
  | _ :: t => lastResponse t

/-- Whether a query was accepted since the connection last became `OPEN`, and has not been
answered -/
def outstanding : List Item → Bool
  | [] => false
  | .back (.wsSend m _) (.ok true) :: t => decide m.header.IsQuery || outstanding t
  | .note (.dispatched m _) :: t => !decide m.header.IsQuery && outstanding t
  | .note (.became c) :: t => decide (c.state ≠ .open) && outstanding t
  | _ :: t => outstanding t

/-- Nobody waited for a response whenever the connection became `OPEN`. -/
def OpensUnasked (t : List Item) : Prop :=
  ∀ c, .note (.became c) ∈ t → c.state = .open → c.presence.querents = []

/-- Whether a function given to `get_all` is being called -/
def querying (w : World) : Bool :=
  w.stack.any fun
    | .inr (.queryFn _ _) => true
    | _ => false

/-- A query is being sent. -/
def Sending (w : World) : Prop :=
  ∃ m buffer, .inr (.wsSend m buffer) ∈ w.stack ∧ m.header.IsQuery

section Users
variable [Build]

/-- The users are those of the last response. -/
def Listed (t : List Item) (users : List Buffer) : Prop :=
  ∃ m, lastResponse t = some m ∧ Presence.userList m.view 0 m.numArguments = .ok users

/-- All functions were called with the users of the response that was being handled. -/
def AllListed : List Item → Prop
  | [] => True
  | .call (.queryFn _ users) :: t => Listed t users ∧ AllListed t
  | _ :: t => AllListed t

/-- Whether a buffer contains a response -/
def hasResponse (raw : Buffer) : Bool :=
  match Parser.execute (raw ++ [0, 0]) with
  | .ok (messages, _) => messages.any fun m => decide m.header.IsQuery
  | .error _ => false

/-- While a function is called nobody asks, and no response is received. -/
def Entry.IsUndisturbing (w : World) : Entry → Prop
  | .getAll f => f ≠ none ∧ querying w = false
  | .onMessage raw => querying w = true → hasResponse raw = false
  | _ => True

instance (w : World) : (e : Entry) → Decidable (e.IsUndisturbing w)
  | .getAll f => inferInstanceAs (Decidable (f ≠ none ∧ querying w = false))
  | .onMessage raw => inferInstanceAs (Decidable (querying w = true → hasResponse raw = false))
  | .construct _ | .onOpen | .onClose | .onError _ | .login _ _ | .close | .emit _ _
  | .subscribe _ _ | .unsubscribe _ | .unsubscribeId _ _ | .listen _ _ | .unlisten _
  | .presenceSubscribe _ | .presenceUnsubscribeId _ | .presenceUnsubscribe => .isTrue trivial

/-- Functions given to `get_all` return, and ask for nothing, and a query fails to be sent only
once the connection has left `OPEN`. -/
def queryingSocket : Policy interface where
  enter w e := e.IsUndisturbing w
  back w c r := match c, r with
    | .queryFn _ _, .error _ => False
    | .wsSend _ _, .ok true => True
    | .wsSend m _, _ => m.header.IsQuery → w.state.state ≠ .open
    | _, _ => True

instance (w : World) (e : Entry) : Decidable (queryingSocket.enter w e) :=
  inferInstanceAs (Decidable (e.IsUndisturbing w))

instance (w : World) : (c : Call) → (r : Except Exception c.Answer) →
    Decidable (queryingSocket.back w c r)
  | .queryFn _ _, .error _ => .isFalse id
  | .queryFn _ _, .ok _ => .isTrue trivial
  | .wsSend _ _, .ok true => .isTrue trivial
  | .wsSend m _, .ok false | .wsSend m _, .error _ =>
      inferInstanceAs (Decidable (m.header.IsQuery → w.state.state ≠ .open))
  | .idle, _ | .errorHandler _ _, _ | .wsState, _ | .uri, _ | .setUri _, _ | .wsOpen, _
  | .wsClose, _ | .loginCallback _ _, _ | .subscribeFn _ _, _ | .listenFn _ _ _, _
  | .presenceFn _ _ _, _ => .isTrue trivial

/-- Whoever has left was called exactly once, in order; whoever waits was called at most once,
and not before the response that is being handled. -/
def InOrder (w : World) (called : List Function) : Prop :=
  called <+: w.state.presence.querents ∧ ∃ left,
    asked w.trace = w.state.presence.querents.reverse ++ left ∧
    served w.trace = called.reverse ++ left

/-- What holds of a client in between -/
structure Queried (w : World) : Prop where
  order : ∃ called, InOrder w called ∧ (querying w = false → called = [])
  users : AllListed w.trace
  callable : none ∉ w.state.presence.querents
  awaiting : querying w = false → OpensUnasked w.trace → w.state.state = .open →
    w.state.presence.querents ≠ [] → outstanding w.trace = true ∨ Sending w

/-- Nothing has happened to the functions that wait. -/
structure Unasked (w w' : World) : Prop where
  querents : w'.state.presence.querents = w.state.presence.querents
  version : w'.state.presence.querentsVersion = w.state.presence.querentsVersion
  asked : asked w'.trace = asked w.trace
  served : served w'.trace = served w.trace
  response : lastResponse w'.trace = lastResponse w.trace

def queries : Regime interface where
  quiet _ := false
  inv _ w := (∀ f, w.trace.head? ≠ some (.enter (.getAll f))) → Queried w
  rel _ w w' := querying w = true → querying w' = true ∧ Unasked w w'
  pre e w := ∃ w₀ : World, w = w₀.entered e ∧ Queried w₀ ∧ e.IsUndisturbing w₀
  abort _ _ := True

/-- Something that does not concern the functions that wait, nor changes the state -/
def Item.IsUnasked : Item → Prop
  | .enter (.getAll _) | .call (.queryFn _ _) | .note (.became _) => False
  | .note (.dispatched m _) => ¬m.header.IsQuery
  | _ => True

omit [Build] in
theorem outstanding_cons {i : Item} (hi : i.IsUnasked) {t : List Item} (h : outstanding t = true) :
    outstanding (i :: t) = true := by
  rw [outstanding.eq_def (i :: t)]
  split
  · next heq => cases heq
  · next heq =>
      cases heq
      rw [h, Bool.or_true]
  · next heq =>
      cases heq
      rw [h, decide_eq_false hi]
      rfl
  · next heq =>
      cases heq
      exact hi.elim
  · next heq =>
      cases heq
      exact h

omit [Build] in
theorem Unasked.cons {w w' : World} {i : Item} (hi : i.IsUnasked) (htrace : w'.trace = i :: w.trace)
    (hstate : w'.state.presence = w.state.presence) : Unasked w w' := by
  constructor
  · rw [hstate]
  · rw [hstate]
  all_goals rw [htrace]
  · cases i with
    | enter e => cases e <;> first | rfl | exact hi.elim
    | _ => rfl
  · cases i with
    | call c => cases c <;> first | rfl | exact hi.elim
    | _ => rfl
  · cases i with
    | note n =>
        cases n with
        | dispatched m c => exact if_neg hi
        | _ => rfl
    | _ => rfl

theorem allListed_cons {i : Item} (hi : i.IsUnasked) {t : List Item} (h : AllListed t) :
    AllListed (i :: t) := by
  cases i with
  | call c => cases c <;> first | exact h | exact hi.elim
  | _ => exact h

omit [Build] in
theorem OpensUnasked.of_cons {i : Item} {t : List Item} (h : OpensUnasked (i :: t)) :
    OpensUnasked t :=
  fun c hmem => h c (List.mem_cons_of_mem _ hmem)

theorem Queried.cons {w w' : World} (h : Queried w) {i : Item} (hi : i.IsUnasked)
    (htrace : w'.trace = i :: w.trace) (hpresence : w'.state.presence = w.state.presence)
    (hstate : w'.state.state = w.state.state) (hquerying : querying w' = querying w)
    (hsending : Sending w → outstanding w'.trace = true ∨ Sending w') : Queried w' := by
  obtain ⟨called, ⟨hcalled, left, hasked, hserved⟩, hnone⟩ := h.order
  have hsame := Unasked.cons hi htrace hpresence
  constructor
  · refine ⟨called, ⟨?_, left, ?_, ?_⟩, ?_⟩
    · rwa [hsame.querents]
    · rw [hsame.asked, hsame.querents, hasked]
    · rw [hsame.served, hserved]
    · rwa [hquerying]
  · rw [htrace]
    exact allListed_cons hi h.users
  · rw [hsame.querents]
    exact h.callable
  · rw [hquerying, hstate, hsame.querents]
    intro hnot hopens hopen hne
    rw [htrace] at hopens
    obtain hout | hsent := h.awaiting hnot hopens.of_cons hopen hne
    · rw [htrace]
      exact .inl (outstanding_cons hi hout)
    · exact hsending hsent

/-- Nobody may wait when the connection becomes `OPEN`. -/
theorem Queried.became {w : World} (h : Queried w) (s : ConnectionState) :
    Queried (Reentrant.World.noted { w with state := { w.state with state := s } }
      (.became { w.state with state := s })) where
  order := h.order
  users := h.users
  callable := h.callable
  awaiting _ hopens hopen hne := absurd (hopens _ (List.mem_cons_self ..) hopen) hne

/-- A program that was entered in one world, and is in another -/
structure IsQuerying (w₀ w : World) : Prop where
  queried : Queried w
  stack : w.stack = w₀.stack
  unasked : querying w₀ = true → Unasked w₀ w

omit [Build] in
theorem Unasked.trans {w w' w'' : World} (h : Unasked w w') (h' : Unasked w' w'') :
    Unasked w w'' :=
  ⟨h'.querents.trans h.querents, h'.version.trans h.version, h'.asked.trans h.asked,
    h'.served.trans h.served, h'.response.trans h.response⟩

omit [Build] in
theorem querying_of_stack {w w' : World} (h : w'.stack = w.stack) : querying w' = querying w := by
  unfold querying
  rw [h]

theorem IsQuerying.cons {w₀ w w' : World} (h : IsQuerying w₀ w) {i : Item} (hi : i.IsUnasked)
    (htrace : w'.trace = i :: w.trace) (hstate : w'.state = w.state)
    (hstack : w'.stack = w.stack) : IsQuerying w₀ w' where
  queried := by
    apply h.queried.cons hi htrace (by rw [hstate]) (by rw [hstate]) (querying_of_stack hstack)
    rintro ⟨m, buffer, hmem, hquery⟩
    exact .inr ⟨m, buffer, hstack ▸ hmem, hquery⟩
  stack := hstack.trans h.stack
  unasked hquerying := (h.unasked hquerying).trans (.cons hi htrace (by rw [hstate]))

section Programs
variable {w₀ : World} {α : Type}

variable (w₀) in
abbrev KeepsQueries (p : Program α) : Prop :=
  Keeps queries.contract queryingSocket (IsQuerying w₀) p

theorem queries_modify {f : Client → Client} (hstate : ∀ c, (f c).state = c.state)
    (hquerents : ∀ c, (f c).presence.querents = c.presence.querents)
    (hversion : ∀ c, (f c).presence.querentsVersion = c.presence.querentsVersion) :
    KeepsQueries w₀ (Prog.modify f) := by
  apply Reentrant.keeps_modify
  intro w hw
  refine ⟨⟨?_, hw.queried.users, ?_, ?_⟩, hw.stack, fun hquerying => ?_⟩
  · obtain ⟨called, horder, hnone⟩ := hw.queried.order
    refine ⟨called, ?_, hnone⟩
    unfold InOrder
    rw [hquerents]
    exact horder
  · rw [hquerents]
    exact hw.queried.callable
  · rw [hquerents, hstate]
    exact hw.queried.awaiting
  · have h := hw.unasked hquerying
    exact ⟨(hquerents _).trans h.querents, (hversion _).trans h.version, h.asked, h.served,
      h.response⟩

theorem queries_leave {n : Note} (hn : Item.IsUnasked (.note n)) :
    KeepsQueries w₀ (Program.leave n) :=
  Reentrant.keeps_leave fun _ hw => hw.cons hn rfl rfl rfl

omit [Build] in
theorem querying_calling (w : World) {c : Call} (hc : ∀ f users, c ≠ .queryFn f users) :
    querying (Reentrant.World.calling w c) = querying w := by
  cases c with
  | queryFn f users => exact absurd rfl (hc f users)
  | _ => rfl

/-- A call that neither sends a query nor answers one -/
theorem queries_ask {c : Call} (hquery : ∀ f users, c ≠ .queryFn f users)
    (hsend : ∀ m buffer, c = .wsSend m buffer → ¬m.header.IsQuery) :
    KeepsQueries w₀ (Program.ask c) := by
  have hcall : Item.IsUnasked (.call c) := by
    cases c with
    | queryFn f users => exact absurd rfl (hquery f users)
    | _ => trivial
  apply Reentrant.keeps_ask
  · intro w hw
    refine ⟨fun _ => hw.queried.cons hcall rfl rfl rfl (querying_calling w hquery) ?_, w, rfl⟩
    rintro ⟨m, buffer, hmem, hm⟩
    exact .inr ⟨m, buffer, List.mem_cons_of_mem _ hmem, hm⟩
  · intro w w' r hw hduring hafter _
    have hcalling := querying_calling w hquery
    have hw' : Queried w' := hafter.1 fun f => hduring.later.paused nofun _
    have hstack : (w'.returned c r).stack = w.stack := congrArg List.tail hduring.stack
    have hquerying' : querying w' = querying w := (querying_of_stack hduring.stack).trans hcalling
    refine ⟨?_, hstack.trans hw.stack, fun hquerying => ?_⟩
    · refine hw'.cons (i := .back c r) trivial ?_ ?_ ?_ ?_ ?_
      · rfl
      · rfl
      · rfl
      · exact (querying_of_stack hstack).trans hquerying'.symm
      · rintro ⟨m, buffer, hmem, hm⟩
        rw [hduring.stack] at hmem
        cases hmem with
        | head => exact absurd hm (hsend m buffer rfl)
        | tail _ hmem => exact .inr ⟨m, buffer, hstack ▸ hmem, hm⟩
    · have hthen := hw.unasked hquerying
      rw [← querying_of_stack hw.stack, ← hcalling] at hquerying
      have hcalled : Unasked w (Reentrant.World.calling w c) := .cons hcall rfl rfl
      have hreturned : Unasked w' (w'.returned c r) := .cons (i := .back c r) trivial rfl rfl
      exact hthen.trans (hcalled.trans ((hafter.2 hquerying).2.trans hreturned))

theorem routine_queries : Routine queries.contract queryingSocket (IsQuerying w₀) where
  abort _ _ _ := trivial
  ask c hc := by
    apply queries_ask
    · rintro f users rfl
      cases hc
    · rintro m buffer rfl
      cases hc
  nextId := Reentrant.keeps_read_bind fun _ =>
    Reentrant.keeps_bind (queries_modify (fun _ => rfl) (fun _ => rfl) fun _ => rfl) fun _ =>
      Reentrant.keeps_pure _

theorem queries_handOver {m : MessageBuilder} (hm : ¬m.header.IsQuery) (buffer : Buffer) :
    KeepsQueries w₀ (Program.ask (.wsSend m buffer)) := by
  apply queries_ask
  · exact nofun
  · rintro _ _ ⟨⟩
    exact hm

omit [Build] in
theorem not_isQuery {m : MessageBuilder} (hm : m.header.topic ≠ .presence) : ¬m.header.IsQuery :=
  fun h => hm h.1

theorem eventAside_queries : EventAside queries.contract queryingSocket (IsQuerying w₀) where
  routine := routine_queries
  sending _ := queries_leave trivial
  modifyEvent _ := queries_modify (fun _ => rfl) (fun _ => rfl) fun _ => rfl
  emitted _ := queries_leave trivial
  handEvent m buffer w hm _ := by
    apply queries_handOver (not_isQuery _) buffer w
    rw [hm]
    exact nofun

theorem keepsChanges_queries : KeepsChanges (IsQuerying w₀) :=
  fun s _ _ hw => ⟨hw.queried.became s, hw.stack, fun hquerying =>
    (hw.unasked hquerying).trans ⟨rfl, rfl, rfl, rfl, rfl⟩⟩

theorem socketRoutine_queries :
    SocketRoutine queries.contract queryingSocket (IsQuerying w₀) where
  setUri _ := queries_ask nofun nofun
  wsOpen := queries_ask nofun nofun
  close := Connection.keeps_close (queries_modify (fun _ => rfl) (fun _ => rfl) fun _ => rfl)
    (queries_ask nofun nofun)
  attempt _ := queries_modify (fun _ => rfl) (fun _ => rfl) fun _ => rfl

section Handlers
variable {n : Nat}

theorem handshakes_queries : Handshakes queries.contract queryingSocket (IsQuerying w₀) n := by
  have hrefused : ∀ m, KeepsQueries w₀ (Program.leave (.refused m)) :=
    fun m => queries_leave trivial
  have hset := fun s w (_ : s = .open → w.state.state = .open) (hw : IsQuerying w₀ w) =>
    eventAside_queries.setState keepsChanges_queries n s w hw
  apply routine_queries.handshakes eventAside_queries.sending hrefused hset
  · intro m buffer hm
    apply queries_handOver (not_isQuery _)
    rw [hm]
    exact nofun
  · apply Connection.keeps_sendAuthenticationRequest routine_queries
    intro m hm
    apply routine_queries.sendHandshake eventAside_queries.sending m (.inr hm) (hrefused m) hset
    intro buffer
    apply queries_handOver (not_isQuery _)
    rw [hm]
    exact nofun

/-- The functions that wait are being called: some were, and the others will be. -/
structure IsServing (w₀ : World) (version : Nat) (users : List Buffer)
    (called rest : List Function) (w : World) : Prop where
  stack : w.stack = w₀.stack
  querents : w.state.presence.querents = called ++ rest
  version : w.state.presence.querentsVersion = version
  order : ∃ left, asked w.trace = (called ++ rest).reverse ++ left ∧
    served w.trace = called.reverse ++ left
  all : AllListed w.trace
  callable : none ∉ called ++ rest
  listed : Listed w.trace users

/-- One function is called. -/
theorem wp_queryFn {version : Nat} {users : List Buffer} {called rest : List Function} {f : Nat}
    {w : World} (h : IsServing w₀ version users called (some f :: rest) w) :
    wp queries.contract queryingSocket (Program.ask (.queryFn f users))
      (fun _ => IsServing w₀ version users (called ++ [some f]) rest) (fun _ _ => False) w := by
  obtain ⟨left, hasked, hserved⟩ := h.order
  have happend : called ++ [some f] ++ rest = called ++ some f :: rest := List.append_cons .. |>.symm
  have hquerying : querying (Reentrant.World.calling w (.queryFn f users)) = true := rfl
  have hcalling : served (Reentrant.World.calling w (.queryFn f users)).trace =
      (called ++ [some f]).reverse ++ left := by
    rw [List.reverse_append, List.reverse_singleton, List.singleton_append, List.cons_append,
      ← hserved]
    rfl
  apply Reentrant.wp_ask
  · refine ⟨fun _ => ⟨⟨called ++ [some f], ⟨?_, left, ?_, hcalling⟩, ?_⟩, ?_, ?_, ?_⟩, w, rfl⟩
    · exact ⟨rest, happend.trans h.querents.symm⟩
    · exact h.querents ▸ hasked
    · rw [hquerying]
      exact nofun
    · exact ⟨h.listed, h.all⟩
    · exact h.querents ▸ h.callable
    · rw [hquerying]
      exact nofun
  · intro w' hduring hafter
    refine ⟨fun a _ => ?_, fun x hback => hback⟩
    have hw' : Queried w' := hafter.1 fun g => hduring.later.paused nofun _
    obtain ⟨-, hsame⟩ := hafter.2 hquerying
    have hreturned : Unasked w' (w'.returned (.queryFn f users) (.ok a)) :=
      .cons (i := .back _ _) trivial rfl rfl
    have hnow := hsame.trans hreturned
    refine ⟨?_, ?_, ?_, ⟨left, ?_, ?_⟩, ?_, ?_, ?_⟩
    · exact (congrArg List.tail hduring.stack).trans h.stack
    · rw [happend, hnow.querents]
      exact h.querents
    · exact hnow.version.trans h.version
    · rw [happend, hnow.asked]
      exact hasked
    · exact hnow.served.trans hcalling
    · exact allListed_cons (i := .back _ _) trivial hw'.users
    · rw [happend]
      exact h.callable
    · obtain ⟨m, hm, husers⟩ := h.listed
      exact ⟨m, hnow.response.trans hm, husers⟩

/-- The loop over the functions that wait -/
theorem wp_serve {version : Nat} {users : List Buffer} {called rest : List Function} {w : World}
    (h : IsServing w₀ version users called rest w) :
    wp queries.contract queryingSocket
      (Prog.forEach rest fun f => do
        Program.invoke f fun f => Program.ask (.queryFn f users)
        let c ← Prog.read
        Prog.when (c.presence.querentsVersion ≠ version) (.abort .undefined))
      (fun _ => IsServing w₀ version users (called ++ rest) []) (fun _ _ => False) w := by
  induction rest generalizing called w with
  | nil =>
      rw [List.append_nil]
      exact h
  | cons f rest ih =>
      unfold Prog.forEach
      rw [Reentrant.wp_bind, Reentrant.wp_bind]
      cases f with
      | none => exact absurd (List.mem_append_right _ (List.mem_cons_self ..)) h.callable
      | some f =>
          apply Reentrant.wp_mono (wp_queryFn h)
          · intro _ w' hw'
            rw [Reentrant.wp_bind, Reentrant.wp_read, wp_when]
            refine ⟨fun hne => absurd hw'.version hne, fun _ => ?_⟩
            have hrest := ih hw'
            rwa [List.append_assoc] at hrest
          · exact fun _ _ hfalse => hfalse

theorem userList_ne_thrown (m : MessageProxy) (i k : Nat) (e : Exception) :
    Presence.userList m.view i k ≠ .error (.thrown e) := by
  induction k generalizing i with
  | zero => exact nofun
  | succ k ih =>
      intro h
      unfold Presence.userList at h
      dsimp only [Bind.bind, Except.bind] at h
      split at h
      · next heq =>
          cases h
          exact get_ne_thrown m i e heq
      · split at h
        · next heq =>
            cases h
            exact ih _ heq
        · cases h

/-- A response to a query is handled. -/
theorem wp_response {m : MessageProxy} (hm : m.header.IsQuery) (hnot : querying w₀ = false)
    {w : World} (hw : IsQuerying w₀ w) :
    wp queries.contract queryingSocket (Presence.notify m.view) (fun _ => IsQuerying w₀)
      (fun _ _ => False) (w.noted (.dispatched m w.state)) := by
  have hview : m.view.header = m.header := rfl
  obtain ⟨called, ⟨-, left, hasked, hserved⟩, hnone⟩ := hw.queried.order
  cases hnone (querying_of_stack hw.stack ▸ hnot)
  unfold Presence.notify
  rw [Reentrant.wp_bind, wp_assert _ _ _ (hview ▸ hm.1), hview, hm.2, if_neg (fun h => by cases h.1 <;> contradiction),
    if_pos rfl, Reentrant.wp_bind]
  apply wp_lift
  · intro users husers
    rw [Reentrant.wp_bind, Reentrant.wp_read, Reentrant.wp_bind]
    have hserving : IsServing w₀ w.state.presence.querentsVersion users []
        w.state.presence.querents (w.noted (.dispatched m w.state)) := by
      refine ⟨hw.stack, rfl, rfl, ⟨left, hasked, hserved⟩, hw.queried.users,
        hw.queried.callable, m, if_pos hm, husers⟩
    apply Reentrant.wp_mono (wp_serve hserving)
    · intro _ w' hw'
      obtain ⟨left', hasked', hserved'⟩ := hw'.order
      refine ⟨⟨⟨[], ⟨List.prefix_rfl, _, hasked'.trans ?_, hserved'⟩, fun _ => rfl⟩, hw'.all,
        List.not_mem_nil, fun _ _ _ hne => absurd rfl hne⟩, hw'.stack, ?_⟩
      · rw [List.append_nil]
        rfl
      · rw [hnot]
        exact nofun
    · exact fun _ _ hfalse => hfalse
  · exact fun e he => absurd he (userList_ne_thrown m _ _ e)
  · exact fun _ _ => trivial

/-- A query is sent while the functions that wait are in order. -/
theorem wp_sendQuery (message : Built .presence .query [bytes "Q"]) {w : World}
    (hstack : w.stack = w₀.stack) (hnot : querying w₀ = false)
    (horder : InOrder w []) (husers : AllListed w.trace)
    (hcallable : none ∉ w.state.presence.querents) :
    wp queries.contract queryingSocket (Connection.send n message.val)
      (fun _ => IsQuerying w₀) (fun _ => IsQuerying w₀) w := by
  have hheader : message.val.header = { topic := .presence, action := .query } :=
    message.property.1
  have hquery : message.val.header.IsQuery := by
    rw [hheader]
    exact ⟨rfl, rfl⟩
  -- the query is not accepted, but neither is the connection open
  have hclosed : ∀ w' : World, w'.stack = w₀.stack → w'.state.state ≠ .open →
      (∃ called, InOrder w' called ∧ (querying w' = false → called = [])) →
      AllListed w'.trace → none ∉ w'.state.presence.querents → IsQuerying w₀ w' :=
    fun w' hstack' hclosed horder' husers' hcallable' => ⟨⟨horder', husers', hcallable',
      fun _ _ hopen => absurd hopen hclosed⟩, hstack', fun hquerying => by
        rw [hnot] at hquerying
        cases hquerying⟩
  apply wp_sendWith
  · exact fun _ => trivial
  · exact not_handshake (congrArg Header.topic hheader) (by decide)
  · exact fun hne => hclosed _ hstack hne ⟨[], horder, fun _ => rfl⟩ husers hcallable
  · intro _ buffer _
    apply Reentrant.wp_ask
    · refine ⟨fun _ => ⟨⟨[], horder, fun _ => rfl⟩, husers, hcallable, ?_⟩, _, rfl⟩
      exact fun _ _ _ _ => .inr ⟨message.val, buffer, List.mem_cons_self .., hquery⟩
    · intro w' hduring hafter
      have hw' : Queried w' := hafter.1 fun f => hduring.later.paused nofun _
      have hstack' : ∀ r, (w'.returned (.wsSend message.val buffer) r).stack = w₀.stack :=
        fun r => (congrArg List.tail hduring.stack).trans hstack
      have hquerying' : querying w' = false :=
        (querying_of_stack hduring.stack).trans ((querying_of_stack hstack).trans hnot)
      have horder' : ∀ r, ∃ called, InOrder (w'.returned (.wsSend message.val buffer) r) called ∧
          (querying (w'.returned (.wsSend message.val buffer) r) = false → called = []) := by
        intro r
        obtain ⟨called, hcalled, hnone⟩ := hw'.order
        exact ⟨called, hcalled, fun _ => hnone hquerying'⟩
      have hrefused : ∀ r, w'.state.state ≠ .open →
          IsQuerying w₀ (w'.returned (.wsSend message.val buffer) r) :=
        fun r hne => hclosed _ (hstack' r) hne (horder' r)
          (allListed_cons (i := .back _ _) trivial hw'.users) hw'.callable
      refine ⟨fun sent hback => ?_, fun x hback => hrefused _ (hback hquery)⟩
      cases sent with
      | false => exact hrefused _ (hback hquery)
      | true =>
          refine ⟨⟨horder' _, allListed_cons (i := .back _ _) trivial hw'.users, hw'.callable,
            fun _ _ _ _ => .inl ?_⟩, hstack' _, fun hquerying => ?_⟩
          · exact Bool.or_eq_true_iff.mpr (.inl (decide_eq_true hquery))
          · rw [hnot] at hquerying
            cases hquerying
  · intro _ e hthrown
    have hmem : message.val.header ∈ headers := by
      rw [hheader]
      decide
    have hsize : message.val.payloadSize < 2 ^ 31 := by
      unfold MessageBuilder.payloadSize
      rw [message.property.2]
      decide
    rw [(message.val.toBinary_eq ⟨_, hmem⟩ rfl).1 hsize] at hthrown
    cases hthrown

theorem wp_getAll {f : Function} (hf : f ≠ none) (hqueried : Queried w₀)
    (hnot : querying w₀ = false) :
    wp queries.contract queryingSocket (Presence.getAll (Connection.send n) f)
      (fun _ => IsQuerying (w₀.entered (.getAll f))) (fun _ => IsQuerying (w₀.entered (.getAll f)))
      (w₀.entered (.getAll f)) := by
  have hnot' : querying (w₀.entered (.getAll f)) = false := hnot
  obtain ⟨called, ⟨-, left, hasked, hserved⟩, hnone⟩ := hqueried.order
  cases hnone hnot
  have hcallable : none ∉ w₀.state.presence.querents ++ [f] := by
    rw [List.mem_append, List.mem_singleton, not_or]
    exact ⟨hqueried.callable, fun h => hf h.symm⟩
  unfold Presence.getAll
  rw [Reentrant.wp_bind, wp_modifyPresence, Reentrant.wp_bind, Reentrant.wp_read, wp_when]
  have horder : ∀ w : World, w.trace = .enter (.getAll f) :: w₀.trace →
      w.state.presence.querents = w₀.state.presence.querents ++ [f] → InOrder w [] := by
    intro w htrace hquerents
    refine ⟨List.nil_prefix, left, ?_, ?_⟩
    · rw [htrace, hquerents, List.reverse_append, List.reverse_singleton, List.singleton_append,
        List.cons_append, ← hasked]
      rfl
    · rw [htrace]
      exact hserved
  refine ⟨fun _ => ?_, fun hmore => ?_⟩
  · rw [Reentrant.wp_bind]
    apply wp_build
    · decide
    · intro _ message
      rw [wp_ignore]
      exact wp_sendQuery message rfl hnot' (horder _ rfl rfl) hqueried.users hcallable
    · rintro ⟨arg, harg, hsep⟩
      cases List.mem_singleton.mp harg
      exact absurd hsep (by decide)
  · refine ⟨⟨⟨[], horder _ rfl rfl, fun _ => rfl⟩, hqueried.users, hcallable, ?_⟩, rfl, ?_⟩
    · intro _ hopens hopen _
      have hne : w₀.state.presence.querents ≠ [] := by
        intro hnil
        apply hmore
        change (w₀.state.presence.querents ++ [f]).length = 1
        rw [hnil]
        rfl
      obtain hout | ⟨m, buffer, hmem, hm⟩ := hqueried.awaiting hnot hopens.of_cons hopen hne
      · exact .inl hout
      · exact .inr ⟨m, buffer, List.mem_cons_of_mem _ hmem, hm⟩
    · rw [hnot']
      exact nofun

theorem queries_transition (m : MessageProxy) : KeepsQueries w₀ (Connection.transition n m) :=
  Connection.keeps_transition routine_queries (eventAside_queries.setState keepsChanges_queries n) m

theorem queries_handleMessage {m : MessageProxy}
    (hm : m.header.IsQuery → querying w₀ = false) :
    KeepsQueries w₀ (Connection.handleMessage n m) := by
  by_cases hquery : m.header.IsQuery
  · intro w hw
    unfold Connection.handleMessage
    rw [Reentrant.wp_bind, Reentrant.wp_read, Reentrant.wp_bind, wp_leave, Reentrant.wp_bind]
    apply wp_debugMsg fun _ _ => trivial
    rw [hquery.1]
    exact Reentrant.wp_mono (wp_response hquery (hm hquery) hw) (fun _ _ h => h)
      fun _ _ hfalse => hfalse.elim
  · have hnot : m.header.topic = .presence → m.header.action ≠ .query :=
      fun htopic haction => hquery ⟨htopic, haction⟩
    apply Connection.keeps_handled routine_queries handshakes_queries
    · exact fun _ => queries_leave hquery
    · intro _
      apply Event.keeps_notify routine_queries.toSubscriberRoutine
        fun _ => eventAside_queries.modifyEvent _
      exact fun _ => eventAside_queries.sendWith _
    · intro htopic
      apply Presence.keeps_notify routine_queries.toSubscriberRoutine
      · exact fun _ => queries_modify (fun _ => rfl) (fun _ => rfl) fun _ => rfl
      · exact fun haction => absurd haction (hnot htopic)
      · exact fun haction => absurd haction (hnot htopic)
    · exact socketRoutine_queries.setUri
    · intro _
      apply Connection.keeps_authenticationAction routine_queries socketRoutine_queries.close
      exact fun _ _ _ => queries_ask nofun nofun
    · exact queries_transition m

omit w₀ in
/-- The messages of a buffer without responses -/
theorem not_isQuery_of_hasResponse {raw : Buffer} (h : hasResponse raw = false)
    {messages : List MessageProxy} {errors : List Parser.Error}
    (hexecute : Parser.execute (raw ++ [0, 0]) = .ok (messages, errors)) {m : MessageProxy}
    (hmem : m ∈ messages) : ¬m.header.IsQuery := by
  unfold hasResponse at h
  rw [hexecute, List.any_eq_false] at h
  exact fun hquery => h m hmem (decide_eq_true hquery)

theorem queries_program {e : Entry} (he : ∀ f, e ≠ .getAll f)
    (hmessage : ∀ raw, e = .onMessage raw → querying w₀ = true → hasResponse raw = false) :
    KeepsQueries w₀ (program n e) := by
  have hsend : ∀ m : MessageBuilder, m.header.topic = .presence → ¬m.header.IsQuery →
      KeepsQueries w₀ (Connection.send n m) := by
    intro m htopic hquery
    apply routine_queries.sendWith eventAside_queries.sending
    · exact not_handshake htopic (by decide)
    · exact fun buffer w _ hw => queries_handOver hquery buffer w hw
  have hmodify : ∀ f, (∀ p : Presence, (f p).querents = p.querents ∧
      (f p).querentsVersion = p.querentsVersion) → KeepsQueries w₀ (Program.modifyPresence f) :=
    fun f hf => queries_modify (fun _ => rfl) (fun c => (hf c.presence).1)
      fun c => (hf c.presence).2
  have hunsubscribe : ∀ m : Built .presence .unsubscribe [],
      KeepsQueries w₀ (Connection.send n m.val) := by
    intro m
    apply hsend _ (congrArg Header.topic m.property.1)
    rw [m.property.1]
    decide
  cases e with
  | getAll f => exact absurd rfl (he f)
  | presenceSubscribe callback =>
      refine Reentrant.keeps_bind (Presence.keeps_subscribe routine_queries.toSubscriberRoutine hmodify ?_ callback)
        fun _ => Reentrant.keeps_pure _
      intro m
      apply hsend _ (congrArg Header.topic m.property.1)
      rw [m.property.1]
      decide
  | presenceUnsubscribeId id =>
      exact Presence.keeps_unsubscribeId routine_queries.toSubscriberRoutine hmodify hunsubscribe id
  | presenceUnsubscribe => exact Presence.keeps_unsubscribe routine_queries.toSubscriberRoutine hmodify hunsubscribe
  | emit | subscribe | unsubscribe | unsubscribeId | listen | unlisten =>
      exact eventAside_queries.program n _ trivial
  | onMessage raw =>
      apply Connection.keeps_messages routine_queries
      intro messages errors hexecute m hmem
      apply queries_handleMessage
      intro hquery
      cases hquerying : querying w₀ with
      | false => rfl
      | true =>
          exact absurd hquery
            (not_isQuery_of_hasResponse (hmessage raw rfl hquerying) hexecute hmem)
  | construct uri => exact Connection.keeps_construct routine_queries socketRoutine_queries uri
  | onOpen =>
      apply Connection.keeps_onOpen socketRoutine_queries
      exact fun s _ => eventAside_queries.setState keepsChanges_queries n s
  | onClose | onError =>
      apply Connection.keeps_onClose socketRoutine_queries
      · exact eventAside_queries.setState keepsChanges_queries n .closed
      · exact eventAside_queries.setState keepsChanges_queries n .reconnecting
  | login auth callback =>
      apply Connection.keeps_login handshakes_queries.authenticationRequest
      exact queries_modify (fun _ => rfl) (fun _ => rfl) fun _ => rfl
  | close => exact socketRoutine_queries.close

end Handlers
end Programs

section Entries
variable {n : Nat}

theorem Queried.entered {w : World} (h : Queried w) {e : Entry} (he : ∀ f, e ≠ .getAll f) :
    Queried (w.entered e) := by
  have hi : Item.IsUnasked (.enter e) := by
    cases e with
    | getAll f => exact absurd rfl (he f)
    | _ => trivial
  refine h.cons hi ?_ ?_ ?_ ?_ ?_
  · rfl
  · rfl
  · rfl
  · rfl
  · rintro ⟨m, buffer, hmem, hm⟩
    exact .inr ⟨m, buffer, List.mem_cons_of_mem _ hmem, hm⟩

/-- An entry ends as its program has left it. -/
theorem IsQuerying.left {w₀ w : World} {e : Entry} (h : IsQuerying (w₀.entered e) w)
    (r : Except Exception Unit) :
    Queried (w.left e r) ∧ (querying (w₀.entered e) = true →
      querying (w.left e r) = true ∧ Unasked (w₀.entered e) (w.left e r)) := by
  have hstack : (w.left e r).stack = w₀.stack := congrArg List.tail h.stack
  have hquerying : querying (w.left e r) = querying w :=
    (querying_of_stack hstack).trans (querying_of_stack h.stack).symm
  refine ⟨h.queried.cons (i := .leave e r) trivial ?_ ?_ ?_ hquerying ?_, fun h₀ => ⟨?_, ?_⟩⟩
  · rfl
  · rfl
  · rfl
  · rintro ⟨m, buffer, hmem, hm⟩
    rw [h.stack] at hmem
    cases hmem with
    | tail _ hmem => exact .inr ⟨m, buffer, hstack ▸ hmem, hm⟩
  · rw [querying_of_stack hstack]
    exact h₀
  · exact (h.unasked h₀).trans (.cons (i := .leave e r) trivial rfl rfl)

theorem queries_sound : queries.Sound queryingSocket (program n) where
  refl _ w h := ⟨h, rfl, rfl, rfl, rfl, rfl⟩
  trans _ w w' w'' h h' hquerying :=
    have hfirst := h hquerying
    have hsecond := h' hfirst.1
    ⟨hsecond.1, hfirst.2.trans hsecond.2⟩
  enter w c e hcall hinv henter := by
    have hw : Queried w := hinv fun f => hcall.paused _
    refine ⟨fun hne => hw.entered fun f hf => hne f (hf ▸ rfl), fun hquerying => ⟨hquerying, ?_⟩,
      w, rfl, hw, henter⟩
    have hi : Item.IsUnasked (.enter e) := by
      cases e with
      | getAll f =>
          have hnot := henter.2
          rw [hquerying] at hnot
          cases hnot
      | _ => trivial
    exact .cons hi rfl rfl
  entry e w hinv hpre := by
    obtain ⟨w₀, rfl, hw₀, henter⟩ := hpre
    have hprogram : wp queries.contract queryingSocket (program n e)
        (fun _ => IsQuerying (w₀.entered e)) (fun _ => IsQuerying (w₀.entered e))
        (w₀.entered e) := by
      by_cases hask : ∃ f, e = .getAll f
      · obtain ⟨f, rfl⟩ := hask
        exact wp_getAll henter.1 hw₀ henter.2
      · have he : ∀ f, e ≠ .getAll f := not_exists.mp hask
        apply queries_program he
        · rintro raw rfl hquerying
          exact henter hquerying
        · exact ⟨hw₀.entered he, rfl, fun _ => ⟨rfl, rfl, rfl, rfl, rfl⟩⟩
    apply Reentrant.wp_mono hprogram
    · intro _ w' hw'
      obtain ⟨hqueried, hrel⟩ := hw'.left (.ok ())
      exact ⟨fun _ => hqueried, hrel⟩
    · intro x w' hw'
      obtain ⟨hqueried, hrel⟩ := hw'.left (.error x)
      exact ⟨fun _ => hqueried, hrel⟩

end Entries

/-- What `get_all` promises -/
structure Answered (w : World) : Prop where
  order : ∃ called, InOrder w called ∧ (IsIdle w → called = [])
  users : AllListed w.trace
  awaiting : IsIdle w → w.state.state = .open → w.state.presence.querents ≠ [] →
    outstanding w.trace = true

/-- If nobody waits whenever the connection becomes `OPEN`, then everybody is called once, in
order, and whoever waits in between does so for a response to a query that was sent. -/
theorem queries_answered (n : Nat) (uri : Buffer) (cfg : Reentrant.Config interface)
    (hreach : Reaches queryingSocket n uri cfg) (hrunning : cfg.fault = none)
    (hopens : OpensUnasked cfg.world.trace) : Answered cfg.world := by
  have hstart : Queried { state := {} } :=
    ⟨⟨[], ⟨List.prefix_rfl, [], rfl, rfl⟩, fun _ => rfl⟩, trivial, List.not_mem_nil,
      fun _ _ _ hne => absurd rfl hne⟩
  have hmain : Queried (Reentrant.World.entered { state := {} } (.construct uri)) :=
    hstart.entered nofun
  have hholds := queries_sound.holds (fun _ => hstart)
    ⟨fun _ => hmain, { state := {} }, rfl, hstart, trivial⟩ hreach
  unfold Regime.Holds at hholds
  rw [hrunning] at hholds
  obtain ⟨hpaused, hinv⟩ := hholds
  have hqueried : Queried cfg.world := by
    obtain ⟨-, h⟩ | ⟨_, _, -, h⟩ := hinv
    · exact h fun f => hpaused _
    · exact h fun f => hpaused _
  have hidle : IsIdle cfg.world → querying cfg.world = false ∧ ¬Sending cfg.world := by
    rintro ⟨main, hstack⟩
    refine ⟨?_, ?_⟩
    · unfold querying
      rw [hstack]
      rfl
    · rintro ⟨m, buffer, hmem, -⟩
      rw [hstack] at hmem
      simp at hmem
  obtain ⟨called, horder, hnone⟩ := hqueried.order
  refine ⟨⟨called, horder, fun h => hnone (hidle h).1⟩, hqueried.users, fun h hopen hne => ?_⟩
  exact (hqueried.awaiting (hidle h).1 hopens hopen hne).resolve_right (hidle h).2

end Users

/-- A second function waits once the first one was called. -/
theorem queries_answered_waiting :
    ∃ cfg, @Reaches release (@queryingSocket release) 9 [] cfg ∧ IsIdle cfg.world ∧
      cfg.world.state.state = .open ∧ cfg.world.state.presence.querents = [some 2] ∧
      @Answered release cfg.world := by
  let cfg := @after release 9 [] (loggedIn ++ [.enter (.getAll (some 1)), accept, receive "U|Q|a|b+", accept,
    .enter (.getAll (some 2)), accept])
  have hreach : @Reaches release (@queryingSocket release) 9 [] cfg := by
    apply Reentrant.reachable_run
    decide +kernel
  have hrunning : cfg.fault = none := by decide +kernel
  have hopens : cfg.world.trace.all (Item.opensWith fun c => c.presence.querents.isEmpty) =
      true := by
    decide +kernel
  have hidle : decide (IsIdle cfg.world) = true := by decide +kernel
  have hopen : cfg.world.state.state = .open := by decide +kernel
  have hquerents : cfg.world.state.presence.querents = [some 2] := by decide +kernel
  clear_value cfg
  refine ⟨cfg, hreach, of_decide_eq_true hidle, hopen, hquerents, ?_⟩
  apply @queries_answered release 9 [] cfg hreach hrunning
  exact fun c hmem hstate => List.isEmpty_iff.mp (opensWith_of_all hopens c hmem hstate)

/-- A query from before the login is never sent. -/
theorem queries_not_answered : let _ : Build := release
    ¬∀ cfg : Reentrant.Config interface, Reaches pocoSocket 9 [] cfg → cfg.fault = none →
      Answered cfg.world := by
  intro _ hclaim
  let cfg := after 9 [] (connecting ++ [.enter (.getAll (some 1))] ++
    loggedIn.drop connecting.length)
  have hreach : Reaches pocoSocket 9 [] cfg := by
    apply Reentrant.reachable_run
    decide +kernel
  have hrunning : cfg.fault = none := by decide +kernel
  have hidle : decide (IsIdle cfg.world) = true := by decide +kernel
  have hopen : cfg.world.state.state = .open := by decide +kernel
  have hquerents : cfg.world.state.presence.querents ≠ [] := by decide +kernel
  have hnever : outstanding cfg.world.trace = false := by decide +kernel
  clear_value cfg
  have hawaiting := (hclaim cfg hreach hrunning).awaiting (of_decide_eq_true hidle) hopen hquerents
  rw [hnever] at hawaiting
  cases hawaiting

end Deepstream
