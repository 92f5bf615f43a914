import Deepstream.Client.Aside
import Deepstream.Client.Socket

/-!
Whether the server knows that a client watches who is logged in.

It is told when the list of subscribers becomes non-empty or empty, but not again
when a connection is opened anew. If nobody is subscribed at that moment, then it
knows better.
-/

namespace Deepstream

open Reentrant (Keeps Policy Prog Regime wp)

/-- The last message about subscriptions that was accepted since the connection last became
`OPEN` -/
def lastWatch : List Item → Option Action
  | [] => none
  | .back (.wsSend m _) (.ok true) :: t =>
      if m.header.topic = .presence ∧
          (m.header.action = .subscribe ∨ m.header.action = .unsubscribe) then
        some m.header.action
      else lastWatch t
  | .note (.became c) :: t => if c.state = .open then none else lastWatch t
  | _ :: t => lastWatch t

/-- Nobody was subscribed whenever the connection became `OPEN`. -/
def OpensUnwatched (t : List Item) : Prop :=
  ∀ c, .note (.became c) ∈ t → c.state = .open → c.presence.subscribers = []

def opensUnwatched : Item → Bool
  | .note (.became c) => c.state ≠ .open || c.presence.subscribers.isEmpty
  | _ => true

theorem opensUnwatched_of_all {t : List Item} (h : t.all opensUnwatched = true) :
    OpensUnwatched t := by
  intro c hmem hopen
  have hitem := List.all_eq_true.mp h _ hmem
  simpa [opensUnwatched, hopen] using hitem

/-- The server was told. -/
def IsTold (w : World) : Prop :=
  OpensUnwatched w.trace → w.state.state = .open → lastWatch w.trace = some .subscribe

def Watches (w : World) : Prop :=
  w.state.presence.subscribers ≠ [] → IsTold w

def watching : Regime interface where
  quiet _ := false
  inv _ := Watches
  rel _ _ _ := True
  pre _ _ := True
  abort _ := Watches

/-- Something that neither tells the server nor changes the state -/
def Item.IsUnwatched : Item → Prop
  | .note (.became _) => False
  | .back (.wsSend m _) (.ok true) => ¬(m.header.topic = .presence ∧
      (m.header.action = .subscribe ∨ m.header.action = .unsubscribe))
  | _ => True

theorem lastWatch_cons {i : Item} (t : List Item) (hi : i.IsUnwatched) :
    lastWatch (i :: t) = lastWatch t := by
  rw [lastWatch.eq_def (i :: t)]
  split
  · next h => cases h
  · next h =>
      cases h
      exact if_neg hi
  · next h =>
      cases h
      exact hi.elim
  · next h =>
      cases h
      rfl

theorem OpensUnwatched.of_cons {i : Item} {t : List Item} (h : OpensUnwatched (i :: t)) :
    OpensUnwatched t :=
  fun c hmem => h c (List.mem_cons_of_mem _ hmem)

theorem IsTold.cons {w w' : World} (h : IsTold w) {i : Item} (htrace : w'.trace = i :: w.trace)
    (hi : i.IsUnwatched) (hstate : w'.state.state = w.state.state) : IsTold w' := by
  intro hopens hopen
  rw [htrace] at hopens ⊢
  rw [lastWatch_cons w.trace hi]
  exact h hopens.of_cons (hstate ▸ hopen)

theorem Watches.cons {w w' : World} (h : Watches w) {i : Item} (htrace : w'.trace = i :: w.trace)
    (hi : i.IsUnwatched) (hstate : w'.state = w.state) : Watches w' := by
  intro hsubscribers
  rw [hstate] at hsubscribers
  exact (h hsubscribers).cons htrace hi (congrArg Client.state hstate)

section Programs
variable {P : Policy interface} {α : Type}

variable (P) in
abbrev KeepsWatching (p : Program α) : Prop :=
  Keeps watching.contract P Watches p

theorem watching_modify {f : Client → Client} (hstate : ∀ c, (f c).state = c.state)
    (hsubscribers : ∀ c, (f c).presence.subscribers = c.presence.subscribers) :
    KeepsWatching P (Prog.modify f) := by
  apply Reentrant.keeps_modify
  intro w hw hne hopens hopen
  exact hw (hsubscribers w.state ▸ hne) hopens (hstate w.state ▸ hopen)

theorem watching_leave {n : Note} (hn : Item.IsUnwatched (.note n)) :
    KeepsWatching P (Program.leave n) :=
  Reentrant.keeps_leave fun _ hw => hw.cons rfl hn rfl

theorem watching_ask {c : Call} (hc : ∀ r, Item.IsUnwatched (.back c r)) :
    KeepsWatching P (Program.ask c) := by
  apply Reentrant.keeps_ask
  · exact fun w hw => ⟨hw.cons (i := .call c) rfl trivial rfl, w, rfl⟩
  · exact fun w w' r _ _ hafter _ => Watches.cons hafter.1 (i := .back c r) rfl (hc r) rfl

theorem isUnwatched_back_wsSend {m : MessageBuilder} {buffer : Buffer}
    {r : Except Exception Bool} (hm : ¬(m.header.topic = .presence ∧
      (m.header.action = .subscribe ∨ m.header.action = .unsubscribe))) :
    Item.IsUnwatched (.back (.wsSend m buffer) r) := by
  unfold Item.IsUnwatched
  split
  · next h => cases h
  · next h =>
      cases h
      exact hm
  · trivial

theorem eventAside_watching : EventAside watching.contract P Watches where
  routine := {
    abort := fun _ _ hw => hw
    ask := fun c hc => by
      cases c with
      | setUri | wsOpen | wsClose | wsSend | loginCallback | queryFn => cases hc
      | _ => exact watching_ask fun _ => trivial
    nextId := Reentrant.keeps_read_bind fun _ =>
      Reentrant.keeps_bind (watching_modify (fun _ => rfl) fun _ => rfl) fun _ =>
        Reentrant.keeps_pure _ }
  sending _ := watching_leave trivial
  modifyEvent _ := watching_modify (fun _ => rfl) fun _ => rfl
  emitted _ := watching_leave trivial
  handEvent m buffer w hm _ := by
    apply watching_ask
    intro r
    apply isUnwatched_back_wsSend
    rw [hm]
    exact nofun

/-- A message about subscriptions, which is sent when there are no subscribers in the list -/
theorem wp_send_watch [Build] {n : Nat} {m : MessageBuilder} (hm : m.header.topic = .presence)
    {w : World} (hw : w.state.presence.subscribers = []) :
    wp watching.contract (reportingSocket .presence) (Connection.send n m)
      (fun _ w' => Watches w' ∧ (m.header.action = .subscribe → IsTold w'))
      (fun _ => Watches) w := by
  have hempty : ∀ w' : World, w'.state = w.state → Watches w' :=
    fun w' hstate hne => absurd (hstate ▸ hw) hne
  apply wp_sendWith
  · exact fun _ => hempty _ rfl
  · exact not_handshake hm (by decide)
  · exact fun hne => ⟨hempty _ rfl, fun _ _ hopen => absurd hopen hne⟩
  · intro _ buffer _
    apply Reentrant.wp_ask
    · exact ⟨hempty _ rfl, _, rfl⟩
    · intro w' hduring hafter
      refine ⟨fun a hback => ?_, fun x _ => hafter.1.cons (i := .back _ _) rfl trivial rfl⟩
      cases a with
      | false =>
          have htold : IsTold (w'.returned (.wsSend m buffer) (.ok false)) :=
            fun _ hopen => absurd hopen (hback hm)
          exact ⟨fun _ => htold, fun _ => htold⟩
      | true =>
          cases reportingSocket_back_true hduring hm hback
          refine ⟨hempty _ rfl, fun hsubscribe _ _ => ?_⟩
          exact (if_pos ⟨hm, .inl hsubscribe⟩).trans (congrArg some hsubscribe)
  · exact fun _ _ _ => hempty _ rfl

section Handlers
variable [Build] {n : Nat}

theorem wp_ignore_watch {action : Action} (message : Built .presence action []) {w : World}
    (hw : w.state.presence.subscribers = []) :
    wp watching.contract (reportingSocket .presence)
      (Program.ignore (Connection.send n message.val))
      (fun _ w' => Watches w' ∧ (action = .subscribe → IsTold w')) (fun _ => Watches) w := by
  have haction : message.val.header.action = action := congrArg Header.action message.property.1
  rw [wp_ignore]
  apply Reentrant.wp_mono (wp_send_watch (congrArg Header.topic message.property.1) hw)
  · exact fun _ _ h => ⟨h.1, fun hsubscribe => h.2 (haction.trans hsubscribe)⟩
  · exact fun _ _ h => h

/-- The end of all subscriptions -/
theorem watching_sendUnsubscribe {w : World} (hw : w.state.presence.subscribers = []) :
    wp watching.contract (reportingSocket .presence)
      (Program.build .presence .unsubscribe [] >>=
        fun message => Program.ignore (Connection.send n message.val))
      (fun _ => Watches) (fun _ => Watches) w := by
  rw [Reentrant.wp_bind]
  apply wp_build
  · exact Nat.zero_le 2
  · exact fun _ message => Reentrant.wp_mono (wp_ignore_watch message hw) (fun _ _ h => h.1)
      fun _ _ h => h
  · exact fun _ hne => absurd hw hne

theorem watching_subscribe (callback : Function) :
    KeepsWatching (reportingSocket .presence)
      (Presence.subscribe (Connection.send n) callback) := by
  apply Reentrant.keeps_bind eventAside_watching.routine.nextId
  intro id
  apply Reentrant.keeps_bind
  · apply Reentrant.keeps_read_bind
    intro c
    exact Reentrant.keeps_bind (watching_modify (fun _ => rfl) fun _ => rfl) fun _ =>
      Reentrant.keeps_pure _
  intro inserted
  apply Reentrant.keeps_bind (eventAside_watching.routine.assert _ _ _)
  intro _ w hw
  rw [Reentrant.wp_bind, Reentrant.wp_read, Reentrant.wp_bind, wp_when]
  have hpush : ∀ w' : World, IsTold w' →
      wp watching.contract (reportingSocket .presence)
        (Program.modifyPresence (fun p => { p with subscribers := p.subscribers ++ [id] }) >>=
          fun _ => pure id) (fun _ => Watches) (fun _ => Watches) w' :=
    fun w' htold _ => htold
  refine ⟨fun hempty => ?_, fun hne => hpush w (hw hne)⟩
  rw [Reentrant.wp_bind]
  apply wp_build
  · exact Nat.zero_le 2
  · exact fun _ message => Reentrant.wp_mono (wp_ignore_watch message hempty)
      (fun _ w' h => hpush w' (h.2 rfl)) fun _ _ h => h
  · exact fun _ => hw

theorem watching_unsubscribeId (id : Nat) :
    KeepsWatching (reportingSocket .presence)
      (Presence.unsubscribeId (Connection.send n) id) := by
  intro w hw
  unfold Presence.unsubscribeId
  rw [Reentrant.wp_bind, Reentrant.wp_read, Reentrant.wp_bind]
  have hassert : ∀ (text : String) (cond : Prop) {_ : Decidable cond} (w' : World), Watches w' →
      ∀ Q : Unit → World → Prop, Q () w' →
        wp watching.contract (reportingSocket .presence) (Program.assert .presence text cond) Q
          (fun _ => Watches) w' :=
    fun text cond _ w' hw' Q hQ => wp_lift _ (fun _ _ => hQ) (fun _ _ => hw') fun _ _ => hw'
  apply hassert _ _ _ hw
  rw [wp_when]
  refine ⟨fun _ => ?_, fun _ => hw⟩
  have hleft : Watches { w with state := { w.state with presence := { w.state.presence with
      subscribers := w.state.presence.subscribers.erase id
      subscribeFnMap := w.state.presence.subscribeFnMap.erase id } } } := by
    intro hne hopens hopen
    apply hw _ hopens hopen
    intro hempty
    apply hne
    change w.state.presence.subscribers.erase id = []
    rw [hempty]
    rfl
  rw [Reentrant.wp_bind, wp_modifyPresence, Reentrant.wp_bind]
  apply hassert _ _ _ hleft
  rw [wp_when]
  exact ⟨fun hempty => watching_sendUnsubscribe hempty, fun _ => hleft⟩

theorem watching_unsubscribe :
    KeepsWatching (reportingSocket .presence) (Presence.unsubscribe (Connection.send n)) := by
  unfold Presence.unsubscribe
  apply Reentrant.keeps_read_bind
  intro c
  apply Reentrant.keeps_bind (eventAside_watching.routine.assert _ _ _)
  intro _ w hw
  rw [Reentrant.wp_bind, wp_modifyPresence]
  exact watching_sendUnsubscribe rfl

omit [Build] in
theorem keepsChanges_watching : KeepsChanges Watches :=
  fun _ _ _ _ hne hopens hopen => absurd (hopens _ (List.mem_cons_self ..) hopen) hne

omit [Build] in
theorem socketRoutine_watching : SocketRoutine watching.contract P Watches where
  setUri _ := watching_ask fun _ => trivial
  wsOpen := watching_ask fun _ => trivial
  close := Connection.keeps_close (watching_modify (fun _ => rfl) fun _ => rfl)
    (watching_ask fun _ => trivial)
  attempt _ := watching_modify (fun _ => rfl) fun _ => rfl

theorem responsive_watching : Responsive watching.contract P Watches n := by
  apply eventAside_watching.responsive keepsChanges_watching n fun m => watching_leave trivial
  · intro m buffer hm
    apply watching_ask
    intro r
    apply isUnwatched_back_wsSend
    rintro ⟨htopic, -⟩
    rw [htopic] at hm
    cases hm <;> contradiction
  · intro m
    apply Presence.keeps_notify eventAside_watching.routine.toSubscriberRoutine m
    · exact fun _ => watching_modify (fun _ => rfl) fun _ => rfl
    · exact fun _ _ _ => watching_ask fun _ => trivial
    · exact fun _ => watching_modify (fun _ => rfl) fun _ => rfl

theorem watching_getAll (f : Function) :
    KeepsWatching P (Presence.getAll (Connection.send n) f) := by
  have hr := eventAside_watching (P := P).routine
  apply Presence.keeps_getAll hr.toSubscriberRoutine f (watching_modify (fun _ => rfl) fun _ => rfl)
  intro message
  apply hr.sendWith eventAside_watching.sending
  · exact not_handshake (congrArg Header.topic message.property.1) (by decide)
  · intro buffer w _ hw
    apply watching_ask _ w hw
    intro r
    apply isUnwatched_back_wsSend
    rw [message.property.1]
    decide

theorem watching_program (e : Entry) :
    KeepsWatching (reportingSocket .presence) (program n e) := by
  have hevent := eventAside_watching (P := reportingSocket .presence)
  have hs := socketRoutine_watching (P := reportingSocket .presence)
  have hn := responsive_watching (P := reportingSocket .presence) (n := n)
  by_cases he : e.IsAside
  · cases e with
    | presenceSubscribe callback =>
        exact Reentrant.keeps_bind (watching_subscribe callback) fun _ => Reentrant.keeps_pure _
    | presenceUnsubscribeId id => exact watching_unsubscribeId id
    | presenceUnsubscribe => exact watching_unsubscribe
    | getAll f => exact watching_getAll f
    | emit | subscribe | unsubscribe | unsubscribeId | listen | unlisten =>
        exact hevent.program n _ trivial
    | _ => exact he.elim
  · apply Connection.keeps_program hevent.routine hs hn.toHandshakes
    · exact fun s _ => hevent.setState keepsChanges_watching n s
    · intro m
      apply Connection.keeps_handleMessage hevent.routine hn hs.setUri hs.close m
      · exact fun _ _ _ _ => watching_ask fun _ => trivial
      · exact fun _ => watching_leave trivial
    · exact fun _ _ => watching_modify (fun _ => rfl) fun _ => rfl
    · exact he

theorem watching_sound : watching.Sound (reportingSocket .presence) (program n) where
  refl _ _ := trivial
  trans _ _ _ _ _ _ := trivial
  enter w c e _ hinv _ := ⟨Watches.cons hinv (i := .enter e) rfl trivial rfl, trivial, trivial⟩
  entry e w hinv _ := by
    apply Reentrant.wp_mono (watching_program e w hinv)
    · exact fun _ w' hw' => ⟨hw'.cons (i := .leave e _) rfl trivial rfl, trivial⟩
    · exact fun _ w' hw' => ⟨hw'.cons (i := .leave e _) rfl trivial rfl, trivial⟩

end Handlers
end Programs

/-- If nobody is subscribed whenever the connection becomes `OPEN`, then the server knows of
all later subscriptions. -/
theorem watch_told [Build] (n : Nat) (uri : Buffer) (cfg : Reentrant.Config interface)
    (hreach : Reaches (reportingSocket .presence) n uri cfg)
    (hopens : OpensUnwatched cfg.world.trace) (hopen : cfg.world.state.state = .open)
    (hsubscribers : cfg.world.state.presence.subscribers ≠ []) :
    lastWatch cfg.world.trace = some .subscribe := by
  have hstart : ∀ w : World, w.state = {} → Watches w := by
    intro w hw hne
    rw [hw] at hne
    exact absurd rfl hne
  have hholds := watching_sound.holds (hstart _ rfl) ⟨hstart _ rfl, trivial⟩ hreach
  unfold Regime.Holds at hholds
  split at hholds
  · exact hholds hsubscribers hopens hopen
  · obtain ⟨-, ⟨-, h⟩ | ⟨_, _, -, h⟩⟩ := hholds
    · exact h hsubscribers hopens hopen
    · exact h hsubscribers hopens hopen

/-- Nobody is subscribed when the client logs in. -/
theorem watch_told_afterLogin : let _ : Build := release
    ∃ cfg, Reaches (reportingSocket .presence) 9 [] cfg ∧ IsIdle cfg.world ∧
      cfg.world.state.presence.subscribers ≠ [] ∧
      lastWatch cfg.world.trace = some .subscribe := by
  intro _
  let cfg := after 9 [] (loggedIn ++ [.enter (.presenceSubscribe (some 1)), accept])
  have hreach : Reaches (reportingSocket .presence) 9 [] cfg := by
    apply Reentrant.reachable_run
    decide +kernel
  have hopens : cfg.world.trace.all opensUnwatched = true := by decide +kernel
  have hopen : cfg.world.state.state = .open := by decide +kernel
  have hidle : decide (IsIdle cfg.world) = true := by decide +kernel
  have hsubscribers : cfg.world.state.presence.subscribers ≠ [] := by decide +kernel
  clear_value cfg
  refine ⟨cfg, hreach, of_decide_eq_true hidle, hsubscribers, ?_⟩
  exact watch_told 9 [] cfg hreach (opensUnwatched_of_all hopens) hopen hsubscribers

/-- A subscription from before the login is never announced. -/
theorem watch_not_told : let _ : Build := release
    ¬∀ cfg : Reentrant.Config interface, Reaches pocoSocket 9 [] cfg → IsIdle cfg.world →
      cfg.world.state.state = .open → cfg.world.state.presence.subscribers ≠ [] →
      lastWatch cfg.world.trace = some .subscribe := by
  intro _ hclaim
  let cfg := after 9 [] (connecting ++ [.enter (.presenceSubscribe (some 1))] ++
    loggedIn.drop connecting.length)
  have hreach : Reaches pocoSocket 9 [] cfg := by
    apply Reentrant.reachable_run
    decide +kernel
  have hidle : decide (IsIdle cfg.world) = true := by decide +kernel
  have hopen : cfg.world.state.state = .open := by decide +kernel
  have hsubscribers : cfg.world.state.presence.subscribers ≠ [] := by decide +kernel
  have hnever : lastWatch cfg.world.trace = none := by decide +kernel
  clear_value cfg
  have htold := hclaim cfg hreach (of_decide_eq_true hidle) hopen hsubscribers
  rw [hnever] at htold
  cases htold

end Deepstream
