import Deepstream.Reentrant.Machine

/-!
A component linked with the server that answers some of its calls.

The server is a program of its own: it runs when the component calls it or when
the environment gives it a task, and what it calls are entries of the component.
The linked system moves the machine of the component, so a server that follows
a policy makes every run of the system a run that the policy permits.
-/

namespace Reentrant

variable {I : Interface} {α β : Type}

/-- The interface of a server with the given state: it calls entries of the component. -/
abbrev Interface.serving (I : Interface) (State Note Fault : Type) : Interface where
  State := State
  Note := Note
  Exception := I.Exception
  Fault := Fault
  Entry := Empty
  Call := I.Entry
  Answer _ := Unit

/-- What a server can be asked: to answer a call of the component, or a task. -/
inductive Request (I : Interface) (Task : Type) where
  | call (c : I.Call)
  | task (t : Task)

@[reducible] def Request.Answer {Task : Type} : Request I Task → Type
  | .call c => I.Answer c
  | .task _ => Unit

/-- An `Oracle` is what the server finds outside of the system during a request; `outside` are
the entries that are left to the environment. -/
structure Server (I : Interface) where
  State : Type
  Note : Type
  Fault : Type
  Oracle : Type
  Task : Type
  serves : I.Call → Bool
  outside : I.Entry → Bool
  run : Oracle → (q : Request I Task) → Prog (I.serving State Note Fault) q.Answer

namespace Server

/-- The programs of a server -/
abbrev Program (S : Server I) : Type → Type :=
  Prog (I.serving S.State S.Note S.Fault)

/-- The world of a server that is about to run; its history is of no interest. -/
abbrev world (S : Server I) (s : S.State) : World (I.serving S.State S.Note S.Fault) :=
  { state := s }

end Server

/-- Who waits for the server -/
inductive Caller (S : Server I) where
  | component (f : Suspended I)
  | environment (t : S.Task)

@[reducible] def Caller.request {S : Server I} : Caller S → Request I S.Task
  | .component f => .call f.call
  | .environment t => .task t

/-- A request during which the server waits for an entry of the component to end, which
happens when the component is back at `depth` frames. -/
structure Pending (S : Server I) where
  caller : Caller S
  resume : S.Program caller.request.Answer
  depth : Nat

/-- The system, with the requests that wait, innermost first -/
structure Joint (S : Server I) where
  component : Config I
  server : S.State
  pending : List (Pending S) := []
  fault : Option S.Fault := none

/-- Who moves next: the server goes on with a request, it takes one up, or the environment
moves. -/
inductive Turn where
  | over | resuming | serving | environment
  deriving DecidableEq

/-- How the entry that has just ended has ended -/
def World.outcome (w : World I) : Except I.Exception Unit :=
  match w.trace with
  | .leave _ result :: _ => result
  | _ => .ok ()

namespace Joint

inductive Move (S : Server I) where
  | enter (e : I.Entry)
  | back (answer : ∀ c : I.Call, Except I.Exception (I.Answer c))
  | task (o : S.Oracle) (t : S.Task)
  | serve (o : S.Oracle)
  | resume

variable {S : Server I} (prog : I.Entry → Prog I Unit)

/-- The innermost request has made a call, and the entry has ended. -/
def resuming (pending : List (Pending S)) (frames : List (Suspended I)) : Bool :=
  match pending with
  | p :: _ => p.depth = frames.length
  | [] => false

def turn (j : Joint S) : Turn :=
  match j.fault, j.component.fault, j.component.frames with
  | none, none, f :: frames =>
      if resuming j.pending (f :: frames) then .resuming
      else if S.serves f.call then .serving
      else .environment
  | _, _, _ => .over

/-- The caller goes on with what the server has returned; what a task raises is left to the
environment. -/
def finish (j : Joint S) (caller : Caller S)
    (r : Except I.Exception caller.request.Answer) : Joint S :=
  match caller with
  | .component f =>
      let frames := j.component.frames.tail
      { j with component := Reentrant.settle f.entry frames (resumeWith f j.component.world r) }
  | .environment _ => j

/-- The system after the server has run up to its next call -/
def settle (j : Joint S) (caller : Caller S) :
    Result (I.serving S.State S.Note S.Fault) caller.request.Answer ×
      World (I.serving S.State S.Note S.Fault) → Joint S
  | (.done a, w) => finish { j with server := w.state } caller (.ok a)
  | (.raised x, w) => finish { j with server := w.state } caller (.error x)
  | (.aborted f, w) => { j with server := w.state, fault := some f }
  | (.paused e resume, w) =>
      { j with
        component := Reentrant.next prog j.component (.enter e)
        server := w.state
        pending := ⟨caller, resume (), j.component.frames.length⟩ :: j.pending }

def serve (j : Joint S) (o : S.Oracle) (caller : Caller S) : Joint S :=
  settle prog j caller (advance (S.run o caller.request) (S.world j.server))

def resume (j : Joint S) (p : Pending S) : Joint S :=
  settle prog j p.caller (match j.component.world.outcome with
    | .ok _ => advance p.resume (S.world j.server)
    | .error x => (.raised x, S.world j.server))

def next (j : Joint S) : Move S → Joint S
  | .enter e => { j with component := Reentrant.next prog j.component (.enter e) }
  | .back answer => { j with component := Reentrant.next prog j.component (.back answer) }
  | .task o t => serve prog j o (.environment t)
  | .serve o =>
      match j.component.frames with
      | f :: _ => serve prog j o (.component f)
      | [] => j
  | .resume =>
      match j.pending with
      | p :: pending => resume prog { j with pending } p
      | [] => j

/-- The environment enters and answers where the component waits for it. -/
def Permits (j : Joint S) : Move S → Prop
  | .enter e => j.turn = .environment ∧ S.outside e = true
  | .back _ => j.turn = .environment
  | .task _ _ => j.turn = .environment
  | .serve _ => j.turn = .serving
  | .resume => j.turn = .resuming

instance (j : Joint S) : (move : Move S) → Decidable (j.Permits move)
  | .enter e => inferInstanceAs (Decidable (j.turn = .environment ∧ S.outside e = true))
  | .back _ => inferInstanceAs (Decidable (j.turn = .environment))
  | .task _ _ => inferInstanceAs (Decidable (j.turn = .environment))
  | .serve _ => inferInstanceAs (Decidable (j.turn = .serving))
  | .resume => inferInstanceAs (Decidable (j.turn = .resuming))

def start (main : I.Entry) (s : I.State) (server : S.State) : Joint S where
  component := Reentrant.start prog main s
  server := server

/-- The systems of all runs. -/
inductive Reachable (main : I.Entry) (s : I.State) (server : S.State) : Joint S → Prop where
  | start : Reachable main s server (start prog main s server)
  | next (j : Joint S) (move : Move S) (hreach : Reachable main s server j)
      (hmove : j.Permits move) : Reachable main s server (next prog j move)

/-- Every move is permitted where it is made. -/
def PermittedFrom : Joint S → List (Move S) → Prop
  | _, [] => True
  | j, move :: moves => j.Permits move ∧ PermittedFrom (next prog j move) moves

instance decidablePermittedFrom (j : Joint S) :
    (moves : List (Move S)) → Decidable (PermittedFrom prog j moves)
  | [] => .isTrue trivial
  | move :: moves =>
      have := decidablePermittedFrom (next prog j move) moves
      inferInstanceAs (Decidable (_ ∧ _))

/-- The system after some moves -/
def after (j : Joint S) (moves : List (Move S)) : Joint S :=
  moves.foldl (next prog) j

theorem Reachable.after {main : I.Entry} {s : I.State} {server : S.State} {j : Joint S}
    {moves : List (Move S)} (h : Reachable prog main s server j)
    (hmoves : PermittedFrom prog j moves) :
    Reachable prog main s server (j.after prog moves) := by
  induction moves generalizing j with
  | nil => exact h
  | cons move moves ih => exact ih (.next j move h hmoves.1) hmoves.2

end Joint

section Steady

/-- A property of histories that only an entry that begins can end. -/
def Steady (K : List (Item I) → Prop) : Prop :=
  ∀ i t, (∀ e, i ≠ .enter e) → K t → K (i :: t)

variable {K : List (Item I) → Prop}

theorem Steady.advance (hK : Steady K) {p : Prog I α} {w : World I} (h : K w.trace) :
    K (advance p w).2.trace := by
  induction p generalizing w with
  | ret a => exact h
  | raise x => exact h
  | abort f => exact h
  | get next ih => exact ih w.state h
  | set s next ih => exact ih h
  | note n next ih => exact ih (hK _ _ nofun h)
  | call c next ih => exact hK _ _ nofun h

theorem Steady.settle (hK : Steady K) {e : I.Entry} {frames : List (Suspended I)}
    {r : Result I Unit × World I} (h : K r.2.trace) : K (settle e frames r).world.trace := by
  obtain ⟨result, w⟩ := r
  cases result with
  | done a => exact hK _ _ nofun h
  | raised x => exact hK _ _ nofun h
  | aborted f => exact h
  | paused c resume => exact h

theorem Steady.resumeWith (hK : Steady K) {f : Suspended I} {w : World I}
    {r : Except I.Exception (I.Answer f.call)} (h : K w.trace) :
    K (resumeWith f w r).2.trace := by
  cases r with
  | ok a => exact hK.advance (hK _ _ nofun h)
  | error x => exact hK _ _ nofun h

end Steady

section Pushed

/-- The frames are the given ones, or there is one more that has just made its call. -/
def Pushed (frames : List (Suspended I)) (cfg : Config I) : Prop :=
  cfg.frames = frames ∨
    ∃ f t, cfg.frames = f :: frames ∧ cfg.world.trace = .call f.call :: t

theorem advance_paused {p : Prog I α} {w w' : World I} {c : I.Call}
    {resume : I.Answer c → Prog I α} (h : advance p w = (.paused c resume, w')) :
    ∃ t, w'.trace = .call c :: t := by
  induction p generalizing w with
  | ret a => cases h
  | raise x => cases h
  | abort f => cases h
  | get next ih => exact ih w.state h
  | set s next ih => exact ih h
  | note n next ih => exact ih h
  | call c next ih =>
      cases h
      exact ⟨_, rfl⟩

theorem pushed_advance (e : I.Entry) (frames : List (Suspended I)) (p : Prog I Unit)
    (w : World I) : Pushed frames (settle e frames (advance p w)) := by
  cases hadvance : advance p w with
  | mk result w' =>
      cases result with
      | done a => exact .inl rfl
      | raised x => exact .inl rfl
      | aborted f => exact .inl rfl
      | paused c resume =>
          obtain ⟨t, ht⟩ := advance_paused hadvance
          exact .inr ⟨⟨e, c, resume⟩, t, rfl, ht⟩

theorem pushed_resumeWith (f : Suspended I) (frames : List (Suspended I)) (w : World I)
    (r : Except I.Exception (I.Answer f.call)) :
    Pushed frames (settle f.entry frames (resumeWith f w r)) := by
  cases r with
  | ok a => exact pushed_advance f.entry frames (f.resume a) _
  | error x => exact .inl rfl

end Pushed

section Leaving

/-- The contract that every component meets: an entry ends when it is left. -/
def Contract.leaving (I : Interface) : Contract I where
  outside _ := True
  before _ _ := True
  after _ _ _ := True
  pre _ _ := True
  post e _ w := ∃ r t, w.trace = .leave e r :: t
  abort _ _ := True

variable {P : Policy I} {prog : I.Entry → Prog I Unit}

theorem wp_leaving {p : Prog I α} {Q : α → World I → Prop} {E : I.Exception → World I → Prop}
    (hQ : ∀ a w, Q a w) (hE : ∀ x w, E x w) (w : World I) :
    wp (Contract.leaving I) P p Q E w := by
  induction p generalizing w with
  | ret a => exact hQ a w
  | raise x => exact hE x w
  | abort f => trivial
  | get next ih => exact ih w.state w
  | set s next ih => exact ih _
  | note n next ih => exact ih _
  | call c next ih =>
      refine ⟨trivial, fun w' result _ _ _ => ?_⟩
      cases result with
      | ok a => exact ih a _
      | error x => exact hE x _

theorem leaving_met : (Contract.leaving I).Met P prog where
  entry _ w _ := wp_leaving (fun _ _ => ⟨_, _, rfl⟩) (fun _ _ => ⟨_, _, rfl⟩) w
  refl _ _ _ := trivial
  enter _ _ _ _ _ _ _ _ := trivial
  stay _ _ _ _ _ _ _ _ _ _ _ := trivial
  outside _ _ _ _ _ _ := trivial

variable {main : I.Entry} {s : I.State} {cfg now : Config I} {e : I.Entry}

theorem kept_leaving (h : Reachable P prog main s cfg) : Kept (Contract.leaving I) P cfg :=
  leaving_met.kept trivial trivial h

/-- A component that runs is in the call of its innermost frame. -/
theorem Reachable.inCall (h : Reachable P prog main s cfg) (hrunning : cfg.fault = none)
    {f : Suspended I} {frames : List (Suspended I)} (hframes : cfg.frames = f :: frames) :
    cfg.world.InCall f.call := by
  have hkept := kept_leaving h
  obtain ⟨w, frames', fault⟩ := cfg
  cases hrunning
  cases hframes
  cases hkept with
  | cons _ _ _ _ _ _ hwaiting =>
      obtain ⟨w₁, -, -, -, hlater, -⟩ := hwaiting.exists_call
      exact hlater.inCall

theorem Activity.length_le (hactivity : Activity P prog cfg e now)
    (h : Reachable P prog main s cfg) (hrunning : now.fault = none) :
    cfg.frames.length ≤ now.frames.length := by
  have hwithin := leaving_met.within (kept_leaving h) hactivity
  obtain ⟨w, frames, fault⟩ := now
  cases hrunning
  cases hwithin with
  | ended _ _ _ => exact Nat.le_refl _
  | first f _ _ _ => exact Nat.le_succ _
  | cons f frames _ _ _ hactive _ _ => exact Nat.le_succ_of_le hactive.le

end Leaving

namespace Server

section Follows
variable (S : Server I) (P : Policy I) (related : S.State → List (Item I) → Prop)
  (allowed : S.Fault → Prop)

/-- What a program of a server does and returns, if the component is at `w`: what it calls is
permitted, and `related` holds whenever the component runs. -/
def Serves : S.Program α → (Except I.Exception α → S.State → World I → Prop) →
    S.State → World I → Prop
  | .ret a, Q, s, w => Q (.ok a) s w
  | .raise x, Q, s, w => Q (.error x) s w
  | .abort f, _, _, _ => allowed f
  | .get next, Q, s, w => Serves (next s) Q s w
  | .set s next, Q, _, w => Serves next Q s w
  | .note _ next, Q, s, w => Serves next Q s w
  | .call e next, Q, s, w => P.enter w e ∧ related s (.enter e :: w.trace) ∧
      ∀ s' w' r t, related s' w'.trace → World.During w w' → w'.trace = .leave e r :: t →
        match r with
        | .ok _ => Serves (next ()) Q s' w'
        | .error x => Q (.error x) s' w'

/-- What is left to serve when a program has ended and another one comes after it -/
def Continues (f : α → S.Program β) (Q : Except I.Exception β → S.State → World I → Prop) :
    Except I.Exception α → S.State → World I → Prop
  | .ok a => Serves S P related allowed (f a) Q
  | .error x => Q (.error x)

/-- What holds where a program has stopped that serves -/
def Served (Q : Except I.Exception α → S.State → World I → Prop) (w : World I) :
    Result (I.serving S.State S.Note S.Fault) α × World (I.serving S.State S.Note S.Fault) → Prop
  | (.done a, v) => Q (.ok a) v.state w
  | (.raised x, v) => Q (.error x) v.state w
  | (.aborted f, _) => allowed f
  | (.paused e resume, v) => P.enter w e ∧ related v.state (.enter e :: w.trace) ∧
      ∀ s' w' r t, related s' w'.trace → World.During w w' → w'.trace = .leave e r :: t →
        match r with
        | .ok _ => S.Serves P related allowed (resume ()) Q s' w'
        | .error x => Q (.error x) s' w'

/-- A server keeps to a policy, and stays related to the history of the component. -/
structure Follows : Prop where
  steady : ∀ s, Steady (related s)
  serve : ∀ o c s w t, S.serves c = true → w.InCall c → w.trace = .call c :: t →
    related s w.trace → S.Serves P related allowed (S.run o (.call c))
      (fun r s' w' => P.back w' c r ∧ related s' w'.trace) s w
  task : ∀ o t c s w, S.serves c = false → w.InCall c → related s w.trace →
    S.Serves P related allowed (S.run o (.task t)) (fun _ s' w' => related s' w'.trace) s w
  enter : ∀ e c s w, S.outside e = true → S.serves c = false → w.InCall c →
    related s w.trace → P.enter w e ∧ related s (.enter e :: w.trace)
  back : ∀ w c r, S.serves c = false → P.back w c r

end Follows

variable {S : Server I} {P : Policy I} {related : S.State → List (Item I) → Prop}
  {allowed : S.Fault → Prop}

theorem serves_bind (p : S.Program α) (f : α → S.Program β)
    (Q : Except I.Exception β → S.State → World I → Prop) (s : S.State) (w : World I) :
    S.Serves P related allowed (p >>= f) Q s w ↔
      S.Serves P related allowed p (S.Continues P related allowed f Q) s w := by
  change S.Serves P related allowed (p.bind f) Q s w ↔ _
  induction p generalizing s w with
  | ret a => exact Iff.rfl
  | raise x => exact Iff.rfl
  | abort e => exact Iff.rfl
  | get next ih => exact ih s s w
  | set s' next ih => exact ih s' w
  | note n next ih => exact ih s w
  | call e next ih =>
      refine and_congr Iff.rfl (and_congr Iff.rfl ?_)
      refine forall_congr' fun s' => forall_congr' fun w' => forall_congr' fun r =>
        forall_congr' fun t => imp_congr Iff.rfl (imp_congr Iff.rfl (imp_congr Iff.rfl ?_))
      cases r with
      | ok a => exact ih () s' w'
      | error x => exact Iff.rfl

theorem served_advance {p : S.Program α} {Q : Except I.Exception α → S.State → World I → Prop}
    {v : World (I.serving S.State S.Note S.Fault)} {w : World I}
    (h : S.Serves P related allowed p Q v.state w) :
    S.Served P related allowed Q w (advance p v) := by
  induction p generalizing v with
  | ret a => exact h
  | raise x => exact h
  | abort f => exact h
  | get next ih => exact ih v.state h
  | set s' next ih => exact ih h
  | note n next ih => exact ih h
  | call e next ih => exact h

end Server

namespace Joint

variable {S : Server I} (P : Policy I) (prog : I.Entry → Prog I Unit) (main : I.Entry)
  (s₀ : I.State) (related : S.State → List (Item I) → Prop) (allowed : S.Fault → Prop)

section Invariant

/-- What the caller of the server relies on when a request ends -/
def Satisfied : (caller : Caller S) → Except I.Exception caller.request.Answer →
    S.State → World I → Prop
  | .component f, r, s, w => P.back w f.call r ∧ related s w.trace
  | .environment _, _, s, w => related s w.trace

/-- Where the caller of the server waits -/
def Called (caller : Caller S) (frames : List (Suspended I)) : Prop :=
  match caller with
  | .component f => ∃ rest, frames = f :: rest
  | .environment _ => ∃ f rest, frames = f :: rest ∧ S.serves f.call = false

/-- A request that waits since the component was at `cfg`, where it was entered again -/
structure Awaited (p : Pending S) (now : Config I) : Prop where
  exists_entry : ∃ cfg e, Reentrant.Reachable P prog main s₀ cfg ∧ Activity P prog cfg e now ∧
    cfg.frames.length = p.depth ∧ Called p.caller cfg.frames ∧
    ∀ s w r t, related s w.trace → World.During cfg.world w → w.trace = .leave e r :: t →
      match r with
      | .ok _ => S.Serves P related allowed p.resume (Satisfied P related p.caller) s w
      | .error x => Satisfied P related p.caller (.error x) s w

/-- For each of the frames whose call is the server's, a request waits. -/
def Covered (pending : List (Pending S)) (frames : List (Suspended I)) : Prop :=
  ∀ f rest, f :: rest <:+ frames → S.serves f.call = true →
    ∃ p ∈ pending, p.depth = rest.length + 1

/-- A system that has not failed. The frame on top may have just called the server. -/
structure Running (j : Joint S) : Prop where
  relates : related j.server j.component.world.trace
  awaited : ∀ p ∈ j.pending, Awaited P prog main s₀ related allowed p j.component
  nested : j.pending.Pairwise fun p q => q.depth < p.depth
  covered : Covered j.pending j.component.frames.tail
  called : ∀ f rest, j.component.frames = f :: rest → S.serves f.call = true →
    (∃ p ∈ j.pending, p.depth = rest.length + 1) ∨
      ∃ t, j.component.world.trace = .call f.call :: t

structure Linked (j : Joint S) : Prop where
  reachable : Reentrant.Reachable P prog main s₀ j.component
  failed : ∀ f, j.fault = some f → allowed f
  running : j.fault = none → Running P prog main s₀ related allowed j

end Invariant

variable {P prog main s₀ related allowed}

theorem Covered.tail {pending : List (Pending S)} {frames : List (Suspended I)}
    (h : Covered pending frames) : Covered pending frames.tail :=
  fun f rest hsuffix => h f rest (hsuffix.trans (List.tail_suffix frames))

theorem Covered.cons {pending : List (Pending S)} {f : Suspended I}
    {frames : List (Suspended I)} (h : Covered pending frames)
    (hf : S.serves f.call = true → ∃ p ∈ pending, p.depth = frames.length + 1) :
    Covered pending (f :: frames) := by
  intro g rest hsuffix hserves
  obtain heq | hsuffix := List.suffix_cons_iff.mp hsuffix
  · cases heq
    exact hf hserves
  · exact h g rest hsuffix hserves

/-- A request in front that belongs to the frame on top -/
theorem Covered.of_cons {p : Pending S} {pending : List (Pending S)}
    {frames : List (Suspended I)} (h : Covered (p :: pending) frames)
    (hdepth : frames.length < p.depth) : Covered pending frames := by
  intro f rest hsuffix hserves
  obtain ⟨q, hq, hqdepth⟩ := h f rest hsuffix hserves
  have hlength := hsuffix.length_le
  rw [List.length_cons] at hlength
  obtain rfl | hq := List.mem_cons.mp hq
  · omega
  · exact ⟨q, hq, hqdepth⟩

theorem Covered.mono {p : Pending S} {pending : List (Pending S)}
    {frames : List (Suspended I)} (h : Covered pending frames) :
    Covered (p :: pending) frames := by
  intro f rest hsuffix hserves
  obtain ⟨q, hq, hdepth⟩ := h f rest hsuffix hserves
  exact ⟨q, List.mem_cons_of_mem _ hq, hdepth⟩

/-- Requests go on waiting until the component is back where they called it. -/
theorem Awaited.move {p : Pending S} {now : Config I}
    (h : Awaited P prog main s₀ related allowed p now) (hdepth : p.depth < now.frames.length)
    {move : Reentrant.Move I} (hmove : P.Permits now move) :
    Awaited P prog main s₀ related allowed p (Reentrant.next prog now move) := by
  obtain ⟨cfg, e, hreach, hactivity, hlength, hcalled, hresume⟩ := h.exists_entry
  have hactive : now.frames.length ≠ cfg.frames.length := by omega
  exact ⟨cfg, e, hreach, .move now move hactivity hactive hmove, hlength, hcalled, hresume⟩

theorem Awaited.depth_le {p : Pending S} {now : Config I}
    (h : Awaited P prog main s₀ related allowed p now) (hrunning : now.fault = none) :
    p.depth ≤ now.frames.length := by
  obtain ⟨cfg, e, hreach, hactivity, hlength, -, -⟩ := h.exists_entry
  rw [← hlength]
  exact hactivity.length_le hreach hrunning

/-- The entry that a request waits for has ended. -/
theorem Awaited.over {p : Pending S} {now : Config I}
    (h : Awaited P prog main s₀ related allowed p now) (hrunning : now.fault = none)
    (hdepth : p.depth = now.frames.length) {s : S.State} (hrelated : related s now.world.trace) :
    Called p.caller now.frames ∧
      match now.world.outcome with
      | .ok _ => S.Serves P related allowed p.resume (Satisfied P related p.caller) s now.world
      | .error x => Satisfied P related p.caller (.error x) s now.world := by
  obtain ⟨cfg, e, hreach, hactivity, hlength, hcalled, hresume⟩ := h.exists_entry
  have hended : cfg.Ended now := ⟨hrunning, by omega⟩
  obtain ⟨hframes, ⟨r, t, htrace⟩, hlater⟩ :=
    leaving_met.post_of_ended (kept_leaving hreach) hactivity hended
  have hnext := hresume s now.world r t hrelated hlater htrace
  have houtcome : now.world.outcome = r := by
    unfold World.outcome
    rw [htrace]
  rw [houtcome, hframes]
  exact ⟨hcalled, hnext⟩

/-- An answer to a call is a move of the component. -/
theorem exists_back [Nonempty I.Exception] (prog : I.Entry → Prog I Unit) {cfg : Config I}
    (hrunning : cfg.fault = none) {f : Suspended I} {frames : List (Suspended I)}
    (hframes : cfg.frames = f :: frames) {r : Except I.Exception (I.Answer f.call)}
    (hback : P.back cfg.world f.call r) : ∃ move, P.Permits cfg move ∧
      Reentrant.next prog cfg move =
        Reentrant.settle f.entry frames (resumeWith f cfg.world r) := by
  classical
  obtain ⟨x⟩ := ‹Nonempty I.Exception›
  let answer : ∀ c : I.Call, Except I.Exception (I.Answer c) :=
    fun c => if h : f.call = c then h ▸ r else .error x
  have hanswer : answer f.call = r := dif_pos rfl
  refine ⟨.back answer, ?_, ?_⟩
  · unfold Policy.Permits
    rw [hframes]
    change P.back cfg.world f.call (answer f.call)
    rwa [hanswer]
  · rw [next_back prog hrunning hframes, hanswer]

theorem permits_enter {cfg : Config I} {e : I.Entry} (h : P.enter cfg.world e) :
    P.Permits cfg (.enter e) := by
  obtain ⟨w, frames, fault⟩ := cfg
  cases frames with
  | nil => trivial
  | cons f frames => exact h

theorem pushed_enter {cfg : Config I} (hrunning : cfg.fault = none) (hframes : cfg.frames ≠ [])
    (e : I.Entry) : Pushed cfg.frames (Reentrant.next prog cfg (.enter e)) := by
  rw [next_enter prog hrunning hframes]
  exact pushed_advance ..

theorem steady_enter (hsteady : ∀ s, Steady (related s)) {cfg : Config I}
    (hrunning : cfg.fault = none) (hframes : cfg.frames ≠ []) {e : I.Entry} {s : S.State}
    (h : related s (.enter e :: cfg.world.trace)) :
    related s (Reentrant.next prog cfg (.enter e)).world.trace := by
  rw [next_enter prog hrunning hframes]
  exact (hsteady s).settle ((hsteady s).advance h)

/-- After a move of the component whose frames below are covered -/
theorem running_of_pushed {component : Config I} {server : S.State}
    {pending : List (Pending S)} (frames : List (Suspended I))
    (hrelated : related server component.world.trace)
    (hawaited : ∀ p ∈ pending, Awaited P prog main s₀ related allowed p component)
    (hnested : pending.Pairwise fun p q => q.depth < p.depth)
    (hcovered : Covered pending frames) (hpushed : Pushed frames component) :
    Running P prog main s₀ related allowed ⟨component, server, pending, none⟩ := by
  refine ⟨hrelated, hawaited, hnested, ?_, ?_⟩
  · obtain hframes | ⟨f, t, hframes, -⟩ := hpushed
    · change Covered pending component.frames.tail
      rw [hframes]
      exact hcovered.tail
    · change Covered pending component.frames.tail
      rw [hframes]
      exact hcovered
  · intro g rest hg hserves
    obtain hframes | ⟨f, t, hframes, ht⟩ := hpushed
    · refine .inl (hcovered g rest ?_ hserves)
      rw [← hframes]
      exact hg ▸ List.suffix_refl _
    · cases hframes.symm.trans hg
      exact .inr ⟨t, ht⟩

section Turn
variable {j : Joint S}

/-- Whose turn it is, where the component waits in a call -/
theorem turn_cases (hturn : j.turn ≠ .over) :
    j.fault = none ∧ j.component.fault = none ∧ ∃ f frames, j.component.frames = f :: frames ∧
      j.turn = if resuming j.pending (f :: frames) then .resuming
        else if S.serves f.call then .serving else .environment := by
  obtain ⟨⟨w, frames, componentFault⟩, server, pending, fault⟩ := j
  cases fault with
  | some x => exact absurd rfl hturn
  | none =>
      cases componentFault with
      | some x => exact absurd rfl hturn
      | none =>
          cases frames with
          | nil => exact absurd rfl hturn
          | cons f frames => exact ⟨rfl, rfl, f, frames, rfl, rfl⟩

/-- The component waits in a call, and no request is to go on. -/
structure Waits (j : Joint S) (f : Suspended I) (frames : List (Suspended I)) : Prop where
  fault : j.fault = none
  component : j.component.fault = none
  top : j.component.frames = f :: frames
  resuming : resuming j.pending (f :: frames) = false

theorem exists_waits (hturn : j.turn = .serving ∨ j.turn = .environment) :
    ∃ f frames, j.Waits f frames ∧ (S.serves f.call = true ↔ j.turn = .serving) := by
  have hnot : j.turn ≠ .over := by
    obtain h | h := hturn <;> rw [h] <;> exact nofun
  obtain ⟨hfault, hcomponent, f, frames, hframes, heq⟩ := turn_cases hnot
  cases hresuming : Joint.resuming j.pending (f :: frames) with
  | true =>
      rw [hresuming, if_pos rfl] at heq
      rw [heq] at hturn
      obtain h | h := hturn <;> cases h
  | false =>
      refine ⟨f, frames, ⟨hfault, hcomponent, hframes, hresuming⟩, ?_⟩
      rw [heq, hresuming, if_neg Bool.false_ne_true]
      cases S.serves f.call <;> simp

theorem waits_of_serving (hturn : j.turn = .serving) :
    ∃ f frames, j.Waits f frames ∧ S.serves f.call = true := by
  obtain ⟨f, frames, hwaits, hserves⟩ := exists_waits (.inl hturn)
  exact ⟨f, frames, hwaits, hserves.mpr hturn⟩

theorem waits_of_environment (hturn : j.turn = .environment) :
    ∃ f frames, j.Waits f frames ∧ S.serves f.call = false := by
  obtain ⟨f, frames, hwaits, hserves⟩ := exists_waits (.inr hturn)
  refine ⟨f, frames, hwaits, Bool.eq_false_iff.mpr fun hs => ?_⟩
  have hserving := hserves.mp hs
  rw [hturn] at hserving
  cases hserving

theorem exists_resuming (hturn : j.turn = .resuming) :
    j.fault = none ∧ j.component.fault = none ∧ ∃ f frames p pending,
      j.component.frames = f :: frames ∧ j.pending = p :: pending ∧
        p.depth = j.component.frames.length := by
  obtain ⟨hfault, hcomponent, f, frames, hframes, heq⟩ :=
    turn_cases (j := j) (by rw [hturn]; exact nofun)
  refine ⟨hfault, hcomponent, f, frames, ?_⟩
  cases hpending : j.pending with
  | nil =>
      rw [hpending, hturn] at heq
      change Turn.resuming = if S.serves f.call then .serving else .environment at heq
      split at heq <;> cases heq
  | cons p pending =>
      refine ⟨p, pending, hframes, rfl, ?_⟩
      rw [hpending, hturn] at heq
      rw [hframes]
      change Turn.resuming = if decide (p.depth = (f :: frames).length) = true then .resuming
        else if S.serves f.call then .serving else .environment at heq
      by_contra hne
      rw [decide_eq_false hne, if_neg Bool.false_ne_true] at heq
      split at heq <;> cases heq

end Turn

section Step
variable {j : Joint S}

/-- What is known of a system while the server runs for some caller -/
structure Asked (P : Policy I) (prog : I.Entry → Prog I Unit) (main : I.Entry) (s₀ : I.State)
    (related : S.State → List (Item I) → Prop) (allowed : S.Fault → Prop) (j : Joint S)
    (caller : Caller S) : Prop where
  reachable : Reentrant.Reachable P prog main s₀ j.component
  fault : j.fault = none
  component : j.component.fault = none
  awaited : ∀ p ∈ j.pending, Awaited P prog main s₀ related allowed p j.component
  nested : j.pending.Pairwise fun p q => q.depth < p.depth
  deep : ∀ p ∈ j.pending, p.depth < j.component.frames.length
  covered : Covered j.pending j.component.frames.tail
  called : Called caller j.component.frames

/-- The server returns to its caller. -/
theorem Asked.finish [Nonempty I.Exception] (hsteady : ∀ s, Steady (related s)) {caller : Caller S}
    (h : j.Asked P prog main s₀ related allowed caller)
    {r : Except I.Exception caller.request.Answer}
    (hr : Satisfied P related caller r j.server j.component.world) :
    Linked P prog main s₀ related allowed (j.finish caller r) := by
  obtain ⟨component, server, pending, fault⟩ := j
  obtain ⟨hreach, hfault, hcomponent, hawaited, hnested, hdeep, hcovered, hcalled⟩ := h
  cases hfault
  cases caller with
  | component f =>
      obtain ⟨hback, hrelated⟩ := hr
      obtain ⟨frames, hframes⟩ := hcalled
      obtain ⟨move, hmove, hnext⟩ := exists_back prog hcomponent hframes hback
      have htail : component.frames.tail = frames := congrArg List.tail hframes
      have hcomponent' : ((⟨component, server, pending, none⟩ : Joint S).finish
          (.component f) r) = ⟨Reentrant.next prog component move, server, pending, none⟩ := by
        rw [hnext, ← htail]
        rfl
      rw [hcomponent']
      refine ⟨.next _ move hreach hmove, nofun, fun _ => ?_⟩
      apply running_of_pushed frames
      · rw [hnext]
        exact (hsteady server).settle ((hsteady server).resumeWith hrelated)
      · exact fun p hp => (hawaited p hp).move (hdeep p hp) hmove
      · exact hnested
      · exact htail ▸ hcovered
      · rw [hnext]
        exact pushed_resumeWith ..
  | environment t =>
      obtain ⟨f, frames, hframes, hserves⟩ := hcalled
      refine ⟨hreach, nofun, fun _ => ⟨hr, hawaited, hnested, hcovered, ?_⟩⟩
      intro g rest hg hg'
      cases hframes.symm.trans hg
      rw [hserves] at hg'
      cases hg'

/-- The server has run up to its next call. -/
theorem Asked.settle [Nonempty I.Exception] (hsteady : ∀ s, Steady (related s)) {caller : Caller S}
    (h : j.Asked P prog main s₀ related allowed caller)
    {r : Result (I.serving S.State S.Note S.Fault) caller.request.Answer ×
      World (I.serving S.State S.Note S.Fault)}
    (hr : S.Served P related allowed (Satisfied P related caller) j.component.world r) :
    Linked P prog main s₀ related allowed (j.settle prog caller r) := by
  obtain ⟨result, v⟩ := r
  have hasked : ({ j with server := v.state } : Joint S).Asked P prog main s₀ related allowed
      caller :=
    ⟨h.reachable, h.fault, h.component, h.awaited, h.nested, h.deep, h.covered, h.called⟩
  cases result with
  | done a => exact hasked.finish hsteady hr
  | raised x => exact hasked.finish hsteady hr
  | aborted f =>
      refine ⟨h.reachable, ?_, nofun⟩
      rintro _ ⟨⟩
      exact hr
  | paused e resume =>
      obtain ⟨henter, hrelated, hresume⟩ := hr
      have hframes : j.component.frames ≠ [] := by
        have hcalled := h.called
        cases caller with
        | component f =>
            obtain ⟨rest, hrest⟩ := hcalled
            rw [hrest]
            exact List.cons_ne_nil _ _
        | environment t =>
            obtain ⟨f, rest, hrest, -⟩ := hcalled
            rw [hrest]
            exact List.cons_ne_nil _ _
      have hmove := permits_enter henter
      refine ⟨.next _ _ h.reachable hmove, ?_, fun _ => ?_⟩
      · intro f hf
        rw [show (j.settle prog caller (.paused e resume, v)).fault = j.fault from rfl,
          h.fault] at hf
        cases hf
      have hfault : j.settle prog caller (.paused e resume, v) =
          ⟨Reentrant.next prog j.component (.enter e), v.state,
            ⟨caller, resume (), j.component.frames.length⟩ :: j.pending, none⟩ := by
        rw [← h.fault]
        rfl
      rw [hfault]
      apply running_of_pushed j.component.frames
      · exact steady_enter hsteady h.component hframes hrelated
      · intro p hp
        obtain rfl | hp := List.mem_cons.mp hp
        · exact ⟨j.component, e, h.reachable, .enter h.component hframes hmove, rfl, h.called,
            hresume⟩
        · exact (h.awaited p hp).move (h.deep p hp) hmove
      · exact List.pairwise_cons.mpr ⟨h.deep, h.nested⟩
      · cases hcomponent : j.component.frames with
        | nil => exact absurd hcomponent hframes
        | cons f frames =>
            have hcovered := h.covered
            rw [hcomponent] at hcovered
            exact hcovered.mono.cons fun _ => ⟨_, List.mem_cons_self .., rfl⟩
      · exact pushed_enter h.component hframes e

/-- Where no request is to go on, each waits for an entry further out. -/
theorem Running.deep {f : Suspended I} {frames : List (Suspended I)}
    (h : Running P prog main s₀ related allowed j) (hwaits : j.Waits f frames) :
    ∀ p ∈ j.pending, p.depth < j.component.frames.length := by
  have hresuming := hwaits.resuming
  have hnested := h.nested
  have hle : ∀ p ∈ j.pending, p.depth ≤ j.component.frames.length :=
    fun p hp => (h.awaited p hp).depth_le hwaits.component
  cases hpending : j.pending with
  | nil => exact nofun
  | cons p pending =>
      rw [hpending] at hresuming hnested hle
      have hne : p.depth ≠ (f :: frames).length := of_decide_eq_false hresuming
      rw [← hwaits.top] at hne
      have hlt : p.depth < j.component.frames.length :=
        lt_of_le_of_ne (hle p (List.mem_cons_self ..)) hne
      intro q hq
      obtain rfl | hq := List.mem_cons.mp hq
      · exact hlt
      · exact ((List.pairwise_cons.mp hnested).1 q hq).trans hlt

theorem Running.asked {f : Suspended I} {frames : List (Suspended I)} {caller : Caller S}
    (hreach : Reentrant.Reachable P prog main s₀ j.component)
    (h : Running P prog main s₀ related allowed j) (hwaits : j.Waits f frames)
    (hcalled : Called caller j.component.frames) :
    j.Asked P prog main s₀ related allowed caller :=
  ⟨hreach, hwaits.fault, hwaits.component, h.awaited, h.nested, h.deep hwaits, h.covered,
    hcalled⟩

/-- A frame on top whose call is the server's has just called it. -/
theorem Running.just_called {f : Suspended I} {frames : List (Suspended I)}
    (h : Running P prog main s₀ related allowed j) (hwaits : j.Waits f frames)
    (hserves : S.serves f.call = true) : ∃ t, j.component.world.trace = .call f.call :: t := by
  obtain ⟨p, hp, hdepth⟩ | ht := h.called f frames hwaits.top hserves
  · have hlt := h.deep hwaits p hp
    rw [hwaits.top, List.length_cons] at hlt
    omega
  · exact ht

end Step

section Run
variable [Nonempty I.Exception]

/-- One move of the system -/
theorem Linked.next (hfollows : S.Follows P related allowed) {j : Joint S} {move : Move S}
    (h : Linked P prog main s₀ related allowed j) (hmove : j.Permits move) :
    Linked P prog main s₀ related allowed (j.next prog move) := by
  have hsteady := hfollows.steady
  cases move with
  | enter e =>
      obtain ⟨hturn, houtside⟩ := hmove
      obtain ⟨f, frames, hwaits, hfree⟩ := waits_of_environment hturn
      have hrunning := h.running hwaits.fault
      have hframes : j.component.frames ≠ [] := by
        rw [hwaits.top]
        exact List.cons_ne_nil _ _
      obtain ⟨henter, hrelated⟩ := hfollows.enter e f.call j.server j.component.world houtside
        hfree (h.reachable.inCall hwaits.component hwaits.top) hrunning.relates
      have hpermits := permits_enter henter
      refine ⟨.next _ _ h.reachable hpermits, h.failed, fun _ => ?_⟩
      have hcovered := hrunning.covered
      rw [hwaits.top] at hcovered
      rw [show j.next prog (.enter e) = ⟨Reentrant.next prog j.component (.enter e), j.server,
        j.pending, none⟩ by rw [← hwaits.fault]; rfl]
      apply running_of_pushed j.component.frames
      · exact steady_enter hsteady hwaits.component hframes hrelated
      · exact fun p hp => (hrunning.awaited p hp).move (hrunning.deep hwaits p hp) hpermits
      · exact hrunning.nested
      · rw [hwaits.top]
        refine Covered.cons hcovered fun hs => ?_
        rw [hfree] at hs
        cases hs
      · exact pushed_enter hwaits.component hframes e
  | back answer =>
      obtain ⟨f, frames, hwaits, hfree⟩ := waits_of_environment hmove
      have hrunning := h.running hwaits.fault
      have hpermits : P.Permits j.component (.back answer) := by
        unfold Policy.Permits
        rw [hwaits.top]
        exact hfollows.back _ _ _ hfree
      have hnext := next_back prog hwaits.component hwaits.top answer
      refine ⟨.next _ _ h.reachable hpermits, h.failed, fun _ => ?_⟩
      have hcovered := hrunning.covered
      rw [hwaits.top] at hcovered
      rw [show j.next prog (.back answer) = ⟨Reentrant.next prog j.component (.back answer),
        j.server, j.pending, none⟩ by rw [← hwaits.fault]; rfl]
      apply running_of_pushed frames
      · rw [hnext]
        exact (hsteady j.server).settle ((hsteady j.server).resumeWith hrunning.relates)
      · exact fun p hp => (hrunning.awaited p hp).move (hrunning.deep hwaits p hp) hpermits
      · exact hrunning.nested
      · exact hcovered
      · rw [hnext]
        exact pushed_resumeWith ..
  | task o t =>
      obtain ⟨f, frames, hwaits, hfree⟩ := waits_of_environment hmove
      have hrunning := h.running hwaits.fault
      have hasked : j.Asked P prog main s₀ related allowed (.environment t) :=
        hrunning.asked h.reachable hwaits ⟨f, frames, hwaits.top, hfree⟩
      apply hasked.settle hsteady
      exact Server.served_advance (hfollows.task o t f.call j.server j.component.world hfree
        (h.reachable.inCall hwaits.component hwaits.top) hrunning.relates)
  | serve o =>
      obtain ⟨f, frames, hwaits, hserves⟩ := waits_of_serving hmove
      have hrunning := h.running hwaits.fault
      have hasked : j.Asked P prog main s₀ related allowed (.component f) :=
        hrunning.asked h.reachable hwaits ⟨frames, hwaits.top⟩
      obtain ⟨t, ht⟩ := hrunning.just_called hwaits hserves
      rw [show j.next prog (.serve o) = j.serve prog o (.component f) by
        unfold Joint.next
        dsimp only
        rw [hwaits.top]]
      apply hasked.settle hsteady
      exact Server.served_advance (hfollows.serve o f.call j.server j.component.world t
        hserves (h.reachable.inCall hwaits.component hwaits.top) ht hrunning.relates)
  | resume =>
      obtain ⟨hfault, hcomponent, f, frames, p, pending, hframes, hpending, hdepth⟩ :=
        exists_resuming hmove
      have hrunning := h.running hfault
      have hmem : p ∈ j.pending := by
        rw [hpending]
        exact List.mem_cons_self ..
      have hnested := hrunning.nested
      have hcovered := hrunning.covered
      rw [hpending] at hnested hcovered
      obtain ⟨hcalled, hresume⟩ :=
        (hrunning.awaited p hmem).over hcomponent hdepth hrunning.relates
      have hasked : ({ j with pending } : Joint S).Asked P prog main s₀ related allowed
          p.caller := by
        refine ⟨h.reachable, hfault, hcomponent, ?_, (List.pairwise_cons.mp hnested).2, ?_, ?_,
          hcalled⟩
        · intro q hq
          exact hrunning.awaited q (by rw [hpending]; exact List.mem_cons_of_mem _ hq)
        · intro q hq
          exact hdepth ▸ (List.pairwise_cons.mp hnested).1 q hq
        · apply Covered.of_cons hcovered
          rw [hdepth, hframes]
          exact Nat.lt_succ_self _
      rw [show j.next prog .resume = ({ j with pending } : Joint S).resume prog p by
        unfold Joint.next
        dsimp only
        rw [hpending]]
      apply hasked.settle hsteady
      cases houtcome : j.component.world.outcome with
      | ok a =>
          rw [houtcome] at hresume
          exact Server.served_advance hresume
      | error x =>
          rw [houtcome] at hresume
          exact hresume

/-- A server that follows a policy makes every run one that the policy permits. -/
theorem Reachable.linked (hfollows : S.Follows P related allowed) {server : S.State}
    (hstart : related server [.enter main]) {j : Joint S}
    (h : Reachable prog main s₀ server j) : Linked P prog main s₀ related allowed j := by
  induction h with
  | start =>
      refine ⟨.start, nofun, fun _ => ?_⟩
      apply running_of_pushed []
      · exact (hfollows.steady server).settle ((hfollows.steady server).advance hstart)
      · exact nofun
      · exact .nil
      · intro f rest hsuffix
        cases List.suffix_nil.mp hsuffix
      · exact pushed_advance ..
  | next j move _ hmove ih => exact ih.next hfollows hmove

end Run

end Joint

end Reentrant
