import Deepstream.Reentrant.Program

/-!
The machine that runs the programs of a component against any environment.

A configuration is the world with the programs that wait for an answer. One move
of the environment enters the component or answers the innermost call; the
program then runs up to its next call. A contract that every entry meets holds
of every configuration that moves permitted by a policy can reach.
-/

namespace Reentrant

variable {I : Interface} {α β : Type}

inductive Result (I : Interface) (α : Type) where
  | done (a : α)
  | raised (x : I.Exception)
  | aborted (f : I.Fault)
  | paused (c : I.Call) (resume : I.Answer c → Prog I α)

/-- Run a program up to its next call. -/
def advance : Prog I α → World I → Result I α × World I
  | .ret a, w => (.done a, w)
  | .raise x, w => (.raised x, w)
  | .abort f, w => (.aborted f, w)
  | .get next, w => advance (next w.state) w
  | .set s next, w => advance next { w with state := s }
  | .note n next, w => advance next (w.noted n)
  | .call c next, w => (.paused c next, w.calling c)

theorem advance_bind {p : Prog I α} {f : α → Prog I β} {w w' : World I} {a : α}
    (h : advance p w = (.done a, w')) : advance (p >>= f) w = advance (f a) w' := by
  change advance (p.bind f) w = _
  induction p generalizing w with
  | ret b =>
      cases h
      rfl
  | raise x => cases h
  | abort e => cases h
  | get next ih => exact ih w.state h
  | set s next ih => exact ih h
  | note n next ih => exact ih h
  | call c next ih => cases h

theorem advance_bind_raised {p : Prog I α} {f : α → Prog I β} {w w' : World I} {x : I.Exception}
    (h : advance p w = (.raised x, w')) : advance (p >>= f) w = (.raised x, w') := by
  change advance (p.bind f) w = _
  induction p generalizing w with
  | ret b => cases h
  | raise y =>
      cases h
      rfl
  | abort e => cases h
  | get next ih => exact ih w.state h
  | set s next ih => exact ih h
  | note n next ih => exact ih h
  | call c next ih => cases h

/-- An entry whose innermost call is under way. -/
structure Suspended (I : Interface) where
  entry : I.Entry
  call : I.Call
  resume : I.Answer call → Prog I Unit

structure Config (I : Interface) where
  world : World I
  frames : List (Suspended I)
  fault : Option I.Fault := none

def settle (e : I.Entry) (frames : List (Suspended I)) : Result I Unit × World I → Config I
  | (.done _, w) => { world := w.left e (.ok ()), frames }
  | (.raised x, w) => { world := w.left e (.error x), frames }
  | (.aborted f, w) => { world := w, frames, fault := some f }
  | (.paused c resume, w) => { world := w, frames := ⟨e, c, resume⟩ :: frames }

/-- What the environment does next; an answer may depend on the call it is for. -/
inductive Move (I : Interface) where
  | enter (e : I.Entry)
  | back (answer : ∀ c : I.Call, Except I.Exception (I.Answer c))

section Run
variable (prog : I.Entry → Prog I Unit)

def start (main : I.Entry) (s : I.State) : Config I :=
  settle main [] (advance (prog main) (World.entered { state := s } main))

def resumeWith (f : Suspended I) (w : World I) (r : Except I.Exception (I.Answer f.call)) :
    Result I Unit × World I :=
  match r with
  | .ok a => advance (f.resume a) (w.returned f.call r)
  | .error x => (.raised x, w.returned f.call r)

/-- A component that failed or whose main entry has ended does not move any more. -/
def next (cfg : Config I) (move : Move I) : Config I :=
  match cfg.fault, cfg.frames with
  | some _, _ => cfg
  | none, [] => cfg
  | none, f :: frames =>
      match move with
      | .enter e => settle e (f :: frames) (advance (prog e) (cfg.world.entered e))
      | .back answer => settle f.entry frames (resumeWith f cfg.world (answer f.call))

theorem next_enter {cfg : Config I} (hrunning : cfg.fault = none) (hframes : cfg.frames ≠ [])
    (e : I.Entry) : next prog cfg (.enter e) =
      settle e cfg.frames (advance (prog e) (cfg.world.entered e)) := by
  obtain ⟨w, frames, fault⟩ := cfg
  cases hrunning
  cases frames with
  | nil => exact absurd rfl hframes
  | cons f frames => rfl

theorem next_back {cfg : Config I} (hrunning : cfg.fault = none) {f : Suspended I}
    {frames : List (Suspended I)} (hframes : cfg.frames = f :: frames)
    (answer : ∀ c : I.Call, Except I.Exception (I.Answer c)) : next prog cfg (.back answer) =
      settle f.entry frames (resumeWith f cfg.world (answer f.call)) := by
  obtain ⟨w, frames', fault⟩ := cfg
  cases hrunning
  cases hframes
  rfl

def run (main : I.Entry) (s : I.State) (moves : List (Move I)) : Config I :=
  moves.foldl (next prog) (start prog main s)

end Run

def Policy.Permits (P : Policy I) (cfg : Config I) (move : Move I) : Prop :=
  match cfg.frames, move with
  | [], _ => True
  | _ :: _, .enter e => P.enter cfg.world e
  | f :: _, .back answer => P.back cfg.world f.call (answer f.call)

/-- The configurations of all runs whose moves a policy permits. -/
inductive Reachable (P : Policy I) (prog : I.Entry → Prog I Unit) (main : I.Entry)
    (s : I.State) : Config I → Prop where
  | start : Reachable P prog main s (start prog main s)
  | next (cfg : Config I) (move : Move I) (hreach : Reachable P prog main s cfg)
      (hmove : P.Permits cfg move) : Reachable P prog main s (next prog cfg move)

/-- Everything is permitted. -/
def Policy.any (I : Interface) : Policy I where
  enter _ _ := True
  back _ _ _ := True

/-- Every move is permitted where it is made. -/
def PermittedFrom (P : Policy I) (prog : I.Entry → Prog I Unit) :
    Config I → List (Move I) → Prop
  | _, [] => True
  | cfg, move :: moves => P.Permits cfg move ∧ PermittedFrom P prog (next prog cfg move) moves

instance Policy.decidablePermits (P : Policy I) [∀ w e, Decidable (P.enter w e)]
    [∀ w c r, Decidable (P.back w c r)] (cfg : Config I) (move : Move I) :
    Decidable (P.Permits cfg move) :=
  match h : cfg.frames, move with
  | [], _ => .isTrue (by unfold Policy.Permits; rw [h]; trivial)
  | _ :: _, .enter e => decidable_of_iff (P.enter cfg.world e)
      (by unfold Policy.Permits; rw [h])
  | f :: _, .back answer => decidable_of_iff (P.back cfg.world f.call (answer f.call))
      (by unfold Policy.Permits; rw [h])

instance decidablePermittedFrom (P : Policy I) [∀ w e, Decidable (P.enter w e)]
    [∀ w c r, Decidable (P.back w c r)] (prog : I.Entry → Prog I Unit) (cfg : Config I) :
    (moves : List (Move I)) → Decidable (PermittedFrom P prog cfg moves)
  | [] => .isTrue trivial
  | move :: moves =>
      have := decidablePermittedFrom P prog (next prog cfg move) moves
      inferInstanceAs (Decidable (_ ∧ _))

theorem reachable_run {P : Policy I} {prog : I.Entry → Prog I Unit} {main : I.Entry} {s : I.State}
    {moves : List (Move I)} (h : PermittedFrom P prog (start prog main s) moves) :
    Reachable P prog main s (run prog main s moves) := by
  unfold run
  generalize hcfg : start prog main s = cfg at h
  have hreach : Reachable P prog main s cfg := hcfg ▸ .start
  clear hcfg
  induction moves generalizing cfg with
  | nil => exact hreach
  | cons move moves ih => exact ih _ h.2 (.next cfg move hreach h.1)

theorem permittedFrom_any (prog : I.Entry → Prog I Unit) (cfg : Config I)
    (moves : List (Move I)) : PermittedFrom (.any I) prog cfg moves := by
  induction moves generalizing cfg with
  | nil => trivial
  | cons move moves ih =>
      refine ⟨?_, ih _⟩
      unfold Policy.Permits
      split <;> trivial

section Contract
variable (C : Contract I) (P : Policy I) (prog : I.Entry → Prog I Unit)

/-- Every entry meets its contract, and what an entry does is covered by what the calls
around it may assume. -/
structure Contract.Met : Prop where
  entry : ∀ e w, C.pre e w →
    wp C P (prog e) (fun _ w' => C.post e w (w'.left e (.ok ())))
      (fun x w' => C.post e w (w'.left e (.error x))) w
  refl : ∀ c w, C.before c w → C.after c w w
  enter : ∀ c w₀ w e, C.before c w₀ → World.During w₀ w → C.after c w₀ w → P.enter w e →
    C.pre e (w.entered e)
  stay : ∀ c w₀ w e w', C.before c w₀ → World.During w₀ w → C.after c w₀ w → P.enter w e →
    C.post e (w.entered e) w' → World.During w w' → C.after c w₀ w'
  outside : ∀ w e w', C.outside w → C.post e (w.entered e) w' → World.During w w' → C.outside w'

variable {C P prog}

section Advance
variable (C P) (Q : α → World I → Prop) (E : I.Exception → World I → Prop)

/-- What the answer to a call has to satisfy. -/
def Answered (c : I.Call) (resume : I.Answer c → Prog I α) (w₀ : World I) : Prop :=
  ∀ w result, World.During w₀ w → C.after c w₀ w → P.back w c result →
    match result with
    | .ok a => wp C P (resume a) Q E (w.returned c result)
    | .error x => E x (w.returned c result)

/-- The state of affairs where a program that began in `first` has stopped. -/
def Advanced (first : World I) : Result I α × World I → Prop
  | (.done a, w) => Q a w ∧ World.Later first w
  | (.raised x, w) => E x w ∧ World.Later first w
  | (.aborted f, w) => C.abort f w
  | (.paused c resume, w₀) =>
      C.before c w₀ ∧ (∃ w, w₀ = w.calling c ∧ World.Later first w) ∧
        Answered C P Q E c resume w₀

end Advance

theorem advanced_of_wp {Q : α → World I → Prop} {E : I.Exception → World I → Prop}
    {p : Prog I α} {first w : World I} (hlater : World.Later first w) (h : wp C P p Q E w) :
    Advanced C P Q E first (advance p w) := by
  induction p generalizing w with
  | ret a => exact ⟨h, hlater⟩
  | raise x => exact ⟨h, hlater⟩
  | abort f => exact h
  | get next ih => exact ih w.state hlater h
  | set s next ih => exact ih ⟨hlater.balanced, hlater.stack⟩ h
  | note n next ih => exact ih (hlater.noted n) h
  | call c next ih => exact ⟨h.1, ⟨w, rfl, hlater⟩, h.2⟩

variable (C P) in
/-- A suspended entry that was entered in `outer`, where its innermost call has come to `w`. -/
structure Waiting (f : Suspended I) (outer w : World I) : Prop where
  exists_call : ∃ w₁, World.Later (outer.entered f.entry) w₁ ∧ C.before f.call (w₁.calling f.call) ∧
    Answered C P (fun _ w' => C.post f.entry (outer.entered f.entry) (w'.left f.entry (.ok ())))
      (fun x w' => C.post f.entry (outer.entered f.entry) (w'.left f.entry (.error x)))
      f.call f.resume (w₁.calling f.call) ∧
    World.During (w₁.calling f.call) w ∧ C.after f.call (w₁.calling f.call) w

variable (C P) in
/-- The suspended entries, each with the world it began in. -/
inductive Stacked : List (Suspended I) → World I → Prop where
  | nil (w : World I) (houtside : C.outside w) : Stacked [] w
  | cons (f : Suspended I) (frames : List (Suspended I)) (outer w : World I)
      (hframes : Stacked frames outer) (hpermits : frames ≠ [] → P.enter outer f.entry)
      (hwaiting : Waiting C P f outer w) : Stacked (f :: frames) w

variable (C P) in
/-- A configuration in which the contract has been kept so far. -/
def Kept (cfg : Config I) : Prop :=
  match cfg.fault with
  | some f => C.abort f cfg.world
  | none => Stacked C P cfg.frames cfg.world

theorem World.Later.left {w w' : World I} {e : I.Entry} (h : Later (w.entered e) w')
    (result : Except I.Exception Unit) : During w (w'.left e result) := by
  obtain ⟨t, hbalanced, ht⟩ := h.balanced
  refine ⟨⟨_, .entry e result t [] hbalanced .nil, ?_⟩, ?_, fun hidle => ?_⟩
  · change .leave e result :: w'.trace = _
    rw [ht, List.cons_append, List.append_assoc]
    rfl
  · change w'.stack.tail = w.stack
    rw [h.stack]
    rfl
  · have hlength := congrArg List.length hidle
    change (.leave e result :: w'.trace).length = _ at hlength
    rw [ht] at hlength
    simp [World.entered] at hlength
    omega

theorem World.Later.returned {first w₁ w : World I} {c : I.Call} (hfirst : Later first w₁)
    (h : During (w₁.calling c) w) (result : Except I.Exception (I.Answer c)) :
    Later first (w.returned c result) := by
  apply hfirst.trans
  obtain ⟨t, hbalanced, ht⟩ := h.later.balanced
  refine ⟨⟨_, .call c result t [] hbalanced .nil, ?_⟩, ?_⟩
  · change .back c result :: w.trace = _
    rw [ht, List.cons_append, List.append_assoc]
    rfl
  · change w.stack.tail = w₁.stack
    rw [h.stack]
    rfl

/-- An entry that has ended is covered by the call around it. -/
theorem Waiting.stay (hmet : C.Met P prog) {f : Suspended I} {outer w w' : World I} {e : I.Entry}
    (h : Waiting C P f outer w) (hpermit : P.enter w e) (hpost : C.post e (w.entered e) w')
    (hlater : World.During w w') : Waiting C P f outer w' := by
  obtain ⟨w₁, hfirst, hbefore, hanswered, hlater₁, hafter⟩ := h.exists_call
  exact ⟨w₁, hfirst, hbefore, hanswered, hlater₁.trans hlater,
    hmet.stay f.call _ w e w' hbefore hlater₁ hafter hpermit hpost hlater⟩

variable (C P) in
/-- An entry on top of some frames has failed, has ended or is suspended. -/
def Settled (frames : List (Suspended I)) (outer : World I) (e : I.Entry) (cfg : Config I) : Prop :=
  match cfg.fault with
  | some f => C.abort f cfg.world
  | none => (cfg.frames = frames ∧ C.post e (outer.entered e) cfg.world ∧
      World.During outer cfg.world) ∨
    ∃ f, cfg.frames = f :: frames ∧ f.entry = e ∧ Waiting C P f outer cfg.world

theorem settled_settle (hmet : C.Met P prog) {frames : List (Suspended I)} {outer : World I}
    {e : I.Entry} {r : Result I Unit × World I}
    (hadvanced : Advanced C P (fun _ w' => C.post e (outer.entered e) (w'.left e (.ok ())))
      (fun x w' => C.post e (outer.entered e) (w'.left e (.error x))) (outer.entered e) r) :
    Settled C P frames outer e (settle e frames r) := by
  obtain ⟨result, w⟩ := r
  cases result with
  | done a => exact .inl ⟨rfl, hadvanced.1, hadvanced.2.left _⟩
  | raised x => exact .inl ⟨rfl, hadvanced.1, hadvanced.2.left _⟩
  | aborted f => exact hadvanced
  | paused c resume =>
      obtain ⟨hbefore, ⟨w₁, rfl, hfirst⟩, hanswered⟩ := hadvanced
      exact .inr ⟨⟨e, c, resume⟩, rfl, rfl,
        ⟨w₁, hfirst, hbefore, hanswered, .refl _, hmet.refl c _ hbefore⟩⟩

theorem settled_enter (hmet : C.Met P prog) {frames : List (Suspended I)} {outer : World I}
    {e : I.Entry} (hpre : C.pre e (outer.entered e)) :
    Settled C P frames outer e (settle e frames (advance (prog e) (outer.entered e))) :=
  settled_settle hmet (advanced_of_wp (.refl _) (hmet.entry e _ hpre))

/-- A suspended entry may be entered again. -/
theorem Waiting.enter (hmet : C.Met P prog) {f : Suspended I} {frames : List (Suspended I)}
    {outer w : World I} {e : I.Entry} (h : Waiting C P f outer w) (hpermit : P.enter w e) :
    Settled C P frames w e (settle e frames (advance (prog e) (w.entered e))) := by
  obtain ⟨w₁, -, hbefore, -, hlater, hafter⟩ := h.exists_call
  exact settled_enter hmet (hmet.enter f.call _ w e hbefore hlater hafter hpermit)

/-- A suspended entry goes on when its call is answered. -/
theorem Waiting.back (hmet : C.Met P prog) {f : Suspended I} {frames : List (Suspended I)}
    {outer w : World I} {result : Except I.Exception (I.Answer f.call)}
    (h : Waiting C P f outer w) (hpermit : P.back w f.call result) :
    Settled C P frames outer f.entry (settle f.entry frames (resumeWith f w result)) := by
  obtain ⟨w₁, hfirst, -, hanswered, hlater, hafter⟩ := h.exists_call
  have hnext := hanswered w result hlater hafter hpermit
  have hfirst' := hfirst.returned hlater result
  apply settled_settle hmet
  unfold resumeWith
  cases result with
  | ok a => exact advanced_of_wp hfirst' hnext
  | error x => exact ⟨hnext, hfirst'⟩

theorem Settled.kept (hmet : C.Met P prog) {frames : List (Suspended I)} {outer : World I}
    {e : I.Entry} {cfg : Config I} (h : Settled C P frames outer e cfg)
    (hframes : Stacked C P frames outer) (hpermits : frames ≠ [] → P.enter outer e) :
    Kept C P cfg := by
  obtain ⟨w, frames', fault⟩ := cfg
  cases fault with
  | some f => exact h
  | none =>
      obtain ⟨rfl, hpost, hlater⟩ | ⟨f, rfl, rfl, hwaiting⟩ := h
      · cases hframes with
        | nil _ houtside => exact .nil w (hmet.outside _ e w houtside hpost hlater)
        | cons f frames outer' _ hframes hpermits' hwaiting =>
            exact .cons f frames outer' w hframes hpermits'
              (hwaiting.stay hmet (hpermits (List.cons_ne_nil _ _)) hpost hlater)
      · exact .cons f frames outer w hframes hpermits hwaiting

theorem kept_start (hmet : C.Met P prog) {main : I.Entry} {s : I.State}
    (houtside : C.outside { state := s })
    (hmain : C.pre main (World.entered { state := s } main)) :
    Kept C P (start prog main s) :=
  (settled_enter hmet hmain).kept hmet (.nil _ houtside) fun h => (h rfl).elim

/-- One move keeps the contract. -/
theorem kept_next (hmet : C.Met P prog) {cfg : Config I} {move : Move I} (hkept : Kept C P cfg)
    (hmove : P.Permits cfg move) : Kept C P (next prog cfg move) := by
  obtain ⟨w, frames, fault⟩ := cfg
  cases fault with
  | some f => exact hkept
  | none =>
      cases hkept with
      | nil w houtside => exact .nil w houtside
      | cons f frames outer w hframes hpermits hwaiting =>
          cases move with
          | enter e =>
              exact (hwaiting.enter hmet hmove).kept hmet
                (.cons f frames outer w hframes hpermits hwaiting) fun _ => hmove
          | back answer => exact (hwaiting.back hmet hmove).kept hmet hframes hpermits

/-- A contract that is met holds along every permitted run. -/
theorem Contract.Met.kept (hmet : C.Met P prog) {main : I.Entry} {s : I.State}
    (houtside : C.outside { state := s })
    (hmain : C.pre main (World.entered { state := s } main)) {cfg : Config I}
    (hreach : Reachable P prog main s cfg) : Kept C P cfg := by
  induction hreach with
  | start => exact kept_start hmet houtside hmain
  | next cfg move _ hmove ih => exact kept_next hmet ih hmove

/-- What has happened since a configuration -/
def Config.since (cfg now : Config I) : List (Item I) :=
  now.world.trace.take (now.world.trace.length - cfg.world.trace.length)

theorem Config.since_eq {cfg now : Config I} {t : List (Item I)}
    (h : now.world.trace = t ++ cfg.world.trace) : cfg.since now = t := by
  unfold since
  rw [h, List.length_append, Nat.add_sub_cancel, List.take_left]

section Activity
variable (P prog)

/-- What an entry leads to from the moment it is entered until it ends. -/
inductive Activity (cfg : Config I) (e : I.Entry) : Config I → Prop where
  | enter (hrunning : cfg.fault = none) (hframes : cfg.frames ≠ [])
      (hmove : P.Permits cfg (.enter e)) : Activity cfg e (next prog cfg (.enter e))
  | move (now : Config I) (move : Move I) (hactivity : Activity cfg e now)
      (hactive : now.frames.length ≠ cfg.frames.length) (hmove : P.Permits now move) :
      Activity cfg e (next prog now move)

/-- Every move is permitted where it is made, and the activity goes on until the last one. -/
def ActiveFrom (cfg : Config I) : Config I → List (Move I) → Prop
  | _, [] => True
  | now, move :: moves => now.frames.length ≠ cfg.frames.length ∧ P.Permits now move ∧
      ActiveFrom cfg (next prog now move) moves

instance decidableActiveFrom [∀ w e, Decidable (P.enter w e)] [∀ w c r, Decidable (P.back w c r)]
    (cfg now : Config I) : (moves : List (Move I)) → Decidable (ActiveFrom P prog cfg now moves)
  | [] => .isTrue trivial
  | move :: moves =>
      have := decidableActiveFrom cfg (next prog now move) moves
      inferInstanceAs (Decidable (_ ∧ _ ∧ _))

theorem Activity.moves {cfg now : Config I} {e : I.Entry} {moves : List (Move I)}
    (h : Activity P prog cfg e now) (hactive : ActiveFrom P prog cfg now moves) :
    Activity P prog cfg e (moves.foldl (next prog) now) := by
  induction moves generalizing now with
  | nil => exact h
  | cons move moves ih => exact ih (.move now move h hactive.1 hactive.2.1) hactive.2.2

/-- An activity that began in one configuration is over in another. -/
structure Config.Ended (cfg now : Config I) : Prop where
  running : now.fault = none
  length : now.frames.length = cfg.frames.length

variable {P prog}

theorem Activity.reachable {main : I.Entry} {s : I.State} {cfg now : Config I} {e : I.Entry}
    (h : Activity P prog cfg e now) (hreach : Reachable P prog main s cfg) :
    Reachable P prog main s now := by
  induction h with
  | enter _ _ hmove => exact .next _ _ hreach hmove
  | move now move _ _ hmove ih => exact .next _ _ ih hmove

variable (C P) in
/-- The frames of an activity: those below it, its own, and those of what was entered
during its calls. -/
inductive Above (cfg : Config I) (e : I.Entry) : List (Suspended I) → World I → Prop where
  | ended (w : World I) (hpost : C.post e (cfg.world.entered e) w)
      (hlater : World.During cfg.world w) : Above cfg e cfg.frames w
  | first (f : Suspended I) (w : World I) (hentry : f.entry = e)
      (hwaiting : Waiting C P f cfg.world w) : Above cfg e (f :: cfg.frames) w
  | cons (f : Suspended I) (frames : List (Suspended I)) (outer w : World I)
      (hframes : Above cfg e frames outer) (hactive : cfg.frames.length < frames.length)
      (hpermits : P.enter outer f.entry) (hwaiting : Waiting C P f outer w) :
      Above cfg e (f :: frames) w

variable (C P) in
def Within (cfg : Config I) (e : I.Entry) (now : Config I) : Prop :=
  match now.fault with
  | some f => C.abort f now.world
  | none => Above C P cfg e now.frames now.world

theorem Settled.within_first {cfg now : Config I} {e : I.Entry}
    (h : Settled C P cfg.frames cfg.world e now) : Within C P cfg e now := by
  obtain ⟨w, frames, fault⟩ := now
  cases fault with
  | some f => exact h
  | none =>
      obtain ⟨rfl, hpost, hlater⟩ | ⟨f, rfl, hentry, hwaiting⟩ := h
      · exact .ended w hpost hlater
      · exact .first f w hentry hwaiting

theorem Settled.within (hmet : C.Met P prog) {cfg now : Config I} {e e' : I.Entry}
    {frames : List (Suspended I)} {outer : World I} (h : Settled C P frames outer e' now)
    (hframes : Above C P cfg e frames outer) (hactive : cfg.frames.length < frames.length)
    (hpermit : P.enter outer e') : Within C P cfg e now := by
  obtain ⟨w, frames', fault⟩ := now
  cases fault with
  | some f => exact h
  | none =>
      obtain ⟨rfl, hpost, hlater⟩ | ⟨f, rfl, rfl, hwaiting⟩ := h
      · cases hframes with
        | ended _ _ _ => exact absurd hactive (Nat.lt_irrefl _)
        | first f _ hentry hwaiting =>
            exact .first f w hentry (hwaiting.stay hmet hpermit hpost hlater)
        | cons f frames outer' _ hframes hactive' hpermits' hwaiting =>
            exact .cons f frames outer' w hframes hactive' hpermits'
              (hwaiting.stay hmet hpermit hpost hlater)
      · exact .cons f frames outer w hframes hactive hpermit hwaiting

/-- One move of an activity that has not ended -/
theorem within_next (hmet : C.Met P prog) {cfg now : Config I} {e : I.Entry} {move : Move I}
    (h : Within C P cfg e now) (hactive : now.frames.length ≠ cfg.frames.length)
    (hmove : P.Permits now move) : Within C P cfg e (next prog now move) := by
  obtain ⟨w, frames, fault⟩ := now
  cases fault with
  | some f => exact h
  | none =>
      cases h with
      | ended _ _ _ => exact absurd rfl hactive
      | first f _ hentry hwaiting =>
          cases move with
          | enter e' =>
              exact (hwaiting.enter hmet hmove).within hmet (.first f w hentry hwaiting)
                (Nat.lt_succ_self _) hmove
          | back answer =>
              subst hentry
              exact (hwaiting.back hmet hmove).within_first
      | cons f frames outer _ hframes hactive' hpermits hwaiting =>
          cases move with
          | enter e' =>
              exact (hwaiting.enter hmet hmove).within hmet
                (.cons f frames outer w hframes hactive' hpermits hwaiting)
                (Nat.lt_succ_of_lt hactive') hmove
          | back answer => exact (hwaiting.back hmet hmove).within hmet hframes hactive' hpermits

/-- An activity keeps the contract of its entry, at any moment. -/
theorem Contract.Met.within (hmet : C.Met P prog) {cfg now : Config I} {e : I.Entry}
    (hkept : Kept C P cfg) (h : Activity P prog cfg e now) : Within C P cfg e now := by
  induction h with
  | enter hrunning hframes hmove =>
      obtain ⟨w, frames, fault⟩ := cfg
      cases hrunning
      cases hkept with
      | nil _ _ => exact absurd rfl hframes
      | cons f frames outer w _ _ hwaiting => exact (hwaiting.enter hmet hmove).within_first
  | move now move _ hactive hmove ih => exact within_next hmet ih hactive hmove

/-- An activity that has ended satisfies what its entry promises. -/
theorem Contract.Met.post_of_ended (hmet : C.Met P prog) {cfg now : Config I} {e : I.Entry}
    (hkept : Kept C P cfg) (h : Activity P prog cfg e now) (hended : cfg.Ended now) :
    now.frames = cfg.frames ∧ C.post e (cfg.world.entered e) now.world ∧
      World.During cfg.world now.world := by
  have hwithin := hmet.within hkept h
  obtain ⟨w, frames, fault⟩ := now
  obtain ⟨hrunning, hlength⟩ := hended
  cases hrunning
  cases hwithin with
  | ended _ hpost hlater => exact ⟨rfl, hpost, hlater⟩
  | first f _ _ _ => exact absurd hlength (Nat.succ_ne_self _)
  | cons f frames _ _ _ hactive _ _ => exact absurd hlength (Nat.ne_of_gt (Nat.lt_succ_of_lt hactive))

end Activity

end Contract
end Reentrant
