import Deepstream.Reentrant.Machine

/-!
Invariants of a component under a regime of calls.

During a quiet call the environment keeps to the background, so the component
may make one while its invariant is broken. A regime says what holds at calls
of either kind, and how worlds are related across them; an invariant that every
entry keeps holds on all permitted runs.
-/

namespace Reentrant

variable {I : Interface} {α β : Type}

/-- `inv quiet` holds when a call is made and during it, `rel quiet` relates the world at
the call to the world during it; `pre` is what an entry may assume beyond them. -/
structure Regime (I : Interface) where
  quiet : I.Call → Bool
  inv : Bool → World I → Prop
  rel : Bool → World I → World I → Prop
  pre : I.Entry → World I → Prop
  abort : I.Fault → World I → Prop

namespace Regime

variable (R : Regime I) (P : Policy I) (prog : I.Entry → Prog I Unit)

/-- Whether the entry that has just begun was entered during a quiet call. -/
def background (w : World I) : Bool :=
  match w.stack with
  | _ :: .inr c :: _ => R.quiet c
  | _ => false

def contract : Contract I where
  outside w := w.stack = [] ∧ w.Paused ∧ R.inv false w
  before c w := R.inv (R.quiet c) w ∧ ∃ w', w = World.calling w' c
  after c w₀ w := R.inv (R.quiet c) w ∧ R.rel (R.quiet c) w₀ w
  pre e w := R.inv (R.background w) w ∧ R.pre e w
  post _ w w' := R.inv (R.background w) w' ∧ R.rel (R.background w) w w'
  abort := R.abort

/-- The relations are preorders, permitted entries keep the invariant when they begin, and
their programs keep it when they end. -/
structure Sound : Prop where
  refl : ∀ quiet w, R.rel quiet w w
  trans : ∀ quiet w w' w'', R.rel quiet w w' → R.rel quiet w' w'' → R.rel quiet w w''
  enter : ∀ w c e, w.InCall c → R.inv (R.quiet c) w → P.enter w e →
    R.inv (R.quiet c) (w.entered e) ∧ R.rel (R.quiet c) w (w.entered e) ∧ R.pre e (w.entered e)
  entry : ∀ e w, R.inv (R.background w) w → R.pre e w →
    wp R.contract P (prog e)
      (fun _ w' => R.inv (R.background w) (w'.left e (.ok ())) ∧
        R.rel (R.background w) w (w'.left e (.ok ())))
      (fun x w' => R.inv (R.background w) (w'.left e (.error x)) ∧
        R.rel (R.background w) w (w'.left e (.error x))) w

variable {R P prog}

theorem background_entered {w : World I} {c : I.Call} {rest : List (I.Entry ⊕ I.Call)}
    (h : w.stack = .inr c :: rest) (e : I.Entry) : R.background (w.entered e) = R.quiet c := by
  unfold background World.entered
  rw [h]

theorem Sound.met (h : R.Sound P prog) : R.contract.Met P prog where
  entry e w hpre := h.entry e w hpre.1 hpre.2
  refl c w hbefore := ⟨hbefore.1, h.refl _ w⟩
  enter c w₀ w e hbefore hlater hafter hpermit := by
    obtain ⟨w', rfl⟩ := hbefore.2
    have hcall := hlater.inCall
    obtain ⟨hinv, -, hpre⟩ := h.enter w c e hcall hafter.1 hpermit
    obtain ⟨rest, hstack⟩ := hcall.stack
    exact ⟨by rwa [background_entered hstack], hpre⟩
  stay c w₀ w e w' hbefore hlater hafter hpermit hpost _ := by
    obtain ⟨w', rfl⟩ := hbefore.2
    have hcall := hlater.inCall
    obtain ⟨-, hrel, -⟩ := h.enter w c e hcall hafter.1 hpermit
    obtain ⟨rest, hstack⟩ := hcall.stack
    change R.inv (R.background (w.entered e)) _ ∧ R.rel (R.background (w.entered e)) _ _ at hpost
    rw [background_entered hstack] at hpost
    exact ⟨hpost.1, h.trans _ _ _ _ (h.trans _ _ _ _ hafter.2 hrel) hpost.2⟩
  outside w e w' houtside hpost hlater := by
    refine ⟨hlater.stack.trans houtside.1, hlater.later.paused houtside.2.1, ?_⟩
    have hback : R.background (w.entered e) = false := by
      unfold background World.entered
      rw [houtside.1]
    rw [← hback]
    exact hpost.1

/-- The invariant at a configuration of a run, at the level of the innermost call. -/
def Holds (R : Regime I) (cfg : Config I) : Prop :=
  match cfg.fault with
  | some f => R.abort f cfg.world
  | none =>
      cfg.world.Paused ∧ ((cfg.world.stack = [] ∧ R.inv false cfg.world) ∨
        ∃ c rest, cfg.world.stack = .inr c :: rest ∧ R.inv (R.quiet c) cfg.world)

/-- A sound regime holds on every permitted run. -/
theorem Sound.holds (h : R.Sound P prog) {main : I.Entry} {s : I.State}
    (hstart : R.inv false { state := s })
    (hmain : R.inv false (World.entered { state := s } main) ∧
      R.pre main (World.entered { state := s } main))
    {cfg : Config I} (hreach : Reachable P prog main s cfg) : R.Holds cfg := by
  have hkept := h.met.kept ⟨rfl, nofun, hstart⟩ hmain hreach
  obtain ⟨w, frames, fault⟩ := cfg
  cases fault with
  | some f => exact hkept
  | none =>
      cases hkept with
      | nil w houtside => exact ⟨houtside.2.1, .inl ⟨houtside.1, houtside.2.2⟩⟩
      | cons f frames outer w hframes hpermits hwaiting =>
          obtain ⟨w₁, -, -, -, hlater, hafter⟩ := hwaiting.exists_call
          exact ⟨hlater.inCall.paused, .inr ⟨f.call, _, hlater.stack, hafter.1⟩⟩

/-- A sound regime covers every activity from its beginning to its end. -/
theorem Sound.ended (h : R.Sound P prog) {main : I.Entry} {s : I.State}
    (hstart : R.inv false { state := s })
    (hmain : R.inv false (World.entered { state := s } main) ∧
      R.pre main (World.entered { state := s } main))
    {cfg now : Config I} {e : I.Entry} (hreach : Reachable P prog main s cfg)
    (hactivity : Activity P prog cfg e now) (hended : cfg.Ended now) :
    R.inv (R.background (cfg.world.entered e)) now.world ∧
      R.rel (R.background (cfg.world.entered e)) (cfg.world.entered e) now.world :=
  (h.met.post_of_ended (h.met.kept ⟨rfl, nofun, hstart⟩ hmain hreach) hactivity hended).2.1

end Regime

/-- A program keeps an invariant, however it ends. -/
def Keeps (C : Contract I) (P : Policy I) (Inv : World I → Prop) (p : Prog I α) : Prop :=
  ∀ w, Inv w → wp C P p (fun _ w' => Inv w') (fun _ w' => Inv w') w

section Keeps
variable {C : Contract I} {P : Policy I} {Inv : World I → Prop}

theorem keeps_pure (a : α) : Keeps C P Inv (pure a) :=
  fun _ h => h

theorem keeps_raise (x : I.Exception) : Keeps C P Inv (.raise x : Prog I α) :=
  fun _ h => h

theorem keeps_abort (f : I.Fault) (h : ∀ w, Inv w → C.abort f w) :
    Keeps C P Inv (.abort f : Prog I α) :=
  h

theorem keeps_bind {p : Prog I α} {next : α → Prog I β} (hp : Keeps C P Inv p)
    (hnext : ∀ a, Keeps C P Inv (next a)) : Keeps C P Inv (p >>= next) := by
  intro w hw
  rw [wp_bind]
  exact wp_mono (hp w hw) (fun a w' h => hnext a w' h) fun x w' h => h

theorem keeps_read_bind {next : I.State → Prog I β} (h : ∀ s, Keeps C P Inv (next s)) :
    Keeps C P Inv (Prog.read >>= next) :=
  keeps_bind (fun _ hw => hw) h

theorem keeps_modify {f : I.State → I.State}
    (h : ∀ w, Inv w → Inv { w with state := f w.state }) : Keeps C P Inv (Prog.modify f) :=
  h

theorem keeps_leave {n : I.Note} (h : ∀ w, Inv w → Inv (w.noted n)) :
    Keeps C P Inv (Prog.leave n) :=
  h

theorem keeps_ask {c : I.Call} (hbefore : ∀ w, Inv w → C.before c (w.calling c))
    (hafter : ∀ w w' r, Inv w → World.During (w.calling c) w' → C.after c (w.calling c) w' →
      P.back w' c r → Inv (w'.returned c r)) : Keeps C P Inv (Prog.ask c) := by
  intro w hw
  apply wp_ask c _ _ w (hbefore w hw)
  intro w' hlater h
  exact ⟨fun a => hafter w w' (.ok a) hw hlater h, fun x => hafter w w' (.error x) hw hlater h⟩

theorem keeps_when {cond : Prop} [Decidable cond] {p : Prog I Unit}
    (h : cond → Keeps C P Inv p) : Keeps C P Inv (Prog.when cond p) := by
  unfold Prog.when
  split
  · exact h ‹_›
  · exact keeps_pure ()

theorem keeps_forEach {xs : List β} {p : β → Prog I Unit}
    (h : ∀ x ∈ xs, Keeps C P Inv (p x)) : Keeps C P Inv (Prog.forEach xs p) := by
  induction xs with
  | nil => exact keeps_pure ()
  | cons x xs ih =>
      apply keeps_bind
      · exact h x (List.mem_cons_self ..)
      · intro _
        apply ih
        intro y hy
        exact h y (List.mem_cons_of_mem _ hy)

end Keeps
end Reentrant
