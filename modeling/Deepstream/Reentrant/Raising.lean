import Deepstream.Reentrant.Machine

/-!
What a program can raise and how it can fail, whatever it is answered.

`Only` looks at the leaves of a program, so it says nothing about its state. An
exception that leaves a program is one of its own or was passed on from a call,
and a component fails only as its entries can.
-/

namespace Reentrant

variable {I : Interface} {α β : Type}

/-- Every exception that a program raises of its own is in `R`, and every fault in `F`. -/
def Prog.Only (R : I.Exception → Prop) (F : I.Fault → Prop) : Prog I α → Prop
  | .ret _ => True
  | .raise x => R x
  | .abort f => F f
  | .get next => ∀ s, (next s).Only R F
  | .set _ next => next.Only R F
  | .note _ next => next.Only R F
  | .call _ next => ∀ a, (next a).Only R F

section Only
variable {R : I.Exception → Prop} {F : I.Fault → Prop}

theorem only_bind {p : Prog I α} {next : α → Prog I β} (hp : p.Only R F)
    (hnext : ∀ a, (next a).Only R F) : (p >>= next).Only R F := by
  change (p.bind next).Only R F
  induction p with
  | ret a => exact hnext a
  | raise x => exact hp
  | abort f => exact hp
  | get next' ih => exact fun s => ih s (hp s)
  | set s next' ih => exact ih hp
  | note n next' ih => exact ih hp
  | call c next' ih => exact fun a => ih a (hp a)

theorem only_pure (a : α) : (pure a : Prog I α).Only R F :=
  trivial

theorem only_read_bind {next : I.State → Prog I β} (h : ∀ s, (next s).Only R F) :
    (Prog.read >>= next).Only R F :=
  h

theorem only_modify (f : I.State → I.State) : (Prog.modify f : Prog I Unit).Only R F :=
  fun _ => trivial

theorem only_leave (n : I.Note) : (Prog.leave n : Prog I Unit).Only R F :=
  trivial

theorem only_ask (c : I.Call) : (Prog.ask c : Prog I _).Only R F :=
  fun _ => trivial

theorem only_when {cond : Prop} [Decidable cond] {p : Prog I Unit} (h : cond → p.Only R F) :
    (Prog.when cond p).Only R F := by
  unfold Prog.when
  split
  · exact h ‹_›
  · exact only_pure ()

theorem only_forEach {xs : List β} {p : β → Prog I Unit} (h : ∀ x ∈ xs, (p x).Only R F) :
    (Prog.forEach xs p).Only R F := by
  induction xs with
  | nil => exact only_pure ()
  | cons x xs ih =>
      apply only_bind (h x (List.mem_cons_self ..))
      intro _
      exact ih fun y hy => h y (List.mem_cons_of_mem _ hy)

/-- There is no program that this does not hold of. -/
theorem only_true (p : Prog I α) : p.Only (fun _ => True) (fun _ => True) := by
  induction p with
  | ret a => trivial
  | raise x => trivial
  | abort f => trivial
  | get next ih => exact ih
  | set s next ih => exact ih
  | note n next ih => exact ih
  | call c next ih => exact ih

end Only

/-- The last thing that happened is that a call was answered with an exception. -/
def World.PassedOn (w : World I) : Prop :=
  ∃ c x, w.trace.head? = some (.back c (.error x))

section Contract
variable {C : Contract I} {P : Policy I} {R : I.Exception → Prop} {F : I.Fault → Prop}

/-- An exception that leaves a program is one of its own or was passed on. -/
theorem wp_of_only (hbefore : ∀ c w, C.before c w) (habort : ∀ f w, F f → C.abort f w)
    {p : Prog I α} (h : p.Only R F) (w : World I) :
    wp C P p (fun _ _ => True) (fun x w' => R x ∨ w'.PassedOn) w := by
  induction p generalizing w with
  | ret a => trivial
  | raise x => exact .inl h
  | abort f => exact habort f w h
  | get next ih => exact ih w.state (h w.state) w
  | set s next ih => exact ih h _
  | note n next ih => exact ih h _
  | call c next ih =>
      refine ⟨hbefore _ _, fun w' result _ _ _ => ?_⟩
      cases result with
      | ok a => exact ih a (h a) _
      | error x => exact .inr ⟨c, x, rfl⟩

/-- Nothing is promised but how the component can fail. -/
def failing (F : I.Fault → Prop) : Contract I where
  outside _ := True
  before _ _ := True
  after _ _ _ := True
  pre _ _ := True
  post _ _ _ := True
  abort f _ := F f

theorem failing_met {prog : I.Entry → Prog I Unit} (h : ∀ e, (prog e).Only R F) :
    (failing F).Met P prog where
  entry e w _ := wp_mono (wp_of_only (fun _ _ => trivial) (fun _ _ hf => hf) (h e) w)
    (fun _ _ _ => trivial) fun _ _ _ => trivial
  refl _ _ _ := trivial
  enter _ _ _ _ _ _ _ _ := trivial
  stay _ _ _ _ _ _ _ _ _ _ _ := trivial
  outside _ _ _ _ _ _ := trivial

/-- A component fails only as its entries can. -/
theorem fault_of_reachable {prog : I.Entry → Prog I Unit} (h : ∀ e, (prog e).Only R F)
    {main : I.Entry} {s : I.State} {cfg : Config I} (hreach : Reachable P prog main s cfg)
    {f : I.Fault} (hfault : cfg.fault = some f) : F f := by
  have hkept := (failing_met (P := P) h).kept trivial trivial hreach
  unfold Kept at hkept
  rw [hfault] at hkept
  exact hkept

end Contract
end Reentrant
