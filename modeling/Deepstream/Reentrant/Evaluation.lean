import Deepstream.Reentrant.Regime

/-!
Sequences of operations on a component in an environment that is a function.

A conduct says what the environment does during a call and what it answers, so
a program has one outcome. Whatever a weakest precondition promises of a program
is true of its outcome under a conduct that keeps to the contract.
-/

namespace Reentrant

variable {I : Interface} {α β ι σ : Type}

/-- What the environment does during a call: the world it leaves and its answer. -/
abbrev Conduct (I : Interface) := World I → (c : I.Call) → World I × Except I.Exception (I.Answer c)

/-- The environment only answers. -/
def Conduct.quiet (answer : World I → (c : I.Call) → Except I.Exception (I.Answer c)) : Conduct I :=
  fun w c => (w, answer w c)

inductive Outcome (I : Interface) (α : Type) where
  | done (a : α)
  | raised (x : I.Exception)
  | aborted (f : I.Fault)

/-- Run a program to its end. -/
def evaluate (conduct : Conduct I) : Prog I α → World I → Outcome I α × World I
  | .ret a, w => (.done a, w)
  | .raise x, w => (.raised x, w)
  | .abort f, w => (.aborted f, w)
  | .get next, w => evaluate conduct (next w.state) w
  | .set s next, w => evaluate conduct next { w with state := s }
  | .note n next, w => evaluate conduct next (w.noted n)
  | .call c next, w =>
      match conduct (w.calling c) c with
      | (w', .ok a) => evaluate conduct (next a) (w'.returned c (.ok a))
      | (w', .error x) => (.raised x, w'.returned c (.error x))

theorem evaluate_call_ok {conduct : Conduct I} {c : I.Call} {next : I.Answer c → Prog I α}
    {w w₁ : World I} {a : I.Answer c} (h : conduct (w.calling c) c = (w₁, .ok a)) :
    evaluate conduct (.call c next) w = evaluate conduct (next a) (w₁.returned c (.ok a)) := by
  rw [evaluate, h]

theorem evaluate_call_error {conduct : Conduct I} {c : I.Call} {next : I.Answer c → Prog I α}
    {w w₁ : World I} {x : I.Exception} (h : conduct (w.calling c) c = (w₁, .error x)) :
    evaluate conduct (.call c next) w = (.raised x, w₁.returned c (.error x)) := by
  rw [evaluate, h]

/-- Run a program on what another one has returned. -/
def proceed (conduct : Conduct I) (f : α → Prog I β) :
    Outcome I α × World I → Outcome I β × World I
  | (.done a, w) => evaluate conduct (f a) w
  | (.raised x, w) => (.raised x, w)
  | (.aborted e, w) => (.aborted e, w)

theorem evaluate_bind (conduct : Conduct I) (p : Prog I α) (f : α → Prog I β) (w : World I) :
    evaluate conduct (p >>= f) w = proceed conduct f (evaluate conduct p w) := by
  change evaluate conduct (p.bind f) w = _
  induction p generalizing w with
  | ret a => rfl
  | raise x => rfl
  | abort e => rfl
  | get next ih => exact ih w.state w
  | set s next ih => exact ih _
  | note n next ih => exact ih _
  | call c next ih =>
      change evaluate conduct (.call c fun a => (next a).bind f) w = _
      rcases hconduct : conduct (w.calling c) c with ⟨w₁, result⟩
      cases result with
      | ok a =>
          rw [evaluate_call_ok hconduct, evaluate_call_ok hconduct]
          exact ih a _
      | error x =>
          rw [evaluate_call_error hconduct, evaluate_call_error hconduct]
          rfl

/-- A sequence of two programs returns what the second one returns. -/
theorem exists_of_evaluate_bind {conduct : Conduct I} {p : Prog I α} {f : α → Prog I β}
    {w w' : World I} {b : β} (h : evaluate conduct (p >>= f) w = (.done b, w')) :
    ∃ a w₁, evaluate conduct p w = (.done a, w₁) ∧ evaluate conduct (f a) w₁ = (.done b, w') := by
  rw [evaluate_bind] at h
  rcases hp : evaluate conduct p w with ⟨outcome, w₁⟩
  rw [hp] at h
  cases outcome with
  | done a => exact ⟨a, w₁, rfl, h⟩
  | raised x => cases h
  | aborted e => cases h

/-- What holds of an outcome -/
def Ends (Q : α → World I → Prop) (E : I.Exception → World I → Prop) (F : I.Fault → World I → Prop) :
    Outcome I α × World I → Prop
  | (.done a, w) => Q a w
  | (.raised x, w) => E x w
  | (.aborted f, w) => F f w

/-- The environment keeps to a contract and a policy. -/
def Conduct.Obeys (conduct : Conduct I) (C : Contract I) (P : Policy I) : Prop :=
  ∀ c (w : World I), C.before c (w.calling c) →
    World.During (w.calling c) (conduct (w.calling c) c).1 ∧
      C.after c (w.calling c) (conduct (w.calling c) c).1 ∧
      P.back (conduct (w.calling c) c).1 c (conduct (w.calling c) c).2

theorem ends_of_wp {conduct : Conduct I} {C : Contract I} {P : Policy I}
    (hobeys : conduct.Obeys C P) {p : Prog I α} {Q : α → World I → Prop}
    {E : I.Exception → World I → Prop} {w : World I} (h : wp C P p Q E w) :
    Ends Q E C.abort (evaluate conduct p w) := by
  induction p generalizing w with
  | ret a => exact h
  | raise x => exact h
  | abort f => exact h
  | get next ih => exact ih w.state h
  | set s next ih => exact ih h
  | note n next ih => exact ih h
  | call c next ih =>
      obtain ⟨hduring, hafter, hback⟩ := hobeys c w h.1
      have hnext := h.2 _ _ hduring hafter hback
      unfold evaluate
      generalize conduct (w.calling c) c = r at hnext ⊢
      obtain ⟨w', result⟩ := r
      cases result with
      | ok a => exact ih a hnext
      | error x => exact hnext

section Quiet
variable (answer : World I → (c : I.Call) → Except I.Exception (I.Answer c))

/-- Nothing happens during a call. -/
def undisturbed (fault : I.Fault → Prop) : Contract I where
  outside _ := True
  before _ _ := True
  after _ w₀ w := w = w₀
  pre _ _ := True
  post _ _ _ := True
  abort f _ := fault f

def answering : Policy I where
  enter _ _ := False
  back w c result := result = answer w c

theorem quiet_obeys (fault : I.Fault → Prop) :
    (Conduct.quiet answer).Obeys (undisturbed fault) (answering answer) :=
  fun _ _ _ => ⟨.refl _, rfl, rfl⟩

variable {answer}

theorem wp_ask_answering {fault : I.Fault → Prop} {c : I.Call} {Q : I.Answer c → World I → Prop}
    {E : I.Exception → World I → Prop} {w : World I}
    (hok : ∀ a, answer (w.calling c) c = .ok a → Q a ((w.calling c).returned c (.ok a)))
    (herror : ∀ x, answer (w.calling c) c = .error x → E x ((w.calling c).returned c (.error x))) :
    wp (undisturbed fault) (answering answer) (Prog.ask c) Q E w := by
  apply wp_ask _ _ _ _ trivial
  intro w' _ hafter
  cases hafter
  exact ⟨fun a hback => hok a hback.symm, fun x hback => herror x hback.symm⟩

theorem wp_ask_answered {fault : I.Fault → Prop} {c : I.Call} {Q : I.Answer c → World I → Prop}
    {E : I.Exception → World I → Prop} {w : World I} {a : I.Answer c}
    (h : answer (w.calling c) c = .ok a) :
    wp (undisturbed fault) (answering answer) (Prog.ask c) Q E w ↔
      Q a ((w.calling c).returned c (.ok a)) := by
  constructor
  · exact fun hwp => hwp.2 _ (.ok a) (.refl _) rfl h.symm
  · intro hQ
    refine ⟨trivial, fun w' result _ hafter hback => ?_⟩
    cases hafter
    cases (show result = .ok a from hback.trans h)
    exact hQ

end Quiet

section Operations
variable (conduct : Conduct I) (prog : ι → Prog I α)

/-- One operation after the other. An exception ends an operation, a fault ends everything. -/
def performAll : List ι → World I → Except I.Fault (World I)
  | [], w => .ok w
  | op :: ops, w =>
      match evaluate conduct (prog op) w with
      | (.done _, w') => performAll ops w'
      | (.raised _, w') => performAll ops w'
      | (.aborted f, _) => .error f

variable {conduct prog}

theorem performAll_cons_of_ends {Inv : World I → Prop} {F : I.Fault → World I → Prop} {op : ι}
    {w : World I}
    (h : Ends (fun _ => Inv) (fun _ => Inv) F (evaluate conduct (prog op) w)) (ops : List ι) :
    (∃ w', Inv w' ∧ performAll conduct prog (op :: ops) w = performAll conduct prog ops w') ∨
      ∃ f w', F f w' ∧ performAll conduct prog (op :: ops) w = .error f := by
  rw [performAll]
  generalize evaluate conduct (prog op) w = r at h ⊢
  obtain ⟨outcome, w'⟩ := r
  cases outcome with
  | done a => exact .inl ⟨w', h, rfl⟩
  | raised x => exact .inl ⟨w', h, rfl⟩
  | aborted f => exact .inr ⟨f, w', h, rfl⟩

/-- What holds of every operation and those before it holds of the first one and of the rest. -/
theorem forall_split_cons (H : List ι → ι → Prop) (op : ι) (ops : List ι) :
    (∀ older op' newer, op :: ops = older ++ op' :: newer → H older op') ↔
      H [] op ∧ ∀ older op' newer, ops = older ++ op' :: newer → H (op :: older) op' := by
  constructor
  · intro h
    refine ⟨h [] op ops rfl, fun older op' newer hops => ?_⟩
    exact h (op :: older) op' newer (congrArg (List.cons op) hops)
  · rintro ⟨hfirst, hrest⟩ older op' newer hops
    cases older with
    | nil =>
        cases hops
        exact hfirst
    | cons _ older =>
        cases hops
        exact hrest older op' newer rfl

section Simulation
variable {C : Contract I} {P : Policy I} (hobeys : conduct.Obeys C P)
  {step : σ → ι → σ} {R : σ → World I → Prop} {Admits : σ → ι → Prop}
  (hstep : ∀ s w op, R s w → Admits s op →
    wp C P (prog op) (fun _ => R (step s op)) (fun _ => R (step s op)) w)
include hobeys hstep

/-- A specification is simulated operation by operation, as long as it admits them. -/
theorem simulates (ops : List ι) {s : σ} {w w' : World I} (hR : R s w)
    (hadmits : ∀ older op newer, ops = older ++ op :: newer → Admits (older.foldl step s) op)
    (hperform : performAll conduct prog ops w = .ok w') : R (ops.foldl step s) w' := by
  induction ops generalizing s w with
  | nil =>
      cases hperform
      exact hR
  | cons op ops ih =>
      have hends := ends_of_wp hobeys (hstep s w op hR (hadmits [] op ops rfl))
      obtain ⟨w₁, hR₁, heq⟩ | ⟨f, w₁, -, heq⟩ := performAll_cons_of_ends hends ops
      · exact ih hR₁ ((forall_split_cons _ op ops).mp hadmits).2 (heq.symm.trans hperform)
      · rw [heq] at hperform
        cases hperform

omit hstep in
/-- A property that an operation keeps exactly if it is admitted holds in the end exactly if it
held at the start and every operation was admitted. -/
theorem simulates_iff {T : World I → Prop}
    (hkeeps : ∀ s w op, R s w → wp C P (prog op)
      (fun _ w' => R (step s op) w' ∧ (T w' ↔ T w ∧ Admits s op))
      (fun _ w' => R (step s op) w' ∧ (T w' ↔ T w ∧ Admits s op)) w)
    (ops : List ι) {s : σ} {w w' : World I} (hR : R s w)
    (hperform : performAll conduct prog ops w = .ok w') :
    R (ops.foldl step s) w' ∧ (T w' ↔
      T w ∧ ∀ older op newer, ops = older ++ op :: newer → Admits (older.foldl step s) op) := by
  induction ops generalizing s w with
  | nil =>
      cases hperform
      refine ⟨hR, (and_iff_left fun older op newer hops => ?_).symm⟩
      exact absurd hops.symm (List.append_ne_nil_of_right_ne_nil _ (List.cons_ne_nil _ _))
  | cons op ops ih =>
      obtain ⟨w₁, ⟨hR₁, hT₁⟩, heq⟩ | ⟨f, w₁, -, heq⟩ :=
        performAll_cons_of_ends (ends_of_wp hobeys (hkeeps s w op hR)) ops
      · obtain ⟨hR', hT'⟩ := ih hR₁ (heq.symm.trans hperform)
        refine ⟨hR', ?_⟩
        rw [hT', hT₁, and_assoc]
        exact and_congr_right fun _ =>
          (forall_split_cons (fun older op => Admits (older.foldl step s) op) op ops).symm
      · rw [heq] at hperform
        cases hperform

/-- Nothing fails if the contract permits no fault. -/
theorem exists_performAll (habort : ∀ f w, ¬C.abort f w) (ops : List ι) {s : σ} {w : World I}
    (hR : R s w)
    (hadmits : ∀ older op newer, ops = older ++ op :: newer → Admits (older.foldl step s) op) :
    ∃ w', performAll conduct prog ops w = .ok w' := by
  induction ops generalizing s w with
  | nil => exact ⟨w, rfl⟩
  | cons op ops ih =>
      have hends := ends_of_wp hobeys (hstep s w op hR (hadmits [] op ops rfl))
      obtain ⟨w₁, hR₁, heq⟩ | ⟨f, w₁, hf, -⟩ := performAll_cons_of_ends hends ops
      · rw [heq]
        exact ih hR₁ ((forall_split_cons _ op ops).mp hadmits).2
      · exact absurd hf (habort f w₁)

/-- Either every operation is admitted and the specification is simulated, or the first that is
not admitted fails. -/
theorem simulates_or_fails (habort : ∀ f w, ¬C.abort f w) {F : I.Fault → Prop}
    (hfail : ∀ s w op, R s w → ¬Admits s op →
      Ends (fun _ _ => False) (fun _ _ => False) (fun f _ => F f) (evaluate conduct (prog op) w))
    (ops : List ι) {s : σ} {w : World I} (hR : R s w) :
    (∀ older op newer, ops = older ++ op :: newer → Admits (older.foldl step s) op) ∧
        (∃ w', performAll conduct prog ops w = .ok w') ∨
      (∃ older op newer, ops = older ++ op :: newer ∧ ¬Admits (older.foldl step s) op) ∧
        ∃ f, F f ∧ performAll conduct prog ops w = .error f := by
  induction ops generalizing s w with
  | nil =>
      refine .inl ⟨fun older op newer hops => ?_, w, rfl⟩
      exact absurd hops.symm (List.append_ne_nil_of_right_ne_nil _ (List.cons_ne_nil _ _))
  | cons op ops ih =>
      by_cases hadmits : Admits s op
      · obtain ⟨w₁, hR₁, heq⟩ | ⟨f, w₁, hf, -⟩ :=
          performAll_cons_of_ends (ends_of_wp hobeys (hstep s w op hR hadmits)) ops
        · rw [heq]
          obtain ⟨hall, hperform⟩ | ⟨⟨older, op', newer, hops, hnot⟩, hperform⟩ := ih hR₁
          · exact .inl ⟨(forall_split_cons _ op ops).mpr ⟨hadmits, hall⟩, hperform⟩
          · exact .inr ⟨⟨op :: older, op', newer, congrArg (List.cons op) hops, hnot⟩, hperform⟩
        · exact absurd hf (habort f w₁)
      · obtain ⟨w₁, hfalse, -⟩ | ⟨f, w₁, hf, heq⟩ :=
          performAll_cons_of_ends (hfail s w op hR hadmits) ops
        · exact hfalse.elim
        · exact .inr ⟨⟨[], op, ops, rfl, hadmits⟩, f, hf, heq⟩

end Simulation
end Operations
end Reentrant
