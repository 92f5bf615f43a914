import Deepstream.Reentrant.Evaluation
import Deepstream.Reentrant.Machine

/-!
Callbacks that call back into the component.

During a call the environment may perform a list of operations, each of which is
an entry of its own. A loop that makes such a call for every element of a list
works on a copy of it: an element may no longer be there when its turn comes.
-/

namespace Reentrant

variable {I : Interface} {α ι κ σ : Type}

/-- The world after a program, whatever its environment does, is later than the one before. -/
theorem later_evaluate {conduct : Conduct I} (hduring : ∀ w c, World.During w (conduct w c).1)
    (p : Prog I α) (w : World I) : World.Later w (evaluate conduct p w).2 := by
  induction p generalizing w with
  | ret a => exact .refl w
  | raise x => exact .refl w
  | abort f => exact .refl w
  | get next ih => exact ih w.state w
  | set s next ih =>
      have hlater := ih { w with state := s }
      exact ⟨hlater.balanced, hlater.stack⟩
  | note n next ih => exact ((World.Later.refl w).noted n).trans (ih (w.noted n))
  | call c next ih =>
      have hcall := (World.Later.refl w).returned (hduring (w.calling c) c)
      unfold evaluate
      generalize conduct (w.calling c) c = r at hcall ⊢
      obtain ⟨w', result⟩ := r
      cases result with
      | ok a => exact (hcall (.ok a)).trans (ih a (w'.returned c (.ok a)))
      | error x => exact hcall (.error x)

theorem later_of_evaluate {conduct : Conduct I} (hduring : ∀ w c, World.During w (conduct w c).1)
    {p : Prog I α} {w w' : World I} {outcome : Outcome I α}
    (h : evaluate conduct p w = (outcome, w')) : World.Later w w' := by
  have hlater := later_evaluate hduring p w
  rwa [h] at hlater

section Entries
variable (conduct : Conduct I) (entry : ι → I.Entry) (prog : ι → Prog I α)

/-- One entry after the other. An exception ends an entry, a fault ends everything. -/
def enterAll : List ι → World I → Except I.Fault (World I)
  | [], w => .ok w
  | op :: ops, w =>
      match evaluate conduct (prog op) (w.entered (entry op)) with
      | (.done _, w') => enterAll ops (w'.left (entry op) (.ok ()))
      | (.raised x, w') => enterAll ops (w'.left (entry op) (.error x))
      | (.aborted f, _) => .error f

variable {conduct entry prog}

theorem during_enterAll (hduring : ∀ w c, World.During w (conduct w c).1) {ops : List ι}
    {w w' : World I} (henter : enterAll conduct entry prog ops w = .ok w') :
    World.During w w' := by
  induction ops generalizing w with
  | nil =>
      cases henter
      exact .refl _
  | cons op ops ih =>
      have hlater := later_evaluate hduring (prog op) (w.entered (entry op))
      unfold enterAll at henter
      generalize evaluate conduct (prog op) (w.entered (entry op)) = r at henter hlater
      obtain ⟨outcome, w₁⟩ := r
      cases outcome with
      | done a => exact (hlater.left (.ok ())).trans (ih henter)
      | raised x => exact (hlater.left (.error x)).trans (ih henter)
      | aborted f => cases henter

section Simulation
variable {C : Contract I} {P : Policy I} (hobeys : conduct.Obeys C P)
  {step : σ → ι → σ} {R : σ → World I → Prop} {Admits : σ → ι → Prop}
  (hstep : ∀ s w op, R s w → Admits s op →
    wp C P (prog op) (fun _ => R (step s op)) (fun _ => R (step s op)) w)
  (hentered : ∀ s w e, R s w → R s (w.entered e)) (hleft : ∀ s w e r, R s w → R s (w.left e r))
include hobeys hstep hentered hleft

/-- Entries that are admitted end, and a specification is simulated. -/
theorem exists_enterAll (habort : ∀ f w, ¬C.abort f w) (ops : List ι) {s : σ} {w : World I}
    (hR : R s w)
    (hadmits : ∀ older op newer, ops = older ++ op :: newer → Admits (older.foldl step s) op) :
    ∃ w', enterAll conduct entry prog ops w = .ok w' ∧ R (ops.foldl step s) w' := by
  induction ops generalizing s w with
  | nil => exact ⟨w, rfl, hR⟩
  | cons op ops ih =>
      have hends := ends_of_wp hobeys
        (hstep s _ op (hentered s w (entry op) hR) (hadmits [] op ops rfl))
      have hrest : ∀ older op' newer, ops = older ++ op' :: newer →
          Admits (older.foldl step (step s op)) op' :=
        fun older op' newer hops => hadmits (op :: older) op' newer (congrArg (List.cons op) hops)
      unfold enterAll
      generalize evaluate conduct (prog op) (w.entered (entry op)) = r at hends
      obtain ⟨outcome, w₁⟩ := r
      cases outcome with
      | done a => exact ih (hleft _ _ _ _ hends) hrest
      | raised x => exact ih (hleft _ _ _ _ hends) hrest
      | aborted f => exact absurd hends (habort f w₁)

end Simulation
end Entries

section Happening
variable (happen : World I → I.Call → Except I.Fault (World I))
  (answer : World I → (c : I.Call) → Except I.Exception (I.Answer c))

/-- What happens during a call is determined, and then it is answered. A call in which there
is a fault does not come back; it has no meaning here. -/
def Conduct.happening : Conduct I := fun w c =>
  match happen w c with
  | .ok w' => (w', answer w' c)
  | .error _ => (w, answer w c)

/-- What happens during a call is what was determined. -/
def determined (fault : I.Fault → Prop) : Contract I where
  outside _ := True
  before _ _ := True
  after c w₀ w := ∀ w', happen w₀ c = .ok w' → w = w'
  pre _ _ := True
  post _ _ _ := True
  abort f _ := fault f

variable {happen answer}

theorem during_happening (hduring : ∀ w c w', happen w c = .ok w' → World.During w w')
    (w : World I) (c : I.Call) : World.During w (Conduct.happening happen answer w c).1 := by
  unfold Conduct.happening
  cases hhappen : happen w c with
  | ok w' => exact hduring w c w' hhappen
  | error f => exact .refl w

theorem happening_obeys (hduring : ∀ w c w', happen w c = .ok w' → World.During w w')
    (fault : I.Fault → Prop) :
    (Conduct.happening happen answer).Obeys (determined happen fault) (answering answer) := by
  intro c w _
  refine ⟨during_happening hduring _ c, fun w' hw' => ?_, ?_⟩
  · unfold Conduct.happening
    rw [hw']
  · unfold Conduct.happening
    cases happen (w.calling c) c with
    | ok w' => rfl
    | error f => rfl

theorem wp_ask_happening {fault : I.Fault → Prop} {c : I.Call} {Q : I.Answer c → World I → Prop}
    {E : I.Exception → World I → Prop} {w w' : World I} {a : I.Answer c}
    (hhappen : happen (w.calling c) c = .ok w') (hanswer : answer w' c = .ok a)
    (hQ : Q a (w'.returned c (.ok a))) :
    wp (determined happen fault) (answering answer) (Prog.ask c) Q E w := by
  apply wp_ask _ _ _ _ trivial
  intro w₁ _ hafter
  cases hafter w' hhappen
  refine ⟨fun a' hback => ?_, fun x hback => ?_⟩
  · cases hanswer.symm.trans hback.symm
    exact hQ
  · cases hanswer.symm.trans hback.symm

end Happening

/-- Every element is there when its turn comes. -/
def Lasting (present : σ → κ → Prop) (step : σ → κ → σ) : σ → List κ → Prop
  | _, [] => True
  | s, k :: ks => present s k ∧ Lasting present step (step s k) ks

section Loop
variable {C : Contract I} {P : Policy I} {R : σ → World I → Prop} {turn : κ → Prog I Unit}
  {present : σ → κ → Prop} {step : σ → κ → σ} {E : I.Exception → World I → Prop}
  (hturn : ∀ s w k, R s w → present s k → wp C P (turn k) (fun _ => R (step s k)) E w)
include hturn

/-- A loop over a copy of a list whose elements are there at their turn. -/
theorem wp_forEach_lasting (ks : List κ) {s : σ} {w : World I} (hR : R s w)
    (hlasting : Lasting present step s ks) :
    wp C P (Prog.forEach ks turn) (fun _ => R (ks.foldl step s)) E w := by
  induction ks generalizing s w with
  | nil => exact hR
  | cons k ks ih =>
      unfold Prog.forEach
      rw [wp_bind]
      exact wp_mono (hturn s w k hR hlasting.1) (fun _ _ hR' => ih hR' hlasting.2) fun _ _ hE => hE

end Loop
end Reentrant
