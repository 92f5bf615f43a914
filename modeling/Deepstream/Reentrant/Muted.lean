import Deepstream.Reentrant.Evaluation

/-!
Programs that differ only in what nobody hears.

Notes are heard by nobody. A call may be muted as well: what it is answered is
known, and nothing else comes of it. Two programs without both may be the same
tree: they read, write and call alike, whatever they are answered, and an
environment that looks at neither cannot tell them apart.
-/

namespace Reentrant

variable {I : Interface} {α β γ : Type}

/-- The calls that are muted, with their answers -/
abbrev Mute (I : Interface) := (c : I.Call) → Option (I.Answer c)

/-- No call is muted. -/
def Mute.none : Mute I := fun _ => Option.none

namespace Prog

/-- A program without its notes and the calls that are muted -/
def muted (mute : Mute I) : Prog I α → Prog I α
  | .ret a => .ret a
  | .raise x => .raise x
  | .abort f => .abort f
  | .get next => .get fun s => (next s).muted mute
  | .set s next => .set s (next.muted mute)
  | .note _ next => next.muted mute
  | .call c next =>
      match mute c with
      | some a => (next a).muted mute
      | Option.none => .call c fun a => (next a).muted mute

/-- A program without its notes -/
abbrev unnoted (p : Prog I α) : Prog I α :=
  p.muted .none

variable {mute : Mute I}

theorem muted_call_some {c : I.Call} {a : I.Answer c} (h : mute c = some a)
    (next : I.Answer c → Prog I α) : (call c next).muted mute = (next a).muted mute := by
  rw [muted, h]

theorem muted_call_none {c : I.Call} (h : mute c = Option.none) (next : I.Answer c → Prog I α) :
    (call c next).muted mute = call c fun a => (next a).muted mute := by
  rw [muted, h]

theorem muted_bind (p : Prog I α) (f : α → Prog I β) :
    (p >>= f).muted mute = p.muted mute >>= fun a => (f a).muted mute := by
  change (p.bind f).muted mute = (p.muted mute).bind fun a => (f a).muted mute
  induction p with
  | ret | raise | abort => rfl
  | get next ih => exact congrArg get (funext ih)
  | set s next ih => exact congrArg (set s) ih
  | note n next ih => exact ih
  | call c next ih =>
      change (call c fun a => (next a).bind f).muted mute = _
      cases hmute : mute c with
      | some a =>
          rw [muted_call_some hmute, muted_call_some hmute]
          exact ih a
      | none =>
          rw [muted_call_none hmute, muted_call_none hmute]
          exact congrArg (call c) (funext ih)

/-- Two loops are alike whose rounds are. -/
theorem muted_forEach {xs : List β} {ys : List γ} {p : β → Prog I Unit} {q : γ → Prog I Unit}
    (h : List.Forall₂ (fun x y => (p x).muted mute = (q y).muted mute) xs ys) :
    (forEach xs p).muted mute = (forEach ys q).muted mute := by
  induction h with
  | nil => rfl
  | cons hround _ ih =>
      unfold forEach
      rw [muted_bind, muted_bind, hround, ih]

/-- A loop in which nothing is heard -/
theorem muted_forEach_ret {xs : List β} {p : β → Prog I Unit}
    (h : ∀ x ∈ xs, (p x).muted mute = .ret ()) : (forEach xs p).muted mute = .ret () := by
  induction xs with
  | nil => rfl
  | cons x xs ih =>
      obtain ⟨hx, hxs⟩ := List.forall_mem_cons.mp h
      unfold forEach
      rw [muted_bind, hx]
      exact ih hxs

theorem bind_assoc (p : Prog I α) (f : α → Prog I β) (g : β → Prog I γ) :
    (p >>= f) >>= g = p >>= fun a => f a >>= g := by
  change (p.bind f).bind g = p.bind fun a => (f a).bind g
  induction p with
  | ret | raise | abort => rfl
  | get next ih => exact congrArg get (funext ih)
  | set s next ih => exact congrArg (set s) ih
  | note n next ih => exact congrArg (note n) ih
  | call c next ih => exact congrArg (call c) (funext ih)

theorem forEach_append (xs ys : List β) (p : β → Prog I Unit) :
    forEach (xs ++ ys) p = forEach xs p >>= fun _ => forEach ys p := by
  induction xs with
  | nil => rfl
  | cons x xs ih =>
      rw [List.cons_append, forEach, forEach, ih, bind_assoc]

end Prog

/-- A note, or part of a call that is muted -/
def Item.isMuted (mute : Mute I) : Item I → Bool
  | .note _ => true
  | .call c => (mute c).isSome
  | .back c _ => (mute c).isSome
  | _ => false

/-- The history without what is muted -/
def World.events (mute : Mute I) (w : World I) : List (Item I) :=
  w.trace.filter fun item => !item.isMuted mute

/-- The worlds differ in what is muted at most. -/
structure World.Alike (mute : Mute I) (w w' : World I) : Prop where
  state : w.state = w'.state
  stack : w.stack = w'.stack
  events : w.events mute = w'.events mute

namespace World.Alike
variable {mute : Mute I} {w w' w'' : World I}

theorem refl (w : World I) : Alike mute w w :=
  ⟨rfl, rfl, rfl⟩

theorem symm (h : Alike mute w w') : Alike mute w' w :=
  ⟨h.state.symm, h.stack.symm, h.events.symm⟩

theorem trans (h : Alike mute w w') (h' : Alike mute w' w'') : Alike mute w w'' :=
  ⟨h.state.trans h'.state, h.stack.trans h'.stack, h.events.trans h'.events⟩

theorem noted (h : Alike mute w w') (n : I.Note) : Alike mute (w.noted n) w' :=
  ⟨h.state, h.stack, h.events⟩

theorem set (h : Alike mute w w') (s : I.State) :
    Alike mute { w with state := s } { w' with state := s } :=
  ⟨rfl, h.stack, h.events⟩

theorem calling (h : Alike mute w w') (c : I.Call) :
    Alike mute (w.calling c) (w'.calling c) where
  state := h.state
  stack := congrArg (List.cons _) h.stack
  events := by
    change (Item.call c :: w.trace).filter _ = (Item.call c :: w'.trace).filter _
    rw [List.filter_cons, List.filter_cons, show w.trace.filter _ = w'.trace.filter _ from h.events]

theorem returned (h : Alike mute w w') (c : I.Call) (result : Except I.Exception (I.Answer c)) :
    Alike mute (w.returned c result) (w'.returned c result) where
  state := h.state
  stack := congrArg List.tail h.stack
  events := by
    change (Item.back c result :: w.trace).filter _ = (Item.back c result :: w'.trace).filter _
    rw [List.filter_cons, List.filter_cons, show w.trace.filter _ = w'.trace.filter _ from h.events]

/-- A call that is muted has returned at once. -/
theorem passed (h : Alike mute w w') {c : I.Call} {a : I.Answer c} (hmute : mute c = some a) :
    Alike mute ((w.calling c).returned c (.ok a)) w' where
  state := h.state
  stack := h.stack
  events := by
    have hsome : (mute c).isSome = true := by
      rw [hmute]
      rfl
    have hcall : (Item.call c).isMuted mute = true := hsome
    have hback : (Item.back c (.ok a)).isMuted mute = true := hsome
    change (Item.back c (.ok a) :: Item.call c :: w.trace).filter _ = _
    rw [List.filter_cons, List.filter_cons, hcall, hback]
    exact h.events

end World.Alike

/-- What the environment does and answers does not depend on what is muted. -/
def Conduct.Overlooks (conduct : Conduct I) (mute : Mute I) : Prop :=
  ∀ w w' c, World.Alike mute w w' →
    World.Alike mute (conduct w c).1 (conduct w' c).1 ∧ (conduct w c).2 = (conduct w' c).2

/-- What the environment does and answers does not depend on notes. -/
abbrev Conduct.IgnoresNotes (conduct : Conduct I) : Prop :=
  conduct.Overlooks .none

/-- Nothing comes of a call that is muted. -/
def Conduct.Passes (conduct : Conduct I) (mute : Mute I) : Prop :=
  ∀ w c a, mute c = some a → conduct w c = (w, .ok a)

/-- Two runs end alike. -/
def EndsAlike (mute : Mute I) (r r' : Outcome I α × World I) : Prop :=
  r.1 = r'.1 ∧ World.Alike mute r.2 r'.2

theorem Conduct.passes_none (conduct : Conduct I) : conduct.Passes .none :=
  fun _ _ _ h => by cases h

section Evaluate
variable {mute : Mute I} {conduct : Conduct I} (hconduct : conduct.Overlooks mute)
  (hpasses : conduct.Passes mute)
include hconduct hpasses

theorem evaluate_muted (p : Prog I α) {w w' : World I} (h : World.Alike mute w w') :
    EndsAlike mute (evaluate conduct p w) (evaluate conduct (p.muted mute) w') := by
  induction p generalizing w w' with
  | ret | raise | abort => exact ⟨rfl, h⟩
  | get next ih =>
      unfold Prog.muted evaluate
      rw [h.state]
      exact ih w'.state h
  | set s next ih => exact ih (h.set s)
  | note n next ih => exact ih (h.noted n)
  | call c next ih =>
      cases hmute : mute c with
      | some a =>
          rw [Prog.muted_call_some hmute, evaluate_call_ok (hpasses _ c a hmute)]
          exact ih a (h.passed hmute)
      | none =>
          rw [Prog.muted_call_none hmute]
          obtain ⟨halike, hresult⟩ := hconduct _ _ c (h.calling c)
          unfold evaluate
          generalize conduct (w.calling c) c = r, conduct (w'.calling c) c = r' at halike hresult
          obtain ⟨w₁, result⟩ := r
          obtain ⟨w₁', result'⟩ := r'
          cases hresult
          cases result with
          | ok a => exact ih a (halike.returned c _)
          | error x => exact ⟨rfl, halike.returned c _⟩

/-- Programs that differ in what is muted only have the same outcome. -/
theorem evaluate_alike {p q : Prog I α} (h : p.muted mute = q.muted mute) (w : World I) :
    EndsAlike mute (evaluate conduct p w) (evaluate conduct q w) := by
  have hp := evaluate_muted hconduct hpasses p (.refl w)
  have hq := evaluate_muted hconduct hpasses q (.refl w)
  rw [h] at hp
  exact ⟨hp.1.trans hq.1.symm, hp.2.trans hq.2.symm⟩

end Evaluate

end Reentrant
