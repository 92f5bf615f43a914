import Mathlib

/-!
Programs that draw numbers from an engine.

What such a program gives is described from two sides: what holds of it however
the engine draws, and which values some draws lead to. Both are put together
along the program.
-/

namespace Sampling

/-- A source of numbers within given bounds -/
structure Engine where
  State : Type
  uniform : Int → Int → State → Int × State
  uniform_mem : ∀ a b s, a ≤ b → a ≤ (uniform a b s).1 ∧ (uniform a b s).1 ≤ b

/-- The first number of a list, if it lies within the bounds -/
def next (a b : Int) : List Int → Int × List Int
  | [] => (a, [])
  | c :: rest => (if a ≤ c ∧ c ≤ b then c else a, rest)

theorem next_cons {a b c : Int} (h : a ≤ c ∧ c ≤ b) (rest : List Int) :
    next a b (c :: rest) = (c, rest) := by
  rw [next, if_pos h]

theorem next_mem (a b : Int) (script : List Int) (hab : a ≤ b) :
    a ≤ (next a b script).1 ∧ (next a b script).1 ≤ b := by
  cases script with
  | nil => exact ⟨le_rfl, hab⟩
  | cons c rest =>
      by_cases hc : a ≤ c ∧ c ≤ b
      · rwa [next_cons hc]
      · rw [next, if_neg hc]
        exact ⟨le_rfl, hab⟩

/-- The engine that draws from a list -/
def scripted : Engine := ⟨List Int, next, next_mem⟩

abbrev Generator (E : Engine) (ε α : Type) := StateT E.State (Except ε) α

variable {ε α β : Type}

/-- A number within the bounds, which must not cross -/
def draw (E : Engine) (crossed : ε) (a b : Int) : Generator E ε Int := fun s =>
  if a ≤ b then .ok (E.uniform a b s) else .error crossed

/-- The values of a generator that is run so many times -/
def times {E : Engine} (g : Generator E ε α) : Nat → Generator E ε (List α)
  | 0 => pure []
  | n + 1 => do
      let a ← g
      let as ← times g n
      return a :: as

/-- However the engine draws, the generator gives a value with the property. -/
def Yields {E : Engine} (g : Generator E ε α) (P : α → Prop) : Prop :=
  ∀ s, ∃ a s', g s = .ok (a, s') ∧ P a

/-- Some draws lead to the value. -/
def Covers (g : Generator scripted ε α) (a : α) : Prop :=
  ∃ script : List Int, ∀ rest, g (script ++ rest : List Int) = .ok (a, rest)

section Yields
variable {E : Engine} {g : Generator E ε α} {f : α → Generator E ε β} {P : α → Prop}
  {Q : β → Prop}

theorem Yields.pure {a : α} (h : P a) : Yields (pure a : Generator E ε α) P :=
  fun s => ⟨a, s, rfl, h⟩

theorem Yields.bind (hg : Yields g P) (hf : ∀ a, P a → Yields (f a) Q) :
    Yields (g >>= f) Q := by
  intro s
  obtain ⟨a, s₁, hrun, ha⟩ := hg s
  obtain ⟨b, s₂, hnext, hb⟩ := hf a ha s₁
  refine ⟨b, s₂, ?_, hb⟩
  change (g s >>= fun p => f p.1 p.2) = _
  rw [hrun]
  exact hnext

theorem Yields.mono {P' : α → Prop} (hg : Yields g P) (h : ∀ a, P a → P' a) : Yields g P' := by
  intro s
  obtain ⟨a, s', hrun, ha⟩ := hg s
  exact ⟨a, s', hrun, h a ha⟩

theorem Yields.draw {crossed : ε} {a b : Int} (hab : a ≤ b) :
    Yields (draw E crossed a b) fun c => a ≤ c ∧ c ≤ b :=
  fun s => ⟨_, _, if_pos hab, E.uniform_mem a b s hab⟩

theorem Yields.times (hg : Yields g P) (n : Nat) :
    Yields (times g n) fun as => as.length = n ∧ ∀ a ∈ as, P a := by
  induction n with
  | zero => exact .pure ⟨rfl, by simp⟩
  | succ n ih =>
      refine hg.bind fun a ha => ih.bind fun as has => .pure ?_
      exact ⟨congrArg Nat.succ has.1, List.forall_mem_cons.mpr ⟨ha, has.2⟩⟩

end Yields

section Covers
variable {g : Generator scripted ε α} {f : α → Generator scripted ε β}

theorem Covers.pure (a : α) : Covers (pure a : Generator scripted ε α) a :=
  ⟨[], fun _ => rfl⟩

theorem Covers.bind {a : α} {b : β} (hg : Covers g a) (hf : Covers (f a) b) :
    Covers (g >>= f) b := by
  obtain ⟨first, hfirst⟩ := hg
  obtain ⟨second, hsecond⟩ := hf
  refine ⟨first ++ second, fun rest => ?_⟩
  change (g _ >>= fun p => f p.1 p.2) = _
  rw [List.append_assoc, hfirst]
  exact hsecond rest

theorem Covers.draw {crossed : ε} {a b c : Int} (hac : a ≤ c) (hcb : c ≤ b) :
    Covers (draw scripted crossed a b) c := by
  refine ⟨[c], fun rest => (if_pos (hac.trans hcb)).trans ?_⟩
  exact congrArg Except.ok (next_cons ⟨hac, hcb⟩ rest)

theorem Covers.times {as : List α} (h : ∀ a ∈ as, Covers g a) :
    Covers (times g as.length) as := by
  induction as with
  | nil => exact .pure []
  | cons a as ih =>
      have htail := ih fun b hb => h b (List.mem_cons_of_mem _ hb)
      exact (h a List.mem_cons_self).bind (htail.bind (.pure (a :: as)))

end Covers
end Sampling
