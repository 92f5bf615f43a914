import Mathlib

/-!
Programs of a component whose calls out of it may re-enter it.

A program is a tree: it reads and writes the component's state, leaves notes in
a trace, and stops at every call for an answer it does not control. While a call
is under way the environment may run any other program of the component, so a
contract says what must hold when a call is made and what may be assumed when
it returns.
-/

namespace Reentrant

/-- The types of a component: its state, the notes it leaves, what it raises, how it can
fail for good, its entry points, the calls it makes and their answers. -/
structure Interface where
  State : Type
  Note : Type
  Exception : Type
  Fault : Type
  Entry : Type
  Call : Type
  Answer : Call → Type

variable {I : Interface} {α β : Type}

inductive Prog (I : Interface) (α : Type) : Type where
  | ret (a : α)
  | raise (x : I.Exception)
  | abort (f : I.Fault)
  | get (next : I.State → Prog I α)
  | set (s : I.State) (next : Prog I α)
  | note (n : I.Note) (next : Prog I α)
  | call (c : I.Call) (next : I.Answer c → Prog I α)

namespace Prog

def bind : Prog I α → (α → Prog I β) → Prog I β
  | ret a, f => f a
  | raise x, _ => raise x
  | abort e, _ => abort e
  | get next, f => get fun s => (next s).bind f
  | set s next, f => set s (next.bind f)
  | note n next, f => note n (next.bind f)
  | call c next, f => call c fun a => (next a).bind f

instance : Monad (Prog I) where
  pure := ret
  bind := bind

def read : Prog I I.State := get ret
def modify (f : I.State → I.State) : Prog I Unit := get fun s => set (f s) (ret ())
def leave (n : I.Note) : Prog I Unit := note n (ret ())
def ask (c : I.Call) : Prog I (I.Answer c) := call c ret

def when (cond : Prop) [Decidable cond] (p : Prog I Unit) : Prog I Unit :=
  if cond then p else pure ()

/-- A loop over a list that cannot change meanwhile. -/
def forEach : List β → (β → Prog I Unit) → Prog I Unit
  | [], _ => pure ()
  | x :: xs, p => do
      p x
      forEach xs p

end Prog

inductive Item (I : Interface) where
  | enter (e : I.Entry)
  | leave (e : I.Entry) (result : Except I.Exception Unit)
  | call (c : I.Call)
  | back (c : I.Call) (result : Except I.Exception (I.Answer c))
  | note (n : I.Note)

/-- The component with its history, newest item first, and the entries and calls that
have not ended, innermost first. -/
structure World (I : Interface) where
  state : I.State
  trace : List (Item I) := []
  stack : List (I.Entry ⊕ I.Call) := []

namespace World

def noted (w : World I) (n : I.Note) : World I :=
  { w with trace := .note n :: w.trace }

def calling (w : World I) (c : I.Call) : World I :=
  { w with trace := .call c :: w.trace, stack := .inr c :: w.stack }

def returned (w : World I) (c : I.Call) (result : Except I.Exception (I.Answer c)) : World I :=
  { w with trace := .back c result :: w.trace, stack := w.stack.tail }

def entered (w : World I) (e : I.Entry) : World I :=
  { w with trace := .enter e :: w.trace, stack := .inl e :: w.stack }

def left (w : World I) (e : I.Entry) (result : Except I.Exception Unit) : World I :=
  { w with trace := .leave e result :: w.trace, stack := w.stack.tail }

end World

/-- A part of a history in which everything that begins also ends. -/
inductive Balanced : List (Item I) → Prop where
  | nil : Balanced []
  | note (n : I.Note) (t : List (Item I)) (h : Balanced t) : Balanced (.note n :: t)
  | call (c : I.Call) (result : Except I.Exception (I.Answer c)) (body t : List (Item I))
      (hbody : Balanced body) (h : Balanced t) :
      Balanced (.back c result :: (body ++ .call c :: t))
  | entry (e : I.Entry) (result : Except I.Exception Unit) (body t : List (Item I))
      (hbody : Balanced body) (h : Balanced t) :
      Balanced (.leave e result :: (body ++ .enter e :: t))

theorem Balanced.append {t t' : List (Item I)} (h : Balanced t) (h' : Balanced t') :
    Balanced (t ++ t') := by
  induction h with
  | nil => exact h'
  | note n t _ ih => exact .note n _ ih
  | call c result body t hbody _ _ ih =>
      rw [List.cons_append, List.append_assoc, List.cons_append]
      exact .call c result body _ hbody ih
  | entry e result body t hbody _ _ ih =>
      rw [List.cons_append, List.append_assoc, List.cons_append]
      exact .entry e result body _ hbody ih

namespace World

/-- `w'` comes after `w`, and whatever has begun since has ended. -/
structure Later (w w' : World I) : Prop where
  balanced : ∃ t, Balanced t ∧ w'.trace = t ++ w.trace
  stack : w'.stack = w.stack

theorem Later.trace {w w' : World I} (h : Later w w') : w.trace <:+ w'.trace := by
  obtain ⟨t, -, ht⟩ := h.balanced
  exact ⟨t, ht.symm⟩

theorem Later.refl (w : World I) : Later w w :=
  ⟨⟨[], .nil, rfl⟩, rfl⟩

theorem Later.trans {w w' w'' : World I} (h : Later w w') (h' : Later w' w'') : Later w w'' := by
  obtain ⟨t, hbalanced, ht⟩ := h.balanced
  obtain ⟨t', hbalanced', ht'⟩ := h'.balanced
  refine ⟨⟨t' ++ t, hbalanced'.append hbalanced, ?_⟩, h'.stack.trans h.stack⟩
  rw [ht', ht, List.append_assoc]

theorem Later.noted {w w' : World I} (h : Later w w') (n : I.Note) : Later w (w'.noted n) := by
  obtain ⟨t, hbalanced, ht⟩ := h.balanced
  exact ⟨⟨_, .note n t hbalanced, congrArg (List.cons _) ht⟩, h.stack⟩

/-- An entry has just ended, or a call was answered, or nothing has happened. -/
theorem Later.not_enter {w w' : World I} (h : Later w w') (e : I.Entry)
    (hhead : w'.trace.head? = some (.enter e)) : w.trace = w'.trace := by
  obtain ⟨t, hbalanced, ht⟩ := h.balanced
  rw [ht] at hhead
  cases hbalanced with
  | nil => exact ht.symm
  | note => cases hhead
  | call => cases hhead
  | entry => cases hhead

/-- No entry has just begun. -/
def Paused (w : World I) : Prop :=
  ∀ e, w.trace.head? ≠ some (.enter e)

theorem Later.paused {w w' : World I} (h : Later w w') (hpaused : w.Paused) : w'.Paused :=
  fun e hhead => hpaused e ((h.not_enter e hhead).symm ▸ hhead)

end World

/-- A part of a history that consists of entries that have ended. -/
inductive Interrupted : List (Item I) → Prop where
  | nil : Interrupted []
  | entry (e : I.Entry) (result : Except I.Exception Unit) (body t : List (Item I))
      (hbody : Balanced body) (h : Interrupted t) :
      Interrupted (.leave e result :: (body ++ .enter e :: t))

theorem Interrupted.balanced {t : List (Item I)} (h : Interrupted t) : Balanced t := by
  induction h with
  | nil => exact .nil
  | entry e result body t hbody _ ih => exact .entry e result body t hbody ih

theorem Interrupted.append {t t' : List (Item I)} (h : Interrupted t) (h' : Interrupted t') :
    Interrupted (t ++ t') := by
  induction h with
  | nil => exact h'
  | entry e result body t hbody _ ih =>
      rw [List.cons_append, List.append_assoc, List.cons_append]
      exact .entry e result body _ hbody ih

namespace World

/-- `w'` comes after `w` while a call waits: there have only been entries, and they ended. -/
structure During (w w' : World I) : Prop where
  entries : ∃ t, Interrupted t ∧ w'.trace = t ++ w.trace
  stack : w'.stack = w.stack
  idle : w'.trace = w.trace → w' = w

theorem During.later {w w' : World I} (h : During w w') : Later w w' := by
  obtain ⟨t, hentries, ht⟩ := h.entries
  exact ⟨⟨t, hentries.balanced, ht⟩, h.stack⟩

theorem During.trace {w w' : World I} (h : During w w') : w.trace <:+ w'.trace :=
  h.later.trace

theorem During.refl (w : World I) : During w w :=
  ⟨⟨[], .nil, rfl⟩, rfl, fun _ => rfl⟩

theorem During.trans {w w' w'' : World I} (h : During w w') (h' : During w' w'') :
    During w w'' := by
  obtain ⟨t, hentries, ht⟩ := h.entries
  obtain ⟨t', hentries', ht'⟩ := h'.entries
  have htrace : w''.trace = (t' ++ t) ++ w.trace := by rw [ht', ht, List.append_assoc]
  refine ⟨⟨t' ++ t, hentries'.append hentries, htrace⟩, h'.stack.trans h.stack, fun hidle => ?_⟩
  rw [htrace] at hidle
  obtain ⟨rfl, rfl⟩ := List.append_eq_nil_iff.mp (List.append_left_eq_self.mp hidle)
  rw [h'.idle ht', h.idle ht]

/-- If no entry has just ended then nothing has happened. -/
theorem During.eq_of_head {w w' : World I} (h : During w w')
    (hhead : ∀ e r, w'.trace.head? ≠ some (.leave e r)) : w' = w := by
  obtain ⟨t, hentries, ht⟩ := h.entries
  cases hentries with
  | nil => exact h.idle ht
  | entry e r => exact absurd (by rw [ht]; rfl) (hhead e r)

/-- The innermost call is `c`, and whatever has begun in it has ended. -/
structure InCall (w : World I) (c : I.Call) : Prop where
  stack : ∃ rest, w.stack = .inr c :: rest
  head : ∀ c', w.trace.head? = some (.call c') → c' = c
  paused : w.Paused

theorem During.inCall {w w' : World I} {c : I.Call} (h : During (w.calling c) w') :
    w'.InCall c := by
  refine ⟨⟨w.stack, h.stack⟩, fun c' hhead => ?_, h.later.paused nofun⟩
  obtain ⟨t, hentries, ht⟩ := h.entries
  rw [ht] at hhead
  cases hentries with
  | nil =>
      cases hhead
      rfl
  | entry => cases hhead

end World

/-- What the environment may do while a call is under way. -/
structure Policy (I : Interface) where
  enter : World I → I.Entry → Prop
  back : World I → (c : I.Call) → Except I.Exception (I.Answer c) → Prop

/-- `before` is established by whoever makes a call, `after` relates the world at the call
to the world during it and when it returns; `pre` and `post` do the same for an entry.
`outside` holds while no entry is active at all. -/
structure Contract (I : Interface) where
  outside : World I → Prop
  before : I.Call → World I → Prop
  after : I.Call → World I → World I → Prop
  pre : I.Entry → World I → Prop
  post : I.Entry → World I → World I → Prop
  abort : I.Fault → World I → Prop

section Wp
variable (C : Contract I) (P : Policy I)

/-- The weakest precondition of a program under a contract, for what it returns and for
what it raises. -/
def wp : Prog I α → (α → World I → Prop) → (I.Exception → World I → Prop) → World I → Prop
  | .ret a, Q, _, w => Q a w
  | .raise x, _, E, w => E x w
  | .abort f, _, _, w => C.abort f w
  | .get next, Q, E, w => wp (next w.state) Q E w
  | .set s next, Q, E, w => wp next Q E { w with state := s }
  | .note n next, Q, E, w => wp next Q E (w.noted n)
  | .call c next, Q, E, w =>
      C.before c (w.calling c) ∧
        ∀ w' result, World.During (w.calling c) w' → C.after c (w.calling c) w' →
          P.back w' c result →
            match result with
            | .ok a => wp (next a) Q E (w'.returned c result)
            | .error x => E x (w'.returned c result)

variable {C P}

theorem wp_bind (p : Prog I α) (f : α → Prog I β) (Q : β → World I → Prop)
    (E : I.Exception → World I → Prop) (w : World I) :
    wp C P (p >>= f) Q E w ↔ wp C P p (fun a => wp C P (f a) Q E) E w := by
  change wp C P (p.bind f) Q E w ↔ _
  induction p generalizing w with
  | ret a => exact Iff.rfl
  | raise x => exact Iff.rfl
  | abort e => exact Iff.rfl
  | get next ih => exact ih w.state w
  | set s next ih => exact ih _
  | note n next ih => exact ih _
  | call c next ih =>
      refine and_congr Iff.rfl ?_
      refine forall_congr' fun w' => forall_congr' fun result => ?_
      cases result with
      | ok a => exact imp_congr Iff.rfl (imp_congr Iff.rfl (imp_congr Iff.rfl (ih a _)))
      | error x => exact Iff.rfl

theorem wp_mono {p : Prog I α} {Q Q' : α → World I → Prop} {E E' : I.Exception → World I → Prop}
    {w : World I} (h : wp C P p Q E w) (hQ : ∀ a w', Q a w' → Q' a w')
    (hE : ∀ x w', E x w' → E' x w') : wp C P p Q' E' w := by
  induction p generalizing w with
  | ret a => exact hQ a w h
  | raise x => exact hE x w h
  | abort e => exact h
  | get next ih => exact ih w.state h
  | set s next ih => exact ih h
  | note n next ih => exact ih h
  | call c next ih =>
      refine ⟨h.1, fun w' result hlater hafter hback => ?_⟩
      have hnext := h.2 w' result hlater hafter hback
      cases result with
      | ok a => exact ih a hnext
      | error x => exact hE x _ hnext

/-- A policy that permits fewer answers -/
theorem wp_fewer {P' : Policy I} {p : Prog I α} {Q : α → World I → Prop}
    {E : I.Exception → World I → Prop} {w : World I} (h : wp C P p Q E w)
    (hback : ∀ w c result, P'.back w c result → P.back w c result) : wp C P' p Q E w := by
  induction p generalizing w with
  | ret a => exact h
  | raise x => exact h
  | abort e => exact h
  | get next ih => exact ih w.state h
  | set s next ih => exact ih h
  | note n next ih => exact ih h
  | call c next ih =>
      refine ⟨h.1, fun w' result hlater hafter hpermit => ?_⟩
      have hnext := h.2 w' result hlater hafter (hback w' c result hpermit)
      cases result with
      | ok a => exact ih a hnext
      | error x => exact hnext

@[simp] theorem wp_pure (a : α) (Q : α → World I → Prop) (E : I.Exception → World I → Prop)
    (w : World I) : wp C P (pure a) Q E w ↔ Q a w :=
  Iff.rfl

@[simp] theorem wp_raise (x : I.Exception) (Q : α → World I → Prop)
    (E : I.Exception → World I → Prop) (w : World I) : wp C P (.raise x) Q E w ↔ E x w :=
  Iff.rfl

@[simp] theorem wp_abort (f : I.Fault) (Q : α → World I → Prop)
    (E : I.Exception → World I → Prop) (w : World I) : wp C P (.abort f) Q E w ↔ C.abort f w :=
  Iff.rfl

@[simp] theorem wp_read (Q : I.State → World I → Prop) (E : I.Exception → World I → Prop)
    (w : World I) : wp C P Prog.read Q E w ↔ Q w.state w :=
  Iff.rfl

@[simp] theorem wp_modify (f : I.State → I.State) (Q : Unit → World I → Prop)
    (E : I.Exception → World I → Prop) (w : World I) :
    wp C P (Prog.modify f) Q E w ↔ Q () { w with state := f w.state } :=
  Iff.rfl

@[simp] theorem wp_leave (n : I.Note) (Q : Unit → World I → Prop)
    (E : I.Exception → World I → Prop) (w : World I) :
    wp C P (Prog.leave n) Q E w ↔ Q () (w.noted n) :=
  Iff.rfl

theorem wp_ask (c : I.Call) (Q : I.Answer c → World I → Prop)
    (E : I.Exception → World I → Prop) (w : World I)
    (hbefore : C.before c (w.calling c))
    (hnext : ∀ w', World.During (w.calling c) w' → C.after c (w.calling c) w' →
      (∀ a, P.back w' c (.ok a) → Q a (w'.returned c (.ok a))) ∧
      (∀ x, P.back w' c (.error x) → E x (w'.returned c (.error x)))) :
    wp C P (Prog.ask c) Q E w := by
  refine ⟨hbefore, fun w' result hlater hafter hback => ?_⟩
  cases result with
  | ok a => exact (hnext w' hlater hafter).1 a hback
  | error x => exact (hnext w' hlater hafter).2 x hback

end Wp
end Reentrant
