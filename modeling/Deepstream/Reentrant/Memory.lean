import Deepstream.Reentrant.Program

/-!
What the entries that have not ended remember.

An entry begins with nothing to remember, and a note changes what the innermost
one remembers. So what is remembered can be told from the history alone, and a
call gives it back as it was.
-/

namespace Reentrant

variable {I : Interface} {σ : Type} (fresh : σ) (mark : I.Note → σ → σ)

/-- What is remembered after some history, innermost entry first -/
def memories : List (Item I) → List σ
  | [] => []
  | .enter _ :: t => fresh :: memories t
  | .leave _ _ :: t => (memories t).tail
  | .note n :: t => (memories t).modifyHead (mark n)
  | .call _ :: t | .back _ _ :: t => memories t

/-- What an entry does leaves the entries around it as they are. -/
theorem memories_balanced {t : List (Item I)} (h : Balanced t) (u : List (Item I)) :
    (memories fresh mark (t ++ u)).tail = (memories fresh mark u).tail := by
  induction h generalizing u with
  | nil => rfl
  | note n t _ ih =>
      rw [← ih u]
      exact List.tail_modifyHead
  | call c result body t _ _ ihbody ih =>
      rw [List.cons_append, List.append_assoc, ← ih u]
      exact ihbody (.call c :: (t ++ u))
  | entry e result body t _ _ ihbody ih =>
      rw [List.cons_append, List.append_assoc]
      change (memories fresh mark (body ++ _)).tail.tail = _
      rw [ihbody]
      exact ih u

theorem memories_interrupted {t : List (Item I)} (h : Interrupted t) (u : List (Item I)) :
    memories fresh mark (t ++ u) = memories fresh mark u := by
  induction h with
  | nil => rfl
  | entry e result body t hbody _ ih =>
      rw [List.cons_append, List.append_assoc]
      change (memories fresh mark (body ++ _)).tail = _
      rw [memories_balanced fresh mark hbody]
      exact ih

end Reentrant
