import Mathlib

/-!
Texts that are sequences of pieces, each ending with a separator.

`pieces` cuts a text after every separator and drops an unterminated rest;
`located` adds the offset at which a piece begins. On texts that are written
piece by piece the cut recovers what was written.
-/

namespace Delimited

variable {α : Type} [DecidableEq α]

def pieces (sep : α) : List α → List (List α)
  | [] => []
  | x :: xs =>
      if x = sep then [x] :: pieces sep xs
      else match pieces sep xs with
        | [] => []
        | p :: ps => (x :: p) :: ps

def located : Nat → List (List α) → List (Nat × List α)
  | _, [] => []
  | offset, p :: ps => (offset, p) :: located (offset + p.length) ps

variable (sep : α)

theorem pieces_of_not_mem (u : List α) (hu : sep ∉ u) : pieces sep u = [] := by
  induction u with
  | nil => rfl
  | cons x xs ih =>
      obtain ⟨hx, hxs⟩ := not_or.mp (mt List.mem_cons.mpr hu)
      rw [pieces, if_neg (Ne.symm hx), ih hxs]

theorem pieces_append (u v : List α) (hu : sep ∉ u) :
    pieces sep (u ++ sep :: v) = (u ++ [sep]) :: pieces sep v := by
  induction u with
  | nil => exact if_pos rfl
  | cons x xs ih =>
      obtain ⟨hx, hxs⟩ := not_or.mp (mt List.mem_cons.mpr hu)
      rw [List.cons_append, pieces, if_neg (Ne.symm hx), ih hxs]
      rfl

/-- A text without a separator, or its first piece and what follows. -/
theorem cut_cases (x : List α) :
    sep ∉ x ∨ ∃ u v, sep ∉ u ∧ x = u ++ sep :: v := by
  by_cases h : sep ∈ x
  · obtain ⟨u, v, rfl, hu⟩ := List.eq_append_cons_of_mem h
    exact .inr ⟨u, v, hu, rfl⟩
  · exact .inl h

/-- What precedes the first separator is determined by the text. -/
theorem append_cons_unique {u u' v v' : List α} (hu : sep ∉ u) (hu' : sep ∉ u')
    (h : u ++ sep :: v = u' ++ sep :: v') : u = u' ∧ v = v' := by
  have hcut := congrArg (pieces sep) h
  rw [pieces_append sep u v hu, pieces_append sep u' v' hu'] at hcut
  obtain rfl := List.append_cancel_right (List.cons.inj hcut).1
  exact ⟨rfl, (List.cons.inj (List.append_cancel_left h)).2⟩

/-- A cut after a separator is a cut of both sides. -/
theorem pieces_append_cons (u v : List α) :
    pieces sep (u ++ sep :: v) = pieces sep (u ++ [sep]) ++ pieces sep v := by
  induction u with
  | nil =>
      rw [List.nil_append, List.nil_append, pieces, if_pos rfl, pieces, if_pos rfl]
      rfl
  | cons x xs ih =>
      rw [List.cons_append, List.cons_append, pieces, pieces, ih]
      by_cases hx : x = sep
      · rw [if_pos hx, if_pos hx]
        rfl
      · rw [if_neg hx, if_neg hx]
        cases hcut : pieces sep (xs ++ [sep]) with
        | nil =>
            have hne : ∀ w : List α, pieces sep (w ++ [sep]) ≠ [] := by
              intro w
              induction w with
              | nil =>
                  rw [List.nil_append, pieces, if_pos rfl]
                  exact List.cons_ne_nil _ _
              | cons y ys ih =>
                  rw [List.cons_append, pieces]
                  split
                  · exact List.cons_ne_nil _ _
                  · split
                    · contradiction
                    · exact List.cons_ne_nil _ _
            exact absurd hcut (hne xs)
        | cons p ps => rfl

theorem mem_of_mem_pieces {x p : List α} {c : α} (hp : p ∈ pieces sep x) (hc : c ∈ p) :
    c ∈ x := by
  induction x generalizing p with
  | nil => cases hp
  | cons d x ih =>
      unfold pieces at hp
      split at hp
      · cases List.mem_cons.mp hp with
        | inl heq =>
            rw [heq, List.mem_singleton] at hc
            rw [hc]
            exact List.mem_cons_self ..
        | inr hmem => exact List.mem_cons_of_mem _ (ih hmem hc)
      · split at hp
        · cases hp
        · next q ps hrest =>
            rw [hrest] at ih
            cases List.mem_cons.mp hp with
            | inl heq =>
                rw [heq] at hc
                cases List.mem_cons.mp hc with
                | inl h =>
                    rw [h]
                    exact List.mem_cons_self ..
                | inr h => exact List.mem_cons_of_mem _ (ih (List.mem_cons_self ..) h)
            | inr hmem => exact List.mem_cons_of_mem _ (ih (List.mem_cons_of_mem _ hmem) hc)

omit [DecidableEq α] in
theorem map_snd_located (offset : Nat) (ps : List (List α)) :
    (located offset ps).map Prod.snd = ps := by
  induction ps generalizing offset with
  | nil => rfl
  | cons p ps ih => rw [located, List.map_cons, ih]

/-- A text is a sequence of written values iff nothing is left over and every piece is one. -/
theorem eq_flatMap_iff {β : Type} (write : β → List α)
    (hwrite : ∀ b, ∃ u, sep ∉ u ∧ write b = u ++ [sep]) (first : List α) (rest : List α)
    (hfirst : ∃ u, sep ∉ u ∧ first = u ++ [sep]) :
    (∃ bs : List β, first ++ rest = bs.flatMap write) ↔
      (∃ b, write b = first) ∧ ∃ bs : List β, rest = bs.flatMap write := by
  constructor
  · rintro ⟨bs, hbs⟩
    obtain ⟨u, hu, rfl⟩ := hfirst
    cases bs with
    | nil => simp at hbs
    | cons b bs =>
        obtain ⟨u', hu', hb⟩ := hwrite b
        have hcut := congrArg (pieces sep) hbs
        rw [List.append_assoc, List.singleton_append, pieces_append sep u _ hu, List.flatMap_cons,
          hb, List.append_assoc, List.singleton_append, pieces_append sep u' _ hu'] at hcut
        obtain ⟨hhead, -⟩ := List.cons.inj hcut
        rw [List.flatMap_cons, hb, ← hhead] at hbs
        exact ⟨⟨b, hb.trans hhead.symm⟩, bs, List.append_cancel_left hbs⟩
  · rintro ⟨⟨b, rfl⟩, bs, rfl⟩
    exact ⟨b :: bs, (List.flatMap_cons ..).symm⟩

end Delimited
