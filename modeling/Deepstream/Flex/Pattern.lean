import Mathlib

/-!
Regular patterns over an arbitrary alphabet and the length of their longest match.

A pattern denotes a language; the executable side reads the input once with
Brzozowski derivatives. `longest_eq_some_iff` is the only fact a scanner needs:
the reported length is the greatest one whose prefix lies in the language.
-/

namespace Flex

open Computability

/-- Patterns as a scanner generator reads them. A character class is a decidable
set of letters, so negated classes cost nothing. -/
inductive Pattern (α : Type) where
  | empty
  | eps
  | cls (p : α → Bool)
  | alt (a b : Pattern α)
  | seq (a b : Pattern α)
  | star (a : Pattern α)

namespace Pattern

variable {α : Type}

def language : Pattern α → Language α
  | .empty => 0
  | .eps => 1
  | .cls p => {w | ∃ a, p a = true ∧ w = [a]}
  | .alt a b => a.language + b.language
  | .seq a b => a.language * b.language
  | .star a => a.language∗

def nullable : Pattern α → Bool
  | .empty | .cls _ => false
  | .eps | .star _ => true
  | .alt a b => a.nullable || b.nullable
  | .seq a b => a.nullable && b.nullable

/-- The pattern that is left after the letter `x` has been read. -/
def deriv (x : α) : Pattern α → Pattern α
  | .empty | .eps => .empty
  | .cls p => if p x then .eps else .empty
  | .alt a b => .alt (a.deriv x) (b.deriv x)
  | .seq a b =>
      if a.nullable then .alt (.seq (a.deriv x) b) (b.deriv x) else .seq (a.deriv x) b
  | .star a => .seq (a.deriv x) (.star a)

theorem nil_mem_language (p : Pattern α) : [] ∈ p.language ↔ p.nullable = true := by
  induction p with
  | empty => simp [language, nullable]
  | eps => simp [language, nullable]
  | cls p => exact ⟨fun ⟨_, _, h⟩ => (List.cons_ne_nil _ _ h.symm).elim, nofun⟩
  | alt a b iha ihb =>
      rw [language, Language.mem_add, iha, ihb, nullable, Bool.or_eq_true]
  | seq a b iha ihb =>
      simp only [language, nullable, Language.mem_mul, Bool.and_eq_true, ← iha, ← ihb]
      constructor
      · rintro ⟨u, hu, v, hv, huv⟩
        obtain ⟨rfl, rfl⟩ := List.append_eq_nil_iff.mp huv
        exact ⟨hu, hv⟩
      · exact fun ⟨ha, hb⟩ => ⟨[], ha, [], hb, rfl⟩
  | star a _ => simp [language, nullable, Language.nil_mem_kstar]

theorem cons_mem_mul (l m : Language α) (x : α) (w : List α) :
    x :: w ∈ l * m ↔
      (∃ u v, x :: u ∈ l ∧ v ∈ m ∧ u ++ v = w) ∨ ([] ∈ l ∧ x :: w ∈ m) := by
  rw [Language.mem_mul]
  constructor
  · rintro ⟨u, hu, v, hv, huv⟩
    cases u with
    | nil => exact .inr ⟨hu, by simpa using huv ▸ hv⟩
    | cons y u =>
        obtain ⟨rfl, rfl⟩ := List.cons.inj huv
        exact .inl ⟨u, v, hu, hv, rfl⟩
  · rintro (⟨u, v, hu, hv, rfl⟩ | ⟨hl, hm⟩)
    · exact ⟨x :: u, hu, v, hv, rfl⟩
    · exact ⟨[], hl, x :: w, hm, rfl⟩

theorem cons_mem_kstar (l : Language α) (x : α) (w : List α) :
    x :: w ∈ l∗ ↔ ∃ u v, x :: u ∈ l ∧ v ∈ l∗ ∧ u ++ v = w := by
  constructor
  · intro h
    rw [Language.kstar_def_nonempty] at h
    obtain ⟨parts, hw, hparts⟩ := h
    cases parts with
    | nil => simp at hw
    | cons part parts =>
        obtain ⟨hpart, hne⟩ := hparts part List.mem_cons_self
        obtain ⟨y, u, rfl⟩ := List.exists_cons_of_ne_nil hne
        rw [List.flatten_cons, List.cons_append] at hw
        obtain ⟨rfl, rfl⟩ := List.cons.inj hw
        refine ⟨u, parts.flatten, hpart, ?_, rfl⟩
        exact Language.join_mem_kstar fun v hv => (hparts v (List.mem_cons_of_mem _ hv)).1
  · rintro ⟨u, v, hu, hv, rfl⟩
    obtain ⟨parts, rfl, hparts⟩ := Language.mem_kstar.mp hv
    refine Language.mem_kstar.mpr ⟨(x :: u) :: parts, by simp, ?_⟩
    rintro y (_ | ⟨_, hy⟩)
    · exact hu
    · exact hparts y hy

theorem mem_language_deriv (p : Pattern α) (x : α) (w : List α) :
    w ∈ (p.deriv x).language ↔ x :: w ∈ p.language := by
  induction p generalizing w with
  | empty => simp [deriv, language]
  | eps => simp [deriv, language]
  | cls p =>
      change w ∈ (if p x then Pattern.eps else .empty).language ↔ ∃ a, p a = true ∧ x :: w = [a]
      split <;> rename_i hx
      · rw [language, Language.mem_one]
        constructor
        · rintro rfl
          exact ⟨x, hx, rfl⟩
        · rintro ⟨a, -, ha⟩
          exact (List.cons.inj ha).2
      · constructor
        · exact fun h => h.elim
        · rintro ⟨a, ha, hxa⟩
          rw [(List.cons.inj hxa).1] at hx
          exact (hx ha).elim
  | alt a b iha ihb => rw [deriv, language, language, Language.mem_add, Language.mem_add, iha, ihb]
  | seq a b iha ihb =>
      rw [language, cons_mem_mul]
      simp only [deriv, nil_mem_language]
      split <;> rename_i ha
      · simp only [language, Language.mem_add, Language.mem_mul, iha, ihb, ha, true_and,
          exists_and_left]
      · simp [language, Language.mem_mul, iha, ha]
  | star a iha =>
      rw [language, cons_mem_kstar]
      simp [deriv, language, Language.mem_mul, iha]

/-- The length of the longest prefix of the input that the pattern matches. -/
def longest : Pattern α → List α → Option Nat
  | p, [] => if p.nullable then some 0 else none
  | p, x :: xs =>
      match (p.deriv x).longest xs with
      | some n => some (n + 1)
      | none => if p.nullable then some 0 else none

theorem longest_eq_none_iff (p : Pattern α) (w : List α) :
    p.longest w = none ↔ ∀ n ≤ w.length, w.take n ∉ p.language := by
  induction w generalizing p with
  | nil => simp [longest, nil_mem_language]
  | cons x xs ih =>
      have step : p.longest (x :: xs) = none ↔
          (p.deriv x).longest xs = none ∧ p.nullable = false := by
        rw [longest]
        split <;> simp_all
      rw [step, ih]
      simp only [mem_language_deriv, ← Bool.not_eq_true, ← nil_mem_language]
      constructor
      · rintro ⟨hs, h0⟩ n hn
        cases n with
        | zero => exact h0
        | succ n => exact hs n (by simpa using hn)
      · intro h
        exact ⟨fun n hn => h (n + 1) (by simpa using hn), h 0 (Nat.zero_le _)⟩

/-- A scanner's longest match: the greatest length whose prefix is in the language. -/
theorem longest_eq_some_iff (p : Pattern α) (w : List α) (n : Nat) :
    p.longest w = some n ↔
      n ≤ w.length ∧ w.take n ∈ p.language ∧
        ∀ m ≤ w.length, n < m → w.take m ∉ p.language := by
  induction w generalizing p n with
  | nil =>
      simp only [longest, List.length_nil, Nat.le_zero_eq, List.take_nil, nil_mem_language]
      split <;> simp_all
      omega
  | cons x xs ih =>
      rw [longest]
      cases hd : (p.deriv x).longest xs with
      | some k =>
          obtain ⟨hk, hmem, hmax⟩ := (ih (p.deriv x) k).mp hd
          simp only [mem_language_deriv] at hmem hmax
          constructor
          · rintro ⟨⟩
            refine ⟨by simpa using hk, hmem, fun m hm hlt => ?_⟩
            obtain ⟨m, rfl⟩ := Nat.exists_eq_succ_of_ne_zero (by omega : m ≠ 0)
            exact hmax m (by simpa using hm) (by omega)
          · rintro ⟨hn, hin, hbest⟩
            have hle : k + 1 ≤ n := Nat.not_lt.mp fun h =>
              hbest (k + 1) (by simpa using hk) h hmem
            obtain ⟨n, rfl⟩ := Nat.exists_eq_succ_of_ne_zero (by omega : n ≠ 0)
            have hge : n ≤ k := Nat.not_lt.mp fun h =>
              hmax n (by simpa using hn) h hin
            rw [show n = k by omega]
      | none =>
          have hnone := (longest_eq_none_iff (p.deriv x) xs).mp hd
          simp only [mem_language_deriv] at hnone
          have hpos : ∀ m ≤ (x :: xs).length, 0 < m → (x :: xs).take m ∉ p.language := by
            intro m hm h0
            obtain ⟨m, rfl⟩ := Nat.exists_eq_succ_of_ne_zero (by omega : m ≠ 0)
            exact hnone m (by simpa using hm)
          change (if p.nullable = true then some 0 else none) = some n ↔ _
          constructor
          · intro h
            split at h
            · rename_i hnull
              cases h
              exact ⟨Nat.zero_le _, (nil_mem_language p).mpr hnull, hpos⟩
            · cases h
          · rintro ⟨hn, hin, -⟩
            obtain rfl : n = 0 := Nat.eq_zero_of_not_pos fun h => hpos n hn h hin
            rw [if_pos ((nil_mem_language p).mp hin)]

/-! Derived forms: one letter, a fixed word, one or more, a run of one class. -/

def literal [DecidableEq α] : List α → Pattern α
  | [] => .eps
  | x :: xs => .seq (.cls (· == x)) (literal xs)

def plus (p : Pattern α) : Pattern α :=
  .seq p (.star p)

theorem cons_mem_language_seq_cls (p : α → Bool) (b : Pattern α) (x : α) (w : List α) :
    x :: w ∈ (Pattern.seq (.cls p) b).language ↔ p x = true ∧ w ∈ b.language := by
  rw [← mem_language_deriv]
  cases h : p x <;> simp [deriv, nullable, language, h]

theorem mem_language_literal [DecidableEq α] (v w : List α) :
    w ∈ (literal v).language ↔ w = v := by
  induction v generalizing w with
  | nil => exact Language.mem_one w
  | cons x xs ih =>
      cases w with
      | nil => simp [literal, nil_mem_language, nullable]
      | cons y ys => simp [literal, cons_mem_language_seq_cls, ih]

theorem mem_language_star_cls (p : α → Bool) (w : List α) :
    w ∈ (Pattern.star (.cls p)).language ↔ ∀ a ∈ w, p a = true := by
  induction w with
  | nil => simp [nil_mem_language, nullable]
  | cons x xs ih =>
      rw [← mem_language_deriv]
      simp only [deriv, List.forall_mem_cons, ← ih]
      cases p x <;> simp [language]

theorem mem_language_plus_cls (p : α → Bool) (w : List α) :
    w ∈ (plus (.cls p)).language ↔ w ≠ [] ∧ ∀ a ∈ w, p a = true := by
  cases w with
  | nil => simp [plus, nil_mem_language, nullable]
  | cons x xs => simp [plus, cons_mem_language_seq_cls, mem_language_star_cls]

theorem longest_of_append (p : Pattern α) (u v : List α) (hu : u ∈ p.language)
    (hmax : ∀ t, t ≠ [] → t <+: v → u ++ t ∉ p.language) :
    p.longest (u ++ v) = some u.length := by
  rw [longest_eq_some_iff]
  refine ⟨by simp, by simpa using hu, fun m hm hlt hin => ?_⟩
  rw [List.take_append, List.take_of_length_le (by omega)] at hin
  refine hmax (v.take (m - u.length)) ?_ (List.take_prefix _ _) hin
  simp only [List.length_append] at hm
  simp only [ne_eq, List.take_eq_nil_iff, not_or]
  exact ⟨by omega, fun h => by simp [h] at hm; omega⟩

theorem longest_literal [DecidableEq α] (v w : List α) :
    (literal v).longest w = if v <+: w then some v.length else none := by
  split <;> rename_i h
  · obtain ⟨u, rfl⟩ := h
    apply longest_of_append _ _ _ ((mem_language_literal v v).mpr rfl)
    intro t ht _ hin
    exact ht (by simpa using (mem_language_literal v _).mp hin)
  · rw [longest_eq_none_iff]
    intro n _ hin
    exact h ⟨w.drop n, by rw [← (mem_language_literal v _).mp hin, List.take_append_drop]⟩

theorem longest_cls (p : α → Bool) (x : α) (w : List α) :
    (Pattern.cls p).longest (x :: w) = if p x then some 1 else none := by
  cases h : p x with
  | true =>
      apply longest_of_append (.cls p) [x] w ⟨x, h, rfl⟩
      rintro (_ | ⟨y, t⟩) ht _ ⟨a, -, ha⟩
      · exact ht rfl
      · simp at ha
  | false =>
      simp only [Bool.false_eq_true, ite_false, longest_eq_none_iff]
      rintro n - ⟨a, ha, hin⟩
      cases n with
      | zero => simp at hin
      | succ n =>
          rw [List.take_succ_cons] at hin
          rw [← (List.cons.inj hin).1, h] at ha
          cases ha

/-- One letter of a class, then a maximal non-empty run of a second class. -/
theorem longest_cls_plus (p q : α → Bool) (x : α) (u v : List α) (hx : p x = true)
    (hne : u ≠ []) (hu : ∀ a ∈ u, q a = true) (hv : ∀ a ∈ v.head?, q a = false) :
    (Pattern.seq (.cls p) (plus (.cls q))).longest (x :: u ++ v) = some (u.length + 1) := by
  apply longest_of_append _ (x :: u) v
  · exact (cons_mem_language_seq_cls p _ x u).mpr ⟨hx, (mem_language_plus_cls q u).mpr ⟨hne, hu⟩⟩
  · rintro (_ | ⟨y, t⟩) ht hpre hin
    · exact ht rfl
    · rw [List.cons_append, cons_mem_language_seq_cls, mem_language_plus_cls] at hin
      have hy := hin.2.2 y (by simp)
      obtain ⟨s, rfl⟩ := hpre
      rw [hv y (by simp)] at hy
      cases hy

theorem longest_cls_plus_eq_none (p q : α → Bool) (x : α) (w : List α)
    (h : p x = true → ∀ a ∈ w.head?, q a = false) :
    (Pattern.seq (.cls p) (plus (.cls q))).longest (x :: w) = none := by
  rw [longest_eq_none_iff]
  intro n _ hin
  cases n with
  | zero => simp [nil_mem_language, nullable] at hin
  | succ n =>
      rw [List.take_succ_cons, cons_mem_language_seq_cls, mem_language_plus_cls] at hin
      obtain ⟨hx, hne, hall⟩ := hin
      cases w with
      | nil => simp at hne
      | cons y w =>
          cases n with
          | zero => simp at hne
          | succ n =>
              have hy := hall y (by simp)
              rw [h hx y (by simp)] at hy
              cases hy

/-- A maximal run of one class followed by a maximal run of a disjoint class. -/
theorem longest_star_star (p q : α → Bool) (u t v : List α)
    (hu : ∀ a ∈ u, p a = true) (ht : ∀ a ∈ t, q a = true)
    (hpq : ∀ a, q a = true → p a = false)
    (hv : ∀ a ∈ v.head?, q a = false ∧ (t = [] → p a = false)) :
    (Pattern.seq (.star (.cls p)) (.star (.cls q))).longest (u ++ t ++ v)
      = some (u.length + t.length) := by
  have hlang : ∀ w, w ∈ (Pattern.seq (.star (.cls p)) (.star (.cls q))).language ↔
      ∃ a, (∀ x ∈ a, p x = true) ∧ ∃ b, (∀ x ∈ b, q x = true) ∧ a ++ b = w := by
    intro w
    rw [language, Language.mem_mul]
    simp only [mem_language_star_cls]
  rw [← List.length_append]
  apply longest_of_append
  · exact (hlang _).mpr ⟨u, hu, t, ht, rfl⟩
  · rintro (_ | ⟨y, s⟩) hs hpre hin
    · exact hs rfl
    · obtain ⟨r, rfl⟩ := hpre
      obtain ⟨hq, hp⟩ := hv y (by simp)
      obtain ⟨a, ha, b, hb, hab⟩ := (hlang _).mp hin
      have hy : y ∉ b := fun h => by simp [hb y h] at hq
      have hya : p y = true := by
        have : y ∈ a ++ b := by simp [hab]
        exact ha y ((List.mem_append.mp this).resolve_right hy)
      cases t with
      | nil => simp [hp rfl] at hya
      | cons z t =>
          have hz : z ∉ a := fun h => by
            have := ha z h
            rw [hpq z (ht z (by simp))] at this
            cases this
          -- the first run cannot reach `z`, so `y` would have to be in the second one
          rcases List.append_eq_append_iff.mp (hab.trans (List.append_assoc u (z :: t) (y :: s)))
            with ⟨c, rfl, rfl⟩ | ⟨c, rfl, hc⟩
          · exact hy (by simp)
          · cases c with
            | nil =>
                rw [List.nil_append] at hc
                exact hy (by simp [← hc])
            | cons w c =>
                obtain ⟨rfl, -⟩ := List.cons.inj hc
                exact hz (by simp)

end Pattern
end Flex
