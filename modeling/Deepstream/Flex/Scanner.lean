import Deepstream.Flex.Pattern

/-!
A scanner in the sense of the flex manual: start conditions, longest match with
the first rule on ties, `yymore`, `yyless` and end-of-file rules.

The scanner's text at an end of file ends with the end-of-buffer letter, which
is never part of the input; `yyless` can hand it back like any other letter.
-/

namespace Flex

variable {α κ τ : Type}

/-- What an action does: `BEGIN`, `yymore`, `yyless`, a returned token and
`yyterminate`. -/
structure Action (κ τ : Type) where
  start : Option κ := none
  more : Bool := false
  less : Option Nat := none
  result : Option τ := none
  terminate : Bool := false

/-- A rule of one exclusive start condition. -/
structure Rule (α κ τ : Type) where
  start : κ
  pattern : Pattern α
  action : Action κ τ

structure Spec (α κ τ : Type) where
  rules : List (Rule α κ τ)
  eof : κ → Action κ τ
  eob : α

/-- `kept` is the text `yymore` retained, `rest` the input not yet read. -/
structure Scanner (α κ : Type) where
  start : κ
  kept : List α
  rest : List α

/-- The longest match among the rules of a start condition, the first rule on ties. -/
def select [DecidableEq κ] : List (Rule α κ τ) → κ → List α → Option (Nat × Action κ τ)
  | [], _, _ => none
  | r :: rules, c, input =>
      match (if r.start = c then r.pattern.longest input else none), select rules c input with
      | none, later => later
      | some n, none => some (n, r.action)
      | some n, some (m, act) => if m ≤ n then some (n, r.action) else some (m, act)

/-- Run an action on the text of its match; `unread` follows the match. -/
def Action.run (act : Action κ τ) (s : Scanner α κ) (text unread : List α) :
    Option (τ × List α) × Option (Scanner α κ) :=
  let shown := match act.less with
    | none => text
    | some n => text.take n
  let back := text.drop shown.length
  let next : Scanner α κ :=
    { start := act.start.getD s.start
      kept := if act.more then shown else []
      rest := back ++ unread }
  (act.result.map fun t => (t, shown), if act.terminate then none else some next)

theorem Action.run_of_less_none (act : Action κ τ) (s : Scanner α κ) (text unread : List α)
    (hless : act.less = none) :
    act.run s text unread =
      (act.result.map fun t => (t, text),
        if act.terminate then none
        else some ⟨act.start.getD s.start, if act.more then text else [], unread⟩) := by
  simp [run, hless]

/-- One match. Without a matching rule flex's default rule drops one letter. At the
end of the input the text ends with the end-of-buffer letter, and what `yyless`
hands back is read again up to that letter. -/
def step [DecidableEq κ] (spec : Spec α κ τ) (s : Scanner α κ) :
    Option (τ × List α) × Option (Scanner α κ) :=
  match s.rest with
  | [] =>
      let (out, next) := (spec.eof s.start).run s (s.kept ++ [spec.eob]) []
      (out, next.map fun s' => { s' with rest := s'.rest.dropLast })
  | x :: xs =>
      match select spec.rules s.start (x :: xs) with
      | some (n, act) => act.run s (s.kept ++ (x :: xs).take n) ((x :: xs).drop n)
      | none => (none, some { s with kept := [], rest := xs })

/-- The tokens up to `yyterminate`, each with its text; `none` when `fuel` matches
do not get there. -/
def tokens [DecidableEq κ] (spec : Spec α κ τ) :
    Nat → Scanner α κ → Option (List (τ × List α))
  | 0, _ => none
  | fuel + 1, s =>
      match step spec s with
      | (out, none) => some out.toList
      | (out, some s') => (tokens spec fuel s').map (out.toList ++ ·)

theorem tokens_of_step [DecidableEq κ] (spec : Spec α κ τ) (s s' : Scanner α κ)
    (out : Option (τ × List α)) (later : List (τ × List α)) (fuel : Nat)
    (hstep : step spec s = (out, some s')) (hlater : tokens spec fuel s' = some later) :
    tokens spec (fuel + 1) s = some (out.toList ++ later) := by
  simp only [tokens, hstep, hlater, Option.map_some]

/-- `k` matches in a row, none of them the last one. -/
inductive Steps [DecidableEq κ] (spec : Spec α κ τ) :
    Nat → Scanner α κ → List (τ × List α) → Scanner α κ → Prop where
  | refl (s : Scanner α κ) : Steps spec 0 s [] s
  | head {k : Nat} {s s' s'' : Scanner α κ} {out : Option (τ × List α)}
      {later : List (τ × List α)} (hstep : step spec s = (out, some s'))
      (hlater : Steps spec k s' later s'') : Steps spec (k + 1) s (out.toList ++ later) s''

theorem Steps.trans [DecidableEq κ] {spec : Spec α κ τ} {k n : Nat} {s s' s'' : Scanner α κ}
    {first later : List (τ × List α)} (h : Steps spec k s first s')
    (hlater : Steps spec n s' later s'') : Steps spec (k + n) s (first ++ later) s'' := by
  induction h with
  | refl s => simpa using hlater
  | head hstep _ ih =>
      rw [Nat.add_right_comm, List.append_assoc]
      exact .head hstep (ih hlater)

theorem tokens_of_steps [DecidableEq κ] (spec : Spec α κ τ) (k n : Nat) (s s' : Scanner α κ)
    (first later : List (τ × List α)) (h : Steps spec k s first s')
    (hlater : tokens spec n s' = some later) : tokens spec (k + n) s = some (first ++ later) := by
  induction h with
  | refl s => simpa using hlater
  | head hstep _ ih =>
      rw [Nat.add_right_comm, List.append_assoc]
      exact tokens_of_step spec _ _ _ _ _ hstep (ih hlater)

theorem tokens_of_terminate [DecidableEq κ] (spec : Spec α κ τ) (s : Scanner α κ)
    (out : Option (τ × List α)) (fuel : Nat) (hstep : step spec s = (out, none)) :
    tokens spec (fuel + 1) s = some out.toList := by
  simp only [tokens, hstep]

section Select
variable [DecidableEq κ]

theorem select_eq_none_iff (rules : List (Rule α κ τ)) (c : κ) (input : List α) :
    select rules c input = none ↔
      ∀ r ∈ rules, r.start = c → r.pattern.longest input = none := by
  induction rules with
  | nil => simp [select]
  | cons r rules ih =>
      rw [select, List.forall_mem_cons, ← ih]
      by_cases hc : r.start = c
      · cases h : r.pattern.longest input with
        | none => simp [hc]
        | some n =>
            cases select rules c input with
            | none => simp [hc]
            | some later => simp only [hc, ite_true, reduceCtorEq]; split <;> simp
      · simp [hc]

theorem select_append_of_none (rules more : List (Rule α κ τ)) (c : κ) (input : List α)
    (h : select rules c input = none) : select (rules ++ more) c input = select more c input := by
  induction rules with
  | nil => rfl
  | cons r rules ih =>
      have hall := (select_eq_none_iff (r :: rules) c input).mp h
      have hr : (if r.start = c then r.pattern.longest input else none) = none := by
        split
        · exact hall r List.mem_cons_self (by assumption)
        · rfl
      rw [List.cons_append, select, hr]
      exact ih ((select_eq_none_iff rules c input).mpr fun r' hr' =>
        hall r' (List.mem_cons_of_mem _ hr'))

/-- Start conditions are exclusive. -/
theorem select_filter (rules : List (Rule α κ τ)) (c : κ) (input : List α) :
    select (rules.filter fun r => r.start = c) c input = select rules c input := by
  induction rules with
  | nil => rfl
  | cons r rules ih =>
      by_cases hc : r.start = c
      · rw [List.filter_cons_of_pos (by simpa using hc), select, select, ih]
      · rw [List.filter_cons_of_neg (by simpa using hc), select, if_neg hc, ih]

/-- The documented choice: no other rule of the condition matches more, and no
earlier one matches as much. -/
theorem select_eq_some (rules : List (Rule α κ τ)) (c : κ) (input : List α) (n : Nat)
    (act : Action κ τ) (h : select rules c input = some (n, act)) :
    ∃ before r after, rules = before ++ r :: after ∧ r.start = c ∧
      r.pattern.longest input = some n ∧ r.action = act ∧
      (∀ r' ∈ before, r'.start = c → ∀ m, r'.pattern.longest input = some m → m < n) ∧
      (∀ r' ∈ after, r'.start = c → ∀ m, r'.pattern.longest input = some m → m ≤ n) := by
  induction rules generalizing n act with
  | nil => simp [select] at h
  | cons r rules ih =>
      rw [select] at h
      cases hr : (if r.start = c then r.pattern.longest input else none) with
      | none =>
          rw [hr] at h
          obtain ⟨before, r', after, rfl, hc, hlen, hact, hb, ha⟩ := ih n act h
          refine ⟨r :: before, r', after, rfl, hc, hlen, hact, ?_, ha⟩
          rintro r'' (_ | ⟨_, hm⟩) hc'' m hm'
          · simp [hc'', hm'] at hr
          · exact hb r'' hm hc'' m hm'
      | some k =>
          have hc : r.start = c := by
            by_contra hne
            simp [hne] at hr
          rw [if_pos hc] at hr
          rw [if_pos hc, hr] at h
          cases hs : select rules c input with
          | none =>
              rw [hs] at h
              cases h
              refine ⟨[], r, rules, rfl, hc, hr, rfl, by simp, fun r' hr' hc' m hm => ?_⟩
              simp [(select_eq_none_iff rules c input).mp hs r' hr' hc'] at hm
          | some later =>
              obtain ⟨m, act'⟩ := later
              obtain ⟨before, r', after, rfl, hc', hlen, hact, hb, ha⟩ := ih m act' hs
              rw [hs] at h
              by_cases hle : m ≤ k
              · simp only [hle, ite_true, Option.some.injEq, Prod.mk.injEq] at h
                obtain ⟨rfl, rfl⟩ := h
                refine ⟨[], r, _, rfl, hc, hr, rfl, by simp, fun r'' hm'' hc'' j hj => ?_⟩
                rcases List.mem_append.mp hm'' with hm'' | hm''
                · exact (hb r'' hm'' hc'' j hj).le.trans hle
                · rcases List.mem_cons.mp hm'' with rfl | hm''
                  · rw [hlen] at hj
                    cases hj
                    exact hle
                  · exact (ha r'' hm'' hc'' j hj).trans hle
              · simp only [hle, ite_false, Option.some.injEq, Prod.mk.injEq] at h
                obtain ⟨rfl, rfl⟩ := h
                refine ⟨r :: before, r', after, rfl, hc', hlen, hact, ?_, ha⟩
                rintro r'' (_ | ⟨_, hm''⟩) hc'' j hj
                · rw [hr] at hj
                  cases hj
                  omega
                · exact hb r'' hm'' hc'' j hj

/-- The converse: a rule that beats the earlier rules and is not beaten is chosen. -/
theorem select_of_best (before after : List (Rule α κ τ)) (r : Rule α κ τ) (c : κ)
    (input : List α) (n : Nat) (hc : r.start = c) (hn : r.pattern.longest input = some n)
    (hbefore : ∀ r' ∈ before, r'.start = c → ∀ m, r'.pattern.longest input = some m → m < n)
    (hafter : ∀ r' ∈ after, r'.start = c → ∀ m, r'.pattern.longest input = some m → m ≤ n) :
    select (before ++ r :: after) c input = some (n, r.action) := by
  induction before with
  | nil =>
      rw [List.nil_append, select, if_pos hc, hn]
      cases hs : select after c input with
      | none => rfl
      | some later =>
          obtain ⟨m, act⟩ := later
          obtain ⟨_, r', _, rfl, hc', hm, -⟩ := select_eq_some after c input m act hs
          exact if_pos (hafter r' (by simp) hc' m hm)
  | cons r' before ih =>
      rw [List.cons_append, select, ih fun r'' h => hbefore r'' (List.mem_cons_of_mem _ h)]
      cases hr : (if r'.start = c then r'.pattern.longest input else none) with
      | none => rfl
      | some m =>
          have hc' : r'.start = c := by
            by_contra hne
            simp [hne] at hr
          rw [if_pos hc'] at hr
          exact if_neg (Nat.not_le.mpr (hbefore r' List.mem_cons_self hc' m hr))

end Select

section Step
variable [DecidableEq κ] (spec : Spec α κ τ)

/-- A match without `yyless`, in terms of the consumed text and what follows it. -/
theorem step_of_select (c : κ) (kept text after : List α) (act : Action κ τ)
    (hne : text ≠ []) (hless : act.less = none)
    (hselect : select spec.rules c (text ++ after) = some (text.length, act)) :
    step spec ⟨c, kept, text ++ after⟩ =
      (act.result.map fun t => (t, kept ++ text),
        if act.terminate then none
        else some ⟨act.start.getD c, if act.more then kept ++ text else [], after⟩) := by
  obtain ⟨x, xs, rfl⟩ := List.exists_cons_of_ne_nil hne
  rw [List.cons_append] at hselect ⊢
  simp only [step, hselect]
  rw [← List.cons_append, List.take_left, List.drop_left, Action.run_of_less_none _ _ _ _ hless]

end Step
end Flex
