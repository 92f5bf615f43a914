import Deepstream.Lockstep

/-!
The results of `parser::execute` tile the input.

Whenever the parser expects a header, the locations in its two lists cover what
was read, each byte once. A round appends the next stretch to one of the lists.
-/

namespace Deepstream

/-- The positions of a location -/
def Location.span (l : Location) : Set Nat :=
  Set.Ico l.offset (l.offset + l.size)

/-- Two lists of locations that share the positions before `k` between them. -/
structure Tiles (first second : List Location) (k : Nat) : Prop where
  nonempty : ∀ l ∈ first ++ second, 0 < l.size
  disjoint : (first ++ second).Pairwise fun l l' => Disjoint l.span l'.span
  increasing : first.Pairwise (·.offset < ·.offset) ∧ second.Pairwise (·.offset < ·.offset)
  cover : ∀ i, (∃ l ∈ first ++ second, i ∈ l.span) ↔ i < k

namespace Tiles
variable {first second : List Location} {k : Nat}

theorem nil : Tiles [] [] 0 where
  nonempty := by simp
  disjoint := .nil
  increasing := ⟨.nil, .nil⟩
  cover := by simp

theorem swap (h : Tiles first second k) : Tiles second first k where
  nonempty l hl := h.nonempty l (by rwa [List.mem_append, or_comm, ← List.mem_append] at hl)
  disjoint := (List.pairwise_append_comm fun hdisjoint => hdisjoint.symm).mp h.disjoint
  increasing := h.increasing.symm
  cover i := by
    rw [← h.cover]
    simp [or_comm]

theorem lt_of_mem (h : Tiles first second k) {l : Location} (hl : l ∈ first ++ second) {i : Nat}
    (hi : i ∈ l.span) : i < k :=
  (h.cover i).mp ⟨l, hl, hi⟩

theorem offset_lt (h : Tiles first second k) {l : Location} (hl : l ∈ first ++ second) :
    l.offset < k :=
  h.lt_of_mem hl ⟨le_rfl, Nat.lt_add_of_pos_right (h.nonempty l hl)⟩

/-- The next stretch is appended to the second list. -/
theorem append_second (h : Tiles first second k) {l : Location} (hoffset : l.offset = k)
    (hsize : 0 < l.size) : Tiles first (second ++ [l]) (l.offset + l.size) where
  nonempty l' hl' := by
    rw [← List.append_assoc] at hl'
    cases List.mem_append.mp hl' with
    | inl hmem => exact h.nonempty l' hmem
    | inr hmem =>
        cases List.mem_singleton.mp hmem
        exact hsize
  disjoint := by
    rw [← List.append_assoc, List.pairwise_append]
    refine ⟨h.disjoint, List.pairwise_singleton .., fun l' hl' l'' hl'' => ?_⟩
    cases List.mem_singleton.mp hl''
    rw [Set.disjoint_left]
    intro i hi hi'
    have hlt : i < k := h.lt_of_mem hl' hi
    exact absurd hi'.1 (by omega)
  increasing := by
    refine ⟨h.increasing.1, List.pairwise_append.mpr
      ⟨h.increasing.2, List.pairwise_singleton .., fun l' hl' l'' hl'' => ?_⟩⟩
    cases List.mem_singleton.mp hl''
    rw [hoffset]
    exact h.offset_lt (List.mem_append_right _ hl')
  cover i := by
    constructor
    · rintro ⟨l', hl', hi⟩
      rw [← List.append_assoc] at hl'
      cases List.mem_append.mp hl' with
      | inl hmem => exact hoffset ▸ Nat.lt_add_right _ (h.lt_of_mem hmem hi)
      | inr hmem =>
          cases List.mem_singleton.mp hmem
          exact hi.2
    · intro hi
      by_cases hlt : i < k
      · obtain ⟨l', hl', hi'⟩ := (h.cover i).mpr hlt
        exact ⟨l', by rw [← List.append_assoc]; exact List.mem_append_left _ hl', hi'⟩
      · exact ⟨l, by simp, by omega, by omega⟩

theorem append_first (h : Tiles first second k) {l : Location} (hoffset : l.offset = k)
    (hsize : 0 < l.size) : Tiles (first ++ [l]) second (l.offset + l.size) :=
  (h.swap.append_second hoffset hsize).swap

end Tiles

def MessageProxy.location (m : MessageProxy) : Location where
  offset := m.offset
  size := m.size

namespace Parser
open Relation (ReflTransGen)

/-- How the results of `execute` share an input; `k` is where a message begins that the input
does not end. -/
structure TilesInput (x : Buffer) (messages : List MessageProxy) (errors : List Error) (k : Nat) :
    Prop where
  tiles : Tiles (messages.map MessageProxy.location)
    ((errors.filter fun e => e.tag ≠ .unexpectedEof).map Error.location) k
  complete : (∀ e ∈ errors, e.tag ≠ .unexpectedEof) → k = x.length
  once : errors.countP (·.tag = .unexpectedEof) ≤ 1
  unterminated : ∀ e ∈ errors, e.tag = .unexpectedEof →
    errors.getLast? = some e ∧ e.location = ⟨x.length, 1⟩ ∧
      ∃ (before : Buffer) (h : TableHeader) (arguments : List Buffer),
        x = before ++ (h.binary ++ payload arguments) ∧ before.length = k ∧
          ∀ a ∈ arguments, Readable a

theorem tiles_of_grown {first st : State} (hgrown : ReflTransGen Grows first st)
    (h : Tiles (first.messages.map MessageProxy.location) (first.errors.map Error.location)
      first.offset) :
    Tiles (st.messages.map MessageProxy.location) (st.errors.map Error.location) st.offset := by
  induction hgrown with
  | refl => exact h
  | tail _ hgrows ih =>
      have hlt := hgrows.lt
      obtain ⟨m, hoffset, hend, hmessages, herrors⟩ | ⟨e, hoffset, hend, -, hmessages, herrors⟩ :=
        hgrows.recorded
      · rw [hmessages, herrors, List.map_append, ← hend]
        exact ih.append_first hoffset (by change 0 < m.size; omega)
      · rw [hmessages, herrors, List.map_append, ← hend]
        exact ih.append_second hoffset (by omega)

theorem tag_of_grown {first st : State} (hgrown : ReflTransGen Grows first st)
    (h : first.errors = []) : ∀ e ∈ st.errors, e.tag ≠ .unexpectedEof := by
  induction hgrown with
  | refl =>
      rw [h]
      exact fun e he => absurd he List.not_mem_nil
  | tail _ hgrows ih =>
      obtain ⟨m, -, -, -, herrors⟩ | ⟨e, -, -, htag, -, herrors⟩ := hgrows.recorded
      · rwa [herrors]
      · rw [herrors]
        intro e' he'
        cases List.mem_append.mp he' with
        | inl hmem => exact ih e' hmem
        | inr hmem =>
            cases List.mem_singleton.mp hmem
            exact htag

/-- Where the parser expects a header its lists tile what was read. -/
theorem tiles_of_start {x : Buffer} {st : State}
    (hgrown : ReflTransGen Grows (Driver.start x).parser st) :
    Tiles (st.messages.map MessageProxy.location) (st.errors.map Error.location) st.offset ∧
      ∀ e ∈ st.errors, e.tag ≠ .unexpectedEof :=
  ⟨tiles_of_grown hgrown .nil, tag_of_grown hgrown rfl⟩

theorem filter_errors {errors : List Error} (h : ∀ e ∈ errors, e.tag ≠ .unexpectedEof) :
    (errors.filter fun e => e.tag ≠ .unexpectedEof) = errors :=
  List.filter_eq_self.mpr fun e he => decide_eq_true (h e he)

theorem tilesInput_complete {x : Buffer} {st : State}
    (hgrown : ReflTransGen Grows (Driver.start x).parser st) (hat : At x [] st) :
    TilesInput x st.messages st.errors x.length := by
  obtain ⟨htiles, htags⟩ := tiles_of_start hgrown
  refine ⟨?_, fun _ => rfl, ?_, fun e he heof => absurd heof (htags e he)⟩
  · rw [filter_errors htags, ← hat.offset]
    exact htiles
  · rw [List.countP_eq_zero.mpr]
    · exact Nat.zero_le 1
    · exact fun e he heof => htags e he (of_decide_eq_true heof)

theorem tilesInput_unterminated {x before : Buffer} {st : State} {h : TableHeader}
    {arguments : List Buffer} (hgrown : ReflTransGen Grows (Driver.start x).parser st)
    (hx : x = before ++ (h.binary ++ payload arguments))
    (hat : At before (h.binary ++ payload arguments) st) (hread : ∀ a ∈ arguments, Readable a) :
    TilesInput x st.messages (st.errors ++ [⟨⟨x.length, 1⟩, .unexpectedEof⟩]) before.length := by
  obtain ⟨htiles, htags⟩ := tiles_of_start hgrown
  refine ⟨?_, fun hnone => absurd rfl (hnone _ (List.mem_append_right _ (List.mem_singleton_self _))),
    ?_, fun e he heof => ?_⟩
  · rw [List.filter_append, filter_errors htags, ← hat.offset]
    simpa using htiles
  · rw [List.countP_append, List.countP_eq_zero.mpr]
    · rfl
    · exact fun e he heof => htags e he (of_decide_eq_true heof)
  · cases List.mem_append.mp he with
    | inl hmem => exact absurd heof (htags e hmem)
    | inr hmem =>
        cases List.mem_singleton.mp hmem
        exact ⟨List.getLast?_concat, rfl, before, h, arguments, hx, rfl, hread⟩

theorem execute_tiles_input [Build] (x : Buffer) :
    ∃ messages errors k, execute (x ++ [0, 0]) = .ok (messages, errors) ∧
      TilesInput x messages errors k := by
  obtain ⟨d, -, ⟨-, st, began, hexpects, hhandle⟩, hexecute⟩ := exists_finished x
  generalize d.parser = parser at hhandle hexecute
  cases hexpects with
  | header _ hat htok hgrown =>
      rw [handleToken_eof_header hat htok] at hhandle
      cases hhandle
      exact ⟨st.messages, st.errors, x.length, hexecute, tilesInput_complete hgrown hat⟩
  | message st h arguments before hx hat hread hgrown =>
      rw [List.append_nil] at hat
      have hlength : (st.reading h arguments).offset = x.length := by
        rw [hx, List.length_append, ← hat.offset]
        rfl
      rw [handleToken_eof_payload h arguments hat, hlength] at hhandle
      cases hhandle
      exact ⟨_, _, _, hexecute, tilesInput_unterminated hgrown hx hat hread⟩

end Parser
end Deepstream
