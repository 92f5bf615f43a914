import Deepstream.Delimited
import Deepstream.Lexer
import Deepstream.MessageBuilder

/-!
The reference grammar of a batch of messages.

A sentence is a table header with as many readable arguments as the header
allows. A batch is cut after every record separator, and the pieces that are
the text of a sentence are its messages. Nothing here mentions how the lexer or
the parser get there.
-/

namespace Deepstream

/-- A non-empty argument without separators. -/
def Readable (arg : Buffer) : Prop :=
  arg ≠ [] ∧ asciiRecordSeparator ∉ arg ∧ asciiUnitSeparator ∉ arg

instance (arg : Buffer) : Decidable (Readable arg) :=
  inferInstanceAs (Decidable (_ ∧ _ ∧ _))

structure Sentence where
  header : TableHeader
  arguments : List Buffer
  readable : ∀ a ∈ arguments, Readable a
  allowed : header.Allows arguments.length

def Sentence.text (s : Sentence) : Buffer :=
  serialize s.header.binary s.arguments

open Classical in
/-- The pieces that are sentences, in order and with their offsets, in a batch that
begins at an offset. -/
noncomputable def referencePieces (offset : Nat) (x : Buffer) : List (Nat × Buffer) :=
  (Delimited.located offset (Delimited.pieces asciiRecordSeparator x)).filter
    fun q => ∃ s : Sentence, s.text = q.2

/-- A batch in which nothing has to be skipped. -/
def IsBatch (x : Buffer) : Prop :=
  ∃ ss : List Sentence, x = ss.flatMap Sentence.text

/-- The arguments of a message as they stand behind its header. -/
def payload (arguments : List Buffer) : Buffer :=
  arguments.flatMap (asciiUnitSeparator :: ·)

theorem serialize_eq (header : Buffer) (arguments : List Buffer) :
    serialize header arguments = header ++ payload arguments ++ [asciiRecordSeparator] :=
  rfl

theorem payload_append (as bs : List Buffer) : payload (as ++ bs) = payload as ++ payload bs := by
  simp [payload]

theorem payload_cons (a : Buffer) (as : List Buffer) :
    payload (a :: as) = asciiUnitSeparator :: a ++ payload as :=
  List.flatMap_cons ..

theorem length_le_payload (arguments : List Buffer) :
    arguments.length ≤ (payload arguments).length := by
  induction arguments with
  | nil => exact Nat.zero_le _
  | cons a as ih =>
      simp only [payload_cons, List.length_cons, List.length_append]
      omega

/-- A text at which no further argument begins, and which does not continue the last one. -/
def Stops (arguments : List Buffer) (rest : Buffer) : Prop :=
  (arguments ≠ [] → ∀ c ∈ rest.head?, Lexer.isNs c = false) ∧
    ∀ c t, rest = asciiUnitSeparator :: c :: t → Lexer.isNs c = false

theorem isNs_of_readable (a : Buffer) (ha : Readable a) : ∀ c ∈ a, Lexer.isNs c = true := by
  intro c hc
  have hms : c ≠ 0x1e := by
    rintro rfl
    exact ha.2.1 hc
  have hmps : c ≠ 0x1f := by
    rintro rfl
    exact ha.2.2 hc
  simp [Lexer.isNs, hms, hmps]

theorem readable_of_isNs (a : Buffer) (hne : a ≠ []) (ha : ∀ c ∈ a, Lexer.isNs c = true) :
    Readable a :=
  ⟨hne, fun h => absurd (ha _ h) (by decide), fun h => absurd (ha _ h) (by decide)⟩

theorem stops_separator (arguments : List Buffer) (rest : Buffer) :
    Stops arguments (asciiRecordSeparator :: rest) := by
  refine ⟨fun _ c hc => ?_, fun c t h => ?_⟩
  · obtain rfl : asciiRecordSeparator = c := by simpa using hc
    decide
  · cases h

/-- Arguments are read greedily: every text has a longest payload in front. -/
theorem exists_payload (x : Buffer) :
    ∃ arguments rest, x = payload arguments ++ rest ∧ (∀ a ∈ arguments, Readable a) ∧
      Stops arguments rest := by
  induction hn : x.length using Nat.strong_induction_on generalizing x with
  | _ n ih =>
      by_cases hstop : ∃ c t, x = asciiUnitSeparator :: c :: t ∧ Lexer.isNs c = true
      · obtain ⟨c, t, rfl, hc⟩ := hstop
        have hsplit := List.takeWhile_append_dropWhile (p := Lexer.isNs) (l := c :: t)
        obtain ⟨as, rest, hx, has, hrest⟩ := ih ((c :: t).dropWhile Lexer.isNs).length
          (by
            have := (List.dropWhile_suffix (l := c :: t) Lexer.isNs).length_le
            simp only [List.length_cons] at hn this ⊢
            omega) ((c :: t).dropWhile Lexer.isNs) rfl
        have hhead : ∀ d ∈ ((c :: t).dropWhile Lexer.isNs).head?, Lexer.isNs d = false := by
          intro d hd
          have := List.head?_dropWhile_not Lexer.isNs (c :: t)
          rw [Option.mem_def.mp hd] at this
          simpa using this
        refine ⟨(c :: t).takeWhile Lexer.isNs :: as, rest, ?_, ?_, ?_, hrest.2⟩
        · rw [payload_cons, List.append_assoc, ← hx, List.cons_append, hsplit]
        · intro a ha
          rcases List.mem_cons.mp ha with rfl | ha
          · apply readable_of_isNs
            · simp [hc]
            · exact fun d hd => List.mem_takeWhile_imp hd
          · exact has a ha
        · intro _ d hd
          cases as with
          | nil => exact hhead d (by rwa [hx])
          | cons a as => exact hrest.1 (List.cons_ne_nil _ _) d hd
      · refine ⟨[], x, rfl, nofun, fun h => (h rfl).elim, fun c t h => ?_⟩
        simpa using fun hc => hstop ⟨c, t, h, hc⟩

theorem head_payload (a : Buffer) (as : List Buffer) (rest : Buffer) (h : Stops (a :: as) rest) :
    ∀ c ∈ (payload as ++ rest).head?, Lexer.isNs c = false := by
  intro c hc
  cases as with
  | nil => exact h.1 (List.cons_ne_nil _ _) c hc
  | cons b bs =>
      obtain rfl : asciiUnitSeparator = c := by simpa [payload_cons] using hc
      decide

private theorem takeWhile_argument (a rest : Buffer) (ha : ∀ c ∈ a, Lexer.isNs c = true)
    (hrest : ∀ c ∈ rest.head?, Lexer.isNs c = false) : (a ++ rest).takeWhile Lexer.isNs = a := by
  rw [List.takeWhile_append_of_pos ha]
  cases rest with
  | nil => simp
  | cons c t => simp [hrest c rfl]

/-- The payload that is read greedily is the only one. -/
theorem payload_unique (as bs : List Buffer) (r t : Buffer) (has : ∀ a ∈ as, Readable a)
    (hbs : ∀ b ∈ bs, Readable b) (hr : Stops as r) (ht : Stops bs t)
    (h : payload as ++ r = payload bs ++ t) : as = bs ∧ r = t := by
  have nothing_left : ∀ (b : Buffer) (bs : List Buffer) (r t : Buffer), Readable b →
      (∀ c t, r = asciiUnitSeparator :: c :: t → Lexer.isNs c = false) →
      r ≠ payload (b :: bs) ++ t := by
    rintro b bs r t hb hr rfl
    obtain ⟨c, b, rfl⟩ := List.exists_cons_of_ne_nil hb.1
    have hc := isNs_of_readable _ hb c List.mem_cons_self
    rw [hr c (b ++ payload bs ++ t) (by simp [payload_cons])] at hc
    cases hc
  induction as generalizing bs with
  | nil =>
      cases bs with
      | nil => exact ⟨rfl, h⟩
      | cons b bs => exact (nothing_left b bs r t (hbs b List.mem_cons_self) hr.2 h).elim
  | cons a as ih =>
      cases bs with
      | nil => exact (nothing_left a as t r (has a List.mem_cons_self) ht.2 h.symm).elim
      | cons b bs =>
          simp only [payload_cons, List.cons_append, List.append_assoc, List.cons.injEq,
            true_and] at h
          have ha := isNs_of_readable a (has a List.mem_cons_self)
          have hb := isNs_of_readable b (hbs b List.mem_cons_self)
          have hab : a = b := by
            rw [← takeWhile_argument a _ ha (head_payload a as r hr), h,
              takeWhile_argument b _ hb (head_payload b bs t ht)]
          subst hab
          obtain ⟨rfl, rfl⟩ := ih bs (fun a ha => has a (List.mem_cons_of_mem _ ha))
            (fun b hb => hbs b (List.mem_cons_of_mem _ hb))
            ⟨fun _ => hr.1 (List.cons_ne_nil _ _), hr.2⟩
            ⟨fun _ => ht.1 (List.cons_ne_nil _ _), ht.2⟩ (List.append_cancel_left h)
          exact ⟨rfl, rfl⟩

/-- No header continues another one with a separator. -/
theorem header_unique (h h' : TableHeader) (c : UInt8) (t : Buffer)
    (hc : c = asciiUnitSeparator ∨ c = asciiRecordSeparator) (hpre : h.binary ++ c :: t <+: h'.binary) :
    False := by
  have table : ∀ a ∈ tableHeaders, ∀ b ∈ tableHeaders,
      ¬(a.binary ++ [asciiUnitSeparator]) <+: b.binary ∧
        ¬(a.binary ++ [asciiRecordSeparator]) <+: b.binary := by
    decide
  have hsep : h.binary ++ [c] <+: h'.binary :=
    (List.prefix_append_right_inj _).mpr ⟨t, rfl⟩ |>.trans hpre
  obtain ⟨hus, hrs⟩ := table h (mem_tableHeaders h) h' (mem_tableHeaders h')
  rcases hc with rfl | rfl
  · exact hus hsep
  · exact hrs hsep

theorem text_eq (s : Sentence) :
    s.text = s.header.binary ++ payload s.arguments ++ [asciiRecordSeparator] :=
  rfl

/-- What follows the header of a sentence begins with a separator. -/
theorem exists_text (s : Sentence) (rest : Buffer) :
    ∃ c t, (c = asciiUnitSeparator ∨ c = asciiRecordSeparator) ∧
      s.text ++ rest = s.header.binary ++ c :: t := by
  rw [text_eq]
  cases s.arguments with
  | nil => exact ⟨_, rest, .inr rfl, by simp [payload]⟩
  | cons a as => exact ⟨_, _, .inl rfl, by simp [payload_cons]; rfl⟩

/-- The header of a sentence is the longest header the text begins with. -/
theorem header_of_text (s : Sentence) (h : TableHeader) (rest x : Buffer)
    (hx : s.text ++ rest = h.binary ++ x)
    (hmax : ∀ h' : TableHeader, h'.binary <+: h.binary ++ x →
      h'.binary.length ≤ h.binary.length) : s.header = h := by
  obtain ⟨c, t, hc, htext⟩ := exists_text s rest
  have hpre : s.header.binary <+: h.binary ++ x := ⟨c :: t, by rw [← hx, htext]⟩
  obtain ⟨u, hu⟩ := List.prefix_of_prefix_length_le hpre (List.prefix_append _ _)
    (hmax s.header hpre)
  cases u with
  | nil => exact Lexer.binary_injective _ _ (by simpa using hu)
  | cons d u =>
      refine (header_unique s.header h c u hc ?_).elim
      rw [htext, ← hu, List.append_assoc] at hx
      have := List.append_cancel_left hx
      simp only [List.cons_append, List.cons.injEq] at this
      rw [this.1, hu]

theorem header_longest (s : Sentence) (rest : Buffer) (h : TableHeader)
    (hpre : h.binary <+: s.text ++ rest) : h.binary.length ≤ s.header.binary.length := by
  obtain ⟨c, t, hc, htext⟩ := exists_text s rest
  rw [htext] at hpre
  by_contra hlt
  obtain ⟨u, hu⟩ := List.prefix_of_prefix_length_le (List.prefix_append s.header.binary (c :: t))
    hpre (by omega)
  cases u with
  | nil =>
      rw [List.append_nil] at hu
      exact hlt (by rw [hu])
  | cons d u =>
      rw [← hu, List.prefix_append_right_inj] at hpre
      obtain ⟨rfl, -⟩ := List.cons_prefix_cons.mp hpre
      exact header_unique s.header h d u hc (by rw [hu])

/-- Sentences are read back from what they begin: the encoding is prefix-free. -/
theorem text_append_unique (s : Sentence) (h : TableHeader) (arguments : List Buffer)
    (rest after : Buffer) (hread : ∀ a ∈ arguments, Readable a) (hstop : Stops arguments after)
    (hx : s.text ++ rest = h.binary ++ (payload arguments ++ after))
    (hmax : ∀ h' : TableHeader, h'.binary <+: h.binary ++ (payload arguments ++ after) →
      h'.binary.length ≤ h.binary.length) :
    s.header = h ∧ s.arguments = arguments ∧ after = asciiRecordSeparator :: rest := by
  have hheader := header_of_text s h rest _ hx hmax
  subst hheader
  rw [text_eq, List.append_assoc, List.append_assoc, List.singleton_append] at hx
  obtain ⟨hargs, hafter⟩ := payload_unique s.arguments arguments _ after s.readable hread
    (stops_separator _ _) hstop (List.append_cancel_left hx)
  exact ⟨rfl, hargs, hafter.symm⟩

theorem not_mem_payload (arguments : List Buffer) (h : ∀ a ∈ arguments, Readable a) :
    asciiRecordSeparator ∉ payload arguments := by
  simp only [payload, List.mem_flatMap, List.mem_cons, not_exists, not_and, not_or]
  exact fun a ha => ⟨by decide, (h a ha).2.1⟩

/-- Every sentence is one piece. -/
theorem text_is_piece (s : Sentence) :
    ∃ u, asciiRecordSeparator ∉ u ∧ s.text = u ++ [asciiRecordSeparator] := by
  refine ⟨s.header.binary ++ payload s.arguments, ?_, rfl⟩
  rw [List.mem_append, not_or]
  exact ⟨Lexer.not_mem_binary s.header, not_mem_payload _ s.readable⟩

theorem text_ne_nil (s : Sentence) : s.text ≠ [] := by
  simp [text_eq]

theorem text_injective (s s' : Sentence) (h : s.text = s'.text) :
    s.header = s'.header ∧ s.arguments = s'.arguments := by
  have hx : s.text ++ [] = s'.header.binary ++
      (payload s'.arguments ++ [asciiRecordSeparator]) := by
    rw [List.append_nil, h, text_eq, List.append_assoc]
  obtain ⟨hheader, harguments, -⟩ := text_append_unique s s'.header s'.arguments [] _ s'.readable
    (stops_separator _ []) hx fun h' hpre =>
      header_longest s' [] h' (by simpa [text_eq] using hpre)
  exact ⟨hheader, harguments⟩

/-- A stretch no sentence begins with, up to the separators behind it. -/
structure Broken (first rest : Buffer) : Prop where
  no_sentence : ∀ (s : Sentence) (r : Buffer), first ++ rest ≠ s.text ++ r
  ends : ∃ text separators, first = text ++ separators ∧ asciiRecordSeparator ∉ text ∧
    (∀ c ∈ separators, c = asciiRecordSeparator) ∧ (separators = [] → rest = [])

theorem referencePieces_text (offset : Nat) (s : Sentence) (rest : Buffer) :
    referencePieces offset (s.text ++ rest)
      = (offset, s.text) :: referencePieces (offset + s.text.length) rest := by
  obtain ⟨u, hu, htext⟩ := text_is_piece s
  have hcut : Delimited.pieces asciiRecordSeparator (s.text ++ rest)
      = s.text :: Delimited.pieces asciiRecordSeparator rest := by
    rw [htext, List.append_assoc, List.singleton_append, Delimited.pieces_append _ u rest hu]
  rw [referencePieces, hcut, Delimited.located, List.filter_cons_of_pos (by simp)]
  rfl

theorem referencePieces_skip (offset : Nat) (u rest : Buffer) (hu : asciiRecordSeparator ∉ u)
    (hno : ∀ s : Sentence, s.text ≠ u ++ [asciiRecordSeparator]) :
    referencePieces offset (u ++ asciiRecordSeparator :: rest)
      = referencePieces (offset + (u.length + 1)) rest := by
  rw [referencePieces, Delimited.pieces_append _ u rest hu, Delimited.located,
    List.filter_cons_of_neg (by simpa using hno)]
  simp [referencePieces]

theorem text_ne_separator (s : Sentence) (u : Buffer)
    (hu : ∀ c ∈ u, c = asciiRecordSeparator) : s.text ≠ u := by
  intro h
  obtain ⟨c, t, hbin⟩ := List.exists_cons_of_length_pos (Lexer.binary_length_pos s.header)
  have hc := hu c (by rw [← h, text_eq, hbin]; simp)
  exact Lexer.not_mem_binary s.header (by rw [hbin, hc]; exact List.mem_cons_self)

theorem referencePieces_separators (offset : Nat) (separators rest : Buffer)
    (h : ∀ c ∈ separators, c = asciiRecordSeparator) :
    referencePieces offset (separators ++ rest)
      = referencePieces (offset + separators.length) rest := by
  induction separators generalizing offset with
  | nil => rfl
  | cons c separators ih =>
      rw [h c List.mem_cons_self, List.cons_append]
      have hskip := referencePieces_skip offset [] (separators ++ rest) List.not_mem_nil
        fun s => text_ne_separator s _ (by simp)
      rw [List.nil_append] at hskip
      rw [hskip, ih _ fun d hd => h d (List.mem_cons_of_mem _ hd), List.length_cons]
      congr 1
      simp only [List.length_nil]
      omega

theorem referencePieces_broken (offset : Nat) (first rest : Buffer) (h : Broken first rest) :
    referencePieces offset (first ++ rest) = referencePieces (offset + first.length) rest := by
  obtain ⟨text, separators, rfl, htext, hseparators, hend⟩ := h.ends
  cases separators with
  | nil =>
      rw [hend rfl, List.append_nil, List.append_nil, referencePieces, referencePieces,
        Delimited.pieces_of_not_mem _ text htext]
      rfl
  | cons c separators =>
      obtain rfl := hseparators c List.mem_cons_self
      have hno : ∀ s : Sentence, s.text ≠ text ++ [asciiRecordSeparator] := fun s hs =>
        h.no_sentence s (separators ++ rest) (by simp [hs])
      rw [List.append_assoc, List.cons_append, referencePieces_skip _ text _ htext hno,
        referencePieces_separators _ separators rest fun d hd =>
          hseparators d (List.mem_cons_of_mem _ hd)]
      congr 1
      simp only [List.length_append, List.length_cons]
      omega

theorem isBatch_text (s : Sentence) (rest : Buffer) : IsBatch (s.text ++ rest) ↔ IsBatch rest := by
  rw [IsBatch, Delimited.eq_flatMap_iff asciiRecordSeparator _ text_is_piece s.text rest
    (text_is_piece s)]
  exact ⟨fun h => h.2, fun h => ⟨⟨s, rfl⟩, h⟩⟩

theorem not_isBatch_broken (first rest : Buffer) (hne : first ≠ []) (h : Broken first rest) :
    ¬IsBatch (first ++ rest) := by
  rintro ⟨ss, hss⟩
  cases ss with
  | nil => exact hne (List.append_eq_nil_iff.mp hss).1
  | cons s ss => exact h.no_sentence s (ss.flatMap Sentence.text) hss

end Deepstream
