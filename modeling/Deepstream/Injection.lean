import Deepstream.Outgoing
import Deepstream.RoundTrip

/-!
What a receiver reads in a buffer that the client hands to the socket.

An argument may contain record separators, and then its buffer is cut inside of
the argument. Only the first piece of a message and the piece between two
arguments can be a message, because every other piece lacks a unit separator.
-/

namespace Deepstream

open Delimited (pieces)

/-- A receiver reads at most one message in a buffer, and no other than the one built. -/
def OnlyMessage [Build] (buffer : Buffer) (m : MessageBuilder) : Prop :=
  ∃ messages errors, Parser.execute (buffer ++ [0, 0]) = .ok (messages, errors) ∧
    messages.length ≤ 1 ∧ ∀ p ∈ messages, SameMessage p m

/-- The pairs of words that make up a header which needs no argument. -/
def bareHeaders : List (Buffer × Buffer) :=
  [("A", "A"), ("C", "A"), ("C", "CH"), ("C", "PI"), ("C", "PO"), ("C", "REJ"), ("U", "Q")].map
    fun words => (bytes words.1, bytes words.2)

/-- What precedes the first record separator -/
def beginning (a : Buffer) : Buffer :=
  a.takeWhile (· ≠ asciiRecordSeparator)

/-- The last argument of a message is harmless if nothing readable precedes its first record
separator. -/
def CleanArgument (a : Buffer) : Prop :=
  asciiRecordSeparator ∈ a → a.head? = some asciiRecordSeparator

/-- A name without record separator leaves the data to be harmless; otherwise what follows
its last one, with what precedes the first one in the data, must not be a header. -/
def CleanEvent (name data : Buffer) : Prop :=
  if asciiRecordSeparator ∈ name then
    (name.rtakeWhile (· ≠ asciiRecordSeparator), beginning data) ∉ bareHeaders
  else CleanArgument data

instance (a : Buffer) : Decidable (CleanArgument a) :=
  inferInstanceAs (Decidable (_ → _))

instance (name data : Buffer) : Decidable (CleanEvent name data) :=
  inferInstanceAs (Decidable (ite _ _ _))

/-- The message a call of the application asks for, and whether its arguments are clean -/
def Entry.request : Entry → Option (Header × List Buffer)
  | .emit name data => some ({ topic := .event, action := .event }, [name, data])
  | .subscribe name _ => some ({ topic := .event, action := .subscribe }, [name])
  | .unsubscribe name => some ({ topic := .event, action := .unsubscribe }, [name])
  | .unsubscribeId name _ => some ({ topic := .event, action := .unsubscribe }, [name])
  | .listen pattern _ => some ({ topic := .event, action := .listen }, [pattern])
  | .login auth _ => some ({ topic := .auth, action := .request }, [auth])
  | _ => none

def Entry.Clean : Entry → Prop
  | .emit name data => CleanEvent name data
  | .subscribe name _ | .unsubscribe name | .unsubscribeId name _ => CleanArgument name
  | .listen pattern _ => CleanArgument pattern
  | .login auth _ => CleanArgument auth
  | _ => True

theorem unitSeparator_mem_text (s : Sentence) : asciiUnitSeparator ∈ s.text := by
  have table : ∀ h ∈ tableHeaders, asciiUnitSeparator ∈ h.binary := by decide
  rw [text_eq, List.append_assoc]
  exact List.mem_append_left _ (table s.header (mem_tableHeaders _))

section Read
variable [Build] {m : MessageBuilder} {x : Buffer}

omit [Build] in
open Classical in
theorem map_snd_referencePieces : (referencePieces 0 x).map Prod.snd =
    (pieces asciiRecordSeparator x).filter fun p => ∃ s : Sentence, s.text = p := by
  unfold referencePieces
  nth_rewrite 2 [← Delimited.map_snd_located 0 (pieces asciiRecordSeparator x)]
  rw [List.filter_map]
  rfl

/-- Nothing else is read iff every piece that is a message is the one built. -/
theorem onlyMessage_iff (hlength : (referencePieces 0 x).length ≤ 1) :
    OnlyMessage x m ↔ ∀ s : Sentence, s.text ∈ pieces asciiRecordSeparator x →
      m.header = s.header.val ∧ m.arguments = s.arguments := by
  obtain ⟨messages, errors, hexecute, hread, -⟩ := Parser.execute_eq x
  have hmap := map_snd_referencePieces (x := x)
  constructor
  · intro honly s hs
    obtain ⟨messages', errors', hexecute', -, hsame⟩ := honly
    rw [hexecute] at hexecute'
    cases hexecute'
    have hq : s.text ∈ (referencePieces 0 x).map Prod.snd := by
      rw [hmap, List.mem_filter]
      exact ⟨hs, by simp⟩
    obtain ⟨q, hq, hqs⟩ := List.mem_map.mp hq
    obtain ⟨p, hp, hat⟩ := (Parser.exists_of_forall₂ hread).2 q hq
    obtain ⟨s', htext, hreads⟩ := hat.denotes
    obtain ⟨hheader, harguments⟩ := text_injective s' s (htext.trans hqs)
    rw [← hheader, ← harguments]
    exact (hsame p hp).eq hreads
  · intro h
    refine ⟨messages, errors, hexecute, hread.length_eq.trans_le hlength, ?_⟩
    intro p hp
    obtain ⟨q, hq, hat⟩ := (Parser.exists_of_forall₂ hread).1 p hp
    obtain ⟨s, htext, hreads⟩ := hat.denotes
    have hmem := List.mem_map_of_mem (f := Prod.snd) hq
    rw [hmap, List.mem_filter, ← htext] at hmem
    obtain ⟨hheader, harguments⟩ := h s hmem.1
    exact hreads.same hheader harguments

/-- A buffer in which a single piece can be a message -/
theorem onlyMessage_iff_piece {p : Buffer} (before : List Buffer) {rest : List Buffer}
    (hx : pieces asciiRecordSeparator x = before ++ p :: rest)
    (hbefore : ∀ s : Sentence, s.text ∉ before)
    (hrest : ∀ q ∈ rest, asciiUnitSeparator ∉ q) :
    OnlyMessage x m ↔ ∀ s : Sentence, s.text = p →
      m.header = s.header.val ∧ m.arguments = s.arguments := by
  have hafter : ∀ s : Sentence, s.text ∉ rest :=
    fun s hs => hrest _ hs (unitSeparator_mem_text s)
  have hlength : (referencePieces 0 x).length ≤ 1 := by
    classical
    have hnone : ∀ ps : List Buffer, (∀ s : Sentence, s.text ∉ ps) →
        ps.filter (fun p => ∃ s : Sentence, s.text = p) = [] := by
      intro ps hps
      rw [List.filter_eq_nil_iff]
      intro q hq
      simp only [decide_eq_true_eq, not_exists]
      intro s hs
      exact hps s (hs ▸ hq)
    rw [← List.length_map Prod.snd, map_snd_referencePieces, hx, List.filter_append,
      hnone before hbefore, List.filter_cons, hnone rest hafter]
    split <;> simp
  rw [onlyMessage_iff hlength, hx]
  constructor
  · exact fun h s hs => h s (hs ▸ List.mem_append_right _ (List.mem_cons_self ..))
  · intro h s hs
    cases List.mem_append.mp hs with
    | inl hmem => exact absurd hmem (hbefore s)
    | inr hmem =>
        cases List.mem_cons.mp hmem with
        | inl heq => exact h s heq
        | inr hmem => exact absurd hmem (hafter s)

omit [Build] in
/-- What follows a header and a unit separator is the payload of a sentence with the header. -/
theorem Sentence.of_text {s : Sentence} {h : TableHeader} {y : Buffer}
    (heq : s.text = h.binary ++ asciiUnitSeparator :: y) :
    s.header = h ∧ payload s.arguments ++ [asciiRecordSeparator] = asciiUnitSeparator :: y := by
  have hheader : s.header = h := by
    apply header_of_text s h [] (asciiUnitSeparator :: y)
    · rw [List.append_nil, heq]
    · intro h' hpre
      by_contra hlt
      obtain ⟨t, ht⟩ := List.prefix_of_prefix_length_le (List.prefix_append h.binary _) hpre
        (by omega)
      cases t with
      | nil =>
          rw [List.append_nil] at ht
          rw [ht] at hlt
          omega
      | cons c t =>
          rw [← ht, List.prefix_append_right_inj] at hpre
          obtain ⟨rfl, -⟩ := List.cons_prefix_cons.mp hpre
          exact header_unique h h' _ t (.inl rfl) (by rw [ht])
  refine ⟨hheader, ?_⟩
  rw [text_eq, hheader, List.append_assoc] at heq
  exact List.append_cancel_left heq

omit [Build] in
/-- The cut of a last argument: its beginning ends the first piece. -/
theorem pieces_last (u a : Buffer) (hu : asciiRecordSeparator ∉ u)
    (ha : asciiUnitSeparator ∉ a) :
    ∃ rest, pieces asciiRecordSeparator (u ++ a ++ [asciiRecordSeparator]) =
        (u ++ beginning a ++ [asciiRecordSeparator]) :: rest ∧
      ∀ p ∈ rest, asciiUnitSeparator ∉ p := by
  cases Delimited.cut_cases asciiRecordSeparator a with
  | inl hclean =>
      have hbeginning : beginning a = a := by
        apply List.takeWhile_eq_self_iff.mpr
        intro c hc
        simpa using fun heq : c = asciiRecordSeparator => hclean (heq ▸ hc)
      refine ⟨[], ?_, nofun⟩
      rw [hbeginning, Delimited.pieces_append _ _ [] (by simp [hu, hclean])]
      rfl
  | inr hcut =>
      obtain ⟨b, v, hb, rfl⟩ := hcut
      have hbeginning : beginning (b ++ asciiRecordSeparator :: v) = b := by
        unfold beginning
        rw [List.takeWhile_append_of_pos, List.takeWhile_cons_of_neg (by simp), List.append_nil]
        intro c hc
        simpa using fun heq : c = asciiRecordSeparator => hb (heq ▸ hc)
      refine ⟨pieces asciiRecordSeparator (v ++ [asciiRecordSeparator]), ?_, ?_⟩
      · rw [hbeginning, show u ++ (b ++ asciiRecordSeparator :: v) ++ [asciiRecordSeparator] =
          (u ++ b) ++ asciiRecordSeparator :: (v ++ [asciiRecordSeparator]) by simp,
          Delimited.pieces_append _ (u ++ b) _ (by simp [hu, hb])]
      · intro p hp hmem
        have hv := Delimited.mem_of_mem_pieces _ hp hmem
        cases List.mem_append.mp hv with
        | inl hv => exact ha (List.mem_append_right _ (List.mem_cons_of_mem _ hv))
        | inr hv => exact absurd (List.mem_singleton.mp hv) (by decide)

omit [Build] in
theorem cleanArgument_iff (a : Buffer) :
    CleanArgument a ↔ (beginning a ≠ [] → beginning a = a) := by
  unfold CleanArgument beginning
  constructor
  · intro h hne
    apply List.takeWhile_eq_self_iff.mpr
    intro c hc
    by_contra hsep
    have hmem : asciiRecordSeparator ∈ a := by
      have : c = asciiRecordSeparator := by simpa using hsep
      exact this ▸ hc
    cases a with
    | nil => exact hne rfl
    | cons d a =>
        have hd : d = asciiRecordSeparator := by simpa using h hmem
        rw [hd, List.takeWhile_cons_of_neg (by simp)] at hne
        exact hne rfl
  · intro h hmem
    cases a with
    | nil => cases hmem
    | cons d a =>
        by_contra hd
        have hpos : d ≠ asciiRecordSeparator := by simpa using hd
        have heq := h (by rw [List.takeWhile_cons_of_pos (by simpa using hpos)]; simp)
        have := List.mem_takeWhile_imp (heq ▸ hmem)
        simp at this

omit [Build] in
theorem readable_beginning {a : Buffer} (ha : asciiUnitSeparator ∉ a) (hne : beginning a ≠ []) :
    Readable (beginning a) := by
  refine ⟨hne, ?_, fun hmem => ha ((List.takeWhile_prefix _).subset hmem)⟩
  intro hmem
  simpa using List.mem_takeWhile_imp hmem

/-- A message with one argument -/
theorem onlyMessage_argument (h : TableHeader) (harity : h.arity = (1, 1)) (a : Buffer)
    (hheader : m.header = h.val) (harguments : m.arguments = [a]) :
    OnlyMessage (serialize h.binary m.arguments) m ↔ CleanArgument a := by
  have ha : asciiUnitSeparator ∉ a := m.arguments_clean a (by rw [harguments]; simp)
  have hu : asciiRecordSeparator ∉ h.binary ++ [asciiUnitSeparator] := by
    rw [List.mem_append, not_or]
    exact ⟨Lexer.not_mem_binary h, by decide⟩
  obtain ⟨rest, hpieces, hrest⟩ := pieces_last _ a hu ha
  have hx : serialize h.binary m.arguments =
      h.binary ++ [asciiUnitSeparator] ++ a ++ [asciiRecordSeparator] := by
    rw [harguments]
    simp [serialize]
  rw [hx, onlyMessage_iff_piece [] hpieces (fun _ => List.not_mem_nil) hrest, cleanArgument_iff]
  constructor
  · intro honly hne
    have hreadable : Readable (beginning a) := by
      refine ⟨hne, ?_, fun hmem => ha ((List.takeWhile_prefix _).subset hmem)⟩
      intro hmem
      simpa using List.mem_takeWhile_imp hmem
    let s : Sentence := ⟨h, [beginning a], by simpa using hreadable,
      by
        unfold TableHeader.Allows
        rw [harity]
        exact ⟨Nat.le_refl 1, Nat.le_refl 1⟩⟩
    have hsame := (honly s (by simp [s, Sentence.text, serialize])).2
    rw [harguments] at hsame
    exact (List.cons.inj hsame).1.symm
  · intro hclean s hs
    have htext : s.text =
        h.binary ++ asciiUnitSeparator :: (beginning a ++ [asciiRecordSeparator]) := by
      simpa using hs
    obtain ⟨hs_header, hpayload⟩ := Sentence.of_text htext
    have hallowed := s.allowed
    unfold TableHeader.Allows at hallowed
    rw [hs_header, harity] at hallowed
    obtain ⟨b, hb⟩ := List.length_eq_one_iff.mp (Nat.le_antisymm hallowed.2 hallowed.1)
    rw [hb] at hpayload
    have heq : b = beginning a := by simpa [payload] using hpayload
    have hne : beginning a ≠ [] := heq ▸ (s.readable b (by rw [hb]; simp)).1
    rw [hheader, hs_header, harguments, hb, heq, hclean hne]
    exact ⟨rfl, rfl⟩

omit [Build] in
/-- The arguments of an event, from the sentence it would be -/
theorem arguments_of_event {s : Sentence} {h : TableHeader} (harity : h.arity = (2, 2))
    {name data : Buffer} (hname : asciiUnitSeparator ∉ name)
    (heq : s.text = h.binary ++ asciiUnitSeparator ::
      (name ++ asciiUnitSeparator :: (data ++ [asciiRecordSeparator]))) :
    s.header = h ∧ s.arguments = [name, data] := by
  obtain ⟨hheader, hpayload⟩ := Sentence.of_text heq
  have hallowed := s.allowed
  unfold TableHeader.Allows at hallowed
  rw [hheader, harity] at hallowed
  obtain ⟨b, b', hb⟩ := List.length_eq_two.mp (Nat.le_antisymm hallowed.2 hallowed.1)
  have hread := s.readable b (by rw [hb]; simp)
  rw [hb] at hpayload
  have hsplit : b ++ asciiUnitSeparator :: (b' ++ [asciiRecordSeparator]) =
      name ++ asciiUnitSeparator :: (data ++ [asciiRecordSeparator]) := by
    simpa [payload] using hpayload
  have hb_name := Delimited.append_cons_unique _ hread.2.2 hname hsplit
  rw [hb, hb_name.1, List.append_cancel_right hb_name.2]
  exact ⟨hheader, rfl⟩

omit [Build] in
/-- No header that takes two arguments is read with one. -/
theorem text_ne_one_argument {s : Sentence} {h : TableHeader} (harity : h.arity = (2, 2))
    {a : Buffer} (ha : asciiUnitSeparator ∉ a) :
    s.text ≠ h.binary ++ asciiUnitSeparator :: (a ++ [asciiRecordSeparator]) := by
  intro heq
  obtain ⟨hheader, hpayload⟩ := Sentence.of_text heq
  have hallowed := s.allowed
  unfold TableHeader.Allows at hallowed
  rw [hheader, harity] at hallowed
  obtain ⟨b, b', hb⟩ := List.length_eq_two.mp (Nat.le_antisymm hallowed.2 hallowed.1)
  rw [hb] at hpayload
  have hsplit : b ++ asciiUnitSeparator :: (b' ++ [asciiRecordSeparator]) =
      a ++ [asciiRecordSeparator] := by
    simpa [payload] using hpayload
  have hmem : asciiUnitSeparator ∈ a ++ [asciiRecordSeparator] := by
    rw [← hsplit]
    simp
  cases List.mem_append.mp hmem with
  | inl h => exact ha h
  | inr h => exact absurd (List.mem_singleton.mp h) (by decide)

omit [Build] in
/-- A text with one unit separator has it in its header. -/
theorem arguments_of_words {s : Sentence} {k d : Buffer} (hk : asciiUnitSeparator ∉ k)
    (hd : asciiUnitSeparator ∉ d)
    (hs : s.text = k ++ asciiUnitSeparator :: (d ++ [asciiRecordSeparator])) :
    s.arguments = [] ∧ s.header.binary.count asciiUnitSeparator ≤ 1 := by
  have hcount := congrArg (List.count asciiUnitSeparator) hs
  have hheader : 1 ≤ s.header.binary.count asciiUnitSeparator := by
    have table : ∀ h ∈ tableHeaders, 1 ≤ h.binary.count asciiUnitSeparator := by decide
    exact table s.header (mem_tableHeaders _)
  have hpayload : s.arguments.length ≤ (payload s.arguments).count asciiUnitSeparator := by
    generalize s.arguments = arguments
    induction arguments with
    | nil => exact Nat.zero_le _
    | cons a as ih =>
        rw [payload_cons, List.cons_append, List.count_cons_self, List.count_append]
        rw [List.length_cons]
        omega
  have hright : (k ++ asciiUnitSeparator :: (d ++ [asciiRecordSeparator])).count
      asciiUnitSeparator = 1 := by
    rw [List.count_append, List.count_cons_self, List.count_append,
      List.count_eq_zero_of_not_mem hk, List.count_eq_zero_of_not_mem hd]
    decide
  rw [hright, text_eq, List.count_append, List.count_append] at hcount
  exact ⟨List.eq_nil_of_length_eq_zero (by omega), by omega⟩

omit [Build] in
/-- Two words with one unit separator between them are a message iff they are a header that
needs no argument. -/
theorem exists_text_bare (k d : Buffer) (hk : asciiUnitSeparator ∉ k)
    (hd : asciiUnitSeparator ∉ d) :
    (∃ s : Sentence, s.text = k ++ asciiUnitSeparator :: (d ++ [asciiRecordSeparator])) ↔
      (k, d) ∈ bareHeaders := by
  have hbare : ∀ h ∈ tableHeaders, h.Allows 0 → h.binary.count asciiUnitSeparator ≤ 1 →
      ∃ w ∈ bareHeaders, h.binary = w.1 ++ asciiUnitSeparator :: w.2 ∧
        asciiUnitSeparator ∉ w.1 := by
    decide
  have hwords : ∀ w ∈ bareHeaders, ∃ h ∈ tableHeaders, h.Allows 0 ∧
      h.binary = w.1 ++ asciiUnitSeparator :: w.2 := by
    decide
  constructor
  · intro hs
    obtain ⟨s, hs⟩ := hs
    obtain ⟨harguments, hcount⟩ := arguments_of_words hk hd hs
    have hallowed := s.allowed
    rw [harguments] at hallowed
    obtain ⟨w, hw, hbinary, hclean⟩ := hbare s.header (mem_tableHeaders _) hallowed hcount
    have hsplit : w.1 ++ asciiUnitSeparator :: (w.2 ++ [asciiRecordSeparator]) =
        k ++ asciiUnitSeparator :: (d ++ [asciiRecordSeparator]) := by
      rw [← hs, text_eq, harguments, hbinary]
      simp [payload]
    obtain ⟨hfirst, hsecond⟩ := Delimited.append_cons_unique _ hclean hk hsplit
    rwa [← hfirst, ← List.append_cancel_right hsecond]
  · intro hmem
    obtain ⟨h, -, hallows, hbinary⟩ := hwords (k, d) hmem
    refine ⟨⟨h, [], fun _ ha => absurd ha List.not_mem_nil, hallows⟩, ?_⟩
    simp [Sentence.text, serialize, hbinary]

omit [Build] in
/-- What follows the last record separator -/
theorem exists_last {a : Buffer} (hsep : asciiRecordSeparator ∈ a) :
    ∃ k n, asciiRecordSeparator ∉ k ∧ a = n ++ asciiRecordSeparator :: k ∧
      a.rtakeWhile (· ≠ asciiRecordSeparator) = k := by
  obtain ⟨u, v, hreverse, hu⟩ := List.eq_append_cons_of_mem (List.mem_reverse.mpr hsep)
  refine ⟨u.reverse, v.reverse, by simpa using hu, ?_, ?_⟩
  · rw [← List.reverse_reverse a, hreverse]
    simp
  · unfold List.rtakeWhile
    rw [hreverse, List.takeWhile_append_of_pos, List.takeWhile_cons_of_neg (by simp),
      List.append_nil]
    intro c hc
    simpa using fun heq : c = asciiRecordSeparator => hu (heq ▸ hc)

section Event
variable {h : TableHeader} (harity : h.arity = (2, 2)) {name data : Buffer}
  (harguments : m.arguments = [name, data])
include harity harguments

/-- A name without a record separator leaves it to the data. -/
theorem onlyMessage_event_data (hheader : m.header = h.val) (hne : name ≠ [])
    (hsep : asciiRecordSeparator ∉ name) :
    OnlyMessage (serialize h.binary m.arguments) m ↔ CleanArgument data := by
  have hname : asciiUnitSeparator ∉ name := m.arguments_clean name (by rw [harguments]; simp)
  have hdata : asciiUnitSeparator ∉ data := m.arguments_clean data (by rw [harguments]; simp)
  have hu : asciiRecordSeparator ∉ h.binary ++ [asciiUnitSeparator] ++ name ++
      [asciiUnitSeparator] := by
    have hbinary : asciiRecordSeparator ∉ h.binary := Lexer.not_mem_binary h
    have hunit : asciiRecordSeparator ≠ asciiUnitSeparator := by decide
    simp [hbinary, hunit, hsep]
  obtain ⟨rest, hpieces, hrest⟩ := pieces_last _ data hu hdata
  have hx : serialize h.binary m.arguments = h.binary ++ [asciiUnitSeparator] ++ name ++
      [asciiUnitSeparator] ++ data ++ [asciiRecordSeparator] := by
    rw [harguments]
    simp [serialize]
  rw [hx, onlyMessage_iff_piece [] hpieces (fun _ => List.not_mem_nil) hrest, cleanArgument_iff]
  constructor
  · intro honly hne'
    have hreadable : ∀ a ∈ [name, beginning data], Readable a := by
      intro a ha
      cases List.mem_cons.mp ha with
      | inl heq => exact heq ▸ ⟨hne, hsep, hname⟩
      | inr hmem => exact List.mem_singleton.mp hmem ▸ readable_beginning hdata hne'
    let s : Sentence := ⟨h, [name, beginning data], hreadable, by
      unfold TableHeader.Allows
      rw [harity]
      exact ⟨Nat.le_refl 2, Nat.le_refl 2⟩⟩
    have hsame := (honly s (by simp [s, Sentence.text, serialize])).2
    rw [harguments] at hsame
    exact (List.cons.inj (List.cons.inj hsame).2).1.symm
  · intro hclean s hs
    obtain ⟨hs_header, hs_arguments⟩ := arguments_of_event harity hname (by simpa using hs)
    have hne' := (s.readable (beginning data) (by rw [hs_arguments]; simp)).1
    rw [hs_header, hs_arguments, harguments, hclean hne']
    exact ⟨hheader, rfl⟩

/-- A name with record separators may join what follows the last one to the data. -/
theorem onlyMessage_event_name {n k : Buffer} (hk : asciiRecordSeparator ∉ k)
    (hname : name = n ++ asciiRecordSeparator :: k) :
    OnlyMessage (serialize h.binary m.arguments) m ↔ (k, beginning data) ∉ bareHeaders := by
  have hunit : asciiRecordSeparator ≠ asciiUnitSeparator := by decide
  have hname_unit : asciiUnitSeparator ∉ name :=
    m.arguments_clean name (by rw [harguments]; simp)
  have hdata : asciiUnitSeparator ∉ data := m.arguments_clean data (by rw [harguments]; simp)
  have hn_unit : asciiUnitSeparator ∉ n := fun hmem => hname_unit (by rw [hname]; simp [hmem])
  have hk_unit : asciiUnitSeparator ∉ k := fun hmem => hname_unit (by rw [hname]; simp [hmem])
  have hu : asciiRecordSeparator ∉ h.binary ++ [asciiUnitSeparator] := by
    rw [List.mem_append, not_or]
    exact ⟨Lexer.not_mem_binary h, by decide⟩
  have hv : asciiRecordSeparator ∉ k ++ [asciiUnitSeparator] := by
    simp [hk, hunit]
  obtain ⟨rest, hpieces, hrest⟩ := pieces_last _ n hu hn_unit
  obtain ⟨rest', hpieces', hrest'⟩ := pieces_last _ data hv hdata
  have hx : serialize h.binary m.arguments = (h.binary ++ [asciiUnitSeparator] ++ n) ++
      asciiRecordSeparator :: (k ++ [asciiUnitSeparator] ++ data ++ [asciiRecordSeparator]) := by
    rw [harguments, hname]
    simp [serialize]
  have hcut := Delimited.pieces_append_cons asciiRecordSeparator
    (h.binary ++ [asciiUnitSeparator] ++ n)
    (k ++ [asciiUnitSeparator] ++ data ++ [asciiRecordSeparator])
  rw [hpieces, hpieces'] at hcut
  have hbeginning : asciiUnitSeparator ∉ beginning n :=
    fun hmem => hn_unit ((List.takeWhile_prefix _).subset hmem)
  have hbefore : ∀ s : Sentence, s.text ∉
      (h.binary ++ [asciiUnitSeparator] ++ beginning n ++ [asciiRecordSeparator]) :: rest := by
    intro s hs
    cases List.mem_cons.mp hs with
    | inl heq => exact text_ne_one_argument harity hbeginning (by simpa using heq)
    | inr hmem => exact hrest _ hmem (unitSeparator_mem_text s)
  rw [hx, onlyMessage_iff_piece _ hcut hbefore hrest']
  have hdata_unit : asciiUnitSeparator ∉ beginning data :=
    fun hmem => hdata ((List.takeWhile_prefix _).subset hmem)
  rw [← exists_text_bare k (beginning data) hk_unit hdata_unit, not_exists]
  constructor
  · intro honly s hs
    have hsame := (honly s (by simpa using hs)).2
    rw [harguments, (arguments_of_words hk_unit hdata_unit hs).1] at hsame
    cases hsame
  · intro hnone s hs
    exact absurd (by simpa using hs) (hnone s)

end Event

/-- What a call asks for is read alone iff its arguments are clean. -/
theorem onlyMessage_request {history : List Item} {mayUnlisten : Buffer → Prop} {e : Entry}
    {buffer : Buffer} (horigin : Origin mayUnlisten history m.header m.arguments)
    (hrequest : e.request = some (m.header, m.arguments)) (hbinary : m.toBinary = .ok buffer) :
    OnlyMessage buffer m ↔ e.Clean := by
  have hheader : m.header ∈ headers := by
    by_contra hmem
    obtain ⟨f, hf, -⟩ := size_of_not_mem m.header hmem
    unfold MessageBuilder.toBinary MessageBuilder.size at hbinary
    rw [hf] at hbinary
    cases hbinary
  let h : TableHeader := ⟨m.header, hheader⟩
  have hbuffer : buffer = serialize h.binary m.arguments := by
    have hcases := m.toBinary_eq h rfl
    by_cases hsize : m.payloadSize < 2 ^ 31
    · rw [hcases.1 hsize] at hbinary
      exact (Except.ok.inj hbinary).symm
    · cases hcases.2 (Nat.le_of_not_lt hsize) with
      | inl herror => rw [herror] at hbinary; cases hbinary
      | inr herror => rw [herror] at hbinary; cases hbinary
  have hone : ∀ header ∈ [({ topic := .event, action := .subscribe } : Header),
      { topic := .event, action := .unsubscribe }, { topic := .event, action := .listen },
      { topic := .auth, action := .request }], ∀ t ∈ tableHeaders, t.val = header →
        t.arity = (1, 1) := by
    decide
  have hargument : ∀ header ∈ [({ topic := .event, action := .subscribe } : Header),
      { topic := .event, action := .unsubscribe }, { topic := .event, action := .listen },
      { topic := .auth, action := .request }], ∀ a, some (header, [a]) =
        some (m.header, m.arguments) → (OnlyMessage buffer m ↔ CleanArgument a) := by
    intro header hmem a heq
    obtain ⟨hheader, harguments⟩ := Prod.mk.inj (Option.some.inj heq)
    rw [hbuffer]
    exact onlyMessage_argument h (hone header hmem h (mem_tableHeaders h) hheader.symm) a rfl
      harguments.symm
  cases e with
  | emit name data =>
      obtain ⟨hheader, harguments⟩ := Prod.mk.inj (Option.some.inj hrequest)
      have hne : name ≠ [] := by
        rw [← hheader, ← harguments] at horigin
        cases horigin
        assumption
      have harity : h.arity = (2, 2) := by
        have table : ∀ t ∈ tableHeaders, t.val = { topic := .event, action := .event } →
            t.arity = (2, 2) := by decide
        exact table h (mem_tableHeaders h) hheader.symm
      change OnlyMessage buffer m ↔ CleanEvent name data
      unfold CleanEvent
      rw [hbuffer]
      split
      · next hsep =>
          obtain ⟨k, n, hk, hname, hlast⟩ := exists_last hsep
          rw [hlast]
          exact onlyMessage_event_name harity harguments.symm hk hname
      · next hsep => exact onlyMessage_event_data harity harguments.symm rfl hne hsep
  | subscribe name callback => exact hargument _ (by simp) name hrequest
  | unsubscribe name => exact hargument _ (by simp) name hrequest
  | unsubscribeId name id => exact hargument _ (by simp) name hrequest
  | listen pattern callback => exact hargument _ (by simp) pattern hrequest
  | login auth callback => exact hargument _ (by simp) auth hrequest
  | _ => cases hrequest

/-- The headers of the messages that calls of the application ask for -/
def requestHeaders : List Header :=
  [{ topic := .event, action := .event }, { topic := .event, action := .subscribe },
    { topic := .event, action := .unsubscribe }, { topic := .event, action := .listen },
    { topic := .auth, action := .request }]

omit [Build] in
theorem Origin.request {history : List Item} {mayUnlisten : Buffer → Prop} {header : Header}
    {arguments : List Buffer} (h : Origin mayUnlisten history header arguments)
    (hmem : header ∈ requestHeaders) :
    ∃ e, .enter e ∈ history ∧ e.request = some (header, arguments) := by
  cases h with
  | emit name data _ h => exact ⟨_, h, rfl⟩
  | subscribe name callback h => exact ⟨_, h, rfl⟩
  | unsubscribe name h => exact ⟨_, h, rfl⟩
  | unsubscribeId name id h => exact ⟨_, h, rfl⟩
  | listen pattern callback h => exact ⟨_, h, rfl⟩
  | login auth callback h => exact ⟨_, h, rfl⟩
  | _ => exact absurd hmem (by decide)

theorem origin_handed {P : Reentrant.Policy interface} {n : Nat} {uri : Buffer}
    {cfg : Reentrant.Config interface} (hreach : Reaches P n uri cfg) {buffer : Buffer}
    (hmem : (m, buffer) ∈ handed cfg.world) :
    Origin (fun _ => True) cfg.world.trace m.header m.arguments ∧ m.toBinary = .ok buffer :=
  (outgoing_reaches (fun _ _ _ _ _ => trivial) hreach).recorded.sent m buffer (mem_handed.mp hmem)

/-- A buffer that a call of the application leads to is read as its message alone iff the
arguments of the call are clean. -/
theorem onlyMessage_iff_clean (n : Nat) (uri : Buffer) (cfg : Reentrant.Config interface)
    (hreach : Reaches (.any interface) n uri cfg) (m : MessageBuilder) (buffer : Buffer)
    (hmem : (m, buffer) ∈ handed cfg.world) :
    (m.header ∈ requestHeaders →
      ∃ e, .enter e ∈ cfg.world.trace ∧ e.request = some (m.header, m.arguments)) ∧
    ∀ e : Entry, e.request = some (m.header, m.arguments) →
      (OnlyMessage buffer m ↔ e.Clean) := by
  obtain ⟨horigin, hbinary⟩ := origin_handed hreach hmem
  exact ⟨horigin.request, fun e hrequest => onlyMessage_request horigin hrequest hbinary⟩

end Read

/-- The request of a login is read alone. -/
theorem onlyMessage_loggedIn : let _ : Build := release
    ∃ p ∈ handed (after 9 [] loggedIn).world,
      p.1.header = { topic := .auth, action := .request } ∧ OnlyMessage p.2 p.1 := by
  intro _
  have hmem : ({ topic := .auth, action := .request }, [bytes "{}"]) ∈
      (handed (after 9 [] loggedIn).world).map fun p => (p.1.header, p.1.arguments) := by
    decide +kernel
  obtain ⟨⟨m, buffer⟩, hp, heq⟩ := List.mem_map.mp hmem
  obtain ⟨hheader, harguments⟩ := Prod.mk.inj heq
  refine ⟨(m, buffer), hp, hheader, ?_⟩
  have hiff := (onlyMessage_iff_clean 9 [] _ (reaches_after 9 [] _) m buffer hp).2
    (.login (bytes "{}") none)
  rw [hiff (by rw [hheader, harguments]; rfl)]
  change CleanArgument (bytes "{}")
  decide

/-- An event whose name contains a record separator carries a challenge. -/
theorem emit_injects : let _ : Build := release
    ¬∀ cfg : Reentrant.Config interface, Reaches (.any interface) 9 [] cfg →
      ∀ p ∈ handed cfg.world, (∃ e, .enter e ∈ cfg.world.trace ∧
        .leave e (.ok ()) ∈ cfg.world.trace ∧ e.request = some (p.1.header, p.1.arguments)) →
        OnlyMessage p.2 p.1 := by
  intro _ hclaim
  let name := fromHumanReadable (bytes "a+C")
  let emit : Entry := .emit name (bytes "CH")
  let moves := loggedIn ++ [.enter emit, accept]
  have hmem : ({ topic := .event, action := .event }, [name, bytes "CH"]) ∈
      (handed (after 9 [] moves).world).map fun p => (p.1.header, p.1.arguments) := by
    decide +kernel
  obtain ⟨⟨m, buffer⟩, hp, heq⟩ := List.mem_map.mp hmem
  obtain ⟨hheader, harguments⟩ := Prod.mk.inj heq
  have hreach := reaches_after 9 [] moves
  obtain ⟨horigin, hbinary⟩ := origin_handed hreach hp
  have hrequest : emit.request = some (m.header, m.arguments) := by
    rw [hheader, harguments]
    rfl
  have henter : .enter emit ∈ (after 9 [] moves).world.trace :=
    mem_entered.mp (by decide +kernel)
  have hleave : .leave emit (.ok ()) ∈ (after 9 [] moves).world.trace :=
    mem_returned.mp (by decide +kernel)
  have hclean := (onlyMessage_request horigin hrequest hbinary).mp
    (hclaim _ hreach (m, buffer) hp ⟨emit, henter, hleave, hrequest⟩)
  exact absurd (show CleanEvent name (bytes "CH") from hclean) (by decide)

end Deepstream
