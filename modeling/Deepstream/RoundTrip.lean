import Deepstream.ParserCorrect

/-!
The two implementations of `Message` against each other.

Decoding a sequence of built messages gives the sequence back exactly when every
message is well formed. Re-encoding a decoded message goes wrong for every
message that does not begin where the buffer begins, because the proxy copies
from the beginning of the buffer.
-/

namespace Deepstream

/-- The outputs of `to_binary` one after the other. -/
def concatBinary [Build] : List MessageBuilder → Except Failure Buffer
  | [] => .ok []
  | m :: ms => do
      let x ← m.toBinary
      let xs ← concatBinary ms
      return x ++ xs

/-- The arity lies in the header's range and every argument can be delimited. -/
def MessageBuilder.WellFormed [Build] (m : MessageBuilder) : Prop :=
  (∃ range, m.header.numArguments = .ok range ∧
    range.1 ≤ m.arguments.length ∧ m.arguments.length ≤ range.2) ∧
  ∀ a ∈ m.arguments, a ≠ [] ∧ asciiRecordSeparator ∉ a

/-- A decoded message has the header and the arguments of a built one. -/
structure SameMessage [Build] (m : MessageProxy) (b : MessageBuilder) : Prop where
  header : m.header = b.header
  numArguments : m.numArguments = b.arguments.length
  get : ∀ i (hi : i < b.arguments.length), m.get i = .ok b.arguments[i]

/-- A builder and a sentence with the same header and arguments. -/
def Stands (b : MessageBuilder) (s : Sentence) : Prop :=
  b.header = s.header.val ∧ b.arguments = s.arguments

/-- The text `to_binary` writes for a builder. -/
def WrittenAs (b : MessageBuilder) (text : Buffer) : Prop :=
  ∃ h : TableHeader, b.header = h.val ∧ text = serialize h.binary b.arguments

section Decode
variable [Build]

theorem concatBinary_eq (ms : List MessageBuilder) (hheader : ∀ m ∈ ms, m.header ∈ headers)
    (hsize : ∀ m ∈ ms, m.payloadSize < 2 ^ 31) :
    ∃ texts, List.Forall₂ WrittenAs ms texts ∧ concatBinary ms = .ok texts.flatten := by
  induction ms with
  | nil => exact ⟨[], .nil, rfl⟩
  | cons m ms ih =>
      obtain ⟨texts, htexts, hconcat⟩ := ih (fun m hm => hheader m (List.mem_cons_of_mem _ hm))
        (fun m hm => hsize m (List.mem_cons_of_mem _ hm))
      let h : TableHeader := ⟨m.header, hheader m List.mem_cons_self⟩
      have hbin := (MessageBuilder.toBinary_eq m h rfl).1 (hsize m List.mem_cons_self)
      refine ⟨serialize h.binary m.arguments :: texts, .cons ⟨h, rfl, rfl⟩ htexts, ?_⟩
      simp only [concatBinary, hbin, hconcat]
      rfl

theorem Parser.Reads.same {m : MessageProxy} {offset : Nat} {s : Sentence}
    (hread : Parser.Reads m offset s) {b : MessageBuilder} (hheader : b.header = s.header.val)
    (harguments : b.arguments = s.arguments) : SameMessage m b := by
  refine ⟨hread.header.trans hheader.symm, ?_, fun i hi => ?_⟩
  · rw [hread.numArguments, harguments]
  · simp only [harguments] at hi ⊢
    exact hread.get i hi

theorem SameMessage.eq {m : MessageProxy} {b : MessageBuilder} (hsame : SameMessage m b)
    {offset : Nat} {s : Sentence} (hread : Parser.Reads m offset s) :
    b.header = s.header.val ∧ b.arguments = s.arguments := by
  have hlen : b.arguments.length = s.arguments.length := by
    rw [← hsame.numArguments, hread.numArguments]
  refine ⟨by rw [← hsame.header, hread.header], List.ext_getElem hlen fun i hi hi' => ?_⟩
  have := (hsame.get i hi).symm.trans (hread.get i hi')
  exact Except.ok.inj this

theorem wellFormed_of_sentence (b : MessageBuilder) (s : Sentence)
    (hheader : b.header = s.header.val) (harguments : b.arguments = s.arguments) :
    b.WellFormed := by
  refine ⟨⟨s.header.arity, ?_, ?_⟩, fun a ha => ?_⟩
  · rw [hheader, numArguments_tableHeader]
  · rw [harguments]
    exact s.allowed
  · obtain ⟨hne, hrs, -⟩ := s.readable a (harguments ▸ ha)
    exact ⟨hne, hrs⟩

theorem MessageBuilder.WellFormed.sentence {b : MessageBuilder} (hwf : b.WellFormed)
    (h : TableHeader) (hheader : b.header = h.val) :
    ∃ s : Sentence, s.header = h ∧ s.arguments = b.arguments := by
  obtain ⟨⟨range, hrange, hallowed⟩, hargs⟩ := hwf
  rw [hheader, numArguments_tableHeader] at hrange
  cases hrange
  exact ⟨⟨h, b.arguments, fun a ha => ⟨(hargs a ha).1, (hargs a ha).2, b.arguments_clean a ha⟩,
    hallowed⟩, rfl, rfl⟩

/-- Reading a batch of sentences gives one message for each. -/
theorem forall₂_flatMap (ss : List Sentence) (offset : Nat) (messages : List MessageProxy)
    (hread : List.Forall₂ Parser.Denotes messages
      (referencePieces offset (ss.flatMap Sentence.text))) :
    List.Forall₂ (fun m (s : Sentence) => ∃ o s', Parser.Reads m o s' ∧ s'.header = s.header ∧
      s'.arguments = s.arguments) messages ss := by
  induction ss generalizing offset messages with
  | nil =>
      cases hread
      exact .nil
  | cons s ss ih =>
      rw [List.flatMap_cons, referencePieces_text] at hread
      cases hread with
      | cons hhead htail =>
          obtain ⟨s', htext, hs'⟩ := hhead
          exact .cons ⟨_, s', hs', text_injective s' s htext⟩ (ih _ _ htail)

theorem exists_sentences (ms : List MessageBuilder) (texts : List Buffer)
    (htexts : List.Forall₂ WrittenAs ms texts) (hwf : ∀ m ∈ ms, m.WellFormed) :
    ∃ ss, List.Forall₂ Stands ms ss ∧ texts.flatten = ss.flatMap Sentence.text := by
  induction htexts with
  | nil => exact ⟨[], .nil, rfl⟩
  | cons htext _ ih =>
      obtain ⟨ss, hss, hflat⟩ := ih fun m hm => hwf m (List.mem_cons_of_mem _ hm)
      obtain ⟨h, hh, rfl⟩ := htext
      obtain ⟨s, rfl, hargs⟩ := (hwf _ List.mem_cons_self).sentence h hh
      exact ⟨s :: ss, .cons ⟨hh, hargs.symm⟩ hss,
        by rw [List.flatten_cons, List.flatMap_cons, hflat, Sentence.text, hargs]⟩

theorem forall₂_same (ms : List MessageBuilder) (ss : List Sentence)
    (messages : List MessageProxy) (hss : List.Forall₂ Stands ms ss)
    (hread : List.Forall₂ (fun m (s : Sentence) => ∃ o s', Parser.Reads m o s' ∧
      s'.header = s.header ∧ s'.arguments = s.arguments) messages ss) :
    List.Forall₂ SameMessage messages ms := by
  induction hss generalizing messages with
  | nil =>
      cases hread
      exact .nil
  | cons hs _ ih =>
      cases hread with
      | cons hm hmessages =>
          obtain ⟨o, s', hreads, hh, ha⟩ := hm
          exact .cons (hreads.same (by rw [hs.1, hh]) (by rw [hs.2, ha])) (ih _ hmessages)

/-- What has been decoded to itself is well formed. -/
theorem wellFormed_of_same (messages : List MessageProxy) (ms : List MessageBuilder)
    (pieces : List (Nat × Buffer)) (hread : List.Forall₂ Parser.Denotes messages pieces)
    (hsame : List.Forall₂ SameMessage messages ms) : ∀ m ∈ ms, m.WellFormed := by
  induction hsame generalizing pieces with
  | nil => simp
  | cons hm _ ih =>
      cases hread with
      | cons hdenotes hread =>
          obtain ⟨s, -, hs⟩ := hdenotes
          obtain ⟨hheader, harguments⟩ := hm.eq hs
          exact List.forall_mem_cons.mpr
            ⟨wellFormed_of_sentence _ s hheader harguments, ih _ hread⟩

/-- Decoding undoes encoding exactly on the well-formed messages. -/
theorem execute_concatBinary_iff (ms : List MessageBuilder)
    (hheader : ∀ m ∈ ms, m.header ∈ headers) (hsize : ∀ m ∈ ms, m.payloadSize < 2 ^ 31) :
    ∃ x messages errors, concatBinary ms = .ok x ∧
      Parser.execute (x ++ [0, 0]) = .ok (messages, errors) ∧
      ((errors = [] ∧ List.Forall₂ SameMessage messages ms) ↔ ∀ m ∈ ms, m.WellFormed) := by
  obtain ⟨texts, htexts, hconcat⟩ := concatBinary_eq ms hheader hsize
  obtain ⟨messages, errors, hexecute, hread, hbatch⟩ :=
    Parser.execute_eq texts.flatten
  replace hread := hread.imp fun _ _ h => h.denotes
  refine ⟨texts.flatten, messages, errors, hconcat, hexecute, ?_, fun hwf => ?_⟩
  · exact fun ⟨_, hsame⟩ => wellFormed_of_same messages ms _ hread hsame
  · obtain ⟨ss, hss, hflat⟩ := exists_sentences ms texts htexts hwf
    rw [hflat] at hread hbatch
    exact ⟨hbatch.mpr ⟨ss, rfl⟩, forall₂_same ms ss messages hss (forall₂_flatMap ss 0 _ hread)⟩

end Decode

/-- `C|PI+` and `E|EVT|name|Sdata+` -/
def pingAndEvent : List MessageBuilder :=
  [ .ofHeader { topic := .connection, action := .ping }
  , { header := { topic := .event, action := .event }
      arguments := [bytes "name", bytes "Sdata"]
      arguments_clean := by decide } ]

theorem execute_concatBinary_pingAndEvent :
    ∃ x messages errors, @concatBinary debug pingAndEvent = .ok x ∧
      @Parser.execute debug (x ++ [0, 0]) = .ok (messages, errors) ∧
      ((errors = [] ∧ List.Forall₂ (@SameMessage debug) messages pingAndEvent) ↔
        ∀ m ∈ pingAndEvent, @MessageBuilder.WellFormed debug m) :=
  @execute_concatBinary_iff debug pingAndEvent (by decide) (by decide)

section Reencode
variable [Build]

/-- `MessageBuilder(m.header())` with the first arguments of `m` added. -/
def rebuild (m : MessageProxy) : Nat → Except Failure MessageBuilder
  | 0 => .ok (.ofHeader m.header)
  | n + 1 => do
      let b ← rebuild m n
      let a ← m.get n
      b.addArgument a

/-- Re-encoding a message of the batch `x` gives the bytes it was read from, and so does
a builder with its header and arguments. -/
def Reencodes (x : Buffer) (m : MessageProxy) : Prop :=
  m.toBinary = .ok ((x.drop m.offset).take m.size) ∧
    m.toBinary = (rebuild m m.numArguments >>= MessageBuilder.toBinary)

theorem rebuild_eq {m : MessageProxy} {offset : Nat} {s : Sentence}
    (hread : Parser.Reads m offset s) (n : Nat) (hn : n ≤ s.arguments.length) :
    (n ≤ maxArguments → ∃ b, rebuild m n = .ok b ∧ b.header = s.header.val ∧
      b.arguments = s.arguments.take n) ∧
    (maxArguments < n → ∃ e, rebuild m n = .error e) := by
  induction n with
  | zero => exact ⟨fun _ => ⟨_, rfl, hread.header, rfl⟩, fun h => absurd h (Nat.not_lt_zero _)⟩
  | succ n ih =>
      obtain ⟨hsmall, hlarge⟩ := ih (by omega)
      have hget := hread.get n hn
      constructor
      · intro hmax
        obtain ⟨b, hb, hheader, hargs⟩ := hsmall (by omega)
        have hlen : b.arguments.length < maxArguments := by
          rw [hargs, List.length_take]
          omega
        obtain ⟨b', hb'⟩ := MessageBuilder.addArgument_of_not_mem b s.arguments[n]
          (s.readable _ (List.getElem_mem hn)).2.2 hlen
        obtain ⟨-, hheader', hargs'⟩ := MessageBuilder.addArgument_eq_ok _ _ _ hb'
        refine ⟨b', ?_, hheader'.trans hheader, ?_⟩
        · simp only [rebuild, hb, hget]
          exact hb'
        · rw [hargs', hargs, List.take_concat_get']
      · intro hmax
        by_cases hprev : maxArguments < n
        · obtain ⟨e, he⟩ := hlarge hprev
          exact ⟨e, by simp only [rebuild, he]; rfl⟩
        · obtain ⟨b, hb, -, hargs⟩ := hsmall (by omega)
          have hlen : ¬b.arguments.length < maxArguments := by
            rw [hargs, List.length_take]
            omega
          refine ⟨.thrown .lengthError, ?_⟩
          simp only [rebuild, hb, hget]
          exact (dif_neg (s.readable _ (List.getElem_mem hn)).2.2).trans (dif_neg hlen)

omit [Build] in
theorem length_le_payloadSize (arguments : List Buffer) (h : ∀ a ∈ arguments, a ≠ []) :
    arguments.length ≤ (arguments.map List.length).sum := by
  induction arguments with
  | nil => exact Nat.zero_le _
  | cons a as ih =>
      have ha := List.length_pos_iff.mpr (h a List.mem_cons_self)
      have := ih fun b hb => h b (List.mem_cons_of_mem _ hb)
      simp only [List.length_cons, List.map_cons, List.sum_cons]
      omega

/-- The builder of a sentence can be serialised iff the arguments fit into an `int`. -/
theorem rebuild_toBinary {m : MessageProxy} {offset : Nat} {s : Sentence}
    (hread : Parser.Reads m offset s) :
    ((s.arguments.map List.length).sum < 2 ^ 31 →
      (rebuild m m.numArguments >>= MessageBuilder.toBinary) = .ok s.text) ∧
    (2 ^ 31 ≤ (s.arguments.map List.length).sum →
      ∃ e, (rebuild m m.numArguments >>= MessageBuilder.toBinary) = .error e) := by
  rw [hread.numArguments]
  obtain ⟨hsmall, hlarge⟩ := rebuild_eq hread s.arguments.length le_rfl
  have hcount := length_le_payloadSize s.arguments fun a ha => (s.readable a ha).1
  have hmax : 2 ^ 31 ≤ maxArguments := by decide
  by_cases hlen : s.arguments.length ≤ maxArguments
  · obtain ⟨b, hb, hheader, hargs⟩ := hsmall hlen
    rw [List.take_length] at hargs
    obtain ⟨hok, herr⟩ := MessageBuilder.toBinary_eq b s.header hheader
    rw [MessageBuilder.payloadSize, hargs] at hok herr
    rw [hb]
    refine ⟨fun h => hok h, fun h => ?_⟩
    rcases herr h with h | h
    · exact ⟨_, h⟩
    · exact ⟨_, h⟩
  · obtain ⟨e, he⟩ := hlarge (by omega)
    exact ⟨fun h => by omega, fun _ => ⟨e, by rw [he]; rfl⟩⟩

omit [Build] in
theorem argumentSizes_messageOf (p : Buffer) (offset : Nat) (s : Sentence) :
    (Parser.messageOf p offset s).arguments.map Location.size = s.arguments.map List.length := by
  have locate_sizes : ∀ (o : Nat) (as : List Buffer),
      (Parser.locate o as).map Location.size = as.map List.length := by
    intro o as
    induction as generalizing o with
    | nil => rfl
    | cons a as ih => simp only [Parser.locate, List.map_cons, ih]
  exact locate_sizes _ _

theorem reencodes_messageOf (before after : Buffer) (s : Sentence) :
    Reencodes (before ++ s.text ++ after)
        (Parser.messageOf (before ++ s.text ++ after ++ [0, 0]) before.length s) ↔
      (before ++ s.text ++ after).take s.text.length = s.text ∧
        (s.arguments.map List.length).sum < 2 ^ 31 := by
  let p := before ++ s.text ++ after ++ [0, 0]
  have hreads := Parser.reads_messageOf s before (after ++ [0, 0])
  rw [← List.append_assoc] at hreads
  obtain ⟨hok, herr⟩ := rebuild_toBinary hreads
  have hproxy : (Parser.messageOf p before.length s).toBinary
      = .ok ((before ++ s.text ++ after).take s.text.length) := by
    have hfits : 0 + s.text.length ≤ p.length := by simp [p]; omega
    have htake : p.take s.text.length = (before ++ s.text ++ after).take s.text.length :=
      List.take_append_of_le_length (by simp; omega)
    exact (if_pos hfits).trans (congrArg Except.ok htake)
  have hbytes : ((before ++ s.text ++ after).drop before.length).take s.text.length = s.text := by
    rw [List.append_assoc, List.drop_left, List.take_left]
  change _ = Except.ok (((before ++ s.text ++ after).drop before.length).take s.text.length) ∧ _ ↔ _
  rw [hproxy, hbytes]
  constructor
  · rintro ⟨hhead, hbuilder⟩
    refine ⟨Except.ok.inj hhead, ?_⟩
    by_contra hlarge
    obtain ⟨e, he⟩ := herr (Nat.not_lt.mp hlarge)
    rw [he] at hbuilder
    cases hbuilder
  · rintro ⟨hhead, hsmall⟩
    exact ⟨by rw [hhead], by rw [hhead, hok hsmall]⟩

/-- A decoded message is re-encoded correctly iff the batch begins with its bytes and
its arguments fit into an `int`. -/
theorem reencodes_iff (x : Buffer) :
    ∃ messages errors, Parser.execute (x ++ [0, 0]) = .ok (messages, errors) ∧
      ∀ m ∈ messages, Reencodes x m ↔
        x.take m.size = (x.drop m.offset).take m.size ∧
        (m.arguments.map Location.size).sum < 2 ^ 31 := by
  obtain ⟨messages, errors, hexecute, hread, -⟩ := Parser.execute_eq x
  refine ⟨messages, errors, hexecute, fun m hm => ?_⟩
  obtain ⟨⟨offset, text⟩, s, -, rfl, before, after, hp, rfl⟩ :
      ∃ q, Parser.IsMessageAt (x ++ [0, 0]) m q := by
    obtain ⟨i, hi, rfl⟩ := List.mem_iff_getElem.mp hm
    exact ⟨_, hread.get hi (hread.length_eq ▸ hi)⟩
  obtain rfl := List.append_cancel_right hp
  have hbytes : ((before ++ s.text ++ after).drop before.length).take s.text.length = s.text := by
    rw [List.append_assoc, List.drop_left, List.take_left]
  rw [reencodes_messageOf, argumentSizes_messageOf]
  change _ ↔ _ = ((before ++ s.text ++ after).drop before.length).take s.text.length ∧ _
  rw [hbytes]
  rfl

end Reencode

/-- `C|CH+C|PI+` -/
def challengeAndPing : Buffer :=
  fromHumanReadable (bytes "C|CH+C|PI+")

/-- The second message is re-encoded as the first one. -/
theorem challengeAndPing_not_reencodes :
    ∃ messages errors,
      @Parser.execute debug (challengeAndPing ++ [0, 0]) = .ok (messages, errors) ∧
      ∃ m ∈ messages, ¬@Reencodes debug challengeAndPing m := by
  let message (offset : Nat) (action : Action) : MessageProxy :=
    { base := challengeAndPing ++ [0, 0], offset, size := 5
      header := { topic := .connection, action } }
  refine ⟨[message 0 .challenge, message 5 .ping], [], by decide +kernel, message 5 .ping, by simp, ?_⟩
  rintro ⟨hbytes, -⟩
  revert hbytes
  decide +kernel

end Deepstream
