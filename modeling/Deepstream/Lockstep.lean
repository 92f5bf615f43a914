import Deepstream.ParserCorrect

/-!
The lexer and the parser in lockstep.

`Driver` runs both, match by match. The condition in which a token began and the
parser's flag are two copies of the same fact: `Expects` says what either of
them stands for, and one lemma for each of the lexer's conditions says that the
next match keeps it.
-/

namespace Deepstream.Parser
open Flex
open Lexer (Condition Scanner)

/-- The lexer and the parser it calls. The scanner is gone after `yyterminate`; `began` is the
condition in which the current token began. -/
structure Driver where
  scanner : Option Scanner
  began : Condition
  parser : State

namespace Driver

def start (x : Buffer) : Driver where
  scanner := some ⟨.initial, [], x⟩
  began := .initial
  parser := { buffer := x ++ [0, 0], bufferSize := x.length }

/-- The input that does not belong to a token yet -/
def unread (d : Driver) : Buffer :=
  match d.scanner with
  | some s => s.kept ++ s.rest
  | none => []

/-- The call of `handle_token` that the next match leads to -/
def call (d : Driver) : Option (Token × Buffer) :=
  d.scanner.bind fun s => (step Lexer.spec s).1

variable [Build]

/-- One match with its action. Once an action has returned the next token begins. -/
def next (d : Driver) : Except Failure Driver :=
  match d.scanner with
  | none => .ok d
  | some s =>
      match step Lexer.spec s with
      | (none, scanner) => .ok { d with scanner }
      | (some (token, text), scanner) => do
          let parser ← handleToken d.parser token text
          return { scanner, began := (scanner.map Scanner.start).getD d.began, parser }

/-- `yylex`, which goes on matching until an action returns. -/
def yylex : Nat → Driver → Except Failure Driver
  | 0, _ => .error .exhausted
  | n + 1, d => do
      let d' ← d.next
      if d.call.isSome then return d' else yylex n d'

/-- The loop in `execute`; only after `yyterminate` does `yylex` return zero. -/
def loop : Nat → Driver → Except Failure Driver
  | 0, _ => .error .exhausted
  | n + 1, d => do
      let d' ← yylex 2 d
      if d'.scanner.isNone then return d' else loop n d'

end Driver

section Runs
variable [Build]

/-- The drivers that one comes to while an input is read. -/
inductive Driven (x : Buffer) : Driver → Prop where
  | start : Driven x (.start x)
  | next (d d' : Driver) (hdriven : Driven x d) (hnext : d.next = .ok d') : Driven x d'

/-- A call of `handle_token` finds the parser where the lexer is. -/
structure Agrees (x : Buffer) (d : Driver) (token : Token) (text : Buffer) : Prop where
  began : d.began ≠ .yyerror
  condition : d.parser.tokenizingHeader = true ↔ d.began = .initial
  consumed : ∃ consumed, x = consumed ++ d.unread ∧ d.parser.offset = consumed.length
  shown : slice (x ++ [0, 0]) d.parser.offset text.length = .ok text
  progress : token ≠ .eof → text ≠ [] ∧ ∀ d', d.next = .ok d' → d.unread = text ++ d'.unread
  eof : token = .eof → d.parser.offset = x.length ∧ text = [0]

/-- What holds of the lexer and the parser at any time -/
structure Lockstep (x : Buffer) (d : Driver) : Prop where
  agrees : ∀ token text, d.call = some (token, text) → Agrees x d token text
  last : d.parser.tokenizingHeader = false → ∃ m, d.parser.messages.getLast? = some m ∧
    m.offset + m.size = d.parser.offset
  exists_next : ∃ d', d.next = .ok d'

end Runs

/-- The parser has come past one more message, or one more broken stretch. -/
structure Grows (st st' : State) : Prop where
  lt : st.offset < st'.offset
  recorded : (∃ m : MessageProxy, m.offset = st.offset ∧ m.offset + m.size = st'.offset ∧
      st'.messages = st.messages ++ [m] ∧ st'.errors = st.errors) ∨
    ∃ e : Error, e.location.offset = st.offset ∧
      e.location.offset + e.location.size = st'.offset ∧ e.tag ≠ .unexpectedEof ∧
      st'.messages = st.messages ∧ st'.errors = st.errors ++ [e]

/-- What the parser stands for when a token begins in a condition, with `done` read and `rest`
to come: it expects a header, or has read one with some arguments. -/
inductive Expects (first : State) (done rest : Buffer) : State → Condition → Prop where
  | header (st : State) (hat : At done rest st) (htok : st.tokenizingHeader = true)
      (hgrown : Relation.ReflTransGen Grows first st) : Expects first done rest st .initial
  | message (st : State) (h : TableHeader) (arguments : List Buffer) (before : Buffer)
      (hdone : done = before ++ (h.binary ++ payload arguments))
      (hat : At before (h.binary ++ payload arguments ++ rest) st)
      (hread : ∀ a ∈ arguments, Readable a) (hgrown : Relation.ReflTransGen Grows first st) :
      Expects first done rest (st.reading h arguments) .yypayload

section Expects
variable {first st : State} {done rest : Buffer}

theorem Expects.reading {h : TableHeader} (hat : At done (h.binary ++ rest) st)
    (hgrown : Relation.ReflTransGen Grows first st) :
    Expects first (done ++ h.binary) rest (st.reading h []) .yypayload := by
  apply Expects.message st h [] done
  · simp [payload]
  · simpa [payload] using hat
  · exact fun a ha => absurd ha List.not_mem_nil
  · exact hgrown

/-- A header is expected again behind a message or a broken stretch. -/
theorem Expects.grown {text : Buffer} {st' : State} (hat : At done (text ++ rest) st)
    (hgrown : Relation.ReflTransGen Grows first st) (hgrows : Grows st st')
    (hbuffer : st'.buffer = st.buffer) (hsize : st'.bufferSize = st.bufferSize)
    (htok : st'.tokenizingHeader = true) (hoffset : st'.offset = st.offset + text.length) :
    Expects first (done ++ text) rest st' .initial := by
  refine .header st' (hat.advance ?_ hbuffer hsize hoffset ?_ ?_) htok (hgrown.tail hgrows)
  · rintro rfl
    exact absurd hgrows.lt (by rw [hoffset]; exact Nat.lt_irrefl _)
  · obtain ⟨m, -, -, hmessages, -⟩ | ⟨e, -, -, -, hmessages, -⟩ := hgrows.recorded <;>
      simp [hmessages]
  · obtain ⟨m, -, -, -, herrors⟩ | ⟨e, -, -, -, -, herrors⟩ := hgrows.recorded <;>
      simp [herrors]

/-- The end of a message is recorded, either way. -/
theorem grows_messageSeparator (h : TableHeader) (arguments : List Buffer) :
    Grows st { st with
      messages := st.messages ++ if h.Allows arguments.length then
        [{ openMessage st.buffer st.offset h arguments with
            size := (serialize h.binary arguments).length }] else []
      errors := st.errors ++ if h.Allows arguments.length then []
        else [⟨⟨st.offset, (serialize h.binary arguments).length⟩, .invalidNumberOfArguments⟩]
      tokenizingHeader := true
      offset := st.offset + (serialize h.binary arguments).length } := by
  refine ⟨?_, ?_⟩
  · rw [serialize_eq, List.length_append, List.length_singleton]
    exact Nat.lt_add_of_pos_right (Nat.succ_pos _)
  · by_cases hallows : h.Allows arguments.length
    · refine .inl ⟨{ openMessage st.buffer st.offset h arguments with
        size := (serialize h.binary arguments).length }, rfl, rfl, ?_, ?_⟩
      · change st.messages ++ _ = _
        rw [if_pos hallows]
      · change st.errors ++ _ = _
        rw [if_pos hallows, List.append_nil]
    · refine .inr ⟨⟨⟨st.offset, (serialize h.binary arguments).length⟩,
        .invalidNumberOfArguments⟩, rfl, rfl, nofun, ?_, ?_⟩
      · change st.messages ++ _ = _
        rw [if_neg hallows, List.append_nil]
      · change st.errors ++ _ = _
        rw [if_neg hallows]

/-- Where the parser stands, and what its flag says -/
theorem Expects.at {began : Condition} (h : Expects first done rest st began) : At done rest st := by
  cases h with
  | header st hat => exact hat
  | message st h arguments before hdone hat => exact hdone ▸ hat.reading

theorem Expects.tokenizingHeader_iff {began : Condition} (h : Expects first done rest st began) :
    began ≠ .yyerror ∧ (st.tokenizingHeader = true ↔ began = .initial) := by
  cases h with
  | header st _ htok => exact ⟨nofun, iff_of_true htok rfl⟩
  | message st h arguments before => exact ⟨nofun, iff_of_false nofun nofun⟩

theorem Expects.last {began : Condition} (h : Expects first done rest st began)
    (htok : st.tokenizingHeader = false) :
    ∃ m, st.messages.getLast? = some m ∧ m.offset + m.size = st.offset := by
  cases h with
  | header st _ htok' => rw [htok'] at htok; cases htok
  | message st h arguments before => exact ⟨_, List.getLast?_concat, rfl⟩

end Expects

/-- A match whose action calls `handle_token` and returns -/
structure Returns [Build] (s : Scanner) (st : State) (token : Token) (text after : Buffer)
    (c : Condition) (st' : State) : Prop where
  input : s.kept ++ s.rest = text ++ after
  nonempty : text ≠ []
  ne_eof : token ≠ .eof
  step : Flex.step Lexer.spec s = (some (token, text), some ⟨c, [], after⟩)
  handle : handleToken st token text = .ok st'

/-- One match, where a token began in a condition -/
inductive Turn [Build] (first : State) (done : Buffer) (st : State) :
    Condition → Scanner → Prop where
  | silent (began : Condition) (c : UInt8) (rest : Buffer)
      (hstep : step Lexer.spec ⟨began, [], c :: rest⟩ = (none, some ⟨.yyerror, [c], rest⟩)) :
      Turn first done st began ⟨began, [], c :: rest⟩
  | returns (began c : Condition) (s : Scanner) (token : Token) (text after : Buffer) (st' : State)
      (hreturns : Returns s st token text after c st')
      (hexpects : Expects first (done ++ text) after st' c) : Turn first done st began s
  | terminates (began : Condition) (st' : State)
      (hstep : step Lexer.spec ⟨began, [], []⟩ = (some (.eof, [0]), none))
      (hhandle : handleToken st .eof [0] = .ok st') (htok : st'.tokenizingHeader = true) :
      Turn first done st began ⟨began, [], []⟩

section Turns
variable [Build] {first st : State} {done rest : Buffer}

/-- A broken piece is discarded up to the next record separators. -/
theorem turn_initial_error (c : UInt8) (hat : At done (c :: rest) st)
    (htok : st.tokenizingHeader = true) (hgrown : Relation.ReflTransGen Grows first st) :
    Turn first done st .initial ⟨.yyerror, [c], rest⟩ := by
  obtain ⟨text, separators, after, rfl, htext, hseparators, hafter, hend⟩ := exists_discarded rest
  have hne : c :: text ++ separators ≠ [] := List.cons_ne_nil _ _
  have hat' : At done (c :: text ++ separators ++ after) st := by simpa using hat
  have hhandle := handleToken_unexpected hat' hne htok
  refine .returns _ .initial _ .unknown _ after _ ⟨by simp, hne, nofun,
    step_error c text separators after htext hseparators hafter hend, hhandle⟩ ?_
  refine .grown hat' hgrown ⟨?_, .inr ⟨_, rfl, rfl, ?_, rfl, rfl⟩⟩ rfl rfl htok rfl
  · exact Nat.lt_add_of_pos_right (List.length_pos_iff.mpr hne)
  · rintro ⟨⟩

theorem turn_initial (hat : At done rest st) (htok : st.tokenizingHeader = true)
    (hgrown : Relation.ReflTransGen Grows first st) :
    Turn first done st .initial ⟨.initial, [], rest⟩ := by
  cases rest with
  | nil =>
      exact .terminates _ _ (Lexer.step_eof .initial nofun) (handleToken_eof_header hat htok) htok
  | cons c after =>
      by_cases hc : c = asciiRecordSeparator
      · subst hc
        have hat' : At done ([asciiRecordSeparator] ++ after) st := hat
        have hne : [asciiRecordSeparator] ≠ [] := List.cons_ne_nil _ _
        refine .returns _ .initial _ .unknown _ after _ ⟨rfl, hne, nofun,
          Lexer.step_separator after, handleToken_unexpected hat' hne htok⟩ ?_
        refine .grown hat' hgrown ⟨?_, .inr ⟨_, rfl, rfl, ?_, rfl, rfl⟩⟩ rfl rfl htok rfl
        · exact Nat.lt_succ_self _
        · rintro ⟨⟩
      by_cases hheader : ∃ h : TableHeader, h.binary <+: c :: after
      · obtain ⟨h, rest, hsplit, hmax⟩ := exists_longest _ hheader
        rw [hsplit] at hat hmax ⊢
        have hne := List.ne_nil_of_length_pos (Lexer.binary_length_pos h)
        have htoken : h.token ≠ .eof := fun heof => by
          have hheader := headerOf_token h
          rw [heof] at hheader
          cases hheader
        exact .returns _ .yypayload _ h.token _ rest _ ⟨rfl, hne, htoken,
          Lexer.step_header h rest hmax, handleToken_header h hat htok⟩ (.reading hat hgrown)
      · exact .silent _ c after (Lexer.step_unknown c after hc (not_exists.mp hheader))

section Message
variable (h : TableHeader) (arguments : List Buffer)

theorem turn_message_error (c : UInt8)
    (hat : At done (h.binary ++ payload arguments ++ c :: rest) st)
    (hgrown : Relation.ReflTransGen Grows first st) :
    Turn first (done ++ (h.binary ++ payload arguments)) (st.reading h arguments) .yypayload
      ⟨.yyerror, [c], rest⟩ := by
  obtain ⟨text, separators, after, rfl, htext, hseparators, hafter, hend⟩ := exists_discarded rest
  have hne : c :: text ++ separators ≠ [] := List.cons_ne_nil _ _
  have hat' : At done (h.binary ++ payload arguments ++ (c :: text ++ separators ++ after)) st := by
    simpa using hat
  have hhandle := handleToken_corrupt h arguments hat' hne
  refine .returns _ .initial _ .unknown _ after _ ⟨by simp, hne, nofun,
    step_error c text separators after htext hseparators hafter hend, hhandle⟩ ?_
  rw [← List.append_assoc] at hat'
  rw [List.append_assoc]
  refine .grown hat' hgrown ⟨?_, .inr ⟨_, rfl, ?_, ?_, rfl, rfl⟩⟩ rfl rfl rfl rfl
  · apply Nat.lt_add_of_pos_right
    rw [List.length_append]
    exact Nat.add_pos_right _ (List.length_pos_iff.mpr hne)
  · exact congrArg (st.offset + ·) List.length_append.symm
  · rintro ⟨⟩

theorem turn_message (hat : At done (h.binary ++ payload arguments ++ rest) st)
    (hread : ∀ a ∈ arguments, Readable a) (hgrown : Relation.ReflTransGen Grows first st) :
    Turn first (done ++ (h.binary ++ payload arguments)) (st.reading h arguments) .yypayload
      ⟨.yypayload, [], rest⟩ := by
  cases rest with
  | nil =>
      rw [List.append_nil] at hat
      exact .terminates _ _ (Lexer.step_eof .yypayload nofun)
        (handleToken_eof_payload h arguments hat) rfl
  | cons c after =>
      by_cases hc : c = asciiRecordSeparator
      · subst hc
        refine .returns _ .initial _ .messageSeparator _ after _ ⟨rfl, List.cons_ne_nil _ _,
          by decide, Lexer.step_messageSeparator after, handleToken_messageSeparator h arguments hat⟩ ?_
        have hat' : At done (serialize h.binary arguments ++ after) st := by
          simpa [serialize_eq] using hat
        have hdone : done ++ (h.binary ++ payload arguments) ++ [asciiRecordSeparator] =
            done ++ serialize h.binary arguments := List.append_assoc ..
        rw [show [(0x1e : UInt8)] = [asciiRecordSeparator] from rfl, hdone]
        exact .grown hat' hgrown (grows_messageSeparator h arguments) rfl rfl rfl rfl
      by_cases hmps : c = asciiUnitSeparator ∧ ∃ d ∈ after.head?, Lexer.isNs d = true
      · obtain ⟨rfl, d, hd, hns⟩ := hmps
        let a := after.takeWhile Lexer.isNs
        let later := after.dropWhile Lexer.isNs
        have hsplit : after = a ++ later := List.takeWhile_append_dropWhile.symm
        have hne : a ≠ [] := by
          obtain ⟨tail, rfl⟩ := List.head?_eq_some_iff.mp hd
          simp [a, hns]
        have ha : ∀ c ∈ a, Lexer.isNs c = true := fun c hc => List.mem_takeWhile_imp hc
        have hlater : ∀ c ∈ later.head?, Lexer.isNs c = false := by
          intro c hc
          have hnot := List.head?_dropWhile_not Lexer.isNs after
          rw [Option.mem_def.mp hc] at hnot
          simpa using hnot
        have hat' : At done (h.binary ++ payload (arguments ++ [a]) ++ later) st := by
          rw [hsplit] at hat
          simpa [payload_append, payload_cons, payload] using hat
        rw [hsplit]
        refine .returns _ .yypayload _ .payload (asciiUnitSeparator :: a) later _
          ⟨rfl, List.cons_ne_nil _ _, by decide, Lexer.step_payload a later hne ha hlater,
            handleToken_payload h arguments hat'⟩ ?_
        refine .message st h (arguments ++ [a]) done ?_ hat' ?_ hgrown
        · simp [payload]
        · intro b hb
          cases List.mem_append.mp hb with
          | inl hb => exact hread b hb
          | inr hb =>
              cases List.mem_singleton.mp hb
              exact readable_of_isNs a hne ha
      · refine .silent _ c after (Lexer.step_corrupt c after hc fun hmps' d hd => ?_)
        by_contra hns
        exact hmps ⟨hmps', d, hd, Bool.of_not_eq_false hns⟩

end Message

theorem Expects.turn {began : Condition} {s : Scanner}
    (hkept : s.start = began ∧ s.kept = [] ∨ s.start = .yyerror ∧ ∃ c, s.kept = [c])
    (hexpects : Expects first done (s.kept ++ s.rest) st began) :
    Turn first done st began s := by
  obtain ⟨c, kept, rest⟩ := s
  cases hexpects with
  | header _ hat htok hgrown =>
      obtain ⟨hc, hkept⟩ | ⟨hc, x, hkept⟩ := hkept
      · cases hc
        cases hkept
        exact turn_initial hat htok hgrown
      · cases hc
        cases hkept
        exact turn_initial_error x hat htok hgrown
  | message st h arguments before hdone hat hread hgrown =>
      subst hdone
      obtain ⟨hc, hkept⟩ | ⟨hc, x, hkept⟩ := hkept
      · cases hc
        cases hkept
        exact turn_message h arguments hat hread hgrown
      · cases hc
        cases hkept
        exact turn_message_error h arguments x hat hgrown

end Turns

section Phase

/-- What the lexer and the parser have in common, from the beginning of a token to its end -/
inductive Phase (x : Buffer) : Driver → Prop where
  | reading (s : Scanner) (began : Condition) (st : State) (done : Buffer)
      (hinput : x = done ++ (s.kept ++ s.rest))
      (hkept : s.start = began ∧ s.kept = [] ∨ s.start = .yyerror ∧ ∃ c, s.kept = [c])
      (hexpects : Expects (Driver.start x).parser done (s.kept ++ s.rest) st began) :
      Phase x ⟨some s, began, st⟩
  | ended (began : Condition) (st : State) (htok : st.tokenizingHeader = true) :
      Phase x ⟨none, began, st⟩

theorem phase_start (x : Buffer) : Phase x (.start x) := by
  refine .reading _ _ _ [] rfl (.inl ⟨rfl, rfl⟩) (.header _ ?_ rfl .refl)
  exact ⟨rfl, rfl, rfl, Nat.le_refl _, Nat.le_refl _⟩

variable [Build] {x : Buffer}

theorem Driver.next_of_step {s : Scanner} (began : Condition) {st st' : State} {token : Token}
    {text : Buffer} {later : Option Scanner}
    (hstep : step Lexer.spec s = (some (token, text), later))
    (hhandle : handleToken st token text = .ok st') :
    Driver.next ⟨some s, began, st⟩ =
      .ok ⟨later, (later.map Scanner.start).getD began, st'⟩ := by
  unfold next
  dsimp only
  rw [hstep]
  dsimp only
  rw [hhandle]
  rfl

theorem Phase.lockstep {d : Driver} (h : Phase x d) :
    Lockstep x d ∧ ∀ d', d.next = .ok d' → Phase x d' := by
  cases h with
  | ended began st htok =>
      refine ⟨⟨?_, ?_, _, rfl⟩, ?_⟩
      · intro token text hcall
        cases hcall
      · intro htok'
        rw [show st.tokenizingHeader = true from htok] at htok'
        cases htok'
      · intro d' hnext
        cases hnext
        exact .ended began st htok
  | reading s began st done hinput hkept hexpects =>
      obtain ⟨hbegan, hcondition⟩ := hexpects.tokenizingHeader_iff
      have hat := hexpects.at
      have hconsumed : ∃ consumed, x = consumed ++ (s.kept ++ s.rest) ∧
          st.offset = consumed.length := ⟨done, hinput, hat.offset⟩
      cases hexpects.turn hkept with
      | silent c rest hstep =>
          have hnext : Driver.next ⟨some ⟨began, [], c :: rest⟩, began, st⟩ =
              .ok ⟨some ⟨.yyerror, [c], rest⟩, began, st⟩ := by
            unfold Driver.next
            dsimp only
            rw [hstep]
          refine ⟨⟨?_, hexpects.last, _, hnext⟩, ?_⟩
          · intro token text hcall
            change (step Lexer.spec ⟨began, [], c :: rest⟩).1 = _ at hcall
            rw [hstep] at hcall
            cases hcall
          · intro d' hd'
            rw [hnext] at hd'
            cases hd'
            exact .reading ⟨.yyerror, [c], rest⟩ began st done hinput (.inr ⟨rfl, c, rfl⟩) hexpects
      | returns c s token text after st' hreturns hexpects' =>
          have hnext := Driver.next_of_step began hreturns.step hreturns.handle
          refine ⟨⟨?_, hexpects.last, _, hnext⟩, ?_⟩
          · intro token' text' hcall
            change (step Lexer.spec s).1 = _ at hcall
            rw [hreturns.step] at hcall
            cases hcall
            refine ⟨hbegan, hcondition, hconsumed, ?_, ?_, ?_⟩
            · change slice (x ++ [0, 0]) st.offset text.length = _
              rw [hinput, hat.offset, hreturns.input, ← List.append_assoc, List.append_assoc _ after]
              exact slice_append done text _
            · refine fun _ => ⟨hreturns.nonempty, fun d' hd' => ?_⟩
              rw [hnext] at hd'
              cases hd'
              exact hreturns.input
            · exact fun heof => absurd heof hreturns.ne_eof
          · intro d' hd'
            rw [hnext] at hd'
            cases hd'
            refine .reading ⟨c, [], after⟩ c st' (done ++ text) ?_ (.inl ⟨rfl, rfl⟩) hexpects'
            rw [hinput, hreturns.input, List.append_assoc]
            rfl
      | terminates st' hstep hhandle htok =>
          have hnext := Driver.next_of_step began hstep hhandle
          refine ⟨⟨?_, hexpects.last, _, hnext⟩, ?_⟩
          · intro token text hcall
            change (step Lexer.spec ⟨began, [], []⟩).1 = _ at hcall
            rw [hstep] at hcall
            cases hcall
            have hdone : x = done := hinput.trans (List.append_nil done)
            refine ⟨hbegan, hcondition, hconsumed, ?_, fun hne => absurd rfl hne, fun _ => ⟨?_, rfl⟩⟩
            · change slice (x ++ [0, 0]) st.offset 1 = _
              rw [hat.offset, ← hdone]
              have hslice := slice_append x [0] [0]
              rwa [List.append_assoc] at hslice
            · rw [hdone]
              exact hat.offset
          · intro d' hd'
            rw [hnext] at hd'
            cases hd'
            exact .ended began st' htok

theorem Driven.phase {d : Driver} (h : Driven x d) : Phase x d := by
  induction h with
  | start => exact phase_start x
  | next d d' _ hnext ih => exact ih.lockstep.2 d' hnext

end Phase

section Loop
variable [Build] {first : State}

/-- What a call of `yylex` comes to that begins with a token -/
inductive Lexed (first : State) (done : Buffer) (s : Scanner) (began : Condition) (st : State) :
    Driver → Prop where
  | token (k : Nat) (c : Condition) (text after : Buffer) (st' : State) (hk : k ≤ 2)
      (hruns : Runs k s ⟨c, [], after⟩ st st') (hrest : s.rest = text ++ after)
      (hne : text ≠ []) (hexpects : Expects first (done ++ text) after st' c) :
      Lexed first done s began st ⟨some ⟨c, [], after⟩, c, st'⟩
  | eof (st' : State) (hrest : s.rest = [])
      (hstep : step Lexer.spec s = (some (.eof, [0]), none))
      (hhandle : handleToken st .eof [0] = .ok st') :
      Lexed first done s began st ⟨none, began, st'⟩

theorem Driver.yylex_of_step {s : Scanner} {began : Condition} {st st' : State} {token : Token}
    {text : Buffer} {later : Option Scanner} (n : Nat)
    (hstep : step Lexer.spec s = (some (token, text), later))
    (hhandle : handleToken st token text = .ok st') :
    yylex (n + 1) ⟨some s, began, st⟩ =
      .ok ⟨later, (later.map Scanner.start).getD began, st'⟩ := by
  unfold yylex
  rw [next_of_step began hstep hhandle]
  change (if ((step Lexer.spec s).1).isSome = true then _ else _) = _
  rw [hstep]
  rfl

theorem Driver.yylex_of_silent {s s' : Scanner} {began : Condition} {st : State} (n : Nat)
    (hstep : step Lexer.spec s = (none, some s')) :
    yylex (n + 1) ⟨some s, began, st⟩ = yylex n ⟨some s', began, st⟩ := by
  have hnext : next ⟨some s, began, st⟩ = .ok ⟨some s', began, st⟩ := by
    unfold next
    dsimp only
    rw [hstep]
  rw [yylex, hnext]
  change (if ((step Lexer.spec s).1).isSome = true then _ else _) = _
  rw [hstep]
  rfl

/-- Two matches suffice for a token: a broken piece takes one more. -/
theorem exists_lexed {done : Buffer} {s : Scanner} {began : Condition} {st : State}
    (hkept : s.start = began ∧ s.kept = []) (hexpects : Expects first done s.rest st began) :
    ∃ d, Driver.yylex 2 ⟨some s, began, st⟩ = .ok d ∧ Lexed first done s began st d := by
  obtain ⟨c, kept, rest⟩ := s
  obtain ⟨rfl, rfl⟩ := hkept
  have hturn := Expects.turn (s := ⟨c, [], rest⟩) (.inl ⟨rfl, rfl⟩) hexpects
  cases hturn with
  | silent x rest hstep =>
      have hturn' := Expects.turn (s := ⟨.yyerror, [x], rest⟩) (.inr ⟨rfl, x, rfl⟩) hexpects
      cases hturn' with
      | returns c' s token text after st' hreturns hexpects' =>
          refine ⟨_, ?_, .token 2 c' text after st' le_rfl ?_ hreturns.input hreturns.nonempty
            hexpects'⟩
          · rw [Driver.yylex_of_silent 1 hstep]
            exact Driver.yylex_of_step 0 hreturns.step hreturns.handle
          · exact (runs_silent hstep).trans (runs_token hreturns.step hreturns.handle)
  | returns c' s token text after st' hreturns hexpects' =>
      exact ⟨_, Driver.yylex_of_step 1 hreturns.step hreturns.handle, .token 1 c' text after st'
        (by decide) (runs_token hreturns.step hreturns.handle) hreturns.input hreturns.nonempty
        hexpects'⟩
  | terminates st' hstep hhandle htok =>
      exact ⟨_, Driver.yylex_of_step 1 hstep hhandle, .eof st' rfl hstep hhandle⟩

/-- The end of the loop, where the input was read by a parser in some state. -/
structure Finished (first : State) (x : Buffer) (d : Driver) : Prop where
  scanner : d.scanner = none
  exists_last : ∃ st began, Expects first x [] st began ∧ handleToken st .eof [0] = .ok d.parser

/-- By induction on the number of calls that are left -/
theorem exists_loop (n : Nat) {done : Buffer} {s : Scanner} {began : Condition} {st : State}
    (hkept : s.start = began ∧ s.kept = []) (hexpects : Expects first done s.rest st began)
    (hn : s.rest.length < n) :
    ∃ d, Driver.loop n ⟨some s, began, st⟩ = .ok d ∧ Finished first (done ++ s.rest) d ∧
      ∀ fuel, 2 * s.rest.length < fuel → ∃ tokens,
        Flex.tokens Lexer.spec fuel s = some tokens ∧ handleTokens st tokens = .ok d.parser := by
  induction n generalizing done s began st with
  | zero => exact absurd hn (Nat.not_lt_zero _)
  | succ n ih =>
      obtain ⟨d, hyylex, hlexed⟩ := exists_lexed hkept hexpects
      unfold Driver.loop
      rw [hyylex]
      cases hlexed with
      | token k c text after st' hk hruns hrest hne hexpects' =>
          have hpos := List.length_pos_iff.mpr hne
          rw [hrest, List.length_append] at hn
          obtain ⟨d, hloop, hfinished, htokens⟩ :=
            ih (s := ⟨c, [], after⟩) ⟨rfl, rfl⟩ hexpects' (by change after.length < n; omega)
          refine ⟨d, hloop, ?_, fun fuel hfuel => ?_⟩
          · rw [hrest, ← List.append_assoc]
            exact hfinished
          · rw [hrest, List.length_append] at hfuel
            obtain ⟨tokens, htokens, hhandle⟩ :=
              htokens (fuel - k) (by change 2 * after.length < fuel - k; omega)
            obtain ⟨out, hsteps, hout⟩ := hruns
            have hall := tokens_of_steps _ _ _ _ _ _ _ hsteps htokens
            rw [Nat.add_sub_cancel' (by omega)] at hall
            exact ⟨_, hall, by rw [handleTokens_append _ _ hout, hhandle]⟩
      | eof st' hrest hstep hhandle =>
          rw [hrest] at hexpects ⊢
          rw [List.append_nil]
          refine ⟨_, rfl, ⟨rfl, st, began, ?_, hhandle⟩, fun fuel hfuel => ?_⟩
          · exact hexpects
          · obtain ⟨fuel, rfl⟩ := Nat.exists_eq_succ_of_ne_zero (Nat.ne_of_gt hfuel)
            refine ⟨_, tokens_of_terminate _ _ _ fuel hstep, ?_⟩
            exact (handleTokens_singleton st .eof [0]).trans hhandle

theorem exists_finished (x : Buffer) :
    ∃ d, Driver.loop (x.length + 1) (.start x) = .ok d ∧ Finished (Driver.start x).parser x d ∧
      execute (x ++ [0, 0]) = .ok (d.parser.messages, d.parser.errors) := by
  have hexpects : Expects (Driver.start x).parser [] x (Driver.start x).parser .initial := by
    refine .header _ ⟨rfl, rfl, rfl, Nat.le_refl _, Nat.le_refl _⟩ rfl .refl
  obtain ⟨d, hloop, hfinished, htokens⟩ := exists_loop (x.length + 1) (s := ⟨.initial, [], x⟩)
    ⟨rfl, rfl⟩ hexpects (Nat.lt_succ_self _)
  obtain ⟨tokens, htokens, hhandle⟩ := htokens (2 * (x ++ [0, 0]).length) (by simp)
  exact ⟨d, hloop, hfinished, execute_of_tokens htokens hhandle⟩

/-- The lexer and the parser agree at every call of `handle_token`, no assertion of the parser
fails and no list is empty that it takes something back from, and one call of `yylex` for every
byte and one for the end suffice. -/
theorem lexer_parser_lockstep (x : Buffer) :
    (∀ d, Driven x d → Lockstep x d) ∧
      ∃ d, Driver.loop (x.length + 1) (.start x) = .ok d ∧ d.scanner = none ∧
        execute (x ++ [0, 0]) = .ok (d.parser.messages, d.parser.errors) := by
  refine ⟨fun d h => h.phase.lockstep.1, ?_⟩
  obtain ⟨d, hloop, hfinished, hexecute⟩ := exists_finished x
  exact ⟨d, hloop, hfinished.scanner, hexecute⟩

end Loop

end Deepstream.Parser
