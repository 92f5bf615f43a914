import Deepstream.Grammar
import Deepstream.Parser

/-!
`parser::execute` reads a batch as the reference grammar says.

Between two messages the scanner stands at the beginning of a piece and the
parser expects a header. One round of both consumes either the text of one
sentence or a broken stretch up to the next separator that is followed by
something else; the run lemma is an induction on the length of the input.
-/

namespace Deepstream.Parser
open Flex

/-- The parser has been shown `done` and the scanner still has `rest`. -/
structure At (done rest : Buffer) (st : State) : Prop where
  buffer : st.buffer = done ++ rest ++ [0, 0]
  bufferSize : st.bufferSize = (done ++ rest).length
  offset : st.offset = done.length
  messages_le : st.messages.length ≤ st.offset
  errors_le : st.errors.length ≤ st.offset

/-- The locations of arguments that stand behind each other from an offset on. -/
def locate : Nat → List Buffer → List Location
  | _, [] => []
  | offset, a :: as => ⟨offset + 1, a.length⟩ :: locate (offset + 1 + a.length) as

theorem length_locate (offset : Nat) (arguments : List Buffer) :
    (locate offset arguments).length = arguments.length := by
  induction arguments generalizing offset with
  | nil => rfl
  | cons a as ih => simp only [locate, List.length_cons, ih]

theorem locate_append (offset : Nat) (as : List Buffer) (a : Buffer) :
    locate offset (as ++ [a]) = locate offset as ++ [⟨offset + (payload as).length + 1, a.length⟩] := by
  induction as generalizing offset with
  | nil => rfl
  | cons b bs ih =>
      simp only [List.cons_append, locate, ih, payload_cons, List.length_cons, List.length_append]
      congr 4
      omega

theorem slice_locate (arguments : List Buffer) (before after : Buffer) (i : Nat)
    (hi : i < arguments.length) :
    ∃ loc, (locate before.length arguments)[i]? = some loc ∧
      slice (before ++ payload arguments ++ after) loc.offset loc.size = .ok arguments[i] := by
  induction arguments generalizing before i with
  | nil => exact absurd hi (Nat.not_lt_zero i)
  | cons a as ih =>
      cases i with
      | zero =>
          refine ⟨_, rfl, ?_⟩
          have := slice_append (before ++ [asciiUnitSeparator]) a (payload as ++ after)
          simpa [payload_cons] using this
      | succ i =>
          obtain ⟨loc, hloc, hslice⟩ := ih (before ++ asciiUnitSeparator :: a) i (by simpa using hi)
          refine ⟨loc, ?_, ?_⟩
          · rw [locate, List.getElem?_cons_succ, ← hloc]
            congr 2
            simp only [List.length_append, List.length_cons]
            omega
          · simpa [payload_cons] using hslice

/-- The message under construction once its header and some arguments are read. -/
def openMessage (base : Buffer) (offset : Nat) (h : TableHeader) (arguments : List Buffer) :
    MessageProxy :=
  { base, offset
    size := (h.binary ++ payload arguments).length
    header := h.val
    arguments := locate (offset + h.binary.length) arguments }

/-- The message a sentence becomes. -/
def messageOf (base : Buffer) (offset : Nat) (s : Sentence) : MessageProxy :=
  { openMessage base offset s.header s.arguments with size := s.text.length }

/-- The parser in the middle of a message. -/
def State.reading (st : State) (h : TableHeader) (arguments : List Buffer) : State :=
  { st with
    messages := st.messages ++ [openMessage st.buffer st.offset h arguments]
    tokenizingHeader := false
    offset := st.offset + (h.binary ++ payload arguments).length }

/-- Progress past `first` with at most one new message and one new error. -/
theorem At.advance {done first rest : Buffer} {st st' : State} (hat : At done (first ++ rest) st)
    (hne : first ≠ []) (hbuf : st'.buffer = st.buffer) (hsize : st'.bufferSize = st.bufferSize)
    (hoff : st'.offset = st.offset + first.length)
    (hmsgs : st'.messages.length ≤ st.messages.length + 1)
    (herrs : st'.errors.length ≤ st.errors.length + 1) : At (done ++ first) rest st' := by
  have hpos := List.length_pos_iff.mpr hne
  have hle := hat.messages_le
  have hle' := hat.errors_le
  refine ⟨?_, ?_, ?_, by omega, by omega⟩
  · simp [hbuf, hat.buffer]
  · rw [hsize, hat.bufferSize, List.append_assoc]
  · rw [hoff, hat.offset, List.length_append]

theorem At.reading {done rest : Buffer} {st : State} {h : TableHeader} {arguments : List Buffer}
    (hat : At done (h.binary ++ payload arguments ++ rest) st) :
    At (done ++ (h.binary ++ payload arguments)) rest (st.reading h arguments) := by
  have hpos := Lexer.binary_length_pos h
  apply At.advance hat
  · simp [List.ne_nil_of_length_pos hpos]
  · rfl
  · rfl
  · rfl
  · simp [State.reading]
  · simp [State.reading]

theorem headerOf_token (h : TableHeader) : headerOf h.token = some h.val := by
  revert h
  rw [forall_tableHeader]
  decide

/-- What the lexer discards once a piece is broken: the rest of the piece and all
record separators behind it. -/
theorem exists_discarded (rest : Buffer) :
    ∃ text separators after, rest = text ++ separators ++ after ∧
      (∀ c ∈ text, c ≠ asciiRecordSeparator) ∧ (∀ c ∈ separators, c = asciiRecordSeparator) ∧
      (∀ c ∈ after.head?, c ≠ asciiRecordSeparator) ∧ (separators = [] → after = []) := by
  let later := rest.dropWhile (· ≠ asciiRecordSeparator)
  refine ⟨rest.takeWhile (· ≠ asciiRecordSeparator), later.takeWhile (· = asciiRecordSeparator),
    later.dropWhile (· = asciiRecordSeparator), ?_, ?_, ?_, ?_, ?_⟩
  · rw [List.append_assoc, List.takeWhile_append_dropWhile, List.takeWhile_append_dropWhile]
  · exact fun c hc => by simpa using List.mem_takeWhile_imp hc
  · exact fun c hc => by simpa using List.mem_takeWhile_imp hc
  · intro c hc
    have := List.head?_dropWhile_not (· = asciiRecordSeparator) later
    rw [Option.mem_def.mp hc] at this
    simpa using this
  · intro h
    have hlater := List.head?_dropWhile_not (· ≠ asciiRecordSeparator) rest
    cases hl : later with
    | nil => rfl
    | cons c t =>
        change (rest.dropWhile (· ≠ asciiRecordSeparator)) = c :: t at hl
        rw [hl] at hlater
        have hc : c = asciiRecordSeparator := by simpa using hlater
        simp [later, hl, hc] at h

theorem step_error (x : UInt8) (text separators after : Buffer)
    (htext : ∀ c ∈ text, c ≠ asciiRecordSeparator)
    (hseparators : ∀ c ∈ separators, c = asciiRecordSeparator)
    (hafter : ∀ c ∈ after.head?, c ≠ asciiRecordSeparator) (hend : separators = [] → after = []) :
    step Lexer.spec ⟨.yyerror, [x], text ++ separators ++ after⟩
      = (some (.unknown, x :: text ++ separators), some ⟨.initial, [], after⟩) := by
  by_cases hne : text ++ separators = []
  · obtain ⟨rfl, rfl⟩ := List.append_eq_nil_iff.mp hne
    rw [hend rfl]
    exact Lexer.step_eof_error x
  · exact Lexer.step_error x text separators after htext hseparators hne hafter hend

section Handlers
variable [Build]

theorem dispatch_of_isSome (st : State) (token : Token) (text : Buffer)
    (htok : (headerOf token).isSome = true) :
    dispatch st token text = handleHeader st token text := by
  cases token <;> first | rfl | cases htok

/-- The assertions of `handle_token` hold wherever scanner and parser agree. -/
theorem handleToken_of_dispatch {done text rest : Buffer} {st st' : State} (token : Token)
    (hat : At done (text ++ rest) st) (hne : text ≠ []) (htok : token ≠ .eof)
    (hd : dispatch st token text = .ok st') :
    handleToken st token text = .ok { st' with offset := st.offset + text.length } := by
  have hpos := List.length_pos_iff.mpr hne
  have hsize : st.offset + text.length ≤ st.bufferSize := by
    rw [hat.offset, hat.bufferSize]
    simp only [List.length_append]
    omega
  have htext : text <+: st.buffer.drop st.offset := by
    rw [hat.buffer, hat.offset, List.append_assoc, List.drop_left]
    exact ⟨rest ++ [0, 0], by simp⟩
  rw [handleToken, check_bind _ _ _ hpos, check_bind _ _ _ (.inl htok),
    check_bind _ _ _ (.inl htok), check_bind _ _ _ (.inl htok), check_bind _ _ _ (.inr hsize),
    check_bind _ _ _ (.inr htext), check_bind _ _ _ hat.messages_le,
    check_bind _ _ _ hat.errors_le, hd]
  rfl

theorem handleToken_eof {done : Buffer} {st st' : State} (hat : At done [] st)
    (hd : dispatch st .eof [0] = .ok st') :
    handleToken st .eof [0] = .ok { st' with offset := st.offset + 1 } := by
  have hsize : st.offset + [(0 : UInt8)].length = st.bufferSize + 1 := by
    simp [hat.offset, hat.bufferSize]
  rw [handleToken, check_bind _ _ _ (by decide), check_bind _ _ _ (.inr rfl),
    check_bind _ _ _ (.inr rfl), check_bind _ _ _ (.inr hsize), check_bind _ _ _ (.inl rfl),
    check_bind _ _ _ (.inl rfl), check_bind _ _ _ hat.messages_le,
    check_bind _ _ _ hat.errors_le, hd]
  rfl

theorem handleToken_header {done rest : Buffer} {st : State} (h : TableHeader)
    (hat : At done (h.binary ++ rest) st) (htok : st.tokenizingHeader = true) :
    handleToken st h.token h.binary = .ok (st.reading h []) := by
  have hheader := headerOf_token h
  have hd : dispatch st h.token h.binary = .ok
      { st with
        messages := st.messages ++ [openMessage st.buffer st.offset h []]
        tokenizingHeader := false } := by
    rw [dispatch_of_isSome st _ _ (by rw [hheader]; rfl), handleHeader,
      check_bind _ _ _ (by rw [hheader]; rfl), check_bind _ _ _ htok, hheader]
    simp only [MessageProxy.new, size_tableHeader, toBinary_tableHeader]
    cases Build.asserts <;> simp [bind, Except.bind, pure, Except.pure, openMessage, payload, locate]
  have hne := List.ne_nil_of_length_pos (Lexer.binary_length_pos h)
  have htoken : h.token ≠ .eof := fun heof => by rw [heof] at hheader; cases hheader
  rw [handleToken_of_dispatch h.token hat hne htoken hd]
  simp [State.reading, payload]

theorem handleToken_payload {done rest a : Buffer} {st : State} (h : TableHeader)
    (arguments : List Buffer)
    (hat : At done (h.binary ++ payload (arguments ++ [a]) ++ rest) st) :
    handleToken (st.reading h arguments) .payload (asciiUnitSeparator :: a)
      = .ok (st.reading h (arguments ++ [a])) := by
  have hat' : At (done ++ (h.binary ++ payload arguments)) (asciiUnitSeparator :: a ++ rest)
      (st.reading h arguments) := by
    apply At.reading
    simpa [payload_append, payload_cons, payload] using hat
  have hd : dispatch (st.reading h arguments) .payload (asciiUnitSeparator :: a) = .ok
      { st.reading h arguments with
        messages := st.messages ++ [openMessage st.buffer st.offset h (arguments ++ [a])] } := by
    have hne : (st.reading h arguments).messages ≠ [] := by simp [State.reading]
    rw [dispatch, handlePayload, check_bind _ _ _ rfl,
      check_bind _ _ (0 < (asciiUnitSeparator :: a).length) (Nat.succ_pos _),
      check_bind _ _ ((asciiUnitSeparator :: a).head? = some asciiUnitSeparator) rfl,
      check_bind _ _ _ hne]
    simp [back, bind, Except.bind, pure, Except.pure, State.reading, openMessage, locate_append,
      payload, Nat.add_assoc]
  rw [handleToken_of_dispatch .payload hat' (List.cons_ne_nil _ _) (by decide) hd]
  simp [State.reading, payload, Nat.add_assoc]

theorem handleToken_messageSeparator {done rest : Buffer} {st : State} (h : TableHeader)
    (arguments : List Buffer)
    (hat : At done (h.binary ++ payload arguments ++ asciiRecordSeparator :: rest) st) :
    handleToken (st.reading h arguments) .messageSeparator [asciiRecordSeparator] = .ok
      { st with
        messages := st.messages ++ if h.Allows arguments.length then
          [{ openMessage st.buffer st.offset h arguments with
              size := (serialize h.binary arguments).length }] else []
        errors := st.errors ++ if h.Allows arguments.length then []
          else [⟨⟨st.offset, (serialize h.binary arguments).length⟩, .invalidNumberOfArguments⟩]
        tokenizingHeader := true
        offset := st.offset + (serialize h.binary arguments).length } := by
  have hat' : At (done ++ (h.binary ++ payload arguments)) ([asciiRecordSeparator] ++ rest)
      (st.reading h arguments) := by
    apply At.reading
    simpa using hat
  have hsize : (serialize h.binary arguments).length
      = (h.binary ++ payload arguments).length + 1 := by
    rw [serialize_eq, List.length_append, List.length_singleton]
  have hne : (st.reading h arguments).messages ≠ [] := by simp [State.reading]
  have hd : dispatch (st.reading h arguments) .messageSeparator [asciiRecordSeparator] = .ok
      { st.reading h arguments with
        messages := st.messages ++ if h.Allows arguments.length then
          [{ openMessage st.buffer st.offset h arguments with
              size := (serialize h.binary arguments).length }] else []
        errors := st.errors ++ if h.Allows arguments.length then []
          else [⟨⟨st.offset, (serialize h.binary arguments).length⟩, .invalidNumberOfArguments⟩]
        tokenizingHeader := true } := by
    rw [dispatch, handleMessageSeparator, check_bind _ _ _ rfl,
      check_bind _ _ ([asciiRecordSeparator].length = 1) rfl,
      check_bind _ _ ([asciiRecordSeparator].head? = some asciiRecordSeparator) rfl,
      check_bind _ _ _ hne]
    have hallows : (h.arity.1 ≤ arguments.length ∧ arguments.length ≤ h.arity.2) ↔
        h.Allows arguments.length := Iff.rfl
    by_cases hargs : h.Allows arguments.length <;>
      simp [back, bind, Except.bind, pure, Except.pure, State.reading, openMessage,
        MessageProxy.numArguments, length_locate, hallows, hargs, hsize]
  rw [handleToken_of_dispatch .messageSeparator hat' (List.cons_ne_nil _ _) (by decide) hd]
  simp [State.reading, hsize, Nat.add_assoc]

theorem handleToken_unexpected {done text rest : Buffer} {st : State}
    (hat : At done (text ++ rest) st) (hne : text ≠ []) (htok : st.tokenizingHeader = true) :
    handleToken st .unknown text = .ok
      { st with
        errors := st.errors ++ [⟨⟨st.offset, text.length⟩, .unexpectedToken⟩]
        offset := st.offset + text.length } := by
  have hd : dispatch st .unknown text = .ok { st with
      errors := st.errors ++ [⟨⟨st.offset, text.length⟩, .unexpectedToken⟩] } := by
    rw [dispatch, handleError, check_bind _ _ _ (.inr rfl),
      check_bind _ _ _ (List.length_pos_iff.mpr hne), if_neg nofun, if_pos ⟨rfl, htok⟩]
    rfl
  exact handleToken_of_dispatch .unknown hat hne (by decide) hd

theorem handleToken_corrupt {done text rest : Buffer} {st : State} (h : TableHeader)
    (arguments : List Buffer) (hat : At done (h.binary ++ payload arguments ++ (text ++ rest)) st)
    (hne : text ≠ []) :
    handleToken (st.reading h arguments) .unknown text = .ok
      { st with
        errors := st.errors ++
          [⟨⟨st.offset, (h.binary ++ payload arguments).length + text.length⟩, .corruptPayload⟩]
        tokenizingHeader := true
        offset := st.offset + (h.binary ++ payload arguments ++ text).length } := by
  have hmessages : (st.reading h arguments).messages ≠ [] := by simp [State.reading]
  have hd : dispatch (st.reading h arguments) .unknown text = .ok { st with
      errors := st.errors ++
        [⟨⟨st.offset, (h.binary ++ payload arguments).length + text.length⟩, .corruptPayload⟩]
      tokenizingHeader := true
      offset := (st.reading h arguments).offset } := by
    rw [dispatch, handleError, check_bind _ _ _ (.inr rfl),
      check_bind _ _ _ (List.length_pos_iff.mpr hne), if_neg nofun, if_neg nofun, if_pos rfl,
      check_bind _ _ _ hmessages]
    simp [back, bind, Except.bind, pure, Except.pure, State.reading, openMessage]
  rw [handleToken_of_dispatch .unknown hat.reading hne (by decide) hd]
  simp [State.reading, Nat.add_assoc]

theorem handleToken_eof_header {done : Buffer} {st : State} (hat : At done [] st)
    (htok : st.tokenizingHeader = true) :
    handleToken st .eof [0] = .ok { st with offset := st.offset + 1 } := by
  apply handleToken_eof hat
  rw [dispatch, check_bind _ _ _ (by simp [hat.offset, hat.bufferSize]), if_neg (by simp [htok])]
  rfl

theorem handleToken_eof_payload {done : Buffer} {st : State} (h : TableHeader)
    (arguments : List Buffer) (hat : At done (h.binary ++ payload arguments) st) :
    handleToken (st.reading h arguments) .eof [0] = .ok
      { st with
        errors := st.errors ++
          [⟨⟨(st.reading h arguments).offset, 1⟩, .unexpectedEof⟩]
        tokenizingHeader := true
        offset := (st.reading h arguments).offset + 1 } := by
  have hat' : At (done ++ (h.binary ++ payload arguments)) [] (st.reading h arguments) := by
    apply At.reading
    simpa using hat
  have hmessages : (st.reading h arguments).messages ≠ [] := by simp [State.reading]
  have hend : (st.reading h arguments).offset = (st.reading h arguments).bufferSize := by
    simp [hat'.offset, hat'.bufferSize]
  have htok : (st.reading h arguments).tokenizingHeader = false := rfl
  have hd : dispatch (st.reading h arguments) .eof [0] = .ok { st with
      errors := st.errors ++ [⟨⟨(st.reading h arguments).offset, 1⟩, .unexpectedEof⟩]
      tokenizingHeader := true
      offset := (st.reading h arguments).offset } := by
    rw [dispatch, check_bind _ _ _ hend, if_pos htok, handleError, check_bind _ _ _ (.inl rfl),
      check_bind _ _ _ (by decide), if_pos rfl, check_bind _ _ _ htok, check_bind _ _ _ hmessages]
    simp [back, bind, Except.bind, pure, Except.pure, State.reading]
  exact handleToken_eof hat' hd

end Handlers

section Runs
variable [Build]

/-- `k` matches take the scanner from `s` to `s'` and, with the handler called for every
token, the parser from `st` to `st'`. -/
def Runs (k : Nat) (s s' : Lexer.Scanner) (st st' : State) : Prop :=
  ∃ out, Steps Lexer.spec k s out s' ∧ handleTokens st out = .ok st'

theorem runs_silent {s s' : Lexer.Scanner} {st : State}
    (hstep : step Lexer.spec s = (none, some s')) : Runs 1 s s' st st :=
  ⟨[], .head hstep (.refl s'), rfl⟩

theorem handleTokens_singleton (st : State) (token : Token) (text : Buffer) :
    handleTokens st [(token, text)] = handleToken st token text := by
  simp [handleTokens]

theorem runs_token {s s' : Lexer.Scanner} {st st' : State} {token : Token} {text : Buffer}
    (hstep : step Lexer.spec s = (some (token, text), some s'))
    (hhandle : handleToken st token text = .ok st') : Runs 1 s s' st st' := by
  exact ⟨[(token, text)], .head hstep (.refl s'), by rw [handleTokens_singleton, hhandle]⟩

theorem handleTokens_append {st st' : State} (first later : List (Token × Buffer))
    (h : handleTokens st first = .ok st') :
    handleTokens st (first ++ later) = handleTokens st' later := by
  rw [handleTokens, List.foldlM_append, ← handleTokens, h]
  rfl

theorem Runs.trans {k n : Nat} {s s' s'' : Lexer.Scanner} {st st' st'' : State}
    (h : Runs k s s' st st') (hlater : Runs n s' s'' st' st'') : Runs (k + n) s s'' st st'' := by
  obtain ⟨first, hsteps, hfirst⟩ := h
  obtain ⟨later, hsteps', hlast⟩ := hlater
  exact ⟨first ++ later, hsteps.trans hsteps', by rw [handleTokens_append _ _ hfirst, hlast]⟩

/-- The header and the arguments it is followed by. -/
theorem runs_payload {done rest : Buffer} {st : State} (h : TableHeader)
    (before arguments : List Buffer) (hread : ∀ a ∈ arguments, Readable a)
    (hstop : Stops arguments rest)
    (hat : At done (h.binary ++ payload (before ++ arguments) ++ rest) st) :
    Runs arguments.length ⟨.yypayload, [], payload arguments ++ rest⟩ ⟨.yypayload, [], rest⟩
      (st.reading h before) (st.reading h (before ++ arguments)) := by
  induction arguments generalizing before with
  | nil => exact ⟨[], .refl _, by rw [List.append_nil]; rfl⟩
  | cons a as ih =>
      have ha := hread a List.mem_cons_self
      have hstep := Lexer.step_payload a (payload as ++ rest) ha.1 (isNs_of_readable a ha)
        (head_payload a as rest hstop)
      rw [← List.append_assoc] at hstep
      have hat' : At done (h.binary ++ payload (before ++ [a]) ++ (payload as ++ rest)) st := by
        simpa [payload_append, payload_cons, payload] using hat
      have hhandle := handleToken_payload h before hat'
      have hlater := ih (before ++ [a]) (fun b hb => hread b (List.mem_cons_of_mem _ hb))
        ⟨fun _ => hstop.1 (List.cons_ne_nil _ _), hstop.2⟩ (by simpa using hat)
      rw [List.append_assoc, List.singleton_append] at hlater
      rw [payload_cons, List.length_cons, Nat.add_comm]
      exact (runs_token hstep hhandle).trans hlater

/-- One round of scanner and parser over `first`, in `k` matches. -/
structure Round (k : Nat) (done first rest : Buffer) (st st' : State) : Prop where
  runs : Runs k ⟨.initial, [], first ++ rest⟩ ⟨.initial, [], rest⟩ st st'
  matches_le : k ≤ 2 * first.length
  here : At (done ++ first) rest st'
  expectsHeader : st'.tokenizingHeader = true
  buffer : st'.buffer = st.buffer

/-- A round over the text of a sentence. -/
structure ReadRound (k : Nat) (done rest : Buffer) (s : Sentence) (st st' : State) : Prop
    extends Round k done s.text rest st st' where
  messages : st'.messages = st.messages ++ [messageOf st.buffer st.offset s]
  errors : st'.errors = st.errors

/-- A round over a broken stretch. -/
structure SkipRound (k : Nat) (done first rest : Buffer) (st st' : State) : Prop
    extends Round k done first rest st st', Broken first rest where
  nonempty : first ≠ []
  messages : st'.messages = st.messages
  errors : ∃ e, st'.errors = st.errors ++ [e]

theorem round_separator {done rest : Buffer} {st : State}
    (hat : At done ([asciiRecordSeparator] ++ rest) st) (htok : st.tokenizingHeader = true) :
    ∃ k st', SkipRound k done [asciiRecordSeparator] rest st st' := by
  have hhandle := handleToken_unexpected hat (List.cons_ne_nil _ _) htok
  have hbroken : Broken [asciiRecordSeparator] rest := by
    refine ⟨fun s r h => ?_, [], _, rfl, List.not_mem_nil, by simp, by simp⟩
    obtain ⟨c, t, hbin⟩ := List.exists_cons_of_length_pos (Lexer.binary_length_pos s.header)
    rw [text_eq, hbin] at h
    obtain ⟨rfl, -⟩ := List.cons.inj h
    exact Lexer.not_mem_binary s.header (by rw [hbin]; exact List.mem_cons_self)
  exact ⟨_, _,
    { runs := runs_token (Lexer.step_separator rest) hhandle
      matches_le := by decide
      here := hat.advance (List.cons_ne_nil _ _) rfl rfl rfl (by simp) (by simp)
      expectsHeader := htok
      buffer := rfl
      toBroken := hbroken
      nonempty := List.cons_ne_nil _ _
      messages := rfl
      errors := ⟨_, rfl⟩ }⟩

theorem round_unknown {done rest : Buffer} {st : State} (x : UInt8) (hx : x ≠ asciiRecordSeparator)
    (hno : ∀ h : TableHeader, ¬h.binary <+: x :: rest) (hat : At done (x :: rest) st)
    (htok : st.tokenizingHeader = true) :
    ∃ k first after st', x :: rest = first ++ after ∧ SkipRound k done first after st st' := by
  obtain ⟨text, separators, after, rfl, htext, hseparators, hafter, hend⟩ := exists_discarded rest
  have hne : x :: text ++ separators ≠ [] := List.cons_ne_nil _ _
  have hat' : At done (x :: text ++ separators ++ after) st := by simpa using hat
  have hunknown := Lexer.step_unknown x _ hx hno
  have herror := step_error x text separators after htext hseparators hafter hend
  have hruns := (runs_silent hunknown).trans
    (runs_token herror (handleToken_unexpected hat' hne htok))
  have hbroken : Broken (x :: text ++ separators) after := by
    refine ⟨fun s r h => hno s.header ⟨payload s.arguments ++ [asciiRecordSeparator] ++ r, ?_⟩,
      x :: text, separators, rfl, ?_, hseparators, hend⟩
    · rw [text_eq] at h
      simpa using h.symm
    · rw [List.mem_cons, not_or]
      exact ⟨hx.symm, fun h => htext _ h rfl⟩
  refine ⟨_, x :: text ++ separators, after, _, by simp,
    { runs := hruns
      matches_le := by simp
      here := hat'.advance hne rfl rfl rfl (by simp) (by simp)
      expectsHeader := htok
      buffer := rfl
      toBroken := hbroken
      nonempty := hne
      messages := rfl
      errors := ⟨_, rfl⟩ }⟩

/-- A message has been read up to its header and arguments. -/
structure Opened (done rest : Buffer) (st : State) (h : TableHeader) (arguments : List Buffer) :
    Prop where
  here : At done (h.binary ++ payload arguments ++ rest) st
  expectsHeader : st.tokenizingHeader = true
  longest : ∀ h' : TableHeader, h'.binary <+: h.binary ++ (payload arguments ++ rest) →
    h'.binary.length ≤ h.binary.length
  readable : ∀ a ∈ arguments, Readable a
  stops : Stops arguments rest

section Header
variable {done rest : Buffer} {st : State} {h : TableHeader} {arguments : List Buffer}

theorem Opened.runs (hopen : Opened done rest st h arguments) :
    Runs (1 + arguments.length) ⟨.initial, [], h.binary ++ payload arguments ++ rest⟩
      ⟨.yypayload, [], rest⟩ st (st.reading h arguments) := by
  have hat : At done (h.binary ++ (payload arguments ++ rest)) st := by simpa using hopen.here
  have hheader := handleToken_header h hat hopen.expectsHeader
  rw [List.append_assoc]
  exact (runs_token (Lexer.step_header h _ hopen.longest) hheader).trans
    (runs_payload h [] arguments hopen.readable hopen.stops hopen.here)

omit [Build] in
theorem Opened.sentence (hopen : Opened done rest st h arguments) (s : Sentence) (r : Buffer)
    (hs : h.binary ++ payload arguments ++ rest = s.text ++ r) :
    s.header = h ∧ s.arguments = arguments ∧ rest = asciiRecordSeparator :: r :=
  text_append_unique s h arguments r rest hopen.readable hopen.stops
    (by rw [← hs, List.append_assoc]) hopen.longest

omit [Build] in
theorem Opened.not_mem (hopen : Opened done rest st h arguments) :
    asciiRecordSeparator ∉ h.binary ++ payload arguments := by
  rw [List.mem_append, not_or]
  exact ⟨Lexer.not_mem_binary h, not_mem_payload _ hopen.readable⟩

omit [Build] in
theorem length_arguments_lt (h : TableHeader) (arguments : List Buffer) :
    1 + arguments.length ≤ (h.binary ++ payload arguments).length := by
  have hpos := Lexer.binary_length_pos h
  have hle := length_le_payload arguments
  rw [List.length_append]
  omega

/-- The end of a message whose header allows its arguments. -/
theorem round_sentence (hopen : Opened done (asciiRecordSeparator :: rest) st h arguments)
    (hallowed : h.Allows arguments.length) :
    ∃ k s st', s.text = h.binary ++ payload arguments ++ [asciiRecordSeparator] ∧
      ReadRound k done rest s st st' := by
  let s : Sentence := ⟨h, arguments, hopen.readable, hallowed⟩
  have hhandle := handleToken_messageSeparator h arguments hopen.here
  rw [if_pos hallowed, if_pos hallowed, List.append_nil] at hhandle
  have hruns := hopen.runs.trans (runs_token (Lexer.step_messageSeparator rest) hhandle)
  have htext : h.binary ++ payload arguments ++ asciiRecordSeparator :: rest = s.text ++ rest := by
    simp [text_eq, s]
  have hat : At done (s.text ++ rest) st := htext ▸ hopen.here
  rw [htext] at hruns
  have hlen := length_arguments_lt h arguments
  refine ⟨_, s, _, rfl,
    { runs := hruns
      matches_le := ?_
      here := hat.advance (text_ne_nil s) rfl rfl rfl (by simp) (by simp)
      expectsHeader := rfl
      buffer := rfl
      messages := rfl
      errors := rfl }⟩
  rw [text_eq, List.length_append, List.length_singleton]
  change _ ≤ 2 * ((h.binary ++ payload arguments).length + 1)
  omega

theorem round_arity (hopen : Opened done (asciiRecordSeparator :: rest) st h arguments)
    (hallowed : ¬h.Allows arguments.length) :
    ∃ k st',
      SkipRound k done (h.binary ++ payload arguments ++ [asciiRecordSeparator]) rest st st' := by
  have hhandle := handleToken_messageSeparator h arguments hopen.here
  rw [if_neg hallowed, if_neg hallowed, List.append_nil] at hhandle
  have hruns := hopen.runs.trans (runs_token (Lexer.step_messageSeparator rest) hhandle)
  have htext : h.binary ++ payload arguments ++ asciiRecordSeparator :: rest
      = h.binary ++ payload arguments ++ [asciiRecordSeparator] ++ rest := by simp
  have hne : h.binary ++ payload arguments ++ [asciiRecordSeparator] ≠ [] := by simp
  have hat := htext ▸ hopen.here
  rw [htext] at hruns
  have hlen := length_arguments_lt h arguments
  have hbroken : Broken (h.binary ++ payload arguments ++ [asciiRecordSeparator]) rest := by
    refine ⟨fun s r hs => ?_, _, _, rfl, hopen.not_mem, by simp, by simp⟩
    obtain ⟨rfl, rfl, -⟩ := hopen.sentence s r (htext.trans hs)
    exact hallowed s.allowed
  refine ⟨_, _,
    { runs := hruns
      matches_le := ?_
      here := hat.advance hne rfl rfl rfl (by simp) (by simp)
      expectsHeader := rfl
      buffer := rfl
      toBroken := hbroken
      nonempty := hne
      messages := rfl
      errors := ⟨_, rfl⟩ }⟩
  rw [List.length_append, List.length_singleton]
  omega

theorem round_corrupt (x : UInt8) (hx : x ≠ asciiRecordSeparator)
    (hopen : Opened done (x :: rest) st h arguments) :
    ∃ k first after st', h.binary ++ payload arguments ++ x :: rest = first ++ after ∧
      SkipRound k done first after st st' := by
  obtain ⟨text, separators, after, rfl, htext, hseparators, hafter, hend⟩ := exists_discarded rest
  have hat : At done (h.binary ++ payload arguments ++ (x :: text ++ separators ++ after)) st := by
    simpa using hopen.here
  have hstep := Lexer.step_corrupt x (text ++ separators ++ after) hx fun hmps c hc => by
    obtain ⟨t, ht⟩ : ∃ t, text ++ separators ++ after = c :: t := by
      cases htail : text ++ separators ++ after with
      | nil => simp [htail] at hc
      | cons d t => exact ⟨t, by simp_all⟩
    exact hopen.stops.2 c t (by rw [hmps, ht]; rfl)
  have hhandle := handleToken_corrupt h arguments hat (List.cons_ne_nil _ _)
  have hruns := (hopen.runs.trans (runs_silent hstep)).trans
    (runs_token (step_error x text separators after htext hseparators hafter hend) hhandle)
  have hinput : h.binary ++ payload arguments ++ x :: (text ++ separators ++ after)
      = h.binary ++ payload arguments ++ (x :: text ++ separators) ++ after := by simp
  have hat' := hinput ▸ hopen.here
  rw [hinput] at hruns
  have hne : h.binary ++ payload arguments ++ (x :: text ++ separators) ≠ [] := by simp
  have hlen := length_arguments_lt h arguments
  have hbroken : Broken (h.binary ++ payload arguments ++ (x :: text ++ separators)) after := by
    refine ⟨fun s r hs => ?_, h.binary ++ payload arguments ++ x :: text, separators, by simp, ?_,
      hseparators, hend⟩
    · obtain ⟨-, -, hrest⟩ := hopen.sentence s r (hinput.trans hs)
      exact hx (List.cons.inj hrest).1
    · rw [List.mem_append, List.mem_cons, not_or, not_or]
      exact ⟨hopen.not_mem, hx.symm, fun hm => htext _ hm rfl⟩
  refine ⟨_, _, after, _, hinput,
    { runs := hruns
      matches_le := ?_
      here := hat'.advance hne rfl rfl rfl (by simp) (by simp)
      expectsHeader := rfl
      buffer := rfl
      toBroken := hbroken
      nonempty := hne
      messages := rfl
      errors := ⟨_, rfl⟩ }⟩
  simp only [List.length_append, List.length_cons] at hlen ⊢
  omega

end Header

omit [Build] in
/-- The header at which the lexer has to stop, if there is one. -/
theorem exists_longest (x : Buffer) (hx : ∃ h : TableHeader, h.binary <+: x) :
    ∃ (h : TableHeader) (rest : Buffer), x = h.binary ++ rest ∧
      ∀ h' : TableHeader, h'.binary <+: x → h'.binary.length ≤ h.binary.length := by
  obtain ⟨h, ⟨rest, hrest⟩, hmax⟩ := Set.exists_max_image { h : TableHeader | h.binary <+: x }
    (fun h => h.binary.length) (Set.toFinite _) hx
  exact ⟨h, rest, hrest.symm, hmax⟩

/-- From the beginning of a piece there is one more round, or the input ends inside or
before a message. -/
theorem round_cases {done x : Buffer} {st : State} (hat : At done x st)
    (htok : st.tokenizingHeader = true) :
    x = [] ∨
    (∃ h arguments, x = h.binary ++ payload arguments ∧ Opened done [] st h arguments) ∨
    (∃ k s rest st', x = s.text ++ rest ∧ ReadRound k done rest s st st') ∨
    (∃ k first rest st', x = first ++ rest ∧ SkipRound k done first rest st st') := by
  cases x with
  | nil => exact .inl rfl
  | cons c t =>
      refine .inr ?_
      by_cases hc : c = asciiRecordSeparator
      · subst hc
        obtain ⟨k, st', hround⟩ := round_separator hat htok
        exact .inr (.inr ⟨k, _, t, st', rfl, hround⟩)
      by_cases hheader : ∃ h : TableHeader, h.binary <+: c :: t
      · obtain ⟨h, after, hx, hmax⟩ := exists_longest _ hheader
        obtain ⟨arguments, rest, rfl, hread, hstop⟩ := exists_payload after
        rw [hx] at hat hmax ⊢
        rw [← List.append_assoc] at hat ⊢
        have hopen : Opened done rest st h arguments := ⟨hat, htok, hmax, hread, hstop⟩
        cases rest with
        | nil => exact .inl ⟨h, arguments, List.append_nil _, hopen⟩
        | cons d rest =>
            by_cases hd : d = asciiRecordSeparator
            · subst hd
              by_cases hallowed : h.Allows arguments.length
              · obtain ⟨k, s, st', htext, hround⟩ := round_sentence hopen hallowed
                exact .inr (.inl ⟨k, s, rest, st', by rw [htext]; simp, hround⟩)
              · obtain ⟨k, st', hround⟩ := round_arity hopen hallowed
                exact .inr (.inr ⟨k, _, rest, st', by simp, hround⟩)
            · exact .inr (.inr (round_corrupt d hd hopen))
      · exact .inr (.inr (round_unknown c hc (not_exists.mp hheader) hat htok))

end Runs

/-- What a returned message says about a sentence at an offset. -/
structure Reads [Build] (m : MessageProxy) (offset : Nat) (s : Sentence) : Prop where
  header : m.header = s.header.val
  offset : m.offset = offset
  size : m.size = s.text.length
  numArguments : m.numArguments = s.arguments.length
  get : ∀ i (hi : i < s.arguments.length), m.get i = .ok s.arguments[i]

theorem reads_messageOf [Build] (s : Sentence) (before after : Buffer) :
    Reads (messageOf (before ++ s.text ++ after) before.length s) before.length s := by
  refine ⟨rfl, rfl, rfl, length_locate _ _, fun i hi => ?_⟩
  obtain ⟨loc, hloc, hslice⟩ := slice_locate s.arguments (before ++ s.header.binary)
    (asciiRecordSeparator :: after) i hi
  have hbase : before ++ s.text ++ after = before ++ s.header.binary ++ payload s.arguments ++
      asciiRecordSeparator :: after := by simp [text_eq]
  rw [List.length_append] at hloc
  have hlen : i < (messageOf (before ++ s.text ++ after) before.length s).arguments.length :=
    hi.trans_eq (length_locate _ _).symm
  have hget : (messageOf (before ++ s.text ++ after) before.length s).arguments[i]? = some loc :=
    hloc
  rw [MessageProxy.get, check_bind _ _ _ hlen, hget]
  rw [← hbase] at hslice
  exact hslice

/-- A message of a batch is the one its piece stands for. -/
def IsMessageAt (p : Buffer) (m : MessageProxy) (q : Nat × Buffer) : Prop :=
  ∃ s : Sentence, s.text = q.2 ∧ m = messageOf p q.1 s ∧
    ∃ before after, p = before ++ s.text ++ after ++ [0, 0] ∧ before.length = q.1

/-- The result of scanning the rest of a batch. -/
structure Scanned [Build] (fuel : Nat) (done x : Buffer) (st : State) (messages : List MessageProxy)
    (errors : List Error) : Prop where
  runs : ∃ tokens st', Flex.tokens Lexer.spec fuel ⟨.initial, [], x⟩ = some tokens ∧
    handleTokens st tokens = .ok st' ∧ st'.messages = st.messages ++ messages ∧
    st'.errors = st.errors ++ errors
  messages : List.Forall₂ (IsMessageAt st.buffer) messages (referencePieces done.length x)
  errors : errors = [] ↔ IsBatch x

section Scan
variable [Build] {done : Buffer} {st : State}

theorem scanned_nil (fuel : Nat) (hat : At done [] st) (htok : st.tokenizingHeader = true) :
    Scanned (fuel + 1) done [] st [] [] := by
  have hhandle := handleToken_eof_header hat htok
  rw [← handleTokens_singleton] at hhandle
  exact ⟨⟨_, _, tokens_of_terminate _ _ _ fuel (Lexer.step_eof .initial nofun), hhandle,
    (List.append_nil _).symm, (List.append_nil _).symm⟩, .nil, iff_of_true rfl ⟨[], rfl⟩⟩

theorem scanned_unterminated {h : TableHeader} {arguments : List Buffer} (fuel : Nat)
    (hopen : Opened done [] st h arguments) :
    ∃ e, Scanned (1 + arguments.length + (fuel + 1)) done (h.binary ++ payload arguments) st []
      [e] := by
  obtain ⟨out, hsteps, hhandle⟩ := hopen.runs
  have hlast := tokens_of_terminate _ _ _ fuel (Lexer.step_eof .yypayload nofun)
  have hat := hopen.here
  rw [List.append_nil] at hsteps hat
  have hbroken : Broken (h.binary ++ payload arguments) [] := by
    refine ⟨fun s r hs => ?_, _, [], (List.append_nil _).symm, hopen.not_mem, by simp, by simp⟩
    obtain ⟨-, -, hrest⟩ := hopen.sentence s r hs
    cases hrest
  have hne : h.binary ++ payload arguments ≠ [] := by
    simp [List.ne_nil_of_length_pos (Lexer.binary_length_pos h)]
  have heof := handleToken_eof_payload h arguments hat
  rw [← handleTokens_singleton, ← handleTokens_append _ _ hhandle] at heof
  refine ⟨_, ⟨_, _, tokens_of_steps _ _ _ _ _ _ _ hsteps hlast, heof,
    (List.append_nil _).symm, rfl⟩, ?_, ?_⟩
  · have hskip := referencePieces_broken done.length _ _ hbroken
    rw [List.append_nil] at hskip
    rw [hskip]
    exact .nil
  · have := not_isBatch_broken _ _ hne hbroken
    rw [List.append_nil] at this
    exact iff_of_false (List.cons_ne_nil _ _) this

theorem Round.scan {k : Nat} {first rest : Buffer} {st' : State} {messages : List MessageProxy}
    {errors : List Error} {fuel : Nat} (hround : Round k done first rest st st')
    (hscan : Scanned fuel (done ++ first) rest st' messages errors) :
    ∃ tokens st'',
      Flex.tokens Lexer.spec (k + fuel) ⟨.initial, [], first ++ rest⟩ = some tokens ∧
      handleTokens st tokens = .ok st'' ∧ st''.messages = st'.messages ++ messages ∧
      st''.errors = st'.errors ++ errors := by
  obtain ⟨out, hsteps, hhandle⟩ := hround.runs
  obtain ⟨tokens, st'', htokens, hlater, hresult⟩ := hscan.runs
  exact ⟨out ++ tokens, st'', tokens_of_steps _ _ _ _ _ _ _ hsteps htokens,
    by rw [handleTokens_append _ _ hhandle, hlater], hresult⟩

theorem ReadRound.scanned {k : Nat} {rest : Buffer} {s : Sentence} {st' : State}
    {messages : List MessageProxy} {errors : List Error} {fuel : Nat}
    (hround : ReadRound k done rest s st st') (hat : At done (s.text ++ rest) st)
    (hscan : Scanned fuel (done ++ s.text) rest st' messages errors) :
    Scanned (k + fuel) done (s.text ++ rest) st
      (messageOf st.buffer st.offset s :: messages) errors := by
  obtain ⟨tokens, st'', htokens, hhandle, hmsgs, herrs⟩ := hround.toRound.scan hscan
  refine ⟨⟨tokens, st'', htokens, hhandle, ?_, ?_⟩, ?_, ?_⟩
  · rw [hmsgs, hround.messages, List.append_assoc]
    rfl
  · rw [herrs, hround.errors]
  · rw [referencePieces_text, ← List.length_append, ← hround.buffer]
    refine .cons ⟨s, rfl, by rw [hat.offset], done, rest, ?_, rfl⟩ hscan.messages
    simp [hround.buffer, hat.buffer]
  · rw [hscan.errors, isBatch_text]

theorem SkipRound.scanned {k : Nat} {first rest : Buffer} {st' : State}
    {messages : List MessageProxy} {errors : List Error} {fuel : Nat}
    (hround : SkipRound k done first rest st st')
    (hscan : Scanned fuel (done ++ first) rest st' messages errors) :
    ∃ e, Scanned (k + fuel) done (first ++ rest) st messages (e :: errors) := by
  obtain ⟨tokens, st'', htokens, hhandle, hmsgs, herrs⟩ := hround.toRound.scan hscan
  obtain ⟨e, he⟩ := hround.errors
  refine ⟨e, ⟨tokens, st'', htokens, hhandle, ?_, ?_⟩, ?_, ?_⟩
  · rw [hmsgs, hround.messages]
  · rw [herrs, he, List.append_assoc]
    rfl
  · rw [referencePieces_broken _ _ _ hround.toBroken, ← List.length_append, ← hround.buffer]
    exact hscan.messages
  · exact iff_of_false (List.cons_ne_nil _ _)
      (not_isBatch_broken _ _ hround.nonempty hround.toBroken)

/-- Every batch is read to its end, by induction on its length. -/
theorem exists_scanned {x : Buffer} (hat : At done x st) (htok : st.tokenizingHeader = true)
    (fuel : Nat) (hfuel : 2 * x.length < fuel) :
    ∃ messages errors, Scanned fuel done x st messages errors := by
  induction hn : x.length using Nat.strong_induction_on generalizing x done st fuel with
  | _ n ih =>
      rcases round_cases hat htok with rfl | ⟨h, arguments, rfl, hopen⟩ |
        ⟨k, s, rest, st', rfl, hround⟩ | ⟨k, first, rest, st', rfl, hround⟩
      · obtain ⟨fuel, rfl⟩ := Nat.exists_eq_succ_of_ne_zero (Nat.ne_of_gt (Nat.zero_lt_of_lt hfuel))
        exact ⟨[], [], scanned_nil fuel hat htok⟩
      · have hlen := length_arguments_lt h arguments
        obtain ⟨e, hscan⟩ := scanned_unterminated (fuel - arguments.length - 2) hopen
        rw [show 1 + arguments.length + (fuel - arguments.length - 2 + 1) = fuel by omega] at hscan
        exact ⟨[], [e], hscan⟩
      · have hpos := List.length_pos_iff.mpr (text_ne_nil s)
        have hle := hround.matches_le
        rw [List.length_append] at hn hfuel
        obtain ⟨messages, errors, hscan⟩ := ih rest.length (by omega) hround.here
          hround.expectsHeader (fuel - k) (by omega) rfl
        have hread := hround.scanned hat hscan
        rw [show k + (fuel - k) = fuel by omega] at hread
        exact ⟨_, _, hread⟩
      · have hpos := List.length_pos_iff.mpr hround.nonempty
        have hle := hround.matches_le
        rw [List.length_append] at hn hfuel
        obtain ⟨messages, errors, hscan⟩ := ih rest.length (by omega) hround.here
          hround.expectsHeader (fuel - k) (by omega) rfl
        obtain ⟨e, hskip⟩ := hround.scanned hscan
        rw [show k + (fuel - k) = fuel by omega] at hskip
        exact ⟨_, _, hskip⟩

end Scan

/-- A batch is followed by two NUL bytes, and the scanner has matches enough. -/
theorem execute_of_tokens [Build] {x : Buffer} {tokens : List (Token × Buffer)} {st : State}
    (htokens : Flex.tokens Lexer.spec (2 * (x ++ [0, 0]).length) ⟨.initial, [], x⟩ = some tokens)
    (hhandle : handleTokens { buffer := x ++ [0, 0], bufferSize := x.length } tokens = .ok st) :
    execute (x ++ [0, 0]) = .ok (st.messages, st.errors) := by
  have hlast : (x ++ [(0 : UInt8), 0]).getLast? = some 0 := by simp
  have hinit : (x ++ [(0 : UInt8), 0]).dropLast = x ++ [0] := by
    rw [List.dropLast_append_of_ne_nil (by simp)]
    rfl
  have hinput : (x ++ [(0 : UInt8), 0]).dropLast.dropLast = x := by
    rw [hinit, List.dropLast_concat]
  have hsecond : (x ++ [(0 : UInt8), 0]).dropLast.getLast? = some 0 := by simp [hinit]
  rw [execute, check_bind _ _ _ hsecond, check_bind _ _ _ hlast, if_pos ⟨hsecond, hlast⟩]
  simp only [hinput, htokens, hhandle]
  rfl

/-- What `execute` returns, with every message as the parser built it. -/
theorem execute_eq [Build] (x : Buffer) :
    ∃ messages errors, execute (x ++ [0, 0]) = .ok (messages, errors) ∧
      List.Forall₂ (IsMessageAt (x ++ [0, 0])) messages (referencePieces 0 x) ∧
      (errors = [] ↔ IsBatch x) := by
  have hat : At [] x { buffer := x ++ [0, 0], bufferSize := x.length } :=
    ⟨rfl, rfl, rfl, Nat.le_refl _, Nat.le_refl _⟩
  obtain ⟨messages, errors, ⟨tokens, st', htokens, hhandle, hmsgs, herrs⟩, hread, hbatch⟩ :=
    exists_scanned hat rfl (2 * (x ++ [0, 0]).length) (by simp)
  refine ⟨messages, errors, ?_, hread, hbatch⟩
  rw [execute_of_tokens htokens hhandle, hmsgs, herrs]
  rfl

/-- A returned message stands for a sentence of the batch, at the offset of its piece. -/
def Denotes [Build] (m : MessageProxy) (q : Nat × Buffer) : Prop :=
  ∃ s : Sentence, s.text = q.2 ∧ Reads m q.1 s

theorem IsMessageAt.denotes [Build] {x : Buffer} {m : MessageProxy} {q : Nat × Buffer}
    (h : IsMessageAt x m q) : Denotes m q := by
  obtain ⟨offset, text⟩ := q
  obtain ⟨s, htext, rfl, before, after, hp, rfl⟩ := h
  rw [hp, List.append_assoc (before ++ s.text)]
  exact ⟨s, htext, reads_messageOf s before (after ++ [0, 0])⟩

theorem exists_of_forall₂ {α β : Type} {R : α → β → Prop} {as : List α} {bs : List β}
    (h : List.Forall₂ R as bs) : (∀ a ∈ as, ∃ b ∈ bs, R a b) ∧ ∀ b ∈ bs, ∃ a ∈ as, R a b := by
  induction h with
  | nil => exact ⟨nofun, nofun⟩
  | cons hab _ ih =>
      constructor
      · intro a ha
        cases List.mem_cons.mp ha with
        | inl heq => exact ⟨_, List.mem_cons_self .., heq ▸ hab⟩
        | inr hmem =>
            obtain ⟨b, hb, hrel⟩ := ih.1 a hmem
            exact ⟨b, List.mem_cons_of_mem _ hb, hrel⟩
      · intro b hb
        cases List.mem_cons.mp hb with
        | inl heq => exact ⟨_, List.mem_cons_self .., heq ▸ hab⟩
        | inr hmem =>
            obtain ⟨a, ha, hrel⟩ := ih.2 b hmem
            exact ⟨a, List.mem_cons_of_mem _ ha, hrel⟩

/-- A returned message has a header of the table and all its arguments. -/
theorem exists_reads [Build] {x : Buffer} {messages : List MessageProxy} {errors : List Error}
    (hexecute : execute (x ++ [0, 0]) = .ok (messages, errors)) {m : MessageProxy}
    (hm : m ∈ messages) : ∃ offset s, Reads m offset s := by
  obtain ⟨messages', errors', hexecute', hread, -⟩ := execute_eq x
  rw [hexecute] at hexecute'
  cases hexecute'
  obtain ⟨q, -, hat⟩ := (exists_of_forall₂ hread).1 m hm
  obtain ⟨s, -, hreads⟩ := hat.denotes
  exact ⟨q.1, s, hreads⟩

/-- `execute` returns the messages of the reference grammar and reports an error iff
something was skipped. -/
theorem execute_reads_reference [Build] (x : Buffer) :
    ∃ messages errors, execute (x ++ [0, 0]) = .ok (messages, errors) ∧
      List.Forall₂ Denotes messages (referencePieces 0 x) ∧ (errors = [] ↔ IsBatch x) := by
  obtain ⟨messages, errors, hexecute, hread, hbatch⟩ := execute_eq x
  exact ⟨messages, errors, hexecute, hread.imp fun _ _ h => h.denotes, hbatch⟩

end Deepstream.Parser
