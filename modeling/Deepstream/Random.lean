import Deepstream.RoundTrip
import Deepstream.Sampling.Generator

/-!
Random messages.

The tests of the parser and the program that makes input for a fuzzer draw
messages from an engine. Whatever is drawn, the output is a batch that is decoded
to the messages it was made of, and every short message is made by some draws.
-/

namespace Deepstream

open Sampling (Engine Generator Yields Covers draw times)

namespace Random

inductive Fault where
  | assertion (text : String)
  | failure (f : Failure)
  deriving DecidableEq, Repr

/-- Reading past the table of headers and a distribution whose bounds cross are undefined. -/
def Fault.undefined : Fault := .failure .undefined

def lift {E : Engine} {α : Type} (x : Except Failure α) : Generator E Fault α :=
  liftM (x.mapError Fault.failure)

/-- A number out of `[CHAR_MIN, CHAR_MAX - 2]`, with a gap in place of the separators -/
def skipSeparators (c : Int) : Int := if c < 30 then c else c + 2

/-- The conversion to `char`, which is a signed type. -/
def toChar (c : Int) : UInt8 := UInt8.ofNat (c % 256).toNat

section Functions
variable [Build] (E : Engine)

/-- The `assert` macro. -/
def check (text : String) (cond : Prop) [Decidable cond] : Generator E Fault Unit :=
  if Build.asserts = true ∧ ¬cond then throw (.assertion text) else return ()

/-- `make_header` -/
def makeHeader : Generator E Fault Header := do
  let i ← draw E .undefined 0 (headers.length - 1 : Nat)
  match headers[i.toNat]? with
  | some header => return header
  | none => throw .undefined

/-- The function `f` of `make_argument` -/
def makeLetter : Generator E Fault UInt8 := do
  let c ← draw E .undefined (-128) (127 - 2)
  check E "c != ASCII_RECORD_SEPARATOR" (skipSeparators c ≠ 30)
  check E "c != ASCII_UNIT_SEPARATOR" (skipSeparators c ≠ 31)
  return toChar (skipSeparators c)

/-- `make_argument` -/
def makeArgument (minSize maxSize : Nat) : Generator E Fault Buffer := do
  check E "min_size <= max_size" (minSize ≤ maxSize)
  let size ← draw E .undefined minSize maxSize
  times (makeLetter E) size.toNat

def hardNumArgsLimit : Nat := 25

/-- The loop of `make_message` -/
def addArguments (builder : MessageBuilder) : Nat → Generator E Fault MessageBuilder
  | 0 => return builder
  | n + 1 => do
      let arg ← makeArgument E 1 10
      let builder ← lift (builder.addArgument arg)
      addArguments builder n

/-- `make_message` with a header -/
def makeMessageOf (header : Header) : Generator E Fault MessageBuilder := do
  let (minNumArgs, expectedMax) ← lift header.numArguments
  let maxNumArgs := min hardNumArgsLimit expectedMax
  let numArgs ← draw E .undefined minNumArgs maxNumArgs
  addArguments E (.ofHeader header) numArgs.toNat

/-- `make_message` -/
def makeMessage : Generator E Fault MessageBuilder := do
  let header ← makeHeader E
  makeMessageOf E header

/-- The loop of `main` in `make-fuzzer-input.cpp` -/
def fill (maxNumBytes : Nat) : Nat → Buffer → Generator E Fault Buffer
  | 0, _ => throw (.failure .exhausted)
  | fuel + 1, output => do
      let m ← makeMessage E
      let size ← lift m.size
      if maxNumBytes < (output.length + size) % 2 ^ 64 then
        return output
      else do
        let binary ← lift m.toBinary
        fill maxNumBytes fuel (output ++ binary)

/-- The vector that `main` in `make-fuzzer-input.cpp` hands to `write`, which may write less of
it. Every message takes a byte, so the loop ends within the fuel. -/
def makeFuzzerInput (maxNumBytes : Nat) : Generator E Fault Buffer :=
  if ptrdiffMax < maxNumBytes then
    throw (.failure (.thrown .lengthError))
  else
    fill E maxNumBytes (maxNumBytes + 1) []

end Functions

/-- A sentence with as many arguments, and with arguments as long, as are drawn -/
structure Drawn (s : Sentence) : Prop where
  length_arguments : s.arguments.length ≤ hardNumArgsLimit
  length_argument : ∀ a ∈ s.arguments, a.length ≤ 10

/-- A letter of an argument -/
def IsLetter (c : UInt8) : Prop :=
  c ≠ asciiRecordSeparator ∧ c ≠ asciiUnitSeparator

/-- An argument that can be drawn -/
def IsDrawn (arg : Buffer) : Prop :=
  1 ≤ arg.length ∧ arg.length ≤ 10 ∧ ∀ c ∈ arg, IsLetter c

section Letters

theorem skipSeparators_ne (c : Int) : skipSeparators c ≠ 30 ∧ skipSeparators c ≠ 31 := by
  unfold skipSeparators
  split <;> omega

theorem toNat_toChar (c : Int) : (toChar c).toNat = (c % 256).toNat := by
  rw [toChar, UInt8.toNat_ofNat']
  omega

theorem isLetter_skipSeparators {c : Int} (hlow : -128 ≤ c) (hhigh : c ≤ 127 - 2) :
    IsLetter (toChar (skipSeparators c)) := by
  obtain ⟨hrs, hus⟩ := skipSeparators_ne c
  have hbounds : -128 ≤ skipSeparators c ∧ skipSeparators c ≤ 127 := by
    unfold skipSeparators
    split <;> omega
  generalize skipSeparators c = d at hrs hus hbounds
  constructor
  · intro h
    have hnat : (d % 256).toNat = 30 := (toNat_toChar d).symm.trans (congrArg UInt8.toNat h)
    omega
  · intro h
    have hnat : (d % 256).toNat = 31 := (toNat_toChar d).symm.trans (congrArg UInt8.toNat h)
    omega

/-- Every letter is drawn. -/
theorem exists_skipSeparators {c : UInt8} (hc : IsLetter c) :
    ∃ d : Int, -128 ≤ d ∧ d ≤ 127 - 2 ∧ toChar (skipSeparators d) = c := by
  have hlt := c.toNat_lt
  have hrs : c.toNat ≠ 30 := fun h => hc.1 (UInt8.toNat_inj.mp h)
  have hus : c.toNat ≠ 31 := fun h => hc.2 (UInt8.toNat_inj.mp h)
  -- the `char` with the bits of `c`, and the draw it comes from
  obtain ⟨d, hlow, hhigh, hd⟩ : ∃ d : Int, -128 ≤ d ∧ d ≤ 127 - 2 ∧
      skipSeparators d % 256 = c.toNat := by
    by_cases hsmall : c.toNat < 30
    · refine ⟨c.toNat, by omega, by omega, ?_⟩
      rw [skipSeparators, if_pos (by omega)]
      omega
    · by_cases hascii : c.toNat < 128
      · refine ⟨c.toNat - 2, by omega, by omega, ?_⟩
        rw [skipSeparators, if_neg (by omega)]
        omega
      · refine ⟨c.toNat - 256, by omega, by omega, ?_⟩
        rw [skipSeparators, if_pos (by omega)]
        omega
  refine ⟨d, hlow, hhigh, UInt8.toNat_inj.mp ?_⟩
  rw [toNat_toChar, hd, Int.toNat_natCast]

end Letters

section Draws
variable [Build]

omit [Build] in
theorem lift_ok {E : Engine} {α : Type} {x : Except Failure α} {a : α} (h : x = .ok a) :
    (lift x : Generator E Fault α) = pure a := by
  subst h
  rfl

theorem check_pos (E : Engine) (text : String) (cond : Prop) [Decidable cond] (h : cond) :
    check E text cond = pure () :=
  if_neg fun hfail => hfail.2 h

theorem makeLetter_eq (E : Engine) :
    makeLetter E = draw E .undefined (-128) (127 - 2) >>= fun c =>
      pure (toChar (skipSeparators c)) := by
  unfold makeLetter
  congr 1
  funext c
  obtain ⟨hrs, hus⟩ := skipSeparators_ne c
  rw [check_pos E _ _ hrs, check_pos E _ _ hus, pure_bind, pure_bind]

theorem makeLetter_yields (E : Engine) : Yields (makeLetter E) IsLetter := by
  rw [makeLetter_eq]
  refine (Yields.draw (by decide)).bind fun c hc => .pure ?_
  exact isLetter_skipSeparators hc.1 hc.2

theorem makeLetter_covers {c : UInt8} (hc : IsLetter c) :
    Covers (makeLetter Sampling.scripted) c := by
  obtain ⟨d, hlow, hhigh, rfl⟩ := exists_skipSeparators hc
  rw [makeLetter_eq]
  exact (Covers.draw hlow hhigh).bind (.pure _)

theorem makeArgument_eq (E : Engine) {minSize maxSize : Nat} (h : minSize ≤ maxSize) :
    makeArgument E minSize maxSize = draw E .undefined minSize maxSize >>= fun size =>
      times (makeLetter E) size.toNat := by
  rw [makeArgument, check_pos E _ _ h, pure_bind]

theorem makeArgument_yields (E : Engine) {minSize maxSize : Nat} (h : minSize ≤ maxSize) :
    Yields (makeArgument E minSize maxSize) fun arg =>
      minSize ≤ arg.length ∧ arg.length ≤ maxSize ∧ ∀ c ∈ arg, IsLetter c := by
  rw [makeArgument_eq E h]
  refine (Yields.draw (by omega)).bind fun size hsize => ?_
  refine ((makeLetter_yields E).times size.toNat).mono fun arg harg => ?_
  exact ⟨by omega, by omega, harg.2⟩

theorem makeArgument_covers {minSize maxSize : Nat} {arg : Buffer} (hmin : minSize ≤ arg.length)
    (hmax : arg.length ≤ maxSize) (harg : ∀ c ∈ arg, IsLetter c) :
    Covers (makeArgument Sampling.scripted minSize maxSize) arg := by
  rw [makeArgument_eq _ (hmin.trans hmax)]
  refine Covers.bind (a := (arg.length : Int)) (.draw (by omega) (by omega)) ?_
  exact .times fun c hc => makeLetter_covers (harg c hc)

omit [Build] in
theorem isDrawn_iff (arg : Buffer) : IsDrawn arg ↔ Readable arg ∧ arg.length ≤ 10 := by
  unfold IsDrawn Readable IsLetter
  rw [Nat.one_le_iff_ne_zero, ne_eq, List.length_eq_zero_iff, forall₂_and, List.forall_mem_ne',
    List.forall_mem_ne']
  tauto

theorem addArguments_yields (E : Engine) (builder : MessageBuilder) (n : Nat)
    (hroom : builder.arguments.length + n ≤ maxArguments) :
    Yields (addArguments E builder n) fun m => m.header = builder.header ∧
      ∃ args, args.length = n ∧ (∀ a ∈ args, IsDrawn a) ∧
        m.arguments = builder.arguments ++ args := by
  induction n generalizing builder with
  | zero => exact .pure ⟨rfl, [], rfl, by simp, (List.append_nil _).symm⟩
  | succ n ih =>
      refine (makeArgument_yields E (by decide)).bind fun arg harg => ?_
      obtain ⟨next, hnext⟩ := MessageBuilder.addArgument_of_not_mem builder arg
        ((isDrawn_iff arg).mp harg).1.2.2 (by omega)
      obtain ⟨-, hheader, harguments⟩ := MessageBuilder.addArgument_eq_ok _ _ _ hnext
      rw [lift_ok hnext, pure_bind]
      have hlen : next.arguments.length = builder.arguments.length + 1 := by
        rw [harguments, List.length_append, List.length_singleton]
      refine (ih next (by omega)).mono ?_
      rintro m ⟨hm, args, rfl, hargs, hargsm⟩
      refine ⟨hm.trans hheader, arg :: args, rfl, List.forall_mem_cons.mpr ⟨harg, hargs⟩, ?_⟩
      rw [hargsm, harguments, List.append_assoc]
      rfl

theorem addArguments_covers (builder : MessageBuilder) (args : List Buffer)
    (hroom : builder.arguments.length + args.length ≤ maxArguments)
    (hargs : ∀ a ∈ args, IsDrawn a) : ∃ m, m.header = builder.header ∧
      m.arguments = builder.arguments ++ args ∧
      Covers (addArguments Sampling.scripted builder args.length) m := by
  induction args generalizing builder with
  | nil => exact ⟨builder, rfl, (List.append_nil _).symm, .pure builder⟩
  | cons arg args ih =>
      obtain ⟨harg, hargs⟩ := List.forall_mem_cons.mp hargs
      rw [List.length_cons] at hroom
      obtain ⟨next, hnext⟩ := MessageBuilder.addArgument_of_not_mem builder arg
        ((isDrawn_iff arg).mp harg).1.2.2 (by omega)
      obtain ⟨-, hheader, harguments⟩ := MessageBuilder.addArgument_eq_ok _ _ _ hnext
      have hlen : next.arguments.length = builder.arguments.length + 1 := by
        rw [harguments, List.length_append, List.length_singleton]
      obtain ⟨m, hm, hargsm, hcovers⟩ := ih next (by omega) hargs
      refine ⟨m, hm.trans hheader, ?_, ?_⟩
      · rw [hargsm, harguments, List.append_assoc]
        rfl
      · refine (makeArgument_covers harg.1 harg.2.1 harg.2.2).bind ?_
        rw [lift_ok hnext, pure_bind]
        exact hcovers

end Draws

section Messages

theorem arity_le (h : TableHeader) :
    h.arity.1 ≤ min hardNumArgsLimit h.arity.2 ∧ min hardNumArgsLimit h.arity.2 ≤ maxArguments := by
  revert h
  rw [forall_tableHeader]
  decide

theorem makeHeader_yields (E : Engine) : Yields (makeHeader E) (· ∈ headers) := by
  refine (Yields.draw (by decide)).bind fun i hi => ?_
  have hlt : i.toNat < headers.length := by
    have hlen : headers.length = 30 := rfl
    rw [hlen] at hi ⊢
    omega
  rw [List.getElem?_eq_getElem hlt]
  exact .pure (List.getElem_mem hlt)

theorem makeHeader_covers {header : Header} (h : header ∈ headers) :
    Covers (makeHeader Sampling.scripted) header := by
  obtain ⟨i, hi, rfl⟩ := List.mem_iff_getElem.mp h
  refine Covers.bind (a := (i : Int)) (.draw (by omega) (by omega)) ?_
  rw [Int.toNat_natCast, List.getElem?_eq_getElem hi]
  exact .pure _

variable [Build]

theorem makeMessageOf_eq (E : Engine) (h : TableHeader) :
    makeMessageOf E h.val =
      draw E .undefined h.arity.1 (min hardNumArgsLimit h.arity.2 : Nat) >>= fun numArgs =>
        addArguments E (.ofHeader h.val) numArgs.toNat := by
  rw [makeMessageOf, lift_ok (numArguments_tableHeader h), pure_bind]

/-- Every message is valid: it stands for a sentence of the grammar. -/
theorem makeMessageOf_yields (E : Engine) (h : TableHeader) :
    Yields (makeMessageOf E h.val) fun m => ∃ s : Sentence, s.header = h ∧ Stands m s ∧ Drawn s := by
  obtain ⟨hle, hmax⟩ := arity_le h
  rw [makeMessageOf_eq]
  refine (Yields.draw (by omega)).bind fun numArgs hnum => ?_
  refine (addArguments_yields E (.ofHeader h.val) numArgs.toNat ?_).mono ?_
  · change 0 + _ ≤ _
    omega
  rintro m ⟨hheader, args, hlen, hargs, hargsm⟩
  replace hargs := fun a ha => (isDrawn_iff a).mp (hargs a ha)
  refine ⟨⟨h, args, fun a ha => (hargs a ha).1, by omega, by omega⟩, rfl, ⟨hheader, hargsm⟩, ?_⟩
  exact ⟨by simp only; omega, fun a ha => (hargs a ha).2⟩

theorem makeMessage_yields (E : Engine) :
    Yields (makeMessage E) fun m => ∃ s : Sentence, Stands m s ∧ Drawn s := by
  refine (makeHeader_yields E).bind fun header hheader => ?_
  refine (makeMessageOf_yields E ⟨header, hheader⟩).mono ?_
  exact fun m ⟨s, _, hs⟩ => ⟨s, hs⟩

theorem makeMessage_covers {s : Sentence} (hs : Drawn s) :
    ∃ m, Stands m s ∧ Covers (makeMessage Sampling.scripted) m := by
  obtain ⟨hle, hmax⟩ := arity_le s.header
  have hlength := hs.length_arguments
  obtain ⟨hlow, hhigh⟩ := s.allowed
  obtain ⟨m, hheader, hargs, hcovers⟩ := addArguments_covers (.ofHeader s.header.val) s.arguments
    (by change 0 + _ ≤ _; omega)
    fun a ha => (isDrawn_iff a).mpr ⟨s.readable a ha, hs.length_argument a ha⟩
  refine ⟨m, ⟨hheader, hargs⟩, (makeHeader_covers s.header.property).bind ?_⟩
  rw [makeMessageOf_eq]
  refine Covers.bind (a := (s.arguments.length : Int)) (.draw (by omega) (by omega)) ?_
  rwa [Int.toNat_natCast]

end Messages

section Output

/-- The largest message that is drawn: a query for 25 users with names of ten bytes -/
def largestMessage : Nat := 279

theorem length_payload_le (args : List Buffer) (h : ∀ a ∈ args, a.length ≤ 10) :
    (args.map List.length).sum ≤ 10 * args.length := by
  induction args with
  | nil => exact Nat.zero_le _
  | cons a args ih =>
      obtain ⟨ha, hargs⟩ := List.forall_mem_cons.mp h
      have := ih hargs
      simp only [List.map_cons, List.sum_cons, List.length_cons]
      omega

theorem length_binary_arity (h : TableHeader) :
    h.binary.length + 11 * min hardNumArgsLimit h.arity.2 + 1 ≤ largestMessage := by
  revert h
  rw [forall_tableHeader]
  decide

theorem Drawn.length_text {s : Sentence} (hs : Drawn s) :
    0 < s.text.length ∧ s.text.length ≤ largestMessage := by
  have hlen := MessageBuilder.length_serialize s.header.binary s.arguments
  have hsum := length_payload_le s.arguments hs.length_argument
  have hmax := length_binary_arity s.header
  have hcount := le_min hs.length_arguments s.allowed.2
  unfold Sentence.text
  omega

theorem Drawn.payloadSize {m : MessageBuilder} {s : Sentence} (hs : Drawn s) (hm : Stands m s) :
    m.payloadSize < 2 ^ 31 := by
  have hsum := length_payload_le s.arguments hs.length_argument
  have hcount : s.arguments.length ≤ 25 := hs.length_arguments
  rw [MessageBuilder.payloadSize, hm.2]
  omega

variable [Build]

theorem Drawn.toBinary {m : MessageBuilder} {s : Sentence} (hs : Drawn s) (hm : Stands m s) :
    m.toBinary = .ok s.text := by
  rw [(m.toBinary_eq s.header hm.1).1 (hs.payloadSize hm), hm.2]
  rfl

theorem Drawn.size {m : MessageBuilder} {s : Sentence} (hs : Drawn s) (hm : Stands m s) :
    m.size = .ok s.text.length := by
  have hlen := MessageBuilder.length_serialize s.header.binary s.arguments
  have hpayload := hs.payloadSize hm
  have hmax : s.text.length ≤ 279 := hs.length_text.2
  have hwrap : Int.bmod m.payloadSize (2 ^ 32) = m.payloadSize :=
    Int.bmod_eq_of_le (by omega) (by omega)
  have haccumulate : MessageBuilder.accumulate m.arguments = m.payloadSize :=
    (MessageBuilder.accumulate_eq m.arguments).trans hwrap
  unfold MessageBuilder.payloadSize at haccumulate
  unfold MessageBuilder.size
  rw [hm.1, size_tableHeader, haccumulate, hm.2]
  unfold Sentence.text at hmax ⊢
  refine congrArg Except.ok ?_
  omega

theorem fill_of_drawn (E : Engine) {maxNumBytes fuel : Nat} {output : Buffer} {m : MessageBuilder}
    {s : Sentence} (hs : Drawn s) (hm : Stands m s) (hmax : maxNumBytes ≤ ptrdiffMax)
    (hroom : output.length ≤ maxNumBytes) :
    (do
      let size ← lift m.size
      if maxNumBytes < (output.length + size) % 2 ^ 64 then
        return output
      else do
        let binary ← lift m.toBinary
        fill E maxNumBytes fuel (output ++ binary)) =
      if maxNumBytes < output.length + s.text.length then
        (pure output : Generator E Fault Buffer)
      else fill E maxNumBytes fuel (output ++ s.text) := by
  have hlarge : s.text.length ≤ 279 := hs.length_text.2
  have hptrdiff : ptrdiffMax = 2 ^ 63 - 1 := rfl
  have hmod : (output.length + s.text.length) % 2 ^ 64 = output.length + s.text.length :=
    Nat.mod_eq_of_lt (by omega)
  simp only [lift_ok (hs.size hm), lift_ok (hs.toBinary hm), pure_bind, hmod]

/-- The output is a batch that leaves no room for another message. -/
theorem fill_yields (E : Engine) {maxNumBytes : Nat} (hmax : maxNumBytes ≤ ptrdiffMax)
    (fuel : Nat) (output : Buffer) (hfuel : maxNumBytes < output.length + fuel)
    (hroom : output.length ≤ maxNumBytes) :
    Yields (fill E maxNumBytes fuel output) fun x => ∃ ms ss, List.Forall₂ Stands ms ss ∧
      (∀ s ∈ ss, Drawn s) ∧ x = output ++ ss.flatMap Sentence.text ∧ x.length ≤ maxNumBytes ∧
      maxNumBytes < x.length + largestMessage := by
  induction fuel generalizing output with
  | zero => omega
  | succ fuel ih =>
      refine (makeMessage_yields E).bind fun m ⟨s, hm, hs⟩ => ?_
      obtain ⟨hpos, hlarge⟩ := hs.length_text
      rw [fill_of_drawn E hs hm hmax hroom]
      split
      · exact .pure ⟨[], [], .nil, by simp, (List.append_nil _).symm, hroom, by omega⟩
      · have hlen : (output ++ s.text).length = output.length + s.text.length := List.length_append
        refine (ih (output ++ s.text) (by omega) (by omega)).mono ?_
        rintro x ⟨ms, ss, hms, hss, rfl, hbounds⟩
        refine ⟨m :: ms, s :: ss, .cons hm hms, List.forall_mem_cons.mpr ⟨hs, hss⟩, ?_, hbounds⟩
        rw [List.flatMap_cons, List.append_assoc]

theorem concatBinary_drawn {ms : List MessageBuilder} {ss : List Sentence}
    (h : List.Forall₂ Stands ms ss) (hss : ∀ s ∈ ss, Drawn s) :
    concatBinary ms = .ok (ss.flatMap Sentence.text) := by
  induction h with
  | nil => rfl
  | cons hm _ ih =>
      obtain ⟨hs, hss⟩ := List.forall_mem_cons.mp hss
      rw [concatBinary, hs.toBinary hm, ih hss]
      rfl

/-- The input for a fuzzer is decoded without errors, to the messages it was made of,
and another message may not fit into it. -/
theorem makeFuzzerInput_decodes (E : Engine) (seed : E.State) (maxNumBytes : Nat)
    (hmax : maxNumBytes ≤ ptrdiffMax) : ∃ x state ms messages,
      (makeFuzzerInput E maxNumBytes).run seed = .ok (x, state) ∧ concatBinary ms = .ok x ∧
      (∀ m ∈ ms, m.header ∈ headers ∧ m.WellFormed) ∧
      Parser.execute (x ++ [0, 0]) = .ok (messages, []) ∧
      List.Forall₂ SameMessage messages ms ∧ x.length ≤ maxNumBytes ∧
      maxNumBytes < x.length + largestMessage := by
  obtain ⟨x, state, hrun, ms, ss, hms, hss, hx, hroom, hfull⟩ :=
    fill_yields E hmax (maxNumBytes + 1) [] (by simp) (Nat.zero_le _) seed
  obtain rfl : x = ss.flatMap Sentence.text := hx
  obtain ⟨messages, errors, hexecute, hread, hbatch⟩ :=
    Parser.execute_eq (ss.flatMap Sentence.text)
  obtain rfl := hbatch.mpr ⟨ss, rfl⟩
  replace hread := hread.imp fun _ _ h => h.denotes
  refine ⟨_, state, ms, messages, ?_, concatBinary_drawn hms hss, fun m hm => ?_, hexecute,
    forall₂_same ms ss messages hms (forall₂_flatMap ss 0 _ hread), hroom, hfull⟩
  · rw [makeFuzzerInput, if_neg (Nat.not_lt.mpr hmax)]
    exact hrun
  · obtain ⟨s, -, hs⟩ := (Parser.exists_of_forall₂ hms).1 m hm
    exact ⟨hs.1 ▸ s.header.property, wellFormed_of_sentence m s hs.1 hs.2⟩

end Output

/-- The engine draws the lower bound every time. -/
theorem makeFuzzerInput_decodes_lowest : 1000 ≤ ptrdiffMax ∧ ∃ x state ms messages,
    (@makeFuzzerInput debug Sampling.scripted 1000).run [] = .ok (x, state) ∧
    @concatBinary debug ms = .ok x ∧
    (∀ m ∈ ms, m.header ∈ headers ∧ @MessageBuilder.WellFormed debug m) ∧
    @Parser.execute debug (x ++ [0, 0]) = .ok (messages, []) ∧
    List.Forall₂ (@SameMessage debug) messages ms ∧ x.length ≤ 1000 ∧
    1000 < x.length + largestMessage :=
  ⟨by decide, @makeFuzzerInput_decodes debug Sampling.scripted [] 1000 (by decide)⟩

section Range
variable [Build]

/-- A valid message with at most 25 arguments of at most ten bytes -/
def Drawable (m : MessageBuilder) : Prop :=
  m.header ∈ headers ∧ m.WellFormed ∧ m.arguments.length ≤ hardNumArgsLimit ∧
    ∀ a ∈ m.arguments, a.length ≤ 10

theorem drawable_iff (m : MessageBuilder) : Drawable m ↔ ∃ s : Sentence, Stands m s ∧ Drawn s := by
  constructor
  · rintro ⟨hheader, hwf, hcount, hlength⟩
    obtain ⟨s, hs, hargs⟩ := hwf.sentence ⟨m.header, hheader⟩ rfl
    refine ⟨s, ⟨by rw [hs], hargs.symm⟩, ?_, ?_⟩
    · rwa [hargs]
    · rwa [hargs]
  · rintro ⟨s, ⟨hheader, hargs⟩, hs⟩
    refine ⟨hheader ▸ s.header.property, wellFormed_of_sentence m s hheader hargs, ?_, ?_⟩
    · rw [hargs]
      exact hs.length_arguments
    · rw [hargs]
      exact hs.length_argument

/-- Over all draws, `make_message` makes exactly the valid messages with at most 25 arguments of
at most ten bytes. -/
theorem makeMessage_range (m : MessageBuilder) :
    (∃ draws rest, (makeMessage Sampling.scripted).run draws = .ok (m, rest)) ↔ Drawable m := by
  rw [drawable_iff]
  constructor
  · rintro ⟨draws, rest, hrun⟩
    obtain ⟨m', rest', hrun', hm'⟩ := makeMessage_yields Sampling.scripted draws
    obtain rfl := congrArg Prod.fst (Except.ok.inj (hrun.symm.trans hrun'))
    exact hm'
  · rintro ⟨s, hm, hs⟩
    obtain ⟨m', hm', draws, hrun⟩ := makeMessage_covers hs
    obtain rfl : m' = m := by
      obtain ⟨header, arguments, _, _⟩ := m
      obtain ⟨header', arguments', _, _⟩ := m'
      obtain ⟨rfl, rfl⟩ := hm
      obtain ⟨rfl, rfl⟩ := hm'
      rfl
    refine ⟨draws ++ [], [], hrun []⟩

end Range

end Random
end Deepstream
