import Deepstream.Message

/-!
`MessageBuilder`: the messages the client sends.

An argument is refused when it contains a unit separator, so a builder carries
that fact. The size of a message is accumulated in an `int`; `toBinary_eq` says
that this is harmless exactly below two gibibytes of arguments.
-/

namespace Deepstream

def ptrdiffMax : Nat := 2 ^ 63 - 1

/-- `std::vector<Buffer>::max_size()`, with 24 bytes for a `Buffer`. -/
def maxArguments : Nat := ptrdiffMax / 24

structure MessageBuilder where
  header : Header
  arguments : List Buffer := []
  arguments_clean : ∀ a ∈ arguments, asciiUnitSeparator ∉ a := by simp
  length_arguments : arguments.length ≤ maxArguments := by decide

/-- The wire form of a message: its header, every argument behind a unit separator,
and a record separator. -/
def serialize (header : Buffer) (arguments : List Buffer) : Buffer :=
  header ++ arguments.flatMap (asciiUnitSeparator :: ·) ++ [asciiRecordSeparator]

namespace MessageBuilder

/-- The constructor, which takes no arguments of the message. -/
def ofHeader (header : Header) : MessageBuilder := { header }

/-- `MessageBuilder::add_argument` -/
def addArgument (m : MessageBuilder) (arg : Buffer) : Except Failure MessageBuilder :=
  if hsep : asciiUnitSeparator ∈ arg then
    .error (.thrown (.invalidArgument "ASCII unit separator in payload detected"))
  else if hlen : m.arguments.length < maxArguments then
    .ok { header := m.header
          arguments := m.arguments ++ [arg]
          arguments_clean := by
            intro a ha
            rcases List.mem_append.mp ha with ha | ha
            · exact m.arguments_clean a ha
            · rwa [List.mem_singleton.mp ha]
          length_arguments := by rwa [List.length_append] }
  else .error (.thrown .lengthError)

/-- `std::accumulate` over the sizes of the arguments, with an `int` as accumulator. -/
def accumulate (arguments : List Buffer) : Int :=
  arguments.foldl (fun k arg => Int.bmod (k + arg.length) (2 ^ 32)) 0

/-- `MessageBuilder::size_impl_`, a sum of `std::size_t` values. -/
def size [Build] (m : MessageBuilder) : Except Failure Nat := do
  let headerSize ← m.header.size
  return ((headerSize + m.arguments.length + accumulate m.arguments + 1) % 2 ^ 64).toNat

/-- `MessageBuilder::get_impl_` -/
def get (m : MessageBuilder) (i : Nat) : Except Failure Buffer :=
  match m.arguments[i]? with
  | some arg => .ok arg
  | none => .error .outOfBounds

/-- `MessageBuilder::to_binary_impl_`. A buffer of more than `PTRDIFF_MAX` bytes cannot be
constructed, and writing past the end of a smaller one is undefined. -/
def toBinary [Build] (m : MessageBuilder) : Except Failure Buffer := do
  let size ← m.size
  if ptrdiffMax < size then
    throw (.thrown .lengthError)
  else do
    let binHeader ← m.header.toBinary
    let written := serialize binHeader m.arguments
    if size < written.length then
      throw .undefined
    else do
      check .messageBuilder "out + 1 == buffer.end()" (written.length = size)
      return written ++ List.replicate (size - written.length) 0

/-- The number of payload bytes, separators not counted. -/
def payloadSize (m : MessageBuilder) : Nat :=
  (m.arguments.map List.length).sum

theorem addArgument_eq_ok (m m' : MessageBuilder) (arg : Buffer)
    (h : m.addArgument arg = .ok m') :
    asciiUnitSeparator ∉ arg ∧ m'.header = m.header ∧ m'.arguments = m.arguments ++ [arg] := by
  unfold addArgument at h
  split at h
  · cases h
  · split at h
    · cases h
      exact ⟨by assumption, rfl, rfl⟩
    · cases h

theorem addArgument_of_not_mem (m : MessageBuilder) (arg : Buffer)
    (hsep : asciiUnitSeparator ∉ arg) (hlen : m.arguments.length < maxArguments) :
    ∃ m', m.addArgument arg = .ok m' := by
  rw [addArgument, dif_neg hsep, dif_pos hlen]
  exact ⟨_, rfl⟩

/-- Arguments added one after another -/
def addArguments (m : MessageBuilder) (args : List Buffer) : Except Failure MessageBuilder :=
  args.foldlM addArgument m

theorem addArguments_eq_ok (m m' : MessageBuilder) (args : List Buffer)
    (h : m.addArguments args = .ok m') :
    m'.header = m.header ∧ m'.arguments = m.arguments ++ args := by
  induction args generalizing m with
  | nil =>
      cases h
      simp
  | cons arg args ih =>
      unfold addArguments at h
      rw [List.foldlM_cons] at h
      cases hfirst : m.addArgument arg with
      | error f =>
          rw [hfirst] at h
          cases h
      | ok m₁ =>
          rw [hfirst] at h
          obtain ⟨-, hheader, harguments⟩ := addArgument_eq_ok m m₁ arg hfirst
          obtain ⟨hheader', harguments'⟩ := ih m₁ h
          rw [hheader', harguments', hheader, harguments, List.append_assoc]
          exact ⟨rfl, rfl⟩

/-- Arguments are refused exactly for a unit separator, as long as there is room. -/
theorem addArguments_cases (m : MessageBuilder) (args : List Buffer)
    (hlen : m.arguments.length + args.length ≤ maxArguments) :
    (∀ arg ∈ args, asciiUnitSeparator ∉ arg) ∧ (∃ m', m.addArguments args = .ok m') ∨
      (∃ arg ∈ args, asciiUnitSeparator ∈ arg) ∧ m.addArguments args =
        .error (.thrown (.invalidArgument "ASCII unit separator in payload detected")) := by
  induction args generalizing m with
  | nil => exact .inl ⟨by simp, m, rfl⟩
  | cons arg args ih =>
      rw [List.length_cons] at hlen
      unfold addArguments
      rw [List.foldlM_cons]
      by_cases hsep : asciiUnitSeparator ∈ arg
      · have hfirst : m.addArgument arg = .error
            (.thrown (.invalidArgument "ASCII unit separator in payload detected")) := by
          rw [addArgument, dif_pos hsep]
        rw [hfirst]
        exact .inr ⟨⟨arg, List.mem_cons_self .., hsep⟩, rfl⟩
      · obtain ⟨m₁, hfirst⟩ := addArgument_of_not_mem m arg hsep (by omega)
        obtain ⟨-, -, harguments⟩ := addArgument_eq_ok m m₁ arg hfirst
        rw [hfirst]
        have hroom : m₁.arguments.length + args.length ≤ maxArguments := by
          rw [harguments, List.length_append, List.length_singleton]
          omega
        cases ih m₁ hroom with
        | inl h =>
            refine .inl ⟨?_, h.2⟩
            intro a ha
            cases List.mem_cons.mp ha with
            | inl ha => rwa [ha]
            | inr ha => exact h.1 a ha
        | inr h =>
            obtain ⟨⟨a, ha, hsep'⟩, herror⟩ := h
            exact .inr ⟨⟨a, List.mem_cons_of_mem _ ha, hsep'⟩, herror⟩

theorem accumulate_eq (arguments : List Buffer) :
    accumulate arguments = Int.bmod ((arguments.map List.length).sum : Nat) (2 ^ 32) := by
  have general : ∀ k : Int,
      arguments.foldl (fun k arg => Int.bmod (k + arg.length) (2 ^ 32)) (Int.bmod k (2 ^ 32))
        = Int.bmod (k + ((arguments.map List.length).sum : Nat)) (2 ^ 32) := by
    induction arguments with
    | nil => simp
    | cons arg arguments ih =>
        intro k
        rw [List.foldl_cons, Int.bmod_add_bmod, ih (k + arg.length)]
        push_cast [List.map_cons, List.sum_cons]
        rw [Int.add_assoc]
  simpa [accumulate] using general 0

theorem length_serialize (header : Buffer) (arguments : List Buffer) :
    (serialize header arguments).length
      = header.length + arguments.length + (arguments.map List.length).sum + 1 := by
  induction arguments with
  | nil => simp [serialize]
  | cons arg arguments ih =>
      simp only [serialize, List.length_append, List.flatMap_cons, List.length_cons,
        List.length_nil, List.map_cons, List.sum_cons] at ih ⊢
      omega

theorem length_binary_lt (h : TableHeader) : h.binary.length < 64 := by
  revert h
  rw [forall_tableHeader]
  decide

theorem size_eq [Build] (m : MessageBuilder) (h : TableHeader) (hm : m.header = h.val) :
    m.size = .ok ((h.binary.length + m.arguments.length + Int.bmod m.payloadSize (2 ^ 32) + 1) %
      2 ^ 64 : Int).toNat := by
  simp only [size, hm, size_tableHeader, accumulate_eq, payloadSize]
  rfl

/-- Serialisation succeeds exactly when the payload fits into an `int`. -/
theorem toBinary_eq [Build] (m : MessageBuilder) (h : TableHeader) (hm : m.header = h.val) :
    (m.payloadSize < 2 ^ 31 → m.toBinary = .ok (serialize h.binary m.arguments)) ∧
    (2 ^ 31 ≤ m.payloadSize → m.toBinary = .error (.thrown .lengthError) ∨
      m.toBinary = .error .undefined) := by
  have hlen := length_serialize h.binary m.arguments
  have hcount : m.arguments.length ≤ (2 ^ 63 - 1) / 24 := m.length_arguments
  have hptrdiff : ptrdiffMax = 2 ^ 63 - 1 := rfl
  have hheader := length_binary_lt h
  have hsize := m.size_eq h hm
  have hbin : m.header.toBinary = .ok h.binary := by rw [hm, toBinary_tableHeader]
  change _ = _ + _ + m.payloadSize + 1 at hlen
  generalize hn : ((h.binary.length + m.arguments.length + Int.bmod m.payloadSize (2 ^ 32) + 1) %
    2 ^ 64 : Int).toNat = n at hsize
  constructor
  · intro hsmall
    have hwrap : Int.bmod m.payloadSize (2 ^ 32) = m.payloadSize :=
      Int.bmod_eq_of_le (by omega) (by omega)
    rw [hwrap] at hn
    have hnlen : n = (serialize h.binary m.arguments).length := by omega
    have hmax : ¬ ptrdiffMax < (serialize h.binary m.arguments).length := by omega
    simp only [toBinary, hsize, hbin, hnlen, bind, Except.bind, if_neg hmax, pure, Except.pure,
      Nat.lt_irrefl, if_false, check_of, Nat.sub_self, List.replicate_zero, List.append_nil]
  · intro hlarge
    have hlow := Int.le_bmod (x := m.payloadSize) (Nat.two_pow_pos 32)
    have hhigh := Int.bmod_lt (x := m.payloadSize) (Nat.two_pow_pos 32)
    simp only [toBinary, hsize, hbin, bind, Except.bind]
    by_cases hmax : ptrdiffMax < n
    · exact .inl (if_pos hmax)
    · have hover : n < (serialize h.binary m.arguments).length := by omega
      exact .inr ((if_neg hmax).trans (if_pos hover))

/-- A negative sum makes a size that no buffer can have. -/
theorem toBinary_negative [Build] (m : MessageBuilder) (h : TableHeader) (hm : m.header = h.val)
    (hcount : m.arguments.length ≤ 2) (hlow : 2 ^ 31 ≤ m.payloadSize)
    (hhigh : m.payloadSize < 3 * 2 ^ 30) : m.toBinary = .error (.thrown .lengthError) := by
  have hheader := length_binary_lt h
  have hptrdiff : ptrdiffMax = 2 ^ 63 - 1 := rfl
  have hwrap : Int.bmod m.payloadSize (2 ^ 32) = m.payloadSize - 2 ^ 32 := by
    rw [Int.bmod_def]
    omega
  unfold toBinary
  rw [m.size_eq h hm, hwrap]
  apply if_pos
  omega

end MessageBuilder
end Deepstream
