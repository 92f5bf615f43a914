import Deepstream.MessageBuilder

/-!
The copying loop of `to_binary_impl_`, one write after another.

`toBinary` says what a message becomes. Here its bytes are written at positions
of the buffer that was allocated, and `toBinary_eq_write` says that this comes
to the same.
-/

namespace Deepstream

/-- An iterator that writes to a buffer; it can stand at the end. -/
structure Output where
  buffer : Buffer
  position : Nat
  position_le : position ≤ buffer.length

namespace Output

/-- The bytes written so far -/
def written (out : Output) : Buffer :=
  out.buffer.take out.position

@[simp] theorem length_written (out : Output) : out.written.length = out.position :=
  List.length_take_of_le out.position_le

/-- The bytes of the buffer that were not written yet -/
def unwritten (out : Output) : Buffer :=
  out.buffer.drop out.position

/-- An iterator between two parts of its buffer. -/
def between (written unwritten : Buffer) : Output where
  buffer := written ++ unwritten
  position := written.length
  position_le := by
    rw [List.length_append]
    exact Nat.le_add_right ..

@[simp] theorem written_between (written unwritten : Buffer) :
    (between written unwritten).written = written :=
  List.take_left

@[simp] theorem unwritten_between (written unwritten : Buffer) :
    (between written unwritten).unwritten = unwritten :=
  List.drop_left

theorem between_written_unwritten (out : Output) : between out.written out.unwritten = out := by
  have hbuffer : out.written ++ out.unwritten = out.buffer := List.take_append_drop ..
  obtain ⟨buffer, position, hposition⟩ := out
  unfold between
  congr
  exact length_written _

/-- `std::copy` to an iterator; writing past the end of its buffer is undefined. -/
def copy (out : Output) (text : Buffer) : Except Failure Output :=
  if text.length ≤ out.unwritten.length then
    .ok (between (out.written ++ text) (out.unwritten.drop text.length))
  else .error .undefined

theorem copy_nil (out : Output) : out.copy [] = .ok out := by
  unfold copy
  rw [List.length_nil, if_pos (Nat.zero_le _), List.append_nil, List.drop_zero,
    between_written_unwritten]

/-- Writing goes on where it stopped. -/
theorem copy_append (out : Output) (first text : Buffer) :
    out.copy (first ++ text) = out.copy first >>= fun out => out.copy text := by
  unfold copy
  rw [List.length_append]
  by_cases hfirst : first.length ≤ out.unwritten.length
  · rw [if_pos hfirst]
    change _ = if text.length ≤ (between _ _).unwritten.length then _ else _
    rw [unwritten_between, written_between, List.length_drop, List.drop_drop, List.append_assoc]
    congr 1
    rw [eq_iff_iff]
    omega
  · rw [if_neg hfirst, if_neg (by omega)]
    rfl

end Output

namespace MessageBuilder

/-- The loop over the arguments -/
def copyArguments (out : Output) : List Buffer → Except Failure Output
  | [] => .ok out
  | arg :: arguments => do
      let out ← out.copy [asciiUnitSeparator]
      let out ← out.copy arg
      copyArguments out arguments

/-- Everything `to_binary_impl_` writes to its buffer -/
def write [Build] (m : MessageBuilder) (buffer : Buffer) : Except Failure Output := do
  let binHeader ← m.header.toBinary
  let out ← Output.copy (.between [] buffer) binHeader
  let out ← copyArguments out m.arguments
  out.copy [asciiRecordSeparator]

theorem copyArguments_eq_copy (out : Output) (arguments : List Buffer) :
    copyArguments out arguments = out.copy (arguments.flatMap (asciiUnitSeparator :: ·)) := by
  induction arguments generalizing out with
  | nil => exact out.copy_nil.symm
  | cons arg arguments ih =>
      change _ = out.copy ([asciiUnitSeparator] ++ arg ++ arguments.flatMap _)
      rw [List.append_assoc, Output.copy_append]
      unfold copyArguments
      congr
      funext out
      rw [Output.copy_append]
      congr
      funext out
      exact ih out

section Write
variable [Build] (m : MessageBuilder)

theorem write_eq_copy (buffer : Buffer) :
    m.write buffer = m.header.toBinary >>= fun binHeader =>
      Output.copy (.between [] buffer) (serialize binHeader m.arguments) := by
  unfold write serialize
  congr
  funext binHeader
  rw [Output.copy_append, Output.copy_append, bind_assoc]
  congr
  funext out
  rw [copyArguments_eq_copy]

/-- What is written to an allocated buffer is what a message becomes. -/
theorem toBinary_eq_write : m.toBinary = (do
    let size ← m.size
    if ptrdiffMax < size then
      throw (.thrown .lengthError)
    else do
      let out ← m.write (List.replicate size 0)
      check .messageBuilder "out + 1 == buffer.end()" (out.position = out.buffer.length)
      return out.buffer) := by
  unfold toBinary
  congr
  funext size
  split
  · rfl
  · rw [write_eq_copy, bind_assoc]
    congr
    funext binHeader
    unfold Output.copy
    dsimp only
    rw [Output.unwritten_between, Output.written_between, List.length_replicate]
    by_cases hroom : size < (serialize binHeader m.arguments).length
    · rw [if_pos hroom, if_neg (Nat.not_le.mpr hroom)]
      rfl
    · rw [if_neg hroom, if_pos (Nat.not_lt.mp hroom)]
      change _ = (check _ _ ((Output.between _ _).position = (Output.between _ _).buffer.length)
        >>= fun _ => _)
      unfold Output.between
      dsimp only
      rw [List.drop_replicate, List.nil_append, List.length_append, List.length_replicate]
      congr 2
      rw [eq_iff_iff]
      omega

end Write

/-- The size is the number of bytes of the message in 64 bits, and as many are written to a
buffer of that size. -/
structure Sized [Build] (m : MessageBuilder) : Prop where
  exists_size : ∃ headerSize, m.header.size = .ok headerSize ∧
    m.size = .ok ((headerSize + m.arguments.length + m.payloadSize + 1) % 2 ^ 64)
  write : ∀ size, m.size = .ok size →
    ∃ out, m.write (List.replicate size 0) = .ok out ∧ out.position = size

section Sized
variable {m : MessageBuilder}

/-- Below the range of an `int` the sum of the lengths is right. -/
theorem accumulate_eq_payloadSize_iff (h : m.payloadSize < 2 ^ 62) (k : Nat) :
    ((k + accumulate m.arguments + 1) % 2 ^ 64).toNat = (k + m.payloadSize + 1) % 2 ^ 64 ↔
      m.payloadSize < 2 ^ 31 := by
  rw [accumulate_eq]
  change ((k + Int.bmod m.payloadSize (2 ^ 32) + 1) % 2 ^ 64).toNat = _ ↔ _
  have hlow := Int.le_bmod (x := m.payloadSize) (Nat.two_pow_pos 32)
  have hhigh := Int.bmod_lt (x := m.payloadSize) (Nat.two_pow_pos 32)
  constructor
  · intro heq
    generalize Int.bmod m.payloadSize (2 ^ 32) = s at *
    omega
  · intro hsmall
    have hwrap : Int.bmod m.payloadSize (2 ^ 32) = m.payloadSize :=
      Int.bmod_eq_of_le (by omega) (by omega)
    rw [hwrap]
    omega

variable [Build] (m) (hheader : m.header ∈ headers)
include hheader

/-- The header of a message and the size that is computed -/
theorem exists_binHeader : ∃ binHeader : Buffer, binHeader.length < 64 ∧
    m.header.toBinary = .ok binHeader ∧ m.header.size = .ok binHeader.length ∧
    m.size = .ok (((binHeader.length + m.arguments.length : Nat) + accumulate m.arguments + 1) %
      2 ^ 64).toNat := by
  have hsize := size_tableHeader ⟨m.header, hheader⟩
  refine ⟨_, length_binary_lt ⟨m.header, hheader⟩, toBinary_tableHeader ⟨m.header, hheader⟩,
    hsize, ?_⟩
  change m.header.size = _ at hsize
  unfold size
  rw [hsize]
  push_cast
  rfl

theorem payloadSize_lt_of_sized (hsum : m.payloadSize < 2 ^ 62) (h : m.Sized) :
    m.payloadSize < 2 ^ 31 := by
  obtain ⟨binHeader, -, -, hheaderSize, hsize⟩ := m.exists_binHeader hheader
  obtain ⟨headerSize, hheaderSize', hsize'⟩ := h.exists_size
  rw [hheaderSize] at hheaderSize'
  cases hheaderSize'
  rw [hsize] at hsize'
  exact (accumulate_eq_payloadSize_iff hsum _).mp (Except.ok.inj hsize')

theorem sized_of_payloadSize_lt (hsmall : m.payloadSize < 2 ^ 31) : m.Sized := by
  obtain ⟨binHeader, hshort, hbinary, hheaderSize, hsize⟩ := m.exists_binHeader hheader
  rw [(accumulate_eq_payloadSize_iff (hsmall.trans (by decide)) _).mpr hsmall] at hsize
  refine ⟨⟨_, hheaderSize, hsize⟩, fun size hsize' => ?_⟩
  rw [hsize] at hsize'
  cases hsize'
  have hlength := length_serialize binHeader m.arguments
  have hcount : m.arguments.length ≤ (2 ^ 63 - 1) / 24 := m.length_arguments
  change _ = _ + _ + m.payloadSize + 1 at hlength
  rw [Nat.mod_eq_of_lt (by omega), ← hlength, write_eq_copy, hbinary]
  change ∃ out, Output.copy _ _ = _ ∧ _
  unfold Output.copy
  rw [Output.unwritten_between, List.length_replicate, if_pos le_rfl]
  exact ⟨_, rfl, by simp [Output.between]⟩

/-- The sum of the lengths is accumulated in an `int`. -/
theorem sized_iff (hsum : m.payloadSize < 2 ^ 62) : m.Sized ↔ m.payloadSize < 2 ^ 31 :=
  ⟨m.payloadSize_lt_of_sized hheader hsum, m.sized_of_payloadSize_lt hheader⟩

end Sized

/-- An event `a` that carries a letter many times. -/
def longEvent (n : Nat) : MessageBuilder where
  header := { topic := .event, action := .event }
  arguments := [bytes "a", List.replicate n 97]
  arguments_clean := by
    intro arg harg
    rcases List.mem_pair.mp harg with rfl | rfl
    · decide
    · intro hmem
      cases List.eq_of_mem_replicate hmem
  length_arguments := by
    change 2 ≤ maxArguments
    decide

theorem payloadSize_longEvent (n : Nat) : (longEvent n).payloadSize = n + 1 := by
  unfold payloadSize longEvent
  rw [List.map_cons, List.map_cons, List.length_replicate]
  exact Nat.add_comm 1 n

theorem sized_longEvent : let _ : Build := debug
    (longEvent 5).Sized := by
  intro _
  exact (sized_iff (longEvent 5) (by decide) (by decide)).mpr (by decide)

/-- The sum of the lengths does not fit into an `int`. -/
theorem not_sized_longEvent : let _ : Build := release
    ¬∀ m : MessageBuilder, m.header ∈ headers → m.payloadSize < 2 ^ 62 → m.Sized := by
  intro _ hclaim
  have hheader : (longEvent (2 ^ 31)).header ∈ headers := by decide
  have hsum : (longEvent (2 ^ 31)).payloadSize < 2 ^ 62 := by
    rw [payloadSize_longEvent]
    decide
  have hsmall := payloadSize_lt_of_sized _ hheader hsum (hclaim _ hheader hsum)
  rw [payloadSize_longEvent] at hsmall
  exact absurd hsmall (by decide)

end MessageBuilder
end Deepstream
