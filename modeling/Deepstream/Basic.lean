import Mathlib

/-!
Bytes, builds and the ways in which a call can end without returning.

An assertion is compiled in or out; theorems that quantify over `Build` cover
both. A failing assertion and undefined behaviour end the program, an exception
only ends the call.
-/

namespace Deepstream

/-- `Buffer` is a `std::vector<char>`. -/
abbrev Buffer := List UInt8

/-- The bytes of an ASCII literal. -/
def bytes (s : String) : Buffer :=
  s.toList.map fun c => UInt8.ofNat c.toNat

class Build where
  /-- `NDEBUG` is not defined. -/
  asserts : Bool

abbrev debug : Build := ⟨true⟩
abbrev release : Build := ⟨false⟩

/-- The translation units that contain assertions. -/
inductive SourceFile where
  | message | messageBuilder | messageProxy | parser | connection | event | presence
  deriving DecidableEq, Repr

inductive Exception where
  | invalidArgument (what : String)
  | logicError (what : String)
  | lengthError
  | badFunctionCall
  | user (id : Nat)
  deriving DecidableEq, Repr

/-- `outOfBounds` is undefined behaviour too: a buffer or the arguments of a message are read
outside of their bounds. `exhausted` is the model's own: a loop needed more steps than it was
given. -/
inductive Failure where
  | thrown (e : Exception)
  | assertion (file : SourceFile) (text : String)
  | undefined
  | outOfBounds
  | exhausted
  deriving DecidableEq, Repr

section Check
variable [Build] (file : SourceFile) (text : String)

/-- The `assert` macro. -/
def check (cond : Prop) [Decidable cond] : Except Failure Unit :=
  if Build.asserts = true ∧ ¬cond then .error (.assertion file text) else .ok ()

@[simp] theorem check_of (cond : Prop) [Decidable cond] (h : cond) :
    check file text cond = .ok () := by
  simp [check, h]

theorem check_bind (cond : Prop) [Decidable cond] (h : cond) {α : Type}
    (next : Unit → Except Failure α) : (check file text cond >>= next) = next () := by
  rw [check_of file text cond h]
  rfl

theorem check_eq_ok_iff (cond : Prop) [Decidable cond] :
    check file text cond = .ok () ↔ Build.asserts = false ∨ cond := by
  cases h : Build.asserts <;> by_cases hc : cond <;> simp [check, h, hc]

end Check

/-- `[p + offset, p + offset + size)` of the memory at `p`; reading outside of it is undefined. -/
def slice (memory : Buffer) (offset size : Nat) : Except Failure Buffer :=
  if offset + size ≤ memory.length then .ok ((memory.drop offset).take size)
  else .error .outOfBounds

theorem slice_append (before text after : Buffer) :
    slice (before ++ text ++ after) before.length text.length = .ok text := by
  simp [slice]

end Deepstream
