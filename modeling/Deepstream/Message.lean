import Deepstream.Basic

/-!
Topics, actions, headers and the three tables that describe them.

The tables are those of `message.cpp`, in its order. A header outside of them is
constructible, so every function that searches a table says what happens there.
-/

namespace Deepstream

def asciiRecordSeparator : UInt8 := 30
def asciiUnitSeparator : UInt8 := 31

inductive Topic where
  | auth | connection | error | event | presence | record | rpc
  deriving DecidableEq, Repr

inductive Action where
  | challenge | challengeResponse | createOrRead | errorInvalidAuthData | errorInvalidAuthMsg
  | errorTooManyAuthAttempts | event | listen | listenAccept | listenReject | ping | pong
  | presenceJoin | presenceLeave | query | redirect | reject | request | subscribe
  | subscriptionForPatternFound | subscriptionForPatternRemoved | unlisten | unsubscribe
  deriving DecidableEq, Repr

/-- `Message::Header` -/
structure Header where
  topic : Topic
  action : Action
  isAck : Bool := false
  deriving DecidableEq, Repr

/-- `HEADERS` -/
def headers : List Header :=
  [ { topic := .auth, action := .request, isAck := true }
  , { topic := .auth, action := .errorInvalidAuthData }
  , { topic := .auth, action := .errorInvalidAuthMsg }
  , { topic := .auth, action := .errorTooManyAuthAttempts }
  , { topic := .auth, action := .request }
  , { topic := .connection, action := .challengeResponse, isAck := true }
  , { topic := .connection, action := .challenge }
  , { topic := .connection, action := .challengeResponse }
  , { topic := .connection, action := .ping }
  , { topic := .connection, action := .pong }
  , { topic := .connection, action := .redirect }
  , { topic := .connection, action := .reject }
  , { topic := .event, action := .listen, isAck := true }
  , { topic := .event, action := .subscribe, isAck := true }
  , { topic := .event, action := .unsubscribe, isAck := true }
  , { topic := .event, action := .event }
  , { topic := .event, action := .listen }
  , { topic := .event, action := .listenAccept }
  , { topic := .event, action := .listenReject }
  , { topic := .event, action := .subscribe }
  , { topic := .event, action := .subscriptionForPatternFound }
  , { topic := .event, action := .subscriptionForPatternRemoved }
  , { topic := .event, action := .unsubscribe }
  , { topic := .presence, action := .subscribe, isAck := true }
  , { topic := .presence, action := .unsubscribe, isAck := true }
  , { topic := .presence, action := .presenceJoin }
  , { topic := .presence, action := .presenceLeave }
  , { topic := .presence, action := .query }
  , { topic := .presence, action := .subscribe }
  , { topic := .presence, action := .unsubscribe } ]

/-- `HEADER_TO_STRING` -/
def headerToString : List String :=
  [ "A|A", "A|E|INVALID_AUTH_DATA", "A|E|INVALID_AUTH_MSG", "A|E|TOO_MANY_AUTH_ATTEMPTS", "A|REQ"
  , "C|A", "C|CH", "C|CHR", "C|PI", "C|PO", "C|RED", "C|REJ"
  , "E|A|L", "E|A|S", "E|A|US", "E|EVT", "E|L", "E|LA", "E|LR", "E|S", "E|SP", "E|SR", "E|US"
  , "U|A|S", "U|A|US", "U|PNJ", "U|PNL", "U|Q", "U|S|S", "U|US|US" ]

def sizeMax : Nat := 2 ^ 64 - 1

/-- `HEADER_NUM_PAYLOAD` -/
def headerNumPayload : List (Nat × Nat) :=
  [ (0, 1), (1, 1), (1, 1), (1, 1), (1, 1)
  , (0, 0), (0, 0), (1, 1), (0, 0), (0, 0), (1, 1), (0, 1)
  , (1, 1), (1, 1), (1, 1), (2, 2), (1, 1), (2, 2), (2, 2), (1, 1), (2, 2), (2, 2), (1, 1)
  , (1, 1), (1, 1), (1, 1), (1, 1), (0, sizeMax), (0, 0), (0, 0) ]

/-- `Message::from_human_readable` -/
def fromHumanReadable (xs : Buffer) : Buffer :=
  xs.map fun c => if c = 124 then asciiUnitSeparator else if c = 43 then asciiRecordSeparator else c

namespace Header

/-- `Header::to_string`; without assertions a header outside the table has a null string. -/
def toString [Build] (h : Header) : Except Failure (Option String) :=
  match (headers.zip headerToString).lookup h with
  | some text => .ok (some text)
  | none => do
      check .message "0" False
      return none

/-- `Header::size`; `std::strlen` of a null pointer is undefined. -/
def size [Build] (h : Header) : Except Failure Nat := do
  match ← h.toString with
  | some text => return (bytes text).length
  | none => throw .undefined

/-- `Header::to_binary` -/
def toBinary [Build] (h : Header) : Except Failure Buffer := do
  match ← h.toString with
  | some text => return fromHumanReadable (bytes text)
  | none => throw .undefined

/-- `Message::num_arguments` of a header -/
def numArguments [Build] (h : Header) : Except Failure (Nat × Nat) :=
  match (headers.zip headerNumPayload).lookup h with
  | some range => .ok range
  | none => do
      check .message "0" False
      return (sizeMax, sizeMax)

end Header

/-- The headers of the table, for which all the functions above are total. -/
abbrev TableHeader := { h : Header // h ∈ headers }

namespace TableHeader

def text (h : TableHeader) : String :=
  ((headers.zip headerToString).lookup h.val).getD ""

/-- The header as it stands at the beginning of a message. -/
def binary (h : TableHeader) : Buffer :=
  fromHumanReadable (bytes h.text)

def arity (h : TableHeader) : Nat × Nat :=
  ((headers.zip headerNumPayload).lookup h.val).getD (0, 0)

/-- The number of arguments lies in the header's range. -/
def Allows (h : TableHeader) (numArgs : Nat) : Prop :=
  h.arity.1 ≤ numArgs ∧ numArgs ≤ h.arity.2

instance (h : TableHeader) (numArgs : Nat) : Decidable (h.Allows numArgs) :=
  inferInstanceAs (Decidable (_ ∧ _))

end TableHeader

def tableHeaders : List TableHeader :=
  headers.attach

@[simp] theorem mem_tableHeaders (h : TableHeader) : h ∈ tableHeaders :=
  List.mem_attach _ _

/-- A statement about all table headers is a finite conjunction. -/
theorem forall_tableHeader (P : TableHeader → Prop) :
    (∀ h, P h) ↔ ∀ h ∈ tableHeaders, P h :=
  ⟨fun all h _ => all h, fun all h => all h (mem_tableHeaders h)⟩

private theorem lookup_text (h : TableHeader) :
    (headers.zip headerToString).lookup h.val = some h.text := by
  revert h
  rw [forall_tableHeader]
  decide

private theorem lookup_arity (h : TableHeader) :
    (headers.zip headerNumPayload).lookup h.val = some h.arity := by
  revert h
  rw [forall_tableHeader]
  decide

section Total
variable [Build] (h : TableHeader)

@[simp] theorem toString_tableHeader : h.val.toString = .ok (some h.text) := by
  simp only [Header.toString, lookup_text]

@[simp] theorem toBinary_tableHeader : h.val.toBinary = .ok h.binary := by
  simp only [Header.toBinary, toString_tableHeader]
  rfl

@[simp] theorem size_tableHeader : h.val.size = .ok h.binary.length := by
  simp only [Header.size, toString_tableHeader, TableHeader.binary, fromHumanReadable,
    List.length_map]
  rfl

@[simp] theorem numArguments_tableHeader : h.val.numArguments = .ok h.arity := by
  simp only [Header.numArguments, lookup_arity]

end Total

/-- Outside the table a header has no size: an assertion fails or a null pointer is read. -/
theorem size_of_not_mem [Build] (h : Header) (hmem : h ∉ headers) :
    ∃ failure, h.size = .error failure ∧
      (failure = .assertion .message "0" ∨ failure = .undefined) := by
  have hlookup : (headers.zip headerToString).lookup h = none := by
    rw [List.lookup_eq_none_iff]
    rintro ⟨h', text⟩ hin
    exact bne_iff_ne.mpr fun heq => hmem (heq ▸ (List.of_mem_zip hin).1)
  simp only [Header.size, Header.toString, hlookup, check]
  cases Build.asserts
  · exact ⟨.undefined, rfl, .inr rfl⟩
  · exact ⟨_, rfl, .inl rfl⟩

end Deepstream
