import Deepstream.Client.Connection

/-!
`Deepstream`: the client as its users see it, with JSON values instead of bytes.

The library of JSON values is a parameter. Its numbers, objects and arrays are
taken up to its `operator==`. A function of the user is wrapped in a lambda that
decodes what the client hands over, and the wrapper is never empty.
-/

namespace Deepstream

/-- The values of `nlohmann::json` that are not spelled out -/
class JsonTypes where
  Number : Type
  Object : Type
  Array : Type

inductive Json [JsonTypes] where
  | null
  | boolean (b : Bool)
  | string (s : Buffer)
  | number (x : JsonTypes.Number)
  | object (x : JsonTypes.Object)
  | array (x : JsonTypes.Array)
  | discarded

class JsonLibrary extends JsonTypes where
  emptyObject : Object
  dump : Json → Buffer
  parse : Buffer → Except Exception Json

/-- `dump_escaped` of one letter -/
def escape (c : UInt8) : Buffer :=
  let hexify (n : UInt8) : UInt8 := if n < 10 then 48 + n else 87 + n
  if c = 34 then bytes "\\\""
  else if c = 92 then bytes "\\\\"
  else if c = 8 then bytes "\\b"
  else if c = 12 then bytes "\\f"
  else if c = 10 then bytes "\\n"
  else if c = 13 then bytes "\\r"
  else if c = 9 then bytes "\\t"
  else if c < 32 then bytes "\\u00" ++ [hexify (c / 16), hexify (c % 16)]
  else [c]

/-- The values of the example: there are no numbers and arrays, and no object but the empty one. -/
abbrev exampleTypes : JsonTypes where
  Number := Empty
  Object := Unit
  Array := Empty

def exampleDump : @Json exampleTypes → Buffer
  | @Json.null exampleTypes => bytes "null"
  | @Json.boolean exampleTypes b => bytes (if b then "true" else "false")
  | @Json.string exampleTypes s => bytes "\"" ++ s.flatMap escape ++ bytes "\""
  | @Json.object exampleTypes () => bytes "{}"
  | @Json.discarded exampleTypes => bytes "<discarded>"

/-- A library that parses what some strings and the empty object are dumped as -/
abbrev exampleLibrary (strings : List Buffer) : JsonLibrary where
  toJsonTypes := exampleTypes
  emptyObject := ()
  dump := exampleDump
  parse text :=
    if text = bytes "{}" then .ok (@Json.object exampleTypes ())
    else match strings.find? fun s => exampleDump (@Json.string exampleTypes s) = text with
      | some s => .ok (@Json.string exampleTypes s)
      | none => .error (.invalidArgument "parse error")

inductive PayloadType where
  | string | object | number | null | true | false | undefined
  deriving DecidableEq, Repr

namespace PayloadType

def letter : PayloadType → UInt8
  | string => 83
  | object => 79
  | number => 78
  | null => 76
  | true => 84
  | false => 70
  | undefined => 85

/-- `static_cast<PayloadType>` -/
def ofLetter (c : UInt8) : Option PayloadType :=
  [string, object, number, null, true, false, undefined].find? (·.letter = c)

@[simp] theorem ofLetter_letter (p : PayloadType) : ofLetter p.letter = some p := by
  cases p <;> rfl

end PayloadType

/-- What `get_type` throws -/
structure RuntimeError where
  what : Buffer

/-- A computation that reports to the error handler -/
abbrev Reported (α : Type) := List Buffer × Except Exception α

namespace TypeSerializer
variable [JsonLibrary]

def getType (data : Json) : Except RuntimeError PayloadType :=
  match data with
  | .object _ | .array _ => .ok .object
  | .string _ => .ok .string
  | .number _ => .ok .number
  | .boolean b => .ok (if b then .true else .false)
  | .null => .ok .null
  | .discarded => .error ⟨bytes "Unable to serialize type: " ++ JsonLibrary.dump data⟩

/-- Only certain types carry a payload, and a string is its own. -/
def toPrefixedBuffer (data : Json) : Except RuntimeError Buffer := do
  let type ← getType data
  match data with
  | .object _ | .array _ | .number _ => return type.letter :: JsonLibrary.dump data
  | .string s => return type.letter :: s
  | _ => return [type.letter]

/-- `to_json` of the bytes from an offset on -/
def toJson (text : Buffer) : Reported Json :=
  match JsonLibrary.parse text with
  | .ok data => ([], .ok data)
  | .error (.invalidArgument _) => ([bytes "failed to parse object: " ++ text], .ok .null)
  | .error x => ([], .error x)

def prefixedToJson (buff : Buffer) : Reported Json :=
  match buff with
  | [] => ([bytes "Received unprefixed empty buffer"], .ok .null)
  | letter :: rest =>
      match PayloadType.ofLetter letter with
      | some .string => ([], .ok (.string rest))
      | some .null | some .undefined => ([], .ok .null)
      | some .true => ([], .ok (.boolean true))
      | some .false => ([], .ok (.boolean false))
      | some .object | some .number => toJson rest
      | none => ([bytes "Unrecognized prefix: " ++ [letter]], .ok .null)

end TypeSerializer

/-- A function of the user that is called with a value -/
structure Invocation [JsonTypes] where
  function : Nat
  data : Json

section Wrappers
variable [JsonLibrary]

/-- The lambda around a function of the user: it decodes, and then invokes the function, which
may be empty. -/
def coreCallback (callback : Function) (data : Buffer) : Reported Invocation :=
  let (reports, decoded) := TypeSerializer.prefixedToJson data
  (reports, decoded >>= fun value =>
    match callback with
    | some f => .ok ⟨f, value⟩
    | none => .error .badFunctionCall)

theorem coreCallback_some {data : Buffer} {value : Json}
    (hdecoded : (TypeSerializer.prefixedToJson data).2 = .ok value) (f : Nat) :
    (coreCallback (some f) data).2 = .ok ⟨f, value⟩ := by
  unfold coreCallback
  dsimp only
  rw [hdecoded]
  rfl

theorem coreCallback_none {data : Buffer} {value : Json}
    (hdecoded : (TypeSerializer.prefixedToJson data).2 = .ok value) :
    (coreCallback none data).2 = .error .badFunctionCall := by
  unfold coreCallback
  dsimp only
  rw [hdecoded]
  rfl

/-- What `Client::login` is called with -/
structure CoreLogin where
  auth : Buffer
  callback : Buffer → Reported Invocation

namespace Facade

/-- `login` with data and a callback -/
def login (auth : JsonTypes.Object) (callback : Function) : CoreLogin where
  auth := JsonLibrary.dump (.object auth)
  callback := coreCallback callback

/-- `login` with a callback -/
def loginCallback (callback : Function) : CoreLogin :=
  login JsonLibrary.emptyObject callback

/-- `login` with data -/
def loginAuth (auth : JsonTypes.Object) : CoreLogin :=
  let callback : Function := none
  login auth callback

/-- `login` without arguments -/
def loginAnonymously : CoreLogin :=
  loginAuth JsonLibrary.emptyObject

end Facade

/-- The overloads of `login` with what the user passed -/
inductive Login where
  | anonymously
  | auth (auth : JsonTypes.Object)
  | callback (callback : Function)
  | authCallback (auth : JsonTypes.Object) (callback : Function)

namespace Login

def core : Login → CoreLogin
  | anonymously => Facade.loginAnonymously
  | auth a => Facade.loginAuth a
  | callback f => Facade.loginCallback f
  | authCallback a f => Facade.login a f

/-- The function of the user, if one was given -/
def function : Login → Function
  | anonymously | auth _ => none
  | callback f | authCallback _ f => f

theorem core_callback (l : Login) : l.core.callback = coreCallback l.function := by
  cases l <;> rfl

end Login

/-- `EventWrapper::emit`: the name and the data that the client emits -/
def EventWrapper.emit (name : Buffer) (data : Json) : Except RuntimeError (Buffer × Buffer) := do
  let dataBuff ← TypeSerializer.toPrefixedBuffer data
  return (name, dataBuff)

end Wrappers
end Deepstream
