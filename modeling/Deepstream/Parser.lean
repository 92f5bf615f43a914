import Deepstream.Lexer

/-!
`MessageProxy` and the parser the lexer calls back for every token.

The parser counts the bytes it was shown. A message is appended when its header
is read and taken back when its payload turns out to be broken.
-/

namespace Deepstream

/-- `parser::Location` -/
structure Location where
  offset : Nat
  size : Nat
  deriving DecidableEq, Repr

/-- A message inside of the memory at `base_`. -/
structure MessageProxy where
  base : Buffer
  offset : Nat
  size : Nat
  header : Header
  arguments : List Location := []
  deriving DecidableEq, Repr

namespace MessageProxy

/-- The constructor; a message is as long as its header at first. -/
def new [Build] (p : Buffer) (offset : Nat) (header : Header) : Except Failure MessageProxy := do
  let size ← header.size
  return { base := p, offset, size, header }

def numArguments (m : MessageProxy) : Nat :=
  m.arguments.length

/-- `MessageProxy::get_impl_` -/
def get [Build] (m : MessageProxy) (i : Nat) : Except Failure Buffer := do
  check .messageProxy "i < arguments_.size()" (i < m.arguments.length)
  match m.arguments[i]? with
  | some loc => slice m.base loc.offset loc.size
  | none => throw .outOfBounds

/-- `MessageProxy::to_binary_impl_`, which starts at `base_` itself. -/
def toBinary (m : MessageProxy) : Except Failure Buffer :=
  slice m.base 0 m.size

end MessageProxy

namespace Parser

inductive Error.Tag where
  | unexpectedToken | unexpectedEof | corruptPayload | invalidNumberOfArguments
  deriving DecidableEq, Repr

structure Error where
  location : Location
  tag : Error.Tag
  deriving DecidableEq, Repr

/-- `deepstream_parser_state` -/
structure State where
  buffer : Buffer
  bufferSize : Nat
  tokenizingHeader : Bool := true
  offset : Nat := 0
  messages : List MessageProxy := []
  errors : List Error := []

/-- The header `handle_header` gives a token. -/
def headerOf : Token → Option Header
  | .eof | .unknown | .payload | .messageSeparator => none
  | .aA => some { topic := .auth, action := .request, isAck := true }
  | .aEIad => some { topic := .auth, action := .errorInvalidAuthData }
  | .aEIam => some { topic := .auth, action := .errorInvalidAuthMsg }
  | .aETmaa => some { topic := .auth, action := .errorTooManyAuthAttempts }
  | .aReq => some { topic := .auth, action := .request }
  | .cA => some { topic := .connection, action := .challengeResponse, isAck := true }
  | .cCh => some { topic := .connection, action := .challenge }
  | .cChr => some { topic := .connection, action := .challengeResponse }
  | .cPi => some { topic := .connection, action := .ping }
  | .cPo => some { topic := .connection, action := .pong }
  | .cRed => some { topic := .connection, action := .redirect }
  | .cRej => some { topic := .connection, action := .reject }
  | .eAL => some { topic := .event, action := .listen, isAck := true }
  | .eAS => some { topic := .event, action := .subscribe, isAck := true }
  | .eAUs => some { topic := .event, action := .unsubscribe, isAck := true }
  | .eEvt => some { topic := .event, action := .event }
  | .eL => some { topic := .event, action := .listen }
  | .eLa => some { topic := .event, action := .listenAccept }
  | .eLr => some { topic := .event, action := .listenReject }
  | .eS => some { topic := .event, action := .subscribe }
  | .eSp => some { topic := .event, action := .subscriptionForPatternFound }
  | .eSr => some { topic := .event, action := .subscriptionForPatternRemoved }
  | .eUs => some { topic := .event, action := .unsubscribe }
  | .uAS => some { topic := .presence, action := .subscribe, isAck := true }
  | .uAUs => some { topic := .presence, action := .unsubscribe, isAck := true }
  | .uPnj => some { topic := .presence, action := .presenceJoin }
  | .uPnl => some { topic := .presence, action := .presenceLeave }
  | .uQ => some { topic := .presence, action := .query }
  | .uS => some { topic := .presence, action := .subscribe }
  | .uUs => some { topic := .presence, action := .unsubscribe }

/-- `messages_.back()` with the list left by `messages_.pop_back()`. -/
def back (messages : List MessageProxy) : Except Failure (MessageProxy × List MessageProxy) :=
  match messages.getLast? with
  | some m => .ok (m, messages.dropLast)
  | none => .error .undefined

section Handlers
variable [Build]

/-- `handle_error` -/
def handleError (st : State) (token : Token) (text : Buffer) : Except Failure State := do
  check .parser "token == TOKEN_EOF || token == TOKEN_UNKNOWN" (token = .eof ∨ token = .unknown)
  check .parser "textlen > 0 || (textlen == 0 && token == EOF)" (0 < text.length)
  if token = .eof then
    check .parser "!tokenizing_header_" (st.tokenizingHeader = false)
    check .parser "!messages_.empty()" (st.messages ≠ [])
    let (_, messages) ← back st.messages
    return { st with
      messages
      errors := st.errors ++ [⟨⟨st.offset, text.length⟩, .unexpectedEof⟩]
      tokenizingHeader := true }
  else if token = .unknown ∧ st.tokenizingHeader = true then
    return { st with errors := st.errors ++ [⟨⟨st.offset, text.length⟩, .unexpectedToken⟩] }
  else if token = .unknown then
    check .parser "!messages_.empty()" (st.messages ≠ [])
    let (m, messages) ← back st.messages
    check .parser "msg_start + msg_size == offset_" (m.offset + m.size = st.offset)
    return { st with
      messages
      errors := st.errors ++ [⟨⟨m.offset, m.size + text.length⟩, .corruptPayload⟩]
      tokenizingHeader := true }
  else
    return { st with tokenizingHeader := true }

/-- `handle_header`; its last block exists only when assertions do. -/
def handleHeader (st : State) (token : Token) (text : Buffer) : Except Failure State := do
  check .parser "is_header_token(token)" ((headerOf token).isSome = true)
  check .parser "tokenizing_header_" (st.tokenizingHeader = true)
  match headerOf token with
  | none =>
      check .parser "0" False
      return { st with tokenizingHeader := false }
  | some header =>
      let m ← MessageProxy.new st.buffer st.offset header
      if Build.asserts then
        let size ← header.size
        let bin ← header.toBinary
        check .parser "textlen == msg.header().size()" (text.length = size)
        check .parser "textlen == bin.size()" (text.length = bin.length)
        check .parser "std::equal(bin.cbegin(), bin.cend(), text)" (bin = text)
      return { st with messages := st.messages ++ [m], tokenizingHeader := false }

/-- `handle_payload` -/
def handlePayload (st : State) (token : Token) (text : Buffer) : Except Failure State := do
  check .parser "token == TOKEN_PAYLOAD" (token = .payload)
  check .parser "textlen > 0" (0 < text.length)
  check .parser "text[0] == deepstream::ASCII_UNIT_SEPARATOR"
    (text.head? = some asciiUnitSeparator)
  check .parser "!messages_.empty()" (st.messages ≠ [])
  let (m, messages) ← back st.messages
  let m := { m with
    arguments := m.arguments ++ [⟨st.offset + 1, text.length - 1⟩]
    size := m.size + text.length }
  return { st with messages := messages ++ [m] }

/-- `handle_message_separator` -/
def handleMessageSeparator (st : State) (token : Token) (text : Buffer) :
    Except Failure State := do
  check .parser "token == TOKEN_MESSAGE_SEPARATOR" (token = .messageSeparator)
  check .parser "textlen == 1" (text.length = 1)
  check .parser "text[0] == deepstream::ASCII_RECORD_SEPARATOR"
    (text.head? = some asciiRecordSeparator)
  check .parser "!messages_.empty()" (st.messages ≠ [])
  let (m, messages) ← back st.messages
  let m := { m with size := m.size + text.length }
  let (minNumArgs, maxNumArgs) ← m.header.numArguments
  if minNumArgs ≤ m.numArguments ∧ m.numArguments ≤ maxNumArgs then
    return { st with messages := messages ++ [m], tokenizingHeader := true }
  else
    return { st with
      messages
      errors := st.errors ++ [⟨⟨m.offset, m.size⟩, .invalidNumberOfArguments⟩]
      tokenizingHeader := true }

/-- The branches of `handle_token`. -/
def dispatch (st : State) (token : Token) (text : Buffer) : Except Failure State :=
  match token with
  | .unknown => handleError st token text
  | .eof => do
      check .parser "offset_ == buffer_size_" (st.offset = st.bufferSize)
      if st.tokenizingHeader = false then handleError st token text else return st
  | .payload => handlePayload st token text
  | .messageSeparator => handleMessageSeparator st token text
  | _ => handleHeader st token text

/-- `handle_token` -/
def handleToken (st : State) (token : Token) (text : Buffer) : Except Failure State := do
  check .parser "textlen > 0" (0 < text.length)
  check .parser "token != TOKEN_EOF || *text == 0" (token ≠ .eof ∨ text.head? = some 0)
  check .parser "token != TOKEN_EOF || textlen == 1" (token ≠ .eof ∨ text.length = 1)
  check .parser "token != TOKEN_EOF || offset_ + textlen == buffer_size_ + 1"
    (token ≠ .eof ∨ st.offset + text.length = st.bufferSize + 1)
  check .parser "token == TOKEN_EOF || offset_ + textlen <= buffer_size_"
    (token = .eof ∨ st.offset + text.length ≤ st.bufferSize)
  check .parser "token == TOKEN_EOF || !std::memcmp(buffer_ + offset_, text, textlen)"
    (token = .eof ∨ text <+: st.buffer.drop st.offset)
  check .parser "messages_.size() <= offset_" (st.messages.length ≤ st.offset)
  check .parser "errors_.size() <= offset_" (st.errors.length ≤ st.offset)
  let st' ← dispatch st token text
  return { st' with offset := st.offset + text.length }

/-- The calls of `handle_token` in one run of the scanner. -/
def handleTokens (st : State) (tokens : List (Token × Buffer)) : Except Failure State :=
  tokens.foldlM (fun st t => handleToken st t.1 t.2) st

/-- `parser::execute`; `yy_scan_buffer` takes only a buffer that ends with two NUL bytes.
Every letter costs the scanner at most two matches. -/
def execute (p : Buffer) : Except Failure (List MessageProxy × List Error) := do
  check .parser "p[size - 2] == 0" (p.dropLast.getLast? = some 0)
  check .parser "p[size - 1] == 0" (p.getLast? = some 0)
  if p.dropLast.getLast? = some 0 ∧ p.getLast? = some 0 then
    let input := p.dropLast.dropLast
    match Flex.tokens Lexer.spec (2 * p.length) ⟨.initial, [], input⟩ with
    | none => throw .exhausted
    | some tokens =>
        let parser ← handleTokens { buffer := p, bufferSize := input.length } tokens
        return (parser.messages, parser.errors)
  else
    throw .undefined

end Handlers

end Parser
end Deepstream
