import OpenAgent.Library.HeaderFrame
import OpenAgent.Library.JsonRoundTrip
import OpenAgent.Library.ResettingReader

/-!
# Frames between a language server and its client

A message is a block of header lines, a blank line and a body whose length one of the
lines gives.  A block that gives no length is answered by throwing away all that is
buffered.
-/

namespace OpenAgent.Lsp

open Library

/-- `Number.parseInt(text, 10)`, with `none` for a text without digits.  A value is not
rounded: it is compared with lengths of buffers only. -/
def parseInt (text : List Char) : Option Int :=
  let (sign, unsigned) : Int × List Char :=
    match text with
    | '-' :: rest => (-1, rest)
    | '+' :: rest => (1, rest)
    | rest => (1, rest)
  let digits := unsigned.takeWhile Char.isDigit
  if digits = [] then none else some (sign * Nat.ofDigitChars 10 digits 0)

/-- `Number.isFinite`: from here on a value is rounded to infinity. -/
def isFinite (value : Int) : Bool :=
  value.natAbs < 2 ^ 1024 - 2 ^ 970

/-- The value of a line that names the length, as a length. -/
def lengthOfValue (value : List Char) : Option Nat :=
  match parseInt (trimBlank value) with
  | none => none
  | some value => if isFinite value ∧ 0 ≤ value then some value.toNat else none

/-- What a header line says about the length, with `none` for other lines. -/
def lengthOfLine (line : List Char) : Option (Option Nat) :=
  match cutAt [':'] line with
  | none => none
  | some (name, value) =>
    if (trimBlank name).map Char.toLower = "content-length".toList then
      some (lengthOfValue value)
    else none

def parseContentLength (headers : List Char) : Option Nat :=
  ((splitHeaderLines headers).findSome? lengthOfLine).join

/-- What a body is dispatched as, with the value that it holds. -/
inductive Dispatch
  | parseError (message : String)
  | invalidMessage (parsed : Json)
  | response (parsed : Json)
  | invalidMethod (parsed : Json)
  | request (parsed : Json)
  | notification (parsed : Json)

def isJsonRpcObject : Json → Bool
  | .object _ => true
  | _ => false

def isString : Option Json → Bool
  | some (.string _) => true
  | _ => false

def dispatchMessage (parsed : Json) : Dispatch :=
  if ¬ isJsonRpcObject parsed then .invalidMessage parsed
  else if (parsed.member "id").isSome ∧
      ((parsed.member "result").isSome ∨ (parsed.member "error").isSome) then
    .response parsed
  else if ¬ isString (parsed.member "method") then .invalidMethod parsed
  else if (parsed.member "id").isSome then .request parsed
  else .notification parsed

section Reading

variable (syntaxError : List Char → String)

/-- A text that is no JSON gives the message of the error that `JSON.parse` throws. -/
def dispatchBody (body : List Char) : Dispatch :=
  match parseJson body with
  | none => .parseError (syntaxError body)
  | some parsed => dispatchMessage parsed

/-- What stands at the start of the input buffer. -/
inductive BufferStart
  | incomplete
  | missingLength
  | message (body remaining : List UInt8)

def readBuffer (inputBuffer : List UInt8) : BufferStart :=
  match cutAt headerSeparator inputBuffer with
  | none => .incomplete
  | some (headers, rest) =>
    match parseContentLength (asciiText headers) with
    | none => .missingLength
    | some contentLength =>
      if rest.length < contentLength then .incomplete
      else .message (rest.take contentLength) (rest.drop contentLength)

/-- The input of a connection, with what it has dispatched and the errors it has
emitted. -/
structure Input where
  inputBuffer : List UInt8
  dispatched : List Dispatch
  errors : List String

def missingLengthError : String :=
  "JSON-RPC message is missing Content-Length header"

/-- Each turn of the loop takes at least a blank line off the buffer. -/
def drainFrom : Nat → Input → Input
  | 0, input => input
  | fuel + 1, input =>
    match readBuffer input.inputBuffer with
    | .incomplete => input
    | .missingLength =>
      { input with inputBuffer := [], errors := input.errors ++ [missingLengthError] }
    | .message body remaining =>
      drainFrom fuel
        { input with
          inputBuffer := remaining
          dispatched := input.dispatched ++ [dispatchBody syntaxError (decodeUtf8 body)] }

def drainInputBuffer (input : Input) : Input :=
  drainFrom syntaxError (input.inputBuffer.length + 1) input

def handleData (input : Input) (chunk : List UInt8) : Input :=
  drainInputBuffer syntaxError { input with inputBuffer := input.inputBuffer ++ chunk }

/-- The input of a connection that has received some chunks. -/
def receiveChunks (chunks : List (List UInt8)) : Input :=
  chunks.foldl (handleData syntaxError) ⟨[], [], []⟩

end Reading

/-- The number of code units that a string can have. -/
def maxStringLength : Nat :=
  2 ^ 53 - 1

/-- What is written for a message.  A text that is too long is an error. -/
def writeMessage (message : Json) : Option (List UInt8) :=
  let body := stringify message
  let payload := lengthHeader (encodeUtf8 body).length ++ ['\r', '\n', '\r', '\n'] ++ body
  if (payload.flatMap unitsOfChar).length ≤ maxStringLength then some (encodeUtf8 payload)
  else none

/-- A block of header lines, which the first blank line ends. -/
def IsHeaderBlock (headers : List UInt8) : Prop :=
  cutAt headerSeparator (headers ++ headerSeparator) = some (headers, [])

/-- A block that gives the length of the body behind it. -/
def IsFrame (frame : List UInt8) : Prop :=
  ∃ headers body, IsHeaderBlock headers ∧
    parseContentLength (asciiText headers) = some body.length ∧
      frame = headers ++ headerSeparator ++ body

/-- Behind some frames stands a block that gives no length, and somewhere behind it another
frame. -/
def FrameBehindBadBlock (stream : List UInt8) : Prop :=
  ∃ (frames : List (List UInt8)) (headers skipped frame more : List UInt8),
    (∀ frame ∈ frames, IsFrame frame) ∧
      IsHeaderBlock headers ∧ parseContentLength (asciiText headers) = none ∧ IsFrame frame ∧
          stream = frames.flatten ++ (headers ++ headerSeparator) ++ (skipped ++ frame ++ more)

end OpenAgent.Lsp
