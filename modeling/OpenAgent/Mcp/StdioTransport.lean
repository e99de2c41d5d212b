import OpenAgent.Library.ChunkedReader
import OpenAgent.Library.HeaderFrame
import OpenAgent.Library.JsonRoundTrip

/-!
# Messages over standard input and output

A client of the server sends each message either as a line or as a frame with a
`Content-Length` header.  The reader tells the two apart by the first bytes of what has
arrived, and remembers for each message how it was sent.
-/

namespace OpenAgent.Mcp

open Library

inductive StdioJsonRpcResponseMode
  | line
  | framed

inductive StdioJsonRpcMessage
  | request (payload : Json) (responseMode : StdioJsonRpcResponseMode)
  | parseError (message : String) (responseMode : StdioJsonRpcResponseMode)

/-- `text.replace(/\r$/, "")`. -/
def dropReturn (text : List Char) : List Char :=
  if text.getLast? = some '\r' then text.dropLast else text

section Reading

variable (syntaxError : List Char → String)

/-- A text that is no JSON gives the message of the error that `JSON.parse` throws. -/
def parseJsonPayload (payload : List Char)
    (responseMode : StdioJsonRpcResponseMode) : StdioJsonRpcMessage :=
  match parseJson payload with
  | some value => .request value responseMode
  | none => .parseError (syntaxError payload) responseMode

def contentLengthName : List Char :=
  "content-length:".toList

/-- `/^content-length:\s*(\d+)$/i`. -/
def matchContentLength (line : List Char) : Option Nat :=
  if (line.take contentLengthName.length).map Char.toLower = contentLengthName then
    let digits := (line.drop contentLengthName.length).dropWhile isBlank
    if digits ≠ [] ∧ digits.all Char.isDigit then some (Nat.ofDigitChars 10 digits 0) else none
  else none

def parseContentLength (headers : List Char) : Option Nat :=
  (splitHeaderLines headers).findSome? matchContentLength

variable (buffer : List UInt8)

def startsWithContentLength : Bool :=
  (asciiText (buffer.take contentLengthName.length)).map Char.toLower = contentLengthName

def readFramedMessage : Reading UInt8 StdioJsonRpcMessage :=
  match cutAt headerSeparator buffer with
  | none => .incomplete
  | some (headers, rest) =>
    match parseContentLength (asciiText headers) with
    | none =>
      .complete (some (.parseError "Missing or invalid Content-Length header" .framed)) rest
    | some contentLength =>
      if rest.length < contentLength then .incomplete
      else
        .complete
          (some (parseJsonPayload syntaxError (decodeUtf8 (rest.take contentLength)) .framed))
          (rest.drop contentLength)

def readLineMessage : Reading UInt8 StdioJsonRpcMessage :=
  match cutAt [10] buffer with
  | none => .incomplete
  | some (bytes, remaining) =>
    let line := dropReturn (decodeUtf8 bytes)
    if trimBlank line = [] then .complete none remaining
    else .complete (some (parseJsonPayload syntaxError line .line)) remaining

def readNextMessage : Reading UInt8 StdioJsonRpcMessage :=
  if buffer = [] then .incomplete
  else if startsWithContentLength buffer then readFramedMessage syntaxError buffer
  else readLineMessage syntaxError buffer

end Reading

def writeStdioJsonRpcResponse (response : Json)
    (responseMode : StdioJsonRpcResponseMode) : List UInt8 :=
  let body := stringify response
  match responseMode with
  | .framed =>
    encodeUtf8 (lengthHeader (encodeUtf8 body).length ++ ['\r', '\n', '\r', '\n'] ++ body)
  | .line => encodeUtf8 (body ++ ['\n'])

theorem readFramedMessage_spec
    (taken : readFramedMessage syntaxError buffer = .complete message remaining) :
    remaining.length < buffer.length ∧ ∀ more,
      readFramedMessage syntaxError (buffer ++ more) = .complete message (remaining ++ more) := by
  rw [readFramedMessage] at taken
  split at taken
  · cases taken
  · rename_i headers rest isCut
    have whole := congrArg List.length (eq_append_of_cutAt isCut)
    simp only [List.length_append, headerSeparator, List.length_cons] at whole
    split at taken
    · rename_i isMissing
      cases taken
      refine ⟨by omega, fun more => ?_⟩
      simp only [readFramedMessage, cutAt_append isCut more, isMissing]
    · rename_i contentLength isLength
      split at taken
      · cases taken
      · rename_i enough
        cases taken
        have fits : contentLength ≤ rest.length := Nat.not_lt.mp enough
        refine ⟨by rw [List.length_drop]; omega, fun more => ?_⟩
        simp only [readFramedMessage, cutAt_append isCut more, isLength]
        rw [if_neg (by rw [List.length_append]; omega), List.take_append_of_le_length fits,
          List.drop_append_of_le_length fits]

theorem readLineMessage_spec
    (taken : readLineMessage syntaxError buffer = .complete message remaining) :
    remaining.length < buffer.length ∧ ∀ more,
      readLineMessage syntaxError (buffer ++ more) = .complete message (remaining ++ more) := by
  rw [readLineMessage] at taken
  split at taken
  · cases taken
  · rename_i bytes rest isCut
    have whole := congrArg List.length (eq_append_of_cutAt isCut)
    simp only [List.length_append, List.length_cons] at whole
    dsimp only at taken
    split at taken
    · rename_i isEmpty
      cases taken
      refine ⟨by omega, fun more => ?_⟩
      simp only [readLineMessage, cutAt_append isCut more, if_pos isEmpty]
    · rename_i notEmpty
      cases taken
      refine ⟨by omega, fun more => ?_⟩
      simp only [readLineMessage, cutAt_append isCut more, if_neg notEmpty]

/-- A line break in front shows that there is no header. -/
theorem startsWithContentLength_of_newline (isBreak : 10 ∈ buffer.take contentLengthName.length) :
    startsWithContentLength buffer = false := by
  rw [startsWithContentLength, decide_eq_false_iff_not]
  intro same
  have shown : '\n' ∈ (asciiText (buffer.take contentLengthName.length)).map Char.toLower :=
    List.mem_map.mpr ⟨'\n', List.mem_map.mpr ⟨10, isBreak, rfl⟩, rfl⟩
  rw [same] at shown
  exact absurd shown (by decide)

theorem readNextMessage_spec
    (taken : readNextMessage syntaxError buffer = .complete message remaining) :
    remaining.length < buffer.length ∧ ∀ more,
      readNextMessage syntaxError (buffer ++ more) = .complete message (remaining ++ more) := by
  rw [readNextMessage] at taken
  split at taken
  · cases taken
  · rename_i notEmpty
    have notEmptyLater : ∀ more, buffer ++ more ≠ [] :=
      fun more isEmpty => notEmpty (List.append_eq_nil_iff.mp isEmpty).1
    split at taken
    · rename_i isFramed
      obtain ⟨shorter, stable⟩ := readFramedMessage_spec taken
      refine ⟨shorter, fun more => ?_⟩
      have isLong : contentLengthName.length ≤ buffer.length := by
        have same := congrArg List.length (of_decide_eq_true isFramed)
        rw [List.length_map, asciiText, List.length_map, List.length_take] at same
        omega
      have stillFramed : startsWithContentLength (buffer ++ more) = true := by
        rw [startsWithContentLength, List.take_append_of_le_length isLong]
        exact isFramed
      rw [readNextMessage, if_neg (notEmptyLater more), if_pos stillFramed, stable more]
    · rename_i isLine
      obtain ⟨shorter, stable⟩ := readLineMessage_spec taken
      refine ⟨shorter, fun more => ?_⟩
      have stillLine : startsWithContentLength (buffer ++ more) = false := by
        by_cases isLong : contentLengthName.length ≤ buffer.length
        · rw [startsWithContentLength, List.take_append_of_le_length isLong]
          exact Bool.not_eq_true _ ▸ isLine
        · apply startsWithContentLength_of_newline
          rw [readLineMessage] at taken
          split at taken
          · cases taken
          · rename_i front back isCut
            have isBreak : 10 ∈ buffer := by
              rw [eq_append_of_cutAt isCut]
              simp
            rw [List.take_append, List.take_of_length_le (Nat.le_of_not_le isLong)]
            exact List.mem_append_left _ isBreak
      rw [readNextMessage, if_neg (notEmptyLater more), if_neg (by simp [stillLine]), stable more]

variable (syntaxError : List Char → String)

/-- The reader of the transport. -/
def stdioReader : ChunkedReader UInt8 StdioJsonRpcMessage where
  next := readNextMessage syntaxError
  shorter := fun _ _ _ taken => (readNextMessage_spec taken).1
  stable := fun _ _ _ more taken => (readNextMessage_spec taken).2 more

/-- The messages of a stream that ends after some chunks. -/
def readStdioJsonRpcMessages (chunks : List (List UInt8)) : List StdioJsonRpcMessage :=
  let received := (stdioReader syntaxError).receiveAll chunks
  let trailing := trimBlank (decodeUtf8 received.2)
  received.1 ++
    if trailing = [] then [] else [parseJsonPayload syntaxError trailing .line]

end OpenAgent.Mcp
