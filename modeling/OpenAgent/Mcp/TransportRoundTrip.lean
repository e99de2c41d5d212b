import OpenAgent.Mcp.StdioTransport

/-!
# The transport gives back what was written

The messages that are read do not depend on the chunks in which the bytes arrive.  Of
lines and frames in any order, each is read as the value that was written, with the way in
which it was written.
-/

namespace OpenAgent.Mcp

open Library

/-- A value begins with a printed character other than the first of the header. -/
theorem plain_start
    (starts : char ∈ ['n', 't', 'f', '"', '[', '\x7b', '-'] ∨ char.isDigit = true) :
    0x20 < char.toNat ∧ char.toNat < 128 ∧ char.toLower ≠ 'c' := by
  rcases starts with isListed | isDigit
  · have listed : ∀ char ∈ ['n', 't', 'f', '"', '[', '\x7b', '-'],
        0x20 < char.toNat ∧ char.toNat < 128 ∧ char.toLower ≠ 'c' := by
      simp
    exact listed char isListed
  · obtain ⟨low, high⟩ := digit_bounds isDigit
    have digits : ∀ code ≤ 57, 48 ≤ code → (Char.ofNat code).toLower ≠ 'c' := by decide
    have notFirst := digits char.toNat high low
    rw [Char.ofNat_toNat] at notFirst
    exact ⟨by omega, by omega, notFirst⟩

theorem encodeUtf8_append (left right : List Char) :
    encodeUtf8 (left ++ right) = encodeUtf8 left ++ encodeUtf8 right :=
  List.flatMap_append

section

variable (response : Json)

theorem write_framed :
    writeStdioJsonRpcResponse response .framed =
      lengthFrame (encodeUtf8 (stringify response)) := by
  rw [writeStdioJsonRpcResponse, encodeUtf8_append, encodeUtf8_append,
    encodeUtf8_of_ascii fun char isChar => (plain_lengthHeader _ char isChar).2]
  rfl

theorem write_line :
    writeStdioJsonRpcResponse response .line = encodeUtf8 (stringify response) ++ [10] :=
  encodeUtf8_append _ _

/-- A header that is written is the name that is looked for, a blank and the digits. -/
theorem lengthHeader_eq :
    ∃ name : List Char, name.length = contentLengthName.length ∧
      name.map Char.toLower = contentLengthName ∧ (∀ char ∈ name, char.toNat < 128) ∧
      ∀ length, lengthHeader length = name ++ ' ' :: Nat.toDigits 10 length := by
  have isName : "Content-Length: ".toList = "Content-Length:".toList ++ [' '] := by
    decide +kernel
  refine ⟨"Content-Length:".toList, by decide +kernel, by decide +kernel, by simp,
    fun length => ?_⟩
  exact (congrArg (· ++ Nat.toDigits 10 length) isName).trans (List.append_assoc _ _ _)

theorem matchContentLength_lengthHeader (length : Nat) :
    matchContentLength (lengthHeader length) = some length := by
  have digits : ∀ char ∈ Nat.toDigits 10 length, char.isDigit = true :=
    fun char isChar => Nat.isDigit_of_mem_toDigits (by decide) (by decide) isChar
  have notBlank : ∀ char ∈ Nat.toDigits 10 length, isBlank char = false := by
    intro char isChar
    obtain ⟨low, high⟩ := digit_bounds (digits char isChar)
    exact isBlank_of_printed (by omega) (by omega)
  obtain ⟨name, sameLength, lowered, -, isHeader⟩ := lengthHeader_eq
  have named : ((lengthHeader length).take contentLengthName.length).map Char.toLower =
      contentLengthName := by
    rw [isHeader, ← sameLength, List.take_left, lowered]
  have remaining : (lengthHeader length).drop contentLengthName.length =
      ' ' :: Nat.toDigits 10 length := by
    rw [isHeader, ← sameLength, List.drop_left]
  have value : (' ' :: Nat.toDigits 10 length).dropWhile isBlank = Nat.toDigits 10 length := by
    rw [List.dropWhile_cons_of_pos (by decide)]
    cases isDigits : Nat.toDigits 10 length with
    | nil => rfl
    | cons first rest =>
      have plain := notBlank first (isDigits ▸ List.mem_cons_self)
      rw [List.dropWhile_cons_of_neg (by simp [plain])]
  rw [matchContentLength, if_pos named, remaining, value]
  rw [if_pos ⟨Nat.toDigits_ne_nil, List.all_eq_true.mpr digits⟩,
    Nat.ofDigitChars_toDigits (by decide) (by decide)]

theorem parseContentLength_lengthHeader (length : Nat) :
    parseContentLength (asciiText (asciiBytes (lengthHeader length))) = some length := by
  rw [asciiText_asciiBytes fun char isChar => (plain_lengthHeader length char isChar).2,
    parseContentLength,
    splitHeaderLines_of_plain fun isReturn => (plain_lengthHeader length _ isReturn).1 rfl,
    List.findSome?_cons, matchContentLength_lengthHeader]

theorem startsWithContentLength_lengthFrame (body : List UInt8) :
    startsWithContentLength (lengthFrame body) = true := by
  obtain ⟨name, sameLength, lowered, isAscii, isHeader⟩ := lengthHeader_eq
  have sameBytes : (asciiBytes name).length = contentLengthName.length := by
    rw [asciiBytes, List.length_map, sameLength]
  have front : (lengthFrame body).take contentLengthName.length = asciiBytes name := by
    have whole : lengthFrame body = asciiBytes name ++
        (asciiBytes (' ' :: Nat.toDigits 10 body.length) ++ (headerSeparator ++ body)) := by
      rw [lengthFrame, isHeader, asciiBytes, List.map_append, List.append_assoc, List.append_assoc]
      rfl
    rw [whole, ← sameBytes, List.take_left]
  rw [startsWithContentLength, front, asciiText_asciiBytes isAscii, decide_eq_true lowered]

/-- A frame is read as its value. -/
theorem readNextMessage_framed :
    readNextMessage syntaxError (writeStdioJsonRpcResponse response .framed) =
      .complete (some (.request response .framed)) [] := by
  have notEmpty : lengthFrame (encodeUtf8 (stringify response)) ≠ [] := by
    simp [lengthFrame, headerSeparator]
  rw [write_framed, readNextMessage, if_neg notEmpty,
    if_pos (startsWithContentLength_lengthFrame _)]
  simp only [readFramedMessage, cutAt_lengthFrame, parseContentLength_lengthHeader,
    if_neg (Nat.lt_irrefl _), List.take_length, List.drop_length, parseJsonPayload,
    decodeUtf8_encodeUtf8, parseJson_stringify]

theorem startsWithContentLength_line :
    startsWithContentLength (writeStdioJsonRpcResponse response .line) = false := by
  obtain ⟨char, rest, text, starts⟩ := stringify_starts response
  obtain ⟨-, isAscii, notFirst⟩ := plain_start starts
  have first : asciiText ((writeStdioJsonRpcResponse response .line).take
      contentLengthName.length) =
        char :: asciiText ((encodeUtf8 rest ++ [10]).take (contentLengthName.length - 1)) := by
    have single : encodeUtf8 [char] = asciiBytes [char] :=
      encodeUtf8_of_ascii (by simpa using isAscii)
    have back : asciiText (asciiBytes [char]) = [char] :=
      asciiText_asciiBytes (by simpa using isAscii)
    have split : encodeUtf8 (char :: rest) = encodeUtf8 [char] ++ encodeUtf8 rest :=
      encodeUtf8_append [char] rest
    rw [write_line, text, split, single]
    exact congrArg (· ++ _) back
  rw [startsWithContentLength, first, decide_eq_false_iff_not]
  intro same
  exact notFirst (List.cons.inj same).1

/-- A line is read as its value. -/
theorem readNextMessage_line :
    readNextMessage syntaxError (writeStdioJsonRpcResponse response .line) =
      .complete (some (.request response .line)) [] := by
  have oneLine := newline_notMem_encodeUtf8 (newline_notMem_stringify response)
  have isCut : cutAt [10] (encodeUtf8 (stringify response) ++ [10]) =
      some (encodeUtf8 (stringify response), []) := by
    have found : cutAt [10] (encodeUtf8 (stringify response) ++ 10 :: [] ++ []) =
        some (encodeUtf8 (stringify response), []) := cutAt_of_notMem oneLine []
    rwa [List.append_nil] at found
  have noReturn : dropReturn (stringify response) = stringify response := by
    rw [dropReturn, if_neg]
    intro isReturn
    exact absurd (printed_stringify response _ (List.mem_of_getLast? isReturn)) (by decide)
  have notBlank : trimBlank (stringify response) ≠ [] := by
    obtain ⟨char, rest, text, starts⟩ := stringify_starts response
    obtain ⟨large, isAscii, -⟩ := plain_start starts
    rw [text]
    exact trimBlank_ne_nil (isBlank_of_printed large isAscii)
  have isLine := startsWithContentLength_line response
  rw [write_line] at isLine ⊢
  rw [readNextMessage, if_neg (by simp), if_neg (by simp [isLine])]
  simp only [readLineMessage, isCut, decodeUtf8_encodeUtf8, noReturn, if_neg notBlank,
    parseJsonPayload, parseJson_stringify]

end

/-- The messages of a stream do not depend on its chunks, and what was written is read. -/
theorem readStdioJsonRpcMessages_spec (syntaxError : List Char → String) :
    (∀ chunks others : List (List UInt8), chunks.flatten = others.flatten →
      readStdioJsonRpcMessages syntaxError chunks =
        readStdioJsonRpcMessages syntaxError others) ∧
    ∀ (messages : List (Json × StdioJsonRpcResponseMode)) (chunks : List (List UInt8)),
      chunks.flatten = messages.flatMap
          (fun message => writeStdioJsonRpcResponse message.1 message.2) →
        readStdioJsonRpcMessages syntaxError chunks =
          messages.map fun message => .request message.1 message.2 := by
  constructor
  · intro chunks others same
    simp only [readStdioJsonRpcMessages, ChunkedReader.receiveAll_eq_drain, same]
  · intro messages chunks isWritten
    have reads : ∀ message ∈ messages,
        (stdioReader syntaxError).next (writeStdioJsonRpcResponse message.1 message.2) =
          .complete (some (.request message.1 message.2)) [] := by
      rintro ⟨value, mode⟩ -
      cases mode with
      | line => exact readNextMessage_line value
      | framed => exact readNextMessage_framed value
    have drained := ChunkedReader.drain_flatMap (fun message : Json × StdioJsonRpcResponseMode =>
        writeStdioJsonRpcResponse message.1 message.2)
      (fun message => StdioJsonRpcMessage.request message.1 message.2) reads
    rw [readStdioJsonRpcMessages, ChunkedReader.receiveAll_eq_drain, isWritten, drained]
    exact List.append_nil _

end OpenAgent.Mcp
