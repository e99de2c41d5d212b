import OpenAgent.Lsp.JsonRpcFraming

/-!
# When the chunks of a server's stream matter

The messages that are dispatched depend on the chunks exactly when a frame stands behind a
block that gives no length: how much of the stream is thrown away with the block depends
on how much has arrived.  What a connection writes is dispatched whatever the chunks are.
-/

namespace OpenAgent.Lsp

open Library

theorem headerSeparator_ne_nil : headerSeparator ≠ [] := by
  decide

theorem isHeaderBlock_of_cutAt (isCut : cutAt headerSeparator buffer = some (headers, rest)) :
    IsHeaderBlock headers :=
  cutAt_alone headerSeparator_ne_nil isCut

theorem cutAt_headerBlock (isBlock : IsHeaderBlock headers) :
    cutAt headerSeparator (headers ++ headerSeparator ++ rest) = some (headers, rest) := by
  rw [cutAt_append isBlock, List.nil_append]

/-- A message is taken off a buffer that begins with a frame. -/
theorem readBuffer_eq_message_iff :
    readBuffer buffer = .message body remaining ↔
      ∃ headers, IsHeaderBlock headers ∧ parseContentLength (asciiText headers) = some body.length ∧
          buffer = headers ++ headerSeparator ++ (body ++ remaining) := by
  constructor
  · intro isMessage
    rw [readBuffer] at isMessage
    split at isMessage
    · cases isMessage
    · rename_i headers rest isCut
      split at isMessage
      · cases isMessage
      · rename_i contentLength isLength
        split at isMessage
        · cases isMessage
        · rename_i enough
          cases isMessage
          refine ⟨headers, isHeaderBlock_of_cutAt isCut, ?_, ?_⟩
          · rw [isLength, List.length_take_of_le (Nat.not_lt.mp enough)]
          · rw [List.take_append_drop]
            exact eq_append_of_cutAt isCut
  · rintro ⟨headers, isBlock, isLength, rfl⟩
    have enough : ¬ (body ++ remaining).length < body.length := by
      rw [List.length_append]
      omega
    simp only [readBuffer, cutAt_headerBlock isBlock, isLength, if_neg enough, List.take_left,
      List.drop_left]

theorem readBuffer_eq_missingLength_iff :
    readBuffer buffer = .missingLength ↔
      ∃ headers rest, IsHeaderBlock headers ∧ parseContentLength (asciiText headers) = none ∧
          buffer = headers ++ headerSeparator ++ rest := by
  constructor
  · intro isMissing
    rw [readBuffer] at isMissing
    split at isMissing
    · cases isMissing
    · rename_i headers rest isCut
      split at isMissing
      · rename_i noLength
        exact ⟨headers, rest, isHeaderBlock_of_cutAt isCut, noLength, eq_append_of_cutAt isCut⟩
      · split at isMissing <;> cases isMissing
  · rintro ⟨headers, rest, isBlock, noLength, rfl⟩
    simp only [readBuffer, cutAt_headerBlock isBlock, noLength]

def nextMessage (syntaxError : List Char → String) (buffer : List UInt8) : Reading UInt8 Dispatch :=
  match readBuffer buffer with
  | .message body remaining =>
    .complete (some (dispatchBody syntaxError (decodeUtf8 body))) remaining
  | _ => .incomplete

theorem nextMessage_eq_complete_iff :
    nextMessage syntaxError buffer = .complete message remaining ↔
      ∃ body, readBuffer buffer = .message body remaining ∧
        message = some (dispatchBody syntaxError (decodeUtf8 body)) := by
  rw [nextMessage]
  constructor
  · intro isComplete
    split at isComplete
    · rename_i body rest isMessage
      cases isComplete
      exact ⟨body, isMessage, rfl⟩
    · cases isComplete
  · rintro ⟨body, isMessage, rfl⟩
    rw [isMessage]

theorem nextMessage_eq_incomplete_iff :
    nextMessage syntaxError buffer = .incomplete ↔
      ∀ body remaining, readBuffer buffer ≠ .message body remaining := by
  rw [nextMessage]
  split
  · rename_i body remaining isMessage
    simp [isMessage]
  · rename_i noMessage
    simpa using noMessage

def isMissingLength : BufferStart → Bool
  | .missingLength => true
  | _ => false

theorem isMissingLength_iff : isMissingLength start = true ↔ start = .missingLength := by
  cases start <;> simp [isMissingLength]

/-- The loop that drains the input buffer, with blocks that give no length as broken. -/
def frameReader (syntaxError : List Char → String) : ResettingReader UInt8 Dispatch where
  next := nextMessage syntaxError
  shorter := by
    intro buffer message remaining isComplete
    obtain ⟨body, isMessage, -⟩ := (nextMessage_eq_complete_iff).mp isComplete
    obtain ⟨headers, -, -, rfl⟩ := (readBuffer_eq_message_iff).mp isMessage
    simp only [List.length_append, headerSeparator, List.length_cons, List.length_nil]
    omega
  stable := by
    intro buffer message remaining more isComplete
    obtain ⟨body, isMessage, rfl⟩ := (nextMessage_eq_complete_iff).mp isComplete
    obtain ⟨headers, isBlock, isLength, rfl⟩ := (readBuffer_eq_message_iff).mp isMessage
    refine (nextMessage_eq_complete_iff).mpr
      ⟨body, (readBuffer_eq_message_iff).mpr ⟨headers, isBlock, isLength, ?_⟩, rfl⟩
    simp only [List.append_assoc]
  alone := by
    intro buffer message remaining isComplete
    obtain ⟨body, isMessage, rfl⟩ := (nextMessage_eq_complete_iff).mp isComplete
    obtain ⟨headers, isBlock, isLength, rfl⟩ := (readBuffer_eq_message_iff).mp isMessage
    refine ⟨headers ++ headerSeparator ++ (body ++ []), ?_, ?_⟩
    · simp only [List.append_assoc, List.append_nil]
    · exact (nextMessage_eq_complete_iff).mpr
        ⟨body, (readBuffer_eq_message_iff).mpr ⟨headers, isBlock, isLength, rfl⟩, rfl⟩
  broken := fun buffer => isMissingLength (readBuffer buffer)
  broken_nil := rfl
  broken_waits := by
    intro buffer isBroken
    rw [nextMessage, (isMissingLength_iff).mp isBroken]
  broken_append := by
    intro buffer more isBroken
    rw [isMissingLength_iff, readBuffer_eq_missingLength_iff] at isBroken ⊢
    obtain ⟨headers, rest, isBlock, noLength, rfl⟩ := isBroken
    exact ⟨headers, rest ++ more, isBlock, noLength, List.append_assoc _ _ _⟩

/-- The loop is the reader, which throws away what is left over when it is broken. -/
theorem drainFrom_eq (syntaxError : List Char → String) (input : Input)
    (enough : input.inputBuffer.length < fuel) :
    (drainFrom syntaxError fuel input).dispatched =
        input.dispatched ++ ((frameReader syntaxError).drain input.inputBuffer).1 ∧
      (drainFrom syntaxError fuel input).inputBuffer =
        if (frameReader syntaxError).broken ((frameReader syntaxError).drain input.inputBuffer).2
        then [] else ((frameReader syntaxError).drain input.inputBuffer).2 := by
  induction fuel generalizing input with
  | zero => cases enough
  | succ fuel ih =>
    rw [drainFrom]
    cases start : readBuffer input.inputBuffer with
    | incomplete =>
      have waits : (frameReader syntaxError).next input.inputBuffer = .incomplete :=
        (nextMessage_eq_incomplete_iff).mpr (by simp [start])
      have notBroken : (frameReader syntaxError).broken input.inputBuffer = false := by
        change isMissingLength (readBuffer input.inputBuffer) = false
        rw [start]
        rfl
      rw [ChunkedReader.drain_of_incomplete waits]
      simp [notBroken]
    | missingLength =>
      have isBroken : (frameReader syntaxError).broken input.inputBuffer = true :=
        (isMissingLength_iff).mpr start
      rw [ChunkedReader.drain_of_incomplete ((frameReader syntaxError).broken_waits _ isBroken)]
      simp [isBroken]
    | message body remaining =>
      have taken : (frameReader syntaxError).next input.inputBuffer =
          .complete (some (dispatchBody syntaxError (decodeUtf8 body))) remaining :=
        (nextMessage_eq_complete_iff).mpr ⟨body, start, rfl⟩
      have bound := (frameReader syntaxError).shorter _ _ _ taken
      have later := ih
        { input with
          inputBuffer := remaining
          dispatched := input.dispatched ++ [dispatchBody syntaxError (decodeUtf8 body)] }
        (by dsimp only; omega)
      rw [ChunkedReader.drain_of_complete taken]
      simpa using later

/-- The dispatched messages are those that the reader accepts. -/
theorem receiveChunks_eq :
    ((receiveChunks syntaxError chunks).dispatched,
        (receiveChunks syntaxError chunks).inputBuffer) =
      (frameReader syntaxError).acceptAll chunks := by
  have fromAny : ∀ input : Input, ((chunks.foldl (handleData syntaxError) input).dispatched,
          (chunks.foldl (handleData syntaxError) input).inputBuffer) =
        chunks.foldl (frameReader syntaxError).accept (input.dispatched, input.inputBuffer) := by
    induction chunks with
    | nil => exact fun input => rfl
    | cons chunk chunks ih =>
      intro input
      have drained := drainFrom_eq syntaxError
        { input with inputBuffer := input.inputBuffer ++ chunk } (Nat.lt_succ_self _)
      rw [List.foldl_cons, ih, handleData, drainInputBuffer, drained.1, drained.2]
      rfl
  exact fromAny ⟨[], [], []⟩

theorem isPiece_iff : (frameReader syntaxError).IsPiece frame ↔ IsFrame frame := by
  constructor
  · rintro ⟨message, isComplete⟩
    obtain ⟨body, isMessage, -⟩ := (nextMessage_eq_complete_iff).mp isComplete
    obtain ⟨headers, isBlock, isLength, isWhole⟩ :=
      (readBuffer_eq_message_iff).mp isMessage
    exact ⟨headers, body, isBlock, isLength, by rw [isWhole, List.append_nil]⟩
  · rintro ⟨headers, body, isBlock, isLength, isWhole⟩
    refine ⟨_, (nextMessage_eq_complete_iff).mpr
      ⟨body, (readBuffer_eq_message_iff).mpr ⟨headers, isBlock, isLength, ?_⟩, rfl⟩⟩
    rw [isWhole, List.append_nil]

theorem drain_ne_nil_iff : ((frameReader syntaxError).drain buffer).1 ≠ [] ↔
      ∃ frame more, IsFrame frame ∧ buffer = frame ++ more := by
  constructor
  · intro some
    cases found : (frameReader syntaxError).next buffer with
    | incomplete => exact absurd (by rw [ChunkedReader.drain_of_incomplete found]) some
    | complete message remaining =>
      obtain ⟨frame, isWhole, isFrame⟩ := (frameReader syntaxError).alone _ _ _ found
      exact ⟨frame, remaining, (isPiece_iff).mp ⟨message, isFrame⟩, isWhole⟩
  · rintro ⟨frame, more, isFrame, rfl⟩
    have isPiece : (frameReader syntaxError).IsPiece frame := (isPiece_iff).mpr isFrame
    obtain ⟨message, isComplete⟩ := isPiece
    obtain ⟨body, -, rfl⟩ := (nextMessage_eq_complete_iff).mp isComplete
    rw [ResettingReader.drain_piece ⟨_, isComplete⟩, ChunkedReader.drain_of_complete isComplete]
    simp

theorem losesMessage_iff :
    (frameReader syntaxError).LosesMessage stream ↔ FrameBehindBadBlock stream := by
  constructor
  · rintro ⟨frames, dropped, lost, areFrames, isWhole, isBroken, some⟩
    obtain ⟨headers, skipped, isBlock, noLength, rfl⟩ :=
      (readBuffer_eq_missingLength_iff).mp ((isMissingLength_iff).mp isBroken)
    obtain ⟨frame, more, isFrame, rfl⟩ := (drain_ne_nil_iff).mp some
    refine ⟨frames, headers, skipped, frame, more,
      fun frame isMem => (isPiece_iff).mp (areFrames frame isMem), isBlock, noLength,
      isFrame, ?_⟩
    rw [isWhole]
    simp only [List.append_assoc]
  · rintro ⟨frames, headers, skipped, frame, more, areFrames, isBlock, noLength, isFrame, isWhole⟩
    refine ⟨frames, headers ++ headerSeparator ++ skipped, frame ++ more,
      fun frame isMem => (isPiece_iff).mpr (areFrames frame isMem), ?_, ?_,
      (drain_ne_nil_iff).mpr ⟨frame, more, isFrame, rfl⟩⟩
    · rw [isWhole]
      simp only [List.append_assoc]
    · exact (isMissingLength_iff).mpr ((readBuffer_eq_missingLength_iff).mpr
        ⟨headers, skipped, isBlock, noLength, rfl⟩)

theorem length_encodeUtf8_le (text : List Char) :
    (encodeUtf8 text).length ≤ 4 * (text.flatMap unitsOfChar).length := by
  induction text with
  | nil => exact Nat.le_refl 0
  | cons char text ih =>
    have bytes : (encodeChar char).length ≤ 4 := by
      simp only [encodeChar]
      split_ifs <;> simp
    have units : 1 ≤ (unitsOfChar char).length := by
      rw [unitsOfChar, codeUnitsOfChar]
      split_ifs <;> simp
    rw [encodeUtf8_cons, List.length_append, List.flatMap_cons, List.length_append]
    omega

theorem parseInt_of_digits (notEmpty : digits ≠ [])
    (areDigits : ∀ char ∈ digits, char.isDigit = true) :
    parseInt digits = some (Nat.ofDigitChars 10 digits 0 : Int) := by
  have taken : digits.takeWhile Char.isDigit = digits := List.takeWhile_eq_self_iff.mpr areDigits
  have unsigned : ∀ sign rest, digits = sign :: rest → sign.isDigit = true :=
    fun sign rest isSign => areDigits sign (isSign ▸ List.mem_cons_self)
  simp only [parseInt]
  split
  · exact absurd (unsigned _ _ rfl) (by decide)
  · exact absurd (unsigned _ _ rfl) (by decide)
  · rw [taken, if_neg notEmpty, Int.one_mul]

/-- The digits of a length are read as this length. -/
theorem lengthOfValue_digits (small : length < 2 ^ 1024 - 2 ^ 970) :
    lengthOfValue (' ' :: Nat.toDigits 10 length) = some length := by
  have digits : ∀ char ∈ Nat.toDigits 10 length, char.isDigit = true :=
    fun char isChar => Nat.isDigit_of_mem_toDigits (by decide) (by decide) isChar
  have plain : ∀ char ∈ Nat.toDigits 10 length, isBlank char = false := by
    intro char isChar
    obtain ⟨low, high⟩ := digit_bounds (digits char isChar)
    exact isBlank_of_printed (by omega) (by omega)
  have trimmed : trimBlank (' ' :: Nat.toDigits 10 length) = Nat.toDigits 10 length := by
    have front : (' ' :: Nat.toDigits 10 length).dropWhile isBlank =
        (Nat.toDigits 10 length).dropWhile isBlank :=
      List.dropWhile_cons_of_pos (by decide)
    rw [trimBlank, front, ← trimBlank, trimBlank_of_plain plain]
  have parsed := parseInt_of_digits Nat.toDigits_ne_nil digits
  rw [Nat.ofDigitChars_toDigits (by decide) (by decide)] at parsed
  have finite : isFinite (length : Int) = true := decide_eq_true small
  simp only [lengthOfValue, trimmed, parsed, finite, true_and, if_pos (Int.natCast_nonneg length),
    Int.toNat_natCast]

theorem parseContentLength_lengthHeader (small : length < 2 ^ 1024 - 2 ^ 970) :
    parseContentLength (asciiText (asciiBytes (lengthHeader length))) = some length := by
  have isCut : cutAt [':'] (lengthHeader length) =
      some ("Content-Length".toList, ' ' :: Nat.toDigits 10 length) := by
    have isHeader : lengthHeader length =
        "Content-Length".toList ++ ':' :: [] ++ ' ' :: Nat.toDigits 10 length := by
      have isName : "Content-Length: ".toList = "Content-Length".toList ++ [':'] ++ [' '] := by
        decide +kernel
      exact (congrArg (· ++ Nat.toDigits 10 length) isName).trans (List.append_assoc _ _ _)
    rw [isHeader]
    exact cutAt_of_notMem (by decide +kernel) _
  have isName : (trimBlank "Content-Length".toList).map Char.toLower =
      "content-length".toList := by
    decide +kernel
  have line : lengthOfLine (lengthHeader length) = some (some length) := by
    simp only [lengthOfLine, isCut]
    rw [if_pos isName, lengthOfValue_digits small]
  rw [asciiText_asciiBytes fun char isChar => (plain_lengthHeader length char isChar).2,
    parseContentLength,
    splitHeaderLines_of_plain fun isReturn => (plain_lengthHeader length _ isReturn).1 rfl,
    List.findSome?_cons, line]
  rfl

/-- What is written is a frame of the text of the message. -/
theorem writeMessage_spec (isWritten : writeMessage message = some payload) :
    payload = lengthFrame (encodeUtf8 (stringify message)) ∧
      (encodeUtf8 (stringify message)).length < 2 ^ 1024 - 2 ^ 970 := by
  rw [writeMessage] at isWritten
  split at isWritten
  · rename_i fits
    cases isWritten
    constructor
    · rw [encodeUtf8, List.flatMap_append, List.flatMap_append, ← encodeUtf8,
        encodeUtf8_of_ascii fun char isChar => (plain_lengthHeader _ char isChar).2]
      rfl
    · have bytes := length_encodeUtf8_le (stringify message)
      have limit : 4 * maxStringLength < 2 ^ 1024 - 2 ^ 970 := by decide +kernel
      rw [List.flatMap_append, List.length_append] at fits
      omega
  · cases isWritten

/-- What is written is dispatched as the message. -/
theorem nextMessage_writeMessage (isWritten : writeMessage message = some payload) :
    nextMessage syntaxError payload = .complete (some (dispatchMessage message)) [] := by
  obtain ⟨rfl, small⟩ := writeMessage_spec isWritten
  refine (nextMessage_eq_complete_iff).mpr ⟨encodeUtf8 (stringify message), ?_, ?_⟩
  · refine (readBuffer_eq_message_iff).mpr
      ⟨_, isHeaderBlock_of_cutAt (cutAt_lengthFrame _), parseContentLength_lengthHeader small, ?_⟩
    rw [List.append_nil]
    rfl
  · rw [decodeUtf8_encodeUtf8, dispatchBody, parseJson_stringify]

/-- What is dispatched does not depend on the chunks exactly when no frame stands behind a
block that gives no length.  What was written is dispatched in any case. -/
theorem dispatched_spec (syntaxError : List Char → String) :
    (∀ stream : List UInt8,
      (∀ chunks others : List (List UInt8), chunks.flatten = stream → others.flatten = stream →
        (receiveChunks syntaxError chunks).dispatched =
          (receiveChunks syntaxError others).dispatched) ↔
        ¬ FrameBehindBadBlock stream) ∧
    ∀ (messages : List (Json × List UInt8)) (chunks : List (List UInt8)),
      (∀ message ∈ messages, writeMessage message.1 = some message.2) →
        chunks.flatten = (messages.map Prod.snd).flatten →
          (receiveChunks syntaxError chunks).dispatched =
            messages.map fun message => dispatchMessage message.1 := by
  have dispatched : ∀ chunks, (receiveChunks syntaxError chunks).dispatched =
      ((frameReader syntaxError).acceptAll chunks).1 :=
    fun chunks => congrArg Prod.fst receiveChunks_eq
  constructor
  · intro stream
    simp only [dispatched]
    rw [ResettingReader.acceptAll_independent_iff, losesMessage_iff]
  · intro messages chunks areWritten isStream
    have drained : (frameReader syntaxError).drain chunks.flatten =
        (messages.map fun message => dispatchMessage message.1, []) := by
      rw [isStream]
      exact ChunkedReader.drain_flatMap Prod.snd _
        fun message isMem => nextMessage_writeMessage (areWritten message isMem)
    rw [dispatched, ResettingReader.acceptAll_of_drained (by rw [drained]), drained]

/-- A frame behind a line and a blank line, which is read or thrown away. -/
theorem not_dispatched_independent :
    ¬ ∀ (syntaxError : List Char → String) (chunks others : List (List UInt8)),
      chunks.flatten = others.flatten →
        (receiveChunks syntaxError chunks).dispatched =
          (receiveChunks syntaxError others).dispatched := by
  intro independent
  have counts := congrArg List.length (independent (fun _ => "")
    [asciiBytes "X\r\n\r\n".toList, asciiBytes "Content-Length: 2\r\n\r\n[]".toList]
    [asciiBytes "X\r\n\r\nContent-Length: 2\r\n\r\n[]".toList] (by decide +kernel))
  revert counts
  decide +kernel

end OpenAgent.Lsp
