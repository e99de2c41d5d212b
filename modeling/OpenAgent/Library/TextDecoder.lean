import OpenAgent.Library.Text
import OpenAgent.Library.Utf8

/-!
# The streaming decoder

`TextDecoder` with the `stream` option: the state of the UTF-8 decoder is kept
between two chunks, and a byte order mark at the start is dropped.
-/

namespace OpenAgent.Library

/-- The text of a sequence of characters. -/
def textOfChars (chars : List Char) : Text :=
  (chars.flatMap codeUnitsOfChar).map UInt16.ofNat

@[simp] theorem textOfChars_nil : textOfChars [] = [] := rfl

@[simp] theorem textOfChars_append :
    textOfChars (left ++ right) = textOfChars left ++ textOfChars right := by
  simp [textOfChars]

theorem textOfChars_flatten (pieces : List (List Char)) :
    textOfChars pieces.flatten = (pieces.map textOfChars).flatten := by
  induction pieces with
  | nil => rfl
  | cons piece pieces ih =>
    rw [List.flatten_cons, textOfChars_append, ih, List.map_cons, List.flatten_cons]

/-- The characters that are complete at the end of a chunk, and the state
behind it. -/
def decodeChunk : Utf8State → List UInt8 → List Char × Utf8State
  | state, [] => ([], state)
  | .idle, byte :: rest =>
    let (chars, state) := decodeChunk (Utf8State.begin byte).2 rest
    ((Utf8State.begin byte).1.toList ++ chars, state)
  | .within needed lower upper code, byte :: rest =>
    if lower ≤ byte.toNat ∧ byte.toNat ≤ upper then
      if needed = 1 then
        let (chars, state) := decodeChunk .idle rest
        (Char.ofNat (code * 0x40 + (byte.toNat - 0x80)) :: chars, state)
      else
        decodeChunk (.within (needed - 1) 0x80 0xBF (code * 0x40 + (byte.toNat - 0x80))) rest
    else
      let (chars, state) := decodeChunk (Utf8State.begin byte).2 rest
      (replacement :: ((Utf8State.begin byte).1.toList ++ chars), state)

theorem decodeFrom_append :
    decodeFrom state (front ++ back) =
      (decodeChunk state front).1 ++ decodeFrom (decodeChunk state front).2 back := by
  induction front generalizing state with
  | nil => cases state <;> rfl
  | cons byte front ih =>
    cases state with
    | idle => rw [List.cons_append, decodeFrom, ih, decodeChunk, List.append_assoc]
    | within needed lower upper code =>
      rw [List.cons_append, decodeFrom, decodeChunk]
      split
      · split <;> rw [ih]
        rfl
      · rw [ih]
        simp

/-- The decoder between two chunks; the mark is looked for in the first
character. -/
structure TextDecoder where
  bomSeen : Bool
  utf8 : Utf8State

namespace TextDecoder

/-- `new TextDecoder("utf-8")`. -/
def initial : TextDecoder where
  bomSeen := false
  utf8 := .idle

/-- Drop a byte order mark in front of the first characters. -/
def serialize (bomSeen : Bool) : List Char → List Char × Bool
  | [] => ([], bomSeen)
  | char :: rest =>
    if !bomSeen && char == byteOrderMark then (rest, true) else (char :: rest, true)

section

variable (decoder : TextDecoder)

/-- `decoder.decode(chunk, { stream: true })`. -/
def decode (chunk : List UInt8) : List Char × TextDecoder :=
  let (chars, utf8) := decodeChunk decoder.utf8 chunk
  let (chars, bomSeen) := serialize decoder.bomSeen chars
  (chars, { bomSeen, utf8 })

/-- `decoder.decode()` at the end of the stream. -/
def finish : List Char :=
  (serialize decoder.bomSeen (decodeFrom decoder.utf8 [])).1

/-- What the decoder returns for the chunks of a stream and at its end. -/
def decodeAll (decoder : TextDecoder) : List (List UInt8) → List (List Char)
  | [] => [decoder.finish]
  | chunk :: chunks =>
    let (chars, decoder) := decoder.decode chunk
    chars :: decoder.decodeAll chunks

theorem serialize_append (bomSeen : Bool) :
    (serialize bomSeen (front ++ back)).1 =
      (serialize bomSeen front).1 ++ (serialize (serialize bomSeen front).2 back).1 := by
  cases front with
  | nil => rfl
  | cons char front =>
    have seen : ∀ chars, (serialize true chars).1 = chars := by
      intro chars
      cases chars <;> rfl
    rw [List.cons_append, serialize, serialize]
    split <;> simp [seen]

/-- The pieces join to what the bytes decode to as a whole. -/
theorem decodeAll_flatten :
    (decoder.decodeAll chunks).flatten =
      (serialize decoder.bomSeen (decodeFrom decoder.utf8 chunks.flatten)).1 := by
  induction chunks generalizing decoder with
  | nil => simp [decodeAll, finish]
  | cons chunk chunks ih =>
    rw [decodeAll, List.flatten_cons, ih, List.flatten_cons, decodeFrom_append, serialize_append]
    rfl

end

/-- The decoder yields the text, however its bytes are cut. -/
theorem decodeAll_encodeUtf8 (cut : chunks.flatten = encodeUtf8 chars)
    (noMark : chars.head? ≠ some byteOrderMark) : (initial.decodeAll chunks).flatten = chars := by
  have whole : decodeFrom .idle (encodeUtf8 chars) = chars := decodeUtf8_encodeUtf8 chars
  rw [decodeAll_flatten, cut]
  simp only [initial, whole]
  cases chars with
  | nil => rfl
  | cons char chars =>
    have other : char ≠ byteOrderMark := fun equal => noMark (congrArg some equal)
    simp [serialize, other]

end TextDecoder

/-- A decoder with the options `fatal` and `ignoreBOM`.  Ill-formed bytes decode
to a replacement character, which has other bytes. -/
def decodeFatal (bytes : List UInt8) : Option Text :=
  if encodeUtf8 (decodeUtf8 bytes) = bytes then some (textOfChars (decodeUtf8 bytes)) else none

end OpenAgent.Library
