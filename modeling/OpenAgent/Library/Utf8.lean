import Mathlib.Data.UInt
import Mathlib.Algebra.Order.Group.Nat

/-!
# UTF-8 with replacement characters

The encoder, and the decoder that replaces each maximal ill-formed subsequence
by U+FFFD.  Decoding inverts encoding; a text cut inside a character decodes
to its complete characters and one replacement character.
-/

namespace OpenAgent.Library

/-- The UTF-8 bytes of one character. -/
def encodeChar (char : Char) : List UInt8 :=
  let code := char.toNat
  if code < 0x80 then [UInt8.ofNat code]
  else if code < 0x800 then
    [UInt8.ofNat (0xC0 + code / 0x40), UInt8.ofNat (0x80 + code % 0x40)]
  else if code < 0x10000 then
    [UInt8.ofNat (0xE0 + code / 0x1000), UInt8.ofNat (0x80 + code / 0x40 % 0x40),
      UInt8.ofNat (0x80 + code % 0x40)]
  else
    [UInt8.ofNat (0xF0 + code / 0x40000), UInt8.ofNat (0x80 + code / 0x1000 % 0x40),
      UInt8.ofNat (0x80 + code / 0x40 % 0x40), UInt8.ofNat (0x80 + code % 0x40)]

/-- The UTF-8 bytes of a text. -/
def encodeUtf8 (text : List Char) : List UInt8 :=
  text.flatMap encodeChar

/-- The character that stands for an ill-formed sequence. -/
def replacement : Char := '\uFFFD'

/-- The decoder between two bytes: at the start of a character, or with a
number of continuation bytes still needed, the range the next one must lie in
and the code point so far. -/
inductive Utf8State
  | idle
  | within (needed lower upper code : Nat)

/-- The first byte of a character: a complete character, an open sequence or
an error. -/
def Utf8State.begin (byte : UInt8) : Option Char × Utf8State :=
  let value := byte.toNat
  if value < 0x80 then (some (Char.ofNat value), .idle)
  else if 0xC2 ≤ value ∧ value ≤ 0xDF then
    (none, .within 1 0x80 0xBF (value - 0xC0))
  else if 0xE0 ≤ value ∧ value ≤ 0xEF then
    (none, .within 2 (if value = 0xE0 then 0xA0 else 0x80)
      (if value = 0xED then 0x9F else 0xBF) (value - 0xE0))
  else if 0xF0 ≤ value ∧ value ≤ 0xF4 then
    (none, .within 3 (if value = 0xF0 then 0x90 else 0x80)
      (if value = 0xF4 then 0x8F else 0xBF) (value - 0xF0))
  else (some replacement, .idle)

/-- The decoder from a state on. -/
def decodeFrom : Utf8State → List UInt8 → List Char
  | .idle, [] => []
  | .within _ _ _ _, [] => [replacement]
  | .idle, byte :: rest =>
    (Utf8State.begin byte).1.toList ++ decodeFrom (Utf8State.begin byte).2 rest
  | .within needed lower upper code, byte :: rest =>
    if lower ≤ byte.toNat ∧ byte.toNat ≤ upper then
      if needed = 1 then
        Char.ofNat (code * 0x40 + (byte.toNat - 0x80)) :: decodeFrom .idle rest
      else
        decodeFrom (.within (needed - 1) 0x80 0xBF (code * 0x40 + (byte.toNat - 0x80))) rest
    else
      replacement :: ((Utf8State.begin byte).1.toList ++ decodeFrom (Utf8State.begin byte).2 rest)

/-- `Buffer.toString("utf8")`. -/
def decodeUtf8 (bytes : List UInt8) : List Char :=
  decodeFrom .idle bytes

private theorem code_valid (char : Char) :
    char.toNat < 0xD800 ∨ 0xDFFF < char.toNat ∧ char.toNat < 0x110000 :=
  char.valid

private theorem toNat_byte (small : value < 256) :
    (UInt8.ofNat value).toNat = value := by
  exact Nat.mod_eq_of_lt small

private theorem begin_two (above : 0xC2 ≤ byte.toNat) (below : byte.toNat ≤ 0xDF) :
    Utf8State.begin byte = (none, .within 1 0x80 0xBF (byte.toNat - 0xC0)) := by
  simp only [Utf8State.begin]
  rw [if_neg (by omega), if_pos ⟨above, below⟩]

private theorem begin_three (above : 0xE0 ≤ byte.toNat) (below : byte.toNat ≤ 0xEF) :
    Utf8State.begin byte = (none, .within 2 (if byte.toNat = 0xE0 then 0xA0 else 0x80)
      (if byte.toNat = 0xED then 0x9F else 0xBF) (byte.toNat - 0xE0)) := by
  simp only [Utf8State.begin]
  rw [if_neg (by omega), if_neg (by omega), if_pos ⟨above, below⟩]

private theorem begin_four (above : 0xF0 ≤ byte.toNat) (below : byte.toNat ≤ 0xF4) :
    Utf8State.begin byte = (none, .within 3 (if byte.toNat = 0xF0 then 0x90 else 0x80)
      (if byte.toNat = 0xF4 then 0x8F else 0xBF) (byte.toNat - 0xF0)) := by
  simp only [Utf8State.begin]
  rw [if_neg (by omega), if_neg (by omega), if_neg (by omega), if_pos ⟨above, below⟩]

/-- What the decoder does inside the encoding of one character: it ends with
the character, and stays open on every shorter nonempty part. -/
private structure Decodes (bytes : List UInt8) (char : Char) : Prop where
  whole : ∀ rest, decodeFrom .idle (bytes ++ rest) = char :: decodeFrom .idle rest
  part : ∀ kept lost, kept ++ lost = bytes → kept ≠ [] → lost ≠ [] →
    decodeFrom .idle kept = [replacement]

private theorem decodes_one (ascii : byte.toNat < 0x80) (code : char.toNat = byte.toNat) :
    Decodes [byte] char := by
  constructor
  · intro rest
    have first : Utf8State.begin byte = (some (Char.ofNat byte.toNat), .idle) := by
      simp only [Utf8State.begin]
      rw [if_pos ascii]
    rw [List.singleton_append, decodeFrom, first, ← code, Char.ofNat_toNat]
    rfl
  · intro kept lost split keptNonempty lostNonempty
    have lengths := congrArg List.length split
    have keptPositive := List.length_pos_of_ne_nil keptNonempty
    have lostPositive := List.length_pos_of_ne_nil lostNonempty
    simp only [List.length_append, List.length_singleton] at lengths
    omega

/-- The same inside a longer character: the bytes complete it, and fewer of them leave
it open. -/
private structure Completes (state : Utf8State) (bytes : List UInt8) (char : Char) : Prop where
  whole : ∀ rest, decodeFrom state (bytes ++ rest) = char :: decodeFrom .idle rest
  part : ∀ kept lost, kept ++ lost = bytes → lost ≠ [] → decodeFrom state kept = [replacement]

private theorem completes_last (above : lower ≤ byte.toNat) (below : byte.toNat ≤ upper)
    (isCode : char.toNat = code * 0x40 + (byte.toNat - 0x80)) :
    Completes (.within 1 lower upper code) [byte] char := by
  constructor
  · intro rest
    rw [List.singleton_append, decodeFrom, if_pos ⟨above, below⟩, if_pos rfl, ← isCode,
      Char.ofNat_toNat]
  · intro kept lost split lostNonempty
    cases kept with
    | nil => rfl
    | cons first more =>
      exact absurd (List.append_eq_nil_iff.mp (List.cons.inj split).2).2 lostNonempty

/-- A byte that leads from one state to another, in front of what completes the latter. -/
private theorem completes_cons
    (leads : ∀ rest, decodeFrom state (byte :: rest) = decodeFrom next rest)
    (later : Completes next bytes char) :
    (∀ rest, decodeFrom state (byte :: bytes ++ rest) = char :: decodeFrom .idle rest) ∧
      ∀ kept lost, kept ++ lost = byte :: bytes → kept ≠ [] → lost ≠ [] →
        decodeFrom state kept = [replacement] := by
  constructor
  · intro rest
    rw [List.cons_append, leads]
    exact later.whole rest
  · intro kept lost split keptNonempty lostNonempty
    cases kept with
    | nil => exact absurd rfl keptNonempty
    | cons first more =>
      obtain ⟨rfl, tails⟩ := List.cons.inj split
      rw [leads]
      exact later.part more lost tails lostNonempty

private theorem completes_continue (above : lower ≤ byte.toNat) (below : byte.toNat ≤ upper)
    (later : Completes (.within (needed + 1) 0x80 0xBF (code * 0x40 + (byte.toNat - 0x80)))
      bytes char) :
    Completes (.within (needed + 2) lower upper code) (byte :: bytes) char := by
  have leads : ∀ rest, decodeFrom (.within (needed + 2) lower upper code) (byte :: rest) =
      decodeFrom (.within (needed + 1) 0x80 0xBF (code * 0x40 + (byte.toNat - 0x80))) rest := by
    intro rest
    rw [decodeFrom, if_pos ⟨above, below⟩]
    rfl
  obtain ⟨whole, part⟩ := completes_cons leads later
  refine ⟨whole, fun kept lost split lostNonempty => ?_⟩
  cases kept with
  | nil => rfl
  | cons first more => exact part _ lost split (List.cons_ne_nil first more) lostNonempty

private theorem decodes_lead (lead : Utf8State.begin byte = (none, state))
    (later : Completes state bytes char) : Decodes (byte :: bytes) char := by
  have leads : ∀ rest, decodeFrom .idle (byte :: rest) = decodeFrom state rest := by
    intro rest
    rw [decodeFrom, lead]
    rfl
  obtain ⟨whole, part⟩ := completes_cons leads later
  exact ⟨whole, part⟩

private theorem decodes_encodeChar (char : Char) : Decodes (encodeChar char) char := by
  have valid := code_valid char
  unfold encodeChar
  simp only
  split
  · apply decodes_one <;> rw [toNat_byte (by omega)]
    omega
  split
  · have first := toNat_byte (show 0xC0 + char.toNat / 0x40 < 256 by omega)
    have second := toNat_byte (show 0x80 + char.toNat % 0x40 < 256 by omega)
    exact decodes_lead (begin_two (by omega) (by omega))
      (completes_last (by omega) (by omega) (by omega))
  split
  · have first := toNat_byte (show 0xE0 + char.toNat / 0x1000 < 256 by omega)
    have second := toNat_byte (show 0x80 + char.toNat / 0x40 % 0x40 < 256 by omega)
    have third := toNat_byte (show 0x80 + char.toNat % 0x40 < 256 by omega)
    refine decodes_lead (begin_three (by omega) (by omega)) (completes_continue ?_ ?_
      (completes_last (by omega) (by omega) (by omega)))
    · split <;> omega
    · split <;> omega
  · have first := toNat_byte (show 0xF0 + char.toNat / 0x40000 < 256 by omega)
    have second := toNat_byte (show 0x80 + char.toNat / 0x1000 % 0x40 < 256 by omega)
    have third := toNat_byte (show 0x80 + char.toNat / 0x40 % 0x40 < 256 by omega)
    have fourth := toNat_byte (show 0x80 + char.toNat % 0x40 < 256 by omega)
    refine decodes_lead (begin_four (by omega) (by omega)) (completes_continue ?_ ?_
      (completes_continue (by omega) (by omega) (completes_last (by omega) (by omega) (by omega))))
    · split <;> omega
    · split <;> omega

@[simp] theorem encodeUtf8_nil : encodeUtf8 [] = [] := rfl

@[simp] theorem encodeUtf8_cons (char : Char) (text : List Char) :
    encodeUtf8 (char :: text) = encodeChar char ++ encodeUtf8 text := rfl

theorem decodeUtf8_encodeUtf8 (text : List Char) : decodeUtf8 (encodeUtf8 text) = text := by
  induction text with
  | nil => rfl
  | cons char text ih =>
    rw [encodeUtf8_cons, decodeUtf8, (decodes_encodeChar char).whole]
    exact congrArg (char :: ·) ih

/-- A cut of an encoded text decodes to the characters before the cut, and a
replacement character when the cut falls inside a character. -/
theorem decodeUtf8_cut {text} (split : kept ++ lost = encodeUtf8 text) (cut : lost ≠ []) :
    ∃ before after, before ++ after = text ∧ after ≠ [] ∧
      (decodeUtf8 kept = before ∨ decodeUtf8 kept = before ++ [replacement]) := by
  induction text generalizing kept with
  | nil =>
    rw [encodeUtf8_nil, List.append_eq_nil_iff] at split
    exact absurd split.2 cut
  | cons char text ih =>
    rcases List.append_eq_append_iff.mp split with
      ⟨charRest, bytesEq, lostEq⟩ | ⟨keptRest, keptEq, restEq⟩
    · by_cases noBytes : kept = []
      · exact ⟨[], char :: text, rfl, List.cons_ne_nil char text, Or.inl (by rw [noBytes]; rfl)⟩
      · by_cases whole : charRest = []
        · subst whole
          rw [List.append_nil] at bytesEq
          refine ⟨[char], text, rfl, ?_, Or.inl ?_⟩
          · rintro rfl
            exact cut lostEq
          · have decoded := (decodes_encodeChar char).whole []
            rwa [List.append_nil, bytesEq] at decoded
        · refine ⟨[], char :: text, rfl, List.cons_ne_nil char text, Or.inr ?_⟩
          exact (decodes_encodeChar char).part kept charRest bytesEq.symm noBytes whole
    · obtain ⟨before, after, textEq, nonempty, decoded⟩ :=
        ih restEq.symm
      refine ⟨char :: before, after, congrArg (char :: ·) textEq, nonempty, ?_⟩
      rw [keptEq, decodeUtf8, (decodes_encodeChar char).whole]
      rcases decoded with clean | torn
      · exact Or.inl (congrArg (char :: ·) clean)
      · exact Or.inr (congrArg (char :: ·) torn)

/-- A byte 10 appears only as the encoding of a line break. -/
theorem newline_notMem_encodeChar (notNewline : char ≠ '\n') : (10 : UInt8) ∉ encodeChar char := by
  have valid := code_valid char
  have code : char.toNat ≠ 10 := by
    intro same
    apply notNewline
    rw [← Char.ofNat_toNat char, same]
  have large : ∀ value, value < 256 → value ≠ 10 → (10 : UInt8) ≠ UInt8.ofNat value := by
    intro value small different same
    have values := congrArg UInt8.toNat same
    rw [toNat_byte small] at values
    exact different values.symm
  unfold encodeChar
  simp only
  split
  · simpa using large _ (by omega) code
  split
  · simp only [List.mem_cons, List.not_mem_nil, or_false, not_or]
    exact ⟨large _ (by omega) (by omega), large _ (by omega) (by omega)⟩
  split
  · simp only [List.mem_cons, List.not_mem_nil, or_false, not_or]
    exact ⟨large _ (by omega) (by omega), large _ (by omega) (by omega),
      large _ (by omega) (by omega)⟩
  · simp only [List.mem_cons, List.not_mem_nil, or_false, not_or]
    exact ⟨large _ (by omega) (by omega), large _ (by omega) (by omega),
      large _ (by omega) (by omega), large _ (by omega) (by omega)⟩

theorem newline_notMem_encodeUtf8 {text} (oneLine : '\n' ∉ text) :
    (10 : UInt8) ∉ encodeUtf8 text := by
  intro member
  obtain ⟨char, charMember, byteMember⟩ := List.mem_flatMap.mp member
  have notNewline : char ≠ '\n' := by
    rintro rfl
    exact oneLine charMember
  exact newline_notMem_encodeChar notNewline byteMember

end OpenAgent.Library
