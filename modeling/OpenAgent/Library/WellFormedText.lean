import OpenAgent.Library.Json
import OpenAgent.Library.TextDecoder

/-!
# Texts and their bytes

A text may hold half of a surrogate pair, and a file may hold bytes that are not UTF-8.
Both are replaced where a text is written to a file or read from it, so that a file that
is read and written again need not be the same.
-/

namespace OpenAgent.Library

/-- The character of one code unit; half of a pair counts as the replacement character. -/
def charOfUnit (char : CodeUnit) : Char :=
  if isHighSurrogate char || isLowSurrogate char then replacement else Char.ofNat char.toNat

/-- The characters of a text. -/
def charsOf : Text → List Char
  | [] => []
  | [char] => [charOfUnit char]
  | first :: second :: rest =>
    if isHighSurrogate first && isLowSurrogate second then pairChar first second :: charsOf rest
    else charOfUnit first :: charsOf (second :: rest)

/-- `new TextEncoder().encode(value)`. -/
def encodeText (value : Text) : List UInt8 :=
  encodeUtf8 (charsOf value)

/-- `value.toWellFormed()`. -/
def toWellFormed (value : Text) : Text :=
  textOfChars (charsOf value)

theorem charsOf_cons {first : CodeUnit} (notHigh : isHighSurrogate first = false) :
    charsOf (first :: rest) = charOfUnit first :: charsOf rest := by
  cases rest with
  | nil => rfl
  | cons next rest => simp [charsOf, notHigh]

private theorem toNat_unit (small : value < 0x10000) : (UInt16.ofNat value).toNat = value :=
  UInt16.toNat_ofNat_of_lt small

/-- A character of the basic plane is its own code unit. -/
theorem charsOf_unit (basic : char.toNat < 0x10000) :
    charsOf (UInt16.ofNat char.toNat :: rest) = char :: charsOf rest := by
  have code : (UInt16.ofNat char.toNat).toNat = char.toNat := toNat_unit basic
  have valid : char.toNat < 0xD800 ∨ 0xDFFF < char.toNat ∧ char.toNat < 0x110000 := char.valid
  have notHigh : isHighSurrogate (UInt16.ofNat char.toNat) = false := by
    simp only [isHighSurrogate, code, Bool.and_eq_false_iff, decide_eq_false_iff_not]
    omega
  have notLow : isLowSurrogate (UInt16.ofNat char.toNat) = false := by
    simp only [isLowSurrogate, code, Bool.and_eq_false_iff, decide_eq_false_iff_not]
    omega
  rw [charsOf_cons notHigh, charOfUnit, notHigh, notLow, code, Char.ofNat_toNat]
  rfl

/-- Any other character is a pair. -/
theorem charsOf_pair (astral : 0x10000 ≤ char.toNat) :
    charsOf (UInt16.ofNat (0xD800 + (char.toNat - 0x10000) / 0x400) ::
      UInt16.ofNat (0xDC00 + (char.toNat - 0x10000) % 0x400) :: rest) = char :: charsOf rest := by
  have valid : char.toNat < 0xD800 ∨ 0xDFFF < char.toNat ∧ char.toNat < 0x110000 := char.valid
  have high : (UInt16.ofNat (0xD800 + (char.toNat - 0x10000) / 0x400)).toNat =
      0xD800 + (char.toNat - 0x10000) / 0x400 :=
    toNat_unit (by omega)
  have low : (UInt16.ofNat (0xDC00 + (char.toNat - 0x10000) % 0x400)).toNat =
      0xDC00 + (char.toNat - 0x10000) % 0x400 :=
    toNat_unit (by omega)
  have isPair : (isHighSurrogate (UInt16.ofNat (0xD800 + (char.toNat - 0x10000) / 0x400)) &&
      isLowSurrogate (UInt16.ofNat (0xDC00 + (char.toNat - 0x10000) % 0x400))) = true := by
    simp only [isHighSurrogate, isLowSurrogate, high, low, Bool.and_eq_true, decide_eq_true_eq]
    omega
  have code : 0x10000 + (0xD800 + (char.toNat - 0x10000) / 0x400 - 0xD800) * 0x400 +
      (0xDC00 + (char.toNat - 0x10000) % 0x400 - 0xDC00) = char.toNat := by
    omega
  rw [charsOf, if_pos isPair, pairChar, high, low, code, Char.ofNat_toNat]

theorem charsOf_textOfChars (chars : List Char) : charsOf (textOfChars chars) = chars := by
  induction chars with
  | nil => rfl
  | cons char chars ih =>
    rw [textOfChars, List.flatMap_cons, codeUnitsOfChar]
    split
    · next basic => exact (charsOf_unit basic).trans (congrArg (char :: ·) ih)
    · next astral => exact (charsOf_pair (Nat.not_lt.mp astral)).trans (congrArg (char :: ·) ih)

/-- A line break stands for itself, whatever is around it. -/
theorem encodeText_append_newline :
    encodeText (left ++ newline :: right) = encodeText left ++ 10 :: encodeText right := by
  have start (rest : Text) : charsOf (newline :: rest) = '\n' :: charsOf rest :=
    charsOf_cons (by decide)
  have split : charsOf (left ++ newline :: right) = charsOf left ++ '\n' :: charsOf right := by
    fun_induction charsOf left with
    | case1 => exact start right
    | case2 char =>
      have notLow : isLowSurrogate newline = false := by decide
      simp [charsOf, notLow, start]
    | case3 first second rest isPair ih => simp [charsOf, isPair, ih]
    | case4 first second rest notPair ih =>
      simp only [List.cons_append] at ih ⊢
      rw [charsOf, if_neg notPair, ih]
  rw [encodeText, split, encodeUtf8, List.flatMap_append]
  rfl

/-- What a file holds. -/
structure FileContent where
  bytes : List UInt8
  deriving DecidableEq

namespace FileContent

/-- `readFileSync(path, "utf-8")`. -/
def text (content : FileContent) : Text :=
  textOfChars (decodeUtf8 content.bytes)

variable (value : Text)

/-- What a file holds after a text was written to it. -/
def ofText : FileContent where
  bytes := encodeText value

@[simp] theorem text_ofText : (ofText value).text = toWellFormed value := by
  rw [text, ofText, encodeText, decodeUtf8_encodeUtf8, toWellFormed]

/-- What was read from a file is well-formed. -/
@[simp] theorem toWellFormed_text (content : FileContent) :
    toWellFormed content.text = content.text := by
  rw [toWellFormed, text, charsOf_textOfChars]

/-- The replacements do not change the bytes any more. -/
@[simp] theorem ofText_toWellFormed : ofText (toWellFormed value) = ofText value := by
  rw [ofText, encodeText, toWellFormed, charsOf_textOfChars, ← encodeText, ofText]

end FileContent

end OpenAgent.Library
