import Mathlib.Data.List.TakeWhile
import OpenAgent.Library.Text
import OpenAgent.Library.Utf8

/-!
# Frames with a header

A frame is a block of header lines, a blank line and a body whose length in bytes the
header gives.  Here are the cut at the blank line, the lines of a block, and the frame
that a writer makes of a body.
-/

namespace OpenAgent.Library

/-- What stands in front of the first occurrence of a separator, and behind it. -/
def cutAt [DecidableEq α] (separator : List α) : List α → Option (List α × List α)
  | [] => none
  | value :: rest =>
    if separator <+: value :: rest then some ([], (value :: rest).drop separator.length)
    else (cutAt separator rest).map fun cut => (value :: cut.1, cut.2)

theorem eq_append_of_cutAt [DecidableEq α] {back : List α}
    (found : cutAt separator values = some (front, back)) :
    values = front ++ separator ++ back := by
  induction values generalizing front with
  | nil => cases found
  | cons value rest ih =>
    rw [cutAt] at found
    split at found
    · rename_i isHere
      cases found
      obtain ⟨tail, same⟩ := isHere
      rw [List.nil_append, ← same, List.drop_left]
    · obtain ⟨cut, isCut, same⟩ := Option.map_eq_some_iff.mp found
      cases same
      rw [ih isCut]
      rfl

/-- The first occurrence stays the first when there is more. -/
theorem cutAt_append [DecidableEq α] (found : cutAt separator values = some (front, back))
    (more : List α) : cutAt separator (values ++ more) = some (front, back ++ more) := by
  induction values generalizing front with
  | nil => cases found
  | cons value rest ih =>
    have whole := eq_append_of_cutAt found
    have enough : separator.length ≤ (value :: rest).length := by
      rw [whole]
      simp only [List.length_append]
      omega
    rw [cutAt] at found
    rw [List.cons_append, cutAt]
    split at found
    · rename_i isHere
      cases found
      have stillHere : separator <+: value :: (rest ++ more) :=
        isHere.trans (List.prefix_append (value :: rest) more)
      rw [if_pos stillHere, ← List.cons_append, List.drop_append_of_le_length enough]
    · rename_i notHere
      obtain ⟨cut, isCut, same⟩ := Option.map_eq_some_iff.mp found
      cases same
      have stillNot : ¬ separator <+: value :: (rest ++ more) := by
        intro isHere
        apply notHere
        exact List.prefix_of_prefix_length_le isHere
          (List.prefix_append (value :: rest) more) enough
      rw [if_neg stillNot, ih isCut]
      rfl

/-- The cut does not look at what stands behind the separator. -/
theorem cutAt_alone [DecidableEq α] {back : List α} (notEmpty : separator ≠ [])
    (found : cutAt separator values = some (front, back)) :
    cutAt separator (front ++ separator) = some (front, []) := by
  induction values generalizing front with
  | nil => cases found
  | cons value rest ih =>
    rw [cutAt] at found
    split at found
    · cases found
      obtain ⟨first, others, rfl⟩ := List.exists_cons_of_ne_nil notEmpty
      rw [List.nil_append, cutAt, if_pos (List.prefix_refl _), List.drop_length]
    · rename_i notHere
      obtain ⟨cut, isCut, same⟩ := Option.map_eq_some_iff.mp found
      cases same
      have whole := eq_append_of_cutAt isCut
      have stillNot : ¬ separator <+: value :: (cut.1 ++ separator) := by
        intro isHere
        apply notHere
        rw [whole]
        exact isHere.trans (List.prefix_append (value :: (cut.1 ++ separator)) cut.2)
      rw [List.cons_append, cutAt, if_neg stillNot, ih isCut]
      rfl

/-- A separator is found behind what does not hold its first value. -/
theorem cutAt_of_notMem [DecidableEq α] (absent : first ∉ front) (back : List α) :
    cutAt (first :: others) (front ++ first :: others ++ back) = some (front, back) := by
  induction front with
  | nil =>
    rw [List.nil_append, List.cons_append, cutAt, ← List.cons_append,
      if_pos (List.prefix_append _ _), List.drop_left]
  | cons value front ih =>
    rw [List.mem_cons, not_or] at absent
    rw [List.cons_append, List.cons_append, cutAt,
      if_neg fun isHere => absent.1 (List.cons_prefix_cons.mp isHere).1,
      ih absent.2]
    rfl

/-- A character of the class `\s`, all of which lie in the basic plane. -/
def isBlank (char : Char) : Bool :=
  char.toNat < 0x10000 && isWhitespace (unit char)

/-- `text.trim()`. -/
def trimBlank (text : List Char) : List Char :=
  ((text.dropWhile isBlank).reverse.dropWhile isBlank).reverse

variable {char : Char}

theorem isBlank_of_printed (large : 0x20 < char.toNat) (isAscii : char.toNat < 128) :
    isBlank char = false := by
  have printed : ∀ code < 128, 0x20 < code → isWhitespace (UInt16.ofNat code) = false := by
    decide +kernel
  rw [isBlank, unit, printed _ isAscii large, Bool.and_false]

theorem digit_bounds (isDigit : char.isDigit = true) : 48 ≤ char.toNat ∧ char.toNat ≤ 57 := by
  simp only [Char.isDigit, Bool.and_eq_true, decide_eq_true_eq] at isDigit
  exact isDigit

theorem trimBlank_ne_nil (notBlank : isBlank char = false) : trimBlank (char :: rest) ≠ [] := by
  intro isEmpty
  rw [trimBlank, List.dropWhile_cons_of_neg (by simp [notBlank]), List.reverse_eq_nil_iff,
    List.dropWhile_eq_nil_iff] at isEmpty
  have blank := isEmpty char (List.mem_reverse.mpr List.mem_cons_self)
  rw [notBlank] at blank
  cases blank

theorem trimBlank_of_plain {text : List Char} (plain : ∀ char ∈ text, isBlank char = false) :
    trimBlank text = text := by
  have front : text.dropWhile isBlank = text := by
    cases text with
    | nil => rfl
    | cons char rest => rw [List.dropWhile_cons_of_neg (by simp [plain char List.mem_cons_self])]
  have back : text.reverse.dropWhile isBlank = text.reverse := by
    cases isReverse : text.reverse with
    | nil => rfl
    | cons char rest =>
      have isChar : char ∈ text := List.mem_reverse.mp (isReverse ▸ List.mem_cons_self)
      rw [List.dropWhile_cons_of_neg (by simp [plain char isChar])]
  rw [trimBlank, front, back, List.reverse_reverse]

/-- `buffer.toString("ascii")`: the highest bit of a byte does not count. -/
def asciiText (bytes : List UInt8) : List Char :=
  bytes.map fun byte => Char.ofNat (byte.toNat % 128)

def asciiBytes (chars : List Char) : List UInt8 :=
  chars.map fun char => UInt8.ofNat char.toNat

/-- `text.split("\r\n")`. -/
def splitHeaderLines : List Char → List (List Char)
  | [] => [[]]
  | [char] => [[char]]
  | char :: next :: rest =>
    if char = '\r' ∧ next = '\n' then [] :: splitHeaderLines rest
    else
      match splitHeaderLines (next :: rest) with
      | [] => [[char]]
      | line :: lines => (char :: line) :: lines

theorem splitHeaderLines_of_plain (plain : '\r' ∉ chars) : splitHeaderLines chars = [chars] := by
  fun_induction splitHeaderLines chars with
  | case1 => rfl
  | case2 char => rfl
  | case3 char next rest isBreak => exact absurd (isBreak.1 ▸ List.mem_cons_self) plain
  | case4 char next rest notBreak isEmpty ih =>
    rw [ih fun isMem => plain (List.mem_cons_of_mem char isMem)] at isEmpty
    cases isEmpty
  | case5 char next rest notBreak line lines isSplit ih =>
    rw [ih fun isMem => plain (List.mem_cons_of_mem char isMem)] at isSplit
    cases isSplit
    rfl

def headerSeparator : List UInt8 :=
  [13, 10, 13, 10]

/-- The header line for a body of some length. -/
def lengthHeader (length : Nat) : List Char :=
  "Content-Length: ".toList ++ Nat.toDigits 10 length

/-- The frame that a writer makes of a body. -/
def lengthFrame (body : List UInt8) : List UInt8 :=
  asciiBytes (lengthHeader body.length) ++ headerSeparator ++ body

theorem asciiText_asciiBytes (isAscii : ∀ char ∈ chars, char.toNat < 128) :
    asciiText (asciiBytes chars) = chars := by
  induction chars with
  | nil => rfl
  | cons char chars ih =>
    rw [List.forall_mem_cons] at isAscii
    have code : (UInt8.ofNat char.toNat).toNat % 128 = char.toNat := by
      rw [UInt8.toNat_ofNat']
      omega
    have later := ih isAscii.2
    rw [asciiText, asciiBytes] at later ⊢
    rw [List.map_cons, List.map_cons, later, code, Char.ofNat_toNat]

theorem encodeUtf8_of_ascii (isAscii : ∀ char ∈ chars, char.toNat < 128) :
    encodeUtf8 chars = asciiBytes chars := by
  induction chars with
  | nil => rfl
  | cons char chars ih =>
    rw [List.forall_mem_cons] at isAscii
    rw [encodeUtf8_cons, ih isAscii.2, encodeChar]
    simp only [if_pos isAscii.1]
    rfl

/-- A header line has neither carriage returns nor characters beyond ASCII. -/
theorem plain_lengthHeader (length : Nat) :
    ∀ char ∈ lengthHeader length, char ≠ '\r' ∧ char.toNat < 128 := by
  intro char isChar
  rcases List.mem_append.mp isChar with isName | isDigit
  · have named : ∀ char ∈ "Content-Length: ".toList, char ≠ '\r' ∧ char.toNat < 128 := by simp
    exact named char isName
  · have digit := Nat.isDigit_of_mem_toDigits (by decide) (by decide) isDigit
    have bound : char.toNat ≤ 57 := by
      simp only [Char.isDigit, Bool.and_eq_true, decide_eq_true_eq] at digit
      exact digit.2
    refine ⟨?_, by omega⟩
    rintro rfl
    exact absurd digit (by decide)

/-- A frame is cut behind its header line. -/
theorem cutAt_lengthFrame (body : List UInt8) :
    cutAt headerSeparator (lengthFrame body) =
      some (asciiBytes (lengthHeader body.length), body) := by
  apply cutAt_of_notMem
  intro isReturn
  obtain ⟨char, isChar, same⟩ := List.mem_map.mp isReturn
  obtain ⟨notReturn, isAscii⟩ := plain_lengthHeader body.length char isChar
  have code := congrArg UInt8.toNat same
  rw [UInt8.toNat_ofNat', Nat.mod_eq_of_lt (by omega)] at code
  exact notReturn (by rw [← Char.ofNat_toNat char, code]; rfl)

end OpenAgent.Library
