import OpenAgent.Library.Collections

/-!
# Texts as code units

A string of the source language is a sequence of UTF-16 code units, paired or
not.  Positions and lengths count code units, and all white space lies in the
basic plane.
-/

namespace OpenAgent.Library

abbrev CodeUnit := UInt16

abbrev Text := List CodeUnit

instance lawfulBEqText : LawfulBEq Text :=
  inferInstance

/-- The code unit of a character of the basic plane. -/
def unit (char : Char) : CodeUnit :=
  UInt16.ofNat char.toNat

def byteOrderMark : Char := '\uFEFF'

/-- The text of a string literal. -/
def text (string : String) : Text :=
  (codeUnits string).map UInt16.ofNat

/-- The decimal digits of a number. -/
def decimalText (number : Nat) : Text :=
  text (toString number)

theorem decimalText_eq_map (number : Nat) :
    decimalText number = (Nat.toDigits 10 number).map unit := by
  have single : ∀ char ∈ Nat.toDigits 10 number, codeUnitsOfChar char = [char.toNat] := by
    intro char member
    have digit := Nat.isDigit_of_mem_toDigits (by decide) (by decide) member
    have bound : char.toNat ≤ 57 := by
      simp only [Char.isDigit, Bool.and_eq_true, decide_eq_true_eq] at digit
      exact digit.2
    rw [codeUnitsOfChar, if_pos (by omega)]
  have flat : (Nat.toDigits 10 number).flatMap codeUnitsOfChar =
      (Nat.toDigits 10 number).map Char.toNat := by
    rw [List.flatMap_congr single, List.map_eq_flatMap]
  rw [decimalText, text, codeUnits, Nat.toString_eq_repr, Nat.toList_repr, flat, List.map_map]
  rfl

/-- The class `\s`. -/
def isWhitespace (char : CodeUnit) : Bool :=
  (0x9 ≤ char && char ≤ 0xD) || char == 0x20 || char == 0xA0 || char == 0x1680 ||
    (0x2000 ≤ char && char ≤ 0x200A) || char == 0x2028 || char == 0x2029 ||
    char == 0x202F || char == 0x205F || char == 0x3000 || char == 0xFEFF

/-- The characters that `.` does not match. -/
def isLineTerminator (char : CodeUnit) : Bool :=
  char == 0xA || char == 0xD || char == 0x2028 || char == 0x2029

/-- The class `[0-9]`. -/
def isDigit (char : CodeUnit) : Bool :=
  unit '0' ≤ char && char ≤ unit '9'

theorem isDigit_of_mem_decimalText (member : char ∈ decimalText number) : isDigit char = true := by
  rw [decimalText_eq_map, List.mem_map] at member
  obtain ⟨digit, isMember, rfl⟩ := member
  have range := Nat.isDigit_of_mem_toDigits (by decide) (by decide) isMember
  simp only [Char.isDigit, Bool.and_eq_true, decide_eq_true_eq] at range
  have low : 48 ≤ digit.toNat := range.1
  have high : digit.toNat ≤ 57 := range.2
  have size : digit.toNat % 65536 = digit.toNat := Nat.mod_eq_of_lt (by omega)
  simp only [isDigit, unit, UInt16.le_iff_toNat_le, UInt16.toNat_ofNat', Bool.and_eq_true,
    decide_eq_true_eq]
  exact ⟨by rw [size]; exact low, by rw [size]; exact high⟩

theorem decimalText_ne_nil (number : Nat) : decimalText number ≠ [] := by
  rw [decimalText_eq_map]
  simp

section

variable (value : Text)

def trimStart : Text :=
  value.dropWhile isWhitespace

def trimEnd : Text :=
  (value.reverse.dropWhile isWhitespace).reverse

def trim : Text :=
  trimEnd (trimStart value)

theorem trimStart_cons (visible : isWhitespace char = false) (rest : Text) :
    trimStart (char :: rest) = char :: rest := by
  simp [trimStart, visible]

theorem trimEnd_append_cons (visible : isWhitespace char = false) (front back : Text) :
    trimEnd (front ++ char :: back) = front ++ char :: trimEnd back := by
  have stops : ((back.reverse ++ char :: front.reverse).dropWhile isWhitespace) =
      back.reverse.dropWhile isWhitespace ++ char :: front.reverse := by
    rw [List.dropWhile_append]
    split
    next allSpace =>
      rw [List.isEmpty_iff.mp allSpace]
      simp [visible]
    next => rfl
  simp [trimEnd, stops]

/-- The match of `^\s*`. -/
def leadingWhitespace : Text :=
  value.takeWhile isWhitespace

/-- `value.replace(/\s+/g, "")`. -/
def removeWhitespace : Text :=
  value.filter fun char => !isWhitespace char

end

/-- The first position, counted from `position`, at which a suffix satisfies a
test. -/
def findSuffix (test : Text → Bool) (position : Nat) : Text → Option Nat
  | [] => if test [] then some position else none
  | char :: rest =>
    if test (char :: rest) then some position else findSuffix test (position + 1) rest

theorem findSuffix_spec (found : findSuffix test offset value = some position) :
    ∃ suffix, value.drop (position - offset) = suffix ∧ test suffix = true := by
  have ordered : ∀ {rest : Text} {start}, findSuffix test start rest = some position →
      start ≤ position := by
    intro rest
    induction rest with
    | nil =>
      intro start isFound
      unfold findSuffix at isFound
      split at isFound <;> cases isFound
      exact Nat.le_refl _
    | cons char rest ih =>
      intro start isFound
      unfold findSuffix at isFound
      split at isFound
      · cases isFound
        exact Nat.le_refl _
      · exact Nat.le_of_succ_le (ih isFound)
  induction value generalizing offset with
  | nil =>
    unfold findSuffix at found
    split at found
    next holds => simpa using holds
    next => cases found
  | cons char rest ih =>
    unfold findSuffix at found
    split at found
    next holds =>
      cases found
      simpa using holds
    next =>
      have later := ordered found
      have next := ih found
      rwa [show position - offset = (position - (offset + 1)) + 1 by omega]

/-- `value.indexOf(part, offset)`; an offset past the end counts as the end. -/
def indexOf (value part : Text) (offset : Nat) : Option Nat :=
  findSuffix (fun suffix => part.isPrefixOf suffix) (min offset value.length)
    (value.drop offset)

/-- `value.slice(first, last)` for positions that are not negative. -/
def slice (value : List α) (first last : Nat) : List α :=
  (value.take last).drop first

/-- The field in front of a separator is determined when it does not hold the
separator. -/
theorem append_separator_inj [DecidableEq α] {separator : α} (notLeft : separator ∉ left)
    (notRight : separator ∉ right)
    (same : left ++ separator :: leftRest = right ++ separator :: rightRest) :
    left = right ∧ leftRest = rightRest := by
  have front : ∀ {field : List α} (rest : List α), separator ∉ field →
      (field ++ separator :: rest).takeWhile (fun value => decide (value ≠ separator)) =
        field := by
    intro field rest notField
    rw [List.takeWhile_append_of_pos]
    · simp
    · intro value member
      exact decide_eq_true fun equal => notField (equal ▸ member)
  have fields : left = right := by
    have isLeft := front leftRest notLeft
    rw [same, front rightRest notRight] at isLeft
    exact isLeft.symm
  subst fields
  exact ⟨rfl, List.tail_eq_of_cons_eq (List.append_cancel_left same)⟩

def newline : CodeUnit := 0xA

def carriageReturn : CodeUnit := 0xD

/-- `value.split("\n")`. -/
def splitLines (value : Text) : List Text :=
  value.splitOn newline

/-- `value.split(/\r?\n/)`. -/
def splitBreaks : Text → List Text
  | [] => [[]]
  | [char] => if char = newline then [[], []] else [[char]]
  | char :: next :: rest =>
    if char = newline then [] :: splitBreaks (next :: rest)
    else if char = carriageReturn ∧ next = newline then [] :: splitBreaks rest
    else
      match splitBreaks (next :: rest) with
      | [] => [[char]]
      | line :: lines => (char :: line) :: lines

/-- `lines.join("\n")`. -/
def joinLines (lines : List Text) : Text :=
  [newline].intercalate lines

theorem splitLines_joinLines_cons :
    splitLines (joinLines (line :: rest)) = splitLines line ++
      (if rest = [] then [] else splitLines (joinLines rest)) := by
  cases rest with
  | nil => simp [joinLines]
  | cons next rest => exact List.splitOn_append_cons_self _ _

theorem splitLines_joinLines (nonempty : lines ≠ []) :
    splitLines (joinLines lines) = lines.flatMap splitLines := by
  induction lines with
  | nil => exact absurd rfl nonempty
  | cons line rest ih =>
    rw [splitLines_joinLines_cons, List.flatMap_cons]
    by_cases isLast : rest = []
    · simp [isLast]
    · rw [if_neg isLast, ih isLast]

theorem splitLines_joinLines_of_plain (nonempty : lines ≠ [])
    (plain : ∀ line ∈ lines, newline ∉ line) : splitLines (joinLines lines) = lines := by
  have single : ∀ line ∈ lines, splitLines line = [line] :=
    fun line member => List.splitOn_eq_singleton (plain line member)
  rw [splitLines_joinLines nonempty, List.flatMap_congr single, List.flatMap_singleton']

theorem joinLines_append (someLeft : left ≠ []) (someRight : right ≠ []) :
    joinLines (left ++ right) = joinLines left ++ newline :: joinLines right := by
  induction left with
  | nil => exact absurd rfl someLeft
  | cons line left ih =>
    cases left with
    | nil =>
      obtain ⟨next, rest, rfl⟩ := List.exists_cons_of_ne_nil someRight
      simp [joinLines]
    | cons next left =>
      have rest := ih (List.cons_ne_nil next left)
      simp only [joinLines, List.intercalate, List.cons_append, List.intersperse_cons_cons,
        List.flatten_cons] at rest ⊢
      rw [rest]
      simp

theorem joinLines_concat_append (lines : List Text) (line rest : Text) :
    joinLines (lines ++ [line ++ rest]) = joinLines (lines ++ [line]) ++ rest := by
  by_cases isEmpty : lines = []
  · simp [isEmpty, joinLines]
  · rw [joinLines_append isEmpty (by simp), joinLines_append isEmpty (by simp)]
    simp [joinLines]

/-- Lines may be joined in groups. -/
theorem joinLines_flatten {groups : List (List Text)} (nonempty : ∀ group ∈ groups, group ≠ []) :
    joinLines (groups.map joinLines) = joinLines groups.flatten := by
  induction groups with
  | nil => rfl
  | cons group groups ih =>
    obtain ⟨someLines, nonempty⟩ := List.forall_mem_cons.mp nonempty
    cases groups with
    | nil => simp [joinLines]
    | cons next groups =>
      have someRest : (next :: groups).flatten ≠ [] := by
        exact List.append_ne_nil_of_left_ne_nil (nonempty next List.mem_cons_self) _
      have split : ((group :: next :: groups).map joinLines) =
          [joinLines group] ++ (next :: groups).map joinLines := rfl
      have joined : joinLines (group :: next :: groups).flatten =
          joinLines group ++ newline :: joinLines (next :: groups).flatten :=
        joinLines_append someLines someRest
      rw [split, joinLines_append (by simp) (by simp), ih nonempty, joined]
      simp [joinLines]

theorem not_mem_newline_of_splitLines (member : line ∈ splitLines value) : newline ∉ line := by
  induction value generalizing line with
  | nil =>
    simp only [splitLines, List.splitOn_nil, List.mem_singleton] at member
    simp [member]
  | cons char value ih =>
    obtain ⟨first, rest, split⟩ := List.exists_cons_of_ne_nil (List.splitOn_ne_nil newline value)
    simp only [splitLines, split] at ih
    rw [splitLines, List.splitOn_cons_eq_if_modifyHead, split] at member
    split at member
    next =>
      rcases List.mem_cons.mp member with rfl | inRest
      · exact List.not_mem_nil
      · exact ih inRest
    next other =>
      rcases List.mem_cons.mp member with rfl | inRest
      · rw [List.mem_cons, not_or]
        exact ⟨fun equal => other (by simp [equal]), ih List.mem_cons_self⟩
      · exact ih (List.mem_cons_of_mem first inRest)

/-- Lines without line breaks are found again in the text they are joined
to. -/
theorem sublist_splitLines_joinLines {kept : List Text} (sublist : kept.Sublist lines)
    (plain : ∀ line ∈ kept, newline ∉ line) : kept.Sublist (splitLines (joinLines lines)) := by
  by_cases isEmpty : lines = []
  · rw [isEmpty, List.sublist_nil] at sublist
    rw [sublist]
    exact List.nil_sublist _
  · rw [splitLines_joinLines isEmpty]
    clear isEmpty
    induction sublist with
    | slnil => exact List.nil_sublist _
    | cons line _ ih => exact (ih plain).trans (List.sublist_append_right _ _)
    | cons_cons line _ ih =>
      rw [List.flatMap_cons, splitLines, List.splitOn_eq_singleton (plain line List.mem_cons_self)]
      exact (ih fun other member =>
        plain other (List.mem_cons_of_mem line member)).cons_cons line

end OpenAgent.Library
