import OpenAgent.Hashline.Display

/-!
# Anchors are read back

A reference that is copied from a display of a line, with or without the marker
in front and the content behind, is read as the number and the hash of that
line, and accepted on the content.  Stripping the anchors from the whole display
gives back the lines.
-/

namespace OpenAgent.Hashline

open Library

theorem parseDecimal_decimalText : parseDecimal (decimalText number) = number := by
  have digits : ∀ char ∈ Nat.toDigits 10 number, (unit char).toNat = char.toNat := by
    intro char member
    have digit := Nat.isDigit_of_mem_toDigits (by decide) (by decide) member
    simp only [Char.isDigit, Bool.and_eq_true, decide_eq_true_eq] at digit
    have bound : char.toNat ≤ 57 := digit.2
    exact Nat.mod_eq_of_lt (by omega)
  have folds : ∀ (chars : List Char) (value : Nat),
      (∀ char ∈ chars, (unit char).toNat = char.toNat) →
      (chars.map unit).foldl (fun value digit => 10 * value + (digit.toNat - 48)) value =
        Nat.ofDigitChars 10 chars value := by
    intro chars
    induction chars with
    | nil => exact fun value _ => Nat.ofDigitChars_nil.symm
    | cons char chars ih =>
      intro value same
      obtain ⟨sameChar, same⟩ := List.forall_mem_cons.mp same
      rw [List.map_cons, List.foldl_cons, ih _ same, sameChar]
      rfl
  rw [parseDecimal, decimalText_eq_map, folds _ 0 digits, Nat.ofDigitChars_ten_toDigits]

theorem isWhitespace_of_isDigit (digit : isDigit char = true) : isWhitespace char = false := by
  simp only [isDigit, Bool.and_eq_true, decide_eq_true_eq, UInt16.le_iff_toNat_le] at digit
  have low : 48 ≤ char.toNat := digit.1
  have high : char.toNat ≤ 57 := digit.2
  simp [isWhitespace, UInt16.le_iff_toNat_le, ← UInt16.toNat_inj]
  omega

theorem isWhitespace_of_isNibble (nibble : isNibble char = true) : isWhitespace char = false := by
  have every : nibbleStr.all (fun other => !isWhitespace other) = true := by decide
  have visible := List.all_eq_true.mp every char (by simpa [isNibble] using nibble)
  simpa using visible

/-- What may follow an anchor in a copied reference. -/
def IsTail (tail : Text) : Prop :=
  tail = [] ∨ ∃ rest, tail = unit '|' :: rest

theorem IsTail.take (isTail : IsTail tail) (count : Nat) : IsTail (tail.take count) := by
  rcases isTail with rfl | ⟨rest, rfl⟩
  · left
    simp
  · cases count with
    | zero => exact Or.inl rfl
    | succ count => exact Or.inr ⟨rest.take count, rfl⟩

theorem IsTail.trimEnd (isTail : IsTail tail) : IsTail (trimEnd tail) := by
  rcases isTail with rfl | ⟨rest, rfl⟩
  · left
    rfl
  · right
    have visible : isWhitespace (unit '|') = false := by decide
    exact ⟨Library.trimEnd rest, trimEnd_append_cons visible [] rest⟩

section Anchor

theorem anchorText_eq :
    ∃ first second, anchorText runtime number content =
        decimalText number ++ [unit '#', first, second] ∧
      isNibble first = true ∧ isNibble second = true ∧
      computeLineHash runtime number content = [first, second] := by
  obtain ⟨first, second, isHash, isFirst, isSecond⟩ :=
    computeLineHash_eq
  exact ⟨first, second, by rw [anchorText, isHash], isFirst, isSecond, isHash⟩

/-- An anchor starts with a digit. -/
theorem anchorText_head :
    ∃ digit rest, anchorText runtime number content = digit :: rest ∧ isDigit digit = true := by
  obtain ⟨digit, rest, isNumber⟩ :=
    List.exists_cons_of_ne_nil (decimalText_ne_nil number)
  refine ⟨digit, rest ++ unit '#' :: computeLineHash runtime number content, ?_, ?_⟩
  · rw [anchorText, isNumber]
    rfl
  · apply isDigit_of_mem_decimalText
    rw [isNumber]
    exact List.mem_cons_self

theorem trimStart_anchorText :
    trimStart (anchorText runtime number content ++ tail) =
      anchorText runtime number content ++ tail := by
  obtain ⟨digit, rest, isAnchor, isDigit⟩ := anchorText_head
  rw [isAnchor]
  exact trimStart_cons (isWhitespace_of_isDigit isDigit) _

theorem trimEnd_anchorText :
    trimEnd (front ++ (anchorText runtime number content ++ tail)) =
      front ++ (anchorText runtime number content ++ trimEnd tail) := by
  obtain ⟨first, second, isAnchor, _, isSecond, _⟩ := anchorText_eq
  have split : ∀ rest, front ++ (anchorText runtime number content ++ rest) =
      (front ++ decimalText number ++ [unit '#', first]) ++ second :: rest := by
    rw [isAnchor]
    simp
  rw [split, split, trimEnd_append_cons (isWhitespace_of_isNibble isSecond)]

theorem closeUpHash_anchorText :
    closeUpHash (anchorText runtime number content ++ tail) =
      anchorText runtime number content ++ tail := by
  obtain ⟨first, second, isAnchor, isFirst, _, _⟩ := anchorText_eq
  have noHash : ∀ char ∈ decimalText number, (char != unit '#') = true := by
    intro char member
    exact bne_iff_ne.mpr (digit_ne (isDigit_of_mem_decimalText member) (by decide))
  have noSpace : trimEnd (decimalText number) = decimalText number := by
    obtain ⟨digits, last, isNumber⟩ :=
      (List.eq_nil_or_concat (decimalText number)).resolve_left (decimalText_ne_nil number)
    rw [List.concat_eq_append] at isNumber
    have isDigit : last ∈ decimalText number := by simp [isNumber]
    rw [isNumber]
    exact trimEnd_append_cons
      (isWhitespace_of_isDigit (isDigit_of_mem_decimalText isDigit)) digits []
  rw [isAnchor, List.append_assoc]
  unfold closeUpHash
  rw [List.dropWhile_append_of_pos noHash, List.takeWhile_append_of_pos noHash]
  simp [noSpace, trimStart_cons (isWhitespace_of_isNibble isFirst)]

theorem bar_notMem_anchorText : unit '|' ∉ anchorText runtime number content := by
  obtain ⟨first, second, isAnchor, isFirst, isSecond, _⟩ := anchorText_eq
  rw [isAnchor]
  intro member
  simp only [List.mem_append, List.mem_cons, List.not_mem_nil, or_false] at member
  rcases member with inNumber | isMark | isBar | isBar
  · exact digit_ne (isDigit_of_mem_decimalText inNumber) (by decide) rfl
  · exact absurd isMark (by decide)
  · exact nibble_ne isFirst (by decide) isBar.symm
  · exact nibble_ne isSecond (by decide) isBar.symm

theorem cutAtBar_anchorText (isTail : IsTail tail) :
    ∃ left, IsTail left ∧ cutAtBar (anchorText runtime number content ++ tail) =
      anchorText runtime number content ++ left := by
  unfold cutAtBar
  simp only
  split
  next position found =>
    have behind : (anchorText runtime number content).length ≤ position := by
      by_contra inside
      rw [not_le] at inside
      obtain ⟨suffix, isSuffix, isBar⟩ := findSuffix_spec found
      rw [Nat.sub_zero, List.drop_append_of_le_length (Nat.le_of_lt inside),
        List.drop_eq_getElem_cons inside] at isSuffix
      subst isSuffix
      simp only [List.cons_append, Bool.and_eq_true, beq_iff_eq] at isBar
      have member := List.getElem_mem inside
      rw [isBar.1] at member
      exact bar_notMem_anchorText member
    refine ⟨_, isTail.take (position - (anchorText runtime number content).length), ?_⟩
    rw [List.take_append, List.take_of_length_le behind]
  next => exact ⟨tail, isTail, rfl⟩

theorem matchLineRef_anchorText :
    matchLineRef (anchorText runtime number content ++ tail) =
      some ⟨decimalText number, computeLineHash runtime number content, tail⟩ := by
  obtain ⟨first, second, isAnchor, isFirst, isSecond, isHash⟩ :=
    anchorText_eq
  obtain ⟨digit, digits, isNumber⟩ :=
    List.exists_cons_of_ne_nil (decimalText_ne_nil number)
  have allDigits : ∀ char ∈ decimalText number, isDigit char = true :=
    fun char member => isDigit_of_mem_decimalText member
  have notDigit : isDigit (unit '#') = false := by decide
  rw [isAnchor, List.append_assoc, isHash]
  unfold matchLineRef
  rw [List.takeWhile_append_of_pos allDigits, List.dropWhile_append_of_pos allDigits]
  simp [notDigit, isNumber, isFirst, isSecond]

theorem matchWholeLineRef_anchorText :
    matchWholeLineRef (anchorText runtime number content) =
      some ⟨decimalText number, computeLineHash runtime number content, []⟩ := by
  rw [matchWholeLineRef, ← List.append_nil (anchorText runtime number content),
    matchLineRef_anchorText]
  rfl

theorem extractLineRef_anchorText :
    extractLineRef (anchorText runtime number content ++ tail) =
      some (anchorText runtime number content) := by
  obtain ⟨digit, rest, isAnchor, _⟩ := anchorText_head
  have found : matchLineRef (digit :: (rest ++ tail)) =
      some ⟨decimalText number, computeLineHash runtime number content, tail⟩ := by
    rw [← List.cons_append, ← isAnchor]
    exact matchLineRef_anchorText
  rw [isAnchor, List.cons_append, extractLineRef, found, ← isAnchor]
  rfl

/-- The markers that the displays put in front of an anchor. -/
def markers : List Text :=
  [[], text ">>> ", text "    ", text "+ "]

theorem stripMarker_of_arrows : stripMarker (text ">>> " ++ rest) = trimStart rest := by
  have isPrefix : (text ">>>").isPrefixOf (text ">>> " ++ rest) = true := by
    simp [show text ">>> " = text ">>>" ++ [unit ' '] by decide]
  have space : isWhitespace (unit ' ') = true := by decide
  have split : text ">>> " ++ rest = unit '>' :: unit '>' :: unit '>' :: unit ' ' :: rest := by
    rfl
  rw [split] at isPrefix ⊢
  rw [stripMarker, if_pos isPrefix]
  simp [trimStart, space]

theorem stripMarker_of_plus : stripMarker (text "+ " ++ rest) = trimStart rest := by
  have space : isWhitespace (unit ' ') = true := by decide
  have notArrow : unit '>' ≠ unit '+' := by decide
  rw [show text "+ " = [unit '+', unit ' '] by decide, List.cons_append, stripMarker,
    show text ">>>" = [unit '>', unit '>', unit '>'] by decide]
  simp [notArrow, trimStart, space]

theorem stripMarker_anchorText :
    stripMarker (anchorText runtime number content ++ tail) =
      anchorText runtime number content ++ tail := by
  obtain ⟨digit, rest, isAnchor, isDigit⟩ := anchorText_head
  have notPlus : digit ≠ unit '+' := digit_ne isDigit (by decide)
  have notMinus : digit ≠ unit '-' := digit_ne isDigit (by decide)
  have notArrow : unit '>' ≠ digit := (digit_ne isDigit (by decide)).symm
  rw [isAnchor, List.cons_append, stripMarker,
    show text ">>>" = [unit '>', unit '>', unit '>'] by decide]
  simp [notPlus, notMinus, notArrow]

variable (isMarker : marker ∈ markers)
include isMarker

theorem stripMarker_trimmed :
    stripMarker (trim (marker ++ (anchorText runtime number content ++ tail))) =
      anchorText runtime number content ++ trimEnd tail := by
  have visible : ∀ {char : CodeUnit} (rest : Text), isWhitespace char = false →
      trim (char :: rest) = trimEnd (char :: rest) := by
    intro char rest isVisible
    rw [trim, trimStart_cons isVisible]
  simp only [markers, List.mem_cons, List.not_mem_nil, or_false] at isMarker
  rcases isMarker with rfl | rfl | rfl | rfl
  · rw [List.nil_append, trim, trimStart_anchorText, ← List.nil_append (_ ++ tail),
      trimEnd_anchorText, List.nil_append, stripMarker_anchorText]
  · have trimmed : trim (text ">>> " ++ (anchorText runtime number content ++ tail)) =
        text ">>> " ++ (anchorText runtime number content ++ trimEnd tail) := by
      rw [← trimEnd_anchorText]
      exact visible _ (by decide)
    rw [trimmed, stripMarker_of_arrows, trimStart_anchorText]
  · have blank : (text "    ").all isWhitespace = true := by decide
    have spaces : trimStart (text "    " ++ (anchorText runtime number content ++ tail)) =
        trimStart (anchorText runtime number content ++ tail) :=
      List.dropWhile_append_of_pos (List.all_eq_true.mp blank)
    rw [trim, spaces, trimStart_anchorText, ← List.nil_append (_ ++ tail),
      trimEnd_anchorText, List.nil_append, stripMarker_anchorText]
  · have trimmed : trim (text "+ " ++ (anchorText runtime number content ++ tail)) =
        text "+ " ++ (anchorText runtime number content ++ trimEnd tail) := by
      rw [← trimEnd_anchorText]
      exact visible _ (by decide)
    rw [trimmed, stripMarker_of_plus, trimStart_anchorText]

theorem normalizeLineRef_copied (isTail : IsTail tail) :
    normalizeLineRef (marker ++ (anchorText runtime number content ++ tail)) =
      anchorText runtime number content := by
  obtain ⟨left, isLeft, isCut⟩ : ∃ left, IsTail left ∧
      cutAtBar (anchorText runtime number content ++ trimEnd tail) =
        anchorText runtime number content ++ left := cutAtBar_anchorText isTail.trimEnd
  have trimmed : trim (anchorText runtime number content ++ left) =
      anchorText runtime number content ++ trimEnd left := by
    rw [trim, trimStart_anchorText, ← List.nil_append (_ ++ left), trimEnd_anchorText,
      List.nil_append]
  simp only [normalizeLineRef, stripMarker_trimmed isMarker, closeUpHash_anchorText, isCut, trimmed]
  rcases isLeft.trimEnd with isEmpty | ⟨rest, isBar⟩
  · simp only [isEmpty, List.append_nil, matchWholeLineRef_anchorText]
  · have notWhole : matchWholeLineRef (anchorText runtime number content ++ unit '|' :: rest) =
        none := by
      rw [matchWholeLineRef, matchLineRef_anchorText]
      rfl
    simp only [isBar, notWhole, extractLineRef_anchorText]

/-- A copied reference is read as the number and the hash of its line. -/
theorem parseLineRef_copied (isTail : IsTail tail) :
    parseLineRef (marker ++ (anchorText runtime number content ++ tail)) =
      .ok ⟨number, computeLineHash runtime number content⟩ := by
  rw [parseLineRef, normalizeLineRef_copied isMarker isTail]
  simp only [matchWholeLineRef_anchorText, parseDecimal_decimalText]

end Anchor

/-- A shown line of a content, with its number: a line of `formatHashLines`, a
context line of a mismatch, or an added line of a diff against an old
content. -/
inductive Display (runtime : HashRuntime) (content : Text) : Nat → Text → Prop
  | formatted {index : Nat} {shown : Text}
      (isShown : (hashLinesFrom runtime 1 (splitLines content))[index]? = some shown) :
      Display runtime content (index + 1) shown
  | context (mismatches : List HashMismatch) {number : Nat}
      (isShown : number ∈ displayLines mismatches (splitLines content).length) :
      Display runtime content number (displayLine runtime mismatches (splitLines content) number)
  | added (oldContent : Text) {index : Nat} {line : Text}
      (isLine : (splitLines content)[index]? = some line)
      (isShown : addedLine runtime (index + 1) line ∈
        diffLines runtime (index + 1) (splitLines oldContent)[index]? (some line)) :
      Display runtime content (index + 1) (addedLine runtime (index + 1) line)

/-- The lines that `generateHashlineDiff` adds behind its heading show lines of the new content. -/
theorem display_of_mem_diffBody
    (member : shown ∈ diffBody runtime (splitLines oldContent) (splitLines content))
    (isAdded : shown.head? = some (unit '+')) : ∃ number, Display runtime content number shown := by
  obtain ⟨index, isIndex, isShown⟩ := List.mem_flatMap.mp member
  have notRemoved : ∀ line, shown ≠ removedLine (index + 1) line := by
    rintro line rfl
    have isMinus : (removedLine (index + 1) line).head? = some (unit '-') := rfl
    exact absurd (isMinus.symm.trans isAdded) (by decide)
  refine ⟨index + 1, ?_⟩
  cases isNew : (splitLines content)[index]? with
  | some line =>
    rw [isNew] at isShown
    have isLine : shown = addedLine runtime (index + 1) line := by
      unfold diffLines at isShown
      split at isShown
      · simpa using isShown
      · simp_all
      · simp_all
    subst isLine
    exact .added oldContent isNew isShown
  | none =>
    rw [isNew] at isShown
    cases isOld : (splitLines oldContent)[index]? with
    | none =>
      rw [List.getElem?_eq_none_iff] at isNew isOld
      have := List.mem_range.mp isIndex
      omega
    | some line =>
      rw [isOld] at isShown
      exact absurd (List.mem_singleton.mp isShown) (notRemoved line)
theorem bounds_of_mem_displayLines (member : number ∈ displayLines mismatches lineCount) :
    1 ≤ number ∧ number ≤ lineCount := by
  rw [displayLines, mem_stableSort, mem_setOf, List.mem_flatMap] at member
  obtain ⟨mismatch, _, inRange⟩ := member
  rw [List.mem_range'_1] at inRange
  omega

/-- Every display is a marker, the formatted line and nothing else. -/
theorem Display.eq_formatHashLine (display : Display runtime content number shown) :
    ∃ index line marker, number = index + 1 ∧ (splitLines content)[index]? = some line ∧
      marker ∈ markers ∧ shown = marker ++ formatHashLine runtime number line := by
  cases display with
  | @formatted index shown isShown =>
    rw [hashLinesFrom, List.getElem?_map, List.getElem?_zipIdx] at isShown
    simp only [Option.map_map, Option.map_eq_some_iff, Function.comp_apply] at isShown
    obtain ⟨line, isLine, rfl⟩ := isShown
    refine ⟨index, line, [], rfl, isLine, by simp [markers], ?_⟩
    rw [List.nil_append, Nat.add_comm]
  | context mismatches isShown =>
    obtain ⟨positive, bound⟩ := bounds_of_mem_displayLines isShown
    have inside : number - 1 < (splitLines content).length := by omega
    refine ⟨number - 1, (splitLines content)[number - 1],
      if mismatches.any (·.line == number) then text ">>> " else text "    ",
      by omega, List.getElem?_eq_getElem inside, ?_, ?_⟩
    · split <;> simp [markers]
    · simp [displayLine, formatHashLine, anchorText, List.getElem?_eq_getElem inside]
  | @added oldContent index line isLine isShown =>
    exact ⟨index, line, text "+ ", rfl, isLine, by simp [markers], rfl⟩

theorem validateLineRef_of_parsed (isLine : lines[index]? = some line)
    (parsed : parseLineRef ref = .ok ⟨index + 1, computeLineHash runtime (index + 1) line⟩) :
    validateLineRef runtime lines ref = .ok () := by
  have withHint : parseLineRefWithHint runtime ref lines =
      .ok ⟨index + 1, computeLineHash runtime (index + 1) line⟩ := by
    rw [parseLineRefWithHint, parsed]
  rw [validateLineRef, withHint]
  simp [Except.bind, bind, isLine, isCompatibleLineHash]
  rfl

theorem afterHashlinePrefix_formatHashLine :
    afterHashlinePrefix (formatHashLine runtime number content) = some content := by
  obtain ⟨first, second, isAnchor, isFirst, isSecond, _⟩ := anchorText_eq
  have allDigits : ∀ char ∈ decimalText number, isDigit char = true :=
    fun char member => isDigit_of_mem_decimalText member
  have someDigits := decimalText_ne_nil number
  have unmarked : ∀ marker ∈ [text ">>>", text ">>"],
      marker.isPrefixOf (formatHashLine runtime number content) = false := by
    obtain ⟨digit, rest, isHead, isDigit⟩ := anchorText_head
    have notArrow : unit '>' ≠ digit := (digit_ne isDigit (by decide)).symm
    rw [formatHashLine, isHead,
      show text ">>>" = [unit '>', unit '>', unit '>'] by decide,
      show text ">>" = [unit '>', unit '>'] by decide]
    simp [List.isPrefixOf, notArrow]
  have start : trimStart (formatHashLine runtime number content) =
      formatHashLine runtime number content := trimStart_anchorText
  have split : formatHashLine runtime number content =
      decimalText number ++ unit '#' :: first :: second :: unit '|' :: content := by
    rw [formatHashLine, isAnchor]
    simp
  have notDigit : isDigit (unit '#') = false := by decide
  have visible : isWhitespace (unit '#') = false := by decide
  simp only [afterHashlinePrefix, start, unmarked _ List.mem_cons_self,
    unmarked _ (List.mem_cons_of_mem _ List.mem_cons_self), Bool.false_eq_true, if_false]
  rw [split, List.takeWhile_append_of_pos allDigits, List.dropWhile_append_of_pos allDigits]
  simp [notDigit, someDigits, trimStart_cons visible,
    trimStart_cons (isWhitespace_of_isNibble isFirst), isFirst, isSecond]

/-- Lines that all carry an anchor lose it. -/
theorem stripLinePrefixes_hashLinesFrom (someLines : lines ≠ []) :
    stripLinePrefixes (hashLinesFrom runtime startLine lines) = lines := by
  have after : ∀ shown ∈ hashLinesFrom runtime startLine lines,
      (afterHashlinePrefix shown).isSome = true := by
    intro shown member
    obtain ⟨entry, _, rfl⟩ := List.mem_map.mp member
    rw [afterHashlinePrefix_formatHashLine]
    rfl
  have counted : (hashLinesFrom runtime startLine lines).countP
      (fun line => (afterHashlinePrefix line).isSome) = lines.length := by
    rw [List.countP_eq_length.mpr after, hashLinesFrom, List.length_map, List.length_zipIdx]
  have nonEmpty : (hashLinesFrom runtime startLine lines).countP (!·.isEmpty) ≤
      lines.length := by
    refine Nat.le_trans List.countP_le_length ?_
    rw [hashLinesFrom, List.length_map, List.length_zipIdx]
  have positive : 0 < lines.length := List.length_pos_iff.mpr someLines
  have stripHash : (decide (0 < lines.length) &&
      decide ((hashLinesFrom runtime startLine lines).countP (!·.isEmpty) ≤
        2 * lines.length)) = true := by
    simp only [Bool.and_eq_true, decide_eq_true_eq]
    omega
  simp only [stripLinePrefixes, counted, stripHash]
  rw [hashLinesFrom, List.map_map]
  have firsts : (lines.zipIdx startLine).map Prod.fst = lines := by simp
  conv_rhs => rw [← firsts]
  apply List.map_congr_left
  simp [afterHashlinePrefix_formatHashLine]

theorem toNewLines_formatHashLines :
    toNewLines (.plain (formatHashLines runtime content)) = splitLines content := by
  by_cases isEmpty : content = []
  · subst isEmpty
    change toNewLines (.plain []) = splitLines []
    decide
  · have someLines : splitLines content ≠ [] := List.splitOn_ne_nil newline content
    have plain : ∀ line ∈ hashLinesFrom runtime 1 (splitLines content), newline ∉ line :=
      newline_notMem_hashLinesFrom fun line member => not_mem_newline_of_splitLines member
    have someShown : hashLinesFrom runtime 1 (splitLines content) ≠ [] := by
      simp [hashLinesFrom, someLines]
    rw [toNewLines, formatHashLines, formatHashLinesFrom, if_neg (by simp [isEmpty]),
      splitLines_joinLines_of_plain someShown plain, stripLinePrefixes_hashLinesFrom someLines]

/-- A reference copied from a display, the whole shown line or its anchor alone,
is read as the number and the hash of the line and accepted on the content; and
the display without its anchors is the content. -/
theorem anchors_roundTrip (runtime : HashRuntime) (content : Text) :
    (∀ number shown, Display runtime content number shown →
      ∃ line, 1 ≤ number ∧ (splitLines content)[number - 1]? = some line ∧
        ∀ copied, copied = shown ∨ copied = anchorText runtime number line →
          parseLineRef copied = .ok ⟨number, computeLineHash runtime number line⟩ ∧
            validateLineRef runtime (splitLines content) copied = .ok ()) ∧
      toNewLines (.plain (formatHashLines runtime content)) = splitLines content := by
  refine ⟨?_, toNewLines_formatHashLines⟩
  intro number shown display
  obtain ⟨index, line, marker, rfl, isLine, isMarker, rfl⟩ := display.eq_formatHashLine
  refine ⟨line, Nat.le_add_left 1 index, isLine, ?_⟩
  intro copied isCopied
  have parsed : parseLineRef copied =
      .ok ⟨index + 1, computeLineHash runtime (index + 1) line⟩ := by
    rcases isCopied with rfl | rfl
    · exact parseLineRef_copied isMarker (Or.inr ⟨line, rfl⟩)
    · have alone : parseLineRef ([] ++ (anchorText runtime (index + 1) line ++ [])) =
          .ok ⟨index + 1, computeLineHash runtime (index + 1) line⟩ :=
        parseLineRef_copied (by simp [markers]) (Or.inl rfl)
      rwa [List.nil_append, List.append_nil] at alone
  exact ⟨parsed, validateLineRef_of_parsed isLine parsed⟩

end OpenAgent.Hashline
