import OpenAgent.Library.Text

/-!
# File texts and their envelopes

`file-text-canonicalization.ts`: edits work on a text without byte order mark
and with line feeds only; the envelope records what the file had instead.
-/

namespace OpenAgent.Hashline

open Library

/-- The line endings of a file. -/
inductive LineEnding
  | lf
  | crlf

def LineEnding.terminator : LineEnding → Text
  | lf => [newline]
  | crlf => [carriageReturn, newline]

structure FileTextEnvelope where
  content : Text
  hadBom : Bool
  lineEnding : LineEnding

section

variable (content : Text)

def detectLineEnding : LineEnding :=
  match indexOf content [newline] 0, indexOf content [carriageReturn, newline] 0 with
  | some lfIndex, some crlfIndex => if crlfIndex < lfIndex then .crlf else .lf
  | _, _ => .lf

def stripBom : Text → Text × Bool
  | [] => ([], false)
  | char :: rest => if char = unit byteOrderMark then (rest, true) else (char :: rest, false)

/-- `content.replace(/\r\n/g, "\n")`: only the carriage return goes. -/
def replaceCrlf : Text → Text
  | [] => []
  | char :: rest =>
    if char = carriageReturn ∧ rest.head? = some newline then replaceCrlf rest
    else char :: replaceCrlf rest

def normalizeToLf : Text :=
  (replaceCrlf content).map fun char => if char = carriageReturn then newline else char

def restoreLineEndings (lineEnding : LineEnding) : Text :=
  content.flatMap fun char => if char = newline then lineEnding.terminator else [char]

def canonicalizeFileText : FileTextEnvelope where
  content := normalizeToLf (stripBom content).1
  hadBom := (stripBom content).2
  lineEnding := detectLineEnding (stripBom content).1

def restoreFileText (envelope : FileTextEnvelope) : Text :=
  let withLineEnding := restoreLineEndings content envelope.lineEnding
  if envelope.hadBom then unit byteOrderMark :: withLineEnding else withLineEnding

end

/-- Lines without carriage returns, all ended in the same way. -/
def OneTerminator (body : Text) : Prop :=
  ∃ lineEnding : LineEnding, ∃ lines : List Text,
    (∀ line ∈ lines, carriageReturn ∉ line ∧ newline ∉ line) ∧
      body = lineEnding.terminator.intercalate lines

theorem stripBom_eq (noMark : content.head? ≠ some (unit byteOrderMark)) :
    stripBom content = (content, false) := by
  cases content with
  | nil => rfl
  | cons char content => exact if_neg fun isMark => noMark (congrArg some isMark)

theorem mem_joinLines (notBreak : char ≠ newline) :
    char ∈ joinLines lines ↔ ∃ line ∈ lines, char ∈ line := by
  induction lines with
  | nil => simp [joinLines]
  | cons line lines ih =>
    cases lines with
    | nil => simp [joinLines]
    | cons next lines =>
      have joined : joinLines (line :: next :: lines) =
          line ++ newline :: joinLines (next :: lines) := by
        simp [joinLines]
      rw [joined, List.mem_append, List.mem_cons, ih]
      simp [notBreak]

theorem restoreLineEndings_append (left right : Text) :
    restoreLineEndings (left ++ right) lineEnding =
      restoreLineEndings left lineEnding ++ restoreLineEndings right lineEnding :=
  List.flatMap_append

theorem restoreLineEndings_cons (char : CodeUnit) (rest : Text) :
    restoreLineEndings (char :: rest) lineEnding =
      (if char = newline then lineEnding.terminator else [char]) ++
        restoreLineEndings rest lineEnding :=
  rfl

theorem restoreLineEndings_lf (content : Text) : restoreLineEndings content .lf = content := by
  induction content with
  | nil => rfl
  | cons char content ih =>
    rw [restoreLineEndings_cons, ih]
    split
    next isNewline => rw [isNewline, LineEnding.terminator, List.singleton_append]
    next => rfl

theorem restoreLineEndings_of_plain (plain : newline ∉ content) :
    restoreLineEndings content lineEnding = content := by
  have single : ∀ char ∈ content,
      (if char = newline then lineEnding.terminator else [char]) = [char] :=
    fun char member => if_neg (ne_of_mem_of_not_mem member plain)
  rw [restoreLineEndings, List.flatMap_congr single, List.flatMap_singleton']

theorem restoreLineEndings_joinLines (plain : ∀ line ∈ lines, newline ∉ line) :
    restoreLineEndings (joinLines lines) lineEnding =
      lineEnding.terminator.intercalate lines := by
  induction lines with
  | nil => rfl
  | cons line lines ih =>
    obtain ⟨plainLine, plain⟩ := List.forall_mem_cons.mp plain
    cases lines with
    | nil => simpa [joinLines] using restoreLineEndings_of_plain plainLine
    | cons next lines =>
      have joined : joinLines (line :: next :: lines) =
          line ++ newline :: joinLines (next :: lines) := by
        simp [joinLines]
      rw [joined, restoreLineEndings_append, restoreLineEndings_cons, ih plain,
        restoreLineEndings_of_plain plainLine]
      simp

theorem carriageReturn_notMem_normalizeToLf (content : Text) :
    carriageReturn ∉ normalizeToLf content := by
  intro member
  obtain ⟨char, _, same⟩ := List.mem_map.mp member
  split at same
  · cases same
  · contradiction

theorem normalizeToLf_restoreLineEndings (plain : carriageReturn ∉ content) :
    normalizeToLf (restoreLineEndings content lineEnding) = content := by
  have replaced : replaceCrlf (restoreLineEndings content lineEnding) = content := by
    induction content with
    | nil => rfl
    | cons char content ih =>
      obtain ⟨other, plain⟩ := not_or.mp (List.mem_cons.not.mp plain)
      have rest := ih plain
      rw [restoreLineEndings_cons]
      split
      next isNewline =>
        cases lineEnding <;>
          simp [LineEnding.terminator, replaceCrlf, rest, isNewline,
            show newline ≠ carriageReturn by decide]
      next => simp [replaceCrlf, rest, Ne.symm other]
  have kept : ∀ char ∈ content, (if char = carriageReturn then newline else char) = char :=
    fun char member => if_neg (ne_of_mem_of_not_mem member plain)
  rw [normalizeToLf, replaced, List.map_congr_left kept, List.map_id']

theorem indexOf_append (notFront : first ∉ front) (more rest : Text) :
    indexOf (front ++ rest) (first :: more) 0 =
      findSuffix (fun suffix => (first :: more).isPrefixOf suffix) front.length rest := by
  have shifted : ∀ position,
      findSuffix (fun suffix => (first :: more).isPrefixOf suffix) position (front ++ rest) =
        findSuffix (fun suffix => (first :: more).isPrefixOf suffix)
          (position + front.length) rest := by
    induction front with
    | nil => exact fun _ => rfl
    | cons char front ih =>
      rw [List.mem_cons, not_or] at notFront
      intro position
      rw [List.cons_append, findSuffix, if_neg (by simp [notFront.1]),
        ih notFront.2, List.length_cons, Nat.add_assoc, Nat.add_comm 1]
  simpa [indexOf] using shifted 0

theorem detectLineEnding_restoreLineEndings (plain : carriageReturn ∉ content)
    (hasBreak : newline ∈ content) :
    detectLineEnding (restoreLineEndings content lineEnding) = lineEnding := by
  cases lineEnding with
  | lf =>
    have noReturns : indexOf content [carriageReturn, newline] 0 = none := by
      simpa [findSuffix] using indexOf_append plain [newline] []
    rw [restoreLineEndings_lf, detectLineEnding, noReturns]
    split
    next both => cases both
    next => rfl
  | crlf =>
    obtain ⟨front, rest, rfl, noBreak⟩ := List.eq_append_cons_of_mem hasBreak
    have plainFront : carriageReturn ∉ front := fun member => plain (List.mem_append_left _ member)
    have noBreakBefore : newline ∉ front ++ [carriageReturn] := by
      simpa [noBreak] using show newline ≠ carriageReturn by decide
    have crlfIndex := indexOf_append plainFront
    have lfIndex := indexOf_append noBreakBefore [] (newline :: restoreLineEndings rest .crlf)
    rw [List.append_assoc, List.singleton_append] at lfIndex
    rw [restoreLineEndings_append, restoreLineEndings_of_plain noBreak, restoreLineEndings_cons,
      if_pos rfl, LineEnding.terminator, List.cons_append, List.singleton_append,
      detectLineEnding, lfIndex, crlfIndex]
    simp [findSuffix]

/-- Below the byte order mark, the texts that come back are those with one kind
of line terminator. -/
theorem restoreLineEndings_eq_self_iff (body : Text) :
    restoreLineEndings (normalizeToLf body) (detectLineEnding body) = body ↔
      OneTerminator body := by
  have notBreak : carriageReturn ≠ newline := by decide
  constructor
  · intro restored
    have joined : joinLines (splitLines (normalizeToLf body)) = normalizeToLf body :=
      List.intercalate_splitOn newline
    have plain : ∀ line ∈ splitLines (normalizeToLf body),
        carriageReturn ∉ line ∧ newline ∉ line := by
      intro line member
      refine ⟨fun isReturn => carriageReturn_notMem_normalizeToLf body ?_,
        not_mem_newline_of_splitLines member⟩
      rw [← joined, mem_joinLines notBreak]
      exact ⟨line, member, isReturn⟩
    refine ⟨detectLineEnding body, _, plain, ?_⟩
    rw [← restoreLineEndings_joinLines fun line member => (plain line member).2, joined, restored]
  · rintro ⟨lineEnding, lines, plain, rfl⟩
    rw [← restoreLineEndings_joinLines fun line member => (plain line member).2]
    have noReturn : carriageReturn ∉ joinLines lines := by
      rw [mem_joinLines notBreak]
      rintro ⟨line, member, isReturn⟩
      exact (plain line member).1 isReturn
    rw [normalizeToLf_restoreLineEndings noReturn]
    by_cases hasBreak : newline ∈ joinLines lines
    · rw [detectLineEnding_restoreLineEndings noReturn hasBreak]
    · rw [restoreLineEndings_of_plain hasBreak, restoreLineEndings_of_plain hasBreak]

/-- A file text comes back from its canonical text and its envelope just when its
line terminators are of one kind; a canonical text comes back from the file text
it is written as, with the line ending it was written with. -/
theorem fileEnvelope_roundTrip :
    (∀ content, restoreFileText (canonicalizeFileText content).content
        (canonicalizeFileText content) = content ↔ OneTerminator (stripBom content).1) ∧
      ∀ content envelope, carriageReturn ∉ content → content.head? ≠ some (unit byteOrderMark) →
        let again := canonicalizeFileText (restoreFileText content envelope)
        again.content = content ∧ again.hadBom = envelope.hadBom ∧
          (newline ∈ content → again.lineEnding = envelope.lineEnding) := by
  constructor
  · intro content
    rw [← restoreLineEndings_eq_self_iff, restoreFileText, canonicalizeFileText]
    cases content with
    | nil => simp [stripBom]
    | cons char content => by_cases isMark : char = unit byteOrderMark <;> simp [stripBom, isMark]
  · intro content envelope plain noMark
    have stripped : stripBom (restoreFileText content envelope) =
        (restoreLineEndings content envelope.lineEnding, envelope.hadBom) := by
      unfold restoreFileText
      split
      next isMarked => rw [isMarked, stripBom, if_pos rfl]
      next isPlain =>
        rw [Bool.eq_false_of_not_eq_true isPlain, stripBom_eq]
        cases content with
        | nil => simp [restoreLineEndings]
        | cons char content =>
          rw [restoreLineEndings_cons]
          split
          next => cases envelope.lineEnding <;> simp [LineEnding.terminator] <;> decide
          next => simpa using noMark
    rw [canonicalizeFileText, stripped]
    exact ⟨normalizeToLf_restoreLineEndings plain, rfl,
      detectLineEnding_restoreLineEndings plain⟩

theorem fileEnvelope_roundTrip_crlf :
    let again := canonicalizeFileText (restoreFileText (text "a\nb")
      { content := [], hadBom := true, lineEnding := .crlf })
    again.content = text "a\nb" ∧ again.lineEnding = .crlf := by
  have written := fileEnvelope_roundTrip.2 (text "a\nb")
    { content := [], hadBom := true, lineEnding := .crlf } (by decide) (by decide)
  exact ⟨written.1, written.2.2 (by decide)⟩

end OpenAgent.Hashline
