import OpenAgent.Memory.PatchParser

/-!
# Hunks and whole lines

A hunk is looked for as a text, not as lines: what is found may start or end inside a line of the
file.  Where the first place that is found starts a line, whole lines are replaced.
-/

namespace OpenAgent.Memory

open Library

/-- The position starts a line. -/
def StartsLine (content : Text) (index : Nat) : Prop :=
  index = 0 ∨ content[index - 1]? = some newline

/-- Whole lines of a file, the old ones of a hunk, give way to the new ones; the last line
of a file may lack its newline. -/
def ReplacesLines (content : Text) (hunk : PatchHunk) (result : Text) : Prop :=
  ∃ front back, StartsLine content front.length ∧
    let (oldChunk, newChunk) := buildOldNewChunks hunk.lines
    content = front ++ oldChunk ++ back ∧ result = front ++ newChunk ++ back ∨
      back = [] ∧ content = front ++ chopNewline oldChunk ∧
        result = front ++ chopNewline newChunk

/-- The first place at which the old lines occur starts a line; so does the first place at
which they occur without the last newline, if only so, and it ends the file. -/
def FoundOnLines (content : Text) (hunk : PatchHunk) : Prop :=
  let oldChunk := (buildOldNewChunks hunk.lines).1
  match indexOf content oldChunk 0 with
  | some index => StartsLine content index
  | none => ∀ index, indexOf content oldChunk.dropLast 0 = some index →
      StartsLine content index ∧ index + oldChunk.dropLast.length = content.length

/-- A found part lies behind what is in front of its place. -/
theorem split_of_indexOf (found : indexOf content part 0 = some index) :
    content = content.take index ++ part ++ content.drop (index + part.length) ∧
      (content.take index).length = index := by
  obtain ⟨suffix, isSuffix, isPrefix⟩ := findSuffix_spec found
  obtain ⟨rest, rfl⟩ := List.isPrefixOf_iff_prefix.mp isPrefix
  rw [Nat.zero_min, Nat.sub_zero, List.drop_zero] at isSuffix
  have inside : index ≤ content.length := by
    by_cases isEmpty : part = []
    · subst isEmpty
      cases content <;> cases found <;> exact Nat.zero_le _
    · by_contra outside
      rw [List.drop_of_length_le (by omega)] at isSuffix
      exact isEmpty (List.append_eq_nil_iff.mp isSuffix.symm).1
  refine ⟨?_, List.length_take_of_le inside⟩
  rw [← List.drop_drop, isSuffix, List.drop_left, List.append_assoc, ← isSuffix,
    List.take_append_drop]

/-- A hunk found on lines replaces whole lines. -/
theorem replacesLines_of_applyMemoryPatchHunk (onLines : FoundOnLines content hunk)
    (applied : applyMemoryPatchHunk content hunk filePath = .ok result) :
    ReplacesLines content hunk result := by
  simp only [applyMemoryPatchHunk] at applied
  simp only [FoundOnLines] at onLines
  split at applied
  next => cases applied
  next nonempty =>
    split at applied
    next index found =>
      rw [found] at onLines
      cases applied
      obtain ⟨split, length⟩ := split_of_indexOf found
      exact ⟨_, _, by rwa [length], .inl ⟨split, rfl⟩⟩
    next notFound =>
      rw [notFound] at onLines
      split at applied
      next isClosed =>
        split at applied
        next index found =>
          cases applied
          obtain ⟨split, length⟩ := split_of_indexOf found
          obtain ⟨starts, ends⟩ := onLines index found
          refine ⟨content.take index, [], by rwa [length], .inr ⟨rfl, ?_, ?_⟩⟩
          · rw [chopNewline, if_pos isClosed]
            rwa [ends, List.drop_length, List.append_nil] at split
          · rw [replaceAt, ends, List.drop_length, List.append_nil]
        next => cases applied
      next => cases applied

/-- A hunk that puts another line in place of the second of three. -/
theorem replacesLines_of_applyMemoryPatchHunk_second :
    ∃ result, applyMemoryPatchHunk (text "a\nb\nc\n") ⟨[text "-b", text "+d"]⟩ [] = .ok result ∧
      ReplacesLines (text "a\nb\nc\n") ⟨[text "-b", text "+d"]⟩ result := by
  have onLines : FoundOnLines (text "a\nb\nc\n") ⟨[text "-b", text "+d"]⟩ :=
    .inr (by decide +kernel)
  exact ⟨text "a\nd\nc\n", by decide +kernel,
    @replacesLines_of_applyMemoryPatchHunk _ _ [] _ onLines (by decide +kernel)⟩

/-- The end of a longer line is taken for a line. -/
theorem not_replacesLines_insideLine :
    ¬ ∀ content hunk filePath result,
      applyMemoryPatchHunk content hunk filePath = .ok result →
        ReplacesLines content hunk result := by
  intro replaces
  obtain ⟨front, back, starts, ⟨split, -⟩ | ⟨-, split, -⟩⟩ :=
    replaces (text "xb\n") ⟨[text "-b", text "+d"]⟩ [] (text "xd\n") (by decide +kernel)
  · match front with
    | [] =>
      have heads : some (unit 'x') = some (unit 'b') := congrArg List.head? split
      exact absurd heads (by decide)
    | [_] => exact absurd starts (by rw [List.length_singleton, StartsLine]; decide)
    | _ :: _ :: rest =>
      have lengths : 3 = ((rest ++ text "b\n") ++ back).length + 2 := congrArg List.length split
      rw [List.length_append, List.length_append, show (text "b\n").length = 2 from rfl] at lengths
      omega
  · have lasts : some newline = (front ++ text "b").getLast? := congrArg List.getLast? split
    rw [List.getLast?_append] at lasts
    have same : some newline = some (unit 'b') := lasts
    exact absurd same (by decide)

end OpenAgent.Memory
