import OpenAgent.Library.TextDecoder
import OpenAgent.Hashline.Display

/-!
# Streamed lines

`hashline-chunk-formatter.ts` and `streamHashLinesFromUtf8` of
`hash-computation.ts`.  Partial lines are carried from chunk to chunk, and the
formatted lines are yielded in groups within two limits.
-/

namespace OpenAgent.Hashline

open Library

/-- The limits of a chunk. -/
structure HashlineStreamOptions where
  startLine : Nat := 1
  maxChunkLines : Nat := 200
  maxChunkBytes : Nat := 64 * 1024

/-- `Buffer.byteLength(value, "utf-8")`. -/
def byteLength (value : Text) : Nat :=
  (encodeText value).length

structure ChunkFormatter where
  outputLines : List Text
  outputBytes : Nat

namespace ChunkFormatter

/-- `createHashlineChunkFormatter`. -/
def initial : ChunkFormatter where
  outputLines := []
  outputBytes := 0

def flush (formatter : ChunkFormatter) : Option Text × ChunkFormatter :=
  if formatter.outputLines.isEmpty then (none, formatter)
  else (some (joinLines formatter.outputLines), initial)

/-- The chunk to yield; an empty string counts as none. -/
def yielded (flushed : Option Text) : List Text :=
  (flushed.filter (!·.isEmpty)).toList

/-- Flush when a condition holds. -/
def flushIf (condition : Bool) (formatter : ChunkFormatter) : List Text × ChunkFormatter :=
  if condition then
    let (flushed, formatter) := formatter.flush
    (yielded flushed, formatter)
  else ([], formatter)

variable (options : HashlineStreamOptions) (formatter : ChunkFormatter)

/-- The line does not fit into the group. -/
def isOverfull (lineBytes : Nat) : Bool :=
  let separatorBytes := if formatter.outputLines.isEmpty then 0 else 1
  !formatter.outputLines.isEmpty &&
    (options.maxChunkLines ≤ formatter.outputLines.length ||
      options.maxChunkBytes < formatter.outputBytes + separatorBytes + lineBytes)

/-- The group has reached a limit. -/
def isFull : Bool :=
  options.maxChunkLines ≤ formatter.outputLines.length ||
    options.maxChunkBytes ≤ formatter.outputBytes

def add (formattedLine : Text) : ChunkFormatter where
  outputLines := formatter.outputLines ++ [formattedLine]
  outputBytes := formatter.outputBytes +
    ((if formatter.outputLines.isEmpty then 0 else 1) + byteLength formattedLine)

def push (formattedLine : Text) : List Text × ChunkFormatter :=
  let (before, formatter) :=
    formatter.flushIf (formatter.isOverfull options (byteLength formattedLine))
  let formatter := formatter.add formattedLine
  let (behind, formatter) := formatter.flushIf (formatter.isFull options)
  (before ++ behind, formatter)

end ChunkFormatter

/-- The variables of `streamHashLinesFromUtf8`. -/
structure LineStream where
  lineNumber : Nat
  pending : Text
  sawAnyText : Bool
  endedWithNewline : Bool
  chunkFormatter : ChunkFormatter

namespace LineStream

def initial (options : HashlineStreamOptions) : LineStream where
  lineNumber := options.startLine
  pending := []
  sawAnyText := false
  endedWithNewline := false
  chunkFormatter := .initial

variable (runtime : HashRuntime) (options : HashlineStreamOptions)

def pushLine (stream : LineStream) (line : Text) : List Text × LineStream :=
  let formatted := formatHashLine runtime stream.lineNumber line
  let (chunks, chunkFormatter) := stream.chunkFormatter.push options formatted
  (chunks, { stream with lineNumber := stream.lineNumber + 1, chunkFormatter })

/-- The loop over the line breaks of the pending text; `line` is the text since
the last one. -/
def consumeLines (runtime : HashRuntime) (options : HashlineStreamOptions) :
    LineStream → Text → Text → List Text × LineStream
  | stream, line, [] =>
    ([], { stream with
      pending := line
      endedWithNewline := if line.isEmpty then stream.endedWithNewline else false })
  | stream, line, char :: rest =>
    if char = newline then
      let (chunks, stream) :=
        pushLine runtime options { stream with endedWithNewline := true } line
      let (later, stream) := consumeLines runtime options stream [] rest
      (chunks ++ later, stream)
    else consumeLines runtime options stream (line ++ [char]) rest

def consumeText (stream : LineStream) (value : Text) : List Text × LineStream :=
  if value.isEmpty then ([], stream)
  else
    consumeLines runtime options { stream with sawAnyText := true } [] (stream.pending ++ value)

/-- The loop over the decoded texts. -/
def consumeTexts (runtime : HashRuntime) (options : HashlineStreamOptions) :
    LineStream → List Text → List Text × LineStream
  | stream, [] => ([], stream)
  | stream, value :: values =>
    let (chunks, stream) := consumeText runtime options stream value
    let (later, stream) := consumeTexts runtime options stream values
    (chunks ++ later, stream)

/-- The last line and the last chunk. -/
def finish (stream : LineStream) : List Text :=
  let (chunks, stream) :=
    if stream.sawAnyText && (!stream.pending.isEmpty || stream.endedWithNewline) then
      pushLine runtime options stream stream.pending
    else ([], stream)
  chunks ++ ChunkFormatter.yielded stream.chunkFormatter.flush.1

end LineStream

/-- All that `streamHashLinesFromUtf8` yields. -/
def streamHashLinesFromUtf8 (runtime : HashRuntime) (options : HashlineStreamOptions)
    (source : List (List UInt8)) : List Text :=
  let texts := (TextDecoder.initial.decodeAll source).map textOfChars
  let (chunks, stream) :=
    LineStream.consumeTexts runtime options (LineStream.initial options) texts
  chunks ++ stream.finish runtime options

theorem byteLength_append_newline :
    byteLength (left ++ newline :: right) = byteLength left + 1 + byteLength right := by
  simp only [byteLength, encodeText_append_newline, List.length_append, List.length_cons]
  omega

theorem byteLength_joinLines_concat :
    byteLength (joinLines (lines ++ [line])) =
      byteLength (joinLines lines) + ((if lines.isEmpty then 0 else 1) + byteLength line) := by
  cases lines with
  | nil => simp [joinLines, byteLength, encodeText, charsOf]
  | cons first lines =>
    rw [joinLines_append (by simp) (by simp), byteLength_append_newline]
    simp [joinLines]
    omega

/-- A group of lines within the limits; a single line may be too long. -/
structure Fits (options : HashlineStreamOptions) (group : List Text) : Prop where
  nonempty : group ≠ []
  lines : group.length ≤ options.maxChunkLines
  bytes : byteLength (joinLines group) ≤ options.maxChunkBytes ∨ group.length = 1

/-- Lines of which whole groups have been yielded and the last ones are kept. -/
def Grouped (options : HashlineStreamOptions) (lines chunks kept : List Text) : Prop :=
  ∃ groups : List (List Text), chunks = groups.map joinLines ∧ groups.flatten ++ kept = lines ∧
    ∀ group ∈ groups, Fits options group

theorem Grouped.append (before : Grouped options lines chunks kept)
    (behind : Grouped options (kept ++ later) more left) :
    Grouped options (lines ++ later) (chunks ++ more) left := by
  obtain ⟨groups, isChunks, isLines, fits⟩ := before
  obtain ⟨others, isMore, isLater, otherFits⟩ := behind
  refine ⟨groups ++ others, ?_, ?_, ?_⟩
  · rw [isChunks, isMore, List.map_append]
  · rw [List.flatten_append, List.append_assoc, isLater, ← isLines, List.append_assoc]
  · intro group member
    rcases List.mem_append.mp member with old | new
    · exact fits group old
    · exact otherFits group new

namespace ChunkFormatter

/-- The formatter counts the bytes of its lines and has reached no limit. -/
structure Sound (options : HashlineStreamOptions) (formatter : ChunkFormatter) : Prop where
  counted : formatter.outputBytes = byteLength (joinLines formatter.outputLines)
  lines : formatter.outputLines.length < options.maxChunkLines
  bytes : formatter.outputBytes < options.maxChunkBytes
  nonempty : ∀ line ∈ formatter.outputLines, line ≠ []

section Push

variable {formatter : ChunkFormatter}

theorem sound_initial (someLines : 1 ≤ options.maxChunkLines)
    (someBytes : 1 ≤ options.maxChunkBytes) : initial.Sound options where
  counted := rfl
  lines := someLines
  bytes := someBytes
  nonempty := by simp [initial]

@[simp] theorem flushIf_false : formatter.flushIf false = ([], formatter) := rfl

theorem flushIf_true (someLines : formatter.outputLines ≠ [])
    (nonempty : ∀ line ∈ formatter.outputLines, line ≠ []) :
    formatter.flushIf true = ([joinLines formatter.outputLines], initial) := by
  obtain ⟨first, rest, isLines⟩ := List.exists_cons_of_ne_nil someLines
  have someFirst : first ≠ [] := nonempty first (by simp [isLines])
  have notBlank : joinLines formatter.outputLines ≠ [] := by
    rw [isLines]
    cases rest <;> simp [joinLines, someFirst]
  simp [flushIf, flush, someLines, yielded, notBlank]

theorem grouped_single (fits : Fits options group) : Grouped options group [joinLines group] [] :=
  ⟨[group], rfl, by simp, by simpa using fits⟩

/-- A line that fits into the group is added to it, and a full group is
yielded. -/
theorem add_spec (sound : formatter.Sound options) (someText : line ≠ [])
    (fits : formatter.isOverfull options (byteLength line) = false) :
    let added := (formatter.add line).flushIf ((formatter.add line).isFull options)
    Grouped options (formatter.outputLines ++ [line]) added.1 added.2.outputLines ∧
      added.2.Sound options := by
  have counted : (formatter.add line).outputBytes =
      byteLength (joinLines (formatter.outputLines ++ [line])) := by
    rw [byteLength_joinLines_concat, ← sound.counted]
    rfl
  have nonempty : ∀ other ∈ (formatter.add line).outputLines, other ≠ [] :=
    forall_mem_concat sound.nonempty someText
  have fewLines := sound.lines
  have fewBytes := sound.bytes
  cases full : (formatter.add line).isFull options with
  | false =>
    simp only [isFull, Bool.or_eq_false_iff, decide_eq_false_iff_not, not_le] at full
    exact ⟨⟨[], rfl, rfl, by simp⟩, counted, full.1, full.2, nonempty⟩
  | true =>
    rw [flushIf_true (by simp [add]) nonempty]
    refine ⟨grouped_single ⟨by simp, ?_, ?_⟩, sound_initial (by omega) (by omega)⟩
    · rw [List.length_append]
      exact fewLines
    · by_cases alone : formatter.outputLines = []
      · simp [alone]
      · have notEmpty : formatter.outputLines.isEmpty = false := by simp [alone]
        simp only [isOverfull, notEmpty, Bool.not_false, Bool.true_and, Bool.or_eq_false_iff,
          decide_eq_false_iff_not, Bool.false_eq_true, if_false] at fits
        rw [← counted]
        simp only [add, notEmpty, Bool.false_eq_true, if_false]
        omega

/-- What one line adds: whole groups are yielded, and the rest is kept. -/
theorem push_spec (sound : formatter.Sound options) (someText : line ≠ []) :
    Grouped options (formatter.outputLines ++ [line]) (formatter.push options line).1
        (formatter.push options line).2.outputLines ∧
      (formatter.push options line).2.Sound options := by
  have fewLines := sound.lines
  have fewBytes := sound.bytes
  cases overfull : formatter.isOverfull options (byteLength line) with
  | false =>
    simp only [push, overfull]
    exact add_spec sound someText overfull
  | true =>
    have someOutput : formatter.outputLines ≠ [] := by
      intro isEmpty
      simp [isOverfull, isEmpty] at overfull
    have fits : Fits options formatter.outputLines := by
      refine ⟨someOutput, Nat.le_of_lt fewLines, Or.inl ?_⟩
      rw [← sound.counted]
      exact Nat.le_of_lt fewBytes
    have empty : initial.Sound options := sound_initial (by omega) (by omega)
    obtain ⟨grouped, soundAfter⟩ := add_spec empty someText rfl
    simp only [push, overfull, flushIf_true someOutput sound.nonempty]
    exact ⟨(grouped_single fits).append grouped, soundAfter⟩

end Push

end ChunkFormatter

namespace LineStream

section Run

/-- The stream after some lines, with all that it has yielded. -/
structure Pushed (runtime : HashRuntime) (options : HashlineStreamOptions)
    (lines chunks : List Text) (stream : LineStream) : Prop where
  grouped : Grouped options (hashLinesFrom runtime options.startLine lines) chunks
    stream.chunkFormatter.outputLines
  number : stream.lineNumber = options.startLine + lines.length
  sound : stream.chunkFormatter.Sound options
  plain : ∀ line ∈ lines, newline ∉ line

theorem Pushed.pushLine (pushed : Pushed runtime options lines chunks stream)
    (plain : newline ∉ line) :
    Pushed runtime options (lines ++ [line]) (chunks ++ (pushLine runtime options stream line).1)
      (LineStream.pushLine runtime options stream line).2 := by
  obtain ⟨grouped, sound⟩ := ChunkFormatter.push_spec pushed.sound
    formatHashLine_ne_nil
  constructor
  · rw [hashLinesFrom_append, ← pushed.number]
    exact pushed.grouped.append grouped
  · rw [List.length_append, ← Nat.add_assoc, ← pushed.number]
    rfl
  · exact sound
  · exact forall_mem_concat pushed.plain plain

/-- The stream after a text: the last line of the text is pending. -/
structure Consumed (runtime : HashRuntime) (options : HashlineStreamOptions) (value : Text)
    (chunks : List Text) (stream : LineStream) : Prop where
  lines : ∃ lines, Pushed runtime options lines chunks stream ∧
    joinLines (lines ++ [stream.pending]) = value
  plain : newline ∉ stream.pending
  saw : stream.sawAnyText = !value.isEmpty
  ended : value ≠ [] → stream.pending = [] → stream.endedWithNewline = true

theorem consumed_initial (someLines : 1 ≤ options.maxChunkLines)
    (someBytes : 1 ≤ options.maxChunkBytes) : Consumed runtime options [] [] (initial options) where
  lines := by
    refine ⟨[], ⟨⟨[], rfl, rfl, by simp⟩, rfl, ?_, by simp⟩, rfl⟩
    exact ChunkFormatter.sound_initial someLines someBytes
  plain := by simp [initial]
  saw := rfl
  ended := fun someText => absurd rfl someText

/-- The loop over the line breaks, from any text since the last one. -/
theorem consumeLines_spec (pushed : Pushed runtime options lines chunks stream)
    (plain : newline ∉ line) (isValue : joinLines (lines ++ [line]) ++ rest = value)
    (saw : stream.sawAnyText = !value.isEmpty)
    (started : rest ≠ [] ∨ line ≠ [] ∨ stream.endedWithNewline = true) :
    Consumed runtime options value (chunks ++ (consumeLines runtime options stream line rest).1)
      (consumeLines runtime options stream line rest).2 := by
  induction rest generalizing lines chunks stream line with
  | nil =>
    rw [List.append_nil] at isValue
    rw [consumeLines, List.append_nil]
    refine ⟨⟨lines, ⟨pushed.grouped, pushed.number, pushed.sound, pushed.plain⟩, isValue⟩,
      plain, saw, ?_⟩
    intro _ isEmpty
    simp only [ne_eq] at started isEmpty
    simp only [isEmpty, not_true_eq_false, false_or] at started
    simp [isEmpty, started]
  | cons char rest ih =>
    rw [consumeLines]
    split
    next isNewline =>
      have restarted : Pushed runtime options lines chunks
          { stream with endedWithNewline := true } :=
        ⟨pushed.grouped, pushed.number, pushed.sound, pushed.plain⟩
      have sameValue : joinLines (lines ++ [line] ++ [[]]) ++ rest = value := by
        rw [joinLines_append (by simp) (by simp), ← isValue, isNewline]
        simp [joinLines]
      have next := ih (restarted.pushLine plain) List.not_mem_nil sameValue
        saw (Or.inr (Or.inr rfl))
      rwa [List.append_assoc] at next
    next other =>
      have plainNext : newline ∉ line ++ [char] := by
        rw [List.mem_append, List.mem_singleton, not_or]
        exact ⟨plain, Ne.symm other⟩
      have sameValue : joinLines (lines ++ [line ++ [char]]) ++ rest = value := by
        rw [joinLines_concat_append, ← isValue, List.append_assoc]
        rfl
      exact ih pushed plainNext sameValue saw
        (Or.inr (Or.inl (List.append_ne_nil_of_right_ne_nil _ (List.cons_ne_nil _ _))))

section

variable (consumed : Consumed runtime options value chunks stream)
include consumed

theorem Consumed.consumeText (piece : Text) :
    Consumed runtime options (value ++ piece)
      (chunks ++ (consumeText runtime options stream piece).1)
      (LineStream.consumeText runtime options stream piece).2 := by
  unfold LineStream.consumeText
  split
  next isEmpty =>
    rw [List.isEmpty_iff.mp isEmpty, List.append_nil, List.append_nil]
    exact consumed
  next someText =>
    have notEmpty : piece ≠ [] := fun equal => someText (by simp [equal])
    obtain ⟨lines, pushed, isValue⟩ := consumed.lines
    have seen : Pushed runtime options lines chunks { stream with sawAnyText := true } :=
      ⟨pushed.grouped, pushed.number, pushed.sound, pushed.plain⟩
    apply consumeLines_spec seen List.not_mem_nil
    · have pendingLine : joinLines (lines ++ [[] ++ stream.pending]) =
          joinLines (lines ++ [[]]) ++ stream.pending := joinLines_concat_append lines [] _
      rw [List.nil_append] at pendingLine
      rw [← List.append_assoc, ← pendingLine, isValue]
    · simp [notEmpty]
    · exact Or.inl (List.append_ne_nil_of_right_ne_nil _ notEmpty)

theorem Consumed.consumeTexts (pieces : List Text) :
    Consumed runtime options (value ++ pieces.flatten)
      (chunks ++ (consumeTexts runtime options stream pieces).1)
      (LineStream.consumeTexts runtime options stream pieces).2 := by
  induction pieces generalizing value chunks stream with
  | nil =>
    rw [List.flatten_nil, List.append_nil, LineStream.consumeTexts, List.append_nil]
    exact consumed
  | cons piece pieces ih =>
    have next := ih (consumed.consumeText piece)
    rw [List.append_assoc, List.append_assoc] at next
    exact next

end

/-- What is kept at the end is yielded as the last group. -/
theorem Pushed.finish (pushed : Pushed runtime options lines chunks stream) :
    Grouped options (hashLinesFrom runtime options.startLine lines)
      (chunks ++ ChunkFormatter.yielded stream.chunkFormatter.flush.1) [] := by
  by_cases isEmpty : stream.chunkFormatter.outputLines = []
  · have nothing : ChunkFormatter.yielded stream.chunkFormatter.flush.1 = [] := by
      simp [ChunkFormatter.flush, isEmpty, ChunkFormatter.yielded]
    have grouped := pushed.grouped
    rw [isEmpty] at grouped
    rwa [nothing, List.append_nil]
  · have flushed := ChunkFormatter.flushIf_true isEmpty pushed.sound.nonempty
    have yields : ChunkFormatter.yielded stream.chunkFormatter.flush.1 =
        [joinLines stream.chunkFormatter.outputLines] := congrArg Prod.fst flushed
    have fits : Fits options stream.chunkFormatter.outputLines := by
      refine ⟨isEmpty, Nat.le_of_lt pushed.sound.lines, Or.inl ?_⟩
      rw [← pushed.sound.counted]
      exact Nat.le_of_lt pushed.sound.bytes
    rw [yields, ← List.append_nil (hashLinesFrom _ _ _)]
    apply pushed.grouped.append
    rw [List.append_nil]
    exact ChunkFormatter.grouped_single fits

/-- The formatted lines of a text; an empty text has none. -/
def textLines (value : Text) : List Text :=
  if value.isEmpty then [] else splitLines value

theorem Consumed.finish (consumed : Consumed runtime options value chunks stream) :
    Grouped options (hashLinesFrom runtime options.startLine (textLines value))
      (chunks ++ stream.finish runtime options) [] := by
  obtain ⟨lines, pushed, isValue⟩ := consumed.lines
  by_cases isEmpty : value = []
  · have noLines : lines = [] := by
      by_contra someLines
      rw [joinLines_append someLines (by simp), isEmpty] at isValue
      simp at isValue
    have notSeen : stream.sawAnyText = false := by simp [consumed.saw, isEmpty]
    subst noLines
    simp only [LineStream.finish, notSeen, isEmpty]
    exact pushed.finish
  · have someLine : (!stream.pending.isEmpty || stream.endedWithNewline) = true := by
      by_cases noPending : stream.pending = []
      · simp [consumed.ended isEmpty noPending]
      · simp [noPending]
    have plain : ∀ line ∈ lines ++ [stream.pending], newline ∉ line :=
      (pushed.pushLine consumed.plain).plain
    have split : textLines value = lines ++ [stream.pending] := by
      rw [textLines, if_neg (by simp [isEmpty]), ← isValue]
      exact splitLines_joinLines_of_plain (by simp) plain
    have seen : stream.sawAnyText = true := by simp [consumed.saw, isEmpty]
    simp only [LineStream.finish, seen, someLine, split]
    rw [← List.append_assoc]
    exact (pushed.pushLine consumed.plain).finish

end Run

end LineStream

/-- The yielded chunks are the formatted lines of the text in groups. -/
theorem streamHashLinesFromUtf8_grouped (options : HashlineStreamOptions)
    (someLines : 1 ≤ options.maxChunkLines) (someBytes : 1 ≤ options.maxChunkBytes)
    (cut : source.flatten = encodeUtf8 chars) (noMark : chars.head? ≠ some byteOrderMark) :
    Grouped options
      (hashLinesFrom runtime options.startLine (LineStream.textLines (textOfChars chars)))
      (streamHashLinesFromUtf8 runtime options source) [] := by
  have start : LineStream.Consumed runtime options [] [] (LineStream.initial options) :=
    LineStream.consumed_initial someLines someBytes
  have finished := (start.consumeTexts
    ((TextDecoder.initial.decodeAll source).map textOfChars)).finish
  rw [← textOfChars_flatten, TextDecoder.decodeAll_encodeUtf8 cut noMark] at finished
  exact finished

/-- Streaming gives the formatted text, however its bytes are cut and whatever
the limits are, and its chunks keep the limits. -/
theorem streamHashLinesFromUtf8_eq {source : List (List UInt8)} {chars : List Char}
    (runtime : HashRuntime) (options : HashlineStreamOptions)
    (someLines : 1 ≤ options.maxChunkLines) (someBytes : 1 ≤ options.maxChunkBytes)
    (cut : source.flatten = encodeUtf8 chars) (noMark : chars.head? ≠ some byteOrderMark) :
    joinLines (streamHashLinesFromUtf8 runtime options source) =
        formatHashLinesFrom runtime options.startLine (textOfChars chars) ∧
      ∀ chunk ∈ streamHashLinesFromUtf8 runtime options source,
        (splitLines chunk).length ≤ options.maxChunkLines ∧
          (byteLength chunk ≤ options.maxChunkBytes ∨ (splitLines chunk).length = 1) := by
  obtain ⟨groups, isChunks, isLines, fits⟩ :=
    streamHashLinesFromUtf8_grouped options someLines someBytes cut noMark
  rw [List.append_nil] at isLines
  rw [isChunks]
  constructor
  · rw [joinLines_flatten fun group member => (fits group member).nonempty, isLines,
      formatHashLinesFrom, LineStream.textLines]
    split <;> rfl
  · intro chunk member
    obtain ⟨group, isGroup, rfl⟩ := List.mem_map.mp member
    have plain : ∀ line ∈ group, newline ∉ line := by
      intro line isLine
      have shown : line ∈ groups.flatten := List.mem_flatten.mpr ⟨group, isGroup, isLine⟩
      rw [isLines] at shown
      refine newline_notMem_hashLinesFrom ?_ line shown
      intro content isContent
      unfold LineStream.textLines at isContent
      split at isContent
      · exact absurd isContent List.not_mem_nil
      · exact not_mem_newline_of_splitLines isContent
    rw [splitLines_joinLines_of_plain (fits group isGroup).nonempty plain]
    exact ⟨(fits group isGroup).lines, (fits group isGroup).bytes⟩

/-- A character of two bytes and a line break, cut inside the character. -/
theorem streamHashLinesFromUtf8_eq_cut :
    ∃ chunks, streamHashLinesFromUtf8 ⟨none, fun _ => true⟩ { maxChunkLines := 1 }
        [[0xC3], [], [0xA9, 0x0A]] = chunks ∧
      chunks.length = 2 ∧
      joinLines chunks =
        formatHashLinesFrom ⟨none, fun _ => true⟩ 1 (textOfChars ['é', '\n']) := by
  refine ⟨_, rfl, by decide +kernel, ?_⟩
  exact (streamHashLinesFromUtf8_eq _ { maxChunkLines := 1 } (by decide) (by decide)
    (by decide) (by decide)).1

end OpenAgent.Hashline
