import OpenAgent.Library.Text

/-!
# The checklist of a plan

Three loops go over the lines of a plan and pass over fenced blocks.  Each has a fence of its
own, moved by one function; what a loop does with the other lines is its parameter.
-/

namespace OpenAgent.Boulder

open Library

/-- The section that a line is in. -/
inductive ChecklistSection
  | todo
  | finalWave
  | other
  deriving DecidableEq

/-- A top-level task of the plan. -/
structure TopLevelTaskRef where
  key : Text
  part : ChecklistSection
  label : Text
  title : Text

structure ParsedCheckbox where
  checked : Bool
  label : Text

structure PlanChecklist where
  completed : Nat
  remaining : Nat
  total : Nat
  nextTaskLabel : Option Text

structure MarkdownFence where
  marker : CodeUnit
  length : Nat
  deriving DecidableEq

/-- The class `[ \t]`. -/
def isBlank (char : CodeUnit) : Bool :=
  char == 0x20 || char == 0x9

/-- What `.+` matches to the end of a line. -/
def isTitle (value : Text) : Bool :=
  value ≠ [] && value.all (!isLineTerminator ·)

/-- A letter in either case. -/
def isLetter (letter char : CodeUnit) : Bool :=
  char == letter || char == letter + 32

/-- `toLowerCase` on letters and digits. -/
def lowerAscii (value : Text) : Text :=
  value.map fun char => if unit 'A' ≤ char ∧ char ≤ unit 'Z' then char + 32 else char

section

variable (line : Text)

/-- The blanks, the run of a marker and the rest of a line that may be a fence. -/
def fenceRun : Option (MarkdownFence × Text) :=
  let indent := line.takeWhile isBlank
  match line.dropWhile isBlank with
  | [] => none
  | marker :: rest =>
    let run := (marker :: rest).takeWhile (· == marker)
    if indent.length ≤ 3 ∧ (marker = unit '\x60' ∨ marker = unit '~') ∧ 3 ≤ run.length then
      some (⟨marker, run.length⟩, (marker :: rest).dropWhile (· == marker))
    else none

def parseOpeningFence : Option MarkdownFence :=
  match fenceRun line with
  | none => none
  | some (fence, info) =>
    if info.any isLineTerminator || fence.marker = unit '\x60' && info.contains (unit '\x60') then none
    else some fence

def isClosingFence (fence : MarkdownFence) : Bool :=
  match fenceRun line with
  | none => false
  | some (run, rest) => rest.all isBlank && run.marker = fence.marker && fence.length ≤ run.length

/-- The end of a heading: blanks, and `#`s behind blanks. -/
def closesHeading (rest : Text) : Bool :=
  let tail := rest.dropWhile isBlank
  tail = [] || (rest.head?.any isBlank && tail.head? = some (unit '#') &&
    (tail.dropWhile (· == unit '#')).all isBlank)

/-- `^##[ \t]+NAME(?:[ \t]+#+)?[ \t]*$` in any case, for a name in lower case. -/
def isHeading (name line : Text) : Bool :=
  let rest := line.drop 2
  let heading := rest.dropWhile isBlank
  line.take 2 = text "##" && rest.head?.any isBlank &&
    lowerAscii (heading.take name.length) = name && closesHeading (heading.drop name.length)

def parseStructuredSectionHeading : ChecklistSection :=
  if isHeading (text "todos") line then .todo
  else if isHeading (text "final verification wave") line then .finalWave
  else .other

/-- `/^#{1,2}(?:[ \t]+|$)/`. -/
def isSectionBoundary : Bool :=
  let marks := line.takeWhile (· == unit '#')
  (marks.length = 1 || marks.length = 2) && (line.drop marks.length).head?.all isBlank

section

variable (part : ChecklistSection)

/-- The groups of `^([1-9]\d*)\. (.+)$`, with an `F` in front in the final wave. -/
def matchLabel (label : Text) : Option (Text × Text) :=
  let lead := label.take (if part = .finalWave then 1 else 0)
  let rest := label.drop (if part = .finalWave then 1 else 0)
  let number := rest.takeWhile isDigit
  let behind := rest.dropWhile isDigit
  if (part = .finalWave → lead.any (isLetter (unit 'F')) = true) ∧
      number.head?.any (· ≠ unit '0') ∧ behind.take 2 = text ". " ∧ isTitle (behind.drop 2) then
    some (lead ++ number, behind.drop 2)
  else none

def buildTaskRef (label : Text) : Option TopLevelTaskRef :=
  (matchLabel part label).map fun found =>
    { key := (if part = .todo then text "todo:" else text "final-wave:") ++ lowerAscii found.1
      part := part
      label := found.1
      title := found.2 }

/-- The groups of the pattern of a section. -/
def matchCheckbox (line : Text) : Option (CodeUnit × Text) :=
  match line.drop 3 with
  | [] => none
  | marker :: rest =>
    if line.take 3 = text "- [" ∧ (marker = unit ' ' ∨ isLetter (unit 'X') marker) ∧
        rest.take 2 = text "] " ∧ (matchLabel part (rest.drop 2)).isSome then
      some (marker, rest.drop 2)
    else none

def parseStructuredTopLevelCheckbox : Option (ParsedCheckbox × TopLevelTaskRef) :=
  match matchCheckbox part line with
  | none => none
  | some (marker, label) =>
    (buildTaskRef part label).map fun task => (⟨isLetter (unit 'X') marker, label⟩, task)

end

/-- `(.+)` behind `[ \t]+`, which leaves it a blank when nothing else follows. -/
def simpleLabel (rest : Text) : Option Text :=
  let blanks := rest.takeWhile isBlank
  let label := rest.dropWhile isBlank
  if blanks = [] then none
  else if label = [] then if blanks.length = 1 then none else some (blanks.drop (blanks.length - 1))
  else if isTitle label then some label
  else none

def parseSimpleTopLevelCheckbox : Option ParsedCheckbox :=
  match line with
  | [] => none
  | bullet :: rest =>
    match rest.dropWhile isBlank with
    | [] => none
    | bracket :: rest =>
      let inside := rest.dropWhile isBlank
      let checked := inside.head?.any (isLetter (unit 'X'))
      let behind := (if checked then inside.tail else inside).dropWhile isBlank
      if (bullet = unit '-' ∨ bullet = unit '*') ∧ bracket = unit '[' ∧
          behind.head? = some (unit ']') then
        (simpleLabel behind.tail).map fun label => ⟨checked, label⟩
      else none

end

def fenceAfter (fence : Option MarkdownFence) (line : Text) : Option MarkdownFence :=
  match fence with
  | some fence => if isClosingFence line fence then none else some fence
  | none => parseOpeningFence line

section

variable (look : σ → Text → σ)

/-- One pass of a loop: it looks at a line outside of a fence that does not open one. -/
def passLine (state : Option MarkdownFence × σ) (line : Text) : Option MarkdownFence × σ :=
  (fenceAfter state.1 line,
    if state.1 = none ∧ parseOpeningFence line = none then look state.2 line else state.2)

def scanLines (initial : σ) (lines : List Text) : σ :=
  (lines.foldl (passLine look) (none, initial)).2

/-- The loop returns at the first heading. -/
def hasStructuredSection (lines : List Text) : Bool :=
  scanLines (fun found line => found || parseStructuredSectionHeading line ≠ .other) false lines

/-- The variables of the counting loops. -/
structure CheckboxCount where
  remaining : Nat
  total : Nat
  nextTaskLabel : Option Text
  nextTask : Option TopLevelTaskRef
  part : ChecklistSection

section

variable (count : CheckboxCount)

def countCheckbox (checkbox : ParsedCheckbox) (task : Option TopLevelTaskRef) : CheckboxCount :=
  if checkbox.checked then { count with total := count.total + 1 }
  else
    { count with
      total := count.total + 1
      remaining := count.remaining + 1
      nextTaskLabel := count.nextTaskLabel <|> some checkbox.label
      nextTask := if count.nextTaskLabel = none then task else count.nextTask }

def structuredLine (line : Text) : CheckboxCount :=
  if isSectionBoundary line then
    { count with part := parseStructuredSectionHeading line }
  else if count.part = .other then count
  else
    match parseStructuredTopLevelCheckbox line count.part with
    | none => count
    | some (checkbox, task) => countCheckbox count checkbox (some task)

def simpleLine (line : Text) : CheckboxCount :=
  match parseSimpleTopLevelCheckbox line with
  | none => count
  | some checkbox => countCheckbox count checkbox none

def noCheckbox : CheckboxCount :=
  ⟨0, 0, none, none, .other⟩

/-- What a counting loop returns of its variables. -/
def CheckboxCount.checklist : PlanChecklist where
  completed := count.total - count.remaining
  remaining := count.remaining
  total := count.total
  nextTaskLabel := count.nextTaskLabel

end

def parseStructuredPlan (lines : List Text) : PlanChecklist × Option TopLevelTaskRef :=
  let count := scanLines structuredLine noCheckbox lines
  (count.checklist, count.nextTask)

def parseSimpleChecklist (lines : List Text) : PlanChecklist :=
  (scanLines simpleLine noCheckbox lines).checklist

def parsePlanChecklist (markdown : Text) : PlanChecklist :=
  let lines := splitBreaks markdown
  if hasStructuredSection lines then (parseStructuredPlan lines).1 else parseSimpleChecklist lines

def parseCurrentTopLevelTask (markdown : Text) : Option TopLevelTaskRef :=
  let lines := splitBreaks markdown
  if hasStructuredSection lines then (parseStructuredPlan lines).2 else none

/-- A closed fenced block stands in the second text, between two lines of the first one and
outside of its fences. -/
def InsertsFencedBlock (markdown inserted : Text) : Prop :=
  ∃ front opening content closing back fence,
    splitBreaks markdown = front ++ back ∧ front.foldl fenceAfter none = none ∧
      parseOpeningFence opening = some fence ∧
      (∀ line ∈ content, isClosingFence line fence = false) ∧ isClosingFence closing fence = true ∧
      splitBreaks inserted = front ++ (opening :: content ++ [closing]) ++ back

/-- The numbers of a checklist fit each other, and the next label is that of the current task. -/
structure Counted (markdown : Text) : Prop where
  total : (parsePlanChecklist markdown).remaining + (parsePlanChecklist markdown).completed =
    (parsePlanChecklist markdown).total
  next : (parsePlanChecklist markdown).nextTaskLabel = none ↔
    (parsePlanChecklist markdown).remaining = 0
  task : hasStructuredSection (splitBreaks markdown) = true →
    (parsePlanChecklist markdown).nextTaskLabel =
      (parseCurrentTopLevelTask markdown).map fun task => task.label ++ text ". " ++ task.title

theorem passLine_fst (state : Option MarkdownFence × σ) (lines : List Text) :
    (lines.foldl (passLine look) state).1 = lines.foldl fenceAfter state.1 := by
  induction lines generalizing state with
  | nil => rfl
  | cons line lines ih => exact ih _

/-- The lines inside of a fence leave the variables of a loop alone. -/
theorem foldl_passLine_inside {content : List Text} (look : σ → Text → σ)
    (inside : ∀ line ∈ content, isClosingFence line fence = false) :
    content.foldl (passLine look) (some fence, state) = (some fence, state) := by
  induction content with
  | nil => rfl
  | cons line content ih =>
    obtain ⟨stays, later⟩ := List.forall_mem_cons.mp inside
    rw [List.foldl_cons, passLine, fenceAfter]
    simp [stays, ih later]

/-- No loop sees a fenced block. -/
theorem scanLines_insert (outside : front.foldl fenceAfter none = none)
    (opens : parseOpeningFence opening = some fence)
    (inside : ∀ line ∈ content, isClosingFence line fence = false)
    (closes : isClosingFence closing fence = true) :
    scanLines look initial (front ++ (opening :: content ++ [closing]) ++ back) =
      scanLines look initial (front ++ back) := by
  have isOutside : (front.foldl (passLine look) (none, initial)).1 = none := by
    rw [passLine_fst, outside]
  obtain ⟨block, isBlock⟩ : ∃ block, block = opening :: content ++ [closing] := ⟨_, rfl⟩
  have silent : ∀ state, block.foldl (passLine look) (none, state) = (none, state) := by
    intro state
    have begins : passLine look (none, state) opening = (some fence, state) := by
      simp [passLine, fenceAfter, opens]
    rw [isBlock, List.cons_append, List.foldl_cons, begins, List.foldl_append,
      foldl_passLine_inside look inside]
    simp [passLine, fenceAfter, closes]
  rw [← isBlock, scanLines, scanLines, List.foldl_append, List.foldl_append, List.foldl_append,
    ← Prod.mk.eta (p := front.foldl (passLine look) (none, initial)), isOutside, silent]

end

theorem scanLines_invariant {Holds : σ → Prop}
    (looks : ∀ state line, Holds state → Holds (look state line)) (initially : Holds initial)
    (lines : List Text) : Holds (scanLines look initial lines) := by
  have keeps : ∀ state : Option MarkdownFence × σ, Holds state.2 →
      Holds (lines.foldl (passLine look) state).2 := by
    induction lines with
    | nil => exact fun _ holds => holds
    | cons line lines ih =>
      intro state holds
      refine ih _ ?_
      unfold passLine
      split
      · exact looks state.2 line holds
      · exact holds
  exact keeps (none, initial) initially

/-- What the counting loops keep. -/
structure CheckboxCount.Sound (count : CheckboxCount) : Prop where
  counts : count.remaining ≤ count.total
  next : count.nextTaskLabel = none ↔ count.remaining = 0

theorem countCheckbox_sound (sound : count.Sound) : (countCheckbox count checkbox task).Sound := by
  unfold countCheckbox
  split
  · exact ⟨Nat.le_succ_of_le sound.counts, sound.next⟩
  · refine ⟨Nat.succ_le_succ sound.counts, ?_⟩
    cases count.nextTaskLabel <;> simp

section

variable (count : CheckboxCount)

theorem simpleLine_sound (line : Text) (sound : count.Sound) : (simpleLine count line).Sound := by
  unfold simpleLine
  split
  · exact sound
  · exact countCheckbox_sound sound

/-- The next task of the structured loop has the next label. -/
def CheckboxCount.Named : Prop :=
  count.nextTaskLabel = count.nextTask.map fun task => task.label ++ text ". " ++ task.title

theorem matchLabel_eq (matched : matchLabel part label = some found) :
    label = found.1 ++ text ". " ++ found.2 := by
  unfold matchLabel at matched
  extract_lets lead rest number behind at matched
  split at matched
  · next holds =>
    cases matched
    calc label = lead ++ (number ++ behind) := by
          rw [List.takeWhile_append_dropWhile, List.take_append_drop]
      _ = lead ++ (number ++ (text ". " ++ behind.drop 2)) := by
          rw [← holds.2.2.1, List.take_append_drop]
      _ = lead ++ number ++ text ". " ++ behind.drop 2 := by simp only [List.append_assoc]
  · cases matched

theorem parseStructuredTopLevelCheckbox_label
    (parsed : parseStructuredTopLevelCheckbox line part = some (checkbox, task)) :
    checkbox.label = task.label ++ text ". " ++ task.title := by
  unfold parseStructuredTopLevelCheckbox at parsed
  split at parsed
  · cases parsed
  · next marker label _ =>
    simp only [buildTaskRef, Option.map_map, Option.map_eq_some_iff] at parsed
    obtain ⟨found, matched, rfl, rfl⟩ := parsed
    exact matchLabel_eq matched

theorem structuredLine_keeps (line : Text) (keeps : count.Sound ∧ count.Named) :
    (structuredLine count line).Sound ∧ (structuredLine count line).Named := by
  unfold structuredLine
  split
  · exact ⟨⟨keeps.1.counts, keeps.1.next⟩, keeps.2⟩
  · split
    · exact keeps
    · split
      · exact keeps
      · next checkbox task parsed =>
        refine ⟨countCheckbox_sound keeps.1, ?_⟩
        have isNamed := keeps.2
        unfold CheckboxCount.Named countCheckbox at *
        split
        · exact isNamed
        · cases isLabel : count.nextTaskLabel with
          | none => simp [parseStructuredTopLevelCheckbox_label parsed]
          | some label => simpa [isLabel] using isNamed

end

theorem counted (markdown : Text) : Counted markdown := by
  have structured : (scanLines structuredLine noCheckbox (splitBreaks markdown)).Sound ∧
      (scanLines structuredLine noCheckbox (splitBreaks markdown)).Named :=
    scanLines_invariant structuredLine_keeps ⟨⟨Nat.le_refl 0, by simp [noCheckbox]⟩,
      show noCheckbox.Named from rfl⟩ _
  have simple : (scanLines simpleLine noCheckbox (splitBreaks markdown)).Sound :=
    scanLines_invariant simpleLine_sound ⟨Nat.le_refl 0, by simp [noCheckbox]⟩ _
  have sound : ∃ count : CheckboxCount, count.Sound ∧
      parsePlanChecklist markdown = count.checklist := by
    unfold parsePlanChecklist
    dsimp only
    split
    · exact ⟨_, structured.1, rfl⟩
    · exact ⟨_, simple, rfl⟩
  obtain ⟨count, isSound, isCount⟩ := sound
  refine ⟨?_, ?_, fun isStructured => ?_⟩
  · rw [isCount]
    exact Nat.add_sub_cancel' isSound.counts
  · rw [isCount]
    exact isSound.next
  · rw [parsePlanChecklist, parseCurrentTopLevelTask, if_pos isStructured, if_pos isStructured]
    exact structured.2

/-- Fenced blocks change nothing, and the numbers of every checklist fit. -/
theorem planChecklist_exact (markdown : Text) :
    (∀ inserted, InsertsFencedBlock markdown inserted →
      parsePlanChecklist inserted = parsePlanChecklist markdown ∧
        parseCurrentTopLevelTask inserted = parseCurrentTopLevelTask markdown) ∧
      Counted markdown := by
  refine ⟨?_, counted markdown⟩
  rintro inserted ⟨front, opening, content, closing, back, fence, isMarkdown, outside, opens,
    inside, closes, isInserted⟩
  have same : ∀ {σ : Type} (look : σ → Text → σ) (initial : σ),
      scanLines look initial (splitBreaks inserted) =
        scanLines look initial (splitBreaks markdown) := by
    intro σ look initial
    rw [isInserted, isMarkdown]
    exact scanLines_insert look outside opens inside closes
  have structured : hasStructuredSection (splitBreaks inserted) =
      hasStructuredSection (splitBreaks markdown) := same _ _
  have plan : parseStructuredPlan (splitBreaks inserted) =
      parseStructuredPlan (splitBreaks markdown) := by
    rw [parseStructuredPlan, same, parseStructuredPlan]
  have simple : parseSimpleChecklist (splitBreaks inserted) =
      parseSimpleChecklist (splitBreaks markdown) := by
    rw [parseSimpleChecklist, same, parseSimpleChecklist]
  constructor
  · rw [parsePlanChecklist, structured, plan, simple, parsePlanChecklist]
  · rw [parseCurrentTopLevelTask, structured, plan, parseCurrentTopLevelTask]

/-- A block with an unchecked item is put between two items. -/
theorem planChecklist_exact_fenced :
    parsePlanChecklist (text "- [x] A\n```md\n- [ ] B\n```\n- [ ] C") =
      parsePlanChecklist (text "- [x] A\n- [ ] C") := by
  have inserts : InsertsFencedBlock (text "- [x] A\n- [ ] C")
      (text "- [x] A\n```md\n- [ ] B\n```\n- [ ] C") := by
    refine ⟨[text "- [x] A"], text "```md", [text "- [ ] B"], text "```", [text "- [ ] C"],
      { marker := unit '\x60', length := 3 }, ?_, ?_, ?_, ?_, ?_, ?_⟩ <;>
      decide +kernel
  exact ((planChecklist_exact _).1 _ inserts).1

end OpenAgent.Boulder
