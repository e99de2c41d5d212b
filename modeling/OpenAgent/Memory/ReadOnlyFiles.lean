import OpenAgent.Library.Execution
import OpenAgent.Memory.ApplyPatch

/-!
# Read-only memory files

The tool `memory_apply_patch` refuses to add over a file and to delete or update
a read-only one.  The target of a move is written without being looked at.  A
path is changed exactly when an accepted operation names it, and the first
operation that names a read-only path can only be such a move.
-/

namespace OpenAgent.Memory

open Library

/-- The value of `read_only` behind a line of the frontmatter. -/
def readOnlyBehind (value : Option Text) (line : Text) : Option Text :=
  match lineEntry line with
  | none => value
  | some (key, read) => if key = text "read_only" then some read else value

/-- The value of `read_only` in the frontmatter of a content, whatever else stands there. -/
def readOnlyField (content : Text) : Option Text :=
  (matchFrontmatter content).bind fun found => (splitBreaks found.1).foldl readOnlyBehind none

section

variable (repo : MemoryRepository)

/-- The file at a path has `read_only: true` in its frontmatter, be it complete or not. -/
def ReadOnly (path : Text) : Prop :=
  ∃ bytes, repo.entryAt path = some (.file bytes) ∧
    isReadOnlyValue (readOnlyField (normalizeBreaks (textOfChars (decodeUtf8 bytes)))) = true

/-- An operation would change a path. -/
def PatchOperation.Names (path : Text) : PatchOperation → Prop
  | .add targetPath _ => resolvePath repo targetPath "Add File path" = .ok path
  | .delete targetPath => resolvePath repo targetPath "Delete File path" = .ok path
  | .update sourcePath targetPath _ =>
    resolvePath repo sourcePath "Update File path" = .ok path ∨
      resolvePath repo targetPath "Move to path" = .ok path

/-- An operation moves another file to a path. -/
def PatchOperation.MovesOnto (path : Text) : PatchOperation → Prop
  | .update sourcePath targetPath _ =>
    resolvePath repo targetPath "Move to path" = .ok path ∧
      resolvePath repo sourcePath "Update File path" ≠ .ok path
  | _ => False

/-- No read-only file is changed, and a patch that would change one is rejected. -/
def ProtectsReadOnly (params : MemoryApplyPatchParams) : Prop :=
  ∀ path, ReadOnly repo path →
    (∀ actions, runMemoryApplyPatch repo params = .ok actions →
      ∀ action ∈ actions, action.path ≠ path) ∧
    ∀ operations, parseMemoryPatch params.input = .ok operations →
      (∃ operation ∈ operations, operation.Names repo path) →
        ∃ failure, runMemoryApplyPatch repo params = .error failure

/-- The current content of a path can be changed. -/
def Editable (plan : PatchPlan) (path : Text) : Prop :=
  ∃ content parsed, loadCurrent repo plan path = .ok content ∧
    parseMemoryFile content = .ok parsed ∧
    isReadOnlyValue parsed.frontmatter.readOnly = false

end

/-- What an accepted operation does to the pending changes. -/
inductive Applied (repo : MemoryRepository) (plan : PatchPlan) :
    PatchOperation → PatchPlan → Prop
  | add (resolved : resolvePath repo targetPath "Add File path" = .ok target)
      (free : repo.entryAt target = none) :
      Applied repo plan (.add targetPath contentLines) (plan.setWrite target content)
  | delete (resolved : resolvePath repo targetPath "Delete File path" = .ok target)
      (editable : Editable repo plan target) :
      Applied repo plan (.delete targetPath) (plan.setDelete target)
  | update (sourceResolved : resolvePath repo sourcePath "Update File path" = .ok source)
      (targetResolved : resolvePath repo targetPath "Move to path" = .ok source)
      (editable : Editable repo plan source) :
      Applied repo plan (.update sourcePath targetPath hunks) (plan.setWrite source content)
  | move (sourceResolved : resolvePath repo sourcePath "Update File path" = .ok source)
      (targetResolved : resolvePath repo targetPath "Move to path" = .ok target)
      (different : source ≠ target) (editable : Editable repo plan source) :
      Applied repo plan (.update sourcePath targetPath hunks)
        ((plan.setWrite target content).setDelete source)

theorem readOnly_of_foldlM {lines : List Text}
    (read : lines.foldlM readFrontmatterLine fields = .ok result) :
    result.readOnly = lines.foldl readOnlyBehind fields.readOnly := by
  induction lines generalizing fields with
  | nil =>
    cases read
    rfl
  | cons line lines ih =>
    obtain ⟨next, first, later⟩ := foldlM_cons_eq_ok.mp read
    have step : next.readOnly = readOnlyBehind fields.readOnly line := by
      rw [readFrontmatterLine] at first
      rw [readOnlyBehind]
      cases isEntry : lineEntry line with
      | none =>
        rw [isEntry] at first
        cases first
        rfl
      | some entry =>
        obtain ⟨key, value⟩ := entry
        simp only [isEntry] at first ⊢
        by_cases isReadOnly : key = text "read_only"
        · subst isReadOnly
          cases first
          rfl
        · cases aliases : parseAliases value line with
          | error failure | ok aliases =>
            simp only [aliases, Except.map] at first
            grind
    rw [ih later, step, List.foldl_cons]

/-- The parser reads the line, where it accepts the file. -/
theorem readOnly_of_parseMemoryFile (parsed : parseMemoryFile content = .ok file) :
    file.frontmatter.readOnly = readOnlyField content := by
  rw [parseMemoryFile] at parsed
  split at parsed
  · cases parsed
  next block body isBlock =>
    split at parsed
    · cases parsed
    next fields read =>
      split at parsed
      · cases parsed
      split at parsed
      · cases parsed
      cases parsed
      rw [readOnlyField, isBlock]
      exact readOnly_of_foldlM read

theorem editable_of_checks (loaded : loadCurrent repo plan path = .ok content)
    (read : parseForTool content = .ok parsed)
    (checked : assertEditable parsed.frontmatter.readOnly path = .ok value) :
    Editable repo plan path := by
  refine ⟨content, parsed, loaded, mapError_eq_ok.mp read, ?_⟩
  unfold assertEditable at checked
  split at checked
  · cases checked
  · exact Bool.eq_false_iff.mpr ‹_›

theorem applied_of_ok (applied : applyOperation repo plan operation = .ok next) :
    Applied repo plan operation next := by
  cases operation with
  | add targetPath contentLines =>
    obtain ⟨target, resolved, rest⟩ := bind_eq_ok.mp applied
    split at rest
    · cases rest
    split at rest
    · cases rest
    cases rest
    exact .add resolved (Option.not_isSome_iff_eq_none.mp ‹_›)
  | delete targetPath =>
    obtain ⟨target, resolved, rest⟩ := bind_eq_ok.mp applied
    obtain ⟨current, loaded, rest⟩ := bind_eq_ok.mp rest
    obtain ⟨parsed, read, rest⟩ := bind_eq_ok.mp rest
    obtain ⟨value, checked, rest⟩ := bind_eq_ok.mp rest
    cases rest
    exact .delete resolved (editable_of_checks loaded read checked)
  | update sourcePath targetPath hunks =>
    obtain ⟨source, sourceResolved, rest⟩ := bind_eq_ok.mp applied
    obtain ⟨target, targetResolved, rest⟩ := bind_eq_ok.mp rest
    obtain ⟨current, loaded, rest⟩ := bind_eq_ok.mp rest
    obtain ⟨parsed, read, rest⟩ := bind_eq_ok.mp rest
    obtain ⟨value, checked, rest⟩ := bind_eq_ok.mp rest
    obtain ⟨content, changed, rest⟩ := bind_eq_ok.mp rest
    obtain ⟨result, resultRead, rest⟩ := bind_eq_ok.mp rest
    have editable := editable_of_checks loaded read checked
    split at rest
    · cases rest
    by_cases equal : source = target
    · subst equal
      simp only [Except.ok.injEq] at rest
      subst rest
      exact .update sourceResolved targetResolved editable
    · simp only [if_neg equal, Except.ok.injEq] at rest
      subst rest
      exact .move sourceResolved targetResolved equal editable

section

variable (plan : PatchPlan)

/-- A path has a pending change. -/
def PatchPlan.Touches (path : Text) : Prop :=
  plan.writes path = true ∨ path ∈ plan.pendingDeletes

@[simp] theorem PatchPlan.touches_setWrite :
    (plan.setWrite target content).Touches path ↔ plan.Touches path ∨ path = target := by
  simp only [PatchPlan.Touches, PatchPlan.writes, PatchPlan.setWrite, mem_keys_mapSet]
  by_cases equal : path = target <;> simp [equal]

@[simp] theorem PatchPlan.touches_setDelete :
    (plan.setDelete target).Touches path ↔ plan.Touches path ∨ path = target := by
  simp only [PatchPlan.Touches, PatchPlan.writes, PatchPlan.setDelete, mem_keys_mapDelete]
  by_cases equal : path = target <;> simp [equal]

end

/-- An accepted operation touches the paths it names. -/
theorem Applied.touches_iff (applied : Applied repo plan operation next) :
    next.Touches path ↔ plan.Touches path ∨ operation.Names repo path := by
  cases applied with
  | add resolved free | delete resolved editable => simp [PatchOperation.Names, resolved, eq_comm]
  | update sourceResolved targetResolved editable =>
    simp [PatchOperation.Names, sourceResolved, targetResolved, eq_comm]
  | move sourceResolved targetResolved different editable =>
    simp only [PatchPlan.touches_setDelete, PatchPlan.touches_setWrite, PatchOperation.Names]
    grind

/-- The pending changes of a patch are those of its operations. -/
theorem touches_of_foldlM {operations : List PatchOperation}
    (applied : operations.foldlM (applyOperation repo) plan = .ok final) :
    final.Touches path ↔
      plan.Touches path ∨ ∃ operation ∈ operations, operation.Names repo path := by
  induction operations generalizing plan with
  | nil =>
    cases applied
    simp
  | cons operation rest ih =>
    obtain ⟨next, first, later⟩ := foldlM_cons_eq_ok.mp applied
    rw [ih later, (applied_of_ok first).touches_iff, or_assoc]
    simp

theorem ReadOnly.exists (readOnly : ReadOnly repo path) : (repo.entryAt path).isSome = true := by
  obtain ⟨bytes, isFile, _⟩ := readOnly
  rw [isFile]
  rfl

/-- The current content of a path without pending changes is the file's. -/
theorem loadCurrent_of_untouched (untouched : ¬plan.Touches path)
    (loaded : loadCurrent repo plan path = .ok current)
    (isFile : repo.entryAt path = some (.file bytes)) :
    current = normalizeBreaks (textOfChars (decodeUtf8 bytes)) := by
  have notDeleted : path ∉ plan.pendingDeletes := fun member => untouched (.inr member)
  have notWritten : plan.pendingWrites.lookup path = none := by
    rw [List.lookup_eq_none_iff]
    intro pending member
    have differs : path ≠ pending.1 := by
      rintro rfl
      exact untouched (.inl (decide_eq_true (List.mem_map_of_mem member)))
    simpa using differs
  simp only [loadCurrent, notDeleted, decide_false, Bool.false_and, Bool.false_eq_true, if_false,
    notWritten, isFile, readUtf8TextStrict, decodeFatal] at loaded
  grind

theorem ReadOnly.not_editable (readOnly : ReadOnly repo path) (untouched : ¬plan.Touches path) :
    ¬Editable repo plan path := by
  rintro ⟨current, parsed, loaded, read, editable⟩
  obtain ⟨bytes, isFile, locked⟩ := readOnly
  rw [← loadCurrent_of_untouched untouched loaded isFile, ← readOnly_of_parseMemoryFile read,
    editable] at locked
  cases locked

/-- The first accepted operation that names a read-only path moves onto it. -/
theorem Applied.movesOnto (applied : Applied repo plan operation next)
    (readOnly : ReadOnly repo path) (untouched : ¬plan.Touches path)
    (names : operation.Names repo path) : operation.MovesOnto repo path := by
  have locked := readOnly.not_editable untouched
  cases applied with
  | add resolved free =>
    cases resolved.symm.trans names
    have present := readOnly.exists
    rw [free] at present
    cases present
  | delete resolved editable =>
    cases resolved.symm.trans names
    exact absurd editable locked
  | update sourceResolved targetResolved editable =>
    obtain fromSource | fromTarget := names
    · cases sourceResolved.symm.trans fromSource
      exact absurd editable locked
    · cases targetResolved.symm.trans fromTarget
      exact absurd editable locked
  | @move sourcePath source _ _ _ _ sourceResolved targetResolved different editable =>
    have notSource : resolvePath repo sourcePath "Update File path" ≠ .ok path := by
      intro fromSource
      cases sourceResolved.symm.trans fromSource
      exact locked editable
    exact ⟨names.resolve_left notSource, notSource⟩

theorem PatchOperation.MovesOnto.names {operation : PatchOperation}
    (moves : operation.MovesOnto repo path) : operation.Names repo path := by
  cases operation with
  | add targetPath contentLines | delete targetPath => exact moves.elim
  | update sourcePath targetPath hunks => exact .inr moves.1

/-- Without a move onto a read-only path no accepted operation names it. -/
theorem not_names_of_foldlM {operations : List PatchOperation} (readOnly : ReadOnly repo path)
    (untouched : ¬plan.Touches path)
    (noMove : ∀ operation ∈ operations, ¬operation.MovesOnto repo path)
    (applied : operations.foldlM (applyOperation repo) plan = .ok final) :
    ∀ operation ∈ operations, ¬operation.Names repo path := by
  induction operations generalizing plan with
  | nil =>
    intro operation member
    cases member
  | cons first rest ih =>
    obtain ⟨next, accepted, later⟩ := foldlM_cons_eq_ok.mp applied
    have applies := applied_of_ok accepted
    have notFirst : ¬first.Names repo path := fun names =>
      noMove first List.mem_cons_self (applies.movesOnto readOnly untouched names)
    have stillUntouched : ¬next.Touches path := by
      rw [applies.touches_iff]
      exact not_or.mpr ⟨untouched, notFirst⟩
    have notRest := ih stillUntouched
      (fun operation member => noMove operation (List.mem_cons_of_mem first member)) later
    intro operation member
    obtain rfl | member := List.mem_cons.mp member
    · exact notFirst
    · exact notRest operation member

/-- The files changed are those with a pending change, of the files there are. -/
theorem PatchPlan.mem_actions_iff {plan : PatchPlan} (present : (repo.entryAt path).isSome = true) :
    (∃ action ∈ plan.actions repo, action.path = path) ↔ plan.Touches path := by
  constructor
  · rintro ⟨action, member, rfl⟩
    obtain written | deleted := List.mem_append.mp member
    · obtain ⟨pending, isPending, rfl⟩ := List.mem_map.mp written
      exact .inl (decide_eq_true (List.mem_map_of_mem isPending))
    · obtain ⟨target, kept, rfl⟩ := List.mem_map.mp deleted
      exact .inr (List.mem_filter.mp kept).1
  · intro touches
    by_cases written : plan.writes path = true
    · obtain ⟨pending, isPending, rfl⟩ := List.mem_map.mp (of_decide_eq_true written)
      exact ⟨_, List.mem_append_left _ (List.mem_map_of_mem isPending), rfl⟩
    · have kept : path ∈ plan.pendingDeletes.filter fun path =>
          !plan.writes path && (repo.entryAt path).isSome :=
        List.mem_filter.mpr ⟨touches.resolve_left written, by simp [written, present]⟩
      exact ⟨.unlink path, List.mem_append_right _ (List.mem_map_of_mem kept), rfl⟩

/-- An accepted patch has a plan, whose actions are carried out. -/
theorem runMemoryApplyPatch_eq_ok (accepted : runMemoryApplyPatch repo params = .ok actions) :
    ∃ operations plan, parseMemoryPatch params.input = .ok operations ∧
      applyOperations repo operations = .ok plan ∧ actions = plan.actions repo := by
  unfold runMemoryApplyPatch at accepted
  split at accepted
  · cases accepted
  split at accepted
  · cases accepted
  split at accepted
  · cases accepted
  obtain ⟨operations, parsed, rest⟩ := bind_eq_ok.mp accepted
  obtain ⟨plan, applied, rest⟩ := bind_eq_ok.mp rest
  cases rest
  exact ⟨operations, plan, mapError_eq_ok.mp parsed, applied, rfl⟩

theorem not_touches_initial (path : Text) : ¬PatchPlan.initial.Touches path := by
  simp [PatchPlan.Touches, PatchPlan.initial, PatchPlan.writes]

/-- An accepted patch without a move onto a read-only path does not name it, and
does not change the file. -/
theorem unchanged_of_accepted (readOnly : ReadOnly repo path)
    (parsed : parseMemoryPatch params.input = .ok operations)
    (noMove : ∀ operation ∈ operations, ¬operation.MovesOnto repo path)
    (accepted : runMemoryApplyPatch repo params = .ok actions) :
    (∀ operation ∈ operations, ¬operation.Names repo path) ∧
      ∀ action ∈ actions, action.path ≠ path := by
  obtain ⟨others, plan, isParsed, applied, rfl⟩ := runMemoryApplyPatch_eq_ok accepted
  cases parsed.symm.trans isParsed
  have untouched := not_touches_initial path
  have notNamed := not_names_of_foldlM readOnly untouched noMove applied
  refine ⟨notNamed, ?_⟩
  intro action member isPath
  have touches := (PatchPlan.mem_actions_iff readOnly.exists).mp ⟨action, member, isPath⟩
  obtain initially | ⟨operation, isOperation, names⟩ := (touches_of_foldlM applied).mp touches
  · exact untouched initially
  · exact notNamed operation isOperation names

/-- No operation of a patch moves another file onto a read-only one. -/
def NoMoveOntoReadOnly (repo : MemoryRepository) (params : MemoryApplyPatchParams) : Prop :=
  ∀ operations, parseMemoryPatch params.input = .ok operations →
    ∀ path, ReadOnly repo path → ∀ operation ∈ operations, ¬operation.MovesOnto repo path

/-- The tool protects the read-only files of a repository when no operation moves another
file onto one of them, and where it accepts the patch only then. -/
theorem protectsReadOnly_exact (repo : MemoryRepository) (params : MemoryApplyPatchParams) :
    (NoMoveOntoReadOnly repo params → ProtectsReadOnly repo params) ∧
      ∀ actions, runMemoryApplyPatch repo params = .ok actions → ProtectsReadOnly repo params →
        NoMoveOntoReadOnly repo params := by
  constructor
  · intro noMove path readOnly
    constructor
    · intro actions accepted
      obtain ⟨operations, _, parsed, _, _⟩ := runMemoryApplyPatch_eq_ok accepted
      exact (unchanged_of_accepted readOnly parsed (noMove operations parsed path readOnly)
        accepted).2
    · rintro operations parsed ⟨operation, member, names⟩
      cases outcome : runMemoryApplyPatch repo params with
      | error failure => exact ⟨failure, rfl⟩
      | ok actions =>
        have unnamed := (unchanged_of_accepted readOnly parsed
          (noMove operations parsed path readOnly) outcome).1
        exact absurd names (unnamed operation member)
  · intro actions accepted protects operations parsed path readOnly operation member moves
    obtain ⟨failure, rejected⟩ :=
      (protects path readOnly).2 operations parsed ⟨operation, member, moves.names⟩
    cases accepted.symm.trans rejected

/-- An editable file and a read-only one. -/
def lockedRepository : MemoryRepository where
  context :=
    { root := [text "memory"]
      workingDirectory := []
      confined := fun _ => true }
  entryAt path :=
    if path = text "a.md" then
      some (.file (encodeText (text "---\ndescription: Draft\n---\nold")))
    else if path = text "b.md" then
      some (.file
        (encodeText (text "---\ndescription: Locked\nread_only: true\n---\nkeep")))
    else none
  isClean := true

/-- A patch that moves the one onto the other. -/
def movingPatch : MemoryApplyPatchParams where
  reason := text "tidy"
  input := text
    "*** Begin Patch\n*** Update File: a.md\n*** Move to: b.md\n-old\n+new\n*** End Patch"

/-- A patch that changes the editable file where it is. -/
def updatingPatch : MemoryApplyPatchParams where
  reason := text "tidy"
  input := text "*** Begin Patch\n*** Update File: a.md\n-old\n+new\n*** End Patch"

theorem protectsReadOnly_exact_updating : ProtectsReadOnly lockedRepository updatingPatch := by
  refine (protectsReadOnly_exact lockedRepository updatingPatch).1 ?_
  intro operations parsed path readOnly operation member moves
  have isParsed : parseMemoryPatch updatingPatch.input =
      .ok [.update (text "a.md") (text "a.md") [⟨[text "-old", text "+new"]⟩]] :=
    rfl
  cases parsed.symm.trans isParsed
  cases List.mem_singleton.mp member
  have resolved : resolvePath lockedRepository (text "a.md") "Move to path" =
      resolvePath lockedRepository (text "a.md") "Update File path" := by
    decide +kernel
  exact moves.2 (resolved ▸ moves.1)

/-- The patch is accepted, and the read-only file is overwritten. -/
theorem not_protectsReadOnly_moving : ¬ProtectsReadOnly lockedRepository movingPatch := by
  intro protects
  have readOnly : ReadOnly lockedRepository (text "b.md") :=
    ⟨encodeText (text "---\ndescription: Locked\nread_only: true\n---\nkeep"), rfl,
      by decide +kernel⟩
  have overwritten : runMemoryApplyPatch lockedRepository movingPatch = .ok
          [ .write (text "b.md") (encodeText (text "---\ndescription: Draft\n---\nnew")),
            .unlink (text "a.md") ] := by
    decide +kernel
  exact (protects (text "b.md") readOnly).1 _ overwritten _ List.mem_cons_self rfl

end OpenAgent.Memory
