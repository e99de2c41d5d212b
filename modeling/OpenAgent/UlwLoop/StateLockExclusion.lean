import OpenAgent.UlwLoop.StateLock

/-!
# Mutual exclusion of the state lock

A live process relies on the lock file that it has created.  A waiter that has found this file
stale compares the text of the file at the path with the one that it has read, and removes it in
a further call: by then the path may have the file of another process.  As long as a waiter
removes only the file that it has judged, at most one live process is in its body, and no update
of the goals is lost.
-/

namespace OpenAgent.UlwLoop

open Library

/-- No live process leaves the file that it has created without a record for longer than the
time behind which such a file is stale. -/
def PromptCreators (staleMs : Nat) (pool : Pool LockWorld LockPoint) (_ : LockLabel)
    (_ : Pool LockWorld LockPoint) : Prop :=
  ∀ file ∈ pool.world.file, file.text = [] → pool.world.alive file.creator = true →
    pool.world.now ≤ file.modified + staleMs

section

variable (pool : Pool LockWorld LockPoint)

/-- A process that unlinks the lock path behind a stale verdict removes the file that it has
judged, if there is one. -/
def RemovesJudgedAt : LockPoint → Prop
  | .reclaim seen => ∀ file ∈ pool.world.file, file.number = seen
  | _ => True

def RemovesJudged (label : LockLabel) (_ : Pool LockWorld LockPoint) : Prop :=
  match label with
  | .run process .proceed => RemovesJudgedAt pool (pool.points process)
  | _ => True

instance (staleMs : Nat) (pool : Pool LockWorld LockPoint) (label : LockLabel)
    (next : Pool LockWorld LockPoint) : Decidable (PromptCreators staleMs pool label next) :=
  inferInstanceAs (Decidable (∀ file ∈ pool.world.file, _))

instance : ∀ point, Decidable (RemovesJudgedAt pool point) := by
  intro point
  unfold RemovesJudgedAt
  split <;> infer_instance

instance (label : LockLabel) (next : Pool LockWorld LockPoint) :
    Decidable (RemovesJudged pool label next) := by
  unfold RemovesJudged
  split <;> infer_instance

end

theorem recordText_ne_nil : recordText process now number ≠ [] := by
  unfold recordText stringify
  exact List.cons_ne_nil _ _

theorem parseToken_numeral : parseToken (.string (numeral number)) = some (numeral number) := by
  obtain ⟨digit, rest, isDigits⟩ := List.exists_cons_of_ne_nil
    (Nat.toDigits_ne_nil : Nat.toDigits 10 number ≠ [])
  have notEmpty : (numeral number).isEmpty = false := by
    have unit : unitsOfChar digit ≠ [] := by
      unfold unitsOfChar codeUnitsOfChar
      split <;> simp
    rw [numeral, isDigits, List.flatMap_cons, List.isEmpty_eq_false_iff]
    exact List.append_ne_nil_of_left_ne_nil unit _
  simp [parseToken, parseText, notEmpty]

/-- What a process has written shows its identifier. -/
theorem pid_of_recordText (isPid : 0 < process ∧ process < 2 ^ 53) :
    ∃ record, parseRecord (recordText process now number) = some record ∧ record.pid = process := by
  obtain ⟨isPositive, isSafe⟩ := isPid
  have parsed := parseJson_stringify (.object
    [ (unitsOf "pid", .number (naturalLiteral process)),
      (unitsOf "createdAt", .string (numeral now)), (unitsOf "token", .string (numeral number)) ])
  have finite : (process : ℚ) < Config.numberLimit := by
    have below : ((2 : ℚ) ^ 53) < Config.numberLimit := by
      unfold Config.numberLimit
      decide +kernel
    exact lt_trans (by exact_mod_cast isSafe) below
  have atLeastOne : (1 : ℚ) ≤ (process : ℚ) := by exact_mod_cast isPositive
  have pid : Config.parsePid (.number (naturalLiteral process)) = some process := by
    simp [Config.parsePid, atLeastOne, finite]
  refine ⟨⟨process, numeral now, numeral number⟩, ?_, rfl⟩
  rw [parseRecord, recordText, parsed]
  change (do
    let pid ← Config.parsePid (.number (naturalLiteral process))
    let createdAt ← parseText (.string (numeral now))
    let token ← parseToken (.string (numeral number))
    return ({ pid, createdAt, token } : LockRecord)) = _
  rw [pid, parseToken_numeral]
  rfl

namespace LockPoint

/-- The own file that the process has at the path. -/
def held : LockPoint → Option Nat
  | write number | discard number | body number | bodyWrite number _ | releaseRead number
  | releaseStat number _ | release number => some number
  | _ => none

/-- The process is in its locked body. -/
def IsInside : LockPoint → Prop
  | body _ | bodyWrite _ _ => True
  | _ => False

end LockPoint

section

variable (world : LockWorld)

/-- A property of the file with a number, as long as it is at the path. -/
def About (seen : Nat) (property : StateFile → Prop) : Prop :=
  seen < world.nextNumber ∧
    ∀ file, world.file = some file → file.number = seen → property file

/-- A record that was read belongs to the file's creator. -/
def ShowsCreator (raw : List Char) (file : StateFile) : Prop :=
  ∀ record, parseRecord raw = some record → record.pid = file.creator

/-- A file is that of a dead process, if it is still unwritten where it was read without a
record. -/
def Doomed (raw : List Char) (file : StateFile) : Prop :=
  (parseRecord raw = none → file.text = []) → world.alive file.creator = false

/-- What a waiter has learnt of the file that it has read. -/
def Learnt (staleMs : Nat) (world : LockWorld) : LockPoint → Prop
  | .stat raw seen => About world seen (ShowsCreator raw)
  | .judge raw ageMs seen => About world seen (ShowsCreator raw) ∧
      (parseRecord raw = none → staleMs < ageMs → About world seen (Doomed world raw))
  | .reread raw seen => About world seen (Doomed world raw)
  | .restat raw current seen =>
    current = raw → About world seen fun file => world.alive file.creator = false
  | .reclaim seen => About world seen fun file => world.alive file.creator = false
  | _ => True

/-- The files of the live processes are at the path, and a body has read the present goals. -/
structure Relies (staleMs : Nat) (process : Process) (point : LockPoint) (world : LockWorld) :
    Prop where
  own : world.alive process = true → ∀ number, point.held = some number →
    ∃ file, world.file = some file ∧ file.number = number ∧ file.creator = process
  read : world.alive process = true → ∀ number read, point = .bodyWrite number read →
    read = world.goals
  learnt : Learnt staleMs world point

/-- Files show their creators, and the goals show the updates. -/
structure WorldSound : Prop where
  fresh : ∀ file, world.file = some file → file.number < world.nextNumber
  shows : ∀ file, world.file = some file → file.text = [] ∨
    ∃ record, parseRecord file.text = some record ∧ record.pid = file.creator
  updated : world.goals = world.updates

end

/-- The effect of a move on the world. -/
inductive WorldEffect (process : Process) (world : LockWorld) : LockWorld → Prop
  | quiet : WorldEffect process world world
  | created (free : world.file = none) : WorldEffect process world (world.create process)
  | written (number : Nat)
      (isOwn : ∃ file, world.file = some file ∧ file.number = number ∧ file.creator = process) :
      WorldEffect process world (world.write process number)
  | removed
      (ofOthers : ∀ file, world.file = some file → world.alive file.creator = true →
        file.creator = process) :
      WorldEffect process world world.unlink
  | updated (isOwn : ∃ file, world.file = some file ∧ file.creator = process) :
      WorldEffect process world (world.writeGoals process world.goals)

variable {world : LockWorld}

theorem write_eq (isThere : world.file = some file) (isNumber : file.number = number) :
    (world.write process number).file = some { file with
      text := recordText process world.now number
      modified := world.now } := by
  simp [LockWorld.write, isThere, isNumber]

section

variable (effect : WorldEffect process world after)
include effect

theorem WorldEffect.alive_eq : after.alive = world.alive := by
  cases effect with
  | written number isOwn =>
    unfold LockWorld.write
    split
    · rfl
    · split <;> rfl
  | _ => rfl

theorem WorldEffect.nextNumber_le : world.nextNumber ≤ after.nextNumber := by
  cases effect with
  | created free => exact Nat.le_succ _
  | written number isOwn =>
    unfold LockWorld.write
    split
    · rfl
    · split <;> rfl
  | _ => exact le_rfl

/-- The file at the path stays what it was, but for the record that its creator writes. -/
theorem WorldEffect.file_eq (isThere : after.file = some file)
    (isOld : file.number < world.nextNumber) :
    ∃ before, world.file = some before ∧ before.number = file.number ∧
      before.creator = file.creator ∧ (file.text = before.text ∨ file.text ≠ []) := by
  cases effect with
  | quiet | updated isOwn => exact ⟨file, isThere, rfl, rfl, .inl rfl⟩
  | created free =>
    cases isThere
    exact absurd isOld (Nat.lt_irrefl _)
  | written number isOwn =>
    obtain ⟨before, wasThere, isNumber, _⟩ := isOwn
    rw [write_eq wasThere isNumber] at isThere
    cases isThere
    exact ⟨before, wasThere, rfl, rfl, .inr recordText_ne_nil⟩
  | removed ofOthers => cases isThere

end

theorem About.later (about : About world seen property) (effect : WorldEffect process world after)
    (keeps : ∀ before file, before.creator = file.creator →
      (file.text = before.text ∨ file.text ≠ []) → property before → changed file) :
    About after seen changed := by
  refine ⟨about.1.trans_le effect.nextNumber_le, ?_⟩
  intro file isThere isSeen
  obtain ⟨before, wasThere, sameNumber, sameCreator, text⟩ :=
    effect.file_eq isThere (isSeen ▸ about.1)
  exact keeps before file sameCreator text
    (about.2 before wasThere (sameNumber.trans isSeen))

theorem About.showsCreator (about : About world seen (ShowsCreator raw))
    (effect : WorldEffect process world after) : About after seen (ShowsCreator raw) :=
  about.later effect fun _ _ same _ shows record isRecord =>
    (shows record isRecord).trans same

theorem About.doomed (about : About world seen (Doomed world raw))
    (effect : WorldEffect process world after) : About after seen (Doomed after raw) := by
  refine about.later effect ?_
  intro before file same text doomed unwritten
  rw [effect.alive_eq, ← same]
  refine doomed fun noRecord => ?_
  rcases text with text | text
  · exact text.symm.trans (unwritten noRecord)
  · exact absurd (unwritten noRecord) text

theorem About.dead (about : About world seen fun file => world.alive file.creator = false)
    (effect : WorldEffect process world after) :
    About after seen fun file => after.alive file.creator = false := by
  refine about.later effect ?_
  intro before file same _ isDead
  rw [effect.alive_eq, ← same]
  exact isDead

theorem Learnt.later (learnt : Learnt staleMs world point)
    (effect : WorldEffect process world after) : Learnt staleMs after point := by
  cases point with
  | stat raw seen => exact learnt.showsCreator effect
  | judge raw ageMs seen =>
    exact ⟨learnt.1.showsCreator effect, fun noRecord isOld =>
      (learnt.2 noRecord isOld).doomed effect⟩
  | reread raw seen => exact About.doomed learnt effect
  | restat raw current seen => exact fun same => About.dead (learnt same) effect
  | reclaim seen => exact About.dead learnt effect
  | _ => trivial

/-- A move disturbs nobody else. -/
theorem Relies.others (relies : Relies staleMs other point world)
    (effect : WorldEffect process world after) (differs : other ≠ process) :
    Relies staleMs other point after where
  own := by
    intro isAlive number isHeld
    rw [effect.alive_eq] at isAlive
    obtain ⟨file, isThere, isNumber, isOwn⟩ := relies.own isAlive number isHeld
    cases effect with
    | quiet => exact ⟨file, isThere, isNumber, isOwn⟩
    | created free => cases isThere.symm.trans free
    | written written isWriters =>
      obtain ⟨found, isFound, isWritten, ofWriter⟩ := isWriters
      cases isThere.symm.trans isFound
      exact absurd (isOwn.symm.trans ofWriter) differs
    | removed ofOthers =>
      exact absurd (isOwn.symm.trans (ofOthers file isThere (isOwn ▸ isAlive))) differs
    | updated isWriters => exact ⟨file, isThere, isNumber, isOwn⟩
  read := by
    intro isAlive number read isPoint
    rw [effect.alive_eq] at isAlive
    have before := relies.read isAlive number read isPoint
    cases effect with
    | updated isOwn =>
      obtain ⟨file, isThere, ofProcess⟩ := isOwn
      obtain ⟨found, isFound, _, ofOther⟩ := relies.own isAlive number (by rw [isPoint]; rfl)
      cases isThere.symm.trans isFound
      exact absurd (ofOther.symm.trans ofProcess) differs
    | written written isWriters =>
      unfold LockWorld.write
      split
      · exact before
      · split <;> exact before
    | _ => exact before
  learnt := relies.learnt.later effect

theorem WorldEffect.sound (effect : WorldEffect process world after)
    (isPid : 0 < process ∧ process < 2 ^ 53) (sound : WorldSound world) : WorldSound after := by
  cases effect with
  | quiet => exact sound
  | created free =>
    refine ⟨?_, ?_, sound.updated⟩
    · intro file isThere
      cases isThere
      exact Nat.lt_succ_self _
    · intro file isThere
      cases isThere
      exact .inl rfl
  | written number isOwn =>
    obtain ⟨file, wasThere, isNumber, ofProcess⟩ := isOwn
    have isThere : (world.write process number).file = _ := write_eq wasThere isNumber
    have others : (world.write process number).nextNumber = world.nextNumber ∧
        (world.write process number).goals = (world.write process number).updates := by
      simp only [LockWorld.write, wasThere, if_pos isNumber]
      exact ⟨trivial, sound.updated⟩
    refine ⟨?_, ?_, others.2⟩
    · intro found isFound
      cases isThere.symm.trans isFound
      rw [others.1]
      exact sound.fresh file wasThere
    · intro found isFound
      cases isThere.symm.trans isFound
      obtain ⟨record, isRecord, isPid⟩ := pid_of_recordText isPid
      exact .inr ⟨record, isRecord, isPid.trans ofProcess.symm⟩
  | removed ofOthers => exact ⟨nofun, nofun, sound.updated⟩
  | updated isOwn =>
    refine ⟨sound.fresh, sound.shows, ?_⟩
    simp [LockWorld.writeGoals, sound.updated]

/-- A move has its effect on the world, and its process can rely on its next point. -/
structure MoveSound (staleMs : Nat) (process : Process) (world after : LockWorld)
    (next : LockPoint) : Prop where
  effect : WorldEffect process world after
  relies : Relies staleMs process next after

/-- A point without a file of its own. -/
theorem relies_of_waiting (noFile : next.held = none) (learnt : Learnt staleMs after next) :
    Relies staleMs process next after where
  own := by
    intro _ number isHeld
    cases noFile.symm.trans isHeld
  read := by
    rintro _ number read rfl
    cases noFile
  learnt := learnt

theorem MoveSound.attempt : MoveSound staleMs process world world .create :=
  ⟨.quiet, relies_of_waiting rfl trivial⟩

theorem MoveSound.leave : MoveSound staleMs process world world .outside :=
  ⟨.quiet, relies_of_waiting rfl trivial⟩

/-- A process goes on with its file. -/
theorem MoveSound.keep (isThere : world.file = some file) (ofProcess : file.creator = process)
    (isNumber : next.held = some file.number)
    (notWriting : ∀ number read, next = .bodyWrite number read → read = world.goals)
    (learnt : Learnt staleMs world next) : MoveSound staleMs process world world next where
  effect := .quiet
  relies :=
    { own := by
        intro _ number isHeld
        cases isNumber.symm.trans isHeld
        exact ⟨file, isThere, rfl, ofProcess⟩
      read := fun _ => notWriting
      learnt }

/-- What `isStale` finds. -/
theorem Learnt.isStale (learnt : Learnt staleMs world (.judge raw ageMs seen))
    (isStale : world.isStale staleMs raw ageMs = true) : About world seen (Doomed world raw) := by
  obtain ⟨shows, unwritten⟩ := learnt
  unfold LockWorld.isStale at isStale
  split at isStale
  next noRecord => exact unwritten noRecord (of_decide_eq_true isStale)
  next record isRecord =>
    refine ⟨shows.1, ?_⟩
    intro file isThere isSeen _
    rw [← shows.2 file isThere isSeen record isRecord]
    simpa using isStale

/-- The file that is found with an unwritten text is old. -/
theorem Learnt.ofStat (isThere : world.file = some file)
    (prompt : file.text = [] → world.alive file.creator = true →
      world.now ≤ file.modified + staleMs)
    (shows : About world seen (ShowsCreator raw)) :
    Learnt staleMs world (.judge raw (world.ageOf file) seen) := by
  refine ⟨shows, fun noRecord isOld => ⟨shows.1, ?_⟩⟩
  intro found isFound isSeen unwritten
  cases isThere.symm.trans isFound
  rw [Bool.eq_false_iff]
  intro isAlive
  have young := prompt (unwritten noRecord) isAlive
  unfold LockWorld.ageOf at isOld
  omega

/-- The file that still has the text with which it was found stale. -/
theorem Learnt.ofReread (sound : WorldSound world) (isThere : world.file = some file)
    (doomed : About world seen (Doomed world raw)) :
    Learnt staleMs world (.restat raw file.text seen) := by
  intro same
  refine ⟨doomed.1, ?_⟩
  intro found isFound isSeen
  cases isThere.symm.trans isFound
  refine doomed.2 file isThere isSeen fun noRecord => ?_
  rcases sound.shows file isThere with isEmpty | ⟨record, isRecord, _⟩
  · exact isEmpty
  · rw [same, noRecord] at isRecord
    cases isRecord

/-- The removal of the own file. -/
theorem MoveSound.removeOwn
    (isOwn : ∃ file, world.file = some file ∧ file.number = number ∧ file.creator = process)
    (noFile : next.held = none) (learnt : Learnt staleMs world.unlink next) :
    MoveSound staleMs process world world.unlink next where
  effect := by
    refine .removed ?_
    intro file isThere _
    obtain ⟨found, isFound, _, ofProcess⟩ := isOwn
    cases isThere.symm.trans isFound
    exact ofProcess
  relies := relies_of_waiting noFile learnt

theorem lockMove_sound (sound : WorldSound world) (relies : Relies staleMs process point world)
    (isAlive : world.alive process = true)
    (prompt : ∀ file, world.file = some file → file.text = [] →
      world.alive file.creator = true → world.now ≤ file.modified + staleMs)
    (judged : ∀ seen, choice = .proceed → point = .reclaim seen →
      ∀ file, world.file = some file → file.number = seen)
    (moved : lockMove staleMs process choice point world = some (after, next)) :
    MoveSound staleMs process world after next := by
  revert relies prompt judged moved
  fun_cases lockMove staleMs process choice point world <;>
    intro relies prompt judged moved <;> cases moved
  case case1 | case8 | case10 | case13 | case14 | case16 | case18 => exact .attempt
  case case20 | case21 | case22 | case23 | case24 | case25 | case26 => exact .attempt
  case case4 | case30 | case32 | case34 | case36 | case37 | case38 => exact .leave
  case case2 => exact ⟨.quiet, relies_of_waiting rfl trivial⟩
  case case3 isFree =>
    refine ⟨.created isFree, ?_, fun _ _ _ => nofun, trivial⟩
    intro _ number isHeld
    cases isHeld
    exact ⟨_, rfl, rfl, rfl⟩
  case case5 number =>
    obtain ⟨file, isThere, isNumber, ofProcess⟩ := relies.own isAlive _ rfl
    refine ⟨.written number ⟨file, isThere, isNumber, ofProcess⟩, ?_, fun _ _ _ => nofun,
      trivial⟩
    intro _ held isHeld
    cases isHeld
    exact ⟨_, write_eq isThere isNumber, isNumber, ofProcess⟩
  case case7 | case35 => exact .removeOwn (relies.own isAlive _ rfl) rfl trivial
  case case9 file isThere =>
    refine ⟨.quiet, relies_of_waiting rfl ⟨sound.fresh file isThere, ?_⟩⟩
    intro found isFound _ record isRecord
    cases isThere.symm.trans isFound
    rcases sound.shows file isThere with isEmpty | ⟨other, isOther, isPid⟩
    · rw [isEmpty] at isRecord
      cases isRecord
    · cases isRecord.symm.trans isOther
      exact isPid
  case case11 raw seen file isThere =>
    exact ⟨.quiet, relies_of_waiting rfl (.ofStat isThere (prompt file isThere) relies.learnt)⟩
  case case12 raw ageMs seen isStale =>
    exact ⟨.quiet, relies_of_waiting rfl (relies.learnt.isStale isStale)⟩
  case case15 raw seen file isThere =>
    exact ⟨.quiet, relies_of_waiting rfl (.ofReread sound isThere relies.learnt)⟩
  case case17 current seen file isThere => exact ⟨.quiet, relies_of_waiting rfl (relies.learnt rfl)⟩
  case case19 seen =>
    refine ⟨.removed ?_, relies_of_waiting rfl trivial⟩
    intro file isThere creatorAlive
    have isDead := relies.learnt.2 file isThere (judged seen rfl rfl file isThere)
    cases isDead.symm.trans creatorAlive
  case case29 number read =>
    cases relies.read isAlive number read rfl
    obtain ⟨file, isThere, isNumber, ofProcess⟩ := relies.own isAlive _ rfl
    refine ⟨.updated ⟨file, isThere, ofProcess⟩, ?_, fun _ _ _ => nofun, trivial⟩
    intro _ held isHeld
    cases isHeld
    exact ⟨file, isThere, isNumber, ofProcess⟩
  -- What is left keeps the file that the process has.
  all_goals
    obtain ⟨file, isThere, rfl, ofProcess⟩ := relies.own isAlive _ rfl
    refine .keep isThere ofProcess rfl ?_ trivial
    rintro _ _ ⟨⟩ <;> rfl

/-- The world is sound, and every process can rely on its point. -/
abbrev LockSound (staleMs : Nat) (pool : Pool LockWorld LockPoint) : Prop :=
  pool.Holds WorldSound fun process point world => Relies staleMs process point world

theorem lockSound_freeLock : LockSound staleMs freeLock where
  shared := ⟨nofun, nofun, rfl⟩
  each := fun _ => relies_of_waiting rfl trivial

theorem Relies.crash (relies : Relies staleMs process point world) (victim : Process) :
    Relies staleMs process point
      { world with alive := Function.update world.alive victim false } := by
  have wasAlive : ∀ process, Function.update world.alive victim false process = true →
      world.alive process = true := by
    intro process isAlive
    by_cases same : process = victim
    · simp [same] at isAlive
    · simpa [same] using isAlive
  have staysDead : ∀ process, world.alive process = false →
      Function.update world.alive victim false process = false := by
    intro process isDead
    rw [Bool.eq_false_iff]
    intro isAlive
    cases isDead.symm.trans (wasAlive process isAlive)
  refine ⟨fun isAlive => relies.own (wasAlive process isAlive),
    fun isAlive => relies.read (wasAlive process isAlive), ?_⟩
  have learnt := relies.learnt
  cases point with
  | stat raw seen => exact learnt
  | judge raw ageMs seen =>
    refine ⟨learnt.1, fun noRecord isOld => ⟨learnt.1.1, ?_⟩⟩
    intro file isThere isSeen unwritten
    exact staysDead _ ((learnt.2 noRecord isOld).2 file isThere isSeen unwritten)
  | reread raw seen =>
    refine ⟨learnt.1, fun file isThere isSeen unwritten => ?_⟩
    exact staysDead _ (learnt.2 file isThere isSeen unwritten)
  | restat raw current seen =>
    refine fun same => ⟨(learnt same).1, fun file isThere isSeen => ?_⟩
    exact staysDead _ ((learnt same).2 file isThere isSeen)
  | reclaim seen =>
    refine ⟨learnt.1, fun file isThere isSeen => ?_⟩
    exact staysDead _ (learnt.2 file isThere isSeen)
  | _ => trivial

theorem lockSound_step (pool : Pool LockWorld LockPoint) (label : LockLabel)
    (next : Pool LockWorld LockPoint) (sound : LockSound staleMs pool)
    (meets : PromptCreators staleMs pool label next ∧ RemovesJudged pool label next)
    (stepped : lockStep staleMs pool label = some next) : LockSound staleMs next := by
  cases label with
  | crash victim =>
    cases stepped
    exact ⟨⟨sound.shared.fresh, sound.shared.shows, sound.shared.updated⟩,
      fun process => (sound.each process).crash victim⟩
  | tick elapsed =>
    cases stepped
    refine ⟨⟨sound.shared.fresh, sound.shared.shows, sound.shared.updated⟩, fun process => ?_⟩
    have relies := sound.each process
    refine ⟨relies.own, relies.read, ?_⟩
    have learnt := relies.learnt
    change Learnt staleMs _ (pool.points process)
    cases isPoint : pool.points process <;> rw [isPoint] at learnt <;> exact learnt
  | run process choice =>
    simp only [lockStep] at stepped
    split at stepped
    next mayRun =>
      obtain ⟨isPid, isAlive⟩ := mayRun
      refine Pool.Holds.advance sound stepped ?_
      intro world point moved
      have judged : ∀ seen, choice = .proceed → pool.points process = .reclaim seen →
          ∀ file, pool.world.file = some file → file.number = seen := by
        rintro seen rfl isPoint
        have removes : RemovesJudgedAt pool (pool.points process) := meets.2
        rw [isPoint] at removes
        exact removes
      have move := lockMove_sound sound.shared (sound.each process) isAlive meets.1 judged moved
      exact ⟨move.effect.sound isPid sound.shared, move.relies,
        fun other differs relies => relies.others move.effect differs⟩
    next => cases stepped

/-- At most one live process is in its body, and the goals show every update, in every run in
which a waiter removes only the file that it has judged. -/
theorem stateLock_exclusive {labels : List LockLabel} {final : Pool LockWorld LockPoint}
    (reached : execute (lockStep staleMs) freeLock labels = some final)
    (prompt : EveryStep (lockStep staleMs) (PromptCreators staleMs) freeLock labels)
    (removesJudged : EveryStep (lockStep staleMs) RemovesJudged freeLock labels) :
    (∀ left right, final.world.alive left = true → (final.points left).IsInside →
      final.world.alive right = true → (final.points right).IsInside → left = right) ∧
    final.world.goals = final.world.updates := by
  have sound : LockSound staleMs final :=
    invariant_of_execute lockSound_step lockSound_freeLock reached
      (prompt.and removesJudged)
  refine ⟨?_, sound.shared.updated⟩
  intro left right leftAlive leftInside rightAlive rightInside
  have holds : ∀ process, final.world.alive process = true → (final.points process).IsInside →
      ∃ file, final.world.file = some file ∧ file.creator = process := by
    intro process isAlive isInside
    obtain ⟨number, isHeld⟩ : ∃ number, (final.points process).held = some number := by
      cases isPoint : final.points process <;> rw [isPoint] at isInside <;>
        first | exact ⟨_, rfl⟩ | cases isInside
    obtain ⟨file, isThere, _, ofProcess⟩ := (sound.each process).own isAlive number isHeld
    exact ⟨file, isThere, ofProcess⟩
  obtain ⟨file, isThere, ofLeft⟩ := holds left leftAlive leftInside
  obtain ⟨found, isFound, ofRight⟩ := holds right rightAlive rightInside
  cases isThere.symm.trans isFound
  exact ofLeft.symm.trans ofRight

/-- Calls of a process, none of them interrupted. -/
def lockCalls (process : Process) (count : Nat) : List LockLabel :=
  List.replicate count (.run process .proceed)

/-- The first process dies in its body, and the second one takes the lock over. -/
def deadOwnerRun : List LockLabel :=
  lockCalls 1 3 ++ .crash 1 :: lockCalls 2 10

/-- The second and the third process find the owner dead and the text unchanged.  The second one
removes the file in place of the third one, whose lock it is by then. -/
def sharedVerdictRun : List LockLabel :=
  lockCalls 1 3 ++ .crash 1 :: lockCalls 2 7 ++ lockCalls 3 10 ++ lockCalls 2 3

/-- Both read the goals, and then both write them. -/
def lostUpdateRun : List LockLabel :=
  sharedVerdictRun ++ lockCalls 2 1 ++ lockCalls 3 2 ++ lockCalls 2 1

theorem stateLock_exclusive_deadOwner :
    ∃ final, execute (lockStep 60000) freeLock deadOwnerRun = some final ∧
      final.points 2 = .body 1 ∧
      (∀ other, final.world.alive other = true → (final.points other).IsInside → other = 2) ∧
      final.world.goals = final.world.updates := by
  obtain ⟨final, reached, isAlive, isInside⟩ :
      ∃ final, execute (lockStep 60000) freeLock deadOwnerRun = some final ∧
        final.world.alive 2 = true ∧ final.points 2 = .body 1 := by
    decide +kernel
  have both := stateLock_exclusive reached (by decide +kernel) (by decide +kernel)
  refine ⟨final, reached, isInside, ?_, both.2⟩
  intro other otherAlive otherInside
  exact both.1 other 2 otherAlive otherInside isAlive (by rw [isInside]; trivial)

/-- Two live processes are in their bodies, and one update is lost. -/
theorem not_exclusive_sharedVerdict :
    EveryStep (lockStep 60000) (PromptCreators 60000) freeLock lostUpdateRun ∧
      (∃ final, execute (lockStep 60000) freeLock sharedVerdictRun = some final ∧
        (final.world.alive 2 = true ∧ (final.points 2).IsInside) ∧
        (final.world.alive 3 = true ∧ (final.points 3).IsInside)) ∧
      ∃ final, execute (lockStep 60000) freeLock lostUpdateRun = some final ∧
        final.world.updates = [3, 2] ∧ final.world.goals = [2] := by
  refine ⟨by decide +kernel, ?_, by decide +kernel⟩
  obtain ⟨final, reached, ⟨secondAlive, secondInside⟩, thirdAlive, thirdInside⟩ :
      ∃ final, execute (lockStep 60000) freeLock sharedVerdictRun = some final ∧
        (final.world.alive 2 = true ∧ final.points 2 = .body 2) ∧
        final.world.alive 3 = true ∧ final.points 3 = .body 1 := by
    decide +kernel
  exact ⟨final, reached, ⟨secondAlive, by rw [secondInside]; trivial⟩,
    thirdAlive, by rw [thirdInside]; trivial⟩

end OpenAgent.UlwLoop
