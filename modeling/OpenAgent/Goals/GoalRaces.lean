import Mathlib.Data.List.Permutation
import OpenAgent.Goals.GoalRuns
import OpenAgent.Library.Interleaving

/-!
# Concurrent calls of the goal store

Each call reads the file and writes it later, without a lock.
-/

namespace OpenAgent.Goals

open Library

/-- Where a call stands: before its read, or before its write with what it read. -/
inductive GoalPoint
  | waiting (call : GoalCall)
  | writing (call : GoalCall) (read next : Option Goal)
  | finished
  deriving DecidableEq

section

variable (threadId : Text)

/-- A call that writes nothing is over with its read. -/
def GoalPoint.move : GoalPoint → Option Goal → Option (Option Goal × GoalPoint)
  | .waiting call, file =>
    match call.writes threadId file with
    | .ok (some next) => some (file, .writing call file next)
    | .ok none | .error _ => some (file, .finished)
  | .writing _ _ next, _ => some (next, .finished)
  | .finished, _ => none

abbrev raceStep (pool : Pool (Option Goal) GoalPoint) (process : Process) :
    Option (Pool (Option Goal) GoalPoint) :=
  pool.advance (GoalPoint.move threadId) process

variable (file : Option Goal) (calls : Process → GoalCall)

/-- The file before the calls. -/
def startRace : Pool (Option Goal) GoalPoint where
  world := file
  points process := .waiting (calls process)

/-- The file after a call that nothing interrupts. -/
def GoalCall.apply (call : GoalCall) : Option Goal :=
  match call.writes threadId file with
  | .ok (some next) => next
  | .ok none | .error _ => file

/-- The file is that of the calls that are over, one after the other in some order. -/
def SerialGoals (pool : Pool (Option Goal) GoalPoint) : Prop :=
  ∃ order : List Process, order.Nodup ∧
    (∀ process, process ∈ order ↔ pool.points process = .finished) ∧
    pool.world = order.foldl (fun file process => (calls process).apply threadId file) file

/-- A call writes over the file that it read. -/
def Undisturbed (pool : Pool (Option Goal) GoalPoint) (process : Process)
    (_ : Pool (Option Goal) GoalPoint) : Prop :=
  match pool.points process with
  | .writing _ read _ => pool.world = read
  | .waiting _ | .finished => True

instance (pool after : Pool (Option Goal) GoalPoint) (process : Process) :
    Decidable (Undisturbed pool process after) := by
  unfold Undisturbed
  cases pool.points process <;> infer_instance

/-- An accounting leaves a goal active only where the goal is active already. -/
def NoRevival (pool : Pool (Option Goal) GoalPoint) (process : Process)
    (after : Pool (Option Goal) GoalPoint) : Prop :=
  match pool.points process with
  | .writing (.accountGoalUsage _ _ _ _ _) _ _ =>
    ∀ goal ∈ after.world, goal.status = .active →
      ∃ current ∈ pool.world, current.status = .active ∧ current.id = goal.id
  | _ => True

/-- The point of a call, with what the call writes over what it read. -/
def GoalPoint.Follows (call : GoalCall) : GoalPoint → Prop
  | .waiting own => own = call
  | .writing own read next => own = call ∧ call.writes threadId read = .ok (some next)
  | .finished => True

structure RaceSound (pool : Pool (Option Goal) GoalPoint) : Prop where
  serial : SerialGoals threadId file calls pool
  each : ∀ process, (pool.points process).Follows threadId (calls process)

end

/-- A call that is over comes last in the order. -/
theorem SerialGoals.finish (serial : SerialGoals threadId file calls pool)
    (unfinished : pool.points process ≠ .finished)
    (isNext : next = (calls process).apply threadId pool.world) :
    SerialGoals threadId file calls
      ⟨next, Function.update pool.points process .finished⟩ := by
  obtain ⟨order, nodup, members, isFile⟩ := serial
  refine ⟨order ++ [process], ?_, fun other => ?_, ?_⟩
  · rw [← List.concat_eq_append, List.nodup_concat]
    exact ⟨fun member => unfinished ((members process).mp member), nodup⟩
  · by_cases same : other = process
    · simp [same]
    · simp [same, members]
  · rw [isNext, isFile, List.foldl_append]
    rfl

theorem RaceSound.update (sound : RaceSound threadId file calls pool)
    (serial : SerialGoals threadId file calls ⟨world, Function.update pool.points process point⟩)
    (follows : point.Follows threadId (calls process)) :
    RaceSound threadId file calls ⟨world, Function.update pool.points process point⟩ :=
  ⟨serial, (Function.forall_update_iff pool.points
    fun process point => point.Follows threadId (calls process)).mpr
      ⟨follows, fun other _ => sound.each other⟩⟩

theorem raceSound_step (pool : Pool (Option Goal) GoalPoint) (process : Process)
    (next : Pool (Option Goal) GoalPoint) (sound : RaceSound threadId file calls pool)
    (undisturbed : Undisturbed pool process next)
    (stepped : raceStep threadId pool process = some next) :
    RaceSound threadId file calls next := by
  obtain ⟨world, point, moved, rfl⟩ := Pool.advance_eq_some stepped
  have follows := sound.each process
  unfold Undisturbed at undisturbed
  cases isPoint : pool.points process with
  | waiting call =>
    rw [isPoint] at follows moved
    have unfinished : pool.points process ≠ .finished := by simp [isPoint]
    rw [GoalPoint.move] at moved
    split at moved
    · next written wrote =>
      cases moved
      obtain ⟨order, nodup, members, isFile⟩ := sound.serial
      refine sound.update ⟨order, nodup, fun other => ?_, isFile⟩ ⟨follows, follows ▸ wrote⟩
      by_cases same : other = process
      · simp [same, members, unfinished]
      · simp [same, members]
    all_goals
      next wrote =>
      cases moved
      refine sound.update (sound.serial.finish unfinished ?_) trivial
      rw [← follows, GoalCall.apply, wrote]
  | writing call read written =>
    rw [isPoint] at undisturbed follows moved
    cases moved
    refine sound.update (sound.serial.finish (by simp [isPoint]) ?_) trivial
    rw [undisturbed, GoalCall.apply, follows.2]
  | finished =>
    rw [isPoint] at moved
    cases moved

theorem noRevival_of_sound (sound : RaceSound threadId file calls pool)
    (undisturbed : Undisturbed pool process next)
    (stepped : raceStep threadId pool process = some next) : NoRevival pool process next := by
  obtain ⟨world, point, moved, rfl⟩ := Pool.advance_eq_some stepped
  have follows := sound.each process
  unfold NoRevival
  unfold Undisturbed at undisturbed
  split
  · next usage elapsedSeconds mode expectedGoalId now read written isPoint =>
    rw [isPoint] at undisturbed follows moved
    cases moved
    obtain ⟨isCall, wrote⟩ := follows
    rw [← isCall, GoalCall.writes, ← undisturbed] at wrote
    rintro goal ⟨⟩ active
    cases isFile : pool.world with
    | none => simp [isFile, readGoal, Except.map] at wrote
    | some current =>
      rw [isFile, readGoal] at wrote
      split at wrote
      · simp only [Except.map, Except.ok.injEq, Option.map_eq_some_iff, Option.filter_eq_some_iff,
          Option.some.injEq] at wrote
        obtain ⟨_, ⟨rfl, _⟩, rfl⟩ := wrote
        refine ⟨current, rfl, ?_, rfl⟩
        rcases statusAfterAccounting_cases with ⟨limited, _⟩ | ⟨same, _⟩
        · cases limited.symm.trans active
        · exact same.symm.trans active
      · cases wrote
  · trivial

/-- As long as every call writes over the file that it read, the file is that of a serial order
of the calls, and no accounting makes a goal active again. -/
theorem serialGoals_of_undisturbed
    (reached : execute (raceStep threadId) (startRace file calls) schedule = some final)
    (undisturbed : EveryStep (raceStep threadId) Undisturbed (startRace file calls) schedule) :
    SerialGoals threadId file calls final ∧
      EveryStep (raceStep threadId) NoRevival (startRace file calls) schedule := by
  have initially : RaceSound threadId file calls (startRace file calls) := by
    exact ⟨⟨[], .nil, fun process => by simp [startRace], rfl⟩, fun process => rfl⟩
  refine ⟨(invariant_of_execute raceSound_step initially reached undisturbed).serial, ?_⟩
  refine undisturbed.of_invariant (fun pool process next sound untouched stepped => ?_) initially
  exact ⟨noRevival_of_sound sound untouched stepped,
    raceSound_step pool process next sound untouched stepped⟩

/-- A goal that is worked on. -/
def activeGoal : Goal where
  id := text "a"
  threadId := text "t"
  objective := text "fix it"
  status := .active
  tokenBudget := none
  tokensUsed := 0
  timeUsedSeconds := 0
  createdAt := 5
  updatedAt := 5
  lastStartedAt := some 5
  completedAt := none

/-- The end of a turn, the completion of the goal, and the late end of a turn for another goal. -/
def turnEnd : Process → GoalCall
  | 0 => .accountGoalUsage ⟨1, 0⟩ 0 .active none 6
  | 1 => .updateGoal ⟨none, some .complete, none⟩ 7 (text "b")
  | _ => .accountGoalUsage ⟨1, 0⟩ 0 .active (some (text "c")) 6

/-- The late accounting comes between the read and the write of the first one. -/
theorem serialGoals_turnEnd :
    ∃ final, execute (raceStep (text "t")) (startRace (some activeGoal) turnEnd) [0, 2, 0, 1, 1] =
      some final ∧ SerialGoals (text "t") (some activeGoal) turnEnd final := by
  obtain ⟨final, reached, _⟩ : ∃ final, execute (raceStep (text "t"))
      (startRace (some activeGoal) turnEnd) [0, 2, 0, 1, 1] = some final ∧ True := by
    decide +kernel
  exact ⟨final, reached, (serialGoals_of_undisturbed reached (by decide +kernel)).1⟩

/-- A call that makes no step stays where it is. -/
theorem points_of_not_mem (reached : execute (raceStep threadId) pool schedule = some final)
    (untouched : process ∉ schedule) : final.points process = pool.points process := by
  induction schedule generalizing pool with
  | nil =>
    cases reached
    rfl
  | cons first rest ih =>
    obtain ⟨next, stepped, reached⟩ := execute_cons_eq_some.mp reached
    obtain ⟨world, point, _, rfl⟩ := Pool.advance_eq_some stepped
    rw [List.mem_cons, not_or] at untouched
    rw [ih reached untouched.2]
    exact Function.update_of_ne untouched.1 _ _

/-- The accounting reads the active goal, and writes it back over the completed one. -/
theorem not_serialGoals_turnEnd :
    ∃ final, execute (raceStep (text "t")) (startRace (some activeGoal) turnEnd) [0, 1, 1, 0] =
      some final ∧ (∃ goal ∈ final.world, goal.status = .active) ∧
        ¬ SerialGoals (text "t") (some activeGoal) turnEnd final := by
  obtain ⟨final, reached, ended, written⟩ : ∃ final,
      execute (raceStep (text "t")) (startRace (some activeGoal) turnEnd) [0, 1, 1, 0] =
        some final ∧ (final.points 0 = .finished ∧ final.points 1 = .finished) ∧
          final.world = some { activeGoal with tokensUsed := 1, updatedAt := 6 } := by
    decide +kernel
  refine ⟨final, reached, ⟨_, written, rfl⟩, ?_⟩
  rintro ⟨order, nodup, members, isFile⟩
  have permuted : order ∈ [0, 1].permutations' := by
    rw [List.mem_permutations', List.perm_ext_iff_of_nodup nodup (by decide)]
    intro process
    rw [members]
    constructor
    · intro isOver
      by_contra untouched
      rw [points_of_not_mem reached (by grind)] at isOver
      cases isOver
    · intro member
      rcases List.mem_pair.mp member with rfl | rfl
      · exact ended.1
      · exact ended.2
  have differs : ∀ order ∈ [0, 1].permutations',
      some { activeGoal with tokensUsed := 1, updatedAt := 6 } ≠
        order.foldl (fun file process => (turnEnd process).apply (text "t") file)
          (some activeGoal) := by
    decide +kernel
  exact differs order permuted (written.symm.trans isFile)

end OpenAgent.Goals
