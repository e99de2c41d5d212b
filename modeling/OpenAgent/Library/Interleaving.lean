import OpenAgent.Library.Execution

/-!
# Interleaved processes

Any number of processes share a world.  Each stands at a point of its program,
and one step takes one process over one atomic call.  An invariant consists of
an assertion about the world and one about every process at its point; a step
has to establish both for the process that moves, and must not disturb the
assertions of the others.
-/

namespace OpenAgent.Library

abbrev Process := Nat

/-- The world and the points of all processes. -/
structure Pool (World Point : Type) where
  world : World
  points : Process → Point

namespace Pool

/-- One process makes its move. -/
def advance (move : Point → World → Option (World × Point)) (process : Process)
    (pool : Pool World Point) : Option (Pool World Point) :=
  match move (pool.points process) pool.world with
  | none => none
  | some (world, point) =>
    some { world, points := Function.update pool.points process point }

theorem advance_eq_some {pool : Pool World Point}
    (advanced : pool.advance move process = some next) :
    ∃ world point, move (pool.points process) pool.world = some (world, point) ∧
      next = { world, points := Function.update pool.points process point } := by
  unfold advance at advanced
  split at advanced
  next => cases advanced
  next world point moved =>
    cases advanced
    exact ⟨world, point, moved, rfl⟩

/-- The shared assertion and those of all processes hold. -/
structure Holds (Shared : World → Prop) (Local : Process → Point → World → Prop)
    (pool : Pool World Point) : Prop where
  shared : Shared pool.world
  each : ∀ process, Local process (pool.points process) pool.world

/-- A move keeps the assertions when it establishes its own and disturbs no
other. -/
theorem Holds.advance (holds : Holds Shared Local pool)
    (advanced : pool.advance move process = some next)
    (keeps : ∀ world point, move (pool.points process) pool.world = some (world, point) →
      Shared world ∧ Local process point world ∧
        ∀ other, other ≠ process → Local other (pool.points other) pool.world →
          Local other (pool.points other) world) :
    Holds Shared Local next := by
  obtain ⟨world, point, moved, rfl⟩ := advance_eq_some advanced
  obtain ⟨shared, own, others⟩ := keeps world point moved
  refine ⟨shared, ?_⟩
  intro other
  by_cases same : other = process
  · subst same
    simpa using own
  · simpa [same] using others other same (holds.each other)

end Pool

end OpenAgent.Library
