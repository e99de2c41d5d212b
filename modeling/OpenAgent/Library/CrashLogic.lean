import Mathlib.Data.List.Basic

/-!
# Programs that a crash may cut off

A program works on a state that survives a crash.  Besides its result and the state at its
end, it leaves the states behind each of its writes: a crash strikes before the first write
or behind one of them, and what it finds is one of these states.  Reading changes nothing
and so adds none.  The rules below prove at once what a program ends with and what every
crash leaves behind.
-/

namespace OpenAgent.Library

/-- What one execution of a program leaves. -/
structure Leaves (σ ε α : Type) where
  passed : List σ
  final : σ
  result : Except ε α

/-- A program over states that survive a crash. -/
def Program (σ ε α : Type) :=
  σ → Leaves σ ε α

namespace Program

variable {σ ε α : Type}

def finish (value : α) : Program σ ε α :=
  fun state => ⟨[], state, .ok value⟩

/-- One program, and another one with its result. -/
def andThen (first : Program σ ε α) (second : α → Program σ ε β) : Program σ ε β :=
  fun state =>
    match (first state).result with
    | .error failure => ⟨(first state).passed, (first state).final, .error failure⟩
    | .ok value =>
      let later := second value (first state).final
      ⟨(first state).passed ++ later.passed, later.final, later.result⟩

instance : Monad (Program σ ε) where
  pure := finish
  bind := andThen

/-- `throw`. -/
def fail (failure : ε) : Program σ ε α :=
  fun state => ⟨[], state, .error failure⟩

/-- Read the state. -/
def view (read : σ → Except ε α) : Program σ ε α :=
  fun state => ⟨[], state, read state⟩

/-- Write to the state, or fail and leave it alone. -/
def alter (write : σ → Except ε σ) : Program σ ε Unit :=
  fun state =>
    match write state with
    | .error failure => ⟨[], state, .error failure⟩
    | .ok next => ⟨[next], next, .ok ()⟩

/-- Take note of something that does not survive a crash. -/
def note (advance : σ → σ) : Program σ ε Unit :=
  fun state => ⟨[], advance state, .ok ()⟩

/-- `try` and `catch`. -/
def recover (program : Program σ ε α) (handle : ε → Program σ ε α) : Program σ ε α :=
  fun state =>
    match (program state).result with
    | .ok value => ⟨(program state).passed, (program state).final, .ok value⟩
    | .error failure =>
      let later := handle failure (program state).final
      ⟨(program state).passed ++ later.passed, later.final, later.result⟩

/-- The states that a crash of a program may leave. -/
def crashes (program : Program σ ε α) (state : σ) : List σ :=
  state :: (program state).passed

theorem bind_def (second : α → Program σ ε β) :
    (first >>= second) = andThen first second := rfl

/-- A program that ends well has ended well at each of its parts. -/
theorem result_bind_eq_ok {first : Program σ ε α} :
    ((first >>= second) state).result = .ok value ↔ ∃ middle, (first state).result = .ok middle ∧
        (second middle (first state).final).result = .ok value := by
  rw [bind_def, andThen]
  cases (first state).result with
  | error failure => simp
  | ok middle => simp

/-- Behind a first part that has ended well stands the second one. -/
theorem bind_of_ok (ended : (first state).result = .ok middle) (second : α → Program σ ε β) :
    (first >>= second) state = ⟨(first state).passed ++ (second middle (first state).final).passed,
        (second middle (first state).final).final,
        (second middle (first state).final).result⟩ := by
  rw [bind_def, andThen, ended]

@[simp] theorem pure_bind (second : α → Program σ ε β) :
    (pure value >>= second) = second value := rfl

/-- Passes that do nothing. -/
theorem foldlM_skip {body : β → α → Program σ ε β}
    (skips : ∀ item ∈ front, body value item = pure value) (rest : List α) :
    (front ++ rest).foldlM body value = rest.foldlM body value := by
  induction front with
  | nil => rfl
  | cons item front ih =>
    rw [List.cons_append, List.foldlM_cons, skips item List.mem_cons_self, pure_bind,
      ih fun other member => skips other (List.mem_cons_of_mem item member)]

/-- From every state of one kind the program ends well, with a result and a state as said,
and everything that it passes is of another kind. -/
def Meets (before : σ → Prop) (program : Program σ ε α) (during : σ → Prop)
    (after : α → σ → Prop) : Prop :=
  ∀ state, before state →
    (∀ passed ∈ (program state).passed, during passed) ∧
      ∃ value, (program state).result = .ok value ∧ after value (program state).final

theorem Meets.weaken (meets : Meets before program during after)
    (gives : ∀ state, stronger state → before state) (passes : ∀ state, during state → weaker state)
    (leaves : ∀ value state, after value state → looser value state) :
    Meets stronger program weaker looser := by
  intro state holds
  obtain ⟨passed, value, ended, finally_⟩ := meets state (gives state holds)
  exact ⟨fun other member => passes other (passed other member), value, ended,
    leaves value _ finally_⟩

theorem Meets.finish (holds : ∀ state, before state → after value state) :
    Meets before (pure value : Program σ ε α) during after :=
  fun state isBefore => ⟨fun _ member => (List.not_mem_nil member).elim, value, rfl,
    holds state isBefore⟩

theorem Meets.bind (between : α → σ → Prop) (starts : Meets before first during between)
    (continues : ∀ value, Meets (between value) (second value) during after) :
    Meets before (first >>= second) during after := by
  intro state holds
  obtain ⟨passed, middle, ended, isBetween⟩ := starts state holds
  obtain ⟨laterPassed, value, laterEnded, isAfter⟩ := continues middle _ isBetween
  rw [bind_of_ok ended]
  refine ⟨?_, value, laterEnded, isAfter⟩
  intro other member
  rcases List.mem_append.mp member with isFirst | isLater
  · exact passed other isFirst
  · exact laterPassed other isLater

theorem Meets.view {read : σ → Except ε α}
    (reads : ∀ state, before state → ∃ value, read state = .ok value ∧ after value state) :
    Meets before (view read) during after :=
  fun state holds => ⟨fun _ member => (List.not_mem_nil member).elim, reads state holds⟩

/-- What a view gives is known behind it. -/
theorem Meets.bind_view {read : σ → Except ε α} (value : α)
    (reads : ∀ state, before state → read state = .ok value)
    (continues : Meets before (second value) during after) :
    Meets before (Program.view read >>= second) during after := by
  refine Meets.bind (fun found state => found = value ∧ before state)
    (Meets.view fun state holds => ⟨value, reads state holds, rfl, holds⟩) fun found => ?_
  rintro state ⟨rfl, holds⟩
  exact continues state holds

theorem Meets.note (holds : ∀ state, before state → after () (advance state)) :
    Meets before (note advance : Program σ ε Unit) during after :=
  fun state isBefore => ⟨fun _ member => (List.not_mem_nil member).elim, (), rfl,
    holds state isBefore⟩

theorem Meets.alter {write : σ → Except ε σ}
    (writes : ∀ state, before state →
      ∃ next, write state = .ok next ∧ during next ∧ after () next) :
    Meets before (alter write) during after := by
  intro state holds
  obtain ⟨next, written, isDuring, isAfter⟩ := writes state holds
  rw [Program.alter, written]
  refine ⟨?_, (), rfl, isAfter⟩
  intro other member
  rw [List.mem_singleton.mp member]
  exact isDuring

/-- A program that fails at once, and is caught. -/
theorem Meets.recover {program : Program σ ε α} (failure : ε)
    (fails : ∀ state, before state → program state = ⟨[], state, .error failure⟩)
    (handles : Meets before (handle failure) during after) :
    Meets before (program.recover handle) during after := by
  intro state holds
  rw [Program.recover, fails state holds]
  exact handles state holds

/-- A program that has nothing to be caught. -/
theorem Meets.recover_of_ok (meets : Meets before program during after) :
    Meets before (program.recover handle) during after := by
  intro state holds
  obtain ⟨passed, value, ended, isAfter⟩ := meets state holds
  rw [Program.recover, ended]
  exact ⟨passed, value, rfl, isAfter⟩

/-- A loop, by what holds behind each front of its items. -/
theorem Meets.foldlM (body : β → α → Program σ ε β) (items : List α)
    (invariant : List α → β → σ → Prop)
    (preserved : ∀ front item rest, items = front ++ item :: rest → ∀ value,
      Meets (invariant front value) (body value item) during (invariant (front ++ [item])))
    (value : β) :
    Meets (invariant [] value) (items.foldlM body value) during (invariant items) := by
  suffices loops : ∀ rest front, items = front ++ rest → ∀ value,
      Meets (invariant front value) (rest.foldlM body value) during (invariant items) from
    loops items [] rfl value
  intro rest
  induction rest with
  | nil =>
    intro front split value
    rw [List.append_nil] at split
    subst split
    exact Meets.finish fun state holds => holds
  | cons item rest ih =>
    intro front split value
    refine Meets.bind _ (preserved front item rest split value) fun next => ?_
    exact ih (front ++ [item]) (by rw [split, List.append_assoc]; rfl) next

end Program

end OpenAgent.Library
