import Mathlib.Data.List.Basic

/-!
# Reading a stream in chunks

A reader looks at the start of a buffer and either takes a message off it or waits for
more.  When what it takes does not depend on what comes behind, the messages of a stream
do not depend on the chunks in which the stream arrives.
-/

namespace OpenAgent.Library

/-- What is found at the start of a buffer.  Something may be taken without a message. -/
inductive Reading (α β : Type)
  | incomplete
  | complete (message : Option β) (remaining : List α)

/-- A reader takes something off when it does not wait, and takes the same when there is
more. -/
structure ChunkedReader (α β : Type) where
  next : List α → Reading α β
  shorter : ∀ buffer message remaining, next buffer = .complete message remaining →
    remaining.length < buffer.length
  stable : ∀ buffer message remaining more, next buffer = .complete message remaining →
    next (buffer ++ more) = .complete message (remaining ++ more)

namespace ChunkedReader

variable (reader : ChunkedReader α β)

def drainFrom : Nat → List α → List β × List α
  | 0, buffer => ([], buffer)
  | fuel + 1, buffer =>
    match reader.next buffer with
    | .incomplete => ([], buffer)
    | .complete message remaining =>
      (message.toList ++ (drainFrom fuel remaining).1, (drainFrom fuel remaining).2)

/-- Take messages off a buffer until the reader waits. -/
def drain (buffer : List α) : List β × List α :=
  reader.drainFrom buffer.length buffer

/-- Add a chunk to the buffer and take messages off it. -/
def receive (state : List β × List α) (chunk : List α) : List β × List α :=
  (state.1 ++ (reader.drain (state.2 ++ chunk)).1, (reader.drain (state.2 ++ chunk)).2)

def receiveAll (chunks : List (List α)) : List β × List α :=
  chunks.foldl reader.receive ([], [])

variable {reader}

theorem next_nil : reader.next [] = .incomplete := by
  cases found : reader.next [] with
  | incomplete => rfl
  | complete message remaining => exact absurd (reader.shorter _ _ _ found) (Nat.not_lt_zero _)

theorem drainFrom_add (enough : buffer.length ≤ fuel) :
    reader.drainFrom (fuel + more) buffer = reader.drainFrom fuel buffer := by
  induction fuel generalizing buffer with
  | zero =>
    obtain rfl := List.length_eq_zero_iff.mp (Nat.le_zero.mp enough)
    cases more with
    | zero => rfl
    | succ more => simp only [drainFrom, next_nil]
  | succ fuel ih =>
    rw [Nat.succ_add, drainFrom, drainFrom]
    cases found : reader.next buffer with
    | incomplete => rfl
    | complete message remaining =>
      have bound := reader.shorter _ _ _ found
      have short : remaining.length ≤ fuel := by omega
      simp only [ih short]

theorem drain_of_incomplete (waits : reader.next buffer = .incomplete) :
    reader.drain buffer = ([], buffer) := by
  rw [drain]
  cases buffer.length with
  | zero => rfl
  | succ fuel => rw [drainFrom, waits]

theorem drain_of_complete (taken : reader.next buffer = .complete message remaining) :
    reader.drain buffer =
      (message.toList ++ (reader.drain remaining).1, (reader.drain remaining).2) := by
  have bound := reader.shorter _ _ _ taken
  obtain ⟨surplus, isLength⟩ := Nat.exists_eq_add_of_lt bound
  have isSucc : buffer.length = (remaining.length + surplus) + 1 := by omega
  rw [drain, isSucc, drainFrom, taken]
  simp only [drainFrom_add (Nat.le_refl remaining.length)]
  rfl

/-- What is left over when a buffer has been drained is waited on. -/
theorem next_drain (buffer : List α) : reader.next (reader.drain buffer).2 = .incomplete := by
  induction isLength : buffer.length using Nat.strongRecOn generalizing buffer with
  | ind length ih =>
    cases found : reader.next buffer with
    | incomplete => rw [drain_of_incomplete found, found]
    | complete message remaining =>
      have bound := reader.shorter _ _ _ found
      rw [drain_of_complete found]
      exact ih remaining.length (by omega) remaining rfl

/-- A buffer can be drained before more comes. -/
theorem drain_append (buffer more : List α) :
    reader.drain (buffer ++ more) =
      ((reader.drain buffer).1 ++ (reader.drain ((reader.drain buffer).2 ++ more)).1,
        (reader.drain ((reader.drain buffer).2 ++ more)).2) := by
  induction isLength : buffer.length using Nat.strongRecOn generalizing buffer with
  | ind length ih =>
    cases found : reader.next buffer with
    | incomplete => rw [drain_of_incomplete found, List.nil_append]
    | complete message remaining =>
      have bound := reader.shorter _ _ _ found
      rw [drain_of_complete (reader.stable _ _ _ more found), drain_of_complete found,
        ih remaining.length (by omega) remaining rfl, List.append_assoc]

theorem foldl_receive (chunks : List (List α)) (messages : List β)
    (waits : reader.next buffer = .incomplete) :
    chunks.foldl reader.receive (messages, buffer) =
      (messages ++ (reader.drain (buffer ++ chunks.flatten)).1,
        (reader.drain (buffer ++ chunks.flatten)).2) := by
  induction chunks generalizing messages buffer with
  | nil => simp [drain_of_incomplete waits]
  | cons chunk chunks ih =>
    rw [List.foldl_cons, receive, ih _ (next_drain _), List.flatten_cons,
      ← List.append_assoc, drain_append (buffer ++ chunk) chunks.flatten, List.append_assoc]

/-- The messages of a stream do not depend on its chunks. -/
theorem receiveAll_eq_drain (chunks : List (List α)) :
    reader.receiveAll chunks = reader.drain chunks.flatten := by
  rw [receiveAll, foldl_receive chunks [] next_nil, List.nil_append, List.nil_append]

/-- Messages that are each read when alone are read one behind the other. -/
theorem drain_flatMap (encode : γ → List α) (read : γ → β) {messages : List γ}
    (reads : ∀ message ∈ messages,
      reader.next (encode message) = .complete (some (read message)) []) :
    reader.drain (messages.flatMap encode) = (messages.map read, []) := by
  induction messages with
  | nil => exact drain_of_incomplete next_nil
  | cons message messages ih =>
    rw [List.forall_mem_cons] at reads
    have taken := reader.stable _ _ _ (messages.flatMap encode) reads.1
    rw [List.flatMap_cons, drain_of_complete taken, List.nil_append, ih reads.2]
    rfl

end ChunkedReader

end OpenAgent.Library
