import OpenAgent.Library.ChunkedReader

/-!
# Readers that throw a buffer away

A reader that meets something broken may throw away all that it has buffered.  What is
thrown away then depends on how much has arrived, and the messages of a stream depend on
its chunks exactly when a message stands behind something broken.
-/

namespace OpenAgent.Library

/-- A reader that looks at no more than it takes, and that may find a buffer broken.  A
broken buffer stays broken. -/
structure ResettingReader (α β : Type) extends ChunkedReader α β where
  alone : ∀ buffer message remaining, next buffer = .complete message remaining →
    ∃ taken, buffer = taken ++ remaining ∧ next taken = .complete message []
  broken : List α → Bool
  broken_nil : broken [] = false
  broken_waits : ∀ buffer, broken buffer = true → next buffer = .incomplete
  broken_append : ∀ buffer more, broken buffer = true → broken (buffer ++ more) = true

namespace ResettingReader

variable (reader : ResettingReader α β)

/-- Take messages off the buffer and throw it away when it is broken. -/
def accept (state : List β × List α) (chunk : List α) : List β × List α :=
  let received := reader.receive state chunk
  (received.1, if reader.broken received.2 then [] else received.2)

def acceptAll (chunks : List (List α)) : List β × List α :=
  chunks.foldl reader.accept ([], [])

/-- A piece from which one message is taken, or nothing. -/
def IsPiece (bytes : List α) : Prop :=
  ∃ message, reader.next bytes = .complete message []

/-- Behind some pieces stands something broken, and at some place behind it a message. -/
def LosesMessage (stream : List α) : Prop :=
  ∃ (pieces : List (List α)) (dropped lost : List α),
    (∀ piece ∈ pieces, reader.IsPiece piece) ∧
      stream = pieces.flatten ++ dropped ++ lost ∧ reader.broken dropped = true ∧
        (reader.drain lost).1 ≠ []

variable {reader}

theorem drain_piece (isPiece : reader.IsPiece piece) (more : List α) :
    reader.drain (piece ++ more) =
      ((reader.drain piece).1 ++ (reader.drain more).1, (reader.drain more).2) := by
  obtain ⟨message, taken⟩ := isPiece
  have leaves : (reader.drain piece).2 = [] := by
    rw [ChunkedReader.drain_of_complete taken,
      ChunkedReader.drain_of_incomplete ChunkedReader.next_nil]
  rw [ChunkedReader.drain_append, leaves, List.nil_append]

theorem drain_pieces {pieces : List (List α)} (arePieces : ∀ piece ∈ pieces, reader.IsPiece piece)
    (more : List α) :
    reader.drain (pieces.flatten ++ more) =
      ((reader.drain pieces.flatten).1 ++ (reader.drain more).1, (reader.drain more).2) := by
  induction pieces with
  | nil => rfl
  | cons piece pieces ih =>
    rw [List.forall_mem_cons] at arePieces
    rw [List.flatten_cons, List.append_assoc, drain_piece arePieces.1,
      drain_piece arePieces.1, ih arePieces.2, List.append_assoc]

variable (reader) in
/-- A buffer is some pieces and what is left over. -/
theorem exists_pieces (buffer : List α) :
    ∃ pieces : List (List α), (∀ piece ∈ pieces, reader.IsPiece piece) ∧
      buffer = pieces.flatten ++ (reader.drain buffer).2 := by
  induction isLength : buffer.length using Nat.strongRecOn generalizing buffer with
  | ind length ih =>
    cases found : reader.next buffer with
    | incomplete =>
      refine ⟨[], by simp, ?_⟩
      rw [ChunkedReader.drain_of_incomplete found]
      rfl
    | complete message remaining =>
      have bound := reader.shorter _ _ _ found
      obtain ⟨piece, isWhole, isPiece⟩ := reader.alone _ _ _ found
      obtain ⟨pieces, arePieces, isRest⟩ :=
        ih remaining.length (by omega) remaining rfl
      refine ⟨piece :: pieces, List.forall_mem_cons.mpr ⟨⟨message, isPiece⟩, arePieces⟩, ?_⟩
      rw [ChunkedReader.drain_of_complete found, List.flatten_cons, List.append_assoc,
        ← isRest, ← isWhole]

/-- Nothing that comes behind something broken holds a message. -/
def Barren (reader : ResettingReader α β) (stream : List α) : Prop :=
  ∀ dropped lost, stream = dropped ++ lost → reader.broken dropped = true →
    (reader.drain lost).1 = []

theorem drain_nil_of_append (isBarren : (reader.drain (buffer ++ more)).1 = []) :
    (reader.drain buffer).1 = [] := by
  rw [ChunkedReader.drain_append] at isBarren
  exact (List.append_eq_nil_iff.mp isBarren).1

/-- Behind something broken no chunk brings a message. -/
theorem foldl_accept_of_barren (chunks : List (List α)) (isBroken : reader.broken dropped = true)
    (isBarren : Barren reader (dropped ++ (buffer ++ chunks.flatten))) :
    (chunks.foldl reader.accept (messages, buffer)).1 = messages := by
  induction chunks generalizing dropped buffer with
  | nil => rfl
  | cons chunk chunks ih =>
    have later : dropped ++ (buffer ++ (chunk :: chunks).flatten) =
        dropped ++ ((buffer ++ chunk) ++ chunks.flatten) := by
      rw [List.flatten_cons, List.append_assoc]
    rw [later] at isBarren
    have quiet : (reader.drain (buffer ++ chunk)).1 = [] :=
      drain_nil_of_append (isBarren _ _ rfl isBroken)
    obtain ⟨pieces, -, isWhole⟩ := exists_pieces reader (buffer ++ chunk)
    rw [List.foldl_cons, accept, ChunkedReader.receive, quiet, List.append_nil]
    split
    · refine ih (reader.broken_append dropped (buffer ++ chunk) isBroken) ?_
      rwa [List.append_assoc]
    · refine ih (reader.broken_append dropped pieces.flatten isBroken) ?_
      rwa [List.append_assoc, ← List.append_assoc pieces.flatten, ← isWhole]

theorem foldl_accept (chunks : List (List α)) (messages : List β)
    (waits : reader.next buffer = .incomplete)
    (isBarren : Barren reader (reader.drain (buffer ++ chunks.flatten)).2) :
    (chunks.foldl reader.accept (messages, buffer)).1 =
      messages ++ (reader.drain (buffer ++ chunks.flatten)).1 := by
  induction chunks generalizing messages buffer with
  | nil => simp [ChunkedReader.drain_of_incomplete waits]
  | cons chunk chunks ih =>
    have whole : reader.drain (buffer ++ (chunk :: chunks).flatten) =
        ((reader.drain (buffer ++ chunk)).1 ++
            (reader.drain ((reader.drain (buffer ++ chunk)).2 ++ chunks.flatten)).1,
          (reader.drain ((reader.drain (buffer ++ chunk)).2 ++ chunks.flatten)).2) := by
      rw [List.flatten_cons, ← List.append_assoc, ChunkedReader.drain_append]
    rw [whole] at isBarren ⊢
    rw [List.foldl_cons, accept, ChunkedReader.receive]
    split
    · rename_i isBroken
      have stays := reader.broken_waits _ (reader.broken_append _ chunks.flatten isBroken)
      rw [ChunkedReader.drain_of_incomplete stays] at isBarren ⊢
      rw [List.append_nil]
      exact foldl_accept_of_barren chunks isBroken (by rwa [List.nil_append])
    · rw [ih _ (ChunkedReader.next_drain _) isBarren, List.append_assoc]

theorem barren_of_keeps (keeps : ¬ reader.LosesMessage stream) :
    Barren reader (reader.drain stream).2 := by
  intro dropped lost isLeft isBroken
  obtain ⟨pieces, arePieces, isWhole⟩ := exists_pieces reader stream
  by_contra some
  refine keeps ⟨pieces, dropped, lost, arePieces, ?_, isBroken, some⟩
  rw [List.append_assoc, ← isLeft, ← isWhole]

/-- Without a message behind something broken, the messages are those of the whole
stream. -/
theorem acceptAll_eq_drain (keeps : ¬ reader.LosesMessage chunks.flatten) :
    (reader.acceptAll chunks).1 = (reader.drain chunks.flatten).1 := by
  rw [acceptAll, foldl_accept chunks [] ChunkedReader.next_nil (barren_of_keeps keeps)]
  rfl

/-- A stream that is read to its end has nothing broken. -/
theorem acceptAll_of_drained (drained : (reader.drain chunks.flatten).2 = []) :
    (reader.acceptAll chunks).1 = (reader.drain chunks.flatten).1 := by
  have isBarren : Barren reader (reader.drain ([] ++ chunks.flatten)).2 := by
    intro dropped lost isLeft isBroken
    rw [List.nil_append, drained] at isLeft
    rw [(List.append_eq_nil_iff.mp isLeft.symm).1, reader.broken_nil] at isBroken
    cases isBroken
  rw [acceptAll, foldl_accept chunks [] ChunkedReader.next_nil isBarren]
  rfl

/-- A message behind something broken is read when the chunks are cut in front of it,
and is not when they are not. -/
theorem chunks_matter (loses : reader.LosesMessage stream) :
    ∃ front back, stream = front ++ back ∧
      (reader.acceptAll [front, back]).1 ≠ (reader.acceptAll [stream]).1 := by
  obtain ⟨pieces, dropped, lost, arePieces, rfl, isBroken, some⟩ := loses
  refine ⟨pieces.flatten ++ dropped, lost, rfl, ?_⟩
  have front := drain_pieces arePieces dropped
  rw [ChunkedReader.drain_of_incomplete (reader.broken_waits _ isBroken), List.append_nil]
    at front
  have staysBroken := reader.broken_append dropped lost isBroken
  have whole := drain_pieces arePieces (dropped ++ lost)
  rw [ChunkedReader.drain_of_incomplete (reader.broken_waits _ staysBroken), List.append_nil,
    ← List.append_assoc] at whole
  have cut : (reader.acceptAll [pieces.flatten ++ dropped, lost]).1 =
      (reader.drain pieces.flatten).1 ++ (reader.drain lost).1 := by
    simp only [acceptAll, List.foldl_cons, List.foldl_nil, accept, ChunkedReader.receive,
      List.nil_append, front, isBroken, if_true]
  have uncut : (reader.acceptAll [pieces.flatten ++ dropped ++ lost]).1 =
      (reader.drain pieces.flatten).1 := by
    simp only [acceptAll, List.foldl_cons, List.foldl_nil, accept, ChunkedReader.receive,
      List.nil_append, whole]
  rw [cut, uncut]
  intro same
  exact some (List.append_right_eq_self.mp same)

/-- The messages of a stream do not depend on its chunks exactly when no message stands
behind something broken. -/
theorem acceptAll_independent_iff (stream : List α) :
    (∀ chunks others : List (List α), chunks.flatten = stream → others.flatten = stream →
      (reader.acceptAll chunks).1 = (reader.acceptAll others).1) ↔
      ¬ reader.LosesMessage stream := by
  constructor
  · intro independent loses
    obtain ⟨front, back, isWhole, differ⟩ := chunks_matter loses
    exact differ (independent [front, back] [stream] (by simp [isWhole]) (by simp))
  · rintro keeps chunks others rfl same
    rw [acceptAll_eq_drain keeps, acceptAll_eq_drain (by rwa [same]), same]

end ResettingReader

end OpenAgent.Library
