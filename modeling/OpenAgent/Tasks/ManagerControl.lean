import OpenAgent.Library.Collections
import OpenAgent.Tasks.TaskManager
import Mathlib.Data.List.Perm.Basic

/-!
# The control state of the task manager

Whether a stopped run stays stopped is decided by a part of the manager: the
status and epoch of the record, the live handle, the children and the frames that
wait.  The moves below are everything that a step does to that part, each with
what it needs; the invariant of the manager and the account of a stopped run are
kept by each move.
-/

namespace OpenAgent.Tasks

open Library

structure Control where
  status : TaskStatus
  epoch : Nat
  live : Option Nat
  children : List ChildHandle
  frames : List Frame

def TaskManagerState.control (state : TaskManagerState) : Control where
  status := state.record.status
  epoch := state.record.runEpoch
  live := state.liveHandle
  children := state.children
  frames := state.frames

namespace Frame

/-- The epoch of a frame that can still start a child, or end or hand over the run
of that epoch. -/
def claim : Frame → Option Nat
  | .queued _ context | .starting context | .relaunching context => some context.epoch
  | .tracking _ _ epoch | .reviving _ _ epoch => some epoch
  | .failing input => some input.epoch
  | .tearingDown _ _ (.runtimeFallback handOff) => some handOff.input.epoch
  | .tearingDown _ _ _ | .interrupting _ _ | .cancelling _ | .settling _
  | .delivering _ _ _ | .returned => none

/-- The child that a cancel will tear down when its wait is over. -/
def holds : Frame → Option Nat
  | .cancelling handle | .settling handle => some handle
  | _ => none

/-- The frames whose place depends on the state they wait in. -/
def isBound : Frame → Bool
  | .queued _ _ | .starting _ | .relaunching _ | .tearingDown _ _ _
  | .interrupting _ _ | .cancelling _ | .settling _ => true
  | .tracking _ _ _ | .failing _ | .reviving _ _ _ | .delivering _ _ _ | .returned => false

/-- The fallback that waits for the teardown of the child it replaces. -/
def handsOff : Frame → Bool
  | .tearingDown _ _ (.runtimeFallback _) => true
  | _ => false

/-- A fallback that waits for the runner. -/
def isRelaunching : Frame → Bool
  | .relaunching _ => true
  | _ => false

/-- A launch that waits for the runner. -/
def isStarting : Frame → Bool
  | .starting _ => true
  | _ => false

/-- An interrupt that waits for the abort. -/
def isInterrupting : Frame → Bool
  | .interrupting _ _ => true
  | _ => false

/-- A frame that stays in place when the run under it ends with a status. -/
def BearsEnd (status : TaskStatus) : Frame → Prop
  | .queued false _ | .starting _ => status = .cancelled
  | .relaunching _ => False
  | .tearingDown _ _ (.runtimeFallback _) => False
  | _ => True

end Frame

namespace Control

section

variable (control : Control)

def Destroyed (handle : Nat) : Prop :=
  ∃ child, control.children[handle]? = some child ∧ child.life = .destroyed

/-- No handle is live and none will be: the record is terminal and the children it
had are torn down. -/
def Gone : Prop :=
  control.live = none ∧ control.status.isTerminal = true ∧ control.children ≠ []

theorem not_gone_of_going {control : Control} (going : control.status.isTerminal = false) :
    ¬ control.Gone := by
  rintro ⟨-, ended, -⟩
  simp [going] at ended

def claims : List Nat :=
  control.frames.filterMap Frame.claim

/-- What holds while a frame waits. -/
def Fits : Frame → Prop
  | .queued false context =>
    control.children = [] ∧ control.live = none ∧ context.epoch = control.epoch ∧
      (control.status = .pending ∨ control.status = .cancelled)
  | .queued true context =>
    control.children ≠ [] ∧ control.live = none ∧
      (control.Gone ∨ context.epoch = control.epoch)
  | .starting context =>
    control.children = [] ∧ control.live = none ∧ context.epoch = control.epoch ∧
      (control.status = .running ∨ control.status = .cancelled)
  | .relaunching context =>
    control.children ≠ [] ∧ control.live = none ∧ context.epoch = control.epoch ∧
      control.status = .running
  | .tearingDown handle _ (.runtimeFallback handOff) =>
    control.Destroyed handle ∧ handOff.record.status = control.status ∧
      handOff.record.runEpoch = handOff.input.epoch ∧
      (control.live = some handle ∨ control.live = none) ∧
      (control.Gone ∨ handOff.input.epoch = control.epoch)
  | .tearingDown handle _ _ =>
    control.Destroyed handle ∧ control.status = .cancelled ∧
      (control.live = some handle ∨ control.live = none)
  | .interrupting _ record =>
    record.status = .interrupted ∧ control.status = .interrupted ∧
      (control.Gone ∨ record.runEpoch = control.epoch)
  | .cancelling handle | .settling handle =>
    control.status = .cancelled ∧ (control.live = some handle ∨ control.Destroyed handle)
  | .tracking _ _ _ | .failing _ | .reviving _ _ _ | .delivering _ _ _ | .returned => True

/-- The invariant: every waiting frame is in its place, a child that is not torn
down is the live one, the live child serves the running epoch, and no epoch is
claimed twice. -/
structure Orderly : Prop where
  fits : ∀ frame ∈ control.frames, control.Fits frame
  valid : ∀ handle, control.live = some handle → handle < control.children.length
  attached : ∀ handle child, control.children[handle]? = some child →
    child.life ≠ .destroyed → control.live = some handle
  serving : control.status = .running → ∀ handle child, control.live = some handle →
    control.children[handle]? = some child → child.run = control.epoch
  counted : control.Gone ∨ control.claims.Nodup ∧ ∀ epoch ∈ control.claims, epoch ≤ control.epoch

end

/-- A change of a child that keeps its run and undoes neither an abort nor a
teardown. -/
structure Calm (change : ChildHandle → ChildHandle) : Prop where
  run : ∀ child, (change child).run = child.run
  destroyed : ∀ child, child.life = .destroyed → (change child).life = .destroyed
  aborted : ∀ child, child.life ≠ .running → (change child).life ≠ .running

/-- Everything that a step does to the control state.  Only an explicit send makes
the last move. -/
inductive Move (sent : Prop) : Control → Control → Prop
  | drop {control : Control} {frames : List Frame} (fewer : frames.Sublist control.frames)
      (held : ∀ frame ∈ control.frames, ∀ handle, frame.holds = some handle →
        frame ∈ frames ∨ control.Destroyed handle) :
      Move sent control { control with frames := frames }
  | push {control : Control} {frame : Frame} (fits : control.Fits frame)
      (fresh : control.Gone ∨
        ∀ epoch, frame.claim = some epoch → epoch ∉ control.claims ∧ epoch ≤ control.epoch)
      (served : frame.undelivered ≠ [] → control.status = .running ∧ ∃ handle ids rest,
          frame = .delivering handle ids rest ∧ control.live = some handle) :
      Move sent control { control with frames := control.frames ++ [frame] }
  | settle {control : Control} {status : TaskStatus} (going : control.status.isTerminal = false)
      (ended : status.isTerminal = true) (bears : ∀ frame ∈ control.frames, frame.BearsEnd status) :
      Move sent control { control with status := status }
  | begin {control : Control} (waiting : control.status = .pending)
      (childless : control.children = []) (unattached : control.live = none)
      (unbound : ∀ frame ∈ control.frames, frame.isBound = false) :
      Move sent control { control with status := .running }
  | attach {control : Control} {child : ChildHandle} (unattached : control.live = none)
      (serves : child.run = control.epoch)
      (wanted : control.status = .running ∨ control.children = [] ∧ child.life = .destroyed)
      (unbound : ∀ frame ∈ control.frames, frame.isBound = false) : Move sent control
        { control with
          children := control.children ++ [child]
          live := some control.children.length }
  | forget {control : Control}
      (torn : ∀ handle, control.live = some handle → control.Destroyed handle) :
      Move sent control { control with live := none }
  | touch {control : Control} {handle : Nat} {change : ChildHandle → ChildHandle}
      (calm : Calm change) :
      Move sent control { control with children := control.children.modify handle change }
  | prompt {control : Control} {handle : Nat} (running : control.status = .running)
      (isLive : control.live = some handle) : Move sent control
        { control with children := control.children.modify handle ChildHandle.prompt }
  | deliver {control : Control} {index handle : Nat} {ids : List String}
      {entry : PendingSteeringEntry} {rest : List PendingSteeringEntry}
      (waits : control.frames[index]? = some (.delivering handle ids (entry :: rest))) :
      Move sent control
        { control with
          children := control.children.modify handle ChildHandle.prompt
          frames := control.frames.eraseIdx index ++ [.delivering handle ids rest] }
  | handOver {control : Control} {epoch : Nat}
      (torn : ∀ handle, control.live = some handle → control.Destroyed handle)
      (parent : control.children ≠ [])
      (next : control.status.isTerminal = true ∨
        epoch = control.epoch + 1 ∧ ∀ frame ∈ control.frames, frame.isBound = false) :
      Move sent control { control with live := none, epoch := epoch }
  | rewind {control : Control} {epoch : Nat} (gone : control.Gone) :
      Move sent control { control with epoch := epoch }
  | revive {control : Control} {handle : Nat} (isSent : sent) (isLive : control.live = some handle)
      (ended : control.status.isTerminal = true)
      (unbound : ∀ frame ∈ control.frames, frame.isBound = false) : Move sent control
        { control with
          status := .running
          epoch := control.epoch + 1
          children := control.children.modify handle
            (ChildHandle.serve (control.epoch + 1) ∘ ChildHandle.prompt) }

/-- Several moves in a row. -/
abbrev Moves (sent : Prop) : Control → Control → Prop :=
  Relation.ReflTransGen (Move sent)

section Placed

variable {control next : Control}

theorem fits_of_unbound (unbound : frame.isBound = false) : control.Fits frame := by
  cases frame <;> trivial

variable (fits : control.Fits frame)
include fits

/-- A frame stays in its place while status, epoch and live handle stay, and no child
comes first or comes back from its teardown. -/
theorem Fits.of_same (status : next.status = control.status) (epoch : next.epoch = control.epoch)
    (live : next.live = control.live) (childless : next.children = [] ↔ control.children = [])
    (kept : ∀ handle, control.Destroyed handle → next.Destroyed handle) : next.Fits frame := by
  have gone : control.Gone → next.Gone := by
    rintro ⟨unattached, ended, parent⟩
    exact ⟨live.trans unattached, by rwa [status], fun none => parent (childless.mp none)⟩
  cases frame with
  | queued relaunch context => cases relaunch <;> (simp_all only [Fits]; tauto)
  | starting context | relaunching context => simp_all [Fits]
  | tearingDown handle disposing caller => cases caller <;> (simp_all only [Fits]; tauto)
  | interrupting handle record => simp_all only [Fits]; tauto
  | cancelling handle | settling handle => simp_all only [Fits]; tauto
  | tracking handle model epoch | failing input | reviving handle model epoch
  | delivering handle ids rest | returned => trivial

/-- A frame that bears the end of the run stays in its place. -/
theorem Fits.of_end {status : TaskStatus} (going : control.status.isTerminal = false)
    (bears : frame.BearsEnd status) : Fits { control with status := status } frame := by
  have present := not_gone_of_going going
  cases frame with
  | queued relaunch context => cases relaunch <;> simp_all [Fits, Frame.BearsEnd]
  | starting context | relaunching context => simp_all [Fits, Frame.BearsEnd]
  | tearingDown handle disposing caller =>
    cases caller <;> simp_all [Fits, Frame.BearsEnd, TaskStatus.isTerminal]
  | interrupting handle record => simp_all [Fits, TaskStatus.isTerminal]
  | cancelling handle | settling handle => simp_all [Fits, TaskStatus.isTerminal]
  | tracking handle model epoch | failing input | reviving handle model epoch
  | delivering handle ids rest | returned => trivial

/-- A frame stays in its place when the torn down child is let go. -/
theorem Fits.of_forget (torn : ∀ handle, control.live = some handle → control.Destroyed handle) :
    Fits { control with live := none } frame := by
  have gone : control.Gone → Gone { control with live := none } :=
    fun ⟨_, ended, parent⟩ => ⟨rfl, ended, parent⟩
  cases frame with
  | queued relaunch context => cases relaunch <;> simp_all only [Fits] <;> tauto
  | starting context | relaunching context => simp_all [Fits]
  | tearingDown handle disposing caller =>
    cases caller with
    | runtimeFallback handOff =>
      obtain ⟨down, status, read, -, epoch⟩ := fits
      exact ⟨down, status, read, .inr rfl, epoch.imp gone id⟩
    | launch context | cancelTask skipAbort | afterSettlement => exact ⟨fits.1, fits.2.1, .inr rfl⟩
  | interrupting handle record => exact ⟨fits.1, fits.2.1, fits.2.2.imp gone id⟩
  | cancelling handle | settling handle => exact ⟨fits.1, .inr (fits.2.elim (torn handle) id)⟩
  | tracking handle model epoch | failing input | reviving handle model epoch
  | delivering handle ids rest | returned => trivial

/-- Where the record is terminal and no handle is live any more, the epoch of a frame
does not matter. -/
theorem Fits.of_gone {epoch : Nat} (gone : control.Gone) :
    Fits { control with epoch := epoch } frame := by
  obtain ⟨unattached, ended, parent⟩ := gone
  have stays : Gone { control with epoch := epoch } := ⟨unattached, ended, parent⟩
  cases frame with
  | queued relaunch context =>
    cases relaunch with
    | false => exact absurd fits.1 parent
    | true => exact ⟨parent, unattached, .inl stays⟩
  | starting context => exact absurd fits.1 parent
  | relaunching context =>
    rw [fits.2.2.2] at ended
    cases ended
  | tearingDown handle disposing caller =>
    cases caller with
    | runtimeFallback handOff => exact ⟨fits.1, fits.2.1, fits.2.2.1, .inr unattached, .inl stays⟩
    | launch context | cancelTask skipAbort | afterSettlement => exact fits
  | interrupting handle record => exact ⟨fits.1, fits.2.1, .inl stays⟩
  | cancelling handle | settling handle => exact fits
  | tracking handle model epoch | failing input | reviving handle model epoch
  | delivering handle ids rest | returned => trivial

end Placed

section Invariant

variable {control : Control} {frames : List Frame}

/-- Children that change in place, each keeping its run and its teardown. -/
structure Reshapes (change : ChildHandle → ChildHandle) : Prop where
  run : ∀ child, (change child).run = child.run
  destroyed : ∀ child, child.life = .destroyed → (change child).life = .destroyed

theorem Calm.reshapes (calm : Calm change) : Reshapes change :=
  ⟨calm.run, calm.destroyed⟩

theorem reshapes_prompt : Reshapes ChildHandle.prompt where
  run := fun _ => rfl
  destroyed := fun child down => by simp [ChildHandle.prompt, down]

/-- A child of the changed list comes from one of the old list. -/
theorem exists_of_modify {children : List ChildHandle}
    (found : (children.modify handle change)[other]? = some child) :
    ∃ before, children[other]? = some before ∧
      child = if handle = other then change before else before := by
  rw [List.getElem?_modify] at found
  cases old : children[other]? with
  | none => simp [old] at found
  | some before =>
    refine ⟨before, rfl, ?_⟩
    rw [old] at found
    split_ifs at found ⊢ with same <;> simpa using found.symm

theorem destroyed_modify
    (keeps : ∀ child, child.life = .destroyed → (change child).life = .destroyed)
    (down : control.Destroyed handle) :
    Destroyed { control with children := control.children.modify other change } handle := by
  obtain ⟨child, found, isDown⟩ := down
  by_cases same : other = handle
  · refine ⟨change child, ?_, keeps child isDown⟩
    simp [same, found]
  · refine ⟨child, ?_, isDown⟩
    simp [same, found]

theorem modify_eq_nil_iff {children : List ChildHandle} :
    children.modify handle change = [] ↔ children = [] := by
  rw [← List.length_eq_zero_iff, List.length_modify, List.length_eq_zero_iff]

section

variable (orderly : control.Orderly)
include orderly

theorem Orderly.of_frames (fits : ∀ frame ∈ frames, control.Fits frame)
    (counted : control.Gone ∨ (frames.filterMap Frame.claim).Nodup ∧
      ∀ epoch ∈ frames.filterMap Frame.claim, epoch ≤ control.epoch) :
    Orderly { control with frames := frames } where
  __ := orderly
  fits := fun frame member =>
    (fits frame member).of_same rfl rfl rfl Iff.rfl fun _ down => down
  counted := counted

theorem Orderly.drop (fewer : frames.Sublist control.frames) :
    Orderly { control with frames := frames } := by
  have claims := fewer.filterMap Frame.claim
  refine orderly.of_frames (fun frame member => orderly.fits frame (fewer.subset member)) ?_
  exact orderly.counted.imp id fun ⟨nodup, bounded⟩ =>
    ⟨nodup.sublist claims, fun epoch member => bounded epoch (claims.subset member)⟩

theorem Orderly.push (fits : control.Fits frame)
    (fresh : control.Gone ∨
      ∀ epoch, frame.claim = some epoch → epoch ∉ control.claims ∧ epoch ≤ control.epoch) :
    Orderly { control with frames := control.frames ++ [frame] } := by
  apply orderly.of_frames
  · exact forall_mem_concat orderly.fits fits
  · rcases orderly.counted with gone | ⟨nodup, bounded⟩
    · exact .inl gone
    rcases fresh with gone | fresh
    · exact .inl gone
    refine .inr ?_
    rw [List.filterMap_append]
    cases claimed : frame.claim with
    | none =>
      rw [show List.filterMap Frame.claim [frame] = [] by simp [claimed], List.append_nil]
      exact ⟨nodup, bounded⟩
    | some epoch =>
      obtain ⟨unclaimed, inTime⟩ := fresh epoch claimed
      have last : List.filterMap Frame.claim [frame] = [epoch] := by simp [claimed]
      rw [last]
      exact ⟨nodup_append_singleton nodup unclaimed, forall_mem_concat bounded inTime⟩

theorem Orderly.reshape (handle : Nat) (reshapes : Reshapes change) :
    Orderly { control with children := control.children.modify handle change } where
  fits := fun frame member =>
    (orderly.fits frame member).of_same rfl rfl rfl modify_eq_nil_iff
      fun _ down => destroyed_modify reshapes.destroyed down
  valid := fun other isLive => by
    simpa using orderly.valid other isLive
  attached := by
    intro other child found alive
    obtain ⟨before, old, rfl⟩ := exists_of_modify found
    apply orderly.attached other before old
    intro down
    apply alive
    split_ifs
    · exact reshapes.destroyed before down
    · exact down
  serving := by
    intro running other child isLive found
    obtain ⟨before, old, rfl⟩ := exists_of_modify found
    rw [← orderly.serving running other before isLive old]
    split_ifs
    · exact reshapes.run before
    · rfl
  counted := orderly.counted.imp
    (fun ⟨unattached, ended, parent⟩ =>
      ⟨unattached, ended, fun none => parent (modify_eq_nil_iff.mp none)⟩) id

theorem Orderly.settle {status : TaskStatus} (going : control.status.isTerminal = false)
    (ended : status.isTerminal = true) (bears : ∀ frame ∈ control.frames, frame.BearsEnd status) :
    Orderly { control with status := status } where
  __ := orderly
  fits := fun frame member =>
    (orderly.fits frame member).of_end going (bears frame member)
  serving := by
    intro running
    rw [show status = .running from running] at ended
    cases ended
  counted := orderly.counted.imp
    (fun ⟨unattached, _, parent⟩ => ⟨unattached, ended, parent⟩) id

theorem Orderly.begin (waiting : control.status = .pending) (unattached : control.live = none)
    (unbound : ∀ frame ∈ control.frames, frame.isBound = false) :
    Orderly { control with status := .running } where
  __ := orderly
  fits := fun frame member => fits_of_unbound (unbound frame member)
  serving := by
    intro _ handle child isLive
    rw [show control.live = some handle from isLive] at unattached
    cases unattached
  counted := by
    rcases orderly.counted with ⟨-, ended, -⟩ | counted
    · rw [waiting] at ended
      cases ended
    · exact .inr counted

theorem Orderly.attach (unattached : control.live = none) (serves : child.run = control.epoch)
    (wanted : control.status = .running ∨ control.children = [] ∧ child.life = .destroyed)
    (unbound : ∀ frame ∈ control.frames, frame.isBound = false) :
    Orderly
      { control with
        children := control.children ++ [child]
        live := some control.children.length } where
  fits := fun frame member => fits_of_unbound (unbound frame member)
  valid := by
    simp
  attached := by
    intro handle other found alive
    rw [List.getElem?_append] at found
    split_ifs at found with earlier
    · rw [orderly.attached handle other found alive] at unattached
      cases unattached
    · have last : handle - control.children.length = 0 := by
        by_contra later
        rw [List.getElem?_eq_none (by simp; omega)] at found
        cases found
      exact congrArg some (by omega)
  serving := by
    intro _ handle other isLive found
    cases isLive
    rw [List.getElem?_concat_length] at found
    cases found
    exact serves
  counted := by
    rcases orderly.counted with ⟨-, ended, parent⟩ | counted
    · rcases wanted with running | ⟨childless, -⟩
      · rw [running] at ended
        cases ended
      · exact absurd childless parent
    · exact .inr counted

theorem Orderly.forget (torn : ∀ handle, control.live = some handle → control.Destroyed handle) :
    Orderly { control with live := none } where
  fits := fun frame member => (orderly.fits frame member).of_forget torn
  valid := fun _ isLive => nomatch isLive
  attached := by
    intro handle child found alive
    obtain ⟨other, same, down⟩ := torn handle (orderly.attached handle child found alive)
    rw [show control.children[handle]? = some child from found] at same
    cases same
    exact absurd down alive
  serving := fun _ _ _ isLive => nomatch isLive
  counted := orderly.counted.imp (fun ⟨_, ended, parent⟩ => ⟨rfl, ended, parent⟩) id

theorem Orderly.rewind {epoch : Nat} (gone : control.Gone) :
    Orderly { control with epoch := epoch } where
  __ := orderly
  fits := fun frame member => (orderly.fits frame member).of_gone gone
  serving := by
    intro running
    have ended := gone.2.1
    rw [show control.status = .running from running] at ended
    cases ended
  counted := .inl gone

theorem Orderly.handOver {epoch : Nat}
    (torn : ∀ handle, control.live = some handle → control.Destroyed handle)
    (parent : control.children ≠ [])
    (next : control.status.isTerminal = true ∨
      epoch = control.epoch + 1 ∧ ∀ frame ∈ control.frames, frame.isBound = false) :
    Orderly { control with live := none, epoch := epoch } := by
  have forgotten := orderly.forget torn
  rcases next with ended | ⟨rfl, unbound⟩
  · exact forgotten.rewind ⟨rfl, ended, parent⟩
  · exact {
      fits := fun frame member => fits_of_unbound (unbound frame member)
      valid := forgotten.valid
      attached := forgotten.attached
      serving := fun _ _ _ isLive => nomatch isLive
      counted := forgotten.counted.imp id fun ⟨nodup, bounded⟩ =>
        ⟨nodup, fun epoch member => Nat.le_succ_of_le (bounded epoch member)⟩ }

theorem Orderly.revive (isLive : control.live = some handle)
    (unbound : ∀ frame ∈ control.frames, frame.isBound = false) :
    Orderly
      { control with
        status := .running
        epoch := control.epoch + 1
        children := control.children.modify handle
          (ChildHandle.serve (control.epoch + 1) ∘ ChildHandle.prompt) } where
  fits := fun frame member => fits_of_unbound (unbound frame member)
  valid := fun other isLive => by
    simpa using orderly.valid other isLive
  attached := by
    intro other child found alive
    obtain ⟨before, old, rfl⟩ := exists_of_modify found
    apply orderly.attached other before old
    intro down
    apply alive
    split_ifs
    · exact reshapes_prompt.destroyed before down
    · exact down
  serving := by
    intro _ other child otherLive found
    obtain ⟨before, old, rfl⟩ := exists_of_modify found
    have same : handle = other := Option.some.inj (isLive.symm.trans otherLive)
    rw [if_pos same]
    rfl
  counted := by
    rcases orderly.counted with ⟨unattached, -, -⟩ | ⟨nodup, bounded⟩
    · rw [isLive] at unattached
      cases unattached
    · exact .inr ⟨nodup, fun epoch member => Nat.le_succ_of_le (bounded epoch member)⟩

end

/-- Each move keeps the invariant. -/
theorem Move.orderly (move : Move sent control next) (orderly : control.Orderly) :
    next.Orderly := by
  cases move with
  | drop fewer held => exact orderly.drop fewer
  | push fits fresh served => exact orderly.push fits fresh
  | settle going ended bears => exact orderly.settle going ended bears
  | begin waiting childless unattached unbound => exact orderly.begin waiting unattached unbound
  | attach unattached serves wanted unbound => exact orderly.attach unattached serves wanted unbound
  | forget torn => exact orderly.forget torn
  | touch calm => exact orderly.reshape _ calm.reshapes
  | prompt running isLive => exact orderly.reshape _ reshapes_prompt
  | @deliver index handle _ _ _ waits =>
    have prompted := orderly.reshape handle reshapes_prompt
    have taken := prompted.drop (List.eraseIdx_sublist control.frames index)
    exact taken.push trivial (.inr fun _ claimed => nomatch claimed)
  | handOver torn parent next => exact orderly.handOver torn parent next
  | rewind gone => exact orderly.rewind gone
  | revive isSent isLive ended unbound => exact orderly.revive isLive unbound

theorem Moves.orderly (moves : Moves sent control next) (orderly : control.Orderly) :
    next.Orderly := by
  induction moves with
  | refl => exact orderly
  | tail _ move kept => exact move.orderly kept

/-- Without a send a terminal status stays what it is. -/
theorem Move.status_of_terminal (move : Move sent control next) (unsent : ¬ sent)
    (ended : control.status.isTerminal = true) : next.status = control.status := by
  cases move with
  | settle going _ _ => simp [going] at ended
  | begin waiting _ _ _ => simp [waiting, TaskStatus.isTerminal] at ended
  | revive isSent _ _ _ => exact absurd isSent unsent
  | _ => rfl

theorem Moves.status_of_terminal (moves : Moves sent control next) (unsent : ¬ sent)
    (ended : control.status.isTerminal = true) : next.status = control.status := by
  induction moves with
  | refl => rfl
  | tail _ move same => rw [move.status_of_terminal unsent (by rwa [same]), same]

end Invariant

section Taken

variable {control : Control} {frame : Frame}

/-- The control state with one frame on its way. -/
def take (control : Control) (index : Nat) : Control :=
  { control with frames := control.frames.eraseIdx index }

/-- The claim of a frame on its way is nobody else's. -/
theorem Orderly.unclaimed_take {epoch : Nat} (orderly : control.Orderly)
    (found : control.frames[index]? = some frame) (claimed : frame.claim = some epoch) :
    control.Gone ∨ epoch ∉ (control.take index).claims ∧ epoch ≤ control.epoch := by
  obtain ⟨inRange, rfl⟩ := List.getElem?_eq_some_iff.mp found
  have perm := (List.getElem_cons_eraseIdx_perm inRange).filterMap Frame.claim
  rw [List.filterMap_cons_some claimed] at perm
  refine orderly.counted.imp id fun ⟨nodup, bounded⟩ => ⟨?_, ?_⟩
  · exact (List.nodup_cons.mp (perm.nodup_iff.mpr nodup)).1
  · exact bounded epoch (perm.subset List.mem_cons_self)

theorem drop_take (found : control.frames[index]? = some frame)
    (held : ∀ handle, frame.holds = some handle → control.Destroyed handle) :
    Move sent control (control.take index) := by
  apply Move.drop (List.eraseIdx_sublist control.frames index)
  intro other member handle holds
  obtain ⟨inRange, rfl⟩ := List.getElem?_eq_some_iff.mp found
  rcases List.mem_cons.mp
    ((List.getElem_cons_eraseIdx_perm inRange).mem_iff.mpr member) with rfl | stays
  · exact .inr (held handle holds)
  · exact .inl stays

theorem Orderly.take (orderly : control.Orderly) (index : Nat) : (control.take index).Orderly :=
  orderly.drop (List.eraseIdx_sublist control.frames index)

/-- While the run goes on, the frame that claims its epoch is the only one that is
bound to it. -/
theorem Orderly.unbound_of_unclaimed (orderly : control.Orderly)
    (ends : control.status.isTerminal = false ∨
      control.status = .cancelled ∧ control.children = [] ∧ control.live = none)
    (unclaimed : control.epoch ∉ control.claims) :
    ∀ frame ∈ control.frames, frame.isBound = false := by
  intro frame member
  have fits := orderly.fits frame member
  have other : frame.claim ≠ some control.epoch := fun claimed =>
    unclaimed (List.mem_filterMap.mpr ⟨frame, member, claimed⟩)
  have present : ¬control.Gone := by
    rcases ends with going | ⟨-, childless, -⟩
    · exact not_gone_of_going going
    · exact fun gone => gone.2.2 childless
  cases frame with
  | queued relaunch context => cases relaunch <;> simp_all [Fits, Frame.claim]
  | starting context | relaunching context => simp_all [Fits, Frame.claim]
  | tearingDown handle disposing caller =>
    rcases ends with going | ⟨cancelled, childless, -⟩ <;>
      cases caller <;> simp_all [Fits, Destroyed, Frame.claim, TaskStatus.isTerminal]
  | interrupting handle record =>
    rcases ends with going | ⟨cancelled, -, unattached⟩ <;> simp_all [Fits, TaskStatus.isTerminal]
  | cancelling handle | settling handle =>
    rcases ends with going | ⟨cancelled, childless, unattached⟩ <;>
      simp_all [Fits, Destroyed, TaskStatus.isTerminal]
  | tracking handle model epoch | failing input | reviving handle model epoch
  | delivering handle ids rest | returned => rfl

theorem bearsEnd_of_unbound {status : TaskStatus} (unbound : frame.isBound = false) :
    frame.BearsEnd status := by
  cases frame <;> trivial

end Taken

end Control

end OpenAgent.Tasks
