import Mathlib.Data.Finset.Card
import Mathlib.Data.NNRat.Floor
import OpenAgent.Background.ConcurrencyManager
import OpenAgent.Library.Execution

/-!
# The slots of a concurrency key

A slot is counted from the call of `acquire` that got it until its holder releases it, and a
release hands it on to the first waiter.  The counts are right as long as all models with one
key have one limit, and the limits are whole numbers.
-/

namespace OpenAgent.Background

open Library

namespace ConcurrencyManager

/-- The calls that the claimants of slots make. -/
inductive Call
  | acquire (model : Name) (taskId : Option TaskId)
  /-- The holder of a ticket releases its slot, under any name that has its key. -/
  | release (ticket : Ticket) (model : Name)
  | cancelWaiter (model : Name) (taskId : TaskId)
  | cancelWaiters (model : Name)

/-- The manager with what its callers have: the model that each ticket was asked for, and the
tickets whose slot was released. -/
structure Usage where
  manager : ConcurrencyManager
  models : Ticket → Name
  returned : List Ticket

namespace Usage

def start : Usage where
  manager := .empty
  models := fun _ => []
  returned := []

variable (config : BackgroundTaskConfig) (usage : Usage)

section

variable (ticket : Ticket)

/-- The key of a ticket. -/
def keyOf : Name :=
  config.concurrencyKey (usage.models ticket)

/-- A ticket that was granted, and whose slot was not released. -/
def Holds : Prop :=
  ticket < usage.manager.nextTicket ∧ usage.manager.tickets ticket = .granted ∧
    ticket ∉ usage.returned

/-- A ticket whose promise is not settled. -/
def Waits : Prop :=
  ticket < usage.manager.nextTicket ∧ usage.manager.tickets ticket = .waiting

instance  : Decidable (usage.Holds ticket) :=
  inferInstanceAs (Decidable (_ ∧ _ ∧ _))

end

/-- The current holders of a key. -/
def holders (key : Name) : Finset Ticket :=
  (Finset.range usage.manager.nextTicket).filter fun ticket =>
    usage.Holds ticket ∧ usage.keyOf config ticket = key

/-- One call. -/
def step : Call → Option Usage
  | .acquire model taskId =>
    some { usage with
      manager := usage.manager.acquire config model taskId
      models := Function.update usage.models usage.manager.nextTicket model }
  | .release ticket model =>
    if usage.Holds ticket ∧ config.concurrencyKey model = usage.keyOf config ticket then
      some { usage with
        manager := usage.manager.release config model
        returned := ticket :: usage.returned }
    else none
  | .cancelWaiter model taskId =>
    some { usage with manager := usage.manager.cancelWaiter config model taskId }
  | .cancelWaiters model =>
    some { usage with manager := usage.manager.cancelWaiters config model }

end Usage

section

variable (config : BackgroundTaskConfig)

/-- A key with a finite limit, which is the limit of a model with this key. -/
def Bound (key : Name) (limit : ℚ≥0) : Prop :=
  ∃ model, config.concurrencyKey model = key ∧ config.concurrencyLimit model = some limit

/-- What the manager keeps of its slots. -/
structure SlotsKept (usage : Usage) : Prop where
  counted : ∀ key limit, Bound config key limit →
    usage.manager.counts key = (usage.holders config key).card
  limited : ∀ key limit, Bound config key limit → (usage.manager.counts key : ℚ≥0) ≤ limit
  full : ∀ key limit ticket, Bound config key limit → usage.Waits ticket →
    usage.keyOf config ticket = key → (usage.manager.counts key : ℚ≥0) = limit
  inTurn : ∀ key limit earlier later, Bound config key limit → earlier < later →
    usage.keyOf config earlier = key → usage.keyOf config later = key →
    usage.manager.tickets later = .granted → usage.manager.tickets earlier ≠ .waiting
  grantsInOrder : ∀ key limit, Bound config key limit →
    (usage.manager.settlements.filter fun ticket =>
      usage.manager.tickets ticket = .granted ∧ usage.keyOf config ticket = key).Pairwise (· < ·)
  queued : ∀ ticket, usage.Waits ticket →
    ∃ entry ∈ usage.manager.queues (usage.keyOf config ticket),
      entry.ticket = ticket ∧ entry.settled = false
  settledOnce : ∀ ticket < usage.manager.nextTicket, usage.manager.settlements.count ticket =
    if usage.manager.tickets ticket = .waiting then 0 else 1

/-- All models with one key have one limit. -/
def OneLimit : Prop :=
  ∀ model other, config.concurrencyKey model = config.concurrencyKey other →
    config.concurrencyLimit model = config.concurrencyLimit other

/-- The finite limits are whole numbers. -/
def WholeLimits : Prop :=
  ∀ model limit, config.concurrencyLimit model = some limit → ∃ whole : Nat, limit = whole

end

variable {config : BackgroundTaskConfig}

theorem OneLimit.eq_of_bound (oneLimit : OneLimit config)
    (isLimit : config.concurrencyLimit model = some limit)
    (bound : Bound config (config.concurrencyKey model) other) : other = limit := by
  obtain ⟨same, isKey, isOther⟩ := bound
  exact Option.some.inj (isOther.symm.trans ((oneLimit same model isKey).trans isLimit))

variable {usage : Usage} {key : Name} {entry : QueueEntry} {front back : List QueueEntry}

namespace Usage

/-- The waiting tickets are those of the queues, each queue in the order of its tickets. -/
structure Queued (config : BackgroundTaskConfig) (usage : Usage) : Prop where
  live : ∀ key, ∀ entry ∈ usage.manager.queues key,
    entry.settled = false ∧ usage.Waits entry.ticket ∧ usage.keyOf config entry.ticket = key
  ascending : ∀ key, (usage.manager.queues key).Pairwise fun first second =>
    first.ticket < second.ticket
  waits : ∀ ticket, usage.Waits ticket →
    ∃ entry ∈ usage.manager.queues (usage.keyOf config ticket), entry.ticket = ticket
  fresh : ∀ ticket, usage.manager.nextTicket ≤ ticket → usage.manager.tickets ticket = .waiting
  once : ∀ ticket, usage.manager.settlements.count ticket =
    if usage.manager.tickets ticket = .waiting then 0 else 1
  returned : ∀ ticket ∈ usage.returned, usage.manager.tickets ticket = .granted

/-- The counts are those of the holders, and grants follow the order of the tickets. -/
structure Accounted (config : BackgroundTaskConfig) (usage : Usage) : Prop where
  counted : ∀ key limit, Bound config key limit →
    usage.manager.counts key = (usage.holders config key).card
  limited : ∀ key limit, Bound config key limit → (usage.manager.counts key : ℚ≥0) ≤ limit
  full : ∀ key limit, Bound config key limit → usage.manager.queues key ≠ [] →
    (usage.manager.counts key : ℚ≥0) = limit
  behind : ∀ key limit granted waiting, Bound config key limit →
    usage.manager.tickets granted = .granted → usage.keyOf config granted = key →
    usage.Waits waiting → usage.keyOf config waiting = key → granted < waiting
  grants : ∀ key limit, Bound config key limit →
    (usage.manager.settlements.filter fun ticket =>
      usage.manager.tickets ticket = .granted ∧ usage.keyOf config ticket = key).Pairwise (· < ·)

theorem mem_holders :
    ticket ∈ usage.holders config key ↔ usage.Holds ticket ∧ usage.keyOf config ticket = key := by
  simp only [holders, Finset.mem_filter, Finset.mem_range, and_iff_right_iff_imp]
  exact fun held => held.1.1

theorem slotsKept (queued : usage.Queued config) (accounted : usage.Accounted config) :
    SlotsKept config usage where
  __ := accounted
  full := by
    intro key limit ticket bound waits isKey
    obtain ⟨entry, member, _⟩ := queued.waits ticket waits
    exact accounted.full key limit bound (List.ne_nil_of_mem (isKey ▸ member))
  inTurn := by
    intro key limit earlier later bound before earlierKey laterKey granted waiting
    have issued : later < usage.manager.nextTicket := by
      by_contra late
      have fresh := queued.fresh later (Nat.le_of_not_lt late)
      exact nomatch fresh.symm.trans granted
    have order := accounted.behind key limit later earlier bound granted laterKey
      ⟨before.trans issued, waiting⟩ earlierKey
    exact absurd before (Nat.lt_asymm order)
  grantsInOrder := accounted.grants
  queued := by
    intro ticket waits
    obtain ⟨entry, member, isTicket⟩ := queued.waits ticket waits
    exact ⟨entry, member, isTicket, (queued.live _ entry member).1⟩
  settledOnce := fun ticket _ => queued.once ticket

theorem queued_start : start.Queued config where
  live := nofun
  ascending := fun _ => .nil
  waits := fun ticket waits => absurd waits.1 (Nat.not_lt_zero ticket)
  fresh := fun _ _ => rfl
  once := fun _ => rfl
  returned := nofun

theorem accounted_start : start.Accounted config where
  counted := fun _ _ _ => rfl
  limited := by simp [start, empty]
  full := fun _ _ _ notEmpty => absurd rfl notEmpty
  behind := fun _ _ _ waiting _ _ _ waits _ => absurd waits.1 (Nat.not_lt_zero waiting)
  grants := fun _ _ _ => .nil

/-- An entry leaves its queue, and its promise is settled. -/
def leave (usage : Usage) (key : Name) (entry : QueueEntry) (rest : List QueueEntry)
    (state : TicketState) : Usage :=
  { usage with manager := (usage.manager.setQueue key rest).settle entry.ticket state }

/-- A holder has released its slot. -/
def giveBack (usage : Usage) (ticket : Ticket) : Usage :=
  { usage with returned := ticket :: usage.returned }

theorem Queued.split (queued : usage.Queued config)
    (isQueue : usage.manager.queues key = front ++ entry :: back) :
    (∀ other ∈ front, other.ticket < entry.ticket) ∧
      ∀ other ∈ back, entry.ticket < other.ticket := by
  have ascending := isQueue ▸ queued.ascending key
  rw [List.pairwise_append] at ascending
  obtain ⟨_, later, across⟩ := ascending
  exact ⟨fun other member => across other member entry List.mem_cons_self,
    (List.pairwise_cons.mp later).1⟩

theorem waits_leave :
    (usage.leave key entry rest state).Waits ticket ↔ ticket < usage.manager.nextTicket ∧
        (if ticket = entry.ticket then state else usage.manager.tickets ticket) = .waiting := by
  simp [Waits, leave, settle, setQueue, Function.update_apply]

theorem of_waits_leave (waits : (usage.leave key entry rest state).Waits ticket)
    (settles : state ≠ .waiting) : ticket ≠ entry.ticket ∧ usage.Waits ticket := by
  rw [waits_leave] at waits
  by_cases same : ticket = entry.ticket
  · exact absurd (by simpa [same] using waits.2) settles
  · exact ⟨same, waits.1, by simpa [same] using waits.2⟩

theorem Queued.leave (queued : usage.Queued config)
    (isQueue : usage.manager.queues key = front ++ entry :: back) (settles : state ≠ .waiting) :
    (usage.leave key entry (front ++ back) state).Queued config := by
  obtain ⟨infront, behind⟩ := queued.split isQueue
  have member : entry ∈ usage.manager.queues key := isQueue ▸ List.mem_append_cons_self
  obtain ⟨isLive, waiting, isKey⟩ := queued.live key entry member
  have differs : ∀ other ∈ front ++ back, other.ticket ≠ entry.ticket := by
    intro other kept
    rcases List.mem_append.mp kept with kept | kept
    · exact (infront other kept).ne
    · exact (behind other kept).ne'
  have kept : ∀ other, other ∈ front ++ back → other ∈ usage.manager.queues key := by
    rw [isQueue]
    simp only [List.mem_append]
    tauto
  have stays : ∀ ticket, ticket ≠ entry.ticket → usage.Waits ticket →
      (usage.leave key entry (front ++ back) state).Waits ticket := by
    intro ticket other waits
    rw [waits_leave, if_neg other]
    exact waits
  constructor
  · intro other found isFound
    by_cases same : other = key
    · subst same
      simp only [Usage.leave, settle, setQueue, Function.update_self] at isFound
      obtain ⟨live, waits, keyed⟩ := queued.live other found (kept found isFound)
      exact ⟨live, stays _ (differs found isFound) waits, keyed⟩
    · simp only [Usage.leave, settle, setQueue, Function.update_of_ne same] at isFound
      obtain ⟨live, waits, keyed⟩ := queued.live other found isFound
      refine ⟨live, stays _ ?_ waits, keyed⟩
      intro shared
      exact same (keyed.symm.trans ((congrArg (usage.keyOf config) shared).trans isKey))
  · intro other
    by_cases same : other = key
    · subst same
      simp only [Usage.leave, settle, setQueue, Function.update_self]
      exact (isQueue ▸ queued.ascending other).sublist
        ((List.sublist_cons_self entry back).append_left front)
    · simp only [Usage.leave, settle, setQueue, Function.update_of_ne same]
      exact queued.ascending other
  · intro ticket waits
    obtain ⟨other, before⟩ := of_waits_leave waits settles
    obtain ⟨found, isFound, isTicket⟩ := queued.waits ticket before
    refine ⟨found, ?_, isTicket⟩
    change found ∈ Function.update usage.manager.queues key (front ++ back)
      (usage.keyOf config ticket)
    by_cases same : usage.keyOf config ticket = key
    · rw [same, Function.update_self]
      rw [same, isQueue] at isFound
      simp only [List.mem_append, List.mem_cons] at isFound ⊢
      rcases isFound with first | rfl | second
      · exact .inl first
      · exact absurd isTicket.symm other
      · exact .inr second
    · rw [Function.update_of_ne same]
      exact isFound
  · intro ticket late
    have other : ticket ≠ entry.ticket := by
      rintro rfl
      exact absurd waiting.1 (Nat.not_lt.mpr late)
    simp only [Usage.leave, settle, Function.update_of_ne other]
    exact queued.fresh ticket late
  · intro ticket
    simp only [Usage.leave, settle, setQueue, List.count_append, queued.once ticket]
    by_cases same : ticket = entry.ticket
    · subst same
      simp [waiting.2, settles]
    · simp [Function.update_of_ne same, Ne.symm same]
  · intro ticket isReturned
    have granted := queued.returned ticket isReturned
    have other : ticket ≠ entry.ticket := by
      rintro rfl
      exact nomatch granted.symm.trans waiting.2
    simp only [Usage.leave, settle, Function.update_of_ne other]
    exact granted

variable {ticket : Ticket}

theorem Queued.giveBack (queued : usage.Queued config)
    (granted : usage.manager.tickets ticket = .granted) :
    (usage.giveBack ticket).Queued config where
  __ := queued
  returned := by
    intro other member
    rcases List.mem_cons.mp member with rfl | member
    · exact granted
    · exact queued.returned other member

/-- A call of `acquire` that gets its slot at once. -/
def seat (usage : Usage) (model : Name) : Usage :=
  { usage with
    manager := usage.manager.issue.settle usage.manager.nextTicket .granted
    models := Function.update usage.models usage.manager.nextTicket model }

/-- A call of `acquire` that waits for its slot. -/
def enqueue (config : BackgroundTaskConfig) (usage : Usage) (model : Name)
    (taskId : Option TaskId) : Usage :=
  let key := config.concurrencyKey model
  { usage with
    manager := usage.manager.issue.setQueue key (usage.manager.queues key ++
        [{ ticket := usage.manager.nextTicket, taskId, settled := false }])
    models := Function.update usage.models usage.manager.nextTicket model }

/-- A new count of a key. -/
def recount (usage : Usage) (key : Name) (count : Nat) : Usage :=
  { usage with manager := usage.manager.setCount key count }

theorem keyOf_seat : (usage.seat model).keyOf config ticket =
      if ticket = usage.manager.nextTicket then config.concurrencyKey model
      else usage.keyOf config ticket := by
  simp only [keyOf, seat, Function.update_apply]
  split <;> rfl

theorem keyOf_enqueue : (usage.enqueue config model taskId).keyOf config ticket =
      if ticket = usage.manager.nextTicket then config.concurrencyKey model
      else usage.keyOf config ticket :=
  keyOf_seat

theorem waits_seat {model : Name} {ticket : Ticket} :
    (usage.seat model).Waits ticket ↔ usage.Waits ticket := by
  simp only [Waits, seat, settle, issue]
  grind

section

variable (queued : usage.Queued config)
include queued

theorem waits_enqueue :
    (usage.enqueue config model taskId).Waits ticket ↔
      usage.Waits ticket ∨ ticket = usage.manager.nextTicket := by
  have fresh := queued.fresh usage.manager.nextTicket le_rfl
  constructor
  · rintro ⟨issued, waiting⟩
    rcases Nat.lt_succ_iff_lt_or_eq.mp issued with issued | rfl
    · exact .inl ⟨issued, waiting⟩
    · exact .inr rfl
  · rintro (⟨issued, waiting⟩ | rfl)
    · exact ⟨issued.trans (Nat.lt_succ_self _), waiting⟩
    · exact ⟨Nat.lt_succ_self _, fresh⟩

theorem Queued.enqueue (model : Name) (taskId : Option TaskId) :
    (usage.enqueue config model taskId).Queued config := by
  have keyed : ∀ ticket, usage.Waits ticket →
      (usage.enqueue config model taskId).keyOf config ticket = usage.keyOf config ticket := by
    intro ticket waits
    rw [keyOf_enqueue, if_neg waits.1.ne]
  have keeps : ∀ other, ∀ entry ∈ usage.manager.queues other,
      entry.settled = false ∧ (usage.enqueue config model taskId).Waits entry.ticket ∧
        (usage.enqueue config model taskId).keyOf config entry.ticket = other := by
    intro other entry member
    obtain ⟨live, waits, isKey⟩ := queued.live other entry member
    exact ⟨live, (waits_enqueue queued).mpr (.inl waits), (keyed _ waits).trans isKey⟩
  constructor
  · intro other entry member
    by_cases same : other = config.concurrencyKey model
    · subst same
      simp only [Usage.enqueue, setQueue, Function.update_self, List.mem_append,
        List.mem_singleton] at member
      rcases member with member | rfl
      · exact keeps _ entry member
      · exact ⟨rfl, (waits_enqueue queued).mpr (.inr rfl), by rw [keyOf_enqueue, if_pos rfl]⟩
    · simp only [Usage.enqueue, setQueue, Function.update_of_ne same] at member
      exact keeps other entry member
  · intro other
    by_cases same : other = config.concurrencyKey model
    · subst same
      simp only [Usage.enqueue, setQueue, Function.update_self]
      rw [List.pairwise_append]
      refine ⟨queued.ascending _, List.pairwise_singleton _ _, ?_⟩
      intro first isFirst second isSecond
      cases List.mem_singleton.mp isSecond
      exact (queued.live _ first isFirst).2.1.1
    · simp only [Usage.enqueue, setQueue, Function.update_of_ne same]
      exact queued.ascending other
  · intro ticket waits
    rcases (waits_enqueue queued).mp waits with before | rfl
    · obtain ⟨entry, member, isTicket⟩ := queued.waits ticket before
      rw [keyed ticket before]
      refine ⟨entry, ?_, isTicket⟩
      by_cases same : usage.keyOf config ticket = config.concurrencyKey model
      · rw [same] at member ⊢
        simp only [Usage.enqueue, setQueue, Function.update_self]
        exact List.mem_append_left _ member
      · simp only [Usage.enqueue, setQueue, Function.update_of_ne same]
        exact member
    · rw [keyOf_enqueue]
      simp [Usage.enqueue, setQueue]
  · exact fun ticket late => queued.fresh ticket (Nat.le_of_succ_le late)
  · exact queued.once
  · exact queued.returned

/-- Getting a slot at once is waiting for no time. -/
theorem Queued.seat (model : Name) : (usage.seat model).Queued config := by
  have isQueue : (usage.enqueue config model none).manager.queues (config.concurrencyKey model) =
      usage.manager.queues (config.concurrencyKey model) ++
        [⟨usage.manager.nextTicket, none, false⟩] :=
    Function.update_self ..
  have granted : TicketState.granted ≠ .waiting := nofun
  have same : usage.seat model = (usage.enqueue config model none).leave
      (config.concurrencyKey model) ⟨usage.manager.nextTicket, none, false⟩
      (usage.manager.queues (config.concurrencyKey model) ++ []) .granted := by
    simp [Usage.seat, Usage.enqueue, Usage.leave, setQueue, issue]
  exact same ▸ (queued.enqueue model none).leave isQueue granted

theorem Queued.recount (key : Name) (count : Nat) : (usage.recount key count).Queued config :=
  ⟨queued.live, queued.ascending, queued.waits, queued.fresh, queued.once, queued.returned⟩

theorem Queued.issued_of_granted (granted : usage.manager.tickets ticket = .granted) :
    ticket < usage.manager.nextTicket := by
  by_contra late
  exact nomatch (queued.fresh ticket (Nat.le_of_not_lt late)).symm.trans granted

theorem Queued.not_mem_settlements (waiting : usage.manager.tickets ticket = .waiting) :
    ticket ∉ usage.manager.settlements := by
  rw [← List.count_eq_zero, queued.once ticket, if_pos waiting]

end

theorem queue_ne_nil_of_leave (isQueue : usage.manager.queues key = front ++ entry :: back)
    (notEmpty : (usage.leave key entry rest state).manager.queues other ≠ []) :
    usage.manager.queues other ≠ [] := by
  by_cases same : other = key
  · subst same
    rw [isQueue]
    simp
  · simpa only [Usage.leave, settle, setQueue, Function.update_of_ne same] using notEmpty

theorem granted_leave {rest : List QueueEntry} {ticket : Ticket} :
    (usage.leave key entry rest .granted).manager.tickets ticket = .granted ↔
      ticket = entry.ticket ∨ usage.manager.tickets ticket = .granted := by
  simp only [leave, settle, setQueue, Function.update_apply]
  split
  next same => simp [same]
  next differs => simp [differs]

theorem Queued.grants_concat {after : Usage} (queued : usage.Queued config)
    (waiting : usage.manager.tickets latest = .waiting)
    (settlements : after.manager.settlements = usage.manager.settlements ++ [latest])
    (granted : ∀ ticket, after.manager.tickets ticket = .granted ↔
      ticket = latest ∨ usage.manager.tickets ticket = .granted)
    (keyed : ∀ ticket, ticket ≠ latest → after.keyOf config ticket = usage.keyOf config ticket)
    (last : ∀ ticket, usage.manager.tickets ticket = .granted →
      usage.keyOf config ticket = other → after.keyOf config latest = other → ticket < latest)
    (grants : (usage.manager.settlements.filter fun ticket =>
      usage.manager.tickets ticket = .granted ∧
        usage.keyOf config ticket = other).Pairwise (· < ·)) :
    (after.manager.settlements.filter fun ticket =>
      after.manager.tickets ticket = .granted ∧
        after.keyOf config ticket = other).Pairwise (· < ·) := by
  rw [settlements, List.filter_append, List.filter_congr (q := fun settled => decide
    (usage.manager.tickets settled = .granted ∧ usage.keyOf config settled = other))]
  · rw [List.pairwise_append]
    refine ⟨grants, (List.pairwise_singleton _ _).filter _, ?_⟩
    intro first isFirst second isSecond
    simp only [List.mem_filter, List.mem_singleton, decide_eq_true_eq] at isFirst isSecond
    obtain ⟨rfl, _, secondKey⟩ := isSecond
    exact last first isFirst.2.1 isFirst.2.2 secondKey
  · intro settled isSettled
    have differs : settled ≠ latest := fun same =>
      queued.not_mem_settlements waiting (same ▸ isSettled)
    simp only [granted, keyed settled differs, differs, false_or]

section

variable (accounted : usage.Accounted config)
include accounted

/-- A rejected waiter changes no account. -/
theorem Accounted.reject (queued : usage.Queued config)
    (isQueue : usage.manager.queues key = front ++ entry :: back) :
    (usage.leave key entry (front ++ back) .rejected).Accounted config := by
  have member : entry ∈ usage.manager.queues key := isQueue ▸ List.mem_append_cons_self
  have waiting := (queued.live key entry member).2.1
  have granted : ∀ ticket,
      (usage.leave key entry (front ++ back) .rejected).manager.tickets ticket = .granted ↔
        usage.manager.tickets ticket = .granted := by
    intro ticket
    simp only [Usage.leave, settle, Function.update_apply]
    split
    next same => simp [same, waiting.2]
    next => rfl
  constructor
  · intro other limit bound
    refine (accounted.counted other limit bound).trans ?_
    congr 1
    ext ticket
    simp only [mem_holders, Holds, granted]
    rfl
  · exact accounted.limited
  · exact fun other limit bound notEmpty =>
      accounted.full other limit bound (queue_ne_nil_of_leave isQueue notEmpty)
  · intro other limit first second bound isGranted firstKey waits secondKey
    exact accounted.behind other limit first second bound ((granted first).mp isGranted) firstKey
      (of_waits_leave waits nofun).2 secondKey
  · intro other limit bound
    have same : (fun ticket => decide
        ((usage.leave key entry (front ++ back) .rejected).manager.tickets ticket = .granted ∧
          (usage.leave key entry (front ++ back) .rejected).keyOf config ticket = other)) =
        fun ticket => decide (usage.manager.tickets ticket = .granted ∧
          usage.keyOf config ticket = other) := by
      simp only [granted]
      rfl
    rw [same]
    change ((usage.manager.settlements ++ [entry.ticket]).filter _).Pairwise _
    simpa [waiting.2] using accounted.grants other limit bound

theorem Accounted.handOver (queued : usage.Queued config) (holds : usage.Holds ticket)
    (isKey : usage.keyOf config ticket = key) (isQueue : usage.manager.queues key = entry :: back) :
    ((usage.leave key entry back .granted).giveBack ticket).Accounted config := by
  have member : entry ∈ usage.manager.queues key := isQueue ▸ List.mem_cons_self
  obtain ⟨_, waiting, entryKey⟩ := queued.live key entry member
  have behind := (queued.split (show _ = [] ++ entry :: back from isQueue)).2
  have apart : ticket ≠ entry.ticket := by
    rintro rfl
    exact nomatch holds.2.1.symm.trans waiting.2
  have unreturned : entry.ticket ∉ usage.returned := fun returned =>
    nomatch (queued.returned _ returned).symm.trans waiting.2
  have granted : ∀ other,
      ((usage.leave key entry back .granted).giveBack ticket).manager.tickets other = .granted ↔
        other = entry.ticket ∨ usage.manager.tickets other = .granted := fun _ => granted_leave
  have stillHolds : ∀ other, ((usage.leave key entry back .granted).giveBack ticket).Holds other ↔
        other ≠ ticket ∧ (other = entry.ticket ∨ usage.Holds other) := by
    intro other
    unfold Holds
    rw [granted]
    change _ ∧ _ ∧ other ∉ ticket :: usage.returned ↔ _
    rw [List.mem_cons, not_or]
    constructor
    · rintro ⟨issued, rfl | isGranted, differs, kept⟩
      · exact ⟨differs, .inl rfl⟩
      · exact ⟨differs, .inr ⟨issued, isGranted, kept⟩⟩
    · rintro ⟨differs, rfl | ⟨issued, isGranted, kept⟩⟩
      · exact ⟨waiting.1, .inl rfl, differs, unreturned⟩
      · exact ⟨issued, .inr isGranted, differs, kept⟩
  constructor
  · intro other limit bound
    refine (accounted.counted other limit bound).trans ?_
    by_cases same : other = key
    · subst same
      have isHolder : ticket ∈ usage.holders config other := mem_holders.mpr ⟨holds, isKey⟩
      have noHolder : entry.ticket ∉ (usage.holders config other).erase ticket := by
        intro member
        exact nomatch (mem_holders.mp (Finset.mem_of_mem_erase member)).1.2.1.symm.trans waiting.2
      rw [← Finset.card_erase_add_one isHolder, ← Finset.card_insert_of_notMem noHolder]
      congr 1
      ext holder
      simp only [Finset.mem_insert, Finset.mem_erase, mem_holders, stillHolds]
      constructor
      · rintro (rfl | ⟨differs, holds, isKey⟩)
        · exact ⟨⟨apart.symm, .inl rfl⟩, entryKey⟩
        · exact ⟨⟨differs, .inr holds⟩, isKey⟩
      · rintro ⟨⟨differs, rfl | holds⟩, isKey⟩
        · exact .inl rfl
        · exact .inr ⟨differs, holds, isKey⟩
    · congr 1
      ext holder
      simp only [mem_holders, stillHolds]
      constructor
      · rintro ⟨holds, holderKey⟩
        refine ⟨⟨?_, .inr holds⟩, holderKey⟩
        rintro rfl
        exact same (holderKey.symm.trans isKey)
      · rintro ⟨⟨_, rfl | holds⟩, holderKey⟩
        · exact absurd (holderKey.symm.trans entryKey) same
        · exact ⟨holds, holderKey⟩
  · exact accounted.limited
  · exact fun other limit bound notEmpty => accounted.full other limit bound
      (queue_ne_nil_of_leave (show _ = [] ++ entry :: back from isQueue) notEmpty)
  · intro other limit first second bound isGranted firstKey isWaiting secondKey
    have stillWaits : (usage.leave key entry back .granted).Waits second := isWaiting
    obtain ⟨differs, wasWaiting⟩ := of_waits_leave stillWaits nofun
    rcases (granted first).mp isGranted with rfl | isGranted
    · obtain ⟨found, isFound, isTicket⟩ := queued.waits second wasWaiting
      have shared : usage.keyOf config second = key :=
        secondKey.trans (firstKey.symm.trans entryKey)
      rw [shared, isQueue] at isFound
      subst isTicket
      rcases List.mem_cons.mp isFound with rfl | isFound
      · exact absurd rfl differs
      · exact behind found isFound
    · exact accounted.behind other limit first second bound isGranted firstKey wasWaiting secondKey
  · exact fun other limit bound => queued.grants_concat waiting.2 rfl granted (fun _ _ => rfl)
      (fun first isGranted firstKey secondKey => accounted.behind other limit first entry.ticket
        bound isGranted firstKey waiting secondKey) (accounted.grants other limit bound)

/-- The slot of a holder is free. -/
theorem Accounted.free (holds : usage.Holds ticket) (isKey : usage.keyOf config ticket = key)
    (isQueue : usage.manager.queues key = []) :
    ((usage.recount key (usage.manager.counts key - 1)).giveBack ticket).Accounted config := by
  have lower : ∀ other, ((usage.recount key (usage.manager.counts key - 1)).giveBack
      ticket).manager.counts other ≤ usage.manager.counts other := by
    intro other
    simp only [Usage.giveBack, Usage.recount, setCount, Function.update_apply]
    split
    next same => exact same ▸ Nat.sub_le _ 1
    next => exact le_rfl
  constructor
  · intro other limit bound
    by_cases same : other = key
    · subst same
      have isHolder : ticket ∈ usage.holders config other := mem_holders.mpr ⟨holds, isKey⟩
      simp only [Usage.giveBack, Usage.recount, setCount, Function.update_self]
      rw [accounted.counted other limit bound, ← Finset.card_erase_of_mem isHolder]
      congr 1
      ext holder
      simp only [Finset.mem_erase, mem_holders, Holds, List.mem_cons]
      tauto
    · simp only [Usage.giveBack, Usage.recount, setCount, Function.update_of_ne same]
      refine (accounted.counted other limit bound).trans ?_
      congr 1
      ext holder
      simp only [mem_holders, Holds, List.mem_cons, not_or]
      constructor
      · rintro ⟨⟨issued, isGranted, unreturned⟩, holderKey⟩
        refine ⟨⟨issued, isGranted, ?_, unreturned⟩, holderKey⟩
        rintro rfl
        exact same (holderKey.symm.trans isKey)
      · rintro ⟨⟨issued, isGranted, _, unreturned⟩, holderKey⟩
        exact ⟨⟨issued, isGranted, unreturned⟩, holderKey⟩
  · intro other limit bound
    exact (Nat.cast_le.mpr (lower other)).trans (accounted.limited other limit bound)
  · intro other limit bound notEmpty
    by_cases same : other = key
    · subst same
      exact absurd isQueue notEmpty
    · simp only [Usage.giveBack, Usage.recount, setCount, Function.update_of_ne same]
      exact accounted.full other limit bound notEmpty
  · exact accounted.behind
  · exact accounted.grants

end

theorem granted_seat : (usage.seat model).manager.tickets ticket = .granted ↔
      ticket = usage.manager.nextTicket ∨ usage.manager.tickets ticket = .granted :=
  @granted_leave usage [] ⟨usage.manager.nextTicket, none, false⟩ [] ticket

theorem holds_seat (queued : usage.Queued config) :
    (usage.seat model).Holds ticket ↔ ticket = usage.manager.nextTicket ∨ usage.Holds ticket := by
  have fresh := queued.fresh usage.manager.nextTicket le_rfl
  have unreturned : usage.manager.nextTicket ∉ usage.returned := fun returned =>
    nomatch (queued.returned _ returned).symm.trans fresh
  unfold Holds
  rw [granted_seat]
  constructor
  · rintro ⟨_, rfl | granted, kept⟩
    · exact .inl rfl
    · exact .inr ⟨queued.issued_of_granted granted, granted, kept⟩
  · rintro (rfl | ⟨issued, granted, kept⟩)
    · exact ⟨Nat.lt_succ_self _, .inl rfl, unreturned⟩
    · exact ⟨issued.trans (Nat.lt_succ_self _), .inr granted, kept⟩

theorem Accounted.seat (accounted : usage.Accounted config) (queued : usage.Queued config)
    (count : Nat)
    (room : ∀ limit, Bound config (config.concurrencyKey model) limit →
      count = usage.manager.counts (config.concurrencyKey model) + 1 ∧ (count : ℚ≥0) ≤ limit ∧
        usage.manager.queues (config.concurrencyKey model) = []) :
    ((usage.recount (config.concurrencyKey model) count).seat model).Accounted config := by
  have requeued := queued.recount (config.concurrencyKey model) count
  have keyed : ∀ ticket, ticket ≠ usage.manager.nextTicket →
      ((usage.recount (config.concurrencyKey model) count).seat model).keyOf config ticket =
        usage.keyOf config ticket := by
    intro ticket differs
    rw [keyOf_seat]
    exact if_neg differs
  have isHolder : ∀ key ticket,
      ticket ∈ ((usage.recount (config.concurrencyKey model) count).seat model).holders config key ↔
        ticket = usage.manager.nextTicket ∧ config.concurrencyKey model = key ∨
          ticket ∈ usage.holders config key := by
    intro key ticket
    rw [mem_holders, holds_seat requeued, keyOf_seat, mem_holders]
    change (ticket = usage.manager.nextTicket ∨ usage.Holds ticket) ∧
      (if ticket = usage.manager.nextTicket then _ else usage.keyOf config ticket) = _ ↔ _
    by_cases isNew : ticket = usage.manager.nextTicket
    · have noHolder : ¬ usage.Holds ticket := fun holds => absurd holds.1 (isNew ▸ lt_irrefl _)
      simp [isNew, isNew ▸ noHolder]
    · simp [isNew]
  constructor
  · intro key limit bound
    have before := accounted.counted key limit bound
    by_cases same : key = config.concurrencyKey model
    · subst same
      have noHolder : usage.manager.nextTicket ∉
          usage.holders config (config.concurrencyKey model) := fun member =>
        absurd (mem_holders.mp member).1.1 (Nat.lt_irrefl _)
      have isInsert : ((usage.recount (config.concurrencyKey model) count).seat model).holders
          config (config.concurrencyKey model) =
            insert usage.manager.nextTicket (usage.holders config (config.concurrencyKey model)) := by
        ext ticket
        simp [isHolder]
      rw [isInsert, Finset.card_insert_of_notMem noHolder, ← before]
      exact (Function.update_self ..).trans (room limit bound).1
    · refine (Function.update_of_ne same ..).trans (before.trans ?_)
      congr 1
      ext ticket
      simp [isHolder, Ne.symm same]
  · intro key limit bound
    simp only [Usage.seat, Usage.recount, setCount, issue, settle, Function.update_apply]
    split
    next same => exact (room limit (same ▸ bound)).2.1
    next => exact accounted.limited key limit bound
  · intro key limit bound notEmpty
    by_cases same : key = config.concurrencyKey model
    · exact absurd (same ▸ (room limit (same ▸ bound)).2.2) notEmpty
    · exact (congrArg _ (Function.update_of_ne same ..)).trans
        (accounted.full key limit bound notEmpty)
  · intro key limit first second bound isGranted firstKey waits secondKey
    have waits : usage.Waits second :=
      (@waits_seat (usage.recount (config.concurrencyKey model) count) model second).mp waits
    rw [keyed second waits.1.ne] at secondKey
    rcases granted_seat.mp isGranted with rfl | isGranted
    · rw [keyOf_seat] at firstKey
      have firstKey : config.concurrencyKey model = key := (if_pos rfl).symm.trans firstKey
      obtain ⟨entry, member, _⟩ := queued.waits second waits
      rw [secondKey, ← firstKey, (room limit (firstKey ▸ bound)).2.2] at member
      nomatch member
    · rw [keyed first (requeued.issued_of_granted isGranted).ne] at firstKey
      exact accounted.behind key limit first second bound isGranted firstKey waits secondKey
  · exact fun key limit bound => queued.grants_concat (queued.fresh _ le_rfl) rfl
      (fun _ => granted_seat) keyed (fun _ isGranted _ _ => queued.issued_of_granted isGranted)
      (accounted.grants key limit bound)

/-- A call that finds no free slot. -/
theorem Accounted.enqueue (oneLimit : OneLimit config) (accounted : usage.Accounted config)
    (queued : usage.Queued config) (isLimit : config.concurrencyLimit model = some limit)
    (isFull : ¬ (usage.manager.counts (config.concurrencyKey model) : ℚ≥0) < limit)
    (taskId : Option TaskId) : (usage.enqueue config model taskId).Accounted config := by
  have keyed : ∀ ticket, usage.manager.tickets ticket = .granted →
      (usage.enqueue config model taskId).keyOf config ticket = usage.keyOf config ticket := by
    intro ticket granted
    rw [keyOf_enqueue, if_neg (queued.issued_of_granted granted).ne]
  constructor
  · intro key other bound
    refine (accounted.counted key other bound).trans ?_
    congr 1
    ext ticket
    rw [mem_holders, mem_holders]
    constructor
    · rintro ⟨⟨issued, granted, kept⟩, isKey⟩
      exact ⟨⟨issued.trans (Nat.lt_succ_self _), granted, kept⟩, (keyed ticket granted).trans isKey⟩
    · rintro ⟨⟨_, granted, kept⟩, isKey⟩
      exact ⟨⟨queued.issued_of_granted granted, granted, kept⟩,
        (keyed ticket granted).symm.trans isKey⟩
  · exact accounted.limited
  · intro key other bound notEmpty
    by_cases same : key = config.concurrencyKey model
    · subst same
      cases oneLimit.eq_of_bound isLimit bound
      exact le_antisymm (accounted.limited _ limit bound) (not_lt.mp isFull)
    · simp only [Usage.enqueue, setQueue, Function.update_of_ne same] at notEmpty
      exact accounted.full key other bound notEmpty
  · intro key other first second bound isGranted firstKey waits secondKey
    have issued := queued.issued_of_granted isGranted
    rcases (waits_enqueue queued).mp waits with waits | rfl
    · rw [keyed first isGranted] at firstKey
      rw [keyOf_enqueue, if_neg waits.1.ne] at secondKey
      exact accounted.behind key other first second bound isGranted firstKey waits secondKey
    · exact issued
  · intro key other bound
    rw [List.filter_congr (q := fun settled => decide
      (usage.manager.tickets settled = .granted ∧ usage.keyOf config settled = key))]
    · exact accounted.grants key other bound
    · intro settled isSettled
      have differs : settled ≠ usage.manager.nextTicket := fun same =>
        queued.not_mem_settlements (queued.fresh _ le_rfl) (same ▸ isSettled)
      simp only [keyOf_enqueue, if_neg differs]
      rfl

/-- What the manager keeps between two calls. -/
structure Kept (config : BackgroundTaskConfig) (usage : Usage) : Prop where
  queued : usage.Queued config
  accounted : usage.Accounted config

variable {model : Name} {next final : Usage}

theorem Kept.acquire (wholeLimits : WholeLimits config) (oneLimit : OneLimit config)
    (kept : usage.Kept config) (taskId : Option TaskId)
    (stepped : usage.step config (.acquire model taskId) = some next) : next.Kept config := by
  cases Option.some.inj stepped
  unfold ConcurrencyManager.acquire
  dsimp only
  split
  next unlimited =>
    have same : usage.recount (config.concurrencyKey model)
        (usage.manager.counts (config.concurrencyKey model)) = usage := by
      simp [recount, setCount]
    refine ⟨kept.queued.seat model, same ▸ kept.accounted.seat kept.queued _ ?_⟩
    rintro limit ⟨other, sameKey, isLimit⟩
    exact nomatch (oneLimit other model sameKey ▸ isLimit).symm.trans unlimited
  next limit isLimit =>
    split
    next isFree =>
      refine ⟨(kept.queued.recount _ _).seat model, kept.accounted.seat kept.queued _ ?_⟩
      intro other bound
      cases oneLimit.eq_of_bound isLimit bound
      obtain ⟨whole, isWhole⟩ := wholeLimits model limit isLimit
      refine ⟨rfl, ?_, ?_⟩
      · rw [isWhole] at isFree ⊢
        exact_mod_cast isFree
      · by_contra notEmpty
        exact isFree.ne (kept.accounted.full _ limit bound notEmpty)
    next isFull =>
      exact ⟨kept.queued.enqueue model taskId,
        kept.accounted.enqueue oneLimit kept.queued isLimit isFull taskId⟩

/-- No entry in a queue is settled. -/
theorem Queued.takeLive (queued : usage.Queued config) (key : Name) :
    takeLive (usage.manager.queues key) =
      match usage.manager.queues key with
      | [] => none
      | next :: rest => some (next, rest) := by
  cases isQueue : usage.manager.queues key with
  | nil => rfl
  | cons next rest =>
    have live := (queued.live key next (isQueue ▸ List.mem_cons_self)).1
    simp [ConcurrencyManager.takeLive, live]

section

variable (kept : usage.Kept config)
include kept

theorem Kept.release (stepped : usage.step config (.release ticket model) = some next) :
    next.Kept config := by
  simp only [step, Option.ite_none_right_eq_some, Option.some.injEq] at stepped
  obtain ⟨⟨holds, sameKey⟩, rfl⟩ := stepped
  have isKey := sameKey.symm
  unfold ConcurrencyManager.release
  dsimp only
  rw [kept.queued.takeLive]
  cases isQueue : usage.manager.queues (config.concurrencyKey model) with
  | cons entry rest =>
    have apart : (usage.leave (config.concurrencyKey model) entry rest
        .granted).manager.tickets ticket = .granted := by
      simp only [Usage.leave, settle, Function.update_apply]
      split
      · rfl
      · exact holds.2.1
    have granted : TicketState.granted ≠ .waiting := nofun
    exact ⟨(kept.queued.leave (show _ = [] ++ entry :: rest from isQueue) granted).giveBack apart,
      kept.accounted.handOver kept.queued holds isKey isQueue⟩
  | nil =>
    have same : usage.manager.setQueue (config.concurrencyKey model) [] = usage.manager := by
      unfold setQueue
      rw [← isQueue, Function.update_eq_self]
    simp only [same]
    exact ⟨(kept.queued.recount _ _).giveBack holds.2.1, kept.accounted.free holds isKey isQueue⟩

theorem Kept.cancelWaiter (stepped : usage.step config (.cancelWaiter model taskId) = some next) :
    next.Kept config := by
  cases Option.some.inj stepped
  unfold ConcurrencyManager.cancelWaiter
  dsimp only
  split
  next => exact kept
  next entry found =>
    have member := List.mem_of_find?_eq_some found
    obtain ⟨front, back, _, isQueue, rest⟩ := List.exists_erase_eq member
    rw [rest]
    exact ⟨kept.queued.leave isQueue nofun, kept.accounted.reject kept.queued isQueue⟩

/-- The loop of `cancelWaiters`, each entry taken out of its queue as it is rejected. -/
theorem Kept.rejectAll (queue : List QueueEntry) (isQueue : usage.manager.queues key = queue) :
    Kept config { usage with
      manager := (queue.foldl (fun manager entry => manager.settle entry.ticket .rejected)
        usage.manager).setQueue key [] } := by
  induction queue generalizing usage with
  | nil =>
    have same : usage.manager.setQueue key [] = usage.manager := by
      unfold setQueue
      rw [← isQueue, Function.update_eq_self]
    simp only [List.foldl_nil, same]
    exact kept
  | cons entry rest ih =>
    have left : (usage.leave key entry rest .rejected).Kept config :=
      ⟨kept.queued.leave (show _ = [] ++ entry :: rest from isQueue) nofun,
        kept.accounted.reject kept.queued (show _ = [] ++ entry :: rest from isQueue)⟩
    have later := ih left (by simp [Usage.leave, settle, setQueue])
    have commutes : ∀ (entries : List QueueEntry) (manager : ConcurrencyManager),
        (entries.foldl (fun manager entry => manager.settle entry.ticket .rejected)
          (manager.setQueue key rest)).setQueue key [] =
        (entries.foldl (fun manager entry => manager.settle entry.ticket .rejected)
          manager).setQueue key [] := by
      intro entries manager
      induction entries generalizing manager with
      | nil => simp [setQueue]
      | cons head others sameForRest => exact sameForRest (manager.settle head.ticket .rejected)
    have unfolded := commutes rest (usage.manager.settle entry.ticket .rejected)
    simp only [List.foldl_cons]
    rw [← unfolded]
    exact later

theorem Kept.cancelWaiters (stepped : usage.step config (.cancelWaiters model) = some next) :
    next.Kept config := by
  cases Option.some.inj stepped
  have allLive : (usage.manager.queues (config.concurrencyKey model)).filter
      (fun entry => entry.settled = false) =
        usage.manager.queues (config.concurrencyKey model) := by
    rw [List.filter_eq_self]
    intro entry member
    exact decide_eq_true (kept.queued.live _ entry member).1
  unfold ConcurrencyManager.cancelWaiters
  dsimp only
  rw [allLive]
  exact kept.rejectAll _ rfl

end

theorem Kept.step (wholeLimits : WholeLimits config) (oneLimit : OneLimit config)
    (kept : usage.Kept config) (call : Call) (stepped : usage.step config call = some next) :
    next.Kept config := by
  cases call with
  | acquire model taskId => exact kept.acquire wholeLimits oneLimit taskId stepped
  | release ticket model => exact kept.release stepped
  | cancelWaiter model taskId => exact kept.cancelWaiter stepped
  | cancelWaiters model => exact kept.cancelWaiters stepped

/-- Calls of `acquire` for one model fill its key up to the limit, rounded up. -/
theorem exists_filled (isLimit : config.concurrencyLimit model = some limit) (count : Nat)
    (within : count ≤ ⌈limit⌉₊) :
    ∃ final, execute (Usage.step config) .start (List.replicate count (.acquire model none)) =
      some final ∧ final.manager.counts (config.concurrencyKey model) = count := by
  induction count with
  | zero => exact ⟨.start, rfl, rfl⟩
  | succ count ih =>
    obtain ⟨final, reached, isCount⟩ := ih (Nat.le_of_succ_le within)
    have isFree : (final.manager.counts (config.concurrencyKey model) : ℚ≥0) < limit := by
      rw [isCount]
      exact Nat.lt_ceil.mp within
    refine ⟨{ final with
      manager := final.manager.acquire config model none
      models := Function.update final.models final.manager.nextTicket model }, ?_, ?_⟩
    · rw [List.replicate_succ', execute_append_eq_some]
      exact ⟨final, reached, rfl⟩
    · simp only [ConcurrencyManager.acquire, isLimit, if_pos isFree]
      simp [settle, issue, setCount, isCount]

section

variable (keeps :
  ∀ calls final, execute (Usage.step config) .start calls = some final → SlotsKept config final)
include keeps

/-- One model fills its key up to its own limit, past a smaller one of the same key. -/
theorem le_of_slotsKept (isLimit : config.concurrencyLimit model = some limit)
    (bound : Bound config (config.concurrencyKey model) other) : limit ≤ other := by
  obtain ⟨final, reached, isCount⟩ := exists_filled isLimit ⌈limit⌉₊ le_rfl
  have limited := (keeps _ final reached).limited _ other bound
  rw [isCount] at limited
  exact (Nat.le_ceil limit).trans limited

/-- A holder for an unlimited model is not counted, where another model limits its key. -/
theorem limited_of_slotsKept (bound : Bound config (config.concurrencyKey model) limit) :
    config.concurrencyLimit model ≠ none := by
  intro unlimited
  have counted := (keeps [.acquire model none] _ rfl).counted _ limit bound
  simp only [ConcurrencyManager.acquire, unlimited] at counted
  have noHolders := Finset.card_eq_zero.mp counted.symm
  rw [Finset.eq_empty_iff_forall_notMem] at noHolders
  refine noHolders 0 (mem_holders.mpr ?_)
  simp [Holds, keyOf, settle, issue, start, empty]

end

/-- The manager keeps its slots in every run exactly if the models of a key share one limit,
and the limits are whole. -/
theorem slotsKept_iff (config : BackgroundTaskConfig) :
    (∀ calls final, execute (Usage.step config) .start calls = some final →
      SlotsKept config final) ↔ OneLimit config ∧ WholeLimits config := by
  constructor
  · intro keeps
    refine ⟨?_, ?_⟩
    · intro model other sameKey
      cases isLimit : config.concurrencyLimit model with
      | some limit =>
        cases isOther : config.concurrencyLimit other with
        | some otherLimit =>
          have below := le_of_slotsKept keeps isLimit ⟨other, sameKey.symm, isOther⟩
          have above := le_of_slotsKept keeps isOther ⟨model, sameKey, isLimit⟩
          rw [le_antisymm below above]
        | none => exact absurd isOther (limited_of_slotsKept keeps ⟨model, sameKey, isLimit⟩)
      | none =>
        cases isOther : config.concurrencyLimit other with
        | none => rfl
        | some limit =>
          exact absurd isLimit (limited_of_slotsKept keeps ⟨other, sameKey.symm, isOther⟩)
    · intro model limit isLimit
      obtain ⟨final, reached, isCount⟩ := exists_filled isLimit ⌈limit⌉₊ le_rfl
      have limited := (keeps _ final reached).limited _ limit ⟨model, rfl, isLimit⟩
      rw [isCount] at limited
      exact ⟨_, le_antisymm (Nat.le_ceil limit) limited⟩
  · rintro ⟨oneLimit, wholeLimits⟩ calls final reached
    have kept := invariant_of_unconditional
      (fun usage call next (kept : usage.Kept config) stepped =>
        kept.step wholeLimits oneLimit call stepped)
      ⟨queued_start, accounted_start⟩ reached
    exact slotsKept kept.queued kept.accounted

end Usage

/-- One and a half slots for each model. -/
def fractionalLimit : BackgroundTaskConfig where
  modelConcurrency := []
  providerConcurrency := []
  defaultConcurrency := some (3 / 2)
  maxLiveDescendantsPerRoot := none

/-- One slot for the model `p`, and two for the provider of that name. -/
def sharedKey : BackgroundTaskConfig where
  modelConcurrency := [(['p'], 1)]
  providerConcurrency := [(['p'], 2)]
  defaultConcurrency := none
  maxLiveDescendantsPerRoot := none

/-- Two calls get two slots where one and a half, or one, are allowed. -/
theorem not_slotsKept :
    (∃ final, execute (Usage.step fractionalLimit) .start
        [.acquire ['m'] none, .acquire ['m'] none] = some final ∧
      ¬ SlotsKept fractionalLimit final) ∧
    ∃ final, execute (Usage.step sharedKey) .start
        [.acquire ['p', '/', 'm'] none, .acquire ['p', '/', 'm'] none] = some final ∧
      ¬ SlotsKept sharedKey final := by
  constructor
  · refine ⟨_, rfl, fun kept => ?_⟩
    have limited := kept.limited ['m'] (3 / 2) ⟨['m'], by decide +kernel⟩
    revert limited
    decide +kernel
  · refine ⟨_, rfl, fun kept => ?_⟩
    have limited := kept.limited ['p'] 1 ⟨['p'], by decide +kernel⟩
    revert limited
    decide +kernel

end ConcurrencyManager

end OpenAgent.Background
