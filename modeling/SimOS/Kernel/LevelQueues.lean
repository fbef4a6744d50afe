import SimOS.Kernel.PidQueues

/-!
# The queues of Project 1 Honors in memory

The ready queues are an array of `PID_QUEUE` that is there from the start, and
`enqueue` takes the address of a queue. Only the queues of the semaphores come
from `malloc`, in `handle_semaphore`, when the first process has to wait. As in
Project 1 a tail is never cleared and nothing is ever freed.
-/

namespace SimOS

open Library
open PidQueues (cells_eq_none ends_of_null loadHead_eq queues_update_ne_none)

/-- A `PID_QUEUE *`: `&ready_queues[level]`, or what `malloc` returned for a semaphore. -/
inductive QueuePointer (A : Type)
  | readyQueue (level : Fin 5)
  | allocated (queue : A)
  deriving DecidableEq

theorem QueuePointer.allocated_ne_readyQueue {A : Type} (queue : A) (level : Fin 5) :
    QueuePointer.allocated queue ≠ .readyQueue level := nofun

/-- The elements and queues there are, and `ready_queue` of each semaphore. -/
structure LevelMemory (A : Type) extends PidQueues (QueuePointer A) A where
  pointers : Sem → Option A

namespace LevelMemory

variable {A : Type}

/-- The ready queues are empty and nothing was allocated. -/
def powerOn : LevelMemory A where
  elts := fun _ => none
  queues := fun queue =>
    match queue with
    | .readyQueue _ => some { head := none, tail := none }
    | .allocated _ => none
  pointers := fun _ => none

section Code

variable [DecidableEq A]

/-- A `PID_QUEUE` from `malloc` for a semaphore, whose head and tail are set to `NULL`. -/
def createQueue (m : LevelMemory A) (s : Sem) (queue : A) : LevelMemory A where
  toPidQueues := m.putQueue (.allocated queue)
  pointers := Function.update m.pointers s (some queue)

/-- `if (sem->ready_queue == NULL)`, a queue is created. -/
def initQueue (m : LevelMemory A) (s : Sem) (newQueue : A) : LevelMemory A :=
  if m.pointers s = none then m.createQueue s newQueue else m

/-- `enqueue`, with the address that `malloc` returns for the element. -/
def enqueue (m : LevelMemory A) (queue : QueuePointer A) (pid : Pid) (newElt : A) :
    Option (LevelMemory A) :=
  (m.toPidQueues.enqueue queue pid newElt).map fun queues => { m with toPidQueues := queues }

/-- `queue->head = queue->head->next`, as in `schedule` and `handle_semaphore`. -/
def removeHead (m : LevelMemory A) (queue : QueuePointer A) : Option (LevelMemory A) :=
  (m.toPidQueues.removeHead queue).map fun queues => { m with toPidQueues := queues }

end Code

/-! ## The memory in order -/

/-- The queues hold these nodes, the ready queues are there, and each semaphore
that has a queue has one of its own. -/
structure Sound (m : LevelMemory A) (nodes : QueuePointer A → List (A × Pid)) : Prop where
  holds : m.toLinked.Holds nodes
  ready : ∀ level, m.queues (.readyQueue level) ≠ none
  allocated : ∀ s queue, m.pointers s = some queue → m.queues (.allocated queue) ≠ none
  distinct : ∀ s t queue, m.pointers s = some queue → m.pointers t = some queue → s = t

theorem sound_powerOn : (powerOn : LevelMemory A).Sound fun _ => [] := by
  have hends : ∀ queue, (powerOn : LevelMemory A).ends queue = { head := none, tail := none } := by
    intro queue
    cases queue <;> rfl
  have hhead : ∀ queue, ((powerOn : LevelMemory A).toLinked.ends queue).head = none :=
    fun queue => congrArg Ends.head (hends queue)
  have htail : ∀ queue b, ((powerOn : LevelMemory A).toLinked.ends queue).tail ≠ some b := by
    intro queue b h
    cases (congrArg Ends.tail (hends queue)).symm.trans h
  refine ⟨⟨hhead, fun _ front _ _ h => ?_, fun queue b h => absurd h (htail queue b),
    fun queue _ b h => absurd h (htail queue b), fun _ _ _ h => absurd h List.not_mem_nil⟩,
    fun level => Option.some_ne_none _, fun _ _ h => ?_, fun _ _ _ h => ?_⟩
  · exact absurd h.symm (List.concat_ne_nil _ front)
  · cases h
  · cases h

section Sound

variable {m : LevelMemory A} {nodes : QueuePointer A → List (A × Pid)} {queue : QueuePointer A}
  {s : Sem}

theorem Sound.head_eq_none_iff (h : m.Sound nodes) :
    (m.ends queue).head = none ↔ nodes queue = [] :=
  (h.holds.follows queue).eq_none_iff

/-- The first element holds the pid of the first node. -/
theorem Sound.head_eq (h : m.Sound nodes) {node : A × Pid} {rest : List (A × Pid)}
    (hnodes : nodes queue = node :: rest) :
    (m.ends queue).head = some node.1 ∧ m.loadPid node.1 = some node.2 := by
  have hfollows := h.holds.follows queue
  rw [hnodes] at hfollows
  obtain ⟨hhead, next, hcell, _⟩ := hfollows
  exact ⟨hhead, PidQueues.loadPid_of_cell hcell⟩

/-- No element waits where nothing was allocated. -/
theorem Sound.nodes_eq_nil (h : m.Sound nodes) (hqueue : m.queues queue = none) :
    nodes queue = [] := by
  rw [← h.head_eq_none_iff, ends_of_null hqueue]

/-- A change of the queues that leaves them all there keeps the memory in order. -/
theorem Sound.of_holds (h : m.Sound nodes) {queues : PidQueues (QueuePointer A) A}
    {nodes' : QueuePointer A → List (A × Pid)} (hholds : queues.toLinked.Holds nodes')
    (hkept : ∀ queue, m.queues queue ≠ none → queues.queues queue ≠ none) :
    { m with toPidQueues := queues }.Sound nodes' where
  holds := hholds
  ready level := hkept _ (h.ready level)
  allocated s queue hqueue := hkept _ (h.allocated s queue hqueue)
  distinct := h.distinct

variable [DecidableEq A]

/-- An `enqueue` puts a new node behind the others of its queue. -/
theorem Sound.enqueue (h : m.Sound nodes) (hqueue : m.queues queue ≠ none) (pid : Pid)
    {newElt : A} (hfresh : m.elts newElt = none) :
    ∃ m', m.enqueue queue pid newElt = some m' ∧ m'.pointers = m.pointers ∧
      m'.Sound (Function.update nodes queue (nodes queue ++ [(newElt, pid)])) := by
  obtain ⟨queues, hqueues, hlinked, hkept⟩ :=
    PidQueues.enqueue_eq hqueue (h.holds.live queue) pid newElt
  refine ⟨{ m with toPidQueues := queues }, by rw [LevelMemory.enqueue, hqueues]; rfl, rfl,
    h.of_holds ?_ hkept⟩
  rw [hlinked]
  exact h.holds.push (cells_eq_none.mpr hfresh) queue pid

theorem Sound.removeHead (h : m.Sound nodes) {node : A × Pid} {rest : List (A × Pid)}
    (hnodes : nodes queue = node :: rest) :
    ∃ m', m.removeHead queue = some m' ∧ m'.pointers = m.pointers ∧
      m'.Sound (Function.update nodes queue rest) := by
  have hlive : m.cells node.1 ≠ none := by
    refine (h.holds.follows queue).ne_none ?_
    rw [hnodes]
    exact List.mem_cons_self
  obtain ⟨queues, hqueues, hlinked, hkept⟩ := PidQueues.removeHead_eq (h.head_eq hnodes).1 hlive
  refine ⟨{ m with toPidQueues := queues }, by rw [LevelMemory.removeHead, hqueues]; rfl, rfl,
    h.of_holds ?_ hkept⟩
  rw [hlinked]
  exact h.holds.pop hnodes

/-- Creating a queue for a semaphore without one changes no queue. -/
theorem Sound.createQueue (h : m.Sound nodes) (hnull : m.pointers s = none) {newQueue : A}
    (hfresh : m.queues (.allocated newQueue) = none) :
    (m.createQueue s newQueue).Sound nodes := by
  have hne : ∀ {t x}, m.pointers t = some x → x ≠ newQueue := by
    rintro t x hx rfl
    exact h.allocated t x hx hfresh
  have hpointers : ∀ {t x}, (m.createQueue s newQueue).pointers t = some x →
      (t = s ∧ x = newQueue) ∨ m.pointers t = some x := by
    intro t x hx
    change Function.update m.pointers s (some newQueue) t = some x at hx
    by_cases ht : t = s
    · rw [ht, Function.update_self] at hx
      exact .inl ⟨ht, (Option.some.inj hx).symm⟩
    · rw [Function.update_of_ne ht] at hx
      exact .inr hx
  have hkept : ∀ queue, m.queues queue ≠ none → (m.createQueue s newQueue).queues queue ≠ none :=
    queues_update_ne_none rfl
  refine ⟨?_, fun level => hkept _ (h.ready level), ?_, ?_⟩
  · change (m.putQueue (.allocated newQueue)).toLinked.Holds nodes
    rw [PidQueues.toLinked_putQueue_of_null hfresh]
    exact h.holds
  · intro t x hx
    rcases hpointers hx with ⟨_, rfl⟩ | hold
    · change Function.update m.queues _ _ _ ≠ none
      rw [Function.update_self]
      exact Option.some_ne_none _
    · exact hkept _ (h.allocated t x hold)
  · intro t u x ht hu
    rcases hpointers ht with ⟨rfl, rfl⟩ | hold
    · rcases hpointers hu with ⟨rfl, _⟩ | hold'
      · rfl
      · exact absurd rfl (hne hold')
    · rcases hpointers hu with ⟨_, rfl⟩ | hold'
      · exact absurd rfl (hne hold)
      · exact h.distinct t u x hold hold'

/-- After `initQueue` the semaphore has a queue, which is new and empty if it had none. -/
theorem Sound.initQueue (h : m.Sound nodes) (s : Sem) {newQueue : A}
    (hfresh : m.queues (.allocated newQueue) = none) :
    (m.initQueue s newQueue).Sound nodes ∧ ∃ queue,
      (m.initQueue s newQueue).pointers = Function.update m.pointers s (some queue) ∧
      (m.pointers s = some queue ∨ m.pointers s = none ∧ nodes (.allocated queue) = []) := by
  rw [LevelMemory.initQueue]
  split_ifs with hnull
  · exact ⟨h.createQueue hnull hfresh, newQueue, rfl, .inr ⟨hnull, h.nodes_eq_nil hfresh⟩⟩
  · obtain ⟨queue, hqueue⟩ := Option.ne_none_iff_exists'.mp hnull
    refine ⟨h, queue, ?_, .inl hqueue⟩
    rw [← hqueue, Function.update_eq_self]

end Sound

end LevelMemory

end SimOS
