import SimOS.Kernel.Machine
import SimOS.Library.LinkedQueue

/-!
# Queues of pids behind pointers

`PID_QUEUE` and its elements, with the code for them that is the same in the
`kernel.c` of both projects: `enqueue` where there is a queue, and the removal of
a head. What a pointer to a queue is differs, so it is a parameter. A pointer that
is followed to where nothing was allocated is undefined behaviour and is `none`.
-/

namespace SimOS

open Library

/-- `PID_QUEUE_ELT`, with `none` for `NULL`. -/
structure PidQueueElt (A : Type) where
  next : Option A
  pid : Pid

/-- `PID_QUEUE`. -/
structure PidQueue (A : Type) where
  head : Option A
  tail : Option A

/-- The elements and the queues there are, by their addresses. -/
structure PidQueues (P A : Type) where
  elts : A → Option (PidQueueElt A)
  queues : P → Option (PidQueue A)

namespace PidQueues

variable {P A : Type}

/-- `queue->head`. -/
def loadHead (m : PidQueues P A) (queue : P) : Option (Option A) :=
  (m.queues queue).map PidQueue.head

/-- `elt->pid`. -/
def loadPid (m : PidQueues P A) (elt : A) : Option Pid := (m.elts elt).map PidQueueElt.pid

section Code

variable [DecidableEq P] [DecidableEq A]

/-- A queue at `queue` whose head and tail are set to `NULL`. -/
def putQueue (m : PidQueues P A) (queue : P) : PidQueues P A :=
  { m with queues := Function.update m.queues queue (some { head := none, tail := none }) }

/-- A `PID_QUEUE_ELT` from `malloc`. -/
def createElt (m : PidQueues P A) (elt : A) (pid : Pid) : PidQueues P A :=
  { m with elts := Function.update m.elts elt (some { next := none, pid := pid }) }

/-- An assignment to a field of `*queue`. -/
def modifyQueue (m : PidQueues P A) (queue : P) (f : PidQueue A → PidQueue A) :
    Option (PidQueues P A) :=
  (m.queues queue).map fun q => { m with queues := Function.update m.queues queue (some (f q)) }

/-- An assignment to a field of `*elt`. -/
def modifyElt (m : PidQueues P A) (elt : A) (f : PidQueueElt A → PidQueueElt A) :
    Option (PidQueues P A) :=
  (m.elts elt).map fun x => { m with elts := Function.update m.elts elt (some (f x)) }

/-- `if (queue->head == NULL) queue->head = elt`. -/
def setHead (m : PidQueues P A) (queue : P) (elt : A) : Option (PidQueues P A) :=
  (m.queues queue).bind fun q =>
    if q.head = none then m.modifyQueue queue fun q => { q with head := some elt } else some m

/-- `if (queue->tail != NULL) queue->tail->next = elt`. -/
def linkTail (m : PidQueues P A) (queue : P) (elt : A) : Option (PidQueues P A) :=
  (m.queues queue).bind fun q =>
    match q.tail with
    | none => some m
    | some tail => m.modifyElt tail fun x => { x with next := some elt }

/-- `queue->tail = elt`. -/
def setTail (m : PidQueues P A) (queue : P) (elt : A) : Option (PidQueues P A) :=
  m.modifyQueue queue fun q => { q with tail := some elt }

/-- What `enqueue` does with a queue, with the address that `malloc` returns for the element. -/
def enqueue (m : PidQueues P A) (queue : P) (pid : Pid) (newElt : A) : Option (PidQueues P A) :=
  ((m.createElt newElt pid).setHead queue newElt).bind fun m =>
    (m.linkTail queue newElt).bind fun m => m.setTail queue newElt

/-- `queue->head = queue->head->next`, as in `schedule` and `handle_semaphore`. -/
def removeHead (m : PidQueues P A) (queue : P) : Option (PidQueues P A) :=
  (m.queues queue).bind fun q =>
    q.head.bind fun head =>
      (m.elts head).bind fun elt => m.modifyQueue queue fun q => { q with head := elt.next }

end Code

/-! ## The memory as linked queues -/

/-- The element as a cell. -/
def toCell (elt : PidQueueElt A) : Cell A Pid := { next := elt.next, val := elt.pid }

def cells (m : PidQueues P A) : A → Option (Cell A Pid) := Option.map toCell ∘ m.elts

/-- The pointers of the queue, which are both `NULL` as long as there is no queue. -/
def ends (m : PidQueues P A) (queue : P) : Ends A :=
  match m.queues queue with
  | none => { head := none, tail := none }
  | some q => { head := q.head, tail := q.tail }

def toLinked (m : PidQueues P A) : LinkedQueues P A Pid := ⟨m.cells, m.ends⟩

section Memory

variable {m m' : PidQueues P A} {queue : P} {elt a : A} {q q' : PidQueue A} {pid : Pid}

theorem cells_eq_none : m.cells elt = none ↔ m.elts elt = none := Option.map_eq_none_iff

theorem elts_eq_of_cells_eq (h : m.cells elt = m'.cells elt) :
    m.elts elt = m'.elts elt := by
  refine Option.map_injective ?_ h
  rintro ⟨next, pid⟩ ⟨next', pid'⟩ heq
  obtain ⟨rfl, rfl⟩ := Cell.mk.inj heq
  rfl

/-- The cell at an address holds the pid that is read there. -/
theorem loadPid_of_cell {next : Option A} (hcell : m.cells a = some ⟨next, pid⟩) :
    m.loadPid a = some pid := by
  obtain ⟨elt, helt, hcell'⟩ := Option.map_eq_some_iff.mp hcell
  rw [loadPid, helt, Option.map_some, Option.some.injEq]
  exact congrArg Cell.val hcell'

theorem ends_of_queue (hqueue : m.queues queue = some q) :
    m.ends queue = { head := q.head, tail := q.tail } := by
  rw [ends, hqueue]

theorem ends_of_null (hqueue : m.queues queue = none) :
    m.ends queue = { head := none, tail := none } := by
  rw [ends, hqueue]

/-- Where there is a queue, its head can be read. -/
theorem loadHead_eq (hqueue : m.queues queue ≠ none) :
    m.loadHead queue = some (m.ends queue).head := by
  obtain ⟨q, hq⟩ := Option.ne_none_iff_exists'.mp hqueue
  rw [loadHead, ends_of_queue hq, hq, Option.map_some]

theorem linkTail_eq [DecidableEq A] (elt : A) (hqueue : m.queues queue = some q)
    (htail : ∀ tail, q.tail = some tail → m.cells tail ≠ none) :
    ∃ m', m.linkTail queue elt = some m' ∧ m'.cells = LinkedQueues.link m.cells q.tail elt ∧
      m'.queues = m.queues := by
  rw [linkTail, hqueue, Option.bind_some]
  cases hq : q.tail with
  | none => exact ⟨m, rfl, rfl, rfl⟩
  | some tail =>
    obtain ⟨x, hx⟩ := Option.ne_none_iff_exists'.mp (cells_eq_none.not.mp (htail tail hq))
    have hcell : m.cells tail = some (toCell x) := congrArg (Option.map toCell) hx
    rw [LinkedQueues.link, hcell]
    change ∃ m', (m.elts tail).map _ = some m' ∧ _
    rw [hx]
    exact ⟨_, rfl, Function.comp_update _ _ _ _, rfl⟩

variable [DecidableEq P]

/-- Writing to a queue changes its ends alone. -/
theorem ends_update (hqueues : m'.queues = Function.update m.queues queue (some q')) :
    m'.ends = Function.update m.ends queue { head := q'.head, tail := q'.tail } := by
  funext other
  by_cases hother : other = queue
  · rw [hother, Function.update_self]
    exact ends_of_queue (by rw [hqueues, Function.update_self])
  · rw [Function.update_of_ne hother, ends, ends, hqueues, Function.update_of_ne hother]

/-- What was allocated stays so. -/
theorem queues_update_ne_none (hqueues : m'.queues = Function.update m.queues queue (some q'))
    (other : P) (hother : m.queues other ≠ none) : m'.queues other ≠ none := by
  rw [hqueues]
  by_cases hsame : other = queue
  · rw [hsame, Function.update_self]
    exact Option.some_ne_none q'
  · rwa [Function.update_of_ne hsame]

theorem toLinked_putQueue : (m.putQueue queue).toLinked = m.toLinked.reset queue := by
  have hqueues : (m.putQueue queue).queues =
      Function.update m.queues queue (some { head := none, tail := none }) := rfl
  rw [toLinked, ends_update hqueues]
  rfl

/-- A queue with both ends `NULL` where there was none makes no difference. -/
theorem toLinked_putQueue_of_null (hfresh : m.queues queue = none) :
    (m.putQueue queue).toLinked = m.toLinked := by
  rw [toLinked_putQueue, LinkedQueues.reset]
  change LinkedQueues.mk m.cells (Function.update m.ends queue _) = _
  rw [← ends_of_null hfresh, Function.update_eq_self]
  rfl

/-! ## The steps of `enqueue` -/

theorem modifyQueue_eq {f : PidQueue A → PidQueue A} (hqueue : m.queues queue = some q) :
    ∃ m', m.modifyQueue queue f = some m' ∧ m'.cells = m.cells ∧
      m'.queues = Function.update m.queues queue (some (f q)) := by
  rw [modifyQueue, hqueue]
  exact ⟨_, rfl, rfl, rfl⟩

theorem setHead_eq (elt : A) (hqueue : m.queues queue = some q) :
    ∃ m', m.setHead queue elt = some m' ∧ m'.cells = m.cells ∧
      m'.queues = Function.update m.queues queue
        (some { head := q.head.or (some elt), tail := q.tail }) := by
  rw [setHead, hqueue, Option.bind_some]
  split_ifs with hhead
  · rw [hhead]
    exact modifyQueue_eq hqueue
  · obtain ⟨x, hx⟩ := Option.ne_none_iff_exists'.mp hhead
    refine ⟨m, rfl, rfl, ?_⟩
    rw [hx, Option.some_or, ← hx, ← hqueue, Function.update_eq_self]

/-- An `enqueue` on a queue is a push. -/
theorem enqueue_eq [DecidableEq A] (hallocated : m.queues queue ≠ none)
    (hlive : ∀ tail, (m.ends queue).tail = some tail → m.cells tail ≠ none) (pid : Pid) (elt : A) :
    ∃ m', m.enqueue queue pid elt = some m' ∧ m'.toLinked = m.toLinked.push queue elt pid ∧
      ∀ other, m.queues other ≠ none → m'.queues other ≠ none := by
  obtain ⟨q, hqueue⟩ := Option.ne_none_iff_exists'.mp hallocated
  have hends := ends_of_queue hqueue
  have hcreated : (m.createElt elt pid).cells = Function.update m.cells elt (some ⟨none, pid⟩) :=
    Function.comp_update _ _ _ _
  obtain ⟨m₁, hhead, hcells₁, hqueues₁⟩ := setHead_eq (m := m.createElt elt pid) elt hqueue
  rw [hcreated] at hcells₁
  have hqueue₁ : m₁.queues queue = some { head := q.head.or (some elt), tail := q.tail } := by
    rw [hqueues₁, Function.update_self]
  obtain ⟨m₂, hlink, hcells₂, hqueues₂⟩ := linkTail_eq elt hqueue₁ fun tail htail => by
    rw [hcells₁]
    by_cases hnew : tail = elt
    · rw [hnew, Function.update_self]
      exact Option.some_ne_none _
    · rw [Function.update_of_ne hnew]
      exact hlive tail (by rw [hends]; exact htail)
  have hqueue₂ : m₂.queues queue = some { head := q.head.or (some elt), tail := q.tail } := by
    rw [hqueues₂, hqueue₁]
  obtain ⟨m₃, htail, hcells₃, hqueues₃⟩ :=
    modifyQueue_eq (f := fun q => { q with tail := some elt }) hqueue₂
  have hqueues : m₃.queues = Function.update m.queues queue
      (some { head := q.head.or (some elt), tail := some elt }) := by
    rw [hqueues₃, hqueues₂, hqueues₁, Function.update_idem]
    rfl
  refine ⟨m₃, ?_, ?_, queues_update_ne_none hqueues⟩
  · rw [enqueue, hhead, Option.bind_some, hlink, Option.bind_some]
    exact htail
  · rw [toLinked, ends_update hqueues, hcells₃, hcells₂, hcells₁, LinkedQueues.push]
    change _ = LinkedQueues.mk (LinkedQueues.link (Function.update m.cells elt _)
      (m.ends queue).tail elt) (Function.update m.ends queue ⟨(m.ends queue).head.or _, _⟩)
    rw [hends]

/-- A removal from a queue with a head is a pop. -/
theorem removeHead_eq (hhead : (m.ends queue).head = some a) (hlive : m.cells a ≠ none) :
    ∃ m', m.removeHead queue = some m' ∧ m'.toLinked = m.toLinked.pop queue ∧
      ∀ other, m.queues other ≠ none → m'.queues other ≠ none := by
  cases hqueue : m.queues queue with
  | none =>
    rw [ends_of_null hqueue] at hhead
    cases hhead
  | some q =>
    have hends := ends_of_queue hqueue
    rw [hends] at hhead
    obtain ⟨elt, helt⟩ := Option.ne_none_iff_exists'.mp (cells_eq_none.not.mp hlive)
    have hcell : m.cells a = some (toCell elt) := congrArg (Option.map toCell) helt
    obtain ⟨m', hm', hcells, hqueues⟩ :=
      modifyQueue_eq (f := fun q => { q with head := elt.next }) hqueue
    refine ⟨m', ?_, ?_, queues_update_ne_none hqueues⟩
    · change q.head = some a at hhead
      rw [removeHead, hqueue, Option.bind_some, hhead, Option.bind_some, helt, Option.bind_some]
      exact hm'
    · rw [toLinked, ends_update hqueues, hcells, LinkedQueues.pop]
      change _ = LinkedQueues.mk m.cells (Function.update m.ends queue
        ⟨(m.ends queue).head.bind fun a => (m.cells a).bind Cell.next, (m.ends queue).tail⟩)
      rw [hends, hhead, Option.bind_some, hcell]
      rfl

end Memory

end PidQueues

end SimOS
