import SimOS.Kernel.PidQueues
import SimOS.Library.Run

/-!
# The queues of Project 1 in memory

The ready queue and the queues of the semaphores are behind pointers of their own, and
`enqueue` takes the address of such a pointer: it creates the queue when it is used for
the first time. The addresses `malloc` returns are parameters, and nothing is ever
freed.

The lists of pids the kernel works with elsewhere are what is found by following
`next` from the heads.
-/

namespace SimOS

open Library
open PidQueues (cells_eq_none elts_eq_of_cells_eq queues_update_ne_none)

/-- What can point to a queue: `ready_queue`, and the field of a semaphore with this name. -/
inductive QueueVar
  | readyQueue
  | semaphore (s : Sem)
  deriving DecidableEq

/-- The elements and queues that were allocated, and the pointers to the queues. -/
structure QueueMemory (A : Type) extends PidQueues A A where
  pointers : QueueVar → Option A

/-- A call of `enqueue`, with the addresses `malloc` returned, or the removal of a head. -/
inductive QueueEvent (A : Type)
  | enqueue (var : QueueVar) (pid : Pid) (newQueue newElt : A)
  | removeHead (var : QueueVar)

namespace QueueMemory

variable {A : Type}

/-- Before `initialize_kernel` nothing was allocated. -/
def powerOn : QueueMemory A where
  elts := fun _ => none
  queues := fun _ => none
  pointers := fun _ => none

section Code

variable [DecidableEq A]

/-- A `PID_QUEUE` from `malloc`, whose head and tail are set to `NULL`. -/
def createQueue (m : QueueMemory A) (var : QueueVar) (queue : A) : QueueMemory A where
  toPidQueues := m.putQueue queue
  pointers := Function.update m.pointers var (some queue)

/-- What `initialize_kernel` does to the queues. -/
def initializeKernel (m : QueueMemory A) (queue : A) : QueueMemory A :=
  m.createQueue .readyQueue queue

/-- `enqueue`, with the addresses that `malloc` returns for a queue and an element. -/
def enqueue (m : QueueMemory A) (var : QueueVar) (pid : Pid) (newQueue newElt : A) :
    Option (QueueMemory A) :=
  -- a queue is created when it is used for the first time
  let m := if m.pointers var = none then m.createQueue var newQueue else m
  (m.pointers var).bind fun queue =>
    (m.toPidQueues.enqueue queue pid newElt).map fun queues => { m with toPidQueues := queues }

/-- `queue->head = queue->head->next`, as in `schedule` and `handle_semaphore`. -/
def removeHead (m : QueueMemory A) (var : QueueVar) : Option (QueueMemory A) :=
  (m.pointers var).bind fun queue =>
    (m.toPidQueues.removeHead queue).map fun queues => { m with toPidQueues := queues }

end Code

/-! ## The memory as linked queues -/

/-- The pointers of the queue, which are both `NULL` as long as there is no queue. -/
def ends (m : QueueMemory A) (var : QueueVar) : Ends A :=
  match m.pointers var with
  | none => { head := none, tail := none }
  | some queue => m.toPidQueues.ends queue

/-- `ready_queue->head` or `sem->ready_queue->head`; `NULL` if there is no queue. -/
def head (m : QueueMemory A) (var : QueueVar) : Option A := (m.ends var).head

def toLinked (m : QueueMemory A) : LinkedQueues QueueVar A Pid := ⟨m.cells, m.ends⟩

/-- Every pointer that is not `NULL` points to a queue of its own. -/
structure WellFormed (m : QueueMemory A) : Prop where
  allocated : ∀ var queue, m.pointers var = some queue → m.queues queue ≠ none
  distinct : ∀ var var' queue, m.pointers var = some queue → m.pointers var' = some queue →
    var = var'

section Memory

variable {m : QueueMemory A} {var : QueueVar} {queue : A}

theorem ends_of_pointer (hpointer : m.pointers var = some queue) :
    m.ends var = m.toPidQueues.ends queue := by
  rw [ends, hpointer]

theorem ends_of_null (hpointer : m.pointers var = none) :
    m.ends var = { head := none, tail := none } := by
  rw [ends, hpointer]

/-- Changing the ends of the queue of a variable changes no others. -/
theorem WellFormed.ends_update [DecidableEq A] (hm : m.WellFormed)
    (hpointer : m.pointers var = some queue) {queues : PidQueues A A} {x : Ends A}
    (hends : queues.ends = Function.update m.toPidQueues.ends queue x) :
    { m with toPidQueues := queues }.ends = Function.update m.ends var x := by
  funext other
  by_cases hother : other = var
  · have hhere : { m with toPidQueues := queues }.ends var = queues.ends queue :=
      ends_of_pointer hpointer
    rw [hother, hhere, hends, Function.update_self, Function.update_self]
  · rw [Function.update_of_ne hother, ends, ends]
    cases hp : m.pointers other with
    | none => rfl
    | some y =>
      have hne : y ≠ queue := by
        rintro rfl
        exact hother (hm.distinct other var y hp hpointer)
      rw [hends]
      exact Function.update_of_ne hne _ _

/-- As long as no queue goes away, every pointer points to a queue of its own. -/
theorem WellFormed.of_kept (hm : m.WellFormed) {queues : PidQueues A A}
    (hkept : ∀ queue, m.queues queue ≠ none → queues.queues queue ≠ none) :
    { m with toPidQueues := queues }.WellFormed where
  allocated var queue hqueue := hkept queue (hm.allocated var queue hqueue)
  distinct := hm.distinct

variable [DecidableEq A]

/-- An `enqueue` on a queue that exists is a push. -/
theorem WellFormed.enqueue (hm : m.WellFormed) (hpointer : m.pointers var = some queue)
    (hlive : ∀ tail, (m.ends var).tail = some tail → m.cells tail ≠ none) (pid : Pid)
    (newQueue elt : A) :
    ∃ m', m.enqueue var pid newQueue elt = some m' ∧
      m'.toLinked = m.toLinked.push var elt pid ∧ m'.WellFormed := by
  have hsome : m.pointers var ≠ none := by
    rw [hpointer]
    exact Option.some_ne_none queue
  have hends := ends_of_pointer hpointer
  obtain ⟨queues, hqueues, hlinked, hkept⟩ := PidQueues.enqueue_eq (hm.allocated var queue hpointer)
    (hends ▸ hlive) pid elt
  refine ⟨{ m with toPidQueues := queues }, ?_, ?_, hm.of_kept hkept⟩
  · rw [QueueMemory.enqueue, if_neg hsome, hpointer, Option.bind_some, hqueues]
    rfl
  · have hcells : queues.cells = LinkedQueues.link (Function.update m.cells elt (some ⟨none, pid⟩))
        (m.toPidQueues.ends queue).tail elt := congrArg LinkedQueues.cells hlinked
    rw [toLinked, hm.ends_update hpointer (congrArg LinkedQueues.ends hlinked), LinkedQueues.push]
    change LinkedQueues.mk queues.cells _ = LinkedQueues.mk (LinkedQueues.link _
      (m.ends var).tail elt) (Function.update m.ends var ⟨(m.ends var).head.or _, _⟩)
    rw [hcells, hends]
    rfl

/-! ## Queues that are created -/

theorem pointers_createQueue_eq {other : QueueVar} {x : A} :
    (m.createQueue var queue).pointers other = some x ↔
      (other = var ∧ x = queue) ∨ (other ≠ var ∧ m.pointers other = some x) := by
  change Function.update m.pointers var (some queue) other = some x ↔ _
  by_cases hother : other = var
  · rw [hother, Function.update_self, Option.some.injEq]
    simp [eq_comm]
  · rw [Function.update_of_ne hother]
    simp [hother]

/-- A queue is created where there was none. -/
theorem WellFormed.createQueue (hm : m.WellFormed) (hpointer : m.pointers var = none)
    (hfresh : m.queues queue = none) :
    (m.createQueue var queue).toLinked = m.toLinked ∧ (m.createQueue var queue).WellFormed := by
  have hne : ∀ {other x}, m.pointers other = some x → x ≠ queue := by
    rintro other x hx rfl
    exact hm.allocated other x hx hfresh
  have hput := congrArg LinkedQueues.ends (PidQueues.toLinked_putQueue_of_null hfresh)
  refine ⟨?_, fun other x hx => ?_, fun other other' x hx hx' => ?_⟩
  · have hends : (m.createQueue var queue).ends = m.ends := by
      funext other
      by_cases hother : other = var
      · rw [hother, ends_of_null hpointer,
          ends_of_pointer (pointers_createQueue_eq.mpr (.inl ⟨rfl, rfl⟩))]
        exact (congrFun hput queue).trans (PidQueues.ends_of_null hfresh)
      · have hsame : (m.createQueue var queue).pointers other = m.pointers other :=
          Function.update_of_ne hother _ _
        rw [ends, ends, hsame]
        cases m.pointers other with
        | none => rfl
        | some x => exact congrFun hput x
    rw [toLinked, hends]
    rfl
  · rcases pointers_createQueue_eq.mp hx with ⟨_, rfl⟩ | ⟨_, hold⟩
    · change Function.update m.queues _ _ _ ≠ none
      rw [Function.update_self]
      exact Option.some_ne_none _
    · exact queues_update_ne_none rfl x (hm.allocated other x hold)
  · rcases pointers_createQueue_eq.mp hx with ⟨rfl, rfl⟩ | ⟨_, hold⟩
    · rcases pointers_createQueue_eq.mp hx' with ⟨rfl, _⟩ | ⟨_, hold'⟩
      · rfl
      · exact absurd rfl (hne hold')
    · rcases pointers_createQueue_eq.mp hx' with ⟨_, rfl⟩ | ⟨_, hold'⟩
      · exact absurd rfl (hne hold)
      · exact hm.distinct other other' x hold hold'

/-- A queue is created in the place of one that exists. -/
theorem WellFormed.recreateQueue (hm : m.WellFormed) (hpointer : m.pointers var = some queue) :
    (m.createQueue var queue).toLinked = m.toLinked.reset var ∧
      (m.createQueue var queue).WellFormed := by
  have hsame : m.createQueue var queue = { m with toPidQueues := m.putQueue queue } := by
    rw [QueueMemory.createQueue, ← hpointer, Function.update_eq_self]
  have hreset : (m.putQueue queue).toLinked = m.toPidQueues.toLinked.reset queue :=
    PidQueues.toLinked_putQueue
  rw [hsame]
  refine ⟨?_, hm.of_kept (queues_update_ne_none rfl)⟩
  exact congrArg (LinkedQueues.mk m.cells)
    (hm.ends_update hpointer (congrArg LinkedQueues.ends hreset))

/-- A removal from a queue with a head is a pop. -/
theorem WellFormed.removeHead (hm : m.WellFormed) {a : A} (hhead : m.head var = some a)
    (hlive : m.cells a ≠ none) :
    ∃ m', m.removeHead var = some m' ∧ m'.toLinked = m.toLinked.pop var ∧ m'.WellFormed := by
  cases hpointer : m.pointers var with
  | none =>
    rw [head, ends_of_null hpointer] at hhead
    cases hhead
  | some queue =>
    have hends := ends_of_pointer hpointer
    rw [head, hends] at hhead
    obtain ⟨queues, hqueues, hlinked, hkept⟩ := PidQueues.removeHead_eq hhead hlive
    refine ⟨{ m with toPidQueues := queues }, ?_, ?_, hm.of_kept hkept⟩
    · rw [QueueMemory.removeHead, hpointer, Option.bind_some, hqueues]
      rfl
    · have hcells : queues.cells = m.cells := congrArg LinkedQueues.cells hlinked
      rw [toLinked, hm.ends_update hpointer (congrArg LinkedQueues.ends hlinked), LinkedQueues.pop]
      change LinkedQueues.mk queues.cells _ = LinkedQueues.mk m.cells (Function.update m.ends var
        ⟨(m.ends var).head.bind fun a => (m.cells a).bind Cell.next, (m.ends var).tail⟩)
      rw [hcells, hends]
      rfl

/-- The first `enqueue` on a queue creates it and goes on as if it had been there. -/
theorem enqueue_of_null (hpointer : m.pointers var = none) (pid : Pid) (newQueue newElt : A) :
    m.enqueue var pid newQueue newElt =
      (m.createQueue var newQueue).enqueue var pid newQueue newElt := by
  have hsome : (m.createQueue var newQueue).pointers var ≠ none := by
    rw [pointers_createQueue_eq.mpr (.inl ⟨rfl, rfl⟩)]
    exact Option.some_ne_none _
  conv_lhs => rw [QueueMemory.enqueue, if_pos hpointer]
  conv_rhs => rw [QueueMemory.enqueue, if_neg hsome]

end Memory

/-! ## Runs -/

/-- The memory is in order, and its queues hold these nodes. -/
structure Sound (m : QueueMemory A) (nodes : QueueVar → List (A × Pid)) : Prop where
  wellFormed : m.WellFormed
  holds : m.toLinked.Holds nodes

theorem sound_powerOn : (powerOn : QueueMemory A).Sound fun _ => [] := by
  have hends : ∀ var, (powerOn : QueueMemory A).ends var = { head := none, tail := none } :=
    fun _ => rfl
  refine ⟨⟨fun _ _ h => ?_, fun _ _ _ h => ?_⟩, ⟨fun _ => rfl, fun _ front _ _ h => ?_,
    fun _ _ h => ?_, fun _ _ _ h => ?_, fun _ _ _ h => ?_⟩⟩
  · cases h
  · cases h
  · exact absurd h.symm (List.concat_ne_nil _ front)
  · cases h
  · cases h
  · exact absurd h List.not_mem_nil

variable [DecidableEq A]

def exec (m : QueueMemory A) : QueueEvent A → Option (QueueMemory A)
  | .enqueue var pid newQueue newElt => m.enqueue var pid newQueue newElt
  | .removeHead var => m.removeHead var

/-- `malloc` returns what is not allocated, and heads are removed only where there is one. -/
def Legal (m : QueueMemory A) : QueueEvent A → Prop
  | .enqueue var _ newQueue newElt =>
    (m.pointers var = none → m.queues newQueue = none) ∧ m.elts newElt = none
  | .removeHead var => m.head var ≠ none

/-- A run from before or after `initialize_kernel`. -/
def QueueRun : List (QueueEvent A × QueueMemory A) → QueueMemory A → Prop :=
  Run (fun m => m = powerOn ∨ ∃ queue, m = powerOn.initializeKernel queue)
    fun _ m e m' => m.Legal e ∧ m.exec e = some m'

/-- The pids that were enqueued on the queue, in order. -/
def enqueued (var : QueueVar) : List (QueueEvent A × QueueMemory A) → List Pid
  | [] => []
  | (.enqueue v pid _ _, _) :: h =>
    if v = var then SimOS.enqueue (enqueued var h) pid else enqueued var h
  | (.removeHead _, _) :: h => enqueued var h

/-- How many heads were removed from the queue. -/
def removals (var : QueueVar) : List (QueueEvent A × QueueMemory A) → ℕ
  | [] => 0
  | (.enqueue _ _ _ _, _) :: h => removals var h
  | (.removeHead v, _) :: h => if v = var then removals var h + 1 else removals var h

section Runs

variable {m : QueueMemory A} {nodes : QueueVar → List (A × Pid)} {var : QueueVar}

theorem Sound.createQueue (h : m.Sound nodes) {queue : A} (hpointer : m.pointers var = none)
    (hfresh : m.queues queue = none) : (m.createQueue var queue).Sound nodes := by
  obtain ⟨hlinked, hwf⟩ := h.wellFormed.createQueue hpointer hfresh
  refine ⟨hwf, ?_⟩
  rw [hlinked]
  exact h.holds

/-- An `enqueue` puts a new node behind the others of its queue. -/
theorem Sound.enqueue (h : m.Sound nodes) (var : QueueVar) (pid : Pid) {newQueue newElt : A}
    (hqueue : m.pointers var = none → m.queues newQueue = none) (hfresh : m.elts newElt = none) :
    ∃ m', m.enqueue var pid newQueue newElt = some m' ∧
      m'.toLinked = m.toLinked.push var newElt pid ∧
      m'.Sound (Function.update nodes var (nodes var ++ [(newElt, pid)])) := by
  have hpush := h.holds.push (cells_eq_none.mpr hfresh) var pid
  cases hpointer : m.pointers var with
  | none =>
    obtain ⟨hlinked, hwf⟩ := h.wellFormed.createQueue hpointer (hqueue hpointer)
    have hcreated := h.createQueue hpointer (hqueue hpointer)
    obtain ⟨m', hm', hlinked', hwf'⟩ := hwf.enqueue (pointers_createQueue_eq.mpr (.inl ⟨rfl, rfl⟩))
      (hcreated.holds.live var) pid newQueue newElt
    rw [enqueue_of_null hpointer]
    rw [hlinked] at hlinked'
    exact ⟨m', hm', hlinked', hwf', by rw [hlinked']; exact hpush⟩
  | some queue =>
    obtain ⟨m', hm', hlinked', hwf'⟩ :=
      h.wellFormed.enqueue hpointer (h.holds.live var) pid newQueue newElt
    exact ⟨m', hm', hlinked', hwf', by rw [hlinked']; exact hpush⟩

/-- The removal of a head takes the first node off its queue. -/
theorem Sound.removeHead (h : m.Sound nodes) (hhead : m.head var ≠ none) :
    ∃ node rest m', nodes var = node :: rest ∧ m.removeHead var = some m' ∧
      m'.Sound (Function.update nodes var rest) := by
  have hfollows := h.holds.follows var
  cases hnodes : nodes var with
  | nil => exact absurd (hfollows.eq_none_iff.mpr hnodes) hhead
  | cons node rest =>
    rw [hnodes] at hfollows
    obtain ⟨m', hm', hlinked, hwf⟩ := h.wellFormed.removeHead hfollows.1
      (hfollows.ne_none List.mem_cons_self)
    refine ⟨node, rest, m', rfl, hm', hwf, ?_⟩
    rw [hlinked]
    exact h.holds.pop hnodes

/-- Along every run each queue holds what was enqueued on it and is not yet removed. -/
theorem QueueRun.sound {h : List (QueueEvent A × QueueMemory A)} (hrun : QueueRun h m) :
    ∃ nodes, m.Sound nodes ∧ ∀ var, removals var h ≤ (enqueued var h).length ∧
      (nodes var).map Prod.snd = (enqueued var h).drop (removals var h) := by
  refine Run.invariant (P := fun h m => ∃ nodes, m.Sound nodes ∧ ∀ var,
    removals var h ≤ (enqueued var h).length ∧
      (nodes var).map Prod.snd = (enqueued var h).drop (removals var h)) ?_ ?_ hrun
  · rintro m (rfl | ⟨queue, rfl⟩)
    · exact ⟨_, sound_powerOn, fun _ => ⟨le_refl 0, rfl⟩⟩
    · exact ⟨_, sound_powerOn.createQueue rfl rfl, fun _ => ⟨le_refl 0, rfl⟩⟩
  · rintro h m e m' _ ⟨nodes, hsound, hnodes⟩ ⟨hlegal, hexec⟩
    cases e with
    | enqueue v pid newQueue newElt =>
      obtain ⟨m₁, hm₁, _, hnext⟩ := hsound.enqueue v pid hlegal.1 hlegal.2
      obtain rfl := Option.some.inj (hexec.symm.trans hm₁)
      refine ⟨_, hnext, fun var => ?_⟩
      obtain ⟨hle, hpids⟩ := hnodes var
      rw [enqueued, removals]
      by_cases hv : v = var
      · subst hv
        rw [Function.update_self, if_pos rfl, SimOS.enqueue, List.map_append, hpids,
          List.drop_append_of_le_length hle, List.length_append]
        exact ⟨Nat.le_add_right_of_le hle, rfl⟩
      · rw [Function.update_of_ne (Ne.symm hv), if_neg hv]
        exact ⟨hle, hpids⟩
    | removeHead v =>
      obtain ⟨node, rest, m₁, hnode, hm₁, hnext⟩ := hsound.removeHead hlegal
      obtain rfl := Option.some.inj (hexec.symm.trans hm₁)
      refine ⟨_, hnext, fun var => ?_⟩
      obtain ⟨hle, hpids⟩ := hnodes var
      rw [enqueued, removals]
      by_cases hv : v = var
      · subst hv
        rw [hnode, List.map_cons] at hpids
        rw [Function.update_self, if_pos rfl, ← List.tail_drop, ← hpids]
        refine ⟨?_, rfl⟩
        by_contra hlt
        rw [List.drop_of_length_le (by omega)] at hpids
        cases hpids
      · rw [Function.update_of_ne (Ne.symm hv), if_neg hv]
        exact ⟨hle, hpids⟩

theorem Sound.exec (h : m.Sound nodes) {e : QueueEvent A} (hlegal : m.Legal e) :
    ∃ m', m.exec e = some m' := by
  cases e with
  | enqueue var pid newQueue newElt =>
    obtain ⟨m', hm', _, _⟩ := h.enqueue var pid hlegal.1 hlegal.2
    exact ⟨m', hm'⟩
  | removeHead var =>
    obtain ⟨_, _, m', _, hm', _⟩ := h.removeHead hlegal
    exact ⟨m', hm'⟩

/-- A queue that was emptied takes an element as one does that was just created in its place. -/
theorem Sound.enqueue_recreated (h : m.Sound nodes) {queue newElt : A}
    (hpointer : m.pointers var = some queue) (hhead : m.head var = none) (pid : Pid)
    (newQueue : A) (hfresh : m.elts newElt = none) :
    ∃ m' m'', m.enqueue var pid newQueue newElt = some m' ∧
      (m.createQueue var queue).enqueue var pid newQueue newElt = some m'' ∧
      m'.ends = m''.ends ∧
      ∀ other a, Reaches m'.cells (m'.head other) a → m'.elts a = m''.elts a := by
  obtain ⟨m', hm', hlinked', _⟩ := h.wellFormed.enqueue hpointer (h.holds.live var) pid newQueue
    newElt
  obtain ⟨hreset, hwf⟩ := h.wellFormed.recreateQueue hpointer
  have hends : (m.createQueue var queue).ends var = { head := none, tail := none } :=
    (congrFun (congrArg LinkedQueues.ends hreset) var).trans LinkedQueues.ends_reset_self
  obtain ⟨m'', hm'', hlinked'', _⟩ := hwf.enqueue (pointers_createQueue_eq.mpr (.inl ⟨rfl, rfl⟩))
    (fun tail htail => by rw [hends] at htail; cases htail) pid newQueue newElt
  rw [hreset] at hlinked''
  obtain ⟨hsame, hreached⟩ := h.holds.push_reset (v := pid) (cells_eq_none.mpr hfresh) hhead
  rw [← hlinked', ← hlinked''] at hsame hreached
  exact ⟨m', m'', hm', hm'', hsame, fun other a ha => elts_eq_of_cells_eq (hreached other a ha)⟩

end Runs

/-- The pointer queues are first-in first-out lists. Following `next` from the head of
a queue meets the pids that were enqueued on it and are not yet removed, in order, and
ends; no element is met twice, or from the heads of two queues; every call is defined;
and a queue that was emptied, whose tail is stale, takes the next element as a queue
that was just created in its place, but for elements that no queue reaches. -/
theorem pointer_queues_fifo {m : QueueMemory A} {h : List (QueueEvent A × QueueMemory A)}
    (hrun : QueueRun h m) :
    (∀ var, ∃ nodes, Follows m.cells (m.head var) nodes ∧
      nodes.map Prod.snd = (enqueued var h).drop (removals var h) ∧
      (nodes.map Prod.fst).Nodup) ∧
    (∀ var var' a, Reaches m.cells (m.head var) a → Reaches m.cells (m.head var') a →
      var = var') ∧
    (∀ e, m.Legal e → ∃ m', m.exec e = some m') ∧
    ∀ var queue, m.pointers var = some queue → m.head var = none →
      ∀ pid newQueue newElt, m.elts newElt = none → ∃ m' m'',
        m.enqueue var pid newQueue newElt = some m' ∧
        (m.createQueue var queue).enqueue var pid newQueue newElt = some m'' ∧
        m'.ends = m''.ends ∧
        ∀ other a, Reaches m'.cells (m'.head other) a → m'.elts a = m''.elts a := by
  obtain ⟨nodes, hsound, hnodes⟩ := hrun.sound
  have hfollows := hsound.holds.follows
  refine ⟨fun var => ⟨nodes var, hfollows var, (hnodes var).2, (hfollows var).nodup⟩,
    fun var var' a ha ha' => ?_, fun e he => hsound.exec he,
    fun var queue hpointer hhead pid newQueue newElt hfresh =>
      hsound.enqueue_recreated hpointer hhead pid newQueue hfresh⟩
  exact hsound.holds.apart var var' a ((hfollows var).mem_of_reaches ha)
    ((hfollows var').mem_of_reaches ha')

/-- Process 3 is enqueued and removed, and process 5 is enqueued behind the stale tail. -/
theorem pointer_queues_fifo_stale_tail : ∃ h, ∃ m : QueueMemory ℕ, QueueRun h m ∧
    h.map Prod.fst = [.enqueue .readyQueue 5 0 2, .removeHead .readyQueue,
      .enqueue .readyQueue 3 0 1] ∧
    ∃ nodes, Follows m.cells (m.head .readyQueue) nodes ∧ nodes.map Prod.snd = [5] := by
  have hstart : QueueRun [] ((powerOn : QueueMemory ℕ).initializeKernel 0) := .start (.inr ⟨0, rfl⟩)
  have hfirst : QueueRun [(.enqueue .readyQueue 3 0 1, _)] _ :=
    .next hstart ⟨⟨fun h => (by cases h), rfl⟩, rfl⟩
  have hremoved : QueueRun [(.removeHead .readyQueue, _), _] _ :=
    .next hfirst ⟨Option.some_ne_none 1, rfl⟩
  have hrun : QueueRun [(.enqueue .readyQueue 5 0 2, _), _, _] _ :=
    .next hremoved ⟨⟨fun h => (by cases h), rfl⟩, rfl⟩
  obtain ⟨nodes, hfollows, hpids, _⟩ := (pointer_queues_fifo hrun).1 .readyQueue
  exact ⟨_, _, hrun, rfl, nodes, hfollows, hpids⟩

end QueueMemory

end SimOS
