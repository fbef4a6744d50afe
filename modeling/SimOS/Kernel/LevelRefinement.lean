import SimOS.Kernel.PointerMultilevel
import SimOS.Kernel.MultilevelRuns
import SimOS.Kernel.PointerRefinement

/-!
# The multilevel kernel on pointer queues refines the one on lists

A state with its memory stands for the state in which every queue is the list of
pids the links lead to. No process in a ready queue is ever blocked, so `schedule`
calls itself only to go down a level, and five calls deep are enough.
-/

namespace SimOS

open Library

namespace Multilevel

/-- No process in a ready queue is blocked. -/
def Unblocked (k : Multilevel) : Prop :=
  ∀ level, ∀ pid ∈ k.readyQueues level, k.state pid ≠ .blocked

/-- And the process on the CPU is in no ready queue. -/
structure Schedulable (k : Multilevel) : Prop where
  unblocked : k.Unblocked
  apart : ∀ pid, k.currentPid = some pid → ∀ level, pid ∉ k.readyQueues level

section Schedulable

variable {k k' : Multilevel} {pid : Pid} {state : ProcessState}

/-- A process that is in no ready queue may be in any state. -/
theorem Unblocked.update (h : k.Unblocked) (hpid : ∀ level, pid ∉ k.readyQueues level)
    (hqueues : k'.readyQueues = k.readyQueues)
    (hstate : k'.state = Function.update k.state pid state) : k'.Unblocked := by
  intro level q hq
  rw [hqueues] at hq
  have hne : q ≠ pid := by
    rintro rfl
    exact hpid level hq
  rw [hstate, Function.update_of_ne hne]
  exact h level q hq

/-- A process that is made ready may join a ready queue. -/
theorem Unblocked.enqueueAt (h : k.Unblocked) (hqueues : k'.readyQueues = k.readyQueues)
    (hstate : k'.state = Function.update k.state pid .ready) (level : Fin 5) :
    (k'.enqueueAt level pid).Unblocked := by
  intro l q hq
  change k'.state q ≠ .blocked
  rw [hstate]
  by_cases hne : q = pid
  · rw [hne, Function.update_self]
    exact ProcessState.noConfusion
  · rw [Function.update_of_ne hne]
    refine h l q ?_
    rw [← hqueues]
    change q ∈ Function.update k'.readyQueues level (enqueue (k'.readyQueues level) pid) l at hq
    by_cases hl : l = level
    · rw [hl, Function.update_self, enqueue, List.mem_append, List.mem_singleton] at hq
      rw [hl]
      exact hq.resolve_right hne
    · rwa [Function.update_of_ne hl] at hq

theorem Inv.schedulable (hk : k.Inv) (hhalted : k.halted = none) : k.Schedulable := by
  have hinv := hk.census hhalted
  refine ⟨fun level pid hpid hblocked => ?_, fun pid hcurrent => ?_⟩
  · have hready := hinv.state_of_mem (.ready level) hpid
    exact ProcessState.noConfusion (hready.symm.trans hblocked)
  · rw [hcurrent] at hinv
    exact running_not_mem_ready hinv

theorem Schedulable.deliver (h : k.Schedulable) (e : Event) : (k.deliver e).Schedulable := by
  refine ⟨h.unblocked, fun pid hcurrent => h.apart pid ?_⟩
  rwa [Multilevel.deliver, Core.deliver_currentPid] at hcurrent

end Schedulable

end Multilevel

namespace PointerMultilevel

variable {A : Type}

/-! ## What a state stands for -/

/-- The pids in the nodes of a queue. -/
def pids (nodes : QueuePointer A → List (A × Pid)) (queue : QueuePointer A) : List Pid :=
  (nodes queue).map Prod.snd

/-- The semaphores with the lists that are found in the memory as their queues. -/
def absSemaphores (p : PointerMultilevel A) (nodes : QueuePointer A → List (A × Pid)) (s : Sem) :
    Semaphore where
  readyQueue := (p.memory.pointers s).map fun queue => pids nodes (.allocated queue)
  value := (p.semaphores s).value

/-- The state with lists in place of the queues. -/
def abs (p : PointerMultilevel A) (nodes : QueuePointer A → List (A × Pid))
    (discarded : List Pid) : Multilevel where
  toCore := { p.toCore with semaphores := p.absSemaphores nodes }
  processTable := p.processTable
  readyQueues := fun level => pids nodes (.readyQueue level)
  discarded := discarded

/-- The memory is in order, and the state stands for that of the kernel on lists. -/
structure Represents (p : PointerMultilevel A) (nodes : QueuePointer A → List (A × Pid))
    (k : Multilevel) : Prop where
  sound : p.memory.Sound nodes
  eq : k = p.abs nodes k.discarded

def StandsFor (p : PointerMultilevel A) (k : Multilevel) : Prop := ∃ nodes, p.Represents nodes k

section Abs

variable {p : PointerMultilevel A} {nodes : QueuePointer A → List (A × Pid)} {k : Multilevel}

theorem eq_abs (hsemaphores : k.semaphores = p.absSemaphores nodes)
    (hcore : k.toCore = { p.toCore with semaphores := k.semaphores })
    (htable : k.processTable = p.processTable)
    (hready : k.readyQueues = fun level => pids nodes (.readyQueue level)) :
    k = p.abs nodes k.discarded := by
  rw [abs, ← hsemaphores, ← hcore, ← htable, ← hready]

variable [DecidableEq A]

theorem pids_update_self (nodes : QueuePointer A → List (A × Pid)) (queue : QueuePointer A)
    (new : List (A × Pid)) : pids (Function.update nodes queue new) queue = new.map Prod.snd := by
  rw [pids, Function.update_self]

theorem pids_update_of_ne (nodes : QueuePointer A → List (A × Pid))
    {queue other : QueuePointer A} (hne : other ≠ queue) (new : List (A × Pid)) :
    pids (Function.update nodes queue new) other = pids nodes other := by
  rw [pids, Function.update_of_ne hne, pids]

/-- New nodes in a ready queue are a new list in its place, and nothing else. -/
theorem abs_updateReady (p : PointerMultilevel A) (nodes : QueuePointer A → List (A × Pid))
    (level : Fin 5) (new : List (A × Pid)) {m' : LevelMemory A}
    (hpointers : m'.pointers = p.memory.pointers) (discarded : List Pid) :
    { p with memory := m' }.abs (Function.update nodes (.readyQueue level) new) discarded =
      { p.abs nodes discarded with
        readyQueues :=
          Function.update (p.abs nodes discarded).readyQueues level (new.map Prod.snd) } := by
  symm
  refine eq_abs (p := { p with memory := m' })
    (k := { p.abs nodes discarded with
      readyQueues := Function.update (p.abs nodes discarded).readyQueues level _ })
    (funext fun s => ?_) rfl rfl (funext fun l => ?_)
  · change p.absSemaphores nodes s = _
    have hsame : ∀ queue, pids (Function.update nodes (.readyQueue level) new) (.allocated queue) =
        pids nodes (.allocated queue) := fun queue =>
      pids_update_of_ne nodes (QueuePointer.allocated_ne_readyQueue queue level) new
    rw [absSemaphores, absSemaphores, hpointers]
    simp only [hsame]
  · change Function.update (fun l => pids nodes (.readyQueue l)) level _ l = _
    by_cases hl : l = level
    · rw [hl, Function.update_self, pids_update_self]
    · have hne : QueuePointer.readyQueue l ≠ (.readyQueue level : QueuePointer A) :=
        fun h => hl (QueuePointer.readyQueue.inj h)
      rw [Function.update_of_ne hl, pids_update_of_ne nodes hne]

/-- New nodes in the queue of a semaphore are a new list in its place, and nothing else. -/
theorem abs_updateWaiting (p : PointerMultilevel A) (nodes : QueuePointer A → List (A × Pid))
    {s : Sem} {queue : A} (new : List (A × Pid)) {m' : LevelMemory A}
    (hpointers : m'.pointers = Function.update p.memory.pointers s (some queue))
    (hown : ∀ t, t ≠ s → p.memory.pointers t ≠ some queue) (discarded : List Pid) :
    { p with memory := m' }.abs (Function.update nodes (.allocated queue) new) discarded =
      (p.abs nodes discarded).setSemaphore s
        { (p.abs nodes discarded).semaphores s with readyQueue := some (new.map Prod.snd) } := by
  symm
  refine eq_abs (p := { p with memory := m' })
    (k := (p.abs nodes discarded).setSemaphore s _) (funext fun t => ?_) rfl rfl
    (funext fun level => (pids_update_of_ne nodes
      (QueuePointer.allocated_ne_readyQueue queue level).symm new).symm)
  change Function.update (p.absSemaphores nodes) s ⟨some (new.map Prod.snd), _⟩ t = _
  rw [absSemaphores, hpointers]
  by_cases ht : t = s
  · rw [ht, Function.update_self, Function.update_self, Option.map_some, pids_update_self]
    rfl
  · rw [Function.update_of_ne ht, Function.update_of_ne ht, absSemaphores]
    cases hqueue : p.memory.pointers t with
    | none => rfl
    | some other =>
      have hne : QueuePointer.allocated other ≠ .allocated queue := by
        intro heq
        obtain rfl := QueuePointer.allocated.inj heq
        exact hown t ht hqueue
      rw [Option.map_some, Option.map_some, pids_update_of_ne nodes hne]

end Abs

section Represents

variable {p p' : PointerMultilevel A} {nodes : QueuePointer A → List (A × Pid)}
  {k k' : Multilevel} {s : Sem} {pid : Pid}

theorem Represents.readyQueues_eq (h : p.Represents nodes k) (level : Fin 5) :
    k.readyQueues level = pids nodes (.readyQueue level) := by
  rw [h.eq]
  rfl

theorem Represents.state_eq (h : p.Represents nodes k) : k.state = p.state := by
  rw [h.eq]
  rfl

theorem Represents.priority_eq (h : p.Represents nodes k) : k.priority = p.priority := by
  rw [h.eq]
  rfl

theorem Represents.clock_eq (h : p.Represents nodes k) : k.clock = p.clock := by
  rw [h.eq]
  rfl

theorem Represents.semaphores_eq (h : p.Represents nodes k) :
    k.semaphores = p.absSemaphores nodes := by
  rw [h.eq]
  rfl

/-- What changes neither the queues nor the memory. -/
theorem Represents.congr (h : p.Represents nodes k) (hmemory : p'.memory = p.memory)
    (heq : k' = p'.abs nodes k'.discarded) : p'.Represents nodes k' := by
  refine ⟨?_, heq⟩
  rw [hmemory]
  exact h.sound

theorem Represents.print (h : p.Represents nodes k) (message : Message) :
    (p.print message).Represents nodes (k.print message) :=
  h.congr rfl (by rw [h.eq]; rfl)

theorem Represents.setState (h : p.Represents nodes k) (pid : Pid) (state : ProcessState) :
    (p.setState pid state).Represents nodes (k.setState pid state) :=
  h.congr rfl (by rw [h.eq]; rfl)

theorem Represents.setPriority (h : p.Represents nodes k) (pid : Pid) (priority : ℤ) :
    (p.setPriority pid priority).Represents nodes (k.setPriority pid priority) :=
  h.congr rfl (by rw [h.eq]; rfl)

theorem Represents.addCpuTime (h : p.Represents nodes k) (pid : Pid) :
    (p.addCpuTime pid).Represents nodes (k.addCpuTime pid) :=
  h.congr rfl (by rw [h.eq]; rfl)

/-- `current_quantum_start_time = clock`. -/
theorem Represents.startQuantum (h : p.Represents nodes k) :
    PointerMultilevel.Represents { p with currentQuantumStartTime := p.clock } nodes
      { k with currentQuantumStartTime := k.clock } :=
  h.congr rfl (by rw [h.eq]; rfl)

/-- The request to the driver, which is counted. -/
theorem Represents.requestRead (h : p.Represents nodes k) (device : Device) (pid : Pid) :
    PointerMultilevel.Represents
      { p with toCore := { p.toCore.readReq device pid with ioProcesses := p.ioProcesses + 1 } }
      nodes
      { k with toCore := { k.toCore.readReq device pid with ioProcesses := k.ioProcesses + 1 } } :=
  h.congr rfl (by rw [h.eq]; rfl)

theorem Represents.boost (h : p.Represents nodes k) (pid : Pid) :
    (p.boost pid).Represents nodes (k.boost pid) := by
  have helapsed : k.elapsed = p.elapsed := by
    rw [h.eq]
    rfl
  rw [PointerMultilevel.boost, Multilevel.boost, helapsed, h.priority_eq]
  split_ifs
  · exact h.setPriority pid _
  · exact h
  · exact h

theorem Represents.demote (h : p.Represents nodes k) (pid : Pid) :
    (p.demote pid).Represents nodes (k.demote pid) := by
  rw [PointerMultilevel.demote, Multilevel.demote, h.priority_eq]
  split_ifs
  · exact h.setPriority pid _
  · exact h

/-- Counting a semaphore up or down leaves its queue alone. -/
theorem Represents.modifySemaphore (h : p.Represents nodes k) (s : Sem)
    {f : Semaphore → Semaphore} {g : Word → Word}
    (hf : ∀ queue value, f ⟨queue, value⟩ = ⟨queue, g value⟩) :
    (p.modifySemaphore s f).Represents nodes (k.setSemaphore s (f (k.semaphores s))) := by
  refine h.congr rfl (eq_abs (funext fun t => ?_) ?_ ?_ (funext h.readyQueues_eq))
  · change Function.update k.semaphores s _ t = _
    rw [h.semaphores_eq, absSemaphores]
    by_cases ht : t = s
    · rw [ht, Function.update_self, absSemaphores, hf]
      change _ = Semaphore.mk _ (Function.update p.semaphores s _ s).value
      rw [Function.update_self, hf]
      rfl
    · rw [Function.update_of_ne ht]
      change _ = Semaphore.mk _ (Function.update p.semaphores s _ t).value
      rw [Function.update_of_ne ht]
      rfl
  · rw [h.eq]
    rfl
  · rw [h.eq]
    rfl

/-- The processes that wait for a semaphore are found behind its pointer. -/
theorem Represents.waiting_eq (h : p.Represents nodes k) {queue : A}
    (hpointer : p.memory.pointers s = some queue) :
    (k.semaphores s).waiting = pids nodes (.allocated queue) := by
  rw [h.semaphores_eq, Semaphore.waiting, absSemaphores, hpointer]
  rfl

theorem Represents.waiting_eq_nil (h : p.Represents nodes k)
    (hpointer : p.memory.pointers s = none) : (k.semaphores s).waiting = [] := by
  rw [h.semaphores_eq, Semaphore.waiting, absSemaphores, hpointer]
  rfl

variable [DecidableEq A]

theorem Represents.enqueueAt (h : p.Represents nodes k) (level : Fin 5) (pid : Pid) {newElt : A}
    (hfresh : p.memory.elts newElt = none) :
    ∃ p', p.enqueue (.readyQueue level) pid newElt = some p' ∧
      p'.memory.pointers = p.memory.pointers ∧
      p'.Represents (Function.update nodes (.readyQueue level)
        (nodes (.readyQueue level) ++ [(newElt, pid)])) (k.enqueueAt level pid) := by
  obtain ⟨m', hm', hpointers, hsound⟩ := h.sound.enqueue (h.sound.ready level) pid hfresh
  refine ⟨{ p with memory := m' }, by rw [PointerMultilevel.enqueue, hm']; rfl, hpointers, hsound,
    ?_⟩
  change _ = { p with memory := m' }.abs _ k.discarded
  rw [abs_updateReady p nodes level _ hpointers, ← h.eq, Multilevel.enqueueAt, h.readyQueues_eq,
    List.map_append]
  rfl

/-- The head of a ready queue leaves. -/
theorem Represents.removeReady (h : p.Represents nodes k) {level : Fin 5} {node : A × Pid}
    {rest : List (A × Pid)} (hnodes : nodes (.readyQueue level) = node :: rest) :
    ∃ p', p.removeHead (.readyQueue level) = some p' ∧
      p'.Represents (Function.update nodes (.readyQueue level) rest)
        { k with readyQueues := Function.update k.readyQueues level (rest.map Prod.snd) } := by
  obtain ⟨m', hm', hpointers, hsound⟩ := h.sound.removeHead hnodes
  refine ⟨{ p with memory := m' }, by rw [PointerMultilevel.removeHead, hm']; rfl, hsound, ?_⟩
  change _ = { p with memory := m' }.abs _ k.discarded
  rw [abs_updateReady p nodes level _ hpointers, ← h.eq]

/-- The head of the queue of a semaphore leaves. -/
theorem Represents.removeWaiting (h : p.Represents nodes k) {queue : A}
    (hpointer : p.memory.pointers s = some queue) {node : A × Pid} {rest : List (A × Pid)}
    (hnodes : nodes (.allocated queue) = node :: rest) :
    ∃ p', p.removeWaiting s = some p' ∧ p'.StandsFor
      (k.setSemaphore s { k.semaphores s with readyQueue := some (rest.map Prod.snd) }) := by
  obtain ⟨m', hm', hpointers, hsound⟩ := h.sound.removeHead hnodes
  have hupdate : m'.pointers = Function.update p.memory.pointers s (some queue) := by
    rw [hpointers, ← hpointer, Function.update_eq_self]
  refine ⟨{ p with memory := m' }, ?_, _, hsound, ?_⟩
  · rw [PointerMultilevel.removeWaiting, hpointer, Option.bind_some, PointerMultilevel.removeHead,
      hm']
    rfl
  · change _ = { p with memory := m' }.abs _ k.discarded
    rw [abs_updateWaiting p nodes rest hupdate fun t ht hother =>
      ht (h.sound.distinct t s queue hother hpointer), ← h.eq]

/-- A process joins the queue of a semaphore, which is created on first use. -/
theorem Represents.wait (h : p.Represents nodes k) (s : Sem) (pid : Pid) {newQueue newElt : A}
    (hqueue : p.memory.queues (.allocated newQueue) = none)
    (hfresh : p.memory.elts newElt = none) :
    ∃ p', (p.initQueue s newQueue).enqueueWaiting s pid newElt = some p' ∧
      p'.StandsFor (k.setSemaphore s ((k.semaphores s).enqueue pid)) := by
  obtain ⟨hsound, queue, hpointers, hcases⟩ := h.sound.initQueue s hqueue
  have hpointer : (p.memory.initQueue s newQueue).pointers s = some queue := by
    rw [hpointers, Function.update_self]
  have hwaiting : (k.semaphores s).waiting = pids nodes (.allocated queue) := by
    rcases hcases with hthere | ⟨hnull, hnil⟩
    · exact h.waiting_eq hthere
    · rw [h.waiting_eq_nil hnull, pids, hnil]
      rfl
  have hown : ∀ t, t ≠ s → p.memory.pointers t ≠ some queue := by
    intro t ht hother
    refine ht (hsound.distinct t s queue ?_ hpointer)
    rwa [hpointers, Function.update_of_ne ht]
  have helts : (p.memory.initQueue s newQueue).elts newElt = none := by
    rw [LevelMemory.initQueue]
    split_ifs
    · exact hfresh
    · exact hfresh
  obtain ⟨m', hm', hpointers', hsound'⟩ := hsound.enqueue (hsound.allocated s queue hpointer) pid
    helts
  refine ⟨{ p with memory := m' }, ?_, _, hsound', ?_⟩
  · change ((p.memory.initQueue s newQueue).pointers s).bind _ = _
    rw [hpointer, Option.bind_some]
    change ((p.memory.initQueue s newQueue).enqueue (.allocated queue) pid newElt).map _ = _
    rw [hm']
    rfl
  · change _ = { p with memory := m' }.abs _ k.discarded
    rw [abs_updateWaiting p nodes _ (hpointers'.trans hpointers) hown, ← h.eq, List.map_append]
    change k.setSemaphore s ⟨some ((k.semaphores s).waiting ++ [pid]), _⟩ = _
    rw [hwaiting]
    rfl

end Represents

section Schedule

/-! ## `schedule` -/

variable [DecidableEq A]

/-- With a call for every level at and below `queueNum`, `schedule` goes the way it
goes on lists. The induction is on the depth: no head is dropped, so every call
is one level down. -/
theorem StandsFor.schedule {depth : ℕ} {p : PointerMultilevel A} {k : Multilevel}
    (h : p.StandsFor k) (hopen : k.Unblocked) (queueNum : Fin 5) (hdepth : (queueNum : ℕ) < depth) :
    ∃ p', p.schedule depth queueNum = some p' ∧ p'.StandsFor (k.schedule queueNum) := by
  induction depth generalizing queueNum with
  | zero => exact absurd hdepth (Nat.not_lt_zero _)
  | succ depth ih =>
    obtain ⟨nodes, hrep⟩ := h
    have hcore : p.activeProcesses = k.activeProcesses := by
      rw [hrep.eq]
      rfl
    have hio : p.ioProcesses = k.ioProcesses := by
      rw [hrep.eq]
      rfl
    have hqueue := hrep.readyQueues_eq queueNum
    rw [PointerMultilevel.schedule]
    by_cases hactive : p.activeProcesses = 0
    · rw [if_pos hactive, Multilevel.schedule, if_pos (hcore.symm.trans hactive)]
      exact ⟨_, rfl, nodes, hrep.congr rfl (by rw [hrep.eq]; rfl)⟩
    · have hactive' : k.activeProcesses ≠ 0 := fun h => hactive (hcore.trans h)
      rw [if_neg hactive, PidQueues.loadHead_eq (hrep.sound.ready queueNum), Option.bind_some]
      cases hnodes : nodes (.readyQueue queueNum) with
      | nil =>
        rw [pids, hnodes] at hqueue
        rw [hrep.sound.head_eq_none_iff.mpr hnodes, Multilevel.schedule_nil hactive' hqueue, ← hio]
        by_cases hdead : (queueNum : ℕ) = 0 ∧ p.ioProcesses = 0
        · simp only [if_pos hdead]
          exact ⟨_, rfl, nodes, hrep.congr rfl (by rw [hrep.eq]; rfl)⟩
        · simp only [if_neg hdead]
          by_cases hlow : (queueNum : ℕ) ≠ 0
          · simp only [if_pos hlow]
            refine ih _ ?_
            exact Nat.lt_of_lt_of_le (Nat.pred_lt hlow) (Nat.le_of_lt_succ hdepth)
          · simp only [if_neg hlow]
            exact ⟨_, rfl, nodes, hrep.congr rfl (by rw [hrep.eq]; rfl)⟩
      | cons node rest =>
        rw [pids, hnodes, List.map_cons] at hqueue
        obtain ⟨hhead, hpid⟩ := hrep.sound.head_eq hnodes
        have hstate : k.state node.2 ≠ .blocked :=
          hopen queueNum node.2 (by rw [hqueue]; exact List.mem_cons_self)
        rw [hhead, Multilevel.schedule_cons hactive' hqueue, if_neg hstate]
        rw [hrep.state_eq] at hstate
        have hset : PointerMultilevel.Represents
            (PointerMultilevel.setState { p with currentPid := some node.2 } node.2 .running) nodes
            { k.setState node.2 .running with currentPid := some node.2 } :=
          hrep.congr rfl (by rw [hrep.eq]; rfl)
        obtain ⟨p₁, hp₁, hrep₁⟩ := hset.removeReady hnodes
        simp only [hpid, Option.bind_some, if_neg hstate, hp₁, Option.map_some]
        refine ⟨_, rfl, Function.update nodes (.readyQueue queueNum) rest, ?_⟩
        rw [← hrep₁.clock_eq]
        exact hrep₁.print _

end Schedule

/-! ## The handlers -/

section Handlers

variable [DecidableEq A] {p : PointerMultilevel A} {k : Multilevel} {e : Event} {pid : Pid}
  {s : Sem} {newQueue newElt : A} {depth : ℕ}

omit [DecidableEq A] in
theorem StandsFor.currentPid_eq (h : p.StandsFor k) : k.currentPid = p.currentPid := by
  obtain ⟨nodes, hrep⟩ := h
  rw [hrep.eq]
  rfl

theorem StandsFor.schedule_rel (h : p.StandsFor k) (hopen : k.Unblocked) (hdepth : 5 ≤ depth) :
    Option.Rel StandsFor (p.schedule depth highest) (some (k.schedule 4)) := by
  obtain ⟨p', hp', hrel⟩ := h.schedule hopen highest (Nat.lt_of_succ_le hdepth)
  rw [hp']
  exact .some hrel

/-- The process joins the ready queue its priority names, if it names one. -/
theorem StandsFor.enqueueReady (h : p.StandsFor k) (pid : Pid)
    (hfresh : p.memory.elts newElt = none) :
    Option.Rel (fun p' k' => p'.StandsFor k' ∧ ∃ level, k' = k.enqueueAt level pid)
      (p.enqueueReady pid newElt) (k.enqueueReady pid) := by
  obtain ⟨nodes, hrep⟩ := h
  rw [PointerMultilevel.enqueueReady, Multilevel.enqueueReady, hrep.priority_eq]
  refine Agree.bind_map fun level _ => ?_
  obtain ⟨p', hp', _, hrep'⟩ := hrep.enqueueAt level pid hfresh
  rw [hp']
  exact .some ⟨⟨_, hrep'⟩, level, rfl⟩

theorem StandsFor.read (h : p.StandsFor k) (hk : k.Schedulable) (device : Device)
    (hdepth : 5 ≤ depth) :
    Option.Rel StandsFor
      (p.currentPid.bind fun pid => (p.issueRead device pid).schedule depth highest)
      (k.currentPid.map fun pid => (k.issueRead device pid).schedule 4) := by
  rw [← h.currentPid_eq]
  refine Agree.bind_map fun pid hpid => StandsFor.schedule_rel ?_ ?_ hdepth
  · obtain ⟨nodes, hrep⟩ := h
    have hboosted := ((hrep.print (.issuesRead device k.clock pid)).setState pid .blocked).boost pid
    rw [PointerMultilevel.issueRead, ← hrep.clock_eq]
    exact ⟨nodes, ((hboosted.requestRead device pid).addCpuTime pid).startQuantum⟩
  · exact hk.unblocked.update (hk.apart pid hpid) (Multilevel.readyQueues_issueRead k device pid)
      (Multilevel.state_issueRead k device pid)

theorem StandsFor.fork (h : p.StandsFor k) (R2 : ℤ) (hfresh : p.memory.elts newElt = none) :
    Option.Rel StandsFor (p.handleFork R2 newElt) (k.handleFork R2) := by
  obtain ⟨nodes, hrep⟩ := h
  refine Agree.bind_same fun pid _ => ?_
  have hcreated : (p.createProcess pid).StandsFor (k.createProcess pid) :=
    ⟨nodes, hrep.congr rfl (by rw [hrep.eq]; rfl)⟩
  exact Agree.mono (hcreated.enqueueReady pid hfresh) fun _ _ hrel => hrel.1

theorem StandsFor.kill (h : p.StandsFor k) (hk : k.Schedulable) (hdepth : 5 ≤ depth) :
    Option.Rel StandsFor (p.handleKill depth) k.handleKill := by
  rw [PointerMultilevel.handleKill, Multilevel.handleKill, ← h.currentPid_eq]
  refine Agree.bind_map fun pid hpid => StandsFor.schedule_rel ?_ ?_ hdepth
  · obtain ⟨nodes, hrep⟩ := h
    exact ⟨nodes, hrep.congr rfl (by rw [hrep.eq]; rfl)⟩
  · exact hk.unblocked.update (hk.apart pid hpid) rfl (Multilevel.state_endProcess k pid)

/-- UP where a process waits: it moves to its ready queue. -/
theorem handleUp_of_head (hvalue : (p.semaphores s).value = 0#32) {queue elt : A}
    (hpointer : p.memory.pointers s = some queue)
    (hhead : p.memory.loadHead (.allocated queue) = some (some elt))
    (hpid : p.memory.loadPid elt = some pid) :
    p.handleUp s newElt =
      (((p.print (.issuesUp p.clock p.currentPid s)).setState pid .ready).enqueueReady pid
        newElt).bind fun p => p.removeWaiting s := by
  have hmemory : (p.print (.issuesUp p.clock p.currentPid s)).memory = p.memory := rfl
  have hsemaphores : (p.print (.issuesUp p.clock p.currentPid s)).semaphores = p.semaphores := rfl
  simp only [PointerMultilevel.handleUp, hmemory, hsemaphores, if_pos hvalue, hpointer, hhead,
    hpid, Option.bind_some]

/-- UP where no process waits: the semaphore is counted up. -/
theorem handleUp_of_free (hfree : (p.semaphores s).value ≠ 0#32 ∨ p.memory.pointers s = none ∨
      ∃ queue, p.memory.pointers s = some queue ∧
        p.memory.loadHead (.allocated queue) = some none) :
    p.handleUp s newElt =
      some ((p.print (.issuesUp p.clock p.currentPid s)).modifySemaphore s .increment) := by
  have hmemory : (p.print (.issuesUp p.clock p.currentPid s)).memory = p.memory := rfl
  have hsemaphores : (p.print (.issuesUp p.clock p.currentPid s)).semaphores = p.semaphores := rfl
  simp only [PointerMultilevel.handleUp, hmemory, hsemaphores]
  split_ifs with hvalue
  · rcases hfree with hne | hnull | ⟨queue, hpointer, hhead⟩
    · exact absurd hvalue hne
    · simp only [hnull]
    · simp only [hpointer, hhead, Option.bind_some]
  · rfl

theorem StandsFor.up (h : p.StandsFor k) (s : Sem) (hfresh : p.memory.elts newElt = none) :
    Option.Rel StandsFor (p.handleUp s newElt) (k.handleUp s) := by
  obtain ⟨nodes, hrep⟩ := h
  have hann : PointerMultilevel.Represents (p.print (.issuesUp p.clock p.currentPid s)) nodes
      (k.announceUp s) := hrep.congr rfl (by rw [hrep.eq]; rfl)
  have hvalue : ((k.announceUp s).semaphores s).value = (p.semaphores s).value := by
    rw [hann.eq]
    rfl
  rw [Multilevel.handleUp]
  rcases Semaphore.up_cases ((k.announceUp s).semaphores s) with
    ⟨pid, next, hzero, hfirst, hup⟩ | ⟨hfree, hup⟩
  · simp only [hup]
    rw [hvalue] at hzero
    cases hpointer : p.memory.pointers s with
    | none =>
      rw [hann.waiting_eq_nil hpointer] at hfirst
      cases hfirst
    | some queue =>
      rw [hann.waiting_eq hpointer, pids] at hfirst
      cases hnodes : nodes (.allocated queue) with
      | nil =>
        rw [hnodes] at hfirst
        cases hfirst
      | cons node rest =>
        rw [hnodes] at hfirst
        obtain ⟨rfl, rfl⟩ := List.cons.inj hfirst
        obtain ⟨hhead, hpid⟩ := hrep.sound.head_eq hnodes
        have hload := PidQueues.loadHead_eq (hrep.sound.allocated s queue hpointer)
        rw [hhead] at hload
        have hset := hann.setState node.2 .ready
        rw [handleUp_of_head hzero hpointer hload hpid, PointerMultilevel.enqueueReady,
          Option.bind_assoc, ← hset.priority_eq]
        refine Agree.bind_map fun level _ => ?_
        -- the process is in two queues until its element leaves that of the semaphore
        obtain ⟨p₁, hp₁, hpointers, hrep₁⟩ := hset.enqueueAt level node.2 hfresh
        obtain ⟨p₂, hp₂, hrel⟩ := hrep₁.removeWaiting ((congrFun hpointers s).trans hpointer)
          ((Function.update_of_ne (QueuePointer.allocated_ne_readyQueue queue level) _ _).trans
            hnodes)
        rw [hp₁, Option.bind_some, hp₂]
        exact .some hrel
  · simp only [hup]
    rw [handleUp_of_free]
    · exact .some ⟨nodes, hann.modifySemaphore s (g := (· + 1#32)) fun _ _ => rfl⟩
    · rw [hvalue] at hfree
      refine hfree.imp_right fun hempty => ?_
      cases hpointer : p.memory.pointers s with
      | none => exact .inl rfl
      | some queue =>
        rw [hann.waiting_eq hpointer, pids, List.map_eq_nil_iff] at hempty
        refine .inr ⟨queue, rfl, ?_⟩
        rw [PidQueues.loadHead_eq (hrep.sound.allocated s queue hpointer),
          hrep.sound.head_eq_none_iff.mpr hempty]

theorem StandsFor.down (h : p.StandsFor k) (hk : k.Schedulable) (s : Sem)
    (hqueue : p.memory.queues (.allocated newQueue) = none)
    (hfresh : p.memory.elts newElt = none) (hdepth : 5 ≤ depth) :
    Option.Rel StandsFor (p.handleDown depth s newQueue newElt) (k.handleDown s) := by
  obtain ⟨nodes, hrep⟩ := h
  have hann : PointerMultilevel.Represents (p.print (.issuesDown p.clock p.currentPid s)) nodes
      (k.announceDown s) := hrep.congr rfl (by rw [hrep.eq]; rfl)
  have hvalue : ((k.announceDown s).semaphores s).value = (p.semaphores s).value := by
    rw [hann.eq]
    rfl
  have hcurrent : (k.announceDown s).currentPid = p.currentPid := by
    rw [hann.eq]
    rfl
  rw [PointerMultilevel.handleDown, Multilevel.handleDown]
  simp only [hvalue, hcurrent]
  change Option.Rel StandsFor (if (p.semaphores s).value ≠ 0#32 then _ else _) _
  split_ifs with hfree
  · exact .some ⟨nodes, hann.modifySemaphore s (g := (· - 1#32)) fun _ _ => rfl⟩
  · refine Agree.bind_map fun pid hpid => ?_
    obtain ⟨p₁, hp₁, nodes₁, hrep₁⟩ := (hann.setState pid .blocked).wait s pid hqueue hfresh
    rw [hp₁, Option.bind_some]
    refine StandsFor.schedule_rel ⟨nodes₁, ((hrep₁.boost pid).addCpuTime pid).startQuantum⟩ ?_
      hdepth
    exact hk.unblocked.update (hk.apart pid (hcurrent.trans hpid))
      (Multilevel.readyQueues_waitFor (k.announceDown s) s pid)
      (Multilevel.state_waitFor (k.announceDown s) s pid)

omit [DecidableEq A] in
theorem StandsFor.restartQuantum (h : p.StandsFor k) :
    p.restartQuantum.StandsFor k.restartQuantum := by
  obtain ⟨nodes, hrep⟩ := h
  have hhalted : k.halted = p.halted := by
    rw [hrep.eq]
    rfl
  rw [PointerMultilevel.restartQuantum, Multilevel.restartQuantum]
  by_cases hruns : p.halted = none
  · rw [if_pos hruns, if_pos (hhalted.trans hruns)]
    exact ⟨nodes, hrep.startQuantum⟩
  · rw [if_neg hruns, if_neg fun h => hruns (hhalted.symm.trans h)]
    exact ⟨nodes, hrep⟩

omit [DecidableEq A] in
theorem memory_preempt (p : PointerMultilevel A) (pid : Pid) :
    (p.preempt pid).memory = p.memory := by
  rw [PointerMultilevel.preempt, demote]
  split_ifs <;> rfl

theorem StandsFor.clockInterrupt (h : p.StandsFor k) (hk : k.Schedulable)
    (hfresh : p.memory.elts newElt = none) (hdepth : 5 ≤ depth) :
    Option.Rel StandsFor (p.handleClockInterrupt depth newElt) k.handleClockInterrupt := by
  obtain ⟨nodes, hrep⟩ := h
  have hcurrent : k.currentPid = p.currentPid := by
    rw [hrep.eq]
    rfl
  have helapsed : k.elapsed = p.elapsed := by
    rw [hrep.eq]
    rfl
  rw [PointerMultilevel.handleClockInterrupt, Multilevel.handleClockInterrupt, hcurrent]
  cases p.currentPid with
  | none => exact .some ⟨nodes, hrep⟩
  | some pid =>
    simp only [helapsed]
    split_ifs with hdue
    · have hpreempted : (p.preempt pid).StandsFor (k.preempt pid) :=
        ⟨nodes, ((hrep.setState pid .ready).addCpuTime pid).demote pid⟩
      rw [Option.map_eq_bind]
      rw [← memory_preempt p pid] at hfresh
      refine Agree.bind (hpreempted.enqueueReady pid hfresh) ?_
      rintro p₁ _ ⟨hrel, level, rfl⟩
      have hopen : ((k.preempt pid).enqueueAt level pid).Unblocked :=
        hk.unblocked.enqueueAt (Multilevel.readyQueues_preempt k pid)
          (Multilevel.state_preempt k pid) level
      exact Agree.map (hrel.schedule_rel hopen hdepth) fun _ _ h => h.restartQuantum
    · exact .some ⟨nodes, hrep⟩

/-- The interrupt of a device, for a pid inside the process table. -/
theorem StandsFor.answer (h : p.StandsFor k) (hk : k.Schedulable) (device : Device) (pid : Pid)
    (hfresh : p.memory.elts newElt = none) (hdepth : 5 ≤ depth) :
    Option.Rel StandsFor
      (((p.finishRead device pid).enqueueReady pid newElt).bind
        (PointerMultilevel.scheduleIfIdle depth))
      (((k.finishRead device pid).enqueueReady pid).map Multilevel.scheduleIfIdle) := by
  obtain ⟨nodes, hrep⟩ := h
  have hready : (p.finishRead device pid).StandsFor (k.finishRead device pid) :=
    ⟨nodes, hrep.congr rfl (by rw [hrep.eq]; rfl)⟩
  rw [Option.map_eq_bind]
  refine Agree.bind (hready.enqueueReady pid hfresh) ?_
  rintro p₁ _ ⟨hrel, level, rfl⟩
  have hqueues : (k.finishRead device pid).readyQueues = k.readyQueues := rfl
  have hopen : ((k.finishRead device pid).enqueueAt level pid).Unblocked :=
    hk.unblocked.enqueueAt hqueues (Multilevel.state_finishRead k device pid) level
  change Option.Rel StandsFor (p₁.scheduleIfIdle depth) (some (Multilevel.scheduleIfIdle _))
  have hcurrent := hrel.currentPid_eq
  rw [PointerMultilevel.scheduleIfIdle, Multilevel.scheduleIfIdle]
  by_cases hidle : p₁.currentPid = none
  · rw [if_pos hidle, if_pos (hcurrent.trans hidle)]
    obtain ⟨nodes₁, hrep₁⟩ := hrel
    exact StandsFor.schedule_rel ⟨nodes₁, hrep₁.startQuantum⟩ hopen hdepth
  · rw [if_neg hidle, if_neg fun h => hidle (hcurrent.symm.trans h)]
    exact .some hrel

/-! ## Events -/

omit [DecidableEq A] in
theorem StandsFor.deliver (h : p.StandsFor k) (e : Event) :
    PointerMultilevel.StandsFor { p with toCore := p.toCore.deliver e } (k.deliver e) := by
  obtain ⟨nodes, hrep⟩ := h
  refine ⟨nodes, hrep.congr rfl ?_⟩
  rw [hrep.eq, Multilevel.deliver]
  unfold Core.deliver
  cases e.interrupt.device? <;> cases index? 20 e.R1 <;> rfl

omit [DecidableEq A] in
theorem StandsFor.issueWrite (h : p.StandsFor k) : p.issueWrite.StandsFor k.issueWrite := by
  obtain ⟨nodes, hrep⟩ := h
  exact ⟨nodes, hrep.congr rfl (by rw [hrep.eq]; rfl)⟩

/-- Every event goes the same way in both kernels, and is undefined in both or in none. -/
theorem StandsFor.interrupt (h : p.StandsFor k) (hk : k.Schedulable) (e : Event)
    (hqueue : p.memory.queues (.allocated newQueue) = none)
    (hfresh : p.memory.elts newElt = none) (hdepth : 5 ≤ depth) :
    Option.Rel StandsFor (p.interrupt depth e newQueue newElt) (k.interrupt e) := by
  have hdelivered := h.deliver e
  have hopen := hk.deliver e
  rw [PointerMultilevel.interrupt, Multilevel.interrupt]
  cases e.interrupt with
  | trap =>
    simp only [PointerMultilevel.handleTrap, Multilevel.handleTrap]
    split_ifs
    · exact hdelivered.read hopen .disk hdepth
    · exact .some hdelivered.issueWrite
    · exact hdelivered.read hopen .keyboard hdepth
    · exact hdelivered.fork e.R2 hfresh
    · exact hdelivered.kill hopen hdepth
    · refine Agree.bind_same fun s _ => ?_
      split_ifs
      · exact hdelivered.up s hfresh
      · exact hdelivered.down hopen s hqueue hfresh hdepth
    · exact .some hdelivered
  | clockInterrupt => exact hdelivered.clockInterrupt hopen hfresh hdepth
  | diskInterrupt =>
    exact Agree.bind_same fun pid _ => hdelivered.answer hopen .disk pid hfresh hdepth
  | keyboardInterrupt =>
    exact Agree.bind_same fun pid _ => hdelivered.answer hopen .keyboard pid hfresh hdepth

end Handlers

/-! ## Runs -/

section Runs

variable [DecidableEq A] {depth : ℕ}

/-- The kernel after `initialize_kernel`, which allocates nothing. -/
def Booted (p : PointerMultilevel A) : Prop :=
  ∃ pid clock, (powerOn (some pid) clock).initializeKernel = some p

/-- The event can come, and `malloc` returns addresses where nothing is allocated. -/
structure Legal (p : PointerMultilevel A) (x : PointerKernel.PointerEvent A) : Prop where
  event : p.toCore.Legal p.state x.event
  newQueue : p.memory.queues (.allocated x.newQueue) = none
  newElt : p.memory.elts x.newElt = none

/-- A run of the kernel, in which `schedule` is nested no deeper than the given depth. -/
def KernelRun (depth : ℕ) :
    List (PointerKernel.PointerEvent A × PointerMultilevel A) → PointerMultilevel A → Prop :=
  Run Booted fun _ p x p' => p.Legal x ∧ p.interrupt depth x.event x.newQueue x.newElt = some p'

omit [DecidableEq A] in
theorem Booted.standsFor {p : PointerMultilevel A} (hp : p.Booted) :
    ∃ k, Multilevel.Booted k ∧ p.StandsFor k := by
  obtain ⟨pid, clock, hboot⟩ := hp
  obtain rfl := Option.some.inj hboot
  exact ⟨_, ⟨pid, clock, rfl⟩, fun _ => [], LevelMemory.sound_powerOn, rfl⟩

omit [DecidableEq A] in
theorem StandsFor.legal_iff {p : PointerMultilevel A} {k : Multilevel} (h : p.StandsFor k)
    (e : Event) : k.toCore.Legal k.state e ↔ p.toCore.Legal p.state e := by
  obtain ⟨nodes, hrep⟩ := h
  rw [hrep.eq]
  exact Iff.rfl

/-- A legal event is matched by the kernel on lists. -/
theorem StandsFor.step (hdepth : 5 ≤ depth) {p : PointerMultilevel A} {k : Multilevel}
    (h : p.StandsFor k) (hk : k.Inv) {x : PointerKernel.PointerEvent A} (hlegal : p.Legal x) :
    ∃ p' k', p.interrupt depth x.event x.newQueue x.newElt = some p' ∧ k.Step x.event k' ∧
      p'.StandsFor k' := by
  have hevent := (h.legal_iff x.event).mpr hlegal.event
  obtain ⟨k', hk', _⟩ := Multilevel.interrupt_effect hk.ranged hevent
  obtain ⟨p', hp', hrel⟩ := Agree.of_some
    (h.interrupt (hk.schedulable hevent.1) x.event hlegal.newQueue hlegal.newElt hdepth) hk'
  exact ⟨p', k', hp', ⟨hevent, hk'⟩, hrel⟩

/-- The multilevel kernel on pointer queues refines the one on lists, over whole runs:
through the same events there is a run of the latter each of whose states is what the
links lead to in the memory of the former. And every legal event is handled, whatever
addresses `malloc` returns: no pointer that leads nowhere is followed, no index is out
of its array, and `schedule` is nested five calls deep at most. -/
theorem pointer_levels_refine (hdepth : 5 ≤ depth) {p : PointerMultilevel A}
    {h : List (PointerKernel.PointerEvent A × PointerMultilevel A)} (hrun : KernelRun depth h p) :
    (∃ h' k, Multilevel.KernelRun h' k ∧ p.StandsFor k ∧
      List.Forall₂ (fun x y => y.1 = x.1.event ∧ x.2.StandsFor y.2) h h') ∧
    ∀ x, p.Legal x → ∃ p', p.interrupt depth x.event x.newQueue x.newElt = some p' := by
  have hforward : ∃ h' k, Multilevel.KernelRun h' k ∧ p.StandsFor k ∧
      List.Forall₂ (fun x y => y.1 = x.1.event ∧ x.2.StandsFor y.2) h h' := by
    refine Run.forward StandsFor PointerKernel.PointerEvent.event (fun _ hp => hp.standsFor) ?_ hrun
    rintro h h' p k x p' _ hrun' hrel ⟨hlegal, hexec⟩
    obtain ⟨p₁, k', hp₁, hstep, hrel'⟩ :=
      hrel.step hdepth (Multilevel.KernelRun.inv hrun') hlegal
    obtain rfl := Option.some.inj (hexec.symm.trans hp₁)
    exact ⟨k', hstep, hrel'⟩
  refine ⟨hforward, fun x hlegal => ?_⟩
  obtain ⟨h', k, hrun', hrel, _⟩ := hforward
  obtain ⟨p', _, hp', _⟩ := hrel.step hdepth (Multilevel.KernelRun.inv hrun') hlegal
  exact ⟨p', hp'⟩

end Runs

/-- Process 0 forks process 1, whose element is at address 7. -/
theorem pointer_levels_refine_forkOne : ∃ h, ∃ p : PointerMultilevel ℕ, KernelRun 5 h p ∧
    h.map (fun x => x.1.event) = [.forkOne] ∧
    (p.memory.ends (.readyQueue 0)).head = some 7 ∧
    ∃ h' k, Multilevel.KernelRun h' k ∧ p.StandsFor k := by
  have hstart : KernelRun (A := ℕ) 5 [] _ := .start ⟨0, 0#32, rfl⟩
  have hrun : KernelRun 5 [(⟨.forkOne, 6, 7⟩, _)] _ := .next hstart ⟨⟨?_, rfl, rfl⟩, rfl⟩
  · obtain ⟨h', k, hk, hrel, _⟩ := (pointer_levels_refine (by decide) hrun).1
    exact ⟨_, _, hrun, rfl, rfl, h', k, hk, hrel⟩
  · exact Multilevel.legal_forkOne 0#32

end PointerMultilevel

end SimOS
