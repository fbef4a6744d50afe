import SimOS.Kernel.PointerKernel
import SimOS.Kernel.BoundedWaiting
import SimOS.Library.Refinement

/-!
# The kernel on pointer queues refines the kernel on lists

A state with its memory stands for the state in which every queue is the list of
pids the links lead to. Every event goes the same way in both kernels, so what
was proved of all runs on lists holds of the kernel as it is in memory.
-/

namespace SimOS

open Library

variable {A : Type}

namespace QueueMemory

/-! ## The pointers that `enqueue` and a removal set -/

section Pointers

variable [DecidableEq A] {m m' : QueueMemory A} {var : QueueVar}

/-- An `enqueue` sets the pointer to its queue only where there was no queue. -/
theorem pointers_enqueue {pid : Pid} {newQueue newElt : A}
    (h : m.enqueue var pid newQueue newElt = some m') :
    m'.pointers = Function.update m.pointers var ((m.pointers var).or (some newQueue)) := by
  obtain ⟨queue, _, hrest⟩ := Option.bind_eq_some_iff.mp h
  obtain ⟨queues, _, rfl⟩ := Option.map_eq_some_iff.mp hrest
  change (if m.pointers var = none then m.createQueue var newQueue else m).pointers = _
  split_ifs with hpointer
  · rw [hpointer]
    rfl
  · obtain ⟨x, hx⟩ := Option.ne_none_iff_exists'.mp hpointer
    rw [hx, Option.some_or, ← hx, Function.update_eq_self]

theorem pointers_removeHead (h : m.removeHead var = some m') : m'.pointers = m.pointers := by
  obtain ⟨queue, _, hrest⟩ := Option.bind_eq_some_iff.mp h
  obtain ⟨queues, _, rfl⟩ := Option.map_eq_some_iff.mp hrest
  rfl

end Pointers

section Loads

variable {m : QueueMemory A} {nodes : QueueVar → List (A × Pid)} {var : QueueVar}

/-- Where there is a queue, its head can be read. -/
theorem Sound.loadHead_eq (h : m.Sound nodes) (hpointer : m.pointers var ≠ none) :
    m.loadHead var = some (m.head var) := by
  obtain ⟨queue, hqueue⟩ := Option.ne_none_iff_exists'.mp hpointer
  rw [loadHead, head, ends_of_pointer hqueue, hqueue, Option.bind_some]
  exact PidQueues.loadHead_eq (h.wellFormed.allocated var queue hqueue)

theorem Sound.head_eq_none_iff (h : m.Sound nodes) : m.head var = none ↔ nodes var = [] :=
  (h.holds.follows var).eq_none_iff

/-- The first element holds the pid of the first node. -/
theorem Sound.head_eq (h : m.Sound nodes) {node : A × Pid} {rest : List (A × Pid)}
    (hnodes : nodes var = node :: rest) :
    m.head var = some node.1 ∧ m.loadPid node.1 = some node.2 := by
  have hfollows := h.holds.follows var
  rw [hnodes] at hfollows
  obtain ⟨hhead, next, hcell, _⟩ := hfollows
  exact ⟨hhead, PidQueues.loadPid_of_cell hcell⟩

end Loads

end QueueMemory

namespace PointerKernel

/-! ## What a state stands for -/

/-- The pids in the nodes of a queue. -/
def pids (nodes : QueueVar → List (A × Pid)) (var : QueueVar) : List Pid :=
  (nodes var).map Prod.snd

/-- The semaphores with the lists that are found in the memory as their queues. -/
def absSemaphores (p : PointerKernel A) (nodes : QueueVar → List (A × Pid)) (s : Sem) :
    Semaphore where
  readyQueue := (p.memory.pointers (.semaphore s)).map fun _ => pids nodes (.semaphore s)
  value := (p.semaphores s).value

/-- The state with lists in place of the queues. -/
def abs (p : PointerKernel A) (nodes : QueueVar → List (A × Pid)) (discarded : List Pid) :
    RoundRobin where
  toCore := { p.toCore with semaphores := p.absSemaphores nodes }
  processTable := p.processTable
  readyQueue := pids nodes .readyQueue
  discarded := discarded

/-- The memory is in order, there is a ready queue, and the state stands for that
of the kernel on lists. -/
structure Represents (p : PointerKernel A) (nodes : QueueVar → List (A × Pid)) (k : RoundRobin) :
    Prop where
  sound : p.memory.Sound nodes
  ready : p.memory.pointers .readyQueue ≠ none
  eq : k = p.abs nodes k.discarded

def StandsFor (p : PointerKernel A) (k : RoundRobin) : Prop := ∃ nodes, p.Represents nodes k

theorem pids_update_self (nodes : QueueVar → List (A × Pid)) (var : QueueVar)
    (new : List (A × Pid)) : pids (Function.update nodes var new) var = new.map Prod.snd := by
  rw [pids, Function.update_self]

theorem pids_update_of_ne (nodes : QueueVar → List (A × Pid)) {var other : QueueVar}
    (hne : other ≠ var) (new : List (A × Pid)) :
    pids (Function.update nodes var new) other = pids nodes other := by
  rw [pids, Function.update_of_ne hne, pids]

/-- The list of the queue that a variable points to is another one. -/
def withQueue (k : RoundRobin) (queue : List Pid) : QueueVar → RoundRobin
  | .readyQueue => { k with readyQueue := queue }
  | .semaphore s => k.setSemaphore s { k.semaphores s with readyQueue := some queue }

theorem eq_abs {p : PointerKernel A} {nodes : QueueVar → List (A × Pid)} {k : RoundRobin}
    (hsemaphores : k.semaphores = p.absSemaphores nodes)
    (hcore : k.toCore = { p.toCore with semaphores := k.semaphores })
    (htable : k.processTable = p.processTable)
    (hready : k.readyQueue = pids nodes .readyQueue) : k = p.abs nodes k.discarded := by
  rw [abs, ← hsemaphores, ← hcore, ← htable, ← hready]

/-- When the nodes of one queue change and its pointer is set, so does its list, and
nothing else. -/
theorem abs_update (p : PointerKernel A) (nodes : QueueVar → List (A × Pid)) {var : QueueVar}
    (new : List (A × Pid)) {m' : QueueMemory A} {queue : A}
    (hpointers : m'.pointers = Function.update p.memory.pointers var (some queue))
    (discarded : List Pid) :
    { p with memory := m' }.abs (Function.update nodes var new) discarded =
      withQueue (p.abs nodes discarded) (new.map Prod.snd) var := by
  cases var with
  | readyQueue =>
    symm
    refine eq_abs (p := { p with memory := m' })
      (k := withQueue (p.abs nodes discarded) (new.map Prod.snd) .readyQueue)
      (funext fun s => ?_) rfl rfl ?_
    · have hne : QueueVar.semaphore s ≠ .readyQueue := QueueVar.noConfusion
      change p.absSemaphores nodes s = _
      rw [absSemaphores, absSemaphores, hpointers, Function.update_of_ne hne,
        pids_update_of_ne nodes hne]
    · exact (pids_update_self nodes .readyQueue new).symm
  | semaphore s =>
    symm
    refine eq_abs (p := { p with memory := m' })
      (k := withQueue (p.abs nodes discarded) (new.map Prod.snd) (.semaphore s))
      (funext fun t => ?_) rfl rfl ?_
    · change Function.update (p.absSemaphores nodes) s ⟨some (new.map Prod.snd), _⟩ t = _
      rw [absSemaphores, hpointers]
      by_cases ht : t = s
      · rw [ht, Function.update_self, Function.update_self, pids_update_self]
        rfl
      · have hne : QueueVar.semaphore t ≠ .semaphore s := fun h => ht (QueueVar.semaphore.inj h)
        rw [Function.update_of_ne hne, Function.update_of_ne ht, pids_update_of_ne nodes hne]
        rfl
    · exact (pids_update_of_ne nodes QueueVar.noConfusion new).symm

section Represents

variable {p p' : PointerKernel A} {nodes : QueueVar → List (A × Pid)} {k k' : RoundRobin}
  {var : QueueVar}

theorem Represents.readyQueue_eq (h : p.Represents nodes k) :
    k.readyQueue = pids nodes .readyQueue := by
  rw [h.eq]
  rfl

theorem Represents.state_eq (h : p.Represents nodes k) : k.state = p.state := by
  rw [h.eq]
  rfl

/-- A queue that does not exist yet is empty. -/
theorem Represents.waiting_eq (h : p.Represents nodes k) (s : Sem) :
    (k.semaphores s).waiting = pids nodes (.semaphore s) := by
  rw [h.eq]
  change Option.getD (Option.map (fun _ => pids nodes (.semaphore s))
    (p.memory.pointers (.semaphore s))) [] = _
  cases hpointer : p.memory.pointers (.semaphore s) with
  | none =>
    have hhead : p.memory.head (.semaphore s) = none := by
      rw [QueueMemory.head, QueueMemory.ends_of_null hpointer]
    rw [pids, h.sound.head_eq_none_iff.mp hhead]
    rfl
  | some queue => rfl

theorem withQueue_discarded (k : RoundRobin) (queue : List Pid) (var : QueueVar) :
    (withQueue k queue var).discarded = k.discarded := by
  cases var <;> rfl

/-- What changes neither the queues nor the memory. -/
theorem Represents.congr (h : p.Represents nodes k) (hmemory : p'.memory = p.memory)
    (heq : k' = p'.abs nodes k'.discarded) : p'.Represents nodes k' := by
  refine ⟨?_, ?_, heq⟩
  · rw [hmemory]
    exact h.sound
  · rw [hmemory]
    exact h.ready

theorem Represents.discard (h : p.Represents nodes k) (discarded : List Pid) :
    p.Represents nodes { k with discarded := discarded } :=
  h.congr rfl (by rw [h.eq]; rfl)

theorem Represents.print (h : p.Represents nodes k) (message : Message) :
    (p.print message).Represents nodes (k.print message) :=
  h.congr rfl (by rw [h.eq]; rfl)

theorem Represents.addCpuTime (h : p.Represents nodes k) (pid : Pid) :
    (p.addCpuTime pid).Represents nodes (k.addCpuTime pid) :=
  h.congr rfl (by rw [h.eq]; rfl)

/-- `current_quantum_start_time = clock`. -/
theorem Represents.startQuantum (h : p.Represents nodes k) :
    PointerKernel.Represents { p with currentQuantumStartTime := p.clock } nodes
      { k with currentQuantumStartTime := k.clock } :=
  h.congr rfl (by rw [h.eq]; rfl)

theorem Represents.clock_eq (h : p.Represents nodes k) : k.clock = p.clock := by
  rw [h.eq]
  rfl

variable [DecidableEq A]

theorem Represents.enqueue (h : p.Represents nodes k) (var : QueueVar) (pid : Pid)
    {newQueue newElt : A} (hqueue : p.memory.pointers var = none → p.memory.queues newQueue = none)
    (hfresh : p.memory.elts newElt = none) :
    ∃ p', p.enqueue var pid newQueue newElt = some p' ∧
      p'.Represents (Function.update nodes var (nodes var ++ [(newElt, pid)]))
        (withQueue k (SimOS.enqueue (pids nodes var) pid) var) := by
  obtain ⟨m', hm', _, hsound⟩ := h.sound.enqueue var pid hqueue hfresh
  have hpointers := QueueMemory.pointers_enqueue hm'
  obtain ⟨queue, hsome⟩ : ∃ queue, (p.memory.pointers var).or (some newQueue) = some queue := by
    cases p.memory.pointers var with
    | none => exact ⟨newQueue, rfl⟩
    | some queue => exact ⟨queue, rfl⟩
  rw [hsome] at hpointers
  refine ⟨{ p with memory := m' }, by rw [PointerKernel.enqueue, hm']; rfl, hsound, ?_, ?_⟩
  · change m'.pointers .readyQueue ≠ none
    rw [hpointers]
    by_cases hvar : QueueVar.readyQueue = var
    · rw [hvar, Function.update_self]
      exact Option.some_ne_none queue
    · rw [Function.update_of_ne hvar]
      exact h.ready
  · rw [withQueue_discarded, abs_update p nodes _ hpointers, ← h.eq, List.map_append]
    rfl

/-- An `enqueue` on the queue of a semaphore, which it creates on first use. -/
theorem Represents.enqueueSemaphore (h : p.Represents nodes k) (s : Sem) (pid : Pid)
    {newQueue newElt : A} (hqueue : p.memory.queues newQueue = none)
    (hfresh : p.memory.elts newElt = none) :
    ∃ p', p.enqueue (.semaphore s) pid newQueue newElt = some p' ∧
      p'.StandsFor (k.setSemaphore s ((k.semaphores s).enqueue pid)) := by
  obtain ⟨p', hp', hrep⟩ := h.enqueue (.semaphore s) pid (fun _ => hqueue) hfresh
  rw [← h.waiting_eq] at hrep
  exact ⟨p', hp', _, hrep⟩

theorem Represents.removeHead (h : p.Represents nodes k) {node : A × Pid}
    {rest : List (A × Pid)} (hnodes : nodes var = node :: rest) :
    ∃ p', p.removeHead var = some p' ∧
      p'.Represents (Function.update nodes var rest) (withQueue k (rest.map Prod.snd) var) := by
  have hhead : p.memory.head var ≠ none := by
    rw [(h.sound.head_eq hnodes).1]
    exact Option.some_ne_none node.1
  obtain ⟨node', rest', m', hnodes', hm', hsound⟩ := h.sound.removeHead hhead
  obtain ⟨rfl, rfl⟩ := List.cons.inj (hnodes.symm.trans hnodes')
  have hpointers := QueueMemory.pointers_removeHead hm'
  obtain ⟨queue, hqueue⟩ : ∃ queue, p.memory.pointers var = some queue := by
    apply Option.ne_none_iff_exists'.mp
    intro hnull
    rw [QueueMemory.head, QueueMemory.ends_of_null hnull] at hhead
    exact hhead rfl
  have hupdate : m'.pointers = Function.update p.memory.pointers var (some queue) := by
    rw [hpointers, ← hqueue, Function.update_eq_self]
  refine ⟨{ p with memory := m' }, by rw [PointerKernel.removeHead, hm']; rfl, hsound, ?_, ?_⟩
  · change m'.pointers .readyQueue ≠ none
    rw [hpointers]
    exact h.ready
  · rw [withQueue_discarded, abs_update p nodes _ hupdate, ← h.eq]

end Represents

section Schedule

/-! ## `schedule` -/

variable [DecidableEq A]

/-- With enough depth for the blocked processes at the head of the ready queue
`schedule` goes the way it goes on lists. -/
theorem StandsFor.schedule {depth : ℕ} {p : PointerKernel A} {k : RoundRobin} (h : p.StandsFor k)
    (hdepth : k.readyQueue.length < depth) :
    ∃ p', p.schedule depth = some p' ∧ p'.StandsFor k.schedule := by
  induction depth generalizing p k with
  | zero => omega
  | succ depth ih =>
    obtain ⟨nodes, hrep⟩ := h
    have hcore : p.activeProcesses = k.activeProcesses := by rw [hrep.eq]; rfl
    have hio : p.ioProcesses = k.ioProcesses := by rw [hrep.eq]; rfl
    have hqueue := hrep.readyQueue_eq
    rw [PointerKernel.schedule]
    by_cases hactive : p.activeProcesses = 0
    · rw [if_pos hactive, RoundRobin.schedule, if_pos (hcore.symm.trans hactive)]
      exact ⟨_, rfl, nodes, hrep.congr rfl (by rw [hrep.eq]; rfl)⟩
    · have hactive' : k.activeProcesses ≠ 0 := fun h => hactive (hcore.trans h)
      rw [if_neg hactive, hrep.sound.loadHead_eq hrep.ready, Option.bind_some]
      cases hnodes : nodes .readyQueue with
      | nil =>
        rw [pids, hnodes] at hqueue
        rw [hrep.sound.head_eq_none_iff.mpr hnodes, RoundRobin.schedule_nil hactive' hqueue, ← hio]
        by_cases hzero : p.ioProcesses = 0
        · simp only [if_pos hzero]
          exact ⟨_, rfl, nodes, hrep.congr rfl (by rw [hrep.eq]; rfl)⟩
        · simp only [if_neg hzero]
          exact ⟨_, rfl, nodes, hrep.congr rfl (by rw [hrep.eq]; rfl)⟩
      | cons node rest =>
        rw [pids, hnodes, List.map_cons] at hqueue
        obtain ⟨hhead, hpid⟩ := hrep.sound.head_eq hnodes
        rw [hhead, RoundRobin.schedule_cons hactive' hqueue, hrep.state_eq]
        simp only [hpid, Option.bind_some]
        by_cases hblocked : p.state node.2 = .blocked
        · -- a blocked head is removed, and the recursion is one deep less
          obtain ⟨p₁, hp₁, hrep₁⟩ := hrep.removeHead hnodes
          rw [if_pos hblocked, if_pos hblocked, hp₁, Option.bind_some]
          refine ih ⟨_, hrep₁.discard _⟩ ?_
          rw [hqueue] at hdepth
          exact Nat.lt_of_succ_lt_succ hdepth
        · have hset : PointerKernel.Represents
              (PointerKernel.setState { p with currentPid := some node.2 } node.2 .running) nodes
              { k.setState node.2 .running with currentPid := some node.2 } :=
            hrep.congr rfl (by rw [hrep.eq]; rfl)
          obtain ⟨p₁, hp₁, hrep₁⟩ := hset.removeHead hnodes
          rw [if_neg hblocked, if_neg hblocked, hp₁]
          refine ⟨_, rfl, Function.update nodes .readyQueue rest, ?_⟩
          change (p₁.print (.runs p₁.clock node.2)).Represents _ _
          rw [← hrep₁.clock_eq]
          exact hrep₁.print _

end Schedule

/-! ## The handlers -/

section Handlers

variable [DecidableEq A] {p : PointerKernel A} {k : RoundRobin} {e : Event} {pid : Pid} {s : Sem}
  {newQueue newElt : A} {depth : ℕ}

omit [DecidableEq A] in
theorem StandsFor.currentPid_eq (h : p.StandsFor k) : k.currentPid = p.currentPid := by
  obtain ⟨nodes, hrep⟩ := h
  rw [hrep.eq]
  rfl

theorem StandsFor.schedule_rel (h : p.StandsFor k) (hdepth : k.readyQueue.length < depth) :
    Option.Rel StandsFor (p.schedule depth) (some k.schedule) := by
  obtain ⟨p', hp', hrel⟩ := h.schedule hdepth
  rw [hp']
  exact .some hrel

theorem StandsFor.enqueueReady (h : p.StandsFor k) (pid : Pid) (newQueue : A)
    (hfresh : p.memory.elts newElt = none) :
    Option.Rel StandsFor (p.enqueue .readyQueue pid newQueue newElt)
      (some (k.enqueueReady pid)) := by
  obtain ⟨nodes, hrep⟩ := h
  obtain ⟨p', hp', hrep'⟩ := hrep.enqueue .readyQueue pid (fun h => absurd h hrep.ready) hfresh
  rw [hp', RoundRobin.enqueueReady, hrep.readyQueue_eq]
  exact .some ⟨_, hrep'⟩

theorem StandsFor.read (h : p.StandsFor k) (device : Device)
    (hdepth : k.readyQueue.length < depth) :
    Option.Rel StandsFor (p.currentPid.bind fun pid => (p.issueRead device pid).schedule depth)
      (k.currentPid.map fun pid => (k.issueRead device pid).schedule) := by
  rw [h.currentPid_eq]
  refine Agree.bind_map fun pid _ => StandsFor.schedule_rel ?_ hdepth
  obtain ⟨nodes, hrep⟩ := h
  exact ⟨nodes, hrep.congr rfl (by rw [hrep.eq]; rfl)⟩

theorem StandsFor.fork (h : p.StandsFor k) (R2 : ℤ) (newQueue : A)
    (hfresh : p.memory.elts newElt = none) :
    Option.Rel StandsFor (p.handleFork R2 newQueue newElt) (k.handleFork R2) := by
  obtain ⟨nodes, hrep⟩ := h
  refine Agree.bind_map fun pid _ => ?_
  have hcreated : (p.createProcess pid).StandsFor
      { (k.print (.createsEntry k.clock pid)).modifyEntry pid fun _ =>
          { state := .ready, totalCpuTimeUsed := 0#32 } with
        activeProcesses := k.activeProcesses + 1 } :=
    ⟨nodes, hrep.congr rfl (by rw [hrep.eq]; rfl)⟩
  exact hcreated.enqueueReady pid newQueue hfresh

theorem StandsFor.kill (h : p.StandsFor k) (hdepth : k.readyQueue.length < depth) :
    Option.Rel StandsFor (p.handleKill depth) k.handleKill := by
  rw [PointerKernel.handleKill, RoundRobin.handleKill, h.currentPid_eq]
  refine Agree.bind_map fun pid _ => StandsFor.schedule_rel ?_ hdepth
  obtain ⟨nodes, hrep⟩ := h
  exact ⟨nodes, hrep.congr rfl (by rw [hrep.eq]; rfl)⟩

omit [DecidableEq A] in
/-- Counting a semaphore up or down leaves its queue alone. -/
theorem Represents.modifySemaphore {nodes : QueueVar → List (A × Pid)} (h : p.Represents nodes k)
    (s : Sem) {f : Semaphore → Semaphore} {g : Word → Word}
    (hf : ∀ queue value, f ⟨queue, value⟩ = ⟨queue, g value⟩) :
    (p.modifySemaphore s f).Represents nodes (k.setSemaphore s (f (k.semaphores s))) := by
  refine h.congr rfl (eq_abs (funext fun t => ?_) ?_ ?_ h.readyQueue_eq)
  · have hsemaphores : k.semaphores = p.absSemaphores nodes := by
      rw [h.eq]
      rfl
    change Function.update k.semaphores s _ t = _
    rw [hsemaphores, absSemaphores]
    by_cases ht : t = s
    · rw [ht, Function.update_self, absSemaphores, hf]
      change _ = Semaphore.mk _ (Function.update p.semaphores s _ s).value
      rw [Function.update_self, hf]
      rfl
    · rw [Function.update_of_ne ht]
      change _ = Semaphore.mk _ (Function.update p.semaphores s _ t).value
      rw [Function.update_of_ne ht]
      rfl
  · rw [h.eq]
    rfl
  · rw [h.eq]
    rfl

theorem StandsFor.up (h : p.StandsFor k) (s : Sem) (newQueue : A)
    (hfresh : p.memory.elts newElt = none) :
    Option.Rel StandsFor (p.handleUp s newQueue newElt) (some (k.handleUp s)) := by
  obtain ⟨nodes, hrep⟩ := h
  have hann : PointerKernel.Represents (p.print (.issuesUp p.clock p.currentPid s)) nodes
      (k.announceUp s) := hrep.congr rfl (by rw [hrep.eq]; rfl)
  have hvalue : ((k.announceUp s).semaphores s).value = (p.semaphores s).value := by
    rw [hann.eq]
    rfl
  have hwaiting := hann.waiting_eq s
  have hcount : PointerKernel.StandsFor
      ((p.print (.issuesUp p.clock p.currentPid s)).modifySemaphore s .increment)
      ((k.announceUp s).setSemaphore s ((k.announceUp s).semaphores s).increment) :=
    ⟨nodes, hann.modifySemaphore s (g := (· + 1#32)) fun _ _ => rfl⟩
  rw [PointerKernel.handleUp, RoundRobin.handleUp]
  change Option.Rel StandsFor (if (p.semaphores s).value = 0#32 ∧
    p.memory.pointers (.semaphore s) ≠ none then _ else _) _
  rcases Semaphore.up_cases ((k.announceUp s).semaphores s) with
    ⟨pid, next, hzero, hfirst, hup⟩ | ⟨hfree, hup⟩
  · rw [hwaiting, pids] at hfirst
    rw [hvalue] at hzero
    cases hnodes : nodes (.semaphore s) with
    | nil =>
      rw [hnodes] at hfirst
      cases hfirst
    | cons node rest =>
      rw [hnodes] at hfirst
      obtain ⟨rfl, rfl⟩ := List.cons.inj hfirst
      obtain ⟨hhead, hpid⟩ := hrep.sound.head_eq hnodes
      have hpointer : p.memory.pointers (.semaphore s) ≠ none := by
        intro hnull
        rw [QueueMemory.head, QueueMemory.ends_of_null hnull] at hhead
        cases hhead
      have hset : ((p.print (.issuesUp p.clock p.currentPid s)).setState node.2 .ready).Represents
          nodes ((k.announceUp s).setState node.2 .ready) :=
        hann.congr rfl (by rw [hann.eq]; rfl)
      obtain ⟨p₁, hp₁, hrep₁⟩ := hset.enqueue .readyQueue node.2
        (fun h => absurd h hrep.ready) hfresh
      obtain ⟨p₂, hp₂, hrep₂⟩ := hrep₁.removeHead
        ((Function.update_of_ne QueueVar.noConfusion _ _).trans hnodes)
      rw [if_pos ⟨hzero, hpointer⟩]
      change Option.Rel StandsFor ((p.memory.loadHead (.semaphore s)).bind _) _
      rw [hrep.sound.loadHead_eq hpointer, hhead, Option.bind_some]
      change Option.Rel StandsFor ((p.memory.loadPid node.1).bind _) _
      rw [hpid, Option.bind_some, hp₁, Option.bind_some, hp₂]
      simp only [hup]
      refine .some ⟨_, hrep₂.congr rfl ?_⟩
      rw [RoundRobin.wake, RoundRobin.enqueueReady]
      change RoundRobin.mk _ _ (SimOS.enqueue (k.announceUp s).readyQueue node.2) _ = _
      rw [hann.readyQueue_eq]
      exact hrep₂.eq
  · simp only [hup]
    split_ifs with hwait
    · -- the value is 0, so nobody waits, in a queue that was created before
      have hnil : nodes (.semaphore s) = [] := by
        have hempty := hfree.resolve_left fun h => h (hvalue.trans hwait.1)
        rw [hwaiting, pids] at hempty
        exact List.map_eq_nil_iff.mp hempty
      change Option.Rel StandsFor ((p.memory.loadHead (.semaphore s)).bind _) _
      rw [hrep.sound.loadHead_eq hwait.2, hrep.sound.head_eq_none_iff.mpr hnil]
      exact .some hcount
    · exact .some hcount

theorem StandsFor.down (h : p.StandsFor k) (s : Sem) (hqueue : p.memory.queues newQueue = none)
    (hfresh : p.memory.elts newElt = none) (hdepth : k.readyQueue.length < depth) :
    Option.Rel StandsFor (p.handleDown depth s newQueue newElt) (k.handleDown s) := by
  obtain ⟨nodes, hrep⟩ := h
  have hann : PointerKernel.Represents (p.print (.issuesDown p.clock p.currentPid s)) nodes
      (k.announceDown s) := hrep.congr rfl (by rw [hrep.eq]; rfl)
  have hvalue : ((k.announceDown s).semaphores s).value = (p.semaphores s).value := by
    rw [hann.eq]
    rfl
  have hcurrent : (k.announceDown s).currentPid = p.currentPid := by
    rw [hann.eq]
    rfl
  rw [PointerKernel.handleDown, RoundRobin.handleDown]
  simp only [hvalue, hcurrent]
  change Option.Rel StandsFor (if (p.semaphores s).value ≠ 0#32 then _ else _) _
  split_ifs with hfree
  · exact .some ⟨nodes, hann.modifySemaphore s (g := (· - 1#32)) fun _ _ => rfl⟩
  · refine Agree.bind_map fun pid _ => ?_
    have hset : ((p.print (.issuesDown p.clock p.currentPid s)).setState pid .blocked).Represents
        nodes ((k.announceDown s).setState pid .blocked) :=
      hann.congr rfl (by rw [hann.eq]; rfl)
    obtain ⟨p₁, hp₁, nodes₁, hrep₁⟩ := hset.enqueueSemaphore s pid hqueue hfresh
    rw [hp₁, Option.bind_some]
    exact StandsFor.schedule_rel ⟨nodes₁, (hrep₁.addCpuTime pid).startQuantum⟩ hdepth

omit [DecidableEq A] in
theorem StandsFor.restartQuantum (h : p.StandsFor k) :
    p.restartQuantum.StandsFor k.restartQuantum := by
  obtain ⟨nodes, hrep⟩ := h
  have hhalted : k.halted = p.halted := by
    rw [hrep.eq]
    rfl
  rw [PointerKernel.restartQuantum, RoundRobin.restartQuantum]
  by_cases hruns : p.halted = none
  · rw [if_pos hruns, if_pos (hhalted.trans hruns)]
    exact ⟨nodes, hrep.startQuantum⟩
  · rw [if_neg hruns, if_neg fun h => hruns (hhalted.symm.trans h)]
    exact ⟨nodes, hrep⟩

theorem StandsFor.clockInterrupt (h : p.StandsFor k) (newQueue : A)
    (hfresh : p.memory.elts newElt = none) (hdepth : k.readyQueue.length + 1 < depth) :
    Option.Rel StandsFor (p.handleClockInterrupt depth newQueue newElt)
      (some k.handleClockInterrupt) := by
  obtain ⟨nodes, hrep⟩ := h
  have hcurrent : k.currentPid = p.currentPid := by
    rw [hrep.eq]
    rfl
  have helapsed : k.elapsed = p.elapsed := by
    rw [hrep.eq]
    rfl
  rw [PointerKernel.handleClockInterrupt, RoundRobin.handleClockInterrupt, hcurrent]
  cases p.currentPid with
  | none => exact .some ⟨nodes, hrep⟩
  | some pid =>
    simp only [helapsed]
    split_ifs with hdue
    · have hset : ((p.setState pid .ready).addCpuTime pid).StandsFor
          ((k.setState pid .ready).addCpuTime pid) :=
        ⟨nodes, hrep.congr rfl (by rw [hrep.eq]; rfl)⟩
      obtain ⟨p₁, hp₁, hrel₁⟩ := Agree.of_some (hset.enqueueReady pid newQueue hfresh) rfl
      rw [hp₁, Option.bind_some]
      have hlength : ((k.preempt pid).readyQueue).length < depth := by
        change (SimOS.enqueue k.readyQueue pid).length < depth
        rw [SimOS.enqueue, List.length_append]
        exact hdepth
      exact Agree.map (hrel₁.schedule_rel hlength) fun _ _ h => h.restartQuantum
    · exact .some ⟨nodes, hrep⟩

/-- The interrupt of a device, for a pid inside the process table. -/
theorem StandsFor.answer (h : p.StandsFor k) (device : Device) (pid : Pid) (newQueue : A)
    (hfresh : p.memory.elts newElt = none) (hdepth : k.readyQueue.length + 1 < depth) :
    Option.Rel StandsFor
      (((p.finishRead device pid).enqueue .readyQueue pid newQueue newElt).bind
        (PointerKernel.scheduleIfIdle depth))
      (some (k.finishRead device pid).scheduleIfIdle) := by
  obtain ⟨nodes, hrep⟩ := h
  have hready : (p.finishRead device pid).StandsFor
      { (k.print (.handled device k.clock pid)).setState pid .ready with
        ioProcesses := k.ioProcesses - 1 } :=
    ⟨nodes, hrep.congr rfl (by rw [hrep.eq]; rfl)⟩
  obtain ⟨p₁, hp₁, hrel₁⟩ := Agree.of_some (hready.enqueueReady pid newQueue hfresh) rfl
  have hlength : ((k.finishRead device pid).readyQueue).length < depth := by
    change (SimOS.enqueue k.readyQueue pid).length < depth
    rw [SimOS.enqueue, List.length_append]
    exact hdepth
  have hcurrent : (k.finishRead device pid).currentPid = p₁.currentPid := hrel₁.currentPid_eq
  rw [hp₁, Option.bind_some, PointerKernel.scheduleIfIdle, RoundRobin.scheduleIfIdle]
  by_cases hidle : p₁.currentPid = none
  · rw [if_pos hidle, if_pos (hcurrent.trans hidle)]
    obtain ⟨nodes₁, hrep₁⟩ := hrel₁
    exact StandsFor.schedule_rel ⟨nodes₁, hrep₁.startQuantum⟩ hlength
  · rw [if_neg hidle, if_neg fun h => hidle (hcurrent.symm.trans h)]
    exact .some hrel₁

/-! ## Events -/

omit [DecidableEq A] in
theorem StandsFor.deliver (h : p.StandsFor k) (e : Event) :
    PointerKernel.StandsFor { p with toCore := p.toCore.deliver e } (k.deliver e) := by
  obtain ⟨nodes, hrep⟩ := h
  refine ⟨nodes, hrep.congr rfl ?_⟩
  rw [hrep.eq, RoundRobin.deliver]
  unfold Core.deliver
  cases e.interrupt.device? <;> cases index? 20 e.R1 <;> rfl

omit [DecidableEq A] in
theorem StandsFor.issueWrite (h : p.StandsFor k) : p.issueWrite.StandsFor k.issueWrite := by
  obtain ⟨nodes, hrep⟩ := h
  exact ⟨nodes, hrep.congr rfl (by rw [hrep.eq]; rfl)⟩

/-- Every event goes the same way in both kernels, and is undefined in both or in none. -/
theorem StandsFor.interrupt (h : p.StandsFor k) (e : Event)
    (hqueue : p.memory.queues newQueue = none) (hfresh : p.memory.elts newElt = none)
    (hdepth : k.readyQueue.length + 1 < depth) :
    Option.Rel StandsFor (p.interrupt depth e newQueue newElt) (k.interrupt e) := by
  have hdelivered := h.deliver e
  have hshort : (k.deliver e).readyQueue.length < depth := Nat.lt_of_succ_lt hdepth
  rw [PointerKernel.interrupt, RoundRobin.interrupt]
  cases e.interrupt with
  | trap =>
    simp only [PointerKernel.handleTrap, RoundRobin.handleTrap]
    split_ifs
    · exact hdelivered.read .disk hshort
    · exact .some hdelivered.issueWrite
    · exact hdelivered.read .keyboard hshort
    · exact hdelivered.fork e.R2 newQueue hfresh
    · exact hdelivered.kill hshort
    · refine Agree.bind_same fun s _ => ?_
      split_ifs
      · exact hdelivered.up s newQueue hfresh
      · exact hdelivered.down s hqueue hfresh hshort
    · exact .some hdelivered
  | clockInterrupt => exact hdelivered.clockInterrupt newQueue hfresh hdepth
  | diskInterrupt =>
    exact Agree.bind_map fun pid _ => hdelivered.answer .disk pid newQueue hfresh hdepth
  | keyboardInterrupt =>
    exact Agree.bind_map fun pid _ => hdelivered.answer .keyboard pid newQueue hfresh hdepth

end Handlers

/-! ## Runs -/

/-- An event, and the addresses `malloc` returns in its handler. -/
structure PointerEvent (A : Type) where
  event : Event
  newQueue : A
  newElt : A

section Runs

variable [DecidableEq A] {depth : ℕ}

/-- The kernel after `initialize_kernel`. -/
def Booted (p : PointerKernel A) : Prop :=
  ∃ pid clock newQueue, (powerOn (some pid) clock).initializeKernel newQueue = some p

/-- The event can come, and `malloc` returns addresses where nothing is allocated. -/
structure Legal (p : PointerKernel A) (x : PointerEvent A) : Prop where
  event : p.toCore.Legal p.state x.event
  newQueue : p.memory.queues x.newQueue = none
  newElt : p.memory.elts x.newElt = none

/-- A run of the kernel, in which `schedule` uses no more than the given depth. -/
def KernelRun (depth : ℕ) : List (PointerEvent A × PointerKernel A) → PointerKernel A → Prop :=
  Run Booted fun _ p x p' => p.Legal x ∧ p.interrupt depth x.event x.newQueue x.newElt = some p'

theorem Booted.standsFor {p : PointerKernel A} (hp : p.Booted) :
    ∃ k, RoundRobin.Booted k ∧ p.StandsFor k := by
  obtain ⟨pid, clock, newQueue, hboot⟩ := hp
  obtain rfl := Option.some.inj hboot
  refine ⟨_, ⟨pid, clock, rfl⟩, fun _ => [], ?_, ?_, rfl⟩
  · exact QueueMemory.sound_powerOn.createQueue rfl rfl
  · have hcreated : (QueueMemory.powerOn.initializeKernel newQueue).pointers .readyQueue =
        some newQueue := QueueMemory.pointers_createQueue_eq.mpr (.inl ⟨rfl, rfl⟩)
    exact fun hnull => Option.some_ne_none newQueue (hcreated.symm.trans hnull)

omit [DecidableEq A] in
theorem StandsFor.legal_iff {p : PointerKernel A} {k : RoundRobin} (h : p.StandsFor k) (e : Event) :
    k.toCore.Legal k.state e ↔ p.toCore.Legal p.state e := by
  obtain ⟨nodes, hrep⟩ := h
  rw [hrep.eq]
  exact Iff.rfl

/-- A legal event is matched by the kernel on lists. Twenty processes do not fill
the ready queue any further than `schedule` can look. -/
theorem StandsFor.step (hdepth : 22 ≤ depth) {p : PointerKernel A} {k : RoundRobin}
    (h : p.StandsFor k) (hk : k.Inv) {x : PointerEvent A} (hlegal : p.Legal x) :
    ∃ p' k', p.interrupt depth x.event x.newQueue x.newElt = some p' ∧ k.Step x.event k' ∧
      p'.StandsFor k' := by
  have hevent := (h.legal_iff x.event).mpr hlegal.event
  have hlength : k.readyQueue.length ≤ 20 := by
    have hcard := (hk.readyQueue_nodup).length_le_card
    rwa [Fintype.card_fin] at hcard
  obtain ⟨k', hk', _⟩ := RoundRobin.interrupt_effect hevent
  have hshort : k.readyQueue.length + 1 < depth := by omega
  obtain ⟨p', hp', hrel⟩ :=
    Agree.of_some (h.interrupt x.event hlegal.newQueue hlegal.newElt hshort) hk'
  exact ⟨p', k', hp', ⟨hevent, hk'⟩, hrel⟩

/-- The kernel on pointer queues refines the kernel on lists, over whole runs: through
the same events there is a run of the latter each of whose states is what the links
lead to in the memory of the former. And it never follows a pointer that leads
nowhere: whatever addresses `malloc` returns, every legal event is handled. -/
theorem pointer_kernel_refines (hdepth : 22 ≤ depth) {p : PointerKernel A}
    {h : List (PointerEvent A × PointerKernel A)} (hrun : KernelRun depth h p) :
    (∃ h' k, RoundRobin.KernelRun h' k ∧ p.StandsFor k ∧
      List.Forall₂ (fun x y => y.1 = x.1.event ∧ x.2.StandsFor y.2) h h') ∧
    ∀ x, p.Legal x → ∃ p', p.interrupt depth x.event x.newQueue x.newElt = some p' := by
  have hforward : ∃ h' k, RoundRobin.KernelRun h' k ∧ p.StandsFor k ∧
      List.Forall₂ (fun x y => y.1 = x.1.event ∧ x.2.StandsFor y.2) h h' := by
    refine Run.forward StandsFor PointerEvent.event (fun _ hp => hp.standsFor) ?_ hrun
    rintro h h' p k x p' _ hrun' hrel ⟨hlegal, hexec⟩
    obtain ⟨p₁, k', hp₁, hstep, hrel'⟩ :=
      hrel.step hdepth (RoundRobin.KernelRun.inv hrun') hlegal
    obtain rfl := Option.some.inj (hexec.symm.trans hp₁)
    exact ⟨k', hstep, hrel'⟩
  refine ⟨hforward, fun x hlegal => ?_⟩
  obtain ⟨h', k, hrun', hrel, _⟩ := hforward
  obtain ⟨p', _, hp', _⟩ := hrel.step hdepth (RoundRobin.KernelRun.inv hrun') hlegal
  exact ⟨p', hp'⟩

end Runs

/-- Process 0 forks process 1, whose element is at address 7. -/
theorem pointer_kernel_refines_forkOne : ∃ h, ∃ p : PointerKernel ℕ, KernelRun 22 h p ∧
    h.map (fun x => x.1.event) = [.forkOne] ∧ p.memory.head .readyQueue = some 7 ∧
    ∃ h' k, RoundRobin.KernelRun h' k ∧ p.StandsFor k := by
  have hstart : KernelRun 22 [] _ := .start ⟨0, 0#32, 5, rfl⟩
  have hrun : KernelRun 22 [(⟨.forkOne, 6, 7⟩, _)] _ := .next hstart ⟨⟨?_, rfl, rfl⟩, rfl⟩
  · obtain ⟨h', k, hk, hrel, _⟩ := (pointer_kernel_refines (by decide) hrun).1
    exact ⟨_, _, hrun, rfl, rfl, h', k, hk, hrel⟩
  · exact RoundRobin.legal_forkOne 0#32

end PointerKernel

end SimOS
