import SimOS.Kernel.RoundRobinRuns
import SimOS.Kernel.MultilevelRuns
import SimOS.Kernel.Semaphores

/-!
# The two kernels in lockstep

Fed with the same events the two kernels agree on everything but what they print
as long as no process blocks before its quantum is over: then no priority is ever
raised, and the multilevel kernel uses its lowest queue as the round-robin kernel
uses its only one. Each handler keeps `Matches`, whatever its arguments.
-/

namespace SimOS

open Library

/-- The second kernel differs in what it printed at most. -/
def Core.Agrees (c c' : Core) : Prop := ∃ output, c' = { c with output := output }

/-- The event is a trap that blocks the current process. -/
def Core.Blocks (c : Core) (e : Event) : Prop :=
  e.interrupt = .trap ∧ (e.R1 = Trap.diskRead ∨ e.R1 = Trap.keyboardRead ∨
    ∃ s, e.semOp? s = some .down ∧ (c.semaphores s).value = 0#32)

/-- If the event blocks the current process then its quantum is over, by the clock. -/
def Core.BlocksLate (c : Core) (e : Event) : Prop :=
  c.Blocks e → quantum ≤ e.clock - c.currentQuantumStartTime

/-- The kernels agree, the priorities are 0, and only the lowest ready queue is used. -/
structure Matches (k : RoundRobin) (m : Multilevel) : Prop where
  core : k.toCore.Agrees m.toCore
  state : m.state = k.state
  priority : m.priority = fun _ => 0
  low : m.readyQueues 0 = k.readyQueue
  high : ∀ level, level ≠ 0 → m.readyQueues level = []

namespace Core.Agrees

variable {c c' : Core}

theorem currentPid (h : c.Agrees c') : c'.currentPid = c.currentPid := by
  obtain ⟨output, rfl⟩ := h
  rfl

theorem semaphores (h : c.Agrees c') : c'.semaphores = c.semaphores := by
  obtain ⟨output, rfl⟩ := h
  rfl

theorem elapsed (h : c.Agrees c') : c'.elapsed = c.elapsed := by
  obtain ⟨output, rfl⟩ := h
  rfl

theorem activeProcesses (h : c.Agrees c') : c'.activeProcesses = c.activeProcesses := by
  obtain ⟨output, rfl⟩ := h
  rfl

theorem ioProcesses (h : c.Agrees c') : c'.ioProcesses = c.ioProcesses := by
  obtain ⟨output, rfl⟩ := h
  rfl

theorem halted (h : c.Agrees c') : c'.halted = c.halted := by
  obtain ⟨output, rfl⟩ := h
  rfl

theorem deliver (h : c.Agrees c') (e : Event) : (c.deliver e).Agrees (c'.deliver e) := by
  obtain ⟨output, rfl⟩ := h
  rw [Core.deliver, Core.deliver]
  split <;> exact ⟨[], rfl⟩

theorem print (h : c.Agrees c') (message message' : Message) :
    (c.print message).Agrees (c'.print message') := by
  obtain ⟨output, rfl⟩ := h
  exact ⟨_, rfl⟩

end Core.Agrees

/-- The lowest queue of the second kernel grows as the only queue of the first. -/
theorem enqueueReady_low {queues : Fin 5 → List Pid} {queue : List Pid} (hlow : queues 0 = queue)
    (hhigh : ∀ level, level ≠ 0 → queues level = []) (pid : Pid) :
    Core.enqueueReady queues 0 pid 0 = enqueue queue pid ∧
      ∀ level, level ≠ 0 → Core.enqueueReady queues 0 pid level = [] := by
  constructor
  · rw [Core.enqueueReady, Function.update_self, hlow]
  · intro level hlevel
    rw [Core.enqueueReady, Function.update_of_ne hlevel]
    exact hhigh level hlevel

namespace Matches

variable {k : RoundRobin} {m : Multilevel}

/-! ## `schedule` -/

theorem exit (h : Matches k m) (reason : Halt) :
    Matches { k with toCore := k.toCore.exit reason }
      { m with toCore := m.toCore.exit reason } where
  core := by
    obtain ⟨output, hcore⟩ := h.core
    rw [hcore]
    exact ⟨_, rfl⟩
  state := h.state
  priority := h.priority
  low := h.low
  high := h.high

theorem idle (h : Matches k m) :
    Matches { k.print (.idle k.clock) with currentPid := none }
      { m.print (.idle m.clock) with currentPid := none } where
  core := by
    obtain ⟨output, hcore⟩ := h.core
    show Core.Agrees _ { m.toCore.print (.idle m.clock) with currentPid := none }
    rw [hcore]
    exact ⟨_, rfl⟩
  state := h.state
  priority := h.priority
  low := h.low
  high := h.high

/-- Both kernels drop a blocked head. -/
theorem drop (h : Matches k m) (pid : Pid) (next : List Pid) :
    Matches { k with readyQueue := next, discarded := k.discarded ++ [pid] }
      { m with
        readyQueues := Function.update m.readyQueues 0 next
        discarded := m.discarded ++ [pid] } where
  core := h.core
  state := h.state
  priority := h.priority
  low := Function.update_self (0 : Fin 5) next m.readyQueues
  high := fun level hlevel => (Function.update_of_ne hlevel _ _).trans (h.high level hlevel)

theorem dispatch (h : Matches k m) (pid : Pid) (next : List Pid) :
    Matches
      { (k.setState pid .running).print (.runs k.clock pid) with
        currentPid := some pid
        readyQueue := next }
      (m.dispatchAt 0 pid next) where
  core := by
    obtain ⟨output, hcore⟩ := h.core
    show Core.Agrees _ { m.toCore.print (.runs m.clock pid) with currentPid := some pid }
    rw [hcore]
    exact ⟨_, rfl⟩
  state := by
    show (m.setState pid .running).state = (k.setState pid .running).state
    rw [Multilevel.state_setState, RoundRobin.state_setState, h.state]
  priority := (Multilevel.priority_setState _ _ _).trans h.priority
  low := by
    show Function.update m.readyQueues 0 next 0 = next
    exact Function.update_self _ _ _
  high := fun level hlevel => (Function.update_of_ne hlevel _ _).trans (h.high level hlevel)

theorem schedule (h : Matches k m) : Matches k.schedule (m.schedule 4) := by
  rw [Multilevel.schedule_of_low h.high]
  fun_induction RoundRobin.schedule k generalizing m with
  | case1 k hactive =>
    rw [Multilevel.schedule, if_pos (h.core.activeProcesses.trans hactive)]
    exact h.exit _
  | case2 k hactive hqueue hio =>
    have hactive' := h.core.activeProcesses.trans_ne hactive
    rw [Multilevel.schedule_zero_nil hactive' (h.low.trans hqueue),
      if_pos (h.core.ioProcesses.trans hio)]
    exact h.exit _
  | case3 k hactive hqueue hio =>
    have hactive' := h.core.activeProcesses.trans_ne hactive
    rw [Multilevel.schedule_zero_nil hactive' (h.low.trans hqueue),
      if_neg (h.core.ioProcesses.trans_ne hio)]
    exact h.idle
  | case4 k hactive pid next hqueue hblocked ih =>
    have hactive' := h.core.activeProcesses.trans_ne hactive
    rw [Multilevel.schedule_cons hactive' (h.low.trans hqueue),
      if_pos (by rw [h.state]; exact hblocked)]
    exact ih (h.drop pid next)
  | case5 k hactive pid next hqueue hblocked =>
    have hactive' := h.core.activeProcesses.trans_ne hactive
    rw [Multilevel.schedule_cons hactive' (h.low.trans hqueue),
      if_neg (by rw [h.state]; exact hblocked)]
    exact h.dispatch pid next

/-! ## The handlers -/

theorem deliver (h : Matches k m) (e : Event) : Matches (k.deliver e) (m.deliver e) where
  core := h.core.deliver e
  state := h.state
  priority := h.priority
  low := h.low
  high := h.high

/-- A process that blocks late keeps its priority. -/
theorem update_raised {priority : Pid → ℤ} {elapsed : Word} (hlate : quantum ≤ elapsed)
    (pid : Pid) :
    Function.update priority pid (Multilevel.raised elapsed (priority pid)) = priority := by
  have hover : ¬elapsed < quantum := BitVec.not_lt.mpr hlate
  rw [Multilevel.raised, if_neg hover, Function.update_eq_self]

theorem issueRead (h : Matches k m) (device : Device) (pid : Pid) (hlate : quantum ≤ k.elapsed) :
    Matches (k.issueRead device pid) (m.issueRead device pid) where
  core := by
    obtain ⟨output, hcore⟩ := h.core
    rw [Multilevel.toCore_issueRead, hcore]
    exact ⟨_, rfl⟩
  state := by rw [Multilevel.state_issueRead, RoundRobin.state_issueRead, h.state]
  priority := by
    rw [Multilevel.priority_issueRead, update_raised (by rw [h.core.elapsed]; exact hlate)]
    exact h.priority
  low := (congrFun (Multilevel.readyQueues_issueRead m device pid) 0).trans h.low
  high := by
    rw [Multilevel.readyQueues_issueRead]
    exact h.high

theorem createProcess (h : Matches k m) (pid : Pid) :
    Matches (k.createProcess pid) ((m.createProcess pid).enqueueAt 0 pid) where
  core := by
    obtain ⟨output, hcore⟩ := h.core
    show Core.Agrees _ { m.toCore.print (.createsEntry m.clock pid) with
      activeProcesses := m.activeProcesses + 1 }
    rw [hcore]
    exact ⟨_, rfl⟩
  state := by
    rw [RoundRobin.state_createProcess, ← h.state]
    exact Multilevel.state_createProcess m pid
  priority := (Multilevel.priority_setState _ _ _).trans h.priority
  low := (enqueueReady_low h.low h.high pid).1
  high := (enqueueReady_low h.low h.high pid).2

theorem endProcess (h : Matches k m) (pid : Pid) :
    Matches (k.endProcess pid) (m.endProcess pid) where
  core := by
    obtain ⟨output, hcore⟩ := h.core
    show Core.Agrees _
      { { m.toCore with activeProcesses := m.activeProcesses - 1 }.print
          (.exits m.clock pid _) with
        currentQuantumStartTime := m.clock }
    rw [hcore]
    exact ⟨_, rfl⟩
  state := by rw [Multilevel.state_endProcess, RoundRobin.state_endProcess, h.state]
  priority := by
    rw [Multilevel.priority_endProcess, h.priority]
    exact Function.update_eq_self pid _
  low := h.low
  high := h.high

theorem setSemaphore (h : Matches k m) (s : Sem) (sem : Semaphore) :
    Matches (k.setSemaphore s sem) (m.setSemaphore s sem) where
  core := by
    obtain ⟨output, hcore⟩ := h.core
    show Core.Agrees _ { m.toCore with semaphores := Function.update m.semaphores s sem }
    rw [hcore]
    exact ⟨_, rfl⟩
  state := h.state
  priority := h.priority
  low := h.low
  high := h.high

theorem print (h : Matches k m) (message message' : Message) :
    Matches (k.print message) (m.print message') where
  core := h.core.print message message'
  state := h.state
  priority := h.priority
  low := h.low
  high := h.high

theorem wake (h : Matches k m) (pid : Pid) :
    Matches (k.wake pid) ((m.setState pid .ready).enqueueAt 0 pid) where
  core := h.core
  state := by
    rw [RoundRobin.state_wake, ← h.state]
    exact Multilevel.state_setState m pid .ready
  priority := (Multilevel.priority_setState _ _ _).trans h.priority
  low := (enqueueReady_low h.low h.high pid).1
  high := (enqueueReady_low h.low h.high pid).2

theorem waitFor (h : Matches k m) (s : Sem) (pid : Pid) (hlate : quantum ≤ k.elapsed) :
    Matches (k.waitFor s pid) (m.waitFor s pid) where
  core := by
    obtain ⟨output, hcore⟩ := h.core
    rw [Multilevel.toCore_waitFor, hcore]
    exact ⟨_, rfl⟩
  state := by rw [Multilevel.state_waitFor, RoundRobin.state_waitFor, h.state]
  priority := by
    rw [Multilevel.priority_waitFor, update_raised (by rw [h.core.elapsed]; exact hlate)]
    exact h.priority
  low := (congrFun (Multilevel.readyQueues_waitFor m s pid) 0).trans h.low
  high := by
    rw [Multilevel.readyQueues_waitFor]
    exact h.high

theorem preempt (h : Matches k m) (pid : Pid) :
    Matches (k.preempt pid) ((m.preempt pid).enqueueAt 0 pid) where
  core := by
    show k.toCore.Agrees (m.preempt pid).toCore
    rw [Multilevel.toCore_preempt]
    exact h.core
  state := by
    rw [RoundRobin.state_preempt, ← h.state]
    exact Multilevel.state_preempt m pid
  priority := by
    show (m.preempt pid).priority = fun _ => 0
    rw [Multilevel.priority_preempt, h.priority]
    exact Function.update_eq_self pid _
  low := by
    show Core.enqueueReady (m.preempt pid).readyQueues 0 pid 0 = enqueue k.readyQueue pid
    rw [Multilevel.readyQueues_preempt]
    exact (enqueueReady_low h.low h.high pid).1
  high := by
    show ∀ level, level ≠ 0 → Core.enqueueReady (m.preempt pid).readyQueues 0 pid level = []
    rw [Multilevel.readyQueues_preempt]
    exact (enqueueReady_low h.low h.high pid).2

theorem finishRead (h : Matches k m) (device : Device) (pid : Pid) :
    Matches (k.finishRead device pid) ((m.finishRead device pid).enqueueAt 0 pid) where
  core := by
    obtain ⟨output, hcore⟩ := h.core
    show Core.Agrees _ { m.toCore.print (.handled device m.clock pid) with
      ioProcesses := m.ioProcesses - 1 }
    rw [hcore]
    exact ⟨_, rfl⟩
  state := by
    show ((m.finishRead device pid)).state = (k.finishRead device pid).state
    rw [RoundRobin.state_finishRead, Multilevel.state_finishRead, h.state]
  priority := (Multilevel.priority_setState _ _ _).trans h.priority
  low := (enqueueReady_low h.low h.high pid).1
  high := (enqueueReady_low h.low h.high pid).2

/-- The quantum starts with the clock. -/
theorem restart (h : Matches k m) :
    Matches { k with currentQuantumStartTime := k.clock }
      { m with currentQuantumStartTime := m.clock } where
  core := by
    obtain ⟨output, hcore⟩ := h.core
    show Core.Agrees _ { m.toCore with currentQuantumStartTime := m.clock }
    rw [hcore]
    exact ⟨_, rfl⟩
  state := h.state
  priority := h.priority
  low := h.low
  high := h.high

theorem restartQuantum (h : Matches k m) : Matches k.restartQuantum m.restartQuantum := by
  rw [RoundRobin.restartQuantum, Multilevel.restartQuantum]
  by_cases hhalted : k.halted = none
  · rw [if_pos hhalted, if_pos (h.core.halted.trans hhalted)]
    exact h.restart
  · rw [if_neg hhalted, if_neg (by rw [h.core.halted]; exact hhalted)]
    exact h

theorem scheduleIfIdle (h : Matches k m) : Matches k.scheduleIfIdle m.scheduleIfIdle := by
  rw [RoundRobin.scheduleIfIdle, Multilevel.scheduleIfIdle]
  by_cases hidle : k.currentPid = none
  · rw [if_pos hidle, if_pos (h.core.currentPid.trans hidle)]
    exact h.restart.schedule
  · rw [if_neg hidle, if_neg (by rw [h.core.currentPid]; exact hidle)]
    exact h

/-! ## Events -/

/-- With priority 0 a process joins the lowest queue. -/
theorem enqueueReady_eq {m : Multilevel} (hpriority : m.priority = fun _ => 0) (pid : Pid) :
    m.enqueueReady pid = some (m.enqueueAt 0 pid) :=
  Multilevel.enqueueReady_eq (show m.priority pid = ((0 : Fin 5) : ℕ) from congrFun hpriority pid)

theorem handleRead (h : Matches k m) (device : Device) (hlate : quantum ≤ k.elapsed) :
    Option.Rel Matches (k.currentPid.map fun pid => (k.issueRead device pid).schedule)
      (m.currentPid.map fun pid => (m.issueRead device pid).schedule 4) := by
  rw [h.core.currentPid]
  cases k.currentPid with
  | none => exact .none
  | some pid => exact .some (h.issueRead device pid hlate).schedule

theorem handleFork (h : Matches k m) (R2 : ℤ) :
    Option.Rel Matches (k.handleFork R2) (m.handleFork R2) := by
  rw [RoundRobin.handleFork, Multilevel.handleFork]
  cases index? 20 R2 with
  | none => exact .none
  | some pid =>
    rw [Option.bind_some,
      enqueueReady_eq (show (m.createProcess pid).priority = _ from
        (Multilevel.priority_setState _ _ _).trans h.priority)]
    exact .some (h.createProcess pid)

theorem handleKill (h : Matches k m) : Option.Rel Matches k.handleKill m.handleKill := by
  rw [RoundRobin.handleKill, Multilevel.handleKill, h.core.currentPid]
  cases k.currentPid with
  | none => exact .none
  | some pid => exact .some (h.endProcess pid).schedule

theorem handleUp (h : Matches k m) (s : Sem) :
    Option.Rel Matches (some (k.handleUp s)) (m.handleUp s) := by
  have hup : Matches (k.announceUp s) (m.announceUp s) := h.print _ _
  rw [RoundRobin.handleUp, Multilevel.handleUp, hup.core.semaphores]
  rcases ((k.announceUp s).semaphores s).up with ⟨sem, _ | pid⟩
  · exact .some (hup.setSemaphore s sem)
  · have hsem := hup.setSemaphore s sem
    show Option.Rel Matches _ (((m.announceUp s).setSemaphore s sem).setState pid .ready
      |>.enqueueReady pid)
    rw [enqueueReady_eq ((Multilevel.priority_setState _ _ _).trans hsem.priority)]
    exact .some (hsem.wake pid)

theorem handleDown (h : Matches k m) (s : Sem)
    (hlate : (k.semaphores s).value = 0#32 → quantum ≤ k.elapsed) :
    Option.Rel Matches (k.handleDown s) (m.handleDown s) := by
  have hdown : Matches (k.announceDown s) (m.announceDown s) := h.print _ _
  rw [RoundRobin.handleDown, Multilevel.handleDown, hdown.core.semaphores, hdown.core.currentPid]
  split_ifs with hvalue
  · exact .some (hdown.setSemaphore s _)
  · cases (k.announceDown s).currentPid with
    | none => exact .none
    | some pid => exact .some (hdown.waitFor s pid (hlate (not_not.mp hvalue))).schedule

theorem handleSemaphore (h : Matches k m) (R2 R3 : ℤ)
    (hlate : ∀ s : Sem, R2 = (s : ℕ) → R3 = 0 → (k.semaphores s).value = 0#32 →
      quantum ≤ k.elapsed) :
    Option.Rel Matches (k.handleSemaphore R2 R3) (m.handleSemaphore R2 R3) := by
  rw [RoundRobin.handleSemaphore, Multilevel.handleSemaphore]
  cases hs : index? 16 R2 with
  | none => exact .none
  | some s =>
    rw [Option.bind_some, Option.bind_some]
    by_cases hR3 : R3 = 0
    · rw [if_neg (not_not.mpr hR3), if_neg (not_not.mpr hR3)]
      exact h.handleDown s (hlate s (index?_eq_some hs) hR3)
    · rw [if_pos hR3, if_pos hR3]
      exact h.handleUp s

theorem handleTrap (h : Matches k m) (e : Event) (htrap : e.interrupt = .trap)
    (hlate : k.toCore.BlocksLate e) :
    Option.Rel Matches ((k.deliver e).handleTrap e) ((m.deliver e).handleTrap e) := by
  have hdeliver := h.deliver e
  have helapsed : k.toCore.Blocks e → quantum ≤ (k.deliver e).elapsed := by
    intro hblocks
    show quantum ≤ (k.toCore.deliver e).elapsed
    rw [Core.elapsed_deliver]
    exact hlate hblocks
  rw [RoundRobin.handleTrap, Multilevel.handleTrap]
  split_ifs with hread hwrite hkeyboard hfork hkill hsemaphore
  · exact hdeliver.handleRead .disk (helapsed ⟨htrap, .inl hread⟩)
  · exact .some (hdeliver.print _ _)
  · exact hdeliver.handleRead .keyboard (helapsed ⟨htrap, .inr (.inl hkeyboard)⟩)
  · exact hdeliver.handleFork e.R2
  · exact hdeliver.handleKill
  · refine hdeliver.handleSemaphore e.R2 e.R3 fun s hR2 hR3 hvalue => helapsed ⟨htrap, ?_⟩
    refine .inr (.inr ⟨s, ?_, ?_⟩)
    · rw [Event.semOp?_down ⟨htrap, hsemaphore⟩ hR2 hR3, if_pos rfl]
    · rw [← Core.deliver_semaphores k.toCore e]
      exact hvalue
  · exact .some hdeliver

theorem handleClockInterrupt (h : Matches k m) :
    Option.Rel Matches (some k.handleClockInterrupt) m.handleClockInterrupt := by
  rw [RoundRobin.handleClockInterrupt, Multilevel.handleClockInterrupt, h.core.currentPid,
    h.core.elapsed]
  cases k.currentPid with
  | none => exact .some h
  | some pid =>
    by_cases hdue : quantum ≤ k.elapsed
    · have hpriority : (m.preempt pid).priority = fun _ => 0 := (h.preempt pid).priority
      show Option.Rel Matches (some (if quantum ≤ k.elapsed then _ else _))
        (if quantum ≤ k.elapsed then _ else _)
      rw [if_pos hdue, if_pos hdue, enqueueReady_eq hpriority]
      exact .some (h.preempt pid).schedule.restartQuantum
    · show Option.Rel Matches (some (if quantum ≤ k.elapsed then _ else _))
        (if quantum ≤ k.elapsed then _ else _)
      rw [if_neg hdue, if_neg hdue]
      exact .some h

/-- `handle_disk_interrupt` and `handle_keyboard_interrupt`. -/
theorem handleAnswer (h : Matches k m) (device : Device) (R1 : ℤ) :
    Option.Rel Matches ((index? 20 R1).map fun pid => (k.finishRead device pid).scheduleIfIdle)
      ((index? 20 R1).bind fun pid =>
        ((m.finishRead device pid).enqueueReady pid).map Multilevel.scheduleIfIdle) := by
  cases index? 20 R1 with
  | none => exact .none
  | some pid =>
    have hpriority : (m.finishRead device pid).priority = fun _ => 0 :=
      (h.finishRead device pid).priority
    rw [Option.bind_some, enqueueReady_eq hpriority]
    exact .some (h.finishRead device pid).scheduleIfIdle

/-- An event that blocks nobody early is handled by both kernels or by none, and
keeps them in agreement. -/
theorem interrupt (h : Matches k m) (e : Event) (hlate : k.toCore.BlocksLate e) :
    Option.Rel Matches (k.interrupt e) (m.interrupt e) := by
  have hdeliver := h.deliver e
  rw [RoundRobin.interrupt, Multilevel.interrupt]
  cases hkind : e.interrupt with
  | trap => exact h.handleTrap e hkind hlate
  | clockInterrupt => exact hdeliver.handleClockInterrupt
  | diskInterrupt => exact hdeliver.handleAnswer .disk e.R1
  | keyboardInterrupt => exact hdeliver.handleAnswer .keyboard e.R1

end Matches

/-! ## Runs -/

/-- Both kernels after `initialize_kernel`, with the same pid and clock. -/
def BootedBoth (s : RoundRobin × Multilevel) : Prop :=
  ∃ pid clock, (RoundRobin.powerOn (some pid) clock).initializeKernel = some s.1 ∧
    (Multilevel.powerOn (some pid) clock).initializeKernel = some s.2

/-- Both kernels are fed the same legal event, which blocks nobody early. -/
def FeedBoth (s : RoundRobin × Multilevel) (e : Event) (s' : RoundRobin × Multilevel) : Prop :=
  (s.1.toCore.Legal s.1.state e ∧ s.1.toCore.BlocksLate e) ∧
    s.1.interrupt e = some s'.1 ∧ s.2.interrupt e = some s'.2

theorem BootedBoth.matches {s : RoundRobin × Multilevel} (h : BootedBoth s) :
    Matches s.1 s.2 := by
  obtain ⟨pid, clock, hk, hm⟩ := h
  have hk' : s.1 = RoundRobin.boot pid clock := (Option.some.inj hk).symm
  have hm' : s.2 = Multilevel.boot pid clock := (Option.some.inj hm).symm
  rw [hk', hm']
  refine ⟨⟨[], rfl⟩, ?_, Multilevel.priority_boot pid clock, rfl, fun _ _ => rfl⟩
  rw [Multilevel.state_boot, RoundRobin.state_boot]

theorem FeedBoth.matches {s s' : RoundRobin × Multilevel} {e : Event} (h : Matches s.1 s.2)
    (hfeed : FeedBoth s e s') : Matches s'.1 s'.2 := by
  have hrel := h.interrupt e hfeed.1.2
  rw [hfeed.2.1, hfeed.2.2] at hrel
  cases hrel with
  | some hmatches => exact hmatches

/-- Without boosts the multilevel kernel is the round-robin kernel: fed the same
events, none of which blocks a process before its quantum is over, the kernels
are in the same state after every event and go on together with the next. -/
theorem kernels_agree {h : List (Event × RoundRobin × Multilevel)} {s : RoundRobin × Multilevel}
    (hrun : Run BootedBoth (fun _ => FeedBoth) h s) :
    (s.2.currentPid = s.1.currentPid ∧ s.2.state = s.1.state ∧
      s.2.currentQuantumStartTime = s.1.currentQuantumStartTime ∧
      s.2.activeProcesses = s.1.activeProcesses ∧ s.2.ioProcesses = s.1.ioProcesses ∧
      s.2.semaphores = s.1.semaphores ∧ s.2.requests = s.1.requests ∧
      s.2.readyQueues 0 = s.1.readyQueue ∧ (∀ level, level ≠ 0 → s.2.readyQueues level = []) ∧
      s.2.halted = s.1.halted) ∧
    ∀ e, (s.2.toCore.Legal s.2.state e ↔ s.1.toCore.Legal s.1.state e) ∧
      (s.1.toCore.Legal s.1.state e → s.1.toCore.BlocksLate e → ∃ s', FeedBoth s e s') := by
  have hmatches : Matches s.1 s.2 :=
    Run.invariant (P := fun _ s => Matches s.1 s.2) (fun _ hs => hs.matches)
      (fun _ _ _ _ _ ih hfeed => hfeed.matches ih) hrun
  obtain ⟨output, hcore⟩ := hmatches.core
  constructor
  · rw [hcore]
    exact ⟨rfl, hmatches.state, rfl, rfl, rfl, rfl, rfl, hmatches.low, hmatches.high, rfl⟩
  · intro e
    constructor
    · rw [hcore, hmatches.state]
      exact Iff.rfl
    · intro hlegal hlate
      obtain ⟨k', hk', _⟩ := RoundRobin.interrupt_effect hlegal
      have hrel := hmatches.interrupt e hlate
      rw [hk'] at hrel
      cases hm : s.2.interrupt e with
      | none =>
        rw [hm] at hrel
        cases hrel
      | some m' => exact ⟨(k', m'), ⟨hlegal, hlate⟩, hk', hm⟩

/-- Process 0 reads from the disk when its quantum is over. -/
theorem kernels_agree_readAt : ∃ s', FeedBoth (RoundRobin.boot 0 0#32, Multilevel.boot 0 0#32)
    { clock := 50#32, interrupt := .trap, R1 := Trap.diskRead, R2 := 1, R3 := 0 } s' ∧
    s'.2.currentPid = s'.1.currentPid ∧ s'.2.halted = s'.1.halted := by
  have hstart : Run BootedBoth (fun _ => FeedBoth) []
      (RoundRobin.boot 0 0#32, Multilevel.boot 0 0#32) := .start ⟨0, 0#32, rfl, rfl⟩
  obtain ⟨s', hfeed⟩ := ((kernels_agree hstart).2
    { clock := 50#32, interrupt := .trap, R1 := Trap.diskRead, R2 := 1, R3 := 0 }).2
    ⟨rfl, Option.some_ne_none _, fun h => absurd h (by decide), fun h => absurd h (by decide)⟩
    fun _ => by decide
  obtain ⟨hcurrent, _, _, _, _, _, _, _, _, hhalted⟩ := (kernels_agree (.next hstart hfeed)).1
  exact ⟨s', hfeed, hcurrent, hhalted⟩

end SimOS
