import SimOS.Kernel.MultilevelRuns

/-!
# The traps of the multilevel kernel

What follows when the running process issues a given trap, or a clock interrupt comes
while it runs, as an equation for the next state. The runs of this development that
are put together step by step are made of these.
-/

namespace SimOS

namespace Multilevel

/-- `schedule` dispatches the head of the highest queue that is not empty. -/
theorem schedule_eq_dispatchAt {k : Multilevel} {level : Fin 5} {pid : Pid} {next : List Pid}
    (hactive : k.activeProcesses ≠ 0) (hqueue : k.readyQueues level = pid :: next)
    (habove : ∀ l, level < l → k.readyQueues l = []) (hstate : k.state pid ≠ .blocked) :
    k.schedule 4 = k.dispatchAt level pid next := by
  have hdown : ∀ (n : ℕ) (hn : n < 5), (level : ℕ) ≤ n →
      k.schedule ⟨n, hn⟩ = k.dispatchAt level pid next := by
    intro n hn hle
    -- the induction is on the levels between
    induction n, hle using Nat.le_induction with
    | base => rw [schedule_cons hactive hqueue, if_neg hstate]
    | succ n hle ih =>
      have hempty := habove ⟨n + 1, hn⟩ (Fin.lt_def.mpr (Nat.lt_succ_of_le hle))
      have hne : n + 1 ≠ 0 := Nat.succ_ne_zero n
      rw [schedule_nil hactive hempty, if_neg fun h => hne h.1, if_pos hne]
      exact ih (Nat.lt_of_succ_lt hn)
  exact hdown 4 (Nat.lt_succ_self 4) (Fin.le_last level)

section Traps

variable {k : Multilevel} {runner pid : Pid} {s : Sem} {clock : Word}

/-- A process that runs may issue every trap that creates nobody and names a semaphore
of the array, if it names one. -/
theorem legal_trap {e : Event} (hhalted : k.halted = none) (hcurrent : k.currentPid = some runner)
    (htrap : e.interrupt = .trap) (hfork : e.R1 ≠ Trap.forkProgram)
    (hop : e.R1 = Trap.semaphoreOp → ∃ s : Sem, e.R2 = (s : ℕ)) :
    k.toCore.Legal k.state e := by
  refine ⟨hhalted, ?_⟩
  rw [htrap]
  refine ⟨?_, fun h => absurd h hfork, hop⟩
  rw [hcurrent]
  exact Option.some_ne_none runner

theorem step_readAt (clock : Word) (hhalted : k.halted = none)
    (hcurrent : k.currentPid = some runner) :
    k.Step (.readAt clock) (((k.deliver (.readAt clock)).issueRead .disk runner).schedule 4) := by
  refine ⟨legal_trap hhalted hcurrent rfl (by decide : Trap.diskRead ≠ _)
    fun h => absurd h (by decide : Trap.diskRead ≠ _), ?_⟩
  change (k.deliver (.readAt clock)).handleDiskRead = _
  rw [handleDiskRead]
  change Option.map _ k.currentPid = _
  rw [hcurrent]
  rfl

/-- The kernel once the running process reads from the disk and `pid`, the head of the queue
of `level`, was dispatched. -/
def readingAt (k : Multilevel) (runner : Pid) (level : Fin 5) (pid : Pid) (next : List Pid)
    (clock : Word) : Multilevel :=
  ((k.deliver (.readAt clock)).issueRead .disk runner).dispatchAt level pid next

theorem step_readingAt {level : Fin 5} {next : List Pid} (hhalted : k.halted = none)
    (hcurrent : k.currentPid = some runner) (hactive : k.activeProcesses ≠ 0)
    (hqueue : k.readyQueues level = pid :: next)
    (habove : ∀ l, level < l → k.readyQueues l = []) (hblocked : k.state pid ≠ .blocked)
    (hne : pid ≠ runner) :
    k.Step (.readAt clock) (k.readingAt runner level pid next clock) := by
  have hqueues : ((k.deliver (.readAt clock)).issueRead .disk runner).readyQueues =
      k.readyQueues := readyQueues_issueRead _ _ _
  have hstate : ((k.deliver (.readAt clock)).issueRead .disk runner).state pid ≠ .blocked := by
    rw [state_issueRead, Function.update_of_ne hne]
    exact hblocked
  rw [readingAt, ← schedule_eq_dispatchAt (by rw [toCore_issueRead]; exact hactive)
    (by rw [hqueues, hqueue]) (fun l hl => by rw [hqueues, habove l hl]) hstate]
  exact step_readAt clock hhalted hcurrent

theorem step_endAt (clock : Word) (hhalted : k.halted = none)
    (hcurrent : k.currentPid = some runner) :
    k.Step (.endAt clock) (((k.deliver (.endAt clock)).endProcess runner).schedule 4) := by
  refine ⟨legal_trap hhalted hcurrent rfl (by decide : Trap.endProgram ≠ _)
    fun h => absurd h (by decide : Trap.endProgram ≠ _), ?_⟩
  change (k.deliver (.endAt clock)).handleKill = _
  rw [handleKill]
  change Option.map _ k.currentPid = _
  rw [hcurrent]
  rfl

/-- The kernel once `pid`, created at `clock`, joined the ready queue of `level`. -/
def forkedAt (k : Multilevel) (pid : Pid) (level : Fin 5) (clock : Word) : Multilevel :=
  ((k.deliver (.forkAt pid clock)).createProcess pid).enqueueAt level pid

theorem step_forkAt {level : Fin 5} (clock : Word) (hhalted : k.halted = none)
    (hcurrent : k.currentPid ≠ none) (hfree : k.state pid = .uninitialized)
    (hpriority : k.priority pid = (level : ℕ)) :
    k.Step (.forkAt pid clock) (k.forkedAt pid level clock) := by
  have hcode : Trap.forkProgram ≠ Trap.semaphoreOp := by decide
  refine ⟨⟨hhalted, hcurrent, fun _ => ⟨pid, rfl, hfree⟩, fun h => absurd h hcode⟩, ?_⟩
  change (k.deliver (.forkAt pid clock)).handleFork (pid : ℕ) = _
  rw [handleFork, index?_coe, Option.bind_some]
  exact enqueueReady_eq ((congrFun (priority_setState _ _ _) pid).trans hpriority)

/-- The kernel once the running process went into `s` at once. -/
def enteredAt (k : Multilevel) (s : Sem) (clock : Word) : Multilevel :=
  ((k.deliver (.downAt s clock)).announceDown s).setSemaphore s (k.semaphores s).decrement

theorem step_enteredAt (hhalted : k.halted = none) (hcurrent : k.currentPid = some runner)
    (hvalue : (k.semaphores s).value ≠ 0#32) : k.Step (.downAt s clock) (k.enteredAt s clock) := by
  refine ⟨legal_trap hhalted hcurrent rfl (by decide : Trap.semaphoreOp ≠ _)
    fun _ => ⟨s, rfl⟩, ?_⟩
  change (k.deliver (.downAt s clock)).handleSemaphore (s : ℕ) 0 = _
  rw [handleSemaphore, index?_coe, Option.bind_some, if_neg (not_not.mpr rfl)]
  exact if_pos hvalue

/-- The kernel once the running process waits for `s` and `pid`, the head of the queue of
`level`, was dispatched. -/
def waitedAt (k : Multilevel) (s : Sem) (runner : Pid) (level : Fin 5) (pid : Pid)
    (next : List Pid) (clock : Word) : Multilevel :=
  (((k.deliver (.downAt s clock)).announceDown s).waitFor s runner).dispatchAt level pid next

theorem step_waitedAt {level : Fin 5} {next : List Pid} (hhalted : k.halted = none)
    (hcurrent : k.currentPid = some runner) (hvalue : (k.semaphores s).value = 0#32)
    (hactive : k.activeProcesses ≠ 0) (hqueue : k.readyQueues level = pid :: next)
    (habove : ∀ l, level < l → k.readyQueues l = []) (hblocked : k.state pid ≠ .blocked)
    (hne : pid ≠ runner) : k.Step (.downAt s clock) (k.waitedAt s runner level pid next clock) := by
  refine ⟨legal_trap hhalted hcurrent rfl (by decide : Trap.semaphoreOp ≠ _)
    fun _ => ⟨s, rfl⟩, ?_⟩
  have hqueues : (((k.deliver (.downAt s clock)).announceDown s).waitFor s runner).readyQueues =
      k.readyQueues := readyQueues_waitFor _ _ _
  have hstate : (((k.deliver (.downAt s clock)).announceDown s).waitFor s runner).state pid ≠
      .blocked := by
    rw [state_waitFor, Function.update_of_ne hne]
    exact hblocked
  rw [waitedAt, ← schedule_eq_dispatchAt (by rw [toCore_waitFor]; exact hactive)
    (by rw [hqueues, hqueue]) (fun l hl => by rw [hqueues, habove l hl]) hstate]
  change (k.deliver (.downAt s clock)).handleSemaphore (s : ℕ) 0 = _
  rw [handleSemaphore, index?_coe, Option.bind_some, if_neg (not_not.mpr rfl)]
  refine (if_neg (not_not.mpr hvalue)).trans ?_
  change Option.map _ k.currentPid = _
  rw [hcurrent]
  rfl

/-- The kernel once the running process handed `s` to `pid`, which joined the ready queue
of `level`. -/
def handedAt (k : Multilevel) (s : Sem) (pid : Pid) (next : List Pid) (level : Fin 5)
    (clock : Word) : Multilevel :=
  ((((k.deliver (.upAt s clock)).announceUp s).setSemaphore s
    { k.semaphores s with readyQueue := some next }).setState pid .ready).enqueueAt level pid

theorem step_handedAt {next : List Pid} {level : Fin 5} (hhalted : k.halted = none)
    (hcurrent : k.currentPid = some runner) (hvalue : (k.semaphores s).value = 0#32)
    (hqueue : (k.semaphores s).readyQueue = some (pid :: next))
    (hpriority : k.priority pid = (level : ℕ)) :
    k.Step (.upAt s clock) (k.handedAt s pid next level clock) := by
  refine ⟨legal_trap hhalted hcurrent rfl (by decide : Trap.semaphoreOp ≠ _)
    fun _ => ⟨s, rfl⟩, ?_⟩
  have hup : (((k.deliver (.upAt s clock)).announceUp s).semaphores s).up =
      ({ k.semaphores s with readyQueue := some next }, some pid) := by
    change (k.semaphores s).up = _
    rw [Semaphore.up, if_pos hvalue, hqueue]
  change (k.deliver (.upAt s clock)).handleSemaphore (s : ℕ) 1 = _
  rw [handleSemaphore, index?_coe, Option.bind_some, if_pos one_ne_zero, handleUp, hup]
  exact enqueueReady_eq ((congrFun (priority_setState _ _ _) pid).trans hpriority)

/-- Before the quantum is over a clock interrupt only sets the clock. -/
theorem step_clockAt (hhalted : k.halted = none)
    (hearly : clock - k.currentQuantumStartTime < quantum) :
    k.Step (.clockAt clock) (k.deliver (.clockAt clock)) := by
  refine ⟨⟨hhalted, trivial⟩, ?_⟩
  change (k.deliver (.clockAt clock)).handleClockInterrupt = _
  rw [handleClockInterrupt]
  split
  · rfl
  · exact if_neg (BitVec.not_le.mpr hearly)

/-- The kernel once the running process, preempted by the clock, joined the ready queue of
`level` and `pid`, the head of the queue of `head` then, was dispatched. -/
def preemptedAt (k : Multilevel) (runner : Pid) (level head : Fin 5) (pid : Pid)
    (next : List Pid) (clock : Word) : Multilevel :=
  ((((k.deliver (.clockAt clock)).preempt runner).enqueueAt level runner).dispatchAt head pid
    next).restartQuantum

theorem step_preemptedAt {level head : Fin 5} {next : List Pid} (hhalted : k.halted = none)
    (hcurrent : k.currentPid = some runner)
    (hover : quantum ≤ clock - k.currentQuantumStartTime)
    (hpriority : ((k.deliver (.clockAt clock)).preempt runner).priority runner = (level : ℕ))
    (hactive : k.activeProcesses ≠ 0)
    (hqueue : Function.update k.readyQueues level (k.readyQueues level ++ [runner]) head =
      pid :: next)
    (habove : ∀ l, head < l →
      Function.update k.readyQueues level (k.readyQueues level ++ [runner]) l = [])
    (hblocked : k.state pid ≠ .blocked) :
    k.Step (.clockAt clock) (k.preemptedAt runner level head pid next clock) := by
  refine ⟨⟨hhalted, trivial⟩, ?_⟩
  have hqueues : (((k.deliver (.clockAt clock)).preempt runner).enqueueAt level
      runner).readyQueues =
        Function.update k.readyQueues level (k.readyQueues level ++ [runner]) := by
    change Function.update ((k.deliver (.clockAt clock)).preempt runner).readyQueues level
      (((k.deliver (.clockAt clock)).preempt runner).readyQueues level ++ [runner]) = _
    rw [readyQueues_preempt]
    rfl
  have hstate : (((k.deliver (.clockAt clock)).preempt runner).enqueueAt level runner).state pid ≠
      .blocked := by
    change ((k.deliver (.clockAt clock)).preempt runner).state pid ≠ .blocked
    rw [state_preempt, Function.update_apply]
    split_ifs
    · decide
    · exact hblocked
  have hactive' : (((k.deliver (.clockAt clock)).preempt runner).enqueueAt level
      runner).activeProcesses ≠ 0 := by
    change ((k.deliver (.clockAt clock)).preempt runner).activeProcesses ≠ 0
    rw [toCore_preempt]
    exact hactive
  rw [preemptedAt, ← schedule_eq_dispatchAt hactive' (by rw [hqueues, hqueue])
    (fun l hl => by rw [hqueues, habove l hl]) hstate]
  have hbusy : (k.deliver (.clockAt clock)).currentPid = some runner := hcurrent
  change (k.deliver (.clockAt clock)).handleClockInterrupt = _
  rw [handleClockInterrupt, hbusy]
  refine (if_pos hover).trans ?_
  rw [enqueueReady_eq hpriority]
  rfl

end Traps

end Multilevel

end SimOS
