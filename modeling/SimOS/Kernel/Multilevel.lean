import SimOS.Kernel.Machine

/-!
# The multilevel kernel of Project 1 Honors

The handlers of `kernel.c`, under its names, with the conventions of the
round-robin kernel. A process has a priority, which is raised when it blocks
before its quantum is over and lowered when the clock preempts it, and its
priority is the index of the ready queue it joins. An index outside of
`ready_queues` is `none` too.
-/

namespace SimOS

/-- `PROCESS_TABLE_ENTRY` with its priority. -/
structure PriorityTableEntry where
  state : ProcessState
  totalCpuTimeUsed : Word
  priority : ℤ

/-- The state of the kernel. `discarded` is not in the source: it lists the pids
that `schedule` dropped from the head of a ready queue because they were blocked. -/
structure Multilevel extends Core where
  processTable : Pid → PriorityTableEntry
  readyQueues : Fin 5 → List Pid
  discarded : List Pid

namespace Multilevel

def state (k : Multilevel) (pid : Pid) : ProcessState := (k.processTable pid).state

def priority (k : Multilevel) (pid : Pid) : ℤ := (k.processTable pid).priority

/-- An assignment to a field of `process_table[pid]`. -/
def modifyEntry (k : Multilevel) (pid : Pid) (f : PriorityTableEntry → PriorityTableEntry) :
    Multilevel :=
  { k with processTable := Function.update k.processTable pid (f (k.processTable pid)) }

def setState (k : Multilevel) (pid : Pid) (state : ProcessState) : Multilevel :=
  k.modifyEntry pid fun entry => { entry with state := state }

def setPriority (k : Multilevel) (pid : Pid) (priority : ℤ) : Multilevel :=
  k.modifyEntry pid fun entry => { entry with priority := priority }

/-- `process_table[pid].total_CPU_time_used += (clock - current_quantum_start_time)`. -/
def addCpuTime (k : Multilevel) (pid : Pid) : Multilevel :=
  k.modifyEntry pid fun entry =>
    { entry with totalCpuTimeUsed := entry.totalCpuTimeUsed + k.elapsed }

/-- The priority is raised when the process blocks before its quantum is over. -/
def boost (k : Multilevel) (pid : Pid) : Multilevel :=
  if k.elapsed < quantum then
    if k.priority pid < 4 then k.setPriority pid (k.priority pid + 1) else k
  else k

/-- The priority is lowered when the clock preempts the process. -/
def demote (k : Multilevel) (pid : Pid) : Multilevel :=
  if 0 < k.priority pid then k.setPriority pid (k.priority pid - 1) else k

def print (k : Multilevel) (message : Message) : Multilevel :=
  { k with toCore := k.toCore.print message }

/-- An assignment to `semaphores[s]`. -/
def setSemaphore (k : Multilevel) (s : Sem) (sem : Semaphore) : Multilevel :=
  { k with semaphores := Function.update k.semaphores s sem }

/-- `enqueue` on one of the ready queues. -/
def enqueueAt (k : Multilevel) (level : Fin 5) (pid : Pid) : Multilevel :=
  { k with
    readyQueues := Function.update k.readyQueues level (enqueue (k.readyQueues level) pid) }

/-- `enqueue(&ready_queues[process_table[pid].priority], pid)`. -/
def enqueueReady (k : Multilevel) (pid : Pid) : Option Multilevel :=
  (index? 5 (k.priority pid)).map fun level => k.enqueueAt level pid

/-- The machine as it comes up, with the pid and the clock the hardware sets. -/
def powerOn (pid : Option Pid) (clock : Word) : Multilevel where
  toCore := Core.powerOn pid clock
  processTable := fun _ => { state := .uninitialized, totalCpuTimeUsed := 0#32, priority := 0 }
  readyQueues := fun _ => []
  discarded := []

def initializeKernel (k : Multilevel) : Option Multilevel :=
  k.currentPid.map fun pid =>
    let k := k.setState pid .running
    { k with toCore := k.toCore.initCounters }

def schedule (k : Multilevel) (queueNum : Fin 5) : Multilevel :=
  if k.activeProcesses = 0 then { k with toCore := k.toCore.exit .noMoreProcesses }
  else
    match _hqueue : k.readyQueues queueNum with
    | [] =>
      -- only the lowest queue tells a deadlock from an idle processor
      if queueNum = 0 ∧ k.ioProcesses = 0 then { k with toCore := k.toCore.exit .deadlockedSystem }
      else if _hnum : queueNum ≠ 0 then schedule k ⟨queueNum - 1, by omega⟩
      else { k.print (.idle k.clock) with currentPid := none }
    | pid :: next =>
      -- a blocked head is dropped and never put back
      if k.state pid = .blocked then
        schedule
          { k with
            readyQueues := Function.update k.readyQueues queueNum next
            discarded := k.discarded ++ [pid] }
          queueNum
      else
        { (k.setState pid .running).print (.runs k.clock pid) with
          currentPid := some pid
          readyQueues := Function.update k.readyQueues queueNum next }
  termination_by (queueNum.val, (k.readyQueues queueNum).length)
  decreasing_by
    · have hpos := Fin.val_ne_zero_iff.mpr _hnum
      exact Prod.Lex.left _ _ (Nat.sub_lt (Nat.pos_of_ne_zero hpos) Nat.one_pos)
    · exact Prod.Lex.right _ (by simp [_hqueue])

/-! ## The handlers

Those that call `schedule` do it last; what they do before is a definition of
its own. -/

/-- `handle_disk_read` and `handle_keyboard`, which are copies up to the device,
before `schedule`. -/
def issueRead (k : Multilevel) (device : Device) (pid : Pid) : Multilevel :=
  let k := k.print (.issuesRead device k.clock pid)
  let k := k.setState pid .blocked
  let k := k.boost pid
  let k := { k with toCore := k.toCore.readReq device pid }
  let k := { k with ioProcesses := k.ioProcesses + 1 }
  let k := k.addCpuTime pid
  { k with currentQuantumStartTime := k.clock }

def handleDiskRead (k : Multilevel) : Option Multilevel :=
  k.currentPid.map fun pid => (k.issueRead .disk pid).schedule 4

def handleKeyboard (k : Multilevel) : Option Multilevel :=
  k.currentPid.map fun pid => (k.issueRead .keyboard pid).schedule 4

/-- `handle_fork`, for a pid inside the process table, before `enqueue`. Neither
the CPU time nor the priority of an earlier process with the pid is reset here. -/
def createProcess (k : Multilevel) (pid : Pid) : Multilevel :=
  let k := k.print (.createsEntry k.clock pid)
  let k := k.setState pid .ready
  { k with activeProcesses := k.activeProcesses + 1 }

def handleFork (k : Multilevel) (R2 : ℤ) : Option Multilevel :=
  (index? 20 R2).bind fun pid => (k.createProcess pid).enqueueReady pid

/-- `handle_kill` before `schedule`. -/
def endProcess (k : Multilevel) (pid : Pid) : Multilevel :=
  let k := k.setState pid .uninitialized
  let k := k.addCpuTime pid
  let k := k.setPriority pid 0
  let k := { k with activeProcesses := k.activeProcesses - 1 }
  let k := k.print (.exits k.clock pid (k.processTable pid).totalCpuTimeUsed)
  { k with currentQuantumStartTime := k.clock }

def handleKill (k : Multilevel) : Option Multilevel :=
  k.currentPid.map fun pid => (k.endProcess pid).schedule 4

/-- The message of the UP branch of `handle_semaphore`. -/
def announceUp (k : Multilevel) (s : Sem) : Multilevel :=
  k.print (.issuesUp k.clock k.currentPid s)

/-- The UP branch of `handle_semaphore`. -/
def handleUp (k : Multilevel) (s : Sem) : Option Multilevel :=
  let k := k.announceUp s
  match (k.semaphores s).up with
  | (sem, some pid) => ((k.setSemaphore s sem).setState pid .ready).enqueueReady pid
  | (sem, none) => some (k.setSemaphore s sem)

/-- The message of the DOWN branch of `handle_semaphore`. -/
def announceDown (k : Multilevel) (s : Sem) : Multilevel :=
  k.print (.issuesDown k.clock k.currentPid s)

/-- The DOWN branch of `handle_semaphore` when the value is 0, before `schedule`. -/
def waitFor (k : Multilevel) (s : Sem) (pid : Pid) : Multilevel :=
  let k := k.setState pid .blocked
  let k := k.setSemaphore s ((k.semaphores s).enqueue pid)
  let k := k.boost pid
  let k := k.addCpuTime pid
  { k with currentQuantumStartTime := k.clock }

/-- The DOWN branch of `handle_semaphore`. -/
def handleDown (k : Multilevel) (s : Sem) : Option Multilevel :=
  let k := k.announceDown s
  if (k.semaphores s).value ≠ 0#32 then some (k.setSemaphore s (k.semaphores s).decrement)
  else k.currentPid.map fun pid => (k.waitFor s pid).schedule 4

def handleSemaphore (k : Multilevel) (R2 R3 : ℤ) : Option Multilevel :=
  (index? 16 R2).bind fun s => if R3 ≠ 0 then k.handleUp s else k.handleDown s

/-- `disk_write_req` and its message. -/
def issueWrite (k : Multilevel) : Multilevel :=
  { k with toCore := k.toCore.diskWriteReq }.print (.issuesDiskWrite k.clock k.currentPid)

def handleTrap (k : Multilevel) (e : Event) : Option Multilevel :=
  if e.R1 = Trap.diskRead then k.handleDiskRead
  else if e.R1 = Trap.diskWrite then some k.issueWrite
  else if e.R1 = Trap.keyboardRead then k.handleKeyboard
  else if e.R1 = Trap.forkProgram then k.handleFork e.R2
  else if e.R1 = Trap.endProgram then k.handleKill
  else if e.R1 = Trap.semaphoreOp then k.handleSemaphore e.R2 e.R3
  else some k

/-- `handle_clock_interrupt` at the end of a quantum, before `enqueue`. -/
def preempt (k : Multilevel) (pid : Pid) : Multilevel :=
  let k := k.setState pid .ready
  let k := k.addCpuTime pid
  k.demote pid

/-- The quantum is restarted, unless `schedule` has exited. -/
def restartQuantum (k : Multilevel) : Multilevel :=
  if k.halted = none then { k with currentQuantumStartTime := k.clock } else k

def handleClockInterrupt (k : Multilevel) : Option Multilevel :=
  match k.currentPid with
  | none => some k
  | some pid =>
    if quantum ≤ k.elapsed then
      ((k.preempt pid).enqueueReady pid).map fun k => (k.schedule 4).restartQuantum
    else some k

/-- `handle_disk_interrupt` and `handle_keyboard_interrupt`, which are copies up
to the device, before `enqueue`. -/
def finishRead (k : Multilevel) (device : Device) (pid : Pid) : Multilevel :=
  let k := k.print (.handled device k.clock pid)
  let k := k.setState pid .ready
  { k with ioProcesses := k.ioProcesses - 1 }

/-- The end of `handle_disk_interrupt` and `handle_keyboard_interrupt`. -/
def scheduleIfIdle (k : Multilevel) : Multilevel :=
  if k.currentPid = none then schedule { k with currentQuantumStartTime := k.clock } 4 else k

def handleDiskInterrupt (k : Multilevel) (R1 : ℤ) : Option Multilevel :=
  (index? 20 R1).bind fun pid =>
    ((k.finishRead .disk pid).enqueueReady pid).map scheduleIfIdle

def handleKeyboardInterrupt (k : Multilevel) (R1 : ℤ) : Option Multilevel :=
  (index? 20 R1).bind fun pid =>
    ((k.finishRead .keyboard pid).enqueueReady pid).map scheduleIfIdle

/-- The hardware delivers an event and calls the handler in `INTERRUPT_TABLE`. -/
def interrupt (k : Multilevel) (e : Event) : Option Multilevel :=
  let k := { k with toCore := k.toCore.deliver e }
  match e.interrupt with
  | .trap => k.handleTrap e
  | .clockInterrupt => k.handleClockInterrupt
  | .diskInterrupt => k.handleDiskInterrupt e.R1
  | .keyboardInterrupt => k.handleKeyboardInterrupt e.R1

end Multilevel

end SimOS
