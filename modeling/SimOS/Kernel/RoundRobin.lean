import SimOS.Kernel.Machine

/-!
# The round-robin kernel of Project 1

The handlers of `kernel.c`, under its names. `R1`, `R2` and `R3` are the
registers at the event. Indexing `process_table` or `semaphores` out of bounds
is undefined behaviour and is `none` here, also for the idle process -1. After
`exit(0)` nothing more is executed.
-/

namespace SimOS

/-- `PROCESS_TABLE_ENTRY`. -/
structure ProcessTableEntry where
  state : ProcessState
  totalCpuTimeUsed : Word

/-- The state of the kernel. `discarded` is not in the source: it lists the pids
that `schedule` dropped from the head of the ready queue because they were
blocked. -/
structure RoundRobin extends Core where
  processTable : Pid → ProcessTableEntry
  readyQueue : List Pid
  discarded : List Pid

namespace RoundRobin

def state (k : RoundRobin) (pid : Pid) : ProcessState := (k.processTable pid).state

/-- An assignment to a field of `process_table[pid]`. -/
def modifyEntry (k : RoundRobin) (pid : Pid) (f : ProcessTableEntry → ProcessTableEntry) :
    RoundRobin :=
  { k with processTable := Function.update k.processTable pid (f (k.processTable pid)) }

def setState (k : RoundRobin) (pid : Pid) (state : ProcessState) : RoundRobin :=
  k.modifyEntry pid fun entry => { entry with state := state }

/-- `process_table[pid].total_CPU_time_used += (clock - current_quantum_start_time)`. -/
def addCpuTime (k : RoundRobin) (pid : Pid) : RoundRobin :=
  k.modifyEntry pid fun entry =>
    { entry with totalCpuTimeUsed := entry.totalCpuTimeUsed + k.elapsed }

def print (k : RoundRobin) (message : Message) : RoundRobin :=
  { k with toCore := k.toCore.print message }

/-- An assignment to `semaphores[s]`. -/
def setSemaphore (k : RoundRobin) (s : Sem) (sem : Semaphore) : RoundRobin :=
  { k with semaphores := Function.update k.semaphores s sem }

/-- `enqueue(&ready_queue, pid)`. -/
def enqueueReady (k : RoundRobin) (pid : Pid) : RoundRobin :=
  { k with readyQueue := enqueue k.readyQueue pid }

/-- The machine as it comes up, with the pid and the clock the hardware sets. -/
def powerOn (pid : Option Pid) (clock : Word) : RoundRobin where
  toCore := Core.powerOn pid clock
  processTable := fun _ => { state := .uninitialized, totalCpuTimeUsed := 0#32 }
  readyQueue := []
  discarded := []

def initializeKernel (k : RoundRobin) : Option RoundRobin :=
  k.currentPid.map fun pid =>
    let k := k.modifyEntry pid fun _ => { state := .running, totalCpuTimeUsed := 0#32 }
    { k with toCore := k.toCore.initCounters, readyQueue := [] }

def schedule (k : RoundRobin) : RoundRobin :=
  if k.activeProcesses = 0 then { k with toCore := k.toCore.exit .noMoreProcesses }
  else
    match _hqueue : k.readyQueue with
    | [] =>
      if k.ioProcesses = 0 then { k with toCore := k.toCore.exit .deadlockedSystem }
      else { k.print (.idle k.clock) with currentPid := none }
    | pid :: next =>
      -- a blocked head is dropped and never put back
      if k.state pid = .blocked then
        schedule { k with readyQueue := next, discarded := k.discarded ++ [pid] }
      else
        { (k.setState pid .running).print (.runs k.clock pid) with
          currentPid := some pid
          readyQueue := next }
  termination_by k.readyQueue.length
  decreasing_by simp [_hqueue]

/-! ## The handlers

Those that call `schedule` do it last; what they do before is a definition of
its own. -/

/-- `handle_disk_read` and `handle_keyboard`, which are copies up to the device,
before `schedule`. -/
def issueRead (k : RoundRobin) (device : Device) (pid : Pid) : RoundRobin :=
  let k := k.print (.issuesRead device k.clock pid)
  let k := k.setState pid .blocked
  let k := { k with toCore := k.toCore.readReq device pid }
  let k := { k with ioProcesses := k.ioProcesses + 1 }
  let k := k.addCpuTime pid
  { k with currentQuantumStartTime := k.clock }

def handleDiskRead (k : RoundRobin) : Option RoundRobin :=
  k.currentPid.map fun pid => (k.issueRead .disk pid).schedule

def handleKeyboard (k : RoundRobin) : Option RoundRobin :=
  k.currentPid.map fun pid => (k.issueRead .keyboard pid).schedule

/-- `handle_fork`, for a pid inside the process table. -/
def createProcess (k : RoundRobin) (pid : Pid) : RoundRobin :=
  let k := k.print (.createsEntry k.clock pid)
  let k := k.modifyEntry pid fun _ => { state := .ready, totalCpuTimeUsed := 0#32 }
  let k := { k with activeProcesses := k.activeProcesses + 1 }
  k.enqueueReady pid

def handleFork (k : RoundRobin) (R2 : ℤ) : Option RoundRobin :=
  (index? 20 R2).map k.createProcess

/-- `handle_kill` before `schedule`. -/
def endProcess (k : RoundRobin) (pid : Pid) : RoundRobin :=
  let k := k.setState pid .uninitialized
  let k := k.addCpuTime pid
  let k := { k with activeProcesses := k.activeProcesses - 1 }
  let k := k.print (.exits k.clock pid (k.processTable pid).totalCpuTimeUsed)
  { k with currentQuantumStartTime := k.clock }

def handleKill (k : RoundRobin) : Option RoundRobin :=
  k.currentPid.map fun pid => (k.endProcess pid).schedule

/-- The message of the UP branch of `handle_semaphore`. -/
def announceUp (k : RoundRobin) (s : Sem) : RoundRobin :=
  k.print (.issuesUp k.clock k.currentPid s)

/-- The process UP took off the queue of a semaphore is ready. -/
def wake (k : RoundRobin) (pid : Pid) : RoundRobin := (k.setState pid .ready).enqueueReady pid

/-- The UP branch of `handle_semaphore`. -/
def handleUp (k : RoundRobin) (s : Sem) : RoundRobin :=
  let k := k.announceUp s
  match (k.semaphores s).up with
  | (sem, some pid) => (k.setSemaphore s sem).wake pid
  | (sem, none) => k.setSemaphore s sem

/-- The message of the DOWN branch of `handle_semaphore`. -/
def announceDown (k : RoundRobin) (s : Sem) : RoundRobin :=
  k.print (.issuesDown k.clock k.currentPid s)

/-- The DOWN branch of `handle_semaphore` when the value is 0, before `schedule`. -/
def waitFor (k : RoundRobin) (s : Sem) (pid : Pid) : RoundRobin :=
  let k := k.setState pid .blocked
  let k := k.setSemaphore s ((k.semaphores s).enqueue pid)
  let k := k.addCpuTime pid
  { k with currentQuantumStartTime := k.clock }

/-- The DOWN branch of `handle_semaphore`. -/
def handleDown (k : RoundRobin) (s : Sem) : Option RoundRobin :=
  let k := k.announceDown s
  if (k.semaphores s).value ≠ 0#32 then some (k.setSemaphore s (k.semaphores s).decrement)
  else k.currentPid.map fun pid => (k.waitFor s pid).schedule

def handleSemaphore (k : RoundRobin) (R2 R3 : ℤ) : Option RoundRobin :=
  (index? 16 R2).bind fun s => if R3 ≠ 0 then some (k.handleUp s) else k.handleDown s

/-- `disk_write_req` and its message. -/
def issueWrite (k : RoundRobin) : RoundRobin :=
  { k with toCore := k.toCore.diskWriteReq }.print (.issuesDiskWrite k.clock k.currentPid)

def handleTrap (k : RoundRobin) (e : Event) : Option RoundRobin :=
  if e.R1 = Trap.diskRead then k.handleDiskRead
  else if e.R1 = Trap.diskWrite then some k.issueWrite
  else if e.R1 = Trap.keyboardRead then k.handleKeyboard
  else if e.R1 = Trap.forkProgram then k.handleFork e.R2
  else if e.R1 = Trap.endProgram then k.handleKill
  else if e.R1 = Trap.semaphoreOp then k.handleSemaphore e.R2 e.R3
  else some k

/-- `handle_clock_interrupt` at the end of a quantum, before `schedule`. -/
def preempt (k : RoundRobin) (pid : Pid) : RoundRobin :=
  let k := k.setState pid .ready
  let k := k.addCpuTime pid
  k.enqueueReady pid

/-- The quantum is restarted, unless `schedule` has exited. -/
def restartQuantum (k : RoundRobin) : RoundRobin :=
  if k.halted = none then { k with currentQuantumStartTime := k.clock } else k

def handleClockInterrupt (k : RoundRobin) : RoundRobin :=
  match k.currentPid with
  | none => k
  | some pid => if quantum ≤ k.elapsed then (k.preempt pid).schedule.restartQuantum else k

/-- `handle_disk_interrupt` and `handle_keyboard_interrupt`, which are copies up
to the device, before the test for the idle process. -/
def finishRead (k : RoundRobin) (device : Device) (pid : Pid) : RoundRobin :=
  let k := k.print (.handled device k.clock pid)
  let k := k.setState pid .ready
  let k := { k with ioProcesses := k.ioProcesses - 1 }
  k.enqueueReady pid

/-- The end of `handle_disk_interrupt` and `handle_keyboard_interrupt`. -/
def scheduleIfIdle (k : RoundRobin) : RoundRobin :=
  if k.currentPid = none then schedule { k with currentQuantumStartTime := k.clock } else k

def handleDiskInterrupt (k : RoundRobin) (R1 : ℤ) : Option RoundRobin :=
  (index? 20 R1).map fun pid => (k.finishRead .disk pid).scheduleIfIdle

def handleKeyboardInterrupt (k : RoundRobin) (R1 : ℤ) : Option RoundRobin :=
  (index? 20 R1).map fun pid => (k.finishRead .keyboard pid).scheduleIfIdle

/-- The hardware delivers an event and calls the handler in `INTERRUPT_TABLE`. -/
def interrupt (k : RoundRobin) (e : Event) : Option RoundRobin :=
  let k := { k with toCore := k.toCore.deliver e }
  match e.interrupt with
  | .trap => k.handleTrap e
  | .clockInterrupt => some k.handleClockInterrupt
  | .diskInterrupt => k.handleDiskInterrupt e.R1
  | .keyboardInterrupt => k.handleKeyboardInterrupt e.R1

end RoundRobin

end SimOS
