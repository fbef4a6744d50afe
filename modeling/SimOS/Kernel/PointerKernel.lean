import SimOS.Kernel.PointerQueues
import SimOS.Kernel.RoundRobin

/-!
# The kernel of Project 1 on its pointer queues

The handlers of `kernel.c` once more, with the ready queue and the queues of the
semaphores behind pointers. `newQueue` and `newElt` are what `malloc` returns in
a handler, which calls `enqueue` once at most. `schedule` calls itself as long
as the links lead to blocked processes, so it takes the depth of the recursion
it may use; without it, or where a pointer leads nowhere, the result is `none`.
-/

namespace SimOS

variable {A : Type}

namespace QueueMemory

/-- `queue->head`. -/
def loadHead (m : QueueMemory A) (var : QueueVar) : Option (Option A) :=
  (m.pointers var).bind m.toPidQueues.loadHead

end QueueMemory

/-- The state of the kernel. Of `semaphores` only the values are used here: their
queues are in the memory. -/
structure PointerKernel (A : Type) extends Core where
  processTable : Pid → ProcessTableEntry
  memory : QueueMemory A

namespace PointerKernel

section Code

def state (p : PointerKernel A) (pid : Pid) : ProcessState := (p.processTable pid).state

/-- An assignment to a field of `process_table[pid]`. -/
def modifyEntry (p : PointerKernel A) (pid : Pid) (f : ProcessTableEntry → ProcessTableEntry) :
    PointerKernel A :=
  { p with processTable := Function.update p.processTable pid (f (p.processTable pid)) }

def setState (p : PointerKernel A) (pid : Pid) (state : ProcessState) : PointerKernel A :=
  p.modifyEntry pid fun entry => { entry with state := state }

/-- `process_table[pid].total_CPU_time_used += (clock - current_quantum_start_time)`. -/
def addCpuTime (p : PointerKernel A) (pid : Pid) : PointerKernel A :=
  p.modifyEntry pid fun entry =>
    { entry with totalCpuTimeUsed := entry.totalCpuTimeUsed + p.elapsed }

def print (p : PointerKernel A) (message : Message) : PointerKernel A :=
  { p with toCore := p.toCore.print message }

/-- `sem->value++` or `sem->value--`. -/
def modifySemaphore (p : PointerKernel A) (s : Sem) (f : Semaphore → Semaphore) :
    PointerKernel A :=
  { p with semaphores := Function.update p.semaphores s (f (p.semaphores s)) }

variable [DecidableEq A]

/-- `enqueue(&ready_queue, pid)` or `enqueue(&sem->ready_queue, pid)`. -/
def enqueue (p : PointerKernel A) (var : QueueVar) (pid : Pid) (newQueue newElt : A) :
    Option (PointerKernel A) :=
  (p.memory.enqueue var pid newQueue newElt).map fun memory => { p with memory := memory }

/-- `queue->head = queue->head->next`. -/
def removeHead (p : PointerKernel A) (var : QueueVar) : Option (PointerKernel A) :=
  (p.memory.removeHead var).map fun memory => { p with memory := memory }

/-- The machine as it comes up, with the pid and the clock the hardware sets. -/
def powerOn (pid : Option Pid) (clock : Word) : PointerKernel A where
  toCore := Core.powerOn pid clock
  processTable := fun _ => { state := .uninitialized, totalCpuTimeUsed := 0#32 }
  memory := QueueMemory.powerOn

def initializeKernel (p : PointerKernel A) (newQueue : A) : Option (PointerKernel A) :=
  p.currentPid.map fun pid =>
    let p := p.modifyEntry pid fun _ => { state := .running, totalCpuTimeUsed := 0#32 }
    { p with toCore := p.toCore.initCounters, memory := p.memory.initializeKernel newQueue }

def schedule : ℕ → PointerKernel A → Option (PointerKernel A)
  | 0, _ => none
  | depth + 1, p =>
    if p.activeProcesses = 0 then some { p with toCore := p.toCore.exit .noMoreProcesses }
    else
      (p.memory.loadHead .readyQueue).bind fun head =>
        match head with
        | none =>
          if p.ioProcesses = 0 then some { p with toCore := p.toCore.exit .deadlockedSystem }
          else some { p.print (.idle p.clock) with currentPid := none }
        | some elt =>
          (p.memory.loadPid elt).bind fun pid =>
            if p.state pid = .blocked then (p.removeHead .readyQueue).bind (schedule depth)
            else
              let p := { p with currentPid := some pid }.setState pid .running
              (p.removeHead .readyQueue).map fun p => p.print (.runs p.clock pid)

/-! ## The handlers -/

/-- `handle_disk_read` and `handle_keyboard` before `schedule`. -/
def issueRead (p : PointerKernel A) (device : Device) (pid : Pid) : PointerKernel A :=
  let p := p.print (.issuesRead device p.clock pid)
  let p := p.setState pid .blocked
  let p := { p with toCore := p.toCore.readReq device pid }
  let p := { p with ioProcesses := p.ioProcesses + 1 }
  let p := p.addCpuTime pid
  { p with currentQuantumStartTime := p.clock }

def handleDiskRead (depth : ℕ) (p : PointerKernel A) : Option (PointerKernel A) :=
  p.currentPid.bind fun pid => (p.issueRead .disk pid).schedule depth

def handleKeyboard (depth : ℕ) (p : PointerKernel A) : Option (PointerKernel A) :=
  p.currentPid.bind fun pid => (p.issueRead .keyboard pid).schedule depth

/-- `handle_fork` before `enqueue`. -/
def createProcess (p : PointerKernel A) (pid : Pid) : PointerKernel A :=
  let p := p.print (.createsEntry p.clock pid)
  let p := p.modifyEntry pid fun _ => { state := .ready, totalCpuTimeUsed := 0#32 }
  { p with activeProcesses := p.activeProcesses + 1 }

def handleFork (p : PointerKernel A) (R2 : ℤ) (newQueue newElt : A) : Option (PointerKernel A) :=
  (index? 20 R2).bind fun pid => (p.createProcess pid).enqueue .readyQueue pid newQueue newElt

/-- `handle_kill` before `schedule`. -/
def endProcess (p : PointerKernel A) (pid : Pid) : PointerKernel A :=
  let p := p.setState pid .uninitialized
  let p := p.addCpuTime pid
  let p := { p with activeProcesses := p.activeProcesses - 1 }
  let p := p.print (.exits p.clock pid (p.processTable pid).totalCpuTimeUsed)
  { p with currentQuantumStartTime := p.clock }

def handleKill (depth : ℕ) (p : PointerKernel A) : Option (PointerKernel A) :=
  p.currentPid.bind fun pid => (p.endProcess pid).schedule depth

/-- The UP branch of `handle_semaphore`. The process is put into the ready queue
before it is taken off the queue of the semaphore. -/
def handleUp (p : PointerKernel A) (s : Sem) (newQueue newElt : A) : Option (PointerKernel A) :=
  let p := p.print (.issuesUp p.clock p.currentPid s)
  if (p.semaphores s).value = 0#32 ∧ p.memory.pointers (.semaphore s) ≠ none then
    (p.memory.loadHead (.semaphore s)).bind fun head =>
      match head with
      | some elt =>
        (p.memory.loadPid elt).bind fun pid =>
          ((p.setState pid .ready).enqueue .readyQueue pid newQueue newElt).bind fun p =>
            p.removeHead (.semaphore s)
      | none => some (p.modifySemaphore s .increment)
  else some (p.modifySemaphore s .increment)

/-- The DOWN branch of `handle_semaphore`. -/
def handleDown (depth : ℕ) (p : PointerKernel A) (s : Sem) (newQueue newElt : A) :
    Option (PointerKernel A) :=
  let p := p.print (.issuesDown p.clock p.currentPid s)
  if (p.semaphores s).value ≠ 0#32 then some (p.modifySemaphore s .decrement)
  else
    p.currentPid.bind fun pid =>
      ((p.setState pid .blocked).enqueue (.semaphore s) pid newQueue newElt).bind fun p =>
        let p := p.addCpuTime pid
        schedule depth { p with currentQuantumStartTime := p.clock }

def handleSemaphore (depth : ℕ) (p : PointerKernel A) (R2 R3 : ℤ) (newQueue newElt : A) :
    Option (PointerKernel A) :=
  (index? 16 R2).bind fun s =>
    if R3 ≠ 0 then p.handleUp s newQueue newElt else p.handleDown depth s newQueue newElt

/-- `disk_write_req` and its message. -/
def issueWrite (p : PointerKernel A) : PointerKernel A :=
  { p with toCore := p.toCore.diskWriteReq }.print (.issuesDiskWrite p.clock p.currentPid)

def handleTrap (depth : ℕ) (p : PointerKernel A) (e : Event) (newQueue newElt : A) :
    Option (PointerKernel A) :=
  if e.R1 = Trap.diskRead then p.handleDiskRead depth
  else if e.R1 = Trap.diskWrite then some p.issueWrite
  else if e.R1 = Trap.keyboardRead then p.handleKeyboard depth
  else if e.R1 = Trap.forkProgram then p.handleFork e.R2 newQueue newElt
  else if e.R1 = Trap.endProgram then p.handleKill depth
  else if e.R1 = Trap.semaphoreOp then p.handleSemaphore depth e.R2 e.R3 newQueue newElt
  else some p

/-- The quantum is restarted, unless `schedule` has exited. -/
def restartQuantum (p : PointerKernel A) : PointerKernel A :=
  if p.halted = none then { p with currentQuantumStartTime := p.clock } else p

def handleClockInterrupt (depth : ℕ) (p : PointerKernel A) (newQueue newElt : A) :
    Option (PointerKernel A) :=
  match p.currentPid with
  | none => some p
  | some pid =>
    if quantum ≤ p.elapsed then
      (((p.setState pid .ready).addCpuTime pid).enqueue .readyQueue pid newQueue newElt).bind
        fun p => (p.schedule depth).map restartQuantum
    else some p

/-- `handle_disk_interrupt` and `handle_keyboard_interrupt` before `enqueue`. -/
def finishRead (p : PointerKernel A) (device : Device) (pid : Pid) : PointerKernel A :=
  let p := p.print (.handled device p.clock pid)
  let p := p.setState pid .ready
  { p with ioProcesses := p.ioProcesses - 1 }

/-- The end of `handle_disk_interrupt` and `handle_keyboard_interrupt`. -/
def scheduleIfIdle (depth : ℕ) (p : PointerKernel A) : Option (PointerKernel A) :=
  if p.currentPid = none then schedule depth { p with currentQuantumStartTime := p.clock }
  else some p

def handleDiskInterrupt (depth : ℕ) (p : PointerKernel A) (R1 : ℤ) (newQueue newElt : A) :
    Option (PointerKernel A) :=
  (index? 20 R1).bind fun pid =>
    ((p.finishRead .disk pid).enqueue .readyQueue pid newQueue newElt).bind (scheduleIfIdle depth)

def handleKeyboardInterrupt (depth : ℕ) (p : PointerKernel A) (R1 : ℤ) (newQueue newElt : A) :
    Option (PointerKernel A) :=
  (index? 20 R1).bind fun pid =>
    ((p.finishRead .keyboard pid).enqueue .readyQueue pid newQueue newElt).bind
      (scheduleIfIdle depth)

/-- The hardware delivers an event and calls the handler in `INTERRUPT_TABLE`. -/
def interrupt (depth : ℕ) (p : PointerKernel A) (e : Event) (newQueue newElt : A) :
    Option (PointerKernel A) :=
  let p := { p with toCore := p.toCore.deliver e }
  match e.interrupt with
  | .trap => p.handleTrap depth e newQueue newElt
  | .clockInterrupt => p.handleClockInterrupt depth newQueue newElt
  | .diskInterrupt => p.handleDiskInterrupt depth e.R1 newQueue newElt
  | .keyboardInterrupt => p.handleKeyboardInterrupt depth e.R1 newQueue newElt

end Code

end PointerKernel

end SimOS
