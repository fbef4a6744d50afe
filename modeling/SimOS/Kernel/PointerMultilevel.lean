import SimOS.Kernel.LevelQueues
import SimOS.Kernel.Multilevel

/-!
# The kernel of Project 1 Honors on its pointer queues

The handlers of `kernel.c` once more, with the array of ready queues and the
queues of the semaphores in memory. `newQueue` and `newElt` are what `malloc`
returns in a handler, which calls `enqueue` once at most. `schedule` calls itself
for the queue below an empty one and for every blocked process it drops, so it
takes the depth of the recursion it may use; without it, or where a pointer leads
nowhere or an index out of its array, the result is `none`.
-/

namespace SimOS

variable {A : Type}

/-- The state of the kernel. Of `semaphores` only the values are used here: their
queues are in the memory. -/
structure PointerMultilevel (A : Type) extends Core where
  processTable : Pid → PriorityTableEntry
  memory : LevelMemory A

namespace PointerMultilevel

def state (p : PointerMultilevel A) (pid : Pid) : ProcessState := (p.processTable pid).state

def priority (p : PointerMultilevel A) (pid : Pid) : ℤ := (p.processTable pid).priority

/-- An assignment to a field of `process_table[pid]`. -/
def modifyEntry (p : PointerMultilevel A) (pid : Pid)
    (f : PriorityTableEntry → PriorityTableEntry) : PointerMultilevel A :=
  { p with processTable := Function.update p.processTable pid (f (p.processTable pid)) }

def setState (p : PointerMultilevel A) (pid : Pid) (state : ProcessState) : PointerMultilevel A :=
  p.modifyEntry pid fun entry => { entry with state := state }

def setPriority (p : PointerMultilevel A) (pid : Pid) (priority : ℤ) : PointerMultilevel A :=
  p.modifyEntry pid fun entry => { entry with priority := priority }

/-- `process_table[pid].total_CPU_time_used += (clock - current_quantum_start_time)`. -/
def addCpuTime (p : PointerMultilevel A) (pid : Pid) : PointerMultilevel A :=
  p.modifyEntry pid fun entry =>
    { entry with totalCpuTimeUsed := entry.totalCpuTimeUsed + p.elapsed }

/-- The priority is raised when the process blocks before its quantum is over. -/
def boost (p : PointerMultilevel A) (pid : Pid) : PointerMultilevel A :=
  if p.elapsed < quantum then
    if p.priority pid < 4 then p.setPriority pid (p.priority pid + 1) else p
  else p

/-- The priority is lowered when the clock preempts the process. -/
def demote (p : PointerMultilevel A) (pid : Pid) : PointerMultilevel A :=
  if 0 < p.priority pid then p.setPriority pid (p.priority pid - 1) else p

def print (p : PointerMultilevel A) (message : Message) : PointerMultilevel A :=
  { p with toCore := p.toCore.print message }

/-- `sem->value++` or `sem->value--`. -/
def modifySemaphore (p : PointerMultilevel A) (s : Sem) (f : Semaphore → Semaphore) :
    PointerMultilevel A :=
  { p with semaphores := Function.update p.semaphores s (f (p.semaphores s)) }

/-- The machine as it comes up, with the pid and the clock the hardware sets. -/
def powerOn (pid : Option Pid) (clock : Word) : PointerMultilevel A where
  toCore := Core.powerOn pid clock
  processTable := fun _ => { state := .uninitialized, totalCpuTimeUsed := 0#32, priority := 0 }
  memory := LevelMemory.powerOn

def initializeKernel (p : PointerMultilevel A) : Option (PointerMultilevel A) :=
  p.currentPid.map fun pid =>
    let p := p.setState pid .running
    { p with toCore := p.toCore.initCounters }

section Code

variable [DecidableEq A]

/-- `enqueue(queue, pid)`. -/
def enqueue (p : PointerMultilevel A) (queue : QueuePointer A) (pid : Pid) (newElt : A) :
    Option (PointerMultilevel A) :=
  (p.memory.enqueue queue pid newElt).map fun memory => { p with memory := memory }

/-- `queue->head = queue->head->next`. -/
def removeHead (p : PointerMultilevel A) (queue : QueuePointer A) : Option (PointerMultilevel A) :=
  (p.memory.removeHead queue).map fun memory => { p with memory := memory }

/-- `enqueue(&ready_queues[process_table[pid].priority], pid)`. -/
def enqueueReady (p : PointerMultilevel A) (pid : Pid) (newElt : A) :
    Option (PointerMultilevel A) :=
  (index? 5 (p.priority pid)).bind fun level => p.enqueue (.readyQueue level) pid newElt

/-- `sem->ready_queue` is created if it is `NULL`. -/
def initQueue (p : PointerMultilevel A) (s : Sem) (newQueue : A) : PointerMultilevel A :=
  { p with memory := p.memory.initQueue s newQueue }

/-- `enqueue(sem->ready_queue, pid)`. -/
def enqueueWaiting (p : PointerMultilevel A) (s : Sem) (pid : Pid) (newElt : A) :
    Option (PointerMultilevel A) :=
  (p.memory.pointers s).bind fun queue => p.enqueue (.allocated queue) pid newElt

/-- `sem->ready_queue->head = sem->ready_queue->head->next`. -/
def removeWaiting (p : PointerMultilevel A) (s : Sem) : Option (PointerMultilevel A) :=
  (p.memory.pointers s).bind fun queue => p.removeHead (.allocated queue)

/-- The queue that the handlers let `schedule` begin with. -/
def highest : Fin 5 := ⟨4, Nat.lt_succ_self 4⟩

def schedule : ℕ → PointerMultilevel A → Fin 5 → Option (PointerMultilevel A)
  | 0, _, _ => none
  | depth + 1, p, queueNum =>
    if p.activeProcesses = 0 then some { p with toCore := p.toCore.exit .noMoreProcesses }
    else
      (p.memory.loadHead (.readyQueue queueNum)).bind fun head =>
        match head with
        | none =>
          if (queueNum : ℕ) = 0 ∧ p.ioProcesses = 0 then
            some { p with toCore := p.toCore.exit .deadlockedSystem }
          else if (queueNum : ℕ) ≠ 0 then
            schedule depth p ⟨Nat.pred queueNum, Nat.lt_of_le_of_lt (Nat.pred_le _) queueNum.isLt⟩
          else some { p.print (.idle p.clock) with currentPid := none }
        | some elt =>
          (p.memory.loadPid elt).bind fun pid =>
            if p.state pid = .blocked then
              (p.removeHead (.readyQueue queueNum)).bind fun p => schedule depth p queueNum
            else
              let p := { p with currentPid := some pid }.setState pid .running
              (p.removeHead (.readyQueue queueNum)).map fun p => p.print (.runs p.clock pid)

/-! ## The handlers -/

/-- `handle_disk_read` and `handle_keyboard` before `schedule`. -/
def issueRead (p : PointerMultilevel A) (device : Device) (pid : Pid) : PointerMultilevel A :=
  let p := p.print (.issuesRead device p.clock pid)
  let p := p.setState pid .blocked
  let p := p.boost pid
  let p := { p with toCore := p.toCore.readReq device pid }
  let p := { p with ioProcesses := p.ioProcesses + 1 }
  let p := p.addCpuTime pid
  { p with currentQuantumStartTime := p.clock }

def handleDiskRead (depth : ℕ) (p : PointerMultilevel A) : Option (PointerMultilevel A) :=
  p.currentPid.bind fun pid => (p.issueRead .disk pid).schedule depth highest

def handleKeyboard (depth : ℕ) (p : PointerMultilevel A) : Option (PointerMultilevel A) :=
  p.currentPid.bind fun pid => (p.issueRead .keyboard pid).schedule depth highest

/-- `handle_fork` before `enqueue`. -/
def createProcess (p : PointerMultilevel A) (pid : Pid) : PointerMultilevel A :=
  let p := p.print (.createsEntry p.clock pid)
  let p := p.setState pid .ready
  { p with activeProcesses := p.activeProcesses + 1 }

def handleFork (p : PointerMultilevel A) (R2 : ℤ) (newElt : A) : Option (PointerMultilevel A) :=
  (index? 20 R2).bind fun pid => (p.createProcess pid).enqueueReady pid newElt

/-- `handle_kill` before `schedule`. -/
def endProcess (p : PointerMultilevel A) (pid : Pid) : PointerMultilevel A :=
  let p := p.setState pid .uninitialized
  let p := p.addCpuTime pid
  let p := p.setPriority pid 0
  let p := { p with activeProcesses := p.activeProcesses - 1 }
  let p := p.print (.exits p.clock pid (p.processTable pid).totalCpuTimeUsed)
  { p with currentQuantumStartTime := p.clock }

def handleKill (depth : ℕ) (p : PointerMultilevel A) : Option (PointerMultilevel A) :=
  p.currentPid.bind fun pid => (p.endProcess pid).schedule depth highest

/-- The UP branch of `handle_semaphore`. The process is put into its ready queue
before it is taken off the queue of the semaphore. -/
def handleUp (p : PointerMultilevel A) (s : Sem) (newElt : A) : Option (PointerMultilevel A) :=
  let p := p.print (.issuesUp p.clock p.currentPid s)
  if (p.semaphores s).value = 0#32 then
    match p.memory.pointers s with
    | none => some (p.modifySemaphore s .increment)
    | some queue =>
      (p.memory.loadHead (.allocated queue)).bind fun head =>
        match head with
        | none => some (p.modifySemaphore s .increment)
        | some elt =>
          (p.memory.loadPid elt).bind fun pid =>
            ((p.setState pid .ready).enqueueReady pid newElt).bind fun p => p.removeWaiting s
  else some (p.modifySemaphore s .increment)

/-- The DOWN branch of `handle_semaphore`. -/
def handleDown (depth : ℕ) (p : PointerMultilevel A) (s : Sem) (newQueue newElt : A) :
    Option (PointerMultilevel A) :=
  let p := p.print (.issuesDown p.clock p.currentPid s)
  if (p.semaphores s).value ≠ 0#32 then some (p.modifySemaphore s .decrement)
  else
    p.currentPid.bind fun pid =>
      (((p.setState pid .blocked).initQueue s newQueue).enqueueWaiting s pid newElt).bind fun p =>
        let p := p.boost pid
        let p := p.addCpuTime pid
        schedule depth { p with currentQuantumStartTime := p.clock } highest

def handleSemaphore (depth : ℕ) (p : PointerMultilevel A) (R2 R3 : ℤ) (newQueue newElt : A) :
    Option (PointerMultilevel A) :=
  (index? 16 R2).bind fun s =>
    if R3 ≠ 0 then p.handleUp s newElt else p.handleDown depth s newQueue newElt

/-- `disk_write_req` and its message. -/
def issueWrite (p : PointerMultilevel A) : PointerMultilevel A :=
  { p with toCore := p.toCore.diskWriteReq }.print (.issuesDiskWrite p.clock p.currentPid)

def handleTrap (depth : ℕ) (p : PointerMultilevel A) (e : Event) (newQueue newElt : A) :
    Option (PointerMultilevel A) :=
  if e.R1 = Trap.diskRead then p.handleDiskRead depth
  else if e.R1 = Trap.diskWrite then some p.issueWrite
  else if e.R1 = Trap.keyboardRead then p.handleKeyboard depth
  else if e.R1 = Trap.forkProgram then p.handleFork e.R2 newElt
  else if e.R1 = Trap.endProgram then p.handleKill depth
  else if e.R1 = Trap.semaphoreOp then p.handleSemaphore depth e.R2 e.R3 newQueue newElt
  else some p

/-- `handle_clock_interrupt` at the end of a quantum, before `enqueue`. -/
def preempt (p : PointerMultilevel A) (pid : Pid) : PointerMultilevel A :=
  let p := p.setState pid .ready
  let p := p.addCpuTime pid
  p.demote pid

/-- The quantum is restarted, unless `schedule` has exited. -/
def restartQuantum (p : PointerMultilevel A) : PointerMultilevel A :=
  if p.halted = none then { p with currentQuantumStartTime := p.clock } else p

def handleClockInterrupt (depth : ℕ) (p : PointerMultilevel A) (newElt : A) :
    Option (PointerMultilevel A) :=
  match p.currentPid with
  | none => some p
  | some pid =>
    if quantum ≤ p.elapsed then
      ((p.preempt pid).enqueueReady pid newElt).bind fun p =>
        (p.schedule depth highest).map restartQuantum
    else some p

/-- `handle_disk_interrupt` and `handle_keyboard_interrupt` before `enqueue`. -/
def finishRead (p : PointerMultilevel A) (device : Device) (pid : Pid) : PointerMultilevel A :=
  let p := p.print (.handled device p.clock pid)
  let p := p.setState pid .ready
  { p with ioProcesses := p.ioProcesses - 1 }

/-- The end of `handle_disk_interrupt` and `handle_keyboard_interrupt`. -/
def scheduleIfIdle (depth : ℕ) (p : PointerMultilevel A) : Option (PointerMultilevel A) :=
  if p.currentPid = none then schedule depth { p with currentQuantumStartTime := p.clock } highest
  else some p

def handleDiskInterrupt (depth : ℕ) (p : PointerMultilevel A) (R1 : ℤ) (newElt : A) :
    Option (PointerMultilevel A) :=
  (index? 20 R1).bind fun pid =>
    ((p.finishRead .disk pid).enqueueReady pid newElt).bind (scheduleIfIdle depth)

def handleKeyboardInterrupt (depth : ℕ) (p : PointerMultilevel A) (R1 : ℤ) (newElt : A) :
    Option (PointerMultilevel A) :=
  (index? 20 R1).bind fun pid =>
    ((p.finishRead .keyboard pid).enqueueReady pid newElt).bind (scheduleIfIdle depth)

/-- The hardware delivers an event and calls the handler in `INTERRUPT_TABLE`. -/
def interrupt (depth : ℕ) (p : PointerMultilevel A) (e : Event) (newQueue newElt : A) :
    Option (PointerMultilevel A) :=
  let p := { p with toCore := p.toCore.deliver e }
  match e.interrupt with
  | .trap => p.handleTrap depth e newQueue newElt
  | .clockInterrupt => p.handleClockInterrupt depth newElt
  | .diskInterrupt => p.handleDiskInterrupt depth e.R1 newElt
  | .keyboardInterrupt => p.handleKeyboardInterrupt depth e.R1 newElt

end Code

end PointerMultilevel

end SimOS
