import Mathlib.Logic.Function.Basic
import SimOS.Mmu.Types

/-!
# The machine under the kernels

The registers, events and drivers of `hardware.h` and `drivers.h`, and the
globals that `kernel.c` declares in both projects. The hardware delivers one
event at a time and the handler runs to its end. The clock is an `unsigned int`
and all times are computed modulo 2^32.
-/

namespace SimOS

/-- An index into `process_table`, of `MAX_NUMBER_OF_PROCESSES` entries. -/
abbrev Pid := Fin 20

/-- An index into `semaphores`, of `NUMBER_OF_SEMAPHORES` entries. -/
abbrev Sem := Fin 16

/-- An `int` used as an index into an array of `n` elements. -/
def index? (n : ℕ) (i : ℤ) : Option (Fin n) :=
  if h : 0 ≤ i ∧ i < n then some ⟨i.toNat, by omega⟩ else none

@[simp] theorem index?_coe {n : ℕ} (i : Fin n) : index? n ((i : ℕ) : ℤ) = some i := by
  have hi := i.isLt
  rw [index?, dif_pos ⟨Int.natCast_nonneg _, by exact_mod_cast hi⟩]
  rfl

theorem index?_eq_some {n : ℕ} {i : ℤ} {j : Fin n} (h : index? n i = some j) : i = (j : ℕ) := by
  rw [index?] at h
  split_ifs at h with hi
  obtain rfl := Option.some.inj h
  exact (Int.toNat_of_nonneg hi.1).symm

/-- `PROCESS_STATE`. -/
inductive ProcessState
  | running
  | ready
  | blocked
  | uninitialized
  deriving DecidableEq

/-- The devices with blocking reads. -/
inductive Device
  | disk
  | keyboard
  deriving DecidableEq

/-- The indices into `INTERRUPT_TABLE`. -/
inductive Interrupt
  | trap
  | clockInterrupt
  | diskInterrupt
  | keyboardInterrupt
  deriving DecidableEq

/-- What the hardware delivers: the clock, the interrupt and the registers. -/
structure Event where
  clock : Word
  interrupt : Interrupt
  R1 : ℤ
  R2 : ℤ
  R3 : ℤ

/-! ## The kinds of traps -/

namespace Trap

def diskRead : ℤ := 0
def diskWrite : ℤ := 1
def keyboardRead : ℤ := 2
def forkProgram : ℤ := 3
def endProgram : ℤ := 4
def semaphoreOp : ℤ := 5

end Trap

/-- Why the kernel calls `exit(0)`. -/
inductive Halt
  /-- `-- No more processes to execute --` -/
  | noMoreProcesses
  /-- `DEADLOCKED SYSTEM` -/
  | deadlockedSystem
  deriving DecidableEq

/-- What the kernel prints. The idle process is `none`; it is printed as -1. -/
inductive Message
  /-- `Time %d: Process %d issues disk (keyboard) read request` -/
  | issuesRead (device : Device) (time : Word) (pid : Option Pid)
  /-- `Time %d: Process %d issues disk write request` -/
  | issuesDiskWrite (time : Word) (pid : Option Pid)
  /-- `Time %d: Creating process entry for pid %d` -/
  | createsEntry (time : Word) (pid : Pid)
  /-- `Time %d: Process %d exits. Total CPU time = %d` -/
  | exits (time : Word) (pid : Option Pid) (totalCpuTime : Word)
  /-- `Time %d: Process %d issues UP operation on semaphore %d` -/
  | issuesUp (time : Word) (pid : Option Pid) (sem : Sem)
  /-- `Time %d: Process %d issues DOWN operation on semaphore %d` -/
  | issuesDown (time : Word) (pid : Option Pid) (sem : Sem)
  /-- `Time %d: Handled DISK_INTERRUPT (KEYBOARD_INTERRUPT) for pid %d` -/
  | handled (device : Device) (time : Word) (pid : Pid)
  /-- `Time %d: Processor is idle` -/
  | idle (time : Word)
  /-- `Time %d: Process %d runs` -/
  | runs (time : Word) (pid : Pid)
  /-- the message of an exit -/
  | halts (reason : Halt)
  deriving DecidableEq

/-- `SEMAPHORE`, with the list of pids in its queue; `none` is the `NULL` pointer. -/
structure Semaphore where
  readyQueue : Option (List Pid)
  value : Word

/-- `enqueue`, at the end of the list. -/
def enqueue (queue : List Pid) (pid : Pid) : List Pid := queue ++ [pid]

namespace Semaphore

/-- The processes that wait, the one that waits longest first. -/
def waiting (sem : Semaphore) : List Pid := sem.readyQueue.getD []

/-- `enqueue` on the queue of a semaphore, which it creates on first use. -/
def enqueue (sem : Semaphore) (pid : Pid) : Semaphore :=
  { sem with readyQueue := some (SimOS.enqueue (sem.readyQueue.getD []) pid) }

def increment (sem : Semaphore) : Semaphore := { sem with value := sem.value + 1#32 }

def decrement (sem : Semaphore) : Semaphore := { sem with value := sem.value - 1#32 }

@[simp] theorem waiting_enqueue (sem : Semaphore) (pid : Pid) :
    (sem.enqueue pid).waiting = sem.waiting ++ [pid] := rfl

@[simp] theorem waiting_increment (sem : Semaphore) : sem.increment.waiting = sem.waiting := rfl

@[simp] theorem waiting_decrement (sem : Semaphore) : sem.decrement.waiting = sem.waiting := rfl

/-- What UP does to the semaphore, with the process it takes off the queue. -/
def up (sem : Semaphore) : Semaphore × Option Pid :=
  if sem.value = 0#32 then
    match sem.readyQueue with
    | some (pid :: next) => ({ sem with readyQueue := some next }, some pid)
    | _ => (sem.increment, none)
  else (sem.increment, none)

/-- UP hands the semaphore to the first process that waits, or counts up. -/
theorem up_cases (sem : Semaphore) :
    (∃ pid next, sem.value = 0#32 ∧ sem.waiting = pid :: next ∧
      sem.up = ({ sem with readyQueue := some next }, some pid)) ∨
    ((sem.value ≠ 0#32 ∨ sem.waiting = []) ∧ sem.up = (sem.increment, none)) := by
  by_cases hvalue : sem.value = 0#32
  · rw [up, if_pos hvalue, waiting]
    cases hqueue : sem.readyQueue with
    | none => exact .inr ⟨.inr rfl, rfl⟩
    | some queue =>
      cases queue with
      | nil => exact .inr ⟨.inr rfl, rfl⟩
      | cons pid next => exact .inl ⟨pid, next, hvalue, rfl, rfl⟩
  · rw [up, if_neg hvalue]
    exact .inr ⟨.inl hvalue, rfl⟩

end Semaphore

/-- `QUANTUM`. -/
def quantum : Word := 40#32

/-- `CLOCK_INTERRUPT_PERIOD`. -/
def clockInterruptPeriod : ℕ := 10

/-- The machine and the globals both kernels share. `requests` are the reads the
drivers were asked for and have not answered, `output` is what was printed since
the last event, and `halted` tells whether the kernel has exited. -/
structure Core where
  currentPid : Option Pid
  clock : Word
  requests : Device → List Pid
  output : List Message
  halted : Option Halt
  semaphores : Sem → Semaphore
  currentQuantumStartTime : Word
  activeProcesses : ℤ
  ioProcesses : ℤ

namespace Core

/-- The machine before the kernel was initialized. -/
def powerOn (pid : Option Pid) (clock : Word) : Core where
  currentPid := pid
  clock := clock
  requests := fun _ => []
  output := []
  halted := none
  semaphores := fun _ => { readyQueue := none, value := 1#32 }
  currentQuantumStartTime := 0#32
  activeProcesses := 0
  ioProcesses := 0

/-- The counters `initialize_kernel` sets. -/
def initCounters (c : Core) : Core :=
  { c with currentQuantumStartTime := c.clock, activeProcesses := 1, ioProcesses := 0 }

def print (c : Core) (message : Message) : Core := { c with output := c.output ++ [message] }

/-- `exit(0)` after a message. -/
def exit (c : Core) (reason : Halt) : Core :=
  { c.print (.halts reason) with halted := some reason }

/-- `disk_read_req` or `keyboard_read_req`. How many blocks are read decides
when the interrupt comes, and that is left open. -/
def readReq (c : Core) (device : Device) (pid : Pid) : Core :=
  { c with requests := Function.update c.requests device (c.requests device ++ [pid]) }

/-- `disk_write_req`, which returns immediately and is never answered. -/
def diskWriteReq (c : Core) : Core := c

/-- The time since the quantum started. -/
def elapsed (c : Core) : Word := c.clock - c.currentQuantumStartTime

end Core

/-- A trap that creates process 1. -/
def Event.forkOne : Event :=
  { clock := 5#32, interrupt := .trap, R1 := Trap.forkProgram, R2 := 1, R3 := 0 }

/-- The trap that creates a process. -/
def Event.forkAt (pid : Pid) (clock : Word) : Event :=
  { clock := clock, interrupt := .trap, R1 := Trap.forkProgram, R2 := (pid : ℕ), R3 := 0 }

/-- The trap that ends the running process. -/
def Event.endAt (clock : Word) : Event :=
  { clock := clock, interrupt := .trap, R1 := Trap.endProgram, R2 := 0, R3 := 0 }

/-- The trap that reads from the disk. -/
def Event.readAt (clock : Word) : Event :=
  { clock := clock, interrupt := .trap, R1 := Trap.diskRead, R2 := 0, R3 := 0 }

/-- The trap that issues DOWN on a semaphore. -/
def Event.downAt (s : Sem) (clock : Word) : Event :=
  { clock := clock, interrupt := .trap, R1 := Trap.semaphoreOp, R2 := (s : ℕ), R3 := 0 }

/-- The trap that issues UP on a semaphore. -/
def Event.upAt (s : Sem) (clock : Word) : Event :=
  { clock := clock, interrupt := .trap, R1 := Trap.semaphoreOp, R2 := (s : ℕ), R3 := 1 }

/-- A clock interrupt. -/
def Event.clockAt (clock : Word) : Event :=
  { clock := clock, interrupt := .clockInterrupt, R1 := 0, R2 := 0, R3 := 0 }

/-- The disk answers the read of a process. -/
def Event.answerAt (pid : Pid) (clock : Word) : Event :=
  { clock := clock, interrupt := .diskInterrupt, R1 := (pid : ℕ), R2 := 0, R3 := 0 }

/-- The event is a trap for a semaphore. -/
def Event.IsSemaphoreOp (e : Event) : Prop :=
  e.interrupt = .trap ∧ e.R1 = Trap.semaphoreOp

/-- The event is the trap that creates the process. -/
def Event.Forks (e : Event) (pid : Pid) : Prop :=
  e.interrupt = .trap ∧ e.R1 = Trap.forkProgram ∧ e.R2 = (pid : ℕ)

instance (e : Event) (pid : Pid) : Decidable (e.Forks pid) :=
  inferInstanceAs (Decidable (_ ∧ _ ∧ _))

/-- The event is the trap that ends the running process. -/
def Event.Ends (e : Event) : Prop :=
  e.interrupt = .trap ∧ e.R1 = Trap.endProgram

theorem Event.Forks.pid_eq {e : Event} {p q : Pid} (hp : e.Forks p) (hq : e.Forks q) : p = q :=
  Fin.ext (Int.ofNat.inj (hp.2.2.symm.trans hq.2.2))

theorem Event.not_forks_of_ne {e : Event} (hcode : e.R1 ≠ Trap.forkProgram) (pid : Pid) :
    ¬e.Forks pid :=
  fun hforks => hcode hforks.2.1

theorem Event.not_forks_of_interrupt {e : Event} (hkind : e.interrupt ≠ .trap) (pid : Pid) :
    ¬e.Forks pid :=
  fun hforks => hkind hforks.1

theorem Event.IsSemaphoreOp.not_forks {e : Event} (hop : e.IsSemaphoreOp) (pid : Pid) :
    ¬e.Forks pid :=
  Event.not_forks_of_ne (by rw [hop.2]; decide) pid

theorem Event.not_ends_of_ne {e : Event} (hcode : e.R1 ≠ Trap.endProgram) : ¬e.Ends :=
  fun hends => hcode hends.2

theorem Event.not_ends_of_interrupt {e : Event} (hkind : e.interrupt ≠ .trap) : ¬e.Ends :=
  fun hends => hkind hends.1

theorem Event.IsSemaphoreOp.not_ends {e : Event} (hop : e.IsSemaphoreOp) : ¬e.Ends :=
  Event.not_ends_of_ne (by rw [hop.2]; decide)

theorem Event.Forks.not_ends {e : Event} {pid : Pid} (hforks : e.Forks pid) : ¬e.Ends :=
  Event.not_ends_of_ne (by rw [hforks.2.1]; decide)

theorem Event.Ends.not_forks {e : Event} (hends : e.Ends) (pid : Pid) : ¬e.Forks pid :=
  fun hforks => hforks.not_ends hends

/-- The device whose interrupt it is. -/
def Interrupt.device? : Interrupt → Option Device
  | .diskInterrupt => some .disk
  | .keyboardInterrupt => some .keyboard
  | _ => none

/-- The hardware sets the clock, and the driver forgets the request it answers. -/
def Core.deliver (c : Core) (e : Event) : Core :=
  match e.interrupt.device?, index? 20 e.R1 with
  | some device, some pid =>
    { c with
      clock := e.clock
      output := []
      requests := Function.update c.requests device ((c.requests device).erase pid) }
  | _, _ => { c with clock := e.clock, output := [] }

namespace Core

variable (c : Core) (e : Event)

@[simp] theorem deliver_clock : (c.deliver e).clock = e.clock := by
  rw [deliver]
  split <;> rfl

@[simp] theorem deliver_output : (c.deliver e).output = [] := by
  rw [deliver]
  split <;> rfl

@[simp] theorem deliver_currentPid : (c.deliver e).currentPid = c.currentPid := by
  rw [deliver]
  split <;> rfl

@[simp] theorem deliver_halted : (c.deliver e).halted = c.halted := by
  rw [deliver]
  split <;> rfl

@[simp] theorem deliver_semaphores : (c.deliver e).semaphores = c.semaphores := by
  rw [deliver]
  split <;> rfl

@[simp] theorem deliver_currentQuantumStartTime :
    (c.deliver e).currentQuantumStartTime = c.currentQuantumStartTime := by
  rw [deliver]
  split <;> rfl

/-- The time the quantum has lasted when the event comes. -/
theorem elapsed_deliver : (c.deliver e).elapsed = e.clock - c.currentQuantumStartTime := by
  rw [elapsed, deliver_clock, deliver_currentQuantumStartTime]

@[simp] theorem deliver_activeProcesses :
    (c.deliver e).activeProcesses = c.activeProcesses := by
  rw [deliver]
  split <;> rfl

@[simp] theorem deliver_ioProcesses : (c.deliver e).ioProcesses = c.ioProcesses := by
  rw [deliver]
  split <;> rfl

variable {c e}

/-- No process was dispatched since the last event. -/
def Silent (c : Core) : Prop := ∀ time pid, Message.runs time pid ∉ c.output

theorem silent_deliver : (c.deliver e).Silent := by
  intro time pid
  rw [deliver_output]
  exact List.not_mem_nil

theorem Silent.print {message : Message} (h : c.Silent)
    (hmessage : ∀ time pid, Message.runs time pid ≠ message) : (c.print message).Silent := by
  intro time pid hmem
  rcases List.mem_append.mp hmem with hold | hnew
  · exact h time pid hold
  · exact hmessage time pid (List.mem_singleton.mp hnew)

/-- No process exited since the last event. -/
def NoExits (c : Core) : Prop := ∀ time pid total, Message.exits time pid total ∉ c.output

theorem noExits_deliver : (c.deliver e).NoExits := by
  intro time pid total
  rw [deliver_output]
  exact List.not_mem_nil

theorem NoExits.print {message : Message} (h : c.NoExits)
    (hmessage : ∀ time pid total, Message.exits time pid total ≠ message) :
    (c.print message).NoExits := by
  intro time pid total hmem
  rcases List.mem_append.mp hmem with hold | hnew
  · exact h time pid total hold
  · exact hmessage time pid total (List.mem_singleton.mp hnew)

/-- The processes dispatched since the last event. -/
def dispatched (c : Core) : List Pid :=
  c.output.filterMap fun message =>
    match message with
    | .runs _ pid => some pid
    | _ => none

theorem mem_dispatched {pid : Pid} :
    pid ∈ c.dispatched ↔ ∃ time, Message.runs time pid ∈ c.output := by
  rw [dispatched, List.mem_filterMap]
  constructor
  · rintro ⟨message, hmem, hpid⟩
    cases message with
    | runs time p =>
      rw [← Option.some.inj hpid]
      exact ⟨time, hmem⟩
    | _ => cases hpid
  · rintro ⟨time, hmem⟩
    exact ⟨_, hmem, rfl⟩

theorem Silent.dispatched_eq (h : c.Silent) : c.dispatched = [] := by
  apply List.eq_nil_iff_forall_not_mem.mpr
  intro pid hpid
  obtain ⟨time, hmem⟩ := mem_dispatched.mp hpid
  exact h time pid hmem

/-- After a dispatch the process dispatched is the last one. -/
theorem dispatched_print_runs (time : Word) (pid : Pid) :
    (c.print (.runs time pid)).dispatched = c.dispatched ++ [pid] := by
  rw [dispatched, print, List.filterMap_append]
  rfl

/-- Nothing was printed but that the running process writes to the disk. -/
def DiskWrites (messages : List Message) : Prop :=
  ∀ message ∈ messages, ∃ time pid, message = .issuesDiskWrite time pid

theorem diskWrites_deliver : DiskWrites (c.deliver e).output := by
  intro message hmem
  rw [deliver_output] at hmem
  exact absurd hmem List.not_mem_nil

theorem diskWrites_diskWriteReq : DiskWrites
    ((c.deliver e).diskWriteReq.print (.issuesDiskWrite e.clock c.currentPid)).output := by
  intro message hmem
  rw [print, diskWriteReq, deliver_output, List.nil_append, List.mem_singleton] at hmem
  exact ⟨_, _, hmem⟩

theorem DiskWrites.silent {messages : List Message} (h : DiskWrites messages) (time : Word)
    (pid : Pid) : Message.runs time pid ∉ messages := by
  intro hmem
  obtain ⟨_, _, heq⟩ := h _ hmem
  cases heq

theorem DiskWrites.noExits {messages : List Message} (h : DiskWrites messages) (time : Word)
    (pid : Option Pid) (total : Word) : Message.exits time pid total ∉ messages := by
  intro hmem
  obtain ⟨_, _, heq⟩ := h _ hmem
  cases heq

theorem deliver_requests_of_none (h : e.interrupt.device? = none) :
    (c.deliver e).requests = c.requests := by
  rw [deliver, h]

theorem deliver_requests_of_some {device : Device} {pid : Pid}
    (hdevice : e.interrupt.device? = some device) (hpid : e.R1 = (pid : ℕ)) :
    (c.deliver e).requests =
      Function.update c.requests device ((c.requests device).erase pid) := by
  rw [deliver, hdevice, hpid, index?_coe]

end Core

/-- Which events can come: traps from a process that runs, which forks only pids
that are free and names only semaphores that exist, and interrupts of a device
for the reads it was asked for. -/
def Core.Legal (c : Core) (state : Pid → ProcessState) (e : Event) : Prop :=
  c.halted = none ∧
    match e.interrupt with
    | .trap =>
      c.currentPid ≠ none ∧
        (e.R1 = Trap.forkProgram →
          ∃ pid : Pid, e.R2 = (pid : ℕ) ∧ state pid = .uninitialized) ∧
        (e.R1 = Trap.semaphoreOp → ∃ s : Sem, e.R2 = (s : ℕ))
    | .clockInterrupt => True
    | .diskInterrupt => ∃ pid : Pid, e.R1 = (pid : ℕ) ∧ pid ∈ c.requests .disk
    | .keyboardInterrupt => ∃ pid : Pid, e.R1 = (pid : ℕ) ∧ pid ∈ c.requests .keyboard

end SimOS
