import Mathlib.Data.BitVec
import Mathlib.Logic.Equiv.Basic
import SimOS.Kernel.Machine

/-!
# Other names and another clock

A relabelling gives the processes other pids and starts the clock at another
time. It carries over to the registers of an event, to what the kernel prints and
to the machine the two kernels share.
-/

namespace SimOS

/-- A renaming of the processes, and what the clock is set forward by. -/
structure Relabelling where
  pid : Equiv.Perm Pid
  time : Word

namespace Relabelling

variable (r : Relabelling)

/-- The way back. -/
def symm : Relabelling := ⟨r.pid.symm, -r.time⟩

@[simp] theorem symm_pid : r.symm.pid = r.pid.symm := rfl

@[simp] theorem symm_time : r.symm.time = -r.time := rfl

/-- A register that names a process. -/
def register (i : ℤ) : ℤ :=
  match index? 20 i with
  | some pid => (r.pid pid : ℕ)
  | none => i

theorem index?_register (i : ℤ) : index? 20 (r.register i) = (index? 20 i).map r.pid := by
  rw [register]
  cases hi : index? 20 i with
  | some pid => exact index?_coe _
  | none => exact hi

/-- Device interrupts and forks name a process. -/
def event (e : Event) : Event where
  clock := e.clock + r.time
  interrupt := e.interrupt
  R1 := if e.interrupt.device? = none then e.R1 else r.register e.R1
  R2 := if e.interrupt = .trap ∧ e.R1 = Trap.forkProgram then r.register e.R2 else e.R2
  R3 := e.R3

theorem event_R1 {e : Event} (h : e.interrupt.device? = none) : (r.event e).R1 = e.R1 := if_pos h

theorem event_R1_device {e : Event} {device : Device} (h : e.interrupt.device? = some device) :
    (r.event e).R1 = r.register e.R1 :=
  if_neg (by rw [h]; exact Option.some_ne_none device)

theorem event_R2_fork {e : Event} (htrap : e.interrupt = .trap)
    (hcode : e.R1 = Trap.forkProgram) : (r.event e).R2 = r.register e.R2 :=
  if_pos ⟨htrap, hcode⟩

theorem event_R2 {e : Event} (h : ¬(e.interrupt = .trap ∧ e.R1 = Trap.forkProgram)) :
    (r.event e).R2 = e.R2 :=
  if_neg h

def message : Message → Message
  | .issuesRead device time pid => .issuesRead device (time + r.time) (pid.map r.pid)
  | .issuesDiskWrite time pid => .issuesDiskWrite (time + r.time) (pid.map r.pid)
  | .createsEntry time pid => .createsEntry (time + r.time) (r.pid pid)
  | .exits time pid totalCpuTime => .exits (time + r.time) (pid.map r.pid) totalCpuTime
  | .issuesUp time pid sem => .issuesUp (time + r.time) (pid.map r.pid) sem
  | .issuesDown time pid sem => .issuesDown (time + r.time) (pid.map r.pid) sem
  | .handled device time pid => .handled device (time + r.time) (r.pid pid)
  | .idle time => .idle (time + r.time)
  | .runs time pid => .runs (time + r.time) (r.pid pid)
  | .halts reason => .halts reason

def semaphore (sem : Semaphore) : Semaphore where
  readyQueue := sem.readyQueue.map (List.map r.pid)
  value := sem.value

def core (c : Core) : Core where
  currentPid := c.currentPid.map r.pid
  clock := c.clock + r.time
  requests := fun device => (c.requests device).map r.pid
  output := c.output.map r.message
  halted := c.halted
  semaphores := fun s => r.semaphore (c.semaphores s)
  currentQuantumStartTime := c.currentQuantumStartTime + r.time
  activeProcesses := c.activeProcesses
  ioProcesses := c.ioProcesses

/-! ## Back again -/

theorem register_symm (i : ℤ) : r.symm.register (r.register i) = i := by
  rw [register, index?_register]
  cases hi : index? 20 i with
  | some pid =>
    rw [index?_eq_some hi]
    simp
  | none => simp [register, hi]

theorem message_symm (m : Message) : r.symm.message (r.message m) = m := by
  cases m <;> simp [message]

theorem semaphore_symm (sem : Semaphore) : r.symm.semaphore (r.semaphore sem) = sem := by
  simp [semaphore]

theorem event_symm (e : Event) : r.symm.event (r.event e) = e := by
  obtain ⟨clock, interrupt, R1, R2, R3⟩ := e
  cases interrupt with
  | trap =>
    by_cases hfork : R1 = Trap.forkProgram
    · simp [event, Interrupt.device?, hfork, register_symm]
    · simp [event, Interrupt.device?, hfork]
  | clockInterrupt => simp [event, Interrupt.device?]
  | diskInterrupt => simp [event, Interrupt.device?, register_symm]
  | keyboardInterrupt => simp [event, Interrupt.device?, register_symm]

theorem core_symm (c : Core) : r.symm.core (r.core c) = c := by
  have hmessage : r.symm.message ∘ r.message = id := funext r.message_symm
  simp [core, semaphore_symm, hmessage]

/-! ## The machine -/

@[simp] theorem core_elapsed (c : Core) : (r.core c).elapsed = c.elapsed := by
  simp [Core.elapsed, core]

theorem core_print (c : Core) (m : Message) :
    (r.core c).print (r.message m) = r.core (c.print m) := by
  simp [Core.print, core]

theorem core_exit (c : Core) (reason : Halt) : (r.core c).exit reason = r.core (c.exit reason) := by
  simp [Core.exit, Core.print, core, message]

theorem core_readReq (c : Core) (device : Device) (pid : Pid) :
    (r.core c).readReq device (r.pid pid) = r.core (c.readReq device pid) := by
  have hrequests : Function.update (r.core c).requests device
      ((r.core c).requests device ++ [r.pid pid]) = (r.core (c.readReq device pid)).requests := by
    funext d
    by_cases hd : d = device
    · subst hd
      simp [core, Core.readReq]
    · simp [core, Core.readReq, Function.update_of_ne hd]
  rw [Core.readReq, hrequests]
  rfl

theorem core_deliver (c : Core) (e : Event) :
    (r.core c).deliver (r.event e) = r.core (c.deliver e) := by
  have hinterrupt : (r.event e).interrupt.device? = e.interrupt.device? := rfl
  cases hdevice : e.interrupt.device? with
  | none =>
    rw [Core.deliver, Core.deliver, hinterrupt, hdevice]
    rfl
  | some device =>
    have hindex : index? 20 (r.event e).R1 = (index? 20 e.R1).map r.pid := by
      rw [r.event_R1_device hdevice, index?_register]
    rw [Core.deliver, Core.deliver, hinterrupt, hindex, hdevice]
    cases index? 20 e.R1 with
    | none => rfl
    | some pid =>
      have hrequests : Function.update (r.core c).requests device
          (((r.core c).requests device).erase (r.pid pid)) =
            fun d => (Function.update c.requests device ((c.requests device).erase pid) d).map
              r.pid := by
        funext d
        by_cases hd : d = device
        · subst hd
          simp [core, List.map_erase r.pid.injective]
        · simp [core, Function.update_of_ne hd]
      show ({ r.core c with
        clock := e.clock + r.time
        output := []
        requests := Function.update (r.core c).requests device
          (((r.core c).requests device).erase (r.pid pid)) } : Core) = _
      rw [hrequests]
      rfl

theorem semaphore_up (sem : Semaphore) :
    (r.semaphore sem).up = (r.semaphore sem.up.1, sem.up.2.map r.pid) := by
  obtain ⟨readyQueue, value⟩ := sem
  by_cases hvalue : value = 0#32
  · rcases readyQueue with _ | _ | ⟨pid, next⟩ <;>
      simp [semaphore, Semaphore.up, Semaphore.increment, hvalue]
  · simp [semaphore, Semaphore.up, Semaphore.increment, hvalue]

theorem semaphore_enqueue (sem : Semaphore) (pid : Pid) :
    (r.semaphore sem).enqueue (r.pid pid) = r.semaphore (sem.enqueue pid) := by
  cases hqueue : sem.readyQueue <;> simp [semaphore, Semaphore.enqueue, enqueue, hqueue]

theorem semaphore_value (sem : Semaphore) : (r.semaphore sem).value = sem.value := rfl

theorem semaphore_decrement (sem : Semaphore) :
    (r.semaphore sem).decrement = r.semaphore sem.decrement := rfl

/-- An array of semaphores after an assignment to one of them. -/
theorem semaphore_update (semaphores : Sem → Semaphore) (s : Sem) (sem : Semaphore) :
    Function.update (fun t => r.semaphore (semaphores t)) s (r.semaphore sem) =
      fun t => r.semaphore (Function.update semaphores s sem t) :=
  (Function.comp_update r.semaphore semaphores s sem).symm

/-- An array indexed by pids after an assignment to one of its elements. -/
theorem update_symm {α : Type} (table : Pid → α) (pid : Pid) (entry : α) :
    Function.update (fun p => table (r.pid.symm p)) (r.pid pid) entry =
      fun p => Function.update table pid entry (r.pid.symm p) := by
  have h := Function.update_comp_equiv table r.pid.symm pid entry
  rw [Equiv.symm_symm] at h
  exact h.symm

/-- Whether an event can come does not depend on the names and the clock. -/
theorem core_legal {c : Core} {state : Pid → ProcessState} {e : Event} (h : c.Legal state e) :
    (r.core c).Legal (fun pid => state (r.pid.symm pid)) (r.event e) := by
  refine ⟨h.1, ?_⟩
  have hregister : ∀ pid : Pid, r.register (pid : ℕ) = (r.pid pid : ℕ) := by
    intro pid
    rw [register, index?_coe]
  have hlegal := h.2
  cases hkind : e.interrupt with
  | trap =>
    simp only [hkind] at hlegal
    obtain ⟨hrunning, hfork, hsem⟩ := hlegal
    simp only [event, hkind, Interrupt.device?, if_true, true_and]
    refine ⟨?_, fun hcode => ?_, fun hcode => ?_⟩
    · rw [core, ne_eq, Option.map_eq_none_iff]
      exact hrunning
    · obtain ⟨pid, hpid, hfree⟩ := hfork hcode
      refine ⟨r.pid pid, ?_, ?_⟩
      · rw [if_pos hcode, hpid, hregister]
      · rw [Equiv.symm_apply_apply]
        exact hfree
    · rw [if_neg (by rw [hcode]; decide)]
      exact hsem hcode
  | clockInterrupt =>
    simp only [event, hkind]
  | diskInterrupt =>
    simp only [hkind] at hlegal
    obtain ⟨pid, hpid, hmem⟩ := hlegal
    simp only [event, hkind, Interrupt.device?]
    refine ⟨r.pid pid, ?_, List.mem_map_of_mem hmem⟩
    rw [if_neg (Option.some_ne_none _), hpid, hregister]
  | keyboardInterrupt =>
    simp only [hkind] at hlegal
    obtain ⟨pid, hpid, hmem⟩ := hlegal
    simp only [event, hkind, Interrupt.device?]
    refine ⟨r.pid pid, ?_, List.mem_map_of_mem hmem⟩
    rw [if_neg (Option.some_ne_none _), hpid, hregister]

end Relabelling

end SimOS
