import SimOS.Kernel.MultilevelRuns
import SimOS.Kernel.Relabelling
import SimOS.Library.Refinement

/-!
# Pids are names and the clock is relative

No handler of the multilevel kernel compares two pids, and none looks at the clock
but for the time since the quantum started. So a run under other pids and with the
clock started at another time is again a run of the kernel, which prints the same
log under the other names and times and exits when the first one does. In particular
nothing happens when the 32-bit clock wraps.
-/

namespace SimOS

open Library

namespace Multilevel

/-- The kernel under other names and with another clock. -/
def relabel (r : Relabelling) (k : Multilevel) : Multilevel where
  toCore := r.core k.toCore
  processTable := fun pid => k.processTable (r.pid.symm pid)
  readyQueues := fun level => (k.readyQueues level).map r.pid
  discarded := k.discarded.map r.pid

/-- The second state is the first one under the other names. -/
def Relabelled (r : Relabelling) (k k' : Multilevel) : Prop := k' = relabel r k

namespace Relabelled

variable {r : Relabelling} {k k' : Multilevel}

theorem currentPid (h : Relabelled r k k') : k'.currentPid = k.currentPid.map r.pid := by
  rw [h]
  rfl

theorem clock (h : Relabelled r k k') : k'.clock = k.clock + r.time := by
  rw [h]
  rfl

theorem activeProcesses (h : Relabelled r k k') : k'.activeProcesses = k.activeProcesses := by
  rw [h]
  rfl

theorem ioProcesses (h : Relabelled r k k') : k'.ioProcesses = k.ioProcesses := by
  rw [h]
  rfl

theorem halted (h : Relabelled r k k') : k'.halted = k.halted := by
  rw [h]
  rfl

theorem readyQueues (h : Relabelled r k k') (level : Fin 5) :
    k'.readyQueues level = (k.readyQueues level).map r.pid := by
  rw [h]
  rfl

theorem elapsed (h : Relabelled r k k') : k'.elapsed = k.elapsed := by
  rw [h]
  exact r.core_elapsed k.toCore

theorem semaphores (h : Relabelled r k k') (s : Sem) :
    k'.semaphores s = r.semaphore (k.semaphores s) := by
  rw [h]
  rfl

theorem entry (h : Relabelled r k k') (pid : Pid) :
    k'.processTable (r.pid pid) = k.processTable pid := by
  rw [h]
  exact congrArg k.processTable (r.pid.symm_apply_apply pid)

theorem state (h : Relabelled r k k') (pid : Pid) : k'.state (r.pid pid) = k.state pid :=
  congrArg PriorityTableEntry.state (h.entry pid)

theorem priority (h : Relabelled r k k') (pid : Pid) :
    k'.priority (r.pid pid) = k.priority pid :=
  congrArg PriorityTableEntry.priority (h.entry pid)

theorem modifyEntry (h : Relabelled r k k') (pid : Pid)
    (f : PriorityTableEntry → PriorityTableEntry) :
    Relabelled r (k.modifyEntry pid f) (k'.modifyEntry (r.pid pid) f) := by
  subst h
  simp only [Relabelled, relabel, Multilevel.modifyEntry, r.update_symm, Equiv.symm_apply_apply]

theorem setState (h : Relabelled r k k') (pid : Pid) (state : ProcessState) :
    Relabelled r (k.setState pid state) (k'.setState (r.pid pid) state) :=
  h.modifyEntry pid _

theorem setPriority (h : Relabelled r k k') (pid : Pid) (priority : ℤ) :
    Relabelled r (k.setPriority pid priority) (k'.setPriority (r.pid pid) priority) :=
  h.modifyEntry pid _

theorem addCpuTime (h : Relabelled r k k') (pid : Pid) :
    Relabelled r (k.addCpuTime pid) (k'.addCpuTime (r.pid pid)) := by
  rw [Multilevel.addCpuTime, Multilevel.addCpuTime, h.elapsed]
  exact h.modifyEntry pid _

theorem print (h : Relabelled r k k') (m : Message) :
    Relabelled r (k.print m) (k'.print (r.message m)) := by
  subst h
  simp only [Relabelled, relabel, Multilevel.print, r.core_print]

theorem exit (h : Relabelled r k k') (reason : Halt) :
    Relabelled r { k with toCore := k.toCore.exit reason }
      { k' with toCore := k'.toCore.exit reason } := by
  subst h
  simp only [Relabelled, relabel, r.core_exit]

theorem setSemaphore (h : Relabelled r k k') (s : Sem) (sem : Semaphore) :
    Relabelled r (k.setSemaphore s sem) (k'.setSemaphore s (r.semaphore sem)) := by
  subst h
  have hsemaphores := r.semaphore_update k.semaphores s sem
  simp only [Relabelled, relabel, Multilevel.setSemaphore, Relabelling.core, hsemaphores]

/-- The queues after an assignment to one of them. -/
theorem update_queues (h : Relabelled r k k') (level : Fin 5) (queue : List Pid) :
    Relabelled r { k with readyQueues := Function.update k.readyQueues level queue }
      { k' with readyQueues := Function.update k'.readyQueues level (queue.map r.pid) } := by
  subst h
  have hqueues := Function.comp_update (List.map r.pid) k.readyQueues level queue
  simp only [Relabelled, relabel]
  exact congrArg (fun queues => { relabel r k with readyQueues := queues }) hqueues.symm

theorem enqueueReady (h : Relabelled r k k') (pid : Pid) :
    Option.Rel (Relabelled r) (k.enqueueReady pid) (k'.enqueueReady (r.pid pid)) := by
  rw [Multilevel.enqueueReady, Multilevel.enqueueReady, h.priority]
  cases index? 5 (k.priority pid) with
  | none => exact .none
  | some level =>
    have hqueue := h.update_queues level (enqueue (k.readyQueues level) pid)
    rw [enqueue, List.map_append, ← h.readyQueues] at hqueue
    exact .some hqueue

theorem boost (h : Relabelled r k k') (pid : Pid) :
    Relabelled r (k.boost pid) (k'.boost (r.pid pid)) := by
  rw [Multilevel.boost, Multilevel.boost, h.elapsed, h.priority]
  split
  · split
    · exact h.setPriority pid _
    · exact h
  · exact h

theorem demote (h : Relabelled r k k') (pid : Pid) :
    Relabelled r (k.demote pid) (k'.demote (r.pid pid)) := by
  rw [Multilevel.demote, Multilevel.demote, h.priority]
  split
  · exact h.setPriority pid _
  · exact h

theorem readReq (h : Relabelled r k k') (device : Device) (pid : Pid) :
    Relabelled r { k with toCore := k.toCore.readReq device pid }
      { k' with toCore := k'.toCore.readReq device (r.pid pid) } := by
  subst h
  simp only [Relabelled, relabel, r.core_readReq]

theorem addIo (h : Relabelled r k k') (i : ℤ) :
    Relabelled r { k with ioProcesses := k.ioProcesses + i }
      { k' with ioProcesses := k'.ioProcesses + i } := by
  subst h
  rfl

theorem addActive (h : Relabelled r k k') (i : ℤ) :
    Relabelled r { k with activeProcesses := k.activeProcesses + i }
      { k' with activeProcesses := k'.activeProcesses + i } := by
  subst h
  rfl

theorem startQuantum (h : Relabelled r k k') :
    Relabelled r { k with currentQuantumStartTime := k.clock }
      { k' with currentQuantumStartTime := k'.clock } := by
  subst h
  rfl

theorem deliver (h : Relabelled r k k') (e : Event) :
    Relabelled r (k.deliver e) (k'.deliver (r.event e)) := by
  subst h
  simp only [Relabelled, relabel, Multilevel.deliver, r.core_deliver]

/-! ## `schedule` -/

theorem drop (h : Relabelled r k k') (level : Fin 5) (pid : Pid) (next : List Pid) :
    Relabelled r
      { k with
        readyQueues := Function.update k.readyQueues level next
        discarded := k.discarded ++ [pid] }
      { k' with
        readyQueues := Function.update k'.readyQueues level (next.map r.pid)
        discarded := k'.discarded ++ [r.pid pid] } := by
  have hdiscarded : (relabel r k).discarded ++ [r.pid pid] =
      (k.discarded ++ [pid]).map r.pid := by
    rw [List.map_append]
    rfl
  have hqueues := h.update_queues level next
  subst h
  rw [hdiscarded]
  exact congrArg (fun k' : Multilevel =>
    { k' with discarded := (k.discarded ++ [pid]).map r.pid }) hqueues

theorem idle (h : Relabelled r k k') :
    Relabelled r { k.print (.idle k.clock) with currentPid := none }
      { k'.print (.idle k'.clock) with currentPid := none } := by
  subst h
  exact congrArg (fun k : Multilevel => { k with currentPid := none })
    (print (k := k) rfl (.idle k.clock))

theorem dispatchAt (h : Relabelled r k k') (level : Fin 5) (pid : Pid) (next : List Pid) :
    Relabelled r (k.dispatchAt level pid next)
      (k'.dispatchAt level (r.pid pid) (next.map r.pid)) := by
  have hqueues := (h.setState pid .running).update_queues level next
  subst h
  exact congrArg (fun k' : Multilevel => { k' with currentPid := some (r.pid pid) })
    (hqueues.print (.runs k.clock pid))

theorem active (h : Relabelled r k k') (hactive : k.activeProcesses ≠ 0) :
    k'.activeProcesses ≠ 0 := by
  rw [h.activeProcesses]
  exact hactive

theorem queue_nil (h : Relabelled r k k') {level : Fin 5} (hqueue : k.readyQueues level = []) :
    k'.readyQueues level = [] := by
  rw [h.readyQueues, hqueue, List.map_nil]

theorem queue_cons (h : Relabelled r k k') {level : Fin 5} {pid : Pid} {next : List Pid}
    (hqueue : k.readyQueues level = pid :: next) :
    k'.readyQueues level = r.pid pid :: next.map r.pid := by
  rw [h.readyQueues, hqueue, List.map_cons]

theorem schedule (h : Relabelled r k k') (queueNum : Fin 5) :
    Relabelled r (k.schedule queueNum) (k'.schedule queueNum) := by
  fun_induction Multilevel.schedule k queueNum generalizing k' with
  | case1 k queueNum hactive =>
    rw [Multilevel.schedule, if_pos (h.activeProcesses.trans hactive)]
    exact h.exit _
  | case2 k queueNum hactive hqueue hdead =>
    rw [schedule_nil (h.active hactive) (h.queue_nil hqueue),
      if_pos ⟨Fin.val_eq_zero_iff.mpr hdead.1, h.ioProcesses.trans hdead.2⟩]
    exact h.exit _
  | case3 k queueNum hactive hqueue hdead hnum ih =>
    have hnum' : (queueNum : ℕ) ≠ 0 := Fin.val_ne_zero_iff.mpr hnum
    rw [schedule_nil (h.active hactive) (h.queue_nil hqueue), if_neg fun hdead' => hnum' hdead'.1,
      if_pos hnum']
    exact ih h
  | case4 k queueNum hactive hqueue hdead hnum =>
    have hnum' : (queueNum : ℕ) = 0 := Fin.val_eq_zero_iff.mpr (not_not.mp hnum)
    have hio : k'.ioProcesses ≠ 0 := by
      rw [h.ioProcesses]
      exact fun hio => hdead ⟨not_not.mp hnum, hio⟩
    rw [schedule_nil (h.active hactive) (h.queue_nil hqueue), if_neg fun hdead' => hio hdead'.2,
      if_neg (not_not.mpr hnum')]
    exact h.idle
  | case5 k queueNum hactive pid next hqueue hblocked ih =>
    rw [schedule_cons (h.active hactive) (h.queue_cons hqueue), h.state, if_pos hblocked]
    exact ih (h.drop queueNum pid next)
  | case6 k queueNum hactive pid next hqueue hblocked =>
    rw [schedule_cons (h.active hactive) (h.queue_cons hqueue), h.state, if_neg hblocked]
    exact h.dispatchAt queueNum pid next

theorem restartQuantum (h : Relabelled r k k') :
    Relabelled r k.restartQuantum k'.restartQuantum := by
  rw [Multilevel.restartQuantum, Multilevel.restartQuantum]
  by_cases hhalted : k.halted = none
  · rw [if_pos hhalted, if_pos (h.halted.trans hhalted)]
    exact h.startQuantum
  · rw [if_neg hhalted, if_neg (by rw [h.halted]; exact hhalted)]
    exact h

theorem scheduleIfIdle (h : Relabelled r k k') :
    Relabelled r k.scheduleIfIdle k'.scheduleIfIdle := by
  have hidle' : k'.currentPid = none ↔ k.currentPid = none := by
    rw [h.currentPid, Option.map_eq_none_iff]
  rw [Multilevel.scheduleIfIdle, Multilevel.scheduleIfIdle]
  by_cases hidle : k.currentPid = none
  · rw [if_pos hidle, if_pos (hidle'.mpr hidle)]
    exact h.startQuantum.schedule 4
  · rw [if_neg hidle, if_neg (by rw [hidle']; exact hidle)]
    exact h

/-! ## The handlers -/

theorem issueRead (h : Relabelled r k k') (device : Device) (pid : Pid) :
    Relabelled r (k.issueRead device pid) (k'.issueRead device (r.pid pid)) := by
  subst h
  have hprint := print (k := k) (r := r) rfl (.issuesRead device k.clock pid)
  have hread := (((hprint.setState pid .blocked).boost pid).readReq device pid).addIo 1
  exact (hread.addCpuTime pid).startQuantum

theorem createProcess (h : Relabelled r k k') (pid : Pid) :
    Relabelled r (k.createProcess pid) (k'.createProcess (r.pid pid)) := by
  subst h
  have hprint := print (k := k) (r := r) rfl (.createsEntry k.clock pid)
  exact (hprint.setState pid .ready).addActive 1

theorem endProcess (h : Relabelled r k k') (pid : Pid) :
    Relabelled r (k.endProcess pid) (k'.endProcess (r.pid pid)) := by
  have htable := ((h.setState pid .uninitialized).addCpuTime pid).setPriority pid 0
  have hprint := (htable.addActive (-1)).print (.exits k.clock pid
    ((((k.setState pid .uninitialized).addCpuTime pid).setPriority pid 0).processTable pid).2)
  have hmessage : r.message (.exits k.clock pid
      ((((k.setState pid .uninitialized).addCpuTime pid).setPriority pid 0).processTable pid).2) =
      .exits k'.clock (r.pid pid)
        ((((k'.setState (r.pid pid) .uninitialized).addCpuTime (r.pid pid)).setPriority
          (r.pid pid) 0).processTable (r.pid pid)).2 := by
    rw [h.clock, htable.entry]
    rfl
  rw [hmessage] at hprint
  exact hprint.startQuantum

theorem waitFor (h : Relabelled r k k') (s : Sem) (pid : Pid) :
    Relabelled r (k.waitFor s pid) (k'.waitFor s (r.pid pid)) := by
  have hblocked := h.setState pid .blocked
  have hwait := hblocked.setSemaphore s (((k.setState pid .blocked).semaphores s).enqueue pid)
  rw [← r.semaphore_enqueue, ← hblocked.semaphores] at hwait
  exact ((hwait.boost pid).addCpuTime pid).startQuantum

theorem preempt (h : Relabelled r k k') (pid : Pid) :
    Relabelled r (k.preempt pid) (k'.preempt (r.pid pid)) :=
  ((h.setState pid .ready).addCpuTime pid).demote pid

theorem finishRead (h : Relabelled r k k') (device : Device) (pid : Pid) :
    Relabelled r (k.finishRead device pid) (k'.finishRead device (r.pid pid)) := by
  subst h
  have hprint := print (k := k) (r := r) rfl (.handled device k.clock pid)
  exact (hprint.setState pid .ready).addIo (-1)

theorem issueWrite (h : Relabelled r k k') : Relabelled r k.issueWrite k'.issueWrite := by
  subst h
  exact print (k := k) rfl (.issuesDiskWrite k.clock k.currentPid)

theorem announceUp (h : Relabelled r k k') (s : Sem) :
    Relabelled r (k.announceUp s) (k'.announceUp s) := by
  subst h
  exact print (k := k) rfl (.issuesUp k.clock k.currentPid s)

theorem announceDown (h : Relabelled r k k') (s : Sem) :
    Relabelled r (k.announceDown s) (k'.announceDown s) := by
  subst h
  exact print (k := k) rfl (.issuesDown k.clock k.currentPid s)

theorem handleRead (h : Relabelled r k k') (device : Device) :
    Option.Rel (Relabelled r) (k.currentPid.map fun pid => (k.issueRead device pid).schedule 4)
      (k'.currentPid.map fun pid => (k'.issueRead device pid).schedule 4) := by
  rw [h.currentPid]
  cases k.currentPid with
  | none => exact .none
  | some pid => exact .some ((h.issueRead device pid).schedule 4)

theorem handleFork (h : Relabelled r k k') (R2 : ℤ) :
    Option.Rel (Relabelled r) (k.handleFork R2) (k'.handleFork (r.register R2)) := by
  rw [Multilevel.handleFork, Multilevel.handleFork, r.index?_register]
  cases index? 20 R2 with
  | none => exact .none
  | some pid => exact (h.createProcess pid).enqueueReady pid

theorem handleKill (h : Relabelled r k k') :
    Option.Rel (Relabelled r) k.handleKill k'.handleKill := by
  rw [Multilevel.handleKill, Multilevel.handleKill, h.currentPid]
  cases k.currentPid with
  | none => exact .none
  | some pid => exact .some ((h.endProcess pid).schedule 4)

theorem handleUp (h : Relabelled r k k') (s : Sem) :
    Option.Rel (Relabelled r) (k.handleUp s) (k'.handleUp s) := by
  have hup := h.announceUp s
  rw [Multilevel.handleUp, Multilevel.handleUp, hup.semaphores, r.semaphore_up]
  rcases ((k.announceUp s).semaphores s).up with ⟨sem, _ | pid⟩
  · exact .some (hup.setSemaphore s sem)
  · exact ((hup.setSemaphore s sem).setState pid .ready).enqueueReady pid

theorem handleDown (h : Relabelled r k k') (s : Sem) :
    Option.Rel (Relabelled r) (k.handleDown s) (k'.handleDown s) := by
  have hdown := h.announceDown s
  rw [Multilevel.handleDown, Multilevel.handleDown, hdown.semaphores, hdown.currentPid,
    r.semaphore_decrement, r.semaphore_value]
  split
  · exact .some (hdown.setSemaphore s _)
  · cases (k.announceDown s).currentPid with
    | none => exact .none
    | some pid => exact .some ((hdown.waitFor s pid).schedule 4)

theorem handleSemaphore (h : Relabelled r k k') (R2 R3 : ℤ) :
    Option.Rel (Relabelled r) (k.handleSemaphore R2 R3) (k'.handleSemaphore R2 R3) := by
  rw [Multilevel.handleSemaphore, Multilevel.handleSemaphore]
  refine Agree.bind_same fun s _ => ?_
  split
  · exact h.handleUp s
  · exact h.handleDown s

theorem handleClockInterrupt (h : Relabelled r k k') :
    Option.Rel (Relabelled r) k.handleClockInterrupt k'.handleClockInterrupt := by
  rw [Multilevel.handleClockInterrupt, Multilevel.handleClockInterrupt, h.currentPid]
  cases k.currentPid with
  | none => exact .some h
  | some pid =>
    simp only [Option.map_some, h.elapsed]
    split
    · exact Agree.map ((h.preempt pid).enqueueReady pid) fun _ _ hready =>
        (hready.schedule 4).restartQuantum
    · exact .some h

/-- `handle_disk_interrupt` and `handle_keyboard_interrupt`. -/
theorem handleAnswer (h : Relabelled r k k') (device : Device) (R1 : ℤ) :
    Option.Rel (Relabelled r)
      ((index? 20 R1).bind fun pid =>
        ((k.finishRead device pid).enqueueReady pid).map Multilevel.scheduleIfIdle)
      ((index? 20 (r.register R1)).bind fun pid =>
        ((k'.finishRead device pid).enqueueReady pid).map Multilevel.scheduleIfIdle) := by
  rw [r.index?_register]
  cases index? 20 R1 with
  | none => exact .none
  | some pid =>
    exact Agree.map ((h.finishRead device pid).enqueueReady pid) fun _ _ hready =>
      hready.scheduleIfIdle

theorem handleTrap (h : Relabelled r k k') (e : Event) (htrap : e.interrupt = .trap) :
    Option.Rel (Relabelled r) (k.handleTrap e) (k'.handleTrap (r.event e)) := by
  have hR1 : (r.event e).R1 = e.R1 := r.event_R1 (by rw [htrap]; rfl)
  rw [Multilevel.handleTrap, Multilevel.handleTrap, hR1]
  split_ifs with hread hwrite hkeyboard hfork hkill hsemaphore
  · exact h.handleRead .disk
  · exact .some h.issueWrite
  · exact h.handleRead .keyboard
  · rw [r.event_R2_fork htrap hfork]
    exact h.handleFork e.R2
  · exact h.handleKill
  · rw [r.event_R2 fun hcode => hfork hcode.2]
    exact h.handleSemaphore e.R2 e.R3
  · exact .some h

/-- Every event goes the same way under the other names. -/
theorem interrupt (h : Relabelled r k k') (e : Event) :
    Option.Rel (Relabelled r) (k.interrupt e) (k'.interrupt (r.event e)) := by
  have hdeliver := h.deliver e
  have hkind : (r.event e).interrupt = e.interrupt := rfl
  rw [Multilevel.interrupt, Multilevel.interrupt, hkind]
  cases hinterrupt : e.interrupt with
  | trap => exact hdeliver.handleTrap e hinterrupt
  | clockInterrupt => exact hdeliver.handleClockInterrupt
  | diskInterrupt =>
    rw [r.event_R1_device (by rw [hinterrupt]; rfl)]
    exact hdeliver.handleAnswer .disk e.R1
  | keyboardInterrupt =>
    rw [r.event_R1_device (by rw [hinterrupt]; rfl)]
    exact hdeliver.handleAnswer .keyboard e.R1

theorem initCounters (h : Relabelled r k k') :
    Relabelled r { k with toCore := k.toCore.initCounters }
      { k' with toCore := k'.toCore.initCounters } := by
  subst h
  rfl

end Relabelled

theorem relabel_symm (r : Relabelling) (k : Multilevel) : relabel r.symm (relabel r k) = k := by
  simp [relabel, r.core_symm]

theorem Booted.relabel {k : Multilevel} (h : Booted k) (r : Relabelling) :
    Booted (relabel r k) := by
  obtain ⟨pid, clock, hk⟩ := h
  obtain rfl := Option.some.inj hk
  have hstate := Relabelled.setState (r := r) (k := powerOn (some pid) clock) rfl pid .running
  exact ⟨r.pid pid, clock + r.time, congrArg some hstate.initCounters⟩

theorem Step.relabel {k k' : Multilevel} {e : Event} (h : k.Step e k') (r : Relabelling) :
    (relabel r k).Step (r.event e) (relabel r k') := by
  refine ⟨r.core_legal h.1, ?_⟩
  have hrel := Relabelled.interrupt (r := r) (k := k) rfl e
  rw [h.2] at hrel
  generalize (Multilevel.relabel r k).interrupt (r.event e) = result at hrel
  cases hrel with
  | some hrel => exact congrArg some hrel

theorem KernelRun.relabel (r : Relabelling) {h : List (Event × Multilevel)} {k : Multilevel}
    (hrun : KernelRun h k) :
    KernelRun (h.map (Prod.map r.event (relabel r))) (relabel r k) :=
  Run.map r.event (Multilevel.relabel r) (fun _ hs => hs.relabel r)
    (fun _ _ _ _ hs => hs.relabel r) hrun

/-- A run under other pids and with another clock is a run exactly if the run is one:
the same events under the other names lead through the same states under the other
names, with the same log. -/
theorem kernelRun_relabel_iff (r : Relabelling) (h : List (Event × Multilevel)) (k : Multilevel) :
    KernelRun (h.map (Prod.map r.event (relabel r))) (relabel r k) ↔ KernelRun h k :=
  Run.map_iff r.event_symm (relabel_symm r) (fun _ _ hrun => KernelRun.relabel r hrun)
    (fun _ _ hrun => KernelRun.relabel r.symm hrun) h k

end Multilevel

end SimOS
