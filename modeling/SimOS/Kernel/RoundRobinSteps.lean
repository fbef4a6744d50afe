import SimOS.Kernel.RoundRobin
import SimOS.Kernel.Census

/-!
# What one event does to the round-robin kernel

`ScheduleCase` and `Effect` list the ways `schedule` and an event can go. The
properties of runs are proved case by case from them, without the code.
-/

namespace SimOS

namespace RoundRobin

/-! ## The states after each handler -/

theorem state_setState (k : RoundRobin) (pid : Pid) (st : ProcessState) :
    (k.setState pid st).state = Function.update k.state pid st := by
  funext p
  by_cases hp : p = pid
  · rw [hp, Function.update_self]
    simp [state, setState, modifyEntry]
  · rw [Function.update_of_ne hp]
    simp [state, setState, modifyEntry, Function.update_of_ne hp]

theorem state_addCpuTime (k : RoundRobin) (pid : Pid) : (k.addCpuTime pid).state = k.state := by
  funext p
  by_cases hp : p = pid
  · simp [state, addCpuTime, modifyEntry, hp]
  · simp [state, addCpuTime, modifyEntry, Function.update_of_ne hp]

theorem state_createProcess (k : RoundRobin) (pid : Pid) :
    (k.createProcess pid).state = Function.update k.state pid .ready := by
  funext p
  by_cases hp : p = pid
  · rw [hp, Function.update_self]
    simp [state, createProcess, modifyEntry, enqueueReady, print]
  · rw [Function.update_of_ne hp]
    simp [state, createProcess, modifyEntry, enqueueReady, print, Function.update_of_ne hp]

theorem state_issueRead (k : RoundRobin) (device : Device) (pid : Pid) :
    (k.issueRead device pid).state = Function.update k.state pid .blocked :=
  (state_addCpuTime _ _).trans (state_setState _ _ _)

theorem state_endProcess (k : RoundRobin) (pid : Pid) :
    (k.endProcess pid).state = Function.update k.state pid .uninitialized :=
  (state_addCpuTime _ _).trans (state_setState _ _ _)

theorem state_waitFor (k : RoundRobin) (s : Sem) (pid : Pid) :
    (k.waitFor s pid).state = Function.update k.state pid .blocked :=
  (state_addCpuTime _ _).trans (state_setState _ _ _)

theorem state_preempt (k : RoundRobin) (pid : Pid) :
    (k.preempt pid).state = Function.update k.state pid .ready :=
  (state_addCpuTime _ _).trans (state_setState _ _ _)

theorem state_finishRead (k : RoundRobin) (device : Device) (pid : Pid) :
    (k.finishRead device pid).state = Function.update k.state pid .ready :=
  state_setState _ _ _

theorem state_wake (k : RoundRobin) (pid : Pid) :
    (k.wake pid).state = Function.update k.state pid .ready :=
  state_setState _ _ _

/-! ## `schedule` -/

/-- The ways `schedule` can go when no process in the ready queue is blocked. -/
inductive ScheduleCase (k : RoundRobin) : RoundRobin → Prop
  | finished (hactive : k.activeProcesses = 0) :
      ScheduleCase k { k with toCore := k.toCore.exit .noMoreProcesses }
  | deadlocked (hactive : k.activeProcesses ≠ 0) (hqueue : k.readyQueue = [])
      (hio : k.ioProcesses = 0) :
      ScheduleCase k { k with toCore := k.toCore.exit .deadlockedSystem }
  | idle (hactive : k.activeProcesses ≠ 0) (hqueue : k.readyQueue = []) (hio : k.ioProcesses ≠ 0) :
      ScheduleCase k { k.print (.idle k.clock) with currentPid := none }
  | runs (pid : Pid) (next : List Pid) (hactive : k.activeProcesses ≠ 0)
      (hqueue : k.readyQueue = pid :: next) :
      ScheduleCase k
        { (k.setState pid .running).print (.runs k.clock pid) with
          currentPid := some pid
          readyQueue := next }

theorem scheduleCase {k : RoundRobin} (hready : ∀ pid ∈ k.readyQueue, k.state pid ≠ .blocked) :
    ScheduleCase k k.schedule := by
  rw [schedule]
  by_cases hactive : k.activeProcesses = 0
  · rw [if_pos hactive]
    exact .finished hactive
  · rw [if_neg hactive]
    split
    · next hqueue =>
      by_cases hio : k.ioProcesses = 0
      · rw [if_pos hio]
        exact .deadlocked hactive hqueue hio
      · rw [if_neg hio]
        exact .idle hactive hqueue hio
    · next pid next hqueue =>
      rw [if_neg (hready pid (by rw [hqueue]; exact List.mem_cons_self))]
      exact .runs pid next hactive hqueue

theorem schedule_nil {k : RoundRobin} (hactive : k.activeProcesses ≠ 0)
    (hqueue : k.readyQueue = []) : k.schedule =
      if k.ioProcesses = 0 then { k with toCore := k.toCore.exit .deadlockedSystem }
      else { k.print (.idle k.clock) with currentPid := none } := by
  rw [schedule, if_neg hactive]
  split
  · rfl
  · next hcons => cases hqueue.symm.trans hcons

theorem schedule_cons {k : RoundRobin} (hactive : k.activeProcesses ≠ 0) {pid : Pid}
    {next : List Pid} (hqueue : k.readyQueue = pid :: next) : k.schedule =
      if k.state pid = .blocked then
        schedule { k with readyQueue := next, discarded := k.discarded ++ [pid] }
      else
        { (k.setState pid .running).print (.runs k.clock pid) with
          currentPid := some pid
          readyQueue := next } := by
  conv_lhs => rw [schedule, if_neg hactive]
  split
  · next hnil => cases hqueue.symm.trans hnil
  · next pid' next' hcons =>
    obtain ⟨rfl, rfl⟩ := List.cons.inj (hqueue.symm.trans hcons)
    rfl

/-! ## Events -/

/-- The kernel once the hardware has delivered the event. -/
def deliver (k : RoundRobin) (e : Event) : RoundRobin := { k with toCore := k.toCore.deliver e }

/-- The ways an event can go. -/
inductive Effect (k : RoundRobin) (e : Event) : RoundRobin → Prop
  | quiet (messages : List Message) (hdevice : e.interrupt.device? = none)
      (hop : ¬e.IsSemaphoreOp) (hmessages : Core.DiskWrites messages)
      (hforks : ∀ p, ¬e.Forks p) (hends : ¬e.Ends)
      (hrest : e.interrupt = .clockInterrupt → k.currentPid ≠ none →
        ¬quantum ≤ e.clock - k.currentQuantumStartTime) :
      Effect k e { k.deliver e with output := messages }
  | read (device : Device) (pid : Pid) (hdevice : e.interrupt.device? = none)
      (hop : ¬e.IsSemaphoreOp) (hcurrent : k.currentPid = some pid) (hforks : ∀ p, ¬e.Forks p)
      (hends : ¬e.Ends) :
      Effect k e ((k.deliver e).issueRead device pid).schedule
  | fork (runner pid : Pid) (hdevice : e.interrupt.device? = none) (hop : ¬e.IsSemaphoreOp)
      (hcurrent : k.currentPid = some runner) (hfree : k.state pid = .uninitialized)
      (hforks : e.Forks pid) :
      Effect k e ((k.deliver e).createProcess pid)
  | kill (pid : Pid) (hdevice : e.interrupt.device? = none) (hop : ¬e.IsSemaphoreOp)
      (hcurrent : k.currentPid = some pid) (hends : e.Ends) :
      Effect k e ((k.deliver e).endProcess pid).schedule
  | wake (s : Sem) (runner pid : Pid) (next : List Pid) (hdevice : e.interrupt.device? = none)
      (hop : e.IsSemaphoreOp) (hR2 : e.R2 = (s : ℕ)) (hR3 : e.R3 ≠ 0)
      (hcurrent : k.currentPid = some runner) (hvalue : (k.semaphores s).value = 0#32)
      (hwaiting : (k.semaphores s).waiting = pid :: next) :
      Effect k e ((((k.deliver e).announceUp s).setSemaphore s
        { k.semaphores s with readyQueue := some next }).wake pid)
  | release (s : Sem) (runner : Pid) (hdevice : e.interrupt.device? = none)
      (hop : e.IsSemaphoreOp) (hR2 : e.R2 = (s : ℕ)) (hR3 : e.R3 ≠ 0)
      (hcurrent : k.currentPid = some runner)
      (hfree : (k.semaphores s).value ≠ 0#32 ∨ (k.semaphores s).waiting = []) :
      Effect k e (((k.deliver e).announceUp s).setSemaphore s (k.semaphores s).increment)
  | pass (s : Sem) (runner : Pid) (hdevice : e.interrupt.device? = none) (hop : e.IsSemaphoreOp)
      (hR2 : e.R2 = (s : ℕ)) (hR3 : e.R3 = 0) (hcurrent : k.currentPid = some runner)
      (hvalue : (k.semaphores s).value ≠ 0#32) :
      Effect k e (((k.deliver e).announceDown s).setSemaphore s (k.semaphores s).decrement)
  | wait (s : Sem) (pid : Pid) (hdevice : e.interrupt.device? = none) (hop : e.IsSemaphoreOp)
      (hR2 : e.R2 = (s : ℕ)) (hR3 : e.R3 = 0) (hvalue : (k.semaphores s).value = 0#32)
      (hcurrent : k.currentPid = some pid) :
      Effect k e (((k.deliver e).announceDown s).waitFor s pid).schedule
  | preempt (pid : Pid) (hdevice : e.interrupt.device? = none) (hop : ¬e.IsSemaphoreOp)
      (hcurrent : k.currentPid = some pid) (hclock : e.interrupt = .clockInterrupt)
      (hdue : quantum ≤ e.clock - k.currentQuantumStartTime) :
      Effect k e ((k.deliver e).preempt pid).schedule.restartQuantum
  | answer (device : Device) (pid : Pid) (hdevice : e.interrupt.device? = some device)
      (hop : ¬e.IsSemaphoreOp) (hR1 : e.R1 = (pid : ℕ)) (hrequest : pid ∈ k.requests device) :
      Effect k e ((k.deliver e).finishRead device pid).scheduleIfIdle

theorem handleUp_effect {k : RoundRobin} {e : Event} {s : Sem} {pid : Pid}
    (hdevice : e.interrupt.device? = none) (hop : e.IsSemaphoreOp) (hR2 : e.R2 = (s : ℕ))
    (hR3 : e.R3 ≠ 0) (hcurrent : k.currentPid = some pid) :
    Effect k e ((k.deliver e).handleUp s) := by
  have hsame : ((k.deliver e).announceUp s).semaphores = k.semaphores :=
    Core.deliver_semaphores k.toCore e
  rw [handleUp, hsame]
  rcases (k.semaphores s).up_cases with ⟨first, next, hvalue, hwaiting, hup⟩ | ⟨hfree, hup⟩
  · rw [hup]
    exact .wake s pid first next hdevice hop hR2 hR3 hcurrent hvalue hwaiting
  · rw [hup]
    exact .release s pid hdevice hop hR2 hR3 hcurrent hfree

theorem handleDown_effect {k : RoundRobin} {e : Event} {s : Sem} {pid : Pid}
    (hdevice : e.interrupt.device? = none) (hop : e.IsSemaphoreOp) (hR2 : e.R2 = (s : ℕ))
    (hR3 : e.R3 = 0) (hcurrent : k.currentPid = some pid) :
    ∃ k', (k.deliver e).handleDown s = some k' ∧ Effect k e k' := by
  have hsame : ((k.deliver e).announceDown s).semaphores = k.semaphores :=
    Core.deliver_semaphores k.toCore e
  have hcurrent' : ((k.deliver e).announceDown s).currentPid = some pid :=
    (Core.deliver_currentPid k.toCore e).trans hcurrent
  rw [handleDown, hsame]
  by_cases hvalue : (k.semaphores s).value = 0#32
  · rw [if_neg (not_not.mpr hvalue), hcurrent']
    exact ⟨_, rfl, .wait s pid hdevice hop hR2 hR3 hvalue hcurrent⟩
  · rw [if_pos hvalue]
    exact ⟨_, rfl, .pass s pid hdevice hop hR2 hR3 hcurrent hvalue⟩

theorem handleSemaphore_effect {k : RoundRobin} {e : Event} {s : Sem} {pid : Pid}
    (hdevice : e.interrupt.device? = none) (hop : e.IsSemaphoreOp) (hR2 : e.R2 = (s : ℕ))
    (hcurrent : k.currentPid = some pid) :
    ∃ k', (k.deliver e).handleSemaphore e.R2 e.R3 = some k' ∧ Effect k e k' := by
  rw [handleSemaphore, hR2, index?_coe, Option.bind_some]
  by_cases hR3 : e.R3 = 0
  · rw [if_neg (not_not.mpr hR3)]
    exact handleDown_effect hdevice hop hR2 hR3 hcurrent
  · rw [if_pos hR3]
    exact ⟨_, rfl, handleUp_effect hdevice hop hR2 hR3 hcurrent⟩

theorem handleTrap_effect {k : RoundRobin} {e : Event} (htrap : e.interrupt = .trap)
    (hlegal : k.toCore.Legal k.state e) :
    ∃ k', (k.deliver e).handleTrap e = some k' ∧ Effect k e k' := by
  have hdevice : e.interrupt.device? = none := by rw [htrap]; rfl
  obtain ⟨_, hevent⟩ := hlegal
  rw [htrap] at hevent
  obtain ⟨hbusy, hfork, hsem⟩ := hevent
  obtain ⟨pid, hpid⟩ := Option.ne_none_iff_exists'.mp hbusy
  have hcurrent : (k.deliver e).currentPid = some pid :=
    (Core.deliver_currentPid k.toCore e).trans hpid
  have hop : ∀ {code : ℤ}, e.R1 = code → code ≠ Trap.semaphoreOp → ¬e.IsSemaphoreOp :=
    fun hcode hne hop => hne (hcode.symm.trans hop.2)
  have hforks : e.R1 ≠ Trap.forkProgram → ∀ p, ¬e.Forks p := Event.not_forks_of_ne
  have hends : e.R1 ≠ Trap.endProgram → ¬e.Ends := Event.not_ends_of_ne
  rw [handleTrap]
  split_ifs with hread hwrite hkeyboard hcode hkill hsemaphore
  · refine ⟨_, ?_, .read .disk pid hdevice (hop hread (by decide)) hpid
      (hforks (by rw [hread]; decide)) (hends (by rw [hread]; decide))⟩
    rw [handleDiskRead, hcurrent]
    rfl
  · refine ⟨_, rfl, .quiet _ hdevice (hop hwrite (by decide)) ?_ (hforks (by rw [hwrite]; decide))
      (hends (by rw [hwrite]; decide)) ?_⟩
    · have hprint := Core.diskWrites_diskWriteReq (c := k.toCore) (e := e)
      rwa [← Core.deliver_currentPid k.toCore e, ← Core.deliver_clock k.toCore e] at hprint
    · intro hclock
      rw [htrap] at hclock
      cases hclock
  · refine ⟨_, ?_, .read .keyboard pid hdevice (hop hkeyboard (by decide)) hpid
      (hforks (by rw [hkeyboard]; decide)) (hends (by rw [hkeyboard]; decide))⟩
    rw [handleKeyboard, hcurrent]
    rfl
  · obtain ⟨child, hR2, hfree⟩ := hfork hcode
    refine ⟨_, ?_, .fork pid child hdevice (hop hcode (by decide)) hpid hfree ⟨htrap, hcode, hR2⟩⟩
    rw [handleFork, hR2, index?_coe]
    rfl
  · refine ⟨_, ?_, .kill pid hdevice (hop hkill (by decide)) hpid ⟨htrap, hkill⟩⟩
    rw [handleKill, hcurrent]
    rfl
  · obtain ⟨s, hR2⟩ := hsem hsemaphore
    exact handleSemaphore_effect hdevice ⟨htrap, hsemaphore⟩ hR2 hpid
  · refine ⟨_, rfl, .quiet _ hdevice (fun hop => hsemaphore hop.2) Core.diskWrites_deliver
      (hforks hcode) (hends hkill) ?_⟩
    intro hclock
    rw [htrap] at hclock
    cases hclock

/-- Every legal event is handled, in one of these ways. -/
theorem interrupt_effect {k : RoundRobin} {e : Event} (hlegal : k.toCore.Legal k.state e) :
    ∃ k', k.interrupt e = some k' ∧ Effect k e k' := by
  have hop : e.interrupt ≠ .trap → ¬e.IsSemaphoreOp := fun hne hop => hne hop.1
  cases hkind : e.interrupt with
  | trap =>
    obtain ⟨k', hk', heffect⟩ := handleTrap_effect hkind hlegal
    refine ⟨k', ?_, heffect⟩
    rw [interrupt, hkind]
    exact hk'
  | clockInterrupt =>
    have hdevice : e.interrupt.device? = none := by rw [hkind]; rfl
    have hquiet := hop (by rw [hkind]; decide)
    have hforks := Event.not_forks_of_interrupt (e := e) (by rw [hkind]; decide)
    have hends := Event.not_ends_of_interrupt (e := e) (by rw [hkind]; decide)
    rw [interrupt, hkind]
    refine ⟨_, rfl, ?_⟩
    change Effect k e (k.deliver e).handleClockInterrupt
    rw [handleClockInterrupt]
    have hcurrent : (k.deliver e).currentPid = k.currentPid := Core.deliver_currentPid k.toCore e
    have helapsed : (k.deliver e).elapsed = e.clock - k.currentQuantumStartTime :=
      Core.elapsed_deliver k.toCore e
    split
    · next hidle =>
      refine .quiet _ hdevice hquiet Core.diskWrites_deliver hforks hends fun _ hbusy => ?_
      exact absurd (hcurrent.symm.trans hidle) hbusy
    · next pid hpid =>
      rw [helapsed]
      split_ifs with hdue
      · exact .preempt pid hdevice hquiet (hcurrent.symm.trans hpid) hkind hdue
      · exact .quiet _ hdevice hquiet Core.diskWrites_deliver hforks hends fun _ _ => hdue
  | diskInterrupt =>
    obtain ⟨_, hevent⟩ := hlegal
    rw [hkind] at hevent
    obtain ⟨pid, hR1, hrequest⟩ := hevent
    have hdevice : e.interrupt.device? = some .disk := by rw [hkind]; rfl
    refine ⟨_, ?_, .answer .disk pid hdevice (hop (by rw [hkind]; decide)) hR1 hrequest⟩
    rw [interrupt, hkind]
    simp only [handleDiskInterrupt, hR1, index?_coe, Option.map_some]
    rfl
  | keyboardInterrupt =>
    obtain ⟨_, hevent⟩ := hlegal
    rw [hkind] at hevent
    obtain ⟨pid, hR1, hrequest⟩ := hevent
    have hdevice : e.interrupt.device? = some .keyboard := by rw [hkind]; rfl
    refine ⟨_, ?_, .answer .keyboard pid hdevice (hop (by rw [hkind]; decide)) hR1 hrequest⟩
    rw [interrupt, hkind]
    simp only [handleKeyboardInterrupt, hR1, index?_coe, Option.map_some]
    rfl

end RoundRobin

end SimOS
