import SimOS.Kernel.Multilevel
import SimOS.Kernel.Census

/-!
# What one event does to the multilevel kernel

`ScheduleCase` and `Effect` list the ways `schedule` and an event can go, as
they do for the round-robin kernel. A process joins the ready queue of the level
`level` that its priority names.
-/

namespace SimOS

namespace Multilevel

/-! ## States and priorities after each handler -/

theorem state_setState (k : Multilevel) (pid : Pid) (st : ProcessState) :
    (k.setState pid st).state = Function.update k.state pid st := by
  funext p
  by_cases hp : p = pid
  · rw [hp, Function.update_self]
    simp [state, setState, modifyEntry]
  · rw [Function.update_of_ne hp]
    simp [state, setState, modifyEntry, Function.update_of_ne hp]

theorem state_modifyEntry (k : Multilevel) (pid : Pid)
    {f : PriorityTableEntry → PriorityTableEntry} (hf : ∀ entry, (f entry).state = entry.state) :
    (k.modifyEntry pid f).state = k.state := by
  funext p
  by_cases hp : p = pid
  · simp [state, modifyEntry, hp, hf]
  · simp [state, modifyEntry, Function.update_of_ne hp]

theorem state_addCpuTime (k : Multilevel) (pid : Pid) : (k.addCpuTime pid).state = k.state :=
  state_modifyEntry k pid fun _ => rfl

theorem state_setPriority (k : Multilevel) (pid : Pid) (x : ℤ) :
    (k.setPriority pid x).state = k.state :=
  state_modifyEntry k pid fun _ => rfl

theorem priority_modifyEntry (k : Multilevel) (pid : Pid)
    {f : PriorityTableEntry → PriorityTableEntry}
    (hf : ∀ entry, (f entry).priority = entry.priority) :
    (k.modifyEntry pid f).priority = k.priority := by
  funext p
  by_cases hp : p = pid
  · simp [priority, modifyEntry, hp, hf]
  · simp [priority, modifyEntry, Function.update_of_ne hp]

theorem priority_setPriority (k : Multilevel) (pid : Pid) (x : ℤ) :
    (k.setPriority pid x).priority = Function.update k.priority pid x := by
  funext p
  by_cases hp : p = pid
  · rw [hp, Function.update_self]
    simp [priority, setPriority, modifyEntry]
  · rw [Function.update_of_ne hp]
    simp [priority, setPriority, modifyEntry, Function.update_of_ne hp]

theorem priority_setState (k : Multilevel) (pid : Pid) (st : ProcessState) :
    (k.setState pid st).priority = k.priority :=
  priority_modifyEntry k pid fun _ => rfl

theorem priority_addCpuTime (k : Multilevel) (pid : Pid) :
    (k.addCpuTime pid).priority = k.priority :=
  priority_modifyEntry k pid fun _ => rfl

/-- Writing back the priority a process has changes nothing. -/
theorem setPriority_priority (k : Multilevel) (pid : Pid) :
    k.setPriority pid (k.priority pid) = k := by
  change { k with processTable := Function.update k.processTable pid (k.processTable pid) } = k
  rw [Function.update_eq_self]

/-- The priority of a process that blocks after so much of its quantum. -/
def raised (elapsed : Word) (x : ℤ) : ℤ :=
  if elapsed < quantum then if x < 4 then x + 1 else x else x

/-- The priority of a process that is preempted. -/
def lowered (x : ℤ) : ℤ := if 0 < x then x - 1 else x

theorem boost_eq (k : Multilevel) (pid : Pid) :
    k.boost pid = k.setPriority pid (raised k.elapsed (k.priority pid)) := by
  rw [boost, raised]
  split_ifs
  · rfl
  · exact (setPriority_priority k pid).symm
  · exact (setPriority_priority k pid).symm

theorem demote_eq (k : Multilevel) (pid : Pid) :
    k.demote pid = k.setPriority pid (lowered (k.priority pid)) := by
  rw [demote, lowered]
  split_ifs
  · rfl
  · exact (setPriority_priority k pid).symm

theorem priority_boost (k : Multilevel) (pid : Pid) :
    (k.boost pid).priority =
      Function.update k.priority pid (raised k.elapsed (k.priority pid)) := by
  rw [boost_eq]
  exact priority_setPriority _ _ _

theorem priority_demote (k : Multilevel) (pid : Pid) :
    (k.demote pid).priority = Function.update k.priority pid (lowered (k.priority pid)) := by
  rw [demote_eq]
  exact priority_setPriority _ _ _

theorem state_boost (k : Multilevel) (pid : Pid) : (k.boost pid).state = k.state := by
  rw [boost_eq]
  exact state_setPriority _ _ _

theorem state_demote (k : Multilevel) (pid : Pid) : (k.demote pid).state = k.state := by
  rw [demote_eq]
  exact state_setPriority _ _ _

theorem state_issueRead (k : Multilevel) (device : Device) (pid : Pid) :
    (k.issueRead device pid).state = Function.update k.state pid .blocked :=
  (state_addCpuTime _ _).trans ((state_boost _ _).trans (state_setState _ _ _))

theorem state_createProcess (k : Multilevel) (pid : Pid) :
    (k.createProcess pid).state = Function.update k.state pid .ready :=
  state_setState _ _ _

theorem state_endProcess (k : Multilevel) (pid : Pid) :
    (k.endProcess pid).state = Function.update k.state pid .uninitialized :=
  (state_setPriority _ _ _).trans ((state_addCpuTime _ _).trans (state_setState _ _ _))

theorem state_waitFor (k : Multilevel) (s : Sem) (pid : Pid) :
    (k.waitFor s pid).state = Function.update k.state pid .blocked :=
  (state_addCpuTime _ _).trans ((state_boost _ _).trans (state_setState _ _ _))

theorem state_preempt (k : Multilevel) (pid : Pid) :
    (k.preempt pid).state = Function.update k.state pid .ready :=
  (state_demote _ _).trans ((state_addCpuTime _ _).trans (state_setState _ _ _))

theorem state_finishRead (k : Multilevel) (device : Device) (pid : Pid) :
    (k.finishRead device pid).state = Function.update k.state pid .ready :=
  state_setState _ _ _

theorem raised_mem {elapsed : Word} {x : ℤ} (hx : 0 ≤ x ∧ x ≤ 4) :
    0 ≤ raised elapsed x ∧ raised elapsed x ≤ 4 := by
  rw [raised]
  split_ifs <;> omega

theorem lowered_mem {x : ℤ} (hx : 0 ≤ x ∧ x ≤ 4) : 0 ≤ lowered x ∧ lowered x ≤ 4 := by
  rw [lowered]
  split_ifs <;> omega

theorem priority_issueRead (k : Multilevel) (device : Device) (pid : Pid) :
    (k.issueRead device pid).priority =
      Function.update k.priority pid (raised k.elapsed (k.priority pid)) := by
  have hstate : ((k.print (.issuesRead device k.clock pid)).setState pid .blocked).priority =
      k.priority := priority_setState _ _ _
  refine (priority_addCpuTime _ _).trans ((priority_boost _ _).trans ?_)
  rw [hstate]
  rfl

theorem priority_waitFor (k : Multilevel) (s : Sem) (pid : Pid) :
    (k.waitFor s pid).priority =
      Function.update k.priority pid (raised k.elapsed (k.priority pid)) := by
  have hstate : ∀ sem, ((k.setState pid .blocked).setSemaphore s sem).priority = k.priority :=
    fun _ => priority_setState _ _ _
  refine (priority_addCpuTime _ _).trans ((priority_boost _ _).trans ?_)
  rw [hstate]
  rfl

theorem priority_endProcess (k : Multilevel) (pid : Pid) :
    (k.endProcess pid).priority = Function.update k.priority pid 0 := by
  have hsame : ((k.setState pid .uninitialized).addCpuTime pid).priority = k.priority :=
    (priority_addCpuTime _ _).trans (priority_setState _ _ _)
  refine (priority_setPriority _ _ _).trans ?_
  rw [hsame]

theorem priority_preempt (k : Multilevel) (pid : Pid) :
    (k.preempt pid).priority = Function.update k.priority pid (lowered (k.priority pid)) := by
  have hsame : ((k.setState pid .ready).addCpuTime pid).priority = k.priority :=
    (priority_addCpuTime _ _).trans (priority_setState _ _ _)
  refine (priority_demote _ _).trans ?_
  rw [hsame]

/-! ## The rest of the kernel after the handlers that change a priority -/

theorem toCore_issueRead (k : Multilevel) (device : Device) (pid : Pid) :
    (k.issueRead device pid).toCore =
      { (k.toCore.print (.issuesRead device k.clock pid)).readReq device pid with
        ioProcesses := k.ioProcesses + 1
        currentQuantumStartTime := k.clock } := by
  simp only [issueRead, boost_eq]
  rfl

theorem readyQueues_issueRead (k : Multilevel) (device : Device) (pid : Pid) :
    (k.issueRead device pid).readyQueues = k.readyQueues := by
  simp only [issueRead, boost_eq]
  rfl

theorem discarded_issueRead (k : Multilevel) (device : Device) (pid : Pid) :
    (k.issueRead device pid).discarded = k.discarded := by
  simp only [issueRead, boost_eq]
  rfl

theorem toCore_waitFor (k : Multilevel) (s : Sem) (pid : Pid) :
    (k.waitFor s pid).toCore =
      { k.toCore with
        semaphores := Function.update k.semaphores s ((k.semaphores s).enqueue pid)
        currentQuantumStartTime := k.clock } := by
  simp only [waitFor, boost_eq]
  rfl

theorem readyQueues_waitFor (k : Multilevel) (s : Sem) (pid : Pid) :
    (k.waitFor s pid).readyQueues = k.readyQueues := by
  simp only [waitFor, boost_eq]
  rfl

theorem discarded_waitFor (k : Multilevel) (s : Sem) (pid : Pid) :
    (k.waitFor s pid).discarded = k.discarded := by
  simp only [waitFor, boost_eq]
  rfl

theorem toCore_preempt (k : Multilevel) (pid : Pid) : (k.preempt pid).toCore = k.toCore := by
  simp only [preempt, demote_eq]
  rfl

theorem readyQueues_preempt (k : Multilevel) (pid : Pid) :
    (k.preempt pid).readyQueues = k.readyQueues := by
  simp only [preempt, demote_eq]
  rfl

theorem discarded_preempt (k : Multilevel) (pid : Pid) :
    (k.preempt pid).discarded = k.discarded := by
  simp only [preempt, demote_eq]
  rfl

/-- Every priority is the index of a ready queue. -/
def Ranged (priority : Pid → ℤ) : Prop := ∀ pid, 0 ≤ priority pid ∧ priority pid ≤ 4

theorem Ranged.exists_level {priority : Pid → ℤ} (h : Ranged priority) (pid : Pid) :
    ∃ level : Fin 5, priority pid = (level : ℕ) := by
  obtain ⟨hlo, hhi⟩ := h pid
  exact ⟨⟨(priority pid).toNat, by omega⟩, by simp [Int.toNat_of_nonneg hlo]⟩

theorem Ranged.update {priority : Pid → ℤ} (h : Ranged priority) {pid : Pid} {x : ℤ}
    (hx : 0 ≤ x ∧ x ≤ 4) : Ranged (Function.update priority pid x) := by
  intro p
  by_cases hp : p = pid
  · rw [hp, Function.update_self]
    exact hx
  · rw [Function.update_of_ne hp]
    exact h p

/-! ## `schedule` -/

/-- The ways `schedule(queue_num)` can go when no process in the ready queues is
blocked: it runs the head of the highest queue that is not empty. -/
inductive ScheduleCase (k : Multilevel) (queueNum : Fin 5) : Multilevel → Prop
  | finished (hactive : k.activeProcesses = 0) :
      ScheduleCase k queueNum { k with toCore := k.toCore.exit .noMoreProcesses }
  | deadlocked (hactive : k.activeProcesses ≠ 0)
      (hempty : ∀ level ≤ queueNum, k.readyQueues level = []) (hio : k.ioProcesses = 0) :
      ScheduleCase k queueNum { k with toCore := k.toCore.exit .deadlockedSystem }
  | idle (hactive : k.activeProcesses ≠ 0)
      (hempty : ∀ level ≤ queueNum, k.readyQueues level = []) (hio : k.ioProcesses ≠ 0) :
      ScheduleCase k queueNum { k.print (.idle k.clock) with currentPid := none }
  | runs (level : Fin 5) (pid : Pid) (next : List Pid) (hactive : k.activeProcesses ≠ 0)
      (hlevel : level ≤ queueNum) (hqueue : k.readyQueues level = pid :: next)
      (habove : ∀ l, level < l → l ≤ queueNum → k.readyQueues l = []) :
      ScheduleCase k queueNum
        { (k.setState pid .running).print (.runs k.clock pid) with
          currentPid := some pid
          readyQueues := Function.update k.readyQueues level next }

/-- An empty queue passes on to the level below. -/
theorem ScheduleCase.descend {k k' : Multilevel} {queueNum below : Fin 5}
    (hbelow : (below : ℕ) + 1 = queueNum) (hqueue : k.readyQueues queueNum = [])
    (h : ScheduleCase k below k') : ScheduleCase k queueNum k' := by
  have hsplit : ∀ level ≤ queueNum, level ≤ below ∨ level = queueNum := by
    intro level hlevel
    rw [Fin.le_def] at hlevel
    rw [Fin.le_def, Fin.ext_iff]
    omega
  have hempty : (∀ level ≤ below, k.readyQueues level = []) →
      ∀ level ≤ queueNum, k.readyQueues level = [] := by
    intro hall level hlevel
    rcases hsplit level hlevel with hle | rfl
    · exact hall level hle
    · exact hqueue
  cases h with
  | finished hactive => exact .finished hactive
  | deadlocked hactive hall hio => exact .deadlocked hactive (hempty hall) hio
  | idle hactive hall hio => exact .idle hactive (hempty hall) hio
  | runs level pid next hactive hlevel hhead habove =>
    refine .runs level pid next hactive ?_ hhead fun l hlt hle => ?_
    · rw [Fin.le_def] at hlevel ⊢
      omega
    · rcases hsplit l hle with hbelow | rfl
      · exact habove l hlt hbelow
      · exact hqueue

/-- The induction is on the level: `schedule` calls itself one level down. -/
theorem scheduleCase {k : Multilevel}
    (hready : ∀ level, ∀ pid ∈ k.readyQueues level, k.state pid ≠ .blocked) (queueNum : Fin 5) :
    ScheduleCase k queueNum (k.schedule queueNum) := by
  obtain ⟨n, hn⟩ := queueNum
  induction n with
  | zero =>
    have hlow : ∀ level : Fin 5, level ≤ ⟨0, hn⟩ → level = ⟨0, hn⟩ := fun level h =>
      Fin.le_zero_iff.mp h
    rw [schedule]
    by_cases hactive : k.activeProcesses = 0
    · rw [if_pos hactive]
      exact .finished hactive
    · rw [if_neg hactive]
      split
      · next hqueue =>
        have hempty : ∀ level : Fin 5, level ≤ ⟨0, hn⟩ → k.readyQueues level = [] := by
          intro level h
          rw [hlow level h, hqueue]
        by_cases hio : k.ioProcesses = 0
        · rw [if_pos ⟨rfl, hio⟩]
          exact .deadlocked hactive hempty hio
        · rw [if_neg fun h => hio h.2, dif_neg (show ¬(⟨0, hn⟩ : Fin 5) ≠ 0 from not_not.mpr rfl)]
          exact .idle hactive hempty hio
      · next pid next hqueue =>
        rw [if_neg (hready _ pid (by rw [hqueue]; exact List.mem_cons_self))]
        exact .runs _ pid next hactive (le_refl _) hqueue fun l hlt hle =>
          absurd hlt (not_lt.mpr hle)
  | succ n ih =>
    have hne : (⟨n + 1, hn⟩ : Fin 5) ≠ 0 := by
      rw [ne_eq, Fin.ext_iff]
      exact Nat.succ_ne_zero n
    rw [schedule]
    by_cases hactive : k.activeProcesses = 0
    · rw [if_pos hactive]
      exact .finished hactive
    · rw [if_neg hactive]
      split
      · next hqueue =>
        rw [if_neg fun h => hne h.1, dif_pos hne]
        -- an empty queue passes the search on to the level below
        exact (ih (by omega)).descend rfl hqueue
      · next pid next hqueue =>
        rw [if_neg (hready _ pid (by rw [hqueue]; exact List.mem_cons_self))]
        exact .runs _ pid next hactive (le_refl _) hqueue fun l hlt hle =>
          absurd hlt (not_lt.mpr hle)

/-- With nothing ready above the lowest level `schedule` goes down to it. -/
theorem schedule_of_low {k : Multilevel} (hhigh : ∀ level, level ≠ 0 → k.readyQueues level = [])
    (queueNum : Fin 5) : k.schedule queueNum = k.schedule 0 := by
  obtain ⟨n, hn⟩ := queueNum
  induction n with
  | zero => rfl
  | succ n ih =>
    have hne : (⟨n + 1, hn⟩ : Fin 5) ≠ 0 := by
      rw [ne_eq, Fin.ext_iff]
      exact Nat.succ_ne_zero n
    conv_lhs => rw [schedule]
    by_cases hactive : k.activeProcesses = 0
    · rw [if_pos hactive]
      conv_rhs => rw [schedule, if_pos hactive]
    · rw [if_neg hactive]
      split
      · rw [if_neg fun h => hne h.1, dif_pos hne]
        exact ih (by omega)
      · next pid next hqueue =>
        rw [hhigh _ hne] at hqueue
        cases hqueue

/-- The kernel once `pid`, the head of the queue of `level`, was dispatched. -/
def dispatchAt (k : Multilevel) (level : Fin 5) (pid : Pid) (next : List Pid) : Multilevel :=
  { (k.setState pid .running).print (.runs k.clock pid) with
    currentPid := some pid
    readyQueues := Function.update k.readyQueues level next }

/-- `schedule` at the lowest level, when its queue is empty. -/
theorem schedule_zero_nil {k : Multilevel} (hactive : k.activeProcesses ≠ 0)
    (hqueue : k.readyQueues 0 = []) :
    k.schedule 0 =
      if k.ioProcesses = 0 then { k with toCore := k.toCore.exit .deadlockedSystem }
      else { k.print (.idle k.clock) with currentPid := none } := by
  rw [schedule, if_neg hactive]
  split
  · by_cases hio : k.ioProcesses = 0
    · rw [if_pos ⟨rfl, hio⟩, if_pos hio]
    · rw [if_neg fun h => hio h.2, dif_neg (not_not.mpr rfl), if_neg hio]
  · next pid next hcons =>
    rw [hqueue] at hcons
    cases hcons

/-- `schedule` at an empty queue, from which it goes down a level. -/
theorem schedule_nil {k : Multilevel} {queueNum : Fin 5} (hactive : k.activeProcesses ≠ 0)
    (hqueue : k.readyQueues queueNum = []) : k.schedule queueNum =
      if (queueNum : ℕ) = 0 ∧ k.ioProcesses = 0 then
        { k with toCore := k.toCore.exit .deadlockedSystem }
      else if (queueNum : ℕ) ≠ 0 then
        k.schedule ⟨Nat.pred queueNum, Nat.lt_of_le_of_lt (Nat.pred_le _) queueNum.isLt⟩
      else { k.print (.idle k.clock) with currentPid := none } := by
  conv_lhs => rw [schedule, if_neg hactive]
  simp only [Fin.val_eq_zero_iff, ne_eq]
  split
  · rfl
  · next hcons => cases hqueue.symm.trans hcons

/-- `schedule` at a queue that has a head. -/
theorem schedule_cons {k : Multilevel} {queueNum : Fin 5} (hactive : k.activeProcesses ≠ 0)
    {pid : Pid} {next : List Pid} (hqueue : k.readyQueues queueNum = pid :: next) :
    k.schedule queueNum =
      if k.state pid = .blocked then
        { k with
          readyQueues := Function.update k.readyQueues queueNum next
          discarded := k.discarded ++ [pid] }.schedule queueNum
      else k.dispatchAt queueNum pid next := by
  conv_lhs => rw [schedule, if_neg hactive]
  split
  · next hnil => cases hqueue.symm.trans hnil
  · next pid' next' hcons =>
    obtain ⟨rfl, rfl⟩ := List.cons.inj (hqueue.symm.trans hcons)
    rfl

/-! ## Events -/

/-- The kernel once the hardware has delivered the event. -/
def deliver (k : Multilevel) (e : Event) : Multilevel := { k with toCore := k.toCore.deliver e }

/-- The ways an event can go. -/
inductive Effect (k : Multilevel) (e : Event) : Multilevel → Prop
  | quiet (messages : List Message) (hdevice : e.interrupt.device? = none)
      (hop : ¬e.IsSemaphoreOp) (hmessages : Core.DiskWrites messages)
      (hforks : ∀ p, ¬e.Forks p) (hends : ¬e.Ends) :
      Effect k e { k.deliver e with output := messages }
  | read (device : Device) (pid : Pid) (hdevice : e.interrupt.device? = none)
      (hop : ¬e.IsSemaphoreOp) (hcurrent : k.currentPid = some pid) (hforks : ∀ p, ¬e.Forks p)
      (hends : ¬e.Ends) :
      Effect k e (((k.deliver e).issueRead device pid).schedule 4)
  | fork (runner pid : Pid) (level : Fin 5) (hdevice : e.interrupt.device? = none)
      (hop : ¬e.IsSemaphoreOp) (hcurrent : k.currentPid = some runner)
      (hfree : k.state pid = .uninitialized) (hlevel : k.priority pid = (level : ℕ))
      (hforks : e.Forks pid) :
      Effect k e (((k.deliver e).createProcess pid).enqueueAt level pid)
  | kill (pid : Pid) (hdevice : e.interrupt.device? = none) (hop : ¬e.IsSemaphoreOp)
      (hcurrent : k.currentPid = some pid) (hends : e.Ends) :
      Effect k e (((k.deliver e).endProcess pid).schedule 4)
  | wake (s : Sem) (runner pid : Pid) (next : List Pid) (level : Fin 5)
      (hdevice : e.interrupt.device? = none) (hop : e.IsSemaphoreOp) (hR2 : e.R2 = (s : ℕ))
      (hR3 : e.R3 ≠ 0) (hcurrent : k.currentPid = some runner)
      (hvalue : (k.semaphores s).value = 0#32) (hwaiting : (k.semaphores s).waiting = pid :: next)
      (hlevel : k.priority pid = (level : ℕ)) :
      Effect k e (((((k.deliver e).announceUp s).setSemaphore s
        { k.semaphores s with readyQueue := some next }).setState pid .ready).enqueueAt level pid)
  | release (s : Sem) (runner : Pid) (hdevice : e.interrupt.device? = none)
      (hop : e.IsSemaphoreOp) (hR2 : e.R2 = (s : ℕ)) (hR3 : e.R3 ≠ 0)
      (hcurrent : k.currentPid = some runner)
      (hfree : (k.semaphores s).value ≠ 0#32 ∨ (k.semaphores s).waiting = []) :
      Effect k e (((k.deliver e).announceUp s).setSemaphore s (k.semaphores s).increment)
  | pass (s : Sem) (runner : Pid) (hdevice : e.interrupt.device? = none) (hop : e.IsSemaphoreOp)
      (hR2 : e.R2 = (s : ℕ)) (hR3 : e.R3 = 0) (hcurrent : k.currentPid = some runner)
      (hvalue : (k.semaphores s).value ≠ 0#32) :
      Effect k e (((k.deliver e).announceDown s).setSemaphore s (k.semaphores s).decrement)
  | wait (s : Sem) (pid : Pid) (hdevice : e.interrupt.device? = none) (hop : e.IsSemaphoreOp)
      (hR2 : e.R2 = (s : ℕ)) (hR3 : e.R3 = 0) (hvalue : (k.semaphores s).value = 0#32)
      (hcurrent : k.currentPid = some pid) :
      Effect k e ((((k.deliver e).announceDown s).waitFor s pid).schedule 4)
  | preempt (pid : Pid) (level : Fin 5) (hdevice : e.interrupt.device? = none)
      (hop : ¬e.IsSemaphoreOp) (hcurrent : k.currentPid = some pid)
      (hlevel : ((k.deliver e).preempt pid).priority pid = (level : ℕ))
      (hclock : e.interrupt = .clockInterrupt) :
      Effect k e ((((k.deliver e).preempt pid).enqueueAt level pid).schedule 4).restartQuantum
  | answer (device : Device) (pid : Pid) (level : Fin 5)
      (hdevice : e.interrupt.device? = some device) (hop : ¬e.IsSemaphoreOp)
      (hR1 : e.R1 = (pid : ℕ)) (hrequest : pid ∈ k.requests device)
      (hlevel : k.priority pid = (level : ℕ)) :
      Effect k e (((k.deliver e).finishRead device pid).enqueueAt level pid).scheduleIfIdle

theorem enqueueReady_eq {k : Multilevel} {pid : Pid} {level : Fin 5}
    (hlevel : k.priority pid = (level : ℕ)) :
    k.enqueueReady pid = some (k.enqueueAt level pid) := by
  rw [enqueueReady, hlevel, index?_coe]
  rfl

theorem handleUp_effect {k : Multilevel} {e : Event} {s : Sem} {pid : Pid}
    (hrange : Ranged k.priority) (hdevice : e.interrupt.device? = none) (hop : e.IsSemaphoreOp)
    (hR2 : e.R2 = (s : ℕ)) (hR3 : e.R3 ≠ 0) (hcurrent : k.currentPid = some pid) :
    ∃ k', (k.deliver e).handleUp s = some k' ∧ Effect k e k' := by
  have hsame : ((k.deliver e).announceUp s).semaphores = k.semaphores :=
    Core.deliver_semaphores k.toCore e
  rw [handleUp, hsame]
  rcases (k.semaphores s).up_cases with ⟨first, next, hvalue, hwaiting, hup⟩ | ⟨hfree, hup⟩
  · obtain ⟨level, hlevel⟩ := hrange.exists_level first
    rw [hup]
    refine ⟨_, enqueueReady_eq ?_, .wake s pid first next level hdevice hop hR2 hR3 hcurrent hvalue
      hwaiting hlevel⟩
    rw [priority_setState]
    exact hlevel
  · rw [hup]
    exact ⟨_, rfl, .release s pid hdevice hop hR2 hR3 hcurrent hfree⟩

theorem handleDown_effect {k : Multilevel} {e : Event} {s : Sem} {pid : Pid}
    (hdevice : e.interrupt.device? = none) (hop : e.IsSemaphoreOp) (hR2 : e.R2 = (s : ℕ))
    (hR3 : e.R3 = 0) (hcurrent : k.currentPid = some pid) :
    ∃ k', (k.deliver e).handleDown s = some k' ∧ Effect k e k' := by
  have hsame : ((k.deliver e).announceDown s).semaphores = k.semaphores :=
    Core.deliver_semaphores k.toCore e
  have hcurrent' : ((k.deliver e).announceDown s).currentPid = some pid :=
    (Core.deliver_currentPid k.toCore e).trans hcurrent
  rw [handleDown, hsame]
  by_cases hvalue : (k.semaphores s).value = 0#32
  · rw [if_neg (not_not.mpr hvalue), hcurrent']
    exact ⟨_, rfl, .wait s pid hdevice hop hR2 hR3 hvalue hcurrent⟩
  · rw [if_pos hvalue]
    exact ⟨_, rfl, .pass s pid hdevice hop hR2 hR3 hcurrent hvalue⟩

theorem handleSemaphore_effect {k : Multilevel} {e : Event} {s : Sem} {pid : Pid}
    (hrange : Ranged k.priority) (hdevice : e.interrupt.device? = none) (hop : e.IsSemaphoreOp)
    (hR2 : e.R2 = (s : ℕ)) (hcurrent : k.currentPid = some pid) :
    ∃ k', (k.deliver e).handleSemaphore e.R2 e.R3 = some k' ∧ Effect k e k' := by
  rw [handleSemaphore, hR2, index?_coe, Option.bind_some]
  by_cases hR3 : e.R3 = 0
  · rw [if_neg (not_not.mpr hR3)]
    exact handleDown_effect hdevice hop hR2 hR3 hcurrent
  · rw [if_pos hR3]
    exact handleUp_effect hrange hdevice hop hR2 hR3 hcurrent

theorem handleTrap_effect {k : Multilevel} {e : Event} (hrange : Ranged k.priority)
    (htrap : e.interrupt = .trap) (hlegal : k.toCore.Legal k.state e) :
    ∃ k', (k.deliver e).handleTrap e = some k' ∧ Effect k e k' := by
  have hdevice : e.interrupt.device? = none := by rw [htrap]; rfl
  obtain ⟨_, hevent⟩ := hlegal
  rw [htrap] at hevent
  obtain ⟨hbusy, hfork, hsem⟩ := hevent
  obtain ⟨pid, hpid⟩ := Option.ne_none_iff_exists'.mp hbusy
  have hcurrent : (k.deliver e).currentPid = some pid :=
    (Core.deliver_currentPid k.toCore e).trans hpid
  have hop : ∀ {code : ℤ}, e.R1 = code → code ≠ Trap.semaphoreOp → ¬e.IsSemaphoreOp :=
    fun hcode hne hop => hne (hcode.symm.trans hop.2)
  have hforks : e.R1 ≠ Trap.forkProgram → ∀ p, ¬e.Forks p := Event.not_forks_of_ne
  have hends : e.R1 ≠ Trap.endProgram → ¬e.Ends := Event.not_ends_of_ne
  rw [handleTrap]
  split_ifs with hread hwrite hkeyboard hcode hkill hsemaphore
  · refine ⟨_, ?_, .read .disk pid hdevice (hop hread (by decide)) hpid
      (hforks (by rw [hread]; decide)) (hends (by rw [hread]; decide))⟩
    rw [handleDiskRead, hcurrent]
    rfl
  · refine ⟨_, rfl, .quiet _ hdevice (hop hwrite (by decide)) ?_ (hforks (by rw [hwrite]; decide))
      (hends (by rw [hwrite]; decide))⟩
    have hprint := Core.diskWrites_diskWriteReq (c := k.toCore) (e := e)
    rwa [← Core.deliver_currentPid k.toCore e, ← Core.deliver_clock k.toCore e] at hprint
  · refine ⟨_, ?_, .read .keyboard pid hdevice (hop hkeyboard (by decide)) hpid
      (hforks (by rw [hkeyboard]; decide)) (hends (by rw [hkeyboard]; decide))⟩
    rw [handleKeyboard, hcurrent]
    rfl
  · obtain ⟨child, hR2, hfree⟩ := hfork hcode
    obtain ⟨level, hlevel⟩ := hrange.exists_level child
    refine ⟨_, ?_, .fork pid child level hdevice (hop hcode (by decide)) hpid hfree hlevel
      ⟨htrap, hcode, hR2⟩⟩
    have hsame : ((k.deliver e).createProcess child).priority = k.priority :=
      priority_setState _ _ _
    rw [handleFork, hR2, index?_coe, Option.bind_some, enqueueReady_eq (by rw [hsame, hlevel])]
  · refine ⟨_, ?_, .kill pid hdevice (hop hkill (by decide)) hpid ⟨htrap, hkill⟩⟩
    rw [handleKill, hcurrent]
    rfl
  · obtain ⟨s, hR2⟩ := hsem hsemaphore
    exact handleSemaphore_effect hrange hdevice ⟨htrap, hsemaphore⟩ hR2 hpid
  · exact ⟨_, rfl, .quiet _ hdevice (fun hop => hsemaphore hop.2) Core.diskWrites_deliver
      (hforks hcode) (hends hkill)⟩

theorem finishRead_effect {k : Multilevel} {e : Event} {device : Device} {pid : Pid}
    (hrange : Ranged k.priority) (hdevice : e.interrupt.device? = some device)
    (hop : ¬e.IsSemaphoreOp) (hR1 : e.R1 = (pid : ℕ)) (hrequest : pid ∈ k.requests device) :
    ∃ k', (((k.deliver e).finishRead device pid).enqueueReady pid).map scheduleIfIdle = some k' ∧
      Effect k e k' := by
  obtain ⟨level, hlevel⟩ := hrange.exists_level pid
  have hsame : ((k.deliver e).finishRead device pid).priority = k.priority :=
    priority_setState _ _ _
  rw [enqueueReady_eq (by rw [hsame, hlevel])]
  exact ⟨_, rfl, .answer device pid level hdevice hop hR1 hrequest hlevel⟩

/-- Every legal event is handled, in one of these ways. -/
theorem interrupt_effect {k : Multilevel} {e : Event} (hrange : Ranged k.priority)
    (hlegal : k.toCore.Legal k.state e) : ∃ k', k.interrupt e = some k' ∧ Effect k e k' := by
  have hop : e.interrupt ≠ .trap → ¬e.IsSemaphoreOp := fun hne hop => hne hop.1
  cases hkind : e.interrupt with
  | trap =>
    obtain ⟨k', hk', heffect⟩ := handleTrap_effect hrange hkind hlegal
    refine ⟨k', ?_, heffect⟩
    rw [interrupt, hkind]
    exact hk'
  | clockInterrupt =>
    have hdevice : e.interrupt.device? = none := by rw [hkind]; rfl
    have hquiet := hop (by rw [hkind]; decide)
    have hforks := Event.not_forks_of_interrupt (e := e) (by rw [hkind]; decide)
    have hends := Event.not_ends_of_interrupt (e := e) (by rw [hkind]; decide)
    have hcurrent : (k.deliver e).currentPid = k.currentPid := Core.deliver_currentPid k.toCore e
    rw [interrupt, hkind]
    change ∃ k', (k.deliver e).handleClockInterrupt = some k' ∧ Effect k e k'
    rw [handleClockInterrupt]
    split
    · exact ⟨_, rfl, .quiet _ hdevice hquiet Core.diskWrites_deliver hforks hends⟩
    · next pid hpid =>
      split_ifs
      · have hpreempt : Ranged ((k.deliver e).preempt pid).priority := by
          rw [priority_preempt]
          exact hrange.update (lowered_mem (hrange pid))
        obtain ⟨level, hlevel⟩ := hpreempt.exists_level pid
        refine ⟨_, ?_, .preempt pid level hdevice hquiet (hcurrent.symm.trans hpid) hlevel hkind⟩
        rw [enqueueReady_eq hlevel]
        rfl
      · exact ⟨_, rfl, .quiet _ hdevice hquiet Core.diskWrites_deliver hforks hends⟩
  | diskInterrupt =>
    obtain ⟨_, hevent⟩ := hlegal
    rw [hkind] at hevent
    obtain ⟨pid, hR1, hrequest⟩ := hevent
    rw [interrupt, hkind]
    change ∃ k', (k.deliver e).handleDiskInterrupt e.R1 = some k' ∧ _
    rw [handleDiskInterrupt, hR1, index?_coe, Option.bind_some]
    exact finishRead_effect hrange (by rw [hkind]; rfl) (hop (by rw [hkind]; decide)) hR1 hrequest
  | keyboardInterrupt =>
    obtain ⟨_, hevent⟩ := hlegal
    rw [hkind] at hevent
    obtain ⟨pid, hR1, hrequest⟩ := hevent
    rw [interrupt, hkind]
    change ∃ k', (k.deliver e).handleKeyboardInterrupt e.R1 = some k' ∧ _
    rw [handleKeyboardInterrupt, hR1, index?_coe, Option.bind_some]
    exact finishRead_effect hrange (by rw [hkind]; rfl) (hop (by rw [hkind]; decide)) hR1 hrequest

end Multilevel

end SimOS
