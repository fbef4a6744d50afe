import SimOS.Kernel.RoundRobinSteps
import SimOS.Library.Run

/-!
# No process is lost in the round-robin kernel

Along every run the census of the kernel is in order, so every process that
lives is in exactly one place with the state that goes with it, and the two
counters are right.
-/

namespace SimOS

open Library

namespace RoundRobin

/-- The census with the given process on the CPU. -/
def census (k : RoundRobin) (run : Option Pid) : Census Unit :=
  k.toCore.census run (fun _ => k.readyQueue) k.state

/-- A single ready queue is a family of one. -/
theorem enqueueReady_unit (queue : List Pid) (pid : Pid) :
    (fun _ : Unit => enqueue queue pid) = Core.enqueueReady (fun _ => queue) () pid := by
  funext l
  rw [Core.enqueueReady, Function.update_self]

/-! ## The invariant -/

/-- What every handler leaves behind, and that nothing was ever dropped. -/
structure Inv (k : RoundRobin) : Prop where
  settled : k.toCore.Settled (fun _ : Unit => k.readyQueue) k.state
  discarded : k.discarded = []

/-- What `schedule` needs: nobody on the CPU, and everybody else in their place. -/
structure Vacant (k : RoundRobin) : Prop where
  census : (k.census none).Inv
  halted : k.halted = none
  discarded : k.discarded = []

theorem Vacant.not_blocked {k : RoundRobin} (hk : k.Vacant) :
    ∀ pid ∈ k.readyQueue, k.state pid ≠ .blocked := by
  intro pid hpid hblocked
  have hready := hk.census.state_of_mem (.ready ()) hpid
  exact ProcessState.noConfusion (hready.symm.trans hblocked)

theorem Vacant.scheduleCase {k : RoundRobin} (hk : k.Vacant) : ScheduleCase k k.schedule :=
  RoundRobin.scheduleCase hk.not_blocked

theorem ScheduleCase.inv {k k' : RoundRobin} (hk : k.Vacant) (h : ScheduleCase k k') : k'.Inv := by
  cases h with
  | finished hactive => exact ⟨.finished rfl hk.census hactive, hk.discarded⟩
  | deadlocked hactive hqueue hio =>
    exact ⟨.deadlocked rfl hk.census (fun _ => hqueue) hactive hio, hk.discarded⟩
  | idle hactive hqueue hio =>
    exact ⟨.idle rfl hk.halted hk.census (fun _ => hqueue) hio, hk.discarded⟩
  | runs pid next hactive hqueue =>
    refine ⟨.running rfl hk.halted ?_, hk.discarded⟩
    have hnext : (fun _ : Unit => next) =
        Function.update (fun _ : Unit => k.readyQueue) () next := by
      funext l
      rw [Function.update_self]
    change (Core.census _ (some pid) (fun _ : Unit => next) (k.setState pid .running).state).Inv
    rw [state_setState, hnext]
    exact Core.inv_dispatch hk.census () hqueue rfl rfl rfl rfl

theorem Vacant.schedule_inv {k : RoundRobin} (hk : k.Vacant) : k.schedule.Inv :=
  hk.scheduleCase.inv hk

theorem Inv.restartQuantum {k : RoundRobin} (hk : k.Inv) : k.restartQuantum.Inv := by
  rw [RoundRobin.restartQuantum]
  split
  · exact ⟨hk.settled.congr rfl rfl rfl (fun _ => rfl) rfl rfl, hk.discarded⟩
  · exact hk

/-- The census of a kernel that has not exited. -/
theorem Inv.census {k : RoundRobin} (hk : k.Inv) (hhalted : k.halted = none) :
    (k.census k.currentPid).Inv :=
  hk.settled.inv hhalted

/-! ## The handlers -/

theorem deliver_halted_of_none {k : RoundRobin} (hhalted : k.halted = none) (e : Event) :
    (k.toCore.deliver e).halted = none :=
  (Core.deliver_halted k.toCore e).trans hhalted

section Handlers

variable {k : RoundRobin} {e : Event} {pid : Pid}

theorem Inv.vacant_issueRead (hk : k.Inv) (hhalted : k.halted = none)
    (hdevice : e.interrupt.device? = none) (hcurrent : k.currentPid = some pid) (device : Device) :
    ((k.deliver e).issueRead device pid).Vacant := by
  have hinv := hk.census hhalted
  rw [hcurrent] at hinv
  refine ⟨?_, deliver_halted_of_none hhalted e, hk.discarded⟩
  rw [RoundRobin.census, state_issueRead]
  refine Core.inv_block_device hinv device ?_ (Core.deliver_semaphores _ _)
    (Core.deliver_activeProcesses _ _) ?_
  · change Function.update (k.toCore.deliver e).requests device
      ((k.toCore.deliver e).requests device ++ [pid]) = _
    rw [Core.deliver_requests_of_none hdevice]
  · change (k.toCore.deliver e).ioProcesses + 1 = _
    rw [Core.deliver_ioProcesses]

theorem Inv.fork (hk : k.Inv) (hhalted : k.halted = none) {runner : Pid}
    (hdevice : e.interrupt.device? = none) (hcurrent : k.currentPid = some runner)
    (hfree : k.state pid = .uninitialized) : ((k.deliver e).createProcess pid).Inv := by
  have hinv := hk.census hhalted
  rw [hcurrent] at hinv
  refine ⟨.running ((Core.deliver_currentPid _ _).trans hcurrent)
    (deliver_halted_of_none hhalted e) ?_, hk.discarded⟩
  rw [state_createProcess]
  change (Core.census _ _ (fun _ : Unit => enqueue k.readyQueue pid) _).Inv
  rw [enqueueReady_unit]
  refine Core.inv_fork hinv () hfree (Core.deliver_requests_of_none hdevice)
    (Core.deliver_semaphores _ _) ?_ (Core.deliver_ioProcesses _ _)
  change (k.toCore.deliver e).activeProcesses + 1 = _
  rw [Core.deliver_activeProcesses]

theorem Inv.vacant_endProcess (hk : k.Inv) (hhalted : k.halted = none)
    (hdevice : e.interrupt.device? = none) (hcurrent : k.currentPid = some pid) :
    ((k.deliver e).endProcess pid).Vacant := by
  have hinv := hk.census hhalted
  rw [hcurrent] at hinv
  refine ⟨?_, deliver_halted_of_none hhalted e, hk.discarded⟩
  rw [RoundRobin.census, state_endProcess]
  refine Core.inv_kill hinv (Core.deliver_requests_of_none hdevice) (Core.deliver_semaphores _ _)
    ?_ (Core.deliver_ioProcesses _ _)
  change (k.toCore.deliver e).activeProcesses - 1 = _
  rw [Core.deliver_activeProcesses]

theorem Inv.wake (hk : k.Inv) (hhalted : k.halted = none) {runner : Pid} {s : Sem}
    {next : List Pid} (hdevice : e.interrupt.device? = none) (hcurrent : k.currentPid = some runner)
    (hwaiting : (k.semaphores s).waiting = pid :: next) :
    ((((k.deliver e).announceUp s).setSemaphore s
      { k.semaphores s with readyQueue := some next }).wake pid).Inv := by
  have hinv := hk.census hhalted
  rw [hcurrent] at hinv
  refine ⟨.running ((Core.deliver_currentPid _ _).trans hcurrent)
    (deliver_halted_of_none hhalted e) ?_, hk.discarded⟩
  rw [state_wake]
  change (Core.census _ _ (fun _ : Unit => enqueue k.readyQueue pid) _).Inv
  rw [enqueueReady_unit]
  refine Core.inv_wake hinv () s hwaiting ?_ (Core.deliver_requests_of_none hdevice)
    (Core.deliver_activeProcesses _ _) (Core.deliver_ioProcesses _ _)
  change Function.update (k.toCore.deliver e).semaphores s _ = _
  rw [Core.deliver_semaphores]

/-- A semaphore operation that moves nobody. -/
theorem Inv.setSemaphore (hk : k.Inv) (hdevice : e.interrupt.device? = none) {s : Sem}
    {sem : Semaphore} (hwaiting : sem.waiting = (k.semaphores s).waiting) (message : Message) :
    (((k.deliver e).print message).setSemaphore s sem).Inv := by
  refine ⟨hk.settled.congr (Core.deliver_currentPid _ _) (Core.deliver_halted _ _)
    (Core.deliver_requests_of_none hdevice) (fun t => ?_) (Core.deliver_activeProcesses _ _)
    (Core.deliver_ioProcesses _ _), hk.discarded⟩
  change (Function.update (k.toCore.deliver e).semaphores s sem t).waiting = _
  rw [Core.deliver_semaphores, Core.waiting_update hwaiting]

theorem Inv.vacant_waitFor (hk : k.Inv) (hhalted : k.halted = none)
    (hdevice : e.interrupt.device? = none) (hcurrent : k.currentPid = some pid) (s : Sem) :
    (((k.deliver e).announceDown s).waitFor s pid).Vacant := by
  have hinv := hk.census hhalted
  rw [hcurrent] at hinv
  refine ⟨?_, deliver_halted_of_none hhalted e, hk.discarded⟩
  rw [RoundRobin.census, state_waitFor]
  refine Core.inv_block_semaphore hinv s ?_ (Core.deliver_requests_of_none hdevice)
    (Core.deliver_activeProcesses _ _) (Core.deliver_ioProcesses _ _)
  change Function.update (k.toCore.deliver e).semaphores s
    (((k.toCore.deliver e).semaphores s).enqueue pid) = _
  rw [Core.deliver_semaphores]

theorem Inv.vacant_preempt (hk : k.Inv) (hhalted : k.halted = none)
    (hdevice : e.interrupt.device? = none) (hcurrent : k.currentPid = some pid) :
    ((k.deliver e).preempt pid).Vacant := by
  have hinv := hk.census hhalted
  rw [hcurrent] at hinv
  refine ⟨?_, deliver_halted_of_none hhalted e, hk.discarded⟩
  rw [RoundRobin.census, state_preempt]
  change (Core.census _ _ (fun _ : Unit => enqueue k.readyQueue pid) _).Inv
  rw [enqueueReady_unit]
  exact Core.inv_preempt hinv () (Core.deliver_requests_of_none hdevice)
    (Core.deliver_semaphores _ _) (Core.deliver_activeProcesses _ _) (Core.deliver_ioProcesses _ _)

/-- Once a read is answered its process is ready, whoever is on the CPU. -/
theorem Inv.census_finishRead (hk : k.Inv) (hhalted : k.halted = none) {device : Device}
    (hdevice : e.interrupt.device? = some device) (hR1 : e.R1 = (pid : ℕ))
    (hrequest : pid ∈ k.requests device) :
    (((k.deliver e).finishRead device pid).census k.currentPid).Inv := by
  rw [RoundRobin.census, state_finishRead]
  change (Core.census _ _ (fun _ : Unit => enqueue k.readyQueue pid) _).Inv
  rw [enqueueReady_unit]
  refine Core.inv_answer (hk.census hhalted) () device hrequest
    (Core.deliver_requests_of_some hdevice hR1) (Core.deliver_semaphores _ _)
    (Core.deliver_activeProcesses _ _) ?_
  change (k.toCore.deliver e).ioProcesses - 1 = _
  rw [Core.deliver_ioProcesses]

/-- Once a read is answered `schedule` is called if the processor is idle, and
nothing more happens otherwise. -/
theorem Inv.answer_cases (hk : k.Inv) (hhalted : k.halted = none) {device : Device}
    (hdevice : e.interrupt.device? = some device) (hR1 : e.R1 = (pid : ℕ))
    (hrequest : pid ∈ k.requests device) {k₁ : RoundRobin}
    (hk₁ : k₁ = (k.deliver e).finishRead device pid) :
    (k.currentPid = none ∧ Vacant { k₁ with currentQuantumStartTime := k₁.clock } ∧
      k₁.scheduleIfIdle = schedule { k₁ with currentQuantumStartTime := k₁.clock }) ∨
    (k₁.Inv ∧ k₁.scheduleIfIdle = k₁) := by
  have hready := hk.census_finishRead hhalted hdevice hR1 hrequest
  rw [← hk₁] at hready
  have hhalted₁ : k₁.halted = none := by
    rw [hk₁]
    exact deliver_halted_of_none hhalted e
  have hdiscarded : k₁.discarded = [] := by
    rw [hk₁]
    exact hk.discarded
  have hcurrent : k₁.currentPid = k.currentPid := by
    rw [hk₁]
    exact Core.deliver_currentPid k.toCore e
  rw [scheduleIfIdle, hcurrent]
  cases hidle : k.currentPid with
  | none =>
    rw [hidle] at hready
    rw [if_pos rfl]
    exact .inl ⟨rfl, ⟨hready, hhalted₁, hdiscarded⟩, rfl⟩
  | some runner =>
    rw [hidle] at hready hcurrent
    rw [if_neg (Option.some_ne_none runner)]
    exact .inr ⟨⟨.running hcurrent hhalted₁ hready, hdiscarded⟩, rfl⟩

theorem Inv.answer (hk : k.Inv) (hhalted : k.halted = none) {device : Device}
    (hdevice : e.interrupt.device? = some device) (hR1 : e.R1 = (pid : ℕ))
    (hrequest : pid ∈ k.requests device) :
    ((k.deliver e).finishRead device pid).scheduleIfIdle.Inv := by
  rcases hk.answer_cases hhalted hdevice hR1 hrequest rfl with ⟨_, hvacant, heq⟩ | ⟨hkept, heq⟩
  · rw [heq]
    exact hvacant.schedule_inv
  · rw [heq]
    exact hkept

end Handlers

/-- Every way an event can go keeps the invariant. -/
theorem Effect.inv {k k' : RoundRobin} {e : Event} (hk : k.Inv) (hhalted : k.halted = none)
    (h : Effect k e k') : k'.Inv := by
  cases h with
  | quiet messages hdevice _ =>
    refine ⟨hk.settled.congr (Core.deliver_currentPid _ _) (Core.deliver_halted _ _)
      (Core.deliver_requests_of_none hdevice) (fun s => ?_) (Core.deliver_activeProcesses _ _)
      (Core.deliver_ioProcesses _ _), hk.discarded⟩
    exact congrArg (fun semaphores => (semaphores s).waiting) (Core.deliver_semaphores _ _)
  | read device pid hdevice _ hcurrent =>
    exact (hk.vacant_issueRead hhalted hdevice hcurrent device).schedule_inv
  | fork runner pid hdevice _ hcurrent hfree => exact hk.fork hhalted hdevice hcurrent hfree
  | kill pid hdevice _ hcurrent =>
    exact (hk.vacant_endProcess hhalted hdevice hcurrent).schedule_inv
  | wake s runner pid next hdevice _ _ _ hcurrent _ hwaiting =>
    exact hk.wake hhalted hdevice hcurrent hwaiting
  | release s runner hdevice _ _ _ _ _ =>
    exact hk.setSemaphore hdevice (Semaphore.waiting_increment _) _
  | pass s runner hdevice _ _ _ _ _ =>
    exact hk.setSemaphore hdevice (Semaphore.waiting_decrement _) _
  | wait s pid hdevice _ _ _ _ hcurrent =>
    exact (hk.vacant_waitFor hhalted hdevice hcurrent s).schedule_inv
  | preempt pid hdevice _ hcurrent =>
    exact (hk.vacant_preempt hhalted hdevice hcurrent).schedule_inv.restartQuantum
  | answer device pid hdevice _ hR1 hrequest => exact hk.answer hhalted hdevice hR1 hrequest

/-! ## Runs -/

/-- The kernel after `initialize_kernel`. -/
def Booted (k : RoundRobin) : Prop :=
  ∃ pid clock, (powerOn (some pid) clock).initializeKernel = some k

/-- A legal event and what its handler makes of it. -/
def Step (k : RoundRobin) (e : Event) (k' : RoundRobin) : Prop :=
  k.toCore.Legal k.state e ∧ k.interrupt e = some k'

/-- A run of the kernel. -/
def KernelRun : List (Event × RoundRobin) → RoundRobin → Prop :=
  Run Booted fun _ k e k' => k.Step e k'

/-- Every step has an effect. -/
theorem Step.effect {k k' : RoundRobin} {e : Event} (h : k.Step e k') : Effect k e k' := by
  obtain ⟨k₁, hk₁, heffect⟩ := interrupt_effect h.1
  rw [h.2, Option.some.injEq] at hk₁
  rw [hk₁]
  exact heffect

/-- The state `initialize_kernel` leaves behind. -/
def boot (pid : Pid) (clock : Word) : RoundRobin where
  toCore := (Core.powerOn (some pid) clock).initCounters
  processTable := Function.update (fun _ => { state := .uninitialized, totalCpuTimeUsed := 0#32 })
    pid { state := .running, totalCpuTimeUsed := 0#32 }
  readyQueue := []
  discarded := []

theorem booted_iff {k : RoundRobin} : k.Booted ↔ ∃ pid clock, k = boot pid clock := by
  refine exists_congr fun pid => exists_congr fun clock => ?_
  change some (boot pid clock) = some k ↔ _
  rw [Option.some.injEq]
  exact eq_comm

theorem state_boot (pid : Pid) (clock : Word) :
    (boot pid clock).state = Function.update (fun _ => .uninitialized) pid .running := by
  funext p
  by_cases hp : p = pid
  · simp [state, boot, hp]
  · simp [state, boot, Function.update_of_ne hp]

theorem legal_forkOne (clock : Word) :
    (boot 0 clock).toCore.Legal (boot 0 clock).state .forkOne := by
  refine ⟨rfl, Option.some_ne_none _, fun _ => ⟨1, rfl, ?_⟩, fun h => absurd h (by decide)⟩
  rw [state_boot]
  rfl

theorem Booted.inv {k : RoundRobin} (hk : k.Booted) : k.Inv := by
  obtain ⟨pid, clock, rfl⟩ := booted_iff.mp hk
  refine ⟨.running rfl rfl ?_, rfl⟩
  rw [state_boot]
  exact Core.inv_boot (fun _ => rfl) (fun _ => rfl) rfl rfl

theorem KernelRun.inv {h : List (Event × RoundRobin)} {k : RoundRobin} (hrun : KernelRun h k) :
    k.Inv :=
  Run.invariant (P := fun _ k => k.Inv) (fun _ hk => hk.inv)
    (fun _ _ _ _ _ ih hstep => hstep.effect.inv ih hstep.1.1) hrun

/-- No process is lost or duplicated: along every run each event is handled, and
until the kernel exits every live process is in exactly one place, once, with the
state of that place; the others are in none; the counters are right; and no
process was ever dropped from the ready queue. -/
theorem no_process_lost {h : List (Event × RoundRobin)} {k : RoundRobin} (hrun : KernelRun h k) :
    (∀ e, k.toCore.Legal k.state e → (k.interrupt e).isSome) ∧
    (k.halted = none →
      (∀ pid, k.state pid ≠ .uninitialized → ∃ place, k.state pid = Place.state (some place) ∧
        ∀ other, ((k.census k.currentPid).occupants other).count pid =
          if other = place then 1 else 0) ∧
      (∀ pid, k.state pid = .uninitialized →
        ∀ place, pid ∉ (k.census k.currentPid).occupants place) ∧
      k.activeProcesses = (Finset.univ.filter fun pid => k.state pid ≠ .uninitialized).card ∧
      k.ioProcesses = (k.requests .disk).length + (k.requests .keyboard).length) ∧
    k.discarded = [] := by
  refine ⟨fun e hlegal => ?_, fun hhalted => ?_, hrun.inv.discarded⟩
  · obtain ⟨k', hk', _⟩ := interrupt_effect hlegal
    rw [hk']
    rfl
  · exact (hrun.inv.census hhalted).accounted

/-- After a fork two processes live. -/
theorem no_process_lost_forkOne :
    (Finset.univ.filter fun pid =>
      (((boot 0 0#32).deliver .forkOne).createProcess 1).state pid ≠ .uninitialized).card = 2 := by
  have hrun : KernelRun [(.forkOne, ((boot 0 0#32).deliver .forkOne).createProcess 1)]
      (((boot 0 0#32).deliver .forkOne).createProcess 1) :=
    .next (.start (booted_iff.mpr ⟨0, 0#32, rfl⟩)) ⟨legal_forkOne 0#32, rfl⟩
  have hactive := ((no_process_lost hrun).2.1 rfl).2.2.1
  exact (Int.ofNat.inj hactive).symm

end RoundRobin

end SimOS
