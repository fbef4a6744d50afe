import SimOS.Kernel.MultilevelSteps
import SimOS.Library.Run

/-!
# The ready queues of the multilevel kernel

Along every run the census is in order, every priority is the index of a ready
queue, and every ready process is in the queue its priority names. So `schedule`
runs a process that no ready process outranks, and seniority in the queues says
that it is the one that has been ready longest among its peers.
-/

namespace SimOS

open Library

namespace Multilevel

/-- The census with the given process on the CPU. -/
def census (k : Multilevel) (run : Option Pid) : Census (Fin 5) :=
  k.toCore.census run k.readyQueues k.state

/-! ## Ready processes are in the queue of their priority -/

/-- Every process in a ready queue has its level as its priority. -/
def Levelled (queues : Fin 5 → List Pid) (priority : Pid → ℤ) : Prop :=
  ∀ level, ∀ pid ∈ queues level, priority pid = (level : ℕ)

theorem Levelled.update {queues : Fin 5 → List Pid} {priority : Pid → ℤ}
    (h : Levelled queues priority) {pid : Pid} (hpid : ∀ level, pid ∉ queues level) (x : ℤ) :
    Levelled queues (Function.update priority pid x) := by
  intro level p hp
  have hne : p ≠ pid := by
    rintro rfl
    exact hpid level hp
  rw [Function.update_of_ne hne]
  exact h level p hp

theorem Levelled.enqueue {queues : Fin 5 → List Pid} {priority : Pid → ℤ}
    (h : Levelled queues priority) {pid : Pid} {level : Fin 5}
    (hlevel : priority pid = (level : ℕ)) :
    Levelled (Core.enqueueReady queues level pid) priority := by
  intro l p hp
  rw [Core.enqueueReady] at hp
  by_cases hl : l = level
  · subst hl
    rw [Function.update_self, SimOS.enqueue, List.mem_append, List.mem_singleton] at hp
    rcases hp with hp | rfl
    · exact h l p hp
    · exact hlevel
  · rw [Function.update_of_ne hl] at hp
    exact h l p hp

theorem Levelled.dequeue {queues : Fin 5 → List Pid} {priority : Pid → ℤ}
    (h : Levelled queues priority) {pid : Pid} {next : List Pid} {level : Fin 5}
    (hqueue : queues level = pid :: next) :
    Levelled (Function.update queues level next) priority := by
  intro l p hp
  by_cases hl : l = level
  · subst hl
    rw [Function.update_self] at hp
    exact h l p (by rw [hqueue]; exact List.mem_cons_of_mem _ hp)
  · rw [Function.update_of_ne hl] at hp
    exact h l p hp

/-! ## The invariant -/

/-- What every handler leaves behind, that nothing was ever dropped, and that
the queues agree with the priorities. -/
structure Inv (k : Multilevel) : Prop where
  settled : k.toCore.Settled k.readyQueues k.state
  discarded : k.discarded = []
  ranged : Ranged k.priority
  levelled : Levelled k.readyQueues k.priority

/-- What `schedule` needs: nobody on the CPU, and everybody else in their place. -/
structure Vacant (k : Multilevel) : Prop where
  census : (k.census none).Inv
  halted : k.halted = none
  discarded : k.discarded = []
  ranged : Ranged k.priority
  levelled : Levelled k.readyQueues k.priority

theorem Vacant.scheduleCase {k : Multilevel} (hk : k.Vacant) :
    ScheduleCase k 4 (k.schedule 4) := by
  refine Multilevel.scheduleCase (fun level pid hpid hblocked => ?_) 4
  have hready := hk.census.state_of_mem (.ready level) hpid
  exact ProcessState.noConfusion (hready.symm.trans hblocked)

theorem ScheduleCase.inv {k k' : Multilevel} (hk : k.Vacant) (h : ScheduleCase k 4 k') :
    k'.Inv := by
  have hall : (∀ level ≤ (4 : Fin 5), k.readyQueues level = []) →
      ∀ level, k.readyQueues level = [] := fun hempty level => hempty level (Fin.le_last level)
  cases h with
  | finished hactive =>
    exact ⟨.finished rfl hk.census hactive, hk.discarded, hk.ranged, hk.levelled⟩
  | deadlocked hactive hempty hio =>
    exact ⟨.deadlocked rfl hk.census (hall hempty) hactive hio, hk.discarded, hk.ranged,
      hk.levelled⟩
  | idle hactive hempty hio =>
    exact ⟨.idle rfl hk.halted hk.census (hall hempty) hio, hk.discarded, hk.ranged, hk.levelled⟩
  | runs level pid next hactive _ hqueue _ =>
    have hpriority : (k.setState pid .running).priority = k.priority := priority_setState _ _ _
    refine ⟨.running rfl hk.halted ?_, hk.discarded, ?_, ?_⟩
    · change (Core.census _ (some pid) (Function.update k.readyQueues level next)
        (k.setState pid .running).state).Inv
      rw [state_setState]
      exact Core.inv_dispatch hk.census level hqueue rfl rfl rfl rfl
    · change Ranged (k.setState pid .running).priority
      rw [hpriority]
      exact hk.ranged
    · change Levelled (Function.update k.readyQueues level next) (k.setState pid .running).priority
      rw [hpriority]
      exact hk.levelled.dequeue hqueue

theorem Inv.restartQuantum {k : Multilevel} (hk : k.Inv) : k.restartQuantum.Inv := by
  rw [Multilevel.restartQuantum]
  split
  · exact ⟨hk.settled.congr rfl rfl rfl (fun _ => rfl) rfl rfl, hk.discarded, hk.ranged,
      hk.levelled⟩
  · exact hk

/-- The census of a kernel that has not exited. -/
theorem Inv.census {k : Multilevel} (hk : k.Inv) (hhalted : k.halted = none) :
    (k.census k.currentPid).Inv :=
  hk.settled.inv hhalted

/-- A process that is not ready is in no ready queue. -/
theorem not_mem_ready {k : Multilevel} {run : Option Pid} (h : (k.census run).Inv) {pid : Pid}
    (hpid : k.state pid ≠ .ready) (level : Fin 5) : pid ∉ k.readyQueues level :=
  fun hmem => hpid (h.state_of_mem (.ready level) hmem)

/-- The running process is in no ready queue. -/
theorem running_not_mem_ready {k : Multilevel} {pid : Pid} (h : (k.census (some pid)).Inv)
    (level : Fin 5) : pid ∉ k.readyQueues level := by
  refine not_mem_ready h ?_ level
  rw [Core.state_running h rfl]
  decide

/-! ## The handlers -/

theorem deliver_halted_of_none {k : Multilevel} (hhalted : k.halted = none) (e : Event) :
    (k.toCore.deliver e).halted = none :=
  (Core.deliver_halted k.toCore e).trans hhalted

section Handlers

variable {k : Multilevel} {e : Event} {pid : Pid} {level : Fin 5}

theorem Inv.vacant_issueRead (hk : k.Inv) (hhalted : k.halted = none)
    (hdevice : e.interrupt.device? = none) (hcurrent : k.currentPid = some pid) (device : Device) :
    ((k.deliver e).issueRead device pid).Vacant := by
  have hinv := hk.census hhalted
  rw [hcurrent] at hinv
  have hcore := toCore_issueRead (k.deliver e) device pid
  have hqueues := readyQueues_issueRead (k.deliver e) device pid
  refine ⟨?_, ?_, ?_, ?_, ?_⟩
  · rw [Multilevel.census, state_issueRead, hqueues, hcore]
    refine Core.inv_block_device hinv device ?_ (Core.deliver_semaphores _ _)
      (Core.deliver_activeProcesses _ _) ?_
    · change Function.update (k.toCore.deliver e).requests device
        ((k.toCore.deliver e).requests device ++ [pid]) = _
      rw [Core.deliver_requests_of_none hdevice]
    · change (k.toCore.deliver e).ioProcesses + 1 = _
      rw [Core.deliver_ioProcesses]
  · rw [hcore]
    exact deliver_halted_of_none hhalted e
  · rw [discarded_issueRead]
    exact hk.discarded
  · rw [priority_issueRead]
    exact hk.ranged.update (raised_mem (hk.ranged pid))
  · rw [hqueues, priority_issueRead]
    exact hk.levelled.update (running_not_mem_ready hinv) _

theorem Inv.fork (hk : k.Inv) (hhalted : k.halted = none) {runner : Pid}
    (hdevice : e.interrupt.device? = none) (hcurrent : k.currentPid = some runner)
    (hfree : k.state pid = .uninitialized) (hlevel : k.priority pid = (level : ℕ)) :
    (((k.deliver e).createProcess pid).enqueueAt level pid).Inv := by
  have hinv := hk.census hhalted
  rw [hcurrent] at hinv
  have hpriority : (((k.deliver e).createProcess pid).enqueueAt level pid).priority =
    k.priority := priority_setState _ _ _
  refine ⟨.running ((Core.deliver_currentPid _ _).trans hcurrent)
    (deliver_halted_of_none hhalted e) ?_, hk.discarded, ?_, ?_⟩
  · change (Core.census _ _ (Core.enqueueReady k.readyQueues level pid)
      ((k.deliver e).createProcess pid).state).Inv
    rw [state_createProcess]
    refine Core.inv_fork hinv level hfree (Core.deliver_requests_of_none hdevice)
      (Core.deliver_semaphores _ _) ?_ (Core.deliver_ioProcesses _ _)
    change (k.toCore.deliver e).activeProcesses + 1 = _
    rw [Core.deliver_activeProcesses]
  · rw [hpriority]
    exact hk.ranged
  · rw [hpriority]
    exact hk.levelled.enqueue hlevel

theorem Inv.vacant_endProcess (hk : k.Inv) (hhalted : k.halted = none)
    (hdevice : e.interrupt.device? = none) (hcurrent : k.currentPid = some pid) :
    ((k.deliver e).endProcess pid).Vacant := by
  have hinv := hk.census hhalted
  rw [hcurrent] at hinv
  have hpriority := priority_endProcess (k.deliver e) pid
  refine ⟨?_, deliver_halted_of_none hhalted e, hk.discarded, ?_, ?_⟩
  · rw [Multilevel.census, state_endProcess]
    refine Core.inv_kill hinv (Core.deliver_requests_of_none hdevice)
      (Core.deliver_semaphores _ _) ?_ (Core.deliver_ioProcesses _ _)
    change (k.toCore.deliver e).activeProcesses - 1 = _
    rw [Core.deliver_activeProcesses]
  · rw [hpriority]
    exact hk.ranged.update (by decide)
  · rw [hpriority]
    exact hk.levelled.update (running_not_mem_ready hinv) _

theorem Inv.wake (hk : k.Inv) (hhalted : k.halted = none) {runner : Pid} {s : Sem}
    {next : List Pid} (hdevice : e.interrupt.device? = none) (hcurrent : k.currentPid = some runner)
    (hwaiting : (k.semaphores s).waiting = pid :: next) (hlevel : k.priority pid = (level : ℕ)) :
    (((((k.deliver e).announceUp s).setSemaphore s
      { k.semaphores s with readyQueue := some next }).setState pid .ready).enqueueAt level
        pid).Inv := by
  have hinv := hk.census hhalted
  rw [hcurrent] at hinv
  refine ⟨.running ((Core.deliver_currentPid _ _).trans hcurrent)
    (deliver_halted_of_none hhalted e) ?_, hk.discarded, ?_, ?_⟩
  · change (Core.census _ _ (Core.enqueueReady k.readyQueues level pid)
      ((Multilevel.setSemaphore _ s _).setState pid .ready).state).Inv
    rw [state_setState]
    refine Core.inv_wake hinv level s hwaiting ?_ (Core.deliver_requests_of_none hdevice)
      (Core.deliver_activeProcesses _ _) (Core.deliver_ioProcesses _ _)
    change Function.update (k.toCore.deliver e).semaphores s _ = _
    rw [Core.deliver_semaphores]
  · change Ranged ((Multilevel.setSemaphore _ s _).setState pid .ready).priority
    rw [priority_setState]
    exact hk.ranged
  · change Levelled (Core.enqueueReady k.readyQueues level pid)
      ((Multilevel.setSemaphore _ s _).setState pid .ready).priority
    rw [priority_setState]
    exact hk.levelled.enqueue hlevel

/-- A semaphore operation that moves nobody. -/
theorem Inv.setSemaphore (hk : k.Inv) (hdevice : e.interrupt.device? = none) {s : Sem}
    {sem : Semaphore} (hwaiting : sem.waiting = (k.semaphores s).waiting) (message : Message) :
    (((k.deliver e).print message).setSemaphore s sem).Inv := by
  refine ⟨hk.settled.congr (Core.deliver_currentPid _ _) (Core.deliver_halted _ _)
    (Core.deliver_requests_of_none hdevice) (fun t => ?_) (Core.deliver_activeProcesses _ _)
    (Core.deliver_ioProcesses _ _), hk.discarded, hk.ranged, hk.levelled⟩
  change (Function.update (k.toCore.deliver e).semaphores s sem t).waiting = _
  rw [Core.deliver_semaphores, Core.waiting_update hwaiting]

theorem Inv.vacant_waitFor (hk : k.Inv) (hhalted : k.halted = none)
    (hdevice : e.interrupt.device? = none) (hcurrent : k.currentPid = some pid) (s : Sem) :
    (((k.deliver e).announceDown s).waitFor s pid).Vacant := by
  have hinv := hk.census hhalted
  rw [hcurrent] at hinv
  have hcore := toCore_waitFor ((k.deliver e).announceDown s) s pid
  have hqueues := readyQueues_waitFor ((k.deliver e).announceDown s) s pid
  refine ⟨?_, ?_, ?_, ?_, ?_⟩
  · rw [Multilevel.census, state_waitFor, hqueues, hcore]
    refine Core.inv_block_semaphore hinv s ?_ (Core.deliver_requests_of_none hdevice)
      (Core.deliver_activeProcesses _ _) (Core.deliver_ioProcesses _ _)
    change Function.update (k.toCore.deliver e).semaphores s
      (((k.toCore.deliver e).semaphores s).enqueue pid) = _
    rw [Core.deliver_semaphores]
  · rw [hcore]
    exact deliver_halted_of_none hhalted e
  · rw [discarded_waitFor]
    exact hk.discarded
  · rw [priority_waitFor]
    exact hk.ranged.update (raised_mem (hk.ranged pid))
  · rw [hqueues, priority_waitFor]
    exact hk.levelled.update (running_not_mem_ready hinv) _

theorem Inv.vacant_preempt (hk : k.Inv) (hhalted : k.halted = none)
    (hdevice : e.interrupt.device? = none) (hcurrent : k.currentPid = some pid)
    (hlevel : ((k.deliver e).preempt pid).priority pid = (level : ℕ)) :
    (((k.deliver e).preempt pid).enqueueAt level pid).Vacant := by
  have hinv := hk.census hhalted
  rw [hcurrent] at hinv
  have hcore := toCore_preempt (k.deliver e) pid
  have hqueues := readyQueues_preempt (k.deliver e) pid
  have hpriority := priority_preempt (k.deliver e) pid
  refine ⟨?_, ?_, (discarded_preempt _ _).trans hk.discarded, ?_, ?_⟩
  · change (Core.census ((k.deliver e).preempt pid).toCore none
      (Core.enqueueReady ((k.deliver e).preempt pid).readyQueues level pid)
      ((k.deliver e).preempt pid).state).Inv
    rw [state_preempt, hqueues, hcore]
    exact Core.inv_preempt hinv level (Core.deliver_requests_of_none hdevice)
      (Core.deliver_semaphores _ _) (Core.deliver_activeProcesses _ _)
      (Core.deliver_ioProcesses _ _)
  · change ((k.deliver e).preempt pid).halted = none
    rw [hcore]
    exact deliver_halted_of_none hhalted e
  · change Ranged ((k.deliver e).preempt pid).priority
    rw [hpriority]
    exact hk.ranged.update (lowered_mem (hk.ranged pid))
  · change Levelled (Core.enqueueReady ((k.deliver e).preempt pid).readyQueues level pid)
      ((k.deliver e).preempt pid).priority
    refine Levelled.enqueue ?_ hlevel
    rw [hqueues, hpriority]
    exact hk.levelled.update (running_not_mem_ready hinv) _

/-- Once a read is answered its process is ready, whoever is on the CPU. -/
theorem Inv.finishRead (hk : k.Inv) (hhalted : k.halted = none) {device : Device}
    (hdevice : e.interrupt.device? = some device) (hR1 : e.R1 = (pid : ℕ))
    (hrequest : pid ∈ k.requests device) (hlevel : k.priority pid = (level : ℕ)) :
    ((((k.deliver e).finishRead device pid).enqueueAt level pid).census k.currentPid).Inv ∧
      Ranged (((k.deliver e).finishRead device pid).enqueueAt level pid).priority ∧
      Levelled (((k.deliver e).finishRead device pid).enqueueAt level pid).readyQueues
        (((k.deliver e).finishRead device pid).enqueueAt level pid).priority := by
  have hinv := hk.census hhalted
  have hpriority : (((k.deliver e).finishRead device pid).enqueueAt level pid).priority =
    k.priority := priority_setState _ _ _
  rw [hpriority]
  refine ⟨?_, hk.ranged, hk.levelled.enqueue hlevel⟩
  change (Core.census _ _ (Core.enqueueReady k.readyQueues level pid)
    ((k.deliver e).finishRead device pid).state).Inv
  rw [state_finishRead]
  refine Core.inv_answer hinv level device hrequest (Core.deliver_requests_of_some hdevice hR1)
    (Core.deliver_semaphores _ _) (Core.deliver_activeProcesses _ _) ?_
  change (k.toCore.deliver e).ioProcesses - 1 = _
  rw [Core.deliver_ioProcesses]

/-- Once a read is answered `schedule` is called if the processor is idle, and
nothing more happens otherwise. -/
theorem Inv.answer_cases (hk : k.Inv) (hhalted : k.halted = none) {device : Device}
    (hdevice : e.interrupt.device? = some device) (hR1 : e.R1 = (pid : ℕ))
    (hrequest : pid ∈ k.requests device) (hlevel : k.priority pid = (level : ℕ)) {k₁ : Multilevel}
    (hk₁ : k₁ = ((k.deliver e).finishRead device pid).enqueueAt level pid) :
    (k.currentPid = none ∧ Vacant { k₁ with currentQuantumStartTime := k₁.clock } ∧
      k₁.scheduleIfIdle = schedule { k₁ with currentQuantumStartTime := k₁.clock } 4) ∨
    (k₁.Inv ∧ k₁.scheduleIfIdle = k₁) := by
  obtain ⟨hready, hranged, hlevelled⟩ := hk.finishRead hhalted hdevice hR1 hrequest hlevel
  rw [← hk₁] at hready hranged hlevelled
  have hhalted₁ : k₁.halted = none := by
    rw [hk₁]
    exact deliver_halted_of_none hhalted e
  have hdiscarded : k₁.discarded = [] := by
    rw [hk₁]
    exact hk.discarded
  have hcurrent : k₁.currentPid = k.currentPid := by
    rw [hk₁]
    exact Core.deliver_currentPid k.toCore e
  rw [scheduleIfIdle, hcurrent]
  cases hidle : k.currentPid with
  | none =>
    rw [hidle] at hready
    rw [if_pos rfl]
    exact .inl ⟨rfl, ⟨hready, hhalted₁, hdiscarded, hranged, hlevelled⟩, rfl⟩
  | some runner =>
    rw [hidle] at hready hcurrent
    rw [if_neg (Option.some_ne_none runner)]
    exact .inr ⟨⟨.running hcurrent hhalted₁ hready, hdiscarded, hranged, hlevelled⟩, rfl⟩

end Handlers

/-! ## Events -/

/-- One process at most has joined the ready queues, and none was dispatched yet. -/
structure Joins (k k' : Multilevel) : Prop where
  queues : ∀ level, ∃ new, Newcomer (k.readyQueues level) new ∧
    k'.readyQueues level = k.readyQueues level ++ new
  silent : k'.toCore.Silent

theorem Joins.same {k k' : Multilevel} (hqueues : k'.readyQueues = k.readyQueues)
    (hsilent : k'.toCore.Silent) : Joins k k' where
  queues level := ⟨[], .inl rfl, by rw [hqueues, List.append_nil]⟩
  silent := hsilent

theorem Joins.enqueue {k k' : Multilevel} (level : Fin 5) (pid : Pid)
    (hpid : ∀ level, pid ∉ k.readyQueues level)
    (hqueues : k'.readyQueues = Core.enqueueReady k.readyQueues level pid)
    (hsilent : k'.toCore.Silent) : Joins k k' where
  queues l := by
    rw [hqueues, Core.enqueueReady]
    by_cases hl : l = level
    · refine ⟨[pid], .inr ⟨pid, hpid l, rfl⟩, ?_⟩
      rw [hl, Function.update_self]
      rfl
    · refine ⟨[], .inl rfl, ?_⟩
      rw [Function.update_of_ne hl, List.append_nil]
  silent := hsilent

/-- An event ends without `schedule`, or with `schedule` once the running process
has left the CPU. -/
inductive Outcome (k k' : Multilevel) : Prop
  | kept (hjoins : Joins k k') (hinv : k'.Inv)
  | scheduled (k₁ : Multilevel) (hjoins : Joins k k₁) (hvacant : k₁.Vacant)
      (hk' : k' = k₁.schedule 4 ∨ k' = (k₁.schedule 4).restartQuantum)

theorem Outcome.inv {k k' : Multilevel} (h : Outcome k k') : k'.Inv := by
  cases h with
  | kept _ hinv => exact hinv
  | scheduled k₁ _ hvacant hk' =>
    have hschedule := hvacant.scheduleCase.inv hvacant
    rcases hk' with rfl | rfl
    · exact hschedule
    · exact hschedule.restartQuantum

/-- A process with an outstanding read joins the ready queues, and runs at once
if the processor was idle. -/
theorem Inv.answer {k : Multilevel} {e : Event} {pid : Pid} {level : Fin 5} {device : Device}
    (hk : k.Inv) (hhalted : k.halted = none) (hdevice : e.interrupt.device? = some device)
    (hR1 : e.R1 = (pid : ℕ)) (hrequest : pid ∈ k.requests device)
    (hlevel : k.priority pid = (level : ℕ)) :
    Outcome k (((k.deliver e).finishRead device pid).enqueueAt level pid).scheduleIfIdle := by
  have hinv := hk.census hhalted
  have hblocked : k.state pid = .blocked := hinv.state_of_mem (.device device) hrequest
  have hjoins : Joins k (((k.deliver e).finishRead device pid).enqueueAt level pid) := by
    refine .enqueue level pid (not_mem_ready hinv ?_) rfl
      (Core.silent_deliver.print fun _ _ => Message.noConfusion)
    rw [hblocked]
    decide
  rcases hk.answer_cases hhalted hdevice hR1 hrequest hlevel rfl with
    ⟨_, hvacant, heq⟩ | ⟨hkept, heq⟩
  · rw [heq]
    refine .scheduled _ ?_ hvacant (.inl rfl)
    exact ⟨hjoins.queues, hjoins.silent⟩
  · rw [heq]
    exact .kept hjoins hkept

/-- Every way an event can go keeps the invariant, and at most one process joins
the ready queues before `schedule`. -/
theorem Effect.outcome {k k' : Multilevel} {e : Event} (hk : k.Inv) (hhalted : k.halted = none)
    (h : Effect k e k') : Outcome k k' := by
  have hinv := hk.census hhalted
  have hsilent : (k.toCore.deliver e).Silent := Core.silent_deliver
  cases h with
  | quiet messages hdevice _ hmessages =>
    refine .kept (.same rfl hmessages.silent) ⟨?_, hk.discarded, hk.ranged, hk.levelled⟩
    exact hk.settled.congr (Core.deliver_currentPid _ _) (Core.deliver_halted _ _)
      (Core.deliver_requests_of_none hdevice)
      (fun s => congrArg (fun semaphores => (semaphores s).waiting) (Core.deliver_semaphores _ _))
      (Core.deliver_activeProcesses _ _) (Core.deliver_ioProcesses _ _)
  | read device pid hdevice _ hcurrent =>
    have hqueues := readyQueues_issueRead (k.deliver e) device pid
    refine .scheduled _ (.same hqueues ?_) (hk.vacant_issueRead hhalted hdevice hcurrent device)
      (.inl rfl)
    rw [toCore_issueRead]
    exact hsilent.print fun _ _ => Message.noConfusion
  | fork runner pid level hdevice _ hcurrent hfree hlevel =>
    refine .kept (.enqueue level pid (not_mem_ready hinv ?_) rfl ?_)
      (hk.fork hhalted hdevice hcurrent hfree hlevel)
    · rw [hfree]
      decide
    · exact hsilent.print fun _ _ => Message.noConfusion
  | kill pid hdevice _ hcurrent =>
    refine .scheduled _ (.same ?_ ?_) (hk.vacant_endProcess hhalted hdevice hcurrent) (.inl rfl)
    · rfl
    · exact hsilent.print fun _ _ => Message.noConfusion
  | wake s runner pid next level hdevice _ _ _ hcurrent hvalue hwaiting hlevel =>
    refine .kept (.enqueue level pid (not_mem_ready hinv ?_) rfl ?_)
      (hk.wake hhalted hdevice hcurrent hwaiting hlevel)
    · rw [Core.state_waiting hinv hwaiting]
      decide
    · exact hsilent.print fun _ _ => Message.noConfusion
  | release s runner hdevice _ _ _ _ _ =>
    exact .kept (.same rfl (hsilent.print fun _ _ => Message.noConfusion))
      (hk.setSemaphore hdevice (Semaphore.waiting_increment _) _)
  | pass s runner hdevice _ _ _ _ _ =>
    exact .kept (.same rfl (hsilent.print fun _ _ => Message.noConfusion))
      (hk.setSemaphore hdevice (Semaphore.waiting_decrement _) _)
  | wait s pid hdevice _ _ _ hvalue hcurrent =>
    have hqueues := readyQueues_waitFor ((k.deliver e).announceDown s) s pid
    refine .scheduled _ (.same hqueues ?_) (hk.vacant_waitFor hhalted hdevice hcurrent s) (.inl rfl)
    rw [toCore_waitFor]
    exact hsilent.print fun _ _ => Message.noConfusion
  | preempt pid level hdevice _ hcurrent hlevel =>
    rw [hcurrent] at hinv
    refine .scheduled _ (.enqueue level pid (running_not_mem_ready hinv) ?_ ?_)
      (hk.vacant_preempt hhalted hdevice hcurrent hlevel) (.inr rfl)
    · change Core.enqueueReady ((k.deliver e).preempt pid).readyQueues level pid = _
      rw [readyQueues_preempt]
      rfl
    · change ((k.deliver e).preempt pid).toCore.Silent
      rw [toCore_preempt]
      exact hsilent
  | answer device pid level hdevice _ hR1 hrequest hlevel =>
    exact hk.answer hhalted hdevice hR1 hrequest hlevel

/-! ## Runs -/

/-- The kernel after `initialize_kernel`. -/
def Booted (k : Multilevel) : Prop :=
  ∃ pid clock, (powerOn (some pid) clock).initializeKernel = some k

/-- A legal event and what its handler makes of it. -/
def Step (k : Multilevel) (e : Event) (k' : Multilevel) : Prop :=
  k.toCore.Legal k.state e ∧ k.interrupt e = some k'

/-- A run of the kernel. -/
def KernelRun : List (Event × Multilevel) → Multilevel → Prop :=
  Run Booted fun _ k e k' => k.Step e k'

/-- Every step has an outcome. -/
theorem Step.outcome {k k' : Multilevel} {e : Event} (hk : k.Inv) (h : k.Step e k') :
    Outcome k k' := by
  obtain ⟨k₁, hk₁, heffect⟩ := interrupt_effect hk.ranged h.1
  rw [h.2, Option.some.injEq] at hk₁
  rw [hk₁]
  exact heffect.outcome hk h.1.1

/-- The state `initialize_kernel` leaves behind. -/
def boot (pid : Pid) (clock : Word) : Multilevel where
  toCore := (Core.powerOn (some pid) clock).initCounters
  processTable := Function.update
    (fun _ => { state := .uninitialized, totalCpuTimeUsed := 0#32, priority := 0 }) pid
    { state := .running, totalCpuTimeUsed := 0#32, priority := 0 }
  readyQueues := fun _ => []
  discarded := []

theorem booted_iff {k : Multilevel} : k.Booted ↔ ∃ pid clock, k = boot pid clock := by
  refine exists_congr fun pid => exists_congr fun clock => ?_
  change some (boot pid clock) = some k ↔ _
  rw [Option.some.injEq]
  exact eq_comm

theorem state_boot (pid : Pid) (clock : Word) :
    (boot pid clock).state = Function.update (fun _ => .uninitialized) pid .running := by
  funext p
  by_cases hp : p = pid
  · simp [state, boot, hp]
  · simp [state, boot, Function.update_of_ne hp]

theorem priority_boot (pid : Pid) (clock : Word) : (boot pid clock).priority = fun _ => 0 := by
  funext p
  by_cases hp : p = pid
  · simp [priority, boot, hp]
  · simp [priority, boot, Function.update_of_ne hp]

theorem legal_forkOne (clock : Word) :
    (boot 0 clock).toCore.Legal (boot 0 clock).state .forkOne := by
  refine ⟨rfl, Option.some_ne_none _, fun _ => ⟨1, rfl, ?_⟩, fun h => absurd h (by decide)⟩
  rw [state_boot]
  rfl

theorem Booted.inv {k : Multilevel} (hk : k.Booted) : k.Inv := by
  obtain ⟨pid, clock, rfl⟩ := booted_iff.mp hk
  refine ⟨.running rfl rfl ?_, rfl, ?_, ?_⟩
  · rw [state_boot]
    exact Core.inv_boot (fun _ => rfl) (fun _ => rfl) rfl rfl
  · rw [priority_boot]
    exact fun _ => ⟨le_refl 0, Int.natCast_nonneg 4⟩
  · exact fun _ _ hp => absurd hp List.not_mem_nil

theorem KernelRun.inv {h : List (Event × Multilevel)} {k : Multilevel} (hrun : KernelRun h k) :
    k.Inv :=
  Run.invariant (P := fun _ k => k.Inv) (fun _ hk => hk.inv)
    (fun _ _ _ _ _ ih hstep => (hstep.outcome ih).inv) hrun

end Multilevel

end SimOS
