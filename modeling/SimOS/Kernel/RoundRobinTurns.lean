import SimOS.Kernel.RoundRobinRuns
import SimOS.Kernel.CpuTime

/-!
# Turns of the round-robin kernel

An event leaves the process that is current where it is, or ends its turn and
calls `schedule`. `Outcome` says for both what becomes of the ready queue, the
quantum and the totals, and who has the CPU afterwards.
-/

namespace SimOS

open Library

namespace RoundRobin

/-- The totals in the process table. -/
def totals (k : RoundRobin) : Pid → Word := fun pid => (k.processTable pid).totalCpuTimeUsed

theorem totals_setState (k : RoundRobin) (pid : Pid) (st : ProcessState) :
    (k.setState pid st).totals = k.totals := by
  funext p
  by_cases hp : p = pid
  · simp [totals, setState, modifyEntry, hp]
  · simp [totals, setState, modifyEntry, Function.update_of_ne hp]

theorem totals_addCpuTime (k : RoundRobin) (pid : Pid) :
    (k.addCpuTime pid).totals = Function.update k.totals pid (k.totals pid + k.elapsed) := by
  funext p
  by_cases hp : p = pid
  · simp [totals, addCpuTime, modifyEntry, hp]
  · simp [totals, addCpuTime, modifyEntry, Function.update_of_ne hp]

theorem totals_createProcess (k : RoundRobin) (pid : Pid) :
    (k.createProcess pid).totals = Function.update k.totals pid 0#32 := by
  funext p
  by_cases hp : p = pid
  · simp [totals, createProcess, modifyEntry, enqueueReady, print, hp]
  · simp [totals, createProcess, modifyEntry, enqueueReady, print, Function.update_of_ne hp]

section Charge

variable {k : RoundRobin} {e : Event} {pid : Pid}

theorem totals_issueRead (hcurrent : k.currentPid = some pid) (device : Device) :
    ((k.deliver e).issueRead device pid).totals = k.toCore.charged k.totals e := by
  rw [Core.charged_of_current hcurrent]
  refine (totals_addCpuTime _ _).trans ?_
  show Function.update (RoundRobin.setState _ pid .blocked).totals pid
    ((RoundRobin.setState _ pid .blocked).totals pid + _) = _
  rw [totals_setState]
  rfl

theorem totals_endProcess (hcurrent : k.currentPid = some pid) :
    ((k.deliver e).endProcess pid).totals = k.toCore.charged k.totals e := by
  rw [Core.charged_of_current hcurrent]
  refine (totals_addCpuTime _ _).trans ?_
  rw [totals_setState]
  rfl

theorem totals_waitFor (hcurrent : k.currentPid = some pid) (s : Sem) :
    (((k.deliver e).announceDown s).waitFor s pid).totals = k.toCore.charged k.totals e := by
  rw [Core.charged_of_current hcurrent]
  refine (totals_addCpuTime _ _).trans ?_
  show Function.update (RoundRobin.setState _ pid .blocked).totals pid
    ((RoundRobin.setState _ pid .blocked).totals pid + _) = _
  rw [totals_setState]
  rfl

theorem totals_preempt (hcurrent : k.currentPid = some pid) :
    ((k.deliver e).preempt pid).totals = k.toCore.charged k.totals e := by
  rw [Core.charged_of_current hcurrent]
  refine (totals_addCpuTime _ _).trans ?_
  rw [totals_setState]
  rfl

end Charge

/-! ## `schedule` -/

/-- `schedule` has served the queue: its head runs, or it is empty and nobody does. -/
inductive Served (queue : List Pid) (k' : RoundRobin) : Prop
  | nobody (hqueue : queue = []) (hempty : k'.readyQueue = [])
      (hidle : k'.halted = none → k'.currentPid = none) (hdispatched : k'.toCore.dispatched = [])
  | runs (pid : Pid) (hqueue : queue = pid :: k'.readyQueue) (hhalted : k'.halted = none)
      (hcurrent : k'.currentPid = some pid) (hdispatched : k'.toCore.dispatched = [pid])

section Schedule

variable {k k' : RoundRobin}

theorem ScheduleCase.served (hk : k.Vacant) (hsilent : k.toCore.Silent)
    (h : ScheduleCase k k') : Served k.readyQueue k' := by
  cases h with
  | finished hactive =>
    have hempty : k.readyQueue = [] := by
      apply List.eq_nil_iff_forall_not_mem.mpr
      intro pid hpid
      exact hk.census.active_ne_zero (.ready ()) hpid hactive
    refine .nobody hempty hempty (fun h => absurd h (Option.some_ne_none _)) ?_
    exact (hsilent.print fun _ _ => Message.noConfusion).dispatched_eq
  | deadlocked _ hqueue _ =>
    refine .nobody hqueue hqueue (fun h => absurd h (Option.some_ne_none _)) ?_
    exact (hsilent.print fun _ _ => Message.noConfusion).dispatched_eq
  | idle _ hqueue _ =>
    refine .nobody hqueue hqueue (fun _ => rfl) ?_
    exact (hsilent.print fun _ _ => Message.noConfusion).dispatched_eq
  | runs pid next _ hqueue =>
    refine .runs pid hqueue hk.halted rfl ?_
    refine (Core.dispatched_print_runs k.clock pid).trans ?_
    show k.toCore.dispatched ++ [pid] = [pid]
    rw [hsilent.dispatched_eq, List.nil_append]

theorem ScheduleCase.clock (h : ScheduleCase k k') : k'.clock = k.clock := by
  cases h <;> rfl

theorem ScheduleCase.start (h : ScheduleCase k k') :
    k'.currentQuantumStartTime = k.currentQuantumStartTime := by
  cases h <;> rfl

/-- `schedule` charges nobody. -/
theorem ScheduleCase.totals (h : ScheduleCase k k') : k'.totals = k.totals := by
  cases h with
  | runs pid next _ _ => exact totals_setState k pid .running
  | _ => rfl

theorem ScheduleCase.exitsTold (h : ScheduleCase k k') {c : Core} {e : Event}
    (hk : c.ExitsTold e k.toCore k.totals) : c.ExitsTold e k'.toCore k'.totals := by
  rw [h.totals]
  cases h <;> exact hk.append rfl fun _ _ _ => Message.noConfusion

theorem restartQuantum_of_none (hhalted : k.halted = none) :
    k.restartQuantum = { k with currentQuantumStartTime := k.clock } := by
  rw [restartQuantum, if_pos hhalted]

end Schedule

/-! ## Outcomes -/

/-- One process at most has joined the ready queue, and none was dispatched yet. -/
structure Joins (k k' : RoundRobin) : Prop where
  queue : ∃ new, Newcomer k.readyQueue new ∧ k'.readyQueue = k.readyQueue ++ new
  silent : k'.toCore.Silent

theorem Joins.same {k k' : RoundRobin} (hqueue : k'.readyQueue = k.readyQueue)
    (hsilent : k'.toCore.Silent) : Joins k k' where
  queue := ⟨[], .inl rfl, by rw [hqueue, List.append_nil]⟩
  silent := hsilent

theorem Joins.enqueue {k k' : RoundRobin} {pid : Pid} (hpid : pid ∉ k.readyQueue)
    (hqueue : k'.readyQueue = enqueue k.readyQueue pid) (hsilent : k'.toCore.Silent) :
    Joins k k' where
  queue := ⟨[pid], .inr ⟨pid, hpid, rfl⟩, hqueue⟩
  silent := hsilent

/-- An event leaves the process that is current where it is, or ends its turn:
its CPU time is charged, the queue is served and a quantum starts. -/
inductive Outcome (k : RoundRobin) (e : Event) (k' : RoundRobin) : Prop
  | kept (hjoins : Joins k k') (hclock : k'.clock = e.clock)
      (hcurrent : k'.currentPid = k.currentPid)
      (hstart : k'.currentQuantumStartTime = k.currentQuantumStartTime)
      (htotals : ∀ pid, k'.totals pid = if e.Forks pid then 0#32 else k.totals pid)
      (hfresh : ∀ pid, e.Forks pid → k.currentPid ≠ some pid) (hends : ¬e.Ends)
      (hexits : k'.toCore.NoExits)
      (hrest : e.interrupt = .clockInterrupt → k.currentPid ≠ none →
        ¬quantum ≤ e.clock - k.currentQuantumStartTime)
  | served (new : List Pid) (hnew : Newcomer k.readyQueue new)
      (hserved : Served (k.readyQueue ++ new) k') (hclock : k'.clock = e.clock)
      (hstart : k'.currentQuantumStartTime = e.clock)
      (htotals : k'.totals = k.toCore.charged k.totals e)
      (hforks : ∀ pid, ¬e.Forks pid) (hexits : k.toCore.ExitsTold e k'.toCore k'.totals)

/-- A handler that ends with `schedule`. -/
theorem Outcome.schedule {k k₁ : RoundRobin} {e : Event} (hvacant : k₁.Vacant)
    (hjoins : Joins k k₁) (hclock : k₁.clock = e.clock)
    (hstart : k₁.currentQuantumStartTime = e.clock)
    (htotals : k₁.totals = k.toCore.charged k.totals e)
    (hforks : ∀ pid, ¬e.Forks pid) (hexits : k.toCore.ExitsTold e k₁.toCore k₁.totals) :
    Outcome k e k₁.schedule := by
  obtain ⟨new, hnew, hqueue⟩ := hjoins.queue
  have hcase := hvacant.scheduleCase
  refine .served new hnew ?_ (hcase.clock.trans hclock) (hcase.start.trans hstart)
    (hcase.totals.trans htotals) hforks (hcase.exitsTold hexits)
  rw [← hqueue]
  exact hcase.served hvacant hjoins.silent

/-- A handler that restarts the quantum after `schedule`, which has found a process to run. -/
theorem Outcome.schedule_restart {k k₁ : RoundRobin} {e : Event} (hvacant : k₁.Vacant)
    (hjoins : Joins k k₁) (hne : k₁.readyQueue ≠ []) (hclock : k₁.clock = e.clock)
    (htotals : k₁.totals = k.toCore.charged k.totals e) (hforks : ∀ pid, ¬e.Forks pid)
    (hexits : k.toCore.ExitsTold e k₁.toCore k₁.totals) :
    Outcome k e k₁.schedule.restartQuantum := by
  obtain ⟨new, hnew, hqueue⟩ := hjoins.queue
  have hcase := hvacant.scheduleCase
  have hserved := hcase.served hvacant hjoins.silent
  rw [hqueue] at hserved hne
  cases hserved with
  | nobody hempty _ _ _ => exact absurd hempty hne
  | runs pid hrest hhalted hcurrent hdispatched =>
    rw [restartQuantum_of_none hhalted]
    exact .served new hnew (.runs pid hrest hhalted hcurrent hdispatched)
      (hcase.clock.trans hclock) (hcase.clock.trans hclock) (hcase.totals.trans htotals) hforks
      (hcase.exitsTold hexits)

/-- A process that is not ready is not in the ready queue. -/
theorem not_mem_readyQueue {k : RoundRobin} {run : Option Pid} (h : (k.census run).Inv) {pid : Pid}
    (hpid : k.state pid ≠ .ready) : pid ∉ k.readyQueue :=
  fun hmem => hpid (h.state_of_mem (.ready ()) hmem)

section Handlers

variable {k : RoundRobin} {e : Event} {pid : Pid}

/-- A semaphore operation that blocks nobody goes on with the current process. -/
theorem Outcome.semaphore {k' : RoundRobin} (hop : e.IsSemaphoreOp) (hjoins : Joins k k')
    (hclock : k'.clock = (k.deliver e).clock) (hcurrent : k'.currentPid = (k.deliver e).currentPid)
    (hstart : k'.currentQuantumStartTime = (k.deliver e).currentQuantumStartTime)
    (htotals : k'.totals = k.totals) (hexits : k'.toCore.NoExits) : Outcome k e k' := by
  refine .kept hjoins (hclock.trans (Core.deliver_clock _ _))
    (hcurrent.trans (Core.deliver_currentPid _ _))
    (hstart.trans (Core.deliver_currentQuantumStartTime _ _)) (fun p => ?_) (fun p hp => ?_)
    hop.not_ends hexits fun hkind => ?_
  · rw [if_neg (hop.not_forks p), htotals]
  · exact absurd hp (hop.not_forks p)
  · rw [hop.1] at hkind
    cases hkind

theorem Inv.outcome_fork (hk : k.Inv) (hhalted : k.halted = none)
    (hfree : k.state pid = .uninitialized) (hforks : e.Forks pid) :
    Outcome k e ((k.deliver e).createProcess pid) := by
  have hinv := hk.census hhalted
  refine .kept (.enqueue (not_mem_readyQueue hinv (by rw [hfree]; decide)) rfl
    (Core.silent_deliver.print fun _ _ => Message.noConfusion)) (Core.deliver_clock _ _)
    (Core.deliver_currentPid _ _) (Core.deliver_currentQuantumStartTime _ _) (fun p => ?_)
    (fun p hp => ?_) hforks.not_ends
    (Core.noExits_deliver.print fun _ _ _ => Message.noConfusion) fun hkind => ?_
  · rw [totals_createProcess]
    by_cases hp : p = pid
    · rw [hp, Function.update_self, if_pos hforks]
    · rw [Function.update_of_ne hp, if_neg fun h => hp (h.pid_eq hforks)]
      rfl
  · -- the new process was not alive
    rw [hp.pid_eq hforks]
    intro hrunner
    exact ProcessState.noConfusion ((Core.state_running hinv hrunner).symm.trans hfree)
  · rw [hforks.1] at hkind
    cases hkind

theorem Inv.outcome_answer {device : Device} (hk : k.Inv) (hhalted : k.halted = none)
    (hdevice : e.interrupt.device? = some device) (hR1 : e.R1 = (pid : ℕ))
    (hrequest : pid ∈ k.requests device) :
    Outcome k e ((k.deliver e).finishRead device pid).scheduleIfIdle := by
  have hinv := hk.census hhalted
  have hblocked : k.state pid = .blocked := hinv.state_of_mem (.device device) hrequest
  have hkind : e.interrupt ≠ .trap := by
    intro htrap
    rw [htrap] at hdevice
    cases hdevice
  have htotals : ((k.deliver e).finishRead device pid).totals = k.totals := totals_setState _ _ _
  have hexits : ((k.deliver e).finishRead device pid).toCore.NoExits :=
    Core.noExits_deliver.print fun _ _ _ => Message.noConfusion
  have hjoins : Joins k ((k.deliver e).finishRead device pid) :=
    .enqueue (not_mem_readyQueue hinv (by rw [hblocked]; decide)) rfl
      (Core.silent_deliver.print fun _ _ => Message.noConfusion)
  rcases hk.answer_cases hhalted hdevice hR1 hrequest rfl with ⟨hidle, hvacant, heq⟩ | ⟨_, heq⟩
  · rw [heq]
    refine .schedule hvacant
      ⟨hjoins.queue, hjoins.silent⟩ (Core.deliver_clock _ _) (Core.deliver_clock _ _) ?_
      (Event.not_forks_of_interrupt hkind)
      (Core.exitsTold_of_not_ends (Event.not_ends_of_interrupt hkind) hexits)
    rw [Core.charged_of_idle hidle]
    exact htotals
  · rw [heq]
    refine .kept hjoins (Core.deliver_clock _ _) (Core.deliver_currentPid _ _)
      (Core.deliver_currentQuantumStartTime _ _) (fun p => ?_)
      (fun p hp => absurd hp (Event.not_forks_of_interrupt hkind p))
      (Event.not_ends_of_interrupt hkind) hexits fun hclock => ?_
    · rw [htotals, if_neg (Event.not_forks_of_interrupt hkind p)]
    · rw [hclock] at hdevice
      cases hdevice

end Handlers

/-- Every way an event can go has one of these outcomes. -/
theorem Effect.outcome {k k' : RoundRobin} {e : Event} (hk : k.Inv) (hhalted : k.halted = none)
    (h : Effect k e k') : Outcome k e k' := by
  have hinv := hk.census hhalted
  have hsilent : (k.toCore.deliver e).Silent := Core.silent_deliver
  have hexits : (k.toCore.deliver e).NoExits := Core.noExits_deliver
  cases h with
  | quiet messages hdevice _ hmessages hforks hends hrest =>
    refine .kept (.same rfl hmessages.silent) (Core.deliver_clock _ _) (Core.deliver_currentPid _ _)
      (Core.deliver_currentQuantumStartTime _ _) (fun p => ?_) (fun p hp => absurd hp (hforks p))
      hends hmessages.noExits hrest
    rw [if_neg (hforks p)]
    rfl
  | read device pid hdevice _ hcurrent hforks hends =>
    exact .schedule (hk.vacant_issueRead hhalted hdevice hcurrent device)
      (.same rfl (hsilent.print fun _ _ => Message.noConfusion)) (Core.deliver_clock _ _)
      (Core.deliver_clock _ _) (totals_issueRead hcurrent device) hforks
      (Core.exitsTold_of_not_ends hends (hexits.print fun _ _ _ => Message.noConfusion))
  | fork runner pid _ _ _ hfree hforks => exact hk.outcome_fork hhalted hfree hforks
  | kill pid hdevice _ hcurrent hends =>
    refine .schedule (hk.vacant_endProcess hhalted hdevice hcurrent)
      (.same rfl (hsilent.print fun _ _ => Message.noConfusion)) (Core.deliver_clock _ _)
      (Core.deliver_clock _ _) (totals_endProcess hcurrent) hends.not_forks
      (Core.exitsTold_of_exit hends hcurrent ?_)
    show (k.toCore.deliver e).output ++ [.exits (k.toCore.deliver e).clock (some pid) _] = _
    rw [Core.deliver_output, Core.deliver_clock]
    rfl
  | wake s runner pid next hdevice hop _ _ _ _ hwaiting =>
    refine .semaphore hop (.enqueue (not_mem_readyQueue hinv ?_) rfl ?_) rfl rfl rfl
      (totals_setState _ _ _) (hexits.print fun _ _ _ => Message.noConfusion)
    · rw [Core.state_waiting hinv hwaiting]
      decide
    · exact hsilent.print fun _ _ => Message.noConfusion
  | release s runner _ hop _ _ _ _ =>
    exact .semaphore hop (.same rfl (hsilent.print fun _ _ => Message.noConfusion)) rfl rfl rfl rfl
      (hexits.print fun _ _ _ => Message.noConfusion)
  | pass s runner _ hop _ _ _ _ =>
    exact .semaphore hop (.same rfl (hsilent.print fun _ _ => Message.noConfusion)) rfl rfl rfl rfl
      (hexits.print fun _ _ _ => Message.noConfusion)
  | wait s pid hdevice hop _ _ _ hcurrent =>
    exact .schedule (hk.vacant_waitFor hhalted hdevice hcurrent s)
      (.same rfl (hsilent.print fun _ _ => Message.noConfusion)) (Core.deliver_clock _ _)
      (Core.deliver_clock _ _) (totals_waitFor hcurrent s) hop.not_forks
      (Core.exitsTold_of_not_ends hop.not_ends (hexits.print fun _ _ _ => Message.noConfusion))
  | preempt pid hdevice _ hcurrent hclock _ =>
    have hkind : e.interrupt ≠ .trap := by rw [hclock]; decide
    rw [hcurrent] at hinv
    refine .schedule_restart (hk.vacant_preempt hhalted hdevice hcurrent)
      (.enqueue (not_mem_readyQueue hinv ?_) rfl hsilent) (List.concat_ne_nil pid k.readyQueue)
      (Core.deliver_clock _ _) (totals_preempt hcurrent)
      (Event.not_forks_of_interrupt hkind)
      (Core.exitsTold_of_not_ends (Event.not_ends_of_interrupt hkind) hexits)
    rw [Core.state_running hinv rfl]
    decide
  | answer device pid hdevice _ hR1 hrequest =>
    exact hk.outcome_answer hhalted hdevice hR1 hrequest

theorem Step.outcome {k k' : RoundRobin} {e : Event} (hk : k.Inv) (h : k.Step e k') :
    Outcome k e k' :=
  h.effect.outcome hk h.1.1

end RoundRobin

end SimOS
