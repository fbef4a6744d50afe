import SimOS.Kernel.MultilevelTraps
import SimOS.Kernel.CpuTime

/-!
# CPU time in the multilevel kernel

The handlers charge the quantum as those of the round-robin kernel do, but
`handle_fork` leaves the total of an earlier process with the same pid in the
process table. So the totals follow the times of the pids, and a process is told
its own time exactly if the earlier ones used none, modulo 2^32.
-/

namespace SimOS

open Library

namespace Multilevel

/-- The totals in the process table. -/
def totals (k : Multilevel) : Pid → Word := fun pid => (k.processTable pid).totalCpuTimeUsed

theorem totals_modifyEntry (k : Multilevel) (pid : Pid)
    {f : PriorityTableEntry → PriorityTableEntry}
    (hf : ∀ entry, (f entry).totalCpuTimeUsed = entry.totalCpuTimeUsed) :
    (k.modifyEntry pid f).totals = k.totals := by
  funext p
  by_cases hp : p = pid
  · simp [totals, modifyEntry, hp, hf]
  · simp [totals, modifyEntry, Function.update_of_ne hp]

theorem totals_setState (k : Multilevel) (pid : Pid) (st : ProcessState) :
    (k.setState pid st).totals = k.totals :=
  totals_modifyEntry k pid fun _ => rfl

theorem totals_setPriority (k : Multilevel) (pid : Pid) (x : ℤ) :
    (k.setPriority pid x).totals = k.totals :=
  totals_modifyEntry k pid fun _ => rfl

theorem totals_addCpuTime (k : Multilevel) (pid : Pid) :
    (k.addCpuTime pid).totals = Function.update k.totals pid (k.totals pid + k.elapsed) := by
  funext p
  by_cases hp : p = pid
  · simp [totals, addCpuTime, modifyEntry, hp]
  · simp [totals, addCpuTime, modifyEntry, Function.update_of_ne hp]

section Charge

variable {k : Multilevel} {e : Event} {pid : Pid}

theorem totals_issueRead (hcurrent : k.currentPid = some pid) (device : Device) :
    ((k.deliver e).issueRead device pid).totals = k.toCore.charged k.totals e := by
  rw [Core.charged_of_current hcurrent]
  simp only [issueRead, boost_eq]
  refine (totals_addCpuTime _ _).trans ?_
  show Function.update (Multilevel.setPriority _ pid _).totals pid
    ((Multilevel.setPriority _ pid _).totals pid + _) = _
  rw [totals_setPriority, totals_setState]
  rfl

theorem totals_endProcess (hcurrent : k.currentPid = some pid) :
    ((k.deliver e).endProcess pid).totals = k.toCore.charged k.totals e := by
  rw [Core.charged_of_current hcurrent]
  refine (totals_setPriority _ _ _).trans ((totals_addCpuTime _ _).trans ?_)
  rw [totals_setState]
  rfl

theorem totals_waitFor (hcurrent : k.currentPid = some pid) (s : Sem) :
    (((k.deliver e).announceDown s).waitFor s pid).totals = k.toCore.charged k.totals e := by
  rw [Core.charged_of_current hcurrent]
  simp only [waitFor, boost_eq]
  refine (totals_addCpuTime _ _).trans ?_
  show Function.update (Multilevel.setPriority _ pid _).totals pid
    ((Multilevel.setPriority _ pid _).totals pid + _) = _
  rw [totals_setPriority]
  show Function.update (Multilevel.setState _ pid .blocked).totals pid
    ((Multilevel.setState _ pid .blocked).totals pid + _) = _
  rw [totals_setState]
  rfl

theorem totals_preempt (hcurrent : k.currentPid = some pid) :
    ((k.deliver e).preempt pid).totals = k.toCore.charged k.totals e := by
  rw [Core.charged_of_current hcurrent]
  simp only [preempt, demote_eq]
  refine (totals_setPriority _ _ _).trans ((totals_addCpuTime _ _).trans ?_)
  rw [totals_setState]
  rfl

end Charge

/-! ## `schedule` -/

section Schedule

variable {k k' : Multilevel} {queueNum : Fin 5}

theorem ScheduleCase.clock (h : ScheduleCase k queueNum k') : k'.clock = k.clock := by
  cases h <;> rfl

theorem ScheduleCase.start (h : ScheduleCase k queueNum k') :
    k'.currentQuantumStartTime = k.currentQuantumStartTime := by
  cases h <;> rfl

/-- `schedule` charges nobody. -/
theorem ScheduleCase.totals (h : ScheduleCase k queueNum k') : k'.totals = k.totals := by
  cases h with
  | runs level pid next _ _ _ _ => exact totals_setState k pid .running
  | _ => rfl

theorem ScheduleCase.exitsTold (h : ScheduleCase k queueNum k') {c : Core} {e : Event}
    (hk : c.ExitsTold e k.toCore k.totals) : c.ExitsTold e k'.toCore k'.totals := by
  rw [h.totals]
  cases h <;> exact hk.append rfl fun _ _ _ => Message.noConfusion

/-- `schedule` finds a process to run when there is one. -/
theorem Vacant.schedule_halted (hk : k.Vacant) (level : Fin 5) (hne : k.readyQueues level ≠ []) :
    (k.schedule 4).halted = none := by
  obtain ⟨pid, hpid⟩ := List.exists_mem_of_ne_nil _ hne
  have hcase := hk.scheduleCase
  generalize k.schedule 4 = k' at hcase
  cases hcase with
  | finished hactive => exact absurd hactive (hk.census.active_ne_zero (.ready level) hpid)
  | deadlocked _ hempty _ => exact absurd (hempty level (Fin.le_last level)) hne
  | idle _ _ _ => exact hk.halted
  | runs _ _ _ _ _ _ _ => exact hk.halted

end Schedule

/-! ## Billing -/

/-- Nothing resets the total of a pid. -/
abbrev NoResets : Pid → Prop := fun _ => False

section Handlers

variable {k k' k₁ : Multilevel} {e : Event}

/-- A handler that lets the current process go on. -/
theorem billed_of_kept (hclock : k'.clock = (k.deliver e).clock)
    (hcurrent : k'.currentPid = (k.deliver e).currentPid)
    (hstart : k'.currentQuantumStartTime = (k.deliver e).currentQuantumStartTime)
    (htotals : k'.totals = k.totals) (hends : ¬e.Ends) (hexits : k'.toCore.NoExits) :
    Billed k.toCore k.totals e NoResets k'.toCore k'.totals :=
  .goesOn (hclock.trans (Core.deliver_clock _ _)) (hcurrent.trans (Core.deliver_currentPid _ _))
    (hstart.trans (Core.deliver_currentQuantumStartTime _ _))
    (fun pid _ => congrFun htotals pid) (fun _ hreset => hreset.elim) hends hexits

/-- A handler that ends with `schedule`. -/
theorem billed_of_schedule (hvacant : k₁.Vacant) (hclock : k₁.clock = e.clock)
    (hstart : k₁.currentQuantumStartTime = e.clock)
    (htotals : k₁.totals = k.toCore.charged k.totals e)
    (hexits : k.toCore.ExitsTold e k₁.toCore k₁.totals) :
    Billed k.toCore k.totals e NoResets (k₁.schedule 4).toCore (k₁.schedule 4).totals := by
  have hcase := hvacant.scheduleCase
  exact .charged (hcase.clock.trans hclock) (hcase.start.trans hstart) (fun _ => id)
    (hcase.totals.trans htotals) (hcase.exitsTold hexits)

theorem Inv.billed_preempt {pid : Pid} {level : Fin 5} (hk : k.Inv) (hhalted : k.halted = none)
    (hclock : e.interrupt = .clockInterrupt) (hcurrent : k.currentPid = some pid)
    (hlevel : ((k.deliver e).preempt pid).priority pid = (level : ℕ)) :
    Billed k.toCore k.totals e NoResets
      ((((k.deliver e).preempt pid).enqueueAt level pid).schedule 4).restartQuantum.toCore
      ((((k.deliver e).preempt pid).enqueueAt level pid).schedule 4).restartQuantum.totals := by
  have hvacant := hk.vacant_preempt hhalted (by rw [hclock]; rfl) hcurrent hlevel
  have hcase := hvacant.scheduleCase
  have hcore : (((k.deliver e).preempt pid).enqueueAt level pid).toCore = k.toCore.deliver e :=
    toCore_preempt _ _
  have hnow : (((k.deliver e).preempt pid).enqueueAt level pid).clock = e.clock := by
    rw [hcore]
    exact Core.deliver_clock _ _
  have hends : ¬e.Ends := Event.not_ends_of_interrupt (by rw [hclock]; decide)
  -- the process that was preempted is ready, so `schedule` does not exit
  have hhalted' : ((((k.deliver e).preempt pid).enqueueAt level pid).schedule 4).halted = none := by
    refine hvacant.schedule_halted level ?_
    show Function.update ((k.deliver e).preempt pid).readyQueues level
      (enqueue (((k.deliver e).preempt pid).readyQueues level) pid) level ≠ []
    rw [Function.update_self]
    exact List.concat_ne_nil pid _
  rw [Multilevel.restartQuantum, if_pos hhalted']
  refine .charged (hcase.clock.trans hnow) (hcase.clock.trans hnow) (fun _ => id)
    (hcase.totals.trans (totals_preempt hcurrent))
    (hcase.exitsTold (Core.exitsTold_of_not_ends hends ?_))
  rw [hcore]
  exact Core.noExits_deliver

theorem Inv.billed_answer {device : Device} {pid : Pid} {level : Fin 5} (hk : k.Inv)
    (hhalted : k.halted = none) (hdevice : e.interrupt.device? = some device)
    (hR1 : e.R1 = (pid : ℕ)) (hrequest : pid ∈ k.requests device)
    (hlevel : k.priority pid = (level : ℕ)) :
    Billed k.toCore k.totals e NoResets
      (((k.deliver e).finishRead device pid).enqueueAt level pid).scheduleIfIdle.toCore
      (((k.deliver e).finishRead device pid).enqueueAt level pid).scheduleIfIdle.totals := by
  have hends : ¬e.Ends := by
    intro hends
    rw [hends.1] at hdevice
    cases hdevice
  have htotals : (((k.deliver e).finishRead device pid).enqueueAt level pid).totals = k.totals :=
    totals_setState _ _ _
  have hexits : (((k.deliver e).finishRead device pid).enqueueAt level pid).toCore.NoExits :=
    Core.noExits_deliver.print fun _ _ _ => Message.noConfusion
  rcases hk.answer_cases hhalted hdevice hR1 hrequest hlevel rfl with
    ⟨hidle, hvacant, heq⟩ | ⟨_, heq⟩
  · rw [heq]
    refine billed_of_schedule hvacant (Core.deliver_clock _ _) (Core.deliver_clock _ _) ?_
      (Core.exitsTold_of_not_ends hends hexits)
    rw [Core.charged_of_idle hidle]
    exact htotals
  · rw [heq]
    exact billed_of_kept rfl rfl rfl htotals hends hexits

end Handlers

/-- Every way an event can go bills as it should, but for the processes it creates. -/
theorem Effect.billed {k k' : Multilevel} {e : Event} (hk : k.Inv) (hhalted : k.halted = none)
    (h : Effect k e k') : Billed k.toCore k.totals e NoResets k'.toCore k'.totals := by
  have hexits : (k.toCore.deliver e).NoExits := Core.noExits_deliver
  cases h with
  | quiet messages _ _ hmessages _ hends =>
    exact billed_of_kept rfl rfl rfl rfl hends hmessages.noExits
  | read device pid hdevice _ hcurrent _ hends =>
    refine billed_of_schedule (hk.vacant_issueRead hhalted hdevice hcurrent device) ?_ ?_
      (totals_issueRead hcurrent device) (Core.exitsTold_of_not_ends hends ?_)
    · rw [toCore_issueRead]
      exact Core.deliver_clock _ _
    · rw [toCore_issueRead]
      exact Core.deliver_clock _ _
    · rw [toCore_issueRead]
      exact hexits.print fun _ _ _ => Message.noConfusion
  | fork runner pid level _ _ _ _ _ hforks =>
    exact billed_of_kept rfl rfl rfl (totals_setState _ _ _) hforks.not_ends
      (hexits.print fun _ _ _ => Message.noConfusion)
  | kill pid hdevice _ hcurrent hends =>
    refine billed_of_schedule (hk.vacant_endProcess hhalted hdevice hcurrent)
      (Core.deliver_clock _ _) (Core.deliver_clock _ _) (totals_endProcess hcurrent)
      (Core.exitsTold_of_exit hends hcurrent ?_)
    show (k.toCore.deliver e).output ++ [.exits (k.toCore.deliver e).clock (some pid) _] = _
    rw [Core.deliver_output, Core.deliver_clock]
    rfl
  | wake s runner pid next level _ hop _ _ _ _ _ _ =>
    exact billed_of_kept rfl rfl rfl (totals_setState _ _ _) hop.not_ends
      (hexits.print fun _ _ _ => Message.noConfusion)
  | release s runner _ hop _ _ _ _ =>
    exact billed_of_kept rfl rfl rfl rfl hop.not_ends
      (hexits.print fun _ _ _ => Message.noConfusion)
  | pass s runner _ hop _ _ _ _ =>
    exact billed_of_kept rfl rfl rfl rfl hop.not_ends
      (hexits.print fun _ _ _ => Message.noConfusion)
  | wait s pid hdevice hop _ _ _ hcurrent =>
    refine billed_of_schedule (hk.vacant_waitFor hhalted hdevice hcurrent s) ?_ ?_
      (totals_waitFor hcurrent s) (Core.exitsTold_of_not_ends hop.not_ends ?_)
    · rw [toCore_waitFor]
      exact Core.deliver_clock _ _
    · rw [toCore_waitFor]
      exact Core.deliver_clock _ _
    · rw [toCore_waitFor]
      exact hexits.print fun _ _ _ => Message.noConfusion
  | preempt pid level _ _ hcurrent hlevel hclock =>
    exact hk.billed_preempt hhalted hclock hcurrent hlevel
  | answer device pid level hdevice _ hR1 hrequest hlevel =>
    exact hk.billed_answer hhalted hdevice hR1 hrequest hlevel

theorem Step.billed {k k' : Multilevel} {e : Event} (hk : k.Inv) (h : k.Step e k') :
    Billed k.toCore k.totals e NoResets k'.toCore k'.totals := by
  obtain ⟨k₁, hk₁, heffect⟩ := interrupt_effect hk.ranged h.1
  rw [h.2, Option.some.injEq] at hk₁
  rw [hk₁]
  exact heffect.billed hk h.1.1

/-! ## Runs -/

/-- A run from the given state after `initialize_kernel`. -/
def RunFrom (k₀ : Multilevel) : List (Event × Multilevel) → Multilevel → Prop :=
  Run (· = k₀) fun _ k e k' => k.Step e k'

theorem RunFrom.kernelRun {k₀ : Multilevel} (hboot : k₀.Booted) {h : List (Event × Multilevel)}
    {k : Multilevel} (hrun : RunFrom k₀ h k) : KernelRun h k :=
  Run.mono (fun _ hk => by rw [hk]; exact hboot) (fun _ _ _ _ hstep => hstep) hrun

/-- A process is created while another one runs. -/
theorem Step.fork_not_current {k k' : Multilevel} {e : Event} (hk : k.Inv) (h : k.Step e k')
    {pid : Pid} (hforks : e.Forks pid) : k.currentPid ≠ some pid := by
  intro hcurrent
  have hrunning : k.state pid = .running := Core.state_running (hk.census h.1.1) hcurrent
  have hevent := h.1.2
  rw [hforks.1] at hevent
  obtain ⟨child, hR2, hfree⟩ := hevent.2.1 hforks.2.1
  have hchild : child = pid := Fin.ext (Int.ofNat.inj (hR2.symm.trans hforks.2.2))
  rw [hchild, hrunning] at hfree
  exact ProcessState.noConfusion hfree

section Runs

variable {k₀ k : Multilevel} {h : List (Event × Multilevel)}

theorem Booted.accounted {k : Multilevel} (hk : k.Booted) :
    Accounted k.toCore k.totals fun _ => 0 := by
  obtain ⟨pid, clock, rfl⟩ := booted_iff.mp hk
  intro p
  have hfresh : (boot pid clock).elapsed = 0#32 := Core.elapsed_of_start rfl rfl
  rw [hfresh, ite_self, BitVec.add_zero]
  by_cases hp : p = pid
  · simp [totals, boot, hp]
  · simp [totals, boot, Function.update_of_ne hp]

/-- The totals follow the times of the pids. -/
theorem RunFrom.accounted (hboot : k₀.Booted) (hrun : RunFrom k₀ h k) :
    Accounted k.toCore k.totals fun pid => pidTime toCore k₀ pid h := by
  refine Run.invariant (P := fun h k => Accounted k.toCore k.totals fun pid =>
    pidTime toCore k₀ pid h) ?_ ?_ hrun
  · rintro _ rfl
    exact hboot.accounted
  · intro h k e k' hrun hk hstep
    have hnext := (hstep.billed (RunFrom.kernelRun hboot hrun).inv).accounted hk
    simp only [pidTime, timeSince, hrun.reached_eq, if_false] at hnext ⊢
    exact hnext

/-- The time of a pid is the process's own and that of the earlier ones. -/
theorem RunFrom.pidTime_eq (hboot : k₀.Booted) (hrun : RunFrom k₀ h k) (pid : Pid) :
    pidTime toCore k₀ pid h = earlierTime toCore k₀ pid h + cpuTime toCore k₀ pid h := by
  refine SimOS.pidTime_eq toCore k₀ pid fun e k' h' hsuffix hforks => ?_
  obtain ⟨k₁, hrun', hstep⟩ := Run.exists_step hrun hsuffix
  rw [hrun'.reached_eq]
  exact hstep.fork_not_current (RunFrom.kernelRun hboot hrun').inv hforks

/-- Whoever exited in the run was told its CPU time. -/
def ExitsExact (k₀ : Multilevel) (h : List (Event × Multilevel)) : Prop :=
  ∀ e k' h', ((e, k') :: h') <:+ h → ∀ time q total, Message.exits time q total ∈ k'.output →
    ∃ pid, q = some pid ∧ total = BitVec.ofNat 32 (cpuTime toCore k₀ pid ((e, k') :: h'))

/-- An exit is told the CPU time of the process and of the earlier ones with its pid. -/
theorem RunFrom.exits_iff {e : Event} {k' : Multilevel} (hboot : k₀.Booted)
    (hrun : RunFrom k₀ h k) (hstep : k.Step e k') (time : Word) (q : Option Pid) (total : Word) :
    Message.exits time q total ∈ k'.output ↔ e.Ends ∧ time = e.clock ∧
      ∃ pid, k.currentPid = some pid ∧ q = some pid ∧ total =
        BitVec.ofNat 32 (earlierTime toCore k₀ pid h + cpuTime toCore k₀ pid ((e, k') :: h)) := by
  have hnext : RunFrom k₀ ((e, k') :: h) k' := .next hrun hstep
  rw [(hstep.billed (hrun.kernelRun hboot).inv).exits_iff (hnext.accounted hboot)]
  refine and_congr_right fun hends => ?_
  simp only [hnext.pidTime_eq hboot, earlierTime, if_neg (hends.not_forks _)]

/-- A process that ends is told its CPU time and that of the earlier ones. -/
theorem RunFrom.exits_endAt (hboot : k₀.Booted) (hrun : RunFrom k₀ h k) (pid : Pid) (clock : Word)
    (hhalted : k.halted = none) (hcurrent : k.currentPid = some pid) :
    ∃ k', RunFrom k₀ ((.endAt clock, k') :: h) k' ∧ Message.exits clock (some pid)
      (BitVec.ofNat 32 (earlierTime toCore k₀ pid h +
        cpuTime toCore k₀ pid ((.endAt clock, k') :: h))) ∈ k'.output := by
  have hstep := step_endAt clock hhalted hcurrent
  refine ⟨_, .next hrun hstep, (hrun.exits_iff hboot hstep _ _ _).mpr ?_⟩
  exact ⟨⟨rfl, rfl⟩, rfl, pid, hcurrent, rfl, rfl⟩

/-- Adding a multiple of 2^32 is all that does not show in 32 bits. -/
theorem ofNat_add_eq_iff (m n : ℕ) :
    BitVec.ofNat 32 (m + n) = BitVec.ofNat 32 n ↔ 2 ^ 32 ∣ m := by
  rw [← BitVec.toNat_inj, BitVec.toNat_ofNat, BitVec.toNat_ofNat]
  omega

/-- Everybody who exits in a run is told its CPU time if and only if, whenever a
process ends, the earlier processes with its pid have used a multiple of 2^32. -/
theorem exits_exact_iff {k₀ k : Multilevel} {h : List (Event × Multilevel)} (hboot : k₀.Booted)
    (hrun : RunFrom k₀ h k) :
    ExitsExact k₀ h ↔ ∀ e k' h', ((e, k') :: h') <:+ h → e.Ends →
      ∀ pid, (reached k₀ h').currentPid = some pid → 2 ^ 32 ∣ earlierTime toCore k₀ pid h' := by
  refine forall_congr' fun e => forall_congr' fun k' => forall_congr' fun h' =>
    forall_congr' fun hsuffix => ?_
  obtain ⟨k₁, hrun', hstep⟩ := Run.exists_step hrun hsuffix
  have hexits := RunFrom.exits_iff hboot hrun' hstep
  rw [hrun'.reached_eq]
  constructor
  · intro hexact hends pid hcurrent
    have hmem := (hexits _ _ _).mpr ⟨hends, rfl, pid, hcurrent, rfl, rfl⟩
    obtain ⟨p, hp, htotal⟩ := hexact _ _ _ hmem
    rw [← Option.some.inj hp] at htotal
    exact (ofNat_add_eq_iff _ _).mp htotal
  · intro hmultiple time q total hmem
    obtain ⟨hends, _, pid, hcurrent, hq, htotal⟩ := (hexits time q total).mp hmem
    refine ⟨pid, hq, ?_⟩
    rw [htotal]
    exact (ofNat_add_eq_iff _ _).mpr (hmultiple hends pid hcurrent)

end Runs

/-- Process 0 is the first with its pid, so it is told its own time. -/
theorem exits_exact_iff_endAt :
    ∃ k, RunFrom (boot 0 0#32) [(.endAt 7#32, k)] k ∧
      ExitsExact (boot 0 0#32) [(.endAt 7#32, k)] := by
  have hboot : (boot 0 0#32).Booted := booted_iff.mpr ⟨0, 0#32, rfl⟩
  have hstart : RunFrom (boot 0 0#32) [] (boot 0 0#32) := .start rfl
  obtain ⟨k, hrun, _⟩ := hstart.exits_endAt hboot 0 7#32 rfl rfl
  refine ⟨k, hrun, (exits_exact_iff hboot hrun).mpr ?_⟩
  intro e k' h' hsuffix _ pid _
  rcases List.suffix_cons_iff.mp hsuffix with heq | hnil
  · rw [(List.cons.inj heq).2]
    exact dvd_zero _
  · exact absurd (List.suffix_nil.mp hnil) (List.cons_ne_nil _ _)

/-! ## A pid that is used again -/

/-- The kernel once `pid` has exited at `clock` and `head`, alone in the ready
queue of `level`, was dispatched. -/
def endedAt (k : Multilevel) (pid head : Pid) (level : Fin 5) (clock : Word) : Multilevel :=
  ((k.deliver (.endAt clock)).endProcess pid).dispatchAt level head []

theorem RunFrom.forkedAt {k₀ k : Multilevel} {h : List (Event × Multilevel)}
    (hrun : RunFrom k₀ h k) (pid : Pid) (clock : Word) (hhalted : k.halted = none)
    (hcurrent : k.currentPid ≠ none) (hfree : k.state pid = .uninitialized)
    (hpriority : k.priority pid = 0) :
    RunFrom k₀ ((.forkAt pid clock, k.forkedAt pid 0 clock) :: h) (k.forkedAt pid 0 clock) :=
  .next hrun (step_forkAt _ hhalted hcurrent hfree hpriority)

theorem RunFrom.endedAt {k₀ k : Multilevel} {h : List (Event × Multilevel)}
    (hrun : RunFrom k₀ h k) (pid head : Pid) (clock : Word) (hhalted : k.halted = none)
    (hcurrent : k.currentPid = some pid)
    (hactive : ((k.deliver (.endAt clock)).endProcess pid).activeProcesses ≠ 0)
    (hhigh : ∀ level, level ≠ 0 → k.readyQueues level = [])
    (hqueue : k.readyQueues 0 = [head])
    (hstate : ((k.deliver (.endAt clock)).endProcess pid).state head ≠ .blocked) :
    RunFrom k₀ ((.endAt clock, k.endedAt pid head 0 clock) :: h) (k.endedAt pid head 0 clock) := by
  have hstep := step_endAt clock hhalted hcurrent
  rw [schedule_eq_dispatchAt (k := (k.deliver (.endAt clock)).endProcess pid) hactive hqueue
    (fun level hlevel => hhigh level hlevel.ne') hstate] at hstep
  exact .next hrun hstep

/-- Process 0 creates process 1 at 5 and exits at 12, and process 1 creates
another process 0 at 20 and exits at 30. This one runs until 35, and is told 17
when it exits. -/
theorem exits_told_earlier_time : ∃ h k, RunFrom (boot 0 0#32) h k ∧
    Message.exits 35#32 (some 0) 17#32 ∈ k.output ∧ cpuTime toCore (boot 0 0#32) 0 h = 5 ∧
    ¬ExitsExact (boot 0 0#32) h := by
  have hboot : (boot 0 0#32).Booted := booted_iff.mpr ⟨0, 0#32, rfl⟩
  have hstart : RunFrom (boot 0 0#32) [] (boot 0 0#32) := .start rfl
  have hforked := hstart.forkedAt 1 5#32 rfl (Option.some_ne_none 0) rfl rfl
  have hended := hforked.endedAt 0 1 12#32 rfl rfl (by decide) (by decide) rfl (by decide)
  have hagain := hended.forkedAt 0 20#32 rfl (Option.some_ne_none 1) rfl rfl
  have hfreed := hagain.endedAt 1 0 30#32 rfl rfl (by decide) (by decide) rfl (by decide)
  obtain ⟨k, hrun, hmem⟩ := hfreed.exits_endAt hboot 0 35#32 rfl rfl
  refine ⟨_, k, hrun, hmem, rfl, fun hexact => ?_⟩
  obtain ⟨pid, hpid, htotal⟩ := hexact _ _ _ (List.suffix_refl _) _ _ _ hmem
  rw [← Option.some.inj hpid] at htotal
  have hused : (17#32 : Word) = 5#32 := htotal
  exact absurd hused (by decide)

end Multilevel

end SimOS
