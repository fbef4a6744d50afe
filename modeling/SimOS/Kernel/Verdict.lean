import SimOS.Kernel.RoundRobinRuns
import SimOS.Kernel.MultilevelRuns

/-!
# What the kernels report about the system

After every event a kernel runs a process, is idle, or has exited with one of
its two messages. Each of these says something about all processes, and the
kernels say it exactly when it is true, although `schedule` only looks at two
counters and at the ready queues.
-/

namespace SimOS

/-- What a kernel reports after an event. -/
inductive Verdict
  | running
  | idle
  | finished
  | deadlocked
  deriving DecidableEq

namespace Core

variable {L : Type} {c : Core} {ready : L → List Pid} {state : Pid → ProcessState}

/-- The report is made, and is true of the system. -/
def Reports (c : Core) (ready : L → List Pid) (state : Pid → ProcessState) : Verdict → Prop
  | .running => ∃ pid, c.currentPid = some pid ∧ state pid = .running
  | .idle =>
    c.currentPid = none ∧ (∀ level, ready level = []) ∧
      ∃ pid device, state pid ≠ .uninitialized ∧ pid ∈ c.requests device
  | .finished => c.halted = some .noMoreProcesses ∧ ∀ pid, state pid = .uninitialized
  | .deadlocked =>
    c.halted = some .deadlockedSystem ∧ (∃ pid, state pid ≠ .uninitialized) ∧
      (∀ device, c.requests device = []) ∧
      ∀ pid, state pid ≠ .uninitialized → ∃ s, pid ∈ (c.semaphores s).waiting

/-- Neither exit message is printed before an exit. -/
theorem reports_of_not_halted {verdict : Verdict} (hhalted : c.halted = none)
    (hverdict : c.Reports ready state verdict) : verdict = .running ∨ verdict = .idle := by
  cases verdict with
  | running => exact .inl rfl
  | idle => exact .inr rfl
  | finished => exact absurd (hhalted.symm.trans hverdict.1) (Option.some_ne_none _).symm
  | deadlocked => exact absurd (hhalted.symm.trans hverdict.1) (Option.some_ne_none _).symm

variable [DecidableEq L]

section Census

variable {run : Option Pid} (hinv : (c.census run ready state).Inv)

include hinv

/-- Nobody runs while nobody is on the CPU. -/
theorem state_ne_running (hrun : run = none) (pid : Pid) : state pid ≠ .running := by
  intro hstate
  have hlive : state pid ≠ .uninitialized := by
    rw [hstate]
    decide
  obtain ⟨place, hplace, hcount⟩ := hinv.accounted.1 pid hlive
  have hplace' : state pid = Place.state (some place) := hplace
  rw [hstate] at hplace'
  cases place with
  | cpu =>
    have hone := hcount .cpu
    rw [if_pos rfl] at hone
    have hmem : pid ∈ run.toList := List.count_pos_iff.mp (hone ▸ Nat.one_pos)
    rw [hrun] at hmem
    exact List.not_mem_nil hmem
  | _ => exact ProcessState.noConfusion hplace'

/-- The counter of active processes is 0 exactly when no process lives. -/
theorem activeProcesses_eq_zero_iff :
    c.activeProcesses = 0 ↔ ∀ pid, state pid = .uninitialized := by
  have hactive : c.activeProcesses =
      (Finset.univ.filter fun pid => state pid ≠ .uninitialized).card := hinv.accounted.2.2.1
  rw [hactive, Int.natCast_eq_zero, Finset.card_eq_zero, Finset.filter_eq_empty_iff]
  refine ⟨fun h pid => not_not.mp (h (Finset.mem_univ pid)), fun h pid _ => not_not.mpr (h pid)⟩

/-- The counter of reads is 0 exactly when no read is outstanding. -/
theorem ioProcesses_eq_zero_iff : c.ioProcesses = 0 ↔ ∀ device, c.requests device = [] := by
  have hio : c.ioProcesses = (c.requests .disk).length + (c.requests .keyboard).length :=
    hinv.accounted.2.2.2
  rw [hio]
  constructor
  · intro hzero device
    cases device with
    | disk => exact List.length_eq_zero_iff.mp (by omega)
    | keyboard => exact List.length_eq_zero_iff.mp (by omega)
  · intro hempty
    rw [hempty, hempty]
    rfl

theorem exists_request (hio : c.ioProcesses ≠ 0) : ∃ device pid, pid ∈ c.requests device := by
  by_contra hnone
  push Not at hnone
  refine hio ((ioProcesses_eq_zero_iff hinv).mpr fun device => ?_)
  exact List.eq_nil_iff_forall_not_mem.mpr (hnone device)

/-- A process with an outstanding read lives. -/
theorem live_of_request {pid : Pid} {device : Device} (hpid : pid ∈ c.requests device) :
    state pid ≠ .uninitialized := by
  have hblocked : state pid = .blocked := hinv.state_of_mem (.device device) hpid
  rw [hblocked]
  decide

/-- A process that lives is somewhere. -/
theorem exists_place {pid : Pid} (hpid : state pid ≠ .uninitialized) :
    ∃ place, pid ∈ (c.census run ready state).occupants place := by
  obtain ⟨place, _, hcount⟩ := hinv.accounted.1 pid hpid
  have hone := hcount place
  rw [if_pos rfl] at hone
  exact ⟨place, List.count_pos_iff.mp (hone ▸ Nat.one_pos)⟩

end Census

/-! ## One report at a time -/

theorem existsUnique_running {pid : Pid} (hcurrent : c.currentPid = some pid)
    (hhalted : c.halted = none) (hinv : (c.census (some pid) ready state).Inv) :
    ∃! verdict, c.Reports ready state verdict := by
  refine ⟨.running, ⟨pid, hcurrent, state_running hinv rfl⟩, fun verdict hverdict => ?_⟩
  rcases reports_of_not_halted hhalted hverdict with rfl | rfl
  · rfl
  · exact absurd (hverdict.1.symm.trans hcurrent) (Option.some_ne_none _).symm

theorem existsUnique_idle (hcurrent : c.currentPid = none) (hhalted : c.halted = none)
    (hinv : (c.census none ready state).Inv) (hempty : ∀ level, ready level = [])
    (hio : c.ioProcesses ≠ 0) : ∃! verdict, c.Reports ready state verdict := by
  -- the counter is not 0, so some driver still has a read to answer
  obtain ⟨device, pid, hpid⟩ := exists_request hinv hio
  refine ⟨.idle, ⟨hcurrent, hempty, pid, device, live_of_request hinv hpid, hpid⟩,
    fun verdict hverdict => ?_⟩
  rcases reports_of_not_halted hhalted hverdict with rfl | rfl
  · obtain ⟨p, hp, _⟩ := hverdict
    exact absurd (hcurrent.symm.trans hp) (Option.some_ne_none _).symm
  · rfl

theorem existsUnique_finished (hhalted : c.halted = some .noMoreProcesses)
    (hinv : (c.census none ready state).Inv) (hactive : c.activeProcesses = 0) :
    ∃! verdict, c.Reports ready state verdict := by
  have hdead := (activeProcesses_eq_zero_iff hinv).mp hactive
  refine ⟨.finished, ⟨hhalted, hdead⟩, fun verdict hverdict => ?_⟩
  cases verdict with
  | running =>
    obtain ⟨pid, _, hpid⟩ := hverdict
    exact absurd hpid (state_ne_running hinv rfl pid)
  | idle =>
    obtain ⟨_, _, pid, _, hpid, _⟩ := hverdict
    exact absurd (hdead pid) hpid
  | finished => rfl
  | deadlocked =>
    obtain ⟨_, ⟨pid, hpid⟩, _⟩ := hverdict
    exact absurd (hdead pid) hpid

/-- With the CPU, the ready queues and the drivers empty, only semaphores are left. -/
theorem waits_of_deadlock (hinv : (c.census none ready state).Inv)
    (hempty : ∀ level, ready level = []) (hnone : ∀ device, c.requests device = []) {pid : Pid}
    (hpid : state pid ≠ .uninitialized) : ∃ s, pid ∈ (c.semaphores s).waiting := by
  obtain ⟨place, hmem⟩ := exists_place hinv hpid
  cases place with
  | cpu => exact absurd hmem List.not_mem_nil
  | ready level =>
    change pid ∈ ready level at hmem
    rw [hempty level] at hmem
    exact absurd hmem List.not_mem_nil
  | device device =>
    change pid ∈ c.requests device at hmem
    rw [hnone device] at hmem
    exact absurd hmem List.not_mem_nil
  | semaphore s => exact ⟨s, hmem⟩

theorem existsUnique_deadlocked (hhalted : c.halted = some .deadlockedSystem)
    (hinv : (c.census none ready state).Inv) (hempty : ∀ level, ready level = [])
    (hactive : c.activeProcesses ≠ 0) (hio : c.ioProcesses = 0) :
    ∃! verdict, c.Reports ready state verdict := by
  have hnone := (ioProcesses_eq_zero_iff hinv).mp hio
  have hlive : ∃ pid, state pid ≠ .uninitialized := by
    by_contra hdead
    push Not at hdead
    exact hactive ((activeProcesses_eq_zero_iff hinv).mpr hdead)
  refine ⟨.deadlocked, ⟨hhalted, hlive, hnone, fun pid hpid => ?_⟩, fun verdict hverdict => ?_⟩
  · exact waits_of_deadlock hinv hempty hnone hpid
  · cases verdict with
    | running =>
      obtain ⟨pid, _, hpid⟩ := hverdict
      exact absurd hpid (state_ne_running hinv rfl pid)
    | idle =>
      obtain ⟨_, _, pid, device, _, hpid⟩ := hverdict
      rw [hnone device] at hpid
      exact absurd hpid List.not_mem_nil
    | finished =>
      obtain ⟨pid, hpid⟩ := hlive
      exact absurd (hverdict.2 pid) hpid
    | deadlocked => rfl

/-- Exactly one report is made and true once a handler is done. -/
theorem Settled.existsUnique_report (h : c.Settled ready state) :
    ∃! verdict, c.Reports ready state verdict := by
  cases h with
  | running hcurrent hhalted hinv => exact existsUnique_running hcurrent hhalted hinv
  | idle hcurrent hhalted hinv hempty hio =>
    exact existsUnique_idle hcurrent hhalted hinv hempty hio
  | finished hhalted hinv hactive => exact existsUnique_finished hhalted hinv hactive
  | deadlocked hhalted hinv hempty hactive hio =>
    exact existsUnique_deadlocked hhalted hinv hempty hactive hio

/-- An idle processor waits for an interrupt that can come. -/
theorem Settled.exists_interrupt (h : c.Settled ready state) (hcurrent : c.currentPid = none)
    (hhalted : c.halted = none) : ∃ e, e.interrupt.device? ≠ none ∧ c.Legal state e := by
  cases h with
  | running hrunning _ _ => exact absurd (hcurrent.symm.trans hrunning) (Option.some_ne_none _).symm
  | idle _ _ hinv _ hio =>
    obtain ⟨device, pid, hpid⟩ := exists_request hinv hio
    cases device with
    | disk =>
      refine ⟨⟨c.clock, .diskInterrupt, (pid : ℕ), 0, 0⟩, Option.some_ne_none _, hhalted, ?_⟩
      exact ⟨pid, rfl, hpid⟩
    | keyboard =>
      refine ⟨⟨c.clock, .keyboardInterrupt, (pid : ℕ), 0, 0⟩, Option.some_ne_none _, hhalted, ?_⟩
      exact ⟨pid, rfl, hpid⟩
  | finished hexit _ _ => exact absurd (hhalted.symm.trans hexit) (Option.some_ne_none _).symm
  | deadlocked hexit _ _ _ _ =>
    exact absurd (hhalted.symm.trans hexit) (Option.some_ne_none _).symm

end Core

/-- Both kernels report completion, deadlock and idleness exactly: along every run
one report is true, and no other. And an idle kernel can always be woken by an
interrupt. -/
theorem reports_exactly :
    (∀ h k, RoundRobin.KernelRun h k →
      (∃! verdict, k.toCore.Reports (fun _ : Unit => k.readyQueue) k.state verdict) ∧
      (k.currentPid = none → k.halted = none →
        ∃ e, e.interrupt.device? ≠ none ∧ k.toCore.Legal k.state e)) ∧
    ∀ h k, Multilevel.KernelRun h k →
      (∃! verdict, k.toCore.Reports k.readyQueues k.state verdict) ∧
      (k.currentPid = none → k.halted = none →
        ∃ e, e.interrupt.device? ≠ none ∧ k.toCore.Legal k.state e) := by
  constructor
  · intro h k hrun
    exact ⟨hrun.inv.settled.existsUnique_report, hrun.inv.settled.exists_interrupt⟩
  · intro h k hrun
    exact ⟨hrun.inv.settled.existsUnique_report, hrun.inv.settled.exists_interrupt⟩

/-- After a fork both kernels report that a process runs, and nothing else. -/
theorem reports_exactly_forkOne :
    (∀ verdict, (((RoundRobin.boot 0 0#32).deliver .forkOne).createProcess 1).toCore.Reports
      (fun _ : Unit => [1]) (((RoundRobin.boot 0 0#32).deliver .forkOne).createProcess 1).state
      verdict → verdict = .running) ∧
    ∀ verdict, ((((Multilevel.boot 0 0#32).deliver .forkOne).createProcess 1).enqueueAt 0
      1).toCore.Reports
      ((((Multilevel.boot 0 0#32).deliver .forkOne).createProcess 1).enqueueAt 0 1).readyQueues
      ((((Multilevel.boot 0 0#32).deliver .forkOne).createProcess 1).enqueueAt 0 1).state
      verdict → verdict = .running := by
  constructor
  · intro verdict hverdict
    have hall := reports_exactly.1 [(.forkOne, _)] _
      (.next (.start (RoundRobin.booted_iff.mpr ⟨0, 0#32, rfl⟩))
        ⟨RoundRobin.legal_forkOne 0#32, rfl⟩)
    exact hall.1.unique hverdict ⟨0, rfl, rfl⟩
  · intro verdict hverdict
    have hall := reports_exactly.2 [(.forkOne, _)] _
      (.next (.start (Multilevel.booted_iff.mpr ⟨0, 0#32, rfl⟩))
        ⟨Multilevel.legal_forkOne 0#32, rfl⟩)
    exact hall.1.unique hverdict ⟨0, rfl, rfl⟩

end SimOS
