import SimOS.Kernel.RoundRobinTurns

/-!
# CPU time in the round-robin kernel

Along every run the totals in the process table, with what the current process
has used of its quantum, are the CPU times of the processes modulo 2^32. So
every process is told its CPU time when it exits, and a process is preempted at
the first clock interrupt at which its quantum is over.
-/

namespace SimOS

open Library

namespace RoundRobin

/-- A run from the given state after `initialize_kernel`. -/
def RunFrom (k₀ : RoundRobin) : List (Event × RoundRobin) → RoundRobin → Prop :=
  Run (· = k₀) fun _ k e k' => k.Step e k'

theorem RunFrom.kernelRun {k₀ : RoundRobin} (hboot : k₀.Booted) {h : List (Event × RoundRobin)}
    {k : RoundRobin} (hrun : RunFrom k₀ h k) : KernelRun h k :=
  Run.mono (fun _ hk => by rw [hk]; exact hboot) (fun _ _ _ _ hstep => hstep) hrun

theorem Outcome.billed {k k' : RoundRobin} {e : Event} (h : Outcome k e k') :
    Billed k.toCore k.totals e e.Forks k'.toCore k'.totals := by
  cases h with
  | kept _ hclock hcurrent hstart htotals hfresh hends hexits _ =>
    refine .goesOn hclock hcurrent hstart (fun pid hpid => ?_)
      (fun pid hpid => ⟨?_, hfresh pid hpid⟩) hends hexits
    · rw [htotals, if_neg hpid]
    · rw [htotals, if_pos hpid]
  | served _ _ _ hclock hstart htotals hforks hexits =>
    exact .charged hclock hstart hforks htotals hexits

theorem Outcome.turn {k k' : RoundRobin} {e : Event} (h : Outcome k e k') :
    k.toCore.Turn e k'.toCore := by
  cases h with
  | kept hjoins hclock hcurrent hstart _ _ _ _ _ =>
    exact .goesOn hclock hcurrent hstart hjoins.silent.dispatched_eq
  | served _ _ hserved hclock hstart _ _ _ =>
    refine .ended hclock hstart fun hhalted hbusy => ?_
    cases hserved with
    | nobody _ _ hidle _ => exact absurd (hidle hhalted) hbusy
    | runs pid _ _ _ hdispatched =>
      rw [hdispatched]
      exact List.cons_ne_nil pid []

theorem elapsed_boot (pid : Pid) (clock : Word) : (boot pid clock).elapsed = 0#32 :=
  Core.elapsed_of_start rfl rfl

theorem Booted.accounted {k : RoundRobin} (hk : k.Booted) :
    Accounted k.toCore k.totals fun _ => 0 := by
  obtain ⟨pid, clock, rfl⟩ := booted_iff.mp hk
  intro p
  rw [elapsed_boot, ite_self, BitVec.add_zero]
  by_cases hp : p = pid
  · simp [totals, boot, hp]
  · simp [totals, boot, Function.update_of_ne hp]

section Runs

variable {k₀ k : RoundRobin} {h : List (Event × RoundRobin)}

/-- The totals follow the CPU times. -/
theorem RunFrom.accounted (hboot : k₀.Booted) (hrun : RunFrom k₀ h k) :
    Accounted k.toCore k.totals fun pid => cpuTime toCore k₀ pid h := by
  refine Run.invariant (P := fun h k => Accounted k.toCore k.totals fun pid =>
    cpuTime toCore k₀ pid h) ?_ ?_ hrun
  · rintro _ rfl
    exact hboot.accounted
  · intro h k e k' hrun hk hstep
    have houtcome := hstep.outcome (RunFrom.kernelRun hboot hrun).inv
    have hnext := houtcome.billed.accounted hk
    simp only [cpuTime, timeSince, hrun.reached_eq] at hnext ⊢
    exact hnext

/-- While a process is current, `clock - current_quantum_start_time` is the time
its quantum has lasted. -/
theorem RunFrom.elapsed_eq (hboot : k₀.Booted) (hrun : RunFrom k₀ h k) :
    k.halted = none → k.currentPid ≠ none →
      k.elapsed = BitVec.ofNat 32 (quantumAge toCore k₀ h) := by
  refine Run.invariant (P := fun h k => k.halted = none → k.currentPid ≠ none →
    k.elapsed = BitVec.ofNat 32 (quantumAge toCore k₀ h)) ?_ ?_ hrun
  · rintro _ rfl _ _
    obtain ⟨pid, clock, rfl⟩ := booted_iff.mp hboot
    exact elapsed_boot pid clock
  · intro h k e k' hrun ih hstep hhalted hbusy
    have hturn := (hstep.outcome (RunFrom.kernelRun hboot hrun).inv).turn
    rw [quantumAge, hrun.reached_eq]
    exact hturn.elapsed_eq (ih hstep.1.1) hhalted hbusy

end Runs

/-- CPU accounting is exact. Whoever exits, and nobody else, is told for how long
it has been current since it was created, modulo 2^32; and while quanta last less
than 2^32 a clock interrupt preempts the current process if its quantum has
lasted for `QUANTUM`, and does nothing otherwise. -/
theorem cpu_time_exact {k₀ k k' : RoundRobin} {h : List (Event × RoundRobin)} {e : Event}
    (hboot : k₀.Booted) (hrun : RunFrom k₀ h k) (hstep : k.Step e k') :
    (∀ time q total, Message.exits time q total ∈ k'.output ↔ e.Ends ∧ time = e.clock ∧
      ∃ pid, k.currentPid = some pid ∧ q = some pid ∧
        total = BitVec.ofNat 32 (cpuTime toCore k₀ pid ((e, k') :: h))) ∧
    (e.interrupt = .clockInterrupt → quantumAge toCore k₀ h + k.toCore.gap e < 2 ^ 32 →
      (k.currentPid = none → k' = k.deliver e) ∧
      ∀ pid, k.currentPid = some pid →
        k' = if 40 ≤ quantumAge toCore k₀ h + k.toCore.gap e
          then ((k.deliver e).preempt pid).schedule.restartQuantum
          else k.deliver e) := by
  constructor
  · have hnext : RunFrom k₀ ((e, k') :: h) k' := .next hrun hstep
    exact (hstep.outcome (hrun.kernelRun hboot).inv).billed.exits_iff (hnext.accounted hboot)
  · intro hclock hshort
    have hk' : k' = (k.deliver e).handleClockInterrupt := by
      have hhandled := hstep.2
      rw [interrupt, hclock] at hhandled
      exact (Option.some.inj hhandled).symm
    have hcurrent : (k.deliver e).currentPid = k.currentPid := Core.deliver_currentPid k.toCore e
    rw [hk', handleClockInterrupt, hcurrent]
    refine ⟨fun hidle => by rw [hidle], fun pid hpid => ?_⟩
    have hage : (k.deliver e).elapsed =
        BitVec.ofNat 32 (quantumAge toCore k₀ h + k.toCore.gap e) := by
      have hbusy : k.currentPid ≠ none := by rw [hpid]; exact Option.some_ne_none pid
      show (k.toCore.deliver e).elapsed = _
      rw [Core.elapsed_deliver, BitVec.ofNat_add, ← hrun.elapsed_eq hboot hstep.1.1 hbusy,
        Core.elapsed_add_gap]
    have hdue : quantum ≤ (k.deliver e).elapsed ↔
        40 ≤ quantumAge toCore k₀ h + k.toCore.gap e := by
      rw [hage, BitVec.le_def, BitVec.toNat_ofNat, Nat.mod_eq_of_lt hshort]
      rfl
    rw [hpid]
    simp only [hdue]

/-- A process booted at 0 that exits at 7 is told 7, for which it was current. -/
theorem cpu_time_exact_endAt : ∃ k', (boot 0 0#32).interrupt (.endAt 7#32) = some k' ∧
    Message.exits 7#32 (some 0) 7#32 ∈ k'.output ∧
    7#32 = BitVec.ofNat 32 (cpuTime toCore (boot 0 0#32) 0 [(.endAt 7#32, k')]) := by
  have hactive : (((boot 0 0#32).deliver (.endAt 7#32)).endProcess 0).activeProcesses = 0 := rfl
  have houtput : (((boot 0 0#32).deliver (.endAt 7#32)).endProcess 0).schedule.output =
      [.exits 7#32 (some 0) 7#32, .halts .noMoreProcesses] := by
    rw [schedule, if_pos hactive]
    rfl
  have hmem : Message.exits 7#32 (some 0) 7#32 ∈
      (((boot 0 0#32).deliver (.endAt 7#32)).endProcess 0).schedule.output := by
    rw [houtput]
    exact List.mem_cons_self
  have hstep : (boot 0 0#32).Step (.endAt 7#32)
      (((boot 0 0#32).deliver (.endAt 7#32)).endProcess 0).schedule :=
    ⟨⟨rfl, Option.some_ne_none _, fun h => absurd h (by decide), fun h => absurd h (by decide)⟩,
      rfl⟩
  obtain ⟨_, _, pid, _, hpid, htotal⟩ :=
    ((cpu_time_exact (booted_iff.mpr ⟨0, 0#32, rfl⟩) (.start rfl) hstep).1 _ _ _).mp hmem
  rw [← Option.some.inj hpid] at htotal
  exact ⟨_, hstep.2, hmem, htotal⟩

end RoundRobin

end SimOS
