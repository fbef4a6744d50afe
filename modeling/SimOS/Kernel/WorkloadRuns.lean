import SimOS.Kernel.Workload
import SimOS.Kernel.MultilevelTurns

/-!
# The multilevel kernel under a generated workload

The programs of `prog.py` as what the processes do: each line but a `run` is a trap
of its process, in the registers `hardware.h` describes, and is executed once. The
order in which lines are executed is left open, as is when a process ends and what
the devices do. All results about runs of the kernel are about legal events, and
every event of such a run is legal.
-/

namespace SimOS

open Library

namespace Workload

/-- The argument is in the register. -/
def Line.Passes (l : Line) (register : ℤ) : Prop := ∃ n, l.arg = some n ∧ register = (n : ℕ)

/-- The trap that the line stands for. A `run` is none. -/
def Line.Issues (l : Line) (e : Event) : Prop :=
  e.interrupt = .trap ∧
    match l.event with
    | .run => False
    | .diskread => e.R1 = Trap.diskRead ∧ l.Passes e.R2
    | .keyboardread => e.R1 = Trap.keyboardRead
    | .diskwrite => e.R1 = Trap.diskWrite
    | .down => e.R1 = Trap.semaphoreOp ∧ l.Passes e.R2 ∧ e.R3 = 0
    | .up => e.R1 = Trap.semaphoreOp ∧ l.Passes e.R2 ∧ e.R3 = 1
    | .fork => e.R1 = Trap.forkProgram ∧ l.Passes e.R2

/-- The kernel, and the lines that were not executed yet. -/
structure Machine where
  kernel : Multilevel
  program : List Line

/-- The events that can come, with the lines that are left then: the current process
executes a line or ends, the clock ticks, or a device answers a request. -/
inductive Occurs (m : Machine) (e : Event) : List Line → Prop
  | line (l : Line) (hl : l ∈ m.program) (hcurrent : ∃ pid : Pid, m.kernel.currentPid = some pid ∧
      l.pid = (pid : ℕ)) (hissues : l.Issues e) : Occurs m e (m.program.erase l)
  | ends (hbusy : m.kernel.currentPid ≠ none) (hends : e.Ends) : Occurs m e m.program
  | clock (hclock : e.interrupt = .clockInterrupt) : Occurs m e m.program
  | device (device : Device) (pid : Pid) (hdevice : e.interrupt.device? = some device)
      (hR1 : e.R1 = (pid : ℕ)) (hrequest : pid ∈ m.kernel.requests device) :
      Occurs m e m.program

/-- A run of the kernel that boots into process 0 and executes the lines. -/
def WorkloadRun (lines : List Line) : List (Event × Machine) → Machine → Prop :=
  Run (fun m => (∃ clock, m.kernel = Multilevel.boot 0 clock) ∧ m.program = lines)
    fun _ m e m' => m.kernel.halted = none ∧ Occurs m e m'.program ∧
      m.kernel.interrupt e = some m'.kernel

theorem Line.Issues.fork {l : Line} {e : Event} (h : l.Issues e)
    (hcode : e.R1 = Trap.forkProgram) : l.event = .fork ∧ l.Passes e.R2 := by
  obtain ⟨_, h⟩ := h
  cases hevent : l.event with
  | fork =>
    rw [hevent] at h
    exact ⟨rfl, h.2⟩
  | run =>
    rw [hevent] at h
    exact h.elim
  | keyboardread =>
    rw [hevent] at h
    exact absurd (hcode.symm.trans h) (by decide)
  | diskwrite =>
    rw [hevent] at h
    exact absurd (hcode.symm.trans h) (by decide)
  | _ =>
    rw [hevent] at h
    exact absurd (hcode.symm.trans h.1) (by decide)

theorem Line.Issues.semaphoreOp {l : Line} {e : Event} (h : l.Issues e)
    (hcode : e.R1 = Trap.semaphoreOp) : (l.event = .down ∨ l.event = .up) ∧ l.Passes e.R2 := by
  obtain ⟨_, h⟩ := h
  cases hevent : l.event with
  | down =>
    rw [hevent] at h
    exact ⟨.inl rfl, h.2.1⟩
  | up =>
    rw [hevent] at h
    exact ⟨.inr rfl, h.2.1⟩
  | run =>
    rw [hevent] at h
    exact h.elim
  | keyboardread =>
    rw [hevent] at h
    exact absurd (hcode.symm.trans h) (by decide)
  | diskwrite =>
    rw [hevent] at h
    exact absurd (hcode.symm.trans h) (by decide)
  | _ =>
    rw [hevent] at h
    exact absurd (hcode.symm.trans h.1) (by decide)

theorem Line.Passes.eq {l : Line} {register : ℤ} (h : l.Passes register) {n : ℕ}
    (harg : l.arg = some n) : register = (n : ℕ) := by
  obtain ⟨n', harg', hregister⟩ := h
  obtain rfl := Option.some.inj (harg.symm.trans harg')
  exact hregister

/-- The pids that the lines fork are different, and free in the kernel. -/
structure Ready (k : Multilevel) (lines : List Line) : Prop where
  nodup : (forks lines).Nodup
  free : ∀ pid : Pid, (pid : ℕ) ∈ forks lines → k.state pid = .uninitialized
  valid : ∀ l ∈ lines, l.Valid

section Ready

variable {m : Machine} {e : Event} {lines : List Line} {l : Line}

/-- Executing a line takes the pid it forks from those that are left. -/
theorem forks_perm_erase (hl : l ∈ lines) :
    (forks lines).Perm (l.forked.toList ++ forks (lines.erase l)) := by
  have hperm := (List.perm_cons_erase hl).filterMap Line.forked
  rw [List.filterMap_cons] at hperm
  rw [forks, forks]
  cases hforked : l.forked with
  | none =>
    rw [hforked] at hperm
    exact hperm
  | some pid =>
    rw [hforked] at hperm
    exact hperm

theorem forked_eq (hevent : l.event = .fork) {n : ℕ} (harg : l.arg = some n) :
    l.forked = some n := by
  rw [Line.forked, if_pos hevent, harg]

theorem mem_forks (hl : l ∈ lines) {n : ℕ} (hforked : l.forked = some n) : n ∈ forks lines :=
  List.mem_filterMap.mpr ⟨l, hl, hforked⟩

/-- What the programs and the devices do is legal. -/
theorem Ready.legal (hm : Ready m.kernel m.program) (hhalted : m.kernel.halted = none)
    (hoccurs : Occurs m e lines) : m.kernel.toCore.Legal m.kernel.state e := by
  refine ⟨hhalted, ?_⟩
  cases hoccurs with
  | line l hl hcurrent hissues =>
    obtain ⟨runner, hcurrent, _⟩ := hcurrent
    have hvalid := hm.valid l hl
    rw [hissues.1]
    refine ⟨?_, fun hcode => ?_, fun hcode => ?_⟩
    · rw [hcurrent]
      exact Option.some_ne_none runner
    · obtain ⟨hevent, hpasses⟩ := hissues.fork hcode
      rw [Line.Valid, hevent] at hvalid
      obtain ⟨pid, harg, _⟩ := hvalid
      exact ⟨pid, hpasses.eq harg, hm.free pid (mem_forks hl (forked_eq hevent harg))⟩
    · obtain ⟨hevent | hevent, hpasses⟩ := hissues.semaphoreOp hcode
      · rw [Line.Valid, hevent] at hvalid
        obtain ⟨s, harg⟩ := hvalid
        exact ⟨s, hpasses.eq harg⟩
      · rw [Line.Valid, hevent] at hvalid
        obtain ⟨s, harg⟩ := hvalid
        exact ⟨s, hpasses.eq harg⟩
  | ends hbusy hends =>
    rw [hends.1]
    refine ⟨hbusy, fun hcode => ?_, fun hcode => ?_⟩
    · exact absurd (hends.2.symm.trans hcode) (by decide)
    · exact absurd (hends.2.symm.trans hcode) (by decide)
  | clock hclock =>
    rw [hclock]
    trivial
  | device device pid hdevice hR1 hrequest =>
    cases hkind : e.interrupt with
    | trap =>
      rw [hkind] at hdevice
      cases hdevice
    | clockInterrupt => trivial
    | diskInterrupt =>
      rw [hkind] at hdevice
      obtain rfl := Option.some.inj hdevice
      exact ⟨pid, hR1, hrequest⟩
    | keyboardInterrupt =>
      rw [hkind] at hdevice
      obtain rfl := Option.some.inj hdevice
      exact ⟨pid, hR1, hrequest⟩

/-- The lines that are left fork pids that were left before, and not the one that is
forked now. -/
theorem Occurs.forks (h : Occurs m e lines) (hm : Ready m.kernel m.program) :
    (forks lines).Nodup ∧ (∀ l ∈ lines, l.Valid) ∧
      ∀ pid : Pid, (pid : ℕ) ∈ Workload.forks lines →
        (pid : ℕ) ∈ Workload.forks m.program ∧ ¬e.Forks pid := by
  cases h with
  | line l hl hcurrent hissues =>
    have hperm := forks_perm_erase hl
    obtain ⟨_, hnodup, hapart⟩ := List.nodup_append.mp (hperm.nodup_iff.mp hm.nodup)
    refine ⟨hnodup, fun l' hl' => hm.valid l' (List.mem_of_mem_erase hl'), fun pid hpid => ?_⟩
    refine ⟨hperm.mem_iff.mpr (List.mem_append_right _ hpid), fun hforks => ?_⟩
    -- the pid of this line is forked by no other one
    obtain ⟨hevent, n, harg, hR2⟩ := hissues.fork hforks.2.1
    obtain rfl : n = pid := Int.ofNat.inj (hR2.symm.trans hforks.2.2)
    rw [forked_eq hevent harg] at hapart
    exact hapart _ List.mem_cons_self _ hpid rfl
  | ends hbusy hends =>
    exact ⟨hm.nodup, hm.valid, fun pid hpid => ⟨hpid, hends.not_forks pid⟩⟩
  | clock hclock =>
    refine ⟨hm.nodup, hm.valid, fun pid hpid => ⟨hpid, ?_⟩⟩
    exact Event.not_forks_of_interrupt (by rw [hclock]; decide) pid
  | device device pid hdevice hR1 hrequest =>
    refine ⟨hm.nodup, hm.valid, fun pid hpid => ⟨hpid, ?_⟩⟩
    refine Event.not_forks_of_interrupt (fun htrap => ?_) pid
    rw [htrap] at hdevice
    cases hdevice

/-- Executing a line, and whatever else happens, leaves the other lines ready. -/
theorem Ready.step (hm : Ready m.kernel m.program) (hk : m.kernel.Inv) {k' : Multilevel}
    (hoccurs : Occurs m e lines) (hstep : m.kernel.Step e k') : Ready k' lines := by
  obtain ⟨hnodup, hvalid, hleft⟩ := hoccurs.forks hm
  refine ⟨hnodup, fun pid hpid => ?_, hvalid⟩
  obtain ⟨hbefore, hforks⟩ := hleft pid hpid
  have hfree := hm.free pid hbefore
  refine (hstep.uninitialized_iff hk hforks fun _ hcurrent => ?_).mpr hfree
  exact hk.state_current hstep.1.1 hcurrent hfree

end Ready

/-- Before anything was executed every process but the first is free. -/
theorem ready_boot {draws : ℕ → Draw} {lines : List Line} (hmain : main draws = some lines)
    (clock : Word) : Ready (Multilevel.boot 0 clock) lines := by
  obtain ⟨s, n, m, hs, hlines, _⟩ :=
    queues_start.loop draws maxProcesses programs_start (by decide) rfl
  rw [main, hs] at hmain
  obtain rfl := Option.some.inj hmain
  refine ⟨?_, fun pid hpid => ?_, hlines.valid⟩
  · rw [hlines.forks]
    exact List.nodup_range'
  · rw [hlines.forks] at hpid
    have hpos := (List.mem_range'_1.mp hpid).1
    have hne : pid ≠ 0 := by
      rintro rfl
      exact absurd hpos (by decide)
    rw [Multilevel.state_boot, Function.update_of_ne hne]

/-- Under a workload that `prog.py` generated the kernel makes legal runs: whatever was
drawn, in whatever order the lines are executed, whenever processes end and devices
answer, no process is forked that lives, no semaphore is named that is not there, and
every event is handled. -/
theorem workload_runs_legal {draws : ℕ → Draw} {lines : List Line} (hmain : main draws = some lines)
    {h : List (Event × Machine)} {m : Machine} (hrun : WorkloadRun lines h m) :
    Multilevel.KernelRun (h.map (Prod.map id Machine.kernel)) m.kernel ∧
      ∀ e rest, m.kernel.halted = none → Occurs m e rest →
        ∃ k', m.kernel.Step e k' := by
  have hready : Multilevel.KernelRun (h.map (Prod.map id Machine.kernel)) m.kernel ∧
      Ready m.kernel m.program := by
    refine Run.invariant (P := fun h m => Multilevel.KernelRun
      (h.map (Prod.map id Machine.kernel)) m.kernel ∧ Ready m.kernel m.program) ?_ ?_ hrun
    · rintro m ⟨⟨clock, hboot⟩, rfl⟩
      rw [hboot]
      exact ⟨.start (Multilevel.booted_iff.mpr ⟨0, clock, rfl⟩), ready_boot hmain clock⟩
    · rintro h m e m' _ ⟨hkernel, hm⟩ ⟨hhalted, hoccurs, hexec⟩
      have hstep : m.kernel.Step e m'.kernel := ⟨hm.legal hhalted hoccurs, hexec⟩
      exact ⟨.next hkernel hstep, hm.step (Multilevel.KernelRun.inv hkernel) hoccurs hstep⟩
  refine ⟨hready.1, fun e rest hhalted hoccurs => ?_⟩
  have hlegal := hready.2.legal hhalted hoccurs
  obtain ⟨k', hk', _⟩ :=
    Multilevel.interrupt_effect (Multilevel.KernelRun.inv hready.1).ranged hlegal
  exact ⟨k', hlegal, hk'⟩

/-- Process 1 forks as often as it can, and process 0 forks it. -/
theorem workload_runs_legal_forkOne : ∃ (draws : ℕ → Draw) (lines : List Line)
    (h : List (Event × Machine)) (m : Machine), main draws = some lines ∧ WorkloadRun lines h m ∧
      h.map Prod.fst = [.forkOne] ∧
      Multilevel.KernelRun (h.map (Prod.map id Machine.kernel)) m.kernel := by
  have hfirst : (main forkDraws).map (fun lines => lines.contains ⟨0, .fork, some 1⟩) =
      some true := by decide +kernel
  obtain ⟨lines, hmain, hcontains⟩ := Option.map_eq_some_iff.mp hfirst
  have hmem : (⟨0, .fork, some 1⟩ : Line) ∈ lines := List.contains_iff_mem.mp hcontains
  have hstart : WorkloadRun lines [] ⟨Multilevel.boot 0 0#32, lines⟩ := .start ⟨⟨0#32, rfl⟩, rfl⟩
  have hrun : WorkloadRun lines [(.forkOne, _)] ⟨_, _⟩ := .next hstart
    ⟨rfl, .line _ hmem ⟨0, rfl, rfl⟩ ⟨rfl, rfl, 1, rfl, rfl⟩, rfl⟩
  exact ⟨forkDraws, lines, _, _, hmain, hrun, rfl, (workload_runs_legal hmain hrun).1⟩

end Workload

end SimOS
