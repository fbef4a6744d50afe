import Mathlib.Data.BitVec
import Mathlib.Algebra.BigOperators.Fin
import Mathlib.Tactic.Ring
import SimOS.Kernel.LogReplay
import SimOS.Kernel.MultilevelTurns
import SimOS.Kernel.RoundRobinCpuTime

/-!
# No time is lost

The time since boot is what the log says the processes that exited used, what the
process table says the others used, what the current quantum has lasted, and the
time the processor was idle. The totals wrap, so this is modulo 2^32. In the
multilevel kernel, where the total of a pid outlives its processes, it is the
process table alone that accounts for the time of all processes.
-/

namespace SimOS

open Library

/-! ## Balance -/

/-- For how long no process was current. -/
def idleTime {κ : Type} (core : κ → Core) (k₀ : κ) : List (Event × κ) → ℕ
  | [] => 0
  | (e, _) :: h =>
    idleTime core k₀ h +
      if (core (reached k₀ h)).currentPid = none then (core (reached k₀ h)).gap e else 0

/-- What the current process has used of its quantum. -/
def Core.spent (c : Core) : Word := if c.currentPid = none then 0#32 else c.elapsed

/-- What an event may do to an account of the time used: it stays as it is while the
quantum goes on, and the quantum is added to it when it is over. -/
inductive Core.Books (c : Core) (account : Word) (e : Event) (c' : Core) (account' : Word) : Prop
  | goesOn (hclock : c'.clock = e.clock) (hcurrent : c'.currentPid = c.currentPid)
      (hstart : c'.currentQuantumStartTime = c.currentQuantumStartTime)
      (haccount : account' = account)
  | charged (hclock : c'.clock = e.clock) (hstart : c'.currentQuantumStartTime = e.clock)
      (haccount : account' = account +
        if c.currentPid = none then 0#32 else e.clock - c.currentQuantumStartTime)

/-- An event that books as it should keeps the balance. -/
theorem Core.Books.balance {c c' : Core} {account account' clock₀ : Word} {e : Event} {idle : ℕ}
    (h : c.Books account e c' account')
    (hbalance : account + c.spent + BitVec.ofNat 32 idle = c.clock - clock₀) :
    account' + c'.spent + BitVec.ofNat 32 (idle + if c.currentPid = none then c.gap e else 0) =
      c'.clock - clock₀ := by
  have hgap : e.clock - clock₀ = c.clock - clock₀ + BitVec.ofNat 32 (c.gap e) := by
    rw [Core.ofNat_gap]
    exact (sub_add_sub_cancel' _ _ _).symm
  have hquantum := Core.elapsed_add_gap c e
  have hclock : c'.clock = e.clock := by
    cases h <;> assumption
  rw [hclock, hgap, ← hbalance]
  by_cases hidle : c.currentPid = none
  · -- nobody runs, so the gap is idle time
    have hspent : c'.spent = 0#32 := by
      cases h with
      | goesOn _ hcurrent _ _ => rw [Core.spent, hcurrent, if_pos hidle]
      | charged hclock hstart _ =>
        rw [Core.spent, Core.elapsed_of_start hclock hstart, ite_self]
    have haccount : account' = account := by
      cases h with
      | goesOn _ _ _ haccount => exact haccount
      | charged _ _ haccount => rw [haccount, if_pos hidle, BitVec.add_zero]
    rw [hspent, haccount, Core.spent, if_pos hidle, if_pos hidle, BitVec.ofNat_add]
    ring
  · rw [if_neg hidle, Nat.add_zero]
    cases h with
    | goesOn _ hcurrent hstart haccount =>
      rw [haccount, Core.spent, Core.spent, hcurrent, if_neg hidle, if_neg hidle, Core.elapsed,
        hclock, hstart, ← hquantum]
      ring
    | charged hclock hstart haccount =>
      rw [haccount, Core.spent, Core.spent, Core.elapsed_of_start hclock hstart, ite_self,
        if_neg hidle, if_neg hidle, ← hquantum, BitVec.add_zero]
      ring

/-- The quantum is charged to the one process that is current. -/
theorem Core.sum_quantum (c : Core) (time : Word) :
    (∑ pid, if c.currentPid = some pid then time else 0#32) =
      if c.currentPid = none then 0#32 else time := by
  cases hcurrent : c.currentPid with
  | none =>
    rw [if_pos rfl]
    exact Finset.sum_eq_zero fun pid _ => if_neg (Option.some_ne_none pid).symm
  | some pid =>
    rw [if_neg (Option.some_ne_none pid)]
    simp only [Option.some.injEq]
    exact (Finset.sum_ite_eq Finset.univ pid fun _ => time).trans (if_pos (Finset.mem_univ pid))

/-! ## The multilevel kernel -/

namespace Multilevel

/-- What the process table says all processes have used. -/
def account (k : Multilevel) : Word := ∑ pid, k.totals pid

theorem Step.books {k k' : Multilevel} {e : Event} (hk : k.Inv) (h : k.Step e k') :
    k.toCore.Books k.account e k'.toCore k'.account := by
  cases h.billed hk with
  | goesOn hclock hcurrent hstart htotal _ _ _ =>
    exact .goesOn hclock hcurrent hstart (Finset.sum_congr rfl fun pid _ => htotal pid not_false)
  | charged hclock hstart _ htotal _ =>
    refine .charged hclock hstart ?_
    rw [account, htotal, ← Core.sum_quantum, account, ← Finset.sum_add_distrib]
    rfl

theorem account_boot (pid : Pid) (clock : Word) : (boot pid clock).account = 0#32 := by
  refine Finset.sum_eq_zero fun p _ => ?_
  by_cases hp : p = pid
  · simp [totals, boot, hp]
  · simp [totals, boot, Function.update_of_ne hp]

/-- The totals of all pids, the current quantum and the idle time make up the time
since boot. -/
theorem time_conserved {k₀ k : Multilevel} {h : List (Event × Multilevel)} (hboot : k₀.Booted)
    (hrun : RunFrom k₀ h k) :
    k.account + k.toCore.spent + BitVec.ofNat 32 (idleTime toCore k₀ h) = k.clock - k₀.clock := by
  refine Run.invariant (P := fun h k =>
    k.account + k.toCore.spent + BitVec.ofNat 32 (idleTime toCore k₀ h) = k.clock - k₀.clock)
    ?_ ?_ hrun
  · rintro _ rfl
    obtain ⟨pid, clock, rfl⟩ := booted_iff.mp hboot
    have hspent : (boot pid clock).toCore.spent = 0#32 := by
      rw [Core.spent, Core.elapsed_of_start rfl rfl, ite_self]
    rw [account_boot, hspent, sub_self]
    rfl
  · intro h k e k' hrun ih hstep
    have hnext := (hstep.books (RunFrom.kernelRun hboot hrun).inv).balance ih
    rw [idleTime, hrun.reached_eq]
    exact hnext

/-- Once process 0, booted at 0, has created another one at 5, it has spent 5 ms. -/
theorem time_conserved_forkAt : ∃ k, RunFrom (boot 0 0#32) [(.forkAt 1 5#32, k)] k ∧
    k.account + k.toCore.spent +
      BitVec.ofNat 32 (idleTime toCore (boot 0 0#32) [(.forkAt 1 5#32, k)]) = 5#32 := by
  have hboot : (boot 0 0#32).Booted := booted_iff.mpr ⟨0, 0#32, rfl⟩
  have hstep : (boot 0 0#32).Step (.forkAt 1 5#32) ((boot 0 0#32).forkedAt 1 0 5#32) :=
    step_forkAt _ rfl (Option.some_ne_none 0) rfl rfl
  have hrun : RunFrom (boot 0 0#32) [(.forkAt 1 5#32, _)] _ := .next (.start rfl) hstep
  exact ⟨_, hrun, time_conserved hboot hrun⟩

end Multilevel

/-! ## The round-robin kernel -/

namespace RoundRobin

/-- The total a line tells. -/
def lineTotal : Message → Word
  | .exits _ _ total => total
  | _ => 0#32

/-- The totals that lines tell, together. -/
def told (messages : List Message) : Word := (messages.map lineTotal).sum

theorem told_append (messages more : List Message) :
    told (messages ++ more) = told messages + told more := by
  rw [told, List.map_append, List.sum_append]
  rfl

theorem told_of_noExits {c : Core} (hexits : c.NoExits) : told c.output = 0#32 := by
  refine List.sum_eq_zero fun total htotal => ?_
  obtain ⟨message, hmessage, rfl⟩ := List.mem_map.mp htotal
  cases message with
  | exits time pid total => exact absurd hmessage (hexits time pid total)
  | _ => rfl

/-- What the process table says a process that lives has used. -/
def charge (k : RoundRobin) (pid : Pid) : Word :=
  if k.state pid = .uninitialized then 0#32 else k.totals pid

/-- What the log and the process table say all processes have used. -/
def account (h : List (Event × RoundRobin)) (k : RoundRobin) : Word :=
  told (log h) + ∑ pid, k.charge pid

section Lives

variable {k k' : RoundRobin} {e : Event} {p : Pid}

/-- `schedule` brings nobody to life, and ends nobody. -/
theorem Vacant.schedule_uninitialized (hk : k.Vacant) :
    k.schedule.state p = .uninitialized ↔ k.state p = .uninitialized := by
  have hcase := hk.scheduleCase
  generalize k.schedule = k' at hcase
  cases hcase with
  | runs pid next _ hqueue =>
    change (k.setState pid .running).state p = _ ↔ _
    rw [state_setState]
    refine Multilevel.state_update_uninitialized ?_ (by decide)
    have hhead : pid ∈ k.readyQueue := by
      rw [hqueue]
      exact List.mem_cons_self
    have hready : k.state pid = .ready := hk.census.state_of_mem (.ready ()) hhead
    rw [hready]
    decide
  | _ => exact Iff.rfl

theorem restartQuantum_state (k : RoundRobin) : k.restartQuantum.state = k.state := by
  rw [restartQuantum]
  split <;> rfl

theorem Inv.answer_uninitialized {device : Device} {pid : Pid} (hk : k.Inv)
    (hhalted : k.halted = none) (hdevice : e.interrupt.device? = some device)
    (hR1 : e.R1 = (pid : ℕ)) (hrequest : pid ∈ k.requests device) :
    ((k.deliver e).finishRead device pid).scheduleIfIdle.state p = .uninitialized ↔
      k.state p = .uninitialized := by
  have hblocked : k.state pid = .blocked :=
    (hk.census hhalted).state_of_mem (.device device) hrequest
  have hsame : ((k.deliver e).finishRead device pid).state p = .uninitialized ↔
      k.state p = .uninitialized := by
    rw [state_finishRead]
    refine Multilevel.state_update_uninitialized (f := k.state) ?_ (by decide)
    rw [hblocked]
    decide
  rcases hk.answer_cases hhalted hdevice hR1 hrequest rfl with ⟨_, hvacant, heq⟩ | ⟨_, heq⟩
  · rw [heq]
    exact hvacant.schedule_uninitialized.trans hsame
  · rw [heq]
    exact hsame

/-- A process comes to life when it is created, and lives until it ends itself. -/
theorem Effect.uninitialized_iff (hk : k.Inv) (hhalted : k.halted = none) (h : Effect k e k')
    (hforks : ¬e.Forks p) (hends : e.Ends → k.currentPid ≠ some p) :
    k'.state p = .uninitialized ↔ k.state p = .uninitialized := by
  have hinv := hk.census hhalted
  have hcurrent_lives : ∀ {pid}, k.currentPid = some pid → k.state pid ≠ .uninitialized := by
    intro pid hcurrent
    rw [Core.state_running hinv hcurrent]
    decide
  cases h with
  | read device pid hdevice _ hcurrent _ _ =>
    refine (hk.vacant_issueRead hhalted hdevice hcurrent device).schedule_uninitialized.trans ?_
    rw [state_issueRead]
    exact Multilevel.state_update_uninitialized (hcurrent_lives hcurrent) (by decide)
  | fork runner pid _ _ _ _ hchild =>
    have hne : p ≠ pid := by
      rintro rfl
      exact hforks hchild
    rw [state_createProcess, Function.update_of_ne hne]
    rfl
  | kill pid hdevice _ hcurrent hkill =>
    have hne : p ≠ pid := by
      rintro rfl
      exact hends hkill hcurrent
    refine (hk.vacant_endProcess hhalted hdevice hcurrent).schedule_uninitialized.trans ?_
    rw [state_endProcess, Function.update_of_ne hne]
    rfl
  | wake s runner pid next _ _ _ _ _ _ hwaiting =>
    rw [state_wake]
    refine Multilevel.state_update_uninitialized (f := k.state) ?_ (by decide)
    rw [Core.state_waiting hinv hwaiting]
    decide
  | wait s pid hdevice _ _ _ _ hcurrent =>
    refine (hk.vacant_waitFor hhalted hdevice hcurrent s).schedule_uninitialized.trans ?_
    rw [state_waitFor]
    exact Multilevel.state_update_uninitialized (f := k.state) (hcurrent_lives hcurrent) (by decide)
  | preempt pid hdevice _ hcurrent _ _ =>
    rw [restartQuantum_state]
    refine (hk.vacant_preempt hhalted hdevice hcurrent).schedule_uninitialized.trans ?_
    rw [state_preempt]
    exact Multilevel.state_update_uninitialized (f := k.state) (hcurrent_lives hcurrent) (by decide)
  | answer device pid hdevice _ hR1 hrequest =>
    exact hk.answer_uninitialized hhalted hdevice hR1 hrequest
  | _ => exact Iff.rfl

/-- The trap that ends a process. -/
theorem Step.eq_of_ends (h : k.Step e k') (hends : e.Ends) {pid : Pid}
    (hcurrent : k.currentPid = some pid) : k' = ((k.deliver e).endProcess pid).schedule := by
  have hk' := h.2
  have hnow : (k.deliver e).currentPid = some pid := (Core.deliver_currentPid _ _).trans hcurrent
  rw [interrupt, hends.1] at hk'
  change (k.deliver e).handleTrap e = _ at hk'
  rw [handleTrap, hends.2] at hk'
  change (k.deliver e).handleKill = _ at hk'
  rw [handleKill, hnow] at hk'
  exact (Option.some.inj hk').symm

/-- A process is created with a pid that is free. -/
theorem Step.fork_free (h : k.Step e k') (hforks : e.Forks p) : k.state p = .uninitialized := by
  have hevent := h.1.2
  rw [hforks.1] at hevent
  obtain ⟨child, hR2, hfree⟩ := hevent.2.1 hforks.2.1
  have hchild : child = p := Fin.ext (Int.ofNat.inj (hR2.symm.trans hforks.2.2))
  rwa [← hchild]

end Lives

/-! ## What an event books -/

section Books

variable {k k' : RoundRobin} {e : Event}

/-- `schedule` tells nobody a total. -/
theorem ScheduleCase.told (h : ScheduleCase k k') : told k'.output = told k.output := by
  cases h <;> exact (told_append _ _).trans (add_zero _)

/-- Whoever ends itself is told its total, and nobody else is told one. -/
theorem Step.told_of_ends (hk : k.Inv) (h : k.Step e k') (hends : e.Ends) {pid : Pid}
    (hcurrent : k.currentPid = some pid) : told k'.output = k'.totals pid := by
  have hdevice : e.interrupt.device? = none := by
    rw [hends.1]
    rfl
  have hcase := (hk.vacant_endProcess h.1.1 hdevice hcurrent).scheduleCase
  rw [h.eq_of_ends hends hcurrent, hcase.told, hcase.totals]
  change told ((k.toCore.deliver e).output ++ [.exits _ _ _]) = _
  rw [Core.deliver_output, List.nil_append]
  exact add_zero _

theorem Step.charge_of_kept (hk : k.Inv) (h : k.Step e k') {pid : Pid}
    (htotals : ∀ pid, k'.totals pid = if e.Forks pid then 0#32 else k.totals pid)
    (hends : ¬e.Ends) : k'.charge pid = k.charge pid := by
  by_cases hforks : e.Forks pid
  · rw [charge, charge, htotals, if_pos hforks, h.fork_free hforks, if_pos rfl, ite_self]
  · have hlives := h.effect.uninitialized_iff hk h.1.1 hforks fun hends' => absurd hends' hends
    rw [charge, charge, htotals, if_neg hforks]
    exact if_congr hlives rfl rfl

/-- Whoever is current gets the quantum added to what it is charged. -/
theorem Step.charge_of_charged (hk : k.Inv) (h : k.Step e k')
    (htotals : k'.totals = k.toCore.charged k.totals e) (hforks : ∀ pid, ¬e.Forks pid)
    (pid : Pid) (hends : e.Ends → k.currentPid ≠ some pid) :
    k'.charge pid =
      k.charge pid + if k.currentPid = some pid then e.clock - k.currentQuantumStartTime
        else 0#32 := by
  have hlives := h.effect.uninitialized_iff hk h.1.1 (hforks pid) hends
  rw [charge, charge, htotals, Core.charged]
  by_cases hcurrent : k.currentPid = some pid
  · have hrunning : k.state pid ≠ .uninitialized := by
      rw [Core.state_running (hk.census h.1.1) hcurrent]
      decide
    rw [if_neg (hlives.not.mpr hrunning), if_neg hrunning]
  · rw [if_neg hcurrent, BitVec.add_zero, BitVec.add_zero]
    exact if_congr hlives rfl rfl

/-- Whoever ends itself is charged nothing any more: its total was told. -/
theorem Step.charge_of_ends (hk : k.Inv) (h : k.Step e k')
    (htotals : k'.totals = k.toCore.charged k.totals e) (hends : e.Ends) {pid : Pid}
    (hcurrent : k.currentPid = some pid) :
    k'.charge pid + k'.totals pid =
      k.charge pid + (e.clock - k.currentQuantumStartTime) := by
  have hdevice : e.interrupt.device? = none := by
    rw [hends.1]
    rfl
  have hrunning : k.state pid ≠ .uninitialized := by
    rw [Core.state_running (hk.census h.1.1) hcurrent]
    decide
  have hdead : k'.state pid = .uninitialized := by
    rw [h.eq_of_ends hends hcurrent,
      (hk.vacant_endProcess h.1.1 hdevice hcurrent).schedule_uninitialized, state_endProcess,
      Function.update_self]
  rw [charge, if_pos hdead, charge, if_neg hrunning, htotals, Core.charged, if_pos hcurrent,
    BitVec.zero_add]

/-- What is told and what is charged grow by the quantum together. -/
theorem Step.sum_charge (hk : k.Inv) (h : k.Step e k')
    (htotals : k'.totals = k.toCore.charged k.totals e) (hforks : ∀ pid, ¬e.Forks pid)
    (hexits : k.toCore.ExitsTold e k'.toCore k'.totals) :
    told k'.output + ∑ pid, k'.charge pid =
      (∑ pid, k.charge pid) +
        if k.currentPid = none then 0#32 else e.clock - k.currentQuantumStartTime := by
  rw [← Core.sum_quantum, ← Finset.sum_add_distrib]
  by_cases hends : e.Ends
  · obtain ⟨q, hcurrent⟩ : ∃ q, k.currentPid = some q := by
      have hevent := h.1.2
      rw [hends.1] at hevent
      exact Option.ne_none_iff_exists'.mp hevent.1
    rw [h.told_of_ends hk hends hcurrent, ← Finset.add_sum_erase _ _ (Finset.mem_univ q),
      ← Finset.add_sum_erase _ _ (Finset.mem_univ q), if_pos hcurrent, ← add_assoc,
      add_comm (k'.totals q), h.charge_of_ends hk htotals hends hcurrent]
    refine congrArg _ (Finset.sum_congr rfl fun pid hpid => ?_)
    refine h.charge_of_charged hk htotals hforks pid fun _ hpid' => ?_
    exact Finset.ne_of_mem_erase hpid (Option.some.inj (hpid'.symm.trans hcurrent))
  · have hnothing : told k'.output = 0#32 :=
      told_of_noExits fun time q t hmem => hends ((hexits time q t).mp hmem).1
    rw [hnothing, BitVec.zero_add]
    exact Finset.sum_congr rfl fun pid _ =>
      h.charge_of_charged hk htotals hforks pid fun hends' => absurd hends' hends

theorem Step.books (hk : k.Inv) (h : k.Step e k') (hist : List (Event × RoundRobin)) :
    k.toCore.Books (account hist k) e k'.toCore (account ((e, k') :: hist) k') := by
  have hlog : told (log ((e, k') :: hist)) = told (log hist) + told k'.output := told_append _ _
  cases h.outcome hk with
  | kept _ hclock hcurrent hstart htotals _ hends hexits _ =>
    refine .goesOn hclock hcurrent hstart ?_
    rw [account, account, hlog, told_of_noExits hexits, BitVec.add_zero]
    exact congrArg _ (Finset.sum_congr rfl fun pid _ => h.charge_of_kept hk htotals hends)
  | served _ _ _ hclock hstart htotals hforks hexits =>
    refine .charged hclock hstart ?_
    rw [account, account, hlog, add_assoc, h.sum_charge hk htotals hforks hexits, ← add_assoc]

/-- A kernel that exits has charged the quantum just before. -/
theorem Step.halted_or_charged (hk : k.Inv) (h : k.Step e k') :
    k'.halted = none ∨ k'.currentQuantumStartTime = k'.clock := by
  have hhalted := h.1.1
  have hnone : (k.deliver e).halted = none := deliver_halted_of_none hhalted e
  have hschedule : ∀ {k₁ : RoundRobin}, k₁.Vacant → k₁.currentQuantumStartTime = k₁.clock →
      k₁.schedule.currentQuantumStartTime = k₁.schedule.clock := by
    intro k₁ hvacant hstart
    have hcase := hvacant.scheduleCase
    rw [hcase.start, hcase.clock, hstart]
  cases h.effect with
  | quiet messages _ _ _ _ _ _ => exact .inl hnone
  | read device pid hdevice _ hcurrent _ _ =>
    exact .inr (hschedule (hk.vacant_issueRead hhalted hdevice hcurrent device) rfl)
  | fork runner pid _ _ _ _ _ => exact .inl hnone
  | kill pid hdevice _ hcurrent _ =>
    exact .inr (hschedule (hk.vacant_endProcess hhalted hdevice hcurrent) rfl)
  | wake s runner pid next _ _ _ _ _ _ _ => exact .inl hnone
  | release s runner _ _ _ _ _ _ => exact .inl hnone
  | pass s runner _ _ _ _ _ _ => exact .inl hnone
  | wait s pid hdevice _ _ _ _ hcurrent =>
    exact .inr (hschedule (hk.vacant_waitFor hhalted hdevice hcurrent s) rfl)
  | preempt pid _ _ hcurrent hclock hdue =>
    cases h.outcome hk with
    | kept _ _ _ _ _ _ _ _ hrest =>
      have hbusy : k.currentPid ≠ none := by
        rw [hcurrent]
        exact Option.some_ne_none pid
      exact absurd hdue (hrest hclock hbusy)
    | served _ _ _ hnow hstart _ _ _ => exact .inr (hstart.trans hnow.symm)
  | answer device pid hdevice _ hR1 hrequest =>
    rcases hk.answer_cases hhalted hdevice hR1 hrequest rfl with ⟨_, hvacant, heq⟩ | ⟨_, heq⟩
    · rw [heq]
      exact .inr (hschedule hvacant rfl)
    · rw [heq]
      exact .inl hnone

end Books

/-! ## Runs -/

section Runs

variable {k₀ k : RoundRobin} {h : List (Event × RoundRobin)}

theorem account_boot (pid : Pid) (clock : Word) : account [] (boot pid clock) = 0#32 := by
  have hzero : ∀ p, (boot pid clock).charge p = 0#32 := by
    intro p
    rw [charge, totals]
    by_cases hp : p = pid
    · simp [boot, hp]
    · simp [boot, Function.update_of_ne hp]
  rw [account, Finset.sum_eq_zero fun p _ => hzero p]
  rfl

theorem RunFrom.balance (hboot : k₀.Booted) (hrun : RunFrom k₀ h k) :
    account h k + k.toCore.spent + BitVec.ofNat 32 (idleTime toCore k₀ h) =
      k.clock - k₀.clock := by
  refine Run.invariant (P := fun h k =>
    account h k + k.toCore.spent + BitVec.ofNat 32 (idleTime toCore k₀ h) = k.clock - k₀.clock)
    ?_ ?_ hrun
  · rintro _ rfl
    obtain ⟨pid, clock, rfl⟩ := booted_iff.mp hboot
    have hspent : (boot pid clock).toCore.spent = 0#32 := by
      rw [Core.spent, elapsed_boot, ite_self]
    rw [account_boot, hspent, sub_self]
    rfl
  · intro h k e k' hrun ih hstep
    have hnext := (hstep.books (RunFrom.kernelRun hboot hrun).inv h).balance ih
    rw [idleTime, hrun.reached_eq]
    exact hnext

theorem RunFrom.halted_or_charged (hboot : k₀.Booted) (hrun : RunFrom k₀ h k) :
    k.halted = none ∨ k.currentQuantumStartTime = k.clock := by
  cases hrun with
  | start hk =>
    obtain ⟨pid, clock, rfl⟩ := booted_iff.mp hboot
    rw [hk]
    exact .inl rfl
  | next hprev hstep => exact hstep.halted_or_charged (RunFrom.kernelRun hboot hprev).inv

/-- Nobody lives in a kernel that has no more processes to execute. -/
theorem Inv.charge_of_finished (hk : k.Inv) (hhalted : k.halted = some .noMoreProcesses)
    (pid : Pid) : k.charge pid = 0#32 := by
  cases hk.settled with
  | running _ hnone _ => rw [hnone] at hhalted; cases hhalted
  | idle _ hnone _ _ _ => rw [hnone] at hhalted; cases hhalted
  | deadlocked hdead _ _ _ _ => rw [hdead] at hhalted; cases hhalted
  | finished _ hinv hactive =>
    rw [charge, if_pos]
    by_contra hlives
    have hcount := hinv.accounted.2.2.1
    have hpos : 0 < (Finset.univ.filter fun pid => k.state pid ≠ .uninitialized).card :=
      Finset.card_pos.mpr ⟨pid, Finset.mem_filter.mpr ⟨Finset.mem_univ pid, hlives⟩⟩
    change k.activeProcesses = _ at hcount
    rw [hactive] at hcount
    change (0 : ℤ) = ((Finset.univ.filter fun pid => k.state pid ≠ .uninitialized).card : ℕ)
      at hcount
    omega

/-- The totals the log told, those of the processes that live, the current quantum and
the idle time make up the time since boot. Once there are no more processes, the
totals in the log and the idle time do. -/
theorem log_accounts_for_time (hboot : k₀.Booted) (hrun : RunFrom k₀ h k) :
    told (log h) + (∑ pid, k.charge pid) + k.toCore.spent +
        BitVec.ofNat 32 (idleTime toCore k₀ h) = k.clock - k₀.clock ∧
    (k.halted = some .noMoreProcesses →
      told (log h) + BitVec.ofNat 32 (idleTime toCore k₀ h) = k.clock - k₀.clock) := by
  have hbalance := RunFrom.balance hboot hrun
  refine ⟨hbalance, fun hhalted => ?_⟩
  have hk := (RunFrom.kernelRun hboot hrun).inv
  have hstart : k.currentQuantumStartTime = k.clock := by
    refine (RunFrom.halted_or_charged hboot hrun).resolve_left fun hnone => ?_
    rw [hhalted] at hnone
    cases hnone
  have hspent : k.toCore.spent = 0#32 := by
    rw [Core.spent, Core.elapsed_of_start rfl hstart, ite_self]
  have hcharge : (∑ pid, k.charge pid) = 0 :=
    Finset.sum_eq_zero fun pid _ => hk.charge_of_finished hhalted pid
  rw [account, hcharge, hspent, add_zero, BitVec.add_zero] at hbalance
  exact hbalance

end Runs

/-- A process booted at 0 that exits at 7 is told all of the time. -/
theorem log_accounts_for_time_endAt : ∃ k', k'.halted = some .noMoreProcesses ∧
    told (log [(.endAt 7#32, k')]) +
      BitVec.ofNat 32 (idleTime toCore (boot 0 0#32) [(.endAt 7#32, k')]) = 7#32 := by
  have hactive : (((boot 0 0#32).deliver (.endAt 7#32)).endProcess 0).activeProcesses = 0 := rfl
  have hstep : (boot 0 0#32).Step (.endAt 7#32)
      (((boot 0 0#32).deliver (.endAt 7#32)).endProcess 0).schedule :=
    ⟨⟨rfl, Option.some_ne_none _, fun h => absurd h (by decide), fun h => absurd h (by decide)⟩,
      rfl⟩
  have hrun : RunFrom (boot 0 0#32) [(.endAt 7#32, _)] _ := .next (.start rfl) hstep
  have hhalted : (((boot 0 0#32).deliver (.endAt 7#32)).endProcess 0).schedule.halted =
      some .noMoreProcesses := by
    rw [schedule, if_pos hactive]
    rfl
  have hclock : (((boot 0 0#32).deliver (.endAt 7#32)).endProcess 0).schedule.clock = 7#32 := by
    rw [schedule, if_pos hactive]
    rfl
  refine ⟨_, hhalted, ?_⟩
  rw [(log_accounts_for_time (booted_iff.mpr ⟨0, 0#32, rfl⟩) hrun).2 hhalted, hclock]
  rfl

end RoundRobin

end SimOS
