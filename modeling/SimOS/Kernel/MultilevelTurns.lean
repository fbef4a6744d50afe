import SimOS.Kernel.MultilevelCpuTime

/-!
# Turns of the multilevel kernel

An event leaves the process that is current where it is, or ends its turn: then
a quantum starts for whoever is dispatched. So `clock - current_quantum_start_time`
is the time the quantum has lasted. Processes come to life when they are created,
and live until they end themselves.
-/

namespace SimOS

open Library

namespace Multilevel

/-! ## What one event does to the quantum -/

theorem ScheduleCase.dispatched_ne {k k' : Multilevel} {queueNum : Fin 5}
    (h : ScheduleCase k queueNum k') (hhalted : k'.halted = none) (hbusy : k'.currentPid ≠ none) :
    k'.toCore.dispatched ≠ [] := by
  cases h with
  | finished _ => cases hhalted
  | deadlocked _ _ _ => cases hhalted
  | idle _ _ _ => exact absurd rfl hbusy
  | runs level pid next _ _ _ _ =>
    change (k.toCore.print (.runs k.clock pid)).dispatched ≠ []
    rw [Core.dispatched_print_runs]
    exact List.concat_ne_nil _ _

section Turns

variable {k k₁ k' : Multilevel} {e : Event}

/-- A handler that lets the current process go on. -/
theorem turn_of_kept (hclock : k'.clock = (k.deliver e).clock)
    (hcurrent : k'.currentPid = (k.deliver e).currentPid)
    (hstart : k'.currentQuantumStartTime = (k.deliver e).currentQuantumStartTime)
    (hsilent : k'.toCore.Silent) : k.toCore.Turn e k'.toCore :=
  .goesOn (hclock.trans (Core.deliver_clock _ _)) (hcurrent.trans (Core.deliver_currentPid _ _))
    (hstart.trans (Core.deliver_currentQuantumStartTime _ _)) hsilent.dispatched_eq

/-- A handler that ends with `schedule`. -/
theorem turn_of_schedule (hvacant : k₁.Vacant) (hclock : k₁.clock = e.clock)
    (hstart : k₁.currentQuantumStartTime = e.clock) : k.toCore.Turn e (k₁.schedule 4).toCore := by
  have hcase := hvacant.scheduleCase
  exact .ended (hcase.clock.trans hclock) (hcase.start.trans hstart) hcase.dispatched_ne

/-- A handler that restarts the quantum after `schedule`, which has found a process to run. -/
theorem turn_of_schedule_restart (hvacant : k₁.Vacant) (hclock : k₁.clock = e.clock)
    (level : Fin 5) (hne : k₁.readyQueues level ≠ []) :
    k.toCore.Turn e (k₁.schedule 4).restartQuantum.toCore := by
  have hcase := hvacant.scheduleCase
  rw [restartQuantum, if_pos (hvacant.schedule_halted level hne)]
  have hnow : (k₁.schedule 4).clock = e.clock := hcase.clock.trans hclock
  exact .ended hnow hnow hcase.dispatched_ne

theorem Inv.turn_answer {device : Device} {pid : Pid} {level : Fin 5} (hk : k.Inv)
    (hhalted : k.halted = none) (hdevice : e.interrupt.device? = some device)
    (hR1 : e.R1 = (pid : ℕ)) (hrequest : pid ∈ k.requests device)
    (hlevel : k.priority pid = (level : ℕ)) :
    k.toCore.Turn e
      (((k.deliver e).finishRead device pid).enqueueAt level pid).scheduleIfIdle.toCore := by
  rcases hk.answer_cases hhalted hdevice hR1 hrequest hlevel rfl with
    ⟨_, hvacant, heq⟩ | ⟨_, heq⟩
  · rw [heq]
    exact turn_of_schedule hvacant (Core.deliver_clock _ _) (Core.deliver_clock _ _)
  · rw [heq]
    exact turn_of_kept rfl rfl rfl (Core.silent_deliver.print fun _ _ => Message.noConfusion)

/-- Every way an event can go is a turn. -/
theorem Effect.turn (hk : k.Inv) (hhalted : k.halted = none) (h : Effect k e k') :
    k.toCore.Turn e k'.toCore := by
  have hsilent : (k.toCore.deliver e).Silent := Core.silent_deliver
  cases h with
  | quiet messages _ _ hmessages _ _ => exact turn_of_kept rfl rfl rfl hmessages.silent
  | read device pid hdevice _ hcurrent _ _ =>
    refine turn_of_schedule (hk.vacant_issueRead hhalted hdevice hcurrent device) ?_ ?_
    · rw [toCore_issueRead]
      exact Core.deliver_clock _ _
    · rw [toCore_issueRead]
      exact Core.deliver_clock _ _
  | fork runner pid level _ _ _ _ _ _ =>
    exact turn_of_kept rfl rfl rfl (hsilent.print fun _ _ => Message.noConfusion)
  | kill pid hdevice _ hcurrent _ =>
    exact turn_of_schedule (hk.vacant_endProcess hhalted hdevice hcurrent) (Core.deliver_clock _ _)
      (Core.deliver_clock _ _)
  | wake s runner pid next level _ _ _ _ _ _ _ _ =>
    exact turn_of_kept rfl rfl rfl (hsilent.print fun _ _ => Message.noConfusion)
  | release s runner _ _ _ _ _ _ =>
    exact turn_of_kept rfl rfl rfl (hsilent.print fun _ _ => Message.noConfusion)
  | pass s runner _ _ _ _ _ _ =>
    exact turn_of_kept rfl rfl rfl (hsilent.print fun _ _ => Message.noConfusion)
  | wait s pid hdevice _ _ _ _ hcurrent =>
    refine turn_of_schedule (hk.vacant_waitFor hhalted hdevice hcurrent s) ?_ ?_
    · rw [toCore_waitFor]
      exact Core.deliver_clock _ _
    · rw [toCore_waitFor]
      exact Core.deliver_clock _ _
  | preempt pid level hdevice _ hcurrent hlevel _ =>
    refine turn_of_schedule_restart (hk.vacant_preempt hhalted hdevice hcurrent hlevel) ?_ level ?_
    · change ((k.deliver e).preempt pid).clock = e.clock
      rw [toCore_preempt]
      exact Core.deliver_clock _ _
    · change Core.enqueueReady ((k.deliver e).preempt pid).readyQueues level pid level ≠ []
      rw [Core.enqueueReady, Function.update_self]
      exact List.concat_ne_nil _ _
  | answer device pid level hdevice _ hR1 hrequest hlevel =>
    exact hk.turn_answer hhalted hdevice hR1 hrequest hlevel

theorem Step.turn (hk : k.Inv) (h : k.Step e k') : k.toCore.Turn e k'.toCore := by
  obtain ⟨k₁, hk₁, heffect⟩ := interrupt_effect hk.ranged h.1
  rw [h.2, Option.some.injEq] at hk₁
  rw [hk₁]
  exact heffect.turn hk h.1.1

end Turns

/-! ## Who lives after an event -/

section Lives

variable {k k' : Multilevel} {e : Event} {p : Pid}

/-- `schedule` brings nobody to life, and ends nobody. -/
theorem Vacant.schedule_uninitialized (hk : k.Vacant) :
    (k.schedule 4).state p = .uninitialized ↔ k.state p = .uninitialized := by
  have hcase := hk.scheduleCase
  generalize k.schedule 4 = k' at hcase
  cases hcase with
  | runs level pid next _ _ hqueue _ =>
    change (k.setState pid .running).state p = _ ↔ _
    rw [state_setState]
    by_cases hp : p = pid
    · rw [hp, Function.update_self, Core.state_ready hk.census hqueue]
      decide
    · rw [Function.update_of_ne hp]
  | _ => exact Iff.rfl

/-- A process that lives and does not end lives on. -/
theorem state_update_uninitialized {f : Pid → ProcessState} {q : Pid} {st : ProcessState}
    (hq : f q ≠ .uninitialized) (hst : st ≠ .uninitialized) :
    Function.update f q st p = .uninitialized ↔ f p = .uninitialized := by
  by_cases hp : p = q
  · rw [hp, Function.update_self]
    exact iff_of_false hst hq
  · rw [Function.update_of_ne hp]

theorem Inv.state_current {q : Pid} (hk : k.Inv) (hhalted : k.halted = none)
    (hcurrent : k.currentPid = some q) : k.state q ≠ .uninitialized := by
  rw [Core.state_running (hk.census hhalted) hcurrent]
  decide

theorem Inv.answer_uninitialized {device : Device} {pid : Pid} {level : Fin 5} (hk : k.Inv)
    (hhalted : k.halted = none) (hdevice : e.interrupt.device? = some device)
    (hR1 : e.R1 = (pid : ℕ)) (hrequest : pid ∈ k.requests device)
    (hlevel : k.priority pid = (level : ℕ)) :
    (((k.deliver e).finishRead device pid).enqueueAt level pid).scheduleIfIdle.state p =
      .uninitialized ↔ k.state p = .uninitialized := by
  have hblocked : k.state pid = .blocked :=
    (hk.census hhalted).state_of_mem (.device device) hrequest
  have hsame : (((k.deliver e).finishRead device pid).enqueueAt level pid).state p =
      .uninitialized ↔ k.state p = .uninitialized := by
    change ((k.deliver e).finishRead device pid).state p = _ ↔ _
    rw [state_finishRead]
    refine state_update_uninitialized (f := k.state) ?_ (by decide)
    rw [hblocked]
    decide
  rcases hk.answer_cases hhalted hdevice hR1 hrequest hlevel rfl with
    ⟨_, hvacant, heq⟩ | ⟨_, heq⟩
  · rw [heq]
    exact hvacant.schedule_uninitialized.trans hsame
  · rw [heq]
    exact hsame

/-- A process comes to life when it is created, and lives until it ends itself. -/
theorem Effect.uninitialized_iff (hk : k.Inv) (hhalted : k.halted = none) (h : Effect k e k')
    (hforks : ¬e.Forks p) (hends : e.Ends → k.currentPid ≠ some p) :
    k'.state p = .uninitialized ↔ k.state p = .uninitialized := by
  have hinv := hk.census hhalted
  cases h with
  | read device pid hdevice _ hcurrent _ _ =>
    refine (hk.vacant_issueRead hhalted hdevice hcurrent device).schedule_uninitialized.trans ?_
    rw [state_issueRead]
    exact state_update_uninitialized (hk.state_current hhalted hcurrent) (by decide)
  | fork runner pid level _ _ _ _ _ hchild =>
    have hne : p ≠ pid := by
      rintro rfl
      exact hforks hchild
    change ((k.deliver e).createProcess pid).state p = _ ↔ _
    rw [state_createProcess, Function.update_of_ne hne]
    rfl
  | kill pid hdevice _ hcurrent hkill =>
    have hne : p ≠ pid := by
      rintro rfl
      exact hends hkill hcurrent
    refine (hk.vacant_endProcess hhalted hdevice hcurrent).schedule_uninitialized.trans ?_
    rw [state_endProcess, Function.update_of_ne hne]
    rfl
  | wake s runner pid next level _ _ _ _ _ _ hwaiting _ =>
    change (Multilevel.setState _ pid .ready).state p = _ ↔ _
    rw [state_setState]
    refine state_update_uninitialized (f := k.state) ?_ (by decide)
    rw [Core.state_waiting hinv hwaiting]
    decide
  | wait s pid hdevice _ _ _ _ hcurrent =>
    refine (hk.vacant_waitFor hhalted hdevice hcurrent s).schedule_uninitialized.trans ?_
    rw [state_waitFor]
    exact state_update_uninitialized (f := k.state) (hk.state_current hhalted hcurrent)
      (by decide)
  | preempt pid level hdevice _ hcurrent hlevel _ =>
    have hrestart : ∀ k₁ : Multilevel, k₁.restartQuantum.state = k₁.state := by
      intro k₁
      rw [restartQuantum]
      split <;> rfl
    rw [hrestart]
    refine (hk.vacant_preempt hhalted hdevice hcurrent hlevel).schedule_uninitialized.trans ?_
    change ((k.deliver e).preempt pid).state p = _ ↔ _
    rw [state_preempt]
    exact state_update_uninitialized (f := k.state) (hk.state_current hhalted hcurrent)
      (by decide)
  | answer device pid level hdevice _ hR1 hrequest hlevel =>
    exact hk.answer_uninitialized hhalted hdevice hR1 hrequest hlevel
  | _ => exact Iff.rfl

theorem Step.uninitialized_iff (hk : k.Inv) (h : k.Step e k') (hforks : ¬e.Forks p)
    (hends : e.Ends → k.currentPid ≠ some p) :
    k'.state p = .uninitialized ↔ k.state p = .uninitialized := by
  obtain ⟨k₁, hk₁, heffect⟩ := interrupt_effect hk.ranged h.1
  rw [h.2, Option.some.injEq] at hk₁
  rw [hk₁]
  exact heffect.uninitialized_iff hk h.1.1 hforks hends

/-- Whoever ends itself is gone. -/
theorem Step.ended (hk : k.Inv) (h : k.Step e k') (hends : e.Ends)
    (hcurrent : k.currentPid = some p) : k'.state p = .uninitialized := by
  have hkill : k.interrupt e = (k.deliver e).handleKill := by
    rw [interrupt, hends.1]
    change (k.deliver e).handleTrap e = _
    rw [handleTrap, hends.2]
    rfl
  have hnow : (k.deliver e).currentPid = some p := (Core.deliver_currentPid _ _).trans hcurrent
  have hk' := h.2
  rw [hkill, handleKill, hnow] at hk'
  obtain rfl := Option.some.inj hk'
  refine (hk.vacant_endProcess h.1.1 (by rw [hends.1]; rfl) hcurrent).schedule_uninitialized.mpr ?_
  rw [state_endProcess, Function.update_self]

/-- A process is created with a pid that is free. -/
theorem Step.fork_free (h : k.Step e k') (hforks : e.Forks p) : k.state p = .uninitialized := by
  have hevent := h.1.2
  rw [hforks.1] at hevent
  obtain ⟨child, hR2, hfree⟩ := hevent.2.1 hforks.2.1
  have hchild : child = p := Fin.ext (Int.ofNat.inj (hR2.symm.trans hforks.2.2))
  rwa [← hchild]

end Lives

/-! ## Runs -/

section Runs

variable {k₀ k : Multilevel} {h : List (Event × Multilevel)}

/-- While a process is current, `clock - current_quantum_start_time` is the time
its quantum has lasted. -/
theorem RunFrom.elapsed_eq (hboot : k₀.Booted) (hrun : RunFrom k₀ h k) :
    k.halted = none → k.currentPid ≠ none →
      k.elapsed = BitVec.ofNat 32 (quantumAge toCore k₀ h) := by
  refine Run.invariant (P := fun h k => k.halted = none → k.currentPid ≠ none →
    k.elapsed = BitVec.ofNat 32 (quantumAge toCore k₀ h)) ?_ ?_ hrun
  · rintro _ rfl _ _
    obtain ⟨pid, clock, rfl⟩ := booted_iff.mp hboot
    exact Core.elapsed_of_start rfl rfl
  · intro h k e k' hrun ih hstep hhalted hbusy
    have hturn := hstep.turn (RunFrom.kernelRun hboot hrun).inv
    rw [quantumAge, hrun.reached_eq]
    exact hturn.elapsed_eq (ih hstep.1.1) hhalted hbusy

end Runs

end Multilevel

end SimOS
