import SimOS.Kernel.MultilevelTurns
import SimOS.Kernel.ScheduleSpec
import SimOS.Kernel.Agreement

/-!
# Priorities in the multilevel kernel

The priority of a process is 0 when it is created, is raised when the process
blocks before its quantum is over, and is lowered when the clock preempts it.
No other event changes the priority of a process that lives, so it can be read
off the process's own history.
-/

namespace SimOS

open Library

namespace Multilevel

/-! ## What one event does to the priorities -/

theorem priority_of_processTable {k k' : Multilevel} (h : k'.processTable = k.processTable) :
    k'.priority = k.priority := by
  funext pid
  rw [priority, priority, h]

theorem priority_schedule (k : Multilevel) (queueNum : Fin 5) :
    (k.schedule queueNum).priority = k.priority := by
  have hspec := scheduleSpec k queueNum
  generalize k.schedule queueNum = k' at hspec
  cases hspec with
  | finished _ hk' =>
    rw [hk']
    rfl
  | runs level dropped pid rest _ _ _ htable _ =>
    exact (priority_of_processTable htable).trans (priority_setState k pid .running)
  | nobody _ _ _ htable _ => exact priority_of_processTable htable

theorem priority_restartQuantum (k : Multilevel) : k.restartQuantum.priority = k.priority := by
  rw [restartQuantum]
  split <;> rfl

theorem priority_scheduleIfIdle (k : Multilevel) : k.scheduleIfIdle.priority = k.priority := by
  rw [scheduleIfIdle]
  split
  · exact priority_schedule _ _
  · rfl

theorem priority_enqueueReady {k k' : Multilevel} {pid : Pid} (h : k.enqueueReady pid = some k') :
    k'.priority = k.priority := by
  obtain ⟨level, _, rfl⟩ := Option.map_eq_some_iff.mp h
  rfl

/-- What an event can do to the priorities: nothing, unless it blocks, ends or
preempts the current process. -/
inductive PriorityMove (k : Multilevel) (e : Event) : (Pid → ℤ) → Prop
  | rest (hblocks : ¬k.toCore.Blocks e) (hends : ¬e.Ends)
      (hclock : e.interrupt = .clockInterrupt → k.currentPid ≠ none →
        ¬quantum ≤ e.clock - k.currentQuantumStartTime) :
      PriorityMove k e k.priority
  | blocked (pid : Pid) (hcurrent : k.currentPid = some pid) (hblocks : k.toCore.Blocks e) :
      PriorityMove k e (Function.update k.priority pid
        (raised (e.clock - k.currentQuantumStartTime) (k.priority pid)))
  | ended (pid : Pid) (hcurrent : k.currentPid = some pid) (hends : e.Ends) :
      PriorityMove k e (Function.update k.priority pid 0)
  | preempted (pid : Pid) (hcurrent : k.currentPid = some pid)
      (hclock : e.interrupt = .clockInterrupt)
      (hover : quantum ≤ e.clock - k.currentQuantumStartTime) :
      PriorityMove k e (Function.update k.priority pid (lowered (k.priority pid)))

section Handlers

variable {k k' : Multilevel} {e : Event}

theorem elapsed_deliver : (k.deliver e).elapsed = e.clock - k.currentQuantumStartTime :=
  Core.elapsed_deliver k.toCore e

/-- An event that is no trap blocks and ends nobody. -/
theorem PriorityMove.of_interrupt (hkind : e.interrupt ≠ .trap)
    (hclock : e.interrupt = .clockInterrupt → k.currentPid ≠ none →
      ¬quantum ≤ e.clock - k.currentQuantumStartTime) : PriorityMove k e k.priority :=
  .rest (fun hblocks => hkind hblocks.1) (Event.not_ends_of_interrupt hkind) hclock

/-- A trap that blocks and ends nobody. -/
theorem PriorityMove.of_trap (htrap : e.interrupt = .trap) (hblocks : ¬k.toCore.Blocks e)
    (hends : ¬e.Ends) : PriorityMove k e k.priority := by
  refine .rest hblocks hends fun hclock => ?_
  rw [htrap] at hclock
  cases hclock

theorem handleRead_priority {device : Device}
    (hk' : (k.deliver e).currentPid.map
      (fun pid => ((k.deliver e).issueRead device pid).schedule 4) = some k')
    (hblocks : k.toCore.Blocks e) : PriorityMove k e k'.priority := by
  obtain ⟨pid, hpid, rfl⟩ := Option.map_eq_some_iff.mp hk'
  rw [priority_schedule, priority_issueRead, elapsed_deliver]
  exact .blocked pid ((Core.deliver_currentPid _ _).symm.trans hpid) hblocks

theorem handleKill_priority (hk' : (k.deliver e).handleKill = some k') (hends : e.Ends) :
    PriorityMove k e k'.priority := by
  obtain ⟨pid, hpid, rfl⟩ := Option.map_eq_some_iff.mp hk'
  rw [priority_schedule, priority_endProcess]
  exact .ended pid ((Core.deliver_currentPid _ _).symm.trans hpid) hends

theorem handleFork_priority {R2 : ℤ} (hk' : (k.deliver e).handleFork R2 = some k') :
    k'.priority = k.priority := by
  obtain ⟨pid, _, hready⟩ := Option.bind_eq_some_iff.mp hk'
  exact (priority_enqueueReady hready).trans (priority_setState _ _ _)

/-- A semaphore operation blocks the current process only if it is a DOWN and the value is 0. -/
theorem blocks_iff_of_isSemaphoreOp {s : Sem} (hop : e.IsSemaphoreOp) (hR2 : e.R2 = (s : ℕ)) :
    k.toCore.Blocks e ↔ e.R3 = 0 ∧ (k.semaphores s).value = 0#32 := by
  have hread : e.R1 ≠ Trap.diskRead := by rw [hop.2]; decide
  have hkeyboard : e.R1 ≠ Trap.keyboardRead := by rw [hop.2]; decide
  rw [Core.Blocks, and_iff_right hop.1, or_iff_right hread, or_iff_right hkeyboard]
  by_cases hR3 : e.R3 = 0
  · rw [and_iff_right hR3]
    constructor
    · rintro ⟨t, ht, hzero⟩
      rw [Event.semOp?_down hop hR2 hR3] at ht
      split_ifs at ht with hts
      rwa [← hts]
    · intro hzero
      exact ⟨s, by rw [Event.semOp?_down hop hR2 hR3, if_pos rfl], hzero⟩
  · refine iff_of_false ?_ fun h => hR3 h.1
    rintro ⟨t, ht, _⟩
    rw [Event.semOp?_up hop hR2 hR3] at ht
    split_ifs at ht
    cases ht

theorem handleUp_priority {s : Sem} (hk' : (k.deliver e).handleUp s = some k') :
    k'.priority = k.priority := by
  rw [handleUp] at hk'
  split at hk'
  · exact (priority_enqueueReady hk').trans (priority_setState _ _ _)
  · obtain rfl := Option.some.inj hk'
    rfl

theorem handleDown_priority {s : Sem} (hk' : (k.deliver e).handleDown s = some k')
    (hop : e.IsSemaphoreOp) (hR2 : e.R2 = (s : ℕ)) (hR3 : e.R3 = 0) :
    PriorityMove k e k'.priority := by
  have hsame : ((k.deliver e).announceDown s).semaphores = k.semaphores :=
    Core.deliver_semaphores k.toCore e
  have hblocks := blocks_iff_of_isSemaphoreOp (k := k) hop hR2
  rw [handleDown, hsame] at hk'
  split_ifs at hk' with hvalue
  · obtain rfl := Option.some.inj hk'
    exact .of_trap hop.1 (fun h => hvalue (hblocks.mp h).2) hop.not_ends
  · obtain ⟨pid, hpid, rfl⟩ := Option.map_eq_some_iff.mp hk'
    rw [priority_schedule, priority_waitFor]
    change PriorityMove k e (Function.update k.priority pid
      (raised (k.deliver e).elapsed (k.priority pid)))
    rw [elapsed_deliver]
    exact .blocked pid ((Core.deliver_currentPid _ _).symm.trans hpid)
      (hblocks.mpr ⟨hR3, not_not.mp hvalue⟩)

theorem handleSemaphore_priority (hk' : (k.deliver e).handleSemaphore e.R2 e.R3 = some k')
    (hop : e.IsSemaphoreOp) : PriorityMove k e k'.priority := by
  obtain ⟨s, hs, hhandled⟩ := Option.bind_eq_some_iff.mp hk'
  have hR2 := index?_eq_some hs
  split_ifs at hhandled with hR3
  · rw [handleUp_priority hhandled]
    exact .of_trap hop.1
      (fun h => hR3 ((blocks_iff_of_isSemaphoreOp hop hR2).mp h).1) hop.not_ends
  · exact handleDown_priority hhandled hop hR2 (not_not.mp hR3)

theorem handleTrap_priority (hk' : (k.deliver e).handleTrap e = some k')
    (htrap : e.interrupt = .trap) : PriorityMove k e k'.priority := by
  have hop : e.R1 ≠ Trap.semaphoreOp → ¬e.IsSemaphoreOp := fun hne hop => hne hop.2
  have hrest : e.R1 ≠ Trap.diskRead → e.R1 ≠ Trap.keyboardRead → e.R1 ≠ Trap.semaphoreOp →
      ¬k.toCore.Blocks e := by
    rintro hdisk hkeyboard hsem ⟨_, hread | hread | ⟨s, hs, _⟩⟩
    · exact hdisk hread
    · exact hkeyboard hread
    · rw [Event.semOp?_of_not (hop hsem)] at hs
      cases hs
  rw [handleTrap] at hk'
  split_ifs at hk' with hdisk hwrite hkeyboard hfork hkill hsemaphore
  · exact handleRead_priority hk' ⟨htrap, .inl hdisk⟩
  · obtain rfl := Option.some.inj hk'
    exact .of_trap htrap (hrest hdisk (by rw [hwrite]; decide) (by rw [hwrite]; decide))
      (Event.not_ends_of_ne (by rw [hwrite]; decide))
  · exact handleRead_priority hk' ⟨htrap, .inr (.inl hkeyboard)⟩
  · rw [handleFork_priority hk']
    exact .of_trap htrap (hrest hdisk hkeyboard (by rw [hfork]; decide))
      (Event.not_ends_of_ne (by rw [hfork]; decide))
  · exact handleKill_priority hk' ⟨htrap, hkill⟩
  · exact handleSemaphore_priority hk' ⟨htrap, hsemaphore⟩
  · obtain rfl := Option.some.inj hk'
    exact .of_trap htrap (hrest hdisk hkeyboard hsemaphore) (Event.not_ends_of_ne hkill)

theorem handleClockInterrupt_priority (hk' : (k.deliver e).handleClockInterrupt = some k')
    (hclock : e.interrupt = .clockInterrupt) : PriorityMove k e k'.priority := by
  have hkind : e.interrupt ≠ .trap := by rw [hclock]; decide
  have hcurrent : (k.deliver e).currentPid = k.currentPid := Core.deliver_currentPid k.toCore e
  rw [handleClockInterrupt, elapsed_deliver] at hk'
  split at hk'
  · next hidle =>
    obtain rfl := Option.some.inj hk'
    exact .of_interrupt hkind fun _ hbusy => absurd (hcurrent.symm.trans hidle) hbusy
  · next pid hpid =>
    split_ifs at hk' with hover
    · obtain ⟨k₁, hready, rfl⟩ := Option.map_eq_some_iff.mp hk'
      rw [priority_restartQuantum, priority_schedule, priority_enqueueReady hready,
        priority_preempt]
      exact .preempted pid (hcurrent.symm.trans hpid) hclock hover
    · obtain rfl := Option.some.inj hk'
      exact .of_interrupt hkind fun _ _ => hover

theorem handleAnswer_priority {device : Device} {R1 : ℤ}
    (hk' : (index? 20 R1).bind (fun pid =>
      (((k.deliver e).finishRead device pid).enqueueReady pid).map scheduleIfIdle) = some k')
    (hkind : e.interrupt ≠ .trap) (hclock : e.interrupt ≠ .clockInterrupt) :
    PriorityMove k e k'.priority := by
  obtain ⟨pid, _, hmap⟩ := Option.bind_eq_some_iff.mp hk'
  obtain ⟨k₁, hready, rfl⟩ := Option.map_eq_some_iff.mp hmap
  have hsame : ((k.deliver e).finishRead device pid).priority = k.priority :=
    priority_setState _ _ _
  rw [priority_scheduleIfIdle, priority_enqueueReady hready, hsame]
  exact .of_interrupt hkind fun h => absurd h hclock

/-- Every event that is handled moves the priorities in one of these ways. -/
theorem interrupt_priority (hk' : k.interrupt e = some k') : PriorityMove k e k'.priority := by
  rw [interrupt] at hk'
  cases hkind : e.interrupt with
  | trap =>
    rw [hkind] at hk'
    exact handleTrap_priority hk' hkind
  | clockInterrupt =>
    rw [hkind] at hk'
    exact handleClockInterrupt_priority hk' hkind
  | diskInterrupt =>
    rw [hkind] at hk'
    exact handleAnswer_priority hk' (by rw [hkind]; decide) (by rw [hkind]; decide)
  | keyboardInterrupt =>
    rw [hkind] at hk'
    exact handleAnswer_priority hk' (by rw [hkind]; decide) (by rw [hkind]; decide)

end Handlers

/-! ## The priority a process gets from its own history -/

/-- How long the quantum has lasted when the event comes, on the 32-bit clock. -/
def quantumTime (k₀ : Multilevel) (h : List (Event × Multilevel)) (e : Event) : Word :=
  BitVec.ofNat 32 (quantumAge toCore k₀ h + (reached k₀ h).toCore.gap e)

/-- The current process blocks less than `QUANTUM` after its quantum started. -/
def BlocksEarly (k₀ : Multilevel) (h : List (Event × Multilevel)) (e : Event) : Prop :=
  (reached k₀ h).toCore.Blocks e ∧ quantumTime k₀ h e < quantum

/-- The clock interrupt preempts the current process, whose quantum is over. -/
def Preempts (k₀ : Multilevel) (h : List (Event × Multilevel)) (e : Event) : Prop :=
  e.interrupt = .clockInterrupt ∧ quantum ≤ quantumTime k₀ h e

instance (c : Core) (e : Event) : Decidable (c.Blocks e) :=
  inferInstanceAs (Decidable (_ ∧ (_ ∨ _ ∨ ∃ s, e.semOp? s = some .down ∧ _)))

instance (k₀ : Multilevel) (h : List (Event × Multilevel)) (e : Event) :
    Decidable (BlocksEarly k₀ h e) :=
  inferInstanceAs (Decidable (_ ∧ _))

instance (k₀ : Multilevel) (h : List (Event × Multilevel)) (e : Event) :
    Decidable (Preempts k₀ h e) :=
  inferInstanceAs (Decidable (_ ∧ _))

/-- The priority a process gets from its own history: 0 when it is created, one
more, up to 4, each time it blocks early, and one less, down to 0, each time it
is preempted. -/
def ownPriority (k₀ : Multilevel) (pid : Pid) : List (Event × Multilevel) → ℤ
  | [] => 0
  | (e, _) :: h =>
    if e.Forks pid then 0
    else if (reached k₀ h).currentPid = some pid then
      if BlocksEarly k₀ h e then min (ownPriority k₀ pid h + 1) 4
      else if Preempts k₀ h e then max (ownPriority k₀ pid h - 1) 0
      else ownPriority k₀ pid h
    else ownPriority k₀ pid h

/-- While the quantum has lasted less than 2^32 the clock tells its true length. -/
theorem quantumTime_lt_iff {k₀ : Multilevel} {h : List (Event × Multilevel)} {e : Event}
    (hshort : quantumAge toCore k₀ h + (reached k₀ h).toCore.gap e < 2 ^ 32) :
    quantumTime k₀ h e < quantum ↔
      quantumAge toCore k₀ h + (reached k₀ h).toCore.gap e < 40 := by
  rw [quantumTime, BitVec.lt_def, BitVec.toNat_ofNat, Nat.mod_eq_of_lt hshort]
  rfl

theorem raised_eq {time : Word} {x : ℤ} (hx : x ≤ 4) :
    raised time x = if time < quantum then min (x + 1) 4 else x := by
  rw [raised]
  split_ifs <;> omega

theorem lowered_eq {x : ℤ} (hx : 0 ≤ x) : lowered x = max (x - 1) 0 := by
  rw [lowered]
  split_ifs <;> omega

/-- The priority of a process changes only with an event that finds it current. -/
theorem PriorityMove.of_not_current {k : Multilevel} {e : Event} {priority' : Pid → ℤ}
    (h : PriorityMove k e priority') {p : Pid} (hp : k.currentPid ≠ some p) :
    priority' p = k.priority p := by
  have hne : ∀ {pid : Pid}, k.currentPid = some pid → p ≠ pid := by
    rintro pid hcurrent rfl
    exact hp hcurrent
  cases h with
  | rest _ _ _ => rfl
  | blocked pid hcurrent _ => exact Function.update_of_ne (hne hcurrent) _ _
  | ended pid hcurrent _ => exact Function.update_of_ne (hne hcurrent) _ _
  | preempted pid hcurrent _ _ => exact Function.update_of_ne (hne hcurrent) _ _

theorem blocks_not_ends {c : Core} {e : Event} (hblocks : c.Blocks e) : ¬e.Ends := by
  rcases hblocks with ⟨_, hread | hkeyboard | ⟨s, hs, _⟩⟩
  · exact Event.not_ends_of_ne (by rw [hread]; decide)
  · exact Event.not_ends_of_ne (by rw [hkeyboard]; decide)
  · by_contra hends
    have hop : ¬e.IsSemaphoreOp := fun hop => hop.not_ends hends
    rw [Event.semOp?_of_not hop] at hs
    cases hs

/-- Whoever ends itself leaves the priority 0 behind. -/
theorem PriorityMove.of_ends {k : Multilevel} {e : Event} {priority' : Pid → ℤ}
    (h : PriorityMove k e priority') (hends : e.Ends) {p : Pid} (hp : k.currentPid = some p) :
    priority' p = 0 := by
  cases h with
  | rest _ hnot _ => exact absurd hends hnot
  | blocked pid _ hblocks => exact absurd hends (blocks_not_ends hblocks)
  | ended pid hcurrent _ =>
    obtain rfl := Option.some.inj (hp.symm.trans hcurrent)
    exact Function.update_self _ _ _
  | preempted pid _ hclock _ =>
    exact absurd hends (Event.not_ends_of_interrupt (by rw [hclock]; decide))

section Runs

variable {k₀ k k' : Multilevel} {h : List (Event × Multilevel)} {e : Event} {p : Pid}

theorem RunFrom.quantumTime_eq (hboot : k₀.Booted) (hrun : RunFrom k₀ h k)
    (hhalted : k.halted = none) (hbusy : k.currentPid ≠ none) :
    quantumTime k₀ h e = e.clock - k.currentQuantumStartTime := by
  rw [quantumTime, hrun.reached_eq, BitVec.ofNat_add, ← hrun.elapsed_eq hboot hhalted hbusy,
    Core.elapsed_add_gap]

/-- What an event does to the priority of the current process, unless it ends it. -/
theorem RunFrom.priority_step (hboot : k₀.Booted) (hrun : RunFrom k₀ h k) (hstep : k.Step e k')
    (hcurrent : k.currentPid = some p) (hends : ¬e.Ends) :
    k'.priority p =
      if BlocksEarly k₀ h e then min (k.priority p + 1) 4
      else if Preempts k₀ h e then max (k.priority p - 1) 0 else k.priority p := by
  have hranged := (hrun.kernelRun hboot).inv.ranged p
  have hbusy : k.currentPid ≠ none := by
    rw [hcurrent]
    exact Option.some_ne_none p
  have htime := hrun.quantumTime_eq (e := e) hboot hstep.1.1 hbusy
  simp only [BlocksEarly, Preempts, hrun.reached_eq, htime]
  have hmove := interrupt_priority hstep.2
  generalize k'.priority = priority' at hmove
  cases hmove with
  | rest hblocks _ hclock =>
    rw [if_neg fun h => hblocks h.1, if_neg fun h => hclock h.1 hbusy h.2]
  | blocked pid hpid hblocks =>
    obtain rfl := Option.some.inj (hcurrent.symm.trans hpid)
    have hkind : e.interrupt ≠ .clockInterrupt := by rw [hblocks.1]; decide
    rw [Function.update_self, raised_eq hranged.2, if_neg (c := _ ∧ _) fun h => hkind h.1]
    simp only [hblocks, true_and]
  | ended _ _ hkill => exact absurd hkill hends
  | preempted pid hpid hclock hover =>
    obtain rfl := Option.some.inj (hcurrent.symm.trans hpid)
    have hkind : e.interrupt ≠ .trap := by rw [hclock]; decide
    rw [Function.update_self, lowered_eq hranged.1, if_neg fun h => hkind h.1.1,
      if_pos ⟨hclock, hover⟩]

/-- Along every run the priority of a process that lives is the one it gets from
its own history, and that of a free pid is 0. -/
theorem RunFrom.priority_eq (hboot : k₀.Booted) (hrun : RunFrom k₀ h k) (p : Pid) :
    k.priority p = if k.state p = .uninitialized then 0 else ownPriority k₀ p h := by
  refine Run.invariant (P := fun h k =>
    k.priority p = if k.state p = .uninitialized then 0 else ownPriority k₀ p h) ?_ ?_ hrun
  · rintro _ rfl
    obtain ⟨pid, clock, rfl⟩ := booted_iff.mp hboot
    rw [priority_boot, ownPriority, ite_self]
  · intro h k e k' hrun ih hstep
    have hk := (RunFrom.kernelRun hboot hrun).inv
    have hmove := interrupt_priority hstep.2
    rw [ownPriority, hrun.reached_eq]
    by_cases hforks : e.Forks p
    · -- the pid was free, so nobody has changed its priority
      rw [hstep.fork_free hforks, if_pos rfl] at ih
      rw [hmove.of_not_current (hstep.fork_not_current hk hforks), ih, if_pos hforks, ite_self]
    rw [if_neg hforks]
    by_cases hcurrent : k.currentPid = some p
    · rw [if_pos hcurrent]
      rw [if_neg (hk.state_current hstep.1.1 hcurrent)] at ih
      by_cases hends : e.Ends
      · rw [hstep.ended hk hends hcurrent, if_pos rfl]
        exact hmove.of_ends hends hcurrent
      · have hlives := (hstep.uninitialized_iff hk hforks fun h => absurd h hends).not.mpr
          (hk.state_current hstep.1.1 hcurrent)
        rw [if_neg hlives, RunFrom.priority_step hboot hrun hstep hcurrent hends, ih]
    · have hlives := hstep.uninitialized_iff hk hforks fun _ => hcurrent
      rw [if_neg hcurrent, hmove.of_not_current hcurrent, ih]
      simp only [hlives]

end Runs

/-- The priority of every process that lives is the one it gets from its own
history, and an event changes the priority of no process but the current one, which
blocks early, is preempted or ends itself. -/
theorem priority_own_history {k₀ k : Multilevel} {h : List (Event × Multilevel)}
    (hboot : k₀.Booted) (hrun : RunFrom k₀ h k) :
    (∀ p, k.state p ≠ .uninitialized → k.priority p = ownPriority k₀ p h) ∧
    ∀ e k', k.Step e k' → ∀ p, k'.priority p ≠ k.priority p →
      k.currentPid = some p ∧ (BlocksEarly k₀ h e ∨ Preempts k₀ h e ∨ e.Ends) := by
  refine ⟨fun p hlives => ?_, fun e k' hstep p hchanged => ?_⟩
  · rw [hrun.priority_eq hboot p, if_neg hlives]
  · have hmove := interrupt_priority hstep.2
    have hcurrent : k.currentPid = some p := by
      by_contra hother
      exact hchanged (hmove.of_not_current hother)
    refine ⟨hcurrent, ?_⟩
    by_contra hnone
    obtain ⟨hearly, hlater⟩ := not_or.mp hnone
    obtain ⟨hpreempts, hends⟩ := not_or.mp hlater
    refine hchanged ?_
    rw [hrun.priority_step hboot hstep hcurrent hends, if_neg hearly, if_neg hpreempts]

/-- Process 0 boots at 0 and reads from the disk at 7, so its priority is 1. -/
theorem priority_own_history_readAt :
    ∃ k, RunFrom (boot 0 0#32) [(.readAt 7#32, k)] k ∧ k.priority 0 = 1 := by
  have hboot : (boot 0 0#32).Booted := booted_iff.mpr ⟨0, 0#32, rfl⟩
  have hstep := step_readAt (k := boot 0 0#32) 7#32 rfl rfl
  have hrun : RunFrom (boot 0 0#32) [(.readAt 7#32, _)] _ := .next (.start rfl) hstep
  have hlives := (hstep.uninitialized_iff hboot.inv (p := 0) (by decide)
    fun hends => absurd hends.2 (by decide)).not.mpr (by decide)
  exact ⟨_, hrun, (priority_own_history hboot hrun).1 0 hlives⟩

end Multilevel

end SimOS
