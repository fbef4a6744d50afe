import SimOS.Kernel.MultilevelTurns
import SimOS.Kernel.MutualExclusion
import SimOS.Kernel.Verdict
import SimOS.Library.WaitFor

/-!
# Lock ordering in the multilevel kernel

Processes that use semaphores as locks can deadlock: two of them are each inside
the semaphore the other one waits for. They cannot when the semaphores are ranked,
a process issues DOWN only on a semaphore above all those it is inside, and no
process ends inside a semaphore.
-/

namespace SimOS

open Library

namespace Multilevel

/-- The current process issues DOWN only on semaphores above those it is inside,
and does not end while it is inside one. -/
def Orderly (rank : Sem → ℕ) (k₀ : Multilevel) (h : List (Event × Multilevel)) (k : Multilevel)
    (e : Event) : Prop :=
  ∀ p, k.currentPid = some p → ∀ t, Inside t k₀ p h →
    (∀ s, e.semOp? s = some .down → rank t < rank s) ∧ ¬e.Ends

instance (rank : Sem → ℕ) (k₀ : Multilevel) (h : List (Event × Multilevel)) (k : Multilevel)
    (e : Event) : Decidable (Orderly rank k₀ h k e) :=
  inferInstanceAs (Decidable (∀ p, k.currentPid = some p → ∀ t, Inside t k₀ p h →
    (∀ s, e.semOp? s = some .down → rank t < rank s) ∧
      ¬(e.interrupt = .trap ∧ e.R1 = Trap.endProgram)))

/-- A run in which all processes keep to the discipline of every semaphore and to
the order. -/
def OrderlyRun (rank : Sem → ℕ) (k₀ : Multilevel) : List (Event × Multilevel) → Multilevel → Prop :=
  Run (· = k₀) fun h k e k' =>
    k.Step e k' ∧ (∀ s, Disciplined s k₀ h k e) ∧ Orderly rank k₀ h k e

/-- A process that is alive is inside every semaphore with value 0, and those who
wait are inside lower semaphores only. -/
structure Ordered (rank : Sem → ℕ) (k₀ : Multilevel) (h : List (Event × Multilevel))
    (k : Multilevel) : Prop where
  occupied : ∀ s, (k.semaphores s).value = 0#32 →
    ∃ p, Inside s k₀ p h ∧ k.state p ≠ .uninitialized
  climbs : ∀ s, ∀ p ∈ (k.semaphores s).waiting, ∀ t, Inside t k₀ p h → rank t < rank s

section Steps

variable {rank : Sem → ℕ} {k₀ k k' : Multilevel} {h : List (Event × Multilevel)} {e : Event}
  {s : Sem} {p : Pid}

theorem OrderlyRun.disciplinedRun (hrun : OrderlyRun rank k₀ h k) (s : Sem) :
    DisciplinedRun s k₀ h k :=
  Run.mono (fun _ hk => hk) (fun _ _ _ _ hstep => ⟨hstep.1, hstep.2.1 s⟩) hrun

/-- Whoever waits for a semaphore is blocked. -/
theorem Inv.blocked_of_waiting (hk : k.Inv) (hp : p ∈ (k.semaphores s).waiting) :
    k.state p = .blocked := by
  obtain ⟨run, hinv⟩ := hk.settled.exists_inv
  exact hinv.state_of_mem (.semaphore s) hp

/-- A live process inside a semaphore is not created by an event, and stays alive. -/
theorem Step.live_of_inside (hk : k.Inv) (hstep : k.Step e k') (horderly : Orderly rank k₀ h k e)
    (hinside : Inside s k₀ p h) (hlive : k.state p ≠ .uninitialized) :
    ¬e.Forks p ∧ k'.state p ≠ .uninitialized := by
  have hforks : ¬e.Forks p := fun hforks => hlive (hstep.fork_free hforks)
  refine ⟨hforks, (hstep.uninitialized_iff hk hforks fun hends hcurrent => ?_).not.mpr hlive⟩
  exact (horderly p hcurrent s hinside).2 hends

/-- A semaphore that is taken after a step is taken by somebody alive. -/
theorem SemaphoreStep.occupied (hk : k.Inv) (hstep : k.Step e k') (hreached : reached k₀ h = k)
    (hdisciplined : Disciplined s k₀ h k e) (horderly : Orderly rank k₀ h k e)
    (hguarded : Guarded s k₀ h k) (hmove : SemaphoreStep s k e k')
    (hold : (k.semaphores s).value = 0#32 → ∃ p, Inside s k₀ p h ∧ k.state p ≠ .uninitialized)
    (hvalue : (k'.semaphores s).value = 0#32) :
    ∃ p, Inside s k₀ p ((e, k') :: h) ∧ k'.state p ≠ .uninitialized := by
  have hcensus := hk.census hstep.1.1
  cases hmove with
  | rest hop hsem =>
    rw [hsem] at hvalue
    obtain ⟨p, hinside, hlive⟩ := hold hvalue
    obtain ⟨hforks, hlive'⟩ := hstep.live_of_inside hk horderly hinside hlive
    refine ⟨p, ?_, hlive'⟩
    rw [Inside, if_neg hforks, hop]
    exact hinside
  | handOver runner pid next hop hcurrent _ hwaiting _ hstate =>
    -- the process that was woken is inside at once
    have hblocked : k.state pid = .blocked := Core.state_waiting hcensus hwaiting
    have hready : k'.state pid = .ready := by rw [hstate, Function.update_self]
    refine ⟨pid, (inside_up hreached hop).mpr ⟨fun hpid => ?_, .inl ⟨hblocked, hready⟩⟩, ?_⟩
    · exact ProcessState.noConfusion (hblocked.symm.trans (Core.state_running hcensus hpid))
    · rw [hready]
      decide
  | release runner hop hcurrent _ hsem _ =>
    have hzero := (hguarded.of_inside ((hdisciplined runner hcurrent).1 hop)).1
    rw [hsem, Semaphore.increment, hzero] at hvalue
    exact absurd hvalue (by decide : (0#32 + 1#32 : Word) ≠ 0#32)
  | pass runner hop hcurrent _ _ hstate =>
    have hrunning : k'.state runner = .running := by
      rw [hstate]
      exact Core.state_running hcensus hcurrent
    refine ⟨runner, ?_, ?_⟩
    · rw [inside_down hreached hop, if_pos hcurrent, hrunning]
      decide
    · rw [hrunning]
      decide
  | wait pid hop hcurrent hzero _ _ =>
    obtain ⟨p, hinside, hlive⟩ := hold hzero
    have hother : k.currentPid ≠ some p := fun hp => (hdisciplined p hp).2 hop hinside
    refine ⟨p, ?_, (hstep.live_of_inside hk horderly hinside hlive).2⟩
    rw [inside_down hreached hop, if_neg hother]
    exact hinside

/-- Whoever waits after a step has waited before, or has just issued DOWN. -/
theorem SemaphoreStep.waiting_cases (hmove : SemaphoreStep s k e k')
    (hp : p ∈ (k'.semaphores s).waiting) :
    p ∈ (k.semaphores s).waiting ∨ (e.semOp? s = some .down ∧ k.currentPid = some p) := by
  cases hmove with
  | rest _ hsem =>
    rw [hsem] at hp
    exact .inl hp
  | handOver _ pid next _ _ _ hwaiting hsem _ =>
    rw [hsem] at hp
    rw [hwaiting]
    exact .inl (List.mem_cons_of_mem pid hp)
  | release _ _ _ _ hsem _ =>
    rw [hsem] at hp
    exact .inl hp
  | pass _ _ _ _ hsem _ =>
    rw [hsem] at hp
    exact .inl hp
  | wait pid hop hcurrent _ hsem _ =>
    rw [hsem, Semaphore.waiting_enqueue] at hp
    rcases List.mem_append.mp hp with hold | hnew
    · exact .inl hold
    · rw [List.mem_singleton.mp hnew]
      exact .inr ⟨hop, hcurrent⟩

/-- A process that is blocked after a step was inside before, if it is now. -/
theorem inside_of_blocked (hreached : reached k₀ h = k) (hblocked : k'.state p = .blocked) {t : Sem}
    (hinside : Inside t k₀ p ((e, k') :: h)) : Inside t k₀ p h := by
  cases hop : e.semOp? t with
  | none => exact inside_rest hop hinside
  | some op =>
    cases op with
    | up =>
      obtain ⟨_, ⟨_, hready⟩ | hold⟩ := (inside_up hreached hop).mp hinside
      · exact ProcessState.noConfusion (hblocked.symm.trans hready)
      · exact hold
    | down =>
      rw [inside_down hreached hop] at hinside
      split_ifs at hinside with hp
      · exact absurd hblocked hinside
      · exact hinside

/-- Every step taken in order keeps the semaphores in order. -/
theorem Ordered.step (hk : k.Inv) (hstep : k.Step e k') (hreached : reached k₀ h = k)
    (hdisciplined : ∀ s, Disciplined s k₀ h k e) (horderly : Orderly rank k₀ h k e)
    (hguarded : ∀ s, Guarded s k₀ h k) (hordered : Ordered rank k₀ h k) :
    Ordered rank k₀ ((e, k') :: h) k' where
  occupied s := (hstep.semaphoreStep hk s).occupied hk hstep hreached (hdisciplined s) horderly
    (hguarded s) (hordered.occupied s)
  climbs := by
    intro s p hp t hinside
    have hinv' : k'.Inv := (hstep.outcome hk).inv
    have hbefore := inside_of_blocked hreached (hinv'.blocked_of_waiting hp) hinside
    rcases (hstep.semaphoreStep hk s).waiting_cases hp with hold | ⟨hop, hcurrent⟩
    · exact hordered.climbs s p hold t hbefore
    · exact (horderly p hcurrent t hbefore).1 s hop

end Steps

/-! ## Runs -/

section Runs

variable {rank : Sem → ℕ} {k₀ k : Multilevel} {h : List (Event × Multilevel)}

theorem OrderlyRun.ordered (hboot : k₀.Booted) (hrun : OrderlyRun rank k₀ h k) :
    Ordered rank k₀ h k := by
  refine Run.invariant (P := fun h k => Ordered rank k₀ h k) ?_ ?_ hrun
  · rintro _ rfl
    obtain ⟨pid, clock, rfl⟩ := booted_iff.mp hboot
    exact ⟨fun s hvalue => absurd hvalue (by decide : (1#32 : Word) ≠ 0#32),
      fun s p hp => absurd hp List.not_mem_nil⟩
  · intro h k e k' hrun ih ⟨hstep, hdisciplined, horderly⟩
    have hdisciplinedRun := OrderlyRun.disciplinedRun hrun
    exact ih.step ((hdisciplinedRun 0).kernelRun hboot).inv hstep hrun.reached_eq hdisciplined
      horderly fun s => ((hdisciplinedRun s).invariant hboot).1

/-- Those who wait and those who are inside form chains that climb. -/
theorem OrderlyRun.climbingWaits (hboot : k₀.Booted) (hrun : OrderlyRun rank k₀ h k) :
    ClimbingWaits (fun p s => Inside s k₀ p h ∧ k.state p ≠ .uninitialized)
      (fun p s => p ∈ (k.semaphores s).waiting) rank where
  held := by
    intro p s hp
    cases ((hrun.disciplinedRun s).invariant hboot).1 with
    | free _ hnobody _ =>
      rw [hnobody] at hp
      exact absurd hp List.not_mem_nil
    | taken hzero _ => exact (hrun.ordered hboot).occupied s hzero
  climbs := by
    intro p t s hinside hp
    exact (hrun.ordered hboot).climbs s p hp t hinside.1

end Runs

/-- Lock ordering rules out deadlock. In every run in which the processes use the
semaphores as locks, issue DOWN only on semaphores ranked above all those they are
inside, and do not end inside one, the kernel never reports a deadlock; and whenever
a process waits for a semaphore, some live process is inside a semaphore that is
waited for and waits for none. -/
theorem lock_order_no_deadlock {rank : Sem → ℕ} {k₀ k : Multilevel}
    {h : List (Event × Multilevel)} (hboot : k₀.Booted) (hrun : OrderlyRun rank k₀ h k) :
    k.halted ≠ some .deadlockedSystem ∧
    ∀ s, ∀ p ∈ (k.semaphores s).waiting,
      ∃ q t, Inside t k₀ q h ∧ (k.semaphores t).waiting ≠ [] ∧ k.state q ≠ .uninitialized ∧
        ∀ r, q ∉ (k.semaphores r).waiting := by
  have hholder : ∀ s, ∀ p ∈ (k.semaphores s).waiting,
      ∃ q t, Inside t k₀ q h ∧ (k.semaphores t).waiting ≠ [] ∧ k.state q ≠ .uninitialized ∧
        ∀ r, q ∉ (k.semaphores r).waiting := by
    intro s p hp
    obtain ⟨q, t, ⟨hinside, hlive⟩, ⟨p', hp'⟩, hnone⟩ :=
      (hrun.climbingWaits hboot).exists_free_holder hp
    exact ⟨q, t, hinside, List.ne_nil_of_mem hp', hlive, hnone⟩
  refine ⟨fun hdeadlock => ?_, hholder⟩
  cases ((hrun.disciplinedRun 0).kernelRun hboot).inv.settled with
  | running _ hhalted _ => exact nomatch hhalted.symm.trans hdeadlock
  | idle _ hhalted _ _ _ => exact nomatch hhalted.symm.trans hdeadlock
  | finished hhalted _ _ => exact nomatch hhalted.symm.trans hdeadlock
  | deadlocked _ hinv hempty hactive hio =>
    -- somebody lives and waits for a semaphore, so somebody lives and does not
    have hwaits : ∀ p, k.state p ≠ .uninitialized → ∃ s, p ∈ (k.semaphores s).waiting := fun p =>
      Core.waits_of_deadlock hinv hempty ((Core.ioProcesses_eq_zero_iff hinv).mp hio)
    have hlive : ∃ p, k.state p ≠ .uninitialized := by
      by_contra hdead
      push Not at hdead
      exact hactive ((Core.activeProcesses_eq_zero_iff hinv).mpr hdead)
    obtain ⟨p, hp⟩ := hlive
    obtain ⟨s, hs⟩ := hwaits p hp
    obtain ⟨q, _, _, _, hq, hnone⟩ := hholder s p hs
    obtain ⟨r, hr⟩ := hwaits q hq
    exact hnone r hr

section Climbing

variable (a b c : Sem) (first second : Pid) (level : Fin 5)

/-- `first` is inside `a` and `c`, and has created `second`. -/
def twiceInside : Multilevel :=
  (((boot first 0#32).enteredAt a 1#32).enteredAt c 2#32).forkedAt second level 3#32

/-- The clock preempts `first`. -/
def switched : Multilevel :=
  (twiceInside a c first second level).preemptedAt first level level second [first] 40#32

/-- `second` is inside `b`. -/
def bothInside : Multilevel := (switched a c first second level).enteredAt b 41#32

/-- `second` waits for `c`. -/
def climbing : Multilevel :=
  (bothInside a b c first second level).waitedAt c second level first [] 42#32

def climbingHistory : List (Event × Multilevel) :=
  [(.downAt c 42#32, climbing a b c first second level),
    (.downAt b 41#32, bothInside a b c first second level),
    (.clockAt 40#32, switched a c first second level),
    (.forkAt second 3#32, twiceInside a c first second level),
    (.downAt c 2#32, ((boot first 0#32).enteredAt a 1#32).enteredAt c 2#32),
    (.downAt a 1#32, (boot first 0#32).enteredAt a 1#32)]

end Climbing

/-- Process 0 goes into the semaphores 0 and 2 and process 1 into 1, in the order of the
indices; process 1 waits for 2, and somebody it waits for does not wait. -/
theorem lock_order_no_deadlock_climbing :
    OrderlyRun Fin.val (boot 0 0#32) (climbingHistory 0 1 2 0 1 0) (climbing 0 1 2 0 1 0) ∧
      Inside 1 (boot 0 0#32) 1 (climbingHistory 0 1 2 0 1 0) ∧
      ((climbing 0 1 2 0 1 0).semaphores 2).waiting = [1] ∧
      (climbing 0 1 2 0 1 0).halted ≠ some .deadlockedSystem ∧
      ∃ q t, Inside t (boot 0 0#32) q (climbingHistory 0 1 2 0 1 0) ∧
        ((climbing 0 1 2 0 1 0).semaphores t).waiting ≠ [] ∧
        ∀ r, q ∉ ((climbing 0 1 2 0 1 0).semaphores r).waiting := by
  have hrun : OrderlyRun Fin.val (boot 0 0#32) (climbingHistory 0 1 2 0 1 0)
      (climbing 0 1 2 0 1 0) := by
    refine .next (.next (.next (.next (.next (.next (.start rfl) ⟨?_, ?_⟩) ⟨?_, ?_⟩) ⟨?_, ?_⟩)
      ⟨?_, ?_⟩) ⟨?_, ?_⟩) ⟨?_, ?_⟩
    · exact step_enteredAt rfl rfl (by decide)
    · decide
    · exact step_enteredAt rfl rfl (by decide)
    · decide
    · exact step_forkAt _ rfl (Option.some_ne_none 0) rfl rfl
    · decide
    · exact step_preemptedAt rfl rfl (by decide) rfl (by decide) rfl (by decide) (by decide)
    · decide
    · exact step_enteredAt rfl rfl (by decide)
    · decide
    · exact step_waitedAt rfl rfl rfl (by decide) rfl (by decide) (by decide) (by decide)
    · decide
  obtain ⟨hlive, hholder⟩ := lock_order_no_deadlock (booted_iff.mpr ⟨0, 0#32, rfl⟩) hrun
  have hwaits : ((climbing 0 1 2 0 1 0).semaphores 2).waiting = [1] := rfl
  obtain ⟨q, t, hinside, hwanted, _, hnone⟩ := hholder 2 1 (by rw [hwaits]; decide)
  exact ⟨hrun, by decide, hwaits, hlive, q, t, hinside, hwanted, hnone⟩

end Multilevel

end SimOS
