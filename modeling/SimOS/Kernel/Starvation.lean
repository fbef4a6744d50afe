import SimOS.Kernel.Dispatch

/-!
# Starvation in the multilevel kernel

The round-robin kernel bounds how long a process is ready. The multilevel kernel
does not: a process gains priority each time it blocks early, so two processes
that read from the disk in turn always outrank a process of the lowest priority,
and one of them is always ready when the other one blocks. Here they do so for
any number of rounds, with a clock interrupt every 10 ms.
-/

namespace SimOS

open Library

namespace Multilevel

/-- The clock moves by 10 ms before each clock interrupt, and only then. -/
def Ticks (k : Multilevel) (e : Event) : Prop :=
  e.clock = if e.interrupt = .clockInterrupt then k.clock + 10#32 else k.clock

/-- A run with a clock interrupt every 10 ms. -/
def TickedRun : List (Event × Multilevel) → Multilevel → Prop :=
  Run Booted fun _ k e k' => k.Step e k' ∧ Ticks k e

/-- The processes dispatched in a history, the first one first. -/
def dispatches : List (Event × Multilevel) → List Pid
  | [] => []
  | (_, k) :: h => dispatches h ++ k.toCore.dispatched

/-- How many clock interrupts there were. -/
def ticks : List (Event × Multilevel) → ℕ
  | [] => 0
  | (e, _) :: h => ticks h + if e.interrupt = .clockInterrupt then 1 else 0

/-! ## Four events -/

/-- What can be seen of a kernel that runs `run`. -/
structure Shows (k : Multilevel) (clock start : Word) (run : Pid) (queues : Fin 5 → List Pid)
    (disk : List Pid) (priority : Pid → ℤ) : Prop where
  inv : k.Inv
  halted : k.halted = none
  clock : k.clock = clock
  start : k.currentQuantumStartTime = start
  current : k.currentPid = some run
  queues : k.readyQueues = queues
  disk : k.requests .disk = disk
  priority : k.priority = priority

/-- `schedule` runs the head of the highest queue that is not empty. -/
theorem Vacant.schedule_eq {k : Multilevel} (hk : k.Vacant) {level : Fin 5} {pid : Pid}
    {next : List Pid} (hqueue : k.readyQueues level = pid :: next)
    (habove : ∀ l, level < l → k.readyQueues l = []) :
    k.schedule 4 = k.dispatchAt level pid next := by
  have hmem : pid ∈ k.readyQueues level := by
    rw [hqueue]
    exact List.mem_cons_self
  have hready : k.state pid = .ready := Core.state_ready hk.census hqueue
  refine schedule_eq_dispatchAt (hk.census.active_ne_zero (.ready level) hmem) hqueue habove ?_
  rw [hready]
  decide

section Events

variable {k : Multilevel} {clock start : Word} {run : Pid} {queues : Fin 5 → List Pid}
  {disk : List Pid} {priority : Pid → ℤ}

/-- Before the quantum is over a clock interrupt only sets the clock. -/
theorem Shows.tick (hk : Shows k clock start run queues disk priority) (clock' : Word)
    (hearly : clock' - start < quantum) :
    ∃ k', k.Step (.clockAt clock') k' ∧ k'.dispatched = [] ∧
      Shows k' clock' start run queues disk priority := by
  have hstep := step_clockAt hk.halted (hk.start ▸ hearly)
  refine ⟨_, hstep, Core.silent_deliver.dispatched_eq, (hstep.outcome hk.inv).inv, ?_, ?_, ?_,
    (Core.deliver_currentPid _ _).trans hk.current, hk.queues, ?_, hk.priority⟩
  · exact (Core.deliver_halted _ _).trans hk.halted
  · exact Core.deliver_clock _ _
  · exact (Core.deliver_currentQuantumStartTime _ _).trans hk.start
  · have hrequests : (k.toCore.deliver (.clockAt clock')).requests = k.requests :=
      Core.deliver_requests_of_none rfl
    exact (congrFun hrequests _).trans hk.disk

/-- Once the running process reads from the disk the head of the highest queue runs. -/
theorem Shows.read (hk : Shows k clock start run queues disk priority) (level : Fin 5)
    {pid : Pid} {next : List Pid} (hqueue : queues level = pid :: next)
    (habove : ∀ l, level < l → queues l = []) :
    ∃ k', k.Step (.readAt clock) k' ∧ k'.dispatched = [pid] ∧
      Shows k' clock clock pid (Function.update queues level next) (disk ++ [run])
        (Function.update priority run (raised (clock - start) (priority run))) := by
  have hvacant := hk.inv.vacant_issueRead (e := .readAt clock) hk.halted rfl hk.current .disk
  have hcore := toCore_issueRead (k.deliver (.readAt clock)) .disk run
  have hqueues : ((k.deliver (.readAt clock)).issueRead .disk run).readyQueues = queues :=
    (readyQueues_issueRead _ _ _).trans hk.queues
  have hschedule := hvacant.schedule_eq (by rw [hqueues, hqueue])
    (fun l hl => by rw [hqueues, habove l hl])
  have hstep := step_readAt clock hk.halted hk.current
  rw [hschedule] at hstep
  have hsilent : ((k.deliver (.readAt clock)).issueRead .disk run).toCore.Silent := by
    rw [hcore]
    exact Core.silent_deliver.print fun _ _ => Message.noConfusion
  refine ⟨_, hstep, ?_, (hstep.outcome hk.inv).inv, hvacant.halted, ?_, ?_, rfl, ?_, ?_, ?_⟩
  · refine (Core.dispatched_print_runs _ _).trans ?_
    change ((k.deliver (.readAt clock)).issueRead .disk run).dispatched ++ [pid] = [pid]
    rw [hsilent.dispatched_eq, List.nil_append]
  · exact (congrArg Core.clock hcore).trans (Core.deliver_clock _ _)
  · exact (congrArg Core.currentQuantumStartTime hcore).trans (Core.deliver_clock _ _)
  · exact congrArg (Function.update · level next) hqueues
  · have hrequests : (k.toCore.deliver (.readAt clock)).requests = k.requests :=
      Core.deliver_requests_of_none rfl
    refine (congrArg (fun c => c.requests .disk) hcore).trans ?_
    change Function.update (k.toCore.deliver (.readAt clock)).requests .disk
      ((k.toCore.deliver (.readAt clock)).requests .disk ++ [run]) .disk = _
    rw [Function.update_self, hrequests, hk.disk]
  · refine (priority_setState _ _ _).trans ((priority_issueRead _ _ _).trans ?_)
    have helapsed : (k.deliver (.readAt clock)).elapsed = clock - start :=
      (Core.elapsed_deliver _ _).trans (by rw [hk.start]; rfl)
    rw [helapsed]
    exact congrArg (fun p => Function.update p run (raised (clock - start) (p run))) hk.priority

/-- The process whose read is answered joins the queue of its priority. -/
theorem Shows.answer (hk : Shows k clock start run queues disk priority) {pid : Pid}
    (hdisk : pid ∈ disk) (level : Fin 5) (hlevel : priority pid = (level : ℕ)) :
    ∃ k', k.Step (.answerAt pid clock) k' ∧ k'.dispatched = [] ∧
      Shows k' clock start run (Function.update queues level (queues level ++ [pid]))
        (disk.erase pid) priority := by
  have hpriority : ((k.deliver (.answerAt pid clock)).finishRead .disk pid).priority = priority :=
    (priority_setState _ _ _).trans hk.priority
  have hcurrent : (k.deliver (.answerAt pid clock)).currentPid = some run :=
    (Core.deliver_currentPid _ _).trans hk.current
  have hstep : k.Step (.answerAt pid clock)
      (((k.deliver (.answerAt pid clock)).finishRead .disk pid).enqueueAt level pid) := by
    refine ⟨⟨hk.halted, pid, rfl, by rw [hk.disk]; exact hdisk⟩, ?_⟩
    change (k.deliver _).handleDiskInterrupt _ = _
    rw [handleDiskInterrupt, show (Event.answerAt pid clock).R1 = ((pid : ℕ) : ℤ) from rfl,
      index?_coe, Option.bind_some, enqueueReady_eq (by rw [hpriority, hlevel]), Option.map_some,
      scheduleIfIdle, if_neg]
    change (k.deliver (.answerAt pid clock)).currentPid ≠ none
    rw [hcurrent]
    exact Option.some_ne_none run
  refine ⟨_, hstep, ?_, (hstep.outcome hk.inv).inv, ?_, ?_, ?_, hcurrent, ?_, ?_, hpriority⟩
  · apply Core.Silent.dispatched_eq
    exact Core.silent_deliver.print fun _ _ => Message.noConfusion
  · exact (Core.deliver_halted _ _).trans hk.halted
  · exact Core.deliver_clock _ _
  · exact (Core.deliver_currentQuantumStartTime _ _).trans hk.start
  · rw [← hk.queues]
    rfl
  · have hrequests := Core.deliver_requests_of_some (c := k.toCore) (e := .answerAt pid clock)
      (show _ = some Device.disk from rfl) (show _ = ((pid : ℕ) : ℤ) from rfl)
    refine (congrFun hrequests .disk).trans ?_
    rw [Function.update_self, hk.disk]

/-- A process that is created joins the queue of its priority. -/
theorem Shows.fork (hk : Shows k clock start run queues disk priority) (pid : Pid)
    (hfree : k.state pid = .uninitialized) (level : Fin 5) (hlevel : priority pid = (level : ℕ)) :
    ∃ k', k.Step (.forkAt pid clock) k' ∧ k'.state = Function.update k.state pid .ready ∧
      Shows k' clock start run (Function.update queues level (queues level ++ [pid])) disk
        priority := by
  have hbusy : k.currentPid ≠ none := hk.current ▸ Option.some_ne_none run
  have hstep := step_forkAt clock hk.halted hbusy hfree ((congrFun hk.priority pid).trans hlevel)
  have hrequests : (k.toCore.deliver (.forkAt pid clock)).requests = k.requests :=
    Core.deliver_requests_of_none rfl
  refine ⟨_, hstep, state_createProcess _ _, (hstep.outcome hk.inv).inv, ?_, ?_, ?_,
    (Core.deliver_currentPid _ _).trans hk.current, ?_, ?_,
    (priority_setState _ _ _).trans hk.priority⟩
  · exact (Core.deliver_halted _ _).trans hk.halted
  · exact Core.deliver_clock _ _
  · exact (Core.deliver_currentQuantumStartTime _ _).trans hk.start
  · rw [← hk.queues]
    rfl
  · exact (congrFun hrequests .disk).trans hk.disk

end Events

/-! ## Two processes that keep a third one waiting -/

/-- The lowest level. -/
def lowest : Fin 5 := ⟨0, Nat.succ_pos 4⟩

/-- Process `p` is ready on the lowest level, and nobody else is. -/
def lowQueue (p : Pid) : Fin 5 → List Pid := fun l => if l = lowest then [p] else []

/-- Process `b` is ready on its level and `p` on the lowest, and nobody else is. -/
def duelQueues (b : Pid) (level : Fin 5) (p : Pid) : Fin 5 → List Pid :=
  Function.update (lowQueue p) level [b]

/-- Process `a` runs and `b` is ready, both above the lowest level, where `p` is. -/
def Duel (a b p : Pid) (k : Multilevel) : Prop :=
  a ≠ b ∧ p ≠ a ∧ p ≠ b ∧ ∃ (clock : Word) (priority : Pid → ℤ) (la lb : Fin 5),
    la ≠ lowest ∧ lb ≠ lowest ∧ priority a = (la : ℕ) ∧ priority b = (lb : ℕ) ∧
      Shows k clock clock a (duelQueues b lb p) [] priority

theorem Shows.ready {k : Multilevel} {clock start : Word} {run p : Pid}
    {queues : Fin 5 → List Pid} {disk : List Pid} {priority : Pid → ℤ}
    (hk : Shows k clock start run queues disk priority) {level : Fin 5} (hp : p ∈ queues level) :
    k.state p = .ready := by
  rw [← hk.queues] at hp
  exact (hk.inv.census hk.halted).state_of_mem (.ready level) hp

theorem raised_pos (elapsed : Word) {x : ℤ} (hx : 0 < x) : 0 < raised elapsed x := by
  rw [raised]
  split_ifs <;> omega

theorem mem_lowQueue (p : Pid) : p ∈ lowQueue p lowest := List.mem_singleton_self p

theorem mem_duelQueues {level : Fin 5} (hlevel : level ≠ lowest) (b p : Pid) :
    p ∈ duelQueues b level p lowest := by
  rw [duelQueues, Function.update_of_ne hlevel.symm]
  exact mem_lowQueue p

theorem Duel.ready {a b p : Pid} {k : Multilevel} (hk : Duel a b p k) : k.state p = .ready := by
  obtain ⟨_, _, _, _, _, _, _, _, hlb, _, _, hshows⟩ := hk
  exact hshows.ready (mem_duelQueues hlb b p)

/-- In one round of 10 ms the two processes change places: the clock interrupt comes
before the quantum is over, the running one reads, and its read is answered. -/
theorem Duel.round {a b p : Pid} {k : Multilevel} (hk : Duel a b p k)
    {h : List (Event × Multilevel)} (hrun : TickedRun h k) :
    ∃ later k', TickedRun (later ++ h) k' ∧ Duel b a p k' ∧ k'.clock = k.clock + 10#32 ∧
      ticks later = 1 ∧ dispatches later = [b] ∧ ∀ x ∈ later, x.2.state p = .ready := by
  obtain ⟨hab, hpa, hpb, clock, priority, la, lb, hla, hlb, ha, hb, hshows⟩ := hk
  have helapsed : clock + 10#32 - clock = 10#32 := by bv_omega
  obtain ⟨k₁, hstep₁, hdispatched₁, hshows₁⟩ := hshows.tick (clock + 10#32)
    (by rw [helapsed]; decide)
  have habove : ∀ l, lb < l → duelQueues b lb p l = [] := by
    intro l hl
    rw [duelQueues, Function.update_of_ne (ne_of_gt hl), lowQueue, if_neg]
    rintro rfl
    exact absurd hl (not_lt.mpr (Fin.zero_le lb))
  obtain ⟨k₂, hstep₂, hdispatched₂, hshows₂⟩ := hshows₁.read lb
    (show duelQueues b lb p lb = [b] from Function.update_self _ _ _) habove
  obtain ⟨la', hla'⟩ := hshows₂.inv.ranged.exists_level a
  rw [hshows₂.priority, Function.update_self] at hla'
  have hlow : Function.update (duelQueues b lb p) lb [] = lowQueue p := by
    rw [duelQueues, Function.update_idem, Function.update_eq_self_iff, lowQueue, if_neg hlb]
  rw [hlow, List.nil_append] at hshows₂
  obtain ⟨k₃, hstep₃, hdispatched₃, hshows₃⟩ := hshows₂.answer (List.mem_singleton_self a)
    la' (by rw [Function.update_self, hla'])
  have hne : la' ≠ lowest := by
    rintro rfl
    have hlevel : 0 < priority a := by
      rw [ha]
      exact_mod_cast Fin.pos_of_ne_zero hla
    have hpos := raised_pos (clock + 10#32 - clock) hlevel
    rw [hla'] at hpos
    exact absurd hpos (lt_irrefl 0)
  have hqueues : Function.update (lowQueue p) la' (lowQueue p la' ++ [a]) = duelQueues a la' p := by
    rw [duelQueues, lowQueue, if_neg hne, List.nil_append]
  rw [hqueues, List.erase_cons_head] at hshows₃
  refine ⟨[(.answerAt a (clock + 10#32), k₃), (.readAt (clock + 10#32), k₂),
    (.clockAt (clock + 10#32), k₁)], k₃, ?_,
    ⟨hab.symm, hpb, hpa, _, _, lb, la', hlb, hne, ?_, ?_, hshows₃⟩, ?_, rfl, ?_, ?_⟩
  · refine .next (.next (.next hrun ⟨hstep₁, ?_⟩) ⟨hstep₂, ?_⟩) ⟨hstep₃, ?_⟩
    · exact congrArg (· + 10#32) hshows.clock.symm
    · exact hshows₁.clock.symm
    · exact hshows₂.clock.symm
  · rw [Function.update_of_ne hab.symm, hb]
  · rw [Function.update_self, hla']
  · rw [hshows₃.clock, hshows.clock]
  · simp only [dispatches, hdispatched₁, hdispatched₂, hdispatched₃, List.nil_append,
      List.append_nil]
  · intro x hx
    simp only [List.mem_cons, List.not_mem_nil, or_false] at hx
    rcases hx with rfl | rfl | rfl
    · exact hshows₃.ready (mem_duelQueues hne a p)
    · exact hshows₂.ready (mem_lowQueue p)
    · exact hshows₁.ready (mem_duelQueues hlb b p)

theorem shows_boot (pid : Pid) (clock : Word) :
    Shows (boot pid clock) clock clock pid (fun _ => []) [] fun _ => 0 :=
  ⟨(booted_iff.mpr ⟨pid, clock, rfl⟩).inv, rfl, rfl, rfl, rfl, rfl, rfl, priority_boot pid clock⟩

/-- Process 0 creates 1 and 2, and it and then 1 read before 2 gets its turn. -/
theorem exists_duel : ∃ h k, TickedRun h k ∧ Duel 0 1 2 k := by
  obtain ⟨k₁, hstep₁, hstate₁, hshows₁⟩ := (shows_boot 0 0#32).fork 1
    (by rw [state_boot]; decide) 0 rfl
  obtain ⟨k₂, hstep₂, _, hshows₂⟩ := hshows₁.fork 2 (by rw [hstate₁, state_boot]; decide) 0 rfl
  obtain ⟨k₃, hstep₃, _, hshows₃⟩ := hshows₂.read 0 (show _ = 1 :: [2] by decide) (by decide)
  obtain ⟨k₄, hstep₄, _, hshows₄⟩ := hshows₃.answer (show (0 : Pid) ∈ _ by decide) 1 (by decide)
  obtain ⟨k₅, hstep₅, _, hshows₅⟩ := hshows₄.read 1 (show _ = 0 :: [] by decide) (by decide)
  obtain ⟨k₆, hstep₆, _, hshows₆⟩ := hshows₅.answer (show (1 : Pid) ∈ _ by decide) 1 (by decide)
  have hrun₁ : TickedRun [(.forkAt 1 0#32, k₁)] k₁ :=
    .next (.start (booted_iff.mpr ⟨0, 0#32, rfl⟩)) ⟨hstep₁, rfl⟩
  have hrun₂ : TickedRun ((.forkAt 2 0#32, k₂) :: _) k₂ :=
    .next hrun₁ ⟨hstep₂, hshows₁.clock.symm⟩
  have hrun₃ : TickedRun ((.readAt 0#32, k₃) :: _) k₃ :=
    .next hrun₂ ⟨hstep₃, hshows₂.clock.symm⟩
  have hrun₄ : TickedRun ((.answerAt 0 0#32, k₄) :: _) k₄ :=
    .next hrun₃ ⟨hstep₄, hshows₃.clock.symm⟩
  have hrun₅ : TickedRun ((.readAt 0#32, k₅) :: _) k₅ :=
    .next hrun₄ ⟨hstep₅, hshows₄.clock.symm⟩
  have hrun₆ : TickedRun ((.answerAt 1 0#32, k₆) :: _) k₆ :=
    .next hrun₅ ⟨hstep₆, hshows₅.clock.symm⟩
  have hduel : Shows k₆ 0#32 0#32 0 (duelQueues 1 1 2) [] _ :=
    ⟨hshows₆.inv, hshows₆.halted, hshows₆.clock, hshows₆.start, hshows₆.current,
      hshows₆.queues.trans (by decide), hshows₆.disk.trans (by decide), hshows₆.priority⟩
  exact ⟨_, k₆, hrun₆, by decide, by decide, by decide, 0#32, _, 1, 1, by decide, by decide,
    by decide, by decide, hduel⟩

theorem ticks_append (later h : List (Event × Multilevel)) :
    ticks (later ++ h) = ticks h + ticks later := by
  induction later with
  | nil => rfl
  | cons x later ih => rw [List.cons_append, ticks, ih, ticks, Nat.add_assoc]

theorem dispatches_append (later h : List (Event × Multilevel)) :
    dispatches (later ++ h) = dispatches h ++ dispatches later := by
  induction later with
  | nil => exact (List.append_nil _).symm
  | cons x later ih => rw [List.cons_append, dispatches, ih, dispatches, List.append_assoc]

/-- The rounds of a duel, one after the other. -/
theorem Duel.rounds (n : ℕ) {a b p : Pid} {k : Multilevel} (hk : Duel a b p k)
    {h : List (Event × Multilevel)} (hrun : TickedRun h k) :
    ∃ later k', TickedRun (later ++ h) k' ∧ k'.clock = k.clock + BitVec.ofNat 32 (10 * n) ∧
      ticks later = n ∧ (dispatches later).length = n ∧ p ∉ dispatches later ∧
      ∀ x ∈ later, x.2.state p = .ready := by
  induction n generalizing a b k h with
  | zero =>
    exact ⟨[], k, hrun, (BitVec.add_zero _).symm, rfl, rfl, List.not_mem_nil,
      fun x hx => (List.not_mem_nil hx).elim⟩
  | succ n ih =>
    obtain ⟨later, k', hrun', hduel, hclock, hticks, hdispatches, hready⟩ := hk.round hrun
    obtain ⟨later', k'', hrun'', hclock', hticks', hlength', hpasses', hready'⟩ := ih hduel hrun'
    refine ⟨later' ++ later, k'', ?_, ?_, ?_, ?_, ?_, ?_⟩
    · rw [List.append_assoc]
      exact hrun''
    · rw [hclock', hclock, Nat.mul_succ, Nat.add_comm (10 * n), BitVec.ofNat_add,
        BitVec.add_assoc]
    · rw [ticks_append, hticks, hticks', Nat.add_comm]
    · rw [dispatches_append, hdispatches, List.length_append, hlength', List.length_singleton,
        Nat.add_comm]
    · rw [dispatches_append, hdispatches, List.mem_append, List.mem_singleton]
      exact fun hmem => hmem.elim hk.2.2.1 hpasses'
    · intro x hx
      exact (List.mem_append.mp hx).elim (hready' x) (hready x)

/-- There is no bound on how long a process of the multilevel kernel is ready: for
every `n` there is a run, with a clock interrupt every 10 ms, in which a process is
ready and stays so for the next `10 * n` ms, during which others are dispatched `n`
times and it is not. -/
theorem starvation_unbounded (n : ℕ) : ∃ (later h : List (Event × Multilevel))
    (k k' : Multilevel) (p : Pid), TickedRun h k ∧ k.state p = .ready ∧
      TickedRun (later ++ h) k' ∧ k'.clock = k.clock + BitVec.ofNat 32 (10 * n) ∧
      ticks later = n ∧ (dispatches later).length = n ∧ p ∉ dispatches later ∧
      ∀ x ∈ later, x.2.state p = .ready := by
  obtain ⟨h, k, hrun, hduel⟩ := exists_duel
  obtain ⟨later, k', hlater⟩ := hduel.rounds n hrun
  exact ⟨later, h, k, k', 2, hrun, hduel.ready, hlater⟩

end Multilevel

end SimOS
