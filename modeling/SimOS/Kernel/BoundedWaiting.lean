import SimOS.Kernel.RoundRobinCpuTime
import SimOS.Library.Fifo

/-!
# Bounded waiting in the round-robin kernel

The ready queue is first in, first out, so a process is dispatched after those
that were ahead of it when it was appended. With a clock interrupt every 10 ms no
process is current for 50 ms after its quantum has started, and while a process
is ready somebody is current. So the wait is bounded by the place in the queue.
-/

namespace SimOS

open Library

namespace RoundRobin

/-- The processes dispatched in a history, the first one first. -/
def dispatches : List (Event × RoundRobin) → List Pid
  | [] => []
  | (_, k) :: h => dispatches h ++ k.toCore.dispatched

/-- The clock does not go back, and it does not advance past a multiple of the
period before a clock interrupt was handled at that time. -/
def Timed (k₀ : RoundRobin) (h : List (Event × RoundRobin)) (k : RoundRobin) (e : Event) : Prop :=
  k.clock.toNat ≤ e.clock.toNat ∧
    ∀ tick, clockInterruptPeriod ∣ tick → k₀.clock.toNat < tick → tick < e.clock.toNat →
      ∃ step ∈ h, step.1.interrupt = .clockInterrupt ∧ step.1.clock.toNat = tick

/-- A run in which the clock interrupts come in time. -/
def TimedRun (k₀ : RoundRobin) : List (Event × RoundRobin) → RoundRobin → Prop :=
  Run (· = k₀) fun h k e k' => k.Step e k' ∧ Timed k₀ h k e

/-! ## How long a process is current -/

/-- The clock, the start of the quantum and the clock interrupts handled so far:
while a process is current they all came before its quantum was over. -/
structure OnTime (k₀ : RoundRobin) (h : List (Event × RoundRobin)) (k : RoundRobin) : Prop where
  boot : k₀.clock.toNat ≤ k.currentQuantumStartTime.toNat
  start : k.currentQuantumStartTime.toNat ≤ k.clock.toNat
  past : ∀ step ∈ h, step.1.clock.toNat ≤ k.clock.toNat
  early : k.currentPid ≠ none → ∀ step ∈ h, step.1.interrupt = .clockInterrupt →
    step.1.clock.toNat < k.currentQuantumStartTime.toNat + 40
  slice : k.currentPid ≠ none → k.clock.toNat < k.currentQuantumStartTime.toNat + 50

section OnTime

variable {k₀ k k' : RoundRobin} {h : List (Event × RoundRobin)} {e : Event}

/-- The next event comes less than 50 ms after the start of the quantum: there
was a multiple of the period when the quantum was over. -/
theorem OnTime.next_clock (hk : OnTime k₀ h k) (htimed : Timed k₀ h k e)
    (hbusy : k.currentPid ≠ none) : e.clock.toNat < k.currentQuantumStartTime.toNat + 50 := by
  by_contra hlate
  have hboot := hk.boot
  obtain ⟨step, hstep, hclock, htick⟩ :=
    htimed.2 (10 * ((k.currentQuantumStartTime.toNat + 49) / 10)) (dvd_mul_right 10 _)
      (by omega) (by omega)
  have hearly := hk.early hbusy step hstep hclock
  omega

/-- A quantum that is not over by the clock has lasted less than 40 ms. -/
theorem lt_of_not_due {start clock : Word} (hle : start.toNat ≤ clock.toNat)
    (hrest : ¬quantum ≤ clock - start) : clock.toNat < start.toNat + 40 := by
  have hdiff : (clock - start).toNat = clock.toNat - start.toNat := BitVec.toNat_sub_of_le hle
  have hquantum : quantum.toNat = 40 := rfl
  rw [BitVec.le_def, hdiff, hquantum] at hrest
  omega

theorem OnTime.next (hk : OnTime k₀ h k) (htimed : Timed k₀ h k e) (houtcome : Outcome k e k') :
    OnTime k₀ ((e, k') :: h) k' := by
  have hboot := hk.boot
  have hstart := hk.start
  have hadvance := htimed.1
  have hpast : k'.clock = e.clock → ∀ step ∈ (e, k') :: h, step.1.clock.toNat ≤ k'.clock.toNat := by
    intro hclock step hstep
    rw [hclock]
    rcases List.mem_cons.mp hstep with rfl | hearlier
    · exact le_refl _
    · exact (hk.past step hearlier).trans hadvance
  cases houtcome with
  | kept _ hclock hcurrent hsame _ _ _ _ hrest =>
    refine ⟨by rw [hsame]; exact hboot, ?_, hpast hclock, fun hbusy => ?_, fun hbusy => ?_⟩
    · rw [hsame, hclock]
      omega
    · rw [hcurrent] at hbusy
      intro step hstep hinterrupt
      rw [hsame]
      rcases List.mem_cons.mp hstep with rfl | hearlier
      · exact lt_of_not_due (hstart.trans hadvance) (hrest hinterrupt hbusy)
      · exact hk.early hbusy step hearlier hinterrupt
    · rw [hcurrent] at hbusy
      rw [hsame, hclock]
      exact hk.next_clock htimed hbusy
  | served _ _ _ hclock hnow _ _ _ =>
    refine ⟨by rw [hnow]; omega, by rw [hnow, hclock], hpast hclock, fun _ step hstep _ => ?_,
      fun _ => ?_⟩
    · have hle := hpast hclock step hstep
      rw [hclock] at hle
      rw [hnow]
      omega
    · rw [hnow, hclock]
      omega

end OnTime

theorem TimedRun.runFrom {k₀ k : RoundRobin} {h : List (Event × RoundRobin)}
    (hrun : TimedRun k₀ h k) : RunFrom k₀ h k :=
  Run.mono (fun _ => id) (fun _ _ _ _ hstep => hstep.1) hrun

theorem TimedRun.onTime {k₀ k : RoundRobin} {h : List (Event × RoundRobin)} (hboot : k₀.Booted)
    (hrun : TimedRun k₀ h k) : OnTime k₀ h k := by
  refine Run.invariant (P := OnTime k₀) ?_ ?_ hrun
  · rintro _ rfl
    obtain ⟨pid, clock, rfl⟩ := booted_iff.mp hboot
    refine ⟨le_refl _, le_refl _, fun _ hstep => absurd hstep List.not_mem_nil,
      fun _ _ hstep => absurd hstep List.not_mem_nil, fun _ => ?_⟩
    exact Nat.lt_add_of_pos_right (by decide)
  · intro h k e k' hrun ih hstep
    have hk := ((TimedRun.runFrom hrun).kernelRun hboot).inv
    exact ih.next hstep.2 (hstep.1.outcome hk)

/-! ## The order of the dispatches -/

/-- One process at most joins the queue, and whoever is dispatched leaves it. -/
theorem Outcome.queue {k k' : RoundRobin} {e : Event} (h : Outcome k e k') :
    ∃ new, Newcomer k.readyQueue new ∧
      k.readyQueue ++ new = k'.toCore.dispatched ++ k'.readyQueue := by
  cases h with
  | kept hjoins _ _ _ _ _ _ _ _ =>
    obtain ⟨new, hnew, hqueue⟩ := hjoins.queue
    refine ⟨new, hnew, ?_⟩
    rw [hjoins.silent.dispatched_eq, List.nil_append, hqueue]
  | served new hnew hserved _ _ _ _ _ =>
    refine ⟨new, hnew, ?_⟩
    cases hserved with
    | nobody hqueue hempty _ hdispatched => rw [hqueue, hdispatched, hempty, List.append_nil]
    | runs pid hqueue _ _ hdispatched => rw [hqueue, hdispatched, List.singleton_append]

/-- While a process is ready somebody is current. -/
theorem Inv.busy_of_ready {k : RoundRobin} (hk : k.Inv) {p : Pid} (hp : p ∈ k.readyQueue) :
    k.currentPid ≠ none := by
  have hne : k.readyQueue ≠ [] := List.ne_nil_of_mem hp
  cases hk.settled with
  | running hcurrent _ _ =>
    rw [hcurrent]
    exact Option.some_ne_none _
  | idle _ _ _ hempty _ => exact absurd (hempty ()) hne
  | finished _ hinv hactive => exact absurd hactive (hinv.active_ne_zero (.ready ()) hp)
  | deadlocked _ _ hempty _ _ => exact absurd (hempty ()) hne

theorem Inv.readyQueue_nodup {k : RoundRobin} (hk : k.Inv) : k.readyQueue.Nodup := by
  obtain ⟨run, pos, hat⟩ := hk.settled.exists_inv
  exact hat.placed.nodup (.ready ())

/-- The process has been appended to the ready queue, and may have been
dispatched from it by the same event. -/
def Appended (k k' : RoundRobin) (p : Pid) : Prop :=
  p ∉ k.readyQueue ∧ (p ∈ k'.readyQueue ∨ p ∈ k'.toCore.dispatched)

/-- Since `p` was appended behind `ahead` at the time `since`, the processes in
`left` were dispatched; and while `p` is not among them, none of them was current
for 50 ms. -/
structure Waits (p : Pid) (ahead : List Pid) (since : ℕ) (left : List Pid) (k : RoundRobin) :
    Prop where
  order : ∃ later, Fifo (ahead ++ p :: later) left k.readyQueue
  start : p ∉ left → k.currentQuantumStartTime.toNat ≤ since + 50 * left.length

section Waits

variable {k₀ k k' : RoundRobin} {e : Event} {p : Pid} {ahead left : List Pid} {since : ℕ}

theorem Waits.mem_readyQueue (hw : Waits p ahead since left k) (hleft : p ∉ left) :
    p ∈ k.readyQueue := by
  obtain ⟨later, hfifo⟩ := hw.order
  have hmem : p ∈ left ++ k.readyQueue := by
    rw [← hfifo]
    exact List.mem_append_right ahead List.mem_cons_self
  exact (List.mem_append.mp hmem).resolve_left hleft

theorem Outcome.waits (h : Outcome k e k') (happended : Appended k k' p)
    (hstart : k.currentQuantumStartTime.toNat ≤ e.clock.toNat) :
    Waits p k.readyQueue e.clock.toNat k'.toCore.dispatched k' where
  order := by
    obtain ⟨new, hnew, hqueue⟩ := h.queue
    have hmem : p ∈ k.readyQueue ++ new := by
      rw [hqueue]
      exact List.mem_append.mpr happended.2.symm
    have hp : p ∈ new := (List.mem_append.mp hmem).resolve_left happended.1
    rcases hnew with rfl | ⟨x, _, rfl⟩
    · exact absurd hp List.not_mem_nil
    · obtain rfl := List.mem_singleton.mp hp
      exact ⟨[], hqueue⟩
  start := by
    intro _
    cases h with
    | kept _ _ _ hsame _ _ _ _ _ =>
      rw [hsame]
      omega
    | served _ _ _ _ hnow _ _ _ =>
      rw [hnow]
      omega

/-- The next event lets at most one of those ahead of `p` run, less than 50 ms
after the one before it. -/
theorem Waits.next (hw : Waits p ahead since left k) (hk : k.Inv) (h : Outcome k e k')
    (hclock : k.currentPid ≠ none → e.clock.toNat < k.currentQuantumStartTime.toNat + 50) :
    Waits p ahead since (left ++ k'.toCore.dispatched) k' where
  order := by
    obtain ⟨later, hfifo⟩ := hw.order
    obtain ⟨new, _, hqueue⟩ := h.queue
    refine ⟨later ++ new, ?_⟩
    rw [← List.cons_append, ← List.append_assoc]
    exact hfifo.step hqueue
  start := by
    intro hleft
    have hwaiting : p ∉ left := fun hp => hleft (List.mem_append_left _ hp)
    have hready := hw.mem_readyQueue hwaiting
    have hstart := hw.start hwaiting
    have hnext := hclock (hk.busy_of_ready hready)
    rw [List.length_append]
    cases h with
    | kept _ _ _ hsame _ _ _ _ _ =>
      rw [hsame]
      omega
    | served new _ hserved _ hnow _ _ _ =>
      rw [hnow]
      cases hserved with
      | nobody hqueue _ _ _ =>
        rw [(List.append_eq_nil_iff.mp hqueue).1] at hready
        exact absurd hready List.not_mem_nil
      | runs pid _ _ _ hdispatched =>
        rw [hdispatched, List.length_singleton]
        omega

end Waits

/-- The induction is on the history since `p` was appended. -/
theorem TimedRun.waits {k₀ k k' : RoundRobin} {later h : List (Event × RoundRobin)} {e : Event}
    {p : Pid} (hboot : k₀.Booted) (hrun : TimedRun k₀ (later ++ (e, k') :: h) k)
    (happended : Appended (reached k₀ h) k' p) :
    Waits p (reached k₀ h).readyQueue e.clock.toNat (dispatches (later ++ [(e, k')])) k := by
  induction later generalizing k with
  | nil =>
    cases hrun with
    | next hprev hstep =>
      have hreached := Run.reached_eq hprev
      have hk := ((TimedRun.runFrom hprev).kernelRun hboot).inv
      have htime := TimedRun.onTime hboot hprev
      rw [hreached] at happended ⊢
      exact (hstep.1.outcome hk).waits happended (htime.start.trans hstep.2.1)
  | cons step later ih =>
    obtain ⟨e₁, k₁⟩ := step
    cases hrun with
    | next hprev hstep =>
      have hk := ((TimedRun.runFrom hprev).kernelRun hboot).inv
      have htime := TimedRun.onTime hboot hprev
      exact (ih hprev).next hk (hstep.1.outcome hk) (htime.next_clock hstep.2)

/-- Bounded waiting. When a process is appended to the ready queue with `n`
processes ahead of it, those are dispatched before it, each once and in the order
of the queue; and until it is dispatched less than `50 * (n + 1)` ms pass. -/
theorem bounded_waiting {k₀ k k' : RoundRobin} {later h : List (Event × RoundRobin)} {e : Event}
    {p : Pid} (hboot : k₀.Booted) (hrun : TimedRun k₀ (later ++ (e, k') :: h) k)
    (happended : Appended (reached k₀ h) k' p) :
    (reached k₀ h).readyQueue.Nodup ∧
    (p ∉ dispatches (later ++ [(e, k')]) →
      dispatches (later ++ [(e, k')]) <+: (reached k₀ h).readyQueue ∧
      k.clock.toNat < e.clock.toNat + 50 * ((reached k₀ h).readyQueue.length + 1)) ∧
    (p ∈ dispatches (later ++ [(e, k')]) →
      ∃ rest, dispatches (later ++ [(e, k')]) = (reached k₀ h).readyQueue ++ p :: rest) := by
  have hw := hrun.waits hboot happended
  obtain ⟨behind, hfifo⟩ := hw.order
  obtain ⟨hbefore, hafter⟩ := hfifo.in_order happended.1
  refine ⟨?_, fun hp => ?_, hafter⟩
  · obtain ⟨k₁, hprev, _⟩ := Run.exists_step hrun (List.suffix_append later _)
    rw [hprev.reached_eq]
    exact ((TimedRun.runFrom hprev).kernelRun hboot).inv.readyQueue_nodup
  · have hbehind := hbefore hp
    have hlength := hbehind.length_le
    have hk := (hrun.runFrom.kernelRun hboot).inv
    have hslice := (hrun.onTime hboot).slice (hk.busy_of_ready (hw.mem_readyQueue hp))
    have hstart := hw.start hp
    exact ⟨hbehind, by omega⟩

/-- The kernel once `pid` was created at `clock`. -/
def forkedAt (k : RoundRobin) (pid : Pid) (clock : Word) : RoundRobin :=
  (k.deliver (.forkAt pid clock)).createProcess pid

/-- The kernel once the running process reads from the disk and `pid`, the head of the ready
queue, was dispatched. -/
def readingAt (k : RoundRobin) (runner pid : Pid) (next : List Pid) (clock : Word) : RoundRobin :=
  { (((k.deliver (.readAt clock)).issueRead .disk runner).setState pid .running).print
      (.runs clock pid) with
    currentPid := some pid
    readyQueue := next }

section Traps

variable {k : RoundRobin} {runner pid : Pid} {clock : Word}

theorem step_forkedAt (hhalted : k.halted = none) (hbusy : k.currentPid ≠ none)
    (hfree : k.state pid = .uninitialized) : k.Step (.forkAt pid clock) (k.forkedAt pid clock) := by
  have hcode : Trap.forkProgram ≠ Trap.semaphoreOp := by decide
  refine ⟨⟨hhalted, hbusy, fun _ => ⟨pid, rfl, hfree⟩, fun h => absurd h hcode⟩, ?_⟩
  change (k.deliver (.forkAt pid clock)).handleFork (pid : ℕ) = _
  rw [handleFork, index?_coe]
  rfl

theorem step_readingAt {next : List Pid} (hhalted : k.halted = none)
    (hcurrent : k.currentPid = some runner) (hactive : k.activeProcesses ≠ 0)
    (hqueue : k.readyQueue = pid :: next) (hblocked : k.state pid ≠ .blocked)
    (hne : pid ≠ runner) : k.Step (.readAt clock) (k.readingAt runner pid next clock) := by
  have hfork : Trap.diskRead ≠ Trap.forkProgram := by decide
  have hop : Trap.diskRead ≠ Trap.semaphoreOp := by decide
  have hbusy : k.currentPid ≠ none := by
    rw [hcurrent]
    exact Option.some_ne_none runner
  refine ⟨⟨hhalted, hbusy, fun h => absurd h hfork, fun h => absurd h hop⟩, ?_⟩
  have hstate : ((k.deliver (.readAt clock)).issueRead .disk runner).state pid ≠ .blocked := by
    rw [state_issueRead, Function.update_of_ne hne]
    exact hblocked
  have hschedule := schedule_cons (k := (k.deliver (.readAt clock)).issueRead .disk runner)
    hactive hqueue
  change (k.deliver (.readAt clock)).handleDiskRead = _
  rw [handleDiskRead, show (k.deliver (.readAt clock)).currentPid = some runner from hcurrent,
    Option.map_some, hschedule, if_neg hstate]
  rfl

/-- Before the quantum is over a clock interrupt only sets the clock. -/
theorem step_clockAt (hhalted : k.halted = none)
    (hearly : clock - k.currentQuantumStartTime < quantum) :
    k.Step (.clockAt clock) (k.deliver (.clockAt clock)) := by
  refine ⟨⟨hhalted, trivial⟩, congrArg some ?_⟩
  change (k.deliver (.clockAt clock)).handleClockInterrupt = _
  rw [handleClockInterrupt]
  split
  · rfl
  · exact if_neg (BitVec.not_le.mpr hearly)

end Traps

theorem timed_of_le_period {k₀ k : RoundRobin} {h : List (Event × RoundRobin)} {e : Event}
    (hpast : k.clock.toNat ≤ e.clock.toNat) (hearly : e.clock.toNat ≤ clockInterruptPeriod) :
    Timed k₀ h k e := by
  refine ⟨hpast, fun tick hdvd hlo hhi => ?_⟩
  have hle := Nat.le_of_dvd (by omega) hdvd
  omega

section SecondInLine

variable (runner first second : Pid)

/-- `second` is created behind `first`. -/
def twoInLine : RoundRobin := ((boot runner 0#32).forkedAt first 2#32).forkedAt second 5#32

/-- `runner` reads from the disk, so `first` is dispatched. -/
def secondInLine : RoundRobin :=
  (twoInLine runner first second).readingAt runner first [second] 7#32

/-- A clock interrupt comes. -/
def secondWaits : RoundRobin := (secondInLine runner first second).deliver (.clockAt 10#32)

/-- `first` reads from the disk as well. -/
def secondRuns : RoundRobin := (secondWaits runner first second).readingAt first second [] 10#32

/-- What comes after `second` was created. -/
def inLineHistory : List (Event × RoundRobin) :=
  [(.clockAt 10#32, secondWaits runner first second),
    (.readAt 7#32, secondInLine runner first second)]

end SecondInLine

/-- Process 2, created at 5 behind process 1, still waits at 10, when process 1 has been
dispatched, and is dispatched next. -/
theorem bounded_waiting_second :
    TimedRun (boot 0 0#32) ((.readAt 10#32, secondRuns 0 1 2) :: (inLineHistory 0 1 2 ++
      [(.forkAt 2 5#32, twoInLine 0 1 2), (.forkAt 1 2#32, (boot 0 0#32).forkedAt 1 2#32)]))
      (secondRuns 0 1 2) ∧
    dispatches (inLineHistory 0 1 2) = [1] ∧
    (secondWaits 0 1 2).clock.toNat < 5 + 50 * (1 + 1) ∧
    ∃ rest, dispatches ((.readAt 10#32, secondRuns 0 1 2) :: inLineHistory 0 1 2) =
      [1] ++ 2 :: rest := by
  have hboot : (boot 0 0#32).Booted := booted_iff.mpr ⟨0, 0#32, rfl⟩
  have happended : Appended ((boot 0 0#32).forkedAt 1 2#32) (twoInLine 0 1 2) 2 :=
    ⟨by decide, .inl (by decide)⟩
  have hrun : TimedRun (boot 0 0#32) (inLineHistory 0 1 2 ++ [(.forkAt 2 5#32, twoInLine 0 1 2),
      (.forkAt 1 2#32, (boot 0 0#32).forkedAt 1 2#32)]) (secondWaits 0 1 2) := by
    refine .next (.next (.next (.next (.start rfl) ⟨?_, ?_⟩) ⟨?_, ?_⟩) ⟨?_, ?_⟩) ⟨?_, ?_⟩
    · exact step_forkedAt rfl (Option.some_ne_none 0) rfl
    · exact timed_of_le_period (by decide) (by decide)
    · exact step_forkedAt rfl (Option.some_ne_none 0) rfl
    · exact timed_of_le_period (by decide) (by decide)
    · exact step_readingAt rfl rfl (by decide) rfl (by decide) (by decide)
    · exact timed_of_le_period (by decide) (by decide)
    · exact step_clockAt rfl (by decide)
    · exact timed_of_le_period (by decide) (by decide)
  have hrun' : TimedRun (boot 0 0#32) (((.readAt 10#32, secondRuns 0 1 2) ::
      inLineHistory 0 1 2) ++ [(.forkAt 2 5#32, twoInLine 0 1 2),
        (.forkAt 1 2#32, (boot 0 0#32).forkedAt 1 2#32)]) (secondRuns 0 1 2) :=
    .next hrun ⟨step_readingAt rfl rfl (by decide) rfl (by decide) (by decide),
      timed_of_le_period (by decide) (by decide)⟩
  have hwaits := (bounded_waiting hboot hrun happended).2.1 (by decide)
  have hruns := (bounded_waiting hboot hrun' happended).2.2 (by decide)
  exact ⟨hrun', by decide, hwaits.2, hruns⟩

end RoundRobin

end SimOS
