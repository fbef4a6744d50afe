import SimOS.Kernel.RoundRobinRuns

/-!
# The semaphores of the round-robin kernel

`Move` lists what one event can do to one semaphore. Counting UPs and DOWNs over
the history gives the conservation law, as long as the `int` does not overflow:
the value starts at 1, so 2^31 - 1 UPs are one too many.
-/

namespace SimOS

open Library

/-- `R3` tells UP from DOWN. -/
inductive SemOp
  | up
  | down
  deriving DecidableEq

/-- The operation the event asks for on this semaphore. -/
def Event.semOp? (e : Event) (s : Sem) : Option SemOp :=
  if e.interrupt = .trap ∧ e.R1 = Trap.semaphoreOp ∧ e.R2 = (s : ℕ) then
    if e.R3 ≠ 0 then some .up else some .down
  else none

namespace Event

variable {e : Event} {s t : Sem}

theorem semOp?_of_not (hop : ¬e.IsSemaphoreOp) : e.semOp? s = none := by
  rw [semOp?, if_neg]
  rintro ⟨htrap, hR1, _⟩
  exact hop ⟨htrap, hR1⟩

theorem of_semOp?_up (h : e.semOp? s = some .up) :
    e.IsSemaphoreOp ∧ e.R2 = (s : ℕ) ∧ e.R3 ≠ 0 := by
  rw [semOp?] at h
  split_ifs at h with hevent hR3
  · exact ⟨⟨hevent.1, hevent.2.1⟩, hevent.2.2, hR3⟩
  · cases h

theorem semOp?_up (hop : e.IsSemaphoreOp) (hR2 : e.R2 = (s : ℕ)) (hR3 : e.R3 ≠ 0) :
    e.semOp? t = if t = s then some .up else none := by
  by_cases ht : t = s
  · rw [if_pos ht, semOp?, if_pos ⟨hop.1, hop.2, by rw [ht, hR2]⟩, if_pos hR3]
  · rw [if_neg ht, semOp?, if_neg]
    rintro ⟨_, _, h⟩
    exact ht (Fin.ext (Int.ofNat.inj (h.symm.trans hR2)))

theorem semOp?_down (hop : e.IsSemaphoreOp) (hR2 : e.R2 = (s : ℕ)) (hR3 : e.R3 = 0) :
    e.semOp? t = if t = s then some .down else none := by
  by_cases ht : t = s
  · rw [if_pos ht, semOp?, if_pos ⟨hop.1, hop.2, by rw [ht, hR2]⟩, if_neg (not_not.mpr hR3)]
  · rw [if_neg ht, semOp?, if_neg]
    rintro ⟨_, _, h⟩
    exact ht (Fin.ext (Int.ofNat.inj (h.symm.trans hR2)))

end Event

namespace Semaphore

/-- What can happen to a semaphore when an operation is asked for, or none is. -/
inductive Move (sem : Semaphore) : Option SemOp → Semaphore → Prop
  | rest : Move sem none sem
  | handOver (pid : Pid) (next : List Pid) (hvalue : sem.value = 0#32)
      (hwaiting : sem.waiting = pid :: next) :
      Move sem (some .up) { sem with readyQueue := some next }
  | release (hfree : sem.value ≠ 0#32 ∨ sem.waiting = []) : Move sem (some .up) sem.increment
  | pass (hvalue : sem.value ≠ 0#32) : Move sem (some .down) sem.decrement
  | wait (pid : Pid) (hvalue : sem.value = 0#32) (hnew : pid ∉ sem.waiting) :
      Move sem (some .down) (sem.enqueue pid)

/-- The value is what the operations so far leave, and processes wait only at 0. -/
structure Balanced (sem : Semaphore) (ups downs : ℕ) : Prop where
  nonneg : 0 ≤ sem.value.toInt
  balance : sem.value.toInt - sem.waiting.length = 1 + ups - downs
  blocked : sem.waiting ≠ [] → sem.value = 0#32

theorem toInt_increment {value : Word} (hlo : 0 ≤ value.toInt) (hhi : value.toInt < 2 ^ 31 - 1) :
    (value + 1#32).toInt = value.toInt + 1 := by
  have hone : (1#32 : Word).toInt = 1 := rfl
  rw [BitVec.toInt_add, hone]
  exact Int.bmod_eq_of_le_mul_two (by omega) (by omega)

theorem toInt_decrement {value : Word} (hlo : 0 ≤ value.toInt) :
    (value - 1#32).toInt = value.toInt - 1 := by
  have hone : (1#32 : Word).toInt = 1 := rfl
  have hhi : 2 * value.toInt < 2 ^ 32 := BitVec.two_mul_toInt_lt
  rw [BitVec.toInt_sub, hone]
  exact Int.bmod_eq_of_le_mul_two (by omega) (by omega)

theorem toInt_ne_zero {value : Word} (hne : value ≠ 0#32) : value.toInt ≠ 0 :=
  fun hzero => hne (BitVec.toInt_inj.mp hzero)

/-- A move keeps the balance, unless the value is as large as an `int` can be. -/
theorem Move.balanced {sem sem' : Semaphore} {ups downs : ℕ} {op : Option SemOp}
    (hmove : Move sem op sem') (h : sem.Balanced ups downs)
    (hups : ups + (if op = some .up then 1 else 0) < 2 ^ 31 - 1) :
    sem'.Balanced (ups + if op = some .up then 1 else 0)
      (downs + if op = some .down then 1 else 0) := by
  have hbalance := h.balance
  have hnonneg := h.nonneg
  have hempty : sem.value ≠ 0#32 → sem.waiting = [] := fun hne =>
    not_not.mp fun hwaiting => hne (h.blocked hwaiting)
  cases hmove with
  | rest => exact h
  | handOver pid next hvalue hwaiting =>
    refine ⟨hnonneg, ?_, fun _ => hvalue⟩
    change sem.value.toInt - next.length = _
    -- the value stays, and one process fewer waits
    rw [hwaiting, List.length_cons] at hbalance
    simp only [if_true, if_neg (show (some SemOp.up) ≠ some SemOp.down by decide)]
    omega
  | release hfree =>
    have hnobody : sem.waiting = [] := hfree.elim hempty id
    rw [hnobody, List.length_nil] at hbalance
    simp only [if_true] at hups
    -- the only step that can overflow; what was issued so far bounds the value
    have hvalue := toInt_increment hnonneg (by omega)
    refine ⟨?_, ?_, fun hwaiting => absurd hnobody hwaiting⟩
    · change 0 ≤ (sem.value + 1#32).toInt
      omega
    · change (sem.value + 1#32).toInt - (sem.waiting.length : ℤ) = _
      rw [hnobody, hvalue, List.length_nil]
      simp only [if_true, if_neg (show (some SemOp.up) ≠ some SemOp.down by decide)]
      omega
  | pass hne =>
    have hnobody := hempty hne
    have hvalue := toInt_decrement hnonneg
    have hpos := toInt_ne_zero hne
    rw [hnobody, List.length_nil] at hbalance
    refine ⟨?_, ?_, fun hwaiting => absurd hnobody hwaiting⟩
    · change 0 ≤ (sem.value - 1#32).toInt
      omega
    · change (sem.value - 1#32).toInt - (sem.waiting.length : ℤ) = _
      rw [hnobody, hvalue, List.length_nil]
      simp only [if_true, if_neg (show (some SemOp.down) ≠ some SemOp.up by decide)]
      omega
  | wait pid hvalue _ =>
    refine ⟨hnonneg, ?_, fun _ => hvalue⟩
    -- the value stays, and one process more waits
    rw [waiting_enqueue, List.length_append, List.length_singleton]
    change sem.value.toInt - _ = _
    simp only [if_true, if_neg (show (some SemOp.down) ≠ some SemOp.up by decide)]
    omega

/-- At most one process joins the queue of a semaphore, at its end. -/
theorem Move.queue {sem sem' : Semaphore} {op : Option SemOp} (hmove : Move sem op sem') :
    ∃ new, Newcomer sem.waiting new ∧ sem'.waiting.Sublist (sem.waiting ++ new) := by
  cases hmove with
  | rest => exact ⟨[], .inl rfl, by rw [List.append_nil]⟩
  | handOver pid next _ hwaiting =>
    refine ⟨[], .inl rfl, ?_⟩
    rw [List.append_nil, hwaiting]
    exact List.sublist_cons_self pid next
  | release _ => exact ⟨[], .inl rfl, by rw [List.append_nil, waiting_increment]⟩
  | pass _ => exact ⟨[], .inl rfl, by rw [List.append_nil, waiting_decrement]⟩
  | wait pid _ hnew => exact ⟨[pid], .inr ⟨pid, hnew, rfl⟩, by rw [waiting_enqueue]⟩

end Semaphore

namespace RoundRobin

/-! ## What an event does to the semaphores -/

theorem semaphores_schedule (k : RoundRobin) : k.schedule.semaphores = k.semaphores := by
  fun_induction schedule k with
  | case1 => rfl
  | case2 => rfl
  | case3 => rfl
  | case4 k _ pid next _ _ ih => exact ih
  | case5 => rfl

theorem semaphores_restartQuantum (k : RoundRobin) :
    k.restartQuantum.semaphores = k.semaphores := by
  rw [restartQuantum]
  split <;> rfl

theorem semaphores_scheduleIfIdle (k : RoundRobin) :
    k.scheduleIfIdle.semaphores = k.semaphores := by
  rw [scheduleIfIdle]
  split
  · exact semaphores_schedule _
  · rfl

/-- The running process waits for no semaphore. -/
theorem running_not_mem_waiting {k : RoundRobin} {pid : Pid} (h : (k.census (some pid)).Inv)
    (s : Sem) : pid ∉ (k.semaphores s).waiting := by
  intro hmem
  have hrunning : k.state pid = .running := Core.state_running h rfl
  have hblocked : k.state pid = .blocked := h.state_of_mem (.semaphore s) hmem
  exact ProcessState.noConfusion (hrunning.symm.trans hblocked)

/-- Every event is a move of every semaphore. -/
theorem Effect.semaphore_move {k k' : RoundRobin} {e : Event} (hk : k.Inv)
    (hhalted : k.halted = none) (h : Effect k e k') (s : Sem) :
    Semaphore.Move (k.semaphores s) (e.semOp? s) (k'.semaphores s) := by
  have hinv := hk.census hhalted
  have hdeliver : (k.deliver e).semaphores = k.semaphores := Core.deliver_semaphores k.toCore e
  have hrest : ∀ {semaphores : Sem → Semaphore}, ¬e.IsSemaphoreOp → semaphores = k.semaphores →
      Semaphore.Move (k.semaphores s) (e.semOp? s) (semaphores s) := by
    intro semaphores hop hsame
    rw [Event.semOp?_of_not hop, hsame]
    exact .rest
  have htouch : ∀ {t : Sem} {sem : Semaphore} {op : SemOp},
      e.semOp? s = (if s = t then some op else none) →
      Semaphore.Move (k.semaphores t) (some op) sem →
      Semaphore.Move (k.semaphores s) (e.semOp? s)
        (Function.update (k.deliver e).semaphores t sem s) := by
    intro t sem op hop hmove
    rw [hop, hdeliver]
    by_cases hs : s = t
    · rw [if_pos hs, hs, Function.update_self]
      exact hmove
    · rw [if_neg hs, Function.update_of_ne hs]
      exact .rest
  cases h with
  | quiet messages _ hop => exact hrest hop hdeliver
  | read device pid _ hop _ => exact hrest hop ((semaphores_schedule _).trans hdeliver)
  | fork runner pid _ hop _ _ => exact hrest hop hdeliver
  | kill pid _ hop _ => exact hrest hop ((semaphores_schedule _).trans hdeliver)
  | wake t runner pid next _ hop hR2 hR3 _ hvalue hwaiting =>
    exact htouch (Event.semOp?_up hop hR2 hR3) (.handOver pid next hvalue hwaiting)
  | release t runner _ hop hR2 hR3 _ hfree =>
    exact htouch (Event.semOp?_up hop hR2 hR3) (.release hfree)
  | pass t runner _ hop hR2 hR3 _ hvalue =>
    exact htouch (Event.semOp?_down hop hR2 hR3) (.pass hvalue)
  | wait t pid _ hop hR2 hR3 hvalue hcurrent =>
    rw [hcurrent] at hinv
    rw [semaphores_schedule]
    refine htouch (Event.semOp?_down hop hR2 hR3) ?_
    change Semaphore.Move _ _ (((k.deliver e).semaphores t).enqueue pid)
    rw [hdeliver]
    exact .wait pid hvalue (running_not_mem_waiting hinv t)
  | preempt pid _ hop _ =>
    refine hrest hop ((semaphores_restartQuantum _).trans ?_)
    exact (semaphores_schedule _).trans hdeliver
  | answer device pid _ hop _ _ => exact hrest hop ((semaphores_scheduleIfIdle _).trans hdeliver)

theorem Step.semaphore_move {k k' : RoundRobin} {e : Event} (hk : k.Inv) (h : k.Step e k')
    (s : Sem) : Semaphore.Move (k.semaphores s) (e.semOp? s) (k'.semaphores s) :=
  h.effect.semaphore_move hk h.1.1 s

/-! ## Runs -/

/-- The number of UPs issued on a semaphore. -/
def ups (s : Sem) (h : List (Event × RoundRobin)) : ℕ :=
  h.countP fun step => step.1.semOp? s = some .up

/-- The number of DOWNs issued on a semaphore. -/
def downs (s : Sem) (h : List (Event × RoundRobin)) : ℕ :=
  h.countP fun step => step.1.semOp? s = some .down

theorem ups_cons (s : Sem) (e : Event) (k : RoundRobin) (h : List (Event × RoundRobin)) :
    ups s ((e, k) :: h) = ups s h + if e.semOp? s = some .up then 1 else 0 := by
  rw [ups, ups, List.countP_cons]
  simp only [decide_eq_true_eq]

theorem downs_cons (s : Sem) (e : Event) (k : RoundRobin) (h : List (Event × RoundRobin)) :
    downs s ((e, k) :: h) = downs s h + if e.semOp? s = some .down then 1 else 0 := by
  rw [downs, downs, List.countP_cons]
  simp only [decide_eq_true_eq]

/-- Along every run with few enough UPs the semaphore is balanced. -/
theorem KernelRun.balanced {h : List (Event × RoundRobin)} {k : RoundRobin} (hrun : KernelRun h k)
    (s : Sem) (hups : ups s h < 2 ^ 31 - 1) :
    (k.semaphores s).Balanced (ups s h) (downs s h) := by
  induction hrun with
  | start hk =>
    obtain ⟨pid, clock, rfl⟩ := booted_iff.mp hk
    exact ⟨show (0 : ℤ) ≤ (1#32 : Word).toInt by decide, rfl, fun hwaiting => absurd rfl hwaiting⟩
  | next hprev hstep ih =>
    rw [ups_cons] at hups
    rw [ups_cons, downs_cons]
    have hmove := hstep.semaphore_move (KernelRun.inv hprev) s
    exact hmove.balanced (ih (by omega)) hups

/-- Along every run the queues of the semaphores are in order of seniority. -/
theorem KernelRun.seniority {h : List (Event × RoundRobin)} {k : RoundRobin}
    (hrun : KernelRun h k) (s : Sem) : Seniority (fun k => (k.semaphores s).waiting) h k := by
  induction hrun with
  | start hk =>
    obtain ⟨pid, clock, rfl⟩ := booted_iff.mp hk
    exact .start rfl
  | next hprev hstep ih =>
    obtain ⟨new, hnew, hsub⟩ := (hstep.semaphore_move (KernelRun.inv hprev) s).queue
    exact ih.next hnew hsub

/-- UP hands a semaphore with value 0 to the first process that waits for it. -/
theorem Effect.wakes {k k' : RoundRobin} {e : Event} (h : Effect k e k') {s : Sem}
    (hop : e.semOp? s = some .up) (hvalue : (k.semaphores s).value = 0#32)
    (hwaiting : (k.semaphores s).waiting ≠ []) :
    ∃ pid, (k.semaphores s).waiting = pid :: (k'.semaphores s).waiting ∧
      k'.state = Function.update k.state pid .ready ∧
      k'.readyQueue = k.readyQueue ++ [pid] ∧
      (k'.semaphores s).value = 0#32 ∧
      (∀ t, t ≠ s → k'.semaphores t = k.semaphores t) ∧
      k'.requests = k.requests ∧ k'.currentPid = k.currentPid := by
  have hdeliver : (k.deliver e).semaphores = k.semaphores := Core.deliver_semaphores k.toCore e
  obtain ⟨hsem, hR2, hR3⟩ := Event.of_semOp?_up hop
  cases h with
  | quiet _ _ hnot => exact absurd hsem hnot
  | read _ _ _ hnot _ => exact absurd hsem hnot
  | fork _ _ _ hnot _ _ => exact absurd hsem hnot
  | kill _ _ hnot _ => exact absurd hsem hnot
  | wake t runner pid next hdevice _ hR2' _ _ _ hnext =>
    obtain rfl : s = t := Fin.ext (Int.ofNat.inj (hR2.symm.trans hR2'))
    refine ⟨pid, ?_, state_wake _ _, rfl, ?_, fun t ht => ?_, ?_, ?_⟩
    · rw [hnext]
      change pid :: next = pid :: (Function.update (k.deliver e).semaphores s _ s).waiting
      rw [Function.update_self]
      rfl
    · change (Function.update (k.deliver e).semaphores s _ s).value = 0#32
      rw [Function.update_self]
      exact hvalue
    · change Function.update (k.deliver e).semaphores s _ t = _
      rw [Function.update_of_ne ht, hdeliver]
    · exact Core.deliver_requests_of_none hdevice
    · exact Core.deliver_currentPid k.toCore e
  | release t runner _ _ hR2' _ _ hfree =>
    obtain rfl : s = t := Fin.ext (Int.ofNat.inj (hR2.symm.trans hR2'))
    rcases hfree with hne | hempty
    · exact absurd hvalue hne
    · exact absurd hempty hwaiting
  | pass _ _ _ _ _ hdown _ _ => exact absurd hdown hR3
  | wait _ _ _ _ _ hdown _ _ => exact absurd hdown hR3
  | preempt _ _ hnot _ => exact absurd hsem hnot
  | answer _ _ _ hnot _ _ => exact absurd hsem hnot

/-- Along every run with fewer than 2^31 - 1 UPs on a semaphore its value is what
the UPs and DOWNs leave, never negative, and 0 while processes wait; and an UP
while processes wait hands over to the one that has waited longest, which goes
to the end of the ready queue, and changes no other semaphore. -/
theorem semaphores_conserved {h : List (Event × RoundRobin)} {k : RoundRobin}
    (hrun : KernelRun h k) (s : Sem) (hups : ups s h < 2 ^ 31 - 1) :
    0 ≤ (k.semaphores s).value.toInt ∧
    (k.semaphores s).value.toInt - (k.semaphores s).waiting.length = 1 + ups s h - downs s h ∧
    ((k.semaphores s).waiting ≠ [] → (k.semaphores s).value = 0#32) ∧
    ∀ e k', k.Step e k' → e.semOp? s = some .up → (k.semaphores s).waiting ≠ [] →
      ∃ pid, (k.semaphores s).waiting = pid :: (k'.semaphores s).waiting ∧
        (∀ p ∈ (k'.semaphores s).waiting,
          waited (fun k => (k.semaphores s).waiting) h p <
            waited (fun k => (k.semaphores s).waiting) h pid) ∧
        k'.state = Function.update k.state pid .ready ∧
        k'.readyQueue = k.readyQueue ++ [pid] ∧
        (k'.semaphores s).value = 0#32 ∧
        (∀ t, t ≠ s → k'.semaphores t = k.semaphores t) ∧
        k'.requests = k.requests ∧ k'.currentPid = k.currentPid := by
  have hbalanced := hrun.balanced s hups
  refine ⟨hbalanced.nonneg, hbalanced.balance, hbalanced.blocked, ?_⟩
  intro e k' hstep hop hwaiting
  obtain ⟨pid, hqueue, hmoved⟩ := hstep.effect.wakes hop (hbalanced.blocked hwaiting) hwaiting
  refine ⟨pid, hqueue, fun p hp => ?_, hmoved⟩
  have hordered := (hrun.seniority s).order
  rw [hqueue] at hordered
  exact List.rel_of_pairwise_cons hordered hp

/-! ## The largest value -/

/-- A trap that issues UP on semaphore 0. -/
def upZero : Event :=
  { clock := 0#32, interrupt := .trap, R1 := Trap.semaphoreOp, R2 := 0, R3 := 1 }

/-- The kernel after UP on semaphore 0 while no process waits. -/
def releaseZero (k : RoundRobin) : RoundRobin :=
  ((k.deliver upZero).announceUp 0).setSemaphore 0 (k.semaphores 0).increment

theorem step_upZero {k : RoundRobin} {pid : Pid} (hhalted : k.halted = none)
    (hcurrent : k.currentPid = some pid) (hwaiting : (k.semaphores 0).waiting = []) :
    k.Step upZero k.releaseZero := by
  have hlegal : k.toCore.Legal k.state upZero := by
    refine ⟨hhalted, ?_, fun hfork => absurd hfork (by decide), fun _ => ⟨0, rfl⟩⟩
    rw [hcurrent]
    exact Option.some_ne_none _
  refine ⟨hlegal, ?_⟩
  change some ((k.deliver upZero).handleUp 0) = _
  have hsemaphores : ((k.deliver upZero).announceUp 0).semaphores = k.semaphores :=
    Core.deliver_semaphores k.toCore upZero
  rw [handleUp, hsemaphores]
  rcases (k.semaphores 0).up_cases with ⟨first, next, _, hnext, _⟩ | ⟨_, hup⟩
  · rw [hwaiting] at hnext
    cases hnext
  · rw [hup]
    rfl

theorem releaseZero_semaphores (k : RoundRobin) :
    k.releaseZero.semaphores 0 = (k.semaphores 0).increment := by
  change Function.update (k.deliver upZero).semaphores 0 (k.semaphores 0).increment 0 = _
  rw [Function.update_self]

/-- After one UP on a free semaphore its value is 2. -/
theorem semaphores_conserved_upZero :
    ((boot 0 0#32).releaseZero.semaphores 0).value.toInt = 2 := by
  have hrun : KernelRun [(upZero, (boot 0 0#32).releaseZero)] (boot 0 0#32).releaseZero :=
    .next (.start (booted_iff.mpr ⟨0, 0#32, rfl⟩)) (step_upZero rfl rfl rfl)
  have hups : ups 0 [(upZero, (boot 0 0#32).releaseZero)] = 1 := rfl
  have hdowns : downs 0 [(upZero, (boot 0 0#32).releaseZero)] = 0 := rfl
  have hbalance := (semaphores_conserved hrun 0 (by rw [hups]; decide)).2.1
  rw [hups, hdowns, releaseZero_semaphores] at hbalance
  rw [releaseZero_semaphores]
  exact (Int.sub_zero _).symm.trans hbalance

/-- After `n` UPs on semaphore 0 right after boot its value is `n + 1`. -/
theorem exists_run_ups (n : ℕ) :
    ∃ h k, KernelRun h k ∧ h.map Prod.fst = List.replicate n upZero ∧ k.halted = none ∧
      k.currentPid = some 0 ∧ (k.semaphores 0).waiting = [] ∧
      (k.semaphores 0).value = BitVec.ofNat 32 (n + 1) := by
  induction n with
  | zero =>
    exact ⟨[], boot 0 0#32, .start (booted_iff.mpr ⟨0, 0#32, rfl⟩), rfl, rfl, rfl, rfl, rfl⟩
  | succ n ih =>
    obtain ⟨h, k, hrun, hevents, hhalted, hcurrent, hwaiting, hvalue⟩ := ih
    refine ⟨(upZero, k.releaseZero) :: h, k.releaseZero,
      .next hrun (step_upZero hhalted hcurrent hwaiting), ?_, ?_, ?_, ?_, ?_⟩
    · rw [List.map_cons, hevents]
      rfl
    · exact (Core.deliver_halted k.toCore upZero).trans hhalted
    · exact (Core.deliver_currentPid k.toCore upZero).trans hcurrent
    · rw [releaseZero_semaphores, Semaphore.waiting_increment, hwaiting]
    · rw [releaseZero_semaphores, Semaphore.increment, hvalue, ← BitVec.ofNat_add]

/-- The UP that comes after 2^31 - 2 others makes the value negative. -/
theorem semaphore_overflow :
    ∃ h k, KernelRun h k ∧ h.map Prod.fst = List.replicate (2 ^ 31 - 1) upZero ∧
      ups 0 h < 2 ^ 31 ∧ (k.semaphores 0).value.toInt < 0 := by
  obtain ⟨h, k, hrun, hevents, _, _, _, hvalue⟩ := exists_run_ups (2 ^ 31 - 1)
  refine ⟨h, k, hrun, hevents, ?_, ?_⟩
  · have hlength : h.length = 2 ^ 31 - 1 := by
      rw [← List.length_map Prod.fst, hevents, List.length_replicate]
    have hups : ups 0 h ≤ h.length := List.countP_le_length
    omega
  · rw [hvalue]
    decide

end RoundRobin

end SimOS
