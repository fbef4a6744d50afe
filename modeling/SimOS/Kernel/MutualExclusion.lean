import SimOS.Kernel.MultilevelTraps
import SimOS.Kernel.Semaphores
import SimOS.Library.Fifo

/-!
# Mutual exclusion in the multilevel kernel

Who is inside a semaphore is read off the history: a process enters when its
DOWN succeeds, or when an UP makes it ready after its DOWN has blocked it, and
leaves at its next UP. As long as every process goes in before it comes out, an
UP on a semaphore with value 0 hands it over: the value stays 0 and the process
that has waited longest is inside before it runs.
-/

namespace SimOS

open Library

namespace Multilevel

/-! ## What an event does to a semaphore -/

/-- What can happen to a semaphore at an event, with the process that runs and
what becomes of the states of the processes. -/
inductive SemaphoreStep (s : Sem) (k : Multilevel) (e : Event) (k' : Multilevel) : Prop
  | rest (hop : e.semOp? s = none) (hsem : k'.semaphores s = k.semaphores s)
  | handOver (runner pid : Pid) (next : List Pid) (hop : e.semOp? s = some .up)
      (hcurrent : k.currentPid = some runner) (hvalue : (k.semaphores s).value = 0#32)
      (hwaiting : (k.semaphores s).waiting = pid :: next)
      (hsem : k'.semaphores s = { k.semaphores s with readyQueue := some next })
      (hstate : k'.state = Function.update k.state pid .ready)
  | release (runner : Pid) (hop : e.semOp? s = some .up) (hcurrent : k.currentPid = some runner)
      (hfree : (k.semaphores s).value ≠ 0#32 ∨ (k.semaphores s).waiting = [])
      (hsem : k'.semaphores s = (k.semaphores s).increment) (hstate : k'.state = k.state)
  | pass (runner : Pid) (hop : e.semOp? s = some .down) (hcurrent : k.currentPid = some runner)
      (hvalue : (k.semaphores s).value ≠ 0#32)
      (hsem : k'.semaphores s = (k.semaphores s).decrement) (hstate : k'.state = k.state)
  | wait (pid : Pid) (hop : e.semOp? s = some .down) (hcurrent : k.currentPid = some pid)
      (hvalue : (k.semaphores s).value = 0#32)
      (hsem : k'.semaphores s = (k.semaphores s).enqueue pid) (hblocked : k'.state pid = .blocked)

theorem semaphores_schedule (k : Multilevel) (queueNum : Fin 5) :
    (k.schedule queueNum).semaphores = k.semaphores := by
  fun_induction schedule k queueNum with
  | case1 => rfl
  | case2 => rfl
  | case3 k queueNum _ _ _ _ ih => exact ih
  | case4 => rfl
  | case5 k queueNum _ pid next _ _ ih => exact ih
  | case6 => rfl

theorem semaphores_restartQuantum (k : Multilevel) :
    k.restartQuantum.semaphores = k.semaphores := by
  rw [restartQuantum]
  split <;> rfl

theorem semaphores_scheduleIfIdle (k : Multilevel) :
    k.scheduleIfIdle.semaphores = k.semaphores := by
  rw [scheduleIfIdle]
  split
  · exact semaphores_schedule _ _
  · rfl

/-- `schedule` runs no process that is blocked. -/
theorem Vacant.schedule_blocked {k : Multilevel} (hk : k.Vacant) {pid : Pid}
    (hblocked : k.state pid = .blocked) :
    (k.schedule 4).state pid = .blocked := by
  have hcase := hk.scheduleCase
  generalize k.schedule 4 = k' at hcase
  cases hcase with
  | runs level p next _ _ hqueue _ =>
    have hready : k.state p = .ready := Core.state_ready hk.census hqueue
    have hne : pid ≠ p := by
      rintro rfl
      exact ProcessState.noConfusion (hready.symm.trans hblocked)
    show (k.setState p .running).state pid = .blocked
    rw [state_setState, Function.update_of_ne hne]
    exact hblocked
  | _ => exact hblocked

section Events

variable {k k' : Multilevel} {e : Event} {s : Sem}

/-- An operation on one semaphore does not touch the others. -/
theorem SemaphoreStep.touch (t : Sem) (sem : Semaphore) {op : SemOp}
    (hop : e.semOp? s = if s = t then some op else none)
    (hsem : k'.semaphores = Function.update k.semaphores t sem)
    (hmove : s = t → e.semOp? s = some op → k'.semaphores s = sem → SemaphoreStep s k e k') :
    SemaphoreStep s k e k' := by
  by_cases hs : s = t
  · refine hmove hs (by rw [hop, if_pos hs]) ?_
    rw [hsem, hs, Function.update_self]
  · refine .rest (by rw [hop, if_neg hs]) ?_
    rw [hsem, Function.update_of_ne hs]

/-- Every event is a step of every semaphore. -/
theorem Effect.semaphoreStep (hk : k.Inv) (hhalted : k.halted = none) (h : Effect k e k')
    (s : Sem) : SemaphoreStep s k e k' := by
  have hdeliver : (k.toCore.deliver e).semaphores = k.semaphores := Core.deliver_semaphores _ _
  have hrest : ∀ {k' : Multilevel}, ¬e.IsSemaphoreOp → k'.semaphores = k.semaphores →
      SemaphoreStep s k e k' :=
    fun hop hsame => .rest (Event.semOp?_of_not hop) (congrFun hsame s)
  cases h with
  | quiet messages _ hop => exact hrest hop hdeliver
  | read device pid _ hop _ =>
    refine hrest hop ((semaphores_schedule _ _).trans ?_)
    rw [toCore_issueRead]
    exact hdeliver
  | fork runner pid level _ hop => exact hrest hop hdeliver
  | kill pid _ hop _ => exact hrest hop ((semaphores_schedule _ _).trans hdeliver)
  | wake t runner pid next level _ hop hR2 hR3 hcurrent hvalue hwaiting _ =>
    refine .touch t { k.semaphores t with readyQueue := some next } (Event.semOp?_up hop hR2 hR3)
      ?_ ?_
    · rw [← hdeliver]
      rfl
    · rintro rfl hup hsem
      exact .handOver runner pid next hup hcurrent hvalue hwaiting hsem (state_setState _ _ _)
  | release t runner _ hop hR2 hR3 hcurrent hfree =>
    refine .touch t (k.semaphores t).increment (Event.semOp?_up hop hR2 hR3) ?_ ?_
    · rw [← hdeliver]
      rfl
    · rintro rfl hup hsem
      exact .release runner hup hcurrent hfree hsem rfl
  | pass t runner _ hop hR2 hR3 hcurrent hvalue =>
    refine .touch t (k.semaphores t).decrement (Event.semOp?_down hop hR2 hR3) ?_ ?_
    · rw [← hdeliver]
      rfl
    · rintro rfl hdown hsem
      exact .pass runner hdown hcurrent hvalue hsem rfl
  | wait t pid hdevice hop hR2 hR3 hvalue hcurrent =>
    have hvacant := hk.vacant_waitFor hhalted hdevice hcurrent t
    refine .touch t ((k.semaphores t).enqueue pid) (Event.semOp?_down hop hR2 hR3) ?_ ?_
    · rw [semaphores_schedule, toCore_waitFor, ← hdeliver]
      rfl
    · rintro rfl hdown hsem
      refine .wait pid hdown hcurrent hvalue hsem (hvacant.schedule_blocked ?_)
      rw [state_waitFor, Function.update_self]
  | preempt pid level _ hop _ _ =>
    refine hrest hop ((semaphores_restartQuantum _).trans ((semaphores_schedule _ _).trans ?_))
    show ((k.deliver e).preempt pid).semaphores = k.semaphores
    rw [toCore_preempt]
    exact hdeliver
  | answer device pid level _ hop _ _ _ =>
    exact hrest hop ((semaphores_scheduleIfIdle _).trans hdeliver)

theorem Step.semaphoreStep (hk : k.Inv) (h : k.Step e k') (s : Sem) : SemaphoreStep s k e k' := by
  obtain ⟨k₁, hk₁, heffect⟩ := interrupt_effect hk.ranged h.1
  rw [h.2, Option.some.injEq] at hk₁
  rw [hk₁]
  exact heffect.semaphoreStep hk h.1.1 s

end Events

/-! ## Who is inside -/

section History

variable (s : Sem) (k₀ : Multilevel)

/-- The process is inside the semaphore: its DOWN has succeeded, or an UP has
made it ready again, and it has issued no UP since. A new process is outside. -/
def Inside (p : Pid) : List (Event × Multilevel) → Prop
  | [] => False
  | (e, k') :: h =>
    if e.Forks p then False
    else
      match e.semOp? s with
      | none => Inside p h
      | some .down =>
        if (reached k₀ h).currentPid = some p then k'.state p ≠ .blocked else Inside p h
      | some .up =>
        if (reached k₀ h).currentPid = some p then False
        else ((reached k₀ h).state p = .blocked ∧ k'.state p = .ready) ∨ Inside p h

instance decidableInside (p : Pid) : ∀ h, Decidable (Inside s k₀ p h)
  | [] => isFalse id
  | (e, k') :: h =>
    have := decidableInside p h
    match hop : e.semOp? s with
    | none => decidable_of_iff (¬e.Forks p ∧ Inside s k₀ p h) (by simp [Inside, hop])
    | some .down =>
      decidable_of_iff (¬e.Forks p ∧
        if (reached k₀ h).currentPid = some p then k'.state p ≠ .blocked else Inside s k₀ p h)
        (by simp [Inside, hop])
    | some .up =>
      decidable_of_iff (¬e.Forks p ∧ (reached k₀ h).currentPid ≠ some p ∧
        (((reached k₀ h).state p = .blocked ∧ k'.state p = .ready) ∨ Inside s k₀ p h))
        (by simp [Inside, hop])

/-- The processes that blocked on the semaphore, in this order. -/
def blockedOn : List (Event × Multilevel) → List Pid
  | [] => []
  | (e, k') :: h =>
    blockedOn h ++
      if e.semOp? s = some .down then
        (reached k₀ h).currentPid.toList.filter fun p => k'.state p = .blocked
      else []

/-- The processes that blocked and were made ready by an UP, in this order. -/
def admitted : List (Event × Multilevel) → List Pid
  | [] => []
  | (e, k') :: h =>
    admitted h ++
      if e.semOp? s = some .up then
        (List.finRange 20).filter fun p => (reached k₀ h).state p = .blocked ∧ k'.state p = .ready
      else []

/-- The current process issues UP only while inside the semaphore, and DOWN only
while outside. -/
def Disciplined (h : List (Event × Multilevel)) (k : Multilevel) (e : Event) : Prop :=
  ∀ p, k.currentPid = some p →
    (e.semOp? s = some .up → Inside s k₀ p h) ∧ (e.semOp? s = some .down → ¬Inside s k₀ p h)

instance (h : List (Event × Multilevel)) (k : Multilevel) (e : Event) :
    Decidable (Disciplined s k₀ h k e) :=
  inferInstanceAs (Decidable (∀ p, k.currentPid = some p →
    (e.semOp? s = some .up → Inside s k₀ p h) ∧ (e.semOp? s = some .down → ¬Inside s k₀ p h)))

/-- A run in which all processes keep to the discipline. -/
def DisciplinedRun : List (Event × Multilevel) → Multilevel → Prop :=
  Run (· = k₀) fun h k e k' => k.Step e k' ∧ Disciplined s k₀ h k e

end History

/-- The semaphore is free, or one process at most is inside it. -/
inductive Guarded (s : Sem) (k₀ : Multilevel) (h : List (Event × Multilevel)) (k : Multilevel) :
    Prop
  | free (hvalue : (k.semaphores s).value = 1#32) (hwaiting : (k.semaphores s).waiting = [])
      (houtside : ∀ p, ¬Inside s k₀ p h)
  | taken (hvalue : (k.semaphores s).value = 0#32)
      (hone : ∀ p q, Inside s k₀ p h → Inside s k₀ q h → p = q)

section Steps

variable {s : Sem} {k₀ k k' : Multilevel} {h : List (Event × Multilevel)} {e : Event}

theorem Guarded.value_ne_zero (hg : Guarded s k₀ h k) (hne : (k.semaphores s).value ≠ 0#32) :
    (k.semaphores s).value = 1#32 ∧ (k.semaphores s).waiting = [] ∧ ∀ p, ¬Inside s k₀ p h := by
  cases hg with
  | free hvalue hwaiting houtside => exact ⟨hvalue, hwaiting, houtside⟩
  | taken hvalue _ => exact absurd hvalue hne

theorem Guarded.of_inside (hg : Guarded s k₀ h k) {p : Pid} (hp : Inside s k₀ p h) :
    (k.semaphores s).value = 0#32 ∧ ∀ q, Inside s k₀ q h → q = p := by
  cases hg with
  | free _ _ houtside => exact absurd hp (houtside p)
  | taken hvalue hone => exact ⟨hvalue, fun q hq => hone q p hq hp⟩

theorem inside_rest (hop : e.semOp? s = none) {p : Pid} (hp : Inside s k₀ p ((e, k') :: h)) :
    Inside s k₀ p h := by
  rw [Inside, hop] at hp
  by_cases hforks : e.Forks p
  · rw [if_pos hforks] at hp
    exact hp.elim
  · rw [if_neg hforks] at hp
    exact hp

theorem semOp?_not_forks {op : SemOp} (hop : e.semOp? s = some op) (p : Pid) : ¬e.Forks p := by
  intro hforks
  have hnot : ¬e.IsSemaphoreOp := fun hsem => hsem.not_forks p hforks
  rw [Event.semOp?_of_not hnot] at hop
  cases hop

/-- The current process comes out at an UP. -/
theorem inside_up (hreached : reached k₀ h = k) (hop : e.semOp? s = some .up) {p : Pid} :
    Inside s k₀ p ((e, k') :: h) ↔ k.currentPid ≠ some p ∧
      ((k.state p = .blocked ∧ k'.state p = .ready) ∨ Inside s k₀ p h) := by
  rw [Inside, if_neg (semOp?_not_forks hop p), hop, hreached]
  show (if k.currentPid = some p then False else _) ↔ _
  by_cases hp : k.currentPid = some p
  · rw [if_pos hp]
    exact iff_of_false id fun h => h.1 hp
  · rw [if_neg hp]
    exact (and_iff_right hp).symm

/-- Once the process inside has issued UP, only one that was woken is inside. -/
theorem Guarded.woken (hreached : reached k₀ h = k) (hg : Guarded s k₀ h k)
    (hop : e.semOp? s = some .up) {runner p : Pid} (hcurrent : k.currentPid = some runner)
    (hin : Inside s k₀ runner h) (hp : Inside s k₀ p ((e, k') :: h)) :
    k.state p = .blocked ∧ k'.state p = .ready := by
  obtain ⟨hne, hwoken | hold⟩ := (inside_up hreached hop).mp hp
  · exact hwoken
  · rw [(hg.of_inside hin).2 p hold] at hne
    exact absurd hcurrent hne

theorem inside_down (hreached : reached k₀ h = k) (hop : e.semOp? s = some .down) {p : Pid} :
    Inside s k₀ p ((e, k') :: h) ↔
      if k.currentPid = some p then k'.state p ≠ .blocked else Inside s k₀ p h := by
  rw [Inside, if_neg (semOp?_not_forks hop p), hop, hreached]

/-- Every step taken with discipline keeps the semaphore guarded. -/
theorem SemaphoreStep.guarded (hreached : reached k₀ h = k)
    (hstep : SemaphoreStep s k e k') (hdisciplined : Disciplined s k₀ h k e)
    (hg : Guarded s k₀ h k) : Guarded s k₀ ((e, k') :: h) k' := by
  cases hstep with
  | rest hop hsem =>
    cases hg with
    | free hvalue hwaiting houtside =>
      exact .free (by rw [hsem, hvalue]) (by rw [hsem, hwaiting]) fun p hp =>
        houtside p (inside_rest hop hp)
    | taken hvalue hone =>
      exact .taken (by rw [hsem, hvalue]) fun p q hp hq =>
        hone p q (inside_rest hop hp) (inside_rest hop hq)
  | handOver runner pid next hop hcurrent hvalue hwaiting hsem hstate =>
    -- the runner comes out, and only the process that was handed the semaphore is inside
    have hin := (hdisciplined runner hcurrent).1 hop
    have honly : ∀ p, Inside s k₀ p ((e, k') :: h) → p = pid := by
      intro p hp
      obtain ⟨hblocked, hready⟩ := hg.woken hreached hop hcurrent hin hp
      by_contra hpid
      rw [hstate, Function.update_of_ne hpid, hblocked] at hready
      exact ProcessState.noConfusion hready
    exact .taken (by rw [hsem, ← hvalue]) fun p q hp hq => (honly p hp).trans (honly q hq).symm
  | release runner hop hcurrent hfree hsem hstate =>
    have hin := (hdisciplined runner hcurrent).1 hop
    obtain ⟨hzero, _⟩ := hg.of_inside hin
    refine .free ?_ ?_ fun p hp => ?_
    · rw [hsem, Semaphore.increment, hzero]
      rfl
    · rw [hsem, Semaphore.waiting_increment]
      exact hfree.resolve_left fun hne => hne hzero
    · obtain ⟨hblocked, hready⟩ := hg.woken hreached hop hcurrent hin hp
      rw [hstate, hblocked] at hready
      exact ProcessState.noConfusion hready
  | pass runner hop hcurrent hvalue hsem hstate =>
    obtain ⟨hone, _, houtside⟩ := hg.value_ne_zero hvalue
    have honly : ∀ p, Inside s k₀ p ((e, k') :: h) → p = runner := by
      intro p hp
      rw [inside_down hreached hop] at hp
      split_ifs at hp with hp'
      · exact Option.some.inj (hp'.symm.trans hcurrent)
      · exact absurd hp (houtside p)
    refine .taken ?_ fun p q hp hq => (honly p hp).trans (honly q hq).symm
    rw [hsem, Semaphore.decrement, hone]
    rfl
  | wait pid hop hcurrent hvalue hsem hblocked =>
    -- nobody comes in, and the semaphore was not free
    have hold : ∀ p, Inside s k₀ p ((e, k') :: h) → Inside s k₀ p h := by
      intro p hp
      rw [inside_down hreached hop] at hp
      split_ifs at hp with hp'
      · obtain rfl := Option.some.inj (hp'.symm.trans hcurrent)
        exact absurd hblocked hp
      · exact hp
    cases hg with
    | free hone _ _ =>
      rw [hone] at hvalue
      exact absurd hvalue (by decide)
    | taken _ hone =>
      exact .taken (by rw [hsem]; exact hvalue) fun p q hp hq => hone p q (hold p hp) (hold q hq)

/-- Only the process that UP takes off the queue is made ready by it. -/
theorem filter_handOver {pid : Pid} (hblocked : k.state pid = .blocked)
    (hstate : k'.state = Function.update k.state pid .ready) :
    ((List.finRange 20).filter fun p => k.state p = .blocked ∧ k'.state p = .ready) = [pid] := by
  have hpred : (fun p => decide (k.state p = .blocked ∧ k'.state p = .ready)) =
      fun p => decide (p = pid) := by
    funext p
    refine decide_eq_decide.mpr ⟨fun ⟨hb, hr⟩ => ?_, fun hp => ?_⟩
    · by_contra hne
      rw [hstate, Function.update_of_ne hne, hb] at hr
      exact ProcessState.noConfusion hr
    · rw [hp, hstate, Function.update_self]
      exact ⟨hblocked, rfl⟩
  rw [hpred, List.filter_eq, List.count_eq_one_of_mem (List.nodup_finRange 20)
    (List.mem_finRange pid)]
  rfl

theorem filter_same (hstate : k'.state = k.state) :
    ((List.finRange 20).filter fun p => k.state p = .blocked ∧ k'.state p = .ready) = [] := by
  apply List.filter_eq_nil_iff.mpr
  intro p _ hp
  rw [decide_eq_true_eq, hstate] at hp
  exact ProcessState.noConfusion (hp.1.symm.trans hp.2)

/-- Every step keeps the order: who blocks joins the queue of the semaphore at its
end, and who is admitted leaves it from the front. -/
theorem SemaphoreStep.fifo (hk : k.Inv) (hhalted : k.halted = none) (hreached : reached k₀ h = k)
    (hstep : SemaphoreStep s k e k')
    (hfifo : Fifo (blockedOn s k₀ h) (admitted s k₀ h) (k.semaphores s).waiting) :
    Fifo (blockedOn s k₀ ((e, k') :: h)) (admitted s k₀ ((e, k') :: h))
      (k'.semaphores s).waiting := by
  rw [blockedOn, admitted, hreached]
  cases hstep with
  | rest hop hsem =>
    rw [hop, if_neg (by decide), if_neg (by decide), List.append_nil, List.append_nil, hsem]
    exact hfifo
  | handOver runner pid next hop hcurrent _ hwaiting hsem hstate =>
    have hblocked : k.state pid = .blocked := Core.state_waiting (hk.census hhalted) hwaiting
    rw [hop, if_neg (by decide), if_pos rfl, List.append_nil, filter_handOver hblocked hstate, hsem]
    exact hfifo.dequeue hwaiting
  | release runner hop _ _ hsem hstate =>
    rw [hop, if_neg (by decide), if_pos rfl, List.append_nil, filter_same hstate, List.append_nil,
      hsem]
    exact hfifo
  | pass runner hop hcurrent _ hsem hstate =>
    have hnobody : ([runner].filter fun p => k'.state p = .blocked) = [] := by
      apply List.filter_eq_nil_iff.mpr
      intro p hp
      rw [List.mem_singleton.mp hp, hstate, Core.state_running (hk.census hhalted) hcurrent]
      decide
    rw [hop, if_pos rfl, if_neg (by decide), hcurrent, Option.toList_some, hnobody,
      List.append_nil, List.append_nil, hsem]
    exact hfifo
  | wait pid hop hcurrent _ hsem hblocked =>
    have hitself : ([pid].filter fun p => k'.state p = .blocked) = [pid] := by
      apply List.filter_eq_self.mpr
      intro p hp
      rw [List.mem_singleton.mp hp]
      exact decide_eq_true hblocked
    rw [hop, if_pos rfl, if_neg (by decide), hcurrent, Option.toList_some, hitself,
      List.append_nil, hsem]
    exact hfifo.enqueue pid

end Steps

/-! ## Runs -/

theorem DisciplinedRun.kernelRun {s : Sem} {k₀ k : Multilevel} {h : List (Event × Multilevel)}
    (hboot : k₀.Booted) (hrun : DisciplinedRun s k₀ h k) : KernelRun h k :=
  Run.mono (fun _ hk => by rw [hk]; exact hboot) (fun _ _ _ _ hstep => hstep.1) hrun

/-- Along every disciplined run the semaphore is guarded, and its queue is first
in, first out. -/
theorem DisciplinedRun.invariant {s : Sem} {k₀ k : Multilevel} {h : List (Event × Multilevel)}
    (hboot : k₀.Booted) (hrun : DisciplinedRun s k₀ h k) :
    Guarded s k₀ h k ∧
      Fifo (blockedOn s k₀ h) (admitted s k₀ h) (k.semaphores s).waiting := by
  refine Run.invariant (P := fun h k => Guarded s k₀ h k ∧
    Fifo (blockedOn s k₀ h) (admitted s k₀ h) (k.semaphores s).waiting) ?_ ?_ hrun
  · rintro _ rfl
    obtain ⟨pid, clock, rfl⟩ := booted_iff.mp hboot
    exact ⟨.free rfl rfl fun _ => id, Fifo.start []⟩
  · intro h k e k' hrun ⟨hguarded, hfifo⟩ hstep
    have hk := (DisciplinedRun.kernelRun hboot hrun).inv
    have hsemaphore := hstep.1.semaphoreStep hk s
    exact ⟨hsemaphore.guarded hrun.reached_eq hstep.2 hguarded,
      hsemaphore.fifo hk hstep.1.1.1 hrun.reached_eq hfifo⟩

/-- Mutual exclusion with first-come first-served entry. In every run in which
the processes issue UP on a semaphore only inside it and DOWN only outside of it,
one process at most is inside, the value is 0 or 1, and 0 while a process is
inside; and those who blocked on the semaphore are those who were admitted
afterwards and those who still wait, in the order in which they blocked. -/
theorem mutual_exclusion {s : Sem} {k₀ k : Multilevel} {h : List (Event × Multilevel)}
    (hboot : k₀.Booted) (hrun : DisciplinedRun s k₀ h k) :
    (∀ p q, Inside s k₀ p h → Inside s k₀ q h → p = q) ∧
    ((k.semaphores s).value = 0#32 ∨ (k.semaphores s).value = 1#32) ∧
    (∀ p, Inside s k₀ p h → (k.semaphores s).value = 0#32) ∧
    blockedOn s k₀ h = admitted s k₀ h ++ (k.semaphores s).waiting := by
  obtain ⟨hguarded, hfifo⟩ := hrun.invariant hboot
  refine ⟨fun p q hp hq => ?_, ?_, fun p hp => (hguarded.of_inside hp).1, hfifo⟩
  · exact (hguarded.of_inside hq).2 p hp
  · cases hguarded with
    | free hvalue _ _ => exact .inr hvalue
    | taken hvalue _ => exact .inl hvalue

section HandOver

variable (s : Sem) (holder other : Pid) (level level' : Fin 5)

/-- `holder` is inside the semaphore when the clock preempts it, and `other` runs. -/
def contended : Multilevel :=
  (((boot holder 0#32).enteredAt s 1#32).forkedAt other level 2#32).preemptedAt holder level level
    other [holder] 40#32

/-- `other` blocks on the semaphore. -/
def lockedOut : Multilevel :=
  (contended s holder other level).waitedAt s other level holder [] 41#32

/-- `holder` lets `other` in. -/
def handedOver : Multilevel := (lockedOut s holder other level).handedAt s other [] level' 42#32

def handOverHistory : List (Event × Multilevel) :=
  [(.upAt s 42#32, handedOver s holder other level level'),
    (.downAt s 41#32, lockedOut s holder other level),
    (.clockAt 40#32, contended s holder other level),
    (.forkAt other 2#32, ((boot holder 0#32).enteredAt s 1#32).forkedAt other level 2#32),
    (.downAt s 1#32, (boot holder 0#32).enteredAt s 1#32)]

end HandOver

/-- Process 0 is preempted inside semaphore 0, process 1 blocks on it and is let in: it is the
one inside at the end, the value is 0, and those who blocked were admitted. -/
theorem mutual_exclusion_handed :
    DisciplinedRun 0 (boot 0 0#32) (handOverHistory 0 0 1 0 1) (handedOver 0 0 1 0 1) ∧
    (∀ p, Inside 0 (boot 0 0#32) p (handOverHistory 0 0 1 0 1) ↔ p = 1) ∧
    ((handedOver 0 0 1 0 1).semaphores 0).value = 0#32 ∧
    blockedOn 0 (boot 0 0#32) (handOverHistory 0 0 1 0 1) = [1] ∧
    admitted 0 (boot 0 0#32) (handOverHistory 0 0 1 0 1) ++
      ((handedOver 0 0 1 0 1).semaphores 0).waiting = [1] := by
  have hrun : DisciplinedRun 0 (boot 0 0#32) (handOverHistory 0 0 1 0 1)
      (handedOver 0 0 1 0 1) := by
    refine .next (.next (.next (.next (.next (.start rfl) ⟨?_, ?_⟩) ⟨?_, ?_⟩) ⟨?_, ?_⟩)
      ⟨?_, ?_⟩) ⟨?_, ?_⟩
    · exact step_enteredAt rfl rfl (by decide)
    · decide
    · exact step_forkAt _ rfl (Option.some_ne_none 0) rfl rfl
    · decide
    · exact step_preemptedAt rfl rfl (by decide) rfl (by decide) rfl (by decide) (by decide)
    · decide
    · exact step_waitedAt rfl rfl rfl (by decide) rfl (by decide) (by decide) (by decide)
    · decide
    · exact step_handedAt rfl rfl rfl rfl rfl
    · decide
  obtain ⟨hone, _, hzero, horder⟩ := mutual_exclusion (booted_iff.mpr ⟨0, 0#32, rfl⟩) hrun
  have hinside : Inside 0 (boot 0 0#32) 1 (handOverHistory 0 0 1 0 1) := by decide
  have hblocked : blockedOn 0 (boot 0 0#32) (handOverHistory 0 0 1 0 1) = [1] := by decide
  exact ⟨hrun, fun p => ⟨fun hp => hone p 1 hp hinside, fun hp => hp ▸ hinside⟩, hzero 1 hinside,
    hblocked, horder.symm.trans hblocked⟩

end Multilevel

end SimOS
