import SimOS.Kernel.Priorities
import SimOS.Kernel.BoundedWaiting

/-!
# Waiting in the multilevel kernel

A ready process may wait for ever, but not for everybody. While it is in the queue
of its priority, whoever is dispatched has at least this priority, and those who
have the same one were ahead of it, and run in order. With a clock interrupt every
10 ms nobody is current for 50 ms, so the wait is bounded by the place in the queue
and the number of times a process of a higher priority is dispatched.
-/

namespace SimOS

open Library

/-! ## How long a process is current -/

namespace Core

/-- The clock does not go back, and it does not advance past a multiple of the
period before a clock interrupt was handled at that time. -/
def Timed (c₀ : Core) (past : List Event) (c : Core) (e : Event) : Prop :=
  c.clock.toNat ≤ e.clock.toNat ∧
    ∀ tick, clockInterruptPeriod ∣ tick → c₀.clock.toNat < tick → tick < e.clock.toNat →
      ∃ earlier ∈ past, earlier.interrupt = .clockInterrupt ∧ earlier.clock.toNat = tick

/-- A clock interrupt dispatches somebody once the quantum is over. -/
def Preemptive (c : Core) (e : Event) (c' : Core) : Prop :=
  e.interrupt = .clockInterrupt → c.currentPid ≠ none → c'.dispatched = [] →
    ¬quantum ≤ e.clock - c.currentQuantumStartTime

/-- While a process is current, the clock interrupts handled so far came before its
quantum was over. -/
structure OnTime (c₀ : Core) (past : List Event) (c : Core) : Prop where
  boot : c₀.clock.toNat ≤ c.currentQuantumStartTime.toNat
  start : c.currentQuantumStartTime.toNat ≤ c.clock.toNat
  handled : ∀ e ∈ past, e.clock.toNat ≤ c.clock.toNat
  early : c.currentPid ≠ none → ∀ e ∈ past, e.interrupt = .clockInterrupt →
    e.clock.toNat < c.currentQuantumStartTime.toNat + 40
  slice : c.currentPid ≠ none → c.clock.toNat < c.currentQuantumStartTime.toNat + 50

section OnTime

variable {c₀ c c' : Core} {past : List Event} {e : Event}

/-- The next event comes less than 50 ms after the start of the quantum: there
was a multiple of the period when the quantum was over. -/
theorem OnTime.next_clock (hc : OnTime c₀ past c) (htimed : Timed c₀ past c e)
    (hbusy : c.currentPid ≠ none) : e.clock.toNat < c.currentQuantumStartTime.toNat + 50 := by
  by_contra hlate
  have hboot := hc.boot
  obtain ⟨earlier, hearlier, hclock, htick⟩ :=
    htimed.2 (10 * ((c.currentQuantumStartTime.toNat + 49) / 10)) (dvd_mul_right 10 _)
      (by omega) (by omega)
  have hearly := hc.early hbusy earlier hearlier hclock
  omega

theorem OnTime.next (hc : OnTime c₀ past c) (htimed : Timed c₀ past c e) (hturn : c.Turn e c')
    (hpreemptive : c.Preemptive e c') : OnTime c₀ (e :: past) c' := by
  have hboot := hc.boot
  have hstart := hc.start
  have hadvance := htimed.1
  have hpast : c'.clock = e.clock → ∀ x ∈ e :: past, x.clock.toNat ≤ c'.clock.toNat := by
    intro hclock x hx
    rw [hclock]
    rcases List.mem_cons.mp hx with rfl | hearlier
    · exact le_refl _
    · exact (hc.handled x hearlier).trans hadvance
  cases hturn with
  | goesOn hclock hcurrent hsame hdispatched =>
    refine ⟨by rw [hsame]; exact hboot, ?_, hpast hclock, fun hbusy => ?_, fun hbusy => ?_⟩
    · rw [hsame, hclock]
      omega
    · rw [hcurrent] at hbusy
      intro x hx hinterrupt
      rw [hsame]
      rcases List.mem_cons.mp hx with rfl | hearlier
      · exact RoundRobin.lt_of_not_due (hstart.trans hadvance)
          (hpreemptive hinterrupt hbusy hdispatched)
      · exact hc.early hbusy x hearlier hinterrupt
    · rw [hcurrent] at hbusy
      rw [hsame, hclock]
      exact hc.next_clock htimed hbusy
  | ended hclock hnow _ =>
    refine ⟨by rw [hnow]; omega, by rw [hnow, hclock], hpast hclock, fun _ x hx _ => ?_,
      fun _ => ?_⟩
    · have hle := hpast hclock x hx
      rw [hclock] at hle
      rw [hnow]
      omega
    · rw [hnow, hclock]
      omega

end OnTime

end Core

namespace Multilevel

/-- A run in which the clock interrupts come in time. -/
def TimedRun (k₀ : Multilevel) : List (Event × Multilevel) → Multilevel → Prop :=
  Run (· = k₀) fun h k e k' =>
    k.Step e k' ∧ Core.Timed k₀.toCore (h.map Prod.fst) k.toCore e

theorem TimedRun.runFrom {k₀ k : Multilevel} {h : List (Event × Multilevel)}
    (hrun : TimedRun k₀ h k) : RunFrom k₀ h k :=
  Run.mono (fun _ => id) (fun _ _ _ _ hstep => hstep.1) hrun

/-- `schedule` dispatches somebody when somebody is ready. -/
theorem Vacant.schedule_dispatched {k : Multilevel} (hk : k.Vacant) (level : Fin 5)
    (hne : k.readyQueues level ≠ []) : (k.schedule 4).toCore.dispatched ≠ [] := by
  obtain ⟨pid, hpid⟩ := List.exists_mem_of_ne_nil _ hne
  have hcase := hk.scheduleCase
  generalize k.schedule 4 = k' at hcase
  cases hcase with
  | finished hactive => exact absurd hactive (hk.census.active_ne_zero (.ready level) hpid)
  | deadlocked _ hempty _ => exact absurd (hempty level (Fin.le_last level)) hne
  | idle _ hempty _ => exact absurd (hempty level (Fin.le_last level)) hne
  | runs l p next _ _ _ _ =>
    change (k.toCore.print (.runs k.clock p)).dispatched ≠ []
    rw [Core.dispatched_print_runs]
    exact List.concat_ne_nil _ _

theorem dispatched_restartQuantum (k : Multilevel) :
    k.restartQuantum.toCore.dispatched = k.toCore.dispatched := by
  rw [restartQuantum]
  split <;> rfl

theorem Step.preemptive {k k' : Multilevel} {e : Event} (hk : k.Inv) (h : k.Step e k') :
    k.toCore.Preemptive e k'.toCore := by
  intro hclock hbusy hdispatched hover
  obtain ⟨pid, hpid⟩ := Option.ne_none_iff_exists'.mp hbusy
  have hhandled := h.2
  rw [interrupt, hclock] at hhandled
  change (k.deliver e).handleClockInterrupt = some k' at hhandled
  have hcurrent : (k.deliver e).currentPid = some pid :=
    (Core.deliver_currentPid k.toCore e).trans hpid
  rw [handleClockInterrupt, hcurrent] at hhandled
  dsimp only at hhandled
  rw [elapsed_deliver, if_pos hover] at hhandled
  obtain ⟨k₁, hready, rfl⟩ := Option.map_eq_some_iff.mp hhandled
  obtain ⟨level, hlevel, rfl⟩ := Option.map_eq_some_iff.mp hready
  have hdevice : e.interrupt.device? = none := by
    rw [hclock]
    rfl
  have hvacant := hk.vacant_preempt h.1.1 hdevice hpid (index?_eq_some hlevel)
  rw [dispatched_restartQuantum] at hdispatched
  refine hvacant.schedule_dispatched level ?_ hdispatched
  change Core.enqueueReady ((k.deliver e).preempt pid).readyQueues level pid level ≠ []
  rw [Core.enqueueReady, Function.update_self]
  exact List.concat_ne_nil _ _

theorem TimedRun.onTime {k₀ k : Multilevel} {h : List (Event × Multilevel)} (hboot : k₀.Booted)
    (hrun : TimedRun k₀ h k) : Core.OnTime k₀.toCore (h.map Prod.fst) k.toCore := by
  refine Run.invariant
    (P := fun h k => Core.OnTime k₀.toCore (h.map Prod.fst) k.toCore) ?_ ?_ hrun
  · rintro _ rfl
    obtain ⟨pid, clock, rfl⟩ := booted_iff.mp hboot
    refine ⟨le_refl _, le_refl _, fun _ he => absurd he List.not_mem_nil,
      fun _ _ he => absurd he List.not_mem_nil, fun _ => ?_⟩
    exact Nat.lt_add_of_pos_right (by decide)
  · intro h k e k' hrun ih hstep
    have hk := ((TimedRun.runFrom hrun).kernelRun hboot).inv
    exact ih.next hstep.2 (hstep.1.turn hk) (hstep.1.preemptive hk)

/-! ## Dispatches and their priorities -/

/-- Who has been dispatched since the last event, with its priority. -/
def ranked (k : Multilevel) : List (Pid × ℤ) :=
  k.toCore.dispatched.map fun pid => (pid, k.priority pid)

/-- The dispatches of a history, the first one first, each with the priority. -/
def rankedDispatches : List (Event × Multilevel) → List (Pid × ℤ)
  | [] => []
  | (_, k) :: h => rankedDispatches h ++ k.ranked

/-- Who was dispatched with the priority `x`. -/
def peers (x : ℤ) (dispatches : List (Pid × ℤ)) : List Pid :=
  (dispatches.filter fun d => d.2 = x).map Prod.fst

/-- The dispatches with a priority above `x`. -/
def superiors (x : ℤ) (dispatches : List (Pid × ℤ)) : List (Pid × ℤ) :=
  dispatches.filter fun d => x < d.2

section Peers

variable {x : ℤ} {ds : List (Pid × ℤ)} {p : Pid}

theorem peers_append (x : ℤ) (ds ds' : List (Pid × ℤ)) :
    peers x (ds ++ ds') = peers x ds ++ peers x ds' := by
  rw [peers, List.filter_append, List.map_append]
  rfl

theorem mem_peers : p ∈ peers x ds ↔ (p, x) ∈ ds := by
  simp [peers]

/-- Whoever has at least the priority `x` is a peer or a superior. -/
theorem length_of_ranks (hranks : ∀ d ∈ ds, x ≤ d.2) :
    ds.length = (peers x ds).length + (superiors x ds).length := by
  induction ds with
  | nil => rfl
  | cons d ds ih =>
    have hrest := ih fun d' hd' => hranks d' (List.mem_cons_of_mem d hd')
    have hd := hranks d List.mem_cons_self
    simp only [peers, superiors, List.length_map] at hrest ⊢
    by_cases heq : d.2 = x
    · rw [List.filter_cons_of_pos (by simpa using heq), List.filter_cons_of_neg (by simp [heq])]
      simp only [List.length_cons]
      omega
    · rw [List.filter_cons_of_neg (by simpa using heq),
        List.filter_cons_of_pos (by simpa using lt_of_le_of_ne hd (Ne.symm heq))]
      simp only [List.length_cons]
      omega

end Peers

/-- What `schedule` made of the ready queues it found, and whom it dispatched. -/
inductive Dispatch (queues : Fin 5 → List Pid) (k : Multilevel) : Prop
  | nobody (hqueues : k.readyQueues = queues) (hranked : k.ranked = [])
  | runs (level : Fin 5) (pid : Pid) (next : List Pid) (hqueue : queues level = pid :: next)
      (habove : ∀ l, level < l → queues l = [])
      (hqueues : k.readyQueues = Function.update queues level next)
      (hranked : k.ranked = [(pid, ((level : ℕ) : ℤ))])

theorem ranked_of_silent {k : Multilevel} (hsilent : k.toCore.Silent) : k.ranked = [] := by
  rw [ranked, hsilent.dispatched_eq]
  rfl

theorem Vacant.dispatch {k : Multilevel} (hk : k.Vacant) (hsilent : k.toCore.Silent) :
    Dispatch k.readyQueues (k.schedule 4) := by
  have hcase := hk.scheduleCase
  generalize k.schedule 4 = k' at hcase
  cases hcase with
  | finished _ =>
    exact .nobody rfl (ranked_of_silent (hsilent.print fun _ _ => Message.noConfusion))
  | deadlocked _ _ _ =>
    exact .nobody rfl (ranked_of_silent (hsilent.print fun _ _ => Message.noConfusion))
  | idle _ _ _ =>
    exact .nobody rfl (ranked_of_silent (hsilent.print fun _ _ => Message.noConfusion))
  | runs level pid next _ _ hqueue habove =>
    refine .runs level pid next hqueue (fun l hl => habove l hl (Fin.le_last l)) rfl ?_
    have hdispatched : (k.dispatchAt level pid next).toCore.dispatched = [pid] := by
      refine (Core.dispatched_print_runs k.clock pid).trans ?_
      change k.toCore.dispatched ++ [pid] = [pid]
      rw [hsilent.dispatched_eq, List.nil_append]
    have hpriority : (k.dispatchAt level pid next).priority pid = (level : ℕ) := by
      change (k.setState pid .running).priority pid = (level : ℕ)
      rw [priority_setState]
      exact hk.levelled level pid (by rw [hqueue]; exact List.mem_cons_self)
    change (k.dispatchAt level pid next).ranked = _
    rw [ranked, hdispatched, List.map_singleton, hpriority]

theorem Dispatch.restartQuantum {queues : Fin 5 → List Pid} {k : Multilevel}
    (h : Dispatch queues k) : Dispatch queues k.restartQuantum := by
  rw [Multilevel.restartQuantum]
  split
  · cases h with
    | nobody hqueues hranked => exact .nobody hqueues hranked
    | runs level pid next hqueue habove hqueues hranked =>
      exact .runs level pid next hqueue habove hqueues hranked
  · exact h

theorem Outcome.dispatch {k k' : Multilevel} (h : Outcome k k') :
    ∃ queues, (∀ level, ∃ new, Newcomer (k.readyQueues level) new ∧
      queues level = k.readyQueues level ++ new) ∧ Dispatch queues k' := by
  cases h with
  | kept hjoins _ =>
    exact ⟨k'.readyQueues, hjoins.queues, .nobody rfl (ranked_of_silent hjoins.silent)⟩
  | scheduled k₁ hjoins hvacant hk' =>
    refine ⟨k₁.readyQueues, hjoins.queues, ?_⟩
    have hdispatch := hvacant.dispatch hjoins.silent
    rcases hk' with rfl | rfl
    · exact hdispatch
    · exact hdispatch.restartQuantum

section Dispatch

variable {queues : Fin 5 → List Pid} {k : Multilevel}

/-- Whoever is dispatched with the priority of a level leaves the queue there. -/
theorem Dispatch.queue (h : Dispatch queues k) (level : Fin 5) :
    queues level = peers (level : ℕ) k.ranked ++ k.readyQueues level := by
  cases h with
  | nobody hqueues hranked =>
    rw [hqueues, hranked]
    rfl
  | runs l pid next hqueue _ hqueues hranked =>
    rw [hqueues, hranked]
    by_cases hl : level = l
    · subst hl
      simp [peers, hqueue]
    · have hne : ¬((l : ℕ) : ℤ) = (level : ℕ) := by
        intro heq
        exact hl (Fin.ext (Int.ofNat.inj heq).symm)
      simp [peers, Function.update_of_ne hl, hne]

/-- Nobody is dispatched with a priority below that of a level where somebody is ready. -/
theorem Dispatch.ranks (h : Dispatch queues k) {level : Fin 5} {p : Pid}
    (hp : p ∈ queues level) : ∀ d ∈ k.ranked, (level : ℕ) ≤ d.2 := by
  intro d hd
  cases h with
  | nobody _ hranked =>
    rw [hranked] at hd
    exact absurd hd List.not_mem_nil
  | runs l pid next _ habove _ hranked =>
    rw [hranked, List.mem_singleton] at hd
    rw [hd]
    have hle : level ≤ l := by
      by_contra hlt
      rw [habove level (not_le.mp hlt)] at hp
      exact List.not_mem_nil hp
    exact Int.ofNat_le.mpr (Fin.le_def.mp hle)

end Dispatch

/-! ## The order of the dispatches -/

/-- The process has been appended to the queue of a level, and may have been
dispatched from it by the same event. -/
def Appended (k k' : Multilevel) (level : Fin 5) (p : Pid) : Prop :=
  p ∉ k.readyQueues level ∧
    (p ∈ k'.readyQueues level ∨ (p, ((level : ℕ) : ℤ)) ∈ k'.ranked)

/-- Since `p` was appended behind `ahead`, the dispatches were `left`; while `p` is not among
them nobody was dispatched with a lower priority. -/
structure Waits (p : Pid) (level : Fin 5) (ahead : List Pid) (left : List (Pid × ℤ))
    (k : Multilevel) : Prop where
  order : ∃ later, Fifo (ahead ++ p :: later) (peers (level : ℕ) left) (k.readyQueues level)
  ranks : p ∉ peers (level : ℕ) left → ∀ d ∈ left, (level : ℕ) ≤ d.2

/-- While a process is ready somebody is current. -/
theorem Inv.busy_of_ready {k : Multilevel} (hk : k.Inv) {level : Fin 5} {p : Pid}
    (hp : p ∈ k.readyQueues level) : k.halted = none ∧ k.currentPid ≠ none := by
  have hne : k.readyQueues level ≠ [] := List.ne_nil_of_mem hp
  cases hk.settled with
  | running hcurrent hhalted _ =>
    rw [hcurrent]
    exact ⟨hhalted, Option.some_ne_none _⟩
  | idle _ _ _ hempty _ => exact absurd (hempty level) hne
  | finished _ hinv hactive => exact absurd hactive (hinv.active_ne_zero (.ready level) hp)
  | deadlocked _ _ hempty _ _ => exact absurd (hempty level) hne

theorem Inv.readyQueues_nodup {k : Multilevel} (hk : k.Inv) (level : Fin 5) :
    (k.readyQueues level).Nodup := by
  obtain ⟨run, pos, hat⟩ := hk.settled.exists_inv
  exact hat.placed.nodup (.ready level)

section Waits

variable {k k' : Multilevel} {e : Event} {p : Pid} {level : Fin 5} {ahead : List Pid}
  {left : List (Pid × ℤ)} {since : ℕ}

theorem Waits.mem_readyQueues (hw : Waits p level ahead left k)
    (hleft : p ∉ peers (level : ℕ) left) : p ∈ k.readyQueues level := by
  obtain ⟨later, hfifo⟩ := hw.order
  have hmem : p ∈ peers (level : ℕ) left ++ k.readyQueues level := by
    rw [← hfifo]
    exact List.mem_append_right ahead List.mem_cons_self
  exact (List.mem_append.mp hmem).resolve_left hleft

theorem Outcome.waits (h : Outcome k k') (happended : Appended k k' level p) :
    Waits p level (k.readyQueues level) k'.ranked k' := by
  obtain ⟨queues, hqueues, hdispatch⟩ := h.dispatch
  obtain ⟨new, hnew, hqueue⟩ := hqueues level
  have hleave := hdispatch.queue level
  have hmem : p ∈ queues level := by
    rw [hleave, List.mem_append, mem_peers]
    exact happended.2.symm
  rw [hqueue] at hleave
  refine ⟨?_, fun _ => hdispatch.ranks hmem⟩
  rw [hqueue] at hmem
  have hp : p ∈ new := (List.mem_append.mp hmem).resolve_left happended.1
  rcases hnew with rfl | ⟨x, _, rfl⟩
  · exact absurd hp List.not_mem_nil
  · obtain rfl := List.mem_singleton.mp hp
    exact ⟨[], hleave⟩

/-- The next event takes from the queue of `p` its front, if anybody. -/
theorem Waits.next (hw : Waits p level ahead left k) (h : Outcome k k') :
    Waits p level ahead (left ++ k'.ranked) k' := by
  obtain ⟨queues, hqueues, hdispatch⟩ := h.dispatch
  obtain ⟨new, _, hqueue⟩ := hqueues level
  have hleave := hdispatch.queue level
  refine ⟨?_, fun hp d hd => ?_⟩
  · obtain ⟨later, hfifo⟩ := hw.order
    rw [hqueue] at hleave
    refine ⟨later ++ new, ?_⟩
    rw [← List.cons_append, ← List.append_assoc, peers_append]
    exact hfifo.step hleave
  · rw [peers_append, List.mem_append, not_or] at hp
    rcases List.mem_append.mp hd with hold | hnow
    · exact hw.ranks hp.1 d hold
    · have hfound : p ∈ queues level := by
        rw [hqueue]
        exact List.mem_append_left new (hw.mem_readyQueues hp.1)
      exact hdispatch.ranks hfound d hnow

/-- An event that dispatches nobody lets the quantum go on, and one that ends a turn
dispatches somebody. -/
theorem start_of_turn (hturn : k.toCore.Turn e k'.toCore) (hhalted : k'.halted = none)
    (hbusy : k'.currentPid ≠ none) :
    k'.currentQuantumStartTime = k.currentQuantumStartTime ∨
      k'.currentQuantumStartTime = e.clock ∧ 1 ≤ k'.ranked.length := by
  cases hturn with
  | goesOn _ _ hstart _ => exact .inl hstart
  | ended _ hstart hdispatched =>
    refine .inr ⟨hstart, ?_⟩
    rw [ranked, List.length_map]
    exact List.length_pos_iff.mpr (hdispatched hhalted hbusy)

/-- If the next event comes less than 50 ms after the start of the quantum, the next
quantum starts less than 50 ms later, for one more dispatch. -/
theorem Waits.start_le (hw : Waits p level ahead (left ++ k'.ranked) k') (hk' : k'.Inv)
    (hp : p ∉ peers (level : ℕ) (left ++ k'.ranked)) (hturn : k.toCore.Turn e k'.toCore)
    (hstart : k.currentQuantumStartTime.toNat ≤ since + 50 * left.length)
    (hsoon : e.clock.toNat < k.currentQuantumStartTime.toNat + 50) :
    k'.currentQuantumStartTime.toNat ≤ since + 50 * (left ++ k'.ranked).length := by
  obtain ⟨hhalted, hbusy⟩ := hk'.busy_of_ready (hw.mem_readyQueues hp)
  rw [List.length_append]
  rcases start_of_turn hturn hhalted hbusy with hsame | ⟨hnow, hsomebody⟩
  · rw [hsame]
    omega
  · rw [hnow]
    omega

end Waits

theorem rankedDispatches_append (later h : List (Event × Multilevel)) :
    rankedDispatches (later ++ h) = rankedDispatches h ++ rankedDispatches later := by
  induction later with
  | nil => exact (List.append_nil _).symm
  | cons x later ih =>
    rw [List.cons_append, rankedDispatches, ih, rankedDispatches, List.append_assoc]

section Runs

variable {k₀ k k' : Multilevel} {later h : List (Event × Multilevel)} {e : Event} {level : Fin 5}
  {p : Pid}

/-- Nobody is dispatched with a priority above the highest level. -/
theorem RunFrom.ranked_le (hboot : k₀.Booted) (hrun : RunFrom k₀ h k) :
    ∀ d ∈ rankedDispatches h, d.2 ≤ 4 := by
  induction hrun with
  | start _ => exact fun d hd => absurd hd List.not_mem_nil
  | next hprev hstep ih =>
    have hk' := (hstep.outcome (RunFrom.kernelRun hboot hprev).inv).inv
    intro d hd
    rcases List.mem_append.mp hd with hold | hnow
    · exact ih d hold
    · obtain ⟨pid, _, rfl⟩ := List.mem_map.mp hnow
      exact (hk'.ranged pid).2

/-- The induction is on the history since `p` was appended. -/
theorem RunFrom.waits (hboot : k₀.Booted) (hrun : RunFrom k₀ (later ++ (e, k') :: h) k)
    (happended : Appended (reached k₀ h) k' level p) :
    Waits p level ((reached k₀ h).readyQueues level)
      (rankedDispatches (later ++ [(e, k')])) k := by
  induction later generalizing k with
  | nil =>
    cases hrun with
    | next hprev hstep =>
      rw [hprev.reached_eq] at happended ⊢
      exact (hstep.outcome (RunFrom.kernelRun hboot hprev).inv).waits happended
  | cons step later ih =>
    cases hrun with
    | next hprev hstep =>
      exact (ih hprev).next (hstep.outcome (RunFrom.kernelRun hboot hprev).inv)

/-- While `p` waits each dispatch brings the start of the quantum 50 ms further at most. -/
theorem TimedRun.start_le (hboot : k₀.Booted) (hrun : TimedRun k₀ (later ++ (e, k') :: h) k)
    (happended : Appended (reached k₀ h) k' level p)
    (hp : p ∉ peers (level : ℕ) (rankedDispatches (later ++ [(e, k')]))) :
    k.currentQuantumStartTime.toNat ≤
      e.clock.toNat + 50 * (rankedDispatches (later ++ [(e, k')])).length := by
  have hw := RunFrom.waits hboot hrun.runFrom happended
  induction later generalizing k with
  | nil =>
    cases hrun with
    | next hprev hstep =>
      have hk := ((TimedRun.runFrom hprev).kernelRun hboot).inv
      have hstart := (TimedRun.onTime hboot hprev).start
      have hadvance := hstep.2.1
      cases hstep.1.turn hk with
      | goesOn _ _ hsame _ =>
        rw [hsame]
        omega
      | ended _ hnow _ =>
        rw [hnow]
        omega
  | cons step later ih =>
    cases hrun with
    | next hprev hstep =>
      have hk := ((TimedRun.runFrom hprev).kernelRun hboot).inv
      have hbefore := RunFrom.waits hboot (TimedRun.runFrom hprev) happended
      have hwaiting := fun hmem => hp ((peers_append _ _ _).symm ▸ List.mem_append_left _ hmem)
      have hready := hbefore.mem_readyQueues hwaiting
      exact hw.start_le (hstep.1.outcome hk).inv hp (hstep.1.turn hk) (ih hprev hwaiting hbefore)
        ((TimedRun.onTime hboot hprev).next_clock hstep.2 (hk.busy_of_ready hready).2)

end Runs

/-- A ready process waits for its peers ahead of it and for its superiors. When a
process is appended to the queue of a level with `n` processes ahead of it, all different,
then, until it is dispatched, nobody is dispatched with a lower priority, those who are
dispatched with the same one are the processes ahead, in order, and, if the clock
interrupts come in time, less than `50 * (n + s + 1)` ms pass, where `s` is the number of
dispatches with a higher one, of which there are none on the highest level; and it is
dispatched right after the processes ahead of it. -/
theorem waits_for_peers_and_superiors {k₀ k k' : Multilevel}
    {later h : List (Event × Multilevel)} {e : Event} {level : Fin 5} {p : Pid}
    (hboot : k₀.Booted) (hrun : RunFrom k₀ (later ++ (e, k') :: h) k)
    (happended : Appended (reached k₀ h) k' level p) :
    ((reached k₀ h).readyQueues level).Nodup ∧
    (p ∉ peers (level : ℕ) (rankedDispatches (later ++ [(e, k')])) →
      (∀ d ∈ rankedDispatches (later ++ [(e, k')]), (level : ℕ) ≤ d.2) ∧
      peers (level : ℕ) (rankedDispatches (later ++ [(e, k')])) <+:
        (reached k₀ h).readyQueues level ∧
      (TimedRun k₀ (later ++ (e, k') :: h) k →
        k.clock.toNat < e.clock.toNat + 50 * (((reached k₀ h).readyQueues level).length +
          (superiors (level : ℕ) (rankedDispatches (later ++ [(e, k')]))).length + 1))) ∧
    ((level : ℕ) = 4 → superiors (level : ℕ) (rankedDispatches (later ++ [(e, k')])) = []) ∧
    (p ∈ peers (level : ℕ) (rankedDispatches (later ++ [(e, k')])) →
      ∃ rest, peers (level : ℕ) (rankedDispatches (later ++ [(e, k')])) =
        (reached k₀ h).readyQueues level ++ p :: rest) := by
  have hw := hrun.waits hboot happended
  obtain ⟨behind, hfifo⟩ := hw.order
  obtain ⟨hbefore, hafter⟩ := hfifo.in_order happended.1
  refine ⟨?_, fun hp => ?_, fun hlast => ?_, hafter⟩
  · obtain ⟨k₁, hprev, _⟩ := Run.exists_step hrun (List.suffix_append later _)
    rw [hprev.reached_eq]
    exact (RunFrom.kernelRun hboot hprev).inv.readyQueues_nodup level
  · have hranks := hw.ranks hp
    have hbehind := hbefore hp
    refine ⟨hranks, hbehind, fun htimed => ?_⟩
    have hpeers := hbehind.length_le
    have hlength := length_of_ranks hranks
    have hk := (hrun.kernelRun hboot).inv
    have hslice := (htimed.onTime hboot).slice (hk.busy_of_ready (hw.mem_readyQueues hp)).2
    have hstart := htimed.start_le hboot happended hp
    omega
  · rw [superiors, List.filter_eq_nil_iff]
    intro d hd
    have hle : d.2 ≤ 4 := by
      refine hrun.ranked_le hboot d ?_
      rw [List.append_cons, rankedDispatches_append]
      exact List.mem_append_right _ hd
    rw [hlast, decide_eq_true_eq]
    omega

theorem timed_of_le_period {c₀ c : Core} {past : List Event} {e : Event}
    (hpast : c.clock.toNat ≤ e.clock.toNat) (hearly : e.clock.toNat ≤ clockInterruptPeriod) :
    Core.Timed c₀ past c e := by
  refine ⟨hpast, fun tick hdvd hlo hhi => ?_⟩
  have hle := Nat.le_of_dvd (by omega) hdvd
  omega

section SecondInLine

variable (runner first second : Pid) (level : Fin 5)

/-- `second` is created behind `first`. -/
def twoInLine : Multilevel :=
  ((boot runner 0#32).forkedAt first level 2#32).forkedAt second level 5#32

/-- `runner` reads from the disk, so `first` is dispatched. -/
def secondInLine : Multilevel :=
  (twoInLine runner first second level).readingAt runner level first [second] 7#32

/-- A clock interrupt comes. -/
def secondWaits : Multilevel := (secondInLine runner first second level).deliver (.clockAt 10#32)

/-- `first` reads from the disk as well. -/
def secondRuns : Multilevel :=
  (secondWaits runner first second level).readingAt first level second [] 10#32

/-- What comes after `second` was created. -/
def inLineHistory : List (Event × Multilevel) :=
  [(.clockAt 10#32, secondWaits runner first second level),
    (.readAt 7#32, secondInLine runner first second level)]

end SecondInLine

/-- Process 2, created at 5 behind process 1, still waits at 10, when process 1 has been
dispatched, and is dispatched next. -/
theorem waits_for_peers_and_superiors_second :
    TimedRun (boot 0 0#32) ((.readAt 10#32, secondRuns 0 1 2 0) :: (inLineHistory 0 1 2 0 ++
      [(.forkAt 2 5#32, twoInLine 0 1 2 0), (.forkAt 1 2#32, (boot 0 0#32).forkedAt 1 0 2#32)]))
      (secondRuns 0 1 2 0) ∧
    peers 0 (rankedDispatches (inLineHistory 0 1 2 0)) = [1] ∧
    (secondWaits 0 1 2 0).clock.toNat < 5 + 50 * (1 + 0 + 1) ∧
    ∃ rest, peers 0 (rankedDispatches ((.readAt 10#32, secondRuns 0 1 2 0) ::
      inLineHistory 0 1 2 0)) = [1] ++ 2 :: rest := by
  have hboot : (boot 0 0#32).Booted := booted_iff.mpr ⟨0, 0#32, rfl⟩
  have happended : Appended ((boot 0 0#32).forkedAt 1 0 2#32) (twoInLine 0 1 2 0) 0 2 :=
    ⟨by decide, .inl (by decide)⟩
  have hrun : TimedRun (boot 0 0#32) (inLineHistory 0 1 2 0 ++
      [(.forkAt 2 5#32, twoInLine 0 1 2 0), (.forkAt 1 2#32, (boot 0 0#32).forkedAt 1 0 2#32)])
      (secondWaits 0 1 2 0) := by
    refine .next (.next (.next (.next (.start rfl) ⟨?_, ?_⟩) ⟨?_, ?_⟩) ⟨?_, ?_⟩) ⟨?_, ?_⟩
    · exact step_forkAt _ rfl (Option.some_ne_none 0) rfl rfl
    · exact timed_of_le_period (by decide) (by decide)
    · exact step_forkAt _ rfl (Option.some_ne_none 0) rfl rfl
    · exact timed_of_le_period (by decide) (by decide)
    · exact step_readingAt rfl rfl (by decide) rfl (by decide) (by decide) (by decide)
    · exact timed_of_le_period (by decide) (by decide)
    · exact step_clockAt rfl (by decide)
    · exact timed_of_le_period (by decide) (by decide)
  have hrun' : TimedRun (boot 0 0#32) (((.readAt 10#32, secondRuns 0 1 2 0) ::
      inLineHistory 0 1 2 0) ++ [(.forkAt 2 5#32, twoInLine 0 1 2 0),
        (.forkAt 1 2#32, (boot 0 0#32).forkedAt 1 0 2#32)]) (secondRuns 0 1 2 0) :=
    .next hrun ⟨step_readingAt rfl rfl (by decide) rfl (by decide) (by decide) (by decide),
      timed_of_le_period (by decide) (by decide)⟩
  have hwaits := (waits_for_peers_and_superiors hboot hrun.runFrom happended).2.1 (by decide)
  have hruns := (waits_for_peers_and_superiors hboot hrun'.runFrom happended).2.2.2 (by decide)
  exact ⟨hrun', by decide, hwaits.2.2 hrun, hruns⟩

end Multilevel

end SimOS
