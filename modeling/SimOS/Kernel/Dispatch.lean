import SimOS.Kernel.MultilevelTraps

/-!
# Whom the multilevel kernel dispatches

The ready queues list exactly the ready processes, each in the queue of its
priority, and every queue is in order of seniority along a run. So the head of
the highest queue that is not empty, which `schedule` runs, has been ready for
longest among the processes of the highest priority.
-/

namespace SimOS

open Library

namespace Multilevel

/-- What `schedule` made of the ready queues it found: it ran nobody, or the head
of the highest queue that was not empty. -/
inductive Served (queues : Fin 5 → List Pid) (k : Multilevel) : Prop
  | nobody (hqueues : k.readyQueues = queues) (hsilent : k.toCore.Silent)
  | runs (level : Fin 5) (pid : Pid) (next : List Pid) (hqueue : queues level = pid :: next)
      (habove : ∀ l, level < l → queues l = [])
      (hqueues : k.readyQueues = Function.update queues level next)
      (hstate : k.state pid = .running) (hpriority : k.priority pid = (level : ℕ))
      (honly : ∀ time p, Message.runs time p ∈ k.output → p = pid)

theorem Vacant.served {k : Multilevel} (hk : k.Vacant) (hsilent : k.toCore.Silent) :
    Served k.readyQueues (k.schedule 4) := by
  have hcase := hk.scheduleCase
  generalize k.schedule 4 = k' at hcase
  cases hcase with
  | finished _ => exact .nobody rfl (hsilent.print fun _ _ => Message.noConfusion)
  | deadlocked _ _ _ => exact .nobody rfl (hsilent.print fun _ _ => Message.noConfusion)
  | idle _ _ _ => exact .nobody rfl (hsilent.print fun _ _ => Message.noConfusion)
  | runs level pid next _ _ hqueue habove =>
    refine .runs level pid next hqueue (fun l hl => habove l hl (Fin.le_last l)) rfl ?_ ?_ ?_
    · change (k.setState pid .running).state pid = .running
      rw [state_setState, Function.update_self]
    · change (k.setState pid .running).priority pid = (level : ℕ)
      rw [priority_setState]
      exact hk.levelled level pid (by rw [hqueue]; exact List.mem_cons_self)
    · intro time p hmem
      rcases List.mem_append.mp hmem with hold | hnew
      · exact absurd hold (hsilent time p)
      · exact (Message.runs.inj (List.mem_singleton.mp hnew)).2

theorem Served.restartQuantum {queues : Fin 5 → List Pid} {k : Multilevel} (h : Served queues k) :
    Served queues k.restartQuantum := by
  rw [Multilevel.restartQuantum]
  split
  · cases h with
    | nobody hqueues hsilent => exact .nobody hqueues hsilent
    | runs level pid next hqueue habove hqueues hstate hpriority honly =>
      exact .runs level pid next hqueue habove hqueues hstate hpriority honly
  · exact h

/-- `schedule` takes nobody off a queue but its head. -/
theorem Served.sublist {queues : Fin 5 → List Pid} {k : Multilevel} (h : Served queues k)
    (level : Fin 5) : (k.readyQueues level).Sublist (queues level) := by
  cases h with
  | nobody hqueues _ => rw [hqueues]
  | runs l pid next hqueue _ hqueues _ _ _ =>
    rw [hqueues]
    by_cases hl : level = l
    · rw [hl, Function.update_self, hqueue]
      exact List.sublist_cons_self pid next
    · rw [Function.update_of_ne hl]

/-- After an event the queues are what `schedule` made of them once at most one
process had joined. -/
theorem Outcome.served {k k' : Multilevel} (h : Outcome k k') :
    ∃ queues, (∀ level, ∃ new, Newcomer (k.readyQueues level) new ∧
      queues level = k.readyQueues level ++ new) ∧ Served queues k' := by
  cases h with
  | kept hjoins _ => exact ⟨k'.readyQueues, hjoins.queues, .nobody rfl hjoins.silent⟩
  | scheduled k₁ hjoins hvacant hk' =>
    refine ⟨k₁.readyQueues, hjoins.queues, ?_⟩
    have hserved := hvacant.served hjoins.silent
    rcases hk' with rfl | rfl
    · exact hserved
    · exact hserved.restartQuantum

/-- Along every run the ready queues are in order of seniority. -/
theorem KernelRun.seniority {h : List (Event × Multilevel)} {k : Multilevel}
    (hrun : KernelRun h k) (level : Fin 5) : Seniority (fun k => k.readyQueues level) h k := by
  induction hrun with
  | start hk =>
    obtain ⟨pid, clock, rfl⟩ := booted_iff.mp hk
    exact .start rfl
  | next hprev hstep ih =>
    obtain ⟨queues, hqueues, hserved⟩ := (hstep.outcome (KernelRun.inv hprev)).served
    obtain ⟨new, hnew, hqueue⟩ := hqueues level
    refine ih.next hnew ?_
    rw [← hqueue]
    exact hserved.sublist level

/-- The ready queues list exactly the ready processes, each once, in the queue of
its priority. -/
theorem Inv.count_readyQueues {k : Multilevel} (hk : k.Inv) (pid : Pid) (level : Fin 5) :
    (k.readyQueues level).count pid =
      if k.state pid = .ready ∧ k.priority pid = (level : ℕ) then 1 else 0 := by
  obtain ⟨run, hinv⟩ := hk.settled.exists_inv
  obtain ⟨hlive, hfree, _, _⟩ := hinv.accounted
  by_cases hpid : k.state pid = .uninitialized
  · have hout : pid ∉ k.readyQueues level := hfree pid hpid (.ready level)
    rw [List.count_eq_zero_of_not_mem hout, hpid]
    rfl
  · obtain ⟨place, hstate, hcount⟩ := hlive pid hpid
    have hstate' : k.state pid = Place.state (some place) := hstate
    have hthere : ∀ l, place = .ready l → k.priority pid = (l : ℕ) := by
      intro l hl
      have hone : (k.readyQueues l).count pid = 1 := by
        have := hcount (.ready l)
        rwa [if_pos hl.symm] at this
      exact hk.levelled l pid (List.count_pos_iff.mp (by omega))
    have hhere : (k.readyQueues level).count pid = if .ready level = place then 1 else 0 :=
      hcount (.ready level)
    rw [hhere]
    refine if_congr ⟨?_, ?_⟩ rfl rfl
    · rintro rfl
      exact ⟨hstate', hthere level rfl⟩
    -- a ready process is in some ready queue, and that one has its priority
    · rintro ⟨hready, hpriority⟩
      rw [hready] at hstate'
      cases place with
      | ready l =>
        have hl := hthere l rfl
        rw [hpriority] at hl
        rw [Fin.ext_iff.mpr (Int.ofNat.inj hl)]
      | _ => exact ProcessState.noConfusion hstate'

theorem Inv.mem_readyQueues {k : Multilevel} (hk : k.Inv) {pid : Pid} {level : Fin 5} :
    pid ∈ k.readyQueues level ↔ k.state pid = .ready ∧ k.priority pid = (level : ℕ) := by
  rw [← List.count_pos_iff, hk.count_readyQueues]
  split_ifs with h
  · exact iff_of_true Nat.one_pos h
  · exact iff_of_false (lt_irrefl 0) h

/-- The process `schedule` runs outranks or is senior to every ready process. -/
theorem Served.runs_first {h : List (Event × Multilevel)} {k' : Multilevel}
    {queues : Fin 5 → List Pid} (hk' : k'.Inv)
    (hsenior : ∀ level, (queues level).Pairwise fun a b =>
      waited (fun k => k.readyQueues level) h b < waited (fun k => k.readyQueues level) h a)
    (hserved : Served queues k') {time : Word} {pid : Pid}
    (hruns : Message.runs time pid ∈ k'.output) :
    k'.state pid = .running ∧ ∀ r, k'.state r = .ready →
      k'.priority r ≤ k'.priority pid ∧
      ∀ level : Fin 5, k'.priority pid = (level : ℕ) → k'.priority r = k'.priority pid →
        waited (fun k => k.readyQueues level) h r <
          waited (fun k => k.readyQueues level) h pid := by
  cases hserved with
  | nobody _ hsilent => exact absurd hruns (hsilent time pid)
  | runs level p next hqueue habove hqueues hstate hpriority honly =>
    obtain rfl := honly time pid hruns
    refine ⟨hstate, fun r hready => ?_⟩
    obtain ⟨l, hl⟩ := hk'.ranged.exists_level r
    have hmem : r ∈ k'.readyQueues l := hk'.mem_readyQueues.mpr ⟨hready, hl⟩
    rw [hqueues] at hmem
    refine ⟨?_, fun l' hl' hsame => ?_⟩
    -- a queue above the level of the dispatched process was empty
    · by_contra hlt
      rw [hl, hpriority] at hlt
      have hgt : level < l := by
        rw [Fin.lt_def]
        omega
      rw [Function.update_of_ne hgt.ne', habove l hgt] at hmem
      exact List.not_mem_nil hmem
    · have hll : l = level := by
        rw [Fin.ext_iff]
        omega
      have hl'' : l' = level := by
        rw [Fin.ext_iff]
        omega
      rw [hll, Function.update_self] at hmem
      have hordered := hsenior level
      rw [hqueue] at hordered
      rw [hl'']
      exact List.rel_of_pairwise_cons hordered hmem

/-- Every ready process is in the queue of its priority, once, and in no other;
the others are in none; every priority is the index of a queue, so every event is
handled. Whoever an event dispatches is outranked by no ready process, and has
been in its queue for longer than every ready process of its priority. -/
theorem dispatches_longest_waiting {h : List (Event × Multilevel)} {k : Multilevel}
    (hrun : KernelRun h k) :
    (∀ pid, 0 ≤ k.priority pid ∧ k.priority pid ≤ 4) ∧
    (∀ pid level, (k.readyQueues level).count pid =
      if k.state pid = .ready ∧ k.priority pid = (level : ℕ) then 1 else 0) ∧
    (∀ e, k.toCore.Legal k.state e → (k.interrupt e).isSome) ∧
    ∀ e k', k.Step e k' → ∀ time pid, Message.runs time pid ∈ k'.output →
      k'.state pid = .running ∧ ∀ r, k'.state r = .ready →
        k'.priority r ≤ k'.priority pid ∧
        ∀ level : Fin 5, k'.priority pid = (level : ℕ) → k'.priority r = k'.priority pid →
          waited (fun k => k.readyQueues level) h r <
            waited (fun k => k.readyQueues level) h pid := by
  have hk := hrun.inv
  refine ⟨hk.ranged, hk.count_readyQueues, fun e hlegal => ?_, fun e k' hstep time pid hruns => ?_⟩
  · obtain ⟨k', hk', _⟩ := interrupt_effect hk.ranged hlegal
    rw [hk']
    rfl
  · have hnext : KernelRun ((e, k') :: h) k' := .next hrun hstep
    obtain ⟨queues, hqueues, hserved⟩ := (hstep.outcome hk).served
    refine Served.runs_first hnext.inv (fun level => ?_) hserved hruns
    obtain ⟨new, hnew, hqueue⟩ := hqueues level
    rw [hqueue]
    exact (hrun.seniority level).append_order hnew

/-- Process 0 creates 1 and 2 and reads from the disk: `schedule` picks 1, which has waited
for longer than 2. -/
theorem dispatches_longest_waiting_readAt : ∃ (h : List (Event × Multilevel)) (k k' : Multilevel),
    KernelRun h k ∧ k.readyQueues 0 = [1, 2] ∧ k.Step (.readAt 7#32) k' ∧
      Message.runs 7#32 1 ∈ k'.output ∧ k'.state 1 = .running ∧ k'.state 2 = .ready ∧
      waited (fun k => k.readyQueues 0) h 2 < waited (fun k => k.readyQueues 0) h 1 := by
  have hfirst : (boot 0 0#32).Step (.forkAt 1 2#32) ((boot 0 0#32).forkedAt 1 0 2#32) :=
    step_forkAt _ rfl (Option.some_ne_none 0) rfl rfl
  have hsecond : ((boot 0 0#32).forkedAt 1 0 2#32).Step (.forkAt 2 5#32)
      (((boot 0 0#32).forkedAt 1 0 2#32).forkedAt 2 0 5#32) :=
    step_forkAt _ rfl (Option.some_ne_none 0) rfl rfl
  have hrun : KernelRun ((.forkAt 2 5#32, _) :: (.forkAt 1 2#32, _) :: []) _ :=
    .next (.next (.start (booted_iff.mpr ⟨0, 0#32, rfl⟩)) hfirst) hsecond
  have hstep : (((boot 0 0#32).forkedAt 1 0 2#32).forkedAt 2 0 5#32).Step (.readAt 7#32)
      ((((boot 0 0#32).forkedAt 1 0 2#32).forkedAt 2 0 5#32).readingAt 0 0 1 [2] 7#32) :=
    step_readingAt rfl rfl (by decide) rfl (by decide) (by decide) (by decide)
  obtain ⟨hrunning, hlonger⟩ := (dispatches_longest_waiting hrun).2.2.2 _ _ hstep 7#32 1
    (List.mem_append_right _ List.mem_cons_self)
  exact ⟨_, _, _, hrun, rfl, hstep, List.mem_append_right _ List.mem_cons_self, hrunning, rfl,
    (hlonger 2 rfl).2 0 rfl rfl⟩

end Multilevel

end SimOS
