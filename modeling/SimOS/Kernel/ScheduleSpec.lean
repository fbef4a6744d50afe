import SimOS.Kernel.MultilevelRuns

/-!
# What `schedule` does in any state

`ScheduleCase` is about states in which nobody in a ready queue is blocked, as
in every run. Here the ready queues may hold any pids in any states:
`schedule` drops the blocked ones it meets and runs the first process that is
not blocked, the highest level first.
-/

namespace SimOS

namespace Multilevel

/-- Every process in the ready queue of the level is blocked. -/
def AllBlocked (k : Multilevel) (level : Fin 5) : Prop :=
  ∀ pid ∈ k.readyQueues level, k.state pid = .blocked

instance (k : Multilevel) (level : Fin 5) : Decidable (k.AllBlocked level) :=
  inferInstanceAs (Decidable (∀ pid ∈ k.readyQueues level, k.state pid = .blocked))

theorem allBlocked_of_nil {k : Multilevel} {level : Fin 5} (hqueue : k.readyQueues level = []) :
    k.AllBlocked level := by
  intro pid hpid
  rw [hqueue] at hpid
  exact absurd hpid List.not_mem_nil

/-- `pid` is the first process that is not blocked in the ready queues from
`queueNum` down: it stands behind `dropped` and before `rest` on its level. -/
structure FirstReady (k : Multilevel) (queueNum level : Fin 5) (dropped : List Pid) (pid : Pid)
    (rest : List Pid) : Prop where
  level_le : level ≤ queueNum
  above : ∀ l, level < l → l ≤ queueNum → k.AllBlocked l
  queue : k.readyQueues level = dropped ++ pid :: rest
  dropped : ∀ p ∈ dropped, k.state p = .blocked
  ready : k.state pid ≠ .blocked

theorem FirstReady.mem {k : Multilevel} {queueNum level : Fin 5} {dropped rest : List Pid}
    {pid : Pid} (h : FirstReady k queueNum level dropped pid rest) :
    pid ∈ k.readyQueues level := by
  rw [h.queue]
  exact List.mem_append_right _ List.mem_cons_self

/-- The blocked processes at the front of the queue are those that are dropped. -/
theorem FirstReady.span {k : Multilevel} {queueNum level : Fin 5} {dropped rest : List Pid}
    {pid : Pid} (h : FirstReady k queueNum level dropped pid rest) :
    (k.readyQueues level).takeWhile (fun p => decide (k.state p = .blocked)) = dropped ∧
      (k.readyQueues level).dropWhile (fun p => decide (k.state p = .blocked)) = pid :: rest := by
  have hdropped : ∀ p ∈ dropped, decide (k.state p = .blocked) = true :=
    fun p hp => decide_eq_true (h.dropped p hp)
  rw [h.queue, List.takeWhile_append_of_pos hdropped, List.dropWhile_append_of_pos hdropped]
  simp [h.ready]

/-- There is one first process at most. -/
theorem FirstReady.unique {k : Multilevel} {queueNum level level' : Fin 5}
    {dropped dropped' rest rest' : List Pid} {pid pid' : Pid}
    (h : FirstReady k queueNum level dropped pid rest)
    (h' : FirstReady k queueNum level' dropped' pid' rest') :
    level = level' ∧ dropped = dropped' ∧ pid = pid' ∧ rest = rest' := by
  rcases lt_trichotomy level level' with hlt | rfl | hgt
  · exact absurd (h.above level' hlt h'.level_le pid' h'.mem) h'.ready
  · obtain ⟨hpid, hrest⟩ := List.cons.inj (h.span.2.symm.trans h'.span.2)
    exact ⟨rfl, h.span.1.symm.trans h'.span.1, hpid, hrest⟩
  · exact absurd (h'.above level hgt h.level_le pid h.mem) h.ready

section Steps

variable {k : Multilevel} {queueNum : Fin 5}

/-- The levels down from `queueNum` are those below it and itself. -/
theorem le_iff_of_below {below : Fin 5} (hbelow : (below : ℕ) + 1 = queueNum) (l : Fin 5) :
    l ≤ queueNum ↔ l ≤ below ∨ l = queueNum := by
  rw [Fin.le_def, Fin.le_def, Fin.ext_iff]
  omega

/-- The first process below an empty queue is the first one from that queue down. -/
theorem FirstReady.descend {below level : Fin 5} {dropped rest : List Pid} {pid : Pid}
    (hbelow : (below : ℕ) + 1 = queueNum) (hqueue : k.readyQueues queueNum = [])
    (h : FirstReady k below level dropped pid rest) :
    FirstReady k queueNum level dropped pid rest where
  level_le := (le_iff_of_below hbelow level).mpr (.inl h.level_le)
  above := by
    intro l hlt hle
    rcases (le_iff_of_below hbelow l).mp hle with hlower | rfl
    · exact h.above l hlt hlower
    · exact allBlocked_of_nil hqueue
  queue := h.queue
  dropped := h.dropped
  ready := h.ready

/-- If the queues are all blocked without the blocked head, they are with it. -/
theorem allBlocked_of_dropped {pid : Pid} {next discarded : List Pid}
    (hqueue : k.readyQueues queueNum = pid :: next) (hpid : k.state pid = .blocked) {l : Fin 5}
    (hblocked : AllBlocked
      { k with
        readyQueues := Function.update k.readyQueues queueNum next
        discarded := discarded } l) :
    k.AllBlocked l := by
  intro p hp
  by_cases hl : l = queueNum
  · subst hl
    rw [hqueue] at hp
    rcases List.mem_cons.mp hp with rfl | hnext
    · exact hpid
    · refine hblocked p ?_
      change p ∈ Function.update k.readyQueues l next l
      rwa [Function.update_self]
  · refine hblocked p ?_
    change p ∈ Function.update k.readyQueues queueNum next l
    rwa [Function.update_of_ne hl]

/-- The first process behind a blocked head is the first one in the queues. -/
theorem FirstReady.of_dropped {level : Fin 5} {pid first : Pid}
    {next discarded dropped rest : List Pid} (hqueue : k.readyQueues queueNum = pid :: next)
    (hpid : k.state pid = .blocked)
    (h : FirstReady
      { k with
        readyQueues := Function.update k.readyQueues queueNum next
        discarded := discarded } queueNum level dropped first rest) :
    ∃ dropped', FirstReady k queueNum level dropped' first rest := by
  have habove : ∀ l, level < l → l ≤ queueNum → k.AllBlocked l :=
    fun l hlt hle => allBlocked_of_dropped hqueue hpid (h.above l hlt hle)
  have hstands : Function.update k.readyQueues queueNum next level = dropped ++ first :: rest :=
    h.queue
  by_cases hlevel : level = queueNum
  · subst hlevel
    rw [Function.update_self] at hstands
    refine ⟨pid :: dropped, le_refl _, habove, ?_, ?_, h.ready⟩
    · rw [hqueue, hstands, List.cons_append]
    · intro p hp
      rcases List.mem_cons.mp hp with rfl | hdropped
      · exact hpid
      · exact h.dropped p hdropped
  · rw [Function.update_of_ne hlevel] at hstands
    exact ⟨dropped, h.level_le, habove, hstands, h.dropped, h.ready⟩

end Steps

/-- What `schedule(queue_num)` leaves behind. -/
inductive ScheduleSpec (k : Multilevel) (queueNum : Fin 5) (k' : Multilevel) : Prop
  | finished (hactive : k.activeProcesses = 0)
      (hk' : k' = { k with toCore := k.toCore.exit .noMoreProcesses })
  | runs (level : Fin 5) (dropped : List Pid) (pid : Pid) (rest : List Pid)
      (hactive : k.activeProcesses ≠ 0) (hfirst : FirstReady k queueNum level dropped pid rest)
      (hcore : k'.toCore =
        { k.toCore.print (.runs k.clock pid) with currentPid := some pid })
      (htable : k'.processTable = (k.setState pid .running).processTable)
      (hqueues : ∀ l, k'.readyQueues l =
        if level < l ∧ l ≤ queueNum then [] else if l = level then rest else k.readyQueues l)
  | nobody (hactive : k.activeProcesses ≠ 0) (hblocked : ∀ l ≤ queueNum, k.AllBlocked l)
      (hcore : k'.toCore =
        if k.ioProcesses = 0 then k.toCore.exit .deadlockedSystem
        else { k.toCore.print (.idle k.clock) with currentPid := none })
      (htable : k'.processTable = k.processTable)
      (hqueues : ∀ l, k'.readyQueues l = if l ≤ queueNum then [] else k.readyQueues l)

namespace ScheduleSpec

variable {k k' : Multilevel} {queueNum : Fin 5}

/-- An empty queue passes on to the level below. -/
theorem descend {below : Fin 5} (hbelow : (below : ℕ) + 1 = queueNum)
    (hqueue : k.readyQueues queueNum = []) (h : ScheduleSpec k below k') :
    ScheduleSpec k queueNum k' := by
  have hsplit := le_iff_of_below hbelow
  have hmore : ∀ l : Fin 5, ¬l ≤ below → (l ≤ queueNum ↔ l = queueNum) := by
    intro l hl
    rw [hsplit, or_iff_right hl]
  cases h with
  | finished hactive hk' => exact .finished hactive hk'
  | runs level dropped pid rest hactive hfirst hcore htable hqueues =>
    have hlevel : level < queueNum := by
      have hle := hfirst.level_le
      rw [Fin.le_def] at hle
      rw [Fin.lt_def]
      omega
    refine .runs level dropped pid rest hactive (hfirst.descend hbelow hqueue) hcore htable
      fun l => ?_
    rw [hqueues l]
    by_cases hl : l ≤ below
    · simp only [hl, (hsplit l).mpr (.inl hl)]
    · -- the queue passed over was empty already
      by_cases hnum : l = queueNum
      · subst hnum
        rw [if_neg fun h => hl h.2, if_neg (ne_of_gt hlevel), if_pos ⟨hlevel, le_refl _⟩, hqueue]
      · simp only [hl, (hmore l hl).not.mpr hnum]
  | nobody hactive hblocked hcore htable hqueues =>
    refine .nobody hactive (fun l hle => ?_) hcore htable fun l => ?_
    · rcases (hsplit l).mp hle with hlower | rfl
      · exact hblocked l hlower
      · exact allBlocked_of_nil hqueue
    · rw [hqueues l]
      by_cases hl : l ≤ below
      · rw [if_pos hl, if_pos ((hsplit l).mpr (.inl hl))]
      · rw [if_neg hl]
        by_cases hnum : l = queueNum
        · rw [if_pos (le_of_eq hnum), hnum, hqueue]
        · rw [if_neg ((hmore l hl).not.mpr hnum)]

/-- Dropping a blocked head changes nothing but the queue it is dropped from. -/
theorem drop (hactive : k.activeProcesses ≠ 0) {pid : Pid} {next discarded : List Pid}
    (hqueue : k.readyQueues queueNum = pid :: next) (hpid : k.state pid = .blocked)
    (h : ScheduleSpec
      { k with
        readyQueues := Function.update k.readyQueues queueNum next
        discarded := discarded } queueNum k') :
    ScheduleSpec k queueNum k' := by
  have hother : ∀ l, l ≠ queueNum →
      Function.update k.readyQueues queueNum next l = k.readyQueues l :=
    fun l hl => Function.update_of_ne hl _ _
  cases h with
  | finished hnone _ => exact absurd hnone hactive
  | runs level dropped first rest _ hfirst hcore htable hqueues =>
    obtain ⟨dropped', hfirst'⟩ := hfirst.of_dropped hqueue hpid
    refine .runs level dropped' first rest hactive hfirst' hcore htable fun l => ?_
    rw [hqueues l]
    split_ifs with hpassed hl
    · rfl
    · rfl
    · refine hother l ?_
      rintro rfl
      exact hpassed ⟨lt_of_le_of_ne hfirst.level_le (Ne.symm hl), le_refl _⟩
  | nobody _ hblocked hcore htable hqueues =>
    refine .nobody hactive (fun l hle => allBlocked_of_dropped hqueue hpid (hblocked l hle)) hcore
      htable fun l => ?_
    rw [hqueues l]
    split_ifs with hle
    · rfl
    · exact hother l fun hl => hle (le_of_eq hl)

end ScheduleSpec

/-- Nobody runs when the lowest queue is empty too. -/
theorem ScheduleSpec.lowest {k k' : Multilevel} (hactive : k.activeProcesses ≠ 0)
    (hqueue : k.readyQueues 0 = [])
    (hcore : k'.toCore =
      if k.ioProcesses = 0 then k.toCore.exit .deadlockedSystem
      else { k.toCore.print (.idle k.clock) with currentPid := none })
    (htable : k'.processTable = k.processTable) (hqueues : k'.readyQueues = k.readyQueues) :
    ScheduleSpec k 0 k' := by
  refine .nobody hactive (fun l hle => ?_) hcore htable fun l => ?_
  · rw [Fin.le_zero_iff.mp hle]
    exact allBlocked_of_nil hqueue
  · rw [hqueues]
    split_ifs with hle
    · rw [Fin.le_zero_iff.mp hle, hqueue]
    · rfl

/-- The head of the queue runs when it is not blocked. -/
theorem ScheduleSpec.head {k : Multilevel} {queueNum : Fin 5} (hactive : k.activeProcesses ≠ 0)
    {pid : Pid} {next : List Pid} (hqueue : k.readyQueues queueNum = pid :: next)
    (hpid : k.state pid ≠ .blocked) : ScheduleSpec k queueNum (k.dispatchAt queueNum pid next) := by
  refine .runs queueNum [] pid next hactive ⟨le_refl _, fun l hlt hle => ?_, hqueue, ?_, hpid⟩ rfl
    rfl fun l => ?_
  · exact absurd hlt (not_lt.mpr hle)
  · exact fun p hp => absurd hp List.not_mem_nil
  · change Function.update k.readyQueues queueNum next l = _
    rw [if_neg fun h => absurd h.1 (not_lt.mpr h.2), Function.update_apply]

/-- `schedule` ends in every state, and leaves behind what it should. The induction
is on its calls: to the level below, or to the same level once a head was dropped. -/
theorem scheduleSpec (k : Multilevel) (queueNum : Fin 5) :
    ScheduleSpec k queueNum (k.schedule queueNum) := by
  fun_induction schedule k queueNum with
  | case1 k queueNum hactive => exact .finished hactive rfl
  | case2 k queueNum hactive hqueue hstop =>
    obtain ⟨rfl, hio⟩ := hstop
    exact .lowest hactive hqueue (if_pos hio).symm rfl rfl
  | case3 k queueNum hactive hqueue _ hnum ih =>
    have hpos : 0 < (queueNum : ℕ) := Nat.pos_of_ne_zero (Fin.val_ne_zero_iff.mpr hnum)
    exact ih.descend (Nat.sub_add_cancel hpos) hqueue
  | case4 k queueNum hactive hqueue hstop hnum =>
    obtain rfl := not_not.mp hnum
    have hio : k.ioProcesses ≠ 0 := fun hio => hstop ⟨rfl, hio⟩
    exact .lowest hactive hqueue (if_neg hio).symm rfl rfl
  | case5 k queueNum hactive pid next hqueue hpid ih => exact ih.drop hactive hqueue hpid
  | case6 k queueNum hactive pid next hqueue hpid => exact .head hactive hqueue hpid

/-- `schedule(4)` in any state with active processes. If some process in the ready
queues is not blocked, the first of them runs, and the queues lose it and the
blocked ones before it; if all are blocked the queues end empty, and the
processor is idle or the kernel halts. -/
theorem schedule_meets_spec (k : Multilevel) (hactive : 0 < k.activeProcesses) :
    ((∃ level, ∃ pid ∈ k.readyQueues level, k.state pid ≠ .blocked) →
      ∃ level dropped pid rest, FirstReady k 4 level dropped pid rest ∧
        (k.schedule 4).toCore =
          { k.toCore.print (.runs k.clock pid) with currentPid := some pid } ∧
        (k.schedule 4).processTable =
          Function.update k.processTable pid { k.processTable pid with state := .running } ∧
        ∀ l, (k.schedule 4).readyQueues l =
          if level < l then [] else if l = level then rest else k.readyQueues l) ∧
    ((∀ level, k.AllBlocked level) →
      (∀ level, (k.schedule 4).readyQueues level = []) ∧
        (k.schedule 4).processTable = k.processTable ∧
        (k.schedule 4).toCore =
          if k.ioProcesses = 0 then k.toCore.exit .deadlockedSystem
          else { k.toCore.print (.idle k.clock) with currentPid := none }) := by
  have hlevels : ∀ level : Fin 5, level ≤ 4 := Fin.le_last
  have hspec := scheduleSpec k 4
  generalize k.schedule 4 = k' at hspec
  cases hspec with
  | finished hnone _ => exact absurd hnone (ne_of_gt hactive)
  | runs level dropped pid rest _ hfirst hcore htable hqueues =>
    refine ⟨fun _ => ⟨level, dropped, pid, rest, hfirst, hcore, htable, fun l => ?_⟩,
      fun hall => ?_⟩
    · simp only [hqueues l, hlevels, and_true]
    · exact absurd (hall level pid hfirst.mem) hfirst.ready
  | nobody _ hblocked hcore htable hqueues =>
    refine ⟨?_, fun _ => ⟨fun l => ?_, htable, hcore⟩⟩
    · rintro ⟨level, pid, hmem, hready⟩
      exact absurd (hblocked level (hlevels level) pid hmem) hready
    · rw [hqueues l, if_pos (hlevels l)]

/-- The kernel after boot, with a blocked process at the head of a ready queue. -/
def behindBlocked (runner blocked pid : Pid) (level : Fin 5) (clock : Word) : Multilevel :=
  (((boot runner clock).setState blocked .blocked).enqueueAt level blocked).enqueueAt level pid

/-- Process 2 runs, which stands behind process 1 in queue 3. -/
theorem schedule_meets_spec_behindBlocked :
    ((behindBlocked 0 1 2 3 0#32).schedule 4).currentPid = some 2 ∧
      ((behindBlocked 0 1 2 3 0#32).schedule 4).readyQueues 3 = [] := by
  have hspec := (schedule_meets_spec (behindBlocked 0 1 2 3 0#32) (by decide)).1
  obtain ⟨level, dropped, pid, rest, hfirst, hcore, _, hqueues⟩ :=
    hspec ⟨3, 2, by decide, by decide⟩
  have hstands : FirstReady (behindBlocked 0 1 2 3 0#32) 4 3 [1] 2 [] :=
    ⟨by decide, by decide, by decide, by decide, by decide⟩
  obtain ⟨rfl, rfl, rfl, rfl⟩ := hfirst.unique hstands
  refine ⟨congrArg Core.currentPid hcore, ?_⟩
  rw [hqueues, if_neg (lt_irrefl _), if_pos rfl]

end Multilevel

end SimOS
