import SimOS.Kernel.RoundRobinRuns

/-!
# The log of Project 1 is complete

What the round-robin kernel prints tells everything it does: the state can be
rebuilt from the printed lines alone, one line at a time. `replay` knows nothing
of events or handlers. What it cannot know is the clock, which goes on while the
kernel prints nothing.
-/

namespace SimOS

open Library

/-- What the log tells about the kernel: its state without the clock. The process
that has just blocked or exited is not the current one any more. -/
@[ext] structure LogView where
  currentPid : Option Pid
  processTable : Pid → ProcessTableEntry
  readyQueue : List Pid
  value : Sem → Word
  waiting : Sem → List Pid
  requests : Device → List Pid
  quantumStart : Word
  activeProcesses : ℤ
  ioProcesses : ℤ
  halted : Option Halt

namespace LogView

def setEntry (v : LogView) (pid : Pid) (entry : ProcessTableEntry) : LogView :=
  { v with processTable := Function.update v.processTable pid entry }

def setValue (v : LogView) (s : Sem) (value : Word) : LogView :=
  { v with value := Function.update v.value s value }

/-- The CPU time of a process when its quantum ends. -/
def total (v : LogView) (pid : Pid) (time : Word) : Word :=
  (v.processTable pid).totalCpuTimeUsed + (time - v.quantumStart)

/-- The process leaves the CPU, and its quantum ends. -/
def leave (v : LogView) (pid : Pid) (state : ProcessState) (time : Word) : LogView :=
  { v.setEntry pid { state := state, totalCpuTimeUsed := v.total pid time } with
    currentPid := none
    quantumStart := time }

/-- The process is ready, behind the others. -/
def join (v : LogView) (pid : Pid) : LogView :=
  { v.setEntry pid { v.processTable pid with state := .ready } with
    readyQueue := v.readyQueue ++ [pid] }

/-- The first process in the ready queue goes on the CPU. -/
def dispatch (v : LogView) (pid : Pid) : LogView :=
  { v.setEntry pid { v.processTable pid with state := .running } with
    currentPid := some pid
    readyQueue := v.readyQueue.tail }

/-- What one line tells. -/
def replay (v : LogView) : Message → LogView
  | .issuesRead device time (some pid) =>
    { v.leave pid .blocked time with
      requests := Function.update v.requests device (v.requests device ++ [pid])
      ioProcesses := v.ioProcesses + 1 }
  | .createsEntry _ pid =>
    { v.setEntry pid { state := .ready, totalCpuTimeUsed := 0#32 } with
      readyQueue := v.readyQueue ++ [pid]
      activeProcesses := v.activeProcesses + 1 }
  | .exits time (some pid) total =>
    { v.setEntry pid { state := .uninitialized, totalCpuTimeUsed := total } with
      currentPid := none
      quantumStart := time
      activeProcesses := v.activeProcesses - 1 }
  | .issuesUp _ _ s =>
    match v.waiting s with
    | pid :: next =>
      if v.value s = 0#32 then { v.join pid with waiting := Function.update v.waiting s next }
      else v.setValue s (v.value s + 1#32)
    | [] => v.setValue s (v.value s + 1#32)
  | .issuesDown time (some pid) s =>
    if v.value s = 0#32 then
      { v.leave pid .blocked time with
        waiting := Function.update v.waiting s (v.waiting s ++ [pid]) }
    else v.setValue s (v.value s - 1#32)
  | .handled device time pid =>
    { v.join pid with
      requests := Function.update v.requests device ((v.requests device).erase pid)
      -- an idle processor starts a quantum for the process that comes back
      quantumStart := if v.currentPid = none then time else v.quantumStart
      ioProcesses := v.ioProcesses - 1 }
  | .idle _ => { v with currentPid := none }
  | .runs time pid =>
    match v.currentPid with
    | none => v.dispatch pid
    -- somebody still had the CPU, so the clock preempted him
    | some old => ((v.leave old .ready time).join old).dispatch pid
  | .halts reason => { v with halted := some reason }
  | _ => v

/-- What is known before the first line. -/
def boot (pid : Pid) (clock : Word) : LogView where
  currentPid := some pid
  processTable := Function.update (fun _ => { state := .uninitialized, totalCpuTimeUsed := 0#32 })
    pid { state := .running, totalCpuTimeUsed := 0#32 }
  readyQueue := []
  value := fun _ => 1#32
  waiting := fun _ => []
  requests := fun _ => []
  quantumStart := clock
  activeProcesses := 1
  ioProcesses := 0
  halted := none

end LogView

namespace RoundRobin

/-- The lines printed along a history, in the order they were printed. -/
def log : List (Event × RoundRobin) → List Message
  | [] => []
  | (_, k) :: h => log h ++ k.output

/-- What can be known of the state, with the given process on the CPU. -/
def viewWith (k : RoundRobin) (run : Option Pid) : LogView where
  currentPid := run
  processTable := k.processTable
  readyQueue := k.readyQueue
  value := fun s => (k.semaphores s).value
  waiting := fun s => (k.semaphores s).waiting
  requests := k.requests
  quantumStart := k.currentQuantumStartTime
  activeProcesses := k.activeProcesses
  ioProcesses := k.ioProcesses
  halted := k.halted

/-- The CPU of a kernel that has exited is nobody's. -/
def view (k : RoundRobin) : LogView :=
  k.viewWith (if k.halted = none then k.currentPid else none)

section Steps

variable {k k' : RoundRobin} {e : Event} {pid : Pid} {s : Sem}

/-- Every call of `schedule` prints one line, which tells where it went. -/
theorem ScheduleCase.replay (h : ScheduleCase k k') (hhalted : k.halted = none) :
    ∃ message, k'.output = k.output ++ [message] ∧ (k.viewWith none).replay message = k'.view := by
  cases h with
  | finished _ => exact ⟨_, rfl, rfl⟩
  | deadlocked _ _ _ => exact ⟨_, rfl, rfl⟩
  | idle _ hqueue _ =>
    refine ⟨_, rfl, ?_⟩
    change LogView.replay _ (.idle k.clock) = viewWith _ (if k.halted = none then none else none)
    rw [hhalted, if_pos rfl]
    rfl
  | runs pid next _ hqueue =>
    refine ⟨_, rfl, ?_⟩
    change LogView.replay _ (.runs k.clock pid) =
      viewWith _ (if k.halted = none then some pid else none)
    rw [hhalted, if_pos rfl]
    refine LogView.ext rfl rfl ?_ rfl rfl rfl rfl rfl rfl rfl
    change k.readyQueue.tail = next
    rw [hqueue]
    rfl

/-- Before an event the lines of the last one are forgotten. -/
theorem viewWith_deliver (hdevice : e.interrupt.device? = none) (run : Option Pid) :
    (k.deliver e).viewWith run = k.viewWith run := by
  have hrequests : (k.deliver e).requests = k.requests := Core.deliver_requests_of_none hdevice
  refine LogView.ext rfl rfl rfl ?_ ?_ hrequests ?_ ?_ ?_ ?_
  · funext s
    exact congrArg (fun semaphores => (semaphores s).value) (Core.deliver_semaphores k.toCore e)
  · funext s
    exact congrArg (fun semaphores => (semaphores s).waiting) (Core.deliver_semaphores k.toCore e)
  · exact Core.deliver_currentQuantumStartTime k.toCore e
  · exact Core.deliver_activeProcesses k.toCore e
  · exact Core.deliver_ioProcesses k.toCore e
  · exact Core.deliver_halted k.toCore e

/-- Leaving the CPU writes the state and the CPU time of a process, in any order. -/
theorem processTable_leave (k : RoundRobin) (pid : Pid) (state : ProcessState) :
    ((k.setState pid state).addCpuTime pid).processTable =
      Function.update k.processTable pid
        { state := state
          totalCpuTimeUsed := (k.processTable pid).totalCpuTimeUsed + k.elapsed } := by
  change Function.update (Function.update k.processTable pid _) pid _ = _
  have hentry : (k.setState pid state).processTable pid =
      { k.processTable pid with state := state } := Function.update_self _ _ _
  rw [Function.update_idem, hentry]
  rfl

theorem replay_issueRead (device : Device) :
    (k.viewWith (some pid)).replay (.issuesRead device k.clock (some pid)) =
      (k.issueRead device pid).viewWith none :=
  LogView.ext rfl (processTable_leave k pid .blocked).symm rfl rfl rfl rfl rfl rfl rfl rfl

theorem replay_createProcess (run : Option Pid) :
    (k.viewWith run).replay (.createsEntry k.clock pid) = (k.createProcess pid).viewWith run :=
  LogView.ext rfl rfl rfl rfl rfl rfl rfl rfl rfl rfl

/-- The line of an exit has the CPU time the table has. -/
theorem replay_endProcess :
    (k.viewWith (some pid)).replay (.exits k.clock (some pid)
      ((k.processTable pid).totalCpuTimeUsed + k.elapsed)) =
      (k.endProcess pid).viewWith none :=
  LogView.ext rfl (processTable_leave k pid .uninitialized).symm rfl rfl rfl rfl rfl rfl rfl rfl

theorem output_endProcess : (k.endProcess pid).output =
    k.output ++
      [.exits k.clock (some pid) ((k.processTable pid).totalCpuTimeUsed + k.elapsed)] := by
  change k.output ++ [Message.exits k.clock (some pid)
    ((((k.setState pid .uninitialized).addCpuTime pid).processTable pid).totalCpuTimeUsed)] = _
  rw [processTable_leave, Function.update_self]

/-! ### Lines about a semaphore -/

theorem value_setSemaphore (k : RoundRobin) (s : Sem) (sem : Semaphore) :
    (fun t => ((k.setSemaphore s sem).semaphores t).value) =
      Function.update (fun t => (k.semaphores t).value) s sem.value :=
  Function.comp_update Semaphore.value k.semaphores s sem

theorem waiting_setSemaphore (k : RoundRobin) (s : Sem) (sem : Semaphore) :
    (fun t => ((k.setSemaphore s sem).semaphores t).waiting) =
      Function.update (fun t => (k.semaphores t).waiting) s sem.waiting :=
  Function.comp_update Semaphore.waiting k.semaphores s sem

/-- Writing back what is there changes nothing. -/
theorem update_same {α : Type} {f : Sem → α} {a : α} (h : a = f s) : Function.update f s a = f := by
  rw [h, Function.update_eq_self]

theorem replay_pass (run : Option Pid) (hvalue : (k.semaphores s).value ≠ 0#32) (time : Word)
    {caller : Option Pid} (hcaller : caller ≠ none) :
    (k.viewWith run).replay (.issuesDown time caller s) =
      ((k.announceDown s).setSemaphore s (k.semaphores s).decrement).viewWith run := by
  obtain ⟨pid, rfl⟩ := Option.ne_none_iff_exists'.mp hcaller
  refine (if_neg hvalue).trans ?_
  refine LogView.ext rfl rfl rfl ?_ ?_ rfl rfl rfl rfl rfl
  · exact (value_setSemaphore k s (k.semaphores s).decrement).symm
  · exact ((waiting_setSemaphore k s (k.semaphores s).decrement).trans (update_same rfl)).symm

theorem replay_wait (hvalue : (k.semaphores s).value = 0#32) :
    (k.viewWith (some pid)).replay (.issuesDown k.clock (some pid) s) =
      ((k.announceDown s).waitFor s pid).viewWith none := by
  refine (if_pos hvalue).trans ?_
  refine LogView.ext rfl (processTable_leave k pid .blocked).symm rfl ?_ ?_ rfl rfl rfl rfl rfl
  · exact ((value_setSemaphore k s ((k.semaphores s).enqueue pid)).trans (update_same rfl)).symm
  · exact (waiting_setSemaphore k s ((k.semaphores s).enqueue pid)).symm

theorem replay_release (run : Option Pid)
    (hfree : (k.semaphores s).value ≠ 0#32 ∨ (k.semaphores s).waiting = []) (time : Word)
    (caller : Option Pid) :
    (k.viewWith run).replay (.issuesUp time caller s) =
      ((k.announceUp s).setSemaphore s (k.semaphores s).increment).viewWith run := by
  have hcount : (k.viewWith run).setValue s ((k.semaphores s).value + 1#32) =
      ((k.announceUp s).setSemaphore s (k.semaphores s).increment).viewWith run := by
    refine LogView.ext rfl rfl rfl ?_ ?_ rfl rfl rfl rfl rfl
    · exact (value_setSemaphore k s (k.semaphores s).increment).symm
    · exact ((waiting_setSemaphore k s (k.semaphores s).increment).trans (update_same rfl)).symm
  rw [← hcount]
  change (match (k.semaphores s).waiting with | pid :: next => _ | [] => _) = _
  cases hwaiting : (k.semaphores s).waiting with
  | nil => rfl
  | cons pid next =>
    rw [hwaiting] at hfree
    exact if_neg (hfree.resolve_right (List.cons_ne_nil _ _))

theorem replay_wake (run : Option Pid) {next : List Pid} (hvalue : (k.semaphores s).value = 0#32)
    (hwaiting : (k.semaphores s).waiting = pid :: next) (time : Word) (caller : Option Pid) :
    (k.viewWith run).replay (.issuesUp time caller s) =
      (((k.announceUp s).setSemaphore s { k.semaphores s with readyQueue := some next }).wake
        pid).viewWith run := by
  change (match (k.semaphores s).waiting with | pid :: next => _ | [] => _) = _
  rw [hwaiting]
  refine (if_pos hvalue).trans ?_
  refine LogView.ext rfl rfl rfl ?_ ?_ rfl rfl rfl rfl rfl
  · have hvalue := value_setSemaphore k s { k.semaphores s with readyQueue := some next }
    exact (hvalue.trans (update_same rfl)).symm
  · exact (waiting_setSemaphore k s { k.semaphores s with readyQueue := some next }).symm

/-! ### Lines about preemption and devices -/

theorem view_of_runs (hhalted : k.halted = none) : k.view = k.viewWith k.currentPid := by
  rw [view, if_pos hhalted]

theorem view_restartQuantum (hhalted : k.halted = none) :
    k.restartQuantum.view = { k.view with quantumStart := k.clock } := by
  rw [restartQuantum, if_pos hhalted]
  rfl

/-- The process that is preempted leaves the CPU and joins the ready queue. -/
theorem viewWith_preempt :
    ((k.viewWith (some pid)).leave pid .ready k.clock).join pid =
      { (k.preempt pid).viewWith none with quantumStart := k.clock } := by
  refine LogView.ext rfl ?_ rfl rfl rfl rfl rfl rfl rfl rfl
  refine Eq.trans ?_ (processTable_leave k pid .ready).symm
  change Function.update (Function.update k.processTable pid _) pid
    { Function.update k.processTable pid _ pid with state := ProcessState.ready } = _
  rw [Function.update_idem, Function.update_self]
  rfl

/-- The line that follows a preemption tells of it, since the ready queue is not
empty then and `schedule` dispatches. -/
theorem replay_preempt (hactive : k.activeProcesses ≠ 0) (hhalted : k.halted = none)
    (h : ScheduleCase (k.preempt pid) k') : ∃ message,
      k'.restartQuantum.output = k.output ++ [message] ∧
        (k.viewWith (some pid)).replay message = k'.restartQuantum.view := by
  have hne : (k.preempt pid).readyQueue ≠ [] := List.concat_ne_nil _ _
  have hdispatch : ∃ first, k'.output = k.output ++ [.runs k.clock first] ∧ k'.halted = none ∧
      k'.clock = k.clock := by
    cases h with
    | finished hzero => exact absurd hzero hactive
    | deadlocked _ hnil _ => exact absurd hnil hne
    | idle _ hnil _ => exact absurd hnil hne
    | runs first next _ _ => exact ⟨first, rfl, hhalted, rfl⟩
  obtain ⟨first, hfirst, hruns, hclock⟩ := hdispatch
  obtain ⟨message, hout, hview⟩ := h.replay hhalted
  obtain rfl : message = .runs k.clock first :=
    (List.cons.inj (List.append_cancel_left (hout.symm.trans hfirst))).1
  refine ⟨.runs k.clock first, ?_, ?_⟩
  · rw [restartQuantum, if_pos hruns]
    exact hout
  · rw [view_restartQuantum hruns, ← hview, hclock]
    change (((k.viewWith (some pid)).leave pid .ready k.clock).join pid).dispatch first = _
    rw [viewWith_preempt]
    rfl

/-- The line of an interrupt tells that the process is ready. -/
theorem replay_finishRead {device : Device} (hdevice : e.interrupt.device? = some device)
    (hR1 : e.R1 = (pid : ℕ)) (run : Option Pid) :
    (k.viewWith run).replay (.handled device (k.deliver e).clock pid) =
      { ((k.deliver e).finishRead device pid).viewWith run with
        quantumStart :=
          if run = none then (k.deliver e).clock else k.currentQuantumStartTime } := by
  have hrequests : (k.deliver e).requests =
      Function.update k.requests device ((k.requests device).erase pid) :=
    Core.deliver_requests_of_some hdevice hR1
  refine LogView.ext rfl rfl rfl ?_ ?_ hrequests.symm rfl ?_ ?_ ?_
  · funext s
    exact congrArg (fun semaphores => (semaphores s).value)
      (Core.deliver_semaphores k.toCore e).symm
  · funext s
    exact congrArg (fun semaphores => (semaphores s).waiting)
      (Core.deliver_semaphores k.toCore e).symm
  · exact (Core.deliver_activeProcesses k.toCore e).symm
  · exact congrArg (· - 1) (Core.deliver_ioProcesses k.toCore e).symm
  · exact (Core.deliver_halted k.toCore e).symm

/-- Lines about disk writes tell nothing. -/
theorem replay_diskWrites {messages : List Message} (h : Core.DiskWrites messages) (v : LogView) :
    messages.foldl LogView.replay v = v := by
  induction messages with
  | nil => rfl
  | cons message messages ih =>
    obtain ⟨time, caller, rfl⟩ := h _ List.mem_cons_self
    exact ih fun m hm => h m (List.mem_cons_of_mem _ hm)

theorem replay_line (hhalted : k.halted = none) {v : LogView} {message : Message}
    (houtput : k.output = [message]) (hview : v.replay message = k.viewWith k.currentPid) :
    k.output.foldl LogView.replay v = k.view := by
  rw [houtput, view_of_runs hhalted]
  exact hview

/-- After `schedule` the lines tell where it went. -/
theorem Vacant.replay_schedule (hk : k.Vacant) {v : LogView} {message : Message}
    (houtput : k.output = [message]) (hview : v.replay message = k.viewWith none) :
    k.schedule.output.foldl LogView.replay v = k.schedule.view := by
  obtain ⟨next, hout, htold⟩ := hk.scheduleCase.replay hk.halted
  rw [hout, houtput, List.singleton_append, List.foldl_cons, hview]
  exact htold

/-- What an event prints tells what it does. -/
theorem Effect.replay (hk : k.Inv) (hhalted : k.halted = none) (h : Effect k e k') :
    k'.output.foldl LogView.replay k.view = k'.view := by
  have houtput : (k.deliver e).output = [] := Core.deliver_output k.toCore e
  have hruns : (k.deliver e).halted = none := deliver_halted_of_none hhalted e
  have hcurrent' : (k.deliver e).currentPid = k.currentPid := Core.deliver_currentPid k.toCore e
  have hsemaphores : ∀ s, k.semaphores s = (k.deliver e).semaphores s :=
    fun s => congrFun (Core.deliver_semaphores k.toCore e).symm s
  rw [view_of_runs hhalted]
  cases h with
  | quiet messages hdevice _ hmessages _ _ _ =>
    refine (replay_diskWrites hmessages _).trans ?_
    rw [← viewWith_deliver hdevice, ← hcurrent', ← view_of_runs hruns]
    rfl
  | read device pid hdevice _ hcurrent _ _ =>
    rw [hcurrent, ← viewWith_deliver hdevice]
    refine (hk.vacant_issueRead hhalted hdevice hcurrent device).replay_schedule ?_
      (replay_issueRead device)
    exact congrArg (· ++ [_]) houtput
  | fork runner pid hdevice _ _ _ _ =>
    rw [← viewWith_deliver hdevice, ← hcurrent']
    apply replay_line
    · exact hruns
    · exact congrArg (· ++ [_]) houtput
    · exact replay_createProcess _
  | kill pid hdevice _ hcurrent _ =>
    rw [hcurrent, ← viewWith_deliver hdevice]
    refine (hk.vacant_endProcess hhalted hdevice hcurrent).replay_schedule ?_ replay_endProcess
    rw [output_endProcess, houtput]
    rfl
  | wake s runner pid next hdevice _ _ _ _ hvalue hwaiting =>
    rw [hsemaphores s] at hvalue hwaiting ⊢
    rw [← viewWith_deliver hdevice, ← hcurrent']
    apply replay_line
    · exact hruns
    · exact congrArg (· ++ [_]) houtput
    · exact replay_wake _ hvalue hwaiting _ _
  | release s runner hdevice _ _ _ _ hfree =>
    rw [hsemaphores s] at hfree ⊢
    rw [← viewWith_deliver hdevice, ← hcurrent']
    apply replay_line
    · exact hruns
    · exact congrArg (· ++ [_]) houtput
    · exact replay_release _ hfree _ _
  | pass s runner hdevice _ _ _ hcurrent hvalue =>
    have hcaller : (k.deliver e).currentPid ≠ none := by
      rw [hcurrent', hcurrent]
      exact Option.some_ne_none runner
    rw [hsemaphores s] at hvalue ⊢
    rw [← viewWith_deliver hdevice, ← hcurrent']
    apply replay_line
    · exact hruns
    · exact congrArg (· ++ [_]) houtput
    · exact replay_pass _ hvalue _ hcaller
  | wait s pid hdevice _ _ _ hvalue hcurrent =>
    rw [hsemaphores s] at hvalue
    rw [hcurrent, ← viewWith_deliver hdevice]
    refine (hk.vacant_waitFor hhalted hdevice hcurrent s).replay_schedule ?_ (replay_wait hvalue)
    rw [← hcurrent, ← hcurrent']
    exact congrArg (· ++ [_]) houtput
  | preempt pid hdevice _ hcurrent _ _ =>
    have hvacant := hk.vacant_preempt hhalted hdevice hcurrent
    have hactive : (k.deliver e).activeProcesses ≠ 0 :=
      hvacant.census.active_ne_zero (.ready ())
        (List.mem_append_right _ (List.mem_singleton_self pid))
    obtain ⟨message, hout, htold⟩ := replay_preempt hactive hruns hvacant.scheduleCase
    rw [hcurrent, ← viewWith_deliver hdevice, hout, houtput]
    exact htold
  | answer device pid hdevice _ hR1 hrequest =>
    have htold := replay_finishRead (k := k) hdevice hR1 k.currentPid
    have hout : ((k.deliver e).finishRead device pid).output =
        [.handled device (k.deliver e).clock pid] := congrArg (· ++ [_]) houtput
    rw [scheduleIfIdle]
    by_cases hidle : k.currentPid = none
    · have hready := hk.census_finishRead hhalted hdevice hR1 hrequest
      rw [hidle] at hready htold
      rw [if_pos (show ((k.deliver e).finishRead device pid).currentPid = none from
        hcurrent'.trans hidle), hidle]
      apply Vacant.replay_schedule
      · exact ⟨hready, hruns, hk.discarded⟩
      · exact hout
      · rw [htold, if_pos rfl]
        rfl
    · rw [if_neg (show ((k.deliver e).finishRead device pid).currentPid ≠ none from
        fun h => hidle (hcurrent'.symm.trans h))]
      apply replay_line
      · exact hruns
      · exact hout
      · rw [htold, if_neg hidle, ← hcurrent']
        refine LogView.ext rfl rfl rfl rfl rfl rfl ?_ rfl rfl rfl
        exact (Core.deliver_currentQuantumStartTime k.toCore e).symm

end Steps

/-! ## Runs -/

/-- A run from the state after `initialize_kernel` with this process and clock. -/
def RunFromBoot (pid : Pid) (clock : Word) : List (Event × RoundRobin) → RoundRobin → Prop :=
  Run (· = boot pid clock) fun _ k e k' => k.Step e k'

theorem view_boot (pid : Pid) (clock : Word) : (boot pid clock).view = LogView.boot pid clock := rfl

theorem RunFromBoot.kernelRun {pid : Pid} {clock : Word} {h : List (Event × RoundRobin)}
    {k : RoundRobin} (hrun : RunFromBoot pid clock h k) : KernelRun h k :=
  hrun.mono (fun _ hs => booted_iff.mpr ⟨pid, clock, hs⟩) fun _ _ _ _ hs => hs

/-- The log is complete: once it is known which process was booted and when, the lines
printed so far, read one after the other, give the whole state of the kernel but for
the clock: the process on the CPU, the states and CPU times, the order of every queue,
the semaphores, the outstanding reads, the start of the quantum and the counters. -/
theorem log_complete {pid : Pid} {clock : Word} {h : List (Event × RoundRobin)} {k : RoundRobin}
    (hrun : RunFromBoot pid clock h k) :
    (log h).foldl LogView.replay (LogView.boot pid clock) = k.view := by
  refine Run.invariant
    (P := fun h k => (log h).foldl LogView.replay (LogView.boot pid clock) = k.view) ?_ ?_ hrun
  · rintro k rfl
    exact (view_boot pid clock).symm
  · intro h k e k' hprev ih hstep
    rw [log, List.foldl_append, ih]
    exact hstep.effect.replay (RunFromBoot.kernelRun hprev).inv hstep.1.1

/-- The line that process 1 is created is enough to know that it is ready. -/
theorem log_complete_forkOne :
    ([Message.createsEntry 5#32 1].foldl LogView.replay (LogView.boot 0 0#32)) =
      (((boot 0 0#32).deliver .forkOne).createProcess 1).view := by
  have hrun : RunFromBoot 0 0#32 [(.forkOne, ((boot 0 0#32).deliver .forkOne).createProcess 1)]
      (((boot 0 0#32).deliver .forkOne).createProcess 1) :=
    .next (.start rfl) ⟨legal_forkOne 0#32, rfl⟩
  exact log_complete hrun

end RoundRobin

end SimOS
