import SimOS.Kernel.Machine
import SimOS.Library.Placement

/-!
# Where the processes are

A process that lives is on the CPU, in a ready queue, waiting for a device, or
waiting for a semaphore; what its entry in the process table says follows from
where it is. A census lists the occupants of each place with the states and the
two counters, and everything the kernels do to processes is to relocate one of
them at a time.

`L` are the levels of the ready queues: one in the round-robin kernel, five in
the multilevel kernel.
-/

namespace SimOS

open Library

/-- The places a process can be in. -/
inductive Place (L : Type)
  | cpu
  | ready (level : L)
  | device (device : Device)
  | semaphore (s : Sem)
  deriving DecidableEq

variable {L : Type}

namespace Place

/-- The state of the processes in a place; outside of all of them is nobody. -/
def state : Option (Place L) → ProcessState
  | none => .uninitialized
  | some .cpu => .running
  | some (.ready _) => .ready
  | some (.device _) => .blocked
  | some (.semaphore _) => .blocked

/-- A process in this place has an outstanding read. -/
def reads : Option (Place L) → ℤ
  | some (.device _) => 1
  | _ => 0

/-- A process in this place lives. -/
def lives : Option (Place L) → ℤ
  | some _ => 1
  | none => 0

theorem state_eq_uninitialized_iff {place : Option (Place L)} :
    state place = .uninitialized ↔ place = none := by
  rcases place with _ | ⟨_ | _ | _ | _⟩ <;> simp [state]

end Place

/-- The occupants of each place, with the process table and the counters. -/
@[ext]
structure Census (L : Type) where
  occupants : Place L → List Pid
  state : Pid → ProcessState
  active : ℤ
  io : ℤ

namespace Census

variable [DecidableEq L]

/-- One process leaves a place and joins another; `none` is outside. -/
def relocate (c : Census L) (pid : Pid) (src dst : Option (Place L)) : Census L where
  occupants := Library.relocate c.occupants pid src dst
  state := Function.update c.state pid (Place.state dst)
  active := c.active + Place.lives dst - Place.lives src
  io := c.io + Place.reads dst - Place.reads src

/-- Every process is where `pos` says, with the state that goes with the place,
and the counters count the living and those with an outstanding read. -/
structure At (c : Census L) (pos : Pid → Option (Place L)) : Prop where
  placed : Placed c.occupants pos
  state : ∀ pid, c.state pid = Place.state (pos pid)
  active : c.active = (Finset.univ.filter fun pid => pos pid ≠ none).card
  io : c.io = (c.occupants (.device .disk)).length + (c.occupants (.device .keyboard)).length

/-- Every process is somewhere, in one place only. -/
def Inv (c : Census L) : Prop := ∃ pos, c.At pos

/-- The process is in this place, or outside of all of them. -/
def In (c : Census L) (pid : Pid) : Option (Place L) → Prop
  | some place => pid ∈ c.occupants place
  | none => c.state pid = .uninitialized

theorem At.pos_eq {c : Census L} {pos : Pid → Option (Place L)} (h : c.At pos) {pid : Pid}
    {place : Option (Place L)} (hin : c.In pid place) : pos pid = place := by
  cases place with
  | none =>
    have hstate : c.state pid = .uninitialized := hin
    rw [h.state] at hstate
    exact Place.state_eq_uninitialized_iff.mp hstate
  | some place => exact h.placed.mem_iff.mp hin

/-- The occupants of a place have its state. -/
theorem Inv.state_of_mem {c : Census L} (h : c.Inv) {pid : Pid} (place : Place L)
    (hin : pid ∈ c.occupants place) : c.state pid = Place.state (some place) := by
  obtain ⟨pos, hat⟩ := h
  rw [hat.state, hat.placed.mem_iff.mp hin]

/-- Relocating a process to another place keeps the census in order. -/
theorem Inv.relocate {c : Census L} (h : c.Inv) (pid : Pid) (src dst : Option (Place L))
    (hin : c.In pid src) (hne : src ≠ dst) : (c.relocate pid src dst).Inv := by
  obtain ⟨pos, hat⟩ := h
  have hpos := hat.pos_eq hin
  refine ⟨Function.update pos pid dst, ⟨hat.placed.relocate hpos hne, ?_, ?_, ?_⟩⟩
  · intro p
    change Function.update c.state pid (Place.state dst) p =
      Place.state (Function.update pos pid dst p)
    by_cases hp : p = pid
    · rw [hp, Function.update_self, Function.update_self]
    · rw [Function.update_of_ne hp, Function.update_of_ne hp]
      exact hat.state p
  · have hcount := card_filter_update pos (· ≠ none) pid dst
    rw [hpos] at hcount
    change c.active + Place.lives dst - Place.lives src = _
    rw [hat.active]
    cases src <;> cases dst <;> simp [Place.lives] at hcount hne ⊢ <;> omega
  · have hdisk := hat.placed.length_relocate hpos hne (.device .disk)
    have hkeyboard := hat.placed.length_relocate hpos hne (.device .keyboard)
    change c.io + Place.reads dst - Place.reads src = _
    -- the reads of a place are the two device queues it can be
    have hreads : ∀ place : Option (Place L), Place.reads place =
        (if place = some (.device .disk) then 1 else 0) +
          (if place = some (.device .keyboard) then 1 else 0) := by
      intro place
      rcases place with _ | ⟨_ | _ | ⟨_ | _⟩ | _⟩ <;> simp [Place.reads]
    rw [hat.io, hreads, hreads]
    change _ = ((Library.relocate c.occupants pid src dst (.device .disk)).length : ℤ) +
      ((Library.relocate c.occupants pid src dst (.device .keyboard)).length : ℤ)
    split_ifs at hdisk hkeyboard ⊢ <;> omega

/-- Everybody who lives is in one place, once, and has its state; the others are
in none. -/
theorem Inv.accounted {c : Census L} (h : c.Inv) :
    (∀ pid, c.state pid ≠ .uninitialized → ∃ place, c.state pid = Place.state (some place) ∧
      ∀ other, (c.occupants other).count pid = if other = place then 1 else 0) ∧
    (∀ pid, c.state pid = .uninitialized → ∀ place, pid ∉ c.occupants place) ∧
    c.active = (Finset.univ.filter fun pid => c.state pid ≠ .uninitialized).card ∧
    c.io = (c.occupants (.device .disk)).length + (c.occupants (.device .keyboard)).length := by
  obtain ⟨pos, hat⟩ := h
  have hlives : ∀ pid, c.state pid = .uninitialized ↔ pos pid = none := by
    intro pid
    rw [hat.state]
    exact Place.state_eq_uninitialized_iff
  refine ⟨fun pid hpid => ?_, fun pid hpid place hmem => ?_, ?_, hat.io⟩
  · obtain ⟨place, hplace⟩ := Option.ne_none_iff_exists'.mp fun hnone =>
      hpid ((hlives pid).mpr hnone)
    refine ⟨place, by rw [hat.state, hplace], fun other => ?_⟩
    rw [hat.placed pid other, hplace]
    by_cases hother : other = place
    · rw [if_pos hother, if_pos (by rw [hother])]
    · rw [if_neg hother, if_neg fun heq => hother (Option.some.inj heq).symm]
  · have hnone := (hlives pid).mp hpid
    rw [hat.placed.mem_iff.mp hmem] at hnone
    cases hnone
  · rw [hat.active]
    simp only [ne_eq, hlives]

/-- While somebody is somewhere the counter of live processes is not 0. -/
theorem Inv.active_ne_zero {c : Census L} (h : c.Inv) {pid : Pid} (place : Place L)
    (hin : pid ∈ c.occupants place) : c.active ≠ 0 := by
  have hlive : c.state pid ≠ .uninitialized := fun hfree => h.accounted.2.1 pid hfree place hin
  have hpos : 0 < (Finset.univ.filter fun pid => c.state pid ≠ .uninitialized).card := by
    apply Finset.card_pos.mpr
    refine ⟨pid, ?_⟩
    rw [Finset.mem_filter]
    exact ⟨Finset.mem_univ pid, hlive⟩
  rw [h.accounted.2.2.1]
  omega

end Census

/-! ## The moves of the kernels -/

namespace Core

/-- The census of a kernel: what runs and the ready queues are given, the other
places are in the shared part of its state. -/
def census (c : Core) (run : Option Pid) (ready : L → List Pid) (state : Pid → ProcessState) :
    Census L where
  occupants
    | .cpu => run.toList
    | .ready level => ready level
    | .device device => c.requests device
    | .semaphore s => (c.semaphores s).waiting
  state := state
  active := c.activeProcesses
  io := c.ioProcesses

variable [DecidableEq L] {c c' : Core} {ready : L → List Pid} {state : Pid → ProcessState}
  {pid : Pid}

/-- The process on the CPU is in state `RUNNING`. -/
theorem state_running {run : Option Pid} (hinv : (c.census run ready state).Inv)
    (hrun : run = some pid) : state pid = .running := by
  refine hinv.state_of_mem .cpu ?_
  change pid ∈ run.toList
  rw [hrun]
  exact List.mem_singleton_self pid

/-- The head of a ready queue is in state `READY`. -/
theorem state_ready {run : Option Pid} (hinv : (c.census run ready state).Inv) {level : L}
    {next : List Pid} (hready : ready level = pid :: next) : state pid = .ready := by
  refine hinv.state_of_mem (.ready level) ?_
  change pid ∈ ready level
  rw [hready]
  exact List.mem_cons_self

/-- The head of the queue of a semaphore is in state `BLOCKED`. -/
theorem state_waiting {run : Option Pid} (hinv : (c.census run ready state).Inv) {s : Sem}
    {next : List Pid} (hwaiting : (c.semaphores s).waiting = pid :: next) :
    state pid = .blocked := by
  refine hinv.state_of_mem (.semaphore s) ?_
  change pid ∈ (c.semaphores s).waiting
  rw [hwaiting]
  exact List.mem_cons_self

/-- A census that differs by one relocation is in order too. -/
theorem inv_of_eq_relocate {m m' : Census L} (hinv : m.Inv) (pid : Pid) (src dst : Option (Place L))
    (hin : m.In pid src) (hne : src ≠ dst)
    (hoccupants : ∀ place, m'.occupants place = relocate m.occupants pid src dst place)
    (hstate : m'.state = Function.update m.state pid (Place.state dst))
    (hactive : m'.active = m.active + Place.lives dst - Place.lives src)
    (hio : m'.io = m.io + Place.reads dst - Place.reads src) : m'.Inv := by
  have hmove : m' = m.relocate pid src dst :=
    Census.ext (funext hoccupants) hstate hactive hio
  rw [hmove]
  exact hinv.relocate pid src dst hin hne

/-- The running process asks a device for a read. -/
theorem inv_block_device (hinv : (c.census (some pid) ready state).Inv) (device : Device)
    (hrequests : c'.requests = Function.update c.requests device (c.requests device ++ [pid]))
    (hsemaphores : c'.semaphores = c.semaphores)
    (hactive : c'.activeProcesses = c.activeProcesses)
    (hio : c'.ioProcesses = c.ioProcesses + 1) :
    (c'.census none ready (Function.update state pid .blocked)).Inv := by
  refine inv_of_eq_relocate hinv pid (some .cpu) (some (.device device))
    (by simp [Census.In, census]) (by simp) (fun place => ?_) rfl ?_ ?_
  · cases place with
    | device d => by_cases hd : d = device <;> simp [census, relocate, hrequests, hd, Ne.symm]
    | _ => simp [census, relocate, hsemaphores]
  · simp [census, Place.lives, hactive]
  · simp [census, Place.reads, hio]

/-- The running process joins the queue of a semaphore. -/
theorem inv_block_semaphore (hinv : (c.census (some pid) ready state).Inv) (s : Sem)
    (hsemaphores : c'.semaphores = Function.update c.semaphores s ((c.semaphores s).enqueue pid))
    (hrequests : c'.requests = c.requests)
    (hactive : c'.activeProcesses = c.activeProcesses)
    (hio : c'.ioProcesses = c.ioProcesses) :
    (c'.census none ready (Function.update state pid .blocked)).Inv := by
  refine inv_of_eq_relocate hinv pid (some .cpu) (some (.semaphore s)) (by simp [Census.In, census])
    (by simp) (fun place => ?_) rfl ?_ ?_
  · cases place with
    | semaphore t =>
      by_cases ht : t = s <;> simp [census, relocate, hsemaphores, ht, Ne.symm]
    | _ => simp [census, relocate, hrequests]
  · simp [census, Place.lives, hactive]
  · simp [census, Place.reads, hio]

/-- The running process exits. -/
theorem inv_kill (hinv : (c.census (some pid) ready state).Inv)
    (hrequests : c'.requests = c.requests)
    (hsemaphores : c'.semaphores = c.semaphores)
    (hactive : c'.activeProcesses = c.activeProcesses - 1)
    (hio : c'.ioProcesses = c.ioProcesses) :
    (c'.census none ready (Function.update state pid .uninitialized)).Inv := by
  refine inv_of_eq_relocate hinv pid (some .cpu) none (by simp [Census.In, census])
    (by simp) (fun place => ?_) rfl ?_ ?_
  · cases place <;> simp [census, relocate, hrequests, hsemaphores]
  · simp [census, Place.lives, hactive]
  · simp [census, Place.reads, hio]

/-- `enqueue` on the ready queue of a level. -/
def enqueueReady (ready : L → List Pid) (level : L) (pid : Pid) : L → List Pid :=
  Function.update ready level (enqueue (ready level) pid)

/-- For the ready queues, joining one of them from elsewhere is a relocation. -/
theorem census_enqueueReady {run run' : Option Pid} {state' : Pid → ProcessState}
    (src : Option (Place L)) (hsrc : ∀ l, src ≠ some (.ready l)) (level l : L) :
    (c'.census run' (enqueueReady ready level pid) state').occupants (.ready l) =
      relocate (c.census run ready state).occupants pid src (some (.ready level)) (.ready l) := by
  rw [relocate, if_neg (hsrc l)]
  change Function.update ready level (enqueue (ready level) pid) l = if _ then ready l ++ [pid]
    else ready l
  by_cases hl : l = level
  · rw [hl, Function.update_self, if_pos rfl]
    rfl
  · have hne : ¬(some (Place.ready level) : Option (Place L)) = some (.ready l) := by
      rintro ⟨⟩
      exact hl rfl
    rw [Function.update_of_ne hl, if_neg hne]

/-- A new process is ready. -/
theorem inv_fork {run : Option Pid} (hinv : (c.census run ready state).Inv) (level : L)
    (hfree : state pid = .uninitialized) (hrequests : c'.requests = c.requests)
    (hsemaphores : c'.semaphores = c.semaphores)
    (hactive : c'.activeProcesses = c.activeProcesses + 1)
    (hio : c'.ioProcesses = c.ioProcesses) :
    (c'.census run (enqueueReady ready level pid) (Function.update state pid .ready)).Inv := by
  refine inv_of_eq_relocate hinv pid none (some (.ready level)) hfree (by simp)
    (fun place => ?_) rfl ?_ ?_
  · cases place with
    | ready l => exact census_enqueueReady none nofun level l
    | _ => simp [census, relocate, hrequests, hsemaphores]
  · simp [census, Place.lives, hactive]
  · simp [census, Place.reads, hio]

/-- The process that waited longest for a semaphore is ready. -/
theorem inv_wake {run : Option Pid} (hinv : (c.census run ready state).Inv) (level : L) (s : Sem)
    {next : List Pid} (hwaiting : (c.semaphores s).waiting = pid :: next)
    (hsemaphores : c'.semaphores = Function.update c.semaphores s
      { c.semaphores s with readyQueue := some next })
    (hrequests : c'.requests = c.requests)
    (hactive : c'.activeProcesses = c.activeProcesses)
    (hio : c'.ioProcesses = c.ioProcesses) :
    (c'.census run (enqueueReady ready level pid) (Function.update state pid .ready)).Inv := by
  refine inv_of_eq_relocate hinv pid (some (.semaphore s)) (some (.ready level))
    (by simp [Census.In, census, hwaiting]) (by simp) (fun place => ?_) rfl ?_ ?_
  · cases place with
    | ready l => exact census_enqueueReady (some (.semaphore s)) nofun level l
    | semaphore t =>
      have hnext : ({ c.semaphores s with readyQueue := some next } : Semaphore).waiting = next :=
        rfl
      by_cases ht : t = s <;> simp [census, relocate, hsemaphores, hwaiting, hnext, ht, Ne.symm]
    | _ => simp [census, relocate, hrequests]
  · simp [census, Place.lives, hactive]
  · simp [census, Place.reads, hio]

/-- A process whose read was answered is ready. -/
theorem inv_answer {run : Option Pid} (hinv : (c.census run ready state).Inv) (level : L)
    (device : Device) (hpid : pid ∈ c.requests device)
    (hrequests : c'.requests = Function.update c.requests device ((c.requests device).erase pid))
    (hsemaphores : c'.semaphores = c.semaphores)
    (hactive : c'.activeProcesses = c.activeProcesses)
    (hio : c'.ioProcesses = c.ioProcesses - 1) :
    (c'.census run (enqueueReady ready level pid) (Function.update state pid .ready)).Inv := by
  refine inv_of_eq_relocate hinv pid (some (.device device)) (some (.ready level)) hpid (by simp)
    (fun place => ?_) rfl ?_ ?_
  · cases place with
    | ready l => exact census_enqueueReady (some (.device device)) nofun level l
    | device d => by_cases hd : d = device <;> simp [census, relocate, hrequests, hd, Ne.symm]
    | _ => simp [census, relocate, hsemaphores]
  · simp [census, Place.lives, hactive]
  · simp [census, Place.reads, hio]

/-- The running process is put back. -/
theorem inv_preempt (hinv : (c.census (some pid) ready state).Inv) (level : L)
    (hrequests : c'.requests = c.requests) (hsemaphores : c'.semaphores = c.semaphores)
    (hactive : c'.activeProcesses = c.activeProcesses)
    (hio : c'.ioProcesses = c.ioProcesses) :
    (c'.census none (enqueueReady ready level pid) (Function.update state pid .ready)).Inv := by
  refine inv_of_eq_relocate hinv pid (some .cpu) (some (.ready level)) (by simp [Census.In, census])
    (by simp) (fun place => ?_) rfl ?_ ?_
  · cases place with
    | ready l => exact census_enqueueReady (some .cpu) nofun level l
    | _ => simp [census, relocate, hrequests, hsemaphores]
  · simp [census, Place.lives, hactive]
  · simp [census, Place.reads, hio]

/-- The head of a ready queue runs. -/
theorem inv_dispatch (hinv : (c.census none ready state).Inv) (level : L) {next : List Pid}
    (hready : ready level = pid :: next) (hrequests : c'.requests = c.requests)
    (hsemaphores : c'.semaphores = c.semaphores)
    (hactive : c'.activeProcesses = c.activeProcesses)
    (hio : c'.ioProcesses = c.ioProcesses) :
    (c'.census (some pid) (Function.update ready level next)
      (Function.update state pid .running)).Inv := by
  refine inv_of_eq_relocate hinv pid (some (.ready level)) (some .cpu)
    (by simp [Census.In, census, hready]) (by simp) (fun place => ?_) rfl ?_ ?_
  · cases place with
    | ready l => by_cases hl : l = level <;> simp [census, relocate, hready, hl, Ne.symm]
    | _ => simp [census, relocate, hrequests, hsemaphores]
  · simp [census, Place.lives, hactive]
  · simp [census, Place.reads, hio]

/-- Nothing moves. -/
theorem inv_congr {run : Option Pid} (hinv : (c.census run ready state).Inv)
    (hrequests : c'.requests = c.requests)
    (hwaiting : ∀ s, (c'.semaphores s).waiting = (c.semaphores s).waiting)
    (hactive : c'.activeProcesses = c.activeProcesses)
    (hio : c'.ioProcesses = c.ioProcesses) : (c'.census run ready state).Inv := by
  have hsame : c'.census run ready state = c.census run ready state := by
    refine Census.ext (funext fun place => ?_) rfl hactive hio
    cases place with
    | device d => simp [census, hrequests]
    | semaphore s => exact hwaiting s
    | _ => rfl
  rw [hsame]
  exact hinv

/-- Writing a semaphore with the same queue changes nobody's place. -/
theorem waiting_update {semaphores : Sem → Semaphore} {s : Sem} {sem : Semaphore}
    (hsame : sem.waiting = (semaphores s).waiting) (t : Sem) :
    (Function.update semaphores s sem t).waiting = (semaphores t).waiting := by
  by_cases ht : t = s
  · rw [ht, Function.update_self, hsame]
  · rw [Function.update_of_ne ht]

/-- After boot there is one process, and it runs. -/
theorem inv_boot (hrequests : ∀ device, c.requests device = [])
    (hwaiting : ∀ s, (c.semaphores s).waiting = []) (hactive : c.activeProcesses = 1)
    (hio : c.ioProcesses = 0) :
    (c.census (L := L) (some pid) (fun _ => [])
      (Function.update (fun _ => .uninitialized) pid .running)).Inv := by
  have hempty : Census.Inv
      { occupants := fun _ : Place L => []
        state := fun _ => .uninitialized
        active := 0
        io := 0 } :=
    ⟨fun _ => none, fun a i => by simp, fun _ => rfl, by simp, rfl⟩
  refine inv_of_eq_relocate hempty pid none (some .cpu) rfl (by simp) (fun place => ?_) rfl
    ?_ ?_
  · cases place <;> simp [census, relocate, hrequests, hwaiting]
  · simp [census, Place.lives, hactive]
  · simp [census, Place.reads, hio]

/-- What every handler leaves behind: a process that runs, an idle processor
with nothing ready and a read outstanding, or an exit with its reason. -/
inductive Settled (c : Core) (ready : L → List Pid) (state : Pid → ProcessState) : Prop
  | running {pid : Pid} (hcurrent : c.currentPid = some pid) (hhalted : c.halted = none)
      (hinv : (c.census (some pid) ready state).Inv)
  | idle (hcurrent : c.currentPid = none) (hhalted : c.halted = none)
      (hinv : (c.census none ready state).Inv) (hempty : ∀ level, ready level = [])
      (hio : c.ioProcesses ≠ 0)
  | finished (hhalted : c.halted = some .noMoreProcesses)
      (hinv : (c.census none ready state).Inv) (hactive : c.activeProcesses = 0)
  | deadlocked (hhalted : c.halted = some .deadlockedSystem)
      (hinv : (c.census none ready state).Inv) (hempty : ∀ level, ready level = [])
      (hactive : c.activeProcesses ≠ 0) (hio : c.ioProcesses = 0)

/-- What is settled stays so while nothing moves. -/
theorem Settled.congr (h : c.Settled ready state) (hcurrent : c'.currentPid = c.currentPid)
    (hhalted : c'.halted = c.halted) (hrequests : c'.requests = c.requests)
    (hwaiting : ∀ s, (c'.semaphores s).waiting = (c.semaphores s).waiting)
    (hactive : c'.activeProcesses = c.activeProcesses)
    (hio : c'.ioProcesses = c.ioProcesses) : c'.Settled ready state := by
  cases h with
  | running hcur hhalt hinv =>
    exact .running (hcurrent.trans hcur) (hhalted.trans hhalt)
      (inv_congr hinv hrequests hwaiting hactive hio)
  | idle hcur hhalt hinv hempty hne =>
    exact .idle (hcurrent.trans hcur) (hhalted.trans hhalt)
      (inv_congr hinv hrequests hwaiting hactive hio) hempty (by rw [hio]; exact hne)
  | finished hexit hinv hzero =>
    exact .finished (hhalted.trans hexit) (inv_congr hinv hrequests hwaiting hactive hio)
      (hactive.trans hzero)
  | deadlocked hexit hinv hempty hne hzero =>
    exact .deadlocked (hhalted.trans hexit) (inv_congr hinv hrequests hwaiting hactive hio)
      hempty (by rw [hactive]; exact hne) (hio.trans hzero)

/-- The census is in order, with somebody or nobody on the CPU. -/
theorem Settled.exists_inv (h : c.Settled ready state) :
    ∃ run, (c.census run ready state).Inv := by
  cases h with
  | running _ _ hinv => exact ⟨_, hinv⟩
  | idle _ _ hinv _ _ => exact ⟨_, hinv⟩
  | finished _ hinv _ => exact ⟨_, hinv⟩
  | deadlocked _ hinv _ _ _ => exact ⟨_, hinv⟩

/-- As long as the kernel has not exited the census of its current process is in order. -/
theorem Settled.inv (h : c.Settled ready state) (hhalted : c.halted = none) :
    (c.census c.currentPid ready state).Inv := by
  cases h with
  | running hcurrent _ hinv =>
    rw [hcurrent]
    exact hinv
  | idle hcurrent _ hinv _ _ =>
    rw [hcurrent]
    exact hinv
  | finished hexit _ _ =>
    rw [hhalted] at hexit
    cases hexit
  | deadlocked hexit _ _ _ _ =>
    rw [hhalted] at hexit
    cases hexit

end Core

end SimOS
