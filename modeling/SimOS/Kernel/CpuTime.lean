import SimOS.Kernel.Machine
import SimOS.Library.Run

/-!
# CPU time over a run

The CPU time of a process, read off the history of a run: the time between two
events counts for the process that was current in between. `Billed` says how one
event has to change the totals in the process table so that they follow it.

The definitions and the step lemma are about any kernel with the shared part
`core` of its state.
-/

namespace SimOS

open Library

/-- The time that passes until the event comes. The clock is 32 bits wide and may
wrap in between. -/
def Core.gap (c : Core) (e : Event) : ℕ := (e.clock - c.clock).toNat

section History

variable {κ : Type} (core : κ → Core) (k₀ : κ)

/-- For how long the process has been current since the last event that resets
its account. -/
def timeSince (resets : Event → Prop) [DecidablePred resets] (pid : Pid) :
    List (Event × κ) → ℕ
  | [] => 0
  | (e, _) :: h =>
    if resets e then 0
    else
      timeSince resets pid h +
        if (core (reached k₀ h)).currentPid = some pid then (core (reached k₀ h)).gap e else 0

/-- For how long the process has been current since it was created. -/
def cpuTime (pid : Pid) : List (Event × κ) → ℕ :=
  timeSince core k₀ (fun e => e.Forks pid) pid

/-- For how long processes with this pid have been current since boot. -/
def pidTime (pid : Pid) : List (Event × κ) → ℕ :=
  timeSince core k₀ (fun _ => False) pid

/-- For how long earlier processes with this pid were current. -/
def earlierTime (pid : Pid) : List (Event × κ) → ℕ
  | [] => 0
  | (e, _) :: h => if e.Forks pid then pidTime core k₀ pid h else earlierTime pid h

/-- How long the quantum has lasted: the time since the last dispatch, or since boot. -/
def quantumAge : List (Event × κ) → ℕ
  | [] => 0
  | (e, k) :: h =>
    if (core k).dispatched ≠ [] then 0 else quantumAge h + (core (reached k₀ h)).gap e

/-- The time of a pid is that of the process that has it now and of the earlier
ones, as long as no process is current when it is created. -/
theorem pidTime_eq (pid : Pid) {h : List (Event × κ)}
    (hfork : ∀ e k h', ((e, k) :: h') <:+ h → e.Forks pid →
      (core (reached k₀ h')).currentPid ≠ some pid) :
    pidTime core k₀ pid h = earlierTime core k₀ pid h + cpuTime core k₀ pid h := by
  induction h with
  | nil => rfl
  | cons step h ih =>
    obtain ⟨e, k⟩ := step
    have hrest := ih fun e' k' h' hsuffix => hfork e' k' h' (hsuffix.trans (List.suffix_cons _ h))
    simp only [pidTime, cpuTime, timeSince, earlierTime, if_false] at hrest ⊢
    by_cases hforks : e.Forks pid
    · rw [if_pos hforks, if_pos hforks, if_neg (hfork e k h (List.suffix_refl _) hforks)]
    · rw [if_neg hforks, if_neg hforks, hrest, Nat.add_assoc]

end History

/-! ## The totals in the process table -/

/-- The totals, with what the current process has used of its quantum, are the
given times modulo 2^32. -/
def Accounted (c : Core) (total : Pid → Word) (used : Pid → ℕ) : Prop :=
  ∀ pid, total pid + (if c.currentPid = some pid then c.elapsed else 0#32) =
    BitVec.ofNat 32 (used pid)

/-- The totals once the quantum is charged to the process that was current. -/
def Core.charged (c : Core) (total : Pid → Word) (e : Event) : Pid → Word := fun pid =>
  total pid + if c.currentPid = some pid then e.clock - c.currentQuantumStartTime else 0#32

/-- Adding the time of the quantum to the total of the current process charges it. -/
theorem Core.charged_of_current {c : Core} {pid : Pid} (hcurrent : c.currentPid = some pid)
    (total : Pid → Word) (e : Event) :
    c.charged total e = Function.update total pid (total pid + (c.deliver e).elapsed) := by
  rw [Core.elapsed_deliver]
  funext p
  by_cases hp : p = pid
  · rw [hp, Function.update_self, charged, if_pos hcurrent]
  · rw [Function.update_of_ne hp, charged, hcurrent, if_neg fun h => hp (Option.some.inj h).symm]
    exact BitVec.add_zero _

theorem Core.charged_of_idle {c : Core} (hcurrent : c.currentPid = none) (total : Pid → Word)
    (e : Event) : c.charged total e = total := by
  funext p
  rw [charged, hcurrent, if_neg (Option.some_ne_none p).symm]
  exact BitVec.add_zero _

/-- Whoever ends itself with the event is told its total, and nobody else is told one. -/
def Core.ExitsTold (c : Core) (e : Event) (c' : Core) (total' : Pid → Word) : Prop :=
  ∀ time q t, Message.exits time q t ∈ c'.output ↔
    e.Ends ∧ time = e.clock ∧ ∃ pid, c.currentPid = some pid ∧ q = some pid ∧ t = total' pid

/-- What an event may do to the totals: the quantum goes on, and only new
processes have their totals reset, or it is over and charged to the process that
was current. -/
inductive Billed (c : Core) (total : Pid → Word) (e : Event) (resets : Pid → Prop) (c' : Core)
    (total' : Pid → Word) : Prop
  | goesOn (hclock : c'.clock = e.clock) (hcurrent : c'.currentPid = c.currentPid)
      (hstart : c'.currentQuantumStartTime = c.currentQuantumStartTime)
      (htotal : ∀ pid, ¬resets pid → total' pid = total pid)
      (hreset : ∀ pid, resets pid → total' pid = 0#32 ∧ c.currentPid ≠ some pid)
      (hends : ¬e.Ends) (hexits : c'.NoExits)
  | charged (hclock : c'.clock = e.clock) (hstart : c'.currentQuantumStartTime = e.clock)
      (hreset : ∀ pid, ¬resets pid) (htotal : total' = c.charged total e)
      (hexits : c.ExitsTold e c' total')

section ExitsTold

variable {c c' c'' : Core} {e : Event} {total' : Pid → Word}

theorem Core.exitsTold_of_not_ends (hends : ¬e.Ends) (hexits : c'.NoExits) :
    c.ExitsTold e c' total' :=
  fun time q t => iff_of_false (hexits time q t) fun h => hends h.1

/-- A message that is no exit tells nobody a total. -/
theorem Core.ExitsTold.append {message : Message} (h : c.ExitsTold e c' total')
    (houtput : c''.output = c'.output ++ [message])
    (hmessage : ∀ time q t, Message.exits time q t ≠ message) : c.ExitsTold e c'' total' := by
  intro time q t
  rw [houtput, List.mem_append, List.mem_singleton, or_iff_left (hmessage time q t)]
  exact h time q t

/-- The exit of the process that was current, told its total. -/
theorem Core.exitsTold_of_exit {pid : Pid} (hends : e.Ends) (hcurrent : c.currentPid = some pid)
    (houtput : c'.output = [.exits e.clock (some pid) (total' pid)]) :
    c.ExitsTold e c' total' := by
  intro time q t
  rw [houtput, List.mem_singleton]
  constructor
  · intro heq
    obtain ⟨rfl, rfl, rfl⟩ := Message.exits.inj heq
    exact ⟨hends, rfl, pid, hcurrent, rfl, rfl⟩
  · rintro ⟨_, rfl, p, hp, rfl, rfl⟩
    rw [Option.some.inj (hcurrent.symm.trans hp)]

end ExitsTold

theorem Core.ofNat_gap (c : Core) (e : Event) : BitVec.ofNat 32 (c.gap e) = e.clock - c.clock := by
  rw [Core.gap, BitVec.ofNat_toNat, BitVec.setWidth_eq]

/-- The time of the quantum at the event is the time before and the gap. -/
theorem Core.elapsed_add_gap (c : Core) (e : Event) :
    c.elapsed + BitVec.ofNat 32 (c.gap e) = e.clock - c.currentQuantumStartTime := by
  rw [Core.ofNat_gap, Core.elapsed]
  exact sub_add_sub_cancel' _ _ _

theorem Core.elapsed_of_start {c : Core} {time : Word} (hclock : c.clock = time)
    (hstart : c.currentQuantumStartTime = time) : c.elapsed = 0#32 := by
  rw [Core.elapsed, hclock, hstart]
  exact sub_self time

/-- An event that bills as it should keeps the totals right. -/
theorem Billed.accounted {c c' : Core} {total total' : Pid → Word} {e : Event}
    {resets : Pid → Prop} [DecidablePred resets] (h : Billed c total e resets c' total')
    {used : Pid → ℕ} (hused : Accounted c total used) :
    Accounted c' total' fun pid =>
      if resets pid then 0 else used pid + if c.currentPid = some pid then c.gap e else 0 := by
  intro pid
  have hpid := hused pid
  show _ = BitVec.ofNat 32 (if resets pid then 0 else _)
  cases h with
  | goesOn hclock hcurrent hstart htotal hreset _ _ =>
    rw [hcurrent]
    by_cases hr : resets pid
    · obtain ⟨hzero, hother⟩ := hreset pid hr
      rw [if_pos hr, hzero, if_neg hother]
      rfl
    · rw [if_neg hr, htotal pid hr]
      by_cases hcur : c.currentPid = some pid
      · rw [if_pos hcur] at hpid
        rw [if_pos hcur, if_pos hcur, BitVec.ofNat_add, ← hpid, add_assoc, Core.elapsed_add_gap,
          Core.elapsed, hclock, hstart]
      · rw [if_neg hcur] at hpid
        rw [if_neg hcur, if_neg hcur, hpid, Nat.add_zero]
  | charged hclock hstart hreset htotal _ =>
    rw [if_neg (hreset pid), htotal, Core.charged, Core.elapsed_of_start hclock hstart, ite_self,
      BitVec.add_zero]
    by_cases hcur : c.currentPid = some pid
    · rw [if_pos hcur] at hpid
      rw [if_pos hcur, if_pos hcur, BitVec.ofNat_add, ← hpid, add_assoc, Core.elapsed_add_gap]
    · rw [if_neg hcur] at hpid
      rw [if_neg hcur, if_neg hcur, hpid, Nat.add_zero]

/-- Whoever ends itself is told the time it has used, modulo 2^32. -/
theorem Billed.exits_iff {c c' : Core} {total total' : Pid → Word} {e : Event}
    {resets : Pid → Prop} (h : Billed c total e resets c' total') {used' : Pid → ℕ}
    (hused : Accounted c' total' used') (time : Word) (q : Option Pid) (t : Word) :
    Message.exits time q t ∈ c'.output ↔ e.Ends ∧ time = e.clock ∧
      ∃ pid, c.currentPid = some pid ∧ q = some pid ∧ t = BitVec.ofNat 32 (used' pid) := by
  cases h with
  | goesOn _ _ _ _ _ hends hexits => exact Core.exitsTold_of_not_ends hends hexits time q t
  | charged hclock hstart _ _ hexits =>
    rw [hexits time q t]
    -- the quantum has just started, so all of the time is in the total
    have htotal : ∀ pid, total' pid = BitVec.ofNat 32 (used' pid) := by
      intro pid
      have hpid := hused pid
      rwa [Core.elapsed_of_start hclock hstart, ite_self, BitVec.add_zero] at hpid
    simp only [htotal]

/-! ## Turns -/

/-- The quantum goes on, or it has ended and one starts for whoever is dispatched. -/
inductive Core.Turn (c : Core) (e : Event) (c' : Core) : Prop
  | goesOn (hclock : c'.clock = e.clock) (hcurrent : c'.currentPid = c.currentPid)
      (hstart : c'.currentQuantumStartTime = c.currentQuantumStartTime)
      (hdispatched : c'.dispatched = [])
  | ended (hclock : c'.clock = e.clock) (hstart : c'.currentQuantumStartTime = e.clock)
      (hdispatched : c'.halted = none → c'.currentPid ≠ none → c'.dispatched ≠ [])

/-- A turn keeps `clock - current_quantum_start_time` the age of the quantum. -/
theorem Core.Turn.elapsed_eq {c c' : Core} {e : Event} (h : c.Turn e c') {age : ℕ}
    (hage : c.currentPid ≠ none → c.elapsed = BitVec.ofNat 32 age) (hhalted : c'.halted = none)
    (hbusy : c'.currentPid ≠ none) :
    c'.elapsed = BitVec.ofNat 32 (if c'.dispatched ≠ [] then 0 else age + c.gap e) := by
  cases h with
  | goesOn hclock hcurrent hstart hdispatched =>
    rw [hcurrent] at hbusy
    rw [if_neg (not_not.mpr hdispatched), BitVec.ofNat_add, ← hage hbusy, Core.elapsed_add_gap,
      Core.elapsed, hclock, hstart]
  | ended hclock hstart hdispatched =>
    rw [if_pos (hdispatched hhalted hbusy), Core.elapsed_of_start hclock hstart]

end SimOS
