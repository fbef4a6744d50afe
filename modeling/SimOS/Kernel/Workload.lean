import Mathlib.Algebra.Order.Field.Rat
import Mathlib.Data.List.Nodup
import Mathlib.Data.Rat.Floor
import Mathlib.Tactic.IntervalCases
import Mathlib.Tactic.Positivity
import SimOS.Kernel.Machine

/-!
# The workloads of `prog.py`

`prog.py` of Project 1 Honors writes a file with the programs of up to ten
processes, at random. Process 0 forks the first two; every process that was forked
is given 15 lines, and may fork further ones as long as there are pids left. What
the `random` module returns is a parameter here, one draw for each line.
-/

namespace SimOS

namespace Workload

/-- `events_list`. -/
inductive ProcessEvent
  | run
  | diskread
  | keyboardread
  | diskwrite
  | down
  | up
  | fork
  deriving DecidableEq

def eventsList : List ProcessEvent :=
  [.run, .diskread, .keyboardread, .diskwrite, .down, .up, .fork]

def processLength : ℕ := 15

def maxProcesses : ℕ := 10

/-- The arguments of a `randrange`. -/
structure RangeParams where
  first : ℕ
  stop : ℕ
  step : ℕ

def runParams : RangeParams := ⟨10, 100, 20⟩

def diskreadParams : RangeParams := ⟨10, 30, 10⟩

def semaphoreParams : RangeParams := ⟨0, 3, 1⟩

/-- `randrange(first, stop, step)`, which is one of the numbers of the range. -/
def RangeParams.randrange (params : RangeParams) (k : ℕ) : ℕ :=
  params.first +
    params.step * (k % ((params.stop - params.first + params.step - 1) / params.step))

/-- The integer nearest to a number, and of two the even one. -/
def roundHalfEven (x : ℚ) : ℤ :=
  if Int.fract x < 1 / 2 ∨ Int.fract x = 1 / 2 ∧ ⌊x⌋ % 2 = 0 then ⌊x⌋ else ⌊x⌋ + 1

/-- The binary places that 53 significant bits leave for a number of `(0, 1]`. -/
def binaryPlaces (q : ℚ) : ℕ := 53 + Nat.log2 ⌊1 / q⌋₊

/-- A decimal of `(0, 1]` as a `float`, which is the double nearest to it. -/
def double (q : ℚ) : ℚ := roundHalfEven (q * 2 ^ binaryPlaces q) / 2 ^ binaryPlaces q

/-- `events_prob`. -/
def eventsProb : List (List ℚ) :=
  [[double 0.3, double 0.6, double 0.8, double 0.85, double 0.9, double 0.95, 1],
   [double 0.6, double 0.7, double 0.8, double 0.85, double 0.9, double 0.95, 1],
   [double 0.5, double 0.6, double 0.7, double 0.8, double 0.9, 1, 1]]

/-- What the `random` module returns for a line: `random()`, which is a multiple of
`2 ^ -53`, and which of its values a `randrange` takes. -/
structure Draw where
  mantissa : ℕ
  lt : mantissa < 2 ^ 53
  k : ℕ

def Draw.p (d : Draw) : ℚ := d.mantissa / 2 ^ 53

/-- A line of the file. -/
structure Line where
  pid : ℕ
  event : ProcessEvent
  arg : Option ℕ
  deriving DecidableEq

def ProcessEvent.name : ProcessEvent → String
  | run => "run"
  | diskread => "diskread"
  | keyboardread => "keyboardread"
  | diskwrite => "diskwrite"
  | down => "down"
  | up => "up"
  | fork => "fork"

/-- The line as it is written to the file. -/
def Line.text (l : Line) : String :=
  toString l.pid ++ " " ++ l.event.name ++
    (match l.arg with
      | none => ""
      | some n => " " ++ toString n) ++ "\n"

/-- The two queues, and what was written so far. -/
structure State where
  pids : List ℕ
  availablePids : List ℕ
  lines : List Line

/-! ## The program -/

/-- `while (new_event_p > events_prob[..][i]): i += 1`; past the end is an `IndexError`. -/
def search (p : ℚ) : List ℚ → ℕ → Option ℕ
  | [], _ => none
  | q :: qs, i => if q < p then search p qs (i + 1) else some i

def nextEvent (pid : ℕ) (p : ℚ) : Option ProcessEvent :=
  (eventsProb[pid % eventsProb.length]?).bind fun probs =>
    (search p probs 0).bind fun i => eventsList[i]?

/-- `f.write(event_str + "\n")`. -/
def State.write (s : State) (line : Line) : State := { s with lines := s.lines ++ [line] }

/-- One turn of the inner loop. -/
def State.writeEvent (s : State) (pid : ℕ) (d : Draw) : Option State :=
  (nextEvent pid d.p).map fun event =>
    match event with
    | .fork =>
      match s.availablePids with
      | [] => s.write ⟨pid, .run, some (runParams.randrange d.k)⟩
      | newPid :: rest =>
        { s with pids := s.pids ++ [newPid], availablePids := rest }.write ⟨pid, .fork, some newPid⟩
    | .run => s.write ⟨pid, .run, some (runParams.randrange d.k)⟩
    | .diskread => s.write ⟨pid, .diskread, some (diskreadParams.randrange d.k)⟩
    | .keyboardread => s.write ⟨pid, .keyboardread, none⟩
    | .diskwrite => s.write ⟨pid, .diskwrite, none⟩
    | .up => s.write ⟨pid, .up, some (semaphoreParams.randrange d.k)⟩
    | .down => s.write ⟨pid, .down, some (semaphoreParams.randrange d.k)⟩

/-- The inner loop, with the number of turns that are left. -/
def State.writeProcess (draws : ℕ → Draw) (pid : ℕ) : ℕ → State → Option State
  | 0, s => some s
  | turns + 1, s =>
    (s.writeEvent pid (draws s.lines.length)).bind (State.writeProcess draws pid turns)

/-- The outer loop, with the number of turns it may take. -/
def loop (draws : ℕ → Draw) : ℕ → State → Option State
  | 0, _ => none
  | turns + 1, s =>
    match s.pids with
    | [] => some s
    | pid :: rest =>
      if s.availablePids = [] then some s
      else ({ s with pids := rest }.writeProcess draws pid processLength).bind (loop draws turns)

/-- The two lines written first, and the queues. -/
def start : State where
  pids := [1, 2]
  availablePids := List.range' 3 (maxProcesses - 3)
  lines := [⟨0, .fork, some 1⟩, ⟨0, .fork, some 2⟩]

/-- The lines of the file. There is a turn of the outer loop for every process. -/
def main (draws : ℕ → Draw) : Option (List Line) := (loop draws maxProcesses start).map State.lines

example : (⟨1, .fork, some 3⟩ : Line).text = "1 fork 3\n" := by decide

/-! ## The lines -/

/-- The pid that the line forks. -/
def Line.forked (l : Line) : Option ℕ := if l.event = .fork then l.arg else none

/-- The pids that are forked, in the order of the lines. -/
def forks (lines : List Line) : List ℕ := lines.filterMap Line.forked

/-- The argument is one that the kernel and the drivers accept: a process is in the
process table and younger than its parent, a semaphore is in the array. -/
def Line.Valid (l : Line) : Prop :=
  match l.event with
  | .run => ∃ t, l.arg = some t ∧ 0 < t
  | .diskread => ∃ blocks, l.arg = some blocks ∧ 0 < blocks
  | .keyboardread => l.arg = none
  | .diskwrite => l.arg = none
  | .down => ∃ s : Sem, l.arg = some (s : ℕ)
  | .up => ∃ s : Sem, l.arg = some (s : ℕ)
  | .fork => ∃ pid : Pid, l.arg = some (pid : ℕ) ∧ l.pid < pid ∧ l.pid % 3 ≠ 2

/-- The programs of the processes 0 to `n`, which fork the processes 1 to `m`. -/
structure Programs (lines : List Line) (m : ℕ) : Prop where
  forks : forks lines = List.range' 1 m
  founded : ∀ i l, lines[i]? = some l → l.pid = 0 ∨ l.pid ∈ Workload.forks (lines.take i)
  valid : ∀ l ∈ lines, l.Valid

theorem forks_append (before after : List Line) :
    forks (before ++ after) = forks before ++ forks after := List.filterMap_append

/-- A line of a process that was forked is written behind the others. -/
theorem Programs.append {lines : List Line} {m m' : ℕ} (h : Programs lines m) {line : Line}
    (hpid : line.pid ∈ List.range' 1 m) (hvalid : line.Valid)
    (hforks : List.range' 1 m ++ line.forked.toList = List.range' 1 m') :
    Programs (lines ++ [line]) m' := by
  refine ⟨?_, fun i l hl => ?_, fun l hl => ?_⟩
  · rw [forks_append, h.forks, ← hforks, Workload.forks]
    cases hforked : line.forked <;> simp [hforked]
  · rw [List.getElem?_append] at hl
    split_ifs at hl with hi
    · rw [List.take_append_of_le_length (Nat.le_of_lt hi)]
      exact h.founded i l hl
    · rw [List.getElem?_singleton] at hl
      split_ifs at hl with hlast
      obtain rfl := Option.some.inj hl
      have hlen : i = lines.length := by omega
      rw [hlen, List.take_left, h.forks]
      exact .inr hpid
  · rcases List.mem_append.mp hl with hold | hnew
    · exact h.valid l hold
    · rwa [List.mem_singleton.mp hnew]

/-! ## One line -/

/-- The search stops at a threshold that is not exceeded, at the latest. -/
theorem search_spec {p q : ℚ} {qs : List ℚ} {k : ℕ} (hq : qs[k]? = some q) (hp : p ≤ q) (i : ℕ) :
    ∃ j ≤ k, search p qs i = some (i + j) := by
  induction qs generalizing k i with
  | nil =>
    rw [List.getElem?_nil] at hq
    cases hq
  | cons q' qs ih =>
    rw [search]
    by_cases hnext : q' < p
    · rw [if_pos hnext]
      cases k with
      | zero =>
        obtain rfl := Option.some.inj hq
        exact absurd hp (not_le_of_gt hnext)
      | succ k =>
        rw [List.getElem?_cons_succ] at hq
        obtain ⟨j, hj, hsearch⟩ := ih hq (i + 1)
        refine ⟨j + 1, Nat.succ_le_succ hj, ?_⟩
        rw [hsearch, Nat.add_assoc, Nat.add_comm 1 j]
    · rw [if_neg hnext]
      exact ⟨0, Nat.zero_le k, rfl⟩

theorem Draw.p_le_one (d : Draw) : d.p ≤ 1 := by
  have hlt : (d.mantissa : ℚ) < 2 ^ 53 := by exact_mod_cast d.lt
  rw [Draw.p, div_le_one (by positivity)]
  exact hlt.le

theorem eventsList_spec {j : ℕ} (hj : j ≤ 6) :
    ∃ event, eventsList[j]? = some event ∧ (event = .fork → j = 6) := by
  interval_cases j <;> exact ⟨_, rfl, by decide⟩

/-- An event is always found. A process whose pid is 2 modulo 3 never forks: the last
threshold but one is 1 for it. -/
theorem nextEvent_spec (pid : ℕ) (d : Draw) :
    ∃ event, nextEvent pid d.p = some event ∧ (event = .fork → pid % 3 ≠ 2) := by
  have hrow : ∃ (probs : List ℚ) (k : ℕ), eventsProb[pid % 3]? = some probs ∧
      probs[k]? = some 1 ∧ k ≤ 6 ∧ (k = 6 → pid % 3 ≠ 2) := by
    have hmod : pid % 3 < 3 := Nat.mod_lt _ (by decide)
    interval_cases pid % 3
    · exact ⟨_, 6, rfl, rfl, le_refl 6, fun _ => by decide⟩
    · exact ⟨_, 6, rfl, rfl, le_refl 6, fun _ => by decide⟩
    · exact ⟨_, 5, rfl, rfl, by decide, fun h => absurd h (by decide)⟩
  obtain ⟨probs, k, hprobs, hone, hk, hthird⟩ := hrow
  obtain ⟨j, hj, hsearch⟩ := search_spec hone d.p_le_one 0
  obtain ⟨event, hevent, hfork⟩ := eventsList_spec (hj.trans hk)
  refine ⟨event, ?_, fun h => hthird (le_antisymm hk ?_)⟩
  · rw [nextEvent]
    change (eventsProb[pid % 3]?).bind _ = _
    rw [hprobs, Option.bind_some, hsearch, Option.bind_some, Nat.zero_add]
    exact hevent
  · rw [← hfork h]
    exact hj

/-- The double 0.8 is above the decimal, and a draw that is this double does not exceed it. -/
example : double 0.8 = (⟨7205759403792794, by decide, 0⟩ : Draw).p ∧
    nextEvent 0 (⟨7205759403792794, by decide, 0⟩ : Draw).p = some .keyboardread := by
  decide +kernel

theorem runParams_pos (k : ℕ) : 0 < runParams.randrange k := Nat.add_pos_left (by decide) _

theorem diskreadParams_pos (k : ℕ) : 0 < diskreadParams.randrange k :=
  Nat.add_pos_left (by decide) _

theorem semaphoreParams_spec (k : ℕ) : ∃ s : Sem, semaphoreParams.randrange k = (s : ℕ) := by
  have hlt : semaphoreParams.randrange k < 16 := by
    change 0 + 1 * (k % 3) < 16
    omega
  exact ⟨⟨_, hlt⟩, rfl⟩

/-! ## The queues -/

/-- The processes `n + 1` to `m` wait for a program, and the pids above are left. -/
structure Queues (s : State) (n m : ℕ) : Prop where
  pids : s.pids = List.range' (n + 1) (m - n)
  available : s.availablePids = List.range' (m + 1) (9 - m)
  le : n ≤ m
  bound : m ≤ 9

/-- A line is written for the process that was taken off the queue last. -/
theorem Queues.writeEvent {s : State} {n m : ℕ} (hs : Queues s n m) (hlines : Programs s.lines m)
    (hn : 1 ≤ n) (d : Draw) :
    ∃ s' m', s.writeEvent n d = some s' ∧ Queues s' n m' ∧ Programs s'.lines m' ∧
      s'.lines.map Line.pid = s.lines.map Line.pid ++ [n] := by
  have hle := hs.le
  have hbound := hs.bound
  have hpid : n ∈ List.range' 1 m := List.mem_range'_1.mpr ⟨hn, by omega⟩
  obtain ⟨event, hevent, hthird⟩ := nextEvent_spec n d
  -- a line that forks nobody leaves the queues as they are
  have hwrite : ∀ event arg, event ≠ .fork → Line.Valid ⟨n, event, arg⟩ →
      Queues (s.write ⟨n, event, arg⟩) n m ∧ Programs (s.write ⟨n, event, arg⟩).lines m ∧
        (s.write ⟨n, event, arg⟩).lines.map Line.pid = s.lines.map Line.pid ++ [n] := by
    intro event arg hfork hvalid
    refine ⟨⟨hs.pids, hs.available, hle, hbound⟩, hlines.append hpid hvalid ?_, List.map_append⟩
    rw [Line.forked, if_neg hfork]
    exact List.append_nil _
  rw [State.writeEvent, hevent, Option.map_some]
  cases event with
  | fork =>
    cases havailable : s.availablePids with
    | nil =>
      exact ⟨_, m, rfl, hwrite .run _ (by decide)
        ⟨_, rfl, runParams_pos d.k⟩⟩
    | cons newPid rest =>
      have hrange := havailable.symm.trans hs.available
      have hleft : m < 9 := by
        by_contra hfull
        rw [Nat.sub_eq_zero_of_le (Nat.le_of_not_lt hfull)] at hrange
        cases hrange
      have hsplit : 9 - m = (9 - (m + 1)) + 1 := by omega
      rw [hsplit, List.range'_succ] at hrange
      obtain ⟨rfl, rfl⟩ := List.cons.inj hrange
      refine ⟨_, m + 1, rfl, ⟨?_, rfl, by omega, hleft⟩, ?_, List.map_append⟩
      · have hcount : m + 1 - n = (m - n) + 1 := by omega
        have hlast : n + 1 + (m - n) = m + 1 := by omega
        change s.pids ++ [m + 1] = _
        rw [hs.pids, hcount, List.range'_1_concat, hlast]
      · refine hlines.append hpid ⟨⟨m + 1, by omega⟩, rfl, Nat.lt_succ_of_le hle, hthird rfl⟩ ?_
        rw [List.range'_1_concat, Nat.add_comm 1 m]
        rfl
  | run =>
    exact ⟨_, m, rfl, hwrite .run _ (by decide) ⟨_, rfl, runParams_pos d.k⟩⟩
  | diskread =>
    exact ⟨_, m, rfl, hwrite .diskread _ (by decide) ⟨_, rfl, diskreadParams_pos d.k⟩⟩
  | keyboardread => exact ⟨_, m, rfl, hwrite .keyboardread none (by decide) rfl⟩
  | diskwrite => exact ⟨_, m, rfl, hwrite .diskwrite none (by decide) rfl⟩
  | down =>
    obtain ⟨s', hs'⟩ := semaphoreParams_spec d.k
    exact ⟨_, m, rfl, hwrite .down _ (by decide) ⟨s', congrArg some hs'⟩⟩
  | up =>
    obtain ⟨s', hs'⟩ := semaphoreParams_spec d.k
    exact ⟨_, m, rfl, hwrite .up _ (by decide) ⟨s', congrArg some hs'⟩⟩

/-- The induction is on the lines that are left for the process. -/
theorem Queues.writeProcess (draws : ℕ → Draw) {n : ℕ} (hn : 1 ≤ n) (turns : ℕ) {s : State} {m : ℕ}
    (hs : Queues s n m) (hlines : Programs s.lines m) :
    ∃ s' m', s.writeProcess draws n turns = some s' ∧ Queues s' n m' ∧ Programs s'.lines m' ∧
      s'.lines.map Line.pid = s.lines.map Line.pid ++ List.replicate turns n := by
  induction turns generalizing s m with
  | zero => exact ⟨s, m, rfl, hs, hlines, (List.append_nil _).symm⟩
  | succ turns ih =>
    obtain ⟨s₁, m₁, hs₁, hqueues₁, hlines₁, hpids₁⟩ := hs.writeEvent hlines hn
      (draws s.lines.length)
    obtain ⟨s', m', hs', hqueues, hlines', hpids⟩ := ih hqueues₁ hlines₁
    refine ⟨s', m', ?_, hqueues, hlines', ?_⟩
    · rw [State.writeProcess, hs₁, Option.bind_some, hs']
    · rw [hpids, hpids₁, List.append_assoc, List.replicate_succ]
      rfl

/-- The outer loop takes the processes off the queue in the order of their pids. The
induction is on the turns, which are as many as there are pids. -/
theorem Queues.loop (draws : ℕ → Draw) (turns : ℕ) {s : State} {n m : ℕ} (hs : Queues s n m)
    (hlines : Programs s.lines m) (hturns : 9 < n + turns)
    (hpids : s.lines.map Line.pid =
      [0, 0] ++ (List.range' 1 n).flatMap (List.replicate processLength)) :
    ∃ s' n' m', loop draws turns s = some s' ∧ Programs s'.lines m' ∧ n' ≤ m' ∧ m' ≤ 9 ∧
      (n' = m' ∨ m' = 9) ∧ s'.lines.map Line.pid =
        [0, 0] ++ (List.range' 1 n').flatMap (List.replicate processLength) := by
  induction turns generalizing s n m with
  | zero =>
    have hle := hs.le
    have hbound := hs.bound
    omega
  | succ turns ih =>
    have hle := hs.le
    have hbound := hs.bound
    have hqueue := hs.pids
    rw [Workload.loop]
    cases hfirst : s.pids with
    | nil =>
      rw [hfirst] at hqueue
      have hlength := congrArg List.length hqueue
      rw [List.length_nil, List.length_range'] at hlength
      exact ⟨s, n, m, rfl, hlines, hle, hbound, .inl (by omega), hpids⟩
    | cons pid rest =>
      rw [hfirst] at hqueue
      have hwaits : n < m := by
        by_contra hnone
        rw [Nat.sub_eq_zero_of_le (Nat.le_of_not_lt hnone)] at hqueue
        cases hqueue
      have hsplit : m - n = (m - (n + 1)) + 1 := by omega
      rw [hsplit, List.range'_succ] at hqueue
      obtain ⟨rfl, rfl⟩ := List.cons.inj hqueue
      by_cases hfull : s.availablePids = []
      · have hlength := congrArg List.length (hfull.symm.trans hs.available)
        rw [List.length_nil, List.length_range'] at hlength
        simp only [if_pos hfull]
        exact ⟨s, n, m, rfl, hlines, hle, hbound, .inr (by omega), hpids⟩
      · simp only [if_neg hfull]
        have hpopped : Queues { s with pids := List.range' (n + 1 + 1) (m - (n + 1)) } (n + 1) m :=
          ⟨rfl, hs.available, hwaits, hbound⟩
        obtain ⟨s₁, m₁, hs₁, hqueues₁, hlines₁, hpids₁⟩ :=
          hpopped.writeProcess draws (Nat.le_add_left 1 n) processLength hlines
        rw [hs₁, Option.bind_some]
        refine ih hqueues₁ hlines₁ (by omega) ?_
        rw [hpids₁, List.range'_1_concat, List.flatMap_append, ← List.append_assoc]
        change s.lines.map Line.pid ++ _ = _
        rw [hpids, Nat.add_comm 1 n, List.flatMap_singleton]

theorem queues_start : Queues start 0 2 := ⟨rfl, rfl, by decide, by decide⟩

theorem programs_start : Programs start.lines 2 := by
  refine ⟨rfl, fun i l hl => ?_, fun l hl => ?_⟩
  · rcases List.mem_pair.mp (List.mem_of_getElem? hl) with rfl | rfl
    · exact .inl rfl
    · exact .inl rfl
  · rcases List.mem_pair.mp hl with rfl | rfl
    · exact ⟨1, rfl, by decide, by decide⟩
    · exact ⟨2, rfl, by decide, by decide⟩

/-- Whatever is drawn, the program comes to its end and has written the programs of the
processes 1 to `n`, in this order and of 15 lines each, behind the two forks of process
0. The processes 1 to `m` are forked, in order and once each, by a process that was
forked in an earlier line; all of them have a program, unless no pid is left, and then
those above `n` have none. Every argument is one that the kernel accepts. -/
theorem workload_wellFormed (draws : ℕ → Draw) :
    ∃ lines n m, main draws = some lines ∧ Programs lines m ∧ n ≤ m ∧ m ≤ 9 ∧
      (n = m ∨ m = 9) ∧ lines.map Line.pid =
        [0, 0] ++ (List.range' 1 n).flatMap (List.replicate processLength) := by
  obtain ⟨s, n, m, hs, hlines, hle, hbound, hend, hpids⟩ :=
    queues_start.loop draws maxProcesses programs_start (by decide) rfl
  refine ⟨s.lines, n, m, ?_, hlines, hle, hbound, hend, hpids⟩
  rw [main, hs]
  rfl

/-- Draws for which every process forks whenever it may. -/
def forkDraws (_ : ℕ) : Draw where
  mantissa := 2 ^ 53 - 1
  lt := by decide
  k := 0

/-- Then process 1 takes all the pids, and eight processes have no program. -/
example : (main forkDraws).map (fun lines => (forks lines, lines.map Line.pid)) =
    some (List.range' 1 9, 0 :: 0 :: List.replicate 15 1) := by decide +kernel

end Workload

end SimOS
