import Mathlib.Data.List.Pairwise
import Mathlib.Data.List.Sublists
import Mathlib.Tactic.Basic

/-!
# Runs with their history

A run of a guarded transition system, kept together with its history: the
events handled so far and the state each of them led to, newest first. The
guard may read the history, so that environments which remember what was
issued before are runs as well.

`age` counts for how long a property has held without interruption, and
`Seniority` is the order invariant of a first-come first-served queue in terms
of it: whoever stands further ahead has been in the queue for longer.
-/

namespace SimOS.Library

variable {σ τ ε α : Type*}

/-- A run from an initial state; each step may look at the history before it. -/
inductive Run (init : σ → Prop) (step : List (ε × σ) → σ → ε → σ → Prop) :
    List (ε × σ) → σ → Prop
  | start {s : σ} : init s → Run init step [] s
  | next {h : List (ε × σ)} {s s' : σ} {e : ε} :
      Run init step h s → step h s e s' → Run init step ((e, s') :: h) s'

namespace Run

variable {init : σ → Prop} {step : List (ε × σ) → σ → ε → σ → Prop}

/-- A history invariant that holds at the start and is kept by every step
taken from a state of a run holds along every run. -/
theorem invariant {P : List (ε × σ) → σ → Prop}
    (hinit : ∀ s, init s → P [] s)
    (hstep : ∀ h s e s', Run init step h s → P h s → step h s e s' → P ((e, s') :: h) s')
    {h : List (ε × σ)} {s : σ} (hrun : Run init step h s) : P h s := by
  induction hrun with
  | start hs => exact hinit _ hs
  | next hrun hs ih => exact hstep _ _ _ _ hrun ih hs

/-- A run under a stronger guard, from a smaller set of starts, is a run. -/
theorem mono {init' : σ → Prop} {step' : List (ε × σ) → σ → ε → σ → Prop}
    (hinit : ∀ s, init s → init' s)
    (hstep : ∀ h s e s', step h s e s' → step' h s e s')
    {h : List (ε × σ)} {s : σ} (hrun : Run init step h s) : Run init' step' h s := by
  induction hrun with
  | start hs => exact .start (hinit _ hs)
  | next _ hs ih => exact .next ih (hstep _ _ _ _ hs)

/-- Steps that are steps of another system through an abstraction of the states
make every run a run of the other system. -/
theorem simulation {init' : τ → Prop} {step' : List (ε × τ) → τ → ε → τ → Prop} (abs : σ → τ)
    (hinit : ∀ s, init s → init' (abs s))
    (hstep : ∀ h s e s', Run init step h s → step h s e s' →
      step' (h.map (Prod.map id abs)) (abs s) e (abs s'))
    {h : List (ε × σ)} {s : σ} (hrun : Run init step h s) :
    Run init' step' (h.map (Prod.map id abs)) (abs s) := by
  induction hrun with
  | start hs => exact .start (hinit _ hs)
  | next hrun hs ih => exact .next ih (hstep _ _ _ _ hrun hs)

/-- A step in the history of a run was taken from the end of a run. -/
theorem exists_step {h h' : List (ε × σ)} {s s' : σ} {e : ε} (hrun : Run init step h s)
    (hsuffix : ((e, s') :: h') <:+ h) : ∃ s₁, Run init step h' s₁ ∧ step h' s₁ e s' := by
  induction hrun with
  | start _ => exact absurd (List.suffix_nil.mp hsuffix) (List.cons_ne_nil _ _)
  | next hprev hs ih =>
    rcases List.suffix_cons_iff.mp hsuffix with heq | hearlier
    · obtain ⟨hstep, rfl⟩ := List.cons.inj heq
      obtain ⟨rfl, rfl⟩ := Prod.mk.inj hstep
      exact ⟨_, hprev, hs⟩
    · exact ih hearlier

end Run

/-- The state a history has led to from `s₀`. -/
def reached (s₀ : σ) : List (ε × σ) → σ
  | [] => s₀
  | (_, s) :: _ => s

/-- A run from `s₀` is in the state its history has led to. -/
theorem Run.reached_eq {s₀ : σ} {step : List (ε × σ) → σ → ε → σ → Prop} {h : List (ε × σ)} {s : σ}
    (hrun : Run (· = s₀) step h s) : reached s₀ h = s := by
  cases hrun with
  | start hs => exact hs.symm
  | next _ _ => rfl

/-! ## Age -/

/-- For how many of the most recent states the property has held. -/
def age (p : σ → Prop) [DecidablePred p] : List (ε × σ) → ℕ
  | [] => 0
  | (_, s) :: h => if p s then age p h + 1 else 0

section Age

variable (p : σ → Prop) [DecidablePred p]

@[simp] theorem age_cons (e : ε) (s : σ) (h : List (ε × σ)) :
    age p ((e, s) :: h) = if p s then age p h + 1 else 0 := rfl

end Age

/-! ## Seniority in a queue -/

section Seniority

variable [DecidableEq α]

/-- How long `a` has been standing in the queue. -/
abbrev waited (queue : σ → List α) (h : List (ε × σ)) (a : α) : ℕ :=
  age (fun s => a ∈ queue s) h

/-- A queue read off the state is in order of seniority: every member has been
in it for longer than those behind it, and nobody outside has been in it. -/
structure Seniority (queue : σ → List α) (h : List (ε × σ)) (s : σ) : Prop where
  order : (queue s).Pairwise fun a b => waited queue h b < waited queue h a
  inside : ∀ a ∈ queue s, 0 < waited queue h a
  outside : ∀ a, a ∉ queue s → waited queue h a = 0

/-- An empty queue with no history is in order. -/
theorem Seniority.start {queue : σ → List α} {s : σ} (hs : queue s = []) :
    Seniority queue ([] : List (ε × σ)) s where
  order := by rw [hs]; exact .nil
  inside := by rw [hs]; simp
  outside := fun _ _ => rfl

/-- At most one newcomer, who was not in the queue before. -/
def Newcomer (queue : List α) (new : List α) : Prop :=
  new = [] ∨ ∃ x, x ∉ queue ∧ new = [x]

/-- Appending a newcomer keeps the order, measured by the history before. -/
theorem Seniority.append_order {queue : σ → List α} {h : List (ε × σ)} {s : σ}
    (hs : Seniority queue h s) {new : List α} (hnew : Newcomer (queue s) new) :
    (queue s ++ new).Pairwise fun a b => waited queue h b < waited queue h a := by
  rcases hnew with rfl | ⟨x, hx, rfl⟩
  · rw [List.append_nil]
    exact hs.order
  · refine List.pairwise_append.mpr ⟨hs.order, List.pairwise_singleton _ _, ?_⟩
    intro a ha b hb
    rw [List.mem_singleton.mp hb, hs.outside x hx]
    exact hs.inside a ha

/-- A step that appends at most one newcomer and removes any members keeps the
queue in order of seniority. -/
theorem Seniority.next {queue : σ → List α} {h : List (ε × σ)} {s : σ}
    (hs : Seniority queue h s) {new : List α} (hnew : Newcomer (queue s) new)
    {e : ε} {s' : σ} (hsub : (queue s').Sublist (queue s ++ new)) :
    Seniority queue ((e, s') :: h) s' where
  order := by
    have hord := (hs.append_order hnew).sublist hsub
    refine hord.imp_of_mem fun ha hb hab => ?_
    rw [waited, waited, age_cons, age_cons, if_pos ha, if_pos hb]
    exact Nat.succ_lt_succ hab
  inside := fun a ha => by rw [waited, age_cons, if_pos ha]; exact Nat.succ_pos _
  outside := fun a ha => by rw [waited, age_cons, if_neg ha]

end Seniority

end SimOS.Library
