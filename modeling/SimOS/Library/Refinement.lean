import Mathlib.Data.Option.Basic
import SimOS.Library.Run

/-!
# Refinement between two levels

Two computations that may be undefined agree when both are undefined or both
have results that stand for each other; sequences of such computations agree
too. A system whose steps are all matched by another one has runs that are
matched state for state.
-/

namespace SimOS.Library

variable {α β γ δ ε ε' σ τ : Type*}

/-! ## Computations that may be undefined -/

section Agree

variable {r : α → β → Prop} {q : γ → δ → Prop} {x : Option α} {y : Option β}

theorem Agree.bind {f : α → Option γ} {g : β → Option δ} (h : Option.Rel r x y)
    (hnext : ∀ a b, r a b → Option.Rel q (f a) (g b)) : Option.Rel q (x.bind f) (y.bind g) := by
  cases h with
  | some hab => exact hnext _ _ hab
  | none => exact .none

theorem Agree.map {f : α → γ} {g : β → δ} (h : Option.Rel r x y)
    (hnext : ∀ a b, r a b → q (f a) (g b)) : Option.Rel q (x.map f) (y.map g) := by
  cases h with
  | some hab => exact .some (hnext _ _ hab)
  | none => exact .none

/-- The same argument on both sides, and nothing undefined after it on one. -/
theorem Agree.bind_map {o : Option α} {f : α → Option γ} {g : α → δ}
    (hnext : ∀ a, o = some a → Option.Rel q (f a) (some (g a))) :
    Option.Rel q (o.bind f) (o.map g) := by
  cases o with
  | some a => exact hnext a rfl
  | none => exact .none

theorem Agree.bind_same {o : Option α} {f : α → Option γ} {g : α → Option δ}
    (hnext : ∀ a, o = some a → Option.Rel q (f a) (g a)) :
    Option.Rel q (o.bind f) (o.bind g) := by
  cases o with
  | some a => exact hnext a rfl
  | none => exact .none

theorem Agree.mono {r' : α → β → Prop} (h : Option.Rel r x y) (hr : ∀ a b, r a b → r' a b) :
    Option.Rel r' x y := by
  cases h with
  | some hab => exact .some (hr _ _ hab)
  | none => exact .none

/-- What is defined on one side is defined on the other. -/
theorem Agree.of_some {b : β} (h : Option.Rel r x y) (hy : y = some b) :
    ∃ a, x = some a ∧ r a b := by
  cases h with
  | some hab =>
    obtain rfl := Option.some.inj hy
    exact ⟨_, rfl, hab⟩
  | none => cases hy

end Agree

/-! ## Runs -/

section Runs

variable {init : σ → Prop} {step : List (ε × σ) → σ → ε → σ → Prop}
  {init' : τ → Prop} {step' : List (ε' × τ) → τ → ε' → τ → Prop}

/-- Steps that are matched through a relation make every run matched: there is a
run of the other system through the same events, each of whose states stands
for the state the run was in. -/
theorem Run.forward (R : σ → τ → Prop) (f : ε → ε')
    (hinit : ∀ s, init s → ∃ t, init' t ∧ R s t)
    (hstep : ∀ h h' s t e s', Run init step h s → Run init' step' h' t → R s t →
      step h s e s' → ∃ t', step' h' t (f e) t' ∧ R s' t')
    {h : List (ε × σ)} {s : σ} (hrun : Run init step h s) :
    ∃ h' t, Run init' step' h' t ∧ R s t ∧
      List.Forall₂ (fun x y => y.1 = f x.1 ∧ R x.2 y.2) h h' := by
  induction hrun with
  | start hs =>
    obtain ⟨t, ht, hrel⟩ := hinit _ hs
    exact ⟨[], t, .start ht, hrel, .nil⟩
  | next hrun hs ih =>
    obtain ⟨h', t, hrun', hrel, hall⟩ := ih
    obtain ⟨t', ht', hrel'⟩ := hstep _ _ _ _ _ _ hrun hrun' hrel hs
    exact ⟨_, t', .next hrun' ht', hrel', .cons ⟨rfl, hrel'⟩ hall⟩

/-- Steps that are steps of another system under another name for the events and
through a function of the states make every run a run of the other system. -/
theorem Run.map (f : ε → ε') (g : σ → τ) (hinit : ∀ s, init s → init' (g s))
    (hstep : ∀ h s e s', step h s e s' → step' (h.map (Prod.map f g)) (g s) (f e) (g s'))
    {h : List (ε × σ)} {s : σ} (hrun : Run init step h s) :
    Run init' step' (h.map (Prod.map f g)) (g s) := by
  induction hrun with
  | start hs => exact .start (hinit _ hs)
  | next _ hs ih => exact .next ih (hstep _ _ _ _ hs)

/-- When there is a way back, the runs of the two systems are the same. -/
theorem Run.map_iff {f : ε → ε'} {f' : ε' → ε} {g : σ → τ} {g' : τ → σ}
    (hf : Function.LeftInverse f' f) (hg : Function.LeftInverse g' g)
    (hto : ∀ h s, Run init step h s → Run init' step' (h.map (Prod.map f g)) (g s))
    (hback : ∀ h t, Run init' step' h t → Run init step (h.map (Prod.map f' g')) (g' t))
    (h : List (ε × σ)) (s : σ) :
    Run init' step' (h.map (Prod.map f g)) (g s) ↔ Run init step h s := by
  refine ⟨fun hrun => ?_, hto h s⟩
  have hrun' := hback _ _ hrun
  rwa [List.map_map, Prod.map_comp_map, hf.comp_eq_id, hg.comp_eq_id, Prod.map_id, List.map_id,
    hg s] at hrun'

end Runs

end SimOS.Library
