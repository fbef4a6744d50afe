import Mathlib.Logic.Function.Basic
import Mathlib.Tactic.Basic

/-!
# Who has a resource

Resources are free, in the hand of an agent, or in use by some user. The agent
takes free resources and releases them again, and puts those in its hand to use
and withdraws them. As long as everything moves this way no resource is in two
places, and no two users have the same one.
-/

namespace SimOS.Library

variable {U F : Type*}

/-- The free resources, those in the hand of the agent, and who uses which. -/
structure Custody (U F : Type*) where
  free : F → Prop
  hand : F → Prop
  used : U → Option F

namespace Custody

/-- Every resource is in one place at most, and has one user at most. -/
structure Exclusive (c : Custody U F) : Prop where
  hand_not_free : ∀ f, c.hand f → ¬c.free f
  used_not_free : ∀ u f, c.used u = some f → ¬c.free f
  used_not_hand : ∀ u f, c.used u = some f → ¬c.hand f
  used_once : ∀ u v f, c.used u = some f → c.used v = some f → u = v

/-- The moves of one resource. -/
inductive Step [DecidableEq U] (c c' : Custody U F) : Prop
  | rest (hfree : ∀ g, c'.free g ↔ c.free g) (hhand : ∀ g, c'.hand g ↔ c.hand g)
      (hused : c'.used = c.used)
  | take (f : F) (hf : c.free f) (hfree : ∀ g, c'.free g ↔ g ≠ f ∧ c.free g)
      (hhand : ∀ g, c'.hand g ↔ g = f ∨ c.hand g) (hused : c'.used = c.used)
  | release (f : F) (hf : c.hand f) (hfree : ∀ g, c'.free g ↔ g = f ∨ c.free g)
      (hhand : ∀ g, c'.hand g ↔ g ≠ f ∧ c.hand g) (hused : c'.used = c.used)
  | install (u : U) (f : F) (hf : c.hand f) (hfree : ∀ g, c'.free g ↔ c.free g)
      (hhand : ∀ g, c'.hand g ↔ g ≠ f ∧ c.hand g)
      (hused : c'.used = Function.update c.used u (some f))
  | withdraw (u : U) (f : F) (hf : c.used u = some f) (hfree : ∀ g, c'.free g ↔ c.free g)
      (hhand : ∀ g, c'.hand g ↔ g = f ∨ c.hand g)
      (hused : c'.used = Function.update c.used u none)

section Moves

variable [DecidableEq U] {c c' : Custody U F}

theorem used_update_some {u v : U} {f g : F}
    (h : Function.update c.used u (some f) v = some g) :
    (v = u ∧ g = f) ∨ (v ≠ u ∧ c.used v = some g) := by
  by_cases hv : v = u
  · rw [hv, Function.update_self] at h
    exact .inl ⟨hv, (Option.some.inj h).symm⟩
  · rw [Function.update_of_ne hv] at h
    exact .inr ⟨hv, h⟩

theorem used_update_none {u v : U} {g : F} (h : Function.update c.used u none v = some g) :
    v ≠ u ∧ c.used v = some g := by
  by_cases hv : v = u
  · rw [hv, Function.update_self] at h
    cases h
  · rw [Function.update_of_ne hv] at h
    exact ⟨hv, h⟩

/-- Every move keeps the resources apart. -/
theorem Exclusive.step (hc : c.Exclusive) (h : Step c c') : c'.Exclusive := by
  cases h with
  | rest hfree hhand hused =>
    refine ⟨fun g => ?_, fun u g => ?_, fun u g => ?_, fun u v g => ?_⟩
    · rw [hfree, hhand]
      exact hc.hand_not_free g
    · rw [hfree, hused]
      exact hc.used_not_free u g
    · rw [hhand, hused]
      exact hc.used_not_hand u g
    · rw [hused]
      exact hc.used_once u v g
  | take f hf hfree hhand hused =>
    refine ⟨fun g hg hfree' => ?_, fun u g hu hfree' => ?_, fun u g hu hg => ?_, fun u v g => ?_⟩
    · obtain ⟨hne, hold⟩ := (hfree g).mp hfree'
      exact hc.hand_not_free g (((hhand g).mp hg).resolve_left hne) hold
    · rw [hused] at hu
      exact hc.used_not_free u g hu ((hfree g).mp hfree').2
    · rw [hused] at hu
      rcases (hhand g).mp hg with rfl | hold
      · exact hc.used_not_free u g hu hf
      · exact hc.used_not_hand u g hu hold
    · rw [hused]
      exact hc.used_once u v g
  | release f hf hfree hhand hused =>
    refine ⟨fun g hg hfree' => ?_, fun u g hu hfree' => ?_, fun u g hu hg => ?_, fun u v g => ?_⟩
    · obtain ⟨hne, hold⟩ := (hhand g).mp hg
      exact hc.hand_not_free g hold (((hfree g).mp hfree').resolve_left hne)
    · rw [hused] at hu
      rcases (hfree g).mp hfree' with rfl | hold
      · exact hc.used_not_hand u g hu hf
      · exact hc.used_not_free u g hu hold
    · rw [hused] at hu
      exact hc.used_not_hand u g hu ((hhand g).mp hg).2
    · rw [hused]
      exact hc.used_once u v g
  | install u f hf hfree hhand hused =>
    refine ⟨fun g hg hfree' => ?_, fun v g hv hfree' => ?_, fun v g hv hg => ?_,
      fun v w g hv hw => ?_⟩
    · exact hc.hand_not_free g ((hhand g).mp hg).2 ((hfree g).mp hfree')
    · rw [hused] at hv
      rcases used_update_some hv with ⟨_, rfl⟩ | ⟨_, hold⟩
      · exact hc.hand_not_free g hf ((hfree g).mp hfree')
      · exact hc.used_not_free v g hold ((hfree g).mp hfree')
    · rw [hused] at hv
      obtain ⟨hne, hhand'⟩ := (hhand g).mp hg
      rcases used_update_some hv with ⟨_, heq⟩ | ⟨_, hold⟩
      · exact hne heq
      · exact hc.used_not_hand v g hold hhand'
    · -- nobody used the resource while it was in the hand
      rw [hused] at hv hw
      rcases used_update_some hv with ⟨rfl, rfl⟩ | ⟨_, hold⟩
      · rcases used_update_some hw with ⟨rfl, _⟩ | ⟨_, hother⟩
        · rfl
        · exact absurd hf (hc.used_not_hand w g hother)
      · rcases used_update_some hw with ⟨_, rfl⟩ | ⟨_, hother⟩
        · exact absurd hf (hc.used_not_hand v g hold)
        · exact hc.used_once v w g hold hother
  | withdraw u f hf hfree hhand hused =>
    refine ⟨fun g hg hfree' => ?_, fun v g hv hfree' => ?_, fun v g hv hg => ?_,
      fun v w g hv hw => ?_⟩
    · rw [hfree] at hfree'
      rcases (hhand g).mp hg with rfl | hold
      · exact hc.used_not_free u g hf hfree'
      · exact hc.hand_not_free g hold hfree'
    · rw [hused] at hv
      exact hc.used_not_free v g (used_update_none hv).2 ((hfree g).mp hfree')
    · rw [hused] at hv
      obtain ⟨hne, hold⟩ := used_update_none hv
      rcases (hhand g).mp hg with rfl | hhand'
      · exact hne (hc.used_once v u g hold hf)
      · exact hc.used_not_hand v g hold hhand'
    · rw [hused] at hv hw
      exact hc.used_once v w g (used_update_none hv).2 (used_update_none hw).2

end Moves

end Custody

end SimOS.Library
