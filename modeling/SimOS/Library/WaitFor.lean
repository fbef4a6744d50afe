import Mathlib.Data.Set.Finite.Lattice
import Mathlib.Order.Preorder.Finite

/-!
# Waiting for resources in order

Processes hold resources and wait for others. When every resource that somebody
waits for is held, and nobody waits for a resource that is not above all those it
holds, the chain from a process to the holder of what it waits for climbs. So it
ends, at a holder that does not wait.
-/

namespace SimOS.Library

variable {P R α : Type*} [LinearOrder α]

/-- What is waited for is held, by processes that wait only for resources of
higher rank. -/
structure ClimbingWaits (holds waits : P → R → Prop) (rank : R → α) : Prop where
  held : ∀ p r, waits p r → ∃ q, holds q r
  climbs : ∀ p r r', holds p r → waits p r' → rank r < rank r'

/-- If somebody waits, then somebody holds a resource that is waited for and does
not wait itself. -/
theorem ClimbingWaits.exists_free_holder [Finite R] {holds waits : P → R → Prop} {rank : R → α}
    (h : ClimbingWaits holds waits rank) {p : P} {r : R} (hp : waits p r) :
    ∃ q top, holds q top ∧ (∃ p', waits p' top) ∧ ∀ r', ¬waits q r' := by
  obtain ⟨top, ⟨p', hp'⟩, htop⟩ :=
    (Set.toFinite {r | ∃ p, waits p r}).exists_maximalFor rank _ ⟨r, p, hp⟩
  obtain ⟨q, hq⟩ := h.held p' top hp'
  refine ⟨q, top, hq, ⟨p', hp'⟩, fun r' hwaits => ?_⟩
  have hlt := h.climbs q top r' hq hwaits
  exact absurd (htop ⟨q, hwaits⟩ (le_of_lt hlt)) (not_le.mpr hlt)

end SimOS.Library
