import Mathlib.Data.Finset.Card
import Mathlib.Tactic.Basic

/-!
# Taking from a finite pool

A request takes some element of the pool out of it, and is refused only when
the pool is empty. Which element is taken is left open. As many requests as
there are elements hand out each element once; every later one is refused.
-/

namespace SimOS.Library.Pool

variable {α : Type*} [DecidableEq α]

/-- One request, with what it returns. -/
inductive Take : Finset α → Option α → Finset α → Prop
  | granted {pool : Finset α} {a : α} (ha : a ∈ pool) : Take pool (some a) (pool.erase a)
  | refused : Take ∅ none ∅

/-- A row of requests. -/
inductive Takes : Finset α → List (Option α) → Finset α → Prop
  | nil (pool : Finset α) : Takes pool [] pool
  | cons {pool pool' pool'' : Finset α} {out : Option α} {outs : List (Option α)} :
      Take pool out pool' → Takes pool' outs pool'' → Takes pool (out :: outs) pool''

variable {pool pool' : Finset α} {outs : List (Option α)}

/-- What is left is what was there and not handed out, and what was handed out was there. -/
theorem Takes.mem_iff (h : Takes pool outs pool') (a : α) :
    (a ∈ pool' ↔ a ∈ pool ∧ some a ∉ outs) ∧ (some a ∈ outs → a ∈ pool) := by
  induction h with
  | nil pool => simp
  | cons htake _ ih =>
    obtain ⟨hleft, hout⟩ := ih
    cases htake with
    | @granted _ b hb =>
      rw [hleft]
      rw [Finset.mem_erase] at hout ⊢
      constructor
      · rw [List.mem_cons, Option.some.injEq]
        tauto
      · intro ha
        rcases List.mem_cons.mp ha with heq | ha
        · rw [Option.some.inj heq]
          exact hb
        · exact (hout ha).2
    | refused => simp_all

/-- Nothing is handed out twice. -/
theorem Takes.nodup (h : Takes pool outs pool') (hnone : none ∉ outs) : outs.Nodup := by
  induction h with
  | nil pool => exact List.nodup_nil
  | cons htake hrest ih =>
    rw [List.mem_cons, not_or] at hnone
    refine List.nodup_cons.mpr ⟨fun hmem => ?_, ih hnone.2⟩
    cases htake with
    | @granted _ a ha => exact Finset.notMem_erase a _ ((hrest.mem_iff a).2 hmem)
    | refused => exact hnone.1 rfl

/-- As long as there are elements left no request is refused. -/
theorem Takes.granted_of_length_le (h : Takes pool outs pool') (hlen : outs.length ≤ pool.card) :
    none ∉ outs ∧ pool'.card + outs.length = pool.card := by
  induction h with
  | nil pool => exact ⟨List.not_mem_nil, rfl⟩
  | cons htake _ ih =>
    rw [List.length_cons] at hlen ⊢
    cases htake with
    | @granted _ a ha =>
      have hcard := Finset.card_erase_add_one ha
      obtain ⟨hnone, hrest⟩ := ih (by omega)
      exact ⟨by simpa using hnone, by omega⟩
    | refused =>
      rw [Finset.card_empty] at hlen
      omega

/-- From the empty pool every request is refused. -/
theorem Takes.refused_of_empty (h : Takes ∅ outs pool') : ∀ out ∈ outs, out = none := by
  intro out hout
  cases out with
  | none => rfl
  | some a => exact absurd ((h.mem_iff a).2 hout) (Finset.notMem_empty a)

/-- As many requests as there are elements empty the pool. -/
theorem Takes.empty_of_length_eq (h : Takes pool outs pool') (hlen : outs.length = pool.card) :
    pool' = ∅ := by
  have hcard := (h.granted_of_length_le (Nat.le_of_eq hlen)).2
  apply Finset.card_eq_zero.mp
  omega

end SimOS.Library.Pool
