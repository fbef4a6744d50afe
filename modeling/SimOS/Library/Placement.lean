import Mathlib.Data.Fintype.Card
import Mathlib.Data.List.Count
import Mathlib.Logic.Function.Basic
import Mathlib.Tactic.Basic

/-!
# Tokens in places

Every token is in at most one place and occurs there once. The places hold
lists, so they may be queues; `pos` says where each token is. Taking a token
from its place and appending it to another, or to none, keeps this so, and it
is what every step of a system that only moves tokens around does.
-/

namespace SimOS.Library

variable {α ι : Type*} [DecidableEq α] [DecidableEq ι]

/-- Each token occurs once, in the place it is in, and nowhere else. -/
def Placed (c : ι → List α) (pos : α → Option ι) : Prop :=
  ∀ a i, (c i).count a = if pos a = some i then 1 else 0

/-- A token leaves one place and joins the end of another; `none` is outside. -/
def relocate (c : ι → List α) (a : α) (src dst : Option ι) : ι → List α := fun i =>
  if dst = some i then c i ++ [a] else if src = some i then (c i).erase a else c i

namespace Placed

variable {c : ι → List α} {pos : α → Option ι}

theorem mem_iff (h : Placed c pos) {a : α} {i : ι} : a ∈ c i ↔ pos a = some i := by
  rw [← List.count_pos_iff, h a i]
  by_cases hpos : pos a = some i <;> simp [hpos]

theorem nodup (h : Placed c pos) (i : ι) : (c i).Nodup := by
  rw [List.nodup_iff_count_le_one]
  intro a
  rw [h a i]
  split <;> decide

theorem relocate (h : Placed c pos) {a : α} {src dst : Option ι} (ha : pos a = src)
    (hne : src ≠ dst) : Placed (relocate c a src dst) (Function.update pos a dst) := by
  intro b i
  have hb := h b i
  by_cases hba : b = a
  · subst hba
    rw [Function.update_self, Library.relocate]
    rw [ha] at hb
    by_cases hd : dst = some i
    · have hs : src ≠ some i := fun hs => hne (hs.trans hd.symm)
      rw [if_neg hs] at hb
      rw [if_pos hd, if_pos hd, List.count_append, hb, List.count_singleton_self]
    · rw [if_neg hd, if_neg hd]
      by_cases hs : src = some i
      · rw [if_pos hs] at hb
        rw [if_pos hs, List.count_erase_self, hb]
      · rw [if_neg hs] at hb
        rw [if_neg hs, hb]
  · have hab : a ≠ b := Ne.symm hba
    rw [Function.update_of_ne hba, ← hb, Library.relocate]
    by_cases hd : dst = some i
    · rw [if_pos hd, List.count_append, List.count_singleton, if_neg (by simpa using hab),
        Nat.add_zero]
    · rw [if_neg hd]
      by_cases hs : src = some i
      · rw [if_pos hs, List.count_erase_of_ne hba]
      · rw [if_neg hs]

/-- The token adds one to the length of its new place and takes one from its old one. -/
theorem length_relocate (h : Placed c pos) {a : α} {src dst : Option ι} (ha : pos a = src)
    (hne : src ≠ dst) (i : ι) :
    (Library.relocate c a src dst i).length + (if src = some i then 1 else 0) =
      (c i).length + (if dst = some i then 1 else 0) := by
  rw [Library.relocate]
  by_cases hd : dst = some i
  · have hs : src ≠ some i := fun hs => hne (hs.trans hd.symm)
    rw [if_pos hd, if_pos hd, if_neg hs, List.length_append]
    rfl
  · rw [if_neg hd, if_neg hd]
    by_cases hs : src = some i
    · have hmem : a ∈ c i := h.mem_iff.mpr (ha.trans hs)
      have hpos := List.length_pos_of_mem hmem
      rw [if_pos hs, if_pos hs, List.length_erase_of_mem hmem]
      omega
    · rw [if_neg hs, if_neg hs]

end Placed

/-- Changing one value changes the number of arguments that meet a test by what
the old and the new value contribute. -/
theorem card_filter_update [Fintype α] {β : Type*} (f : α → β) (P : β → Prop) [DecidablePred P]
    (a : α) (b : β) :
    (Finset.univ.filter fun x => P (Function.update f a b x)).card + (if P (f a) then 1 else 0) =
      (Finset.univ.filter fun x => P (f x)).card + (if P b then 1 else 0) := by
  have hrest : ((Finset.univ.erase a).filter fun x => P (Function.update f a b x)) =
      (Finset.univ.erase a).filter fun x => P (f x) := by
    refine Finset.filter_congr fun x hx => ?_
    rw [Function.update_of_ne (Finset.ne_of_mem_erase hx)]
  have hsplit : ∀ g : α → β, (Finset.univ.filter fun x => P (g x)).card =
      ((Finset.univ.erase a).filter fun x => P (g x)).card + (if P (g a) then 1 else 0) := by
    intro g
    rw [← Finset.insert_erase (Finset.mem_univ a), Finset.filter_insert]
    split_ifs with hg
    · rw [Finset.card_insert_of_notMem (by simp), Finset.erase_insert (by simp)]
    · rw [Finset.erase_insert (by simp), Nat.add_zero]
  rw [hsplit f, hsplit (Function.update f a b), hrest, Function.update_self]
  omega

end SimOS.Library
