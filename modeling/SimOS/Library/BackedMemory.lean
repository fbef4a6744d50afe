import Mathlib.Logic.Function.Basic

/-!
# Memory with a backing store

Some addresses are placed in memory and have their contents there; the contents
of the others are in the backing store. A reader, who does not know which
addresses are placed, sees the `view`.
-/

namespace SimOS.Library

variable {α π ν : Type*}

structure BackedMemory (α π ν : Type*) where
  place : α → Option π
  memory : π → ν
  backing : α → ν

namespace BackedMemory

/-- What is at an address, wherever it is kept. -/
def view (s : BackedMemory α π ν) (a : α) : ν :=
  match s.place a with
  | some p => s.memory p
  | none => s.backing a

theorem view_placed {s : BackedMemory α π ν} {a : α} {p : π} (h : s.place a = some p) :
    s.view a = s.memory p := by
  rw [view, h]

theorem view_unplaced {s : BackedMemory α π ν} {a : α} (h : s.place a = none) :
    s.view a = s.backing a := by
  rw [view, h]

/-- No two addresses are placed at the same place. -/
def Apart (place : α → Option π) : Prop :=
  ∀ a b p, place a = some p → place b = some p → a = b

/-- Writing where an address is placed changes the view at this address. -/
theorem view_write [DecidableEq α] [DecidableEq π] {s s' : BackedMemory α π ν}
    (hapart : Apart s.place) {a : α} {p : π} (ha : s.place a = some p) {x : ν}
    (hplace : s'.place = s.place) (hmemory : s'.memory = Function.update s.memory p x)
    (hbacking : s'.backing = s.backing) : s'.view = Function.update s.view a x := by
  funext b
  by_cases hba : b = a
  · subst hba
    rw [view_placed (s := s') (by rw [hplace, ha]), hmemory, Function.update_self,
      Function.update_self]
  · rw [Function.update_of_ne hba]
    cases hb : s.place b with
    | none =>
      rw [view_unplaced hb, view_unplaced (s := s') (by rw [hplace, hb]), hbacking]
    | some q =>
      have hqp : q ≠ p := by
        rintro rfl
        exact hba (hapart b a q hb ha)
      rw [view_placed hb, view_placed (s := s') (by rw [hplace, hb]), hmemory,
        Function.update_of_ne hqp]

/-- Placing addresses leaves the view alone if their contents come along and
what was in memory stays. -/
theorem view_fetch {s s' : BackedMemory α π ν} (hbacking : s'.backing = s.backing)
    (h : ∀ a, (s'.place a = s.place a ∧ ∀ p, s.place a = some p → s'.memory p = s.memory p) ∨
      s.place a = none ∧ ∃ p, s'.place a = some p ∧ s'.memory p = s.backing a) :
    s'.view = s.view := by
  funext a
  rcases h a with ⟨hplace, hmemory⟩ | ⟨hnone, p, hplace, hmemory⟩
  · cases hold : s.place a with
    | none =>
      rw [view_unplaced hold, view_unplaced (hplace.trans hold), hbacking]
    | some p =>
      rw [view_placed hold, view_placed (hplace.trans hold), hmemory p hold]
  · rw [view_placed hplace, view_unplaced hnone, hmemory]

/-- Once addresses are no longer placed the view shows what the backing store has. -/
theorem view_drop {s s' : BackedMemory α π ν} {dropped : α → Prop} [DecidablePred dropped]
    (hmemory : s'.memory = s.memory) (hdropped : ∀ a, dropped a → s'.place a = none)
    (hkept : ∀ a, ¬dropped a → s'.place a = s.place a ∧ s'.backing a = s.backing a) :
    s'.view = fun a => if dropped a then s'.backing a else s.view a := by
  funext a
  by_cases ha : dropped a
  · rw [if_pos ha, view_unplaced (hdropped a ha)]
  · obtain ⟨hplace, hbacking⟩ := hkept a ha
    rw [if_neg ha, view, view, hplace, hmemory, hbacking]

end BackedMemory

end SimOS.Library
