import Mathlib.Data.Fintype.Basic
import Mathlib.Tactic.Basic

/-!
# Searching around a circle

The places `0, …, n - 1` stand in a circle and are visited from a hand on.
`First p h i` says that `i` is the first place, from `h` on, that satisfies
`p`. A program that has no circle looks from the hand to the end and then from
the start to the hand; the two lemmas say that each half of that search finds
the first place of the circle.
-/

namespace SimOS.Library.CyclicSearch

variable {n : ℕ}

/-- The place `d` steps after the hand. -/
def after (h : Fin n) (d : ℕ) : Fin n := ⟨(h + d) % n, Nat.mod_lt _ h.pos⟩

/-- The first place from the hand on that satisfies `p`, going around once. -/
def First (p : Fin n → Prop) (h i : Fin n) : Prop :=
  ∃ d < n, i = after h d ∧ p i ∧ ∀ j < d, ¬p (after h j)

/-- Up to the end the places are met in their order. -/
theorem after_of_lt {h : Fin n} {d : ℕ} (hd : h + d < n) : (after h d : ℕ) = h + d :=
  Nat.mod_eq_of_lt hd

/-- Past the end they are met from the start. -/
theorem after_of_le {h : Fin n} {d : ℕ} (hle : n ≤ h + d) (hd : d < n) :
    (after h d : ℕ) = h + d - n := by
  show (h + d) % n = _
  rw [Nat.mod_eq_sub_mod hle, Nat.mod_eq_of_lt (by omega)]

@[simp] theorem after_zero (h : Fin n) : after h 0 = h := Fin.ext (after_of_lt h.isLt)

theorem after_after (h : Fin n) (a b : ℕ) : after (after h a) b = after h (a + b) := by
  apply Fin.ext
  show ((h + a) % n + b) % n = (h + (a + b)) % n
  rw [Nat.mod_add_mod, Nat.add_assoc]

/-- Once around the circle one is back at the hand. -/
theorem after_length (h : Fin n) : after h n = h := by
  apply Fin.ext
  show (h + n) % n = h
  rw [Nat.add_mod_right, Nat.mod_eq_of_lt h.isLt]

theorem after_ne {h : Fin n} {d : ℕ} (hpos : 0 < d) (hd : d < n) : after h d ≠ h := by
  intro heq
  have hval := congrArg Fin.val heq
  have hh := h.isLt
  by_cases hlt : h + d < n
  · rw [after_of_lt hlt] at hval
    omega
  · rw [after_of_le (by omega) hd] at hval
    omega

/-- Every place is met. -/
theorem exists_after (h i : Fin n) : ∃ d < n, i = after h d := by
  have hi := i.isLt
  have hh := h.isLt
  by_cases hle : (h : ℕ) ≤ i
  · refine ⟨i - h, by omega, Fin.ext ?_⟩
    rw [after_of_lt (by omega)]
    omega
  · refine ⟨n - h + i, by omega, Fin.ext ?_⟩
    rw [after_of_le (by omega) (by omega)]
    omega

/-- The search ends at the hand if it can. -/
theorem First.eq_hand {p : Fin n → Prop} {h i : Fin n} (hfirst : First p h i) (hp : p h) :
    i = h := by
  obtain ⟨d, _, rfl, _, hbefore⟩ := hfirst
  by_cases hd : d = 0
  · rw [hd, after_zero]
  · refine absurd ?_ (hbefore 0 (Nat.pos_of_ne_zero hd))
    rwa [after_zero]

/-- What the search from the hand to the end finds is the first place of the circle. -/
theorem First.front {p : Fin n → Prop} {h i : Fin n} (hle : h ≤ i) (hp : p i)
    (hbefore : ∀ j, h ≤ j → j < i → ¬p j) : First p h i := by
  rw [Fin.le_def] at hle
  have hi := i.isLt
  refine ⟨i - h, by omega, ?_, hp, fun j hj => ?_⟩
  · apply Fin.ext
    rw [after_of_lt (by omega)]
    omega
  · have hval : (after h j : ℕ) = h + j := after_of_lt (by omega)
    apply hbefore
    · rw [Fin.le_def]
      omega
    · rw [Fin.lt_def]
      omega

/-- What the search from the start to the hand finds is the first place of the
circle, when there was none from the hand on. -/
theorem First.back {p : Fin n → Prop} {h i : Fin n} (hlt : i < h) (hp : p i)
    (hfront : ∀ j, h ≤ j → ¬p j) (hbefore : ∀ j < i, ¬p j) : First p h i := by
  rw [Fin.lt_def] at hlt
  have hh := h.isLt
  refine ⟨n - h + i, by omega, ?_, hp, fun j hj => ?_⟩
  · apply Fin.ext
    rw [after_of_le (by omega) (by omega)]
    omega
  · by_cases hwrap : h + j < n
    · apply hfront
      rw [Fin.le_def, after_of_lt hwrap]
      omega
    · apply hbefore
      rw [Fin.lt_def, after_of_le (by omega) (by omega)]
      omega

/-! ## Sweeping the circle

A clock takes the first place that it may take, and its hand goes behind it. When
a place that is in use may be taken again, the hand has come around: behind it,
seen from the hand, every place is in use too.
-/

/-- After `n` places they come again. -/
theorem after_add_length (h : Fin n) (d : ℕ) : after h (n + d) = after h d := by
  rw [← after_after, after_length]

/-- Behind a place that is in use and may be taken, all are in use. -/
def Swept (used spare : Fin n → Prop) (h : Fin n) : Prop :=
  ∀ d e, d < e → e < n → used (after h d) → spare (after h d) → used (after h e)

/-- With more places in use, and no others of them to be taken, it stays so. -/
theorem Swept.mono {used spare used' spare' : Fin n → Prop} {h : Fin n}
    (hswept : Swept used spare h) (hmore : ∀ i, used i → used' i)
    (hold : ∀ i, used' i → spare' i → used i ∧ spare i) : Swept used' spare' h := by
  intro d e hde he hused hspare
  obtain ⟨hused, hspare⟩ := hold _ hused hspare
  exact hmore _ (hswept d e hde he hused hspare)

/-- The clock takes a place in use only when all are. -/
theorem Swept.all_used {used spare : Fin n → Prop} {h s : Fin n} (hswept : Swept used spare h)
    (hfree : ∀ i, ¬used i → spare i) (hfirst : First spare h s) (hs : used s) (i : Fin n) :
    used i := by
  obtain ⟨d, hd, rfl, hspare, hbefore⟩ := hfirst
  obtain ⟨e, he, rfl⟩ := exists_after h i
  rcases lt_trichotomy e d with hlt | rfl | hgt
  · by_contra hnot
    exact hbefore e hlt (hfree _ hnot)
  · exact hs
  · exact hswept d e hgt he hs hspare

/-- Taking the first place that may be taken, with the hand put behind it. -/
theorem Swept.take {used spare used' spare' : Fin n → Prop} {h s : Fin n}
    (hswept : Swept used spare h) (hfree : ∀ i, ¬used i → spare i) (hfirst : First spare h s)
    (hs : used' s) (hused : ∀ i, i ≠ s → (used' i ↔ used i))
    (hspare : ∀ i, i ≠ s → (spare' i ↔ spare i)) : Swept used' spare' (after s 1) := by
  obtain ⟨c, hc, rfl, _, hbefore⟩ := hfirst
  intro d e hde he hd hd'
  rw [after_after] at hd hd' ⊢
  have hne : ∀ j, 1 + j < n → after (after h c) (1 + j) ≠ after h c :=
    fun j hj => after_ne (by omega) hj
  rw [hused _ (hne d (by omega))] at hd
  rw [hspare _ (hne d (by omega))] at hd'
  by_cases hlast : 1 + e = n
  · rw [hlast, after_length]
    exact hs
  · rw [hused _ (hne e (by omega))]
    rw [after_after] at hd hd' ⊢
    by_cases hwrap : c + (1 + d) < n
    · by_cases hwrap' : c + (1 + e) < n
      · exact hswept _ _ (by omega) hwrap' hd hd'
      · -- the later place comes before the one that was taken
        rw [show c + (1 + e) = n + (c + (1 + e) - n) by omega, after_add_length]
        by_contra hnot
        exact hbefore _ (by omega) (hfree _ hnot)
    · rw [show c + (1 + d) = n + (c + (1 + d) - n) by omega, after_add_length] at hd'
      exact absurd hd' (hbefore _ (by omega))

end SimOS.Library.CyclicSearch
