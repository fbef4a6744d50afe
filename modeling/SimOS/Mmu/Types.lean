import Mathlib.Data.BitVec
import Mathlib.Tactic.Basic

/-!
# Words, pages and frames

The types of `types.h`. An `unsigned int` is a 32-bit word. Virtual page
numbers and page frame numbers are words of which only the lowest 21 bits are
significant; the code passes them around as words, and the specifications read
them as 21-bit numbers.
-/

namespace SimOS

/-- `unsigned int` on the 32-bit machine. -/
abbrev Word := BitVec 32

/-- The significant bits of a `VPAGE_NUMBER`. -/
abbrev Vpage := BitVec 21

/-- The significant bits of a `PAGEFRAME_NUMBER`. -/
abbrev Frame := BitVec 21

/-- `OPERATION`. -/
inductive Operation
  | load
  | store
  deriving DecidableEq, Repr

/-- A 21-bit number as the word the code passes around. -/
def toWord (x : BitVec 21) : Word := x.setWidth 32

/-- The significant bits of a word that holds a page or frame number. -/
def low21 (x : Word) : BitVec 21 := x.setWidth 21

@[simp] theorem toNat_toWord (x : BitVec 21) : (toWord x).toNat = x.toNat := by
  rw [toWord, BitVec.toNat_setWidth, Nat.mod_eq_of_lt]
  exact Nat.lt_trans x.isLt (by decide)

@[simp] theorem low21_toWord (x : BitVec 21) : low21 (toWord x) = x := by
  apply BitVec.eq_of_toNat_eq
  rw [low21, BitVec.toNat_setWidth, toNat_toWord, Nat.mod_eq_of_lt x.isLt]

theorem toWord_inj {x y : BitVec 21} : toWord x = toWord y ↔ x = y :=
  ⟨fun h => by rw [← low21_toWord x, h, low21_toWord], fun h => by rw [h]⟩

theorem getLsbD_toWord (x : BitVec 21) (i : ℕ) : (toWord x).getLsbD i = x.getLsbD i := by
  rw [toWord, BitVec.getLsbD_setWidth]
  by_cases hi : i < 32
  · simp [hi]
  · simp [hi, BitVec.getLsbD_of_ge x i (by omega)]

theorem getLsbD_low21 (x : Word) (i : ℕ) :
    (low21 x).getLsbD i = (decide (i < 21) && x.getLsbD i) := by
  rw [low21, BitVec.getLsbD_setWidth]

/-- A mask of the lowest `n` bits. -/
theorem getLsbD_lowMask (n i : ℕ) (hn : n ≤ 32) :
    (BitVec.ofNat 32 (2 ^ n - 1)).getLsbD i = decide (i < n) := by
  rw [BitVec.getLsbD_ofNat, Nat.testBit_two_pow_sub_one]
  by_cases hi : i < n
  · simp [hi, Nat.lt_of_lt_of_le hi hn]
  · simp [hi]

/-- Masking out everything but the lowest 21 bits. -/
theorem and_mask21 (x : Word) : x &&& 0x001FFFFF#32 = toWord (low21 x) := by
  have hmask : (0x001FFFFF#32) = BitVec.ofNat 32 (2 ^ 21 - 1) := rfl
  refine BitVec.eq_of_getLsbD_eq fun i _ => ?_
  rw [hmask, BitVec.getLsbD_and, getLsbD_lowMask 21 i (by decide), getLsbD_toWord,
    getLsbD_low21, Bool.and_comm]

/-- A test against a one-bit mask reads that bit. -/
theorem and_twoPow_ne_zero {x : Word} {i : ℕ} (hi : i < 32) :
    x &&& BitVec.twoPow 32 i ≠ 0#32 ↔ x.getLsbD i = true := by
  rw [BitVec.and_twoPow]
  have hne : BitVec.twoPow 32 i ≠ 0#32 := by
    intro h
    have hbit := BitVec.getLsbD_twoPow (w := 32) i i
    rw [h] at hbit
    simp [hi] at hbit
  cases hx : x.getLsbD i
  · simp
  · simpa using hne

end SimOS
