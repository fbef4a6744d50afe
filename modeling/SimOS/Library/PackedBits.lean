import Mathlib.Data.BitVec
import Mathlib.Data.Fintype.Basic
import Mathlib.Logic.Function.Basic
import Mathlib.Tactic.Basic

/-!
# Sets packed into an array of words

An array of `k` words of `w` bits stores one bit for each number below
`k * w`: number `f` is bit `f % w` of word `f / w`. `bit` reads a number's bit
and `write` sets it; `bit_write` says that a write changes the bit it is about
and no other, in the same word or in another one.
-/

namespace SimOS.Library.PackedBits

variable {w k : ℕ}

/-- The bit of number `f`; numbers past the last word read as `false`. -/
def bit (words : Fin k → BitVec w) (f : ℕ) : Bool :=
  if h : f / w < k then (words ⟨f / w, h⟩).getLsbD (f % w) else false

/-- One word with bit `i` set to `v`. -/
def writeWord (x : BitVec w) (i : ℕ) (v : Bool) : BitVec w :=
  if v then x ||| BitVec.twoPow w i else x &&& ~~~BitVec.twoPow w i

/-- The array with the bit of number `f` set to `v`. -/
def write (words : Fin k → BitVec w) (f : ℕ) (v : Bool) : Fin k → BitVec w :=
  if h : f / w < k then
    Function.update words ⟨f / w, h⟩ (writeWord (words ⟨f / w, h⟩) (f % w) v)
  else words

theorem bit_of_lt {words : Fin k → BitVec w} {f : ℕ} (h : f / w < k) :
    bit words f = (words ⟨f / w, h⟩).getLsbD (f % w) :=
  dif_pos h

theorem write_of_lt {words : Fin k → BitVec w} {f : ℕ} {v : Bool} (h : f / w < k) :
    write words f v =
      Function.update words ⟨f / w, h⟩ (writeWord (words ⟨f / w, h⟩) (f % w) v) :=
  dif_pos h

/-- Number `f` has a word exactly when it is below the capacity. -/
theorem div_lt_iff (hw : 0 < w) (f : ℕ) : f / w < k ↔ f < k * w :=
  Nat.div_lt_iff_lt_mul hw

theorem getLsbD_writeWord (x : BitVec w) {i : ℕ} (hi : i < w) (v : Bool) (j : ℕ) :
    (writeWord x i v).getLsbD j = if j = i then v else x.getLsbD j := by
  unfold writeWord
  cases v
  · simp only [Bool.false_eq_true, if_false, BitVec.getLsbD_and, BitVec.getLsbD_not,
      BitVec.getLsbD_twoPow]
    by_cases hji : j = i
    · simp [hji, hi]
    · by_cases hj : j < w
      · simp [hj, Ne.symm hji, hji]
      · simp [hji, BitVec.getLsbD_of_ge x j (Nat.le_of_not_lt hj)]
  · simp only [if_true, BitVec.getLsbD_or, BitVec.getLsbD_twoPow]
    by_cases hji : j = i
    · simp [hji, hi]
    · simp [Ne.symm hji, hji]

/-- A write is read back at its own number and leaves every other bit alone. -/
theorem bit_write {words : Fin k → BitVec w} {f : ℕ} (hw : 0 < w) (hf : f / w < k)
    (v : Bool) (g : ℕ) :
    bit (write words f v) g = if g = f then v else bit words g := by
  by_cases hg : g / w < k
  · rw [bit_of_lt hg, bit_of_lt hg, write_of_lt hf]
    by_cases hword : g / w = f / w
    · have hidx : (⟨g / w, hg⟩ : Fin k) = ⟨f / w, hf⟩ := Fin.ext hword
      rw [hidx, Function.update_self, getLsbD_writeWord _ (Nat.mod_lt f hw)]
      have hiff : g % w = f % w ↔ g = f := by
        constructor
        · intro hmod
          rw [← Nat.div_add_mod g w, ← Nat.div_add_mod f w, hword, hmod]
        · rintro rfl
          rfl
      simp only [hiff]
    · have hne : (⟨g / w, hg⟩ : Fin k) ≠ ⟨f / w, hf⟩ := fun h => hword (congrArg Fin.val h)
      have hgf : g ≠ f := fun h => hword (by rw [h])
      rw [Function.update_of_ne hne, if_neg hgf]
  · have hgf : g ≠ f := fun h => hg (by rw [h]; exact hf)
    rw [if_neg hgf, bit, bit, dif_neg hg, dif_neg hg]

/-- Every bit of an array of zero words is clear. -/
theorem bit_zero (f : ℕ) : bit (fun _ : Fin k => 0#w) f = false := by
  unfold bit
  split <;> simp

/-- The bits of word `i`. -/
theorem bit_word (words : Fin k → BitVec w) (i : Fin k) {j : ℕ} (hj : j < w) :
    bit words (i * w + j) = (words i).getLsbD j := by
  have hw : 0 < w := Nat.zero_lt_of_lt hj
  have hdiv : (i * w + j) / w = i := by
    rw [Nat.mul_comm, Nat.mul_add_div hw, Nat.div_eq_of_lt hj, Nat.add_zero]
  have hmod : (i * w + j) % w = j := by
    rw [Nat.mul_comm, Nat.mul_add_mod, Nat.mod_eq_of_lt hj]
  have hlt : (i * w + j) / w < k := by rw [hdiv]; exact i.isLt
  rw [bit_of_lt hlt, hmod]
  congr 2
  exact Fin.ext hdiv

/-- Two arrays with the same bits are equal. -/
theorem words_ext (hw : 0 < w) {a b : Fin k → BitVec w}
    (h : ∀ f < k * w, bit a f = bit b f) : a = b := by
  funext i
  refine BitVec.eq_of_getLsbD_eq fun j hj => ?_
  rw [← bit_word a i hj, ← bit_word b i hj]
  refine h _ ?_
  rw [← div_lt_iff hw, Nat.mul_comm, Nat.mul_add_div hw, Nat.div_eq_of_lt hj, Nat.add_zero]
  exact i.isLt

end SimOS.Library.PackedBits
