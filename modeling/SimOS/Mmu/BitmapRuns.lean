import SimOS.Mmu.Translate
import SimOS.Library.Run

/-!
# Runs of the bitmap accessors

Calls of `mmu_modify_*` on any of the three bitmaps and of `mmu_clear_rbits`, in
any order and from any contents. Each bitmap is a set of frames of its own: a
frame's bit is what was last written to it, and a write changes no other bit.
-/

namespace SimOS

open Library
open Library.PackedBits (bit_write bit_zero div_lt_iff)

variable {n k : ℕ}

/-- The three bitmaps. -/
inductive Bitmap
  | rbit
  | mbit
  | pageframe
  deriving DecidableEq

namespace Bitmaps

def words (b : Bitmaps k) : Bitmap → Fin k → Word
  | .rbit => b.rbitBitmap
  | .mbit => b.mbitBitmap
  | .pageframe => b.pageframeBitmap

/-- The `mmu_modify_*` of a bitmap. -/
def modify (b : Bitmaps k) : Bitmap → Word → ℤ → Option (Bitmaps k)
  | .rbit => b.mmuModifyRbitInBitmap
  | .mbit => b.mmuModifyMbitInBitmap
  | .pageframe => b.mmuModifyPageframeBitmap

/-- The `mmu_get_*` of a bitmap. -/
def get (b : Bitmaps k) : Bitmap → Word → Option ℤ
  | .rbit => b.mmuGetRbitInBitmapValue
  | .mbit => b.mmuGetMbitInBitmapValue
  | .pageframe => b.mmuGetPageframeBitmapValue

/-- An assignment to all words of a bitmap. -/
def setWords (b : Bitmaps k) (bitmap : Bitmap) (words : Fin k → Word) : Bitmaps k :=
  match bitmap with
  | .rbit => { b with rbitBitmap := words }
  | .mbit => { b with mbitBitmap := words }
  | .pageframe => { b with pageframeBitmap := words }

theorem words_setWords (b : Bitmaps k) (bitmap : Bitmap) (words : Fin k → Word) :
    (b.setWords bitmap words).words = Function.update b.words bitmap words := by
  funext other
  cases bitmap <;> cases other <;> rfl

theorem modify_eq (b : Bitmaps k) (bitmap : Bitmap) (pframe : Word) (val : ℤ) :
    b.modify bitmap pframe val =
      (modifyBit (b.words bitmap) pframe val).map (b.setWords bitmap) := by
  cases bitmap <;> rfl

/-- The frame is in the set that the bitmap stands for. -/
def holds (b : Bitmaps k) (bitmap : Bitmap) (f : ℕ) : Bool := PackedBits.bit (b.words bitmap) f

theorem get_eq (b : Bitmaps k) (bitmap : Bitmap) {pframe : Word} (hf : pframe.toNat / 32 < k) :
    b.get bitmap pframe = some (ofBit (b.holds bitmap pframe.toNat)) := by
  have hget : b.get bitmap pframe = getBit (b.words bitmap) pframe := by cases bitmap <;> rfl
  rw [hget, getBit_eq, if_pos hf]
  rfl

end Bitmaps

/-- A call that writes to the bitmaps. -/
inductive BitmapEvent
  | modify (bitmap : Bitmap) (pframe : Word) (val : ℤ)
  | clearRbits

namespace BitmapEvent

/-- The event is about a frame inside the bitmaps. -/
def Inside (k : ℕ) : BitmapEvent → Prop
  | .modify _ pframe _ => pframe.toNat < 32 * k
  | .clearRbits => True

/-- What the event writes to the bit of the frame, if it writes to it. -/
def value? (bitmap : Bitmap) (f : ℕ) : BitmapEvent → Option Bool
  | .modify b pframe val => if b = bitmap ∧ pframe.toNat = f then some (val ≠ 0) else none
  | .clearRbits => if bitmap = .rbit then some false else none

end BitmapEvent

namespace Mmu

/-- The MMU after the call; `none` is undefined behaviour. -/
def writeBits (m : Mmu n k) : BitmapEvent → Option (Mmu n k)
  | .modify bitmap pframe val =>
    (m.bitmaps.modify bitmap pframe val).map fun bitmaps => { m with bitmaps := bitmaps }
  | .clearRbits => some m.mmuClearRbits

theorem div_lt_of_inside {pframe : Word} (hf : pframe.toNat < 32 * k) :
    pframe.toNat / 32 < k := by
  rw [Nat.mul_comm] at hf
  exact (div_lt_iff (by decide) _).mpr hf

/-- A call inside the bitmaps is defined. It writes what it is about, and leaves
every other bit of the three bitmaps alone. -/
theorem writeBits_holds (m : Mmu n k) {e : BitmapEvent} (he : e.Inside k) :
    ∃ m', m.writeBits e = some m' ∧ ∀ bitmap f,
      m'.bitmaps.holds bitmap f = (e.value? bitmap f).getD (m.bitmaps.holds bitmap f) := by
  cases e with
  | modify b pframe val =>
    have hlt := div_lt_of_inside he
    rw [writeBits, Bitmaps.modify_eq, modifyBit_eq, if_pos hlt]
    refine ⟨_, rfl, fun bitmap f => ?_⟩
    rw [Bitmaps.holds, Bitmaps.words_setWords, BitmapEvent.value?]
    by_cases hb : b = bitmap
    · subst hb
      rw [Function.update_self, bit_write (by decide) hlt]
      by_cases hf : f = pframe.toNat
      · rw [if_pos hf, if_pos ⟨rfl, hf.symm⟩]
        rfl
      · rw [if_neg hf, if_neg fun h => hf h.2.symm]
        rfl
    · rw [Function.update_of_ne (Ne.symm hb), if_neg fun h => hb h.1]
      rfl
  | clearRbits =>
    refine ⟨_, rfl, fun bitmap f => ?_⟩
    cases bitmap with
    | rbit => exact bit_zero f
    | mbit => rfl
    | pageframe => rfl

/-- A run from the given contents. -/
def BitmapRun (m₀ : Mmu n k) : List (BitmapEvent × Mmu n k) → Mmu n k → Prop :=
  Run (· = m₀) fun _ m e m' => e.Inside k ∧ m.writeBits e = some m'

/-- What was last written to the bit of the frame, if anything was. -/
def lastWrite (bitmap : Bitmap) (f : ℕ) : List (BitmapEvent × Mmu n k) → Option Bool
  | [] => none
  | (e, _) :: h => (e.value? bitmap f).or (lastWrite bitmap f h)

/-- Along every run a frame is in the set of a bitmap as the last write to it says. -/
theorem BitmapRun.holds_eq {m₀ m : Mmu n k} {h : List (BitmapEvent × Mmu n k)}
    (hrun : BitmapRun m₀ h m) (bitmap : Bitmap) (f : ℕ) :
    m.bitmaps.holds bitmap f = (lastWrite bitmap f h).getD (m₀.bitmaps.holds bitmap f) := by
  refine Run.invariant (P := fun h m =>
    m.bitmaps.holds bitmap f = (lastWrite bitmap f h).getD (m₀.bitmaps.holds bitmap f)) ?_ ?_ hrun
  · rintro _ rfl
    rfl
  · rintro h m e m' _ ih ⟨hinside, hwrite⟩
    obtain ⟨m₁, hm₁, hholds⟩ := m.writeBits_holds hinside
    obtain rfl := Option.some.inj (hwrite.symm.trans hm₁)
    rw [hholds, ih, lastWrite, Option.getD_or]

/-- The bitmaps are independent sets of frames. In every run each accessor
returns what was last written to the bit of the frame, or the bit it had at the
start; and every call is defined and changes no bit but those it writes. -/
theorem bitmaps_independent {m₀ m : Mmu n k} {h : List (BitmapEvent × Mmu n k)}
    (hrun : BitmapRun m₀ h m) :
    (∀ bitmap (pframe : Word), pframe.toNat < 32 * k →
      m.bitmaps.get bitmap pframe = some (Bitmaps.ofBit
        ((lastWrite bitmap pframe.toNat h).getD
          (PackedBits.bit (m₀.bitmaps.words bitmap) pframe.toNat)))) ∧
    ∀ e : BitmapEvent, e.Inside k → ∃ m', m.writeBits e = some m' ∧
      ∀ bitmap (pframe : Word), pframe.toNat < 32 * k → e.value? bitmap pframe.toNat = none →
        m'.bitmaps.get bitmap pframe = m.bitmaps.get bitmap pframe := by
  refine ⟨fun bitmap pframe hf => ?_, fun e he => ?_⟩
  · rw [Bitmaps.get_eq _ _ (div_lt_of_inside hf), hrun.holds_eq]
    rfl
  · obtain ⟨m', hm', hholds⟩ := m.writeBits_holds he
    refine ⟨m', hm', fun bitmap pframe hf hother => ?_⟩
    rw [Bitmaps.get_eq _ _ (div_lt_of_inside hf), Bitmaps.get_eq _ _ (div_lt_of_inside hf),
      hholds, hother]
    rfl

/-- The contents `malloc` returned have ones for the frames 30 and 31, and M bit 31 is cleared. -/
theorem bitmaps_independent_clear_last :
    ∃ m, BitmapRun (mmuInitialize 32#32 (garbage 1 _)) [(.modify .mbit 31#32 0, m)] m ∧
      m.bitmaps.get .mbit 31#32 = some 0 ∧ m.bitmaps.get .mbit 30#32 = some 1 := by
  have hinside : (BitmapEvent.modify .mbit 31#32 0).Inside (bitSize 32#32) := by
    show (31#32).toNat < 32 * bitSize 32#32
    decide
  obtain ⟨m, hm, _⟩ := (mmuInitialize 32#32 (garbage 1 _)).writeBits_holds hinside
  have hrun : BitmapRun (mmuInitialize 32#32 (garbage 1 _)) [(.modify .mbit 31#32 0, m)] m :=
    .next (.start rfl) ⟨hinside, hm⟩
  have hget := (bitmaps_independent hrun).1 .mbit
  exact ⟨m, hrun, hget 31#32 (by decide), hget 30#32 (by decide)⟩

end Mmu

end SimOS
