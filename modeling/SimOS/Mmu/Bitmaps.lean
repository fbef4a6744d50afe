import SimOS.Mmu.Types
import SimOS.Library.PackedBits

/-!
# The bitmaps of `mmu.c`

The R, M and page frame bitmaps are arrays of `bit_size` words; here `k` is
`bit_size`. An access outside an array is undefined behaviour in C and is
`none` here. The accessors of the three bitmaps are copies of one another, so
each is `modifyBit` or `getBit` applied to its own bitmap.
-/

namespace SimOS

open Library (PackedBits.bit PackedBits.write PackedBits.writeWord)

variable {k : ℕ}

/-- The three bitmaps, of `k` words each. -/
structure Bitmaps (k : ℕ) where
  rbitBitmap : Fin k → Word
  mbitBitmap : Fin k → Word
  pageframeBitmap : Fin k → Word

/-- The index of the word that holds the bit of a frame. -/
def pfNum (pframe : Word) : ℕ := (pframe / 32#32).toNat

/-- The position of a frame's bit in its word. -/
def pfOffset (pframe : Word) : Word := pframe % 32#32

/-- The body shared by the three `mmu_modify_*` procedures. -/
def modifyBit (bitmap : Fin k → Word) (pframe : Word) (val : ℤ) : Option (Fin k → Word) :=
  if h : pfNum pframe < k then
    let word := bitmap ⟨pfNum pframe, h⟩
    if val ≠ 0 then
      some (Function.update bitmap ⟨pfNum pframe, h⟩ (word ||| (1#32 <<< pfOffset pframe)))
    else
      some (Function.update bitmap ⟨pfNum pframe, h⟩ (word &&& ~~~(1#32 <<< pfOffset pframe)))
  else none

/-- The body shared by the three `mmu_get_*` functions. -/
def getBit (bitmap : Fin k → Word) (pframe : Word) : Option ℤ :=
  if h : pfNum pframe < k then
    let bit := bitmap ⟨pfNum pframe, h⟩ &&& (1#32 <<< pfOffset pframe)
    some (if bit ≠ 0#32 then 1 else 0)
  else none

namespace Bitmaps

def mmuModifyRbitInBitmap (b : Bitmaps k) (pframe : Word) (val : ℤ) : Option (Bitmaps k) :=
  (modifyBit b.rbitBitmap pframe val).map fun words => { b with rbitBitmap := words }

def mmuGetRbitInBitmapValue (b : Bitmaps k) (pframe : Word) : Option ℤ :=
  getBit b.rbitBitmap pframe

def mmuModifyMbitInBitmap (b : Bitmaps k) (pframe : Word) (val : ℤ) : Option (Bitmaps k) :=
  (modifyBit b.mbitBitmap pframe val).map fun words => { b with mbitBitmap := words }

def mmuGetMbitInBitmapValue (b : Bitmaps k) (pframe : Word) : Option ℤ :=
  getBit b.mbitBitmap pframe

def mmuGetPageframeBitmapValue (b : Bitmaps k) (pframe : Word) : Option ℤ :=
  getBit b.pageframeBitmap pframe

def mmuModifyPageframeBitmap (b : Bitmaps k) (pframe : Word) (val : ℤ) : Option (Bitmaps k) :=
  (modifyBit b.pageframeBitmap pframe val).map fun words => { b with pageframeBitmap := words }

/-- The `memset` of `mmu_clear_rbits`. -/
def clearRbits (b : Bitmaps k) : Bitmaps k := { b with rbitBitmap := fun _ => 0#32 }

end Bitmaps

/-! ## What the accessors do to the sets of frames -/

theorem pfNum_eq (pframe : Word) : pfNum pframe = pframe.toNat / 32 := by
  simp [pfNum, BitVec.toNat_udiv]

theorem one_shiftLeft_pfOffset (pframe : Word) :
    1#32 <<< pfOffset pframe = BitVec.twoPow 32 (pframe.toNat % 32) := by
  simp [pfOffset, BitVec.twoPow, BitVec.shiftLeft_eq', BitVec.toNat_umod]

/-- Inside the bitmap a modification writes the frame's bit; outside it is
undefined. -/
theorem modifyBit_eq (bitmap : Fin k → Word) (pframe : Word) (val : ℤ) :
    modifyBit bitmap pframe val =
      if pframe.toNat / 32 < k then some (PackedBits.write bitmap pframe.toNat (val ≠ 0))
      else none := by
  unfold modifyBit PackedBits.write PackedBits.writeWord
  simp only [pfNum_eq, one_shiftLeft_pfOffset]
  split_ifs <;> simp_all

/-- Inside the bitmap a read returns the frame's bit; outside it is undefined. -/
theorem getBit_eq (bitmap : Fin k → Word) (pframe : Word) :
    getBit bitmap pframe =
      if pframe.toNat / 32 < k then
        some (if PackedBits.bit bitmap pframe.toNat then 1 else 0)
      else none := by
  unfold getBit PackedBits.bit
  simp only [pfNum_eq, one_shiftLeft_pfOffset,
    and_twoPow_ne_zero (Nat.mod_lt pframe.toNat (by decide : 0 < 32))]
  split_ifs <;> rfl

namespace Bitmaps

/-- The R and M bits of a frame. -/
def rm (b : Bitmaps k) (f : Frame) : Bool × Bool :=
  (PackedBits.bit b.rbitBitmap f.toNat, PackedBits.bit b.mbitBitmap f.toNat)

/-- The bitmaps after both bits of a frame were written. -/
def writeRm (b : Bitmaps k) (f : Frame) (v : Bool × Bool) : Bitmaps k :=
  { b with
    rbitBitmap := PackedBits.write b.rbitBitmap f.toNat v.1
    mbitBitmap := PackedBits.write b.mbitBitmap f.toNat v.2 }

/-- The frame's word is inside the bitmaps. -/
def Covers (k : ℕ) (f : Frame) : Prop := f.toNat / 32 < k

instance (f : Frame) : Decidable (Covers k f) := inferInstanceAs (Decidable (_ < _))

theorem rm_writeRm {b : Bitmaps k} {f : Frame} (hf : Covers k f) (v : Bool × Bool) :
    (b.writeRm f v).rm = Function.update b.rm f v := by
  funext g
  have hiff : g.toNat = f.toNat ↔ g = f := BitVec.toNat_inj
  simp only [rm, writeRm, Library.PackedBits.bit_write (by decide : 0 < 32) hf, hiff]
  by_cases hg : g = f
  · simp [hg]
  · simp [hg, rm]

/-- Writing a frame's bits changes no other bit of the two bitmaps. -/
theorem bit_writeRm {b : Bitmaps k} {f : Frame} (hf : Covers k f) (v : Bool × Bool) (g : ℕ) :
    PackedBits.bit (b.writeRm f v).rbitBitmap g =
        (if g = f.toNat then v.1 else PackedBits.bit b.rbitBitmap g) ∧
      PackedBits.bit (b.writeRm f v).mbitBitmap g =
        if g = f.toNat then v.2 else PackedBits.bit b.mbitBitmap g :=
  ⟨Library.PackedBits.bit_write (by decide) hf v.1 g,
    Library.PackedBits.bit_write (by decide) hf v.2 g⟩

@[simp] theorem rm_clearRbits (b : Bitmaps k) (f : Frame) :
    b.clearRbits.rm f = (false, (b.rm f).2) := by
  simp [rm, clearRbits, Library.PackedBits.bit_zero]

/-- The integer the code uses for a bit. -/
def ofBit (v : Bool) : ℤ := if v then 1 else 0

/-- Outside the bitmaps the write is undefined. -/
theorem modify_m_of_not_covers {b : Bitmaps k} {f : Frame} (hf : ¬Covers k f) (m : ℤ) :
    b.mmuModifyMbitInBitmap (toWord f) m = none := by
  have hlt : ¬f.toNat / 32 < k := hf
  rw [mmuModifyMbitInBitmap, modifyBit_eq, toNat_toWord, if_neg hlt]
  rfl

/-- Writing a frame's M bit and then its R bit, as the TLB does. -/
theorem modify_m_r {b : Bitmaps k} {f : Frame} (hf : Covers k f) (m r : ℤ) :
    (b.mmuModifyMbitInBitmap (toWord f) m).bind
        (fun b => b.mmuModifyRbitInBitmap (toWord f) r) =
      some (b.writeRm f (r ≠ 0, m ≠ 0)) := by
  have hlt : f.toNat / 32 < k := hf
  simp [mmuModifyMbitInBitmap, mmuModifyRbitInBitmap, modifyBit_eq, hlt, writeRm]

theorem get_r {b : Bitmaps k} {f : Frame} (hf : Covers k f) :
    b.mmuGetRbitInBitmapValue (toWord f) = some (ofBit (b.rm f).1) := by
  have hlt : f.toNat / 32 < k := hf
  rw [mmuGetRbitInBitmapValue, getBit_eq, toNat_toWord, if_pos hlt]
  rfl

theorem get_m {b : Bitmaps k} {f : Frame} (hf : Covers k f) :
    b.mmuGetMbitInBitmapValue (toWord f) = some (ofBit (b.rm f).2) := by
  have hlt : f.toNat / 32 < k := hf
  rw [mmuGetMbitInBitmapValue, getBit_eq, toNat_toWord, if_pos hlt]
  rfl

end Bitmaps

end SimOS
