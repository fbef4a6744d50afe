import SimOS.Mmu.FrameAllocator
import SimOS.Library.Run

/-!
# Runs of the frame allocator

Calls of `mmu_get_free_page_frame` and releases of frames in any order, from
any contents of the page frame bitmap. A frame that was handed out stays taken
until it is released, and a taken frame is not handed out.
-/

namespace SimOS

open Library
open Library.PackedBits (div_lt_iff bit_write)

variable {k : ℕ}

/-- A call of `mmu_get_free_page_frame` with the number it returned, or a call
`mmu_modify_pageframe_bitmap(pframe, 0)`. -/
inductive FrameEvent
  | get (pframe : Word)
  | release (pframe : Word)

namespace Bitmaps

def ExecFrame (b : Bitmaps k) : FrameEvent → Bitmaps k → Prop
  | .get pframe, b' => b.mmuGetFreePageFrame = some (b', pframe)
  | .release pframe, b' => b.mmuModifyPageframeBitmap pframe 0 = some b'

/-- Only frames inside the bitmap are released. -/
def ReleasesInside (k : ℕ) : FrameEvent → Prop
  | .get _ => True
  | .release pframe => pframe.toNat < k * 32

/-- A run from any contents of the bitmaps. -/
def FrameRun (h : List (FrameEvent × Bitmaps k)) (b : Bitmaps k) : Prop :=
  Run (fun _ => True) (fun _ b e b' => ReleasesInside k e ∧ b.ExecFrame e b') h b

/-- The frame was handed out and has not been released since. -/
def held (f : ℕ) : List (FrameEvent × Bitmaps k) → Bool
  | [] => false
  | (.get pframe, _) :: h => asFrame pframe = some f || held f h
  | (.release pframe, _) :: h => pframe.toNat ≠ f && held f h

/-- The bitmaps after a frame was released. -/
def giveBack (b : Bitmaps k) (f : ℕ) : Bitmaps k :=
  { b with pageframeBitmap := PackedBits.write b.pageframeBitmap f false }

theorem taken_giveBack (b : Bitmaps k) {f : ℕ} (hf : f / 32 < k) (g : ℕ) :
    (b.giveBack f).taken g = if g = f then false else b.taken g :=
  bit_write (by decide) hf false g

theorem release_eq (b : Bitmaps k) {pframe : Word} (hf : pframe.toNat < k * 32) :
    b.mmuModifyPageframeBitmap pframe 0 = some (b.giveBack pframe.toNat) := by
  have hlt : pframe.toNat / 32 < k := (div_lt_iff (by decide) _).mpr hf
  rw [mmuModifyPageframeBitmap, modifyBit_eq, if_pos hlt]
  rfl

/-- A frame that is held is taken, whatever the calls in between were. -/
def HeldTaken (h : List (FrameEvent × Bitmaps k)) (b : Bitmaps k) : Prop :=
  ∀ f, held f h = true → b.taken f = true

theorem HeldTaken.get (hk : k * 32 < 2 ^ 31) {h : List (FrameEvent × Bitmaps k)} {b b' : Bitmaps k}
    (hheld : HeldTaken h b) {pframe : Word} (hget : b.mmuGetFreePageFrame = some (b', pframe)) :
    HeldTaken ((.get pframe, b') :: h) b' := by
  intro f hf
  simp only [held, Bool.or_eq_true, decide_eq_true_eq] at hf
  rcases b.mmuGetFreePageFrame_spec (by omega) with ⟨_, heq⟩ | ⟨g, hg, _, _, heq⟩
  · rw [heq, Option.some.injEq, Prod.mk.injEq] at hget
    obtain ⟨rfl, rfl⟩ := hget
    rcases hf with hnow | hbefore
    · rw [asFrame, if_pos rfl] at hnow
      cases hnow
    · exact hheld f hbefore
  · rw [heq, Option.some.injEq, Prod.mk.injEq] at hget
    obtain ⟨rfl, rfl⟩ := hget
    rw [taken_take b ((div_lt_iff (by decide) g).mpr hg)]
    by_cases hfg : f = g
    · rw [if_pos hfg]
    · rw [if_neg hfg]
      rw [asFrame_ofNat (by omega), Option.some.injEq] at hf
      rcases hf with hnow | hbefore
      · exact absurd hnow.symm hfg
      · exact hheld f hbefore

theorem HeldTaken.release {h : List (FrameEvent × Bitmaps k)} {b : Bitmaps k}
    (hheld : HeldTaken h b) {pframe : Word} (hin : pframe.toNat < k * 32) :
    HeldTaken ((.release pframe, b.giveBack pframe.toNat) :: h) (b.giveBack pframe.toNat) := by
  intro f hf
  simp only [held, Bool.and_eq_true, decide_eq_true_eq] at hf
  rw [taken_giveBack b ((div_lt_iff (by decide) _).mpr hin), if_neg (Ne.symm hf.1)]
  exact hheld f hf.2

theorem FrameRun.heldTaken (hk : k * 32 < 2 ^ 31) {h : List (FrameEvent × Bitmaps k)}
    {b : Bitmaps k} (hrun : FrameRun h b) : HeldTaken h b := by
  refine Run.invariant (P := HeldTaken) ?_ ?_ hrun
  · intro s _ f hf
    cases hf
  · intro h s e s' _ ih hs
    cases e with
    | get pframe => exact ih.get hk hs.2
    | release pframe =>
      obtain rfl : s' = s.giveBack pframe.toNat :=
        Option.some.inj (hs.2.symm.trans (s.release_eq hs.1))
      exact ih.release hs.1

theorem ofNat_ne_noFreePageframe {f : ℕ} (hf : f < 2 ^ 31) :
    BitVec.ofNat 32 f ≠ noFreePageframe := by
  intro h
  have hframe := asFrame_ofNat (show f < 2 ^ 32 - 1 by omega)
  rw [h, asFrame, if_pos rfl] at hframe
  cases hframe

/-- In every state reached, a call hands out the highest free frame of the
lowest word that is not full, takes exactly that frame, and the frame is not
one that is still held; it reports that there is no free frame just in case
every frame is taken, and then changes nothing. -/
theorem frame_allocator_exclusive (hk : 32 * k < 2 ^ 31) {h : List (FrameEvent × Bitmaps k)}
    {b : Bitmaps k} (hrun : FrameRun h b) :
    ∃ b' pframe, b.mmuGetFreePageFrame = some (b', pframe) ∧
      (pframe = noFreePageframe ↔ ∀ g < 32 * k, b.taken g = true) ∧
      (pframe = noFreePageframe → b' = b) ∧
      (pframe ≠ noFreePageframe →
        pframe.toNat < 32 * k ∧ b.taken pframe.toNat = false ∧ held pframe.toNat h = false ∧
        (∀ g, b'.taken g = (decide (g = pframe.toNat) || b.taken g)) ∧
        b'.rbitBitmap = b.rbitBitmap ∧ b'.mbitBitmap = b.mbitBitmap ∧
        ∀ g < 32 * k, b.taken g = false →
          pframe.toNat / 32 ≤ g / 32 ∧ (pframe.toNat / 32 = g / 32 → g ≤ pframe.toNat)) := by
  rw [Nat.mul_comm] at hk ⊢
  rcases b.mmuGetFreePageFrame_spec (by omega) with ⟨hfull, heq⟩ | ⟨f, hf, hfree, hfirst, heq⟩
  · exact ⟨b, noFreePageframe, heq, ⟨fun _ => hfull, fun _ => rfl⟩, fun _ => rfl,
      fun hne => absurd rfl hne⟩
  · have hnat : (BitVec.ofNat 32 f).toNat = f := by
      rw [BitVec.toNat_ofNat, Nat.mod_eq_of_lt (by omega)]
    have hne : BitVec.ofNat 32 f ≠ noFreePageframe := ofNat_ne_noFreePageframe (by omega)
    refine ⟨b.take f, BitVec.ofNat 32 f, heq, ⟨fun h => absurd h hne, fun hall => ?_⟩,
      fun h => absurd h hne, fun _ => ?_⟩
    · rw [hall f hf] at hfree
      cases hfree
    · rw [hnat]
      refine ⟨hf, hfree, ?_, fun g => ?_, rfl, rfl, hfirst⟩
      · -- a frame that is held is taken, and this one was free
        apply Bool.eq_false_iff.mpr
        intro hheld
        rw [hrun.heldTaken hk f hheld] at hfree
        cases hfree
      · rw [taken_take b ((div_lt_iff (by decide) f).mpr hf)]
        by_cases hg : g = f
        · simp [hg]
        · simp [hg]

/-- One word of which frames 30 and 31 are free. -/
def twoFree : Bitmaps 1 := ⟨fun _ => 0#32, fun _ => 0#32, fun _ => 0x3FFFFFFF#32⟩

/-- Frame 31 is handed out first, and the next call hands out another one. -/
theorem frame_allocator_exclusive_twoFree : ∃ b b' pframe,
    twoFree.mmuGetFreePageFrame = some (b, 31#32) ∧
      b.mmuGetFreePageFrame = some (b', pframe) ∧ pframe ≠ noFreePageframe ∧
      pframe.toNat ≠ 31 := by
  have hfirst : twoFree.mmuGetFreePageFrame = some (twoFree.take 31, 31#32) := rfl
  have hrun : FrameRun [(.get 31#32, twoFree.take 31)] (twoFree.take 31) :=
    .next (.start trivial) ⟨trivial, hfirst⟩
  obtain ⟨b', pframe, hget, hfull, -, hfree⟩ := frame_allocator_exclusive (by decide) hrun
  have hne : pframe ≠ noFreePageframe := fun h => absurd (hfull.mp h 30 (by decide)) (by decide)
  refine ⟨twoFree.take 31, b', pframe, hfirst, hget, hne, fun h31 => ?_⟩
  have hheld := (hfree hne).2.2.1
  rw [h31] at hheld
  exact absurd hheld (by decide)

end Bitmaps

end SimOS
