import SimOS.Mmu.Runs

/-!
# The size of the bitmaps

`mmu_initialize` rounds `num_page` up to a multiple of 32, as its comment asks
for, but computes `bit_size` from `num_page_frames`, rounded down. Unless the
number of frames is a multiple of 32, the last frames have no word.
-/

namespace SimOS

open Library

variable {N k : ℕ}

namespace Bitmaps

/-- None of the six accessors leaves its bitmap for this frame. -/
structure AccessorsDefined (b : Bitmaps k) (pframe : Word) : Prop where
  modifyRbit : ∀ val, (b.mmuModifyRbitInBitmap pframe val).isSome
  getRbit : (b.mmuGetRbitInBitmapValue pframe).isSome
  modifyMbit : ∀ val, (b.mmuModifyMbitInBitmap pframe val).isSome
  getMbit : (b.mmuGetMbitInBitmapValue pframe).isSome
  modifyPageframe : ∀ val, (b.mmuModifyPageframeBitmap pframe val).isSome
  getPageframe : (b.mmuGetPageframeBitmapValue pframe).isSome

/-- All six index the same word. -/
theorem accessorsDefined_iff (b : Bitmaps k) (pframe : Word) :
    b.AccessorsDefined pframe ↔ pframe.toNat / 32 < k := by
  constructor
  · intro h
    have hget := h.getRbit
    rw [mmuGetRbitInBitmapValue, getBit_eq] at hget
    by_contra hlt
    rw [if_neg hlt] at hget
    cases hget
  · intro hlt
    refine ⟨fun val => ?_, ?_, fun val => ?_, ?_, fun val => ?_, ?_⟩
    · rw [mmuModifyRbitInBitmap, modifyBit_eq, if_pos hlt]
      rfl
    · rw [mmuGetRbitInBitmapValue, getBit_eq, if_pos hlt]
      rfl
    · rw [mmuModifyMbitInBitmap, modifyBit_eq, if_pos hlt]
      rfl
    · rw [mmuGetMbitInBitmapValue, getBit_eq, if_pos hlt]
      rfl
    · rw [mmuModifyPageframeBitmap, modifyBit_eq, if_pos hlt]
      rfl
    · rw [mmuGetPageframeBitmapValue, getBit_eq, if_pos hlt]
      rfl

end Bitmaps

namespace Mmu

/-- A run of translations from a given state. -/
def TranslationRun (start : Mmu N k) : List ((Word × Operation) × Mmu N k) → Mmu N k → Prop :=
  Run (· = start) fun _ m e m' => ∃ out, m.mmuTranslate e.1 e.2 = some (m', out)

/-- The state after `mmu_initialize`, once the page table was filled. -/
def bootedWith (numPageFrames : Word) (malloc : Malloc N (bitSize numPageFrames))
    (pageTable : PageTable) : Mmu N (bitSize numPageFrames) :=
  { mmuInitialize numPageFrames malloc with pageTable := pageTable }

/-- The bitmaps have room for every physical frame: the accessors are defined on
all of them, and with a TLB of at least one entry so is every translation of
every run over a page table that maps only these frames. -/
structure CoversFrames (numPageFrames : Word) (malloc : Malloc N (bitSize numPageFrames)) :
    Prop where
  accessors : ∀ f < numPageFrames, (mmuInitialize numPageFrames malloc).bitmaps.AccessorsDefined f
  translations : 0 < N → ∀ pageTable : PageTable,
    (∀ v f, pageTable.pageMap v = some f → toWord f < numPageFrames) →
      ∀ h m, TranslationRun (bootedWith numPageFrames malloc pageTable) h m →
        ∀ vaddress op, (m.mmuTranslate vaddress op).isSome

theorem bitSize_eq (numPageFrames : Word) : bitSize numPageFrames = numPageFrames.toNat / 32 := by
  simp [bitSize, BitVec.toNat_udiv]

/-- An empty TLB agrees with every page table. -/
theorem good_bootedWith (hN : 0 < N) {numPageFrames : Word}
    (malloc : Malloc N (bitSize numPageFrames)) {pageTable : PageTable}
    (hcov : ∀ v f, pageTable.pageMap v = some f → Bitmaps.Covers (bitSize numPageFrames) f) :
    (bootedWith numPageFrames malloc pageTable).Good := by
  have hstart := started_mmuInitialize numPageFrames malloc
  refine ⟨⟨hstart.coherent.unique, fun i v x hi => ?_⟩, hcov, (hstart.good hN).hand⟩
  have hempty : (bootedWith numPageFrames malloc pageTable).tlb.byPage i = none :=
    Tlb.byPage_of_invalid (hstart.tlb i)
  rw [hempty] at hi
  cases hi

/-- Translations keep every invariant of the MMU. -/
theorem TranslationRun.good {start : Mmu N k} (hstart : start.Good)
    {h : List ((Word × Operation) × Mmu N k)} {m : Mmu N k} (hrun : TranslationRun start h m) :
    m.Good := by
  refine Run.invariant (P := fun _ m => m.Good) ?_ ?_ hrun
  · rintro s rfl
    exact hstart
  · rintro h s e s' _ ih ⟨out, hout⟩
    exact ih.step (e := .translate e.1 e.2 _ out) trivial ⟨hout, rfl⟩

/-- The bitmaps have room for every frame just in case the number of frames is
a multiple of 32. -/
theorem bitmaps_cover_iff {numPageFrames : Word} (malloc : Malloc N (bitSize numPageFrames)) :
    CoversFrames numPageFrames malloc ↔ 32 ∣ numPageFrames.toNat := by
  constructor
  · intro hcovers
    by_cases hpos : numPageFrames.toNat = 0
    · rw [hpos]
      exact dvd_zero 32
    -- the last frame needs the last word
    have hlast : (numPageFrames - 1#32).toNat = numPageFrames.toNat - 1 := by
      have hlt := numPageFrames.isLt
      rw [BitVec.toNat_sub]
      simp only [BitVec.toNat_ofNat]
      omega
    have hword := (Bitmaps.accessorsDefined_iff _ _).mp
      (hcovers.accessors (numPageFrames - 1#32) (by rw [BitVec.lt_def, hlast]; omega))
    rw [hlast, bitSize_eq] at hword
    omega
  · intro hdvd
    have hroom : ∀ f : Word, f < numPageFrames → f.toNat / 32 < bitSize numPageFrames := by
      intro f hf
      rw [BitVec.lt_def] at hf
      rw [bitSize_eq]
      omega
    refine ⟨fun f hf => (Bitmaps.accessorsDefined_iff _ _).mpr (hroom f hf), ?_⟩
    intro hN pageTable hmaps h m hrun vaddress op
    have hcov : ∀ v f, pageTable.pageMap v = some f →
        Bitmaps.Covers (bitSize numPageFrames) f := by
      intro v f hv
      have hlt := hroom (toWord f) (hmaps v f hv)
      rw [toNat_toWord] at hlt
      exact hlt
    exact (hrun.good (good_bootedWith hN malloc hcov)).exec_defined.1 vaddress op

/-- With 16 frames the bitmaps have no word at all. -/
theorem bitmaps_uncovered_16 : ¬CoversFrames 16#32 (garbage 8 (bitSize 16#32)) := by
  intro hcovers
  have hget := (hcovers.accessors 0#32 (by decide)).getRbit
  rw [Bitmaps.mmuGetRbitInBitmapValue, getBit_eq] at hget
  exact absurd hget (by decide)

/-- The bound that was rounded up would do, for every number of frames. -/
theorem numPage_covers {numPageFrames : Word} (hn : numPageFrames.toNat + 31 < 2 ^ 32)
    (malloc : Malloc N (bitSize numPageFrames)) {f : Word} (hf : f < numPageFrames) :
    f.toNat / 32 < (mmuInitialize numPageFrames malloc).numPage.toNat / 32 := by
  rw [BitVec.lt_def] at hf
  have hmod : (numPageFrames % 32#32).toNat = numPageFrames.toNat % 32 := by
    rw [BitVec.toNat_umod]
    rfl
  change f.toNat / 32 < BitVec.toNat (if numPageFrames % 32#32 ≠ 0#32 then
    numPageFrames + (32#32 - numPageFrames % 32#32) else numPageFrames) / 32
  split_ifs with hround
  · have hne : numPageFrames.toNat % 32 ≠ 0 := fun h =>
      hround (BitVec.eq_of_toNat_eq (by rw [hmod, h]; rfl))
    have hsub : (32#32 - numPageFrames % 32#32).toNat = 32 - numPageFrames.toNat % 32 := by
      rw [BitVec.toNat_sub, hmod]
      simp only [BitVec.toNat_ofNat]
      omega
    rw [BitVec.toNat_add, hsub]
    omega
  · have hzero : numPageFrames.toNat % 32 = 0 := by
      rw [← hmod, not_not.mp hround]
      rfl
    omega

end Mmu

end SimOS
