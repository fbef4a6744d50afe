import SimOS.Mmu.Tlb
import SimOS.Mmu.PageTable

/-!
# Initialization and address translation in `mmu.c`

The MMU is made of the bitmaps, the TLB of `tlb.c` and the page table of
`page.c`. `issue_page_fault_trap` belongs to the CPU: a translation that calls
it ends there, and what the operating system does inside the trap is left to
the runs.
-/

namespace SimOS

open Library

variable {n k : ℕ}

namespace Mmu

def vpageMask : Word := 0xFFFFF800#32

def offsetMask : Word := 0x000007FF#32

/-- `bit_size`, which is computed from `num_page_frames` and not from `num_page`. -/
def bitSize (numPageFrames : Word) : ℕ := (numPageFrames / 32#32).toNat

end Mmu

/-- The contents `malloc` returns for the arrays of the MMU. -/
structure Malloc (n k : ℕ) where
  rbitBitmap : Fin k → Word
  mbitBitmap : Fin k → Word
  pageframeBitmap : Fin k → Word
  tlb : Fin n → TlbEntry

/-- The state of the MMU, with `num_tlb_entries = n` and `bit_size = k`. -/
structure Mmu (n k : ℕ) where
  bitmaps : Bitmaps k
  tlb : Tlb n
  pageTable : PageTable
  tlbMissCount : Word
  numPage : Word

/-- How a translation ends: with a physical address, or in the trap for a page. -/
inductive Translation
  | address (paddress : Word)
  | pageFaultTrap (vpage : Word)
  deriving DecidableEq

namespace Mmu

/-- Globals start as zero; `malloc` decides the contents of the arrays. -/
def mmuInitialize (numPageFrames : Word) (malloc : Malloc n (bitSize numPageFrames)) :
    Mmu n (bitSize numPageFrames) where
  numPage :=
    -- rounded up to a multiple of 32, but not what the arrays are sized by
    if numPageFrames % 32#32 ≠ 0#32 then numPageFrames + (32#32 - numPageFrames % 32#32)
    else numPageFrames
  bitmaps :=
    { rbitBitmap := malloc.rbitBitmap
      mbitBitmap := malloc.mbitBitmap
      pageframeBitmap := malloc.pageframeBitmap }
  tlb := Tlb.tlbInitialize
    { tlb := malloc.tlb, tlbMiss := false, nextVpageToCheck := 0 } malloc.tlb
  pageTable := PageTable.ptInitializePageTable { firstLevel := fun _ => none, pageFault := false }
  tlbMissCount := 0#32

/-- Memory full of garbage. -/
def garbage (n k : ℕ) : Malloc n k where
  rbitBitmap := fun _ => 0xDEADBEEF#32
  mbitBitmap := fun _ => 0xDEADBEEF#32
  pageframeBitmap := fun _ => 0xDEADBEEF#32
  tlb := fun _ => ⟨0xDEADBEEF#32, 0xDEADBEEF#32⟩

def mmuClearRbits (m : Mmu n k) : Mmu n k :=
  { m with bitmaps := m.bitmaps.clearRbits, tlb := m.tlb.tlbClearRBits }

def mmuTranslate (m : Mmu n k) (vaddress : Word) (op : Operation) :
    Option (Mmu n k × Translation) :=
  let vpage := (vaddress &&& vpageMask) >>> 11
  let (tlb, pfNum) := m.tlb.tlbLookupVpage vpage op
  let m := { m with tlb := tlb }
  let pfOffset := vaddress &&& offsetMask
  if m.tlb.tlbMiss then
    let m := { m with tlbMissCount := m.tlbMissCount + 1#32 }
    let (pageTable, pfNum) := m.pageTable.ptGetPframeNumber vpage
    let m := { m with pageTable := pageTable }
    if m.pageTable.pageFault then
      (m.tlb.tlbWriteBackRMBits m.bitmaps).map fun bitmaps =>
        ({ m with bitmaps := bitmaps }, .pageFaultTrap vpage)
    else
      -- the arguments are evaluated before the call, so before the eviction
      (m.bitmaps.mmuGetRbitInBitmapValue pfNum).bind fun rbit =>
      (m.bitmaps.mmuGetMbitInBitmapValue pfNum).bind fun mbit =>
      (m.tlb.tlbInsertVpage m.bitmaps vpage pfNum rbit mbit).map fun (tlb, bitmaps) =>
        ({ m with tlb := tlb, bitmaps := bitmaps }, .address ((pfNum <<< 11) ||| pfOffset))
  else
    some (m, .address ((pfNum <<< 11) ||| pfOffset))

/-! ## What a translation can do -/

/-- The page of an address. -/
def pageOf (vaddress : Word) : Vpage := vaddress.extractLsb' 11 21

/-- The address in a frame with the offset of a virtual address. -/
def physical (f : Frame) (vaddress : Word) : Word :=
  (toWord f <<< 11) ||| (vaddress &&& offsetMask)

theorem and_vpageMask_shift (vaddress : Word) :
    (vaddress &&& vpageMask) >>> 11 = toWord (pageOf vaddress) := by
  have hmask : vpageMask = BitVec.ofNat 32 (2 ^ 21 - 1) <<< 11 := rfl
  refine BitVec.eq_of_getLsbD_eq fun i hi => ?_
  rw [BitVec.getLsbD_ushiftRight, BitVec.getLsbD_and, hmask, BitVec.getLsbD_shiftLeft,
    getLsbD_toWord, pageOf, BitVec.getLsbD_extractLsb', Nat.add_sub_cancel_left,
    getLsbD_lowMask 21 i (by decide)]
  by_cases h21 : i < 21
  · have h32 : 11 + i < 32 := by omega
    simp [h21, h32]
  · simp [h21]

/-- The frames the TLB and the page table hold have their words inside the bitmaps. -/
structure InBounds (m : Mmu n k) : Prop where
  cached : m.tlb.Covered k
  mapped : ∀ v f, m.pageTable.pageMap v = some f → Bitmaps.Covers k f

/-- The three ways a translation can go. -/
inductive TranslateCase (m : Mmu n k) (vaddress : Word) (op : Operation) :
    Mmu n k → Translation → Prop
  | hit (i : Fin n) (hhit : m.tlb.Hits (pageOf vaddress) i) :
      TranslateCase m vaddress op
        { m with
          tlb :=
            { m.tlb with
              tlb := Function.update m.tlb.tlb i ((m.tlb.tlb i).touch op), tlbMiss := false } }
        (.address (physical (m.tlb.tlb i).pframe vaddress))
  | fill (f : Frame) (i : Fin n) (hand : ℕ) (bitmaps : Bitmaps k)
      (hmiss : ∀ j, ¬m.tlb.Hits (pageOf vaddress) j)
      (hmap : m.pageTable.pageMap (pageOf vaddress) = some f) (hhand : hand < n)
      (hrm : bitmaps.rm = SlotCache.writeBack m.bitmaps.rm (m.tlb.byFrame i))
      (hpf : bitmaps.pageframeBitmap = m.bitmaps.pageframeBitmap) :
      TranslateCase m vaddress op
        { m with
          bitmaps := bitmaps
          tlb :=
            { tlb := Function.update m.tlb.tlb i
                ((m.tlb.tlb i).insert (toWord (pageOf vaddress)) (toWord f)
                  (Bitmaps.ofBit (m.bitmaps.rm f).1) (Bitmaps.ofBit (m.bitmaps.rm f).2))
              tlbMiss := true
              nextVpageToCheck := hand }
          pageTable := { m.pageTable with pageFault := false }
          tlbMissCount := m.tlbMissCount + 1#32 }
        (.address (physical f vaddress))
  | fault (bitmaps : Bitmaps k)
      (hmiss : ∀ j, ¬m.tlb.Hits (pageOf vaddress) j)
      (hmap : m.pageTable.pageMap (pageOf vaddress) = none)
      (hrm : bitmaps.rm = SlotCache.flush m.tlb.byFrame (List.finRange n) m.bitmaps.rm)
      (hpf : bitmaps.pageframeBitmap = m.bitmaps.pageframeBitmap) :
      TranslateCase m vaddress op
        { m with
          bitmaps := bitmaps
          tlb := { m.tlb with tlbMiss := true }
          pageTable := { m.pageTable with pageFault := true }
          tlbMissCount := m.tlbMissCount + 1#32 }
        (.pageFaultTrap (toWord (pageOf vaddress)))

/-- A translation goes one of the three ways. -/
theorem TranslateCase.of_eq {m m' : Mmu n k} (hm : m.InBounds) {vaddress : Word}
    {op : Operation} {out : Translation}
    (h : m.mmuTranslate vaddress op = some (m', out)) : TranslateCase m vaddress op m' out := by
  unfold mmuTranslate at h
  simp only [and_vpageMask_shift] at h
  have hcov : ({ m.tlb with tlbMiss := true } : Tlb n).Covered k := hm.cached
  rcases m.tlb.tlbLookupVpage_cases (pageOf vaddress) op with ⟨i, hhit, hl⟩ | ⟨hmiss, hl⟩
  · simp only [hl, Bool.false_eq_true, if_false, Option.some.injEq, Prod.mk.injEq] at h
    obtain ⟨rfl, rfl⟩ := h
    exact .hit i hhit
  · simp only [hl, if_true, PageTable.ptGetPframeNumber_eq] at h
    cases hmap : m.pageTable.pageMap (pageOf vaddress) with
    | none =>
      obtain ⟨b, hb, hrm, hpf⟩ := Tlb.tlbWriteBackRMBits_spec hcov m.bitmaps
      simp only [hmap, hb, Option.isNone_none, if_true, Option.map_some, Option.some.injEq,
        Prod.mk.injEq] at h
      obtain ⟨rfl, rfl⟩ := h
      exact .fault b hmiss hmap hrm hpf
    | some f =>
      have hf : Bitmaps.Covers k f := hm.mapped _ _ hmap
      cases hfind : ({ m.tlb with tlbMiss := true } : Tlb n).findSlot with
      | none => simp [hmap, Bitmaps.get_r hf, Bitmaps.get_m hf, Tlb.tlbInsertVpage, hfind] at h
      | some slot =>
        obtain ⟨b, hins, hrm, hpf⟩ := Tlb.tlbInsertVpage_spec hcov hfind m.bitmaps
          (toWord (pageOf vaddress)) (toWord f) (Bitmaps.ofBit (m.bitmaps.rm f).1)
          (Bitmaps.ofBit (m.bitmaps.rm f).2)
        simp only [hmap, Bitmaps.get_r hf, Bitmaps.get_m hf, hins, Option.isNone_some,
          Bool.false_eq_true, if_false, Option.map_some, Option.getD_some, Option.bind_some,
          Option.some.injEq, Prod.mk.injEq] at h
        obtain ⟨rfl, rfl⟩ := h
        exact .fill f slot.1 slot.2 b hmiss hmap (Tlb.findSlot_hand_lt hfind) hrm hpf

/-- With the clock hand inside the TLB every translation is defined. -/
theorem mmuTranslate_isSome {m : Mmu n k} (hm : m.InBounds)
    (hhand : m.tlb.nextVpageToCheck < n) (vaddress : Word) (op : Operation) :
    (m.mmuTranslate vaddress op).isSome := by
  unfold mmuTranslate
  simp only [and_vpageMask_shift]
  have hcov : ({ m.tlb with tlbMiss := true } : Tlb n).Covered k := hm.cached
  rcases m.tlb.tlbLookupVpage_cases (pageOf vaddress) op with ⟨i, hhit, hl⟩ | ⟨hmiss, hl⟩
  · simp [hl]
  · simp only [hl, if_true, PageTable.ptGetPframeNumber_eq]
    cases hmap : m.pageTable.pageMap (pageOf vaddress) with
    | none =>
      obtain ⟨b, hb, _, _⟩ := Tlb.tlbWriteBackRMBits_spec hcov m.bitmaps
      simp [hb]
    | some f =>
      have hf : Bitmaps.Covers k f := hm.mapped _ _ hmap
      obtain ⟨i, hand, hfind⟩ :=
        Tlb.findSlot_isSome (t := { m.tlb with tlbMiss := true }) hhand
      obtain ⟨b, hins, _, _⟩ := Tlb.tlbInsertVpage_spec hcov hfind m.bitmaps
        (toWord (pageOf vaddress)) (toWord f) (Bitmaps.ofBit (m.bitmaps.rm f).1)
        (Bitmaps.ofBit (m.bitmaps.rm f).2)
      simp [Bitmaps.get_r hf, Bitmaps.get_m hf, hins]

end Mmu

end SimOS
