import SimOS.Mmu.Translate
import SimOS.Library.Pool

/-!
# The frame allocator of `mmu.c`

`mmu_get_free_page_frame` looks for the first word of the page frame bitmap
that is not full and takes the highest clear bit in it. The frames whose bits
are clear are a pool in the sense of `Pool`, and each call is a request.

`mmu_initialize` does not clear the bitmap it allocates, so the pool it starts
with is whatever `malloc` left there.
-/

namespace SimOS

open Library
open Library.PackedBits (bit bit_of_lt bit_write bit_word bit_zero write words_ext)

variable {k : ℕ}

/-- `NO_FREE_PAGEFRAME`. -/
def noFreePageframe : Word := ~~~0x0#32

namespace Bitmaps

/-- The inner loop of `mmu_get_free_page_frame` in word `i`, with `j` bits to
go: it looks at bit `j - 1` first. -/
def freeInWord (b : Bitmaps k) (i : ℕ) : ℕ → Option (Option (Bitmaps k × Word))
  | 0 => some none
  | j + 1 =>
    let pframe := BitVec.ofNat 32 (i * 32 + j)
    (b.mmuGetPageframeBitmapValue pframe).bind fun val =>
      if val = 0 then
        (b.mmuModifyPageframeBitmap pframe 1).map fun b => some (b, pframe)
      else b.freeInWord i j

/-- The outer loop, over the words that are left. -/
def freeFrom (b : Bitmaps k) : List (Fin k) → Option (Option (Bitmaps k × Word))
  | [] => some none
  | i :: is =>
    if b.pageframeBitmap i ≠ 0xFFFFFFFF#32 then
      (b.freeInWord i 32).bind fun found =>
        match found with
        | some result => some (some result)
        | none => b.freeFrom is
    else b.freeFrom is

def mmuGetFreePageFrame (b : Bitmaps k) : Option (Bitmaps k × Word) :=
  (b.freeFrom (List.finRange k)).map fun found =>
    match found with
    | some result => result
    | none => (b, noFreePageframe)

/-! ## What one call does -/

/-- The bit of a frame in the page frame bitmap: the frame is taken. -/
def taken (b : Bitmaps k) (f : ℕ) : Bool := bit b.pageframeBitmap f

/-- The bitmaps after a frame was taken. -/
def take (b : Bitmaps k) (f : ℕ) : Bitmaps k :=
  { b with pageframeBitmap := write b.pageframeBitmap f true }

theorem taken_take (b : Bitmaps k) {f : ℕ} (hf : f / 32 < k) (g : ℕ) :
    (b.take f).taken g = if g = f then true else b.taken g :=
  bit_write (by decide) hf true g

/-- The code's index `i * 32 + j` does not wrap for words inside the bitmap. -/
theorem pageframe_accessors (b : Bitmaps k) (hk : k * 32 < 2 ^ 32) {f : ℕ} (hf : f / 32 < k) :
    b.mmuGetPageframeBitmapValue (BitVec.ofNat 32 f) = some (if b.taken f then 1 else 0) ∧
      b.mmuModifyPageframeBitmap (BitVec.ofNat 32 f) 1 = some (b.take f) := by
  have hnat : (BitVec.ofNat 32 f).toNat = f := by
    rw [BitVec.toNat_ofNat, Nat.mod_eq_of_lt (by omega)]
  constructor
  · rw [mmuGetPageframeBitmapValue, getBit_eq, hnat, if_pos hf]
    rfl
  · rw [mmuModifyPageframeBitmap, modifyBit_eq, hnat, if_pos hf]
    rfl

/-- The highest frame of word `i` below bit `j` that is not taken. -/
structure HighestFree (b : Bitmaps k) (i j f : ℕ) : Prop where
  word : f / 32 = i
  below : f < i * 32 + j
  free : b.taken f = false
  highest : ∀ g, f < g → g < i * 32 + j → b.taken g = true

/-- The inner loop takes the highest free frame of its word, if there is one. -/
theorem freeInWord_spec (b : Bitmaps k) (hk : k * 32 < 2 ^ 32) {i : ℕ} (hi : i < k) {j : ℕ}
    (hj : j ≤ 32) :
    ((∀ g, i * 32 ≤ g → g < i * 32 + j → b.taken g = true) ∧ b.freeInWord i j = some none) ∨
      ∃ f, b.HighestFree i j f ∧
        b.freeInWord i j = some (some (b.take f, BitVec.ofNat 32 f)) := by
  induction j with
  | zero => exact .inl ⟨fun g hlo hhi => by omega, rfl⟩
  | succ j ih =>
    have hword : (i * 32 + j) / 32 = i := by omega
    have hlt : (i * 32 + j) / 32 < k := by rw [hword]; exact hi
    obtain ⟨hget, hmodify⟩ := b.pageframe_accessors hk hlt
    cases htaken : b.taken (i * 32 + j)
    · right
      refine ⟨i * 32 + j, ⟨hword, by omega, htaken, fun g hlo hhi => by omega⟩, ?_⟩
      rw [freeInWord]
      simp [hget, hmodify, htaken]
    · have hnext : b.freeInWord i (j + 1) = b.freeInWord i j := by
        rw [freeInWord]
        simp [hget, htaken]
      have hextend : ∀ {lo : ℕ}, (∀ g, lo < g → g < i * 32 + j → b.taken g = true) →
          ∀ g, lo < g → g < i * 32 + (j + 1) → b.taken g = true := by
        intro lo hall g hlo hhi
        by_cases hg : g = i * 32 + j
        · rw [hg]
          exact htaken
        · exact hall g hlo (by omega)
      -- bit j is taken, so the loop goes on below it
      rcases ih (by omega) with ⟨hfull, hnone⟩ | ⟨f, hf, hsome⟩
      · left
        refine ⟨fun g hlo hhi => ?_, by rw [hnext, hnone]⟩
        by_cases hg : g = i * 32 + j
        · rw [hg]
          exact htaken
        · exact hfull g hlo (by omega)
      · right
        have hbelow := hf.below
        exact ⟨f, ⟨hf.word, by omega, hf.free, hextend hf.highest⟩, by rw [hnext, hsome]⟩

/-- A full word holds no free frame. -/
theorem taken_of_full (b : Bitmaps k) {i : Fin k} (hfull : b.pageframeBitmap i = 0xFFFFFFFF#32)
    {g : ℕ} (hg : g / 32 = i) : b.taken g = true := by
  have hbit := bit_word b.pageframeBitmap i (Nat.mod_lt g (by decide : 0 < 32))
  rw [hfull, show (0xFFFFFFFF#32 : Word) = BitVec.allOnes 32 by decide, BitVec.getLsbD_allOnes,
    ← hg, Nat.div_add_mod', decide_eq_true (Nat.mod_lt g (by decide))] at hbit
  exact hbit

/-- The outer loop takes the highest free frame of the first word that has one. -/
theorem freeFrom_spec (b : Bitmaps k) (hk : k * 32 < 2 ^ 32) {is : List (Fin k)}
    (his : is.Pairwise (· < ·)) :
    ((∀ i ∈ is, ∀ g : ℕ, g / 32 = (i : ℕ) → b.taken g = true) ∧ b.freeFrom is = some none) ∨
      ∃ i ∈ is, ∃ f, b.HighestFree i 32 f ∧
        (∀ i' ∈ is, i' < i → ∀ g : ℕ, g / 32 = (i' : ℕ) → b.taken g = true) ∧
        b.freeFrom is = some (some (b.take f, BitVec.ofNat 32 f)) := by
  induction is with
  | nil => exact .inl ⟨by simp, rfl⟩
  | cons i is ih =>
    obtain ⟨hfirst, hrest⟩ := List.pairwise_cons.mp his
    by_cases hskip : ∀ g : ℕ, g / 32 = (i : ℕ) → b.taken g = true
    · -- nothing to take in this word, whether the code looks at it or not
      have hnext : b.freeFrom (i :: is) = b.freeFrom is := by
        rw [freeFrom]
        by_cases hfull : b.pageframeBitmap i = 0xFFFFFFFF#32
        · rw [if_neg (not_not.mpr hfull)]
        · rw [if_pos hfull]
          rcases b.freeInWord_spec hk i.isLt (le_refl 32) with ⟨_, hnone⟩ | ⟨f, hf, _⟩
          · rw [hnone]
            rfl
          · exact absurd (hskip f hf.word) (by rw [hf.free]; decide)
      rcases ih hrest with ⟨hall, hnone⟩ | ⟨i', hi', f, hf, hbefore, hsome⟩
      · left
        refine ⟨fun j hj => ?_, by rw [hnext, hnone]⟩
        rcases List.mem_cons.mp hj with rfl | hj
        · exact hskip
        · exact hall j hj
      · right
        refine ⟨i', List.mem_cons_of_mem _ hi', f, hf, fun j hj hlt => ?_, by rw [hnext, hsome]⟩
        rcases List.mem_cons.mp hj with rfl | hj
        · exact hskip
        · exact hbefore j hj hlt
    · right
      have hopen : b.pageframeBitmap i ≠ 0xFFFFFFFF#32 := fun hfull =>
        hskip fun g hg => b.taken_of_full hfull hg
      rcases b.freeInWord_spec hk i.isLt (le_refl 32) with ⟨hall, _⟩ | ⟨f, hf, hsome⟩
      · exact absurd (fun g hg => hall g (by omega) (by omega)) hskip
      · refine ⟨i, List.mem_cons_self, f, hf, fun j hj hlt => ?_, ?_⟩
        · rcases List.mem_cons.mp hj with rfl | hj
          · exact absurd hlt (lt_irrefl _)
          · exact absurd (lt_trans (hfirst j hj) hlt) (lt_irrefl _)
        · rw [freeFrom, if_pos hopen, hsome]
          rfl

/-- One call takes the highest free frame of the first word that is not full, or
reports that every frame is taken. -/
theorem mmuGetFreePageFrame_spec (b : Bitmaps k) (hk : k * 32 < 2 ^ 32) :
    ((∀ g < k * 32, b.taken g = true) ∧ b.mmuGetFreePageFrame = some (b, noFreePageframe)) ∨
      ∃ f < k * 32, b.taken f = false ∧
        (∀ g < k * 32, b.taken g = false → f / 32 ≤ g / 32 ∧ (f / 32 = g / 32 → g ≤ f)) ∧
        b.mmuGetFreePageFrame = some (b.take f, BitVec.ofNat 32 f) := by
  rcases b.freeFrom_spec hk (List.pairwise_lt_finRange k) with
    ⟨hall, hnone⟩ | ⟨i, _, f, hf, hbefore, hsome⟩
  · left
    refine ⟨fun g hg => ?_, by rw [mmuGetFreePageFrame, hnone]; rfl⟩
    exact hall ⟨g / 32, (PackedBits.div_lt_iff (by decide) g).mpr hg⟩ (List.mem_finRange _) g rfl
  · right
    have hword := hf.word
    have hi := i.isLt
    refine ⟨f, by omega, hf.free, fun g hg hfree => ?_, by rw [mmuGetFreePageFrame, hsome]; rfl⟩
    have hlt : g / 32 < k := (PackedBits.div_lt_iff (by decide) g).mpr hg
    constructor
    · by_contra hless
      have htaken := hbefore ⟨g / 32, hlt⟩ (List.mem_finRange _)
        (Fin.lt_def.mpr (show g / 32 < i by omega)) g rfl
      rw [hfree] at htaken
      cases htaken
    · intro hsame
      by_contra hless
      have htaken := hf.highest g (by omega) (by omega)
      rw [hfree] at htaken
      cases htaken

/-! ## The pool of free frames -/

/-- The frames that are not taken. -/
def freeFrames (b : Bitmaps k) : Finset ℕ :=
  (Finset.range (k * 32)).filter fun f => b.taken f = false

theorem mem_freeFrames {b : Bitmaps k} {f : ℕ} :
    f ∈ b.freeFrames ↔ f < k * 32 ∧ b.taken f = false := by
  rw [freeFrames, Finset.mem_filter, Finset.mem_range]

/-- What a returned number stands for. -/
def asFrame (pframe : Word) : Option ℕ :=
  if pframe = noFreePageframe then none else some pframe.toNat

theorem asFrame_ofNat {f : ℕ} (hf : f < 2 ^ 32 - 1) : asFrame (BitVec.ofNat 32 f) = some f := by
  have hnat : (BitVec.ofNat 32 f).toNat = f := by
    rw [BitVec.toNat_ofNat, Nat.mod_eq_of_lt (by omega)]
  have hne : BitVec.ofNat 32 f ≠ noFreePageframe := by
    intro h
    have hmax : noFreePageframe.toNat = 2 ^ 32 - 1 := by decide
    rw [← h, hnat] at hmax
    omega
  rw [asFrame, if_neg hne, hnat]

/-- A call is a request to the pool of free frames. -/
theorem mmuGetFreePageFrame_take (b : Bitmaps k) (hk : k * 32 < 2 ^ 32) :
    ∃ b' pframe, b.mmuGetFreePageFrame = some (b', pframe) ∧
      Pool.Take b.freeFrames (asFrame pframe) b'.freeFrames := by
  rcases b.mmuGetFreePageFrame_spec hk with ⟨hall, heq⟩ | ⟨f, hf, hfree, _, heq⟩
  · have hempty : b.freeFrames = ∅ := by
      refine Finset.eq_empty_of_forall_notMem fun f hf => ?_
      obtain ⟨hlt, hfree⟩ := mem_freeFrames.mp hf
      rw [hall f hlt] at hfree
      cases hfree
    refine ⟨b, noFreePageframe, heq, ?_⟩
    rw [hempty, asFrame, if_pos rfl]
    exact .refused
  · refine ⟨b.take f, BitVec.ofNat 32 f, heq, ?_⟩
    have herase : (b.take f).freeFrames = b.freeFrames.erase f := by
      ext g
      rw [Finset.mem_erase, mem_freeFrames, mem_freeFrames,
        taken_take b ((PackedBits.div_lt_iff (by decide) f).mpr hf)]
      by_cases hg : g = f <;> simp [hg]
    rw [herase, asFrame_ofNat (by omega)]
    exact .granted (mem_freeFrames.mpr ⟨hf, hfree⟩)

/-- So many calls of `mmu_get_free_page_frame` in a row, with what they return. -/
def allocate : ℕ → Bitmaps k → Option (Bitmaps k × List Word)
  | 0, b => some (b, [])
  | c + 1, b =>
    b.mmuGetFreePageFrame.bind fun (b, pframe) =>
      (allocate c b).map fun (b, pframes) => (b, pframe :: pframes)

theorem allocate_takes (hk : k * 32 < 2 ^ 32) (c : ℕ) (b : Bitmaps k) :
    ∃ b' pframes, allocate c b = some (b', pframes) ∧ pframes.length = c ∧
      Pool.Takes b.freeFrames (pframes.map asFrame) b'.freeFrames := by
  induction c generalizing b with
  | zero => exact ⟨b, [], rfl, rfl, .nil _⟩
  | succ c ih =>
    obtain ⟨b₁, pframe, hget, htake⟩ := b.mmuGetFreePageFrame_take hk
    obtain ⟨b₂, pframes, hrest, hlen, htakes⟩ := ih b₁
    refine ⟨b₂, pframe :: pframes, ?_, by rw [List.length_cons, hlen], .cons htake htakes⟩
    simp only [allocate, hget, Option.bind_some, hrest, Option.map_some]

theorem eq_some_of_asFrame {pframe : Word} {f : ℕ} (h : asFrame pframe = some f) :
    pframe.toNat = f := by
  rw [asFrame] at h
  split at h
  · cases h
  · exact Option.some.inj h

end Bitmaps

namespace Mmu

open Bitmaps

variable {N : ℕ}

/-- After boot as many calls as there are frames return each frame once, and
every later call reports that there is none. -/
def AllocatesAllOnce (numPageFrames : Word) (malloc : Malloc N (bitSize numPageFrames)) : Prop :=
  ∃ b pframes,
    allocate numPageFrames.toNat (mmuInitialize numPageFrames malloc).bitmaps =
      some (b, pframes) ∧
    pframes.Nodup ∧ (∀ f, f ∈ pframes ↔ f < numPageFrames) ∧
    ∀ c, ∃ b' later, allocate c b = some (b', later) ∧ ∀ f ∈ later, f = noFreePageframe

theorem bitSize_mul_32 {numPageFrames : Word} (hdvd : 32 ∣ numPageFrames.toNat) :
    bitSize numPageFrames * 32 = numPageFrames.toNat := by
  rw [bitSize, BitVec.toNat_udiv]
  exact Nat.div_mul_cancel hdvd

/-- A frame that is handed out was free at boot. -/
theorem AllocatesAllOnce.zero {numPageFrames : Word} (hdvd : 32 ∣ numPageFrames.toNat)
    (hlt : numPageFrames.toNat < 2 ^ 31) {malloc : Malloc N (bitSize numPageFrames)}
    (h : AllocatesAllOnce numPageFrames malloc) (i : Fin (bitSize numPageFrames)) :
    malloc.pageframeBitmap i = 0#32 := by
  have hsize := bitSize_mul_32 hdvd
  obtain ⟨b', pframes', halloc', _, hall, _⟩ := h
  obtain ⟨b, pframes, halloc, _, htakes⟩ := allocate_takes (by omega) numPageFrames.toNat
    (mmuInitialize numPageFrames malloc).bitmaps
  rw [halloc, Option.some.injEq, Prod.mk.injEq] at halloc'
  obtain ⟨rfl, rfl⟩ := halloc'
  have hclear : ∀ f < bitSize numPageFrames * 32, bit malloc.pageframeBitmap f = false := by
    intro f hf
    -- every frame was handed out, and only free frames are
    have hmem : BitVec.ofNat 32 f ∈ pframes := by
      rw [hall, BitVec.lt_def, BitVec.toNat_ofNat, Nat.mod_eq_of_lt (by omega)]
      omega
    have hout := List.mem_map_of_mem (f := asFrame) hmem
    rw [asFrame_ofNat (by omega)] at hout
    exact (mem_freeFrames.mp ((htakes.mem_iff f).2 hout)).2
  have hzero : malloc.pageframeBitmap = fun _ => 0#32 :=
    words_ext (by decide) fun f hf => by rw [hclear f hf, bit_zero]
  exact congrFun hzero i

/-- With every frame free at boot, the calls empty the pool. -/
theorem allocatesAllOnce_of_zero {numPageFrames : Word} (hdvd : 32 ∣ numPageFrames.toNat)
    (hlt : numPageFrames.toNat < 2 ^ 31) {malloc : Malloc N (bitSize numPageFrames)}
    (hzero : ∀ i, malloc.pageframeBitmap i = 0#32) : AllocatesAllOnce numPageFrames malloc := by
  have hsize := bitSize_mul_32 hdvd
  have hk : bitSize numPageFrames * 32 < 2 ^ 32 := by omega
  obtain ⟨b, pframes, halloc, hlen, htakes⟩ :=
    allocate_takes hk numPageFrames.toNat (mmuInitialize numPageFrames malloc).bitmaps
  have hfree : (mmuInitialize numPageFrames malloc).bitmaps.freeFrames =
      Finset.range numPageFrames.toNat := by
    ext f
    have htaken : (mmuInitialize numPageFrames malloc).bitmaps.taken f = false := by
      rw [taken, show (mmuInitialize numPageFrames malloc).bitmaps.pageframeBitmap =
        fun _ => 0#32 from funext hzero, bit_zero]
    rw [mem_freeFrames, hsize, Finset.mem_range]
    exact and_iff_left htaken
  rw [hfree] at htakes
  have hrow : (pframes.map asFrame).length = (Finset.range numPageFrames.toNat).card := by
    rw [List.length_map, hlen, Finset.card_range]
  -- as many calls as free frames: none is refused, and none is left
  have hnone := (htakes.granted_of_length_le (Nat.le_of_eq hrow)).1
  have hempty := htakes.empty_of_length_eq hrow
  refine ⟨b, pframes, halloc, (htakes.nodup hnone).of_map _, fun f => ?_, fun c => ?_⟩
  · rw [BitVec.lt_def, ← Finset.mem_range]
    constructor
    · intro hf
      cases hframe : asFrame f with
      | none => exact absurd (hframe ▸ List.mem_map_of_mem hf) hnone
      | some g =>
        rw [eq_some_of_asFrame hframe]
        exact (htakes.mem_iff g).2 (hframe ▸ List.mem_map_of_mem hf)
    · intro hf
      have hout : some f.toNat ∈ pframes.map asFrame := by
        by_contra hnot
        have hleft := (htakes.mem_iff f.toNat).1.mpr ⟨hf, hnot⟩
        rw [hempty] at hleft
        exact Finset.notMem_empty _ hleft
      obtain ⟨g, hg, hgf⟩ := List.mem_map.mp hout
      rw [← BitVec.eq_of_toNat_eq (eq_some_of_asFrame hgf)]
      exact hg
  · obtain ⟨b', later, hlater, _, htakes'⟩ := allocate_takes hk c b
    rw [hempty] at htakes'
    refine ⟨b', later, hlater, fun f hf => ?_⟩
    have hnone' := htakes'.refused_of_empty _ (List.mem_map_of_mem hf)
    by_contra hne
    rw [asFrame, if_neg hne] at hnone'
    cases hnone'

/-- All memory can be allocated, each frame once, just in case the bytes that
`malloc` returned for the page frame bitmap were all zero. -/
theorem allocatesAllOnce_iff {numPageFrames : Word} (hdvd : 32 ∣ numPageFrames.toNat)
    (hlt : numPageFrames.toNat < 2 ^ 31) (malloc : Malloc N (bitSize numPageFrames)) :
    AllocatesAllOnce numPageFrames malloc ↔ ∀ i, malloc.pageframeBitmap i = 0#32 :=
  ⟨AllocatesAllOnce.zero hdvd hlt, allocatesAllOnce_of_zero hdvd hlt⟩

/-- Memory that happens to hold zeros. -/
def zeros (n k : ℕ) : Malloc n k where
  rbitBitmap := fun _ => 0#32
  mbitBitmap := fun _ => 0#32
  pageframeBitmap := fun _ => 0#32
  tlb := fun _ => ⟨0#32, 0#32⟩

theorem allocatesAllOnce_zeros : AllocatesAllOnce 64#32 (zeros 8 (bitSize 64#32)) :=
  (allocatesAllOnce_iff (by decide) (by decide) _).mpr fun _ => rfl

/-- Garbage in the bitmap is taken for frames that are in use. -/
theorem not_allocatesAllOnce_garbage : ¬AllocatesAllOnce 32#32 (garbage 8 (bitSize 32#32)) := by
  intro h
  exact absurd (h.zero (by decide) (by decide) ⟨0, by decide⟩) (by decide)

end Mmu

end SimOS
