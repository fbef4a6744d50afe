import SimOS.Mmu.Types
import Mathlib.Logic.Function.Basic

/-!
# The two-level page table of `page.c`

The first level is an array of 2048 pointers to second-level tables of 1024
words. A `NULL` pointer is `none`; following it is undefined behaviour, again
`none`. `pt_update_pagetable` allocates a missing table with `malloc`, whose
bytes are unknown, so it takes the contents of the fresh table as an argument.
-/

namespace SimOS

/-- `PRES_BIT`. -/
def presBit : Word := 0x80000000#32

def pt1 : Word := 0x001FFC00#32

def pt2 : Word := 0x000003FF#32

def pageFrame : Word := 0x001FFFFF#32

theorem toNat_and_pt1_shift (vpage : Word) :
    ((vpage &&& pt1) >>> 10).toNat = vpage.toNat / 1024 % 2048 := by
  have hmask : pt1 = BitVec.ofNat 32 (2 ^ 11 - 1) <<< 10 := rfl
  apply Nat.eq_of_testBit_eq
  intro i
  have h1024 : (1024 : ℕ) = 2 ^ 10 := rfl
  have h2048 : (2048 : ℕ) = 2 ^ 11 := rfl
  rw [h1024, h2048, Nat.testBit_mod_two_pow, Nat.testBit_div_two_pow]
  simp only [BitVec.testBit_toNat, BitVec.getLsbD_ushiftRight, BitVec.getLsbD_and, hmask,
    BitVec.getLsbD_shiftLeft, Nat.add_sub_cancel_left, getLsbD_lowMask 11 i (by decide)]
  by_cases hi : i < 11
  · simp [hi, Nat.add_comm i 10, show 10 + i < 32 by omega]
  · simp [hi]

theorem toNat_and_pt2 (vpage : Word) : (vpage &&& pt2).toNat = vpage.toNat % 1024 := by
  have hmask : pt2 = BitVec.ofNat 32 (2 ^ 10 - 1) := rfl
  apply Nat.eq_of_testBit_eq
  intro i
  have h1024 : (1024 : ℕ) = 2 ^ 10 := rfl
  rw [h1024, Nat.testBit_mod_two_pow]
  simp only [BitVec.testBit_toNat, BitVec.getLsbD_and, hmask, getLsbD_lowMask 10 i (by decide)]
  rw [Bool.and_comm]

/-- The first-level index `i1` of a page. -/
def i1 (vpage : Word) : Fin 2048 :=
  ⟨((vpage &&& pt1) >>> 10).toNat, by
    rw [toNat_and_pt1_shift]
    exact Nat.mod_lt _ (by decide)⟩

/-- The second-level index `i2` of a page. -/
def i2 (vpage : Word) : Fin 1024 :=
  ⟨(vpage &&& pt2).toNat, by
    rw [toNat_and_pt2]
    exact Nat.mod_lt _ (by decide)⟩

/-- A second-level table: 1024 `PT_ENTRY` words. -/
abbrev SecondLevel := Fin 1024 → Word

/-- `first_level_page_table` with the flag `page_fault`. -/
structure PageTable where
  firstLevel : Fin 2048 → Option SecondLevel
  pageFault : Bool

namespace PageTable

def ptInitializePageTable (pt : PageTable) : PageTable :=
  { pt with firstLevel := fun _ => none }

def ptGetPframeNumber (pt : PageTable) (vpage : Word) : PageTable × Word :=
  match pt.firstLevel (i1 vpage) with
  | some second =>
    if second (i2 vpage) &&& presBit ≠ 0#32 then
      ({ pt with pageFault := false }, second (i2 vpage) &&& pageFrame)
    else ({ pt with pageFault := true }, 0#32)
  | none => ({ pt with pageFault := true }, 0#32)

/-- `fresh` is what `malloc` returns when the second-level table is missing. -/
def ptUpdatePagetable (pt : PageTable) (fresh : SecondLevel) (vpage pframe : Word) :
    PageTable :=
  let second := (pt.firstLevel (i1 vpage)).getD fresh
  { pt with
    firstLevel := Function.update pt.firstLevel (i1 vpage)
      (some (Function.update second (i2 vpage) (pframe ||| presBit))) }

def ptClearPageTableEntry (pt : PageTable) (vpage : Word) : Option PageTable :=
  match pt.firstLevel (i1 vpage) with
  | some second =>
    some { pt with
      firstLevel := Function.update pt.firstLevel (i1 vpage)
        (some (Function.update second (i2 vpage) (second (i2 vpage) &&& ~~~presBit))) }
  | none => none

end PageTable

/-! ## The page map -/

theorem presBit_eq : presBit = BitVec.twoPow 32 31 := by decide

/-- An entry read as the frame it maps, if it is present. -/
def entryFrame (entry : Word) : Option Frame :=
  if entry.getLsbD 31 then some (low21 entry) else none

theorem entryFrame_present (f : Frame) : entryFrame (toWord f ||| presBit) = some f := by
  have hpres : (toWord f ||| presBit).getLsbD 31 = true := by
    rw [presBit_eq, BitVec.getLsbD_or, BitVec.getLsbD_twoPow]
    simp
  rw [entryFrame, if_pos hpres, Option.some.injEq]
  refine BitVec.eq_of_getLsbD_eq fun i hi => ?_
  have hne : 31 ≠ i := by omega
  rw [getLsbD_low21, presBit_eq, BitVec.getLsbD_or, BitVec.getLsbD_twoPow, getLsbD_toWord]
  simp [hi, hne]

theorem entryFrame_cleared (entry : Word) : entryFrame (entry &&& ~~~presBit) = none := by
  rw [entryFrame, if_neg]
  rw [presBit_eq, BitVec.getLsbD_and, BitVec.getLsbD_not, BitVec.getLsbD_twoPow]
  simp

theorem entryFrame_zero : entryFrame 0#32 = none := by
  simp [entryFrame]

/-- Two pages with the same indices are the same page. -/
theorem index_inj {v w : Vpage} (h1 : i1 (toWord v) = i1 (toWord w))
    (h2 : i2 (toWord v) = i2 (toWord w)) : v = w := by
  have hv := v.isLt
  have hw := w.isLt
  have h1' := congrArg Fin.val h1
  have h2' := congrArg Fin.val h2
  simp only [i1, i2, toNat_and_pt1_shift, toNat_and_pt2, toNat_toWord] at h1' h2'
  apply BitVec.eq_of_toNat_eq
  omega

namespace PageTable

/-- The partial map from pages to frames that the tables hold. -/
def pageMap (pt : PageTable) (v : Vpage) : Option Frame :=
  (pt.firstLevel (i1 (toWord v))).bind fun second => entryFrame (second (i2 (toWord v)))

/-- A lookup sets `page_fault` exactly when the page is not mapped and returns
the frame it is mapped to; the tables stay as they are. -/
theorem ptGetPframeNumber_eq (pt : PageTable) (v : Vpage) :
    pt.ptGetPframeNumber (toWord v) =
      ({ pt with pageFault := (pt.pageMap v).isNone },
        ((pt.pageMap v).map toWord).getD 0#32) := by
  unfold ptGetPframeNumber pageMap
  cases hs : pt.firstLevel (i1 (toWord v)) with
  | none => rfl
  | some second =>
    simp only [Option.bind_some, entryFrame, presBit_eq, pageFrame, and_mask21,
      and_twoPow_ne_zero (by decide : 31 < 32)]
    split_ifs <;> rfl

/-- Clearing an entry unmaps its page and no other. -/
theorem pageMap_clear {pt pt' : PageTable} {v : Vpage}
    (h : pt.ptClearPageTableEntry (toWord v) = some pt') :
    pt'.pageMap = Function.update pt.pageMap v none := by
  unfold ptClearPageTableEntry at h
  cases hs : pt.firstLevel (i1 (toWord v)) with
  | none => simp [hs] at h
  | some second =>
    simp only [hs, Option.some.injEq] at h
    subst h
    funext w
    by_cases h1 : i1 (toWord w) = i1 (toWord v)
    · by_cases h2 : i2 (toWord w) = i2 (toWord v)
      · obtain rfl := index_inj h1 h2
        simp [pageMap, entryFrame_cleared]
      · have hwv : w ≠ v := fun he => h2 (by rw [he])
        simp [pageMap, h1, hs, Function.update_of_ne h2, Function.update_of_ne hwv]
    · have hwv : w ≠ v := fun he => h1 (by rw [he])
      simp [pageMap, Function.update_of_ne h1, Function.update_of_ne hwv]

/-- A page that is mapped has its second-level table. -/
theorem ptClear_isSome {pt : PageTable} {v : Vpage} (h : pt.pageMap v ≠ none) :
    (pt.ptClearPageTableEntry (toWord v)).isSome := by
  unfold ptClearPageTableEntry
  cases hs : pt.firstLevel (i1 (toWord v)) with
  | none => simp [pageMap, hs] at h
  | some second => rfl

/-- What an update does to each page: the page itself is mapped, and the other
pages of a table created by the update read what `malloc` left there. -/
theorem pageMap_update (pt : PageTable) (fresh : SecondLevel) (v : Vpage) (f : Frame)
    (w : Vpage) :
    (pt.ptUpdatePagetable fresh (toWord v) (toWord f)).pageMap w =
      if w = v then some f
      else if i1 (toWord w) = i1 (toWord v) ∧ pt.firstLevel (i1 (toWord v)) = none then
        entryFrame (fresh (i2 (toWord w)))
      else pt.pageMap w := by
  by_cases h1 : i1 (toWord w) = i1 (toWord v)
  · by_cases h2 : i2 (toWord w) = i2 (toWord v)
    · obtain rfl := index_inj h1 h2
      simp [ptUpdatePagetable, pageMap, entryFrame_present]
    · have hwv : w ≠ v := fun he => h2 (by rw [he])
      cases hs : pt.firstLevel (i1 (toWord v)) <;>
        simp [ptUpdatePagetable, pageMap, h1, hs, hwv, Function.update_of_ne h2]
  · have hwv : w ≠ v := fun he => h1 (by rw [he])
    simp [ptUpdatePagetable, pageMap, hwv, h1]

/-- When fresh tables are zero-filled an update maps its page and no other. -/
theorem pageMap_update_zero (pt : PageTable) (v : Vpage) (f : Frame) :
    (pt.ptUpdatePagetable (fun _ => 0#32) (toWord v) (toWord f)).pageMap =
      Function.update pt.pageMap v (some f) := by
  funext w
  rw [pageMap_update]
  by_cases hwv : w = v
  · simp [hwv]
  · rw [if_neg hwv, Function.update_of_ne hwv, entryFrame_zero]
    split_ifs with h
    · rw [pageMap, h.1, h.2, Option.bind_none]
    · rfl

@[simp] theorem pageMap_initialize (pt : PageTable) (v : Vpage) :
    pt.ptInitializePageTable.pageMap v = none := rfl

end PageTable

end SimOS
