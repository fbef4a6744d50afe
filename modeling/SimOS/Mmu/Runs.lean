import SimOS.Mmu.Translate
import SimOS.Library.Run

/-!
# Runs of the MMU

The CPU translates addresses and clears the R bits; the operating system
installs pages in frames and evicts them. Second-level tables are zero-filled
when they are created here; what happens when they are not is the subject of
`SimOS.Mmu.PageTableRuns`.

`Coherent` is the invariant that ties the TLB to the page table.
-/

namespace SimOS

open Library

variable {n k : ℕ}

/-- One call into the MMU or one step of the operating system. A translation is
recorded with its result, and with whether its page was in the TLB before. -/
inductive MmuEvent
  | translate (vaddress : Word) (op : Operation) (cached : Bool) (out : Translation)
  | clearRbits
  | install (v : Vpage) (f : Frame)
  | installClean (v : Vpage) (f : Frame)
  | evict (v : Vpage)

namespace Mmu

/-- `pt_update_pagetable` with a zero-filled fresh table. -/
def osInstall (m : Mmu n k) (v : Vpage) (f : Frame) : Mmu n k :=
  { m with pageTable := m.pageTable.ptUpdatePagetable (fun _ => 0#32) (toWord v) (toWord f) }

/-- Clearing the frame's M and R bits in the bitmaps before the update. -/
def osInstallClean (m : Mmu n k) (v : Vpage) (f : Frame) : Option (Mmu n k) :=
  ((m.bitmaps.mmuModifyMbitInBitmap (toWord f) 0).bind fun bitmaps =>
    bitmaps.mmuModifyRbitInBitmap (toWord f) 0).map fun bitmaps =>
      { m with bitmaps := bitmaps }.osInstall v f

/-- `pt_clear_page_table_entry` followed by `tlb_clear_entry`. -/
def osEvict (m : Mmu n k) (v : Vpage) : Option (Mmu n k) :=
  (m.pageTable.ptClearPageTableEntry (toWord v)).map fun pageTable =>
    { m with pageTable := pageTable, tlb := m.tlb.tlbClearEntry (toWord v) }

/-- The page is in the TLB. -/
def Caches (m : Mmu n k) (v : Vpage) : Prop := ∃ i, m.tlb.Hits v i

instance (m : Mmu n k) (v : Vpage) : Decidable (m.Caches v) :=
  inferInstanceAs (Decidable (∃ _, _))

/-- What the calls of an event do. -/
def Exec (m : Mmu n k) : MmuEvent → Mmu n k → Prop
  | .translate vaddress op cached out, m' =>
      m.mmuTranslate vaddress op = some (m', out) ∧ cached = decide (m.Caches (pageOf vaddress))
  | .clearRbits, m' => m' = m.mmuClearRbits
  | .install v f, m' => m' = m.osInstall v f
  | .installClean v f, m' => m.osInstallClean v f = some m'
  | .evict v, m' => m.osEvict v = some m'

/-- An empty TLB and an empty page table, whatever else is in memory. -/
structure Started (m : Mmu n k) : Prop where
  tlb : ∀ i, (m.tlb.tlb i).valid = false
  hand : m.tlb.nextVpageToCheck = 0
  pageTable : ∀ i, m.pageTable.firstLevel i = none

theorem started_mmuInitialize (numPageFrames : Word) (malloc : Malloc n (bitSize numPageFrames)) :
    (mmuInitialize numPageFrames malloc).Started where
  tlb := fun _ => TlbEntry.valid_clear _
  hand := rfl
  pageTable := fun _ => rfl

/-- The smallest MMU, one TLB entry and one word for each bitmap. -/
def smallMmu : Mmu 1 (bitSize 32#32) := mmuInitialize 32#32 (garbage 1 _)

theorem started_smallMmu : smallMmu.Started := started_mmuInitialize _ _

/-- The TLB holds at most one entry for a page, and what it holds agrees with
the page table. -/
structure Coherent (m : Mmu n k) : Prop where
  unique : SlotCache.Unique m.tlb.byPage
  agrees : ∀ i v x, m.tlb.byPage i = some (v, x) → m.pageTable.pageMap v = some x.1

/-- Every mapped frame has its word inside the bitmaps. -/
def MappedCovered (m : Mmu n k) : Prop :=
  ∀ v f, m.pageTable.pageMap v = some f → Bitmaps.Covers k f

theorem Started.pageMap {m : Mmu n k} (hm : m.Started) (v : Vpage) :
    m.pageTable.pageMap v = none := by
  rw [PageTable.pageMap, hm.pageTable, Option.bind_none]

theorem Started.coherent {m : Mmu n k} (hm : m.Started) : m.Coherent where
  unique := by
    intro i j a b hi
    rw [Tlb.byPage_of_invalid (hm.tlb i)] at hi
    cases hi
  agrees := by
    intro i v x hi
    rw [Tlb.byPage_of_invalid (hm.tlb i)] at hi
    cases hi

theorem Started.mappedCovered {m : Mmu n k} (hm : m.Started) : m.MappedCovered := by
  intro v f hv
  rw [hm.pageMap] at hv
  cases hv

/-- Entries that were there, of pages mapped as they were, stay coherent. -/
theorem Coherent.of_entries {m m' : Mmu n k} (hm : m.Coherent)
    (hentries : ∀ i v x, m'.tlb.byPage i = some (v, x) →
      (∃ y, m.tlb.byPage i = some (v, y) ∧ y.1 = x.1) ∧
        m'.pageTable.pageMap v = m.pageTable.pageMap v) : m'.Coherent := by
  constructor
  · apply hm.unique.of_keys
    intro i a hi
    obtain ⟨⟨y, hy, _⟩, _⟩ := hentries i a.1 a.2 hi
    exact ⟨y, hy⟩
  · intro i v x hi
    obtain ⟨⟨y, hy, hyx⟩, hmap⟩ := hentries i v x hi
    rw [hmap, ← hyx]
    exact hm.agrees i v y hy

/-- Writing the entry of a mapped page is coherent when no other slot has the page. -/
theorem Coherent.of_update {m m' : Mmu n k} (hm : m.Coherent) {i : Fin n} {v : Vpage}
    {x : Frame × Bool × Bool} (hbp : m'.tlb.byPage = Function.update m.tlb.byPage i (some (v, x)))
    (hpageMap : m'.pageTable.pageMap = m.pageTable.pageMap)
    (hmap : m.pageTable.pageMap v = some x.1)
    (hothers : ∀ j y, j ≠ i → m.tlb.byPage j ≠ some (v, y)) : m'.Coherent := by
  constructor
  · rw [hbp]
    exact hm.unique.update_some hothers
  · intro j w y hj
    rw [hpageMap]
    rw [hbp] at hj
    by_cases hji : j = i
    · subst hji
      rw [Function.update_self, Option.some.injEq, Prod.mk.injEq] at hj
      rw [← hj.1, ← hj.2]
      exact hmap
    · rw [Function.update_of_ne hji] at hj
      exact hm.agrees j w y hj

/-- In a coherent TLB the entry of a page holds the frame the page is mapped to. -/
theorem Coherent.hits_frame_iff {m : Mmu n k} (hm : m.Coherent) (v : Vpage) (f : Frame) :
    (∃ i, m.tlb.Hits v i ∧ (m.tlb.tlb i).pframe = f) ↔
      m.Caches v ∧ m.pageTable.pageMap v = some f := by
  constructor
  · rintro ⟨i, hhit, rfl⟩
    exact ⟨⟨i, hhit⟩, hm.agrees i _ _ hhit.byPage⟩
  · rintro ⟨⟨i, hhit⟩, hmap⟩
    have hown := hm.agrees i _ _ hhit.byPage
    rw [hmap, Option.some.injEq] at hown
    exact ⟨i, hhit, hown.symm⟩

theorem MappedCovered.congr {m m' : Mmu n k} (hm : m.MappedCovered)
    (hmap : m'.pageTable.pageMap = m.pageTable.pageMap) : m'.MappedCovered := by
  intro v f hv
  rw [hmap] at hv
  exact hm v f hv

/-- A coherent TLB caches only mapped frames. -/
theorem Coherent.inBounds {m : Mmu n k} (hm : m.Coherent) (hcov : m.MappedCovered) :
    m.InBounds where
  mapped := hcov
  cached := fun i hi => hcov _ _ (hm.agrees i _ _ (Tlb.byPage_of_valid hi))

/-! ## Each step keeps the TLB coherent -/

/-- A translation never changes the page map. -/
theorem TranslateCase.pageMap_eq {m m' : Mmu n k} {vaddress : Word} {op : Operation}
    {out : Translation} (h : TranslateCase m vaddress op m' out) :
    m'.pageTable.pageMap = m.pageTable.pageMap := by
  cases h <;> rfl

theorem TranslateCase.coherent {m m' : Mmu n k} (hm : m.Coherent) {vaddress : Word}
    {op : Operation} {out : Translation} (h : TranslateCase m vaddress op m' out) :
    m'.Coherent := by
  cases h with
  | hit i hhit =>
    have hbp := Tlb.byPage_update m.tlb i ((m.tlb.tlb i).touch op) false m.tlb.nextVpageToCheck
    simp only [TlbEntry.touch_valid, TlbEntry.touch_vpage, TlbEntry.touch_pframe, hhit.1,
      hhit.2, if_true] at hbp
    have hmap := hm.agrees i _ _ hhit.byPage
    refine hm.of_update hbp rfl hmap ?_
    intro j x hji hj
    exact hji (hm.unique j i _ _ hj hhit.byPage rfl)
  | fill f i hand bitmaps hmiss hmap _ _ _ =>
    have hbp := Tlb.byPage_update m.tlb i
      ((m.tlb.tlb i).insert (toWord (pageOf vaddress)) (toWord f)
        (Bitmaps.ofBit (m.bitmaps.rm f).1) (Bitmaps.ofBit (m.bitmaps.rm f).2)) true hand
    simp only [TlbEntry.insert_valid, TlbEntry.insert_vpage, TlbEntry.insert_pframe,
      if_true] at hbp
    exact hm.of_update hbp rfl hmap fun j x _ hj => Tlb.absent_byPage.mpr hmiss j x hj
  | fault bitmaps _ _ _ _ => exact ⟨hm.unique, hm.agrees⟩

theorem TranslateCase.hand_lt {m m' : Mmu n k} (hm : m.tlb.nextVpageToCheck < n)
    {vaddress : Word} {op : Operation} {out : Translation}
    (h : TranslateCase m vaddress op m' out) : m'.tlb.nextVpageToCheck < n := by
  cases h with
  | hit i _ => exact hm
  | fill f i hand bitmaps _ _ hhand _ _ => exact hhand
  | fault bitmaps _ _ _ _ => exact hm

theorem coherent_mmuClearRbits {m : Mmu n k} (hm : m.Coherent) : m.mmuClearRbits.Coherent := by
  apply hm.of_entries
  intro i v x hi
  rw [mmuClearRbits, Tlb.byPage_tlbClearRBits] at hi
  obtain ⟨y, hy, hx⟩ := Option.map_eq_some_iff.mp hi
  rw [Prod.mk.injEq] at hx
  refine ⟨⟨y.2, ?_, ?_⟩, rfl⟩
  · rw [hy, ← hx.1]
  · rw [← hx.2]

/-- Mapping an absent page touches nothing the TLB caches. -/
theorem coherent_osInstall {m : Mmu n k} (hm : m.Coherent) {v : Vpage}
    (hv : m.pageTable.pageMap v = none) (f : Frame) : (m.osInstall v f).Coherent where
  unique := hm.unique
  agrees := by
    intro i w x hi
    have hw := hm.agrees i w x hi
    have hne : w ≠ v := by
      rintro rfl
      rw [hv] at hw
      cases hw
    rw [osInstall, PageTable.pageMap_update_zero, Function.update_of_ne hne]
    exact hw

theorem mappedCovered_osInstall {m : Mmu n k} (hm : m.MappedCovered) {v : Vpage} {f : Frame}
    (hf : Bitmaps.Covers k f) : (m.osInstall v f).MappedCovered := by
  intro w g hw
  rw [osInstall, PageTable.pageMap_update_zero] at hw
  by_cases hwv : w = v
  · subst hwv
    rw [Function.update_self, Option.some.injEq] at hw
    rw [← hw]
    exact hf
  · rw [Function.update_of_ne hwv] at hw
    exact hm w g hw

/-- The clean installation is the plain one with both bits of the frame cleared. -/
theorem osInstallClean_eq {m : Mmu n k} {v : Vpage} {f : Frame} (hf : Bitmaps.Covers k f) :
    m.osInstallClean v f =
      some ({ m with bitmaps := m.bitmaps.writeRm f (false, false) }.osInstall v f) := by
  rw [osInstallClean, Bitmaps.modify_m_r hf]
  rfl

/-- An eviction empties the slot of the page, if it has one, and unmaps the page. -/
theorem osEvict_cases {m m' : Mmu n k} {v : Vpage} (h : m.osEvict v = some m') :
    m'.bitmaps = m.bitmaps ∧ m'.tlb = m.tlb.tlbClearEntry (toWord v) ∧
      m'.pageTable.pageMap = Function.update m.pageTable.pageMap v none := by
  obtain ⟨pt, hpt, rfl⟩ := Option.map_eq_some_iff.mp h
  exact ⟨rfl, rfl, PageTable.pageMap_clear hpt⟩

theorem byPage_tlbClearEntry_some {t : Tlb n} {v w : Vpage} {i : Fin n} {x : Frame × Bool × Bool} :
    (t.tlbClearEntry (toWord v)).byPage i = some (w, x) ↔ t.byPage i = some (w, x) ∧ w ≠ v := by
  rw [Tlb.byPage_tlbClearEntry, Option.filter_eq_some_iff]
  simp

theorem coherent_osEvict {m m' : Mmu n k} (hm : m.Coherent) {v : Vpage}
    (h : m.osEvict v = some m') : m'.Coherent := by
  obtain ⟨_, htlb, hmap⟩ := osEvict_cases h
  apply hm.of_entries
  intro i w x hi
  rw [htlb] at hi
  obtain ⟨hx, hne⟩ := byPage_tlbClearEntry_some.mp hi
  rw [hmap, Function.update_of_ne hne]
  exact ⟨⟨x, hx, rfl⟩, rfl⟩

theorem mappedCovered_osEvict {m m' : Mmu n k} (hm : m.MappedCovered) {v : Vpage}
    (h : m.osEvict v = some m') : m'.MappedCovered := by
  obtain ⟨_, _, hmap⟩ := osEvict_cases h
  intro w g hw
  rw [hmap] at hw
  by_cases hwv : w = v
  · subst hwv
    simp at hw
  · rw [Function.update_of_ne hwv] at hw
    exact hm w g hw

/-! ## Runs of installs and evictions -/

/-- When the operating system may act: it installs a page that faults in a
frame inside the bitmaps and evicts a page that is present. -/
def Legal (m : Mmu n k) : MmuEvent → Prop
  | .translate .. => True
  | .clearRbits => True
  | .install v f => m.pageTable.pageMap v = none ∧ Bitmaps.Covers k f
  | .installClean v f => m.pageTable.pageMap v = none ∧ Bitmaps.Covers k f
  | .evict v => m.pageTable.pageMap v ≠ none

/-- A run from an empty TLB and an empty page table. -/
def MmuRun : List (MmuEvent × Mmu n k) → Mmu n k → Prop :=
  Run Started fun _ m e m' => m.Legal e ∧ m.Exec e m'

/-- Everything the MMU's own invariants say. -/
structure Good (m : Mmu n k) : Prop where
  coherent : m.Coherent
  covered : m.MappedCovered
  hand : m.tlb.nextVpageToCheck < n

theorem Good.inBounds {m : Mmu n k} (hm : m.Good) : m.InBounds :=
  hm.coherent.inBounds hm.covered

theorem Started.good (hn : 0 < n) {m : Mmu n k} (hm : m.Started) : m.Good :=
  ⟨hm.coherent, hm.mappedCovered, by rw [hm.hand]; exact hn⟩

/-- Every legal step keeps the invariants. -/
theorem Good.step {m m' : Mmu n k} (hm : m.Good) {e : MmuEvent} (hlegal : m.Legal e)
    (hexec : m.Exec e m') : m'.Good := by
  cases e with
  | translate vaddress op cached out =>
    have hcase := TranslateCase.of_eq hm.inBounds hexec.1
    exact ⟨hcase.coherent hm.coherent, hm.covered.congr hcase.pageMap_eq, hcase.hand_lt hm.hand⟩
  | clearRbits =>
    obtain rfl : m' = m.mmuClearRbits := hexec
    exact ⟨coherent_mmuClearRbits hm.coherent, hm.covered, hm.hand⟩
  | install v f =>
    obtain rfl : m' = m.osInstall v f := hexec
    exact ⟨coherent_osInstall hm.coherent hlegal.1 f, mappedCovered_osInstall hm.covered hlegal.2,
      hm.hand⟩
  | installClean v f =>
    have hsome : m.osInstallClean v f = some m' := hexec
    rw [osInstallClean_eq hlegal.2, Option.some.injEq] at hsome
    subst hsome
    have hco : Coherent { m with bitmaps := m.bitmaps.writeRm f (false, false) } :=
      ⟨hm.coherent.unique, hm.coherent.agrees⟩
    exact ⟨coherent_osInstall hco hlegal.1 f, mappedCovered_osInstall (v := v) hm.covered hlegal.2,
      hm.hand⟩
  | evict v =>
    refine ⟨coherent_osEvict hm.coherent hexec, mappedCovered_osEvict hm.covered hexec, ?_⟩
    rw [(osEvict_cases hexec).2.1]
    exact hm.hand

theorem MmuRun.good (hn : 0 < n) {h : List (MmuEvent × Mmu n k)} {m : Mmu n k}
    (hrun : MmuRun h m) : m.Good :=
  Run.invariant (P := fun _ m => m.Good) (fun _ hs => hs.good hn)
    (fun _ _ _ _ _ ih hs => ih.step hs.1 hs.2) hrun

/-- No legal step runs into undefined behaviour. -/
theorem Good.exec_defined {m : Mmu n k} (hm : m.Good) :
    (∀ vaddress op, (m.mmuTranslate vaddress op).isSome) ∧
      (∀ v f, m.Legal (.installClean v f) → (m.osInstallClean v f).isSome) ∧
      ∀ v, m.Legal (.evict v) → (m.osEvict v).isSome := by
  refine ⟨fun vaddress op => ?_, fun v f h => ?_, fun v h => ?_⟩
  · exact mmuTranslate_isSome hm.inBounds hm.hand vaddress op
  · rw [osInstallClean_eq h.2]
    rfl
  · rw [osEvict, Option.isSome_map]
    exact PageTable.ptClear_isSome h

end Mmu

end SimOS
