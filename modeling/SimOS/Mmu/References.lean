import SimOS.Mmu.DirtyPages

/-!
# Which frames were referenced

`mmu.h` says that the R bit of a frame is 1 if the frame was referenced by a
LOAD or a STORE. The operating system clears the R bits and reads them after
some translations. A translation that misses the TLB copies the R bit of the
frame into the new entry and does not set it, so what the R bits record is the
translations that found their page in the TLB.
-/

namespace SimOS

open Library

variable {n k : ℕ}

namespace Mmu

/-- The frame a physical address is in. -/
def frameOf (paddress : Word) : Frame := paddress.extractLsb' 11 21

theorem frameOf_physical (f : Frame) (vaddress : Word) : frameOf (physical f vaddress) = f := by
  have hmask : offsetMask = BitVec.ofNat 32 (2 ^ 11 - 1) := rfl
  refine BitVec.eq_of_getLsbD_eq fun i hi => ?_
  rw [frameOf, BitVec.getLsbD_extractLsb', physical, BitVec.getLsbD_or, BitVec.getLsbD_shiftLeft,
    BitVec.getLsbD_and, hmask, getLsbD_lowMask 11 (11 + i) (by decide), getLsbD_toWord,
    Nat.add_sub_cancel_left]
  have hlt : 11 + i < 32 := by omega
  have hge : ¬11 + i < 11 := by omega
  simp [hi, hlt, hge]

/-- One call of `mmu_translate`, with whether its page was in the TLB before. -/
structure Access where
  vaddress : Word
  op : Operation
  cached : Bool
  out : Translation

/-- The call returned a physical address in the frame. -/
def Access.References (a : Access) (f : Frame) : Prop :=
  ∃ paddress, a.out = .address paddress ∧ frameOf paddress = f

/-- Translations from a state in which the R bits have just been cleared. -/
def AccessRun (start : Mmu n k) : List (Access × Mmu n k) → Mmu n k → Prop :=
  Run (· = start.mmuClearRbits) fun _ m a m' =>
    m.mmuTranslate a.vaddress a.op = some (m', a.out) ∧
      a.cached = decide (m.Caches (pageOf a.vaddress))

/-- What the calls so far did: the page map is that of the start, each call
referenced the frame of its page, and the R bits tell the frames of the calls
that found their page in the TLB. -/
structure Marks (start : Mmu n k) (h : List (Access × Mmu n k)) (m : Mmu n k) : Prop where
  coherent : m.Coherent
  pageMap : m.pageTable.pageMap = start.pageTable.pageMap
  references : ∀ x ∈ h, ∀ f, x.1.References f ↔
    start.pageTable.pageMap (pageOf x.1.vaddress) = some f
  marked : ∀ f, (m.effectiveRm f).1 = true ↔ ∃ x ∈ h, x.1.cached = true ∧
    start.pageTable.pageMap (pageOf x.1.vaddress) = some f

theorem Marks.start {m : Mmu n k} (hm : m.Coherent) (hdist : m.DistinctFrames) :
    Marks m [] m.mmuClearRbits where
  coherent := coherent_mmuClearRbits hm
  pageMap := rfl
  references := by
    intro x hx
    cases hx
  marked := by
    intro f
    rw [effectiveRm_mmuClearRbits hm hdist]
    refine iff_of_false (Bool.noConfusion ·) ?_
    rintro ⟨x, hx, _⟩
    cases hx

/-- A translation references the frame of its page and marks it if it is a hit. -/
theorem Marks.next {start m m' : Mmu n k} {h : List (Access × Mmu n k)} (hm : Marks start h m)
    (hdist : start.DistinctFrames) (hcov : start.MappedCovered) {a : Access}
    (heq : m.mmuTranslate a.vaddress a.op = some (m', a.out))
    (hcached : a.cached = decide (m.Caches (pageOf a.vaddress))) :
    Marks start ((a, m') :: h) m' := by
  have hcov' : m.MappedCovered := hcov.congr hm.pageMap
  have hdist' : m.DistinctFrames := hdist.congr hm.pageMap
  have hcase := TranslateCase.of_eq (hm.coherent.inBounds hcov') heq
  constructor
  · exact hcase.coherent hm.coherent
  · rw [hcase.pageMap_eq, hm.pageMap]
  · intro x hx f
    rcases List.mem_cons.mp hx with rfl | hx
    · -- the call answers as the page map does
      have hout := hcase.out_eq hm.coherent
      rw [hm.pageMap, PageMap.translate] at hout
      rw [Access.References, hout]
      cases hmap : start.pageTable.pageMap (pageOf a.vaddress) with
      | none => simp
      | some g => simp [frameOf_physical]
    · exact hm.references x hx f
  · intro f
    have hbits := hcase.effectiveRm_eq hm.coherent hdist' f
    simp only [hm.coherent.hits_frame_iff, hm.pageMap] at hbits
    rw [hbits]
    constructor
    · intro hr
      by_cases hhit : m.Caches (pageOf a.vaddress) ∧
          start.pageTable.pageMap (pageOf a.vaddress) = some f
      · refine ⟨(a, m'), List.mem_cons_self, ?_, hhit.2⟩
        rw [hcached]
        exact decide_eq_true hhit.1
      · rw [if_neg hhit] at hr
        obtain ⟨x, hx, hfound⟩ := (hm.marked f).mp hr
        exact ⟨x, List.mem_cons_of_mem _ hx, hfound⟩
    · rintro ⟨x, hx, hfound, hmap⟩
      split
      · rfl
      · next hmiss =>
        rcases List.mem_cons.mp hx with rfl | hx
        · rw [hcached, decide_eq_true_eq] at hfound
          exact absurd ⟨hfound, hmap⟩ hmiss
        · exact (hm.marked f).mpr ⟨x, hx, hfound, hmap⟩

theorem AccessRun.marks {start m : Mmu n k} (hco : start.Coherent) (hdist : start.DistinctFrames)
    (hcov : start.MappedCovered) {h : List (Access × Mmu n k)} (hrun : AccessRun start h m) :
    Marks start h m := by
  refine Run.invariant (P := Marks start) ?_ ?_ hrun
  · rintro s rfl
    exact Marks.start hco hdist
  · intro h s a s' _ ih hs
    exact ih.next hdist hcov hs.1 hs.2

/-- After any translations since the R bits were cleared, the R bits are exact
just in case each present page among theirs was in the TLB when one of the
translations for it came. -/
theorem references_exact_iff {start m : Mmu n k} (hco : start.Coherent)
    (hdist : start.DistinctFrames) (hcov : start.MappedCovered) {h : List (Access × Mmu n k)}
    (hrun : AccessRun start h m) :
    (∀ f, (m.effectiveRm f).1 = true ↔ ∃ x ∈ h, x.1.References f) ↔
    ∀ v, start.pageTable.pageMap v ≠ none → (∃ x ∈ h, pageOf x.1.vaddress = v) →
      ∃ x ∈ h, pageOf x.1.vaddress = v ∧ x.1.cached = true := by
  have hmarks := hrun.marks hco hdist hcov
  constructor
  · rintro hexact v hv ⟨x, hx, hpage⟩
    obtain ⟨f, hf⟩ := Option.ne_none_iff_exists'.mp hv
    have href : x.1.References f := by
      rw [hmarks.references x hx, hpage, hf]
    obtain ⟨y, hy, hcached, hmap⟩ := (hmarks.marked f).mp ((hexact f).mpr ⟨x, hx, href⟩)
    exact ⟨y, hy, hdist _ _ f hmap hf, hcached⟩
  · intro hcond f
    rw [hmarks.marked]
    constructor
    · rintro ⟨x, hx, _, hmap⟩
      exact ⟨x, hx, (hmarks.references x hx f).mpr hmap⟩
    · rintro ⟨x, hx, href⟩
      have hmap := (hmarks.references x hx f).mp href
      obtain ⟨y, hy, hpage, hcached⟩ := hcond _ (by rw [hmap]; exact Option.some_ne_none f)
        ⟨x, hx, rfl⟩
      refine ⟨y, hy, hcached, ?_⟩
      rw [hpage, hmap]

/-! ## A reference that leaves no mark -/

theorem caches_mmuClearRbits (m : Mmu n k) (v : Vpage) : m.mmuClearRbits.Caches v ↔ m.Caches v :=
  Iff.rfl

theorem caches_osInstall (m : Mmu n k) (v w : Vpage) (f : Frame) :
    (m.osInstall w f).Caches v ↔ m.Caches v :=
  Iff.rfl

theorem Started.not_caches {m : Mmu n k} (hm : m.Started) (v : Vpage) : ¬m.Caches v :=
  hm.coherent.not_caches (hm.pageMap v)

/-- Page 3 is in frame 1 and nothing is in the TLB. -/
def installedMmu : Mmu 1 (bitSize 32#32) := smallMmu.osInstall 3#21 1#21

theorem coherent_installedMmu : installedMmu.Coherent :=
  coherent_osInstall started_smallMmu.coherent (started_smallMmu.pageMap _) _

theorem distinctFrames_installedMmu : installedMmu.DistinctFrames := by
  apply distinctFrames_osInstall started_smallMmu.distinctFrames
  intro w
  rw [started_smallMmu.pageMap]
  exact (Option.some_ne_none _).symm

theorem mappedCovered_installedMmu : installedMmu.MappedCovered :=
  mappedCovered_osInstall started_smallMmu.mappedCovered (by decide)

theorem reachable_installedMmu : installedMmu.Reachable :=
  ⟨smallMmu, started_smallMmu, .single (.update _ _ _)⟩

theorem pageMap_installedMmu : installedMmu.pageTable.pageMap 3#21 = some 1#21 := by
  rw [installedMmu, osInstall, PageTable.pageMap_update_zero, Function.update_self]

/-- A LOAD from page 3 returns an address in frame 1, and misses the TLB. -/
theorem exists_unmarked_access : ∃ m : Mmu 1 (bitSize 32#32),
    AccessRun installedMmu [(⟨0x1807#32, .load, false, .address 0x807#32⟩, m)] m := by
  have hpage : pageOf 0x1807#32 = 3#21 := by decide
  have hmarks := Marks.start coherent_installedMmu distinctFrames_installedMmu
  have hin : installedMmu.mmuClearRbits.InBounds :=
    hmarks.coherent.inBounds mappedCovered_installedMmu
  obtain ⟨⟨m, out⟩, heq⟩ := Option.isSome_iff_exists.mp
    (mmuTranslate_isSome hin (show 0 < 1 by decide) 0x1807#32 .load)
  have hout := (TranslateCase.of_eq hin heq).out_eq hmarks.coherent
  rw [hmarks.pageMap, PageMap.translate, hpage, pageMap_installedMmu] at hout
  refine ⟨m, .next (.start rfl) ⟨?_, ?_⟩⟩
  · rw [heq, hout]
    rfl
  · symm
    apply decide_eq_false
    rw [caches_mmuClearRbits, installedMmu, caches_osInstall]
    exact started_smallMmu.not_caches _

/-- The R bit of the frame stays 0. -/
theorem reference_unmarked : installedMmu.Reachable ∧ installedMmu.Coherent ∧
    installedMmu.DistinctFrames ∧ installedMmu.MappedCovered ∧
    ∃ h m, AccessRun installedMmu h m ∧ (∃ x ∈ h, x.1.References 1#21) ∧
      (m.effectiveRm 1#21).1 = false := by
  refine ⟨reachable_installedMmu, coherent_installedMmu, distinctFrames_installedMmu,
    mappedCovered_installedMmu, ?_⟩
  obtain ⟨m, hrun⟩ := exists_unmarked_access
  have hmarks := hrun.marks coherent_installedMmu distinctFrames_installedMmu
    mappedCovered_installedMmu
  refine ⟨_, m, hrun, ⟨_, List.mem_cons_self, 0x807#32, rfl, by decide⟩, ?_⟩
  apply Bool.eq_false_iff.mpr
  intro hr
  obtain ⟨x, hx, hcached, _⟩ := (hmarks.marked _).mp hr
  rw [List.mem_singleton.mp hx] at hcached
  cases hcached

/-- In the same run the R bits are not exact. -/
theorem references_exact_iff_installed : ∃ h m, AccessRun installedMmu h m ∧
    ¬∀ f, (m.effectiveRm f).1 = true ↔ ∃ x ∈ h, x.1.References f := by
  obtain ⟨m, hrun⟩ := exists_unmarked_access
  refine ⟨_, m, hrun, fun hexact => ?_⟩
  obtain ⟨x, hx, _, hcached⟩ := (references_exact_iff coherent_installedMmu
    distinctFrames_installedMmu mappedCovered_installedMmu hrun).mp hexact 3#21
    (by rw [pageMap_installedMmu]; exact Option.some_ne_none _)
    ⟨_, List.mem_cons_self, show pageOf 0x1807#32 = 3#21 by decide⟩
  rw [List.mem_singleton.mp hx] at hcached
  cases hcached

end Mmu

end SimOS
