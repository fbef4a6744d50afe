import SimOS.Mmu.EffectiveBits
import SimOS.Mmu.Transparency

/-!
# Which pages are dirty

`mmu.h` says that the M bit of a frame is 1 if the frame was written to by a
STORE. The operating system reads it in the page fault trap, to decide whether
an evicted page has to be written to disk. A STORE that misses the TLB copies
the M bit of the frame into the new entry and does not set it, so what the M
bit really records is the STOREs that found their page in the TLB.
-/

namespace SimOS

open Library

variable {n k : ℕ}

/-- The translation the event records is a STORE to the page that returned an address. -/
def MmuEvent.stores (v : Vpage) : MmuEvent → Bool
  | .translate vaddress .store _ (.address _) => Mmu.pageOf vaddress = v
  | _ => false

/-- The event maps the page anew. -/
def MmuEvent.installs (v : Vpage) : MmuEvent → Bool
  | .install w _ => w = v
  | .installClean w _ => w = v
  | _ => false

/-- The translation the event records found its page in the TLB. -/
def MmuEvent.found : MmuEvent → Bool
  | .translate _ _ cached _ => cached
  | _ => false

namespace Mmu

/-- Since the page was last installed there was a step that meets the test. -/
def sinceInstall (v : Vpage) (test : MmuEvent → Bool) : List (MmuEvent × Mmu n k) → Bool
  | [] => false
  | (e, _) :: h => !e.installs v && (test e || sinceInstall v test h)

/-- A STORE to the page returned an address since the page was installed. -/
def storedSince (v : Vpage) : List (MmuEvent × Mmu n k) → Bool :=
  sinceInstall v fun e => e.stores v

/-- One of these STOREs found the page in the TLB. -/
def storedWhileCached (v : Vpage) : List (MmuEvent × Mmu n k) → Bool :=
  sinceInstall v fun e => e.stores v && e.found

/-- The CPU is inside the trap of the last translation. -/
def inTrap : List (MmuEvent × Mmu n k) → Bool
  | [] => false
  | (.translate _ _ _ (.pageFaultTrap _), _) :: _ => true
  | (.translate _ _ _ (.address _), _) :: _ => false
  | _ :: h => inTrap h

/-- What the operating system may do and when: it acts in the trap only, and
installs pages in frames that hold no page, with their M and R bits cleared. -/
def TrapGuard (h : List (MmuEvent × Mmu n k)) (m : Mmu n k) : MmuEvent → Prop
  | .translate .. => True
  | .clearRbits => True
  | .install _ _ => False
  | .installClean _ f => inTrap h = true ∧ ∀ w, m.pageTable.pageMap w ≠ some f
  | .evict _ => inTrap h = true

/-- A run in which the operating system acts in the trap. -/
def TrapRun : List (MmuEvent × Mmu n k) → Mmu n k → Prop :=
  Run Started fun h m e m' => TrapGuard h m e ∧ m.Legal e ∧ m.Exec e m'

theorem TrapRun.mmuRun {h : List (MmuEvent × Mmu n k)} {m : Mmu n k} (hrun : TrapRun h m) :
    MmuRun h m :=
  Run.mono (fun _ hs => hs) (fun _ _ _ _ hs => hs.2) hrun

/-! ## The effective bits along the steps of the operating system -/

theorem byFrame_tlbClearRBits (t : Tlb n) (i : Fin n) :
    t.tlbClearRBits.byFrame i = (t.byFrame i).map fun x => (x.1, false, x.2.2) := by
  rw [Tlb.byFrame, Tlb.byPage_tlbClearRBits, Tlb.byFrame, Option.map_map, Option.map_map]
  rfl

theorem effectiveRm_mmuClearRbits {m : Mmu n k} (hm : m.Coherent) (hdist : m.DistinctFrames)
    (f : Frame) : m.mmuClearRbits.effectiveRm f = (false, (m.effectiveRm f).2) :=
  SlotCache.effective_map (hm.byFrame_unique hdist) (fun x => (false, x.2))
    (byFrame_tlbClearRBits m.tlb) (fun g => Bitmaps.rm_clearRbits m.bitmaps g) f

/-- A frame that holds no page is in no entry. -/
theorem Coherent.absent_byFrame {m : Mmu n k} (hm : m.Coherent) {f : Frame}
    (hf : ∀ w, m.pageTable.pageMap w ≠ some f) : SlotCache.Absent m.tlb.byFrame f := by
  intro i v hi
  obtain ⟨⟨w, x⟩, hx, hxf⟩ := Option.map_eq_some_iff.mp hi
  have hw := hm.agrees i w x hx
  rw [show x.1 = f from congrArg Prod.fst hxf] at hw
  exact hf w hw

/-- A clean installation clears the bits of its frame and touches no others. -/
theorem effectiveRm_installClean {m : Mmu n k} (hm : m.Coherent) {v : Vpage} {f : Frame}
    (hcov : Bitmaps.Covers k f) (hf : ∀ w, m.pageTable.pageMap w ≠ some f) (g : Frame) :
    effectiveRm ({ m with bitmaps := m.bitmaps.writeRm f (false, false) }.osInstall v f) g =
      if g = f then (false, false) else m.effectiveRm g := by
  have hstore : (m.bitmaps.writeRm f (false, false)).rm =
      Function.update m.bitmaps.rm f (false, false) := Bitmaps.rm_writeRm hcov _
  by_cases hg : g = f
  · rw [if_pos hg, hg]
    refine (SlotCache.effective_of_absent (hm.absent_byFrame hf) _).trans ?_
    rw [show (osInstall { m with bitmaps := m.bitmaps.writeRm f (false, false) } v f).bitmaps.rm =
      Function.update m.bitmaps.rm f (false, false) from hstore, Function.update_self]
  · rw [if_neg hg]
    change SlotCache.effective m.tlb.byFrame (m.bitmaps.writeRm f (false, false)).rm g = _
    rw [hstore, SlotCache.effective, Function.update_of_ne hg]
    rfl

/-- An eviction keeps the bits of every frame that holds another page. -/
theorem effectiveRm_osEvict {m m' : Mmu n k} (hm : m.Coherent) (hdist : m.DistinctFrames)
    (hdist' : m'.DistinctFrames) {v w : Vpage} {f : Frame} (h : m.osEvict v = some m')
    (hwv : w ≠ v) (hw : m.pageTable.pageMap w = some f) :
    m'.effectiveRm f = m.effectiveRm f := by
  obtain ⟨hbitmaps, htlb, _⟩ := osEvict_cases h
  refine SlotCache.effective_congr (hm.byFrame_unique hdist)
    ((coherent_osEvict hm h).byFrame_unique hdist') (fun i x => ?_) (by rw [hbitmaps])
  rw [htlb, Tlb.byFrame, Tlb.byFrame, Option.map_eq_some_iff, Option.map_eq_some_iff]
  refine exists_congr fun a => and_congr_left fun ha => ?_
  rw [show a = (a.1, a.2) from rfl, byPage_tlbClearEntry_some]
  -- the entry of the frame is that of the page it holds, which is not the evicted one
  refine and_iff_left_of_imp fun hi => ?_
  have hown := hm.agrees i a.1 a.2 hi
  rw [show a.2.1 = f from congrArg Prod.fst ha] at hown
  rw [hdist a.1 w f hown hw]
  exact hwv

/-! ## What the M bits record -/

/-- The M bits tell the pages stored to while they were in the TLB. -/
structure Tracks (h : List (MmuEvent × Mmu n k)) (m : Mmu n k) : Prop where
  distinct : m.DistinctFrames
  dirty : ∀ v f, m.pageTable.pageMap v = some f →
    (m.effectiveRm f).2 = storedWhileCached v h

/-- A translation marks the page it hits with a STORE and no other. -/
theorem Tracks.translate {h : List (MmuEvent × Mmu n k)} {m m' : Mmu n k} (hm : Tracks h m)
    (hco : m.Coherent) {vaddress : Word} {op : Operation} {out : Translation}
    (hcase : TranslateCase m vaddress op m' out) :
    Tracks ((.translate vaddress op (decide (m.Caches (pageOf vaddress))) out, m') :: h) m' where
  distinct := hm.distinct.congr hcase.pageMap_eq
  dirty := by
    intro v f hv
    rw [hcase.pageMap_eq] at hv
    have hhits : (∃ i, m.tlb.Hits (pageOf vaddress) i ∧ (m.tlb.tlb i).pframe = f) ↔
        m.Caches (pageOf vaddress) ∧ pageOf vaddress = v := by
      -- the page in the frame is the one that is mapped to it
      rw [hco.hits_frame_iff]
      refine and_congr_right fun _ => ⟨fun hmap => hm.distinct _ v f hmap hv, fun hpage => ?_⟩
      rw [hpage]
      exact hv
    have hdirty := hm.dirty v f hv
    rw [hcase.effectiveRm_eq hco hm.distinct f, storedWhileCached, sinceInstall,
      ← storedWhileCached, ← hdirty]
    by_cases hcaches : m.Caches (pageOf vaddress)
    · -- a hit returns an address
      have hout : ∃ p, out = .address p := by
        obtain ⟨i, hhit⟩ := hcaches
        cases hcase with
        | hit j _ => exact ⟨_, rfl⟩
        | fill g j hand bitmaps hmiss _ _ _ _ => exact absurd hhit (hmiss i)
        | fault bitmaps hmiss _ _ _ => exact absurd hhit (hmiss i)
      obtain ⟨p, rfl⟩ := hout
      by_cases hpage : pageOf vaddress = v
      · rw [if_pos (hhits.mpr ⟨hcaches, hpage⟩)]
        rw [hpage] at hcaches
        cases op <;> simp [MmuEvent.installs, MmuEvent.stores, MmuEvent.found, hcaches, hpage]
      · rw [if_neg fun hex => hpage (hhits.mp hex).2]
        cases op <;> simp [MmuEvent.installs, MmuEvent.stores, hpage]
    -- a miss copies the M bit, whatever the operation
    · rw [if_neg fun hex => hcaches (hhits.mp hex).1]
      simp [MmuEvent.installs, MmuEvent.found, hcaches]

/-- Every step keeps the M bits in agreement with the history. -/
theorem Tracks.step {h : List (MmuEvent × Mmu n k)} {m m' : Mmu n k} (hm : Tracks h m)
    (hgood : m.Good) {e : MmuEvent} (hguard : TrapGuard h m e) (hlegal : m.Legal e)
    (hexec : m.Exec e m') : Tracks ((e, m') :: h) m' := by
  cases e with
  | translate vaddress op cached out =>
    obtain ⟨heq, rfl⟩ := hexec
    exact hm.translate hgood.coherent (TranslateCase.of_eq hgood.inBounds heq)
  | clearRbits =>
    obtain rfl : m' = m.mmuClearRbits := hexec
    refine ⟨hm.distinct, fun v f hv => ?_⟩
    rw [effectiveRm_mmuClearRbits hgood.coherent hm.distinct]
    exact hm.dirty v f hv
  | install v f => exact hguard.elim
  | installClean v f =>
    have hsome : m.osInstallClean v f = some m' := hexec
    rw [osInstallClean_eq hlegal.2, Option.some.injEq] at hsome
    subst hsome
    refine ⟨distinctFrames_osInstall (m := { m with bitmaps := _ }) hm.distinct hguard.2, ?_⟩
    intro w g hw
    rw [effectiveRm_installClean hgood.coherent hlegal.2 hguard.2]
    rw [osInstall, PageTable.pageMap_update_zero] at hw
    -- the installed page starts clean; the others keep their bits
    by_cases hwv : w = v
    · subst hwv
      rw [Function.update_self, Option.some.injEq] at hw
      rw [if_pos hw.symm]
      simp [storedWhileCached, sinceInstall, MmuEvent.installs]
    · rw [Function.update_of_ne hwv] at hw
      have hgf : g ≠ f := by
        rintro rfl
        exact hguard.2 w hw
      rw [if_neg hgf, hm.dirty w g hw]
      simp [storedWhileCached, sinceInstall, MmuEvent.installs, MmuEvent.stores, Ne.symm hwv]
  | evict v =>
    obtain ⟨_, _, hmap⟩ := osEvict_cases hexec
    have hstill : ∀ w g, m'.pageTable.pageMap w = some g →
        w ≠ v ∧ m.pageTable.pageMap w = some g := by
      intro w g hw
      rw [hmap] at hw
      by_cases hwv : w = v
      · subst hwv
        rw [Function.update_self] at hw
        cases hw
      · rw [Function.update_of_ne hwv] at hw
        exact ⟨hwv, hw⟩
    have hdist : m'.DistinctFrames := fun a b g ha hb =>
      hm.distinct a b g (hstill a g ha).2 (hstill b g hb).2
    refine ⟨hdist, fun w g hw => ?_⟩
    obtain ⟨hwv, hold⟩ := hstill w g hw
    rw [effectiveRm_osEvict hgood.coherent hm.distinct hdist hexec hwv hold, hm.dirty w g hold]
    rfl

theorem TrapRun.tracks (hn : 0 < n) {h : List (MmuEvent × Mmu n k)} {m : Mmu n k}
    (hrun : TrapRun h m) : Tracks h m := by
  refine Run.invariant (P := Tracks) ?_ ?_ hrun
  · intro s hs
    refine ⟨hs.distinctFrames, fun v f hv => ?_⟩
    rw [hs.pageMap] at hv
    cases hv
  · intro h s e s' hr ih hs
    exact ih.step ((TrapRun.mmuRun hr).good hn) hs.1 hs.2.1 hs.2.2

theorem sinceInstall_mono {v : Vpage} {test test' : MmuEvent → Bool}
    (htest : ∀ e, test e = true → test' e = true) {h : List (MmuEvent × Mmu n k)}
    (hsince : sinceInstall v test h = true) : sinceInstall v test' h = true := by
  induction h with
  | nil => exact hsince
  | cons a h ih =>
    simp only [sinceInstall, Bool.and_eq_true, Bool.or_eq_true] at hsince ⊢
    exact ⟨hsince.1, hsince.2.imp (htest a.1) ih⟩

theorem storedSince_of_storedWhileCached {v : Vpage} {h : List (MmuEvent × Mmu n k)}
    (hstored : storedWhileCached v h = true) : storedSince v h = true :=
  sinceInstall_mono (fun _ he => (Bool.and_eq_true _ _ ▸ he).1) hstored

/-- In the trap the M bit of a present page's frame tells whether a STORE found
the page in the TLB. -/
theorem TrapRun.mbit_eq (hn : 0 < n) {h : List (MmuEvent × Mmu n k)} {m : Mmu n k}
    {vaddress w : Word} {op : Operation} {cached : Bool}
    (hrun : TrapRun ((.translate vaddress op cached (.pageFaultTrap w), m) :: h) m)
    {v : Vpage} {f : Frame} (hv : m.pageTable.pageMap v = some f) :
    m.bitmaps.mmuGetMbitInBitmapValue (toWord f) =
      some (Bitmaps.ofBit (storedWhileCached v h)) := by
  have hgood := hrun.mmuRun.good hn
  have hdirty := (hrun.tracks hn).dirty v f hv
  cases hrun with
  | next hr hs =>
    have hbefore := (TrapRun.mmuRun hr).good hn
    have hcase := TranslateCase.of_eq hbefore.inBounds hs.2.2.1
    have hflushed := hcase.fault_bitmaps hbefore.coherent (TrapRun.tracks hn hr).distinct
    rw [Bitmaps.get_m (hgood.covered v f hv), hflushed.1, hdirty]
    cases op <;> simp [storedWhileCached, sinceInstall, MmuEvent.installs, MmuEvent.stores]

/-- When the operating system reads the M bits of the present pages, they are
exact just in case every page a STORE returned an address of, since it was
installed, was in the TLB when one of these STOREs came. -/
theorem dirty_pages_exact_iff (hn : 0 < n) {h : List (MmuEvent × Mmu n k)} {m : Mmu n k}
    {vaddress w : Word} {op : Operation} {cached : Bool}
    (hrun : TrapRun ((.translate vaddress op cached (.pageFaultTrap w), m) :: h) m) :
    (∀ v f, m.pageTable.pageMap v = some f →
      (m.bitmaps.mmuGetMbitInBitmapValue (toWord f) = some 1 ↔ storedSince v h = true)) ↔
    ∀ v, m.pageTable.pageMap v ≠ none →
      storedSince v h = true → storedWhileCached v h = true := by
  have hone : ∀ b, some (Bitmaps.ofBit b) = some 1 ↔ b = true := by decide
  constructor
  · intro hexact v hv hstored
    obtain ⟨f, hf⟩ := Option.ne_none_iff_exists'.mp hv
    have hbit := (hexact v f hf).mpr hstored
    rw [hrun.mbit_eq hn hf] at hbit
    exact (hone _).mp hbit
  · intro hcond v f hf
    rw [hrun.mbit_eq hn hf, hone]
    exact ⟨storedSince_of_storedWhileCached, hcond v (by rw [hf]; exact nofun)⟩

/-! ## A page that was written to and looks clean -/

/-- A run goes on with any translation, which answers as the page map does. -/
theorem TrapRun.exists_translate (hn : 0 < n) {h : List (MmuEvent × Mmu n k)} {m : Mmu n k}
    (hrun : TrapRun h m) (vaddress : Word) (op : Operation) {cached : Bool} {out : Translation}
    (hcached : cached = decide (m.Caches (pageOf vaddress)))
    (hout : PageMap.translate m.pageTable.pageMap vaddress = out) :
    ∃ m', TranslateCase m vaddress op m' out ∧
      TrapRun ((.translate vaddress op cached out, m') :: h) m' := by
  have hgood := hrun.mmuRun.good hn
  obtain ⟨⟨m', out'⟩, heq⟩ := Option.isSome_iff_exists.mp (hgood.exec_defined.1 vaddress op)
  have hcase := TranslateCase.of_eq hgood.inBounds heq
  rw [hcase.out_eq hgood.coherent, hout] at heq
  exact ⟨m', TranslateCase.of_eq hgood.inBounds heq, .next hrun ⟨trivial, trivial, heq, hcached⟩⟩

/-- In the trap a run goes on with the installation of an absent page in a free frame. -/
theorem TrapRun.exists_install {h : List (MmuEvent × Mmu n k)} {m : Mmu n k}
    (hrun : TrapRun h m) (htrap : inTrap h = true) {v : Vpage} {f : Frame}
    (hv : m.pageTable.pageMap v = none) (hf : Bitmaps.Covers k f)
    (hfree : ∀ w, m.pageTable.pageMap w ≠ some f) :
    ∃ m', m'.tlb = m.tlb ∧
      m'.pageTable.pageMap = Function.update m.pageTable.pageMap v (some f) ∧
      TrapRun ((.installClean v f, m') :: h) m' :=
  ⟨osInstall { m with bitmaps := m.bitmaps.writeRm f (false, false) } v f, rfl,
    PageTable.pageMap_update_zero _ _ _,
    .next hrun ⟨⟨htrap, hfree⟩, ⟨hv, hf⟩, osInstallClean_eq hf⟩⟩

/-- In the trap a run goes on with the eviction of a present page. -/
theorem TrapRun.exists_evict (hn : 0 < n) {h : List (MmuEvent × Mmu n k)} {m : Mmu n k}
    (hrun : TrapRun h m) (htrap : inTrap h = true) {v : Vpage}
    (hv : m.pageTable.pageMap v ≠ none) :
    ∃ m', m'.pageTable.pageMap = Function.update m.pageTable.pageMap v none ∧
      TrapRun ((.evict v, m') :: h) m' := by
  obtain ⟨m', hm'⟩ := Option.isSome_iff_exists.mp
    ((hrun.mmuRun.good hn).exec_defined.2.2 v hv)
  exact ⟨m', (osEvict_cases hm').2.2, .next hrun ⟨htrap, hv, hm'⟩⟩

/-- A page that is not mapped is not in the TLB. -/
theorem Coherent.not_caches {m : Mmu n k} (hm : m.Coherent) {v : Vpage}
    (hv : m.pageTable.pageMap v = none) : ¬m.Caches v := by
  rintro ⟨i, hhit⟩
  have hmap := hm.agrees i _ _ hhit.byPage
  rw [hv] at hmap
  cases hmap

/-- A translation of a page that is not mapped traps. -/
theorem TrapRun.exists_fault (hn : 0 < n) {h : List (MmuEvent × Mmu n k)} {m : Mmu n k}
    (hrun : TrapRun h m) (vaddress : Word) (op : Operation) {v : Vpage}
    (hpage : pageOf vaddress = v) (hv : m.pageTable.pageMap v = none) :
    ∃ m', TranslateCase m vaddress op m' (.pageFaultTrap (toWord v)) ∧
      TrapRun ((.translate vaddress op false (.pageFaultTrap (toWord v)), m') :: h) m' := by
  subst hpage
  refine hrun.exists_translate hn vaddress op ?_ (by rw [PageMap.translate, hv])
  exact (decide_eq_false ((hrun.mmuRun.good hn).coherent.not_caches hv)).symm

/-- Page 3 faults and is installed in frame 1, and a STORE to it is translated. -/
theorem exists_first_store : ∃ m₁ m₂ m₃ : Mmu 1 (bitSize 32#32),
    TrapRun [(.translate 0x1807#32 .store false (.address 0x807#32), m₃),
      (.installClean 3#21 1#21, m₂),
      (.translate 0x1807#32 .store false (.pageFaultTrap 3#32), m₁)] m₃ ∧
    m₃.pageTable.pageMap = Function.update (fun _ => none) 3#21 (some 1#21) ∧
    m₃.Caches 3#21 := by
  have hstart := started_smallMmu
  obtain ⟨m₁, hcase₁, hrun₁⟩ := TrapRun.exists_fault (by decide) (.start hstart)
    0x1807#32 .store rfl (hstart.pageMap 3#21)
  have hmap₁ : m₁.pageTable.pageMap = fun _ => none := by
    rw [hcase₁.pageMap_eq]
    exact funext hstart.pageMap
  -- the operating system installs the page in the trap
  obtain ⟨m₂, htlb₂, hmap₂, hrun₂⟩ := hrun₁.exists_install (v := 3#21) (f := 1#21) rfl
    (by rw [hmap₁]) (by decide) (fun w => by rw [hmap₁]; exact nofun)
  rw [hmap₁] at hmap₂
  have hempty : ¬m₂.Caches 3#21 := by
    rintro ⟨i, hvalid, _⟩
    rw [htlb₂, (hcase₁.fault_bitmaps hstart.coherent hstart.distinctFrames).2.1, hstart.tlb]
      at hvalid
    cases hvalid
  -- the second STORE misses, and copies the M bit
  obtain ⟨m₃, hcase₃, hrun₃⟩ := hrun₂.exists_translate (by decide) 0x1807#32 .store
    (decide_eq_false hempty).symm (show _ = .address 0x807#32 by rw [hmap₂]; rfl)
  refine ⟨m₁, m₂, m₃, hrun₃, by rw [hcase₃.pageMap_eq, hmap₂], hcase₃.caches_page ?_⟩
  rw [hmap₂]
  exact nofun

/-- A STORE to page 3 faults and is tried again once the page is in frame 1,
then a LOAD from page 4 faults. -/
theorem exists_lost_store : ∃ m₁ m₂ m₃ m₄ : Mmu 1 (bitSize 32#32),
    TrapRun [(.translate 0x2000#32 .load false (.pageFaultTrap 4#32), m₄),
      (.translate 0x1807#32 .store false (.address 0x807#32), m₃),
      (.installClean 3#21 1#21, m₂),
      (.translate 0x1807#32 .store false (.pageFaultTrap 3#32), m₁)] m₄ ∧
    m₄.pageTable.pageMap 3#21 = some 1#21 := by
  obtain ⟨m₁, m₂, m₃, hrun₃, hmap₃, _⟩ := exists_first_store
  -- the last fault reads the M bits
  obtain ⟨m₄, hcase₄, hrun₄⟩ := hrun₃.exists_fault (by decide) 0x2000#32 .load rfl
    (show _ = none by rw [hmap₃]; rfl)
  refine ⟨m₁, m₂, m₃, m₄, hrun₄, ?_⟩
  rw [hcase₄.pageMap_eq, hmap₃, Function.update_self]

/-- The page was written to, and its M bit is 0 when the trap comes. -/
theorem dirty_pages_lost_store : ∃ (h : List (MmuEvent × Mmu 1 (bitSize 32#32)))
    (m : Mmu 1 (bitSize 32#32)),
    TrapRun ((.translate 0x2000#32 .load false (.pageFaultTrap 4#32), m) :: h) m ∧
      m.pageTable.pageMap 3#21 = some 1#21 ∧ storedSince 3#21 h = true ∧
      m.bitmaps.mmuGetMbitInBitmapValue (toWord 1#21) = some 0 := by
  obtain ⟨m₁, m₂, m₃, m₄, hrun, hmap⟩ := exists_lost_store
  refine ⟨_, m₄, hrun, hmap, rfl, ?_⟩
  rw [TrapRun.mbit_eq (by decide) hrun hmap]
  rfl

/-- In the same run not all M bits are exact. -/
theorem dirty_pages_exact_iff_lost_store : ∃ (h : List (MmuEvent × Mmu 1 (bitSize 32#32)))
    (m : Mmu 1 (bitSize 32#32)),
    TrapRun ((.translate 0x2000#32 .load false (.pageFaultTrap 4#32), m) :: h) m ∧
      ¬∀ v f, m.pageTable.pageMap v = some f →
        (m.bitmaps.mmuGetMbitInBitmapValue (toWord f) = some 1 ↔ storedSince v h = true) := by
  obtain ⟨m₁, m₂, m₃, m₄, hrun, hmap⟩ := exists_lost_store
  refine ⟨_, m₄, hrun, fun hexact => ?_⟩
  have hcached := (dirty_pages_exact_iff (by decide) hrun).mp hexact 3#21
    (by rw [hmap]; exact nofun) rfl
  exact Bool.noConfusion hcached

end Mmu

end SimOS
