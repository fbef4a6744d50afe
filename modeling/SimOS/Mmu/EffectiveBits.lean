import SimOS.Mmu.Runs

/-!
# The effective R and M bits of a frame

While a frame is cached its R and M bits live in its TLB entry, otherwise in
the bitmaps. The TLB, read by frames, is a write-back cache in front of the
bitmaps, so the rules of `SlotCache` say what each way a translation can go
does to the effective bits.
-/

namespace SimOS

open Library

variable {n k : ℕ}

namespace Mmu

/-- The R and M bits of a frame: those of the valid TLB entry whose page frame it
is, if there is one, and those in the bitmaps otherwise. -/
def effectiveRm (m : Mmu n k) : Frame → Bool × Bool :=
  SlotCache.effective m.tlb.byFrame m.bitmaps.rm

/-- No frame holds two pages. -/
def DistinctFrames (m : Mmu n k) : Prop :=
  ∀ v w f, m.pageTable.pageMap v = some f → m.pageTable.pageMap w = some f → v = w

/-- One call of a procedure of `mmu.c`, `tlb.c` or `page.c`, with any arguments. The
accessors of the bitmaps, `mmu_get_free_page_frame` and `tlb_write_back_r_m_bits` change
the bitmaps only; the three that initialize come before the others. -/
inductive Call (m : Mmu n k) : Mmu n k → Prop
  | translate {m' : Mmu n k} {out : Translation} (vaddress : Word) (op : Operation)
      (h : m.mmuTranslate vaddress op = some (m', out)) : Call m m'
  | clearRbits : Call m m.mmuClearRbits
  | bitmaps (bitmaps : Bitmaps k) : Call m { m with bitmaps := bitmaps }
  | clearAll : Call m { m with tlb := m.tlb.tlbClearAll }
  | clearRBits : Call m { m with tlb := m.tlb.tlbClearRBits }
  | clearEntry (vpage : Word) : Call m { m with tlb := m.tlb.tlbClearEntry vpage }
  | lookup (vpage : Word) (op : Operation) :
      Call m { m with tlb := (m.tlb.tlbLookupVpage vpage op).1 }
  | insert {tlb : Tlb n} {bitmaps : Bitmaps k} (vpage pframe : Word) (newRbit newMbit : ℤ)
      (h : m.tlb.tlbInsertVpage m.bitmaps vpage pframe newRbit newMbit = some (tlb, bitmaps)) :
      Call m { m with tlb := tlb, bitmaps := bitmaps }
  | getPframe (vpage : Word) :
      Call m { m with pageTable := (m.pageTable.ptGetPframeNumber vpage).1 }
  | update (fresh : SecondLevel) (vpage pframe : Word) :
      Call m { m with pageTable := m.pageTable.ptUpdatePagetable fresh vpage pframe }
  | clearPage {pageTable : PageTable} (vpage : Word)
      (h : m.pageTable.ptClearPageTableEntry vpage = some pageTable) :
      Call m { m with pageTable := pageTable }

/-- A state some sequence of calls leads to from the start. -/
def Reachable (m : Mmu n k) : Prop :=
  ∃ s : Mmu n k, s.Started ∧ Relation.ReflTransGen Call s m

theorem DistinctFrames.congr {m m' : Mmu n k} (hm : m.DistinctFrames)
    (hmap : m'.pageTable.pageMap = m.pageTable.pageMap) : m'.DistinctFrames := by
  intro v w f hv hw
  rw [hmap] at hv hw
  exact hm v w f hv hw

theorem Started.distinctFrames {m : Mmu n k} (hm : m.Started) : m.DistinctFrames := by
  intro v w f hv
  rw [hm.pageMap] at hv
  cases hv

/-- Mapping a page to a frame no present page uses keeps the frames distinct. -/
theorem distinctFrames_osInstall {m : Mmu n k} (hm : m.DistinctFrames) {v : Vpage} {f : Frame}
    (hf : ∀ w, m.pageTable.pageMap w ≠ some f) : (m.osInstall v f).DistinctFrames := by
  intro a b g ha hb
  rw [osInstall, PageTable.pageMap_update_zero] at ha hb
  by_cases hav : a = v
  · by_cases hbv : b = v
    · rw [hav, hbv]
    · rw [hav, Function.update_self, Option.some.injEq] at ha
      rw [Function.update_of_ne hbv, ← ha] at hb
      exact absurd hb (hf b)
  · rw [Function.update_of_ne hav] at ha
    by_cases hbv : b = v
    · rw [hbv, Function.update_self, Option.some.injEq] at hb
      rw [← hb] at ha
      exact absurd ha (hf a)
    · rw [Function.update_of_ne hbv] at hb
      exact hm a b g ha hb

theorem mmuTranslate_hand_lt {m m' : Mmu n k} (hm : m.tlb.nextVpageToCheck < n)
    {vaddress : Word} {op : Operation} {out : Translation}
    (h : m.mmuTranslate vaddress op = some (m', out)) : m'.tlb.nextVpageToCheck < n := by
  unfold mmuTranslate at h
  simp only at h
  split_ifs at h
  · obtain ⟨b, _, heq⟩ := Option.map_eq_some_iff.mp h
    rw [Prod.mk.injEq] at heq
    rw [← heq.1]
    exact (Tlb.tlbLookupVpage_hand _ _ _).trans_lt hm
  · obtain ⟨r, _, h⟩ := Option.bind_eq_some_iff.mp h
    obtain ⟨w, _, h⟩ := Option.bind_eq_some_iff.mp h
    obtain ⟨⟨t, b⟩, hins, heq⟩ := Option.map_eq_some_iff.mp h
    rw [Prod.mk.injEq] at heq
    rw [← heq.1]
    exact Tlb.tlbInsertVpage_hand_lt hins
  · rw [Option.some.injEq, Prod.mk.injEq] at h
    rw [← h.1]
    exact (Tlb.tlbLookupVpage_hand _ _ _).trans_lt hm

/-- The clock hand never leaves the TLB. -/
theorem Reachable.hand_lt (hn : 0 < n) {m : Mmu n k} (hm : m.Reachable) :
    m.tlb.nextVpageToCheck < n := by
  obtain ⟨s, hs, hcalls⟩ := hm
  induction hcalls with
  | refl => rw [hs.hand]; exact hn
  | tail _ hcall ih =>
    cases hcall with
    | translate vaddress op h => exact mmuTranslate_hand_lt ih h
    | lookup vpage op => exact (Tlb.tlbLookupVpage_hand _ vpage op).trans_lt ih
    | insert vpage pframe newRbit newMbit h => exact Tlb.tlbInsertVpage_hand_lt h
    | _ => exact ih

/-- With distinct frames the TLB has at most one entry for a frame too. -/
theorem Coherent.byFrame_unique {m : Mmu n k} (hm : m.Coherent) (hdist : m.DistinctFrames) :
    SlotCache.Unique m.tlb.byFrame := by
  intro i j a b hi hj hab
  obtain ⟨⟨v, x⟩, hx, rfl⟩ := Option.map_eq_some_iff.mp hi
  obtain ⟨⟨w, y⟩, hy, rfl⟩ := Option.map_eq_some_iff.mp hj
  have hvf := hm.agrees i v x hx
  have hwf := hm.agrees j w y hy
  rw [← hab] at hwf
  exact hm.unique i j _ _ hx hy (hdist v w x.1 hvf hwf)

theorem byFrame_of_hits {t : Tlb n} {v : Vpage} {i : Fin n} (h : t.Hits v i) :
    t.byFrame i = some ((t.tlb i).pframe, (t.tlb i).rm) := by
  rw [Tlb.byFrame, h.byPage]
  rfl

theorem byFrame_update (t : Tlb n) (i : Fin n) (e : TlbEntry) (miss : Bool) (hand : ℕ) :
    Tlb.byFrame { tlb := Function.update t.tlb i e, tlbMiss := miss, nextVpageToCheck := hand } =
      Function.update t.byFrame i (if e.valid then some (e.pframe, e.rm) else none) := by
  funext j
  rw [Tlb.byFrame, Tlb.byPage_update]
  by_cases hj : j = i
  · subst hj
    rw [Function.update_self, Function.update_self]
    split <;> rfl
  · rw [Function.update_of_ne hj, Function.update_of_ne hj]
    rfl

theorem ofBit_decide (v : Bool) : decide (Bitmaps.ofBit v ≠ 0) = v := by
  cases v <;> rfl

/-- What a translation does to the effective bits: a hit sets the R bit of its
frame, and the M bit if it is a store; nothing else changes any of them. -/
theorem TranslateCase.effectiveRm_eq {m m' : Mmu n k} (hm : m.Coherent)
    (hdist : m.DistinctFrames) {vaddress : Word} {op : Operation} {out : Translation}
    (h : TranslateCase m vaddress op m' out) (f : Frame) :
    m'.effectiveRm f =
      if ∃ i, m.tlb.Hits (pageOf vaddress) i ∧ (m.tlb.tlb i).pframe = f then
        (true, decide (op = .store) || (m.effectiveRm f).2)
      else m.effectiveRm f := by
  have huniq := hm.byFrame_unique hdist
  cases h with
  | hit i hhit =>
    have hslot := byFrame_of_hits hhit
    have honly : (∃ j, m.tlb.Hits (pageOf vaddress) j ∧ (m.tlb.tlb j).pframe = f) ↔
        f = (m.tlb.tlb i).pframe := by
      constructor
      · rintro ⟨j, hj, rfl⟩
        rw [hm.unique j i _ _ hj.byPage hhit.byPage rfl]
      · rintro rfl
        exact ⟨i, hhit, rfl⟩
    rw [effectiveRm, byFrame_update, TlbEntry.touch_valid, if_pos hhit.1, TlbEntry.touch_pframe,
      TlbEntry.touch_rm, SlotCache.effective_modify huniq hslot]
    by_cases hf : f = (m.tlb.tlb i).pframe
    · rw [if_pos (honly.mpr hf), hf, Function.update_self, effectiveRm,
        SlotCache.effective_of_slot huniq hslot]
    · rw [if_neg (fun hex => hf (honly.mp hex)), Function.update_of_ne hf]
      rfl
  | fill g i hand bitmaps hmiss hmap _ hrm _ =>
    -- no entry holds the new frame: it would be one for the page that just missed
    have habs : SlotCache.Absent m.tlb.byFrame g := by
      intro j v hj
      obtain ⟨⟨w, x⟩, hx, hxg⟩ := Option.map_eq_some_iff.mp hj
      have hw := hm.agrees j w x hx
      rw [show x.1 = g from congrArg Prod.fst hxg] at hw
      rw [hdist w _ g hw hmap] at hx
      exact hmiss j (Tlb.byPage_eq_some.mp hx).1
    rw [if_neg (fun hex => hmiss _ hex.choose_spec.1), effectiveRm, byFrame_update,
      TlbEntry.insert_valid, if_pos rfl, TlbEntry.insert_pframe, TlbEntry.insert_rm,
      ofBit_decide, ofBit_decide, Prod.mk.eta, hrm, SlotCache.effective_replace huniq i habs]
    rfl
  | fault bitmaps hmiss _ hrm _ =>
    rw [if_neg (fun hex => hmiss _ hex.choose_spec.1), effectiveRm, hrm,
      SlotCache.flush_all huniq]
    exact congrFun (SlotCache.effective_effective _) f

/-- A faulting translation leaves the effective bits of every frame in the bitmaps. -/
theorem TranslateCase.fault_bitmaps {m m' : Mmu n k} (hm : m.Coherent)
    (hdist : m.DistinctFrames) {vaddress : Word} {op : Operation} {w : Word}
    (h : TranslateCase m vaddress op m' (.pageFaultTrap w)) :
    m'.bitmaps.rm = m'.effectiveRm ∧ m'.tlb.tlb = m.tlb.tlb ∧
      m'.pageTable.firstLevel = m.pageTable.firstLevel := by
  cases h with
  | fault bitmaps _ _ hrm _ =>
    refine ⟨?_, rfl, rfl⟩
    have hflush : bitmaps.rm = m.effectiveRm := by
      rw [hrm, SlotCache.flush_all (hm.byFrame_unique hdist)]
      rfl
    have hcache : effectiveRm { m with
        bitmaps := bitmaps
        tlb := { m.tlb with tlbMiss := true }
        pageTable := { m.pageTable with pageFault := true }
        tlbMissCount := m.tlbMissCount + 1#32 } =
        SlotCache.effective m.tlb.byFrame bitmaps.rm := rfl
    rw [hcache, hflush]
    exact (SlotCache.effective_effective _).symm

/-- Moving bits between the TLB and the bitmaps loses and invents none: only a
hit changes effective bits, those of its own frame, and at a page fault the
bitmaps hold the effective bits of every frame while the entries and the page
table are as before. -/
theorem effective_bits_preserved {m : Mmu n k} (hreach : m.Reachable) (hco : m.Coherent)
    (hdist : m.DistinctFrames) (hcov : m.MappedCovered) (vaddress : Word) (op : Operation) :
    (0 < n → (m.mmuTranslate vaddress op).isSome) ∧
      ∀ m' out, m.mmuTranslate vaddress op = some (m', out) →
        (∀ f, m'.effectiveRm f =
          if ∃ i, m.tlb.Hits (pageOf vaddress) i ∧ (m.tlb.tlb i).pframe = f then
            (true, decide (op = .store) || (m.effectiveRm f).2)
          else m.effectiveRm f) ∧
        ∀ w, out = .pageFaultTrap w →
          m'.bitmaps.rm = m'.effectiveRm ∧ m'.tlb.tlb = m.tlb.tlb ∧
            m'.pageTable.firstLevel = m.pageTable.firstLevel := by
  have hin := hco.inBounds hcov
  refine ⟨fun hn => mmuTranslate_isSome hin (hreach.hand_lt hn) vaddress op, ?_⟩
  intro m' out heq
  have hcase := TranslateCase.of_eq hin heq
  refine ⟨hcase.effectiveRm_eq hco hdist, ?_⟩
  rintro w rfl
  exact hcase.fault_bitmaps hco hdist

/-- A store misses the TLB on the page just installed, and the bits stay as they were. -/
theorem effective_bits_preserved_installed :
    ∃ m' out, (smallMmu.osInstall 3#21 1#21).mmuTranslate 0x1807#32 .store = some (m', out) ∧
      ∀ f, m'.effectiveRm f = (smallMmu.osInstall 3#21 1#21).effectiveRm f := by
  have hreach : (smallMmu.osInstall 3#21 1#21).Reachable :=
    ⟨smallMmu, started_smallMmu, .single (.update _ _ _)⟩
  have hfree : ∀ w, smallMmu.pageTable.pageMap w ≠ some 1#21 := by
    intro w
    rw [started_smallMmu.pageMap]
    exact nofun
  have hkeep := effective_bits_preserved hreach
    (coherent_osInstall started_smallMmu.coherent (started_smallMmu.pageMap _) _)
    (distinctFrames_osInstall started_smallMmu.distinctFrames hfree)
    (mappedCovered_osInstall started_smallMmu.mappedCovered (by decide)) 0x1807#32 .store
  obtain ⟨⟨m', out⟩, heq⟩ := Option.isSome_iff_exists.mp (hkeep.1 (by decide))
  refine ⟨m', out, heq, fun f => ?_⟩
  rw [(hkeep.2 m' out heq).1 f, if_neg]
  rintro ⟨i, hhit, _⟩
  exact Bool.noConfusion ((started_smallMmu.tlb i).symm.trans hhit.1)

end Mmu

end SimOS
