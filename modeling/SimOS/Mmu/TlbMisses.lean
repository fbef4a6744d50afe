import SimOS.Mmu.References
import SimOS.Mmu.TlbRuns

/-!
# How often the TLB misses

From boot on and as long as no page is evicted, pages that all fit into the TLB
miss it once each: the clock finds the free slots in their order. Pages that come
back too late miss always: without a hit no R bit is set, so the clock takes the
slots in turn and the TLB holds the pages used last.
-/

namespace SimOS

open Library
open Library.CyclicSearch (after First after_of_lt after_of_le)

variable {n k : ℕ}

namespace Mmu

/-- The TLB as `mmu_translate` hands it to `tlb_insert_vpage`. -/
def missed (m : Mmu n k) : Tlb n := { m.tlb with tlbMiss := true }

/-- A translation that misses and returns an address inserts the page into the
slot of the clock algorithm, with the bits of its frame. -/
theorem mmuTranslate_insert {m m' : Mmu n k} (hm : m.InBounds)
    (hhand : m.tlb.nextVpageToCheck < n) {vaddress paddress : Word} {op : Operation}
    (h : m.mmuTranslate vaddress op = some (m', .address paddress))
    (hmiss : ¬m.Caches (pageOf vaddress)) :
    ∃ slot f, m.missed.Chosen ⟨m.tlb.nextVpageToCheck, hhand⟩ slot ∧
      Tlb.InsertedAt m.missed m.bitmaps slot (pageOf vaddress) f
        (Bitmaps.ofBit (m.bitmaps.rm f).1) (Bitmaps.ofBit (m.bitmaps.rm f).2)
        m'.tlb m'.bitmaps := by
  unfold mmuTranslate at h
  simp only [and_vpageMask_shift] at h
  rcases m.tlb.tlbLookupVpage_cases (pageOf vaddress) op with ⟨i, hhit, _⟩ | ⟨_, hl⟩
  · exact absurd ⟨i, hhit⟩ hmiss
  · simp only [hl, if_true, PageTable.ptGetPframeNumber_eq] at h
    cases hmap : m.pageTable.pageMap (pageOf vaddress) with
    | none => simp [hmap] at h
    | some f =>
      have hf : Bitmaps.Covers k f := hm.mapped _ _ hmap
      simp only [hmap, Bitmaps.get_r hf, Bitmaps.get_m hf, Option.isNone_some,
        Bool.false_eq_true, if_false, Option.map_some, Option.getD_some, Option.bind_some] at h
      obtain ⟨⟨t, b⟩, hins, heq⟩ := Option.map_eq_some_iff.mp h
      rw [Prod.mk.injEq] at heq
      obtain ⟨slot, hchosen, _, hinserted⟩ := Tlb.tlbInsertVpage_chosen (t := m.missed) hhand
        m.bitmaps (pageOf vaddress) f (Bitmaps.ofBit (m.bitmaps.rm f).1)
        (Bitmaps.ofBit (m.bitmaps.rm f).2)
      refine ⟨slot, f, hchosen, ?_⟩
      rw [← heq.1]
      exact hinserted t b hins

/-! ## Pages that fit into the TLB -/

/-- The pages that translations have returned addresses in. -/
def usedPages : List (MmuEvent × Mmu n k) → Finset Vpage
  | [] => ∅
  | (.translate vaddress _ _ (.address _), _) :: h => insert (pageOf vaddress) (usedPages h)
  | _ :: h => usedPages h

/-- How many translations have trapped. -/
def faults : List (MmuEvent × Mmu n k) → ℕ
  | [] => 0
  | (.translate _ _ _ (.pageFaultTrap _), _) :: h => faults h + 1
  | _ :: h => faults h

def NoEviction (h : List (MmuEvent × Mmu n k)) : Prop := ∀ x ∈ h, ∀ v, x.1 ≠ .evict v

/-- The TLB has been filled from the front, with the pages used and no others. -/
structure Filled (h : List (MmuEvent × Mmu n k)) (m : Mmu n k) : Prop where
  valid : ∀ i, (m.tlb.tlb i).valid = true ↔ i.val < (usedPages h).card
  hand : (usedPages h).card < n → m.tlb.nextVpageToCheck = (usedPages h).card
  caches : ∀ v, m.Caches v ↔ v ∈ usedPages h

theorem Started.filled {m : Mmu n k} (hm : m.Started) : Filled [] m where
  valid := by simp [usedPages, hm.tlb]
  hand := fun _ => hm.hand
  caches := by simp [usedPages, Caches, Tlb.Hits, hm.tlb]

/-- A step that leaves pages and valid bits of the entries, and the hand, as they were. -/
theorem Filled.rest {h : List (MmuEvent × Mmu n k)} {m m' : Mmu n k} (hm : Filled h m)
    {e : MmuEvent} (hused : usedPages ((e, m') :: h) = usedPages h)
    (hvalid : ∀ i, (m'.tlb.tlb i).valid = (m.tlb.tlb i).valid)
    (hpage : ∀ i, (m'.tlb.tlb i).vpage = (m.tlb.tlb i).vpage)
    (hhand : m'.tlb.nextVpageToCheck = m.tlb.nextVpageToCheck) : Filled ((e, m') :: h) m' where
  valid := by
    intro i
    rw [hused, hvalid, hm.valid]
  hand := by
    intro hlt
    rw [hused] at hlt ⊢
    rw [hhand, hm.hand hlt]
  caches := by
    intro v
    rw [hused, ← hm.caches v]
    exact exists_congr fun i => by rw [Tlb.Hits, Tlb.Hits, hvalid, hpage]

/-- A miss takes the slot at the hand, the first one that is free. -/
theorem Filled.miss {h : List (MmuEvent × Mmu n k)} {m m' : Mmu n k} (hm : Filled h m)
    (hin : m.InBounds) (hhand : m.tlb.nextVpageToCheck < n) {vaddress paddress : Word}
    {op : Operation} {cached : Bool}
    (heq : m.mmuTranslate vaddress op = some (m', .address paddress))
    (hmiss : ¬m.Caches (pageOf vaddress))
    (hfit : (usedPages ((.translate vaddress op cached (.address paddress), m') :: h)).card ≤ n) :
    Filled ((.translate vaddress op cached (.address paddress), m') :: h) m' := by
  obtain ⟨slot, f, hchosen, hinserted⟩ := mmuTranslate_insert hin hhand heq hmiss
  have hnew : pageOf vaddress ∉ usedPages h := fun hmem => hmiss ((hm.caches _).mpr hmem)
  have hcard : (usedPages ((.translate vaddress op cached (.address paddress), m') :: h)).card =
      (usedPages h).card + 1 := Finset.card_insert_of_notMem hnew
  have hlt : (usedPages h).card < n := by omega
  have hfree : (m.tlb.tlb ⟨m.tlb.nextVpageToCheck, hhand⟩).valid = false := by
    rw [← Bool.not_eq_true, hm.valid]
    exact (hm.hand hlt).not_lt
  have hslot : slot = ⟨m.tlb.nextVpageToCheck, hhand⟩ := by
    rcases hchosen with hfirst | ⟨_, hslot⟩
    · exact hfirst.eq_hand (.inl hfree)
    · exact hslot
  have hval : slot.val = (usedPages h).card := by rw [hslot, ← hm.hand hlt]
  have hothers : ∀ i, i ≠ slot → m'.tlb.tlb i = m.tlb.tlb i := hinserted.others
  constructor
  · intro i
    rw [hcard]
    by_cases hi : i = slot
    · rw [hi, hinserted.valid, hval]
      exact iff_of_true rfl (Nat.lt_succ_self _)
    · rw [hothers i hi, hm.valid]
      have hne := Fin.val_ne_of_ne hi
      omega
  · intro hroom
    rw [hcard] at hroom ⊢
    rw [hinserted.hand, hval, Nat.mod_eq_of_lt hroom]
  · intro v
    show m'.Caches v ↔ v ∈ insert (pageOf vaddress) (usedPages h)
    rw [Finset.mem_insert, ← hm.caches v]
    constructor
    · rintro ⟨i, hi⟩
      by_cases his : i = slot
      · rw [his, Tlb.Hits, hinserted.vpage] at hi
        exact .inl hi.2.symm
      · rw [Tlb.Hits, hothers i his] at hi
        exact .inr ⟨i, hi⟩
    · rintro (rfl | ⟨i, hi⟩)
      · exact ⟨slot, hinserted.valid, hinserted.vpage⟩
      · refine ⟨i, ?_⟩
        rw [Tlb.Hits, hothers i]
        · exact hi
        · rintro rfl
          rw [← hslot, hi.1] at hfree
          cases hfree

/-- Every step but an eviction goes on filling the TLB from the front. -/
theorem Filled.step {h : List (MmuEvent × Mmu n k)} {m m' : Mmu n k} (hm : Filled h m)
    (hgood : m.Good) {e : MmuEvent} (hlegal : m.Legal e) (hexec : m.Exec e m')
    (hnoevict : ∀ v, e ≠ .evict v) (hfit : (usedPages ((e, m') :: h)).card ≤ n) :
    Filled ((e, m') :: h) m' := by
  cases e with
  | translate vaddress op cached out =>
    have hcase := TranslateCase.of_eq hgood.inBounds hexec.1
    by_cases hcaches : m.Caches (pageOf vaddress)
    · have hmem := (hm.caches _).mp hcaches
      cases hcase with
      | hit i hhit =>
        refine hm.rest (Finset.insert_eq_of_mem hmem) ?_ ?_ rfl
        · intro j
          by_cases hj : j = i
          · simp [hj]
          · simp [Function.update_of_ne hj]
        · intro j
          by_cases hj : j = i
          · simp [hj]
          · simp [Function.update_of_ne hj]
      | fill f i hand bitmaps hmiss _ _ _ _ => exact absurd hcaches.choose_spec (hmiss _)
      | fault bitmaps hmiss _ _ _ => exact absurd hcaches.choose_spec (hmiss _)
    · cases out with
      | address paddress => exact hm.miss hgood.inBounds hgood.hand hexec.1 hcaches hfit
      | pageFaultTrap w =>
        cases hcase with
        | fault bitmaps _ _ _ _ => exact hm.rest rfl (fun _ => rfl) (fun _ => rfl) rfl
  | clearRbits =>
    obtain rfl : m' = m.mmuClearRbits := hexec
    exact hm.rest rfl (fun _ => rfl) (fun _ => rfl) rfl
  | install v f =>
    obtain rfl : m' = m.osInstall v f := hexec
    exact hm.rest rfl (fun _ => rfl) (fun _ => rfl) rfl
  | installClean v f =>
    have hsome : m.osInstallClean v f = some m' := hexec
    rw [osInstallClean_eq hlegal.2, Option.some.injEq] at hsome
    subst hsome
    exact hm.rest rfl (fun _ => rfl) (fun _ => rfl) rfl
  | evict v => exact absurd rfl (hnoevict v)

theorem card_usedPages_le (e : MmuEvent) (m : Mmu n k) (h : List (MmuEvent × Mmu n k)) :
    (usedPages h).card ≤ (usedPages ((e, m) :: h)).card := by
  apply Finset.card_le_card
  intro v hv
  cases e with
  | translate vaddress op cached out =>
    cases out with
    | address paddress => exact Finset.mem_insert_of_mem hv
    | pageFaultTrap w => exact hv
  | _ => exact hv

theorem MmuRun.filled (hn : 0 < n) {h : List (MmuEvent × Mmu n k)} {m : Mmu n k}
    (hrun : MmuRun h m) (hnoevict : NoEviction h) (hfit : (usedPages h).card ≤ n) :
    Filled h m := by
  induction hrun with
  | start hs => exact hs.filled
  | @next h m m' e hprev hs ih =>
    have hbefore := ih (fun x hx => hnoevict x (List.mem_cons_of_mem _ hx))
      ((card_usedPages_le e m' h).trans hfit)
    exact hbefore.step (MmuRun.good hn hprev) hs.1 hs.2 (hnoevict _ List.mem_cons_self) hfit

/-! ## Counting the misses -/

/-- A translation counts a miss unless it finds its page in the TLB. -/
theorem TranslateCase.missCount {m m' : Mmu n k} {vaddress : Word} {op : Operation}
    {out : Translation} (h : TranslateCase m vaddress op m' out) :
    m'.tlbMissCount = if m.Caches (pageOf vaddress) then m.tlbMissCount
      else m.tlbMissCount + 1#32 := by
  cases h with
  | hit i hhit => rw [if_pos ⟨i, hhit⟩]
  | fill f i hand bitmaps hmiss _ _ _ _ => rw [if_neg (fun hc => hmiss _ hc.choose_spec)]
  | fault bitmaps hmiss _ _ _ => rw [if_neg (fun hc => hmiss _ hc.choose_spec)]

theorem add_ofNat_succ (c : Word) (a : ℕ) :
    c + BitVec.ofNat 32 (a + 1) = c + BitVec.ofNat 32 a + 1#32 := by
  rw [BitVec.ofNat_add, BitVec.add_assoc]

/-- The pages used and the faults are counted as they come. -/
theorem Filled.missCount {h : List (MmuEvent × Mmu n k)} {m m' : Mmu n k} (hm : Filled h m)
    (hgood : m.Good) {e : MmuEvent} (hlegal : m.Legal e) (hexec : m.Exec e m') {c : Word}
    (hcount : m.tlbMissCount = c + BitVec.ofNat 32 ((usedPages h).card + faults h)) :
    m'.tlbMissCount =
      c + BitVec.ofNat 32 ((usedPages ((e, m') :: h)).card + faults ((e, m') :: h)) := by
  cases e with
  | translate vaddress op cached out =>
    have hcase := TranslateCase.of_eq hgood.inBounds hexec.1
    have hmiss := hcase.missCount
    cases out with
    | address paddress =>
      simp only [usedPages, faults]
      by_cases hcaches : m.Caches (pageOf vaddress)
      · rw [hmiss, if_pos hcaches, Finset.insert_eq_of_mem ((hm.caches _).mp hcaches), hcount]
      · have hnew : pageOf vaddress ∉ usedPages h := fun hmem => hcaches ((hm.caches _).mpr hmem)
        rw [hmiss, if_neg hcaches, Finset.card_insert_of_notMem hnew, hcount,
          Nat.add_right_comm, add_ofNat_succ c]
    | pageFaultTrap w =>
      have habsent : ¬m.Caches (pageOf vaddress) := by
        rintro ⟨i, hi⟩
        cases hcase with
        | fault bitmaps hnone _ _ _ => exact hnone i hi
      simp only [usedPages, faults]
      rw [hmiss, if_neg habsent, hcount, ← Nat.add_assoc, add_ofNat_succ c]
  | clearRbits =>
    obtain rfl : m' = m.mmuClearRbits := hexec
    exact hcount
  | install v f =>
    obtain rfl : m' = m.osInstall v f := hexec
    exact hcount
  | installClean v f =>
    have hsome : m.osInstallClean v f = some m' := hexec
    rw [osInstallClean_eq hlegal.2, Option.some.injEq] at hsome
    subst hsome
    exact hcount
  | evict v =>
    obtain ⟨pageTable, _, rfl⟩ := Option.map_eq_some_iff.mp hexec
    exact hcount

/-- A run of the MMU from a given state. -/
def MmuRunFrom (start : Mmu n k) : List (MmuEvent × Mmu n k) → Mmu n k → Prop :=
  Run (· = start) fun _ m e m' => m.Legal e ∧ m.Exec e m'

theorem MmuRunFrom.mmuRun {start m : Mmu n k} (hstart : start.Started)
    {h : List (MmuEvent × Mmu n k)} (hrun : MmuRunFrom start h m) : MmuRun h m := by
  refine Run.mono ?_ (fun _ _ _ _ hs => hs) hrun
  rintro s rfl
  exact hstart

/-- The miss counter has counted each page in use once, and each fault. -/
theorem MmuRunFrom.missCount (hn : 0 < n) {start m : Mmu n k} (hstart : start.Started)
    {h : List (MmuEvent × Mmu n k)} (hrun : MmuRunFrom start h m) (hnoevict : NoEviction h)
    (hfit : (usedPages h).card ≤ n) :
    m.tlbMissCount = start.tlbMissCount + BitVec.ofNat 32 ((usedPages h).card + faults h) := by
  induction hrun with
  | start hs => simp [usedPages, faults, hs]
  | @next h m m' e hprev hs ih =>
    have hnobefore : NoEviction h := fun x hx => hnoevict x (List.mem_cons_of_mem _ hx)
    have hfitbefore := (card_usedPages_le e m' h).trans hfit
    have hmmu := MmuRunFrom.mmuRun hstart hprev
    exact (hmmu.filled hn hnobefore hfitbefore).missCount (hmmu.good hn) hs.1 hs.2
      (ih hnobefore hfitbefore)

/-- A translation finds its page just in case one in this page has returned an address. -/
theorem MmuRun.cached_iff (hn : 0 < n) {h : List (MmuEvent × Mmu n k)} {m : Mmu n k}
    (hrun : MmuRun h m) (hnoevict : NoEviction h) (hfit : (usedPages h).card ≤ n)
    {vaddress : Word} {op : Operation} {cached : Bool} {out : Translation} {m₁ : Mmu n k}
    {h₁ : List (MmuEvent × Mmu n k)}
    (hsuffix : (.translate vaddress op cached out, m₁) :: h₁ <:+ h) :
    cached = true ↔ pageOf vaddress ∈ usedPages h₁ := by
  induction hrun with
  | start hs => exact absurd (List.suffix_nil.mp hsuffix) (List.cons_ne_nil _ _)
  | @next h m m' e hprev hs ih =>
    have hnobefore : NoEviction h := fun x hx => hnoevict x (List.mem_cons_of_mem _ hx)
    have hfitbefore := (card_usedPages_le e m' h).trans hfit
    rcases List.suffix_cons_iff.mp hsuffix with heq | hearlier
    · obtain ⟨hstep, rfl⟩ := List.cons.inj heq
      obtain ⟨rfl, rfl⟩ := Prod.mk.inj hstep
      rw [hs.2.2, decide_eq_true_eq, (MmuRun.filled hn hprev hnobefore hfitbefore).caches]
    · exact ih hnobefore hfitbefore hearlier

/-- From an empty TLB and an empty page table on, as long as no page is evicted and the
pages in use fit into the TLB, a translation finds its page there exactly if one for this
page has returned an address before; `tlb_miss_count` has counted each page in use once
since then, and each page fault. -/
theorem misses_are_compulsory (hn : 0 < n) {start m : Mmu n k} (hstart : start.Started)
    {h : List (MmuEvent × Mmu n k)} (hrun : MmuRunFrom start h m) (hnoevict : NoEviction h)
    (hfit : (usedPages h).card ≤ n) :
    (∀ vaddress op cached out m' h',
      (.translate vaddress op cached out, m') :: h' <:+ h →
        (cached = true ↔ pageOf vaddress ∈ usedPages h')) ∧
    m.tlbMissCount = start.tlbMissCount + BitVec.ofNat 32 ((usedPages h).card + faults h) :=
  ⟨fun _ _ _ _ _ _ => MmuRun.cached_iff hn (hrun.mmuRun hstart) hnoevict hfit,
    hrun.missCount hn hstart hnoevict hfit⟩

/-- Page 3 is translated twice: it misses the TLB, is found there, and one miss is
counted. -/
theorem misses_are_compulsory_twice : ∃ out₁ out₂, ∃ m₁ m₂ : Mmu 1 (bitSize 32#32),
    MmuRunFrom smallMmu [(.translate 0x1807#32 .load true out₂, m₂),
      (.translate 0x1807#32 .load false out₁, m₁), (.install 3#21 1#21, installedMmu)] m₂ ∧
    m₂.tlbMissCount = smallMmu.tlbMissCount + 1#32 := by
  have hrun : MmuRunFrom smallMmu [(.install 3#21 1#21, installedMmu)] installedMmu :=
    .next (.start rfl) ⟨⟨started_smallMmu.pageMap _, by decide⟩, rfl⟩
  have hpage : pageOf 0x1807#32 = 3#21 := by decide
  have hgood := (hrun.mmuRun started_smallMmu).good (by decide)
  obtain ⟨⟨m₁, out₁⟩, heq₁⟩ := Option.isSome_iff_exists.mp (hgood.exec_defined.1 0x1807#32 .load)
  have hcase₁ := TranslateCase.of_eq hgood.inBounds heq₁
  have hout₁ : out₁ = .address (physical 1#21 0x1807#32) := by
    rw [hcase₁.out_eq hgood.coherent, PageMap.translate, hpage, pageMap_installedMmu]
  subst hout₁
  have hrun₁ : MmuRunFrom smallMmu ((.translate 0x1807#32 .load _ _, m₁) :: _) m₁ :=
    .next hrun ⟨trivial, heq₁, rfl⟩
  have hgood₁ := (hrun₁.mmuRun started_smallMmu).good (by decide)
  obtain ⟨⟨m₂, out₂⟩, heq₂⟩ := Option.isSome_iff_exists.mp (hgood₁.exec_defined.1 0x1807#32 .load)
  have hcase₂ := TranslateCase.of_eq hgood₁.inBounds heq₂
  have hout₂ : out₂ = .address (physical 1#21 0x1807#32) := by
    rw [hcase₂.out_eq hgood₁.coherent, PageMap.translate, hcase₁.pageMap_eq, hpage,
      pageMap_installedMmu]
  subst hout₂
  have hrun₂ : MmuRunFrom smallMmu ((.translate 0x1807#32 .load _ _, m₂) :: _) m₂ :=
    .next hrun₁ ⟨trivial, heq₂, rfl⟩
  obtain ⟨hfound, hcount⟩ := misses_are_compulsory (by decide) started_smallMmu hrun₂
    (by simp [NoEviction]) (by simp [usedPages])
  have hfirst := hfound _ _ _ _ _ _ (List.suffix_cons _ _)
  have hsecond := hfound _ _ _ _ _ _ List.suffix_rfl
  simp only [usedPages, Finset.mem_insert, Finset.notMem_empty, true_or, iff_true, iff_false,
    Bool.not_eq_true] at hfirst hsecond
  rw [hfirst] at hrun₂
  rw [hsecond] at hrun₂
  refine ⟨_, _, m₁, m₂, hrun₂, hcount.trans ?_⟩
  simp [usedPages, faults]

/-! ## Pages that come back too late -/

/-- The pages of the translations, the newest first. -/
def pagesOf (h : List (Access × Mmu n k)) : List Vpage := h.map fun x => pageOf x.1.vaddress

/-- No page is among the `n` before it. -/
def NoneRecent (n : ℕ) : List Vpage → Prop
  | [] => True
  | v :: vs => v ∉ vs.take n ∧ NoneRecent n vs

/-- No R bit is set, and the slots, from the one before the hand backwards, hold
the pages of the last translations. -/
structure Window (h : List (Access × Mmu n k)) (m : Mmu n k) : Prop where
  hand : m.tlb.nextVpageToCheck < n
  entries : ∀ i, (m.tlb.tlb i).valid = true → (m.tlb.tlb i).rm.1 = false
  bitmaps : ∀ f, (m.bitmaps.rm f).1 = false
  recent : ∀ d i, d < n → i = after ⟨m.tlb.nextVpageToCheck, hand⟩ d →
    (m.tlb.tlb i).valid = true → (pagesOf h)[n - 1 - d]? = some (m.tlb.tlb i).vpage

theorem Window.start {m : Mmu n k} (hhand : m.tlb.nextVpageToCheck < n)
    (hempty : ∀ i, (m.tlb.tlb i).valid = false) : Window [] m.mmuClearRbits where
  hand := hhand
  entries := by
    intro i _
    exact congrArg Prod.fst (TlbEntry.rm_clearR (m.tlb.tlb i))
  bitmaps := fun f => congrArg Prod.fst (Bitmaps.rm_clearRbits m.bitmaps f)
  recent := by
    intro d i _ _ hvalid
    exact Bool.noConfusion ((hempty i).symm.trans hvalid)

/-- A page the last `n` translations did not use is not in the TLB. -/
theorem Window.not_caches {h : List (Access × Mmu n k)} {m : Mmu n k} (hm : Window h m)
    {v : Vpage} (hfar : v ∉ (pagesOf h).take n) : ¬m.Caches v := by
  rintro ⟨i, hvalid, rfl⟩
  obtain ⟨d, hd, hi⟩ := CyclicSearch.exists_after ⟨m.tlb.nextVpageToCheck, hm.hand⟩ i
  have hget := hm.recent d i hd hi hvalid
  rw [← List.getElem?_take_of_lt (show n - 1 - d < n by omega)] at hget
  exact hfar (List.mem_of_getElem? hget)

/-- Without a hit the next page goes to the slot at the hand. -/
theorem Window.next {h : List (Access × Mmu n k)} {m m' : Mmu n k} (hm : Window h m)
    (hin : m.InBounds) {a : Access} {paddress : Word}
    (heq : m.mmuTranslate a.vaddress a.op = some (m', .address paddress))
    (hmiss : ¬m.Caches (pageOf a.vaddress)) : Window ((a, m') :: h) m' := by
  obtain ⟨slot, f, hchosen, hinserted⟩ := mmuTranslate_insert hin hm.hand heq hmiss
  have hslot : slot = ⟨m.tlb.nextVpageToCheck, hm.hand⟩ := by
    rcases hchosen with hfirst | ⟨_, hslot⟩
    · apply hfirst.eq_hand
      cases hvalid : (m.tlb.tlb ⟨m.tlb.nextVpageToCheck, hm.hand⟩).valid with
      | false => exact .inl hvalid
      | true => exact .inr (hm.entries _ hvalid)
    · exact hslot
  have hothers : ∀ i, i ≠ slot → m'.tlb.tlb i = m.tlb.tlb i := hinserted.others
  have hhand : m'.tlb.nextVpageToCheck = (after slot 1).val := hinserted.hand
  have hlt : m'.tlb.nextVpageToCheck < n := hhand ▸ (after slot 1).isLt
  refine ⟨hlt, ?_, ?_, ?_⟩
  · intro i hvalid
    by_cases hi : i = slot
    · rw [hi, hinserted.rm, hm.bitmaps f]
      rfl
    · rw [hothers i hi] at hvalid ⊢
      exact hm.entries i hvalid
  · -- an entry written back had no R bit either
    intro g
    cases hvalid : (m.tlb.tlb slot).valid with
    | false =>
      rw [hinserted.kept hvalid]
      exact hm.bitmaps g
    | true =>
      refine (hinserted.written hvalid g.toNat).1.trans ?_
      split_ifs
      · exact hm.entries slot hvalid
      · exact hm.bitmaps g
  · intro d i hd hi hvalid
    have hi' : i = after slot (1 + d) := by
      rw [hi, ← CyclicSearch.after_after]
      exact congrArg (after · d) (Fin.ext hhand)
    by_cases hlast : 1 + d = n
    · -- the slot behind which the hand now stands
      rw [hlast, CyclicSearch.after_length] at hi'
      rw [show n - 1 - d = 0 by omega, hi', hinserted.vpage]
      rfl
    · have hne : i ≠ slot := by
        rw [hi']
        exact CyclicSearch.after_ne (by omega) (by omega)
      rw [hothers i hne] at hvalid ⊢
      have hold := hm.recent (1 + d) i (by omega) (by rw [hi', hslot]) hvalid
      rw [show n - 1 - d = n - 1 - (1 + d) + 1 by omega]
      exact hold

theorem AccessRun.good {start m : Mmu n k} (hgood : start.Good)
    {h : List (Access × Mmu n k)} (hrun : AccessRun start h m) :
    m.Good ∧ m.pageTable.pageMap = start.pageTable.pageMap := by
  induction hrun with
  | start hs =>
    subst hs
    exact ⟨hgood.step (e := .clearRbits) trivial rfl, rfl⟩
  | @next h m m' a _ hs ih =>
    have hcase := TranslateCase.of_eq ih.1.inBounds hs.1
    exact ⟨ih.1.step (e := .translate a.vaddress a.op a.cached a.out) trivial hs,
      hcase.pageMap_eq.trans ih.2⟩

/-- So far every translation has missed. -/
structure Thrashes (start : Mmu n k) (h : List (Access × Mmu n k)) (m : Mmu n k) : Prop where
  window : Window h m
  missed : ∀ x ∈ h, x.1.cached = false
  count : m.tlbMissCount = start.tlbMissCount + BitVec.ofNat 32 h.length

theorem Thrashes.start {m : Mmu n k} (hhand : m.tlb.nextVpageToCheck < n)
    (hempty : ∀ i, (m.tlb.tlb i).valid = false) : Thrashes m [] m.mmuClearRbits where
  window := Window.start hhand hempty
  missed := fun _ hx => (List.not_mem_nil hx).elim
  count := by
    rw [List.length_nil, BitVec.add_zero]
    rfl

theorem Thrashes.next {start m m' : Mmu n k} {h : List (Access × Mmu n k)}
    (hm : Thrashes start h m) (hgood : m.Good) {a : Access}
    (heq : m.mmuTranslate a.vaddress a.op = some (m', a.out))
    (hcached : a.cached = decide (m.Caches (pageOf a.vaddress)))
    (hmapped : m.pageTable.pageMap (pageOf a.vaddress) ≠ none)
    (hfar : pageOf a.vaddress ∉ (pagesOf h).take n) : Thrashes start ((a, m') :: h) m' := by
  have hcase := TranslateCase.of_eq hgood.inBounds heq
  have hmiss := hm.window.not_caches hfar
  obtain ⟨f, hf⟩ := Option.ne_none_iff_exists'.mp hmapped
  -- the page is mapped, so the translation returns an address
  have hout : a.out = .address (physical f a.vaddress) := by
    rw [hcase.out_eq hgood.coherent, PageMap.translate, hf]
  constructor
  · exact hm.window.next hgood.inBounds (heq.trans (by rw [hout])) hmiss
  · intro x hx
    rcases List.mem_cons.mp hx with rfl | hx
    · rw [hcached]
      exact decide_eq_false hmiss
    · exact hm.missed x hx
  · rw [hcase.missCount, if_neg hmiss, hm.count, List.length_cons, BitVec.ofNat_add,
      BitVec.add_assoc]

theorem AccessRun.thrashes {start m : Mmu n k} (hgood : start.Good)
    (hempty : ∀ i, (start.tlb.tlb i).valid = false) {h : List (Access × Mmu n k)}
    (hrun : AccessRun start h m)
    (hmapped : ∀ v ∈ pagesOf h, start.pageTable.pageMap v ≠ none)
    (hfar : NoneRecent n (pagesOf h)) : Thrashes start h m := by
  induction hrun with
  | start hs =>
    subst hs
    exact Thrashes.start hgood.hand hempty
  | @next h m m' a hprev hs ih =>
    obtain ⟨hgood', hmap⟩ := AccessRun.good hgood hprev
    have hbefore := ih (fun v hv => hmapped v (List.mem_cons_of_mem _ hv)) hfar.2
    refine hbefore.next hgood' hs.1 hs.2 ?_ hfar.1
    rw [hmap]
    exact hmapped _ List.mem_cons_self

/-- Translations from an empty TLB, after the R bits were cleared, each of a
mapped page that is none of those of the `n` translations before it, all miss. -/
theorem tlb_thrashes {start m : Mmu n k} (hgood : start.Good)
    (hempty : ∀ i, (start.tlb.tlb i).valid = false) {h : List (Access × Mmu n k)}
    (hrun : AccessRun start h m)
    (hmapped : ∀ v ∈ pagesOf h, start.pageTable.pageMap v ≠ none)
    (hfar : NoneRecent n (pagesOf h)) :
    (∀ x ∈ h, x.1.cached = false) ∧
      m.tlbMissCount = start.tlbMissCount + BitVec.ofNat 32 h.length := by
  have hthrashes := hrun.thrashes hgood hempty hmapped hfar
  exact ⟨hthrashes.missed, hthrashes.count⟩

/-- Accesses go on with a translation of any address. -/
theorem AccessRun.exists_next {start m : Mmu n k} (hgood : start.Good)
    {h : List (Access × Mmu n k)} (hrun : AccessRun start h m) (vaddress : Word)
    (op : Operation) :
    ∃ cached out m', AccessRun start ((⟨vaddress, op, cached, out⟩, m') :: h) m' := by
  have hm := (hrun.good hgood).1
  obtain ⟨⟨m', out⟩, heq⟩ := Option.isSome_iff_exists.mp (hm.exec_defined.1 vaddress op)
  exact ⟨decide (m.Caches (pageOf vaddress)), out, m', .next hrun ⟨heq, rfl⟩⟩

/-- Pages 3 and 4 have frames, and the TLB has one entry. -/
def twoPagesMmu : Mmu 1 (bitSize 32#32) := installedMmu.osInstall 4#21 2#21

theorem mmuRun_twoPages : MmuRun
    [(.install 4#21 2#21, twoPagesMmu), (.install 3#21 1#21, installedMmu)] twoPagesMmu := by
  have hrun : MmuRun [(.install 3#21 1#21, installedMmu)] installedMmu :=
    .next (.start started_smallMmu) ⟨⟨started_smallMmu.pageMap _, by decide⟩, rfl⟩
  refine .next hrun ⟨⟨?_, by decide⟩, rfl⟩
  rw [installedMmu, osInstall, PageTable.pageMap_update_zero, Function.update_of_ne (by decide)]
  exact started_smallMmu.pageMap _

theorem pageMap_twoPages {v : Vpage} (hv : v = 3#21 ∨ v = 4#21) :
    twoPagesMmu.pageTable.pageMap v ≠ none := by
  rw [twoPagesMmu, osInstall, PageTable.pageMap_update_zero]
  rcases hv with rfl | rfl
  · rw [Function.update_of_ne (by decide), pageMap_installedMmu]
    exact Option.some_ne_none _
  · rw [Function.update_self]
    exact Option.some_ne_none _

/-- Two pages in turn, with one entry, always miss. -/
theorem tlb_thrashes_twoPages : ∃ out₁ out₂ out₃, ∃ m₁ m₂ m₃ : Mmu 1 (bitSize 32#32),
    AccessRun twoPagesMmu [(⟨0x1800#32, .load, false, out₃⟩, m₃),
      (⟨0x2000#32, .load, false, out₂⟩, m₂), (⟨0x1800#32, .load, false, out₁⟩, m₁)] m₃ := by
  have hgood := mmuRun_twoPages.good (by decide)
  obtain ⟨c₁, out₁, m₁, hrun₁⟩ := AccessRun.exists_next hgood (.start rfl) 0x1800#32 .load
  obtain ⟨c₂, out₂, m₂, hrun₂⟩ := hrun₁.exists_next hgood 0x2000#32 .load
  obtain ⟨c₃, out₃, m₃, hrun₃⟩ := hrun₂.exists_next hgood 0x1800#32 .load
  have hpages : pagesOf [((⟨0x1800#32, .load, c₃, out₃⟩ : Access), m₃),
      (⟨0x2000#32, .load, c₂, out₂⟩, m₂), (⟨0x1800#32, .load, c₁, out₁⟩, m₁)] =
        [3#21, 4#21, 3#21] := by
    simp only [pagesOf, List.map_cons, List.map_nil]
    decide
  have hmissed := (tlb_thrashes hgood started_smallMmu.tlb hrun₃ ?_ ?_).1
  · obtain rfl : c₁ = false := hmissed (⟨0x1800#32, .load, c₁, out₁⟩, m₁) (by simp)
    obtain rfl : c₂ = false := hmissed (⟨0x2000#32, .load, c₂, out₂⟩, m₂) (by simp)
    obtain rfl : c₃ = false := hmissed (⟨0x1800#32, .load, c₃, out₃⟩, m₃) (by simp)
    exact ⟨out₁, out₂, out₃, m₁, m₂, m₃, hrun₃⟩
  · intro v hv
    rw [hpages] at hv
    apply pageMap_twoPages
    simp only [List.mem_cons, List.not_mem_nil, or_false] at hv
    exact hv.elim .inl fun hv => hv.symm
  · rw [hpages]
    simp [NoneRecent]

end Mmu

end SimOS
