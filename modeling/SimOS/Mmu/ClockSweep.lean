import SimOS.Mmu.WorkingSet

/-!
# A working set that fits into the TLB

A page that misses comes into the TLB with the R bit its frame had, which may be 0,
and then the clock is free to take its slot again. What keeps the page there is the
hand, which has gone behind it. So after a call of `mmu_clear_rbits`, and as long as
the pages in use are not more than the slots, none of them is displaced: each one
misses at most once, whatever the TLB held before and however the pages alternate.
-/

namespace SimOS

open Library
open Library.CyclicSearch (First after Swept)

variable {n k : ℕ}

namespace Mmu

/-- The call as an event of the MMU. -/
def Access.event (a : Access) : MmuEvent := .translate a.vaddress a.op a.cached a.out

def events (h : List (Access × Mmu n k)) : List (MmuEvent × Mmu n k) :=
  h.map fun x => (x.1.event, x.2)

/-- The pages that the calls have returned addresses in. -/
def workingSet (h : List (Access × Mmu n k)) : Finset Vpage := usedPages (events h)

theorem workingSet_cons (a : Access) (m : Mmu n k) (h : List (Access × Mmu n k)) :
    workingSet ((a, m) :: h) =
      match a.out with
      | .address _ => insert (pageOf a.vaddress) (workingSet h)
      | .pageFaultTrap _ => workingSet h := by
  obtain ⟨vaddress, op, cached, out⟩ := a
  cases out <;> rfl

theorem faults_cons (a : Access) (m : Mmu n k) (h : List (Access × Mmu n k)) :
    faults (events ((a, m) :: h)) =
      match a.out with
      | .address _ => faults (events h)
      | .pageFaultTrap _ => faults (events h) + 1 := by
  obtain ⟨vaddress, op, cached, out⟩ := a
  cases out <;> rfl

theorem card_workingSet_le (x : Access × Mmu n k) (h : List (Access × Mmu n k)) :
    (workingSet h).card ≤ (workingSet (x :: h)).card :=
  card_usedPages_le x.1.event x.2 (events h)

/-- The clock may take the slot. -/
def Spare (m : Mmu n k) (i : Fin n) : Prop :=
  (m.tlb.tlb i).valid = false ∨ (m.tlb.tlb i).rm.1 = false

theorem Holds.congr {m m' : Mmu n k} {i : Fin n} (heq : m'.tlb.tlb i = m.tlb.tlb i)
    (pages : Finset Vpage) : m'.Holds pages i ↔ m.Holds pages i := by
  rw [Holds, Holds, heq]

/-- The pages in use are all in the TLB, an entry with its R bit set is in use, and
the hand has gone behind those in use that have it clear. -/
structure Settled (pages : Finset Vpage) (m : Mmu n k) : Prop where
  hand : m.tlb.nextVpageToCheck < n
  caches : ∀ v ∈ pages, m.Caches v
  marked : ∀ i, ¬m.Holds pages i → m.Spare i
  swept : Swept (m.Holds pages) m.Spare ⟨m.tlb.nextVpageToCheck, hand⟩

theorem Settled.start {m : Mmu n k} (hhand : m.tlb.nextVpageToCheck < n) :
    Settled ∅ m.mmuClearRbits where
  hand := hhand
  caches := fun v hv => absurd hv (Finset.notMem_empty v)
  marked := fun i _ => .inr (congrArg Prod.fst (TlbEntry.rm_clearR (m.tlb.tlb i)))
  swept := fun _ _ _ _ hused _ => absurd hused.2 (Finset.notMem_empty _)

/-- The slot the clock takes holds no page in use while there is room. -/
theorem Settled.spares {pages : Finset Vpage} {m : Mmu n k} (hm : Settled pages m)
    (hco : m.Coherent) (hroom : pages.card < n) {slot : Fin n}
    (hchosen : m.missed.Chosen ⟨m.tlb.nextVpageToCheck, hm.hand⟩ slot) :
    First m.Spare ⟨m.tlb.nextVpageToCheck, hm.hand⟩ slot ∧ ¬m.Holds pages slot := by
  rcases hchosen with hfirst | ⟨hfull, _⟩
  · refine ⟨hfirst, fun hholds => ?_⟩
    exact hco.not_holds_all hroom (hm.swept.all_used hm.marked hfirst hholds)
  · -- with every R bit set all slots would be in use
    refine absurd (fun i => ?_) (hco.not_holds_all hroom)
    by_contra hnot
    rcases hm.marked i hnot with hinvalid | hunmarked
    · exact Bool.noConfusion (hinvalid.symm.trans (hfull i).1)
    · exact Bool.noConfusion (hunmarked.symm.trans (hfull i).2)

/-- A page found in the TLB is in use from then on. -/
theorem Settled.hit {pages : Finset Vpage} {m m' : Mmu n k} (hm : Settled pages m)
    (hco : m.Coherent) {v : Vpage} {op : Operation} {i : Fin n} (hhit : m.tlb.Hits v i)
    (htlb : m'.tlb.tlb = Function.update m.tlb.tlb i ((m.tlb.tlb i).touch op))
    (hhand : m'.tlb.nextVpageToCheck = m.tlb.nextVpageToCheck) :
    Settled (insert v pages) m' := by
  have hothers : ∀ j, j ≠ i → m'.tlb.tlb j = m.tlb.tlb j := by
    intro j hj
    rw [htlb, Function.update_of_ne hj]
  have hself : m'.tlb.tlb i = (m.tlb.tlb i).touch op := by rw [htlb, Function.update_self]
  have hmore : ∀ j, m.Holds pages j → m'.Holds (insert v pages) j := by
    intro j hj
    by_cases hji : j = i
    · subst hji
      refine ⟨?_, ?_⟩
      · rw [hself, TlbEntry.touch_valid]
        exact hj.1
      · rw [hself, TlbEntry.touch_vpage]
        exact Finset.mem_insert_of_mem hj.2
    · rw [Holds.congr (hothers j hji)]
      exact ⟨hj.1, Finset.mem_insert_of_mem hj.2⟩
  have hslot : m'.Holds (insert v pages) i := by
    refine ⟨?_, ?_⟩
    · rw [hself, TlbEntry.touch_valid]
      exact hhit.1
    · rw [hself, TlbEntry.touch_vpage, hhit.2]
      exact Finset.mem_insert_self v pages
  have hspare : ∀ j, j ≠ i → (m'.Spare j ↔ m.Spare j) := by
    intro j hj
    rw [Spare, Spare, hothers j hj]
  refine ⟨hhand ▸ hm.hand, ?_, ?_, ?_⟩
  · intro w hw
    rcases Finset.mem_insert.mp hw with rfl | hw
    · refine ⟨i, hslot.1, ?_⟩
      rw [hself, TlbEntry.touch_vpage, hhit.2]
    · obtain ⟨j, hvalid, hpage⟩ := hm.caches w hw
      refine ⟨j, ?_⟩
      by_cases hji : j = i
      · subst hji
        rw [Tlb.Hits, hself, TlbEntry.touch_valid, TlbEntry.touch_vpage]
        exact ⟨hvalid, hpage⟩
      · rw [Tlb.Hits, hothers j hji]
        exact ⟨hvalid, hpage⟩
  · intro j hnot
    have hji : j ≠ i := by
      rintro rfl
      exact hnot hslot
    rw [hspare j hji]
    exact hm.marked j fun hj => hnot (hmore j hj)
  · have heq : (⟨m'.tlb.nextVpageToCheck, hhand ▸ hm.hand⟩ : Fin n) =
        ⟨m.tlb.nextVpageToCheck, hm.hand⟩ := Fin.ext hhand
    rw [heq]
    refine hm.swept.mono hmore fun j hj hfree => ?_
    -- the slot that was hit is not spare, and no other one holds its page
    have hji : j ≠ i := by
      rintro rfl
      rcases hfree with hinvalid | hunmarked
      · exact Bool.noConfusion (hinvalid.symm.trans hj.1)
      · rw [hself, TlbEntry.touch_rm] at hunmarked
        cases hunmarked
    rw [Holds.congr (hothers j hji)] at hj
    refine ⟨⟨hj.1, ?_⟩, (hspare j hji).mp hfree⟩
    refine (Finset.mem_insert.mp hj.2).resolve_left fun hpage => hji ?_
    exact hco.unique j i _ _ (Tlb.byPage_of_valid hj.1) (Tlb.byPage_of_valid hhit.1)
      (hpage.trans hhit.2.symm)

/-- A page that misses takes a slot that was not in use. -/
theorem Settled.fill {pages : Finset Vpage} {m m' : Mmu n k} (hm : Settled pages m)
    (hco : m.Coherent) (hroom : pages.card < n) {v : Vpage} (hmiss : ¬m.Caches v)
    {slot : Fin n} {f : Frame} {newRbit newMbit : ℤ} {b : Bitmaps k}
    (hchosen : m.missed.Chosen ⟨m.tlb.nextVpageToCheck, hm.hand⟩ slot)
    (hinserted : Tlb.InsertedAt m.missed m.bitmaps slot v f newRbit newMbit m'.tlb b) :
    Settled (insert v pages) m' := by
  obtain ⟨hfirst, hunused⟩ := hm.spares hco hroom hchosen
  have hothers : ∀ j, j ≠ slot → m'.tlb.tlb j = m.tlb.tlb j := hinserted.others
  have hhand : m'.tlb.nextVpageToCheck = (after slot 1).val := hinserted.hand
  have hlt : m'.tlb.nextVpageToCheck < n := hhand ▸ (after slot 1).isLt
  have hslot : m'.Holds (insert v pages) slot := by
    refine ⟨hinserted.valid, ?_⟩
    rw [hinserted.vpage]
    exact Finset.mem_insert_self v pages
  have hheld : ∀ j, j ≠ slot → (m'.Holds (insert v pages) j ↔ m.Holds pages j) := by
    intro j hj
    rw [Holds.congr (hothers j hj)]
    constructor
    · rintro ⟨hvalid, hpage⟩
      refine ⟨hvalid, (Finset.mem_insert.mp hpage).resolve_left fun heq => ?_⟩
      exact hmiss ⟨j, hvalid, heq⟩
    · rintro ⟨hvalid, hpage⟩
      exact ⟨hvalid, Finset.mem_insert_of_mem hpage⟩
  have hspare : ∀ j, j ≠ slot → (m'.Spare j ↔ m.Spare j) := by
    intro j hj
    rw [Spare, Spare, hothers j hj]
  refine ⟨hlt, ?_, ?_, ?_⟩
  · intro w hw
    rcases Finset.mem_insert.mp hw with rfl | hw
    · exact ⟨slot, hinserted.valid, hinserted.vpage⟩
    · obtain ⟨j, hvalid, rfl⟩ := hm.caches w hw
      have hj : j ≠ slot := by
        rintro rfl
        exact hunused ⟨hvalid, hw⟩
      refine ⟨j, ?_⟩
      rw [Tlb.Hits, hothers j hj]
      exact ⟨hvalid, rfl⟩
  · intro j hnot
    have hj : j ≠ slot := by
      rintro rfl
      exact hnot hslot
    rw [hspare j hj]
    exact hm.marked j fun hheld' => hnot ((hheld j hj).mpr hheld')
  · have heq : (⟨m'.tlb.nextVpageToCheck, hlt⟩ : Fin n) = after slot 1 := Fin.ext hhand
    rw [heq]
    exact hm.swept.take hm.marked hfirst hslot hheld hspare

/-- A translation keeps the pages in use in the TLB, as long as they fit. -/
theorem Settled.next {h : List (Access × Mmu n k)} {m m' : Mmu n k}
    (hm : Settled (workingSet h) m) (hgood : m.Good) {a : Access}
    (heq : m.mmuTranslate a.vaddress a.op = some (m', a.out))
    (hfit : (workingSet ((a, m') :: h)).card ≤ n) : Settled (workingSet ((a, m') :: h)) m' := by
  have hcase := TranslateCase.of_eq hgood.inBounds heq
  by_cases hcaches : m.Caches (pageOf a.vaddress)
  · generalize hout : a.out = out at hcase
    cases hcase with
    | hit i hhit =>
      rw [workingSet_cons, hout]
      exact hm.hit hgood.coherent hhit rfl rfl
    | fill f i hand bitmaps hmiss _ _ _ _ => exact absurd hcaches.choose_spec (hmiss _)
    | fault bitmaps hmiss _ _ _ => exact absurd hcaches.choose_spec (hmiss _)
  · cases hout : a.out with
    | address paddress =>
      rw [hout] at heq
      rw [workingSet_cons, hout] at hfit ⊢
      obtain ⟨slot, f, hchosen, hinserted⟩ :=
        mmuTranslate_insert hgood.inBounds hm.hand heq hcaches
      have hnew : pageOf a.vaddress ∉ workingSet h := fun hmem => hcaches (hm.caches _ hmem)
      rw [Finset.card_insert_of_notMem hnew] at hfit
      exact hm.fill hgood.coherent hfit hcaches hchosen hinserted
    | pageFaultTrap w =>
      rw [hout] at hcase
      rw [workingSet_cons, hout]
      cases hcase with
      | fault bitmaps _ _ _ _ => exact ⟨hm.hand, hm.caches, hm.marked, hm.swept⟩

theorem AccessRun.settled {start m : Mmu n k} (hgood : start.Good)
    {h : List (Access × Mmu n k)} (hrun : AccessRun start h m)
    (hfit : (workingSet h).card ≤ n) : Settled (workingSet h) m := by
  induction hrun with
  | start hs =>
    subst hs
    exact Settled.start hgood.hand
  | @next h m m' a hprev hs ih =>
    have hbefore := ih ((card_workingSet_le _ h).trans hfit)
    exact hbefore.next (AccessRun.good hgood hprev).1 hs.1 hfit

/-- A translation counts a miss only for a page that is new, or one that traps. -/
theorem Settled.missCount {h : List (Access × Mmu n k)} {m m' : Mmu n k}
    (hm : Settled (workingSet h) m) (hgood : m.Good) {a : Access}
    (heq : m.mmuTranslate a.vaddress a.op = some (m', a.out)) {start : Word} {c : ℕ}
    (hc : c ≤ (workingSet h).card)
    (hcount : m.tlbMissCount = start + BitVec.ofNat 32 (c + faults (events h))) :
    ∃ c' ≤ (workingSet ((a, m') :: h)).card,
      m'.tlbMissCount = start + BitVec.ofNat 32 (c' + faults (events ((a, m') :: h))) := by
  have hcase := TranslateCase.of_eq hgood.inBounds heq
  have hmiss := hcase.missCount
  cases hout : a.out with
  | address paddress =>
    by_cases hcaches : m.Caches (pageOf a.vaddress)
    · refine ⟨c, hc.trans (card_workingSet_le _ h), ?_⟩
      rw [hmiss, if_pos hcaches, hcount, faults_cons, hout]
    · have hnew : pageOf a.vaddress ∉ workingSet h := fun hmem => hcaches (hm.caches _ hmem)
      refine ⟨c + 1, ?_, ?_⟩
      · rw [workingSet_cons, hout, Finset.card_insert_of_notMem hnew]
        exact Nat.succ_le_succ hc
      · rw [hmiss, if_neg hcaches, hcount, faults_cons, hout, Nat.add_right_comm,
          add_ofNat_succ start]
  | pageFaultTrap w =>
    have habsent : ¬m.Caches (pageOf a.vaddress) := by
      rintro ⟨i, hi⟩
      rw [hout] at hcase
      cases hcase with
      | fault bitmaps hnone _ _ _ => exact hnone i hi
    refine ⟨c, hc.trans (card_workingSet_le _ h), ?_⟩
    rw [hmiss, if_neg habsent, hcount, faults_cons, hout, ← Nat.add_assoc, add_ofNat_succ start]

end Mmu

end SimOS
