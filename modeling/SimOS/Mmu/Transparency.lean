import SimOS.Mmu.Runs

/-!
# The TLB is transparent

Seen from a program, memory is a partial map from pages to frames: an address
of a mapped page has one physical address, and an address of any other page
faults. The MMU refines this map. Whether a translation goes through the TLB or
through the page table cannot be told from its result.
-/

namespace SimOS

open Library

variable {n k : ℕ}

/-- Memory as a program sees it. -/
abbrev PageMap := Vpage → Option Frame

namespace PageMap

def translate (map : PageMap) (vaddress : Word) : Translation :=
  match map (Mmu.pageOf vaddress) with
  | some f => .address (Mmu.physical f vaddress)
  | none => .pageFaultTrap (toWord (Mmu.pageOf vaddress))

/-- What each event does to the map. -/
def Step (map : PageMap) : MmuEvent → PageMap → Prop
  | .translate vaddress _ _ out, map' => out = map.translate vaddress ∧ map' = map
  | .clearRbits, map' => map' = map
  | .install v f, map' => map' = Function.update map v (some f)
  | .installClean v f, map' => map' = Function.update map v (some f)
  | .evict v, map' => map' = Function.update map v none

end PageMap

namespace Mmu

/-- In a coherent state a translation answers as the page map does. -/
theorem TranslateCase.out_eq {m m' : Mmu n k} (hm : m.Coherent) {vaddress : Word}
    {op : Operation} {out : Translation} (h : TranslateCase m vaddress op m' out) :
    out = PageMap.translate m.pageTable.pageMap vaddress := by
  unfold PageMap.translate
  cases h with
  | hit i hhit => rw [hm.agrees i _ _ hhit.byPage]
  | fill f i hand bitmaps _ hmap _ _ _ => rw [hmap]
  | fault bitmaps _ hmap _ _ => rw [hmap]

/-- After a translation of a mapped page the TLB has the page. -/
theorem TranslateCase.caches_page {m m' : Mmu n k} {vaddress : Word} {op : Operation}
    {out : Translation} (h : TranslateCase m vaddress op m' out)
    (hmap : m.pageTable.pageMap (pageOf vaddress) ≠ none) : m'.Caches (pageOf vaddress) := by
  cases h with
  | hit i hhit =>
    refine ⟨i, ?_⟩
    simpa [Tlb.Hits] using hhit
  | fill f i hand bitmaps _ _ _ _ _ =>
    refine ⟨i, ?_⟩
    simp [Tlb.Hits]
  | fault bitmaps _ hnone _ _ => exact absurd hnone hmap

/-- A translation hits just in case the TLB has the page. -/
theorem TranslateCase.tlbMiss_iff {m m' : Mmu n k} {vaddress : Word} {op : Operation}
    {out : Translation} (h : TranslateCase m vaddress op m' out) :
    m'.tlb.tlbMiss = false ↔ m.Caches (pageOf vaddress) := by
  cases h with
  | hit i hhit => exact iff_of_true rfl ⟨i, hhit⟩
  | fill f i hand bitmaps hmiss _ _ _ _ =>
    exact iff_of_false (Bool.noConfusion ·) fun hcaches => hmiss _ hcaches.choose_spec
  | fault bitmaps hmiss _ _ _ =>
    exact iff_of_false (Bool.noConfusion ·) fun hcaches => hmiss _ hcaches.choose_spec

/-- Every legal step is a step of the page map. -/
theorem Good.simulates {m m' : Mmu n k} (hm : m.Good) {e : MmuEvent} (hlegal : m.Legal e)
    (hexec : m.Exec e m') : PageMap.Step m.pageTable.pageMap e m'.pageTable.pageMap := by
  cases e with
  | translate vaddress op cached out =>
    have hcase := TranslateCase.of_eq hm.inBounds hexec.1
    exact ⟨hcase.out_eq hm.coherent, hcase.pageMap_eq⟩
  | clearRbits =>
    obtain rfl : m' = m.mmuClearRbits := hexec
    rfl
  | install v f =>
    obtain rfl : m' = m.osInstall v f := hexec
    exact PageTable.pageMap_update_zero _ _ _
  | installClean v f =>
    have hsome : m.osInstallClean v f = some m' := hexec
    rw [osInstallClean_eq hlegal.2, Option.some.injEq] at hsome
    subst hsome
    exact PageTable.pageMap_update_zero _ _ _
  | evict v => exact (osEvict_cases hexec).2.2

/-- The MMU with its TLB refines the page map, over whole runs. -/
theorem mmuRun_refines (hn : 0 < n) {h : List (MmuEvent × Mmu n k)} {m : Mmu n k}
    (hrun : MmuRun h m) :
    Run (fun map => map = fun _ => none) (fun _ => PageMap.Step)
      (h.map (Prod.map id fun m => m.pageTable.pageMap)) m.pageTable.pageMap := by
  refine Run.simulation (fun m : Mmu n k => m.pageTable.pageMap) ?_ ?_ hrun
  · intro s hs
    exact funext hs.pageMap
  · intro h s e s' hr hs
    exact (MmuRun.good hn hr).simulates hs.1 hs.2

theorem toWord_pageOf (vaddress : Word) : toWord (pageOf vaddress) = vaddress >>> 11 := by
  apply BitVec.eq_of_toNat_eq
  rw [toNat_toWord, pageOf, BitVec.extractLsb'_toNat, BitVec.toNat_ushiftRight,
    Nat.shiftRight_eq_div_pow]
  have hlt := vaddress.isLt
  omega

/-- Along every run a translation returns the frame the page table holds with
the offset of the address, or traps for exactly the page that is not mapped;
and the TLB never holds two entries for a page or one the page table denies. -/
theorem tlb_transparent (hn : 0 < n) {h : List (MmuEvent × Mmu n k)} {m : Mmu n k}
    (hrun : MmuRun h m) :
    (∀ vaddress op,
      (∀ f, m.pageTable.pageMap (pageOf vaddress) = some f →
        ∃ m', m.mmuTranslate vaddress op =
          some (m', .address ((toWord f <<< 11) ||| (vaddress &&& 0x7FF#32)))) ∧
      (m.pageTable.pageMap (pageOf vaddress) = none →
        ∃ m', m.mmuTranslate vaddress op = some (m', .pageFaultTrap (vaddress >>> 11)) ∧
          m'.tlb.tlbMiss = true)) ∧
      (∀ i j, (m.tlb.tlb i).valid = true → (m.tlb.tlb j).valid = true →
        (m.tlb.tlb i).vpage = (m.tlb.tlb j).vpage → i = j) ∧
      ∀ i, (m.tlb.tlb i).valid = true →
        m.pageTable.pageMap (m.tlb.tlb i).vpage = some (m.tlb.tlb i).pframe := by
  have hgood := MmuRun.good hn hrun
  refine ⟨fun vaddress op => ?_, fun i j hi hj hij => ?_, fun i hi => ?_⟩
  · obtain ⟨⟨m', out⟩, heq⟩ := Option.isSome_iff_exists.mp
      (mmuTranslate_isSome hgood.inBounds hgood.hand vaddress op)
    have hcase := TranslateCase.of_eq hgood.inBounds heq
    have hout := hcase.out_eq hgood.coherent
    constructor
    · intro f hf
      refine ⟨m', ?_⟩
      rw [heq, hout, PageMap.translate, hf]
      rfl
    · intro hnone
      rw [PageMap.translate, hnone, toWord_pageOf] at hout
      refine ⟨m', by rw [heq, hout], ?_⟩
      cases hcase with
      | hit i hhit => cases hout
      | fill f i hand bitmaps _ _ _ _ _ => rfl
      | fault bitmaps _ _ _ _ => rfl
  · exact hgood.coherent.unique i j _ _ (Tlb.byPage_of_valid hi) (Tlb.byPage_of_valid hj) hij
  · exact hgood.coherent.agrees i _ _ (Tlb.byPage_of_valid hi)

/-- Page 3 is installed in frame 1. A first load in it misses the TLB, and a store at
byte 7 of it is a hit. -/
theorem tlb_transparent_hit : ∃ m₁ m₂ : Mmu 1 (bitSize 32#32),
    MmuRun [(.translate 0x1800#32 .load false (.address 0x800#32), m₁),
      (.install 3#21 1#21, smallMmu.osInstall 3#21 1#21)] m₁ ∧
    m₁.mmuTranslate 0x1807#32 .store = some (m₂, .address 0x807#32) ∧
    m₂.tlb.tlbMiss = false := by
  have hrun : MmuRun [(.install 3#21 1#21, smallMmu.osInstall 3#21 1#21)]
      (smallMmu.osInstall 3#21 1#21) :=
    .next (.start started_smallMmu) ⟨⟨rfl, by decide⟩, rfl⟩
  have hmap : (smallMmu.osInstall 3#21 1#21).pageTable.pageMap 3#21 = some 1#21 := by
    rw [osInstall, PageTable.pageMap_update_zero, Function.update_self]
  obtain ⟨m₁, heq₁⟩ := ((tlb_transparent (by decide) hrun).1 0x1800#32 .load).1 _ hmap
  have hcase₁ := TranslateCase.of_eq (hrun.good (by decide)).inBounds heq₁
  have hrun₁ : MmuRun [(.translate 0x1800#32 .load false (.address 0x800#32), m₁),
      (.install 3#21 1#21, smallMmu.osInstall 3#21 1#21)] m₁ :=
    .next hrun ⟨trivial, heq₁, by decide⟩
  have hmap₁ : m₁.pageTable.pageMap 3#21 = some 1#21 := by rw [hcase₁.pageMap_eq, hmap]
  obtain ⟨m₂, heq₂⟩ := ((tlb_transparent (by decide) hrun₁).1 0x1807#32 .store).1 _ hmap₁
  have hcase₂ := TranslateCase.of_eq (hrun₁.good (by decide)).inBounds heq₂
  refine ⟨m₁, m₂, hrun₁, heq₂, hcase₂.tlbMiss_iff.mpr (hcase₁.caches_page ?_)⟩
  rw [show pageOf 0x1800#32 = 3#21 by decide, hmap]
  exact Option.some_ne_none _

end Mmu

end SimOS
