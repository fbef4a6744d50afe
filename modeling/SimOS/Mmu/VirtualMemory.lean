import SimOS.Mmu.References
import SimOS.Mmu.FrameOwnership
import SimOS.Library.BackedMemory

/-!
# What programs read

The MMU translates addresses; the contents are in physical memory, or on the
disk while a page has no frame. The operating system reads a page from the disk
into its frame when it installs it, and at an eviction it writes the page back,
`issue_page_writeback`, if the M bit of its frame is 1. These two transfers are
not in the repository: they are parameters here, `Transfers`, with the promise that
each copies one page and leaves the others alone.

A STORE that misses the TLB does not set the M bit, so an eviction can lose
STOREs. `FlatMemory` is memory as a program sees it, with exactly that loss; an
eviction that loses none makes it a plain memory.
-/

namespace SimOS

open Library

variable {n k : ℕ} {V : Type*}

/-- An event of the MMU, with the value a STORE writes or a LOAD reads. -/
structure MemoryEvent (V : Type*) where
  event : MmuEvent
  value : V

/-- The MMU with the memory at its physical addresses, and the disk, where the
contents of a page are found under its virtual addresses. -/
structure PagedMemory (n k : ℕ) (V : Type*) where
  mmu : Mmu n k
  memory : Word → V
  disk : Word → V

/-- The transfers of a page between the disk and a frame, as functions of the contents of
the disk and of the memory: what is in memory after a page was read into a frame, and what
is on the disk after `issue_page_writeback`. -/
structure Transfers (V : Type*) where
  readPage : (disk memory : Word → V) → Vpage → Frame → Word → V
  issuePageWriteback : (disk memory : Word → V) → Vpage → Frame → Word → V

namespace Transfers

/-- Each transfer copies its page and leaves everything else as it was. -/
structure CopyPages (t : Transfers V) : Prop where
  read : ∀ disk memory f vaddress,
    t.readPage disk memory (Mmu.pageOf vaddress) f (Mmu.physical f vaddress) = disk vaddress
  read_others : ∀ disk memory v f paddress, Mmu.frameOf paddress ≠ f →
    t.readPage disk memory v f paddress = memory paddress
  written : ∀ disk memory f vaddress,
    t.issuePageWriteback disk memory (Mmu.pageOf vaddress) f vaddress =
      memory (Mmu.physical f vaddress)
  written_others : ∀ disk memory v f vaddress, Mmu.pageOf vaddress ≠ v →
    t.issuePageWriteback disk memory v f vaddress = disk vaddress

end Transfers

namespace PagedMemory

open Mmu

/-- The MMU's part of a history. -/
def mmuHistory (h : List (MemoryEvent V × PagedMemory n k V)) : List (MmuEvent × Mmu n k) :=
  h.map (Prod.map MemoryEvent.event PagedMemory.mmu)

def memoryAfter (t : Transfers V) (s : PagedMemory n k V) (e : MemoryEvent V) : Word → V :=
  match e.event with
  | .translate _ .store _ (.address paddress) => Function.update s.memory paddress e.value
  | .install v f => t.readPage s.disk s.memory v f
  | .installClean v f => t.readPage s.disk s.memory v f
  | _ => s.memory

/-- An evicted page is written back if the operating system finds the M bit set. -/
def diskAfter (t : Transfers V) (s : PagedMemory n k V) (e : MemoryEvent V) : Word → V :=
  match e.event with
  | .evict v =>
    match s.mmu.pageTable.pageMap v with
    | some f =>
      if s.mmu.bitmaps.mmuGetMbitInBitmapValue (toWord f) = some 1 then
        t.issuePageWriteback s.disk s.memory v f
      else s.disk
    | none => s.disk
  | _ => s.disk

/-- One step of the MMU with what it does to the memory and to the disk. -/
structure Exec (t : Transfers V) (s : PagedMemory n k V) (e : MemoryEvent V)
    (s' : PagedMemory n k V) : Prop where
  mmu : s.mmu.Exec e.event s'.mmu
  memory : s'.memory = s.memoryAfter t e
  disk : s'.disk = s.diskAfter t e
  load : ∀ {vaddress cached paddress},
    e.event = .translate vaddress .load cached (.address paddress) → e.value = s.memory paddress

/-- A run of the machine with the contents of the disk at the start. -/
def MemoryRun (t : Transfers V) (disk : Word → V) :
    List (MemoryEvent V × PagedMemory n k V) → PagedMemory n k V → Prop :=
  Run (fun s => s.mmu.Started ∧ s.disk = disk) fun h s e s' =>
    TrapGuard (mmuHistory h) s.mmu e.event ∧ s.mmu.Legal e.event ∧ s.Exec t e s'

end PagedMemory

/-- Virtual memory as a program sees it, and its contents that eviction has saved. -/
structure FlatMemory (V : Type*) where
  contents : Word → V
  saved : Word → V

namespace FlatMemory

/-- An eviction that saves a page, or one that puts the page back to what was
saved before. -/
def evict (s : FlatMemory V) (v : Vpage) (save : Bool) : FlatMemory V :=
  if save then
    { s with saved := fun a => if Mmu.pageOf a = v then s.contents a else s.saved a }
  else { s with contents := fun a => if Mmu.pageOf a = v then s.saved a else s.contents a }

theorem contents_evict (s : FlatMemory V) (v : Vpage) (save : Bool) (a : Word) :
    (s.evict v save).contents a =
      if Mmu.pageOf a = v ∧ save = false then s.saved a else s.contents a := by
  cases save <;> simp [evict]

theorem saved_evict (s : FlatMemory V) (v : Vpage) (save : Bool) (a : Word) :
    (s.evict v save).saved a =
      if Mmu.pageOf a = v ∧ save = true then s.contents a else s.saved a := by
  cases save <;> simp [evict]

def after (s : FlatMemory V) (save : Vpage → Bool) (e : MemoryEvent V) : FlatMemory V :=
  match e.event with
  | .translate vaddress .store _ (.address _) =>
    { s with contents := Function.update s.contents vaddress e.value }
  | .evict v => s.evict v (save v)
  | _ => s

end FlatMemory

namespace PagedMemory

open Mmu

/-- Virtual memory after a history. An eviction saves the page if a STORE found
it in the TLB since it was installed. -/
def flat (disk : Word → V) : List (MemoryEvent V × PagedMemory n k V) → FlatMemory V
  | [] => ⟨disk, disk⟩
  | (e, _) :: h => (flat disk h).after (fun v => storedWhileCached v (mmuHistory h)) e

/-- The value of the last STORE to the address, or what was on the disk. -/
def lastStored (disk : Word → V) (vaddress : Word) :
    List (MemoryEvent V × PagedMemory n k V) → V
  | [] => disk vaddress
  | (⟨.translate a .store _ (.address _), x⟩, _) :: h =>
    if a = vaddress then x else lastStored disk vaddress h
  | _ :: h => lastStored disk vaddress h

/-- Every page that was stored to and then evicted was in the TLB when one of
these STOREs came. -/
def NothingLost (h : List (MemoryEvent V × PagedMemory n k V)) : Prop :=
  ∀ e s h' v, (e, s) :: h' <:+ h → e.event = .evict v →
    storedSince v (mmuHistory h') = true → storedWhileCached v (mmuHistory h') = true

/-! ## The M bits in the trap -/

/-- In the trap the bitmaps have the effective M bits of all present pages. -/
theorem flushed_inTrap (hn : 0 < n) {h : List (MmuEvent × Mmu n k)} {m : Mmu n k}
    (hrun : TrapRun h m) (htrap : inTrap h = true) {v : Vpage} {f : Frame}
    (hv : m.pageTable.pageMap v = some f) : (m.bitmaps.rm f).2 = (m.effectiveRm f).2 := by
  induction hrun generalizing v f with
  | start _ => cases htrap
  | @next h m m' e hprev hs ih =>
    have hgood := (TrapRun.mmuRun hprev).good hn
    have hdist := (TrapRun.tracks hn hprev).distinct
    obtain ⟨hguard, hlegal, hexec⟩ := hs
    cases e with
    | translate vaddress op cached out =>
      -- only a fault begins a trap, and it writes all bits back
      cases out with
      | address paddress => cases htrap
      | pageFaultTrap w =>
        have hcase := TranslateCase.of_eq hgood.inBounds hexec.1
        rw [(hcase.fault_bitmaps hgood.coherent hdist).1]
    | clearRbits =>
      obtain rfl : m' = m.mmuClearRbits := hexec
      rw [effectiveRm_mmuClearRbits hgood.coherent hdist]
      exact (congrArg Prod.snd (Bitmaps.rm_clearRbits m.bitmaps f)).trans (ih htrap hv)
    | install w g => exact hguard.elim
    | installClean w g =>
      have hsome : m.osInstallClean w g = some m' := hexec
      rw [osInstallClean_eq hlegal.2, Option.some.injEq] at hsome
      subst hsome
      rw [effectiveRm_installClean hgood.coherent hlegal.2 hguard.2]
      have hbits : (osInstall { m with bitmaps := m.bitmaps.writeRm g (false, false) }
          w g).bitmaps.rm = Function.update m.bitmaps.rm g (false, false) :=
        Bitmaps.rm_writeRm hlegal.2 _
      rw [hbits]
      by_cases hfg : f = g
      · rw [hfg, Function.update_self, if_pos rfl]
      · rw [Function.update_of_ne hfg, if_neg hfg]
        rw [osInstall, PageTable.pageMap_update_zero] at hv
        by_cases hvw : v = w
        · rw [hvw, Function.update_self, Option.some.injEq] at hv
          exact absurd hv.symm hfg
        · rw [Function.update_of_ne hvw] at hv
          exact ih htrap hv
    | evict w =>
      obtain ⟨hbitmaps, _, hmap⟩ := osEvict_cases hexec
      have hdist' := (TrapRun.tracks hn (Run.next hprev ⟨hguard, hlegal, hexec⟩)).distinct
      rw [hmap] at hv
      by_cases hvw : v = w
      · rw [hvw, Function.update_self] at hv
        cases hv
      · rw [Function.update_of_ne hvw] at hv
        rw [hbitmaps, effectiveRm_osEvict hgood.coherent hdist hdist' hexec hvw hv]
        exact ih htrap hv

/-- What the operating system finds in the M bit of a page it evicts. -/
theorem mbit_evict (hn : 0 < n) {h : List (MmuEvent × Mmu n k)} {m : Mmu n k}
    (hrun : TrapRun h m) (htrap : inTrap h = true) {v : Vpage} {f : Frame}
    (hv : m.pageTable.pageMap v = some f) :
    m.bitmaps.mmuGetMbitInBitmapValue (toWord f) = some 1 ↔ storedWhileCached v h = true := by
  rw [Bitmaps.get_m ((hrun.mmuRun.good hn).covered v f hv), flushed_inTrap hn hrun htrap hv,
    (hrun.tracks hn).dirty v f hv]
  cases storedWhileCached v h <;> decide

/-! ## The view through the MMU -/

/-- Where the contents of the virtual addresses are. -/
def backed (s : PagedMemory n k V) : BackedMemory Word Word V where
  place := fun vaddress => (s.mmu.pageTable.pageMap (pageOf vaddress)).map (physical · vaddress)
  memory := s.memory
  backing := s.disk

variable {t : Transfers V} {disk : Word → V} {h : List (MemoryEvent V × PagedMemory n k V)}
  {s : PagedMemory n k V}

/-- The MMU's part of a run. -/
theorem MemoryRun.trapRun (hrun : MemoryRun t disk h s) : TrapRun (mmuHistory h) s.mmu := by
  induction hrun with
  | start hs => exact .start hs.1
  | next _ hs ih => exact .next ih ⟨hs.1, hs.2.1, hs.2.2.mmu⟩

theorem physical_physical (v f : BitVec 21) (a : Word) (ha : pageOf a = v) :
    physical v (physical f a) = a := by
  have hoffset := toNat_physical f a
  have hback := toNat_physical v (physical f a)
  refine eq_of_page_offset ?_ (by omega)
  rw [ha]
  exact frameOf_physical v (physical f a)

theorem physical_inj {f g : Frame} {a b : Word} (heq : physical f a = physical g b) :
    f = g ∧ a.toNat % 2048 = b.toNat % 2048 := by
  have hframe := congrArg frameOf heq
  have hnat := congrArg BitVec.toNat heq
  rw [frameOf_physical, frameOf_physical] at hframe
  rw [toNat_physical, toNat_physical, hframe] at hnat
  exact ⟨hframe, by omega⟩

theorem backed_place (a : Word) :
    s.backed.place a = (s.mmu.pageTable.pageMap (pageOf a)).map (physical · a) := rfl

theorem backed_place_eq_some {a p : Word} :
    s.backed.place a = some p ↔
      ∃ f, s.mmu.pageTable.pageMap (pageOf a) = some f ∧ physical f a = p :=
  Option.map_eq_some_iff

/-- Frames that hold one page each keep the virtual addresses apart. -/
theorem backed_apart (hdist : s.mmu.DistinctFrames) : BackedMemory.Apart s.backed.place := by
  intro a b p ha hb
  obtain ⟨f, hf, rfl⟩ := backed_place_eq_some.mp ha
  obtain ⟨g, hg, heq⟩ := backed_place_eq_some.mp hb
  obtain ⟨rfl, hoffset⟩ := physical_inj heq
  exact eq_of_page_offset (hdist _ _ _ hf hg) hoffset.symm

/-! ## Each step is a step of virtual memory -/

/-- The machine shows the contents of virtual memory and has the saved ones on the disk. -/
structure Refines (s : PagedMemory n k V) (v : FlatMemory V) : Prop where
  view : s.backed.view = v.contents
  saved : s.disk = v.saved

/-- A LOAD that returned an address read what virtual memory has at its address. -/
theorem Refines.load {v : FlatMemory V} (hs : s.Refines v) (hgood : s.mmu.Good)
    {s' : PagedMemory n k V} {e : MemoryEvent V} (hexec : s.Exec t e s') {vaddress paddress : Word}
    {cached : Bool} (he : e.event = .translate vaddress .load cached (.address paddress)) :
    e.value = v.contents vaddress := by
  have hmmu := hexec.mmu
  rw [he] at hmmu
  obtain ⟨f, hf, hp⟩ := hgood.address hmmu.1
  have hplace : s.backed.place vaddress = some paddress := backed_place_eq_some.mpr ⟨f, hf, hp.symm⟩
  rw [hexec.load he, ← hs.view, BackedMemory.view_placed hplace]
  rfl

/-- A step that moves no page and writes nothing. -/
theorem Refines.rest {v : FlatMemory V} (hs : s.Refines v) {s' : PagedMemory n k V}
    (hmap : s'.mmu.pageTable.pageMap = s.mmu.pageTable.pageMap) (hmemory : s'.memory = s.memory)
    (hdisk : s'.disk = s.disk) : s'.Refines v where
  view := by
    rw [← hs.view, backed, backed, hmap, hmemory, hdisk]
  saved := by rw [hdisk, hs.saved]

/-- A STORE that returned an address writes to virtual memory. -/
theorem Refines.store {v : FlatMemory V} (hs : s.Refines v) (hgood : s.mmu.Good)
    (hdist : s.mmu.DistinctFrames) {s' : PagedMemory n k V} {vaddress paddress : Word}
    {cached : Bool} {x : V}
    (hexec : s.Exec t ⟨.translate vaddress .store cached (.address paddress), x⟩ s') :
    s'.Refines { v with contents := Function.update v.contents vaddress x } where
  view := by
    obtain ⟨f, hf, hp⟩ := hgood.address hexec.mmu.1
    have hmap := (TranslateCase.of_eq hgood.inBounds hexec.mmu.1).pageMap_eq
    have hplace : s.backed.place vaddress = some paddress :=
      backed_place_eq_some.mpr ⟨f, hf, hp.symm⟩
    have hplace' : s'.backed.place = s.backed.place := by rw [backed, backed, hmap]
    rw [BackedMemory.view_write (backed_apart hdist) hplace hplace' hexec.memory hexec.disk,
      hs.view]
  saved := hexec.disk.trans hs.saved

/-- Installing a page in a frame without one brings its contents into memory. -/
theorem Refines.install (ht : t.CopyPages) {v : FlatMemory V} (hs : s.Refines v)
    {s' : PagedMemory n k V} {w : Vpage} {f : Frame} (hw : s.mmu.pageTable.pageMap w = none)
    (hfree : ∀ u, s.mmu.pageTable.pageMap u ≠ some f)
    (hmap : s'.mmu.pageTable.pageMap = Function.update s.mmu.pageTable.pageMap w (some f))
    (hmemory : s'.memory = t.readPage s.disk s.memory w f) (hdisk : s'.disk = s.disk) :
    s'.Refines v where
  view := by
    rw [← hs.view]
    refine BackedMemory.view_fetch hdisk fun a => ?_
    by_cases ha : pageOf a = w
    · right
      refine ⟨by rw [backed_place, ha, hw, Option.map_none], physical f a, ?_, ?_⟩
      · exact backed_place_eq_some.mpr ⟨f, by rw [hmap, ha, Function.update_self], rfl⟩
      · show s'.memory _ = s.disk a
        rw [hmemory, ← ha, ht.read]
    · left
      have hsame : s'.mmu.pageTable.pageMap (pageOf a) = s.mmu.pageTable.pageMap (pageOf a) := by
        rw [hmap, Function.update_of_ne ha]
      refine ⟨by rw [backed_place, backed_place, hsame], fun p hp => ?_⟩
      obtain ⟨g, hg, rfl⟩ := backed_place_eq_some.mp hp
      show s'.memory _ = s.memory _
      rw [hmemory, ht.read_others]
      rw [frameOf_physical]
      rintro rfl
      exact hfree _ hg
  saved := by rw [hdisk, hs.saved]

/-- Evicting a page saves its contents or loses what was stored since they were saved. -/
theorem Refines.evict (ht : t.CopyPages) {v : FlatMemory V} (hs : s.Refines v)
    {s' : PagedMemory n k V} {w : Vpage} {f : Frame} (hw : s.mmu.pageTable.pageMap w = some f)
    (save : Bool)
    (hmap : s'.mmu.pageTable.pageMap = Function.update s.mmu.pageTable.pageMap w none)
    (hmemory : s'.memory = s.memory)
    (hdisk : s'.disk = if save then t.issuePageWriteback s.disk s.memory w f else s.disk) :
    s'.Refines (v.evict w save) := by
  -- a page written back is on the disk as it was in memory
  have hwritten : ∀ a, pageOf a = w → s.memory (physical f a) = v.contents a := by
    intro a ha
    have hplace : s.backed.place a = some (physical f a) :=
      backed_place_eq_some.mpr ⟨f, by rw [ha, hw], rfl⟩
    rw [← hs.view, BackedMemory.view_placed hplace]
    rfl
  have hdropped : s'.backed.view =
      fun a => if pageOf a = w then s'.disk a else s.backed.view a := by
    refine BackedMemory.view_drop hmemory ?_ ?_
    · intro a ha
      rw [backed_place, hmap, ha, Function.update_self, Option.map_none]
    · intro a ha
      refine ⟨by rw [backed_place, backed_place, hmap, Function.update_of_ne ha], ?_⟩
      show s'.disk a = s.disk a
      rw [hdisk]
      cases save
      · rfl
      · exact ht.written_others s.disk s.memory w f a ha
  cases save with
  | true =>
    have hsaved : s'.disk = fun a => if pageOf a = w then v.contents a else v.saved a := by
      rw [hdisk, if_pos rfl]
      funext a
      by_cases ha : pageOf a = w
      · rw [if_pos ha, ← hwritten a ha, ← ha, ht.written]
      · rw [if_neg ha, ← hs.saved, ht.written_others _ _ _ _ _ ha]
    refine ⟨?_, hsaved⟩
    rw [hdropped, hsaved, hs.view]
    funext a
    by_cases ha : pageOf a = w
    · simp [FlatMemory.evict, ha]
    · simp [FlatMemory.evict, ha]
  | false =>
    have hkept : s'.disk = s.disk := by
      rw [hdisk]
      rfl
    refine ⟨?_, by rw [hkept, hs.saved]; rfl⟩
    rw [hdropped, hkept, hs.view, hs.saved]
    rfl

/-- Every step of the machine is the step of virtual memory. -/
theorem Refines.step (ht : t.CopyPages) (hn : 0 < n) (hrun : MemoryRun t disk h s)
    {v : FlatMemory V} (hs : s.Refines v) {e : MemoryEvent V} {s' : PagedMemory n k V}
    (hguard : TrapGuard (mmuHistory h) s.mmu e.event) (hlegal : s.mmu.Legal e.event)
    (hexec : s.Exec t e s') :
    s'.Refines (v.after (fun w => storedWhileCached w (mmuHistory h)) e) := by
  have hgood := hrun.trapRun.mmuRun.good hn
  have hdist := (hrun.trapRun.tracks hn).distinct
  obtain ⟨event, x⟩ := e
  cases event with
  | translate vaddress op cached out =>
    have hmap := (TranslateCase.of_eq hgood.inBounds hexec.mmu.1).pageMap_eq
    cases op with
    | load => exact hs.rest hmap hexec.memory hexec.disk
    | store =>
      cases out with
      | address paddress => exact hs.store hgood hdist hexec
      | pageFaultTrap w => exact hs.rest hmap hexec.memory hexec.disk
  | clearRbits =>
    have hmmu : s'.mmu = s.mmu.mmuClearRbits := hexec.mmu
    exact hs.rest (by rw [hmmu]; rfl) hexec.memory hexec.disk
  | install w f => exact hguard.elim
  | installClean w f =>
    have hsome : s.mmu.osInstallClean w f = some s'.mmu := hexec.mmu
    rw [osInstallClean_eq hlegal.2, Option.some.injEq] at hsome
    refine hs.install ht hlegal.1 hguard.2 ?_ hexec.memory hexec.disk
    rw [← hsome]
    exact PageTable.pageMap_update_zero _ _ _
  | evict w =>
    obtain ⟨f, hf⟩ := Option.ne_none_iff_exists'.mp hlegal
    refine hs.evict ht hf _ (osEvict_cases hexec.mmu).2.2 hexec.memory ?_
    -- the trap is where the M bits are exact
    have hmbit := mbit_evict hn hrun.trapRun hguard hf
    rw [hexec.disk, diskAfter]
    simp only [hf, hmbit]

theorem MemoryRun.refines (ht : t.CopyPages) (hn : 0 < n) (hrun : MemoryRun t disk h s) :
    s.Refines (flat disk h) := by
  induction hrun with
  | @start s hs =>
    refine ⟨?_, hs.2⟩
    funext a
    have hnone : s.backed.place a = none := by rw [backed_place, hs.1.pageMap, Option.map_none]
    rw [BackedMemory.view_unplaced hnone]
    exact congrFun hs.2 a
  | next hprev hs ih => exact ih.step ht hn hprev hs.1 hs.2.1 hs.2.2

/-! ## Runs that lose nothing -/

theorem NothingLost.tail {x : MemoryEvent V × PagedMemory n k V} (hh : NothingLost (x :: h)) :
    NothingLost h :=
  fun e s h' v hsuffix => hh e s h' v (hsuffix.trans (List.suffix_cons x h))

/-- Virtual memory has what was stored last; what was not stored to since the
page was installed is on the disk. -/
structure Plain (disk : Word → V) (h : List (MemoryEvent V × PagedMemory n k V)) : Prop where
  contents : ∀ a, (flat disk h).contents a = lastStored disk a h
  saved : ∀ a, storedSince (pageOf a) (mmuHistory h) = false →
    (flat disk h).saved a = (flat disk h).contents a

/-- What has no frame is on the disk. -/
theorem Refines.saved_absent {v : FlatMemory V} (hs : s.Refines v) {a : Word}
    (ha : s.mmu.pageTable.pageMap (pageOf a) = none) : v.saved a = v.contents a := by
  have hplace : s.backed.place a = none := by rw [backed_place, ha, Option.map_none]
  rw [← hs.view, ← hs.saved, BackedMemory.view_unplaced hplace]
  rfl

/-- A STORE changes the last value stored at its address. -/
theorem Plain.store (hp : Plain disk h) {s' : PagedMemory n k V} {vaddress paddress : Word}
    {cached : Bool} {x : V} :
    Plain disk ((⟨.translate vaddress .store cached (.address paddress), x⟩, s') :: h) where
  contents := by
    intro a
    simp only [flat, FlatMemory.after, lastStored]
    by_cases ha : a = vaddress
    · rw [ha, Function.update_self, if_pos rfl]
    · rw [Function.update_of_ne ha, if_neg (Ne.symm ha), hp.contents a]
  saved := by
    intro a hstored
    simp only [storedSince, mmuHistory, List.map_cons, Prod.map_apply, sinceInstall,
      MmuEvent.installs, MmuEvent.stores, Bool.not_false, Bool.true_and, Bool.or_eq_false_iff,
      decide_eq_false_iff_not] at hstored
    have ha : a ≠ vaddress := by
      rintro rfl
      exact hstored.1 rfl
    simp only [flat, FlatMemory.after]
    rw [Function.update_of_ne ha]
    exact hp.saved a hstored.2

/-- A step that stores nothing, after which no more pages count as clean. -/
theorem Plain.rest (hp : Plain disk h) {e : MemoryEvent V} {s' : PagedMemory n k V}
    (hflat : flat disk ((e, s') :: h) = flat disk h)
    (hlast : ∀ a, lastStored disk a ((e, s') :: h) = lastStored disk a h)
    (hstill : ∀ v, storedSince v (mmuHistory ((e, s') :: h)) = storedSince v (mmuHistory h)) :
    Plain disk ((e, s') :: h) where
  contents := by
    intro a
    rw [hflat, hlast, hp.contents a]
  saved := by
    intro a hstored
    rw [hstill] at hstored
    rw [hflat]
    exact hp.saved a hstored

/-- An installation makes its page clean, which was absent and so on the disk. -/
theorem Plain.install (hp : Plain disk h) {v : Vpage} {f : Frame} {x : V}
    {s' : PagedMemory n k V}
    (habsent : ∀ a, pageOf a = v → (flat disk h).saved a = (flat disk h).contents a) :
    Plain disk ((⟨.installClean v f, x⟩, s') :: h) where
  contents := hp.contents
  saved := by
    intro a hstored
    by_cases ha : pageOf a = v
    · exact habsent a ha
    · have hbefore : storedSince (pageOf a) (mmuHistory h) = false := by
        simpa [storedSince, mmuHistory, sinceInstall, MmuEvent.installs, MmuEvent.stores,
          Ne.symm ha] using hstored
      exact hp.saved a hbefore

/-- An eviction that loses nothing. -/
theorem Plain.evict (hp : Plain disk h) {v : Vpage} {x : V} {s' : PagedMemory n k V}
    (hkept : storedSince v (mmuHistory h) = true → storedWhileCached v (mmuHistory h) = true) :
    Plain disk ((⟨.evict v, x⟩, s') :: h) := by
  have hcontents : ∀ a,
      (flat disk ((⟨.evict v, x⟩, s') :: h)).contents a = (flat disk h).contents a := by
    intro a
    refine (FlatMemory.contents_evict _ _ _ a).trans ?_
    split_ifs with hdrop
    · -- a page that is not saved was not stored to
      apply hp.saved a
      rw [hdrop.1, Bool.eq_false_iff]
      intro hstored
      exact Bool.noConfusion (hdrop.2.symm.trans (hkept hstored))
    · rfl
  constructor
  · intro a
    rw [hcontents a, hp.contents a]
    rfl
  · intro a hstored
    rw [hcontents a]
    refine (FlatMemory.saved_evict _ _ _ a).trans ?_
    split_ifs
    · rfl
    · exact hp.saved a hstored

theorem MemoryRun.plain (ht : t.CopyPages) (hn : 0 < n) (hrun : MemoryRun t disk h s)
    (hlost : NothingLost h) : Plain disk h := by
  induction hrun with
  | start _ => exact ⟨fun _ => rfl, fun _ _ => rfl⟩
  | @next h s s' e hprev hs ih =>
    have hp := ih hlost.tail
    obtain ⟨event, x⟩ := e
    cases event with
    | translate vaddress op cached out =>
      cases op with
      | load => exact hp.rest rfl (fun _ => rfl) fun _ => rfl
      | store =>
        cases out with
        | address paddress => exact hp.store
        | pageFaultTrap w => exact hp.rest rfl (fun _ => rfl) fun _ => rfl
    | clearRbits => exact hp.rest rfl (fun _ => rfl) fun _ => rfl
    | install v f => exact hs.1.elim
    | installClean v f =>
      refine hp.install fun a ha => (MemoryRun.refines ht hn hprev).saved_absent ?_
      rw [ha]
      exact hs.2.1.1
    | evict v => exact hp.evict (hlost _ _ _ v List.suffix_rfl rfl)

/-- Through the TLB, the page tables, physical memory and the disk, in every run
every LOAD that returns an address reads what virtual memory has there, with an
eviction losing what was stored to its page since it was last saved exactly if
no STORE found the page in the TLB since it was installed; so in a run that
loses nothing it reads the value last stored at its virtual address. -/
theorem virtual_memory_flat {t : Transfers V} (ht : t.CopyPages) (hn : 0 < n) {disk : Word → V}
    {h : List (MemoryEvent V × PagedMemory n k V)} {s : PagedMemory n k V}
    (hrun : MemoryRun t disk h s) :
    ∀ e s' h' vaddress cached paddress, (e, s') :: h' <:+ h →
      e.event = .translate vaddress .load cached (.address paddress) →
        e.value = (flat disk h').contents vaddress ∧
        (NothingLost h' → e.value = lastStored disk vaddress h') := by
  intro e s' h' vaddress cached paddress hsuffix he
  obtain ⟨s₁, hprev, _, _, hexec⟩ := Run.exists_step hrun hsuffix
  have hgood := (MemoryRun.trapRun hprev).mmuRun.good hn
  have hload := (MemoryRun.refines ht hn hprev).load hgood hexec he
  refine ⟨hload, fun hlost => ?_⟩
  rw [hload, (MemoryRun.plain ht hn hprev hlost).contents]

/-! ## Transfers that copy -/

/-- The history with the memory that goes with a run of the MMU in which every
STORE writes `x`. -/
def fillHistory (t : Transfers V) (start : PagedMemory n k V) (x : V) :
    List (MmuEvent × Mmu n k) → List (MemoryEvent V × PagedMemory n k V)
  | [] => []
  | (e, m) :: h =>
    let s := reached start (fillHistory t start x h)
    let e : MemoryEvent V := ⟨e, match e with
      | .translate _ .load _ (.address paddress) => s.memory paddress
      | _ => x⟩
    (e, ⟨m, s.memoryAfter t e, s.diskAfter t e⟩) :: fillHistory t start x h

theorem mmuHistory_fillHistory (t : Transfers V) (start : PagedMemory n k V) (x : V)
    (h : List (MmuEvent × Mmu n k)) : mmuHistory (fillHistory t start x h) = h := by
  induction h with
  | nil => rfl
  | cons e h ih => exact congrArg (e :: ·) ih

/-- Every run of the MMU is the MMU's part of a run of the machine. -/
theorem exists_memoryRun (t : Transfers V) (disk : Word → V) (x : V)
    {h : List (MmuEvent × Mmu n k)} {m : Mmu n k} (hrun : TrapRun h m) :
    ∃ start : PagedMemory n k V,
      MemoryRun t disk (fillHistory t start x h) (reached start (fillHistory t start x h)) ∧
        (reached start (fillHistory t start x h)).mmu = m := by
  induction hrun with
  | @start m hs => exact ⟨⟨m, fun _ => x, disk⟩, .start ⟨hs, rfl⟩, rfl⟩
  | @next h m m' e _ hs ih =>
    obtain ⟨start, hrun, hmmu⟩ := ih
    obtain ⟨hguard, hlegal, hexec⟩ := hs
    refine ⟨start, .next hrun ⟨?_, ?_, ?_⟩, rfl⟩
    · rw [mmuHistory_fillHistory, hmmu]
      exact hguard
    · rw [hmmu]
      exact hlegal
    · refine ⟨?_, rfl, rfl, ?_⟩
      · rw [hmmu]
        exact hexec
      · intro vaddress cached paddress he
        simp only at he
        subst he
        rfl

/-- The transfers that copy word by word. -/
def copying : Transfers V where
  readPage disk memory v f paddress :=
    if frameOf paddress = f then disk (physical v paddress) else memory paddress
  issuePageWriteback disk memory v f vaddress :=
    if pageOf vaddress = v then memory (physical f vaddress) else disk vaddress

theorem copyPages_copying : (copying : Transfers V).CopyPages where
  read disk _ f vaddress :=
    (if_pos (frameOf_physical f vaddress)).trans
      (congrArg disk (physical_physical _ f vaddress rfl))
  read_others _ _ _ _ _ hframe := if_neg hframe
  written _ _ _ _ := if_pos rfl
  written_others _ _ _ _ _ hpage := if_neg hpage

/-- A STORE hits page 3, which is evicted and installed in another frame, and the LOAD that
comes next is translated. -/
theorem exists_moved_page : ∃ (m₁ m₂ m₃ m₄ m₅ m₆ m₇ m₈ : Mmu 1 (bitSize 32#32)) (cached : Bool),
    TrapRun [(.translate 0x1807#32 .load cached (.address 0x1007#32), m₈),
      (.installClean 3#21 2#21, m₇), (.evict 3#21, m₆),
      (.translate 0x2000#32 .load false (.pageFaultTrap 4#32), m₅),
      (.translate 0x1807#32 .store true (.address 0x807#32), m₄),
      (.translate 0x1807#32 .store false (.address 0x807#32), m₃), (.installClean 3#21 1#21, m₂),
      (.translate 0x1807#32 .store false (.pageFaultTrap 3#32), m₁)] m₈ := by
  obtain ⟨m₁, m₂, m₃, hrun₃, hmap₃, hcaches₃⟩ := exists_first_store
  obtain ⟨m₄, hcase₄, hrun₄⟩ := hrun₃.exists_translate (by decide) 0x1807#32 .store
    (decide_eq_true hcaches₃).symm (show _ = .address 0x807#32 by rw [hmap₃]; rfl)
  have hmap₄ := hcase₄.pageMap_eq.trans hmap₃
  obtain ⟨m₅, hcase₅, hrun₅⟩ := hrun₄.exists_fault (by decide) 0x2000#32 .load rfl
    (show _ = none by rw [hmap₄]; rfl)
  have hmap₅ := hcase₅.pageMap_eq.trans hmap₄
  -- in the trap page 3 moves to frame 2
  obtain ⟨m₆, hmap₆, hrun₆⟩ := hrun₅.exists_evict (by decide) (v := 3#21) rfl
    (by rw [hmap₅, Function.update_self]; exact nofun)
  rw [hmap₅, Function.update_idem, Function.update_eq_self] at hmap₆
  obtain ⟨m₇, _, hmap₇, hrun₇⟩ := hrun₆.exists_install (v := 3#21) (f := 2#21) rfl
    (by rw [hmap₆]) (by decide) (fun w => by rw [hmap₆]; exact nofun)
  rw [hmap₆] at hmap₇
  obtain ⟨m₈, _, hrun₈⟩ := hrun₇.exists_translate (by decide) 0x1807#32 .load rfl
    (show _ = .address 0x1007#32 by rw [hmap₇]; rfl)
  exact ⟨m₁, m₂, m₃, m₄, m₅, m₆, m₇, m₈, _, hrun₈⟩

/-- In that run the STOREs write 7; it goes to the disk and comes back into another frame,
and the LOAD reads it. -/
theorem virtual_memory_flat_moved : ∃ (e : MemoryEvent ℕ)
    (h : List (MemoryEvent ℕ × PagedMemory 1 (bitSize 32#32) ℕ))
    (s : PagedMemory 1 (bitSize 32#32) ℕ),
    MemoryRun copying (fun _ => 0) ((e, s) :: h) s ∧ e.value = 7 ∧
      (∃ cached, e.event = .translate 0x1807#32 .load cached (.address 0x1007#32)) ∧
      .evict 3#21 ∈ h.map fun x => x.1.event := by
  obtain ⟨m₁, m₂, m₃, m₄, m₅, m₆, m₇, m₈, cached, htrap⟩ := exists_moved_page
  obtain ⟨start, hrun, _⟩ := exists_memoryRun copying (fun _ => 0) 7 htrap
  have hread := (virtual_memory_flat copyPages_copying (by decide) hrun _ _ _ _ _ _
    List.suffix_rfl rfl).1
  refine ⟨_, _, _, hrun, hread.trans rfl, ⟨cached, rfl⟩, ?_⟩
  exact List.mem_cons_of_mem _ List.mem_cons_self

end PagedMemory

end SimOS
