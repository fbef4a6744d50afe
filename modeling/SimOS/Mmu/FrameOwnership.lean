import SimOS.Mmu.FrameRuns
import SimOS.Mmu.References
import SimOS.Mmu.BitmapCoverage
import SimOS.Library.Custody

/-!
# Who owns a page frame

The operating system gets its frames from `mmu_get_free_page_frame`, installs
absent pages in the frames it got, gets back the frame of a page it evicts, and
releases frames it has and no page is in. The page frame bitmap, the frames the
operating system has, and the page table then stay apart in the sense of
`Custody`, and virtual memory has no aliases.
-/

namespace SimOS

open Library

variable {n k : ℕ}

/-- An event of the MMU, or a call on the page frame bitmap. -/
inductive PagingEvent
  | mmu (e : MmuEvent)
  | frame (e : FrameEvent)

namespace Mmu

/-- What the calls of an event do; those on the bitmap change nothing else. -/
def ExecPaging (m : Mmu n k) : PagingEvent → Mmu n k → Prop
  | .mmu e, m' => m.Exec e m'
  | .frame e, m' => ∃ b, m.bitmaps.ExecFrame e b ∧ m' = { m with bitmaps := b }

/-- The operating system has the frame, and no page is in it: the frame was
handed out or the page in it was evicted, and since then no page was installed
in it and it was not released. -/
def inHand (start : Mmu n k) (f : Frame) : List (PagingEvent × Mmu n k) → Bool
  | [] => false
  | (.frame (.get pframe), _) :: h => pframe = toWord f || inHand start f h
  | (.frame (.release pframe), _) :: h => pframe ≠ toWord f && inHand start f h
  | (.mmu (.install _ g), _) :: h => f ≠ g && inHand start f h
  | (.mmu (.installClean _ g), _) :: h => f ≠ g && inHand start f h
  | (.mmu (.evict v), _) :: h =>
    (reached start h).pageTable.pageMap v = some f || inHand start f h
  | (.mmu (.translate ..), _) :: h => inHand start f h
  | (.mmu .clearRbits, _) :: h => inHand start f h

/-- The operating system installs absent pages in frames it has, evicts pages
that are present, and releases frames it has. -/
def Custodial (start : Mmu n k) (h : List (PagingEvent × Mmu n k)) (m : Mmu n k) :
    PagingEvent → Prop
  | .mmu (.install v f) => m.pageTable.pageMap v = none ∧ inHand start f h = true
  | .mmu (.installClean v f) => m.pageTable.pageMap v = none ∧ inHand start f h = true
  | .mmu (.evict v) => m.pageTable.pageMap v ≠ none
  | .frame (.release pframe) => ∃ f, pframe = toWord f ∧ inHand start f h = true
  | _ => True

/-- A run of such an operating system. -/
def PagingRun (start : Mmu n k) : List (PagingEvent × Mmu n k) → Mmu n k → Prop :=
  Run (· = start) fun h m e m' => Custodial start h m e ∧ m.ExecPaging e m'

/-- Where the frames are: in the pool, with the operating system, or under a page. -/
def custody (start : Mmu n k) (h : List (PagingEvent × Mmu n k)) (m : Mmu n k) :
    Custody Vpage Frame where
  free := fun f => m.bitmaps.taken f.toNat = false
  hand := fun f => inHand start f h = true
  used := m.pageTable.pageMap

theorem noFreePageframe_ne_toWord (f : Frame) : noFreePageframe ≠ toWord f := by
  intro h
  have hlt := f.isLt
  have hnat := congrArg BitVec.toNat h
  rw [toNat_toWord, show noFreePageframe.toNat = 2 ^ 32 - 1 by decide] at hnat
  omega

theorem covers_of_taken {b : Bitmaps k} {f : Frame} (h : b.taken f.toNat = true) :
    Bitmaps.Covers k f := by
  unfold Bitmaps.taken PackedBits.bit at h
  split at h
  · assumption
  · cases h

/-! ## What one event moves -/

variable {start m m' : Mmu n k} {h : List (PagingEvent × Mmu n k)}

/-- Events that keep the bitmap, the page map and the frames the operating
system has move nothing. -/
theorem custody_rest {e : PagingEvent}
    (hpf : m'.bitmaps.pageframeBitmap = m.bitmaps.pageframeBitmap)
    (hmap : m'.pageTable.pageMap = m.pageTable.pageMap)
    (hhand : ∀ f, inHand start f ((e, m') :: h) = inHand start f h) :
    Custody.Step (custody start h m) (custody start ((e, m') :: h) m') := by
  refine .rest (fun g => ?_) (fun g => ?_) hmap
  · simp only [custody, Bitmaps.taken, hpf]
  · simp only [custody, hhand]

theorem TranslateCase.pageframeBitmap_eq {vaddress : Word} {op : Operation} {out : Translation}
    (hcase : TranslateCase m vaddress op m' out) :
    m'.bitmaps.pageframeBitmap = m.bitmaps.pageframeBitmap := by
  cases hcase with
  | hit i _ => rfl
  | fill f i hand bitmaps _ _ _ _ hpf => exact hpf
  | fault bitmaps _ _ _ hpf => exact hpf

/-- Installing a page puts a frame in hand to use. -/
theorem custody_install {e : PagingEvent} {v : Vpage} {f : Frame}
    (hf : inHand start f h = true)
    (hpf : m'.bitmaps.pageframeBitmap = m.bitmaps.pageframeBitmap)
    (hmap : m'.pageTable.pageMap = Function.update m.pageTable.pageMap v (some f))
    (hhand : ∀ g, inHand start g ((e, m') :: h) = (decide (g ≠ f) && inHand start g h)) :
    Custody.Step (custody start h m) (custody start ((e, m') :: h) m') := by
  refine .install v f hf (fun g => ?_) (fun g => ?_) hmap
  · simp only [custody, Bitmaps.taken, hpf]
  · simp only [custody, hhand, Bool.and_eq_true, decide_eq_true_eq]

/-- A call of `mmu_get_free_page_frame` takes a free frame, or nothing. -/
theorem custody_get (hk : k * 32 ≤ 2 ^ 21) {b : Bitmaps k} {pframe : Word}
    (hget : m.bitmaps.mmuGetFreePageFrame = some (b, pframe)) :
    Custody.Step (custody start h m)
      (custody start ((.frame (.get pframe), { m with bitmaps := b }) :: h)
        { m with bitmaps := b }) := by
  rcases m.bitmaps.mmuGetFreePageFrame_spec (by omega) with ⟨_, heq⟩ | ⟨g, hg, hfree, _, heq⟩
  · obtain ⟨rfl, rfl⟩ := Prod.mk.inj (Option.some.inj (heq.symm.trans hget))
    refine custody_rest rfl rfl fun f => ?_
    simp [inHand, noFreePageframe_ne_toWord]
  · obtain ⟨rfl, rfl⟩ := Prod.mk.inj (Option.some.inj (heq.symm.trans hget))
    have hnat : (BitVec.ofNat 21 g).toNat = g := by
      rw [BitVec.toNat_ofNat, Nat.mod_eq_of_lt (by omega)]
    have hword : BitVec.ofNat 32 g = toWord (BitVec.ofNat 21 g) := by
      apply BitVec.eq_of_toNat_eq
      rw [toNat_toWord, hnat, BitVec.toNat_ofNat, Nat.mod_eq_of_lt (by omega)]
    refine .take (BitVec.ofNat 21 g) ?_ (fun f => ?_) (fun f => ?_) rfl
    · simp only [custody, hnat]
      exact hfree
    · have hne : f.toNat = g ↔ f = BitVec.ofNat 21 g := by
        rw [← BitVec.toNat_inj, hnat]
      simp only [custody, m.bitmaps.taken_take ((PackedBits.div_lt_iff (by decide) g).mpr hg), hne]
      by_cases hfg : f = BitVec.ofNat 21 g
      · simp [hfg]
      · simp [hfg]
    · simp only [custody, inHand, hword, toWord_inj, Bool.or_eq_true, decide_eq_true_eq,
        eq_comm (a := f)]

/-- A release gives a frame in hand back to the pool. -/
theorem custody_release (hc : (custody start h m).Exclusive) {f : Frame}
    (hf : inHand start f h = true) {b : Bitmaps k}
    (hrel : m.bitmaps.mmuModifyPageframeBitmap (toWord f) 0 = some b) :
    Custody.Step (custody start h m)
      (custody start ((.frame (.release (toWord f)), { m with bitmaps := b }) :: h)
        { m with bitmaps := b }) := by
  have htaken : m.bitmaps.taken f.toNat = true :=
    Bool.eq_true_of_not_eq_false (hc.hand_not_free f hf)
  have hcov : f.toNat / 32 < k := covers_of_taken htaken
  have hinside : (toWord f).toNat < k * 32 := by
    rw [toNat_toWord]
    exact (PackedBits.div_lt_iff (by decide) _).mp hcov
  rw [m.bitmaps.release_eq hinside, toNat_toWord, Option.some.injEq] at hrel
  subst hrel
  refine .release f hf (fun g => ?_) (fun g => ?_) rfl
  · simp only [custody, m.bitmaps.taken_giveBack hcov, BitVec.toNat_inj]
    by_cases hgf : g = f
    · simp [hgf]
    · simp [hgf]
  · simp only [custody, inHand, Bool.and_eq_true, decide_eq_true_eq, ne_eq, toWord_inj,
      eq_comm (a := g)]

/-- Nothing is in the hand of the operating system at the start, and no page is present. -/
theorem exclusive_start (hstart : start.Started) : (custody start [] start).Exclusive where
  hand_not_free := fun _ hf => Bool.noConfusion hf
  used_not_free := fun v f hv =>
    absurd ((hstart.pageMap v).symm.trans hv) (Option.some_ne_none f).symm
  used_not_hand := fun _ _ _ hf => Bool.noConfusion hf
  used_once := fun v _ f hv =>
    absurd ((hstart.pageMap v).symm.trans hv) (Option.some_ne_none f).symm

/-- What a run of a custodial operating system keeps. -/
structure Owned (start : Mmu n k) (h : List (PagingEvent × Mmu n k)) (m : Mmu n k) : Prop where
  good : m.Good
  exclusive : (custody start h m).Exclusive

/-- A frame in hand is inside the bitmaps, since it is not free. -/
theorem Owned.covers_of_hand (hm : Owned start h m) {f : Frame} (hf : inHand start f h = true) :
    Bitmaps.Covers k f :=
  covers_of_taken (Bool.eq_true_of_not_eq_false (hm.exclusive.hand_not_free f hf))

/-- What a custodial operating system does is legal for the MMU. -/
theorem Owned.legal (hm : Owned start h m) {e : MmuEvent} (hguard : Custodial start h m (.mmu e)) :
    m.Legal e := by
  cases e with
  | translate vaddress op cached out => trivial
  | clearRbits => trivial
  | install v f => exact ⟨hguard.1, hm.covers_of_hand hguard.2⟩
  | installClean v f => exact ⟨hguard.1, hm.covers_of_hand hguard.2⟩
  | evict v => exact hguard

/-- Every event of the MMU moves at most one frame. -/
theorem Owned.custody_mmu (hm : Owned start h m) (hreached : reached start h = m) {e : MmuEvent}
    (hguard : Custodial start h m (.mmu e)) (hexec : m.Exec e m') :
    Custody.Step (custody start h m) (custody start ((.mmu e, m') :: h) m') := by
  have hlegal := hm.legal hguard
  cases e with
  | translate vaddress op cached out =>
    have hcase := TranslateCase.of_eq hm.good.inBounds hexec.1
    exact custody_rest hcase.pageframeBitmap_eq hcase.pageMap_eq fun _ => rfl
  | clearRbits =>
    obtain rfl : m' = m.mmuClearRbits := hexec
    exact custody_rest rfl rfl fun _ => rfl
  | install v f =>
    obtain rfl : m' = m.osInstall v f := hexec
    exact custody_install hguard.2 rfl (PageTable.pageMap_update_zero _ _ _) fun _ => rfl
  | installClean v f =>
    have hsome : m.osInstallClean v f = some m' := hexec
    rw [osInstallClean_eq hlegal.2, Option.some.injEq] at hsome
    subst hsome
    exact custody_install hguard.2 rfl (PageTable.pageMap_update_zero _ _ _) fun _ => rfl
  | evict v =>
    obtain ⟨hbitmaps, _, hmap⟩ := osEvict_cases hexec
    obtain ⟨f, hf⟩ := Option.ne_none_iff_exists'.mp hguard
    refine .withdraw v f hf (fun g => ?_) (fun g => ?_) hmap
    · simp only [custody, hbitmaps]
    · simp only [custody, inHand, hreached, hf, Bool.or_eq_true, decide_eq_true_eq,
        Option.some.injEq, eq_comm (a := g)]

theorem Owned.step (hk : k * 32 ≤ 2 ^ 21) (hm : Owned start h m) (hreached : reached start h = m)
    {e : PagingEvent} (hguard : Custodial start h m e) (hexec : m.ExecPaging e m') :
    Owned start ((e, m') :: h) m' := by
  cases e with
  | mmu e =>
    exact ⟨hm.good.step (hm.legal hguard) hexec,
      hm.exclusive.step (hm.custody_mmu hreached hguard hexec)⟩
  | frame e =>
    obtain ⟨b, hb, rfl⟩ := hexec
    have hgood : Good { m with bitmaps := b } :=
      ⟨⟨hm.good.coherent.unique, hm.good.coherent.agrees⟩, hm.good.covered, hm.good.hand⟩
    cases e with
    | get pframe => exact ⟨hgood, hm.exclusive.step (custody_get hk hb)⟩
    | release pframe =>
      obtain ⟨f, rfl, hf⟩ := hguard
      exact ⟨hgood, hm.exclusive.step (custody_release hm.exclusive hf hb)⟩

theorem PagingRun.owned (hn : 0 < n) (hk : k * 32 ≤ 2 ^ 21) (hstart : start.Started)
    (hrun : PagingRun start h m) : Owned start h m := by
  refine Run.invariant (P := Owned start) ?_ ?_ hrun
  · rintro s rfl
    exact ⟨hstart.good hn, exclusive_start hstart⟩
  · intro h s e s' hprev ih hs
    exact ih.step hk hprev.reached_eq hs.1 hs.2

/-! ## Physical addresses -/

theorem toNat_physical (f : Frame) (vaddress : Word) :
    (physical f vaddress).toNat = 2048 * f.toNat + vaddress.toNat % 2048 := by
  have hf := f.isLt
  have hmask : offsetMask = BitVec.ofNat 32 (2 ^ 11 - 1) := rfl
  have hoffset : (vaddress &&& offsetMask).toNat = vaddress.toNat % 2 ^ 11 := by
    rw [hmask, BitVec.toNat_and, BitVec.toNat_ofNat, Nat.mod_eq_of_lt (by decide),
      Nat.and_two_pow_sub_one_eq_mod]
  have hshift : (toWord f <<< 11).toNat = f.toNat <<< 11 := by
    rw [BitVec.toNat_shiftLeft, toNat_toWord, Nat.mod_eq_of_lt]
    rw [Nat.shiftLeft_eq]
    omega
  rw [physical, BitVec.toNat_or, hoffset, hshift,
    ← Nat.shiftLeft_add_eq_or_of_lt (Nat.mod_lt _ (by decide)), Nat.shiftLeft_eq]
  omega

/-- The page and the offset make up the address. -/
theorem eq_of_page_offset {a b : Word} (hpage : pageOf a = pageOf b)
    (hoffset : a.toNat % 2048 = b.toNat % 2048) : a = b := by
  have hword := congrArg BitVec.toNat (congrArg toWord hpage)
  rw [toWord_pageOf, toWord_pageOf, BitVec.toNat_ushiftRight, BitVec.toNat_ushiftRight,
    Nat.shiftRight_eq_div_pow, Nat.shiftRight_eq_div_pow] at hword
  apply BitVec.eq_of_toNat_eq
  omega

/-- An address a translation returns lies in the frame of its page. -/
theorem Good.address (hm : m.Good) {vaddress paddress : Word} {op : Operation}
    (heq : m.mmuTranslate vaddress op = some (m', .address paddress)) :
    ∃ f, m.pageTable.pageMap (pageOf vaddress) = some f ∧ paddress = physical f vaddress := by
  have hout := (TranslateCase.of_eq hm.inBounds heq).out_eq hm.coherent
  rw [PageMap.translate] at hout
  split at hout
  · next f hf => exact ⟨f, hf, Translation.address.inj hout⟩
  · cases hout

/-- After boot, however the events of a custodial operating system follow each
other: every present page is in a frame of the machine whose bit in the page
frame bitmap is 1, every translation is defined and its physical address exists,
two different virtual addresses never have the same physical address, and
`mmu_get_free_page_frame` never hands out a frame that the operating system
already has or that a page is in. -/
theorem frames_owned_exclusively (hn : 0 < n) {numPageFrames : Word}
    (hframes : numPageFrames.toNat ≤ 2 ^ 21) {malloc : Malloc n (bitSize numPageFrames)}
    {h : List (PagingEvent × Mmu n (bitSize numPageFrames))} {m : Mmu n (bitSize numPageFrames)}
    (hrun : PagingRun (mmuInitialize numPageFrames malloc) h m) :
    (∀ v f, m.pageTable.pageMap v = some f → toWord f < numPageFrames ∧
      m.bitmaps.mmuGetPageframeBitmapValue (toWord f) = some 1) ∧
    (∀ vaddress op, (m.mmuTranslate vaddress op).isSome) ∧
    (∀ a b op op' m₁ m₂ paddress, m.mmuTranslate a op = some (m₁, .address paddress) →
      m.mmuTranslate b op' = some (m₂, .address paddress) →
        a = b ∧ paddress.toNat < 2048 * numPageFrames.toNat) ∧
    ∀ b f, m.bitmaps.mmuGetFreePageFrame = some (b, toWord f) →
      inHand (mmuInitialize numPageFrames malloc) f h = false ∧
        ∀ v, m.pageTable.pageMap v ≠ some f := by
  have hsize := bitSize_eq numPageFrames
  have howned := hrun.owned hn (by omega) (started_mmuInitialize numPageFrames malloc)
  have htaken : ∀ v f, m.pageTable.pageMap v = some f → m.bitmaps.taken f.toNat = true :=
    fun v f hv => Bool.eq_true_of_not_eq_false (howned.exclusive.used_not_free v f hv)
  have hinside : ∀ v f, m.pageTable.pageMap v = some f → f.toNat < numPageFrames.toNat := by
    intro v f hv
    have hcov : f.toNat / 32 < bitSize numPageFrames := covers_of_taken (htaken v f hv)
    omega
  refine ⟨fun v f hv => ⟨?_, ?_⟩, ?_, ?_, ?_⟩
  · rw [BitVec.lt_def, toNat_toWord]
    exact hinside v f hv
  · have hcov : f.toNat / 32 < bitSize numPageFrames := covers_of_taken (htaken v f hv)
    have hget := (m.bitmaps.pageframe_accessors (by omega) hcov).1
    have hword : BitVec.ofNat 32 f.toNat = toWord f := by
      apply BitVec.eq_of_toNat_eq
      rw [toNat_toWord, BitVec.toNat_ofNat]
      exact Nat.mod_eq_of_lt (Nat.lt_trans f.isLt (by decide))
    rw [hword, if_pos (htaken v f hv)] at hget
    exact hget
  · exact howned.good.exec_defined.1
  · intro a b op op' m₁ m₂ paddress ha hb
    obtain ⟨f, hf, hpa⟩ := howned.good.address ha
    obtain ⟨g, hg, hpb⟩ := howned.good.address hb
    -- the physical address names the frame, and the frame has one page
    have hsame : f = g := by
      rw [← frameOf_physical f a, ← hpa, hpb, frameOf_physical]
    subst hsame
    have hnat := congrArg BitVec.toNat (hpa.symm.trans hpb)
    rw [toNat_physical, toNat_physical] at hnat
    refine ⟨eq_of_page_offset (howned.exclusive.used_once _ _ f hf hg) (by omega), ?_⟩
    have hlt := hinside _ f hf
    rw [hpa, toNat_physical]
    omega
  · intro b f hget
    have hfree : m.bitmaps.taken f.toNat = false := by
      rcases m.bitmaps.mmuGetFreePageFrame_spec (by omega) with ⟨_, heq⟩ | ⟨g, hg, hfree, _, heq⟩
      · obtain ⟨_, hno⟩ := Prod.mk.inj (Option.some.inj (heq.symm.trans hget))
        exact absurd hno (noFreePageframe_ne_toWord f)
      · obtain ⟨_, hword⟩ := Prod.mk.inj (Option.some.inj (heq.symm.trans hget))
        rw [← toNat_toWord, ← hword, BitVec.toNat_ofNat, Nat.mod_eq_of_lt (by omega)]
        exact hfree
    refine ⟨Bool.eq_false_iff.mpr fun hhand => ?_, fun v hv => ?_⟩
    · exact howned.exclusive.hand_not_free f hhand hfree
    · exact howned.exclusive.used_not_free v f hv hfree

/-- The highest free frame of the garbage `malloc` returned is frame 29. -/
def grantedMmu : Mmu 1 (bitSize 32#32) :=
  { smallMmu with bitmaps := smallMmu.bitmaps.take 29 }

/-- The operating system gets frame 29 and installs page 3 in it. -/
theorem pagingRun_installed : PagingRun smallMmu
    [(.mmu (.install 3#21 29#21), grantedMmu.osInstall 3#21 29#21),
      (.frame (.get (toWord 29#21)), grantedMmu)] (grantedMmu.osInstall 3#21 29#21) := by
  have hget : smallMmu.bitmaps.mmuGetFreePageFrame =
      some (smallMmu.bitmaps.take 29, toWord 29#21) := rfl
  refine .next (.next (.start rfl) ⟨trivial, _, hget, rfl⟩) ⟨⟨rfl, ?_⟩, rfl⟩
  rfl

theorem pageMap_installed :
    (grantedMmu.osInstall 3#21 29#21).pageTable.pageMap 3#21 = some 29#21 := by
  rw [osInstall, PageTable.pageMap_update_zero, Function.update_self]

/-- After that bit 29 of the page frame bitmap is 1, and no other address shares
a byte with address 0x1807. -/
theorem frames_owned_exclusively_installed :
    (grantedMmu.osInstall 3#21 29#21).bitmaps.mmuGetPageframeBitmapValue (toWord 29#21) = some 1 ∧
      ∀ a op op' m₁ m₂ paddress,
        (grantedMmu.osInstall 3#21 29#21).mmuTranslate 0x1807#32 op =
          some (m₁, .address paddress) →
        (grantedMmu.osInstall 3#21 29#21).mmuTranslate a op' = some (m₂, .address paddress) →
          0x1807#32 = a := by
  obtain ⟨hpages, _, hinjective, _⟩ :=
    frames_owned_exclusively (by decide) (by decide) pagingRun_installed
  refine ⟨(hpages _ _ pageMap_installed).2, fun a op op' m₁ m₂ paddress h₁ h₂ => ?_⟩
  exact (hinjective _ _ _ _ _ _ _ h₁ h₂).1

end Mmu

end SimOS
