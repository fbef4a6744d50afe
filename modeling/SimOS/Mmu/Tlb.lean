import SimOS.Mmu.Bitmaps
import SimOS.Library.SlotCache

/-!
# The translation lookaside buffer of `tlb.c`

The TLB is an array of `n = num_tlb_entries` entries of two packed words each.
The bits the masks leave out keep whatever `malloc` returned. A loop over the
array that stops at the first match is a `find?` over the indices in order.
-/

namespace SimOS

variable {n k : ℕ}

/-- `TLB_ENTRY`. -/
structure TlbEntry where
  vbitAndVpage : Word
  mrPframe : Word
  deriving DecidableEq

def vbitMask : Word := 0x80000000#32

def vpageMask : Word := 0x001FFFFF#32

def mbitMask : Word := 0x80000000#32

def rbitMask : Word := 0x40000000#32

def pframeMask : Word := 0x001FFFFF#32

/-- The array `tlb`, the flag `tlb_miss` and the clock hand
`next_vpage_to_check`. -/
structure Tlb (n : ℕ) where
  tlb : Fin n → TlbEntry
  tlbMiss : Bool
  nextVpageToCheck : ℕ

namespace TlbEntry

/-- The test of the loop in `tlb_lookup_vpage`. -/
def isFor (e : TlbEntry) (vpage : Word) : Bool :=
  e.vbitAndVpage &&& vpageMask = vpage ∧ e.vbitAndVpage &&& vbitMask ≠ 0#32

/-- The test of the loops in `tlb_insert_vpage`. -/
def replaceable (e : TlbEntry) : Bool :=
  e.vbitAndVpage &&& vbitMask = 0#32 ∨ e.mrPframe &&& rbitMask = 0#32

/-- The updates of a hit entry. -/
def touch (e : TlbEntry) (op : Operation) : TlbEntry :=
  let e := { e with mrPframe := e.mrPframe ||| rbitMask }
  if op = .store then { e with mrPframe := e.mrPframe ||| mbitMask } else e

/-- The updates of the chosen entry at the end of `tlb_insert_vpage`. -/
def insert (e : TlbEntry) (newVpage newPframe : Word) (newRbit newMbit : ℤ) : TlbEntry :=
  let e := { e with vbitAndVpage := e.vbitAndVpage ||| vbitMask }
  let e := { e with vbitAndVpage := e.vbitAndVpage &&& ~~~vpageMask }
  let e := { e with vbitAndVpage := e.vbitAndVpage ||| newVpage }
  -- bits 21 to 30 of the first word are still those of the old entry
  let e := { e with mrPframe := e.mrPframe &&& ~~~pframeMask }
  let e := { e with mrPframe := e.mrPframe ||| newPframe }
  let e :=
    if newRbit ≠ 0 then { e with mrPframe := e.mrPframe ||| rbitMask }
    else { e with mrPframe := e.mrPframe &&& ~~~rbitMask }
  if newMbit ≠ 0 then { e with mrPframe := e.mrPframe ||| mbitMask }
  else { e with mrPframe := e.mrPframe &&& ~~~mbitMask }

/-- The block, found in both `tlb_insert_vpage` and `tlb_write_back_r_m_bits`,
that writes the bits of a valid entry to the bitmaps. -/
def writeBack (e : TlbEntry) (b : Bitmaps k) : Option (Bitmaps k) :=
  if e.vbitAndVpage &&& vbitMask ≠ 0#32 then
    let pframe := e.mrPframe &&& pframeMask
    let mbit : ℤ := if e.mrPframe &&& mbitMask ≠ 0#32 then 1 else 0
    let rbit : ℤ := if e.mrPframe &&& rbitMask ≠ 0#32 then 1 else 0
    (b.mmuModifyMbitInBitmap pframe mbit).bind fun b => b.mmuModifyRbitInBitmap pframe rbit
  else some b

end TlbEntry

namespace Tlb

def tlbClearAll (t : Tlb n) : Tlb n :=
  { t with
    tlb := fun i => { t.tlb i with vbitAndVpage := (t.tlb i).vbitAndVpage &&& ~~~vbitMask } }

/-- `garbage` is what `malloc` returns. -/
def tlbInitialize (t : Tlb n) (garbage : Fin n → TlbEntry) : Tlb n :=
  tlbClearAll { t with tlb := garbage }

def tlbClearRBits (t : Tlb n) : Tlb n :=
  { t with tlb := fun i => { t.tlb i with mrPframe := (t.tlb i).mrPframe &&& ~~~rbitMask } }

def tlbClearEntry (t : Tlb n) (vpage : Word) : Tlb n :=
  { t with
    tlb := fun i =>
      -- the source does not look at the valid bit here
      if (t.tlb i).vbitAndVpage &&& vpageMask = vpage then
        { t.tlb i with vbitAndVpage := (t.tlb i).vbitAndVpage &&& ~~~vbitMask }
      else t.tlb i }

def tlbLookupVpage (t : Tlb n) (vpage : Word) (op : Operation) : Tlb n × Word :=
  match (List.finRange n).find? fun i => (t.tlb i).isFor vpage with
  | some i =>
    let e := (t.tlb i).touch op
    ({ t with tlb := Function.update t.tlb i e, tlbMiss := false }, e.mrPframe &&& pframeMask)
  | none => ({ t with tlbMiss := true }, 0#32)

/-- The entry to write to and the next clock hand. The first loop runs from the
hand to the end, the second from the start to the hand; when both fail the
entry at the hand is taken, which is undefined if the hand is outside. -/
def findSlot (t : Tlb n) : Option (Fin n × ℕ) :=
  match (List.finRange n).find? fun i =>
      decide (t.nextVpageToCheck ≤ i.val) && (t.tlb i).replaceable with
  | some i => some (i, (i.val + 1) % n)
  | none =>
    match (List.finRange n).find? fun i =>
        decide (i.val < t.nextVpageToCheck) && (t.tlb i).replaceable with
    | some i => some (i, (i.val + 1) % n)
    | none =>
      if h : t.nextVpageToCheck < n then
        some (⟨t.nextVpageToCheck, h⟩, (t.nextVpageToCheck + 1) % n)
      else none

def tlbInsertVpage (t : Tlb n) (b : Bitmaps k) (newVpage newPframe : Word)
    (newRbit newMbit : ℤ) : Option (Tlb n × Bitmaps k) :=
  t.findSlot.bind fun (found, hand) =>
    ((t.tlb found).writeBack b).map fun b =>
      ({ t with
          tlb := Function.update t.tlb found
            ((t.tlb found).insert newVpage newPframe newRbit newMbit)
          nextVpageToCheck := hand }, b)

def tlbWriteBackRMBits (t : Tlb n) (b : Bitmaps k) : Option (Bitmaps k) :=
  (List.finRange n).foldlM (fun b i => (t.tlb i).writeBack b) b

end Tlb

/-! ## The fields of an entry -/

namespace TlbEntry

def valid (e : TlbEntry) : Bool := e.vbitAndVpage.getLsbD 31

def vpage (e : TlbEntry) : Vpage := low21 e.vbitAndVpage

def pframe (e : TlbEntry) : Frame := low21 e.mrPframe

/-- The R and M bits. -/
def rm (e : TlbEntry) : Bool × Bool := (e.mrPframe.getLsbD 30, e.mrPframe.getLsbD 31)

end TlbEntry

theorem vbitMask_eq : vbitMask = BitVec.twoPow 32 31 := by decide

theorem mbitMask_eq : mbitMask = BitVec.twoPow 32 31 := by decide

theorem rbitMask_eq : rbitMask = BitVec.twoPow 32 30 := by decide

theorem getLsbD_vpageMask (i : ℕ) : vpageMask.getLsbD i = decide (i < 21) :=
  getLsbD_lowMask 21 i (by decide)

theorem getLsbD_pframeMask (i : ℕ) : pframeMask.getLsbD i = decide (i < 21) :=
  getLsbD_lowMask 21 i (by decide)

theorem getLsbD_vbitMask (i : ℕ) : vbitMask.getLsbD i = decide (31 = i) := by
  simp [vbitMask_eq, BitVec.getLsbD_twoPow]

theorem getLsbD_mbitMask (i : ℕ) : mbitMask.getLsbD i = decide (31 = i) := by
  simp [mbitMask_eq, BitVec.getLsbD_twoPow]

theorem getLsbD_rbitMask (i : ℕ) : rbitMask.getLsbD i = decide (30 = i) := by
  simp [rbitMask_eq, BitVec.getLsbD_twoPow]

theorem and_vbitMask (x : Word) : x &&& vbitMask ≠ 0#32 ↔ x.getLsbD 31 = true := by
  rw [vbitMask_eq, and_twoPow_ne_zero (by decide)]

theorem and_mbitMask (x : Word) : x &&& mbitMask ≠ 0#32 ↔ x.getLsbD 31 = true := by
  rw [mbitMask_eq, and_twoPow_ne_zero (by decide)]

theorem and_rbitMask (x : Word) : x &&& rbitMask ≠ 0#32 ↔ x.getLsbD 30 = true := by
  rw [rbitMask_eq, and_twoPow_ne_zero (by decide)]

/-- Words with the same bits below 21 hold the same page or frame number. -/
theorem low21_congr {x y : Word} (h : ∀ i < 21, x.getLsbD i = y.getLsbD i) :
    low21 x = low21 y := by
  refine BitVec.eq_of_getLsbD_eq fun i hi => ?_
  rw [getLsbD_low21, getLsbD_low21, h i hi]

/-- The bits of a word under the masks of this file. -/
theorem getLsbD_andNot (x mask : Word) {i : ℕ} (hi : i < 32) :
    (x &&& ~~~mask).getLsbD i = (x.getLsbD i && !mask.getLsbD i) := by
  rw [BitVec.getLsbD_and, BitVec.getLsbD_not, decide_eq_true hi, Bool.true_and]

namespace TlbEntry

theorem isFor_iff (e : TlbEntry) (v : Vpage) :
    e.isFor (toWord v) = true ↔ e.valid = true ∧ e.vpage = v := by
  rw [isFor, decide_eq_true_eq, and_vbitMask, vpageMask, and_mask21, toWord_inj,
    and_comm]
  rfl

@[simp] theorem touch_valid (e : TlbEntry) (op : Operation) : (e.touch op).valid = e.valid := by
  cases op <;> rfl

@[simp] theorem touch_vpage (e : TlbEntry) (op : Operation) : (e.touch op).vpage = e.vpage := by
  cases op <;> rfl

@[simp] theorem touch_pframe (e : TlbEntry) (op : Operation) :
    (e.touch op).pframe = e.pframe := by
  refine low21_congr fun i hi => ?_
  have h30 : 30 ≠ i := by omega
  have h31 : 31 ≠ i := by omega
  cases op <;>
    simp [touch, BitVec.getLsbD_or, getLsbD_rbitMask, getLsbD_mbitMask, h30, h31]

/-- A hit sets the R bit, and the M bit when the operation is a store. -/
@[simp] theorem touch_rm (e : TlbEntry) (op : Operation) :
    (e.touch op).rm = (true, decide (op = .store) || e.rm.2) := by
  cases op <;>
    simp [touch, rm, BitVec.getLsbD_or, getLsbD_rbitMask, getLsbD_mbitMask,
      -BitVec.getLsbD_eq_getElem]

section Insert

variable (e : TlbEntry) (v : Vpage) (f : Frame) (newRbit newMbit : ℤ)

theorem insert_vbitAndVpage :
    (e.insert (toWord v) (toWord f) newRbit newMbit).vbitAndVpage =
      ((e.vbitAndVpage ||| vbitMask) &&& ~~~vpageMask) ||| toWord v := by
  unfold insert
  split_ifs <;> rfl

@[simp] theorem insert_valid : (e.insert (toWord v) (toWord f) newRbit newMbit).valid = true := by
  rw [valid, insert_vbitAndVpage, BitVec.getLsbD_or, getLsbD_andNot _ _ (by decide),
    BitVec.getLsbD_or, getLsbD_vbitMask, getLsbD_vpageMask]
  simp

@[simp] theorem insert_vpage : (e.insert (toWord v) (toWord f) newRbit newMbit).vpage = v := by
  refine BitVec.eq_of_getLsbD_eq fun i hi => ?_
  rw [vpage, insert_vbitAndVpage, getLsbD_low21, BitVec.getLsbD_or,
    getLsbD_andNot _ _ (by omega), getLsbD_vpageMask, getLsbD_toWord]
  simp only [hi, decide_true, Bool.not_true, Bool.and_false, Bool.false_or, Bool.true_and]

@[simp] theorem insert_pframe : (e.insert (toWord v) (toWord f) newRbit newMbit).pframe = f := by
  refine BitVec.eq_of_getLsbD_eq fun i hi => ?_
  have h30 : 30 ≠ i := by omega
  have h31 : 31 ≠ i := by omega
  have hi32 : i < 32 := by omega
  rw [pframe, getLsbD_low21]
  unfold insert
  split_ifs <;>
    simp only [BitVec.getLsbD_or, getLsbD_andNot _ _ hi32, getLsbD_pframeMask, getLsbD_rbitMask,
      getLsbD_mbitMask, getLsbD_toWord, hi, h30, h31, decide_true, decide_false, Bool.not_true,
      Bool.not_false, Bool.and_false, Bool.and_true, Bool.or_false, Bool.false_or, Bool.true_and]

@[simp] theorem insert_rm :
    (e.insert (toWord v) (toWord f) newRbit newMbit).rm =
      (decide (newRbit ≠ 0), decide (newMbit ≠ 0)) := by
  unfold insert rm
  split_ifs <;>
    simp_all [BitVec.getLsbD_or, getLsbD_rbitMask, getLsbD_mbitMask,
      -BitVec.getLsbD_eq_getElem]

end Insert

/-- The bits of a valid entry go to its frame; an invalid entry writes nothing. -/
theorem writeBack_eq (e : TlbEntry) (b : Bitmaps k)
    (hcover : e.valid = true → Bitmaps.Covers k e.pframe) :
    e.writeBack b = some (if e.valid then b.writeRm e.pframe e.rm else b) := by
  have hpf : e.mrPframe &&& pframeMask = toWord e.pframe := and_mask21 _
  unfold writeBack
  simp only [and_vbitMask, and_mbitMask, and_rbitMask, hpf]
  by_cases hv : e.valid = true
  · have hv' : e.vbitAndVpage.getLsbD 31 = true := hv
    rw [if_pos hv', if_pos hv, Bitmaps.modify_m_r (hcover hv)]
    congr 2
    simp [rm]
  · have hv' : ¬e.vbitAndVpage.getLsbD 31 = true := hv
    rw [if_neg hv', if_neg hv]

/-- The write-back is undefined only for a frame whose word is outside the bitmaps. -/
theorem writeBack_eq_some {e : TlbEntry} {b b' : Bitmaps k} (h : e.writeBack b = some b') :
    (e.valid = true → Bitmaps.Covers k e.pframe) ∧
      b' = if e.valid then b.writeRm e.pframe e.rm else b := by
  have hcover : e.valid = true → Bitmaps.Covers k e.pframe := by
    intro hv
    by_contra hout
    have hpf : e.mrPframe &&& pframeMask = toWord e.pframe := and_mask21 _
    unfold writeBack at h
    simp only [and_vbitMask, hpf, Bitmaps.modify_m_of_not_covers hout, Option.bind_none] at h
    rw [if_pos (show e.vbitAndVpage.getLsbD 31 = true from hv)] at h
    cases h
  refine ⟨hcover, ?_⟩
  rw [writeBack_eq e b hcover] at h
  exact (Option.some.inj h).symm

/-- An entry may be replaced when it is not valid or was not referenced. -/
theorem replaceable_iff (e : TlbEntry) :
    e.replaceable = true ↔ e.valid = false ∨ e.rm.1 = false := by
  have hv := not_congr (and_vbitMask e.vbitAndVpage)
  have hr := not_congr (and_rbitMask e.mrPframe)
  rw [not_not, Bool.not_eq_true] at hv hr
  rw [replaceable, decide_eq_true_eq]
  exact or_congr hv hr

@[simp] theorem valid_clear (e : TlbEntry) :
    valid { e with vbitAndVpage := e.vbitAndVpage &&& ~~~vbitMask } = false := by
  rw [valid, getLsbD_andNot _ _ (by decide), getLsbD_vbitMask]
  simp

@[simp] theorem pframe_clearR (e : TlbEntry) :
    pframe { e with mrPframe := e.mrPframe &&& ~~~rbitMask } = e.pframe := by
  refine low21_congr fun i hi => ?_
  have h30 : 30 ≠ i := by omega
  rw [getLsbD_andNot _ _ (by omega), getLsbD_rbitMask]
  simp [h30]

@[simp] theorem rm_clearR (e : TlbEntry) :
    rm { e with mrPframe := e.mrPframe &&& ~~~rbitMask } = (false, e.rm.2) := by
  simp [rm, getLsbD_rbitMask, -BitVec.getLsbD_eq_getElem]

end TlbEntry

/-! ## The TLB as a cache -/

namespace Tlb

open Library

/-- Entry `i` is a valid entry for the page. -/
def Hits (t : Tlb n) (v : Vpage) (i : Fin n) : Prop :=
  (t.tlb i).valid = true ∧ (t.tlb i).vpage = v

instance (t : Tlb n) (v : Vpage) (i : Fin n) : Decidable (t.Hits v i) :=
  inferInstanceAs (Decidable (_ ∧ _))

/-- The valid entries, keyed by their pages. -/
def byPage (t : Tlb n) : SlotCache.Slots n Vpage (Frame × Bool × Bool) := fun i =>
  if (t.tlb i).valid then some ((t.tlb i).vpage, (t.tlb i).pframe, (t.tlb i).rm) else none

/-- The valid entries, keyed by their frames. -/
def byFrame (t : Tlb n) : SlotCache.Slots n Frame (Bool × Bool) := fun i =>
  (t.byPage i).map Prod.snd

theorem byPage_eq_some {t : Tlb n} {i : Fin n} {v : Vpage} {x : Frame × Bool × Bool} :
    t.byPage i = some (v, x) ↔ t.Hits v i ∧ (t.tlb i).pframe = x.1 ∧ (t.tlb i).rm = x.2 := by
  unfold byPage Hits
  split_ifs with h <;> simp [h, Prod.ext_iff]

theorem Hits.byPage {t : Tlb n} {i : Fin n} {v : Vpage} (h : t.Hits v i) :
    t.byPage i = some (v, (t.tlb i).pframe, (t.tlb i).rm) :=
  byPage_eq_some.mpr ⟨h, rfl, rfl⟩

theorem byPage_of_valid {t : Tlb n} {i : Fin n} (h : (t.tlb i).valid = true) :
    t.byPage i = some ((t.tlb i).vpage, (t.tlb i).pframe, (t.tlb i).rm) :=
  if_pos h

theorem byPage_of_invalid {t : Tlb n} {i : Fin n} (h : (t.tlb i).valid = false) :
    t.byPage i = none := by
  rw [byPage, h]
  rfl

theorem absent_byPage {t : Tlb n} {v : Vpage} :
    SlotCache.Absent t.byPage v ↔ ∀ i, ¬t.Hits v i :=
  ⟨fun h i hi => h i _ hi.byPage, fun h i _ hx => h i (byPage_eq_some.mp hx).1⟩

/-- A lookup hits a valid entry for the page, touches it and returns its frame,
or there is none and it only reports the miss. -/
theorem tlbLookupVpage_cases (t : Tlb n) (v : Vpage) (op : Operation) :
    (∃ i, t.Hits v i ∧
      t.tlbLookupVpage (toWord v) op =
        ({ t with tlb := Function.update t.tlb i ((t.tlb i).touch op), tlbMiss := false },
          toWord (t.tlb i).pframe)) ∨
    ((∀ i, ¬t.Hits v i) ∧
      t.tlbLookupVpage (toWord v) op = ({ t with tlbMiss := true }, 0#32)) := by
  unfold tlbLookupVpage
  cases hfind : (List.finRange n).find? fun i => (t.tlb i).isFor (toWord v) with
  | none =>
    right
    refine ⟨fun i hi => ?_, rfl⟩
    exact List.find?_eq_none.mp hfind i (List.mem_finRange i) ((TlbEntry.isFor_iff _ _).mpr hi)
  | some i =>
    left
    have hfor : (t.tlb i).isFor (toWord v) = true := by
      simpa only using List.find?_some hfind
    refine ⟨i, (TlbEntry.isFor_iff _ _).mp hfor, ?_⟩
    have hpf : ((t.tlb i).touch op).mrPframe &&& pframeMask = toWord ((t.tlb i).touch op).pframe :=
      and_mask21 _
    simp only [hpf, TlbEntry.touch_pframe]

/-- With the hand inside the array the search finds an entry. -/
theorem findSlot_isSome {t : Tlb n} (hhand : t.nextVpageToCheck < n) :
    ∃ i hand, t.findSlot = some (i, hand) := by
  unfold findSlot
  split
  · exact ⟨_, _, rfl⟩
  · split
    · exact ⟨_, _, rfl⟩
    · rw [dif_pos hhand]
      exact ⟨_, _, rfl⟩

/-- Every valid entry's frame has its word inside the bitmaps. -/
def Covered (t : Tlb n) (k : ℕ) : Prop :=
  ∀ i, (t.tlb i).valid = true → Bitmaps.Covers k (t.tlb i).pframe

/-- Writing an entry back is the write-back of its slot. -/
theorem writeBack_rm {t : Tlb n} (hcov : t.Covered k) (b : Bitmaps k) (i : Fin n) :
    ∃ b', (t.tlb i).writeBack b = some b' ∧
      b'.rm = SlotCache.writeBack b.rm (t.byFrame i) ∧
      b'.pageframeBitmap = b.pageframeBitmap := by
  refine ⟨_, TlbEntry.writeBack_eq _ b (hcov i), ?_, ?_⟩
  · unfold byFrame
    by_cases hv : (t.tlb i).valid = true
    · rw [if_pos hv, byPage_of_valid hv, Bitmaps.rm_writeRm (hcov i hv)]
      rfl
    · rw [if_neg hv, byPage_of_invalid (Bool.not_eq_true _ ▸ hv)]
      rfl
  · split <;> rfl

/-- However the search ends, the new hand is inside the array. -/
theorem findSlot_hand_lt {t : Tlb n} {i : Fin n} {hand : ℕ} (h : t.findSlot = some (i, hand)) :
    hand < n := by
  have hn : 0 < n := Nat.zero_lt_of_lt i.isLt
  unfold findSlot at h
  split at h
  · rw [Option.some.injEq, Prod.mk.injEq] at h
    rw [← h.2]
    exact Nat.mod_lt _ hn
  · split at h
    · rw [Option.some.injEq, Prod.mk.injEq] at h
      rw [← h.2]
      exact Nat.mod_lt _ hn
    · split_ifs at h
      rw [Option.some.injEq, Prod.mk.injEq] at h
      rw [← h.2]
      exact Nat.mod_lt _ hn

theorem tlbLookupVpage_hand (t : Tlb n) (vpage : Word) (op : Operation) :
    (t.tlbLookupVpage vpage op).1.nextVpageToCheck = t.nextVpageToCheck := by
  unfold tlbLookupVpage
  split <;> rfl

/-- Whatever is inserted, the hand ends up at a slot. -/
theorem tlbInsertVpage_hand_lt {t t' : Tlb n} {b b' : Bitmaps k} {vpage pframe : Word}
    {newRbit newMbit : ℤ}
    (h : t.tlbInsertVpage b vpage pframe newRbit newMbit = some (t', b')) :
    t'.nextVpageToCheck < n := by
  obtain ⟨⟨i, hand⟩, hfind, hrest⟩ := Option.bind_eq_some_iff.mp h
  obtain ⟨_, _, heq⟩ := Option.map_eq_some_iff.mp hrest
  rw [Prod.mk.injEq] at heq
  rw [← heq.1]
  exact findSlot_hand_lt hfind

/-- An insertion overwrites the entry the search found and writes the previous
one back. -/
theorem tlbInsertVpage_spec {t : Tlb n} (hcov : t.Covered k) {i : Fin n} {hand : ℕ}
    (hfind : t.findSlot = some (i, hand)) (b : Bitmaps k) (newVpage newPframe : Word)
    (newRbit newMbit : ℤ) :
    ∃ b', t.tlbInsertVpage b newVpage newPframe newRbit newMbit =
        some ({ t with
          tlb := Function.update t.tlb i
            ((t.tlb i).insert newVpage newPframe newRbit newMbit)
          nextVpageToCheck := hand }, b') ∧
      b'.rm = SlotCache.writeBack b.rm (t.byFrame i) ∧
      b'.pageframeBitmap = b.pageframeBitmap := by
  obtain ⟨b', hb', hrm, hpf⟩ := writeBack_rm hcov b i
  refine ⟨b', ?_, hrm, hpf⟩
  simp only [tlbInsertVpage, hfind, Option.bind_some, hb', Option.map_some]

/-! How the operations change the valid entries. -/

theorem byPage_update (t : Tlb n) (i : Fin n) (e : TlbEntry) (miss : Bool) (hand : ℕ) :
    byPage { tlb := Function.update t.tlb i e, tlbMiss := miss, nextVpageToCheck := hand } =
      Function.update t.byPage i (if e.valid then some (e.vpage, e.pframe, e.rm) else none) := by
  funext j
  by_cases hj : j = i
  · subst hj
    simp [byPage]
  · simp [byPage, Function.update_of_ne hj]

theorem byPage_tlbClearRBits (t : Tlb n) (i : Fin n) :
    t.tlbClearRBits.byPage i = (t.byPage i).map fun x => (x.1, x.2.1, false, x.2.2.2) := by
  have hvalid : (t.tlbClearRBits.tlb i).valid = (t.tlb i).valid := rfl
  have hvpage : (t.tlbClearRBits.tlb i).vpage = (t.tlb i).vpage := rfl
  have hpframe : (t.tlbClearRBits.tlb i).pframe = (t.tlb i).pframe :=
    TlbEntry.pframe_clearR _
  have hrm : (t.tlbClearRBits.tlb i).rm = (false, (t.tlb i).rm.2) := TlbEntry.rm_clearR _
  unfold byPage
  rw [hvalid, hvpage, hpframe, hrm]
  split <;> rfl

theorem byPage_tlbClearEntry (t : Tlb n) (v : Vpage) (i : Fin n) :
    (t.tlbClearEntry (toWord v)).byPage i = (t.byPage i).filter fun x => x.1 ≠ v := by
  have hmask : (t.tlb i).vbitAndVpage &&& SimOS.vpageMask = toWord (t.tlb i).vpage := and_mask21 _
  by_cases hv : (t.tlb i).vpage = v
  · have hclear : ((t.tlbClearEntry (toWord v)).tlb i).valid = false := by
      simp only [tlbClearEntry, hmask, hv, if_true, TlbEntry.valid_clear]
    rw [byPage_of_invalid hclear]
    cases hval : (t.tlb i).valid
    · rw [byPage_of_invalid hval]
      rfl
    · rw [byPage_of_valid hval]
      simp [Option.filter, hv]
  · have hsame : (t.tlbClearEntry (toWord v)).tlb i = t.tlb i := by
      simp only [tlbClearEntry, hmask, toWord_inj, hv, if_false]
    unfold byPage
    rw [hsame]
    split
    · simp [Option.filter, hv]
    · rfl

/-- Writing all entries back flushes the cache into the bitmaps. -/
theorem tlbWriteBackRMBits_spec {t : Tlb n} (hcov : t.Covered k) (b : Bitmaps k) :
    ∃ b', t.tlbWriteBackRMBits b = some b' ∧
      b'.rm = SlotCache.flush t.byFrame (List.finRange n) b.rm ∧
      b'.pageframeBitmap = b.pageframeBitmap := by
  unfold tlbWriteBackRMBits
  -- the induction is on the entries that are left, from any bitmaps
  generalize List.finRange n = is
  induction is generalizing b with
  | nil => exact ⟨b, rfl, rfl, rfl⟩
  | cons i is ih =>
    obtain ⟨b₁, hb₁, hrm₁, hpf₁⟩ := writeBack_rm hcov b i
    obtain ⟨b₂, hb₂, hrm₂, hpf₂⟩ := ih b₁
    refine ⟨b₂, ?_, ?_, hpf₂.trans hpf₁⟩
    · rw [List.foldlM_cons, hb₁]
      exact hb₂
    · rw [hrm₂, hrm₁]
      rfl

end Tlb

end SimOS
