import SimOS.Mmu.Tlb
import SimOS.Library.CyclicSearch
import SimOS.Library.Run

/-!
# Runs of the TLB alone

Every operation of `tlb.c`, in any order, from the array that `malloc` left to
`tlb_initialize`. The bitmaps of the MMU are part of the state, because an
insertion may write an entry back.

The two loops of `tlb_insert_vpage` and what follows them are one search around
the circle of slots, so an insertion is a step of the clock algorithm.
-/

namespace SimOS

open Library
open Library.CyclicSearch (First)
open Library.PackedBits (bit)

variable {n k : ℕ}

/-- A call of one of the procedures of `tlb.c` after `tlb_initialize`. -/
inductive TlbEvent
  | lookup (v : Vpage) (op : Operation)
  | insert (v : Vpage) (f : Frame) (newRbit newMbit : ℤ)
  | clearEntry (v : Vpage)
  | clearAll
  | clearRBits
  | writeBack

namespace Tlb

/-- What a call does to the TLB and to the bitmaps. -/
def Exec (s : Tlb n × Bitmaps k) : TlbEvent → Tlb n × Bitmaps k → Prop
  | .lookup v op, s' => s' = ((s.1.tlbLookupVpage (toWord v) op).1, s.2)
  | .insert v f newRbit newMbit, s' =>
      s.1.tlbInsertVpage s.2 (toWord v) (toWord f) newRbit newMbit = some s'
  | .clearEntry v, s' => s' = (s.1.tlbClearEntry (toWord v), s.2)
  | .clearAll, s' => s' = (s.1.tlbClearAll, s.2)
  | .clearRBits, s' => s' = (s.1.tlbClearRBits, s.2)
  | .writeBack, s' => s'.1 = s.1 ∧ s.1.tlbWriteBackRMBits s.2 = some s'.2

/-- After `tlb_initialize`, whatever `malloc` returned and whatever the bitmaps hold. -/
def Initialized (s : Tlb n × Bitmaps k) : Prop :=
  ∃ (t : Tlb n) (garbage : Fin n → TlbEntry),
    t.nextVpageToCheck = 0 ∧ s.1 = t.tlbInitialize garbage

/-- A run of any operations in any order. -/
def TlbRun : List (TlbEvent × Tlb n × Bitmaps k) → Tlb n × Bitmaps k → Prop :=
  Run Initialized fun _ s e s' => Exec s e s'

/-! ## The slot an insertion takes -/

/-- The slot the clock algorithm takes: the first one around the circle that is
not valid or was not referenced, or the one at the hand when there is none. -/
def Chosen (t : Tlb n) (hand slot : Fin n) : Prop :=
  First (fun i => (t.tlb i).valid = false ∨ (t.tlb i).rm.1 = false) hand slot ∨
    (∀ i, (t.tlb i).valid = true ∧ (t.tlb i).rm.1 = true) ∧ slot = hand

/-- The two loops and the fallback are one search around the circle. -/
theorem findSlot_spec {t : Tlb n} (hhand : t.nextVpageToCheck < n) :
    ∃ slot : Fin n, t.findSlot = some (slot, (slot.val + 1) % n) ∧
      t.Chosen ⟨t.nextVpageToCheck, hhand⟩ slot := by
  have hnot : ∀ i, (t.tlb i).replaceable = false →
      ¬((t.tlb i).valid = false ∨ (t.tlb i).rm.1 = false) := by
    intro i hi hfree
    rw [← TlbEntry.replaceable_iff, hi] at hfree
    cases hfree
  unfold findSlot
  split
  · next i hfind =>
    refine ⟨i, rfl, .inl ?_⟩
    rw [← Fin.find?_eq_find?_finRange, Fin.find?_eq_some_iff] at hfind
    obtain ⟨hi, hbefore⟩ := hfind
    rw [Bool.and_eq_true, decide_eq_true_eq] at hi
    apply First.front hi.1 ((TlbEntry.replaceable_iff _).mp hi.2)
    intro j hle hlt
    have hj := hbefore j hlt
    rw [decide_eq_true (show t.nextVpageToCheck ≤ j.val from hle), Bool.true_and] at hj
    exact hnot j hj
  · next hfront =>
    rw [← Fin.find?_eq_find?_finRange, Fin.find?_eq_none_iff] at hfront
    have hfront' : ∀ j : Fin n, t.nextVpageToCheck ≤ j.val → (t.tlb j).replaceable = false := by
      intro j hle
      have hj := hfront j
      rwa [decide_eq_true hle, Bool.true_and] at hj
    split
    · next i hfind =>
      refine ⟨i, rfl, .inl ?_⟩
      rw [← Fin.find?_eq_find?_finRange, Fin.find?_eq_some_iff] at hfind
      obtain ⟨hi, hbefore⟩ := hfind
      rw [Bool.and_eq_true, decide_eq_true_eq] at hi
      apply First.back (Fin.lt_def.mpr hi.1) ((TlbEntry.replaceable_iff _).mp hi.2)
      · intro j hle
        exact hnot j (hfront' j hle)
      · intro j hlt
        have hj := hbefore j hlt
        rw [decide_eq_true (lt_trans (Fin.lt_def.mp hlt) hi.1), Bool.true_and] at hj
        exact hnot j hj
    · next hback =>
      -- neither loop found a slot
      rw [← Fin.find?_eq_find?_finRange, Fin.find?_eq_none_iff] at hback
      rw [dif_pos hhand]
      refine ⟨⟨t.nextVpageToCheck, hhand⟩, rfl, .inr ⟨fun i => ?_, rfl⟩⟩
      have hi : (t.tlb i).replaceable = false := by
        by_cases hle : t.nextVpageToCheck ≤ i.val
        · exact hfront' i hle
        · have hi := hback i
          rwa [decide_eq_true (Nat.lt_of_not_le hle), Bool.true_and] at hi
      have hfull := hnot i hi
      rw [not_or, Bool.not_eq_false, Bool.not_eq_false] at hfull
      exact hfull

/-- What an insertion into a slot does: the slot holds the new entry, the hand
points behind it, and the bits of a valid old entry went to its frame. -/
structure InsertedAt (t : Tlb n) (b : Bitmaps k) (slot : Fin n) (v : Vpage) (f : Frame)
    (newRbit newMbit : ℤ) (t' : Tlb n) (b' : Bitmaps k) : Prop where
  valid : (t'.tlb slot).valid = true
  vpage : (t'.tlb slot).vpage = v
  pframe : (t'.tlb slot).pframe = f
  rm : (t'.tlb slot).rm = (decide (newRbit ≠ 0), decide (newMbit ≠ 0))
  others : ∀ i, i ≠ slot → t'.tlb i = t.tlb i
  hand : t'.nextVpageToCheck = (slot.val + 1) % n
  kept : (t.tlb slot).valid = false → b' = b
  written : (t.tlb slot).valid = true → ∀ g,
    bit b'.rbitBitmap g =
        (if g = (t.tlb slot).pframe.toNat then (t.tlb slot).rm.1 else bit b.rbitBitmap g) ∧
      bit b'.mbitBitmap g =
        if g = (t.tlb slot).pframe.toNat then (t.tlb slot).rm.2 else bit b.mbitBitmap g
  pageframeBitmap : b'.pageframeBitmap = b.pageframeBitmap

/-- Writing the old entry back and the new one into its slot. -/
theorem insertedAt {t : Tlb n} {b b' : Bitmaps k} {slot : Fin n}
    (hback : (t.tlb slot).writeBack b = some b') (v : Vpage) (f : Frame) (newRbit newMbit : ℤ) :
    InsertedAt t b slot v f newRbit newMbit
      { t with
        tlb := Function.update t.tlb slot
          ((t.tlb slot).insert (toWord v) (toWord f) newRbit newMbit)
        nextVpageToCheck := (slot.val + 1) % n } b' := by
  obtain ⟨hcover, hb⟩ := TlbEntry.writeBack_eq_some hback
  constructor
  · simp only [Function.update_self, TlbEntry.insert_valid]
  · simp only [Function.update_self, TlbEntry.insert_vpage]
  · simp only [Function.update_self, TlbEntry.insert_pframe]
  · simp only [Function.update_self, TlbEntry.insert_rm]
  · intro i hi
    exact Function.update_of_ne hi _ _
  · rfl
  · intro hv
    rw [hb, hv]
    rfl
  · intro hv g
    rw [hb, if_pos hv]
    exact Bitmaps.bit_writeRm (hcover hv) _ g
  · rw [hb]
    split <;> rfl

/-- An insertion goes to the chosen slot, and is undefined only if the frame of
a valid entry there has no word in the bitmaps. -/
theorem tlbInsertVpage_chosen {t : Tlb n} (hhand : t.nextVpageToCheck < n) (b : Bitmaps k)
    (v : Vpage) (f : Frame) (newRbit newMbit : ℤ) :
    ∃ slot, t.Chosen ⟨t.nextVpageToCheck, hhand⟩ slot ∧
      (((t.tlb slot).valid = true → Bitmaps.Covers k (t.tlb slot).pframe) →
        ∃ s', t.tlbInsertVpage b (toWord v) (toWord f) newRbit newMbit = some s') ∧
      ∀ t' b', t.tlbInsertVpage b (toWord v) (toWord f) newRbit newMbit = some (t', b') →
        InsertedAt t b slot v f newRbit newMbit t' b' := by
  obtain ⟨slot, hfind, hchosen⟩ := findSlot_spec hhand
  refine ⟨slot, hchosen, fun hcover => ?_, fun t' b' h => ?_⟩
  · have hback := TlbEntry.writeBack_eq (t.tlb slot) b hcover
    simp only [tlbInsertVpage, hfind, Option.bind_some, hback, Option.map_some]
    exact ⟨_, rfl⟩
  · simp only [tlbInsertVpage, hfind, Option.bind_some, Option.map_eq_some_iff] at h
    obtain ⟨b₁, hback, heq⟩ := h
    rw [Prod.mk.injEq] at heq
    obtain ⟨rfl, rfl⟩ := heq
    exact insertedAt hback v f newRbit newMbit

/-- No operation moves the hand out of the array. -/
theorem Exec.hand_lt {s s' : Tlb n × Bitmaps k} (hs : s.1.nextVpageToCheck < n) {e : TlbEvent}
    (h : Exec s e s') : s'.1.nextVpageToCheck < n := by
  cases e with
  | lookup v op =>
    obtain rfl : s' = ((s.1.tlbLookupVpage (toWord v) op).1, s.2) := h
    exact (tlbLookupVpage_hand s.1 (toWord v) op).trans_lt hs
  | insert v f newRbit newMbit => exact tlbInsertVpage_hand_lt h
  | clearEntry v =>
    obtain rfl : s' = (s.1.tlbClearEntry (toWord v), s.2) := h
    exact hs
  | clearAll =>
    obtain rfl : s' = (s.1.tlbClearAll, s.2) := h
    exact hs
  | clearRBits =>
    obtain rfl : s' = (s.1.tlbClearRBits, s.2) := h
    exact hs
  | writeBack =>
    rw [h.1]
    exact hs

theorem TlbRun.hand_lt (hn : 0 < n) {h : List (TlbEvent × Tlb n × Bitmaps k)}
    {s : Tlb n × Bitmaps k} (hrun : TlbRun h s) : s.1.nextVpageToCheck < n := by
  refine Run.invariant (P := fun _ s => s.1.nextVpageToCheck < n) ?_ ?_ hrun
  · rintro s ⟨t, garbage, hzero, hs⟩
    rw [hs]
    show t.nextVpageToCheck < n
    omega
  · intro h s e s' _ ih hs
    exact Exec.hand_lt ih hs

/-- In every state reached the clock hand is inside the array, and from there an
insertion into a TLB with any contents is a step of the clock algorithm. -/
theorem insert_is_clock (hn : 0 < n) :
    (∀ (h : List (TlbEvent × Tlb n × Bitmaps k)) (s : Tlb n × Bitmaps k), TlbRun h s →
      s.1.nextVpageToCheck < n) ∧
    ∀ (t : Tlb n) (b : Bitmaps k) (v : Vpage) (f : Frame) (newRbit newMbit : ℤ)
      (hhand : t.nextVpageToCheck < n),
      ∃ slot, t.Chosen ⟨t.nextVpageToCheck, hhand⟩ slot ∧
        (((t.tlb slot).valid = true → Bitmaps.Covers k (t.tlb slot).pframe) →
          ∃ s', t.tlbInsertVpage b (toWord v) (toWord f) newRbit newMbit = some s') ∧
        ∀ t' b', t.tlbInsertVpage b (toWord v) (toWord f) newRbit newMbit = some (t', b') →
          InsertedAt t b slot v f newRbit newMbit t' b' :=
  ⟨fun _ _ hrun => hrun.hand_lt hn, fun _ b v f newRbit newMbit hhand =>
    tlbInsertVpage_chosen hhand b v f newRbit newMbit⟩

/-- Two valid entries, of which the one at the hand was referenced. -/
def oneReferenced : Tlb 2 where
  tlb := fun i => if i = 0 then ⟨0x80000003#32, 0x00000004#32⟩ else ⟨0x80000005#32, 0x40000006#32⟩
  tlbMiss := true
  nextVpageToCheck := 1

/-- The search goes around and takes the entry that was not referenced. -/
theorem insert_is_clock_oneReferenced : ∃ t' b',
    oneReferenced.tlbInsertVpage (k := 1) ⟨fun _ => 0#32, fun _ => 0#32, fun _ => 0#32⟩
        (toWord 9#21) (toWord 9#21) 0 0 = some (t', b') ∧
      (t'.tlb 0).vpage = 9#21 ∧ t'.tlb 1 = oneReferenced.tlb 1 ∧ t'.nextVpageToCheck = 1 := by
  obtain ⟨slot, hchosen, hdefined, hinserted⟩ := (insert_is_clock (n := 2) (k := 1) (by decide)).2
    oneReferenced ⟨fun _ => 0#32, fun _ => 0#32, fun _ => 0#32⟩ 9#21 9#21 0 0 (by decide)
  have hslot : slot = 0 := by
    rcases hchosen with ⟨d, _, _, hfree, _⟩ | ⟨hall, _⟩
    · have honly : ∀ i, (oneReferenced.tlb i).valid = false ∨ (oneReferenced.tlb i).rm.1 = false →
          i = 0 := by decide
      exact honly slot hfree
    · exact absurd (hall 0) (by decide)
  subst hslot
  obtain ⟨⟨t', b'⟩, heq⟩ := hdefined fun _ => by decide
  have hins := hinserted t' b' heq
  exact ⟨t', b', heq, hins.vpage, hins.others 1 (by decide), hins.hand⟩

end Tlb

end SimOS
