import SimOS.Mmu.TlbRuns

/-!
# The TLB as a bounded map

The valid entries of the TLB are a partial map from pages to frames and their
R and M bits. As long as a page is inserted only when it has no valid entry,
each procedure of `tlb.c` is an operation on that map, which never holds more
pages than there are slots.
-/

namespace SimOS

open Library
open Library.PackedBits (bit)

variable {n k : ℕ}

/-- What the TLB knows about its pages: frame, R bit and M bit. -/
abbrev TlbContents := Vpage → Option (Frame × Bool × Bool)

namespace Tlb

/-- The map that the valid entries hold. -/
def contents (t : Tlb n) : TlbContents := SlotCache.lookup t.byPage

/-- A page is inserted only when it has no valid entry. -/
def InsertsAbsent (t : Tlb n) : TlbEvent → Prop
  | .insert v _ _ _ => ∀ i, ¬t.Hits v i
  | _ => True

/-- A run in which no page is inserted over its own entry. -/
def MapRun : List (TlbEvent × Tlb n × Bitmaps k) → Tlb n × Bitmaps k → Prop :=
  Run Initialized fun _ s e s' => InsertsAbsent s.1 e ∧ Exec s e s'

/-- Both bits of a frame were written to the bitmaps, and nothing else. -/
def BitsWritten (b b' : Bitmaps k) (f : Frame) (rm : Bool × Bool) : Prop :=
  (∀ g, bit b'.rbitBitmap g = (if g = f.toNat then rm.1 else bit b.rbitBitmap g) ∧
    bit b'.mbitBitmap g = if g = f.toNat then rm.2 else bit b.mbitBitmap g) ∧
  b'.pageframeBitmap = b.pageframeBitmap

/-- The map after an access to a page: its R bit is set, and its M bit by a store. -/
def accessed (m : TlbContents) (v : Vpage) (op : Operation) : TlbContents :=
  match m v with
  | some (f, _, mbit) => Function.update m v (some (f, true, decide (op = .store) || mbit))
  | none => m

/-- What each call means for the map. -/
def MapStep (m m' : TlbContents) (b b' : Bitmaps k) : TlbEvent → Prop
  | .lookup v op => m' = accessed m v op ∧ b' = b
  | .insert v f newRbit newMbit =>
      (m' = Function.update m v (some (f, decide (newRbit ≠ 0), decide (newMbit ≠ 0))) ∧ b' = b) ∨
      ∃ w x, m w = some x ∧
        m' = Function.update (Function.update m w none) v
          (some (f, decide (newRbit ≠ 0), decide (newMbit ≠ 0))) ∧
        BitsWritten b b' x.1 x.2
  | .clearEntry v => m' = Function.update m v none ∧ b' = b
  | .clearAll => m' = (fun _ => none) ∧ b' = b
  | .clearRBits => m' = (fun v => (m v).map fun x => (x.1, false, x.2.2)) ∧ b' = b
  | .writeBack => m' = m

theorem accessed_of_some {m : TlbContents} {v : Vpage} {f : Frame} {rbit mbit : Bool}
    (hv : m v = some (f, rbit, mbit)) (op : Operation) :
    accessed m v op = Function.update m v (some (f, true, decide (op = .store) || mbit)) := by
  rw [accessed, hv]

theorem contents_eq_none_iff {t : Tlb n} {v : Vpage} :
    t.contents v = none ↔ ∀ i, ¬t.Hits v i := by
  rw [contents, SlotCache.lookup_eq_none_iff, absent_byPage]

theorem contents_of_hits {t : Tlb n} (ht : SlotCache.Unique t.byPage) {v : Vpage} {i : Fin n}
    (hi : t.Hits v i) : t.contents v = some ((t.tlb i).pframe, (t.tlb i).rm) :=
  SlotCache.lookup_of_slot ht hi.byPage

/-! ## The slots after each operation -/

theorem byPage_touch {t : Tlb n} {v : Vpage} {i : Fin n} (hi : t.Hits v i) (op : Operation)
    (miss : Bool) :
    byPage { t with tlb := Function.update t.tlb i ((t.tlb i).touch op), tlbMiss := miss } =
      Function.update t.byPage i
        (some (v, (t.tlb i).pframe, true, decide (op = .store) || (t.tlb i).rm.2)) := by
  rw [byPage_update, TlbEntry.touch_valid, hi.1, if_pos rfl, TlbEntry.touch_vpage, hi.2,
    TlbEntry.touch_pframe, TlbEntry.touch_rm]

theorem InsertedAt.byPage {t t' : Tlb n} {b b' : Bitmaps k} {slot : Fin n} {v : Vpage} {f : Frame}
    {newRbit newMbit : ℤ} (h : InsertedAt t b slot v f newRbit newMbit t' b') :
    t'.byPage = Function.update t.byPage slot
      (some (v, f, decide (newRbit ≠ 0), decide (newMbit ≠ 0))) := by
  funext i
  by_cases hi : i = slot
  · subst hi
    rw [Function.update_self, byPage_of_valid h.valid, h.vpage, h.pframe, h.rm]
  · rw [Function.update_of_ne hi, Tlb.byPage, Tlb.byPage, h.others i hi]

theorem byPage_tlbClearAll (t : Tlb n) (i : Fin n) : t.tlbClearAll.byPage i = none :=
  byPage_of_invalid (TlbEntry.valid_clear _)

theorem byPage_of_initialized {s : Tlb n × Bitmaps k} (hs : Initialized s) (i : Fin n) :
    s.1.byPage i = none := by
  obtain ⟨t, garbage, _, hs⟩ := hs
  rw [hs]
  exact byPage_tlbClearAll _ i

/-- A page keeps to one slot. -/
theorem Exec.unique {s s' : Tlb n × Bitmaps k} (hhand : s.1.nextVpageToCheck < n)
    (hs : SlotCache.Unique s.1.byPage) {e : TlbEvent} (he : InsertsAbsent s.1 e)
    (h : Exec s e s') : SlotCache.Unique s'.1.byPage := by
  cases e with
  | lookup v op =>
    obtain rfl : s' = ((s.1.tlbLookupVpage (toWord v) op).1, s.2) := h
    rcases s.1.tlbLookupVpage_cases v op with ⟨i, hi, heq⟩ | ⟨_, heq⟩
    · rw [heq]
      show SlotCache.Unique (byPage { s.1 with
        tlb := Function.update s.1.tlb i ((s.1.tlb i).touch op), tlbMiss := false })
      rw [byPage_touch hi]
      exact hs.update_some fun j x hji hj => hji (hs j i _ _ hj hi.byPage rfl)
    · rw [heq]
      exact hs
  | insert v f newRbit newMbit =>
    obtain ⟨slot, _, _, hinserted⟩ := tlbInsertVpage_chosen hhand s.2 v f newRbit newMbit
    rw [(hinserted _ _ h).byPage]
    exact hs.update_some fun j x _ hj => absent_byPage.mpr he j x hj
  | clearEntry v =>
    obtain rfl : s' = (s.1.tlbClearEntry (toWord v), s.2) := h
    apply hs.of_keys
    intro i a hi
    rw [byPage_tlbClearEntry, Option.filter_eq_some_iff] at hi
    exact ⟨a.2, hi.1⟩
  | clearAll =>
    obtain rfl : s' = (s.1.tlbClearAll, s.2) := h
    apply hs.of_keys
    intro i a hi
    rw [byPage_tlbClearAll] at hi
    cases hi
  | clearRBits =>
    obtain rfl : s' = (s.1.tlbClearRBits, s.2) := h
    apply hs.of_keys
    intro i a hi
    rw [byPage_tlbClearRBits, Option.map_eq_some_iff] at hi
    obtain ⟨x, hx, rfl⟩ := hi
    exact ⟨x.2, hx⟩
  | writeBack =>
    rw [h.1]
    exact hs

/-- Every call is the operation on the map that it stands for. -/
theorem Exec.mapStep {s s' : Tlb n × Bitmaps k} (hhand : s.1.nextVpageToCheck < n)
    (hs : SlotCache.Unique s.1.byPage) {e : TlbEvent} (he : InsertsAbsent s.1 e)
    (h : Exec s e s') : MapStep s.1.contents s'.1.contents s.2 s'.2 e := by
  cases e with
  | lookup v op =>
    obtain rfl : s' = ((s.1.tlbLookupVpage (toWord v) op).1, s.2) := h
    refine ⟨?_, rfl⟩
    rcases s.1.tlbLookupVpage_cases v op with ⟨i, hi, heq⟩ | ⟨hmiss, heq⟩
    · rw [heq, accessed, contents_of_hits hs hi]
      show SlotCache.lookup (byPage { s.1 with
        tlb := Function.update s.1.tlb i ((s.1.tlb i).touch op), tlbMiss := false }) = _
      rw [byPage_touch hi]
      exact SlotCache.lookup_modify hs hi.byPage _
    · rw [heq, accessed, contents_eq_none_iff.mpr hmiss]
      rfl
  | insert v f newRbit newMbit =>
    obtain ⟨slot, _, _, hinserted⟩ := tlbInsertVpage_chosen hhand s.2 v f newRbit newMbit
    have hins := hinserted _ _ h
    have hmap := SlotCache.lookup_replace hs slot (absent_byPage.mpr he)
      (f, decide (newRbit ≠ 0), decide (newMbit ≠ 0))
    rw [← hins.byPage] at hmap
    cases hv : (s.1.tlb slot).valid with
    | false =>
      -- a free slot: nothing is removed and nothing is written back
      left
      rw [byPage_of_invalid hv] at hmap
      exact ⟨hmap, hins.kept hv⟩
    | true =>
      right
      rw [byPage_of_valid hv] at hmap
      exact ⟨_, _, SlotCache.lookup_of_slot hs (byPage_of_valid hv), hmap, hins.written hv,
        hins.pageframeBitmap⟩
  | clearEntry v =>
    obtain rfl : s' = (s.1.tlbClearEntry (toWord v), s.2) := h
    exact ⟨SlotCache.lookup_filter hs (byPage_tlbClearEntry s.1 v), rfl⟩
  | clearAll =>
    obtain rfl : s' = (s.1.tlbClearAll, s.2) := h
    exact ⟨SlotCache.lookup_empty (byPage_tlbClearAll s.1), rfl⟩
  | clearRBits =>
    obtain rfl : s' = (s.1.tlbClearRBits, s.2) := h
    refine ⟨?_, rfl⟩
    funext v
    exact SlotCache.lookup_map hs (fun x => (x.1, false, x.2.2)) (byPage_tlbClearRBits s.1) v
  | writeBack =>
    show s'.1.contents = s.1.contents
    rw [h.1]

/-! ## Runs -/

theorem MapRun.tlbRun {h : List (TlbEvent × Tlb n × Bitmaps k)} {s : Tlb n × Bitmaps k}
    (hrun : MapRun h s) : TlbRun h s :=
  Run.mono (fun _ hs => hs) (fun _ _ _ _ hs => hs.2) hrun

theorem MapRun.unique (hn : 0 < n) {h : List (TlbEvent × Tlb n × Bitmaps k)}
    {s : Tlb n × Bitmaps k} (hrun : MapRun h s) : SlotCache.Unique s.1.byPage := by
  refine Run.invariant (P := fun _ s => SlotCache.Unique s.1.byPage) ?_ ?_ hrun
  · intro s hs i j a b hi
    rw [byPage_of_initialized hs] at hi
    cases hi
  · intro h s e s' hrun ih hs
    exact Exec.unique ((MapRun.tlbRun hrun).hand_lt hn) ih hs.1 hs.2

/-- The result of a lookup: the frame of the page, or a miss. -/
theorem lookup_answer {t : Tlb n} (ht : SlotCache.Unique t.byPage) (v : Vpage) (op : Operation) :
    ((t.tlbLookupVpage (toWord v) op).1.tlbMiss = false ↔ t.contents v ≠ none) ∧
      ∀ f rm, t.contents v = some (f, rm) → (t.tlbLookupVpage (toWord v) op).2 = toWord f := by
  rcases t.tlbLookupVpage_cases v op with ⟨i, hi, heq⟩ | ⟨hmiss, heq⟩
  · rw [heq, contents_of_hits ht hi]
    refine ⟨iff_of_true rfl (Option.some_ne_none _), fun f rm hf => ?_⟩
    rw [Option.some.injEq, Prod.mk.injEq] at hf
    rw [hf.1]
  · rw [heq, contents_eq_none_iff.mpr hmiss]
    refine ⟨iff_of_false (Bool.noConfusion ·) fun hne => hne rfl, fun f rm hf => ?_⟩
    cases hf

/-- Every call is defined while the map holds only frames inside the bitmaps. -/
theorem MapRun.exists_exec (hn : 0 < n) {h : List (TlbEvent × Tlb n × Bitmaps k)}
    {s : Tlb n × Bitmaps k} (hrun : MapRun h s)
    (hcover : ∀ v x, s.1.contents v = some x → Bitmaps.Covers k x.1) (e : TlbEvent) :
    ∃ s', Exec s e s' := by
  have hcov : s.1.Covered k := fun i hi =>
    hcover _ _ (SlotCache.lookup_of_slot (hrun.unique hn) (byPage_of_valid hi))
  cases e with
  | lookup v op => exact ⟨_, rfl⟩
  | insert v f newRbit newMbit =>
    obtain ⟨slot, _, hdefined, _⟩ :=
      tlbInsertVpage_chosen (hrun.tlbRun.hand_lt hn) s.2 v f newRbit newMbit
    exact hdefined (hcov slot)
  | clearEntry v => exact ⟨_, rfl⟩
  | clearAll => exact ⟨_, rfl⟩
  | clearRBits => exact ⟨_, rfl⟩
  | writeBack =>
    obtain ⟨b', hb', _, _⟩ := tlbWriteBackRMBits_spec hcov s.2
    exact ⟨(s.1, b'), rfl, hb'⟩

/-- The TLB is a map of at most `n` pages, empty at first, and every call is the
operation on the map that it stands for. -/
theorem tlb_is_bounded_map (hn : 0 < n) {h : List (TlbEvent × Tlb n × Bitmaps k)}
    {s : Tlb n × Bitmaps k} (hrun : MapRun h s) :
    (h = [] → s.1.contents = fun _ => none) ∧
    (∀ v op, ((s.1.tlbLookupVpage (toWord v) op).1.tlbMiss = false ↔ s.1.contents v ≠ none) ∧
      ∀ f rm, s.1.contents v = some (f, rm) →
        (s.1.tlbLookupVpage (toWord v) op).2 = toWord f) ∧
    (∀ e s', InsertsAbsent s.1 e → Exec s e s' →
      MapStep s.1.contents s'.1.contents s.2 s'.2 e) ∧
    ((∀ v x, s.1.contents v = some x → Bitmaps.Covers k x.1) → ∀ e, ∃ s', Exec s e s') ∧
    ∀ pages : Finset Vpage, (∀ v ∈ pages, s.1.contents v ≠ none) → pages.card ≤ n := by
  have hunique := hrun.unique hn
  refine ⟨?_, lookup_answer hunique, fun e s' he hexec => ?_, hrun.exists_exec hn, ?_⟩
  · rintro rfl
    cases hrun with
    | start hs => exact SlotCache.lookup_empty (byPage_of_initialized hs)
  · exact hexec.mapStep (hrun.tlbRun.hand_lt hn) hunique he
  · exact SlotCache.card_le_of_lookup hunique

/-- A TLB of one slot after `tlb_initialize`, with garbage in the slot. -/
def stale : Tlb 1 × Bitmaps 1 :=
  (Tlb.tlbInitialize ⟨fun _ => ⟨0#32, 0#32⟩, false, 0⟩ fun _ => ⟨0xDEADBEEF#32, 0xDEADBEEF#32⟩,
    ⟨fun _ => 0#32, fun _ => 0#32, fun _ => 0#32⟩)

/-- Page 3 goes into the stale slot, a store hits it, and page 4 displaces it: the bits of
page 3 are written back, and the next lookup of it misses. -/
theorem tlb_is_bounded_map_replaced : ∃ s₁ s₂ s₃ : Tlb 1 × Bitmaps 1,
    MapRun [(.insert 4#21 5#21 0 0, s₃), (.lookup 3#21 .store, s₂), (.insert 3#21 2#21 1 0, s₁)]
      s₃ ∧
    (s₁.1.tlbLookupVpage (toWord 3#21) .store).2 = toWord 2#21 ∧ s₂.1.tlbMiss = false ∧
    bit s₂.2.mbitBitmap 2 = false ∧ bit s₃.2.mbitBitmap 2 = true ∧
    s₃.1.contents = Function.update (fun _ => none) 4#21 (some (5#21, false, false)) ∧
    (s₃.1.tlbLookupVpage (toWord 3#21) .load).1.tlbMiss = true := by
  have hrun₀ : MapRun [] stale := .start ⟨_, _, rfl, rfl⟩
  obtain ⟨hempty, -, hstep₀, hdefined₀, -⟩ := tlb_is_bounded_map Nat.one_pos hrun₀
  have hcontents₀ := hempty rfl
  -- page 3 is inserted where there was no page
  have habsent₁ : InsertsAbsent stale.1 (.insert 3#21 2#21 1 0) :=
    contents_eq_none_iff.mp (congrFun hcontents₀ 3#21)
  obtain ⟨s₁, hexec₁⟩ := hdefined₀ (fun v x hx => by rw [hcontents₀] at hx; cases hx)
    (.insert 3#21 2#21 1 0)
  have hrun₁ : MapRun [(.insert 3#21 2#21 1 0, s₁)] s₁ := .next hrun₀ ⟨habsent₁, hexec₁⟩
  obtain ⟨-, hanswers₁, hstep₁, -, -⟩ := tlb_is_bounded_map Nat.one_pos hrun₁
  obtain ⟨hcontents₁, hbits₁⟩ : s₁.1.contents =
      Function.update (fun _ => none) 3#21 (some (2#21, true, false)) ∧ s₁.2 = stale.2 := by
    rcases hstep₀ _ s₁ habsent₁ hexec₁ with hfree | ⟨w, x, hx, -⟩
    · rwa [hcontents₀] at hfree
    · rw [hcontents₀] at hx
      cases hx
  have hpage₁ : s₁.1.contents 3#21 = some (2#21, true, false) := by
    rw [hcontents₁, Function.update_self]
  -- a store hits it
  obtain ⟨s₂, hexec₂⟩ : ∃ s₂, Exec s₁ (.lookup 3#21 .store) s₂ := ⟨_, rfl⟩
  have hrun₂ : MapRun [(.lookup 3#21 .store, s₂), (.insert 3#21 2#21 1 0, s₁)] s₂ :=
    .next hrun₁ ⟨trivial, hexec₂⟩
  obtain ⟨-, -, hstep₂, hdefined₂, -⟩ := tlb_is_bounded_map Nat.one_pos hrun₂
  obtain ⟨hcontents₂, hbits₂⟩ := hstep₁ (.lookup 3#21 .store) s₂ trivial hexec₂
  rw [accessed_of_some hpage₁, hcontents₁, Function.update_idem] at hcontents₂
  -- page 4 displaces it, as there is one slot
  have habsent₃ : InsertsAbsent s₂.1 (.insert 4#21 5#21 0 0) := by
    refine contents_eq_none_iff.mp ?_
    rw [hcontents₂]
    rfl
  have hcovers₂ : ∀ v x, s₂.1.contents v = some x → Bitmaps.Covers 1 x.1 := by
    intro v x hx
    rw [hcontents₂, Function.update_apply] at hx
    split_ifs at hx
    obtain rfl := Option.some.inj hx
    decide
  obtain ⟨s₃, hexec₃⟩ := hdefined₂ hcovers₂ (.insert 4#21 5#21 0 0)
  have hrun₃ := Run.next hrun₂ ⟨habsent₃, hexec₃⟩
  obtain ⟨-, hanswers₃, -, -, hcard₃⟩ := tlb_is_bounded_map Nat.one_pos hrun₃
  rcases hstep₂ _ s₃ habsent₃ hexec₃ with ⟨hfree, -⟩ | ⟨w, x, hx, hcontents₃, hwritten, -⟩
  · -- both pages would be in the one slot
    have hboth : ∀ v ∈ ({3#21, 4#21} : Finset Vpage), s₃.1.contents v ≠ none := by
      intro v hv
      rcases Finset.mem_insert.mp hv with rfl | hv
      · rw [hfree, hcontents₂, Function.update_of_ne (by decide), Function.update_self]
        exact Option.some_ne_none _
      · rw [Finset.mem_singleton.mp hv, hfree, Function.update_self]
        exact Option.some_ne_none _
    exact absurd (hcard₃ _ hboth) (by decide)
  · rw [hcontents₂, Function.update_apply] at hx
    split_ifs at hx with hw
    obtain rfl := Option.some.inj hx
    rw [hw, hcontents₂, Function.update_idem, Function.update_eq_self] at hcontents₃
    refine ⟨s₁, s₂, s₃, hrun₃, (hanswers₁ 3#21 .store).2 _ _ hpage₁, ?_, ?_, ?_, hcontents₃,
      ?_⟩
    · rw [hexec₂]
      exact (hanswers₁ 3#21 .store).1.mpr (hpage₁ ▸ Option.some_ne_none _)
    · rw [hbits₂, hbits₁]
      decide
    · exact (hwritten 2).2
    · rw [← Bool.not_eq_false, (hanswers₃ 3#21 .load).1, hcontents₃]
      decide

end Tlb

end SimOS
