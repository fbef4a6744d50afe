import SimOS.Mmu.PageTable
import SimOS.Library.Run

/-!
# Runs of the page table alone

`pt_initialize_page_table` clears the first level, but `pt_update_pagetable`
does not clear the second-level tables it allocates, as `tlb_initialize` does
with the TLB. Until a page is updated, its entry is what `malloc` left there
when the table was created for some other page.
-/

namespace SimOS

open Library

/-- A call of one of the procedures of `page.c`. The fresh table is what
`malloc` returns, in case the update asks for one. -/
inductive PageTableEvent
  | update (w : Vpage) (f : Frame) (fresh : SecondLevel)
  | clear (w : Vpage)
  | get (w : Vpage)

/-- The page an operation is about. -/
def PageTableEvent.page : PageTableEvent → Vpage
  | .update w _ _ => w
  | .clear w => w
  | .get w => w

namespace PageTable

def Exec (pt : PageTable) : PageTableEvent → PageTable → Prop
  | .update w f fresh, pt' => pt' = pt.ptUpdatePagetable fresh (toWord w) (toWord f)
  | .clear w, pt' => pt.ptClearPageTableEntry (toWord w) = some pt'
  | .get w, pt' => pt' = (pt.ptGetPframeNumber (toWord w)).1

/-- The page was updated at least once. -/
def updated (v : Vpage) : List (PageTableEvent × PageTable) → Bool
  | [] => false
  | (.update w _ _, _) :: h => w = v || updated v h
  | _ :: h => updated v h

/-- What `malloc` returned for the table in a slot of the first level, when the
first update of a page of that table created it. -/
def created (i : Fin 2048) : List (PageTableEvent × PageTable) → Option SecondLevel
  | [] => none
  | (.update w _ fresh, _) :: h =>
    (created i h).or (if i1 (toWord w) = i then some fresh else none)
  | _ :: h => created i h

/-- Only entries that were updated before are cleared. -/
def ClearsUpdated (h : List (PageTableEvent × PageTable)) : PageTableEvent → Prop
  | .update .. => True
  | .clear w => updated w h = true
  | .get _ => True

/-- A run that starts with `pt_initialize_page_table`. -/
def PageTableRun : List (PageTableEvent × PageTable) → PageTable → Prop :=
  Run (fun pt => ∃ memory : PageTable, pt = memory.ptInitializePageTable)
    fun h pt e pt' => ClearsUpdated h e ∧ pt.Exec e pt'

/-- The tables as the history tells them: which of them exist, and what the
entries that no update wrote hold. -/
structure Untouched (h : List (PageTableEvent × PageTable)) (pt : PageTable) : Prop where
  exists_iff : ∀ i, pt.firstLevel i = none ↔ created i h = none
  entry : ∀ v, updated v h = false →
    pt.pageMap v = (created (i1 (toWord v)) h).bind fun fresh => entryFrame (fresh (i2 (toWord v)))

theorem Untouched.update {h : List (PageTableEvent × PageTable)} {pt : PageTable}
    (hpt : Untouched h pt) (w : Vpage) (f : Frame) (fresh : SecondLevel) :
    Untouched ((.update w f fresh, pt.ptUpdatePagetable fresh (toWord w) (toWord f)) :: h)
      (pt.ptUpdatePagetable fresh (toWord w) (toWord f)) where
  exists_iff := by
    intro i
    by_cases hi : i1 (toWord w) = i
    · subst hi
      simp [ptUpdatePagetable, created]
    · simp [ptUpdatePagetable, created, hi, Function.update_of_ne (Ne.symm hi), hpt.exists_iff]
  entry := by
    intro v hv
    simp only [updated, Bool.or_eq_false_iff, decide_eq_false_iff_not] at hv
    rw [pageMap_update, if_neg (Ne.symm hv.1)]
    by_cases hi : i1 (toWord v) = i1 (toWord w)
    · by_cases hnone : pt.firstLevel (i1 (toWord w)) = none
      · -- this update creates the table
        rw [if_pos ⟨hi, hnone⟩]
        simp [created, hi, (hpt.exists_iff _).mp hnone]
      · rw [if_neg fun hc => hnone hc.2, hpt.entry v hv.2]
        obtain ⟨second, hsecond⟩ := Option.ne_none_iff_exists'.mp
          (fun hc => hnone ((hpt.exists_iff _).mpr hc))
        simp [created, hi, hsecond]
    · rw [if_neg fun hc => hi hc.1, hpt.entry v hv.2]
      simp [created, Ne.symm hi]

theorem firstLevel_clear_eq_none {pt pt' : PageTable} {w : Vpage}
    (h : pt.ptClearPageTableEntry (toWord w) = some pt') (i : Fin 2048) :
    pt'.firstLevel i = none ↔ pt.firstLevel i = none := by
  rw [ptClearPageTableEntry] at h
  cases hs : pt.firstLevel (i1 (toWord w)) with
  | none => simp [hs] at h
  | some second =>
    simp only [hs, Option.some.injEq] at h
    subst h
    by_cases hi : i = i1 (toWord w)
    · subst hi
      simp [hs]
    · simp [Function.update_of_ne hi]

theorem PageTableRun.untouched {h : List (PageTableEvent × PageTable)} {pt : PageTable}
    (hrun : PageTableRun h pt) : Untouched h pt := by
  refine Run.invariant (P := Untouched) ?_ ?_ hrun
  · rintro s ⟨memory, rfl⟩
    exact ⟨fun _ => ⟨fun _ => rfl, fun _ => rfl⟩, fun v _ => pageMap_initialize memory v⟩
  · intro h s e s' _ ih hs
    cases e with
    | update w f fresh =>
      obtain rfl : s' = s.ptUpdatePagetable fresh (toWord w) (toWord f) := hs.2
      exact ih.update w f fresh
    | clear w =>
      have hclear : s.ptClearPageTableEntry (toWord w) = some s' := hs.2
      refine ⟨fun i => (firstLevel_clear_eq_none hclear i).trans (ih.exists_iff i), fun v hv => ?_⟩
      have hne : v ≠ w := by
        rintro rfl
        exact Bool.noConfusion (hs.1.symm.trans hv)
      rw [pageMap_clear hclear, Function.update_of_ne hne]
      exact ih.entry v hv
    | get w =>
      obtain rfl : s' = (s.ptGetPframeNumber (toWord w)).1 := hs.2
      rw [ptGetPframeNumber_eq]
      exact ⟨ih.exists_iff, ih.entry⟩

/-- Only the present bit decides whether an entry maps a frame. -/
theorem entryFrame_eq_none_iff (entry : Word) :
    entryFrame entry = none ↔ entry &&& presBit = 0#32 := by
  have hbit : entry &&& presBit ≠ 0#32 ↔ entry.getLsbD 31 = true := by
    rw [presBit_eq]
    exact and_twoPow_ne_zero (by decide)
  rw [entryFrame]
  by_cases hpres : entry.getLsbD 31 = true
  · rw [if_pos hpres]
    exact iff_of_false (Option.some_ne_none _) (hbit.mpr hpres)
  · rw [if_neg hpres]
    exact iff_of_true rfl (not_not.mp fun hc => hpres (hbit.mp hc))

/-- The pages that were never mapped all fault just in case `malloc` returned a
clear present bit for each of them when its second-level table was created. -/
theorem never_mapped_faults_iff {h : List (PageTableEvent × PageTable)} {pt : PageTable}
    (hrun : PageTableRun h pt) :
    (∀ v, updated v h = false → (pt.ptGetPframeNumber (toWord v)).1.pageFault = true) ↔
    ∀ v fresh, updated v h = false → created (i1 (toWord v)) h = some fresh →
      fresh (i2 (toWord v)) &&& presBit = 0#32 := by
  have hfault : ∀ v, (pt.ptGetPframeNumber (toWord v)).1.pageFault = true ↔
      pt.pageMap v = none := by
    intro v
    rw [ptGetPframeNumber_eq]
    exact Option.isNone_iff_eq_none
  have huntouched := hrun.untouched
  constructor
  · intro hall v fresh hv hcreated
    have hmap := (hfault v).mp (hall v hv)
    rw [huntouched.entry v hv, hcreated, Option.bind_some] at hmap
    exact (entryFrame_eq_none_iff _).mp hmap
  · intro hcond v hv
    rw [hfault, huntouched.entry v hv]
    cases hcreated : created (i1 (toWord v)) h with
    | none => rfl
    | some fresh => exact (entryFrame_eq_none_iff _).mpr (hcond v fresh hv hcreated)

/-- Page 0 is mapped to frame 0, with a table made of memory full of ones. -/
theorem pageTableRun_onesTable (memory : PageTable) :
    PageTableRun
      [(.update 0#21 0#21 fun _ => BitVec.allOnes 32,
        memory.ptInitializePageTable.ptUpdatePagetable (fun _ => BitVec.allOnes 32)
          (toWord 0#21) (toWord 0#21))]
      (memory.ptInitializePageTable.ptUpdatePagetable (fun _ => BitVec.allOnes 32)
        (toWord 0#21) (toWord 0#21)) :=
  .next (.start ⟨memory, rfl⟩) ⟨trivial, rfl⟩

/-- Then page 1, which was never updated, does not fault. -/
theorem never_mapped_page_present : ∃ h pt, PageTableRun h pt ∧ updated 1#21 h = false ∧
    (pt.ptGetPframeNumber (toWord 1#21)).1.pageFault = false := by
  refine ⟨_, _, pageTableRun_onesTable ⟨fun _ => none, false⟩, by decide, ?_⟩
  rw [ptGetPframeNumber_eq, pageMap_update]
  decide

/-- In this run the condition fails, and so not every page that was never mapped faults. -/
theorem never_mapped_faults_iff_onesTable : ∃ h pt, PageTableRun h pt ∧
    ¬∀ v, updated v h = false → (pt.ptGetPframeNumber (toWord v)).1.pageFault = true := by
  refine ⟨_, _, pageTableRun_onesTable ⟨fun _ => none, false⟩, fun hall => ?_⟩
  have hclear := (never_mapped_faults_iff (pageTableRun_onesTable ⟨fun _ => none, false⟩)).mp hall
    1#21 (fun _ => BitVec.allOnes 32) (by decide) rfl
  exact absurd hclear (by decide)

/-! ## The last operation on a page -/

/-- The last update or clear of the page: the frame an update mapped it to, or
`none` inside when it was a clear. -/
def lastOperation (v : Vpage) : List (PageTableEvent × PageTable) → Option (Option Frame)
  | [] => none
  | (.update w f _, _) :: h => if w = v then some (some f) else lastOperation v h
  | (.clear w, _) :: h => if w = v then some none else lastOperation v h
  | (.get _, _) :: h => lastOperation v h

/-- The page table entry of a page that was updated is as its last operation left it. -/
structure LastWins (h : List (PageTableEvent × PageTable)) (pt : PageTable) : Prop where
  recorded : ∀ v, (lastOperation v h).isSome = updated v h
  pageMap : ∀ v o, lastOperation v h = some o → pt.pageMap v = o

/-- A page that was updated had its second-level table created. -/
theorem created_of_updated {v : Vpage} {h : List (PageTableEvent × PageTable)}
    (hv : updated v h = true) : created (i1 (toWord v)) h ≠ none := by
  induction h with
  | nil => cases hv
  | cons x h ih =>
    obtain ⟨e, s⟩ := x
    cases e with
    | update w f fresh =>
      simp only [updated, Bool.or_eq_true, decide_eq_true_eq] at hv
      rw [created, ne_eq, Option.or_eq_none_iff]
      rintro ⟨hrest, hnow⟩
      rcases hv with rfl | hv
      · simp at hnow
      · exact ih hv hrest
    | clear w => exact ih hv
    | get w => exact ih hv

/-- So the table of a page that was updated exists. -/
theorem Untouched.firstLevel_ne_none {h : List (PageTableEvent × PageTable)} {pt : PageTable}
    (hpt : Untouched h pt) {v : Vpage} (hv : updated v h = true) :
    pt.firstLevel (i1 (toWord v)) ≠ none :=
  fun hnone => created_of_updated hv ((hpt.exists_iff _).mp hnone)

/-- An update decides its own page; a page that was updated before shares at
most a table that exists already. -/
theorem LastWins.update {h : List (PageTableEvent × PageTable)} {pt : PageTable}
    (hlast : LastWins h pt) (htables : Untouched h pt) (w : Vpage) (f : Frame)
    (fresh : SecondLevel) :
    LastWins ((.update w f fresh, pt.ptUpdatePagetable fresh (toWord w) (toWord f)) :: h)
      (pt.ptUpdatePagetable fresh (toWord w) (toWord f)) where
  recorded := by
    intro v
    by_cases hw : w = v
    · simp [lastOperation, updated, hw]
    · simp [lastOperation, updated, hw, hlast.recorded]
  pageMap := by
    intro v o ho
    rw [pageMap_update]
    rw [lastOperation] at ho
    by_cases hw : w = v
    · rw [if_pos hw] at ho
      rw [if_pos hw.symm]
      exact Option.some.inj ho
    · rw [if_neg hw] at ho
      have hupdated : updated v h = true := by rw [← hlast.recorded, ho]; rfl
      have hexists := htables.firstLevel_ne_none hupdated
      have hshared : ¬(i1 (toWord v) = i1 (toWord w) ∧ pt.firstLevel (i1 (toWord w)) = none) := by
        rintro ⟨hsame, hnone⟩
        exact hexists (hsame ▸ hnone)
      rw [if_neg (Ne.symm hw), if_neg hshared]
      exact hlast.pageMap v o ho

/-- A clear unmaps its own page, which was updated before, and no other. -/
theorem LastWins.clear {h : List (PageTableEvent × PageTable)} {pt pt' : PageTable}
    (hlast : LastWins h pt) {w : Vpage} (hw : updated w h = true)
    (hclear : pt.ptClearPageTableEntry (toWord w) = some pt') :
    LastWins ((.clear w, pt') :: h) pt' where
  recorded := by
    intro v
    by_cases hwv : w = v
    · subst hwv
      simp [lastOperation, updated, hw]
    · simp [lastOperation, updated, hwv, hlast.recorded]
  pageMap := by
    intro v o ho
    rw [pageMap_clear hclear]
    rw [lastOperation] at ho
    by_cases hwv : w = v
    · rw [if_pos hwv] at ho
      rw [hwv, Function.update_self]
      exact Option.some.inj ho
    · rw [if_neg hwv] at ho
      rw [Function.update_of_ne (Ne.symm hwv)]
      exact hlast.pageMap v o ho

theorem PageTableRun.lastWins {h : List (PageTableEvent × PageTable)} {pt : PageTable}
    (hrun : PageTableRun h pt) : LastWins h pt := by
  refine Run.invariant (P := LastWins) ?_ ?_ hrun
  · intro s _
    exact ⟨fun _ => rfl, fun v o ho => by cases ho⟩
  · intro h s e s' hrun ih hs
    cases e with
    | update w f fresh =>
      obtain rfl : s' = s.ptUpdatePagetable fresh (toWord w) (toWord f) := hs.2
      exact ih.update (PageTableRun.untouched hrun) w f fresh
    | clear w => exact ih.clear hs.1 hs.2
    | get w =>
      obtain rfl : s' = (s.ptGetPframeNumber (toWord w)).1 := hs.2
      rw [ptGetPframeNumber_eq]
      exact ⟨ih.recorded, ih.pageMap⟩

/-- What a lookup reports: the flag `page_fault` and the frame. -/
def answer (pt : PageTable) (v : Vpage) : Bool × Word :=
  ((pt.ptGetPframeNumber (toWord v)).1.pageFault, (pt.ptGetPframeNumber (toWord v)).2)

theorem answer_eq (pt : PageTable) (v : Vpage) :
    pt.answer v = ((pt.pageMap v).isNone, ((pt.pageMap v).map toWord).getD 0#32) := by
  rw [answer, ptGetPframeNumber_eq]

/-- An operation that a caller may issue is defined: it never follows a `NULL`
pointer of the first level. -/
theorem PageTableRun.exists_exec {h : List (PageTableEvent × PageTable)} {pt : PageTable}
    (hrun : PageTableRun h pt) {e : PageTableEvent} (he : ClearsUpdated h e) :
    ∃ pt', pt.Exec e pt' := by
  cases e with
  | update w f fresh => exact ⟨_, rfl⟩
  | clear w =>
    obtain ⟨second, hsecond⟩ :=
      Option.ne_none_iff_exists'.mp (hrun.untouched.firstLevel_ne_none he)
    have hsome : (pt.ptClearPageTableEntry (toWord w)).isSome = true := by
      rw [ptClearPageTableEntry, hsecond]
      rfl
    exact Option.isSome_iff_exists.mp hsome
  | get w => exact ⟨_, rfl⟩

/-- Whatever was done to other pages, and whatever `malloc` returned, a lookup
of a page that was updated answers as the page's last update or clear says; an
operation on another page does not change the answer, and every operation is
defined. -/
theorem last_operation_wins {h : List (PageTableEvent × PageTable)} {pt : PageTable}
    (hrun : PageTableRun h pt) :
    (∀ v, updated v h = true →
      (∃ f, lastOperation v h = some (some f) ∧ pt.answer v = (false, toWord f)) ∨
        (lastOperation v h = some none ∧ (pt.answer v).1 = true)) ∧
    (∀ v e pt', updated v h = true → ClearsUpdated h e → pt.Exec e pt' → e.page ≠ v →
      pt'.answer v = pt.answer v) ∧
    ∀ e, ClearsUpdated h e → ∃ pt', pt.Exec e pt' := by
  have hlast := hrun.lastWins
  refine ⟨fun v hv => ?_, fun v e pt' hv he hexec hne => ?_, fun e => hrun.exists_exec⟩
  · rw [← hlast.recorded, Option.isSome_iff_exists] at hv
    obtain ⟨o, ho⟩ := hv
    rw [answer_eq, hlast.pageMap v o ho]
    cases o with
    | none => exact .inr ⟨ho, rfl⟩
    | some f => exact .inl ⟨f, ho, rfl⟩
  · rw [← hlast.recorded, Option.isSome_iff_exists] at hv
    obtain ⟨o, ho⟩ := hv
    have hrun' : PageTableRun ((e, pt') :: h) pt' := .next hrun ⟨he, hexec⟩
    have ho' : lastOperation v ((e, pt') :: h) = some o := by
      cases e with
      | update w f fresh => exact (if_neg hne).trans ho
      | clear w => exact (if_neg hne).trans ho
      | get w => exact ho
    rw [answer_eq, answer_eq, hlast.pageMap v o ho, hrun'.lastWins.pageMap v o ho']

theorem PageTableRun.update {h : List (PageTableEvent × PageTable)} {pt : PageTable}
    (hrun : PageTableRun h pt) (w : Vpage) (f : Frame) (fresh : SecondLevel) :
    PageTableRun ((.update w f fresh, pt.ptUpdatePagetable fresh (toWord w) (toWord f)) :: h)
      (pt.ptUpdatePagetable fresh (toWord w) (toWord f)) :=
  .next hrun ⟨trivial, rfl⟩

/-- Page 1 is mapped after page 0 and shares its second-level table. -/
theorem last_operation_wins_onesTable : ∃ h pt, PageTableRun h pt ∧
    updated 0#21 h = true ∧ updated 1#21 h = true ∧ pt.answer 0#21 = (false, toWord 0#21) := by
  have hrun := (pageTableRun_onesTable ⟨fun _ => none, false⟩).update 1#21 7#21 fun _ => 0#32
  refine ⟨_, _, hrun, by decide, by decide, ?_⟩
  rcases (last_operation_wins hrun).1 0#21 (by decide) with ⟨f, hf, hanswer⟩ | ⟨hclear, _⟩
  · obtain rfl : f = 0#21 := (Option.some.inj (Option.some.inj hf)).symm
    exact hanswer
  · exact absurd hclear (by decide)

end PageTable

end SimOS
