import Mathlib.Data.Fintype.Card
import Mathlib.Data.List.FinRange
import Mathlib.Logic.Function.Basic
import Mathlib.Tactic.Basic

/-!
# Associative caches in a row of slots

A cache is a row of slots, each of them empty or holding one key with a value.
When no key sits in two slots the row is a partial map, which `lookup` reads.

Put in front of a backing store, such a row is a write-back cache: `effective`
is what the pair of them says about a key, the cached value when there is one
and the stored value otherwise. Filling a slot from the store while writing the
previous occupant back changes no effective value, and writing every occupant
back makes the store itself the effective map.
-/

namespace SimOS.Library.SlotCache

variable {n : ℕ} {K V : Type*}

/-- A row of `n` slots. -/
abbrev Slots (n : ℕ) (K V : Type*) := Fin n → Option (K × V)

/-- No key sits in two slots. -/
def Unique (s : Slots n K V) : Prop :=
  ∀ i j a b, s i = some a → s j = some b → a.1 = b.1 → i = j

/-- The key is in no slot. -/
def Absent (s : Slots n K V) (k : K) : Prop :=
  ∀ i v, s i ≠ some (k, v)

section Lookup

variable [DecidableEq K]

/-- The value in the first slot that holds the key. -/
def lookup (s : Slots n K V) (k : K) : Option V :=
  (List.finRange n).findSome? fun i =>
    match s i with
    | some (k', v) => if k' = k then some v else none
    | none => none

theorem lookup_eq_none_iff {s : Slots n K V} {k : K} : lookup s k = none ↔ Absent s k := by
  unfold lookup Absent
  rw [List.findSome?_eq_none_iff]
  constructor
  · intro h i v hi
    have := h i (List.mem_finRange i)
    simp [hi] at this
  · intro h i _
    cases hi : s i with
    | none => rfl
    | some a =>
      have hne : a.1 ≠ k := fun hk => h i a.2 (by rw [hi, ← hk])
      simp [hne]

/-- Without duplicates the lookup finds a value exactly when some slot holds it. -/
theorem lookup_eq_some_iff {s : Slots n K V} (hs : Unique s) {k : K} {v : V} :
    lookup s k = some v ↔ ∃ i, s i = some (k, v) := by
  constructor
  · intro h
    obtain ⟨i, _, hi⟩ := List.exists_of_findSome?_eq_some h
    refine ⟨i, ?_⟩
    cases hsi : s i with
    | none => simp [hsi] at hi
    | some a =>
      simp only [hsi] at hi
      split at hi
      · next hk => rw [← hk, ← Option.some.inj hi]
      · cases hi
  · rintro ⟨i, hi⟩
    cases hl : lookup s k with
    | none => exact absurd hi (lookup_eq_none_iff.mp hl i v)
    | some v' =>
      obtain ⟨j, _, hj⟩ := List.exists_of_findSome?_eq_some hl
      cases hsj : s j with
      | none => simp [hsj] at hj
      | some a =>
        simp only [hsj] at hj
        split at hj
        · next hk =>
          have hij : i = j := hs i j (k, v) a hi hsj hk.symm
          rw [hij, hsj] at hi
          rw [← Option.some.inj hj, Option.some.inj hi]
        · cases hj

theorem lookup_of_slot {s : Slots n K V} (hs : Unique s) {i : Fin n} {k : K} {v : V}
    (hi : s i = some (k, v)) : lookup s k = some v :=
  (lookup_eq_some_iff hs).mpr ⟨i, hi⟩

end Lookup

/-! ## Overwriting a slot -/

/-- Writing a key that no other slot holds keeps keys unique. -/
theorem Unique.update_some {s : Slots n K V} (hs : Unique s) {i : Fin n} {k : K} {v : V}
    (hk : ∀ j v', j ≠ i → s j ≠ some (k, v')) : Unique (Function.update s i (some (k, v))) := by
  intro a b x y ha hb hxy
  by_cases hai : a = i
  · by_cases hbi : b = i
    · rw [hai, hbi]
    · subst hai
      rw [Function.update_self] at ha
      rw [Function.update_of_ne hbi] at hb
      have hx : x = (k, v) := (Option.some.inj ha).symm
      refine absurd hb (?_ : s b ≠ some y)
      rw [show y = (k, y.2) from Prod.ext (by rw [← hxy, hx]) rfl]
      exact hk b y.2 hbi
  · by_cases hbi : b = i
    · subst hbi
      rw [Function.update_self] at hb
      rw [Function.update_of_ne hai] at ha
      have hy : y = (k, v) := (Option.some.inj hb).symm
      refine absurd ha (?_ : s a ≠ some x)
      rw [show x = (k, x.2) from Prod.ext (by rw [hxy, hy]) rfl]
      exact hk a x.2 hai
    · rw [Function.update_of_ne hai] at ha
      rw [Function.update_of_ne hbi] at hb
      exact hs a b x y ha hb hxy

/-- A key other than the one written is still in its slot, unless that was overwritten. -/
theorem exists_slot_update {s : Slots n K V} {i : Fin n} {k k' : K} {v v' : V} (hne : k' ≠ k) :
    (∃ j, Function.update s i (some (k, v)) j = some (k', v')) ↔
      ∃ j, j ≠ i ∧ s j = some (k', v') := by
  apply exists_congr
  intro j
  by_cases hji : j = i
  · rw [hji, Function.update_self, Option.some.injEq, Prod.mk.injEq]
    exact ⟨fun h => absurd h.1.symm hne, fun h => absurd rfl h.1⟩
  · rw [Function.update_of_ne hji]
    exact (and_iff_right hji).symm

/-- Slots whose keys were in the same slots before are unique if those were. -/
theorem Unique.of_keys {s s' : Slots n K V} (hs : Unique s)
    (hkeys : ∀ i a, s' i = some a → ∃ v, s i = some (a.1, v)) : Unique s' := by
  intro i j a b hi hj hab
  obtain ⟨v, hv⟩ := hkeys i a hi
  obtain ⟨w, hw⟩ := hkeys j b hj
  exact hs i j _ _ hv hw hab

/-! ## The operations on the partial map -/

section Map

variable [DecidableEq K]

/-- A row of slots denotes a partial map when it holds just the map's pairs. -/
theorem lookup_eq_of {s : Slots n K V} (hs : Unique s) {m : K → Option V}
    (hm : ∀ k v, (∃ i, s i = some (k, v)) ↔ m k = some v) : lookup s = m := by
  funext k
  apply Option.ext
  intro v
  rw [lookup_eq_some_iff hs, hm]

/-- An empty row is the empty map. -/
theorem lookup_empty {s : Slots n K V} (hs : ∀ i, s i = none) : lookup s = fun _ => none := by
  funext k
  rw [lookup_eq_none_iff]
  intro i v hi
  rw [hs] at hi
  cases hi

/-- The map without the occupant of a slot. -/
def without (m : K → Option V) : Option (K × V) → K → Option V
  | none => m
  | some (k, _) => Function.update m k none

/-- The map without the occupant of a slot is what the other slots hold. -/
theorem without_eq_some_iff {s : Slots n K V} (hs : Unique s) {i : Fin n} {k : K} {v : V} :
    without (lookup s) (s i) k = some v ↔ ∃ j, j ≠ i ∧ s j = some (k, v) := by
  cases hsi : s i with
  | none =>
    show lookup s k = some v ↔ _
    rw [lookup_eq_some_iff hs]
    apply exists_congr
    intro j
    refine (and_iff_right_of_imp fun hj hji => ?_).symm
    rw [hji, hsi] at hj
    cases hj
  | some a =>
    show Function.update (lookup s) a.1 none k = some v ↔ _
    by_cases hka : k = a.1
    · rw [hka, Function.update_self]
      refine iff_of_false (Option.some_ne_none _).symm ?_
      rintro ⟨j, hji, hj⟩
      exact hji (hs j i _ a hj hsi rfl)
    · rw [Function.update_of_ne hka, lookup_eq_some_iff hs]
      apply exists_congr
      intro j
      refine (and_iff_right_of_imp fun hj hji => ?_).symm
      rw [hji, hsi, Option.some.injEq] at hj
      exact hka (by rw [hj])

/-- Overwriting a slot with an absent key removes the occupant and adds the key. -/
theorem lookup_replace {s : Slots n K V} (hs : Unique s) (i : Fin n) {k : K} (hk : Absent s k)
    (v : V) :
    lookup (Function.update s i (some (k, v))) =
      Function.update (without (lookup s) (s i)) k (some v) := by
  have hs' : Unique (Function.update s i (some (k, v))) := hs.update_some fun j v' _ => hk j v'
  apply lookup_eq_of hs'
  intro k' v'
  by_cases hkk : k' = k
  · subst hkk
    rw [Function.update_self, ← lookup_eq_some_iff hs',
      lookup_of_slot hs' (Function.update_self ..)]
  · rw [Function.update_of_ne hkk, exists_slot_update hkk, without_eq_some_iff hs]

/-- Changing the value in a slot changes the value of its key only. -/
theorem lookup_modify {s : Slots n K V} (hs : Unique s) {i : Fin n} {k : K} {v : V}
    (hi : s i = some (k, v)) (v' : V) :
    lookup (Function.update s i (some (k, v'))) = Function.update (lookup s) k (some v') := by
  have hs' : Unique (Function.update s i (some (k, v'))) :=
    hs.update_some fun j w hji hj => hji (hs j i (k, w) (k, v) hj hi rfl)
  apply lookup_eq_of hs'
  intro k' w
  by_cases hkk : k' = k
  · subst hkk
    rw [Function.update_self, ← lookup_eq_some_iff hs',
      lookup_of_slot hs' (Function.update_self ..)]
  · rw [Function.update_of_ne hkk, lookup_eq_some_iff hs]
    apply exists_congr
    intro j
    by_cases hji : j = i
    · rw [hji, Function.update_self, hi]
      simp [Ne.symm hkk]
    · rw [Function.update_of_ne hji]

/-- Changing every value changes the map pointwise. -/
theorem lookup_map {s s' : Slots n K V} (hs : Unique s) (g : V → V)
    (hslots : ∀ i, s' i = (s i).map fun x => (x.1, g x.2)) (k : K) :
    lookup s' k = (lookup s k).map g := by
  have hs' : Unique s' := by
    apply hs.of_keys
    intro i a hi
    rw [hslots] at hi
    obtain ⟨x, hx, rfl⟩ := Option.map_eq_some_iff.mp hi
    exact ⟨x.2, hx⟩
  apply Option.ext
  intro v
  rw [lookup_eq_some_iff hs', Option.map_eq_some_iff]
  constructor
  · rintro ⟨i, hi⟩
    rw [hslots] at hi
    obtain ⟨x, hx, hxv⟩ := Option.map_eq_some_iff.mp hi
    rw [Prod.mk.injEq] at hxv
    refine ⟨x.2, ?_, hxv.2⟩
    rw [← hxv.1]
    exact lookup_of_slot hs hx
  · rintro ⟨x, hx, rfl⟩
    obtain ⟨i, hi⟩ := (lookup_eq_some_iff hs).mp hx
    refine ⟨i, ?_⟩
    rw [hslots, hi]
    rfl

/-- Emptying the slots of a key removes it from the map. -/
theorem lookup_filter {s s' : Slots n K V} (hs : Unique s) {k : K}
    (hslots : ∀ i, s' i = (s i).filter fun x => x.1 ≠ k) :
    lookup s' = Function.update (lookup s) k none := by
  have hmem : ∀ i k' v, s' i = some (k', v) ↔ s i = some (k', v) ∧ k' ≠ k := by
    intro i k' v
    rw [hslots, Option.filter_eq_some_iff, decide_eq_true_eq]
  have hs' : Unique s' := hs.of_keys fun i a hi => ⟨a.2, ((hmem i a.1 a.2).mp hi).1⟩
  apply lookup_eq_of hs'
  intro k' v
  by_cases hkk : k' = k
  · rw [hkk, Function.update_self]
    refine iff_of_false ?_ (Option.some_ne_none _).symm
    rintro ⟨i, hi⟩
    exact ((hmem i k v).mp hi).2 rfl
  · rw [Function.update_of_ne hkk, lookup_eq_some_iff hs]
    apply exists_congr
    intro i
    rw [hmem]
    exact and_iff_left hkk

/-- The map has at most as many keys as there are slots. -/
theorem card_le_of_lookup {s : Slots n K V} (hs : Unique s) (keys : Finset K)
    (hkeys : ∀ k ∈ keys, lookup s k ≠ none) : keys.card ≤ n := by
  have hslot : ∀ k ∈ keys, ∃ i v, s i = some (k, v) := by
    intro k hk
    obtain ⟨v, hv⟩ := Option.ne_none_iff_exists'.mp (hkeys k hk)
    obtain ⟨i, hi⟩ := (lookup_eq_some_iff hs).mp hv
    exact ⟨i, v, hi⟩
  choose slot value hslot using hslot
  have hinj : Function.Injective fun k : keys => slot k.1 k.2 := by
    intro a b hab
    have hsa := hslot a.1 a.2
    rw [show slot a.1 a.2 = slot b.1 b.2 from hab, hslot b.1 b.2, Option.some.injEq,
      Prod.mk.injEq] at hsa
    exact Subtype.ext hsa.1.symm
  have hcard := Fintype.card_le_of_injective _ hinj
  rwa [Fintype.card_coe, Fintype.card_fin] at hcard

end Map

section WriteBack

variable [DecidableEq K]

/-- What cache and store together say about a key. -/
def effective (s : Slots n K V) (store : K → V) (k : K) : V :=
  (lookup s k).getD (store k)

/-- The store after the occupant of a slot, if any, was written back. -/
def writeBack (store : K → V) : Option (K × V) → K → V
  | none => store
  | some (k, v) => Function.update store k v

theorem effective_of_slot {s : Slots n K V} (hs : Unique s) {i : Fin n} {k : K} {v : V}
    (hi : s i = some (k, v)) (store : K → V) : effective s store k = v := by
  rw [effective, lookup_of_slot hs hi, Option.getD_some]

theorem effective_of_absent {s : Slots n K V} {k : K} (hk : Absent s k) (store : K → V) :
    effective s store k = store k := by
  rw [effective, lookup_eq_none_iff.mpr hk, Option.getD_none]

/-- The effective value of a key depends on its own entries and its stored value only. -/
theorem effective_congr {s s' : Slots n K V} (hs : Unique s) (hs' : Unique s') {k : K}
    (hslots : ∀ i v, s' i = some (k, v) ↔ s i = some (k, v)) {store store' : K → V}
    (hstore : store' k = store k) : effective s' store' k = effective s store k := by
  have hlookup : lookup s' k = lookup s k := by
    apply Option.ext
    intro v
    rw [lookup_eq_some_iff hs', lookup_eq_some_iff hs]
    exact exists_congr fun i => hslots i v
  rw [effective, effective, hlookup, hstore]

/-- Changing every cached and every stored value alike changes every effective value so. -/
theorem effective_map {s s' : Slots n K V} (hs : Unique s) (g : V → V)
    (hslots : ∀ i, s' i = (s i).map fun x => (x.1, g x.2)) {store store' : K → V}
    (hstore : ∀ k, store' k = g (store k)) (k : K) :
    effective s' store' k = g (effective s store k) := by
  rw [effective, effective, lookup_map hs g hslots, hstore]
  cases lookup s k with
  | none => rfl
  | some v => rfl

/-- Filling a slot with a key's stored value and writing the occupant back to
the store changes no effective value. -/
theorem effective_replace {s : Slots n K V} (hs : Unique s) (i : Fin n) {k : K}
    (hk : Absent s k) (store : K → V) :
    effective (Function.update s i (some (k, store k))) (writeBack store (s i)) =
      effective s store := by
  funext k'
  rw [effective, lookup_replace hs i hk]
  by_cases hkk : k' = k
  · rw [hkk, Function.update_self, Option.getD_some, effective_of_absent hk]
  · rw [Function.update_of_ne hkk]
    cases hsi : s i with
    | none => rfl
    | some a =>
      show (Function.update (lookup s) a.1 none k').getD (Function.update store a.1 a.2 k') = _
      by_cases hka : k' = a.1
      · -- the value of the previous occupant moves from the slot to the store
        rw [hka, Function.update_self, Function.update_self, effective_of_slot hs hsi]
        rfl
      · rw [Function.update_of_ne hka, Function.update_of_ne hka]
        rfl

/-- Changing the value in a slot changes the effective value of its key only. -/
theorem effective_modify {s : Slots n K V} (hs : Unique s) {i : Fin n} {k : K} {v : V}
    (hi : s i = some (k, v)) (v' : V) (store : K → V) :
    effective (Function.update s i (some (k, v'))) store =
      Function.update (effective s store) k v' := by
  funext k'
  rw [effective, lookup_modify hs hi]
  by_cases hkk : k' = k
  · rw [hkk, Function.update_self, Function.update_self, Option.getD_some]
  · rw [Function.update_of_ne hkk, Function.update_of_ne hkk]
    rfl

/-- Writing the occupants of the listed slots back, in order. -/
def flush (s : Slots n K V) (is : List (Fin n)) (store : K → V) : K → V :=
  is.foldl (fun st i => writeBack st (s i)) store

/-- After the listed slots were written back, the store holds the value of
every key one of them holds and is unchanged at all other keys. -/
theorem flush_apply {s : Slots n K V} (hs : Unique s) (is : List (Fin n)) (store : K → V)
    (k : K) :
    (∀ i v, i ∈ is → s i = some (k, v) → flush s is store k = v) ∧
      ((∀ i v, i ∈ is → s i ≠ some (k, v)) → flush s is store k = store k) := by
  induction is generalizing store with
  | nil => exact ⟨fun _ _ hi => absurd hi (List.not_mem_nil), fun _ => rfl⟩
  | cons a is ih =>
    obtain ⟨ihs, ihn⟩ := ih (writeBack store (s a))
    constructor
    · intro i v hi hv
      by_cases hlater : ∃ j ∈ is, ∃ v', s j = some (k, v')
      · obtain ⟨j, hj, v', hv'⟩ := hlater
        have hij : i = j := hs i j (k, v) (k, v') hv hv' rfl
        exact ihs i v (hij ▸ hj) hv
      · have hia : i = a := by
          rcases List.mem_cons.mp hi with h | h
          · exact h
          · exact absurd ⟨i, h, v, hv⟩ hlater
        have hrest := ihn fun j v' hj hv' => hlater ⟨j, hj, v', hv'⟩
        rw [flush, List.foldl_cons, ← flush, hrest, ← hia, hv, writeBack, Function.update_self]
    · intro hnone
      have hrest := ihn fun j v hj => hnone j v (List.mem_cons_of_mem _ hj)
      rw [flush, List.foldl_cons, ← flush, hrest]
      cases hsa : s a with
      | none => rfl
      | some b =>
        have hne : k ≠ b.1 := fun h => hnone a b.2 List.mem_cons_self (by rw [hsa, h])
        simp [writeBack, Function.update_of_ne hne]

/-- Writing every slot back makes the store the effective map. -/
theorem flush_all {s : Slots n K V} (hs : Unique s) (store : K → V) :
    flush s (List.finRange n) store = effective s store := by
  funext k
  by_cases habs : Absent s k
  · rw [effective_of_absent habs]
    exact (flush_apply hs _ store k).2 fun i v _ => habs i v
  · simp only [Absent, not_forall, not_not] at habs
    obtain ⟨i, v, hi⟩ := habs
    rw [effective_of_slot hs hi]
    exact (flush_apply hs _ store k).1 i v (List.mem_finRange i) hi

/-- Once the store is the effective map, it stays so. -/
theorem effective_effective {s : Slots n K V} (store : K → V) :
    effective s (effective s store) = effective s store := by
  funext k
  unfold effective
  cases lookup s k <;> rfl

end WriteBack

end SimOS.Library.SlotCache
