import Mathlib.Data.List.Nodup
import Mathlib.Logic.Function.Basic
import Mathlib.Tactic.Basic

/-!
# Queues of linked cells

Cells with a link to a next cell, at addresses of any kind, and queues that have
a pointer to their first cell and one to their last. A cell joins by being linked
behind the last one; the first one leaves by moving the pointer to the next.

The pointer to the last cell stays where it is when the queue becomes empty, so
the next cell to join is also linked behind a cell that has left. `Holds` is the
invariant under which this does no harm: such a cell is in no queue.
-/

namespace SimOS.Library

variable {Q A V : Type*}

/-- A value and the link to the next cell. -/
structure Cell (A V : Type*) where
  next : Option A
  val : V

/-- The pointers to the first and to the last cell of a queue. -/
structure Ends (A : Type*) where
  head : Option A
  tail : Option A

/-- Following the links from `p` meets these cells, in order, and then ends. -/
def Follows (cells : A → Option (Cell A V)) : Option A → List (A × V) → Prop
  | p, [] => p = none
  | p, (a, v) :: rest => p = some a ∧ ∃ next, cells a = some ⟨next, v⟩ ∧ Follows cells next rest

/-- Following the links from `p` comes to the cell. -/
inductive Reaches (cells : A → Option (Cell A V)) (p : Option A) : A → Prop
  | head {a : A} (hp : p = some a) : Reaches cells p a
  | next {a b : A} {c : Cell A V} (h : Reaches cells p a) (hcell : cells a = some c)
      (hnext : c.next = some b) : Reaches cells p b

namespace Follows

variable {cells cells' : A → Option (Cell A V)} {p : Option A} {nodes nodes' : List (A × V)}
  {a b : A} {v w : V}

theorem unique (h : Follows cells p nodes) (h' : Follows cells p nodes') : nodes = nodes' := by
  induction nodes generalizing p nodes' with
  | nil =>
    cases nodes' with
    | nil => rfl
    | cons node rest =>
      obtain rfl : p = none := h
      cases h'.1
  | cons node rest ih =>
    obtain ⟨rfl, next, hcell, hrest⟩ := h
    cases nodes' with
    | nil => cases h'
    | cons node' rest' =>
      obtain ⟨hp, next', hcell', hrest'⟩ := h'
      have haddress : node.1 = node'.1 := Option.some.inj hp
      rw [← haddress, hcell] at hcell'
      obtain ⟨rfl, hval⟩ := Cell.mk.inj (Option.some.inj hcell')
      rw [ih hrest hrest', Prod.ext haddress hval]

/-- Nothing is met from the null pointer, and only from it. -/
theorem eq_none_iff (h : Follows cells p nodes) : p = none ↔ nodes = [] := by
  cases nodes with
  | nil => exact iff_of_true h rfl
  | cons node rest =>
    rw [h.1]
    exact iff_of_false (Option.some_ne_none _) (List.cons_ne_nil _ _)

/-- The links from a cell that is met lead to the cells behind it. -/
theorem from_cell {front back : List (A × V)} (h : Follows cells p (front ++ (a, v) :: back)) :
    Follows cells (some a) ((a, v) :: back) := by
  induction front generalizing p with
  | nil =>
    obtain ⟨rfl, hrest⟩ := h
    exact ⟨rfl, hrest⟩
  | cons node front ih =>
    obtain ⟨_, next, _, hrest⟩ := h
    exact ih hrest

theorem exists_cell (h : Follows cells p nodes) (hnode : (a, v) ∈ nodes) :
    ∃ next, cells a = some ⟨next, v⟩ := by
  obtain ⟨front, back, rfl⟩ := List.append_of_mem hnode
  obtain ⟨_, next, hcell, _⟩ := h.from_cell
  exact ⟨next, hcell⟩

theorem ne_none (h : Follows cells p nodes) (ha : a ∈ nodes.map Prod.fst) : cells a ≠ none := by
  obtain ⟨⟨_, v⟩, hnode, rfl⟩ := List.mem_map.mp ha
  obtain ⟨next, hcell⟩ := h.exists_cell hnode
  rw [hcell]
  exact Option.some_ne_none _

/-- No cell is met twice. -/
theorem nodup (h : Follows cells p nodes) : (nodes.map Prod.fst).Nodup := by
  induction nodes generalizing p with
  | nil => exact List.nodup_nil
  | cons node rest ih =>
    obtain ⟨a, v⟩ := node
    have hwhole := h
    obtain ⟨rfl, next, _, hrest⟩ := h
    refine List.nodup_cons.mpr ⟨fun ha => ?_, ih hrest⟩
    -- the cells behind the second meeting would be those behind the first
    obtain ⟨⟨_, w⟩, hnode, rfl⟩ := List.mem_map.mp ha
    obtain ⟨front, back, rfl⟩ := List.append_of_mem hnode
    have heq := congrArg List.length (hwhole.unique hrest.from_cell)
    simp only [List.length_cons, List.length_append] at heq
    omega

/-- Only the cells that are met matter. -/
theorem congr (h : Follows cells p nodes)
    (hsame : ∀ a ∈ nodes.map Prod.fst, cells' a = cells a) : Follows cells' p nodes := by
  induction nodes generalizing p with
  | nil => exact h
  | cons node rest ih =>
    obtain ⟨rfl, next, hcell, hrest⟩ := h
    refine ⟨rfl, next, ?_, ih hrest fun a ha => hsame a (List.mem_cons_of_mem _ ha)⟩
    rw [hsame node.1 List.mem_cons_self]
    exact hcell

/-- A cell is linked behind the last one. -/
theorem concat {front : List (A × V)} (h : Follows cells p (front ++ [(b, w)]))
    (hfront : ∀ x ∈ front.map Prod.fst, cells' x = cells x)
    (hlast : cells' b = some ⟨some a, w⟩) (hnew : cells' a = some ⟨none, v⟩) :
    Follows cells' p (front ++ [(b, w)] ++ [(a, v)]) := by
  induction front generalizing p with
  | nil => exact ⟨h.1, some a, hlast, rfl, none, hnew, rfl⟩
  | cons node front ih =>
    obtain ⟨rfl, next, hcell, hrest⟩ := h
    refine ⟨rfl, next, ?_, ih hrest fun x hx => hfront x (List.mem_cons_of_mem _ hx)⟩
    rw [hfront node.1 List.mem_cons_self]
    exact hcell

/-- Only the cells that are met are reached. -/
theorem mem_of_reaches (h : Follows cells p nodes) (hreach : Reaches cells p a) :
    a ∈ nodes.map Prod.fst := by
  induction hreach with
  | head hp =>
    cases nodes with
    | nil => cases hp.symm.trans h
    | cons node rest =>
      exact List.mem_map.mpr ⟨node, List.mem_cons_self, Option.some.inj (h.1.symm.trans hp)⟩
  | next _ hcell hnext ih =>
    obtain ⟨⟨x, w⟩, hnode, rfl⟩ := List.mem_map.mp ih
    obtain ⟨front, back, rfl⟩ := List.append_of_mem hnode
    obtain ⟨_, next, hcell', hback⟩ := h.from_cell
    obtain rfl := Option.some.inj (hcell.symm.trans hcell')
    cases back with
    | nil => cases hnext.symm.trans hback
    | cons node rest =>
      have hb := Option.some.inj (hback.1.symm.trans hnext)
      refine List.mem_map.mpr ⟨node, ?_, hb⟩
      exact List.mem_append_right _ (List.mem_cons_of_mem _ List.mem_cons_self)

end Follows

/-! ## Queues that share the cells -/

/-- Queues of cells, with the pointers to the ends of each of them. -/
structure LinkedQueues (Q A V : Type*) where
  cells : A → Option (Cell A V)
  ends : Q → Ends A

namespace LinkedQueues

/-- Each queue holds its nodes. The tail of a queue is its last cell while the
queue has one; in any case it is in no other queue. No cell is in two queues. -/
structure Holds (s : LinkedQueues Q A V) (nodes : Q → List (A × V)) : Prop where
  follows : ∀ q, Follows s.cells (s.ends q).head (nodes q)
  last : ∀ q front b w, nodes q = front ++ [(b, w)] → (s.ends q).tail = some b
  live : ∀ q b, (s.ends q).tail = some b → s.cells b ≠ none
  own : ∀ q r b, (s.ends q).tail = some b → b ∈ (nodes r).map Prod.fst → r = q
  apart : ∀ q r b, b ∈ (nodes q).map Prod.fst → b ∈ (nodes r).map Prod.fst → q = r

namespace Holds

variable {s : LinkedQueues Q A V} {nodes : Q → List (A × V)} {a : A}

theorem tail_ne (h : s.Holds nodes) (hfresh : s.cells a = none) (r : Q) :
    (s.ends r).tail ≠ some a :=
  fun htail => h.live r a htail hfresh

theorem not_mem (h : s.Holds nodes) (hfresh : s.cells a = none) (r : Q) :
    a ∉ (nodes r).map Prod.fst :=
  fun ha => (h.follows r).ne_none ha hfresh

end Holds

variable [DecidableEq Q]

/-- The head leaves the queue, whose tail is not touched. -/
def pop (s : LinkedQueues Q A V) (q : Q) : LinkedQueues Q A V :=
  { s with
    ends := Function.update s.ends q
      { head := (s.ends q).head.bind fun a => (s.cells a).bind Cell.next
        tail := (s.ends q).tail } }

/-- The queue with both its ends forgotten. -/
def reset (s : LinkedQueues Q A V) (q : Q) : LinkedQueues Q A V :=
  { s with ends := Function.update s.ends q { head := none, tail := none } }

section Ends

variable {s : LinkedQueues Q A V} {q r : Q}

theorem ends_pop_self : (s.pop q).ends q =
    { head := (s.ends q).head.bind fun a => (s.cells a).bind Cell.next
      tail := (s.ends q).tail } :=
  Function.update_self _ _ _

theorem ends_pop_of_ne (hr : r ≠ q) : (s.pop q).ends r = s.ends r :=
  Function.update_of_ne hr _ _

theorem ends_reset_self : (s.reset q).ends q = { head := none, tail := none } :=
  Function.update_self _ _ _

theorem ends_reset_of_ne (hr : r ≠ q) : (s.reset q).ends r = s.ends r :=
  Function.update_of_ne hr _ _

end Ends

section Pop

variable {s : LinkedQueues Q A V} {nodes : Q → List (A × V)} {q : Q}

theorem mem_nodes_pop {node : A × V} {rest : List (A × V)} (hq : nodes q = node :: rest) {r : Q}
    {b : A} (hb : b ∈ (Function.update nodes q rest r).map Prod.fst) :
    b ∈ (nodes r).map Prod.fst := by
  by_cases hr : r = q
  · rw [hr, Function.update_self] at hb
    rw [hr, hq]
    exact List.mem_cons_of_mem _ hb
  · rwa [Function.update_of_ne hr] at hb

/-- The first node leaves. -/
theorem Holds.pop (h : s.Holds nodes) {node : A × V} {rest : List (A × V)}
    (hq : nodes q = node :: rest) : (s.pop q).Holds (Function.update nodes q rest) := by
  have htails : ∀ r, ((s.pop q).ends r).tail = (s.ends r).tail := by
    intro r
    by_cases hr : r = q
    · rw [hr, ends_pop_self]
    · rw [ends_pop_of_ne hr]
  refine ⟨fun r => ?_, fun r front b w hr => ?_, fun r b hb => ?_, fun p r b hb hmem => ?_,
    fun p r b hp hr => ?_⟩
  · by_cases hr : r = q
    · have hfollows := h.follows q
      rw [hq] at hfollows
      obtain ⟨hhead, next, hcell, hrest⟩ := hfollows
      rw [hr, ends_pop_self, Function.update_self, hhead]
      change Follows s.cells ((s.cells node.1).bind Cell.next) rest
      rw [hcell]
      exact hrest
    · rw [ends_pop_of_ne hr, Function.update_of_ne hr]
      exact h.follows r
  · rw [htails]
    by_cases hqr : r = q
    · rw [hqr, Function.update_self] at hr
      rw [hqr]
      refine h.last q (node :: front) b w ?_
      rw [hq, hr]
      rfl
    · rw [Function.update_of_ne hqr] at hr
      exact h.last r front b w hr
  · rw [htails] at hb
    exact h.live r b hb
  · rw [htails] at hb
    exact h.own p r b hb (mem_nodes_pop hq hmem)
  · exact h.apart p r b (mem_nodes_pop hq hp) (mem_nodes_pop hq hr)

end Pop

theorem mem_nodes_push {nodes : Q → List (A × V)} {q r : Q} {a b : A} {v : V} :
    b ∈ (Function.update nodes q (nodes q ++ [(a, v)]) r).map Prod.fst ↔
      b ∈ (nodes r).map Prod.fst ∨ (r = q ∧ b = a) := by
  by_cases hr : r = q
  · subst hr
    rw [Function.update_self, List.map_append, List.mem_append]
    simp
  · rw [Function.update_of_ne hr]
    simp [hr]

variable [DecidableEq A]

/-- The cells once the cell at `a` was linked behind the one at `tail`, if there is one. -/
def link (cells : A → Option (Cell A V)) (tail : Option A) (a : A) : A → Option (Cell A V) :=
  match tail with
  | none => cells
  | some t => Function.update cells t ((cells t).map fun c => { c with next := some a })

/-- A new cell joins the queue. It becomes the head too if there is none. -/
def push (s : LinkedQueues Q A V) (q : Q) (a : A) (v : V) : LinkedQueues Q A V where
  cells := link (Function.update s.cells a (some { next := none, val := v })) (s.ends q).tail a
  ends := Function.update s.ends q { head := (s.ends q).head.or (some a), tail := some a }

section Push

variable {s : LinkedQueues Q A V} {nodes : Q → List (A × V)} {q r : Q} {a b : A} {v : V}

@[simp] theorem ends_push_self : (s.push q a v).ends q =
    { head := (s.ends q).head.or (some a), tail := some a } :=
  Function.update_self _ _ _

theorem ends_push_of_ne (hr : r ≠ q) : (s.push q a v).ends r = s.ends r :=
  Function.update_of_ne hr _ _

/-- The new cell is the last. -/
theorem cells_push_self (ha : (s.ends q).tail ≠ some a) :
    (s.push q a v).cells a = some ⟨none, v⟩ := by
  rw [push]
  cases htail : (s.ends q).tail with
  | none => exact Function.update_self _ _ _
  | some t =>
    have hne : a ≠ t := by
      rintro rfl
      exact ha htail
    change Function.update _ t _ a = _
    rw [Function.update_of_ne hne, Function.update_self]

/-- The tail is linked to the new cell. -/
theorem cells_push_tail (hb : (s.ends q).tail = some b) (hne : b ≠ a) :
    (s.push q a v).cells b = (s.cells b).map fun c => { c with next := some a } := by
  rw [push, hb]
  change Function.update _ b _ b = _
  rw [Function.update_self, Function.update_of_ne hne]

/-- The other cells stay as they are. -/
theorem cells_push_of_ne (hne : b ≠ a) (hb : (s.ends q).tail ≠ some b) :
    (s.push q a v).cells b = s.cells b := by
  rw [push]
  cases htail : (s.ends q).tail with
  | none => exact Function.update_of_ne hne _ _
  | some t =>
    have hbt : b ≠ t := by
      rintro rfl
      exact hb htail
    change Function.update _ t _ b = _
    rw [Function.update_of_ne hbt, Function.update_of_ne hne]

/-- A cell that is there stays. -/
theorem cells_push_ne_none (ha : (s.ends q).tail ≠ some a) (hb : s.cells b ≠ none) :
    (s.push q a v).cells b ≠ none := by
  by_cases hba : b = a
  · rw [hba, cells_push_self ha]
    exact Option.some_ne_none _
  · by_cases htail : (s.ends q).tail = some b
    · rw [cells_push_tail htail hba, ne_eq, Option.map_eq_none_iff]
      exact hb
    · rw [cells_push_of_ne hba htail]
      exact hb

/-- The queue that is joined has the new cell behind the others. -/
theorem Holds.follows_push (h : s.Holds nodes) (hfresh : s.cells a = none) :
    Follows (s.push q a v).cells ((s.push q a v).ends q).head (nodes q ++ [(a, v)]) := by
  have hq := h.follows q
  have hnew : (s.push q a v).cells a = some ⟨none, v⟩ := cells_push_self (h.tail_ne hfresh q)
  rw [ends_push_self]
  rcases List.eq_nil_or_concat (nodes q) with hnil | ⟨front, ⟨b, w⟩, hlast⟩
  · -- a queue without a head: a stale tail is linked to the new cell, which does no harm
    rw [hnil] at hq ⊢
    have hhead : (s.ends q).head = none := hq
    rw [hhead]
    exact ⟨rfl, none, hnew, rfl⟩
  · rw [List.concat_eq_append] at hlast
    have htail := h.last q front b w hlast
    have hnodup := hq.nodup
    rw [hlast] at hq hnodup ⊢
    have hne : b ≠ a := by
      rintro rfl
      exact h.tail_ne hfresh q htail
    obtain ⟨next, hcell⟩ := hq.exists_cell (List.mem_append_right front List.mem_cons_self)
    have hhead : (s.ends q).head.or (some a) = (s.ends q).head := by
      have hsome : (s.ends q).head ≠ none := hq.eq_none_iff.not.mpr (List.concat_ne_nil _ _)
      obtain ⟨x, hx⟩ := Option.ne_none_iff_exists'.mp hsome
      rw [hx]
      rfl
    rw [hhead]
    refine hq.concat (fun x hx => cells_push_of_ne ?_ ?_) ?_ hnew
    · rintro rfl
      exact h.not_mem hfresh q (by rw [hlast, List.map_append]; exact List.mem_append_left _ hx)
    · rw [htail]
      rintro hbx
      obtain rfl := Option.some.inj hbx
      rw [List.map_append] at hnodup
      exact (List.nodup_append.mp hnodup).2.2 b hx b (List.mem_singleton.mpr rfl) rfl
    · rw [cells_push_tail htail hne, hcell]
      rfl

theorem Holds.push (h : s.Holds nodes) (hfresh : s.cells a = none) (q : Q) (v : V) :
    (s.push q a v).Holds (Function.update nodes q (nodes q ++ [(a, v)])) := by
  have htail := h.tail_ne hfresh
  have hnew : (s.push q a v).cells a = some ⟨none, v⟩ := cells_push_self (htail q)
  have htails : ∀ r b, ((s.push q a v).ends r).tail = some b →
      (r = q ∧ b = a) ∨ (r ≠ q ∧ (s.ends r).tail = some b) := by
    intro r b hb
    by_cases hr : r = q
    · rw [hr, ends_push_self] at hb
      exact .inl ⟨hr, (Option.some.inj hb).symm⟩
    · rw [ends_push_of_ne hr] at hb
      exact .inr ⟨hr, hb⟩
  refine ⟨fun r => ?_, fun r front b w hr => ?_, fun r b hb => ?_, fun p r b hb hmem => ?_,
    fun p r b hp hr => ?_⟩
  · by_cases hr : r = q
    · rw [hr, Function.update_self]
      exact h.follows_push hfresh
    · rw [Function.update_of_ne hr, ends_push_of_ne hr]
      refine (h.follows r).congr fun b hb => cells_push_of_ne ?_ fun hstale => ?_
      · rintro rfl
        exact h.not_mem hfresh r hb
      · exact hr (h.own q r b hstale hb)
  · by_cases hq : r = q
    · rw [hq, Function.update_self] at hr
      obtain ⟨_, heq⟩ := List.append_inj' hr rfl
      obtain ⟨rfl, _⟩ := Prod.mk.inj (List.cons.inj heq).1
      rw [hq, ends_push_self]
    · rw [Function.update_of_ne hq] at hr
      rw [ends_push_of_ne hq]
      exact h.last r front b w hr
  · rcases htails r b hb with ⟨_, rfl⟩ | ⟨_, hold⟩
    · rw [hnew]
      exact Option.some_ne_none _
    · exact cells_push_ne_none (htail q) (h.live r b hold)
  · rcases htails p b hb with ⟨rfl, rfl⟩ | ⟨_, hstale⟩
    · rcases mem_nodes_push.mp hmem with hold | ⟨hr, _⟩
      · exact absurd hold (h.not_mem hfresh r)
      · exact hr
    · rcases mem_nodes_push.mp hmem with hold | ⟨_, rfl⟩
      · exact h.own p r b hstale hold
      · exact absurd hstale (htail p)
  · rcases mem_nodes_push.mp hp with hold | ⟨rfl, rfl⟩
    · rcases mem_nodes_push.mp hr with hother | ⟨_, rfl⟩
      · exact h.apart p r b hold hother
      · exact absurd hold (h.not_mem hfresh p)
    · rcases mem_nodes_push.mp hr with hother | ⟨hsame, _⟩
      · exact absurd hother (h.not_mem hfresh r)
      · exact hsame.symm

/-- A queue without a head takes the new cell as one does whose ends were never
set: what differs is the stale tail, which nobody reaches. -/
theorem Holds.push_reset (h : s.Holds nodes) (hfresh : s.cells a = none)
    (hhead : (s.ends q).head = none) :
    (s.push q a v).ends = ((s.reset q).push q a v).ends ∧
      ∀ r b, Reaches (s.push q a v).cells ((s.push q a v).ends r).head b →
        (s.push q a v).cells b = ((s.reset q).push q a v).cells b := by
  have hnil : nodes q = [] := (h.follows q).eq_none_iff.mp hhead
  constructor
  · funext r
    by_cases hr : r = q
    · rw [hr, ends_push_self, ends_push_self, ends_reset_self, hhead]
    · rw [ends_push_of_ne hr, ends_push_of_ne hr, ends_reset_of_ne hr]
  · intro r b hreach
    have hmem := (h.push hfresh q v).follows r |>.mem_of_reaches hreach
    have hne : ∀ x, ((s.reset q).ends q).tail ≠ some x := by
      intro x
      rw [ends_reset_self]
      exact (Option.some_ne_none x).symm
    by_cases hba : b = a
    · rw [hba, cells_push_self (h.tail_ne hfresh q), cells_push_self (hne a)]
    · have htail : (s.ends q).tail ≠ some b := by
        intro hstale
        rcases mem_nodes_push.mp hmem with hold | ⟨_, hb⟩
        · have hrq := h.own q r b hstale hold
          rw [hrq, hnil] at hold
          exact List.not_mem_nil hold
        · exact hba hb
      rw [cells_push_of_ne hba htail, cells_push_of_ne hba (hne b)]
      rfl

end Push

end LinkedQueues

end SimOS.Library
