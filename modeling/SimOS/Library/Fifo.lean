import Mathlib.Data.List.Infix

/-!
# First in, first out

A queue with the log of those who joined it and the log of those who left it,
oldest first. Whoever joins does so at the end and whoever leaves does so from
the front, so the first log is the second followed by the queue.
-/

namespace SimOS.Library

variable {α : Type*}

/-- Who joined the queue, who left it, and who is in it. -/
def Fifo (joined left queue : List α) : Prop := joined = left ++ queue

namespace Fifo

variable {joined left queue : List α}

theorem start (queue : List α) : Fifo queue [] queue := rfl

/-- Some join at the end and some leave from the front. -/
theorem step (h : Fifo joined left queue) {new out queue' : List α}
    (hqueue : queue ++ new = out ++ queue') : Fifo (joined ++ new) (left ++ out) queue' := by
  rw [Fifo, h, List.append_assoc, hqueue, List.append_assoc]

theorem enqueue (h : Fifo joined left queue) (a : α) :
    Fifo (joined ++ [a]) left (queue ++ [a]) := by
  rw [Fifo, h, List.append_assoc]

theorem dequeue (h : Fifo joined left queue) {a : α} {next : List α} (hqueue : queue = a :: next) :
    Fifo joined (left ++ [a]) next := by
  rw [Fifo, h, hqueue, List.append_assoc, List.singleton_append]

/-- Nobody overtakes: until `a` leaves those who have left were ahead of it, in
order, and `a` leaves once all of them have. -/
theorem in_order {ahead later : List α} {a : α} (h : Fifo (ahead ++ a :: later) left queue)
    (hahead : a ∉ ahead) :
    (a ∉ left → left <+: ahead) ∧ (a ∈ left → ∃ rest, left = ahead ++ a :: rest) := by
  rcases List.append_eq_append_iff.mp h with ⟨more, hleft, hlater⟩ | ⟨rest, hrest, _⟩
  · -- everybody ahead has left
    cases more with
    | nil =>
      rw [List.append_nil] at hleft
      rw [hleft]
      exact ⟨fun _ => List.prefix_refl ahead, fun ha => absurd ha hahead⟩
    | cons b more =>
      rw [List.cons_append] at hlater
      obtain ⟨rfl, _⟩ := List.cons.inj hlater
      refine ⟨fun ha => absurd ?_ ha, fun _ => ⟨more, hleft⟩⟩
      rw [hleft]
      exact List.mem_append_right ahead List.mem_cons_self
  · refine ⟨fun _ => ⟨rest, hrest.symm⟩, fun ha => absurd ?_ hahead⟩
    rw [hrest]
    exact List.mem_append_left rest ha

end Fifo

end SimOS.Library
