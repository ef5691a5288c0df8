import Mathlib.Data.List.Induction
import ServerTest.Lib.Transition

/-!
# A first-in first-out stream

The specification of anything that takes elements in and hands them out in order: what was put in,
what has come out, what is still inside. There are two moves. `put` adds at the back, `take` hands
out some elements at the front; nothing is dropped, repeated or reordered because no move could.

A program is shown to be such a stream by a `Simulation`, and then `conserved` and
`delivered_prefix` hold of it. Chunks are the program's business: an element here is whatever the
program counts in, and `take_front` is how a program that keeps a front chunk apart takes from it.
-/

set_option autoImplicit false

namespace ServerTest.Lib

structure Fifo (α : Type*) where
  offered : List α
  delivered : List α
  inside : List α

namespace Fifo

variable {α : Type*}

inductive Step : Fifo α → Fifo α → Prop
  | put (q : Fifo α) (xs : List α) :
      Step q { q with offered := q.offered ++ xs, inside := q.inside ++ xs }
  | take (q : Fifo α) (n : Nat) :
      Step q { q with delivered := q.delivered ++ q.inside.take n, inside := q.inside.drop n }

variable (α) in
/-- Every sequence of moves of an initially empty stream. -/
def system : System (Fifo α) where
  init q := q = ⟨[], [], []⟩
  step := Step

/-- Taking `n` elements of a front chunk leaves the rest of the chunk in front. -/
theorem take_front (offered delivered front rest : List α) {n : Nat} (hn : n ≤ front.length) :
    Step ⟨offered, delivered, front ++ rest⟩
      ⟨offered, delivered ++ front.take n, front.drop n ++ rest⟩ := by
  have h := Step.take ⟨offered, delivered, front ++ rest⟩ n
  rwa [List.take_append_of_le_length hn, List.drop_append_of_le_length hn] at h

/-- **Nothing is lost, repeated or reordered.** -/
theorem conserved {q : Fifo α} (h : (system α).Reachable q) :
    q.delivered ++ q.inside = q.offered := by
  refine h.invariant (P := fun q => q.delivered ++ q.inside = q.offered) ?_ ?_
  · intro q hq
    subst hq
    rfl
  · intro q r _ ih hstep
    cases hstep with
    | put xs => rw [← List.append_assoc, ih]
    | take n => rw [List.append_assoc, List.take_append_drop, ih]

theorem delivered_prefix {q : Fifo α} (h : (system α).Reachable q) : q.delivered <+: q.offered :=
  ⟨q.inside, conserved h⟩

end Fifo

end ServerTest.Lib
