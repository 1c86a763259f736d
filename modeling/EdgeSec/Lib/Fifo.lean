import Mathlib

/-!
# Bounded FIFO queues

The abstract model of a first-in first-out queue that holds at most `cap` elements and,
when a new element would overflow the bound, forgets the oldest ones: it always keeps the
newest `cap` elements.  `cap = none` is the unbounded queue.

The bound is a field of the structure, so no queue that violates it can be built; every
operation below proves that it keeps the bound.  The one fact the implementations need is
`enqueue_items_of_some`: on a queue within its bound, keeping the newest `m` elements after
an insertion drops at most one element, the oldest.
-/

namespace EdgeSec

/-- A first-in first-out queue of at most `cap` elements (no bound for `cap = none`),
oldest first. -/
structure BoundedFifo (α : Type*) where
  cap : Option ℕ
  items : List α
  within : ∀ m ∈ cap, items.length ≤ m

namespace BoundedFifo

variable {α : Type*}

/-- The empty queue with bound `cap`. -/
def empty (cap : Option ℕ) : BoundedFifo α := ⟨cap, [], by simp⟩

/-- How many of the oldest of `n` elements lie beyond the bound. -/
def excess : Option ℕ → ℕ → ℕ
  | none, _ => 0
  | some m, n => n - m

/-- Insert `x` as the newest element and keep the newest `cap` elements. -/
def enqueue (q : BoundedFifo α) (x : α) : BoundedFifo α where
  cap := q.cap
  items := (q.items ++ [x]).drop (excess q.cap (q.items.length + 1))
  within := by
    intro m hm
    rw [Option.mem_def] at hm
    simp only [hm, excess, List.length_drop, List.length_append, List.length_singleton]
    omega

/-- The oldest element, if any. -/
def front (q : BoundedFifo α) : Option α := q.items.head?

/-- Remove the oldest element (nothing on the empty queue). -/
def dequeue (q : BoundedFifo α) : BoundedFifo α where
  cap := q.cap
  items := q.items.tail
  within := fun m hm => by
    have := q.within m hm
    rw [List.length_tail]
    omega

/-- The oldest `k` elements, or all of them for `k = none`. -/
def oldest (q : BoundedFifo α) : Option ℕ → List α
  | none => q.items
  | some k => q.items.take k

/-- Forget the oldest `k` elements, or all of them for `k = none`. -/
def discard (q : BoundedFifo α) (k : Option ℕ) : BoundedFifo α where
  cap := q.cap
  items := match k with
    | none => []
    | some k => q.items.drop k
  within := fun m hm => by
    have := q.within m hm
    cases k with
    | none => simp
    | some k => rw [List.length_drop]; omega

@[simp] theorem empty_items (cap : Option ℕ) : (empty cap : BoundedFifo α).items = [] := rfl
@[simp] theorem empty_cap (cap : Option ℕ) : (empty cap : BoundedFifo α).cap = cap := rfl
@[simp] theorem enqueue_cap (q : BoundedFifo α) (x : α) : (q.enqueue x).cap = q.cap := rfl
@[simp] theorem dequeue_cap (q : BoundedFifo α) : q.dequeue.cap = q.cap := rfl
@[simp] theorem dequeue_items (q : BoundedFifo α) : q.dequeue.items = q.items.tail := rfl
@[simp] theorem discard_cap (q : BoundedFifo α) (k : Option ℕ) : (q.discard k).cap = q.cap := rfl
@[simp] theorem discard_none (q : BoundedFifo α) : (q.discard none).items = [] := rfl
@[simp] theorem discard_some (q : BoundedFifo α) (k : ℕ) :
    (q.discard (some k)).items = q.items.drop k := rfl

/-- An unbounded queue never forgets anything. -/
theorem enqueue_items_of_none {q : BoundedFifo α} (h : q.cap = none) (x : α) :
    (q.enqueue x).items = q.items ++ [x] := by
  simp [enqueue, h, excess]

/-- On a bounded queue, keeping the newest `m` elements after an insertion forgets the
oldest element exactly when the insertion overflows the bound, and nothing else. -/
theorem enqueue_items_of_some {q : BoundedFifo α} {m : ℕ} (h : q.cap = some m) (x : α) :
    (q.enqueue x).items =
      if m < q.items.length + 1 then (q.items ++ [x]).tail else q.items ++ [x] := by
  have hle : q.items.length ≤ m := q.within m h
  simp only [enqueue, h, excess]
  split
  · rw [show q.items.length + 1 - m = 1 by omega, List.drop_one]
  · rw [show q.items.length + 1 - m = 0 by omega, List.drop_zero]

/-- The length of a bounded queue never exceeds its bound. -/
theorem length_le {q : BoundedFifo α} {m : ℕ} (h : q.cap = some m) : q.items.length ≤ m :=
  q.within m h

end BoundedFifo

end EdgeSec
