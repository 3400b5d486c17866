/-!
# Bounded queues

First in, first out, with a fixed number of places. What does not fit is lost.
-/

namespace MoteLink

/-- A queue of at most `capacity` items, oldest first. -/
structure Fifo (α : Type) where
  items : List α
  capacity : Nat
  length_le : items.length ≤ capacity
  deriving Repr

namespace Fifo

variable {α : Type}

def empty (capacity : Nat) : Fifo α := ⟨[], capacity, Nat.zero_le _⟩

def isFull (q : Fifo α) : Bool := q.items.length == q.capacity

/-- Put an item at the end; a full queue stays as it is. -/
def push (q : Fifo α) (a : α) : Fifo α :=
  if h : q.items.length < q.capacity then
    ⟨q.items ++ [a], q.capacity, by rw [List.length_append, List.length_singleton]; exact h⟩
  else q

/-- The oldest item and the queue without it. -/
def pop (q : Fifo α) : Option α × Fifo α :=
  match h : q.items with
  | [] => (none, q)
  | a :: rest =>
    (some a, ⟨rest, q.capacity, by have := q.length_le; simp [h] at this; omega⟩)

/-- The queue with nothing in it. -/
def clear (q : Fifo α) : Fifo α := empty q.capacity

@[simp] theorem capacity_push (q : Fifo α) (a : α) : (q.push a).capacity = q.capacity := by
  unfold push
  split <;> rfl

theorem items_push_of_lt {q : Fifo α} (a : α) (h : q.items.length < q.capacity) :
    (q.push a).items = q.items ++ [a] := by
  simp [push, h]

theorem push_of_full {q : Fifo α} (a : α) (h : q.capacity ≤ q.items.length) : q.push a = q := by
  simp [push, Nat.not_lt.mpr h]

theorem pop_nil {q : Fifo α} (h : q.items = []) : q.pop = (none, q) := by
  unfold pop
  split
  · rfl
  · rename_i heq
    simp [h] at heq

theorem pop_fst (q : Fifo α) : q.pop.1 = q.items.head? := by
  unfold pop
  split <;> rename_i heq <;> simp [heq]

theorem items_pop (q : Fifo α) : q.pop.2.items = q.items.tail := by
  unfold pop
  split <;> rename_i heq <;> simp [heq]

@[simp] theorem capacity_pop (q : Fifo α) : q.pop.2.capacity = q.capacity := by
  unfold pop
  split <;> rfl

end Fifo

end MoteLink
