/-
# BtcRig.Theory.RingBuffer — a ring buffer is a bounded FIFO

A ring keeps its elements in `capacity` slots between two indices that wrap.
`WF` is the representation invariant, `toList` the queue it stands for
(oldest first), and the three operations act on that list as a queue of bounded
length does: `toList_push`, `toList_pop`, `toList_clear`.  A push onto a full ring
is dropped.
-/
import Mathlib

namespace BtcRig.Theory

set_option autoImplicit false

variable {α : Type}

structure RingBuffer (α : Type) (capacity : Nat) where
  slots : Nat → α
  head : Nat
  tail : Nat
  count : Nat

namespace RingBuffer

variable {capacity : Nat}

def push (r : RingBuffer α capacity) (x : α) : RingBuffer α capacity :=
  if capacity ≤ r.count then r
  else { r with
    slots := Function.update r.slots r.tail x
    tail := (r.tail + 1) % capacity
    count := r.count + 1 }

def pop (r : RingBuffer α capacity) : Option α × RingBuffer α capacity :=
  if 0 < r.count then
    (some (r.slots r.head), { r with head := (r.head + 1) % capacity, count := r.count - 1 })
  else (none, r)

/-- Reset the indices; the slots keep their stale contents. -/
def clear (r : RingBuffer α capacity) : RingBuffer α capacity := { r with head := 0, tail := 0, count := 0 }

/-- The representation invariant. -/
structure WF (r : RingBuffer α capacity) : Prop where
  head_lt : r.head < capacity
  tail_eq : r.tail = (r.head + r.count) % capacity
  count_le : r.count ≤ capacity

/-- The queue the ring stands for, oldest element first. -/
def toList (r : RingBuffer α capacity) : List α :=
  (List.range r.count).map fun i => r.slots ((r.head + i) % capacity)

@[simp] theorem length_toList (r : RingBuffer α capacity) : r.toList.length = r.count := by
  simp [toList]

theorem wf_push {r : RingBuffer α capacity} (wf : r.WF) (x : α) : (r.push x).WF := by
  unfold push
  split
  · exact wf
  · rename_i room
    refine ⟨wf.head_lt, ?_, by simp only; omega⟩
    simp only
    rw [wf.tail_eq, ← Nat.add_assoc, Nat.mod_add_mod]

theorem wf_pop {r : RingBuffer α capacity} (wf : r.WF) : r.pop.2.WF := by
  unfold pop
  split
  · rename_i some_
    have positive : 0 < capacity := by have := wf.head_lt; omega
    refine ⟨Nat.mod_lt _ positive, ?_, by have := wf.count_le; simp only; omega⟩
    simp only
    rw [wf.tail_eq, Nat.mod_add_mod]
    congr 1
    omega
  · exact wf

theorem wf_clear {r : RingBuffer α capacity} (positive : 0 < capacity) : r.clear.WF :=
  ⟨positive, (Nat.zero_mod capacity).symm, Nat.zero_le _⟩

/-- Slots in use are distinct from the slot at `tail` while there is room. -/
theorem slot_ne_tail {r : RingBuffer α capacity} (wf : r.WF) (room : r.count < capacity) {i : Nat}
    (used : i < r.count) : (r.head + i) % capacity ≠ r.tail := by
  intro same
  rw [wf.tail_eq] at same
  have gap : (r.head + r.count - (r.head + i)) % capacity = 0 :=
    Nat.sub_mod_eq_zero_of_mod_eq same.symm
  rw [show r.head + r.count - (r.head + i) = r.count - i by omega,
    Nat.mod_eq_of_lt (by omega)] at gap
  omega

/-- Pushing appends, unless the ring is full. -/
theorem toList_push {r : RingBuffer α capacity} (wf : r.WF) (x : α) :
    (r.push x).toList = if r.toList.length < capacity then r.toList ++ [x] else r.toList := by
  rw [length_toList]
  unfold push
  split
  · rename_i full
    rw [if_neg (by omega)]
  · rename_i room
    have room : r.count < capacity := by omega
    rw [if_pos room]
    simp only [toList, List.range_succ, List.map_append, List.map_cons, List.map_nil]
    congr 1
    · apply List.map_congr_left
      intro i member
      rw [Function.update_of_ne (slot_ne_tail wf room (List.mem_range.mp member))]
    · rw [← wf.tail_eq, Function.update_self]

/-- Popping removes the oldest element, or reports an empty queue. -/
theorem toList_pop {r : RingBuffer α capacity} (wf : r.WF) :
    r.pop.1 = r.toList.head? ∧ r.pop.2.toList = r.toList.tail := by
  unfold pop
  split
  · rename_i nonempty
    obtain ⟨n, size⟩ : ∃ n, r.count = n + 1 := ⟨r.count - 1, by omega⟩
    have oldest : r.toList = r.slots r.head ::
        (List.range n).map fun i => r.slots ((r.head + (i + 1)) % capacity) := by
      rw [toList, size, List.range_succ_eq_map, List.map_cons, List.map_map, Nat.add_zero,
        Nat.mod_eq_of_lt wf.head_lt]
      rfl
    refine ⟨by rw [oldest]; rfl, ?_⟩
    rw [oldest, List.tail_cons]
    simp only [toList, size, Nat.add_sub_cancel]
    apply List.map_congr_left
    intro i _
    rw [Nat.mod_add_mod, Nat.add_assoc, Nat.add_comm 1 i]
  · rename_i empty
    have none_ : r.toList = [] := by
      rw [← List.length_eq_zero_iff, length_toList]
      omega
    simp [none_]

@[simp] theorem toList_clear (r : RingBuffer α capacity) : r.clear.toList = [] := rfl

end RingBuffer

end BtcRig.Theory
