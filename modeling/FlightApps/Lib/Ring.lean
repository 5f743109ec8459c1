import Mathlib.Data.List.Basic
import Mathlib.Logic.Function.Basic

/-!
# Ring buffers

A ring of `n` cells takes items one after the other and, once it is full, overwrites the oldest.
`head` is the cell the next item goes to, `count` the number of cells that hold an item.  `toList`
reads the items from the oldest on.

A ring is a window on the log of all that was ever pushed: `Window r log` says that it holds the
last `n` items of the log, and `Window.push` that pushing keeps this up.
-/

set_option autoImplicit false

universe u

/-- A ring of `n` cells. -/
structure RingBuffer (α : Type u) (n : Nat) where
  cell : Fin n → α
  head : Nat
  count : Nat
  head_lt : head < n
  count_le : count ≤ n

namespace RingBuffer

variable {α : Type u} {n : Nat}

theorem pos (r : RingBuffer α n) : 0 < n := Nat.zero_lt_of_lt r.head_lt

/-- The cell that is reached by going `i` cells on from the first one, round and round. -/
def walk (r : RingBuffer α n) (i : Nat) : α := r.cell ⟨i % n, Nat.mod_lt i r.pos⟩

/-- The items, oldest first. -/
def toList (r : RingBuffer α n) : List α :=
  (List.range r.count).map fun i => r.walk (r.head + n - r.count + i)

/-- Put an item in the cell at the head and go on. -/
def push (r : RingBuffer α n) (a : α) : RingBuffer α n where
  cell := Function.update r.cell ⟨r.head, r.head_lt⟩ a
  head := (r.head + 1) % n
  count := if r.count < n then r.count + 1 else r.count
  head_lt := Nat.mod_lt _ r.pos
  count_le := by
    have hle := r.count_le
    split <;> omega

@[simp] theorem length_toList (r : RingBuffer α n) : r.toList.length = r.count := by
  rw [toList, List.length_map, List.length_range]

theorem getElem?_toList (r : RingBuffer α n) {i : Nat} (h : i < r.count) :
    r.toList[i]? = some (r.walk (r.head + n - r.count + i)) := by
  rw [toList, List.getElem?_map, List.getElem?_range h, Option.map_some]

theorem walk_congr (r : RingBuffer α n) {i j : Nat} (h : i % n = j % n) : r.walk i = r.walk j := by
  simp only [walk, h]

theorem walk_push_head (r : RingBuffer α n) (a : α) {i : Nat} (h : i % n = r.head) :
    (r.push a).walk i = a := by
  simp only [walk, push, h, Function.update_self]

theorem walk_push_ne (r : RingBuffer α n) (a : α) {i : Nat} (h : i % n ≠ r.head) :
    (r.push a).walk i = r.walk i := by
  rw [walk, push, walk]
  refine Function.update_of_ne ?_ _ _
  rw [Ne, Fin.mk.injEq]
  exact h

theorem mod_of_lt_two_mul {m : Nat} (h : m < 2 * n) : m % n = if m < n then m else m - n := by
  split
  · exact Nat.mod_eq_of_lt ‹_›
  · rw [Nat.mod_eq_sub_mod (by omega), Nat.mod_eq_of_lt (by omega)]

/-- Where the `i`-th item after a push lies. -/
theorem walk_push (r : RingBuffer α n) (a : α) {i d : Nat} (hd : d = r.count + 1 - n)
    (hi : i + d ≤ r.count) :
    (r.push a).walk ((r.push a).head + n - (r.push a).count + i) =
      if i + d = r.count then a else r.walk (r.head + n - r.count + (i + d)) := by
  have hhead := r.head_lt
  have hcount := r.count_le
  have hnext : (r.push a).count = r.count + 1 - d := by
    simp only [push]
    split <;> omega
  -- the head has gone one cell on and the oldest item `d` cells
  have hplace : ((r.push a).head + n - (r.push a).count + i) % n =
      (r.head + n - r.count + (i + d)) % n := by
    rw [hnext]
    have hmod : (r.push a).head = if r.head + 1 < n then r.head + 1 else r.head + 1 - n :=
      mod_of_lt_two_mul (by omega)
    rw [hmod]
    split
    · congr 1
      omega
    · rw [← Nat.add_mod_right _ n]
      congr 1
      omega
  have hlast := mod_of_lt_two_mul (n := n) (m := r.head + n - r.count + (i + d)) (by omega)
  rw [walk_congr _ hplace]
  split
  · refine walk_push_head r a ?_
    rw [hlast]
    split <;> omega
  · refine walk_push_ne r a ?_
    rw [hlast]
    split <;> omega

/-- **A push** appends the item, and drops the oldest if the ring was full. -/
theorem toList_push (r : RingBuffer α n) (a : α) :
    (r.push a).toList = (r.toList ++ [a]).drop (r.count + 1 - n) := by
  have hcount := r.count_le
  have hnext : (r.push a).count = r.count + 1 - (r.count + 1 - n) := by
    simp only [push]
    split <;> omega
  refine List.ext_getElem? fun i => ?_
  rw [List.getElem?_drop, Nat.add_comm]
  by_cases hi : i + (r.count + 1 - n) ≤ r.count
  · rw [getElem?_toList _ (by omega), walk_push r a rfl hi]
    split
    · rename_i hend
      rw [hend, List.getElem?_append_right (Nat.le_of_eq r.length_toList), length_toList,
        Nat.sub_self]
      rfl
    · rw [List.getElem?_append_left (by rw [length_toList]; omega), getElem?_toList _ (by omega)]
  · rw [List.getElem?_eq_none (by rw [length_toList]; omega),
      List.getElem?_eq_none (by
        rw [List.length_append, length_toList, List.length_singleton]
        omega)]

/-- The ring holds the end of the log, as much of it as fits. -/
def Window (r : RingBuffer α n) (log : List α) : Prop :=
  r.count = min log.length n ∧ r.toList = log.drop (log.length - n)

theorem Window.push {r : RingBuffer α n} {log : List α} (h : r.Window log) (a : α) :
    (r.push a).Window (log ++ [a]) := by
  obtain ⟨hcount, hlist⟩ := h
  refine ⟨?_, ?_⟩
  · simp only [RingBuffer.push, List.length_append, List.length_singleton]
    split <;> omega
  · rw [toList_push, hlist, List.length_append, List.length_singleton]
    rw [← List.drop_append_of_le_length (by omega), List.drop_drop]
    congr 1
    omega

end RingBuffer
