import Mathlib.Data.List.Basic

/-!
# A line that is polled

Elements come over a line in pieces, and a program takes them with reads that look at what has come
and never wait for the rest.  A `Polled` line is what has come and is not read yet, and the pieces
that come before each of the next reads; a piece may be empty.

After `k` reads that took `c` elements the line is `after k c`, whatever the sizes of the reads were
(`read_after`), so what a sequence of reads takes is a matter of `arrived k`, the elements that have
come by the `k`-th read.
-/

set_option autoImplicit false

universe u

structure Polled (α : Type u) where
  unread : List α
  /-- What comes before each of the next reads. -/
  arriving : List (List α)

namespace Polled

variable {α : Type u} (l : Polled α)

/-- What has come by the `k`-th read, if nothing had been taken. -/
def arrived (k : Nat) : List α := l.unread ++ (l.arriving.take k).flatten

/-- All that ever comes. -/
def all : List α := l.unread ++ l.arriving.flatten

/-- The line after `k` reads that took `c` elements. -/
def after (k c : Nat) : Polled α := ⟨(l.arrived k).drop c, l.arriving.drop k⟩

/-- A read of at most `n` elements: what it takes, and the line after it. -/
def read (n : Nat) : List α × Polled α := ((l.arrived 1).take n, l.after 1 n)

@[simp] theorem arrived_zero : l.arrived 0 = l.unread := by simp [arrived]

@[simp] theorem after_zero : l.after 0 0 = l := by simp [after]

theorem arrived_add (k j : Nat) :
    l.arrived (k + j) = l.arrived k ++ ((l.arriving.drop k).take j).flatten := by
  rw [arrived, arrived, List.take_add, List.flatten_append, List.append_assoc]

theorem arrived_mono {k j : Nat} (h : k ≤ j) : l.arrived k <+: l.arrived j := by
  obtain ⟨i, rfl⟩ := Nat.exists_eq_add_of_le h
  exact ⟨_, (l.arrived_add k i).symm⟩

theorem arrived_append_rest (k : Nat) :
    l.arrived k ++ (l.arriving.drop k).flatten = l.all := by
  rw [arrived, List.append_assoc, ← List.flatten_append, List.take_append_drop, all]

theorem arrived_starts_all (k : Nat) : l.arrived k <+: l.all := ⟨_, l.arrived_append_rest k⟩

variable {l} {k c : Nat}

theorem arrived_after (h : c ≤ (l.arrived k).length) (j : Nat) :
    (l.after k c).arrived j = (l.arrived (k + j)).drop c := by
  rw [arrived_add, List.drop_append_of_le_length h]
  rfl

theorem all_after (h : c ≤ (l.arrived k).length) : (l.after k c).all = l.all.drop c := by
  rw [← l.arrived_append_rest k, List.drop_append_of_le_length h]
  rfl

/-- Reading goes on where it stopped. -/
theorem after_after (h : c ≤ (l.arrived k).length) (j d : Nat) :
    (l.after k c).after j d = l.after (k + j) (c + d) := by
  rw [after, arrived_after h, List.drop_drop, after, after, List.drop_drop]

theorem read_after (h : c ≤ (l.arrived k).length) (n : Nat) :
    (l.after k c).read n = (((l.arrived (k + 1)).drop c).take n, l.after (k + 1) (c + n)) := by
  rw [read, arrived_after h, after_after h]

end Polled
