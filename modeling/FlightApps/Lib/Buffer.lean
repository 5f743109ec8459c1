import Mathlib.Data.List.Basic

/-!
# Buffers with bounds

A buffer is a list of cells of fixed length.  `load` and `store` are accesses to a range of it that
have no value when the range does not lie inside: a program written with them that has a value has
stayed inside its buffers.

A program that fills a buffer from the front keeps it in the form `w ++ buf.drop w.length`, what it
has written and what is still there; `store_front` is its step and
`bind_store_front` the step of a program that goes on.
-/

set_option autoImplicit false

universe u

namespace Buffer

variable {α : Type u}

/-- The `n` cells from `i` on. -/
def load (buf : List α) (i n : Nat) : Option (List α) :=
  if i + n ≤ buf.length then some ((buf.drop i).take n) else none

/-- Overwrite the cells from `i` on. -/
def store (buf : List α) (i : Nat) (xs : List α) : Option (List α) :=
  if i + xs.length ≤ buf.length then some (buf.take i ++ xs ++ buf.drop (i + xs.length)) else none

/-- The same under a condition. -/
def storeIf (p : Prop) [Decidable p] (buf : List α) (i : Nat) (xs : List α) : Option (List α) :=
  if p then store buf i xs else some buf

theorem load_eq {buf : List α} {i n : Nat} (h : i + n ≤ buf.length) :
    load buf i n = some ((buf.drop i).take n) := if_pos h

/-- A write inside a buffer keeps its length. -/
theorem store_inside {buf xs : List α} {i : Nat} (h : i + xs.length ≤ buf.length) :
    ∃ buf', store buf i xs = some buf' ∧ buf'.length = buf.length := by
  refine ⟨_, if_pos h, ?_⟩
  simp only [List.length_append, List.length_take, List.length_drop]
  omega

/-- The front of a buffer that is being filled. -/
theorem load_front (w buf : List α) : load (w ++ buf.drop w.length) 0 w.length = some w := by
  rw [load_eq (by rw [List.length_append]; omega), List.drop_zero, List.take_left' rfl]

/-- A part of a buffer, by what lies before it and behind it. -/
theorem load_part (pre xs rest : List α) :
    load (pre ++ (xs ++ rest)) pre.length xs.length = some xs := by
  rw [load_eq (by rw [List.length_append, List.length_append]; omega), List.drop_left' rfl,
    List.take_left' rfl]

/-- **Filling from the front**: writing where the last write ended. -/
theorem store_front {w buf : List α} {i : Nat} (xs : List α) (hi : i = w.length)
    (h : w.length + xs.length ≤ buf.length) :
    store (w ++ buf.drop w.length) i xs = some ((w ++ xs) ++ buf.drop (w ++ xs).length) := by
  subst hi
  have hlen : (w ++ buf.drop w.length).length = buf.length := by
    rw [List.length_append, List.length_drop]
    omega
  rw [store, if_pos (by omega), List.take_left' rfl, List.drop_append, List.drop_drop,
    List.length_append, List.drop_eq_nil_of_le (by omega), List.nil_append]
  congr 3
  omega

/-- Writing at the front. -/
theorem store_zero {buf xs : List α} (h : xs.length ≤ buf.length) :
    store buf 0 xs = some (xs ++ buf.drop xs.length) := by
  have hfront := @store_front _ [] buf 0 xs rfl
  rw [List.length_nil, Nat.zero_add, List.drop_zero] at hfront
  exact hfront h

/-- The same where the condition only skips an empty write. -/
theorem storeIf_front {p : Prop} [Decidable p] {w buf : List α} {i : Nat} (xs : List α)
    (hp : ¬p → xs = []) (hi : i = w.length) (h : w.length + xs.length ≤ buf.length) :
    storeIf p (w ++ buf.drop w.length) i xs = some ((w ++ xs) ++ buf.drop (w ++ xs).length) := by
  rw [storeIf]
  split
  · exact store_front xs hi h
  · rename_i hskip
    rw [hp hskip, List.append_nil]

/-- A program that goes on after a write. -/
theorem bind_store_front {β : Type u} {w buf xs : List α} {i : Nat} {k : List α → Option β}
    {r : Option β} (hi : i = w.length) (h : w.length + xs.length ≤ buf.length)
    (hk : k ((w ++ xs) ++ buf.drop (w ++ xs).length) = r) :
    (store (w ++ buf.drop w.length) i xs).bind k = r := by
  rw [store_front xs hi h, Option.bind_some, hk]

theorem bind_storeIf_front {β : Type u} {p : Prop} [Decidable p] {w buf xs : List α} {i : Nat}
    {k : List α → Option β} {r : Option β} (hp : ¬p → xs = []) (hi : i = w.length)
    (h : w.length + xs.length ≤ buf.length)
    (hk : k ((w ++ xs) ++ buf.drop (w ++ xs).length) = r) :
    (storeIf p (w ++ buf.drop w.length) i xs).bind k = r := by
  rw [storeIf_front xs hp hi h, Option.bind_some, hk]

end Buffer
