import Mathlib.Data.List.Basic

/-!
# Files

A file is a list of cells that can be written anywhere: a write behind the end leaves a gap, which
is filled.  `Holds f i xs` says that the file holds `xs` from `i` on.  A write holds what it wrote
(`Holds.write`), and what lies beside it is kept (`Holds.write_beside`).
-/

set_option autoImplicit false

universe u

namespace File

variable {α : Type u}

/-- Write cells from `i` on. -/
def write (gap : α) (f : List α) (i : Nat) (xs : List α) : List α :=
  if xs = [] then f
  else f.take i ++ List.replicate (i - f.length) gap ++ xs ++ f.drop (i + xs.length)

/-- The file holds `xs` from `i` on. -/
def Holds (f : List α) (i : Nat) (xs : List α) : Prop :=
  ∀ j, j < xs.length → f[i + j]? = xs[j]?

variable {gap : α} {f : List α} {i : Nat} {xs : List α}

/-- The cells before the place of a write, with the gap. -/
theorem length_before (gap : α) (f : List α) (i : Nat) :
    (f.take i ++ List.replicate (i - f.length) gap).length = i := by
  rw [List.length_append, List.length_take, List.length_replicate]
  omega

theorem Holds.write (gap : α) (f : List α) (i : Nat) (xs : List α) :
    Holds (write gap f i xs) i xs := by
  intro j hj
  have hxs : xs ≠ [] := List.ne_nil_of_length_pos (Nat.lt_of_le_of_lt (Nat.zero_le j) hj)
  have hbefore := length_before gap f i
  rw [File.write, if_neg hxs, List.getElem?_append_left (by rw [List.length_append]; omega),
    List.getElem?_append_right (by omega), hbefore, Nat.add_sub_cancel_left]

theorem write_beside {k : Nat} (hk : k < f.length) (hbeside : k < i ∨ i + xs.length ≤ k) :
    (write gap f i xs)[k]? = f[k]? := by
  have hbefore := length_before gap f i
  rw [write]
  split
  · rfl
  rcases hbeside with hlt | hle
  · rw [List.append_assoc, List.append_assoc,
      List.getElem?_append_left (by rw [List.length_take]; omega),
      List.getElem?_take_of_lt hlt]
  · rw [List.getElem?_append_right (by rw [List.length_append]; omega), List.length_append,
      hbefore, List.getElem?_drop]
    congr 1
    omega

theorem length_write_le (gap : α) (f : List α) (i : Nat) (xs : List α) :
    (write gap f i xs).length ≤ max f.length (i + xs.length) := by
  have hbefore := length_before gap f i
  rw [write]
  split
  · exact Nat.le_max_left _ _
  · rw [List.length_append, List.length_append, hbefore, List.length_drop]
    omega

/-- What a written file has in a place was there before, fills the gap, or was written. -/
theorem of_write {k : Nat} {x : α} (h : (write gap f i xs)[k]? = some x) :
    f[k]? = some x ∨ x = gap ∨ i ≤ k ∧ xs[k - i]? = some x := by
  rw [write] at h
  split at h
  · exact .inl h
  have hbefore := length_before gap f i
  rw [List.append_assoc, List.getElem?_append, hbefore] at h
  split at h
  · rw [List.getElem?_append] at h
    split at h
    · rename_i hlt
      rw [List.length_take] at hlt
      rw [List.getElem?_take_of_lt (by omega)] at h
      exact .inl h
    · exact .inr (.inl (List.eq_of_mem_replicate (List.mem_of_getElem? h)))
  · rename_i hle
    rw [List.getElem?_append] at h
    split at h
    · exact .inr (.inr ⟨Nat.not_lt.1 hle, h⟩)
    · rename_i hle'
      rw [List.getElem?_drop, show i + xs.length + (k - i - xs.length) = k by omega] at h
      exact .inl h

/-- A write at the end. -/
theorem write_end (gap : α) (f xs : List α) : write gap f f.length xs = f ++ xs := by
  rw [write]
  split
  · rename_i hnil
    rw [hnil, List.append_nil]
  · rw [List.take_length, Nat.sub_self, List.replicate_zero, List.append_nil,
      List.drop_eq_nil_of_le (Nat.le_add_right _ _), List.append_nil]

/-- A write at the front. -/
theorem take_write_front (gap : α) (f xs : List α) : (write gap f 0 xs).take xs.length = xs := by
  rw [write]
  split
  · rename_i hnil
    rw [hnil]
    rfl
  · rw [List.take_zero, Nat.zero_sub, List.replicate_zero, List.nil_append, List.nil_append,
      List.take_left]

/-- What is appended to a file lies where it ended. -/
theorem holds_append (f xs rest : List α) : Holds (f ++ (xs ++ rest)) f.length xs := by
  intro j hj
  rw [List.getElem?_append_right (Nat.le_add_right _ _), Nat.add_sub_cancel_left,
    List.getElem?_append_left hj]

/-- In a file of blocks of one size each lies behind those before it. -/
theorem holds_flatMap {β : Type u} {bytes : β → List α} {w : Nat} {blocks : List β}
    (hw : ∀ b ∈ blocks, (bytes b).length = w) {j : Nat} {b : β} (hb : blocks[j]? = some b)
    (rest : List α) : Holds (blocks.flatMap bytes ++ rest) (j * w) (bytes b) := by
  have hj := (List.getElem?_eq_some_iff.1 hb).1
  have hfront : ((blocks.take j).flatMap bytes).length = j * w := by
    have hall : ∀ x ∈ (blocks.take j).map fun b => (bytes b).length, x = w := fun x hx => by
      obtain ⟨b', hb', rfl⟩ := List.mem_map.1 hx
      exact hw b' (List.mem_of_mem_take hb')
    rw [List.length_flatMap, List.eq_replicate_of_mem hall, List.sum_replicate_nat,
      List.length_map, List.length_take, Nat.min_eq_left (Nat.le_of_lt hj)]
  have hsplit : blocks.flatMap bytes ++ rest =
      (blocks.take j).flatMap bytes ++ (bytes b ++ ((blocks.drop (j + 1)).flatMap bytes ++ rest)) := by
    conv_lhs => rw [← List.take_append_drop j blocks, List.drop_eq_getElem_cons hj,
      List.getElem_eq_iff hj |>.2 hb]
    rw [List.flatMap_append, List.flatMap_cons, List.append_assoc, List.append_assoc]
  rw [hsplit, ← hfront]
  exact holds_append _ _ _

/-- A write of one cell in a file sets it. -/
theorem write_cell (gap : α) {i : Nat} (hi : i < f.length) (x : α) :
    write gap f i [x] = f.set i x := by
  rw [write, if_neg (by simp), Nat.sub_eq_zero_of_le (Nat.le_of_lt hi), List.replicate_zero,
    List.append_nil, List.set_eq_take_append_cons_drop, if_pos hi, List.append_assoc]
  rfl

/-- **What lies beside a write is kept.** -/
theorem Holds.write_beside {k : Nat} {ys : List α} (h : Holds f k ys)
    (hbeside : k + ys.length ≤ i ∨ i + xs.length ≤ k) : Holds (File.write gap f i xs) k ys := by
  intro j hj
  have hkept := h j hj
  have hlt : k + j < f.length := by
    rw [List.getElem?_eq_getElem hj] at hkept
    exact (List.getElem?_eq_some_iff.1 hkept).1
  rw [File.write_beside hlt (by omega)]
  exact hkept

end File
