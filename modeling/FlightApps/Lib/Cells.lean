import Mathlib.Data.List.Basic

/-!
# Fixed arrays of cells

The C programs keep their tables in arrays of a size fixed at compile time and address them with
plain integers.  `Vector α n` is that array; this file gives it the three accesses the programs
make, with an integer address in each of them:

* `Cells.get v i` reads a cell, `default` standing in for the bytes behind the array;
* `Cells.set v i a` writes one, and does nothing behind the array;
* `Cells.copy v off data` is `memcpy(&v[off], data, size)`, and `copyAll` several of them.

`Cells.first p v` is the scan `for (i = 0; i < n; ++i) if (p(v[i])) return i; return n;`.

Every proof about a table goes through the lemmas below, so nothing above this file looks at how a
`Vector` is built.
-/

set_option autoImplicit false

namespace Cells

universe u

variable {α : Type u} {n : Nat}

section Access

variable [Inhabited α]

/-- The cell at address `i`. -/
def get (v : Vector α n) (i : Nat) : α := v[i]?.getD default

/-- Write the cell at address `i`. -/
def set (v : Vector α n) (i : Nat) (a : α) : Vector α n := v.setIfInBounds i a

theorem get_eq_getElem (v : Vector α n) {i : Nat} (h : i < n) : get v i = v[i] := by
  simp [get, h]

theorem get_of_le (v : Vector α n) {i : Nat} (h : n ≤ i) : get v i = default := by
  simp [get, Vector.getElem?_eq_none h]

/-- Two arrays with the same cells are the same array. -/
theorem ext_get {v w : Vector α n} (h : ∀ i, i < n → get v i = get w i) : v = w := by
  refine Vector.ext fun i hi => ?_
  have hg := h i hi
  rwa [get_eq_getElem v hi, get_eq_getElem w hi] at hg

theorem get_set_self (v : Vector α n) {i : Nat} (h : i < n) (a : α) : get (set v i a) i = a := by
  simp [get, set, h]

theorem get_set_ne (v : Vector α n) {i j : Nat} (h : i ≠ j) (a : α) :
    get (set v i a) j = get v j := by
  simp [get, set, h]

theorem get_set (v : Vector α n) {i : Nat} (h : i < n) (a : α) (j : Nat) :
    get (set v i a) j = if j = i then a else get v j := by
  split
  · rename_i hj; subst hj; exact get_set_self v h a
  · rename_i hj; exact get_set_ne v (Ne.symm hj) a

omit [Inhabited α] in
@[simp] theorem set_set (v : Vector α n) (i : Nat) (a b : α) : set (set v i a) i b = set v i b := by
  simp [set]

/-- Writing back what a cell holds changes nothing. -/
theorem set_get_self (v : Vector α n) (i : Nat) : set v i (get v i) = v := by
  refine ext_get fun j hj => ?_
  by_cases hij : i = j
  · subst hij; exact get_set_self v hj _
  · exact get_set_ne v hij _

@[simp] theorem get_replicate_default (i : Nat) :
    get (Vector.replicate n (default : α)) i = default := by
  rcases Nat.lt_or_ge i n with h | h
  · rw [get_eq_getElem _ h, Vector.getElem_replicate]
  · exact get_of_le _ h

/-! ## Copying a block in -/

/-- Copy the bytes of `data` to the cells from `off` on. -/
def copy (v : Vector α n) (off : Nat) : List α → Vector α n
  | [] => v
  | a :: data => copy (set v off a) (off + 1) data

/-- **What a copy leaves behind**: the block where it was written, the old contents elsewhere. -/
theorem get_copy (v : Vector α n) (off : Nat) (data : List α) (h : off + data.length ≤ n)
    (i : Nat) :
    get (copy v off data) i =
      if off ≤ i ∧ i < off + data.length then data.getD (i - off) default else get v i := by
  induction data generalizing v off with
  | nil =>
    rw [copy, if_neg (by simp only [List.length_nil]; omega)]
  | cons a data ih =>
    simp only [List.length_cons] at h ⊢
    rw [copy, ih (set v off a) (off + 1) (by omega), get_set v (by omega)]
    by_cases hi : i = off
    · subst hi
      rw [if_neg (by omega), if_pos rfl, if_pos (by omega), Nat.sub_self, List.getD_cons_zero]
    · by_cases hin : off + 1 ≤ i ∧ i < off + 1 + data.length
      · rw [if_pos hin, if_pos (by omega), show i - off = i - (off + 1) + 1 by omega,
          List.getD_cons_succ]
      · rw [if_neg hin, if_neg hi, if_neg (by omega)]

/-! ## The front of an array -/

omit [Inhabited α] in
theorem take_set (v : Vector α n) {off : Nat} (a : α) (h : off < n) :
    (set v off a).toList.take (off + 1) = v.toList.take off ++ [a] := by
  have hlt : off < v.toList.length := by rw [Vector.length_toList]; exact h
  rw [set, Vector.toList_setIfInBounds, List.take_succ_eq_append_getElem
    (by rw [List.length_set]; exact hlt), List.getElem_set_self,
    List.take_set_of_le (Nat.le_refl off)]

omit [Inhabited α] in
/-- A block written behind the first `off` cells is behind them. -/
theorem take_copy (v : Vector α n) (off : Nat) (data : List α) (h : off + data.length ≤ n) :
    (copy v off data).toList.take (off + data.length) = v.toList.take off ++ data := by
  induction data generalizing v off with
  | nil => rw [copy, List.length_nil, Nat.add_zero, List.append_nil]
  | cons a data ih =>
    rw [List.length_cons] at h
    rw [copy, List.length_cons, show off + (data.length + 1) = off + 1 + data.length by omega,
      ih (set v off a) (off + 1) (by omega), take_set v a (by omega), List.append_assoc,
      List.singleton_append]

/-! ## Copying a block in pieces -/

/-- Copy pieces in, one after the other, each at its own address. -/
def copyAll (v : Vector α n) (writes : List (Nat × List α)) : Vector α n :=
  writes.foldl (fun v w => copy v w.1 w.2) v

/-- The pieces stay inside the block and agree with it. -/
structure PiecesOf (writes : List (Nat × List α)) (data : List α) : Prop where
  /-- A piece stays inside the block. -/
  inside : ∀ w ∈ writes, w.1 + w.2.length ≤ data.length
  /-- A piece agrees with the block. -/
  agree : ∀ w ∈ writes, ∀ i < w.2.length, w.2[i]? = data[w.1 + i]?

/-- A cell is written by some piece. -/
def Covered (writes : List (Nat × List α)) (i : Nat) : Prop :=
  ∃ w ∈ writes, w.1 ≤ i ∧ i < w.1 + w.2.length

instance (writes : List (Nat × List α)) (i : Nat) : Decidable (Covered writes i) :=
  inferInstanceAs (Decidable (∃ w ∈ writes, _))

omit [Inhabited α] in
theorem PiecesOf.tail {w : Nat × List α} {writes : List (Nat × List α)} {data : List α}
    (h : PiecesOf (w :: writes) data) : PiecesOf writes data :=
  ⟨fun w hw => h.inside w (List.mem_cons_of_mem _ hw),
    fun w hw => h.agree w (List.mem_cons_of_mem _ hw)⟩

/-- What pieces of a block leave behind: the block where they were written, the old contents
elsewhere. -/
theorem get_copyAll {writes : List (Nat × List α)} {data : List α} (h : PiecesOf writes data)
    (hn : data.length ≤ n) (v : Vector α n) (i : Nat) :
    (Covered writes i → get (copyAll v writes) i = data.getD i default) ∧
      (¬Covered writes i → get (copyAll v writes) i = get v i) := by
  induction writes generalizing v with
  | nil => exact ⟨fun ⟨w, hw, _⟩ => absurd hw (by simp), fun _ => rfl⟩
  | cons w writes ih =>
    obtain ⟨ih1, ih2⟩ := ih h.tail (copy v w.1 w.2)
    have hfit : w.1 + w.2.length ≤ n := Nat.le_trans (h.inside w (by simp)) hn
    by_cases hlater : Covered writes i
    · refine ⟨fun _ => ih1 hlater, fun hno => absurd ?_ hno⟩
      obtain ⟨w', hw', hi⟩ := hlater
      exact ⟨w', List.mem_cons_of_mem _ hw', hi⟩
    · have hget := (ih2 hlater).trans (get_copy v w.1 w.2 hfit i)
      constructor
      · rintro ⟨w', hw', hi⟩
        rcases List.mem_cons.1 hw' with rfl | hw'
        · have hagree := h.agree w' (by simp) (i - w'.1) (by omega)
          rw [Nat.add_sub_cancel' hi.1] at hagree
          refine hget.trans ?_
          rw [if_pos hi, List.getD_eq_getElem?_getD, List.getD_eq_getElem?_getD, hagree]
        · exact absurd ⟨w', hw', hi⟩ hlater
      · intro hno
        refine hget.trans (if_neg fun hi => hno ⟨w, by simp, hi⟩)

/-- **Pieces that cover a block write the block**, in whatever order and with whatever overlap. -/
theorem copyAll_eq_copy {writes : List (Nat × List α)} {data : List α} (h : PiecesOf writes data)
    (hcover : ∀ i < data.length, Covered writes i) (hn : data.length ≤ n) (v : Vector α n) :
    copyAll v writes = copy v 0 data := by
  refine ext_get fun i _ => ?_
  obtain ⟨h1, h2⟩ := get_copyAll h hn v i
  rw [get_copy v 0 data (by omega)]
  by_cases hi : i < data.length
  · rw [if_pos (by omega), h1 (hcover i hi), Nat.sub_zero]
  · have hno : ¬Covered writes i := by
      rintro ⟨w, hw, hw'⟩
      have := h.inside w hw
      omega
    rw [if_neg (by omega), h2 hno]

end Access

/-! ## Scanning for a cell -/

/-- The first address whose cell satisfies `p`, or `n` when there is none. -/
def first (p : α → Bool) (v : Vector α n) : Nat := v.toList.findIdx p

theorem first_le (p : α → Bool) (v : Vector α n) : first p v ≤ n := by
  have h : v.toList.findIdx p ≤ v.toList.length := List.findIdx_le_length
  rwa [Vector.length_toList] at h

variable [Inhabited α]

/-- The cell a successful scan stops at satisfies the test. -/
theorem first_spec {p : α → Bool} {v : Vector α n} (h : first p v < n) :
    p (get v (first p v)) = true := by
  have hl : v.toList.findIdx p < v.toList.length := by rw [Vector.length_toList]; exact h
  have hp : p (v.toList[v.toList.findIdx p]) = true := List.findIdx_getElem
  rw [get_eq_getElem v h]
  simpa [first] using hp

/-- A scan that runs to the end has seen no cell that satisfies the test. -/
theorem not_of_first_eq {p : α → Bool} {v : Vector α n} (h : first p v = n) {i : Nat} (hi : i < n) :
    p (get v i) = false := by
  have hl : v.toList.findIdx p = v.toList.length := by rw [Vector.length_toList]; exact h
  rw [get_eq_getElem v hi]
  refine List.findIdx_eq_length.1 hl v[i] ?_
  simp

end Cells
