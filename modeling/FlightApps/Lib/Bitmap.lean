import FlightApps.Lib.Cells
import Mathlib.Data.List.Count

/-!
# Sets of small numbers, as bits in bytes

A `Bitmap m` is a set of numbers below `8 * m`: the number `i` is in it if bit `i % 8` of byte
`i / 8` is set.  `marked_mark` says what a mark changes, and `marks_mark` that the number of marks
goes up with each new one; nothing above this file looks at the bits.
-/

set_option autoImplicit false

/-- `m` bytes of marks. -/
abbrev Bitmap (m : Nat) := Vector UInt8 m

namespace Bitmap

variable {m : Nat}

/-- The bit of a number in its byte. -/
def mask (i : Nat) : UInt8 := 1 <<< UInt8.ofNat (i % 8)

def marked (bm : Bitmap m) (i : Nat) : Bool := Cells.get bm (i / 8) &&& mask i != 0

def mark (bm : Bitmap m) (i : Nat) : Bitmap m :=
  Cells.set bm (i / 8) (Cells.get bm (i / 8) ||| mask i)

/-- Nothing is marked. -/
def clear (m : Nat) : Bitmap m := Vector.replicate m 0

/-- How many numbers are marked. -/
def marks (bm : Bitmap m) : Nat := (List.range (8 * m)).countP bm.marked

/-! ## One byte -/

/-- A mask picks a bit. -/
theorem and_mask (b : UInt8) (i : Nat) :
    (b &&& mask i != 0) = b.toBitVec.getLsbD (i % 8) := by
  have hall : ∀ (b : Fin 256) (k : Fin 8),
      (UInt8.ofFin b &&& 1 <<< UInt8.ofNat k.val != 0) = (UInt8.ofFin b).toBitVec.getLsbD k := by
    decide +kernel
  exact hall b.toFin ⟨i % 8, Nat.mod_lt i (by decide)⟩

theorem getLsbD_mask (i j : Nat) :
    (mask i).toBitVec.getLsbD (j % 8) = decide (j % 8 = i % 8) := by
  have hall : ∀ i j : Fin 8,
      (1 <<< UInt8.ofNat i.val).toBitVec.getLsbD j = decide (j.val = i.val) := by
    decide +kernel
  exact hall ⟨i % 8, Nat.mod_lt i (by decide)⟩ ⟨j % 8, Nat.mod_lt j (by decide)⟩

/-! ## Marks -/

theorem lt_of_marked {bm : Bitmap m} {i : Nat} (h : bm.marked i) : i < 8 * m := by
  refine Nat.lt_of_not_le fun hle => ?_
  have hbehind : Cells.get bm (i / 8) = 0 := Cells.get_of_le bm (by omega)
  rw [marked, hbehind, UInt8.zero_and] at h
  exact absurd h (by decide)

theorem marked_clear (i : Nat) : (clear m).marked i = false := by
  have hget : Cells.get (clear m) (i / 8) = 0 := Cells.get_replicate_default (i / 8)
  rw [marked, hget, UInt8.zero_and]
  rfl

/-- **What a mark changes**: the number that is marked, and no other. -/
theorem marked_mark (bm : Bitmap m) {i : Nat} (hi : i < 8 * m) (j : Nat) :
    (bm.mark i).marked j = (decide (j = i) || bm.marked j) := by
  rw [marked, mark, and_mask]
  by_cases hbyte : j / 8 = i / 8
  · rw [hbyte, Cells.get_set_self bm (by omega), UInt8.toBitVec_or, BitVec.getLsbD_or,
      getLsbD_mask, marked, hbyte, and_mask, Bool.or_comm]
    have hsame : j % 8 = i % 8 ↔ j = i := by omega
    rw [decide_eq_decide.2 hsame]
  · have hne : j ≠ i := fun h => hbyte (congrArg (· / 8) h)
    rw [Cells.get_set_ne bm (Ne.symm hbyte), marked, and_mask, decide_eq_false hne, Bool.false_or]

/-! ## Counting -/

/-- One more number has the property. -/
theorem countP_insert {p q : Nat → Bool} {n i : Nat} (hi : i < n) (hp : p i = false)
    (hq : ∀ j, q j = (decide (j = i) || p j)) :
    (List.range n).countP q = (List.range n).countP p + 1 := by
  induction n with
  | zero => omega
  | succ n ih =>
    rw [List.range_succ, List.countP_append, List.countP_append, List.countP_singleton,
      List.countP_singleton]
    rcases Nat.lt_succ_iff_lt_or_eq.1 hi with hlt | rfl
    · have hlast : q n = p n := by rw [hq, decide_eq_false (by omega), Bool.false_or]
      rw [ih hlt, hlast]
      omega
    · have hfront : (List.range i).countP q = (List.range i).countP p := by
        refine List.countP_congr fun j hj => ?_
        rw [hq, decide_eq_false (Nat.ne_of_lt (List.mem_range.1 hj)), Bool.false_or]
      have hlast : q i = true := by rw [hq, decide_eq_true rfl, Bool.true_or]
      rw [hfront, hlast, hp]
      rfl

/-- Where only numbers below `k` have the property, only these count. -/
theorem countP_below {p : Nat → Bool} {k n : Nat} (hk : k ≤ n) (hp : ∀ j, p j → j < k) :
    (List.range n).countP p = (List.range k).countP p := by
  induction n with
  | zero => rw [Nat.le_zero.1 hk]
  | succ n ih =>
    rcases Nat.eq_or_lt_of_le hk with rfl | hlt
    · rfl
    · have hlast : ¬p n := fun hpn => by
        have := hp n hpn
        omega
      rw [List.range_succ, List.countP_append, ih (by omega), List.countP_singleton, if_neg hlast,
        Nat.add_zero]

theorem marks_clear : (clear m).marks = 0 := by
  rw [marks, List.countP_eq_zero]
  intro i _
  rw [marked_clear]
  exact Bool.false_ne_true

/-- **A new mark counts**. -/
theorem marks_mark (bm : Bitmap m) {i : Nat} (hi : i < 8 * m) (hnew : bm.marked i = false) :
    (bm.mark i).marks = bm.marks + 1 :=
  countP_insert hi hnew (marked_mark bm hi)

/-- **All are marked** when as many are marked as there are. -/
theorem marked_of_marks {bm : Bitmap m} {k : Nat} (hk : k ≤ 8 * m)
    (hbelow : ∀ i, bm.marked i → i < k) (hmarks : k ≤ bm.marks) {i : Nat} (hi : i < k) : bm.marked i := by
  have hcount : (List.range k).countP bm.marked = (List.range k).length := by
    refine Nat.le_antisymm List.countP_le_length ?_
    rw [List.length_range, ← countP_below hk hbelow]
    exact hmarks
  exact List.countP_eq_length.1 hcount i (List.mem_range.2 hi)

/-- **One is left** when fewer are marked than there are. -/
theorem exists_unmarked {bm : Bitmap m} {k : Nat} (hk : k ≤ 8 * m)
    (hbelow : ∀ i, bm.marked i → i < k) (hmarks : bm.marks < k) :
    ∃ i, i < k ∧ bm.marked i = false := by
  by_contra hnone
  have hall : ∀ i ∈ List.range k, bm.marked i = true := fun i hi =>
    eq_true_of_ne_false fun hi' => hnone ⟨i, List.mem_range.1 hi, hi'⟩
  have hcount := List.countP_eq_length.2 hall
  rw [List.length_range, ← countP_below hk hbelow] at hcount
  rw [marks] at hmarks
  omega

/-- **More are marked** when none is lost and one is new. -/
theorem marks_lt {bm bm' : Bitmap m} (hkept : ∀ i, bm.marked i → bm'.marked i) {i : Nat}
    (hold : bm.marked i = false) (hnew : bm'.marked i) : bm.marks < bm'.marks := by
  have hi := lt_of_marked hnew
  have hmark := marks_mark bm hi hold
  have hle : (bm.mark i).marks ≤ bm'.marks := by
    refine List.countP_mono_left fun j _ hj => ?_
    rw [marked_mark bm hi, Bool.or_eq_true, decide_eq_true_eq] at hj
    rcases hj with rfl | hj
    · exact hnew
    · exact hkept j hj
  omega

end Bitmap
