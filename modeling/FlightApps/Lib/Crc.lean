import Mathlib.Data.List.Basic
import Mathlib.Data.Nat.Bitwise
import Mathlib.Logic.Function.Iterate

/-!
# Reflected CRCs of 32 bits

A register is shifted right by one for each bit of the message, lowest bit of a byte first, and the
polynomial is added when the bit that is shifted out and the bit of the message differ.  Programs
add a whole byte first and then shift eight times (`rounds_byte`), or look up in a table what eight
rounds make of a byte (`foldl_table`).
-/

set_option autoImplicit false

namespace Crc

/-- A round without a message bit. -/
def round (poly r : UInt32) : UInt32 := (r >>> 1) ^^^ (if r &&& 1 = 0 then 0 else poly)

/-- The register takes in one bit. -/
def shift (poly r : UInt32) (b : Bool) : UInt32 :=
  (r >>> 1) ^^^ (if decide (r &&& 1 = 0) = b then poly else 0)

/-- The `n` lowest bits, lowest first. -/
def lowBits : Nat → UInt32 → List Bool
  | 0, _ => []
  | n + 1, x => (x &&& 1 ≠ 0) :: lowBits n (x >>> 1)

/-- The register after a message. -/
def register (poly r : UInt32) (data : List UInt8) : UInt32 :=
  (data.flatMap fun b => lowBits 8 b.toUInt32).foldl (shift poly) r

theorem register_append (poly r : UInt32) (xs ys : List UInt8) :
    register poly r (xs ++ ys) = register poly (register poly r xs) ys := by
  rw [register, List.flatMap_append, List.foldl_append, register, register]

theorem and_one_eq_zero (x : UInt32) : x &&& 1 = 0 ↔ x.toNat % 2 = 0 := by
  rw [← UInt32.toNat_inj, UInt32.toNat_and]
  exact Eq.congr_left (Nat.and_one_is_mod _)

/-- A bit that is added before a round is taken in by it. -/
theorem round_xor (poly r x : UInt32) :
    round poly (r ^^^ x) = shift poly r (x &&& 1 ≠ 0) ^^^ (x >>> 1) := by
  have hcond : (r ^^^ x) &&& 1 = 0 ↔ ¬decide (r &&& 1 = 0) = decide (x &&& 1 ≠ 0) := by
    rw [decide_eq_decide, Ne, and_one_eq_zero, and_one_eq_zero, and_one_eq_zero, UInt32.toNat_xor,
      Nat.xor_mod_two_eq]
    omega
  rw [round, shift, UInt32.shiftRight_xor]
  simp only [hcond, ite_not]
  rw [UInt32.xor_assoc, UInt32.xor_assoc, UInt32.xor_comm (x >>> 1)]

/-- So are the lowest bits of what is added before so many rounds. -/
theorem rounds_xor (poly r x : UInt32) (n : Nat) :
    (round poly)^[n] (r ^^^ x) = (lowBits n x).foldl (shift poly) r ^^^ (fun y : UInt32 => y >>> 1)^[n] x := by
  induction n generalizing r x with
  | zero => rfl
  | succ n ih =>
    rw [Function.iterate_succ_apply, round_xor, ih, lowBits, List.foldl_cons,
      Function.iterate_succ_apply]

theorem toNat_shift_one (x : UInt32) : (x >>> 1).toNat = x.toNat / 2 := by
  rw [UInt32.toNat_shiftRight]
  exact Nat.shiftRight_one x.toNat

/-- **A byte at a time**: adding the byte and eight rounds. -/
theorem rounds_byte (poly r : UInt32) (b : UInt8) :
    (round poly)^[8] (r ^^^ b.toUInt32) = (lowBits 8 b.toUInt32).foldl (shift poly) r := by
  have hout : (fun y : UInt32 => y >>> 1)^[8] b.toUInt32 = 0 := by
    have hlt := b.toNat_lt
    rw [← UInt32.toNat_inj]
    simp only [Function.iterate_succ_apply, Function.iterate_zero_apply, toNat_shift_one,
      UInt8.toNat_toUInt32, UInt32.toNat_zero]
    omega
  rw [rounds_xor, hout, UInt32.xor_zero]

/-- **A program that takes in a byte at a time** computes the register. -/
theorem foldl_bytes (poly r : UInt32) (data : List UInt8) :
    data.foldl (fun r b => (round poly)^[8] (r ^^^ b.toUInt32)) r = register poly r data := by
  induction data generalizing r with
  | nil => rfl
  | cons b data ih =>
    rw [List.foldl_cons, ih, rounds_byte, register, register, List.flatMap_cons, List.foldl_append]

/-- Bits are looked at from the lowest on. -/
theorem lowBits_congr (n : Nat) {x y : UInt32} (h : x.toNat % 2 ^ n = y.toNat % 2 ^ n) :
    lowBits n x = lowBits n y := by
  induction n generalizing x y with
  | zero => rfl
  | succ n ih =>
    have hbit : x.toNat % 2 = y.toNat % 2 := by
      have := congrArg (· % 2) h
      simpa [Nat.pow_succ] using this
    have hrest : x.toNat / 2 % 2 ^ n = y.toNat / 2 % 2 ^ n := by
      rw [Nat.pow_succ, Nat.mul_comm] at h
      have := congrArg (· / 2) h
      simpa [Nat.mod_mul_right_div_self] using this
    rw [← toNat_shift_one, ← toNat_shift_one] at hrest
    rw [lowBits, lowBits, ih hrest]
    simp only [ne_eq, and_one_eq_zero, hbit]

/-- Eight rounds make of a register what they make of its lowest byte, and shift the others. -/
theorem rounds_split (poly r : UInt32) :
    (round poly)^[8] r = (round poly)^[8] r.toUInt8.toUInt32 ^^^ (r >>> 8) := by
  have hbits : lowBits 8 r = lowBits 8 r.toUInt8.toUInt32 := by
    apply lowBits_congr
    simp
  have hshift : (fun y : UInt32 => y >>> 1)^[8] r = r >>> 8 := by
    rw [← UInt32.toNat_inj]
    simp only [Function.iterate_succ_apply, Function.iterate_zero_apply, toNat_shift_one]
    rw [UInt32.toNat_shiftRight]
    simp [Nat.shiftRight_eq_div_pow]
    omega
  have hwhole := rounds_xor poly 0 r 8
  have hlow := rounds_byte poly 0 r.toUInt8
  rw [UInt32.zero_xor] at hwhole hlow
  rw [hwhole, hlow, hbits, hshift]

/-- **A program that has a table** of what eight rounds make of each byte computes the register. -/
theorem foldl_table (poly : UInt32) {table : UInt8 → UInt32}
    (htable : ∀ i, table i = (round poly)^[8] i.toUInt32) (r : UInt32) (data : List UInt8) :
    data.foldl (fun (r : UInt32) b => (r >>> 8) ^^^ table (r.toUInt8 ^^^ b)) r =
      register poly r data := by
  have hstep : (fun (r : UInt32) (b : UInt8) => (r >>> 8) ^^^ table (r.toUInt8 ^^^ b)) =
      fun r b => (round poly)^[8] (r ^^^ b.toUInt32) := by
    funext r b
    have hlow : (r ^^^ b.toUInt32).toUInt8 = r.toUInt8 ^^^ b := by simp
    have hout : b.toUInt32 >>> 8 = 0 := by
      have hlt := b.toNat_lt
      rw [← UInt32.toNat_inj, UInt32.toNat_shiftRight]
      simp [Nat.shiftRight_eq_div_pow]
      omega
    rw [rounds_split, hlow, htable, UInt32.shiftRight_xor, hout, UInt32.xor_zero, UInt32.xor_comm]
  rw [hstep, foldl_bytes]

end Crc
