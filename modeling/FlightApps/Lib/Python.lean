import Mathlib.Data.List.Basic
import FlightApps.Lib.Layout

/-!
# Text, integers and packed words of Python

What a program in Python does with a text that someone typed: `strip`, `split`, `replace` with
nothing, `int` with a base, `bytes.fromhex` and slices; and what `struct` makes of an integer.  A
text is a list of characters.  Which of them beyond ASCII are spaces or decimal digits is up to the
Unicode tables of the interpreter.

A packed integer has the size of its format, and is what is unpacked again (`unpack_pack`).
-/

set_option autoImplicit false

namespace Python

abbrev Text := List Char

/-- The tables of an interpreter for characters beyond ASCII. -/
structure Unicode where
  space : Char → Bool
  decimal : Char → Option (Fin 10)

/-! ## Text -/

/-- `str.isspace` of one character. -/
def isSpace (u : Unicode) (c : Char) : Bool :=
  if c.toNat < 128 then c.toNat = 32 || 9 ≤ c.toNat && c.toNat ≤ 13 || 28 ≤ c.toNat && c.toNat ≤ 31
  else u.space c

/-- `str.strip()`. -/
def strip (u : Unicode) (s : Text) : Text :=
  ((s.dropWhile (isSpace u)).reverse.dropWhile (isSpace u)).reverse

/-- `str.split` at one character: there is always a first part. -/
def split (sep : Char) : Text → List Text
  | [] => [[]]
  | c :: s =>
    if c = sep then [] :: split sep s
    else
      match split sep s with
      | [] => [[c]]
      | part :: parts => (c :: part) :: parts

/-- `str.replace` of a pair of characters with nothing. -/
def removePair (a b : Char) : Text → Text
  | c :: d :: s => if c = a ∧ d = b then removePair a b s else c :: removePair a b (d :: s)
  | s => s

/-- The value of a digit of an integer. -/
def digitValue (u : Unicode) (c : Char) : Option Nat :=
  let n := c.toNat
  if n < 128 then
    if 48 ≤ n ∧ n ≤ 57 then some (n - 48)
    else if 97 ≤ n ∧ n ≤ 122 then some (n - 87)
    else if 65 ≤ n ∧ n ≤ 90 then some (n - 55)
    else none
  else (u.decimal c).map Fin.val

/-- A digit below the base. -/
def digit (u : Unicode) (base : Nat) (c : Char) : Option Nat :=
  (digitValue u c).filter (· < base)

/-- Digits after those that make `acc`, with single underscores between them. -/
def digits (u : Unicode) (base acc : Nat) : Text → Option Nat
  | [] => none
  | [c] => (digit u base c).map (acc * base + ·)
  | c :: '_' :: s => do
    let d ← digit u base c
    digits u base (acc * base + d) s
  | c :: s => do
    let d ← digit u base c
    digits u base (acc * base + d) s

/-- What a base may start with; one underscore may follow it. -/
def dropPrefix : Nat → Text → Text
  | 16, '0' :: c :: s => if c = 'x' ∨ c = 'X' then afterPrefix s else '0' :: c :: s
  | 2, '0' :: c :: s => if c = 'b' ∨ c = 'B' then afterPrefix s else '0' :: c :: s
  | _, s => s
where
  afterPrefix : Text → Text
    | '_' :: s => s
    | s => s

/-- `int(s, base)`, for a text without spaces around it. -/
def int (u : Unicode) (base : Nat) : Text → Option Int
  | '-' :: s => (digits u base 0 (dropPrefix base s)).map fun n => -(n : Int)
  | '+' :: s => (digits u base 0 (dropPrefix base s)).map Int.ofNat
  | s => (digits u base 0 (dropPrefix base s)).map Int.ofNat

/-! ## Bytes -/

abbrev Bytes := List UInt8

def hexDigit (c : Char) : Option Nat :=
  let n := c.toNat
  if 48 ≤ n ∧ n ≤ 57 then some (n - 48)
  else if 97 ≤ n ∧ n ≤ 102 then some (n - 87)
  else if 65 ≤ n ∧ n ≤ 70 then some (n - 55)
  else none

/-- `bytes.fromhex`: pairs of digits, with spaces of ASCII between them. -/
def fromhex : Text → Option Bytes
  | [] => some []
  | [c] => if c.toNat = 32 ∨ 9 ≤ c.toNat ∧ c.toNat ≤ 13 then some [] else none
  | c :: d :: s =>
    if c.toNat = 32 ∨ 9 ≤ c.toNat ∧ c.toNat ≤ 13 then fromhex (d :: s)
    else do
      let hi ← hexDigit c
      let lo ← hexDigit d
      let bs ← fromhex s
      some (UInt8.ofNat (16 * hi + lo) :: bs)

section Slices

variable {α : Type}

/-- An end of a slice of `n` elements. -/
def sliceEnd (n : Nat) (i : Int) : Nat := if i < 0 then (i + n).toNat else min i.toNat n

/-- `xs[i:j]`. -/
def slice (xs : List α) (i j : Int) : List α :=
  (xs.take (sliceEnd xs.length j)).drop (sliceEnd xs.length i)

/-- `xs[:j]`. -/
def sliceTo (xs : List α) (j : Int) : List α := slice xs 0 j

theorem sliceTo_eq (xs : List α) {j : Int} (h : 0 ≤ j) : sliceTo xs j = xs.take j.toNat := by
  rw [sliceTo, slice, sliceEnd, sliceEnd, if_neg (by omega), if_neg (by omega)]
  simp [List.take_eq_take_min]

theorem sliceTo_length (xs : List α) : sliceTo xs xs.length = xs := by
  rw [sliceTo_eq xs (by omega), Int.toNat_natCast, List.take_length]

/-- `xs.ljust(n, a)`. -/
def ljust (xs : List α) (n : Int) (a : α) : List α := xs ++ List.replicate (n.toNat - xs.length) a

end Slices

/-! ## Packed integers -/

inductive Endian
  | little
  | big
deriving DecidableEq, Repr

/-- Bytes that are kept lowest first, as they stand. -/
def Endian.order : Endian → Bytes → Bytes
  | .little, bs => bs
  | .big, bs => bs.reverse

@[simp] theorem Endian.length_order (e : Endian) (bs : Bytes) :
    (e.order bs).length = bs.length := by
  cases e <;> simp [order]

@[simp] theorem Endian.order_order (e : Endian) (bs : Bytes) : e.order (e.order bs) = bs := by
  cases e <;> simp [order]

/-- The integer formats of `struct`. -/
inductive Format
  | B | b | H | h | I | i | Q | q
deriving DecidableEq, Repr

namespace Format

/-- `struct.calcsize`. -/
def size : Format → Nat
  | .B | .b => 1
  | .H | .h => 2
  | .I | .i => 4
  | .Q | .q => 8

def signed : Format → Bool
  | .b | .h | .i | .q => true
  | .B | .H | .I | .Q => false

/-- How many values there are. -/
def values : Format → Nat
  | .B | .b => 256
  | .H | .h => 65536
  | .I | .i => 4294967296
  | .Q | .q => 18446744073709551616

/-- The smallest value. -/
def least (f : Format) : Int := if f.signed then -((f.values / 2 : Nat) : Int) else 0

def InRange (f : Format) (v : Int) : Prop := f.least ≤ v ∧ v < f.least + f.values

instance (f : Format) (v : Int) : Decidable (f.InRange v) := by
  unfold InRange
  infer_instance

theorem values_eq (f : Format) : f.values = 256 ^ f.size := by
  cases f <;> rfl

theorem zero_inRange (f : Format) : f.InRange 0 := by
  cases f <;> decide

end Format

/-- `struct.pack` of an integer; one out of range is an error. -/
def pack (e : Endian) (f : Format) (v : Int) : Option Bytes :=
  if f.InRange v then some (e.order (leBytes f.size (v % f.values).toNat)) else none

/-- `struct.unpack_from` of an integer, where there are enough bytes. -/
def unpack (e : Endian) (f : Format) (bs : Bytes) : Int :=
  let n := leNat (e.order bs)
  if f.least + f.values ≤ n then (n : Int) - f.values else n

section Pack

variable {e : Endian} {f : Format} {v : Int} {bs : Bytes}

theorem pack_eq_some_iff :
    pack e f v = some bs ↔
      f.InRange v ∧ e.order (leBytes f.size (v % f.values).toNat) = bs := by
  unfold pack
  split_ifs with h <;> simp [h]

theorem pack_eq_none_iff : pack e f v = none ↔ ¬f.InRange v := by
  unfold pack
  split_ifs with h <;> simp [h]

theorem length_pack (h : pack e f v = some bs) : bs.length = f.size := by
  obtain ⟨-, rfl⟩ := pack_eq_some_iff.1 h
  simp

/-- **What is packed is what is unpacked.** -/
theorem unpack_pack (h : pack e f v = some bs) : unpack e f bs = v := by
  obtain ⟨hv, rfl⟩ := pack_eq_some_iff.1 h
  have hround : leNat (leBytes f.size (v % f.values).toNat) = (v % f.values).toNat := by
    rw [leNat_leBytes, ← f.values_eq]
    apply Nat.mod_eq_of_lt
    cases f <;> simp only [Format.values] <;> omega
  unfold unpack
  rw [Endian.order_order, hround]
  unfold Format.InRange Format.least at *
  cases f <;> simp [Format.signed, Format.values] at * <;> omega

end Pack

end Python
