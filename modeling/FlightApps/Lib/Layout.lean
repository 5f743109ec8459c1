import Mathlib.Algebra.Ring.Nat
import Mathlib.Data.List.OfFn

/-!
# Records in memory

A `Layout` says how the values of a type lie in memory, as a fixed number of bytes.  Reading is
total: the bytes that are missing at the end are taken to be zero, so that reading part of a record
into cleared memory is reading it through its layout.

Layouts are built from those of little-endian words by putting one after the other (`prod`), in
arrays (`array`) and by naming the parts (`iso`); the round trip comes with them.  Where every
string of bytes is a value (`Full`), what is read is what is there, and nothing else is looked at.
-/

set_option autoImplicit false

universe u v

/-! ## Little-endian words -/

/-- The `w` low bytes of a number, the lowest first. -/
def leBytes : Nat → Nat → List UInt8
  | 0, _ => []
  | w + 1, n => UInt8.ofNat n :: leBytes w (n / 256)

/-- The number whose bytes are given, the lowest first. -/
def leNat : List UInt8 → Nat
  | [] => 0
  | b :: bs => b.toNat + 256 * leNat bs

@[simp] theorem length_leBytes (w n : Nat) : (leBytes w n).length = w := by
  induction w generalizing n with
  | zero => rfl
  | succ w ih => rw [leBytes, List.length_cons, ih]

theorem leNat_lt (bs : List UInt8) : leNat bs < 256 ^ bs.length := by
  induction bs with
  | nil => exact Nat.one_pos
  | cons b bs ih =>
    have hb : b.toNat < 256 := b.toNat_lt
    rw [leNat, List.length_cons, Nat.pow_succ']
    omega

/-- Every string of bytes is a number. -/
theorem leBytes_leNat (bs : List UInt8) : leBytes bs.length (leNat bs) = bs := by
  induction bs with
  | nil => rfl
  | cons b bs ih =>
    have hb : b.toNat < 256 := b.toNat_lt
    have hlow : UInt8.ofNat (b.toNat + 256 * leNat bs) = b := by
      refine UInt8.toNat_inj.1 ?_
      rw [UInt8.toNat_ofNat', Nat.add_mul_mod_self_left, Nat.mod_eq_of_lt hb]
    have hhigh : (b.toNat + 256 * leNat bs) / 256 = leNat bs := by omega
    rw [leNat, List.length_cons, leBytes, hlow, hhigh, ih]

theorem leNat_leBytes (w n : Nat) : leNat (leBytes w n) = n % 256 ^ w := by
  induction w generalizing n with
  | zero => rw [leBytes, leNat, Nat.pow_zero, Nat.mod_one]
  | succ w ih =>
    have hbyte : (UInt8.ofNat n).toNat = n % 256 := UInt8.toNat_ofNat'
    rw [leBytes, leNat, ih, hbyte, Nat.pow_succ', Nat.mod_mul]

/-! ## Layouts -/

/-- How the values of a type lie in memory. -/
structure Layout (α : Type u) where
  size : Nat
  bytes : α → List UInt8
  /-- Read a value, with zeros for the bytes that are missing. -/
  read : List UInt8 → α
  length_bytes : ∀ a, (bytes a).length = size
  /-- **Round trip**, whatever follows. -/
  read_bytes : ∀ a rest, read (bytes a ++ rest) = a

namespace Layout

variable {α : Type u} {β : Type v}

/-- A word of `w` bytes. -/
def word (w : Nat) (ofNat : Nat → α) (toNat : α → Nat) (hlt : ∀ a, toNat a < 256 ^ w)
    (h : ∀ a, ofNat (toNat a) = a) : Layout α where
  size := w
  bytes a := leBytes w (toNat a)
  read bs := ofNat (leNat (bs.take w))
  length_bytes a := length_leBytes w (toNat a)
  read_bytes a rest := by
    rw [List.take_left' (length_leBytes w _), leNat_leBytes, Nat.mod_eq_of_lt (hlt a), h]

/-- A word lies in its first bytes. -/
theorem word_read_append {w : Nat} {ofNat : Nat → α} {toNat : α → Nat}
    {hlt : ∀ a, toNat a < 256 ^ w} {h : ∀ a, ofNat (toNat a) = a} {bs : List UInt8}
    (hw : w ≤ bs.length) (cs : List UInt8) :
    (word w ofNat toNat hlt h).read (bs ++ cs) = (word w ofNat toNat hlt h).read bs := by
  show ofNat (leNat ((bs ++ cs).take w)) = ofNat (leNat (bs.take w))
  rw [List.take_append_of_le_length hw]

def u8 : Layout UInt8 := word 1 UInt8.ofNat UInt8.toNat UInt8.toNat_lt fun _ => UInt8.ofNat_toNat

def u16 : Layout UInt16 :=
  word 2 UInt16.ofNat UInt16.toNat UInt16.toNat_lt fun _ => UInt16.ofNat_toNat

def u32 : Layout UInt32 :=
  word 4 UInt32.ofNat UInt32.toNat UInt32.toNat_lt fun _ => UInt32.ofNat_toNat

/-- One after the other. -/
def prod (l : Layout α) (k : Layout β) : Layout (α × β) where
  size := l.size + k.size
  bytes p := l.bytes p.1 ++ k.bytes p.2
  read bs := (l.read bs, k.read (bs.drop l.size))
  length_bytes p := by rw [List.length_append, l.length_bytes, k.length_bytes]
  read_bytes p rest := by
    rw [List.append_assoc, l.read_bytes, List.drop_left' (l.length_bytes p.1), k.read_bytes]

/-- The same bytes under another name. -/
def iso (l : Layout α) (name : α → β) (parts : β → α) (h : ∀ b, name (parts b) = b) :
    Layout β where
  size := l.size
  bytes b := l.bytes (parts b)
  read bs := name (l.read bs)
  length_bytes b := l.length_bytes (parts b)
  read_bytes b rest := by rw [l.read_bytes, h]

/-! ## Layouts without gaps -/

/-- Every string of the right length is a value. -/
def Full (l : Layout α) : Prop := ∀ bs, bs.length = l.size → l.bytes (l.read bs) = bs

/-- A value lies in its first bytes. -/
theorem Full.read_append {l : Layout α} (h : l.Full) {bs : List UInt8} (hbs : l.size ≤ bs.length)
    (cs : List UInt8) : l.read (bs ++ cs) = l.read bs := by
  have hread : ∀ rest, l.read (bs.take l.size ++ rest) = l.read (bs.take l.size) := by
    intro rest
    have hfront := h (bs.take l.size) (List.length_take_of_le hbs)
    conv_lhs => rw [← hfront, l.read_bytes]
  rw [← List.take_append_drop l.size bs, List.append_assoc, hread, hread]

theorem full_word {w : Nat} {ofNat : Nat → α} {toNat : α → Nat} {hlt : ∀ a, toNat a < 256 ^ w}
    {h : ∀ a, ofNat (toNat a) = a} (hof : ∀ n, n < 256 ^ w → toNat (ofNat n) = n) :
    (word w ofNat toNat hlt h).Full := by
  intro bs hbs
  have hbs : bs.length = w := hbs
  show leBytes w (toNat (ofNat (leNat (bs.take w)))) = bs
  rw [List.take_of_length_le (Nat.le_of_eq hbs), hof _ (hbs ▸ leNat_lt bs)]
  exact hbs ▸ leBytes_leNat bs

theorem full_u8 : u8.Full := full_word fun n hn => by
  rw [UInt8.toNat_ofNat']
  exact Nat.mod_eq_of_lt hn

theorem full_u16 : u16.Full := full_word fun n hn => by
  rw [UInt16.toNat_ofNat']
  exact Nat.mod_eq_of_lt hn

theorem full_u32 : u32.Full := full_word fun n hn => by
  rw [UInt32.toNat_ofNat']
  exact Nat.mod_eq_of_lt hn

theorem Full.prod {l : Layout α} {k : Layout β} (hl : l.Full) (hk : k.Full) :
    (l.prod k).Full := by
  intro bs hbs
  have hbs : bs.length = l.size + k.size := hbs
  have hfront : l.read bs = l.read (bs.take l.size) := by
    conv_lhs => rw [← List.take_append_drop l.size bs]
    exact hl.read_append (by rw [List.length_take_of_le (by omega)]) _
  show l.bytes (l.read bs) ++ k.bytes (k.read (bs.drop l.size)) = bs
  rw [hfront, hl _ (List.length_take_of_le (by omega)),
    hk _ (by rw [List.length_drop]; omega), List.take_append_drop]

theorem Full.iso {l : Layout α} (hl : l.Full) {name : α → β} {parts : β → α}
    {h : ∀ b, name (parts b) = b} (hparts : ∀ a, parts (name a) = a) :
    (l.iso name parts h).Full := by
  intro bs hbs
  show l.bytes (parts (name (l.read bs))) = bs
  rw [hparts, hl bs hbs]

/-! ## Arrays -/

theorem drop_flatMap_bytes (l : Layout α) (as : List α) (i : Nat) :
    (as.flatMap l.bytes).drop (i * l.size) = (as.drop i).flatMap l.bytes := by
  induction as generalizing i with
  | nil => rw [List.drop_nil, List.flatMap_nil, List.drop_nil]
  | cons a as ih =>
    cases i with
    | zero => rw [Nat.zero_mul, List.drop_zero, List.drop_zero]
    | succ i =>
      rw [List.drop_succ_cons, ← ih, List.flatMap_cons, Nat.succ_mul, Nat.add_comm,
        ← List.drop_drop, List.drop_left' (l.length_bytes a)]

theorem length_flatMap_bytes (l : Layout α) (as : List α) :
    (as.flatMap l.bytes).length = as.length * l.size := by
  induction as with
  | nil => rw [List.flatMap_nil, List.length_nil, List.length_nil, Nat.zero_mul]
  | cons a as ih =>
    rw [List.flatMap_cons, List.length_append, l.length_bytes, ih, List.length_cons, Nat.succ_mul,
      Nat.add_comm]

/-- An array of `n`. -/
def array (l : Layout α) (n : Nat) : Layout (Fin n → α) where
  size := n * l.size
  bytes f := (List.ofFn f).flatMap l.bytes
  read bs := fun i => l.read (bs.drop (i * l.size))
  length_bytes f := by rw [length_flatMap_bytes, List.length_ofFn]
  read_bytes f rest := by
    funext i
    have hi : i.val < (List.ofFn f).length := by rw [List.length_ofFn]; exact i.isLt
    have hfit : i.val * l.size ≤ ((List.ofFn f).flatMap l.bytes).length := by
      rw [length_flatMap_bytes]
      exact Nat.mul_le_mul_right _ (Nat.le_of_lt hi)
    rw [List.drop_append_of_le_length hfit, drop_flatMap_bytes, List.drop_eq_getElem_cons hi,
      List.flatMap_cons, List.append_assoc, l.read_bytes, List.getElem_ofFn]

end Layout
