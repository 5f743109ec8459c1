import FlightApps.Pay.Truthful

/-!
# A payload with a file

A `Payload` has one file and tells the truth about it.  Its last part may have padding, which is
what makes the difference between the links: `ft_part_size` may count the padding, and the CRC may
cover it.  `Serves` is what such a payload and the file functions may answer, without failures, with
failures, or also with writes that are cut short.
-/

set_option autoImplicit false

namespace FlightApps
namespace Pay

open Script

structure Payload where
  name : List UInt8
  data : List UInt8
  chunkSize : UInt32
  /-- What follows the data in the last part. -/
  padding : List UInt8
  /-- `ft_part_size` counts the padding. -/
  counted : Bool
  /-- The CRC of a part that counts its padding covers it, too. -/
  covered : Bool
  chunkSize_pos : 0 < chunkSize.toNat
  data_lt : data.length < 2 ^ 32
  fits : data.length + padding.length ≤
    (data.length + chunkSize.toNat - 1) / chunkSize.toNat * chunkSize.toNat

namespace Payload

variable (p : Payload)

def npart : Nat := (p.data.length + p.chunkSize.toNat - 1) / p.chunkSize.toNat

/-- The data of a part. -/
def chunk (n : Nat) : List UInt8 := (p.data.drop (n * p.chunkSize.toNat)).take p.chunkSize.toNat

/-- A part as it is on the links. -/
def part (n : Nat) : List UInt8 := p.chunk n ++ if n + 1 = p.npart then p.padding else []

/-- What `ft_part_size` counts. -/
def sized (n : Nat) : List UInt8 := if p.counted then p.part n else p.chunk n

def partCrc32 (n : Nat) : UInt32 :=
  calculateCRC32 (if p.counted ∧ p.covered then p.part n else p.chunk n)

/-- A part in a frame on RS422. -/
def frame (n : Nat) : List UInt8 :=
  let len := UInt16.ofNat ((p.part n).length + 2)
  let pn := UInt16.ofNat n
  0x40 :: 0x44 :: 0 :: (len >>> 8).toUInt8 :: len.toUInt8 :: (pn >>> 8).toUInt8 :: pn.toUInt8 ::
    (p.part n ++ [0x0D])

/-- What is told of a parameter while a part is loaded. -/
def Tells (part : Option UInt32) (value : UInt32) : Param → Prop
  | .ftChunkSize => value = p.chunkSize
  | .ftFileNpart => value = UInt32.ofNat p.npart
  | .ftFileSize => value = UInt32.ofNat p.data.length
  | .ftPartReady => True
  | .ftPartSize => ∀ i, part = some i → value = UInt32.ofNat (p.sized i.toNat).length
  | .ftPartCrc32 => ∀ i, part = some i → value = p.partCrc32 i.toNat
  | .ftFileCrc32 => value = calculateCRC32 p.data

/-- A part is ready after 500 polls at most. -/
def Ready (polls : Nat) (value : UInt32) : Prop := value = 1 ∨ value = 0 ∧ polls + 1 < 500

/-- What may be answered: the truth, or a failure if there are failures; a write is cut short only
where writes are `cut`.  The first byte on I2C is garbage, and the third on RS422 a counter. -/
def Serves (fail cut : Bool) (s : Scene) : (c : Call) → c.Reply → Prop
  | .fetch .ftPartReady, (status, value) =>
    fail = true ∨ status = success ∧ Ready s.notes.polls value
  | .fetch q, (status, value) =>
    if status = success then p.Tells s.notes.part value q else fail = true
  | .fetchName, (status, name) => if status = success then name = p.name else fail = true
  | .fetchI2cAddr, (status, _) => status ≠ success → fail = true
  | .set _ _, status => status ≠ success → fail = true
  | .i2cRead _ size, (status, bytes) =>
    if status = success then
      ∀ i, s.notes.part = some i → ∀ j, j + 1 < size → bytes (j + 1) = (p.part i.toNat).getD j 0
    else fail = true
  | .serialRead first, (status, b) =>
    if status = success then ∀ i, s.notes.part = some i → ∀ j,
      j = (if first then 0 else s.notes.received.length) → j ≠ 2 → b = (p.frame i.toNat).getD j 0
    else fail = true
  | .openCreate _ _, (status, _) => status ≠ success → fail = true
  | .lseekEnd _, status => status < 0 → fail = true
  | .write _ data, written => written.toInt = ((min data.length (2 ^ 31 - 1) : Nat) : Int) ∨
      fail = true ∧ (written.toInt ≤ 0 ∨ cut = true ∧ written.toInt < (data.length : Int))
  | .close _, _ => True
  | .stat path, (status, size) =>
    if status = success then size = (s.disk.content path).length else fail = true
  | .report _ _ _ _ _, _ => True

/-- The world with this payload. -/
def world (fail cut : Bool) : World Call Call.Reply Scene := ⟨p.Serves fail cut, Scene.next⟩

/-! ## Parts -/

theorem lt_npart_iff (n : Nat) : n < p.npart ↔ n * p.chunkSize.toNat < p.data.length := by
  have hpos := p.chunkSize_pos
  rw [npart, Nat.lt_iff_add_one_le, Nat.le_div_iff_mul_le hpos, Nat.succ_mul]
  omega

theorem npart_lt : p.npart < 2 ^ 32 := by
  have hlt := p.data_lt
  by_contra hle
  have hlast := (p.lt_npart_iff (2 ^ 32 - 1)).1 (by omega)
  have hmul := Nat.le_mul_of_pos_right (2 ^ 32 - 1) p.chunkSize_pos
  omega

theorem length_chunk (n : Nat) :
    (p.chunk n).length = min p.chunkSize.toNat (p.data.length - n * p.chunkSize.toNat) := by
  rw [chunk, List.length_take, List.length_drop]

variable {p}

theorem length_chunk_pos {n : Nat} (hn : n < p.npart) : 0 < (p.chunk n).length := by
  rw [length_chunk]
  exact Nat.lt_min.2 ⟨p.chunkSize_pos, Nat.sub_pos_of_lt ((p.lt_npart_iff n).1 hn)⟩

/-- All parts but the last one are full. -/
theorem length_chunk_full {n : Nat} (hn : n + 1 < p.npart) :
    (p.chunk n).length = p.chunkSize.toNat := by
  have hlt := (p.lt_npart_iff (n + 1)).1 hn
  rw [Nat.succ_mul] at hlt
  rw [length_chunk]
  omega

theorem part_eq_chunk {n : Nat} (hn : n + 1 ≠ p.npart) : p.part n = p.chunk n := by
  rw [part, if_neg hn, List.append_nil]

theorem length_part_le {n : Nat} (hn : n < p.npart) : (p.part n).length ≤ p.chunkSize.toNat := by
  by_cases hlast : n + 1 = p.npart
  · have hfits := p.fits
    change p.data.length + p.padding.length ≤ p.npart * p.chunkSize.toNat at hfits
    rw [← hlast, Nat.succ_mul] at hfits
    have hlt := (p.lt_npart_iff n).1 hn
    rw [part, if_pos hlast, List.length_append, length_chunk]
    omega
  · rw [part_eq_chunk hlast, length_chunk]
    exact Nat.min_le_left _ _

theorem chunk_prefix_part (n : Nat) : p.chunk n <+: p.part n := List.prefix_append _ _

theorem chunk_prefix_sized (n : Nat) : p.chunk n <+: p.sized n := by
  rw [sized]
  split
  · exact chunk_prefix_part n
  · exact List.prefix_rfl

theorem sized_prefix_part (n : Nat) : p.sized n <+: p.part n := by
  rw [sized]
  split
  · exact List.prefix_rfl
  · exact chunk_prefix_part n

/-- A part that is not the last one has no padding to count. -/
theorem sized_eq_part {n : Nat} (hn : n + 1 ≠ p.npart) : p.sized n = p.part n := by
  rw [sized, part_eq_chunk hn, ite_self]

end Payload

end Pay
end FlightApps
