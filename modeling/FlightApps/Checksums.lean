import FlightApps.Esup.Codec
import FlightApps.Ftp.Downloads
import FlightApps.Ltrx.Wire
import FlightApps.Oem.Feed

/-!
# The checksums of the links

The transmitter, the two radios and the receiver each come with a CRC-32 of their own: two tables
of words with a register that starts and ends complemented, eight rounds for each byte, and a table
that may be left out for a register that starts at zero.  They all are the register of one reflected
polynomial, so a message has one checksum whoever computes it, and in whatever pieces.
-/

set_option autoImplicit false

namespace FlightApps
namespace Checksums

/-- The polynomial of CRC-32, reflected. -/
def poly : UInt32 := 0xEDB88320

/-- The reflected CRC-32 of a message: the register starts and ends complemented. -/
def crc32 (data : List UInt8) : UInt32 := ~~~Crc.register poly 0xFFFFFFFF data

/-! ## The tables -/

/-- Eight rounds without a table. -/
theorem word_eq (i : UInt8) : Oem.crc32Word i = (Crc.round poly)^[8] i.toUInt32 := by
  have hround (crc : UInt32) :
      (if crc &&& 1 = 1 then (crc >>> 1) ^^^ 0xEDB88320 else crc >>> 1) = Crc.round poly crc := by
    have hbit : crc &&& 1 = 1 ↔ ¬crc &&& 1 = 0 := by
      rw [Crc.and_one_eq_zero, ← UInt32.toNat_inj, UInt32.toNat_and]
      have hmod : crc.toNat &&& (1 : UInt32).toNat = crc.toNat % 2 := Nat.and_one_is_mod _
      rw [hmod, UInt32.toNat_one]
      omega
    rw [Crc.round, poly]
    by_cases h : crc &&& 1 = 0 <;> simp [hbit, h]
  rw [Oem.crc32Word]
  simp only [hround]
  rfl

/-- The tables of `esup_crc32` and of `LTRX_CalculateCRC32` are the one of `oem_crc32`. -/
theorem tables_eq : Esup.crc32Tab = Oem.crc32Lookup ∧ Ltrx.crc32Table = Oem.crc32Lookup :=
  ⟨rfl, rfl⟩

/-- The table has what eight rounds make of each byte. -/
theorem lookup_eq (i : UInt8) :
    Oem.crc32Lookup.getD i.toNat 0 = (Crc.round poly)^[8] i.toUInt32 := by
  rw [Oem.crc32Lookup_eq, word_eq]

/-- The index of a byte, as two of the programs compute it. -/
theorem index_eq (crc : UInt32) (b : UInt8) :
    ((crc ^^^ b.toUInt32) &&& 0xFF).toNat = (crc.toUInt8 ^^^ b).toNat := by
  rw [UInt32.toNat_and, UInt32.toNat_xor, UInt8.toNat_xor]
  have hmask (n : Nat) : n &&& (0xFF : UInt32).toNat = n % 2 ^ 8 := Nat.and_two_pow_sub_one_eq_mod n 8
  rw [hmask, Nat.xor_mod_two_pow]
  simp

/-! ## The four programs -/

/-- One byte with the table. -/
def tableStep (r : UInt32) (b : UInt8) : UInt32 :=
  (r >>> 8) ^^^ Oem.crc32Lookup.getD (r.toUInt8 ^^^ b).toNat 0

theorem foldl_tableStep (r : UInt32) (data : List UInt8) :
    data.foldl tableStep r = Crc.register poly r data :=
  Crc.foldl_table poly lookup_eq r data

theorem esup_step : Esup.crc32Step = tableStep := by
  funext r b
  rw [Esup.crc32Step, tableStep, index_eq, tables_eq.1, UInt32.xor_comm]

theorem ltrx_step : Ltrx.crc32Step = tableStep := by
  funext r b
  rw [Ltrx.crc32Step, tableStep, index_eq, tables_eq.2]

/-- The mask of `oem_crc32` takes nothing away. -/
theorem oem_step : Oem.crc32Step = tableStep := by
  have hmask (r : UInt32) : ((r >>> 8) &&& 0x00FFFFFF : UInt32) = r >>> 8 := by
    have hlt := r.toNat_lt
    rw [← UInt32.toNat_inj, UInt32.toNat_and]
    refine (Nat.and_two_pow_sub_one_eq_mod _ 24).trans (Nat.mod_eq_of_lt ?_)
    rw [UInt32.toNat_shiftRight]
    simp [Nat.shiftRight_eq_div_pow]
    omega
  funext r b
  rw [Oem.crc32Step, tableStep, hmask]

theorem xor_ones (r : UInt32) : r ^^^ 0xFFFFFFFF = ~~~r := by
  rw [← UInt32.toBitVec_inj, UInt32.toBitVec_xor, UInt32.toBitVec_not]
  exact BitVec.xor_allOnes

theorem esup_crc32_eq (data : List UInt8) : Esup.crc32 data = crc32 data := by
  rw [Esup.crc32, esup_step, foldl_tableStep, crc32]
  exact xor_ones _

theorem calculateCRC32_eq (data : List UInt8) : Ltrx.calculateCRC32 data = crc32 data := by
  rw [Ltrx.calculateCRC32, ltrx_step, foldl_tableStep, xor_ones, ← crc32]
  split
  · rename_i h0
    obtain rfl := List.length_eq_zero_iff.1 h0
    rfl
  · rfl

theorem ftp_crc32_eq (data : List UInt8) :
    Ftp.crc32Finalize (Ftp.crc32Update Ftp.crc32Init data) = crc32 data := by
  rw [Ftp.crc32Update_eq, Ftp.crc32Finalize, Ftp.crc32Init, crc32, poly]

/-- Updates with the pieces of a message are one update with the message. -/
theorem ftp_crc32_pieces (crc : UInt32) (pieces : List (List UInt8)) :
    pieces.foldl Ftp.crc32Update crc = Ftp.crc32Update crc pieces.flatten := by
  induction pieces generalizing crc with
  | nil => rfl
  | cons piece pieces ih => rw [List.foldl_cons, ih, List.flatten_cons, Ftp.crc32Update_append]

theorem oemCrc32_eq (data : List UInt8) : Oem.oemCrc32 data = Crc.register poly 0 data := by
  rw [Oem.oemCrc32, oem_step, foldl_tableStep]

theorem oemCrc32Words_eq (data : List UInt8) : Oem.oemCrc32Words data = Oem.oemCrc32 data := by
  rw [Oem.oemCrc32Words, Oem.oemCrc32]
  congr 1
  funext r b
  rw [Oem.crc32Step, Oem.crc32Lookup_eq]

/-- **All checksums agree**: the transmitter, the LTRX radio and the file transfer compute the
reflected CRC-32, the receiver computes it from zero and without a complement in both of its builds,
and the file transfer computes the same in whatever pieces the message comes. -/
theorem checksums_agree (data : List UInt8) :
    Esup.crc32 data = crc32 data ∧
      (data.length ≤ 65535 → Ltrx.calculateCRC32 data = crc32 data) ∧
      Ftp.crc32Finalize (Ftp.crc32Update Ftp.crc32Init data) = crc32 data ∧
      Oem.oemCrc32 data = Oem.oemCrc32Words data ∧
      Oem.oemCrc32 data = Crc.register poly 0 data ∧
      ∀ pieces : List (List UInt8), pieces.flatten = data →
        Ftp.crc32Finalize (pieces.foldl Ftp.crc32Update Ftp.crc32Init) = crc32 data := by
  refine ⟨esup_crc32_eq data, fun _ => calculateCRC32_eq data, ftp_crc32_eq data,
    (oemCrc32Words_eq data).symm, oemCrc32_eq data, ?_⟩
  rintro pieces rfl
  rw [ftp_crc32_pieces, ftp_crc32_eq]

/-- The nine digits from 1 to 9 have the checksum that catalogues of CRCs give. -/
theorem checksums_digits :
    Esup.crc32 [49, 50, 51, 52, 53, 54, 55, 56, 57] = 0xCBF43926 ∧
      Ltrx.calculateCRC32 [49, 50, 51, 52, 53, 54, 55, 56, 57] = 0xCBF43926 := by
  obtain ⟨hesup, hltrx, -⟩ := checksums_agree [49, 50, 51, 52, 53, 54, 55, 56, 57]
  exact ⟨hesup.trans (by decide +kernel), (hltrx (by decide)).trans (by decide +kernel)⟩

end Checksums
end FlightApps
