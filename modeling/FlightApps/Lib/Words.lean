import Mathlib.Data.List.Basic

/-!
# Words and their bytes

A word is put together from its bytes with shifts and `or`, lowest byte first, and taken apart with
shifts; here it is that the two undo each other.
-/

set_option autoImplicit false

namespace Words

theorem and_ff (b : UInt8) : b &&& 0xFF = b := by
  have h : (0xFF : UInt8) = -1 := rfl
  rw [h, UInt8.and_neg_one]

/-- Two bytes put back together. -/
theorem or_bytes_16 (x : BitVec 16) :
    (x.setWidth 8).setWidth 16 ||| ((x >>> 8).setWidth 8).setWidth 16 <<< 8 = x := by
  ext i hi
  simp only [BitVec.getElem_or, BitVec.getElem_setWidth, BitVec.getLsbD_setWidth,
    BitVec.getElem_shiftLeft, BitVec.getLsbD_ushiftRight]
  have hbyte : i < 8 ∨ 8 ≤ i := by omega
  grind

/-- Four bytes put back together. -/
theorem or_bytes_32 (x : BitVec 32) :
    (x.setWidth 8).setWidth 32 ||| ((x >>> 8).setWidth 8).setWidth 32 <<< 8 |||
      ((x >>> 16).setWidth 8).setWidth 32 <<< 16 ||| ((x >>> 24).setWidth 8).setWidth 32 <<< 24 =
      x := by
  ext i hi
  simp only [BitVec.getElem_or, BitVec.getElem_setWidth, BitVec.getLsbD_setWidth,
    BitVec.getElem_shiftLeft, BitVec.getLsbD_ushiftRight]
  have hbyte : i < 8 ∨ (8 ≤ i ∧ i < 16) ∨ (16 ≤ i ∧ i < 24) ∨ 24 ≤ i := by omega
  grind

/-- Two bytes taken apart again. -/
theorem or_bytes_16_parts (a b : BitVec 8) :
    (a.setWidth 16 ||| b.setWidth 16 <<< 8).setWidth 8 = a ∧
      ((a.setWidth 16 ||| b.setWidth 16 <<< 8) >>> 8).setWidth 8 = b := by
  refine ⟨?_, ?_⟩ <;> ext i hi <;>
    simp only [BitVec.getElem_setWidth, BitVec.getLsbD_ushiftRight, BitVec.getLsbD_or,
      BitVec.getLsbD_setWidth, BitVec.getLsbD_shiftLeft] <;>
    grind

/-- Four bytes taken apart again. -/
theorem or_bytes_32_parts (a b c d : BitVec 8) :
    let v := a.setWidth 32 ||| b.setWidth 32 <<< 8 ||| c.setWidth 32 <<< 16 |||
      d.setWidth 32 <<< 24
    v.setWidth 8 = a ∧ (v >>> 8).setWidth 8 = b ∧ (v >>> 16).setWidth 8 = c ∧
      (v >>> 24).setWidth 8 = d := by
  refine ⟨?_, ?_, ?_, ?_⟩ <;> ext i hi <;>
    simp only [BitVec.getElem_setWidth, BitVec.getLsbD_ushiftRight, BitVec.getLsbD_or,
      BitVec.getLsbD_setWidth, BitVec.getLsbD_shiftLeft] <;>
    grind

theorem u16_of_bytes (v : UInt16) :
    v.toUInt8.toUInt16 ||| (v >>> 8).toUInt8.toUInt16 <<< 8 = v :=
  UInt16.toBitVec_inj.1 (or_bytes_16 v.toBitVec)

theorem u16_lo (a b : UInt8) : (a.toUInt16 ||| b.toUInt16 <<< 8).toUInt8 = a :=
  UInt8.toBitVec_inj.1 (or_bytes_16_parts a.toBitVec b.toBitVec).1

theorem u16_hi (a b : UInt8) : ((a.toUInt16 ||| b.toUInt16 <<< 8) >>> 8).toUInt8 = b :=
  UInt8.toBitVec_inj.1 (or_bytes_16_parts a.toBitVec b.toBitVec).2

end Words
