import Mathlib.Data.List.GetD
import FlightApps.Lib.Words

/-!
# The ESUP frame codec

A frame on the wire is a four byte magic, five little-endian fields, the data, a CRC-32 over all of
that, and zeros up to a multiple of `ESUP_ALIGN`.  `frameEncode` and `frameDecode` are
`esup_frame_encode` and `esup_frame_decode` of `esup_framer.c`, over lists of bytes: a buffer and
its length are one list, and the bytes an encoder writes are the list it returns.

`frameDecode_wire` is what the link layer rests on: what the encoder writes, the decoder accepts,
and it gives the same frame back.
-/

set_option autoImplicit false

namespace FlightApps
namespace Esup

/-! ## Frame geometry -/

/-- `ESUP_MAGIC_0` to `ESUP_MAGIC_3`, the letters of the protocol's name. -/
def magic : List UInt8 := [0x45, 0x53, 0x55, 0x50]

/-- `ESUP_SIZE_HEADER`. -/
def sizeHeader : Nat := 4

/-- `ESUP_SIZE_DATA_LEN`. -/
def sizeDataLen : Nat := 2

/-- `ESUP_SIZE_CRC`. -/
def sizeCrc : Nat := 4

/-- `ESUP_OFST_MODULE_ID`. -/
def ofstModuleId : Nat := 4

/-- `ESUP_OFST_DATA_LEN`. -/
def ofstDataLen : Nat := 6

/-- `ESUP_OFST_CMD_STATUS`. -/
def ofstCmdStatus : Nat := 8

/-- `ESUP_OFST_COMMAND`. -/
def ofstCommand : Nat := 10

/-- `ESUP_OFST_TYPE`. -/
def ofstType : Nat := 12

/-- `ESUP_OFST_DATA`. -/
def ofstData : Nat := 14

/-- `ESUP_SIZE_OVERHEAD`: everything but the data and the padding. -/
def sizeOverhead : Nat := 18

/-- `ESUP_DATA_MAX`. -/
def dataMax : Nat := 1472

/-- `ESUP_ALIGN`. -/
def align : Nat := 16

/-- `ESUP_FRAME_MAX`. -/
def frameMax : Nat := 1504

/-- The return codes of the codec other than `ESUP_OK`. -/
inductive FrameErr
  | arg
  | capacity
  | length
  | magic
  | crc
deriving DecidableEq, Repr

/-- `esup_frame_t`.  The data is the bytes the pointer leads to, none if it is null, and `data_len`
their number. -/
structure Frame where
  moduleId : UInt16
  cmdStatus : UInt16
  command : UInt16
  type : UInt16
  data : List UInt8
  /-- The number of data bytes is a `uint16_t`. -/
  fits : data.length < UInt16.size
deriving DecidableEq

/-- The field `data_len`. -/
def Frame.dataLen (f : Frame) : UInt16 := UInt16.ofNat f.data.length

/-! ## Little-endian field access -/

def readU16Le (p : List UInt8) (i : Nat) : UInt16 :=
  (p.getD i 0).toUInt16 ||| ((p.getD (i + 1) 0).toUInt16 <<< 8)

def writeU16Le (value : UInt16) : List UInt8 :=
  [(value &&& 0xFF).toUInt8, ((value >>> 8) &&& 0xFF).toUInt8]

def readU32Le (p : List UInt8) (i : Nat) : UInt32 :=
  (p.getD i 0).toUInt32 ||| ((p.getD (i + 1) 0).toUInt32 <<< 8) |||
    ((p.getD (i + 2) 0).toUInt32 <<< 16) ||| ((p.getD (i + 3) 0).toUInt32 <<< 24)

def writeU32Le (value : UInt32) : List UInt8 :=
  [(value &&& 0xFF).toUInt8, ((value >>> 8) &&& 0xFF).toUInt8,
    ((value >>> 16) &&& 0xFF).toUInt8, ((value >>> 24) &&& 0xFF).toUInt8]

def alignUpFrame (n : Nat) : Nat :=
  if n % align = 0 then n else n + (align - n % align)

/-- `has_magic`: the first four bytes are the magic. -/
def hasMagic (p : List UInt8) : Bool :=
  p.getD 0 0 == 0x45 && p.getD 1 0 == 0x53 && p.getD 2 0 == 0x55 && p.getD 3 0 == 0x50

/-! ## CRC-32 -/

/-- The table of `esup_crc32`. -/
def crc32Tab : List UInt32 :=
  [
    0x00000000, 0x77073096, 0xee0e612c, 0x990951ba, 0x076dc419, 0x706af48f, 0xe963a535,
    0x9e6495a3, 0x0edb8832, 0x79dcb8a4, 0xe0d5e91e, 0x97d2d988, 0x09b64c2b, 0x7eb17cbd,
    0xe7b82d07, 0x90bf1d91, 0x1db71064, 0x6ab020f2, 0xf3b97148, 0x84be41de, 0x1adad47d,
    0x6ddde4eb, 0xf4d4b551, 0x83d385c7, 0x136c9856, 0x646ba8c0, 0xfd62f97a, 0x8a65c9ec,
    0x14015c4f, 0x63066cd9, 0xfa0f3d63, 0x8d080df5, 0x3b6e20c8, 0x4c69105e, 0xd56041e4,
    0xa2677172, 0x3c03e4d1, 0x4b04d447, 0xd20d85fd, 0xa50ab56b, 0x35b5a8fa, 0x42b2986c,
    0xdbbbc9d6, 0xacbcf940, 0x32d86ce3, 0x45df5c75, 0xdcd60dcf, 0xabd13d59, 0x26d930ac,
    0x51de003a, 0xc8d75180, 0xbfd06116, 0x21b4f4b5, 0x56b3c423, 0xcfba9599, 0xb8bda50f,
    0x2802b89e, 0x5f058808, 0xc60cd9b2, 0xb10be924, 0x2f6f7c87, 0x58684c11, 0xc1611dab,
    0xb6662d3d, 0x76dc4190, 0x01db7106, 0x98d220bc, 0xefd5102a, 0x71b18589, 0x06b6b51f,
    0x9fbfe4a5, 0xe8b8d433, 0x7807c9a2, 0x0f00f934, 0x9609a88e, 0xe10e9818, 0x7f6a0dbb,
    0x086d3d2d, 0x91646c97, 0xe6635c01, 0x6b6b51f4, 0x1c6c6162, 0x856530d8, 0xf262004e,
    0x6c0695ed, 0x1b01a57b, 0x8208f4c1, 0xf50fc457, 0x65b0d9c6, 0x12b7e950, 0x8bbeb8ea,
    0xfcb9887c, 0x62dd1ddf, 0x15da2d49, 0x8cd37cf3, 0xfbd44c65, 0x4db26158, 0x3ab551ce,
    0xa3bc0074, 0xd4bb30e2, 0x4adfa541, 0x3dd895d7, 0xa4d1c46d, 0xd3d6f4fb, 0x4369e96a,
    0x346ed9fc, 0xad678846, 0xda60b8d0, 0x44042d73, 0x33031de5, 0xaa0a4c5f, 0xdd0d7cc9,
    0x5005713c, 0x270241aa, 0xbe0b1010, 0xc90c2086, 0x5768b525, 0x206f85b3, 0xb966d409,
    0xce61e49f, 0x5edef90e, 0x29d9c998, 0xb0d09822, 0xc7d7a8b4, 0x59b33d17, 0x2eb40d81,
    0xb7bd5c3b, 0xc0ba6cad, 0xedb88320, 0x9abfb3b6, 0x03b6e20c, 0x74b1d29a, 0xead54739,
    0x9dd277af, 0x04db2615, 0x73dc1683, 0xe3630b12, 0x94643b84, 0x0d6d6a3e, 0x7a6a5aa8,
    0xe40ecf0b, 0x9309ff9d, 0x0a00ae27, 0x7d079eb1, 0xf00f9344, 0x8708a3d2, 0x1e01f268,
    0x6906c2fe, 0xf762575d, 0x806567cb, 0x196c3671, 0x6e6b06e7, 0xfed41b76, 0x89d32be0,
    0x10da7a5a, 0x67dd4acc, 0xf9b9df6f, 0x8ebeeff9, 0x17b7be43, 0x60b08ed5, 0xd6d6a3e8,
    0xa1d1937e, 0x38d8c2c4, 0x4fdff252, 0xd1bb67f1, 0xa6bc5767, 0x3fb506dd, 0x48b2364b,
    0xd80d2bda, 0xaf0a1b4c, 0x36034af6, 0x41047a60, 0xdf60efc3, 0xa867df55, 0x316e8eef,
    0x4669be79, 0xcb61b38c, 0xbc66831a, 0x256fd2a0, 0x5268e236, 0xcc0c7795, 0xbb0b4703,
    0x220216b9, 0x5505262f, 0xc5ba3bbe, 0xb2bd0b28, 0x2bb45a92, 0x5cb36a04, 0xc2d7ffa7,
    0xb5d0cf31, 0x2cd99e8b, 0x5bdeae1d, 0x9b64c2b0, 0xec63f226, 0x756aa39c, 0x026d930a,
    0x9c0906a9, 0xeb0e363f, 0x72076785, 0x05005713, 0x95bf4a82, 0xe2b87a14, 0x7bb12bae,
    0x0cb61b38, 0x92d28e9b, 0xe5d5be0d, 0x7cdcefb7, 0x0bdbdf21, 0x86d3d2d4, 0xf1d4e242,
    0x68ddb3f8, 0x1fda836e, 0x81be16cd, 0xf6b9265b, 0x6fb077e1, 0x18b74777, 0x88085ae6,
    0xff0f6a70, 0x66063bca, 0x11010b5c, 0x8f659eff, 0xf862ae69, 0x616bffd3, 0x166ccf45,
    0xa00ae278, 0xd70dd2ee, 0x4e048354, 0x3903b3c2, 0xa7672661, 0xd06016f7, 0x4969474d,
    0x3e6e77db, 0xaed16a4a, 0xd9d65adc, 0x40df0b66, 0x37d83bf0, 0xa9bcae53, 0xdebb9ec5,
    0x47b2cf7f, 0x30b5ffe9, 0xbdbdf21c, 0xcabac28a, 0x53b39330, 0x24b4a3a6, 0xbad03605,
    0xcdd70693, 0x54de5729, 0x23d967bf, 0xb3667a2e, 0xc4614ab8, 0x5d681b02, 0x2a6f2b94,
    0xb40bbe37, 0xc30c8ea1, 0x5a05df1b, 0x2d02ef8d]

/-- One byte of `esup_crc32`. -/
def crc32Step (crc : UInt32) (b : UInt8) : UInt32 :=
  crc32Tab.getD ((crc ^^^ b.toUInt32) &&& 0xFF).toNat 0 ^^^ (crc >>> 8)

/-- `esup_crc32`. -/
def crc32 (bytes : List UInt8) : UInt32 :=
  bytes.foldl crc32Step (0 ^^^ ~~~0) ^^^ ~~~0

/-! ## Encoding and decoding -/

/-- `esup_frame_wire_len`: the padded length of a frame, 0 if it has too many data bytes. -/
def frameWireLen (dataLen : UInt16) : Nat :=
  if dataLen.toNat > dataMax then 0 else alignUpFrame (sizeOverhead + dataLen.toNat)

/-- What the encoder writes before the CRC: magic, fields and data. -/
def Frame.body (f : Frame) : List UInt8 :=
  magic ++ writeU16Le f.moduleId ++ writeU16Le f.dataLen ++ writeU16Le f.cmdStatus ++
    writeU16Le f.command ++ writeU16Le f.type ++ f.data

/-- The bytes of a whole frame. -/
def Frame.wire (f : Frame) : List UInt8 :=
  f.body ++ writeU32Le (crc32 f.body) ++
    List.replicate (frameWireLen f.dataLen - (ofstData + f.data.length + sizeCrc)) 0

/-- `esup_frame_encode` into a buffer of `outCap` bytes. -/
def frameEncode (f : Frame) (outCap : Nat) : Except FrameErr (List UInt8) :=
  if f.dataLen.toNat > dataMax then .error .arg
  else if frameWireLen f.dataLen = 0 then .error .arg
  else if outCap < frameWireLen f.dataLen then .error .capacity
  else .ok f.wire

/-- `esup_frame_decode`. -/
def frameDecode (buf : List UInt8) : Except FrameErr Frame :=
  if buf.length < sizeOverhead then .error .length
  else if !hasMagic buf then .error .magic
  else
    let dataLen := readU16Le buf ofstDataLen
    if dataLen.toNat > dataMax then .error .length
    else if buf.length ≠ frameWireLen dataLen then .error .length
    else
      let crcOff := ofstData + dataLen.toNat
      if crc32 (buf.take crcOff) ≠ readU32Le buf crcOff then .error .crc
      else .ok
        { moduleId := readU16Le buf ofstModuleId
          cmdStatus := readU16Le buf ofstCmdStatus
          command := readU16Le buf ofstCommand
          type := readU16Le buf ofstType
          data := (buf.drop ofstData).take dataLen.toNat
          fits := Nat.lt_of_le_of_lt (List.length_take_le _ _) dataLen.toNat_lt }

/-! ## Field access -/

theorem readU16Le_write (v : UInt16) (ys : List UInt8) : readU16Le (writeU16Le v ++ ys) 0 = v := by
  simp only [readU16Le, writeU16Le, List.cons_append, List.getD_cons_zero, List.getD_cons_succ,
    UInt16.toUInt8_and, UInt16.toUInt8_ofNat, Words.and_ff]
  exact Words.u16_of_bytes v

theorem readU32Le_write (v : UInt32) (ys : List UInt8) : readU32Le (writeU32Le v ++ ys) 0 = v := by
  simp only [readU32Le, writeU32Le, List.cons_append, List.getD_cons_zero, List.getD_cons_succ,
    UInt32.toUInt8_and, UInt32.toUInt8_ofNat, Words.and_ff]
  exact UInt32.toBitVec_inj.1 (Words.or_bytes_32 v.toBitVec)

theorem getD_append_length (xs ys : List UInt8) (k : Nat) :
    (xs ++ ys).getD (xs.length + k) 0 = ys.getD k 0 := by
  rw [List.getD_append_right _ _ _ _ (Nat.le_add_right _ _), Nat.add_sub_cancel_left]

theorem readU16Le_append_length (xs ys : List UInt8) :
    readU16Le (xs ++ ys) xs.length = readU16Le ys 0 := by
  rw [readU16Le, getD_append_length, ← Nat.add_zero xs.length, getD_append_length]
  rfl

theorem readU32Le_append_length (xs ys : List UInt8) :
    readU32Le (xs ++ ys) xs.length = readU32Le ys 0 := by
  simp only [readU32Le, getD_append_length]
  rw [← getD_append_length xs ys 0, Nat.add_zero, Nat.zero_add, Nat.zero_add, Nat.zero_add]

/-- A field that has arrived is not touched by what comes later. -/
theorem readU16Le_append {xs : List UInt8} (ys : List UInt8) {i : Nat} (h : i + 1 < xs.length) :
    readU16Le (xs ++ ys) i = readU16Le xs i := by
  simp only [readU16Le]
  rw [List.getD_append _ _ _ _ h, List.getD_append _ _ _ _ (by omega)]

theorem hasMagic_append {xs : List UInt8} (ys : List UInt8) (h : sizeHeader ≤ xs.length) :
    hasMagic (xs ++ ys) = hasMagic xs := by
  simp only [sizeHeader] at h
  simp only [hasMagic]
  rw [List.getD_append _ _ _ _ (by omega), List.getD_append _ _ _ _ (by omega),
    List.getD_append _ _ _ _ (by omega), List.getD_append _ _ _ _ (by omega)]

/-! ## Lengths -/

theorem Frame.toNat_dataLen (f : Frame) : f.dataLen.toNat = f.data.length := by
  rw [Frame.dataLen, UInt16.toNat_ofNat_of_lt' f.fits]

theorem alignUpFrame_spec (n : Nat) :
    n ≤ alignUpFrame n ∧ alignUpFrame n < n + align ∧ alignUpFrame n % align = 0 := by
  rw [alignUpFrame, align]
  split <;> omega

/-- A frame fits the largest buffer, and holds its overhead and its data. -/
theorem frameWireLen_bounds {n : UInt16} (h : n.toNat ≤ dataMax) :
    sizeOverhead + n.toNat ≤ frameWireLen n ∧ frameWireLen n ≤ frameMax := by
  rw [frameWireLen, if_neg (by omega)]
  have hup := alignUpFrame_spec (sizeOverhead + n.toNat)
  -- the buffer is the first multiple of 16 from 18 + 1472 on
  simp only [sizeOverhead, align, frameMax, dataMax] at *
  omega

theorem frameWireLen_le (n : UInt16) : frameWireLen n ≤ frameMax := by
  by_cases h : n.toNat ≤ dataMax
  · exact (frameWireLen_bounds h).2
  · rw [frameWireLen, if_pos (by omega)]
    exact Nat.zero_le _

theorem Frame.length_body (f : Frame) : f.body.length = ofstData + f.data.length := by
  simp only [body, magic, writeU16Le, List.length_append, List.length_cons, List.length_nil,
    ofstData]

theorem Frame.length_wire (f : Frame) (h : f.data.length ≤ dataMax) :
    f.wire.length = frameWireLen f.dataLen := by
  have hlen := (frameWireLen_bounds (n := f.dataLen) (by rw [f.toNat_dataLen]; exact h)).1
  rw [f.toNat_dataLen] at hlen
  simp only [wire, List.length_append, f.length_body, List.length_replicate, writeU32Le,
    List.length_cons, List.length_nil]
  simp only [sizeOverhead, ofstData, sizeCrc] at *
  omega

/-! ## The round trip -/

/-- The encoder succeeds exactly when the data is not too long and the buffer not too short. -/
theorem frameEncode_eq (f : Frame) (outCap : Nat) :
    frameEncode f outCap =
      if f.data.length > dataMax then .error .arg
      else if outCap < frameWireLen f.dataLen then .error .capacity
      else .ok f.wire := by
  rw [frameEncode, f.toNat_dataLen]
  split
  · rfl
  · rename_i hmax
    have hpos := (frameWireLen_bounds (n := f.dataLen) (by rw [f.toNat_dataLen]; omega)).1
    rw [if_neg (by simp only [sizeOverhead] at hpos; omega)]

theorem frameEncode_inv {f : Frame} {outCap : Nat} {bytes : List UInt8}
    (h : frameEncode f outCap = .ok bytes) : f.data.length ≤ dataMax ∧ bytes = f.wire := by
  rw [frameEncode_eq] at h
  split at h
  · cases h
  split at h
  · cases h
  rename_i hmax _
  cases h
  exact ⟨by omega, rfl⟩

/-- The parts of an encoded frame are where the decoder looks for them. -/
theorem Frame.read_wire (f : Frame) :
    hasMagic f.wire = true ∧ readU16Le f.wire ofstModuleId = f.moduleId ∧
      readU16Le f.wire ofstDataLen = f.dataLen ∧ readU16Le f.wire ofstCmdStatus = f.cmdStatus ∧
      readU16Le f.wire ofstCommand = f.command ∧ readU16Le f.wire ofstType = f.type := by
  have hread : ∀ {v : UInt16} {xs ys : List UInt8} (i : Nat), xs.length = i →
      f.wire = xs ++ (writeU16Le v ++ ys) → readU16Le f.wire i = v := by
    intro v xs ys i hi hwire
    rw [hwire, ← hi, readU16Le_append_length, readU16Le_write]
  obtain ⟨tail, htail⟩ : ∃ tail, f.wire = f.body ++ tail := ⟨_, List.append_assoc _ _ _⟩
  -- one field after the other goes over to the left
  have hmod : f.wire = magic ++ (writeU16Le f.moduleId ++ (writeU16Le f.dataLen ++
      (writeU16Le f.cmdStatus ++ (writeU16Le f.command ++ (writeU16Le f.type ++
        (f.data ++ tail)))))) := by
    rw [htail, body]
    simp only [List.append_assoc]
  have hlen := hmod.trans (List.append_assoc _ _ _).symm
  have hstatus := hlen.trans (List.append_assoc _ _ _).symm
  have hcommand := hstatus.trans (List.append_assoc _ _ _).symm
  have htype := hcommand.trans (List.append_assoc _ _ _).symm
  exact ⟨rfl, hread ofstModuleId rfl hmod, hread ofstDataLen rfl hlen,
    hread ofstCmdStatus rfl hstatus, hread ofstCommand rfl hcommand, hread ofstType rfl htype⟩

theorem Frame.data_wire (f : Frame) : (f.wire.drop ofstData).take f.data.length = f.data := by
  have hdrop : f.wire.drop ofstData = f.data ++ (writeU32Le (crc32 f.body) ++
      List.replicate (frameWireLen f.dataLen - (ofstData + f.data.length + sizeCrc)) 0) :=
    List.append_assoc _ _ _
  rw [hdrop, List.take_left' rfl]

theorem Frame.crc_wire (f : Frame) :
    crc32 (f.wire.take (ofstData + f.data.length)) =
      readU32Le f.wire (ofstData + f.data.length) := by
  rw [wire, List.append_assoc, ← f.length_body, List.take_left' rfl, readU32Le_append_length,
    readU32Le_write]

/-- **Round trip**: what is encoded is decoded to the same frame. -/
theorem frameDecode_wire (f : Frame) (h : f.data.length ≤ dataMax) :
    frameDecode f.wire = .ok f := by
  have hmax : f.dataLen.toNat ≤ dataMax := by rw [f.toNat_dataLen]; exact h
  have hlen := f.length_wire h
  have hlow := (frameWireLen_bounds hmax).1
  obtain ⟨hm, hmod, hdl, hst, hcmd, hty⟩ := f.read_wire
  rw [frameDecode, if_neg (by omega), hm, Bool.not_true, if_neg Bool.false_ne_true]
  simp only [hdl, f.toNat_dataLen, hmod, hst, hcmd, hty, f.data_wire]
  rw [if_neg (by omega), if_neg (by simpa using hlen), if_neg (by simpa using f.crc_wire)]

/-- What the decoder accepts has the length its header announces. -/
theorem frameDecode_inv {buf : List UInt8} {f : Frame} (h : frameDecode buf = .ok f) :
    hasMagic buf = true ∧ readU16Le buf ofstDataLen = f.dataLen ∧
      buf.length = frameWireLen f.dataLen ∧ f.data.length ≤ dataMax := by
  rw [frameDecode] at h
  split at h
  · cases h
  split at h
  · cases h
  rename_i hover hmagic
  dsimp only at h
  split at h
  · cases h
  split at h
  · cases h
  rename_i hmax hwire
  split at h
  · cases h
  cases h
  have hlow := (frameWireLen_bounds (n := readU16Le buf ofstDataLen) (by omega)).1
  have hdata : ((buf.drop ofstData).take (readU16Le buf ofstDataLen).toNat).length =
      (readU16Le buf ofstDataLen).toNat := by
    rw [List.length_take, List.length_drop]
    simp only [sizeOverhead, ofstData] at *
    omega
  rw [Frame.dataLen, hdata, UInt16.ofNat_toNat]
  exact ⟨by simpa using hmagic, rfl, by omega, by omega⟩

end Esup
end FlightApps
