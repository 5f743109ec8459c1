import FlightApps.Lib.Buffer
import FlightApps.Esup.Codec

/-!
# The codec in its buffers

`frameEncode` and `frameDecode` say which bytes the codec produces and accepts.  Here the two
functions are written a second time the way `esup_framer.c` has them, as reads and writes at the
offsets of a frame in the caller's buffer, each of which must lie inside it: `encodeInto` fills the
buffer field by field, `decodeIn` picks the fields out.  `encodeInto_eq` and `decodeIn_eq` say that
both stay inside their buffers and do what the list functions do.

The other half of the round trip is that the decoder accepts nothing but encodings: each field that
is read pins the bytes it is read from, so what is accepted is an encoding up to the padding.
-/

set_option autoImplicit false

namespace FlightApps
namespace Esup

/-! ## Access to the buffers -/

/-- `ESUP_OFST_HEADER`. -/
def ofstHeader : Nat := 0

def loadU16Le (buf : List UInt8) (i : Nat) : Option UInt16 :=
  (Buffer.load buf i 2).map (readU16Le · 0)

def loadU32Le (buf : List UInt8) (i : Nat) : Option UInt32 :=
  (Buffer.load buf i 4).map (readU32Le · 0)

/-- The writes of `esup_frame_encode`. -/
def fillFrame (f : Frame) (out : List UInt8) (wireLen : Nat) : Option (List UInt8) := do
  let out ← Buffer.store out ofstHeader magic
  let out ← Buffer.store out ofstModuleId (writeU16Le f.moduleId)
  let out ← Buffer.store out ofstDataLen (writeU16Le f.dataLen)
  let out ← Buffer.store out ofstCmdStatus (writeU16Le f.cmdStatus)
  let out ← Buffer.store out ofstCommand (writeU16Le f.command)
  let out ← Buffer.store out ofstType (writeU16Le f.type)
  let out ← Buffer.storeIf (f.dataLen.toNat > 0) out ofstData f.data
  let crcOff := ofstData + f.dataLen.toNat
  let covered ← Buffer.load out 0 crcOff
  let out ← Buffer.store out crcOff (writeU32Le (crc32 covered))
  let paddingOff := crcOff + sizeCrc
  Buffer.storeIf (paddingOff < wireLen) out paddingOff (List.replicate (wireLen - paddingOff) 0)

/-- `esup_frame_encode` into the buffer `out`: the buffer after it and `out_len`. -/
def encodeInto (f : Frame) (out : List UInt8) : Option (Except FrameErr (List UInt8 × Nat)) :=
  let wireLen := frameWireLen f.dataLen
  if f.dataLen.toNat > dataMax then some (.error .arg)
  else if wireLen = 0 then some (.error .arg)
  else if out.length < wireLen then some (.error .capacity)
  else (fillFrame f out wireLen).map fun out => .ok (out, wireLen)

/-- `esup_frame_decode` of the buffer `buf`. -/
def decodeIn (buf : List UInt8) : Option (Except FrameErr Frame) :=
  if buf.length < sizeOverhead then some (.error .length)
  else do
    let header ← Buffer.load buf ofstHeader sizeHeader
    if !hasMagic header then some (.error .magic)
    else
      let dataLen ← loadU16Le buf ofstDataLen
      if dataLen.toNat > dataMax then some (.error .length)
      else if buf.length ≠ frameWireLen dataLen then some (.error .length)
      else
        let crcOff := ofstData + dataLen.toNat
        let covered ← Buffer.load buf 0 crcOff
        let stored ← loadU32Le buf crcOff
        if crc32 covered ≠ stored then some (.error .crc)
        else
          let moduleId ← loadU16Le buf ofstModuleId
          let cmdStatus ← loadU16Le buf ofstCmdStatus
          let command ← loadU16Le buf ofstCommand
          let type ← loadU16Le buf ofstType
          let data ← Buffer.load buf ofstData dataLen.toNat
          if fits : data.length < UInt16.size then
            some (.ok ⟨moduleId, cmdStatus, command, type, data, fits⟩)
          else none

/-! ## Reading -/

theorem getD_window {buf : List UInt8} {i n k : Nat} (h : k < n) :
    ((buf.drop i).take n).getD k 0 = buf.getD (i + k) 0 := by
  rw [List.getD_eq_getElem?_getD, List.getElem?_take_of_lt h, List.getElem?_drop,
    List.getD_eq_getElem?_getD]

theorem loadU16Le_eq {buf : List UInt8} {i : Nat} (h : i + 2 ≤ buf.length) :
    loadU16Le buf i = some (readU16Le buf i) := by
  rw [loadU16Le, Buffer.load_eq h, Option.map_some, readU16Le, readU16Le,
    getD_window (by omega), getD_window (by omega)]
  rfl

theorem loadU32Le_eq {buf : List UInt8} {i : Nat} (h : i + 4 ≤ buf.length) :
    loadU32Le buf i = some (readU32Le buf i) := by
  rw [loadU32Le, Buffer.load_eq h, Option.map_some, readU32Le, readU32Le,
    getD_window (by omega), getD_window (by omega), getD_window (by omega), getD_window (by omega)]
  rfl

theorem hasMagic_header (buf : List UInt8) :
    hasMagic ((buf.drop ofstHeader).take sizeHeader) = hasMagic buf := by
  rw [hasMagic, hasMagic, getD_window (by decide), getD_window (by decide),
    getD_window (by decide), getD_window (by decide)]
  rfl

/-- **The decoder stays inside its buffer.** -/
theorem decodeIn_eq (buf : List UInt8) : decodeIn buf = some (frameDecode buf) := by
  rw [decodeIn, frameDecode]
  split
  · rfl
  rename_i hover
  simp only [sizeOverhead] at hover
  have hheader : Buffer.load buf ofstHeader sizeHeader =
      some ((buf.drop ofstHeader).take sizeHeader) :=
    Buffer.load_eq (by simp only [ofstHeader, sizeHeader]; omega)
  have hlen : loadU16Le buf ofstDataLen = some (readU16Le buf ofstDataLen) :=
    loadU16Le_eq (by simp only [ofstDataLen]; omega)
  rw [hheader, Option.bind_eq_bind, Option.bind_some, hasMagic_header]
  split
  · rfl
  rw [hlen, Option.bind_eq_bind, Option.bind_some]
  dsimp only
  split
  · rfl
  split
  · rfl
  rename_i hmax hwire
  rw [not_not] at hwire
  have hlow := (frameWireLen_bounds (n := readU16Le buf ofstDataLen) (by omega)).1
  rw [← hwire] at hlow
  simp only [sizeOverhead] at hlow
  have hcovered : Buffer.load buf 0 (ofstData + (readU16Le buf ofstDataLen).toNat) =
      some (buf.take (ofstData + (readU16Le buf ofstDataLen).toNat)) :=
    Buffer.load_eq (by simp only [ofstData]; omega)
  have hcrc : loadU32Le buf (ofstData + (readU16Le buf ofstDataLen).toNat) =
      some (readU32Le buf (ofstData + (readU16Le buf ofstDataLen).toNat)) :=
    loadU32Le_eq (by simp only [ofstData]; omega)
  rw [hcovered, Option.bind_eq_bind, Option.bind_some, hcrc, Option.bind_some]
  split
  · rfl
  have hword : ∀ i, i + 2 ≤ ofstData → loadU16Le buf i = some (readU16Le buf i) := by
    intro i hi
    exact loadU16Le_eq (by rw [ofstData] at hi; omega)
  have hdata : Buffer.load buf ofstData (readU16Le buf ofstDataLen).toNat =
      some ((buf.drop ofstData).take (readU16Le buf ofstDataLen).toNat) :=
    Buffer.load_eq (by simp only [ofstData]; omega)
  rw [hword ofstModuleId (by decide), Option.bind_some, hword ofstCmdStatus (by decide),
    Option.bind_some, hword ofstCommand (by decide), Option.bind_some,
    hword ofstType (by decide), Option.bind_some, hdata, Option.bind_some]
  rw [dif_pos]

/-! ## Writing -/

theorem fillFrame_eq (f : Frame) (hmax : f.data.length ≤ dataMax) {out : List UInt8}
    (hcap : frameWireLen f.dataLen ≤ out.length) :
    fillFrame f out (frameWireLen f.dataLen) = some (f.wire ++ out.drop f.wire.length) := by
  have hlen := (frameWireLen_bounds (n := f.dataLen) (by rw [f.toNat_dataLen]; exact hmax)).1
  rw [f.toNat_dataLen, sizeOverhead] at hlen
  have hbody := f.length_body
  rw [ofstData] at hbody
  have hw32 : ∀ v, (writeU32Le v).length = 4 := fun _ => rfl
  have hroom : ∀ n, n ≤ 14 → n ≤ out.length := fun n hn => by omega
  -- every write starts where the one before it has ended
  refine Buffer.bind_store_front (w := []) rfl (hroom 4 (by decide)) ?_
  refine Buffer.bind_store_front rfl (hroom 6 (by decide)) ?_
  refine Buffer.bind_store_front rfl (hroom 8 (by decide)) ?_
  refine Buffer.bind_store_front rfl (hroom 10 (by decide)) ?_
  refine Buffer.bind_store_front rfl (hroom 12 (by decide)) ?_
  refine Buffer.bind_store_front rfl (hroom 14 (by decide)) ?_
  refine Buffer.bind_storeIf_front (fun hempty => ?_) rfl ?_ ?_
  · rw [f.toNat_dataLen] at hempty
    exact List.length_eq_zero_iff.1 (by omega)
  · have hw : f.body.length ≤ out.length := by omega
    rw [Frame.body, List.length_append] at hw
    exact hw
  have hcrcOff : ofstData + f.dataLen.toNat = f.body.length := by
    rw [f.toNat_dataLen, f.length_body]
  have hcovered : Buffer.load (f.body ++ out.drop f.body.length) 0 (ofstData + f.dataLen.toNat) =
      some f.body := by
    rw [hcrcOff]
    exact Buffer.load_front f.body out
  refine (congrArg (Option.bind · _) hcovered).trans ?_
  refine Buffer.bind_store_front (w := f.body) hcrcOff (by rw [hw32]; omega) ?_
  have hpad : ofstData + f.dataLen.toNat + sizeCrc =
      (f.body ++ writeU32Le (crc32 f.body)).length := by
    rw [hcrcOff, List.length_append, hw32, sizeCrc]
  have hwire : f.wire = f.body ++ writeU32Le (crc32 f.body) ++ List.replicate
      (frameWireLen f.dataLen - (ofstData + f.dataLen.toNat + sizeCrc)) 0 := by
    rw [Frame.wire, f.toNat_dataLen]
  have hlast := f.length_wire hmax
  rw [hwire, List.length_append] at hlast
  rw [hwire]
  refine Buffer.storeIf_front _ (fun hfull => ?_) hpad (by omega)
  rw [Nat.sub_eq_zero_of_le (by omega), List.replicate_zero]

/-- **The encoder stays inside its buffer**: it fills the front of it with the frame and leaves the
rest alone. -/
theorem encodeInto_eq (f : Frame) (out : List UInt8) :
    encodeInto f out =
      some ((frameEncode f out.length).map fun w => (w ++ out.drop w.length, w.length)) := by
  rw [encodeInto, frameEncode]
  split
  · rfl
  split
  · rfl
  split
  · rfl
  rename_i hmax hpos hcap
  rw [f.toNat_dataLen] at hmax
  rw [fillFrame_eq f (by omega) (by omega), Option.map_some, f.length_wire (by omega)]
  simp only [Except.map, f.length_wire (by omega : f.data.length ≤ dataMax)]

/-! ## What is accepted is an encoding -/

theorem writeU16Le_or (a b : UInt8) : writeU16Le (a.toUInt16 ||| (b.toUInt16 <<< 8)) = [a, b] := by
  simp only [writeU16Le, UInt16.toUInt8_and, UInt16.toUInt8_ofNat, Words.and_ff]
  rw [Words.u16_lo, Words.u16_hi]

theorem writeU32Le_or (a b c d : UInt8) :
    writeU32Le (a.toUInt32 ||| (b.toUInt32 <<< 8) ||| (c.toUInt32 <<< 16) |||
      (d.toUInt32 <<< 24)) = [a, b, c, d] := by
  obtain ⟨ha, hb, hc, hd⟩ := Words.or_bytes_32_parts a.toBitVec b.toBitVec c.toBitVec d.toBitVec
  simp only [writeU32Le, UInt32.toUInt8_and, UInt32.toUInt8_ofNat, Words.and_ff]
  refine congrArg₂ List.cons (UInt8.toBitVec_inj.1 ha) ?_
  refine congrArg₂ List.cons (UInt8.toBitVec_inj.1 hb) ?_
  exact congrArg₂ (fun x y => [x, y]) (UInt8.toBitVec_inj.1 hc) (UInt8.toBitVec_inj.1 hd)

/-- The bytes of a range, one by one. -/
theorem window_eq_map {buf : List UInt8} {i n : Nat} (h : i + n ≤ buf.length) :
    (buf.drop i).take n = (List.range n).map fun k => buf.getD (i + k) 0 := by
  refine List.ext_getElem (by simp; omega) fun k hk hk' => ?_
  rw [List.getElem_map, List.getElem_range, ← getD_window (by simpa using hk')]
  exact (List.getD_eq_getElem _ 0 hk).symm

/-- A field that was read pins its bytes. -/
theorem writeU16Le_read {buf : List UInt8} {i : Nat} (h : i + 2 ≤ buf.length) :
    writeU16Le (readU16Le buf i) = (buf.drop i).take 2 := by
  rw [readU16Le, writeU16Le_or, window_eq_map h]
  rfl

theorem writeU32Le_read {buf : List UInt8} {i : Nat} (h : i + 4 ≤ buf.length) :
    writeU32Le (readU32Le buf i) = (buf.drop i).take 4 := by
  rw [readU32Le, writeU32Le_or, window_eq_map h]
  rfl

theorem magic_of_hasMagic {buf : List UInt8} (h : ofstHeader + sizeHeader ≤ buf.length)
    (hm : hasMagic buf = true) : magic = (buf.drop ofstHeader).take sizeHeader := by
  rw [window_eq_map h]
  simp only [hasMagic, Bool.and_eq_true, beq_iff_eq] at hm
  obtain ⟨⟨⟨h0, h1⟩, h2⟩, h3⟩ := hm
  have hbytes : (List.range sizeHeader).map (fun k => buf.getD (ofstHeader + k) 0) =
      [buf.getD 0 0, buf.getD 1 0, buf.getD 2 0, buf.getD 3 0] := rfl
  rw [hbytes, h0, h1, h2, h3, magic]

/-- What the decoder returns is what it has read. -/
theorem frameDecode_fields {buf : List UInt8} {f : Frame} (h : frameDecode buf = .ok f) :
    f.moduleId = readU16Le buf ofstModuleId ∧ f.cmdStatus = readU16Le buf ofstCmdStatus ∧
      f.command = readU16Le buf ofstCommand ∧ f.type = readU16Le buf ofstType ∧
      f.data = (buf.drop ofstData).take f.dataLen.toNat ∧
      crc32 (buf.take (ofstData + f.dataLen.toNat)) =
        readU32Le buf (ofstData + f.dataLen.toNat) := by
  have hlen := (frameDecode_inv h).2.1
  rw [frameDecode] at h
  split at h
  · cases h
  split at h
  · cases h
  dsimp only at h
  split at h
  · cases h
  split at h
  · cases h
  split at h
  · cases h
  rename_i hcrc
  rw [not_not] at hcrc
  rw [← hlen]
  cases h
  exact ⟨rfl, rfl, rfl, rfl, rfl, hcrc⟩

/-- **What is accepted is an encoding**, up to the padding. -/
theorem take_of_frameDecode {buf : List UInt8} {f : Frame} (h : frameDecode buf = .ok f) :
    f.body ++ writeU32Le (crc32 f.body) = buf.take (ofstData + f.data.length + sizeCrc) := by
  obtain ⟨hmagic, hdl, hlen, hmax⟩ := frameDecode_inv h
  obtain ⟨hmod, hst, hcmd, hty, hdata, hcrc⟩ := frameDecode_fields h
  have hlow := (frameWireLen_bounds (n := f.dataLen) (by rw [f.toNat_dataLen]; exact hmax)).1
  rw [f.toNat_dataLen, ← hlen, sizeOverhead] at hlow
  rw [f.toNat_dataLen] at hdata hcrc
  have hbody : f.body = buf.take (ofstData + f.data.length) := by
    rw [Frame.body, hmod, hst, hcmd, hty, ← hdl,
      magic_of_hasMagic (by simp only [ofstHeader, sizeHeader]; omega) hmagic,
      writeU16Le_read (by simp only [ofstModuleId]; omega),
      writeU16Le_read (by simp only [ofstDataLen]; omega),
      writeU16Le_read (by simp only [ofstCmdStatus]; omega),
      writeU16Le_read (by simp only [ofstCommand]; omega),
      writeU16Le_read (by simp only [ofstType]; omega), List.take_add, ← hdata]
    -- the fields lie one after the other
    simp only [ofstHeader, sizeHeader, ofstModuleId, ofstDataLen, ofstCmdStatus, ofstCommand,
      ofstType, ofstData, List.drop_zero, ← List.take_add]
  rw [hbody, hcrc, writeU32Le_read (by simp only [ofstData]; omega), ← List.take_add]
  rfl

/-! ## The round trip -/

/-- **Codec round trip.**  A frame whose data is not too long is encoded into every buffer that
holds its wire length: exactly that many bytes are written at the front, a multiple of the alignment
and at most `ESUP_FRAME_MAX`, and they are decoded to the same frame.  What is accepted by the
decoder is encoded to the same bytes, as many and the same up to the end of the CRC.  And the
decoder stays inside its buffer on every input. -/
theorem codec_round_trip :
    (∀ (f : Frame) (out : List UInt8), f.data.length ≤ dataMax →
      frameWireLen f.dataLen ≤ out.length →
      ∃ w, encodeInto f out = some (.ok (w ++ out.drop w.length, w.length)) ∧
        w.length = frameWireLen f.dataLen ∧ w.length % align = 0 ∧ w.length ≤ frameMax ∧
        decodeIn w = some (.ok f)) ∧
    (∀ (buf : List UInt8) (f : Frame), decodeIn buf = some (.ok f) →
      ∀ out : List UInt8, buf.length ≤ out.length →
      ∃ w, encodeInto f out = some (.ok (w ++ out.drop w.length, w.length)) ∧
        w.length = buf.length ∧
        w.take (ofstData + f.data.length + sizeCrc) =
          buf.take (ofstData + f.data.length + sizeCrc)) ∧
    ∀ buf, (decodeIn buf).isSome = true := by
  have hencode : ∀ (f : Frame) (out : List UInt8), f.data.length ≤ dataMax →
      frameWireLen f.dataLen ≤ out.length →
      encodeInto f out = some (.ok (f.wire ++ out.drop f.wire.length, f.wire.length)) := by
    intro f out hmax hcap
    rw [encodeInto_eq, frameEncode_eq, if_neg (by omega), if_neg (by omega)]
    rfl
  refine ⟨fun f out hmax hcap => ?_, fun buf f h out hcap => ?_, fun buf => ?_⟩
  · have hlen := f.length_wire hmax
    refine ⟨f.wire, hencode f out hmax hcap, hlen, ?_, ?_, ?_⟩
    · rw [hlen, frameWireLen, f.toNat_dataLen, if_neg (by omega)]
      exact (alignUpFrame_spec _).2.2
    · rw [hlen]
      exact frameWireLen_le f.dataLen
    · rw [decodeIn_eq, frameDecode_wire f hmax]
  · rw [decodeIn_eq, Option.some_inj] at h
    obtain ⟨-, -, hlen, hmax⟩ := frameDecode_inv h
    refine ⟨f.wire, hencode f out hmax (by omega), by rw [f.length_wire hmax, hlen], ?_⟩
    have hend : ofstData + f.data.length + sizeCrc =
        (f.body ++ writeU32Le (crc32 f.body)).length := by
      rw [List.length_append, f.length_body]
      rfl
    rw [← take_of_frameDecode h, Frame.wire, hend, List.take_left' rfl]
  · rw [decodeIn_eq]
    rfl

end Esup
end FlightApps
