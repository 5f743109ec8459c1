import FlightApps.Ltrx.Wire

/-!
# What is accepted from the line

`receiveCommand` stays inside its buffers, and what it makes of a datagram depends on nothing but
the datagram (`decode`): `receiveCommand_delivered` is the refinement, and `receiveCommand_missed`
says what happens when nothing is delivered.  `receiveMessagePart` goes on in the same way.

`serialise_eq` says that what is sent is the header followed by the payload, as long as it fits; so
what is sent is what is received (`decode_sent`).
-/

set_option autoImplicit false

namespace FlightApps
namespace Ltrx

/-! ## What is delivered -/

/-- A datagram arrives on the port of the socket, and the buffer holds it. -/
structure Delivered (listening : Bool) (arrival : Option Arrival) (d : List UInt8) : Prop where
  listening : listening = true
  arrival : arrival = some ⟨some d, cspRxPort⟩
  nonempty : 0 < d.length
  fits : d.length ≤ bufSize

/-- What is left in the buffer by what arrives, delivered or not. -/
def leftover (listening : Bool) (arrival : Option Arrival) (rxBuf : List UInt8) : List UInt8 :=
  match transportRx listening arrival rxBuf (-1) with
  | some (_, buf) => buf
  | none => rxBuf

section Transport

variable {listening : Bool} {arrival : Option Arrival} {rxBuf d : List UInt8}

theorem store_zero {buf xs : List UInt8} (h : xs.length ≤ buf.length) :
    Buffer.store buf 0 xs = some (xs ++ buf.drop xs.length) := by
  rw [Buffer.store, Nat.zero_add, if_pos h, List.take_zero, List.nil_append]

theorem transportRx_delivered (h : Delivered listening arrival d) (hbuf : rxBuf.length = bufSize) :
    transportRx listening arrival rxBuf (-1) =
      some ((d.length : Int), d ++ rxBuf.drop d.length) := by
  obtain ⟨rfl, rfl, hpos, hfits⟩ := h
  have hskip : ¬((-1 : Int) = 0 ∨ true = false) := by decide
  have hsize : ¬(d.length = 0 ∨ (if (-1 : Int) < 0 then (bufSize : Int) else -1) < d.length) := by
    rw [if_pos (by decide)]
    omega
  rw [transportRx, if_neg hskip]
  show (if d.length = 0 ∨ (if (-1 : Int) < 0 then (bufSize : Int) else -1) < d.length then _
    else _) = _
  rw [if_neg hsize, store_zero (by omega)]
  rfl

/-- Nothing is delivered: the transport reports an error, and the buffer keeps its size. -/
theorem transportRx_missed (h : ∀ d, ¬Delivered listening arrival d)
    (hbuf : rxBuf.length = bufSize) :
    ∃ buf, transportRx listening arrival rxBuf (-1) = some (-1, buf) ∧ buf.length = bufSize := by
  rw [transportRx]
  split
  · exact ⟨rxBuf, rfl, hbuf⟩
  rename_i hlisten
  have hlisten : listening = true := by
    cases listening with
    | true => rfl
    | false => exact absurd (Or.inr rfl) hlisten
  have hread : (if (-1 : Int) < 0 then (bufSize : Int) else -1) = bufSize := if_pos (by decide)
  simp only [hread]
  split
  · exact ⟨rxBuf, rfl, hbuf⟩
  · exact ⟨rxBuf, rfl, hbuf⟩
  rename_i data dport
  split
  · exact ⟨rxBuf, rfl, hbuf⟩
  rename_i hsize
  rw [store_zero (by omega), Option.bind_eq_bind, Option.bind_some]
  have hlen : (data ++ rxBuf.drop data.length).length = bufSize := by
    rw [List.length_append, List.length_drop]
    omega
  by_cases hport : dport = cspRxPort
  · subst hport
    exact absurd ⟨hlisten, rfl, by omega, by omega⟩ (h data)
  · rw [if_pos hport]
    exact ⟨_, rfl, hlen⟩

end Transport

/-! ## Decoding -/

/-- The payload of a datagram with a header. -/
def body (d : List UInt8) (header : BeaconCmdHeader) : List UInt8 :=
  (d.drop beaconHeaderSize).take header.length.toNat

/-- What becomes of a datagram, as far as the caller sees. -/
def decode (maxPayloadLength : UInt16) (d : List UInt8) (v : Rx) : ReturnCode × Rx :=
  if d.length < beaconHeaderSize then (.length, v)
  else
    let header := cmdHeaderLayout.read d
    let v := { v with header := header }
    if maxPayloadLength < header.length then (.length, v)
    else if d.length < beaconHeaderSize + header.length.toNat then (.length, v)
    else if header.length ≠ 0 ∧ calculateCRC32 (body d header) ≠ header.crc then (.crc, v)
    else
      (.success, { v with
        payload := body d header ++ v.payload.drop header.length.toNat
        actual := header.length })

section Decode

variable {listening : Bool} {arrival : Option Arrival} {maxPayloadLength : UInt16} {v : Rx}
  {d : List UInt8}

theorem full_cmdHeader : cmdHeaderLayout.Full :=
  .iso (.prod Layout.full_u8 (.prod Layout.full_u8 (.prod Layout.full_u8
    (.prod Layout.full_u16 Layout.full_u32)))) fun _ => rfl

theorem full_partHeader : partHeaderLayout.Full :=
  .iso (.prod Layout.full_u32 (.prod Layout.full_u16 (.prod Layout.full_u16 Layout.full_u32)))
    fun _ => rfl

/-- **Receiving is decoding**, whatever was in the buffer before. -/
theorem receiveCommand_delivered (h : Delivered listening arrival d)
    (hbuf : v.rxBuf.length = bufSize) (hmax : maxPayloadLength.toNat ≤ v.payload.length)
    (hwrap : beaconHeaderSize + maxPayloadLength.toNat < 65536) :
    receiveCommand listening arrival maxPayloadLength v =
      some ((decode maxPayloadLength d v).1,
        { (decode maxPayloadLength d v).2 with rxBuf := d ++ v.rxBuf.drop d.length }) := by
  have hfits : d.length ≤ 261 := h.fits
  have hlen : (UInt16.ofNat (d.length : Int).toNat).toNat = d.length := by
    rw [Int.toNat_natCast, UInt16.toNat_ofNat', Nat.mod_eq_of_lt (by omega)]
  have hwhole : (d ++ v.rxBuf.drop d.length).length = bufSize := by
    rw [List.length_append, List.length_drop, hbuf]
    exact Nat.add_sub_cancel' h.fits
  rw [receiveCommand, transportRx_delivered h hbuf, Option.bind_eq_bind, Option.bind_some]
  dsimp only
  rw [if_neg (by omega), if_neg (by omega), hlen, decode]
  split
  · rfl
  rename_i hshort
  have hhead : Buffer.load (d ++ v.rxBuf.drop d.length) 0 beaconHeaderSize =
      some (d.take beaconHeaderSize) := by
    rw [Buffer.load_eq (by rw [hwhole]; decide), List.drop_zero,
      List.take_append_of_le_length (by omega)]
  have hread : cmdHeaderLayout.read (d.take beaconHeaderSize) = cmdHeaderLayout.read d := by
    conv_rhs => rw [← List.take_append_drop beaconHeaderSize d]
    refine (full_cmdHeader.read_append ?_ _).symm
    rw [List.length_take_of_le (by omega)]
    exact Nat.le_refl 9
  rw [hhead, Option.bind_eq_bind, Option.bind_some, hread]
  generalize cmdHeaderLayout.read d = header
  dsimp only
  split
  · rfl
  rename_i hfit
  have hfit : header.length.toNat ≤ maxPayloadLength.toNat := Nat.le_of_not_lt hfit
  have hsum : (UInt16.ofNat (beaconHeaderSize + header.length.toNat)).toNat =
      beaconHeaderSize + header.length.toNat := by
    rw [UInt16.toNat_ofNat', Nat.mod_eq_of_lt (by omega)]
  have hincomplete : UInt16.ofNat (beaconHeaderSize + header.length.toNat) >
      UInt16.ofNat (d.length : Int).toNat ↔ d.length < beaconHeaderSize + header.length.toNat := by
    rw [gt_iff_lt, UInt16.lt_iff_toNat_lt, hlen, hsum]
  rw [if_congr hincomplete rfl rfl]
  split
  · rfl
  rename_i hcomplete
  have hbody : Buffer.load (d ++ v.rxBuf.drop d.length) beaconHeaderSize header.length.toNat =
      some (body d header) := by
    rw [Buffer.load_eq (by rw [hwhole]; show _ ≤ 261; omega),
      List.drop_append_of_le_length (by omega), List.take_append_of_le_length]
    · rfl
    · rw [List.length_drop]
      omega
  have hsize : (body d header).length = header.length.toNat := by
    rw [body, List.length_take, List.length_drop]
    omega
  by_cases hzero : header.length = 0
  · have hnot : ¬(header.length ≠ 0 ∧ calculateCRC32 (body d header) ≠ header.crc) :=
      fun hand => hand.1 hzero
    have hempty : body d header = [] := by
      rw [← List.length_eq_zero_iff, hsize, hzero]
      rfl
    rw [if_neg (by rw [hzero]; decide), if_neg hnot, hempty, hzero]
    rfl
  · have hpos : header.length > 0 := by
      rw [gt_iff_lt, UInt16.lt_iff_toNat_lt]
      exact Nat.pos_of_ne_zero fun hnat => hzero (UInt16.toNat_inj.1 hnat)
    have hverify : verifyCRC32 (body d header) header.crc ≠ .success ↔
        calculateCRC32 (body d header) ≠ header.crc := by
      rw [verifyCRC32]
      split
      · rename_i hne
        exact ⟨fun _ => hne, fun _ => by decide⟩
      · rename_i heq
        exact ⟨fun hne => absurd rfl hne, fun hne => absurd hne heq⟩
    have hand : (header.length ≠ 0 ∧ calculateCRC32 (body d header) ≠ header.crc) ↔
        calculateCRC32 (body d header) ≠ header.crc := and_iff_right hzero
    rw [if_pos hpos, hbody, Option.bind_some, if_congr hverify rfl rfl,
      if_congr hand rfl rfl]
    split
    · rfl
    · rw [store_zero (by omega), hsize]
      rfl

theorem receiveCommand_missed (h : ∀ d, ¬Delivered listening arrival d)
    (hbuf : v.rxBuf.length = bufSize) :
    ∃ buf, receiveCommand listening arrival maxPayloadLength v =
      some (.timeout, { v with rxBuf := buf }) ∧ buf.length = bufSize := by
  obtain ⟨buf, hrx, hlen⟩ := transportRx_missed h hbuf
  refine ⟨buf, ?_, hlen⟩
  rw [receiveCommand, hrx]
  rfl

/-- What is accepted: the datagram holds the payload, and the payload has the CRC. -/
structure Accepted (maxPayloadLength : UInt16) (d : List UInt8) (header : BeaconCmdHeader) :
    Prop where
  reads : header = cmdHeaderLayout.read d
  whole : beaconHeaderSize + header.length.toNat ≤ d.length
  fits : header.length ≤ maxPayloadLength
  crc : header.length ≠ 0 → calculateCRC32 (body d header) = header.crc

theorem decode_success (h : (decode maxPayloadLength d v).1 = .success) :
    Accepted maxPayloadLength d (cmdHeaderLayout.read d) ∧
      (decode maxPayloadLength d v).2 =
        { v with
          header := cmdHeaderLayout.read d
          payload := body d (cmdHeaderLayout.read d) ++
            v.payload.drop (cmdHeaderLayout.read d).length.toNat
          actual := (cmdHeaderLayout.read d).length } := by
  rw [decode] at h ⊢
  split at h
  · exact absurd h ReturnCode.noConfusion
  rename_i hshort
  rw [if_neg hshort]
  dsimp only at h ⊢
  split at h
  · exact absurd h ReturnCode.noConfusion
  rename_i hfit
  rw [if_neg hfit]
  split at h
  · exact absurd h ReturnCode.noConfusion
  rename_i hwhole
  rw [if_neg hwhole]
  split at h
  · exact absurd h ReturnCode.noConfusion
  rename_i hcrc
  rw [if_neg hcrc]
  refine ⟨⟨rfl, Nat.le_of_not_lt hwhole, UInt16.not_lt.1 hfit, fun hne => ?_⟩, rfl⟩
  exact Decidable.not_not.1 fun hcrc' => hcrc ⟨hne, hcrc'⟩

theorem decode_failed (h : (decode maxPayloadLength d v).1 ≠ .success) :
    (decode maxPayloadLength d v).2.actual = v.actual := by
  rw [decode] at h ⊢
  split
  · rfl
  rename_i hshort
  rw [if_neg hshort] at h
  dsimp only at h ⊢
  split
  · rfl
  rename_i hfit
  rw [if_neg hfit] at h
  split
  · rfl
  rename_i hwhole
  rw [if_neg hwhole] at h
  split
  · rfl
  rename_i hcrc
  rw [if_neg hcrc] at h
  exact absurd rfl h

theorem length_body {header : BeaconCmdHeader} (h : Accepted maxPayloadLength d header) :
    (body d header).length = header.length.toNat := by
  have hwhole := h.whole
  rw [body, List.length_take, List.length_drop]
  omega

end Decode

/-! ## Sending -/

section Sending

variable {header : BeaconCmdHeader} {payload txBuf : List UInt8}

/-- **What is sent** is the header followed by the payload. -/
theorem serialise_eq (header : BeaconCmdHeader)
    (hfits : payload.length ≤ partHeaderLayout.size + maxMessagePartSize)
    (hbuf : txBuf.length = bufSize) :
    serialise header payload txBuf = some (cmdHeaderLayout.bytes header ++ payload) := by
  have hfits : payload.length ≤ 252 := hfits
  have hbuf : txBuf.length = 261 := hbuf
  have hhead : (cmdHeaderLayout.bytes header).length = beaconHeaderSize :=
    cmdHeaderLayout.length_bytes header
  have htotal : (UInt16.ofNat (beaconHeaderSize + payload.length)).toNat =
      (cmdHeaderLayout.bytes header ++ payload).length := by
    rw [UInt16.toNat_ofNat', List.length_append, hhead, Nat.mod_eq_of_lt]
    show 9 + payload.length < 65536
    omega
  have hstart : (cmdHeaderLayout.bytes header).length ≤ txBuf.length := by
    rw [hhead, hbuf]
    decide
  have hroom : (cmdHeaderLayout.bytes header).length + payload.length ≤ txBuf.length := by
    rw [hhead, hbuf]
    show 9 + payload.length ≤ 261
    omega
  rw [serialise, store_zero hstart, Option.bind_eq_bind, Option.bind_some,
    Buffer.bind_storeIf_front _ hhead.symm hroom rfl]
  · dsimp only
    rw [htotal, Buffer.load_front]
  · intro hempty
    exact List.length_eq_zero_iff.1 (Nat.eq_zero_of_not_pos hempty)

/-- **What is sent is what is received.** -/
theorem decode_sent {maxPayloadLength : UInt16} {v : Rx}
    (hlength : header.length.toNat = payload.length) (hcrc : header.crc = calculateCRC32 payload)
    (hmax : header.length ≤ maxPayloadLength) :
    decode maxPayloadLength (cmdHeaderLayout.bytes header ++ payload) v =
      (.success, { v with
        header := header
        payload := payload ++ v.payload.drop payload.length
        actual := header.length }) := by
  have hhead : (cmdHeaderLayout.bytes header).length = beaconHeaderSize :=
    cmdHeaderLayout.length_bytes header
  have hbody : body (cmdHeaderLayout.bytes header ++ payload) header = payload := by
    rw [body, List.drop_left' hhead, List.take_of_length_le (Nat.le_of_eq hlength.symm)]
  rw [decode, if_neg (by rw [List.length_append, hhead]; omega)]
  dsimp only
  rw [cmdHeaderLayout.read_bytes, if_neg (UInt16.not_lt.2 hmax),
    if_neg (by rw [List.length_append, hhead]; omega), hbody, hlength,
    if_neg fun hand => hand.2 hcrc.symm]

/-- The same with the transport and the buffers. -/
theorem receiveCommand_sent {maxPayloadLength : UInt16} {v : Rx}
    (hlength : header.length.toNat = payload.length) (hcrc : header.crc = calculateCRC32 payload)
    (hfits : payload.length ≤ partHeaderLayout.size + maxMessagePartSize)
    (hmax : payload.length ≤ maxPayloadLength.toNat) (hbuf : v.rxBuf.length = bufSize)
    (hroom : maxPayloadLength.toNat ≤ v.payload.length)
    (hwrap : beaconHeaderSize + maxPayloadLength.toNat < 65536) :
    receiveCommand true (some ⟨some (cmdHeaderLayout.bytes header ++ payload), cspRxPort⟩)
        maxPayloadLength v =
      some (.success, ⟨header, payload ++ v.payload.drop payload.length, header.length,
        cmdHeaderLayout.bytes header ++ payload ++
          v.rxBuf.drop (cmdHeaderLayout.bytes header ++ payload).length⟩) := by
  have hlen : (cmdHeaderLayout.bytes header ++ payload).length =
      beaconHeaderSize + payload.length := by
    rw [List.length_append, cmdHeaderLayout.length_bytes]
    rfl
  have hdelivered : Delivered true
      (some ⟨some (cmdHeaderLayout.bytes header ++ payload), cspRxPort⟩)
      (cmdHeaderLayout.bytes header ++ payload) := by
    refine ⟨rfl, rfl, ?_, ?_⟩
    · rw [hlen]
      exact Nat.add_pos_left (by decide) _
    · rw [hlen]
      exact Nat.add_le_add_left hfits _
  rw [receiveCommand_delivered hdelivered hbuf hroom hwrap,
    decode_sent hlength hcrc (UInt16.le_iff_toNat_le.2 (hlength ▸ hmax))]

/-- What a command becomes on the line. -/
def Outgoing.datagram (o : Outgoing) : List UInt8 := cmdHeaderLayout.bytes o.header ++ o.payload

/-- The part is one that `LTRX_SendMessagePart` sends. -/
def Sendable : Outgoing → Prop
  | .messagePart _ _ bytes => checkPart bytes.length = .success
  | _ => True

theorem checkPart_eq {n : Nat} (h : checkPart n = .success) : 0 < n ∧ n ≤ maxMessagePartSize := by
  rw [checkPart] at h
  split at h
  · exact absurd h ReturnCode.noConfusion
  rename_i hempty
  split at h
  · exact absurd h ReturnCode.noConfusion
  rename_i hlong
  exact ⟨Nat.pos_of_ne_zero hempty, Nat.le_of_not_lt hlong⟩

theorem length_errorDescription (desc : String) :
    (errorDescription desc).length = errorDescSize := by
  have htext : (desc.toUTF8.toList.take (errorDescSize - 1)).length ≤ errorDescSize :=
    Nat.le_trans (List.length_take_le _ _) (Nat.sub_le _ _)
  rw [errorDescription, List.length_append, List.length_replicate]
  exact Nat.add_sub_cancel' htext

/-- **Every command fits** the buffer it is sent from. -/
theorem Outgoing.payload_fits {o : Outgoing} (h : Sendable o) :
    o.payload.length ≤ partHeaderLayout.size + maxMessagePartSize := by
  have hlayout : ∀ {α : Type} (l : Layout α) (a : α), (l.bytes a).length = l.size :=
    fun l a => l.length_bytes a
  cases o with
  | messagePart id start bytes =>
    obtain ⟨-, hbytes⟩ := checkPart_eq h
    rw [payload, List.length_append, hlayout]
    exact Nat.add_le_add_left hbytes _
  | confirmReady => exact Nat.zero_le _
  | messageHeader header =>
    rw [payload, hlayout]
    decide
  | partRequest r =>
    rw [payload, hlayout]
    decide
  | partReceipt r status desc =>
    rw [payload, List.length_append, List.length_append, hlayout, hlayout, length_errorDescription]
    decide
  | messageReceipt id node =>
    rw [payload, List.length_append, hlayout, hlayout]
    decide
  | commandAck header status desc =>
    rw [payload, List.length_append, List.length_append, hlayout, hlayout, length_errorDescription]
    decide

theorem Outgoing.header_length {o : Outgoing} (h : Sendable o) :
    o.header.length.toNat = o.payload.length := by
  have hfits : o.payload.length ≤ 252 := o.payload_fits h
  show (UInt16.ofNat o.payload.length).toNat = _
  rw [UInt16.toNat_ofNat', Nat.mod_eq_of_lt (by omega)]

end Sending

/-! ## Message parts -/

section Parts

variable {messageID : UInt32} {start partBufSize actual : UInt16} {bytes : List UInt8}
  {header : BeaconCmdHeader} {v : PartRx}

/-- The header of a part that is sent. -/
def sentPart (messageID : UInt32) (start : UInt16) (bytes : List UInt8) : PartHeader :=
  ⟨messageID, start, UInt16.ofNat bytes.length, calculateCRC32 bytes⟩

/-- **A part that is sent is received**, with what was sent. -/
theorem receiveMessagePart_sent (hpart : checkPart bytes.length = .success)
    (hpayload : v.rxPayload.length = partHeaderLayout.size + maxMessagePartSize)
    (hbuf : v.rxBuf.length = bufSize) (hroom : partBufSize.toNat ≤ v.partBuf.length)
    (hfits : bytes.length ≤ partBufSize.toNat) :
    ∃ rxPayload rxBuf,
      receiveMessagePart true
        (some ⟨some (Outgoing.messagePart messageID start bytes).datagram, cspRxPort⟩)
        partBufSize header actual v =
      some (.success, ⟨sentPart messageID start bytes, bytes ++ v.partBuf.drop bytes.length,
        UInt16.ofNat bytes.length, rxPayload, rxBuf⟩) := by
  obtain ⟨hpos, hmax⟩ := checkPart_eq hpart
  have hmax : bytes.length ≤ 240 := hmax
  have hsend : Sendable (.messagePart messageID start bytes) := hpart
  have hlength := Outgoing.header_length hsend
  have hplen : (Outgoing.messagePart messageID start bytes).payload.length = 12 + bytes.length := by
    rw [Outgoing.payload, List.length_append, partHeaderLayout.length_bytes]
    rfl
  have hcode : (UInt16.ofNat bytes.length).toNat = bytes.length := by
    rw [UInt16.toNat_ofNat', Nat.mod_eq_of_lt (by omega)]
  have hactual : (Outgoing.messagePart messageID start bytes).header.length.toNat =
      12 + bytes.length := hlength.trans hplen
  have hcap : (UInt16.ofNat (partHeaderLayout.size + maxMessagePartSize)).toNat = 252 := rfl
  have hhead : (partHeaderLayout.bytes (sentPart messageID start bytes)).length =
      partHeaderLayout.size := partHeaderLayout.length_bytes _
  have hrx := receiveCommand_sent (v := ⟨header, v.rxPayload, actual, v.rxBuf⟩) hlength rfl
    (Outgoing.payload_fits hsend) (by rw [hplen, hcap]; omega) hbuf
    (Nat.le_of_eq (hcap.trans hpayload.symm)) (by rw [hcap]; decide)
  rw [receiveMessagePart, Outgoing.datagram, hrx, Option.bind_eq_bind, Option.bind_some]
  dsimp only
  have hdata : UInt16.ofNat ((Outgoing.messagePart messageID start bytes).header.length.toNat -
      partHeaderLayout.size) = UInt16.ofNat bytes.length := by
    rw [hactual]
    exact congrArg UInt16.ofNat (Nat.add_sub_cancel_left 12 _)
  rw [if_neg (by decide), if_neg (fun hne => hne rfl),
    if_neg (by rw [hactual]; exact Nat.not_lt.2 (Nat.le_add_right 12 _)), hdata]
  -- the buffer holds the header of the part, its bytes, and what was there before
  generalize hrest : v.rxPayload.drop (Outgoing.messagePart messageID start bytes).payload.length =
    rest
  have hpart : (Outgoing.messagePart messageID start bytes).payload ++ rest =
      partHeaderLayout.bytes (sentPart messageID start bytes) ++ (bytes ++ rest) :=
    List.append_assoc _ _ _
  have hraw : Buffer.load ((Outgoing.messagePart messageID start bytes).payload ++ rest) 0
      partHeaderLayout.size = some (partHeaderLayout.bytes (sentPart messageID start bytes)) := by
    rw [hpart, Buffer.load_eq (by rw [List.length_append, hhead]; exact Nat.le_add_right _ _),
      List.drop_zero, List.take_left' hhead]
  have hbytes : Buffer.load ((Outgoing.messagePart messageID start bytes).payload ++ rest)
      partHeaderLayout.size bytes.length = some bytes := by
    rw [hpart, Buffer.load_eq, List.drop_left' hhead, List.take_left' rfl]
    rw [List.length_append, List.length_append, hhead]
    exact Nat.add_le_add_left (Nat.le_add_right _ _) _
  have hread : partHeaderLayout.read (partHeaderLayout.bytes (sentPart messageID start bytes)) =
      sentPart messageID start bytes := by
    conv_lhs => rw [← List.append_nil (partHeaderLayout.bytes _), partHeaderLayout.read_bytes]
  have hok : ¬verifyCRC32 bytes (sentPart messageID start bytes).partCRC ≠ .success :=
    fun hne => hne (if_neg fun hne => hne rfl)
  rw [hraw, Option.bind_eq_bind, Option.bind_some, hread,
    if_neg (UInt16.not_lt.2 (UInt16.le_iff_toNat_le.2 (by rw [hcode]; exact hfits))), hcode, hbytes,
    Option.bind_some, if_neg hok, store_zero (Nat.le_trans hfits hroom)]
  exact ⟨_, _, rfl⟩

end Parts

end Ltrx
end FlightApps
