import FlightApps.Ltrx.Framing
import FlightApps.Ltrx.Beacon

/-!
# From the sender to the handlers

`serialise` and `receiveCommand` meet: what one hands to the transport the other accepts, whatever
the buffers held before (`command_framing`).  A part of a message goes on to
`LTRX_ReceiveMessagePart` or to the handler of type 9.
-/

set_option autoImplicit false

namespace FlightApps
namespace Ltrx

/-- What a caller of `LTRX_ReceiveCommand` keeps: the payload buffer has the size it is said to
have, and this is far from the range of 16 bits. -/
structure Rx.Ready (max : UInt16) (v : Rx) : Prop where
  rxBuf : v.rxBuf.length = bufSize
  payload : max.toNat ≤ v.payload.length
  range : beaconHeaderSize + max.toNat < 65536

/-- The header that is sent with a payload. -/
def sentHeader (fromID toID typeID : UInt8) (payload : List UInt8) : BeaconCmdHeader :=
  buildCommandHeader fromID toID typeID (UInt16.ofNat payload.length) (calculateCRC32 payload)

theorem sentHeader_length (fromID toID typeID : UInt8) {payload : List UInt8}
    (h : payload.length ≤ partHeaderLayout.size + maxMessagePartSize) :
    (sentHeader fromID toID typeID payload).length.toNat = payload.length := by
  have h : payload.length ≤ 252 := h
  show (UInt16.ofNat payload.length).toNat = _
  rw [UInt16.toNat_ofNat', Nat.mod_eq_of_lt (by omega)]

/-- **Whatever arrives** is refused, with the length untouched, or it is a datagram with what the
caller gets. -/
theorem receiveCommand_cases {max : UInt16} {v : Rx} (hv : v.Ready max) (listening : Bool)
    (arrival : Option Arrival) :
    ∃ rc v', receiveCommand listening arrival max v = some (rc, v') ∧
      ((rc ≠ .success ∧ v'.actual = v.actual) ∨
        (rc = .success ∧ ∃ d, Delivered listening arrival d ∧ Accepted max d v'.header ∧
          v'.actual = v'.header.length ∧ v'.payload.take v'.actual.toNat = body d v'.header)) := by
  by_cases hd : ∃ d, Delivered listening arrival d
  · obtain ⟨d, hd⟩ := hd
    refine ⟨_, _, receiveCommand_delivered hd hv.rxBuf hv.payload hv.range, ?_⟩
    by_cases hrc : (decode max d v).1 = .success
    · obtain ⟨hacc, heq⟩ := decode_success hrc
      refine Or.inr ⟨hrc, d, hd, ?_⟩
      rw [heq]
      refine ⟨hacc, rfl, ?_⟩
      show List.take (cmdHeaderLayout.read d).length.toNat (body d _ ++ _) = _
      rw [← length_body hacc, List.take_left]
    · exact Or.inl ⟨hrc, decode_failed hrc⟩
  · obtain ⟨buf, heq, -⟩ :=
      receiveCommand_missed (v := v) (fun d hd' => hd ⟨d, hd'⟩) hv.rxBuf
    exact ⟨_, _, heq, Or.inl ⟨ReturnCode.noConfusion, rfl⟩⟩

theorem decode_rxBuf (max : UInt16) (d : List UInt8) (v : Rx) (rxBuf : List UInt8) :
    decode max d { v with rxBuf := rxBuf } =
      ((decode max d v).1, { (decode max d v).2 with rxBuf := rxBuf }) := by
  rw [decode, decode]
  split
  · rfl
  dsimp only
  split
  · rfl
  split
  · rfl
  split
  · rfl
  · rfl

/-- What the caller sees of a result. -/
def seen (r : ReturnCode × Rx) : ReturnCode × BeaconCmdHeader × List UInt8 × UInt16 :=
  (r.1, r.2.header, r.2.payload, r.2.actual)

/-- **Nothing is read that has not been received**: what was in the buffer before does not
matter. -/
theorem receiveCommand_fresh {max : UInt16} {v : Rx} (hv : v.Ready max) {rxBuf : List UInt8}
    (hbuf : rxBuf.length = bufSize) (listening : Bool) (arrival : Option Arrival) :
    (receiveCommand listening arrival max { v with rxBuf := rxBuf }).map seen =
      (receiveCommand listening arrival max v).map seen := by
  by_cases hd : ∃ d, Delivered listening arrival d
  · obtain ⟨d, hd⟩ := hd
    rw [receiveCommand_delivered (v := { v with rxBuf := rxBuf }) hd hbuf hv.payload hv.range,
      receiveCommand_delivered hd hv.rxBuf hv.payload hv.range, decode_rxBuf]
    rfl
  · have hmissed : ∀ d, ¬Delivered listening arrival d := fun d hd' => hd ⟨d, hd'⟩
    have hmiss : ∀ v : Rx, v.rxBuf.length = bufSize →
        (receiveCommand listening arrival max v).map seen =
          some (.timeout, v.header, v.payload, v.actual) := by
      intro v hv
      obtain ⟨buf, heq, -⟩ := receiveCommand_missed hmissed hv
      rw [heq]
      rfl
    rw [hmiss v hv.rxBuf, hmiss { v with rxBuf := rxBuf } hbuf]

/-- The handler of type 9 takes a part of the message that is under way. -/
theorem sendMsgPart_sent (link : Nat → Bool) {u : UplinkRx} (hup : u.inProgress = true)
    {start : UInt16} {bytes : List UInt8} (hpart : checkPart bytes.length = .success)
    (hrange : start.toNat + bytes.length ≤ u.msgLen.toNat) :
    ∃ es, (u.sendMsgPart link (Outgoing.messagePart u.msgId start bytes).payload).events =
      .stored (sentPart u.msgId start bytes) bytes :: es := by
  obtain ⟨-, hmax⟩ := checkPart_eq hpart
  have hmax : bytes.length ≤ 240 := hmax
  have hhead : (partHeaderLayout.bytes (sentPart u.msgId start bytes)).length = 12 :=
    partHeaderLayout.length_bytes _
  have hlen : (UInt16.ofNat bytes.length).toNat = bytes.length := by
    rw [UInt16.toNat_ofNat', Nat.mod_eq_of_lt (by omega)]
  have hpayload : (Outgoing.messagePart u.msgId start bytes).payload =
      partHeaderLayout.bytes (sentPart u.msgId start bytes) ++ bytes := rfl
  rw [hpayload, UplinkRx.sendMsgPart, if_neg (by rw [List.length_append, hhead]; omega)]
  dsimp only
  rw [partHeaderLayout.read_bytes, List.drop_left' hhead]
  have htake : bytes.take (sentPart u.msgId start bytes).partLength.toNat = bytes := by
    rw [sentPart, hlen, List.take_length]
  have hstate : ¬(u.inProgress = false ∨ (sentPart u.msgId start bytes).messageID ≠ u.msgId) := by
    rintro (hnot | hne)
    · exact Bool.false_ne_true (hnot.symm.trans hup)
    · exact hne rfl
  have hinside : ¬u.msgLen.toNat < (sentPart u.msgId start bytes).partStartByte.toNat +
      (sentPart u.msgId start bytes).partLength.toNat := by
    show ¬u.msgLen.toNat < start.toNat + (UInt16.ofNat bytes.length).toNat
    rw [hlen]
    exact Nat.not_lt.2 hrange
  rw [if_neg hstate, if_neg (fun hne => hne rfl), if_neg hinside, htake,
    if_neg (fun hne => hne rfl)]
  exact ⟨_, rfl⟩

/-- What a caller of `LTRX_ReceiveMessagePart` keeps. -/
structure PartRx.Ready (size : UInt16) (p : PartRx) : Prop where
  rxBuf : p.rxBuf.length = bufSize
  rxPayload : p.rxPayload.length = partHeaderLayout.size + maxMessagePartSize
  partBuf : size.toNat ≤ p.partBuf.length

/-- **The framing of commands.**  What `LTRX_SendCommand` hands over is accepted, with the same
header and payload.  Whatever arrives is refused with the length untouched, or the payload lies in
what has been received and has the CRC of the header, unless it is empty; what was in the buffer
does not matter.  And a part that is sent is accepted with what was sent, by
`LTRX_ReceiveMessagePart`, and by the handler of type 9 if it is a part of the message that is under
way. -/
theorem command_framing {max : UInt16} {v : Rx} (hv : v.Ready max) :
    (∀ fromID toID typeID payload txBuf,
      payload.length ≤ partHeaderLayout.size + maxMessagePartSize → payload.length ≤ max.toNat →
      txBuf.length = bufSize →
        ∃ data v', serialise (sentHeader fromID toID typeID payload) payload txBuf = some data ∧
          receiveCommand true (some ⟨some data, cspRxPort⟩) max v = some (.success, v') ∧
          v'.header = sentHeader fromID toID typeID payload ∧
          v'.actual.toNat = payload.length ∧ v'.payload.take v'.actual.toNat = payload) ∧
    (∀ listening arrival, ∃ rc v', receiveCommand listening arrival max v = some (rc, v') ∧
      ((rc ≠ .success ∧ v'.actual = v.actual) ∨
        (rc = .success ∧ ∃ d, Delivered listening arrival d ∧ Accepted max d v'.header ∧
          v'.actual = v'.header.length ∧ v'.payload.take v'.actual.toNat = body d v'.header)) ∧
      ∀ rxBuf, rxBuf.length = bufSize →
        (receiveCommand listening arrival max { v with rxBuf := rxBuf }).map seen =
          some (seen (rc, v'))) ∧
    ∀ messageID start bytes, checkPart bytes.length = .success →
      (∀ size header actual p, PartRx.Ready size p → bytes.length ≤ size.toNat →
        ∃ p', receiveMessagePart true
            (some ⟨some (Outgoing.messagePart messageID start bytes).datagram, cspRxPort⟩)
            size header actual p = some (.success, p') ∧
          p'.partHdr = sentPart messageID start bytes ∧
          p'.actualPartBytes.toNat = bytes.length ∧
          p'.partBuf.take p'.actualPartBytes.toNat = bytes) ∧
      ∀ link s, s.up.inProgress = true → s.up.msgId = messageID →
        start.toNat + bytes.length ≤ s.up.msgLen.toNat →
        ∃ es, (dispatch link s (Outgoing.messagePart messageID start bytes).header
            (Outgoing.messagePart messageID start bytes).payload).events =
          .stored (sentPart messageID start bytes) bytes :: es := by
  refine ⟨fun fromID toID typeID payload txBuf hfits hmax htx => ?_, fun listening arrival => ?_,
    fun messageID start bytes hpart => ⟨fun size header actual p hp hroom => ?_,
      fun link s hup hid hrange => ?_⟩⟩
  · have hlength := sentHeader_length fromID toID typeID hfits
    refine ⟨_, _, serialise_eq _ hfits htx,
      receiveCommand_sent hlength rfl hfits hmax hv.rxBuf hv.payload hv.range, rfl, hlength, ?_⟩
    show List.take (sentHeader fromID toID typeID payload).length.toNat (payload ++ _) = payload
    rw [hlength, List.take_left]
  · obtain ⟨rc, v', heq, hcases⟩ := receiveCommand_cases hv listening arrival
    refine ⟨rc, v', heq, hcases, fun rxBuf hbuf => ?_⟩
    rw [receiveCommand_fresh hv hbuf, heq]
    rfl
  · obtain ⟨rxPayload, rxBuf, heq⟩ :=
      receiveMessagePart_sent hpart hp.rxPayload hp.rxBuf hp.partBuf hroom
    obtain ⟨-, hmax⟩ := checkPart_eq hpart
    have hmax : bytes.length ≤ 240 := hmax
    have hlen : (UInt16.ofNat bytes.length).toNat = bytes.length := by
      rw [UInt16.toNat_ofNat', Nat.mod_eq_of_lt (by omega)]
    refine ⟨_, heq, rfl, hlen, ?_⟩
    show List.take (UInt16.ofNat bytes.length).toNat (bytes ++ _) = bytes
    rw [hlen, List.take_left]
  · subst hid
    exact sendMsgPart_sent link hup hpart hrange

/-- What the variables hold when the child task starts. -/
def freshRx : Rx := ⟨default, List.replicate 2048 0, 0, List.replicate bufSize 0⟩

theorem freshRx_ready : freshRx.Ready 2048 where
  rxBuf := List.length_replicate
  payload := Nat.le_of_eq List.length_replicate.symm
  range := by decide

theorem command_framing_fresh : freshRx.Ready 2048 ∧
    ∃ data v', serialise (sentHeader 10 1 9 [1, 2, 3]) [1, 2, 3] (List.replicate bufSize 7) =
        some data ∧
      receiveCommand true (some ⟨some data, cspRxPort⟩) 2048 freshRx = some (.success, v') ∧
      v'.header = sentHeader 10 1 9 [1, 2, 3] ∧
      v'.actual.toNat = 3 ∧ v'.payload.take v'.actual.toNat = [1, 2, 3] :=
  ⟨freshRx_ready, (command_framing freshRx_ready).1 10 1 9 [1, 2, 3] (List.replicate bufSize 7)
    (by decide) (by decide) List.length_replicate⟩

/-- A header of type 8 without a payload, and with a CRC that is not 0. -/
def emptyWithCRC : List UInt8 := [10, 1, 8, 0, 0, 1, 0, 0, 0]

/-- **An empty payload has no CRC**: one that does not match is accepted.  And the handler of type 9
refuses a part if no message is under way. -/
theorem empty_payload_accepted :
    (∃ v', receiveCommand true (some ⟨some emptyWithCRC, cspRxPort⟩) 2048 freshRx =
        some (.success, v') ∧
      calculateCRC32 (v'.payload.take v'.actual.toNat) ≠ v'.header.crc) ∧
    ∀ e ∈ (UplinkRx.zero.sendMsgPart (fun _ => true)
      (Outgoing.messagePart 1 0 [5]).payload).events, ∀ h bytes, e ≠ .stored h bytes := by
  have hd : Delivered true (some ⟨some emptyWithCRC, cspRxPort⟩) emptyWithCRC :=
    ⟨rfl, rfl, by decide, by decide⟩
  refine ⟨⟨_, receiveCommand_delivered hd freshRx_ready.rxBuf freshRx_ready.payload
    freshRx_ready.range, ?_⟩, ?_⟩
  · show calculateCRC32 (List.take 0 _) ≠ 1
    rw [List.take_zero]
    decide
  · have hevents : (UplinkRx.zero.sendMsgPart (fun _ => true)
        (Outgoing.messagePart 1 0 [5]).payload).events =
        [.sent (.partReceipt ⟨1, 0, 1⟩ 30 "unexpected") true, onIcdRx 9 30] := by
      decide
    rw [hevents]
    intro e he h bytes
    rcases List.mem_cons.1 he with rfl | he
    · exact Event.noConfusion
    · rw [List.mem_singleton.1 he]
      exact Event.noConfusion

end Ltrx
end FlightApps
