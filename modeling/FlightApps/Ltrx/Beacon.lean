import FlightApps.Lib.Bitmap
import FlightApps.Ltrx.Wire

/-!
# The beacon commands

`ltrx_cmds_beacon.c`: a message that is sent down in parts, one that is received in parts, and what
is done about each command of the beacon.  A handler says what it leaves and what happens on the way
(`Event`): what it sends and whether that succeeds, what it tells the session, and what it takes in.
-/

set_option autoImplicit false

namespace FlightApps
namespace Ltrx

/-! ## What happens -/

inductive Event
  /-- `LTRX_ReceiveCommand` has accepted a command. -/
  | received (header : BeaconCmdHeader) (payload : List UInt8)
  /-- A command is sent, and whether the transport takes it. -/
  | sent (o : Outgoing) (ok : Bool)
  /-- `LTRX_SessionOnIcdRxEx`; `LTRX_SessionOnIcdRx` says 0 for the message. -/
  | icdRx (typeID status : UInt8) (messageID : UInt32)
  /-- `LTRX_SessionNotifyUplinkOffered`. -/
  | uplinkOffered
  /-- `LTRX_SessionSetDownlinkMsgId`. -/
  | downlinkMsgId (messageID : UInt32)
  /-- A header of an uplink is accepted, from an offer or as a header. -/
  | announced (h : MessageHeader)
  /-- A part of an uplink is accepted. -/
  | stored (h : PartHeader) (bytes : List UInt8)
  /-- An uplink is complete, and its CRC is right. -/
  | completed (messageID : UInt32)
  /-- `CFE_SB_TransmitMsg` with the buffer that holds a message of this length. -/
  | transmitted (messageID : UInt32) (length : UInt16) (buf : List UInt8)
  /-- A confirmation of a whole message, type 11, has arrived. -/
  | confirmed (messageID : UInt32)
  /-- The session takes `LTRX_REQ_START_DOWNLINK` from its queue. -/
  | started
  /-- The session takes `LTRX_REQ_ABORT` from its queue. -/
  | aborted
  /-- The session takes `LTRX_REQ_RESET` from its queue. -/
  | reset
  /-- `LTRX_OnBusBeaconReceived` stages a message. -/
  | staged (messageID : UInt32)
  /-- A buffer is left: what happens then is anyone's guess. -/
  | overrun
deriving DecidableEq

/-- What a handler leaves, what happens on the way, and its return code. -/
structure Handled (σ : Type) where
  state : σ
  events : List Event
  code : ReturnCode

/-- `LTRX_SessionOnIcdRx`. -/
def onIcdRx (typeID status : UInt8) : Event := .icdRx typeID status 0

theorem forall_pair {P : Event → Prop} {e₁ e₂ : Event} (h₁ : P e₁) (h₂ : P e₂) :
    ∀ e ∈ [e₁, e₂], P e :=
  List.forall_mem_cons.2 ⟨h₁, List.forall_mem_singleton.2 h₂⟩

/-- The result of `LTRX_SendCommand`. -/
def sendCode (ok : Bool) : ReturnCode := if ok then .success else .error

/-- The status that the handlers give the session for a result. -/
def sentStatus (code : ReturnCode) : UInt8 := if code = .success then 0 else 1

/-! ## Downlink -/

/-- `LTRX_DOWNLINK_MAX_LEN`. -/
def downlinkMaxLen : Nat := 240

/-- `LTRX_HK_COMBINED_PAYLOAD_OFFSET`. -/
def hkCombinedPayloadOffset : Nat := 12

/-- The downlink storage, and the gate before it. -/
structure Downlink where
  downBuf : Vector UInt8 downlinkMaxLen
  downLen : UInt16
  downLen_le : downLen.toNat ≤ downlinkMaxLen
  downMsgId : UInt32
  downMsgCrc : UInt32
  downReady : Bool
  downInFlight : Bool
  pendingDownBuf : Vector UInt8 downlinkMaxLen
  pendingDownLen : UInt16
  pendingDownMsgId : UInt32
  pendingDownReady : Bool
  downstreamEnabled : Bool
  downstreamBeaconPeriod : UInt16
  downstreamBeaconCount : UInt16
  lastMsgId : UInt32
deriving DecidableEq

namespace Downlink

/-- What the program starts with; `LTRX_BUS_BEACON_PERIOD_DEFAULT` is 1. -/
def init : Downlink where
  downBuf := Vector.replicate _ 0
  downLen := 0
  downLen_le := by decide
  downMsgId := 0
  downMsgCrc := 0
  downReady := false
  downInFlight := false
  pendingDownBuf := Vector.replicate _ 0
  pendingDownLen := 0
  pendingDownMsgId := 0
  pendingDownReady := false
  downstreamEnabled := true
  downstreamBeaconPeriod := 1
  downstreamBeaconCount := 0
  lastMsgId := 0

/-- `LTRX_Downstream_SetEnabled`. -/
def setEnabled (d : Downlink) (enabled : Bool) : Downlink :=
  { d with downstreamEnabled := enabled, downstreamBeaconCount := 0 }

/-- `LTRX_Downstream_SetBeaconPeriod`. -/
def setBeaconPeriod (d : Downlink) (period : UInt16) : Downlink :=
  { d with downstreamBeaconPeriod := period, downstreamBeaconCount := 0 }

/-- The bytes of the message that is ready. -/
def message (d : Downlink) : List UInt8 := d.downBuf.toList.take d.downLen.toNat

/-- `LTRX_Downlink_SetMessage`, with as many bytes as `length` says. -/
def setMessage (d : Downlink) (messageID : UInt32) (data : List UInt8) (length : UInt16) :
    Downlink × ReturnCode :=
  if length = 0 then (d, .nullPtr)
  else if hlen : downlinkMaxLen < length.toNat then (d, .protocol)
  else
    let d := { d with
      downBuf := Cells.copy d.downBuf 0 (data.take length.toNat)
      downLen := length
      downLen_le := Nat.le_of_not_lt hlen
      downMsgId := messageID }
    ({ d with downMsgCrc := calculateCRC32 d.message, downReady := true }, .success)

/-- `LTRX_Downlink_ClearMessage`. -/
def clearMessage (d : Downlink) : Downlink :=
  { d with
    downBuf := Vector.replicate _ 0
    pendingDownBuf := Vector.replicate _ 0
    downLen := 0
    downLen_le := by decide
    downMsgId := 0
    downMsgCrc := 0
    downReady := false
    pendingDownLen := 0
    pendingDownMsgId := 0
    pendingDownReady := false
    downInFlight := false }

/-- `LTRX_Downlink_CommitPending`. -/
def commitPending (d : Downlink) : Downlink × ReturnCode :=
  if d.pendingDownReady = false then (d, .success)
  else
    let (d, rc) := d.setMessage d.pendingDownMsgId d.pendingDownBuf.toList d.pendingDownLen
    (if rc = .success then { d with pendingDownReady := false } else d, rc)

/-- Type 3: the beacon asks for a message. -/
def requestMsgTx (link : Nat → Bool) (d : Downlink) : Handled Downlink :=
  let (d, rc) := d.commitPending
  if rc ≠ .success then ⟨d, [onIcdRx 3 1], rc⟩
  else
    let h : MessageHeader :=
      if d.downReady then ⟨d.downMsgId, d.downLen, d.downMsgCrc⟩ else ⟨0, 0, 0⟩
    let rc := sendCode (link 0)
    ⟨if d.downReady ∧ rc = .success then { d with downInFlight := true } else d,
      [.downlinkMsgId h.messageID, .sent (.messageHeader h) (link 0), onIcdRx 3 (sentStatus rc)],
      rc⟩

/-- Type 7: the beacon asks for a part. -/
def requestMsgPart (link : Nat → Bool) (d : Downlink) (hdr : BeaconCmdHeader)
    (payload : List UInt8) : Handled Downlink :=
  if payload.length < 8 then
    ⟨d, [.sent (.commandAck hdr 12 "Type7 too short") (link 0), onIcdRx 7 30], .protocol⟩
  else
    let r := partRequestLayout.read payload
    if d.downReady = false ∨ r.messageID ≠ d.downMsgId then
      ⟨d, [.sent (.commandAck hdr 30 "no msg or mid mismatch") (link 0), onIcdRx 7 30], .protocol⟩
    else if d.downLen.toNat < r.partStartByte.toNat + r.partLength.toNat then
      ⟨d, [.sent (.commandAck hdr 22 "part out of range") (link 0), onIcdRx 7 10], .protocol⟩
    else
      let rc := checkPart r.partLength.toNat
      if rc ≠ .success then ⟨d, [onIcdRx 7 1], rc⟩
      else
        let part := (d.downBuf.toList.drop r.partStartByte.toNat).take r.partLength.toNat
        let rc := sendCode (link 0)
        ⟨d, [.sent (.messagePart r.messageID r.partStartByte part) (link 0),
          onIcdRx 7 (sentStatus rc)], rc⟩

/-- Type 11: the message has arrived. -/
def confirmMsgRx (d : Downlink) (payload : List UInt8) : Handled Downlink :=
  if payload.length < 5 then ⟨d, [onIcdRx 11 30], .protocol⟩
  else
    let mid := Layout.u32.read payload
    ⟨if d.downInFlight ∧ mid = d.downMsgId then d.clearMessage else d,
      [.confirmed mid, .icdRx 11 0 mid], .success⟩

/-- `LTRX_OnBusBeaconReceived`.  `sized` says that `CFE_MSG_GetSize` succeeds, and `seconds` is the
time of the spacecraft. -/
def onBusBeaconReceived (d : Downlink) (msg : List UInt8) (sized : Bool) (seconds : UInt32) :
    Downlink × List Event :=
  if d.downstreamEnabled = false then (d, [])
  else if d.downInFlight then (d, [])
  else if sized = false ∨ msg.length ≤ hkCombinedPayloadOffset then (d, [])
  else
    let count := d.downstreamBeaconCount + 1
    if count < d.downstreamBeaconPeriod then ({ d with downstreamBeaconCount := count }, [])
    else
      let len := UInt16.ofNat (msg.length - hkCombinedPayloadOffset)
      let payloadLen := if downlinkMaxLen < len.toNat then UInt16.ofNat downlinkMaxLen else len
      let msgId := if seconds = d.lastMsgId then seconds + 1 else seconds
      let payload := (msg.drop hkCombinedPayloadOffset).take payloadLen.toNat
      ({ d with
        downstreamBeaconCount := 0
        lastMsgId := msgId
        pendingDownBuf := Cells.copy d.pendingDownBuf 0 payload
        pendingDownLen := payloadLen
        pendingDownMsgId := msgId
        pendingDownReady := true }, [.staged msgId])

end Downlink

/-! ## Uplink -/

/-- `LTRX_UPLINK_MAX_LEN`. -/
def uplinkMaxLen : Nat := 240

/-- `LTRX_UPLINK_PART_REQ_LEN`. -/
def uplinkPartReqLen : Nat := 240

/-- `LTRX_UPLINK_MAX_PART_RETRY`. -/
def uplinkMaxPartRetry : UInt8 := 5

/-- `LTRX_UPLINK_BITMAP_BYTES`. -/
def uplinkBitmapBytes : Nat := (uplinkMaxLen + 7) / 8

/-- One round of the loop of `Uplink_MarkReceived`; the number is `new_bytes`. -/
def markNew (marks : Bitmap uplinkBitmapBytes × UInt16) (i : Nat) :
    Bitmap uplinkBitmapBytes × UInt16 :=
  if marks.1.marked i then marks else (marks.1.mark i, marks.2 + 1)

/-- A gap of `Uplink_FindNextGap`, not longer than what is asked for at once. -/
def clip (start stop : Nat) : UInt16 × UInt16 :=
  let len := UInt16.ofNat (stop - start)
  (UInt16.ofNat start,
    if uplinkPartReqLen < len.toNat then UInt16.ofNat uplinkPartReqLen else len)

/-- The loop of `Uplink_FindNextGap` from `i` on, with `n` rounds to go; `gap` is where a gap has
begun. -/
def findGap (bm : Bitmap uplinkBitmapBytes) : Nat → Nat → Option Nat → Option (UInt16 × UInt16)
  | i, 0, gap => gap.map (clip · i)
  | i, n + 1, none => findGap bm (i + 1) n (if bm.marked i then none else some i)
  | i, n + 1, some start =>
    if bm.marked i then some (clip start i) else findGap bm (i + 1) n (some start)

/-- `LTRX_UplinkRx_t`. -/
structure UplinkRx where
  inProgress : Bool
  complete : Bool
  msgId : UInt32
  msgLen : UInt16
  msgCrc : UInt32
  buf : Vector UInt8 uplinkMaxLen
  recvBitmap : Bitmap uplinkBitmapBytes
  receivedBytes : UInt16
  lastPartStart : UInt16
  lastPartLen : UInt16
  lastPartRetry : UInt8
  nextRequestOffset : UInt16
deriving DecidableEq

namespace UplinkRx

/-- What `Uplink_Reset` leaves. -/
def zero : UplinkRx where
  inProgress := false
  complete := false
  msgId := 0
  msgLen := 0
  msgCrc := 0
  buf := Vector.replicate _ 0
  recvBitmap := Bitmap.clear _
  receivedBytes := 0
  lastPartStart := 0
  lastPartLen := 0
  lastPartRetry := 0
  nextRequestOffset := 0

/-- The header of the message. -/
def header (u : UplinkRx) : MessageHeader := ⟨u.msgId, u.msgLen, u.msgCrc⟩

/-- The bytes of the message. -/
def message (u : UplinkRx) : List UInt8 := u.buf.toList.take u.msgLen.toNat

/-- `Uplink_MarkReceived`. -/
def markReceived (u : UplinkRx) (start len : UInt16) : UplinkRx :=
  let stop := min (start + len).toNat uplinkMaxLen
  let marks := (List.range' start.toNat (stop - start.toNat)).foldl markNew (u.recvBitmap, 0)
  { u with recvBitmap := marks.1, receivedBytes := u.receivedBytes + marks.2 }

/-- `Uplink_AllReceived`. -/
def allReceived (u : UplinkRx) : Bool := u.inProgress && u.receivedBytes ≥ u.msgLen

/-- `Uplink_FindNextGap`. -/
def findNextGap (u : UplinkRx) : Option (UInt16 × UInt16) :=
  findGap u.recvBitmap 0 u.msgLen.toNat none

/-- `Uplink_RequestPart`. -/
def requestPart (ok : Bool) (u : UplinkRx) (start len : UInt16) : Handled UplinkRx :=
  ⟨{ u with lastPartStart := start, lastPartLen := len },
    [.sent (.partRequest ⟨u.msgId, start, len⟩) ok], sendCode ok⟩

/-- `Uplink_RequestNextPart`. -/
def requestNextPart (ok : Bool) (u : UplinkRx) : Handled UplinkRx :=
  if u.inProgress = false then ⟨u, [], .protocol⟩
  else if u.allReceived then ⟨u, [], .success⟩
  else
    match u.findNextGap with
    | none => ⟨u, [], .success⟩
    | some (start, len) => requestPart ok { u with lastPartRetry := 0 } start len

/-- A message of which nothing has been received. -/
def fresh (h : MessageHeader) : UplinkRx :=
  { zero with
    inProgress := true, msgId := h.messageID, msgLen := h.messageLength, msgCrc := h.messageCRC }

/-- The length of a message that can be received. -/
def lengthValid (h : MessageHeader) : Prop :=
  ¬(h.messageLength = 0 ∨ uplinkMaxLen < h.messageLength.toNat)

instance (h : MessageHeader) : Decidable (lengthValid h) := inferInstanceAs (Decidable (¬_))

/-- Type 6: the beacon offers a message. -/
def offerReceiveMsg (link : Nat → Bool) (u : UplinkRx) (payload : List UInt8) : Handled UplinkRx :=
  if payload.length < 10 then ⟨u, [onIcdRx 6 30], .protocol⟩
  else
    let h := messageHeaderLayout.read payload
    if ¬lengthValid h then ⟨u, [onIcdRx 6 30], .protocol⟩
    else if link 0 then
      ⟨fresh h, [.sent .confirmReady true, .announced h, onIcdRx 6 0, .uplinkOffered], .success⟩
    else ⟨zero, [.sent .confirmReady false, onIcdRx 6 1], .error⟩

/-- The rest of type 5, with the header in place. -/
def begin (link : Nat → Bool) (u : UplinkRx) : Handled UplinkRx :=
  let r := requestNextPart (link 0) u
  ⟨r.state, .announced u.header :: r.events ++ [onIcdRx 5 (sentStatus r.code)], r.code⟩

/-- Type 5: the header of a message. -/
def sendMsgHeader (link : Nat → Bool) (u : UplinkRx) (payload : List UInt8) : Handled UplinkRx :=
  if payload.length < 10 then ⟨u, [onIcdRx 5 30], .protocol⟩
  else
    let h := messageHeaderLayout.read payload
    if ¬lengthValid h then ⟨u, [onIcdRx 5 10], .protocol⟩
    else if u.inProgress ∧ u.msgId ≠ 0 then
      if u.header ≠ h then ⟨zero, [onIcdRx 5 30], .protocol⟩
      else begin link
        { u with receivedBytes := 0, nextRequestOffset := 0, recvBitmap := Bitmap.clear _ }
    else begin link (fresh h)

/-- What type 9 does about a part with the wrong CRC. -/
def retryPart (link : Nat → Bool) (u : UplinkRx) (start len : UInt16) : Handled UplinkRx :=
  if start = u.lastPartStart ∧ len = u.lastPartLen then
    if u.lastPartRetry < uplinkMaxPartRetry then
      requestPart (link 1) { u with lastPartRetry := u.lastPartRetry + 1 } start len
    else ⟨zero, [], .success⟩
  else requestPart (link 1) { u with lastPartRetry := 0 } start len

/-- The bytes of a part in the buffer. -/
def store (u : UplinkRx) (h : PartHeader) (bytes : List UInt8) : UplinkRx :=
  markReceived { u with buf := Cells.copy u.buf h.partStartByte.toNat bytes }
    h.partStartByte h.partLength

/-- What type 9 does after a part: check the whole message, or ask for the next part. -/
def advance (link : Nat → Bool) (u : UplinkRx) : Handled UplinkRx :=
  if u.allReceived then
    if calculateCRC32 u.message = u.msgCrc then
      ⟨{ u with complete := true, inProgress := false },
        [.sent (.messageReceipt u.msgId defaultObcId) (link 1), .completed u.msgId], .success⟩
    else ⟨zero, [onIcdRx 9 30], .success⟩
  else
    let r := requestNextPart (link 1) u
    ⟨r.state, r.events, .success⟩

/-- Type 9: a part of a message. -/
def sendMsgPart (link : Nat → Bool) (u : UplinkRx) (payload : List UInt8) : Handled UplinkRx :=
  if payload.length < 12 then ⟨u, [onIcdRx 9 30], .protocol⟩
  else
    let h := partHeaderLayout.read payload
    let r : PartRequest := ⟨h.messageID, h.partStartByte, h.partLength⟩
    let bytes := payload.drop 12
    if u.inProgress = false ∨ h.messageID ≠ u.msgId then
      ⟨u, [.sent (.partReceipt r 30 "unexpected") (link 0), onIcdRx 9 30], .protocol⟩
    else if h.partLength ≠ UInt16.ofNat bytes.length then
      ⟨u, [.sent (.partReceipt r 10 "len mismatch") (link 0), onIcdRx 9 10], .protocol⟩
    else if u.msgLen.toNat < h.partStartByte.toNat + h.partLength.toNat then
      ⟨u, [.sent (.partReceipt r 10 "out of range") (link 0), onIcdRx 9 10], .protocol⟩
    else if calculateCRC32 (bytes.take h.partLength.toNat) ≠ h.partCRC then
      let a := retryPart link u h.partStartByte h.partLength
      ⟨a.state, .sent (.partReceipt r 20 "crc mismatch") (link 0) :: a.events ++ [onIcdRx 9 20],
        .success⟩
    else
      let part := bytes.take h.partLength.toNat
      let a := advance link (u.store h part)
      ⟨a.state, .stored h part :: .sent (.partReceipt r 0 "") (link 0) :: onIcdRx 9 0 :: a.events,
        a.code⟩

/-- `LTRX_Uplink_ForwardToSB`; `stack` is what its local buffer holds at first. -/
def forwardToSB (u : UplinkRx) (stack : Vector UInt8 uplinkMaxLen) : UplinkRx × List Event :=
  if u.complete = false then (u, [])
  -- `LTRX_Uplink_CopyOut` with room for `LTRX_UPLINK_MAX_LEN` bytes
  else if uplinkMaxLen < u.msgLen.toNat then (u, [])
  else (zero, [.transmitted u.msgId u.msgLen (Cells.copy stack 0 u.message).toList])

end UplinkRx

/-! ## Commands -/

/-- The storage of both directions. -/
structure Storage where
  down : Downlink
  up : UplinkRx
deriving DecidableEq

/-- The types that only tell the session something, with the length they need at least, the status
that they report and what they report it for. -/
def report (typeID : UInt8) (least : Nat) (short : List Event) (status : List UInt8 → UInt8)
    (mid : List UInt8 → UInt32) (s : Storage) (payload : List UInt8) : Handled Storage :=
  if payload.length < least then ⟨s, short, .protocol⟩
  else ⟨s, [.icdRx typeID (status payload) (mid payload)], .success⟩

/-- Type 10: what the beacon says about a part. -/
def confirmPartRx : Storage → List UInt8 → Handled Storage :=
  report 10 34 [onIcdRx 10 30] (·.getD 8 0) fun _ => 0

/-- Type 13: what has become of a message. -/
def msgStatusUpdate : Storage → List UInt8 → Handled Storage :=
  report 13 39 [onIcdRx 13 30] (·.getD 13 0) Layout.u32.read

/-- Type 15: what the beacon says about a command. -/
def prevCmdAck : Storage → List UInt8 → Handled Storage :=
  report 15 35 [onIcdRx 15 30] (·.getD 9 0) fun _ => 0

/-- Type 21: where we are. -/
def gnssInfo : Storage → List UInt8 → Handled Storage :=
  report 21 18 [] (fun _ => 0) fun _ => 0

/-- Type 23: how the beacon is. -/
def beaconStatus : Storage → List UInt8 → Handled Storage :=
  report 23 52 [] (fun _ => 0) fun _ => 0

/-- Type 24: both. -/
def beaconStatusFull : Storage → List UInt8 → Handled Storage :=
  report 24 70 [] (fun _ => 0) fun _ => 0

def Storage.withDown (s : Storage) (a : Handled Downlink) : Handled Storage :=
  ⟨{ s with down := a.state }, a.events, a.code⟩

def Storage.withUp (s : Storage) (a : Handled UplinkRx) : Handled Storage :=
  ⟨{ s with up := a.state }, a.events, a.code⟩

/-- The `switch` of `LTRX_BcnProcessOneRx`. -/
def dispatch (link : Nat → Bool) (s : Storage) (hdr : BeaconCmdHeader) (payload : List UInt8) :
    Handled Storage :=
  match hdr.typeID with
  | 3 => s.withDown (s.down.requestMsgTx link)
  | 7 => s.withDown (s.down.requestMsgPart link hdr payload)
  | 10 => confirmPartRx s payload
  | 11 => s.withDown (s.down.confirmMsgRx payload)
  | 13 => msgStatusUpdate s payload
  | 15 => prevCmdAck s payload
  | 6 => s.withUp (s.up.offerReceiveMsg link payload)
  | 5 => s.withUp (s.up.sendMsgHeader link payload)
  | 9 => s.withUp (s.up.sendMsgPart link payload)
  | 21 => gnssInfo s payload
  | 23 => beaconStatus s payload
  | 24 => beaconStatusFull s payload
  | _ => ⟨s, [.sent (.commandAck hdr 22 "unknown type id") (link 0), onIcdRx hdr.typeID 0],
      .success⟩

end Ltrx
end FlightApps
