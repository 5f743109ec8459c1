import FlightApps.Lib.Buffer
import FlightApps.Lib.Layout

/-!
# Commands on the line to the beacon

The device layer of LTRX, `ltrx.c`, and the transport under it.  A command is a header of nine bytes
and a payload; the header has the length of the payload and its CRC-32.  A message part has a header
of its own in its payload, with another length and another CRC.

`serialise` is what `LTRX_SendCommand` hands to the transport, and `receiveCommand` what
`LTRX_ReceiveCommand` makes of a datagram.  Both work on buffers of fixed size, and have no value if
they leave them.
-/

set_option autoImplicit false

namespace FlightApps
namespace Ltrx

/-- `LTRX_ReturnCode_t`. -/
inductive ReturnCode
  | success
  | error
  | nullPtr
  | timeout
  | crc
  | length
  | protocol
deriving DecidableEq, Repr

/-! ## Sizes and numbers -/

/-- `LTRX_BEACON_HEADER_SIZE`. -/
def beaconHeaderSize : Nat := 9

/-- `LTRX_MAX_MESSAGE_PART_SIZE`. -/
def maxMessagePartSize : Nat := 240

/-- `LTRX_ERROR_DESC_SIZE`. -/
def errorDescSize : Nat := 25

def defaultObcId : UInt8 := 10
def defaultBeaconId : UInt8 := 61

/-- `LTRX_CSP_RX_PORT`. -/
def cspRxPort : UInt8 := 10

/-! ## CRC-32 -/

/-- `crc32_table`. -/
def crc32Table : List UInt32 :=
  [
    0x00000000, 0x77073096, 0xEE0E612C, 0x990951BA, 0x076DC419, 0x706AF48F, 0xE963A535,
    0x9E6495A3, 0x0EDB8832, 0x79DCB8A4, 0xE0D5E91E, 0x97D2D988, 0x09B64C2B, 0x7EB17CBD,
    0xE7B82D07, 0x90BF1D91, 0x1DB71064, 0x6AB020F2, 0xF3B97148, 0x84BE41DE, 0x1ADAD47D,
    0x6DDDE4EB, 0xF4D4B551, 0x83D385C7, 0x136C9856, 0x646BA8C0, 0xFD62F97A, 0x8A65C9EC,
    0x14015C4F, 0x63066CD9, 0xFA0F3D63, 0x8D080DF5, 0x3B6E20C8, 0x4C69105E, 0xD56041E4,
    0xA2677172, 0x3C03E4D1, 0x4B04D447, 0xD20D85FD, 0xA50AB56B, 0x35B5A8FA, 0x42B2986C,
    0xDBBBC9D6, 0xACBCF940, 0x32D86CE3, 0x45DF5C75, 0xDCD60DCF, 0xABD13D59, 0x26D930AC,
    0x51DE003A, 0xC8D75180, 0xBFD06116, 0x21B4F4B5, 0x56B3C423, 0xCFBA9599, 0xB8BDA50F,
    0x2802B89E, 0x5F058808, 0xC60CD9B2, 0xB10BE924, 0x2F6F7C87, 0x58684C11, 0xC1611DAB,
    0xB6662D3D, 0x76DC4190, 0x01DB7106, 0x98D220BC, 0xEFD5102A, 0x71B18589, 0x06B6B51F,
    0x9FBFE4A5, 0xE8B8D433, 0x7807C9A2, 0x0F00F934, 0x9609A88E, 0xE10E9818, 0x7F6A0DBB,
    0x086D3D2D, 0x91646C97, 0xE6635C01, 0x6B6B51F4, 0x1C6C6162, 0x856530D8, 0xF262004E,
    0x6C0695ED, 0x1B01A57B, 0x8208F4C1, 0xF50FC457, 0x65B0D9C6, 0x12B7E950, 0x8BBEB8EA,
    0xFCB9887C, 0x62DD1DDF, 0x15DA2D49, 0x8CD37CF3, 0xFBD44C65, 0x4DB26158, 0x3AB551CE,
    0xA3BC0074, 0xD4BB30E2, 0x4ADFA541, 0x3DD895D7, 0xA4D1C46D, 0xD3D6F4FB, 0x4369E96A,
    0x346ED9FC, 0xAD678846, 0xDA60B8D0, 0x44042D73, 0x33031DE5, 0xAA0A4C5F, 0xDD0D7CC9,
    0x5005713C, 0x270241AA, 0xBE0B1010, 0xC90C2086, 0x5768B525, 0x206F85B3, 0xB966D409,
    0xCE61E49F, 0x5EDEF90E, 0x29D9C998, 0xB0D09822, 0xC7D7A8B4, 0x59B33D17, 0x2EB40D81,
    0xB7BD5C3B, 0xC0BA6CAD, 0xEDB88320, 0x9ABFB3B6, 0x03B6E20C, 0x74B1D29A, 0xEAD54739,
    0x9DD277AF, 0x04DB2615, 0x73DC1683, 0xE3630B12, 0x94643B84, 0x0D6D6A3E, 0x7A6A5AA8,
    0xE40ECF0B, 0x9309FF9D, 0x0A00AE27, 0x7D079EB1, 0xF00F9344, 0x8708A3D2, 0x1E01F268,
    0x6906C2FE, 0xF762575D, 0x806567CB, 0x196C3671, 0x6E6B06E7, 0xFED41B76, 0x89D32BE0,
    0x10DA7A5A, 0x67DD4ACC, 0xF9B9DF6F, 0x8EBEEFF9, 0x17B7BE43, 0x60B08ED5, 0xD6D6A3E8,
    0xA1D1937E, 0x38D8C2C4, 0x4FDFF252, 0xD1BB67F1, 0xA6BC5767, 0x3FB506DD, 0x48B2364B,
    0xD80D2BDA, 0xAF0A1B4C, 0x36034AF6, 0x41047A60, 0xDF60EFC3, 0xA867DF55, 0x316E8EEF,
    0x4669BE79, 0xCB61B38C, 0xBC66831A, 0x256FD2A0, 0x5268E236, 0xCC0C7795, 0xBB0B4703,
    0x220216B9, 0x5505262F, 0xC5BA3BBE, 0xB2BD0B28, 0x2BB45A92, 0x5CB36A04, 0xC2D7FFA7,
    0xB5D0CF31, 0x2CD99E8B, 0x5BDEAE1D, 0x9B64C2B0, 0xEC63F226, 0x756AA39C, 0x026D930A,
    0x9C0906A9, 0xEB0E363F, 0x72076785, 0x05005713, 0x95BF4A82, 0xE2B87A14, 0x7BB12BAE,
    0x0CB61B38, 0x92D28E9B, 0xE5D5BE0D, 0x7CDCEFB7, 0x0BDBDF21, 0x86D3D2D4, 0xF1D4E242,
    0x68DDB3F8, 0x1FDA836E, 0x81BE16CD, 0xF6B9265B, 0x6FB077E1, 0x18B74777, 0x88085AE6,
    0xFF0F6A70, 0x66063BCA, 0x11010B5C, 0x8F659EFF, 0xF862AE69, 0x616BFFD3, 0x166CCF45,
    0xA00AE278, 0xD70DD2EE, 0x4E048354, 0x3903B3C2, 0xA7672661, 0xD06016F7, 0x4969474D,
    0x3E6E77DB, 0xAED16A4A, 0xD9D65ADC, 0x40DF0B66, 0x37D83BF0, 0xA9BCAE53, 0xDEBB9EC5,
    0x47B2CF7F, 0x30B5FFE9, 0xBDBDF21C, 0xCABAC28A, 0x53B39330, 0x24B4A3A6, 0xBAD03605,
    0xCDD70693, 0x54DE5729, 0x23D967BF, 0xB3667A2E, 0xC4614AB8, 0x5D681B02, 0x2A6F2B94,
    0xB40BBE37, 0xC30C8EA1, 0x5A05DF1B, 0x2D02EF8D]

/-- One byte of `LTRX_CalculateCRC32`. -/
def crc32Step (crc : UInt32) (b : UInt8) : UInt32 :=
  (crc >>> 8) ^^^ crc32Table.getD ((crc ^^^ b.toUInt32) &&& 0xFF).toNat 0

/-- `LTRX_CalculateCRC32`. -/
def calculateCRC32 (data : List UInt8) : UInt32 :=
  if data.length = 0 then 0 else data.foldl crc32Step 0xFFFFFFFF ^^^ 0xFFFFFFFF

/-- `LTRX_VerifyCRC32`. -/
def verifyCRC32 (data : List UInt8) (expected : UInt32) : ReturnCode :=
  if calculateCRC32 data ≠ expected then .crc else .success

/-! ## Headers and payloads -/

/-- `LTRX_BeaconCmdHeader_t`. -/
structure BeaconCmdHeader where
  fromID : UInt8
  toID : UInt8
  typeID : UInt8
  length : UInt16
  crc : UInt32
deriving DecidableEq, Repr, Inhabited

open Layout in
/-- The header on the line: what `LTRX_ParseCommandHeader` reads. -/
def cmdHeaderLayout : Layout BeaconCmdHeader :=
  (u8.prod (u8.prod (u8.prod (u16.prod u32)))).iso
    (fun (a, b, c, n, k) => ⟨a, b, c, n, k⟩)
    (fun h => (h.fromID, h.toID, h.typeID, h.length, h.crc)) (fun _ => rfl)

/-- `LTRX_MessageHeader_Payload_t`, of the types 5 and 6. -/
structure MessageHeader where
  messageID : UInt32
  messageLength : UInt16
  messageCRC : UInt32
deriving DecidableEq, Repr

open Layout in
def messageHeaderLayout : Layout MessageHeader :=
  (u32.prod (u16.prod u32)).iso (fun (i, n, k) => ⟨i, n, k⟩)
    (fun h => (h.messageID, h.messageLength, h.messageCRC)) (fun _ => rfl)

/-- `LTRX_MessagePartRequest_Payload_t`, of type 7. -/
structure PartRequest where
  messageID : UInt32
  partStartByte : UInt16
  partLength : UInt16
deriving DecidableEq, Repr

open Layout in
def partRequestLayout : Layout PartRequest :=
  (u32.prod (u16.prod u16)).iso (fun (i, s, n) => ⟨i, s, n⟩)
    (fun r => (r.messageID, r.partStartByte, r.partLength)) (fun _ => rfl)

/-- `LTRX_MessagePartHeader_t`, in front of the bytes of type 9. -/
structure PartHeader where
  messageID : UInt32
  partStartByte : UInt16
  partLength : UInt16
  partCRC : UInt32
deriving DecidableEq, Repr, Inhabited

open Layout in
def partHeaderLayout : Layout PartHeader :=
  (u32.prod (u16.prod (u16.prod u32))).iso (fun (i, s, n, k) => ⟨i, s, n, k⟩)
    (fun h => (h.messageID, h.partStartByte, h.partLength, h.partCRC)) (fun _ => rfl)

/-- `LTRX_RX_BUF_SIZE`, `LTRX_TX_BUF_SIZE` and `LTRX_CSP_RX_READ_MAX`. -/
def bufSize : Nat := beaconHeaderSize + partHeaderLayout.size + maxMessagePartSize

/-- `strncpy` into a cleared `ErrorDescription`. -/
def errorDescription (desc : String) : List UInt8 :=
  have text := desc.toUTF8.toList.take (errorDescSize - 1)
  text ++ List.replicate (errorDescSize - text.length) 0

/-! ## Sending -/

/-- `LTRX_BuildCommandHeader`. -/
def buildCommandHeader (fromID toID typeID : UInt8) (length : UInt16) (crc : UInt32) :
    BeaconCmdHeader := ⟨fromID, toID, typeID, length, crc⟩

/-- `LTRX_SendCommand` up to the transport: what is handed over, if `tx_buf` holds it. -/
def serialise (header : BeaconCmdHeader) (payload txBuf : List UInt8) : Option (List UInt8) := do
  let buf ← Buffer.store txBuf 0 (cmdHeaderLayout.bytes header)
  let buf ← Buffer.storeIf (0 < payload.length) buf beaconHeaderSize payload
  let total := UInt16.ofNat (beaconHeaderSize + payload.length)
  Buffer.load buf 0 total.toNat

/-- What the flight side sends. -/
inductive Outgoing
  /-- `LTRX_SendMessageHeader`, type 5. -/
  | messageHeader (h : MessageHeader)
  /-- `LTRX_RequestMessagePart`, type 7. -/
  | partRequest (r : PartRequest)
  /-- `LTRX_ConfirmReadyForMessage`, type 8. -/
  | confirmReady
  /-- `LTRX_SendMessagePart`, type 9. -/
  | messagePart (messageID : UInt32) (start : UInt16) (bytes : List UInt8)
  /-- `LTRX_ConfirmMessagePartReceipt`, type 10. -/
  | partReceipt (r : PartRequest) (status : UInt8) (desc : String)
  /-- `LTRX_ConfirmMessageReceipt`, type 11. -/
  | messageReceipt (messageID : UInt32) (node : UInt8)
  /-- `LTRX_SendCommandAck`, type 15. -/
  | commandAck (header : BeaconCmdHeader) (status : UInt8) (desc : String)
deriving DecidableEq

namespace Outgoing

def typeID : Outgoing → UInt8
  | messageHeader _ => 5
  | partRequest _ => 7
  | confirmReady => 8
  | messagePart .. => 9
  | partReceipt .. => 10
  | messageReceipt .. => 11
  | commandAck .. => 15

def payload : Outgoing → List UInt8
  | messageHeader h => messageHeaderLayout.bytes h
  | partRequest r => partRequestLayout.bytes r
  | confirmReady => []
  | messagePart id start bytes =>
    partHeaderLayout.bytes ⟨id, start, UInt16.ofNat bytes.length, calculateCRC32 bytes⟩ ++ bytes
  | partReceipt r status desc =>
    partRequestLayout.bytes r ++ Layout.u8.bytes status ++ errorDescription desc
  | messageReceipt id node => Layout.u32.bytes id ++ Layout.u8.bytes node
  | commandAck h status desc =>
    cmdHeaderLayout.bytes h ++ Layout.u8.bytes status ++ errorDescription desc

def header (o : Outgoing) : BeaconCmdHeader :=
  buildCommandHeader defaultObcId defaultBeaconId o.typeID (UInt16.ofNat o.payload.length)
    (calculateCRC32 o.payload)

end Outgoing

/-- The checks of `LTRX_SendMessagePart`. -/
def checkPart (partLength : Nat) : ReturnCode :=
  if partLength = 0 then .nullPtr
  else if maxMessagePartSize < partLength then .length
  else .success

/-! ## Receiving -/

/-- What `csp_accept` and `csp_read` deliver: a packet, or nothing in time, on a port. -/
structure Arrival where
  packet : Option (List UInt8)
  dport : UInt8
deriving DecidableEq, Repr

/-- `LTRX_TransportWrapper` for receiving: the return code and `rx_buf`.  `listening` says that
there is a socket. -/
def transportRx (listening : Bool) (arrival : Option Arrival) (rxBuf : List UInt8)
    (rxSize : Int) : Option (Int × List UInt8) :=
  if rxSize = 0 ∨ listening = false then some (-1, rxBuf)
  else
    let readSize := if rxSize < 0 then (bufSize : Int) else rxSize
    match arrival with
    | none | some ⟨none, _⟩ => some (-1, rxBuf)
    | some ⟨some data, dport⟩ =>
      if data.length = 0 ∨ readSize < data.length then some (-1, rxBuf)
      else do
        let buf ← Buffer.store rxBuf 0 data
        if dport ≠ cspRxPort then some (-1, buf) else some (data.length, buf)

/-- The variables of a caller of `LTRX_ReceiveCommand`, and its static `rx_buf`. -/
structure Rx where
  header : BeaconCmdHeader
  payload : List UInt8
  actual : UInt16
  rxBuf : List UInt8
deriving DecidableEq, Repr

/-- `LTRX_ReceiveCommand`. -/
def receiveCommand (listening : Bool) (arrival : Option Arrival) (maxPayloadLength : UInt16)
    (v : Rx) : Option (ReturnCode × Rx) := do
  -- the size -1 asks the transport for whatever has arrived
  let (rc, rxBuf) ← transportRx listening arrival v.rxBuf (-1)
  let v := { v with rxBuf := rxBuf }
  if rc < 0 then return (.timeout, v)
  if rc > 65535 then return (.length, v)
  let rxLength := UInt16.ofNat rc.toNat
  if rxLength.toNat < beaconHeaderSize then return (.length, v)
  let raw ← Buffer.load rxBuf 0 beaconHeaderSize
  let v := { v with header := cmdHeaderLayout.read raw }
  if v.header.length > maxPayloadLength then return (.length, v)
  -- the sum is one of 16 bits
  if UInt16.ofNat (beaconHeaderSize + v.header.length.toNat) > rxLength then return (.length, v)
  if v.header.length > 0 then
    let start ← Buffer.load rxBuf beaconHeaderSize v.header.length.toNat
    if verifyCRC32 start v.header.crc ≠ .success then return (.crc, v)
    let payload ← Buffer.store v.payload 0 start
    return (.success, { v with payload := payload, actual := v.header.length })
  else return (.success, { v with actual := 0 })

/-- The variables of a caller of `LTRX_ReceiveMessagePart`, its static `rx_payload` and what is
below. -/
structure PartRx where
  partHdr : PartHeader
  partBuf : List UInt8
  actualPartBytes : UInt16
  rxPayload : List UInt8
  rxBuf : List UInt8
deriving DecidableEq, Repr

/-- `LTRX_ReceiveMessagePart`.  What its local variables hold at first does not matter. -/
def receiveMessagePart (listening : Bool) (arrival : Option Arrival) (partBufSize : UInt16)
    (header : BeaconCmdHeader) (actual : UInt16) (v : PartRx) : Option (ReturnCode × PartRx) := do
  let (rc, r) ← receiveCommand listening arrival
    (UInt16.ofNat (partHeaderLayout.size + maxMessagePartSize))
    ⟨header, v.rxPayload, actual, v.rxBuf⟩
  let v := { v with rxPayload := r.payload, rxBuf := r.rxBuf }
  if rc ≠ .success then return (rc, v)
  if r.header.typeID ≠ 9 then return (.protocol, v)
  if r.actual.toNat < partHeaderLayout.size then return (.length, v)
  let raw ← Buffer.load r.payload 0 partHeaderLayout.size
  let v := { v with partHdr := partHeaderLayout.read raw }
  let dataBytes := UInt16.ofNat (r.actual.toNat - partHeaderLayout.size)
  if dataBytes > partBufSize then return (.length, v)
  let data ← Buffer.load r.payload partHeaderLayout.size dataBytes.toNat
  if verifyCRC32 data v.partHdr.partCRC ≠ .success then return (.crc, v)
  let partBuf ← Buffer.store v.partBuf 0 data
  return (.success, { v with partBuf := partBuf, actualPartBytes := dataBytes })

end Ltrx
end FlightApps
