import FlightApps.Adcs.Replies

/-!
# The transports of the ADCS

`cubeObc_sendReceive` of `adcs_utils.c` brings a request to the ADCS over the UART or as a CSP packet,
and `ADCS_SetCommand_Common` and `ADCS_GetTelemetry_Common` are the two kinds of request.  The data of
both transports goes through one buffer that lives on between the calls.
-/

set_option autoImplicit false

namespace FlightApps
namespace Adcs

open Uart

/-! ## The buffer -/

/-- `handle[endpoint.type].buffer`. -/
structure CommsBuffer where
  bytes : List UInt8
  length_bytes : bytes.length = commsBufferSize

/-- Copying to the front of the buffer. -/
def CommsBuffer.store (buffer : CommsBuffer) (data : List UInt8) : CommsBuffer where
  bytes := (data ++ buffer.bytes.drop data.length).take commsBufferSize
  length_bytes := by
    rw [List.length_take, List.length_append, List.length_drop, buffer.length_bytes]
    omega

/-! ## Requests -/

/-- `V1_TLM_ID_START`. -/
def tlmIdStart : UInt8 := 128

/-- `ADCS_ID_SET_RESET`. -/
def idSetReset : UInt8 := 1

/-- `CSP_HEADER_SIZE`. -/
def cspHeaderSize : Nat := 2

/-- `CSP_UNKNOWN_LEN`. -/
def cspUnknownLen : Int := -1

namespace MsgType

/-- `V1_TCTLM_CAN_TRANSPORT__TYPE_TC`. -/
def tc : UInt8 := 1

/-- `V1_TCTLM_CAN_TRANSPORT__TYPE_TC_RESP`. -/
def tcResp : UInt8 := 2

/-- `V1_TCTLM_CAN_TRANSPORT__TYPE_TC_NACK`. -/
def tcNack : UInt8 := 3

/-- `V1_TCTLM_CAN_TRANSPORT__TYPE_TLM`. -/
def tlm : UInt8 := 4

/-- `V1_TCTLM_CAN_TRANSPORT__TYPE_TLM_RESP`. -/
def tlmResp : UInt8 := 5

/-- `V1_TCTLM_CAN_TRANSPORT__TYPE_TLM_NACK`. -/
def tlmNack : UInt8 := 6

/-- `V1_TCTLM_CAN_TRANSPORT__TYPE_TLM_RESP_EXT`. -/
def tlmRespExt : UInt8 := 8

end MsgType

/-- `TctlmCommsMasterSvc_Endpoint`. -/
structure Target where
  passthrough : Bool
  id : UInt8

/-- A telecommand. -/
def Target.isTc (target : Target) : Bool := decide (target.id < tlmIdStart)

def Target.msgType (target : Target) : UInt8 := if target.isTc then MsgType.tc else MsgType.tlm

/-- `CSP_PORT_TCTLM` and `CSP_PORT_PASSTHROUGH`. -/
def Target.dstPort (target : Target) : UInt8 := if target.passthrough then 48 else 8

/-! ## What is answered -/

/-- What the UART does during a call, from the end of `ADCS_UartRxFlush` on. -/
structure UartAnswers where
  /-- Whether there is a handle. -/
  handle : Bool
  /-- Whether what is written gets through. -/
  write : List UInt8 → Bool
  /-- The bytes that come until a read brings none. -/
  bytes : List UInt8
  /-- Whether that read is a timeout. -/
  timeout : Bool

/-- What CSP does during a call. -/
structure CspAnswers where
  /-- Whether the node is configured. -/
  configured : Bool
  /-- The reply that comes, if one comes. -/
  packet : Option (List UInt8)
  /-- What `csp_transaction_w_opts` returns, for a port, a request and a size of the reply. -/
  transaction : UInt8 → List UInt8 → Int → Int
  transaction_none : packet = none → ∀ port request rxSize, rxSize ≠ 0 →
    transaction port request rxSize = 0
  transaction_some : ∀ reply, packet = some reply → ∀ port request rxSize, rxSize ≠ 0 →
    transaction port request rxSize =
      if rxSize = cspUnknownLen ∨ rxSize = reply.length then (reply.length : Int) else 0

/-- What is answered on the transport of `ADCS_InterfaceTransportMode`. -/
inductive Traffic
  | uart (answers : UartAnswers)
  | csp (answers : CspAnswers)

/-! ## The UART -/

/-- The branch of `cubeObc_sendReceive` for the UART. -/
def sendReceiveUart (target : Target) (datalen : Nat) (buffer : CommsBuffer)
    (answers : UartAnswers) : ErrorCode × CommsBuffer :=
  if answers.handle = false then (.read, buffer)
  else
    match writeFrame target.passthrough target.id
        (if target.isTc then buffer.bytes.take datalen else []) with
    | .error code => (code, buffer)
    | .ok frame =>
      if answers.write frame = false then (.write, buffer)
      else if target.isTc ∧ target.id = idSetReset then (.ok, buffer)
      else
        let received := readFrame target.passthrough target.id buffer.bytes commsBufferSize
          answers.timeout answers.bytes
        let buffer : CommsBuffer := ⟨received.data, readFrame_frame.1.trans buffer.length_bytes⟩
        if received.code ≠ .ok then (received.code, buffer)
        else if target.isTc = false ∧ received.dataLen ≠ datalen then
          (if received.dataLen < datalen then .sizel else .sizeh, buffer)
        else (.ok, buffer)

/-! ## CSP -/

/-- `CFE_SRL_BAD_ARGUMENT`. -/
def srlBadArgument : Int := -1073676286

/-- `CFE_SRL_TRANSACTION_ERR`. -/
def srlTransactionErr : Int := -1073676242

/-- `CFE_SRL_ApiTransactionCSP` with `CFE_SRL_TransactionCSP`. -/
def apiTransactionCsp (answers : CspAnswers) (port : UInt8) (request : List UInt8) (rxSize : Int) :
    Int :=
  if answers.configured = false then srlBadArgument
  else
    let status := answers.transaction port request rxSize
    if status = 0 then srlTransactionErr else status

/-- What is returned for a reply of this length. -/
def checkCsp (target : Target) (datalen : Nat) (buffer : CommsBuffer) (rx : List UInt8) (res : Int) :
    ErrorCode × CommsBuffer :=
  let rxMsgType := rx.getD 0 0
  if res < cspHeaderSize then (.sizel, buffer)
  else if rx.getD 1 0 ≠ target.id then (.tctlmId, buffer)
  else if rxMsgType = MsgType.tcNack ∨ rxMsgType = MsgType.tlmNack then
    if (target.isTc ∧ rxMsgType ≠ MsgType.tcNack) ∨
        (target.isTc = false ∧ rxMsgType ≠ MsgType.tlmNack) then
      (.protocol, buffer)
    else if res ≤ cspHeaderSize then (.sizel, buffer)
    else (nack2ErrorCode (rx.getD cspHeaderSize 0), buffer)
  else if target.isTc then
    if rxMsgType ≠ MsgType.tcResp then (.protocol, buffer)
    else if res < 3 then (.sizel, buffer)
    else if 3 < res then (.sizeh, buffer)
    else (.ok, buffer)
  else if rxMsgType ≠ MsgType.tlmResp ∧ rxMsgType ≠ MsgType.tlmRespExt then (.protocol, buffer)
  else if res < datalen + cspHeaderSize then (.sizel, buffer)
  else if (datalen + cspHeaderSize : Int) < res then (.sizeh, buffer)
  else (.ok, buffer.store ((rx.drop cspHeaderSize).take datalen))

/-- The branch of `cubeObc_sendReceive` for CSP. -/
def sendReceiveCsp (target : Target) (datalen : Nat) (buffer : CommsBuffer) (answers : CspAnswers) :
    ErrorCode × CommsBuffer :=
  let header := [target.msgType, target.id]
  if target.isTc ∧ target.id = idSetReset then
    let res := apiTransactionCsp answers target.dstPort (header ++ buffer.bytes.take datalen) 0
    (if res = 1 then .ok else if res = srlTransactionErr then .tout else .write, buffer)
  else
    let res :=
      if target.isTc then
        apiTransactionCsp answers target.dstPort (header ++ buffer.bytes.take datalen) cspUnknownLen
      else apiTransactionCsp answers target.dstPort header (datalen + cspHeaderSize)
    if res ≤ 0 then (if res = srlTransactionErr then .tout else .read, buffer)
    else checkCsp target datalen buffer (answers.packet.getD []) res

/-! ## The calls -/

/-- `cubeObc_sendReceive`. -/
def cubeObcSendReceive (target : Target) (datalen : Nat) (buffer : CommsBuffer) (answers : Traffic) :
    ErrorCode × CommsBuffer :=
  if commsBufferSize < datalen then (.sizeh, buffer)
  else
    match answers with
    | .uart answers => sendReceiveUart target datalen buffer answers
    | .csp answers => sendReceiveCsp target datalen buffer answers

/-- `ADCS_SetCommand_Common`; `passthrough` is that of the endpoint. -/
def setCommandCommon (passthrough : Bool) (cmdId : UInt16) (setVal : Option (List UInt8)) (size : Nat)
    (buffer : CommsBuffer) (answers : Traffic) : ErrorCode × CommsBuffer :=
  if commsBufferSize < size then (.sizeh, buffer)
  else if 0 < size ∧ setVal = none then (.nullptr, buffer)
  else
    cubeObcSendReceive ⟨passthrough, cmdId.toUInt8⟩ size
      (match setVal with
        | some value => buffer.store (value.take size)
        | none => buffer)
      answers

/-- `ADCS_GetTelemetry_Common`, which also says what is left in the caller's variable. -/
def getTelemetryCommon (passthrough : Bool) (tlmId : UInt16) (returnVal : Option (List UInt8))
    (bufferSize : Nat) (buffer : CommsBuffer) (answers : Traffic) :
    ErrorCode × Option (List UInt8) × CommsBuffer :=
  if commsBufferSize < bufferSize then (.sizeh, returnVal, buffer)
  else if 0 < bufferSize ∧ returnVal = none then (.nullptr, returnVal, buffer)
  else
    match cubeObcSendReceive ⟨passthrough, tlmId.toUInt8⟩ bufferSize buffer answers with
    | (status, buffer) =>
      if status ≠ .ok then (status, returnVal, buffer)
      else
        (.ok, returnVal.map fun value => buffer.bytes.take bufferSize ++ value.drop bufferSize, buffer)

end Adcs
end FlightApps
