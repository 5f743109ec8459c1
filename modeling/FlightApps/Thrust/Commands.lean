import FlightApps.Lib.Layout
import FlightApps.Thrust.Packet

/-!
# The commands of the thruster app

A command of the device sends a packet and takes the next packet on the line as its answer, if that
has the identifier and the length that belong to the command (`transact`).  The app checks what comes
over the software bus, talks to the device, takes the state of the module from the answer, counts and
reports.

Nothing is thrown away before a command is sent, so an answer that comes late is still on the line
when the next command is.
-/

set_option autoImplicit false

namespace FlightApps
namespace Thrust

open Serial (Call)

/-! ## The device -/

/-- `PACK_U32_LE`. -/
def packU32LE (v : UInt32) : Bytes :=
  [(v &&& 0xFF).toUInt8, ((v >>> 8) &&& 0xFF).toUInt8, ((v >>> 16) &&& 0xFF).toUInt8,
    ((v >>> 24) &&& 0xFF).toUInt8]

/-- `THRUST_PKT_MSGTYPE_TC` and `THRUST_PKT_MSGTYPE_TM`. -/
def msgTypeTC : UInt8 := 0
def msgTypeTM : UInt8 := 1

/-- What a transaction finds: two buffers that nothing has cleared, and what `write` gives. -/
structure Setting where
  txBuf : Bytes
  rxBuf : Bytes
  write : Call
  length_txBuf : txBuf.length = txBufSize
  length_rxBuf : rxBuf.length = rxBufSize

/-- The line from the module, the last response, and what has been given to `write`. -/
structure Device where
  line : Polled UInt8
  lastResponse : Bytes
  wire : List Bytes

/-- `ValidatePacketMeta`. -/
def validatePacketMeta (buf : Bytes) (payloadLen msgType msgId expectedLen : UInt8) : Status :=
  if buf.getD 3 0 ≠ msgType ∨ buf.getD 4 0 ≠ msgId ∨ payloadLen ≠ expectedLen then .errPacket
  else .success

/-- Receiving to `rx_buf` and checking what has been received. -/
def receive (msgId replyLen : UInt8) (rxBuf : Bytes) (d : Device) :
    Option (Except Status Bytes × Device) :=
  (recvPacket true ⟨d.line, d.lastResponse, rxBuf⟩).map fun (ret, s) =>
    let d := { d with line := s.line, lastResponse := s.lastResponse }
    match ret with
    | .error status => (.error status, d)
    | .ok payloadLen =>
      if validatePacketMeta s.buf payloadLen msgTypeTM msgId replyLen ≠ .success then
        (.error .errPacket, d)
      else (.ok s.buf, d)

/-- What the commands have in common: sending, receiving and checking. -/
def transact (msgId payloadLen : UInt8) (payload : Option Bytes) (replyLen : UInt8) (e : Setting)
    (d : Device) : Option (Except Status Bytes × Device) :=
  (sendPacket true msgTypeTC msgId payloadLen payload e.txBuf e.write).bind fun (status, bytes) =>
    let d := { d with lastResponse := [], wire := d.wire ++ [bytes] }
    if status ≠ .success then some (.error status, d)
    else receive msgId replyLen e.rxBuf d

/-- `THRUST_DefaultResponse_t`. -/
structure DefaultResponse where
  resultCode : UInt16
  currentStatus : UInt16
  faultFlags : UInt16
  interlockFlags : UInt16
deriving DecidableEq

/-- What `RecvDefaultResponse` takes from `rx_buf`. -/
def defaultResponse (rxBuf : Bytes) : DefaultResponse :=
  ⟨readU16LE rxBuf 6, readU16LE rxBuf 8, readU16LE rxBuf 10, readU16LE rxBuf 12⟩

/-- `THRUST_N_DEFAULT_RESP`. -/
def nDefaultResp : UInt8 := 8

/-- A command that is answered with a default response: `SendPacket` and `RecvDefaultResponse`.  The
result is only looked at where the caller wants the response. -/
def defaultCommand (msgId payloadLen : UInt8) (payload : Option Bytes)
    (outResp : Option DefaultResponse) (e : Setting) (d : Device) :
    Option (Status × Option DefaultResponse × Device) :=
  (transact msgId payloadLen payload nDefaultResp e d).map fun
    | (.error status, d) => (status, outResp, d)
    | (.ok rxBuf, d) =>
      match outResp with
      | none => (.success, none, d)
      | some _ =>
        (if (defaultResponse rxBuf).resultCode ≠ 0 then .errNack else .success,
          some (defaultResponse rxBuf), d)

/-- A command that is answered with data: `SendPacket`, `RecvPacket` and a copy. -/
def dataCommand (msgId replyLen : UInt8) (returnVal : Option Bytes) (e : Setting) (d : Device) :
    Option (Status × Option Bytes × Device) :=
  (transact msgId 0 none replyLen e d).map fun
    | (.error status, d) => (status, returnVal, d)
    | (.ok rxBuf, d) => (.success, returnVal.map fun _ => (rxBuf.drop 6).take replyLen.toNat, d)

/-- `THRUST_Ping`. -/
def ping := defaultCommand 1 0 none

/-- `THRUST_ResetModule`. -/
def resetModule (targetMode : UInt32) := defaultCommand 2 4 (some (packU32LE targetMode))

/-- `THRUST_SetMode`. -/
def setMode (targetMode : UInt32) := defaultCommand 3 4 (some (packU32LE targetMode))

/-- `THRUST_ArmPropulsion`. -/
def armPropulsion (armKey timeoutSec : UInt16) :=
  defaultCommand 4 4 (some (packU16LE armKey ++ packU16LE timeoutSec))

/-- `THRUST_DisarmPropulsion`. -/
def disarmPropulsion := defaultCommand 5 0 none

/-- `THRUST_GetHKData`. -/
def getHKData := dataCommand 10 48

/-- `THRUST_GetStatus`. -/
def getStatus := dataCommand 11 16

/-- `THRUST_MainThrusterFire`. -/
def mainThrusterFire (fireTime : UInt32) (ignitionTime fireKey : UInt16) :=
  defaultCommand 20 8 (some (packU32LE fireTime ++ (packU16LE ignitionTime ++ packU16LE fireKey)))

/-- `THRUST_MainThrusterAbort`. -/
def mainThrusterAbort := defaultCommand 21 0 none

/-- `THRUST_CGThrusterPulse`. -/
def cgThrusterPulse (thrusterId : UInt16) (pulseWidth : UInt32) (fireKey : UInt16) :=
  defaultCommand 30 8 (some (packU16LE thrusterId ++ (packU32LE pulseWidth ++ packU16LE fireKey)))

/-- `THRUST_CGThrusterAbort`. -/
def cgThrusterAbort := defaultCommand 31 0 none

/-- `THRUST_GetFaultLog`. -/
def getFaultLog := dataCommand 40 40

/-- `THRUST_ClearFault`. -/
def clearFault := defaultCommand 41 0 none

/-! ## The memory of the app -/

/-- `THRUST_MODE_STANDBY`, `THRUST_MODE_ARMED` and `THRUST_MODE_FIRING`. -/
def modeStandby : UInt32 := 1
def modeArmed : UInt32 := 2
def modeFiring : UInt32 := 3

/-- `THRUST_RESULT_ACK`. -/
def resultAck : UInt8 := 0

/-- `THRUST_AppData_t`, without what only the start and the telemetry use. -/
structure AppData where
  cmdCounter : UInt8
  errCounter : UInt8
  scheduledHkEnabled : UInt8
  currentMode : UInt32
  currentStatus : UInt16
  faultFlags : UInt16
  interlockFlags : UInt16
  lastMsgId : UInt8
  lastResult : UInt8
deriving DecidableEq

/-- The statuses that the app reports. -/
inductive Code
  | device (status : Status)
  | errInvalidParam
  | errInterlock
  | esBadArgument
  | wrongMsgLength
  | unknownMsgId
  | badCommandCode
deriving DecidableEq

/-- `CFE_SUCCESS`. -/
def Code.success : Code := .device .success

/-- The values of the `THRUST_ERR` codes of the device. -/
def Status.value : Status → Int
  | .success => 0
  | .errWrite => -4
  | .errTimeout => -5
  | .errCrc => -6
  | .errNack => -7
  | .errHeader => -8
  | .errPacket => -9

/-- The values of the codes, as signed numbers of 32 bits. -/
def Code.value : Code → Int
  | .device status => status.value
  | .errInvalidParam => -2
  | .errInterlock => -3
  | .esBadArgument => 0xc400000a - 0x100000000
  | .wrongMsgLength => 0xc8000002 - 0x100000000
  | .unknownMsgId => 0xc8000003 - 0x100000000
  | .badCommandCode => 0xc8000004 - 0x100000000

/-- `RPT_ReturnType_t`, as far as the app uses it. -/
inductive RetType
  | success
  | hw
  | app
deriving DecidableEq, Repr

/-- `RPT_Report_t`, with as much of `ReturnValue` as `ReturnDataSize` says. -/
structure Report where
  msgId : UInt16
  commandCode : UInt8
  returnType : RetType
  returnCode : Code
  returnValue : Bytes
deriving DecidableEq

/-- `RPT_RET_VALUE_BUF_SIZE`. -/
def retValueBufSize : Nat := 512

/-- The app, with the reports it has sent. -/
structure App where
  data : AppData
  device : Device
  reports : List Report

/-- `THRUST_CMD_MID` and `THRUST_SEND_HK_MID`. -/
def cmdMid : UInt16 := 0x1800 ||| 0x70
def sendHkMid : UInt16 := 0x1800 ||| 0x71

/-- The kind of result that a report names. -/
def retType (status : Code) : RetType :=
  if status = .success then .success
  else if status.value ≤ Status.errWrite.value ∧ Status.errPacket.value ≤ status.value then .hw
  else .app

/-- `THRUST_HandleReportForMid`. -/
def App.reportForMid (a : App) (msgId : UInt16) (status : Code) (cc : UInt8) (data : Bytes) : App :=
  { a with reports :=
      a.reports ++ [⟨msgId, cc, retType status, status, data.take retValueBufSize⟩] }

/-- `THRUST_HandleReport`. -/
def App.report (a : App) (status : Code) (cc : UInt8) (data : Bytes) : App :=
  a.reportForMid cmdMid status cc data

/-- `THRUST_HandleDeviceReportForMid`. -/
def App.deviceReportForMid (a : App) (msgId : UInt16) (status : Code) (cc : UInt8) : App :=
  a.reportForMid msgId status cc a.device.lastResponse

/-- `THRUST_HandleDeviceReport`. -/
def App.deviceReport (a : App) (status : Code) (cc : UInt8) : App :=
  a.deviceReportForMid cmdMid status cc

def AppData.err (d : AppData) : AppData := { d with errCounter := d.errCounter + 1 }

def AppData.cmd (d : AppData) : AppData := { d with cmdCounter := d.cmdCounter + 1 }

/-- A status is counted. -/
def AppData.count (d : AppData) (status : Code) : AppData :=
  if status ≠ .success then d.err else d.cmd

/-- `THRUST_PostCmdProcess`. -/
def AppData.postCmdProcess (d : AppData) (resp : DefaultResponse) : AppData :=
  { d with
    currentStatus := resp.currentStatus
    faultFlags := resp.faultFlags
    interlockFlags := resp.interlockFlags }

/-- `THRUST_UpdateModeTracking`. -/
def AppData.updateModeTracking (currentMode : UInt32) (lastMsgId lastResult : UInt8) (d : AppData) :
    AppData :=
  { d with currentMode, lastMsgId, lastResult }

/-! ## The handlers -/

/-- `THRUST_NoopCmd`. -/
def noopCmd (a : App) : App :=
  { a with data := a.data.cmd }.report .success 0
    ("THRUST NOOP CMD: YOSI IN SPACE".toList.map (fun c : Char => c.val.toUInt8) ++ [0])

/-- `THRUST_ResetCountersCmd`. -/
def resetCountersCmd (a : App) : App :=
  { a with data := { a.data with cmdCounter := 0, errCounter := 0 } }.report .success 1 []

/-- A command of the device with a default response, and what the app makes of a success. -/
def respondedCmd (cc : UInt8)
    (send : Option DefaultResponse → Setting → Device → Option (Status × Option DefaultResponse × Device))
    (succeed : AppData → AppData × Code) (e : Setting) (a : App) : Option App :=
  (send (some ⟨0, 0, 0, 0⟩) e a.device).map fun (status, resp, device) =>
    let (data, code) :=
      if status = .success then succeed (a.data.postCmdProcess (resp.getD ⟨0, 0, 0, 0⟩))
      else (a.data, .device status)
    let a := ({ a with data, device } : App).deviceReport code cc
    { a with data := a.data.count code }

/-- A success that changes no more than what the response says. -/
def kept (d : AppData) : AppData × Code := (d, .success)

/-- A success after which the mode is known. -/
def tracked (mode : UInt32) (cc : UInt8) (d : AppData) : AppData × Code :=
  (d.updateModeTracking mode cc resultAck, .success)

/-- `THRUST_PingCmd`. -/
def pingCmd := respondedCmd 2 ping kept

/-- `THRUST_ResetModuleCmd`. -/
def resetModuleCmd (targetMode : UInt32) := respondedCmd 3 (resetModule targetMode) kept

/-- `THRUST_SetModeCmd`. -/
def setModeCmd (targetMode : UInt32) := respondedCmd 4 (setMode targetMode) (tracked targetMode 4)

/-- `THRUST_ArmCmd`. -/
def armCmd (armKey timeoutSec : UInt16) :=
  respondedCmd 5 (armPropulsion armKey timeoutSec) fun d =>
    if d.interlockFlags ≠ 0 then (d, .errInterlock) else tracked modeArmed 5 d

/-- `THRUST_DisarmCmd`. -/
def disarmCmd := respondedCmd 6 disarmPropulsion (tracked modeStandby 6)

/-- `THRUST_MainThrusterFireCmd`. -/
def mainThrusterFireCmd (fireTime : UInt32) (ignitionTime fireKey : UInt16) (e : Setting) (a : App) :
    Option App :=
  if fireTime.toNat ≤ ignitionTime.toNat then
    some ({ a with data := a.data.err }.report .errInvalidParam 8 [])
  else
    respondedCmd 8 (mainThrusterFire fireTime ignitionTime fireKey) (tracked modeFiring 8) e a

/-- `THRUST_MainAbortCmd`. -/
def mainAbortCmd := respondedCmd 9 mainThrusterAbort kept

/-- `THRUST_CGPulseCmd`. -/
def cgPulseCmd (thrusterId : UInt16) (pulseWidth : UInt32) (fireKey : UInt16) :=
  respondedCmd 10 (cgThrusterPulse thrusterId pulseWidth fireKey) kept

/-- `THRUST_CGAbortCmd`. -/
def cgAbortCmd := respondedCmd 11 cgThrusterAbort kept

/-- `THRUST_ClearFaultCmd`. -/
def clearFaultCmd := respondedCmd 13 clearFault kept

/-- A command of the device that is answered with data, and what the app takes from it. -/
def requestedCmd (cc : UInt8) (size : Nat)
    (send : Option Bytes → Setting → Device → Option (Status × Option Bytes × Device))
    (take : Bytes → AppData → AppData) (e : Setting) (a : App) : Option App :=
  (send (some (List.replicate size 0)) e a.device).map fun (status, value, device) =>
    let a := ({ a with device } : App).deviceReport (.device status) cc
    let data := if status = .success then take (value.getD []) a.data else a.data
    { a with data := data.count (.device status) }

/-- `THRUST_StatusData_Payload_t`: the mode, `LastMsgId`, `LastResult`, `ResultCode`,
`CurrentStatus`, `FaultFlags`, `InterlockFlags` and `Reserved`. -/
def statusData : Layout (UInt32 × UInt8 × UInt8 × UInt16 × UInt16 × UInt16 × UInt16 × UInt16) :=
  Layout.u32.prod (Layout.u8.prod (Layout.u8.prod (Layout.u16.prod (Layout.u16.prod
    (Layout.u16.prod (Layout.u16.prod Layout.u16))))))

/-- What `THRUST_ReqStatusCmd` takes. -/
def AppData.synchronize (value : Bytes) (d : AppData) : AppData :=
  let (currentMode, lastMsgId, lastResult, _, currentStatus, faultFlags, interlockFlags, _) :=
    statusData.read value
  { d with currentMode, currentStatus, faultFlags, interlockFlags, lastMsgId, lastResult }

/-- `THRUST_ReqStatusCmd`. -/
def reqStatusCmd := requestedCmd 7 16 getStatus AppData.synchronize

/-- `THRUST_ReqFaultLogCmd`. -/
def reqFaultLogCmd := requestedCmd 12 40 getFaultLog fun _ d => d

/-- `THRUST_SendHkCmd`, where a ground command asks for it. -/
def sendHkCmd := requestedCmd 14 48 getHKData fun _ d => d

/-- `THRUST_SendScheduledHkCmd`. -/
def sendScheduledHkCmd (e : Setting) (a : App) : Option App :=
  if a.data.scheduledHkEnabled = 0 then some a
  else (getHKData (some (List.replicate 48 0)) e a.device).map fun (status, _, device) =>
    { a with data := if status ≠ .success then a.data.err else a.data, device }

/-- `THRUST_ScheduledHkEnableCmd`. -/
def scheduledHkEnableCmd (enabled : UInt8) (a : App) : App :=
  if enabled > 1 then { a with data := a.data.err }.report .esBadArgument 15 [enabled]
  else { a with data := { a.data with scheduledHkEnabled := enabled }.cmd }.report .success 15 [enabled]

/-! ## Dispatch -/

/-- A message of the software bus: what the app reads of its header, and what follows the header of a
command. -/
structure Message where
  mid : UInt16
  fcnCode : UInt16
  payload : Bytes

/-- `sizeof(CFE_MSG_CommandHeader_t)`. -/
def commandHeaderSize : Nat := 8

/-- What `CFE_MSG_GetSize` gives. -/
def Message.size (m : Message) : Nat := commandHeaderSize + m.payload.length

/-- `THRUST_VerifyCmdLength` for a payload of `n`, and the handler that is called if it agrees. -/
def App.verified (a : App) (m : Message) (n : Nat) (handler : App → Option App) : Option App :=
  if commandHeaderSize + n ≠ m.size then
    some ({ a with data := a.data.err }.reportForMid m.mid .wrongMsgLength m.fcnCode.toUInt8
      (leBytes 4 m.size ++ leBytes 4 (commandHeaderSize + n)))
  else handler a

/-- `THRUST_Arm_Payload_t`, `THRUST_MainFire_Payload_t` and `THRUST_CGPulse_Payload_t`. -/
def armPayload : Layout (UInt16 × UInt16) := Layout.u16.prod Layout.u16
def mainFirePayload : Layout (UInt32 × UInt16 × UInt16) :=
  Layout.u32.prod (Layout.u16.prod Layout.u16)
def cgPulsePayload : Layout (UInt16 × UInt32 × UInt16) :=
  Layout.u16.prod (Layout.u32.prod Layout.u16)

/-- `THRUST_ProcessGroundCommand`. -/
def processGroundCommand (m : Message) (e : Setting) (a : App) : Option App :=
  match m.fcnCode.toNat with
  | 0 => a.verified m 0 fun a => some (noopCmd a)
  | 1 => a.verified m 0 fun a => some (resetCountersCmd a)
  | 2 => a.verified m 0 (pingCmd e)
  | 3 => a.verified m 4 (resetModuleCmd (Layout.u32.read m.payload) e)
  | 4 => a.verified m 4 (setModeCmd (Layout.u32.read m.payload) e)
  | 5 => a.verified m 4 (armCmd (armPayload.read m.payload).1 (armPayload.read m.payload).2 e)
  | 6 => a.verified m 0 (disarmCmd e)
  | 7 => a.verified m 0 (reqStatusCmd e)
  | 8 => a.verified m 8
      (let (fireTime, ignitionTime, fireKey) := mainFirePayload.read m.payload
       mainThrusterFireCmd fireTime ignitionTime fireKey e)
  | 9 => a.verified m 0 (mainAbortCmd e)
  | 10 => a.verified m 8
      (let (thrusterId, pulseWidth, fireKey) := cgPulsePayload.read m.payload
       cgPulseCmd thrusterId pulseWidth fireKey e)
  | 11 => a.verified m 0 (cgAbortCmd e)
  | 12 => a.verified m 0 (reqFaultLogCmd e)
  | 13 => a.verified m 0 (clearFaultCmd e)
  | 14 => a.verified m 0 (sendHkCmd e)
  | 15 => a.verified m 1 fun a => some (scheduledHkEnableCmd (Layout.u8.read m.payload) a)
  | _ => some ({ a with data := a.data.err }.report .badCommandCode m.fcnCode.toUInt8
      (leBytes 2 m.fcnCode.toNat))

/-- `THRUST_TaskPipe`. -/
def taskPipe (m : Message) (e : Setting) (a : App) : Option App :=
  if m.mid = cmdMid then processGroundCommand m e a
  else if m.mid = sendHkMid then a.verified m 0 (sendScheduledHkCmd e)
  else some ({ a with data := a.data.err }.reportForMid m.mid .unknownMsgId 0
    (leBytes 4 m.mid.toNat))

/-- The loop of `THRUST_AppMain`, over the messages that come. -/
def appMain (a : App) : List (Message × Setting) → Option App
  | [] => some a
  | (m, e) :: ms => (taskPipe m e a).bind fun a => appMain a ms

end Thrust
end FlightApps
