import FlightApps.Adcs.Codes

/-!
# The UART frames of the ADCS

A frame starts with an escape and a start byte, and ends with an escape and an end byte; an escape in
its data is doubled.  `ADCS_UartReadFrame` of `adcs_utils.c` takes one byte after the other until a
frame has ended, or until a read brings no byte.
-/

set_option autoImplicit false

namespace FlightApps
namespace Adcs
namespace Uart

/-- `ADCS_UART_ESCAPE`. -/
def escape : UInt8 := 0x1F

/-- `ADCS_UART_EOM`. -/
def eom : UInt8 := 0xFF

/-- `ADCS_UART_SOM_NORMAL_PASS` and `ADCS_UART_SOM_NORMAL_PLAIN`. -/
def somNormal (passthrough : Bool) : UInt8 := if passthrough then 0x7E else 0x7F

/-- `ADCS_UART_SOM_ACK_PASS` and `ADCS_UART_SOM_ACK_PLAIN`. -/
def somAck (passthrough : Bool) : UInt8 := if passthrough then 0x06 else 0x07

/-- `ADCS_UART_SOM_NACK_PASS` and `ADCS_UART_SOM_NACK_PLAIN`. -/
def somNack (passthrough : Bool) : UInt8 := if passthrough then 0x0E else 0x0F

/-- `COMMS_BUFFER_SIZE`. -/
def commsBufferSize : Nat := 258

/-- `ADCS_UART_PROTOCOL_BUFFER_SIZE`. -/
def protocolBufferSize : Nat := 3 + 2 + commsBufferSize * 2

/-- What is written for a byte of the data. -/
def escaped (b : UInt8) : List UInt8 := if b = escape then [escape, b] else [b]

/-- The frame that `ADCS_UartWriteFrame` writes, if it fits the buffer for it. -/
def writeFrame (passthrough : Bool) (id : UInt8) (data : List UInt8) : Except ErrorCode (List UInt8) :=
  if protocolBufferSize < 3 + 2 + data.length * 2 then .error .sizeh
  else .ok ([escape, somNormal passthrough, id] ++ data.flatMap escaped ++ [escape, eom])

/-! ## Reading -/

/-- The variables of `ADCS_UartReadFrame`, and the buffer that it fills. -/
structure Rx where
  escaped : Bool
  som : Bool
  validRxWindow : Bool
  nack : Bool
  passthrough : Bool
  done : Bool
  tctlmId : UInt8
  dataIdx : Nat
  data : List UInt8

/-- The variables at the start. -/
def Rx.start (data : List UInt8) : Rx where
  escaped := false
  som := false
  validRxWindow := false
  nack := false
  passthrough := false
  done := false
  tctlmId := 0
  dataIdx := 0
  data := data

/-- A byte is kept, if there is room. -/
def Rx.keep (rx : Rx) (dataLen : Nat) (byte : UInt8) : Option Rx :=
  if dataLen ≤ rx.dataIdx then none
  else some { rx with data := rx.data.set rx.dataIdx byte, dataIdx := rx.dataIdx + 1 }

/-- The body of the loop for a byte; it has no result where the data gets too long. -/
def Rx.byte (rx : Rx) (dataLen : Nat) (byte : UInt8) : Option Rx :=
  if rx.escaped then
    if byte = somAck false ∨ byte = somAck true then
      some { rx with escaped := false, som := true, passthrough := byte == somAck true }
    else if byte = somNack false ∨ byte = somNack true then
      some { rx with
        escaped := false, som := true, nack := true, passthrough := byte == somNack true }
    else if byte = eom then some { rx with escaped := false, done := true }
    else if byte = escape ∧ rx.validRxWindow then
      { rx with escaped := false }.keep dataLen byte
    else some { rx with escaped := false }
  else if byte = escape then some { rx with escaped := true }
  else if rx.som then some { rx with tctlmId := byte, validRxWindow := true, som := false }
  else if rx.validRxWindow then rx.keep dataLen byte
  else some rx

/-- How the loop ends. -/
inductive Ending
  /-- At the end of a frame. -/
  | done
  /-- With an error. -/
  | error (code : ErrorCode)
deriving DecidableEq

/-- What a read without a byte is reported as. -/
def failed (timeout : Bool) : ErrorCode := if timeout then .tout else .read

/-- The loop, over the bytes that come until a read brings none.  It also says what is left of the
bytes. -/
def readLoop (dataLen : Nat) (timeout : Bool) : List UInt8 → Rx → Ending × Rx × List UInt8
  | [], rx => if rx.done then (.done, rx, []) else (.error (failed timeout), rx, [])
  | b :: bytes, rx =>
    if rx.done then (.done, rx, b :: bytes)
    else
      match rx.byte dataLen b with
      | none => (.error .sizeh, rx, bytes)
      | some rx => readLoop dataLen timeout bytes rx

/-- What a frame that has ended is reported as. -/
def Rx.check (rx : Rx) (passthrough : Bool) (id : UInt8) : ErrorCode :=
  if rx.validRxWindow = false ∨ rx.passthrough ≠ passthrough then .protocol
  else if rx.tctlmId ≠ id then .tctlmId
  else if rx.nack then
    if rx.dataIdx = 0 then .protocol else nack2ErrorCode (rx.data.getD 0 0)
  else .ok

/-- What `ADCS_UartReadFrame` returns and leaves behind. -/
structure Received where
  code : ErrorCode
  dataLen : Nat
  data : List UInt8
  rest : List UInt8
deriving DecidableEq

/-- `ADCS_UartReadFrame`. -/
def readFrame (passthrough : Bool) (id : UInt8) (data : List UInt8) (dataLen : Nat)
    (timeout : Bool) (bytes : List UInt8) : Received :=
  match readLoop dataLen timeout bytes (.start data) with
  | (.error code, rx, rest) => ⟨code, dataLen, rx.data, rest⟩
  | (.done, rx, rest) => ⟨rx.check passthrough id, rx.dataIdx, rx.data, rest⟩

end Uart
end Adcs
end FlightApps
