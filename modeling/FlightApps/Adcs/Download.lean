import Mathlib.Data.List.Basic
import FlightApps.Adcs.Codes
import FlightApps.Lib.Machine

/-!
# The download of log frames

`ADCS_COMM_InitAngRateEst` of `adcs_utils.c` waits for the log of the ADCS, then downloads it frame
by frame: it sets the number of the next frame, polls until the ADCS has that frame in memory, and
gets it.  Each of these is a loop of its own around one call, inside the loop over the frames, and
all share their variables.

The machine here stands at the head of one of the inner loops; a step is the body of that loop, and
whatever is done from there to the head of the next loop.  Its input is what is answered to the
calls on the way, and what the clock says; a frame that is taken is emitted.
-/

set_option autoImplicit false

namespace FlightApps
namespace Adcs

/-! ## Telemetry -/

/-- `ADCS_InfoFrameInMemoryTlm_Payload_t`. -/
structure InfoFrame where
  frameNumber : UInt16
  checksum : UInt8
  lastFrame : Bool
  frameError : Bool
deriving DecidableEq

/-- `ADCS_DataFrameTlm_Payload_t`. -/
structure DataFrame where
  frameSize : UInt16
  frameByte : Vector UInt8 256
deriving DecidableEq

/-- `sizeof(ADCS_RawGYRSensorTlm_Paylaod_t)`. -/
def gyrSize : Nat := 33

/-- `sizeof(CubeADCS_TlmLogFrame_Test_t)`: the mask, and 11 entries. -/
def frameTestSize : Nat := 5 + 11 * (14 + gyrSize)

/-- The entries that are counted in a frame of this size. -/
def numberOfEntry (frameSize : UInt16) : Nat :=
  let framePayloadSize := if 5 ≤ frameSize then frameSize - 5 else 0
  framePayloadSize.toNat / (14 + gyrSize)

/-- The check of a frame, from its bytes. -/
def frameCrc (bytes : List UInt8) : UInt8 := bytes.foldl (· ^^^ ·) 0xFF

/-- The bytes of a frame. -/
def DataFrame.bytes (d : DataFrame) : List UInt8 := d.frameByte.toList.take d.frameSize.toNat

/-! ## Variables -/

/-- The loop at whose head the function stands, or what it has returned. -/
inductive Stage
  /-- Waiting for the log, with `backoffTotal`. -/
  | waiting (backoffTotal : UInt16)
  /-- Setting the frame number. -/
  | setting
  /-- Polling the frame number. -/
  | polling
  /-- Getting the frame. -/
  | getting
  | done (code : ErrorCode)
deriving DecidableEq

/-- The variables that live on from one body of a loop to the next. -/
structure Vars where
  stage : Stage
  status : ErrorCode
  result : ErrorCode
  lastResult : ErrorCode
  localFrameNumber : UInt16
  flagLastFrame : Bool
  sumNumberOfEntries : UInt8
  tsend : UInt32
  /-- `RetVal_234.ReadQState`. -/
  readQState : UInt8
  retVal220 : InfoFrame
  retVal219 : DataFrame

/-- What is answered in the body of a loop.  The telemetry is what is there if the code is `ok`; it
is not looked at otherwise. -/
structure Answers where
  /-- `ADCS_GetTlmLogStatusResponse`. -/
  getTlmLogStatus : ErrorCode × UInt8
  /-- `ADCS_SetTransferFrame`. -/
  setTransferFrame : ErrorCode
  /-- `ADCS_GetInfoFramInMemory`. -/
  getInfoFrame : ErrorCode × InfoFrame
  /-- `ADCS_GetDataFrame`. -/
  getDataFrame : ErrorCode × DataFrame
  /-- `CFE_TIME_GetTime`, in the body of the loop. -/
  now : UInt32
  /-- `CFE_TIME_GetTime`, before the next loop. -/
  next : UInt32

/-- A frame that has been taken, with the telemetry that it was taken by. -/
structure Frame where
  number : UInt16
  info : InfoFrame
  data : DataFrame

/-- `TotalNumberOfEntries`. -/
def totalNumberOfEntries : UInt8 := 20

/-- The variables at the start. -/
def Vars.start : Vars where
  stage := .waiting 0
  status := .ok
  result := .ok
  lastResult := .ok
  localFrameNumber := 0
  flagLastFrame := false
  sumNumberOfEntries := 0
  tsend := 0
  readQState := 0
  retVal220 := ⟨0, 0, false, false⟩
  retVal219 := ⟨0, Vector.replicate 256 0⟩

/-! ## Loops -/

/-- More than five seconds have passed. -/
def late (tnow tsend : UInt32) : Bool := 5 < tnow - tsend

/-- The entries of a frame are counted, and the loop over the frames goes on or ends. -/
def endOfFrame (v : Vars) : Vars :=
  let entries := if v.result = .ok then numberOfEntry v.retVal219.frameSize else 0
  let sum := v.sumNumberOfEntries + entries.toUInt8
  let flagLastFrame := if sum = totalNumberOfEntries then true else v.flagLastFrame
  let v := { v with sumNumberOfEntries := sum, flagLastFrame := flagLastFrame }
  if flagLastFrame = false ∧ v.result = .ok then { v with stage := .setting }
  else { v with stage := .done (if v.result = .ok then v.status else v.result) }

/-- Waiting for the log. -/
def waitBody (v : Vars) (backoffTotal : UInt16) (a : Answers) : Vars :=
  let status := a.getTlmLogStatus.1
  let readQState := if status = .ok then a.getTlmLogStatus.2 else v.readQState
  let v := { v with status := status, readQState := readQState }
  if readQState ≠ 1 ∧ status = .ok then
    if 10000 ≤ backoffTotal then { v with stage := .done .tout }
    else { v with stage := .waiting (backoffTotal + 100) }
  else { v with stage := .setting, tsend := a.next }

/-- `flagFrameSet` and `flagExit` after setting the frame number. -/
def setFlags (result lastResult : ErrorCode) (exit : Bool) : Bool × Bool :=
  if result = .ok then (true, false)
  else if result = .tout then (false, exit)
  else if result = .busy then if lastResult = .tout then (true, false) else (false, exit)
  else if result = .invalidParam then if lastResult = .tout then (true, false) else (false, exit)
  else (false, true)

/-- Setting the frame number. -/
def setBody (v : Vars) (a : Answers) : Vars :=
  let result := a.setTransferFrame
  let flags := setFlags result v.lastResult (late a.now v.tsend)
  let tsend := if result = .ok then a.now else v.tsend
  let v := { v with result := result, lastResult := result, tsend := tsend }
  if flags.1 || flags.2 then
    -- the status of a frame that is set is overwritten with the result
    let v := { v with status := result, tsend := a.next }
    if v.status = .ok then { v with stage := .polling } else endOfFrame v
  else v

/-- Polling the frame number. -/
def pollBody (v : Vars) (a : Answers) : Vars :=
  let result := a.getInfoFrame.1
  let info := a.getInfoFrame.2
  let v :=
    if result = .ok then { v with retVal220 := info, flagLastFrame := info.lastFrame } else v
  let flagFrameNumMatch := result = .ok ∧ info.frameNumber = v.localFrameNumber
  let flagFrameError := result = .ok ∧ info.frameError = true
  let flagExit := ¬flagFrameNumMatch ∧ late a.now v.tsend = true
  let result := if flagExit ∧ result = .ok then .tout else result
  let v := { v with result := result }
  if ¬flagFrameNumMatch ∧ ¬flagFrameError ∧ ¬flagExit then v
  else
    let status := if result = .ok ∧ flagFrameError then .frame else result
    let v := { v with status := status }
    if status = .ok then { v with stage := .getting } else endOfFrame v

/-- The checks of a frame that has been got. -/
def checkFrame (v : Vars) : Vars :=
  let size := v.retVal219.frameSize
  let result := if v.result = .ok ∧ 256 < size then .sizeh else v.result
  let result := if result = .ok ∧ size = 0 ∧ v.flagLastFrame = false then .unknown else result
  if result = .ok ∧ 0 < size then
    let result :=
      if v.retVal220.checksum ≠ frameCrc v.retVal219.bytes then .crc else result
    let result := if frameTestSize < size.toNat then .sizeh else result
    let localFrameNumber :=
      if result = .ok then v.localFrameNumber + 1 else v.localFrameNumber
    { v with result := result, status := result, localFrameNumber := localFrameNumber }
  else { v with result := result }

/-- Getting the frame. -/
def getBody (v : Vars) (a : Answers) : Vars × List Frame :=
  let result := a.getDataFrame.1
  let retVal219 := if result = .ok then a.getDataFrame.2 else v.retVal219
  let v := { v with result := result, retVal219 := retVal219 }
  if result = .ok ∨ late a.now v.tsend = true then
    let v' := checkFrame v
    let frames :=
      if v'.result = .ok then [⟨v.localFrameNumber, v.retVal220, v.retVal219⟩] else []
    (endOfFrame v', frames)
  else (v, [])

/-- `ADCS_COMM_InitAngRateEst`, one body of a loop at a time. -/
def initAngRateEst : Machine Vars Answers (List Frame) where
  step v a :=
    match v.stage with
    | .waiting backoffTotal => (waitBody v backoffTotal a, [])
    | .setting => (setBody v a, [])
    | .polling => (pollBody v a, [])
    | .getting => getBody v a
    | .done _ => (v, [])

end Adcs
end FlightApps
