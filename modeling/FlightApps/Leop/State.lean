import FlightApps.Lib.Program
import FlightApps.Rpt.Records

/-!
# The data of the LEOP sequence

After launch the mission application waits, burns the wire of the antenna a number of times and
enables the telemetry output.  Where it is in this sequence is in `MISSION_Data`, and in a file that
outlives a reset.  Two tasks use both: the child task that runs the sequence, and the task of the
commands, which may declare the sequence complete.

The data file is written as a temporary file that takes its place.  After a power loss it is the one
that was last put in place, or the one before if the directory was not synchronised since.
-/

set_option autoImplicit false

namespace FlightApps
namespace Leop

open Rpt (SysTime)

/-- `CFE_Status_t`, and what a call of the OSAL returns. -/
abbrev Status := Int32

/-- `CFE_SUCCESS` and `OS_SUCCESS`. -/
def success : Status := 0

/-- `CFE_STATUS_EXTERNAL_RESOURCE_FAIL`. -/
def externalResourceFail : Status := Int32.ofNat 0xc8000005

/-! ## Constants -/

/-- `MISSION_LEOP_INITIAL_WAIT_SEC`. -/
def initialWaitSec : UInt32 := 45 * 60

/-- `MISSION_LEOP_BURN_DURATION_SEC`. -/
def burnDurationSec : UInt32 := 90

/-- `MISSION_LEOP_POST_BURN_WAIT_SEC`. -/
def postBurnWaitSec : UInt32 := 30 * 60

/-- `MISSION_LEOP_SAVE_INTERVAL_SEC`. -/
def saveIntervalSec : UInt32 := 5

/-- `MISSION_LEOP_SEQUENCE_REPEAT_COUNT`. -/
def sequenceRepeatCount : UInt8 := 10

/-- `MISSION_LEOP_FILE_SIGNATURE`. -/
def fileSignature : UInt32 := 0x4C454F50

/-- `MISSION_LEOP_FILE_VERSION`. -/
def fileVersion : UInt16 := 7

/-- `MISSION_LEOP_State_t`. -/
inductive LeopState
  | initialWait
  | burn
  | toEnable
  | postWait
  | complete
deriving DecidableEq

def LeopState.toByte : LeopState → UInt8
  | initialWait => 0
  | burn => 1
  | toEnable => 2
  | postWait => 3
  | complete => 4

def LeopState.ofByte : UInt8 → Option LeopState
  | 0 => some initialWait
  | 1 => some burn
  | 2 => some toEnable
  | 3 => some postWait
  | 4 => some complete
  | _ => none

@[simp] theorem LeopState.ofByte_toByte (st : LeopState) : ofByte st.toByte = some st := by
  cases st <;> rfl

/-- `MISSION_LEOP_GetWaitDuration`. -/
def getWaitDuration : LeopState → UInt32
  | .initialWait => initialWaitSec
  | .burn => burnDurationSec
  | .postWait => postBurnWaitSec
  | _ => 0

/-! ## The record in the file -/

/-- `MISSION_LEOP_FileData_t`. -/
structure FileData where
  signature : UInt32
  version : UInt16
  leopCycleCount : UInt8
  leopState : UInt8
  leopWaitElapsedSec : UInt32
  crc : UInt32
deriving DecidableEq

def fileDataLayout : Layout FileData :=
  (Layout.u32.prod (Layout.u16.prod (Layout.u8.prod (Layout.u8.prod
    (Layout.u32.prod Layout.u32))))).iso
    (fun p => ⟨p.1, p.2.1, p.2.2.1, p.2.2.2.1, p.2.2.2.2.1, p.2.2.2.2.2⟩)
    (fun d => (d.signature, d.version, d.leopCycleCount, d.leopState, d.leopWaitElapsedSec, d.crc))
    fun _ => rfl

/-- `MISSION_LEOP_CalculateCRC`, of all but the checksum. -/
def FileData.calcCRC (d : FileData) : UInt32 := Rpt.calculateCRC (Rpt.guarded fileDataLayout d)

/-- The checksum does not cover itself. -/
theorem FileData.calcCRC_crc (d : FileData) (crc : UInt32) :
    { d with crc := crc }.calcCRC = d.calcCRC := rfl

/-- `MISSION_LEOP_InvalidCode_t`. -/
inductive InvalidCode
  | shortRead
  | crc
  | cycleCount
  | state
  | initialWaitCycle
  | completeCycle
  | nonCompleteCycle
  | waitElapsed
deriving DecidableEq

/-- The wait that goes with the state byte of a record. -/
def FileData.waitDuration (d : FileData) : UInt32 :=
  match LeopState.ofByte d.leopState with
  | some st => getWaitDuration st
  | none => 0

/-- The checks of `MISSION_LEOP_LoadState`, in their order. -/
def FileData.invalidCode (d : FileData) : Option InvalidCode :=
  if d.crc ≠ d.calcCRC then some .crc
  else if sequenceRepeatCount < d.leopCycleCount then some .cycleCount
  else if LeopState.complete.toByte < d.leopState then some .state
  else if d.leopState = LeopState.initialWait.toByte ∧ d.leopCycleCount ≠ 0 then
    some .initialWaitCycle
  else if d.leopState = LeopState.complete.toByte ∧ d.leopCycleCount ≠ sequenceRepeatCount then
    some .completeCycle
  else if d.leopState ≠ LeopState.complete.toByte ∧ sequenceRepeatCount ≤ d.leopCycleCount then
    some .nonCompleteCycle
  else if d.waitDuration < d.leopWaitElapsedSec then some .waitElapsed
  else none

/-! ## The state of both tasks -/

/-- The variables of `MISSION_Data` that belong to LEOP, but for its files. -/
structure Vars where
  startTime : SysTime
  waitElapsedSec : UInt32
  waitRemainingSec : UInt32
  cycleCount : UInt8
  state : LeopState
  processStarted : Bool
  waitComplete : Bool
  completeRequested : Bool
  errCounter : UInt8
deriving DecidableEq

/-- `memset`, when the application starts. -/
def Vars.zero : Vars := ⟨⟨0, 0⟩, 0, 0, 0, .initialWait, false, false, false, 0⟩

inductive Task
  | process
  | command
deriving DecidableEq

/-- The callers of `MISSION_LEOP_SaveState`. -/
inductive Caller
  | load
  | wait
  | process
  | request
deriving DecidableEq

def Caller.task : Caller → Task
  | .request => .command
  | _ => .process

/-- The files that `LEOPDataHandle` can be open on. -/
inductive FileName
  | data
  | temp
deriving DecidableEq

/-- The two files, and what a power loss leaves of the data file if the directory was not written
since. -/
structure Disk where
  data : Option (List UInt8)
  temp : Option (List UInt8)
  stable : Option (List UInt8)
deriving DecidableEq

/-- The files of LEOP, with the mutex and the handle for them. -/
structure Files where
  fileMutex : Option Task
  dataHandle : Option FileName
  disk : Disk
deriving DecidableEq

/-- The locals of `MISSION_LEOP_SaveState`. -/
structure Saving where
  fileData : FileData
  status : Status
deriving DecidableEq

/-- The locals of the functions of the child task.  `requested` is what it read last of
`LEOPCompleteRequested`. -/
structure Locals where
  fileData : FileData
  readSize : Int32
  status : Status
  requested : Bool
  savedElapsedSec : UInt32
  totalElapsedSec : UInt32
  nextSaveElapsedSec : UInt32
  cycle : UInt8
deriving DecidableEq

structure State where
  vars : Vars
  files : Files
  saving : Task → Saving
  locals : Locals

/-- What a call of the cFE or the OSAL returns: a status, the time, a number of bytes. -/
structure Input where
  status : Status
  now : SysTime
  size : Nat
deriving DecidableEq

/-- The commands the sequence sends. -/
inductive Command
  | gpioHigh
  | gpioLow
  | enableTo
  | startAdcsDetumble
deriving DecidableEq

/-- The places where the child task reads `LEOPCompleteRequested`. -/
inductive Test
  | waitTop
  | tick
  | initialWait
  | cycle
  | burnt
  | beforeEnable
  | enabled
  | beforePostWait
  | postWait
deriving DecidableEq

/-- What can be seen of both tasks. -/
inductive Event
  /-- The application starts. -/
  | booted
  /-- `MISSION_LEOP_LoadState` has the mutex for the file. -/
  | loading
  /-- A call of `MISSION_LEOP_LoadState` to lock, open or read the file fails. -/
  | loadError
  /-- A record has been copied to the runtime data. -/
  | loaded (d : FileData) (v : Vars)
  /-- `MISSION_LEOP_LoadState` finds no record, or none that is valid. -/
  | refused (code : InvalidCode)
  /-- `MISSION_LEOP_LoadState` fails, and the defaults are applied. -/
  | loadFailed
  | tested (site : Test) (requested : Bool)
  /-- A wait takes the time it starts at. -/
  | waiting (sec : UInt32)
  /-- `OS_TaskDelay(1000)` is over. -/
  | delayed
  /-- The runtime data are copied to a record. -/
  | snapshot (caller : Caller) (d : FileData)
  /-- The child task assigns a state, a cycle count or an elapsed time, other than in loading. -/
  | wrote
  /-- `MISSION_LEOP_SaveState` has the mutex for the file. -/
  | saving (caller : Caller)
  /-- `MISSION_LEOP_SaveState` cannot have it. -/
  | notSaved (caller : Caller)
  /-- The temporary file takes the place of the data file. -/
  | renamed (caller : Caller)
  /-- The directory is synchronised with the disk. -/
  | synced (caller : Caller)
  | issuing (c : Command)
  | sent (c : Command) (status : Status)
  /-- `MISSION_LEOP_Process` returns. -/
  | finished
  /-- The locked section of `MISSION_LEOP_RequestComplete`. -/
  | requested
  /-- `MISSION_LEOP_RequestComplete` returns. -/
  | answered (status : Status)
deriving DecidableEq

end Leop
end FlightApps
