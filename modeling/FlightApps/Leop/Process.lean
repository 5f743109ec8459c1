import FlightApps.Leop.State

/-!
# The LEOP sequence

`process` is `MISSION_LEOP_Process`, which the child task runs once after every start, and
`commandTask` answers the commands that declare the sequence complete.  Every statement that uses
`MISSION_Data` is an action of its own; a section under `LEOPMutex` is one action.  `leop` is the
system of both tasks.  When it restarts, the data in memory are cleared, and an input of `success`
says that the directory, as it was last, had reached the disk.

Whatever the calls of the cFE and the OSAL return is an input, with the time and the number of bytes
that were read or written.
-/

set_option autoImplicit false

namespace FlightApps
namespace Leop

open Program (Stmt)
open Rpt (SysTime)

abbrev Prog := Stmt State Input Event

/-! ## Statements -/

def setVars (f : Vars → Vars) : Prog := .set fun s => { s with vars := f s.vars }

/-- An assignment that can be seen. -/
def write (f : State → Vars) : Prog := .does fun s _ => ({ s with vars := f s }, [.wrote])

def setLocals (f : Locals → Locals) : Prog := .set fun s => { s with locals := f s.locals }

def setFiles (f : Files → Files) : Prog := .set fun s => { s with files := f s.files }

/-- A call whose status the child task keeps. -/
def State.returns (s : State) (status : Status) : State :=
  { s with locals := { s.locals with status := status } }

/-- A call whose status `MISSION_LEOP_SaveState` keeps. -/
def State.saves (s : State) (t : Task) (status : Status) : State :=
  { s with saving := Function.update s.saving t { s.saving t with status := status } }

def State.failed (s : State) : Bool := s.locals.status ≠ success

def State.saveFailed (s : State) (t : Task) : Bool := (s.saving t).status ≠ success

/-- The status of a call that has failed is not passed on. -/
def Input.outcome (i : Input) : Status :=
  if i.status = success then success else externalResourceFail

/-- Read `LEOPCompleteRequested`. -/
def test (site : Test) : Prog := .does fun s _ =>
  ({ s with locals := { s.locals with requested := s.vars.completeRequested } },
    [.tested site s.vars.completeRequested])

/-! ## The files -/

/-- `MISSION_LEOP_LockFile`, which waits for the mutex. -/
def lockFile (t : Task) (keep : State → Status → State) (taken : Event) (failed : List Event) :
    Prog := .act fun s i =>
  if i.status ≠ success then some (keep s externalResourceFail, failed)
  else if s.files.fileMutex = none then
    some (keep { s with files := { s.files with fileMutex := some t } } success, [taken])
  else none

/-- `MISSION_LEOP_UnlockFile`. -/
def unlockFile : Prog := setFiles fun f => { f with fileMutex := none }

/-- `OS_close`, and forget the handle. -/
def closeFile : Prog := setFiles fun f => { f with dataHandle := none }

/-- `MISSION_LEOP_CopyRuntimeToFile`. -/
def Vars.toFile (v : Vars) : FileData :=
  have d : FileData :=
    ⟨fileSignature, fileVersion, v.cycleCount, v.state.toByte, v.waitElapsedSec, 0⟩
  { d with crc := d.calcCRC }

/-- Copy the runtime data to a record, under `LEOPMutex`. -/
def snapshot (c : Caller) : Prog := .does fun s i =>
  if i.status = success then
    ({ s with saving := Function.update s.saving c.task ⟨s.vars.toFile, success⟩ },
      [.snapshot c s.vars.toFile])
  else (s.saves c.task externalResourceFail, [])

/-- `OS_OpenCreate` of the temporary file, which is cut to nothing. -/
def openTemp (c : Caller) : Prog := .does fun s i =>
  if i.status = success then
    ({ s.saves c.task success with
        files := { s.files with
          dataHandle := some .temp
          disk := { s.files.disk with temp := some [] } } }, [])
  else
    ({ s.saves c.task externalResourceFail with
        files := { s.files with dataHandle := none } }, [])

/-- `OS_write`, of the whole record or a part of it. -/
def writeTemp (c : Caller) : Prog := .does fun s i =>
  have bytes := fileDataLayout.bytes (s.saving c.task).fileData
  ({ s.saves c.task (if fileDataLayout.size ≤ i.size then i.outcome else externalResourceFail) with
      files := { s.files with
        disk := { s.files.disk with temp := some (bytes.take i.size) } } }, [])

/-- `MISSION_LEOP_SyncPath` of the temporary file. -/
def syncTemp (c : Caller) : Prog := .does fun s i => (s.saves c.task i.outcome, [])

/-- `OS_rename`, which is atomic. -/
def renameTemp (c : Caller) : Prog := .does fun s i =>
  if i.status = success then
    ({ s.saves c.task success with
        files := { s.files with
          disk := { s.files.disk with data := s.files.disk.temp, temp := none } } }, [.renamed c])
  else (s.saves c.task externalResourceFail, [])

/-- `MISSION_LEOP_SyncPath` of the directory. -/
def syncDirectory (c : Caller) : Prog := .does fun s i =>
  if i.status = success then
    ({ s.saves c.task success with
        files := { s.files with disk := { s.files.disk with stable := s.files.disk.data } } },
      [.synced c])
  else (s.saves c.task externalResourceFail, [])

/-- Give the mutex back and return if the last call failed. -/
def giveUp (c : Caller) : Prog := .when (fun s => s.saveFailed c.task) (.block [unlockFile, .ret])

/-- `MISSION_LEOP_SaveState`. -/
def saveState (c : Caller) : Prog := .call (.block [
  snapshot c,
  .when (fun s => s.saveFailed c.task) .ret,
  lockFile c.task (fun s status => s.saves c.task status) (.saving c) [.notSaved c],
  .when (fun s => s.saveFailed c.task) .ret,
  .when (fun s => s.files.dataHandle ≠ none) closeFile,
  openTemp c,
  giveUp c,
  writeTemp c,
  closeFile,
  giveUp c,
  syncTemp c,
  giveUp c,
  renameTemp c,
  giveUp c,
  syncDirectory c,
  unlockFile])

/-! ## Loading the state -/

/-- `MISSION_LEOP_SetDefaults`. -/
def setDefaults : Prog := .block [
  setVars fun v => { v with processStarted := false },
  setVars fun v => { v with waitComplete := false },
  setVars fun v => { v with waitElapsedSec := 0 },
  setVars fun v => { v with waitRemainingSec := initialWaitSec },
  setVars fun v => { v with cycleCount := 0 },
  setVars fun v => { v with state := .initialWait }]

/-- `MISSION_LEOP_CopyFileToRuntime`, of a record whose state has been checked. -/
def copyFileToRuntime : Prog := .block [
  setDefaults,
  .set fun s => { s with vars := { s.vars with cycleCount := s.locals.fileData.leopCycleCount } },
  .set fun s => { s with vars := { s.vars with
    state := (LeopState.ofByte s.locals.fileData.leopState).getD .complete } },
  .set fun s => { s with vars := { s.vars with
    waitElapsedSec := s.locals.fileData.leopWaitElapsedSec } },
  .ite (fun s => getWaitDuration s.vars.state = 0 ∨
      getWaitDuration s.vars.state ≤ s.vars.waitElapsedSec)
    (.block [
      setVars fun v => { v with waitComplete := true },
      setVars fun v => { v with waitRemainingSec := 0 }])
    (setVars fun v => { v with waitRemainingSec := getWaitDuration v.state - v.waitElapsedSec })]

/-- `MISSION_LEOP_OpenDataFile`, which creates the file if there is none. -/
def openDataFile : Prog := .does fun s i =>
  if s.files.dataHandle ≠ none then (s.returns success, [])
  else if i.status = success then
    ({ s.returns success with
        files := { s.files with
          dataHandle := some .data
          disk := { s.files.disk with data := some (s.files.disk.data.getD []) } } }, [])
  else
    ({ s.returns externalResourceFail with files := { s.files with dataHandle := none } },
      [.loadError])

/-- `OS_lseek`, which returns a position or a negative status. -/
def seekData : Prog := .does fun s i =>
  if i.status < 0 then (s.returns externalResourceFail, [.loadError]) else (s.returns success, [])

/-- `OS_read` into a cleared record.  It returns the number of bytes, or a negative status. -/
def readData : Prog := .does fun s i =>
  have content := (s.files.disk.data.getD []).take fileDataLayout.size
  have bytes := content.take i.size
  if i.status < 0 then
    ({ s with locals := { s.locals with
        fileData := fileDataLayout.read []
        readSize := i.status } }, [.loadError])
  else
    ({ s with locals := { s.locals with
        fileData := fileDataLayout.read bytes
        readSize := Int32.ofNat bytes.length } }, if bytes = content then [] else [.loadError])

/-- The defaults take the place of the record, and are saved. -/
def applyDefaults (code : State → InvalidCode) : Prog := .block [
  setDefaults,
  .does fun s _ => (s, [.refused (code s)]),
  saveState .load,
  .set fun s => s.returns (s.saving .process).status,
  .ret]

/-- `MISSION_LEOP_LoadState`. -/
def loadState : Prog := .call (.block [
  lockFile .process State.returns .loading [.loadError],
  .when State.failed .ret,
  openDataFile,
  .when State.failed (.block [unlockFile, .ret]),
  seekData,
  .when State.failed (.block [closeFile, unlockFile, .ret]),
  readData,
  closeFile,
  unlockFile,
  .when (fun s => s.locals.readSize ≠ Int32.ofNat fileDataLayout.size)
    (applyDefaults fun _ => .shortRead),
  .when (fun s => s.locals.fileData.invalidCode ≠ none)
    (applyDefaults fun s => s.locals.fileData.invalidCode.getD .crc),
  copyFileToRuntime,
  .does fun s _ => (s.returns success, [.loaded s.locals.fileData s.vars])])

/-! ## Waiting -/

/-- No wait is going on. -/
def clearWait : Prog := .block [
  setVars fun v => { v with processStarted := false },
  setVars fun v => { v with waitComplete := false },
  setVars fun v => { v with waitElapsedSec := 0 },
  setVars fun v => { v with waitRemainingSec := 0 }]

/-- `CFE_TIME_Subtract`. -/
def timeSubtract (a b : SysTime) : SysTime :=
  if a.subseconds < a.subseconds - b.subseconds then
    ⟨a.seconds - b.seconds - 1, a.subseconds - b.subseconds⟩
  else ⟨a.seconds - b.seconds, a.subseconds - b.subseconds⟩

/-- One turn of the loop of `MISSION_LEOP_Wait`. -/
def waitTurn (waitTimeSec : UInt32) : Prog := .block [
  .emit .delayed,
  test .tick,
  .when (fun s => s.locals.requested) .brk,
  .does fun s i => ({ s with locals := { s.locals with
    totalElapsedSec := s.locals.savedElapsedSec + (timeSubtract i.now s.vars.startTime).seconds } },
    []),
  .ite (fun s => waitTimeSec ≤ s.locals.totalElapsedSec)
    (.block [
      setVars fun v => { v with waitComplete := true },
      write fun s => { s.vars with waitElapsedSec := waitTimeSec },
      setVars fun v => { v with waitRemainingSec := 0 }])
    (.block [
      write fun s => { s.vars with waitElapsedSec := s.locals.totalElapsedSec },
      .set fun s => { s with vars := { s.vars with
        waitRemainingSec := waitTimeSec - s.locals.totalElapsedSec } }]),
  .when (fun s => s.vars.waitComplete || s.locals.nextSaveElapsedSec ≤ s.vars.waitElapsedSec)
    (.block [
      saveState .wait,
      .set fun s => { s with locals := { s.locals with
        nextSaveElapsedSec := s.vars.waitElapsedSec + saveIntervalSec } }])]

/-- `MISSION_LEOP_Wait`. -/
def wait (waitTimeSec : UInt32) : Prog := .call (.block [
  .when (fun _ => waitTimeSec ≠ 0) (test .waitTop),
  .when (fun s => waitTimeSec = 0 || s.locals.requested) (.block [clearWait, .ret]),
  .when (fun s => waitTimeSec ≤ s.vars.waitElapsedSec) (.block [clearWait, .ret]),
  .set fun s => { s with locals := { s.locals with savedElapsedSec := s.vars.waitElapsedSec } },
  setVars fun v => { v with processStarted := true },
  setVars fun v => { v with waitComplete := false },
  .set fun s => { s with vars := { s.vars with
    waitRemainingSec := waitTimeSec - s.locals.savedElapsedSec } },
  .does fun s i => ({ s with vars := { s.vars with startTime := i.now } }, [.waiting waitTimeSec]),
  setLocals fun l => { l with nextSaveElapsedSec := l.savedElapsedSec + saveIntervalSec },
  .loop (fun s => !s.vars.waitComplete) (waitTurn waitTimeSec),
  clearWait])

/-! ## The sequence -/

/-- `MISSION_LEOP_SendGpioDeployCmd`, `MISSION_LEOP_EnableTo` and `MISSION_LEOP_StartAdcsDetumble`:
initialise a message, set its function code and transmit it. -/
def sendCommand (c : Command) : Prog := .call (.block [
  .emit (.issuing c),
  .does fun s i => (s.returns i.status, []),
  .when State.failed .ret,
  .does fun s i => (s.returns i.status, []),
  .when State.failed .ret,
  .does fun s i => (s.returns i.status, [.sent c i.status])])

/-- `MISSION_LEOP_GpioHigh`. -/
def gpioHigh : Prog := .call (.block [
  sendCommand .gpioHigh,
  .when State.failed .ret,
  wait burnDurationSec,
  sendCommand .gpioLow])

/-- Leave the loop if the sequence has been declared complete. -/
def breakIfRequested (site : Test) : Prog :=
  .seq (test site) (.when (fun s => s.locals.requested) .brk)

/-- The body of the loop of `MISSION_LEOP_Process`. -/
def cycleBody : Prog := .block [
  wait 0,
  write fun s => { s.vars with state := .burn },
  gpioHigh,
  breakIfRequested .burnt,
  saveState .process,
  breakIfRequested .beforeEnable,
  write fun s => { s.vars with state := .toEnable },
  sendCommand .enableTo,
  breakIfRequested .enabled,
  saveState .process,
  breakIfRequested .beforePostWait,
  write fun s => { s.vars with state := .postWait },
  saveState .process,
  wait postBurnWaitSec,
  breakIfRequested .postWait,
  write fun s => { s.vars with cycleCount := s.locals.cycle + 1 },
  write fun s => { s.vars with
    state := if s.vars.cycleCount < sequenceRepeatCount then .burn else .complete },
  saveState .process]

/-- The condition of the loop reads the flag in every cycle but the last. -/
def testCycle : Prog := .when (fun s => s.locals.cycle < sequenceRepeatCount) (test .cycle)

/-- `MISSION_LEOP_Process`.  `detumble` is `MISSION_ENABLE_ADCS_DETUMBLE`. -/
def process (detumble : Bool) : Prog := .call (.block [
  loadState,
  .when State.failed (.block [
    setVars fun v => { v with errCounter := v.errCounter + 1 },
    setDefaults,
    .emit .loadFailed]),
  .when (fun _ => detumble) (.block [
    sendCommand .startAdcsDetumble,
    .when State.failed (setVars fun v => { v with errCounter := v.errCounter + 1 })]),
  .when (fun s => s.vars.state = .complete) (.block [
    sendCommand .enableTo,
    .emit .finished,
    .ret]),
  .when (fun s => s.vars.state = .initialWait) (.block [
    wait initialWaitSec,
    test .initialWait,
    .when (fun s => !s.locals.requested) (.block [
      write fun s => { s.vars with state := .burn },
      saveState .process])]),
  .set fun s => { s with locals := { s.locals with cycle := s.vars.cycleCount } },
  testCycle,
  .loop (fun s => s.locals.cycle < sequenceRepeatCount && !s.locals.requested)
    (.block [cycleBody, setLocals fun l => { l with cycle := l.cycle + 1 }, testCycle]),
  wait 0,
  setVars fun v => { v with waitComplete := true },
  write fun s => { s.vars with cycleCount := sequenceRepeatCount },
  write fun s => { s.vars with state := .complete },
  saveState .process,
  .emit .finished])

/-! ## Completing the sequence -/

/-- `MISSION_LEOP_RequestComplete`. -/
def requestComplete : Prog := .call (.block [
  .does fun s i =>
    if i.status = success then
      ({ s.saves .command success with
          vars := { s.vars with
            completeRequested := true
            processStarted := false
            waitComplete := true
            waitElapsedSec := 0
            waitRemainingSec := 0
            cycleCount := sequenceRepeatCount
            state := .complete } }, [.requested])
    else (s.saves .command externalResourceFail, []),
  .when (fun s => s.saveFailed .command) .ret,
  saveState .request])

/-- The task of the commands, as far as they concern LEOP. -/
def commandTask : Prog := .loop (fun _ => true) (.block [
  requestComplete,
  .does fun s _ => (s, [.answered (s.saving .command).status])])

/-! ## The system -/

/-- What a start finds in memory, with what is on the disk. -/
def State.start (disk : Disk) : State where
  vars := .zero
  files := ⟨none, none, disk⟩
  saving := fun _ => ⟨⟨0, 0, 0, 0, 0, 0⟩, success⟩
  locals := ⟨⟨0, 0, 0, 0, 0, 0⟩, 0, success, false, 0, 0, 0, 0⟩

/-- What a power loss leaves on the disk. -/
def Disk.cut (d : Disk) (current : Bool) : Disk :=
  have data := if current then d.data else d.stable
  { d with data := data, stable := data }

/-- No file has been written. -/
def Disk.empty : Disk := ⟨none, none, none⟩

/-- Both tasks, and the loss of power. -/
def leop (detumble : Bool) : Program.System State Input Event Task where
  prog
    | .process => process detumble
    | .command => commandTask
  restart s i := (State.start (s.files.disk.cut (i.status = success)), [.booted])

section Runs

variable (detumble : Bool) (disk : Disk) (xs : List (Program.Sched Task Input))

/-- The state after a run that starts with `disk`. -/
def after : State :=
  ((leop detumble).machine.run ((leop detumble).boot (State.start disk)) xs).1

/-- All that has happened in it. -/
def events : List Event :=
  (leop detumble).machine.history ((leop detumble).boot (State.start disk)) xs

end Runs

/-- An assertion about the child task only. -/
def ofChild (P : Program.Assertion State Event) : Task → Program.Assertion State Event
  | .process => P
  | .command => fun _ _ => True

end Leop
end FlightApps
