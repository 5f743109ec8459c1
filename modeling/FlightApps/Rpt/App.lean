import FlightApps.Lib.Machine
import FlightApps.Rpt.Records

/-!
# The report app

RPT puts the reports of the other apps in one of two rings, answers requests for them, keeps the
operation data up to date once a second, and starts again from its files after a reset.

What the files and the software bus answer is part of the input (`Write`, `Update`, `Boot`, `Bus`):
every call of them can fail.  An `Op` is what the app does in one go, either one of its duties or,
after a reset, `RPT_Init`.
-/

set_option autoImplicit false

namespace FlightApps
namespace Rpt

/-! ## State -/

/-- `RPT_Data` and the files it is kept in.  A file that is not there is an empty one. -/
structure App where
  cmdCounter : UInt8
  errCounter : UInt8
  rptQueue : ReportQueue
  critQueue : CriticalQueue
  opsData : OperationData
  /-- Update cycles since the last successful backup. -/
  opsCount : UInt8
  opsFile : List UInt8
  critFile : List UInt8
  /-- The backup files in the order they were written in: the time in the name, and the bytes. -/
  backups : List (UInt32 × List UInt8)

/-- A status of the cFE. -/
abbrev Status := Int32

/-- `CFE_SUCCESS`. -/
def success : Status := 0

/-- `CFE_STATUS_EXTERNAL_RESOURCE_FAIL`. -/
def externalResourceFail : Status := Int32.ofNat 0xc8000005

/-- `CFE_STATUS_VALIDATION_FAILURE`. -/
def validationFailure : Status := Int32.ofNat 0xc8000007

/-- What the app did, for whoever watches it. -/
inductive Note
  | report (r : Report)
  | critical (c : Critical)
  | cleared (isCritical : Bool)
  /-- The time service was told to set its clock. -/
  | setTime (t : SysTime)

/-! ## Files -/

/-- What a write does: it succeeds, or it fails and leaves these bytes in the file. -/
inductive Write
  | done
  | failed (left : List UInt8)
deriving DecidableEq

/-- `RPT_WriteToFile`, from the start of the file on: the file after it, and whether it
succeeded. -/
def writeToFile (file data : List UInt8) : Write → List UInt8 × Bool
  | .done => (data ++ file.drop data.length, true)
  | .failed left => (left, false)

/-- `RPT_ReadFromFile` of a file that was just opened. -/
def readFromFile (file : List UInt8) (size : Nat) (reads : Bool) : Option (List UInt8) :=
  if reads then some (file.take size) else none

/-- A record in memory after some bytes were read over it. -/
def readOver {α : Type} (l : Layout α) (old : α) (bytes : List UInt8) : α :=
  l.read (bytes ++ (l.bytes old).drop bytes.length)

/-! ## Reports -/

/-- Put an entry in a ring.  Both branches of `RPT_Enqueue` do this. -/
def Queue.put {α : Type} {len : Nat} [NeZero len] (q : Queue α len) (a : α) : Queue α len where
  entry := Function.update q.entry (Fin.ofNat len q.head.toNat) a
  head := UInt8.ofNat ((q.head.toNat + 1) % len)
  count := if q.count.toNat < len then q.count + 1 else q.count

/-- What `RPT_Enqueue` puts in the critical ring. -/
def App.stamped (s : App) (report : Report) : Critical :=
  ⟨report, ⟨s.opsData.timeSec, s.opsData.timeSubsec⟩⟩

/-- The critical ring with its checksum. -/
def CriticalQueue.sealed (q : CriticalQueue) : CriticalQueue := { q with crc := q.calcCRC }

/-- `RPT_Enqueue`.  The result of the write is not looked at. -/
def App.enqueue (s : App) (report : Report) (isCritical : Bool) (write : Write) : App :=
  if isCritical then
    let q := { s.critQueue with queue := s.critQueue.queue.put (s.stamped report) }.sealed
    { s with
      critQueue := q
      critFile := (writeToFile s.critFile (criticalQueueLayout.bytes q) write).1 }
  else { s with rptQueue := s.rptQueue.put report }

/-- `RPT_ClearQueueCmd`. -/
def App.clearQueueCmd (s : App) (isCritical : Bool) : App :=
  let s := { s with cmdCounter := s.cmdCounter + 1 }
  if isCritical then { s with critQueue := zeroCriticalQueue }
  else { s with rptQueue := zeroReportQueue }

/-! ## Retrieval -/

/-- `sizeof(CFE_MSG_TelemetryHeader_t)`. -/
def telemetryHeaderSize : Nat := 16

/-- `CFE_MISSION_SB_MAX_SB_MSG_SIZE`. -/
def maxSbMsgSize : Nat := 32768

/-- What the software bus answers: whether its pool has a buffer, and the statuses of
`CFE_MSG_Init` and `CFE_SB_TransmitBuffer`. -/
structure Bus where
  pool : Bool
  init : Status
  transmit : Status
deriving DecidableEq

/-- A packet of records: the size in its header, and the records that were put behind it. -/
structure Packet (α : Type) where
  size : Nat
  records : List α

/-- The body of `RPT_MultipleReport` and of `RPT_MultipleCritical`, which differ in the index of the
oldest entry and in the status when there is no buffer. -/
def multiple {α : Type} {len : Nat} [NeZero len] (q : Queue α len) (oldIdx : UInt8)
    (recordSize : Nat) (noBuffer : Status) (startIdx totNum : UInt8) (bus : Bus) :
    Status × Option (Packet α) :=
  let tlmSize := telemetryHeaderSize + totNum.toNat * recordSize
  if totNum = 0 then (validationFailure, none)
  else
    let startIdx₁ := if startIdx > q.count then 0 else startIdx
    let startIdx₂ := if totNum > q.count then 0 else startIdx₁
    let totNum₂ := if totNum > q.count then q.count else totNum
    let totNum₃ :=
      if startIdx₂.toNat + totNum₂.toNat > q.count.toNat then q.count - startIdx₂ else totNum₂
    if tlmSize > maxSbMsgSize || !bus.pool then (noBuffer, none)
    else if bus.init ≠ success then (bus.init, none)
    else
      let start := UInt8.ofNat ((oldIdx.toNat + startIdx₂.toNat) % len)
      let records := (List.range totNum₃.toNat).map fun i =>
        q.entry (Fin.ofNat len ((start.toNat + i) % len))
      if bus.transmit ≠ success then (bus.transmit, none)
      else (success, some ⟨tlmSize, records⟩)

/-- `RPT_MultipleReport`. -/
def App.multipleReport (s : App) (startIdx totNum : UInt8) (bus : Bus) :
    Status × Option (Packet Report) :=
  multiple s.rptQueue
    (UInt8.ofNat
      ((s.rptQueue.head.toNat + reportQueueLen - s.rptQueue.count.toNat) % reportQueueLen))
    reportLayout.size (-1) startIdx totNum bus

/-- `RPT_MultipleCritical`. -/
def App.multipleCritical (s : App) (startIdx totNum : UInt8) (bus : Bus) :
    Status × Option (Packet Critical) :=
  multiple s.critQueue.queue
    (UInt8.ofNat
      (s.critQueue.queue.head.toNat + criticalQueueLen - s.critQueue.queue.count.toNat))
    criticalLayout.size externalResourceFail startIdx totNum bus

/-- `RPT_ReportCmd`. -/
def App.reportCmd (s : App) (isCritical : Bool) (startIdx totNum : UInt8) (bus : Bus) : App :=
  let status :=
    if isCritical then (s.multipleCritical startIdx totNum bus).1
    else (s.multipleReport startIdx totNum bus).1
  { s with
    cmdCounter := s.cmdCounter + 1
    errCounter := if status ≠ success then s.errCounter + 1 else s.errCounter }

/-! ## Operation data -/

/-- What `RPT_UpdateOperationData` gets from the clock and the files. -/
structure Update where
  now : SysTime
  /-- The write of the record. -/
  write : Write
  /-- The backup file can be opened. -/
  opens : Bool
  backup : Write
  closes : Bool
  /-- The second write of the record. -/
  persist : Write
deriving DecidableEq

/-- The record with its checksum. -/
def OperationData.sealed (d : OperationData) : OperationData := { d with crc := d.calcCRC }

/-- The record with the time. -/
def OperationData.timed (d : OperationData) (now : SysTime) : OperationData :=
  { d with timeSec := now.seconds, timeSubsec := now.subseconds }.sealed

/-- The record as it is backed up. -/
def OperationData.nextBackup (d : OperationData) : OperationData :=
  { d with sequence := d.sequence + 1 }.sealed

/-- The end of `RPT_UpdateOperationData`, when a backup is due. -/
def App.storeBackup (s : App) (u : Update) : App :=
  let b := s.opsData.nextBackup
  let s := { s with opsCount := 0 }
  if !u.opens then s
  else
    let r := writeToFile [] (operationDataLayout.bytes b) u.backup
    let s := { s with backups := s.backups ++ [(b.timeSec, r.1)] }
    if !r.2 || !u.closes then s
    else
      { s with
        opsData := b
        opsFile := (writeToFile s.opsFile (operationDataLayout.bytes b) u.persist).1 }

/-- The count of update cycles goes up to the number at which a backup is due. -/
def nextOpsCount (opsCount : UInt8) : UInt8 :=
  if opsCount < opsStoreBackupCount then opsCount + 1 else opsCount

/-- `RPT_UpdateOperationData`. -/
def App.updateOperationData (s : App) (u : Update) : App :=
  let d := s.opsData.timed u.now
  let r := writeToFile s.opsFile (operationDataLayout.bytes d) u.write
  let s := { s with opsData := d, opsFile := r.1 }
  if !r.2 then s
  else
    let s := { s with opsCount := nextOpsCount s.opsCount }
    if s.opsCount < opsStoreBackupCount then s else s.storeBackup u

/-! ## Start -/

/-- What `RPT_Init` gets from the clock, the executive and the files. -/
structure Boot where
  now : SysTime
  resetType : UInt8
  resetSubType : UInt8
  opsOpens : Bool
  opsReads : Bool
  opsWrite : Write
  critOpens : Bool
  critReads : Bool
deriving DecidableEq

/-- `RPT_CalculateResetCause`. -/
def calculateResetCause (resetType resetSubType : UInt8) : UInt8 :=
  ((resetType &&& 3) <<< 4) ||| (resetSubType &&& 15)

/-- The first boot stores the epoch. -/
def OperationData.withEpoch (d : OperationData) (now : SysTime) : OperationData :=
  { d with epochSec := now.seconds, epochSubsec := now.subseconds }

/-- The part of `RPT_OpsDataInit` between the read and the check: the record and the status. -/
def firstBoot (d : OperationData) (n : Nat) (now : SysTime) : OperationData × Status :=
  if d.bootCount = 0 ∨ n = 0 then (d.withEpoch now, success)
  else if d.bootCount ≠ 0 ∨ n = operationDataLayout.size then (d, success)
  else (d, externalResourceFail)

/-- The check of `RPT_OpsDataInit`: the record, and the time the clock is to be set to. -/
def checkOpsData (d : OperationData) : OperationData × Option SysTime :=
  if d.bootCount = 0 then (d, none)
  else if d.crc ≠ d.calcCRC then (zeroOperationData, none)
  else if d.timeSec ≠ 0 ∨ d.timeSubsec ≠ 0 then (d, some ⟨d.timeSec, d.timeSubsec⟩)
  else (d, none)

/-- The record of the new boot. -/
def OperationData.booted (d : OperationData) (b : Boot) : OperationData :=
  { d with
    bootCount := d.bootCount + 1
    resetCause := calculateResetCause b.resetType b.resetSubType }.sealed

/-- `RPT_OpsDataInit`. -/
def App.opsDataInit (s : App) (b : Boot) : App × Status × List Note :=
  if !b.opsOpens then (s, externalResourceFail, [])
  else
    match readFromFile s.opsFile operationDataLayout.size b.opsReads with
    | none => (s, externalResourceFail, [])
    | some bytes =>
      let r := firstBoot (readOver operationDataLayout s.opsData bytes) bytes.length b.now
      if r.2 ≠ success then ({ s with opsData := r.1 }, r.2, [])
      else
        let c := checkOpsData r.1
        let d := c.1.booted b
        let w := writeToFile s.opsFile (operationDataLayout.bytes d) b.opsWrite
        ({ s with opsData := d, opsFile := w.1 }, if w.2 then success else externalResourceFail,
          c.2.toList.map .setTime)

/-- `RPT_CriticalQInit`. -/
def App.criticalQInit (s : App) (b : Boot) : App × Status :=
  if !b.critOpens then (s, externalResourceFail)
  else
    match readFromFile s.critFile criticalQueueLayout.size b.critReads with
    | none => (s, externalResourceFail)
    | some bytes =>
      let q := readOver criticalQueueLayout s.critQueue bytes
      let status :=
        if s.opsData.bootCount = 0 ∨ bytes.length = 0 then success
        else if s.opsData.bootCount ≠ 0 ∨ bytes.length = criticalQueueLayout.size then success
        else Int32.ofNat bytes.length
      if status ≠ success then ({ s with critQueue := q }, status)
      else if q.crc = q.calcCRC then ({ s with critQueue := q }, success)
      else ({ s with critQueue := zeroCriticalQueue }, success)

/-- The memory of the app is cleared, the files are as they were. -/
def App.cleared (s : App) : App :=
  { s with
    cmdCounter := 0
    errCounter := 0
    rptQueue := zeroReportQueue
    critQueue := zeroCriticalQueue
    opsData := zeroOperationData
    opsCount := 0 }

/-- `RPT_Init`, where tables, pipes and mutexes are got. -/
def App.init (s : App) (b : Boot) : App × Status × List Note :=
  let r := s.cleared.opsDataInit b
  if r.2.1 ≠ success then r
  else
    let c := r.1.criticalQInit b
    (c.1, c.2, r.2.2)

/-! ## Runs -/

/-- What the app does between two resets. -/
inductive Duty
  | enqueue (report : Report) (isCritical : Bool) (write : Write)
  | clear (isCritical : Bool)
  | report (isCritical : Bool) (startIdx totNum : UInt8) (bus : Bus)
  | update (u : Update)

/-- What the app does in one go. -/
inductive Op
  | duty (d : Duty)
  | boot (b : Boot)

def App.perform (s : App) : Duty → App × List Note
  | .enqueue report isCritical write =>
    (s.enqueue report isCritical write,
      [if isCritical then .critical (s.stamped report) else .report report])
  | .clear isCritical => (s.clearQueueCmd isCritical, [.cleared isCritical])
  | .report isCritical startIdx totNum bus => (s.reportCmd isCritical startIdx totNum bus, [])
  | .update u => (s.updateOperationData u, [])

def App.act (s : App) : Op → App × List Note
  | .duty d => s.perform d
  | .boot b => ((s.init b).1, (s.init b).2.2)

/-- Cleared memory and no files. -/
def blankApp : App :=
  ⟨0, 0, zeroReportQueue, zeroCriticalQueue, zeroOperationData, 0, [], [], []⟩

/-- The app between two resets. -/
def duties : Machine App Duty (List Note) := ⟨App.perform⟩

/-- The app. -/
def rpt : Machine App Op (List Note) := ⟨App.act⟩

end Rpt
end FlightApps
