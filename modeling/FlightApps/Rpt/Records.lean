import Mathlib.Logic.Function.Basic
import FlightApps.Lib.Layout

/-!
# The records of RPT

The report app keeps two rings of reports and a record of operation data, and stores the second ring
and the record in files, byte by byte as they lie in memory.  This file has the records with their
layout in memory, and the checksum that guards the stored ones.

The bytes the compiler puts between two members are members here (`pad`): they are stored, covered
by the checksum and read back like the others.
-/

set_option autoImplicit false

namespace FlightApps
namespace Rpt

/-! ## Configuration -/

/-- `RPT_REPORT_QUEUE_LEN`. -/
def reportQueueLen : Nat := 10

/-- `RPT_CRITICAL_QUEUE_LEN`. -/
def criticalQueueLen : Nat := 40

/-- `RPT_RET_VALUE_BUF_SIZE`. -/
def retValueBufSize : Nat := 512

/-- `RPT_OPS_STORE_BACKUP_COUNT`. -/
def opsStoreBackupCount : UInt8 := 20

instance : NeZero reportQueueLen := ⟨by decide⟩

instance : NeZero criticalQueueLen := ⟨by decide⟩

/-! ## Reports -/

/-- `CFE_TIME_SysTime_t`. -/
structure SysTime where
  seconds : UInt32
  subseconds : UInt32
deriving DecidableEq

def sysTimeLayout : Layout SysTime :=
  (Layout.u32.prod Layout.u32).iso (fun p => ⟨p.1, p.2⟩) (fun t => (t.seconds, t.subseconds))
    fun _ => rfl

/-- `RPT_Report_t`. -/
structure Report where
  msgId : UInt16
  commandCode : UInt8
  returnType : UInt8
  returnCode : Int32
  returnDataSize : UInt16
  returnValue : Fin retValueBufSize → UInt8
  pad : UInt16

def i32 : Layout Int32 := Layout.u32.iso UInt32.toInt32 Int32.toUInt32 fun _ => rfl

def reportLayout : Layout Report :=
  (Layout.u16.prod <| Layout.u8.prod <| Layout.u8.prod <| i32.prod <| Layout.u16.prod <|
      (Layout.u8.array retValueBufSize).prod Layout.u16).iso
    (fun p => ⟨p.1, p.2.1, p.2.2.1, p.2.2.2.1, p.2.2.2.2.1, p.2.2.2.2.2.1, p.2.2.2.2.2.2⟩)
    (fun r => (r.msgId, r.commandCode, r.returnType, r.returnCode, r.returnDataSize, r.returnValue,
      r.pad))
    fun _ => rfl

/-- `RPT_Critical_t`. -/
structure Critical where
  report : Report
  time : SysTime

def criticalLayout : Layout Critical :=
  (reportLayout.prod sysTimeLayout).iso (fun p => ⟨p.1, p.2⟩) (fun c => (c.report, c.time))
    fun _ => rfl

/-! ## Rings -/

/-- The members `Entry`, `Head` and `Count` of both rings. -/
structure Queue (α : Type) (len : Nat) where
  entry : Fin len → α
  head : UInt8
  count : UInt8

def queueLayout {α : Type} (l : Layout α) (len : Nat) : Layout (Queue α len) :=
  ((l.array len).prod <| Layout.u8.prod Layout.u8).iso (fun p => ⟨p.1, p.2.1, p.2.2⟩)
    (fun q => (q.entry, q.head, q.count)) fun _ => rfl

/-- `RPT_ReportQueue_t`. -/
abbrev ReportQueue := Queue Report reportQueueLen

/-- `RPT_CriticalQueue_t`. -/
structure CriticalQueue where
  queue : Queue Critical criticalQueueLen
  pad : UInt16
  crc : UInt32

def criticalQueueLayout : Layout CriticalQueue :=
  ((queueLayout criticalLayout criticalQueueLen).prod <| Layout.u16.prod Layout.u32).iso
    (fun p => ⟨p.1, p.2.1, p.2.2⟩) (fun q => (q.queue, q.pad, q.crc)) fun _ => rfl

/-! ## Operation data -/

/-- `RPT_OperationData_t`. -/
structure OperationData where
  epochSec : UInt32
  epochSubsec : UInt32
  resetCause : UInt8
  pad : UInt8
  bootCount : UInt16
  timeSec : UInt32
  timeSubsec : UInt32
  /-- Last successfully stored backup number. -/
  sequence : UInt32
  crc : UInt32
deriving DecidableEq

def operationDataLayout : Layout OperationData :=
  (Layout.u32.prod <| Layout.u32.prod <| Layout.u8.prod <| Layout.u8.prod <| Layout.u16.prod <|
      Layout.u32.prod <| Layout.u32.prod <| Layout.u32.prod Layout.u32).iso
    (fun p => ⟨p.1, p.2.1, p.2.2.1, p.2.2.2.1, p.2.2.2.2.1, p.2.2.2.2.2.1, p.2.2.2.2.2.2.1,
      p.2.2.2.2.2.2.2.1, p.2.2.2.2.2.2.2.2⟩)
    (fun d => (d.epochSec, d.epochSubsec, d.resetCause, d.pad, d.bootCount, d.timeSec, d.timeSubsec,
      d.sequence, d.crc))
    fun _ => rfl

/-! ## Cleared memory -/

def zeroReport : Report := ⟨0, 0, 0, 0, 0, fun _ => 0, 0⟩

def zeroCritical : Critical := ⟨zeroReport, ⟨0, 0⟩⟩

def zeroQueue {α : Type} (zero : α) (len : Nat) : Queue α len := ⟨fun _ => zero, 0, 0⟩

def zeroReportQueue : ReportQueue := zeroQueue zeroReport reportQueueLen

def zeroCriticalQueue : CriticalQueue := ⟨zeroQueue zeroCritical criticalQueueLen, 0, 0⟩

def zeroOperationData : OperationData := ⟨0, 0, 0, 0, 0, 0, 0, 0, 0⟩

/-! ## Checksums -/

/-- The table of `CFE_ES_ComputeCRC_Algo_16_ARC`. -/
def crcTable : List UInt16 :=
  [
    0x0000, 0xC0C1, 0xC181, 0x0140, 0xC301, 0x03C0, 0x0280, 0xC241, 0xC601, 0x06C0,
    0x0780, 0xC741, 0x0500, 0xC5C1, 0xC481, 0x0440, 0xCC01, 0x0CC0, 0x0D80, 0xCD41,
    0x0F00, 0xCFC1, 0xCE81, 0x0E40, 0x0A00, 0xCAC1, 0xCB81, 0x0B40, 0xC901, 0x09C0,
    0x0880, 0xC841, 0xD801, 0x18C0, 0x1980, 0xD941, 0x1B00, 0xDBC1, 0xDA81, 0x1A40,
    0x1E00, 0xDEC1, 0xDF81, 0x1F40, 0xDD01, 0x1DC0, 0x1C80, 0xDC41, 0x1400, 0xD4C1,
    0xD581, 0x1540, 0xD701, 0x17C0, 0x1680, 0xD641, 0xD201, 0x12C0, 0x1380, 0xD341,
    0x1100, 0xD1C1, 0xD081, 0x1040, 0xF001, 0x30C0, 0x3180, 0xF141, 0x3300, 0xF3C1,
    0xF281, 0x3240, 0x3600, 0xF6C1, 0xF781, 0x3740, 0xF501, 0x35C0, 0x3480, 0xF441,
    0x3C00, 0xFCC1, 0xFD81, 0x3D40, 0xFF01, 0x3FC0, 0x3E80, 0xFE41, 0xFA01, 0x3AC0,
    0x3B80, 0xFB41, 0x3900, 0xF9C1, 0xF881, 0x3840, 0x2800, 0xE8C1, 0xE981, 0x2940,
    0xEB01, 0x2BC0, 0x2A80, 0xEA41, 0xEE01, 0x2EC0, 0x2F80, 0xEF41, 0x2D00, 0xEDC1,
    0xEC81, 0x2C40, 0xE401, 0x24C0, 0x2580, 0xE541, 0x2700, 0xE7C1, 0xE681, 0x2640,
    0x2200, 0xE2C1, 0xE381, 0x2340, 0xE101, 0x21C0, 0x2080, 0xE041, 0xA001, 0x60C0,
    0x6180, 0xA141, 0x6300, 0xA3C1, 0xA281, 0x6240, 0x6600, 0xA6C1, 0xA781, 0x6740,
    0xA501, 0x65C0, 0x6480, 0xA441, 0x6C00, 0xACC1, 0xAD81, 0x6D40, 0xAF01, 0x6FC0,
    0x6E80, 0xAE41, 0xAA01, 0x6AC0, 0x6B80, 0xAB41, 0x6900, 0xA9C1, 0xA881, 0x6840,
    0x7800, 0xB8C1, 0xB981, 0x7940, 0xBB01, 0x7BC0, 0x7A80, 0xBA41, 0xBE01, 0x7EC0,
    0x7F80, 0xBF41, 0x7D00, 0xBDC1, 0xBC81, 0x7C40, 0xB401, 0x74C0, 0x7580, 0xB541,
    0x7700, 0xB7C1, 0xB681, 0x7640, 0x7200, 0xB2C1, 0xB381, 0x7340, 0xB101, 0x71C0,
    0x7080, 0xB041, 0x5000, 0x90C1, 0x9181, 0x5140, 0x9301, 0x53C0, 0x5280, 0x9241,
    0x9601, 0x56C0, 0x5780, 0x9741, 0x5500, 0x95C1, 0x9481, 0x5440, 0x9C01, 0x5CC0,
    0x5D80, 0x9D41, 0x5F00, 0x9FC1, 0x9E81, 0x5E40, 0x5A00, 0x9AC1, 0x9B81, 0x5B40,
    0x9901, 0x59C0, 0x5880, 0x9841, 0x8801, 0x48C0, 0x4980, 0x8941, 0x4B00, 0x8BC1,
    0x8A81, 0x4A40, 0x4E00, 0x8EC1, 0x8F81, 0x4F40, 0x8D01, 0x4DC0, 0x4C80, 0x8C41,
    0x4400, 0x84C1, 0x8581, 0x4540, 0x8701, 0x47C0, 0x4680, 0x8641, 0x8201, 0x42C0,
    0x4380, 0x8341, 0x4100, 0x81C1, 0x8081, 0x4040]

/-- One byte of `CFE_ES_ComputeCRC_Algo_16_ARC`. -/
def crcStep (crc : UInt16) (b : UInt8) : UInt16 :=
  ((crc >>> 8) &&& 0x00FF) ^^^ crcTable.getD ((crc ^^^ b.toUInt16) &&& 0x00FF).toNat 0

/-- `RPT_CalculateCRC`: the default checksum of the cFE, from an input of 0. -/
def calculateCRC (bytes : List UInt8) : UInt32 := (bytes.foldl crcStep 0).toUInt32

/-- The bytes of a record without the checksum at its end. -/
def guarded {α : Type} (l : Layout α) (a : α) : List UInt8 := (l.bytes a).take (l.size - 4)

def OperationData.calcCRC (d : OperationData) : UInt32 :=
  calculateCRC (guarded operationDataLayout d)

def CriticalQueue.calcCRC (q : CriticalQueue) : UInt32 :=
  calculateCRC (guarded criticalQueueLayout q)

/-- The checksum does not cover itself. -/
theorem OperationData.calcCRC_crc (d : OperationData) (crc : UInt32) :
    { d with crc := crc }.calcCRC = d.calcCRC := rfl

theorem CriticalQueue.calcCRC_crc (q : CriticalQueue) (crc : UInt32) :
    { q with crc := crc }.calcCRC = q.calcCRC := by
  have hguarded : ∀ q' : CriticalQueue, guarded criticalQueueLayout q' =
      (queueLayout criticalLayout criticalQueueLen).bytes q'.queue ++ Layout.u16.bytes q'.pad := by
    intro q'
    have hbytes : criticalQueueLayout.bytes q' =
        ((queueLayout criticalLayout criticalQueueLen).bytes q'.queue ++
          Layout.u16.bytes q'.pad) ++ Layout.u32.bytes q'.crc :=
      (List.append_assoc _ _ _).symm
    rw [guarded, hbytes]
    refine List.take_left' ?_
    rw [List.length_append, Layout.length_bytes, Layout.length_bytes]
    rfl
  rw [calcCRC, hguarded, calcCRC, hguarded]

example : operationDataLayout.size = 28 ∧ criticalLayout.size = 532 ∧
    criticalQueueLayout.size = 21288 := by decide

end Rpt
end FlightApps
