import Mathlib.Algebra.Ring.Nat
import Mathlib.Data.List.Basic
import Mathlib.Data.List.GetD
import FlightApps.Lib.Calls

/-!
# What the payload app calls

The download tasks of PAY_SLT read and write parameters of the payload, read bytes from its links,
call the file functions of the OS and send a report.  Every such call may be answered in any way.
What a call does to the file system is in `Disk`; what has been said and read since then is in
`Notes`, which no task sees.
-/

set_option autoImplicit false

namespace FlightApps
namespace Pay

/-! ## CRC -/

/-- One bit of `PAY_SLT_UpdateCRC32`. -/
def crcBit (crc : UInt32) : UInt32 :=
  if crc &&& 1 ≠ 0 then crc >>> 1 ^^^ 0xEDB88320 else crc >>> 1

/-- One byte of `PAY_SLT_UpdateCRC32`. -/
def crcByte (crc : UInt32) (b : UInt8) : UInt32 := Nat.repeat crcBit 8 (crc ^^^ b.toUInt32)

/-- `PAY_SLT_UpdateCRC32`. -/
def updateCRC32 (crc : UInt32) (data : List UInt8) : UInt32 := data.foldl crcByte crc

/-- `PAY_SLT_CalculateCRC32`. -/
def calculateCRC32 (data : List UInt8) : UInt32 := updateCRC32 0xFFFFFFFF data ^^^ 0xFFFFFFFF

theorem updateCRC32_append (crc : UInt32) (xs ys : List UInt8) :
    updateCRC32 crc (xs ++ ys) = updateCRC32 (updateCRC32 crc xs) ys :=
  List.foldl_append

/-! ## Calls -/

abbrev Status := Int32

def success : Status := 0

/-- `CFE_STATUS_EXTERNAL_RESOURCE_FAIL`. -/
def externalResourceFail : Status := -939524091

/-- `CFE_STATUS_REQUEST_ALREADY_PENDING`. -/
def requestAlreadyPending : Status := -939524090

/-- `CFE_ES_BAD_ARGUMENT`. -/
def badArgument : Status := -1006632950

/-- `SLT_IFB_DEVICE_BAD_ARG`. -/
def deviceBadArg : Status := -2

example : externalResourceFail.toUInt32 = 0xc8000005 ∧ requestAlreadyPending.toUInt32 = 0xc8000006 ∧
    badArgument.toUInt32 = 0xc400000a := by decide

/-- The parameters of the payload that are read, all of 32 bits. -/
inductive Param
  /-- 0x009D -/
  | ftChunkSize
  /-- 0x0095 -/
  | ftFileNpart
  /-- 0x0091 -/
  | ftFileSize
  /-- 0x00AD -/
  | ftPartReady
  /-- 0x00A5 -/
  | ftPartSize
  /-- 0x00A9 -/
  | ftPartCrc32
  /-- 0x0099 -/
  | ftFileCrc32
deriving DecidableEq, Repr

/-- The parameters that are written. -/
inductive SetParam
  /-- 0x004D -/
  | ftFileLoad
  /-- 0x00A1 -/
  | ftPartLoad
  /-- 0x00B2 -/
  | ftRelease
deriving DecidableEq, Repr

/-- The links to the payload. -/
inductive Link
  | i2c
  | rs422
deriving DecidableEq, Repr

/-- A path, without the 0 at its end. -/
abbrev Path := List UInt8

inductive Call
  /-- `PAY_SLT_FetchParam_Simple`. -/
  | fetch (p : Param)
  /-- The same for `ft_file_name`. -/
  | fetchName
  /-- The same for the I2C address in the board table. -/
  | fetchI2cAddr
  /-- `PAY_SLT_SetParam`. -/
  | set (p : SetParam) (value : UInt32)
  /-- `CFE_SRL_ApiRead` on I2C, of this many bytes. -/
  | i2cRead (addr : UInt8) (size : Nat)
  /-- `CFE_SRL_ApiRead` on RS422, of one byte; the first one sends the command. -/
  | serialRead (first : Bool)
  /-- `OS_OpenCreate`, with `OS_FILE_FLAG_TRUNCATE` or with `OS_FILE_FLAG_APPEND`. -/
  | openCreate (path : Path) (truncate : Bool)
  /-- `OS_lseek` to the end. -/
  | lseekEnd (fd : Int)
  | write (fd : Int) (data : List UInt8)
  | close (fd : Int)
  | stat (path : Path)
  /-- `PAY_SLT_SendDownloadResult`. -/
  | report (status : Status) (link : Link) (path : Path) (size : UInt32) (deviceError : Bool)
deriving DecidableEq

/-- What is answered.  `OS_OpenCreate` answers with a status and the new `file_fd`, which is no
negative number. -/
@[reducible] def Call.Reply : Call → Type
  | fetch _ => Status × UInt32
  | fetchName => Status × List UInt8
  | fetchI2cAddr => Status × UInt8
  | set _ _ => Status
  | i2cRead _ _ => Status × (Nat → UInt8)
  | serialRead _ => Status × UInt8
  | openCreate _ _ => Status × Nat
  | lseekEnd _ => Status
  | write _ _ => Int32
  | close _ => Unit
  | stat _ => Status × Nat
  | report _ _ _ _ _ => Unit

/-- A call with its answer. -/
structure Event where
  call : Call
  reply : call.Reply

/-- A script of calls. -/
abbrev Task := Script Call Call.Reply

/-! ## The world -/

/-- The file system, and the file that is open. -/
structure Disk where
  files : Path → Option (List UInt8)
  path : Path
  cursor : Nat

namespace Disk

variable (d : Disk)

/-- What a file holds; no file holds nothing. -/
def content (path : Path) : List UInt8 := (d.files path).getD []

/-- `OS_OpenCreate` has opened a file; the cursor is at its start. -/
def opened (path : Path) (truncate : Bool) : Disk :=
  ⟨Function.update d.files path (some (if truncate then [] else d.content path)), path, 0⟩

/-- `OS_lseek` has moved to the end. -/
def atEnd : Disk := { d with cursor := (d.content d.path).length }

/-- `OS_write` has written these bytes. -/
def wrote (bytes : List UInt8) : Disk :=
  { d with
    files := Function.update d.files d.path (some ((d.content d.path).take d.cursor ++ bytes ++
      (d.content d.path).drop (d.cursor + bytes.length)))
    cursor := d.cursor + bytes.length }

end Disk

/-- A part that has been written to the file. -/
structure Stored where
  /-- Its number, as written to `ft_part_load`. -/
  part : UInt32
  /-- What was read of `ft_part_crc32`. -/
  crc : UInt32
  /-- What was received on the link. -/
  received : List UInt8
  /-- What was written. -/
  block : List UInt8

/-- What has been said by both sides. -/
structure Notes where
  chunkSize : Option UInt32
  npart : Option UInt32
  fileSize : Option UInt32
  fileCrc : Option UInt32
  /-- The part that has been loaded. -/
  part : Option UInt32
  /-- How often it has been asked whether it is ready. -/
  polls : Nat
  partCrc : Option UInt32
  /-- What has been received in answer to the last request. -/
  received : List UInt8
  stored : List Stored

namespace Notes

def fresh : Notes := ⟨none, none, none, none, none, 0, none, [], []⟩

/-- The bytes that a read of this size answers with. -/
def bytesOf (size : Nat) (bytes : Nat → UInt8) : List UInt8 := (List.range size).map bytes

/-- Note a parameter that has been read. -/
def fetched (n : Notes) (value : UInt32) : Param → Notes
  | .ftChunkSize => { n with chunkSize := some value }
  | .ftFileNpart => { n with npart := some value }
  | .ftFileSize => { n with fileSize := some value }
  | .ftPartReady => { n with polls := n.polls + 1 }
  | .ftPartSize => n
  | .ftPartCrc32 => { n with partCrc := some value }
  | .ftFileCrc32 => { n with fileCrc := some value }

/-- What a write of a whole block stores. -/
def storing (n : Notes) (block : List UInt8) : Notes :=
  match n.part, n.partCrc with
  | some part, some crc => { n with stored := n.stored ++ [⟨part, crc, n.received, block⟩] }
  | _, _ => n

def note (n : Notes) : (c : Call) → c.Reply → Notes
  | .fetch p, (status, value) => if status = success then n.fetched value p else n
  | .set .ftPartLoad value, status =>
    if status = success then { n with part := some value, polls := 0 } else n
  | .i2cRead _ size, (status, bytes) =>
    if status = success then { n with received := bytesOf size bytes } else n
  | .serialRead first, (status, b) =>
    if status = success then { n with received := if first then [b] else n.received ++ [b] } else n
  | .write _ data, written =>
    if written.toInt = (data.length : Int) then n.storing data else n
  | _, _ => n

end Notes

/-- The world: the disk, what has been noted, and all calls. -/
structure Scene where
  disk : Disk
  notes : Notes
  log : List Event

namespace Scene

/-- What a call does to the disk. -/
def diskAfter (d : Disk) : (c : Call) → c.Reply → Disk
  | .openCreate path truncate, (status, _) =>
    if status = success then d.opened path truncate else d
  | .lseekEnd _, status => if 0 ≤ status then d.atEnd else d
  | .write _ data, written => d.wrote (data.take written.toInt.toNat)
  | _, _ => d

def next (s : Scene) (c : Call) (r : c.Reply) : Scene :=
  ⟨diskAfter s.disk c r, s.notes.note c r, s.log ++ [⟨c, r⟩]⟩

/-- What holds of the file functions: `OS_write` says how much it wrote, and `OS_stat` how long the
file is. -/
def Honest (s : Scene) : (c : Call) → c.Reply → Prop
  | .write _ data, written => written.toInt ≤ (data.length : Int)
  | .stat path, (status, size) => status = success → size = (s.disk.content path).length
  | _, _ => True

end Scene

end Pay
end FlightApps
