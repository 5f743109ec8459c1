import FlightApps.Lib.Bitmap
import FlightApps.Lib.Calls

/-!
# Talking to the camera

`paybee_kisscam_Transaction` sends a command of seven bytes and reads the response in three pieces:
three bytes, the length in two, and what the length says with the byte that ends it.  The memory of
the app and the calls to what lies around it are here as well; what each call does is in
`FlightApps.Kisscam.Disk`.

A response that comes whole is as long as it says (`Whole`), and no read is longer than the buffer
has room for.
-/

set_option autoImplicit false

namespace FlightApps
namespace Kisscam

open Script

abbrev Bytes := List UInt8

/-! ## Constants -/

/-- `paybee_kisscam_PKT_START_BYTE`. -/
def pktStartByte : UInt8 := 0x40

/-- `paybee_kisscam_PKT_TERMINATE_BYTE`. -/
def pktTerminateByte : UInt8 := 0x0D

/-- `paybee_kisscam_CAPTURE_CMD_CODE`. -/
def captureCmdCode : UInt8 := 0x43

/-- `paybee_kisscam_DOWNLOAD_CMD_CODE`. -/
def downloadCmdCode : UInt8 := 0x44

/-- `paybee_kisscam_HDR_TAIL_SIZE`. -/
def hdrTailSize : Nat := 5 + 1

/-- `paybee_kisscam_GET_TLM_SIZE`. -/
def getTlmSize (data : Nat) : Nat := 5 + 1 + data

/-- `paybee_kisscam_CAPTURE_TLM_SIZE`. -/
def captureTlmSize : Nat := getTlmSize 0

/-- `paybee_kisscam_DOWNLOAD_TLM_SIZE`: a line of 640 with its number. -/
def downloadTlmSize : Nat := getTlmSize (640 + 2)

/-- `paybee_kisscam_DOWNLOAD_THUMBNAIL_TLM_SIZE`. -/
def downloadThumbnailTlmSize : Nat := getTlmSize (64 + 2)

/-- `paybee_kisscam_IMG_LINE_NUM`. -/
def imgLineNum : Nat := 480

/-- `paybee_kisscam_THUMBNAIL_IMG_LINE_NUM`. -/
def thumbnailImgLineNum : Nat := 48

/-- `PAYBEE_KISSCAM_RX_BUF_SIZE`. -/
def rxBufSize (expectedSize : Nat) : Nat := if expectedSize > 9 then expectedSize else 9

/-- `paybee_kisscam_MEMORY_SLOT`. -/
def memorySlot : Nat := 4

/-- `paybee_kisscam_DOWNLOAD_MAX_RETRIES`. -/
def downloadMaxRetries : Nat := 5

/-- `RPT_RET_VALUE_BUF_SIZE`. -/
def retValueBufSize : Nat := 512

/-- `paybee_kisscam_DOWNLOAD_NOT_STARTED`, `paybee_kisscam_DOWNLOAD_ON_GOING` and
`paybee_kisscam_DOWNLOAD_DONE`. -/
def notStarted : UInt8 := 0
def onGoing : UInt8 := 1
def downloadDone : UInt8 := 2

/-! ## The memory of the app -/

/-- `paybee_kisscam_MemoryEntry_t`. -/
structure MemoryEntry where
  memoryState : UInt8
  lastImgIdx : UInt8
  lineState : Bitmap 60
deriving DecidableEq

instance : Inhabited MemoryEntry := ⟨⟨0, 0, Bitmap.clear 60⟩⟩

/-- `paybee_kisscam_Memory_Status_t`. -/
abbrev MemoryStatus := Vector MemoryEntry memorySlot

/-- `paybee_kisscam_Data_t`: the counters, whether there is a serial handle, the descriptor of the
table file, and the table. -/
structure Data where
  cmdCounter : UInt8
  errCounter : UInt8
  deviceErrCounter : UInt8
  handle : Bool
  tblHandle : Int
  memSlotStatus : MemoryStatus
deriving DecidableEq

/-- An error is counted. -/
def Data.err (d : Data) : Data := { d with errCounter := d.errCounter + 1 }

/-- `MemSlotStatus.Entry[MemSlot]`. -/
def Data.entry (d : Data) (memSlot : Nat) : MemoryEntry := Cells.get d.memSlotStatus memSlot

/-- A new entry. -/
def Data.setEntry (d : Data) (memSlot : Nat) (e : MemoryEntry) : Data :=
  { d with memSlotStatus := Cells.set d.memSlotStatus memSlot e }

/-! ## Calls -/

/-- Return codes, as far as they are told apart. -/
inductive Code
  | success
  | badArgument
  | timeout
  | partialReadErr
  | rangeError
  | externalResourceFail
  | other (n : Int)
deriving DecidableEq, Repr

/-- `RPT_RETTYPE`. -/
inductive RetType
  | success
  | osal
  | cfe
  | lib
  | app
deriving DecidableEq, Repr

/-- What `CFE_SRL_ApiRead` gives: its status, `ReadBytes`, and what it has put in the buffer. -/
structure ReadReply where
  status : Code
  readBytes : Int
  bytes : Bytes

inductive CamCall
  /-- `CFE_SRL_ApiRead` to `Rx + off`, with what is sent before. -/
  | apiRead (txData : Option Bytes) (off rxSize : Nat)
  | tcflush
  /-- With `O_CREAT | O_TRUNC | O_WRONLY`; the error is `errno`. -/
  | openImage (path : List Char)
  /-- With `O_CREAT | O_RDWR`. -/
  | openTbl (path : List Char)
  | read (id : Int) (size : Nat)
  | lseek (id : Int)
  | write (id : Int) (data : Bytes)
  | fsync (id : Int)
  | close (id : Int)
  /-- `paybee_kisscam_SendReport`. -/
  | sendReport (cc : UInt8) (returnType : RetType) (returnCode : Code) (data : Bytes)

@[reducible] def CamCall.Reply : CamCall → Type
  | apiRead _ _ _ => ReadReply
  | tcflush => Unit
  | openImage _ => Except Int Nat
  | openTbl _ => Except Int Nat
  | read _ _ => Option Bytes
  | lseek _ => Unit
  | write _ _ => Int
  | fsync _ => Int
  | close _ => Int
  | sendReport _ _ _ _ => Unit

abbrev CamTask := Script CamCall CamCall.Reply

/-! ## Commands and responses -/

/-- `paybee_kisscam_ConfigurePacket` on a packet of zeros, or one with as many parameters. -/
def configurePacket (payload : Bytes) (command : UInt8) : Bytes :=
  pktStartByte :: command :: ((payload ++ List.replicate 4 0).take 4 ++ [pktTerminateByte])

/-- `paybee_kisscam_TransactionResult_t`. -/
structure TransactionResult where
  returnCode : Code
  returnType : RetType
  readSize : Nat
deriving DecidableEq, Repr

/-- The result before anything has failed. -/
def TransactionResult.success (readSize : Nat) : TransactionResult := ⟨.success, .success, readSize⟩

/-- What a transaction leaves: the memory, the result and the buffer. -/
structure Transacted where
  data : Data
  result : TransactionResult
  rx : Bytes

/-- Bytes are put in a buffer. -/
def overlay (rx : Bytes) (off : Nat) (bytes : Bytes) : Bytes :=
  rx.take off ++ bytes ++ rx.drop (off + bytes.length)

/-- The input is thrown away, if there is a handle. -/
def flush (d : Data) (t : Transacted) : CamTask Transacted :=
  if d.handle then .call .tcflush fun () => .done t else .done t

/-- `PAYBEE_KISSCAM_SERIAL_FAILURE`. -/
def serialFailure (d : Data) (code : Code) (readByte : Nat) (rx : Bytes) : CamTask Transacted :=
  flush d ⟨d.err, ⟨code, .cfe, if readByte > rx.length then rx.length else readByte⟩, rx⟩

/-- One of the three reads of `paybee_kisscam_Transaction`. -/
def receive (d : Data) (txData : Option Bytes) (rx : Bytes) (off rxSize readByte : Nat)
    (next : Nat → Bytes → CamTask Transacted) : CamTask Transacted :=
  .call (.apiRead txData off rxSize) fun r =>
    let readByte := readByte + r.readBytes.toNat
    let rx := overlay rx off r.bytes
    if r.status ≠ .success then serialFailure d r.status readByte rx
    else if r.readBytes ≠ rxSize then serialFailure d .partialReadErr readByte rx
    else next readByte rx

/-- The length that a response says. -/
def payloadLen (rx : Bytes) : Nat :=
  ((rx.getD 3 0).toUInt16 <<< 8 ||| (rx.getD 4 0).toUInt16).toNat

/-- `paybee_kisscam_Transaction`.  The capacity is the size of the buffer. -/
@[irreducible] def transaction (d : Data) (tx rx : Bytes) : CamTask Transacted :=
  if rx.length < hdrTailSize then .done ⟨d, ⟨.badArgument, .app, 0⟩, rx⟩
  else receive d (some tx) rx 0 3 0 fun readByte rx =>
    receive d none rx 3 2 readByte fun readByte rx =>
      if hdrTailSize + payloadLen rx > rx.length then
        flush d ⟨d.err, ⟨.rangeError, .app, readByte⟩, rx⟩
      else receive d none rx 5 (payloadLen rx + 1) readByte fun readByte rx =>
        .done ⟨d, .success readByte, rx⟩

/-- `paybee_kisscam_IsRetryableDownloadError`. -/
def TransactionResult.isRetryable (r : TransactionResult) : Bool :=
  r.returnType = .cfe ∧ (r.returnCode = .partialReadErr ∨ r.returnCode = .timeout)

/-- The loop of `paybee_kisscam_DownloadTransaction`, with the retries that are left. -/
def downloadRetry (cmd : Bytes) (rxCapacity : Nat) : Nat → Data → CamTask Transacted
  | retries, d => (transaction d cmd (List.replicate rxCapacity 0)).bind fun t =>
    if t.result.returnType = .success ∨ t.result.isRetryable = false then .done t
    else match retries with
      | 0 => .done t
      | retries + 1 => downloadRetry cmd rxCapacity retries t.data

/-- `paybee_kisscam_DownloadTransaction`. -/
@[irreducible] def downloadTransaction (d : Data) (cmd : Bytes) (rxCapacity : Nat) : CamTask Transacted :=
  downloadRetry cmd rxCapacity downloadMaxRetries d

end Kisscam
end FlightApps
