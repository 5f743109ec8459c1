import FlightApps.Pay.World

/-!
# The download tasks

`PAY_SLT_DownloadChildTask_I2C` and `PAY_SLT_DownloadChildTask_RS422` are one script with two links:
they differ in how a part is checked and read (`readPart`) and in the chunk sizes they take.  Each
counter of a loop counts down what is left: 501 polls, four attempts, the chunks up to
`file_npart`.  A `goto` out of a loop is an answer of its own.

Delays, events and `printf` are left out.
-/

set_option autoImplicit false

namespace FlightApps
namespace Pay

open Script

/-! ## The path -/

/-- `OS_MAX_FILE_NAME`. -/
def maxFileName : Nat := 20

/-- The bytes of a text. -/
def ascii (text : List Char) : List UInt8 := text.map fun c => c.toNat.toUInt8

/-- The characters that `PAY_SLT_MakeDownloadPath` replaces. -/
def unsafeChars : List UInt8 := ascii "/\\:*?\"<>|".toList

/-- What `snprintf` leaves in a buffer of this size, without the 0. -/
def snprintf (size : Nat) (text : List UInt8) : List UInt8 := text.take (size - 1)

/-- `PAY_SLT_MakeDownloadPath`, for a `filepath` of 128 bytes; the name ends at a 0. -/
def makeDownloadPath (fileIndex : UInt32) (srcName : List UInt8) : Path :=
  let name := srcName.takeWhile (· ≠ 0)
  if name = [] then
    snprintf 128 (ascii "/cf/payload_".toList ++ ascii (Nat.toDigits 10 fileIndex.toNat) ++
      ascii ".bin".toList)
  else
    let safe := (name.take (maxFileName - 1)).map fun c => if c ∈ unsafeChars then 95 else c
    snprintf 128 (ascii "/cf/".toList ++ safe)

/-! ## Reading a part -/

/-- `sizeof(chunk_buffer)`. -/
def chunkBufferSize : UInt32 := 1024

/-- What comes of reading a part. -/
inductive Part
  /-- `goto CHUNK_RETRY`. -/
  | retry
  /-- `goto FILE_CLEANUP`. -/
  | leave (status : Status)
  /-- What is to be written, and the two CRCs, one of which must be right. -/
  | got (block : List UInt8) (chunkCrc validChunkCrc : UInt32)

/-- `PAY_SLT_ReadExpI2CChunk`; `handle` says that the handle is there. -/
def readExpI2CChunk (handle : Bool) (size : Nat) : Task (Status × List UInt8) :=
  if handle = false ∨ size = 0 then .done (deviceBadArg, [])
  else
    .call .fetchI2cAddr fun (status, addr) =>
    if status ≠ success then .done (status, [])
    else
      .call (.i2cRead addr size) fun (status, bytes) =>
      .done (status, if status = success then Notes.bytesOf size bytes else [])

/-- The part `i` of a download on I2C. -/
def readPartI2C (handle : Bool) (chunkSize expectedFileSize i _npart partSize : UInt32) : Task Part :=
  if partSize = 0 ∨ chunkSize < partSize ∨ chunkBufferSize ≤ partSize then .done (.leave badArgument)
  else if expectedFileSize ≤ i * chunkSize then .done (.leave badArgument)
  else
    let rest := expectedFileSize - i * chunkSize
    let validDataLen := if partSize < rest then partSize else rest
    if validDataLen = 0 then .done (.leave badArgument)
    else
      (readExpI2CChunk handle (partSize + 1).toNat).bind fun (status, bytes) =>
      if status ≠ success then .done .retry
      else
        -- the first byte is garbage
        let chunk := (bytes.drop 1).take partSize.toNat
        let block := chunk.take validDataLen.toNat
        let crc := calculateCRC32 chunk
        .done (.got block crc (if validDataLen ≠ partSize then calculateCRC32 block else crc))

/-- `PAY_SLT_ReadExpRS422Bytes`, from byte `offset` on. -/
def readExpRS422Bytes (command : Bool) (offset : Nat) : Nat → Task (Status × List UInt8)
  | 0 => .done (success, [])
  | n + 1 =>
    .call (.serialRead (command && offset = 0)) fun (status, b) =>
    if status ≠ success then .done (status, [])
    else
      (readExpRS422Bytes command (offset + 1) n).bind fun (status, bytes) =>
      .done (status, b :: bytes)

/-- `PAY_SLT_RS422_DOWNLOAD_HEADER_SIZE`. -/
def rs422HeaderSize : Nat := 7

/-- `PAY_SLT_RS422_DOWNLOAD_OVERHEAD_SIZE`. -/
def rs422OverheadSize : Nat := rs422HeaderSize + 1

/-- `CFE_SRL_PARTIAL_READ_ERR`, an error. -/
def partialReadErr : Status := -20

/-- A big-endian number in two bytes of a frame. -/
def be16 (frame : List UInt8) (i : Nat) : UInt16 :=
  (frame.getD i 0).toUInt16 <<< 8 ||| (frame.getD (i + 1) 0).toUInt16

/-- `PAY_SLT_ReadExpRS422Chunk`. -/
def readExpRS422Chunk (handle : Bool) (size : Nat) : Task (Status × List UInt8) :=
  if handle = false ∨ size < rs422OverheadSize then .done (deviceBadArg, [])
  else
    (readExpRS422Bytes true 0 rs422HeaderSize).bind fun (status, header) =>
    if status ≠ success then .done (status, [])
    else
      let payloadLen := be16 header 3
      if payloadLen < 2 then .done (partialReadErr, [])
      else
        let remaining := (payloadLen - 2).toNat
        if size < rs422OverheadSize + remaining then .done (partialReadErr, [])
        else
          (readExpRS422Bytes false 0 (remaining + 1)).bind fun (status, rest) =>
          .done (status, header ++ rest)

/-- What the task makes of a frame. -/
def parseRS422 (i npart partSize : UInt32) (frame : List UInt8) : Part :=
  let receivedFrameLen := be16 frame 3
  let receivedPart := be16 frame 5
  if receivedFrameLen < 2 then .retry
  else
    let receivedDataLen := receivedFrameLen - 2
    if frame.getD 0 0 ≠ 0x40 ∨ frame.getD 1 0 ≠ 0x44 then .retry
    -- only the last chunk may have padding
    else if receivedDataLen.toUInt32 ≠ partSize ∧
        ¬(i + 1 = npart ∧ partSize ≤ receivedDataLen.toUInt32) then .retry
    else if frame.getD (rs422HeaderSize + receivedDataLen.toNat) 0 ≠ 0x0D then .retry
    else if receivedPart ≠ i.toUInt16 then .retry
    else
      let chunk := (frame.drop rs422HeaderSize).take receivedDataLen.toNat
      let block := chunk.take partSize.toNat
      .got block (calculateCRC32 block) (calculateCRC32 block)

/-- The part `i` of a download on RS422. -/
def readPartRS422 (handle : Bool) (chunkSize _expectedFileSize i npart partSize : UInt32) :
    Task Part :=
  if partSize = 0 ∨ chunkSize < partSize ∨ chunkBufferSize - 8 < partSize then
    .done (.leave badArgument)
  else
    (readExpRS422Chunk handle chunkBufferSize.toNat).bind fun (status, frame) =>
    if status ≠ success then .done .retry
    else .done (parseRS422 i npart partSize frame)

def readPart (link : Link) (handle : Bool) : (chunkSize expectedFileSize i npart partSize : UInt32) →
    Task Part :=
  match link with
  | .i2c => readPartI2C handle
  | .rs422 => readPartRS422 handle

/-- The chunk sizes that are refused. -/
def badChunkSize (link : Link) (chunkSize : UInt32) : Bool :=
  match link with
  | .i2c => chunkSize = 0 || chunkBufferSize ≤ chunkSize
  | .rs422 => chunkSize = 0 || chunkBufferSize - 8 < chunkSize

/-! ## The end of a task -/

/-- What the end of a task looks at. -/
structure Vars where
  status : Status
  filepath : Path
  expectedFileSize : UInt32
  fd : Int
  completed : Bool
  deviceError : Bool

/-- `TASK_EXIT`. -/
def taskExit (link : Link) (v : Vars) : Task Unit :=
  .call (.report (if v.completed then success
    else if v.status = success then externalResourceFail else v.status)
    link v.filepath v.expectedFileSize v.deviceError) .done

/-- `if (file_fd >= 0) OS_close(file_fd)`. -/
def closeIfOpen {α : Type} (fd : Int) (t : Task α) : Task α :=
  if 0 ≤ fd then .call (.close fd) fun _ => t else t

/-- `FILE_CLEANUP`. -/
def fileCleanup (link : Link) (v : Vars) : Task Unit :=
  closeIfOpen v.fd (.call (.set .ftRelease 1) fun releaseStatus =>
    taskExit link (if releaseStatus ≠ success ∧ v.completed = true then
      { v with completed := false, status := releaseStatus } else v))

/-! ## The loop over the chunks -/

/-- `PAY_SLT_DOWNLOAD_FLUSH_INTERVAL`. -/
def flushInterval : UInt32 := 20

/-- What is fixed while chunks are loaded. -/
structure Fixed where
  link : Link
  handle : Bool
  chunkSize : UInt32
  npart : UInt32
  filepath : Path
  expectedFileSize : UInt32

/-- What a chunk changes. -/
structure Totals where
  totalCrc : UInt32
  totalWritten : UInt32
  fd : Int

/-- What comes of a chunk, and of all of them. -/
inductive Loaded
  | more (t : Totals)
  /-- `goto FILE_CLEANUP`. -/
  | leave (v : Vars)

/-- The variables at a `goto FILE_CLEANUP`. -/
def Fixed.vars (f : Fixed) (fd : Int) (status : Status) (deviceError : Bool) : Vars :=
  ⟨status, f.filepath, f.expectedFileSize, fd, false, deviceError⟩

/-- Open the file again, at its end. -/
def reopen (f : Fixed) (t : Totals) : Task Loaded :=
  .call (.openCreate f.filepath false) fun (status, id) =>
  if status ≠ success then .done (.leave (f.vars id status false))
  else
    .call (.lseekEnd id) fun status =>
    if status < 0 then .done (.leave (f.vars id status false))
    else .done (.more { t with fd := id })

/-- The file is opened again every few chunks, and after the last one. -/
def flush (f : Fixed) (i : UInt32) (t : Totals) : Task Loaded :=
  if (i + 1) % flushInterval = 0 ∨ i + 1 = f.npart then closeIfOpen t.fd (reopen f t)
  else .done (.more t)

/-- Write the chunk, and count it. -/
def store (f : Fixed) (i : UInt32) (t : Totals) (block : List UInt8) : Task Loaded :=
  .call (.write t.fd block) fun written =>
  if written < 0 ∨ written.toInt.toNat ≠ block.length then .done (.leave (f.vars t.fd success false))
  else flush f i ⟨updateCRC32 t.totalCrc block, t.totalWritten + written.toUInt32, t.fd⟩

/-- The loop over `ft_part_ready`, where this many polls are left after the next one.  `none` says
that a poll has failed. -/
def waitReady : Nat → Task (Option UInt32)
  | 0 => .call (.fetch .ftPartReady) fun (status, _) =>
    .done (if status ≠ success then none else some 2)
  | left + 1 => .call (.fetch .ftPartReady) fun (status, ready) =>
    if status ≠ success then .done none
    else if ready = 0 then waitReady left
    else .done (some ready)

/-- What one attempt at a chunk comes to; `none` is `goto CHUNK_RETRY`. -/
def attempt (f : Fixed) (i : UInt32) (t : Totals) : Task (Option Loaded) :=
  .call (.set .ftPartLoad i) fun status =>
  if status ≠ success then .done none
  else
    (waitReady 500).bind fun ready =>
    if ready ≠ some 1 then .done none
    else
      .call (.fetch .ftPartSize) fun (status, partSize) =>
      if status ≠ success then .done none
      else
        (readPart f.link f.handle f.chunkSize f.expectedFileSize i f.npart partSize).bind fun part =>
        match part with
        | .retry => .done none
        | .leave status => .done (some (.leave (f.vars t.fd status true)))
        | .got block chunkCrc validChunkCrc =>
          .call (.fetch .ftPartCrc32) fun (status, partCrc) =>
          if status ≠ success then .done (some (.leave (f.vars t.fd status true)))
          else if chunkCrc ≠ partCrc ∧ validChunkCrc ≠ partCrc then .done none
          else (store f i t block).bind fun r => .done (some r)

/-- `CHUNK_RETRY`, with this many attempts left. -/
def loadChunk (f : Fixed) (i : UInt32) (t : Totals) : Nat → Task Loaded
  | 0 => .done (.leave (f.vars t.fd externalResourceFail true))
  | left + 1 => (attempt f i t).bind fun r =>
    match r with
    | none => loadChunk f i t left
    | some r => .done r

/-- The loop over the chunks, with this many left. -/
def loadChunks (f : Fixed) : Nat → UInt32 → Totals → Task Loaded
  | 0, _, t => .done (.more t)
  | left + 1, i, t => (loadChunk f i t 4).bind fun r =>
    match r with
    | .more t => loadChunks f left (i + 1) t
    | .leave v => .done (.leave v)

/-! ## The tasks -/

/-- The last check, of the size of the file. -/
def checkSize (f : Fixed) (startChunk : UInt32) (t : Totals) (status : Status) : Task Unit :=
  closeIfOpen t.fd (.call (.stat f.filepath) fun (statStatus, size) =>
    let v := f.vars (-1) status true
    fileCleanup f.link
      (if statStatus ≠ success then { v with status := statStatus, deviceError := false }
      else if size ≠ f.expectedFileSize.toNat ∨
          (startChunk = 0 ∧ t.totalWritten ≠ f.expectedFileSize) then
        { v with status := externalResourceFail }
      else { v with completed := true }))

/-- The checks after the last chunk. -/
def checkFile (f : Fixed) (startChunk : UInt32) (t : Totals) : Task Unit :=
  if startChunk = 0 then
    .call (.fetch .ftFileCrc32) fun (status, fileCrc) =>
    if status ≠ success then fileCleanup f.link (f.vars t.fd status true)
    else if t.totalCrc ^^^ 0xFFFFFFFF ≠ fileCrc then
      fileCleanup f.link (f.vars t.fd externalResourceFail true)
    else checkSize f startChunk t status
  else checkSize f startChunk t success

/-- Everything once the file is open. -/
def transfer (link : Link) (handle : Bool) (chunkSize npart startChunk : UInt32) (filepath : Path)
    (fd : Int) : Task Unit :=
  .call (.fetch .ftFileSize) fun (status, expectedFileSize) =>
  if status ≠ success then fileCleanup link ⟨status, filepath, 0, fd, false, true⟩
  else
    let f : Fixed := ⟨link, handle, chunkSize, npart, filepath, expectedFileSize⟩
    (loadChunks f (npart - startChunk).toNat startChunk ⟨0xFFFFFFFF, 0, fd⟩).bind fun r =>
    match r with
    | .more t => checkFile f startChunk t
    | .leave v => fileCleanup link v

/-- Open the file, for a start at its beginning or at its end. -/
def openFile (link : Link) (handle : Bool) (chunkSize npart startChunk : UInt32) (filepath : Path) :
    Task Unit :=
  .call (.openCreate filepath (startChunk = 0)) fun (status, id) =>
  if status ≠ success then fileCleanup link ⟨status, filepath, 0, id, false, false⟩
  else if startChunk = 0 then transfer link handle chunkSize npart startChunk filepath id
  else
    .call (.lseekEnd id) fun status =>
    if status < 0 then fileCleanup link ⟨status, filepath, 0, id, false, false⟩
    else transfer link handle chunkSize npart startChunk filepath id

/-- What both tasks do. -/
def downloadChildTask (link : Link) (handle : Bool) (fileIndex startChunk : UInt32) : Task Unit :=
  .call (.fetch .ftChunkSize) fun (status, chunkSize) =>
  if status ≠ success then taskExit link ⟨status, [], 0, -1, false, true⟩
  else if badChunkSize link chunkSize then taskExit link ⟨badArgument, [], 0, -1, false, true⟩
  else
    .call (.set .ftFileLoad fileIndex) fun status =>
    if status ≠ success then taskExit link ⟨status, [], 0, -1, false, true⟩
    else
      .call (.fetch .ftFileNpart) fun (status, npart) =>
      if status ≠ success then fileCleanup link ⟨status, [], 0, -1, false, true⟩
      else if npart ≤ startChunk then fileCleanup link ⟨badArgument, [], 0, -1, false, false⟩
      else
        .call .fetchName fun (status, name) =>
        if status ≠ success then fileCleanup link ⟨status, [], 0, -1, false, true⟩
        else openFile link handle chunkSize npart startChunk (makeDownloadPath fileIndex name)

/-- `PAY_SLT_DownloadChildTask_I2C`. -/
def downloadChildTaskI2C (handle : Bool) (fileIndex startChunk : UInt32) : Task Unit :=
  downloadChildTask .i2c handle fileIndex startChunk

/-- `PAY_SLT_DownloadChildTask_RS422`. -/
def downloadChildTaskRS422 (handle : Bool) (fileIndex startChunk : UInt32) : Task Unit :=
  downloadChildTask .rs422 handle fileIndex startChunk

end Pay
end FlightApps
