import Mathlib.Algebra.Ring.Nat
import Mathlib.Data.List.Basic

/-!
# The handlers of the FTP-NEW server

One thread serves a connection.  `ftp_handler_thread` reads a packet at a time and calls the handler
of its type with the state of the session: what it is doing (`ftp_server_state_t`), the file that
is uploaded and the file that is downloaded.  This file is the model of the handlers.

A handler calls the file system, the allocator and the CSP library.  What these calls answer is an
argument (`Outcomes`), and what the handler does to the outside is a list of `Effect`s in the order
in which it happens: the buffers it gets, sends and frees, the files and the map it opens and
closes, each use of a pointer, an index or a divisor, and the changes of the two files of an upload.
An effect says whether the pointer that is used is non-NULL; a handler that uses a NULL pointer
goes on in the model, so that every run has a meaning and the effects tell which are safe.

The file names are left out: all requests are for one path.  `size_t` has 64 bits.  The numbers a
packet carries are in host order; the checks for NULL arguments, the debug output and the CRCs
that are computed are left out.
-/

set_option autoImplicit false

namespace FlightApps
namespace Ftp

/-- `GS_FTP_STATUS_CHUNKS`. -/
def statusChunks : Nat := 10

/-- `GS_FTP_MAX_CHUNK_SIZE`. -/
def maxChunkSize : Nat := 256

/-- `*CHUNK_DONE`. -/
def chunkDone : UInt8 := 43

/-- `*CHUNK_MISSING`. -/
def chunkMissing : UInt8 := 45

/-- `ftp_ret_t`. -/
inductive Ret
  | ok
  | inval
  | busy
  | noent
  | exist
  | nospc
  | io
  | nomem
  | notsup
  | timeout
deriving DecidableEq

/-- `ftp_state_t`. -/
inductive Phase
  | idle
  | download
  | upload
deriving DecidableEq

/-- `ftp_upload_file_state_t`.  The pointers are non-NULL or not; `mapBuf` is the memory that
`map_buf` points to. -/
structure UploadFile where
  fp : Bool
  mapFp : Bool
  mapBuf : Option (List UInt8)
  size : Nat
  chunkSize : Nat
  chunks : Nat
deriving DecidableEq

/-- `ftp_download_file_state_t`. -/
structure DownloadFile where
  fp : Bool
  size : Nat
  memAddr : Nat
  memSize : Nat
  chunkSize : Nat
  chunks : Nat
deriving DecidableEq

/-- The state of a thread. -/
structure Session where
  state : Phase
  upload : UploadFile
  download : DownloadFile
deriving DecidableEq

/-- The state a thread starts with: idle, and the file states cleared. -/
def Session.start : Session where
  state := .idle
  upload := ⟨false, false, none, 0, 0, 0⟩
  download := ⟨false, 0, 0, 0, 0, 0⟩

/-- The requests of the extension layer. -/
inductive Ext
  | logRequest
  | timeoutSet
  | timeoutGet
  | shellCmd
  | cspBufs
  | ramWrite
  | ramRead
  | kill
  | ping
deriving DecidableEq

/-- A packet.  `entry` gives the entries of a status reply as they lie in memory, those of the array
and what lies behind it.  A data packet has the bytes behind its chunk number. -/
inductive Packet
  | uploadRequest (size : UInt32) (chunkSize : UInt16)
  | statusRequest
  | data (chunk : UInt32) (bytes : List UInt8)
  | downloadRequest (chunkSize : UInt16) (memAddr memSize : UInt32)
  | statusReply (entries : UInt16) (entry : Nat → UInt32 × UInt32)
  | crcRequest
  | done
  | ext (e : Ext)
  | unknown

/-- What the calls of one handler answer. -/
structure Outcomes where
  /-- `csp_send` of the reply takes the buffer. -/
  send : Bool
  /-- `fopen` of the target, to read and write. -/
  openTarget : Bool
  /-- `fopen` of the target, to create it. -/
  createTarget : Bool
  /-- `malloc` of the map. -/
  allocMap : Bool
  /-- `fopen` of the map file. -/
  openMap : Bool
  /-- `fopen` of the map file, to create it. -/
  createMap : Bool
  /-- The number of cells of the map file that can be cleared. -/
  cleared : Nat
  /-- What `fread` finds in the map file. -/
  mapBytes : List UInt8
  /-- `fseek` and `fwrite` of a chunk of the target. -/
  seekTarget : Bool
  writeTarget : Bool
  /-- `fseek` and `fwrite` of a cell of the map file. -/
  seekMap : Bool
  writeMap : Bool
  /-- `fopen` of the file to download. -/
  openSource : Bool
  /-- Its size, if `fstat` finds it. -/
  stat : Option Nat
  /-- `csp_buffer_get` for a data packet, after so many have been sent. -/
  getBuffer : Nat → Bool
  /-- `fseek` for its chunk. -/
  seekSource : Nat → Bool
  /-- The number of bytes that `fread` finds for it. -/
  bytesRead : Nat → Nat
  /-- `csp_send` of it. -/
  sendData : Nat → Bool
  /-- `csp_buffer_get` for an error code packet. -/
  getErrorBuffer : Bool
  /-- `_exit` or `reboot` ends the process. -/
  endsProcess : Bool

/-- Every call succeeds.  The target and its map are there or not. -/
def Outcomes.fine (target : Bool) (map : Option (List UInt8)) : Outcomes where
  send := true
  openTarget := target
  createTarget := true
  allocMap := true
  openMap := map.isSome
  createMap := true
  cleared := 2 ^ 32
  mapBytes := map.getD []
  seekTarget := true
  writeTarget := true
  seekMap := true
  writeMap := true
  openSource := true
  stat := some 0
  getBuffer _ := true
  seekSource _ := true
  bytesRead _ := 2 ^ 32
  sendData _ := true
  getErrorBuffer := true
  endsProcess := true

/-- What a session opens or allocates. -/
inductive Resource
  | target
  | map
  | mapBuf
  | source
deriving DecidableEq

/-- What a status reply reports. -/
structure Report where
  complete : Nat
  total : Nat
  entries : List (Nat × Nat)
deriving DecidableEq

/-- What is sent. -/
inductive Reply
  | upload (ret : Ret)
  | download (ret : Ret) (size : Nat)
  | status (ret : Ret) (report : Option Report)
  | crc (ret : Ret)
  | data (chunk : Nat)
  | error (ret : Ret)
  | ext (e : Ext)
deriving DecidableEq

/-- What a handler does.  Buffers are numbered within the call; the packet that was read is 0. -/
inductive Effect
  /-- `csp_read` or `csp_buffer_get`. -/
  | got (buffer : Nat)
  /-- `csp_send` that takes the buffer. -/
  | sent (buffer : Nat) (reply : Reply)
  /-- `csp_buffer_free`. -/
  | freed (buffer : Nat)
  /-- `fopen` or `malloc`. -/
  | opened (r : Resource)
  /-- `fclose` or `free`. -/
  | closed (r : Resource)
  /-- The pointer is used, and is non-NULL or not. -/
  | used (r : Resource) (valid : Bool)
  /-- `map_buf[i]`, with so many cells allocated. -/
  | indexed (i cells : Nat)
  /-- `entry[i]` of a status reply. -/
  | entry (i : Nat)
  | divided (divisor : Nat)
  /-- Bytes of a chunk are copied into a packet. -/
  | copied (n : Nat)
  /-- The target is created, empty. -/
  | targetCreated
  | targetWritten (offset : Nat) (bytes : List UInt8)
  /-- The map file is created, with so many cells missing. -/
  | mapCreated (cells : Nat)
  | mapMarked (chunk : Nat)
  | mapRemoved
deriving DecidableEq

/-- What a handler leaves behind. -/
structure Handled where
  session : Session
  effects : List Effect
  ret : Ret

/-- The reply goes out in the packet that was read, or the packet is freed. -/
def answer (s : Session) (effects : List Effect) (o : Outcomes) (reply : Reply) (ret : Ret) :
    Handled :=
  if o.send then ⟨s, effects ++ [.sent 0 reply], ret⟩
  else ⟨s, effects ++ [.freed 0], .io⟩

/-- The number of chunks, rounded up, as an `uint32_t`. -/
def chunkCount (size chunkSize : Nat) : Nat := (size + chunkSize - 1) / chunkSize % 2 ^ 32

/-- Close a resource if the pointer to it is non-NULL. -/
def closeIf (open? : Bool) (r : Resource) : List Effect := if open? then [.closed r] else []

/-! ## Uploads -/

/-- What `init_upload` returns, and the pointers it gives out on success. -/
structure Opened where
  ret : Ret
  mapFp : Bool
  mapBuf : Option (List UInt8)
  effects : List Effect

/-- The cells of the map that are written one after the other. -/
def clearCells (cells chunks : Nat) : List Effect :=
  (List.range cells).map fun i => .indexed i chunks

/-- `init_upload`. -/
def initUpload (chunks : Nat) (o : Outcomes) : Opened :=
  let newFile : Bool := !o.openTarget
  let target : List Effect :=
    (if newFile then [.targetCreated] else []) ++ [.opened .target]
  if newFile ∧ ¬o.createTarget then ⟨.noent, false, none, []⟩
  else if chunks = 0 then ⟨.ok, false, none, target⟩
  else if ¬o.allocMap then ⟨.nomem, false, none, target ++ [.closed .target]⟩
  else if o.openMap then
    let loaded := o.mapBytes.take chunks
    let effects := target ++ [.opened .mapBuf, .opened .map, .used .map true]
    if loaded.length ≠ chunks then
      ⟨.io, false, none, effects ++ [.closed .target, .closed .map, .closed .mapBuf]⟩
    else ⟨.ok, true, some loaded, effects⟩
  else if ¬newFile then
    ⟨.exist, false, none, target ++ [.opened .mapBuf, .closed .target, .closed .mapBuf]⟩
  else if ¬o.createMap then
    ⟨.noent, false, none, target ++ [.opened .mapBuf, .closed .target, .closed .mapBuf]⟩
  else
    let effects := target ++ [.opened .mapBuf, .opened .map, .used .map true]
    if o.cleared < chunks then
      ⟨.io, false, none, effects ++ .mapCreated o.cleared :: clearCells o.cleared chunks ++
        [.closed .target, .closed .map, .closed .mapBuf]⟩
    else
      ⟨.ok, true, some (List.replicate chunks chunkMissing),
        effects ++ .mapCreated chunks :: clearCells chunks chunks⟩

/-- `ftp_handler_upload_request`. -/
def uploadRequest (s : Session) (size : UInt32) (chunkSize : UInt16) (o : Outcomes) : Handled :=
  if s.state ≠ .idle then answer s [] o (.upload .busy) .busy
  else if chunkSize = 0 then
    answer { s with state := .upload, upload := { s.upload with chunkSize := 0 } } [] o
      (.upload .inval) .inval
  else
    let chunks := chunkCount size.toNat chunkSize.toNat
    let opened := initUpload chunks o
    let file := { s.upload with size := size.toNat, chunkSize := chunkSize.toNat, chunks := chunks }
    let file :=
      if opened.ret = .ok then
        { file with fp := true, mapFp := opened.mapFp, mapBuf := opened.mapBuf }
      else file
    answer { s with state := .upload, upload := file } (.divided chunkSize.toNat :: opened.effects)
      o (.upload opened.ret) opened.ret

/-- The loop of `ftp_handler_status_request`. -/
structure Scan where
  complete : Nat
  entries : List (Nat × Nat)
  count : Nat
  next : Nat

/-- A chunk in the loop of `ftp_handler_status_request`. -/
def scanChunk (chunks : Nat) (scan : Scan) (i : Nat) (cell : UInt8) : Scan :=
  if cell = chunkDone then
    if 0 < scan.count ∧ scan.entries.length < statusChunks then
      { scan with
        complete := scan.complete + 1
        entries := scan.entries ++ [(scan.next, scan.count)]
        count := 0 }
    else { scan with complete := scan.complete + 1 }
  else
    let next := if scan.count = 0 then i else scan.next
    let count := scan.count + 1
    if i = chunks - 1 ∧ scan.entries.length < statusChunks then
      { scan with entries := scan.entries ++ [(next, count)], count := count, next := next }
    else { scan with count := count, next := next }

/-- The cells of `map_buf`; what is read where there is none is not done. -/
def mapCell (file : UploadFile) (i : Nat) : UInt8 := (file.mapBuf.getD []).getD i 0

/-- The loop over the first chunks. -/
def scanMap (file : UploadFile) (n : Nat) : Scan :=
  (List.range n).foldl (fun scan i => scanChunk file.chunks scan i (mapCell file i)) ⟨0, [], 0, 0⟩

/-- The report of a status reply. -/
def report (file : UploadFile) : Report :=
  ⟨(scanMap file file.chunks).complete, file.chunks, (scanMap file file.chunks).entries⟩

/-- What the loop of `ftp_handler_status_request` touches. -/
def scanEffects (file : UploadFile) : List Effect :=
  ((List.range file.chunks).flatMap fun i =>
    [.used .mapBuf file.mapBuf.isSome, .indexed i (file.mapBuf.getD []).length]) ++
  (List.range (report file).entries.length).map .entry

/-- `ftp_handler_status_request`. -/
def statusRequest (s : Session) (o : Outcomes) : Handled :=
  if s.state ≠ .upload then answer s [] o (.status .busy none) .busy
  else answer s (scanEffects s.upload) o (.status .ok (some (report s.upload))) .ok

/-- The offset of a chunk in the target, as an `uint32_t`. -/
def chunkOffset (file : UploadFile) (chunk : Nat) : Nat := chunk * file.chunkSize % 2 ^ 32

/-- The size of a chunk of an upload. -/
def chunkLength (file : UploadFile) (chunk : Nat) : Nat :=
  if file.size < chunkOffset file chunk + file.chunkSize then file.size - chunkOffset file chunk
  else file.chunkSize

/-- The request is always freed. -/
def dropData (s : Session) (effects : List Effect) (ret : Ret) : Handled :=
  ⟨s, effects ++ [.freed 0], ret⟩

/-- `ftp_handler_data`. -/
def dataHandler (s : Session) (chunk : UInt32) (bytes : List UInt8) (o : Outcomes) : Handled :=
  let file := s.upload
  let offset := chunkOffset file chunk.toNat
  let size := chunkLength file chunk.toNat
  if s.state ≠ .upload then dropData s [] .busy
  else if file.chunks ≤ chunk.toNat then dropData s [] .inval
  else if bytes.length < size then dropData s [] .inval
  else if ¬file.fp then dropData s [] .io
  else if ¬o.seekTarget ∨ ¬o.writeTarget then dropData s [.used .target true] .io
  else
    let written : List Effect := [.used .target true, .targetWritten offset (bytes.take size),
      .used .map file.mapFp]
    if ¬o.seekMap ∨ ¬o.writeMap then dropData s written .io
    else
      dropData
        { s with upload := { file with
          mapBuf := file.mapBuf.map fun cells => cells.set chunk.toNat chunkDone } }
        (written ++ [.mapMarked chunk.toNat, .used .mapBuf file.mapBuf.isSome,
          .indexed chunk.toNat (file.mapBuf.getD []).length]) .ok

/-! ## Downloads -/

/-- `ftp_handler_download_request`. -/
def downloadRequest (s : Session) (chunkSize : UInt16) (memAddr memSize : UInt32) (o : Outcomes) :
    Handled :=
  let file := s.download
  if s.state ≠ .idle then answer s [] o (.download .busy file.size) .busy
  else
    let s := { s with state := .download }
    if ¬o.openSource then answer s [] o (.download .noent file.size) .noent
    else
      let effects : List Effect := [.opened .source, .used .source true]
      match o.stat with
      | none => answer s (effects ++ [.closed .source]) o (.download .io file.size) .io
      | some stat =>
        let file := { file with size := stat, chunkSize := chunkSize.toNat }
        if chunkSize = 0 then
          answer { s with download := file } (effects ++ [.closed .source]) o
            (.download .inval stat) .inval
        else
          let file := { file with memSize := memSize.toNat, memAddr := memAddr.toNat }
          if stat < memAddr.toNat then
            answer { s with download := file } (effects ++ [.closed .source]) o
              (.download .nospc stat) .nospc
          else
            let size :=
              if 0 < memSize.toNat ∧ memSize.toNat < stat - memAddr.toNat then memSize.toNat
              else stat - memAddr.toNat
            let file := { file with
              size := size, chunks := chunkCount size chunkSize.toNat, fp := true }
            answer { s with download := file }
              (effects ++ [.divided chunkSize.toNat, .used .source true]) o
              (.download .ok size) .ok

/-- What the two loops of `ftp_handler_status_reply` come to: an entry, or a chunk of it. -/
inductive Visit
  | entry (i : Nat)
  | chunk (c : Nat)
deriving DecidableEq

/-- The entries of a status reply with their chunks, in the order of the two loops. -/
def visits (entries : UInt16) (entry : Nat → UInt32 × UInt32) : List Visit :=
  (List.range entries.toNat).flatMap fun i =>
    .entry i :: (List.range (entry i).2.toNat).map fun j =>
      .chunk (((entry i).1.toNat + j) % 2 ^ 32)

/-- The size of a chunk of a download. -/
def dataSize (file : DownloadFile) (chunk : Nat) : Nat :=
  if chunk = file.chunks - 1 then
    if file.size % file.chunkSize = 0 then file.chunkSize else file.size % file.chunkSize
  else file.chunkSize

/-- How the two loops end: with a code, the buffer at hand, and the number of data packets that
were sent; `returns` where the handler returns without a reply. -/
structure Streamed where
  ret : Ret
  buffer : Option Nat
  sent : Nat
  returns : Bool
  effects : List Effect

/-- Further effects in front. -/
def Streamed.after (effects : List Effect) (r : Streamed) : Streamed :=
  { r with effects := effects ++ r.effects }

/-- `read_data`. -/
def readData (file : DownloadFile) (o : Outcomes) (size k : Nat) : List Effect :=
  .used .source file.fp :: if o.seekSource k then [.copied (min (o.bytesRead k) size)] else []

/-- The two loops of `ftp_handler_status_reply`, with `k` data packets sent and a buffer at hand or
not. -/
def stream (file : DownloadFile) (o : Outcomes) : List Visit → Option Nat → Nat → Streamed
  | [], buffer, k => ⟨.ok, buffer, k, false, []⟩
  | .entry i :: vs, buffer, k => (stream file o vs buffer k).after [.entry i]
  | .chunk c :: vs, buffer, k =>
    if file.chunks ≤ c then ⟨.inval, buffer, k, false, []⟩
    else
      let size := dataSize file c
      let before : List Effect := if c = file.chunks - 1 then [.divided file.chunkSize] else []
      if buffer = none ∧ ¬o.getBuffer k then ⟨.nomem, none, k, true, before⟩
      else
        let b := buffer.getD k
        let before := before ++ (if buffer = none then [.got k] else []) ++ readData file o size k
        if ¬o.seekSource k ∨ o.bytesRead k < size then ⟨.io, some b, k, false, before⟩
        else if ¬o.sendData k then ⟨.io, some b, k, false, before⟩
        else (stream file o vs none (k + 1)).after (before ++ [.sent b (.data c)])

/-- `statusrep_out`: the error code, and the buffer that is freed if there is one. -/
def sendError (s : Session) (r : Streamed) (o : Outcomes) : Handled :=
  if r.ret = .ok then
    ⟨s, r.effects ++ r.buffer.toList.map .freed, .ok⟩
  else if r.buffer = none ∧ ¬o.getErrorBuffer then ⟨s, r.effects, .nomem⟩
  else
    let b := r.buffer.getD r.sent
    let effects := r.effects ++ if r.buffer = none then [.got b] else []
    if o.send then ⟨s, effects ++ [.sent b (.error r.ret), .freed b], r.ret⟩
    else ⟨s, effects ++ [.freed b], .io⟩

/-- `ftp_handler_status_reply`. -/
def statusReply (s : Session) (entries : UInt16) (entry : Nat → UInt32 × UInt32) (o : Outcomes) :
    Handled :=
  if s.state ≠ .download then sendError s ⟨.busy, some 0, 0, false, []⟩ o
  else
    let r := stream s.download o (visits entries entry) (some 0) 0
    if r.returns then ⟨s, r.effects, r.ret⟩ else sendError s r o

/-! ## Both -/

/-- `ftp_handler_crc_request`. -/
def crcRequest (s : Session) (o : Outcomes) : Handled :=
  match s.state with
  | .idle => answer s [] o (.crc .busy) .busy
  | .download => answer s [.used .source s.download.fp] o (.crc .ok) .ok
  | .upload => answer s [.used .target s.upload.fp] o (.crc .ok) .ok

/-- `ftp_handler_done`. -/
def doneHandler (s : Session) : Handled :=
  match s.state with
  | .idle => ⟨s, [.freed 0], .busy⟩
  | .download =>
    ⟨{ s with state := .idle, download := { s.download with fp := false } },
      closeIf s.download.fp .source ++ [.freed 0], .ok⟩
  | .upload =>
    ⟨{ s with
        state := .idle
        upload := { s.upload with fp := false, mapFp := false, mapBuf := none } },
      closeIf s.upload.fp .target ++ closeIf s.upload.mapBuf.isSome .mapBuf ++
        closeIf s.upload.mapFp .map ++ (if s.upload.mapFp then [.mapRemoved] else []) ++
        [.freed 0], .ok⟩

/-! ## The thread -/

/-- What a thread does after a packet: it reads the next one, it exits, or the process has ended. -/
inductive Next
  | reads
  | exits
  | gone
deriving DecidableEq

/-- What becomes of a packet in `ftp_handler_thread`. -/
def handle (s : Session) (p : Packet) (o : Outcomes) : Handled × Next :=
  match p with
  | .uploadRequest size chunkSize => (uploadRequest s size chunkSize o, .reads)
  | .statusRequest => (statusRequest s o, .reads)
  | .data chunk bytes => (dataHandler s chunk bytes o, .reads)
  | .downloadRequest chunkSize memAddr memSize =>
    (downloadRequest s chunkSize memAddr memSize o, .reads)
  | .statusReply entries entry => (statusReply s entries entry o, .reads)
  | .crcRequest => (crcRequest s o, .reads)
  | .done => (doneHandler s, .exits)
  | .ext e =>
    if e = .kill ∧ o.endsProcess then (⟨s, [], .ok⟩, .gone)
    else (answer s [] o (.ext e) .ok, .exits)
  | .unknown => (⟨s, [.freed 0], .notsup⟩, .exits)

/-- `cleanup_file_states`. -/
def cleanup (s : Session) : List Effect :=
  closeIf s.upload.fp .target ++ closeIf s.upload.mapFp .map ++
    closeIf s.upload.mapBuf.isSome .mapBuf ++ closeIf s.download.fp .source

end Ftp
end FlightApps
