import FlightApps.Kisscam.Camera
import Mathlib.Data.List.GetD
import Mathlib.Data.Vector.Basic

/-!
# The commands of the camera app

An image is downloaded line by line.  For each of the four memory slots of the camera the app keeps
which lines it has, how many images it has completed, and how far the present one is.  The lines go to
a file whose name says the slot, the image and the range of lines; the table goes to a file of its own
(`paybee_kisscam_cmds.c`, `paybee_kisscam_utils.c`, `paybee_kisscam_Init`).
-/

set_option autoImplicit false

namespace FlightApps
namespace Kisscam

open Script

/-! ## Function codes -/

def noopCC : UInt8 := 0
def resetCountersCC : UInt8 := 1
def pingCC : UInt8 := 2
def setModeCC : UInt8 := 3
def memoryStatusCC : UInt8 := 4
def setExposureCC : UInt8 := 5
def captureCC : UInt8 := 6
def downloadCC : UInt8 := 7
def readRegisterCC : UInt8 := 8
def writeRegisterCC : UInt8 := 9
def downloadAllCC : UInt8 := 10

/-- `paybee_kisscam_RPT_PHASE_STARTED`. -/
def phaseStarted : UInt8 := 1

/-- `paybee_kisscam_RPT_PHASE_FINISHED`. -/
def phaseFinished : UInt8 := 2

/-! ## Files -/

/-- `%u`. -/
def decimal (n : Nat) : List Char := Nat.toDigits 10 n

/-- `%03u`. -/
def decimal3 (n : Nat) : List Char := (decimal n).leftpad 3 '0'

/-- `paybee_kisscam_IMG_PATH`. -/
def imgPath : List Char := "./cf/sdcard/Kiss".toList

/-- `paybee_kisscam_TBL_PATH`. -/
def tblPath : List Char := "./cf/sdcard/paybee_kisscam.tbl".toList

/-- The path that `paybee_kisscam_OpenFile` prints. -/
def imagePath (memorySlot lastImgIdx startLine lineNum : Nat) : List Char :=
  if lineNum = 0 then
    imgPath ++ decimal memorySlot ++ '_' :: decimal lastImgIdx ++ '_' :: decimal3 startLine
  else
    imgPath ++ decimal memorySlot ++ '_' :: decimal lastImgIdx ++ '_' :: decimal3 startLine ++
      '-' :: decimal3 (startLine + lineNum - 1)

/-- `paybee_kisscam_WriteToFile`. -/
def writeToFile (id : Int) (data : Bytes) (isTbl : Bool) : CamTask Code :=
  let rest : CamTask Code := .call (.write id data) fun n =>
    if n ≠ data.length then .done (.other (-1))
    else .call (.fsync id) fun r => .done (if r ≠ 0 then .other (-2) else .success)
  if id < 0 then .done (.other (-1))
  else if isTbl then .call (.lseek id) fun () => rest
  else rest

/-- `paybee_kisscam_CloseFile`. -/
def closeFile (id : Int) : CamTask Code :=
  if id < 0 then .done .success
  else .call (.close id) fun r => .done (if r = 0 then .success else .other r)

/-- The bytes of a table. -/
def MemoryEntry.bytes (e : MemoryEntry) : Bytes := e.memoryState :: e.lastImgIdx :: e.lineState.toList

def statusBytes (m : MemoryStatus) : Bytes := m.toList.flatMap MemoryEntry.bytes

/-- `sizeof(paybee_kisscam_MemoryEntry_t)` and `sizeof(paybee_kisscam_Memory_Status_t)`. -/
def entrySize : Nat := 62
def statusSize : Nat := memorySlot * entrySize

/-- A table of zeros after a read. -/
def MemoryEntry.ofBytes (bs : Bytes) : MemoryEntry :=
  ⟨bs.getD 0 0, bs.getD 1 0, Vector.ofFn fun i => bs.getD (2 + i) 0⟩

def statusOfBytes (bs : Bytes) : MemoryStatus :=
  Vector.ofFn fun i : Fin memorySlot => .ofBytes (bs.drop (entrySize * i))

/-! ## Reports -/

/-- `paybee_kisscam_SendReport`, and on with the program. -/
def report {α : Type} (cc : UInt8) (returnType : RetType) (returnCode : Code) (data : Bytes)
    (rest : CamTask α) : CamTask α :=
  .call (.sendReport cc returnType returnCode (data.take retValueBufSize)) fun () => rest

/-- `paybee_kisscam_ReportTransaction`. -/
def reportTransaction (cc : UInt8) (t : Transacted) : CamTask Data :=
  report cc t.result.returnType t.result.returnCode (t.rx.take t.result.readSize) (.done t.data)

/-- `paybee_kisscam_ReportAppError`. -/
def reportAppError (d : Data) (cc : UInt8) (returnCode : Code) : CamTask Data :=
  report cc .app returnCode [] (.done d.err)

/-- `paybee_kisscam_ReportDownloadPhase`. -/
def reportDownloadPhase {α : Type} (cc phase : UInt8) (result : TransactionResult) (rxData : Bytes)
    (rest : CamTask α) : CamTask α :=
  report cc result.returnType result.returnCode (phase :: rxData.take (retValueBufSize - 1)) rest

/-! ## The table -/

/-- `paybee_kisscam_SetLineTrue`. -/
def setLineTrue (d : Data) (memSlot line : Nat) : Data :=
  let e := d.entry memSlot
  if e.memoryState = downloadDone then d
  else d.setEntry memSlot { e with lineState := e.lineState.mark line }

/-- `paybee_kisscam_Inspection`. -/
def inspection (d : Data) (memorySlot totalLines : Nat) : Data :=
  let e := d.entry memorySlot
  if (List.range totalLines).all e.lineState.marked then
    d.setEntry memorySlot ⟨downloadDone, e.lastImgIdx + 1, Bitmap.clear 60⟩
  else d.setEntry memorySlot { e with memoryState := onGoing }

/-- The state of a slot is set. -/
def Data.setState (d : Data) (memSlot : Nat) (state : UInt8) : Data :=
  d.setEntry memSlot { d.entry memSlot with memoryState := state }

/-! ## Commands of one transaction -/

/-- A command that sends its payload and reports the response. -/
def transactionCmd (d : Data) (cc cmdCode : UInt8) (payload : Bytes) (tlmSize : Nat) : CamTask Data :=
  (transaction d (configurePacket payload cmdCode) (List.replicate (rxBufSize tlmSize) 0)).bind
    (reportTransaction cc)

/-- `paybee_kisscam_NoopCmd`. -/
def noopCmd (d : Data) : CamTask Data :=
  let d := { d with cmdCounter := d.cmdCounter + 1 }
  report noopCC .success .success
    ("PAYBEE_KISSCAM NOOP CMD: YOSI IN SPACE".toList.map (fun c => c.val.toUInt8) ++ [0]) (.done d)

/-- `paybee_kisscam_ResetCountersCmd`. -/
def resetCountersCmd (d : Data) : CamTask Data :=
  let d := { d with cmdCounter := 0, errCounter := 0, deviceErrCounter := 0 }
  report resetCountersCC .success .success [d.cmdCounter, d.errCounter] (.done d)

/-- `paybee_kisscam_PingCmd`. -/
def pingCmd (d : Data) (pn : UInt8) : CamTask Data :=
  transactionCmd { d with cmdCounter := d.cmdCounter + 1 } pingCC 0x50 [pn] (getTlmSize 4)

/-- `paybee_kisscam_SetModeCmd`. -/
def setModeCmd (d : Data) (md : UInt8) : CamTask Data :=
  let d := { d with cmdCounter := d.cmdCounter + 1 }
  if md > 2 then reportAppError d setModeCC .rangeError
  else transactionCmd d setModeCC 0x4D [md] (getTlmSize 0)

/-- `paybee_kisscam_MemoryStatusCmd`. -/
def memoryStatusCmd (d : Data) : CamTask Data :=
  transactionCmd { d with cmdCounter := d.cmdCounter + 1 } memoryStatusCC 0x53 [] (getTlmSize 20)

/-- `paybee_kisscam_SetExposureCmd`. -/
def setExposureCmd (d : Data) (ex1 ex2 : UInt8) : CamTask Data :=
  transactionCmd { d with cmdCounter := d.cmdCounter + 1 } setExposureCC 0x45 [ex1, ex2] (getTlmSize 0)

/-- `paybee_kisscam_ReadRegisterCmd`. -/
def readRegisterCmd (d : Data) (ad1 ad2 : UInt8) : CamTask Data :=
  transactionCmd { d with cmdCounter := d.cmdCounter + 1 } readRegisterCC 0x52 [ad1, ad2] (getTlmSize 4)

/-- `paybee_kisscam_WriteRegisterCmd`. -/
def writeRegisterCmd (d : Data) (ad1 ad2 rg1 rg2 : UInt8) : CamTask Data :=
  transactionCmd { d with cmdCounter := d.cmdCounter + 1 } writeRegisterCC 0x57 [ad1, ad2, rg1, rg2]
    (getTlmSize 0)

/-! ## Capturing -/

/-- What a capture leaves of an entry. -/
def MemoryEntry.cleared (e : MemoryEntry) : MemoryEntry :=
  { e with memoryState := notStarted, lineState := Bitmap.clear 60 }

/-- A slot is cleared. -/
def Data.cleared (d : Data) (mem : Nat) : Data := d.setEntry mem (d.entry mem).cleared

/-- `paybee_kisscam_CaptureCmd`. -/
def captureCmd (d : Data) (mem tst : UInt8) : CamTask Data :=
  let d := { d with cmdCounter := d.cmdCounter + 1 }
  if mem.toNat ≥ memorySlot then reportAppError d captureCC .rangeError
  else
    (transaction d (configurePacket [mem, tst] captureCmdCode)
      (List.replicate (rxBufSize captureTlmSize) 0)).bind fun t =>
    reportTransaction captureCC
      (if t.result.returnType = .success ∧ t.result.readSize = captureTlmSize
        then { t with data := t.data.cleared mem.toNat } else t)

/-! ## Downloading -/

/-- How many lines an image has, by the preview flag. -/
def totLine (pre : UInt8) : Nat := if pre ≠ 0 then thumbnailImgLineNum else imgLineNum

/-- How long the response with a line is. -/
def expectedRxSize (pre : UInt8) : Nat := if pre ≠ 0 then downloadThumbnailTlmSize else downloadTlmSize

/-- A command that asks for a line. -/
def downloadPacket (mem pre : UInt8) (line : Nat) : Bytes :=
  let line := UInt16.ofNat line
  configurePacket [mem, pre, (line >>> 8 &&& 0xFF).toUInt8, (line &&& 0xFF).toUInt8] downloadCmdCode

/-- The slot is one, and the flag is one of the two. -/
def validTarget (mem pre : UInt8) : Bool := mem.toNat < memorySlot ∧ (pre = 1 ∨ pre = 0)

/-- What failed with a file is reported and counted. -/
def Transacted.failed (t : Transacted) (code : Code) : Transacted :=
  ⟨t.data.err, ⟨code, .osal, 0⟩, t.rx⟩

/-- The code for an `errno`. -/
def errnoCode (errno : Int) : Code := if errno ≠ 0 then .other (-errno) else .externalResourceFail

/-- The end of a download: the second report. -/
def finish (cc pre : UInt8) (t : Transacted) : CamTask Data :=
  reportDownloadPhase cc phaseFinished t.result
    (if t.result.readSize = expectedRxSize pre then [] else t.rx.take t.result.readSize) (.done t.data)

/-- The table goes to its file. -/
def storeTable (d : Data) : CamTask Code := writeToFile d.tblHandle (statusBytes d.memSlotStatus) true

/-- `paybee_kisscam_CloseFile` after a download. -/
def closeImage (fd : Nat) (t : Transacted) : CamTask Transacted :=
  (closeFile fd).bind fun status => .done
    (if status ≠ .success ∧ t.result.returnType = .success then t.failed status else t)

/-- `paybee_kisscam_DownloadCmd`, from where the line is known to be one. -/
def downloadLine (d : Data) (mem pre ln1 ln2 : UInt8) (line : Nat) : CamTask Data :=
  reportDownloadPhase downloadCC phaseStarted (.success 0) [] <|
  (downloadTransaction d (configurePacket [mem, pre, ln1, ln2] downloadCmdCode)
    downloadTlmSize).bind fun t =>
  if t.result.returnType ≠ .success then finish downloadCC pre t
  else if t.result.readSize ≠ expectedRxSize pre then finish downloadCC pre t
  else .call (.openImage (imagePath mem.toNat (t.data.entry mem.toNat).lastImgIdx.toNat line 0)) fun
    | .error errno => finish downloadCC pre (t.failed (errnoCode errno))
    | .ok fd =>
      (writeToFile fd (t.rx.take (expectedRxSize pre)) false).bind fun status =>
      (closeImage fd (if status ≠ .success then t.failed status else t)).bind fun t =>
      if t.result.returnType ≠ .success then finish downloadCC pre t
      else
        let d := inspection ((setLineTrue t.data mem.toNat line).setState mem.toNat onGoing) mem.toNat
          (totLine pre)
        (storeTable d).bind fun status =>
        finish downloadCC pre
          (if status ≠ .success then ({ t with data := d } : Transacted).failed status
            else { t with data := d })

/-- `paybee_kisscam_DownloadCmd`. -/
def downloadCmd (d : Data) (mem pre ln1 ln2 : UInt8) : CamTask Data :=
  let d := { d with cmdCounter := d.cmdCounter + 1 }
  if ¬validTarget mem pre then reportAppError d downloadCC .rangeError
  else
    let line := (ln1.toUInt16 <<< 8 ||| ln2.toUInt16).toNat
    if line ≥ totLine pre then reportAppError d downloadCC .rangeError
    else downloadLine d mem pre ln1 ln2 line

/-- The loop of `paybee_kisscam_DownloadAllCmd`, with the lines that are left. -/
def downloadLines (fd : Nat) (mem pre : UInt8) : Nat → Nat → Transacted → CamTask Transacted
  | 0, _, t => .done t
  | n + 1, line, t =>
    (downloadTransaction t.data (downloadPacket mem pre line) downloadTlmSize).bind fun t =>
    if t.result.returnType ≠ .success then .done t
    else if t.result.readSize ≠ expectedRxSize pre then .done t
    else (writeToFile fd (t.rx.take (expectedRxSize pre)) false).bind fun status =>
      if status ≠ .success then .done (t.failed status)
      else downloadLines fd mem pre n (line + 1) { t with data := setLineTrue t.data mem.toNat line }

/-- `paybee_kisscam_DownloadAllCmd`, from where the range is known to be one. -/
def downloadRange (d : Data) (mem pre : UInt8) (startLine lineCount : Nat) : CamTask Data :=
  reportDownloadPhase downloadAllCC phaseStarted (.success 0) [] <|
  .call (.openImage (imagePath mem.toNat (d.entry mem.toNat).lastImgIdx.toNat startLine lineCount)) fun
    | .error errno =>
      finish downloadAllCC pre
        (Transacted.failed ⟨d, .success 0, List.replicate downloadTlmSize 0⟩ (errnoCode errno))
    | .ok fd =>
      (downloadLines fd mem pre lineCount startLine
        ⟨d, .success 0, List.replicate downloadTlmSize 0⟩).bind fun t =>
      (closeImage fd t).bind fun t =>
      let d := t.data.setState mem.toNat onGoing
      let d := if t.result.returnType = .success then inspection d mem.toNat (totLine pre) else d
      (storeTable d).bind fun status =>
      finish downloadAllCC pre
        (if status ≠ .success ∧ t.result.returnType = .success
          then ({ t with data := d } : Transacted).failed status else { t with data := d })

/-- `paybee_kisscam_DownloadAllCmd`. -/
def downloadAllCmd (d : Data) (mem pre : UInt8) (startLine lineNum : UInt16) : CamTask Data :=
  let d := { d with cmdCounter := d.cmdCounter + 1 }
  if ¬validTarget mem pre then reportAppError d downloadAllCC .rangeError
  else
    let lineCount := if lineNum = 0 then 1 else lineNum.toNat
    if startLine.toNat ≥ totLine pre ∨ lineCount > totLine pre - startLine.toNat then
      reportAppError d downloadAllCC .rangeError
    else downloadRange d mem pre startLine.toNat lineCount

/-! ## The app -/

/-- A ground command. -/
inductive Cmd
  | noop
  | resetCounters
  | ping (pn : UInt8)
  | setMode (md : UInt8)
  | memoryStatus
  | setExposure (ex1 ex2 : UInt8)
  | capture (mem tst : UInt8)
  | download (mem pre ln1 ln2 : UInt8)
  | readRegister (ad1 ad2 : UInt8)
  | writeRegister (ad1 ad2 rg1 rg2 : UInt8)
  | downloadAll (mem pre : UInt8) (startLine lineNum : UInt16)

/-- `paybee_kisscam_ProcessGroundCommand`, for commands of the right length. -/
def processGroundCommand (d : Data) : Cmd → CamTask Data
  | .noop => noopCmd d
  | .resetCounters => resetCountersCmd d
  | .ping pn => pingCmd d pn
  | .setMode md => setModeCmd d md
  | .memoryStatus => memoryStatusCmd d
  | .setExposure ex1 ex2 => setExposureCmd d ex1 ex2
  | .capture mem tst => captureCmd d mem tst
  | .download mem pre ln1 ln2 => downloadCmd d mem pre ln1 ln2
  | .readRegister ad1 ad2 => readRegisterCmd d ad1 ad2
  | .writeRegister ad1 ad2 rg1 rg2 => writeRegisterCmd d ad1 ad2 rg1 rg2
  | .downloadAll mem pre startLine lineNum => downloadAllCmd d mem pre startLine lineNum

/-- The memory after `memset`, with the serial handle and the descriptor of the table. -/
def Data.zero (handle : Bool) (tblHandle : Int) : Data :=
  ⟨0, 0, 0, handle, tblHandle, Vector.replicate memorySlot default⟩

/-- `paybee_kisscam_Init`, once the pipe is there. -/
def init (handle : Bool) : CamTask Data :=
  .call (.openTbl tblPath) fun
    | .error _ => .done (.zero handle (-1))
    | .ok fd => .call (.read fd statusSize) fun
      | none => .done (.zero handle fd)
      | some bs => .done { Data.zero handle fd with memSlotStatus := statusOfBytes bs }

end Kisscam
end FlightApps
