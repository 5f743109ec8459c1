import Mathlib.Data.Finset.Insert
import Mathlib.Data.Finset.Erase
import Mathlib.Data.List.FinRange
import Mathlib.Logic.Function.Basic
import FlightApps.Lib.Machine

/-!
# The serial driver

`linux_serial.c` opens, reads, writes and closes serial devices, and counts for each open descriptor
the operations, the bytes and the errors.  The counters are in a table of `counter_table` entries,
each for one descriptor, with `-1` for an entry that is not used.

What the system calls return is part of the input: `Call` for a call of `ioctl`, `read`, `write` or
`poll`, `OpenCalls` and `Closing` for the calls that open and close.  The descriptors of devices
that are open are part of the state; a descriptor that is open is not handed out again.
-/

set_option autoImplicit false

namespace FlightApps
namespace Serial

/-! ## System calls -/

/-- The subchannels of the driver below `CFE_PSP_IODriver_SERIAL_SUBCH_MAX`. -/
inductive Subch
  | i2c
  | spi
  | can
  | uart
deriving DecidableEq, Repr

/-- What a system call gives.  `pollin` is the event of `poll`. -/
structure Call where
  ret : Int
  pollin : Bool

/-- What `close` gives: success, or an error with the descriptor gone or not. -/
inductive Closing
  | done
  | failed (kept : Bool)
deriving DecidableEq

/-- What the calls that open a device give: the descriptor, and for a socket whether `ioctl` and
`bind` succeed, and what closing it gives if not. -/
structure OpenCalls where
  fd : Option Nat
  ioctl : Bool
  bind : Bool
  closing : Closing

/-- The status codes of the driver. -/
inductive Status
  | success
  | openError
  | socketError
  | bindError
  | closeError
  | error
  | timeoutError
  | invalidTypeError
  | writeError
  | partialWriteError
  | readError
  | partialReadError
  | ioctlError
deriving DecidableEq, Repr

/-- `CFE_PSP_IODriver_SERIAL_OPEN_ERROR`. -/
def openErrorCode : Int := -0x6FFFF + 3

/-! ## The counter table -/

/-- `LINUX_SERIAL_COUNTER_TABLE_SIZE`. -/
def counterTableSize : Nat := 20

/-- `LINUX_SERIAL_COUNTER_ENTRY_NOT_USED`. -/
def notUsed : Int := -1

/-- `linux_serial_cnt_mem_t`. -/
inductive Member
  | txOps
  | rxOps
  | txCnt
  | rxCnt
  | txErr
  | rxErr
  | setupErr
deriving DecidableEq, Repr

/-- `CFE_PSP_IODriver_Serial_cnt_Payload_t`. -/
structure Cnts where
  count : Member → UInt16
  errno : Int

def zeroCnts : Cnts := ⟨fun _ => 0, 0⟩

/-- `CFE_PSP_IODriver_Serial_cnt_t`. -/
structure CntEntry where
  fd : Int
  cnts : Cnts

abbrev Idx := Fin counterTableSize

/-- The counter table, and the descriptors of devices that are open. -/
structure Driver where
  table : Idx → CntEntry
  opened : Finset Int

def Driver.setEntry (d : Driver) (i : Idx) (x : CntEntry) : Driver :=
  { d with table := Function.update d.table i x }

@[simp] theorem setEntry_opened (d : Driver) (i : Idx) (x : CntEntry) :
    (d.setEntry i x).opened = d.opened := rfl

@[simp] theorem setEntry_self (d : Driver) (i : Idx) (x : CntEntry) :
    (d.setEntry i x).table i = x := Function.update_self ..

theorem setEntry_other {d : Driver} {i j : Idx} {x : CntEntry} (hne : j ≠ i) :
    (d.setEntry i x).table j = d.table j := Function.update_of_ne hne ..

/-- `linux_serial_get_cnt_entry`, and the loops that look for an entry. -/
def Driver.getCntEntry (d : Driver) (fd : Int) : Option Idx :=
  (List.finRange counterTableSize).find? fun i => (d.table i).fd == fd

/-- `linux_serial_allocate_cnt_entry`. -/
def Driver.allocateCntEntry (d : Driver) (fd : Int) : Driver :=
  match d.getCntEntry notUsed with
  | some i => d.setEntry i { d.table i with fd := fd }
  | none => d

/-- A counter is to be increased. -/
structure Inc where
  member : Member
  val : Nat

/-- `linux_serial_increase_cnt`, with the value of `errno`. -/
def Driver.increaseCnt (d : Driver) (fd : Int) (inc : Inc) (errno : Int) : Driver :=
  match d.getCntEntry fd with
  | some i =>
    let c := (d.table i).cnts
    d.setEntry i { d.table i with
      cnts := ⟨Function.update c.count inc.member (c.count inc.member + UInt16.ofNat inc.val),
        errno⟩ }
  | none => d

/-- The counters that an operation increases, one after the other. -/
def Driver.increaseCnts (d : Driver) (fd : Int) (errno : Nat → Int) : List Inc → Driver
  | [] => d
  | inc :: incs =>
    (d.increaseCnt fd inc (errno 0)).increaseCnts fd (fun n => errno (n + 1)) incs

/-- `linux_serial_free_cnt_entry`. -/
def Driver.freeCntEntry (d : Driver) (fd : Int) : Driver :=
  match d.getCntEntry fd with
  | some i => d.setEntry i ⟨notUsed, zeroCnts⟩
  | none => d

/-- `linux_serial_clear_cnt_entry`. -/
def Driver.clearCntEntry (d : Driver) (fd : Int) : Driver :=
  match d.getCntEntry fd with
  | some i => d.setEntry i { d.table i with cnts := zeroCnts }
  | none => d

/-! ## Reading and writing -/

/-- `CFE_PSP_IODriver_SerialXfer_t`, as far as the driver looks at it: `txData` and `rxData` tell
whether there is a buffer. -/
structure Xfer where
  fd : Int
  txData : Bool
  txSize : UInt64
  rxData : Bool
  rxSize : UInt64
  interval : UInt32

/-- `LINUX_SERIAL_AT91_MAX_TX_SIZE`. -/
def at91MaxTxSize : Int := 3

/-- `CAN_MAX_DLEN`. -/
def canMaxDlen : Nat := 8

/-- `sizeof(struct can_frame)`. -/
def canFrameSize : Nat := 16

/-- `linux_serial_write`. -/
def linuxSerialWrite (c : Call) (size : Nat) : Status :=
  if c.ret < 0 then .writeError else if c.ret ≠ size then .partialWriteError else .success

/-- `linux_serial_read`. -/
def linuxSerialRead (c : Call) (size : Nat) : Status :=
  if c.ret < 0 then .readError else if c.ret ≠ size then .partialReadError else .success

/-- `linux_serial_poll_read`, with what `poll` and `read` give. -/
def linuxSerialPollRead (p c : Call) (size : Nat) : Status :=
  if 0 < p.ret ∧ p.pollin then linuxSerialRead c size
  else if p.ret = 0 then .timeoutError
  else .error

/-- A write that was done. -/
def Xfer.sent (x : Xfer) : List Inc := [⟨.txOps, 1⟩, ⟨.txCnt, x.txSize.toNat⟩]

/-- A read that was done. -/
def Xfer.received (x : Xfer) : List Inc := [⟨.rxOps, 1⟩, ⟨.rxCnt, x.rxSize.toNat⟩]

def txError : List Inc := [⟨.txErr, 1⟩]

def rxError : List Inc := [⟨.rxErr, 1⟩]

def setupError : List Inc := [⟨.setupErr, 1⟩]

/-- What an operation returns, if that is determined, and the counters it increases. -/
abbrev Outcome := Option Status × List Inc

/-- A call of `linux_serial_write` with its counters, as in most of the functions below. -/
def Xfer.writeAll (x : Xfer) (c : Call) : Outcome :=
  let status := linuxSerialWrite c x.txSize.toNat
  (some status, if status ≠ .success then txError else x.sent)

/-- `linux_serial_write_i2c`.  The size is compared as an `int32_t`. -/
def writeI2c (x : Xfer) (calls : Nat → Call) : Outcome :=
  if at91MaxTxSize < x.txSize.toUInt32.toInt32.toInt then
    if (calls 0).ret < 0 then (some .ioctlError, setupError)
    else if (calls 1).ret < 0 then (some .ioctlError, setupError)
    else x.writeAll (calls 2)
  else if (calls 0).ret < 0 then (some .ioctlError, txError)
  else (some .success, x.sent)

/-- `linux_serial_write_spi`. -/
def writeSpi (x : Xfer) (calls : Nat → Call) : Outcome :=
  if (calls 0).ret < 0 then (some .ioctlError, txError) else (some .success, x.sent)

/-- The bytes of the next frame. -/
def frameBytes (left : Nat) : Nat := if canMaxDlen ≤ left then canMaxDlen else left

theorem frameBytes_pos {left : Nat} (h : 0 < left) : 0 < frameBytes left := by
  rw [frameBytes]
  split
  · decide
  · exact h

/-- The loop of `linux_serial_write_can`, from frame `k` with `tot` bytes written.  Without a frame
the status is not set. -/
def writeCanLoop (size : Nat) (calls : Nat → Call) (tot k : Nat) (status : Option Status) :
    Option Status :=
  if tot < size then
    let st := linuxSerialWrite (calls k) canFrameSize
    if st ≠ .success then some st
    else writeCanLoop size calls (tot + frameBytes (size - tot)) (k + 1) (some st)
  else status
termination_by size - tot
decreasing_by
  have hpos : 0 < frameBytes (size - tot) := frameBytes_pos (by omega)
  omega

/-- `linux_serial_write_can`. -/
def writeCan (x : Xfer) (calls : Nat → Call) : Outcome :=
  let status := writeCanLoop x.txSize.toNat calls 0 0 none
  (status, if status = some .success ∨ status = none then x.sent else txError)

/-- `linux_serial_write_uart`. -/
def writeUart (x : Xfer) (calls : Nat → Call) : Outcome := x.writeAll (calls 0)

/-- A transfer that starts with data to write. -/
def Xfer.hasTx (x : Xfer) : Bool := x.txData && x.txSize != 0

def Xfer.hasRx (x : Xfer) : Bool := x.rxData && x.rxSize != 0

/-- A combined transaction, whose one call moves both ways. -/
def Xfer.combined (x : Xfer) (c : Call) : Outcome :=
  if !x.hasTx && !x.hasRx then (some .success, [])
  else if c.ret < 0 then (some .ioctlError, txError ++ rxError)
  else (some .success, x.sent ++ x.received)

/-- `linux_serial_read_i2c`.  For a combined transaction `calls 0` is the last `ioctl`, the one that
no signal interrupts. -/
def readI2c (x : Xfer) (calls : Nat → Call) : Outcome :=
  if x.interval ≠ 0 then
    if (calls 0).ret < 0 then (some .ioctlError, setupError)
    else if (calls 1).ret < 0 then (some .ioctlError, setupError)
    else
      let w := linuxSerialWrite (calls 2) x.txSize.toNat
      if w ≠ .success then (some w, txError)
      else
        let r := linuxSerialRead (calls 3) x.rxSize.toNat
        (some r, x.sent ++ if r ≠ .success then rxError else x.received)
  else x.combined (calls 0)

/-- `linux_serial_read_spi`. -/
def readSpi (x : Xfer) (calls : Nat → Call) : Outcome := x.combined (calls 0)

/-- The loop of `linux_serial_read_can`.  Each frame takes a `poll` and a `read`. -/
def readCanLoop (size : Nat) (calls : Nat → Call) (tot k : Nat) (status : Option Status) :
    Option Status :=
  if tot < size then
    let st := linuxSerialPollRead (calls k) (calls (k + 1)) canFrameSize
    if st ≠ .success then some st
    else readCanLoop size calls (tot + frameBytes (size - tot)) (k + 2) (some st)
  else status
termination_by size - tot
decreasing_by
  have hpos : 0 < frameBytes (size - tot) := frameBytes_pos (by omega)
  omega

/-- The read of `linux_serial_read_can`, after the write. -/
def readCanData (x : Xfer) (calls : Nat → Call) (status : Option Status) : Outcome :=
  let r := readCanLoop x.rxSize.toNat calls 0 0 status
  (r, if r = some .success ∨ r = none then x.received else rxError)

/-- `linux_serial_read_can`.  The calls for writing are `calls`, those for reading `reads`. -/
def readCan (x : Xfer) (calls reads : Nat → Call) : Outcome :=
  if x.hasTx then
    let w := writeCan x calls
    if w.1 ≠ some .success then w
    else
      let r := readCanData x reads w.1
      (r.1, w.2 ++ r.2)
  else readCanData x reads none

/-- `linux_serial_read_uart`. -/
def readUart (x : Xfer) (calls : Nat → Call) : Outcome :=
  let read (c c' : Call) (incs : List Inc) : Outcome :=
    let r := linuxSerialPollRead c c' x.rxSize.toNat
    (some r, incs ++ if r ≠ .success then rxError else x.received)
  if x.hasTx then
    if (calls 0).ret < 0 then (some .ioctlError, setupError)
    else
      let w := linuxSerialWrite (calls 1) x.txSize.toNat
      if w ≠ .success then (some w, txError) else read (calls 2) (calls 3) x.sent
  else read (calls 0) (calls 1) []

/-- The subchannel of an id. -/
def subchOf : UInt16 → Option Subch
  | 0 => some .i2c
  | 1 => some .spi
  | 2 => some .can
  | 3 => some .uart
  | _ => none

/-- `linux_serial_write_dispatch`. -/
def writeDispatch (subch : UInt16) (x : Xfer) (calls : Nat → Call) : Outcome :=
  match subchOf subch with
  | some .i2c => writeI2c x calls
  | some .spi => writeSpi x calls
  | some .can => writeCan x calls
  | some .uart => writeUart x calls
  | none => (some .invalidTypeError, [])

/-- `linux_serial_read_dispatch`. -/
def readDispatch (subch : UInt16) (x : Xfer) (calls reads : Nat → Call) : Outcome :=
  match subchOf subch with
  | some .i2c => readI2c x calls
  | some .spi => readSpi x calls
  | some .can => readCan x calls reads
  | some .uart => readUart x calls
  | none => (some .invalidTypeError, [])

/-! ## Opening and closing -/

/-- What the driver answers. -/
inductive Reply
  | fd (fd : Nat)
  | status (status : Option Status)
  | counters (cnts : Cnts)

/-- `linux_serial_close`.  There is no descriptor below zero. -/
def Driver.linuxSerialClose (d : Driver) (fd : Int) (closing : Closing) : Driver × Status :=
  if fd < 0 then (d, .closeError)
  else
    match closing with
    | .done => ({ d with opened := d.opened.erase fd }.freeCntEntry fd, .success)
    | .failed true => (d, .closeError)
    | .failed false => ({ d with opened := d.opened.erase fd }, .closeError)

/-- A descriptor that the system hands out. -/
def Driver.newFd (d : Driver) (fd : Option Nat) : Option Nat :=
  fd.filter fun n => (n : Int) ∉ d.opened

/-- `linux_serial_open`.  An error code is entered in the table like a descriptor. -/
def Driver.linuxSerialOpen (d : Driver) (c : OpenCalls) : Driver × Reply :=
  match d.newFd c.fd with
  | none => (d.allocateCntEntry openErrorCode, .status (some .openError))
  | some n => ({ d with opened := insert (n : Int) d.opened }.allocateCntEntry n, .fd n)

/-- `linux_serial_opensocket`. -/
def Driver.linuxSerialOpensocket (d : Driver) (c : OpenCalls) : Driver × Reply :=
  match d.newFd c.fd with
  | none => (d, .status (some .socketError))
  | some n =>
    let d := { d with opened := insert (n : Int) d.opened }
    if !c.ioctl then ((d.linuxSerialClose n c.closing).1, .status (some .ioctlError))
    else if !c.bind then ((d.linuxSerialClose n c.closing).1, .status (some .bindError))
    else (d.allocateCntEntry n, .fd n)

/-! ## Commands -/

/-- The commands of `linux_serial_DevCmd`, with what the system calls give. -/
inductive Cmd
  | openDevice (subch : UInt16) (c : OpenCalls)
  | write (subch : UInt16) (x : Xfer) (calls : Nat → Call) (errno : Nat → Int)
  | read (subch : UInt16) (x : Xfer) (calls reads : Nat → Call) (errno : Nat → Int)
  | close (subch : UInt16) (fd : Int) (closing : Closing)
  | getCnts (fd : Int)
  | clearCnts (fd : Int)

/-- `linux_serial_open_dispatch`. -/
def Driver.openDispatch (d : Driver) (subch : UInt16) (c : OpenCalls) : Driver × Reply :=
  match subchOf subch with
  | some .can => d.linuxSerialOpensocket c
  | some _ => d.linuxSerialOpen c
  | none => (d, .status (some .invalidTypeError))

/-- `linux_serial_close_dispatch`. -/
def Driver.closeDispatch (d : Driver) (subch : UInt16) (fd : Int) (closing : Closing) :
    Driver × Reply :=
  match subchOf subch with
  | some _ =>
    let r := d.linuxSerialClose fd closing
    (r.1, .status (some r.2))
  | none => (d, .status (some .invalidTypeError))

/-- `linux_serial_return_counter`. -/
def Driver.returnCounter (d : Driver) (fd : Int) : Reply :=
  match d.getCntEntry fd with
  | some i => .counters (d.table i).cnts
  | none => .status (some .error)

/-- `linux_serial_DevCmd`. -/
def Driver.devCmd (d : Driver) : Cmd → Driver × Reply
  | .openDevice subch c => d.openDispatch subch c
  | .write subch x calls errno =>
    let r := writeDispatch subch x calls
    (d.increaseCnts x.fd errno r.2, .status r.1)
  | .read subch x calls reads errno =>
    let r := readDispatch subch x calls reads
    (d.increaseCnts x.fd errno r.2, .status r.1)
  | .close subch fd closing => d.closeDispatch subch fd closing
  | .getCnts fd => (d, d.returnCounter fd)
  -- The case for clearing runs on into the one for unknown codes.
  | .clearCnts fd => (d.clearCntEntry fd, .status (some .invalidTypeError))

/-- The driver under its commands. -/
def driver : Machine Driver Cmd Reply := ⟨Driver.devCmd⟩

/-- The driver after `linux_serial_Init`. -/
def start : Driver := ⟨fun _ => ⟨notUsed, zeroCnts⟩, ∅⟩

end Serial
end FlightApps
