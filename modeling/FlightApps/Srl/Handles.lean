import FlightApps.Serial.Driver

/-!
# The handles of the serial module

The serial module of the core executive keeps a table of device handles, `GlobalHandle`, and for
each device of the board a pointer into it, `Handles`.  `CFE_SRL_HandleInit` takes an entry, opens
the device, configures it and creates its mutex; `CFE_SRL_HandleClose` undoes that.  Handles are
opened at the start of the program and by command, and closed by command or by an application
through `CFE_SRL_ApiClose`.

The devices are behind the serial driver.  Here only its answers matter, and they are part of the
input, like what the other calls of the system give.  The state has the descriptors that are open,
`opened`; a descriptor that is open is never handed out again, and one that is not open cannot be
closed.
-/

set_option autoImplicit false

namespace FlightApps
namespace Srl

open Serial (Subch Closing)

/-! ## State -/

/-- `CFE_SRL_GLOBAL_HANDLE_NUM`. -/
def globalHandleNum : Nat := 20

/-- `CFE_SRL_GNRL_DEVICE_NUM`. -/
def gnrlDeviceNum : Nat := 6

/-- `CFE_SRL_HANDLE_NAME_LENGTH`. -/
def handleNameLength : Nat := 16

/-- The return codes of the module. -/
inductive Ret
  | success
  | badArgument
  | externalResourceFail
  | fullErr
  | openErr
  | canOpenSocketErr
  | i2cConfigFailErr
  | spiConfigFailErr
  | uartConfigFailErr
  | canConfigFailErr
  /-- The `-1` for a mutex number that is too large. -/
  | mutexNum
  | notOpenErr
  | closeErr
  | mutexErr
  | rangeError
  | validationFailure
deriving DecidableEq, Repr

/-- The subchannel of a device type. -/
def subchOf : UInt8 → Option Subch
  | 1 => some .i2c
  | 2 => some .spi
  | 3 => some .can
  | 4 => some .uart
  | 5 => some .uart
  | _ => none

abbrev Idx := Fin globalHandleNum

abbrev Device := Fin gnrlDeviceNum

/-- `CFE_SRL_Global_Handle_t`.  The functions of a handle are those of its subchannel. -/
structure Entry where
  fd : Nat
  func : Option Subch
  name : List UInt8
  devName : List UInt8
  devType : UInt8
  mutexIdx : UInt8
  status : UInt8
deriving DecidableEq

def zeroEntry : Entry := ⟨0, none, [], [], 0, 0, 0⟩

/-- `CFE_SRL_HANDLE_STATUS_ALLOCATE`. -/
def statusAllocate : UInt8 := 1

/-- `CFE_SRL_HANDLE_STATUS_FD_INIT`. -/
def statusFdInit : UInt8 := 2

/-- `CFE_SRL_HANDLE_STATUS_MUTEX_INIT`. -/
def statusMutexInit : UInt8 := 4

/-- `CFE_SRL_QueryStatus`. -/
def Entry.queryStatus (x : Entry) (query : UInt8) : Bool := x.status &&& query == query

/-- `CFE_SRL_SetHandleStatus`, to set a label. -/
def Entry.setHandleStatus (x : Entry) (label : UInt8) : Entry :=
  { x with status := x.status ||| label }

/-- The tables of the module, and the descriptors that are open. -/
structure State where
  /-- `GlobalHandle`. -/
  entries : Idx → Entry
  /-- `Handles`. -/
  handles : Device → Option Idx
  /-- The flags of `IOMutex`.  The check of `CFE_SRL_HandleMutexInit` lets one number pass that is
  too large, so there is a flag behind the array. -/
  isinit : Nat → Bool
  opened : Finset Nat

def State.setEntry (s : State) (e : Idx) (x : Entry) : State :=
  { s with entries := Function.update s.entries e x }

def State.setHandle (s : State) (i : Device) (h : Option Idx) : State :=
  { s with handles := Function.update s.handles i h }

@[simp] theorem setHandle_entries (s : State) (i : Device) (h : Option Idx) :
    (s.setHandle i h).entries = s.entries := rfl

@[simp] theorem setHandle_opened (s : State) (i : Device) (h : Option Idx) :
    (s.setHandle i h).opened = s.opened := rfl

@[simp] theorem setHandle_self (s : State) (i : Device) (h : Option Idx) :
    (s.setHandle i h).handles i = h := Function.update_self ..

theorem setHandle_other {s : State} {i j : Device} {h : Option Idx} (hne : j ≠ i) :
    (s.setHandle i h).handles j = s.handles j := Function.update_of_ne hne ..

/-! ## Initialisation -/

/-- What the calls of `CFE_SRL_HandleInit` give. -/
structure InitCalls where
  /-- Taking the global mutex succeeds. -/
  lock : Bool
  /-- The descriptor that the driver opens. -/
  opens : Option Nat
  /-- The driver accepts the configuration. -/
  configures : Bool
  /-- The mutex can be created. -/
  creates : Bool

/-- The arguments of `CFE_SRL_HandleInit`.  Every caller passes a place in `Handles`. -/
structure InitArgs where
  handle : Option Device
  name : Option (List UInt8)
  devname : Option (List UInt8)
  devType : UInt8
  mutexIdx : UInt8
  /-- There is a configuration. -/
  config : Bool

/-- A string ends within the length of a name. -/
def terminated (name : List UInt8) : Bool := (name.take handleNameLength).contains 0

/-- The first entry that is not allocated. -/
def State.findFree (s : State) : Option Idx :=
  (List.finRange globalHandleNum).find? fun e => !(s.entries e).queryStatus statusAllocate

/-- `CFE_SRL_GlobalHandleInit`. -/
def State.globalHandleInit (s : State) (name devname : List UInt8) (devType : UInt8)
    (lock : Bool) : State × Except Ret Idx :=
  if !lock then (s, .error .externalResourceFail)
  else
    match s.findFree with
    | none => (s, .error .fullErr)
    | some e =>
      let x := { s.entries e with name := name.takeWhile (· ≠ 0),
                                  devType := devType,
                                  devName := devname.takeWhile (· ≠ 0),
                                  status := statusAllocate }
      (s.setEntry e (x.setHandleStatus statusAllocate), .ok e)

/-- Opening a device through the driver.  It knows no other subchannels, and an open descriptor is
not handed out again. -/
def State.openDevice (s : State) (devType : UInt8) (opens : Option Nat) : State × Except Ret Nat :=
  match subchOf devType, opens with
  | some c, some fd =>
    if fd ∈ s.opened then (s, .error (if c = .can then .canOpenSocketErr else .openErr))
    else ({ s with opened := insert fd s.opened }, .ok fd)
  | some c, none => (s, .error (if c = .can then .canOpenSocketErr else .openErr))
  | none, _ => (s, .error .badArgument)

/-- `CFE_SRL_ConfigHandle`. -/
def configHandle (devType : UInt8) (configures : Bool) : Ret :=
  match subchOf devType with
  | none => .badArgument
  | some c =>
    if configures then .success
    else
      match c with
      | .i2c => .i2cConfigFailErr
      | .spi => .spiConfigFailErr
      | .uart => .uartConfigFailErr
      | .can => .canConfigFailErr

/-- `CFE_SRL_HandleMutexInit`. -/
def State.handleMutexInit (s : State) (e : Idx) (mutexIdx : UInt8) (creates : Bool) :
    State × Ret :=
  if mutexIdx.toNat > gnrlDeviceNum then (s, .mutexNum)
  else
    let x := ({ s.entries e with mutexIdx := mutexIdx } : Entry).setHandleStatus statusMutexInit
    if s.isinit mutexIdx.toNat then (s.setEntry e x, .success)
    else if !creates then (s, .externalResourceFail)
    else
      ({ s.setEntry e x with isinit := Function.update s.isinit mutexIdx.toNat true }, .success)

/-- `CFE_SRL_HandleInit` from the open device on. -/
def State.completeInit (s : State) (i : Device) (e : Idx) (a : InitArgs) (c : InitCalls) :
    State × Ret :=
  let config := if a.config then configHandle a.devType c.configures else .success
  if config ≠ .success then (s, config)
  else
    let s := s.setEntry e ((s.entries e).setHandleStatus statusFdInit)
    match s.handleMutexInit e a.mutexIdx c.creates with
    | (s, .success) =>
      -- `CFE_SRL_SetTRxFunction` goes by the type that is in the entry.
      let x := { s.entries e with func := subchOf (s.entries e).devType }
      ((s.setEntry e x).setHandle i (some e), .success)
    | (s, r) => (s, r)

/-- `CFE_SRL_HandleInit` from the new entry on. -/
def State.initEntry (s : State) (i : Device) (e : Idx) (a : InitArgs) (c : InitCalls) :
    State × Ret :=
  match s.openDevice a.devType c.opens with
  | (s, .error r) => (s, r)
  | (s, .ok fd) => (s.setEntry e { s.entries e with fd := fd }).completeInit i e a c

/-- `CFE_SRL_HandleInit`. -/
def State.handleInit (s : State) (a : InitArgs) (c : InitCalls) : State × Ret :=
  match a.handle, a.name, a.devname with
  | some i, some name, some devname =>
    if !(terminated name && terminated devname) then (s, .badArgument)
    else if (s.handles i).isSome then (s, .success)
    else
      match s.globalHandleInit name devname a.devType c.lock with
      | (s, .error r) => (s, r)
      | (s, .ok e) => s.initEntry i e a c
  | _, _, _ => (s, .badArgument)

/-! ## Closing -/

/-- What the calls of `CFE_SRL_HandleClose` give. -/
structure CloseCalls where
  closing : Closing
  /-- The mutex can be deleted. -/
  deletes : Bool

/-- Closing a device through the driver. -/
def State.closeDevice (s : State) (fd : Nat) (closing : Closing) : State × Bool :=
  if fd ∈ s.opened then
    match closing with
    | .done => ({ s with opened := s.opened.erase fd }, true)
    | .failed true => (s, false)
    | .failed false => ({ s with opened := s.opened.erase fd }, false)
  else (s, false)

/-- `CFE_SRL_MutexDestroy`. -/
def State.mutexDestroy (s : State) (mutexIdx : UInt8) (deletes : Bool) : State × Bool :=
  if !s.isinit mutexIdx.toNat then (s, true)
  else if !deletes then (s, false)
  else ({ s with isinit := Function.update s.isinit mutexIdx.toNat false }, true)

/-- `CFE_SRL_HandleClose`, with what it leaves in the pointer it is given. -/
def State.handleClose (s : State) (h : Option Idx) (c : CloseCalls) : State × Option Idx × Ret :=
  match h with
  | none => (s, none, .badArgument)
  | some e =>
    if !(s.entries e).queryStatus statusFdInit then (s, some e, .notOpenErr)
    else
      let x := s.entries e
      let r := s.closeDevice x.fd c.closing
      let q := r.1.mutexDestroy x.mutexIdx c.deletes
      (q.1.setEntry e zeroEntry, none,
        if !r.2 then .closeErr else if !q.2 then .mutexErr else .success)

/-! ## Commands and calls -/

/-- `CFE_SRL_IsValidIndexer`, with the device. -/
def deviceOf (indexer : Int) : Option Device :=
  if h : 0 ≤ indexer ∧ indexer.toNat < gnrlDeviceNum then some ⟨indexer.toNat, h.2⟩ else none

/-- `CFE_SRL_InitHandleCmd`.  The mutex has the number of the device, and there is always a
configuration. -/
def State.initHandleCmd (s : State) (indexer : Int) (name devName : List UInt8) (devType : UInt8)
    (c : InitCalls) : State × Ret :=
  match deviceOf indexer with
  | none => (s, .rangeError)
  | some i =>
    if !(terminated name && terminated devName) then (s, .validationFailure)
    else if subchOf devType = none then (s, .rangeError)
    else s.handleInit ⟨some i, some name, some devName, devType, indexer.toNat.toUInt8, true⟩ c

/-- `CFE_SRL_CloseHandleCmd`. -/
def State.closeHandleCmd (s : State) (indexer : Int) (c : CloseCalls) : State × Ret :=
  match deviceOf indexer with
  | none => (s, .rangeError)
  | some i =>
    if s.handles i = none then (s, .badArgument)
    else
      let r := s.handleClose (s.handles i) c
      (r.1.setHandle i r.2.1, r.2.2)

/-- `CFE_SRL_ApiClose` of the handle of a device.  The pointer that is cleared is its own. -/
def State.apiClose (s : State) (i : Device) (c : CloseCalls) : State × Ret :=
  if s.handles i = none then (s, .badArgument)
  else
    let r := s.handleClose (s.handles i) c
    (r.1, r.2.2)

/-- The descriptor that `CFE_SRL_ApiWrite` and `CFE_SRL_ApiRead` use for a device. -/
def State.reach (s : State) (i : Device) : Option Nat := do
  let e ← s.handles i
  let _ ← (s.entries e).func
  some (s.entries e).fd

/-- A command or a call. -/
inductive Op
  /-- A call of `CFE_SRL_HandleInit`, as at the start of the program. -/
  | handleInit (a : InitArgs) (c : InitCalls)
  | initHandleCmd (indexer : Int) (name devName : List UInt8) (devType : UInt8) (c : InitCalls)
  | closeHandleCmd (indexer : Int) (c : CloseCalls)
  | apiClose (i : Device) (c : CloseCalls)

def State.act (s : State) : Op → State × Ret
  | .handleInit a c => s.handleInit a c
  | .initHandleCmd indexer name devName devType c =>
    s.initHandleCmd indexer name devName devType c
  | .closeHandleCmd indexer c => s.closeHandleCmd indexer c
  | .apiClose i c => s.apiClose i c

/-- The module under its commands and calls. -/
def srl : Machine State Op Ret := ⟨State.act⟩

/-- The tables when `CFE_SRL_PriorInit` is done. -/
def start : State := ⟨fun _ => zeroEntry, fun _ => none, fun _ => false, ∅⟩

end Srl
end FlightApps
