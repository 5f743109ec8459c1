import FlightApps.Lib.Machine
import FlightApps.Ltrx.Session

/-!
# Both tasks

The child task of LTRX receives a command, ticks the session and forwards what has been received, in
this order, over and over (`ltrx_child.c`).  Between any two of these the application task may stage
a bus beacon or take a command from the ground.
-/

set_option autoImplicit false

namespace FlightApps
namespace Ltrx

/-- What the child task does next. -/
inductive Phase
  | starting
  | receiving
  | ticking
  | forwarding
deriving DecidableEq, Repr

/-- All variables of LTRX, and where the child task is. -/
structure Node where
  phase : Phase
  storage : Storage
  session : Session
  /-- The static buffer of `LTRX_ReceiveCommand`. -/
  rxBuf : List UInt8
deriving DecidableEq

/-- What the world does while the child task takes a step. -/
structure ChildInput where
  /-- `OS_QueueCreate` succeeds. -/
  created : Bool
  /-- The socket is there. -/
  listening : Bool
  arrival : Option Arrival
  /-- What the local variables of `LTRX_BcnProcessOneRx` hold at first. -/
  hdr : BeaconCmdHeader
  payload : Vector UInt8 2048
  /-- Which of the commands sent in this step the transport takes. -/
  link : Nat → Bool
  /-- The readings of the clock. -/
  clock : Nat → UInt32
  /-- What the local buffer of `LTRX_Uplink_ForwardToSB` holds at first. -/
  stack : Vector UInt8 uplinkMaxLen

inductive Input
  /-- The child task takes a step. -/
  | child (i : ChildInput)
  /-- A bus beacon, if `CFE_MSG_GetSize` succeeds for it, and the time. -/
  | busBeacon (msg : List UInt8) (sized : Bool) (seconds : UInt32)
  /-- `LTRX_SessionStartDownlinkCmd`. -/
  | sessionStartDownlink
  /-- `LTRX_SessionAbortCmd`. -/
  | sessionAbort
  /-- `LTRX_SessionResetStateCmd`. -/
  | sessionResetState
  /-- `LTRX_DownstreamEnableCmd` and `LTRX_DownstreamDisableCmd`. -/
  | downstream (enabled : Bool)
  /-- `LTRX_SetBusBeaconPeriodCmd`. -/
  | setBusBeaconPeriod (period : UInt16)

namespace Node

/-- What the program starts with. -/
def init : Node where
  phase := .starting
  storage := ⟨Downlink.init, UplinkRx.zero⟩
  session := Session.zero
  rxBuf := List.replicate bufSize 0

/-- `LTRX_BcnProcessOneRx`. -/
def bcnProcessOneRx (n : Node) (i : ChildInput) : Node × List Event :=
  match receiveCommand i.listening i.arrival 2048 ⟨i.hdr, i.payload.toList, 0, n.rxBuf⟩ with
  | none => (n, [.overrun])
  | some (rc, v) =>
    let n := { n with rxBuf := v.rxBuf }
    if rc ≠ .success then (n, [])
    else
      let payload := v.payload.take v.actual.toNat
      let a := dispatch i.link n.storage v.header payload
      ({ n with storage := a.state, session := n.session.hearAll i.clock 0 a.events },
        .received v.header payload :: a.events)

/-- `LTRX_SessionTick`, with what it does to the downlink. -/
def sessionTick (n : Node) (i : ChildInput) : Node × List Event :=
  let (session, es) := n.session.tick n.storage.up.complete i.clock
  let down :=
    if .aborted ∈ es ∨ .reset ∈ es then n.storage.down.clearMessage else n.storage.down
  ({ n with session := session, storage := { n.storage with down := down } }, es)

/-- `LTRX_Uplink_ForwardToSB`. -/
def forward (n : Node) (i : ChildInput) : Node × List Event :=
  let (up, es) := n.storage.up.forwardToSB i.stack
  ({ n with storage := { n.storage with up := up } }, es)

/-- A step of `LTRX_ChildMain`. -/
def childStep (n : Node) (i : ChildInput) : Node × List Event :=
  match n.phase with
  | .starting => ({ n with session := n.session.init i.created, phase := .receiving }, [])
  | .receiving =>
    let (n, es) := n.bcnProcessOneRx i
    ({ n with phase := .ticking }, es)
  | .ticking =>
    let (n, es) := n.sessionTick i
    ({ n with phase := .forwarding }, es)
  | .forwarding =>
    let (n, es) := n.forward i
    ({ n with phase := .receiving }, es)

/-- Put a request in the queue of the session. -/
def push (n : Node) (t : SessionReq) : Node := { n with session := n.session.pushReq t }

def setDown (n : Node) (d : Downlink) : Node := { n with storage := { n.storage with down := d } }

/-- `LTRX_SessionStartDownlinkCmd`. -/
def sessionStartDownlinkCmd (n : Node) : Node :=
  if n.storage.down.downInFlight then n
  else if n.storage.down.downReady = false ∧ n.storage.down.pendingDownReady = false then n
  else n.push .startDownlink

/-- `LTRX_SetBusBeaconPeriodCmd`. -/
def setBusBeaconPeriodCmd (n : Node) (period : UInt16) : Node :=
  if period = 0 then n else n.setDown (n.storage.down.setBeaconPeriod period)

def step (n : Node) : Input → Node × List Event
  | .child i => n.childStep i
  | .busBeacon msg sized seconds =>
    let (d, es) := n.storage.down.onBusBeaconReceived msg sized seconds
    (n.setDown d, es)
  | .sessionStartDownlink => (n.sessionStartDownlinkCmd, [])
  | .sessionAbort => (n.push .abort, [])
  | .sessionResetState => (n.push .reset, [])
  | .downstream enabled => (n.setDown (n.storage.down.setEnabled enabled), [])
  | .setBusBeaconPeriod period => (n.setBusBeaconPeriodCmd period, [])

/-- LTRX, answering with what happens. -/
def machine : Machine Node Input (List Event) := ⟨step⟩

end Node

section Runs

variable (is : List Input)

/-- The state after a run. -/
def after : Node := Node.machine.run Node.init is

/-- All that has happened in it. -/
def events : List Event := Node.machine.history Node.init is

end Runs

end Ltrx
end FlightApps
