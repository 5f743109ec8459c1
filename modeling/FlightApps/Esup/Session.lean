import FlightApps.Esup.Codec

/-!
# ESUP sessions

A session of `esup_session.c` carries one command to the module and its result back: it sends the
command, waits for the submission reply, keeps silent for a while, polls with Get_Results and
acknowledges the result.  `sessionStep` advances it by one step, `sessionDeposit` puts a reply into
its mailbox of one frame, and `sessionCancel` ends it from outside.

Two things are not in the session.  What the caller lends it, the request payload and the result
descriptor, is memory of the caller's and is passed beside it (`Lent`).  The link is passed as what
it does during the step (`Link`): the reading of its clock when a frame is sent, and whether the
wire takes the frame.  A step returns the frame it handed to the wire, if it did.
-/

set_option autoImplicit false

namespace FlightApps
namespace Esup

/-! ## Return codes

`esup_ret_t` is a bit field: the engine's byte, the nibbles of the framer and of the wire, and two
bytes of the device.  Layers add their causes with a bitwise or. -/

abbrev Ret := UInt32

/-- `ESUP_OK`. -/
def retOk : Ret := 0

/-- `ESUP_SESSION_EXEC_ERROR`. -/
def sessionExecError : Ret := 0x01000000

/-- `ESUP_SESSION_REJECTED`. -/
def sessionRejected : Ret := 0x02000000

/-- `ESUP_SESSION_EXPIRED`. -/
def sessionExpired : Ret := 0x03000000

/-- `ESUP_SESSION_BUSY_TIMEOUT`. -/
def sessionBusyTimeout : Ret := 0x04000000

/-- `ESUP_SESSION_UNREACHABLE`. -/
def sessionUnreachable : Ret := 0x05000000

/-- `ESUP_SESSION_IO_ERROR`. -/
def sessionIoError : Ret := 0x06000000

/-- `ESUP_SESSION_ABORTED`. -/
def sessionAborted : Ret := 0x07000000

/-- `ESUP_SESSION_DESYNC`. -/
def sessionDesync : Ret := 0x08000000

/-- `ESUP_SESSION_PENDING`. -/
def sessionPending : Ret := 0x09000000

/-- `ESUP_SESSION_FULL`. -/
def sessionFull : Ret := 0x0A000000

/-- `ESUP_SESSION_DUP`. -/
def sessionDup : Ret := 0x0B000000

/-- `ESUP_SESSION_ACK_FAILED`. -/
def sessionAckFailed : Ret := 0x0C000000

/-- `ESUP_SESSION_RESULT_TOO_LARGE`. -/
def sessionResultTooLarge : Ret := 0x0D000000

/-- `ESUP_RET_ENGINE`. -/
def retEngine (r : Ret) : Ret := r &&& 0xFF000000

/-- The codes of `esup_framer.h`. -/
def FrameErr.code : FrameErr → Ret
  | .arg => 0x00100000
  | .capacity => 0x00200000
  | .length => 0x00300000
  | .magic => 0x00400000
  | .crc => 0x00500000

/-- `ESUP_FRAME_ERR_IO`. -/
def frameErrIo : Ret := 0x00600000

/-- What an operation of the wire can return other than `ESUP_OK`. -/
inductive WireErr
  | timeout
  | io
  | unsupported
deriving DecidableEq, Repr

/-- The codes of `esup_wire.h`. -/
def WireErr.code : WireErr → Ret
  | .timeout => 0x00010000
  | .io => 0x00020000
  | .unsupported => 0x00030000

/-! ## Protocol values -/

/-- `ESUP_STATUS_NONE`. -/
def statusNone : UInt16 := 0x0000

/-- `ESUP_STATUS_ACK`. -/
def statusAck : UInt16 := 0x0005

/-- `ESUP_STATUS_NOT_ACK`. -/
def statusNotAck : UInt16 := 0x0006

/-- `ESUP_STATUS_BUSY`. -/
def statusBusy : UInt16 := 0x0007

/-- `ESUP_STATUS_NCE`. -/
def statusNce : UInt16 := 0x0008

/-- `ESUP_STATUS_STACK_FULL`. -/
def statusStackFull : UInt16 := 0x0009

/-- `ESUP_STATUS_TEMP_NOT_ACCEPTED`. -/
def statusTempNotAccepted : UInt16 := 0x0010

/-- `ESUP_CMD_GET_RESULTS`. -/
def cmdGetResults : UInt16 := 0x0114

/-- `ESUP_TYPE_NONE`. -/
def typeNone : UInt16 := 0x0000

/-- `ESUP_EXEC_OK`. -/
def execOk : UInt8 := 0x00

/-! ## Timing and budgets -/

/-- `ESUP_ACK_WAIT_MS`. -/
def ackWaitMs : UInt32 := 50

/-- `ESUP_CONFIRM_QUIET_MS`. -/
def confirmQuietMs : UInt32 := 10

/-- `ESUP_COLLISION_GUARD_MS`. -/
def collisionGuardMs : UInt32 := 10

/-- `ESUP_TX_WAIT_MS`. -/
def txWaitMs : UInt32 := 100

/-- `ESUP_FRAME_READ_MS`. -/
def frameReadMs : UInt32 := 100

/-- `ESUP_POLL_MIN_MS`. -/
def pollMinMs : UInt32 := 20

/-- `ESUP_POLL_MAX_MS`. -/
def pollMaxMs : UInt32 := 1000

/-- `ESUP_SUBMIT_RETRY_MAX`. -/
def submitRetryMax : UInt16 := 4

/-- `ESUP_SILENCE_RETRY_MAX`. -/
def silenceRetryMax : UInt16 := 3

/-- `ESUP_NCE_GRACE`. -/
def nceGrace : UInt16 := 2

/-- `deadline_reached`: the deadline is at or before `now`, on a clock that wraps around. -/
def deadlineReached (deadline now : UInt32) : Bool := decide ((deadline - now).toInt32 ≤ 0)

/-! ## The session -/

/-- `esup_session_state_t`. -/
inductive State
  | free
  | sendCmd
  | awaitAck
  | quiet
  | sendPoll
  | awaitResult
  | ackResult
  | done
deriving DecidableEq, Repr

/-- `esup_result_t`.  The data is what the caller's buffer holds, `none` for a null pointer. -/
structure Result where
  command : UInt16
  type : UInt16
  data : Option (List UInt8)
  dataCap : UInt16
  dataLen : UInt16
  /-- The caller's buffer is as long as the capacity it states. -/
  holds : ∀ b, data = some b → b.length = dataCap.toNat

/-- What a caller lends to a session: `req_data` and `req_len`, and `result`. -/
structure Lent where
  reqData : List UInt8
  /-- The length of the request is a `uint16_t`. -/
  reqFits : reqData.length < UInt16.size
  result : Option Result

/-- `esup_session_t`.  `lent` says whose `Lent` the two borrowed pointers lead to. -/
structure Session where
  inUse : Bool
  state : State
  res : Ret
  command : UInt16
  type : UInt16
  lent : Nat
  deadlineMs : UInt32
  nextActionMs : UInt32
  pollIntervalMs : UInt32
  submitAttempts : UInt16
  silence : UInt16
  nce : UInt16
  sawBusy : Bool
  sawReply : Bool
  rxPending : Bool
  rxComplete : Bool
  rxStatus : UInt16
  rxDataLen : UInt16
  rxExec : UInt8
deriving DecidableEq, Repr

/-! ## Outbound frames -/

/-- What the link does while a frame is sent: the reading of its clock, and the answer of the
wire's `write`, `none` for `ESUP_OK`. -/
structure Link where
  now : UInt32
  err : Option WireErr
deriving DecidableEq, Repr

/-- Which of the three frames of a session a frame is. -/
inductive Kind
  | command
  | poll
  | resultAck
deriving DecidableEq, Repr

/-- A call of the wire's `write`: the frame whose bytes it was given, the deadline it was given and
what it answered. -/
structure Sent where
  kind : Kind
  frame : Frame
  deadline : UInt32
  err : Option WireErr
deriving DecidableEq

/-- `esup_framer_send`, with the deadline all its callers here give it. -/
def framerSend (kind : Kind) (f : Frame) (link : Link) : Ret × Option Sent :=
  let deadline := link.now + txWaitMs
  match frameEncode f frameMax with
  | .error enc => (enc.code, none)
  | .ok _ =>
    match link.err with
    | none => (retOk, some ⟨kind, f, deadline, none⟩)
    | some wret => (frameErrIo ||| wret.code, some ⟨kind, f, deadline, some wret⟩)

def commandFrame (s : Session) (lent : Lent) (moduleId : UInt16) : Frame where
  moduleId := moduleId
  cmdStatus := statusNone
  command := s.command
  type := s.type
  data := lent.reqData
  fits := lent.reqFits

/-- `send_command`. -/
def sendCommand (s : Session) (lent : Lent) (moduleId : UInt16) (link : Link) :
    Ret × Option Sent :=
  let r := framerSend .command (commandFrame s lent moduleId) link
  if r.1 ≠ retOk then (sessionIoError ||| r.1, r.2) else (retOk, r.2)

/-- The data of a query: the type of the command asked about, nothing if it has none. -/
def querySel (type : UInt16) : List UInt8 := if type ≠ typeNone then writeU16Le type else []

theorem length_querySel (type : UInt16) : (querySel type).length < UInt16.size := by
  have htwo : 2 < UInt16.size := by decide
  rw [querySel]
  split
  · exact htwo
  · exact Nat.lt_trans Nat.zero_lt_two htwo

def getResultsFrame (s : Session) (moduleId : UInt16) : Frame where
  moduleId := moduleId
  cmdStatus := statusNone
  command := cmdGetResults
  type := s.command
  data := querySel s.type
  fits := length_querySel s.type

/-- `send_get_results`. -/
def sendGetResults (s : Session) (moduleId : UInt16) (link : Link) : Ret × Option Sent :=
  let r := framerSend .poll (getResultsFrame s moduleId) link
  if r.1 ≠ retOk then (sessionIoError ||| r.1, r.2) else (retOk, r.2)

def resultAckFrame (s : Session) (moduleId : UInt16) : Frame where
  moduleId := moduleId
  cmdStatus := statusAck
  command := s.command
  type := s.type
  data := []
  fits := by decide

/-- `send_result_ack`. -/
def sendResultAck (s : Session) (moduleId : UInt16) (link : Link) : Ret × Option Sent :=
  framerSend .resultAck (resultAckFrame s moduleId) link

/-! ## Lifecycle and mailbox -/

def terminate (s : Session) (res : Ret) : Session :=
  { s with res := res, state := .done, rxPending := false }

/-- `esup_session_init`, on a slot that the pool has claimed.  The three fields of the mailbox that
a deposit sets keep what they held. -/
def sessionInit (s : Session) (lent : Nat) (now timeoutMs : UInt32) : Session :=
  { s with
    lent := lent
    deadlineMs := now + timeoutMs
    nextActionMs := now
    pollIntervalMs := pollMinMs
    submitAttempts := 0
    silence := 0
    nce := 0
    sawBusy := false
    sawReply := false
    rxPending := false
    rxComplete := true
    res := sessionAborted
    state := .sendCmd }

/-- `esup_session_result`. -/
def sessionResult (s : Session) : Ret := if s.state ≠ .done then sessionPending else s.res

/-- `esup_session_is_live`. -/
def sessionIsLive (s : Session) : Bool := s.inUse && s.state != .done && s.state != .free

/-- `esup_session_cancel`. -/
def sessionCancel (s : Session) : Session :=
  if sessionIsLive s then terminate s sessionUnreachable else s

/-- `esup_session_reap`. -/
def sessionReap (s : Session) : Session :=
  if s.state ≠ .done then s else { s with inUse := false, state := .free }

/-- `esup_session_awaiting`. -/
def sessionAwaiting (s : Session) (command type : UInt16) : Bool :=
  if !s.inUse || s.rxPending then false
  else if s.state != .awaitAck && s.state != .awaitResult then false
  else s.command == command && s.type == type

/-- The data of a frame is not more than the buffer holds, or nobody wants it. -/
def Result.fits (r : Result) (f : Frame) : Bool := r.data.isNone || f.dataLen ≤ r.dataCap

/-- How much of the data is copied. -/
def Result.copied (r : Result) (f : Frame) : Nat :=
  (if r.fits f then f.dataLen else r.dataCap).toNat

theorem Result.length_copy (r : Result) (f : Frame) (b : List UInt8)
    (h : (r.data.map fun old => f.data.take (r.copied f) ++ old.drop (r.copied f)) = some b) :
    b.length = r.dataCap.toNat := by
  obtain ⟨old, hold, rfl⟩ := Option.map_eq_some_iff.1 h
  have hcap := r.holds old hold
  have hle : r.copied f ≤ f.data.length ∧ r.copied f ≤ r.dataCap.toNat := by
    rw [copied, fits, hold, Option.isNone_some, Bool.false_or, ← f.toNat_dataLen]
    by_cases hfit : f.dataLen ≤ r.dataCap
    · rw [decide_eq_true hfit, if_pos rfl]
      exact ⟨Nat.le_refl _, hfit⟩
    · rw [decide_eq_false hfit, if_neg Bool.false_ne_true]
      exact ⟨Nat.le_of_lt (UInt16.not_le.1 hfit), Nat.le_refl _⟩
  rw [List.length_append, List.length_take, List.length_drop, hcap]
  omega

/-- What `esup_session_deposit` does to the result descriptor. -/
def Result.deposit (r : Result) (f : Frame) : Result where
  command := f.command
  type := f.type
  data := r.data.map fun old => f.data.take (r.copied f) ++ old.drop (r.copied f)
  dataCap := r.dataCap
  dataLen := f.dataLen
  holds := r.length_copy f

/-- The frame is a result for the caller. -/
def carriesResult (s : Session) (f : Frame) : Bool :=
  s.state == .awaitResult && f.cmdStatus == statusNone

/-- The caller's buffer takes all the data of the frame, if the frame has any for it. -/
def fitted (s : Session) (lent : Lent) (f : Frame) : Bool :=
  match lent.result with
  | none => true
  | some r => !carriesResult s f || r.fits f

/-- `esup_session_deposit`, the session's part. -/
def sessionDeposit (s : Session) (lent : Lent) (f : Frame) : Session :=
  { s with
    rxStatus := f.cmdStatus
    rxDataLen := f.dataLen
    rxExec := if f.dataLen > 0 then f.data.headD 0 else execOk
    rxComplete := fitted s lent f
    rxPending := true }

/-- `esup_session_deposit`, the caller's part. -/
def lentDeposit (s : Session) (lent : Lent) (f : Frame) : Lent :=
  if carriesResult s f then { lent with result := lent.result.map fun r => r.deposit f } else lent

/-! ## The state machine -/

/-- `backoff_poll`: the poll interval that follows `interval`. -/
def backoffPoll (interval : UInt32) : UInt32 :=
  if interval * 2 > pollMaxMs then pollMaxMs else interval * 2

/-- `step_submit_reply`. -/
def stepSubmitReply (s : Session) (now : UInt32) : Session :=
  let s := { s with rxPending := false, sawReply := true }
  if s.rxStatus = statusAck ∨ s.rxStatus = statusBusy then
    { s with state := .quiet, nextActionMs := now + confirmQuietMs }
  else if s.rxStatus = statusNotAck then terminate s sessionRejected
  else if s.rxStatus = statusStackFull ∨ s.rxStatus = statusTempNotAccepted then
    let s := { s with submitAttempts := s.submitAttempts + 1 }
    if s.submitAttempts > submitRetryMax then terminate s sessionFull
    else { s with state := .sendCmd, nextActionMs := now + collisionGuardMs }
  else terminate s sessionDesync

/-- `step_poll_reply`. -/
def stepPollReply (s : Session) (now : UInt32) : Session :=
  let s := { s with rxPending := false, sawReply := true, silence := 0 }
  if s.rxStatus = statusBusy then
    let interval := backoffPoll s.pollIntervalMs
    { s with sawBusy := true, pollIntervalMs := interval, state := .sendPoll,
             nextActionMs := now + interval }
  else if s.rxStatus = statusNce then
    if s.sawBusy then terminate s sessionExpired
    else
      let s := { s with nce := s.nce + 1 }
      if s.nce ≥ nceGrace then terminate s sessionExpired
      else { s with state := .sendPoll, nextActionMs := now + pollMinMs }
  else if s.rxStatus = statusNone then
    if s.rxDataLen = 0 then terminate s sessionDesync
    else if !s.rxComplete then terminate s (sessionResultTooLarge ||| s.rxExec.toUInt32)
    else { s with state := .ackResult, nextActionMs := now }
  else s

/-- `step_ack_result`. -/
def stepAckResult (s : Session) (moduleId : UInt16) (link : Link) : Session × Option Sent :=
  let r := sendResultAck s moduleId link
  let exec := s.rxExec.toUInt32
  if r.1 ≠ retOk then (terminate s (sessionAckFailed ||| r.1 ||| exec), r.2)
  else if s.rxExec = execOk then (terminate s (retOk ||| exec), r.2)
  else (terminate s (sessionExecError ||| exec), r.2)

/-- The code a session ends with at its deadline. -/
def deadlineRes (s : Session) : Ret :=
  if s.sawBusy then sessionBusyTimeout
  else if s.sawReply then sessionDesync
  else sessionUnreachable

/-- What a send step leaves: the end with the cause of the failure, or the wait for the reply. -/
def afterSend (s : Session) (r : Ret × Option Sent) (next : State) (due : UInt32) :
    Session × Option Sent :=
  if r.1 ≠ retOk then (terminate s r.1, r.2)
  else ({ s with state := next, nextActionMs := due }, r.2)

/-- The switch of `esup_session_step`, before the overall deadline and with an empty mailbox. -/
def stepState (s : Session) (lent : Lent) (moduleId : UInt16) (now : UInt32) (link : Link) :
    Session × Option Sent :=
  match s.state with
  | .sendCmd =>
    if !deadlineReached s.nextActionMs now then (s, none)
    else afterSend s (sendCommand s lent moduleId link) .awaitAck (now + ackWaitMs)
  | .awaitAck =>
    if deadlineReached s.nextActionMs now then
      ({ s with state := .quiet, nextActionMs := now + confirmQuietMs }, none)
    else (s, none)
  | .quiet =>
    if deadlineReached s.nextActionMs now then
      ({ s with state := .sendPoll, nextActionMs := now, pollIntervalMs := pollMinMs }, none)
    else (s, none)
  | .sendPoll =>
    if !deadlineReached s.nextActionMs now then (s, none)
    else afterSend s (sendGetResults s moduleId link) .awaitResult (now + frameReadMs)
  | .awaitResult =>
    if deadlineReached s.nextActionMs now then
      let s := { s with silence := s.silence + 1 }
      if s.silence ≥ silenceRetryMax then (terminate s sessionUnreachable, none)
      else ({ s with state := .sendPoll, nextActionMs := now + collisionGuardMs }, none)
    else (s, none)
  | .free | .ackResult | .done => (s, none)

/-- `esup_session_step`. -/
def sessionStep (s : Session) (lent : Lent) (moduleId : UInt16) (now : UInt32) (link : Link) :
    Session × Option Sent :=
  if s.state = .free ∨ s.state = .done then (s, none)
  else if s.rxPending then
    -- a reply that has arrived comes before the deadline
    if s.state = .awaitAck then (stepSubmitReply s now, none)
    else if s.state = .awaitResult then (stepPollReply s now, none)
    else ({ s with rxPending := false }, none)
  else if s.state = .ackResult then stepAckResult s moduleId link
  else if deadlineReached s.deadlineMs now then (terminate s (deadlineRes s), none)
  else stepState s lent moduleId now link

end Esup
end FlightApps
