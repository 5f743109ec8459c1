import FlightApps.Ltrx.Beacon

/-!
# The session

The state machine of `ltrx_session.c`, which the child task of LTRX ticks.  Requests wait in a queue
until the next tick; what has been received last waits in a latch of one place.  Each call of
`LTRX_NowMs` reads the clock: `clock k` is the reading of the `k`-th one in a step.
-/

set_option autoImplicit false

namespace FlightApps
namespace Ltrx

/-- `LTRX_SessionState_t`. -/
inductive SessionState
  | idle
  | waitBeaconReq
  | dlInProgress
  | ulOffered
  | ulInProgress
  | ulComplete
  | complete
  | aborted
  | error
deriving DecidableEq, Repr

/-- `LTRX_WaitKind_t`, as far as it is used. -/
inductive WaitKind
  | none
  | type3
  | dlDone11
  | ulHeader5
  | ulParts
deriving DecidableEq, Repr

/-- `LTRX_SessionReqType_t`. -/
inductive SessionReq
  | startDownlink
  | abort
  | reset
deriving DecidableEq, Repr

/-- `LTRX_REQ_Q_DEPTH`. -/
def reqQDepth : Nat := 16

/-- `s_MaxRetry`, which nobody changes. -/
def maxRetry : UInt32 := 3

/-- `s_TimeoutMs`, which nobody changes. -/
def timeoutMs : UInt32 := 2000

/-- The variables of the session; the queue is there once it has been created. -/
structure Session where
  reqQ : Option (List SessionReq)
  state : SessionState
  lastRxType : UInt8
  lastRxStatus : UInt8
  haveRx : Bool
  lastRxMsgId : UInt32
  waitKind : WaitKind
  retryCount : UInt32
  waitStartMs : UInt32
  downlinkMsgId : UInt32
deriving DecidableEq, Repr

namespace Session

/-- What the program starts with. -/
def zero : Session := ⟨none, .idle, 0, 0, false, 0, .none, 0, 0, 0⟩

/-- `LTRX_StartWait`. -/
def startWait (s : Session) (kind : WaitKind) (now : UInt32) : Session :=
  { s with
    waitKind := kind
    retryCount := 0
    haveRx := false
    lastRxType := 0
    lastRxStatus := 0
    lastRxMsgId := 0
    waitStartMs := now }

/-- `LTRX_TouchProgress`. -/
def touchProgress (s : Session) (now : UInt32) : Session := { s with waitStartMs := now }

/-- `LTRX_PushReq`. -/
def pushReq (s : Session) (t : SessionReq) : Session :=
  match s.reqQ with
  | none => s
  | some q => if reqQDepth ≤ q.length then s else { s with reqQ := some (q ++ [t]) }

/-- `LTRX_SessionInit`; `created` says that `OS_QueueCreate` succeeds if it is called. -/
def init (s : Session) (created : Bool) : Session :=
  if s.reqQ = none ∧ created = false then { s with state := .error }
  else ⟨some [], .idle, 0, 0, false, 0, .none, 0, 0, 0⟩

/-- `LTRX_SessionOnIcdRxEx`. -/
def onIcdRxEx (s : Session) (typeID status : UInt8) (msgId : UInt32) (now : UInt32) : Session :=
  let s := { s with
    lastRxType := typeID, lastRxStatus := status, lastRxMsgId := msgId, haveRx := true }
  if s.waitKind ≠ .none then s.touchProgress now else s

/-- `LTRX_SessionSetDownlinkMsgId`. -/
def setDownlinkMsgId (s : Session) (msgId : UInt32) : Session := { s with downlinkMsgId := msgId }

/-- `LTRX_SessionNotifyUplinkOffered`. -/
def notifyUplinkOffered (s : Session) (now : UInt32) : Session :=
  match s.state with
  | .idle | .complete | .aborted | .error | .ulComplete =>
    { s.startWait .ulHeader5 now with state := .ulOffered }
  | _ => s

/-- A wait has come to its end. -/
def endWait (s : Session) (state : SessionState) : Session :=
  { s with waitKind := .none, state := state }

/-- The next wait begins. -/
def nextWait (s : Session) (kind : WaitKind) (state : SessionState) (now : UInt32) : Session :=
  { s.startWait kind now with state := state }

/-- `LTRX_RetryOrFail`; nothing is sent again. -/
def retryOrFail (s : Session) (now : UInt32) : Session :=
  if now - s.waitStartMs < timeoutMs then s
  else if s.retryCount < maxRetry then
    { s with retryCount := s.retryCount + 1, waitStartMs := now }
  else s.endWait .error

/-- `LTRX_DownlinkDoneMsgMatches`. -/
def downlinkDoneMsgMatches (s : Session) : Bool :=
  if s.downlinkMsgId = 0 ∨ s.lastRxMsgId = 0 then true else s.lastRxMsgId = s.downlinkMsgId

/-- A request that the tick takes from the queue, with what happens. -/
def serve (s : Session) (now : UInt32) : SessionReq → Session × Event
  | .startDownlink =>
    ({ s with downlinkMsgId := 0 }.nextWait .type3 .waitBeaconReq now, .started)
  | .abort => (s.endWait .aborted, .aborted)
  | .reset => (s.init true, .reset)

/-- The loop of `LTRX_SessionTick` over the queue, where `k` requests have been served.  A reset
empties the queue, and so it is the last one. -/
def serveAll (clock : Nat → UInt32) : Nat → Session → List SessionReq → Session × List Event × Nat
  | k, s, [] => ({ s with reqQ := some [] }, [], k)
  | k, s, .reset :: _ => ((s.serve (clock k) .reset).1, [.reset], k + 1)
  | k, s, req :: reqs =>
    let (s, e) := s.serve (clock k) req
    let (s, es, k) := serveAll clock (k + 1) s reqs
    (s, e :: es, k)

/-- `LTRX_SESS_WAIT_BEACON_REQ` with something received. -/
def hearRequest (s : Session) (now : UInt32) : Session :=
  if s.lastRxType = 3 ∧ s.lastRxStatus = 0 then s.nextWait .dlDone11 .dlInProgress now
  else if s.lastRxStatus ≠ 0 then s.endWait .error
  else s

/-- `LTRX_SESS_DL_IN_PROGRESS` with something received. -/
def hearDownlink (s : Session) (now : UInt32) : Session :=
  if s.lastRxStatus ≠ 0 then
    if s.lastRxType ≠ 10 then s.endWait .error else s.touchProgress now
  else if s.lastRxType = 11 then
    if s.downlinkDoneMsgMatches then s.endWait .complete else s.touchProgress now
  else if s.lastRxType = 7 ∨ s.lastRxType = 10 then s.touchProgress now
  else if s.lastRxType = 13 then
    -- the status has been looked at above
    if s.lastRxStatus ≠ 0 then s.endWait .error else s.touchProgress now
  else s

/-- `LTRX_SESS_UL_OFFERED` with something received. -/
def hearHeader (s : Session) (now : UInt32) : Session :=
  if s.lastRxType = 5 ∧ s.lastRxStatus = 0 then s.nextWait .ulParts .ulInProgress now
  else if s.lastRxStatus ≠ 0 then s.endWait .error
  else s

/-- `LTRX_SESS_UL_IN_PROGRESS` with something received; `done` is what
`LTRX_Uplink_HasCompleteMessage` says. -/
def hearParts (s : Session) (done : Bool) (now : UInt32) : Session :=
  if s.lastRxType = 9 then
    if s.lastRxStatus ≠ 0 then s.touchProgress now
    else if done then s.endWait .ulComplete
    else s
  else if s.lastRxType = 5 then s.endWait .error
  else s

/-- A waiting state of `LTRX_SessionTick`: the guard, the latch and the timeout. -/
def await (s : Session) (kind : WaitKind) (hear : Session → Session) (now : UInt32) : Session :=
  if s.waitKind ≠ kind then s
  else if s.haveRx then hear { s with haveRx := false }
  else s.retryOrFail now

/-- The `switch` of `LTRX_SessionTick`. -/
def proceed (s : Session) (done : Bool) (now : UInt32) : Session :=
  match s.state with
  | .waitBeaconReq => s.await .type3 (·.hearRequest now) now
  | .dlInProgress => s.await .dlDone11 (·.hearDownlink now) now
  | .complete => { s with state := .idle }
  | .ulOffered => s.await .ulHeader5 (·.hearHeader now) now
  | .ulInProgress => s.await .ulParts (·.hearParts done now) now
  | .ulComplete => { s with state := .idle }
  | _ => s

/-- The requests that are waiting. -/
def requests (s : Session) : List SessionReq := s.reqQ.getD []

/-- The first half of `LTRX_SessionTick`. -/
def drain (s : Session) (clock : Nat → UInt32) : Session × List Event × Nat :=
  match s.reqQ with
  | none => (s, [], 0)
  | some q => serveAll clock 0 s q

/-- `LTRX_SessionTick`. -/
def tick (s : Session) (done : Bool) (clock : Nat → UInt32) : Session × List Event :=
  let (s, es, k) := s.drain clock
  (s.proceed done (clock k), es)

/-- What the handlers tell the session. -/
def hear (s : Session) (now : UInt32) : Event → Session
  | .icdRx typeID status msgId => s.onIcdRxEx typeID status msgId now
  | .uplinkOffered => s.notifyUplinkOffered now
  | .downlinkMsgId msgId => s.setDownlinkMsgId msgId
  | _ => s

/-- All that is told in a step, the `k`-th reading of the clock first. -/
def hearAll (clock : Nat → UInt32) : Nat → Session → List Event → Session
  | _, s, [] => s
  | k, s, e :: es => hearAll clock (k + 1) (s.hear (clock k) e) es

/-- A tick does nothing but take requests from the queue, as far as others see. -/
theorem mem_serveAll {clock : Nat → UInt32} {k : Nat} {s : Session} {q : List SessionReq}
    {e : Event} (he : e ∈ (serveAll clock k s q).2.1) :
    e = .started ∨ e = .aborted ∨ e = .reset := by
  induction q generalizing k s with
  | nil => exact absurd he List.not_mem_nil
  | cons req q ih =>
    cases req with
    | reset => exact Or.inr (Or.inr (List.mem_singleton.1 he))
    | startDownlink =>
      rcases List.mem_cons.1 he with rfl | he
      · exact Or.inl rfl
      · exact ih he
    | abort =>
      rcases List.mem_cons.1 he with rfl | he
      · exact Or.inr (Or.inl rfl)
      · exact ih he

theorem mem_tick {s : Session} {done : Bool} {clock : Nat → UInt32} {e : Event}
    (he : e ∈ (s.tick done clock).2) : e = .started ∨ e = .aborted ∨ e = .reset := by
  have he : e ∈ (s.drain clock).2.1 := he
  rw [drain] at he
  split at he
  · exact absurd he List.not_mem_nil
  · exact mem_serveAll he

end Session

end Ltrx
end FlightApps
