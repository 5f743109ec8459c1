import Mathlib.Logic.Function.Basic
import FlightApps.Esup.Reassembly
import FlightApps.Esup.Steps

/-!
# The ESUP engine

The engine of `esup.c` keeps a pool of sessions behind one lock.  Callers start sessions, wait for
them and reap them; one driver ticks: it steps the live sessions, reads the wire with the lock
released, and routes the frames it has got into the mailboxes.  An `Op` is one of the sections that
run under the lock, or what a thread does between two of them, with all the readings of the clock
and all answers of the wire it gets; any list of them is a schedule.

Callers' memory is part of the state (`loans`): the calls of `esup_start_session` are numbered, and
number `k` lends its own request payload and result descriptor, `loans k`.  A session knows the
number of the call it works for (`Session.lent`).  Every section reports what it did, in `Note`s.

Handles are addresses of slots, and nothing ties them to the caller who holds them: any caller may
wait for and reap any slot, also with a handle that has gone stale.
-/

set_option autoImplicit false

namespace FlightApps
namespace Esup

/-! ## State -/

/-- `ESUP_SESSION_MAX`. -/
def sessionMax : Nat := 3

/-- An address in the session pool. -/
abbrev Slot := Fin sessionMax

/-- `ESUP_TICK_MAX_BLOCK_MS`. -/
def tickMaxBlockMs : UInt32 := 100

/-- `ESUP_TRANSACT_WAIT_MARGIN_MS`. -/
def transactWaitMarginMs : UInt32 := 1000

/-- How far a call of `esup_transact` has come. -/
inductive Phase
  /-- There is no such call. -/
  | absent
  /-- The session is started. -/
  | started (i : Slot) (timeoutMs : UInt32)
  /-- In `esup_wait`, with the deadline it has computed. -/
  | waiting (i : Slot) (deadline : UInt32)
  /-- `esup_wait` has returned. -/
  | waited (i : Slot) (rc : Ret)
  | returned (rc : Ret)
deriving DecidableEq

/-- `struct esup_engine`, the callers' memory and where the threads are. -/
structure Engine where
  framer : Framer
  moduleId : UInt16
  sessions : Slot → Session
  loans : Nat → Lent
  /-- The number of calls that have asked for a session. -/
  calls : Nat
  transacts : Nat → Phase
  /-- The wake time of the driver, while it is between the two sections of a tick. -/
  reading : Option UInt32

/-- What a section did. -/
inductive Note
  /-- A slot was given to a call. -/
  | claimed (i : Slot) (k : Nat)
  /-- A session function was called on the session of call `k` in a slot, with these events. -/
  | did (i : Slot) (k : Nat) (c : Call) (es : List Event)
  /-- A slot was freed, in this state. -/
  | reaped (i : Slot) (k : Nat) (inState : State)
  /-- A call was answered. -/
  | answered (k : Nat) (rc : Ret)
  /-- A tick computed when to wake up, and the number of active sessions. -/
  | wake (time : UInt32) (active : Nat)
  /-- What `esup_wait` on a slot saw: the result, or nothing yet. -/
  | saw (i : Slot) (rc : Option Ret)
deriving DecidableEq

/-! ## Pool -/

def Engine.setSession (e : Engine) (i : Slot) (s : Session) : Engine :=
  { e with sessions := Function.update e.sessions i s }

/-- Call a session function on a slot. -/
def Engine.callOn (e : Engine) (i : Slot) (c : Call) : Engine × List Note :=
  let k := (e.sessions i).lent
  let r := Transaction.call ⟨e.sessions i, e.loans k⟩ c
  ({ e.setSession i r.1.session with loans := Function.update e.loans k r.1.lent },
    [.did i k c r.2])

/-- `session_alloc`: the slot to claim, or the refusal. -/
def sessionAlloc (sessions : Slot → Session) (command type : UInt16) : Except Ret Slot :=
  if ∃ i, (sessions i).inUse = true ∧ (sessions i).command = command ∧ (sessions i).type = type then
    .error sessionDup
  else
    match (List.finRange sessionMax).find? fun i => !(sessions i).inUse with
    | some i => .ok i
    | none => .error sessionFull

/-- The slot that a session is claimed in and initialised. -/
def Engine.claim (e : Engine) (i : Slot) (command type : UInt16) (k : Nat)
    (now timeoutMs : UInt32) : Engine :=
  e.setSession i
    (sessionInit { e.sessions i with inUse := true, command := command, type := type } k now
      timeoutMs)

/-- `esup_session_reap` on a slot. -/
def Engine.reap (e : Engine) (i : Slot) : Engine × List Note :=
  if (e.sessions i).state ≠ .done then (e, [])
  else (e.setSession i (sessionReap (e.sessions i)),
    [.reaped i (e.sessions i).lent (e.sessions i).state])

/-- One round of the loop of `route_frames`. -/
def Engine.routeFrame (e : Engine) (f : Frame) : Engine × List Note :=
  if f.moduleId ≠ e.moduleId then (e, [])
  else
    match (List.finRange sessionMax).find? fun i => sessionAwaiting (e.sessions i) f.command f.type
    with
    | some i => e.callOn i (.deposit f)
    | none => (e, [])

def Engine.routeAll (e : Engine) : List Frame → Engine × List Note
  | [] => (e, [])
  | f :: fs =>
    let r := e.routeFrame f
    let r' := r.1.routeAll fs
    (r'.1, r.2 ++ r'.2)

/-- `route_frames`.  The source deposits a frame before it pops the next one; as a deposit does not
touch the framer, all are popped first here. -/
def Engine.routeFrames (e : Engine) : Engine × List Note :=
  match popAll (e.framer.buf.length + 1) e.framer with
  | some (fs, framer) => { e with framer := framer }.routeAll fs
  | none => (e, [])

/-! ## Submission -/

/-- The arguments of `esup_start_session`. -/
structure Request where
  command : UInt16
  type : UInt16
  lent : Lent
  timeoutMs : UInt32

/-- The call gets its number. -/
def Engine.numbered (e : Engine) (lent : Lent) : Engine :=
  { e with calls := e.calls + 1, loans := Function.update e.loans e.calls lent }

/-- `esup_start_session`, with the two readings of the clock and what the link does. -/
def Engine.startSession (e : Engine) (req : Request) (now now' : UInt32) (link : Link) :
    Engine × Except Ret Slot × List Note :=
  let k := e.calls
  let e := e.numbered req.lent
  if req.lent.reqData.length > dataMax then (e, .error sessionAborted, [])
  else
    match sessionAlloc e.sessions req.command req.type with
    | .error rc => (e, .error rc, [])
    | .ok i =>
      let e := e.claim i req.command req.type k now req.timeoutMs
      let r := e.callOn i (.step e.moduleId now' link)
      (r.1, .ok i, .claimed i k :: r.2)

/-! ## Driver -/

/-- `sooner`. -/
def sooner (a b : UInt32) : UInt32 := if (a - b).toInt32 < 0 then a else b

/-- The first loop of `esup_tick`. -/
def Engine.stepSlots (e : Engine) (now : UInt32) (links : Slot → Link) :
    List Slot → Engine × List Note
  | [] => (e, [])
  | i :: is =>
    if sessionIsLive (e.sessions i) then
      let r := e.callOn i (.step e.moduleId now (links i))
      let r' := r.1.stepSlots now links is
      (r'.1, r.2 ++ r'.2)
    else e.stepSlots now links is

/-- The second loop of `esup_tick`: the wake time and the number of active sessions. -/
def wakeLoop (sessions : Slot → Session) (wake : UInt32) (active : Nat) :
    List Slot → UInt32 × Nat
  | [] => (wake, active)
  | i :: is =>
    if !sessionIsLive (sessions i) then wakeLoop sessions wake active is
    else
      let wake := sooner wake (sessions i).nextActionMs
      let wake := sooner wake (sessions i).deadlineMs
      wakeLoop sessions wake (active + 1) is

/-- `esup_tick` up to the read: the driver goes on to read if a session is active. -/
def Engine.tick (e : Engine) (now now' : UInt32) (links : Slot → Link) : Engine × List Note :=
  let r := e.stepSlots now links (List.finRange sessionMax)
  let w := wakeLoop r.1.sessions (now' + tickMaxBlockMs) 0 (List.finRange sessionMax)
  ({ r.1 with reading := if w.2 = 0 then none else some w.1 }, r.2 ++ [.wake w.1 w.2])

/-! ## Waiting -/

/-- One pass of the loop of `esup_wait`: what it returns, if it does. -/
def waitPass (s : Session) (deadline now : UInt32) : Option Ret :=
  if s.state = .done then some s.res
  else if deadlineReached deadline now then some sessionPending
  else none

/-- The last section of `esup_transact`. -/
def Engine.finish (e : Engine) (k : Nat) (i : Slot) (rc : Ret) : Engine × List Note :=
  let r := if rc = sessionPending then e.callOn i .cancel else (e, [])
  let rc := if rc = sessionPending then sessionResult (r.1.sessions i) else rc
  let r' := r.1.reap i
  ({ r'.1 with transacts := Function.update r'.1.transacts k (.returned rc) },
    r.2 ++ r'.2 ++ [.answered k rc])

/-! ## Schedules -/

/-- What a thread does in one go. -/
inductive Op
  /-- `esup_start_session`. -/
  | start (req : Request) (now now' : UInt32) (link : Link)
  /-- `esup_transact` as far as the start of its session. -/
  | transact (req : Request) (now now' : UInt32) (link : Link)
  /-- The call of `esup_transact` with this number enters `esup_wait`. -/
  | waitBegin (k : Nat) (now : UInt32)
  /-- A pass of its loop. -/
  | waitCheck (k : Nat) (now : UInt32)
  /-- Its last section. -/
  | finish (k : Nat)
  /-- A pass of the loop of `esup_wait`, called on a handle. -/
  | wait (i : Slot) (deadline now : UInt32)
  /-- `esup_reap` on a handle. -/
  | reap (i : Slot)
  /-- The first section of `esup_tick`. -/
  | tick (now now' : UInt32) (links : Slot → Link)
  /-- A push of `esup_framer_recv`. -/
  | recv (bytes : List UInt8)
  /-- The second section of `esup_tick`. -/
  | route

def Engine.setPhase (e : Engine) (k : Nat) (p : Phase) : Engine :=
  { e with transacts := Function.update e.transacts k p }

/-- One go of a thread.  A thread that is elsewhere does nothing. -/
def Engine.act (e : Engine) : Op → Engine × List Note
  | .start req now now' link =>
    let r := e.startSession req now now' link
    match r.2.1 with
    | .ok _ => (r.1, r.2.2)
    | .error rc => (r.1, r.2.2 ++ [.answered e.calls rc])
  | .transact req now now' link =>
    let r := e.startSession req now now' link
    match r.2.1 with
    | .ok i => (r.1.setPhase e.calls (.started i req.timeoutMs), r.2.2)
    | .error rc => (r.1.setPhase e.calls (.returned rc), r.2.2 ++ [.answered e.calls rc])
  | .waitBegin k now =>
    match e.transacts k with
    | .started i timeoutMs =>
      (e.setPhase k (.waiting i (now + (timeoutMs + transactWaitMarginMs))), [])
    | _ => (e, [])
  | .waitCheck k now =>
    match e.transacts k with
    | .waiting i deadline =>
      match waitPass (e.sessions i) deadline now with
      | some rc => (e.setPhase k (.waited i rc), [])
      | none => (e, [])
    | _ => (e, [])
  | .finish k =>
    match e.transacts k with
    | .waited i rc => e.finish k i rc
    | _ => (e, [])
  | .wait i deadline now => (e, [.saw i (waitPass (e.sessions i) deadline now)])
  | .reap i => e.reap i
  | .tick now now' links => if e.reading.isSome then (e, []) else e.tick now now' links
  | .recv bytes =>
    if e.reading.isSome then ({ e with framer := framerPush e.framer bytes }, []) else (e, [])
  | .route => if e.reading.isSome then { e with reading := none }.routeFrames else (e, [])

/-- The engine under its threads. -/
def engine : Machine Engine Op (List Note) := ⟨Engine.act⟩

/-- The state `esup_engine_create` leaves: the slots are free, the rest of them is whatever the
memory held. -/
def engineCreate (moduleId : UInt16) (memory : Slot → Session) (loans : Nat → Lent) : Engine where
  framer := framerReset
  moduleId := moduleId
  sessions i := { memory i with inUse := false, state := .free }
  loans := loans
  calls := 0
  transacts _ := .absent
  reading := none

end Esup
end FlightApps
