import Mathlib.Data.Finset.Basic
import Mathlib.Data.Fintype.Basic
import Mathlib.Data.List.FinRange
import Mathlib.Logic.Function.Basic
import FlightApps.Lib.Machine

/-!
# The log handlers of the receiver driver

`oem_log.c` keeps a table of log handlers, one for each kind of message that is wanted.  A handler
has a list of callbacks and a buffer for the last message, both on the heap, and a status byte that
says whether the slot is taken and what is done with messages.  The functions on the table run under
a mutex; the callbacks run without it, so that other calls come between, from the callbacks
themselves too.

`registry` is the table as a machine.  An input is a call, a message for the task of the driver, or
the return of the callback that is running.  What the allocator answers is part of the input; an
address that is in use is never handed out again.  The state has the addresses that are in use,
`heap`, and the callback that is running, `exec`.
-/

set_option autoImplicit false

namespace FlightApps
namespace Log

/-! ## State -/

/-- `OEM_LOG_HANDLER_MAX`. -/
def handlerMax : Nat := 20

/-- `OEM_LOG_HANDLER_RECENT_MSG_MAX_SIZE`. -/
def recentMsgMaxSize : Nat := 2048

/-- `sizeof(oem_binary_header_t)`. -/
def headerSize : Nat := 28

/-- The `oem_ret_t` that the log layer returns, and what a callback may return of its own. -/
inductive Ret
  | ok
  | null
  | exists
  | full
  | nomem
  | notFound
  | range
  | invalid
  | nobuf
  | logList
  | logStray
  | logBodySize
  | logMissingCrc
  | user (code : Nat)
deriving DecidableEq, Repr

/-- `oem_log_handler_status_t`. -/
inductive Status
  | empty
  | active
  | inactive
  | dormant
  | broken
deriving DecidableEq, Repr

/-- The status with a number. -/
def Status.ofByte : UInt8 → Option Status
  | 0 => some .empty
  | 1 => some .active
  | 2 => some .inactive
  | 3 => some .dormant
  | 4 => some .broken
  | _ => none

/-- `oem_log_callback_t`. -/
abbrev Callback := Nat

/-- `oem_list_t`: where it is, what its nodes hold, and the node of the cursor. -/
structure CallbackList where
  addr : Nat
  nodes : List Callback
  cursor : Option Nat
deriving DecidableEq

/-- `oem_log_stat_t`. -/
structure Stat where
  logCount : UInt32
  logErrCount : UInt32
  errorCause : Ret
deriving DecidableEq

/-- `oem_log_handler_t`. -/
structure Handler where
  callbacks : Option CallbackList
  /-- Where the buffer is. -/
  recentMessage : Option Nat
  stat : Stat
  messageId : UInt16
  messageLength : UInt16
  status : Status
  hasRecentMessage : Bool
  ignoreMissingCrc : Bool
deriving DecidableEq

/-- A handler that is all zero. -/
def Handler.zero : Handler := ⟨none, none, ⟨0, 0, .ok⟩, 0, 0, .empty, false, false⟩

abbrev Slot := Fin handlerMax

/-- The loop of `execute_callbacks`: the handler, the turn and the number of callbacks. -/
structure Exec where
  slot : Slot
  i : Nat
  ncb : Nat
deriving DecidableEq

structure State where
  /-- `log_handlers`. -/
  handlers : Slot → Handler
  heap : Finset Nat
  exec : Option Exec

/-- Before the first call. -/
def State.start : State := ⟨fun _ => .zero, ∅, none⟩

def State.setHandler (s : State) (k : Slot) (h : Handler) : State :=
  { s with handlers := Function.update s.handlers k h }

section SetHandler

variable (s : State) (k : Slot) (h : Handler)

@[simp] theorem setHandler_heap : (s.setHandler k h).heap = s.heap := rfl

@[simp] theorem setHandler_exec : (s.setHandler k h).exec = s.exec := rfl

@[simp] theorem setHandler_handlers :
    (s.setHandler k h).handlers = Function.update s.handlers k h := rfl

end SetHandler

/-- What is seen from outside. -/
inductive Effect
  | returned (r : Ret)
  /-- `free`, and whether there was something to free. -/
  | freed (addr : Nat) (live : Bool)
  /-- A callback of the handler of a message is called. -/
  | ran (id : UInt16) (cb : Callback)
deriving DecidableEq

/-! ## The heap -/

/-- `malloc`, with the address that it finds. -/
def State.alloc (s : State) (found : Option Nat) : State × Option Nat :=
  match found with
  | some a => if a ∈ s.heap then (s, none) else ({ s with heap := insert a s.heap }, some a)
  | none => (s, none)

/-- `free`. -/
def State.free (s : State) (p : Option Nat) : State × List Effect :=
  match p with
  | some a => ({ s with heap := s.heap.erase a }, [.freed a (a ∈ s.heap)])
  | none => (s, [])

/-! ## Handlers -/

/-- `get_empty_handler_slot`. -/
def State.getEmptyHandlerSlot (s : State) : Option Slot :=
  (List.finRange handlerMax).find? fun k => (s.handlers k).status = .empty

/-- `get_handler_by_id`. -/
def State.getHandlerById (s : State) (id : UInt16) : Option Slot :=
  if id = 0 then none
  else
    (List.finRange handlerMax).find? fun k =>
      (s.handlers k).status ≠ .empty ∧ (s.handlers k).messageId = id

/-- `purge_handler`. -/
def State.purgeHandler (s : State) (k : Slot) : State × List Effect :=
  let message := s.free (s.handlers k).recentMessage
  let list := message.1.free ((s.handlers k).callbacks.map CallbackList.addr)
  (list.1.setHandler k .zero, message.2 ++ list.2)

/-- `oem_log_handler_register`, with what the allocator finds for the list and the message. -/
def State.register (s : State) (id mlen : UInt16) (list message : Option Nat) :
    State × List Effect :=
  if (s.getHandlerById id).isSome then (s, [.returned .exists])
  else
    match s.getEmptyHandlerSlot with
    | none => (s, [.returned .full])
    | some k =>
      match s.alloc list with
      | (s, none) =>
        (s.setHandler k { s.handlers k with callbacks := none }, [.returned .nomem])
      | (s, some a) =>
        match s.alloc message with
        | (s, none) =>
          let freed := s.free (some a)
          (freed.1.setHandler k { s.handlers k with callbacks := none, recentMessage := none },
            freed.2 ++ [.returned .nomem])
        | (s, some b) =>
          (s.setHandler k { s.handlers k with
            callbacks := some ⟨a, [], none⟩
            recentMessage := some b
            stat := ⟨0, 0, .ok⟩
            messageId := id
            messageLength := mlen
            status := .inactive
            hasRecentMessage := false }, [.returned .ok])

/-- `oem_log_handler_unregister`. -/
def State.unregister (s : State) (id : UInt16) : State × List Effect :=
  match s.getHandlerById id with
  | none => (s, [.returned .notFound])
  | some k =>
    let purged := s.purgeHandler k
    (purged.1, purged.2 ++ [.returned .ok])

/-! ## Status -/

/-- `is_valid_transfer`. -/
def isValidTransfer (source target : Status) (wakeup : Bool) : Bool :=
  if source = .empty ∨ source = .broken ∨ target = .empty ∨ target = .broken then false
  else if source = .dormant then wakeup && target == .inactive
  else true

/-- `statopt`. -/
inductive StatOpt
  | normal
  | wakeup
  | override
deriving DecidableEq

/-- `set_handler_status`. -/
def State.setHandlerStatus (s : State) (id : UInt16) (status : UInt8) (opt : StatOpt) :
    State × List Effect :=
  match Status.ofByte status with
  | none => (s, [.returned .range])
  | some status =>
    match s.getHandlerById id with
    | none => (s, [.returned .notFound])
    | some k =>
      if opt = .override ∨ isValidTransfer (s.handlers k).status status (opt == .wakeup) then
        (s.setHandler k { s.handlers k with status := status }, [.returned .ok])
      else (s, [.returned .invalid])

/-- The loop of `oem_log_handler_activate_all` and `oem_log_handler_deactivate_all`. -/
def State.changeAll (s : State) (source target : Status) : State × List Effect :=
  ({ s with handlers := fun k =>
      if (s.handlers k).status = source then { s.handlers k with status := target }
      else s.handlers k }, [.returned .ok])

/-- `oem_log_handler_activate_all`. -/
def State.activateAll (s : State) : State × List Effect := s.changeAll .inactive .active

/-- `oem_log_handler_deactivate_all`. -/
def State.deactivateAll (s : State) : State × List Effect := s.changeAll .active .inactive

/-! ## Callbacks and settings -/

/-- A change of the handler of a message id, if there is one. -/
def State.change (s : State) (id : UInt16) (f : Handler → Handler) : State × List Effect :=
  match s.getHandlerById id with
  | none => (s, [.returned .notFound])
  | some k => (s.setHandler k (f (s.handlers k)), [.returned .ok])

/-- `oem_log_add_callback`; `node` says whether there is memory for a node. -/
def State.addCallback (s : State) (id : UInt16) (callback : Option Callback) (node : Bool) :
    State × List Effect :=
  match callback with
  | none => (s, [.returned .null])
  | some cb =>
    match s.getHandlerById id with
    | none => (s, [.returned .notFound])
    | some k =>
      match (s.handlers k).callbacks, node with
      | some l, true =>
        (s.setHandler k { s.handlers k with
          callbacks := some { l with nodes := l.nodes ++ [cb] } }, [.returned .ok])
      | _, _ => (s, [.returned .logList])

/-- `oem_log_clear_callbacks`. -/
def State.clearCallbacks (s : State) (id : UInt16) (list : Option Nat) : State × List Effect :=
  match s.getHandlerById id with
  | none => (s, [.returned .notFound])
  | some k =>
    let freed := s.free ((s.handlers k).callbacks.map CallbackList.addr)
    let created := freed.1.alloc list
    (created.1.setHandler k { s.handlers k with
        callbacks := created.2.map fun a => ⟨a, [], none⟩ },
      freed.2 ++ [.returned (if created.2.isSome then .ok else .nomem)])

/-! ## Messages -/

/-- What the task knows of a message: the fields of `oem_task_context_t`. -/
structure Message where
  messageId : UInt16
  messageLength : UInt16
  crcReadSkipped : Bool
deriving DecidableEq

/-- `oem_list_getdata` on the callbacks of a handler. -/
def Handler.data (h : Handler) : Option Callback :=
  h.callbacks.bind fun l => l.cursor.bind fun c => l.nodes[c]?

/-- `oem_list_tohead`. -/
def CallbackList.toHead (l : CallbackList) : CallbackList :=
  if l.nodes = [] then l else { l with cursor := some 0 }

/-- `oem_list_tonext`. -/
def CallbackList.toNext (l : CallbackList) : CallbackList :=
  match l.cursor with
  | some c => if c + 1 < l.nodes.length then { l with cursor := some (c + 1) } else l
  | none => l

/-- The handler with its cursor moved. -/
def Handler.moved (h : Handler) (f : CallbackList → CallbackList) : Handler :=
  { h with callbacks := h.callbacks.map f }

/-- A turn of the loop in `execute_callbacks` up to the call. -/
def State.callNext (s : State) (e : Exec) : State × List Effect :=
  let h := s.handlers e.slot
  match h.data with
  | some cb => ({ s with exec := some e }, [.ran h.messageId cb])
  | none =>
    ({ s.setHandler e.slot { h with
        stat := { h.stat with errorCause := .notFound }, status := .broken } with exec := none },
      [.returned .notFound])

/-- `execute_callbacks` up to the first call. -/
def State.executeCallbacks (s : State) (k : Slot) : State × List Effect :=
  match (s.handlers k).callbacks with
  | none => (s, [.returned .null])
  | some l =>
    if l.nodes = [] then (s, [.returned .ok])
    else
      (s.setHandler k ((s.handlers k).moved .toHead)).callNext ⟨k, 0, l.nodes.length⟩

/-- The handler with the last error. -/
def Handler.caused (h : Handler) (r : Ret) : Handler :=
  { h with stat := { h.stat with errorCause := r } }

/-- `oem_log_do_handle`, up to the first call of a callback. -/
def State.doHandle (s : State) (m : Message) : State × List Effect :=
  match s.getHandlerById m.messageId with
  | none => (s, [.returned .logStray])
  | some k =>
    let h := s.handlers k
    if h.status = .dormant ∨ h.status = .broken then (s, [.returned .ok])
    else
      let h : Handler := { h with stat := { h.stat with logCount := h.stat.logCount + 1 } }
      let totalLength := headerSize + m.messageLength.toNat
      if 0 < h.messageLength ∧ h.messageLength.toNat ≠ totalLength then
        (s.setHandler k { h with
          stat := { h.stat with
            logErrCount := h.stat.logErrCount + 1, errorCause := .logBodySize } },
          [.returned .logBodySize])
      else if m.crcReadSkipped ∧ !h.ignoreMissingCrc then
        (s.setHandler k (h.caused .logMissingCrc), [.returned .logMissingCrc])
      else if h.recentMessage = none then
        (s.setHandler k { h.caused .nobuf with status := .broken }, [.returned .nobuf])
      else
        let h : Handler := { h.caused .ok with hasRecentMessage := true }
        if h.status = .inactive then (s.setHandler k h, [.returned .ok])
        else (s.setHandler k h).executeCallbacks k

/-- The callback that is running returns. -/
def State.callbackReturns (s : State) (r : Ret) : State × List Effect :=
  match s.exec with
  | none => (s, [])
  | some e =>
    if r ≠ .ok then
      ({ s.setHandler e.slot ((s.handlers e.slot).caused r) with exec := none }, [.returned r])
    else
      let s := s.setHandler e.slot ((s.handlers e.slot).moved .toNext)
      if e.i + 1 < e.ncb then s.callNext { e with i := e.i + 1 }
      else ({ s with exec := none }, [.returned .ok])

/-! ## The machine -/

inductive Call
  | register (id mlen : UInt16) (list message : Option Nat)
  | unregister (id : UInt16)
  | activate (id : UInt16)
  | deactivate (id : UInt16)
  | goDormant (id : UInt16)
  | wakeup (id : UInt16)
  | activateAll
  | deactivateAll
  | markBroken (id : UInt16)
  | setStatus (id : UInt16) (status : UInt8) (override : Bool)
  | addCallback (id : UInt16) (callback : Option Callback) (node : Bool)
  | clearCallbacks (id : UInt16) (list : Option Nat)
  | resetStat (id : UInt16)
  | ignoreMissingCrc (id : UInt16)
  | rejectMissingCrc (id : UInt16)

/-- What a call does. -/
def State.call (s : State) : Call → State × List Effect
  | .register id mlen list message => s.register id mlen list message
  | .unregister id => s.unregister id
  | .activate id => s.setHandlerStatus id 1 .normal
  | .deactivate id => s.setHandlerStatus id 2 .normal
  | .goDormant id => s.setHandlerStatus id 3 .normal
  | .wakeup id => s.setHandlerStatus id 2 .wakeup
  | .activateAll => s.activateAll
  | .deactivateAll => s.deactivateAll
  | .markBroken id => s.setHandlerStatus id 4 .override
  | .setStatus id status override =>
    s.setHandlerStatus id status (if override then .override else .normal)
  | .addCallback id callback node => s.addCallback id callback node
  | .clearCallbacks id list => s.clearCallbacks id list
  | .resetStat id => s.change id fun h => { h with stat := ⟨0, 0, .ok⟩ }
  | .ignoreMissingCrc id => s.change id fun h => { h with ignoreMissingCrc := true }
  | .rejectMissingCrc id => s.change id fun h => { h with ignoreMissingCrc := false }

inductive Input
  | call (c : Call)
  | message (m : Message)
  | returns (r : Ret)

/-- **The table of log handlers.**  The task handles one message at a time, so none comes in while
a callback is running. -/
def registry : Machine State Input (List Effect) where
  step s
    | .call c => s.call c
    | .message m => if s.exec.isSome then (s, []) else s.doHandle m
    | .returns r => s.callbackReturns r

end Log
end FlightApps
