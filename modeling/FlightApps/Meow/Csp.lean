import Mathlib.Data.List.FinRange
import Mathlib.Logic.Function.Basic
import FlightApps.Lib.Machine

/-!
# The port handlers of the CSP wrapper

`meow_csp.c` lets packets for a port go to a handler: a function of the caller, the function that
forwards packets by a rule of the reroute table, or a function from a module that is loaded for it.
A slot of the handler table that has a loaded function owns the module: it is unloaded when the
handler goes.

The operating system is part of the state as far as modules go: `loaded` are the modules that have
been loaded and not yet unloaded.  Whether a load or a lookup succeeds, and with which id or
address, is part of the input; an id that is in use is never handed out again.  A pointer to a
function carries where it comes from.
-/

set_option autoImplicit false

namespace FlightApps
namespace Meow

/-! ## State -/

/-- `MEOW_CSP_REROUTE_MAX`. -/
def rerouteMax : Nat := 8

/-- `MEOW_CSP_HANDLER_MAX`. -/
def handlerMax : Nat := 8

/-- `osal_id_t` of a module. -/
abbrev ModuleId := UInt32

/-- `cpuaddr`. -/
abbrev Addr := UInt64

/-- The return codes of the handler functions. -/
inductive Ret
  | ok
  | errNull
  | errBounds
  | errModule
deriving DecidableEq, Repr

/-- `OS_ERR_NO_FREE_IDS`. -/
def osErrNoFreeIds : Int32 := -14

/-- A `meow_csp_port_handler`, by where it comes from. -/
inductive Fn
  /-- Passed in by a caller. -/
  | given (addr : Addr)
  /-- `reroute_fn`. -/
  | reroute
  /-- Looked up in a module. -/
  | symbol (m : ModuleId) (addr : Addr)
deriving DecidableEq

/-- The context of a handler. -/
inductive Ctx
  | null
  | given (addr : Addr)
  /-- An entry of the reroute table. -/
  | rule (idx : Fin rerouteMax)
deriving DecidableEq

/-- `port_handler_t`. -/
structure Handler where
  port : UInt8
  fn : Option Fn
  ctx : Ctx
  moduleId : ModuleId
  hasModule : Bool
  active : Bool
deriving DecidableEq

def zeroHandler : Handler := ⟨0, none, .null, 0, false, false⟩

/-- `meow_csp_reroute_entry_t`. -/
structure Reroute where
  dstPort : UInt8
  srcNode : UInt8
  fwdDst : UInt8
  fwdDstPort : UInt8
  fwdSrcPort : UInt8
  timeoutMs : UInt32
  active : Bool
deriving DecidableEq

def zeroReroute : Reroute := ⟨0, 0, 0, 0, 0, 0, false⟩

abbrev Slot := Fin handlerMax

/-- The tables, the last error of a module operation, and the modules that are loaded. -/
structure Csp where
  handlers : Slot → Handler
  reroutes : Fin rerouteMax → Reroute
  lastModuleErr : Int32
  loaded : List ModuleId

/-- A module operation. -/
inductive Note
  | load (m : ModuleId)
  | unload (m : ModuleId)
deriving DecidableEq

/-! ## Slots -/

/-- The first active slot with a port. -/
def findPort (handlers : Slot → Handler) (port : UInt8) : Option Slot :=
  (List.finRange handlerMax).find? fun i => (handlers i).active && (handlers i).port == port

/-- The first slot that is not active. -/
def findFree (handlers : Slot → Handler) : Option Slot :=
  (List.finRange handlerMax).find? fun i => !(handlers i).active

def Csp.setHandler (s : Csp) (i : Slot) (h : Handler) : Csp :=
  { s with handlers := Function.update s.handlers i h }

/-- `OS_ModuleUnload`. -/
def Csp.unload (s : Csp) (m : ModuleId) : Csp := { s with loaded := s.loaded.erase m }

/-- The handler that `meow_csp_dispatch` calls for a port.  Without one the packet goes to the
service handler. -/
def Csp.dispatch (s : Csp) (port : UInt8) : Option (Fn × Ctx) := do
  let i ← findPort s.handlers port
  let fn ← (s.handlers i).fn
  some (fn, (s.handlers i).ctx)

/-! ## Handlers -/

/-- `meow_csp_handler_set`. -/
def Csp.handlerSet (s : Csp) (port : UInt8) (fn : Option Fn) (ctx : Ctx) : Csp × Ret :=
  if fn = none then (s, .errNull)
  else
    match findPort s.handlers port with
    | some i => (s.setHandler i { s.handlers i with fn := fn, ctx := ctx }, .ok)
    | none =>
      match findFree s.handlers with
      | none => (s, .errBounds)
      | some i =>
        (s.setHandler i
          { s.handlers i with port := port, fn := fn, ctx := ctx, hasModule := false,
                              active := true }, .ok)

/-- `OS_ModuleLoad`. -/
def osModuleLoad (loaded : List ModuleId) : Except Int32 ModuleId → Except Int32 ModuleId
  | .error err => .error err
  | .ok m => if m ∈ loaded then .error osErrNoFreeIds else .ok m

/-- The handler that is looked up in a module. -/
def loadedHandler (port : UInt8) (m : ModuleId) (addr : Addr) : Handler :=
  ⟨port, some (.symbol m addr), .null, m, true, true⟩

/-- The second half of `meow_csp_handler_load`, when the module is loaded and the symbol found. -/
def Csp.attach (s : Csp) (port : UInt8) (m : ModuleId) (addr : Addr) : Csp × Ret × List Note :=
  match findPort s.handlers port with
  | some i =>
    if (s.handlers i).hasModule then
      ((s.unload (s.handlers i).moduleId).setHandler i (loadedHandler port m addr), .ok,
        [.unload (s.handlers i).moduleId])
    else (s.setHandler i (loadedHandler port m addr), .ok, [])
  | none =>
    match findFree s.handlers with
    | none => (s.unload m, .errBounds, [.unload m])
    | some i => (s.setHandler i (loadedHandler port m addr), .ok, [])

/-- `meow_csp_handler_load`, with what the system answers to the load and to the lookup. -/
def Csp.handlerLoad (s : Csp) (port : UInt8) (path symbol : Option String)
    (load : Except Int32 ModuleId) (lookup : Except Int32 Addr) : Csp × Ret × List Note :=
  if path = none ∨ symbol = none then (s, .errNull, [])
  else
    match osModuleLoad s.loaded load with
    | .error err => ({ s with lastModuleErr := err }, .errModule, [])
    | .ok m =>
      let s := { s with loaded := m :: s.loaded }
      match lookup with
      | .error err =>
        ({ s.unload m with lastModuleErr := err }, .errModule, [.load m, .unload m])
      | .ok addr =>
        let r := s.attach port m addr
        (r.1, r.2.1, .load m :: r.2.2)

/-- `meow_csp_handler_clear`. -/
def Csp.handlerClear (s : Csp) (port : UInt8) : Csp × List Note :=
  match findPort s.handlers port with
  | some i =>
    if (s.handlers i).hasModule then
      ((s.setHandler i zeroHandler).unload (s.handlers i).moduleId,
        [.unload (s.handlers i).moduleId])
    else (s.setHandler i zeroHandler, [])
  | none => (s, [])

/-! ## The reroute table -/

/-- The handler of a rule that is active goes. -/
def Csp.dropRule (s : Csp) (idx : Fin rerouteMax) : Csp × List Note :=
  if (s.reroutes idx).active then s.handlerClear (s.reroutes idx).dstPort else (s, [])

def Csp.setRule (s : Csp) (idx : Fin rerouteMax) (entry : Reroute) : Csp :=
  { s with reroutes := Function.update s.reroutes idx entry }

/-- `meow_csp_reroute_set`. -/
def Csp.rerouteSet (s : Csp) (idx : UInt8) (entry : Option Reroute) : Csp × Ret × List Note :=
  match entry with
  | none => (s, .errNull, [])
  | some entry =>
    if h : idx.toNat < rerouteMax then
      let r := s.dropRule ⟨idx.toNat, h⟩
      let s := r.1.setRule ⟨idx.toNat, h⟩ entry
      if !entry.active then (s, .ok, r.2)
      else
        let q := s.handlerSet entry.dstPort (some .reroute) (.rule ⟨idx.toNat, h⟩)
        (q.1, q.2, r.2)
    else (s, .errBounds, [])

/-- `meow_csp_reroute_clear`. -/
def Csp.rerouteClear (s : Csp) (idx : UInt8) : Csp × Ret × List Note :=
  if h : idx.toNat < rerouteMax then
    let r := s.dropRule ⟨idx.toNat, h⟩
    (r.1.setRule ⟨idx.toNat, h⟩ zeroReroute, .ok, r.2)
  else (s, .errBounds, [])

/-! ## Runs -/

/-- A call. -/
inductive Op
  | handlerSet (port : UInt8) (fn ctx : Option Addr)
  | handlerLoad (port : UInt8) (path symbol : Option String) (load : Except Int32 ModuleId)
      (lookup : Except Int32 Addr)
  | handlerClear (port : UInt8)
  | rerouteSet (idx : UInt8) (entry : Option Reroute)
  | rerouteClear (idx : UInt8)

/-- The context a caller passes in. -/
def Ctx.ofAddr : Option Addr → Ctx
  | none => .null
  | some addr => .given addr

def Csp.act (s : Csp) : Op → Csp × List Note
  | .handlerSet port fn ctx => ((s.handlerSet port (fn.map .given) (.ofAddr ctx)).1, [])
  | .handlerLoad port path symbol load lookup =>
    let r := s.handlerLoad port path symbol load lookup
    (r.1, r.2.2)
  | .handlerClear port => s.handlerClear port
  | .rerouteSet idx entry =>
    let r := s.rerouteSet idx entry
    (r.1, r.2.2)
  | .rerouteClear idx =>
    let r := s.rerouteClear idx
    (r.1, r.2.2)

/-- The handler table under its callers. -/
def csp : Machine Csp Op (List Note) := ⟨Csp.act⟩

/-- The tables at the start of the program. -/
def cspStart : Csp := ⟨fun _ => zeroHandler, fun _ => zeroReroute, 0, []⟩

end Meow
end FlightApps
