import FlightApps.Lib.Buffer
import FlightApps.Lib.Layout
import FlightApps.Pay.World

/-!
# Remote parameters

`pay_slt_utils.c` reads and writes the parameters of a payload with transactions of its own: a query
has a header of ten bytes and then addresses, or an address and a value, with the highest byte
first; a reply to a read has pairs of an address and a value.  All buffers have bounds here, so a
transaction whose reply is longer than the buffer it is copied to has no result.

The computers keep the lowest byte of a word first, and values in memory are lists of bytes.
-/

set_option autoImplicit false

namespace FlightApps
namespace Pay
namespace Rparam

/-! ## Formats -/

/-- `PAY_SLT_RPARAM_HEADER_SIZE`. -/
def headerSize : Nat := 10

/-- `PAY_SLT_RPARAM_ADDR_SIZE`. -/
def addrSize : Nat := 2

/-- `PAY_SLT_RPARAM_MAX_REPLY_PAYLOAD`. -/
def maxReplyPayload : Nat := 180

/-- `PAY_SLT_RPARAM_GET`. -/
def actionGet : UInt8 := 0x00

/-- `PAY_SLT_RPARAM_REPLY`. -/
def actionReply : UInt8 := 0x55

/-- `PAY_SLT_RPARAM_SET`. -/
def actionSet : UInt8 := 0xFF

/-- `PAY_SLT_RPARAM_SET_OK`. -/
def setOk : UInt8 := 1

/-- `GS_ERROR_ARG`. -/
def errorArg : Status := -22

/-- `GS_ERROR_IO`. -/
def errorIo : Status := -5

/-- `GS_ERROR_DATA`. -/
def errorData : Status := -2004

/-- The types of `gs_param_type_t` that the program names, and any other one. -/
inductive ParamType
  | uint8 | uint16 | uint32 | int8 | int16 | string | float
  | other
deriving DecidableEq, Repr

/-- `element_size`. -/
def ParamType.size : ParamType → Nat
  | .uint8 | .int8 | .string => 1
  | .uint16 | .int16 => 2
  | .uint32 | .float => 4
  | .other => 1

/-- `PAY_SLT_StoreBe16`. -/
def storeBe16 (v : UInt16) : List UInt8 := [(v >>> 8).toUInt8, v.toUInt8]

/-- The four bytes of a word, the highest first. -/
def storeBe32 (v : UInt32) : List UInt8 :=
  [(v >>> 24).toUInt8, (v >>> 16).toUInt8, (v >>> 8).toUInt8, v.toUInt8]

/-- `PAY_SLT_LoadBe16`. -/
def loadBe16 (b : List UInt8) : UInt16 :=
  (b.getD 0 0).toUInt16 <<< 8 ||| (b.getD 1 0).toUInt16

/-- `PAY_SLT_LoadBe32`. -/
def loadBe32 (b : List UInt8) : UInt32 :=
  (b.getD 0 0).toUInt32 <<< 24 ||| (b.getD 1 0).toUInt32 <<< 16 ||| (b.getD 2 0).toUInt32 <<< 8 |||
    (b.getD 3 0).toUInt32

/-- A value of a reply, as it lies in memory. -/
def decode : ParamType → List UInt8 → List UInt8
  | .uint16, b | .int16, b => Layout.u16.bytes (loadBe16 b)
  | .uint32, b | .float, b => Layout.u32.bytes (loadBe32 b)
  | _, b => b

/-! ## Transactions -/

/-- What `csp_transaction2` brings for a reply of unknown length, and the checksum that queries
have. -/
structure Bus (σ : Type) where
  /-- `GS_RPARAM_MAGIC_CHECKSUM`. -/
  magic : UInt16
  transact : σ → UInt8 → List UInt8 → Option (List UInt8) × σ

/-- `csp_transaction2`: the length that it returns, and the buffer for the reply. -/
def transaction {σ : Type} (bus : Bus σ) (s : σ) (node : UInt8) (query reply : List UInt8) :
    Option (Nat × List UInt8 × σ) :=
  match bus.transact s node query with
  | (none, s) => some (0, reply, s)
  | (some bytes, s) => do
    let reply ← Buffer.store reply 0 bytes
    some (bytes.length, reply, s)

/-- The header of a query. -/
def header (action table : UInt8) (payload : Nat) (magic : UInt16) : List UInt8 :=
  [action, table] ++ storeBe16 payload.toUInt16 ++ storeBe16 magic ++ storeBe16 0 ++ storeBe16 0

/-! ## Reading -/

/-- `PAY_SLT_Params_t`. -/
structure Params where
  node : UInt8
  table : UInt8
  addr : UInt16
  type : ParamType
  len : UInt8
  param : List UInt8

namespace Params

variable (p : Params)

/-- The address of an item of an array. -/
def itemAddr (i : Nat) : UInt16 := p.addr + (p.type.size * i).toUInt16

/-- The checks of a request, and how many items it is for. -/
def requestCount : Option Nat :=
  let capacity := 256 / p.type.size
  let count := p.len.toNat
  if p.type = .other then none
  else if p.len = 0 then none
  else if p.type = .string then
    if capacity < count then none
    else if maxReplyPayload < addrSize + count then none
    else some 1
  else if capacity < count then none
  else if maxReplyPayload < count * addrSize then none
  else if maxReplyPayload < count * (addrSize + p.type.size) then none
  else some count

/-- The addresses of a query, from the `i`-th on. -/
def storeAddrs : Nat → Nat → List UInt8 → Option (List UInt8)
  | 0, _, query => some query
  | n + 1, i, query => do
    let query ← Buffer.store query (headerSize + i * addrSize)
      (storeBe16 (if p.type = .string then p.addr else p.itemAddr i))
    storeAddrs n (i + 1) query

/-- The items of a reply, from the `i`-th on. -/
def readItems (reply : List UInt8) : Nat → Nat → List UInt8 → Option (Status × List UInt8)
  | 0, _, param => some (success, param)
  | n + 1, i, param => do
    let itemOffset := headerSize + i * (addrSize + p.type.size)
    let addr ← Buffer.load reply itemOffset 2
    if loadBe16 addr ≠ p.itemAddr i then some (errorData, param)
    else
      let source ← Buffer.load reply (itemOffset + addrSize) p.type.size
      let param ← Buffer.store param (i * p.type.size) (decode p.type source)
      readItems reply n (i + 1) param

/-- The text of a reply. -/
def readText (reply : List UInt8) (payload : Nat) : Option (Status × Params) :=
  let size := payload - addrSize
  if p.len.toNat < size then some (errorData, p)
  else do
    let text ← Buffer.load reply (headerSize + addrSize) size
    let param ← Buffer.store p.param 0 text
    let param ← Buffer.storeIf (size < 256) param size [0]
    some (success, { p with param := param, len := size.toUInt8 })

/-- The array of a reply. -/
def readArray (reply : List UInt8) (count payload : Nat) : Option (Status × Params) :=
  let each := addrSize + p.type.size
  if payload % each ≠ 0 then some (errorData, p)
  else
    let actual := payload / each
    if actual = 0 ∨ count < actual then some (errorData, p)
    else do
      let r ← p.readItems reply actual 0 p.param
      if r.1 = success then some (success, { p with param := r.2, len := actual.toUInt8 })
      else some (r.1, { p with param := r.2 })

/-- What `PAY_SLT_FetchParamCompat` makes of a reply. -/
def readReply (count replyLen : Nat) (reply : List UInt8) : Option (Status × Params) :=
  if replyLen = 0 then some (errorIo, p)
  else if replyLen < headerSize then some (errorData, p)
  else do
    let action : UInt8 ← reply[0]?
    let table : UInt8 ← reply[1]?
    let size ← Buffer.load reply 2 2
    let payload := (loadBe16 size).toNat
    let first ← Buffer.load reply headerSize 2
    if action ≠ actionReply ∨ table ≠ p.table then some (errorData, p)
    else if replyLen - headerSize < payload then some (errorData, p)
    else if payload < addrSize then some (errorData, p)
    else if loadBe16 first ≠ p.addr then some (errorData, p)
    else if p.type = .string then p.readText reply payload
    else p.readArray reply count payload

end Params

section Fetch

variable {σ : Type} (bus : Bus σ) (s : σ)

/-- `PAY_SLT_FetchParamCompat`; `PAY_SLT_FetchParam` only reports its errors. -/
def fetchParam (p : Params) : Option (Status × Params × σ) :=
  match p.requestCount with
  | none => some (errorArg, p, s)
  | some count => do
    let queryPayload := count * addrSize
    let query := List.replicate (headerSize + maxReplyPayload) 0
    let query ← Buffer.store query 0 (header actionGet p.table queryPayload bus.magic)
    let query ← p.storeAddrs count 0 query
    let query ← Buffer.load query 0 (headerSize + queryPayload)
    let (replyLen, reply, s) ← transaction bus s p.node query
      (List.replicate (headerSize + maxReplyPayload) 0)
    let (status, p) ← p.readReply count replyLen reply
    some (status, p, s)

/-- `PAY_SLT_FetchParam_Simple`, with memory of the caller's from `out_ptr` on. -/
def fetchParamSimple (type : ParamType) (node table : UInt8) (addr : UInt16) (len : UInt8)
    (out : List UInt8) : Option (Status × List UInt8 × σ) := do
  let (status, p, s) ← fetchParam bus s ⟨node, table, addr, type, len, List.replicate 256 0⟩
  if status = success ∧ type ≠ .string ∧ p.len ≠ len then some (errorData, out, s)
  else if status = success then
    let bytes ← Buffer.load p.param 0 (type.size * p.len.toNat)
    let out ← Buffer.store out 0 bytes
    some (status, out, s)
  else some (status, out, s)

end Fetch

/-! ## Writing -/

/-- The length of a string of at most 128 characters, from the `i`-th on. -/
def strSize (value : List UInt8) : Nat → Nat → Option Nat
  | 0, i => some i
  | n + 1, i => do
    let c : UInt8 ← value[i]?
    if c ≠ 0 then strSize value n (i + 1) else some i

/-- The bytes that are sent for a value in memory, if the type is one that is written. -/
def setBytes (type : ParamType) (value : List UInt8) : Option (Option (List UInt8)) :=
  match type with
  | .uint8 => do
    let b ← Buffer.load value 0 1
    some (some b)
  | .uint16 => do
    let b ← Buffer.load value 0 2
    some (some (storeBe16 (Layout.u16.read b)))
  | .uint32 => do
    let b ← Buffer.load value 0 4
    some (some (storeBe32 (Layout.u32.read b)))
  | .string => do
    let n ← strSize value 128 0
    let b ← Buffer.load value 0 (n + 1)
    some (some b)
  | _ => some none

/-- `sizeof(query)` of `PAY_SLT_SetParamCompat`. -/
def setQuerySize : Nat := 268

section Set

variable {σ : Type} (bus : Bus σ) (s : σ)

/-- `PAY_SLT_SetParam`, with what `PAY_SLT_SetParamCompat` does. -/
def setParam (node table : UInt8) (addr : UInt16) (type : ParamType) (value : List UInt8) :
    Option (Status × σ) := do
  let bytes ← setBytes type value
  match bytes with
  | none => some (errorArg, s)
  | some bytes =>
    let payload := addrSize + bytes.length
    if setQuerySize < headerSize + payload then some (errorArg, s)
    else
      let query := List.replicate setQuerySize 0
      let query ← Buffer.store query 0 (header actionSet table payload bus.magic)
      let query ← Buffer.store query headerSize (storeBe16 addr)
      let query ← Buffer.store query (headerSize + addrSize) bytes
      let query ← Buffer.load query 0 (headerSize + payload)
      let (replyLen, reply, s) ← transaction bus s node query (List.replicate 256 0)
      let ok : UInt8 ← reply[0]?
      let size ← Buffer.load reply 2 2
      if replyLen = 0 then some (errorIo, s)
      else if replyLen = 1 ∧ ok = setOk then some (success, s)
      else if headerSize ≤ replyLen ∧ ok = setOk ∧ (loadBe16 size).toNat = payload then
        some (success, s)
      else some (errorData, s)

/-- `PAY_SLT_IsValidNode`. -/
def isValidNode (node : UInt8) : Bool := node == 11 || node == 12 || node == 13

/-- `PAY_SLT_IsValidTable`. -/
def isValidTable (table : UInt8) : Bool := table ≤ 7

/-- `PAY_SLT_ParSet_Payload_t`. -/
structure ParSet where
  node : UInt8
  table : UInt8
  addr : UInt16
  type : ParamType
  data : Vector UInt8 96

/-- `PAY_SLT_ParSetCmd`, with the status that it reports. -/
def parSetCmd (c : ParSet) : Option (Status × σ) :=
  if !isValidNode c.node || !isValidTable c.table then some (badArgument, s)
  else
    match c.type with
    | .string => do
      let data ← Buffer.store c.data.toList 95 [0]
      setParam bus s c.node c.table c.addr c.type data
    | .uint8 | .uint16 | .uint32 => setParam bus s c.node c.table c.addr c.type c.data.toList
    | _ => some (badArgument, s)

/-- `PAY_SLT_ParSetArray_Payload_t`. -/
structure ParSetArray where
  node : UInt8
  table : UInt8
  addr : UInt16
  type : ParamType
  len : UInt8
  data : Vector UInt8 32

/-- The loop of `PAY_SLT_ParSetArrayCmd`, from the `i`-th element on. -/
def parSetArrayLoop (c : ParSetArray) : Nat → Nat → σ → Option (Status × σ)
  | 0, _, s => some (success, s)
  | n + 1, i, s => do
    let (status, s) ← setParam bus s c.node c.table (c.addr + (c.type.size * i).toUInt16) c.type
      (c.data.toList.drop (i * c.type.size))
    if status ≠ success then some (status, s) else parSetArrayLoop c n (i + 1) s

/-- `PAY_SLT_ParSetArrayCmd`, with the status that it reports. -/
def parSetArrayCmd (c : ParSetArray) : Option (Status × σ) :=
  if !isValidNode c.node || !isValidTable c.table then some (badArgument, s)
  else if c.type ≠ .uint8 ∧ c.type ≠ .uint16 ∧ c.type ≠ .uint32 then some (badArgument, s)
  else if c.len = 0 ∨ 8 < c.len then some (badArgument, s)
  else parSetArrayLoop bus c c.len.toNat 0 s

end Set

end Rparam
end Pay
end FlightApps
