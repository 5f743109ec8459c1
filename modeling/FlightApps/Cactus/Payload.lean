import FlightApps.Lib.Python

/-!
# Command parameters

`gs/payload.py` of CACTUS turns the text of a parameter into bytes, and says how many there are;
`gs/telemetry.py` reads such bytes under a field of the same definition.  The definitions here are
of the types other than `float` and `double`.  An exception of the program is no result.
-/

set_option autoImplicit false

namespace FlightApps
namespace Cactus

open Python (Text Endian Format Unicode)

/-! ## Definitions -/

/-- The integer types of `SCALAR_TYPES`. -/
inductive IntType
  | uint8 | int8 | uint16 | int16 | uint32 | int32 | uint64 | int64
deriving DecidableEq, Repr

/-- The format of a type in `SCALAR_TYPES`. -/
def IntType.format : IntType → Format
  | .uint8 => .B
  | .int8 => .b
  | .uint16 => .H
  | .int16 => .h
  | .uint32 => .I
  | .int32 => .i
  | .uint64 => .Q
  | .int64 => .q

inductive ParamType
  | scalar (t : IntType)
  | string
  | bytes
  | enum
deriving DecidableEq, Repr

/-- A definition of a parameter, or of a field of telemetry; what it leaves out is `none`.  The
names of the values are distinct. -/
structure Param where
  type : ParamType
  count : Option Int
  length : Option Int
  storage : Option IntType
  values : List (Text × Int)

namespace Param

variable (p : Param)

/-- `int(param.get('count', 1))`. -/
def countOf : Int := p.count.getD 1

/-- `param.get('storage', 'uint16')`. -/
def storageOf : IntType := p.storage.getD .uint16

end Param

/-! ## payload.py -/

section Encode

variable (u : Unicode)

/-- `_parse_int`. -/
def parseInt (s : Text) : Option Int :=
  let s := Python.strip u s
  if s.take 2 = ['0', 'x'] ∨ s.take 2 = ['0', 'X'] then Python.int u 16 s
  else if s.take 2 = ['0', 'b'] ∨ s.take 2 = ['0', 'B'] then Python.int u 2 s
  else Python.int u 10 s

/-- `_parse_scalar`, of an integer type. -/
def parseScalar (s : Text) : Option Int :=
  let s := Python.strip u s
  parseInt u (if s = [] then ['0'] else s)

/-- The byte of a character in ASCII, with replacements. -/
def asciiByte (c : Char) : UInt8 := if c.toNat < 128 then UInt8.ofNat c.toNat else 63

/-- The digits of a text that is to be hexadecimal. -/
def hexText (s : Text) : Text :=
  Python.removePair '0' 'X' (Python.removePair '0' 'x' (s.filter (· ≠ ' ')))

/-- `encode_param`. -/
def encodeParam (s : Text) (p : Param) (e : Endian) : Option Python.Bytes :=
  match p.type with
  | .scalar t => do
    let val ← parseScalar u s
    Python.pack e t.format val
  | .string =>
    let length := p.length.getD 32
    let encoded := s.map asciiByte
    some (Python.ljust (Python.sliceTo encoded length) length 0)
  | .bytes =>
    let length := p.length.getD 0
    let data := (Python.fromhex (hexText s)).getD []
    if length ≠ 0 then
      some (Python.sliceTo (data ++ List.replicate length.toNat 0) length)
    else some data
  | .enum =>
    match p.values.lookup s with
    | some v => Python.pack e p.storageOf.format v
    | none => Python.pack e p.storageOf.format ((parseInt u s).getD 0)

/-- The parts of the text of an array. -/
def parts (s : Text) : List Text := (Python.split ',' s).map (Python.strip u)

/-- `encode_param_array`. -/
def encodeParamArray (s : Text) (p : Param) (e : Endian) : Option Python.Bytes :=
  if p.countOf ≤ 1 then encodeParam u s p e
  else do
    let pieces ← (List.range p.countOf.toNat).mapM fun i =>
      encodeParam u ((parts u s).getD i ['0']) p e
    some pieces.flatten

/-- `param_byte_size`. -/
def paramByteSize (p : Param) : Int :=
  let size : Int :=
    match p.type with
    | .scalar t => t.format.size
    | .string | .bytes => p.length.getD 0
    | .enum => p.storageOf.format.size
  size * p.countOf

end Encode

/-! ## telemetry.py -/

/-- A raw value, or an entered one. -/
inductive Item
  | int (v : Int)
  | text (s : Text)
  | bytes (bs : Python.Bytes)
deriving DecidableEq

inductive Value
  | one (a : Item)
  | many (as : List Item)
deriving DecidableEq

/-- The loop of `_decode_scalar_values`, with a number of values to come. -/
def decodeLoop (data : Python.Bytes) (f : Format) (e : Endian) :
    Nat → Nat → Option (List Int × Nat)
  | 0, offset => some ([], offset)
  | n + 1, offset =>
    if data.length < offset + f.size then none
    else do
      let v := Python.unpack e f ((data.drop offset).take f.size)
      let r ← decodeLoop data f e n (offset + f.size)
      some (v :: r.1, r.2)

/-- `_decode_scalar_values`. -/
def decodeScalarValues (data : Python.Bytes) (offset : Nat) (t : IntType) (count : Int)
    (e : Endian) : Option (Value × Int) := do
  let r ← decodeLoop data t.format e count.toNat offset
  match count, r.1 with
  | 1, v :: _ => some (.one (.int v), r.2)
  | _, vs => some (.many (vs.map .int), r.2)

/-- `_slice_bytes`. -/
def sliceBytes (data : Python.Bytes) (offset : Nat) (length : Int) : Option Python.Bytes :=
  if (data.length : Int) < offset + length then none
  else some (Python.slice data offset (offset + length))

/-- A byte that is decoded from ASCII, with replacements. -/
def asciiChar (b : UInt8) : Char := if b.toNat < 128 then Char.ofNat b.toNat else '\uFFFD'

/-- The raw value of `_decode_field`, and the offset after it. -/
def decodeField (data : Python.Bytes) (offset : Nat) (p : Param) (e : Endian) :
    Option (Value × Int) :=
  match p.type with
  | .scalar t => decodeScalarValues data offset t p.countOf e
  | .enum => decodeScalarValues data offset p.storageOf p.countOf e
  | .string => do
    let length := p.length.getD 0
    let raw ← sliceBytes data offset length
    let shown := (Python.sliceTo raw length).takeWhile (· ≠ 0)
    some (.one (.text (shown.map asciiChar)), offset + length)
  | .bytes => do
    let length := p.length.getD 0
    let raw ← sliceBytes data offset length
    some (.one (.bytes raw), offset + length)

end Cactus
end FlightApps
