import FlightApps.Lib.Cells
import FlightApps.Lib.Layout

/-!
# The reply state machine of the OEM7 receiver driver

`sm_feed` assembles one message in a buffer: it searches the three sync bytes, fills the buffer up
to the end of the header, of the body and of the CRC, and checks each of the parts when it is full.
`oem_task_read_single_reply` feeds it with what the I/O interface has read, until a message is
ready or an error is found, and starts over with the next call.

The machine is modelled with its buffer, its counters `need` and `have` (here `held`), its state
and its target.  `turn` is one turn of the loop of `sm_feed`, and `feedLoop` the loop, which has no
value when it has not ended after a given number of turns (`smFeed_isSome` says that it always
has).  Null pointers, the debug output and the fields of the header and of the context that the
machine neither reads nor writes are left out.
-/

set_option autoImplicit false

namespace FlightApps
namespace Oem

/-- `OEM_TASK_STATE_MACHINE_BUF_SIZE`. -/
def bufSize : Nat := 2048

/-- `sizeof(oem_binary_header_t)`. -/
def headerSize : Nat := 28

/-- `sizeof(oem_binary_response)`, up to the text. -/
def responseSize : Nat := 32

/-- `sizeof(oem_crc)`. -/
def crcSize : Nat := 4

/-- `OEM_SYNC_BYTE1`. -/
def syncByte1 : UInt8 := 0xAA

/-- `OEM_SYNC_BYTE2`. -/
def syncByte2 : UInt8 := 0x44

/-- `OEM_SYNC_BYTE3`. -/
def syncByte3 : UInt8 := 0x12

/-- `OEM_MSGTYPE_RESPONSE`. -/
def msgtypeResponse : UInt8 := 0x80

/-! ## CRC-32 -/

/-- The words of `crc32_lookup`. -/
def crc32Lookup : List UInt32 :=
  [
    0x00000000, 0x77073096, 0xEE0E612C, 0x990951BA, 0x076DC419, 0x706AF48F, 0xE963A535,
    0x9E6495A3, 0x0EDB8832, 0x79DCB8A4, 0xE0D5E91E, 0x97D2D988, 0x09B64C2B, 0x7EB17CBD,
    0xE7B82D07, 0x90BF1D91, 0x1DB71064, 0x6AB020F2, 0xF3B97148, 0x84BE41DE, 0x1ADAD47D,
    0x6DDDE4EB, 0xF4D4B551, 0x83D385C7, 0x136C9856, 0x646BA8C0, 0xFD62F97A, 0x8A65C9EC,
    0x14015C4F, 0x63066CD9, 0xFA0F3D63, 0x8D080DF5, 0x3B6E20C8, 0x4C69105E, 0xD56041E4,
    0xA2677172, 0x3C03E4D1, 0x4B04D447, 0xD20D85FD, 0xA50AB56B, 0x35B5A8FA, 0x42B2986C,
    0xDBBBC9D6, 0xACBCF940, 0x32D86CE3, 0x45DF5C75, 0xDCD60DCF, 0xABD13D59, 0x26D930AC,
    0x51DE003A, 0xC8D75180, 0xBFD06116, 0x21B4F4B5, 0x56B3C423, 0xCFBA9599, 0xB8BDA50F,
    0x2802B89E, 0x5F058808, 0xC60CD9B2, 0xB10BE924, 0x2F6F7C87, 0x58684C11, 0xC1611DAB,
    0xB6662D3D, 0x76DC4190, 0x01DB7106, 0x98D220BC, 0xEFD5102A, 0x71B18589, 0x06B6B51F,
    0x9FBFE4A5, 0xE8B8D433, 0x7807C9A2, 0x0F00F934, 0x9609A88E, 0xE10E9818, 0x7F6A0DBB,
    0x086D3D2D, 0x91646C97, 0xE6635C01, 0x6B6B51F4, 0x1C6C6162, 0x856530D8, 0xF262004E,
    0x6C0695ED, 0x1B01A57B, 0x8208F4C1, 0xF50FC457, 0x65B0D9C6, 0x12B7E950, 0x8BBEB8EA,
    0xFCB9887C, 0x62DD1DDF, 0x15DA2D49, 0x8CD37CF3, 0xFBD44C65, 0x4DB26158, 0x3AB551CE,
    0xA3BC0074, 0xD4BB30E2, 0x4ADFA541, 0x3DD895D7, 0xA4D1C46D, 0xD3D6F4FB, 0x4369E96A,
    0x346ED9FC, 0xAD678846, 0xDA60B8D0, 0x44042D73, 0x33031DE5, 0xAA0A4C5F, 0xDD0D7CC9,
    0x5005713C, 0x270241AA, 0xBE0B1010, 0xC90C2086, 0x5768B525, 0x206F85B3, 0xB966D409,
    0xCE61E49F, 0x5EDEF90E, 0x29D9C998, 0xB0D09822, 0xC7D7A8B4, 0x59B33D17, 0x2EB40D81,
    0xB7BD5C3B, 0xC0BA6CAD, 0xEDB88320, 0x9ABFB3B6, 0x03B6E20C, 0x74B1D29A, 0xEAD54739,
    0x9DD277AF, 0x04DB2615, 0x73DC1683, 0xE3630B12, 0x94643B84, 0x0D6D6A3E, 0x7A6A5AA8,
    0xE40ECF0B, 0x9309FF9D, 0x0A00AE27, 0x7D079EB1, 0xF00F9344, 0x8708A3D2, 0x1E01F268,
    0x6906C2FE, 0xF762575D, 0x806567CB, 0x196C3671, 0x6E6B06E7, 0xFED41B76, 0x89D32BE0,
    0x10DA7A5A, 0x67DD4ACC, 0xF9B9DF6F, 0x8EBEEFF9, 0x17B7BE43, 0x60B08ED5, 0xD6D6A3E8,
    0xA1D1937E, 0x38D8C2C4, 0x4FDFF252, 0xD1BB67F1, 0xA6BC5767, 0x3FB506DD, 0x48B2364B,
    0xD80D2BDA, 0xAF0A1B4C, 0x36034AF6, 0x41047A60, 0xDF60EFC3, 0xA867DF55, 0x316E8EEF,
    0x4669BE79, 0xCB61B38C, 0xBC66831A, 0x256FD2A0, 0x5268E236, 0xCC0C7795, 0xBB0B4703,
    0x220216B9, 0x5505262F, 0xC5BA3BBE, 0xB2BD0B28, 0x2BB45A92, 0x5CB36A04, 0xC2D7FFA7,
    0xB5D0CF31, 0x2CD99E8B, 0x5BDEAE1D, 0x9B64C2B0, 0xEC63F226, 0x756AA39C, 0x026D930A,
    0x9C0906A9, 0xEB0E363F, 0x72076785, 0x05005713, 0x95BF4A82, 0xE2B87A14, 0x7BB12BAE,
    0x0CB61B38, 0x92D28E9B, 0xE5D5BE0D, 0x7CDCEFB7, 0x0BDBDF21, 0x86D3D2D4, 0xF1D4E242,
    0x68DDB3F8, 0x1FDA836E, 0x81BE16CD, 0xF6B9265B, 0x6FB077E1, 0x18B74777, 0x88085AE6,
    0xFF0F6A70, 0x66063BCA, 0x11010B5C, 0x8F659EFF, 0xF862AE69, 0x616BFFD3, 0x166CCF45,
    0xA00AE278, 0xD70DD2EE, 0x4E048354, 0x3903B3C2, 0xA7672661, 0xD06016F7, 0x4969474D,
    0x3E6E77DB, 0xAED16A4A, 0xD9D65ADC, 0x40DF0B66, 0x37D83BF0, 0xA9BCAE53, 0xDEBB9EC5,
    0x47B2CF7F, 0x30B5FFE9, 0xBDBDF21C, 0xCABAC28A, 0x53B39330, 0x24B4A3A6, 0xBAD03605,
    0xCDD70693, 0x54DE5729, 0x23D967BF, 0xB3667A2E, 0xC4614AB8, 0x5D681B02, 0x2A6F2B94,
    0xB40BBE37, 0xC30C8EA1, 0x5A05DF1B, 0x2D02EF8D]

/-- One byte of `oem_crc32`. -/
def crc32Step (crc : UInt32) (b : UInt8) : UInt32 :=
  ((crc >>> 8) &&& 0x00FFFFFF) ^^^ crc32Lookup.getD (crc.toUInt8 ^^^ b).toNat 0

/-- `oem_crc32`. -/
def oemCrc32 (bytes : List UInt8) : UInt32 := bytes.foldl crc32Step 0

/-- `crc32_word`, which a build without the table uses in its place. -/
def crc32Word (i : UInt8) : UInt32 :=
  (List.range 8).foldl
    (fun crc _ => if crc &&& 1 = 1 then (crc >>> 1) ^^^ 0xEDB88320 else crc >>> 1) i.toUInt32

/-- `oem_crc32` of a build without the table. -/
def oemCrc32Words (bytes : List UInt8) : UInt32 :=
  bytes.foldl (fun crc b => ((crc >>> 8) &&& 0x00FFFFFF) ^^^ crc32Word (crc.toUInt8 ^^^ b)) 0

/-- **The two builds agree**: the table holds the words that are computed without it. -/
theorem crc32Lookup_eq (i : UInt8) : crc32Lookup.getD i.toNat 0 = crc32Word i := by
  have hall : ∀ k : Fin 256,
      crc32Lookup.getD (UInt8.ofFin k).toNat 0 = crc32Word (UInt8.ofFin k) := by
    decide +kernel
  exact hall i.toFin

/-! ## Headers

The fields of the header `oem_binary_header_t` at the front of some bytes that the driver reads.
-/

def headerLength (bs : List UInt8) : UInt8 := Layout.u8.read (bs.drop 3)

def messageID (bs : List UInt8) : UInt16 := Layout.u16.read (bs.drop 4)

def messageType (bs : List UInt8) : UInt8 := Layout.u8.read (bs.drop 6)

def messageLength (bs : List UInt8) : UInt16 := Layout.u16.read (bs.drop 8)

/-- `responseId` of the `oem_binary_response` at the front. -/
def responseId (bs : List UInt8) : UInt32 := Layout.u32.read (bs.drop headerSize)

/-- The response bit of the message type is set. -/
def hasResponseBit (bs : List UInt8) : Bool :=
  messageType bs &&& msgtypeResponse == msgtypeResponse

/-! ## The state machine -/

/-- `oem_task_state_t`. -/
inductive State
  | searchAA
  | search44
  | search12
  | fillPrep
  | fill
  | fillValidate
  | messageReady
deriving DecidableEq

/-- `oem_task_target_t`. -/
inductive Target
  | none
  | header
  | body
  | crc
deriving DecidableEq

/-- `oem_task_state_machine_t`. -/
structure StateMachine where
  buffer : Vector UInt8 bufSize
  need : Nat
  /-- `have`, the number of bytes in the buffer. -/
  held : Nat
  state : State
  target : Target

/-- What the machine writes of `oem_task_context_t`. -/
structure Context where
  messageId : Int16
  responseId : UInt32
  messageLength : UInt16
  crcReceived : UInt32
  crcCalced : UInt32
  isResponse : Bool
  crcReadSkipped : Bool
deriving DecidableEq

/-- The context after `memset(ctx, 0, sizeof(*ctx))`. -/
def Context.zero : Context where
  messageId := 0
  responseId := 0
  messageLength := 0
  crcReceived := 0
  crcCalced := 0
  isResponse := false
  crcReadSkipped := false

/-- The codes that `sm_feed` returns. -/
inductive Status
  | ok
  | tooLarge
  | headerSize
  | respSize
  | crc
  | smState
  | smTarget
  | smPrefill
  | smSizeMismatch
deriving DecidableEq

/-- The codes its comment calls unlikely, apparent bugs. -/
def Status.internal : Status → Bool
  | smState | smTarget | smPrefill | smSizeMismatch => true
  | _ => false

/-- `sm_reset`. -/
def smReset : StateMachine where
  buffer := Vector.replicate bufSize 0
  need := 0
  held := 0
  state := .searchAA
  target := .none

/-- The bytes in the buffer. -/
def StateMachine.bytes (sm : StateMachine) : List UInt8 := sm.buffer.toList.take sm.held

/-- `sm_feed` at work: the machine, the context and the number of bytes consumed, `i`. -/
structure Feed where
  sm : StateMachine
  ctx : Context
  i : Nat

/-- How a turn of the loop ends. -/
inductive Turn
  /-- With the next turn. -/
  | next (f : Feed)
  /-- With `goto sm_feed_end`. -/
  | stop (ret : Status) (f : Feed)

namespace Feed

/-- `sm_reset`, then `goto sm_feed_end` with an error. -/
def fail (f : Feed) (ret : Status) : Turn := .stop ret { f with sm := smReset }

/-- `STATE_SEARCH_AA`. -/
def searchAA (data : List UInt8) (f : Feed) : Turn :=
  if data.getD f.i 0 = syncByte1 then
    .next { f with
      sm := { f.sm with
        buffer := Cells.set f.sm.buffer 0 syncByte1
        state := .search44
        held := 1 }
      i := f.i + 1 }
  else
    .next { f with i := f.i + 1 }

/-- `STATE_SEARCH_44`. -/
def search44 (data : List UInt8) (f : Feed) : Turn :=
  if data.getD f.i 0 = syncByte2 then
    .next { f with
      sm := { f.sm with
        buffer := Cells.set f.sm.buffer 1 syncByte2
        state := .search12
        held := 2 }
      i := f.i + 1 }
  else if data.getD f.i 0 = syncByte1 then
    .next { f with i := f.i + 1 }
  else
    .next { f with sm := smReset }

/-- `STATE_SEARCH_12`. -/
def search12 (data : List UInt8) (f : Feed) : Turn :=
  if data.getD f.i 0 = syncByte3 then
    .next { f with
      sm := { f.sm with
        buffer := Cells.set f.sm.buffer 2 syncByte3
        state := .fillPrep
        target := .header
        held := 3 }
      i := f.i + 1 }
  else if data.getD f.i 0 = syncByte1 then
    .next { f with sm := { f.sm with state := .search44, held := 1 }, i := f.i + 1 }
  else
    .next { f with sm := smReset }

/-- The size that `STATE_FILL_PREP` fills the buffer to, if there is a target. -/
def expected (sm : StateMachine) : Option Nat :=
  match sm.target with
  | .none => none
  | .header => some Oem.headerSize
  | .body => some (Oem.headerSize + (messageLength sm.buffer.toList).toNat)
  | .crc => some (Oem.headerSize + (messageLength sm.buffer.toList).toNat + crcSize)

/-- `STATE_FILL_PREP`. -/
def fillPrep (f : Feed) : Turn :=
  match expected f.sm with
  | none => f.fail .smTarget
  | some n =>
    if n < f.sm.held then f.fail .smPrefill
    else if bufSize < n then f.fail .tooLarge
    else .next { f with sm := { f.sm with need := n - f.sm.held, state := .fill } }

/-- The number of bytes that `STATE_FILL` copies. -/
def toCopy (data : List UInt8) (f : Feed) : Nat :=
  if f.sm.need < data.length - f.i then f.sm.need else data.length - f.i

/-- `STATE_FILL`. -/
def fill (data : List UInt8) (f : Feed) : Turn :=
  let n := toCopy data f
  .next { f with
    sm := { f.sm with
      buffer := Cells.copy f.sm.buffer f.sm.held ((data.drop f.i).take n)
      held := f.sm.held + n
      need := f.sm.need - n
      state := if f.sm.need - n = 0 then .fillValidate else .fill }
    i := f.i + n }

/-- `STATE_FILL_VALIDATE` of the header. -/
def validateHeader (f : Feed) : Turn :=
  let bytes := f.sm.buffer.toList
  if (headerLength bytes).toNat ≠ Oem.headerSize then f.fail .headerSize
  else if f.sm.held ≠ Oem.headerSize then f.fail .smSizeMismatch
  else
    .next { f with
      sm := { f.sm with target := .body, state := .fillPrep }
      ctx := { f.ctx with
        messageId := (messageID bytes).toInt16
        messageLength := messageLength bytes
        isResponse := hasResponseBit bytes } }

/-- `STATE_FILL_VALIDATE` of the body. -/
def validateBody (f : Feed) : Turn :=
  if f.sm.held ≠ Oem.headerSize + f.ctx.messageLength.toNat then f.fail .smSizeMismatch
  else if f.ctx.isResponse = true ∧ f.sm.held < responseSize then f.fail .respSize
  else
    .next { f with
      sm := { f.sm with target := .crc, state := .fillPrep }
      ctx := { f.ctx with
        responseId :=
          if f.ctx.isResponse then Oem.responseId f.sm.buffer.toList else f.ctx.responseId } }

/-- `STATE_FILL_VALIDATE` of the CRC. -/
def validateCrc (f : Feed) : Turn :=
  if f.ctx.crcReadSkipped then .stop .ok { f with sm := { f.sm with state := .messageReady } }
  else
    let calced := oemCrc32 (f.sm.buffer.toList.take (f.sm.held - crcSize))
    let received := Layout.u32.read (f.sm.buffer.toList.drop (f.sm.held - crcSize))
    let ctx := { f.ctx with crcCalced := calced, crcReceived := received }
    if received ≠ calced then fail { f with ctx := ctx } .crc
    else .stop .ok { f with sm := { f.sm with state := .messageReady }, ctx := ctx }

/-- `STATE_FILL_VALIDATE`. -/
def fillValidate (f : Feed) : Turn :=
  match f.sm.target with
  | .none => f.fail .smTarget
  | .header => f.validateHeader
  | .body => f.validateBody
  | .crc => f.validateCrc

/-- One turn of the loop of `sm_feed`. -/
def turn (data : List UInt8) (f : Feed) : Turn :=
  match f.sm.state with
  | .searchAA => f.searchAA data
  | .search44 => f.search44 data
  | .search12 => f.search12 data
  | .fillPrep => f.fillPrep
  | .fill => f.fill data
  | .fillValidate => f.fillValidate
  | .messageReady => f.fail .smState

/-- The loop goes on. -/
def Running (data : List UInt8) (f : Feed) : Prop :=
  f.i < data.length ∨ f.sm.state = .fillValidate

instance (data : List UInt8) (f : Feed) : Decidable (Running data f) :=
  inferInstanceAs (Decidable (_ ∨ _))

/-- The loop of `sm_feed`, for a number of turns. -/
def feedLoop (data : List UInt8) : Nat → Feed → Option (Status × Feed)
  | 0, _ => none
  | fuel + 1, f =>
    if Running data f then
      match turn data f with
      | .next f => feedLoop data fuel f
      | .stop ret f => some (ret, f)
    else some (.ok, f)

end Feed

/-- A number of turns in which `sm_feed` ends: ten for each byte, and ten. -/
def feedTurns (data : List UInt8) : Nat := 10 * data.length + 10

/-- `sm_feed`. -/
def smFeed (sm : StateMachine) (data : List UInt8) (ctx : Context) : Option (Status × Feed) :=
  Feed.feedLoop data (feedTurns data) ⟨sm, ctx, 0⟩

/-! ## Every call ends -/

namespace Feed

/-- The turns the machine can make before it takes the next byte. -/
def rank (sm : StateMachine) : Nat :=
  match sm.state, sm.target with
  | .fillPrep, .header => 9
  | .fill, .header => 8
  | .fillValidate, .header => 7
  | .fillPrep, .body => 6
  | .fill, .body => 5
  | .fillValidate, .body => 4
  | .fillPrep, _ => 3
  | .fill, _ => 2
  | .fillValidate, _ => 1
  | .search44, _ => 1
  | .search12, _ => 1
  | _, _ => 0

theorem rank_le (sm : StateMachine) : rank sm ≤ 9 := by
  rw [rank]
  split <;> omega

/-- What preparing a part leaves behind: the part fits, and its bytes are needed. -/
theorem fillPrep_inv {f f' : Feed} (h : fillPrep f = .next f') :
    ∃ n, expected f.sm = some n ∧ f.sm.held ≤ n ∧ n ≤ bufSize ∧
      f' = { f with sm := { f.sm with need := n - f.sm.held, state := .fill } } := by
  rw [fillPrep] at h
  split at h
  · cases h
  · rename_i n hn
    split at h
    · cases h
    split at h
    · cases h
    rename_i hheld hsize
    cases h
    exact ⟨n, hn, Nat.le_of_not_lt hheld, Nat.le_of_not_lt hsize, rfl⟩

theorem toCopy_le (data : List UInt8) (f : Feed) : toCopy data f ≤ f.sm.need := by
  rw [toCopy]
  split <;> omega

/-- A turn either takes a byte or leads the machine on towards taking one. -/
theorem turn_rank {data : List UInt8} {f f' : Feed} (hrun : Running data f)
    (h : turn data f = .next f') :
    10 * (data.length - f'.i) + rank f'.sm < 10 * (data.length - f.i) + rank f.sm := by
  have htake : f.sm.state ≠ .fillValidate → f.i < data.length := hrun.resolve_right
  rw [turn] at h
  split at h <;> rename_i hstate
  · have := htake (by rw [hstate]; decide)
    rw [searchAA] at h
    split at h <;> cases h <;> simp only [rank, hstate] <;> omega
  · have := htake (by rw [hstate]; decide)
    rw [search44] at h
    repeat' split at h
    all_goals cases h; simp only [rank, hstate, smReset]; omega
  · have := htake (by rw [hstate]; decide)
    rw [search12] at h
    repeat' split at h
    all_goals cases h; simp only [rank, hstate, smReset]; omega
  · obtain ⟨n, hn, -, -, rfl⟩ := fillPrep_inv h
    rw [expected] at hn
    split at hn <;> rename_i htarget
    · cases hn
    all_goals simp only [rank, hstate, htarget]; omega
  · have hlt := htake (by rw [hstate]; decide)
    cases h
    by_cases hneed : f.sm.need = 0
    · have : toCopy data f = 0 := Nat.le_zero.1 (hneed ▸ toCopy_le data f)
      cases htarget : f.sm.target <;> simp only [rank, hstate, htarget, hneed, this] <;> simp
    · have : 0 < toCopy data f ∧ toCopy data f ≤ data.length - f.i := by
        rw [toCopy]
        split <;> omega
      refine Nat.lt_of_le_of_lt (Nat.add_le_add_left (rank_le _) _) ?_
      dsimp only
      omega
  · rw [fillValidate] at h
    split at h <;> rename_i htarget
    · cases h
    · rw [validateHeader] at h
      dsimp only at h
      repeat' split at h
      all_goals cases h
      simp only [rank, hstate, htarget]; omega
    · rw [validateBody] at h
      repeat' split at h
      all_goals cases h
      all_goals simp only [rank, hstate, htarget]; omega
    · rw [validateCrc] at h
      dsimp only at h
      repeat' split at h
      all_goals cases h
  · cases h

theorem feedLoop_isSome {data : List UInt8} {fuel : Nat} {f : Feed}
    (h : 10 * (data.length - f.i) + rank f.sm < fuel) : ∃ r, feedLoop data fuel f = some r := by
  induction fuel generalizing f with
  | zero => exact absurd h (Nat.not_lt_zero _)
  | succ fuel ih =>
    rw [feedLoop]
    split
    · rename_i hrun
      split
      · rename_i f' hturn
        have := turn_rank hrun hturn
        exact ih (by omega)
      · exact ⟨_, rfl⟩
    · exact ⟨_, rfl⟩

end Feed

/-- **Every call of `sm_feed` ends**, whatever the machine, the context and the data. -/
theorem smFeed_isSome (sm : StateMachine) (data : List UInt8) (ctx : Context) :
    ∃ r, smFeed sm data ctx = some r := by
  refine Feed.feedLoop_isSome ?_
  have := Feed.rank_le sm
  rw [feedTurns]
  show 10 * (data.length - 0) + Feed.rank sm < _
  omega

end Oem
end FlightApps
