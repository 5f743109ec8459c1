import Mathlib.Data.List.GetD
import FlightApps.Lib.Buffer
import FlightApps.Lib.Polled
import FlightApps.Lib.Words
import FlightApps.Serial.Driver

/-!
# Packets of the thruster

`SendPacket` and `RecvPacket` of `thrust_cmds_list.c` on a serial line that delivers its bytes in
order and in pieces.  A read of the transport looks once for input and takes what has come; if that
is less than it was asked for it fails, and what it took is gone.

A `Packet` is what a receiver accepts, and `RecvPacket` accepts one exactly if the line begins with
its bytes and they come in time (`recvPacket_spec`).  It does not search for the header, so what
`SendPacket` transmits is accepted after noise only if there is none (`packet_accepted_iff`).
-/

set_option autoImplicit false

namespace FlightApps
namespace Thrust

open Serial (linuxSerialPollRead linuxSerialWrite Call)

abbrev Bytes := List UInt8

/-! ## Constants and the checksum -/

/-- `THRUST_N_MAX`. -/
def nMax : Nat := 200

/-- `THRUST_TX_BUF_SIZE`. -/
def txBufSize : Nat := 6 + nMax + 2

/-- `THRUST_RX_BUF_SIZE`. -/
def rxBufSize : Nat := 6 + nMax + 2

/-- `THRUST_PKT_VERSION`. -/
def pktVersion : UInt8 := 0x10

/-- `THRUST_CRC16_POLY`. -/
def crc16Poly : UInt16 := 0x1021

/-- `THRUST_CRC16_INIT`. -/
def crc16Init : UInt16 := 0xFFFF

def crcBit (crc : UInt16) : UInt16 :=
  if crc &&& 0x8000 ≠ 0 then (crc <<< 1) ^^^ crc16Poly else crc <<< 1

def crcByte (crc : UInt16) (b : UInt8) : UInt16 := Nat.repeat crcBit 8 (crc ^^^ (b.toUInt16 <<< 8))

/-- `THRUST_CalcCRC16`. -/
def calcCRC16 (data : Bytes) : UInt16 := data.foldl crcByte crc16Init

/-- `PACK_U16_LE`. -/
def packU16LE (v : UInt16) : Bytes := [(v &&& 0xFF).toUInt8, ((v >>> 8) &&& 0xFF).toUInt8]

/-- `THRUST_ReadU16LE` at an index. -/
def readU16LE (buf : Bytes) (i : Nat) : UInt16 :=
  (buf.getD i 0).toUInt16 ||| (buf.getD (i + 1) 0).toUInt16 <<< 8

@[simp] theorem length_packU16LE (v : UInt16) : (packU16LE v).length = 2 := by simp [packU16LE]

theorem readU16LE_pack (v : UInt16) (rest : Bytes) : readU16LE (packU16LE v ++ rest) 0 = v := by
  simp only [readU16LE, packU16LE, List.cons_append, List.getD_cons_zero, List.getD_cons_succ,
    UInt16.toUInt8_and, UInt16.toUInt8_ofNat, Words.and_ff]
  exact Words.u16_of_bytes v

theorem packU16LE_read (a b : UInt8) (rest : Bytes) :
    packU16LE (readU16LE (a :: b :: rest) 0) = [a, b] := by
  simp only [readU16LE, packU16LE, List.getD_cons_zero, List.getD_cons_succ, UInt16.toUInt8_and,
    UInt16.toUInt8_ofNat, Words.and_ff]
  rw [Words.u16_lo, Words.u16_hi]

theorem readU16LE_append {xs : Bytes} {k : Nat} (h : xs.length = k) (ys : Bytes) :
    readU16LE (xs ++ ys) k = readU16LE ys 0 := by
  subst h
  rw [readU16LE, List.getD_append_right _ _ _ _ (Nat.le_refl _),
    List.getD_append_right _ _ _ _ (Nat.le_add_right _ 1), Nat.sub_self, Nat.add_sub_cancel_left]
  simp [readU16LE]

theorem readU16LE_append_left {xs : Bytes} {k : Nat} (h : k + 2 ≤ xs.length) (ys : Bytes) :
    readU16LE (xs ++ ys) k = readU16LE xs k := by
  rw [readU16LE, List.getD_append _ _ _ _ (by omega), List.getD_append _ _ _ _ (by omega), readU16LE]

/-! ## The transport -/

/-- `CFE_SUCCESS` and the `THRUST_ERR` codes. -/
inductive Status
  | success
  | errWrite
  | errTimeout
  | errCrc
  | errNack
  | errHeader
  | errPacket
deriving DecidableEq, Repr

/-- What a command has at hand: the line, the last response that is kept for reports, and the buffer
it receives to. -/
structure Io where
  line : Polled UInt8
  lastResponse : Bytes
  buf : Bytes

/-- `linux_serial_poll_read`: `poll` sees whether anything has come, and `read` takes at most `size`
bytes of it. -/
def pollStatus (line : Polled UInt8) (size : Nat) : Serial.Status :=
  linuxSerialPollRead ⟨if line.arrived 1 = [] then 0 else 1, true⟩
    ⟨(line.read size).1.length, false⟩ size

/-- `THRUST_TransportWrapper` without bytes to send, on `buf[off]`; no value if what is read does not
fit the buffer. -/
def Io.transport (s : Io) (off size : Nat) : Option (Serial.Status × Io) :=
  (Buffer.store s.buf off (s.line.read size).1).map fun buf =>
    (pollStatus s.line size, { s with line := (s.line.read size).2, buf })

/-- `THRUST_RecordLastResponse`. -/
def Io.recordLastResponse (s : Io) (off size : Nat) : Io :=
  { s with lastResponse := (s.lastResponse ++ (s.buf.drop off).take size).take rxBufSize }

/-- The loops of `RecvPacket`: one byte to each of `n` cells from `i` on. -/
def readEach (i : Nat) : Nat → Io → Option (Serial.Status × Io)
  | 0, s => some (.success, s)
  | n + 1, s =>
    (s.transport i 1).bind fun (ret, s) =>
      if ret ≠ .success then some (ret, s)
      else readEach (i + 1) n (s.recordLastResponse i 1)

/-! ## Sending and receiving -/

/-- The payload of `SendPacket`, copied to `tx_buf` if there is one. -/
def copyPayload (payloadLen : UInt8) (txBuf : Bytes) : Option Bytes → Option Bytes
  | some payload =>
    Buffer.storeIf (0 < payloadLen.toNat) txBuf 6 (payload.take payloadLen.toNat)
  | none => some txBuf

/-- The bytes of `SendPacket`, built in `tx_buf`; no value if they do not fit. -/
def packetBytes (msgType msgId payloadLen : UInt8) (payload : Option Bytes) (txBuf : Bytes) :
    Option Bytes :=
  (Buffer.store txBuf 0 [0xAA, 0x55, pktVersion, msgType, msgId, payloadLen]).bind fun txBuf =>
  (copyPayload payloadLen txBuf payload).bind fun txBuf =>
  (Buffer.store txBuf (6 + payloadLen.toNat)
    (packU16LE (calcCRC16 ((txBuf.drop 2).take (4 + payloadLen.toNat))))).map fun txBuf =>
  txBuf.take (6 + payloadLen.toNat + 2)

/-- `SendPacket`, with what `write` returns: the status, and the bytes given to `write`. -/
def sendPacket (registered : Bool) (msgType msgId payloadLen : UInt8) (payload : Option Bytes)
    (txBuf : Bytes) (write : Call) : Option (Status × Bytes) :=
  (packetBytes msgType msgId payloadLen payload txBuf).map fun bytes =>
    if !registered then (.errWrite, [])
    else if linuxSerialWrite write bytes.length ≠ .success then (.errWrite, bytes)
    else (.success, bytes)

/-- `RecvPacket` from step 5 on: payload and checksum. -/
def recvRest (s : Io) (payloadLen : UInt8) : Option (Except Status UInt8 × Io) :=
  (s.transport 6 (payloadLen.toNat + 2)).map fun (ret, s) =>
  if ret ≠ .success then (.error .errTimeout, s) else
  let s := s.recordLastResponse 6 (payloadLen.toNat + 2)
  if calcCRC16 ((s.buf.drop 2).take (4 + payloadLen.toNat)) ≠ readU16LE s.buf (6 + payloadLen.toNat)
  then (.error .errCrc, s)
  else (.ok payloadLen, s)

/-- `RecvPacket` from step 3 on: version, type, id and length. -/
def recvFields (s : Io) : Option (Except Status UInt8 × Io) :=
  (readEach 2 4 s).bind fun (ret, s) =>
  if ret ≠ .success then some (.error .errTimeout, s)
  else if nMax < (s.buf.getD 5 0).toNat then some (.error .errPacket, s)
  else recvRest s (s.buf.getD 5 0)

/-- `RecvPacket`: the status, with the length of the payload if it is `CFE_SUCCESS`. -/
def recvPacket (registered : Bool) (s : Io) : Option (Except Status UInt8 × Io) :=
  if !registered then some (.error .errTimeout, s) else
  (readEach 0 2 s).bind fun (ret, s) =>
  if ret ≠ .success then some (.error .errTimeout, s)
  else if s.buf.getD 0 0 ≠ 0xAA ∨ s.buf.getD 1 0 ≠ 0x55 then some (.error .errHeader, s)
  else recvFields s

/-! ## Packets -/

/-- A packet that a receiver accepts. -/
structure Packet where
  version : UInt8
  msgType : UInt8
  msgId : UInt8
  payload : Bytes
  fits : payload.length ≤ nMax

namespace Packet

variable (p : Packet)

/-- What the checksum covers. -/
def body : Bytes :=
  p.version :: p.msgType :: p.msgId :: UInt8.ofNat p.payload.length :: p.payload

/-- The packet without its checksum. -/
def front : Bytes := 0xAA :: 0x55 :: p.body

def bytes : Bytes := p.front ++ packU16LE (calcCRC16 p.body)

@[simp] theorem length_body : p.body.length = 4 + p.payload.length := by simp [body]; omega

@[simp] theorem length_front : p.front.length = 6 + p.payload.length := by simp [front]; omega

@[simp] theorem length_bytes : p.bytes.length = 8 + p.payload.length := by simp [bytes]; omega

theorem length_bytes_le : p.bytes.length ≤ rxBufSize := by
  have h := p.fits
  rw [length_bytes, rxBufSize]
  omega

theorem toNat_length : (UInt8.ofNat p.payload.length).toNat = p.payload.length := by
  have h := p.fits
  rw [UInt8.toNat_ofNat', Nat.mod_eq_of_lt]
  rw [nMax] at h
  omega

theorem getD_length : (p.bytes.getD 5 0).toNat = p.payload.length := p.toNat_length

theorem body_of_front (rest : Bytes) :
    ((p.front ++ rest).drop 2).take (4 + p.payload.length) = p.body := by
  rw [← length_body]
  exact List.take_left' rfl

theorem checksum : calcCRC16 ((p.bytes.drop 2).take (4 + p.payload.length)) =
    readU16LE p.bytes (6 + p.payload.length) := by
  rw [bytes, p.body_of_front, readU16LE_append p.length_front, ← List.append_nil (packU16LE _),
    readU16LE_pack]

theorem take_of_starts {whole : Bytes} (h : p.bytes <+: whole) :
    whole.take (8 + p.payload.length) = p.bytes := by
  rw [← length_bytes]
  exact (List.prefix_iff_eq_take.1 h).symm

end Packet

theorem copyPayload_front {payload txBuf w : Bytes} {arg : Option Bytes}
    (hfits : payload.length ≤ nMax) (hw : w.length = 6) (hbuf : txBuf.length = txBufSize)
    (harg : arg = some payload ∨ payload = [] ∧ arg = none) :
    copyPayload (UInt8.ofNat payload.length) (w ++ txBuf.drop w.length) arg =
      some ((w ++ payload) ++ txBuf.drop (w ++ payload).length) := by
  have hnat : (UInt8.ofNat payload.length).toNat = payload.length :=
    (Packet.mk pktVersion 0 0 payload hfits).toNat_length
  rw [nMax] at hfits
  rw [txBufSize, nMax] at hbuf
  rcases harg with rfl | ⟨rfl, rfl⟩
  · rw [copyPayload, hnat, List.take_length]
    refine Buffer.storeIf_front payload (fun hzero => ?_) hw.symm (by omega)
    exact List.eq_nil_of_length_eq_zero (Nat.eq_zero_of_not_pos hzero)
  · simp [copyPayload]

/-- What `SendPacket` transmits is a packet. -/
theorem packetBytes_eq (msgType msgId : UInt8) {payload txBuf : Bytes} {arg : Option Bytes}
    (hfits : payload.length ≤ nMax) (hbuf : txBuf.length = txBufSize)
    (harg : arg = some payload ∨ payload = [] ∧ arg = none) :
    packetBytes msgType msgId (UInt8.ofNat payload.length) arg txBuf =
      some (Packet.mk pktVersion msgType msgId payload hfits).bytes := by
  let p := Packet.mk pktVersion msgType msgId payload hfits
  have hnat : (UInt8.ofNat payload.length).toNat = payload.length := p.toNat_length
  have hlen : p.front.length = 6 + payload.length := p.length_front
  have hle := hfits
  have hsize := hbuf
  rw [nMax] at hle
  rw [txBufSize, nMax] at hsize
  have hstart : txBuf = [] ++ txBuf.drop ([] : Bytes).length := by simp
  rw [packetBytes]
  conv_lhs => rw [hstart]
  refine Buffer.bind_store_front rfl (by simp; omega) ?_
  rw [List.nil_append, copyPayload_front hfits (by simp) hbuf harg, Option.bind_some, hnat]
  change (Buffer.store (p.front ++ txBuf.drop p.front.length) (6 + payload.length)
    (packU16LE (calcCRC16 (((p.front ++ txBuf.drop p.front.length).drop 2).take
      (4 + payload.length))))).map (List.take (6 + payload.length + 2)) = some p.bytes
  rw [p.body_of_front, Buffer.store_front _ hlen.symm (by rw [length_packU16LE]; omega), Option.map_some]
  refine congrArg some (List.take_left' ?_)
  rw [List.length_append, hlen, length_packU16LE]

theorem exists_header {xs : Bytes} (h : 6 ≤ xs.length) :
    ∃ a b v t i l rest, xs = a :: b :: v :: t :: i :: l :: rest := by
  rcases xs with _ | ⟨a, _ | ⟨b, _ | ⟨v, _ | ⟨t, _ | ⟨i, _ | ⟨l, rest⟩⟩⟩⟩⟩⟩
  case cons.cons.cons.cons.cons.cons => exact ⟨a, b, v, t, i, l, rest, rfl⟩
  all_goals simp at h

theorem packU16LE_readU16LE {xs : Bytes} {k : Nat} (h : xs.length = k + 2) :
    packU16LE (readU16LE xs k) = xs.drop k := by
  obtain ⟨x, y, hxy⟩ := List.length_eq_two.1 (show (xs.drop k).length = 2 by simp; omega)
  have hread := readU16LE_append (show (xs.take k).length = k by simp; omega) (xs.drop k)
  rw [List.take_append_drop, hxy] at hread
  rw [hread, packU16LE_read, hxy]

/-- Bytes with a good header, length and checksum are a packet. -/
theorem packet_of_bytes {xs : Bytes} {n : Nat} (hn : n ≤ nMax) (hlen : xs.length = 8 + n)
    (hheader : xs.getD 0 0 = 0xAA ∧ xs.getD 1 0 = 0x55) (hlength : (xs.getD 5 0).toNat = n)
    (hcrc : calcCRC16 ((xs.drop 2).take (4 + n)) = readU16LE xs (6 + n)) :
    ∃ p : Packet, p.payload.length = n ∧ p.bytes = xs := by
  obtain ⟨a, b, v, t, i, l, rest, rfl⟩ := exists_header (by omega : 6 ≤ xs.length)
  simp only [List.length_cons] at hlen
  obtain ⟨rfl, rfl⟩ : a = 0xAA ∧ b = 0x55 := hheader
  have hl : UInt8.ofNat n = l := by rw [← hlength]; simp
  have htake : (rest.take n).length = n := by rw [List.length_take]; omega
  let p : Packet := ⟨v, t, i, rest.take n, by rw [htake]; exact hn⟩
  have hfront : p.front ++ rest.drop n = 0xAA :: 0x55 :: v :: t :: i :: l :: rest := by
    simp [Packet.front, Packet.body, p, htake, hl]
  have hp : p.payload.length = n := htake
  refine ⟨p, htake, ?_⟩
  have hbody := p.body_of_front (rest.drop n)
  rw [hfront, hp] at hbody
  rw [Packet.bytes, ← hbody, hcrc, packU16LE_readU16LE (by simp; omega), ← hfront,
    List.drop_left' (by rw [p.length_front, hp])]

/-! ## What is received -/

/-- After `k` reads that took the first `c` bytes. -/
def Io.got (s : Io) (k c : Nat) : Io where
  line := s.line.after k c
  lastResponse := (s.lastResponse ++ (s.line.arrived k).take c).take rxBufSize
  buf := (s.line.arrived k).take c ++ s.buf.drop c

theorem take_append_take {α : Type} (n : Nat) (xs ys : List α) :
    (xs.take n ++ ys).take n = (xs ++ ys).take n := by
  simp [List.take_append]
  grind

theorem take_arrived {l : Polled UInt8} {k j c : Nat} (h : c ≤ (l.arrived k).length) (hk : k ≤ j) :
    (l.arrived j).take c = (l.arrived k).take c := by
  obtain ⟨rest, hrest⟩ := l.arrived_mono hk
  rw [← hrest, List.take_append_of_le_length h]

theorem pollStatus_success_iff {line : Polled UInt8} {size : Nat} (hsize : 0 < size) :
    pollStatus line size = .success ↔ size ≤ (line.arrived 1).length := by
  have hgot : ((line.read size).1.length = size) ↔ size ≤ (line.arrived 1).length := by
    rw [Polled.read, List.length_take]
    omega
  rw [← hgot, pollStatus]
  by_cases hnone : line.arrived 1 = []
  · have hzero : (line.read size).1 = [] := by simp [Polled.read, hnone]
    simp [linuxSerialPollRead, hnone, hzero]
    omega
  · have hcall : ¬((line.read size).1.length : Int) < 0 := by omega
    simp only [linuxSerialPollRead, Serial.linuxSerialRead, hnone, if_false, Int.zero_lt_one, and_self,
      if_true, hcall]
    split
    · rename_i hne
      exact iff_of_false (by simp) fun heq => hne (by rw [heq])
    · rename_i heq
      exact iff_of_true (by simp) (Int.ofNat_inj.1 (not_not.1 heq))

theorem transport_eq {s : Io} {k c n : Nat} (hbuf : c + n ≤ s.buf.length)
    (hc : c ≤ (s.line.arrived k).length) :
    (s.got k c).transport c n = some (pollStatus (s.line.after k c) n,
      { s.got k c with
        line := s.line.after (k + 1) (c + n)
        buf := (s.line.arrived (k + 1)).take (c + n) ++
          s.buf.drop ((s.line.arrived (k + 1)).take (c + n)).length }) := by
  have hw : ((s.line.arrived k).take c).length = c := by rw [List.length_take]; omega
  have hall : (s.line.arrived k).take c ++ ((s.line.arrived (k + 1)).drop c).take n =
      (s.line.arrived (k + 1)).take (c + n) := by
    rw [← take_arrived hc (Nat.le_succ k), ← List.take_add]
  have hgot : (s.got k c).buf =
      (s.line.arrived k).take c ++ s.buf.drop ((s.line.arrived k).take c).length := by rw [hw, Io.got]
  have hread : (s.got k c).line.read n = _ := Polled.read_after hc n
  rw [Io.transport, hread, hgot, Buffer.store_front _ hw.symm, Option.map_some, hall]
  · rfl
  · rw [hw, List.length_take]
    omega

/-- A read that finds all that it asks for. -/
theorem transport_got {s : Io} {k c n : Nat} (hn : 0 < n) (hbuf : c + n ≤ s.buf.length)
    (hc : c ≤ (s.line.arrived k).length) (h : c + n ≤ (s.line.arrived (k + 1)).length) :
    ∃ s', (s.got k c).transport c n = some (.success, s') ∧
      s'.recordLastResponse c n = s.got (k + 1) (c + n) := by
  have hstatus : pollStatus (s.line.after k c) n = .success := by
    rw [pollStatus_success_iff hn, Polled.arrived_after hc, List.length_drop]
    omega
  refine ⟨_, by rw [transport_eq hbuf hc, hstatus], ?_⟩
  have hlen : ((s.line.arrived (k + 1)).take (c + n)).length = c + n := List.length_take_of_le h
  have hold := take_arrived hc (Nat.le_succ k)
  have hpiece : (((s.line.arrived (k + 1)).take (c + n) ++ s.buf.drop (c + n)).drop c).take n =
      ((s.line.arrived (k + 1)).drop c).take n := by
    rw [List.drop_append_of_le_length (by omega), List.drop_take, Nat.add_sub_cancel_left,
      List.take_left' (List.length_take_of_le (by rw [List.length_drop]; omega))]
  simp only [Io.recordLastResponse, Io.got, hlen]
  rw [hpiece, take_append_take, ← hold, List.append_assoc, ← List.take_add]

/-- A read that finds less. -/
theorem transport_short {s : Io} {k c n : Nat} (hn : 0 < n) (hbuf : c + n ≤ s.buf.length)
    (hc : c ≤ (s.line.arrived k).length) (h : (s.line.arrived (k + 1)).length < c + n) :
    ∃ ret s', (s.got k c).transport c n = some (ret, s') ∧ ret ≠ .success := by
  refine ⟨_, _, transport_eq hbuf hc, fun hstatus => ?_⟩
  rw [pollStatus_success_iff hn, Polled.arrived_after hc, List.length_drop] at hstatus
  omega

@[simp] theorem got_zero (s : Io) (h : s.lastResponse.length ≤ rxBufSize) : s.got 0 0 = s := by
  simp [Io.got, List.take_of_length_le h]

/-- Reading bytes one by one goes well as long as each has come by its read. -/
theorem readEach_got {s : Io} {c n : Nat} (hbuf : c + n ≤ s.buf.length)
    (hc : c ≤ (s.line.arrived c).length) :
    (∀ j < n, c + j < (s.line.arrived (c + j + 1)).length) ∧
        readEach c n (s.got c c) = some (.success, s.got (c + n) (c + n)) ∨
      (∃ j < n, (s.line.arrived (c + j + 1)).length ≤ c + j) ∧
        ∃ ret s', readEach c n (s.got c c) = some (ret, s') ∧ ret ≠ .success := by
  induction n generalizing c with
  | zero => exact Or.inl ⟨fun j hj => absurd hj (Nat.not_lt_zero j), rfl⟩
  | succ n ih =>
    rcases Nat.lt_or_ge c (s.line.arrived (c + 1)).length with hnow | hnow
    · obtain ⟨s', htransport, hrecord⟩ := transport_got Nat.one_pos (by omega) hc hnow
      have hstep : readEach c (n + 1) (s.got c c) = readEach (c + 1) n (s.got (c + 1) (c + 1)) := by
        rw [readEach, htransport, ← hrecord]
        simp
      have hshift : ∀ j, c + 1 + j = c + (j + 1) := fun j => by omega
      rcases ih (by omega) hnow with ⟨hall, heq⟩ | ⟨⟨j, hj, hlate⟩, hfail⟩
      · refine Or.inl ⟨fun j hj => ?_, by rw [hstep, heq, hshift]⟩
        cases j with
        | zero => exact hnow
        | succ j =>
          rw [← hshift]
          exact hall j (Nat.lt_of_succ_lt_succ hj)
      · refine Or.inr ⟨⟨j + 1, by omega, ?_⟩, by rw [hstep]; exact hfail⟩
        rw [← hshift]
        exact hlate
    · obtain ⟨ret, s', htransport, hne⟩ :=
        transport_short Nat.one_pos (by omega) hc (Nat.lt_succ_of_le hnow)
      refine Or.inr ⟨⟨0, Nat.succ_pos n, hnow⟩, ret, s', ?_, hne⟩
      rw [readEach, htransport]
      simp [hne]

/-- Each of the first six bytes has come by the read that takes it. -/
def InTime (line : Polled UInt8) : Prop := ∀ k < 6, k < (line.arrived (k + 1)).length

theorem getD_of_starts {xs ys : Bytes} (h : xs <+: ys) {i : Nat} (hi : i < xs.length) :
    ys.getD i 0 = xs.getD i 0 := by
  obtain ⟨rest, rfl⟩ := h
  rw [List.getD_append _ _ _ _ hi]

/-- A cell that has been received to. -/
theorem getD_got {s : Io} {k j c i : Nat} (hk : k ≤ j) (hc : c ≤ (s.line.arrived k).length)
    (hi : i < c) : (s.got k c).buf.getD i 0 = (s.line.arrived j).getD i 0 := by
  have htake : i < ((s.line.arrived k).take c).length := by rw [List.length_take]; omega
  rw [Io.got, List.getD_append _ _ _ _ htake, ← take_arrived hc hk]
  exact (getD_of_starts (List.take_prefix c _) (by rw [take_arrived hc hk]; exact htake)).symm

theorem Packet.header_of_starts {p : Packet} {whole : Bytes} (h : p.bytes <+: whole) :
    whole.getD 0 0 = 0xAA ∧ whole.getD 1 0 = 0x55 ∧
      (whole.getD 5 0).toNat = p.payload.length := by
  have hlen := p.length_bytes
  refine ⟨?_, ?_, ?_⟩
  · exact getD_of_starts h (by omega)
  · exact getD_of_starts h (by omega)
  · rw [getD_of_starts h (by omega)]
    exact p.getD_length

/-- A packet that the line begins with and whose header and length come in time. -/
def Comes (line : Polled UInt8) (p : Packet) : Prop :=
  InTime line ∧ p.bytes <+: line.arrived 7

/-- The two ways in which a part of `RecvPacket` ends. -/
def Decided (s : Io) (r : Option (Except Status UInt8 × Io)) : Prop :=
  (∃ p, Comes s.line p ∧ r = some (.ok (UInt8.ofNat p.payload.length), s.got 7 p.bytes.length)) ∨
  (∀ p, ¬Comes s.line p) ∧ ∃ e s', r = some (.error e, s')

theorem recvRest_decided {s : Io} {n : UInt8} (hbuf : s.buf.length = rxBufSize)
    (hin : InTime s.line)
    (hheader : (s.line.arrived 7).getD 0 0 = 0xAA ∧ (s.line.arrived 7).getD 1 0 = 0x55)
    (hn : (s.line.arrived 7).getD 5 0 = n) (hle : n.toNat ≤ nMax) :
    Decided s (recvRest (s.got 6 6) n) := by
  have hsize : s.buf.length = 208 := hbuf
  have hsix : 6 ≤ (s.line.arrived 6).length := hin 5 (by omega)
  rw [nMax] at hle
  rcases Nat.lt_or_ge (s.line.arrived 7).length (6 + (n.toNat + 2)) with hshort | hwhole
  · obtain ⟨ret, s', htransport, hne⟩ := transport_short (Nat.succ_pos _) (by omega) hsix hshort
    refine Or.inr ⟨fun p ⟨_, hp⟩ => ?_, .errTimeout, s', ?_⟩
    · have hlen := hp.length_le
      obtain ⟨_, _, hlength⟩ := Packet.header_of_starts hp
      rw [hn] at hlength
      rw [p.length_bytes] at hlen
      omega
    · rw [recvRest, htransport, Option.map_some]
      dsimp only
      rw [if_pos hne]
  · obtain ⟨s', htransport, hrecord⟩ := transport_got (Nat.succ_pos _) (by omega) hsix hwhole
    have hlen : ((s.line.arrived 7).take (8 + n.toNat)).length = 8 + n.toNat :=
      List.length_take_of_le (by omega)
    have hsum : 6 + (n.toNat + 2) = 8 + n.toNat := by omega
    have hbuf' : (s.got 7 (8 + n.toNat)).buf =
        (s.line.arrived 7).take (8 + n.toNat) ++ s.buf.drop (8 + n.toNat) := rfl
    rw [recvRest, htransport, Option.map_some]
    dsimp only
    rw [if_neg (by simp), hrecord, hsum, hbuf', List.drop_append_of_le_length (by omega),
      List.take_append_of_le_length (by rw [List.length_drop]; omega),
      readU16LE_append_left (by omega)]
    split
    · rename_i hcrc
      refine Or.inr ⟨fun p ⟨_, hp⟩ => hcrc ?_, .errCrc, _, rfl⟩
      have hnat : p.payload.length = n.toNat := by
        rw [← (Packet.header_of_starts hp).2.2, hn]
      rw [← hnat, p.take_of_starts hp]
      exact p.checksum
    · rename_i hcrc
      have hcell : ∀ i < 6, ((s.line.arrived 7).take (8 + n.toNat)).getD i 0 =
          (s.line.arrived 7).getD i 0 := fun i hi =>
        (getD_of_starts (List.take_prefix _ _) (by omega)).symm
      obtain ⟨p, hp, hbytes⟩ := packet_of_bytes hle hlen
        ⟨(hcell 0 (by omega)).trans hheader.1, (hcell 1 (by omega)).trans hheader.2⟩
        (by rw [hcell 5 (by omega), hn]) (not_not.1 hcrc)
      refine Or.inl ⟨p, ⟨hin, ?_⟩, ?_⟩
      · rw [hbytes]
        exact List.take_prefix _ _
      · rw [hp, p.length_bytes, hp, UInt8.ofNat_toNat]

theorem recvFields_decided {s : Io} (hbuf : s.buf.length = rxBufSize)
    (hfirst : ∀ k < 2, k < (s.line.arrived (k + 1)).length)
    (hheader : (s.line.arrived 7).getD 0 0 = 0xAA ∧ (s.line.arrived 7).getD 1 0 = 0x55) :
    Decided s (recvFields (s.got 2 2)) := by
  have hsize : s.buf.length = 208 := hbuf
  rcases readEach_got (s := s) (c := 2) (n := 4) (by omega) (hfirst 1 (by omega)) with
    ⟨hsecond, hread⟩ | ⟨⟨j, hj, hlate⟩, ret, s', hread, hne⟩
  · have hin : InTime s.line := fun k hk => by
      rcases Nat.lt_or_ge k 2 with hk2 | hk2
      · exact hfirst k hk2
      · have hmid := hsecond (k - 2) (by omega)
        rwa [Nat.add_sub_cancel' hk2] at hmid
    have hcell : (s.got 6 6).buf.getD 5 0 = (s.line.arrived 7).getD 5 0 :=
      getD_got (by omega) (hin 5 (by omega)) (by omega)
    rw [recvFields, hread, Option.bind_some]
    dsimp only
    rw [if_neg (by simp), hcell]
    split
    · rename_i hlong
      refine Or.inr ⟨fun p ⟨_, hp⟩ => ?_, .errPacket, _, rfl⟩
      rw [(Packet.header_of_starts hp).2.2] at hlong
      exact Nat.not_lt.2 p.fits hlong
    · rename_i hfits
      exact recvRest_decided hbuf hin hheader rfl (Nat.not_lt.1 hfits)
  · refine Or.inr ⟨fun p ⟨hin, _⟩ => ?_, .errTimeout, s', ?_⟩
    · exact Nat.not_lt.2 hlate (hin (2 + j) (by omega))
    · rw [recvFields, hread, Option.bind_some]
      dsimp only
      rw [if_pos hne]

/-- **What `RecvPacket` accepts.**  It stays inside its buffer.  It succeeds exactly if the bytes that
come by its last read begin with a packet whose header and length come in time, and then it has read
that packet and nothing else. -/
theorem recvPacket_decided {s : Io} (hbuf : s.buf.length = rxBufSize)
    (hlast : s.lastResponse.length ≤ rxBufSize) : Decided s (recvPacket true s) := by
  have hsize : s.buf.length = 208 := hbuf
  rw [recvPacket, if_neg (by simp)]
  rcases readEach_got (s := s) (c := 0) (n := 2) (by omega) (Nat.zero_le _) with
    ⟨hfirst, hread⟩ | ⟨⟨j, hj, hlate⟩, ret, s', hread, hne⟩
  · rw [got_zero s hlast] at hread
    have htwo : 2 ≤ (s.line.arrived 2).length := hfirst 1 (by omega)
    rw [hread, Option.bind_some]
    dsimp only
    rw [if_neg (by simp), getD_got (j := 7) (by omega) htwo (by omega),
      getD_got (j := 7) (by omega) htwo (by omega)]
    split
    · rename_i hbad
      refine Or.inr ⟨fun p ⟨_, hp⟩ => ?_, .errHeader, _, rfl⟩
      obtain ⟨h0, h1, -⟩ := Packet.header_of_starts hp
      exact hbad.elim (fun hne => hne h0) fun hne => hne h1
    · rename_i hgood
      rw [not_or, not_not, not_not] at hgood
      exact recvFields_decided hbuf (fun k hk => by simpa using hfirst k hk) hgood
  · rw [got_zero s hlast] at hread
    refine Or.inr ⟨fun p ⟨hin, _⟩ => ?_, .errTimeout, s', ?_⟩
    · exact Nat.not_lt.2 hlate (hin (0 + j) (by omega))
    · rw [hread, Option.bind_some]
      dsimp only
      rw [if_pos hne]

theorem recvPacket_comes {s : Io} {p : Packet} (hbuf : s.buf.length = rxBufSize)
    (hlast : s.lastResponse.length ≤ rxBufSize) (h : Comes s.line p) :
    recvPacket true s = some (.ok (UInt8.ofNat p.payload.length), s.got 7 p.bytes.length) := by
  rcases recvPacket_decided hbuf hlast with ⟨q, hq, heq⟩ | ⟨hnone, -⟩
  · have hlen : q.payload.length = p.payload.length := by
      rw [← (Packet.header_of_starts hq.2).2.2, (Packet.header_of_starts h.2).2.2]
    rw [heq, hlen, q.length_bytes, p.length_bytes, hlen]
  · exact absurd h (hnone p)

/-- What a success says, whatever is on the line. -/
theorem recvPacket_ok {s s' : Io} {n : UInt8} (hbuf : s.buf.length = rxBufSize)
    (hlast : s.lastResponse.length ≤ rxBufSize) (h : recvPacket true s = some (.ok n, s')) :
    ∃ p, Comes s.line p ∧ p.payload.length = n.toNat ∧ s' = s.got 7 p.bytes.length := by
  rcases recvPacket_decided hbuf hlast with ⟨p, hp, heq⟩ | ⟨-, e, t, heq⟩
  · rw [h, Option.some.injEq, Prod.mk.injEq, Except.ok.injEq] at heq
    exact ⟨p, hp, by rw [heq.1, p.toNat_length], heq.2⟩
  · rw [h] at heq
    simp at heq

theorem buf_got {s : Io} {p : Packet} (h : p.bytes <+: s.line.arrived 7) :
    (s.got 7 p.bytes.length).buf = p.bytes ++ s.buf.drop p.bytes.length := by
  rw [Io.got, ← List.prefix_iff_eq_take.1 h]

theorem all_got {s : Io} {p : Packet} (h : p.bytes <+: s.line.arrived 7) :
    (s.got 7 p.bytes.length).line.all = s.line.all.drop p.bytes.length :=
  Polled.all_after h.length_le

/-- The receiver has returned `CFE_SUCCESS` with this packet, and what is still to be read is
`rest`. -/
def Accepted (r : Option (Except Status UInt8 × Io)) (msgType msgId : UInt8)
    (payload rest : Bytes) : Prop :=
  ∃ n s', r = some (.ok n, s') ∧ n.toNat = payload.length ∧ s'.buf.getD 3 0 = msgType ∧
    s'.buf.getD 4 0 = msgId ∧ (s'.buf.drop 6).take n.toNat = payload ∧ s'.line.all = rest

theorem accepted_of_comes {s : Io} {p : Packet} {rest : Bytes} (hbuf : s.buf.length = rxBufSize)
    (hlast : s.lastResponse.length ≤ rxBufSize) (h : Comes s.line p)
    (hall : s.line.all = p.bytes ++ rest) :
    Accepted (recvPacket true s) p.msgType p.msgId p.payload rest := by
  refine ⟨_, _, recvPacket_comes hbuf hlast h, p.toNat_length, ?_, ?_, ?_, ?_⟩
  · rw [buf_got h.2]
    rfl
  · rw [buf_got h.2]
    rfl
  · rw [buf_got h.2, p.toNat_length]
    exact (congrArg (List.take p.payload.length) (List.append_assoc p.payload _ _)).trans
      (List.take_left' rfl)
  · rw [all_got h.2, hall, List.drop_left]

theorem recvPacket_checked (registered : Bool) {t : Io} (hbuf : t.buf.length = rxBufSize)
    (hlast : t.lastResponse.length ≤ rxBufSize) :
    ∃ r t', recvPacket registered t = some (r, t') ∧ ∀ n, r = .ok n →
      t'.buf.take (8 + n.toNat) = t.line.all.take (8 + n.toNat) ∧
      calcCRC16 ((t'.buf.drop 2).take (4 + n.toNat)) = readU16LE t'.buf (6 + n.toNat) := by
  cases registered with
  | false => exact ⟨.error .errTimeout, t, rfl, fun n hn => by simp at hn⟩
  | true =>
    rcases recvPacket_decided hbuf hlast with ⟨p, hp, heq⟩ | ⟨-, e, t', heq⟩
    · refine ⟨_, _, heq, fun n hn => ?_⟩
      have hlen : p.payload.length = n.toNat := by rw [← Except.ok.inj hn, p.toNat_length]
      have hall : p.bytes <+: t.line.all := hp.2.trans (t.line.arrived_starts_all 7)
      have hsize := p.length_bytes
      rw [buf_got hp.2, ← hlen, p.take_of_starts hall, List.take_left' p.length_bytes,
        readU16LE_append_left (by omega), ← p.checksum,
        List.drop_append_of_le_length (by omega),
        List.take_append_of_le_length (by rw [List.length_drop]; omega)]
      exact ⟨rfl, rfl⟩
    · exact ⟨_, _, heq, fun n hn => by simp at hn⟩

/-- **Round trip and noise.**  What `SendPacket` transmits, after noise in which no packet begins, is
accepted exactly if there is no noise and the bytes are there when they are read: each byte of header
and fields by its read, payload and checksum all of them by the one read that takes them.  For every
input the receiver stays inside its buffer, and it succeeds with matching checksums only. -/
theorem packet_accepted_iff (msgType msgId : UInt8) {payload txBuf sent noise rest : Bytes}
    {arg : Option Bytes} {write : Call} {s : Io} (hfits : payload.length ≤ nMax)
    (harg : arg = some payload ∨ payload = [] ∧ arg = none) (htx : txBuf.length = txBufSize)
    (hsent : sendPacket true msgType msgId (UInt8.ofNat payload.length) arg txBuf write =
      some (.success, sent))
    (hbuf : s.buf.length = rxBufSize) (hlast : s.lastResponse.length ≤ rxBufSize)
    (hall : s.line.all = noise ++ (sent ++ rest))
    (hnoise : ∀ i < noise.length, ∀ p : Packet, ¬p.bytes <+: s.line.all.drop i) :
    (Accepted (recvPacket true s) msgType msgId payload rest ↔
      noise = [] ∧ InTime s.line ∧ sent.length ≤ (s.line.arrived 7).length) ∧
    ∀ (registered : Bool) (t : Io), t.buf.length = rxBufSize → t.lastResponse.length ≤ rxBufSize →
      ∃ r t', recvPacket registered t = some (r, t') ∧ ∀ n, r = .ok n →
        t'.buf.take (8 + n.toNat) = t.line.all.take (8 + n.toNat) ∧
        calcCRC16 ((t'.buf.drop 2).take (4 + n.toNat)) = readU16LE t'.buf (6 + n.toNat) := by
  refine ⟨?_, fun registered t hbuf hlast => recvPacket_checked registered hbuf hlast⟩
  let p : Packet := ⟨pktVersion, msgType, msgId, payload, hfits⟩
  have hp : sent = p.bytes := by
    rw [sendPacket, packetBytes_eq msgType msgId hfits htx harg, Option.map_some] at hsent
    simp only [Bool.not_true, Bool.false_eq_true, if_false] at hsent
    split at hsent
    · simp at hsent
    · exact (Prod.mk.inj (Option.some.inj hsent)).2.symm
  rw [hp] at hall ⊢
  constructor
  · rintro ⟨n, s', heq, hn, -, -, -, hrest⟩
    obtain ⟨q, hq, hlen, rfl⟩ := recvPacket_ok hbuf hlast heq
    have hqall : q.bytes <+: s.line.all := hq.2.trans (s.line.arrived_starts_all 7)
    obtain rfl : noise = [] := by
      cases noise with
      | nil => rfl
      | cons x xs => exact absurd hqall (hnoise 0 (by simp) q)
    refine ⟨rfl, hq.1, Nat.le_trans (Nat.le_of_eq ?_) hq.2.length_le⟩
    rw [p.length_bytes, q.length_bytes, hlen, hn]
  · rintro ⟨rfl, hin, hle⟩
    have hstarts : p.bytes <+: s.line.all := by
      rw [hall]
      exact List.prefix_append _ _
    exact accepted_of_comes hbuf hlast
      ⟨hin, List.prefix_of_prefix_length_le hstarts (s.line.arrived_starts_all 7) hle⟩ hall

/-- A response to a ping. -/
def pong : Packet := ⟨pktVersion, 1, 1, List.replicate 8 0, by decide⟩

/-- These bytes have come. -/
def came (bytes : Bytes) : Io := ⟨⟨bytes, []⟩, [], List.replicate rxBufSize 0⟩

theorem sent_pong : sendPacket true 1 1 (UInt8.ofNat pong.payload.length) (some pong.payload)
    (List.replicate txBufSize 0) ⟨16, false⟩ = some (.success, pong.bytes) := by
  have htx : (List.replicate txBufSize (0 : UInt8)).length = txBufSize := List.length_replicate
  have hwrite : linuxSerialWrite ⟨16, false⟩ pong.bytes.length = .success := by
    rw [pong.length_bytes]
    decide
  rw [sendPacket, packetBytes_eq 1 1 pong.fits htx (Or.inl rfl), Option.map_some]
  refine congrArg some ?_
  rw [if_neg (by simp)]
  exact if_neg (not_not.2 hwrite)

theorem inTime_came {bytes : Bytes} (h : 6 ≤ bytes.length) : InTime (came bytes).line := by
  intro k hk
  simp [came, Polled.arrived]
  omega

theorem packet_accepted_pong :
    Accepted (recvPacket true (came pong.bytes)) 1 1 pong.payload [] := by
  have hall : (came pong.bytes).line.all = [] ++ (pong.bytes ++ []) := by simp [came, Polled.all]
  exact (packet_accepted_iff 1 1 pong.fits (Or.inl rfl) List.length_replicate sent_pong
    List.length_replicate (Nat.zero_le _) hall (by simp)).1.2
    ⟨rfl, inTime_came (by rw [pong.length_bytes]; omega), by simp [came, Polled.arrived]⟩

/-- The response after one byte of noise is all there, and is not found. -/
theorem noise_not_skipped : ∃ e s',
    sendPacket true 1 1 8 (some (List.replicate 8 0)) (List.replicate txBufSize 0) ⟨16, false⟩ =
      some (.success, pong.bytes) ∧
    (∀ p : Packet, ¬p.bytes <+: 0 :: pong.bytes) ∧
    recvPacket true (came (0 :: pong.bytes)) = some (.error e, s') := by
  have hnone : ∀ p : Packet, ¬p.bytes <+: 0 :: pong.bytes := fun p hp =>
    absurd (Packet.header_of_starts hp).1 (by simp)
  have hlast : (came (0 :: pong.bytes)).lastResponse.length ≤ rxBufSize := Nat.zero_le _
  rcases recvPacket_decided (s := came (0 :: pong.bytes)) List.length_replicate hlast with
    ⟨p, hp, -⟩ | ⟨-, e, s', heq⟩
  · exact absurd (by simpa [came, Polled.arrived] using hp.2) (hnone p)
  · exact ⟨e, s', sent_pong, hnone, heq⟩

end Thrust
end FlightApps
