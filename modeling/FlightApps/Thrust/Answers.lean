import FlightApps.Thrust.Commands

/-!
# Answers of the module

What a command accepts as an answer (`Request.Answered`), and what the exchange for it does to the
device, whatever comes on the line (`Exchanged`): the packet that is sent goes to `write`, an answer is
the packet that the line begins with, and what has been read is gone.
-/

set_option autoImplicit false

namespace FlightApps
namespace Thrust

open Serial (linuxSerialWrite Call)

/-! ## Words -/

theorem packU16LE_eq (v : UInt16) : packU16LE v = Layout.u16.bytes v := by
  show _ = [UInt8.ofNat v.toNat, UInt8.ofNat (v.toNat / 256)]
  simp only [packU16LE, UInt16.toUInt8_and, UInt16.toUInt8_ofNat, Words.and_ff, List.cons.injEq,
    and_true]
  constructor <;> refine UInt8.toNat_inj.1 ?_ <;> simp [Nat.shiftRight_eq_div_pow]

theorem packU32LE_eq (v : UInt32) : packU32LE v = Layout.u32.bytes v := by
  show _ = [UInt8.ofNat v.toNat, UInt8.ofNat (v.toNat / 256), UInt8.ofNat (v.toNat / 256 / 256),
    UInt8.ofNat (v.toNat / 256 / 256 / 256)]
  simp only [packU32LE, UInt32.toUInt8_and, UInt32.toUInt8_ofNat, Words.and_ff, List.cons.injEq,
    and_true]
  refine ⟨?_, ?_, ?_, ?_⟩ <;> refine UInt8.toNat_inj.1 ?_ <;>
    simp [Nat.shiftRight_eq_div_pow, Nat.div_div_eq_div_mul]

/-- What the arguments of a command are packed to is what came with the message. -/
theorem pack_arm {bs : Bytes} (h : bs.length = 4) :
    packU16LE (armPayload.read bs).1 ++ packU16LE (armPayload.read bs).2 = bs := by
  rw [packU16LE_eq, packU16LE_eq]
  exact (Layout.full_u16.prod Layout.full_u16) bs h

theorem pack_mode {bs : Bytes} (h : bs.length = 4) : packU32LE (Layout.u32.read bs) = bs := by
  rw [packU32LE_eq]
  exact Layout.full_u32 bs h

theorem pack_mainFire {bs : Bytes} (h : bs.length = 8) :
    packU32LE (mainFirePayload.read bs).1 ++ (packU16LE (mainFirePayload.read bs).2.1 ++
      packU16LE (mainFirePayload.read bs).2.2) = bs := by
  rw [packU16LE_eq, packU16LE_eq, packU32LE_eq]
  exact (Layout.full_u32.prod (Layout.full_u16.prod Layout.full_u16)) bs h

theorem pack_cgPulse {bs : Bytes} (h : bs.length = 8) :
    packU16LE (cgPulsePayload.read bs).1 ++ (packU32LE (cgPulsePayload.read bs).2.1 ++
      packU16LE (cgPulsePayload.read bs).2.2) = bs := by
  rw [packU16LE_eq, packU16LE_eq, packU32LE_eq]
  exact (Layout.full_u16.prod (Layout.full_u32.prod Layout.full_u16)) bs h

/-! ## What is read is gone -/

theorem all_read (line : Polled UInt8) (n : Nat) : (line.read n).2.all <:+ line.all := by
  refine ⟨(line.arrived 1).take n, ?_⟩
  conv_rhs => rw [← line.arrived_append_rest 1, ← List.take_append_drop n (line.arrived 1)]
  rw [List.append_assoc]
  rfl

theorem Io.transport_all {s s' : Io} {off size : Nat} {ret : Serial.Status}
    (h : s.transport off size = some (ret, s')) : s'.line.all <:+ s.line.all := by
  rw [Io.transport, Option.map_eq_some_iff] at h
  obtain ⟨buf, -, heq⟩ := h
  rw [← (Prod.mk.inj heq).2]
  exact all_read s.line size

theorem readEach_all {n i : Nat} {s s' : Io} {ret : Serial.Status}
    (h : readEach i n s = some (ret, s')) : s'.line.all <:+ s.line.all := by
  induction n generalizing i s with
  | zero =>
    rw [readEach, Option.some.injEq, Prod.mk.injEq] at h
    rw [h.2]
  | succ n ih =>
    rw [readEach, Option.bind_eq_some_iff] at h
    obtain ⟨⟨ret1, s1⟩, htransport, h⟩ := h
    have h1 : s1.line.all <:+ s.line.all := Io.transport_all htransport
    dsimp only at h
    split at h
    · rw [Option.some.injEq, Prod.mk.injEq] at h
      rwa [← h.2]
    · exact (ih h).trans h1

/-- Whatever `RecvPacket` returns, what is still to be read is an end of what was to be read; and no
error is called a success. -/
theorem recvPacket_all {s s' : Io} {ret : Except Status UInt8}
    (h : recvPacket true s = some (ret, s')) :
    s'.line.all <:+ s.line.all ∧ ret ≠ .error .success := by
  rw [recvPacket, if_neg (by simp), Option.bind_eq_some_iff] at h
  obtain ⟨⟨ret1, s1⟩, hread1, h⟩ := h
  have h1 : s1.line.all <:+ s.line.all := readEach_all hread1
  dsimp only at h
  split at h
  · obtain ⟨rfl, rfl⟩ := Prod.mk.inj (Option.some.inj h)
    exact ⟨h1, by simp⟩
  split at h
  · obtain ⟨rfl, rfl⟩ := Prod.mk.inj (Option.some.inj h)
    exact ⟨h1, by simp⟩
  rw [recvFields, Option.bind_eq_some_iff] at h
  obtain ⟨⟨ret2, s2⟩, hread2, h⟩ := h
  have h2 : s2.line.all <:+ s.line.all := (readEach_all hread2).trans h1
  dsimp only at h
  split at h
  · obtain ⟨rfl, rfl⟩ := Prod.mk.inj (Option.some.inj h)
    exact ⟨h2, by simp⟩
  split at h
  · obtain ⟨rfl, rfl⟩ := Prod.mk.inj (Option.some.inj h)
    exact ⟨h2, by simp⟩
  rw [recvRest, Option.map_eq_some_iff] at h
  obtain ⟨⟨ret3, s3⟩, htransport, h⟩ := h
  have h3 : s3.line.all <:+ s.line.all := (Io.transport_all htransport).trans h2
  dsimp only at h
  split at h
  · obtain ⟨rfl, rfl⟩ := Prod.mk.inj h
    exact ⟨h3, by simp⟩
  split at h
  · obtain ⟨rfl, rfl⟩ := Prod.mk.inj h
    exact ⟨h3, by simp⟩
  · obtain ⟨rfl, rfl⟩ := Prod.mk.inj h
    exact ⟨h3, by simp⟩

/-! ## Transactions -/

/-- What a command sends to the module, what the payload of the answer has to be like, and what the
app makes of it. -/
structure Request where
  msgId : UInt8
  payload : Bytes
  replyLen : UInt8
  good : Bytes → Bool
  take : Bytes → AppData → AppData
  fits : payload.length ≤ nMax

/-- The packet that is sent. -/
def Request.packet (r : Request) : Packet := ⟨pktVersion, msgTypeTC, r.msgId, r.payload, r.fits⟩

/-- `write` takes the packet. -/
def Setting.Writes (e : Setting) (r : Request) : Prop :=
  linuxSerialWrite e.write r.packet.bytes.length = .success

/-- A packet is one of telemetry with the identifier and the length that belong to a request. -/
def Request.Matches (r : Request) (p : Packet) : Prop :=
  p.msgType = msgTypeTM ∧ p.msgId = r.msgId ∧ p.payload.length = r.replyLen.toNat

/-- What the exchange for a request does to the device: there is an answer, or there is none. -/
inductive Exchanged (good : Packet → Prop) (e : Setting) (r : Request) (d : Device) (d' : Device) :
    Option Packet → Prop
  | answered (p : Packet) (wire : d'.wire = d.wire ++ [r.packet.bytes]) (writes : e.Writes r)
      (comes : Comes d.line p) (hgood : good p) (line : d'.line = d.line.after 7 p.bytes.length)
      (lastResponse : d'.lastResponse = p.bytes) : Exchanged good e r d d' (some p)
  | unanswered (wire : d'.wire = d.wire ++ [r.packet.bytes]) (all : d'.line.all <:+ d.line.all)
      (silent : ¬e.Writes r → d'.line = d.line)
      (wrong : e.Writes r → ∀ p, Comes d.line p → ¬good p ∧ d'.line = d.line.after 7 p.bytes.length) :
      Exchanged good e r d d' none

theorem Packet.ofNat_length_inj (p : Packet) (n : UInt8) :
    UInt8.ofNat p.payload.length = n ↔ p.payload.length = n.toNat := by
  rw [← UInt8.toNat_inj, p.toNat_length]

theorem validatePacketMeta_success_iff {p : Packet} {r : Request} (rest : Bytes) :
    validatePacketMeta (p.bytes ++ rest) (UInt8.ofNat p.payload.length) msgTypeTM r.msgId
      r.replyLen = .success ↔ r.Matches p := by
  have htype : (p.bytes ++ rest).getD 3 0 = p.msgType := rfl
  have hid : (p.bytes ++ rest).getD 4 0 = p.msgId := rfl
  rw [validatePacketMeta, htype, hid, Request.Matches, ← p.ofNat_length_inj]
  by_cases hmeta : p.msgType = msgTypeTM ∧ p.msgId = r.msgId ∧
      UInt8.ofNat p.payload.length = r.replyLen
  · simp [hmeta]
  · rw [if_pos (by tauto)]
    simp [hmeta]

theorem Packet.bytes_inj {p q : Packet} (h : p.bytes = q.bytes) : p = q := by
  have hlen : p.payload.length = q.payload.length := by
    have hbytes := congrArg List.length h
    rw [p.length_bytes, q.length_bytes] at hbytes
    omega
  obtain ⟨version, msgType, msgId, payload, fits⟩ := p
  obtain ⟨version', msgType', msgId', payload', fits'⟩ := q
  simp only [Packet.bytes, Packet.front, Packet.body, List.cons_append, List.cons.injEq, true_and] at h
  obtain ⟨rfl, rfl, rfl, -, hpayload⟩ := h
  obtain rfl := (List.append_inj hpayload hlen).1
  rfl

theorem Comes.unique {line : Polled UInt8} {p q : Packet} (hp : Comes line p) (hq : Comes line q) :
    p = q := by
  have hlen : q.payload.length = p.payload.length := by
    rw [← (Packet.header_of_starts hq.2).2.2, (Packet.header_of_starts hp.2).2.2]
  refine Packet.bytes_inj ((List.prefix_of_prefix_length_le hp.2 hq.2 ?_).eq_of_length ?_) <;>
    rw [p.length_bytes, q.length_bytes, hlen]

/-- The whole of a last response is kept. -/
theorem lastResponse_got {s : Io} {p : Packet} (h : p.bytes <+: s.line.arrived 7)
    (hempty : s.lastResponse = []) : (s.got 7 p.bytes.length).lastResponse = p.bytes := by
  rw [Io.got, hempty, List.nil_append, ← List.prefix_iff_eq_take.1 h,
    List.take_of_length_le p.length_bytes_le]

/-- Receiving for a request: the packet that comes is its answer if it is one for the request. -/
theorem receive_spec (r : Request) (e : Setting) (d : Device) :
    ∃ ret line lastResponse, receive r.msgId r.replyLen e.rxBuf { d with lastResponse := [] } =
        some (ret, { d with line, lastResponse }) ∧
      ((∃ p, Comes d.line p ∧ r.Matches p ∧ ret = .ok (p.bytes ++ e.rxBuf.drop p.bytes.length) ∧
          line = d.line.after 7 p.bytes.length ∧ lastResponse = p.bytes) ∨
        (∃ status, status ≠ .success ∧ ret = .error status) ∧ line.all <:+ d.line.all ∧
          ∀ p, Comes d.line p → ¬r.Matches p ∧ line = d.line.after 7 p.bytes.length) := by
  let s : Io := ⟨d.line, [], e.rxBuf⟩
  have hlast : s.lastResponse.length ≤ rxBufSize := Nat.zero_le _
  rw [receive]
  rcases recvPacket_decided (s := s) e.length_rxBuf hlast with ⟨p, hp, heq⟩ | ⟨hnone, err, s', heq⟩
  · have hbuf : (s.got 7 p.bytes.length).buf = p.bytes ++ e.rxBuf.drop p.bytes.length := buf_got hp.2
    rw [heq, Option.map_some]
    dsimp only
    rw [hbuf]
    split
    · rename_i hbad
      rw [Ne, validatePacketMeta_success_iff] at hbad
      refine ⟨_, _, _, rfl, .inr ⟨⟨.errPacket, by simp, rfl⟩, (recvPacket_all heq).1, fun q hq => ?_⟩⟩
      rw [hq.unique hp]
      exact ⟨hbad, rfl⟩
    · rename_i hgood
      rw [Ne, not_not, validatePacketMeta_success_iff] at hgood
      exact ⟨_, _, _, rfl, .inl ⟨p, hp, hgood, rfl, rfl, lastResponse_got hp.2 rfl⟩⟩
  · obtain ⟨hall, herr⟩ := recvPacket_all heq
    rw [heq, Option.map_some]
    exact ⟨_, _, _, rfl, .inr ⟨⟨err, fun h => herr (by rw [h]), rfl⟩, hall,
      fun p hp => absurd hp (hnone p)⟩⟩

/-- What a transaction returns is the packet that comes, if it is one for the request. -/
theorem transact_spec (r : Request) {arg : Option Bytes}
    (harg : arg = some r.payload ∨ r.payload = [] ∧ arg = none) (e : Setting) (d : Device) :
    ∃ ret d' reply,
      transact r.msgId (UInt8.ofNat r.payload.length) arg r.replyLen e d = some (ret, d') ∧
      Exchanged r.Matches e r d d' reply ∧
      match reply with
      | some p => ret = .ok (p.bytes ++ e.rxBuf.drop p.bytes.length)
      | none => ∃ status, status ≠ .success ∧ ret = .error status := by
  rw [transact, sendPacket, packetBytes_eq msgTypeTC r.msgId r.fits e.length_txBuf harg,
    Option.map_some, Option.bind_some]
  by_cases hwrites : e.Writes r
  · have hwrite : linuxSerialWrite e.write r.packet.bytes.length = .success := hwrites
    obtain ⟨ret, line, lastResponse, heq, hcases⟩ := receive_spec r e
      { d with wire := d.wire ++ [r.packet.bytes] }
    simp only [Request.packet] at hwrite heq
    simp only [Bool.not_true, Bool.false_eq_true, if_false, hwrite, ne_eq, not_true_eq_false, heq]
    rcases hcases with ⟨p, hp, hmatches, hret, hline, hlast⟩ | ⟨hfail, hall, hwrong⟩
    · exact ⟨_, _, some p, rfl, .answered p rfl hwrites hp hmatches hline hlast, hret⟩
    · exact ⟨_, _, none, rfl, .unanswered rfl hall (absurd hwrites) fun _ => hwrong, hfail⟩
  · have hwrite : ¬linuxSerialWrite e.write r.packet.bytes.length = .success := hwrites
    simp only [Request.packet] at hwrite
    simp only [Bool.not_true, Bool.false_eq_true, if_false, hwrite, ne_eq, not_false_eq_true, if_true,
      reduceCtorEq]
    exact ⟨_, _, none, rfl, .unanswered rfl List.suffix_rfl (fun _ => rfl) fun h => absurd h hwrites,
      .errWrite, by simp, rfl⟩

/-! ## Commands of the device -/

/-- A packet is an answer to a request. -/
def Request.Answered (r : Request) (p : Packet) : Prop := r.Matches p ∧ r.good p.payload = true

/-- The default response in the payload of a packet. -/
def responseOf (payload : Bytes) : DefaultResponse :=
  ⟨readU16LE payload 0, readU16LE payload 2, readU16LE payload 4, readU16LE payload 6⟩

/-- A request that is answered with a default response. -/
def defaultRequest (msgId : UInt8) (payload : Bytes) (succeed : AppData → AppData × Code)
    (fits : payload.length ≤ nMax) : Request where
  msgId := msgId
  payload := payload
  replyLen := nDefaultResp
  good reply := (responseOf reply).resultCode = 0
  take reply d :=
    (succeed (d.postCmdProcess (responseOf reply))).1.count
      (succeed (d.postCmdProcess (responseOf reply))).2
  fits := fits

/-- A request that is answered with data. -/
def dataRequest (msgId replyLen : UInt8) (take : Bytes → AppData → AppData) : Request where
  msgId := msgId
  payload := []
  replyLen := replyLen
  good _ := true
  take := take
  fits := Nat.zero_le _

theorem payload_part (p : Packet) (rest : Bytes) :
    (p.bytes ++ rest).drop 6 = p.payload ++ (packU16LE (calcCRC16 p.body) ++ rest) := by
  rw [Packet.bytes, List.append_assoc]
  rfl

theorem readU16LE_drop (xs : Bytes) (k i : Nat) : readU16LE xs (k + i) = readU16LE (xs.drop k) i := by
  simp only [readU16LE, List.getD_eq_getElem?_getD, List.getElem?_drop, Nat.add_assoc]

theorem defaultResponse_eq {p : Packet} (h : p.payload.length = 8) (rest : Bytes) :
    defaultResponse (p.bytes ++ rest) = responseOf p.payload := by
  have hfield : ∀ i, i + 2 ≤ 8 → readU16LE (p.bytes ++ rest) (6 + i) = readU16LE p.payload i := by
    intro i hi
    rw [readU16LE_drop, payload_part, readU16LE_append_left (by omega)]
  rw [defaultResponse, responseOf, hfield 0 (by omega), hfield 2 (by omega), hfield 4 (by omega),
    hfield 6 (by omega)]

theorem Exchanged.stronger {good good' : Packet → Prop} {e : Setting} {r : Request} {d d' : Device}
    {reply : Option Packet} (h : Exchanged good e r d d' reply) (hgood : ∀ p, good' p → good p)
    (hreply : ∀ p, reply = some p → good p → good' p) : Exchanged good' e r d d' reply := by
  cases h with
  | answered p wire writes comes hp line lastResponse =>
    exact .answered p wire writes comes (hreply p rfl hp) line lastResponse
  | unanswered wire all silent wrong =>
    exact .unanswered wire all silent fun hw p hp => ⟨fun h => (wrong hw p hp).1 (hgood p h),
      (wrong hw p hp).2⟩

theorem Exchanged.good {good : Packet → Prop} {e : Setting} {r : Request} {d d' : Device}
    {p : Packet} (h : Exchanged good e r d d' (some p)) : good p := by
  cases h with
  | answered p _ _ _ hp => exact hp

/-- An answer that says that the command was refused is none. -/
theorem Exchanged.refused {good good' : Packet → Prop} {e : Setting} {r : Request} {d d' : Device}
    {p : Packet} (h : Exchanged good e r d d' (some p)) (hgood : ¬good' p) :
    Exchanged good' e r d d' none := by
  cases h with
  | answered p wire writes comes hp line lastResponse =>
    refine .unanswered wire ?_ (absurd writes) fun _ q hq => ?_
    · rw [line, Polled.all_after comes.2.length_le]
      exact List.drop_suffix _ _
    · rw [hq.unique comes]
      exact ⟨hgood, line⟩

theorem defaultCommand_spec {msgId : UInt8} {payload : Bytes} {succeed : AppData → AppData × Code}
    {fits : payload.length ≤ nMax} {arg : Option Bytes} {n : UInt8}
    (hn : n = UInt8.ofNat payload.length) (harg : arg = some payload ∨ payload = [] ∧ arg = none)
    (old : DefaultResponse) (e : Setting) (d : Device) :
    let r := defaultRequest msgId payload succeed fits
    ∃ status resp d' reply,
      defaultCommand msgId n arg (some old) e d = some (status, resp, d') ∧
      Exchanged r.Answered e r d d' reply ∧
      match reply with
      | some p => status = .success ∧ resp = some (responseOf p.payload)
      | none => status ≠ .success := by
  intro r
  obtain ⟨ret, d', reply, heq, hex, hret⟩ := transact_spec r harg e d
  have heq : transact msgId n arg nDefaultResp e d = some (ret, d') := hn ▸ heq
  rw [defaultCommand, heq, Option.map_some]
  cases reply with
  | none =>
    obtain ⟨status, hne, rfl⟩ := hret
    exact ⟨_, _, _, none, rfl, hex.stronger (fun _ => And.left) (by simp), hne⟩
  | some p =>
    obtain rfl : ret = _ := hret
    have hlen : p.payload.length = 8 := hex.good.2.2
    dsimp only
    rw [defaultResponse_eq hlen]
    by_cases hack : (responseOf p.payload).resultCode = 0
    · rw [if_neg (not_not.2 hack)]
      refine ⟨_, _, _, some p, rfl, hex.stronger (fun _ => And.left) ?_, rfl, rfl⟩
      rintro q ⟨⟩ hq
      exact ⟨hq, decide_eq_true hack⟩
    · rw [if_pos hack]
      exact ⟨_, _, _, none, rfl, hex.refused fun h => hack (of_decide_eq_true h.2), by simp⟩

theorem dataCommand_spec {msgId replyLen : UInt8} {take : Bytes → AppData → AppData} (old : Bytes)
    (e : Setting) (d : Device) :
    let r := dataRequest msgId replyLen take
    ∃ status value d' reply,
      dataCommand msgId replyLen (some old) e d = some (status, value, d') ∧
      Exchanged r.Answered e r d d' reply ∧
      match reply with
      | some p => status = .success ∧ value = some p.payload
      | none => status ≠ .success := by
  intro r
  obtain ⟨ret, d', reply, heq, hex, hret⟩ := transact_spec r (.inr ⟨rfl, rfl⟩) e d
  have heq : transact msgId 0 none replyLen e d = some (ret, d') := heq
  rw [dataCommand, heq, Option.map_some]
  have hex' : Exchanged r.Answered e r d d' reply :=
    hex.stronger (fun _ => And.left) fun _ _ h => ⟨h, rfl⟩
  cases reply with
  | none =>
    obtain ⟨status, hne, rfl⟩ := hret
    exact ⟨_, _, _, none, rfl, hex', hne⟩
  | some p =>
    obtain rfl : ret = _ := hret
    have hlen : p.payload.length = replyLen.toNat := hex.good.2.2
    refine ⟨_, _, _, some p, rfl, hex', rfl, ?_⟩
    rw [Option.map_some, payload_part, ← hlen, List.take_left' rfl]

end Thrust
end FlightApps
