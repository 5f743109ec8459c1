import FlightApps.Adcs.Transports

/-!
# Where the transports agree

An answer of the ADCS is a frame on the UART and a packet on CSP (`Answer`).  What
`cubeObc_sendReceive` makes of it is worked out for both transports, answer by answer; for telemetry
CSP waits for a reply of one size alone, so that only there the answers fall apart
(`transports_agree_iff`).
-/

set_option autoImplicit false

namespace FlightApps
namespace Adcs

open Uart

/-! ## Answers -/

/-- What the ADCS answers. -/
inductive Answer
  /-- A telecommand is acknowledged, with the third byte of the packet. -/
  | ack (status : UInt8)
  /-- A request is refused. -/
  | nack (code : UInt8)
  /-- Telemetry, of the plain or the extended type. -/
  | telemetry (ext : Bool) (payload : List UInt8)

namespace Answer

/-- The answers to a request of this kind. -/
def Fits (target : Target) : Answer → Prop
  | .ack _ => target.isTc = true
  | .nack _ => True
  | .telemetry _ _ => target.isTc = false

/-- The frame on the UART. -/
def frame (target : Target) : Answer → List UInt8
  | .ack _ => reply target.passthrough target.id []
  | .nack code =>
    [escape, somNack target.passthrough, target.id] ++ escaped code ++ [escape, eom]
  | .telemetry _ payload => reply target.passthrough target.id payload

/-- The packet on CSP. -/
def packet (target : Target) : Answer → List UInt8
  | .ack status => [MsgType.tcResp, target.id, status]
  | .nack code => [if target.isTc then MsgType.tcNack else MsgType.tlmNack, target.id, code]
  | .telemetry ext payload =>
    (if ext then MsgType.tlmRespExt else MsgType.tlmResp) :: target.id :: payload

end Answer

/-- The UART is up, and brings the answer. -/
structure UartAnswers.Carries (answers : UartAnswers) (target : Target) (answer : Answer) : Prop where
  handle : answers.handle = true
  write : ∀ frame, answers.write frame = true
  bytes : answers.bytes = answer.frame target

/-- CSP is up, and brings the answer. -/
structure CspAnswers.Carries (answers : CspAnswers) (target : Target) (answer : Answer) : Prop where
  configured : answers.configured = true
  packet : answers.packet = some (answer.packet target)
  /-- A request without a reply is sent. -/
  sent : ∀ port request, answers.transaction port request 0 = 1

/-- A reset is not answered. -/
def Target.isReset (target : Target) : Bool := target.isTc && target.id == idSetReset

/-! ## Reading on the UART -/

namespace Uart

variable (passthrough : Bool) {id : UInt8} {buf : List UInt8} {dataLen : Nat} (timeout : Bool)

/-- The escape is an identifier for which nothing is read. -/
theorem readFrame_escape (hlen : dataLen ≤ buf.length) (bytes : List UInt8) :
    (readFrame passthrough escape buf dataLen timeout bytes).code ∈ ErrorCode.transportErrors := by
  by_cases hfit : (reader bytes).kept.length ≤ dataLen
  · cases hend : (split bytes).2 with
    | none =>
      have hloop := (readLoop_split timeout bytes hlen (Nat.zero_le _) hfit).2 hend
      rw [start_rx] at hloop
      rw [readFrame_error hloop]
      cases timeout <;> decide
    | some rest =>
      rw [readFrame_fits hlen hend hfit]
      show (reader bytes).check passthrough escape ∈ _
      by_cases hopen : (reader bytes).valid = false ∨ (reader bytes).passthrough ≠ passthrough
      · rw [Reader.check, if_pos hopen]
        decide
      · rw [Reader.check, if_neg hopen, if_pos (reader_id bytes)]
        decide
  · have hloop := readLoop_full timeout bytes hlen (Nat.zero_le _) (Nat.not_le.1 hfit)
    rw [start_rx] at hloop
    rw [readFrame_error hloop]
    decide

/-- A reply that is too long. -/
theorem readFrame_long (hlen : dataLen ≤ buf.length) (hid : id ≠ escape) (data : List UInt8)
    (hlong : dataLen < data.length) :
    (readFrame passthrough id buf dataLen timeout (reply passthrough id data)).code = .sizeh := by
  have hsplit := split_reply passthrough hid data []
  rw [List.append_nil] at hsplit
  have hkept : (Reader.start.tokens (split (reply passthrough id data)).1).kept = data := by
    rw [hsplit, Reader.tokens_reply]
    simp [Reader.start]
  have hloop : (readLoop dataLen timeout (reply passthrough id data) (.start buf)).1 =
      .error .sizeh := by
    rw [← start_rx]
    exact readLoop_full timeout _ hlen (Nat.zero_le _) (by rw [hkept]; exact hlong)
  exact readFrame_error hloop

theorem readFrame_alone (hlen : dataLen ≤ buf.length) (hid : id ≠ escape) (data : List UInt8)
    (hdata : data.length ≤ dataLen) :
    readFrame passthrough id buf dataLen timeout (reply passthrough id data) =
      ⟨.ok, data.length, data ++ buf.drop data.length, []⟩ := by
  have hsplit := split_reply passthrough hid data []
  rw [List.append_nil] at hsplit
  exact readFrame_behind timeout hlen (u := []) hsplit hdata

/-- A refusal. -/
theorem readFrame_nack (hlen : dataLen ≤ buf.length) (hid : id ≠ escape) (hroom : 0 < dataLen)
    (code : UInt8) :
    readFrame passthrough id buf dataLen timeout
        ([escape, somNack passthrough, id] ++ escaped code ++ [escape, eom]) =
      ⟨nack2ErrorCode code, 1, code :: buf.drop 1, []⟩ := by
  have hsom : somNack passthrough ≠ eom := by cases passthrough <;> decide
  have hsplit : split ([escape, somNack passthrough, id] ++ escaped code ++ [escape, eom]) =
      (.pair (somNack passthrough) :: .plain id :: [code].map dataToken, some []) := by
    have hdata := split_data [code] []
    rw [List.flatMap_singleton] at hdata
    rw [List.append_assoc, List.cons_append, List.cons_append, List.cons_append, List.nil_append,
      split_pair hsom, split_plain hid, hdata]
  have hreader : reader ([escape, somNack passthrough, id] ++ escaped code ++ [escape, eom]) =
      ⟨false, true, true, passthrough, id, [code]⟩ := by
    have hstart : (Reader.start.token (.pair (somNack passthrough))).token (.plain id) =
        ⟨false, true, true, passthrough, id, []⟩ := by
      cases passthrough <;> simp [Reader.token, Reader.start, somAck, somNack]
    rw [reader, hsplit, Reader.tokens_cons, Reader.tokens_cons, hstart,
      Reader.tokens_data _ _ rfl rfl]
    simp
  rw [readFrame_fits hlen (congrArg Prod.snd hsplit) (by rw [hreader]; exact hroom), hreader]
  simp [Reader.check]

end Uart

/-! ## What each transport makes of an answer -/

section Send

variable {target : Target} (datalen : Nat) (buffer : CommsBuffer) {answer : Answer}
  {u : UartAnswers} {c : CspAnswers}

/-- A request on the UART, up to the reading. -/
theorem sendReceiveUart_sent (hu : u.Carries target answer) (hsize : datalen ≤ commsBufferSize) :
    sendReceiveUart target datalen buffer u =
      if target.isReset then (.ok, buffer)
      else
        let received := readFrame target.passthrough target.id buffer.bytes commsBufferSize
          u.timeout (answer.frame target)
        let buffer : CommsBuffer := ⟨received.data, readFrame_frame.1.trans buffer.length_bytes⟩
        if received.code ≠ .ok then (received.code, buffer)
        else if target.isTc = false ∧ received.dataLen ≠ datalen then
          (if received.dataLen < datalen then .sizel else .sizeh, buffer)
        else (.ok, buffer) := by
  have hreset : (target.isTc = true ∧ target.id = idSetReset) ↔ target.isReset = true := by
    simp [Target.isReset]
  have hshort : ¬protocolBufferSize <
      3 + 2 + (if target.isTc then buffer.bytes.take datalen else []).length * 2 := by
    have hlength := List.length_take_le datalen buffer.bytes
    rw [protocolBufferSize]
    split_ifs
    · omega
    · simp
  obtain ⟨handle, write, bytes, timeout⟩ := u
  obtain ⟨rfl, hwrite, rfl⟩ := hu
  have hwritten : ∀ frame, write frame = true := hwrite
  simp only [sendReceiveUart, writeFrame, if_neg hshort, hwritten, hreset]
  simp

theorem Answer.packet_pos (target : Target) (answer : Answer) :
    0 < ((answer.packet target).length : Int) := by
  cases answer with
  | ack status => simp [packet]
  | nack code => simp [packet]
  | telemetry ext payload => simp only [packet, List.length_cons]; omega

theorem apiTransactionCsp_carries (hc : c.Carries target answer) (port : UInt8)
    (request : List UInt8) (rxSize : Int) (hrx : rxSize ≠ 0) :
    apiTransactionCsp c port request rxSize =
      if rxSize = cspUnknownLen ∨ rxSize = (answer.packet target).length then
        ((answer.packet target).length : Int)
      else srlTransactionErr := by
  have hpos : ((answer.packet target).length : Int) ≠ 0 := by
    have hpos := answer.packet_pos target
    omega
  rw [apiTransactionCsp, if_neg (by simp [hc.configured]),
    c.transaction_some _ hc.packet port request rxSize hrx]
  by_cases hcomes : rxSize = cspUnknownLen ∨ rxSize = (answer.packet target).length
  · simp only [if_pos hcomes, if_neg hpos]
  · simp only [if_neg hcomes, if_true]

/-- A request on CSP, up to the checks of the reply. -/
theorem sendReceiveCsp_sent (hc : c.Carries target answer) :
    sendReceiveCsp target datalen buffer c =
      if target.isReset then (.ok, buffer)
      else if target.isTc = true ∨ (answer.packet target).length = datalen + cspHeaderSize then
        checkCsp target datalen buffer (answer.packet target) (answer.packet target).length
      else (.tout, buffer) := by
  have hread : c.packet.getD [] = answer.packet target := by rw [hc.packet, Option.getD_some]
  have hcome : ¬((answer.packet target).length : Int) ≤ 0 :=
    Int.not_le.2 (answer.packet_pos target)
  rw [sendReceiveCsp, hread]
  by_cases hreset : target.isReset = true
  · have hsent : apiTransactionCsp c target.dstPort
        ([target.msgType, target.id] ++ buffer.bytes.take datalen) 0 = 1 := by
      simp [apiTransactionCsp, hc.configured, hc.sent]
    have hreset' : target.isTc = true ∧ target.id = idSetReset := by
      simpa [Target.isReset] using hreset
    rw [if_pos hreset', if_pos hreset, hsent]
    rfl
  have hreset' : ¬(target.isTc = true ∧ target.id = idSetReset) := by
    simpa [Target.isReset] using hreset
  rw [if_neg hreset', if_neg hreset]
  by_cases htc : target.isTc = true
  · have hres := apiTransactionCsp_carries hc target.dstPort
      ([target.msgType, target.id] ++ buffer.bytes.take datalen) cspUnknownLen (by decide)
    rw [if_pos (Or.inl rfl)] at hres
    simp only [hres, if_neg hcome, htc, true_or, if_true]
  · have hres := apiTransactionCsp_carries hc target.dstPort [target.msgType, target.id]
      (datalen + cspHeaderSize) (by rw [cspHeaderSize]; omega)
    by_cases hlen : (answer.packet target).length = datalen + cspHeaderSize
    · rw [if_pos (Or.inr (by rw [hlen]; rfl))] at hres
      simp only [if_neg htc, hres, if_neg hcome]
      rw [if_pos (Or.inr hlen)]
    · have hother : ¬((datalen : Int) + cspHeaderSize = cspUnknownLen ∨
          (datalen : Int) + cspHeaderSize = (answer.packet target).length) := by
        rw [cspHeaderSize] at hlen ⊢
        rw [cspUnknownLen]
        omega
      have herr : srlTransactionErr ≤ 0 := by decide
      rw [if_neg hother] at hres
      simp only [if_neg htc, hres, if_pos herr, if_true, hlen, or_false]

/-! ### The UART -/

/-- What `ADCS_UartReadFrame` returns on the answer. -/
def uartReceived (target : Target) (buffer : CommsBuffer) (answer : Answer) (timeout : Bool) :
    Received :=
  readFrame target.passthrough target.id buffer.bytes commsBufferSize timeout (answer.frame target)

theorem uart_error (hu : u.Carries target answer) (hsize : datalen ≤ commsBufferSize)
    (hreset : ¬target.isReset = true) {code : ErrorCode}
    (hread : (uartReceived target buffer answer u.timeout).code = code) (hcode : code ≠ .ok) :
    (sendReceiveUart target datalen buffer u).1 = code := by
  rw [uartReceived] at hread
  rw [sendReceiveUart_sent datalen buffer hu hsize, if_neg hreset]
  simp only [hread, if_pos hcode]

theorem uart_ok (hu : u.Carries target answer) (hsize : datalen ≤ commsBufferSize)
    (hreset : ¬target.isReset = true) {len : Nat} {data rest : List UInt8}
    (hread : uartReceived target buffer answer u.timeout = ⟨.ok, len, data, rest⟩)
    (hlen : target.isTc = true ∨ len = datalen) :
    (sendReceiveUart target datalen buffer u).1 = .ok ∧
    (sendReceiveUart target datalen buffer u).2.bytes = data := by
  have hsame : ¬(target.isTc = false ∧ len ≠ datalen) := by
    rintro ⟨htlm, hother⟩
    exact hlen.elim (fun htc => absurd htc (by simp [htlm])) hother
  rw [uartReceived] at hread
  rw [sendReceiveUart_sent datalen buffer hu hsize, if_neg hreset]
  simp only [hread, ne_eq, not_true_eq_false, if_false]
  rw [if_neg hsame]
  exact ⟨rfl, rfl⟩

theorem uart_size (hu : u.Carries target answer) (hsize : datalen ≤ commsBufferSize)
    (hreset : ¬target.isReset = true) {len : Nat} {data rest : List UInt8}
    (hread : uartReceived target buffer answer u.timeout = ⟨.ok, len, data, rest⟩)
    (htlm : target.isTc = false) (hlen : len ≠ datalen) :
    (sendReceiveUart target datalen buffer u).1 = .sizel ∨
    (sendReceiveUart target datalen buffer u).1 = .sizeh := by
  rw [uartReceived] at hread
  rw [sendReceiveUart_sent datalen buffer hu hsize, if_neg hreset]
  simp only [hread, ne_eq, not_true_eq_false, if_false]
  rw [if_pos ⟨htlm, hlen⟩]
  by_cases hshort : len < datalen
  · exact Or.inl (if_pos hshort)
  · exact Or.inr (if_neg hshort)

/-! ### CSP -/

theorem csp_ack {status : UInt8} (hc : c.Carries target (.ack status))
    (htc : target.isTc = true) : sendReceiveCsp target datalen buffer c = (.ok, buffer) := by
  have hcheck : checkCsp target datalen buffer ((Answer.ack status).packet target)
      ((Answer.ack status).packet target).length = (.ok, buffer) := by
    simp [checkCsp, Answer.packet, cspHeaderSize, htc, MsgType.tcResp, MsgType.tcNack,
      MsgType.tlmNack]
  rw [sendReceiveCsp_sent _ buffer hc, hcheck, if_pos (Or.inl htc), ite_self]

theorem csp_nack {code : UInt8} (hc : c.Carries target (.nack code))
    (hreset : ¬target.isReset = true) :
    sendReceiveCsp target datalen buffer c =
      if target.isTc = true ∨ datalen = 1 then (nack2ErrorCode code, buffer) else (.tout, buffer) := by
  have hcheck : checkCsp target datalen buffer ((Answer.nack code).packet target)
      ((Answer.nack code).packet target).length = (nack2ErrorCode code, buffer) := by
    cases htc : target.isTc with
    | true =>
      simp [checkCsp, Answer.packet, cspHeaderSize, htc, MsgType.tcNack, MsgType.tlmNack]
    | false =>
      simp [checkCsp, Answer.packet, cspHeaderSize, htc, MsgType.tcNack, MsgType.tlmNack]
  have hlength : ((Answer.nack code).packet target).length = datalen + cspHeaderSize ↔
      datalen = 1 := by
    simp only [Answer.packet, cspHeaderSize, List.length_cons, List.length_nil]
    omega
  rw [sendReceiveCsp_sent _ buffer hc, hcheck, if_neg hreset]
  simp only [hlength]

theorem csp_telemetry {ext : Bool} {payload : List UInt8} (hc : c.Carries target (.telemetry ext payload))
    (htlm : target.isTc = false) :
    sendReceiveCsp target datalen buffer c =
      if payload.length = datalen then (.ok, buffer.store payload) else (.tout, buffer) := by
  have hreset : ¬target.isReset = true := by simp [Target.isReset, htlm]
  have hlength : ((Answer.telemetry ext payload).packet target).length = datalen + cspHeaderSize ↔
      payload.length = datalen := by
    simp only [Answer.packet, cspHeaderSize, List.length_cons]
    omega
  rw [sendReceiveCsp_sent _ buffer hc, if_neg hreset]
  simp only [hlength, htlm, Bool.false_eq_true, false_or]
  by_cases hlen : payload.length = datalen
  · subst hlen
    have hcheck : checkCsp target payload.length buffer ((Answer.telemetry ext payload).packet target)
        ((Answer.telemetry ext payload).packet target).length = (.ok, buffer.store payload) := by
      have hlong : ¬((payload.length : Int) + 2 < 2) := by omega
      cases ext with
      | true =>
        simp [checkCsp, Answer.packet, cspHeaderSize, htlm, hlong, MsgType.tlmRespExt,
          MsgType.tcNack, MsgType.tlmNack, Int.add_assoc]
      | false =>
        simp [checkCsp, Answer.packet, cspHeaderSize, htlm, hlong, MsgType.tlmResp,
          MsgType.tcNack, MsgType.tlmNack, Int.add_assoc]
    rw [hcheck]
  · rw [if_neg hlen, if_neg hlen]

end Send

/-! ## Agreement -/

/-- Telemetry has the size that is asked for; a refusal of telemetry is as long as one byte of it. -/
def Answer.HasSize (size : Nat) : Answer → Prop
  | .ack _ => False
  | .nack _ => size = 1
  | .telemetry _ payload => payload.length = size

/-- The requests and answers for which the transports return the same. -/
def Agrees (target : Target) (size : Nat) (answer : Answer) : Prop :=
  if target.isTc then target.isReset = true ∨ target.id ≠ escape
  else answer.HasSize size

/-- A refusal with the code zero finds this code in the buffer. -/
def ZeroFound (target : Target) (size : Nat) (buffer : CommsBuffer) (answer : Answer) : Prop :=
  answer = .nack 0 → target.isReset = false → 0 < size → buffer.bytes.head? = some 0

/-- Both transports return the same, and leave the same bytes if it is no error. -/
structure SameOutcome (size : Nat) (a b : ErrorCode × CommsBuffer) : Prop where
  code : a.1 = b.1
  bytes : a.1 = .ok → a.2.bytes.take size = b.2.bytes.take size

section Agreement

variable {target : Target} {size : Nat} {buffer : CommsBuffer} {answer : Answer}
  {u : UartAnswers} {c : CspAnswers}

theorem escape_isTc (h : target.id = escape) : target.isTc = true := by
  rw [Target.isTc, h]
  decide

/-- The front of the buffer where a zero has been put there. -/
theorem take_zero_iff (buffer : CommsBuffer) (size : Nat) :
    (0 :: buffer.bytes.drop 1).take size = buffer.bytes.take size ↔
      (0 < size → buffer.bytes.head? = some 0) := by
  have hlength := buffer.length_bytes
  cases hbytes : buffer.bytes with
  | nil =>
    rw [hbytes] at hlength
    exact absurd hlength (by decide)
  | cons b bytes =>
    cases size with
    | zero => simp
    | succ n => simp [eq_comm]

theorem nack_zero_iff (code : UInt8) : Answer.nack code = .nack 0 ↔ code = 0 := by
  rw [Answer.nack.injEq]

theorem agree_nack {code : UInt8} (hsize : size ≤ commsBufferSize)
    (hreset : ¬target.isReset = true) (hid : target.id ≠ escape)
    (hu : u.Carries target (.nack code)) (hc : c.Carries target (.nack code)) :
    ((sendReceiveUart target size buffer u).1 = (sendReceiveCsp target size buffer c).1 ↔
      target.isTc = true ∨ size = 1) ∧
    (SameOutcome size (sendReceiveUart target size buffer u) (sendReceiveCsp target size buffer c) ↔
      (target.isTc = true ∨ size = 1) ∧ ZeroFound target size buffer (.nack code)) := by
  have hlen : commsBufferSize ≤ buffer.bytes.length := Nat.le_of_eq buffer.length_bytes.symm
  have hread : uartReceived target buffer (.nack code) u.timeout =
      ⟨nack2ErrorCode code, 1, code :: buffer.bytes.drop 1, []⟩ :=
    readFrame_nack target.passthrough u.timeout hlen hid (by decide) code
  have hread_code : (uartReceived target buffer (.nack code) u.timeout).code =
      nack2ErrorCode code := congrArg Received.code hread
  have hcsp := csp_nack size buffer hc hreset
  obtain ⟨hzero, hnack⟩ := nack2ErrorCode_spec code
  by_cases hone : target.isTc = true ∨ size = 1
  · rw [if_pos hone] at hcsp
    simp only [hone, true_and]
    by_cases hcode : code = 0
    · have hok : nack2ErrorCode code = .ok := hzero.2 hcode
      rw [hok] at hread hcsp
      obtain ⟨hcode', hbytes⟩ := uart_ok size buffer hu hsize hreset hread (hone.imp_right Eq.symm)
      have hfound : ZeroFound target size buffer (.nack code) ↔
          (0 < size → buffer.bytes.head? = some 0) := by
        simp [ZeroFound, hreset, hcode]
      rw [hcsp, hfound, ← take_zero_iff]
      refine ⟨iff_of_true hcode' trivial, ?_⟩
      refine ⟨fun h => ?_, fun h => ⟨hcode', fun _ => ?_⟩⟩
      · have hsame := h.bytes hcode'
        rwa [hbytes, hcode] at hsame
      · rw [hbytes, hcode]
        exact h
    · have hne : nack2ErrorCode code ≠ .ok := fun h => hcode (hzero.1 h)
      have hcode' := uart_error size buffer hu hsize hreset hread_code hne
      have hfound : ZeroFound target size buffer (.nack code) := fun h =>
        absurd ((nack_zero_iff code).1 h) hcode
      rw [hcsp]
      exact ⟨iff_of_true hcode' trivial, iff_of_true
        ⟨hcode', fun h => absurd (hcode'.symm.trans h) hne⟩ hfound⟩
  · rw [if_neg hone] at hcsp
    simp only [hone, false_and, iff_false]
    have hdiff : (sendReceiveUart target size buffer u).1 ≠ .tout := by
      by_cases hcode : code = 0
      · rw [hzero.2 hcode] at hread
        rw [not_or, Bool.not_eq_true] at hone
        obtain h | h := uart_size size buffer hu hsize hreset hread hone.1 (Ne.symm hone.2)
        · rw [h]
          decide
        · rw [h]
          decide
      · have hne : nack2ErrorCode code ≠ .ok := fun h => hcode (hzero.1 h)
        rw [uart_error size buffer hu hsize hreset hread_code hne]
        exact fun h => hnack (by rw [h]; decide)
    rw [hcsp]
    exact ⟨hdiff, fun h => hdiff h.code⟩

theorem agree_telemetry {ext : Bool} {payload : List UInt8} (hsize : size ≤ commsBufferSize)
    (htlm : target.isTc = false) (hu : u.Carries target (.telemetry ext payload))
    (hc : c.Carries target (.telemetry ext payload)) :
    ((sendReceiveUart target size buffer u).1 = (sendReceiveCsp target size buffer c).1 ↔
      payload.length = size) ∧
    (SameOutcome size (sendReceiveUart target size buffer u) (sendReceiveCsp target size buffer c) ↔
      payload.length = size) := by
  have hlen : commsBufferSize ≤ buffer.bytes.length := Nat.le_of_eq buffer.length_bytes.symm
  have hid : target.id ≠ escape := fun h => absurd (escape_isTc h) (by simp [htlm])
  have hreset : ¬target.isReset = true := by simp [Target.isReset, htlm]
  have hcsp := csp_telemetry size buffer hc htlm
  by_cases hsame : payload.length = size
  · have hread : uartReceived target buffer (.telemetry ext payload) u.timeout =
        ⟨.ok, payload.length, payload ++ buffer.bytes.drop payload.length, []⟩ :=
      readFrame_alone target.passthrough u.timeout hlen hid payload (by omega)
    obtain ⟨hcode, hbytes⟩ := uart_ok size buffer hu hsize hreset hread (Or.inr hsame)
    rw [if_pos hsame] at hcsp
    have htake : (payload ++ buffer.bytes.drop payload.length).take size =
        (buffer.store payload).bytes.take size := by
      rw [CommsBuffer.store, List.take_take, Nat.min_eq_left hsize]
    rw [hcsp]
    exact ⟨iff_of_true hcode hsame, iff_of_true ⟨hcode, fun _ => hbytes ▸ htake⟩ hsame⟩
  · rw [if_neg hsame] at hcsp
    have hdiff : (sendReceiveUart target size buffer u).1 ≠ .tout := by
      by_cases hfit : payload.length ≤ commsBufferSize
      · have hread : uartReceived target buffer (.telemetry ext payload) u.timeout =
            ⟨.ok, payload.length, payload ++ buffer.bytes.drop payload.length, []⟩ :=
          readFrame_alone target.passthrough u.timeout hlen hid payload hfit
        obtain h | h := uart_size size buffer hu hsize hreset hread htlm hsame
        · rw [h]
          decide
        · rw [h]
          decide
      · have hread : (uartReceived target buffer (.telemetry ext payload) u.timeout).code = .sizeh :=
          readFrame_long target.passthrough u.timeout hlen hid payload (Nat.not_le.1 hfit)
        rw [uart_error size buffer hu hsize hreset hread (by decide)]
        decide
    rw [hcsp]
    exact ⟨iff_of_false hdiff hsame, iff_of_false (fun h => hdiff h.code) hsame⟩

variable (buffer)

/-- The escape is refused on the UART alone. -/
theorem differ_escape (hsize : size ≤ commsBufferSize) (hfits : answer.Fits target)
    (hreset : ¬target.isReset = true) (hid : target.id = escape) (hu : u.Carries target answer)
    (hc : c.Carries target answer) :
    (sendReceiveUart target size buffer u).1 ≠ (sendReceiveCsp target size buffer c).1 := by
  have hlen : commsBufferSize ≤ buffer.bytes.length := Nat.le_of_eq buffer.length_bytes.symm
  have htc := escape_isTc hid
  have herror : (uartReceived target buffer answer u.timeout).code ∈ ErrorCode.transportErrors := by
    rw [uartReceived, hid]
    exact readFrame_escape target.passthrough u.timeout hlen _
  have hne : (uartReceived target buffer answer u.timeout).code ≠ .ok := fun h =>
    absurd herror (by rw [h]; decide)
  rw [uart_error size buffer hu hsize hreset rfl hne]
  cases answer with
  | ack status =>
    rw [csp_ack size buffer hc htc]
    exact hne
  | nack code =>
    rw [csp_nack size buffer hc hreset, if_pos (Or.inl htc)]
    intro h
    rw [h] at herror
    exact (nack2ErrorCode_spec code).2 herror
  | telemetry ext payload => exact absurd htc (by simp [show target.isTc = false from hfits])

/-- **Where the transports agree**, for one request. -/
theorem sendReceive_agree (hsize : size ≤ commsBufferSize) (hfits : answer.Fits target)
    (hu : u.Carries target answer) (hc : c.Carries target answer) :
    ((sendReceiveUart target size buffer u).1 = (sendReceiveCsp target size buffer c).1 ↔
      Agrees target size answer) ∧
    (SameOutcome size (sendReceiveUart target size buffer u) (sendReceiveCsp target size buffer c) ↔
      Agrees target size answer ∧ ZeroFound target size buffer answer) := by
  have hlen : commsBufferSize ≤ buffer.bytes.length := Nat.le_of_eq buffer.length_bytes.symm
  by_cases hreset : target.isReset = true
  · have htc : target.isTc = true := by
      rw [Target.isReset, Bool.and_eq_true] at hreset
      exact hreset.1
    have hagrees : Agrees target size answer := by
      rw [Agrees, if_pos htc]
      exact Or.inl hreset
    have hfound : ZeroFound target size buffer answer := fun _ h => absurd hreset (by simp [h])
    rw [sendReceiveUart_sent size buffer hu hsize, sendReceiveCsp_sent size buffer hc,
      if_pos hreset, if_pos hreset]
    exact ⟨iff_of_true rfl hagrees, iff_of_true ⟨rfl, fun _ => rfl⟩ ⟨hagrees, hfound⟩⟩
  by_cases hid : target.id = escape
  · have hagrees : ¬Agrees target size answer := by
      rw [Agrees, if_pos (escape_isTc hid)]
      simp [hreset, hid]
    have hdiff := differ_escape buffer hsize hfits hreset hid hu hc
    exact ⟨iff_of_false hdiff hagrees, iff_of_false (fun h => hdiff h.code) fun h => hagrees h.1⟩
  cases answer with
  | ack status =>
    have htc : target.isTc = true := hfits
    have hagrees : Agrees target size (.ack status) := by
      rw [Agrees, if_pos htc]
      exact Or.inr hid
    have hfound : ZeroFound target size buffer (.ack status) := fun h => by simp at h
    have hread : uartReceived target buffer (.ack status) u.timeout =
        ⟨.ok, 0, [] ++ buffer.bytes.drop 0, []⟩ :=
      readFrame_alone target.passthrough u.timeout hlen hid [] (Nat.zero_le _)
    obtain ⟨hcode, hbytes⟩ := uart_ok size buffer hu hsize hreset hread (Or.inl htc)
    rw [csp_ack size buffer hc htc]
    exact ⟨iff_of_true hcode hagrees,
      iff_of_true ⟨hcode, fun _ => hbytes ▸ rfl⟩ ⟨hagrees, hfound⟩⟩
  | nack code =>
    have hagrees : Agrees target size (.nack code) ↔ target.isTc = true ∨ size = 1 := by
      rw [Agrees]
      split_ifs with htc
      · simp [htc, hid]
      · simp [htc, Answer.HasSize]
    rw [hagrees]
    exact agree_nack hsize hreset hid hu hc
  | telemetry ext payload =>
    have htlm : target.isTc = false := hfits
    have hagrees : Agrees target size (.telemetry ext payload) ↔ payload.length = size := by
      simp [Agrees, htlm, Answer.HasSize]
    have hfound : ZeroFound target size buffer (.telemetry ext payload) := fun h => by simp at h
    rw [hagrees, and_iff_left hfound]
    exact agree_telemetry hsize htlm hu hc

theorem getTelemetryCommon_some (passthrough : Bool) (tlmId : UInt16) (value : List UInt8)
    (answers : Traffic) (hsize : size ≤ commsBufferSize) :
    getTelemetryCommon passthrough tlmId (some value) size buffer answers =
      let sent := cubeObcSendReceive ⟨passthrough, tlmId.toUInt8⟩ size buffer answers
      (sent.1, some (if sent.1 = .ok then sent.2.bytes.take size ++ value.drop size else value),
        sent.2) := by
  have hptr : ¬(0 < size ∧ some value = none) := fun h => absurd h.2 (by simp)
  rw [getTelemetryCommon, if_neg (Nat.not_lt.2 hsize), if_neg hptr]
  generalize cubeObcSendReceive ⟨passthrough, tlmId.toUInt8⟩ size buffer answers = sent
  obtain ⟨code, buffer⟩ := sent
  by_cases hok : code = .ok
  · simp [hok]
  · simp [hok]

/-- **Where the transports agree.**  The calls return the same on both, and `ADCS_GetTelemetry_Common`
leaves the same bytes in the caller's variable, exactly if a telecommand is the reset or has another
identifier than the escape, and an answer to a telemetry request is as long as the telemetry that is
asked for; where a refusal with the code zero is taken for a success, the buffer has to begin with a
zero for the bytes to be the same. -/
theorem transports_agree_iff (passthrough : Bool) (id : UInt16) (size : Nat) (buffer : CommsBuffer)
    (answer : Answer) (u : UartAnswers) (c : CspAnswers) (value : List UInt8)
    (hsize : size ≤ commsBufferSize) (hfits : answer.Fits ⟨passthrough, id.toUInt8⟩)
    (hu : u.Carries ⟨passthrough, id.toUInt8⟩ answer)
    (hc : c.Carries ⟨passthrough, id.toUInt8⟩ answer) :
    ((setCommandCommon passthrough id (some value) size buffer (.uart u)).1 =
        (setCommandCommon passthrough id (some value) size buffer (.csp c)).1 ↔
      Agrees ⟨passthrough, id.toUInt8⟩ size answer) ∧
    ((getTelemetryCommon passthrough id (some value) size buffer (.uart u)).1 =
        (getTelemetryCommon passthrough id (some value) size buffer (.csp c)).1 ∧
      (getTelemetryCommon passthrough id (some value) size buffer (.uart u)).2.1 =
        (getTelemetryCommon passthrough id (some value) size buffer (.csp c)).2.1 ↔
      Agrees ⟨passthrough, id.toUInt8⟩ size answer ∧
        ZeroFound ⟨passthrough, id.toUInt8⟩ size buffer answer) := by
  have hfit : ¬commsBufferSize < size := Nat.not_lt.2 hsize
  refine ⟨?_, ?_⟩
  · have hagree := (sendReceive_agree (buffer.store (value.take size)) hsize hfits hu hc).1
    simpa [setCommandCommon, cubeObcSendReceive, hfit] using hagree
  · have hagree := (sendReceive_agree buffer hsize hfits hu hc).2
    rw [← hagree, getTelemetryCommon_some buffer passthrough id value _ hsize,
      getTelemetryCommon_some buffer passthrough id value _ hsize]
    simp only [cubeObcSendReceive, if_neg hfit]
    refine ⟨fun ⟨hcode, hvalue⟩ => ⟨hcode, fun hok => ?_⟩, fun ⟨hcode, hbytes⟩ => ⟨hcode, ?_⟩⟩
    · rw [if_pos hok, if_pos (hcode ▸ hok)] at hvalue
      exact List.append_cancel_right (Option.some.inj hvalue)
    · rw [← hcode]
      by_cases hok : (sendReceiveUart ⟨passthrough, id.toUInt8⟩ size buffer u).1 = .ok
      · rw [if_pos hok, if_pos hok, hbytes hok]
      · rw [if_neg hok, if_neg hok]

end Agreement

/-! ## A refusal of telemetry -/

/-- A UART that brings these bytes. -/
def UartAnswers.bringing (bytes : List UInt8) : UartAnswers where
  handle := true
  write := fun _ => true
  bytes := bytes
  timeout := true

/-- CSP with this reply. -/
def CspAnswers.replying (reply : List UInt8) : CspAnswers where
  configured := true
  packet := some reply
  transaction := fun _ _ rxSize =>
    if rxSize = 0 then 1
    else if rxSize = cspUnknownLen ∨ rxSize = reply.length then reply.length else 0
  transaction_none := fun h => by simp at h
  transaction_some := fun _ h _ _ _ hrx => by
    rw [if_neg hrx, Option.some.inj h]

/-- The buffer at the start. -/
def CommsBuffer.zero : CommsBuffer := ⟨List.replicate commsBufferSize 0, List.length_replicate⟩

/-- Telemetry that is as long as it should be is the same on both transports. -/
theorem telemetry_agrees :
    (getTelemetryCommon false 130 (some [0, 0]) 2 .zero
        (.uart (.bringing ((Answer.telemetry false [7, 8]).frame ⟨false, 130⟩)))).2.1 =
      (getTelemetryCommon false 130 (some [0, 0]) 2 .zero
        (.csp (.replying ((Answer.telemetry false [7, 8]).packet ⟨false, 130⟩)))).2.1 := by
  have hagree := transports_agree_iff false 130 2 .zero (.telemetry false [7, 8])
    (.bringing ((Answer.telemetry false [7, 8]).frame ⟨false, 130⟩))
    (.replying ((Answer.telemetry false [7, 8]).packet ⟨false, 130⟩)) [0, 0] (by decide)
    (show Target.isTc ⟨false, 130⟩ = false by decide) ⟨rfl, fun _ => rfl, rfl⟩
    ⟨rfl, rfl, fun _ _ => rfl⟩
  have hsize : Agrees ⟨false, 130⟩ 2 (.telemetry false [7, 8]) := by
    rw [Agrees, if_neg (by decide)]
    simp [Answer.HasSize]
  exact (hagree.2.2 ⟨hsize, fun h => by simp at h⟩).2

/-- A refusal of telemetry is an error of its own on the UART, and a timeout on CSP. -/
theorem refusal_differs :
    (getTelemetryCommon false 130 (some [0, 0]) 2 .zero
        (.uart (.bringing ((Answer.nack 6).frame ⟨false, 130⟩)))).1 = .busy ∧
    (getTelemetryCommon false 130 (some [0, 0]) 2 .zero
        (.csp (.replying ((Answer.nack 6).packet ⟨false, 130⟩)))).1 = .tout := by
  refine ⟨by decide +kernel, by decide +kernel⟩

end Adcs
end FlightApps
