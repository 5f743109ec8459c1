import FlightApps.Adcs.Ambiguity
import FlightApps.Adcs.Agreement

/-!
# Whether results of the ADCS are true

Calls follow one another on the one buffer (`run`).  A success is a true one if what the call asks for
has come during it (`Truthful`), and a call gives no other success if its stream is neat and no refusal
has the code zero (`Call.Clean`).
-/

set_option autoImplicit false

namespace FlightApps
namespace Adcs

open Uart

/-! ## Calls -/

/-- A call, with what is answered during it. -/
inductive Call
  /-- `ADCS_SetCommand_Common`. -/
  | set (cmdId : UInt16) (setVal : Option (List UInt8)) (size : Nat) (answers : Traffic)
  /-- `ADCS_GetTelemetry_Common`, with the caller's variable. -/
  | get (tlmId : UInt16) (returnVal : Option (List UInt8)) (bufferSize : Nat) (answers : Traffic)

/-- What a call returns, and what it leaves in the caller's variable. -/
structure Outcome where
  code : ErrorCode
  returnVal : Option (List UInt8)

/-- A call on the buffer. -/
def Call.perform (passthrough : Bool) (buffer : CommsBuffer) : Call → Outcome × CommsBuffer
  | .set cmdId setVal size answers =>
    let sent := setCommandCommon passthrough cmdId setVal size buffer answers
    (⟨sent.1, none⟩, sent.2)
  | .get tlmId returnVal bufferSize answers =>
    let sent := getTelemetryCommon passthrough tlmId returnVal bufferSize buffer answers
    (⟨sent.1, sent.2.1⟩, sent.2.2)

/-- One call after the other, each with its outcome. -/
def run (passthrough : Bool) : CommsBuffer → List Call → List (Call × Outcome)
  | _, [] => []
  | buffer, call :: calls =>
    (call, (call.perform passthrough buffer).1) ::
      run passthrough (call.perform passthrough buffer).2 calls

/-! ## Truth -/

/-- Telemetry has come. -/
def Traffic.Telemetry (passthrough : Bool) (id : UInt16) (data : List UInt8) : Traffic → Prop
  | .uart answers =>
    ∃ b : UInt8, b.toNat = id.toNat ∧ Whole passthrough b data answers.bytes
  | .csp answers =>
    ∃ b : UInt8, b.toNat = id.toNat ∧ ∃ type ∈ [MsgType.tlmResp, MsgType.tlmRespExt],
      answers.packet = some (type :: b :: data)

/-- An acknowledgement has come. -/
def Traffic.Acknowledged (passthrough : Bool) (id : UInt16) : Traffic → Prop
  | .uart answers =>
    ∃ b : UInt8, b.toNat = id.toNat ∧ ∃ data, Whole passthrough b data answers.bytes
  | .csp answers =>
    ∃ b : UInt8, b.toNat = id.toNat ∧ ∃ status, answers.packet = some [MsgType.tcResp, b, status]

/-- A success is a true one, and an error changes nothing. -/
def Truthful (passthrough : Bool) : Call → Outcome → Prop
  | .set cmdId _ _ answers, outcome =>
    outcome.code = .ok → cmdId.toNat ≠ idSetReset.toNat → answers.Acknowledged passthrough cmdId
  | .get tlmId returnVal bufferSize answers, outcome =>
    (outcome.code = .ok → ∃ data, data.length = bufferSize ∧ answers.Telemetry passthrough tlmId data ∧
      outcome.returnVal = returnVal.map fun value => data ++ value.drop bufferSize) ∧
    (outcome.code ≠ .ok → outcome.returnVal = returnVal)

/-- A call whose identifier is of its kind, whose stream is neat or refused, and whose packet is no
refusal with the code zero. -/
def Call.Clean (passthrough : Bool) : Call → Prop
  | .set cmdId _ _ (.uart answers) =>
    cmdId.toNat < 128 ∧
      (Accepted passthrough cmdId.toUInt8 commsBufferSize answers.bytes →
        Neat (split answers.bytes).1)
  | .set cmdId _ _ (.csp answers) =>
    cmdId.toNat < 128 ∧
      ∀ rest, answers.packet ≠ some (MsgType.tcNack :: cmdId.toUInt8 :: 0 :: rest)
  | .get tlmId _ bufferSize (.uart answers) =>
    (128 ≤ tlmId.toNat ∧ tlmId.toNat < 256) ∧
      (Accepted passthrough tlmId.toUInt8 commsBufferSize answers.bytes →
        (reader answers.bytes).kept.length = bufferSize → Neat (split answers.bytes).1)
  | .get tlmId _ bufferSize (.csp answers) =>
    (128 ≤ tlmId.toNat ∧ tlmId.toNat < 256) ∧
      ∀ rest, answers.packet = some (MsgType.tlmNack :: tlmId.toUInt8 :: 0 :: rest) →
        (0 :: rest).length ≠ bufferSize

/-! ## The UART -/

section Send

variable {target : Target} {datalen : Nat} {buffer : CommsBuffer}

theorem writeFrame_error {passthrough : Bool} {id : UInt8} {data : List UInt8} {code : ErrorCode}
    (h : writeFrame passthrough id data = .error code) : code = .sizeh := by
  rw [writeFrame] at h
  split_ifs at h
  exact (Except.error.inj h).symm

/-- A success on the UART, other than of the reset. -/
theorem uart_success {u : UartAnswers} (hreset : ¬target.isReset = true)
    (h : (sendReceiveUart target datalen buffer u).1 = .ok) :
    Accepted target.passthrough target.id commsBufferSize u.bytes ∧
    (target.isTc = false → (reader u.bytes).kept.length = datalen) ∧
    (sendReceiveUart target datalen buffer u).2.bytes =
      (reader u.bytes).kept ++ buffer.bytes.drop (reader u.bytes).kept.length := by
  have hlen : commsBufferSize ≤ buffer.bytes.length := Nat.le_of_eq buffer.length_bytes.symm
  have hreset' : ¬(target.isTc = true ∧ target.id = idSetReset) := by
    simpa [Target.isReset] using hreset
  rw [sendReceiveUart] at h ⊢
  by_cases hhandle : u.handle = false
  · rw [if_pos hhandle] at h
    exact absurd h (show ErrorCode.read ≠ .ok by decide)
  rw [if_neg hhandle] at h ⊢
  cases hframe : writeFrame target.passthrough target.id
      (if target.isTc then buffer.bytes.take datalen else []) with
  | error code =>
    rw [hframe] at h
    exact absurd h (show code ≠ .ok by rw [writeFrame_error hframe]; decide)
  | ok frame =>
    simp only [hframe] at h ⊢
    by_cases hwrite : u.write frame = false
    · rw [if_pos hwrite] at h
      exact absurd h (show ErrorCode.write ≠ .ok by decide)
    rw [if_neg hwrite, if_neg hreset'] at h ⊢
    by_cases hcode : (readFrame target.passthrough target.id buffer.bytes commsBufferSize u.timeout
        u.bytes).code = .ok
    · have haccepted := accepted_of_ok hlen hcode
      obtain ⟨-, hlength, hdata⟩ := haccepted.read u.timeout hlen
      rw [if_neg (not_not.2 hcode)] at h ⊢
      by_cases hsize : target.isTc = false ∧ (reader u.bytes).kept.length ≠ datalen
      · rw [hlength, if_pos hsize] at h
        split_ifs at h
        · exact absurd h (show ErrorCode.sizel ≠ .ok by decide)
        · exact absurd h (show ErrorCode.sizeh ≠ .ok by decide)
      · rw [hlength, if_neg hsize]
        exact ⟨haccepted, fun htlm => by_contra fun hne => hsize ⟨htlm, hne⟩, hdata⟩
    · rw [if_pos hcode] at h
      exact absurd h hcode

/-! ## CSP -/

/-- A positive result of CSP is the length of the reply that has come. -/
theorem apiTransactionCsp_pos {c : CspAnswers} {port : UInt8} {request : List UInt8} {rxSize : Int}
    (hrx : rxSize ≠ 0) (h : 0 < apiTransactionCsp c port request rxSize) :
    ∃ reply, c.packet = some reply ∧ apiTransactionCsp c port request rxSize = reply.length ∧
      (rxSize = cspUnknownLen ∨ rxSize = reply.length) := by
  rw [apiTransactionCsp] at h ⊢
  by_cases hnode : c.configured = false
  · rw [if_pos hnode] at h
    exact absurd h (by decide)
  rw [if_neg hnode] at h ⊢
  cases hpacket : c.packet with
  | none =>
    rw [c.transaction_none hpacket port request rxSize hrx] at h
    exact absurd h (by decide)
  | some reply =>
    rw [c.transaction_some reply hpacket port request rxSize hrx] at h ⊢
    by_cases hcomes : rxSize = cspUnknownLen ∨ rxSize = reply.length
    · refine ⟨reply, rfl, ?_, hcomes⟩
      simp only [if_pos hcomes] at h ⊢
      by_cases hzero : (reply.length : Int) = 0
      · rw [if_pos hzero] at h
        exact absurd h (by decide)
      · rw [if_neg hzero]
    · simp only [if_neg hcomes] at h
      exact absurd h (by decide)

/-- A success on CSP, other than of the reset. -/
theorem csp_success {c : CspAnswers} (hreset : ¬target.isReset = true)
    (h : (sendReceiveCsp target datalen buffer c).1 = .ok) :
    ∃ reply, c.packet = some reply ∧
      (target.isTc = true ∨ reply.length = datalen + cspHeaderSize) ∧
      sendReceiveCsp target datalen buffer c =
        checkCsp target datalen buffer reply reply.length := by
  have hreset' : ¬(target.isTc = true ∧ target.id = idSetReset) := by
    simpa [Target.isReset] using hreset
  rw [sendReceiveCsp, if_neg hreset'] at h ⊢
  have hcome : ∀ (request : List UInt8) (rxSize : Int), rxSize ≠ 0 →
      (let res := apiTransactionCsp c target.dstPort request rxSize
        if res ≤ 0 then (if res = srlTransactionErr then ErrorCode.tout else .read, buffer)
        else checkCsp target datalen buffer (c.packet.getD []) res).1 = .ok →
      ∃ reply, c.packet = some reply ∧ (rxSize = cspUnknownLen ∨ rxSize = reply.length) ∧
        (let res := apiTransactionCsp c target.dstPort request rxSize
          if res ≤ 0 then (if res = srlTransactionErr then ErrorCode.tout else .read, buffer)
          else checkCsp target datalen buffer (c.packet.getD []) res) =
        checkCsp target datalen buffer reply reply.length := by
    intro request rxSize hrx h
    by_cases hres : apiTransactionCsp c target.dstPort request rxSize ≤ 0
    · simp only [if_pos hres] at h
      split_ifs at h
      · exact absurd h (show ErrorCode.tout ≠ .ok by decide)
      · exact absurd h (show ErrorCode.read ≠ .ok by decide)
    · obtain ⟨reply, hpacket, hlen, hcomes⟩ := apiTransactionCsp_pos hrx (Int.not_le.1 hres)
      refine ⟨reply, hpacket, hcomes, ?_⟩
      simp only [if_neg hres]
      rw [hpacket, Option.getD_some, hlen]
  by_cases htc : target.isTc = true
  · simp only [if_pos htc] at h ⊢
    obtain ⟨reply, hpacket, -, hcheck⟩ := hcome _ _ (by decide) h
    exact ⟨reply, hpacket, Or.inl htc, hcheck⟩
  · simp only [if_neg htc] at h ⊢
    obtain ⟨reply, hpacket, hcomes, hcheck⟩ := hcome _ _ (by rw [cspHeaderSize]; omega) h
    refine ⟨reply, hpacket, Or.inr ?_, hcheck⟩
    rw [cspUnknownLen, cspHeaderSize] at hcomes
    rw [cspHeaderSize]
    omega

/-- A reply that is a success: a refusal with the code zero, an acknowledgement, or telemetry. -/
theorem checkCsp_success {reply : List UInt8}
    (h : (checkCsp target datalen buffer reply reply.length).1 = .ok) :
    ∃ type rest, reply = type :: target.id :: rest ∧
      ((type = (if target.isTc then MsgType.tcNack else MsgType.tlmNack) ∧
          ∃ tail, rest = 0 :: tail) ∨
        (target.isTc = true ∧ type = MsgType.tcResp ∧ rest.length = 1) ∨
        (target.isTc = false ∧ type ∈ [MsgType.tlmResp, MsgType.tlmRespExt] ∧
          rest.length = datalen ∧
          checkCsp target datalen buffer reply reply.length = (.ok, buffer.store rest))) := by
  match reply with
  | [] => exact absurd h (show ErrorCode.sizel ≠ .ok by decide)
  | [b] => exact absurd h (show ErrorCode.sizel ≠ .ok by decide)
  | type :: b :: rest =>
    have hlong : ¬(((type :: b :: rest).length : Int) < cspHeaderSize) := by
      simp only [List.length_cons, cspHeaderSize]
      omega
    rw [checkCsp, if_neg hlong] at h ⊢
    simp only [List.getD_cons_zero, List.getD_cons_succ] at h ⊢
    by_cases hid : b = target.id
    · subst hid
      refine ⟨type, rest, rfl, ?_⟩
      rw [if_neg (not_not.2 rfl)] at h ⊢
      by_cases hnack : type = MsgType.tcNack ∨ type = MsgType.tlmNack
      · left
        rw [if_pos hnack] at h
        by_cases hcross : (target.isTc = true ∧ type ≠ MsgType.tcNack) ∨
            (target.isTc = false ∧ type ≠ MsgType.tlmNack)
        · rw [if_pos hcross] at h
          exact absurd h (show ErrorCode.protocol ≠ .ok by decide)
        rw [if_neg hcross] at h
        cases rest with
        | nil => exact absurd h (show ErrorCode.sizel ≠ .ok by decide)
        | cons code tail =>
          have hroom : ¬(((type :: target.id :: code :: tail).length : Int) ≤ cspHeaderSize) := by
            simp only [List.length_cons, cspHeaderSize]
            omega
          rw [if_neg hroom] at h
          have hzero : code = 0 := (nack2ErrorCode_spec code).1.1 h
          refine ⟨?_, tail, by rw [hzero]⟩
          simp only [not_or, not_and, not_not] at hcross
          cases htc : target.isTc with
          | true => simpa using hcross.1 htc
          | false => simpa using hcross.2 htc
      · right
        rw [if_neg hnack] at h ⊢
        cases htc : target.isTc with
        | true =>
          left
          simp only [htc, if_true] at h
          split_ifs at h with htype hshort hlong
          · exact absurd h (show ErrorCode.protocol ≠ .ok by decide)
          · exact absurd h (show ErrorCode.sizel ≠ .ok by decide)
          · exact absurd h (show ErrorCode.sizeh ≠ .ok by decide)
          · refine ⟨rfl, not_not.1 htype, ?_⟩
            simp only [List.length_cons] at hshort hlong
            omega
        | false =>
          right
          simp only [htc, Bool.false_eq_true, if_false] at h ⊢
          by_cases htype : type ≠ MsgType.tlmResp ∧ type ≠ MsgType.tlmRespExt
          · rw [if_pos htype] at h
            exact absurd h (show ErrorCode.protocol ≠ .ok by decide)
          rw [if_neg htype] at h ⊢
          split_ifs at h ⊢ with hshort hlong
          · exact absurd h (show ErrorCode.sizel ≠ .ok by decide)
          · exact absurd h (show ErrorCode.sizeh ≠ .ok by decide)
          · have hlength : rest.length = datalen := by
              simp only [List.length_cons, cspHeaderSize] at hshort hlong
              omega
            have hdata : ((type :: target.id :: rest).drop cspHeaderSize).take datalen = rest := by
              rw [← hlength, cspHeaderSize]
              exact List.take_length
            rw [hdata]
            refine ⟨trivial, ?_, hlength, rfl⟩
            simpa [or_iff_not_imp_left] using htype
    · rw [if_pos hid] at h
      exact absurd h (show ErrorCode.tctlmId ≠ .ok by decide)

/-! ## Calls -/

/-- Telemetry that is got is the one that has come. -/
theorem uart_telemetry {u : UartAnswers} (htlm : target.isTc = false)
    (hclean : Accepted target.passthrough target.id commsBufferSize u.bytes →
      (reader u.bytes).kept.length = datalen → Neat (split u.bytes).1)
    (h : (sendReceiveUart target datalen buffer u).1 = .ok) :
    ∃ data, data.length = datalen ∧ Whole target.passthrough target.id data u.bytes ∧
      (sendReceiveUart target datalen buffer u).2.bytes.take datalen = data := by
  have hreset : ¬target.isReset = true := by simp [Target.isReset, htlm]
  obtain ⟨haccepted, hlength, hbytes⟩ := uart_success hreset h
  refine ⟨_, hlength htlm, haccepted.whole (hclean haccepted (hlength htlm)), ?_⟩
  rw [hbytes]
  exact List.take_left' (hlength htlm)

theorem csp_telemetry_got {c : CspAnswers} (htlm : target.isTc = false)
    (hsize : datalen ≤ commsBufferSize)
    (hclean : ∀ rest, c.packet = some (MsgType.tlmNack :: target.id :: 0 :: rest) →
      (0 :: rest).length ≠ datalen)
    (h : (sendReceiveCsp target datalen buffer c).1 = .ok) :
    ∃ data, data.length = datalen ∧
      (∃ type ∈ [MsgType.tlmResp, MsgType.tlmRespExt], c.packet = some (type :: target.id :: data)) ∧
      (sendReceiveCsp target datalen buffer c).2.bytes.take datalen = data := by
  have hreset : ¬target.isReset = true := by simp [Target.isReset, htlm]
  obtain ⟨reply, hpacket, hlength, hcheck⟩ := csp_success hreset h
  rw [hcheck] at h ⊢
  obtain ⟨type, rest, rfl, ⟨htype, tail, rfl⟩ | ⟨htc, -⟩ | ⟨-, htype, hrest, hstored⟩⟩ :=
    checkCsp_success h
  · have hlong := hlength.resolve_left (by simp [htlm])
    simp only [htlm, Bool.false_eq_true, if_false] at htype
    subst htype
    exact absurd (by simpa [cspHeaderSize] using hlong) (hclean tail hpacket)
  · exact absurd htc (by simp [htlm])
  · refine ⟨rest, hrest, ⟨type, htype, hpacket⟩, ?_⟩
    rw [hstored, CommsBuffer.store, List.take_take, Nat.min_eq_left hsize]
    exact List.take_left' hrest

theorem csp_acknowledged {c : CspAnswers} (htc : target.isTc = true)
    (hreset : ¬target.isReset = true)
    (hclean : ∀ rest, c.packet ≠ some (MsgType.tcNack :: target.id :: 0 :: rest))
    (h : (sendReceiveCsp target datalen buffer c).1 = .ok) :
    ∃ status, c.packet = some [MsgType.tcResp, target.id, status] := by
  obtain ⟨reply, hpacket, -, hcheck⟩ := csp_success hreset h
  rw [hcheck] at h
  obtain ⟨type, rest, rfl, ⟨htype, tail, rfl⟩ | ⟨-, rfl, hrest⟩ | ⟨htlm, -⟩⟩ := checkCsp_success h
  · rw [if_pos htc] at htype
    exact absurd (htype ▸ hpacket) (hclean tail)
  · obtain ⟨status, rfl⟩ := List.length_eq_one_iff.1 hrest
    exact ⟨status, hpacket⟩
  · exact absurd htc (by simp [htlm])

end Send

/-! ## Runs -/

theorem toUInt8_toNat {id : UInt16} (h : id.toNat < 256) : id.toUInt8.toNat = id.toNat := by
  rw [UInt16.toNat_toUInt8]
  exact Nat.mod_eq_of_lt h

theorem isTc_iff (passthrough : Bool) {id : UInt16} (h : id.toNat < 256) :
    Target.isTc ⟨passthrough, id.toUInt8⟩ = true ↔ id.toNat < 128 := by
  rw [Target.isTc, decide_eq_true_iff, UInt8.lt_iff_toNat_lt, toUInt8_toNat h]
  exact Iff.rfl

/-- The identifier of a clean call. -/
theorem Call.Clean.id {passthrough : Bool} {call : Call} (h : call.Clean passthrough) :
    match call with
    | .set cmdId _ _ _ => cmdId.toNat < 128
    | .get tlmId _ _ _ => 128 ≤ tlmId.toNat ∧ tlmId.toNat < 256 := by
  match call, h with
  | .set _ _ _ (.uart _), h => exact h.1
  | .set _ _ _ (.csp _), h => exact h.1
  | .get _ _ _ (.uart _), h => exact h.1
  | .get _ _ _ (.csp _), h => exact h.1

/-- A command that succeeds has been acknowledged. -/
theorem set_truthful {passthrough : Bool} {cmdId : UInt16} {setVal : Option (List UInt8)}
    {size : Nat} {answers : Traffic} (buffer : CommsBuffer)
    (hclean : (Call.set cmdId setVal size answers).Clean passthrough)
    (hreset : cmdId.toNat ≠ idSetReset.toNat)
    (h : (setCommandCommon passthrough cmdId setVal size buffer answers).1 = .ok) :
    answers.Acknowledged passthrough cmdId := by
  have hid : cmdId.toNat < 128 := hclean.id
  have hbyte := toUInt8_toNat (Nat.lt_trans hid (by decide))
  have htc := (isTc_iff passthrough (Nat.lt_trans hid (by decide))).2 hid
  have hother : ¬Target.isReset ⟨passthrough, cmdId.toUInt8⟩ = true := by
    rw [Target.isReset, htc, Bool.true_and, beq_iff_eq, ← UInt8.toNat_inj, hbyte]
    exact hreset
  unfold setCommandCommon cubeObcSendReceive at h
  by_cases hsize : commsBufferSize < size
  · rw [if_pos hsize] at h
    exact absurd h (show ErrorCode.sizeh ≠ .ok by decide)
  by_cases hptr : 0 < size ∧ setVal = none
  · rw [if_neg hsize, if_pos hptr] at h
    exact absurd h (show ErrorCode.nullptr ≠ .ok by decide)
  rw [if_neg hsize, if_neg hptr, if_neg hsize] at h
  cases answers with
  | uart u =>
    have haccepted := (uart_success hother h).1
    exact ⟨_, hbyte, _, haccepted.whole (hclean.2 haccepted)⟩
  | csp c =>
    obtain ⟨status, hpacket⟩ := csp_acknowledged htc hother hclean.2 h
    exact ⟨_, hbyte, status, hpacket⟩

/-- Telemetry that is got has come, and goes to the caller's variable. -/
theorem get_truthful {passthrough : Bool} {tlmId : UInt16} {returnVal : Option (List UInt8)}
    {bufferSize : Nat} {answers : Traffic} (buffer : CommsBuffer)
    (hclean : (Call.get tlmId returnVal bufferSize answers).Clean passthrough) :
    ((getTelemetryCommon passthrough tlmId returnVal bufferSize buffer answers).1 = .ok →
      ∃ data, data.length = bufferSize ∧ answers.Telemetry passthrough tlmId data ∧
        (getTelemetryCommon passthrough tlmId returnVal bufferSize buffer answers).2.1 =
          returnVal.map fun value => data ++ value.drop bufferSize) ∧
    ((getTelemetryCommon passthrough tlmId returnVal bufferSize buffer answers).1 ≠ .ok →
      (getTelemetryCommon passthrough tlmId returnVal bufferSize buffer answers).2.1 =
        returnVal) := by
  have hid : 128 ≤ tlmId.toNat ∧ tlmId.toNat < 256 := hclean.id
  have hbyte := toUInt8_toNat hid.2
  have htlm : Target.isTc ⟨passthrough, tlmId.toUInt8⟩ = false := by
    rw [← Bool.not_eq_true, isTc_iff passthrough hid.2]
    exact Nat.not_lt.2 hid.1
  rw [getTelemetryCommon]
  by_cases hsize : commsBufferSize < bufferSize
  · rw [if_pos hsize]
    exact ⟨fun h => absurd h (show ErrorCode.sizeh ≠ .ok by decide), fun _ => rfl⟩
  by_cases hptr : 0 < bufferSize ∧ returnVal = none
  · rw [if_neg hsize, if_pos hptr]
    exact ⟨fun h => absurd h (show ErrorCode.nullptr ≠ .ok by decide), fun _ => rfl⟩
  rw [if_neg hsize, if_neg hptr]
  have hgot : (cubeObcSendReceive ⟨passthrough, tlmId.toUInt8⟩ bufferSize buffer answers).1 = .ok →
      answers.Telemetry passthrough tlmId
        ((cubeObcSendReceive ⟨passthrough, tlmId.toUInt8⟩ bufferSize buffer answers).2.bytes.take
          bufferSize) ∧
      ((cubeObcSendReceive ⟨passthrough, tlmId.toUInt8⟩ bufferSize buffer answers).2.bytes.take
        bufferSize).length = bufferSize := by
    unfold cubeObcSendReceive
    rw [if_neg hsize]
    intro h
    cases answers with
    | uart u =>
      obtain ⟨data, hlength, hwhole, htake⟩ := uart_telemetry htlm hclean.2 h
      exact ⟨⟨_, hbyte, htake ▸ hwhole⟩, htake ▸ hlength⟩
    | csp c =>
      obtain ⟨data, hlength, ⟨type, htype, hpacket⟩, htake⟩ :=
        csp_telemetry_got htlm (Nat.not_lt.1 hsize) hclean.2 h
      exact ⟨⟨_, hbyte, type, htype, htake ▸ hpacket⟩, htake ▸ hlength⟩
  generalize cubeObcSendReceive ⟨passthrough, tlmId.toUInt8⟩ bufferSize buffer answers = sent at hgot
  obtain ⟨code, buffer⟩ := sent
  by_cases hok : code = .ok
  · subst hok
    obtain ⟨htelemetry, hlength⟩ := hgot rfl
    exact ⟨fun _ => ⟨_, hlength, htelemetry, by simp⟩, fun h => by simp at h⟩
  · simp [hok]

/-- A clean call is true, on any buffer. -/
theorem perform_truthful {passthrough : Bool} {call : Call} (buffer : CommsBuffer)
    (hclean : call.Clean passthrough) :
    Truthful passthrough call (call.perform passthrough buffer).1 := by
  cases call with
  | set cmdId setVal size answers => exact fun hok hreset => set_truthful buffer hclean hreset hok
  | get tlmId returnVal bufferSize answers => exact get_truthful buffer hclean

/-- Telemetry, then a command, over CSP. -/
def twoCalls : List Call :=
  [.get 130 (some [0]) 1 (.csp (.replying [MsgType.tlmResp, 130, 42])),
    .set 5 (some [1]) 1 (.csp (.replying [MsgType.tcResp, 5, 0]))]

end Adcs
end FlightApps
