import FlightApps.Thrust.Answers

/-!
# Runs of the thruster app

What a run does is told by the messages and the answers that the commands accept: for each message
there may be a request to the module, and for each request an answer or none (`plan`).  Whatever comes
on the line, a run is one of these, and the answers are packets that lie on the line one after the
other (`appMain_answered`).  As long as the module's packets come in time, the answers are these
packets (`appMain_inTurn`).
-/

set_option autoImplicit false

namespace FlightApps
namespace Thrust

/-! ## What a message asks for -/

/-- A request of a ground command with `n` bytes of arguments, which are passed on. -/
def Message.request (m : Message) (msgId : UInt8) (n : Nat) (hn : n ≤ nMax)
    (succeed : AppData → AppData × Code) : Option Request :=
  if h : m.payload.length = n then some (defaultRequest msgId m.payload succeed (h ▸ hn)) else none

/-- A request of a ground command for data. -/
def Message.requestData (m : Message) (msgId replyLen : UInt8) (take : Bytes → AppData → AppData) :
    Option Request :=
  if m.payload.length = 0 then some (dataRequest msgId replyLen fun value d => (take value d).cmd)
  else none

/-- What arming makes of a success. -/
def armed (d : AppData) : AppData × Code :=
  if d.interlockFlags ≠ 0 then (d, .errInterlock) else tracked modeArmed 5 d

/-- The ignition takes less time than the whole. -/
def Message.Fires (m : Message) : Prop :=
  (mainFirePayload.read m.payload).2.1.toNat < (mainFirePayload.read m.payload).1.toNat

instance (m : Message) : Decidable m.Fires := inferInstanceAs (Decidable (_ < _))

/-- What a ground command asks the module. -/
def groundRequest (m : Message) : Option Request :=
  match m.fcnCode.toNat with
  | 2 => m.request 1 0 (by decide) kept
  | 3 => m.request 2 4 (by decide) kept
  | 4 => m.request 3 4 (by decide) (tracked (Layout.u32.read m.payload) 4)
  | 5 => m.request 4 4 (by decide) armed
  | 6 => m.request 5 0 (by decide) (tracked modeStandby 6)
  | 7 => m.requestData 11 16 AppData.synchronize
  | 8 => if m.Fires then m.request 20 8 (by decide) (tracked modeFiring 8) else none
  | 9 => m.request 21 0 (by decide) kept
  | 10 => m.request 30 8 (by decide) kept
  | 11 => m.request 31 0 (by decide) kept
  | 12 => m.requestData 40 40 fun _ d => d
  | 13 => m.request 41 0 (by decide) kept
  | 14 => m.requestData 10 48 fun _ d => d
  | _ => none

/-- What a message asks the module. -/
def asks (d : AppData) (m : Message) : Option Request :=
  if m.mid = cmdMid then groundRequest m
  else if m.mid = sendHkMid ∧ m.payload.length = 0 ∧ d.scheduledHkEnabled ≠ 0 then
    some (dataRequest 10 48 fun _ d => d)
  else none

/-- What a message changes where nothing is asked. -/
def locally (m : Message) (d : AppData) : AppData :=
  if m.mid = cmdMid then
    if m.fcnCode = 0 ∧ m.payload.length = 0 then d.cmd
    else if m.fcnCode = 1 ∧ m.payload.length = 0 then { d with cmdCounter := 0, errCounter := 0 }
    else if m.fcnCode = 15 ∧ m.payload.length = 1 ∧ Layout.u8.read m.payload ≤ 1 then
      { d with scheduledHkEnabled := Layout.u8.read m.payload }.cmd
    else d.err
  else if m.mid = sendHkMid ∧ m.payload.length = 0 then d
  else d.err

/-- What a request changes, by its answer. -/
def settle (r : Request) (d : AppData) : Option Packet → AppData
  | none => d.err
  | some p => r.take p.payload d

/-- **The abstract app**: what is sent to the module for messages with their answers, and what the app
knows then. -/
def plan (d : AppData) : List (Message × Option Packet) → List Bytes × AppData
  | [] => ([], d)
  | (m, reply) :: rest =>
    match asks d m with
    | none => plan (locally m d) rest
    | some r => (r.packet.bytes :: (plan (settle r d reply) rest).1, (plan (settle r d reply) rest).2)

/-! ## One message -/

/-- Commands that do not go to the module. -/
def localCommands : List UInt8 := [0, 1, 15]

/-- What is reported: a success of a command that goes to the module carries the packet that has
answered it. -/
def Told (reports reports' : List Report) (reply : Option Packet) : Prop :=
  ∃ new, reports' = reports ++ new ∧ ∀ report ∈ new, report.returnType = .success →
    report.commandCode ∉ localCommands → ∃ p, reply = some p ∧ report.returnValue = p.bytes

/-- What a message does to the app. -/
inductive Handled (m : Message) (e : Setting) (a a' : App) : Option Packet → Prop
  | alone (hasks : asks a.data m = none) (data : a'.data = locally m a.data)
      (device : a'.device = a.device) (told : Told a.reports a'.reports none) : Handled m e a a' none
  | asked (r : Request) (hasks : asks a.data m = some r) (reply : Option Packet)
      (data : a'.data = settle r a.data reply)
      (exchanged : Exchanged r.Answered e r a.device a'.device reply)
      (told : Told a.reports a'.reports reply) : Handled m e a a' reply

theorem retType_success_iff (status : Code) : retType status = .success ↔ status = .success := by
  rw [retType]
  split
  · rename_i h
    exact iff_of_true rfl h
  · rename_i h
    refine iff_of_false ?_ h
    split <;> simp

theorem Exchanged.lastResponse {good : Packet → Prop} {e : Setting} {r : Request} {d d' : Device}
    {p : Packet} (h : Exchanged good e r d d' (some p)) : d'.lastResponse = p.bytes := by
  cases h with
  | answered p _ _ _ _ _ hlast => exact hlast

theorem take_bytes (p : Packet) : p.bytes.take retValueBufSize = p.bytes := by
  refine List.take_of_length_le (Nat.le_trans p.length_bytes_le ?_)
  decide

/-- A report with the last response. -/
theorem told_device {good : Packet → Prop} {e : Setting} {r : Request} {d : Device} {a : App}
    {reports : List Report} {reply : Option Packet} (h : Exchanged good e r d a.device reply)
    (ha : a.reports = reports) {code : Code} (cc : UInt8) (hcode : code = .success → reply ≠ none) :
    Told reports (a.deviceReport code cc).reports reply := by
  refine ⟨_, congrArg (· ++ _) ha, fun report hreport hok _ => ?_⟩
  rw [List.mem_singleton.1 hreport] at hok ⊢
  obtain ⟨p, rfl⟩ := Option.ne_none_iff_exists'.1 (hcode ((retType_success_iff code).1 hok))
  exact ⟨p, rfl, by rw [h.lastResponse, take_bytes]⟩

/-- A report of a failure. -/
theorem told_failure (a : App) (msgId : UInt16) {code : Code} (hcode : code ≠ .success) (cc : UInt8)
    (data : Bytes) : Told a.reports (a.reportForMid msgId code cc data).reports none := by
  refine ⟨_, rfl, fun report hreport hok => absurd ?_ hcode⟩
  rw [List.mem_singleton.1 hreport] at hok
  exact (retType_success_iff code).1 hok

/-- A report of a command that does not go to the module. -/
theorem told_local (a : App) (code : Code) {cc : UInt8} (hcc : cc ∈ localCommands) (data : Bytes) :
    Told a.reports (a.report code cc data).reports none := by
  refine ⟨_, rfl, fun report hreport _ hnot => absurd ?_ hnot⟩
  rw [List.mem_singleton.1 hreport]
  exact hcc

theorem respondedCmd_spec {msgId : UInt8} {payload : Bytes} {succeed : AppData → AppData × Code}
    {fits : payload.length ≤ nMax} {arg : Option Bytes} {n : UInt8} (cc : UInt8)
    (hn : n = UInt8.ofNat payload.length) (harg : arg = some payload ∨ payload = [] ∧ arg = none)
    (e : Setting) (a : App) :
    let r := defaultRequest msgId payload succeed fits
    ∃ a' reply, respondedCmd cc (defaultCommand msgId n arg) succeed e a = some a' ∧
      a'.data = settle r a.data reply ∧ Exchanged r.Answered e r a.device a'.device reply ∧
      Told a.reports a'.reports reply := by
  intro r
  obtain ⟨status, resp, d', reply, heq, hex, hret⟩ :=
    @defaultCommand_spec _ _ succeed fits _ _ hn harg ⟨0, 0, 0, 0⟩ e a.device
  rw [respondedCmd, heq, Option.map_some]
  cases reply with
  | none =>
    have hne : Code.device status ≠ .success := fun h => hret (Code.device.inj h)
    dsimp only
    rw [if_neg hret]
    exact ⟨_, none, rfl, if_pos hne, hex, told_device hex rfl cc fun h => absurd h hne⟩
  | some p =>
    obtain ⟨rfl, rfl⟩ := hret
    exact ⟨_, some p, rfl, rfl, hex, told_device hex rfl cc (by simp)⟩

theorem requestedCmd_spec {msgId replyLen : UInt8} {take : Bytes → AppData → AppData} (cc : UInt8)
    (size : Nat) (e : Setting) (a : App) :
    let r := dataRequest msgId replyLen fun value d => (take value d).cmd
    ∃ a' reply, requestedCmd cc size (dataCommand msgId replyLen) take e a = some a' ∧
      a'.data = settle r a.data reply ∧ Exchanged r.Answered e r a.device a'.device reply ∧
      Told a.reports a'.reports reply := by
  intro r
  obtain ⟨status, value, d', reply, heq, hex, hret⟩ :=
    @dataCommand_spec msgId replyLen (fun value d => (take value d).cmd) (List.replicate size 0) e
      a.device
  rw [requestedCmd, heq, Option.map_some]
  cases reply with
  | none =>
    have hne : Code.device status ≠ .success := fun h => hret (Code.device.inj h)
    dsimp only
    rw [if_neg hret]
    exact ⟨_, none, rfl, if_pos hne, hex, told_device hex rfl cc fun h => absurd h hne⟩
  | some p =>
    obtain ⟨rfl, rfl⟩ := hret
    exact ⟨_, some p, rfl, rfl, hex, told_device hex rfl cc (by simp)⟩

theorem sendScheduledHkCmd_spec (e : Setting) {a : App} (h : a.data.scheduledHkEnabled ≠ 0) :
    let r := dataRequest 10 48 fun _ d => d
    ∃ a' reply, sendScheduledHkCmd e a = some a' ∧ a'.data = settle r a.data reply ∧
      Exchanged r.Answered e r a.device a'.device reply ∧ Told a.reports a'.reports reply := by
  intro r
  obtain ⟨status, value, d', reply, heq, hex, hret⟩ :=
    @dataCommand_spec 10 48 (fun _ d => d) (List.replicate 48 0) e a.device
  have heq : getHKData (some (List.replicate 48 0)) e a.device = some (status, value, d') := heq
  have htold : Told a.reports a.reports reply := ⟨[], (List.append_nil _).symm, by simp⟩
  rw [sendScheduledHkCmd, if_neg h, heq, Option.map_some]
  cases reply with
  | none => exact ⟨_, none, rfl, if_pos hret, hex, htold⟩
  | some p =>
    obtain ⟨rfl, rfl⟩ := hret
    exact ⟨_, some p, rfl, rfl, hex, htold⟩

/-- A message of the wrong length. -/
theorem verified_spec {m : Message} {e : Setting} {a : App} {n : Nat} {handler : App → Option App}
    (hshort : m.payload.length ≠ n → asks a.data m = none ∧ locally m a.data = a.data.err)
    (h : m.payload.length = n → ∃ a' reply, handler a = some a' ∧ Handled m e a a' reply) :
    ∃ a' reply, a.verified m n handler = some a' ∧ Handled m e a a' reply := by
  rw [App.verified, Message.size]
  by_cases hlen : m.payload.length = n
  · rw [if_neg (by omega)]
    exact h hlen
  · rw [if_pos (by omega)]
    obtain ⟨hasks, hlocally⟩ := hshort hlen
    exact ⟨_, none, rfl, .alone hasks hlocally.symm rfl
      (told_failure { a with data := a.data.err } m.mid (by decide) _ _)⟩

section Ground

variable {m : Message} {e : Setting} {a : App} {handler : App → Option App}

theorem locally_err (hmid : m.mid = cmdMid) {k : Nat} (hcode : m.fcnCode.toNat = k)
    (hk : k ≠ 0 ∧ k ≠ 1 ∧ k ≠ 15) (d : AppData) : locally m d = d.err := by
  have hne : ∀ c : UInt16, k ≠ c.toNat → m.fcnCode ≠ c := fun c hc h => hc (by rw [← hcode, h])
  rw [locally, if_pos hmid, if_neg fun h => hne 0 hk.1 h.1, if_neg fun h => hne 1 hk.2.1 h.1,
    if_neg fun h => hne 15 hk.2.2 h.1]

theorem asks_none (hmid : m.mid = cmdMid) (hground : groundRequest m = none) (d : AppData) :
    asks d m = none := by
  rw [asks, if_pos hmid, hground]

/-- A command with a default response. -/
theorem verified_request {msgId cc : UInt8} {n : Nat} {succeed : AppData → AppData × Code}
    {arg : Option Bytes} (hmid : m.mid = cmdMid) (hn : n ≤ nMax)
    (hground : groundRequest m = m.request msgId n hn succeed)
    (herr : locally m a.data = a.data.err)
    (hhandler : m.payload.length = n →
      handler a = respondedCmd cc (defaultCommand msgId (UInt8.ofNat n) arg) succeed e a)
    (harg : m.payload.length = n → arg = some m.payload ∨ n = 0 ∧ arg = none) :
    ∃ a' reply, a.verified m n handler = some a' ∧ Handled m e a a' reply := by
  refine verified_spec (fun hne => ⟨asks_none hmid ?_ _, herr⟩) fun hlen => ?_
  · rw [hground, Message.request, dif_neg hne]
  · have hempty : n = 0 → m.payload = [] := fun h => List.eq_nil_of_length_eq_zero (hlen.trans h)
    obtain ⟨a', reply, heq, hdata, hex, htold⟩ := @respondedCmd_spec msgId m.payload succeed
      (hlen ▸ hn) arg (UInt8.ofNat n) cc (by rw [hlen])
      ((harg hlen).imp_right fun h => ⟨hempty h.1, h.2⟩) e a
    refine ⟨a', reply, (hhandler hlen).trans heq, .asked _ ?_ reply hdata hex htold⟩
    rw [asks, if_pos hmid, hground, Message.request, dif_pos hlen]

/-- A command that is answered with data. -/
theorem verified_requestData {msgId replyLen cc : UInt8} {size : Nat}
    {take : Bytes → AppData → AppData} (hmid : m.mid = cmdMid)
    (hground : groundRequest m = m.requestData msgId replyLen take)
    (herr : locally m a.data = a.data.err)
    (hhandler : handler = requestedCmd cc size (dataCommand msgId replyLen) take e) :
    ∃ a' reply, a.verified m 0 handler = some a' ∧ Handled m e a a' reply := by
  subst hhandler
  refine verified_spec (fun hne => ⟨asks_none hmid ?_ _, herr⟩) fun hlen => ?_
  · rw [hground, Message.requestData, if_neg hne]
  · obtain ⟨a', reply, heq, hdata, hex, htold⟩ := @requestedCmd_spec msgId replyLen take cc size e a
    refine ⟨a', reply, heq, .asked _ ?_ reply hdata hex htold⟩
    rw [asks, if_pos hmid, hground, Message.requestData, if_pos hlen]

/-- A command that does not go to the module. -/
theorem verified_local {n : Nat} {f : App → App} (hmid : m.mid = cmdMid)
    (hground : groundRequest m = none)
    (hshort : m.payload.length ≠ n → locally m a.data = a.data.err)
    (hdata : m.payload.length = n → (f a).data = locally m a.data)
    (hdevice : (f a).device = a.device) (htold : Told a.reports (f a).reports none) :
    ∃ a' reply, a.verified m n (fun a => some (f a)) = some a' ∧ Handled m e a a' reply :=
  verified_spec (fun hne => ⟨asks_none hmid hground _, hshort hne⟩) fun hlen =>
    ⟨f a, none, rfl, .alone (asks_none hmid hground _) (hdata hlen) hdevice htold⟩

theorem mainThrusterFireCmd_spec (hmid : m.mid = cmdMid) (hcode : m.fcnCode.toNat = 8) :
    ∃ a' reply, a.verified m 8
      (mainThrusterFireCmd (mainFirePayload.read m.payload).1 (mainFirePayload.read m.payload).2.1
        (mainFirePayload.read m.payload).2.2 e) = some a' ∧ Handled m e a a' reply := by
  have herr : locally m a.data = a.data.err := locally_err hmid hcode (by omega) _
  by_cases hfires : m.Fires
  · refine @verified_request m e a _ 20 8 8 (tracked modeFiring 8) _ hmid (by decide) ?_ herr
      (fun _ => ?_) fun hlen => .inl (congrArg some (pack_mainFire hlen))
    · simp only [groundRequest, hcode, if_pos hfires]
    · rw [mainThrusterFireCmd, if_neg (Nat.not_le.2 hfires)]
      rfl
  · have hground : groundRequest m = none := by simp only [groundRequest, hcode, if_neg hfires]
    refine verified_spec (fun _ => ⟨asks_none hmid hground _, herr⟩) fun _ => ?_
    rw [mainThrusterFireCmd, if_pos (Nat.not_lt.1 hfires)]
    exact ⟨_, none, rfl, .alone (asks_none hmid hground _) herr.symm rfl
      (told_failure { a with data := a.data.err } cmdMid (by decide) _ _)⟩

theorem fcnCode_of {k : Nat} (hcode : m.fcnCode.toNat = k) {c : UInt16} (hc : c.toNat = k) :
    m.fcnCode = c := UInt16.toNat_inj.1 (hcode.trans hc.symm)

/-- What is switched, and that the module is not asked. -/
theorem scheduledHkEnableCmd_spec (enabled : UInt8) (a : App) :
    (scheduledHkEnableCmd enabled a).data =
        (if enabled ≤ 1 then { a.data with scheduledHkEnabled := enabled }.cmd else a.data.err) ∧
      (scheduledHkEnableCmd enabled a).device = a.device ∧
      Told a.reports (scheduledHkEnableCmd enabled a).reports none := by
  rw [scheduledHkEnableCmd]
  by_cases h : enabled ≤ 1
  · rw [if_neg (UInt8.not_lt.2 h), if_pos h]
    exact ⟨rfl, rfl, told_local { a with data := _ } .success (by decide) _⟩
  · rw [if_pos (UInt8.not_le.1 h), if_neg h]
    exact ⟨rfl, rfl, told_local { a with data := _ } .esBadArgument (by decide) _⟩

/-- Each ground command. -/
theorem processGroundCommand_handled (hmid : m.mid = cmdMid) :
    ∃ a' reply, processGroundCommand m e a = some a' ∧ Handled m e a a' reply := by
  unfold processGroundCommand
  split <;> rename_i hcode
  case h_1 =>
    have hzero : m.fcnCode = 0 := fcnCode_of hcode rfl
    refine verified_local hmid (by simp only [groundRequest, hcode]) (fun hne => ?_) (fun heq => ?_) rfl
      (told_local { a with data := a.data.cmd } .success (by decide) _)
    · rw [locally, if_pos hmid, if_neg fun h => hne h.2, hzero]
      rfl
    · rw [locally, if_pos hmid, if_pos ⟨hzero, heq⟩]
      rfl
  case h_2 =>
    have hone : m.fcnCode = 1 := fcnCode_of hcode rfl
    refine verified_local hmid (by simp only [groundRequest, hcode]) (fun hne => ?_) (fun heq => ?_) rfl
      (told_local { a with data := { a.data with cmdCounter := 0, errCounter := 0 } } .success
        (by decide) [])
    · rw [locally, if_pos hmid, if_neg (by simp [hone]), if_neg fun h => hne h.2, if_neg (by simp [hone])]
    · rw [locally, if_pos hmid, if_neg (by simp [hone]), if_pos ⟨hone, heq⟩]
      rfl
  case h_16 =>
    have hcc : m.fcnCode = 15 := fcnCode_of hcode rfl
    obtain ⟨hdata, hdevice, htold⟩ := scheduledHkEnableCmd_spec (Layout.u8.read m.payload) a
    refine verified_local hmid (by simp only [groundRequest, hcode]) (fun hne => ?_) (fun heq => ?_)
      hdevice htold
    · rw [locally, if_pos hmid, if_neg (by simp [hcc]), if_neg (by simp [hcc]), if_neg fun h => hne h.2.1]
    · rw [locally, if_pos hmid, if_neg (by simp [hcc]), if_neg (by simp [hcc])]
      simp only [hcc, heq, true_and]
      exact hdata
  case h_17 =>
    refine ⟨_, none, rfl, .alone (asks_none hmid ?_ _) ?_ rfl
      (told_failure { a with data := a.data.err } cmdMid (by decide) _ _)⟩
    · rw [groundRequest]
      split <;> first | rfl | contradiction
    · exact (locally_err hmid rfl ⟨by assumption, by assumption, by assumption⟩ _).symm
  case h_8 | h_13 | h_15 =>
    exact verified_requestData hmid (by simp only [groundRequest, hcode])
      (locally_err hmid hcode (by omega) _) rfl
  case h_9 => exact mainThrusterFireCmd_spec hmid hcode
  case h_4 | h_5 =>
    exact verified_request hmid (by decide) (by simp only [groundRequest, hcode])
      (locally_err hmid hcode (by omega) _) (fun _ => rfl)
      fun hlen => .inl (congrArg some (pack_mode hlen))
  case h_6 =>
    exact @verified_request m e a _ 4 5 4 armed _ hmid (by decide) (by simp only [groundRequest, hcode])
      (locally_err hmid hcode (by omega) _) (fun _ => rfl)
      fun hlen => .inl (congrArg some (pack_arm hlen))
  case h_11 =>
    exact verified_request hmid (by decide) (by simp only [groundRequest, hcode])
      (locally_err hmid hcode (by omega) _) (fun _ => rfl)
      fun hlen => .inl (congrArg some (pack_cgPulse hlen))
  all_goals
    exact verified_request hmid (by decide) (by simp only [groundRequest, hcode])
      (locally_err hmid hcode (by omega) _) (fun _ => rfl) fun _ => .inr ⟨rfl, rfl⟩

end Ground

theorem taskPipe_handled (m : Message) (e : Setting) (a : App) :
    ∃ a' reply, taskPipe m e a = some a' ∧ Handled m e a a' reply := by
  rw [taskPipe]
  by_cases hmid : m.mid = cmdMid
  · rw [if_pos hmid]
    exact processGroundCommand_handled hmid
  rw [if_neg hmid]
  by_cases hhk : m.mid = sendHkMid
  · rw [if_pos hhk]
    refine verified_spec (fun hne => ⟨?_, ?_⟩) fun hlen => ?_
    · rw [asks, if_neg hmid, if_neg fun h => hne h.2.1]
    · rw [locally, if_neg hmid, if_neg fun h => hne h.2]
    by_cases hoff : a.data.scheduledHkEnabled = 0
    · rw [sendScheduledHkCmd, if_pos hoff]
      refine ⟨a, none, rfl, .alone ?_ ?_ rfl ⟨[], (List.append_nil _).symm, by simp⟩⟩
      · rw [asks, if_neg hmid, if_neg fun h => h.2.2 hoff]
      · rw [locally, if_neg hmid, if_pos ⟨hhk, hlen⟩]
    · obtain ⟨a', reply, heq, hdata, hex, htold⟩ := sendScheduledHkCmd_spec e hoff
      refine ⟨a', reply, heq, .asked _ ?_ reply hdata hex htold⟩
      rw [asks, if_neg hmid, if_pos ⟨hhk, hlen, hoff⟩]
  · rw [if_neg hhk]
    refine ⟨_, none, rfl, .alone ?_ ?_ rfl
      (told_failure { a with data := a.data.err } m.mid (by decide) _ _)⟩
    · rw [asks, if_neg hmid, if_neg fun h => hhk h.1]
    · rw [locally, if_neg hmid, if_neg fun h => hhk h.1]
      rfl

/-! ## Runs -/

/-- Pieces that lie in what comes, one after the other and apart. -/
def InOrder : List Bytes → Bytes → Prop
  | [], _ => True
  | piece :: pieces, whole => ∃ gap rest, whole = gap ++ (piece ++ rest) ∧ InOrder pieces rest

theorem InOrder.of_suffix {pieces : List Bytes} {xs ys : Bytes} (h : InOrder pieces ys)
    (hsuffix : ys <:+ xs) : InOrder pieces xs := by
  cases pieces with
  | nil => trivial
  | cons piece pieces =>
    obtain ⟨gap, rest, rfl, hrest⟩ := h
    obtain ⟨front, rfl⟩ := hsuffix
    exact ⟨front ++ gap, rest, (List.append_assoc _ _ _).symm, hrest⟩

/-- Each answer is one to the request of its message. -/
def Sound (d : AppData) : List (Message × Option Packet) → Prop
  | [] => True
  | (m, reply) :: rest =>
    match asks d m with
    | none => reply = none ∧ Sound (locally m d) rest
    | some r => (∀ p, reply = some p → r.Answered p) ∧ Sound (settle r d reply) rest

theorem Exchanged.wire {good : Packet → Prop} {e : Setting} {r : Request} {d d' : Device}
    {reply : Option Packet} (h : Exchanged good e r d d' reply) :
    d'.wire = d.wire ++ [r.packet.bytes] := by
  cases h with
  | answered _ wire => exact wire
  | unanswered wire => exact wire

/-- What lies on the line after an exchange, and before it. -/
theorem Exchanged.inOrder {good : Packet → Prop} {e : Setting} {r : Request} {d d' : Device}
    {reply : Option Packet} (h : Exchanged good e r d d' reply) {pieces : List Bytes}
    (hrest : InOrder pieces d'.line.all) :
    InOrder (reply.toList.map Packet.bytes ++ pieces) d.line.all := by
  cases h with
  | answered p _ _ comes _ line _ =>
    rw [line, Polled.all_after comes.2.length_le] at hrest
    refine ⟨[], _, ?_, hrest⟩
    obtain ⟨rest, heq⟩ := comes.2.trans (d.line.arrived_starts_all 7)
    rw [← heq, List.drop_left, List.nil_append]
  | unanswered _ all => exact hrest.of_suffix all

/-- The reports of a run: a success of a command that goes to the module carries one of the answers. -/
def Reported (reports reports' : List Report) (replies : List (Option Packet)) : Prop :=
  ∃ new, reports' = reports ++ new ∧ ∀ report ∈ new, report.returnType = .success →
    report.commandCode ∉ localCommands → ∃ p, some p ∈ replies ∧ report.returnValue = p.bytes

theorem Told.reported {reports reports' reports'' : List Report} {reply : Option Packet}
    {replies : List (Option Packet)} (h : Told reports reports' reply)
    (hrest : Reported reports' reports'' replies) :
    Reported reports reports'' (reply :: replies) := by
  obtain ⟨new, rfl, hnew⟩ := h
  obtain ⟨more, rfl, hmore⟩ := hrest
  refine ⟨new ++ more, List.append_assoc _ _ _, fun report hreport hok hcc => ?_⟩
  rcases List.mem_append.1 hreport with hmem | hmem
  · obtain ⟨p, rfl, hp⟩ := hnew report hmem hok hcc
    exact ⟨p, List.mem_cons_self, hp⟩
  · obtain ⟨p, hp, hvalue⟩ := hmore report hmem hok hcc
    exact ⟨p, List.mem_cons_of_mem _ hp, hvalue⟩

/-- What a run comes to, by the answers of its messages. -/
structure Outcome (a a' : App) (ms : List Message) (replies : List (Option Packet)) : Prop where
  length : replies.length = ms.length
  sound : Sound a.data (ms.zip replies)
  data : a'.data = (plan a.data (ms.zip replies)).2
  wire : a'.device.wire = a.device.wire ++ (plan a.data (ms.zip replies)).1
  reported : Reported a.reports a'.reports replies

theorem Outcome.nil (a : App) : Outcome a a [] [] :=
  ⟨rfl, trivial, rfl, (List.append_nil _).symm, [], (List.append_nil _).symm, by simp⟩

/-- One message more. -/
theorem Outcome.cons {m : Message} {e : Setting} {a b a' : App} {ms : List Message}
    {reply : Option Packet} {replies : List (Option Packet)} (h : Handled m e a b reply)
    (hrest : Outcome b a' ms replies) : Outcome a a' (m :: ms) (reply :: replies) := by
  obtain ⟨hlength, hsound, hdata, hwire, hreported⟩ := hrest
  cases h with
  | alone hasks data device told =>
    rw [data] at hsound hdata hwire
    refine ⟨congrArg (· + 1) hlength, ?_, ?_, ?_, told.reported hreported⟩
    · rw [List.zip_cons_cons, Sound, hasks]
      exact ⟨rfl, hsound⟩
    · rw [List.zip_cons_cons, plan, hasks]
      exact hdata
    · rw [List.zip_cons_cons, plan, hasks, ← device]
      exact hwire
  | asked r hasks reply data exchanged told =>
    rw [data] at hsound hdata hwire
    refine ⟨congrArg (· + 1) hlength, ?_, ?_, ?_, told.reported hreported⟩
    · rw [List.zip_cons_cons, Sound, hasks]
      refine ⟨fun p hp => ?_, hsound⟩
      subst hp
      exact exchanged.good
    · rw [List.zip_cons_cons, plan, hasks]
      exact hdata
    · rw [List.zip_cons_cons, plan, hasks, hwire, exchanged.wire, List.append_assoc]
      rfl

theorem Handled.inOrder {m : Message} {e : Setting} {a a' : App} {reply : Option Packet}
    (h : Handled m e a a' reply) {pieces : List Bytes} (hrest : InOrder pieces a'.device.line.all) :
    InOrder (reply.toList.map Packet.bytes ++ pieces) a.device.line.all := by
  cases h with
  | alone _ _ device _ =>
    rw [device] at hrest
    exact hrest
  | asked _ _ _ _ exchanged _ => exact exchanged.inOrder hrest

instance (r : Request) (p : Packet) : Decidable (r.Matches p) :=
  inferInstanceAs (Decidable (_ ∧ _ ∧ _))

instance (r : Request) (p : Packet) : Decidable (r.Answered p) := inferInstanceAs (Decidable (_ ∧ _))

instance (e : Setting) (r : Request) : Decidable (e.Writes r) := inferInstanceAs (Decidable (_ = _))

/-- The packet that comes for a request, if it is an answer to it. -/
def Request.accept (r : Request) (p : Packet) : Option Packet := if r.Answered p then some p else none

/-- The answers, if the module sends these packets: one for each packet that has been written. -/
def inTurn (d : AppData) : List (Message × Setting) → List Packet → List (Option Packet)
  | [], _ => []
  | (m, e) :: ms, packets =>
    match asks d m with
    | none => none :: inTurn (locally m d) ms packets
    | some r =>
      if e.Writes r then
        match packets with
        | [] => none :: inTurn d.err ms []
        | p :: packets => r.accept p :: inTurn (settle r d (r.accept p)) ms packets
      else none :: inTurn d.err ms packets

/-- For each packet that has been written one has come whole when it is received, and these are the
packets. -/
def InTurn (d : AppData) (line : Polled UInt8) : List (Message × Setting) → List Packet → Prop
  | [], packets => packets = []
  | (m, e) :: ms, packets =>
    match asks d m with
    | none => InTurn (locally m d) line ms packets
    | some r =>
      if e.Writes r then ∃ p rest, packets = p :: rest ∧ Comes line p ∧
        InTurn (settle r d (r.accept p)) (line.after 7 p.bytes.length) ms rest
      else InTurn d.err line ms packets

/-- What an exchange comes to where a packet has come. -/
theorem Exchanged.accepts {e : Setting} {r : Request} {d d' : Device} {reply : Option Packet}
    (h : Exchanged r.Answered e r d d' reply) (hwrites : e.Writes r) {p : Packet}
    (hp : Comes d.line p) : reply = r.accept p ∧ d'.line = d.line.after 7 p.bytes.length := by
  cases h with
  | answered q _ _ comes hgood line _ =>
    obtain rfl := comes.unique hp
    exact ⟨(if_pos hgood).symm, line⟩
  | unanswered _ _ _ wrong =>
    obtain ⟨hbad, hline⟩ := wrong hwrites p hp
    exact ⟨(if_neg hbad).symm, hline⟩

/-- What an exchange comes to where nothing has been written. -/
theorem Exchanged.silent {e : Setting} {r : Request} {d d' : Device} {reply : Option Packet}
    (h : Exchanged r.Answered e r d d' reply) (hwrites : ¬e.Writes r) :
    reply = none ∧ d'.line = d.line := by
  cases h with
  | answered _ _ writes => exact absurd writes hwrites
  | unanswered _ _ silent _ => exact ⟨rfl, silent hwrites⟩

theorem request_eq {m : Message} {msgId : UInt8} {n : Nat} {hn : n ≤ nMax}
    {succeed : AppData → AppData × Code} {r : Request} (h : m.request msgId n hn succeed = some r) :
    r.msgId = msgId ∧ r.payload = m.payload := by
  rw [Message.request] at h
  split at h
  · rw [← Option.some.inj h]
    exact ⟨rfl, rfl⟩
  · simp at h

theorem requestData_eq {m : Message} {msgId replyLen : UInt8} {take : Bytes → AppData → AppData}
    {r : Request} (h : m.requestData msgId replyLen take = some r) :
    r.msgId = msgId ∧ r.payload = m.payload := by
  rw [Message.requestData] at h
  split at h
  · rename_i hlen
    rw [← Option.some.inj h]
    exact ⟨rfl, (List.eq_nil_of_length_eq_zero hlen).symm⟩
  · simp at h

/-- What goes to the module for a message: a packet of command type with the arguments of the message.
Fire and pulse packets go for their own commands only, and a fire packet only with an ignition that is
shorter than the whole. -/
structure Transmits (m : Message) (bytes : Bytes) (p : Packet) : Prop where
  bytes : bytes = p.bytes
  version : p.version = pktVersion
  msgType : p.msgType = msgTypeTC
  payload : p.payload = m.payload
  fire : p.msgId = 20 → m.mid = cmdMid ∧ m.fcnCode = 8 ∧ m.Fires
  pulse : p.msgId = 30 → m.mid = cmdMid ∧ m.fcnCode = 10

theorem groundRequest_eq {m : Message} {r : Request} (h : groundRequest m = some r) :
    r.payload = m.payload ∧ (r.msgId = 20 → m.fcnCode = 8 ∧ m.Fires) ∧
      (r.msgId = 30 → m.fcnCode = 10) := by
  have hother : ∀ id : UInt8, id ≠ 20 ∧ id ≠ 30 → r.msgId = id ∧ r.payload = m.payload →
      r.payload = m.payload ∧ (r.msgId = 20 → m.fcnCode = 8 ∧ m.Fires) ∧
        (r.msgId = 30 → m.fcnCode = 10) := fun id hid hr =>
    ⟨hr.2, fun h20 => absurd (hr.1.symm.trans h20) hid.1, fun h30 => absurd (hr.1.symm.trans h30) hid.2⟩
  unfold groundRequest at h
  split at h <;> rename_i hcode
  case h_7 =>
    split at h
    · rename_i hfires
      obtain ⟨hid, hpayload⟩ := request_eq h
      exact ⟨hpayload, fun _ => ⟨fcnCode_of hcode rfl, hfires⟩, fun h30 => by simp [hid] at h30⟩
    · simp at h
  case h_9 =>
    obtain ⟨hid, hpayload⟩ := request_eq h
    exact ⟨hpayload, fun h20 => by simp [hid] at h20, fun _ => fcnCode_of hcode rfl⟩
  case h_6 | h_11 | h_13 => exact hother _ (by decide) (requestData_eq h)
  case h_14 => simp at h
  all_goals exact hother _ (by decide) (request_eq h)

theorem asks_transmits {d : AppData} {m : Message} {r : Request} (h : asks d m = some r) :
    Transmits m r.packet.bytes r.packet := by
  rw [asks] at h
  split at h
  · rename_i hmid
    obtain ⟨hpayload, hfire, hpulse⟩ := groundRequest_eq h
    exact ⟨rfl, rfl, rfl, hpayload, fun h => ⟨hmid, hfire h⟩, fun h => ⟨hmid, hpulse h⟩⟩
  · split at h
    · rename_i hhk
      rw [← Option.some.inj h]
      exact ⟨rfl, rfl, rfl, (List.eq_nil_of_length_eq_zero hhk.2.1).symm,
        fun h => absurd h (by decide), fun h => absurd h (by decide)⟩
    · simp at h

/-- **What goes to the module.**  In every run at most one packet for each message, in the order of the
messages. -/
theorem appMain_transmits (ms : List (Message × Setting)) (a : App) :
    ∃ a' new sent, appMain a ms = some a' ∧ a'.device.wire = a.device.wire ++ new ∧
      sent.Sublist (ms.map Prod.fst) ∧
      List.Forall₂ (fun m bytes => ∃ p, Transmits m bytes p) sent new := by
  induction ms generalizing a with
  | nil => exact ⟨a, [], [], rfl, (List.append_nil _).symm, .slnil, .nil⟩
  | cons me ms ih =>
    obtain ⟨m, e⟩ := me
    obtain ⟨b, reply, hstep, hhandled⟩ := taskPipe_handled m e a
    obtain ⟨a', new, sent, hrun, hwire, hsub, hall⟩ := ih b
    have hrun' : appMain a ((m, e) :: ms) = some a' := by
      rw [appMain, hstep, Option.bind_some, hrun]
    cases hhandled with
    | alone _ _ device _ => exact ⟨a', new, sent, hrun', by rw [← device, hwire], hsub.cons m, hall⟩
    | asked r hasks _ _ exchanged _ =>
      refine ⟨a', r.packet.bytes :: new, m :: sent, hrun', ?_, hsub.cons_cons m,
        .cons ⟨_, asks_transmits hasks⟩ hall⟩
      rw [hwire, exchanged.wire, List.append_assoc]
      rfl

/-! ## A run -/

theorem InTurn.cons {d : AppData} {line : Polled UInt8} {m : Message} {e : Setting} {r : Request}
    {p : Packet} {ms : List (Message × Setting)} {packets : List Packet} (hasks : asks d m = some r)
    (hwrites : e.Writes r) (hp : Comes line p)
    (h : InTurn (settle r d (r.accept p)) (line.after 7 p.bytes.length) ms packets) :
    InTurn d line ((m, e) :: ms) (p :: packets) := by
  rw [InTurn, hasks]
  dsimp only
  rw [if_pos hwrites]
  exact ⟨p, packets, rfl, hp, h⟩

theorem comes_unread (p : Packet) (rest : Bytes) : Comes ⟨p.bytes ++ rest, []⟩ p := by
  refine ⟨fun k hk => ?_, ?_⟩
  · simp [Polled.arrived]
    omega
  · simp [Polled.arrived]

theorem after_unread (p : Packet) (rest : Bytes) :
    (⟨p.bytes ++ rest, []⟩ : Polled UInt8).after 7 p.bytes.length = ⟨rest, []⟩ := by
  simp [Polled.after, Polled.arrived]

/-- A transaction whose packet of 12 bytes is written. -/
def writing : Setting :=
  ⟨List.replicate txBufSize 0, List.replicate rxBufSize 0, ⟨12, false⟩, List.length_replicate,
    List.length_replicate⟩

/-- The app at the start, with these bytes on the line. -/
def started (bytes : Bytes) : App := ⟨⟨0, 0, 0, 0, 0, 0, 0, 0, 0⟩, ⟨⟨bytes, []⟩, [], []⟩, []⟩

/-- An acknowledgement of arming, without an interlock and with one. -/
def free : Packet := ⟨pktVersion, msgTypeTM, 4, [0, 0, 0, 0, 0, 0, 0, 0], by decide⟩
def locked : Packet := ⟨pktVersion, msgTypeTM, 4, [0, 0, 0, 0, 0, 0, 1, 0], by decide⟩

/-- A command to arm. -/
def arming : Message := ⟨cmdMid, 5, [0x5A, 0xA5, 10, 0]⟩

end Thrust
end FlightApps
