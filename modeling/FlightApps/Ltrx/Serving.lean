import FlightApps.Ltrx.Delivery

/-!
# One message at a time

From the moment a header has been sent until the next one is, the message is confirmed or the
session is aborted or reset, every part that goes down is a part of one message: the one whose
length and CRC the header has.  In that time the message is in flight, and a bus beacon is not even
staged.

`DownMove` says what can happen to the downlink, and every step of LTRX is a string of such moves
(`step_down`).
-/

set_option autoImplicit false

namespace FlightApps
namespace Ltrx

/-! ## Moves of the downlink -/

/-- Nothing that concerns the downlink. -/
def Event.Aside : Event → Prop
  | .sent (.messageHeader _) _ | .sent (.messagePart ..) _ | .confirmed _ | .aborted | .reset
  | .staged _ => False
  | _ => True

namespace Downlink

/-- The header that is sent. -/
def header (d : Downlink) : MessageHeader :=
  if d.downReady then ⟨d.downMsgId, d.downLen, d.downMsgCrc⟩ else ⟨0, 0, 0⟩

/-- What the storage is after a header. -/
def sentHeader (d : Downlink) (ok : Bool) : Downlink :=
  if d.downReady ∧ ok then { d with downInFlight := true } else d

/-- What the storage is after a confirmation. -/
def heardConfirm (d : Downlink) (mid : UInt32) : Downlink :=
  if d.downInFlight ∧ mid = d.downMsgId then d.clearMessage else d

/-- A part that can be asked for. -/
structure Serves (d : Downlink) (r : PartRequest) : Prop where
  ready : d.downReady = true
  messageID : r.messageID = d.downMsgId
  inside : r.partStartByte.toNat + r.partLength.toNat ≤ d.downLen.toNat

/-- The bytes of a part. -/
def part (d : Downlink) (r : PartRequest) : List UInt8 :=
  (d.downBuf.toList.drop r.partStartByte.toNat).take r.partLength.toNat

end Downlink

open Downlink in
/-- What can happen to the downlink. -/
inductive DownMove : Downlink → List Event → Downlink → Prop
  | aside (d : Downlink) {e : Event} (h : e.Aside) : DownMove d [e] d
  | gates (d : Downlink) (enabled : Bool) (period count : UInt16) :
      DownMove d [] { d with
        downstreamEnabled := enabled
        downstreamBeaconPeriod := period
        downstreamBeaconCount := count }
  | stages {d : Downlink} (buf : Vector UInt8 downlinkMaxLen) (len : UInt16) (mid : UInt32)
      (hidle : d.downInFlight = false) :
      DownMove d [.staged mid] { d with
        downstreamBeaconCount := 0
        lastMsgId := mid
        pendingDownBuf := buf
        pendingDownLen := len
        pendingDownMsgId := mid
        pendingDownReady := true }
  | commits {d : Downlink} (hready : d.pendingDownReady = true)
      (hok : d.commitPending.2 = .success) : DownMove d [] d.commitPending.1
  | announces {d : Downlink} (hnone : d.pendingDownReady = false) (ok : Bool) :
      DownMove d [.sent (.messageHeader d.header) ok] (d.sentHeader ok)
  | sends {d : Downlink} {r : PartRequest} (h : d.Serves r) (ok : Bool) :
      DownMove d [.sent (.messagePart r.messageID r.partStartByte (d.part r)) ok] d
  | hears (d : Downlink) (mid : UInt32) : DownMove d [.confirmed mid] (d.heardConfirm mid)
  | aborts (d : Downlink) : DownMove d [.aborted] d.clearMessage
  | resets (d : Downlink) : DownMove d [.reset] d.clearMessage

section Handlers

variable {link : Nat → Bool} {d : Downlink} {hdr : BeaconCmdHeader} {payload : List UInt8}

theorem only_aside {es : List Event} (h : ∀ e ∈ es, e.Aside) : Trace DownMove d es d := by
  induction es with
  | nil => exact .refl d
  | cons e es ih =>
    exact .step (DownMove.aside d (h e List.mem_cons_self))
      (ih fun e' he' => h e' (List.mem_cons_of_mem e he'))

theorem aside_icdRx (typeID status : UInt8) (mid : UInt32) : (Event.icdRx typeID status mid).Aside :=
  trivial

theorem setMessage_failed {mid : UInt32} {data : List UInt8} {length : UInt16}
    (h : (d.setMessage mid data length).2 ≠ .success) : (d.setMessage mid data length).1 = d := by
  rw [Downlink.setMessage] at h ⊢
  split at h
  · rename_i hzero
    rw [if_pos hzero]
  rename_i hzero
  rw [if_neg hzero]
  split at h
  · rename_i hlong
    rw [dif_pos hlong]
  · exact absurd rfl h

theorem commitPending_failed (h : d.commitPending.2 ≠ .success) : d.commitPending.1 = d := by
  rw [Downlink.commitPending] at h ⊢
  split at h
  · exact absurd rfl h
  rename_i hready
  rw [if_neg hready]
  have hset := setMessage_failed h
  dsimp only
  rw [if_neg h, hset]

theorem commitPending_down (h : d.commitPending.2 = .success) :
    Trace DownMove d [] d.commitPending.1 := by
  by_cases hready : d.pendingDownReady = false
  · rw [Downlink.commitPending, if_pos hready]
    exact .refl d
  · exact .single (.commits (Bool.eq_true_of_not_eq_false hready) h)

theorem setMessage_success {mid : UInt32} {data : List UInt8} {length : UInt16}
    (h : (d.setMessage mid data length).2 = .success) :
    (d.setMessage mid data length).1.downInFlight = d.downInFlight ∧
      (d.setMessage mid data length).1.downMsgCrc =
        calculateCRC32 (d.setMessage mid data length).1.message := by
  rw [Downlink.setMessage] at h ⊢
  split at h
  · exact absurd h ReturnCode.noConfusion
  rename_i hzero
  rw [if_neg hzero]
  split at h
  · exact absurd h ReturnCode.noConfusion
  rename_i hlong
  rw [dif_neg hlong]
  exact ⟨rfl, rfl⟩

/-- **What is pending** becomes the message. -/
theorem commitPending_success (h : d.commitPending.2 = .success) :
    d.commitPending.1.pendingDownReady = false ∧
      (d.pendingDownReady = true → d.commitPending.1.downInFlight = d.downInFlight ∧
        d.commitPending.1.downMsgCrc = calculateCRC32 d.commitPending.1.message) := by
  rw [Downlink.commitPending] at h ⊢
  by_cases hready : d.pendingDownReady = false
  · rw [if_pos hready]
    exact ⟨hready, fun hpending => absurd (hready.symm.trans hpending) Bool.false_ne_true⟩
  · rw [if_neg hready] at h ⊢
    have hset := setMessage_success h
    dsimp only
    rw [if_pos h]
    exact ⟨rfl, fun _ => hset⟩

theorem sendCode_success (ok : Bool) : sendCode ok = .success ↔ ok = true := by
  cases ok <;> decide

theorem requestMsgTx_down :
    Trace DownMove d (d.requestMsgTx link).events (d.requestMsgTx link).state := by
  rw [Downlink.requestMsgTx]
  dsimp only
  split
  · rename_i hfail
    rw [commitPending_failed hfail]
    exact .single (.aside d (aside_icdRx 3 1 0))
  rename_i hok
  have hcommit := commitPending_down (Decidable.not_not.1 hok)
  have hnone := (commitPending_success (Decidable.not_not.1 hok)).1
  generalize d.commitPending.1 = d' at hcommit hnone ⊢
  have hsent : (if d'.downReady = true ∧ sendCode (link 0) = .success
      then { d' with downInFlight := true } else d') = d'.sentHeader (link 0) := by
    rw [Downlink.sentHeader]
    exact if_congr (and_congr_right fun _ => sendCode_success _) rfl rfl
  rw [hsent]
  refine hcommit.trans (.step (DownMove.aside d' (e := .downlinkMsgId _) trivial) ?_)
  exact .step (DownMove.announces hnone (link 0)) (.single (DownMove.aside _ (aside_icdRx 3 _ 0)))

theorem requestMsgPart_down :
    Trace DownMove d (d.requestMsgPart link hdr payload).events
      (d.requestMsgPart link hdr payload).state := by
  rw [Downlink.requestMsgPart]
  split
  · exact only_aside (forall_pair trivial trivial)
  dsimp only
  split
  · exact only_aside (forall_pair trivial trivial)
  rename_i hready
  split
  · exact only_aside (forall_pair trivial trivial)
  rename_i hinside
  split
  · exact only_aside (List.forall_mem_singleton.2 trivial)
  have hserves : d.Serves (partRequestLayout.read payload) :=
    ⟨Bool.eq_true_of_not_eq_false fun h => hready (Or.inl h),
      Decidable.not_not.1 fun h => hready (Or.inr h), Nat.le_of_not_lt hinside⟩
  exact .step (DownMove.sends hserves (link 0)) (.single (.aside d (aside_icdRx 7 _ 0)))

theorem confirmMsgRx_down :
    Trace DownMove d (d.confirmMsgRx payload).events (d.confirmMsgRx payload).state := by
  rw [Downlink.confirmMsgRx]
  split
  · exact .single (.aside d (aside_icdRx 11 30 0))
  · exact .step (DownMove.hears d _) (.single (.aside _ (aside_icdRx 11 0 _)))

theorem busBeacon_down (msg : List UInt8) (sized : Bool) (seconds : UInt32) :
    Trace DownMove d (d.onBusBeaconReceived msg sized seconds).2
      (d.onBusBeaconReceived msg sized seconds).1 := by
  rw [Downlink.onBusBeaconReceived]
  split
  · exact .refl d
  split
  · exact .refl d
  rename_i hidle
  split
  · exact .refl d
  dsimp only
  split
  · exact .single (.gates d _ _ _)
  · exact .single (.stages _ _ _ (Bool.eq_false_iff.2 hidle))

/-- Only the commands of the downlink lead to something that concerns it. -/
theorem aside_of_says {e : Event} (h : Says hdr payload e) (hthree : hdr.typeID ≠ 3)
    (hseven : hdr.typeID ≠ 7) (heleven : hdr.typeID ≠ 11) : e.Aside := by
  cases e with
  | sent o ok =>
    cases o with
    | messageHeader _ => exact absurd h hthree
    | messagePart mid start bytes => exact absurd h.1 hseven
    | _ => trivial
  | confirmed mid => exact absurd h.1 heleven
  | aborted => exact h
  | reset => exact h
  | staged mid => exact h
  | _ => trivial

/-- **Every command is a string of moves** of the downlink. -/
theorem dispatch_down (s : Storage) (hdr : BeaconCmdHeader) (payload : List UInt8) :
    Trace DownMove s.down (dispatch link s hdr payload).events
      (dispatch link s hdr payload).state.down := by
  by_cases hthree : hdr.typeID = 3
  · rw [dispatch, hthree]
    exact requestMsgTx_down
  by_cases hseven : hdr.typeID = 7
  · rw [dispatch, hseven]
    exact requestMsgPart_down
  by_cases heleven : hdr.typeID = 11
  · rw [dispatch, heleven]
    exact confirmMsgRx_down
  have hkept : (dispatch link s hdr payload).state.down = s.down := by
    have hreport : ∀ {typeID : UInt8} {least : Nat} {short : List Event}
        {status : List UInt8 → UInt8} {mid : List UInt8 → UInt32},
        (report typeID least short status mid s payload).state = s := by
      intro typeID least short status mid
      rw [report]
      split
      · rfl
      · rfl
    rw [dispatch]
    split
    · contradiction
    · contradiction
    · exact congrArg Storage.down hreport
    · contradiction
    · exact congrArg Storage.down hreport
    · exact congrArg Storage.down hreport
    · rfl
    · rfl
    · rfl
    · exact congrArg Storage.down hreport
    · exact congrArg Storage.down hreport
    · exact congrArg Storage.down hreport
    · rfl
  rw [hkept]
  exact only_aside fun e he => aside_of_says (saysAll_dispatch s e he) hthree hseven heleven

theorem clearMessage_clearMessage : d.clearMessage.clearMessage = d.clearMessage := rfl

/-- What the session takes from its queue clears the downlink or leaves it. -/
theorem cleared_down {es : List Event}
    (h : ∀ e ∈ es, e = .started ∨ e = .aborted ∨ e = .reset) :
    Trace DownMove d es (if .aborted ∈ es ∨ .reset ∈ es then d.clearMessage else d) := by
  induction es generalizing d with
  | nil => exact .refl d
  | cons e es ih =>
    have hes := fun e' he' => h e' (List.mem_cons_of_mem e he')
    have hcleared : (if .aborted ∈ es ∨ .reset ∈ es then d.clearMessage.clearMessage
        else d.clearMessage) = d.clearMessage := by
      rw [clearMessage_clearMessage, ite_self]
    rcases h e List.mem_cons_self with rfl | rfl | rfl
    · have hiff : (Event.aborted ∈ Event.started :: es ∨ Event.reset ∈ Event.started :: es) ↔
          (Event.aborted ∈ es ∨ Event.reset ∈ es) := by simp
      rw [if_congr hiff rfl rfl]
      exact .step (DownMove.aside d (e := .started) trivial) (ih hes)
    · rw [if_pos (Or.inl List.mem_cons_self)]
      have hrest := ih (d := d.clearMessage) hes
      rw [hcleared] at hrest
      exact .step (DownMove.aborts d) hrest
    · rw [if_pos (Or.inr List.mem_cons_self)]
      have hrest := ih (d := d.clearMessage) hes
      rw [hcleared] at hrest
      exact .step (DownMove.resets d) hrest

/-- **Every step is a string of moves** of the downlink. -/
theorem step_down (n : Node) (i : Input) :
    Trace DownMove n.storage.down (n.step i).2 (n.step i).1.storage.down := by
  cases i with
  | child i =>
    rw [Node.step, Node.childStep]
    split
    · exact .refl _
    · show Trace DownMove n.storage.down (n.bcnProcessOneRx i).2 (n.bcnProcessOneRx i).1.storage.down
      rw [Node.bcnProcessOneRx]
      split
      · exact .single (DownMove.aside _ (e := .overrun) trivial)
      dsimp only
      split
      · exact .refl _
      · exact .step (DownMove.aside _ (e := .received _ _) trivial) (dispatch_down n.storage _ _)
    · exact cleared_down fun e (he : e ∈ (n.session.tick n.storage.up.complete i.clock).2) =>
        Session.mem_tick he
    · refine only_aside fun e he => ?_
      have he : e ∈ (n.storage.up.forwardToSB i.stack).2 := he
      rw [UplinkRx.forwardToSB] at he
      split at he
      · exact absurd he List.not_mem_nil
      split at he
      · exact absurd he List.not_mem_nil
      · exact List.mem_singleton.1 he ▸ trivial
  | busBeacon msg sized seconds => exact busBeacon_down msg sized seconds
  | sessionStartDownlink =>
    show Trace DownMove n.storage.down [] n.sessionStartDownlinkCmd.storage.down
    rw [Node.sessionStartDownlinkCmd]
    split
    · exact .refl _
    split
    · exact .refl _
    · exact .refl _
  | sessionAbort => exact .refl _
  | sessionResetState => exact .refl _
  | downstream enabled => exact .single (.gates _ enabled _ 0)
  | setBusBeaconPeriod period =>
    show Trace DownMove n.storage.down [] (n.setBusBeaconPeriodCmd period).storage.down
    rw [Node.setBusBeaconPeriodCmd]
    split
    · exact .refl _
    · exact .single (.gates _ _ period 0)

end Handlers

/-! ## What is announced is served -/

/-- A header is sent again, the message is confirmed, or the session is aborted or reset. -/
def Closes (h : MessageHeader) : Event → Prop
  | .sent (.messageHeader _) _ => True
  | .confirmed mid => mid = h.messageID
  | .aborted | .reset => True
  | _ => False

/-- After the header of a message with an id nothing has closed it. -/
structure Open (h : MessageHeader) (window : List Event) : Prop where
  messageID : h.messageID ≠ 0
  open_ : ∀ e ∈ window, ¬Closes h e

/-- All parts that have been sent are parts of this message, and no other has been staged. -/
structure PartsOf (h : MessageHeader) (msg : List UInt8) (window : List Event) : Prop where
  length : msg.length = h.messageLength.toNat
  crc : calculateCRC32 msg = h.messageCRC
  parts : ∀ mid start bytes ok, .sent (.messagePart mid start bytes) ok ∈ window →
    mid = h.messageID ∧ start.toNat + bytes.length ≤ msg.length ∧
      bytes = (msg.drop start.toNat).take bytes.length
  calm : ∀ mid, .staged mid ∉ window

/-- **Between a header and what closes it** all parts are parts of one message. -/
def Consistent (es : List Event) : Prop :=
  ∀ pre h window rest, es = pre ++ .sent (.messageHeader h) true :: (window ++ rest) →
    Open h window → ∃ msg, PartsOf h msg window

/-- As long as nothing has closed it, the message is in flight. -/
def Holding (d : Downlink) (es : List Event) : Prop :=
  ∀ pre h window, es = pre ++ .sent (.messageHeader h) true :: window → Open h window →
    d.downInFlight = true ∧ d.downReady = true ∧ d.header = h ∧ PartsOf h d.message window

/-- The downlink and all that has happened. -/
structure Serving (d : Downlink) (es : List Event) : Prop where
  crc : d.downReady = true → d.downMsgCrc = calculateCRC32 d.message
  flight : d.downInFlight = true → d.downReady = true ∧ d.pendingDownReady = false
  holding : Holding d es
  consistent : Consistent es

section Serving

variable {d d' : Downlink} {es es' window : List Event} {h : MessageHeader} {e : Event}

/-- The last event of a history is the header or comes after it. -/
theorem split_snoc {α : Type} {es pre window : List α} {e x : α}
    (heq : es ++ [e] = pre ++ x :: window) :
    (window = [] ∧ e = x ∧ es = pre) ∨
      ∃ window', window = window' ++ [e] ∧ es = pre ++ x :: window' := by
  rcases List.eq_nil_or_concat window with rfl | ⟨window', y, rfl⟩
  · obtain ⟨rfl, hlast⟩ := List.append_inj' heq rfl
    exact Or.inl ⟨rfl, (List.cons.inj hlast).1, rfl⟩
  · rw [List.concat_eq_append, ← List.cons_append, ← List.append_assoc] at heq
    obtain ⟨rfl, hlast⟩ := List.append_inj' heq rfl
    obtain rfl := (List.cons.inj hlast).1
    exact Or.inr ⟨window', List.concat_eq_append, rfl⟩

theorem Open.init (ho : Open h (window ++ [e])) : Open h window ∧ ¬Closes h e :=
  ⟨⟨ho.messageID, fun e' he' => ho.open_ e' (List.mem_append_left _ he')⟩,
    ho.open_ e (List.mem_append_right _ List.mem_cons_self)⟩

theorem Downlink.length_message (d : Downlink) : d.message.length = d.downLen.toNat := by
  rw [message, List.length_take, Vector.length_toList]
  exact Nat.min_eq_left d.downLen_le

/-- An event that is neither a part nor staged changes nothing. -/
theorem PartsOf.snoc {msg : List UInt8} (hp : PartsOf h msg window)
    (hpart : ∀ mid start bytes ok, e = .sent (.messagePart mid start bytes) ok →
      mid = h.messageID ∧ start.toNat + bytes.length ≤ msg.length ∧
        bytes = (msg.drop start.toNat).take bytes.length)
    (hstaged : ∀ mid, e ≠ .staged mid) : PartsOf h msg (window ++ [e]) := by
  refine ⟨hp.length, hp.crc, fun mid start bytes ok hmem => ?_, fun mid hmem => ?_⟩
  · rcases List.mem_append.1 hmem with hmem | hmem
    · exact hp.parts mid start bytes ok hmem
    · exact hpart mid start bytes ok (List.mem_singleton.1 hmem).symm
  · rcases List.mem_append.1 hmem with hmem | hmem
    · exact hp.calm mid hmem
    · exact hstaged mid (List.mem_singleton.1 hmem).symm

/-- **A part that is asked for** is a part of the message. -/
theorem Downlink.Serves.part {r : PartRequest} (hs : d.Serves r) :
    (d.part r).length = r.partLength.toNat ∧
      d.part r = (d.message.drop r.partStartByte.toNat).take (d.part r).length := by
  have hinside := hs.inside
  have hle := d.downLen_le
  have hlen : (d.part r).length = r.partLength.toNat := by
    rw [Downlink.part, List.length_take, List.length_drop, Vector.length_toList]
    omega
  refine ⟨hlen, ?_⟩
  rw [hlen, Downlink.part, Downlink.message, List.drop_take, List.take_take, Nat.min_eq_left]
  omega

theorem Consistent.snoc (hc : Consistent es) (hh : Holding d' (es ++ [e])) :
    Consistent (es ++ [e]) := by
  intro pre h window rest heq ho
  rcases List.eq_nil_or_concat rest with rfl | ⟨rest', y, rfl⟩
  · rw [List.append_nil] at heq
    exact ⟨d'.message, (hh pre h window heq ho).2.2.2⟩
  · rw [List.concat_eq_append, ← List.append_assoc, ← List.cons_append, ← List.append_assoc] at heq
    obtain ⟨rfl, -⟩ := List.append_inj' heq rfl
    exact hc pre h window rest' rfl ho

/-- An event after which the message is still held. -/
theorem Serving.snoc (hs : Serving d es)
    (hcrc : d'.downReady = true → d'.downMsgCrc = calculateCRC32 d'.message)
    (hflight : d'.downInFlight = true → d'.downReady = true ∧ d'.pendingDownReady = false)
    (hfirst : ∀ h, e = .sent (.messageHeader h) true → h.messageID ≠ 0 →
      d'.downInFlight = true ∧ d'.downReady = true ∧ d'.header = h ∧ PartsOf h d'.message [])
    (hnext : ∀ h window, ¬Closes h e → d.downInFlight = true → d.downReady = true →
      d.header = h → PartsOf h d.message window →
      d'.downInFlight = true ∧ d'.downReady = true ∧ d'.header = h ∧
        PartsOf h d'.message (window ++ [e])) : Serving d' (es ++ [e]) := by
  have hholding : Holding d' (es ++ [e]) := by
    intro pre h window heq ho
    rcases split_snoc heq with ⟨rfl, he, -⟩ | ⟨window', rfl, hes⟩
    · exact hfirst h he ho.messageID
    · obtain ⟨hopen, hcloses⟩ := ho.init
      obtain ⟨hf, hr, hh, hp⟩ := hs.holding pre h window' hes hopen
      exact hnext h window' hcloses hf hr hh hp
  exact ⟨hcrc, hflight, hholding, hs.consistent.snoc hholding⟩

theorem Downlink.header_ready (hr : d.downReady = true) :
    d.header = ⟨d.downMsgId, d.downLen, d.downMsgCrc⟩ := if_pos hr

/-- **What every move keeps.** -/
theorem DownMove.keeps (hm : DownMove d es' d') (hs : Serving d es) : Serving d' (es ++ es') := by
  have hcrc := hs.crc
  have hflight := hs.flight
  cases hm with
  | aside he =>
    refine hs.snoc hcrc hflight (fun h heq => ?_) fun h window _ hf hr hh hp => ?_
    · rw [heq] at he
      exact he.elim
    · refine ⟨hf, hr, hh, hp.snoc (fun _ _ _ _ heq => ?_) fun _ heq => ?_⟩
      · rw [heq] at he
        exact he.elim
      · rw [heq] at he
        exact he.elim
  | gates enabled period count =>
    rw [List.append_nil]
    exact ⟨hcrc, hflight, hs.holding, hs.consistent⟩
  | stages buf len mid hidle =>
    have hnot : ∀ {P : Prop}, d.downInFlight = true → P := fun hf =>
      absurd (hidle.symm.trans hf) Bool.false_ne_true
    exact hs.snoc hcrc (fun hf => hnot hf) (fun h heq => Event.noConfusion heq)
      fun h window _ hf => hnot hf
  | commits hready hok =>
    obtain ⟨-, hcommit⟩ := commitPending_success hok
    obtain ⟨hsame, hcrc'⟩ := hcommit hready
    have hidle : d.downInFlight ≠ true := fun hf =>
      absurd ((hflight hf).2.symm.trans hready) Bool.false_ne_true
    rw [List.append_nil]
    exact ⟨fun _ => hcrc', fun hf => absurd (hsame ▸ hf) hidle,
      fun pre h window heq ho => absurd (hs.holding pre h window heq ho).1 hidle, hs.consistent⟩
  | announces hnone ok =>
    have hcrc' : (d.sentHeader ok).downReady = true →
        (d.sentHeader ok).downMsgCrc = calculateCRC32 (d.sentHeader ok).message := by
      rw [Downlink.sentHeader]
      split
      · exact hcrc
      · exact hcrc
    refine hs.snoc hcrc' ?_ (fun h heq hid => ?_) fun h window hcloses => ?_
    · rw [Downlink.sentHeader]
      split
      · rename_i hready
        exact fun _ => ⟨hready.1, hnone⟩
      · exact hflight
    · obtain ⟨ho, rfl⟩ := Event.sent.inj heq
      obtain rfl := Outgoing.messageHeader.inj ho
      have hready : d.downReady = true := by
        by_contra hnot
        rw [Downlink.header, if_neg hnot] at hid
        exact hid rfl
      rw [Downlink.sentHeader, if_pos ⟨hready, rfl⟩]
      refine ⟨rfl, hready, rfl, ⟨?_, ?_, fun _ _ _ _ hmem => absurd hmem List.not_mem_nil,
        fun _ => List.not_mem_nil⟩⟩
      · rw [Downlink.header_ready hready]
        exact d.length_message
      · rw [Downlink.header_ready hready]
        exact (hcrc hready).symm
    · exact absurd trivial hcloses
  | sends hserves ok =>
    refine hs.snoc hcrc hflight (fun h heq => Outgoing.noConfusion (Event.sent.inj heq).1)
      fun h window _ hf hr hh hp => ?_
    refine ⟨hf, hr, hh, hp.snoc (fun mid start bytes ok' heq => ?_) fun _ heq =>
      Event.noConfusion heq⟩
    obtain ⟨hlen, hpart⟩ := hserves.part
    obtain ⟨ho, -⟩ := Event.sent.inj heq
    obtain ⟨rfl, rfl, rfl⟩ := Outgoing.messagePart.inj ho
    refine ⟨?_, ?_, hpart⟩
    · rw [← hh, Downlink.header_ready hr]
      exact hserves.messageID
    · rw [hlen, d.length_message]
      exact hserves.inside
  | hears mid =>
    by_cases hmatch : d.downInFlight = true ∧ mid = d.downMsgId
    · rw [Downlink.heardConfirm, if_pos hmatch]
      refine hs.snoc (fun hr => Bool.noConfusion hr) (fun hf => Bool.noConfusion hf)
        (fun h heq => Event.noConfusion heq) fun h window hcloses _ hr hh _ => ?_
      rw [Downlink.header_ready hr] at hh
      exact absurd (hmatch.2.trans (congrArg MessageHeader.messageID hh)) hcloses
    · rw [Downlink.heardConfirm, if_neg hmatch]
      exact hs.snoc hcrc hflight (fun h heq => Event.noConfusion heq)
        fun h window _ hf hr hh hp => ⟨hf, hr, hh, hp.snoc (fun _ _ _ _ heq =>
          Event.noConfusion heq) fun _ heq => Event.noConfusion heq⟩
  | aborts =>
    exact hs.snoc (fun hr => Bool.noConfusion hr) (fun hf => Bool.noConfusion hf)
      (fun h heq => Event.noConfusion heq) fun h window hcloses => absurd trivial hcloses
  | resets =>
    exact hs.snoc (fun hr => Bool.noConfusion hr) (fun hf => Bool.noConfusion hf)
      (fun h heq => Event.noConfusion heq) fun h window hcloses => absurd trivial hcloses

end Serving

/-- **In every run** the downlink agrees with what has happened. -/
theorem serving (is : List Input) : Serving (after is).storage.down (events is) := by
  refine Node.machine.history_invariant (P := fun n es => Serving n.storage.down es) ?_ ?_ is
  · intro n es i hs
    exact (step_down n i).extends_history (fun _ _ _ _ hm hk => hm.keeps hk) hs
  · refine ⟨fun hr => Bool.noConfusion hr, fun hf => Bool.noConfusion hf, ?_, ?_⟩
    · intro pre h window heq
      exact absurd heq (by simp)
    · intro pre h window rest heq
      exact absurd heq (by simp)

/-- A part is as long as it was asked to be, and from there. -/
def Asked (es : List Event) (e : Event) : Prop :=
  ∀ mid start bytes ok, e = .sent (.messagePart mid start bytes) ok →
    ∃ hdr payload, lastReceived es = some (hdr, payload) ∧ hdr.typeID = 7 ∧ 8 ≤ payload.length ∧
      partRequestLayout.read payload = ⟨mid, start, UInt16.ofNat bytes.length⟩

/-- **The downlink serves one consistent message.**  Between a header and what closes it all parts
are parts of one message with the length and the CRC of the header, and no bus beacon is staged;
the message is in flight; and a part answers the last request, so that a request for anything else
gets no part. -/
theorem downlink_consistent (is : List Input) :
    Consistent (events is) ∧ Holding (after is).storage.down (events is) ∧
      Each Asked (events is) := by
  refine ⟨(serving is).consistent, (serving is).holding, fun pre e post heq => ?_⟩
  rintro mid start bytes ok rfl
  exact sourced is pre _ post heq trivial

end Ltrx
end FlightApps
