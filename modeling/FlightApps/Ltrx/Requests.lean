import FlightApps.Lib.Runs
import FlightApps.Ltrx.Delivery
import FlightApps.Ltrx.RoundTrip

/-!
# Asking for the parts of a message

After a header and after every part that is accepted, the first gap of the message is asked for
(`AsksFirst`).  So a beacon that answers what it is asked fills the gaps one after the other, and
needs no more answers than there are bytes missing (`answered`).

A part with the wrong CRC is asked for again, five times if it is the one that was asked for.  If it
is another, the count begins anew, and this is the part that is asked for from then on: two parts
that fail in turn are asked for as often as they come (`asked_for_ever`).
-/

set_option autoImplicit false

namespace FlightApps
namespace Ltrx

/-! ## The first gap -/

/-- A byte that has not been received. -/
def UplinkRx.Missing (u : UplinkRx) (i : Nat) : Prop := u.recvBitmap.marked i = false

/-- The first maximal run of missing bytes of the message. -/
structure UplinkRx.FirstGap (u : UplinkRx) (gap : Nat × Nat) : Prop where
  run : Runs.IsRun u.Missing u.msgLen.toNat gap
  first : ∀ i, i < gap.1 → u.recvBitmap.marked i = true

section Gaps

variable {bm : Bitmap uplinkBitmapBytes} {i n start : Nat}

/-- **A gap that has begun** goes on to the next byte that has been received, or to the end. -/
theorem findGap_begun (hlt : start < i)
    (hgap : ∀ j, start ≤ j → j < i → bm.marked j = false) :
    ∃ stop, findGap bm i n (some start) = some (clip start stop) ∧ start < stop ∧ stop ≤ i + n ∧
      (∀ j, start ≤ j → j < stop → bm.marked j = false) ∧
      (stop = i + n ∨ ¬bm.marked stop = false) := by
  induction n generalizing i with
  | zero => exact ⟨i, rfl, hlt, Nat.le_refl _, hgap, Or.inl rfl⟩
  | succ n ih =>
    rw [findGap]
    by_cases hi : bm.marked i
    · rw [if_pos hi]
      exact ⟨i, rfl, hlt, Nat.le_add_right _ _, hgap, Or.inr (by simp [hi])⟩
    · rw [if_neg hi]
      have hgap' : ∀ j, start ≤ j → j < i + 1 → bm.marked j = false := by
        intro j hj hlast
        rcases Nat.lt_succ_iff_lt_or_eq.1 hlast with hj' | rfl
        · exact hgap j hj hj'
        · exact Bool.eq_false_iff.2 hi
      obtain ⟨stop, heq, hstart, hle, hall, hend⟩ := ih (Nat.lt_succ_of_lt hlt) hgap'
      have hsum : i + 1 + n = i + (n + 1) := by omega
      rw [hsum] at hle hend
      exact ⟨stop, heq, hstart, hle, hall, hend⟩

/-- **The loop finds the first gap**, or there is none. -/
theorem findGap_spec (hfront : ∀ j, j < i → bm.marked j = true) :
    (findGap bm i n none = none ∧ ∀ j, j < i + n → bm.marked j = true) ∨
      ∃ gap : Nat × Nat, findGap bm i n none = some (clip gap.1 (gap.1 + gap.2)) ∧
        Runs.IsRun (fun j => bm.marked j = false) (i + n) gap ∧
        ∀ j, j < gap.1 → bm.marked j = true := by
  induction n generalizing i with
  | zero => exact Or.inl ⟨rfl, hfront⟩
  | succ n ih =>
    have hsum : i + 1 + n = i + (n + 1) := by omega
    rw [findGap]
    by_cases hi : bm.marked i
    · rw [if_pos hi]
      have hfront' : ∀ j, j < i + 1 → bm.marked j = true := by
        intro j hj
        rcases Nat.lt_succ_iff_lt_or_eq.1 hj with hj | rfl
        · exact hfront j hj
        · exact hi
      rw [← hsum]
      exact ih hfront'
    · rw [if_neg hi]
      have hgap : ∀ j, i ≤ j → j < i + 1 → bm.marked j = false := by
        intro j hj hlast
        obtain rfl : j = i := by omega
        exact Bool.eq_false_iff.2 hi
      obtain ⟨stop, heq, hstart, hle, hall, hend⟩ :=
        findGap_begun (n := n) (Nat.lt_succ_self i) hgap
      have hstop : i + (stop - i) = stop := by omega
      rw [hsum] at hle hend
      refine Or.inr ⟨(i, stop - i), ?_, ⟨by dsimp only; omega, ?_, ?_, ?_, ?_⟩, hfront⟩
      · dsimp only
        rw [hstop]
        exact heq
      · dsimp only
        rw [hstop]
        exact hle
      · dsimp only
        rw [hstop]
        exact hall
      · refine (Nat.eq_zero_or_pos i).imp_right fun hpos => ?_
        dsimp only
        rw [hfront (i - 1) (by omega)]
        exact Bool.noConfusion
      · dsimp only
        rw [hstop]
        exact hend

/-- A gap as it is asked for. -/
theorem toNat_clip {start len : Nat} (h : start + len < 65536) :
    (clip start (start + len)).1.toNat = start ∧
      (clip start (start + len)).2.toNat = min len uplinkPartReqLen := by
  have hlen : (UInt16.ofNat len).toNat = len := by
    rw [UInt16.toNat_ofNat', Nat.mod_eq_of_lt (by omega)]
  rw [clip, Nat.add_sub_cancel_left]
  dsimp only
  refine ⟨?_, ?_⟩
  · rw [UInt16.toNat_ofNat', Nat.mod_eq_of_lt (by omega)]
  · rw [hlen]
    split
    · rename_i hlong
      rw [Nat.min_eq_right (Nat.le_of_lt hlong)]
      rfl
    · rename_i hshort
      rw [hlen, Nat.min_eq_left (Nat.le_of_not_lt hshort)]

end Gaps

namespace UplinkRx

/-- The part that is asked for. -/
def request (u : UplinkRx) : PartRequest := ⟨u.msgId, u.lastPartStart, u.lastPartLen⟩

/-- Another part is asked for. -/
def asking (u : UplinkRx) (start len : UInt16) : UplinkRx :=
  { u with lastPartRetry := 0, lastPartStart := start, lastPartLen := len }

/-- It is the first gap, not longer than what is asked for at once. -/
def AsksFirst (u : UplinkRx) : Prop :=
  ∃ gap : Nat × Nat, u.FirstGap gap ∧ u.lastPartStart.toNat = gap.1 ∧
    u.lastPartLen.toNat = min gap.2 uplinkPartReqLen

variable {u : UplinkRx} {g : Ledger}

theorem allReceived_iff (hp : u.inProgress = true) :
    u.allReceived = true ↔ u.msgLen.toNat ≤ u.receivedBytes.toNat := by
  rw [allReceived, hp, Bool.true_and, decide_eq_true_eq]
  exact UInt16.le_iff_toNat_le

/-- **The next part** that is asked for is the first gap. -/
theorem requestNextPart_asks (hr : Receiving u g) (hp : u.inProgress = true)
    (hnot : u.allReceived ≠ true) (ok : Bool) :
    ∃ start len, (u.asking start len).AsksFirst ∧ requestNextPart ok u = ⟨u.asking start len,
      [.sent (.partRequest (u.asking start len).request) ok], sendCode ok⟩ := by
  have hmax : u.msgLen.toNat ≤ 8 * uplinkBitmapBytes := hr.length
  have hlen : u.msgLen.toNat ≤ 240 := hr.length
  have hfew : u.recvBitmap.marks < u.msgLen.toNat := by
    have hshort := mt (allReceived_iff hp).2 hnot
    rw [hr.count] at hshort
    exact Nat.lt_of_not_le hshort
  obtain ⟨i, hi, hmissing⟩ := Bitmap.exists_unmarked hmax hr.below hfew
  have hfront : ∀ j, j < 0 → u.recvBitmap.marked j = true := fun j hj =>
    absurd hj (Nat.not_lt_zero j)
  rcases findGap_spec (n := u.msgLen.toNat) hfront with ⟨-, hall⟩ | ⟨gap, heq, hrun, hfirst⟩
  · rw [hall i (by omega)] at hmissing
    exact Bool.noConfusion hmissing
  · rw [Nat.zero_add] at hrun
    have hle := hrun.le
    obtain ⟨hstart, hlength⟩ := @toNat_clip gap.1 gap.2 (by omega)
    refine ⟨(clip gap.1 (gap.1 + gap.2)).1, (clip gap.1 (gap.1 + gap.2)).2,
      ⟨gap, ⟨hrun, hfirst⟩, hstart, hlength⟩, ?_⟩
    have hprogress : ¬u.inProgress = false := by rw [hp]; exact Bool.noConfusion
    rw [requestNextPart, if_neg hprogress, if_neg hnot, findNextGap, heq]
    rfl

end UplinkRx

/-! ## What a step does about the parts -/

/-- The part that an event asks for. -/
def Event.asksFor : Event → Option PartRequest
  | .sent (.partRequest r) _ => some r
  | _ => none

namespace Event

@[simp] theorem asksFor_received (hdr : BeaconCmdHeader) (payload : List UInt8) :
    (received hdr payload).asksFor = none := rfl
@[simp] theorem asksFor_partRequest (r : PartRequest) (ok : Bool) :
    (sent (.partRequest r) ok).asksFor = some r := rfl
@[simp] theorem asksFor_announced (h : MessageHeader) : (announced h).asksFor = none := rfl
@[simp] theorem asksFor_stored (h : PartHeader) (bytes : List UInt8) :
    (stored h bytes).asksFor = none := rfl

end Event

/-- The parts that are asked for. -/
def requests (es : List Event) : List PartRequest := es.filterMap Event.asksFor

/-- Nothing that concerns the parts of an uplink. -/
def Event.Calm : Event → Prop
  | .received hdr _ => hdr.typeID ≠ 5 ∧ hdr.typeID ≠ 6 ∧ hdr.typeID ≠ 9
  | .sent (.partRequest _) _ | .announced _ | .stored .. | .completed _ | .transmitted .. => False
  | _ => True

/-- A part of the message, with the wrong CRC. -/
structure UplinkRx.Fails (u : UplinkRx) (payload : List UInt8) : Prop where
  long : 12 ≤ payload.length
  inProgress : u.inProgress = true
  messageID : (partHeaderLayout.read payload).messageID = u.msgId
  length : (partHeaderLayout.read payload).partLength = UInt16.ofNat (payload.drop 12).length
  inside : (partHeaderLayout.read payload).partStartByte.toNat +
    (partHeaderLayout.read payload).partLength.toNat ≤ u.msgLen.toNat
  crc : calculateCRC32 ((payload.drop 12).take (partHeaderLayout.read payload).partLength.toNat) ≠
    (partHeaderLayout.read payload).partCRC

/-- What a step does about the parts of an uplink. -/
inductive UpStep (u : UplinkRx) : List Event → UplinkRx → Prop
  | rests {es : List Event} (h : ∀ e ∈ es, e.Calm) : UpStep u es u
  | offered {hdr : BeaconCmdHeader} (link : Nat → Bool) (payload : List UInt8)
      (htype : hdr.typeID = 6) (hc : u.complete = false) :
      UpStep u (.received hdr payload :: (u.offerReceiveMsg link payload).events)
        (u.offerReceiveMsg link payload).state
  | headed {hdr : BeaconCmdHeader} (link : Nat → Bool) (payload : List UInt8)
      (htype : hdr.typeID = 5) (hc : u.complete = false) :
      UpStep u (.received hdr payload :: (u.sendMsgHeader link payload).events)
        (u.sendMsgHeader link payload).state
  | parted {hdr : BeaconCmdHeader} (link : Nat → Bool) (payload : List UInt8)
      (htype : hdr.typeID = 9) (hc : u.complete = false) :
      UpStep u (.received hdr payload :: (u.sendMsgPart link payload).events)
        (u.sendMsgPart link payload).state
  | forwards (stack : Vector UInt8 uplinkMaxLen) (hc : u.complete = true) :
      UpStep u [.transmitted u.msgId u.msgLen (Cells.copy stack 0 u.message).toList]
        UplinkRx.zero

section Steps

variable {u : UplinkRx} {link : Nat → Bool} {payload : List UInt8} {es es' : List Event}

theorem requests_append : requests (es ++ es') = requests es ++ requests es' :=
  List.filterMap_append

@[simp] theorem requests_cons (e : Event) :
    requests (e :: es) = e.asksFor.toList ++ requests es := by
  rw [requests, List.filterMap_cons, requests]
  cases e.asksFor <;> rfl

@[simp] theorem requests_nil : requests [] = [] := rfl

theorem Event.Calm.asksFor {e : Event} (h : e.Calm) : e.asksFor = none := by
  cases e with
  | sent o ok =>
    cases o with
    | partRequest r => exact h.elim
    | _ => rfl
  | _ => rfl

theorem requests_calm (h : ∀ e ∈ es, e.Calm) : requests es = [] :=
  List.filterMap_eq_nil_iff.2 fun e he => (h e he).asksFor

theorem calm_icdRx (typeID status : UInt8) : (onIcdRx typeID status).Calm := trivial

/-- The downlink has nothing to do with it. -/
theorem down_calm {d : Downlink} (link : Nat → Bool) (hdr : BeaconCmdHeader)
    (payload : List UInt8) : (∀ e ∈ (d.requestMsgTx link).events, e.Calm) ∧
      (∀ e ∈ (d.requestMsgPart link hdr payload).events, e.Calm) ∧
      ∀ e ∈ (d.confirmMsgRx payload).events, e.Calm := by
  refine ⟨?_, ?_, ?_⟩
  · rw [Downlink.requestMsgTx]
    dsimp only
    split <;> simp [onIcdRx, Event.Calm]
  · rw [Downlink.requestMsgPart]
    dsimp only
    split_ifs <;> simp [onIcdRx, Event.Calm]
  · rw [Downlink.confirmMsgRx]
    dsimp only
    split <;> simp [onIcdRx, Event.Calm]

theorem report_calm {s : Storage} {typeID : UInt8} {least : Nat} {short : List Event}
    {status : List UInt8 → UInt8} {mid : List UInt8 → UInt32} (hshort : ∀ e ∈ short, e.Calm) :
    (report typeID least short status mid s payload).state = s ∧
      ∀ e ∈ (report typeID least short status mid s payload).events, e.Calm := by
  rw [report]
  split
  · exact ⟨rfl, hshort⟩
  · exact ⟨rfl, List.forall_mem_singleton.2 trivial⟩

/-- A command of another type does nothing about it. -/
theorem dispatch_calm (s : Storage) (hdr : BeaconCmdHeader) (hfive : hdr.typeID ≠ 5)
    (hsix : hdr.typeID ≠ 6) (hnine : hdr.typeID ≠ 9) :
    (dispatch link s hdr payload).state.up = s.up ∧
      ∀ e ∈ (dispatch link s hdr payload).events, e.Calm := by
  obtain ⟨htx, hpart, hconfirm⟩ := down_calm (d := s.down) link hdr payload
  have hreport : ∀ {typeID : UInt8} {least : Nat} {short : List Event}
      {status : List UInt8 → UInt8} {mid : List UInt8 → UInt32}, (∀ e ∈ short, e.Calm) →
      (report typeID least short status mid s payload).state.up = s.up ∧
        ∀ e ∈ (report typeID least short status mid s payload).events, e.Calm := fun hshort =>
    ⟨congrArg Storage.up (report_calm hshort).1, (report_calm hshort).2⟩
  have hone : ∀ typeID : UInt8, ∀ e ∈ [onIcdRx typeID 30], e.Calm := fun typeID =>
    List.forall_mem_singleton.2 (calm_icdRx typeID 30)
  have hnone : ∀ e ∈ ([] : List Event), e.Calm := fun e he => absurd he List.not_mem_nil
  rw [dispatch]
  split
  · exact ⟨rfl, htx⟩
  · exact ⟨rfl, hpart⟩
  · exact hreport (hone 10)
  · exact ⟨rfl, hconfirm⟩
  · exact hreport (hone 13)
  · exact hreport (hone 15)
  · contradiction
  · contradiction
  · contradiction
  · exact hreport hnone
  · exact hreport hnone
  · exact hreport hnone
  · exact ⟨rfl, forall_pair trivial (calm_icdRx _ 0)⟩

/-- A bus beacon is staged, and no more. -/
theorem mem_busBeacon {d : Downlink} {msg : List UInt8} {sized : Bool} {seconds : UInt32}
    {e : Event} (he : e ∈ (d.onBusBeaconReceived msg sized seconds).2) :
    ∃ mid, e = .staged mid := by
  rw [Downlink.onBusBeaconReceived] at he
  split at he
  · exact absurd he List.not_mem_nil
  split at he
  · exact absurd he List.not_mem_nil
  split at he
  · exact absurd he List.not_mem_nil
  dsimp only at he
  split at he
  · exact absurd he List.not_mem_nil
  · exact ⟨_, List.mem_singleton.1 he⟩

theorem dispatch_step (s : Storage) (hdr : BeaconCmdHeader) (hc : s.up.complete = false) :
    UpStep s.up (.received hdr payload :: (dispatch link s hdr payload).events)
      (dispatch link s hdr payload).state.up := by
  by_cases hfive : hdr.typeID = 5
  · rw [dispatch, hfive]
    exact .headed link payload hfive hc
  by_cases hsix : hdr.typeID = 6
  · rw [dispatch, hsix]
    exact .offered link payload hsix hc
  by_cases hnine : hdr.typeID = 9
  · rw [dispatch, hnine]
    exact .parted link payload hnine hc
  have hrests := @dispatch_calm link payload s hdr hfive hsix hnine
  rw [hrests.1]
  exact .rests (List.forall_mem_cons.2 ⟨⟨hfive, hsix, hnine⟩, hrests.2⟩)

/-- **What a step of LTRX does** about the parts of an uplink. -/
theorem step_uplink (n : Node) (i : Input)
    (hidle : n.phase = .receiving → n.storage.up.complete = false) :
    UpStep n.storage.up (n.step i).2 (n.step i).1.storage.up := by
  have hnone : UpStep n.storage.up [] n.storage.up := .rests fun e he => absurd he List.not_mem_nil
  cases i with
  | child i =>
    rw [Node.step, Node.childStep]
    split
    · exact hnone
    · rename_i hphase
      show UpStep n.storage.up (n.bcnProcessOneRx i).2 (n.bcnProcessOneRx i).1.storage.up
      rw [Node.bcnProcessOneRx]
      split
      · exact .rests (List.forall_mem_singleton.2 trivial)
      dsimp only
      split
      · exact hnone
      · exact dispatch_step n.storage _ (hidle hphase)
    · refine .rests fun e (he : e ∈ (n.session.tick n.storage.up.complete i.clock).2) => ?_
      rcases Session.mem_tick he with rfl | rfl | rfl <;> trivial
    · show UpStep n.storage.up (n.storage.up.forwardToSB i.stack).2
        (n.storage.up.forwardToSB i.stack).1
      rw [UplinkRx.forwardToSB]
      split
      · exact hnone
      rename_i hc
      split
      · exact hnone
      · exact .forwards i.stack (Bool.eq_true_of_not_eq_false hc)
  | busBeacon msg sized seconds =>
    refine .rests fun e (he : e ∈ (n.storage.down.onBusBeaconReceived msg sized seconds).2) => ?_
    obtain ⟨mid, rfl⟩ := mem_busBeacon he
    trivial
  | sessionStartDownlink =>
    show UpStep n.storage.up [] n.sessionStartDownlinkCmd.storage.up
    rw [Node.sessionStartDownlinkCmd]
    split
    · exact hnone
    split
    · exact hnone
    · exact hnone
  | sessionAbort => exact hnone
  | sessionResetState => exact hnone
  | downstream enabled => exact hnone
  | setBusBeaconPeriod period =>
    show UpStep n.storage.up [] (n.setBusBeaconPeriodCmd period).storage.up
    rw [Node.setBusBeaconPeriodCmd]
    split
    · exact hnone
    · exact hnone

end Steps

/-! ## What the handlers do -/

namespace UplinkRx

/-- What type 9 does: it refuses the part, it does something about the wrong CRC, or it takes the
part in. -/
inductive PartOutcome (link : Nat → Bool) (u : UplinkRx) (payload : List UInt8) :
    Handled UplinkRx → Prop
  | refuses {es : List Event} {code : ReturnCode} (h : ∀ e ∈ es, e.Calm) :
      PartOutcome link u payload ⟨u, es, code⟩
  | fails {a : Handled UplinkRx} {e₁ e₂ : Event} (h : u.Fails payload)
      (ha : a = u.retryPart link (partHeaderLayout.read payload).partStartByte
        (partHeaderLayout.read payload).partLength) (h₁ : e₁.Calm) (h₂ : e₂.Calm) :
      PartOutcome link u payload ⟨a.state, e₁ :: a.events ++ [e₂], .success⟩
  | stores {h : PartHeader} {bytes : List UInt8} {a : Handled UplinkRx} {e₁ e₂ : Event}
      (hfits : u.Fits h bytes) (hh : h = partHeaderLayout.read payload)
      (hbytes : bytes = (payload.drop 12).take h.partLength.toNat)
      (ha : a = (u.store h bytes).advance link) (h₁ : e₁.Calm) (h₂ : e₂.Calm) :
      PartOutcome link u payload ⟨a.state, .stored h bytes :: e₁ :: e₂ :: a.events, a.code⟩

/-- What is done about the wrong CRC: the part that was asked for last is asked for again, a few
times, and any other part is asked for from then on. -/
inductive RetryOutcome (u : UplinkRx) (start len : UInt16) : Handled UplinkRx → Prop
  | again {ok : Bool} {code : ReturnCode} (hsame : start = u.lastPartStart ∧ len = u.lastPartLen)
      (hfew : u.lastPartRetry < uplinkMaxPartRetry) :
      RetryOutcome u start len ⟨{ u with lastPartRetry := u.lastPartRetry + 1 },
        [.sent (.partRequest u.request) ok], code⟩
  | drops (hsame : start = u.lastPartStart ∧ len = u.lastPartLen) :
      RetryOutcome u start len ⟨zero, [], .success⟩
  | other {ok : Bool} {code : ReturnCode}
      (hother : ¬(start = u.lastPartStart ∧ len = u.lastPartLen)) :
      RetryOutcome u start len
        ⟨u.asking start len, [.sent (.partRequest (u.asking start len).request) ok], code⟩

/-- What comes after a part: the next one is asked for, or the message is complete, or it is given
up. -/
inductive NextOutcome (u : UplinkRx) : Handled UplinkRx → Prop
  | asks {start len : UInt16} {ok : Bool} (hmissing : u.allReceived ≠ true)
      (hasks : (u.asking start len).AsksFirst) :
      NextOutcome u
        ⟨u.asking start len, [.sent (.partRequest (u.asking start len).request) ok], .success⟩
  | completes {e : Event} (hall : u.allReceived = true)
      (hcrc : calculateCRC32 u.message = u.msgCrc) (he : e.Calm) :
      NextOutcome u
        ⟨{ u with complete := true, inProgress := false }, [e, .completed u.msgId], .success⟩
  | drops (hall : u.allReceived = true) (hcrc : calculateCRC32 u.message ≠ u.msgCrc) :
      NextOutcome u ⟨zero, [onIcdRx 9 30], .success⟩

/-- What type 6 does: it refuses the offer, gives up what there is, or takes the offer. -/
inductive OfferOutcome (u : UplinkRx) : Handled UplinkRx → Prop
  | refuses {es : List Event} {code : ReturnCode} (h : ∀ e ∈ es, e.Calm) :
      OfferOutcome u ⟨u, es, code⟩
  | drops {es : List Event} {code : ReturnCode} (h : ∀ e ∈ es, e.Calm) :
      OfferOutcome u ⟨zero, es, code⟩
  | offers {h : MessageHeader} {e₁ e₂ : Event} (h₁ : e₁.Calm) (h₂ : e₂.Calm) :
      OfferOutcome u ⟨fresh h, [e₁, .announced h, e₂, .uplinkOffered], .success⟩

/-- What type 5 does: it refuses the header, maybe with what there is, or begins the message. -/
inductive HeaderOutcome (u : UplinkRx) (payload : List UInt8) : Handled UplinkRx → Prop
  | refuses {es : List Event} {code : ReturnCode} (h : ∀ e ∈ es, e.Calm) :
      HeaderOutcome u payload ⟨u, es, code⟩
  | drops {es : List Event} {code : ReturnCode} (h : ∀ e ∈ es, e.Calm) :
      HeaderOutcome u payload ⟨zero, es, code⟩
  | begins {u' : UplinkRx} {ok : Bool} {e : Event} {code : ReturnCode}
      (hasks : u'.AsksFirst) (hprogress : u'.inProgress = true)
      (hheader : u'.header = messageHeaderLayout.read payload)
      (hclear : u'.recvBitmap = Bitmap.clear _) (he : e.Calm) :
      HeaderOutcome u payload
        ⟨u', [.announced u'.header, .sent (.partRequest u'.request) ok, e], code⟩

variable {u : UplinkRx} {g : Ledger} {link : Nat → Bool} {payload : List UInt8}

theorem sendMsgPart_outcome : PartOutcome link u payload (u.sendMsgPart link payload) := by
  rw [sendMsgPart]
  split
  · exact .refuses (List.forall_mem_singleton.2 (calm_icdRx 9 30))
  rename_i hlong
  dsimp only
  split
  · exact .refuses (forall_pair trivial (calm_icdRx 9 30))
  rename_i hwanted
  split
  · exact .refuses (forall_pair trivial (calm_icdRx 9 10))
  rename_i hlength
  split
  · exact .refuses (forall_pair trivial (calm_icdRx 9 10))
  rename_i hinside
  have hprogress : u.inProgress = true :=
    Bool.eq_true_of_not_eq_false fun hp => hwanted (Or.inl hp)
  have hid : (partHeaderLayout.read payload).messageID = u.msgId :=
    Decidable.not_not.1 fun hne => hwanted (Or.inr hne)
  have hlength := Decidable.not_not.1 hlength
  split
  · rename_i hcrc
    exact .fails ⟨Nat.le_of_not_lt hlong, hprogress, hid, hlength, Nat.le_of_not_lt hinside, hcrc⟩
      rfl trivial (calm_icdRx 9 20)
  · rename_i hcrc
    have hsize : (List.take (partHeaderLayout.read payload).partLength.toNat
        (payload.drop 12)).length = (partHeaderLayout.read payload).partLength.toNat := by
      refine List.length_take_of_le ?_
      rw [hlength, UInt16.toNat_ofNat']
      exact Nat.mod_le _ _
    exact .stores ⟨hprogress, hid, hsize.symm, hsize.symm ▸ Nat.le_of_not_lt hinside,
      Decidable.not_not.1 hcrc⟩ rfl rfl rfl trivial (calm_icdRx 9 0)

theorem retryPart_outcome (start len : UInt16) :
    RetryOutcome u start len (u.retryPart link start len) := by
  rw [retryPart]
  split
  · rename_i hsame
    split
    · rename_i hfew
      obtain ⟨rfl, rfl⟩ := hsame
      exact .again ⟨rfl, rfl⟩ hfew
    · exact .drops hsame
  · rename_i hother
    exact .other hother

theorem offerReceiveMsg_outcome : OfferOutcome u (u.offerReceiveMsg link payload) := by
  rw [offerReceiveMsg]
  split
  · exact .refuses (List.forall_mem_singleton.2 (calm_icdRx 6 30))
  dsimp only
  split
  · exact .refuses (List.forall_mem_singleton.2 (calm_icdRx 6 30))
  split
  · exact .offers trivial (calm_icdRx 6 0)
  · exact .drops (forall_pair trivial (calm_icdRx 6 1))

theorem advance_outcome (hr : Receiving u g) (hp : u.inProgress = true) :
    NextOutcome u (u.advance link) := by
  rw [advance]
  split
  · rename_i hall
    split
    · rename_i hcrc
      exact .completes hall hcrc trivial
    · rename_i hcrc
      exact .drops hall hcrc
  · rename_i hall
    obtain ⟨start, len, hasks, heq⟩ := requestNextPart_asks hr hp hall (link 1)
    rw [heq]
    exact .asks hall hasks

/-- A message that begins is asked for. -/
theorem begin_outcome (hr : Receiving u g) (hp : u.inProgress = true) (hnone : u.receivedBytes = 0)
    (hsome : u.msgLen ≠ 0) (hclear : u.recvBitmap = Bitmap.clear _) {u₀ : UplinkRx}
    (hheader : u.header = messageHeaderLayout.read payload) :
    HeaderOutcome u₀ payload (u.begin link) := by
  have hmissing : u.allReceived ≠ true := by
    intro hall
    rw [allReceived_iff hp, hnone] at hall
    exact hsome (UInt16.toNat_inj.1 (Nat.le_zero.1 hall))
  obtain ⟨start, len, hasks, heq⟩ := requestNextPart_asks hr hp hmissing (link 0)
  rw [begin, heq]
  exact .begins hasks hp hheader hclear (calm_icdRx 5 _)

theorem sendMsgHeader_outcome (hr : Receiving u g) :
    HeaderOutcome u payload (u.sendMsgHeader link payload) := by
  rw [sendMsgHeader]
  split
  · exact .refuses (List.forall_mem_singleton.2 (calm_icdRx 5 30))
  dsimp only
  split
  · exact .refuses (List.forall_mem_singleton.2 (calm_icdRx 5 10))
  rename_i hvalid
  have hvalid := Decidable.not_not.1 hvalid
  have hsome : (messageHeaderLayout.read payload).messageLength ≠ 0 := fun hzero =>
    hvalid (Or.inl hzero)
  split
  · rename_i hprogress
    split
    · exact .drops (List.forall_mem_singleton.2 (calm_icdRx 5 30))
    · rename_i hsame
      have hsame : u.header = messageHeaderLayout.read payload := Decidable.not_not.1 hsame
      have hlength : u.msgLen ≠ 0 := by
        rw [← hsame] at hsome
        exact hsome
      exact begin_outcome (hr.restart hprogress.1) hprogress.1 rfl hlength rfl hsame
  · exact begin_outcome (receiving_fresh hvalid) rfl rfl hsome rfl rfl

end UplinkRx

/-! ## What is asked for -/

/-- A header or a part is accepted. -/
def Event.accepts : Event → Bool
  | .announced _ | .stored .. => true
  | _ => false

/-- A header or a part has been taken in, and not as an offer. -/
def TakesIn (es : List Event) : Prop := .uplinkOffered ∉ es ∧ ∃ e ∈ es, e.accepts

/-- **The part that is asked for is the first gap**, if something is missing. -/
def AsksNext (u : UplinkRx) (es : List Event) (u' : UplinkRx) : Prop :=
  TakesIn es →
    (u'.inProgress = true ∧ u'.AsksFirst ∧ requests es = [u'.request]) ∨
      ∃ h bytes, .stored h bytes ∈ es ∧ (u.store h bytes).allReceived = true

section Asking

variable {u u' : UplinkRx} {g : Ledger} {es : List Event}

theorem Event.Calm.not_accepts {e : Event} (h : e.Calm) : ¬e.accepts := by
  cases e <;> first | exact Bool.false_ne_true | exact absurd h id

/-- What asks for a part accepts nothing. -/
theorem not_accepts_of_asksFor {e : Event} (h : e.asksFor ≠ none) : ¬e.accepts := by
  cases e <;> first | exact Bool.false_ne_true | exact absurd rfl h

/-- Requests alone take nothing in. -/
theorem not_takesIn (h : ∀ e ∈ es, e.Calm ∨ e.asksFor ≠ none) : ¬TakesIn es := by
  rintro ⟨-, e, hmem, haccepts⟩
  exact (h e hmem).elim (fun hcalm => hcalm.not_accepts haccepts)
    fun hasks => not_accepts_of_asksFor hasks haccepts

theorem not_takesIn_of_calm (h : ∀ e ∈ es, e.Calm) : ¬TakesIn es :=
  not_takesIn fun e he => Or.inl (h e he)

/-- What is done about the wrong CRC takes nothing in. -/
theorem retry_idle {start len : UInt16} {a : Handled UplinkRx} (h : u.RetryOutcome start len a) :
    ∀ e ∈ a.events, e.asksFor ≠ none := by
  cases h with
  | again => exact List.forall_mem_singleton.2 (by simp)
  | drops => exact fun e he => absurd he List.not_mem_nil
  | other => exact List.forall_mem_singleton.2 (by simp)

theorem takesIn_received {hdr : BeaconCmdHeader} {payload : List UInt8} :
    TakesIn (.received hdr payload :: es) ↔ TakesIn es := by
  simp [TakesIn, Event.accepts]

theorem UpStep.asksNext (h : UpStep u es u') (hr : Receiving u g) : AsksNext u es u' := by
  intro htakes
  cases h with
  | rests hcalm => exact absurd htakes (not_takesIn_of_calm hcalm)
  | offered link payload =>
    rw [takesIn_received] at htakes
    have houtcome := @UplinkRx.offerReceiveMsg_outcome u link payload
    generalize u.offerReceiveMsg link payload = a at houtcome htakes ⊢
    cases houtcome with
    | refuses hcalm => exact absurd htakes (not_takesIn_of_calm hcalm)
    | drops hcalm => exact absurd htakes (not_takesIn_of_calm hcalm)
    | offers => exact absurd htakes.1 (by simp)
  | headed link payload =>
    rw [takesIn_received] at htakes
    have houtcome := @UplinkRx.sendMsgHeader_outcome u g link payload hr
    generalize u.sendMsgHeader link payload = a at houtcome htakes ⊢
    cases houtcome with
    | refuses hcalm => exact absurd htakes (not_takesIn_of_calm hcalm)
    | drops hcalm => exact absurd htakes (not_takesIn_of_calm hcalm)
    | begins hasks hprogress _ _ he =>
      exact Or.inl ⟨hprogress, hasks, by simp [he.asksFor]⟩
  | parted link payload =>
    rw [takesIn_received] at htakes
    have houtcome := @UplinkRx.sendMsgPart_outcome u link payload
    generalize u.sendMsgPart link payload = a at houtcome htakes ⊢
    cases houtcome with
    | refuses hcalm => exact absurd htakes (not_takesIn_of_calm hcalm)
    | fails hfails ha h₁ h₂ =>
      have hretry := @UplinkRx.retryPart_outcome u link
        (partHeaderLayout.read payload).partStartByte (partHeaderLayout.read payload).partLength
      rw [← ha] at hretry
      refine absurd htakes (not_takesIn fun e he => ?_)
      rcases List.mem_append.1 he with he | he
      · rcases List.mem_cons.1 he with rfl | he
        · exact Or.inl h₁
        · exact Or.inr (retry_idle hretry e he)
      · exact Or.inl (List.mem_singleton.1 he ▸ h₂)
    | stores hfits _ _ ha h₁ h₂ =>
      have hnext := @UplinkRx.advance_outcome _ _ link (hr.store hfits) hfits.inProgress
      rw [← ha] at hnext
      cases hnext with
      | asks hmissing hasks =>
        refine Or.inl ⟨hfits.inProgress, hasks, ?_⟩
        simp [h₁.asksFor, h₂.asksFor]
      | completes hall => exact Or.inr ⟨_, _, by simp, hall⟩
      | drops hall => exact Or.inr ⟨_, _, by simp, hall⟩
  | forwards stack => exact absurd htakes (by simp [TakesIn, Event.accepts])

end Asking

/-! ## Runs -/

/-- A state that can be reached. -/
def Reached (n : Node) : Prop := ∃ is, n = after is

theorem reached_step {n : Node} (h : Reached n) (i : Input) : Reached (n.step i).1 := by
  obtain ⟨is, rfl⟩ := h
  exact ⟨is ++ [i], (Node.machine.run_append Node.init is [i]).symm⟩

theorem Reached.receiving {n : Node} (h : Reached n) : ∃ g, Receiving n.storage.up g := by
  obtain ⟨is, rfl⟩ := h
  exact ⟨_, (uplinked is).1.receiving⟩

/-- **What a step does** in a state that can be reached. -/
theorem Reached.upStep {n : Node} (h : Reached n) (i : Input) :
    UpStep n.storage.up (n.step i).2 (n.step i).1.storage.up := by
  obtain ⟨is, rfl⟩ := h
  exact step_uplink _ i fun hphase => (uplinked is).2 (Or.inl hphase)

/-! ## How often a part is asked for -/

/-- A part with the wrong CRC is the one that was asked for last. -/
def FailsAsAsked (n : Node) (i : Input) : Prop :=
  ∀ hdr payload, .received hdr payload ∈ (n.step i).2 → hdr.typeID = 9 →
    n.storage.up.Fails payload →
      (partHeaderLayout.read payload).partStartByte = n.storage.up.lastPartStart ∧
        (partHeaderLayout.read payload).partLength = n.storage.up.lastPartLen

/-- How often a part is asked for. -/
def timesAsked (start len : UInt16) (es : List Event) : Nat :=
  (requests es).countP fun r => r.partStartByte = start ∧ r.partLength = len

/-- How often a part can be asked for again. -/
def UplinkRx.retriesLeft (u : UplinkRx) (start len : UInt16) : Nat :=
  if u.inProgress ∧ start = u.lastPartStart ∧ len = u.lastPartLen then
    uplinkMaxPartRetry.toNat - u.lastPartRetry.toNat
  else 0

section Retries

variable {u u' : UplinkRx} {g : Ledger} {es es' : List Event} {start len : UInt16}

theorem timesAsked_append : timesAsked start len (es ++ es') =
    timesAsked start len es + timesAsked start len es' := by
  rw [timesAsked, requests_append, List.countP_append]
  rfl

theorem timesAsked_calm (h : ∀ e ∈ es, e.Calm) : timesAsked start len es = 0 := by
  rw [timesAsked, requests_calm h, List.countP_nil]

theorem timesAsked_received (hdr : BeaconCmdHeader) (payload : List UInt8) :
    timesAsked start len (.received hdr payload :: es) = timesAsked start len es := by
  rw [timesAsked, requests_cons, Event.asksFor_received, Option.toList_none, List.nil_append,
    timesAsked]

theorem retriesLeft_zero : UplinkRx.zero.retriesLeft start len = 0 :=
  if_neg fun h => Bool.noConfusion h.1

/-- A part that is asked for again has one time less left. -/
theorem retriesLeft_again (hp : u.inProgress = true) (hfew : u.lastPartRetry < uplinkMaxPartRetry)
    (ok : Bool) :
    timesAsked start len [.sent (.partRequest u.request) ok] +
      { u with lastPartRetry := u.lastPartRetry + 1 }.retriesLeft start len ≤
        u.retriesLeft start len := by
  have hfive : uplinkMaxPartRetry.toNat = 5 := rfl
  have hlt := UInt8.lt_iff_toNat_lt.1 hfew
  have hnext : (u.lastPartRetry + 1).toNat = u.lastPartRetry.toNat + 1 := by
    rw [UInt8.toNat_add, UInt8.toNat_one, Nat.mod_eq_of_lt (by omega)]
  rw [timesAsked, requests_cons, Event.asksFor_partRequest, Option.toList_some, requests_nil,
    List.append_nil, List.countP_singleton, UplinkRx.retriesLeft, UplinkRx.retriesLeft]
  by_cases hsame : start = u.lastPartStart ∧ len = u.lastPartLen
  · have hreq : u.request.partStartByte = start ∧ u.request.partLength = len :=
      ⟨hsame.1.symm, hsame.2.symm⟩
    rw [if_pos (decide_eq_true hreq), if_pos ⟨hp, hsame⟩, if_pos ⟨hp, hsame⟩]
    dsimp only
    omega
  · have hreq : ¬(u.request.partStartByte = start ∧ u.request.partLength = len) := fun h =>
      hsame ⟨h.1.symm, h.2.symm⟩
    rw [if_neg (mt of_decide_eq_true hreq), if_neg fun h => hsame h.2,
      if_neg fun h => hsame h.2]

/-- **A step that accepts nothing** uses up what it asks for. -/
theorem UpStep.retries (h : UpStep u es u') (hr : Receiving u g) (hnone : ∀ e ∈ es, ¬e.accepts)
    (hasked : ∀ hdr payload, .received hdr payload ∈ es → hdr.typeID = 9 → u.Fails payload →
      (partHeaderLayout.read payload).partStartByte = u.lastPartStart ∧
        (partHeaderLayout.read payload).partLength = u.lastPartLen) :
    timesAsked start len es + u'.retriesLeft start len ≤ u.retriesLeft start len := by
  have hsame : ∀ {es : List Event}, (∀ e ∈ es, e.Calm) →
      timesAsked start len es + u.retriesLeft start len ≤ u.retriesLeft start len := by
    intro es hcalm
    rw [timesAsked_calm hcalm, Nat.zero_add]
  have hdropped : ∀ {es : List Event}, (∀ e ∈ es, e.Calm) →
      timesAsked start len es + UplinkRx.zero.retriesLeft start len ≤ u.retriesLeft start len := by
    intro es hcalm
    rw [timesAsked_calm hcalm, retriesLeft_zero]
    exact Nat.zero_le _
  cases h with
  | rests hcalm => exact hsame hcalm
  | offered link payload =>
    have houtcome := @UplinkRx.offerReceiveMsg_outcome u link payload
    rw [timesAsked_received]
    have hnone := fun e he => hnone e (List.mem_cons_of_mem _ he)
    generalize u.offerReceiveMsg link payload = a at houtcome hnone ⊢
    cases houtcome with
    | refuses hcalm => exact hsame hcalm
    | drops hcalm => exact hdropped hcalm
    | offers => exact absurd rfl (hnone _ (List.mem_cons_of_mem _ List.mem_cons_self))
  | headed link payload =>
    have houtcome := @UplinkRx.sendMsgHeader_outcome u g link payload hr
    rw [timesAsked_received]
    have hnone := fun e he => hnone e (List.mem_cons_of_mem _ he)
    generalize u.sendMsgHeader link payload = a at houtcome hnone ⊢
    cases houtcome with
    | refuses hcalm => exact hsame hcalm
    | drops hcalm => exact hdropped hcalm
    | begins => exact absurd rfl (hnone _ List.mem_cons_self)
  | parted link payload htype =>
    have hlast := hasked _ payload List.mem_cons_self htype
    have houtcome := @UplinkRx.sendMsgPart_outcome u link payload
    rw [timesAsked_received]
    have hnone := fun e he => hnone e (List.mem_cons_of_mem _ he)
    generalize u.sendMsgPart link payload = a at houtcome hnone ⊢
    cases houtcome with
    | refuses hcalm => exact hsame hcalm
    | @fails a e₁ e₂ hfails ha h₁ h₂ =>
      have hretry := @UplinkRx.retryPart_outcome u link
        (partHeaderLayout.read payload).partStartByte (partHeaderLayout.read payload).partLength
      rw [← ha] at hretry
      have hask :
          timesAsked start len (e₁ :: a.events ++ [e₂]) = timesAsked start len a.events := by
        simp [timesAsked, requests_append, h₁.asksFor, h₂.asksFor]
      rw [hask]
      cases hretry with
      | again hsame hfew => exact retriesLeft_again hfails.inProgress hfew _
      | drops =>
        rw [retriesLeft_zero]
        exact Nat.zero_le _
      | other hother => exact absurd (hlast hfails) hother
    | stores => exact absurd rfl (hnone _ List.mem_cons_self)
  | forwards stack =>
    rw [retriesLeft_zero]
    exact Nat.zero_le _

end Retries

/-- **A part is asked for again at most five times**, if the parts that fail are those that were
asked for. -/
theorem retries_le {n : Node} (hn : Reached n) {js : List Input}
    (hasked : ∀ pre i, pre ++ [i] <+: js → FailsAsAsked (Node.machine.run n pre) i)
    (hnone : ∀ e ∈ Node.machine.history n js, ¬e.accepts) (start len : UInt16) :
    timesAsked start len (Node.machine.history n js) ≤ n.storage.up.retriesLeft start len := by
  induction js generalizing n with
  | nil => exact Nat.zero_le _
  | cons i js ih =>
    rw [Machine.history_cons] at hnone ⊢
    obtain ⟨hfirst, hrest⟩ := forall_steps_cons.1 hasked
    obtain ⟨g, hr⟩ := hn.receiving
    have hstep := @UpStep.retries _ _ g _ start len (hn.upStep i) hr
      (fun e he => hnone e (List.mem_append_left _ he)) hfirst
    have hafter := ih (reached_step hn i) hrest fun e he => hnone e (List.mem_append_right _ he)
    rw [timesAsked_append]
    exact Nat.le_trans (Nat.add_le_add_left hafter _) hstep

/-! ## A beacon that answers -/

/-- A part is asked for, and what has been received is right. -/
structure UplinkRx.Asks (m : List UInt8) (u : UplinkRx) : Prop where
  inProgress : u.inProgress = true
  length : u.msgLen.toNat = m.length
  crc : u.msgCrc = calculateCRC32 m
  first : u.AsksFirst
  bytes : ∀ i, u.recvBitmap.marked i → Cells.get u.buf i = m.getD i 0

/-- The bytes of the part that is asked for. -/
def UplinkRx.wanted (m : List UInt8) (u : UplinkRx) : List UInt8 :=
  (m.drop u.lastPartStart.toNat).take u.lastPartLen.toNat

/-- The payload of the command that the beacon sends when it is asked for a part. -/
def UplinkRx.answer (m : List UInt8) (u : UplinkRx) : List UInt8 :=
  (Outgoing.messagePart u.msgId u.lastPartStart (u.wanted m)).payload

/-- Of the commands that concern an uplink only answers are received. -/
def Answers (m : List UInt8) (n : Node) (i : Input) : Prop :=
  ∀ hdr payload, .received hdr payload ∈ (n.step i).2 →
    hdr.typeID = 5 ∨ hdr.typeID = 6 ∨ hdr.typeID = 9 →
      hdr.typeID = 9 ∧ payload = n.storage.up.answer m

/-- A part is received. -/
def Event.isPart : Event → Bool
  | .received hdr _ => hdr.typeID = 9
  | _ => false

@[simp] theorem Event.isPart_received (hdr : BeaconCmdHeader) (payload : List UInt8) :
    (received hdr payload).isPart = decide (hdr.typeID = 9) := rfl
@[simp] theorem Event.isPart_stored (h : PartHeader) (bytes : List UInt8) :
    (stored h bytes).isPart = false := rfl
@[simp] theorem Event.isPart_sent (o : Outgoing) (ok : Bool) : (sent o ok).isPart = false := rfl

/-- How many parts are received. -/
def parts (es : List Event) : Nat := es.countP Event.isPart

/-- How many bytes are missing. -/
def UplinkRx.missing (u : UplinkRx) : Nat := u.msgLen.toNat - u.recvBitmap.marks

section Answering

variable {u u' : UplinkRx} {g : Ledger} {es es' : List Event} {m : List UInt8} {link : Nat → Bool}

namespace UplinkRx

/-- The part that is asked for lies in the message, and its first byte is missing. -/
theorem Asks.wanted (ha : u.Asks m) :
    (u.wanted m).length = u.lastPartLen.toNat ∧ checkPart (u.wanted m).length = .success ∧
      u.lastPartStart.toNat + (u.wanted m).length ≤ u.msgLen.toNat ∧
      u.recvBitmap.marked u.lastPartStart.toNat = false := by
  obtain ⟨gap, hgap, hstart, hlen⟩ := ha.first
  have hpos := hgap.run.pos
  have hle := hgap.run.le
  have hmin : u.lastPartLen.toNat ≤ gap.2 := hlen ▸ Nat.min_le_left _ _
  have hmax : u.lastPartLen.toNat ≤ maxMessagePartSize := hlen ▸ Nat.min_le_right _ _
  have hsome : 0 < u.lastPartLen.toNat := by
    rw [hlen, uplinkPartReqLen]
    omega
  have hlength : (u.wanted m).length = u.lastPartLen.toNat := by
    rw [UplinkRx.wanted, List.length_take, List.length_drop, ← ha.length]
    omega
  refine ⟨hlength, ?_, ?_, ?_⟩
  · rw [hlength, checkPart, if_neg (Nat.ne_of_gt hsome), if_neg (Nat.not_lt.2 hmax)]
  · rw [hlength]
    omega
  · rw [hstart]
    exact hgap.run.all gap.1 (Nat.le_refl _) (by omega)

/-- **The answer** is taken in. -/
theorem Asks.stores (ha : u.Asks m) {a : Handled UplinkRx}
    (h : a = u.sendMsgPart link (u.answer m)) :
    ∃ hdr next e₁ e₂, u.Fits hdr (u.wanted m) ∧ hdr.partStartByte = u.lastPartStart ∧
      next = (u.store hdr (u.wanted m)).advance link ∧ Event.Calm e₁ ∧ Event.Calm e₂ ∧
      a = ⟨next.state, .stored hdr (u.wanted m) :: e₁ :: e₂ :: next.events, next.code⟩ := by
  obtain ⟨-, hpart, hinside, -⟩ := ha.wanted
  obtain ⟨es, hevents⟩ := sendMsgPart_sent link ha.inProgress hpart hinside
  have houtcome := @sendMsgPart_outcome u link (u.answer m)
  have hevents : a.events = .stored (sentPart u.msgId u.lastPartStart (u.wanted m))
      (u.wanted m) :: es := h ▸ hevents
  rw [← h] at houtcome
  cases houtcome with
  | refuses hcalm =>
    dsimp only at hevents
    rw [hevents] at hcalm
    exact absurd rfl (hcalm _ List.mem_cons_self).not_accepts
  | @fails a e₁ e₂ _ _ h₁ =>
    have hhead : e₁ = .stored _ _ := (List.cons.inj hevents).1
    rw [hhead] at h₁
    exact absurd rfl h₁.not_accepts
  | stores hfits _ _ hnext h₁ h₂ =>
    obtain ⟨hhdr, hbytes⟩ := Event.stored.inj (List.cons.inj hevents).1
    subst hhdr hbytes
    exact ⟨_, _, _, _, hfits, rfl, hnext, h₁, h₂, rfl⟩

/-- What it leaves is right, and at least one more byte has been received. -/
theorem Asks.store {hdr : PartHeader} (ha : u.Asks m) (hr : Receiving u g)
    (hfits : u.Fits hdr (u.wanted m)) (hstart : hdr.partStartByte = u.lastPartStart) :
    u.recvBitmap.marks < (u.store hdr (u.wanted m)).recvBitmap.marks ∧
      ∀ i, (u.store hdr (u.wanted m)).recvBitmap.marked i →
        Cells.get (u.store hdr (u.wanted m)).buf i = m.getD i 0 := by
  obtain ⟨hlength, hpart, hinside, hfirst⟩ := ha.wanted
  obtain ⟨hpos, -⟩ := checkPart_eq hpart
  obtain ⟨hbuf, hmarked, -⟩ := store_spec hfits hr.length hr.count
  refine ⟨Bitmap.marks_lt (fun i hi => ?_) hfirst ?_, fun i hi => ?_⟩
  · rw [hmarked i, hi, Bool.or_true]
  · have hcovers : covers hdr (u.wanted m) u.lastPartStart.toNat := by
      rw [covers, hstart]
      exact ⟨Nat.le_refl _, Nat.lt_add_of_pos_right hpos⟩
    rw [hmarked, decide_eq_true hcovers, Bool.true_or]
  · rw [hbuf i]
    by_cases hcovers : covers hdr (u.wanted m) i
    · rw [if_pos hcovers]
      obtain ⟨hfrom, hto⟩ := hcovers
      rw [hstart] at hfrom hto ⊢
      have hoff : u.lastPartStart.toNat + (i - u.lastPartStart.toNat) = i := by omega
      rw [List.getD_eq_getElem?_getD, List.getD_eq_getElem?_getD, UplinkRx.wanted,
        List.getElem?_take_of_lt (by omega), List.getElem?_drop, hoff]
    · rw [if_neg hcovers]
      rw [hmarked i, decide_eq_false hcovers, Bool.false_or] at hi
      exact ha.bytes i hi

/-- When nothing is missing, the message is there. -/
theorem message_eq (hr : Receiving u g) (hlen : u.msgLen.toNat = m.length)
    (hp : u.inProgress = true) (hall : u.allReceived = true)
    (hbytes : ∀ i, u.recvBitmap.marked i → Cells.get u.buf i = m.getD i 0) : u.message = m := by
  rw [allReceived_iff hp, hr.count] at hall
  refine List.ext_getElem? fun i => ?_
  by_cases hi : i < u.msgLen.toNat
  · have hmarked := Bitmap.marked_of_marks hr.length hr.below hall hi
    have him : i < m.length := hlen ▸ hi
    rw [getElem?_message hr.length hi, hbytes i hmarked, List.getD_eq_getElem?_getD,
      List.getElem?_eq_getElem him, Option.getD_some]
  · have hle := Nat.le_of_not_lt hi
    rw [List.getElem?_eq_none (by rw [length_message hr.length]; exact hle),
      List.getElem?_eq_none (hlen ▸ hle)]

/-- What is asked for is missing. -/
theorem Asks.marks_lt (ha : u.Asks m) (hr : Receiving u g) :
    u.recvBitmap.marks < u.msgLen.toNat := by
  obtain ⟨-, hpart, hinside, hfirst⟩ := ha.wanted
  obtain ⟨hpos, -⟩ := checkPart_eq hpart
  refine Nat.lt_of_not_le fun hall => ?_
  have hmarked := Bitmap.marked_of_marks hr.length hr.below hall
    (Nat.lt_of_lt_of_le (Nat.lt_add_of_pos_right hpos) hinside)
  exact Bool.noConfusion (hfirst.symm.trans hmarked)

end UplinkRx

theorem parts_append : parts (es ++ es') = parts es + parts es' := List.countP_append

theorem Event.Calm.isPart {e : Event} (h : e.Calm) : e.isPart = false := by
  cases e with
  | received hdr payload => exact decide_eq_false h.2.2
  | _ => rfl

theorem parts_calm (h : ∀ e ∈ es, e.Calm) : parts es = 0 :=
  List.countP_eq_zero.2 fun e he => Bool.eq_false_iff.1 (h e he).isPart

/-- A command that is not about an uplink is no answer. -/
theorem answers_type {hdr : BeaconCmdHeader} {payload : List UInt8}
    (h : ∀ hdr' payload', .received hdr' payload' ∈ Event.received hdr payload :: es →
      hdr'.typeID = 5 ∨ hdr'.typeID = 6 ∨ hdr'.typeID = 9 →
        hdr'.typeID = 9 ∧ payload' = u.answer m)
    (htype : hdr.typeID = 5 ∨ hdr.typeID = 6 ∨ hdr.typeID = 9) :
    hdr.typeID = 9 ∧ payload = u.answer m := h hdr payload List.mem_cons_self htype

/-- **An answer** adds a byte at least, or it completes the message. -/
theorem UpStep.answered (h : UpStep u es u') (hr : Receiving u g) (ha : u.Asks m)
    (hanswers : ∀ hdr payload, .received hdr payload ∈ es →
      hdr.typeID = 5 ∨ hdr.typeID = 6 ∨ hdr.typeID = 9 →
        hdr.typeID = 9 ∧ payload = u.answer m) :
    (u'.Asks m ∧ u'.msgId = u.msgId ∧ u'.msgLen = u.msgLen ∧
        u.recvBitmap.marks + parts es ≤ u'.recvBitmap.marks) ∨
      .completed u.msgId ∈ es ∧ u'.complete = true ∧ u'.msgId = u.msgId ∧ u'.message = m := by
  cases h with
  | rests hcalm =>
    rw [parts_calm hcalm]
    exact Or.inl ⟨ha, rfl, rfl, Nat.le_refl _⟩
  | offered link payload htype =>
    have hnine := (answers_type hanswers (Or.inr (Or.inl htype))).1
    rw [htype] at hnine
    exact absurd hnine (by decide)
  | headed link payload htype =>
    have hnine := (answers_type hanswers (Or.inl htype)).1
    rw [htype] at hnine
    exact absurd hnine (by decide)
  | parted link payload htype =>
    obtain ⟨-, rfl⟩ := answers_type hanswers (Or.inr (Or.inr htype))
    obtain ⟨hdr, next, e₁, e₂, hfits, hstart, hnext, h₁, h₂, heq⟩ :=
      @UplinkRx.Asks.stores u m link ha _ rfl
    rw [heq]
    obtain ⟨hmore, hbytes⟩ := ha.store hr hfits hstart
    have hr' := hr.store hfits
    have houtcome := @UplinkRx.advance_outcome _ _ link hr' ha.inProgress
    rw [← hnext] at houtcome
    cases houtcome with
    | asks hmissing hasks =>
      refine Or.inl ⟨⟨ha.inProgress, ha.length, ha.crc, hasks, hbytes⟩, rfl, rfl, ?_⟩
      simp only [parts, List.countP_cons, List.countP_nil, Event.isPart_received,
        Event.isPart_stored, Event.isPart_sent, h₁.isPart, h₂.isPart, htype]
      exact hmore
    | completes hall =>
      have hid : (u.store hdr (u.wanted m)).msgId = u.msgId := rfl
      have hmessage := UplinkRx.message_eq hr' ha.length ha.inProgress hall hbytes
      exact Or.inr ⟨by simp [hid], rfl, rfl, hmessage⟩
    | drops hall hcrc =>
      rw [UplinkRx.message_eq hr' ha.length ha.inProgress hall hbytes] at hcrc
      exact absurd ha.crc.symm hcrc
  | forwards stack hc =>
    rw [hr.complete_of_progress ha.inProgress] at hc
    exact Bool.noConfusion hc

end Answering

/-- A message is complete, or it has been forwarded. -/
def Arrives (m : List UInt8) (mid : UInt32) (u : UplinkRx) (es : List Event) : Prop :=
  (u.complete = true ∧ u.msgId = mid ∧ u.message = m) ∨
    ∃ length buf, .transmitted mid length buf ∈ es ∧ buf.take length.toNat = m

/-- What is complete is forwarded. -/
theorem arrives_complete {n : Node} (hn : Reached n) (hc : n.storage.up.complete = true)
    (js : List Input) :
    Arrives n.storage.up.message n.storage.up.msgId (Node.machine.run n js).storage.up
      (Node.machine.history n js) := by
  induction js generalizing n with
  | nil => exact Or.inl ⟨hc, rfl, rfl⟩
  | cons i js ih =>
    obtain ⟨g, hr⟩ := hn.receiving
    have hstep := hn.upStep i
    have hbusy : n.storage.up.complete ≠ false := by rw [hc]; exact Bool.noConfusion
    have hrest := @ih _ (reached_step hn i)
    rw [Machine.history_cons]
    show Arrives _ _ (Node.machine.run (n.step i).1 js).storage.up
      ((n.step i).2 ++ Node.machine.history (n.step i).1 js)
    revert hrest
    generalize (Node.machine.run (n.step i).1 js).storage.up = u'
    generalize Node.machine.history (n.step i).1 js = es'
    generalize (n.step i).2 = es at hstep ⊢
    generalize (n.step i).1.storage.up = u at hstep ⊢
    intro hrest
    cases hstep with
    | rests =>
      refine (hrest hc).imp_right ?_
      rintro ⟨length, buf, hmem, hbuf⟩
      exact ⟨length, buf, List.mem_append_right _ hmem, hbuf⟩
    | offered _ _ _ hidle => exact absurd hidle hbusy
    | headed _ _ _ hidle => exact absurd hidle hbusy
    | parted _ _ _ hidle => exact absurd hidle hbusy
    | forwards stack =>
      exact Or.inr ⟨_, _, List.mem_append_left _ List.mem_cons_self,
        UplinkRx.take_packet hr.length stack⟩

/-- **A run with answers only** adds a byte with each of them, until the message is complete. -/
theorem answered_run {n : Node} {m : List UInt8} (hn : Reached n) (ha : n.storage.up.Asks m)
    {js : List Input}
    (hanswers : ∀ pre i, pre ++ [i] <+: js → Answers m (Node.machine.run n pre) i) :
    ((Node.machine.run n js).storage.up.Asks m ∧
        (Node.machine.run n js).storage.up.msgLen = n.storage.up.msgLen ∧
        n.storage.up.recvBitmap.marks + parts (Node.machine.history n js) ≤
          (Node.machine.run n js).storage.up.recvBitmap.marks) ∨
      .completed n.storage.up.msgId ∈ Node.machine.history n js ∧
        Arrives m n.storage.up.msgId (Node.machine.run n js).storage.up
          (Node.machine.history n js) := by
  induction js generalizing n with
  | nil => exact Or.inl ⟨ha, rfl, Nat.le_refl _⟩
  | cons i js ih =>
    obtain ⟨hfirst, hrest⟩ := forall_steps_cons.1 hanswers
    obtain ⟨g, hr⟩ := hn.receiving
    have hn' := reached_step hn i
    rw [Machine.history_cons]
    rcases (hn.upStep i).answered hr ha hfirst with ⟨ha', hid, hlen, hmarks⟩ | ⟨hdone, hc, hid, hm⟩
    · refine (ih hn' ha' hrest).imp ?_ ?_
      · rintro ⟨hasks, hlen', hmarks'⟩
        refine ⟨hasks, hlen'.trans hlen, ?_⟩
        rw [parts_append, ← Nat.add_assoc]
        exact Nat.le_trans (Nat.add_le_add_right hmarks _) hmarks'
      · rintro ⟨hdone, harrives⟩
        rw [hid] at hdone harrives
        refine ⟨List.mem_append_right _ hdone, harrives.imp_right ?_⟩
        rintro ⟨length, buf, hmem, hbuf⟩
        exact ⟨length, buf, List.mem_append_right _ hmem, hbuf⟩
    · have harrives := arrives_complete hn' hc js
      rw [hid, hm] at harrives
      refine Or.inr ⟨List.mem_append_left _ hdone, harrives.imp_right ?_⟩
      rintro ⟨length, buf, hmem, hbuf⟩
      exact ⟨length, buf, List.mem_append_right _ hmem, hbuf⟩

/-- **A header** asks for the message from the start. -/
theorem UpStep.begins {u u' : UplinkRx} {g : Ledger} {es : List Event} {m : List UInt8}
    {h : MessageHeader} (hstep : UpStep u es u') (hr : Receiving u g)
    (hoffer : .uplinkOffered ∉ es) (hmem : .announced h ∈ es)
    (hlen : h.messageLength.toNat = m.length) (hcrc : h.messageCRC = calculateCRC32 m) :
    u'.Asks m := by
  have hcalm : ∀ {es : List Event}, (∀ e ∈ es, e.Calm) → .announced h ∉ es := fun hcalm hmem =>
    absurd rfl (hcalm _ hmem).not_accepts
  cases hstep with
  | rests hall => exact absurd hmem (hcalm hall)
  | offered link payload =>
    have hmem := List.mem_of_ne_of_mem Event.noConfusion hmem
    have houtcome := @UplinkRx.offerReceiveMsg_outcome u link payload
    generalize u.offerReceiveMsg link payload = a at houtcome hmem hoffer ⊢
    cases houtcome with
    | refuses hall => exact absurd hmem (hcalm hall)
    | drops hall => exact absurd hmem (hcalm hall)
    | offers => exact absurd (by simp) hoffer
  | headed link payload =>
    have hmem := List.mem_of_ne_of_mem Event.noConfusion hmem
    have houtcome := @UplinkRx.sendMsgHeader_outcome u g link payload hr
    generalize u.sendMsgHeader link payload = a at houtcome hmem ⊢
    cases houtcome with
    | refuses hall => exact absurd hmem (hcalm hall)
    | drops hall => exact absurd hmem (hcalm hall)
    | @begins u' ok e code hasks hprogress hheader hclear he =>
      have hsame : h = u'.header := by
        rcases List.mem_cons.1 hmem with heq | hmem
        · exact Event.announced.inj heq
        rcases List.mem_cons.1 hmem with heq | hmem
        · exact Event.noConfusion heq
        · rw [← List.mem_singleton.1 hmem] at he
          exact absurd rfl he.not_accepts
      rw [hsame] at hlen hcrc
      refine ⟨hprogress, hlen, hcrc, hasks, fun i hi => ?_⟩
      rw [hclear, Bitmap.marked_clear] at hi
      exact Bool.noConfusion hi
  | parted link payload htype =>
    have hmem := List.mem_of_ne_of_mem Event.noConfusion hmem
    have hsays := sendMsgPart_says htype _ hmem
    rcases hsays.1 with hfive | hsix
    · exact absurd (htype.symm.trans hfive) (by decide)
    · exact absurd (htype.symm.trans hsix) (by decide)
  | forwards stack => exact absurd hmem (by simp)

/-- **Parts are asked for until all are there.**  After a header or a part that is accepted the
first gap is asked for, unless nothing is missing any more; a beacon that answers completes the
message, with at least one new byte in each answer; and a part that fails is asked for again at most
five times, if every part that fails is the one that was asked for last. -/
theorem uplink_progress (is : List Input) :
    (∀ i, AsksNext (after is).storage.up ((after is).step i).2 ((after is).step i).1.storage.up) ∧
    (∀ m : List UInt8,
      (∀ i h, .uplinkOffered ∉ ((after is).step i).2 → .announced h ∈ ((after is).step i).2 →
        h.messageLength.toNat = m.length → h.messageCRC = calculateCRC32 m →
          ((after is).step i).1.storage.up.Asks m) ∧
      ((after is).storage.up.Asks m → ∀ js,
        (∀ pre i, pre ++ [i] <+: js → Answers m (Node.machine.run (after is) pre) i) →
          ((Node.machine.run (after is) js).storage.up.Asks m ∧
            (after is).storage.up.recvBitmap.marks +
                parts (Node.machine.history (after is) js) ≤
              (Node.machine.run (after is) js).storage.up.recvBitmap.marks ∧
            parts (Node.machine.history (after is) js) < (after is).storage.up.missing) ∨
          .completed (after is).storage.up.msgId ∈ Node.machine.history (after is) js ∧
            Arrives m (after is).storage.up.msgId (Node.machine.run (after is) js).storage.up
              (Node.machine.history (after is) js))) ∧
    ∀ js, (∀ pre i, pre ++ [i] <+: js → FailsAsAsked (Node.machine.run (after is) pre) i) →
      (∀ e ∈ Node.machine.history (after is) js, ¬e.accepts) →
        ∀ start len, timesAsked start len (Node.machine.history (after is) js) ≤
          uplinkMaxPartRetry.toNat := by
  have hn : Reached (after is) := ⟨is, rfl⟩
  obtain ⟨g, hr⟩ := hn.receiving
  refine ⟨fun i => (hn.upStep i).asksNext hr, fun m => ⟨fun i h hoffer hmem hlen hcrc =>
    (hn.upStep i).begins hr hoffer hmem hlen hcrc, fun ha js hanswers => ?_⟩,
    fun js hasked hnone start len => ?_⟩
  · refine (answered_run hn ha hanswers).imp_left ?_
    rintro ⟨hasks, hlen, hmarks⟩
    have hn' : Reached (Node.machine.run (after is) js) :=
      ⟨is ++ js, (Node.machine.run_append Node.init is js).symm⟩
    obtain ⟨g', hr'⟩ := hn'.receiving
    have hmissing := hasks.marks_lt hr'
    rw [hlen] at hmissing
    refine ⟨hasks, hmarks, ?_⟩
    rw [UplinkRx.missing]
    omega
  · refine Nat.le_trans (retries_le hn hasked hnone start len) ?_
    rw [UplinkRx.retriesLeft]
    split
    · exact Nat.sub_le _ _
    · exact Nat.zero_le _

/-- A part of one byte, with the wrong CRC. -/
def badPart (start : UInt16) : List UInt8 := partHeaderLayout.bytes ⟨1, start, 1, 0⟩ ++ [0]

/-- The child task receives a command, ticks the session and forwards. -/
def turn (d : List UInt8) : List Input := List.replicate 3 (.child (delivering d))

/-- A message of two bytes is offered. -/
def offered : List Input :=
  .child (delivering []) :: turn (command 6 (messageHeaderLayout.bytes ⟨1, 2, 0⟩))

/-- Its two bytes come in turn, each as a part with the wrong CRC, six times. -/
def failing : List Input :=
  (List.replicate 6 (turn (command 9 (badPart 0)) ++ turn (command 9 (badPart 1)))).flatten

/-- **Two parts that fail in turn** are asked for as often as they come. -/
theorem asked_for_ever : ∃ is js start len,
    (∀ e ∈ Node.machine.history (after is) js, ¬e.accepts) ∧
      uplinkMaxPartRetry.toNat < timesAsked start len (Node.machine.history (after is) js) := by
  refine ⟨offered, failing, 0, 1, ?_, ?_⟩
  · decide +kernel
  · decide +kernel

end Ltrx
end FlightApps
