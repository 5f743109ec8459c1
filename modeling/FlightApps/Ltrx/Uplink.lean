import FlightApps.Ltrx.Framing
import FlightApps.Ltrx.Node

/-!
# Moves of the uplink

What a part leaves in the buffer and in the bitmap (`store_spec`), and what can happen to an uplink
at all (`UpMove`): every step of LTRX is a string of such moves (`step_up`), and what is proved of an
uplink is proved of the moves.
-/

set_option autoImplicit false

namespace FlightApps
namespace Ltrx

/-! ## Marking -/

section Marking

variable {bm : Bitmap uplinkBitmapBytes} {c : UInt16} {a n : Nat}

/-- What the loop of `Uplink_MarkReceived` does: it marks the bytes and counts the new ones. -/
theorem foldl_markNew (ha : a + n ≤ uplinkMaxLen) (hc : c.toNat + n < 65536) :
    (∀ j, ((List.range' a n).foldl markNew (bm, c)).1.marked j =
      (decide (a ≤ j ∧ j < a + n) || bm.marked j)) ∧
    ((List.range' a n).foldl markNew (bm, c)).1.marks + c.toNat =
      bm.marks + ((List.range' a n).foldl markNew (bm, c)).2.toNat := by
  induction n generalizing a bm c with
  | zero =>
    refine ⟨fun j => ?_, rfl⟩
    have hnone : ¬(a ≤ j ∧ j < a + 0) := by omega
    rw [decide_eq_false hnone, Bool.false_or]
    rfl
  | succ n ih =>
    have ha : a + 1 + n ≤ uplinkMaxLen := by omega
    rw [List.range'_succ, List.foldl_cons, markNew]
    by_cases hold : bm.marked a
    · rw [if_pos hold]
      obtain ⟨hmarked, hmarks⟩ := ih (c := c) ha (by omega)
      refine ⟨fun j => ?_, hmarks⟩
      rw [hmarked j]
      by_cases hj : j = a
      · rw [hj, hold, Bool.or_true, Bool.or_true]
      · have hiff : (a + 1 ≤ j ∧ j < a + 1 + n) ↔ (a ≤ j ∧ j < a + (n + 1)) := by omega
        rw [decide_eq_decide.2 hiff]
    · rw [if_neg hold]
      dsimp only
      have hnew : bm.marked a = false := Bool.eq_false_iff.2 hold
      have hroom : a < 8 * uplinkBitmapBytes := Nat.lt_of_lt_of_le (by omega) ha
      have hnext : (c + 1).toNat = c.toNat + 1 := by
        rw [UInt16.toNat_add, UInt16.toNat_one, Nat.mod_eq_of_lt (by omega)]
      obtain ⟨hmarked, hmarks⟩ := ih (c := c + 1) ha (by omega)
      refine ⟨fun j => ?_, ?_⟩
      · rw [hmarked j, Bitmap.marked_mark bm hroom]
        have hiff : (a + 1 ≤ j ∧ j < a + 1 + n) ∨ j = a ↔ (a ≤ j ∧ j < a + (n + 1)) := by omega
        rw [← Bool.or_assoc, ← Bool.decide_or, decide_eq_decide.2 hiff]
      · rw [Bitmap.marks_mark bm hroom hnew, hnext] at hmarks
        omega

end Marking

namespace UplinkRx

variable {u : UplinkRx} {h : PartHeader} {bytes : List UInt8}

/-- A part that fits the message. -/
structure Fits (u : UplinkRx) (h : PartHeader) (bytes : List UInt8) : Prop where
  inProgress : u.inProgress = true
  messageID : h.messageID = u.msgId
  length : h.partLength.toNat = bytes.length
  inside : h.partStartByte.toNat + bytes.length ≤ u.msgLen.toNat
  crc : calculateCRC32 bytes = h.partCRC

/-- The offsets of a part. -/
def covers (h : PartHeader) (bytes : List UInt8) (i : Nat) : Prop :=
  h.partStartByte.toNat ≤ i ∧ i < h.partStartByte.toNat + bytes.length

instance (h : PartHeader) (bytes : List UInt8) (i : Nat) : Decidable (covers h bytes i) :=
  inferInstanceAs (Decidable (_ ∧ _))

/-- **What a part leaves**: its bytes, a mark for each of them, and the count of the new ones. -/
theorem store_spec (hfits : u.Fits h bytes) (hlen : u.msgLen.toNat ≤ uplinkMaxLen)
    (hcount : u.receivedBytes.toNat = u.recvBitmap.marks) :
    (∀ i, Cells.get (u.store h bytes).buf i =
      if covers h bytes i then bytes.getD (i - h.partStartByte.toNat) 0 else Cells.get u.buf i) ∧
    (∀ i, (u.store h bytes).recvBitmap.marked i =
      (decide (covers h bytes i) || u.recvBitmap.marked i)) ∧
    (u.store h bytes).receivedBytes.toNat = (u.store h bytes).recvBitmap.marks := by
  have hmax : u.msgLen.toNat ≤ 240 := hlen
  have hinside := hfits.inside
  have hstop : (h.partStartByte + h.partLength).toNat = h.partStartByte.toNat + bytes.length := by
    rw [UInt16.toNat_add, hfits.length, Nat.mod_eq_of_lt (by omega)]
  have hrounds : min (h.partStartByte + h.partLength).toNat uplinkMaxLen -
      h.partStartByte.toNat = bytes.length := by
    rw [hstop, Nat.min_eq_left (Nat.le_trans hinside hlen), Nat.add_sub_cancel_left]
  obtain ⟨hmarked, hmarks⟩ := @foldl_markNew u.recvBitmap 0 h.partStartByte.toNat bytes.length
    (Nat.le_trans hinside hlen) (by rw [UInt16.toNat_zero]; omega)
  have hbitmap : (u.store h bytes).recvBitmap =
      ((List.range' h.partStartByte.toNat bytes.length).foldl markNew (u.recvBitmap, 0)).1 := by
    rw [store, markReceived, hrounds]
  have hreceived : (u.store h bytes).receivedBytes = u.receivedBytes +
      ((List.range' h.partStartByte.toNat bytes.length).foldl markNew (u.recvBitmap, 0)).2 := by
    rw [store, markReceived, hrounds]
  refine ⟨fun i => Cells.get_copy u.buf _ bytes (Nat.le_trans hinside hlen) i, fun i => ?_, ?_⟩
  · rw [hbitmap, hmarked i]
    rfl
  · have hall : Bitmap.marks (u.store h bytes).recvBitmap ≤ 240 :=
      Nat.le_trans List.countP_le_length (Nat.le_of_eq List.length_range)
    rw [hbitmap] at hall ⊢
    rw [hreceived, UInt16.toNat_add, hcount, Nat.mod_eq_of_lt]
    · rw [UInt16.toNat_zero] at hmarks
      exact hmarks.symm
    · rw [UInt16.toNat_zero] at hmarks
      omega

end UplinkRx

/-! ## Moves of the uplink -/

/-- Nothing that concerns the uplink. -/
def Event.Apart : Event → Prop
  | .received .. | .announced _ | .stored .. | .completed _ | .transmitted .. => False
  | _ => True

open UplinkRx in
/-- What can happen to an uplink. -/
inductive UpMove : UplinkRx → List Event → UplinkRx → Prop
  | apart (u : UplinkRx) {e : Event} (h : e.Apart) : UpMove u [e] u
  | asks (u : UplinkRx) (start len : UInt16) (retry : UInt8) :
      UpMove u [] { u with lastPartStart := start, lastPartLen := len, lastPartRetry := retry }
  | receives {u : UplinkRx} (hdr : BeaconCmdHeader) (payload : List UInt8)
      (hc : u.complete = false) : UpMove u [.received hdr payload] u
  | drops {u : UplinkRx} (hc : u.complete = false) : UpMove u [] zero
  | announces {u : UplinkRx} {h : MessageHeader} (hvalid : lengthValid h)
      (hc : u.complete = false) : UpMove u [.announced h] (fresh h)
  | restarts {u : UplinkRx} (hp : u.inProgress = true) (hc : u.complete = false) :
      UpMove u [.announced u.header]
        { u with receivedBytes := 0, nextRequestOffset := 0, recvBitmap := Bitmap.clear _ }
  | stores {u : UplinkRx} {h : PartHeader} {bytes : List UInt8} (hfits : u.Fits h bytes)
      (hc : u.complete = false) : UpMove u [.stored h bytes] (u.store h bytes)
  | completes {u : UplinkRx} (hall : u.allReceived = true)
      (hcrc : calculateCRC32 u.message = u.msgCrc) (hc : u.complete = false) :
      UpMove u [.completed u.msgId] { u with complete := true, inProgress := false }
  | transmits {u : UplinkRx} (stack : Vector UInt8 uplinkMaxLen) (hc : u.complete = true)
      (hlen : u.msgLen.toNat ≤ uplinkMaxLen) :
      UpMove u [.transmitted u.msgId u.msgLen (Cells.copy stack 0 u.message).toList] zero

/-- The moves of a handler. -/
abbrev UpTrace (u : UplinkRx) (a : Handled UplinkRx) : Prop := Trace UpMove u a.events a.state

section Handlers

variable {link : Nat → Bool} {u : UplinkRx} {payload : List UInt8}

theorem apart_sent (o : Outgoing) (ok : Bool) : (Event.sent o ok).Apart := trivial

theorem apart_icdRx (typeID status : UInt8) : (onIcdRx typeID status).Apart := trivial

/-- Events that do not concern the uplink, before and after the others. -/
theorem apart_cons {es : List Event} {u' : UplinkRx} (h : Trace UpMove u es u') {e : Event}
    (he : e.Apart) : Trace UpMove u (e :: es) u' :=
  .step (.apart u he) h

theorem apart_snoc {es : List Event} {u' : UplinkRx} (h : Trace UpMove u es u') {e : Event}
    (he : e.Apart) : Trace UpMove u (es ++ [e]) u' :=
  h.trans (.single (UpMove.apart u' he))

theorem only_apart {es : List Event} (h : ∀ e ∈ es, e.Apart) : Trace UpMove u es u := by
  induction es with
  | nil => exact .refl u
  | cons e es ih =>
    exact apart_cons (ih fun e' he' => h e' (List.mem_cons_of_mem e he')) (h e List.mem_cons_self)

theorem requestPart_up (ok : Bool) (retry : UInt8) (start len : UInt16) :
    UpTrace u (UplinkRx.requestPart ok { u with lastPartRetry := retry } start len) :=
  .step (UpMove.asks u start len retry) (.single (UpMove.apart _ (apart_sent _ ok)))

theorem requestNextPart_up (ok : Bool) : UpTrace u (UplinkRx.requestNextPart ok u) := by
  rw [UplinkRx.requestNextPart]
  split
  · exact .refl u
  split
  · exact .refl u
  split
  · exact .refl u
  · exact requestPart_up ok 0 _ _

theorem offerReceiveMsg_up (hc : u.complete = false) : UpTrace u (u.offerReceiveMsg link payload) := by
  rw [UplinkRx.offerReceiveMsg]
  split
  · exact .single (.apart u (apart_icdRx 6 30))
  dsimp only
  split
  · exact .single (.apart u (apart_icdRx 6 30))
  rename_i hvalid
  have hvalid := Decidable.not_not.1 hvalid
  split
  · refine apart_cons (.step (UpMove.announces hvalid hc) ?_) (apart_sent _ _)
    exact apart_cons (.single (UpMove.apart _ (e := .uplinkOffered) trivial)) (apart_icdRx 6 0)
  · exact .step (UpMove.drops hc)
      (apart_cons (.single (UpMove.apart _ (apart_icdRx 6 1))) (apart_sent _ _))

theorem begin_up {u' : UplinkRx} (h : UpMove u [.announced u'.header] u') :
    UpTrace u (u'.begin link) := by
  have hnext := requestNextPart_up (u := u') (link 0)
  have hrest := apart_snoc hnext
    (apart_icdRx 5 (sentStatus (UplinkRx.requestNextPart (link 0) u').code))
  have hall := Trace.step h hrest
  exact hall

theorem sendMsgHeader_up (hc : u.complete = false) : UpTrace u (u.sendMsgHeader link payload) := by
  rw [UplinkRx.sendMsgHeader]
  split
  · exact .single (.apart u (apart_icdRx 5 30))
  dsimp only
  split
  · exact .single (.apart u (apart_icdRx 5 10))
  rename_i hvalid
  have hvalid := Decidable.not_not.1 hvalid
  split
  · rename_i hprogress
    split
    · exact .step (UpMove.drops hc) (.single (UpMove.apart _ (apart_icdRx 5 30)))
    · exact begin_up (.restarts hprogress.1 hc)
  · exact begin_up (.announces hvalid hc)

theorem retryPart_up (hc : u.complete = false) (start len : UInt16) :
    UpTrace u (u.retryPart link start len) := by
  rw [UplinkRx.retryPart]
  split
  · split
    · exact requestPart_up _ _ start len
    · exact .single (UpMove.drops hc)
  · exact requestPart_up _ 0 start len

theorem advance_up (hc : u.complete = false) : UpTrace u (u.advance link) := by
  rw [UplinkRx.advance]
  split
  · rename_i hall
    split
    · rename_i hcrc
      exact apart_cons (.single (.completes hall hcrc hc)) (apart_sent _ _)
    · exact .step (UpMove.drops hc) (.single (UpMove.apart _ (apart_icdRx 9 30)))
  · exact requestNextPart_up (link 1)

theorem sendMsgPart_up (hc : u.complete = false) : UpTrace u (u.sendMsgPart link payload) := by
  rw [UplinkRx.sendMsgPart]
  split
  · exact .single (.apart u (apart_icdRx 9 30))
  dsimp only
  split
  · exact apart_cons (.single (.apart u (apart_icdRx 9 30))) (apart_sent _ _)
  rename_i hwanted
  split
  · exact apart_cons (.single (.apart u (apart_icdRx 9 10))) (apart_sent _ _)
  rename_i hlength
  split
  · exact apart_cons (.single (.apart u (apart_icdRx 9 10))) (apart_sent _ _)
  rename_i hinside
  split
  · exact apart_cons (apart_snoc (retryPart_up hc _ _) (apart_icdRx 9 20)) (apart_sent _ _)
  rename_i hcrc
  generalize partHeaderLayout.read payload = h at *
  have hsize : (List.take h.partLength.toNat (payload.drop 12)).length = h.partLength.toNat := by
    refine List.length_take_of_le ?_
    rw [Decidable.not_not.1 hlength, UInt16.toNat_ofNat']
    exact Nat.mod_le _ _
  have hfits : u.Fits h (List.take h.partLength.toNat (payload.drop 12)) :=
    ⟨Bool.eq_true_of_not_eq_false fun hp => hwanted (Or.inl hp),
      Decidable.not_not.1 fun hid => hwanted (Or.inr hid), hsize.symm,
      hsize.symm ▸ Nat.le_of_not_lt hinside, Decidable.not_not.1 hcrc⟩
  have hafter : UpTrace (u.store h (List.take h.partLength.toNat (payload.drop 12)))
      ((u.store h (List.take h.partLength.toNat (payload.drop 12))).advance link) := advance_up hc
  exact .step (.stores hfits hc)
    (apart_cons (apart_cons hafter (apart_icdRx 9 0)) (apart_sent _ _))

theorem forwardToSB_up (stack : Vector UInt8 uplinkMaxLen) :
    Trace UpMove u (u.forwardToSB stack).2 (u.forwardToSB stack).1 := by
  rw [UplinkRx.forwardToSB]
  split
  · exact .refl u
  rename_i hc
  split
  · exact .refl u
  rename_i hlen
  exact .single (.transmits stack (Bool.eq_true_of_not_eq_false hc) (Nat.le_of_not_lt hlen))

theorem report_up {s : Storage} {typeID : UInt8} {least : Nat} {short : List Event}
    {status : List UInt8 → UInt8} {mid : List UInt8 → UInt32} (hshort : ∀ e ∈ short, e.Apart) :
    Trace UpMove s.up (report typeID least short status mid s payload).events
      (report typeID least short status mid s payload).state.up := by
  rw [report]
  split
  · exact only_apart hshort
  · exact .single (UpMove.apart _ (e := .icdRx _ _ _) trivial)

theorem down_up {d : Downlink} (link : Nat → Bool) (hdr : BeaconCmdHeader) (payload : List UInt8) :
    (∀ e ∈ (d.requestMsgTx link).events, e.Apart) ∧
      (∀ e ∈ (d.requestMsgPart link hdr payload).events, e.Apart) ∧
      ∀ e ∈ (d.confirmMsgRx payload).events, e.Apart := by
  refine ⟨?_, ?_, ?_⟩
  · rw [Downlink.requestMsgTx]
    dsimp only
    split <;> simp [onIcdRx, Event.Apart]
  · rw [Downlink.requestMsgPart]
    dsimp only
    split_ifs <;> simp [onIcdRx, Event.Apart]
  · rw [Downlink.confirmMsgRx]
    dsimp only
    split <;> simp [onIcdRx, Event.Apart]

/-- **Every command is a string of moves** of the uplink. -/
theorem dispatch_up (s : Storage) (hc : s.up.complete = false) (hdr : BeaconCmdHeader) :
    Trace UpMove s.up (dispatch link s hdr payload).events
      (dispatch link s hdr payload).state.up := by
  obtain ⟨htx, hpart, hconfirm⟩ := down_up (d := s.down) link hdr payload
  have hone : ∀ typeID : UInt8, ∀ e ∈ [onIcdRx typeID 30], e.Apart := fun typeID e he =>
    List.mem_singleton.1 he ▸ apart_icdRx typeID 30
  have hnone : ∀ e ∈ ([] : List Event), e.Apart := fun e he => absurd he List.not_mem_nil
  rw [dispatch]
  split
  · exact only_apart htx
  · exact only_apart hpart
  · exact report_up (hone 10)
  · exact only_apart hconfirm
  · exact report_up (hone 13)
  · exact report_up (hone 15)
  · exact offerReceiveMsg_up hc
  · exact sendMsgHeader_up hc
  · exact sendMsgPart_up hc
  · exact report_up hnone
  · exact report_up hnone
  · exact report_up hnone
  · exact apart_cons (.single (.apart _ (apart_icdRx _ 0))) (apart_sent _ _)

theorem busBeacon_apart (d : Downlink) (msg : List UInt8) (sized : Bool) (seconds : UInt32) :
    ∀ e ∈ (d.onBusBeaconReceived msg sized seconds).2, e.Apart := by
  intro e he
  rw [Downlink.onBusBeaconReceived] at he
  split at he
  · exact absurd he List.not_mem_nil
  split at he
  · exact absurd he List.not_mem_nil
  split at he
  · exact absurd he List.not_mem_nil
  dsimp only at he
  split at he
  · exact absurd he List.not_mem_nil
  · rw [List.mem_singleton.1 he]
    trivial

/-- **Every step is a string of moves** of the uplink. -/
theorem step_up (n : Node) (i : Input)
    (hidle : n.phase = .receiving → n.storage.up.complete = false) :
    Trace UpMove n.storage.up (n.step i).2 (n.step i).1.storage.up := by
  cases i with
  | child i =>
    rw [Node.step, Node.childStep]
    split
    · exact .refl _
    · rename_i hphase
      have hc := hidle hphase
      show Trace UpMove n.storage.up (n.bcnProcessOneRx i).2 (n.bcnProcessOneRx i).1.storage.up
      rw [Node.bcnProcessOneRx]
      split
      · exact .single (UpMove.apart _ (e := .overrun) trivial)
      dsimp only
      split
      · exact .refl _
      · exact .step (UpMove.receives _ _ hc) (dispatch_up n.storage hc _)
    · refine only_apart fun e he => ?_
      have he : e ∈ (n.session.tick n.storage.up.complete i.clock).2 := he
      rcases Session.mem_tick he with rfl | rfl | rfl <;> trivial
    · exact forwardToSB_up i.stack
  | busBeacon msg sized seconds => exact only_apart (busBeacon_apart _ msg sized seconds)
  | sessionStartDownlink =>
    show Trace UpMove n.storage.up [] n.sessionStartDownlinkCmd.storage.up
    rw [Node.sessionStartDownlinkCmd]
    split
    · exact .refl _
    split
    · exact .refl _
    · exact .refl _
  | sessionAbort => exact .refl _
  | sessionResetState => exact .refl _
  | downstream enabled => exact .refl _
  | setBusBeaconPeriod period =>
    show Trace UpMove n.storage.up [] (n.setBusBeaconPeriodCmd period).storage.up
    rw [Node.setBusBeaconPeriodCmd]
    split
    · exact .refl _
    · exact .refl _

end Handlers

end Ltrx
end FlightApps
