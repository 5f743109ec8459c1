import FlightApps.Ltrx.Uplink

/-!
# Where things come from

What is taken in, sent and confirmed answers the command that has been received last (`Sourced`).
-/

set_option autoImplicit false

namespace FlightApps
namespace Ltrx

/-- The command that has been received last. -/
def hears : Option (BeaconCmdHeader × List UInt8) → Event → Option (BeaconCmdHeader × List UInt8)
  | _, .received hdr payload => some (hdr, payload)
  | o, _ => o

def lastReceived (es : List Event) : Option (BeaconCmdHeader × List UInt8) := es.foldl hears none

/-- Whether a command leads to this: types 5 and 6 announce a message and type 9 has a part of it,
type 3 asks for a message and type 7 for a part of it, and type 11 confirms it. -/
def Says (hdr : BeaconCmdHeader) (payload : List UInt8) : Event → Prop
  | .announced h =>
    (hdr.typeID = 5 ∨ hdr.typeID = 6) ∧ 10 ≤ payload.length ∧ h = messageHeaderLayout.read payload
  | .stored h bytes =>
    hdr.typeID = 9 ∧ 12 ≤ payload.length ∧ h = partHeaderLayout.read payload ∧
      bytes = (payload.drop 12).take h.partLength.toNat
  | .sent (.messageHeader _) _ => hdr.typeID = 3
  | .sent (.messagePart mid start bytes) _ =>
    hdr.typeID = 7 ∧ 8 ≤ payload.length ∧
      partRequestLayout.read payload = ⟨mid, start, UInt16.ofNat bytes.length⟩
  | .confirmed mid => hdr.typeID = 11 ∧ 5 ≤ payload.length ∧ mid = Layout.u32.read payload
  | .received .. | .transmitted .. | .started | .aborted | .reset | .staged _ | .overrun => False
  | _ => True

/-- What only a command leads to. -/
def Event.Answers : Event → Prop
  | .announced _ | .stored .. | .sent .. | .confirmed _ => True
  | _ => False

/-- It answers the command that has been received last. -/
def Sourced (es : List Event) (e : Event) : Prop :=
  e.Answers → ∃ hdr payload, lastReceived es = some (hdr, payload) ∧ Says hdr payload e

section Sources

variable {link : Nat → Bool} {u : UplinkRx} {d : Downlink} {hdr : BeaconCmdHeader}
  {payload : List UInt8}

theorem requestPart_says (ok : Bool) (u : UplinkRx) (start len : UInt16) :
    ∀ e ∈ (UplinkRx.requestPart ok u start len).events, Says hdr payload e :=
  fun e he => by
    rw [List.mem_singleton.1 he]
    trivial

theorem requestNextPart_says (ok : Bool) (u : UplinkRx) :
    ∀ e ∈ (UplinkRx.requestNextPart ok u).events, Says hdr payload e := by
  rw [UplinkRx.requestNextPart]
  intro e he
  split at he
  · exact absurd he List.not_mem_nil
  split at he
  · exact absurd he List.not_mem_nil
  split at he
  · exact absurd he List.not_mem_nil
  · exact requestPart_says ok _ _ _ e he

theorem offerReceiveMsg_says (htype : hdr.typeID = 6) :
    ∀ e ∈ (u.offerReceiveMsg link payload).events, Says hdr payload e := by
  rw [UplinkRx.offerReceiveMsg]
  split
  · exact List.forall_mem_singleton.2 trivial
  rename_i hlong
  dsimp only
  split
  · exact List.forall_mem_singleton.2 trivial
  split
  · simp only [List.forall_mem_cons]
    exact ⟨trivial, ⟨Or.inr htype, Nat.le_of_not_lt hlong, rfl⟩, trivial, trivial,
      fun e he => absurd he List.not_mem_nil⟩
  · exact forall_pair trivial trivial

theorem begin_says (hsaid : Says hdr payload (.announced u.header)) :
    ∀ e ∈ (u.begin link).events, Says hdr payload e := by
  intro e he
  rcases List.mem_append.1 he with he | he
  · rcases List.mem_cons.1 he with rfl | he
    · exact hsaid
    · exact requestNextPart_says (link 0) u e he
  · rw [List.mem_singleton.1 he]
    trivial

theorem sendMsgHeader_says (htype : hdr.typeID = 5) :
    ∀ e ∈ (u.sendMsgHeader link payload).events, Says hdr payload e := by
  rw [UplinkRx.sendMsgHeader]
  split
  · exact List.forall_mem_singleton.2 trivial
  rename_i hlong
  dsimp only
  split
  · exact List.forall_mem_singleton.2 trivial
  split
  · split
    · exact List.forall_mem_singleton.2 trivial
    · rename_i hsame
      exact begin_says ⟨Or.inl htype, Nat.le_of_not_lt hlong, Decidable.not_not.1 hsame⟩
  · exact begin_says ⟨Or.inl htype, Nat.le_of_not_lt hlong, rfl⟩

theorem retryPart_says (start len : UInt16) :
    ∀ e ∈ (u.retryPart link start len).events, Says hdr payload e := by
  rw [UplinkRx.retryPart]
  split
  · split
    · exact requestPart_says _ _ start len
    · exact fun e he => absurd he List.not_mem_nil
  · exact requestPart_says _ _ start len

theorem advance_says : ∀ e ∈ (u.advance link).events, Says hdr payload e := by
  rw [UplinkRx.advance]
  split
  · split
    · exact forall_pair trivial trivial
    · exact List.forall_mem_singleton.2 trivial
  · exact requestNextPart_says (link 1) u

theorem sendMsgPart_says (htype : hdr.typeID = 9) :
    ∀ e ∈ (u.sendMsgPart link payload).events, Says hdr payload e := by
  rw [UplinkRx.sendMsgPart]
  split
  · exact List.forall_mem_singleton.2 trivial
  rename_i hlong
  dsimp only
  split
  · exact forall_pair trivial trivial
  split
  · exact forall_pair trivial trivial
  split
  · exact forall_pair trivial trivial
  split
  · simp only [List.cons_append, List.forall_mem_cons, List.forall_mem_append]
    exact ⟨trivial, retryPart_says _ _, trivial, fun e he => absurd he List.not_mem_nil⟩
  · simp only [List.forall_mem_cons]
    exact ⟨⟨htype, Nat.le_of_not_lt hlong, rfl, rfl⟩, trivial, trivial, advance_says⟩

theorem requestMsgTx_says (htype : hdr.typeID = 3) :
    ∀ e ∈ (d.requestMsgTx link).events, Says hdr payload e := by
  rw [Downlink.requestMsgTx]
  dsimp only
  split
  · exact List.forall_mem_singleton.2 trivial
  · exact List.forall_mem_cons.2 ⟨trivial, forall_pair htype trivial⟩

theorem requestMsgPart_says (htype : hdr.typeID = 7) :
    ∀ e ∈ (d.requestMsgPart link hdr payload).events, Says hdr payload e := by
  rw [Downlink.requestMsgPart]
  split
  · exact forall_pair trivial trivial
  rename_i hlong
  dsimp only
  split
  · exact forall_pair trivial trivial
  split
  · exact forall_pair trivial trivial
  rename_i hinside
  split
  · exact List.forall_mem_singleton.2 trivial
  generalize hr : partRequestLayout.read payload = r at *
  have hsize : ((d.downBuf.toList.drop r.partStartByte.toNat).take r.partLength.toNat).length =
      r.partLength.toNat := by
    have hlen := d.downLen_le
    rw [List.length_take, List.length_drop, Vector.length_toList]
    omega
  simp only [List.forall_mem_cons]
  refine ⟨⟨htype, Nat.le_of_not_lt hlong, ?_⟩, trivial, fun e he => absurd he List.not_mem_nil⟩
  rw [hr, hsize, UInt16.ofNat_toNat]

theorem confirmMsgRx_says (htype : hdr.typeID = 11) :
    ∀ e ∈ (d.confirmMsgRx payload).events, Says hdr payload e := by
  rw [Downlink.confirmMsgRx]
  split
  · exact List.forall_mem_singleton.2 trivial
  rename_i hlong
  simp only [List.forall_mem_cons]
  exact ⟨⟨htype, Nat.le_of_not_lt hlong, rfl⟩, trivial, fun e he => absurd he List.not_mem_nil⟩

/-- **What a command leads to**. -/
theorem saysAll_dispatch (s : Storage) :
    ∀ e ∈ (dispatch link s hdr payload).events, Says hdr payload e := by
  have hreport : ∀ {typeID : UInt8} {least : Nat} {short : List Event}
      {status : List UInt8 → UInt8} {mid : List UInt8 → UInt32},
      (∀ e ∈ short, Says hdr payload e) →
        ∀ e ∈ (report typeID least short status mid s payload).events, Says hdr payload e := by
    intro typeID least short status mid hshort
    rw [report]
    split
    · exact hshort
    · exact List.forall_mem_singleton.2 trivial
  rw [dispatch]
  split
  · exact requestMsgTx_says (by assumption)
  · exact requestMsgPart_says (by assumption)
  · exact hreport (List.forall_mem_singleton.2 trivial)
  · exact confirmMsgRx_says (by assumption)
  · exact hreport (List.forall_mem_singleton.2 trivial)
  · exact hreport (List.forall_mem_singleton.2 trivial)
  · exact offerReceiveMsg_says (by assumption)
  · exact sendMsgHeader_says (by assumption)
  · exact sendMsgPart_says (by assumption)
  · exact hreport (by simp)
  · exact hreport (by simp)
  · exact hreport (by simp)
  · exact forall_pair trivial trivial

end Sources

theorem lastReceived_snoc (es : List Event) (e : Event) :
    lastReceived (es ++ [e]) = hears (lastReceived es) e := by
  rw [lastReceived, List.foldl_append]
  rfl

/-- What a command leads to comes right after it. -/
theorem sourced_said {hdr : BeaconCmdHeader} {payload : List UInt8} {es es' : List Event}
    (h : Each Sourced es) (hlast : lastReceived es = some (hdr, payload))
    (hsaid : ∀ e ∈ es', Says hdr payload e) : Each Sourced (es ++ es') := by
  induction es' generalizing es with
  | nil => rwa [List.append_nil]
  | cons e es' ih =>
    have he := hsaid e List.mem_cons_self
    rw [List.append_cons]
    refine ih (h.snoc fun _ => ⟨hdr, payload, hlast, he⟩) ?_
      fun e' he' => hsaid e' (List.mem_cons_of_mem e he')
    rw [lastReceived_snoc]
    cases e <;> first | exact hlast | exact absurd he id

/-- **In every run** all that is an answer answers a command. -/
theorem sourced (is : List Input) : Each Sourced (events is) := by
  refine Node.machine.history_invariant (P := fun _ es => Each Sourced es) ?_ (Each.nil _) is
  intro n es i h
  have hnone : ∀ {es' : List Event}, (∀ e ∈ es', ¬e.Answers) → Each Sourced (es ++ es') :=
    fun hall => h.append fun _ e he hanswers => absurd hanswers (hall e he)
  have hnil : Each Sourced (es ++ []) := by rwa [List.append_nil]
  cases i with
  | child i =>
    show Each Sourced (es ++ (n.childStep i).2)
    rw [Node.childStep]
    split
    · exact hnil
    · show Each Sourced (es ++ (n.bcnProcessOneRx i).2)
      rw [Node.bcnProcessOneRx]
      split
      · exact hnone fun e he => List.mem_singleton.1 he ▸ id
      dsimp only
      split
      · exact hnil
      rw [List.append_cons]
      refine sourced_said (h.snoc fun hanswers => hanswers.elim) ?_ (saysAll_dispatch _)
      rw [lastReceived_snoc]
      rfl
    · refine hnone fun e he => ?_
      have he : e ∈ (n.session.tick n.storage.up.complete i.clock).2 := he
      rcases Session.mem_tick he with rfl | rfl | rfl <;> exact id
    · show Each Sourced (es ++ (n.storage.up.forwardToSB i.stack).2)
      rw [UplinkRx.forwardToSB]
      split
      · exact hnil
      split
      · exact hnil
      · exact hnone fun e he => List.mem_singleton.1 he ▸ id
  | busBeacon msg sized seconds =>
    show Each Sourced (es ++ (n.storage.down.onBusBeaconReceived msg sized seconds).2)
    rw [Downlink.onBusBeaconReceived]
    split
    · exact hnil
    split
    · exact hnil
    split
    · exact hnil
    dsimp only
    split
    · exact hnil
    · exact hnone fun e he => List.mem_singleton.1 he ▸ id
  | sessionStartDownlink => exact hnil
  | sessionAbort => exact hnil
  | sessionResetState => exact hnil
  | downstream enabled => exact hnil
  | setBusBeaconPeriod period => exact hnil

end Ltrx
end FlightApps
