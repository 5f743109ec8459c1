import FlightApps.Ltrx.Serving

/-!
# The ids of downlink messages

A message gets the time of the spacecraft in seconds as its id, and the next number if that is the
id that was given last.  So there is one id to spare: the second message of a second takes the next
second's, and the third, which finds that the last id is not the time, takes the time again
(`three_in_a_second`).

The ids depend on the times at which messages are staged and on nothing else (`stagedIds_eq`), and
they increase exactly if these times leave enough room (`message_ids_increase_iff`).
-/

set_option autoImplicit false

namespace FlightApps
namespace Ltrx

/-! ## Ids and times -/

/-- The id of a message, if its event stages one. -/
def Event.stagedId : Event → Option UInt32
  | .staged messageID => some messageID
  | _ => none

/-- The ids of the messages that were staged. -/
def stagedIds (es : List Event) : List UInt32 := es.filterMap Event.stagedId

/-- The gate lets a bus beacon through. -/
def Downlink.Stages (d : Downlink) (msg : List UInt8) (sized : Bool) : Prop :=
  d.downstreamEnabled = true ∧ d.downInFlight = false ∧ sized = true ∧
    hkCombinedPayloadOffset < msg.length ∧ d.downstreamBeaconPeriod ≤ d.downstreamBeaconCount + 1

instance (d : Downlink) (msg : List UInt8) (sized : Bool) : Decidable (d.Stages msg sized) :=
  inferInstanceAs (Decidable (_ ∧ _))

/-- The time at which an input stages a message, if it does. -/
def Node.stagesAt (n : Node) : Input → List UInt32
  | .busBeacon msg sized seconds => if n.storage.down.Stages msg sized then [seconds] else []
  | _ => []

/-- The times at which messages are staged. -/
def Node.stagedTimes (n : Node) : List Input → List UInt32
  | [] => []
  | i :: is => n.stagesAt i ++ (n.step i).1.stagedTimes is

/-- The id that a message gets. -/
def nextId (last seconds : UInt32) : UInt32 := if seconds = last then seconds + 1 else seconds

/-- The ids that messages get, after `last`. -/
def idsAfter (last : UInt32) : List UInt32 → List UInt32
  | [] => []
  | t :: ts => nextId last t :: idsAfter (nextId last t) ts

theorem idsAfter_append (last : UInt32) (ts ts' : List UInt32) :
    idsAfter last (ts ++ ts') =
      idsAfter last ts ++ idsAfter ((idsAfter last ts).getLastD last) ts' := by
  induction ts generalizing last with
  | nil => rfl
  | cons t ts ih =>
    rw [List.cons_append, idsAfter, idsAfter, ih, List.cons_append, List.getLastD_cons]

/-! ## Room for the ids -/

/-- Messages after one at the time `t` leave room: the one `j + 1` places behind is not before
`t + j`, and there are that many numbers. -/
def Leads (t : Nat) (ts : List UInt32) : Prop :=
  ∀ j (h : j < ts.length), t + j ≤ ts[j].toNat ∧ t + j + 1 < UInt32.size

/-- **Any messages leave room**: no `j + 2` of them, one after the other, come within less than `j`
seconds. -/
def Spaced : List UInt32 → Prop
  | [] => True
  | t :: ts => Leads t.toNat ts ∧ Spaced ts

theorem leads_cons {a : Nat} {t : UInt32} {ts : List UInt32} :
    Leads a (t :: ts) ↔ a ≤ t.toNat ∧ a + 1 < UInt32.size ∧ Leads (a + 1) ts := by
  constructor
  · intro h
    obtain ⟨hle, hroom⟩ := h 0 (Nat.succ_pos _)
    refine ⟨hle, hroom, fun j hj => ?_⟩
    obtain ⟨hle, hroom⟩ := h (j + 1) (Nat.succ_lt_succ hj)
    rw [List.getElem_cons_succ] at hle
    omega
  · rintro ⟨hle, hroom, h⟩ j hj
    cases j with
    | zero => exact ⟨hle, hroom⟩
    | succ j =>
      obtain ⟨hle, hroom⟩ := h j (Nat.lt_of_succ_lt_succ hj)
      rw [List.getElem_cons_succ]
      omega

/-- Room after two times is room after the later one. -/
theorem leads_max {a b : Nat} {ts : List UInt32} :
    Leads (max a b) ts ↔ Leads a ts ∧ Leads b ts := by
  constructor
  · intro h
    refine ⟨fun j hj => ?_, fun j hj => ?_⟩
    · have := h j hj
      omega
    · have := h j hj
      omega
  · rintro ⟨ha, hb⟩ j hj
    have := ha j hj
    have := hb j hj
    omega

/-- With room for it, an id is the time or one more than the last. -/
theorem toNat_nextId {last t : UInt32} (hle : last.toNat ≤ t.toNat)
    (hroom : last.toNat + 1 < UInt32.size) :
    (nextId last t).toNat = max t.toNat (last.toNat + 1) := by
  rw [nextId]
  split
  · rename_i heq
    rw [heq, UInt32.toNat_add, UInt32.toNat_one, Nat.mod_eq_of_lt hroom]
    omega
  · rename_i hne
    have : t.toNat ≠ last.toNat := fun h => hne (UInt32.toNat_inj.1 h)
    omega

/-- An id is greater than the last exactly if there is room for it. -/
theorem lt_nextId {last t : UInt32} :
    last < nextId last t ↔ last.toNat ≤ t.toNat ∧ last.toNat + 1 < UInt32.size := by
  have hlast := last.toNat_lt_size
  have ht := t.toNat_lt_size
  rw [UInt32.lt_iff_toNat_lt, nextId]
  split
  · rename_i heq
    rw [heq, UInt32.toNat_add, UInt32.toNat_one]
    by_cases hroom : last.toNat + 1 < UInt32.size
    · rw [Nat.mod_eq_of_lt hroom]
      omega
    · have hwraps : (last.toNat + 1) % 2 ^ 32 = 0 := by
        rw [UInt32.size] at hlast hroom
        omega
      rw [hwraps]
      omega
  · rename_i hne
    have : t.toNat ≠ last.toNat := fun h => hne (UInt32.toNat_inj.1 h)
    omega

/-- **The ids increase exactly if there is room for them.** -/
theorem idsAfter_increase (last : UInt32) (ts : List UInt32) :
    (last :: idsAfter last ts).IsChain (· < ·) ↔ Leads last.toNat ts ∧ Spaced ts := by
  induction ts generalizing last with
  | nil => simp [idsAfter, Leads, Spaced]
  | cons t ts ih =>
    rw [idsAfter, List.isChain_cons_cons, ih, lt_nextId, leads_cons, Spaced]
    constructor
    · rintro ⟨⟨hle, hroom⟩, hleads, hspaced⟩
      rw [toNat_nextId hle hroom, leads_max] at hleads
      exact ⟨⟨hle, hroom, hleads.2⟩, hleads.1, hspaced⟩
    · rintro ⟨⟨hle, hroom, hleads'⟩, hleads, hspaced⟩
      refine ⟨⟨hle, hroom⟩, ?_, hspaced⟩
      rw [toNat_nextId hle hroom, leads_max]
      exact ⟨hleads, hleads'⟩

/-- The first id is never 0. -/
theorem nextId_pos (t : UInt32) : 0 < nextId 0 t := by
  rw [nextId]
  split
  · rename_i heq
    rw [heq]
    decide
  · rename_i hne
    exact UInt32.pos_iff_ne_zero.2 hne

/-- Ids that increase are greater than 0. -/
theorem pairwise_idsAfter (ts : List UInt32) :
    (idsAfter 0 ts).Pairwise (· < ·) ↔ (0 :: idsAfter 0 ts).IsChain (· < ·) := by
  rw [List.isChain_iff_pairwise, List.pairwise_cons]
  refine (and_iff_right_of_imp fun h => ?_).symm
  cases ts with
  | nil => exact fun a ha => absurd ha List.not_mem_nil
  | cons t ts =>
    rw [idsAfter, List.pairwise_cons] at h
    rw [idsAfter, List.forall_mem_cons]
    exact ⟨nextId_pos t, fun a ha => UInt32.lt_trans (nextId_pos t) (h.1 a ha)⟩

/-! ## What a run stages -/

theorem Event.Aside.stagedId {e : Event} (h : e.Aside) : e.stagedId = none := by
  cases e <;> first | rfl | exact absurd h id

/-- The last of two lists. -/
theorem getLastD_append {α : Type} (xs ys : List α) (a : α) :
    (xs ++ ys).getLastD a = ys.getLastD (xs.getLastD a) := by
  simp only [List.getLastD_eq_getLast?, List.getLast?_append]
  cases ys.getLast? <;> simp

theorem stagedIds_eq_nil {es : List Event} (h : ∀ e ∈ es, e.stagedId = none) : stagedIds es = [] :=
  List.filterMap_eq_nil_iff.2 h

theorem stagedIds_append (es es' : List Event) :
    stagedIds (es ++ es') = stagedIds es ++ stagedIds es' := List.filterMap_append

theorem setMessage_lastMsgId (d : Downlink) (mid : UInt32) (data : List UInt8) (length : UInt16) :
    (d.setMessage mid data length).1.lastMsgId = d.lastMsgId := by
  rw [Downlink.setMessage]
  split
  · rfl
  split <;> rfl

theorem commitPending_lastMsgId (d : Downlink) : d.commitPending.1.lastMsgId = d.lastMsgId := by
  have hset := setMessage_lastMsgId d d.pendingDownMsgId d.pendingDownBuf.toList d.pendingDownLen
  rw [Downlink.commitPending]
  split
  · rfl
  dsimp only
  split
  · exact hset
  · exact hset

/-- What a move of the downlink leaves as the last id. -/
theorem DownMove.lastMsgId {d d' : Downlink} {es : List Event} (h : DownMove d es d') :
    d'.lastMsgId = (stagedIds es).getLastD d.lastMsgId := by
  cases h with
  | aside h => rw [stagedIds_eq_nil (List.forall_mem_singleton.2 h.stagedId), List.getLastD_nil]
  | gates => rfl
  | stages => rfl
  | commits => exact commitPending_lastMsgId d
  | announces =>
    rw [Downlink.sentHeader]
    split <;> rfl
  | sends => rfl
  | hears =>
    rw [Downlink.heardConfirm]
    split <;> rfl
  | aborts => rfl
  | resets => rfl

theorem trace_lastMsgId {d d' : Downlink} {es : List Event} (h : Trace DownMove d es d') :
    d'.lastMsgId = (stagedIds es).getLastD d.lastMsgId := by
  induction h with
  | refl => rfl
  | step hmove _ ih =>
    rw [ih, hmove.lastMsgId, stagedIds_append, getLastD_append]

theorem busBeacon_staged (d : Downlink) (msg : List UInt8) (sized : Bool) (seconds : UInt32) :
    stagedIds (d.onBusBeaconReceived msg sized seconds).2 =
      if d.Stages msg sized then [nextId d.lastMsgId seconds] else [] := by
  rw [Downlink.onBusBeaconReceived]
  split
  · rename_i henabled
    exact (if_neg fun h => Bool.noConfusion (h.1.symm.trans henabled)).symm
  rename_i henabled
  split
  · rename_i hflight
    exact (if_neg fun h => absurd (h.2.1.symm.trans hflight) Bool.false_ne_true).symm
  rename_i hflight
  split
  · rename_i hshort
    refine (if_neg fun h => ?_).symm
    rcases hshort with hsized | hshort
    · exact absurd (h.2.2.1.symm.trans hsized) Bool.noConfusion
    · exact absurd h.2.2.2.1 (Nat.not_lt.2 hshort)
  rename_i hlong
  obtain ⟨hsized, hlength⟩ := not_or.1 hlong
  dsimp only
  split
  · rename_i hearly
    exact (if_neg fun h => UInt16.not_le.2 hearly h.2.2.2.2).symm
  · rename_i hdue
    exact (if_pos ⟨Bool.eq_true_of_not_eq_false henabled, Bool.eq_false_iff.2 hflight,
      Bool.eq_true_of_not_eq_false hsized, Nat.lt_of_not_le hlength,
      UInt16.not_lt.1 hdue⟩).symm

theorem said_stagedId {hdr : BeaconCmdHeader} {payload : List UInt8} {e : Event}
    (h : Says hdr payload e) : e.stagedId = none := by
  cases e with
  | staged mid => exact h.elim
  | _ => rfl

/-- Nothing but a bus beacon stages a message. -/
theorem child_stages_none (n : Node) (i : ChildInput) : stagedIds (n.childStep i).2 = [] := by
  rw [Node.childStep]
  split
  · rfl
  · show stagedIds (n.bcnProcessOneRx i).2 = []
    rw [Node.bcnProcessOneRx]
    split
    · rfl
    dsimp only
    split
    · rfl
    · exact stagedIds_eq_nil (List.forall_mem_cons.2
        ⟨rfl, fun e he => said_stagedId (saysAll_dispatch n.storage e he)⟩)
  · refine stagedIds_eq_nil fun e (he : e ∈ (n.session.tick n.storage.up.complete i.clock).2) => ?_
    rcases Session.mem_tick he with rfl | rfl | rfl <;> rfl
  · show stagedIds (n.storage.up.forwardToSB i.stack).2 = []
    rw [UplinkRx.forwardToSB]
    split
    · rfl
    split <;> rfl

theorem stagedIds_step (n : Node) (i : Input) :
    stagedIds (n.step i).2 = idsAfter n.storage.down.lastMsgId (n.stagesAt i) := by
  cases i with
  | child i => exact child_stages_none n i
  | busBeacon msg sized seconds =>
    rw [Node.stagesAt]
    refine (busBeacon_staged n.storage.down msg sized seconds).trans ?_
    split <;> rfl
  | sessionStartDownlink => rfl
  | sessionAbort => rfl
  | sessionResetState => rfl
  | downstream => rfl
  | setBusBeaconPeriod => rfl

/-- **The ids of a run** follow from the times. -/
theorem stagedIds_eq (n : Node) (is : List Input) :
    stagedIds (Node.machine.history n is) =
      idsAfter n.storage.down.lastMsgId (n.stagedTimes is) := by
  induction is generalizing n with
  | nil => rfl
  | cons i is ih =>
    have hstep := stagedIds_step n i
    have hlast := trace_lastMsgId (step_down n i)
    rw [Machine.history_cons, stagedIds_append, Node.stagedTimes, idsAfter_append, ← hstep, ← hlast]
    exact congrArg _ (ih _)

/-- **When ids are never reused**: in every run the ids of the messages increase, and so are all
different, exactly if any of the messages leave room for their ids, and so does the start of the
clock. -/
theorem message_ids_increase_iff (is : List Input) :
    (stagedIds (events is)).Pairwise (· < ·) ↔
      Leads 0 (Node.init.stagedTimes is) ∧ Spaced (Node.init.stagedTimes is) := by
  have hids : stagedIds (events is) = idsAfter 0 (Node.init.stagedTimes is) :=
    stagedIds_eq Node.init is
  rw [hids, pairwise_idsAfter]
  exact idsAfter_increase 0 _

/-- Three bus beacons come in second 5, and the first and the third message get the same id: neither
do the ids increase, nor are they different. -/
theorem three_in_a_second : ∃ is : List Input,
    Node.init.stagedTimes is = [5, 5, 5] ∧ stagedIds (events is) = [5, 6, 5] ∧
      ¬(stagedIds (events is)).Nodup ∧ ¬(stagedIds (events is)).Pairwise (· < ·) := by
  let beacon : Input := .busBeacon (List.replicate 13 0) true 5
  have hids : stagedIds (events [beacon, beacon, beacon]) = [5, 6, 5] := by decide
  refine ⟨[beacon, beacon, beacon], by decide, hids, ?_, ?_⟩
  · rw [hids]
    decide
  · rw [hids]
    decide

end Ltrx
end FlightApps
