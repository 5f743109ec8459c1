import FlightApps.Ltrx.Sources

/-!
# What is received is what was sent

Parts of an uplink overlap, repeat and come in any order, and offers and headers begin it anew at any
point.  A `Ledger` notes the header that was accepted last and, for every offset, the byte of the
part that came last since then.  The buffer agrees with it wherever the bitmap has a mark
(`Receiving`), and so what is forwarded is what the ledger has (`Delivers`).

The length that a packet has in its own header is not looked at.  It is right if the parts said so
(`wellSized_iff`).
-/

set_option autoImplicit false

namespace FlightApps
namespace Ltrx

/-! ## What the history says -/

/-- What has been received of the message whose header was accepted last: at every offset, the byte
of the part that came last. -/
structure Ledger where
  header : Option MessageHeader
  byte : Nat → Option UInt8

namespace Ledger

/-- A part counts if it is one of this message and its CRC is right. -/
def Counts (g : Ledger) (h : PartHeader) (bytes : List UInt8) : Prop :=
  g.header.map MessageHeader.messageID = some h.messageID ∧ calculateCRC32 bytes = h.partCRC

instance (g : Ledger) (h : PartHeader) (bytes : List UInt8) : Decidable (g.Counts h bytes) :=
  inferInstanceAs (Decidable (_ ∧ _))

def note (g : Ledger) : Event → Ledger
  | .announced h => ⟨some h, fun _ => none⟩
  | .stored h bytes =>
    if g.Counts h bytes then
      { g with
        byte := fun i =>
          if UplinkRx.covers h bytes i then bytes[i - h.partStartByte.toNat]? else g.byte i }
    else g
  | _ => g

/-- What all that has happened says. -/
def of (es : List Event) : Ledger := es.foldl note ⟨none, fun _ => none⟩

theorem of_snoc (es : List Event) (e : Event) : of (es ++ [e]) = (of es).note e := by
  rw [of, List.foldl_append]
  rfl

/-- What concerns neither a header nor a part is not noted. -/
theorem note_of_apart (g : Ledger) {e : Event} (h : e.Apart) : g.note e = g := by
  cases e <;> first | rfl | exact absurd h id

end Ledger

/-- The message that is complete and has not been forwarded. -/
def owe : Option UInt32 → Event → Option UInt32
  | _, .completed messageID => some messageID
  | _, .transmitted .. => none
  | o, _ => o

def owed (es : List Event) : Option UInt32 := es.foldl owe none

theorem owed_snoc (es : List Event) (e : Event) : owed (es ++ [e]) = owe (owed es) e := by
  rw [owed, List.foldl_append]
  rfl

theorem owe_of_apart (o : Option UInt32) {e : Event} (h : e.Apart) : owe o e = o := by
  cases e <;> first | rfl | exact absurd h id

/-- A message that is forwarded has the last header, and its bytes are those of the parts. -/
def Delivers (es : List Event) (e : Event) : Prop :=
  ∀ messageID length buf, e = .transmitted messageID length buf →
    ∃ crc, (Ledger.of es).header = some ⟨messageID, length, crc⟩ ∧ length.toNat ≤ buf.length ∧
      calculateCRC32 (buf.take length.toNat) = crc ∧
      ∀ i, i < length.toNat → (Ledger.of es).byte i = buf[i]?

/-- A message is forwarded when it is owed, and nothing is received or completed while one is. -/
def OnTime (es : List Event) : Event → Prop
  | .transmitted messageID _ _ => owed es = some messageID
  | .received _ _ => owed es = none
  | .completed _ => owed es = none
  | _ => True

theorem onTime_of_apart (es : List Event) {e : Event} (h : e.Apart) : OnTime es e := by
  cases e <;> first | exact trivial | exact absurd h id

theorem delivers_of_ne {es : List Event} {e : Event}
    (h : ∀ messageID length buf, e ≠ .transmitted messageID length buf) : Delivers es e :=
  fun messageID length buf heq => absurd heq (h messageID length buf)

/-! ## The invariant -/

/-- The buffer, the bitmap and the count agree with each other and with the ledger. -/
structure Receiving (u : UplinkRx) (g : Ledger) : Prop where
  length : u.msgLen.toNat ≤ uplinkMaxLen
  count : u.receivedBytes.toNat = u.recvBitmap.marks
  below : ∀ i, u.recvBitmap.marked i → i < u.msgLen.toNat
  header : u.inProgress ∨ u.complete → g.header = some u.header
  bytes : u.inProgress ∨ u.complete →
    ∀ i, u.recvBitmap.marked i → g.byte i = some (Cells.get u.buf i)
  whole : u.complete → u.inProgress = false ∧ u.msgLen.toNat ≤ u.receivedBytes.toNat ∧
    calculateCRC32 u.message = u.msgCrc

section Receiving

variable {u : UplinkRx} {g : Ledger} {h : PartHeader} {bytes : List UInt8}

theorem Receiving.complete_of_progress (hr : Receiving u g) (hp : u.inProgress = true) :
    u.complete = false := by
  refine Bool.eq_false_iff.2 fun hc => ?_
  have hnot := (hr.whole hc).1
  rw [hp] at hnot
  exact Bool.noConfusion hnot

theorem receiving_zero (g : Ledger) : Receiving UplinkRx.zero g where
  length := Nat.zero_le _
  count := Bitmap.marks_clear.symm
  below i hi := absurd hi (by rw [UplinkRx.zero, Bitmap.marked_clear]; exact Bool.false_ne_true)
  header hu := absurd hu (by decide)
  bytes hu := absurd hu (by decide)
  whole hc := Bool.noConfusion hc

theorem receiving_fresh {h : MessageHeader} (hvalid : UplinkRx.lengthValid h) :
    Receiving (UplinkRx.fresh h) ⟨some h, fun _ => none⟩ where
  length := Nat.le_of_not_lt fun hlt => hvalid (Or.inr hlt)
  count := Bitmap.marks_clear.symm
  below i hi := absurd hi (by
    rw [UplinkRx.fresh, UplinkRx.zero, Bitmap.marked_clear]
    exact Bool.false_ne_true)
  header _ := rfl
  bytes _ i hi := absurd hi (by
    rw [UplinkRx.fresh, UplinkRx.zero, Bitmap.marked_clear]
    exact Bool.false_ne_true)
  whole hc := Bool.noConfusion hc

theorem Receiving.restart (hr : Receiving u g) (hp : u.inProgress = true) :
    Receiving { u with
      receivedBytes := 0, nextRequestOffset := 0, recvBitmap := Bitmap.clear _ }
      ⟨some u.header, fun _ => none⟩ where
  length := hr.length
  count := Bitmap.marks_clear.symm
  below i hi := absurd hi (by rw [Bitmap.marked_clear]; exact Bool.false_ne_true)
  header _ := rfl
  bytes _ i hi := absurd hi (by rw [Bitmap.marked_clear]; exact Bool.false_ne_true)
  whole hc := absurd hc (by
    rw [hr.complete_of_progress hp]
    exact Bool.false_ne_true)

/-- **A part** is in the ledger where it is in the buffer. -/
theorem Receiving.store (hr : Receiving u g) (hfits : u.Fits h bytes) :
    Receiving (u.store h bytes) (g.note (.stored h bytes)) := by
  obtain ⟨hbuf, hmarked, hcount⟩ := UplinkRx.store_spec hfits hr.length hr.count
  have hheader := hr.header (Or.inl hfits.inProgress)
  have hcounts : g.Counts h bytes := by
    refine ⟨?_, hfits.crc⟩
    rw [hheader, Option.map_some, hfits.messageID]
    rfl
  have hnote : g.note (.stored h bytes) = { g with
      byte := fun i =>
        if UplinkRx.covers h bytes i then bytes[i - h.partStartByte.toNat]? else g.byte i } :=
    if_pos hcounts
  rw [hnote]
  refine ⟨hr.length, hcount, fun i hi => ?_, fun _ => hheader, fun _ i hi => ?_, fun hc => ?_⟩
  · rw [hmarked i, Bool.or_eq_true, decide_eq_true_eq] at hi
    rcases hi with hcov | hold
    · exact Nat.lt_of_lt_of_le hcov.2 hfits.inside
    · exact hr.below i hold
  · rw [hmarked i, Bool.or_eq_true, decide_eq_true_eq] at hi
    show (if UplinkRx.covers h bytes i then bytes[i - h.partStartByte.toNat]? else g.byte i) = _
    rw [hbuf i]
    by_cases hcov : UplinkRx.covers h bytes i
    · have hlt : i - h.partStartByte.toNat < bytes.length := by
        have := hcov.1
        have := hcov.2
        omega
      rw [if_pos hcov, if_pos hcov, List.getD_eq_getElem?_getD, List.getElem?_eq_getElem hlt]
      rfl
    · rw [if_neg hcov, if_neg hcov]
      exact hr.bytes (Or.inl hfits.inProgress) i (hi.resolve_left hcov)
  · exact absurd hc (by
      show ¬u.complete = true
      rw [hr.complete_of_progress hfits.inProgress]
      exact Bool.false_ne_true)

/-- **What is complete is in the ledger**, byte by byte. -/
theorem Receiving.byte (hr : Receiving u g) (hc : u.complete = true) {i : Nat}
    (hi : i < u.msgLen.toNat) : g.byte i = some (Cells.get u.buf i) := by
  refine hr.bytes (Or.inr hc) i ?_
  refine Bitmap.marked_of_marks hr.length hr.below ?_ hi
  rw [← hr.count]
  exact (hr.whole hc).2.1

end Receiving

/-- The uplink and all that has happened. -/
structure Uplinked (u : UplinkRx) (es : List Event) : Prop where
  receiving : Receiving u (Ledger.of es)
  owed : owed es = if u.complete then some u.msgId else none
  delivers : Each Delivers es
  onTime : Each OnTime es

section Keeping

variable {u u' : UplinkRx} {es es' : List Event}

theorem UplinkRx.length_message (h : u.msgLen.toNat ≤ uplinkMaxLen) :
    u.message.length = u.msgLen.toNat := by
  rw [message, List.length_take, Vector.length_toList]
  exact Nat.min_eq_left h

theorem UplinkRx.getElem?_message (h : u.msgLen.toNat ≤ uplinkMaxLen) {i : Nat}
    (hi : i < u.msgLen.toNat) : u.message[i]? = some (Cells.get u.buf i) := by
  have hlt : i < uplinkMaxLen := Nat.lt_of_lt_of_le hi h
  rw [message, List.getElem?_take_of_lt hi, Cells.get_eq_getElem _ hlt, Vector.getElem?_toList,
    Vector.getElem?_eq_getElem hlt]

/-- The front of a packet is the message. -/
theorem UplinkRx.take_packet (hlen : u.msgLen.toNat ≤ uplinkMaxLen)
    (stack : Vector UInt8 uplinkMaxLen) :
    (Cells.copy stack 0 u.message).toList.take u.msgLen.toNat = u.message := by
  have hcopy := Cells.take_copy stack 0 u.message
    (by rw [UplinkRx.length_message hlen, Nat.zero_add]; exact hlen)
  rw [Nat.zero_add, UplinkRx.length_message hlen, List.take_zero, List.nil_append] at hcopy
  exact hcopy

/-- What is forwarded is the message, with what was on the stack behind it. -/
theorem Uplinked.delivers_message (hu : Uplinked u es) (hc : u.complete = true)
    (stack : Vector UInt8 uplinkMaxLen) :
    Delivers es (.transmitted u.msgId u.msgLen (Cells.copy stack 0 u.message).toList) := by
  have hlen := hu.receiving.length
  have hfront := UplinkRx.take_packet hlen stack
  intro messageID length buf heq
  obtain ⟨rfl, rfl, rfl⟩ := Event.transmitted.inj heq
  refine ⟨u.msgCrc, hu.receiving.header (Or.inr hc), ?_, ?_, fun i hi => ?_⟩
  · rw [Vector.length_toList]
    exact hlen
  · rw [hfront]
    exact (hu.receiving.whole hc).2.2
  · have hfirst : (Cells.copy stack 0 u.message).toList[i]? = u.message[i]? := by
      rw [← List.getElem?_take_of_lt hi, hfront]
    rw [hu.receiving.byte hc hi, hfirst, UplinkRx.getElem?_message hlen hi]

/-- An event that is noted by no one. -/
theorem Uplinked.snoc (hu : Uplinked u es) {e : Event}
    (hr : Receiving u' (Ledger.of (es ++ [e])))
    (howed : Ltrx.owed (es ++ [e]) = if u'.complete then some u'.msgId else none)
    (hdelivers : Delivers es e) (htime : OnTime es e) : Uplinked u' (es ++ [e]) :=
  ⟨hr, howed, hu.delivers.snoc hdelivers, hu.onTime.snoc htime⟩

/-- **What every move keeps.** -/
theorem UpMove.keeps (h : UpMove u es' u') (hu : Uplinked u es) : Uplinked u' (es ++ es') := by
  have hr := hu.receiving
  have howed := hu.owed
  cases h with
  | apart he =>
    refine hu.snoc ?_ ?_ (delivers_of_ne fun _ _ _ heq => ?_) (onTime_of_apart es he)
    · rw [Ledger.of_snoc, Ledger.note_of_apart _ he]
      exact hr
    · rw [owed_snoc, owe_of_apart _ he]
      exact howed
    · rw [heq] at he
      exact he
  | asks start len retry =>
    rw [List.append_nil]
    exact ⟨⟨hr.length, hr.count, hr.below, hr.header, hr.bytes, hr.whole⟩, howed, hu.delivers,
      hu.onTime⟩
  | receives hdr payload hc =>
    rw [hc] at howed
    refine hu.snoc ?_ ?_ (delivers_of_ne fun _ _ _ heq => Event.noConfusion heq) howed
    · rw [Ledger.of_snoc]
      exact hr
    · rw [owed_snoc, hc]
      exact howed
  | drops hc =>
    rw [hc] at howed
    rw [List.append_nil]
    exact ⟨receiving_zero _, howed, hu.delivers, hu.onTime⟩
  | announces hvalid hc =>
    rw [hc] at howed
    refine hu.snoc ?_ ?_ (delivers_of_ne fun _ _ _ heq => Event.noConfusion heq) trivial
    · rw [Ledger.of_snoc]
      exact receiving_fresh hvalid
    · rw [owed_snoc]
      exact howed
  | restarts hp hc =>
    rw [hc] at howed
    refine hu.snoc ?_ ?_ (delivers_of_ne fun _ _ _ heq => Event.noConfusion heq) trivial
    · rw [Ledger.of_snoc]
      exact hr.restart hp
    · rw [owed_snoc, hc]
      exact howed
  | stores hfits hc =>
    refine hu.snoc ?_ ?_ (delivers_of_ne fun _ _ _ heq => Event.noConfusion heq) trivial
    · rw [Ledger.of_snoc]
      exact hr.store hfits
    · rw [owed_snoc]
      exact howed
  | completes hall hcrc hc =>
    rw [hc] at howed
    rw [UplinkRx.allReceived, Bool.and_eq_true, decide_eq_true_eq] at hall
    refine hu.snoc ?_ ?_ (delivers_of_ne fun _ _ _ heq => Event.noConfusion heq) howed
    · rw [Ledger.of_snoc]
      refine ⟨hr.length, hr.count, hr.below, fun _ => hr.header (Or.inl hall.1),
        fun _ => hr.bytes (Or.inl hall.1), fun _ => ⟨rfl, ?_, hcrc⟩⟩
      exact UInt16.le_iff_toNat_le.1 hall.2
    · rw [owed_snoc]
      rfl
  | transmits stack hc hlen =>
    have hwhole := hu.delivers_message hc stack
    rw [hc] at howed
    refine hu.snoc ?_ ?_ hwhole howed
    · rw [Ledger.of_snoc]
      exact receiving_zero _
    · rw [owed_snoc]
      rfl

end Keeping

/-- In which phases an uplink may be complete. -/
def Timely (n : Node) : Prop :=
  n.phase = .receiving ∨ n.phase = .starting → n.storage.up.complete = false

theorem Timely.step {n : Node} (h : Timely n) (hlen : n.storage.up.msgLen.toNat ≤ uplinkMaxLen)
    (i : Input) : Timely (n.step i).1 := by
  cases i with
  | child i =>
    rw [Node.step, Node.childStep]
    split
    · rename_i hphase
      exact fun _ => h (Or.inr hphase)
    · exact fun hor => absurd hor (by simp)
    · exact fun hor => absurd hor (by simp)
    · intro _
      show (n.storage.up.forwardToSB i.stack).1.complete = false
      rw [UplinkRx.forwardToSB]
      split
      · assumption
      · rw [if_neg (Nat.not_lt.2 hlen)]
        rfl
  | busBeacon msg sized seconds => exact h
  | sessionStartDownlink =>
    show Timely n.sessionStartDownlinkCmd
    rw [Node.sessionStartDownlinkCmd]
    split
    · exact h
    split
    · exact h
    · exact h
  | sessionAbort => exact h
  | sessionResetState => exact h
  | downstream enabled => exact h
  | setBusBeaconPeriod period =>
    show Timely (n.setBusBeaconPeriodCmd period)
    rw [Node.setBusBeaconPeriodCmd]
    split
    · exact h
    · exact h

/-- **In every run** the uplink agrees with what has happened. -/
theorem uplinked (is : List Input) :
    Uplinked (after is).storage.up (events is) ∧ Timely (after is) := by
  refine Node.machine.history_invariant
    (P := fun n es => Uplinked n.storage.up es ∧ Timely n) ?_ ?_ is
  · rintro n es i ⟨hu, ht⟩
    have hmoves := step_up n i fun hphase => ht (Or.inl hphase)
    exact ⟨hmoves.extends_history (fun _ _ _ _ hmove hk => hmove.keeps hk) hu,
      ht.step hu.receiving.length i⟩
  · exact ⟨⟨receiving_zero _, rfl, Each.nil _, Each.nil _⟩, fun _ => rfl⟩

/-! ## What is forwarded -/

/-- A byte of a part. -/
def HasByte (h : PartHeader) (bytes : List UInt8) (i : Nat) (b : UInt8) : Prop :=
  UplinkRx.covers h bytes i ∧ bytes[i - h.partStartByte.toNat]? = some b

/-- **What the ledger has** came since the last header, in parts of its message with the right
CRC. -/
theorem Ledger.since {es : List Event} {h : MessageHeader} (hes : (Ledger.of es).header = some h) :
    ∃ earlier later, es = earlier ++ .announced h :: later ∧ (∀ h', .announced h' ∉ later) ∧
      ∀ i b, (Ledger.of es).byte i = some b → ∃ p bytes, .stored p bytes ∈ later ∧
        p.messageID = h.messageID ∧ calculateCRC32 bytes = p.partCRC ∧ HasByte p bytes i b := by
  induction es using List.reverseRecOn with
  | nil => exact absurd hes (Option.some_ne_none h).symm
  | append_singleton es e ih =>
    rw [of_snoc] at hes ⊢
    -- an event that is not a header leaves the split where it was
    have hlater : (∀ h', e ≠ .announced h') → (Ledger.of es).header = some h →
        (∀ i b, ((Ledger.of es).note e).byte i = some b → (Ledger.of es).byte i = some b ∨
          ∃ p bytes, e = .stored p bytes ∧ p.messageID = h.messageID ∧
            calculateCRC32 bytes = p.partCRC ∧ HasByte p bytes i b) →
        ∃ earlier later, es ++ [e] = earlier ++ .announced h :: later ∧
          (∀ h', .announced h' ∉ later) ∧
          ∀ i b, ((Ledger.of es).note e).byte i = some b → ∃ p bytes, .stored p bytes ∈ later ∧
            p.messageID = h.messageID ∧ calculateCRC32 bytes = p.partCRC ∧ HasByte p bytes i b := by
      intro hne hheader hbyte
      obtain ⟨earlier, later, rfl, hno, hall⟩ := ih hheader
      refine ⟨earlier, later ++ [e], by simp, fun h' hmem => ?_, fun i b hb => ?_⟩
      · rcases List.mem_append.1 hmem with hmem | hmem
        · exact hno h' hmem
        · exact hne h' (List.mem_singleton.1 hmem).symm
      · rcases hbyte i b hb with hold | ⟨p, bytes, rfl, hp⟩
        · obtain ⟨p, bytes, hmem, hp⟩ := hall i b hold
          exact ⟨p, bytes, List.mem_append_left _ hmem, hp⟩
        · exact ⟨p, bytes, List.mem_append_right _ List.mem_cons_self, hp⟩
    cases e with
    | announced h' =>
      obtain rfl := Option.some.inj hes
      exact ⟨es, [], rfl, fun _ => List.not_mem_nil, 
        fun i b hb => absurd hb (Option.some_ne_none b).symm⟩
    | stored p bytes =>
      rw [note] at hes
      refine hlater (fun _ heq => Event.noConfusion heq) ?_ fun i b hb => ?_
      · split at hes <;> exact hes
      rw [note] at hb
      split at hb
      · rename_i hcounts
        rw [if_pos hcounts] at hes
        have hes : (Ledger.of es).header = some h := hes
        have hid := hcounts.1
        rw [hes, Option.map_some] at hid
        by_cases hcov : UplinkRx.covers p bytes i
        · have hb : (if UplinkRx.covers p bytes i then bytes[i - p.partStartByte.toNat]?
              else (Ledger.of es).byte i) = some b := hb
          rw [if_pos hcov] at hb
          exact Or.inr ⟨p, bytes, rfl, (Option.some.inj hid).symm, hcounts.2, hcov, hb⟩
        · have hb : (if UplinkRx.covers p bytes i then bytes[i - p.partStartByte.toNat]?
              else (Ledger.of es).byte i) = some b := hb
          rw [if_neg hcov] at hb
          exact Or.inl hb
      · exact Or.inl hb
    | _ => exact hlater (fun _ heq => Event.noConfusion heq) hes fun i b hb => Or.inl hb

/-- A message that is forwarded is the one that was announced last: its length and its CRC are those
of the header, and every byte comes from a part that was accepted since then. -/
def Intact (es : List Event) (e : Event) : Prop :=
  ∀ messageID length buf, e = .transmitted messageID length buf →
    ∃ earlier h later, es = earlier ++ .announced h :: later ∧ (∀ h', .announced h' ∉ later) ∧
      h.messageID = messageID ∧ h.messageLength = length ∧ length.toNat ≤ buf.length ∧
      calculateCRC32 (buf.take length.toNat) = h.messageCRC ∧
      ∀ i, i < length.toNat → ∃ b p bytes, buf[i]? = some b ∧ .stored p bytes ∈ later ∧
        p.messageID = messageID ∧ calculateCRC32 bytes = p.partCRC ∧ HasByte p bytes i b

theorem Delivers.intact {es : List Event} {e : Event} (h : Delivers es e) : Intact es e := by
  intro messageID length buf heq
  obtain ⟨crc, hheader, hlen, hcrc, hbyte⟩ := h messageID length buf heq
  obtain ⟨earlier, later, hes, hno, hsince⟩ := Ledger.since hheader
  refine ⟨earlier, _, later, hes, hno, rfl, rfl, hlen, hcrc, fun i hi => ?_⟩
  have hlt : i < buf.length := Nat.lt_of_lt_of_le hi hlen
  have hb : buf[i]? = some buf[i] := List.getElem?_eq_getElem hlt
  obtain ⟨p, bytes, hp⟩ := hsince i buf[i] ((hbyte i hi).trans hb)
  exact ⟨buf[i], p, bytes, hb, hp⟩

/-- **The uplink delivers only intact messages, each once.**  What is forwarded is intact; it is
forwarded once, before anything else is received (`OnTime`); headers and parts are those of the
commands (`Sourced`); and the count is the number of marks, which are inside the message. -/
theorem uplink_intact (is : List Input) :
    Each Intact (events is) ∧ Each OnTime (events is) ∧ Each Sourced (events is) ∧
      ((after is).phase = .receiving → owed (events is) = none) ∧
      (after is).storage.up.receivedBytes.toNat = (after is).storage.up.recvBitmap.marks ∧
      ∀ i, (after is).storage.up.recvBitmap.marked i → i < (after is).storage.up.msgLen.toNat := by
  obtain ⟨hu, ht⟩ := uplinked is
  refine ⟨fun pre e post heq => (hu.delivers pre e post heq).intact, hu.onTime, sourced is,
    fun hphase => ?_, hu.receiving.count, hu.receiving.below⟩
  rw [hu.owed, ht (Or.inl hphase)]
  rfl

/-! ## How long a packet says it is -/

/-- `CFE_MSG_GetSize`: the length in the header of the packet. -/
def msgSize (buf : List UInt8) : Nat := (buf.getD 4 0).toNat * 256 + (buf.getD 5 0).toNat + 7

/-- A packet is as long as it says. -/
def WellSized (e : Event) : Prop :=
  ∀ messageID length buf, e = .transmitted messageID length buf → msgSize buf = length.toNat

/-- The parts that came last have the length of the message where a packet has its length. -/
def SaysLength (g : Ledger) : Prop :=
  ∃ h high low, g.header = some h ∧ g.byte 4 = some high ∧ g.byte 5 = some low ∧
    high.toNat * 256 + low.toNat + 7 = h.messageLength.toNat

/-- **A packet is as long as it says** exactly if the parts that came last for its bytes 4 and 5 say
so: nothing else sees to it. -/
theorem wellSized_iff (is : List Input) :
    Each (fun es e => (∃ messageID length buf, e = .transmitted messageID length buf) →
      (WellSized e ↔ SaysLength (Ledger.of es))) (events is) := by
  intro es e post heq
  have hdelivers := (uplinked is).1.delivers es e post heq
  rintro ⟨messageID, length, buf, rfl⟩
  obtain ⟨crc, hheader, hlen, -, hbyte⟩ := hdelivers messageID length buf rfl
  have hget : ∀ i, i < length.toNat → (Ledger.of es).byte i = some (buf.getD i 0) := by
    intro i hi
    have hlt : i < buf.length := Nat.lt_of_lt_of_le hi hlen
    rw [hbyte i hi, List.getD_eq_getElem?_getD, List.getElem?_eq_getElem hlt]
    rfl
  constructor
  · intro hsized
    have hsize : msgSize buf = length.toNat := hsized messageID length buf rfl
    have hlong : 7 ≤ length.toNat := hsize ▸ Nat.le_add_left 7 _
    exact ⟨_, _, _, hheader, hget 4 (by omega), hget 5 (by omega), hsize⟩
  · rintro ⟨h, high, low, hh, hhigh, hlow, hsum⟩
    rw [hheader] at hh
    obtain rfl := Option.some.inj hh
    have hsum : high.toNat * 256 + low.toNat + 7 = length.toNat := hsum
    have hfour := hget 4 (by omega)
    have hfive := hget 5 (by omega)
    rw [hhigh] at hfour
    rw [hlow] at hfive
    intro messageID' length' buf' heq'
    obtain ⟨rfl, rfl, rfl⟩ := Event.transmitted.inj heq'
    rw [msgSize, ← Option.some.inj hfour, ← Option.some.inj hfive]
    exact hsum

/-- A datagram for the child task, in a world where nothing fails. -/
def delivering (d : List UInt8) : ChildInput where
  created := true
  listening := true
  arrival := some ⟨some d, cspRxPort⟩
  hdr := ⟨0, 0, 0, 0, 0⟩
  payload := Vector.replicate _ 0
  link := fun _ => true
  clock := fun _ => 0
  stack := Vector.replicate _ 0

/-- A command of the beacon. -/
def command (typeID : UInt8) (payload : List UInt8) : List UInt8 :=
  cmdHeaderLayout.bytes (buildCommandHeader defaultBeaconId defaultObcId typeID
    (UInt16.ofNat payload.length) (calculateCRC32 payload)) ++ payload

/-- A message of eight bytes whose header says that it has 263. -/
def oversized : List UInt8 := [0x18, 0x01, 0xC0, 0x00, 0x01, 0x00, 0x02, 0x03]

/-- It is offered, sent in one part and forwarded. -/
def uplinkOversized : List Input :=
  have offer := messageHeaderLayout.bytes ⟨1, 8, calculateCRC32 oversized⟩
  have part := partHeaderLayout.bytes ⟨1, 0, 8, calculateCRC32 oversized⟩ ++ oversized
  have turn := fun d => List.replicate 3 (Input.child (delivering d))
  .child (delivering []) :: turn (command 6 offer) ++ turn (command 9 part)

/-- **A packet may be longer than it is.** -/
theorem oversized_forwarded : ¬∀ is, Each (fun _ e => WellSized e) (events is) := by
  intro hall
  have hlast : ∃ buf, (events uplinkOversized)[11]? = some (.transmitted 1 8 buf) ∧
      msgSize buf = 263 := ⟨oversized ++ List.replicate 232 0, by decide +kernel, by decide⟩
  obtain ⟨buf, hget, hsize⟩ := hlast
  obtain ⟨hlt, heq⟩ := List.getElem?_eq_some_iff.1 hget
  have hsized := (hall uplinkOversized).get 11 hlt 1 8 buf heq
  rw [hsize] at hsized
  exact absurd hsized (by decide)

end Ltrx
end FlightApps
