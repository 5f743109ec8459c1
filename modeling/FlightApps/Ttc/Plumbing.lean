import FlightApps.Ttc.Runs

/-!
# Uploading a command in pieces

A command can be added by one call of `TTC_TimelineAddEntry` or "plumbed" in: reserve a slot, write
the packet into it piece by piece, and finalize.  The two ways share no code above `WriteToSlot` and
`CommitSlot` and make their checks in different orders, yet they come to the same
(`upload_eq_addEntry`): the plumbing succeeds if and only if the direct call does, and then leaves
the very same state.

There is one condition.  If an upload under the same identifiers is already under way,
`TTC_Plumb_TimelineAddEntryInit` fails, but the writes and the finalization that follow it go to the
slot reserved earlier, and succeed; `TTC_TimelineAddEntry` refuses the identifiers in that state
(`upload_over_reserved`).
-/

set_option autoImplicit false

namespace FlightApps
namespace Ttc

variable {t : Timeline} {e g : UInt16}

/-- The calls that reserve a slot and write a packet into it in pieces. -/
def uploadOps (e g : UInt16) (writes : List (Nat × List UInt8)) : List Op :=
  .plumbInit e g :: writes.map fun w => .plumbWrite e g w.2 w.1

/-- The timeline after a list of writes. -/
def writeAll (t : Timeline) (e g : UInt16) (writes : List (Nat × List UInt8)) : Timeline :=
  writes.foldl (fun t w => (plumbTimelineAddEntryWrite t e g w.2 w.1).timeline) t

theorem run_uploadOps (s : State) (e g : UInt16) (writes : List (Nat × List UInt8)) :
    ttc.run s (uploadOps e g writes) =
      ⟨writeAll (plumbTimelineAddEntryInit s.timeline e g).timeline e g writes, s.hk⟩ := by
  have hwrites : ∀ s : State, ttc.run s (writes.map fun w => .plumbWrite e g w.2 w.1) =
      ⟨writeAll s.timeline e g writes, s.hk⟩ := by
    induction writes with
    | nil => intro s; rfl
    | cons w writes ih => intro s; exact ih _
  exact hwrites _

/-- Without a reserved slot nothing is written. -/
theorem writeAll_of_not_reserves (hid : isAnonymousEntry e g = false)
    (hno : ∀ s, ¬t.plan.Reserves s e g) (writes : List (Nat × List UInt8)) :
    writeAll t e g writes = t := by
  induction writes with
  | nil => rfl
  | cons w writes ih =>
    have hone : (plumbTimelineAddEntryWrite t e g w.2 w.1).timeline = t := by
      rcases plumbWrite_cases t e g w.2 w.1 with
        ⟨ha, -⟩ | ⟨-, -, h⟩ | ⟨-, s, -, hs, -⟩ | ⟨-, s, -, hs, -⟩
      · rw [hid] at ha; exact absurd ha Bool.false_ne_true
      · rw [h]; rfl
      · exact absurd hs (hno s)
      · exact absurd hs (hno s)
    rw [writeAll, List.foldl_cons, hone]
    exact ih

/-- The entry of a slot under construction: reserved, with the packet as far as it is written. -/
def partialEntry (e g : UInt16) (command : Command) : TimelineEntry :=
  { reservedEntry e g with command := command }

/-- The slot under construction is the only one under its identifiers. -/
theorem reserves_partial (hno : ∀ s, ¬t.plan.Holds s e g) {slot : Nat}
    (hslot : slot < maxCommandEntries) (command : Command) (s : Nat) :
    (t.setEntry slot (partialEntry e g command)).plan.Reserves s e g ↔ s = slot := by
  rw [plan_setEntry t hslot, Plan.Reserves, Plan.put_entry]
  split
  · rename_i hs; exact iff_of_true ⟨rfl, rfl, rfl⟩ hs
  · rename_i hs; exact iff_of_false (fun h => hno s (Plan.Reserves.holds h)) hs

/-- **The writes fill the reserved slot.** -/
theorem writeAll_partial (hid : isAnonymousEntry e g = false) (hno : ∀ s, ¬t.plan.Holds s e g)
    {slot : Nat} (hslot : slot < maxCommandEntries) {data : List UInt8}
    (hdata : data.length ≤ maxCommandSize) (writes : List (Nat × List UInt8)) (command : Command)
    (hin : ∀ w ∈ writes, w.1 + w.2.length ≤ data.length) :
    writeAll (t.setEntry slot (partialEntry e g command)) e g writes =
      t.setEntry slot (partialEntry e g (Cells.copyAll command writes)) := by
  induction writes generalizing command with
  | nil => rfl
  | cons w writes ih =>
    have hfit : w.1 + w.2.length ≤ maxCommandSize := Nat.le_trans (hin w (by simp)) hdata
    have hres := reserves_partial hno hslot command
    have hone : (plumbTimelineAddEntryWrite (t.setEntry slot (partialEntry e g command)) e g w.2
        w.1).timeline = t.setEntry slot (partialEntry e g (Cells.copy command w.1 w.2)) := by
      rcases plumbWrite_cases (t.setEntry slot (partialEntry e g command)) e g w.2 w.1 with
        ⟨ha, -⟩ | ⟨-, hn, -⟩ | ⟨-, s, -, -, hb, -⟩ | ⟨-, s, -, hs, -, h⟩
      · rw [hid] at ha; exact absurd ha Bool.false_ne_true
      · exact absurd ((hres slot).2 rfl) (hn slot)
      · omega
      · obtain rfl := (hres s).1 hs
        rw [h]
        dsimp only
        rw [t.setEntry_setEntry, t.entry_setEntry hslot, Function.update_self]
        rfl
    rw [writeAll, List.foldl_cons, hone]
    exact ih _ fun w' hw' => hin w' (List.mem_cons_of_mem _ hw')

/-- With the packet in place and the identifiers free, the two ways make the same checks. -/
theorem finalizeStatus_eq_addStatus {data : List UInt8} (hpos : 0 < data.length)
    (hdata : data.length ≤ maxCommandSize) (ty : UInt8) (tag : UInt32) (ex : UInt8) (now : UInt32) :
    finalizeStatus ty tag ex data.length now (some (freshCommand data)) =
      addStatus ty tag ex data now false false := by
  have h1 : ¬data.length = 0 := by omega
  have h2 : ¬data.length > maxCommandSize := by omega
  simp only [finalizeStatus, addStatus, h1, h2, or_self, if_false, Bool.false_eq_true]

theorem timelineAddEntry_status (hv : t.plan.Valid) (ty : UInt8) (tag : UInt32) (st : UInt16)
    (ex : UInt8) (data : List UInt8) (now : UInt32) :
    (timelineAddEntry t ty e g tag st ex data now).status =
      addStatus ty tag ex data now (taken t e g) (full t) := by
  rw [timelineAddEntry_eq hv]
  dsimp only
  split
  · rename_i h; exact h.symm
  · rfl

/-- Finalizing without a reserved slot fails. -/
theorem plumbFinalize_of_not_reserves (hv : t.plan.Valid) (hid : isAnonymousEntry e g = false)
    (hno : ∀ s, ¬t.plan.Reserves s e g) (ty : UInt8) (tag : UInt32) (st : UInt16) (ex : UInt8)
    (size : Nat) (now now' : UInt32) :
    (plumbTimelineAddEntryFinalize t ty e g tag st ex size now now').status ≠ .success := by
  rcases plumbFinalize_cases hv ty e g tag st ex size now now' with
    ⟨ha, -⟩ | ⟨-, -, h, hne⟩ | ⟨-, s, -, hs, -⟩
  · rw [hid] at ha; exact absurd ha Bool.false_ne_true
  · rw [h]; exact hne
  · exact absurd hs (hno s)

/-- The two ways on a slot that both find empty. -/
theorem plumbFinalize_partial (hv : t.plan.Valid) (hid : isAnonymousEntry e g = false)
    (hno : ∀ s, ¬t.plan.Holds s e g) (hslot : findEmptySlot t < maxCommandEntries)
    (hempty : (t.entry (findEmptySlot t)).status = .empty) {data : List UInt8}
    (hpos : 0 < data.length) (hdata : data.length ≤ maxCommandSize) (ty : UInt8) (tag : UInt32)
    (st : UInt16) (ex : UInt8) (now : UInt32) :
    let plumbed := plumbTimelineAddEntryFinalize
      (t.setEntry (findEmptySlot t) (partialEntry e g (freshCommand data))) ty e g tag st ex
      data.length now now
    let direct := timelineAddEntry t ty e g tag st ex data now
    plumbed.status = direct.status ∧
      (plumbed.status = .success → plumbed.timeline = direct.timeline) := by
  intro plumbed direct
  have hres := reserves_partial hno hslot (freshCommand data)
  have hold : (t.entry (findEmptySlot t)).status ≠ .pending := by rw [hempty]; simp
  have htaken : taken t e g = false := by
    rcases findSlotByEntryId_cases t hid with ⟨hf, -⟩ | ⟨-, hh⟩
    · simp [taken, hf]
    · exact absurd hh (hno _)
  have hfull : full t = false := by simp [full, Nat.ne_of_lt hslot]
  have hv' : (t.setEntry (findEmptySlot t) (partialEntry e g (freshCommand data))).plan.Valid := by
    rw [plan_setEntry t hslot]
    exact hv.put hslot hold (by simp [partialEntry, reservedEntry])
      (by simp [partialEntry, reservedEntry]) (fun _ => hid) fun _ s hs => absurd hs (hno s)
  have hdirect : direct = _ := timelineAddEntry_eq hv ty e g tag st ex data now
  rw [htaken, hfull] at hdirect
  rcases plumbFinalize_cases hv' ty e g tag st ex data.length now now with
    ⟨ha, -⟩ | ⟨-, hn, -⟩ | ⟨-, s, -, hs, h⟩
  · rw [hid] at ha; exact absurd ha Bool.false_ne_true
  · exact absurd ((hres _).2 rfl) (hn _)
  · obtain rfl := (hres s).1 hs
    have hplumbed : plumbed = _ := h
    rw [t.entry_setEntry hslot, Function.update_self] at hplumbed
    dsimp only at hplumbed hdirect
    rw [show (partialEntry e g (freshCommand data)).command = freshCommand data from rfl,
      finalizeStatus_eq_addStatus hpos hdata, commit_setEntry t hslot (hv.notMem hold)] at hplumbed
    rw [hplumbed, hdirect]
    split
    · exact ⟨rfl, fun _ => rfl⟩
    · rename_i hne; exact ⟨rfl, fun h => absurd h hne⟩

/-- **Uploading in pieces comes to the same as uploading at once.**  In every reachable state, for
identifiers that no reservation has, for every packet that fits and every list of writes that stay
inside it, agree with it and cover it: after the reservation and the writes, in whatever order and
with whatever overlap, the finalization succeeds if and only if `TTC_TimelineAddEntry` with the same
arguments would have, and then the state is the same.  -/
theorem upload_eq_addEntry (start : UInt32) (ops : List Op) (e g : UInt16) (data : List UInt8)
    (writes : List (Nat × List UInt8)) (ty : UInt8) (tag : UInt32) (st : UInt16) (ex : UInt8)
    (now : UInt32)
    (hfree : ∀ slot, ¬(ttc.run (timelineInitialize start) ops).timeline.plan.Reserves slot e g)
    (hid : isAnonymousEntry e g = false) (hpos : 0 < data.length)
    (hdata : data.length ≤ maxCommandSize) (hpieces : Cells.PiecesOf writes data)
    (hcover : ∀ i < data.length, Cells.Covered writes i) :
    let s := ttc.run (timelineInitialize start) ops
    let direct := ttc.step s (.addEntry ty e g tag st ex data now)
    let plumbed := ttc.step (ttc.run s (uploadOps e g writes))
      (.plumbFinalize ty e g tag st ex data.length now now)
    (plumbed.2.1 = .success ↔ direct.2.1 = .success) ∧
      (plumbed.2.1 = .success → plumbed.1 = direct.1) := by
  intro s direct plumbed
  have hv : s.timeline.plan.Valid := valid_run start ops
  have hrun : ttc.run s (uploadOps e g writes) = _ := run_uploadOps s e g writes
  -- a reservation that fails leaves everything to fail
  have hfail : (plumbTimelineAddEntryInit s.timeline e g).timeline = s.timeline →
      direct.2.1 ≠ .success → (plumbed.2.1 = .success ↔ direct.2.1 = .success) ∧
        (plumbed.2.1 = .success → plumbed.1 = direct.1) := by
    intro hinit hdirect
    have hplumbed : plumbed.2.1 ≠ .success := by
      show (perform (ttc.run s (uploadOps e g writes)).timeline _).status ≠ _
      rw [hrun, hinit, writeAll_of_not_reserves hid hfree]
      exact plumbFinalize_of_not_reserves hv hid hfree ty tag st ex data.length now now
    exact ⟨iff_of_false hplumbed hdirect, fun h => absurd h hplumbed⟩
  have hstatus : direct.2.1 =
      addStatus ty tag ex data now (taken s.timeline e g) (full s.timeline) :=
    timelineAddEntry_status hv ..
  rcases plumbInit_cases s.timeline e g with
    ⟨ha, -⟩ | ⟨-, ⟨slot, hh⟩, h⟩ | ⟨-, -, hfull, h⟩ | ⟨-, hno, -, hslot, hempty, h⟩
  · rw [hid] at ha; exact absurd ha Bool.false_ne_true
  · refine hfail (by rw [h]; rfl) ?_
    rw [hstatus]
    refine addStatus_ne_success (Or.inl ?_)
    rcases findSlotByEntryId_cases s.timeline hid with ⟨-, hn⟩ | ⟨hf, -⟩
    · exact absurd hh (hn slot)
    · simp [taken, hid, Nat.ne_of_lt hf]
  · refine hfail (by rw [h]; rfl) ?_
    rw [hstatus]
    exact addStatus_ne_success (Or.inr hfull)
  · have hwrites := writeAll_partial hid hno hslot hdata writes (default : TimelineEntry).command
      hpieces.inside
    rw [Cells.copyAll_eq_copy hpieces hcover hdata] at hwrites
    have htimeline : (ttc.run s (uploadOps e g writes)).timeline =
        s.timeline.setEntry (findEmptySlot s.timeline) (partialEntry e g (freshCommand data)) := by
      rw [hrun, h]
      exact hwrites
    have hhk : (ttc.run s (uploadOps e g writes)).hk = s.hk := by rw [hrun]
    obtain ⟨h1, h2⟩ :=
      plumbFinalize_partial hv hid hno hslot hempty hpos hdata ty tag st ex now
    rw [← htimeline] at h1 h2
    refine ⟨by rw [show plumbed.2.1 = direct.2.1 from h1], fun hok => ?_⟩
    show State.mk _ (ttc.run s (uploadOps e g writes)).hk = State.mk _ s.hk
    rw [hhk]
    exact congrArg (State.mk · s.hk) (h2 hok)

/-- A packet of eight bytes: a CCSDS header with length field 1, and two bytes of data. -/
def samplePacket : List UInt8 := [0x18, 0x00, 0xC0, 0x00, 0x00, 0x01, 0x2A, 0x2B]

/-- Two overlapping writes, the later part first, on the empty timeline. -/
theorem upload_eq_addEntry_twoPieces :
    let s := ttc.run (timelineInitialize 0) []
    let direct := ttc.step s (.addEntry 0 1 0 10 0 0 samplePacket 5)
    let plumbed := ttc.step (ttc.run s (uploadOps 1 0 [(3, [0x00, 0x00, 0x01, 0x2A, 0x2B]),
        (0, [0x18, 0x00, 0xC0, 0x00])])) (.plumbFinalize 0 1 0 10 0 0 8 5 5)
    direct.2.1 = .success ∧ plumbed.1 = direct.1 := by
  have hfree : ∀ slot, ¬(ttc.run (timelineInitialize 0) []).timeline.plan.Reserves slot 1 0 := by
    intro slot h
    have hblank : (ttc.run (timelineInitialize 0) []).timeline.plan.entry slot = default :=
      Timeline.entry_default slot
    have hst := h.1
    rw [hblank] at hst
    exact absurd hst (by simp [default])
  have h := upload_eq_addEntry 0 [] 1 0 samplePacket
    [(3, [0x00, 0x00, 0x01, 0x2A, 0x2B]), (0, [0x18, 0x00, 0xC0, 0x00])] 0 10 0 0 5 hfree
    (by decide) (by decide) (by decide) ⟨by decide, by decide⟩ (by decide)
  have hok : (ttc.step (ttc.run (timelineInitialize 0) [])
      (.addEntry 0 1 0 10 0 0 samplePacket 5)).2.1 = .success := by decide +kernel
  exact ⟨hok, h.2 (h.1.2 hok)⟩

/-- **With an upload under way the two ways differ.**  After a reservation of the same identifiers
the plumbing goes through, on the slot reserved earlier, while the direct call is refused.  -/
theorem upload_over_reserved :
    let s := ttc.run (timelineInitialize 0) [.plumbInit 1 0]
    let direct := ttc.step s (.addEntry 0 1 0 10 0 0 samplePacket 5)
    let plumbed := ttc.step (ttc.run s (uploadOps 1 0 [(0, samplePacket)]))
      (.plumbFinalize 0 1 0 10 0 0 samplePacket.length 5 5)
    isAnonymousEntry 1 0 = false ∧ 0 < samplePacket.length ∧
      samplePacket.length ≤ maxCommandSize ∧ Cells.PiecesOf [(0, samplePacket)] samplePacket ∧
      (∀ i < samplePacket.length, Cells.Covered [(0, samplePacket)] i) ∧
      plumbed.2.1 = .success ∧ direct.2.1 = .duplicateEntry ∧
      ¬(plumbed.2.1 = .success ↔ direct.2.1 = .success) := by
  intro s direct plumbed
  have hplumbed : plumbed.2.1 = .success := by decide +kernel
  have hdirect : direct.2.1 = .duplicateEntry := by decide +kernel
  refine ⟨by decide, by decide, by decide, ⟨by decide, by decide⟩, by decide, hplumbed, hdirect, ?_⟩
  rw [hplumbed, hdirect]
  decide

end Ttc
end FlightApps
