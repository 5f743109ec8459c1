import FlightApps.Ttc.Moves

/-!
# What the calls of the timeline compute

One lemma per public function, each under the invariant and each saying in terms of the plan when
the call is refused (then it leaves the timeline exactly as it was) and what it does otherwise.
The unfolding of the code ends here.  In `FlightApps.Ttc.Runs` these lemmas become strings of
`Move`s, which is the form in which the invariants over whole runs are proved.
-/

set_option autoImplicit false

namespace FlightApps
namespace Ttc

open StableQueue

variable {t : Timeline}

/-- A call that is refused leaves everything as it was. -/
theorem Outcome.of_refuse {r : Outcome} {status : Status} (h : r = .refuse status t) :
    r.timeline = t ∧ r.effects = [] := by
  subst h
  exact ⟨rfl, rfl⟩

/-! ## Looking for a slot -/

theorem findEmptySlot_cases (t : Timeline) :
    (findEmptySlot t = maxCommandEntries ∧
        ∀ s, s < maxCommandEntries → (t.entry s).status ≠ .empty) ∨
      (findEmptySlot t < maxCommandEntries ∧ (t.entry (findEmptySlot t)).status = .empty) := by
  rcases Nat.lt_or_eq_of_le (Cells.first_le (fun e => e.status == .empty) t.entries) with h | h
  · have hp := Cells.first_spec h
    rw [beq_iff_eq] at hp
    exact Or.inr ⟨h, hp⟩
  · refine Or.inl ⟨h, fun s hs => ?_⟩
    have hp := Cells.not_of_first_eq h hs
    rw [beq_eq_false_iff_ne] at hp
    exact hp

/-- A scan for a property that no empty slot has. -/
theorem first_cases (t : Timeline) {q : TimelineEntry → Bool} (hq : q default = false) :
    (Cells.first q t.entries = maxCommandEntries ∧ ∀ s, q (t.entry s) = false) ∨
      (Cells.first q t.entries < maxCommandEntries ∧
        q (t.entry (Cells.first q t.entries)) = true) := by
  rcases Nat.lt_or_eq_of_le (Cells.first_le q t.entries) with h | h
  · exact Or.inr ⟨h, Cells.first_spec h⟩
  · refine Or.inl ⟨h, fun s => ?_⟩
    rcases Nat.lt_or_ge s maxCommandEntries with hs | hs
    · exact Cells.not_of_first_eq h hs
    · rw [t.entry_of_le hs, hq]

theorem findSlotByEntryId_cases (t : Timeline) {e g : UInt16}
    (hid : isAnonymousEntry e g = false) :
    (findSlotByEntryId t e g = maxCommandEntries ∧ ∀ s, ¬t.plan.Holds s e g) ∨
      (findSlotByEntryId t e g < maxCommandEntries ∧
        t.plan.Holds (findSlotByEntryId t e g) e g) := by
  rw [findSlotByEntryId, if_neg (by simp [hid])]
  rcases first_cases t (q := fun x => x.status != .empty && x.entryId == e && x.groupId == g)
    (by simp [default]) with ⟨h, hall⟩ | ⟨h, hp⟩
  · refine Or.inl ⟨h, fun s hs => ?_⟩
    have := hall s
    simp_all [Plan.Holds]
  · refine Or.inr ⟨h, ?_⟩
    simp only [Bool.and_eq_true, bne_iff_ne, ne_eq, beq_iff_eq] at hp
    exact ⟨hp.1.1, hp.1.2, hp.2⟩

/-- The slot is reserved under the given identifiers. -/
def Plan.Reserves (p : Plan) (slot : Nat) (e g : UInt16) : Prop :=
  (p.entry slot).status = .reserved ∧ (p.entry slot).entryId = e ∧ (p.entry slot).groupId = g

theorem Plan.Reserves.holds {p : Plan} {slot : Nat} {e g : UInt16} (h : p.Reserves slot e g) :
    p.Holds slot e g := ⟨by rw [h.1]; simp, h.2⟩

theorem findReservedSlot_cases (t : Timeline) {e g : UInt16}
    (hid : isAnonymousEntry e g = false) :
    (findReservedSlot t e g = maxCommandEntries ∧ ∀ s, ¬t.plan.Reserves s e g) ∨
      (findReservedSlot t e g < maxCommandEntries ∧
        t.plan.Reserves (findReservedSlot t e g) e g) := by
  rw [findReservedSlot, if_neg (by simp [hid])]
  rcases first_cases t (q := fun x => x.status == .reserved && x.entryId == e && x.groupId == g)
    (by simp [default]) with ⟨h, hall⟩ | ⟨h, hp⟩
  · refine Or.inl ⟨h, fun s hs => ?_⟩
    have := hall s
    simp_all [Plan.Reserves]
  · refine Or.inr ⟨h, ?_⟩
    simp only [Bool.and_eq_true, beq_iff_eq] at hp
    exact ⟨hp.1.1, hp.1.2, hp.2⟩

/-! ## Committing -/

/-- Schedule a slot and fill it: what `CommitSlot` comes to when its checks pass. -/
def Timeline.commit (t : Timeline) (slot : Nat) (e : TimelineEntry) : Timeline :=
  (insertSlotToSortedIndex t e.timeTag slot).1.setEntry slot e

theorem plan_commit (hs : t.plan.Sorted) {slot : Nat} (hslot : slot < maxCommandEntries)
    (hc : t.count < maxCommandEntries) (e : TimelineEntry) :
    (t.commit slot e).plan = t.plan.schedule slot e := by
  obtain ⟨t', ht, -, hp⟩ := insertSlotToSortedIndex_eq hs hslot hc e.timeTag
  rw [Timeline.commit, ht, plan_setEntry _ hslot, hp]
  rfl

theorem shiftUp_setEntry (index i : Nat) (t : Timeline) (slot : Nat) (e : TimelineEntry) :
    shiftUp index i (t.setEntry slot e) = (shiftUp index i t).setEntry slot e := by
  induction i generalizing t with
  | zero => rfl
  | succ i ih =>
    rw [shiftUp, shiftUp]
    split
    · exact ih (t.setIndex (i + 1) (t.index i))
    · rfl

/-- The binary search only looks at the slots on the agenda. -/
theorem findSortedIndex_setEntry (t : Timeline) {slot : Nat} (hslot : slot < maxCommandEntries)
    (hn : slot ∉ t.agenda) (e : TimelineEntry) (timeTag : UInt32) :
    findSortedIndex (t.setEntry slot e) timeTag = findSortedIndex t timeTag := by
  refine bisect_congr (fun i hi => ?_) _ _ _ (Nat.le_refl _)
  have hne : t.index i ≠ slot := fun h =>
    hn (h ▸ Timeline.mem_agendaTo.2 ⟨i, hi, rfl⟩)
  rw [t.index_setEntry, t.entry_setEntry hslot, Function.update_of_ne hne]

/-- What a slot held before it is committed does not matter. -/
theorem commit_setEntry (t : Timeline) {slot : Nat} (hslot : slot < maxCommandEntries)
    (hn : slot ∉ t.agenda) (x e : TimelineEntry) :
    (t.setEntry slot x).commit slot e = t.commit slot e := by
  rw [Timeline.commit, Timeline.commit, insertSlotToSortedIndex, insertSlotToSortedIndex,
    if_neg (Nat.not_le.2 hslot), if_neg (Nat.not_le.2 hslot),
    findSortedIndex_setEntry t hslot hn]
  dsimp only
  rw [t.count_setEntry]
  split
  · exact t.setEntry_setEntry ..
  · rw [shiftUp_setEntry]
    exact Timeline.setEntry_setEntry
      { (shiftUp (findSortedIndex t e.timeTag) t.count t).setIndex (findSortedIndex t e.timeTag)
          slot with count := (shiftUp (findSortedIndex t e.timeTag) t.count t).count + 1 } slot x e

/-- The checks of `CommitSlot`, in order. -/
def commitStatus (executionType : UInt8) (command : Command) (cmdSize : Nat) : Status :=
  if ¬validExecType executionType then .invalidExecType
  else if msgGetSize command ≠ cmdSize then .cmdSizeMismatch
  else if cmdSize > maxCommandSize then .cmdSizeTooLarge
  else .success

theorem commitStatus_eq_success {executionType : UInt8} {command : Command} {cmdSize : Nat}
    (h : commitStatus executionType command cmdSize = .success) :
    validExecType executionType ∧ msgGetSize command = cmdSize ∧ cmdSize ≤ maxCommandSize := by
  unfold commitStatus at h
  split at h
  · simp at h
  · split at h
    · simp at h
    · split at h
      · simp at h
      · exact ⟨not_not.1 ‹_›, not_not.1 ‹_›, Nat.not_lt.1 ‹_›⟩

/-- **`CommitSlot`**: its checks decide, the insertion never fails. -/
theorem commitSlot_eq (hs : t.plan.Sorted) {slot : Nat} (hslot : slot < maxCommandEntries)
    (hc : t.count < maxCommandEntries) (timeTag : UInt32) (st : UInt16) (ex : UInt8)
    (size : Nat) :
    commitSlot t slot timeTag st ex size =
      (commitStatus ex (t.entry slot).command size,
        if commitStatus ex (t.entry slot).command size = .success then
          t.commit slot { t.entry slot with
            timeTag := timeTag, stalenessThreshold := st, executionType := ex, cmdSize := size,
            status := .pending }
        else t) := by
  obtain ⟨t', ht, -, hp⟩ := insertSlotToSortedIndex_eq hs hslot hc timeTag
  have hentry : t'.entry = t.entry := congrArg Plan.entry hp
  have hex : (ex ≠ exectypeSkipLate ∧ ex ≠ exectypeForce ∧ ex ≠ exectypeAbortLate) ↔
      ¬validExecType ex := by simp [validExecType]
  rw [commitSlot]
  simp only [hex, commitStatus]
  split
  · simp
  · split
    · simp
    · split
      · simp
      · rw [ht]
        simp [Timeline.commit, ht, hentry]

/-! ## Adding an entry -/

/-- The time tag a call asks for: relative ones count from `now`. -/
def absTimeTag (timeTagType : UInt8) (timeTag now : UInt32) : UInt32 :=
  if timeTagType = timetagTypeRelative then now + timeTag else timeTag

/-- The `Command` buffer of an empty slot after the packet is written into it. -/
def freshCommand (cmdData : List UInt8) : Command :=
  Cells.copy (default : TimelineEntry).command 0 cmdData

/-- The entry `TTC_TimelineAddEntry` builds. -/
def newEntry (e g : UInt16) (tag : UInt32) (st : UInt16) (ex : UInt8) (data : List UInt8) :
    TimelineEntry :=
  ⟨tag, st, e, g, ex, .pending, data.length, freshCommand data⟩

/-- The status `TTC_TimelineAddEntry` returns, given whether the identifiers are taken and whether
the timeline is full. -/
def addStatus (ty : UInt8) (tag : UInt32) (ex : UInt8) (data : List UInt8) (now : UInt32)
    (taken full : Bool) : Status :=
  if ty ≠ timetagTypeAbsolute ∧ ty ≠ timetagTypeRelative then .invalidTimeTagType
  else if data.length > maxCommandSize then .cmdSizeTooLarge
  else if taken then .duplicateEntry
  else if full then .noEmptySlot
  else if ty = timetagTypeAbsolute ∧ tag < now then .timeTagInPast
  else commitStatus ex (freshCommand data) data.length

/-- If the identifiers are taken or the timeline is full, the call fails. -/
theorem addStatus_ne_success {ty : UInt8} {tag : UInt32} {ex : UInt8} {data : List UInt8}
    {now : UInt32} {taken full : Bool} (h : taken = true ∨ full = true) :
    addStatus ty tag ex data now taken full ≠ .success := by
  unfold addStatus
  rcases h with rfl | rfl
  · split
    · simp
    · split <;> simp
  · split
    · simp
    · split
      · simp
      · split <;> simp

/-- What `TTC_TimelineAddEntry` has checked when it succeeds. -/
theorem addStatus_eq_success {ty : UInt8} {tag : UInt32} {ex : UInt8} {data : List UInt8}
    {now : UInt32} {taken full : Bool}
    (h : addStatus ty tag ex data now taken full = .success) :
    (ty ≠ timetagTypeRelative → now ≤ tag) ∧ taken = false ∧ full = false ∧
      commitStatus ex (freshCommand data) data.length = .success := by
  simp only [addStatus] at h
  split at h
  · simp at h
  rename_i htype
  split at h
  · simp at h
  split at h
  · simp at h
  rename_i htaken
  split at h
  · simp at h
  rename_i hfull
  split at h
  · simp at h
  rename_i hpast
  refine ⟨fun hrel => ?_, Bool.eq_false_iff.2 htaken, Bool.eq_false_iff.2 hfull, h⟩
  by_contra hlt
  exact hpast ⟨by tauto, by grind⟩

/-- The identifiers are in use. -/
def taken (t : Timeline) (e g : UInt16) : Bool :=
  !isAnonymousEntry e g && findSlotByEntryId t e g != maxCommandEntries

/-- No slot is empty. -/
def full (t : Timeline) : Bool := findEmptySlot t == maxCommandEntries

theorem Plan.Valid.count_le (hv : t.plan.Valid) : t.count ≤ maxCommandEntries := by
  have h := hv.length_le
  rwa [plan_agenda, Timeline.length_agenda] at h

/-- Giving back a slot that was empty before restores the timeline. -/
theorem cancelSlot_setEntry (hv : t.plan.Valid) {slot : Nat} (h : (t.entry slot).status = .empty)
    (e : TimelineEntry) : cancelSlot (t.setEntry slot e) slot = t := by
  have hblank : t.entry slot = default := hv.blank slot h
  rw [cancelSlot, t.setEntry_setEntry, ← hblank, t.setEntry_entry_self]

/-- **`TTC_TimelineAddEntry`.** -/
theorem timelineAddEntry_eq (hv : t.plan.Valid) (ty : UInt8) (e g : UInt16) (tag : UInt32)
    (st : UInt16) (ex : UInt8) (data : List UInt8) (now : UInt32) :
    timelineAddEntry t ty e g tag st ex data now =
      let status := addStatus ty tag ex data now (taken t e g) (full t)
      if status = .success then
        ⟨.success,
          t.commit (findEmptySlot t) (newEntry e g (absTimeTag ty tag now) st ex data),
          [.committed (findEmptySlot t)]⟩
      else .refuse status t := by
  rw [timelineAddEntry]
  simp only [addStatus, taken, full, beq_iff_eq]
  split
  · simp
  split
  · simp
  rename_i hsize
  split
  · simp
  split
  · simp
  rename_i hfull
  rcases findEmptySlot_cases t with ⟨h, -⟩ | ⟨hslot, hempty⟩
  · exact absurd h hfull
  generalize findEmptySlot t = slot at hfull hslot hempty ⊢
  split
  · simp [cancelSlot_setEntry hv hempty]
  have hold : (t.entry slot).status ≠ .pending := by rw [hempty]; simp
  have hblank : t.entry slot = default := hv.blank slot hempty
  -- the slot as it is when `CommitSlot` is called
  have hwrite : ∀ x, (t.setEntry slot x).entry slot = x := fun x => by
    rw [t.entry_setEntry hslot, Function.update_self]
  have hcommit : ∀ (x : TimelineEntry) (tag : UInt32),
      commitSlot (t.setEntry slot x) slot tag st ex data.length =
        (commitStatus ex x.command data.length,
          if commitStatus ex x.command data.length = .success then
            t.commit slot { x with
              timeTag := tag, stalenessThreshold := st, executionType := ex,
              cmdSize := data.length, status := .pending }
          else t.setEntry slot x) := fun x tag => by
    have hsort : (t.setEntry slot x).plan.Sorted := by
      rw [plan_setEntry t hslot]; exact hv.sorted.put (hv.notMem hold) x
    have hcount : (t.setEntry slot x).count < maxCommandEntries := by
      simpa using hv.length_lt hslot hold
    rw [commitSlot_eq hsort hslot hcount, hwrite,
      commit_setEntry t hslot (hv.notMem hold)]
  rw [writeToSlot, if_neg (by omega), hwrite]
  simp only [t.setEntry_setEntry, hcommit, hblank, newEntry, absTimeTag]
  rw [show Cells.copy (default : TimelineEntry).command 0 data = freshCommand data from rfl]
  cases hstat : commitStatus ex (freshCommand data) data.length <;>
    simp [cancelSlot_setEntry hv hempty]

/-! ## Deleting and executing by identifier -/

/-- **`TTC_TimelineDeleteEntry`.** -/
theorem timelineDeleteEntry_cases (hv : t.plan.Valid) (e g : UInt16) :
    (isAnonymousEntry e g = true ∧ timelineDeleteEntry t e g = .refuse .anonymousId t) ∨
      (isAnonymousEntry e g = false ∧ (∀ s ∈ t.agenda, ¬t.plan.Holds s e g) ∧
        timelineDeleteEntry t e g = .refuse .entryNotFound t) ∨
      (isAnonymousEntry e g = false ∧ ∃ s ∈ t.agenda, t.plan.Holds s e g ∧
        (timelineDeleteEntry t e g).status = .success ∧
        (timelineDeleteEntry t e g).effects = [.left s .deleted] ∧
        (timelineDeleteEntry t e g).timeline.plan = t.plan.remove s) := by
  cases hid : isAnonymousEntry e g with
  | true => simp [timelineDeleteEntry, hid]
  | false =>
    refine Or.inr ?_
    rcases findSlotByEntryId_cases t hid with ⟨hf, hno⟩ | ⟨hf, hh⟩
    · exact Or.inl ⟨rfl, fun s _ => hno s, by simp [timelineDeleteEntry, hid, hf]⟩
    · generalize hs : findSlotByEntryId t e g = slot at hf hh
      by_cases hmem : slot ∈ t.agenda
      · obtain ⟨hp, htrue, -⟩ := plan_deleteSlot hf hv.count_le hmem
        refine Or.inr ⟨rfl, slot, hmem, hh, ?_⟩
        cases hd : deleteSlot t slot with
        | mk t' found =>
          rw [hd] at hp htrue
          simp only at hp htrue
          simp [timelineDeleteEntry, hid, hs, Nat.ne_of_lt hf, hd, htrue, hp]
      · -- the identifiers are those of a reserved slot
        refine Or.inl ⟨rfl, fun s hsm hsh => ?_, ?_⟩
        · exact hmem (hv.unique s slot e g hid hsh hh ▸ hsm)
        · simp [timelineDeleteEntry, hid, hs, Nat.ne_of_lt hf,
            deleteSlot_of_notMem hf hv.count_le hmem]

/-- Add to the three counters of the cycle. -/
def CycleContext.tally (c : CycleContext) (sent skipped aborted : Nat) : CycleContext :=
  { c with
    executed := c.executed + UInt16.ofNat sent
    skipped := c.skipped + UInt16.ofNat skipped
    aborted := c.aborted + UInt16.ofNat aborted }

/-- The same in a plan. -/
def Plan.tally (p : Plan) (sent skipped aborted : Nat) : Plan :=
  { p with context := p.context.tally sent skipped aborted }

theorem CycleContext.tally_tally (c : CycleContext) (a b d a' b' d' : Nat) :
    (c.tally a b d).tally a' b' d' = c.tally (a + a') (b + b') (d + d') := by
  simp [CycleContext.tally, UInt16.ofNat_add, UInt16.add_assoc]

theorem Plan.tally_tally (p : Plan) (a b d a' b' d' : Nat) :
    (p.tally a b d).tally a' b' d' = p.tally (a + a') (b + b') (d + d') := by
  simp [Plan.tally, CycleContext.tally_tally]

@[simp] theorem CycleContext.tally_zero (c : CycleContext) : c.tally 0 0 0 = c := by
  simp [CycleContext.tally]

@[simp] theorem Plan.tally_zero (p : Plan) : p.tally 0 0 0 = p := by
  simp [Plan.tally]

@[simp] theorem Plan.tally_entry (p : Plan) (a b d : Nat) : (p.tally a b d).entry = p.entry := rfl

@[simp] theorem Plan.tally_agenda (p : Plan) (a b d : Nat) : (p.tally a b d).agenda = p.agenda :=
  rfl

theorem Plan.removeAll_tally (p : Plan) (a b d : Nat) (slots : List Nat) :
    (p.tally a b d).removeAll slots = (p.removeAll slots).tally a b d := rfl

theorem Plan.Valid.tally {p : Plan} (h : p.Valid) (a b d : Nat) : (p.tally a b d).Valid :=
  { h with noErrors := h.noErrors }

/-- Strike an entry off unless it is to be kept. -/
def Plan.removeUnless (p : Plan) (persist : Bool) (slot : Nat) : Plan :=
  if persist then p else p.remove slot

/-- What sending the packet of a slot emits. -/
def sendEffects (p : Plan) (persist : Bool) (slot : Nat) : List Effect :=
  .transmit slot (p.entry slot).command :: if persist then [] else [.left slot .executed]

/-- **`ExecuteEntry`** on a pending slot. -/
theorem executeEntry_of_mem (hv : t.plan.Valid) {slot : Nat} (hmem : slot ∈ t.agenda)
    (persist : Bool) :
    (executeEntry t slot persist).1.plan = (t.plan.removeUnless persist slot).tally 1 0 0 ∧
      (executeEntry t slot persist).2 = sendEffects t.plan persist slot ∧
      (executeEntry t slot persist).1.count = t.count - if persist then 0 else 1 := by
  have hslot := hv.lt_of_mem hmem
  have hpend : (t.entry slot).status = .pending := (hv.mem slot).1 hmem
  obtain ⟨hp, -, hn⟩ := plan_deleteSlot hslot hv.count_le hmem
  have hctx : (deleteSlot t slot).1.cycleContext = t.cycleContext := congrArg Plan.context hp
  rw [executeEntry, if_neg (Nat.not_le.2 hslot), if_neg (by simp [hpend])]
  cases persist with
  | true => exact ⟨by simp [Plan.removeUnless, Plan.tally, CycleContext.tally], rfl, rfl⟩
  | false =>
    refine ⟨?_, rfl, hn⟩
    simp [Plan.removeUnless, Plan.tally, CycleContext.tally, hp, hctx, Plan.remove]

/-- **`TTC_TimelineExecuteEntry`.** -/
theorem timelineExecuteEntry_cases (hv : t.plan.Valid) (e g : UInt16) (persist : Bool) :
    (isAnonymousEntry e g = true ∧
        timelineExecuteEntry t e g persist = .refuse .anonymousId t) ∨
      (isAnonymousEntry e g = false ∧ (∀ s, ¬t.plan.Holds s e g) ∧
        timelineExecuteEntry t e g persist = .refuse .entryNotFound t) ∨
      (isAnonymousEntry e g = false ∧ (∃ s, t.plan.Reserves s e g) ∧
        timelineExecuteEntry t e g persist = .refuse .entryNotPending t) ∨
      (isAnonymousEntry e g = false ∧ ∃ s ∈ t.agenda, t.plan.Holds s e g ∧
        (timelineExecuteEntry t e g persist).status = .success ∧
        (timelineExecuteEntry t e g persist).effects = sendEffects t.plan persist s ∧
        (timelineExecuteEntry t e g persist).timeline.plan
          = (t.plan.removeUnless persist s).tally 1 0 0) := by
  cases hid : isAnonymousEntry e g with
  | true => simp [timelineExecuteEntry, hid]
  | false =>
    refine Or.inr ?_
    rcases findSlotByEntryId_cases t hid with ⟨hf, hno⟩ | ⟨hf, hh⟩
    · exact Or.inl ⟨rfl, hno, by simp [timelineExecuteEntry, hid, hf]⟩
    · generalize hs : findSlotByEntryId t e g = slot at hf hh
      refine Or.inr ?_
      by_cases hpend : (t.entry slot).status = .pending
      · have hmem : slot ∈ t.agenda := (hv.mem slot).2 hpend
        obtain ⟨hp, he, -⟩ := executeEntry_of_mem hv hmem persist
        refine Or.inr ⟨rfl, slot, hmem, hh, ?_⟩
        simp [timelineExecuteEntry, hid, hs, Nat.ne_of_lt hf, hpend, hp, he]
      · refine Or.inl ⟨rfl, ⟨slot, ?_, hh.2⟩, ?_⟩
        · have hne := hh.1
          cases hst : (t.entry slot).status with
          | empty => exact absurd hst hne
          | pending => exact absurd hst hpend
          | reserved => exact hst
        · simp [timelineExecuteEntry, hid, hs, Nat.ne_of_lt hf, hpend]

/-! ## Plumbing -/

/-- **`TTC_Plumb_TimelineAddEntryInit`.** -/
theorem plumbInit_cases (t : Timeline) (e g : UInt16) :
    (isAnonymousEntry e g = true ∧ plumbTimelineAddEntryInit t e g = .refuse .anonymousId t) ∨
      (isAnonymousEntry e g = false ∧ (∃ s, t.plan.Holds s e g) ∧
        plumbTimelineAddEntryInit t e g = .refuse .duplicateEntry t) ∨
      (isAnonymousEntry e g = false ∧ (∀ s, ¬t.plan.Holds s e g) ∧ full t = true ∧
        plumbTimelineAddEntryInit t e g = .refuse .noEmptySlot t) ∨
      (isAnonymousEntry e g = false ∧ (∀ s, ¬t.plan.Holds s e g) ∧ full t = false ∧
        findEmptySlot t < maxCommandEntries ∧ (t.entry (findEmptySlot t)).status = .empty ∧
        plumbTimelineAddEntryInit t e g =
          ⟨.success, t.setEntry (findEmptySlot t) (reservedEntry e g), []⟩) := by
  cases hid : isAnonymousEntry e g with
  | true => simp [plumbTimelineAddEntryInit, hid]
  | false =>
    refine Or.inr ?_
    rcases findSlotByEntryId_cases t hid with ⟨hf, hno⟩ | ⟨hf, hh⟩
    · refine Or.inr ?_
      rcases findEmptySlot_cases t with ⟨he, -⟩ | ⟨he, hemp⟩
      · exact Or.inl
          ⟨rfl, hno, by simp [full, he], by simp [plumbTimelineAddEntryInit, hid, hf, he]⟩
      · refine Or.inr ⟨rfl, hno, by simp [full, Nat.ne_of_lt he], he, hemp, ?_⟩
        simp [plumbTimelineAddEntryInit, hid, hf, Nat.ne_of_lt he]
    · exact Or.inl ⟨rfl, ⟨_, hh⟩, by simp [plumbTimelineAddEntryInit, hid, Nat.ne_of_lt hf]⟩

/-- **`TTC_Plumb_TimelineAddEntryWrite`.** -/
theorem plumbWrite_cases (t : Timeline) (e g : UInt16) (chunk : List UInt8) (offset : Nat) :
    (isAnonymousEntry e g = true ∧
        plumbTimelineAddEntryWrite t e g chunk offset = .refuse .anonymousId t) ∨
      (isAnonymousEntry e g = false ∧ (∀ s, ¬t.plan.Reserves s e g) ∧
        plumbTimelineAddEntryWrite t e g chunk offset = .refuse .entryNotFound t) ∨
      (isAnonymousEntry e g = false ∧ ∃ s < maxCommandEntries, t.plan.Reserves s e g ∧
        maxCommandSize < offset + chunk.length ∧
        plumbTimelineAddEntryWrite t e g chunk offset = .refuse .writeOutOfBounds t) ∨
      (isAnonymousEntry e g = false ∧ ∃ s < maxCommandEntries, t.plan.Reserves s e g ∧
        offset + chunk.length ≤ maxCommandSize ∧
        plumbTimelineAddEntryWrite t e g chunk offset = ⟨.success, t.setEntry s
          { t.entry s with command := Cells.copy (t.entry s).command offset chunk }, []⟩) := by
  cases hid : isAnonymousEntry e g with
  | true => simp [plumbTimelineAddEntryWrite, hid]
  | false =>
    refine Or.inr ?_
    rcases findReservedSlot_cases t hid with ⟨hf, hno⟩ | ⟨hf, hh⟩
    · exact Or.inl ⟨rfl, hno, by simp [plumbTimelineAddEntryWrite, hid, hf]⟩
    · generalize hs : findReservedSlot t e g = slot at hf hh
      refine Or.inr ?_
      rcases Nat.lt_or_ge maxCommandSize (offset + chunk.length) with hb | hb
      · refine Or.inl ⟨rfl, slot, hf, hh, hb, ?_⟩
        simp [plumbTimelineAddEntryWrite, hid, hs, Nat.ne_of_lt hf, writeToSlot, hb,
          Outcome.refuse]
      · refine Or.inr ⟨rfl, slot, hf, hh, hb, ?_⟩
        simp [plumbTimelineAddEntryWrite, hid, hs, Nat.ne_of_lt hf, writeToSlot,
          Nat.not_lt.2 hb]

/-- The status `TTC_Plumb_TimelineAddEntryFinalize` returns, given the packet in the reserved slot,
if there is one. -/
def finalizeStatus (ty : UInt8) (tag : UInt32) (ex : UInt8) (size : Nat) (now : UInt32) :
    Option Command → Status
  | none =>
    if ty ≠ timetagTypeAbsolute ∧ ty ≠ timetagTypeRelative then .invalidTimeTagType
    else if size = 0 ∨ size > maxCommandSize then .cmdSizeTooLarge
    else .entryNotFound
  | some command =>
    if ty ≠ timetagTypeAbsolute ∧ ty ≠ timetagTypeRelative then .invalidTimeTagType
    else if size = 0 ∨ size > maxCommandSize then .cmdSizeTooLarge
    else if ty = timetagTypeAbsolute ∧ tag < now then .timeTagInPast
    else commitStatus ex command size

/-- What it has checked when it succeeds. -/
theorem finalizeStatus_eq_success {ty : UInt8} {tag : UInt32} {ex : UInt8} {size : Nat}
    {now : UInt32} {command : Command}
    (h : finalizeStatus ty tag ex size now (some command) = .success) :
    (ty ≠ timetagTypeRelative → now ≤ tag) ∧ commitStatus ex command size = .success := by
  simp only [finalizeStatus] at h
  split at h
  · simp at h
  rename_i htype
  split at h
  · simp at h
  split at h
  · simp at h
  rename_i hpast
  refine ⟨fun hrel => ?_, h⟩
  by_contra hlt
  exact hpast ⟨by tauto, by grind⟩

/-- What `TTC_Plumb_TimelineAddEntryFinalize` makes of a reserved entry. -/
def TimelineEntry.finalize (x : TimelineEntry) (tag : UInt32) (st : UInt16) (ex : UInt8)
    (size : Nat) : TimelineEntry :=
  { x with
    timeTag := tag, stalenessThreshold := st, executionType := ex, cmdSize := size,
    status := .pending }

/-- **`TTC_Plumb_TimelineAddEntryFinalize`.** -/
theorem plumbFinalize_cases (hv : t.plan.Valid) (ty : UInt8) (e g : UInt16) (tag : UInt32)
    (st : UInt16) (ex : UInt8) (size : Nat) (now now' : UInt32) :
    (isAnonymousEntry e g = true ∧
        plumbTimelineAddEntryFinalize t ty e g tag st ex size now now' = .refuse .anonymousId t) ∨
      (isAnonymousEntry e g = false ∧ (∀ s, ¬t.plan.Reserves s e g) ∧
        plumbTimelineAddEntryFinalize t ty e g tag st ex size now now' =
          .refuse (finalizeStatus ty tag ex size now none) t ∧
        finalizeStatus ty tag ex size now none ≠ .success) ∨
      (isAnonymousEntry e g = false ∧ ∃ s < maxCommandEntries, t.plan.Reserves s e g ∧
        plumbTimelineAddEntryFinalize t ty e g tag st ex size now now' =
          let status := finalizeStatus ty tag ex size now (some (t.entry s).command)
          if status = .success then
            ⟨.success,
              t.commit s ((t.entry s).finalize (absTimeTag ty tag now') st ex size),
              [.committed s]⟩
          else .refuse status t) := by
  cases hid : isAnonymousEntry e g with
  | true => simp [plumbTimelineAddEntryFinalize, hid]
  | false =>
    refine Or.inr ?_
    rcases findReservedSlot_cases t hid with ⟨hf, hno⟩ | ⟨hf, hh⟩
    · refine Or.inl ⟨rfl, hno, ?_⟩
      simp only [plumbTimelineAddEntryFinalize, hid, hf, finalizeStatus, Bool.false_eq_true,
        if_false]
      split
      · simp
      · split <;> simp
    · generalize hs : findReservedSlot t e g = slot at hf hh
      have hold : (t.entry slot).status ≠ .pending := fun h => by
        rw [show (t.entry slot).status = .reserved from hh.1] at h
        exact absurd h (by simp)
      have hcount : t.count < maxCommandEntries := by simpa using hv.length_lt hf hold
      refine Or.inr ⟨rfl, slot, hf, hh, ?_⟩
      simp only [plumbTimelineAddEntryFinalize, hid, hs, Nat.ne_of_lt hf, finalizeStatus,
        commitSlot_eq hv.sorted hf hcount, Bool.false_eq_true, if_false]
      split
      · simp
      split
      · simp
      split
      · simp
      cases hstat : commitStatus ex (t.entry slot).command size <;>
        simp [TimelineEntry.finalize, absTimeTag]

/-- **`TTC_Plumb_TimelineDeleteReservedEntry`.** -/
theorem plumbDeleteReserved_cases (t : Timeline) (e g : UInt16) :
    (isAnonymousEntry e g = true ∧
        plumbTimelineDeleteReservedEntry t e g = .refuse .anonymousId t) ∨
      (isAnonymousEntry e g = false ∧ (∀ s, ¬t.plan.Reserves s e g) ∧
        plumbTimelineDeleteReservedEntry t e g = .refuse .entryNotFound t) ∨
      (isAnonymousEntry e g = false ∧ ∃ s < maxCommandEntries, t.plan.Reserves s e g ∧
        plumbTimelineDeleteReservedEntry t e g = ⟨.success, cancelSlot t s, []⟩) := by
  cases hid : isAnonymousEntry e g with
  | true => simp [plumbTimelineDeleteReservedEntry, hid]
  | false =>
    refine Or.inr ?_
    rcases findReservedSlot_cases t hid with ⟨hf, hno⟩ | ⟨hf, hh⟩
    · exact Or.inl ⟨rfl, hno, by simp [plumbTimelineDeleteReservedEntry, hid, hf]⟩
    · generalize hs : findReservedSlot t e g = slot at hf hh
      refine Or.inr ⟨rfl, slot, hf, hh, ?_⟩
      simp [plumbTimelineDeleteReservedEntry, hid, hs, Nat.ne_of_lt hf]

end Ttc
end FlightApps
