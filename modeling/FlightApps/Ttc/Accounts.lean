import Mathlib.Algebra.Ring.Nat
import FlightApps.Ttc.Order
import FlightApps.Ttc.Plumbing

/-!
# What the housekeeping counts

`TTC_ProcessTimeline` starts by clearing the counters of the cycle context and ends by adding them to
the housekeeping, so whatever else has counted in between is lost on purpose.  The two time-jump
counters compare the clock with a baseline, which a cycle, paused or not, and a purge set to their
own reading.

`Accounts s ops` is what a list of calls should add to the housekeeping, read off the effects of the
cycles and the clock readings; `housekeeping_accounts` says that it does.
-/

set_option autoImplicit false

namespace FlightApps
namespace Ttc

variable {t : Timeline} {p : Plan}

/-! ## What leaves in a cycle -/

/-- The slots given up for one cause, in order. -/
def leavers (cause : Cause) (es : List Effect) : List Nat :=
  es.filterMap fun
    | .left slot c => if c = cause then some slot else none
    | _ => none

theorem leavers_append (cause : Cause) (es es' : List Effect) :
    leavers cause (es ++ es') = leavers cause es ++ leavers cause es' := List.filterMap_append

theorem leavers_left (cause : Cause) (slots : List Nat) :
    leavers cause (slots.map fun s => .left s cause) = slots := by
  simp [leavers, List.filterMap_map]

theorem leavers_left_ne {cause cause' : Cause} (h : cause' ≠ cause) (slots : List Nat) :
    leavers cause (slots.map fun s => .left s cause') = [] := by
  simp [leavers, List.filterMap_map, h]

/-- Of an agenda, some are sent, some skipped, some aborted, and some stay. -/
theorem length_cycle (now : UInt32) (entry : Nat → TimelineEntry) (slots : List Nat) :
    (cycle now entry slots).sent.length + (cycle now entry slots).skipped.length +
      (cycle now entry slots).aborted.length + (cycle now entry slots).kept.length =
        slots.length := by
  induction slots with
  | nil => simp [cycle]
  | cons slot rest ih =>
    rw [cycle]
    split
    · simp
    · simp only [List.length_cons]
      omega
    · simp only [List.length_cons]
      omega
    · simp

/-- One round of the loop reports what it skips or aborts, and leaves the rest to the others. -/
theorem Plan.Valid.leavers_of_go (hv : p.Valid) {now : UInt32} {slot : Nat} {rest : List Nat}
    (hag : p.agenda = slot :: rest) (h : verdict now (p.entry slot) ≠ .wait) :
    let after := p.processed now slot
    leavers .skipped (p.processEffects now slot) ++
          (cycle now after.entry after.agenda).skipped =
        (cycle now p.entry p.agenda).skipped ∧
      leavers .aborted (p.processEffects now slot) ++
          (cycle now after.entry after.agenda).aborted =
        (cycle now p.entry p.agenda).aborted := by
  have hrest : (p.remove slot).agenda = rest := hv.remove_agenda (A := []) hag
  have hcycle : cycle now (p.remove slot).entry rest = cycle now p.entry rest :=
    cycle_congr fun s hs => by
      rw [Plan.remove_entry, if_neg (hv.ne_of_tail (A := []) hag hs)]
  cases hver : verdict now (p.entry slot) with
  | wait => exact absurd hver h
  | send =>
    simp [Plan.processed, Plan.processEffects, hver, hag, hrest, hcycle, cycle, sendEffects,
      leavers]
  | skip =>
    simp [Plan.processed, Plan.processEffects, hver, hag, hrest, hcycle, cycle, leavers]
  | abort =>
    have hnil : (p.removeAll (slot :: rest)).agenda = [] := hag ▸ p.removeAll_agenda
    simp only [Plan.processed, Plan.processEffects, hver, hag, Plan.tally_agenda, hnil, cycle,
      List.append_nil]
    have hne : Cause.aborted ≠ .skipped := by simp
    exact ⟨leavers_left_ne hne (slot :: rest), leavers_left .aborted (slot :: rest)⟩

/-- **The loop reports what the walk says.** -/
theorem processLoop_leavers (now later : UInt32) (fuel : Nat) :
    ∀ {t : Timeline}, t.plan.Valid → t.count ≤ fuel →
      leavers .skipped (processLoop now later fuel t).2 = (cycle now t.entry t.agenda).skipped ∧
      leavers .aborted (processLoop now later fuel t).2 = (cycle now t.entry t.agenda).aborted := by
  induction fuel with
  | zero =>
    intro t _ hf
    have hnil : t.agenda = [] :=
      List.eq_nil_of_length_eq_zero (by rw [t.length_agenda]; omega)
    simp [processLoop, hnil, cycle, leavers]
  | succ fuel ih =>
    intro t hv hf
    rw [processLoop]
    cases hag : t.agenda with
    | nil =>
      have hzero : t.count = 0 := by rw [← t.length_agenda, hag, List.length_nil]
      simp [hzero, cycle, leavers]
    | cons slot rest =>
      have hpos : t.count > 0 := by rw [← t.length_agenda, hag, List.length_cons]; omega
      obtain ⟨hp, he, hgo, hlt⟩ := processNext_spec hv hag now later
      have hv' : (processNext now later t).1.plan.Valid := by
        rw [hp]
        exact hv.processed now slot
      rw [if_pos hpos]
      generalize processNext now later t = r at hp he hgo hlt hv'
      obtain ⟨t', es, go⟩ := r
      simp only at hp he hgo hlt hv'
      cases go with
      | false =>
        have hwait : verdict now (t.entry slot) = .wait := hgo.1 rfl
        simp [he, Plan.processEffects, hwait, cycle, leavers]
      | true =>
        have hne : verdict now (t.plan.entry slot) ≠ .wait := fun h => by simpa using hgo.2 h
        obtain ⟨h1, h2⟩ := hv.leavers_of_go hag hne
        obtain ⟨h3, h4⟩ := ih hv' (by have := hlt rfl; omega)
        rw [← hp, plan_agenda t, hag] at h1 h2
        simp only [leavers_append, h3, h4, he]
        exact ⟨h1, h2⟩

/-! ## One cycle -/

/-- The counters of the context after a cycle are those of what it has done. -/
structure Counted (t : Timeline) (now : UInt32) (r : Outcome) : Prop where
  executed : r.timeline.cycleContext.executed = UInt16.ofNat (transmitted r.effects).length
  skipped : r.timeline.cycleContext.skipped = UInt16.ofNat (leavers .skipped r.effects).length
  aborted : r.timeline.cycleContext.aborted = UInt16.ofNat (leavers .aborted r.effects).length
  forward : r.timeline.cycleContext.forwardJumpDetected =
    decide (now > t.cycleContext.previousTime + 1)
  backward : r.timeline.cycleContext.backwardJumpDetected =
    decide (now < t.cycleContext.previousTime)
  /-- No more than there are slots. -/
  bounded : (transmitted r.effects).length + (leavers .skipped r.effects).length +
    (leavers .aborted r.effects).length ≤ maxCommandEntries

theorem leavers_detectTimeJump (cause : Cause) (t : Timeline) (now : UInt32) :
    leavers cause (detectTimeJump t now).2 = [] := by
  rw [detectTimeJump]
  dsimp only
  rw [leavers_append]
  split <;> split <;> simp [leavers]

theorem processTimeline_leavers (hv : t.plan.Valid) (now later : UInt32) :
    leavers .skipped (processTimeline t now later).effects =
        (if t.executionPaused then [] else (cycle now t.entry t.agenda).skipped) ∧
      leavers .aborted (processTimeline t now later).effects =
        if t.executionPaused then [] else (cycle now t.entry t.agenda).aborted := by
  obtain ⟨hhead, -⟩ := detectTimeJump_spec t now
  have hquiet := fun cause => leavers_detectTimeJump cause (initCycleContext t) now
  have hv' : (detectTimeJump (initCycleContext t) now).1.plan.Valid := { hv with noErrors := rfl }
  unfold processTimeline
  generalize detectTimeJump (initCycleContext t) now = j at hhead hquiet hv'
  obtain ⟨t', jumps⟩ := j
  simp only at hhead hquiet hv'
  have hflag : t'.executionPaused = t.executionPaused := congrArg Plan.paused hhead
  have hentry : t'.entry = t.entry := congrArg Plan.entry hhead
  have hagenda : t'.agenda = t.agenda := congrArg Plan.agenda hhead
  obtain ⟨h1, h2⟩ := processLoop_leavers now later t'.count hv' (Nat.le_refl _)
  rw [hentry, hagenda] at h1 h2
  by_cases hpause : t.executionPaused = true
  · simp [hflag, hpause, hquiet]
  · rw [Bool.not_eq_true] at hpause
    simp only [hflag, hpause, Bool.false_eq_true, if_false, leavers_append, hquiet, h1, h2,
      List.nil_append, and_self]

/-- What a cycle does to the baseline, paused or not. -/
theorem Plan.afterCycle_clock (p : Plan) (now : UInt32) :
    (p.afterCycle now).context.forwardJumpDetected = decide (now > p.context.previousTime + 1) ∧
      (p.afterCycle now).context.backwardJumpDetected = decide (now < p.context.previousTime) ∧
      (p.afterCycle now).context.previousTime = now := by
  rw [Plan.afterCycle]
  split <;> exact ⟨rfl, rfl, rfl⟩

/-- **A cycle counts what it does.** -/
theorem processTimeline_counted (hv : t.plan.Valid) (now later : UInt32) :
    Counted t now (processTimeline t now later) := by
  obtain ⟨hp, hs⟩ := plan_processTimeline hv now later
  obtain ⟨h1, h2⟩ := processTimeline_leavers hv now later
  have hctx : (processTimeline t now later).timeline.cycleContext = _ := congrArg Plan.context hp
  obtain ⟨hforward, hbackward, -⟩ := t.plan.afterCycle_clock now
  rw [← hctx] at hforward hbackward
  refine ⟨?_, ?_, ?_, hforward, hbackward, ?_⟩ <;> simp only [hs, h1, h2]
  case refine_4 =>
    have hlen := length_cycle now t.entry t.agenda
    have hle : t.agenda.length ≤ maxCommandEntries := hv.length_le
    cases hpause : t.executionPaused with
    | true => simp
    | false =>
      simp only [Bool.false_eq_true, if_false, Plan.packets, List.length_map, plan_entry,
        plan_agenda]
      omega
  all_goals
    cases hpause : t.executionPaused <;>
      simp [hctx, Plan.afterCycle, hpause, headContext, Plan.cycled, Plan.packets, Plan.tally,
        CycleContext.tally, Plan.removeAll]

/-! ## The baseline -/

/-- The clock reading a call leaves as the baseline of the next comparison. -/
def Op.baseline : Op → Option UInt32
  | .processTimeline now _ => some now
  | .purgeTimeline now => some now
  | _ => none

theorem commit_cycleContext (t : Timeline) (slot : Nat) (e : TimelineEntry) :
    (t.commit slot e).cycleContext = t.cycleContext := by
  rw [Timeline.commit, insertSlotToSortedIndex]
  split
  · simp [Timeline.setEntry]
  · dsimp only
    split
    · simp [Timeline.setEntry]
    · exact (shiftUp_frame _ _ t).2.2.2

/-- **Only cycles and purges move the baseline.** -/
theorem previousTime_perform (hv : t.plan.Valid) (op : Op) :
    (perform t op).timeline.cycleContext.previousTime =
      op.baseline.getD t.cycleContext.previousTime := by
  have hsame : ∀ {r : Outcome} {status : Status}, r = .refuse status t →
      r.timeline.cycleContext.previousTime = t.cycleContext.previousTime := fun h => by
    rw [(Outcome.of_refuse h).1]
  have hplan : ∀ {r : Outcome}, r.timeline.plan.context.previousTime = t.cycleContext.previousTime →
      r.timeline.cycleContext.previousTime = t.cycleContext.previousTime := fun h => h
  cases op with
  | addEntry ty e g tag st ex data now =>
    rw [perform, timelineAddEntry_eq hv]
    dsimp only
    split
    · simp [commit_cycleContext, Op.baseline]
    · simp [Outcome.refuse, Op.baseline]
  | deleteEntry e g =>
    rcases timelineDeleteEntry_cases hv e g with ⟨-, h⟩ | ⟨-, -, h⟩ | ⟨-, s, -, -, -, -, hp⟩
    · exact hsame h
    · exact hsame h
    · exact hplan (by rw [perform, hp]; simp [Plan.remove])
  | deleteGroup g =>
    exact hplan (by rw [perform, (timelineDeleteGroup_spec hv g).2.1]; simp [Plan.removeAll])
  | deleteAllEntries =>
    exact hplan (by rw [perform, plan_timelineDeleteAllEntries hv]; simp [Plan.removeAll])
  | executeEntry e g persist =>
    rcases timelineExecuteEntry_cases hv e g persist with
      ⟨-, h⟩ | ⟨-, -, h⟩ | ⟨-, -, h⟩ | ⟨-, s, -, -, -, -, hp⟩
    · exact hsame h
    · exact hsame h
    · exact hsame h
    · refine hplan ?_
      rw [perform, hp]
      cases persist <;>
        simp [Plan.removeUnless, Plan.remove, Plan.tally, CycleContext.tally]
  | executeGroup g persist =>
    refine hplan ?_
    rw [perform, (timelineExecuteGroup_spec hv g persist).2.1]
    cases persist <;> simp [Plan.removeAllUnless, Plan.removeAll, Plan.tally, CycleContext.tally]
  | plumbInit e g =>
    rcases plumbInit_cases t e g with ⟨-, h⟩ | ⟨-, -, h⟩ | ⟨-, -, -, h⟩ | ⟨-, -, -, -, -, h⟩
    · exact hsame h
    · exact hsame h
    · exact hsame h
    · simp [perform, h, Timeline.setEntry, Op.baseline]
  | plumbWrite e g chunk offset =>
    rcases plumbWrite_cases t e g chunk offset with
      ⟨-, h⟩ | ⟨-, -, h⟩ | ⟨-, _, -, -, -, h⟩ | ⟨-, _, -, -, -, h⟩
    · exact hsame h
    · exact hsame h
    · exact hsame h
    · simp [perform, h, Timeline.setEntry, Op.baseline]
  | plumbFinalize ty e g tag st ex size now now' =>
    rcases plumbFinalize_cases hv ty e g tag st ex size now now' with
      ⟨-, h⟩ | ⟨-, -, h, -⟩ | ⟨-, s, -, -, h⟩
    · exact hsame h
    · exact hsame h
    · rw [perform, h]
      dsimp only
      split
      · simp [commit_cycleContext, Op.baseline]
      · simp [Outcome.refuse, Op.baseline]
  | plumbDeleteReserved e g =>
    rcases plumbDeleteReserved_cases t e g with ⟨-, h⟩ | ⟨-, -, h⟩ | ⟨-, _, -, -, h⟩
    · exact hsame h
    · exact hsame h
    · simp [perform, h, cancelSlot, Timeline.setEntry, Op.baseline]
  | processTimeline now later =>
    have hctx := congrArg Plan.context (plan_processTimeline hv now later).1
    exact (congrArg CycleContext.previousTime hctx).trans (t.plan.afterCycle_clock now).2.2
  | _ => rfl

/-! ## Runs -/

/-- The effects of the cycles of a run, without those of the other calls. -/
def cycleEffects (s : State) : List Op → List Effect
  | [] => []
  | op :: ops =>
    (if op.isProcess then (ttc.step s op).2.2 else []) ++ cycleEffects (ttc.step s op).1 ops

/-- The clock reading of a cycle. -/
def Op.cycleReading : Op → Option UInt32
  | .processTimeline now _ => some now
  | _ => none

/-- The clock readings of the cycles. -/
def cycleReadings (ops : List Op) : List UInt32 := ops.filterMap Op.cycleReading

/-- What the cycles compare: the baseline they find, with their own reading of the clock. -/
def comparisons (previous : UInt32) : List Op → List (UInt32 × UInt32)
  | [] => []
  | op :: ops =>
    (op.cycleReading.map fun now => (previous, now)).toList ++
      comparisons (op.baseline.getD previous) ops

/-- The counters of the housekeeping have grown by what these effects and comparisons come to. -/
structure Accounts (hk hk' : TimelineHousekeeping) (es : List Effect)
    (pairs : List (UInt32 × UInt32)) : Prop where
  executed : hk'.cmdExecuted = hk.cmdExecuted + UInt32.ofNat (transmitted es).length
  skipped : hk'.cmdSkipped = hk.cmdSkipped + UInt32.ofNat (leavers .skipped es).length
  aborted : hk'.cmdAborted = hk.cmdAborted + UInt32.ofNat (leavers .aborted es).length
  backward : hk'.backwardJumpDetectionCount =
    hk.backwardJumpDetectionCount + UInt32.ofNat (pairs.countP fun pair => decide (pair.2 < pair.1))
  forward : hk'.forwardJumpDetectionCount =
    hk.forwardJumpDetectionCount +
      UInt32.ofNat (pairs.countP fun pair => decide (pair.2 > pair.1 + 1))

theorem Accounts.refl (hk : TimelineHousekeeping) : Accounts hk hk [] [] := by
  constructor <;> simp [transmitted, leavers]

theorem Accounts.trans {hk hk' hk'' : TimelineHousekeeping} {es es' : List Effect}
    {pairs pairs' : List (UInt32 × UInt32)} (h : Accounts hk hk' es pairs)
    (h' : Accounts hk' hk'' es' pairs') : Accounts hk hk'' (es ++ es') (pairs ++ pairs') := by
  constructor
  · rw [h'.executed, h.executed, transmitted_append, List.length_append, UInt32.ofNat_add,
      UInt32.add_assoc]
  · rw [h'.skipped, h.skipped, leavers_append, List.length_append, UInt32.ofNat_add,
      UInt32.add_assoc]
  · rw [h'.aborted, h.aborted, leavers_append, List.length_append, UInt32.ofNat_add,
      UInt32.add_assoc]
  · rw [h'.backward, h.backward, List.countP_append, UInt32.ofNat_add, UInt32.add_assoc]
  · rw [h'.forward, h.forward, List.countP_append, UInt32.ofNat_add, UInt32.add_assoc]

/-- The counters of a cycle do not wrap before they are added. -/
theorem toUInt32_ofNat {n : Nat} (h : n ≤ maxCommandEntries) :
    (UInt16.ofNat n).toUInt32 = UInt32.ofNat n := by
  simp only [maxCommandEntries] at h
  refine UInt32.toNat_inj.1 ?_
  rw [UInt16.toNat_toUInt32, UInt16.toNat_ofNat', UInt32.toNat_ofNat']
  omega

/-- `UpdateTimelineHousekeeping` adds the counters of the cycle. -/
theorem updateTimelineHousekeeping_counters (t : Timeline) (hk : TimelineHousekeeping) :
    let hk' := updateTimelineHousekeeping t hk
    hk'.cmdExecuted = hk.cmdExecuted + t.cycleContext.executed.toUInt32 ∧
      hk'.cmdSkipped = hk.cmdSkipped + t.cycleContext.skipped.toUInt32 ∧
      hk'.cmdAborted = hk.cmdAborted + t.cycleContext.aborted.toUInt32 ∧
      hk'.backwardJumpDetectionCount = hk.backwardJumpDetectionCount +
        (if t.cycleContext.backwardJumpDetected then 1 else 0) ∧
      hk'.forwardJumpDetectionCount = hk.forwardJumpDetectionCount +
        if t.cycleContext.forwardJumpDetected then 1 else 0 := by
  intro hk'
  simp only [hk', updateTimelineHousekeeping]
  split <;> simp

theorem accounts_cycle {s : State} (hv : s.timeline.plan.Valid) (now later : UInt32) :
    Accounts s.hk (ttc.step s (.processTimeline now later)).1.hk
      (ttc.step s (.processTimeline now later)).2.2
      [(s.timeline.cycleContext.previousTime, now)] := by
  have hc := processTimeline_counted hv now later
  have hbounded := hc.bounded
  obtain ⟨h1, h2, h3, h4, h5⟩ := updateTimelineHousekeeping_counters
    (processTimeline s.timeline now later).timeline s.hk
  refine ⟨h1.trans ?_, h2.trans ?_, h3.trans ?_, h4.trans ?_, h5.trans ?_⟩
  · rw [hc.executed, toUInt32_ofNat (by omega)]
    rfl
  · rw [hc.skipped, toUInt32_ofNat (by omega)]
    rfl
  · rw [hc.aborted, toUInt32_ofNat (by omega)]
    rfl
  · rw [hc.backward, List.countP_singleton]
    split <;> simp
  · rw [hc.forward, List.countP_singleton]
    split <;> simp

/-- **The housekeeping counts what the cycles do**, whatever is called between them. -/
theorem accounts_run (ops : List Op) : ∀ {s : State}, s.timeline.plan.Valid →
    (∀ op ∈ ops, op ≠ .resetHousekeeping) →
      Accounts s.hk (ttc.run s ops).hk (cycleEffects s ops)
        (comparisons s.timeline.cycleContext.previousTime ops) := by
  induction ops with
  | nil => exact fun {s} _ _ => .refl s.hk
  | cons op ops ih =>
    intro s hv hreset
    have hrest := ih (valid_step hv op) fun op' hop => hreset op' (List.mem_cons_of_mem _ hop)
    have hprev : (ttc.step s op).1.timeline.cycleContext.previousTime = _ :=
      previousTime_perform hv op
    rw [hprev] at hrest
    refine Accounts.trans ?_ hrest
    cases op with
    | processTimeline now later => exact accounts_cycle hv now later
    | resetHousekeeping => exact absurd rfl (hreset _ List.mem_cons_self)
    | _ => exact .refl s.hk

/-- Without a purge the cycles compare the readings of successive cycles. -/
theorem comparisons_eq_zip (ops : List Op) :
    ∀ previous, (∀ op ∈ ops, ∀ now, op ≠ .purgeTimeline now) →
      comparisons previous ops = (previous :: cycleReadings ops).zip (cycleReadings ops) := by
  induction ops with
  | nil => simp [comparisons, cycleReadings]
  | cons op ops ih =>
    intro previous hpurge
    rw [comparisons, ih _ fun op' hop => hpurge op' (List.mem_cons_of_mem _ hop)]
    cases op with
    | processTimeline now later => simp [cycleReadings, Op.cycleReading, Op.baseline]
    | purgeTimeline now => exact absurd rfl (hpurge _ List.mem_cons_self now)
    | _ => simp [cycleReadings, Op.cycleReading, Op.baseline, List.filterMap_cons]

/-- As long as the baseline is not the last second, adding one to it does not wrap. -/
theorem forward_iff {previous current : UInt32} (h : previous ≠ 0xFFFFFFFF) :
    current > previous + 1 ↔ current.toNat > previous.toNat + 1 := by
  have hlt := UInt32.toNat_lt previous
  have hne : previous.toNat ≠ 4294967295 := fun heq => h (UInt32.toNat_inj.1 heq)
  rw [gt_iff_lt, UInt32.lt_iff_toNat_lt, UInt32.toNat_add]
  simp only [UInt32.reduceToNat]
  omega

/-- What the housekeeping says about the next entry after a cycle. -/
theorem updateTimelineHousekeeping_next (hv : t.plan.Valid) (hk : TimelineHousekeeping) :
    let hk' := updateTimelineHousekeeping t hk
    hk'.cmdPending = t.agenda.length ∧
      ((t.agenda = [] ∧ hk'.nextExecutionTime = timetagMax ∧ hk'.nextEntryId = 0 ∧
          hk'.nextEntryGroupId = 0) ∨
        ∃ slot rest, t.agenda = slot :: rest ∧
          hk'.nextExecutionTime = (t.entry slot).timeTag ∧
          hk'.nextEntryId = (t.entry slot).entryId ∧
          hk'.nextEntryGroupId = (t.entry slot).groupId) := by
  intro hk'
  simp only [hk', updateTimelineHousekeeping, t.length_agenda]
  cases hag : t.agenda with
  | nil =>
    have hnext := getNextSlot_of_nil hag
    rw [if_neg (by omega)]
    simp
  | cons slot rest =>
    have hlt : slot < maxCommandEntries := hv.lt_of_mem (by rw [plan_agenda, hag]; simp)
    rw [(getNextSlot_of_agenda hag).1, if_pos hlt]
    simp

/-- **The housekeeping over whole runs**, without a reset.  The three command counters are what the
cycles have transmitted, skipped and aborted, whatever else is called.  The jump counters compare
the reading of every cycle with its baseline, the reading of the cycle before it or of a purge or
the initialisation after that one; without a purge, these are the readings of successive cycles.
After a cycle the other fields describe the entry due next. -/
theorem housekeeping_accounts (start : UInt32) (ops : List Op)
    (hreset : ∀ op ∈ ops, op ≠ .resetHousekeeping) :
    let s := ttc.run (timelineInitialize start) ops
    let es := cycleEffects (timelineInitialize start) ops
    let pairs := comparisons start ops
    s.hk.cmdExecuted.toNat = (transmitted es).length % 2 ^ 32 ∧
      s.hk.cmdSkipped.toNat = (leavers .skipped es).length % 2 ^ 32 ∧
      s.hk.cmdAborted.toNat = (leavers .aborted es).length % 2 ^ 32 ∧
      s.hk.backwardJumpDetectionCount.toNat =
        (pairs.countP fun pair => decide (pair.2.toNat < pair.1.toNat)) % 2 ^ 32 ∧
      ((∀ pair ∈ pairs, pair.1 ≠ 0xFFFFFFFF) →
        s.hk.forwardJumpDetectionCount.toNat =
          (pairs.countP fun pair => decide (pair.2.toNat > pair.1.toNat + 1)) % 2 ^ 32) ∧
      ((∀ op ∈ ops, ∀ now, op ≠ .purgeTimeline now) →
        pairs = (start :: cycleReadings ops).zip (cycleReadings ops)) ∧
      ∀ now later,
        let s' := (ttc.step s (.processTimeline now later)).1
        let t' := s'.timeline
        (∀ slot, slot ∈ t'.agenda ↔ (t'.entry slot).status = .pending) ∧ t'.agenda.Nodup ∧
          (t'.agenda.Pairwise fun a b => (t'.entry a).timeTag ≤ (t'.entry b).timeTag) ∧
          s'.hk.cmdPending = t'.agenda.length ∧
          ((t'.agenda = [] ∧ s'.hk.nextExecutionTime = timetagMax ∧ s'.hk.nextEntryId = 0 ∧
              s'.hk.nextEntryGroupId = 0) ∨
            ∃ slot rest, t'.agenda = slot :: rest ∧
              s'.hk.nextExecutionTime = (t'.entry slot).timeTag ∧
              s'.hk.nextEntryId = (t'.entry slot).entryId ∧
              s'.hk.nextEntryGroupId = (t'.entry slot).groupId) := by
  intro s es pairs
  have hv : s.timeline.plan.Valid := valid_run start ops
  have h : Accounts default s.hk es pairs := accounts_run ops (valid_init start) hreset
  have hcount : ∀ {counter : UInt32} {n : Nat}, counter = 0 + UInt32.ofNat n →
      counter.toNat = n % 2 ^ 32 := fun hc => by
    rw [hc, UInt32.zero_add, UInt32.toNat_ofNat']
  refine ⟨hcount h.executed, hcount h.skipped, hcount h.aborted, ?_, fun hlast => ?_,
    comparisons_eq_zip ops start, fun now later => ?_⟩
  · simpa only [UInt32.lt_iff_toNat_lt] using hcount h.backward
  · rw [hcount h.forward]
    congr 1
    refine List.countP_congr fun pair hpair => ?_
    rw [decide_eq_true_iff, decide_eq_true_iff]
    exact forward_iff (hlast pair hpair)
  · intro s' t'
    have hv' : t'.plan.Valid := valid_step hv _
    obtain ⟨hpending, hnext⟩ := updateTimelineHousekeeping_next hv' s.hk
    exact ⟨hv'.mem, hv'.nodup, hv'.sorted, hpending, hnext⟩

/-- Two cycles with a purge between them, and a command executed from the ground. -/
theorem housekeeping_accounts_purge :
    let ops : List Op := [.addEntry 0 1 0 10 0 0 samplePacket 5, .executeEntry 1 0 true,
      .processTimeline 10 10, .purgeTimeline 20, .processTimeline 21 21]
    let s := ttc.run (timelineInitialize 9) ops
    s.hk.cmdExecuted.toNat = 1 ∧ s.hk.forwardJumpDetectionCount.toNat = 0 := by
  intro ops s
  obtain ⟨h1, -, -, -, h2, -⟩ := housekeeping_accounts 9 ops (by decide)
  have hsent : (transmitted (cycleEffects (timelineInitialize 9) ops)).length = 1 := by
    decide +kernel
  have hpairs : comparisons 9 ops = [(9, 10), (20, 21)] := by decide +kernel
  refine ⟨by simp [s, h1, hsent], ?_⟩
  rw [h2 (by simp [hpairs]), hpairs]
  simp

/-- **A purge hides a time jump.**  The cycles read 0 and 100, with a purge at 100 between them. -/
theorem purge_moves_baseline :
    let ops : List Op := [.processTimeline 0 0, .purgeTimeline 100, .processTimeline 100 100]
    let readings := cycleReadings ops
    (∀ op ∈ ops, op ≠ .resetHousekeeping) ∧
      (ttc.run (timelineInitialize 0) ops).hk.forwardJumpDetectionCount.toNat = 0 ∧
      ((readings.zip readings.tail).countP fun pair =>
        decide (pair.2.toNat > pair.1.toNat + 1)) = 1 := by
  decide +kernel

end Ttc
end FlightApps
