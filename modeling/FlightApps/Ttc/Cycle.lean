import FlightApps.Ttc.Runs

/-!
# What `TTC_ProcessTimeline` does with the agenda

The loop of `TTC_ProcessTimeline` deletes from the index it is scanning.  `cycle` is the same walk
over the agenda with nothing but the verdicts on the entries, and `processLoop_cycle` says that the
loop does what the walk says: which entries are sent, which are skipped, which are aborted.

`processing_cycle` then describes the whole call without any walk: the entries that are due, cut at
the first one that is stale and of type `ABORT_LATE`.
-/

set_option autoImplicit false

namespace FlightApps
namespace Ttc

open StableQueue

variable {t : Timeline} {p : Plan}

/-- The packets transmitted, with the slots they came from. -/
def transmitted (es : List Effect) : List (Nat × Command) :=
  es.filterMap fun
    | .transmit slot packet => some (slot, packet)
    | _ => none

theorem transmitted_append (es es' : List Effect) :
    transmitted (es ++ es') = transmitted es ++ transmitted es' := List.filterMap_append

/-! ## The walk -/

/-- What becomes of the entries of an agenda. -/
structure Cycle where
  /-- Those sent, in order. -/
  sent : List Nat
  /-- Those skipped. -/
  skipped : List Nat
  /-- Those aborted. -/
  aborted : List Nat
  /-- Those that stay. -/
  kept : List Nat

/-- All that leave the agenda. -/
def Cycle.gone (c : Cycle) : List Nat := c.sent ++ c.skipped ++ c.aborted

/-- The walk over an agenda at a given time. -/
def cycle (now : UInt32) (entry : Nat → TimelineEntry) : List Nat → Cycle
  | [] => ⟨[], [], [], []⟩
  | slot :: rest =>
    match verdict now (entry slot) with
    | .wait => ⟨[], [], [], slot :: rest⟩
    | .send => { cycle now entry rest with sent := slot :: (cycle now entry rest).sent }
    | .skip => { cycle now entry rest with skipped := slot :: (cycle now entry rest).skipped }
    | .abort => ⟨[], [], slot :: rest, []⟩

theorem cycle_congr {now : UInt32} {entry entry' : Nat → TimelineEntry} {slots : List Nat}
    (h : ∀ s ∈ slots, entry' s = entry s) : cycle now entry' slots = cycle now entry slots := by
  induction slots with
  | nil => rfl
  | cons slot rest ih =>
    rw [cycle, cycle, h slot (by simp), ih fun s hs => h s (List.mem_cons_of_mem _ hs)]

theorem cycle_sent_sublist (now : UInt32) (entry : Nat → TimelineEntry) (slots : List Nat) :
    (cycle now entry slots).sent.Sublist slots := by
  induction slots with
  | nil => exact .refl _
  | cons slot rest ih =>
    rw [cycle]
    split
    · exact List.nil_sublist _
    · exact ih.cons_cons slot
    · exact ih.cons slot
    · exact List.nil_sublist _

theorem mem_gone_cons {now : UInt32} {entry : Nat → TimelineEntry} {slot : Nat} {rest : List Nat}
    (h : verdict now (entry slot) = .send ∨ verdict now (entry slot) = .skip) (s : Nat) :
    s ∈ (cycle now entry (slot :: rest)).gone ↔ s = slot ∨ s ∈ (cycle now entry rest).gone := by
  rcases h with h | h
  · simp only [cycle, h, Cycle.gone, List.cons_append, List.mem_cons]
  · simp only [cycle, h, Cycle.gone, List.mem_append, List.mem_cons]
    tauto

/-- What does not go stays, in its order. -/
theorem cycle_kept (now : UInt32) (entry : Nat → TimelineEntry) {slots : List Nat}
    (hn : slots.Nodup) :
    (slots.filter fun s => decide (s ∉ (cycle now entry slots).gone)) =
      (cycle now entry slots).kept := by
  induction slots with
  | nil => rfl
  | cons slot rest ih =>
    rw [List.nodup_cons] at hn
    have hgo : (verdict now (entry slot) = .send ∨ verdict now (entry slot) = .skip) →
        ((slot :: rest).filter fun s => decide (s ∉ (cycle now entry (slot :: rest)).gone)) =
          (cycle now entry rest).kept := fun h => by
      rw [List.filter_cons_of_neg (by simp [mem_gone_cons h]), ← ih hn.2]
      refine List.filter_congr fun s hs => ?_
      have hne : s ≠ slot := fun he => hn.1 (he ▸ hs)
      simp [mem_gone_cons h, hne]
    cases hver : verdict now (entry slot) with
    | wait => simp [cycle, hver, Cycle.gone]
    | send => rw [hgo (Or.inl hver), cycle, hver]
    | skip => rw [hgo (Or.inr hver), cycle, hver]
    | abort =>
      refine (List.filter_eq_nil_iff.2 fun s hs => ?_).trans (by rw [cycle, hver])
      have hmem : s ∈ (cycle now entry (slot :: rest)).gone := by
        rw [cycle, hver]
        exact hs
      simp [hmem]

/-- Clearing slots does not depend on the order they are listed in. -/
theorem Plan.removeAll_congr {l l' : List Nat} (h : ∀ s, s ∈ l ↔ s ∈ l') :
    p.removeAll l = p.removeAll l' := by
  simp only [Plan.removeAll, h]

/-- What a cycle makes of the plan. -/
def Plan.cycled (p : Plan) (now : UInt32) : Plan :=
  let c := cycle now p.entry p.agenda
  (p.removeAll c.gone).tally c.sent.length c.skipped.length c.aborted.length

/-- The packets a cycle sends, with their slots. -/
def Plan.packets (p : Plan) (now : UInt32) : List (Nat × Command) :=
  (cycle now p.entry p.agenda).sent.map fun s => (s, (p.entry s).command)

theorem Plan.cycled_of_nil (h : p.agenda = []) (now : UInt32) :
    p.cycled now = p ∧ p.packets now = [] := by
  simp [Plan.cycled, Plan.packets, h, cycle, Cycle.gone]

/-- The walk stops at an entry that is not due. -/
theorem Plan.cycled_of_wait {now : UInt32} {slot : Nat} {rest : List Nat}
    (hag : p.agenda = slot :: rest) (h : verdict now (p.entry slot) = .wait) :
    p.cycled now = p ∧ p.packets now = [] := by
  simp [Plan.cycled, Plan.packets, hag, cycle, h, Cycle.gone]

/-- Otherwise it goes on with what the round has left. -/
theorem Plan.Valid.cycled_of_go (hv : p.Valid) {now : UInt32} {slot : Nat} {rest : List Nat}
    (hag : p.agenda = slot :: rest) (h : verdict now (p.entry slot) ≠ .wait) :
    (p.processed now slot).cycled now = p.cycled now ∧
      transmitted (p.processEffects now slot) ++ (p.processed now slot).packets now =
        p.packets now := by
  have hrest : (p.remove slot).agenda = rest := hv.remove_agenda (A := []) hag
  have hsame : ∀ s ∈ rest, (p.remove slot).entry s = p.entry s := fun s hs => by
    rw [Plan.remove_entry, if_neg (hv.ne_of_tail (A := []) hag hs)]
  have hcycle : cycle now (p.remove slot).entry rest = cycle now p.entry rest := cycle_congr hsame
  have hpackets :
      (cycle now p.entry rest).sent.map (fun s => (s, ((p.remove slot).entry s).command))
      = (cycle now p.entry rest).sent.map fun s => (s, (p.entry s).command) :=
    List.map_congr_left fun s hs => by rw [hsame s ((cycle_sent_sublist _ _ _).subset hs)]
  cases hver : verdict now (p.entry slot) with
  | wait => exact absurd hver h
  | send =>
    simp only [Plan.cycled, Plan.packets, Plan.processed, Plan.processEffects, hver, hag,
      Plan.tally_entry, Plan.tally_agenda, hrest, hcycle, hpackets, cycle, Plan.removeAll_tally,
      Plan.tally_tally, Cycle.gone, List.cons_append, Plan.removeAll_cons hv.nodup,
      List.length_cons, Nat.zero_add, Nat.add_comm 1]
    exact ⟨trivial, rfl⟩
  | skip =>
    have hperm : p.removeAll ((cycle now p.entry rest).sent ++
          slot :: (cycle now p.entry rest).skipped ++ (cycle now p.entry rest).aborted) =
        (p.remove slot).removeAll (cycle now p.entry rest).gone := by
      rw [← Plan.removeAll_cons hv.nodup]
      exact Plan.removeAll_congr fun s => by simp [Cycle.gone]; tauto
    simp only [Plan.cycled, Plan.packets, Plan.processed, Plan.processEffects, hver, hag,
      Plan.tally_entry, Plan.tally_agenda, hrest, hcycle, hpackets, cycle, Plan.removeAll_tally,
      Plan.tally_tally, List.length_cons, Nat.zero_add, Nat.add_comm 1]
    exact ⟨by rw [← hperm, Cycle.gone], rfl⟩
  | abort =>
    have hnil : (p.processed now slot).agenda = [] := by
      rw [Plan.processed, hver]
      exact p.removeAll_agenda
    obtain ⟨h1, h2⟩ := Plan.cycled_of_nil hnil now
    rw [h1, h2]
    have hquiet : ∀ l : List Nat, transmitted (l.map fun s => .left s .aborted) = [] := fun l => by
      simp [transmitted, List.filterMap_map]
    simp only [Plan.cycled, Plan.packets, Plan.processed, Plan.processEffects, hver, hag, cycle,
      Cycle.gone, List.nil_append, List.append_nil, List.length_nil]
    exact ⟨trivial, hquiet (slot :: rest)⟩

/-- **The loop does what the walk says.** -/
theorem processLoop_cycle (now later : UInt32) (fuel : Nat) :
    ∀ {t : Timeline}, t.plan.Valid → t.count ≤ fuel →
      (processLoop now later fuel t).1.plan = t.plan.cycled now ∧
        transmitted (processLoop now later fuel t).2 = t.plan.packets now := by
  induction fuel with
  | zero =>
    intro t _ hf
    have hnil : t.plan.agenda = [] :=
      List.eq_nil_of_length_eq_zero (by rw [plan_agenda, t.length_agenda]; omega)
    obtain ⟨h1, h2⟩ := Plan.cycled_of_nil hnil now
    exact ⟨h1.symm, h2.symm⟩
  | succ fuel ih =>
    intro t hv hf
    rw [processLoop]
    cases hag : t.agenda with
    | nil =>
      have hzero : t.count = 0 := by rw [← t.length_agenda, hag, List.length_nil]
      obtain ⟨h1, h2⟩ := Plan.cycled_of_nil (p := t.plan) hag now
      rw [if_neg (by omega), h1, h2]
      exact ⟨rfl, rfl⟩
    | cons slot rest =>
      have hpos : t.count > 0 := by rw [← t.length_agenda, hag, List.length_cons]; omega
      obtain ⟨hp, he, hgo, hlt⟩ := processNext_spec hv hag now later
      have hv' : (processNext now later t).1.plan.Valid := by
        rw [hp]
        exact hv.processed now slot
      rw [if_pos hpos]
      generalize processNext now later t = r at hp he hgo hlt hv'
      obtain ⟨t', es, go⟩ := r
      simp only at hp he hgo hlt hv'
      cases go with
      | false =>
        have hwait : verdict now (t.plan.entry slot) = .wait := hgo.1 rfl
        obtain ⟨h1, h2⟩ := Plan.cycled_of_wait (p := t.plan) hag hwait
        rw [h1, h2]
        simp only [hp, he, Plan.processed, Plan.processEffects, hwait]
        exact ⟨trivial, rfl⟩
      | true =>
        have hne : verdict now (t.plan.entry slot) ≠ .wait := fun h => by simpa using hgo.2 h
        obtain ⟨h1, h2⟩ := hv.cycled_of_go hag hne
        obtain ⟨h3, h4⟩ := ih hv' (by have := hlt rfl; omega)
        rw [hp] at h3 h4
        refine ⟨h3.trans h1, ?_⟩
        rw [← h2, ← h4, ← he]
        exact transmitted_append es _

/-! ## The cycle without the walk -/

/-- The entry is no later than its threshold allows. -/
def fresh (now : UInt32) (e : TimelineEntry) : Bool :=
  decide (now.toNat - e.timeTag.toNat ≤ e.stalenessThreshold.toNat)

/-- The entry is sent when it is due: it is fresh, or of type `FORCE`. -/
def sends (now : UInt32) (e : TimelineEntry) : Bool :=
  fresh now e || e.executionType == exectypeForce

/-- The entry is skipped when it is due: it is stale and of type `SKIP_LATE`. -/
def skips (now : UInt32) (e : TimelineEntry) : Bool :=
  !fresh now e && e.executionType == exectypeSkipLate

/-- The entry aborts the timeline when it is due: it is stale and of type `ABORT_LATE`. -/
def aborts (now : UInt32) (e : TimelineEntry) : Bool :=
  !fresh now e && e.executionType == exectypeAbortLate

/-- For an entry that is due the 32-bit subtraction does not wrap. -/
theorem isStale_eq {now : UInt32} {e : TimelineEntry} (h : e.timeTag ≤ now) :
    isStale now e = !fresh now e := by
  have hlt : (now - e.timeTag > e.stalenessThreshold.toUInt32) ↔
      ¬now.toNat - e.timeTag.toNat ≤ e.stalenessThreshold.toNat := by
    rw [gt_iff_lt, UInt32.lt_iff_toNat_lt, UInt32.toNat_sub_of_le _ _ h, UInt16.toNat_toUInt32]
    omega
  simp only [isStale, fresh, hlt, decide_not]

/-- The verdict on an entry that is due. -/
theorem verdict_of_due {now : UInt32} {e : TimelineEntry} (h : e.timeTag ≤ now)
    (hex : validExecType e.executionType) :
    verdict now e = if aborts now e then .abort else if sends now e then .send else .skip := by
  have hnot : ¬now < e.timeTag := by grind
  rw [verdict, if_neg hnot, isStale_eq h, aborts, sends]
  cases fresh now e with
  | true => simp
  | false => rcases hex with hex | hex | hex <;> simp [hex] <;> decide

/-- Of the three things that can happen to an entry that is due, one does. -/
theorem skips_eq {now : UInt32} {e : TimelineEntry} (hex : validExecType e.executionType)
    (h : aborts now e = false) : skips now e = !sends now e := by
  rw [skips, sends]
  rw [aborts] at h
  cases hf : fresh now e with
  | true => simp
  | false =>
    rcases hex with hex | hex | hex
    · simp [hex]; decide
    · simp [hex]; decide
    · simp [hf, hex] at h

/-- The entries of an agenda that are due before the first one that aborts. -/
def untilAbort (now : UInt32) (entry : Nat → TimelineEntry) (due : List Nat) : List Nat :=
  due.takeWhile fun s => !aborts now (entry s)

/-- The walk over an agenda cut into what is due and what is not. -/
theorem cycle_append {now : UInt32} {entry : Nat → TimelineEntry} {later : List Nat}
    (hlater : ∀ s ∈ later, now < (entry s).timeTag) (due : List Nat)
    (hdue : ∀ s ∈ due, (entry s).timeTag ≤ now ∧ validExecType (entry s).executionType) :
    cycle now entry (due ++ later) =
      { sent := (untilAbort now entry due).filter fun s => sends now (entry s)
        skipped := (untilAbort now entry due).filter fun s => skips now (entry s)
        aborted := if due.any fun s => aborts now (entry s) then
          (due ++ later).drop (untilAbort now entry due).length else []
        kept := if due.any fun s => aborts now (entry s) then [] else later } := by
  induction due with
  | nil =>
    cases later with
    | nil => rfl
    | cons slot rest => simp [cycle, verdict, hlater slot (by simp), untilAbort]
  | cons slot due ih =>
    obtain ⟨hd, hex⟩ := hdue slot (by simp)
    have ih' := ih fun s hs => hdue s (List.mem_cons_of_mem _ hs)
    rw [List.cons_append, cycle, verdict_of_due hd hex, ih']
    cases hab : aborts now (entry slot) with
    | true => simp [untilAbort, hab]
    | false =>
      have hsk := skips_eq hex hab
      cases hse : sends now (entry slot) with
      | true => simp [untilAbort, hab, hse, hsk]
      | false => simp [untilAbort, hab, hse, hsk]

/-- An agenda in order is cut into what is due and what is not. -/
theorem Plan.Valid.due_append (hv : p.Valid) (now : UInt32) :
    (p.agenda.filter fun s => decide ((p.entry s).timeTag ≤ now)) ++
      (p.agenda.filter fun s => decide (now < (p.entry s).timeTag)) = p.agenda := by
  have hle : (fun s => decide ((p.entry s).timeTag ≤ now)) =
      fun s => !decide (now < (p.entry s).timeTag) := by
    funext s
    rw [← decide_not]
    congr 1
    exact propext (by grind)
  rw [hle]
  exact filter_append_filter (hv.sorted.imp fun hab h => by grind)

/-- The pending entries that are due, in the order of the agenda. -/
def Plan.due (p : Plan) (now : UInt32) : List Nat :=
  p.agenda.filter fun s => decide ((p.entry s).timeTag ≤ now)

theorem Plan.Valid.of_mem_due (hv : p.Valid) {now : UInt32} {s : Nat} (hs : s ∈ p.due now) :
    (p.entry s).timeTag ≤ now ∧ validExecType (p.entry s).executionType := by
  obtain ⟨hmem, hle⟩ := List.mem_filter.1 hs
  exact ⟨of_decide_eq_true hle, (hv.wellSized s ((hv.mem s).1 hmem)).execType⟩

/-- The walk over the agenda of a valid plan. -/
theorem Plan.Valid.cycle_eq (hv : p.Valid) (now : UInt32) :
    cycle now p.entry p.agenda =
      { sent := (untilAbort now p.entry (p.due now)).filter fun s => sends now (p.entry s)
        skipped := (untilAbort now p.entry (p.due now)).filter fun s => skips now (p.entry s)
        aborted := if (p.due now).any fun s => aborts now (p.entry s) then
          p.agenda.drop (untilAbort now p.entry (p.due now)).length else []
        kept := if (p.due now).any fun s => aborts now (p.entry s) then []
          else p.agenda.filter fun s => decide (now < (p.entry s).timeTag) } := by
  have hlater : ∀ s ∈ p.agenda.filter (fun s => decide (now < (p.entry s).timeTag)),
      now < (p.entry s).timeTag := fun s hs => of_decide_eq_true (List.mem_filter.1 hs).2
  have h := cycle_append hlater (p.due now) fun s hs => hv.of_mem_due hs
  rwa [Plan.due, hv.due_append now] at h

/-- The cycle context after the head of `TTC_ProcessTimeline`: the counters are reset and the clock
is compared with that of the previous cycle.  -/
def headContext (c : CycleContext) (now : UInt32) : CycleContext where
  previousTime := c.previousTime
  executed := 0
  skipped := 0
  aborted := 0
  processingErrors := 0
  forwardJumpDetected := decide (now > c.previousTime + 1)
  backwardJumpDetected := decide (now < c.previousTime)

theorem detectTimeJump_spec (t : Timeline) (now : UInt32) :
    (detectTimeJump (initCycleContext t) now).1.plan =
        { t.plan with context := headContext t.cycleContext now } ∧
      transmitted (detectTimeJump (initCycleContext t) now).2 = [] := by
  constructor
  · refine Plan.ext rfl rfl rfl ?_
    show CycleContext.mk _ _ _ _ _ _ _ = CycleContext.mk _ _ _ _ _ _ _
    congr 1
    · exact Bool.or_false _
    · exact Bool.or_false _
  · rw [detectTimeJump]
    dsimp only
    rw [transmitted_append]
    split <;> split <;> rfl

/-- What `TTC_ProcessTimeline` makes of the plan. -/
def Plan.afterCycle (p : Plan) (now : UInt32) : Plan :=
  let head := { p with context := headContext p.context now }
  let q := if p.paused then head else head.cycled now
  { q with context := { q.context with previousTime := now } }

/-- **`TTC_ProcessTimeline`.** -/
theorem plan_processTimeline (hv : t.plan.Valid) (now later : UInt32) :
    (processTimeline t now later).timeline.plan = t.plan.afterCycle now ∧
      transmitted (processTimeline t now later).effects =
        if t.executionPaused then [] else t.plan.packets now := by
  obtain ⟨hhead, hquiet⟩ := detectTimeJump_spec t now
  have hv' : (detectTimeJump (initCycleContext t) now).1.plan.Valid := { hv with noErrors := rfl }
  unfold processTimeline
  generalize detectTimeJump (initCycleContext t) now = j at hhead hquiet hv'
  obtain ⟨t', jumps⟩ := j
  simp only at hhead hquiet hv'
  have hflag : t'.executionPaused = t.executionPaused := congrArg Plan.paused hhead
  obtain ⟨hp, hs⟩ := processLoop_cycle now later t'.count hv' (Nat.le_refl _)
  rw [hhead] at hp hs
  by_cases hpause : t.executionPaused = true
  · simp only [hflag, Plan.afterCycle, plan_paused, plan_context, hpause, if_true]
    have hctx : t'.cycleContext = headContext t.cycleContext now := congrArg Plan.context hhead
    exact ⟨by simp [hhead, hctx, hpause], by simpa using hquiet⟩
  · rw [Bool.not_eq_true] at hpause
    simp only [hflag, Plan.afterCycle, plan_paused, plan_context, hpause, Bool.false_eq_true,
      if_false] at hp hs ⊢
    generalize processLoop now later t'.count t' = l at hp hs
    obtain ⟨t'', es⟩ := l
    simp only at hp hs
    refine ⟨?_, by rw [transmitted_append, hquiet, hs]; rfl⟩
    have hctx : t''.cycleContext = _ := congrArg Plan.context hp
    simp [hp, hctx]

/-- A cycle that is not paused, in terms of the walk. -/
theorem processTimeline_cycle (hv : t.plan.Valid) (hrun : t.executionPaused = false)
    (now later : UInt32) :
    let r := processTimeline t now later
    let c := cycle now t.entry t.agenda
    transmitted r.effects = c.sent.map (fun s => (s, (t.entry s).command)) ∧
      r.timeline.agenda = c.kept ∧
      (∀ s, r.timeline.entry s = if s ∈ c.gone then default else t.entry s) ∧
      r.timeline.cycleContext.executed = UInt16.ofNat c.sent.length ∧
      r.timeline.cycleContext.skipped = UInt16.ofNat c.skipped.length ∧
      r.timeline.cycleContext.aborted = UInt16.ofNat c.aborted.length := by
  obtain ⟨hp, hs⟩ := plan_processTimeline hv now later
  rw [hrun] at hs
  simp only [Plan.afterCycle, plan_paused, hrun, Bool.false_eq_true, if_false, Plan.cycled] at hp
  intro r c
  have hctx : r.timeline.cycleContext = _ := congrArg Plan.context hp
  refine ⟨hs, ?_, fun s => congrFun (congrArg Plan.entry hp) s, ?_, ?_, ?_⟩
  · have hkept := cycle_kept now t.entry hv.nodup
    rw [plan_agenda] at hkept
    exact (congrArg Plan.agenda hp).trans hkept
  · simp [hctx, Plan.tally, CycleContext.tally, Plan.removeAll, headContext, c]
  · simp [hctx, Plan.tally, CycleContext.tally, Plan.removeAll, headContext, c]
  · simp [hctx, Plan.tally, CycleContext.tally, Plan.removeAll, headContext, c]

/-- A cycle that is paused. -/
theorem processTimeline_paused (hv : t.plan.Valid) (hpause : t.executionPaused = true)
    (now later : UInt32) :
    let r := processTimeline t now later
    transmitted r.effects = [] ∧ r.timeline.entry = t.entry ∧ r.timeline.agenda = t.agenda := by
  obtain ⟨hp, hs⟩ := plan_processTimeline hv now later
  rw [hpause] at hs
  simp only [Plan.afterCycle, plan_paused, hpause, if_true] at hp
  exact ⟨hs, congrArg Plan.entry hp, congrArg Plan.agenda hp⟩

/-- **The processing cycle.**  In every reachable state, let `due` be the pending entries due at
`now`, in the order of the agenda, and `before` those ahead of the first stale `ABORT_LATE` entry.
When not paused the call sends and removes the entries of `before` that are fresh or `FORCE`,
removes the stale `SKIP_LATE` ones unsent, and then, if there is an entry that aborts, clears
everything left on the agenda; otherwise exactly the entries not yet due stay, in their order.  When
paused it sends nothing and changes no entry.  -/
theorem processing_cycle (start : UInt32) (ops : List Op) (now later : UInt32) :
    let t := (ttc.run (timelineInitialize start) ops).timeline
    let r := processTimeline t now later
    let due := t.agenda.filter fun s => decide ((t.entry s).timeTag ≤ now)
    let before := due.takeWhile fun s => !aborts now (t.entry s)
    let sent := before.filter fun s => sends now (t.entry s)
    let skipped := before.filter fun s => skips now (t.entry s)
    let stop := due.any fun s => aborts now (t.entry s)
    let aborted := if stop then t.agenda.drop before.length else []
    (t.executionPaused = false →
      transmitted r.effects = sent.map (fun s => (s, (t.entry s).command)) ∧
        r.timeline.agenda =
          (if stop then [] else t.agenda.filter fun s => decide (now < (t.entry s).timeTag)) ∧
        (∀ s, r.timeline.entry s =
          if s ∈ sent ∨ s ∈ skipped ∨ s ∈ aborted then default else t.entry s) ∧
        (∀ s ∈ before, s ∈ sent ∧ s ∉ skipped ∨ s ∉ sent ∧ s ∈ skipped) ∧
        (∀ s, (t.entry s).status = .reserved → r.timeline.entry s = t.entry s) ∧
        (∀ s packet, (s, packet) ∈ transmitted r.effects → (t.entry s).timeTag ≤ now) ∧
        r.timeline.cycleContext.executed.toNat = sent.length ∧
        r.timeline.cycleContext.skipped.toNat = skipped.length ∧
        r.timeline.cycleContext.aborted.toNat = aborted.length) ∧
      (t.executionPaused = true →
        transmitted r.effects = [] ∧ r.timeline.entry = t.entry ∧
        r.timeline.agenda = t.agenda) := by
  intro t r due before sent skipped stop aborted
  have hv : t.plan.Valid := valid_run start ops
  have hdue : ∀ s ∈ due, (t.entry s).timeTag ≤ now ∧ validExecType (t.entry s).executionType :=
    fun s hs => hv.of_mem_due hs
  have hcyc := hv.cycle_eq now
  rw [plan_agenda, plan_entry] at hcyc
  have hbefore : ∀ s ∈ before, s ∈ due := fun s hs => List.takeWhile_subset _ hs
  refine ⟨fun hrun => ?_, fun hpause => ?_⟩
  · obtain ⟨hsent, hkept, hentry, h1, h2, h3⟩ := processTimeline_cycle hv hrun now later
    rw [hcyc] at hsent hkept hentry h1 h2 h3
    -- no list is longer than the agenda, so the 16-bit counters do not wrap
    have hlen : t.agenda.length ≤ maxCommandEntries := hv.length_le
    have hb : before.length ≤ t.agenda.length :=
      Nat.le_trans (List.takeWhile_sublist _).length_le (List.length_filter_le _ _)
    have hcount : ∀ l : List Nat, l.length ≤ t.agenda.length →
        (UInt16.ofNat l.length).toNat = l.length := fun l hl => by
      rw [UInt16.toNat_ofNat']
      exact Nat.mod_eq_of_lt (by unfold maxCommandEntries at hlen; omega)
    have hentry' : ∀ s, r.timeline.entry s =
        if s ∈ sent ∨ s ∈ skipped ∨ s ∈ aborted then default else t.entry s := fun s => by
      rw [hentry s]
      refine if_congr ?_ rfl rfl
      simp only [Cycle.gone, List.mem_append, or_assoc]
      exact Iff.rfl
    refine ⟨hsent, hkept, hentry', fun s hs => ?_, fun s hs => ?_, fun s packet hs => ?_,
      ?_, ?_, ?_⟩
    · have hno : aborts now (t.entry s) = false := by
        simpa using List.all_eq_true.1 List.all_takeWhile s hs
      have hsk := skips_eq (hdue s (hbefore s hs)).2 hno
      cases hse : sends now (t.entry s) <;> simp [sent, skipped, hs, hse, hsk]
    · have hnot : s ∉ t.agenda := fun hm => by
        have hpend : (t.entry s).status = .pending := (hv.mem s).1 hm
        rw [hpend] at hs
        exact absurd hs (by simp)
      rw [hentry' s, if_neg]
      rintro (hm | hm | hm)
      · exact hnot (List.mem_of_mem_filter (hbefore s (List.mem_of_mem_filter hm)))
      · exact hnot (List.mem_of_mem_filter (hbefore s (List.mem_of_mem_filter hm)))
      · simp only [aborted] at hm
        split at hm
        · exact hnot (List.mem_of_mem_drop hm)
        · exact absurd hm (by simp)
    · rw [hsent] at hs
      obtain ⟨s', hs', heq⟩ := List.mem_map.1 hs
      obtain ⟨rfl, -⟩ := Prod.mk.inj heq
      exact (hdue s' (hbefore s' (List.mem_of_mem_filter hs'))).1
    · rw [h1]
      exact hcount sent (Nat.le_trans (List.length_filter_le _ _) hb)
    · rw [h2]
      exact hcount skipped (Nat.le_trans (List.length_filter_le _ _) hb)
    · rw [h3]
      refine hcount aborted ?_
      simp only [aborted]
      split
      · rw [List.length_drop]; omega
      · simp
  · exact processTimeline_paused hv hpause now later

end Ttc
end FlightApps
