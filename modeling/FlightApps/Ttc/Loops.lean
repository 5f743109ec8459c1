import FlightApps.Ttc.Calls

/-!
# What the loops of the timeline compute

The calls that go through the whole index: the two group commands, the two ways of clearing every
pending entry, the purge, and the loop of `TTC_ProcessTimeline`.  The first two delete from the
index they are scanning, from its end down, which in terms of the agenda is a walk from the front;
what is left to do is then always a tail of the agenda, and that is what the inductions are on.

Of the processing loop this file has one round (`processNext_spec`) and that the rounds end
(`processLoop_eq`).  What a whole cycle does is in `FlightApps.Ttc.Cycle`.
-/

set_option autoImplicit false

namespace FlightApps
namespace Ttc

variable {t : Timeline}

/-! ## The agenda from its front -/

/-- Where the index has the first slot of a tail of the agenda. -/
theorem index_of_agenda {A B : List Nat} {slot : Nat} (h : t.agenda = A ++ slot :: B) :
    t.index B.length = slot := by
  have hlen : t.count = A.length + (B.length + 1) := by
    rw [← t.length_agenda, h, List.length_append, List.length_cons]
  have hget : t.agenda[A.length]? = some slot := by rw [h]; simp
  rw [Timeline.agenda, List.getElem?_reverse (by simp; omega)] at hget
  simp only [List.length_map, List.length_range] at hget
  rw [show t.count - 1 - A.length = B.length by omega] at hget
  simpa [show B.length < t.count by omega] using hget

theorem getNextSlot_of_agenda {slot : Nat} {rest : List Nat} (h : t.agenda = slot :: rest) :
    getNextSlot t = slot ∧ t.count = rest.length + 1 := by
  have hlen : t.count = rest.length + 1 := by rw [← t.length_agenda, h, List.length_cons]
  refine ⟨?_, hlen⟩
  rw [getNextSlot, if_neg (by omega), hlen, Nat.add_sub_cancel]
  exact index_of_agenda (A := []) h

theorem getNextSlot_of_nil (h : t.agenda = []) : getNextSlot t = maxCommandEntries := by
  have hlen : t.count = 0 := by rw [← t.length_agenda, h, List.length_nil]
  rw [getNextSlot, if_pos hlen]

/-- A slot struck off from the middle of the agenda. -/
theorem Plan.Valid.remove_agenda {p : Plan} (h : p.Valid) {A B : List Nat} {slot : Nat}
    (hA : p.agenda = A ++ slot :: B) : (p.remove slot).agenda = A ++ B := by
  have hn := h.nodup
  rw [hA, List.nodup_append] at hn
  have hnot : slot ∉ A := fun hm => hn.2.2 slot hm slot (by simp) rfl
  rw [Plan.remove, hA, List.erase_append_right _ hnot, List.erase_cons_head]

theorem Plan.Valid.ne_of_tail {p : Plan} (h : p.Valid) {A B : List Nat} {slot : Nat}
    (hA : p.agenda = A ++ slot :: B) {s : Nat} (hs : s ∈ B) : s ≠ slot := by
  have hn := h.nodup
  rw [hA, List.nodup_append, List.nodup_cons] at hn
  exact fun he => hn.2.1.1 (he ▸ hs)

/-! ## The group commands -/

/-- The slots of a list that belong to a group. -/
def Plan.groupOf (p : Plan) (g : UInt16) (slots : List Nat) : List Nat :=
  slots.filter fun s => inGroup g (p.entry s)

theorem Plan.groupOf_cons (p : Plan) (g : UInt16) (slot : Nat) (slots : List Nat) :
    p.groupOf g (slot :: slots) =
      if inGroup g (p.entry slot) then slot :: p.groupOf g slots else p.groupOf g slots := by
  simp [Plan.groupOf, List.filter_cons]

/-- Striking a slot off does not change what the others belong to. -/
theorem Plan.groupOf_congr {p q : Plan} (g : UInt16) {slots : List Nat}
    (h : ∀ s ∈ slots, q.entry s = p.entry s) : q.groupOf g slots = p.groupOf g slots :=
  List.filter_congr fun s hs => by rw [h s hs]

theorem deleteGroupFrom_spec (g : UInt16) (todo : List Nat) :
    ∀ (visited : List Nat) (t : Timeline) (n : Nat), t.plan.Valid → t.agenda = visited ++ todo →
      (deleteGroupFrom g todo.length t n).1.plan = t.plan.removeAll (t.plan.groupOf g todo) ∧
      (deleteGroupFrom g todo.length t n).2.1 = n + (t.plan.groupOf g todo).length ∧
      (deleteGroupFrom g todo.length t n).2.2 =
        (t.plan.groupOf g todo).map fun s => .left s .deleted := by
  induction todo with
  | nil => intro visited t n hv _; exact ⟨by simp [deleteGroupFrom, Plan.groupOf], rfl, rfl⟩
  | cons slot rest ih =>
    intro visited t n hv hag
    rw [List.length_cons, deleteGroupFrom, index_of_agenda hag, Plan.groupOf_cons, plan_entry]
    split
    · have hmem : slot ∈ t.agenda := by rw [hag]; simp
      obtain ⟨hp, -⟩ := plan_deleteSlot (hv.lt_of_mem hmem) hv.count_le hmem
      have hv' : (deleteSlot t slot).1.plan.Valid := by rw [hp]; exact hv.remove slot
      have hag' : (deleteSlot t slot).1.agenda = visited ++ rest := by
        rw [← plan_agenda, hp, hv.remove_agenda hag]
      obtain ⟨h1, h2, h3⟩ := ih visited (deleteSlot t slot).1 (n + 1) hv' hag'
      have hgrp : (deleteSlot t slot).1.plan.groupOf g rest = t.plan.groupOf g rest := by
        refine Plan.groupOf_congr g fun s hs => ?_
        rw [hp, Plan.remove_entry, if_neg (hv.ne_of_tail hag hs)]
      rw [hgrp] at h1 h2 h3
      refine ⟨?_, ?_, ?_⟩
      · rw [Plan.removeAll_cons hv.nodup, ← hp]; exact h1
      · rw [List.length_cons]; exact h2.trans (by omega)
      · rw [List.map_cons, ← h3]
    · obtain ⟨h1, h2, h3⟩ := ih (visited ++ [slot]) t n hv (by simpa using hag)
      exact ⟨h1, h2, h3⟩

/-- **`TTC_TimelineDeleteGroup`.** -/
theorem timelineDeleteGroup_spec (hv : t.plan.Valid) (g : UInt16) :
    (timelineDeleteGroup t g).1.status =
        (if (t.plan.groupOf g t.agenda).length > 0 then .success else .entryNotFound) ∧
      (timelineDeleteGroup t g).1.timeline.plan = t.plan.removeAll (t.plan.groupOf g t.agenda) ∧
      (timelineDeleteGroup t g).1.effects =
        (t.plan.groupOf g t.agenda).map fun s => .left s .deleted := by
  obtain ⟨h1, h2, h3⟩ := deleteGroupFrom_spec g t.agenda [] t 0 hv rfl
  rw [t.length_agenda] at h1 h2 h3
  exact ⟨by simp only [timelineDeleteGroup, h2, Nat.zero_add], h1, h3⟩

/-- When no entry belongs to the group, the loop writes nothing at all. -/
theorem deleteGroupFrom_eq_self (g : UInt16) (todo : List Nat) :
    ∀ (visited : List Nat) (t : Timeline) (n : Nat), t.agenda = visited ++ todo →
      t.plan.groupOf g todo = [] → (deleteGroupFrom g todo.length t n).1 = t := by
  induction todo with
  | nil => intro visited t n _ _; rfl
  | cons slot rest ih =>
    intro visited t n hag hno
    rw [Plan.groupOf_cons, plan_entry] at hno
    rw [List.length_cons, deleteGroupFrom, index_of_agenda hag]
    split at hno
    · exact absurd hno (by simp)
    · rename_i hg
      rw [if_neg hg]
      exact ih (visited ++ [slot]) t n (by simpa using hag) hno

/-- Strike entries off unless they are to be kept. -/
def Plan.removeAllUnless (p : Plan) (persist : Bool) (slots : List Nat) : Plan :=
  if persist then p else p.removeAll slots

theorem executeGroupFrom_spec (g : UInt16) (persist : Bool) (todo : List Nat) :
    ∀ (visited : List Nat) (t : Timeline) (found : Bool), t.plan.Valid →
      t.agenda = visited ++ todo →
      (executeGroupFrom g persist todo.length t found).1.plan =
        (t.plan.removeAllUnless persist (t.plan.groupOf g todo)).tally
          (t.plan.groupOf g todo).length 0 0 ∧
      (executeGroupFrom g persist todo.length t found).2.1 =
        (found || !(t.plan.groupOf g todo).isEmpty) ∧
      (executeGroupFrom g persist todo.length t found).2.2 =
        (t.plan.groupOf g todo).flatMap (sendEffects t.plan persist) := by
  induction todo with
  | nil =>
    intro visited t found hv _
    refine ⟨?_, by simp [executeGroupFrom, Plan.groupOf], rfl⟩
    cases persist <;> simp [executeGroupFrom, Plan.groupOf, Plan.removeAllUnless]
  | cons slot rest ih =>
    intro visited t found hv hag
    have hmem : slot ∈ t.agenda := by rw [hag]; simp
    have hpend : (t.entry slot).status = .pending := (hv.mem slot).1 hmem
    rw [List.length_cons, executeGroupFrom, index_of_agenda hag, Plan.groupOf_cons, plan_entry]
    by_cases hg : inGroup g (t.entry slot) = true
    · simp only [hg, hpend, beq_self_eq_true, Bool.and_true, if_true]
      obtain ⟨hp, he, -⟩ := executeEntry_of_mem hv hmem persist
      have hent : ∀ s ∈ rest, (executeEntry t slot persist).1.plan.entry s = t.plan.entry s := by
        intro s hs
        rw [hp]
        cases persist with
        | true => rfl
        | false => exact (Plan.remove_entry _ _ _).trans (if_neg (hv.ne_of_tail hag hs))
      have hv' : (executeEntry t slot persist).1.plan.Valid := by
        rw [hp]
        cases persist with
        | true => exact hv.tally 1 0 0
        | false => exact (hv.remove slot).tally 1 0 0
      have hag' : (executeEntry t slot persist).1.agenda =
          (if persist then visited ++ [slot] else visited) ++ rest := by
        rw [← plan_agenda, hp]
        cases persist with
        | true => exact hag.trans (by simp)
        | false => exact hv.remove_agenda hag
      obtain ⟨h1, h2, h3⟩ := ih _ (executeEntry t slot persist).1 true hv' hag'
      rw [Plan.groupOf_congr g hent] at h1 h2 h3
      refine ⟨h1.trans ?_, h2.trans (by simp), ?_⟩
      · rw [hp]
        cases persist with
        | true =>
          simp only [Plan.removeAllUnless, Plan.removeUnless, if_true, Plan.tally_tally,
            List.length_cons, Nat.add_zero, Nat.add_comm 1]
        | false =>
          simp only [Plan.removeAllUnless, Plan.removeUnless, Bool.false_eq_true, if_false,
            Plan.removeAll_cons hv.nodup, List.length_cons]
          rw [Plan.removeAll_tally, Plan.tally_tally, Nat.add_comm 1]
      · rw [List.flatMap_cons, ← he]
        refine congrArg _ (h3.trans ?_)
        refine List.flatMap_congr fun s hs => ?_
        rw [sendEffects, sendEffects, hent s (List.mem_of_mem_filter hs)]
    · simp only [hg, Bool.false_and, Bool.false_eq_true, if_false]
      exact ih (visited ++ [slot]) t found hv (by simpa using hag)

/-- **`TTC_TimelineExecuteGroup`.** -/
theorem timelineExecuteGroup_spec (hv : t.plan.Valid) (g : UInt16) (persist : Bool) :
    (timelineExecuteGroup t g persist).status =
        (if (t.plan.groupOf g t.agenda).isEmpty then .entryNotFound else .success) ∧
      (timelineExecuteGroup t g persist).timeline.plan =
        (t.plan.removeAllUnless persist (t.plan.groupOf g t.agenda)).tally
          (t.plan.groupOf g t.agenda).length 0 0 ∧
      (timelineExecuteGroup t g persist).effects =
        (t.plan.groupOf g t.agenda).flatMap (sendEffects t.plan persist) := by
  obtain ⟨h1, h2, h3⟩ := executeGroupFrom_spec g persist t.agenda [] t false hv rfl
  rw [t.length_agenda] at h1 h2 h3
  refine ⟨?_, h1, h3⟩
  simp only [timelineExecuteGroup, h2, Bool.false_or]
  cases (t.plan.groupOf g t.agenda).isEmpty <;> rfl

/-- When no entry belongs to the group, the loop writes nothing at all. -/
theorem executeGroupFrom_eq_self (g : UInt16) (persist : Bool) (todo : List Nat) :
    ∀ (visited : List Nat) (t : Timeline) (found : Bool), t.agenda = visited ++ todo →
      t.plan.groupOf g todo = [] → (executeGroupFrom g persist todo.length t found).1 = t := by
  induction todo with
  | nil => intro visited t found _ _; rfl
  | cons slot rest ih =>
    intro visited t found hag hno
    rw [Plan.groupOf_cons, plan_entry] at hno
    rw [List.length_cons, executeGroupFrom, index_of_agenda hag]
    split at hno
    · exact absurd hno (by simp)
    · rename_i hg
      simp only [hg, Bool.false_and, Bool.false_eq_true, if_false]
      exact ih (visited ++ [slot]) t found (by simpa using hag) hno

/-! ## Clearing every pending entry -/

/-- Clearing a slot leaves the index and everything but the slot alone. -/
theorem cancelDown_spec : ∀ (i : Nat) (t : Timeline),
    (∀ s ∈ t.agendaTo i, s < maxCommandEntries) →
      (cancelDown i t).entry = (fun s => if s ∈ t.agendaTo i then default else t.entry s) ∧
      (cancelDown i t).count = t.count ∧
      (cancelDown i t).executionPaused = t.executionPaused ∧
      (cancelDown i t).cycleContext = t.cycleContext
  | 0, t, _ => ⟨by funext s; simp [cancelDown, Timeline.agendaTo], rfl, rfl, rfl⟩
  | i + 1, t, hb => by
    rw [t.agendaTo_succ] at hb ⊢
    have hslot : t.index i < maxCommandEntries := hb _ (by simp)
    obtain ⟨he, hn, hp, hx⟩ := cancelDown_spec i (cancelSlot t (t.index i))
      (fun s hs => hb s (List.mem_cons_of_mem _ hs))
    refine ⟨?_, hn, hp, hx⟩
    rw [cancelDown, he, cancelSlot, t.entry_setEntry hslot]
    funext s
    rw [show (t.setEntry (t.index i) default).agendaTo i = t.agendaTo i from rfl]
    simp only [List.mem_cons, Function.update_apply]
    by_cases h1 : s = t.index i <;> by_cases h2 : s ∈ t.agendaTo i <;> simp [h1, h2]

theorem cancelUp_spec : ∀ (m i : Nat) (t : Timeline),
    (∀ s ∈ t.agendaFrom i m, s < maxCommandEntries) →
      (cancelUp m i t).entry = (fun s => if s ∈ t.agendaFrom i m then default else t.entry s) ∧
      (cancelUp m i t).executionPaused = t.executionPaused ∧
      (cancelUp m i t).cycleContext = t.cycleContext
  | 0, i, t, _ => ⟨by funext s; simp [cancelUp, Timeline.agendaFrom], rfl, rfl⟩
  | m + 1, i, t, hb => by
    have hmem : ∀ s, s ∈ t.agendaFrom i (m + 1) ↔ s ∈ t.agendaFrom (i + 1) m ∨ s = t.index i := by
      intro s
      simp [Timeline.agendaFrom, List.range'_succ]
    have hslot : t.index i < maxCommandEntries := hb _ ((hmem _).2 (Or.inr rfl))
    obtain ⟨he, hp, hx⟩ := cancelUp_spec m (i + 1) (cancelSlot t (t.index i))
      (fun s hs => hb s ((hmem s).2 (Or.inl hs)))
    refine ⟨?_, hp, hx⟩
    rw [cancelUp, he, cancelSlot, t.entry_setEntry hslot]
    funext s
    rw [show (t.setEntry (t.index i) default).agendaFrom (i + 1) m = t.agendaFrom (i + 1) m from
      rfl]
    simp only [hmem, Function.update_apply]
    by_cases h1 : s = t.index i <;> by_cases h2 : s ∈ t.agendaFrom (i + 1) m <;> simp [h1, h2]

/-- **`TTC_TimelineDeleteAllEntries`.** -/
theorem plan_timelineDeleteAllEntries (hv : t.plan.Valid) :
    (timelineDeleteAllEntries t).timeline.plan = t.plan.removeAll t.agenda := by
  have hfrom : t.agendaFrom 0 t.count = t.agenda := by
    rw [Timeline.agendaFrom, Timeline.agenda, List.range_eq_range']
  obtain ⟨he, hp, hx⟩ := cancelUp_spec t.count 0 t
    (fun s hs => hv.lt_of_mem (by rw [plan_agenda, ← hfrom]; exact hs))
  rw [hfrom] at he
  exact Plan.ext he t.plan.removeAll_agenda.symm hp hx

/-- **`AbortPendingEntries`.** -/
theorem plan_abortPendingEntries (hv : t.plan.Valid) :
    (abortPendingEntries t).1.plan = (t.plan.removeAll t.agenda).tally 0 0 t.count := by
  obtain ⟨he, hn, hp, hx⟩ := cancelDown_spec t.count t (fun s hs => hv.lt_of_mem hs)
  refine Plan.ext he t.plan.removeAll_agenda.symm hp ?_
  simp [abortPendingEntries, Timeline.plan, hx, hn, Plan.tally, CycleContext.tally, Plan.removeAll]

/-- **`PurgeTimeline`.** -/
theorem plan_purgeTimeline (t : Timeline) (now : UInt32) :
    (purgeTimeline t now).1.plan =
      ⟨fun _ => default, [], t.executionPaused,
        { (default : CycleContext) with previousTime := now }⟩ :=
  Plan.ext (funext Timeline.entry_default) rfl rfl rfl

/-- Striking off entries one after the other keeps the invariant. -/
theorem Plan.Valid.removeAll {p : Plan} (h : p.Valid) (slots : List Nat) :
    (p.removeAll slots).Valid := by
  induction slots generalizing p with
  | nil => rwa [Plan.removeAll_nil]
  | cons slot slots ih => rw [Plan.removeAll_cons h.nodup]; exact ih (h.remove slot)

/-! ## The processing loop -/

/-- What `TTC_ProcessTimeline` does about an entry. -/
inductive Verdict
  /-- It is not due. -/
  | wait
  /-- Send it. -/
  | send
  /-- Skip it. -/
  | skip
  /-- Abort everything from it on. -/
  | abort
  deriving DecidableEq

/-- The verdict on an entry at a given time. -/
def verdict (now : UInt32) (e : TimelineEntry) : Verdict :=
  if now < e.timeTag then .wait
  else if isStale now e then
    if e.executionType = exectypeSkipLate then .skip
    else if e.executionType = exectypeAbortLate then .abort
    else .send
  else .send

/-- What one round of the loop makes of the plan. -/
def Plan.processed (p : Plan) (now : UInt32) (slot : Nat) : Plan :=
  match verdict now (p.entry slot) with
  | .wait => p
  | .send => (p.remove slot).tally 1 0 0
  | .skip => (p.remove slot).tally 0 1 0
  | .abort => (p.removeAll p.agenda).tally 0 0 p.agenda.length

/-- What one round of the loop emits. -/
def Plan.processEffects (p : Plan) (now : UInt32) (slot : Nat) : List Effect :=
  match verdict now (p.entry slot) with
  | .wait => []
  | .send => sendEffects p false slot
  | .skip =>
    [.event (.skippingEntry (p.entry slot).groupId (p.entry slot).entryId (p.entry slot).timeTag),
      .left slot .skipped]
  | .abort =>
    .event (.abortingEntries p.agenda.length) :: p.agenda.map fun s => .left s .aborted

theorem Plan.Valid.processed {p : Plan} (hv : p.Valid) (now : UInt32) (slot : Nat) :
    (p.processed now slot).Valid := by
  unfold Plan.processed
  split
  · exact hv
  · exact (hv.remove slot).tally 1 0 0
  · exact (hv.remove slot).tally 0 1 0
  · exact (hv.removeAll _).tally 0 0 _

/-- **One round of the loop**, on the entry at the front of the agenda. -/
theorem processNext_spec (hv : t.plan.Valid) {slot : Nat} {rest : List Nat}
    (hag : t.agenda = slot :: rest) (now later : UInt32) :
    (processNext now later t).1.plan = t.plan.processed now slot ∧
      (processNext now later t).2.1 = t.plan.processEffects now slot ∧
      ((processNext now later t).2.2 = false ↔ verdict now (t.entry slot) = .wait) ∧
      ((processNext now later t).2.2 = true → (processNext now later t).1.count < t.count) := by
  obtain ⟨hnext, hcount⟩ := getNextSlot_of_agenda hag
  have hmem : slot ∈ t.agenda := by rw [hag]; simp
  have hslot := hv.lt_of_mem hmem
  have hpend : (t.entry slot).status = .pending := (hv.mem slot).1 hmem
  obtain ⟨hpe, hee, hne⟩ := executeEntry_of_mem hv hmem false
  rw [processNext, hnext, if_neg (Nat.not_le.2 hslot)]
  simp only [Plan.processed, Plan.processEffects, verdict, plan_entry]
  by_cases hwait : now < (t.entry slot).timeTag
  · simp [hwait]
  by_cases hstale : isStale now (t.entry slot) = true
  · simp only [hwait, hstale, if_false, if_true, processStale]
    by_cases hskip : (t.entry slot).executionType = exectypeSkipLate
    · obtain ⟨hp, -, hn⟩ := plan_deleteSlot hslot hv.count_le hmem
      have hctx : (deleteSlot t slot).1.cycleContext = t.cycleContext := congrArg Plan.context hp
      simp only [hskip, if_true, skipEntry, if_neg (Nat.not_le.2 hslot)]
      refine ⟨?_, by simp, by simp, fun _ => ?_⟩
      · simp [Plan.tally, CycleContext.tally, hp, hctx, Plan.remove]
      · show (deleteSlot t slot).1.count < _
        omega
    by_cases habort : (t.entry slot).executionType = exectypeAbortLate
    · have hne' : exectypeAbortLate ≠ exectypeSkipLate := by decide
      simp only [habort, hne', if_true, if_false]
      refine ⟨by simp [plan_abortPendingEntries hv], by simp [abortPendingEntries], by simp,
        fun _ => ?_⟩
      show 0 < _
      omega
    · have hforce : (t.entry slot).executionType = exectypeForce := by
        rcases (hv.wellSized slot hpend).execType with h | h | h
        · exact absurd h hskip
        · exact h
        · exact absurd h habort
      have h1 : exectypeForce ≠ exectypeSkipLate := by decide
      have h2 : exectypeForce ≠ exectypeAbortLate := by decide
      simp only [hforce, h1, h2, if_true, if_false]
      exact ⟨hpe, hee, by simp, fun _ => by rw [hne]; simp; omega⟩
  · simp only [hwait, hstale, if_false, Bool.false_eq_true]
    exact ⟨hpe, hee, by simp, fun _ => by rw [hne]; simp; omega⟩

/-- **The loop of `TTC_ProcessTimeline` needs no more than `Count` rounds**: with that much fuel it
is the `while` loop of the source. -/
theorem processLoop_eq (now later : UInt32) : ∀ (fuel : Nat) (t : Timeline), t.plan.Valid →
    t.count ≤ fuel → processLoop now later fuel t =
      if t.count > 0 then
        match processNext now later t with
        | (t', es, false) => (t', es)
        | (t', es, true) =>
          let (t'', es') := processLoop now later t'.count t'
          (t'', es ++ es')
      else (t, [])
  | 0, t, _, hf => by rw [processLoop, if_neg (by omega)]
  | fuel + 1, t, hv, hf => by
    rw [processLoop]
    split
    · rename_i hpos
      cases hag : t.agenda with
      | nil => rw [← t.length_agenda, hag] at hpos; exact absurd hpos (by simp)
      | cons slot rest =>
        obtain ⟨hp, -, -, hlt⟩ := processNext_spec hv hag now later
        cases hn : processNext now later t with
        | mk t' r =>
          obtain ⟨es, go⟩ := r
          rw [hn] at hp hlt
          cases go with
          | false => rfl
          | true =>
            have hlt' : t'.count < t.count := hlt rfl
            have hv' : t'.plan.Valid := by
              rw [show t'.plan = _ from hp]
              exact hv.processed now slot
            have h1 := processLoop_eq now later fuel t' hv' (by omega)
            have h2 := processLoop_eq now later t'.count t' hv' (Nat.le_refl _)
            simp only [h1, ← h2]
    · rfl

end Ttc
end FlightApps
