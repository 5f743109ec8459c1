import FlightApps.Ttc.Api

/-!
# The timeline without its index array

What the functions of the timeline mean does not depend on how `sortedIndex` is laid out, only on
the list of slots it spells.  A `Plan` is a timeline seen that way: what every slot holds, the
pending slots in the order they are due, the pause flag and the cycle context.

Three updates of a plan are all the index is ever used for: `put` overwrites a slot, `remove` clears
a slot and strikes it off the agenda, and `schedule` fills a slot and puts it on the agenda, behind
everything due at the same time.  This file shows that `setEntry`, `deleteSlot` and
`insertSlotToSortedIndex` compute them (`plan_setEntry`, `plan_deleteSlot`,
`insertSlotToSortedIndex_eq`), so that nothing after it looks at an array cell again.
-/

set_option autoImplicit false

namespace FlightApps
namespace Ttc

open StableQueue

/-! ## Access -/

namespace Timeline

theorem entry_setEntry (t : Timeline) {slot : Nat} (h : slot < maxCommandEntries)
    (e : TimelineEntry) : (t.setEntry slot e).entry = Function.update t.entry slot e := by
  funext i
  rw [Function.update_apply]
  exact Cells.get_set t.entries h e i

theorem entry_of_le (t : Timeline) {slot : Nat} (h : maxCommandEntries ≤ slot) :
    t.entry slot = default := Cells.get_of_le t.entries h

theorem entry_default (slot : Nat) : (default : Timeline).entry slot = default :=
  Cells.get_replicate_default slot

@[simp] theorem index_setEntry (t : Timeline) (slot : Nat) (e : TimelineEntry) :
    (t.setEntry slot e).index = t.index := rfl

@[simp] theorem count_setEntry (t : Timeline) (slot : Nat) (e : TimelineEntry) :
    (t.setEntry slot e).count = t.count := rfl

theorem setEntry_setEntry (t : Timeline) (slot : Nat) (e e' : TimelineEntry) :
    (t.setEntry slot e).setEntry slot e' = t.setEntry slot e' := by
  simp [setEntry]

theorem setEntry_entry_self (t : Timeline) (slot : Nat) : t.setEntry slot (t.entry slot) = t := by
  simp [setEntry, entry, Cells.set_get_self]

theorem index_setIndex (t : Timeline) {i : Nat} (h : i < maxCommandEntries) (slot j : Nat) :
    (t.setIndex i slot).index j = if j = i then slot else t.index j :=
  Cells.get_set t.sortedIndex h slot j

/-! ## The agenda -/

/-- The agenda as far as the first `n` cells of the index spell it. -/
def agendaTo (t : Timeline) (n : Nat) : List Nat := ((List.range n).map t.index).reverse

/-- The part of the agenda in cells `i, …, i + m - 1` of the index. -/
def agendaFrom (t : Timeline) (i m : Nat) : List Nat := ((List.range' i m).map t.index).reverse

theorem agendaTo_succ (t : Timeline) (n : Nat) :
    t.agendaTo (n + 1) = t.index n :: t.agendaTo n := by
  simp [agendaTo, List.range_succ]

theorem agenda_eq_agendaTo (t : Timeline) : t.agenda = t.agendaTo t.count := rfl

theorem agendaTo_split (t : Timeline) {i c : Nat} (h : i ≤ c) :
    t.agendaTo c = t.agendaFrom i (c - i) ++ t.agendaTo i := by
  have hr : List.range c = List.range i ++ List.range' i (c - i) := by
    have happ := List.range'_append_1 (s := 0) (m := i) (n := c - i)
    rwa [Nat.zero_add, Nat.add_sub_cancel' h, ← List.range_eq_range', ← List.range_eq_range',
      eq_comm] at happ
  rw [agendaTo, hr, List.map_append, List.reverse_append, ← agendaTo, ← agendaFrom]

/-- Two timelines that agree on the cells in question spell the same part of the agenda. -/
theorem agendaFrom_congr {t t' : Timeline} {i j m : Nat}
    (h : ∀ k, k < m → t'.index (i + k) = t.index (j + k)) :
    t'.agendaFrom i m = t.agendaFrom j m := by
  rw [agendaFrom, agendaFrom]
  congr 1
  refine List.ext_getElem (by simp) fun k hk _ => ?_
  have hkm : k < m := by simpa using hk
  simpa using h k hkm

theorem agendaTo_congr {t t' : Timeline} {n : Nat} (h : ∀ k, k < n → t'.index k = t.index k) :
    t'.agendaTo n = t.agendaTo n := by
  rw [agendaTo, agendaTo, List.range_eq_range']
  refine agendaFrom_congr fun k hk => ?_
  simpa using h k hk

@[simp] theorem length_agenda (t : Timeline) : t.agenda.length = t.count := by simp [agenda]

theorem mem_agendaTo {t : Timeline} {n slot : Nat} :
    slot ∈ t.agendaTo n ↔ ∃ i, i < n ∧ t.index i = slot := by simp [agendaTo]

theorem mem_agendaFrom {t : Timeline} {i m slot : Nat} :
    slot ∈ t.agendaFrom i m ↔ ∃ k, k < m ∧ t.index (i + k) = slot := by
  simp only [agendaFrom, List.mem_reverse, List.mem_map, List.mem_range'_1]
  constructor
  · rintro ⟨j, ⟨h1, h2⟩, rfl⟩
    exact ⟨j - i, by omega, by rw [Nat.add_sub_cancel' h1]⟩
  · rintro ⟨k, hk, rfl⟩
    exact ⟨i + k, ⟨by omega, by omega⟩, rfl⟩

/-- What holds along the agenda, cell by cell of the index: later in the agenda is lower in the
index. -/
theorem pairwise_agenda {t : Timeline} {R : Nat → Nat → Prop} :
    t.agenda.Pairwise R ↔ ∀ i j, i < j → j < t.count → R (t.index j) (t.index i) := by
  rw [agenda, List.pairwise_reverse, List.pairwise_map, List.pairwise_iff_getElem]
  simp only [List.length_range, List.getElem_range]
  exact ⟨fun h i j hij hj => h i j (by omega) hj hij, fun h i j _ hj hij => h i j hij hj⟩

end Timeline

/-! ## Plans -/

/-- A timeline with its index array read as a list. -/
structure Plan where
  /-- What a slot holds. -/
  entry : Nat → TimelineEntry
  /-- The pending slots, next to execute first. -/
  agenda : List Nat
  /-- The pause flag. -/
  paused : Bool
  /-- The cycle context. -/
  context : CycleContext

/-- The plan a timeline represents. -/
def Timeline.plan (t : Timeline) : Plan := ⟨t.entry, t.agenda, t.executionPaused, t.cycleContext⟩

namespace Plan

@[ext] theorem ext {p q : Plan} (h1 : p.entry = q.entry) (h2 : p.agenda = q.agenda)
    (h3 : p.paused = q.paused) (h4 : p.context = q.context) : p = q := by
  cases p; cases q; simp_all

/-- Overwrite a slot. -/
def put (p : Plan) (slot : Nat) (e : TimelineEntry) : Plan :=
  { p with entry := Function.update p.entry slot e }

/-- Clear a slot and strike it off the agenda. -/
def remove (p : Plan) (slot : Nat) : Plan :=
  { p with entry := Function.update p.entry slot default, agenda := p.agenda.erase slot }

/-- Clear all of a list of slots and strike them off the agenda. -/
def removeAll (p : Plan) (slots : List Nat) : Plan :=
  { p with
    entry := fun s => if s ∈ slots then default else p.entry s
    agenda := p.agenda.filter fun s => decide (s ∉ slots) }

/-- Fill a slot and put it on the agenda, behind everything due no later. -/
def schedule (p : Plan) (slot : Nat) (e : TimelineEntry) : Plan :=
  { p with
    entry := Function.update p.entry slot e
    agenda := enqueue (fun s => (p.entry s).timeTag) e.timeTag slot p.agenda }

/-- The agenda is in order of time. -/
def Sorted (p : Plan) : Prop :=
  p.agenda.Pairwise fun a b => (p.entry a).timeTag ≤ (p.entry b).timeTag

end Plan

@[simp] theorem plan_entry (t : Timeline) : t.plan.entry = t.entry := rfl
@[simp] theorem plan_agenda (t : Timeline) : t.plan.agenda = t.agenda := rfl
@[simp] theorem plan_paused (t : Timeline) : t.plan.paused = t.executionPaused := rfl
@[simp] theorem plan_context (t : Timeline) : t.plan.context = t.cycleContext := rfl
theorem plan_setEntry (t : Timeline) {slot : Nat} (h : slot < maxCommandEntries)
    (e : TimelineEntry) : (t.setEntry slot e).plan = t.plan.put slot e :=
  Plan.ext (t.entry_setEntry h e) rfl rfl rfl

theorem plan_cancelSlot (t : Timeline) {slot : Nat} (h : slot < maxCommandEntries) :
    (cancelSlot t slot).plan = t.plan.put slot default := plan_setEntry t h _

@[simp] theorem plan_setContext (t : Timeline) (c : CycleContext) :
    (t.setContext c).plan = { t.plan with context := c } := rfl

/-! ## Clearing many slots -/

namespace Plan

@[simp] theorem removeAll_nil (p : Plan) : p.removeAll [] = p := by
  simp [removeAll]

/-- One after the other or all at once. -/
theorem removeAll_cons {p : Plan} (hn : p.agenda.Nodup) (slot : Nat) (slots : List Nat) :
    p.removeAll (slot :: slots) = (p.remove slot).removeAll slots := by
  refine Plan.ext (funext fun s => ?_) ?_ rfl rfl
  · simp only [removeAll, remove, List.mem_cons, Function.update_apply]
    by_cases h1 : s = slot <;> by_cases h2 : s ∈ slots <;> simp [h1, h2]
  · simp only [removeAll, remove, hn.erase_eq_filter, List.filter_filter, List.mem_cons, not_or]
    refine List.filter_congr fun s _ => ?_
    by_cases h1 : s = slot <;> by_cases h2 : s ∈ slots <;> simp [h1, h2]

theorem removeAll_agenda (p : Plan) : (p.removeAll p.agenda).agenda = [] :=
  List.filter_eq_nil_iff.2 fun s hs => by simpa using hs

end Plan

/-! ## `DeleteSlot` strikes a slot off -/

/-- Everything but the index cells is out of reach of the shifting loops. -/
theorem shiftDown_frame (rounds j : Nat) (t : Timeline) :
    (shiftDown rounds j t).entries = t.entries ∧ (shiftDown rounds j t).count = t.count ∧
      (shiftDown rounds j t).executionPaused = t.executionPaused ∧
      (shiftDown rounds j t).cycleContext = t.cycleContext := by
  induction rounds generalizing j t with
  | zero => exact ⟨rfl, rfl, rfl, rfl⟩
  | succ rounds ih => exact ih (j + 1) _

theorem index_shiftDown (rounds j : Nat) (t : Timeline) (h : j + rounds ≤ maxCommandEntries)
    (k : Nat) : (shiftDown rounds j t).index k =
      if j ≤ k ∧ k < j + rounds then t.index (k + 1) else t.index k := by
  induction rounds generalizing j t with
  | zero => rw [shiftDown, if_neg (by omega)]
  | succ rounds ih =>
    rw [shiftDown, ih (j + 1) _ (by omega), t.index_setIndex (by omega),
      t.index_setIndex (by omega)]
    rcases Nat.lt_trichotomy k j with hk | rfl | hk
    · rw [if_neg (by omega), if_neg (by omega), if_neg (by omega)]
    · rw [if_neg (by omega), if_pos rfl, if_pos (by omega)]
    · by_cases hin : k < j + 1 + rounds
      · rw [if_pos (by omega), if_neg (by omega), if_pos (by omega)]
      · rw [if_neg (by omega), if_neg (by omega), if_neg (by omega)]

/-- Closing the gap at cell `i` takes one slot out of the agenda. -/
theorem agenda_shiftDown (t : Timeline) {i : Nat} (hi : i < t.count)
    (hc : t.count ≤ maxCommandEntries) :
    Timeline.agenda { shiftDown (t.count - 1 - i) i t with count := t.count - 1 }
      = t.agendaFrom (i + 1) (t.count - (i + 1)) ++ t.agendaTo i := by
  have hidx := index_shiftDown (t.count - 1 - i) i t (by omega)
  rw [Timeline.agenda_eq_agendaTo, Timeline.agendaTo_split _ (show i ≤ t.count - 1 by omega)]
  congr 1
  · rw [show t.count - (i + 1) = t.count - 1 - i by omega]
    refine Timeline.agendaFrom_congr fun k hk => (hidx (i + k)).trans ?_
    rw [if_pos (by omega), Nat.add_right_comm]
  · refine Timeline.agendaTo_congr fun k hk => (hidx k).trans ?_
    rw [if_neg (by omega)]

/-- The scan of `DeleteSlot` when no cell from `i` on holds the slot. -/
theorem deleteSlotFrom_spec (slot : Nat) (hslot : slot < maxCommandEntries) (t : Timeline)
    (hc : t.count ≤ maxCommandEntries) : ∀ i, i ≤ t.count →
      slot ∉ t.agendaFrom i (t.count - i) →
      (slot ∈ t.agendaTo i → ∃ t', deleteSlotFrom slot i t = (t', true) ∧
          t'.plan = t.plan.remove slot ∧ t'.count = t.count - 1) ∧
        (slot ∉ t.agendaTo i → deleteSlotFrom slot i t = (t, false))
  | 0, _, _ => ⟨fun h => absurd h (by simp [Timeline.agendaTo]), fun _ => rfl⟩
  | i + 1, hi, hnot => by
    have hsplit : t.agenda = t.agendaFrom (i + 1) (t.count - (i + 1)) ++
        t.index i :: t.agendaTo i := by
      rw [t.agenda_eq_agendaTo, t.agendaTo_split hi, t.agendaTo_succ]
    rw [deleteSlotFrom, t.agendaTo_succ]
    by_cases heq : t.index i = slot
    · simp only [heq, if_true, List.mem_cons, true_or, not_true_eq_false, false_implies, and_true,
        forall_const]
      obtain ⟨he, hcount, hp, hx⟩ := shiftDown_frame (t.count - 1 - i) i (cancelSlot t slot)
      refine ⟨_, rfl, ?_, congrArg (· - 1) hcount⟩
      have hent : Timeline.entry (shiftDown (t.count - 1 - i) i (cancelSlot t slot))
          = Function.update t.entry slot default := by
        rw [← t.entry_setEntry hslot]
        funext k
        rw [Timeline.entry, he]; rfl
      refine Plan.ext hent ?_ hp hx
      have hag := agenda_shiftDown (cancelSlot t slot) (i := i) hi hc
      show Timeline.agenda { shiftDown (t.count - 1 - i) i (cancelSlot t slot) with
        count := (shiftDown (t.count - 1 - i) i (cancelSlot t slot)).count - 1 } =
      t.agenda.erase slot
      rw [hcount, hsplit, heq, List.erase_append_right _ hnot, List.erase_cons_head]
      exact hag
    · have hne : ¬slot = t.index i := fun h => heq h.symm
      simp only [heq, if_false, List.mem_cons, hne, false_or]
      refine deleteSlotFrom_spec slot hslot t hc i (by omega) fun hmem => ?_
      -- cell `i` is not the one either, so the part already scanned grows by it
      rw [Timeline.mem_agendaFrom] at hmem hnot
      obtain ⟨k, hk, hks⟩ := hmem
      cases k with
      | zero => exact heq hks
      | succ k => exact hnot ⟨k, by omega, by rw [← hks]; congr 1; omega⟩

/-- **`DeleteSlot` on a pending slot** clears it and strikes it off. -/
theorem plan_deleteSlot {t : Timeline} {slot : Nat} (hslot : slot < maxCommandEntries)
    (hc : t.count ≤ maxCommandEntries) (h : slot ∈ t.agenda) :
    (deleteSlot t slot).1.plan = t.plan.remove slot ∧ (deleteSlot t slot).2 = true ∧
      (deleteSlot t slot).1.count = t.count - 1 := by
  obtain ⟨t', ht, hp, hn⟩ := (deleteSlotFrom_spec slot hslot t hc t.count (Nat.le_refl _)
    (by simp [Timeline.agendaFrom])).1 h
  rw [deleteSlot, ht]
  exact ⟨hp, rfl, hn⟩

/-- `DeleteSlot` on any other slot does nothing. -/
theorem deleteSlot_of_notMem {t : Timeline} {slot : Nat} (hslot : slot < maxCommandEntries)
    (hc : t.count ≤ maxCommandEntries) (h : slot ∉ t.agenda) : deleteSlot t slot = (t, false) :=
  (deleteSlotFrom_spec slot hslot t hc t.count (Nat.le_refl _) (by simp [Timeline.agendaFrom])).2 h

/-! ## `InsertSlotToSortedIndex` schedules a slot -/

theorem shiftUp_frame (index i : Nat) (t : Timeline) :
    (shiftUp index i t).entries = t.entries ∧ (shiftUp index i t).count = t.count ∧
      (shiftUp index i t).executionPaused = t.executionPaused ∧
      (shiftUp index i t).cycleContext = t.cycleContext := by
  induction i generalizing t with
  | zero => exact ⟨rfl, rfl, rfl, rfl⟩
  | succ i ih =>
    rw [shiftUp]
    split
    · exact ih _
    · exact ⟨rfl, rfl, rfl, rfl⟩

theorem index_shiftUp (index i : Nat) (t : Timeline) (h : i < maxCommandEntries) (k : Nat) :
    (shiftUp index i t).index k = if index < k ∧ k ≤ i then t.index (k - 1) else t.index k := by
  induction i generalizing t with
  | zero => rw [shiftUp, if_neg (by omega)]
  | succ i ih =>
    rw [shiftUp]
    split
    · rw [ih _ (by omega), t.index_setIndex h, t.index_setIndex h]
      rcases Nat.lt_trichotomy k (i + 1) with hk | rfl | hk
      · by_cases hlt : index < k
        · rw [if_pos (by omega), if_neg (by omega), if_pos (by omega)]
        · rw [if_neg (by omega), if_neg (by omega), if_neg (by omega)]
      · rw [if_neg (by omega), if_pos rfl, if_pos (by omega), Nat.add_sub_cancel]
      · rw [if_neg (by omega), if_neg (by omega), if_neg (by omega)]
    · rw [if_neg (by omega)]

/-- **The binary search finds the end of the entries due later than `timeTag`.** -/
theorem findSortedIndex_spec {t : Timeline} (hs : t.plan.Sorted) (timeTag : UInt32) :
    findSortedIndex t timeTag ≤ t.count ∧
      (∀ i, i < findSortedIndex t timeTag → timeTag < (t.entry (t.index i)).timeTag) ∧
      ∀ i, findSortedIndex t timeTag ≤ i → i < t.count →
        ¬timeTag < (t.entry (t.index i)).timeTag := by
  have hs' := Timeline.pairwise_agenda.1 hs
  have hmono : ∀ i j, i ≤ j → j < t.count →
      decide (timeTag < (t.entry (t.index j)).timeTag) = true →
      decide (timeTag < (t.entry (t.index i)).timeTag) = true := by
    intro i j hij hj hb
    rcases Nat.lt_or_eq_of_le hij with hlt | rfl
    · have hle := hs' i j hlt hj
      simp only [decide_eq_true_eq, plan_entry] at hb hle ⊢
      grind
    · exact hb
  have h := bisect_spec hmono t.count 0 t.count (by omega) (by omega) (Nat.le_refl _)
    (fun i hi => absurd hi (Nat.not_lt_zero i)) (fun i hi hn => by omega)
  simp only [decide_eq_true_eq, decide_eq_false_iff_not] at h
  exact h

/-- **`InsertSlotToSortedIndex` on a sorted index with room**: the slot goes behind everything due
no later, and nothing else changes. -/
theorem insertSlotToSortedIndex_eq {t : Timeline} (hs : t.plan.Sorted) {slot : Nat}
    (hslot : slot < maxCommandEntries) (hc : t.count < maxCommandEntries) (timeTag : UInt32) :
    ∃ t', insertSlotToSortedIndex t timeTag slot = (t', true) ∧ t'.count = t.count + 1 ∧
      t'.plan = { t.plan with
        agenda := enqueue (fun s => (t.entry s).timeTag) timeTag slot t.agenda } := by
  obtain ⟨hle, hlo, hhi⟩ := findSortedIndex_spec hs timeTag
  rw [insertSlotToSortedIndex, if_neg (Nat.not_le.2 hslot)]
  generalize findSortedIndex t timeTag = index at hle hlo hhi
  rw [if_neg (by simp only [Bool.or_eq_true, decide_eq_true_eq]; omega)]
  obtain ⟨he, hn, hp, hx⟩ := shiftUp_frame index t.count t
  refine ⟨_, rfl, congrArg (· + 1) hn, Plan.ext ?_ ?_ hp hx⟩
  · funext k
    show Cells.get (shiftUp index t.count t).entries k = t.entry k
    rw [he]; rfl
  · -- the index with the gap filled, cell by cell
    have hidx : ∀ k, Timeline.index ((shiftUp index t.count t).setIndex index slot) k
        = if k = index then slot else if index < k ∧ k ≤ t.count then t.index (k - 1)
          else t.index k := by
      intro k
      rw [Timeline.index_setIndex _ (by omega), index_shiftUp _ _ _ hc]
    show Timeline.agendaTo ((shiftUp index t.count t).setIndex index slot)
      ((shiftUp index t.count t).count + 1) = _
    rw [hn, Timeline.agendaTo_split _ (show index + 1 ≤ t.count + 1 by omega),
      Timeline.agendaTo_succ, hidx index, if_pos rfl,
      Timeline.agendaFrom_congr (t := t) (j := index) (fun k hk => ?_),
      Timeline.agendaTo_congr (t := t) (fun k hk => ?_), t.agenda_eq_agendaTo,
      t.agendaTo_split hle, Nat.add_sub_add_right]
    · refine (enqueue_append (fun y hy => ?_) (fun y hy => ?_) slot).symm
      · obtain ⟨k, hk, rfl⟩ := Timeline.mem_agendaFrom.1 hy
        exact hhi _ (by omega) (by omega)
      · obtain ⟨k, hk, rfl⟩ := Timeline.mem_agendaTo.1 hy
        exact hlo k hk
    · rw [hidx, if_neg (by omega), if_neg (by omega)]
    · rw [hidx, if_neg (by omega), if_pos (by omega)]
      congr 1
      omega

end Ttc
end FlightApps
