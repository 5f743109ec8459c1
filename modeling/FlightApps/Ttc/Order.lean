import FlightApps.Ttc.Cycle
import FlightApps.Ttc.Ledger

/-!
# Entries due at the same time

The binary search of `FindSortedIndex` puts a new entry behind everything due no later, so entries
with equal time tags stand on the agenda in the order in which they were committed, and that order
survives whatever is inserted or removed around them.  The order of commits is that of the numbers
of the ledger, so the statement is a second invariant of the ledger, `Ledger.Fifo`.
-/

set_option autoImplicit false

namespace FlightApps
namespace Ttc

open StableQueue

variable {p q : Plan} {op : Op} {l : Ledger}

/-- `a` was committed before `b`, if they are due at the same time. -/
def Ledger.Before (l : Ledger) (p : Plan) (a b : Nat) : Prop :=
  (p.entry a).timeTag = (p.entry b).timeTag →
    ∀ i j, l.owner a = some i → l.owner b = some j → i < j

/-- Entries due at the same time are on the agenda in the order they were committed. -/
def Ledger.Fifo (p : Plan) (l : Ledger) : Prop := p.agenda.Pairwise (l.Before p)

namespace Ledger

/-- Only what the slots on the agenda hold matters, and who owns them. -/
theorem Fifo.congr {l' : Ledger} (h : l.Fifo p) (hag : q.agenda.Sublist p.agenda)
    (hentry : ∀ s ∈ q.agenda, q.entry s = p.entry s)
    (howner : ∀ s ∈ q.agenda, l'.owner s = l.owner s) :
    l'.Fifo q := by
  refine List.Pairwise.imp_of_mem (fun {a b} ha hb hab => ?_) (h.sublist hag)
  rw [Before, hentry a ha, hentry b hb, howner a ha, howner b hb]
  exact hab

theorem Fifo.put (h : l.Fifo p) {slot : Nat} (hn : slot ∉ p.agenda) (e : TimelineEntry) :
    l.Fifo (p.put slot e) := by
  refine h.congr (.refl _) (fun s hs => ?_) fun _ _ => rfl
  have hne : s ≠ slot := fun he => hn (he ▸ hs)
  rw [Plan.put_entry, if_neg hne]

theorem Fifo.remove (h : l.Fifo p) (hv : p.Valid) (slot : Nat) {l' : Ledger}
    (ho : l'.owner = Function.update l.owner slot none) : l'.Fifo (p.remove slot) := by
  refine h.congr List.erase_sublist (fun s hs => ?_) fun s hs => ?_
  · rw [Plan.remove_entry, if_neg (hv.mem_remove.1 hs).1]
  · rw [ho, Function.update_of_ne (hv.mem_remove.1 hs).1]

/-- A new entry has the highest number, and goes behind those due at the same time. -/
theorem Fifo.schedule (h : l.Fifo p) (ht : l.Tracks p) (op : Op) {slot : Nat} (e : TimelineEntry)
    (hn : slot ∉ p.agenda) : (enter op l (.committed slot)).Fifo (p.schedule slot e) := by
  have hne : ∀ s ∈ p.agenda, s ≠ slot := fun s hs he => hn (he ▸ hs)
  have howner : ∀ s, s ≠ slot → (enter op l (.committed slot)).owner s = l.owner s := fun s hs =>
    Function.update_of_ne hs _ _
  have hself : (enter op l (.committed slot)).owner slot = some l.commits := Function.update_self ..
  refine pairwise_enqueue ?_ (fun y hy hk => ?_) (fun y hy hk => ?_) fun y hy z hz hk hk' => ?_
  · refine h.imp_of_mem fun {a b} ha hb hab => ?_
    rw [Before, Plan.schedule_entry, Plan.schedule_entry, if_neg (hne a ha), if_neg (hne b hb),
      howner a (hne a ha), howner b (hne b hb)]
    exact hab
  · intro _ i j hi hj
    rw [howner y (hne y hy)] at hi
    rw [hself] at hj
    obtain ⟨⟨k, hk, hko⟩, -⟩ := ht.of_mem hy
    rw [hi] at hko
    rw [Option.some.inj hko, ← Option.some.inj hj]
    exact hk
  · intro htag
    rw [Plan.schedule_entry, Plan.schedule_entry, if_pos rfl, if_neg (hne y hy)] at htag
    grind
  · intro htag
    rw [Plan.schedule_entry, Plan.schedule_entry, if_neg (hne y hy), if_neg (hne z hz)] at htag
    grind

end Ledger

/-- **A move keeps the order.** -/
theorem Move.fifo {es : List Effect} (hm : Move op p es q) (hv : p.Valid) (ht : l.Tracks p)
    (h : l.Fifo p) : (es.foldl (Ledger.enter op) l).Fifo q := by
  cases hm with
  | note paused c evs hc hev => rw [Ledger.foldl_enter_event]; exact h
  | reserve slot e g hop hslot hempty hid hfresh =>
    exact h.put (hv.notMem (by rw [hempty]; simp)) _
  | write slot cmd hres => exact h.put (hv.notMem (by rw [hres]; simp)) _
  | drop slot hop hres => exact h.put (hv.notMem (by rw [hres]; simp)) _
  | commit slot e hop hslot hnew hpend hwell hid hkeep =>
    exact h.schedule ht op e (hv.notMem hnew)
  | send slot hop hmem => exact h
  | execute slot hop hmem => exact h.remove hv slot rfl
  | leave slot cause hop hne hmem => exact h.remove hv slot rfl

theorem fifo_run (now : UInt32) (ops : List Op) :
    let w := (ttc.watch Ledger.note).run (timelineInitialize now, Ledger.blank) ops
    w.2.Fifo w.1.timeline.plan := by
  refine ((ttc.watch Ledger.note).invariant
    (P := fun w => w.2.RightAbout w.1 ∧ w.2.Fifo w.1.timeline.plan) (fun w op h => ?_)
    ⟨rightAbout_run now [], List.Pairwise.nil⟩ ops).2
  refine ⟨h.1.step op, ?_⟩
  exact ((perform_trace h.1.valid op).follows
    (P := fun p l => p.Valid ∧ Ledger.Tracks p l ∧ Ledger.Fifo p l)
    (fun _ _ _ _ hm hp => ⟨hm.valid hp.1, hm.tracks hp.1 hp.2.1, hm.fifo hp.1 hp.2.1 hp.2.2⟩)
    ⟨h.1.valid, h.1.tracks, h.2⟩).2.2

/-! ## What is transmitted is in order -/

theorem transmitted_flatMap (p : Plan) (persist : Bool) (slots : List Nat) :
    transmitted (slots.flatMap (sendEffects p persist)) =
      slots.map fun s => (s, (p.entry s).command) := by
  induction slots with
  | nil => rfl
  | cons slot slots ih =>
    rw [List.flatMap_cons, transmitted_append, ih, List.map_cons]
    cases persist <;> rfl

/-- The slots `TTC_ProcessTimeline` transmits from are on the agenda, in this order. -/
theorem sent_sublist {t : Timeline} (hv : t.plan.Valid) (now later : UInt32) :
    ((transmitted (processTimeline t now later).effects).map Prod.fst).Sublist t.agenda := by
  cases hp : t.executionPaused with
  | false =>
    rw [(processTimeline_cycle hv hp now later).1, List.map_map]
    exact (List.map_id' _).symm ▸ cycle_sent_sublist now t.entry t.agenda
  | true => rw [(processTimeline_paused hv hp now later).1]; exact List.nil_sublist _

/-- When an entry is transmitted by `TTC_ProcessTimeline`, no entry due at the same time stays. -/
theorem notMem_agenda_of_sent {t : Timeline} (hv : t.plan.Valid) {now later : UInt32} {a b : Nat}
    (hb : b ∈ (transmitted (processTimeline t now later).effects).map Prod.fst)
    (htag : (t.entry a).timeTag = (t.entry b).timeTag) :
    a ∉ (processTimeline t now later).timeline.agenda := by
  cases hp : t.executionPaused with
  | true => rw [(processTimeline_paused hv hp now later).1] at hb; exact absurd hb (by simp)
  | false =>
    obtain ⟨hsent, hkept, -⟩ := processTimeline_cycle hv hp now later
    have hcyc := hv.cycle_eq now
    rw [plan_agenda, plan_entry] at hcyc
    rw [hkept, hcyc]
    rw [hsent, hcyc, List.map_map] at hb
    obtain ⟨s, hs, rfl⟩ := List.mem_map.1 hb
    have hdue : (t.entry s).timeTag ≤ now :=
      (hv.of_mem_due (List.takeWhile_subset _ (List.mem_of_mem_filter hs))).1
    dsimp only
    split
    · simp
    · intro ha
      have hlt : now < (t.entry a).timeTag := of_decide_eq_true (List.mem_filter.1 ha).2
      rw [htag] at hlt
      simp only [Function.comp_apply] at hlt
      grind

/-- **Stable order among equal time tags.**  After any run, of two pending entries with equal time
tags the one committed first is at the higher position of `SortedIndex`.  `TTC_ProcessTimeline` and
`TTC_TimelineExecuteGroup` transmit in the order of the agenda, so they transmit it first; and when
the former transmits the other one, the first does not stay behind.  -/
theorem stable_order (start : UInt32) (ops : List Op) :
    let w := (ttc.watch Ledger.note).run (timelineInitialize start, Ledger.blank) ops
    let t := w.1.timeline
    let l := w.2
    (∀ i j m n, i < t.count → j < t.count →
        (t.entry (t.index i)).timeTag = (t.entry (t.index j)).timeTag →
        l.owner (t.index i) = some m → l.owner (t.index j) = some n → m < n → j < i) ∧
      (∀ now later,
        let r := processTimeline t now later
        let sent := (transmitted r.effects).map Prod.fst
        sent.Sublist t.agenda ∧ sent.Pairwise (l.Before t.plan) ∧
          ∀ a b, b ∈ sent → (t.entry a).timeTag = (t.entry b).timeTag → a ∉ r.timeline.agenda) ∧
      ∀ g persist,
        let sent := (transmitted (timelineExecuteGroup t g persist).effects).map Prod.fst
        sent = t.agenda.filter (fun s => inGroup g (t.entry s)) ∧
        sent.Pairwise (l.Before t.plan) := by
  intro w t l
  have hv : t.plan.Valid := (rightAbout_run start ops).valid
  have hfifo : l.Fifo t.plan := fifo_run start ops
  refine ⟨fun i j m n hi hj htag hm hn hmn => ?_, fun now later => ?_, fun g persist => ?_⟩
  · rcases Nat.lt_trichotomy j i with hlt | rfl | hlt
    · exact hlt
    · rw [hm] at hn
      have := Option.some.inj hn
      omega
    · have := Timeline.pairwise_agenda.1 hfifo i j hlt hj htag.symm n m hn hm
      omega
  · exact ⟨sent_sublist hv now later, hfifo.sublist (sent_sublist hv now later),
      fun a b hb htag => notMem_agenda_of_sent hv hb htag⟩
  · have hsent : (transmitted (timelineExecuteGroup t g persist).effects).map Prod.fst =
        t.agenda.filter (fun s => inGroup g (t.entry s)) := by
      rw [(timelineExecuteGroup_spec hv g persist).2.2, transmitted_flatMap, List.map_map]
      exact List.map_id' _
    exact ⟨hsent, hsent ▸ hfifo.sublist List.filter_sublist⟩

end Ttc
end FlightApps
