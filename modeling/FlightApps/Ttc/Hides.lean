import Mathlib.Data.List.Nodup
import FlightApps.Ttc.Cycle

/-!
# Two timelines that differ in hidden reservations

A run with additional reservations puts its entries into other slots than the run without them, so
the two timelines agree only up to a renaming of slots.  `Hides` is that agreement, without the
renaming: the entries on the agenda are the same in the same order, so are the visible reservations,
and the rest of the second timeline is hidden reservations.  It is kept when both plans are updated
alike (`Hides.put`, `Hides.schedule`, `Hides.removeWhere`), and when a hidden reservation of the
second changes (`Hides.put_hidden`).

Agreement has one consequence that is about slots after all: the first timeline has no fewer empty
slots than the second (`Hides.not_full`).
-/

set_option autoImplicit false

namespace FlightApps
namespace Ttc

open StableQueue

variable {p p' : Plan} {X : UInt16 → UInt16 → Prop}

/-- The entries on the agenda, next to execute first. -/
def Plan.pending (p : Plan) : List TimelineEntry := p.agenda.map p.entry

/-- `p'` is `p` with other slots, and with additional reservations under the identifiers `X`. -/
structure Hides (X : UInt16 → UInt16 → Prop) (p p' : Plan) : Prop where
  /-- The first plan satisfies the invariant. -/
  valid : p.Valid
  /-- So does the second. -/
  valid' : p'.Valid
  /-- They have the same entries on the agenda. -/
  pending : p.pending = p'.pending
  /-- They have the same pause flag. -/
  paused : p.paused = p'.paused
  /-- They have the same cycle context. -/
  context : p.context = p'.context
  /-- They have the same visible reservations. -/
  reserved : ∀ x : TimelineEntry, x.status = .reserved → ¬X x.entryId x.groupId →
    ((∃ s, p.entry s = x) ↔ ∃ s, p'.entry s = x)
  /-- The first has nothing to hide. -/
  free : ∀ s, (p.entry s).status ≠ .empty → ¬X (p.entry s).entryId (p.entry s).groupId

/-! ## Reading two plans in agreement -/

theorem Plan.Valid.mem_pending (hv : p.Valid) {x : TimelineEntry} :
    x ∈ p.pending ↔ x.status = .pending ∧ ∃ s, p.entry s = x := by
  rw [Plan.pending, List.mem_map]
  constructor
  · rintro ⟨s, hs, rfl⟩
    exact ⟨(hv.mem s).1 hs, s, rfl⟩
  · rintro ⟨hx, s, rfl⟩
    exact ⟨s, (hv.mem s).2 hx, rfl⟩

/-- They have the same visible entries. -/
theorem Hides.entry_iff (h : Hides X p p') {x : TimelineEntry} (hx : x.status ≠ .empty)
    (hvis : ¬X x.entryId x.groupId) : (∃ s, p.entry s = x) ↔ ∃ s, p'.entry s = x := by
  cases hst : x.status with
  | empty => exact absurd hst hx
  | reserved => exact h.reserved x hst hvis
  | pending =>
    have h1 := h.valid.mem_pending (x := x)
    have h2 := h.valid'.mem_pending (x := x)
    rw [h.pending] at h1
    simp only [hst, true_and] at h1 h2
    exact h1.symm.trans h2

/-- A reservation is in one slot. -/
theorem Plan.Valid.reserved_inj (hv : p.Valid) {a b : Nat} (ha : (p.entry a).status = .reserved)
    (hab : p.entry a = p.entry b) : a = b := by
  have hne : (p.entry a).status ≠ .empty := by rw [ha]; simp
  have hid : isAnonymousEntry (p.entry a).entryId (p.entry a).groupId = false := by
    by_contra hc
    have := hv.anonymous a hne (by simpa using hc)
    rw [ha] at this
    exact absurd this (by simp)
  exact hv.unique a b _ _ hid ⟨hne, rfl, rfl⟩ (by rw [hab]; exact ⟨hab ▸ hne, rfl, rfl⟩)

/-- A slot of the first plan under some identifiers has a counterpart in the second. -/
theorem Hides.holds (h : Hides X p p') {s : Nat} {e g : UInt16} (hh : p.Holds s e g) :
    ∃ s', p'.Holds s' e g ∧ p'.entry s' = p.entry s := by
  obtain ⟨s', hs'⟩ := (h.entry_iff hh.1 (h.free s hh.1)).1 ⟨s, rfl⟩
  exact ⟨s', by rw [Plan.Holds, hs']; exact hh, hs'⟩

theorem Hides.holds' (h : Hides X p p') {s : Nat} {e g : UInt16} (hvis : ¬X e g)
    (hh : p'.Holds s e g) : ∃ s', p.Holds s' e g ∧ p.entry s' = p'.entry s := by
  have hvis' : ¬X (p'.entry s).entryId (p'.entry s).groupId := by rw [hh.2.1, hh.2.2]; exact hvis
  obtain ⟨s', hs'⟩ := (h.entry_iff hh.1 hvis').2 ⟨s, rfl⟩
  exact ⟨s', by rw [Plan.Holds, hs']; exact hh, hs'⟩

/-- The slots in use. -/
def Plan.used (p : Plan) : List Nat :=
  (List.range maxCommandEntries).filter fun s => (p.entry s).status != .empty

/-- The slots in use are those on the agenda and the reserved ones. -/
theorem Plan.Valid.length_used (hv : p.Valid) : p.used.length = p.agenda.length +
    ((List.range maxCommandEntries).filter fun s => (p.entry s).status == .reserved).length := by
  have hperm : p.used.Perm (p.agenda ++
      (List.range maxCommandEntries).filter fun s => (p.entry s).status == .reserved) := by
    have hnodup : (p.agenda ++ (List.range maxCommandEntries).filter
        fun s => (p.entry s).status == .reserved).Nodup := by
      refine List.nodup_append.2 ⟨hv.nodup, List.nodup_range.filter _, ?_⟩
      rintro a ha b hb rfl
      have hpend : (p.entry a).status = .pending := (hv.mem a).1 ha
      simp [hpend] at hb
    refine (List.perm_ext_iff_of_nodup (List.nodup_range.filter _) hnodup).2 fun s => ?_
    rw [List.mem_append, hv.mem, List.mem_filter, List.mem_filter, List.mem_range]
    constructor
    · rintro ⟨hs, hst⟩
      cases hc : (p.entry s).status <;> simp_all
    · rintro (hst | ⟨hs, hst⟩)
      · exact ⟨hv.lt_of_status (by rw [hst]; simp), by simp [hst]⟩
      · exact ⟨hs, by simp_all⟩
  rw [hperm.length_eq, List.length_append]

/-- **The first plan has no fewer empty slots than the second.** -/
theorem Hides.length_used_le (h : Hides X p p') : p.used.length ≤ p'.used.length := by
  rw [h.valid.length_used, h.valid'.length_used]
  have hag : p.agenda.length = p'.agenda.length := by
    have := congrArg List.length h.pending
    simpa [Plan.pending] using this
  -- a visible reservation has a counterpart, and its identifiers tell it from the others
  have hids : ((List.range maxCommandEntries).filter fun s => (p.entry s).status == .reserved).map
        (fun s => p.entry s) ⊆
      ((List.range maxCommandEntries).filter fun s => (p'.entry s).status == .reserved).map
        (fun s => p'.entry s) := by
    intro x hx
    obtain ⟨s, hs, rfl⟩ := List.mem_map.1 hx
    have hst : (p.entry s).status = .reserved := by simpa using (List.mem_filter.1 hs).2
    have hne : (p.entry s).status ≠ .empty := by rw [hst]; simp
    obtain ⟨s', hs'⟩ := (h.reserved _ hst (h.free s hne)).1 ⟨s, rfl⟩
    refine List.mem_map.2 ⟨s', List.mem_filter.2 ⟨?_, by rw [hs', hst]; rfl⟩, hs'⟩
    exact List.mem_range.2 (h.valid'.lt_of_status (by rw [hs']; exact hne))
  have hnodup : (((List.range maxCommandEntries).filter
      fun s => (p.entry s).status == .reserved).map (fun s => p.entry s)).Nodup := by
    refine List.Nodup.map_on (fun a ha b _ hab => ?_) (List.nodup_range.filter _)
    exact h.valid.reserved_inj (by simpa using (List.mem_filter.1 ha).2) hab
  have := (List.subperm_of_subset hnodup hids).length_le
  rw [List.length_map, List.length_map] at this
  omega

theorem full_iff {t : Timeline} : full t = true ↔ t.plan.used.length = maxCommandEntries := by
  have hlen : t.plan.used.length = maxCommandEntries ↔
      ∀ s, s < maxCommandEntries → (t.entry s).status ≠ .empty := by
    have h := List.length_filter_eq_length_iff (l := List.range maxCommandEntries)
      (p := fun s => (t.entry s).status != .empty)
    simpa [Plan.used] using h
  rw [hlen, full, beq_iff_eq]
  rcases findEmptySlot_cases t with ⟨h, hall⟩ | ⟨h, hempty⟩
  · exact iff_of_true h hall
  · exact iff_of_false (Nat.ne_of_lt h) fun hall => hall _ h hempty

/-- If the second plan has room, so has the first. -/
theorem Hides.not_full {t t' : Timeline} (h : Hides X t.plan t'.plan) (hroom : full t' = false) :
    full t = false := by
  by_contra hc
  rw [Bool.not_eq_false, full_iff] at hc
  have hle := h.length_used_le
  have hmax : t'.plan.used.length ≤ maxCommandEntries := by
    have := List.length_filter_le (fun s => (t'.plan.entry s).status != .empty)
      (List.range maxCommandEntries)
    rwa [List.length_range] at this
  have hfull : full t' = true := full_iff.2 (by omega)
  rw [hroom] at hfull
  exact absurd hfull Bool.false_ne_true

/-! ## Updating two plans alike -/

/-- What reservations there are after a slot is overwritten. -/
theorem Plan.Valid.exists_update (hv : p.Valid) {slot : Nat} {x y e : TimelineEntry}
    (hy : p.entry slot = y) (hx : x.status = .reserved) :
    (∃ s, Function.update p.entry slot e s = x) ↔ e = x ∨ (x ≠ y ∧ ∃ s, p.entry s = x) := by
  constructor
  · rintro ⟨s, hs⟩
    by_cases he : s = slot
    · rw [he, Function.update_self] at hs
      exact Or.inl hs
    · rw [Function.update_of_ne he] at hs
      refine Or.inr ⟨fun hxy => he ?_, s, hs⟩
      exact hv.reserved_inj (by rw [hs]; exact hx) (by rw [hs, hy, hxy])
  · rintro (he | ⟨hne, s, hs⟩)
    · exact ⟨slot, by rw [Function.update_self, he]⟩
    · refine ⟨s, ?_⟩
      rw [Function.update_of_ne (fun he => hne (by rw [← hs, he, hy]))]
      exact hs

theorem Plan.pending_congr {q : Plan} (hag : q.agenda = p.agenda)
    (he : ∀ s ∈ p.agenda, q.entry s = p.entry s) : q.pending = p.pending := by
  rw [Plan.pending, Plan.pending, hag]
  exact List.map_congr_left he

theorem Plan.Valid.pending_put (hv : p.Valid) {slot : Nat} (hold : (p.entry slot).status ≠ .pending)
    (e : TimelineEntry) : (p.put slot e).pending = p.pending := by
  refine Plan.pending_congr rfl fun s hs => ?_
  have hne : s ≠ slot := fun he => hv.notMem hold (he ▸ hs)
  rw [Plan.put_entry, if_neg hne]

/-- Scheduling in terms of entries: no slot matters. -/
theorem Plan.Valid.pending_schedule (hv : p.Valid) {slot : Nat}
    (hold : (p.entry slot).status ≠ .pending) (e : TimelineEntry) :
    (p.schedule slot e).pending = enqueue TimelineEntry.timeTag e.timeTag e p.pending := by
  have hne : ∀ s ∈ p.agenda, s ≠ slot := fun s hs he => hv.notMem hold (he ▸ hs)
  have hself : (p.schedule slot e).entry slot = e := Function.update_self ..
  have hsame : ∀ s ∈ p.agenda, (p.schedule slot e).entry s = p.entry s := fun s hs => by
    rw [Plan.schedule_entry, if_neg (hne s hs)]
  have h : (p.schedule slot e).pending = enqueue TimelineEntry.timeTag e.timeTag
      ((p.schedule slot e).entry slot) (p.agenda.map (p.schedule slot e).entry) :=
    map_enqueue e.timeTag slot fun s hs => by rw [hsame s hs]
  rw [hself, List.map_congr_left hsame] at h
  exact h

/-- Overwrite slots that hold the same. -/
theorem Hides.put (h : Hides X p p') {slot slot' : Nat} {e y : TimelineEntry}
    (hy : p.entry slot = y) (hy' : p'.entry slot' = y) (hold : y.status ≠ .pending)
    (hvis : e.status ≠ .empty → ¬X e.entryId e.groupId) (hv : (p.put slot e).Valid)
    (hv' : (p'.put slot' e).Valid) : Hides X (p.put slot e) (p'.put slot' e) where
  valid := hv
  valid' := hv'
  pending := by
    rw [h.valid.pending_put (by rw [hy]; exact hold),
      h.valid'.pending_put (by rw [hy']; exact hold)]
    exact h.pending
  paused := h.paused
  context := h.context
  reserved x hx hxvis := by
    have h1 := h.valid.exists_update (e := e) hy hx
    have h2 := h.valid'.exists_update (e := e) hy' hx
    rw [← h.reserved x hx hxvis] at h2
    exact h1.trans h2.symm
  free s hs := by
    rw [Plan.put_entry] at hs ⊢
    split
    · rename_i he; rw [if_pos he] at hs; exact hvis hs
    · rename_i he; rw [if_neg he] at hs; exact h.free s hs

/-- Schedule an entry in slots that hold the same. -/
theorem Hides.schedule (h : Hides X p p') {slot slot' : Nat} {e y : TimelineEntry}
    (hy : p.entry slot = y) (hy' : p'.entry slot' = y) (hold : y.status ≠ .pending)
    (hvis : ¬X e.entryId e.groupId) (hv : (p.schedule slot e).Valid)
    (hv' : (p'.schedule slot' e).Valid) : Hides X (p.schedule slot e) (p'.schedule slot' e) where
  valid := hv
  valid' := hv'
  pending := by
    rw [h.valid.pending_schedule (by rw [hy]; exact hold),
      h.valid'.pending_schedule (by rw [hy']; exact hold), h.pending]
  paused := h.paused
  context := h.context
  reserved x hx hxvis := by
    have h1 := h.valid.exists_update (e := e) hy hx
    have h2 := h.valid'.exists_update (e := e) hy' hx
    rw [← h.reserved x hx hxvis] at h2
    exact h1.trans h2.symm
  free s hs := by
    rw [Plan.schedule_entry] at hs ⊢
    split
    · exact hvis
    · rename_i he; rw [if_neg he] at hs; exact h.free s hs

/-- Overwrite a hidden slot, or an empty one by something hidden. -/
theorem Hides.put_hidden (h : Hides X p p') {slot : Nat} {e : TimelineEntry}
    (hold : (p'.entry slot).status ≠ .pending)
    (hy : (p'.entry slot).status = .reserved → X (p'.entry slot).entryId (p'.entry slot).groupId)
    (he : e.status = .reserved → X e.entryId e.groupId) (hv' : (p'.put slot e).Valid) :
    Hides X p (p'.put slot e) where
  valid := h.valid
  valid' := hv'
  pending := by rw [h.valid'.pending_put hold]; exact h.pending
  paused := h.paused
  context := h.context
  reserved x hx hxvis := by
    have hne : e ≠ x := fun hc => hxvis (hc ▸ he (hc ▸ hx))
    have hne' : x ≠ p'.entry slot := fun hc => hxvis (hc ▸ hy (hc ▸ hx))
    have h2 := h.valid'.exists_update (e := e) (rfl : p'.entry slot = _) hx
    simp only [hne, false_or, ne_eq, hne', not_false_eq_true, true_and] at h2
    exact (h.reserved x hx hxvis).trans h2.symm
  free := h.free

/-- Strike off slots such that what is left on the agendas is the same. -/
theorem Hides.removeAll (h : Hides X p p') {l l' : List Nat} (hl : ∀ s ∈ l, s ∈ p.agenda)
    (hl' : ∀ s ∈ l', s ∈ p'.agenda)
    (hkept : (p.agenda.filter fun s => decide (s ∉ l)).map p.entry =
      (p'.agenda.filter fun s => decide (s ∉ l')).map p'.entry) :
    Hides X (p.removeAll l) (p'.removeAll l') where
  valid := h.valid.removeAll l
  valid' := h.valid'.removeAll l'
  pending := by
    have hmap : ∀ (q : Plan) (k : List Nat), (q.removeAll k).pending =
        (q.agenda.filter fun s => decide (s ∉ k)).map q.entry := by
      intro q k
      refine List.map_congr_left fun s hs => ?_
      have hnot : s ∉ k := of_decide_eq_true (List.mem_filter.1 hs).2
      simp [Plan.removeAll, hnot]
    rw [hmap, hmap]
    exact hkept
  paused := h.paused
  context := h.context
  reserved x hx hxvis := by
    -- the slots struck off are pending before and empty afterwards
    have hsame : ∀ (q : Plan) (k : List Nat), q.Valid → (∀ s ∈ k, s ∈ q.agenda) →
        ∀ s, (q.removeAll k).entry s = x ↔ q.entry s = x := by
      intro q k hv hk s
      simp only [Plan.removeAll]
      split
      · rename_i hs
        have hpend : (q.entry s).status = .pending := (hv.mem s).1 (hk s hs)
        refine iff_of_false (fun hc => ?_) fun hc => ?_
        · rw [← hc] at hx; exact absurd hx (by simp [default])
        · rw [← hc, hpend] at hx; exact absurd hx (by simp)
      · rfl
    simp only [hsame p l h.valid hl, hsame p' l' h.valid' hl']
    exact h.reserved x hx hxvis
  free s hs := by
    simp only [Plan.removeAll] at hs ⊢
    split
    · rename_i hc; rw [if_pos hc] at hs; exact absurd rfl hs
    · rename_i hc; rw [if_neg hc] at hs; exact h.free s hs

/-- Strike off the entries that have a property. -/
theorem Hides.removeWhere (h : Hides X p p') (P : TimelineEntry → Bool) :
    Hides X (p.removeAll (p.agenda.filter fun s => P (p.entry s)))
      (p'.removeAll (p'.agenda.filter fun s => P (p'.entry s))) := by
  refine h.removeAll (fun s hs => List.mem_of_mem_filter hs) (fun s hs => List.mem_of_mem_filter hs)
    ?_
  have hmap : ∀ q : Plan, (q.agenda.filter fun s =>
      decide (s ∉ q.agenda.filter fun s => P (q.entry s))).map q.entry =
        q.pending.filter fun x => !P x := by
    intro q
    rw [Plan.pending, List.filter_map]
    refine congrArg (List.map q.entry) (List.filter_congr fun s hs => ?_)
    simp [hs]
  rw [hmap, hmap, h.pending]

theorem Hides.setPaused (h : Hides X p p') (paused : Bool) :
    Hides X { p with paused := paused } { p' with paused := paused } :=
  { h with
    valid := { h.valid with }
    valid' := { h.valid' with }
    paused := rfl }

theorem Hides.setContext (h : Hides X p p') {c : CycleContext} (hc : c.processingErrors = 0) :
    Hides X { p with context := c } { p' with context := c } :=
  { h with
    valid := { h.valid with noErrors := hc }
    valid' := { h.valid' with noErrors := hc }
    context := rfl }

theorem Hides.tally (h : Hides X p p') (a b d : Nat) : Hides X (p.tally a b d) (p'.tally a b d) :=
  { h with
    valid := h.valid.tally a b d
    valid' := h.valid'.tally a b d
    context := by
      show p.context.tally a b d = p'.context.tally a b d
      rw [h.context] }

end Ttc
end FlightApps
