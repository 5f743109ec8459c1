import FlightApps.Ttc.Hides

/-!
# Reservations are invisible until they are finalized

Take a run, and insert calls that reserve, write and give up slots under identifiers the run never
mentions.  Every call of the run keeps the two timelines in agreement (`Hides`) and is answered
alike (`Hides.perform`), and an inserted call does nothing that shows (`Hides.hidden`).
`reservations_invisible` follows by induction on the run.
-/

set_option autoImplicit false

namespace FlightApps
namespace Ttc

variable {p p' : Plan} {X : UInt16 → UInt16 → Prop}

/-! ## Every call is answered alike -/

/-- The packets transmitted, in order. -/
def packetsOf (es : List Effect) : List Command := (transmitted es).map Prod.snd

/-- The call mentions the identifiers. -/
def Op.mentions (op : Op) (e g : UInt16) : Prop :=
  match op with
  | .addEntry _ e' g' _ _ _ _ _ | .deleteEntry e' g' | .executeEntry e' g' _ | .plumbInit e' g'
  | .plumbWrite e' g' _ _ | .plumbFinalize _ e' g' _ _ _ _ _ _ | .plumbDeleteReserved e' g' =>
    e' = e ∧ g' = g
  | _ => False

/-- Two calls answered alike that leave plans in agreement. -/
structure Alike (X : UInt16 → UInt16 → Prop) (r r' : Outcome) : Prop where
  /-- The status is the same. -/
  status : r.status = r'.status
  /-- The packets transmitted are the same. -/
  packets : packetsOf r.effects = packetsOf r'.effects
  /-- The plans agree. -/
  hides : Hides X r.timeline.plan r'.timeline.plan

variable {t t' : Timeline} {e g : UInt16}

theorem Hides.refuse (h : Hides X t.plan t'.plan) (status : Status) :
    Alike X (.refuse status t) (.refuse status t') := ⟨rfl, rfl, h⟩

theorem perform_valid (hv : t.plan.Valid) (op : Op) : (perform t op).timeline.plan.Valid :=
  (perform_trace hv op).keeps (fun _ _ _ hm hp => hm.valid hp) hv

theorem taken_iff (t : Timeline) (e g : UInt16) :
    taken t e g = true ↔ isAnonymousEntry e g = false ∧ ∃ s, t.plan.Holds s e g := by
  cases hid : isAnonymousEntry e g with
  | true => simp [taken, hid]
  | false =>
    rcases findSlotByEntryId_cases t hid with ⟨hf, hno⟩ | ⟨hf, hh⟩
    · simp [taken, hid, hf, hno]
    · simp only [taken, hid, true_and]
      exact iff_of_true (by simpa using Nat.ne_of_lt hf) ⟨_, hh⟩

theorem Hides.taken (h : Hides X t.plan t'.plan) (hvis : ¬X e g) : taken t e g = taken t' e g := by
  rw [Bool.eq_iff_iff, taken_iff, taken_iff]
  refine and_congr_right fun _ => ⟨fun ⟨s, hs⟩ => ?_, fun ⟨s, hs⟩ => ?_⟩
  · obtain ⟨s', hs', -⟩ := h.holds hs
    exact ⟨s', hs'⟩
  · obtain ⟨s', hs', -⟩ := h.holds' hvis hs
    exact ⟨s', hs'⟩

/-- Whether the timeline is full only shows in the status that says so. -/
theorem addStatus_full {ty : UInt8} {tag : UInt32} {ex : UInt8} {data : List UInt8} {now : UInt32}
    {taken : Bool} (h : addStatus ty tag ex data now taken true ≠ .noEmptySlot) (f : Bool) :
    addStatus ty tag ex data now taken f = addStatus ty tag ex data now taken true := by
  unfold addStatus at h ⊢
  split at h
  · simp [*]
  · split at h
    · simp [*]
    · split at h
      · simp [*]
      · exact absurd rfl h

theorem Hides.addEntry (h : Hides X t.plan t'.plan) (hvis : ¬X e g) (ty : UInt8) (tag : UInt32)
    (st : UInt16) (ex : UInt8) (data : List UInt8) (now : UInt32)
    (hroom : (timelineAddEntry t' ty e g tag st ex data now).status ≠ .noEmptySlot) :
    Alike X (timelineAddEntry t ty e g tag st ex data now)
      (timelineAddEntry t' ty e g tag st ex data now) := by
  have hv1 := perform_valid h.valid (.addEntry ty e g tag st ex data now)
  have hv2 := perform_valid h.valid' (.addEntry ty e g tag st ex data now)
  rw [perform] at hv1 hv2
  rw [timelineAddEntry_eq h.valid] at hv1 ⊢
  rw [timelineAddEntry_eq h.valid'] at hv2 hroom ⊢
  rw [h.taken hvis] at hv1 ⊢
  have hfull : addStatus ty tag ex data now (Ttc.taken t' e g) (full t) =
      addStatus ty tag ex data now (Ttc.taken t' e g) (full t') := by
    cases hf : full t' with
    | false => rw [h.not_full hf]
    | true =>
      refine addStatus_full (fun hc => hroom ?_) _
      dsimp only
      rw [hf, hc]
      rfl
  dsimp only at hv1 hv2 hroom ⊢
  rw [hfull] at hv1 ⊢
  split
  · rename_i hok
    rw [if_pos hok] at hv1 hv2
    -- the call succeeds in both, in slots that are empty
    have hempty : ∀ t : Timeline, full t = false → findEmptySlot t < maxCommandEntries ∧
        (t.entry (findEmptySlot t)).status = .empty := by
      intro t ht
      rcases findEmptySlot_cases t with ⟨hc, -⟩ | hc
      · simp [full, hc] at ht
      · exact hc
    have hf' : full t' = false := by
      by_contra hc
      rw [Bool.not_eq_false] at hc
      exact addStatus_ne_success (Or.inr hc) hok
    obtain ⟨hs, he⟩ := hempty t (h.not_full hf')
    obtain ⟨hs', he'⟩ := hempty t' hf'
    have hc1 : t.count < maxCommandEntries := by
      simpa using h.valid.length_lt hs (by rw [plan_entry, he]; simp)
    have hc2 : t'.count < maxCommandEntries := by
      simpa using h.valid'.length_lt hs' (by rw [plan_entry, he']; simp)
    rw [plan_commit h.valid.sorted hs hc1] at hv1
    rw [plan_commit h.valid'.sorted hs' hc2] at hv2
    refine ⟨rfl, rfl, ?_⟩
    rw [plan_commit h.valid.sorted hs hc1, plan_commit h.valid'.sorted hs' hc2]
    exact h.schedule (h.valid.blank _ he) (h.valid'.blank _ he') (by simp [default]) hvis hv1 hv2
  · exact h.refuse _

/-- The slots under the same identifiers hold the same. -/
theorem Hides.counterpart (h : Hides X p p') (hid : isAnonymousEntry e g = false) {s s' : Nat}
    (hs : p.Holds s e g) (hs' : p'.Holds s' e g) : p'.entry s' = p.entry s := by
  obtain ⟨s'', hs'', he⟩ := h.holds hs
  rw [← he, h.valid'.unique s' s'' e g hid hs' hs'']

/-- The entry has the identifiers. -/
def named (e g : UInt16) (x : TimelineEntry) : Bool := x.entryId == e && x.groupId == g

/-- Striking off the entry with given identifiers. -/
theorem Plan.Valid.remove_eq (hv : p.Valid) (hid : isAnonymousEntry e g = false) {s : Nat}
    (hs : s ∈ p.agenda) (hh : p.Holds s e g) :
    p.remove s = p.removeAll (p.agenda.filter fun s => named e g (p.entry s)) := by
  have hone : p.remove s = p.removeAll [s] := by
    rw [Plan.removeAll_cons hv.nodup, Plan.removeAll_nil]
  rw [hone]
  refine Plan.removeAll_congr fun s' => ?_
  simp only [List.mem_singleton, List.mem_filter, named, Bool.and_eq_true, beq_iff_eq]
  constructor
  · rintro rfl
    exact ⟨hs, hh.2⟩
  · rintro ⟨hs', hn⟩
    exact hv.unique s' s e g hid ⟨by rw [(hv.mem s').1 hs']; simp, hn⟩ hh

theorem Hides.deleteEntry (h : Hides X t.plan t'.plan) (hvis : ¬X e g) :
    Alike X (timelineDeleteEntry t e g) (timelineDeleteEntry t' e g) := by
  cases hid : isAnonymousEntry e g with
  | true => rw [timelineDeleteEntry, timelineDeleteEntry, if_pos hid, if_pos hid]; exact h.refuse _
  | false =>
    rcases timelineDeleteEntry_cases h.valid e g with
      ⟨ha, -⟩ | ⟨-, hno, h1⟩ | ⟨-, s, hs, hh, hst, he, hp⟩
    · rw [hid] at ha; exact absurd ha Bool.false_ne_true
    · rcases timelineDeleteEntry_cases h.valid' e g with
        ⟨ha, -⟩ | ⟨-, -, h2⟩ | ⟨-, s', hs', hh', -⟩
      · rw [hid] at ha; exact absurd ha Bool.false_ne_true
      · rw [h1, h2]; exact h.refuse _
      · obtain ⟨s, hs, he⟩ := h.holds' hvis hh'
        refine absurd hs (hno s ((h.valid.mem s).2 ?_))
        rw [he]
        exact (h.valid'.mem s').1 hs'
    · rcases timelineDeleteEntry_cases h.valid' e g with
        ⟨ha, -⟩ | ⟨-, hno', -⟩ | ⟨-, s', hs', hh', hst', he', hp'⟩
      · rw [hid] at ha; exact absurd ha Bool.false_ne_true
      · obtain ⟨s', hs', he'⟩ := h.holds hh
        refine absurd hs' (hno' s' ((h.valid'.mem s').2 ?_))
        rw [he']
        exact (h.valid.mem s).1 hs
      · refine ⟨by rw [hst, hst'], by rw [he, he']; rfl, ?_⟩
        rw [hp, hp', h.valid.remove_eq hid hs hh, h.valid'.remove_eq hid hs' hh']
        exact h.removeWhere (named e g)

/-- The entries of a group are the same in both. -/
theorem Hides.groupOf (h : Hides X p p') (g : UInt16) :
    (p.groupOf g p.agenda).map p.entry = (p'.groupOf g p'.agenda).map p'.entry := by
  have hmap : ∀ q : Plan, (q.groupOf g q.agenda).map q.entry = q.pending.filter (inGroup g) := by
    intro q
    rw [Plan.pending, List.filter_map]
    rfl
  rw [hmap, hmap, h.pending]

theorem Hides.length_groupOf (h : Hides X t.plan t'.plan) (g : UInt16) :
    (t.plan.groupOf g t.agenda).length = (t'.plan.groupOf g t'.agenda).length := by
  simpa using congrArg List.length (h.groupOf g)

theorem Hides.deleteGroup (h : Hides X t.plan t'.plan) (g : UInt16) :
    Alike X (timelineDeleteGroup t g).1 (timelineDeleteGroup t' g).1 := by
  obtain ⟨hst, hp, he⟩ := timelineDeleteGroup_spec h.valid g
  obtain ⟨hst', hp', he'⟩ := timelineDeleteGroup_spec h.valid' g
  have hquiet : ∀ l : List Nat, packetsOf (l.map fun s => .left s .deleted) = [] := fun l => by
    simp [packetsOf, transmitted, List.filterMap_map]
  refine ⟨?_, by rw [he, he', hquiet, hquiet], ?_⟩
  · rw [hst, hst', h.length_groupOf]
  · rw [hp, hp']
    exact h.removeWhere (inGroup g)

theorem Hides.deleteAllEntries (h : Hides X t.plan t'.plan) :
    Alike X (timelineDeleteAllEntries t) (timelineDeleteAllEntries t') := by
  have hquiet : ∀ l : List Nat, packetsOf (l.map fun s => .left s .deleted) = [] := fun l => by
    simp [packetsOf, transmitted, List.filterMap_map]
  refine ⟨rfl, (hquiet _).trans (hquiet _).symm, ?_⟩
  rw [plan_timelineDeleteAllEntries h.valid, plan_timelineDeleteAllEntries h.valid']
  have hall : ∀ q : Plan, (q.agenda.filter fun _ => true) = q.agenda := fun q =>
    List.filter_eq_self.2 fun _ _ => rfl
  have hr := h.removeWhere fun _ => true
  rwa [hall, hall] at hr

theorem packetsOf_sendEffects (p : Plan) (persist : Bool) (slots : List Nat) :
    packetsOf (slots.flatMap (sendEffects p persist)) =
      (slots.map p.entry).map TimelineEntry.command := by
  induction slots with
  | nil => rfl
  | cons slot slots ih =>
    rw [List.flatMap_cons, packetsOf, transmitted_append, List.map_append, ← packetsOf, ← packetsOf,
      ih]
    cases persist <;> rfl

theorem Hides.executeEntry (h : Hides X t.plan t'.plan) (hvis : ¬X e g) (persist : Bool) :
    Alike X (timelineExecuteEntry t e g persist) (timelineExecuteEntry t' e g persist) := by
  cases hid : isAnonymousEntry e g with
  | true =>
    rw [timelineExecuteEntry, timelineExecuteEntry, if_pos hid, if_pos hid]
    exact h.refuse _
  | false =>
    have hsame : ∀ {s s'}, t.plan.Holds s e g → t'.plan.Holds s' e g →
        (t'.plan.entry s').status = (t.plan.entry s).status := fun hs hs' => by
      rw [h.counterpart hid hs hs']
    rcases timelineExecuteEntry_cases h.valid e g persist with
      ⟨ha, -⟩ | ⟨-, hno, h1⟩ | ⟨-, ⟨s, hres⟩, h1⟩ | ⟨-, s, hs, hh, hst, he, hp⟩
    · rw [hid] at ha; exact absurd ha Bool.false_ne_true
    · rcases timelineExecuteEntry_cases h.valid' e g persist with
        ⟨ha, -⟩ | ⟨-, -, h2⟩ | ⟨-, ⟨s', hres'⟩, -⟩ | ⟨-, s', -, hh', -⟩
      · rw [hid] at ha; exact absurd ha Bool.false_ne_true
      · rw [h1, h2]; exact h.refuse _
      · obtain ⟨s, hs, -⟩ := h.holds' hvis hres'.holds
        exact absurd hs (hno s)
      · obtain ⟨s, hs, -⟩ := h.holds' hvis hh'
        exact absurd hs (hno s)
    · rcases timelineExecuteEntry_cases h.valid' e g persist with
        ⟨ha, -⟩ | ⟨-, hno', -⟩ | ⟨-, -, h2⟩ | ⟨-, s', hs', hh', -⟩
      · rw [hid] at ha; exact absurd ha Bool.false_ne_true
      · obtain ⟨s', hs', -⟩ := h.holds hres.holds
        exact absurd hs' (hno' s')
      · rw [h1, h2]; exact h.refuse _
      · have hst := hsame hres.holds hh'
        rw [hres.1, (h.valid'.mem s').1 hs'] at hst
        exact absurd hst (by simp)
    · rcases timelineExecuteEntry_cases h.valid' e g persist with
        ⟨ha, -⟩ | ⟨-, hno', -⟩ | ⟨-, ⟨s', hres'⟩, -⟩ | ⟨-, s', hs', hh', hst', he', hp'⟩
      · rw [hid] at ha; exact absurd ha Bool.false_ne_true
      · obtain ⟨s', hs', -⟩ := h.holds hh
        exact absurd hs' (hno' s')
      · have hst := hsame hh hres'.holds
        rw [hres'.1, (h.valid.mem s).1 hs] at hst
        exact absurd hst (by simp)
      · refine ⟨by rw [hst, hst'], ?_, ?_⟩
        · have hpk := packetsOf_sendEffects t.plan persist [s]
          have hpk' := packetsOf_sendEffects t'.plan persist [s']
          simp only [List.flatMap_singleton, List.map_cons, List.map_nil] at hpk hpk'
          rw [he, he', hpk, hpk', h.counterpart hid hh hh']
        · rw [hp, hp']
          refine Hides.tally ?_ 1 0 0
          cases persist with
          | true => exact h
          | false =>
            show Hides X (t.plan.remove s) (t'.plan.remove s')
            rw [h.valid.remove_eq hid hs hh, h.valid'.remove_eq hid hs' hh']
            exact h.removeWhere (named e g)

theorem Hides.executeGroup (h : Hides X t.plan t'.plan) (g : UInt16) (persist : Bool) :
    Alike X (timelineExecuteGroup t g persist) (timelineExecuteGroup t' g persist) := by
  obtain ⟨hst, hp, he⟩ := timelineExecuteGroup_spec h.valid g persist
  obtain ⟨hst', hp', he'⟩ := timelineExecuteGroup_spec h.valid' g persist
  have hlen := h.length_groupOf g
  refine ⟨?_, ?_, ?_⟩
  · have hempty : (t.plan.groupOf g t.agenda).isEmpty = (t'.plan.groupOf g t'.agenda).isEmpty := by
      rw [Bool.eq_iff_iff, List.isEmpty_iff_length_eq_zero, List.isEmpty_iff_length_eq_zero, hlen]
    rw [hst, hst', hempty]
  · rw [he, he', packetsOf_sendEffects, packetsOf_sendEffects]
    exact congrArg _ (h.groupOf g)
  · rw [hp, hp', hlen]
    refine Hides.tally ?_ _ 0 0
    cases persist with
    | true => exact h
    | false => exact h.removeWhere (inGroup g)

/-! ## Plumbing alike -/

theorem Hides.reserves (h : Hides X p p') {s : Nat} (hs : p.Reserves s e g) :
    ∃ s', p'.Reserves s' e g := by
  obtain ⟨s', hs', he⟩ := h.holds hs.holds
  exact ⟨s', by rw [he]; exact hs.1, hs'.2⟩

theorem Hides.reserves' (h : Hides X p p') (hvis : ¬X e g) {s' : Nat} (hs' : p'.Reserves s' e g) :
    ∃ s, p.Reserves s e g := by
  obtain ⟨s, hs, he⟩ := h.holds' hvis hs'.holds
  exact ⟨s, by rw [he]; exact hs'.1, hs.2⟩

theorem Hides.plumbInit (h : Hides X t.plan t'.plan) (hvis : ¬X e g)
    (hroom : (plumbTimelineAddEntryInit t' e g).status ≠ .noEmptySlot) :
    Alike X (plumbTimelineAddEntryInit t e g) (plumbTimelineAddEntryInit t' e g) := by
  have hv1 := perform_valid h.valid (.plumbInit e g)
  have hv2 := perform_valid h.valid' (.plumbInit e g)
  rw [perform] at hv1 hv2
  cases hid : isAnonymousEntry e g with
  | true =>
    rw [plumbTimelineAddEntryInit, plumbTimelineAddEntryInit, if_pos hid, if_pos hid]
    exact h.refuse _
  | false =>
    rcases plumbInit_cases t' e g with
      ⟨ha, -⟩ | ⟨-, ⟨s', hs'⟩, h2⟩ | ⟨-, -, -, h2⟩ | ⟨-, hno', hf', hs', he', h2⟩
    · rw [hid] at ha; exact absurd ha Bool.false_ne_true
    · obtain ⟨s, hs, -⟩ := h.holds' hvis hs'
      rcases plumbInit_cases t e g with ⟨ha, -⟩ | ⟨-, -, h1⟩ | ⟨-, hno, -⟩ | ⟨-, hno, -⟩
      · rw [hid] at ha; exact absurd ha Bool.false_ne_true
      · rw [h1, h2]; exact h.refuse _
      · exact absurd hs (hno s)
      · exact absurd hs (hno s)
    · rw [h2] at hroom; exact absurd rfl hroom
    · rcases plumbInit_cases t e g with
        ⟨ha, -⟩ | ⟨-, ⟨s, hs⟩, -⟩ | ⟨-, -, hf, -⟩ | ⟨-, -, -, hs, he, h1⟩
      · rw [hid] at ha; exact absurd ha Bool.false_ne_true
      · obtain ⟨s', hs', -⟩ := h.holds hs
        exact absurd hs' (hno' s')
      · rw [h.not_full hf'] at hf; exact absurd hf Bool.false_ne_true
      · rw [h1, plan_setEntry t hs] at hv1
        rw [h2, plan_setEntry t' hs'] at hv2
        rw [h1, h2]
        refine ⟨rfl, rfl, ?_⟩
        rw [plan_setEntry t hs, plan_setEntry t' hs']
        exact h.put (h.valid.blank _ he) (h.valid'.blank _ he') (by simp [default]) (fun _ => hvis)
          hv1 hv2

/-- A call on a reserved slot under the given identifiers: refused if there is none, and otherwise
what it does with the slot. -/
def Found (t : Timeline) (e g : UInt16) (refused : Status) (act : Nat → Outcome) (r : Outcome) :
    Prop :=
  (∀ s, ¬t.plan.Reserves s e g) ∧ r = .refuse refused t ∨
    ∃ s < maxCommandEntries, t.plan.Reserves s e g ∧ r = act s

/-- Both timelines have a reservation under visible identifiers, with the same entry, or neither. -/
theorem Hides.found (h : Hides X t.plan t'.plan) (hid : isAnonymousEntry e g = false)
    (hvis : ¬X e g) {refused : Status} {act act' : Nat → Outcome} {r r' : Outcome}
    (hr : Found t e g refused act r) (hr' : Found t' e g refused act' r')
    (hact : ∀ s s', s < maxCommandEntries → s' < maxCommandEntries → t.plan.Reserves s e g →
      t'.plan.Reserves s' e g → t'.entry s' = t.entry s → r = act s → r' = act' s' →
      Alike X (act s) (act' s')) : Alike X r r' := by
  rcases hr with ⟨hno, h1⟩ | ⟨s, hs, hres, h1⟩
  · rcases hr' with ⟨-, h2⟩ | ⟨s', -, hres', -⟩
    · rw [h1, h2]; exact h.refuse _
    · obtain ⟨s, hs⟩ := h.reserves' hvis hres'
      exact absurd hs (hno s)
  · rcases hr' with ⟨hno', -⟩ | ⟨s', hs', hres', h2⟩
    · obtain ⟨s', hs'⟩ := h.reserves hres
      exact absurd hs' (hno' s')
    · have hent : t'.entry s' = t.entry s := h.counterpart hid hres.holds hres'.holds
      have halike := hact s s' hs hs' hres hres' hent h1 h2
      rwa [← h1, ← h2] at halike

theorem plumbWrite_found (t : Timeline) (hid : isAnonymousEntry e g = false) (chunk : List UInt8)
    (offset : Nat) :
    Found t e g .entryNotFound
      (fun s => if offset + chunk.length ≤ maxCommandSize then
          ⟨.success, t.setEntry s
            { t.entry s with command := Cells.copy (t.entry s).command offset chunk }, []⟩
        else .refuse .writeOutOfBounds t)
      (plumbTimelineAddEntryWrite t e g chunk offset) := by
  rcases plumbWrite_cases t e g chunk offset with
    ⟨ha, -⟩ | ⟨-, hno, h⟩ | ⟨-, s, hs, hres, hb, h⟩ | ⟨-, s, hs, hres, hb, h⟩
  · rw [hid] at ha; exact absurd ha Bool.false_ne_true
  · exact .inl ⟨hno, h⟩
  · exact .inr ⟨s, hs, hres, h.trans (if_neg (by omega)).symm⟩
  · exact .inr ⟨s, hs, hres, h.trans (if_pos hb).symm⟩

theorem plumbFinalize_found (hv : t.plan.Valid) (hid : isAnonymousEntry e g = false) (ty : UInt8)
    (tag : UInt32) (st : UInt16) (ex : UInt8) (size : Nat) (now now' : UInt32) :
    Found t e g (finalizeStatus ty tag ex size now none)
      (fun s =>
        let status := finalizeStatus ty tag ex size now (some (t.entry s).command)
        if status = .success then
          ⟨.success, t.commit s ((t.entry s).finalize (absTimeTag ty tag now') st ex size),
            [.committed s]⟩
        else .refuse status t)
      (plumbTimelineAddEntryFinalize t ty e g tag st ex size now now') := by
  rcases plumbFinalize_cases hv ty e g tag st ex size now now' with
    ⟨ha, -⟩ | ⟨-, hno, h, -⟩ | ⟨-, s, hs, hres, h⟩
  · rw [hid] at ha; exact absurd ha Bool.false_ne_true
  · exact .inl ⟨hno, h⟩
  · exact .inr ⟨s, hs, hres, h⟩

theorem plumbDeleteReserved_found (t : Timeline) (hid : isAnonymousEntry e g = false) :
    Found t e g .entryNotFound (fun s => ⟨.success, cancelSlot t s, []⟩)
      (plumbTimelineDeleteReservedEntry t e g) := by
  rcases plumbDeleteReserved_cases t e g with ⟨ha, -⟩ | ⟨-, hno, h⟩ | ⟨-, s, hs, hres, h⟩
  · rw [hid] at ha; exact absurd ha Bool.false_ne_true
  · exact .inl ⟨hno, h⟩
  · exact .inr ⟨s, hs, hres, h⟩

theorem Hides.plumbWrite (h : Hides X t.plan t'.plan) (hvis : ¬X e g) (chunk : List UInt8)
    (offset : Nat) :
    Alike X (plumbTimelineAddEntryWrite t e g chunk offset)
      (plumbTimelineAddEntryWrite t' e g chunk offset) := by
  have hv1 := perform_valid h.valid (.plumbWrite e g chunk offset)
  have hv2 := perform_valid h.valid' (.plumbWrite e g chunk offset)
  rw [perform] at hv1 hv2
  cases hid : isAnonymousEntry e g with
  | true =>
    rw [plumbTimelineAddEntryWrite, plumbTimelineAddEntryWrite, if_pos hid, if_pos hid]
    exact h.refuse _
  | false =>
    refine h.found hid hvis (plumbWrite_found t hid chunk offset)
      (plumbWrite_found t' hid chunk offset) fun s s' hs hs' hres hres' hent h1 h2 => ?_
    rw [h1] at hv1
    rw [h2] at hv2
    dsimp only at hv1 hv2 ⊢
    rw [hent] at hv2 ⊢
    split
    · rename_i hb
      rw [if_pos hb, plan_setEntry t hs] at hv1
      rw [if_pos hb, plan_setEntry t' hs'] at hv2
      refine ⟨rfl, rfl, ?_⟩
      rw [plan_setEntry t hs, plan_setEntry t' hs']
      have hids : ¬X (t.plan.entry s).entryId (t.plan.entry s).groupId := by
        rw [hres.2.1, hres.2.2]
        exact hvis
      exact h.put rfl hent (by rw [hres.1]; simp) (fun _ => hids) hv1 hv2
    · exact h.refuse _

theorem Hides.plumbFinalize (h : Hides X t.plan t'.plan) (hvis : ¬X e g) (ty : UInt8) (tag : UInt32)
    (st : UInt16) (ex : UInt8) (size : Nat) (now now' : UInt32) :
    Alike X (plumbTimelineAddEntryFinalize t ty e g tag st ex size now now')
      (plumbTimelineAddEntryFinalize t' ty e g tag st ex size now now') := by
  have hv1 := perform_valid h.valid (.plumbFinalize ty e g tag st ex size now now')
  have hv2 := perform_valid h.valid' (.plumbFinalize ty e g tag st ex size now now')
  rw [perform] at hv1 hv2
  cases hid : isAnonymousEntry e g with
  | true =>
    rw [plumbTimelineAddEntryFinalize, plumbTimelineAddEntryFinalize, if_pos hid, if_pos hid]
    exact h.refuse _
  | false =>
    refine h.found hid hvis (plumbFinalize_found h.valid hid ty tag st ex size now now')
      (plumbFinalize_found h.valid' hid ty tag st ex size now now')
      fun s s' hs hs' hres hres' hent h1 h2 => ?_
    rw [h1] at hv1
    rw [h2] at hv2
    dsimp only at hv1 hv2 ⊢
    rw [hent] at hv2 ⊢
    split
    · rename_i hok
      have hold : (t.plan.entry s).status ≠ .pending := by rw [hres.1]; simp
      have hold' : (t'.plan.entry s').status ≠ .pending := by rw [hres'.1]; simp
      have hc : t.count < maxCommandEntries := by simpa using h.valid.length_lt hs hold
      have hc' : t'.count < maxCommandEntries := by simpa using h.valid'.length_lt hs' hold'
      rw [if_pos hok, plan_commit h.valid.sorted hs hc] at hv1
      rw [if_pos hok, plan_commit h.valid'.sorted hs' hc'] at hv2
      refine ⟨rfl, rfl, ?_⟩
      rw [plan_commit h.valid.sorted hs hc, plan_commit h.valid'.sorted hs' hc']
      refine h.schedule rfl hent hold ?_ hv1 hv2
      show ¬X (t.plan.entry s).entryId (t.plan.entry s).groupId
      rw [hres.2.1, hres.2.2]
      exact hvis
    · exact h.refuse _

theorem Hides.plumbDeleteReserved (h : Hides X t.plan t'.plan) (hvis : ¬X e g) :
    Alike X (plumbTimelineDeleteReservedEntry t e g) (plumbTimelineDeleteReservedEntry t' e g) := by
  have hv1 := perform_valid h.valid (.plumbDeleteReserved e g)
  have hv2 := perform_valid h.valid' (.plumbDeleteReserved e g)
  rw [perform] at hv1 hv2
  cases hid : isAnonymousEntry e g with
  | true =>
    rw [plumbTimelineDeleteReservedEntry, plumbTimelineDeleteReservedEntry, if_pos hid, if_pos hid]
    exact h.refuse _
  | false =>
    refine h.found hid hvis (plumbDeleteReserved_found t hid) (plumbDeleteReserved_found t' hid)
      fun s s' hs hs' hres hres' hent h1 h2 => ?_
    rw [h1, plan_cancelSlot t hs] at hv1
    rw [h2, plan_cancelSlot t' hs'] at hv2
    refine ⟨rfl, rfl, ?_⟩
    rw [plan_cancelSlot t hs, plan_cancelSlot t' hs']
    exact h.put rfl hent (by rw [hres.1]; simp) (fun hc => absurd rfl hc) hv1 hv2

/-! ## Purging and processing alike -/

/-- A plan with nothing in it. -/
theorem Hides.of_blank {q : Plan} (hv : q.Valid) (hq : ∀ s, q.entry s = default) : Hides X q q where
  valid := hv
  valid' := hv
  pending := rfl
  paused := rfl
  context := rfl
  reserved _ _ _ := Iff.rfl
  free s hs := by rw [hq s] at hs; exact absurd rfl hs

theorem Hides.purge (h : Hides X t.plan t'.plan) (now : UInt32) :
    Alike X (plumbPurgeTimeline t now) (plumbPurgeTimeline t' now) := by
  have hquiet : ∀ l : List Nat, packetsOf (l.map fun s => .left s .purged) = [] := fun l => by
    simp [packetsOf, transmitted, List.filterMap_map]
  have hv := perform_valid h.valid (.purgeTimeline now)
  have hflag : t.executionPaused = t'.executionPaused := h.paused
  refine ⟨rfl, (hquiet _).trans (hquiet _).symm, ?_⟩
  show Hides X (purgeTimeline t now).1.plan (purgeTimeline t' now).1.plan
  have hsame : (purgeTimeline t' now).1.plan = (purgeTimeline t now).1.plan := by
    rw [plan_purgeTimeline, plan_purgeTimeline, hflag]
  rw [hsame]
  refine .of_blank hv fun s => ?_
  rw [plan_purgeTimeline]

theorem cycle_gone_subset (now : UInt32) (entry : Nat → TimelineEntry) (slots : List Nat) :
    ∀ s ∈ (cycle now entry slots).gone, s ∈ slots := by
  induction slots with
  | nil => intro s hs; exact hs
  | cons slot rest ih =>
    intro s hs
    have hgo : (verdict now (entry slot) = .send ∨ verdict now (entry slot) = .skip) →
        s ∈ slot :: rest := fun h => by
      rcases (mem_gone_cons h s).1 hs with rfl | hs
      · simp
      · exact List.mem_cons_of_mem _ (ih s hs)
    cases hver : verdict now (entry slot) with
    | wait => simp [cycle, hver, Cycle.gone] at hs
    | send => exact hgo (Or.inl hver)
    | skip => exact hgo (Or.inr hver)
    | abort => simpa [cycle, hver, Cycle.gone] using hs

/-- The walk only looks at the entries. -/
theorem cycle_alike (now : UInt32) {entry entry' : Nat → TimelineEntry} {l l' : List Nat}
    (h : l.map entry = l'.map entry') :
    (cycle now entry l).sent.map entry = (cycle now entry' l').sent.map entry' ∧
      (cycle now entry l).skipped.length = (cycle now entry' l').skipped.length ∧
      (cycle now entry l).aborted.length = (cycle now entry' l').aborted.length ∧
      (cycle now entry l).kept.map entry = (cycle now entry' l').kept.map entry' := by
  induction l generalizing l' with
  | nil =>
    rw [List.map_nil, eq_comm, List.map_eq_nil_iff] at h
    rw [h]
    exact ⟨rfl, rfl, rfl, rfl⟩
  | cons slot rest ih =>
    cases l' with
    | nil => exact absurd h (by simp)
    | cons slot' rest' =>
      rw [List.map_cons, List.map_cons, List.cons.injEq] at h
      obtain ⟨h1, h2⟩ := h
      obtain ⟨i1, i2, i3, i4⟩ := ih h2
      have hlen : rest.length = rest'.length := by simpa using congrArg List.length h2
      rw [cycle, cycle, ← h1]
      cases verdict now (entry slot) with
      | wait => exact ⟨rfl, rfl, rfl, by rw [List.map_cons, List.map_cons, h1, h2]⟩
      | send => exact ⟨by rw [List.map_cons, List.map_cons, h1, i1], i2, i3, i4⟩
      | skip => exact ⟨i1, by rw [List.length_cons, List.length_cons, i2], i3, i4⟩
      | abort => exact ⟨rfl, rfl, by rw [List.length_cons, List.length_cons, hlen], rfl⟩

theorem Hides.cycled (h : Hides X p p') (now : UInt32) :
    Hides X (p.cycled now) (p'.cycled now) := by
  obtain ⟨h1, h2, h3, h4⟩ := cycle_alike now h.pending
  have hsent : (cycle now p.entry p.agenda).sent.length =
      (cycle now p'.entry p'.agenda).sent.length := by simpa using congrArg List.length h1
  simp only [Plan.cycled, hsent, h2, h3]
  refine Hides.tally (h.removeAll (cycle_gone_subset _ _ _) (cycle_gone_subset _ _ _) ?_) _ _ _
  rw [cycle_kept now p.entry h.valid.nodup, cycle_kept now p'.entry h.valid'.nodup]
  exact h4

theorem Hides.afterCycle (h : Hides X p p') (now : UInt32) :
    Hides X (p.afterCycle now) (p'.afterCycle now) := by
  have hhead := h.setContext (c := headContext p.context now) rfl
  rw [← h.paused] at hhead
  have hq : ∀ {q q' : Plan}, Hides X q q' → Hides X
      { q with context := { q.context with previousTime := now } }
      { q' with context := { q'.context with previousTime := now } } := fun {q q'} hqq =>
    { hqq with
      valid := { hqq.valid with noErrors := hqq.valid.noErrors }
      valid' := { hqq.valid' with noErrors := hqq.valid'.noErrors }
      context := by rw [hqq.context] }
  rw [Plan.afterCycle, Plan.afterCycle, ← h.paused, ← h.context]
  refine hq ?_
  split
  · exact hhead
  · exact hhead.cycled now

theorem Hides.process (h : Hides X t.plan t'.plan) (now later : UInt32) :
    Alike X (processTimeline t now later) (processTimeline t' now later) := by
  obtain ⟨hp, hs⟩ := plan_processTimeline h.valid now later
  obtain ⟨hp', hs'⟩ := plan_processTimeline h.valid' now later
  refine ⟨rfl, ?_, by rw [hp, hp']; exact h.afterCycle now⟩
  have hflag : t.executionPaused = t'.executionPaused := h.paused
  have hpk : ∀ q : Plan, (q.packets now).map Prod.snd =
      ((cycle now q.entry q.agenda).sent.map q.entry).map TimelineEntry.command := fun q => by
    simp [Plan.packets, Function.comp_def]
  rw [packetsOf, packetsOf, hs, hs', hflag]
  split
  · rfl
  · rw [hpk, hpk, (cycle_alike now h.pending).1]

/-! ## Runs -/

/-- **Every call of the run is answered alike.** -/
theorem Hides.perform (h : Hides X t.plan t'.plan) {op : Op}
    (hvis : ∀ e g, op.mentions e g → ¬X e g)
    (hroom : (perform t' op).status ≠ .noEmptySlot) : Alike X (perform t op) (perform t' op) := by
  cases op with
  | addEntry ty e g tag st ex data now =>
    exact h.addEntry (hvis e g ⟨rfl, rfl⟩) ty tag st ex data now hroom
  | deleteEntry e g => exact h.deleteEntry (hvis e g ⟨rfl, rfl⟩)
  | deleteGroup g => exact h.deleteGroup g
  | deleteAllEntries => exact h.deleteAllEntries
  | executeEntry e g persist => exact h.executeEntry (hvis e g ⟨rfl, rfl⟩) persist
  | executeGroup g persist => exact h.executeGroup g persist
  | pauseProcessing => exact ⟨rfl, rfl, h.setPaused true⟩
  | resumeProcessing => exact ⟨rfl, rfl, h.setPaused false⟩
  | plumbInit e g => exact h.plumbInit (hvis e g ⟨rfl, rfl⟩) hroom
  | plumbWrite e g chunk offset => exact h.plumbWrite (hvis e g ⟨rfl, rfl⟩) chunk offset
  | plumbFinalize ty e g tag st ex size now now' =>
    exact h.plumbFinalize (hvis e g ⟨rfl, rfl⟩) ty tag st ex size now now'
  | plumbDeleteReserved e g => exact h.plumbDeleteReserved (hvis e g ⟨rfl, rfl⟩)
  | purgeTimeline now => exact h.purge now
  | processTimeline now later => exact h.process now later
  | resetHousekeeping => exact ⟨rfl, rfl, h⟩

/-- The housekeeping only looks at the entries. -/
theorem Hides.updateHk (h : Hides X t.plan t'.plan) (hk : TimelineHousekeeping) :
    updateTimelineHousekeeping t hk = updateTimelineHousekeeping t' hk := by
  have hctx : t.cycleContext = t'.cycleContext := h.context
  have hflag : t.executionPaused = t'.executionPaused := h.paused
  have hpend : t.agenda.map t.entry = t'.agenda.map t'.entry := h.pending
  have hcount : t.count = t'.count := by simpa using congrArg List.length hpend
  cases hag : t.agenda with
  | nil =>
    rw [hag, List.map_nil, eq_comm, List.map_eq_nil_iff] at hpend
    simp only [updateTimelineHousekeeping, getNextSlot_of_nil hag, getNextSlot_of_nil hpend, hctx,
      hflag, hcount, Nat.lt_irrefl, if_false]
  | cons slot rest =>
    cases hag' : t'.agenda with
    | nil => rw [hag, hag'] at hpend; exact absurd hpend (by simp)
    | cons slot' rest' =>
      rw [hag, hag', List.map_cons, List.map_cons, List.cons.injEq] at hpend
      have hs : slot < maxCommandEntries := h.valid.lt_of_mem (by rw [plan_agenda, hag]; simp)
      have hs' : slot' < maxCommandEntries := h.valid'.lt_of_mem (by rw [plan_agenda, hag']; simp)
      simp only [updateTimelineHousekeeping, (getNextSlot_of_agenda hag).1,
        (getNextSlot_of_agenda hag').1, hctx, hflag, hcount, hs, hs', if_true, hpend.1]

theorem Hides.performHk (h : Hides X t.plan t'.plan) (hk : TimelineHousekeeping) (op : Op) :
    performHk t hk op = performHk t' hk op := by
  cases op with
  | processTimeline now later => exact h.updateHk hk
  | _ => rfl

/-- The call reserves, writes or gives up a slot under the identifiers. -/
def Op.plumbs (op : Op) (e g : UInt16) : Prop :=
  match op with
  | .plumbInit e' g' | .plumbWrite e' g' _ _ | .plumbDeleteReserved e' g' => e' = e ∧ g' = g
  | _ => False

/-- **A hidden call does nothing that shows.** -/
theorem Hides.hidden (h : Hides X t.plan t'.plan) {op : Op} (hop : op.plumbs e g) (hX : X e g) :
    Hides X t.plan (Ttc.perform t' op).timeline.plan ∧ packetsOf (Ttc.perform t' op).effects = [] ∧
      ∀ hk, Ttc.performHk (Ttc.perform t' op).timeline hk op = hk := by
  have hv := perform_valid h.valid' op
  cases op with
  | plumbInit e' g' =>
    obtain ⟨rfl, rfl⟩ := hop
    rcases plumbInit_cases t' e' g' with
      ⟨-, h2⟩ | ⟨-, -, h2⟩ | ⟨-, -, -, h2⟩ | ⟨-, -, -, hs, he, h2⟩
    · rw [Ttc.perform, h2]; exact ⟨h, rfl, fun _ => rfl⟩
    · rw [Ttc.perform, h2]; exact ⟨h, rfl, fun _ => rfl⟩
    · rw [Ttc.perform, h2]; exact ⟨h, rfl, fun _ => rfl⟩
    · rw [Ttc.perform, h2] at hv ⊢
      refine ⟨?_, rfl, fun _ => rfl⟩
      rw [plan_setEntry t' hs] at hv ⊢
      refine h.put_hidden (by rw [plan_entry, he]; simp) (fun hc => ?_) (fun _ => hX) hv
      rw [plan_entry, he] at hc
      exact absurd hc (by simp)
  | plumbWrite e' g' chunk offset =>
    obtain ⟨rfl, rfl⟩ := hop
    rcases plumbWrite_cases t' e' g' chunk offset with
      ⟨-, h2⟩ | ⟨-, -, h2⟩ | ⟨-, _, -, -, -, h2⟩ | ⟨-, s, hs, hres, -, h2⟩
    · rw [Ttc.perform, h2]; exact ⟨h, rfl, fun _ => rfl⟩
    · rw [Ttc.perform, h2]; exact ⟨h, rfl, fun _ => rfl⟩
    · rw [Ttc.perform, h2]; exact ⟨h, rfl, fun _ => rfl⟩
    · rw [Ttc.perform, h2] at hv ⊢
      refine ⟨?_, rfl, fun _ => rfl⟩
      rw [plan_setEntry t' hs] at hv ⊢
      have hids : X (t'.plan.entry s).entryId (t'.plan.entry s).groupId := by
        rw [hres.2.1, hres.2.2]
        exact hX
      exact h.put_hidden (by rw [hres.1]; simp) (fun _ => hids) (fun _ => hids) hv
  | plumbDeleteReserved e' g' =>
    obtain ⟨rfl, rfl⟩ := hop
    rcases plumbDeleteReserved_cases t' e' g' with ⟨-, h2⟩ | ⟨-, -, h2⟩ | ⟨-, s, hs, hres, h2⟩
    · rw [Ttc.perform, h2]; exact ⟨h, rfl, fun _ => rfl⟩
    · rw [Ttc.perform, h2]; exact ⟨h, rfl, fun _ => rfl⟩
    · rw [Ttc.perform, h2] at hv ⊢
      refine ⟨?_, rfl, fun _ => rfl⟩
      rw [plan_cancelSlot t' hs] at hv ⊢
      refine h.put_hidden (by rw [hres.1]; simp) (fun _ => ?_) (fun hc => ?_) hv
      · rw [hres.2.1, hres.2.2]; exact hX
      · exact absurd hc (by simp [default])
  | _ => exact absurd hop not_false

/-- The calls of a run that are its own, without the inserted ones. -/
def ownCalls (calls : List (Op × Bool)) : List Op := (calls.filter fun c => !c.2).map Prod.fst

/-- The answers to its own calls. -/
def ownAnswers (calls : List (Op × Bool)) (answers : List (Status × List Effect)) :
    List (Status × List Effect) :=
  ((calls.zip answers).filter fun c => !c.1.2).map Prod.snd

/-- What is seen of an answer: the status and the packets transmitted. -/
def observe (answer : Status × List Effect) : Status × List Command :=
  (answer.1, packetsOf answer.2)

/-- Two runs in agreement stay so. -/
theorem Hides.run (calls : List (Op × Bool)) : ∀ s s' : State,
    Hides X s.timeline.plan s'.timeline.plan → s.hk = s'.hk →
    (∀ c ∈ calls, c.2 = true → ∃ e g, c.1.plumbs e g ∧ X e g) →
    (∀ op ∈ ownCalls calls, ∀ e g, op.mentions e g → ¬X e g) →
    (∀ a ∈ ownAnswers calls (ttc.answers s' (calls.map Prod.fst)), a.1 ≠ .noEmptySlot) →
    (ttc.answers s (ownCalls calls)).map observe =
        (ownAnswers calls (ttc.answers s' (calls.map Prod.fst))).map observe ∧
      (ttc.answers s (ownCalls calls)).flatMap (fun a => packetsOf a.2) =
        (ttc.answers s' (calls.map Prod.fst)).flatMap (fun a => packetsOf a.2) ∧
      (ttc.run s (ownCalls calls)).hk = (ttc.run s' (calls.map Prod.fst)).hk := by
  induction calls with
  | nil => intro s s' _ hhk _ _ _; exact ⟨rfl, rfl, hhk⟩
  | cons c calls ih =>
    obtain ⟨op, inserted⟩ := c
    intro s s' h hhk hins hown hroom
    have hins' := fun c hc => hins c (List.mem_cons_of_mem _ hc)
    cases inserted with
    | true =>
      obtain ⟨e, g, hop, hX⟩ := hins _ (List.mem_cons_self ..) rfl
      obtain ⟨h1, h2, h3⟩ := h.hidden hop hX
      have hnext : ownCalls ((op, true) :: calls) = ownCalls calls := rfl
      rw [hnext] at hown ⊢
      obtain ⟨i1, i2, i3⟩ := ih s (ttc.step s' op).1 h1 (hhk.trans (h3 _).symm) hins' hown
        hroom
      refine ⟨i1, i2.trans ?_, i3⟩
      show List.flatMap _ _ = packetsOf (Ttc.perform s'.timeline op).effects ++ List.flatMap _ _
      rw [show packetsOf (Ttc.perform s'.timeline op).effects = [] from h2, List.nil_append]
    | false =>
      have hnext : ownCalls ((op, false) :: calls) = op :: ownCalls calls := rfl
      rw [hnext] at hown ⊢
      obtain ⟨a1, a2, a3⟩ := h.perform (hown op (by simp)) (hroom _ (List.mem_cons_self ..))
      have hhk' : (ttc.step s op).1.hk = (ttc.step s' op).1.hk := by
        show Ttc.performHk _ s.hk op = Ttc.performHk _ s'.hk op
        rw [hhk]
        exact a3.performHk s'.hk op
      obtain ⟨i1, i2, i3⟩ := ih (ttc.step s op).1 (ttc.step s' op).1 a3 hhk' hins'
        (fun o ho => hown o (List.mem_cons_of_mem _ ho))
        (fun a ha => hroom a (List.mem_cons_of_mem _ ha))
      refine ⟨?_, ?_, i3⟩
      · show (_, packetsOf _) :: List.map observe _ = (_, packetsOf _) :: List.map observe _
        rw [i1]
        exact congrArg (· :: _) (Prod.ext a1 a2)
      · show packetsOf (Ttc.perform s.timeline op).effects ++ _ =
          packetsOf (Ttc.perform s'.timeline op).effects ++ _
        rw [a2]
        exact congrArg _ i2

/-- **Reservations are invisible until they are finalized.**  Take a run with some of its calls
marked as inserted, which reserve, write or give up slots under identifiers that none of the other
calls mentions.  If none of the other calls is told that there is no empty slot, then without the
inserted calls each of them returns the same status and transmits the same packets, the sequences of
all packets transmitted are the same, and so is the housekeeping at the end.  -/
theorem reservations_invisible (start : UInt32) (calls : List (Op × Bool))
    (hins : ∀ c ∈ calls, c.2 = true → ∃ e g, c.1.plumbs e g ∧
      ∀ op ∈ ownCalls calls, ¬op.mentions e g)
    (hroom : ∀ a ∈ ownAnswers calls (ttc.answers (timelineInitialize start) (calls.map Prod.fst)),
      a.1 ≠ .noEmptySlot) :
    (ttc.answers (timelineInitialize start) (ownCalls calls)).map observe =
        (ownAnswers calls
          (ttc.answers (timelineInitialize start) (calls.map Prod.fst))).map observe ∧
      (ttc.answers (timelineInitialize start) (ownCalls calls)).flatMap (fun a => packetsOf a.2) =
        (ttc.answers (timelineInitialize start) (calls.map Prod.fst)).flatMap
          (fun a => packetsOf a.2) ∧
      (ttc.run (timelineInitialize start) (ownCalls calls)).hk =
        (ttc.run (timelineInitialize start) (calls.map Prod.fst)).hk := by
  have h : Hides (fun e g => ∀ op ∈ ownCalls calls, ¬op.mentions e g)
      (timelineInitialize start).timeline.plan (timelineInitialize start).timeline.plan :=
    .of_blank (valid_init start) Timeline.entry_default
  exact Hides.run calls _ _ h rfl hins (fun op ho e g hm hX => hX op ho hm) hroom

/-- A command is uploaded in between, and given up. -/
theorem reservations_invisible_sample :
    let packet : List UInt8 := [0x18, 0x00, 0xC0, 0x00, 0x00, 0x01, 0x2A, 0x2B]
    let own := [Op.addEntry 0 1 1 10 100 0 packet 5, .processTimeline 12 12]
    let mixed := [Op.plumbInit 7 1, .addEntry 0 1 1 10 100 0 packet 5, .plumbWrite 7 1 [1, 2] 0,
      .plumbDeleteReserved 7 1, .processTimeline 12 12]
    (ttc.run (timelineInitialize 0) own).hk = (ttc.run (timelineInitialize 0) mixed).hk ∧
      (ttc.run (timelineInitialize 0) own).hk.cmdExecuted = 1 := by
  intro packet own mixed
  let calls : List (Op × Bool) := [(.plumbInit 7 1, true),
    (.addEntry 0 1 1 10 100 0 packet 5, false), (.plumbWrite 7 1 [1, 2] 0, true),
    (.plumbDeleteReserved 7 1, true), (.processTimeline 12 12, false)]
  have hown : ∀ op ∈ ownCalls calls, ¬op.mentions 7 1 := by
    intro op ho
    simp only [calls, ownCalls, List.filter, Bool.not_true, Bool.not_false, List.map_cons,
      List.map_nil, List.mem_cons, List.not_mem_nil, or_false] at ho
    rcases ho with rfl | rfl
    · rintro ⟨h, -⟩; exact absurd h (by decide)
    · exact not_false
  have hins : ∀ c ∈ calls, c.2 = true → ∃ e g, c.1.plumbs e g ∧
      ∀ op ∈ ownCalls calls, ¬op.mentions e g := by
    intro c hc htrue
    simp only [calls, List.mem_cons, List.not_mem_nil, or_false] at hc
    rcases hc with rfl | rfl | rfl | rfl | rfl
    · exact ⟨7, 1, ⟨rfl, rfl⟩, hown⟩
    · exact absurd htrue Bool.false_ne_true
    · exact ⟨7, 1, ⟨rfl, rfl⟩, hown⟩
    · exact ⟨7, 1, ⟨rfl, rfl⟩, hown⟩
    · exact absurd htrue Bool.false_ne_true
  exact ⟨(reservations_invisible 0 calls hins (by decide +kernel)).2.2, by decide +kernel⟩

end Ttc
end FlightApps
