import FlightApps.Ttc.Runs

/-!
# What the invariant says about the timeline

The consequences of `valid_run` in the terms of the source: the index and the entries agree
(`index_agrees`), the readers report the entry due first (`readers_report_next`), identifiers
address one entry (`unique_addressing`), a call that fails changes nothing (`failed_call`), and only
complete packets are ever sent (`sends_complete_packets`).

All of them are about the states of `ttc` after an arbitrary list of calls, with arbitrary arguments
and clock readings.
-/

set_option autoImplicit false

namespace FlightApps
namespace Ttc

open StableQueue

variable {t : Timeline} {p : Plan} {op : Op}

/-! ## The index -/

/-- **The index and the entries agree.**  In every reachable state the cells of `SortedIndex` in use
are distinct slots, they are the pending ones, and they are in descending order of time tag. -/
theorem index_agrees (now : UInt32) (ops : List Op) :
    let t := (ttc.run (timelineInitialize now) ops).timeline
    t.count ≤ maxCommandEntries ∧
      (∀ i, i < t.count → t.index i < maxCommandEntries) ∧
      (∀ i j, i < t.count → j < t.count → t.index i = t.index j → i = j) ∧
      (∀ slot, (∃ i, i < t.count ∧ t.index i = slot) ↔ (t.entry slot).status = .pending) ∧
      ∀ i, i + 1 < t.count →
        (t.entry (t.index i)).timeTag ≥ (t.entry (t.index (i + 1))).timeTag := by
  intro t
  have hv : t.plan.Valid := valid_run now ops
  have hmem : ∀ slot, slot ∈ t.agenda ↔ ∃ i, i < t.count ∧ t.index i = slot := fun slot =>
    Timeline.mem_agendaTo
  have hdistinct := Timeline.pairwise_agenda.1 hv.nodup
  refine ⟨hv.count_le, fun i hi => hv.lt_of_mem ((hmem _).2 ⟨i, hi, rfl⟩), fun i j hi hj hij => ?_,
    fun slot => (hmem slot).symm.trans (hv.mem slot), fun i hi => ?_⟩
  · rcases Nat.lt_trichotomy i j with hlt | heq | hlt
    · exact absurd hij.symm (hdistinct i j hlt hj)
    · exact heq
    · exact absurd hij (hdistinct j i hlt hi)
  · exact Timeline.pairwise_agenda.1 hv.sorted i (i + 1) (Nat.lt_succ_self i) hi

/-- **The readers report the entry due first.**  In every reachable state the number of pending
entries is `Count`; without any, the readers report nothing, and otherwise the identifiers and the
time tag of one that no other precedes. -/
theorem readers_report_next (now : UInt32) (ops : List Op) :
    let t := (ttc.run (timelineInitialize now) ops).timeline
    (∃ slots : List Nat, slots.Nodup ∧ (∀ s, s ∈ slots ↔ (t.entry s).status = .pending) ∧
        timelineGetPendingEntryCount t = slots.length) ∧
      ((timelineGetNextEntryId t = none ∧ timelineGetNextExecutionTime t = none ∧
          ∀ s, (t.entry s).status ≠ .pending) ∨
        ∃ slot, (t.entry slot).status = .pending ∧
          timelineGetNextEntryId t = some ((t.entry slot).entryId, (t.entry slot).groupId) ∧
          timelineGetNextExecutionTime t = some (t.entry slot).timeTag ∧
          ∀ s, (t.entry s).status = .pending → (t.entry slot).timeTag ≤ (t.entry s).timeTag) := by
  intro t
  have hv : t.plan.Valid := valid_run now ops
  refine ⟨⟨t.agenda, hv.nodup, hv.mem, t.length_agenda.symm⟩, ?_⟩
  rw [timelineGetNextEntryId, timelineGetNextExecutionTime]
  cases hag : t.agenda with
  | nil =>
    have hnext := getNextSlot_of_nil hag
    refine .inl ⟨if_pos (Nat.le_of_eq hnext.symm), if_pos (Nat.le_of_eq hnext.symm), fun s hs => ?_⟩
    have hmem := (hv.mem s).2 hs
    rw [plan_agenda, hag] at hmem
    exact absurd hmem List.not_mem_nil
  | cons slot rest =>
    have hmem : slot ∈ t.agenda := by rw [hag]; exact List.mem_cons_self
    have hlt := hv.lt_of_mem hmem
    have hsorted : t.agenda.Pairwise fun a b => (t.entry a).timeTag ≤ (t.entry b).timeTag :=
      hv.sorted
    rw [hag, List.pairwise_cons] at hsorted
    simp only [(getNextSlot_of_agenda hag).1, ge_iff_le, if_neg (Nat.not_le.2 hlt)]
    refine .inr ⟨slot, (hv.mem slot).1 hmem, rfl, rfl, fun s hs => ?_⟩
    have hs' := (hv.mem s).2 hs
    rw [plan_agenda, hag] at hs'
    rcases List.mem_cons.1 hs' with rfl | hs'
    · exact UInt32.le_refl _
    · exact hsorted.1 s hs'

/-! ## Addressing -/

/-- The call addresses an entry by these identifiers. -/
def Op.addresses (op : Op) (e g : UInt16) : Prop :=
  match op with
  | .deleteEntry e' g' | .executeEntry e' g' _ | .plumbWrite e' g' _ _
  | .plumbFinalize _ e' g' _ _ _ _ _ _ | .plumbDeleteReserved e' g' => e' = e ∧ g' = g
  | _ => False

/-- A call that lets an entry go or gives up a reservation makes none. -/
theorem Op.not_commits_of_lets {cause : Cause} (h : op.lets cause) : ¬op.commits := by
  cases op <;> first | exact Bool.false_ne_true | exact absurd h not_false

theorem Op.not_commits_of_drops (h : op.drops) : ¬op.commits := by
  cases op <;> first | exact Bool.false_ne_true | exact absurd h not_false

theorem Op.ne_plumbInit_of_lets {cause : Cause} (h : op.lets cause) (e g : UInt16) :
    op ≠ .plumbInit e g := by
  rintro rfl
  exact h

theorem Op.ne_plumbInit_of_drops (h : op.drops) (e g : UInt16) : op ≠ .plumbInit e g := by
  rintro rfl
  exact h

/-- A slot in use keeps its identifiers as long as it is in use: a call that frees slots does not
fill any. -/
theorem Move.keeps_ids {q : Plan} {es : List Effect} (hm : Move op p es q) {slot : Nat}
    {e g : UInt16}
    (h : p.Holds slot e g ∨ (¬op.commits ∧ (∀ e g, op ≠ .plumbInit e g) ∧
      (p.entry slot).status = .empty)) :
    q.Holds slot e g ∨ (¬op.commits ∧ (∀ e g, op ≠ .plumbInit e g) ∧
      (q.entry slot).status = .empty) := by
  cases hm with
  | note paused c evs hc hev => exact h
  | reserve s e' g' hop hslot hempty hid hfresh =>
    rcases h with h | ⟨-, h, -⟩
    · refine Or.inl ?_
      have hne : slot ≠ s := fun he => h.1 (he ▸ hempty)
      rwa [Plan.Holds, Plan.put_entry, if_neg hne]
    · exact absurd hop (h e' g')
  | write s cmd hres =>
    refine h.imp (fun h => ?_) fun h => ⟨h.1, h.2.1, ?_⟩
    · rw [Plan.Holds, Plan.put_entry]
      split
      · rename_i he; subst he; exact h
      · exact h
    · have hne : slot ≠ s := fun he => by rw [← he, h.2.2] at hres; exact absurd hres (by simp)
      rw [Plan.put_entry, if_neg hne]
      exact h.2.2
  | drop s hop hres =>
    have h1 := Op.not_commits_of_drops hop
    have h2 := Op.ne_plumbInit_of_drops hop
    by_cases he : slot = s
    · exact Or.inr ⟨h1, h2, by rw [Plan.put_entry, if_pos he]; rfl⟩
    · rw [Plan.Holds, Plan.put_entry, if_neg he]; exact h
  | commit s x hop hslot hnew hpend hwell hid hkeep =>
    rcases h with h | ⟨h, -⟩
    · refine Or.inl ?_
      rw [Plan.Holds, Plan.schedule_entry]
      split
      · rename_i he
        subst he
        obtain ⟨h1, h2⟩ := hkeep h.1
        exact ⟨by rw [hpend]; simp, by rw [← h1]; exact h.2.1, by rw [← h2]; exact h.2.2⟩
      · exact h
    · exact absurd hop h
  | send s hop hmem => exact h
  | execute s hop hmem =>
    have h1 := Op.not_commits_of_lets hop
    have h2 := Op.ne_plumbInit_of_lets hop
    by_cases he : slot = s
    · exact Or.inr ⟨h1, h2, by rw [Plan.remove_entry, if_pos he]; rfl⟩
    · rw [Plan.Holds, Plan.remove_entry, if_neg he]; exact h
  | leave s cause hop hne hmem =>
    have h1 := Op.not_commits_of_lets hop
    have h2 := Op.ne_plumbInit_of_lets hop
    by_cases he : slot = s
    · exact Or.inr ⟨h1, h2, by rw [Plan.remove_entry, if_pos he]; rfl⟩
    · rw [Plan.Holds, Plan.remove_entry, if_neg he]; exact h

/-- Nothing outside the slot is affected: the other entries, their order on the agenda, and what is
sent. -/
structure OnlyTouches (t : Timeline) (r : Outcome) (slot : Nat) : Prop where
  /-- The other slots hold what they held. -/
  entry : ∀ s, s ≠ slot → r.timeline.entry s = t.entry s
  /-- The other pending slots are the same, in the same order. -/
  agenda : r.timeline.agenda.erase slot = t.agenda.erase slot
  /-- Nothing else is sent. -/
  sends : ∀ s packet, .transmit s packet ∈ r.effects → s = slot

theorem OnlyTouches.of_plan {r : Outcome} {slot : Nat}
    (he : ∀ s, s ≠ slot → r.timeline.plan.entry s = t.plan.entry s)
    (ha : r.timeline.plan.agenda.erase slot = t.plan.agenda.erase slot)
    (hs : ∀ s packet, .transmit s packet ∈ r.effects → s = slot) : OnlyTouches t r slot :=
  ⟨he, ha, hs⟩

/-- Striking a slot off touches nothing else. -/
theorem Plan.Valid.erase_remove (hv : p.Valid) (slot : Nat) :
    (p.remove slot).agenda.erase slot = p.agenda.erase slot :=
  List.erase_of_not_mem hv.nodup.not_mem_erase

/-- Scheduling a slot touches nothing else. -/
theorem Plan.Valid.erase_schedule (hv : p.Valid) {slot : Nat} {e : TimelineEntry}
    (hold : (p.entry slot).status ≠ .pending) :
    (p.schedule slot e).agenda.erase slot = p.agenda.erase slot := by
  have hn := hv.notMem hold
  rw [List.erase_of_not_mem hn]
  exact erase_enqueue (hv.sorted.imp fun hab h => by grind) hn

theorem mem_sendEffects {persist : Bool} {slot s : Nat} {packet : Command}
    (h : .transmit s packet ∈ sendEffects p persist slot) :
    s = slot ∧ packet = (p.entry slot).command := by
  cases persist <;> simpa [sendEffects] using h

/-- A call that addresses an entry either does nothing or touches the one slot in use under these
identifiers. -/
theorem perform_onlyTouches (hv : t.plan.Valid) {e g : UInt16} (h : op.addresses e g) :
    ((perform t op).timeline = t ∧ (perform t op).effects = []) ∨
      ∃ slot, isAnonymousEntry e g = false ∧ t.plan.Holds slot e g ∧
        OnlyTouches t (perform t op) slot := by
  cases op with
  | deleteEntry e' g' =>
    obtain ⟨rfl, rfl⟩ := h
    rcases timelineDeleteEntry_cases hv e' g' with ⟨-, h⟩ | ⟨-, -, h⟩ | ⟨hid, s, hs, hh, -, he, hp⟩
    · exact Or.inl (Outcome.of_refuse h)
    · exact Or.inl (Outcome.of_refuse h)
    · refine Or.inr ⟨s, hid, hh, .of_plan (fun s' hs' => ?_) ?_ fun s' packet hm => ?_⟩
      · rw [perform, hp, Plan.remove_entry, if_neg hs']
      · rw [perform, hp, hv.erase_remove]
      · rw [perform, he] at hm; simp at hm
  | executeEntry e' g' persist =>
    obtain ⟨rfl, rfl⟩ := h
    rcases timelineExecuteEntry_cases hv e' g' persist with
      ⟨-, h⟩ | ⟨-, -, h⟩ | ⟨-, -, h⟩ | ⟨hid, s, hs, hh, -, he, hp⟩
    · exact Or.inl (Outcome.of_refuse h)
    · exact Or.inl (Outcome.of_refuse h)
    · exact Or.inl (Outcome.of_refuse h)
    · refine Or.inr ⟨s, hid, hh, .of_plan (fun s' hs' => ?_) ?_ fun s' packet hm => ?_⟩
      · rw [perform, hp]
        cases persist with
        | true => rfl
        | false => exact (Plan.remove_entry _ _ _).trans (if_neg hs')
      · rw [perform, hp]
        cases persist with
        | true => rfl
        | false => exact hv.erase_remove s
      · rw [perform, he] at hm
        exact (mem_sendEffects hm).1
  | plumbWrite e' g' chunk offset =>
    obtain ⟨rfl, rfl⟩ := h
    rcases plumbWrite_cases t e' g' chunk offset with
      ⟨-, h⟩ | ⟨-, -, h⟩ | ⟨-, _, -, -, -, h⟩ | ⟨hid, s, hs, hres, -, h⟩
    · exact Or.inl (Outcome.of_refuse h)
    · exact Or.inl (Outcome.of_refuse h)
    · exact Or.inl (Outcome.of_refuse h)
    · refine Or.inr ⟨s, hid, hres.holds, .of_plan (fun s' hs' => ?_) ?_ fun s' packet hm => ?_⟩
      · rw [perform, h, plan_setEntry t hs, Plan.put_entry, if_neg hs']
      · rw [perform, h, plan_setEntry t hs, Plan.put_agenda]
      · rw [perform, h] at hm; simp at hm
  | plumbFinalize ty e' g' tag st ex size now now' =>
    obtain ⟨rfl, rfl⟩ := h
    rcases plumbFinalize_cases hv ty e' g' tag st ex size now now' with
      ⟨-, h⟩ | ⟨-, -, h, -⟩ | ⟨hid, s, hs, hres, h⟩
    · exact Or.inl (Outcome.of_refuse h)
    · exact Or.inl (Outcome.of_refuse h)
    · rw [perform, h]
      dsimp only
      split
      · have hold : (t.plan.entry s).status ≠ .pending := by rw [hres.1]; simp
        have hcount : t.count < maxCommandEntries := by simpa using hv.length_lt hs hold
        refine Or.inr ⟨s, hid, hres.holds, .of_plan (fun s' hs' => ?_) ?_ fun s' packet hm => ?_⟩
        · rw [plan_commit hv.sorted hs hcount, Plan.schedule_entry, if_neg hs']
        · rw [plan_commit hv.sorted hs hcount, hv.erase_schedule hold]
        · simp at hm
      · exact Or.inl ⟨rfl, rfl⟩
  | plumbDeleteReserved e' g' =>
    obtain ⟨rfl, rfl⟩ := h
    rcases plumbDeleteReserved_cases t e' g' with ⟨-, h⟩ | ⟨-, -, h⟩ | ⟨hid, s, hs, hres, h⟩
    · exact Or.inl (Outcome.of_refuse h)
    · exact Or.inl (Outcome.of_refuse h)
    · refine Or.inr ⟨s, hid, hres.holds, .of_plan (fun s' hs' => ?_) ?_ fun s' packet hm => ?_⟩
      · rw [perform, h, plan_cancelSlot t hs, Plan.put_entry, if_neg hs']
      · rw [perform, h, plan_cancelSlot t hs, Plan.put_agenda]
      · rw [perform, h] at hm; simp at hm
  | _ => exact absurd h not_false

/-- **Identifiers address one entry.**  In every reachable state no two slots in use share
identifiers other than the anonymous ones, anonymous entries are pending, and empty slots are all
zero; a slot keeps its identifiers as long as it is in use; and a call that addresses an entry by
identifiers does nothing or touches the only slot in use under them. -/
theorem unique_addressing (now : UInt32) (ops : List Op) :
    let t := (ttc.run (timelineInitialize now) ops).timeline
    (∀ a b, (t.entry a).status ≠ .empty → (t.entry b).status ≠ .empty →
        (t.entry a).entryId = (t.entry b).entryId → (t.entry a).groupId = (t.entry b).groupId →
        isAnonymousEntry (t.entry a).entryId (t.entry a).groupId = false → a = b) ∧
      (∀ slot, (t.entry slot).status ≠ .empty →
        isAnonymousEntry (t.entry slot).entryId (t.entry slot).groupId = true →
        (t.entry slot).status = .pending) ∧
      (∀ slot, (t.entry slot).status = .empty →
        t.entry slot = ⟨0, 0, 0, 0, 0, .empty, 0, Vector.replicate maxCommandSize 0⟩) ∧
      (∀ op slot, (t.entry slot).status ≠ .empty →
        ((perform t op).timeline.entry slot).status ≠ .empty →
        ((perform t op).timeline.entry slot).entryId = (t.entry slot).entryId ∧
          ((perform t op).timeline.entry slot).groupId = (t.entry slot).groupId) ∧
      ∀ op e g, op.addresses e g →
        ((perform t op).timeline = t ∧ (perform t op).effects = []) ∨
          ∃ slot, t.plan.Holds slot e g ∧ (∀ s, t.plan.Holds s e g → s = slot) ∧
            OnlyTouches t (perform t op) slot := by
  intro t
  have hv : t.plan.Valid := valid_run now ops
  refine ⟨fun a b ha hb he hg hid => ?_, hv.anonymous, hv.blank, fun op slot hs hs' => ?_,
    fun op e g h => ?_⟩
  · exact hv.unique a b _ _ hid ⟨ha, rfl, rfl⟩ ⟨hb, he.symm, hg.symm⟩
  · rcases (perform_trace hv op).keeps (fun _ _ _ hm h => hm.keeps_ids h)
      (Or.inl ⟨hs, rfl, rfl⟩) with h | ⟨-, -, h⟩
    · exact h.2
    · exact absurd h hs'
  · rcases perform_onlyTouches hv h with h | ⟨slot, hid, hh, ht⟩
    · exact Or.inl h
    · exact Or.inr ⟨slot, hh, fun s hs => hv.unique s slot e g hid hs hh, ht⟩

/-! ## Calls that fail -/

/-- A call that does not return `success` leaves the timeline as it was, to the last byte. -/
theorem perform_of_ne_success (hv : t.plan.Valid) (h : (perform t op).status ≠ .success) :
    (perform t op).timeline = t ∧ (perform t op).effects = [] := by
  cases op with
  | addEntry ty e g tag st ex data now =>
    rw [perform, timelineAddEntry_eq hv] at h ⊢
    dsimp only at h ⊢
    split at h
    · exact absurd rfl h
    · rename_i hne
      rw [if_neg hne]
      exact ⟨rfl, rfl⟩
  | deleteEntry e g =>
    rcases timelineDeleteEntry_cases hv e g with ⟨-, h'⟩ | ⟨-, -, h'⟩ | ⟨-, s, -, -, hs, -⟩
    · exact Outcome.of_refuse h'
    · exact Outcome.of_refuse h'
    · exact absurd hs h
  | deleteGroup g =>
    obtain ⟨hs, -, he⟩ := timelineDeleteGroup_spec hv g
    have hnone : t.plan.groupOf g t.agenda = [] := by
      rw [perform, hs] at h
      by_contra hne
      exact h (if_pos (List.length_pos_iff.2 hne))
    refine ⟨?_, by rw [perform, he, hnone, List.map_nil]⟩
    have hself := deleteGroupFrom_eq_self g t.agenda [] t 0 rfl hnone
    rw [t.length_agenda] at hself
    exact hself
  | executeEntry e g persist =>
    rcases timelineExecuteEntry_cases hv e g persist with
      ⟨-, h'⟩ | ⟨-, -, h'⟩ | ⟨-, -, h'⟩ | ⟨-, s, -, -, hs, -⟩
    · exact Outcome.of_refuse h'
    · exact Outcome.of_refuse h'
    · exact Outcome.of_refuse h'
    · exact absurd hs h
  | executeGroup g persist =>
    obtain ⟨hs, -, he⟩ := timelineExecuteGroup_spec hv g persist
    have hnone : t.plan.groupOf g t.agenda = [] := by
      rw [perform, hs] at h
      by_contra hne
      exact h (if_neg (by simpa using hne))
    refine ⟨?_, by rw [perform, he, hnone, List.flatMap_nil]⟩
    have hself := executeGroupFrom_eq_self g persist t.agenda [] t false rfl hnone
    rw [t.length_agenda] at hself
    exact hself
  | plumbInit e g =>
    rcases plumbInit_cases t e g with ⟨-, h'⟩ | ⟨-, -, h'⟩ | ⟨-, -, -, h'⟩ | ⟨-, -, -, -, -, h'⟩
    · exact Outcome.of_refuse h'
    · exact Outcome.of_refuse h'
    · exact Outcome.of_refuse h'
    · rw [perform, h'] at h; exact absurd rfl h
  | plumbWrite e g chunk offset =>
    rcases plumbWrite_cases t e g chunk offset with
      ⟨-, h'⟩ | ⟨-, -, h'⟩ | ⟨-, _, -, -, -, h'⟩ | ⟨-, _, -, -, -, h'⟩
    · exact Outcome.of_refuse h'
    · exact Outcome.of_refuse h'
    · exact Outcome.of_refuse h'
    · rw [perform, h'] at h; exact absurd rfl h
  | plumbFinalize ty e g tag st ex size now now' =>
    rcases plumbFinalize_cases hv ty e g tag st ex size now now' with
      ⟨-, h'⟩ | ⟨-, -, h', -⟩ | ⟨-, s, -, -, h'⟩
    · exact Outcome.of_refuse h'
    · exact Outcome.of_refuse h'
    · rw [perform, h'] at h ⊢
      dsimp only at h ⊢
      split at h
      · exact absurd rfl h
      · rename_i hne
        rw [if_neg hne]
        exact ⟨rfl, rfl⟩
  | plumbDeleteReserved e g =>
    rcases plumbDeleteReserved_cases t e g with ⟨-, h'⟩ | ⟨-, -, h'⟩ | ⟨-, _, -, -, h'⟩
    · exact Outcome.of_refuse h'
    · exact Outcome.of_refuse h'
    · rw [perform, h'] at h; exact absurd rfl h
  | _ => exact absurd rfl h

/-- **A call that fails changes nothing.**  Whatever is called in whatever reachable state: if it
does not return `CFE_SUCCESS`, the timeline is exactly as before, the housekeeping too, and nothing
was transmitted or reported.  -/
theorem failed_call (now : UInt32) (ops : List Op) (op : Op)
    (h : (ttc.step (ttc.run (timelineInitialize now) ops) op).2.1 ≠ .success) :
    (ttc.step (ttc.run (timelineInitialize now) ops) op).1 =
        ttc.run (timelineInitialize now) ops ∧
      (ttc.step (ttc.run (timelineInitialize now) ops) op).2.2 = [] := by
  obtain ⟨ht, he⟩ := perform_of_ne_success (valid_run now ops) h
  refine ⟨?_, he⟩
  have hhk : ∀ t hk, performHk t hk op = hk := by
    intro t hk
    cases op <;> first | rfl | exact absurd rfl h
  show State.mk _ _ = _
  rw [ht, hhk]

/-- A command of a wrong size is refused after its slot was reserved and written. -/
theorem failed_call_addEntry :
    (ttc.step (ttc.run (timelineInitialize 0) []) (.addEntry 0 1 1 5 0 0 [1, 2, 3] 0)).2.1 ≠
        .success ∧
      (ttc.step (ttc.run (timelineInitialize 0) []) (.addEntry 0 1 1 5 0 0 [1, 2, 3] 0)).1 =
        timelineInitialize 0 := by
  have h : (ttc.step (ttc.run (timelineInitialize 0) []) (.addEntry 0 1 1 5 0 0 [1, 2, 3] 0)).2.1 ≠
      .success := by decide +kernel
  exact ⟨h, (failed_call 0 [] _ h).1⟩

/-! ## What is sent -/

/-- What a call may emit: packets that fit the buffer, and no report of a run-time bug. -/
def Effect.Sound : Effect → Prop
  | .transmit _ packet => msgGetSize packet ≤ maxCommandSize
  | .event ev => ev.isError = false
  | _ => True

theorem Move.sound {q : Plan} {es : List Effect} (hm : Move op p es q) (h : p.Valid) :
    ∀ e ∈ es, e.Sound := by
  have hfits : ∀ slot ∈ p.agenda, msgGetSize (p.entry slot).command ≤ maxCommandSize := by
    intro slot hs
    have hw := h.wellSized slot ((h.mem slot).1 hs)
    rw [hw.size_eq]
    exact hw.size_le
  cases hm with
  | note paused c evs hc hev =>
    intro e he
    obtain ⟨ev, hmem, rfl⟩ := List.mem_map.1 he
    exact hev ev hmem
  | commit slot e hop hslot hnew hpend hwell hid hkeep => simp [Effect.Sound]
  | send slot hop hmem => simpa [Effect.Sound] using hfits slot hmem
  | execute slot hop hmem => simpa [Effect.Sound] using hfits slot hmem
  | leave slot cause hop hne hmem => simp [Effect.Sound]
  | _ => simp

/-- As long as a slot is pending its entry does not change: a call that takes entries off the agenda
puts none on it. -/
theorem Move.keeps_pending {q : Plan} {es : List Effect} (hm : Move op p es q) {slot : Nat}
    {x : TimelineEntry} (hx : x.status = .pending)
    (h : p.entry slot = x ∨ (¬op.commits ∧ (p.entry slot).status ≠ .pending)) :
    q.entry slot = x ∨ (¬op.commits ∧ (q.entry slot).status ≠ .pending) := by
  -- a slot that is not pending is overwritten by something that is not
  have hput : ∀ (s : Nat) (e : TimelineEntry), (p.entry s).status ≠ .pending →
      e.status ≠ .pending → (p.put s e).entry slot = x ∨
        (¬op.commits ∧ ((p.put s e).entry slot).status ≠ .pending) := by
    intro s e hs he
    rw [Plan.put_entry]
    split
    · rename_i heq
      subst heq
      rcases h with h | ⟨h, -⟩
      · exact absurd (by rw [h]; exact hx) hs
      · exact Or.inr ⟨h, he⟩
    · exact h
  have hremove : ∀ s, ¬op.commits → (p.remove s).entry slot = x ∨
      (¬op.commits ∧ ((p.remove s).entry slot).status ≠ .pending) := by
    intro s hop
    rw [Plan.remove_entry]
    split
    · exact Or.inr ⟨hop, by simp [default]⟩
    · exact h
  cases hm with
  | note paused c evs hc hev => exact h
  | reserve s e' g' hop hslot hempty hid hfresh =>
    exact hput s _ (by rw [hempty]; simp) (by simp [reservedEntry])
  | write s cmd hres => exact hput s _ (by rw [hres]; simp) (by rw [hres]; simp)
  | drop s hop hres => exact hput s _ (by rw [hres]; simp) (by simp [default])
  | commit s e hop hslot hnew hpend hwell hid hkeep =>
    rcases h with h | ⟨h, -⟩
    · have hne : slot ≠ s := fun he => hnew (by rw [← he, h]; exact hx)
      exact Or.inl (by rw [Plan.schedule_entry, if_neg hne]; exact h)
    · exact absurd hop h
  | send s hop hmem => exact h
  | execute s hop hmem => exact hremove s (Op.not_commits_of_lets hop)
  | leave s cause hop hne hmem => exact hremove s (Op.not_commits_of_lets hop)

theorem perform_keeps_pending (hv : t.plan.Valid) (op : Op) {slot : Nat}
    (h : (t.entry slot).status = .pending)
    (h' : ((perform t op).timeline.entry slot).status = .pending) :
    (perform t op).timeline.entry slot = t.entry slot := by
  rcases (perform_trace hv op).keeps (fun _ _ _ hm hk => hm.keeps_pending h hk) (Or.inl rfl) with
    hk | ⟨-, hk⟩
  · exact hk
  · exact absurd h' hk

/-- An entry that stays pending through a run is the same at its end. -/
theorem run_keeps_pending {s : State} (hv : s.timeline.plan.Valid) {slot : Nat} (ops : List Op)
    (h : ∀ k, k ≤ ops.length → ((ttc.run s (ops.take k)).timeline.entry slot).status = .pending) :
    (ttc.run s ops).timeline.entry slot = s.timeline.entry slot := by
  induction ops generalizing s with
  | nil => rfl
  | cons op ops ih =>
    have h0 : (s.timeline.entry slot).status = .pending := h 0 (Nat.zero_le _)
    have h1 : ((perform s.timeline op).timeline.entry slot).status = .pending :=
      h 1 (Nat.le_add_left 1 _)
    have hrest := ih (valid_step hv op) fun k hk => h (k + 1) (Nat.succ_le_succ hk)
    exact hrest.trans (perform_keeps_pending hv op h0 h1)

/-- No run-time bug was met, neither in this cycle nor in those the housekeeping has counted. -/
structure State.Clean (s : State) : Prop where
  /-- The timeline satisfies its invariant. -/
  valid : s.timeline.plan.Valid
  /-- No bug was counted. -/
  hk : s.hk.processingErrorCount = 0

theorem clean_step {s : State} (h : s.Clean) (op : Op) : (ttc.step s op).1.Clean := by
  refine ⟨valid_step h.valid op, ?_⟩
  have herr : (perform s.timeline op).timeline.cycleContext.processingErrors = 0 :=
    (valid_step h.valid op).noErrors
  show (performHk (perform s.timeline op).timeline s.hk op).processingErrorCount = 0
  generalize (perform s.timeline op).timeline = t' at herr
  cases op with
  | processTimeline now later =>
    show (updateTimelineHousekeeping t' s.hk).processingErrorCount = 0
    rw [updateTimelineHousekeeping]
    split <;> simp [h.hk, herr]
  | resetHousekeeping => rfl
  | _ => exact h.hk

/-- **Only complete, well-sized packets are sent.**  In every reachable state a pending entry has
passed the checks of `CommitSlot`; as long as it is pending it does not change; what is transmitted
fits the buffer; and the branches of the code that report a run-time bug are never taken. -/
theorem sends_complete_packets (now : UInt32) (ops : List Op) :
    let s := ttc.run (timelineInitialize now) ops
    (∀ slot, (s.timeline.entry slot).status = .pending →
        validExecType (s.timeline.entry slot).executionType ∧
          (s.timeline.entry slot).cmdSize ≤ maxCommandSize ∧
          (s.timeline.entry slot).cmdSize = msgGetSize (s.timeline.entry slot).command) ∧
      (∀ slot later,
        (∀ k, k ≤ later.length →
          ((ttc.run s (later.take k)).timeline.entry slot).status = .pending) →
        (ttc.run s later).timeline.entry slot = s.timeline.entry slot) ∧
      (∀ op slot packet, .transmit slot packet ∈ (ttc.step s op).2.2 →
        msgGetSize packet ≤ maxCommandSize) ∧
      (∀ op ev, .event ev ∈ (ttc.step s op).2.2 → ev.isError = false) ∧
      s.timeline.cycleContext.processingErrors = 0 ∧ s.hk.processingErrorCount = 0 := by
  intro s
  have hclean : s.Clean := ttc.invariant (P := State.Clean) (fun _ op h => clean_step h op)
    ⟨valid_init now, rfl⟩ ops
  have hv := hclean.valid
  have hsound : ∀ op, ∀ e ∈ (ttc.step s op).2.2, e.Sound := fun op =>
    (perform_trace hv op).emits (fun _ _ _ hm h => ⟨hm.valid h, hm.sound h⟩) hv
  refine ⟨fun slot hs => ?_, fun slot later h => run_keeps_pending hv later h,
    fun op slot packet h => hsound op _ h, fun op ev h => hsound op _ h, hv.noErrors, hclean.hk⟩
  have hw := hv.wellSized slot hs
  exact ⟨hw.execType, hw.size_le, hw.size_eq.symm⟩

end Ttc
end FlightApps
