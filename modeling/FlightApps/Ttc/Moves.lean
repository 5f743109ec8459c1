import Mathlib.Data.List.Perm.Subperm
import FlightApps.Ttc.Plan

/-!
# What a call can do to a plan

Every call of the timeline is a string of small moves: reserve a slot, write into a reserved slot,
give it up, commit an entry, send one, take one off the agenda, or touch only the pause flag and the
cycle context.  `Move` says once what these are, with the conditions the code has established by
then and with what each emits; `FlightApps.Ttc.Runs` shows that a call is nothing else.

`Plan.Valid` is the invariant of the timeline.  That a move keeps it (`Move.valid`) is the only
place where its clauses are proved.
-/

set_option autoImplicit false

namespace FlightApps
namespace Ttc

open StableQueue

/-! ## Well-formed entries and plans -/

/-- One of the three execution types. -/
def validExecType (executionType : UInt8) : Prop :=
  executionType = exectypeSkipLate ∨ executionType = exectypeForce ∨
    executionType = exectypeAbortLate

instance (executionType : UInt8) : Decidable (validExecType executionType) :=
  inferInstanceAs (Decidable (_ ∨ _ ∨ _))

/-- The checks of `CommitSlot`: a known execution type, and a size that fits the buffer and is the
one the packet declares. -/
structure TimelineEntry.WellSized (e : TimelineEntry) : Prop where
  /-- The execution type is one of the three. -/
  execType : validExecType e.executionType
  /-- The command fits the buffer. -/
  size_le : e.cmdSize ≤ maxCommandSize
  /-- The size is the one in the packet header. -/
  size_eq : msgGetSize e.command = e.cmdSize

namespace Plan

/-- The slot is in use under the given identifiers. -/
def Holds (p : Plan) (slot : Nat) (entryId groupId : UInt16) : Prop :=
  (p.entry slot).status ≠ .empty ∧ (p.entry slot).entryId = entryId ∧
    (p.entry slot).groupId = groupId

/-- **The invariant of the timeline.** -/
structure Valid (p : Plan) : Prop where
  /-- There is nothing behind the last slot. -/
  bound : ∀ slot, maxCommandEntries ≤ slot → p.entry slot = default
  /-- A slot is on the agenda once. -/
  nodup : p.agenda.Nodup
  /-- The slots on the agenda are the pending ones. -/
  mem : ∀ slot, slot ∈ p.agenda ↔ (p.entry slot).status = .pending
  /-- The agenda is in order of time. -/
  sorted : p.Sorted
  /-- An empty slot is all zero. -/
  blank : ∀ slot, (p.entry slot).status = .empty → p.entry slot = default
  /-- Identifiers are unique among the slots in use. -/
  unique : ∀ a b e g, isAnonymousEntry e g = false → p.Holds a e g → p.Holds b e g → a = b
  /-- Anonymous entries are pending. -/
  anonymous : ∀ slot, (p.entry slot).status ≠ .empty →
    isAnonymousEntry (p.entry slot).entryId (p.entry slot).groupId = true →
    (p.entry slot).status = .pending
  /-- A pending entry has passed the checks of `CommitSlot`. -/
  wellSized : ∀ slot, (p.entry slot).status = .pending → (p.entry slot).WellSized
  /-- No run-time bug was met. -/
  noErrors : p.context.processingErrors = 0

theorem Valid.lt_of_status {p : Plan} (h : p.Valid) {slot : Nat}
    (hs : (p.entry slot).status ≠ .empty) : slot < maxCommandEntries := by
  by_contra hge
  rw [h.bound slot (Nat.le_of_not_lt hge)] at hs
  exact hs rfl

theorem Valid.lt_of_mem {p : Plan} (h : p.Valid) {slot : Nat} (hs : slot ∈ p.agenda) :
    slot < maxCommandEntries := h.lt_of_status (by rw [(h.mem slot).1 hs]; simp)

/-- There are only so many slots. -/
theorem length_le_of_nodup {l : List Nat} (hn : l.Nodup) (h : ∀ s ∈ l, s < maxCommandEntries) :
    l.length ≤ maxCommandEntries := by
  have hsub : l ⊆ List.range maxCommandEntries := fun s hs => List.mem_range.2 (h s hs)
  have hle := (List.subperm_of_subset hn hsub).length_le
  rwa [List.length_range] at hle

theorem Valid.length_le {p : Plan} (h : p.Valid) : p.agenda.length ≤ maxCommandEntries :=
  length_le_of_nodup h.nodup fun _ hs => h.lt_of_mem hs

/-- If some slot is not pending, the agenda is not full. -/
theorem Valid.length_lt {p : Plan} (h : p.Valid) {slot : Nat} (hslot : slot < maxCommandEntries)
    (hs : (p.entry slot).status ≠ .pending) : p.agenda.length < maxCommandEntries := by
  have hcons : (slot :: p.agenda).Nodup :=
    List.nodup_cons.2 ⟨fun hm => hs ((h.mem slot).1 hm), h.nodup⟩
  refine length_le_of_nodup hcons fun s hm => ?_
  rcases List.mem_cons.1 hm with rfl | hm
  · exact hslot
  · exact h.lt_of_mem hm

/-! ## Reading a plan after an update -/

@[simp] theorem put_agenda (p : Plan) (slot : Nat) (e : TimelineEntry) :
    (p.put slot e).agenda = p.agenda := rfl

theorem put_entry (p : Plan) (slot : Nat) (e : TimelineEntry) (s : Nat) :
    (p.put slot e).entry s = if s = slot then e else p.entry s := Function.update_apply ..

theorem remove_entry (p : Plan) (slot s : Nat) :
    (p.remove slot).entry s = if s = slot then default else p.entry s := Function.update_apply ..

theorem schedule_entry (p : Plan) (slot : Nat) (e : TimelineEntry) (s : Nat) :
    (p.schedule slot e).entry s = if s = slot then e else p.entry s := Function.update_apply ..

theorem mem_schedule {p : Plan} {slot : Nat} {e : TimelineEntry} {s : Nat} :
    s ∈ (p.schedule slot e).agenda ↔ s = slot ∨ s ∈ p.agenda := mem_enqueue

theorem Valid.mem_remove {p : Plan} (h : p.Valid) {slot s : Nat} :
    s ∈ (p.remove slot).agenda ↔ s ≠ slot ∧ s ∈ p.agenda := h.nodup.mem_erase_iff

end Plan

/-! ## Which calls commit, and how a call lets an entry go -/

/-- The calls that can put an entry on the agenda. -/
def Op.commits : Op → Bool
  | .addEntry .. | .plumbFinalize .. => true
  | _ => false

/-- The ways in which a call can let an entry go. -/
def Op.lets : Op → Cause → Prop
  | .processTimeline .., c => c = .executed ∨ c = .skipped ∨ c = .aborted
  | .executeEntry _ _ persist, c => c = .executed ∧ persist = false
  | .executeGroup _ persist, c => c = .executed ∧ persist = false
  | .deleteEntry .., c | .deleteGroup _, c | .deleteAllEntries, c => c = .deleted
  | .purgeTimeline _, c => c = .purged
  | _, _ => False

/-- The calls that can give up a reserved slot. -/
def Op.drops : Op → Prop
  | .plumbDeleteReserved .. | .purgeTimeline _ => True
  | _ => False

/-- The call is `TTC_ProcessTimeline`. -/
def Op.isProcess : Op → Bool
  | .processTimeline .. => true
  | _ => false

/-! ## Moves -/

/-- One move of a call, with what it emits. -/
inductive Move (op : Op) : Plan → List Effect → Plan → Prop
  /-- Only the flag and the cycle context change, and only informational events are sent. -/
  | note (p : Plan) (paused : Bool) (c : CycleContext) (evs : List Event)
      (hc : c.processingErrors = p.context.processingErrors ∨ c.processingErrors = 0)
      (hev : ∀ ev ∈ evs, ev.isError = false) :
      Move op p (evs.map .event) { p with paused := paused, context := c }
  /-- An empty slot is reserved under identifiers not in use. -/
  | reserve (p : Plan) (slot : Nat) (e g : UInt16) (hop : op = .plumbInit e g)
      (hslot : slot < maxCommandEntries) (hempty : (p.entry slot).status = .empty)
      (hid : isAnonymousEntry e g = false) (hfresh : ∀ s, ¬p.Holds s e g) :
      Move op p [] (p.put slot (reservedEntry e g))
  /-- A chunk is written into a reserved slot. -/
  | write (p : Plan) (slot : Nat) (cmd : Command) (hres : (p.entry slot).status = .reserved) :
      Move op p [] (p.put slot { p.entry slot with command := cmd })
  /-- A reserved slot is given up. -/
  | drop (p : Plan) (slot : Nat) (hop : op.drops) (hres : (p.entry slot).status = .reserved) :
      Move op p [] (p.put slot default)
  /-- A slot that was not pending gets a complete entry, under its own identifiers or under ones
  nobody else has. -/
  | commit (p : Plan) (slot : Nat) (e : TimelineEntry) (hop : op.commits)
      (hslot : slot < maxCommandEntries) (hnew : (p.entry slot).status ≠ .pending)
      (hpend : e.status = .pending) (hwell : e.WellSized)
      (hid : isAnonymousEntry e.entryId e.groupId = false →
        ∀ s, p.Holds s e.entryId e.groupId → s = slot)
      (hkeep : (p.entry slot).status ≠ .empty →
        (p.entry slot).entryId = e.entryId ∧ (p.entry slot).groupId = e.groupId) :
      Move op p [.committed slot] (p.schedule slot e)
  /-- A pending entry is sent and kept. -/
  | send (p : Plan) (slot : Nat) (hop : op.isProcess = false) (hmem : slot ∈ p.agenda) :
      Move op p [.transmit slot (p.entry slot).command] p
  /-- A pending entry is sent and struck off. -/
  | execute (p : Plan) (slot : Nat) (hop : op.lets .executed) (hmem : slot ∈ p.agenda) :
      Move op p [.transmit slot (p.entry slot).command, .left slot .executed] (p.remove slot)
  /-- A pending entry is struck off unsent. -/
  | leave (p : Plan) (slot : Nat) (cause : Cause) (hop : op.lets cause) (hne : cause ≠ .executed)
      (hmem : slot ∈ p.agenda) :
      Move op p [.left slot cause] (p.remove slot)

/-! ## The invariant is kept -/

namespace Plan

/-- What is not on the agenda has no part in its order. -/
theorem Sorted.put {p : Plan} (h : p.Sorted) {slot : Nat} (hn : slot ∉ p.agenda)
    (e : TimelineEntry) : (p.put slot e).Sorted := by
  refine List.Pairwise.imp_of_mem (fun {a b} ha hb hab => ?_) h
  have hne : ∀ s ∈ p.agenda, s ≠ slot := fun s hs he => hn (he ▸ hs)
  rwa [put_entry, put_entry, if_neg (hne a ha), if_neg (hne b hb)]

theorem Valid.notMem {p : Plan} (h : p.Valid) {slot : Nat}
    (hs : (p.entry slot).status ≠ .pending) : slot ∉ p.agenda := fun hm => hs ((h.mem slot).1 hm)

/-- Overwriting a slot that is not pending by something that is not pending. -/
theorem Valid.put {p : Plan} (h : p.Valid) {slot : Nat} {e : TimelineEntry}
    (hslot : slot < maxCommandEntries) (hold : (p.entry slot).status ≠ .pending)
    (hnew : e.status ≠ .pending) (hblank : e.status = .empty → e = default)
    (hanon : e.status ≠ .empty → isAnonymousEntry e.entryId e.groupId = false)
    (hid : e.status ≠ .empty → ∀ s, p.Holds s e.entryId e.groupId → s = slot) :
    (p.put slot e).Valid where
  bound s hs := by rw [put_entry, if_neg (by omega)]; exact h.bound s hs
  nodup := h.nodup
  mem s := by
    rw [put_agenda, put_entry, h.mem]
    split
    · rename_i hs; subst hs; exact iff_of_false hold hnew
    · rfl
  sorted := h.sorted.put (h.notMem hold) e
  blank s := by
    rw [put_entry]
    split
    · exact hblank
    · exact h.blank s
  unique a b e' g' hid' ha hb := by
    unfold Holds at ha hb
    rw [put_entry] at ha hb
    split at ha <;> split at hb
    · rename_i h1 h2; rw [h1, h2]
    · rename_i h1 _
      have := hid ha.1 b ⟨hb.1, by rw [hb.2.1, ha.2.1], by rw [hb.2.2, ha.2.2]⟩
      rw [h1, this]
    · rename_i _ h2
      have := hid hb.1 a ⟨ha.1, by rw [ha.2.1, hb.2.1], by rw [ha.2.2, hb.2.2]⟩
      rw [h2, this]
    · exact h.unique a b e' g' hid' ha hb
  anonymous s := by
    rw [put_entry]
    split
    · intro hs ha; rw [hanon hs] at ha; exact absurd ha (by simp)
    · exact h.anonymous s
  wellSized s := by
    rw [put_entry]
    split
    · intro hs; exact absurd hs hnew
    · exact h.wellSized s
  noErrors := h.noErrors

/-- Striking a slot off. -/
theorem Valid.remove {p : Plan} (h : p.Valid) (slot : Nat) : (p.remove slot).Valid where
  bound s hs := by
    rw [remove_entry]
    split
    · rfl
    · exact h.bound s hs
  nodup := h.nodup.erase slot
  mem s := by
    rw [h.mem_remove, remove_entry, h.mem]
    split
    · rename_i hs; subst hs; exact iff_of_false (fun hc => hc.1 rfl) (by simp [default])
    · rename_i hs; exact and_iff_right hs
  sorted := by
    have hsub : (p.remove slot).agenda.Sublist p.agenda := List.erase_sublist
    refine (h.sorted.sublist hsub).imp_of_mem fun {a b} ha hb hab => ?_
    rwa [remove_entry, remove_entry, if_neg (h.mem_remove.1 ha).1, if_neg (h.mem_remove.1 hb).1]
  blank s := by
    rw [remove_entry]
    split
    · intro _; rfl
    · exact h.blank s
  unique a b e' g' hid' ha hb := by
    unfold Holds at ha hb
    rw [remove_entry] at ha hb
    split at ha <;> split at hb
    · exact absurd rfl ha.1
    · exact absurd rfl ha.1
    · exact absurd rfl hb.1
    · exact h.unique a b e' g' hid' ha hb
  anonymous s := by
    rw [remove_entry]
    split
    · intro hs; exact absurd rfl hs
    · exact h.anonymous s
  wellSized s := by
    rw [remove_entry]
    split
    · intro hs; exact absurd hs (by simp [default])
    · exact h.wellSized s
  noErrors := h.noErrors

/-- Scheduling a complete entry. -/
theorem Valid.schedule {p : Plan} (h : p.Valid) {slot : Nat} {e : TimelineEntry}
    (hslot : slot < maxCommandEntries) (hold : (p.entry slot).status ≠ .pending)
    (hpend : e.status = .pending) (hwell : e.WellSized)
    (hid : isAnonymousEntry e.entryId e.groupId = false →
      ∀ s, p.Holds s e.entryId e.groupId → s = slot) :
    (p.schedule slot e).Valid where
  bound s hs := by rw [schedule_entry, if_neg (by omega)]; exact h.bound s hs
  nodup := (enqueue_perm _ _ slot p.agenda).nodup_iff.2
    (List.nodup_cons.2 ⟨fun hm => hold ((h.mem slot).1 hm), h.nodup⟩)
  mem s := by
    rw [mem_schedule, schedule_entry, h.mem]
    split
    · rename_i hs; exact iff_of_true (Or.inl hs) hpend
    · rename_i hs; exact or_iff_right hs
  sorted := by
    have hne : ∀ s ∈ p.agenda, s ≠ slot := fun s hs he => hold (he ▸ (h.mem s).1 hs)
    refine pairwise_enqueue (h.sorted.imp_of_mem fun {a b} ha hb hab => ?_) (fun y hy hk => ?_)
      (fun y hy hk => ?_) (fun y hy z hz hk hk' => ?_)
    · rwa [schedule_entry, schedule_entry, if_neg (hne a ha), if_neg (hne b hb)]
    · rw [schedule_entry, schedule_entry, if_neg (hne y hy), if_pos rfl]; grind
    · rw [schedule_entry, schedule_entry, if_neg (hne y hy), if_pos rfl]; grind
    · rw [schedule_entry, schedule_entry, if_neg (hne y hy), if_neg (hne z hz)]; grind
  blank s := by
    rw [schedule_entry]
    split
    · intro hs; rw [hpend] at hs; exact absurd hs (by simp)
    · exact h.blank s
  unique a b e' g' hid' ha hb := by
    unfold Holds at ha hb
    rw [schedule_entry] at ha hb
    split at ha <;> split at hb
    · rename_i h1 h2; rw [h1, h2]
    · rename_i h1 _
      obtain ⟨-, rfl, rfl⟩ := ha
      rw [h1, hid hid' b hb]
    · rename_i _ h2
      obtain ⟨-, rfl, rfl⟩ := hb
      rw [h2, hid hid' a ha]
    · exact h.unique a b e' g' hid' ha hb
  anonymous s := by
    rw [schedule_entry]
    split
    · intro _ _; exact hpend
    · exact h.anonymous s
  wellSized s := by
    rw [schedule_entry]
    split
    · intro _; exact hwell
    · exact h.wellSized s
  noErrors := h.noErrors

end Plan

/-- **A move keeps the invariant.** -/
theorem Move.valid {op : Op} {p q : Plan} {es : List Effect} (hm : Move op p es q)
    (h : p.Valid) : q.Valid := by
  cases hm with
  | note paused c evs hc hev =>
    refine { h with noErrors := ?_ }
    rcases hc with hc | hc
    · exact hc.trans h.noErrors
    · exact hc
  | reserve slot e g hop hslot hempty hid hfresh =>
    exact h.put hslot (by rw [hempty]; simp) (by simp [reservedEntry]) (by simp [reservedEntry])
      (fun _ => hid) (fun _ s hs => absurd hs (hfresh s))
  | write slot cmd hres =>
    have hne : (p.entry slot).status ≠ .empty := by rw [hres]; simp
    have hanon : isAnonymousEntry (p.entry slot).entryId (p.entry slot).groupId = false := by
      cases ha : isAnonymousEntry (p.entry slot).entryId (p.entry slot).groupId with
      | false => rfl
      | true => exact absurd (h.anonymous slot hne ha) (by rw [hres]; simp)
    exact h.put (h.lt_of_status hne) (by rw [hres]; simp) (by simp [hres]) (by simp [hres])
      (fun _ => hanon) (fun _ s hs => h.unique s slot _ _ hanon hs ⟨hne, rfl, rfl⟩)
  | drop slot hop hres =>
    exact h.put (h.lt_of_status (by rw [hres]; simp)) (by rw [hres]; simp) (by simp [default])
      (fun _ => rfl) (fun he => absurd rfl he) (fun he => absurd rfl he)
  | commit slot e hop hslot hnew hpend hwell hid hkeep =>
    exact h.schedule hslot hnew hpend hwell hid
  | send slot hop hmem => exact h
  | execute slot hop hmem => exact h.remove slot
  | leave slot cause hop hne hmem => exact h.remove slot

end Ttc
end FlightApps
