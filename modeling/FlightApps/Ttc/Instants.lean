import Mathlib.Algebra.Ring.Nat
import FlightApps.Ttc.Order
import FlightApps.Ttc.Plumbing
import FlightApps.Ttc.Safety

/-!
# When a new entry is due

A time tag is absolute or counts from the clock.  The absolute ones are compared with the clock; the
relative ones are added to it in 32 bits, at two places of the source, and nothing looks at the sum.
`scheduled_in_time_iff` says what a call that schedules an entry comes to: the entry waits for the
instant it was meant for exactly if that sum does not wrap.
-/

set_option autoImplicit false

namespace FlightApps
namespace Ttc

variable {t : Timeline} {op : Op} {ty : UInt8} {tag now : UInt32}

/-- The calls that schedule an entry: the type of the time tag, the tag, and the clock reading the
tag is compared with or added to. -/
def Op.schedules : Op → Option (UInt8 × UInt32 × UInt32)
  | .addEntry ty _ _ tag _ _ _ now => some (ty, tag, now)
  | .plumbFinalize ty _ _ tag _ _ _ now now' =>
    some (ty, tag, if ty = timetagTypeRelative then now' else now)
  | _ => none

/-- The instant a time tag asks for, in seconds. -/
def requestedInstant (ty : UInt8) (tag now : UInt32) : Nat :=
  if ty = timetagTypeRelative then now.toNat + tag.toNat else tag.toNat

/-- An entry that is scheduled has the tag that was asked for, as the code computes it. -/
structure Scheduled (t : Timeline) (r : Outcome) (ty : UInt8) (tag now : UInt32) (slot : Nat) :
    Prop where
  /-- The slot is new on the agenda. -/
  fresh : (t.entry slot).status ≠ .pending
  pending : (r.timeline.entry slot).status = .pending
  effects : r.effects = [.committed slot]
  timeTag : (r.timeline.entry slot).timeTag = absTimeTag ty tag now
  /-- An absolute tag has been compared with the clock. -/
  compared : ty ≠ timetagTypeRelative → now ≤ tag

theorem timelineAddEntry_scheduled (hv : t.plan.Valid) {e g : UInt16} {st : UInt16} {ex : UInt8}
    {data : List UInt8} (hok : (timelineAddEntry t ty e g tag st ex data now).status = .success) :
    ∃ slot, Scheduled t (timelineAddEntry t ty e g tag st ex data now) ty tag now slot := by
  rw [timelineAddEntry_eq hv] at hok ⊢
  dsimp only at hok ⊢
  split at hok
  · rename_i hstatus
    rw [if_pos hstatus]
    obtain ⟨hcompared, -, hfull, -⟩ := addStatus_eq_success hstatus
    rcases findEmptySlot_cases t with ⟨h, -⟩ | ⟨hslot, hempty⟩
    · simp [full, h] at hfull
    have hold : (t.plan.entry (findEmptySlot t)).status ≠ .pending := by
      rw [plan_entry, hempty]
      simp
    have hcount : t.count < maxCommandEntries := by simpa using hv.length_lt hslot hold
    refine ⟨findEmptySlot t, hold, ?_, rfl, ?_, hcompared⟩
    · rw [← plan_entry, plan_commit hv.sorted hslot hcount, Plan.schedule_entry, if_pos rfl]
      simp [newEntry]
    · rw [← plan_entry, plan_commit hv.sorted hslot hcount, Plan.schedule_entry, if_pos rfl]
      simp [newEntry]
  · rename_i hne
    exact absurd hok hne

theorem plumbFinalize_scheduled (hv : t.plan.Valid) {e g : UInt16} {st : UInt16} {ex : UInt8}
    {size : Nat} {now' : UInt32}
    (hok : (plumbTimelineAddEntryFinalize t ty e g tag st ex size now now').status = .success) :
    ∃ slot, Scheduled t (plumbTimelineAddEntryFinalize t ty e g tag st ex size now now') ty tag
      (if ty = timetagTypeRelative then now' else now) slot := by
  rcases plumbFinalize_cases hv ty e g tag st ex size now now' with
    ⟨-, h⟩ | ⟨-, -, h, hne⟩ | ⟨-, slot, hslot, hres, h⟩
  · rw [h] at hok
    simp [Outcome.refuse] at hok
  · rw [h] at hok
    exact absurd hok hne
  rw [h] at hok ⊢
  dsimp only at hok ⊢
  split at hok
  · rename_i hstatus
    rw [if_pos hstatus]
    have hcompared := (finalizeStatus_eq_success hstatus).1
    have hold : (t.plan.entry slot).status ≠ .pending := by
      rw [hres.1]
      simp
    have hcount : t.count < maxCommandEntries := by simpa using hv.length_lt hslot hold
    refine ⟨slot, hold, ?_, rfl, ?_, fun hrel => ?_⟩
    · rw [← plan_entry, plan_commit hv.sorted hslot hcount, Plan.schedule_entry, if_pos rfl]
      simp [TimelineEntry.finalize]
    · rw [← plan_entry, plan_commit hv.sorted hslot hcount, Plan.schedule_entry, if_pos rfl]
      by_cases hrel : ty = timetagTypeRelative <;> simp [TimelineEntry.finalize, absTimeTag, hrel]
    · rw [if_neg hrel]
      exact hcompared hrel
  · rename_i hne
    exact absurd hok hne

/-- **Every call that schedules an entry** does it in this way. -/
theorem perform_scheduled (hv : t.plan.Valid) (hop : op.schedules = some (ty, tag, now))
    (hok : (perform t op).status = .success) :
    ∃ slot, Scheduled t (perform t op) ty tag now slot := by
  cases op with
  | addEntry ty' e g tag' st ex data now' =>
    simp only [Op.schedules, Option.some.injEq, Prod.mk.injEq] at hop
    obtain ⟨rfl, rfl, rfl⟩ := hop
    exact timelineAddEntry_scheduled hv hok
  | plumbFinalize ty' e g tag' st ex size first second =>
    simp only [Op.schedules, Option.some.injEq, Prod.mk.injEq] at hop
    obtain ⟨rfl, rfl, rfl⟩ := hop
    exact plumbFinalize_scheduled hv hok
  | _ => simp [Op.schedules] at hop

/-- What is transmitted in a cycle is due. -/
theorem due_of_transmitted (hv : t.plan.Valid) {later : UInt32} {slot : Nat} {packet : Command}
    (h : (slot, packet) ∈ transmitted (processTimeline t now later).effects) :
    (t.entry slot).timeTag ≤ now := by
  cases hpause : t.executionPaused with
  | true =>
    rw [(processTimeline_paused hv hpause now later).1] at h
    exact absurd h List.not_mem_nil
  | false =>
    have hcyc := hv.cycle_eq now
    rw [plan_agenda, plan_entry] at hcyc
    rw [(processTimeline_cycle hv hpause now later).1, hcyc, List.mem_map] at h
    obtain ⟨s, hs, heq⟩ := h
    obtain ⟨rfl, -⟩ := Prod.mk.inj heq
    exact (hv.of_mem_due (List.takeWhile_subset _ (List.mem_of_mem_filter hs))).1

/-- The sum of the clock and a relative tag, as long as it does not wrap. -/
theorem toNat_absTimeTag (h : ty = timetagTypeRelative → now.toNat + tag.toNat < 2 ^ 32) :
    (absTimeTag ty tag now).toNat = requestedInstant ty tag now := by
  by_cases hrel : ty = timetagTypeRelative
  · rw [absTimeTag, requestedInstant, if_pos hrel, if_pos hrel, UInt32.toNat_add,
      Nat.mod_eq_of_lt (h hrel)]
  · rw [absTimeTag, requestedInstant, if_neg hrel, if_neg hrel]

/-- **When a new entry is due.**  In every reachable state, a call that schedules an entry puts it on
the agenda under a time tag that is not before the clock and that, if the tag is relative, is the sum
of the two, and as long as it is pending no cycle before that instant finds it due, let alone late:
all this exactly if the sum fits 32 bits, which is the case of every absolute tag. -/
theorem scheduled_in_time_iff (start : UInt32) (ops : List Op) (op : Op) (ty : UInt8)
    (tag now : UInt32) (hop : op.schedules = some (ty, tag, now))
    (hok : (ttc.step (ttc.run (timelineInitialize start) ops) op).2.1 = .success) :
    let s := ttc.run (timelineInitialize start) ops
    let s' := (ttc.step s op).1
    ∃ slot, (s.timeline.entry slot).status ≠ .pending ∧
      (s'.timeline.entry slot).status = .pending ∧
      (ttc.step s op).2.2 = [.committed slot] ∧
      ((now ≤ (s'.timeline.entry slot).timeTag ∧
          (ty = timetagTypeRelative →
            (s'.timeline.entry slot).timeTag.toNat = now.toNat + tag.toNat) ∧
          ∀ rest : List Op,
            (∀ k, k ≤ rest.length →
              ((ttc.run s' (rest.take k)).timeline.entry slot).status = .pending) →
            ∀ clock later : UInt32, clock.toNat < requestedInstant ty tag now →
              let t := (ttc.run s' rest).timeline
              verdict clock (t.entry slot) = .wait ∧
                ∀ packet, (slot, packet) ∉ transmitted (processTimeline t clock later).effects) ↔
        (ty = timetagTypeRelative → now.toNat + tag.toNat < 2 ^ 32)) := by
  intro s s'
  have hv : s.timeline.plan.Valid := valid_run start ops
  obtain ⟨slot, h⟩ := perform_scheduled hv hop hok
  have hv' : s'.timeline.plan.Valid := valid_step hv op
  refine ⟨slot, h.fresh, h.pending, h.effects, fun hp hrel => ?_, fun hfits => ⟨?_, ?_, ?_⟩⟩
  · rw [← hp.2.1 hrel]
    exact UInt32.toNat_lt _
  all_goals
    have htag : (s'.timeline.entry slot).timeTag.toNat = requestedInstant ty tag now := by
      rw [← toNat_absTimeTag hfits, ← h.timeTag]
      rfl
  · rw [UInt32.le_iff_toNat_le, htag, requestedInstant]
    split
    · exact Nat.le_add_right _ _
    · rename_i hrel
      exact UInt32.le_iff_toNat_le.1 (h.compared hrel)
  · intro hrel
    rw [htag, requestedInstant, if_pos hrel]
  · intro rest hpending clock later hclock t
    have hsame : t.entry slot = s'.timeline.entry slot := run_keeps_pending hv' rest hpending
    have hvalid : t.plan.Valid :=
      ttc.invariant (P := fun s => s.timeline.plan.Valid) (fun _ op h => valid_step h op) hv' rest
    have hbefore : clock < (t.entry slot).timeTag := by
      rw [UInt32.lt_iff_toNat_lt, hsame, htag]
      exact hclock
    refine ⟨by simp [verdict, hbefore], fun packet hpacket => ?_⟩
    have hdue := due_of_transmitted hvalid hpacket
    grind

/-- A command to be sent ten seconds from now. -/
theorem scheduled_in_time_iff_relative :
    let s := ttc.run (timelineInitialize 5) []
    let s' := (ttc.step s (.addEntry 1 1 0 10 0 0 samplePacket 5)).1
    ∃ slot, (s'.timeline.entry slot).timeTag.toNat = 15 := by
  intro s s'
  obtain ⟨slot, -, -, -, h⟩ := scheduled_in_time_iff 5 [] (.addEntry 1 1 0 10 0 0 samplePacket 5) 1
    10 5 rfl (by decide +kernel)
  exact ⟨slot, (h.2 fun _ => by decide).2.1 rfl⟩

/-- **A command for the second after the last one is sent at once.** -/
theorem wrapped_tag_is_due :
    let last : UInt32 := 0xFFFFFFFF
    let r := ttc.step (ttc.run (timelineInitialize last) [])
      (.addEntry timetagTypeRelative 1 0 1 0 exectypeForce samplePacket last)
    r.2.1 = .success ∧ (r.1.timeline.entry 0).status = .pending ∧
      (r.1.timeline.entry 0).timeTag < last ∧
      (r.1.timeline.entry 0).timeTag.toNat ≠ last.toNat + 1 ∧
      transmitted (processTimeline r.1.timeline last last).effects =
        [(0, (r.1.timeline.entry 0).command)] := by
  decide +kernel

end Ttc
end FlightApps
