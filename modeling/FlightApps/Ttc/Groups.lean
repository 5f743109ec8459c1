import Mathlib.Algebra.Ring.Nat
import FlightApps.Ttc.Order

/-!
# The group commands

`TTC_TimelineDeleteGroup` and `TTC_TimelineExecuteGroup` go through the index from its end down and
delete from it on the way.  What they do to the plan is in `FlightApps.Ttc.Loops`; here it is said
in terms of the entries, for every group: `members` are the entries a group command is about, and
`group_commands` what becomes of them and of everything else.
-/

set_option autoImplicit false

namespace FlightApps
namespace Ttc

variable {t : Timeline} {g : UInt16} {slot : Nat}

/-- A pending entry of the group that can be addressed: it does not have the anonymous pair of
identifiers. -/
def Timeline.IsMember (t : Timeline) (g : UInt16) (slot : Nat) : Prop :=
  (t.entry slot).status = .pending ∧ (t.entry slot).groupId = g ∧
    isAnonymousEntry (t.entry slot).entryId (t.entry slot).groupId = false

instance (t : Timeline) (g : UInt16) (slot : Nat) : Decidable (t.IsMember g slot) :=
  inferInstanceAs (Decidable (_ ∧ _ ∧ _))

/-- The members of a group, in the order they are due. -/
def Timeline.members (t : Timeline) (g : UInt16) : List Nat :=
  t.agenda.filter fun slot => decide (t.IsMember g slot)

/-- The test of the loops finds the members among the pending entries. -/
theorem inGroup_iff (h : (t.entry slot).status = .pending) :
    inGroup g (t.entry slot) = true ↔ t.IsMember g slot := by
  simp only [inGroup, Timeline.IsMember, isAnonymousEntry, h, Bool.and_eq_true, beq_iff_eq,
    Bool.not_eq_true', Bool.and_eq_false_iff, true_and]
  constructor
  · rintro ⟨rfl, hid⟩
    exact ⟨rfl, hid.symm⟩
  · rintro ⟨rfl, hid⟩
    exact ⟨rfl, hid.symm⟩

theorem groupOf_agenda (hv : t.plan.Valid) (g : UInt16) :
    t.plan.groupOf g t.agenda = t.members g := by
  refine List.filter_congr fun slot hs => ?_
  have hpend : (t.entry slot).status = .pending := (hv.mem slot).1 hs
  rw [Bool.eq_iff_iff, decide_eq_true_iff]
  exact inGroup_iff hpend

theorem mem_members (hv : t.plan.Valid) : slot ∈ t.members g ↔ t.IsMember g slot := by
  rw [Timeline.members, List.mem_filter, decide_eq_true_iff]
  exact and_iff_right_of_imp fun h => (hv.mem slot).2 h.1

theorem members_eq_nil (hv : t.plan.Valid) :
    t.members g = [] ↔ ¬∃ slot, t.IsMember g slot := by
  simp [List.eq_nil_iff_forall_not_mem, mem_members hv]

/-- The members are due in the order they are listed. -/
theorem members_sorted (hv : t.plan.Valid) (g : UInt16) :
    (t.members g).Pairwise fun a b => (t.entry a).timeTag ≤ (t.entry b).timeTag :=
  List.Pairwise.sublist List.filter_sublist hv.sorted

/-- There are at most as many as slots, so a 16-bit counter does not wrap. -/
theorem length_members_lt (hv : t.plan.Valid) (g : UInt16) : (t.members g).length < 2 ^ 16 := by
  have hle : (t.members g).length ≤ t.agenda.length := List.length_filter_le _ _
  have hbound : t.agenda.length ≤ maxCommandEntries := hv.length_le
  simp only [maxCommandEntries] at hbound
  omega

/-! ## Deleting -/

/-- The count of the loop is what `*Deleted` is set to. -/
theorem timelineDeleteGroup_count (hv : t.plan.Valid) (g : UInt16) :
    (timelineDeleteGroup t g).2 = (t.members g).length := by
  obtain ⟨-, hcount, -⟩ := deleteGroupFrom_spec g t.agenda [] t 0 hv rfl
  rw [t.length_agenda, groupOf_agenda hv, Nat.zero_add] at hcount
  exact hcount

theorem transmitted_left (slots : List Nat) (cause : Cause) :
    transmitted (slots.map fun s => .left s cause) = [] := by
  simp [transmitted, List.filterMap_map]

/-! ## Executing and keeping -/

/-- `ExecuteEntry` with persistence writes nothing but the cycle context. -/
theorem executeEntry_persist (hpend : (t.entry slot).status = .pending) :
    ∃ c, (executeEntry t slot true).1 = t.setContext c := by
  rw [executeEntry]
  split
  · exact ⟨t.cycleContext, by simp [Timeline.setContext]⟩
  · simp [hpend]

/-- So does the loop of `TTC_TimelineExecuteGroup`. -/
theorem executeGroupFrom_persist (g : UInt16) (i : Nat) :
    ∀ (t : Timeline) (found : Bool),
      ∃ c, (executeGroupFrom g true i t found).1 = t.setContext c := by
  induction i with
  | zero => exact fun t found => ⟨t.cycleContext, by simp [executeGroupFrom, Timeline.setContext]⟩
  | succ i ih =>
    intro t found
    rw [executeGroupFrom]
    dsimp only
    split
    · rename_i hgroup
      have hpend : (t.entry (t.index i)).status = .pending := by
        simpa using (Bool.and_eq_true_iff.1 hgroup).2
      obtain ⟨c, hc⟩ := executeEntry_persist hpend
      obtain ⟨c', hc'⟩ := ih (executeEntry t (t.index i) true).1 true
      exact ⟨c', by rw [hc', hc]; simp [Timeline.setContext]⟩
    · exact ih t found

/-- **The group commands.**  In every reachable state and for every group: deleting removes the
members of the group, reports how many they were, and leaves every other slot as it was and the
other pending entries in their order; executing transmits the members, each once and in the order
they are due, and then removes them likewise, or, when told to keep them, changes neither a slot nor
the index.  Both report that there is no entry exactly if the group has no member. -/
theorem group_commands (start : UInt32) (ops : List Op) (g : UInt16) :
    let t := (ttc.run (timelineInitialize start) ops).timeline
    let rest := t.agenda.filter fun s => decide (s ∉ t.members g)
    let cleared := fun s => if s ∈ t.members g then default else t.entry s
    let deletion := timelineDeleteGroup t g
    (∀ s, s ∈ t.members g ↔ t.IsMember g s) ∧ (t.members g).Nodup ∧
      ((t.members g).Pairwise fun a b => (t.entry a).timeTag ≤ (t.entry b).timeTag) ∧
      ((UInt16.ofNat deletion.2).toNat = (t.members g).length ∧
        deletion.1.timeline.agenda = rest ∧ deletion.1.timeline.entry = cleared ∧
        transmitted deletion.1.effects = [] ∧
        (deletion.1.status = .entryNotFound ↔ ¬∃ s, t.IsMember g s) ∧
        (deletion.1.status = .success ↔ ∃ s, t.IsMember g s)) ∧
      ∀ persistentExecution,
        let r := timelineExecuteGroup t g persistentExecution
        transmitted r.effects = (t.members g).map (fun s => (s, (t.entry s).command)) ∧
        (persistentExecution = false → r.timeline.agenda = rest ∧ r.timeline.entry = cleared) ∧
        (persistentExecution = true → r.timeline.entries = t.entries ∧
          r.timeline.sortedIndex = t.sortedIndex ∧ r.timeline.count = t.count) ∧
        (r.status = .entryNotFound ↔ ¬∃ s, t.IsMember g s) ∧
        (r.status = .success ↔ ∃ s, t.IsMember g s) := by
  intro t rest cleared deletion
  have hv : t.plan.Valid := valid_run start ops
  have hgroup := groupOf_agenda hv g
  have hempty := members_eq_nil (g := g) hv
  refine ⟨fun s => mem_members hv, hv.nodup.filter _, members_sorted hv g, ?_,
    fun persistentExecution => ?_⟩
  · obtain ⟨hstatus, hplan, heffects⟩ := timelineDeleteGroup_spec hv g
    rw [hgroup] at hstatus hplan heffects
    have hcount := timelineDeleteGroup_count hv g
    refine ⟨?_, congrArg Plan.agenda hplan, congrArg Plan.entry hplan, ?_, ?_⟩
    · rw [hcount, UInt16.toNat_ofNat']
      exact Nat.mod_eq_of_lt (length_members_lt hv g)
    · rw [heffects]
      exact transmitted_left _ _
    · rw [hstatus, ← hempty, ← not_not (a := ∃ s, t.IsMember g s), ← hempty]
      cases t.members g <;> simp
  · obtain ⟨hstatus, hplan, heffects⟩ := timelineExecuteGroup_spec hv g persistentExecution
    rw [hgroup] at hstatus hplan heffects
    refine ⟨?_, fun hkeep => ?_, fun hkeep => ?_, ?_⟩
    · rw [heffects]
      exact transmitted_flatMap _ _ _
    · subst hkeep
      exact ⟨congrArg Plan.agenda hplan, congrArg Plan.entry hplan⟩
    · subst hkeep
      obtain ⟨c, hc⟩ := executeGroupFrom_persist g t.count t false
      have hsame : (timelineExecuteGroup t g true).timeline = t.setContext c := hc
      rw [hsame]
      exact ⟨rfl, rfl, rfl⟩
    · rw [hstatus, ← hempty, ← not_not (a := ∃ s, t.IsMember g s), ← hempty]
      cases t.members g <;> simp

end Ttc
end FlightApps
