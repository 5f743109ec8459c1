import FlightApps.Kisscam.Lines

/-!
# What a download makes of a slot

A download that got the first lines of its range marks them, unless the slot was done, and leaves the
slot on-going, or done with the next image to come if every line of the image is marked (`Advanced`).
The table of the other slots stays as it is.
-/

set_option autoImplicit false

namespace FlightApps
namespace Kisscam

open Script

/-! ## Entries -/

section Entry

variable {d : Data} {mem : Nat}

theorem entry_setEntry_self (h : mem < memorySlot) (e : MemoryEntry) :
    (d.setEntry mem e).entry mem = e :=
  Cells.get_set_self _ h e

theorem entry_setEntry_ne {s : Nat} (h : s ≠ mem) (e : MemoryEntry) :
    (d.setEntry mem e).entry s = d.entry s :=
  Cells.get_set_ne _ h.symm e

end Entry

/-- Only the entry of one slot has changed. -/
structure Data.Only (mem : Nat) (d d' : Data) : Prop where
  handle : d'.handle = d.handle
  tblHandle : d'.tblHandle = d.tblHandle
  others : ∀ s, s ≠ mem → d'.entry s = d.entry s

section Only

variable {mem : Nat} {d d' d'' : Data}

theorem Data.Only.trans (h : d.Only mem d') (h' : d'.Only mem d'') : d.Only mem d'' :=
  ⟨h'.handle.trans h.handle, h'.tblHandle.trans h.tblHandle, fun s hs =>
    (h'.others s hs).trans (h.others s hs)⟩

theorem Data.Like.entry (h : d.Like d') (s : Nat) : d'.entry s = d.entry s := by
  rw [Data.entry, Data.entry, h.memSlotStatus]

theorem Data.Like.only (h : d.Like d') : d.Only mem d' := ⟨h.handle, h.tblHandle, fun s _ => h.entry s⟩

theorem Data.only_setEntry (e : MemoryEntry) : d.Only mem (d.setEntry mem e) :=
  ⟨rfl, rfl, fun _ hs => entry_setEntry_ne hs e⟩

theorem only_setLineTrue (line : Nat) : d.Only mem (setLineTrue d mem line) := by
  unfold setLineTrue
  dsimp only
  split
  · exact (Data.Like.refl d).only
  · exact Data.only_setEntry _

theorem only_markLines (line n : Nat) : d.Only mem (markLines mem line n d) := by
  induction n generalizing d line with
  | zero => exact (Data.Like.refl d).only
  | succ n ih => exact (only_setLineTrue line).trans (ih (line + 1))

theorem only_setState (state : UInt8) : d.Only mem (d.setState mem state) := Data.only_setEntry _

theorem only_inspection (total : Nat) : d.Only mem (inspection d mem total) := by
  unfold inspection
  dsimp only
  split <;> exact Data.only_setEntry _

end Only

/-! ## Marks -/

section Marks

variable {mem : Nat}

/-- What a mark makes of its entry. -/
theorem entry_setLineTrue (h : mem < memorySlot) (d : Data) {line : Nat} (hline : line < 480) :
    ((setLineTrue d mem line).entry mem).memoryState = (d.entry mem).memoryState ∧
    ((setLineTrue d mem line).entry mem).lastImgIdx = (d.entry mem).lastImgIdx ∧
    ∀ i, ((setLineTrue d mem line).entry mem).lineState.marked i = true ↔
      (d.entry mem).lineState.marked i = true ∨ (d.entry mem).memoryState ≠ downloadDone ∧ i = line := by
  rw [setLineTrue]
  split
  · rename_i hdone
    exact ⟨rfl, rfl, fun i => by simp [hdone]⟩
  · rename_i hdone
    rw [entry_setEntry_self h]
    refine ⟨rfl, rfl, fun i => ?_⟩
    rw [Bitmap.marked_mark _ hline, Bool.or_eq_true, decide_eq_true_eq, or_comm]
    simp only [ne_eq, hdone, not_false_eq_true, true_and]

/-- What the marks of some lines make of their entry. -/
theorem entry_markLines (h : mem < memorySlot) (d : Data) {line n : Nat} (hline : line + n ≤ 480) :
    ((markLines mem line n d).entry mem).memoryState = (d.entry mem).memoryState ∧
    ((markLines mem line n d).entry mem).lastImgIdx = (d.entry mem).lastImgIdx ∧
    ∀ i, ((markLines mem line n d).entry mem).lineState.marked i = true ↔
      (d.entry mem).lineState.marked i = true ∨
        (d.entry mem).memoryState ≠ downloadDone ∧ line ≤ i ∧ i < line + n := by
  induction n generalizing d line with
  | zero =>
    refine ⟨rfl, rfl, fun i => ⟨.inl, ?_⟩⟩
    rintro (hold | ⟨-, hlo, hhi⟩)
    · exact hold
    · omega
  | succ n ih =>
    obtain ⟨hstate, hidx, hmarked⟩ := entry_setLineTrue h d (show line < 480 by omega)
    obtain ⟨hstate', hidx', hmarked'⟩ := ih (setLineTrue d mem line) (show line + 1 + n ≤ 480 by omega)
    refine ⟨hstate'.trans hstate, hidx'.trans hidx, fun i => ?_⟩
    rw [markLines, hmarked', hmarked, hstate]
    constructor
    · rintro ((hold | ⟨hne, rfl⟩) | ⟨hne, hlo, hhi⟩)
      · exact .inl hold
      · exact .inr ⟨hne, Nat.le_refl _, by omega⟩
      · exact .inr ⟨hne, by omega, by omega⟩
    · rintro (hold | ⟨hne, hlo, hhi⟩)
      · exact .inl (.inl hold)
      · rcases Nat.eq_or_lt_of_le hlo with rfl | hlt
        · exact .inl (.inr ⟨hne, rfl⟩)
        · exact .inr ⟨hne, by omega, by omega⟩

end Marks

/-! ## Advancing -/

/-- The lines a download that got `n` lines of a range finds marked at its end. -/
def MemoryEntry.After (e : MemoryEntry) (start n i : Nat) : Prop :=
  e.lineState.marked i = true ∨ e.memoryState ≠ downloadDone ∧ start ≤ i ∧ i < start + n

/-- What a download that got `n` lines of its range makes of the entry. -/
inductive Advanced (pre : UInt8) (start n : Nat) (e e' : MemoryEntry) : Prop
  | going (state : e'.memoryState = onGoing) (idx : e'.lastImgIdx = e.lastImgIdx)
      (marked : ∀ i, e'.lineState.marked i = true ↔ e.After start n i)
  | completed (entry : e' = ⟨downloadDone, e.lastImgIdx + 1, Bitmap.clear 60⟩)
      (all : ∀ i < totLine pre, e.After start n i)

section Advanced

variable {mem : Nat} {pre : UInt8} {start n : Nat}

/-- A download that ends early leaves the slot on-going. -/
theorem advanced_setState (h : mem < memorySlot) {d d' : Data} (hlines : start + n ≤ 480)
    (hlike : (markLines mem start n d).Like d') :
    Advanced pre start n (d.entry mem) ((d'.setState mem onGoing).entry mem) := by
  obtain ⟨-, hidx, hmarked⟩ := entry_markLines h d hlines
  rw [Data.setState, entry_setEntry_self h, hlike.entry]
  exact .going rfl hidx hmarked

/-- One that ends well finds out whether the image is complete. -/
theorem advanced_inspection (h : mem < memorySlot) {d d' : Data} (hlines : start + n ≤ 480)
    (hlike : (markLines mem start n d).Like d') :
    Advanced pre start n (d.entry mem)
      ((inspection (d'.setState mem onGoing) mem (totLine pre)).entry mem) := by
  obtain ⟨-, hidx, hmarked⟩ := entry_markLines h d hlines
  have hset : (d'.setState mem onGoing).entry mem =
      { (markLines mem start n d).entry mem with memoryState := onGoing } := by
    rw [Data.setState, entry_setEntry_self h, hlike.entry]
  rw [inspection, hset]
  split
  · rename_i hall
    rw [entry_setEntry_self h]
    refine .completed (by rw [hidx]) fun i hi => ?_
    exact (hmarked i).1 (List.all_eq_true.1 hall i (List.mem_range.2 hi))
  · rw [entry_setEntry_self h]
    exact .going rfl hidx hmarked

end Advanced

end Kisscam
end FlightApps
