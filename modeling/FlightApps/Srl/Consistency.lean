import FlightApps.Srl.Inits

/-!
# Handles and entries

`Handles` and the table of entries should fit together: every handle refers to an entry of its own
whose device is open, and every entry that is taken belongs to a handle.  Two things break that.  An
initialisation that fails late keeps an entry to which no handle refers.  And `CFE_SRL_ApiClose`
clears the entry and its own copy of the pointer, while the handle of the device still refers to the
entry, which the next initialisation may give to another device.  `handles_consistent` says that
there is nothing else.
-/

set_option autoImplicit false

namespace FlightApps
namespace Srl

open Serial (Subch Closing)

variable {s t : State}

/-- The handles and the table fit together. -/
structure Consistent (s : State) : Prop where
  /-- A handle refers to an entry that is taken, with an open descriptor. -/
  refers : ∀ i e, s.handles i = some e →
    (s.entries e).queryStatus statusAllocate = true ∧ (s.entries e).fd ∈ s.opened
  /-- No two devices share an entry. -/
  apart : ∀ i j e, s.handles i = some e → s.handles j = some e → i = j
  /-- An entry that is taken belongs to a handle. -/
  used : ∀ e, (s.entries e).queryStatus statusAllocate = true → ∃ i, s.handles i = some e
  /-- Reads and writes for a device go to an open descriptor, which no other device uses. -/
  reaches : ∀ i fd, s.reach i = some fd → fd ∈ s.opened ∧ ∀ j, s.reach j = some fd → j = i

/-- The same with all that an entry in use has. -/
structure Owned (s : State) : Prop where
  live : ∀ i e, s.handles i = some e → (s.entries e).Live (s.entries e).fd ∧
    (s.entries e).fd ∈ s.opened
  apart : ∀ i j e, s.handles i = some e → s.handles j = some e → i = j
  used : ∀ e, (s.entries e).queryStatus statusAllocate = true → ∃ i, s.handles i = some e
  fds : ∀ i j e f, s.handles i = some e → s.handles j = some f →
    (s.entries e).fd = (s.entries f).fd → e = f

/-- The arguments of `CFE_SRL_HandleInit` in a step, if it comes to that. -/
def Op.init? : Op → Option (InitArgs × InitCalls)
  | .handleInit a c => some (a, c)
  | .initHandleCmd indexer name devName devType c =>
    match deviceOf indexer with
    | none => none
    | some i =>
      if terminated name && terminated devName && (subchOf devType).isSome then
        some (⟨some i, some name, some devName, devType, indexer.toNat.toUInt8, true⟩, c)
      else none
  | _ => none

/-- A step that keeps the tables in order: an initialisation does not fail once it has taken an
entry, and no application closes a handle. -/
def Orderly (s : State) (op : Op) : Prop :=
  (∀ a c, op.init? = some (a, c) → Takes s a c → Completes s a c) ∧
  ∀ i c, op = .apiClose i c → s.handles i = none

theorem reach_eq_some {i : Device} {fd : Nat} (h : s.reach i = some fd) :
    ∃ e, s.handles i = some e ∧ (s.entries e).fd = fd := by
  rw [State.reach, Option.bind_eq_bind, Option.bind_eq_some_iff] at h
  obtain ⟨e, he, h⟩ := h
  rw [Option.bind_eq_bind, Option.bind_eq_some_iff] at h
  obtain ⟨_, _, h⟩ := h
  exact ⟨e, he, Option.some.inj h⟩

theorem Owned.consistent (h : Owned s) : Consistent s := by
  refine ⟨fun i e he => ⟨(h.live i e he).1.1, (h.live i e he).2⟩, h.apart, h.used, ?_⟩
  intro i fd hfd
  obtain ⟨e, he, rfl⟩ := reach_eq_some hfd
  refine ⟨(h.live i e he).2, fun j hj => ?_⟩
  obtain ⟨f, hf, heq⟩ := reach_eq_some hj
  obtain rfl := h.fds j i f e hf he heq
  exact h.apart j i f hf he

theorem start_owned : Owned start := by
  refine ⟨?_, ?_, ?_, ?_⟩
  · intro i e he
    cases he
  · intro i j e he
    cases he
  · intro e he
    exact absurd he (by simp [start, zeroEntry, Entry.queryStatus, statusAllocate])
  · intro i j e f he
    cases he

/-! ## Steps -/

/-- A step that goes to `CFE_SRL_HandleInit` does what this does, and other commands to initialise
do nothing. -/
theorem act_init {op : Op} {a : InitArgs} {c : InitCalls} (h : op.init? = some (a, c)) (s : State) :
    (s.act op).1 = (s.handleInit a c).1 := by
  cases op with
  | handleInit a' c' =>
    cases h
    rfl
  | initHandleCmd indexer name devName devType c' =>
    rw [Op.init?] at h
    split at h
    · cases h
    · rename_i i hi
      split at h
      · rename_i hvalid
        cases h
        rw [Bool.and_eq_true, Bool.and_eq_true, Option.isSome_iff_ne_none] at hvalid
        simp only [State.act, State.initHandleCmd, hi, hvalid.1.1, hvalid.1.2, Bool.and_self,
          Bool.not_true, if_neg hvalid.2]
        rfl
      · cases h
  | closeHandleCmd => cases h
  | apiClose => cases h

theorem initHandleCmd_idle {indexer : Int} {name devName : List UInt8} {devType : UInt8}
    {c : InitCalls} (h : (Op.initHandleCmd indexer name devName devType c).init? = none) :
    (s.initHandleCmd indexer name devName devType c).1 = s := by
  rw [Op.init?] at h
  split at h
  · rename_i hi
    simp only [State.initHandleCmd, hi]
  · rename_i i hi
    simp only [State.initHandleCmd, hi]
    split at h
    · cases h
    · rename_i hvalid
      split
      · rfl
      · rename_i hterm
        split
        · rfl
        · rename_i hsubch
          rw [Bool.not_eq_true, Bool.not_eq_false'] at hterm
          rw [hterm, Bool.true_and, Option.isSome_iff_ne_none] at hvalid
          exact absurd hsubch hvalid

theorem Owned.install (h : Owned s) {i : Device} {e : Idx} (hnull : s.handles i = none)
    (hfree : (s.entries e).queryStatus statusAllocate = false) (hi : Installs s i e t) :
    Owned t := by
  obtain ⟨⟨fd, hnew, hopened, x, hx, hentries⟩, hhandles⟩ := hi
  have hunused : ∀ j f, s.handles j = some f → f ≠ e := by
    rintro j f hj rfl
    exact absurd ((h.live j f hj).1.1.symm.trans hfree) (by decide)
  -- what the handles of the new state are, and their entries
  have hcases : ∀ j f, t.handles j = some f →
      (j = i ∧ f = e ∧ t.entries f = x) ∨
      (j ≠ i ∧ s.handles j = some f ∧ t.entries f = s.entries f) := by
    intro j f hj
    rw [hhandles] at hj
    rw [hentries]
    by_cases hji : j = i
    · rw [hji, Function.update_self] at hj
      cases hj
      exact .inl ⟨hji, rfl, Function.update_self ..⟩
    · rw [Function.update_of_ne hji] at hj
      exact .inr ⟨hji, hj, Function.update_of_ne (hunused j f hj) ..⟩
  have hold : ∀ j f, s.handles j = some f → (s.entries f).fd ≠ fd := by
    rintro j f hj rfl
    exact hnew (h.live j f hj).2
  refine ⟨?_, ?_, ?_, ?_⟩
  · intro j f hj
    rw [hopened]
    rcases hcases j f hj with ⟨-, -, hf⟩ | ⟨-, hj, hf⟩
    · rw [hf, hx.2.2.2]
      exact ⟨hx, Finset.mem_insert_self fd _⟩
    · rw [hf]
      exact ⟨(h.live j f hj).1, Finset.mem_insert_of_mem (h.live j f hj).2⟩
  · intro j k f hj hk
    rcases hcases j f hj with ⟨hji, hfe, -⟩ | ⟨-, hj, -⟩
    · rcases hcases k f hk with ⟨hki, -, -⟩ | ⟨-, hk, -⟩
      · rw [hji, hki]
      · exact absurd hfe (hunused k f hk)
    · rcases hcases k f hk with ⟨-, hfe, -⟩ | ⟨-, hk, -⟩
      · exact absurd hfe (hunused j f hj)
      · exact h.apart j k f hj hk
  · intro f hf
    rw [hentries] at hf
    rw [hhandles]
    by_cases hfe : f = e
    · exact ⟨i, by rw [Function.update_self, hfe]⟩
    · rw [Function.update_of_ne hfe] at hf
      obtain ⟨j, hj⟩ := h.used f hf
      have hji : j ≠ i := by
        rintro rfl
        rw [hnull] at hj
        cases hj
      exact ⟨j, by rw [Function.update_of_ne hji, hj]⟩
  · intro j k f g hj hk heq
    rcases hcases j f hj with ⟨-, hfe, hf⟩ | ⟨-, hj, hf⟩
    · rcases hcases k g hk with ⟨-, hge, -⟩ | ⟨-, hk, hg⟩
      · rw [hfe, hge]
      · rw [hf, hg, hx.2.2.2] at heq
        exact absurd heq.symm (hold k g hk)
    · rcases hcases k g hk with ⟨-, -, hg⟩ | ⟨-, hk, hg⟩
      · rw [hf, hg, hx.2.2.2] at heq
        exact absurd heq (hold j f hj)
      · rw [hf, hg] at heq
        exact h.fds j k f g hj hk heq

/-- A step closes an entry. -/
structure Frees (s : State) (e : Idx) (t : State) : Prop where
  entries : t.entries = Function.update s.entries e zeroEntry
  handles : t.handles = s.handles
  opened : ∀ fd, fd ∈ s.opened → fd ≠ (s.entries e).fd → fd ∈ t.opened

theorem closeDevice_spec (s : State) (fd : Nat) (closing : Closing) :
    (s.closeDevice fd closing).1.entries = s.entries ∧
    (s.closeDevice fd closing).1.handles = s.handles ∧
    ∀ fd', fd' ∈ s.opened → fd' ≠ fd → fd' ∈ (s.closeDevice fd closing).1.opened := by
  have herase : ∀ fd', fd' ∈ s.opened → fd' ≠ fd → fd' ∈ s.opened.erase fd :=
    fun fd' hmem hne => Finset.mem_erase.2 ⟨hne, hmem⟩
  by_cases hopen : fd ∈ s.opened
  · cases closing with
    | done =>
      simp only [State.closeDevice, if_pos hopen]
      exact ⟨trivial, trivial, herase⟩
    | failed kept =>
      cases kept with
      | false =>
        simp only [State.closeDevice, if_pos hopen]
        exact ⟨trivial, trivial, herase⟩
      | true =>
        simp only [State.closeDevice, if_pos hopen]
        exact ⟨trivial, trivial, fun fd' hmem _ => hmem⟩
  · simp only [State.closeDevice, if_neg hopen]
    exact ⟨trivial, trivial, fun fd' hmem _ => hmem⟩

theorem mutexDestroy_spec (s : State) (mutexIdx : UInt8) (deletes : Bool) :
    (s.mutexDestroy mutexIdx deletes).1.entries = s.entries ∧
    (s.mutexDestroy mutexIdx deletes).1.handles = s.handles ∧
    (s.mutexDestroy mutexIdx deletes).1.opened = s.opened := by
  rw [State.mutexDestroy]
  split
  · exact ⟨rfl, rfl, rfl⟩
  · split
    · exact ⟨rfl, rfl, rfl⟩
    · exact ⟨rfl, rfl, rfl⟩

/-- `CFE_SRL_HandleClose` gives the entry back whatever its calls give. -/
theorem handleClose_frees {e : Idx} (h : (s.entries e).queryStatus statusFdInit = true)
    (c : CloseCalls) :
    (s.handleClose (some e) c).2.1 = none ∧ Frees s e (s.handleClose (some e) c).1 := by
  simp only [State.handleClose, h, Bool.not_true, Bool.false_eq_true, if_false]
  obtain ⟨hentries, hhandles, hopened⟩ := closeDevice_spec s (s.entries e).fd c.closing
  obtain ⟨hentries', hhandles', hopened'⟩ :=
    mutexDestroy_spec (s.closeDevice (s.entries e).fd c.closing).1 (s.entries e).mutexIdx c.deletes
  refine ⟨trivial, ?_, ?_, ?_⟩
  · rw [State.setEntry, hentries', hentries]
  · exact hhandles'.trans hhandles
  · intro fd hmem hne
    have hstays := hopened fd hmem hne
    rw [← hopened'] at hstays
    exact hstays

theorem zeroEntry_free : zeroEntry.queryStatus statusAllocate = false := by decide

theorem Owned.close (h : Owned s) {i : Device} {e : Idx} (he : s.handles i = some e)
    (hf : Frees s e t) : Owned (t.setHandle i none) := by
  have hcases : ∀ j f, (t.setHandle i none).handles j = some f →
      s.handles j = some f ∧ f ≠ e ∧ t.entries f = s.entries f := by
    intro j f hj
    by_cases hji : j = i
    · rw [hji, setHandle_self] at hj
      cases hj
    · have hold : s.handles j = some f := by
        rw [← hf.handles, ← setHandle_other hji]
        exact hj
      have hfe : f ≠ e := by
        rintro rfl
        exact hji (h.apart j i f hold he)
      exact ⟨hold, hfe, by rw [hf.entries, Function.update_of_ne hfe]⟩
  refine ⟨?_, ?_, ?_, ?_⟩
  · intro j f hj
    obtain ⟨hold, hfe, hsame⟩ := hcases j f hj
    rw [setHandle_entries, hsame, setHandle_opened]
    refine ⟨(h.live j f hold).1, hf.opened _ (h.live j f hold).2 fun heq => hfe ?_⟩
    exact h.fds j i f e hold he heq
  · intro j k f hj hk
    exact h.apart j k f (hcases j f hj).1 (hcases k f hk).1
  · intro f hused
    rw [setHandle_entries, hf.entries] at hused
    have hfe : f ≠ e := by
      rintro rfl
      rw [Function.update_self, zeroEntry_free] at hused
      cases hused
    rw [Function.update_of_ne hfe] at hused
    obtain ⟨j, hj⟩ := h.used f hused
    have hji : j ≠ i := by
      rintro rfl
      exact hfe (Option.some.inj (hj.symm.trans he))
    refine ⟨j, ?_⟩
    rw [setHandle_other hji, hf.handles, hj]
  · intro j k f g hj hk heq
    obtain ⟨hold, -, hsame⟩ := hcases j f hj
    obtain ⟨hold', -, hsame'⟩ := hcases k g hk
    rw [setHandle_entries, hsame, hsame'] at heq
    exact h.fds j k f g hold hold' heq

/-- An orderly step keeps the tables in order. -/
theorem act_owned (h : Owned s) {op : Op} (ho : Orderly s op) : Owned (s.act op).1 := by
  cases hinit : op.init? with
  | some x =>
    obtain ⟨a, c⟩ := x
    rw [act_init hinit]
    rcases handleInit_cases s a c with ⟨-, heq⟩ | ⟨i, e, htakes, -, hnull, hfree, hcase⟩
    · rwa [heq]
    · rcases hcase with ⟨-, -, hinst⟩ | ⟨hc, -, -⟩
      · exact h.install hnull hfree hinst
      · exact absurd (ho.1 a c hinit htakes) hc
  | none =>
    cases op with
    | handleInit a c => cases hinit
    | initHandleCmd indexer name devName devType c =>
      have hsame : (s.act (.initHandleCmd indexer name devName devType c)).1 = s :=
        initHandleCmd_idle hinit
      rwa [hsame]
    | closeHandleCmd indexer c =>
      simp only [State.act, State.closeHandleCmd]
      split
      · exact h
      · rename_i i hi
        split
        · exact h
        · rename_i hne
          obtain ⟨e, he⟩ := Option.ne_none_iff_exists'.1 hne
          obtain ⟨hnull, hfrees⟩ := handleClose_frees (h.live i e he).1.2.1 c
          rw [he, hnull]
          exact h.close he hfrees
    | apiClose i c =>
      simp only [State.act, State.apiClose, if_pos (ho.2 i c rfl)]
      exact h

/-- A step that leaves the tables consistent was orderly. -/
theorem orderly_of_consistent (h : Owned s) {op : Op} (hc : Consistent (s.act op).1) :
    Orderly s op := by
  constructor
  · intro a c hinit htakes
    rw [act_init hinit] at hc
    rcases handleInit_cases s a c with ⟨hno, -⟩ | ⟨i, e, -, -, -, hfree, hcase⟩
    · exact absurd htakes hno
    · rcases hcase with ⟨hcomp, -, -⟩ | ⟨-, -, hleak⟩
      · exact hcomp
      · obtain ⟨x, hx, hentries⟩ := hleak.entries
        obtain ⟨j, hj⟩ := hc.used e (by rw [hentries, Function.update_self, hx])
        rw [hleak.handles] at hj
        exact absurd ((h.live j e hj).1.1.symm.trans hfree) (by decide)
  · rintro i c rfl
    by_contra hne
    obtain ⟨e, he⟩ := Option.ne_none_iff_exists'.1 hne
    obtain ⟨-, hfrees⟩ := handleClose_frees (h.live i e he).1.2.1 c
    have hact : (s.act (.apiClose i c)).1 = (s.handleClose (some e) c).1 := by
      rw [State.act, State.apiClose, if_neg hne, he]
    rw [hact] at hc
    have halloc := (hc.refers i e (by rw [hfrees.handles, he])).1
    rw [hfrees.entries, Function.update_self, zeroEntry_free] at halloc
    cases halloc

/-- **Handles and entries.**  In all of a run every handle refers to a taken entry with an open
descriptor, no two devices share an entry, every taken entry belongs to a handle, and reads and
writes for a device reach an open descriptor of its own, exactly if no initialisation fails once it
has taken an entry and no application closes a handle. -/
theorem handles_consistent (ops : List Op) :
    (∀ pre, pre <+: ops → Consistent (srl.run start pre)) ↔
      ∀ pre op, pre ++ [op] <+: ops → Orderly (srl.run start pre) op :=
  srl.weak_invariant_iff start_owned (fun _ h => h.consistent)
    (fun _ _ h hc => orderly_of_consistent h hc) (fun _ _ h ho => act_owned h ho) ops

/-- An application closes the handle of the first device, and a command opens the second: both
handles refer to the same entry, and reads for the first reach the device of the second. -/
theorem closed_handle_reaches_other :
    ¬Consistent (srl.run start
      [.initHandleCmd 0 [73, 0] [100, 0] 1 ⟨true, some 3, true, true⟩,
        .apiClose ⟨0, by decide⟩ ⟨.done, true⟩,
        .initHandleCmd 1 [82, 0] [116, 0] 4 ⟨true, some 4, true, true⟩]) := by
  intro h
  exact absurd (h.apart ⟨0, by decide⟩ ⟨1, by decide⟩ ⟨0, by decide⟩ (by decide) (by decide))
    (by decide)

end Srl
end FlightApps
