import FlightApps.Srl.Handles

/-!
# Initialisation that fails

`CFE_SRL_HandleInit` takes an entry of the table first and has a way out after each of the calls
that follow.  None of them gives the entry back or closes the device.  So a call that fails leaves
everything as it was exactly if it fails before it takes an entry: `Takes` says that it comes to
that, `Completes` that the calls that follow all succeed.
-/

set_option autoImplicit false

namespace FlightApps
namespace Srl

open Serial (Subch Closing)

variable {s : State} {a : InitArgs} {c : InitCalls}

/-- A call of `CFE_SRL_HandleInit` takes an entry: its arguments are in order, the device has no
handle, the mutex is taken, and there is an entry. -/
def Takes (s : State) (a : InitArgs) (c : InitCalls) : Prop :=
  ∃ i name devname, a.handle = some i ∧ a.name = some name ∧ a.devname = some devname ∧
    terminated name = true ∧ terminated devname = true ∧ s.handles i = none ∧ c.lock = true ∧
    s.findFree ≠ none

/-- The device is opened and configured, and its mutex is there or created. -/
structure Completes (s : State) (a : InitArgs) (c : InitCalls) : Prop where
  subch : subchOf a.devType ≠ none
  opens : ∃ fd, c.opens = some fd ∧ fd ∉ s.opened
  configures : a.config = true → c.configures = true
  number : a.mutexIdx.toNat ≤ gnrlDeviceNum
  mutex : s.isinit a.mutexIdx.toNat = true ∨ c.creates = true

/-- The table, the pointers and the open descriptors are the same. -/
structure Unchanged (s t : State) : Prop where
  allocated : ∀ e, (t.entries e).queryStatus statusAllocate =
    (s.entries e).queryStatus statusAllocate
  status : ∀ e, (t.entries e).status = (s.entries e).status
  fds : ∀ e, (t.entries e).fd = (s.entries e).fd
  handles : t.handles = s.handles
  opened : t.opened = s.opened

/-! ## What a call does -/

/-- The entry that `CFE_SRL_GlobalHandleInit` writes. -/
def takenEntry (x : Entry) (name devname : List UInt8) (devType : UInt8) : Entry :=
  ({ x with name := name.takeWhile (· ≠ 0), devType := devType,
            devName := devname.takeWhile (· ≠ 0), status := statusAllocate } :
    Entry).setHandleStatus statusAllocate

theorem takenEntry_status (x : Entry) (name devname : List UInt8) (devType : UInt8) :
    (takenEntry x name devname devType).status = statusAllocate := by
  simp [takenEntry, Entry.setHandleStatus]

/-- The entry of a handle that is initialised. -/
def Entry.Live (x : Entry) (fd : Nat) : Prop :=
  x.queryStatus statusAllocate = true ∧ x.queryStatus statusFdInit = true ∧ x.func ≠ none ∧
    x.fd = fd

/-- A call keeps an entry though it fails. -/
structure Leaks (s : State) (e : Idx) (t : State) : Prop where
  entries : ∃ x : Entry, x.queryStatus statusAllocate = true ∧
    t.entries = Function.update s.entries e x
  handles : t.handles = s.handles
  opened : s.opened ⊆ t.opened

/-- A call succeeds with a new entry. -/
structure Installs (s : State) (i : Device) (e : Idx) (t : State) : Prop where
  fd : ∃ fd, fd ∉ s.opened ∧ t.opened = insert fd s.opened ∧
    ∃ x : Entry, x.Live fd ∧ t.entries = Function.update s.entries e x
  handles : t.handles = Function.update s.handles i (some e)

theorem findFree_spec {e : Idx} (h : s.findFree = some e) :
    (s.entries e).queryStatus statusAllocate = false := by
  have he := List.find?_some h
  rwa [Bool.not_eq_true'] at he

theorem findFree_none (h : s.findFree = none) (e : Idx) :
    (s.entries e).queryStatus statusAllocate = true := by
  have he := List.find?_eq_none.1 h e (List.mem_finRange e)
  simpa using he

/-- A call that takes no entry changes nothing. -/
theorem handleInit_idle (h : ¬Takes s a c) : (s.handleInit a c).1 = s := by
  rw [State.handleInit]
  split
  · rename_i i name devname hi hname hdevname
    split
    · rfl
    · rename_i hterm
      split
      · rfl
      · rename_i hnull
        rw [Bool.not_eq_true, Bool.not_eq_false', Bool.and_eq_true] at hterm
        rw [Bool.not_eq_true, Option.isSome_eq_false_iff, Option.isNone_iff_eq_none] at hnull
        have hearly : c.lock = true → s.findFree = none := by
          intro hlock
          by_contra hfree
          exact h ⟨i, name, devname, hi, hname, hdevname, hterm.1, hterm.2, hnull, hlock, hfree⟩
        rw [State.globalHandleInit]
        cases hlock : c.lock with
        | false => rfl
        | true =>
          rw [hearly hlock]
          rfl
  · rfl

/-- A call that takes an entry goes on with it. -/
theorem handleInit_takes (h : Takes s a c) :
    ∃ i e name devname, a.handle = some i ∧ s.handles i = none ∧ s.findFree = some e ∧
      s.handleInit a c = (s.setEntry e (takenEntry (s.entries e) name devname a.devType)).initEntry
        i e a c := by
  obtain ⟨i, name, devname, hi, hname, hdevname, hterm, hterm', hnull, hlock, hfree⟩ := h
  obtain ⟨e, he⟩ := Option.ne_none_iff_exists'.1 hfree
  refine ⟨i, e, name, devname, hi, hnull, he, ?_⟩
  simp only [State.handleInit, hi, hname, hdevname, hterm, hterm', hnull, State.globalHandleInit,
    hlock, he]
  rfl

/-- Only one entry is written, and maybe a flag of a mutex. -/
structure Writes (s : State) (e : Idx) (x : Entry) (t : State) : Prop where
  entries : t.entries = Function.update s.entries e x
  handles : t.handles = s.handles
  opened : t.opened = s.opened

theorem Writes.entry {e : Idx} {x : Entry} {t : State} (h : Writes s e x t) : t.entries e = x := by
  rw [h.entries, Function.update_self]

theorem Writes.trans {e : Idx} {x y : Entry} {t r : State} (h : Writes s e x t)
    (h' : Writes t e y r) : Writes s e y r := by
  refine ⟨?_, h'.handles.trans h.handles, h'.opened.trans h.opened⟩
  rw [h'.entries, h.entries, Function.update_idem]

theorem setEntry_writes (s : State) (e : Idx) (x : Entry) : Writes s e x (s.setEntry e x) :=
  ⟨rfl, rfl, rfl⟩

theorem handleMutexInit_ok (e : Idx) {mutexIdx : UInt8} {creates : Bool}
    (hnumber : mutexIdx.toNat ≤ gnrlDeviceNum)
    (hmutex : s.isinit mutexIdx.toNat = true ∨ creates = true) :
    ∃ t, s.handleMutexInit e mutexIdx creates = (t, .success) ∧
      Writes s e (({ s.entries e with mutexIdx := mutexIdx } : Entry).setHandleStatus
        statusMutexInit) t := by
  rw [State.handleMutexInit, if_neg (not_lt.2 hnumber)]
  cases hinit : s.isinit mutexIdx.toNat with
  | true => exact ⟨_, rfl, setEntry_writes s e _⟩
  | false =>
    have hcreates : creates = true := hmutex.resolve_left (by rw [hinit]; decide)
    rw [hcreates]
    exact ⟨_, rfl, rfl, rfl, rfl⟩

theorem handleMutexInit_fails (e : Idx) {mutexIdx : UInt8} {creates : Bool}
    (h : ¬(mutexIdx.toNat ≤ gnrlDeviceNum ∧
      (s.isinit mutexIdx.toNat = true ∨ creates = true))) :
    ∃ r, r ≠ .success ∧ s.handleMutexInit e mutexIdx creates = (s, r) := by
  rw [State.handleMutexInit]
  split
  · exact ⟨.mutexNum, by decide, rfl⟩
  · rename_i hnumber
    rw [not_lt] at hnumber
    have hnot : ¬(s.isinit mutexIdx.toNat = true ∨ creates = true) := fun hor => h ⟨hnumber, hor⟩
    rw [not_or, Bool.not_eq_true, Bool.not_eq_true] at hnot
    rw [hnot.1, hnot.2]
    exact ⟨.externalResourceFail, by decide, rfl⟩

theorem openDevice_fails {devType : UInt8} {opens : Option Nat}
    (h : ¬(subchOf devType ≠ none ∧ ∃ fd, opens = some fd ∧ fd ∉ s.opened)) :
    ∃ r, r ≠ .success ∧ s.openDevice devType opens = (s, .error r) := by
  have herr : ∀ ch : Subch, (if ch = .can then Ret.canOpenSocketErr else .openErr) ≠ .success := by
    intro ch
    cases ch <;> simp
  cases hch : subchOf devType with
  | none => exact ⟨.badArgument, by decide, by simp only [State.openDevice, hch]⟩
  | some ch =>
    cases opens with
    | none => exact ⟨_, herr ch, by simp only [State.openDevice, hch]⟩
    | some fd =>
      have hmem : fd ∈ s.opened := by
        by_contra hnew
        exact h ⟨by rw [hch]; simp, fd, rfl, hnew⟩
      exact ⟨_, herr ch, by simp only [State.openDevice, hch, if_pos hmem]⟩

theorem openDevice_ok {devType : UInt8} {fd : Nat} (hsubch : subchOf devType ≠ none)
    (hnew : fd ∉ s.opened) :
    s.openDevice devType (some fd) = ({ s with opened := insert fd s.opened }, .ok fd) := by
  obtain ⟨ch, hch⟩ := Option.ne_none_iff_exists'.1 hsubch
  simp only [State.openDevice, hch, if_neg hnew]

theorem configHandle_eq_success {devType : UInt8} (hsubch : subchOf devType ≠ none)
    (configures : Bool) : configHandle devType configures = .success ↔ configures = true := by
  obtain ⟨ch, hch⟩ := Option.ne_none_iff_exists'.1 hsubch
  rw [configHandle, hch]
  cases configures with
  | true => simp
  | false => cases ch <;> simp

theorem config_eq_success (hsubch : subchOf a.devType ≠ none) :
    (if a.config = true then configHandle a.devType c.configures else .success) = Ret.success ↔
      (a.config = true → c.configures = true) := by
  split
  · rename_i hconfig
    rw [configHandle_eq_success hsubch]
    exact ⟨fun h _ => h, fun h => h hconfig⟩
  · rename_i hconfig
    exact ⟨fun _ h => absurd h hconfig, fun _ => rfl⟩

/-- The second half of the call when everything succeeds. -/
theorem completeInit_ok {i : Device} {e : Idx} (hsubch : subchOf a.devType ≠ none)
    (hconfig : a.config = true → c.configures = true)
    (hnumber : a.mutexIdx.toNat ≤ gnrlDeviceNum)
    (hmutex : s.isinit a.mutexIdx.toNat = true ∨ c.creates = true) :
    ∃ t, s.completeInit i e a c = (t.setHandle i (some e), .success) ∧
      Writes s e { s.entries e with
        mutexIdx := a.mutexIdx, func := subchOf (s.entries e).devType,
        status := (s.entries e).status ||| statusFdInit ||| statusMutexInit } t := by
  have hfd := setEntry_writes s e ((s.entries e).setHandleStatus statusFdInit)
  obtain ⟨t, heq, hw⟩ := handleMutexInit_ok
    (s := s.setEntry e ((s.entries e).setHandleStatus statusFdInit)) e hnumber hmutex
  rw [hfd.entry] at hw
  refine ⟨t.setEntry e { t.entries e with func := subchOf (t.entries e).devType }, ?_, ?_⟩
  · simp only [State.completeInit, (config_eq_success hsubch).2 hconfig, ne_eq, not_true_eq_false,
      if_false, heq]
  · have hlast := (hfd.trans hw).trans
      (setEntry_writes t e { t.entries e with func := subchOf (t.entries e).devType })
    rw [hw.entry] at hlast ⊢
    exact hlast

/-- The second half when something fails: the entry is kept. -/
theorem completeInit_fails {i : Device} {e : Idx} (hsubch : subchOf a.devType ≠ none)
    (h : ¬((a.config = true → c.configures = true) ∧ a.mutexIdx.toNat ≤ gnrlDeviceNum ∧
      (s.isinit a.mutexIdx.toNat = true ∨ c.creates = true))) :
    (s.completeInit i e a c).2 ≠ .success ∧ ∃ label, (label = 0 ∨ label = statusFdInit) ∧
      Writes s e ((s.entries e).setHandleStatus label) (s.completeInit i e a c).1 := by
  have hsame : Writes s e ((s.entries e).setHandleStatus 0) s := by
    have hzero : (s.entries e).setHandleStatus 0 = s.entries e := by
      simp [Entry.setHandleStatus]
    refine ⟨?_, rfl, rfl⟩
    rw [hzero, Function.update_eq_self]
  rw [State.completeInit]
  by_cases hconfig : a.config = true → c.configures = true
  · have hrest := fun hboth => h ⟨hconfig, hboth⟩
    obtain ⟨r, hr, heq⟩ := handleMutexInit_fails
      (s := s.setEntry e ((s.entries e).setHandleStatus statusFdInit)) e hrest
    simp only [(config_eq_success hsubch).2 hconfig, ne_eq, not_true_eq_false, if_false, heq]
    exact ⟨hr, statusFdInit, .inr rfl, setEntry_writes s e _⟩
  · have hne : (if a.config = true then configHandle a.devType c.configures else .success) ≠
        Ret.success := fun heq => hconfig ((config_eq_success hsubch).1 heq)
    simp only [if_pos hne]
    exact ⟨hne, 0, .inl rfl, hsame⟩

/-- With all calls successful the entry becomes that of the device. -/
theorem initEntry_completes {i : Device} {e : Idx} (hstatus : (s.entries e).status = statusAllocate)
    (hdev : (s.entries e).devType = a.devType) (h : Completes s a c) :
    (s.initEntry i e a c).2 = .success ∧ Installs s i e (s.initEntry i e a c).1 := by
  obtain ⟨fd, hopens, hnew⟩ := h.opens
  have hfd := setEntry_writes { s with opened := insert fd s.opened } e
    { s.entries e with fd := fd }
  obtain ⟨t, heq, hw⟩ := completeInit_ok (i := i) (e := e)
    (s := ({ s with opened := insert fd s.opened } : State).setEntry e
      { s.entries e with fd := fd }) h.subch h.configures h.number h.mutex
  rw [State.initEntry, hopens, openDevice_ok h.subch hnew]
  simp only [heq]
  have hboth := hfd.trans hw
  rw [hfd.entry] at hboth
  refine ⟨trivial, ⟨fd, hnew, hboth.opened, _, ⟨?_, ?_, ?_, rfl⟩, hboth.entries⟩, ?_⟩
  · simp only [Entry.queryStatus, hstatus]
    decide
  · simp only [Entry.queryStatus, hstatus]
    decide
  · simp only [hdev]
    exact h.subch
  · rw [State.setHandle, hboth.handles]

/-- If any of them fails, the entry is kept. -/
theorem initEntry_fails {i : Device} {e : Idx} (hstatus : (s.entries e).status = statusAllocate)
    (h : ¬Completes s a c) :
    (s.initEntry i e a c).2 ≠ .success ∧ Leaks s e (s.initEntry i e a c).1 := by
  by_cases hopen : subchOf a.devType ≠ none ∧ ∃ fd, c.opens = some fd ∧ fd ∉ s.opened
  · obtain ⟨hsubch, fd, hopens, hnew⟩ := hopen
    have hfd := setEntry_writes { s with opened := insert fd s.opened } e
      { s.entries e with fd := fd }
    obtain ⟨hr, label, hlabel, hw⟩ := completeInit_fails (i := i) (e := e) (c := c)
      (s := ({ s with opened := insert fd s.opened } : State).setEntry e
        { s.entries e with fd := fd }) hsubch
      (fun hrest => h ⟨hsubch, ⟨fd, hopens, hnew⟩, hrest.1, hrest.2.1, hrest.2.2⟩)
    rw [State.initEntry, hopens, openDevice_ok hsubch hnew]
    have hboth := hfd.trans hw
    rw [hfd.entry] at hboth
    refine ⟨hr, ⟨_, ?_, hboth.entries⟩, hboth.handles, ?_⟩
    · simp only [Entry.setHandleStatus, Entry.queryStatus, hstatus]
      rcases hlabel with rfl | rfl
      · decide
      · decide
    · rw [hboth.opened]
      exact Finset.subset_insert fd s.opened
  · obtain ⟨r, hr, heq⟩ := openDevice_fails hopen
    rw [State.initEntry, heq]
    refine ⟨hr, ⟨s.entries e, ?_, (Function.update_eq_self e s.entries).symm⟩, rfl,
      Finset.Subset.refl _⟩
    rw [Entry.queryStatus, hstatus]
    decide

/-- **What `CFE_SRL_HandleInit` does**: nothing, or it takes a free entry and installs or leaks
it. -/
theorem handleInit_cases (s : State) (a : InitArgs) (c : InitCalls) :
    (¬Takes s a c ∧ (s.handleInit a c).1 = s) ∨
    ∃ i e, Takes s a c ∧ a.handle = some i ∧ s.handles i = none ∧
      (s.entries e).queryStatus statusAllocate = false ∧
      ((Completes s a c ∧ (s.handleInit a c).2 = .success ∧
          Installs s i e (s.handleInit a c).1) ∨
        (¬Completes s a c ∧ (s.handleInit a c).2 ≠ .success ∧
          Leaks s e (s.handleInit a c).1)) := by
  by_cases htakes : Takes s a c
  · obtain ⟨i, e, name, devname, hi, hnull, hfree, heq⟩ := handleInit_takes htakes
    refine .inr ⟨i, e, htakes, hi, hnull, findFree_spec hfree, ?_⟩
    have hw := setEntry_writes s e (takenEntry (s.entries e) name devname a.devType)
    have hentry := hw.entry
    rw [heq]
    by_cases hc : Completes s a c
    · left
      obtain ⟨hok, hinst⟩ := initEntry_completes (i := i) (e := e)
        (s := s.setEntry e (takenEntry (s.entries e) name devname a.devType))
        (by rw [hentry, takenEntry_status]) (by rw [hentry]; rfl)
        ⟨hc.subch, hc.opens, hc.configures, hc.number, hc.mutex⟩
      refine ⟨hc, hok, ?_, hinst.handles⟩
      obtain ⟨fd, hnew, hopened, x, hx, hentries⟩ := hinst.fd
      refine ⟨fd, hnew, hopened, x, hx, ?_⟩
      rw [hentries, hw.entries, Function.update_idem]
    · right
      obtain ⟨hr, hleak⟩ := initEntry_fails (i := i) (e := e) (c := c) (a := a)
        (s := s.setEntry e (takenEntry (s.entries e) name devname a.devType))
        (by rw [hentry, takenEntry_status])
        (fun hc' => hc ⟨hc'.subch, hc'.opens, hc'.configures, hc'.number, hc'.mutex⟩)
      refine ⟨hc, hr, ?_, hleak.handles, hleak.opened⟩
      obtain ⟨x, hx, hentries⟩ := hleak.entries
      refine ⟨x, hx, ?_⟩
      rw [hentries, hw.entries, Function.update_idem]
  · exact .inl ⟨htakes, handleInit_idle htakes⟩

/-! ## Calls that fail -/

/-- Calls of `CFE_SRL_HandleInit`. -/
def inits : Machine State (InitArgs × InitCalls) Ret := ⟨fun s x => s.handleInit x.1 x.2⟩

/-- A leak shows in the table. -/
theorem Leaks.not_unchanged {e : Idx} {t : State} (h : Leaks s e t)
    (hfree : (s.entries e).queryStatus statusAllocate = false) : ¬Unchanged s t := by
  intro hsame
  obtain ⟨x, hx, hentries⟩ := h.entries
  have he := hsame.allocated e
  rw [hentries, Function.update_self, hx, hfree] at he
  cases he

/-- A call that fails changes nothing exactly if it takes no entry. -/
theorem handleInit_unchanged_iff (s : State) (a : InitArgs) (c : InitCalls) :
    ((s.handleInit a c).2 ≠ .success → Unchanged s (s.handleInit a c).1) ↔
      (Takes s a c → Completes s a c) := by
  rcases handleInit_cases s a c with ⟨hno, heq⟩ | ⟨i, e, htakes, -, -, hfree, hcase⟩
  · rw [heq]
    refine ⟨fun _ htakes => absurd htakes hno, fun _ _ => ?_⟩
    exact ⟨fun _ => rfl, fun _ => rfl, fun _ => rfl, rfl, rfl⟩
  · rcases hcase with ⟨hc, hok, -⟩ | ⟨hc, hr, hleak⟩
    · exact ⟨fun _ _ => hc, fun _ hr => absurd hok hr⟩
    · refine ⟨fun h => absurd (h hr) (hleak.not_unchanged hfree), fun h => absurd (h htakes) hc⟩

theorem handleInit_fails_early (h : Takes s a c → Completes s a c)
    (hr : (s.handleInit a c).2 ≠ .success) : (s.handleInit a c).1 = s := by
  rcases handleInit_cases s a c with ⟨-, heq⟩ | ⟨i, e, htakes, -, -, -, hcase⟩
  · exact heq
  · rcases hcase with ⟨-, hok, -⟩ | ⟨hc, -, -⟩
    · exact absurd hok hr
    · exact absurd (h htakes) hc

/-- **Initialisation that fails.**  A call of `CFE_SRL_HandleInit` that does not return success
leaves the table, the pointers and the open descriptors as they were exactly if it does not come to
take an entry, or all its later calls succeed.  Any number of failed calls of this kind leave no
trace: what follows them happens as if they had not been. -/
theorem failed_init_leaks_nothing (s : State) :
    (∀ a c, ((s.handleInit a c).2 ≠ .success → Unchanged s (s.handleInit a c).1) ↔
      (Takes s a c → Completes s a c)) ∧
    ∀ calls x,
      (∀ pre y, pre ++ [y] <+: calls → ((inits.run s pre).handleInit y.1 y.2).2 ≠ .success ∧
        (Takes (inits.run s pre) y.1 y.2 → Completes (inits.run s pre) y.1 y.2)) →
      inits.run s calls = s ∧ inits.step (inits.run s calls) x = inits.step s x := by
  refine ⟨handleInit_unchanged_iff s, fun calls x h => ?_⟩
  have hsame : inits.run s calls = s := by
    induction calls with
    | nil => rfl
    | cons y calls ih =>
      rw [forall_steps_cons] at h
      obtain ⟨⟨hr, hearly⟩, hrest⟩ := h
      have hstep : (inits.step s y).1 = s := handleInit_fails_early hearly hr
      rw [Machine.run, hstep]
      refine ih fun pre z hpre => ?_
      have hz := hrest pre z hpre
      rw [Machine.run, hstep] at hz
      exact hz
  rw [hsame]
  exact ⟨rfl, rfl⟩

/-- A device that cannot be opened keeps its entry. -/
theorem failed_open_keeps_entry :
    (start.handleInit ⟨some ⟨0, by decide⟩, some [73, 0], some [100, 0], 1, 0, true⟩
      ⟨true, none, true, true⟩).2 = .openErr ∧
    ¬Unchanged start
      (start.handleInit ⟨some ⟨0, by decide⟩, some [73, 0], some [100, 0], 1, 0, true⟩
        ⟨true, none, true, true⟩).1 := by
  refine ⟨by decide, fun h => ?_⟩
  exact absurd (h.allocated ⟨0, by decide⟩) (by decide)

end Srl
end FlightApps
