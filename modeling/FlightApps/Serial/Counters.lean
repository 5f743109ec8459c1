import Mathlib.Data.Finset.Card
import Mathlib.Data.Fintype.Card
import FlightApps.Serial.Driver

/-!
# Counters of open devices

An entry of the counter table should be there for each open descriptor, with what was counted for it
since it was opened or cleared, and for nothing else.  `Tally` is that count, kept next to the
driver, and `Exact` says that the table shows it.

Four things break this.  A device that cannot be opened leaves its error code in the table; a
descriptor that is gone after an error of `close` stays in it; a socket that cannot be closed after
an error is open without an entry; and an entry that is taken keeps what was counted in it while it
was free, as reads and writes for the descriptor `-1` are.  A request to clear the counters does so,
but is always answered with an error.  `counters_exact` says that there is nothing else.
-/

set_option autoImplicit false

namespace FlightApps
namespace Serial

/-! ## What should be counted -/

/-- What was counted for each descriptor since it was opened or cleared. -/
abbrev Tally := Int → Member → Nat

def Tally.add (g : Tally) (fd : Int) (inc : Inc) : Tally :=
  Function.update g fd (Function.update (g fd) inc.member (g fd inc.member + inc.val))

def Tally.reset (g : Tally) (fd : Int) : Tally := Function.update g fd fun _ => 0

/-- What is counted in a step. -/
def note (g : Tally) (cmd : Cmd) (reply : Reply) : Tally :=
  match cmd, reply with
  | .openDevice _ _, .fd n => g.reset n
  | .write subch x calls _, _ => (writeDispatch subch x calls).2.foldl (fun g => g.add x.fd) g
  | .read subch x calls reads _, _ =>
    (readDispatch subch x calls reads).2.foldl (fun g => g.add x.fd) g
  | .clearCnts fd, _ => g.reset fd
  | _, _ => g

/-- The driver after a list of commands, next to the tally. -/
def after (cmds : List Cmd) : Driver × Tally :=
  (driver.watch note).run (start, fun _ _ => 0) cmds

/-- The used entries are those of the open descriptors, one for each, and a request for the counters
of an open descriptor gives what was counted for it. -/
structure Exact (d : Driver) (g : Tally) : Prop where
  used : ∀ i, (d.table i).fd ≠ notUsed → (d.table i).fd ∈ d.opened
  found : ∀ fd ∈ d.opened, ∃ i, (d.table i).fd = fd
  once : ∀ i j, (d.table i).fd ≠ notUsed → (d.table i).fd = (d.table j).fd → i = j
  counts : ∀ fd ∈ d.opened, ∃ c, (d.devCmd (.getCnts fd)).2 = .counters c ∧
    ∀ m, c.count m = UInt16.ofNat (g fd m)

/-- A request to clear the counters is answered with success, and they are zero after it. -/
def Cleared (d : Driver) (fd : Int) : Prop :=
  (d.devCmd (.clearCnts fd)).2 = .status (some .success) ∧
    ∃ c, ((d.devCmd (.clearCnts fd)).1.devCmd (.getCnts fd)).2 = .counters c ∧ ∀ m, c.count m = 0

/-- Nothing was counted in the entry that is taken next. -/
def Clean (d : Driver) : Prop :=
  ∀ i, d.getCntEntry notUsed = some i → ∀ m, (d.table i).cnts.count m = 0

/-- A device that cannot be opened finds no free entry for its error code, and one that is opened
takes a clean entry. -/
def SafeOpen (d : Driver) (c : OpenCalls) : Prop :=
  match d.newFd c.fd with
  | none => d.getCntEntry notUsed = none
  | some _ => Clean d

/-- A socket takes a clean entry, or it is not left open when it is given up. -/
def SafeSocket (d : Driver) (c : OpenCalls) : Prop :=
  match d.newFd c.fd with
  | none => True
  | some _ => if c.ioctl && c.bind then Clean d else c.closing ≠ .failed true

/-- A step that keeps the table exact. -/
def Safe (d : Driver) : Cmd → Prop
  | .openDevice subch c =>
    match subchOf subch with
    | none => True
    | some .can => SafeSocket d c
    | some _ => SafeOpen d c
  | .close subch fd closing => subchOf subch ≠ none → closing = .failed false → fd ∉ d.opened
  | .clearCnts fd => fd ∉ d.opened
  | _ => True

/-! ## Entries -/

variable {d : Driver} {g : Tally}

/-- The same entry by entry, with what holds of descriptors anyway. -/
structure Fits (d : Driver) (g : Tally) : Prop where
  used : ∀ i, (d.table i).fd ≠ notUsed → (d.table i).fd ∈ d.opened
  found : ∀ fd ∈ d.opened, ∃ i, (d.table i).fd = fd
  once : ∀ i j, (d.table i).fd ≠ notUsed → (d.table i).fd = (d.table j).fd → i = j
  counts : ∀ i, (d.table i).fd ≠ notUsed →
    ∀ m, (d.table i).cnts.count m = UInt16.ofNat (g (d.table i).fd m)
  nonneg : ∀ fd ∈ d.opened, 0 ≤ fd

theorem getCntEntry_some {fd : Int} {i : Idx} (h : d.getCntEntry fd = some i) :
    (d.table i).fd = fd := by
  have hi := List.find?_some h
  rwa [beq_iff_eq] at hi

theorem getCntEntry_none {fd : Int} (h : d.getCntEntry fd = none) (i : Idx) :
    (d.table i).fd ≠ fd := by
  have hi := List.find?_eq_none.1 h i (List.mem_finRange i)
  rwa [beq_iff_eq] at hi

theorem ne_notUsed_of_nonneg {fd : Int} (h : 0 ≤ fd) : fd ≠ notUsed := by
  rintro rfl
  exact absurd h (by decide)

theorem getCntEntry_eq (hused : ∀ i j, (d.table i).fd ≠ notUsed →
    (d.table i).fd = (d.table j).fd → i = j) {i : Idx} (hi : (d.table i).fd ≠ notUsed) :
    d.getCntEntry (d.table i).fd = some i := by
  cases hget : d.getCntEntry (d.table i).fd with
  | none => exact absurd rfl (getCntEntry_none hget i)
  | some j => rw [hused i j hi (getCntEntry_some hget).symm]

theorem exact_iff_fits (hnonneg : ∀ fd ∈ d.opened, 0 ≤ fd) : Exact d g ↔ Fits d g := by
  constructor
  · intro h
    refine ⟨h.used, h.found, h.once, ?_, hnonneg⟩
    intro i hi m
    obtain ⟨c, hc, hcount⟩ := h.counts _ (h.used i hi)
    have hreply : (d.devCmd (.getCnts (d.table i).fd)).2 = .counters (d.table i).cnts := by
      rw [Driver.devCmd, Driver.returnCounter, getCntEntry_eq h.once hi]
    rw [hreply, Reply.counters.injEq] at hc
    rw [hc]
    exact hcount m
  · intro h
    refine ⟨h.used, h.found, h.once, ?_⟩
    intro fd hfd
    obtain ⟨i, rfl⟩ := h.found fd hfd
    have hi := ne_notUsed_of_nonneg (h.nonneg _ hfd)
    refine ⟨(d.table i).cnts, ?_, h.counts i hi⟩
    rw [Driver.devCmd, Driver.returnCounter, getCntEntry_eq h.once hi]

/-- An entry gets other counters. -/
theorem Fits.recount (h : Fits d g) {i : Idx} {fd : Int} (hfd : (d.table i).fd = fd) {c : Cnts}
    {g' : Tally} (hother : ∀ fd', fd' ≠ fd → g' fd' = g fd')
    (hself : fd ≠ notUsed → ∀ m, c.count m = UInt16.ofNat (g' fd m)) :
    Fits (d.setEntry i { d.table i with cnts := c }) g' := by
  have hfds : ∀ j, ((d.setEntry i { d.table i with cnts := c }).table j).fd = (d.table j).fd := by
    intro j
    by_cases hj : j = i
    · rw [hj, setEntry_self]
    · rw [setEntry_other hj]
  refine ⟨?_, ?_, ?_, ?_, h.nonneg⟩
  · intro j hj
    rw [hfds] at hj ⊢
    exact h.used j hj
  · intro fd' hfd'
    obtain ⟨j, hj⟩ := h.found fd' hfd'
    exact ⟨j, (hfds j).trans hj⟩
  · intro j k hj hjk
    rw [hfds] at hj
    rw [hfds, hfds] at hjk
    exact h.once j k hj hjk
  · intro j hj m
    rw [hfds] at hj ⊢
    by_cases hji : j = i
    · rw [hji] at hj ⊢
      rw [hfd] at hj ⊢
      rw [setEntry_self]
      exact hself hj m
    · have hne : (d.table j).fd ≠ fd := by
        rintro rfl
        exact hji (h.once j i hj hfd.symm)
      rw [setEntry_other hji, hother _ hne]
      exact h.counts j hj m

/-- A descriptor without an entry has no counters. -/
theorem Fits.ignore (h : Fits d g) {fd : Int} (hnone : ∀ i, (d.table i).fd ≠ fd) {g' : Tally}
    (hother : ∀ fd', fd' ≠ fd → g' fd' = g fd') : Fits d g' := by
  refine ⟨h.used, h.found, h.once, ?_, h.nonneg⟩
  intro i hi m
  rw [hother _ (hnone i)]
  exact h.counts i hi m

theorem Fits.increaseCnt (h : Fits d g) (fd : Int) (inc : Inc) (errno : Int) :
    Fits (d.increaseCnt fd inc errno) (g.add fd inc) := by
  have hother : ∀ fd', fd' ≠ fd → g.add fd inc fd' = g fd' :=
    fun fd' hne => Function.update_of_ne hne ..
  rw [Driver.increaseCnt]
  split
  · rename_i i hi
    have hfd := getCntEntry_some hi
    refine h.recount hfd hother fun hne m => ?_
    have hold := h.counts i (hfd.symm ▸ hne)
    rw [hfd] at hold
    rw [Tally.add, Function.update_self]
    by_cases hm : m = inc.member
    · simp only [hm, Function.update_self, hold, UInt16.ofNat_add]
    · simp only [Function.update_of_ne hm, hold]
  · rename_i hnone
    exact h.ignore (getCntEntry_none hnone) hother

theorem Fits.increaseCnts (h : Fits d g) (fd : Int) (errno : Nat → Int) (incs : List Inc) :
    Fits (d.increaseCnts fd errno incs) (incs.foldl (fun g => g.add fd) g) := by
  induction incs generalizing d g errno with
  | nil => exact h
  | cons inc incs ih => exact ih (h.increaseCnt fd inc (errno 0)) _

theorem Fits.clearCntEntry (h : Fits d g) (fd : Int) :
    Fits (d.clearCntEntry fd) (g.reset fd) := by
  have hother : ∀ fd', fd' ≠ fd → g.reset fd fd' = g fd' :=
    fun fd' hne => Function.update_of_ne hne ..
  rw [Driver.clearCntEntry]
  split
  · rename_i i hi
    refine h.recount (getCntEntry_some hi) hother fun _ m => ?_
    rw [Tally.reset, Function.update_self]
    rfl
  · rename_i hnone
    exact h.ignore (getCntEntry_none hnone) hother

/-- A descriptor and its entry go together. -/
theorem Fits.freeCntEntry (h : Fits d g) {fd : Int} (hfd : 0 ≤ fd) :
    Fits ({ d with opened := d.opened.erase fd }.freeCntEntry fd) g := by
  have hne := ne_notUsed_of_nonneg hfd
  have hget : ({ d with opened := d.opened.erase fd } : Driver).getCntEntry fd =
      d.getCntEntry fd := rfl
  rw [Driver.freeCntEntry, hget]
  split
  · rename_i i hi
    have hifd := getCntEntry_some hi
    have hcases : ∀ j, ((({ d with opened := d.opened.erase fd } : Driver).setEntry i
        ⟨notUsed, zeroCnts⟩).table j).fd ≠ notUsed → j ≠ i := by
      rintro j hj rfl
      exact hj (by rw [setEntry_self])
    refine ⟨?_, ?_, ?_, ?_, ?_⟩
    · intro j hj
      have hji := hcases j hj
      rw [setEntry_other hji] at hj ⊢
      refine Finset.mem_erase.2 ⟨fun heq => hji ?_, h.used j hj⟩
      exact h.once j i hj (heq.trans hifd.symm)
    · intro fd' hfd'
      obtain ⟨hne', hmem⟩ := Finset.mem_erase.1 hfd'
      obtain ⟨j, hj⟩ := h.found fd' hmem
      have hji : j ≠ i := by
        rintro rfl
        exact hne' (hj.symm.trans hifd)
      exact ⟨j, by rw [setEntry_other hji]; exact hj⟩
    · intro j k hj hjk
      have hji := hcases j hj
      have hki := hcases k (hjk ▸ hj)
      rw [setEntry_other hji] at hj
      rw [setEntry_other hji, setEntry_other hki] at hjk
      exact h.once j k hj hjk
    · intro j hj m
      have hji := hcases j hj
      rw [setEntry_other hji] at hj ⊢
      exact h.counts j hj m
    · intro fd' hfd'
      exact h.nonneg fd' (Finset.mem_of_mem_erase hfd')
  · rename_i hnone
    refine ⟨?_, ?_, h.once, h.counts, fun fd' hfd' => h.nonneg fd' (Finset.mem_of_mem_erase hfd')⟩
    · intro j hj
      exact Finset.mem_erase.2 ⟨getCntEntry_none hnone j, h.used j hj⟩
    · intro fd' hfd'
      exact h.found fd' (Finset.mem_of_mem_erase hfd')

/-- With room in the table there is a free entry. -/
theorem Fits.exists_free (h : Fits d g) (hroom : d.opened.card < counterTableSize) :
    d.getCntEntry notUsed ≠ none := by
  intro hnone
  have hall : ∀ i, (d.table i).fd ∈ d.opened := fun i => h.used i (getCntEntry_none hnone i)
  have hinj : Function.Injective fun i => (d.table i).fd :=
    fun i j hij => h.once i j (getCntEntry_none hnone i) hij
  have hcard := Finset.card_le_card_of_injOn (s := Finset.univ) (t := d.opened)
    (fun i => (d.table i).fd) (fun i _ => hall i) hinj.injOn
  rw [Finset.card_univ, Fintype.card_fin] at hcard
  omega

/-- A new descriptor takes an entry, and what is in it is taken over. -/
theorem Fits.allocate_iff (h : Fits d g) {n : Nat} (hnew : (n : Int) ∉ d.opened)
    (hroom : d.opened.card < counterTableSize) :
    Fits ({ d with opened := insert (n : Int) d.opened }.allocateCntEntry n) (g.reset n) ↔
      Clean d := by
  obtain ⟨i, hi⟩ := Option.ne_none_iff_exists'.1 (h.exists_free hroom)
  have hget : ({ d with opened := insert (n : Int) d.opened } : Driver).getCntEntry notUsed =
      some i := hi
  have hn : (n : Int) ≠ notUsed := ne_notUsed_of_nonneg (by omega)
  have hunused : ∀ j, (d.table j).fd ≠ n := by
    intro j hj
    exact hnew (hj ▸ h.used j (by rw [hj]; exact hn))
  rw [Driver.allocateCntEntry, hget]
  constructor
  · intro hafter i' hi' m
    obtain rfl : i = i' := Option.some.inj (hi.symm.trans hi')
    have hcount := hafter.counts i (by rw [setEntry_self]; exact hn) m
    rw [setEntry_self] at hcount
    have hzero : g.reset n n m = 0 := by rw [Tally.reset, Function.update_self]
    exact hcount.trans (by rw [hzero]; rfl)
  · intro hclean
    refine ⟨?_, ?_, ?_, ?_, ?_⟩
    · intro j hj
      by_cases hji : j = i
      · rw [hji, setEntry_self]
        exact Finset.mem_insert_self _ _
      · rw [setEntry_other hji] at hj ⊢
        exact Finset.mem_insert_of_mem (h.used j hj)
    · intro fd hfd
      rw [setEntry_opened, Finset.mem_insert] at hfd
      rcases hfd with rfl | hfd
      · exact ⟨i, by rw [setEntry_self]⟩
      · obtain ⟨j, hj⟩ := h.found fd hfd
        have hji : j ≠ i := by
          rintro rfl
          exact ne_notUsed_of_nonneg (h.nonneg fd hfd) (hj.symm.trans (getCntEntry_some hi))
        exact ⟨j, by rw [setEntry_other hji]; exact hj⟩
    · intro j k hj hjk
      by_cases hji : j = i
      · by_cases hki : k = i
        · rw [hji, hki]
        · rw [hji, setEntry_self, setEntry_other hki] at hjk
          exact absurd hjk.symm (hunused k)
      · rw [setEntry_other hji] at hj hjk
        by_cases hki : k = i
        · rw [hki, setEntry_self] at hjk
          exact absurd hjk (hunused j)
        · rw [setEntry_other hki] at hjk
          exact h.once j k hj hjk
    · intro j hj m
      by_cases hji : j = i
      · rw [hji, setEntry_self, Tally.reset, Function.update_self]
        exact hclean i hi m
      · rw [setEntry_other hji] at hj ⊢
        rw [Tally.reset, Function.update_of_ne (hunused j)]
        exact h.counts j hj m
    · intro fd hfd
      rw [setEntry_opened, Finset.mem_insert] at hfd
      rcases hfd with rfl | hfd
      · omega
      · exact h.nonneg fd hfd

/-- An error code is no descriptor. -/
theorem Fits.allocate_error_iff (h : Fits d g) :
    Fits (d.allocateCntEntry openErrorCode) g ↔ d.getCntEntry notUsed = none := by
  constructor
  · intro hafter
    by_contra hsome
    obtain ⟨i, hi⟩ := Option.ne_none_iff_exists'.1 hsome
    have hfd : ((d.allocateCntEntry openErrorCode).table i).fd = openErrorCode := by
      rw [Driver.allocateCntEntry, hi, setEntry_self]
    have hmem := hafter.used i (by rw [hfd]; decide)
    rw [hfd] at hmem
    exact absurd (hafter.nonneg _ hmem) (by decide)
  · intro hnone
    rw [Driver.allocateCntEntry, hnone]
    exact h

/-! ## Commands -/

theorem newFd_some {fd : Option Nat} {n : Nat} (h : d.newFd fd = some n) :
    (n : Int) ∉ d.opened := by
  rw [Driver.newFd, Option.filter_eq_some_iff, decide_eq_true_eq] at h
  exact h.2

/-- Closing keeps the table exact unless a descriptor with an entry goes with an error. -/
theorem Fits.close_iff (h : Fits d g) (fd : Int) (closing : Closing) :
    Fits (d.linuxSerialClose fd closing).1 g ↔ (closing = .failed false → fd ∉ d.opened) := by
  by_cases hneg : fd < 0
  · rw [Driver.linuxSerialClose.eq_def, if_pos hneg]
    refine ⟨fun _ _ hmem => absurd (h.nonneg fd hmem) (not_le.2 hneg), fun _ => h⟩
  · cases closing with
    | done =>
      simp only [Driver.linuxSerialClose, if_neg hneg]
      exact ⟨fun _ hne => absurd hne (by decide), fun _ => h.freeCntEntry (not_lt.1 hneg)⟩
    | failed kept =>
      cases kept with
      | true =>
        simp only [Driver.linuxSerialClose, if_neg hneg]
        exact ⟨fun _ hne => absurd hne (by decide), fun _ => h⟩
      | false =>
        simp only [Driver.linuxSerialClose, if_neg hneg]
        constructor
        · intro hafter _ hmem
          obtain ⟨i, hi⟩ := h.found fd hmem
          have hused := hafter.used i (by
            rw [hi]
            exact ne_notUsed_of_nonneg (not_lt.1 hneg))
          rw [hi] at hused
          exact absurd rfl (Finset.ne_of_mem_erase hused)
        · intro hnot
          rw [Finset.erase_eq_of_notMem (hnot trivial)]
          exact h

/-- A socket that is given up has to be closed, or at least to be gone. -/
theorem Fits.abandon_iff (h : Fits d g) {n : Nat} (hnew : (n : Int) ∉ d.opened)
    (closing : Closing) :
    Fits ({ d with opened := insert (n : Int) d.opened }.linuxSerialClose n closing).1 g ↔
      closing ≠ .failed true := by
  have hnn : ¬(n : Int) < 0 := by omega
  have hunused : ∀ j, (d.table j).fd ≠ n := by
    intro j hj
    exact hnew (hj ▸ h.used j (by rw [hj]; exact ne_notUsed_of_nonneg (by omega)))
  cases closing with
  | done =>
    have hget : ({ d with opened := d.opened } : Driver).getCntEntry n = none := by
      cases hget : ({ d with opened := d.opened } : Driver).getCntEntry n with
      | none => rfl
      | some i => exact absurd (getCntEntry_some hget) (hunused i)
    simp only [Driver.linuxSerialClose, if_neg hnn, Finset.erase_insert hnew, Driver.freeCntEntry,
      hget]
    exact ⟨fun _ => by decide, fun _ => h⟩
  | failed kept =>
    cases kept with
    | true =>
      simp only [Driver.linuxSerialClose, if_neg hnn]
      refine ⟨fun hafter => ?_, fun hne => absurd rfl hne⟩
      obtain ⟨i, hi⟩ := hafter.found n (Finset.mem_insert_self _ _)
      exact absurd hi (hunused i)
    | false =>
      simp only [Driver.linuxSerialClose, if_neg hnn, Finset.erase_insert hnew]
      exact ⟨fun _ => by decide, fun _ => h⟩

theorem allocateCntEntry_opened (d : Driver) (fd : Int) :
    (d.allocateCntEntry fd).opened = d.opened := by
  rw [Driver.allocateCntEntry]
  split
  · rfl
  · rfl

/-- A device is opened. -/
theorem Fits.open_iff (h : Fits d g) {n : Nat} (hnew : (n : Int) ∉ d.opened)
    (hroom : ({ d with opened := insert (n : Int) d.opened }.allocateCntEntry n).opened.card ≤
      counterTableSize) :
    Fits ({ d with opened := insert (n : Int) d.opened }.allocateCntEntry n) (g.reset n) ↔
      Clean d := by
  refine h.allocate_iff hnew ?_
  rw [allocateCntEntry_opened, Finset.card_insert_of_notMem hnew] at hroom
  omega

theorem Fits.linuxSerialOpen_iff (h : Fits d g) {subch : UInt16} {c : OpenCalls}
    (hroom : (d.linuxSerialOpen c).1.opened.card ≤ counterTableSize) :
    Fits (d.linuxSerialOpen c).1 (note g (.openDevice subch c) (d.linuxSerialOpen c).2) ↔
      SafeOpen d c := by
  rw [Driver.linuxSerialOpen, SafeOpen] at *
  cases hfd : d.newFd c.fd with
  | none => exact h.allocate_error_iff
  | some n =>
    rw [hfd] at hroom
    exact h.open_iff (newFd_some hfd) hroom

theorem Fits.linuxSerialOpensocket_iff (h : Fits d g) {subch : UInt16} {c : OpenCalls}
    (hroom : (d.linuxSerialOpensocket c).1.opened.card ≤ counterTableSize) :
    Fits (d.linuxSerialOpensocket c).1
        (note g (.openDevice subch c) (d.linuxSerialOpensocket c).2) ↔ SafeSocket d c := by
  rw [SafeSocket]
  rw [Driver.linuxSerialOpensocket] at *
  cases hfd : d.newFd c.fd with
  | none => exact ⟨fun _ => trivial, fun _ => h⟩
  | some n =>
    rw [hfd] at hroom
    cases hioctl : c.ioctl with
    | false => exact h.abandon_iff (newFd_some hfd) c.closing
    | true =>
      cases hbind : c.bind with
      | false => exact h.abandon_iff (newFd_some hfd) c.closing
      | true =>
        simp only [hioctl, hbind] at hroom
        exact h.open_iff (newFd_some hfd) hroom

/-- Commands that clear counters apart, a step keeps the table exact exactly if it is safe. -/
theorem Fits.step_iff (h : Fits d g) {cmd : Cmd} (hcmd : ∀ fd, cmd ≠ .clearCnts fd)
    (hroom : (d.devCmd cmd).1.opened.card ≤ counterTableSize) :
    Fits (d.devCmd cmd).1 (note g cmd (d.devCmd cmd).2) ↔ Safe d cmd := by
  cases cmd with
  | write subch x calls errno => exact ⟨fun _ => trivial, fun _ => h.increaseCnts x.fd errno _⟩
  | read subch x calls reads errno =>
    exact ⟨fun _ => trivial, fun _ => h.increaseCnts x.fd errno _⟩
  | getCnts fd => exact ⟨fun _ => trivial, fun _ => h⟩
  | clearCnts fd => exact absurd rfl (hcmd fd)
  | close subch fd closing =>
    rw [Driver.devCmd, Driver.closeDispatch, Safe]
    cases hch : subchOf subch with
    | none => exact ⟨fun _ hne => absurd rfl hne, fun _ => h⟩
    | some ch =>
      refine (h.close_iff fd closing).trans ⟨fun hq _ => hq, fun hq => hq (by simp)⟩
  | openDevice subch c =>
    rw [Safe]
    rw [Driver.devCmd, Driver.openDispatch] at *
    cases hch : subchOf subch with
    | none => exact ⟨fun _ => trivial, fun _ => h⟩
    | some ch =>
      rw [hch] at hroom
      cases ch with
      | can => exact h.linuxSerialOpensocket_iff hroom
      | i2c => exact h.linuxSerialOpen_iff hroom
      | spi => exact h.linuxSerialOpen_iff hroom
      | uart => exact h.linuxSerialOpen_iff hroom

/-! ## Runs -/

theorem after_snoc (pre : List Cmd) (cmd : Cmd) :
    after (pre ++ [cmd]) = (((after pre).1.devCmd cmd).1,
      note (after pre).2 cmd ((after pre).1.devCmd cmd).2) := by
  rw [after, Machine.run_append]
  rfl

theorem after_nil_fits : Fits (after []).1 (after []).2 := by
  have hfd : ∀ i, ((after []).1.table i).fd = notUsed := fun _ => rfl
  refine ⟨fun i hi => absurd (hfd i) hi, ?_, fun i _ hi => absurd (hfd i) hi,
    fun i hi => absurd (hfd i) hi, ?_⟩
  · intro fd hmem
    exact absurd hmem (Finset.notMem_empty fd)
  · intro fd hmem
    exact absurd hmem (Finset.notMem_empty fd)

theorem increaseCnts_opened (d : Driver) (fd : Int) (errno : Nat → Int) (incs : List Inc) :
    (d.increaseCnts fd errno incs).opened = d.opened := by
  induction incs generalizing d errno with
  | nil => rfl
  | cons inc incs ih =>
    rw [Driver.increaseCnts, ih, Driver.increaseCnt]
    split
    · rfl
    · rfl

theorem clearCntEntry_opened (d : Driver) (fd : Int) : (d.clearCntEntry fd).opened = d.opened := by
  rw [Driver.clearCntEntry]
  split
  · rfl
  · rfl

theorem freeCntEntry_opened (d : Driver) (fd : Int) : (d.freeCntEntry fd).opened = d.opened := by
  rw [Driver.freeCntEntry]
  split
  · rfl
  · rfl

theorem linuxSerialClose_opened (d : Driver) (fd : Int) (closing : Closing) :
    (d.linuxSerialClose fd closing).1.opened ⊆ d.opened := by
  by_cases hneg : fd < 0
  · rw [Driver.linuxSerialClose.eq_def, if_pos hneg]
  · cases closing with
    | done =>
      simp only [Driver.linuxSerialClose, if_neg hneg, freeCntEntry_opened]
      exact Finset.erase_subset fd d.opened
    | failed kept =>
      cases kept with
      | true => simp only [Driver.linuxSerialClose, if_neg hneg, subset_refl]
      | false =>
        simp only [Driver.linuxSerialClose, if_neg hneg]
        exact Finset.erase_subset fd d.opened

/-- A step opens no descriptor below zero. -/
theorem devCmd_nonneg (h : ∀ fd ∈ d.opened, 0 ≤ fd) (cmd : Cmd) :
    ∀ fd ∈ (d.devCmd cmd).1.opened, 0 ≤ fd := by
  have hinsert : ∀ n : Nat, ∀ fd ∈ insert (n : Int) d.opened, 0 ≤ fd := by
    intro n fd hfd
    rcases Finset.mem_insert.1 hfd with rfl | hfd
    · omega
    · exact h fd hfd
  have hopen : ∀ c, ∀ fd ∈ (d.linuxSerialOpen c).1.opened, 0 ≤ fd := by
    intro c
    rw [Driver.linuxSerialOpen]
    split
    · rw [allocateCntEntry_opened]
      exact h
    · rename_i n _
      rw [allocateCntEntry_opened]
      exact hinsert n
  have hsocket : ∀ c, ∀ fd ∈ (d.linuxSerialOpensocket c).1.opened, 0 ≤ fd := by
    intro c
    rw [Driver.linuxSerialOpensocket]
    split
    · exact h
    · rename_i n _
      split
      · exact fun fd hfd => hinsert n fd (linuxSerialClose_opened _ _ _ hfd)
      · split
        · exact fun fd hfd => hinsert n fd (linuxSerialClose_opened _ _ _ hfd)
        · rw [allocateCntEntry_opened]
          exact hinsert n
  cases cmd with
  | openDevice subch c =>
    rw [Driver.devCmd, Driver.openDispatch]
    split
    · exact hsocket c
    · exact hopen c
    · exact h
  | write subch x calls errno =>
    rw [Driver.devCmd, increaseCnts_opened]
    exact h
  | read subch x calls reads errno =>
    rw [Driver.devCmd, increaseCnts_opened]
    exact h
  | close subch fd closing =>
    rw [Driver.devCmd, Driver.closeDispatch]
    split
    · exact fun fd' hfd' => h fd' (linuxSerialClose_opened _ _ _ hfd')
    · exact h
  | getCnts fd => exact h
  | clearCnts fd =>
    rw [Driver.devCmd, clearCntEntry_opened]
    exact h

theorem after_nonneg (pre : List Cmd) : ∀ fd ∈ (after pre).1.opened, 0 ≤ fd :=
  (driver.watch note).invariant (P := fun st => ∀ fd ∈ st.1.opened, 0 ≤ fd)
    (fun _ cmd h => devCmd_nonneg h cmd) (fun fd hfd => absurd hfd (Finset.notMem_empty fd)) pre

/-- A request to clear counters keeps the table exact, but it is never answered with success. -/
theorem not_cleared (d : Driver) (fd : Int) : ¬Cleared d fd := by
  rintro ⟨h, -⟩
  rw [Driver.devCmd] at h
  cases h

end Serial
end FlightApps
