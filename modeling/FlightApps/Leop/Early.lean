import FlightApps.Leop.Jointly
import FlightApps.Leop.Records

/-!
# No early burn

`Clock` is what has been noted of the time.  The initial wait goes on over all boots: what is in the
runtime data, in a copy or in the file is never more than the delays that there have been
(`Due`), and so the burn comes after as many delays as the wait has seconds (`Late`).

This holds as long as no reading of the clock in the initial wait is ahead of the delays
(`Follows`).  Nothing in `MISSION_LEOP_Wait` sees to that: other applications set the time, and when
it is set back the difference to the start of the wait, which is modular, is as far ahead as it can
be.
-/

set_option autoImplicit false

namespace FlightApps
namespace Leop

open Program (Terms Assertion Change Stable Triple)

/-- What has been noted of the time. -/
structure Clock where
  /-- Delays, in all boots. -/
  delays : Nat
  /-- Delays in the current wait. -/
  waited : Nat
  /-- The current wait is the initial one. -/
  initial : Bool
  /-- The flag has just been found unset after a delay. -/
  ticked : Bool
  /-- The state in the record that was loaded since the last start. -/
  loaded : Option UInt8

def Clock.note (c : Clock) : Event → Clock
  | .booted => { c with waited := 0, initial := false, ticked := false, loaded := none }
  | .loaded d _ => { c with ticked := false, loaded := some d.leopState }
  | .waiting sec => { c with waited := 0, initial := sec = initialWaitSec, ticked := false }
  | .delayed => { c with delays := c.delays + 1, waited := c.waited + 1, ticked := false }
  | .tested .tick false => { c with ticked := true }
  | e => if e.ofCommand then c else { c with ticked := false }

def clock : Watch Clock where
  init := ⟨0, 0, false, false, none⟩
  note := Clock.note
  deaf c e he := by
    cases e with
    | booted => exact absurd he Bool.false_ne_true
    | loaded d v => exact absurd he Bool.false_ne_true
    | waiting sec => exact absurd he Bool.false_ne_true
    | delayed => exact absurd he Bool.false_ne_true
    | tested site b => exact absurd he Bool.false_ne_true
    | _ => exact if_pos (e := { c with ticked := false }) he

/-- A command that raises the line. -/
def Event.raises : Event → Bool
  | .issuing .gpioHigh => true
  | .sent .gpioHigh _ => true
  | _ => false

/-- A burn comes after the initial wait, and not in a boot that has loaded the last state. -/
def Late (pre : List Event) (e : Event) : Prop :=
  e.raises = true → initialWaitSec.toNat ≤ (clock.of pre).delays ∧
    (clock.of pre).loaded ≠ some LeopState.complete.toByte

/-- What the clock says in the initial wait is not ahead of the delays. -/
def Follows (s : State) (h : List Event) (i : Input) : Prop :=
  (clock.of h).initial = true → (clock.of h).ticked = true →
    (timeSubtract i.now s.vars.startTime).seconds.toNat ≤ (clock.of h).waited

/-! ## The elapsed time -/

/-- A state and an elapsed time, after `n` delays: the initial wait is over, or it is not and no
more time has elapsed than there were delays. -/
def Due (st : UInt8) (elapsed : UInt32) (n : Nat) : Prop :=
  st = LeopState.complete.toByte ∨
  (st = LeopState.initialWait.toByte ∧ elapsed.toNat ≤ n) ∨ initialWaitSec.toNat ≤ n

def FileData.Due (d : FileData) (n : Nat) : Prop := Leop.Due d.leopState d.leopWaitElapsedSec n

/-- What is in a file. -/
def DueFile (file : Option (List UInt8)) (n : Nat) : Prop :=
  ∀ bytes, file = some bytes → bytes = [] ∨ ∃ d : FileData, d.Due n ∧ bytes = fileDataLayout.bytes d

/-- **The state**, after `n` delays. -/
structure Sane (s : State) (n : Nat) : Prop where
  vars : Due s.vars.state.toByte s.vars.waitElapsedSec n
  data : DueFile s.files.disk.data n
  stable : DueFile s.files.disk.stable n
  saving : ∀ t, (s.saving t).fileData.Due n
  flag : s.locals.requested = true → s.vars.completeRequested = true

section Due

variable {st : UInt8} {elapsed elapsed' : UInt32} {n m : Nat} {s s' : State}

theorem Due.mono (h : Due st elapsed n) (hle : n ≤ m) : Due st elapsed m := by
  rcases h with hst | ⟨hst, he⟩ | hn
  · exact Or.inl hst
  · exact Or.inr (Or.inl ⟨hst, Nat.le_trans he hle⟩)
  · exact Or.inr (Or.inr (Nat.le_trans hn hle))

/-- Another time that is no more than the delays. -/
theorem Due.short (h : Due st elapsed n) (he : initialWaitSec.toNat ≤ n ∨ elapsed'.toNat ≤ n) :
    Due st elapsed' n := by
  rcases h with hst | ⟨hst, -⟩ | hn
  · exact Or.inl hst
  · rcases he with hn | he
    · exact Or.inr (Or.inr hn)
    · exact Or.inr (Or.inl ⟨hst, he⟩)
  · exact Or.inr (Or.inr hn)

theorem Due.zero (h : Due st elapsed n) : Due st 0 n := h.short (Or.inr (Nat.zero_le n))

theorem due_initial (n : Nat) : Due LeopState.initialWait.toByte 0 n :=
  Or.inr (Or.inl ⟨rfl, Nat.zero_le n⟩)

theorem due_late (hn : initialWaitSec.toNat ≤ n) : Due st elapsed n := Or.inr (Or.inr hn)

theorem DueFile.mono {file : Option (List UInt8)} (h : DueFile file n) (hle : n ≤ m) :
    DueFile file m := by
  intro bytes hbytes
  rcases h bytes hbytes with hnil | ⟨d, hd, heq⟩
  · exact Or.inl hnil
  · exact Or.inr ⟨d, Due.mono hd hle, heq⟩

theorem Sane.mono (h : Sane s n) (hle : n ≤ m) : Sane s m :=
  ⟨h.vars.mono hle, h.data.mono hle, h.stable.mono hle, fun t => Due.mono (h.saving t) hle, h.flag⟩

/-- Nothing but the variables and the locals changes. -/
theorem Sane.change (h : Sane s n) (hfiles : s'.files = s.files) (hsaving : s'.saving = s.saving)
    (hvars : Due s'.vars.state.toByte s'.vars.waitElapsedSec n)
    (hflag : s'.locals.requested = true → s'.vars.completeRequested = true) : Sane s' n where
  vars := hvars
  data := hfiles ▸ h.data
  stable := hfiles ▸ h.stable
  saving := hsaving ▸ h.saving
  flag := hflag

/-- A whole record that is read is one that was written. -/
theorem DueFile.read {file : Option (List UInt8)} (h : DueFile file n) {bytes : List UInt8}
    (hread : bytes <+: (file.getD []).take fileDataLayout.size)
    (hsize : Int32.ofNat bytes.length = Int32.ofNat fileDataLayout.size) :
    (fileDataLayout.read bytes).Due n := by
  have hlength : bytes.length = fileDataLayout.size := by
    refine Nat.le_antisymm (Nat.le_trans hread.length_le (List.length_take_le _ _)) ?_
    by_contra hlt
    exact ofNat_ne_size (Nat.lt_of_not_le hlt) hsize
  rcases hfile : file with _ | content
  · rw [hfile] at hread
    rw [List.eq_nil_of_prefix_nil hread] at hlength
    exact absurd hlength (by decide)
  rw [hfile, Option.getD_some] at hread
  rcases h content hfile with rfl | ⟨d, hd, rfl⟩
  · rw [List.eq_nil_of_prefix_nil hread] at hlength
    exact absurd hlength (by decide)
  · rw [List.take_of_length_le (Nat.le_of_eq (fileDataLayout.length_bytes d))] at hread
    rw [hread.eq_of_length (hlength.trans (fileDataLayout.length_bytes d).symm), read_bytes]
    exact hd

end Due

/-! ## What both tasks keep -/

/-- Every burn was late, and the state is sane. -/
def Timely (s : State) (h : List Event) : Prop := Each Late h ∧ Sane s (clock.of h).delays

section Timely

variable {s s' : State} {h : List Event} {e : Event} {c : Caller}

theorem Clock.delays_le (c : Clock) (e : Event) : c.delays ≤ (c.note e).delays := by
  have hother : ∀ b : Bool, c.delays ≤ (if b then c else { c with ticked := false }).delays := by
    intro b
    cases b <;> exact Nat.le_refl _
  cases e with
  | booted => exact Nat.le_refl _
  | loaded d v => exact Nat.le_refl _
  | waiting sec => exact Nat.le_refl _
  | delayed => exact Nat.le_succ _
  | tested site b => cases site <;> cases b <;> exact Nat.le_refl _
  | _ => exact hother _

theorem Timely.event (hs : Timely s h) (he : Late h e) (hsane : Sane s' (clock.of h).delays) :
    Timely s' (h ++ [e]) := by
  refine ⟨hs.1.snoc he, ?_⟩
  rw [clock.of_snoc]
  exact hsane.mono (Clock.delays_le _ e)

/-- An event that has nothing to do with the line. -/
theorem Timely.plain (hs : Timely s h) (he : e.raises = false)
    (hsane : Sane s' (clock.of h).delays) : Timely s' (h ++ [e]) :=
  hs.event (fun hraises => absurd (he.symm.trans hraises) Bool.false_ne_true) hsane

theorem Sane.saves {n : Nat} (hs : Sane s n) (t : Task) (status : Status) :
    Sane (s.saves t status) n := by
  refine { hs with saving := fun t' => ?_ }
  by_cases ht : t' = t
  · rw [ht, saves_saving]
    exact hs.saving t
  · show (Function.update s.saving t _ t').fileData.Due n
    rw [Function.update_of_ne ht]
    exact hs.saving t'

theorem Sane.copies {n : Nat} (hs : Sane s n) (t : Task) :
    Sane { s with saving := Function.update s.saving t ⟨s.vars.toFile, success⟩ } n := by
  refine { hs with saving := fun t' => ?_ }
  show (Function.update s.saving t _ t').fileData.Due n
  by_cases ht : t' = t
  · rw [ht, Function.update_self]
    exact hs.vars
  · rw [Function.update_of_ne ht]
    exact hs.saving t'

theorem Sane.moves {n : Nat} {es : List Event} (hs : Sane s n) (hstep : SaveStep c s s' es) :
    Sane s' n := by
  obtain ⟨f, saving, rfl, hothers, hdata, hmove⟩ := hstep
  have hfiles : DueFile f.disk.data n ∧ f.disk.stable = s.files.disk.stable := by
    cases hmove with
    | stay => exact ⟨hs.data, rfl⟩
    | lock => exact ⟨hs.data, rfl⟩
    | work => exact ⟨hs.data, rfl⟩
    | rename =>
      exact ⟨fun bytes heq => Or.inr ⟨_, hs.saving c.task, (Option.some.inj heq).symm⟩, rfl⟩
  refine ⟨hs.vars, hfiles.1, ?_, fun t => ?_, hs.flag⟩
  · exact hfiles.2.symm ▸ hs.stable
  · by_cases ht : t = c.task
    · rw [ht]
      show (saving c.task).fileData.Due n
      rw [hdata]
      exact hs.saving c.task
    · show (saving t).fileData.Due n
      rw [hothers t ht]
      exact hs.saving t

theorem Timely.moves {es : List Event} (hs : Timely s h) (hstep : SaveStep c s s' es) :
    Timely s' (h ++ es) := by
  have hsane := hs.2.moves hstep
  obtain ⟨f, saving, rfl, -, -, hmove⟩ := hstep
  cases hmove with
  | stay => rw [List.append_nil]; exact ⟨hs.1, hsane⟩
  | lock => exact hs.plain rfl hsane
  | work => rw [List.append_nil]; exact ⟨hs.1, hsane⟩
  | rename => exact hs.plain rfl hsane

theorem Timely.syncs (hs : Timely s h) (t : Task) :
    Timely { s.saves t success with
      files := { s.files with disk := { s.files.disk with stable := s.files.disk.data } } }
      (h ++ [.synced c]) := by
  have hsane := hs.2.saves t success
  exact hs.plain rfl ⟨hsane.vars, hs.2.data, hs.2.data, hsane.saving, hsane.flag⟩

/-- What is not on the disk does not matter. -/
theorem Timely.unlock (hs : Timely s h) (handle : Option FileName) (mutex : Option Task) :
    Timely { s with files := { s.files with dataHandle := handle, fileMutex := mutex } } h :=
  ⟨hs.1, hs.2.vars, hs.2.data, hs.2.stable, hs.2.saving, hs.2.flag⟩

end Timely

/-- Both tasks keep that, and need not promise anything else. -/
def timelyPact : Pact := ⟨Timely, fun _ _ _ _ => True, fun _ _ _ _ => True⟩

/-! ## The task of the commands -/

/-- **The task of the commands** keeps the pact. -/
theorem commandTask_timely : Triple (timelyPact.command fun _ _ _ => True)
    (timelyPact.And fun _ _ => True) commandTask (fun _ _ => True) (fun _ _ => True)
    fun _ _ => True := by
  have hstable : Stable (timelyPact.command fun _ _ _ => True)
      (timelyPact.And fun _ _ => True) :=
    Pact.stable_command fun _ _ _ _ _ _ _ _ _ => trivial
  have hkeep : ∀ s h s' h', CommandMove s h s' h' → Timely s' h' →
      (timelyPact.command fun _ _ _ => True).guarantee s h s' h' ∧
        timelyPact.And (fun _ _ => True) s' h' :=
    fun s h s' h' hmove hs => ⟨⟨hmove, trivial, hs⟩, hs, trivial⟩
  have hsave : SaveOutline (timelyPact.command fun _ _ _ => True) .request
      (timelyPact.And fun _ _ => True) (timelyPact.And fun _ _ => True)
      (timelyPact.And fun _ _ => True) (timelyPact.And fun _ _ => True) :=
    { stable := hstable
      stable_copied := hstable
      stable_locked := hstable
      stable_synced := hstable
      mine := fun _ _ _ _ hr => ⟨hr.1.saving, hr.1.files⟩
      fails := fun _ s h hs => hkeep _ _ _ _ (.of_status _) ⟨hs.1.1, hs.1.2.saves _ _⟩
      copies := fun s h hs => hkeep _ _ _ _ (.of_saving _ (ofCommand_single rfl))
        (hs.1.plain rfl (hs.1.2.copies _))
      lockFails := fun _ s h hs => hkeep _ _ _ _ (.of_saving _ (ofCommand_single rfl))
        (hs.1.plain rfl (hs.1.2.saves _ _))
      locks := fun s h s' hs _ hstep => hkeep _ _ _ _ (hstep.commandMove h) (hs.1.moves hstep)
      moves := fun s h s' es hs _ hstep => hkeep _ _ _ _ (hstep.commandMove h) (hs.1.moves hstep)
      syncs := by
        rintro s h hs hmine - s' rfl
        exact hkeep _ _ _ _ (.of_mine _ _ (ofCommand_single rfl) hmine) (hs.1.syncs _)
      givesUp := fun _ s h hs hmine => hkeep _ _ _ _ (.unlock hmine) (hs.1.unlock _ _)
      unlocks := fun s h hs hmine => hkeep _ _ _ _ (.unlock hmine) (hs.1.unlock _ _) }
  have houtline : RequestOutline (timelyPact.command fun _ _ _ => True)
      (timelyPact.And fun _ _ => True) (timelyPact.And fun _ _ => True)
      (timelyPact.And fun _ _ => True) :=
    { stableA := hstable
      stableB := hstable
      stableN := hstable
      mine := fun _ _ _ _ hr => hr.1.saving
      requests := by
        rintro s h i hs - - s' rfl
        refine hkeep _ _ _ _ (.request _) (hs.1.plain rfl ?_)
        have hsane := hs.1.2.saves .command success
        exact ⟨Or.inl rfl, hsane.data, hsane.stable, hsane.saving, fun _ => rfl⟩
      refuses := fun s h hs => hkeep _ _ _ _ (.of_status _) ⟨hs.1.1, hs.1.2.saves _ _⟩
      saves := fun _ _ => hsave.triple_same fun _ _ hs => hs
      answers := fun s h hs => hkeep _ _ _ _ (.answer _) (hs.1.plain rfl hs.1.2) }
  exact houtline.triple fun _ _ _ => trivial

/-! ## The child task -/

/-- What the child task assumes of the clock, and keeps. -/
abbrev earlyTerms : Terms State Input Event := timelyPact.process Follows

/-- Something about the variables, the locals and what has been noted. -/
def Noted (φ : Vars → Locals → Clock → Prop) : Assertion State Event :=
  timelyPact.And fun s h => φ s.vars s.locals (clock.of h)

/-- A request leaves it true. -/
def Firm (φ : Vars → Locals → Clock → Prop) : Prop := ∀ v l c, φ v l c → φ v.requested l c

section Noted

variable {φ ψ : Vars → Locals → Clock → Prop} {X Y : Assertion State Event} {s s' : State}
  {h h' : List Event} {e : Event}

theorem stable_noted (hφ : Firm φ) : Stable earlyTerms (Noted φ) := by
  refine Pact.stable_process fun s h s' h' _ hp hr _ _ => ?_
  obtain ⟨es, rfl, hes⟩ := hr.events
  rw [hr.locals, clock.of_command hes]
  rcases hr.vars with hvars | hvars
  · rw [hvars]
    exact hp
  · rw [hvars]
    exact hφ _ _ _ hp

theorem Noted.guarantee (hs : Noted φ s' h') (hmove : ProcessMove s s') :
    earlyTerms.guarantee s h s' h' ∧ Noted φ s' h' := ⟨⟨hmove, trivial, hs.1⟩, hs⟩

/-- An event of the child task, with a change of the variables and the locals. -/
theorem Noted.event (hs : Noted φ s h) (hfiles : s'.files = s.files)
    (hsaving : s'.saving = s.saving) (he : Late h e)
    (hvars : Due s'.vars.state.toByte s'.vars.waitElapsedSec (clock.of h).delays)
    (hflag : s'.locals.requested = true → s'.vars.completeRequested = true)
    (hψ : ψ s'.vars s'.locals ((clock.of h).note e)) :
    earlyTerms.guarantee s h s' (h ++ [e]) ∧ Noted ψ s' (h ++ [e]) := by
  refine Noted.guarantee ⟨hs.1.event he (hs.1.2.change hfiles hsaving hvars hflag), ?_⟩
    (.of_same hsaving hfiles)
  show ψ s'.vars s'.locals (clock.of (h ++ [e]))
  rw [clock.of_snoc]
  exact hψ

/-- The same, for an event that has nothing to do with the line. -/
theorem Noted.plain (hs : Noted φ s h) (hfiles : s'.files = s.files)
    (hsaving : s'.saving = s.saving) (he : e.raises = false)
    (hvars : Due s'.vars.state.toByte s'.vars.waitElapsedSec (clock.of h).delays)
    (hflag : s'.locals.requested = true → s'.vars.completeRequested = true)
    (hψ : ψ s'.vars s'.locals ((clock.of h).note e)) :
    earlyTerms.guarantee s h s' (h ++ [e]) ∧ Noted ψ s' (h ++ [e]) :=
  hs.event hfiles hsaving (fun hraises => absurd (he.symm.trans hraises) Bool.false_ne_true) hvars
    hflag hψ

/-- A change of the variables and the locals. -/
theorem Noted.change (hs : Noted φ s h) (hfiles : s'.files = s.files)
    (hsaving : s'.saving = s.saving)
    (hvars : Due s'.vars.state.toByte s'.vars.waitElapsedSec (clock.of h).delays)
    (hflag : s'.locals.requested = true → s'.vars.completeRequested = true)
    (hψ : ψ s'.vars s'.locals (clock.of h)) :
    earlyTerms.guarantee s h s' h ∧ Noted ψ s' h :=
  Noted.guarantee ⟨⟨hs.1.1, hs.1.2.change hfiles hsaving hvars hflag⟩, hψ⟩ (.of_same hsaving hfiles)

/-- What a wait changes besides does not matter. -/
def Still (φ : Vars → Locals → Clock → Prop) : Prop :=
  ∀ v l c started remaining complete next, φ v l c →
    φ { v with
        processStarted := started
        waitRemainingSec := remaining
        waitComplete := complete } { l with nextSaveElapsedSec := next } c

theorem calm_noted (hφ : Firm φ) (hstill : Still φ) : Calm earlyTerms (Noted φ) where
  stable := stable_noted hφ
  quiet := by
    rintro s h s' hs ⟨_, _, _, _, rfl⟩
    exact hs.change rfl rfl hs.1.2.vars hs.1.2.flag (hstill _ _ _ _ _ _ _ hs.2)

/-- What `MISSION_LEOP_SaveState` shows does not matter. -/
def Unticked (φ : Vars → Locals → Clock → Prop) : Prop :=
  ∀ v l c, φ v l c → φ v l { c with ticked := false }

theorem note_saving (g : Clock) {c : Caller} (hc : c ≠ .request) {d : FileData} :
    g.note (.snapshot c d) = { g with ticked := false } ∧
    g.note (.saving c) = { g with ticked := false } ∧
    g.note (.notSaved c) = { g with ticked := false } ∧
    g.note (.renamed c) = { g with ticked := false } ∧
    g.note (.synced c) = { g with ticked := false } := by
  cases c with
  | request => exact absurd rfl hc
  | _ => exact ⟨rfl, rfl, rfl, rfl, rfl⟩

theorem saving_noted (c : Caller) (hc : c ≠ .request) (hφ : Firm φ) (hticked : Unticked φ) :
    SaveOutline earlyTerms c (Noted φ) (Noted φ) (Noted φ) (Noted φ) := by
  have htask : c.task = .process := by cases c <;> first | rfl | exact absurd rfl hc
  have hne : Task.command ≠ c.task := htask ▸ by decide
  have hquiet : ∀ (s : State) (h : List Event) (s' : State) (e : Event), Noted φ s h →
      s'.vars = s.vars → s'.locals = s.locals →
      (clock.of h).note e = { clock.of h with ticked := false } →
      φ s'.vars s'.locals (clock.of (h ++ [e])) := by
    intro s h s' e hs hvars hlocals hnote
    rw [clock.of_snoc, show clock.note (clock.of h) e = _ from hnote, hvars, hlocals]
    exact hticked _ _ _ hs.2
  have hnotes := fun (h : List Event) (d : FileData) => note_saving (clock.of h) hc (d := d)
  have hmoves : ∀ s h s' es, Noted φ s h → SaveStep c s s' es →
      earlyTerms.guarantee s h s' (h ++ es) ∧ Noted φ s' (h ++ es) := by
    intro s h s' es hs hstep
    refine Noted.guarantee ⟨hs.1.moves hstep, ?_⟩ (hstep.processMove htask)
    obtain ⟨f, saving, rfl, -, -, hfiles⟩ := hstep
    cases hfiles with
    | stay => rw [List.append_nil]; exact hs.2
    | work => rw [List.append_nil]; exact hs.2
    | lock => exact hquiet s h _ _ hs rfl rfl (hnotes h s.vars.toFile).2.1
    | rename => exact hquiet s h _ _ hs rfl rfl (hnotes h s.vars.toFile).2.2.2.1
  exact {
    stable := stable_noted hφ
    stable_copied := stable_noted hφ
    stable_locked := stable_noted hφ
    stable_synced := stable_noted hφ
    mine := fun _ _ _ _ hr => ⟨htask ▸ hr.1.saving, htask ▸ hr.1.files⟩
    fails := fun _ s h hs =>
      Noted.guarantee ⟨⟨hs.1.1, hs.1.2.saves _ _⟩, hs.2⟩
        ⟨Function.update_of_ne hne _ _, fun _ => rfl⟩
    copies := fun s h hs =>
      Noted.guarantee ⟨hs.1.plain rfl (hs.1.2.copies _), hquiet s h _ _ hs rfl rfl (hnotes h _).1⟩
        ⟨Function.update_of_ne hne _ _, fun _ => rfl⟩
    lockFails := fun _ s h hs =>
      Noted.guarantee ⟨hs.1.plain rfl (hs.1.2.saves _ _),
        hquiet s h _ _ hs rfl rfl (hnotes h s.vars.toFile).2.2.1⟩
        ⟨Function.update_of_ne hne _ _, fun _ => rfl⟩
    locks := fun s h s' hs _ hstep => hmoves s h s' _ hs hstep
    moves := fun s h s' es hs _ hstep => hmoves s h s' es hs hstep
    syncs := by
      rintro s h hs hmine - s' rfl
      exact Noted.guarantee ⟨hs.1.syncs _,
        hquiet s h _ _ hs rfl rfl (hnotes h s.vars.toFile).2.2.2.2⟩
        (.of_mine (Function.update_of_ne hne _ _) (htask ▸ hmine))
    givesUp := fun _ s h hs hmine =>
      Noted.guarantee ⟨hs.1.unlock _ _, hs.2⟩ (.of_mine rfl (htask ▸ hmine))
    unlocks := fun s h hs hmine =>
      Noted.guarantee ⟨hs.1.unlock _ _, hs.2⟩ (.of_mine rfl (htask ▸ hmine)) }

theorem save_noted (c : Caller) (hc : c ≠ .request) (hφ : Firm φ) (hticked : Unticked φ) :
    Triple earlyTerms (Noted φ) (saveState c) (Noted φ) X Y :=
  (saving_noted c hc hφ hticked).triple_same fun _ _ hs => hs

/-- An assignment that touches neither the state nor the elapsed time. -/
theorem set_noted {f : State → State} (hφ : Firm φ)
    (hf : ∀ s, (f s).files = s.files ∧ (f s).saving = s.saving ∧
      (f s).vars.state = s.vars.state ∧ (f s).vars.waitElapsedSec = s.vars.waitElapsedSec ∧
      (f s).locals.requested = s.locals.requested ∧
      (f s).vars.completeRequested = s.vars.completeRequested)
    (hψ : ∀ s c, φ s.vars s.locals c → ψ (f s).vars (f s).locals c) :
    Triple earlyTerms (Noted φ) (.set f) (Noted ψ) X Y := by
  refine .set (stable_noted hφ) fun s h hs => ?_
  obtain ⟨hfiles, hsaving, hstate, helapsed, hlocal, hflag⟩ := hf s
  refine hs.change hfiles hsaving ?_ ?_ (hψ s _ hs.2)
  · rw [hstate, helapsed]
    exact hs.1.2.vars
  · rw [hlocal, hflag]
    exact hs.1.2.flag

theorem setVars_noted (hφ : Firm φ) {f : Vars → Vars}
    (hf : ∀ v, (f v).state = v.state ∧ (f v).waitElapsedSec = v.waitElapsedSec ∧
      (f v).completeRequested = v.completeRequested)
    (hkeep : ∀ v l c, φ v l c → φ (f v) l c) :
    Triple earlyTerms (Noted φ) (setVars f) (Noted φ) X Y :=
  set_noted hφ (fun _ => ⟨rfl, rfl, (hf _).1, (hf _).2.1, rfl, (hf _).2.2⟩)
    fun s c hp => hkeep s.vars s.locals c hp

/-- The flag is read. -/
theorem test_noted (site : Test) (hφ : Firm φ)
    (hψ : ∀ v l c, φ v l c →
      ψ v { l with requested := v.completeRequested } (c.note (.tested site v.completeRequested))) :
    Triple earlyTerms (Noted φ) (test site) (Noted ψ) X Y :=
  .does (stable_noted hφ) fun _ _ _ hs _ =>
    hs.plain rfl rfl rfl hs.1.2.vars id (hψ _ _ _ hs.2)

/-- A command that does not raise the line. -/
theorem send_noted (c : Command) (hc : c ≠ .gpioHigh) (hφ : Firm φ)
    (hissues : ∀ v l g, φ v l g → φ v l (g.note (.issuing c)))
    (hsends : ∀ v l g status, φ v l g →
      φ v { l with status := status } g ∧
        φ v { l with status := status } (g.note (.sent c status))) :
    Triple earlyTerms (Noted φ) (sendCommand c) (Noted φ) X Y := by
  have hraises : (Event.issuing c).raises = false ∧
      ∀ status, (Event.sent c status).raises = false := by
    cases c with
    | gpioHigh => exact absurd rfl hc
    | _ => exact ⟨rfl, fun _ => rfl⟩
  exact send_const (stable_noted hφ) (fun _ _ _ _ hr => hr.1.locals)
    (fun s h hs => hs.plain rfl rfl hraises.1 hs.1.2.vars hs.1.2.flag (hissues _ _ _ hs.2))
    (fun s h status hs =>
      hs.change rfl rfl hs.1.2.vars hs.1.2.flag (hsends _ _ _ status hs.2).1)
    fun s h status hs =>
      hs.plain rfl rfl (hraises.2 status) hs.1.2.vars hs.1.2.flag (hsends _ _ _ status hs.2).2

end Noted

/-! ## Loading -/

section Loading

variable {X Y : Assertion State Event}

/-- No record has been loaded since the start. -/
def Unloaded : Vars → Locals → Clock → Prop := fun _ _ c => c.loaded = none

/-- A load has failed, or the state is the one that was loaded if that is the last one. -/
def Honest : Vars → Locals → Clock → Prop := fun v l c =>
  (l.status ≠ success → c.loaded = none) ∧
  (c.loaded = some LeopState.complete.toByte → v.state = .complete)

theorem firm_honest : Firm Honest := fun _ _ _ hp => ⟨hp.1, fun _ => rfl⟩

theorem honest_of_none {v : Vars} {l : Locals} {c : Clock} (h : c.loaded = none) : Honest v l c :=
  ⟨fun _ => h, fun hsome => absurd (h.symm.trans hsome) (Option.some_ne_none _).symm⟩

/-- The defaults: the initial wait, of which no time has elapsed. -/
theorem setDefaults_noted (φ : Locals → Clock → Prop) :
    Triple earlyTerms (Noted fun _ l c => φ l c) setDefaults
      (Noted fun v l c => φ l c ∧ v.waitElapsedSec = 0) X Y := by
  have hany : Firm fun _ l c => φ l c := fun _ _ _ hp => hp
  have hzero : Firm fun v l c => φ l c ∧ v.waitElapsedSec = 0 := fun _ _ _ hp => ⟨hp.1, rfl⟩
  refine .seq (setVars_noted hany (fun _ => ⟨rfl, rfl, rfl⟩) fun _ _ _ hp => hp) <|
    .seq (setVars_noted hany (fun _ => ⟨rfl, rfl, rfl⟩) fun _ _ _ hp => hp) <|
    .seq (.set (stable_noted hany) fun s h hs => ?_) <|
    .seq (setVars_noted hzero (fun _ => ⟨rfl, rfl, rfl⟩) fun _ _ _ hp => hp) <|
    .seq (setVars_noted hzero (fun _ => ⟨rfl, rfl, rfl⟩) fun _ _ _ hp => hp) <|
    .set (stable_noted hzero) fun s h hs => ?_
  · exact hs.change rfl rfl hs.1.2.vars.zero hs.1.2.flag ⟨hs.2, rfl⟩
  · refine hs.change rfl rfl ?_ hs.1.2.flag hs.2
    show Due LeopState.initialWait.toByte s.vars.waitElapsedSec _
    rw [hs.2.2]
    exact due_initial _

theorem applyDefaults_noted (code : State → InvalidCode) :
    Triple earlyTerms (Noted Unloaded) (applyDefaults code) X Y (Noted Honest) := by
  have hfirm : Firm Unloaded := fun _ _ _ hp => hp
  refine .seq (M := Noted Unloaded)
      ((setDefaults_noted fun _ c => c.loaded = none).post fun _ _ hs => ⟨hs.1, hs.2.1⟩) <|
    .seq (M := Noted Unloaded) (.does (stable_noted hfirm) fun s h _ hs _ => ?_) <|
    .seq (save_noted .load (by decide) hfirm fun _ _ _ hp => hp) <|
    .seq (set_noted hfirm (fun _ => ⟨rfl, rfl, rfl, rfl, rfl, rfl⟩) fun _ _ hp => honest_of_none hp)
      (.ret (stable_noted firm_honest))
  exact hs.plain rfl rfl rfl hs.1.2.vars hs.1.2.flag hs.2

/-- The state of the record, or the last one if a request came in between. -/
def Restoring : Vars → Locals → Clock → Prop := fun v l c =>
  (c.loaded = none ∧ l.fileData.Due c.delays) ∧
  (v.state = (LeopState.ofByte l.fileData.leopState).getD .complete ∨ v.state = .complete)

/-- The state of a record goes with the elapsed times that go with its byte. -/
theorem Due.ofByte {b : UInt8} {elapsed : UInt32} {n : Nat} (h : Due b elapsed n) :
    Due ((LeopState.ofByte b).getD .complete).toByte elapsed n := by
  rcases h with rfl | ⟨rfl, he⟩ | hn
  · exact Or.inl rfl
  · exact Or.inr (Or.inl ⟨rfl, he⟩)
  · exact due_late hn

theorem copyFileToRuntime_noted :
    Triple earlyTerms (Noted fun _ l c => c.loaded = none ∧ l.fileData.Due c.delays)
      copyFileToRuntime (Noted Restoring) X Y := by
  have hfirm : Firm Restoring := fun _ _ _ hp => ⟨hp.1, Or.inr rfl⟩
  have hzero : Firm fun v l c => (c.loaded = none ∧ l.fileData.Due c.delays) ∧
      v.waitElapsedSec = 0 := fun _ _ _ hp => ⟨hp.1, rfl⟩
  refine .seq (setDefaults_noted fun l c => c.loaded = none ∧ l.fileData.Due c.delays) <|
    .seq (set_noted hzero (fun _ => ⟨rfl, rfl, rfl, rfl, rfl, rfl⟩) fun _ _ hp => hp) <|
    .seq (M := Noted Restoring) (.set (stable_noted hzero) fun s h hs => ?_) <|
    .seq (M := Noted Restoring) (.set (stable_noted hfirm) fun s h hs => ?_) <|
    .ite (M := Noted Restoring) (N := Noted Restoring) (stable_noted hfirm)
      (fun _ _ hs _ => hs) (fun _ _ hs _ => hs)
      (.seq (setVars_noted hfirm (fun _ => ⟨rfl, rfl, rfl⟩) fun _ _ _ hp => hp)
        (setVars_noted hfirm (fun _ => ⟨rfl, rfl, rfl⟩) fun _ _ _ hp => hp))
      (setVars_noted hfirm (fun _ => ⟨rfl, rfl, rfl⟩) fun _ _ _ hp => hp)
  · refine hs.change rfl rfl ?_ hs.1.2.flag ⟨hs.2.1, Or.inl rfl⟩
    show Due (LeopState.toByte ((LeopState.ofByte _).getD .complete)) s.vars.waitElapsedSec _
    rw [hs.2.2]
    exact Due.ofByte (Due.zero hs.2.1.2)
  · refine hs.change rfl rfl ?_ hs.1.2.flag hs.2
    show Due s.vars.state.toByte s.locals.fileData.leopWaitElapsedSec _
    rcases hs.2.2 with hst | hst
    · rw [hst]
      exact Due.ofByte hs.2.1.2
    · rw [hst]
      exact Or.inl rfl

/-- **Loading** leaves no more elapsed time behind than there were delays. -/
theorem loadState_noted :
    Triple earlyTerms (Noted Unloaded) loadState (Noted Honest) X Y := by
  have hfirm : Firm Unloaded := fun _ _ _ hp => hp
  have hstable : Stable earlyTerms (Noted Unloaded) := stable_noted hfirm
  have hread : Firm fun _ l c => c.loaded = none ∧
      (l.readSize = Int32.ofNat fileDataLayout.size → l.fileData.Due c.delays) := fun _ _ _ hp => hp
  have hrestore : Firm fun _ l c => c.loaded = none ∧ l.fileData.Due c.delays := fun _ _ _ hp => hp
  have houtline : LoadOutline earlyTerms (Noted Unloaded) (Noted Unloaded)
      (Noted fun _ l c => c.loaded = none ∧
        (l.readSize = Int32.ofNat fileDataLayout.size → l.fileData.Due c.delays))
      (Noted Unloaded) (Noted fun _ l c => c.loaded = none ∧ l.fileData.Due c.delays)
      (Noted Honest) :=
    { stableA := hstable
      stableE := hstable
      stableR := stable_noted hread
      stableD := hstable
      stableV := stable_noted hrestore
      stableQ := stable_noted firm_honest
      mine := fun _ _ _ _ hr => ⟨hr.1.locals, hr.1.files⟩
      locks := by
        rintro s h hs hfree s' rfl
        have hlocked : Timely { s with files := { s.files with fileMutex := some .process } } h :=
          hs.1.unlock _ _
        refine Noted.guarantee ⟨hlocked.plain rfl ⟨hlocked.2.vars, hlocked.2.data,
          hlocked.2.stable, hlocked.2.saving, hlocked.2.flag⟩, ?_⟩ ⟨rfl, fun hother => ?_⟩
        · show (clock.of (h ++ [.loading])).loaded = none
          rw [clock.of_snoc]
          exact hs.2
        · rw [hfree] at hother
          exact absurd hother (Option.some_ne_none _).symm
      opens := by
        rintro s h hs hmine s' rfl
        refine Noted.guarantee ⟨⟨hs.1.1, { hs.1.2 with data := fun bytes hbytes => ?_ }⟩, hs.2⟩
          (.of_mine rfl hmine)
        rcases hdata : s.files.disk.data with _ | old
        · dsimp only at hbytes
          rw [hdata] at hbytes
          exact Or.inl (Option.some.inj hbytes).symm
        · dsimp only at hbytes
          rw [hdata] at hbytes
          exact hs.1.2.data bytes (hdata.trans hbytes)
      goesOn := fun s h hs => hs.change rfl rfl hs.1.2.vars hs.1.2.flag hs.2
      fails := by
        rintro s h i handle hs - - hmine s' rfl
        have hclosed : Timely { s with files := { s.files with dataHandle := handle } } h :=
          hs.1.unlock _ _
        refine Noted.guarantee ⟨hclosed.plain rfl ⟨hclosed.2.vars, hclosed.2.data,
          hclosed.2.stable, hclosed.2.saving, hclosed.2.flag⟩, ?_⟩ ?_
        · show (clock.of (h ++ [.loadError])).loaded = none
          rw [clock.of_snoc]
          exact hs.2
        · rcases hmine with hmine | rfl
          · exact .of_mine rfl hmine
          · exact .of_same rfl rfl
      reads := fun s h i bytes hs _ hbytes => by
        have hdue := fun hsize => hs.1.2.data.read (hbytes ▸ List.take_prefix i.size _) hsize
        exact ⟨fun _ => hs.change rfl rfl hs.1.2.vars hs.1.2.flag ⟨hs.2, hdue⟩,
          fun _ => hs.plain rfl rfl rfl hs.1.2.vars hs.1.2.flag ⟨hs.2, hdue⟩⟩
      readFails := fun s h i hs _ hneg => by
        refine hs.plain rfl rfl rfl hs.1.2.vars hs.1.2.flag ⟨hs.2, fun heq => ?_⟩
        rw [show i.status = Int32.ofNat fileDataLayout.size from heq] at hneg
        exact absurd hneg (by decide)
      leaves := by
        rintro s h handle mutex hs hmine s' rfl
        have htimely : Timely s h := hs.elim (fun he => he.1) fun hr => hr.1
        have hleft := htimely.unlock handle mutex
        exact ⟨⟨.of_mine rfl hmine, trivial, hleft⟩, fun he => ⟨hleft, he.2⟩,
          fun hr => ⟨hleft, hr.2⟩⟩
      quits := fun s h hs _ => ⟨hs.1, honest_of_none hs.2⟩
      short := fun s h hs _ => ⟨hs.1, hs.2.1⟩
      invalid := fun s h hs _ _ => ⟨hs.1, hs.2.1⟩
      valid := fun s h hs hsize _ => ⟨hs.1, hs.2.1, hs.2.2 hsize⟩
      defaults := fun code _ _ => applyDefaults_noted code
      copies := by
        refine .seq copyFileToRuntime_noted <|
          .does (stable_noted fun _ _ _ hp => ⟨hp.1, Or.inr rfl⟩) fun s h _ hs _ => ?_
        refine hs.plain rfl rfl rfl hs.1.2.vars hs.1.2.flag ⟨fun hne => absurd rfl hne, ?_⟩
        intro hlast
        have hbyte : s.locals.fileData.leopState = LeopState.complete.toByte :=
          Option.some.inj hlast
        rcases hs.2.2 with hst | hst
        · rw [hbyte] at hst
          exact hst
        · exact hst }
  exact houtline.triple

end Loading

/-! ## The initial wait -/

section InitialWait

variable {X Y : Assertion State Event}

/-- Enough delays, or a request. -/
def Over (v : Vars) (c : Clock) : Prop :=
  initialWaitSec.toNat ≤ c.delays ∨ v.completeRequested = true

/-- The last state has not been loaded. -/
def Awake (c : Clock) : Prop := c.loaded ≠ some LeopState.complete.toByte

/-- The initial wait is over. -/
def Ready : Vars → Locals → Clock → Prop := fun v _ c => Awake c ∧ Over v c

/-- The state is not the last one, but for a request. -/
def Begun : Vars → Locals → Clock → Prop := fun v _ c =>
  Awake c ∧ (v.state = .complete → v.completeRequested = true)

/-- The wait has no more time behind it than there were delays. -/
def Counting : Vars → Locals → Clock → Prop := fun v l c => Awake c ∧ c.initial = true ∧
  (Over v c ∨ l.savedElapsedSec.toNat + c.waited ≤ c.delays)

/-- The same, after the flag was found unset. -/
def Unasked (time : Locals → Clock → Prop) : Vars → Locals → Clock → Prop := fun _ l c =>
  Awake c ∧ c.initial = true ∧ (initialWaitSec.toNat ≤ c.delays ∨
    l.savedElapsedSec.toNat + c.waited ≤ c.delays ∧ time l c)

theorem Over.requested {v : Vars} {c : Clock} : Over v.requested c := Or.inr rfl

theorem firm_ready : Firm Ready := fun _ _ _ hp => ⟨hp.1, Or.inr rfl⟩

theorem firm_begun : Firm Begun := fun _ _ _ hp => ⟨hp.1, fun _ => rfl⟩

theorem firm_counting : Firm Counting := fun _ _ _ hp => ⟨hp.1, hp.2.1, Or.inl (Or.inr rfl)⟩

/-- Before the wait: more time than the wait takes can only have elapsed if it is over. -/
theorem begun_over {s : State} {h : List Event} (hs : Noted Begun s h)
    (hover : s.locals.requested = true ∨ initialWaitSec ≤ s.vars.waitElapsedSec) :
    Over s.vars (clock.of h) := by
  rcases hover with hreq | hle
  · exact Or.inr (hs.1.2.flag hreq)
  · have hle' := UInt32.le_iff_toNat_le.1 hle
    rcases hs.1.2.vars with hlast | ⟨-, helapsed⟩ | hlate
    · refine Or.inr (hs.2.2 ?_)
      cases hst : s.vars.state <;> rw [hst] at hlast <;>
        first | rfl | exact absurd hlast (by decide)
    · exact Or.inl (Nat.le_trans hle' helapsed)
    · exact Or.inl hlate

/-- **The initial wait** ends after enough delays, or with a request. -/
theorem wait_initial : Triple earlyTerms (Noted Begun) (wait initialWaitSec) (Noted Ready) X Y := by
  have hready : Calm earlyTerms (Noted Ready) := calm_noted firm_ready fun _ _ _ _ _ _ _ hp => hp
  have hcounting : Calm earlyTerms (Noted Counting) :=
    calm_noted firm_counting fun _ _ _ _ _ _ _ hp => hp
  have hsaves : ∀ {φ : Vars → Locals → Clock → Prop}, Firm φ → Unticked φ →
      SaveOutline earlyTerms .wait (Noted φ) (Noted φ) (Noted φ) (Noted φ) :=
    fun hφ hticked => saving_noted .wait (by decide) hφ hticked
  have houtline : WaitOutline earlyTerms initialWaitSec (Noted Begun)
      (Noted fun v l c => Awake c ∧ (Over v c ∨ l.savedElapsedSec.toNat ≤ c.delays))
      (Noted Counting) (Noted Counting)
      (Noted fun v l c => c.ticked = true ∧ Unasked (fun _ _ => True) v l c)
      (Noted (Unasked fun l c => l.totalElapsedSec.toNat ≤ c.delays))
      (Noted Ready) (Noted Ready) (Noted Ready) :=
    { calmA := calm_noted firm_begun fun _ _ _ _ _ _ _ hp => hp
      calmB := calm_noted (fun _ _ _ hp => ⟨hp.1, Or.inl (Or.inr rfl)⟩) fun _ _ _ _ _ _ _ hp => hp
      calmL := hcounting
      calmD := hcounting
      calmR := calm_noted (fun _ _ _ hp => hp) fun _ _ _ _ _ _ _ hp => hp
      calmC := calm_noted (fun _ _ _ hp => hp) fun _ _ _ _ _ _ _ hp => hp
      calmF := hready
      calmE := hready
      calmZ := hready
      others := fun _ _ _ _ hr => hr.1.others
      testTop := by
        rintro s h hs - s' rfl
        exact hs.plain rfl rfl rfl hs.1.2.vars id hs.2
      leavesTop := fun s h hs hw => by
        rcases hw with hw | hover
        · exact absurd hw (by decide)
        · exact ⟨hs.1, hs.2.1, begun_over hs hover⟩
      reads := by
        rintro s h hs - - hlt s' rfl
        refine hs.change rfl rfl hs.1.2.vars hs.1.2.flag ⟨hs.2.1, ?_⟩
        rcases hs.1.2.vars with hlast | ⟨-, helapsed⟩ | hlate
        · refine Or.inl (Or.inr (hs.2.2 ?_))
          cases hst : s.vars.state <;> rw [hst] at hlast <;>
            first | rfl | exact absurd hlast (by decide)
        · exact Or.inr helapsed
        · exact Or.inl (Or.inl hlate)
      starts := by
        rintro s h i hs - s' rfl
        refine hs.plain rfl rfl rfl hs.1.2.vars hs.1.2.flag ⟨hs.2.1, rfl, ?_⟩
        exact hs.2.2.imp id fun hsaved => hsaved
      delays := fun s h hs => by
        refine hs.plain rfl rfl rfl hs.1.2.vars hs.1.2.flag ⟨hs.2.1, hs.2.2.1, ?_⟩
        rcases hs.2.2.2 with (hlate | hreq) | htime
        · exact Or.inl (Or.inl (Nat.le_succ_of_le hlate))
        · exact Or.inl (Or.inr hreq)
        · exact Or.inr (Nat.succ_le_succ htime)
      testTick := by
        rintro s h b hs hb s' rfl
        cases b with
        | true =>
          have hasked : earlyTerms.guarantee s h { s with
              locals := { s.locals with requested := true } } (h ++ [.tested .tick true]) ∧
              Noted Ready { s with locals := { s.locals with requested := true } }
                (h ++ [.tested .tick true]) :=
            hs.plain rfl rfl rfl hs.1.2.vars (fun _ => hb) ⟨hs.2.1, Or.inr hb⟩
          exact ⟨hasked.1, fun _ => hasked.2, fun hno => Bool.noConfusion hno⟩
        | false =>
          have htime : initialWaitSec.toNat ≤ (clock.of h).delays ∨
              s.locals.savedElapsedSec.toNat + (clock.of h).waited ≤ (clock.of h).delays ∧
                True := by
            rcases hs.2.2.2 with (hlate | hreq) | htime
            · exact Or.inl hlate
            · exact absurd (hb.symm.trans hreq) Bool.false_ne_true
            · exact Or.inr ⟨htime, trivial⟩
          have hunasked : earlyTerms.guarantee s h { s with
              locals := { s.locals with requested := false } } (h ++ [.tested .tick false]) ∧
              Noted (fun v l c => c.ticked = true ∧ Unasked (fun _ _ => True) v l c)
                { s with locals := { s.locals with requested := false } }
                (h ++ [.tested .tick false]) :=
            hs.plain rfl rfl rfl hs.1.2.vars (fun hno => Bool.noConfusion hno)
              ⟨rfl, hs.2.1, hs.2.2.1, htime⟩
          exact ⟨hunasked.1, fun hno => Bool.noConfusion hno, fun _ => hunasked.2⟩
      computes := by
        rintro s h i hs hi s' rfl
        refine hs.change rfl rfl hs.1.2.vars hs.1.2.flag ⟨hs.2.2.1, hs.2.2.2.1, ?_⟩
        rcases hs.2.2.2.2 with hlate | ⟨htime, -⟩
        · exact Or.inl hlate
        · refine Or.inr ⟨htime, ?_⟩
          have hclock := hi hs.2.2.2.1 hs.2.1
          show (s.locals.savedElapsedSec +
            (timeSubtract i.now s.vars.startTime).seconds).toNat ≤ (clock.of h).delays
          rw [UInt32.toNat_add]
          exact Nat.le_trans (Nat.mod_le _ _)
            (Nat.le_trans (Nat.add_le_add_left hclock _) htime)
      fills := by
        rintro s h hs hle s' rfl
        have hle' := UInt32.le_iff_toNat_le.1 hle
        have hlate : initialWaitSec.toNat ≤ (clock.of h).delays := by
          rcases hs.2.2.2 with hlate | ⟨-, htotal⟩
          · exact hlate
          · exact Nat.le_trans hle' htotal
        exact hs.plain rfl rfl rfl (due_late hlate) hs.1.2.flag ⟨hs.2.1, Or.inl hlate⟩
      goesOn := by
        rintro s h hs - s' rfl
        refine hs.plain rfl rfl rfl (hs.1.2.vars.short ?_) hs.1.2.flag ⟨hs.2.1, hs.2.2.1, ?_⟩
        · exact hs.2.2.2.imp id fun htime => htime.2
        · exact hs.2.2.2.imp Or.inl fun htime => htime.1
      saveL := (hsaves firm_counting fun _ _ _ hp => hp).triple_framed fun _ _ hs => hs
      saveF := (hsaves firm_ready fun _ _ _ hp => hp).triple_framed fun _ _ hs => hs
      leavesLoop := fun _ _ hs hreq => ⟨hs.1, hs.2.1, Or.inr hreq⟩
      finishes := fun _ _ hs => hs
      clears := by
        rintro s h hs s' rfl
        exact hs.change rfl rfl hs.1.2.vars.zero hs.1.2.flag hs.2 }
  exact houtline.triple

end InitialWait

/-! ## The cycles -/

section Cycles

variable {X Y : Assertion State Event} {s s' : State} {h : List Event} {e : Event}

/-- There have been enough delays: from here on nothing can be too early. -/
def Mature : Vars → Locals → Clock → Prop := fun _ _ c =>
  Awake c ∧ initialWaitSec.toNat ≤ c.delays

theorem firm_mature : Firm Mature := fun _ _ _ hp => hp

theorem stable_mature : Stable earlyTerms (Noted Mature) := stable_noted firm_mature

theorem mature_change (hs : Noted Mature s h) (hfiles : s'.files = s.files)
    (hsaving : s'.saving = s.saving)
    (hflag : s'.locals.requested = true → s'.vars.completeRequested = true) :
    earlyTerms.guarantee s h s' h ∧ Noted Mature s' h :=
  hs.change hfiles hsaving (due_late hs.2.2) hflag hs.2

theorem mature_event (hs : Noted Mature s h) (hfiles : s'.files = s.files)
    (hsaving : s'.saving = s.saving)
    (hflag : s'.locals.requested = true → s'.vars.completeRequested = true)
    (hloaded : ∀ c : Clock, (c.note e).loaded = c.loaded) :
    earlyTerms.guarantee s h s' (h ++ [e]) ∧ Noted Mature s' (h ++ [e]) := by
  refine hs.event hfiles hsaving (fun _ => ⟨hs.2.2, hs.2.1⟩) (due_late hs.2.2) hflag ⟨?_, ?_⟩
  · rw [Awake, hloaded]
    exact hs.2.1
  · exact Nat.le_trans hs.2.2 (Clock.delays_le _ e)

theorem save_mature (c : Caller) (hc : c ≠ .request) :
    Triple earlyTerms (Noted Mature) (saveState c) (Noted Mature) X Y :=
  save_noted c hc firm_mature fun _ _ _ hp => hp

theorem wait_mature (w : UInt32) :
    Triple earlyTerms (Noted Mature) (wait w) (Noted Mature) X Y := by
  have hflag : ∀ (s : State) h requested, Noted Mature s h →
      (requested = s.locals.requested ∨ requested = s.vars.completeRequested) →
      requested = true → s.vars.completeRequested = true := by
    rintro s h requested hs (rfl | rfl) hreq
    · exact hs.1.2.flag hreq
    · exact hreq
  refine wait_const w (calm_noted firm_mature fun _ _ _ _ _ _ _ hp => hp)
    (fun _ _ _ _ hr => hr.1.others) ?_ ?_
    (saving_noted .wait (by decide) firm_mature fun _ _ _ hp => hp)
  · rintro s h s' hs ⟨_, _, _, _, _, hreq, rfl⟩
    exact mature_change hs rfl rfl (hflag s h _ hs hreq)
  · rintro s h s' e hs ⟨_, _, _, _, _, hreq, rfl⟩ he
    refine mature_event hs rfl rfl (hflag s h _ hs hreq) ?_
    cases he with
    | tick b => cases b <;> exact fun _ => rfl
    | _ => exact fun _ => rfl

theorem send_mature (c : Command) :
    Triple earlyTerms (Noted Mature) (sendCommand c) (Noted Mature) X Y :=
  send_const stable_mature (fun _ _ _ _ hr => hr.1.locals)
    (fun _ _ hs => mature_event hs rfl rfl hs.1.2.flag fun _ => rfl)
    (fun _ _ _ hs => mature_change hs rfl rfl hs.1.2.flag)
    fun _ _ _ hs => mature_event hs rfl rfl hs.1.2.flag fun _ => rfl

theorem write_mature {f : State → Vars}
    (hf : ∀ s, (f s).completeRequested = s.vars.completeRequested) :
    Triple earlyTerms (Noted Mature) (write f) (Noted Mature) X Y :=
  .does stable_mature fun s _ _ hs _ =>
    mature_event hs rfl rfl (fun hreq => (hf s).trans (hs.1.2.flag hreq)) fun _ => rfl

theorem break_mature (site : Test) (hsite : site ≠ .tick) : Triple earlyTerms (Noted Mature)
    (breakIfRequested site) (Noted Mature) (Noted Mature) Y := by
  refine .seq (M := Noted Mature) (.does stable_mature fun s _ _ hs _ => ?_) <|
    .when (M := Noted Mature) stable_mature stable_mature (fun _ _ hs _ => hs)
      (fun _ _ hs _ => hs) (.brk stable_mature)
  refine mature_event hs rfl rfl id fun c => ?_
  cases site with
  | tick => exact absurd rfl hsite
  | _ => rfl

theorem gpioHigh_mature : Triple earlyTerms (Noted Mature) gpioHigh (Noted Mature) X Y :=
  .call stable_mature <| .seq (send_mature _) <|
    .seq (M := Noted Mature) (.when (M := Noted Mature) stable_mature stable_mature
      (fun _ _ hs _ => hs) (fun _ _ hs _ => hs) (.ret stable_mature)) <|
    .seq (wait_mature _) (send_mature _)

/-- **A cycle** cannot be too early. -/
theorem cycleBody_mature : Triple earlyTerms (Noted Mature) cycleBody (Noted Mature)
    (Noted Mature) Y := by
  have hsave : ∀ X Y, Triple earlyTerms (Noted Mature) (saveState .process) (Noted Mature) X Y :=
    fun _ _ => save_mature .process (by decide)
  exact .seq (wait_mature 0) <| .seq (write_mature fun _ => rfl) <| .seq gpioHigh_mature <|
    .seq (break_mature _ (by decide)) <| .seq (hsave _ _) <| .seq (break_mature _ (by decide)) <|
    .seq (write_mature fun _ => rfl) <| .seq (send_mature _) <|
    .seq (break_mature _ (by decide)) <| .seq (hsave _ _) <| .seq (break_mature _ (by decide)) <|
    .seq (write_mature fun _ => rfl) <| .seq (hsave _ _) <| .seq (wait_mature _) <|
    .seq (break_mature _ (by decide)) <| .seq (write_mature fun _ => rfl) <|
    .seq (write_mature fun _ => rfl) (hsave _ _)

/-- At the top of a cycle: if the flag was found unset there have been enough delays. -/
def AtTop : Vars → Locals → Clock → Prop := fun _ l c =>
  Awake c ∧ (l.cycle < sequenceRepeatCount → l.requested = false → initialWaitSec.toNat ≤ c.delays)

theorem testCycle_ready : Triple earlyTerms (Noted Ready) testCycle (Noted AtTop) X Y := by
  have htop : Firm AtTop := fun _ _ _ hp => hp
  refine .when (M := Noted Ready) (stable_noted firm_ready) (stable_noted htop)
    (fun _ _ hs _ => hs) (fun s h hs hb => ⟨hs.1, hs.2.1, fun hlt => ?_⟩)
    (test_noted .cycle firm_ready fun v l c hp => ⟨hp.1, fun _ hreq => ?_⟩)
  · exact absurd hlt (of_decide_eq_false hb)
  · rcases hp.2 with hlate | hasked
    · exact hlate
    · exact absurd (hasked.symm.trans hreq) (by decide)

end Cycles

/-! ## The sequence -/

section Sequence

variable {X Y : Assertion State Event}

/-- Nothing is known but what both tasks keep. -/
def Anything : Vars → Locals → Clock → Prop := fun _ _ _ => True

theorem stable_anything : Stable earlyTerms (Noted Anything) := stable_noted fun _ _ _ hp => hp

/-- What comes of a load. -/
theorem recover_noted : Triple earlyTerms (Noted Honest)
    (.when State.failed (.block [
      setVars fun v => { v with errCounter := v.errCounter + 1 },
      setDefaults,
      .emit .loadFailed]))
    (Noted fun v _ c => c.loaded = some LeopState.complete.toByte → v.state = .complete) X Y := by
  have hfirm : Firm fun v _ c => c.loaded = some LeopState.complete.toByte → v.state = .complete :=
    fun _ _ _ _ _ => rfl
  refine .when (M := Noted Unloaded) (stable_noted firm_honest) (stable_noted hfirm)
    (fun s h hs hb => ⟨hs.1, hs.2.1 (of_decide_eq_true hb)⟩) (fun s h hs _ => ⟨hs.1, hs.2.2⟩) <|
    .seq (M := Noted Unloaded) (setVars_noted (fun _ _ _ hp => hp) (fun _ => ⟨rfl, rfl, rfl⟩)
      fun _ _ _ hp => hp) <|
    .seq (setDefaults_noted fun _ c => c.loaded = none) <|
    .emit (stable_noted fun _ _ _ hp => ⟨hp.1, rfl⟩) fun s h hs =>
      hs.plain rfl rfl rfl hs.1.2.vars hs.1.2.flag fun hlast => ?_
  exact absurd (hs.2.1.symm.trans hlast) (Option.some_ne_none _).symm

/-- The initial wait, if there is one. -/
theorem initialWait_noted : Triple earlyTerms (Noted Begun)
    (.when (fun s => s.vars.state = .initialWait) (.block [
      wait initialWaitSec,
      test .initialWait,
      .when (fun s => !s.locals.requested) (.block [
        write fun s => { s.vars with state := .burn },
        saveState .process])])) (Noted Ready) X Y := by
  have htested : Firm fun v l c => Awake c ∧ Over v c ∧
      (l.requested = false → initialWaitSec.toNat ≤ c.delays) :=
    fun _ _ _ hp => ⟨hp.1, Or.inr rfl, hp.2.2⟩
  refine .when (M := Noted Begun) (stable_noted firm_begun) (stable_noted firm_ready)
    (fun _ _ hs _ => hs) (fun s h hs hb => ⟨hs.1, hs.2.1, ?_⟩) <|
    .seq wait_initial <|
    .seq (test_noted .initialWait firm_ready fun v l c hp => ⟨hp.1, hp.2, fun hreq => ?_⟩) <|
    .when (M := Noted Mature) (stable_noted htested) (stable_noted firm_ready)
      (fun s h hs hb => ⟨hs.1, hs.2.1, hs.2.2.2 (by simpa using hb)⟩)
      (fun s h hs _ => ⟨hs.1, hs.2.1, hs.2.2.1⟩) <|
    .seq (write_mature fun _ => rfl) <|
    (save_mature .process (by decide)).post fun s h hs => ⟨hs.1, hs.2.1, Or.inl hs.2.2⟩
  · rcases hs.1.2.vars with hlast | ⟨hfirst, -⟩ | hlate
    · refine Or.inr (hs.2.2 ?_)
      cases hst : s.vars.state <;> rw [hst] at hlast <;>
        first | rfl | exact absurd hlast (by decide)
    · refine absurd ?_ (of_decide_eq_false hb)
      cases hst : s.vars.state <;> rw [hst] at hfirst <;>
        first | rfl | exact absurd hfirst (by decide)
    · exact Or.inl hlate
  · rcases hp.2 with hlate | hasked
    · exact hlate
    · exact absurd (hasked.symm.trans hreq) (by decide)

/-- **The whole sequence** raises the line late enough. -/
theorem process_noted (detumble : Bool) : Triple earlyTerms (Noted Unloaded) (process detumble)
    (fun _ _ => True) (fun _ _ => True) fun _ _ => True := by
  have hlast : Firm fun v _ c => c.loaded = some LeopState.complete.toByte → v.state = .complete :=
    fun _ _ _ _ _ => rfl
  have hany : Firm Anything := fun _ _ _ hp => hp
  have htop : Firm AtTop := fun _ _ _ hp => hp
  refine .post (Q := Noted Anything) ?_ fun _ _ _ => trivial
  refine .call stable_anything <|
    .seq loadState_noted <| .seq recover_noted <|
    .seq (M := Noted fun v _ c => c.loaded = some LeopState.complete.toByte → v.state = .complete)
      (.when (stable_noted hlast) (stable_noted hlast) (fun _ _ hs _ => hs) (fun _ _ hs _ => hs) <|
        .seq (send_noted _ (by decide) hlast (fun _ _ _ hp => hp) fun _ _ _ _ hp => ⟨hp, hp⟩) <|
        .when (stable_noted hlast) (stable_noted hlast) (fun _ _ hs _ => hs) (fun _ _ hs _ => hs)
          (setVars_noted hlast (fun _ => ⟨rfl, rfl, rfl⟩) fun _ _ _ hp => hp)) <|
    .seq (M := Noted Begun)
      (.when (M := Noted Anything) (stable_noted hlast) (stable_noted firm_begun)
        (fun _ _ hs _ => ⟨hs.1, trivial⟩) ?_ <|
        .seq (send_noted _ (by decide) hany (fun _ _ _ hp => hp) fun _ _ _ _ hp => ⟨hp, hp⟩) <|
        .seq (M := Noted Anything) (.emit stable_anything fun s h hs =>
          hs.plain rfl rfl rfl hs.1.2.vars hs.1.2.flag hs.2) (.ret stable_anything)) <|
    .seq initialWait_noted <|
    .seq (M := Noted Ready)
      (set_noted firm_ready (fun _ => ⟨rfl, rfl, rfl, rfl, rfl, rfl⟩) fun _ _ hp => hp) <|
    .seq testCycle_ready <|
    .seq (M := Noted Anything) (.loop (M := Noted Mature) (stable_noted htop) ?_
      (.seq cycleBody_mature <| .seq (M := Noted Ready) (.set stable_mature fun s h hs => ?_)
        testCycle_ready)
      (fun _ _ hs _ => ⟨hs.1, trivial⟩) fun _ _ hs => ⟨hs.1, trivial⟩) <|
    .seq (M := Noted Anything) (wait_zero (E := Noted Anything)
      (calm_noted hany fun _ _ _ _ _ _ _ hp => hp) (calm_noted hany fun _ _ _ _ _ _ _ hp => hp)
      (calm_noted hany fun _ _ _ _ _ _ _ hp => hp) (fun _ _ _ _ hr => hr.1.others)
      (fun _ _ hs => hs) ?_) <|
    .seq (setVars_noted hany (fun _ => ⟨rfl, rfl, rfl⟩) fun _ _ _ hp => hp) <|
    .seq (M := Noted Anything) (.does stable_anything fun s h _ hs _ =>
      hs.plain rfl rfl rfl hs.1.2.vars hs.1.2.flag hs.2) <|
    .seq (M := Noted Anything) (.does stable_anything fun s h _ hs _ =>
      hs.plain rfl rfl rfl (Or.inl rfl) hs.1.2.flag hs.2) <|
    .seq (save_noted .process (by decide) hany fun _ _ _ hp => hp) <|
    .emit stable_anything fun s h hs => hs.plain rfl rfl rfl hs.1.2.vars hs.1.2.flag hs.2
  · intro s h hs hb
    have hne := of_decide_eq_false hb
    exact ⟨hs.1, fun hloaded => hne (hs.2 hloaded), fun hst => absurd hst hne⟩
  · intro s h hs hb
    obtain ⟨hlt, hreq⟩ := Bool.and_eq_true_iff.1 hb
    exact ⟨hs.1, hs.2.1, hs.2.2 (of_decide_eq_true hlt) (by simpa using hreq)⟩
  · exact hs.change rfl rfl hs.1.2.vars hs.1.2.flag ⟨hs.2.1, Or.inl hs.2.2⟩
  · rintro s h hs s' rfl
    exact hs.change rfl rfl hs.1.2.vars.zero hs.1.2.flag hs.2

end Sequence

/-! ## Runs -/

/-- **No early burn.**  With no file to begin with, however often the power is lost, whichever calls
fail and whenever a command arrives: before every command that raises the line there have been as
many delays as the initial wait has seconds, and no such command is sent in a boot that has loaded
the last state, in every run in which no reading of the clock in the initial wait is ahead of the
delays. -/
theorem burns_late (detumble : Bool) (xs : List (Program.Sched Task Input))
    (hxs : (leop detumble).Meets (ForProcess Follows) (State.start Disk.empty) xs) :
    Each Late (events detumble Disk.empty xs) := by
  have hnone : ∀ n, DueFile Disk.empty.data n :=
    fun n bytes hbytes => absurd hbytes.symm (Option.some_ne_none bytes)
  have hzero : ∀ n, FileData.Due ⟨0, 0, 0, 0, 0, 0⟩ n := due_initial
  have hstart : Timely (State.start Disk.empty) [] :=
    ⟨Each.nil _, due_initial _, hnone _, hnone _, fun _ => hzero _,
      fun hreq => Bool.noConfusion hreq⟩
  have hagreed : (leop detumble).Meets (Agreed Follows fun _ _ _ => True)
      (State.start Disk.empty) xs := by
    intro pre x hpre
    have hx := hxs pre x hpre
    match x with
    | .step .process i => exact hx
    | .step .command _ => trivial
    | .restart _ => trivial
  refine (Pact.run (K := timelyPact) (process_noted detumble) commandTask_timely
    ⟨hstart, rfl, trivial⟩ ?_ hagreed).1
  rintro s h current s' hs rfl
  refine ⟨hs.plain rfl ⟨due_initial _, ?_, ?_, fun _ => hzero _, fun hreq => Bool.noConfusion hreq⟩,
    ?_, trivial⟩
  · cases current with
    | true => exact hs.2.data
    | false => exact hs.2.stable
  · cases current with
    | true => exact hs.2.data
    | false => exact hs.2.stable
  · show (clock.of (h ++ [.booted])).loaded = none
    rw [clock.of_snoc]
    rfl

instance (s : State) (h : List Event) (i : Input) : Decidable (Follows s h i) :=
  inferInstanceAs (Decidable (_ → _ → _))

theorem burns_late_still :
    Each Late (events false Disk.empty (List.replicate 180 (stepAt 0 success))) :=
  burns_late false _ (Program.System.meets_of_from _ (by decide +kernel))

/-- The clock is set back by a second during the initial wait. -/
def clockSetBack : List (Program.Sched Task Input) :=
  List.replicate 116 (stepAt 5000 success) ++ List.replicate 151 (stepAt 4999 success)

/-- A clock that is set back ends the initial wait after a second. -/
theorem burns_after_a_second : ¬ ∀ detumble xs, Each Late (events detumble Disk.empty xs) := by
  intro hall
  have hraised := (hall false clockSetBack).get 23 (by decide +kernel) (by decide +kernel)
  have hdelays : (clock.of ((events false Disk.empty clockSetBack).take 23)).delays = 1 := by
    decide +kernel
  rw [hdelays] at hraised
  exact absurd hraised.1 (by decide)

end Leop
end FlightApps
