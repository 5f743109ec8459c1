import FlightApps.Leop.Jointly
import FlightApps.Leop.Records

/-!
# A request is final

Once `MISSION_LEOP_RequestComplete` has taken effect no further burn begins, and once it has
returned `CFE_SUCCESS` every boot loads the last state (`Final`).

This holds as long as the request comes at a moment at which it is not lost.  The child task looks
at the flag and assigns afterwards, or begins a burn; it copies the runtime data and takes the mutex
of the file afterwards; and while it loads a record or applies the defaults it does not look at the
flag at all (`Risk`).  A request in between is overwritten, in memory or in the file.  Later boots
have to be able to read the file.
-/

set_option autoImplicit false

namespace FlightApps
namespace Leop

open Program (Terms Assertion Change Stable Triple)

/-- The record of a sequence that is complete. -/
def doneFile : FileData :=
  { Vars.zero with cycleCount := sequenceRepeatCount, state := .complete }.toFile

/-- Why a request would be lost. -/
inductive Risk
  | none
  /-- A record is being loaded, or the defaults are being applied. -/
  | loading
  /-- The flag was found unset, and an assignment follows. -/
  | writing
  /-- The same, and it is the one to the cycle count. -/
  | counting
  /-- The flag was found unset, and a burn follows. -/
  | burning
  /-- An older copy is about to be written. -/
  | stale
deriving DecidableEq

def Risk.note (r : Risk) : Event → Risk
  | .booted => .loading
  | .loaded _ _ => .none
  | .loadFailed => .none
  | .synced .load => .none
  | .tested .initialWait false => .writing
  | .tested .tick false => .writing
  | .tested .beforeEnable false => .writing
  | .tested .beforePostWait false => .writing
  | .tested .postWait false => .counting
  | .tested .cycle false => .burning
  | .wrote => if r = .writing ∨ r = .counting then .none else r
  | .issuing .gpioHigh => .none
  | .snapshot .request _ => r
  | .snapshot _ d => if r = .loading ∨ d = doneFile then r else .stale
  | .saving .request => r
  | .saving _ => if r = .stale then .none else r
  | .notSaved .request => r
  | .notSaved _ => if r = .stale then .none else r
  | _ => r

/-- Where the child task is, as far as a request is concerned. -/
def risk : Watch Risk where
  init := .loading
  note := Risk.note
  deaf r e he := by
    cases e with
    | snapshot c d => cases c <;> first | rfl | exact Bool.noConfusion he
    | saving c => cases c <;> first | rfl | exact Bool.noConfusion he
    | notSaved c => cases c <;> first | rfl | exact Bool.noConfusion he
    | synced c => cases c <;> first | rfl | exact Bool.noConfusion he
    | _ => first | rfl | exact Bool.noConfusion he

/-- A request would be lost.  The cycle count of the last cycle is the one of a request. -/
def Risk.risky (r : Risk) (cycle : UInt8) : Bool :=
  match r with
  | .none => false
  | .counting => cycle + 1 < sequenceRepeatCount
  | _ => true

/-- What has come of requests. -/
structure Past where
  /-- One was answered with success, before the last start. -/
  settled : Bool
  /-- One has taken effect since. -/
  requested : Bool
  /-- Its record has reached the disk. -/
  synced : Bool
  /-- It was answered with success. -/
  answered : Bool

def Past.note (p : Past) : Event → Past
  | .booted => ⟨p.settled || p.answered, false, false, false⟩
  | .requested => { p with requested := true }
  | .synced .request => { p with synced := true }
  | .answered status => { p with answered := p.answered || status = success }
  | _ => p

def past (h : List Event) : Past := h.foldl Past.note ⟨false, false, false, false⟩

@[simp] theorem past_snoc (h : List Event) (e : Event) : past (h ++ [e]) = (past h).note e := by
  rw [past, List.foldl_append]
  rfl

/-- After a request no burn begins; after one that was answered with success every boot loads the
last state. -/
structure Final (pre : List Event) (e : Event) : Prop where
  burn : e = .issuing .gpioHigh → (past pre).requested = false ∧ (past pre).settled = false
  loaded : ∀ d v, e = .loaded d v → (past pre).settled = true →
    d.leopState = LeopState.complete.toByte
  defaults : e.Defaults → (past pre).settled = false

/-- A request takes effect where it is not lost. -/
def Timed (s : State) (h : List Event) (i : Input) : Prop :=
  i.status = success → (risk.of h).risky s.locals.cycle = false

/-- The calls of `MISSION_LEOP_LoadState` succeed, once a request has been answered with success. -/
def LoadsLater (_ : State) (h : List Event) (i : Input) : Prop :=
  (past h).settled = true → risk.of h = .loading →
    i.status = success ∧ fileDataLayout.size ≤ i.size

/-! ## What both tasks keep -/

/-- The variables of a sequence that is complete. -/
structure Vars.Completed (v : Vars) : Prop where
  state : v.state = .complete
  cycleCount : v.cycleCount = sequenceRepeatCount
  waitElapsedSec : v.waitElapsedSec = 0

theorem Vars.Completed.toFile {v : Vars} (hv : v.Completed) : v.toFile = doneFile :=
  toFile_inj hv.cycleCount hv.state hv.waitElapsedSec

theorem completed_requested (v : Vars) : v.requested.Completed := ⟨rfl, rfl, rfl⟩

theorem invalidCode_doneFile : doneFile.invalidCode = none := (invalidCode_toFile _).2 ⟨rfl, rfl⟩

/-- The data file is the last record, also after a power loss. -/
structure Disk.Complete (d : Disk) : Prop where
  data : d.data = some (fileDataLayout.bytes doneFile)
  stable : d.stable = some (fileDataLayout.bytes doneFile)

/-- **What both tasks keep.** -/
structure Lasting (s : State) (h : List Event) : Prop where
  final : Each Final h
  requested : (past h).requested = true → s.vars.completeRequested = true
  synced : (past h).synced = true → s.vars.completeRequested = true
  answered : (past h).answered = true → (past h).synced = true
  vars : s.vars.completeRequested = true → s.vars.Completed
  files : (past h).settled = true ∨ (past h).synced = true → s.files.disk.Complete

/-- The pact: only the task of the commands sets the flag, and only where that is not lost; what it
writes it writes under the mutex. -/
def finalPact : Pact where
  kept := Lasting
  byProcess s h s' h' := s'.vars.completeRequested = s.vars.completeRequested ∧ past h' = past h
  byCommand s h s' h' := (past h').settled = (past h).settled ∧
    (s'.vars = s.vars ∨ (risk.of h).risky s.locals.cycle = false) ∧
    ((past h').synced = true → (past h).synced = true ∨ s.files.fileMutex = some .command)

section Lasting

variable {s s' : State} {h : List Event} {e : Event}

/-- An event that is none of those that `Final` is about. -/
def Event.Harmless : Event → Bool
  | .issuing .gpioHigh => false
  | .loaded _ _ => false
  | .refused _ => false
  | .loadFailed => false
  | _ => true

theorem Event.Harmless.final {pre : List Event} (he : e.Harmless = true) : Final pre e := by
  refine ⟨?_, ?_, ?_⟩
  · rintro rfl
    exact Bool.noConfusion he
  · rintro d v rfl
    exact Bool.noConfusion he
  · intro hdef
    cases e <;> first | exact hdef.elim | exact Bool.noConfusion he

/-- A step that is no request, no synchronisation of one and no answer. -/
theorem Lasting.step {h' : List Event} (hs : Lasting s h) (hfinal : Each Final h')
    (hpast : past h' = past h) (hreq : s'.vars.completeRequested = s.vars.completeRequested)
    (hvars : s'.vars.completeRequested = true → s'.vars.Completed)
    (hfiles : (past h).settled = true ∨ (past h).synced = true → s'.files.disk.Complete) :
    Lasting s' h' where
  final := hfinal
  requested h := hreq.trans (hs.requested (hpast ▸ h))
  synced h := hreq.trans (hs.synced (hpast ▸ h))
  answered h := hpast ▸ hs.answered (hpast ▸ h)
  vars := hvars
  files h := hfiles (hpast ▸ h)

/-- As long as no request has taken effect none has reached the disk. -/
theorem Lasting.unsynced (hs : Lasting s h) (hreq : s.vars.completeRequested = false) :
    (past h).synced = false := by
  rcases hsynced : (past h).synced with _ | _
  · rfl
  · exact absurd (hreq.symm.trans (hs.synced hsynced)) Bool.false_ne_true

theorem Lasting.unrequested (hs : Lasting s h) (hreq : s.vars.completeRequested = false) :
    (past h).requested = false := by
  rcases hrequested : (past h).requested with _ | _
  · rfl
  · exact absurd (hreq.symm.trans (hs.requested hrequested)) Bool.false_ne_true

end Lasting

/-! ## The task of the commands -/

section Command

/-- What the task of the commands keeps. -/
abbrev requestPact : Terms State Input Event := finalPact.command Timed

/-- **A request** is final once it is on the disk, and an answer says that it is. -/
theorem commandTask_final : Triple requestPact (finalPact.And fun _ _ => True) commandTask
    (fun _ _ => True) (fun _ _ => True) fun _ _ => True := by
  have hidle : ∀ (s : State) h (es : List Event) s', Lasting s h → s'.vars = s.vars →
      (∀ p, es.foldl Past.note p = p) → (∀ e ∈ es, e.Harmless = true) →
      ((past h).settled = true ∨ (past h).synced = true → s'.files.disk.Complete) →
      CommandMove s h s' (h ++ es) →
      requestPact.guarantee s h s' (h ++ es) ∧ Lasting s' (h ++ es) := by
    intro s h es s' hs hvars hpast hes hfiles hmove
    have hsame : past (h ++ es) = past h := by
      rw [past, List.foldl_append]
      exact hpast _
    have hlast : Lasting s' (h ++ es) := hs.step
      (hs.final.append fun _ e he => Event.Harmless.final (hes e he)) hsame
      (by rw [hvars]) (by rw [hvars]; exact hs.vars) hfiles
    exact ⟨⟨hmove, ⟨by rw [hsame], Or.inl hvars, fun hsync => Or.inl (hsame ▸ hsync)⟩, hlast⟩,
      hlast⟩
  have hstatus : ∀ (s : State) h status, Lasting s h →
      requestPact.guarantee s h (s.saves .command status) h ∧
        Lasting (s.saves .command status) h := by
    intro s h status hs
    have hkept := hidle s h [] (s.saves .command status) hs rfl (fun _ => rfl)
      (fun e he => absurd he List.not_mem_nil) hs.files (.of_saving _ ofCommand_nil)
    rwa [List.append_nil] at hkept
  have hunlock : ∀ (s : State) h, Lasting s h → s.files.fileMutex = some .command →
      requestPact.guarantee s h { s with files := { s.files with fileMutex := none } } h ∧
        Lasting { s with files := { s.files with fileMutex := none } } h := by
    intro s h hs hmine
    have hlast : Lasting { s with files := { s.files with fileMutex := none } } h :=
      ⟨hs.final, hs.requested, hs.synced, hs.answered, hs.vars, hs.files⟩
    exact ⟨⟨.unlock hmine, ⟨rfl, Or.inl rfl, Or.inl⟩, hlast⟩, hlast⟩
  have hstable : Stable requestPact (finalPact.And fun _ _ => True) :=
    Pact.stable_command fun _ _ _ _ _ _ _ _ _ => trivial
  have hasked : Stable requestPact (finalPact.And fun s _ => s.vars.completeRequested = true) :=
    Pact.stable_command fun _ _ _ _ _ hp _ hk _ => hk.1.trans hp
  have hcopied : Stable requestPact (finalPact.And fun s _ => s.vars.completeRequested = true ∧
      (s.saving .command).fileData = doneFile) :=
    Pact.stable_command fun _ _ _ _ _ hp hmove hk _ =>
      ⟨hk.1.trans hp.1, by rw [hmove.saving]; exact hp.2⟩
  have hsynced : Stable requestPact (finalPact.And fun s h => s.vars.completeRequested = true ∧
      (past h).synced = true) :=
    Pact.stable_command fun _ _ _ _ _ hp _ hk _ => ⟨hk.1.trans hp.1, by rw [hk.2]; exact hp.2⟩
  have hsave : SaveOutline requestPact .request
      (finalPact.And fun s _ => s.vars.completeRequested = true)
      (finalPact.And fun s _ => s.vars.completeRequested = true ∧
        (s.saving .command).fileData = doneFile)
      (finalPact.And fun s _ => s.vars.completeRequested = true ∧
        (s.saving .command).fileData = doneFile)
      (finalPact.And fun s h => s.vars.completeRequested = true ∧ (past h).synced = true) := by
    have hmoves : ∀ s h s' es,
        finalPact.And (fun s _ => s.vars.completeRequested = true ∧
          (s.saving .command).fileData = doneFile) s h → SaveStep .request s s' es →
        requestPact.guarantee s h s' (h ++ es) ∧
          finalPact.And (fun s _ => s.vars.completeRequested = true ∧
            (s.saving .command).fileData = doneFile) s' (h ++ es) := by
      intro s h s' es hs hstep
      have hmove := hstep.commandMove h
      obtain ⟨f, saving, rfl, -, hdata, hfiles⟩ := hstep
      obtain ⟨hguar, hlast⟩ := hidle s h es { s with files := f, saving := saving } hs.1 rfl
        (by cases hfiles <;> exact fun _ => rfl)
        (by cases hfiles <;> simp [Event.Harmless])
        (fun hdone => by
          have hcomplete := hs.1.files hdone
          cases hfiles with
          | stay => exact hcomplete
          | lock => exact hcomplete
          | work => exact ⟨hcomplete.data, hcomplete.stable⟩
          | rename => exact ⟨by rw [← hs.2.2]; rfl, hcomplete.stable⟩) hmove
      exact ⟨hguar, hlast, hs.2.1, hdata.trans hs.2.2⟩
    exact {
      stable := hasked
      stable_copied := hcopied
      stable_locked := hcopied
      stable_synced := hsynced
      mine := fun _ _ _ _ hr => ⟨hr.1.saving, hr.1.files⟩
      fails := fun _ s h hs =>
        ⟨(hstatus s h _ hs.1).1, (hstatus s h _ hs.1).2, hs.2⟩
      copies := fun s h hs => by
        obtain ⟨hguar, hlast⟩ := hidle s h [.snapshot .request s.vars.toFile]
          { s with saving := Function.update s.saving .command ⟨s.vars.toFile, success⟩ } hs.1 rfl
          (fun _ => rfl) (by simp [Event.Harmless]) hs.1.files
          (.of_saving _ (ofCommand_single rfl))
        refine ⟨hguar, hlast, hs.2, ?_⟩
        show (Function.update s.saving Task.command _ Task.command).fileData = doneFile
        rw [Function.update_self]
        exact (hs.1.vars hs.2).toFile
      lockFails := fun _ s h hs => by
        obtain ⟨hguar, hlast⟩ := hidle s h [.notSaved .request]
          (s.saves .command externalResourceFail) hs.1 rfl (fun _ => rfl)
          (by simp [Event.Harmless]) hs.1.files (.of_saving _ (ofCommand_single rfl))
        exact ⟨hguar, hlast, hs.2.1⟩
      locks := fun s h s' hs _ hstep => hmoves s h s' _ hs hstep
      moves := fun s h s' es hs _ hstep => hmoves s h s' es hs hstep
      syncs := by
        rintro s h hs hmine hdata s' rfl
        have hdone : s.files.disk.data = some (fileDataLayout.bytes doneFile) := by
          rw [← hs.2.2]
          exact hdata
        have hlast : Lasting { s.saves .command success with
            files := { s.files with disk := { s.files.disk with stable := s.files.disk.data } } }
            (h ++ [.synced .request]) := {
          final := hs.1.final.snoc (Event.Harmless.final rfl)
          requested := fun hp => hs.1.requested (by rw [past_snoc] at hp; exact hp)
          synced := fun _ => hs.2.1
          answered := fun _ => by rw [past_snoc]; rfl
          vars := hs.1.vars
          files := fun _ => ⟨hdone, hdone⟩ }
        exact ⟨⟨.of_mine _ _ (ofCommand_single rfl) hmine, ⟨by rw [past_snoc]; rfl, Or.inl rfl,
          fun _ => Or.inr hmine⟩, hlast⟩, hlast, hs.2.1, by rw [past_snoc]; rfl⟩
      givesUp := fun _ s h hs hmine =>
        ⟨(hunlock s h hs.1 hmine).1, (hunlock s h hs.1 hmine).2, hs.2.1⟩
      unlocks := fun s h hs hmine =>
        ⟨(hunlock s h hs.1 hmine).1, (hunlock s h hs.1 hmine).2, hs.2⟩ }
  have houtline : RequestOutline requestPact (finalPact.And fun _ _ => True)
      (finalPact.And fun s _ => s.vars.completeRequested = true)
      (finalPact.And fun s h => s.saveFailed .command = false → (past h).synced = true) :=
    { stableA := hstable
      stableB := hasked
      stableN := Pact.stable_command fun s h s' h' _ hp hmove hk _ hok => by
        rw [State.saveFailed, hmove.saving] at hok
        rw [hk.2]
        exact hp hok
      mine := fun _ _ _ _ hr => hr.1.saving
      requests := by
        rintro s h i hs hi hst s' rfl
        have hlast : Lasting { s.saves .command success with vars := s.vars.requested }
            (h ++ [.requested]) := {
          final := hs.1.final.snoc (Event.Harmless.final rfl)
          requested := fun _ => rfl
          synced := fun _ => rfl
          answered := fun hp => by
            rw [past_snoc] at hp ⊢
            exact hs.1.answered hp
          vars := fun _ => completed_requested _
          files := fun hp => hs.1.files (by rw [past_snoc] at hp; exact hp) }
        refine ⟨⟨.request _, ⟨by rw [past_snoc]; rfl, Or.inr (hi hst), fun hp => Or.inl ?_⟩, hlast⟩,
          hlast, rfl⟩
        rw [past_snoc] at hp
        exact hp
      refuses := fun s h hs => by
        refine ⟨(hstatus s h _ hs.1).1, (hstatus s h _ hs.1).2, fun hok => ?_⟩
        exact (saves_fail hok).elim
      saves := fun _ _ => by
        refine hsave.triple (Pact.stable_command fun s h s' h' _ hp hmove hk _ hok => ?_) ?_ ?_
        · rw [State.saveFailed, hmove.saving] at hok
          rw [hk.2]
          exact hp hok
        · exact fun s h hs hfail _ => ⟨hs.1, fun hok => absurd (hfail.symm.trans hok) (by decide)⟩
        · exact fun s h hs => ⟨hs.1, fun _ => hs.2.2⟩
      answers := fun s h hs => by
        have hlast : Lasting s (h ++ [.answered (s.saving .command).status]) := {
          final := hs.1.final.snoc (Event.Harmless.final rfl)
          requested := fun hp => hs.1.requested (by rw [past_snoc] at hp; exact hp)
          synced := fun hp => hs.1.synced (by rw [past_snoc] at hp; exact hp)
          answered := fun hp => by
            rw [past_snoc] at hp ⊢
            rcases Bool.or_eq_true_iff.1 hp with hold | hnew
            · exact hs.1.answered hold
            · exact hs.2 (decide_eq_false (not_not.2 (of_decide_eq_true hnew)))
          vars := hs.1.vars
          files := fun hp => hs.1.files (by rw [past_snoc] at hp; exact hp) }
        refine ⟨⟨.answer _, ⟨by rw [past_snoc]; rfl, Or.inl rfl, fun hp => Or.inl ?_⟩, hlast⟩,
          hlast, trivial⟩
        rw [past_snoc] at hp
        exact hp }
  exact houtline.triple fun _ _ _ => trivial

end Command

/-! ## The child task -/

/-- What the child task assumes of its calls, and keeps. -/
abbrev finalTerms : Terms State Input Event := finalPact.process LoadsLater

/-- In a boot in which a request may still come: how a request would be lost, and more. -/
def At (r : Risk) (φ : Vars → Locals → Prop) : Assertion State Event := finalPact.And fun s h =>
  risk.of h = r ∧ (past h).settled = false ∧ φ s.vars s.locals

/-- A request would not be lost. -/
def Base (κ : UInt8 → Prop) : Assertion State Event := At .none fun _ l => κ l.cycle

/-- A request would be lost, but there was none. -/
def Unset (r : Risk) (κ : UInt8 → Prop) : Assertion State Event :=
  At r fun v l => v.completeRequested = false ∧ κ l.cycle

section At

variable {r r' : Risk} {φ ψ : Vars → Locals → Prop} {κ : UInt8 → Prop} {X Y : Assertion State Event}
  {s s' : State} {h : List Event} {e : Event}

/-- What the other task does to the child task. -/
theorem rely_cases {h' : List Event} (hr : finalTerms.rely s h s' h') :
    risk.of h' = risk.of h ∧ (past h').settled = (past h).settled ∧ s'.locals = s.locals ∧
    (s'.vars = s.vars ∨
      s'.vars = s.vars.requested ∧ (risk.of h).risky s.locals.cycle = false) := by
  obtain ⟨hmove, ⟨hsettled, hvars, -⟩, -⟩ := hr
  obtain ⟨es, rfl, hes⟩ := hmove.events
  refine ⟨risk.of_command hes, hsettled, hmove.locals, ?_⟩
  rcases hvars with hsame | hrisk
  · exact Or.inl hsame
  · exact hmove.vars.imp id fun hset => ⟨hset, hrisk⟩

theorem stable_at (hφ : ∀ v l, r.risky l.cycle = false → φ v l → φ v.requested l) :
    Stable finalTerms (At r φ) := by
  intro s h s' h' hs hr
  obtain ⟨hrisk, hsettled, hlocals, hvars⟩ := rely_cases hr
  refine ⟨hr.2.2, hrisk.trans hs.2.1, hsettled.trans hs.2.2.1, ?_⟩
  rw [hlocals]
  rcases hvars with hsame | ⟨hset, hno⟩
  · rw [hsame]
    exact hs.2.2.2
  · rw [hset]
    rw [hs.2.1] at hno
    exact hφ _ _ hno hs.2.2.2

theorem stable_base : Stable finalTerms (Base κ) := stable_at fun _ _ _ hp => hp

/-- There is no request at a moment at which it would be lost. -/
theorem stable_unset (hr : ∀ cycle, r.risky cycle = true) : Stable finalTerms (Unset r κ) :=
  stable_at fun _ l hno _ => absurd ((hr l.cycle).symm.trans hno) (by decide)

/-- An event of the child task, with a change of the variables and the locals. -/
theorem At.event (hs : At r φ s h) (hfiles : s'.files = s.files) (hsaving : s'.saving = s.saving)
    (hreq : s'.vars.completeRequested = s.vars.completeRequested)
    (hvars : s'.vars.completeRequested = true → s'.vars.Completed)
    (hfinal : Final h e) (hpast : ∀ p : Past, p.note e = p) (hrisk : r.note e = r')
    (hψ : ψ s'.vars s'.locals) :
    finalTerms.guarantee s h s' (h ++ [e]) ∧ At r' ψ s' (h ++ [e]) := by
  have hsame : past (h ++ [e]) = past h := (past_snoc h e).trans (hpast _)
  have hlast : Lasting s' (h ++ [e]) :=
    hs.1.step (hs.1.final.snoc hfinal) hsame hreq hvars (hfiles.symm ▸ hs.1.files)
  refine ⟨⟨.of_same hsaving hfiles, ⟨hreq, hsame⟩, hlast⟩, hlast, ?_, ?_, hψ⟩
  · rw [risk.of_snoc, hs.2.1]
    exact hrisk
  · rw [hsame]
    exact hs.2.2.1

theorem At.change (hs : At r φ s h) (hfiles : s'.files = s.files) (hsaving : s'.saving = s.saving)
    (hreq : s'.vars.completeRequested = s.vars.completeRequested)
    (hvars : s'.vars.completeRequested = true → s'.vars.Completed) (hψ : ψ s'.vars s'.locals) :
    finalTerms.guarantee s h s' h ∧ At r ψ s' h := by
  have hlast : Lasting s' h := hs.1.step hs.1.final rfl hreq hvars (hfiles.symm ▸ hs.1.files)
  exact ⟨⟨.of_same hsaving hfiles, ⟨hreq, rfl⟩, hlast⟩, hlast, hs.2.1, hs.2.2.1, hψ⟩

/-- Where there was no request, anything may be assigned. -/
theorem Unset.vars {f : Vars → Prop} (hs : Unset r κ s h)
    (hreq : s'.vars.completeRequested = s.vars.completeRequested) :
    s'.vars.completeRequested = true → f s'.vars := fun hset =>
  absurd ((hreq.trans hs.2.2.2.1).symm.trans hset) Bool.false_ne_true

/-- What only the housekeeping shows says nothing about completion. -/
theorem Vars.Completed.quiet {v : Vars} (hv : v.Completed) (started complete : Bool)
    (remaining : UInt32) : { v with
      processStarted := started
      waitRemainingSec := remaining
      waitComplete := complete }.Completed := ⟨hv.state, hv.cycleCount, hv.waitElapsedSec⟩

theorem calm_at (hφ : ∀ v l, r.risky l.cycle = false → φ v l → φ v.requested l)
    (hstill : ∀ v l started remaining complete next, φ v l →
      φ { v with
          processStarted := started
          waitRemainingSec := remaining
          waitComplete := complete } { l with nextSaveElapsedSec := next }) :
    Calm finalTerms (At r φ) where
  stable := stable_at hφ
  quiet := by
    rintro s h s' hs ⟨_, _, _, _, rfl⟩
    exact hs.change rfl rfl rfl (fun hreq => (hs.1.vars hreq).quiet _ _ _)
      (hstill _ _ _ _ _ _ hs.2.2.2)

theorem calm_base : Calm finalTerms (Base κ) :=
  calm_at (fun _ _ _ hp => hp) fun _ _ _ _ _ _ hp => hp

theorem calm_unset (hr : ∀ cycle, r.risky cycle = true) : Calm finalTerms (Unset r κ) :=
  calm_at (fun _ l hno _ => absurd ((hr l.cycle).symm.trans hno) (by decide))
    fun _ _ _ _ _ _ hp => hp

end At

/-! ## Saving -/

section Saving

variable {κ : UInt8 → Prop} {X Y : Assertion State Event} {c : Caller}

/-- The copy is the last record, or there was no request yet and it would be lost. -/
def Copied (κ : UInt8 → Prop) : Assertion State Event := finalPact.And fun s h =>
  (past h).settled = false ∧ κ s.locals.cycle ∧
  (risk.of h = .none ∧ (s.saving .process).fileData = doneFile ∨
    risk.of h = .stale ∧ s.vars.completeRequested = false)

/-- The copy is the last record, or it is written before any of a request. -/
def Writing (κ : UInt8 → Prop) : Assertion State Event := finalPact.And fun s h =>
  (past h).settled = false ∧ κ s.locals.cycle ∧ risk.of h = .none ∧
  ((s.saving .process).fileData = doneFile ∨
    s.files.fileMutex = some .process ∧ (past h).synced = false)

theorem stable_copied : Stable finalTerms (Copied κ) := by
  intro s h s' h' hs hr
  obtain ⟨hrisk, hsettled, hlocals, hvars⟩ := rely_cases hr
  refine ⟨hr.2.2, hsettled.trans hs.2.1, by rw [hlocals]; exact hs.2.2.1, ?_⟩
  rcases hs.2.2.2 with ⟨hnone, hdone⟩ | ⟨hstale, hreq⟩
  · exact Or.inl ⟨hrisk.trans hnone, by rw [hr.1.saving]; exact hdone⟩
  · refine Or.inr ⟨hrisk.trans hstale, ?_⟩
    rcases hvars with hsame | ⟨-, hno⟩
    · rw [hsame]
      exact hreq
    · rw [hstale] at hno
      exact Bool.noConfusion hno

theorem stable_writing : Stable finalTerms (Writing κ) := by
  intro s h s' h' hs hr
  obtain ⟨hrisk, hsettled, hlocals, -⟩ := rely_cases hr
  refine ⟨hr.2.2, hsettled.trans hs.2.1, by rw [hlocals]; exact hs.2.2.1,
    hrisk.trans hs.2.2.2.1, ?_⟩
  rcases hs.2.2.2.2 with hdone | ⟨hmine, hsynced⟩
  · exact Or.inl (by rw [hr.1.saving]; exact hdone)
  · refine Or.inr ⟨by rw [hr.1.files hmine]; exact hmine, ?_⟩
    rcases hnew : (past h').synced with _ | _
    · rfl
    · rcases hr.2.1.2.2 hnew with hold | hother
      · exact absurd (hsynced.symm.trans hold) Bool.false_ne_true
      · exact absurd (Option.some.inj (hmine.symm.trans hother)) (by decide)

/-- What the child task does to the files and its own copy. -/
theorem Lasting.saving {s : State} {h h' : List Event} (hs : Lasting s h) (s' : State)
    (hmove : ProcessMove s s') (hvars : s'.vars = s.vars) (hpast : past h' = past h)
    (hfinal : Each Final h')
    (hfiles : (past h).settled = true ∨ (past h).synced = true → s'.files.disk.Complete) :
    finalTerms.guarantee s h s' h' ∧ Lasting s' h' := by
  have hlast : Lasting s' h' :=
    hs.step hfinal hpast (by rw [hvars]) (by rw [hvars]; exact hs.vars) hfiles
  exact ⟨⟨hmove, ⟨by rw [hvars], hpast⟩, hlast⟩, hlast⟩

/-- What is shown by a save of the child task. -/
theorem saving_events (hc : c.task = .process) (d : FileData) :
    ∀ e ∈ [Event.snapshot c d, .saving c, .notSaved c, .renamed c, .synced c],
      e.Harmless = true ∧ ∀ p : Past, p.note e = p := by
  cases c with
  | request => exact absurd hc (by decide)
  | _ => simp [Event.Harmless, Past.note]

theorem saving_base (hc : c = .wait ∨ c = .process) :
    SaveOutline finalTerms c (Base κ) (Copied κ) (Writing κ) (Base κ) := by
  have htask : c.task = .process := by rcases hc with rfl | rfl <;> rfl
  have hne : Task.command ≠ c.task := htask ▸ by decide
  have hother : ∀ (s : State) x, ProcessMove s { s with
      saving := Function.update s.saving c.task x } :=
    fun s x => ⟨Function.update_of_ne hne _ _, fun _ => rfl⟩
  have hevents := saving_events htask
  have hshown : ∀ (h : List Event) (d : FileData) (e : Event),
      e ∈ [Event.snapshot c d, .saving c, .notSaved c, .renamed c, .synced c] →
      past (h ++ [e]) = past h ∧ (∀ h', Each Final h' → Each Final (h' ++ [e])) := by
    intro h d e he
    obtain ⟨hharmless, hnote⟩ := hevents d e he
    exact ⟨(past_snoc h e).trans (hnote _), fun h' hh => hh.snoc (Event.Harmless.final hharmless)⟩
  have hrisks : ∀ r : Risk, r = .none ∨ r = .stale →
      r.note (.saving c) = .none ∧ r.note (.notSaved c) = .none := by
    rcases hc with rfl | rfl <;> rintro r (rfl | rfl) <;> exact ⟨rfl, rfl⟩
  have hrenamed : Risk.none.note (.renamed c) = .none ∧ Risk.none.note (.synced c) = .none := by
    rcases hc with rfl | rfl <;> exact ⟨rfl, rfl⟩
  exact {
    stable := stable_base
    stable_copied := stable_copied
    stable_locked := stable_writing
    stable_synced := stable_base
    mine := fun _ _ _ _ hr => ⟨htask ▸ hr.1.saving, htask ▸ hr.1.files⟩
    fails := fun _ s h hs => by
      obtain ⟨hguar, hlast⟩ := hs.1.saving _ (hother s _) rfl rfl hs.1.final hs.1.files
      exact ⟨hguar, hlast, hs.2⟩
    copies := fun s h hs => by
      obtain ⟨hpast, hfinal⟩ := hshown h s.vars.toFile _ List.mem_cons_self
      obtain ⟨hguar, hlast⟩ := hs.1.saving _ (hother s ⟨s.vars.toFile, success⟩) rfl hpast
        (hfinal h hs.1.final) hs.1.files
      have hrisk : (risk.of h).note (.snapshot c s.vars.toFile) =
          if s.vars.toFile = doneFile then .none else .stale := by
        rw [hs.2.1]
        rcases hc with rfl | rfl <;> simp [Risk.note]
      refine ⟨hguar, hlast, ?_, hs.2.2.2, ?_⟩
      · rw [hpast]
        exact hs.2.2.1
      · rw [risk.of_snoc, show risk.note (risk.of h) _ = _ from hrisk]
        by_cases hdone : s.vars.toFile = doneFile
        · rw [if_pos hdone]
          refine Or.inl ⟨rfl, ?_⟩
          show (Function.update s.saving c.task _ .process).fileData = doneFile
          rw [htask, Function.update_self]
          exact hdone
        · rw [if_neg hdone]
          refine Or.inr ⟨rfl, ?_⟩
          rcases hreq : s.vars.completeRequested with _ | _
          · rfl
          · exact absurd (hs.1.vars hreq).toFile hdone
    lockFails := fun _ s h hs => by
      obtain ⟨hpast, hfinal⟩ := hshown h s.vars.toFile (.notSaved c) (by simp)
      obtain ⟨hguar, hlast⟩ := hs.1.saving _ (hother s _) rfl hpast (hfinal h hs.1.final) hs.1.files
      refine ⟨hguar, hlast, ?_, by rw [hpast]; exact hs.2.1, hs.2.2.1⟩
      rw [risk.of_snoc]
      exact (hrisks _ (hs.2.2.2.imp (fun hd => hd.1) fun hd => hd.1)).2
    locks := fun s h s' hs hmine hstep => by
      have hmove := hstep.processMove htask
      obtain ⟨f, saving, rfl, -, hdata, hfiles⟩ := hstep
      obtain ⟨hpast, hfinal⟩ := hshown h s.vars.toFile (.saving c) (by simp)
      have hdisk : f.disk = s.files.disk := by cases hfiles; rfl
      obtain ⟨hguar, hlast⟩ := hs.1.saving _ hmove rfl hpast (hfinal h hs.1.final)
        (by rw [show ({ s with files := f, saving := saving } : State).files.disk = _ from hdisk]
            exact hs.1.files)
      refine ⟨hguar, hlast, by rw [hpast]; exact hs.2.1, hs.2.2.1, ?_, ?_⟩
      · rw [risk.of_snoc]
        exact (hrisks _ (hs.2.2.2.imp (fun hd => hd.1) fun hd => hd.1)).1
      · rw [htask] at hdata hmine
        rcases hs.2.2.2 with ⟨-, hdone⟩ | ⟨-, hreq⟩
        · exact Or.inl (hdata.trans hdone)
        · refine Or.inr ⟨hmine, ?_⟩
          rw [hpast]
          exact hs.1.unsynced hreq
    moves := fun s h s' es hs hmine hstep => by
      have hmove := hstep.processMove htask
      obtain ⟨f, saving, rfl, -, hdata, hfiles⟩ := hstep
      have hkept : past (h ++ es) = past h ∧ Each Final (h ++ es) ∧ risk.of (h ++ es) = .none ∧
          f.fileMutex = s.files.fileMutex ∧
          ((past h).settled = true ∨ (past h).synced = true → f.disk.Complete) := by
        cases hfiles with
        | lock hfree => exact absurd (hfree.symm.trans hmine) (Option.some_ne_none _).symm
        | stay =>
          rw [List.append_nil]
          exact ⟨rfl, hs.1.final, hs.2.2.2.1, rfl, hs.1.files⟩
        | work =>
          rw [List.append_nil]
          exact ⟨rfl, hs.1.final, hs.2.2.2.1, rfl,
            fun hdone => ⟨(hs.1.files hdone).data, (hs.1.files hdone).stable⟩⟩
        | rename =>
          obtain ⟨hpast, hfinal⟩ := hshown h s.vars.toFile (.renamed c) (by simp)
          refine ⟨hpast, hfinal h hs.1.final, ?_, rfl, fun hdone => ⟨?_, (hs.1.files hdone).stable⟩⟩
          · rw [risk.of_snoc, hs.2.2.2.1]
            exact hrenamed.1
          · rw [htask]
            rcases hs.2.2.2.2 with hlast | ⟨-, hno⟩
            · rw [hlast]
            · rcases hdone with hsettled | hsynced
              · exact absurd (hs.2.1.symm.trans hsettled) Bool.false_ne_true
              · exact absurd (hno.symm.trans hsynced) Bool.false_ne_true
      obtain ⟨hpast, hfinal, hrisk, hmutex, hcomplete⟩ := hkept
      obtain ⟨hguar, hlast⟩ := hs.1.saving _ hmove rfl hpast hfinal hcomplete
      refine ⟨hguar, hlast, by rw [hpast]; exact hs.2.1, hs.2.2.1, hrisk, ?_⟩
      rw [htask] at hdata
      rcases hs.2.2.2.2 with hdone | ⟨hheld, hno⟩
      · exact Or.inl (hdata.trans hdone)
      · exact Or.inr ⟨hmutex.trans hheld, by rw [hpast]; exact hno⟩
    syncs := by
      rintro s h hs hmine hdata s' rfl
      obtain ⟨hpast, hfinal⟩ := hshown h s.vars.toFile (.synced c) (by simp)
      obtain ⟨hguar, hlast⟩ := hs.1.saving { s.saves c.task success with
          files := { s.files with disk := { s.files.disk with stable := s.files.disk.data } } }
        (.of_mine (Function.update_of_ne hne _ _) (htask ▸ hmine)) rfl hpast (hfinal h hs.1.final)
        fun hdone => ⟨(hs.1.files hdone).data, (hs.1.files hdone).data⟩
      refine ⟨hguar, hlast, ?_, by rw [hpast]; exact hs.2.1, hs.2.2.1⟩
      rw [risk.of_snoc, hs.2.2.2.1]
      exact hrenamed.2
    givesUp := fun _ s h hs hmine => by
      obtain ⟨hguar, hlast⟩ := hs.1.saving { s with
          files := { s.files with fileMutex := none } } (.of_mine rfl (htask ▸ hmine)) rfl rfl
        hs.1.final hs.1.files
      exact ⟨hguar, hlast, hs.2.2.2.1, hs.2.1, hs.2.2.1⟩
    unlocks := fun s h hs hmine => by
      obtain ⟨hguar, hlast⟩ := hs.1.saving { s with
          files := { s.files with fileMutex := none } } (.of_mine rfl (htask ▸ hmine)) rfl rfl
        hs.1.final hs.1.files
      exact ⟨hguar, hlast, hs.2⟩ }

theorem save_base : Triple finalTerms (Base κ) (saveState .process) (Base κ) X Y :=
  (saving_base (Or.inr rfl)).triple_same fun _ _ hs => hs

end Saving

/-! ## Waiting and sending -/

section Wait

variable {κ : UInt8 → Prop} {X Y : Assertion State Event} {s s' : State} {h : List Event}
  {e : Event}

/-- An event that changes nothing for a request. -/
theorem base_event (hs : Base κ s h) (hfiles : s'.files = s.files) (hsaving : s'.saving = s.saving)
    (hreq : s'.vars.completeRequested = s.vars.completeRequested)
    (hvars : s.vars.Completed → s'.vars.Completed) (he : e.Harmless = true)
    (hpast : ∀ p : Past, p.note e = p) (hrisk : Risk.none.note e = .none)
    (hcycle : s'.locals.cycle = s.locals.cycle) :
    finalTerms.guarantee s h s' (h ++ [e]) ∧ Base κ s' (h ++ [e]) :=
  hs.event hfiles hsaving hreq (fun hset => hvars (hs.1.vars (hreq.symm.trans hset)))
    (Event.Harmless.final he) hpast hrisk (by rw [hcycle]; exact hs.2.2.2)

theorem base_change (hs : Base κ s h) (hfiles : s'.files = s.files)
    (hsaving : s'.saving = s.saving)
    (hreq : s'.vars.completeRequested = s.vars.completeRequested)
    (hvars : s.vars.Completed → s'.vars.Completed) (hcycle : s'.locals.cycle = s.locals.cycle) :
    finalTerms.guarantee s h s' h ∧ Base κ s' h :=
  hs.change hfiles hsaving hreq (fun hset => hvars (hs.1.vars (hreq.symm.trans hset)))
    (by rw [hcycle]; exact hs.2.2.2)

/-- No time has elapsed of a wait that has been cleared. -/
theorem Vars.Completed.clear {v : Vars} (hv : v.Completed) :
    { v with waitElapsedSec := 0 }.Completed := ⟨hv.state, hv.cycleCount, rfl⟩

/-- **Waiting**: the elapsed time is assigned only where no request has come since the flag was
read. -/
theorem wait_base (w : UInt32) : Triple finalTerms (Base κ) (wait w) (Base κ) X Y := by
  have hwriting : ∀ cycle, Risk.writing.risky cycle = true := fun _ => rfl
  have houtline : WaitOutline finalTerms w (Base κ) (Base κ) (Base κ) (Base κ) (Unset .writing κ)
      (Unset .writing κ) (Base κ) (Base κ) (Base κ) :=
    { calmA := calm_base
      calmB := calm_base
      calmL := calm_base
      calmD := calm_base
      calmR := calm_unset hwriting
      calmC := calm_unset hwriting
      calmF := calm_base
      calmE := calm_base
      calmZ := calm_base
      others := fun _ _ _ _ hr => hr.1.others
      testTop := by
        rintro s h hs - s' rfl
        exact base_event hs rfl rfl rfl id rfl (fun _ => rfl) rfl rfl
      leavesTop := fun _ _ hs _ => hs
      reads := by
        rintro s h hs - - - s' rfl
        exact base_change hs rfl rfl rfl id rfl
      starts := by
        rintro s h i hs - s' rfl
        exact base_event hs rfl rfl rfl (fun hv => ⟨hv.state, hv.cycleCount, hv.waitElapsedSec⟩) rfl
          (fun _ => rfl) rfl rfl
      delays := fun s h hs => base_event hs rfl rfl rfl id rfl (fun _ => rfl) rfl rfl
      testTick := by
        rintro s h b hs hb s' rfl
        cases b with
        | true =>
          have hset : finalTerms.guarantee s h { s with
              locals := { s.locals with requested := true } } (h ++ [.tested .tick true]) ∧
              Base κ { s with locals := { s.locals with requested := true } }
                (h ++ [.tested .tick true]) :=
            base_event hs rfl rfl rfl id rfl (fun _ => rfl) rfl rfl
          exact ⟨hset.1, fun _ => hset.2, fun hno => Bool.noConfusion hno⟩
        | false =>
          have hunset : finalTerms.guarantee s h { s with
              locals := { s.locals with requested := false } } (h ++ [.tested .tick false]) ∧
              Unset .writing κ { s with locals := { s.locals with requested := false } }
                (h ++ [.tested .tick false]) :=
            hs.event rfl rfl rfl hs.1.vars (Event.Harmless.final rfl) (fun _ => rfl) rfl
              ⟨hb, hs.2.2.2⟩
          exact ⟨hunset.1, fun hno => Bool.noConfusion hno, fun _ => hunset.2⟩
      computes := by
        rintro s h i hs - s' rfl
        exact hs.change rfl rfl rfl hs.1.vars hs.2.2.2
      fills := by
        rintro s h hs - s' rfl
        exact hs.event rfl rfl rfl (Unset.vars hs rfl) (Event.Harmless.final rfl) (fun _ => rfl) rfl
          hs.2.2.2.2
      goesOn := by
        rintro s h hs - s' rfl
        exact hs.event rfl rfl rfl (Unset.vars hs rfl) (Event.Harmless.final rfl) (fun _ => rfl) rfl
          hs.2.2.2.2
      saveL := (saving_base (Or.inl rfl)).triple_framed fun _ _ hs => hs
      saveF := (saving_base (Or.inl rfl)).triple_framed fun _ _ hs => hs
      leavesLoop := fun _ _ hs _ => hs
      finishes := fun _ _ hs => hs
      clears := by
        rintro s h hs s' rfl
        exact base_change hs rfl rfl rfl Vars.Completed.clear rfl }
  exact houtline.triple

/-- A command other than the one that raises the line. -/
theorem send_base (c : Command) (hc : c ≠ .gpioHigh) :
    Triple finalTerms (Base κ) (sendCommand c) (Base κ) X Y := by
  have hissuing : (Event.issuing c).Harmless = true ∧ Risk.none.note (.issuing c) = .none := by
    cases c with
    | gpioHigh => exact absurd rfl hc
    | _ => exact ⟨rfl, rfl⟩
  exact send_const stable_base (fun _ _ _ _ hr => hr.1.locals)
    (fun s h hs => base_event hs rfl rfl rfl id hissuing.1 (fun _ => rfl) hissuing.2 rfl)
    (fun s h _ hs => base_change hs rfl rfl rfl id rfl)
    fun s h _ hs => base_event hs rfl rfl rfl id rfl (fun _ => rfl) rfl rfl

/-- The line is raised only where no request has come since the flag was read. -/
theorem sendHigh_base :
    Triple finalTerms (Unset .burning κ) (sendCommand .gpioHigh) (Base κ) X Y := by
  have houtline : SendOutline finalTerms .gpioHigh (Unset .burning κ) (Base κ) (Base κ) :=
    { stable := stable_unset fun _ => rfl
      stable_issuing := stable_base
      stable_sent := stable_base
      others := fun _ _ _ _ hr => hr.1.locals
      issues := fun s h hs => by
        refine hs.event rfl rfl rfl hs.1.vars ⟨fun _ => ?_, ?_, fun hdef => hdef.elim⟩
          (fun _ => rfl) rfl hs.2.2.2.2
        · exact ⟨hs.1.unrequested hs.2.2.2.1, hs.2.2.1⟩
        · exact fun _ _ heq => Event.noConfusion heq
      goesOn := fun s h i hs _ _ => base_change hs rfl rfl rfl id rfl
      fails := fun s h i hs _ _ => base_change hs rfl rfl rfl id rfl
      sends := fun s h i hs _ => base_event hs rfl rfl rfl id rfl (fun _ => rfl) rfl rfl }
  exact houtline.triple

theorem gpioHigh_base : Triple finalTerms (Unset .burning κ) gpioHigh (Base κ) X Y :=
  .call stable_base <| .seq sendHigh_base <|
    .seq (M := Base κ) (.when (M := Base κ) stable_base stable_base (fun _ _ hs _ => hs)
      (fun _ _ hs _ => hs) (.ret stable_base)) <|
    .seq (wait_base _) (send_base _ (by decide))

end Wait

/-! ## The cycles -/

section Cycles

variable {κ : UInt8 → Prop} {X Y : Assertion State Event}

/-- The flag has been read: if it was unset a request would be lost as `r` says. -/
def Asked (r : Risk) (κ : UInt8 → Prop) : Assertion State Event := fun s h =>
  (s.locals.requested = true ∧ Base κ s h) ∨ (s.locals.requested = false ∧ Unset r κ s h)

theorem stable_asked {r : Risk} (hr : ∀ cycle, r.risky cycle = true) :
    Stable finalTerms (Asked r κ) := by
  rintro s h s' h' (⟨hreq, hs⟩ | ⟨hreq, hs⟩) hrely
  · exact Or.inl ⟨by rw [hrely.1.locals]; exact hreq, stable_base _ _ _ _ hs hrely⟩
  · exact Or.inr ⟨by rw [hrely.1.locals]; exact hreq, stable_unset hr _ _ _ _ hs hrely⟩

/-- The flag is read before an assignment or a burn. -/
theorem test_asked (site : Test) {r : Risk} (htrue : Risk.none.note (.tested site true) = .none)
    (hfalse : Risk.none.note (.tested site false) = r) :
    Triple finalTerms (Base κ) (test site) (Asked r κ) X Y := by
  refine .does stable_base fun s h _ hs _ => ?_
  dsimp only
  rcases hreq : s.vars.completeRequested with _ | _
  · have hkept : finalTerms.guarantee s h { s with
        locals := { s.locals with requested := false } } (h ++ [.tested site false]) ∧
        Unset r κ { s with locals := { s.locals with requested := false } }
          (h ++ [.tested site false]) :=
      hs.event rfl rfl rfl hs.1.vars (Event.Harmless.final rfl) (fun _ => rfl) hfalse
        ⟨hreq, hs.2.2.2⟩
    exact ⟨hkept.1, Or.inr ⟨rfl, hkept.2⟩⟩
  · have hkept : finalTerms.guarantee s h { s with
        locals := { s.locals with requested := true } } (h ++ [.tested site true]) ∧
        Base κ { s with locals := { s.locals with requested := true } }
          (h ++ [.tested site true]) :=
      base_event hs rfl rfl rfl id rfl (fun _ => rfl) htrue rfl
    exact ⟨hkept.1, Or.inl ⟨rfl, hkept.2⟩⟩

/-- The loop is left, or a request would be lost. -/
theorem break_asked (site : Test) {r : Risk} (hr : ∀ cycle, r.risky cycle = true)
    (htrue : Risk.none.note (.tested site true) = .none)
    (hfalse : Risk.none.note (.tested site false) = r) :
    Triple finalTerms (Base κ) (breakIfRequested site) (Unset r κ) (Base κ) Y := by
  refine .seq (test_asked site htrue hfalse) <|
    .when (M := Base κ) (stable_asked hr) (stable_unset hr) ?_ ?_ (.brk stable_base)
  · rintro s h (⟨-, hs⟩ | ⟨hreq, -⟩) hb
    · exact hs
    · exact absurd (hreq.symm.trans hb) Bool.false_ne_true
  · rintro s h (⟨hreq, -⟩ | ⟨-, hs⟩) hb
    · exact absurd (hreq.symm.trans hb) (by decide)
    · exact hs

/-- The flag is read where nothing is assigned next. -/
theorem break_base (site : Test) (hnote : ∀ b, Risk.none.note (.tested site b) = .none) :
    Triple finalTerms (Base κ) (breakIfRequested site) (Base κ) (Base κ) Y :=
  .seq (M := Base κ) (.does stable_base fun _ _ _ hs _ =>
      base_event hs rfl rfl rfl id rfl (fun _ => rfl) (hnote _) rfl) <|
    .when (M := Base κ) stable_base stable_base (fun _ _ hs _ => hs) (fun _ _ hs _ => hs)
      (.brk stable_base)

/-- An assignment where there was no request. -/
theorem write_unset {f : State → Vars}
    (hf : ∀ s, (f s).completeRequested = s.vars.completeRequested) :
    Triple finalTerms (Unset .writing κ) (write f) (Base κ) X Y :=
  .does (stable_unset fun _ => rfl) fun s _ _ hs _ =>
    hs.event rfl rfl (hf s) (Unset.vars hs (hf s)) (Event.Harmless.final rfl) (fun _ => rfl) rfl
      hs.2.2.2.2

/-- An assignment that says nothing against completion. -/
theorem write_base {f : State → Vars}
    (hf : ∀ s, (f s).completeRequested = s.vars.completeRequested ∧
      (s.vars.Completed → (f s).Completed)) :
    Triple finalTerms (Base κ) (write f) (Base κ) X Y :=
  .does stable_base fun s _ _ hs _ =>
    base_event hs rfl rfl (hf s).1 (hf s).2 rfl (fun _ => rfl) rfl rfl

theorem wait_burning : Triple finalTerms (Unset .burning κ) (wait 0) (Unset .burning κ) X Y := by
  have hcalm : Calm finalTerms (Unset .burning κ) := calm_unset fun _ => rfl
  refine wait_zero (E := Unset .burning κ) hcalm hcalm hcalm (fun _ _ _ _ hr => hr.1.others)
    (fun _ _ hs => hs) ?_
  rintro s h hs s' rfl
  exact hs.change rfl rfl rfl (Unset.vars hs rfl) hs.2.2.2

theorem write_burning {f : State → Vars}
    (hf : ∀ s, (f s).completeRequested = s.vars.completeRequested) :
    Triple finalTerms (Unset .burning κ) (write f) (Unset .burning κ) X Y :=
  .does (stable_unset fun _ => rfl) fun s _ _ hs _ =>
    hs.event rfl rfl (hf s) (Unset.vars hs (hf s)) (Event.Harmless.final rfl) (fun _ => rfl) rfl
      ⟨(hf s).trans hs.2.2.2.1, hs.2.2.2.2⟩

/-- The next cycle count may be assigned after a request in the last cycle only. -/
def Counted : Assertion State Event := At .counting fun v l =>
  l.cycle < sequenceRepeatCount ∧
  (l.cycle + 1 < sequenceRepeatCount → v.completeRequested = false)

theorem stable_counted : Stable finalTerms Counted :=
  stable_at fun _ _ hno hp => ⟨hp.1, fun hlt => absurd hlt (of_decide_eq_false hno)⟩

theorem cycle_succ {cycle : UInt8} (hlt : cycle < sequenceRepeatCount)
    (hlast : ¬ cycle + 1 < sequenceRepeatCount) : cycle + 1 = sequenceRepeatCount := by
  have hten : sequenceRepeatCount.toNat = 10 := rfl
  have hone : (1 : UInt8).toNat = 1 := rfl
  rw [UInt8.lt_iff_toNat_lt, hten] at hlt hlast
  rw [UInt8.toNat_add] at hlast
  rw [← UInt8.toNat_inj, hten, UInt8.toNat_add]
  omega

theorem break_counted : Triple finalTerms (Base (· < sequenceRepeatCount))
    (breakIfRequested .postWait) Counted (Base (· < sequenceRepeatCount)) Y := by
  have hasked : Stable finalTerms fun s h =>
      (s.locals.requested = true ∧ Base (· < sequenceRepeatCount) s h) ∨
        (s.locals.requested = false ∧ Counted s h) := by
    rintro s h s' h' (⟨hreq, hs⟩ | ⟨hreq, hs⟩) hr
    · exact Or.inl ⟨by rw [hr.1.locals]; exact hreq, stable_base _ _ _ _ hs hr⟩
    · exact Or.inr ⟨by rw [hr.1.locals]; exact hreq, stable_counted _ _ _ _ hs hr⟩
  refine .seq (M := fun s h => (s.locals.requested = true ∧ Base (· < sequenceRepeatCount) s h) ∨
      (s.locals.requested = false ∧ Counted s h))
      ((test_asked .postWait rfl rfl).post ?_) <|
    .when (M := Base (· < sequenceRepeatCount)) hasked stable_counted ?_ ?_ (.brk stable_base)
  · rintro s h (hs | ⟨hreq, hs⟩)
    · exact Or.inl hs
    · exact Or.inr ⟨hreq, hs.1, hs.2.1, hs.2.2.1, hs.2.2.2.2, fun _ => hs.2.2.2.1⟩
  · rintro s h (⟨-, hs⟩ | ⟨hreq, -⟩) hb
    · exact hs
    · exact absurd (hreq.symm.trans hb) Bool.false_ne_true
  · rintro s h (⟨hreq, -⟩ | ⟨-, hs⟩) hb
    · exact absurd (hreq.symm.trans hb) (by decide)
    · exact hs

theorem write_counted : Triple finalTerms Counted
    (write fun s => { s.vars with cycleCount := s.locals.cycle + 1 })
    (Base (· < sequenceRepeatCount)) X Y := by
  refine .does stable_counted fun s h _ hs _ => ?_
  refine hs.event rfl rfl rfl (fun hset => ?_) (Event.Harmless.final rfl) (fun _ => rfl) rfl
    hs.2.2.2.1
  have hv := hs.1.vars hset
  refine ⟨hv.state, cycle_succ hs.2.2.2.1 fun hlt => ?_, hv.waitElapsedSec⟩
  exact absurd ((hs.2.2.2.2 hlt).symm.trans hset) Bool.false_ne_true

/-- **A cycle** undoes no request. -/
theorem cycleBody_base : Triple finalTerms (Unset .burning (· < sequenceRepeatCount)) cycleBody
    (Base (· < sequenceRepeatCount)) (Base (· < sequenceRepeatCount)) Y :=
  .seq wait_burning <| .seq (write_burning fun _ => rfl) <| .seq gpioHigh_base <|
    .seq (break_base _ fun b => by cases b <;> rfl) <| .seq save_base <|
    .seq (break_asked _ (fun _ => rfl) rfl rfl) <| .seq (write_unset fun _ => rfl) <|
    .seq (send_base _ (by decide)) <| .seq (break_base _ fun b => by cases b <;> rfl) <|
    .seq save_base <| .seq (break_asked _ (fun _ => rfl) rfl rfl) <|
    .seq (write_unset fun _ => rfl) <| .seq save_base <| .seq (wait_base _) <|
    .seq break_counted <| .seq write_counted <|
    .seq (write_base fun s => ⟨rfl, fun hv => ⟨by
      show (if s.vars.cycleCount < sequenceRepeatCount then _ else LeopState.complete) = _
      rw [hv.cycleCount, if_neg (by decide)], hv.cycleCount, hv.waitElapsedSec⟩⟩) save_base

end Cycles

/-! ## Loading -/

section Loading

variable {χ χ' : Vars → Locals → Bool → Prop} {X Y : Assertion State Event} {s s' : State}
  {h : List Event} {e : Event}

/-- While a record is loaded, or the defaults are applied. -/
def Reading (χ : Vars → Locals → Bool → Prop) : Assertion State Event := finalPact.And fun s h =>
  risk.of h = .loading ∧ s.vars.completeRequested = false ∧
  χ s.vars s.locals (past h).settled

theorem stable_reading : Stable finalTerms (Reading χ) := by
  intro s h s' h' hs hr
  obtain ⟨hrisk, hsettled, hlocals, hvars⟩ := rely_cases hr
  rcases hvars with hsame | ⟨-, hno⟩
  · refine ⟨hr.2.2, hrisk.trans hs.2.1, ?_⟩
    rw [hsame, hlocals, hsettled]
    exact hs.2.2
  · rw [hs.2.1] at hno
    exact Bool.noConfusion hno

theorem Reading.event (hs : Reading χ s h) (hmove : ProcessMove s s')
    (hreq : s'.vars.completeRequested = s.vars.completeRequested)
    (hfiles : (past h).settled = true → s'.files.disk.Complete)
    (hfinal : Final h e) (hpast : ∀ p : Past, p.note e = p) (hrisk : Risk.loading.note e = .loading)
    (hχ : χ' s'.vars s'.locals (past h).settled) :
    finalTerms.guarantee s h s' (h ++ [e]) ∧ Reading χ' s' (h ++ [e]) := by
  have hsame : past (h ++ [e]) = past h := (past_snoc h e).trans (hpast _)
  have hunset : s'.vars.completeRequested = false := hreq.trans hs.2.2.1
  have hlast : Lasting s' (h ++ [e]) := by
    refine hs.1.step (hs.1.final.snoc hfinal) hsame hreq ?_ fun hdone => ?_
    · exact fun hset => absurd (hunset.symm.trans hset) Bool.false_ne_true
    · refine hfiles (hdone.resolve_right fun hsynced => ?_)
      exact absurd ((hs.1.unsynced hs.2.2.1).symm.trans hsynced) Bool.false_ne_true
  refine ⟨⟨hmove, ⟨hreq, hsame⟩, hlast⟩, hlast, ?_, hunset, ?_⟩
  · rw [risk.of_snoc, hs.2.1]
    exact hrisk
  · rw [hsame]
    exact hχ

theorem Reading.change (hs : Reading χ s h) (hmove : ProcessMove s s')
    (hreq : s'.vars.completeRequested = s.vars.completeRequested)
    (hfiles : (past h).settled = true → s'.files.disk.Complete)
    (hχ : χ' s'.vars s'.locals (past h).settled) :
    finalTerms.guarantee s h s' h ∧ Reading χ' s' h := by
  have hunset : s'.vars.completeRequested = false := hreq.trans hs.2.2.1
  have hlast : Lasting s' h := by
    refine hs.1.step hs.1.final rfl hreq ?_ fun hdone => ?_
    · exact fun hset => absurd (hunset.symm.trans hset) Bool.false_ne_true
    · refine hfiles (hdone.resolve_right fun hsynced => ?_)
      exact absurd ((hs.1.unsynced hs.2.2.1).symm.trans hsynced) Bool.false_ne_true
  exact ⟨⟨hmove, ⟨hreq, rfl⟩, hlast⟩, hlast, hs.2.1, hunset, hχ⟩

/-- An assignment while a record is loaded. -/
theorem set_reading {f : State → State}
    (hf : ∀ s, (f s).files = s.files ∧ (f s).saving = s.saving ∧
      (f s).vars.completeRequested = s.vars.completeRequested)
    (hχ : ∀ s b, χ s.vars s.locals b → χ' (f s).vars (f s).locals b) :
    Triple finalTerms (Reading χ) (.set f) (Reading χ') X Y := by
  refine .set stable_reading fun s h hs => ?_
  obtain ⟨hfiles, hsaving, hreq⟩ := hf s
  refine hs.change (.of_same hsaving hfiles) hreq (fun hdone => ?_) (hχ s _ hs.2.2.2)
  rw [hfiles]
  exact hs.1.files (Or.inl hdone)

/-- No request has been answered with success. -/
def Unsettled : Vars → Locals → Bool → Prop := fun _ _ settled => settled = false

theorem setDefaults_reading (χ : Locals → Bool → Prop) :
    Triple finalTerms (Reading fun _ l b => χ l b) setDefaults
      (Reading fun _ l b => χ l b) X Y := by
  have hset : ∀ f : Vars → Vars, (∀ v, (f v).completeRequested = v.completeRequested) →
      Triple finalTerms (Reading fun _ l b => χ l b) (setVars f) (Reading fun _ l b => χ l b)
        X Y := fun f hf => set_reading (fun _ => ⟨rfl, rfl, hf _⟩) fun _ _ hp => hp
  exact .seq (hset _ fun _ => rfl) <| .seq (hset _ fun _ => rfl) <| .seq (hset _ fun _ => rfl) <|
    .seq (hset _ fun _ => rfl) <| .seq (hset _ fun _ => rfl) (hset _ fun _ => rfl)

/-- After a load that has not failed. -/
def AfterLoad : Assertion State Event := finalPact.And fun s h =>
  risk.of h = .none ∧ ((past h).settled = true → s.vars.state = .complete)

theorem stable_afterLoad : Stable finalTerms AfterLoad := by
  intro s h s' h' hs hr
  obtain ⟨hrisk, hsettled, -, hvars⟩ := rely_cases hr
  refine ⟨hr.2.2, hrisk.trans hs.2.1, fun hset => ?_⟩
  rcases hvars with hsame | ⟨hset', -⟩
  · rw [hsame]
    exact hs.2.2 (hsettled.symm.trans hset)
  · rw [hset']
    rfl

/-- What `MISSION_LEOP_LoadState` leaves behind. -/
def LoadedOr : Assertion State Event := fun s h =>
  (s.failed = true ∧ Reading Unsettled s h) ∨ (s.failed = false ∧ AfterLoad s h)

theorem stable_loadedOr : Stable finalTerms LoadedOr := by
  rintro s h s' h' (⟨hfail, hs⟩ | ⟨hok, hs⟩) hr
  · exact Or.inl ⟨by rw [State.failed, hr.1.locals]; exact hfail, stable_reading _ _ _ _ hs hr⟩
  · exact Or.inr ⟨by rw [State.failed, hr.1.locals]; exact hok, stable_afterLoad _ _ _ _ hs hr⟩

/-- The defaults are saved. -/
def SavedOr : Assertion State Event := fun s h =>
  (s.saveFailed .process = true ∧ Reading Unsettled s h) ∨
  (s.saveFailed .process = false ∧ AfterLoad s h)

theorem stable_savedOr : Stable finalTerms SavedOr := by
  rintro s h s' h' (⟨hfail, hs⟩ | ⟨hok, hs⟩) hr
  · exact Or.inl ⟨by rw [State.saveFailed, hr.1.saving]; exact hfail, stable_reading _ _ _ _ hs hr⟩
  · exact Or.inr ⟨by rw [State.saveFailed, hr.1.saving]; exact hok, stable_afterLoad _ _ _ _ hs hr⟩

theorem saving_load : SaveOutline finalTerms .load (Reading Unsettled) (Reading Unsettled)
    (Reading Unsettled) (finalPact.And fun s h =>
      s.saveFailed .process = false ∧ risk.of h = .none ∧ (past h).settled = false) := by
  have hother : ∀ (s : State) x, ProcessMove s { s with
      saving := Function.update s.saving .process x } :=
    fun s x => ⟨update_process s.saving x, fun _ => rfl⟩
  have hfree : ∀ (s : State) h (d : Disk), Reading Unsettled s h →
      (past h).settled = true → d.Complete := fun s h d hs hset =>
    absurd ((show (past h).settled = false from hs.2.2.2).symm.trans hset) Bool.false_ne_true
  have hmoves : ∀ s h s' es, Reading Unsettled s h → SaveStep .load s s' es →
      finalTerms.guarantee s h s' (h ++ es) ∧ Reading Unsettled s' (h ++ es) := by
    intro s h s' es hs hstep
    have hmove := hstep.processMove rfl
    obtain ⟨f, saving, rfl, -, -, hfiles⟩ := hstep
    cases hfiles with
    | stay => rw [List.append_nil]; exact hs.change hmove rfl (hfree s h _ hs) hs.2.2.2
    | work => rw [List.append_nil]; exact hs.change hmove rfl (hfree s h _ hs) hs.2.2.2
    | lock =>
      exact hs.event hmove rfl (hfree s h _ hs) (Event.Harmless.final rfl) (fun _ => rfl) rfl
        hs.2.2.2
    | rename =>
      exact hs.event hmove rfl (hfree s h _ hs) (Event.Harmless.final rfl) (fun _ => rfl) rfl
        hs.2.2.2
  exact {
    stable := stable_reading
    stable_copied := stable_reading
    stable_locked := stable_reading
    stable_synced := by
      intro s h s' h' hs hr
      obtain ⟨hrisk, hsettled, -, -⟩ := rely_cases hr
      exact ⟨hr.2.2, by rw [State.saveFailed, hr.1.saving]; exact hs.2.1, hrisk.trans hs.2.2.1,
        hsettled.trans hs.2.2.2⟩
    mine := fun _ _ _ _ hr => ⟨hr.1.saving, hr.1.files⟩
    fails := fun _ s h hs => hs.change (hother s _) rfl (hfree s h _ hs) hs.2.2.2
    copies := fun s h hs =>
      hs.event (hother s ⟨s.vars.toFile, success⟩) rfl (hfree s h _ hs) (Event.Harmless.final rfl)
        (fun _ => rfl) rfl hs.2.2.2
    lockFails := fun _ s h hs =>
      hs.event (hother s _) rfl (hfree s h _ hs) (Event.Harmless.final rfl) (fun _ => rfl) rfl
        hs.2.2.2
    locks := fun s h s' hs _ hstep => hmoves s h s' _ hs hstep
    moves := fun s h s' es hs _ hstep => hmoves s h s' es hs hstep
    syncs := by
      rintro s h hs hmine - s' rfl
      have hsame : past (h ++ [.synced .load]) = past h := past_snoc h _
      obtain ⟨hguar, hlast⟩ := hs.1.saving { s.saves .process success with
          files := { s.files with disk := { s.files.disk with stable := s.files.disk.data } } }
        (.of_mine (update_process s.saving { s.saving .process with status := success }) hmine)
        rfl hsame
        (hs.1.final.snoc (Event.Harmless.final rfl)) fun hdone =>
          ⟨(hs.1.files hdone).data, (hs.1.files hdone).data⟩
      refine ⟨hguar, hlast, saveFailed_saves .process success, ?_, ?_⟩
      · rw [risk.of_snoc]
        rfl
      · rw [hsame]
        exact hs.2.2.2
    givesUp := fun _ s h hs hmine =>
      hs.change (.of_mine rfl hmine) rfl (hfree s h _ hs) hs.2.2.2
    unlocks := fun s h hs hmine => by
      obtain ⟨hguar, hlast⟩ := hs.1.saving { s with files := { s.files with fileMutex := none } }
        (.of_mine rfl hmine) rfl rfl hs.1.final hs.1.files
      exact ⟨hguar, hlast, hs.2⟩ }

theorem applyDefaults_final (code : State → InvalidCode) :
    Triple finalTerms (Reading Unsettled) (applyDefaults code) X Y LoadedOr := by
  refine .seq (setDefaults_reading fun _ b => b = false) <|
    .seq (M := Reading Unsettled) (.does stable_reading fun s h _ hs _ => ?_) <|
    .seq (M := SavedOr) (saving_load.triple stable_savedOr ?_ ?_) <|
    .seq (M := LoadedOr) (.set stable_savedOr fun s h hs => ?_) (.ret stable_loadedOr)
  · refine hs.event (.of_same rfl rfl) rfl (fun hset => hs.1.files (Or.inl hset)) ?_ (fun _ => rfl)
      rfl hs.2.2.2
    exact ⟨fun heq => Event.noConfusion heq, fun _ _ heq => Event.noConfusion heq,
      fun _ => hs.2.2.2⟩
  · exact fun s h hs hfail _ => Or.inl ⟨hfail, hs⟩
  · refine fun s h hs => Or.inr ⟨hs.2.1, hs.1, hs.2.2.1, fun hset => ?_⟩
    exact absurd (hs.2.2.2.symm.trans hset) Bool.false_ne_true
  · rcases hs with ⟨hfail, hs⟩ | ⟨hok, hs⟩
    · have hkept : finalTerms.guarantee s h (s.returns (s.saving .process).status) h ∧
          Reading Unsettled (s.returns (s.saving .process).status) h :=
        hs.change (.of_same rfl rfl) rfl (fun hset => hs.1.files (Or.inl hset)) hs.2.2.2
      exact ⟨hkept.1, Or.inl ⟨hfail, hkept.2⟩⟩
    · have hlast : Lasting (s.returns (s.saving .process).status) h :=
        hs.1.step hs.1.final rfl rfl hs.1.vars hs.1.files
      exact ⟨⟨.of_same rfl rfl, ⟨rfl, rfl⟩, hlast⟩, Or.inr ⟨hok, hlast, hs.2⟩⟩

/-- Once a request has been answered with success the record is the last one. -/
def LastRead : Vars → Locals → Bool → Prop := fun _ l settled =>
  settled = true → l.fileData = doneFile

theorem copyFileToRuntime_final :
    Triple finalTerms (Reading LastRead) copyFileToRuntime
      (Reading fun v l settled => LastRead v l settled ∧ (settled = true → v.state = .complete))
      X Y := by
  have hset : ∀ f : Vars → Vars, (∀ v, (f v).completeRequested = v.completeRequested ∧
      (f v).state = v.state) → Triple finalTerms
      (Reading fun v l settled => LastRead v l settled ∧ (settled = true → v.state = .complete))
      (setVars f)
      (Reading fun v l settled => LastRead v l settled ∧ (settled = true → v.state = .complete))
      X Y := fun f hf => set_reading (fun _ => ⟨rfl, rfl, (hf _).1⟩)
        fun s _ hp => ⟨hp.1, fun hb => (hf s.vars).2.trans (hp.2 hb)⟩
  refine .seq (setDefaults_reading fun l settled => settled = true → l.fileData = doneFile) <|
    .seq (M := Reading LastRead) (set_reading (fun _ => ⟨rfl, rfl, rfl⟩) fun _ _ hp => hp) <|
    .seq (M := Reading fun v l settled =>
        LastRead v l settled ∧ (settled = true → v.state = .complete))
      (set_reading (fun _ => ⟨rfl, rfl, rfl⟩) fun s _ hp => ⟨hp, fun hb => ?_⟩) <|
    .seq (M := Reading fun v l settled =>
        LastRead v l settled ∧ (settled = true → v.state = .complete))
      (set_reading (fun _ => ⟨rfl, rfl, rfl⟩) fun _ _ hp => hp) <|
    .ite stable_reading (fun _ _ hs _ => hs) (fun _ _ hs _ => hs)
      (.seq (hset _ fun _ => ⟨rfl, rfl⟩) (hset _ fun _ => ⟨rfl, rfl⟩))
      (hset _ fun _ => ⟨rfl, rfl⟩)
  show (LeopState.ofByte s.locals.fileData.leopState).getD .complete = .complete
  rw [hp hb]
  rfl

/-- **Loading** gives the last record back. -/
theorem loadState_final :
    Triple finalTerms (Reading fun _ _ _ => True) loadState LoadedOr X Y := by
  have hdisk : ∀ {χ : Vars → Locals → Bool → Prop} (s : State) h, Reading χ s h →
      (past h).settled = true → s.files.disk.Complete :=
    fun s h hs hset => hs.1.files (Or.inl hset)
  have hunsettled : ∀ (s : State) h i, Reading (fun _ _ _ => True) s h → LoadsLater s h i →
      ¬ (i.status = success ∧ fileDataLayout.size ≤ i.size) → (past h).settled = false := by
    intro s h i hs hi hbad
    rcases hset : (past h).settled with _ | _
    · rfl
    · exact absurd (hi hset hs.2.1) hbad
  have houtline : LoadOutline finalTerms (Reading fun _ _ _ => True) (Reading Unsettled)
      (Reading fun _ l settled => settled = true →
        l.readSize = Int32.ofNat fileDataLayout.size ∧ l.fileData = doneFile)
      (Reading Unsettled) (Reading LastRead) LoadedOr :=
    { stableA := stable_reading
      stableE := stable_reading
      stableR := stable_reading
      stableD := stable_reading
      stableV := stable_reading
      stableQ := stable_loadedOr
      mine := fun _ _ _ _ hr => ⟨hr.1.locals, hr.1.files⟩
      locks := by
        rintro s h hs hfree s' rfl
        refine hs.event ⟨rfl, fun hother => ?_⟩ rfl (hdisk s h hs) (Event.Harmless.final rfl)
          (fun _ => rfl) rfl trivial
        exact absurd (hfree.symm.trans hother) (Option.some_ne_none _).symm
      opens := by
        rintro s h hs hmine s' rfl
        refine hs.change (.of_mine rfl hmine) rfl (fun hset => ⟨?_, (hdisk s h hs hset).stable⟩)
          trivial
        show some (s.files.disk.data.getD []) = _
        rw [(hdisk s h hs hset).data]
        rfl
      goesOn := fun s h hs => hs.change (.of_same rfl rfl) rfl (hdisk s h hs) trivial
      fails := by
        rintro s h i handle hs hi hbad hmine s' rfl
        refine hs.event ?_ rfl (hdisk s h hs) (Event.Harmless.final rfl) (fun _ => rfl) rfl
          (hunsettled s h i hs hi fun hok => hbad hok.1)
        rcases hmine with hmine | rfl
        · exact .of_mine rfl hmine
        · exact .of_same rfl rfl
      reads := fun s h i bytes hs hi hbytes => by
        refine ⟨fun hall => ?_, fun hpart => ?_⟩
        · refine hs.change (.of_same rfl rfl) rfl (hdisk s h hs) fun hset => ?_
          have hdone : bytes = fileDataLayout.bytes doneFile := by
            rw [hall, (hdisk s h hs hset).data, Option.getD_some]
            exact List.take_of_length_le (Nat.le_of_eq (fileDataLayout.length_bytes doneFile))
          rw [hdone]
          exact ⟨by rw [State.reads, fileDataLayout.length_bytes], read_bytes doneFile⟩
        · refine hs.event (.of_same rfl rfl) rfl (hdisk s h hs) (Event.Harmless.final rfl)
            (fun _ => rfl) rfl fun hset => ?_
          have hno := hunsettled s h i hs hi fun hok => hpart ?_
          · exact absurd (hno.symm.trans hset) Bool.false_ne_true
          · rw [hbytes]
            exact List.take_of_length_le (Nat.le_trans (List.length_take_le _ _) hok.2)
      readFails := fun s h i hs hi hneg => by
        refine hs.event (.of_same rfl rfl) rfl (hdisk s h hs) (Event.Harmless.final rfl)
          (fun _ => rfl) rfl fun hset => ?_
        have hok := (hi hset hs.2.1).1
        rw [hok] at hneg
        exact absurd hneg (by decide)
      leaves := by
        rintro s h handle mutex hs hmine s' rfl
        have hleft : ∀ {χ : Vars → Locals → Bool → Prop}, Reading χ s h →
            finalTerms.guarantee s h { s with
                files := { s.files with dataHandle := handle, fileMutex := mutex } } h ∧
              Reading χ { s with
                files := { s.files with dataHandle := handle, fileMutex := mutex } } h :=
          fun hs => hs.change (.of_mine rfl hmine) rfl (hdisk s h hs) hs.2.2.2
        exact ⟨hs.elim (fun he => (hleft he).1) fun hr => (hleft hr).1, fun he => (hleft he).2,
          fun hr => (hleft hr).2⟩
      quits := fun s h hs hfail => Or.inl ⟨hfail, hs⟩
      short := fun s h hs hne => by
        refine ⟨hs.1, hs.2.1, hs.2.2.1, ?_⟩
        rcases hset : (past h).settled with _ | _
        · rfl
        · exact absurd (hs.2.2.2 hset).1 hne
      invalid := fun s h hs _ hinvalid => by
        refine ⟨hs.1, hs.2.1, hs.2.2.1, ?_⟩
        rcases hset : (past h).settled with _ | _
        · rfl
        · rw [(hs.2.2.2 hset).2] at hinvalid
          exact absurd invalidCode_doneFile hinvalid
      valid := fun s h hs _ _ => ⟨hs.1, hs.2.1, hs.2.2.1, fun hset => (hs.2.2.2 hset).2⟩
      defaults := fun code _ _ => applyDefaults_final code
      copies := by
        refine .seq copyFileToRuntime_final <| .does stable_reading fun s h _ hs _ => ?_
        have hsame : past (h ++ [.loaded s.locals.fileData s.vars]) = past h := past_snoc h _
        have hfinal : Final h (.loaded s.locals.fileData s.vars) := by
          refine ⟨fun heq => Event.noConfusion heq, fun d v heq hset => ?_, fun hdef => hdef.elim⟩
          obtain ⟨rfl, -⟩ := Event.loaded.inj heq
          rw [hs.2.2.2.1 hset]
          rfl
        have hlast : Lasting (s.returns success) (h ++ [.loaded s.locals.fileData s.vars]) :=
          hs.1.step (hs.1.final.snoc hfinal) hsame rfl hs.1.vars hs.1.files
        refine ⟨⟨.of_same rfl rfl, ⟨rfl, hsame⟩, hlast⟩, Or.inr ⟨rfl, hlast, ?_, ?_⟩⟩
        · rw [risk.of_snoc]
          rfl
        · rw [hsame]
          exact hs.2.2.2.2 }
  exact houtline.triple

end Loading

/-! ## The sequence -/

section Sequence

variable {X Y : Assertion State Event} {s s' : State} {h : List Event} {e : Event}

theorem afterLoad_event (hs : AfterLoad s h) (hfiles : s'.files = s.files)
    (hsaving : s'.saving = s.saving) (hvars : s'.vars = s.vars) (he : e.Harmless = true)
    (hpast : ∀ p : Past, p.note e = p) (hrisk : Risk.none.note e = .none) :
    finalTerms.guarantee s h s' (h ++ [e]) ∧ AfterLoad s' (h ++ [e]) := by
  have hsame : past (h ++ [e]) = past h := (past_snoc h e).trans (hpast _)
  obtain ⟨hguar, hlast⟩ := hs.1.saving s' (.of_same hsaving hfiles) hvars hsame
    (hs.1.final.snoc (Event.Harmless.final he)) (hfiles.symm ▸ hs.1.files)
  refine ⟨hguar, hlast, ?_, ?_⟩
  · rw [risk.of_snoc, hs.2.1]
    exact hrisk
  · rw [hsame, hvars]
    exact hs.2.2

theorem afterLoad_change (hs : AfterLoad s h) (hfiles : s'.files = s.files)
    (hsaving : s'.saving = s.saving)
    (hreq : s'.vars.completeRequested = s.vars.completeRequested)
    (hvars : s.vars.Completed → s'.vars.Completed) (hstate : s'.vars.state = s.vars.state) :
    finalTerms.guarantee s h s' h ∧ AfterLoad s' h := by
  have hlast : Lasting s' h := hs.1.step hs.1.final rfl hreq
    (fun hset => hvars (hs.1.vars (hreq.symm.trans hset))) (hfiles.symm ▸ hs.1.files)
  exact ⟨⟨.of_same hsaving hfiles, ⟨hreq, rfl⟩, hlast⟩, hlast, hs.2.1,
    fun hset => hstate.trans (hs.2.2 hset)⟩

theorem send_afterLoad (c : Command) (hc : c ≠ .gpioHigh) :
    Triple finalTerms AfterLoad (sendCommand c) AfterLoad X Y := by
  have hissuing : (Event.issuing c).Harmless = true ∧ Risk.none.note (.issuing c) = .none := by
    cases c with
    | gpioHigh => exact absurd rfl hc
    | _ => exact ⟨rfl, rfl⟩
  exact send_const stable_afterLoad (fun _ _ _ _ hr => hr.1.locals)
    (fun s h hs => afterLoad_event hs rfl rfl rfl hissuing.1 (fun _ => rfl) hissuing.2)
    (fun s h _ hs => afterLoad_change hs rfl rfl rfl id rfl)
    fun s h _ hs => afterLoad_event hs rfl rfl rfl rfl (fun _ => rfl) rfl

/-- What comes of a load that has failed. -/
theorem recover_final : Triple finalTerms LoadedOr
    (.when State.failed (.block [
      setVars fun v => { v with errCounter := v.errCounter + 1 },
      setDefaults,
      .emit .loadFailed])) AfterLoad X Y := by
  refine .when (M := Reading Unsettled) stable_loadedOr stable_afterLoad ?_ ?_ <|
    .seq (M := Reading Unsettled) (set_reading (fun _ => ⟨rfl, rfl, rfl⟩) fun _ _ hp => hp) <|
    .seq (setDefaults_reading fun _ b => b = false) <|
    .emit stable_reading fun s h hs => ?_
  · rintro s h (⟨-, hs⟩ | ⟨hok, -⟩) hb
    · exact hs
    · exact absurd (hok.symm.trans hb) Bool.false_ne_true
  · rintro s h (⟨hfail, -⟩ | ⟨-, hs⟩) hb
    · exact absurd (hfail.symm.trans hb) (by decide)
    · exact hs
  · have hsame : past (h ++ [.loadFailed]) = past h := past_snoc h _
    have hfinal : Final h .loadFailed := ⟨fun heq => Event.noConfusion heq,
      fun _ _ heq => Event.noConfusion heq, fun _ => hs.2.2.2⟩
    obtain ⟨hguar, hlast⟩ := hs.1.saving s (.of_same rfl rfl) rfl hsame (hs.1.final.snoc hfinal)
      hs.1.files
    refine ⟨hguar, hlast, ?_, fun hset => ?_⟩
    · rw [risk.of_snoc]
      rfl
    · rw [hsame] at hset
      exact absurd (hs.2.2.2.symm.trans hset) Bool.false_ne_true

/-- The initial wait. -/
theorem initialWait_final : Triple finalTerms (Base fun _ => True)
    (.when (fun s => s.vars.state = .initialWait) (.block [
      wait initialWaitSec,
      test .initialWait,
      .when (fun s => !s.locals.requested) (.block [
        write fun s => { s.vars with state := .burn },
        saveState .process])])) (Base fun _ => True) X Y := by
  have hwriting : ∀ cycle, Risk.writing.risky cycle = true := fun _ => rfl
  refine .when (M := Base fun _ => True) stable_base stable_base (fun _ _ hs _ => hs)
    (fun _ _ hs _ => hs) <|
    .seq (wait_base _) <| .seq (test_asked .initialWait rfl rfl) <|
    .when (M := Unset .writing fun _ => True) (stable_asked hwriting) stable_base ?_ ?_
      (.seq (write_unset fun _ => rfl) save_base)
  · rintro s h (⟨hreq, -⟩ | ⟨-, hs⟩) hb
    · rw [hreq] at hb
      exact absurd hb Bool.false_ne_true
    · exact hs
  · rintro s h (⟨-, hs⟩ | ⟨hreq, -⟩) hb
    · exact hs
    · rw [hreq] at hb
      exact absurd hb.symm Bool.false_ne_true

/-- At the top of a cycle. -/
def TopOf : Assertion State Event := fun s h =>
  Asked .burning (· < sequenceRepeatCount) s h ∨
  (¬ s.locals.cycle < sequenceRepeatCount ∧ Base (fun _ => True) s h)

theorem stable_topOf : Stable finalTerms TopOf := by
  rintro s h s' h' (hs | ⟨hcycle, hs⟩) hr
  · exact Or.inl (stable_asked (fun _ => rfl) _ _ _ _ hs hr)
  · exact Or.inr ⟨by rw [hr.1.locals]; exact hcycle, stable_base _ _ _ _ hs hr⟩

theorem testCycle_final : Triple finalTerms (Base fun _ => True) testCycle TopOf X Y :=
  .when (M := Base (· < sequenceRepeatCount)) stable_base stable_topOf
    (fun _ _ hs hb => ⟨hs.1, hs.2.1, hs.2.2.1, of_decide_eq_true hb⟩)
    (fun _ _ hs hb => Or.inr ⟨of_decide_eq_false hb, hs⟩)
    ((test_asked .cycle rfl rfl).post fun _ _ => Or.inl)

/-- **The whole sequence** undoes no request. -/
theorem process_final (detumble : Bool) : Triple finalTerms (Reading fun _ _ _ => True)
    (process detumble) (fun _ _ => True) (fun _ _ => True) fun _ _ => True := by
  refine .post (Q := finalPact.And fun _ _ => True) ?_ fun _ _ _ => trivial
  have hany : Stable finalTerms (finalPact.And fun _ _ => True) :=
    Pact.stable_process fun _ _ _ _ _ _ _ _ _ => trivial
  have hset : ∀ X Y, Triple finalTerms (Base fun _ => True)
      (setVars fun v => { v with waitComplete := true }) (Base fun _ => True) X Y :=
    fun _ _ => .set stable_base fun s h hs =>
      base_change hs rfl rfl rfl (fun hv => hv.quiet _ _ _) rfl
  refine .call hany <|
    .seq loadState_final <| .seq recover_final <|
    .seq (M := AfterLoad)
      (.when (M := AfterLoad) stable_afterLoad stable_afterLoad (fun _ _ hs _ => hs)
        (fun _ _ hs _ => hs) <|
        .seq (send_afterLoad _ (by decide)) <|
        .when (M := AfterLoad) stable_afterLoad stable_afterLoad (fun _ _ hs _ => hs)
          (fun _ _ hs _ => hs) <|
          .set stable_afterLoad fun s h hs => afterLoad_change hs rfl rfl rfl
            (fun hv => ⟨hv.state, hv.cycleCount, hv.waitElapsedSec⟩) rfl) <|
    .seq (M := Base fun _ => True)
      (.when (M := AfterLoad) stable_afterLoad stable_base (fun _ _ hs _ => hs) ?_ <|
        .seq (send_afterLoad _ (by decide)) <|
        .seq (M := finalPact.And fun _ _ => True) (.emit stable_afterLoad fun s h hs => ?_)
          (.ret hany)) <|
    .seq initialWait_final <|
    .seq (M := Base fun _ => True) (.set stable_base fun s h hs =>
      hs.change rfl rfl rfl hs.1.vars trivial) <|
    .seq testCycle_final <|
    .seq (M := Base fun _ => True) (.loop (M := Unset .burning (· < sequenceRepeatCount))
      stable_topOf ?_
      (.seq cycleBody_base <| .seq (M := Base fun _ => True) (.set stable_base fun s h hs =>
        hs.change rfl rfl rfl hs.1.vars trivial) testCycle_final)
      ?_ fun _ _ hs => ⟨hs.1, hs.2.1, hs.2.2.1, trivial⟩) <|
    .seq (wait_base 0) <| .seq (hset _ _) <|
    .seq (write_base fun _ => ⟨rfl, fun hv => ⟨hv.state, rfl, hv.waitElapsedSec⟩⟩) <|
    .seq (write_base fun _ => ⟨rfl, fun hv => ⟨rfl, hv.cycleCount, hv.waitElapsedSec⟩⟩) <|
    .seq save_base <| .emit stable_base fun s h hs => ?_
  · intro s h hs hb
    refine ⟨hs.1, hs.2.1, ?_, trivial⟩
    rcases hset : (past h).settled with _ | _
    · rfl
    · exact absurd (hs.2.2 hset) (of_decide_eq_false hb)
  · obtain ⟨hguar, hlast⟩ := afterLoad_event hs rfl rfl rfl (e := .finished) rfl (fun _ => rfl) rfl
    exact ⟨hguar, hlast.1, trivial⟩
  · rintro s h ((⟨hreq, -⟩ | ⟨-, hs⟩) | ⟨hcycle, -⟩) hb
    · rw [hreq] at hb
      simp at hb
    · exact hs
    · exact absurd (of_decide_eq_true (Bool.and_eq_true_iff.1 hb).1) hcycle
  · rintro s h ((⟨-, hs⟩ | ⟨hreq, hs⟩) | ⟨-, hs⟩) hb
    · exact ⟨hs.1, hs.2.1, hs.2.2.1, trivial⟩
    · rw [hreq, decide_eq_true hs.2.2.2.2] at hb
      exact absurd hb (by decide)
    · exact hs
  · obtain ⟨hguar, hlast⟩ :=
      base_event hs rfl rfl rfl id (e := .finished) rfl (fun _ => rfl) rfl rfl
    exact ⟨hguar, hlast.1, trivial⟩

end Sequence

/-! ## Runs -/

/-- **A request is final.**  Whatever is on the disk, whichever calls fail, whatever the clock says
and whenever the power is lost: after a request has taken effect no burn begins in that boot, and
once it has been answered with success every boot loads the last state and no burn begins at all; in
every run in which no request takes effect at a moment at which it would be lost, and in which the
file can be read in the boots that follow. -/
theorem request_is_final (detumble : Bool) (disk : Disk) (xs : List (Program.Sched Task Input))
    (hxs : (leop detumble).Meets (Agreed LoadsLater Timed) (State.start disk) xs) :
    Each Final (events detumble disk xs) := by
  have hstart : Lasting (State.start disk) [] :=
    ⟨Each.nil _, fun hp => Bool.noConfusion hp, fun hp => Bool.noConfusion hp,
      fun hp => Bool.noConfusion hp, fun hp => Bool.noConfusion hp,
      fun hp => hp.elim (fun hp => Bool.noConfusion hp) fun hp => Bool.noConfusion hp⟩
  refine (Pact.run (K := finalPact) (process_final detumble) commandTask_final
    ⟨hstart, ⟨rfl, rfl, trivial⟩, trivial⟩ ?_ hxs).final
  rintro s h current s' hs rfl
  have hcut : (past h).settled = true ∨ (past h).answered = true →
      (s.files.disk.cut current).Complete := by
    intro hdone
    have hcomplete := hs.files (hdone.imp id hs.answered)
    cases current with
    | true => exact ⟨hcomplete.data, hcomplete.data⟩
    | false => exact ⟨hcomplete.stable, hcomplete.stable⟩
  refine ⟨⟨hs.final.snoc (Event.Harmless.final rfl), ?_, ?_, ?_, fun hp => Bool.noConfusion hp, ?_⟩,
    ⟨?_, rfl, trivial⟩, trivial⟩
  · rw [past_snoc]
    exact fun hp => Bool.noConfusion hp
  · rw [past_snoc]
    exact fun hp => Bool.noConfusion hp
  · rw [past_snoc]
    exact fun hp => Bool.noConfusion hp
  · rw [past_snoc]
    rintro (hset | hsynced)
    · exact hcut (Bool.or_eq_true_iff.1 hset)
    · exact Bool.noConfusion hsynced
  · rw [risk.of_snoc]
    rfl

instance (s : State) (h : List Event) (i : Input) : Decidable (Timed s h i) :=
  inferInstanceAs (Decidable (_ → _))

instance (s : State) (h : List Event) (i : Input) : Decidable (LoadsLater s h i) :=
  inferInstanceAs (Decidable (_ → _ → _))

/-- A step of the task of the commands in which every call succeeds. -/
def commandStep : Program.Sched Task Input := .step .command ⟨success, ⟨0, 0⟩, 16⟩

/-- A request after the record has been loaded, and a power loss later. -/
def requestInTime : List (Program.Sched Task Input) :=
  List.replicate 60 (stepAt 0 success) ++ List.replicate 51 commandStep ++
    List.replicate 60 (stepAt 0 success) ++
    .restart ⟨externalResourceFail, ⟨0, 0⟩, 0⟩ :: List.replicate 60 (stepAt 0 success)

theorem requestInTime_is_final : Each Final (events false burnDisk requestInTime) :=
  request_is_final false burnDisk requestInTime (Program.System.meets_of_from _ (by decide +kernel))

/-- A request between the condition of the loop and the burn. -/
def requestTooLate : List (Program.Sched Task Input) :=
  List.replicate 70 (stepAt 0 success) ++ List.replicate 51 commandStep ++
    List.replicate 37 (stepAt 0 success)

/-- The burn begins although a request has been answered with success. -/
theorem burns_after_request : ¬ ∀ detumble disk xs, Each Final (events detumble disk xs) := by
  intro hall
  have hanswered : .answered success ∈ (events false burnDisk requestTooLate).take 10 := by
    decide +kernel
  have hburn := ((hall false burnDisk requestTooLate).get 10 (by decide +kernel)).burn
    (by decide +kernel)
  have hrequested : (past ((events false burnDisk requestTooLate).take 10)).requested = true := by
    decide +kernel
  exact absurd (hrequested.symm.trans hburn.1) (by decide)

end Leop
end FlightApps
