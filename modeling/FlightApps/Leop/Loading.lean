import FlightApps.Leop.Sending

/-!
# Loading the state

`LoadOutline` is what a proof about `MISSION_LEOP_LoadState` has to say: which assertion holds while
the file is opened (`A`), when a call has failed (`E`), when the file has been read (`R`), when the
defaults are to be applied (`D`), when the record is to be copied (`V`), and in the end (`Q`).
-/

set_option autoImplicit false

namespace FlightApps
namespace Leop

open Program (Terms Assertion Stable Triple)

/-- The defaults are applied. -/
def Event.Defaults : Event → Prop
  | .refused _ => True
  | .loadFailed => True
  | _ => False

/-- What `OS_read` leaves behind when it transfers `bytes`. -/
def State.reads (s : State) (bytes : List UInt8) (size : Int32) : State :=
  { s with locals := { s.locals with fileData := fileDataLayout.read bytes, readSize := size } }

/-- How `MISSION_LEOP_LoadState` goes. -/
structure LoadOutline (T : Terms State Input Event) (A E R D V Q : Assertion State Event) :
    Prop where
  stableA : Stable T A
  stableE : Stable T E
  stableR : Stable T R
  stableD : Stable T D
  stableV : Stable T V
  stableQ : Stable T Q
  /-- The other task leaves the locals and the locked files alone. -/
  mine : ∀ s h s' h', T.rely s h s' h' → s'.locals = s.locals ∧
    (s.files.fileMutex = some .process → s'.files = s.files)
  locks : ∀ s h, A s h → s.files.fileMutex = none →
    ∀ s', s' = State.returns { s with files := { s.files with fileMutex := some .process } }
      success →
    T.guarantee s h s' (h ++ [.loading]) ∧ A s' (h ++ [.loading])
  opens : ∀ s h, A s h → s.files.fileMutex = some .process →
    ∀ s', s' = { s.returns success with
      files := { s.files with
        dataHandle := some .data
        disk := { s.files.disk with data := some (s.files.disk.data.getD []) } } } →
    T.guarantee s h s' h ∧ A s' h
  goesOn : ∀ s h, A s h →
    T.guarantee s h (s.returns success) h ∧ A (s.returns success) h
  fails : ∀ s h i handle, A s h → T.input s h i → i.status ≠ success →
    s.files.fileMutex = some .process ∨ handle = s.files.dataHandle →
    ∀ s', s' = { s.returns externalResourceFail with
      files := { s.files with dataHandle := handle } } →
    T.guarantee s h s' (h ++ [.loadError]) ∧ E s' (h ++ [.loadError])
  reads : ∀ s h i bytes, A s h → T.input s h i →
    bytes = ((s.files.disk.data.getD []).take fileDataLayout.size).take i.size →
    (bytes = (s.files.disk.data.getD []).take fileDataLayout.size →
      T.guarantee s h (s.reads bytes (Int32.ofNat bytes.length)) h ∧
      R (s.reads bytes (Int32.ofNat bytes.length)) h) ∧
    (bytes ≠ (s.files.disk.data.getD []).take fileDataLayout.size →
      T.guarantee s h (s.reads bytes (Int32.ofNat bytes.length)) (h ++ [.loadError]) ∧
      R (s.reads bytes (Int32.ofNat bytes.length)) (h ++ [.loadError]))
  readFails : ∀ s h i, A s h → T.input s h i → i.status < 0 →
    T.guarantee s h (s.reads [] i.status) (h ++ [.loadError]) ∧
    R (s.reads [] i.status) (h ++ [.loadError])
  leaves : ∀ s h handle mutex, (E s h ∨ R s h) → s.files.fileMutex = some .process →
    ∀ s', s' = { s with files := { s.files with dataHandle := handle, fileMutex := mutex } } →
    T.guarantee s h s' h ∧ (E s h → E s' h) ∧ (R s h → R s' h)
  quits : ∀ s h, E s h → s.failed = true → Q s h
  short : ∀ s h, R s h → s.locals.readSize ≠ Int32.ofNat fileDataLayout.size → D s h
  invalid : ∀ s h, R s h → s.locals.readSize = Int32.ofNat fileDataLayout.size →
    s.locals.fileData.invalidCode ≠ none → D s h
  valid : ∀ s h, R s h → s.locals.readSize = Int32.ofNat fileDataLayout.size →
    s.locals.fileData.invalidCode = none → V s h
  defaults : ∀ code X Y, Triple T D (applyDefaults code) X Y Q
  copies : Triple T V (.seq copyFileToRuntime
    (.does fun s _ => (s.returns success, [.loaded s.locals.fileData s.vars]))) Q Q Q

namespace LoadOutline

variable {T : Terms State Input Event} {A E R D V Q X Y : Assertion State Event}
  (o : LoadOutline T A E R D V Q)

include o

/-- The mutex is held. -/
def Locked (P : Assertion State Event) : Assertion State Event := fun s h =>
  P s h ∧ s.files.fileMutex = some .process

theorem stable_locked {P : Assertion State Event} (hP : Stable T P) : Stable T (Locked P) := by
  rintro s h s' h' ⟨hp, hmine⟩ hr
  rw [Locked, (o.mine s h s' h' hr).2 hmine]
  exact ⟨hP _ _ _ _ hp hr, hmine⟩

/-- The last call has succeeded, or it has failed and `Z` holds. -/
def Tries (Z P : Assertion State Event) : Assertion State Event := fun s h =>
  (s.failed = false ∧ P s h) ∨ (s.failed = true ∧ Z s h)

theorem stable_tries {Z P : Assertion State Event} (hZ : Stable T Z) (hP : Stable T P) :
    Stable T (Tries Z P) := by
  rintro s h s' h' (⟨hok, hp⟩ | ⟨hfail, hz⟩) hr
  · exact Or.inl ⟨by rw [State.failed, (o.mine s h s' h' hr).1]; exact hok, hP _ _ _ _ hp hr⟩
  · exact Or.inr ⟨by rw [State.failed, (o.mine s h s' h' hr).1]; exact hfail, hZ _ _ _ _ hz hr⟩

/-- Statements that are only reached after a failure. -/
theorem when_failed {Z P : Assertion State Event} {c : Prog} (hZ : Stable T Z) (hP : Stable T P)
    (hc : Triple T (fun s h => s.failed = true ∧ Z s h) c P X Y) :
    Triple T (Tries Z P) (.when State.failed c) P X Y := by
  refine .when (o.stable_tries hZ hP) hP ?_ ?_ hc
  · rintro s h (⟨hok, -⟩ | hfail) hb
    · rw [hok] at hb
      exact absurd hb Bool.false_ne_true
    · exact hfail
  · rintro s h (⟨-, hp⟩ | ⟨hfail, -⟩) hb
    · exact hp
    · rw [hfail] at hb
      exact absurd hb.symm Bool.false_ne_true

theorem call_lockFile : Triple T A (lockFile .process State.returns .loading [.loadError])
    (Tries E (Locked A)) X Y := by
  refine .act o.stableA fun s h i s' es ha hi heq => ?_
  by_cases hst : i.status = success
  · rw [if_neg (not_not.2 hst)] at heq
    by_cases hfree : s.files.fileMutex = none
    · rw [if_pos hfree] at heq
      obtain ⟨rfl, rfl⟩ := Prod.mk.inj (Option.some.inj heq)
      obtain ⟨hguar, hkept⟩ := o.locks s h ha hfree _ rfl
      exact ⟨hguar, Or.inl ⟨rfl, hkept, rfl⟩⟩
    · rw [if_neg hfree] at heq
      exact absurd heq (by simp)
  · rw [if_pos hst] at heq
    obtain ⟨rfl, rfl⟩ := Prod.mk.inj (Option.some.inj heq)
    obtain ⟨hguar, herror⟩ := o.fails s h i s.files.dataHandle ha hi hst (Or.inr rfl) _ rfl
    exact ⟨hguar, Or.inr ⟨rfl, herror⟩⟩

theorem call_openDataFile :
    Triple T (Locked A) openDataFile (Tries (Locked E) (Locked A)) X Y := by
  refine .does (o.stable_locked o.stableA) fun s h i ha hi => ?_
  by_cases hopen : s.files.dataHandle ≠ none
  · rw [if_pos hopen, List.append_nil]
    obtain ⟨hguar, hkept⟩ := o.goesOn s h ha.1
    exact ⟨hguar, Or.inl ⟨rfl, hkept, ha.2⟩⟩
  rw [if_neg hopen]
  by_cases hst : i.status = success
  · rw [if_pos hst, List.append_nil]
    obtain ⟨hguar, hkept⟩ := o.opens s h ha.1 ha.2 _ rfl
    exact ⟨hguar, Or.inl ⟨rfl, hkept, ha.2⟩⟩
  · rw [if_neg hst]
    obtain ⟨hguar, herror⟩ := o.fails s h i none ha.1 hi hst (Or.inl ha.2) _ rfl
    exact ⟨hguar, Or.inr ⟨rfl, herror, ha.2⟩⟩

theorem call_seekData : Triple T (Locked A) seekData (Tries (Locked E) (Locked A)) X Y := by
  refine .does (o.stable_locked o.stableA) fun s h i ha hi => ?_
  by_cases hneg : i.status < 0
  · rw [if_pos hneg]
    have hst : i.status ≠ success := by
      intro hok
      rw [hok] at hneg
      exact absurd hneg (by decide)
    obtain ⟨hguar, herror⟩ := o.fails s h i s.files.dataHandle ha.1 hi hst (Or.inr rfl) _ rfl
    exact ⟨hguar, Or.inr ⟨rfl, herror, ha.2⟩⟩
  · rw [if_neg hneg, List.append_nil]
    obtain ⟨hguar, hkept⟩ := o.goesOn s h ha.1
    exact ⟨hguar, Or.inl ⟨rfl, hkept, ha.2⟩⟩

theorem call_readData : Triple T (Locked A) readData (Locked R) X Y := by
  refine .does (o.stable_locked o.stableA) fun s h i ha hi => ?_
  by_cases hneg : i.status < 0
  · rw [if_pos hneg]
    obtain ⟨hguar, hread⟩ := o.readFails s h i ha.1 hi hneg
    exact ⟨hguar, hread, ha.2⟩
  rw [if_neg hneg]
  obtain ⟨hall, hpart⟩ := o.reads s h i _ ha.1 hi rfl
  by_cases heq : ((s.files.disk.data.getD []).take fileDataLayout.size).take i.size =
      (s.files.disk.data.getD []).take fileDataLayout.size
  · dsimp only
    rw [if_pos heq, List.append_nil]
    exact ⟨(hall heq).1, (hall heq).2, ha.2⟩
  · dsimp only
    rw [if_neg heq]
    exact ⟨(hpart heq).1, (hpart heq).2, ha.2⟩

/-- A file is closed. -/
theorem close_triple {P : Assertion State Event} (hP : Stable T P)
    (hleaves : ∀ s h s', P s h → s.files.fileMutex = some .process →
      s' = { s with files := { s.files with dataHandle := none } } →
      T.guarantee s h s' h ∧ P s' h) : Triple T (Locked P) closeFile (Locked P) X Y := by
  refine .set (o.stable_locked hP) fun s h hp => ?_
  obtain ⟨hguar, hkept⟩ := hleaves s h _ hp.1 hp.2 rfl
  exact ⟨hguar, hkept, hp.2⟩

/-- The mutex is given back after an error. -/
theorem quit_triple : Triple T (fun s h => s.failed = true ∧ Locked E s h)
    (.block [unlockFile, .ret]) X Y Q := by
  refine .seq (M := Q) (.set ?_ fun s h he => ?_) (.ret o.stableQ)
  · exact fun s h s' h' he hr =>
      ⟨by rw [State.failed, (o.mine s h s' h' hr).1]; exact he.1,
        o.stable_locked o.stableE _ _ _ _ he.2 hr⟩
  · obtain ⟨hguar, hkept, -⟩ := o.leaves s h s.files.dataHandle none (Or.inl he.2.1) he.2.2 _ rfl
    exact ⟨hguar, o.quits _ h (hkept he.2.1) he.1⟩

theorem closeQuit_triple : Triple T (fun s h => s.failed = true ∧ Locked E s h)
    (.block [closeFile, unlockFile, .ret]) X Y Q := by
  refine .seq (M := fun s h => s.failed = true ∧ Locked E s h) (.set ?_ fun s h he => ?_)
    o.quit_triple
  · exact fun s h s' h' he hr =>
      ⟨by rw [State.failed, (o.mine s h s' h' hr).1]; exact he.1,
        o.stable_locked o.stableE _ _ _ _ he.2 hr⟩
  · obtain ⟨hguar, hkept, -⟩ := o.leaves s h none s.files.fileMutex (Or.inl he.2.1) he.2.2 _ rfl
    exact ⟨hguar, he.1, hkept he.2.1, he.2.2⟩

/-- **Loading the state.** -/
theorem triple : Triple T A loadState Q X Y := by
  have hA := o.stable_locked o.stableA
  have hE := o.stable_locked o.stableE
  have hR := o.stable_locked o.stableR
  have hread : Stable T fun s h =>
      R s h ∧ s.locals.readSize = Int32.ofNat fileDataLayout.size := fun s h s' h' hr hrely =>
    ⟨o.stableR _ _ _ _ hr.1 hrely, by rw [(o.mine s h s' h' hrely).1]; exact hr.2⟩
  refine .call o.stableQ <|
    .seq o.call_lockFile <|
    .seq (M := Locked A) (o.when_failed o.stableE hA (.pre (.ret o.stableQ) ?_ ?_)) <|
    .seq o.call_openDataFile <| .seq (M := Locked A) (o.when_failed hE hA o.quit_triple) <|
    .seq o.call_seekData <| .seq (M := Locked A) (o.when_failed hE hA o.closeQuit_triple) <|
    .seq o.call_readData <|
    .seq (o.close_triple o.stableR ?_) <|
    .seq (M := R) (.set hR fun s h hr => ?_) <|
    .seq (M := fun s h => R s h ∧ s.locals.readSize = Int32.ofNat fileDataLayout.size)
      (.when (M := D) o.stableR hread (fun s h hr hb => o.short s h hr (of_decide_eq_true hb))
        (fun s h hr hb => ⟨hr, not_not.1 (of_decide_eq_false hb)⟩) (o.defaults _ _ _)) <|
    .seq (M := V) (.when (M := D) hread o.stableV
      (fun s h hr hb => o.invalid s h hr.1 hr.2 (of_decide_eq_true hb))
      (fun s h hr hb => o.valid s h hr.1 hr.2 (not_not.1 (of_decide_eq_false hb)))
      (o.defaults _ _ _)) o.copies
  · exact fun s h s' h' he hr =>
      ⟨by rw [State.failed, (o.mine s h s' h' hr).1]; exact he.1, o.stableE _ _ _ _ he.2 hr⟩
  · exact fun s h he => o.quits s h he.2 he.1
  · rintro s h s' hr hmine rfl
    obtain ⟨hguar, -, hkept⟩ := o.leaves s h none s.files.fileMutex (Or.inr hr) hmine _ rfl
    exact ⟨hguar, hkept hr⟩
  · obtain ⟨hguar, -, hkept⟩ := o.leaves s h s.files.dataHandle none (Or.inr hr.1) hr.2 _ rfl
    exact ⟨hguar, hkept hr.1⟩

end LoadOutline

end Leop
end FlightApps
