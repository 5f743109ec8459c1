import FlightApps.Leop.Process

/-!
# Saving the state

Between its copy of the runtime data and the synchronisation of the directory all that
`MISSION_LEOP_SaveState` does are a few moves of the files (`SaveMove`), most of them under the
mutex.  The data file is only ever replaced, by the bytes of the copy.

`SaveOutline` is what a proof about the function has to say about these moves: which assertion holds
before the copy, which after it, and which when the directory has been synchronised.  With that the
function can be used in one step (`SaveOutline.triple`).
-/

set_option autoImplicit false

namespace FlightApps
namespace Leop

open Program (Terms Assertion Stable Triple)

/-- What `MISSION_LEOP_SaveState` does to the files, with a record `d` to write. -/
inductive SaveMove (c : Caller) (d : FileData) : Files → Files → List Event → Prop
  | stay (f : Files) : SaveMove c d f f []
  | lock (f : Files) (hfree : f.fileMutex = none) :
      SaveMove c d f { f with fileMutex := some c.task } [.saving c]
  | work (f : Files) (handle : Option FileName) (temp : Option (List UInt8))
      (hmine : f.fileMutex = some c.task) :
      SaveMove c d f { f with dataHandle := handle, disk := { f.disk with temp := temp } } []
  | rename (f : Files) (hmine : f.fileMutex = some c.task) :
      SaveMove c d f
        { f with disk := { f.disk with data := some (fileDataLayout.bytes d), temp := none } }
        [.renamed c]

/-- The move of a state. -/
def SaveStep (c : Caller) (s s' : State) (es : List Event) : Prop :=
  ∃ f saving, s' = { s with files := f, saving := saving } ∧
    (∀ t, t ≠ c.task → saving t = s.saving t) ∧
    (saving c.task).fileData = (s.saving c.task).fileData ∧
    SaveMove c (s.saving c.task).fileData s.files f es

/-- Every call that is made where `P` holds succeeds. -/
def Sure (T : Terms State Input Event) (P : Assertion State Event) : Prop :=
  ∀ s h i, P s h → T.input s h i → i.status = success ∧ fileDataLayout.size ≤ i.size

/-- No call can fail before the copy, after it and under the mutex. -/
def AllSure (T : Terms State Input Event) (A C L : Assertion State Event) : Prop :=
  Sure T A ∧ Sure T C ∧ Sure T L

/-- How `MISSION_LEOP_SaveState` goes: with `A` before the copy, `C` after it, `L` under the mutex,
and `S` when the directory has been synchronised. -/
structure SaveOutline (T : Terms State Input Event) (c : Caller) (A C L S : Assertion State Event) :
    Prop where
  stable : Stable T A
  stable_copied : Stable T C
  stable_locked : Stable T L
  stable_synced : Stable T S
  /-- The other task leaves the locals and the locked files alone. -/
  mine : ∀ s h s' h', T.rely s h s' h' → s'.saving c.task = s.saving c.task ∧
    (s.files.fileMutex = some c.task → s'.files = s.files)
  fails : ¬ AllSure T A C L → ∀ s h, A s h →
    T.guarantee s h (s.saves c.task externalResourceFail) h ∧
    A (s.saves c.task externalResourceFail) h
  copies : ∀ s h, A s h →
    T.guarantee s h
      { s with saving := Function.update s.saving c.task ⟨s.vars.toFile, success⟩ }
      (h ++ [.snapshot c s.vars.toFile]) ∧
    C { s with saving := Function.update s.saving c.task ⟨s.vars.toFile, success⟩ }
      (h ++ [.snapshot c s.vars.toFile])
  lockFails : ¬ AllSure T A C L → ∀ s h, C s h →
    T.guarantee s h (s.saves c.task externalResourceFail) (h ++ [.notSaved c]) ∧
    A (s.saves c.task externalResourceFail) (h ++ [.notSaved c])
  locks : ∀ s h s', C s h → s'.files.fileMutex = some c.task → SaveStep c s s' [.saving c] →
    T.guarantee s h s' (h ++ [.saving c]) ∧ L s' (h ++ [.saving c])
  moves : ∀ s h s' es, L s h → s.files.fileMutex = some c.task → SaveStep c s s' es →
    T.guarantee s h s' (h ++ es) ∧ L s' (h ++ es)
  syncs : ∀ s h, L s h → s.files.fileMutex = some c.task →
    s.files.disk.data = some (fileDataLayout.bytes (s.saving c.task).fileData) →
    ∀ s', s' = { s.saves c.task success with
      files := { s.files with disk := { s.files.disk with stable := s.files.disk.data } } } →
    T.guarantee s h s' (h ++ [.synced c]) ∧ S s' (h ++ [.synced c])
  givesUp : ¬ AllSure T A C L → ∀ s h, L s h → s.files.fileMutex = some c.task →
    T.guarantee s h { s with files := { s.files with fileMutex := none } } h ∧
    A { s with files := { s.files with fileMutex := none } } h
  unlocks : ∀ s h, S s h → s.files.fileMutex = some c.task →
    T.guarantee s h { s with files := { s.files with fileMutex := none } } h ∧
    S { s with files := { s.files with fileMutex := none } } h

/-- An assertion, with what the variables say. -/
def Framed (P : Assertion State Event) (p : Vars → Prop) : Assertion State Event :=
  fun s h => P s h ∧ p s.vars

theorem not_sure_of_framed {T : Terms State Input Event} {A C L : Assertion State Event}
    {p : Vars → Prop} (hunsure : ¬ AllSure T (Framed A p) (Framed C p) (Framed L p)) :
    ¬ AllSure T A C L := fun hall => hunsure
  ⟨fun s h i ha => hall.1 s h i ha.1, fun s h i ha => hall.2.1 s h i ha.1,
    fun s h i ha => hall.2.2 s h i ha.1⟩

/-! ## The moves -/

section Moves

variable {c : Caller} {s : State}

theorem saves_saving (t : Task) (status : Status) :
    (s.saves t status).saving t = { s.saving t with status := status } := Function.update_self _ _ _

theorem saveFailed_saves (t : Task) (status : Status) :
    (s.saves t status).saveFailed t = decide (status ≠ success) := by
  rw [State.saveFailed, saves_saving]

/-- A call that succeeds has not failed. -/
theorem saves_success {t : Task} (h : (s.saves t success).saveFailed t = true) : False :=
  absurd ((saveFailed_saves t success).symm.trans h) (by decide)

theorem saves_fail {t : Task} (h : (s.saves t externalResourceFail).saveFailed t = false) : False :=
  absurd ((saveFailed_saves t externalResourceFail).symm.trans h) (by decide)

/-- A move of the files, with a new status. -/
theorem SaveStep.of_move (status : Status) {f : Files} {es : List Event}
    (h : SaveMove c (s.saving c.task).fileData s.files f es) :
    SaveStep c s { s.saves c.task status with files := f } es :=
  ⟨f, (s.saves c.task status).saving, rfl, fun _ ht => Function.update_of_ne ht _ _,
    by rw [saves_saving], h⟩

/-- A move of the files alone. -/
theorem SaveStep.of_files {f : Files} {es : List Event}
    (h : SaveMove c (s.saving c.task).fileData s.files f es) :
    SaveStep c s { s with files := f } es :=
  ⟨f, s.saving, rfl, fun _ _ => rfl, rfl, h⟩

end Moves

/-! ## Calls that may fail -/

section Tried

variable {T : Terms State Input Event} {c : Caller} {X Y : Assertion State Event}

/-- The last call has succeeded with `X`, or failed with `Y`; it is not sure to succeed then. -/
def Tried (sure : Prop) (c : Caller) (X Y : Assertion State Event) : Assertion State Event :=
  fun s h =>
    (s.saveFailed c.task = false ∧ X s h) ∨ (s.saveFailed c.task = true ∧ ¬ sure ∧ Y s h)

/-- The copy has been made, the mutex is held and the files are as `p` says. -/
def Held (c : Caller) (L : Assertion State Event) (p : Files → FileData → Prop) :
    Assertion State Event := fun s h =>
  L s h ∧ s.files.fileMutex = some c.task ∧ p s.files (s.saving c.task).fileData

/-- All of the record is in the temporary file. -/
def Written (f : Files) (d : FileData) : Prop := f.disk.temp = some (fileDataLayout.bytes d)

/-- The data file is the record. -/
def Replaced (f : Files) (d : FileData) : Prop := f.disk.data = some (fileDataLayout.bytes d)

/-- The directory is synchronised, and the mutex is still held. -/
def Synced (c : Caller) (S : Assertion State Event) : Assertion State Event := fun s h =>
  S s h ∧ s.files.fileMutex = some c.task

end Tried

namespace SaveOutline

variable {T : Terms State Input Event} {c : Caller} {A C L S X Y Q B : Assertion State Event}
  (o : SaveOutline T c A C L S)

include o

theorem stable_tried (hX : Stable T X) (hY : Stable T Y) :
    Stable T (Tried (AllSure T A C L) c X Y) := by
  rintro s h s' h' ht hr
  have hfailed : s'.saveFailed c.task = s.saveFailed c.task := by
    rw [State.saveFailed, State.saveFailed, (o.mine s h s' h' hr).1]
  rcases ht with ⟨hok, hx⟩ | ⟨hfail, hall, hy⟩
  · exact Or.inl ⟨hfailed.trans hok, hX _ _ _ _ hx hr⟩
  · exact Or.inr ⟨hfailed.trans hfail, hall, hY _ _ _ _ hy hr⟩

/-- The copy has been made and the mutex is held. -/
theorem stable_held (p : Files → FileData → Prop) : Stable T (Held c L p) := by
  rintro s h s' h' ⟨hx, hmine, hp⟩ hr
  obtain ⟨hsaving, hfiles⟩ := o.mine s h s' h' hr
  rw [Held, hfiles hmine, hsaving]
  exact ⟨o.stable_locked _ _ _ _ hx hr, hmine, hp⟩

/-- A call that succeeds or fails with a move of the files each. -/
theorem call_held {p q r : Files → FileData → Prop} {f : State → Input → State × List Event}
    (hmove : ∀ s h i, Held c L p s h → SaveStep c s (f s i).1 (f s i).2 ∧
      (f s i).1.files.fileMutex = some c.task)
    (hok : ∀ s h i, Held c L p s h → (f s i).1.saveFailed c.task = false →
      q (f s i).1.files ((f s i).1.saving c.task).fileData)
    (hfail : ∀ s h i, Held c L p s h → (f s i).1.saveFailed c.task = true →
      ¬ (i.status = success ∧ fileDataLayout.size ≤ i.size) ∧
      r (f s i).1.files ((f s i).1.saving c.task).fileData) :
    Triple T (Held c L p) (.does f) (Tried (AllSure T A C L) c (Held c L q) (Held c L r)) B Q := by
  refine .does (o.stable_held p) fun s h i hp hi => ?_
  obtain ⟨hstep, hmine⟩ := hmove s h i hp
  obtain ⟨hguar, hcopied⟩ := o.moves s h _ _ hp.1 hp.2.1 hstep
  refine ⟨hguar, ?_⟩
  rcases hst : (f s i).1.saveFailed c.task with _ | _
  · exact Or.inl ⟨hst, hcopied, hmine, hok s h i hp hst⟩
  · obtain ⟨hbad, hr⟩ := hfail s h i hp hst
    exact Or.inr ⟨hst, fun hall => hbad (hall.2.2 s h i hp.1 hi), hcopied, hmine, hr⟩

/-- After a call that failed the mutex is given back. -/
theorem giveUp_triple {q r : Files → FileData → Prop} (hQ : Stable T Q)
    (hlost : ∀ s h, A s h → s.saveFailed c.task = true → ¬ AllSure T A C L → Q s h) :
    Triple T (Tried (AllSure T A C L) c (Held c L q) (Held c L r)) (giveUp c) (Held c L q) B Q := by
  have hfailed : Stable T (Tried (AllSure T A C L) c (fun _ _ => False) (Held c L r)) :=
    o.stable_tried (fun _ _ _ _ hf _ => hf) (o.stable_held r)
  refine .when (M := Tried (AllSure T A C L) c (fun _ _ => False) (Held c L r))
    (o.stable_tried (o.stable_held q) (o.stable_held r)) (o.stable_held q) ?_ ?_
    (.seq (M := Q) (.set hfailed ?_) (.ret hQ))
  · rintro s h (⟨hok, -⟩ | hlast) hfail
    · rw [hok] at hfail
      exact absurd hfail Bool.false_ne_true
    · exact Or.inr hlast
  · rintro s h (⟨-, hx⟩ | ⟨hfail, -⟩) hok
    · exact hx
    · rw [hok] at hfail
      exact absurd hfail.symm (by decide)
  · rintro s h (⟨-, hf⟩ | ⟨hfail, hall, hcopied, hmine, -⟩)
    · exact hf.elim
    · obtain ⟨hguar, hkept⟩ := o.givesUp hall s h hcopied hmine
      exact ⟨hguar, hlost _ h hkept hfail hall⟩

theorem call_openTemp :
    Triple T (Held c L fun _ _ => True) (openTemp c)
      (Tried (AllSure T A C L) c (Held c L fun _ _ => True) (Held c L fun _ _ => True)) B Q := by
  refine o.call_held (fun s h i hp => ?_) (fun _ _ _ _ _ => trivial) fun s h i hp hfail => ?_
  · by_cases hi : i.status = success
    · rw [if_pos hi]
      exact ⟨.of_move success (.work s.files (some .temp) (some []) hp.2.1), hp.2.1⟩
    · rw [if_neg hi]
      exact ⟨.of_move externalResourceFail (.work s.files none s.files.disk.temp hp.2.1), hp.2.1⟩
  · refine ⟨fun hgood => ?_, trivial⟩
    rw [if_pos hgood.1] at hfail
    exact (saves_success hfail).elim

theorem call_writeTemp :
    Triple T (Held c L fun _ _ => True) (writeTemp c)
      (Tried (AllSure T A C L) c (Held c L Written) (Held c L fun _ _ => True)) B Q := by
  refine o.call_held (fun s h i hp => ?_) (fun s h i hp hok => ?_) fun s h i hp hfail => ?_
  · exact ⟨.of_move _ (.work s.files s.files.dataHandle _ hp.2.1), hp.2.1⟩
  · by_cases hsize : fileDataLayout.size ≤ i.size
    · show some (List.take i.size _) = some _
      rw [List.take_of_length_le]
      · rw [saves_saving]
      · rw [Layout.length_bytes]
        exact hsize
    · dsimp only at hok
      rw [if_neg hsize] at hok
      exact (saves_fail hok).elim
  · refine ⟨fun hgood => ?_, trivial⟩
    dsimp only at hfail
    rw [if_pos hgood.2, Input.outcome, if_pos hgood.1] at hfail
    exact (saves_success hfail).elim

theorem call_syncTemp :
    Triple T (Held c L Written) (syncTemp c)
      (Tried (AllSure T A C L) c (Held c L Written) (Held c L Written)) B Q := by
  have hkeeps : ∀ s h i, Held c L Written s h →
      Written (s.saves c.task (Input.outcome i)).files
        ((s.saves c.task (Input.outcome i)).saving c.task).fileData := by
    intro s h i hp
    rw [saves_saving]
    exact hp.2.2
  refine o.call_held (fun s h i hp => ⟨.of_move _ (.stay s.files), hp.2.1⟩)
    (fun s h i hp _ => hkeeps s h i hp) fun s h i hp hfail => ⟨fun hgood => ?_, hkeeps s h i hp⟩
  dsimp only at hfail
  rw [Input.outcome, if_pos hgood.1] at hfail
  exact (saves_success hfail).elim

theorem call_renameTemp :
    Triple T (Held c L Written) (renameTemp c)
      (Tried (AllSure T A C L) c (Held c L Replaced) (Held c L fun _ _ => True)) B Q := by
  refine o.call_held (fun s h i hp => ?_) (fun s h i hp hok => ?_) fun s h i hp hfail => ?_
  · by_cases hi : i.status = success
    · rw [if_pos hi]
      refine ⟨?_, hp.2.1⟩
      have hmove := SaveStep.of_move success (SaveMove.rename s.files hp.2.1)
      rw [← hp.2.2] at hmove
      exact hmove
    · rw [if_neg hi]
      exact ⟨.of_move _ (.stay s.files), hp.2.1⟩
  · by_cases hi : i.status = success
    · rw [if_pos hi]
      show s.files.disk.temp = some _
      rw [hp.2.2, saves_saving]
    · rw [if_neg hi] at hok
      exact (saves_fail hok).elim
  · refine ⟨fun hgood => ?_, trivial⟩
    rw [if_pos hgood.1] at hfail
    exact (saves_success hfail).elim

theorem stable_synced_held : Stable T (Synced c S) := by
  rintro s h s' h' ⟨hx, hmine⟩ hr
  rw [Synced, (o.mine s h s' h' hr).2 hmine]
  exact ⟨o.stable_synced _ _ _ _ hx hr, hmine⟩

theorem call_syncDirectory :
    Triple T (Held c L Replaced) (syncDirectory c)
      (Tried (AllSure T A C L) c (Synced c S) (Held c L Replaced)) B Q := by
  refine .does (o.stable_held Replaced) fun s h i hp hi => ?_
  by_cases hst : i.status = success
  · rw [if_pos hst]
    obtain ⟨hguar, hsynced⟩ := o.syncs s h hp.1 hp.2.1 hp.2.2 _ rfl
    exact ⟨hguar, Or.inl ⟨saveFailed_saves c.task success, hsynced, hp.2.1⟩⟩
  · rw [if_neg hst]
    have hstep : SaveStep c s (s.saves c.task externalResourceFail) [] :=
      .of_move externalResourceFail (.stay s.files)
    obtain ⟨hguar, hcopied⟩ := o.moves s h _ _ hp.1 hp.2.1 hstep
    refine ⟨hguar, Or.inr ⟨saveFailed_saves c.task externalResourceFail,
      fun hall => hst (hall.2.2 s h i hp.1 hi).1, hcopied, hp.2.1, ?_⟩⟩
    rw [Replaced, saves_saving]
    exact hp.2.2

/-- Copying the runtime data, under their own mutex. -/
theorem call_snapshot : Triple T A (snapshot c) (Tried (AllSure T A C L) c C A) B Q := by
  refine .does o.stable fun s h i hp hi => ?_
  by_cases hst : i.status = success
  · rw [if_pos hst]
    obtain ⟨hguar, hcopied⟩ := o.copies s h hp
    refine ⟨hguar, Or.inl ⟨?_, hcopied⟩⟩
    show decide ((Function.update s.saving c.task _ c.task).status ≠ success) = false
    rw [Function.update_self]
    rfl
  · rw [if_neg hst]
    have hunsure : ¬ AllSure T A C L := fun hall => hst (hall.1 s h i hp hi).1
    obtain ⟨hguar, hkept⟩ := o.fails hunsure s h hp
    rw [List.append_nil]
    exact ⟨hguar, Or.inr ⟨saveFailed_saves c.task externalResourceFail, hunsure, hkept⟩⟩

theorem call_lockFile :
    Triple T C (lockFile c.task (fun s status => s.saves c.task status) (.saving c) [.notSaved c])
      (Tried (AllSure T A C L) c (Held c L fun _ _ => True) A) B Q := by
  refine .act o.stable_copied fun s h i s' es hp hi heq => ?_
  by_cases hst : i.status = success
  · rw [if_neg (not_not.2 hst)] at heq
    by_cases hfree : s.files.fileMutex = none
    · rw [if_pos hfree] at heq
      obtain ⟨rfl, rfl⟩ := Prod.mk.inj (Option.some.inj heq)
      obtain ⟨hguar, hcopied⟩ := o.locks s h _ hp rfl (.of_move success (.lock s.files hfree))
      exact ⟨hguar, Or.inl ⟨saveFailed_saves (s := { s with files :=
        { s.files with fileMutex := some c.task } }) c.task success, hcopied, rfl, trivial⟩⟩
    · rw [if_neg hfree] at heq
      exact absurd heq (by simp)
  · rw [if_pos hst] at heq
    obtain ⟨rfl, rfl⟩ := Prod.mk.inj (Option.some.inj heq)
    have hunsure : ¬ AllSure T A C L := fun hall => hst (hall.2.1 s h i hp hi).1
    obtain ⟨hguar, hkept⟩ := o.lockFails hunsure s h hp
    exact ⟨hguar, Or.inr ⟨saveFailed_saves c.task externalResourceFail, hunsure, hkept⟩⟩

/-- A call that failed, before the mutex is held. -/
theorem return_triple (hX : Stable T X) (hY : Stable T Y) (hQ : Stable T Q)
    (hlost : ∀ s h, Y s h → s.saveFailed c.task = true → ¬ AllSure T A C L → Q s h) :
    Triple T (Tried (AllSure T A C L) c X Y) (.when (fun s => s.saveFailed c.task) .ret) X B Q := by
  refine .when (o.stable_tried hX hY) hX ?_ ?_ (.ret hQ)
  · rintro s h (⟨hok, -⟩ | ⟨-, hall, hy⟩) hfail
    · rw [hok] at hfail
      exact absurd hfail Bool.false_ne_true
    · exact hlost s h hy hfail hall
  · rintro s h (⟨-, hx⟩ | ⟨hfail, -⟩) hok
    · exact hx
    · rw [hok] at hfail
      exact absurd hfail.symm (by decide)

/-- The files are closed. -/
theorem close_triple {q : Files → FileData → Prop}
    (hq : ∀ f d, q f d → q { f with dataHandle := none } d) :
    Triple T (Held c L q) closeFile (Held c L q) B Q := by
  refine .set (o.stable_held q) fun s h hp => ?_
  have hmoved := o.moves s h _ _ hp.1 hp.2.1
    (.of_files (.work s.files none s.files.disk.temp hp.2.1))
  rw [List.append_nil] at hmoved
  exact ⟨hmoved.1, hmoved.2, hp.2.1, hq _ _ hp.2.2⟩

/-- A file that is still open is closed. -/
theorem closeOpen_triple :
    Triple T (Held c L fun _ _ => True)
      (.when (fun s => s.files.dataHandle ≠ none) closeFile) (Held c L fun _ _ => True) B Q :=
  .when (o.stable_held _) (o.stable_held _) (fun _ _ hp _ => hp) (fun _ _ hp _ => hp)
    (o.close_triple fun _ _ => id)

/-- A file is closed, whether the last call has failed or not. -/
theorem closeTried_triple {q r : Files → FileData → Prop}
    (hq : ∀ f d, q f d → q { f with dataHandle := none } d)
    (hr : ∀ f d, r f d → r { f with dataHandle := none } d) :
    Triple T (Tried (AllSure T A C L) c (Held c L q) (Held c L r)) closeFile
      (Tried (AllSure T A C L) c (Held c L q) (Held c L r)) B Q := by
  have hclose : ∀ (p : Files → FileData → Prop) s h, Held c L p s h →
      (∀ f d, p f d → p { f with dataHandle := none } d) →
      T.guarantee s h { s with files := { s.files with dataHandle := none } } h ∧
      Held c L p { s with files := { s.files with dataHandle := none } } h := by
    intro p s h hp hkeep
    have hmoved := o.moves s h _ _ hp.1 hp.2.1
      (.of_files (.work s.files none s.files.disk.temp hp.2.1))
    rw [List.append_nil] at hmoved
    exact ⟨hmoved.1, hmoved.2, hp.2.1, hkeep _ _ hp.2.2⟩
  refine .set (o.stable_tried (o.stable_held q) (o.stable_held r)) fun s h ht => ?_
  rcases ht with ⟨hok, hp⟩ | ⟨hfail, hall, hp⟩
  · exact ⟨(hclose q s h hp hq).1, Or.inl ⟨hok, (hclose q s h hp hq).2⟩⟩
  · exact ⟨(hclose r s h hp hr).1, Or.inr ⟨hfail, hall, (hclose r s h hp hr).2⟩⟩

/-- The mutex is given back at the end. -/
theorem unlock_triple {r : Files → FileData → Prop}
    (hlost : ∀ s h, A s h → s.saveFailed c.task = true → ¬ AllSure T A C L → Q s h)
    (hdone : ∀ s h, S s h → Q s h) :
    Triple T (Tried (AllSure T A C L) c (Synced c S) (Held c L r)) unlockFile Q B X := by
  refine .set (o.stable_tried o.stable_synced_held (o.stable_held r)) fun s h ht => ?_
  rcases ht with ⟨-, hp⟩ | ⟨hfail, hall, hp⟩
  · obtain ⟨hguar, hkept⟩ := o.unlocks s h hp.1 hp.2
    exact ⟨hguar, hdone _ h hkept⟩
  · obtain ⟨hguar, hkept⟩ := o.givesUp hall s h hp.1 hp.2.1
    exact ⟨hguar, hlost _ h hkept hfail hall⟩

/-- What is known of the variables stays known. -/
theorem frame {p : Vars → Prop} (hp : Stable T fun s _ => p s.vars) :
    SaveOutline T c (Framed A p) (Framed C p) (Framed L p) (Framed S p) where
  stable s h s' h' ha hr := ⟨o.stable s h s' h' ha.1 hr, hp s h s' h' ha.2 hr⟩
  stable_copied s h s' h' ha hr := ⟨o.stable_copied s h s' h' ha.1 hr, hp s h s' h' ha.2 hr⟩
  stable_locked s h s' h' ha hr := ⟨o.stable_locked s h s' h' ha.1 hr, hp s h s' h' ha.2 hr⟩
  stable_synced s h s' h' ha hr := ⟨o.stable_synced s h s' h' ha.1 hr, hp s h s' h' ha.2 hr⟩
  mine := o.mine
  fails hunsure s h ha := by
    obtain ⟨hguar, hkept⟩ := o.fails (not_sure_of_framed hunsure) s h ha.1
    exact ⟨hguar, hkept, ha.2⟩
  copies s h ha := ⟨(o.copies s h ha.1).1, (o.copies s h ha.1).2, ha.2⟩
  lockFails hunsure s h ha := by
    obtain ⟨hguar, hkept⟩ := o.lockFails (not_sure_of_framed hunsure) s h ha.1
    exact ⟨hguar, hkept, ha.2⟩
  locks s h s' ha hmine hstep := by
    obtain ⟨hguar, hkept⟩ := o.locks s h s' ha.1 hmine hstep
    obtain ⟨f, saving, rfl, -⟩ := hstep
    exact ⟨hguar, hkept, ha.2⟩
  moves s h s' es ha hmine hstep := by
    obtain ⟨hguar, hkept⟩ := o.moves s h s' es ha.1 hmine hstep
    obtain ⟨f, saving, rfl, -⟩ := hstep
    exact ⟨hguar, hkept, ha.2⟩
  syncs s h ha hmine hdata s' hs' := by
    obtain ⟨hguar, hsynced⟩ := o.syncs s h ha.1 hmine hdata s' hs'
    refine ⟨hguar, hsynced, ?_⟩
    rw [hs']
    exact ha.2
  givesUp hunsure s h ha hmine := by
    obtain ⟨hguar, hkept⟩ := o.givesUp (not_sure_of_framed hunsure) s h ha.1 hmine
    exact ⟨hguar, hkept, ha.2⟩
  unlocks s h ha hmine := ⟨(o.unlocks s h ha.1 hmine).1, (o.unlocks s h ha.1 hmine).2, ha.2⟩

/-- **Saving the state**: with the copy lost if a call fails, and on the disk if none does. -/
theorem triple (hQ : Stable T Q)
    (hlost : ∀ s h, A s h → s.saveFailed c.task = true → ¬ AllSure T A C L → Q s h)
    (hdone : ∀ s h, S s h → Q s h) : Triple T A (saveState c) Q X B := by
  have hheld := o.stable_held fun _ _ => True
  exact .call hQ <|
    .seq o.call_snapshot <| .seq (o.return_triple o.stable_copied o.stable hQ hlost) <|
    .seq o.call_lockFile <| .seq (o.return_triple hheld o.stable hQ hlost) <|
    .seq o.closeOpen_triple <|
    .seq o.call_openTemp <| .seq (o.giveUp_triple hQ hlost) <|
    .seq o.call_writeTemp <|
    .seq (o.closeTried_triple (fun _ _ => id) fun _ _ => id) <| .seq (o.giveUp_triple hQ hlost) <|
    .seq o.call_syncTemp <| .seq (o.giveUp_triple hQ hlost) <|
    .seq o.call_renameTemp <| .seq (o.giveUp_triple hQ hlost) <|
    .seq o.call_syncDirectory <| o.unlock_triple hlost hdone

/-- The function, where only the assertion before the copy matters afterwards. -/
theorem triple_same (h : ∀ s h, S s h → A s h) : Triple T A (saveState c) A X B :=
  o.triple o.stable (fun _ _ ha _ _ => ha) h

theorem triple_framed (h : ∀ s h, S s h → A s h) (p : Vars → Prop)
    (hp : Stable T fun s _ => p s.vars) (X Y : Assertion State Event) :
    Triple T (Framed A p) (saveState c) (Framed A p) X Y :=
  (o.frame hp).triple_same fun s hist ha => ⟨h s hist ha.1, ha.2⟩

end SaveOutline

end Leop
end FlightApps
