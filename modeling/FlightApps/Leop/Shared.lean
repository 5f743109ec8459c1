import FlightApps.Leop.Loading

/-!
# Both tasks

What the task of the commands does to the child task (`CommandMove`) is to declare the sequence
complete, and to save.  What the child task does to the other (`ProcessMove`) is nothing that
matters to it: each keeps its hands off the locals of the other, and off the files when the other
has locked them.  `RequestOutline` is what a proof about the task of the commands has to say.
-/

set_option autoImplicit false

namespace FlightApps
namespace Leop

open Program (Terms Assertion Stable Triple)

/-- Events of the task of the commands. -/
def Event.ofCommand : Event → Bool
  | .snapshot .request _ => true
  | .saving .request => true
  | .notSaved .request => true
  | .renamed .request => true
  | .synced .request => true
  | .requested => true
  | .answered _ => true
  | _ => false

/-- The locked section of `MISSION_LEOP_RequestComplete`. -/
def Vars.requested (v : Vars) : Vars :=
  { v with
    completeRequested := true
    processStarted := false
    waitComplete := true
    waitElapsedSec := 0
    waitRemainingSec := 0
    cycleCount := sequenceRepeatCount
    state := .complete }

/-- What the task of the commands does to the child task. -/
structure CommandMove (s : State) (h : List Event) (s' : State) (h' : List Event) : Prop where
  locals : s'.locals = s.locals
  saving : s'.saving .process = s.saving .process
  files : s.files.fileMutex = some .process → s'.files = s.files
  vars : s'.vars = s.vars ∨ s'.vars = s.vars.requested
  events : ∃ es, h' = h ++ es ∧ ∀ e ∈ es, e.ofCommand = true

/-- What the child task does to the task of the commands. -/
structure ProcessMove (s s' : State) : Prop where
  saving : s'.saving .command = s.saving .command
  files : s.files.fileMutex = some .command → s'.files = s.files

/-- Neither the files nor the locals of the other task are touched. -/
theorem ProcessMove.of_same {s s' : State} (hsaving : s'.saving = s.saving)
    (hfiles : s'.files = s.files) : ProcessMove s s' :=
  ⟨congrFun hsaving _, fun _ => hfiles⟩

/-- Every call of the child task meets a condition. -/
def ForProcess (p : State → List Event → Input → Prop) (s : State) (h : List Event) :
    Program.Sched Task Input → Prop
  | .step .process i => p s h i
  | _ => True

instance (p : State → List Event → Input → Prop) [∀ s h i, Decidable (p s h i)] (s : State)
    (h : List Event) (x : Program.Sched Task Input) : Decidable (ForProcess p s h x) :=
  match x with
  | .step .process i => inferInstanceAs (Decidable (p s h i))
  | .step .command _ => .isTrue trivial
  | .restart _ => .isTrue trivial

/-- A step of the child task at a time, with a status for the call. -/
def stepAt (sec : UInt32) (status : Status) : Program.Sched Task Input :=
  .step .process ⟨status, ⟨sec, 0⟩, 16⟩

/-- The disk after the initial wait. -/
def burnDisk : Disk :=
  have record := fileDataLayout.bytes { Vars.zero with state := .burn }.toFile
  ⟨some record, none, some record⟩

section Moves

variable {c : Caller} {s s' : State} {es : List Event}

/-- A move of the files needs the mutex. -/
theorem SaveMove.files {d : FileData} {f f' : Files} (h : SaveMove c d f f' es) {t : Task}
    (ht : t ≠ c.task) (hother : f.fileMutex = some t) : f' = f := by
  cases h with
  | stay => rfl
  | lock hfree => rw [hother] at hfree; exact absurd hfree (Option.some_ne_none t)
  | work _ _ hmine => rw [hother] at hmine; exact absurd (Option.some.inj hmine) ht
  | rename hmine => rw [hother] at hmine; exact absurd (Option.some.inj hmine) ht

theorem SaveStep.processMove (h : SaveStep c s s' es) (hc : c.task = .process) :
    ProcessMove s s' := by
  obtain ⟨f, saving, rfl, hothers, -, hmove⟩ := h
  have hne : Task.command ≠ c.task := hc ▸ by decide
  exact ⟨hothers _ hne, hmove.files hne⟩

/-- Under the mutex the child task may do what it likes with the files. -/
theorem ProcessMove.of_mine (hsaving : s'.saving .command = s.saving .command)
    (hmine : s.files.fileMutex = some .process) : ProcessMove s s' := by
  refine ⟨hsaving, fun hother => ?_⟩
  rw [hmine] at hother
  exact absurd (Option.some.inj hother) (by decide)

theorem SaveMove.ofCommand {d : FileData} {f f' : Files} (h : SaveMove .request d f f' es) :
    ∀ e ∈ es, e.ofCommand = true := by
  cases h <;> simp [Event.ofCommand]

theorem SaveStep.commandMove (h : SaveStep .request s s' es) (hist : List Event) :
    CommandMove s hist s' (hist ++ es) := by
  obtain ⟨f, saving, rfl, hothers, -, hmove⟩ := h
  exact ⟨rfl, hothers _ (by decide), hmove.files (by decide), Or.inl rfl, es, rfl,
    hmove.ofCommand⟩

theorem update_command (saving : Task → Saving) (x : Saving) :
    Function.update saving .command x .process = saving .process :=
  Function.update_of_ne (by decide) _ _

theorem update_process (saving : Task → Saving) (x : Saving) :
    Function.update saving .process x .command = saving .command :=
  Function.update_of_ne (by decide) _ _

variable {h : List Event}

theorem ofCommand_nil : ∀ e ∈ ([] : List Event), e.ofCommand = true :=
  fun _ he => absurd he List.not_mem_nil

theorem ofCommand_single {e : Event} (he : e.ofCommand = true) :
    ∀ e' ∈ [e], e'.ofCommand = true := fun _ hmem => List.mem_singleton.1 hmem ▸ he

/-- Only the locals of the function that saves are touched. -/
theorem CommandMove.of_saving (x : Saving) (hes : ∀ e ∈ es, e.ofCommand = true) :
    CommandMove s h { s with saving := Function.update s.saving .command x } (h ++ es) :=
  ⟨rfl, update_command s.saving x, fun _ => rfl, Or.inl rfl, es, rfl, hes⟩

/-- A status is kept, and nothing is shown. -/
theorem CommandMove.of_status (status : Status) :
    CommandMove s h (s.saves .command status) h := by
  have hmove : CommandMove s h (s.saves .command status) (h ++ []) := .of_saving _ ofCommand_nil
  rwa [List.append_nil] at hmove

/-- Under the mutex the task of the commands may do what it likes with the files. -/
theorem CommandMove.of_mine (x : Saving) (f : Files) (hes : ∀ e ∈ es, e.ofCommand = true)
    (hmine : s.files.fileMutex = some .command) :
    CommandMove s h { s with files := f, saving := Function.update s.saving .command x }
      (h ++ es) := by
  refine ⟨rfl, update_command s.saving x, fun hother => ?_, Or.inl rfl, es, rfl, hes⟩
  exact absurd (Option.some.inj (hother.symm.trans hmine)) (by decide)

theorem CommandMove.unlock (hmine : s.files.fileMutex = some .command) :
    CommandMove s h { s with files := { s.files with fileMutex := none } } h := by
  refine ⟨rfl, rfl, fun hother => ?_, Or.inl rfl, [], (List.append_nil h).symm, ofCommand_nil⟩
  exact absurd (Option.some.inj (hother.symm.trans hmine)) (by decide)

theorem CommandMove.request (x : Saving) :
    CommandMove s h { s with
      vars := s.vars.requested
      saving := Function.update s.saving .command x } (h ++ [.requested]) :=
  ⟨rfl, update_command s.saving x, fun _ => rfl, Or.inr rfl, _, rfl, ofCommand_single rfl⟩

/-- The command task keeps its hands off the locals and ends waits. -/
theorem CommandMove.others {h' : List Event} (hr : CommandMove s h s' h') :
    s'.locals = s.locals ∧
    (s'.vars.waitElapsedSec = s.vars.waitElapsedSec ∨ s'.vars.waitElapsedSec = 0) ∧
    (s.vars.completeRequested = true → s'.vars.completeRequested = true) ∧
    (s'.vars.waitComplete = s.vars.waitComplete ∨
      s'.vars.waitComplete = true ∧ s'.vars.completeRequested = true) := by
  refine ⟨hr.locals, ?_⟩
  rcases hr.vars with hvars | hvars
  · rw [hvars]
    exact ⟨Or.inl rfl, id, Or.inl rfl⟩
  · rw [hvars]
    exact ⟨Or.inr rfl, fun _ => rfl, Or.inr ⟨rfl, rfl⟩⟩

theorem CommandMove.answer (status : Status) : CommandMove s h s (h ++ [.answered status]) :=
  ⟨rfl, rfl, fun _ => rfl, Or.inl rfl, _, rfl, ofCommand_single rfl⟩

end Moves

/-- How the task of the commands goes: with `A` between commands, `B` after the locked section, and
`N` when the function returns. -/
structure RequestOutline (T : Terms State Input Event) (A B N : Assertion State Event) : Prop where
  stableA : Stable T A
  stableB : Stable T B
  stableN : Stable T N
  mine : ∀ s h s' h', T.rely s h s' h' → s'.saving .command = s.saving .command
  requests : ∀ s h i, A s h → T.input s h i → i.status = success →
    ∀ s', s' = { s.saves .command success with vars := s.vars.requested } →
    T.guarantee s h s' (h ++ [.requested]) ∧ B s' (h ++ [.requested])
  refuses : ∀ s h, A s h →
    T.guarantee s h (s.saves .command externalResourceFail) h ∧
    N (s.saves .command externalResourceFail) h
  saves : ∀ X Y, Triple T B (saveState .request) N X Y
  answers : ∀ s h, N s h →
    T.guarantee s h s (h ++ [.answered (s.saving .command).status]) ∧
    A s (h ++ [.answered (s.saving .command).status])

namespace RequestOutline

variable {T : Terms State Input Event} {A B N Q X Y : Assertion State Event}
  (o : RequestOutline T A B N)

include o

theorem request_triple : Triple T A requestComplete N X Y := by
  have hfailed : ∀ s h s' h', T.rely s h s' h' →
      s'.saveFailed .command = s.saveFailed .command := by
    intro s h s' h' hr
    rw [State.saveFailed, State.saveFailed, o.mine s h s' h' hr]
  refine .call o.stableN <|
    .seq (M := fun s h => (s.saveFailed .command = false ∧ B s h) ∨
        (s.saveFailed .command = true ∧ N s h)) (.does o.stableA fun s h i ha hi => ?_) <|
    .seq (M := B) (.when (M := N) ?_ o.stableB ?_ ?_ (.ret o.stableN)) (o.saves _ _)
  · by_cases hst : i.status = success
    · rw [if_pos hst]
      obtain ⟨hguar, hset⟩ := o.requests s h i ha hi hst _ rfl
      exact ⟨hguar, Or.inl ⟨saveFailed_saves .command success, hset⟩⟩
    · rw [if_neg hst, List.append_nil]
      obtain ⟨hguar, hkept⟩ := o.refuses s h ha
      exact ⟨hguar, Or.inr ⟨saveFailed_saves .command externalResourceFail, hkept⟩⟩
  · rintro s h s' h' (⟨hok, hb⟩ | ⟨hfail, hn⟩) hr
    · exact Or.inl ⟨(hfailed s h s' h' hr).trans hok, o.stableB _ _ _ _ hb hr⟩
    · exact Or.inr ⟨(hfailed s h s' h' hr).trans hfail, o.stableN _ _ _ _ hn hr⟩
  · rintro s h (⟨hok, -⟩ | ⟨-, hn⟩) hb
    · rw [hok] at hb
      exact absurd hb Bool.false_ne_true
    · exact hn
  · rintro s h (⟨-, hset⟩ | ⟨hfail, -⟩) hb
    · exact hset
    · rw [hfail] at hb
      exact absurd hb.symm Bool.false_ne_true

/-- **The task of the commands.** -/
theorem triple (hQ : ∀ s h, A s h → Q s h) : Triple T A commandTask Q X Y :=
  .loop (M := A) o.stableA (fun _ _ ha _ => ha)
    (.seq o.request_triple <| .does o.stableN fun s h _ hn _ => o.answers s h hn)
    (fun s h ha _ => hQ s h ha) hQ

end RequestOutline

end Leop
end FlightApps
