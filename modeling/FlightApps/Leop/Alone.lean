import FlightApps.Leop.Loading

/-!
# The child task alone

Without a command nothing else touches what `MISSION_LEOP_Process` works on.  Then an assertion is
an invariant of the files and of all that has happened, with anything at all about the state
(`With`), and what holds after an assignment is that the assignment was made (`set_alone`).
-/

set_option autoImplicit false

namespace FlightApps
namespace Leop

open Program (Terms Assertion Stable Triple)

/-- An invariant of the files and the history. -/
abbrev Invariant := Files → List Event → Prop

/-- The child task keeps an invariant, and nothing comes between. -/
def alone (ok : State → List Event → Input → Prop) (I : Invariant) : Terms State Input Event where
  input := ok
  rely _ _ _ _ := False
  guarantee _ _ s' h' := I s'.files h'

/-- The invariant, and more. -/
def With (I : Invariant) (p : Assertion State Event) : Assertion State Event :=
  fun s h => I s.files h ∧ p s h

section Alone

variable {ok : State → List Event → Input → Prop} {I : Invariant} {p q X Y : Assertion State Event}

theorem stable_alone (P : Assertion State Event) : Stable (alone ok I) P :=
  fun _ _ _ _ _ hr => hr.elim

theorem set_alone {f : State → State} (hfiles : ∀ s, (f s).files = s.files) :
    Triple (alone ok I) (With I p) (.set f) (With I fun s h => ∃ s₀, p s₀ h ∧ s = f s₀) X Y := by
  refine .set (stable_alone _) fun s h hp => ?_
  have hkept : I (f s).files h := (hfiles s).symm ▸ hp.1
  exact ⟨hkept, hkept, s, hp.2, rfl⟩

/-- An assignment, with what is needed afterwards. -/
theorem assign_alone {f : State → State} (hfiles : ∀ s, (f s).files = s.files)
    (hq : ∀ s h, p s h → q (f s) h) :
    Triple (alone ok I) (With I p) (.set f) (With I q) X Y := by
  refine .set (stable_alone _) fun s h hp => ?_
  have hkept : I (f s).files h := (hfiles s).symm ▸ hp.1
  exact ⟨hkept, hkept, hq s h hp.2⟩

theorem does_alone {f : State → Input → State × List Event}
    (hkeep : ∀ s h i, I s.files h → p s h → ok s h i → I (f s i).1.files (h ++ (f s i).2)) :
    Triple (alone ok I) (With I p) (.does f) (With I fun s h =>
      ∃ s₀ h₀ i, I s₀.files h₀ ∧ p s₀ h₀ ∧ ok s₀ h₀ i ∧ s = (f s₀ i).1 ∧ h = h₀ ++ (f s₀ i).2)
      X Y := by
  refine .does (stable_alone _) fun s h i hp hi => ?_
  have hkept := hkeep s h i hp.1 hp.2 hi
  exact ⟨hkept, hkept, s, h, i, hp.1, hp.2, hi, rfl, rfl⟩

theorem emit_alone {e : Event} (hkeep : ∀ s h, I s.files h → p s h → I s.files (h ++ [e])) :
    Triple (alone ok I) (With I p) (.emit e)
      (With I fun s h => ∃ h₀, p s h₀ ∧ h = h₀ ++ [e]) X Y := by
  refine .emit (stable_alone _) fun s h hp => ?_
  have hkept := hkeep s h hp.1 hp.2
  exact ⟨hkept, hkept, h, hp.2, rfl⟩

theorem imp_alone {c : Prog} (h : Triple (alone ok I) (With I p) c (With I q) X Y)
    {q' : Assertion State Event} (hq : ∀ s h, I s.files h → q s h → q' s h) :
    Triple (alone ok I) (With I p) c (With I q') X Y :=
  h.post fun s h hp => ⟨hp.1, hq s h hp.1 hp.2⟩

/-- `MISSION_LEOP_SetDefaults`, as one assignment. -/
def Vars.defaults (v : Vars) : Vars :=
  { v with
    processStarted := false
    waitComplete := false
    waitElapsedSec := 0
    waitRemainingSec := initialWaitSec
    cycleCount := 0
    state := .initialWait }

theorem defaults_alone : Triple (alone ok I) (With I p) setDefaults
    (With I fun s h => ∃ s₀, p s₀ h ∧ s = { s₀ with vars := s₀.vars.defaults }) X Y := by
  refine .seq (set_alone fun _ => rfl) <| .seq (set_alone fun _ => rfl) <|
    .seq (set_alone fun _ => rfl) <| .seq (set_alone fun _ => rfl) <|
    .seq (set_alone fun _ => rfl) (assign_alone (fun _ => rfl) ?_)
  rintro s h ⟨_, ⟨_, ⟨_, ⟨_, ⟨s₀, hp, rfl⟩, rfl⟩, rfl⟩, rfl⟩, rfl⟩
  exact ⟨s₀, hp, rfl⟩

/-- `MISSION_LEOP_CopyFileToRuntime`, but for what it says of a wait. -/
def Vars.restored (v : Vars) (d : FileData) (complete : Bool) (remaining : UInt32) : Vars :=
  { v.defaults with
    cycleCount := d.leopCycleCount
    state := (LeopState.ofByte d.leopState).getD .complete
    waitElapsedSec := d.leopWaitElapsedSec
    waitComplete := complete
    waitRemainingSec := remaining }

theorem copy_alone : Triple (alone ok I) (With I p) copyFileToRuntime
    (With I fun s h => ∃ s₀ complete remaining, p s₀ h ∧
      s = { s₀ with vars := s₀.vars.restored s₀.locals.fileData complete remaining }) X Y := by
  refine .seq defaults_alone <| .seq (set_alone fun _ => rfl) <| .seq (set_alone fun _ => rfl) <|
    .seq (set_alone fun _ => rfl) <|
    .ite (stable_alone _) (fun _ _ hs _ => hs) (fun _ _ hs _ => hs)
      (.seq (set_alone fun _ => rfl) (assign_alone (fun _ => rfl) ?_))
      (assign_alone (fun _ => rfl) ?_)
  · rintro s h ⟨_, ⟨_, ⟨_, ⟨_, ⟨s₀, hp, rfl⟩, rfl⟩, rfl⟩, rfl⟩, rfl⟩
    exact ⟨s₀, true, 0, hp, rfl⟩
  · rintro s h ⟨_, ⟨_, ⟨_, ⟨s₀, hp, rfl⟩, rfl⟩, rfl⟩, rfl⟩
    exact ⟨s₀, _, _, hp, rfl⟩

theorem calm_alone (hquiet : ∀ s h s', p s h → Quiet s s' → p s' h) :
    Calm (alone ok I) (With I p) where
  stable := stable_alone _
  quiet s h s' hp hq := by
    have hp' := hquiet s h s' hp.2 hq
    obtain ⟨_, _, _, _, rfl⟩ := hq
    exact ⟨hp.1, hp.1, hp'⟩

end Alone

end Leop
end FlightApps
