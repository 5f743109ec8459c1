import FlightApps.Leop.Shared

/-!
# The burn line is released

`View` is what the history says about the burn line, the current wait and the last thing the child
task has shown.  Every step of the sequence finds the line released (`Releases`), as long as every
call succeeds while `GPIO_DEP1_EN_LOW` is being issued: if one fails, `MISSION_LEOP_GpioHigh`
returns its status, which nobody reads, and the sequence goes on with the line still high.
-/

set_option autoImplicit false

namespace FlightApps
namespace Leop

open Program (Terms Assertion Stable Triple)

/-- What the history says: if the line is high and for how many delays, how many there were in the
current wait, and what the child task has shown last. -/
structure View where
  high : Bool
  burnt : Nat
  waited : Nat
  doing : Option Event

def View.init : View := ⟨false, 0, 0, none⟩

/-- What an event makes of the line. -/
def Event.turns : Event → Option Bool
  | .booted => some false
  | .sent .gpioHigh status => if status = success then some true else none
  | .sent .gpioLow status => if status = success then some false else none
  | _ => none

/-- What an event makes of the delays of the current wait. -/
def Event.counts : Event → Nat → Nat
  | .booted, _ => 0
  | .waiting _, _ => 0
  | .delayed, n => n + 1
  | _, n => n

def View.note (v : View) (e : Event) : View :=
  if e.ofCommand then v
  else {
    high := e.turns.getD v.high
    burnt := if e.turns = some true then 0 else if e = .delayed then v.burnt + 1 else v.burnt
    waited := e.counts v.waited
    doing := some e }

def view (h : List Event) : View := h.foldl View.note .init

@[simp] theorem view_snoc (h : List Event) (e : Event) : view (h ++ [e]) = (view h).note e := by
  rw [view, List.foldl_append]
  rfl

theorem view_command {h es : List Event} (hes : ∀ e ∈ es, e.ofCommand = true) :
    view (h ++ es) = view h := by
  induction es generalizing h with
  | nil => rw [List.append_nil]
  | cons e es ih =>
    rw [List.append_cons, ih fun e' he' => hes e' (List.mem_cons_of_mem e he'), view_snoc,
      View.note, if_pos (hes e List.mem_cons_self)]

/-- The steps of the sequence: saving, enabling the telemetry, the wait after the burn, the next
cycle and the end. -/
def Event.isStep : Event → Bool
  | .snapshot .load _ => true
  | .snapshot .process _ => true
  | .issuing .enableTo => true
  | .issuing .gpioHigh => true
  | .waiting sec => sec == postBurnWaitSec
  | .finished => true
  | _ => false

/-- What an event finds of the line.  `ticks` is for a clock that advances by one second with every
delay. -/
structure Releases (ticks : Prop) (pre : List Event) (e : Event) : Prop where
  high : e = .sent .gpioHigh success → (view pre).high = false
  low : e = .sent .gpioLow success → (view pre).high = true
  step : e.isStep = true → (view pre).high = false
  delay : ticks → e = .delayed → (view pre).high = true → (view pre).burnt < burnDurationSec.toNat

/-- Every call succeeds while `GPIO_DEP1_EN_LOW` is being issued. -/
def LowSucceeds (h : List Event) (i : Input) : Prop :=
  (view h).doing = some (.issuing .gpioLow) → i.status = success

/-- The clock has advanced by one second with every delay of the current wait. -/
def Ticks (s : State) (h : List Event) (i : Input) : Prop :=
  (view h).doing = some (.tested .tick false) →
    (timeSubtract i.now s.vars.startTime).seconds = UInt32.ofNat (view h).waited

/-- What the child task does. -/
def releaseTerms (ticks : Prop) : Terms State Input Event where
  input s h i := LowSucceeds h i ∧ (ticks → Ticks s h i)
  rely := CommandMove
  guarantee s _ s' h' := Each (Releases ticks) h' ∧ ProcessMove s s'

/-- Something about the locals and the history. -/
def Seen (ticks : Prop) (φ : Locals → View → Prop) : Assertion State Event := fun s h =>
  Each (Releases ticks) h ∧ φ s.locals (view h)

section Seen

variable {ticks : Prop} {φ ψ : Locals → View → Prop} {X Y : Assertion State Event} {h : List Event}

theorem releases_command {pre : List Event} {e : Event} (he : e.ofCommand = true) :
    Releases ticks pre e := by
  constructor
  · rintro rfl
    exact absurd he (by decide)
  · rintro rfl
    exact absurd he (by decide)
  · intro hstep
    have hno : e.isStep = false := by
      cases e with
      | snapshot c _ => cases c <;> first | rfl | exact Bool.noConfusion he
      | _ => first | rfl | exact Bool.noConfusion he
    rw [hno] at hstep
    exact absurd hstep Bool.false_ne_true
  · rintro - rfl
    exact absurd he (by decide)

theorem stable_seen : Stable (releaseTerms ticks) (Seen ticks φ) := by
  rintro s h s' h' ⟨hsafe, hφ⟩ hr
  obtain ⟨es, rfl, hes⟩ := hr.events
  refine ⟨hsafe.append fun pre e he => releases_command (hes e he), ?_⟩
  rw [hr.locals, view_command hes]
  exact hφ

/-- An event of the child task that has to do with neither the line nor the delays. -/
structure Event.Idle (e : Event) : Prop where
  turns : e.turns = none
  delayed : e ≠ .delayed
  counts : ∀ n, e.counts n = n
  mine : e.ofCommand = false

theorem Event.Idle.releases {pre : List Event} {e : Event} (he : e.Idle)
    (hstep : e.isStep = true → (view pre).high = false) : Releases ticks pre e := by
  refine ⟨?_, ?_, hstep, fun _ hd => absurd hd he.delayed⟩
  · rintro rfl
    exact absurd he.turns (by decide)
  · rintro rfl
    exact absurd he.turns (by decide)

theorem Event.Idle.note {e : Event} (he : e.Idle) (v : View) :
    v.note e = { v with doing := some e } := by
  have hmine : ¬ e.ofCommand = true := by rw [he.mine]; exact Bool.false_ne_true
  have hnone : ¬ (none : Option Bool) = some true := by decide
  rw [View.note, if_neg hmine, he.turns, he.counts, if_neg hnone, if_neg he.delayed]
  rfl

/-- One more event. -/
theorem Seen.event {s s' : State} {e : Event} (hs : Seen ticks φ s h) (he : Releases ticks h e)
    (hψ : ψ s'.locals ((view h).note e)) : Seen ticks ψ s' (h ++ [e]) :=
  ⟨hs.1.snoc he, by rw [view_snoc]; exact hψ⟩

/-- What the child task has shown last does not matter. -/
def Steady (φ : Locals → View → Prop) : Prop := ∀ l v doing, φ l v → φ l { v with doing := doing }

theorem Seen.idle {s s' : State} {e : Event} (hs : Seen ticks φ s h) (hφ : Steady φ)
    (he : e.Idle) (hstep : e.isStep = true → (view h).high = false)
    (hlocals : s'.locals = s.locals) : Seen ticks φ s' (h ++ [e]) := by
  refine hs.event (he.releases hstep) ?_
  rw [he.note, hlocals]
  exact hφ _ _ _ hs.2

theorem calm_seen (hφ : ∀ l v n, φ l v → φ { l with nextSaveElapsedSec := n } v) :
    Calm (releaseTerms ticks) (Seen ticks φ) where
  stable := stable_seen
  quiet := by
    rintro s h s' hs ⟨_, _, _, _, rfl⟩
    exact ⟨⟨hs.1, .of_same rfl rfl⟩, hs.1, hφ _ _ _ hs.2⟩

/-- What `MISSION_LEOP_SaveState` shows in the periodic saves of a wait, or elsewhere with the line
released. -/
theorem saving_seen (c : Caller) (hc : c ≠ .request) (hφ : Steady φ)
    (hlow : c ≠ .wait → ∀ l v, φ l v → v.high = false) :
    SaveOutline (releaseTerms ticks) c (Seen ticks φ) (Seen ticks φ) (Seen ticks φ)
      (Seen ticks φ) := by
  have htask : c.task = .process := by cases c <;> first | rfl | exact absurd rfl hc
  have hne : Task.command ≠ c.task := htask ▸ by decide
  have hidle : (∀ d, (Event.snapshot c d).Idle) ∧ (Event.saving c).Idle ∧ (Event.notSaved c).Idle ∧
      (Event.renamed c).Idle ∧ (Event.synced c).Idle := by
    cases c with
    | request => exact absurd rfl hc
    | _ => exact ⟨fun _ => ⟨rfl, by simp, fun _ => rfl, rfl⟩, ⟨rfl, by simp, fun _ => rfl, rfl⟩,
        ⟨rfl, by simp, fun _ => rfl, rfl⟩, ⟨rfl, by simp, fun _ => rfl, rfl⟩,
        ⟨rfl, by simp, fun _ => rfl, rfl⟩⟩
  obtain ⟨hsnapshot, hlock, hnot, hrename, hsync⟩ := hidle
  have hmoves : ∀ s h s' es, Seen ticks φ s h → SaveStep c s s' es →
      (releaseTerms ticks).guarantee s h s' (h ++ es) ∧ Seen ticks φ s' (h ++ es) := by
    intro s h s' es hs hstep
    have hmove := hstep.processMove htask
    obtain ⟨f, saving, rfl, -, -, hfiles⟩ := hstep
    have hkept : Seen ticks φ { s with files := f, saving := saving } (h ++ es) := by
      cases hfiles with
      | stay => rw [List.append_nil]; exact hs
      | work => rw [List.append_nil]; exact hs
      | lock => exact hs.idle hφ hlock (fun hstep => absurd hstep Bool.false_ne_true) rfl
      | rename => exact hs.idle hφ hrename (fun hstep => absurd hstep Bool.false_ne_true) rfl
    exact ⟨⟨hkept.1, hmove⟩, hkept⟩
  exact {
    stable := stable_seen
    stable_copied := stable_seen
    stable_locked := stable_seen
    stable_synced := stable_seen
    mine := fun _ _ _ _ hr => ⟨htask ▸ hr.saving, htask ▸ hr.files⟩
    fails := fun _ s h hs =>
      ⟨⟨hs.1, Function.update_of_ne hne _ _, fun _ => rfl⟩, hs⟩
    copies := fun s h hs => by
      have hcopied : Seen ticks φ { s with
          saving := Function.update s.saving c.task ⟨s.vars.toFile, success⟩ }
          (h ++ [.snapshot c s.vars.toFile]) := by
        refine hs.idle hφ (hsnapshot _) (fun hstep => ?_) rfl
        cases c with
        | wait => exact absurd hstep Bool.false_ne_true
        | _ => exact hlow (by decide) _ _ hs.2
      exact ⟨⟨hcopied.1, Function.update_of_ne hne _ _, fun _ => rfl⟩, hcopied⟩
    lockFails := fun _ s h hs => by
      have hkept : Seen ticks φ (s.saves c.task externalResourceFail) (h ++ [.notSaved c]) :=
        hs.idle hφ hnot (fun hstep => absurd hstep Bool.false_ne_true) rfl
      exact ⟨⟨hkept.1, Function.update_of_ne hne _ _, fun _ => rfl⟩, hkept⟩
    locks := fun s h s' hs _ hstep => hmoves s h s' _ hs hstep
    moves := fun s h s' es hs _ hstep => hmoves s h s' es hs hstep
    syncs := by
      rintro s h hs hmine - s' rfl
      have hkept : Seen ticks φ { s.saves c.task success with
          files := { s.files with disk := { s.files.disk with stable := s.files.disk.data } } }
          (h ++ [.synced c]) :=
        hs.idle hφ hsync (fun hstep => absurd hstep Bool.false_ne_true) rfl
      exact ⟨⟨hkept.1, .of_mine (Function.update_of_ne hne _ _) (htask ▸ hmine)⟩, hkept⟩
    givesUp := fun _ s h hs hmine => ⟨⟨hs.1, .of_mine rfl (htask ▸ hmine)⟩, hs⟩
    unlocks := fun s h hs hmine => ⟨⟨hs.1, .of_mine rfl (htask ▸ hmine)⟩, hs⟩ }

theorem set_seen {f : State → State} (hfiles : ∀ s, (f s).files = s.files)
    (hsaving : ∀ s, (f s).saving = s.saving) (hφ : ∀ s v, φ s.locals v → ψ (f s).locals v) :
    Triple (releaseTerms ticks) (Seen ticks φ) (.set f) (Seen ticks ψ) X Y :=
  .set stable_seen fun s _ hs =>
    ⟨⟨hs.1, .of_same (hsaving s) (hfiles s)⟩, hs.1, hφ s _ hs.2⟩

/-- Events of the child task that change neither the files nor the locals of the other. -/
theorem Seen.guarantee {s s' : State} {h' : List Event} (hs : Seen ticks ψ s' h')
    (hfiles : s'.files = s.files) (hsaving : s'.saving = s.saving) :
    (releaseTerms ticks).guarantee s h s' h' ∧ Seen ticks ψ s' h' :=
  ⟨⟨hs.1, .of_same hsaving hfiles⟩, hs⟩

end Seen

/-! ## The line is released -/

section Released

variable {ticks : Prop} {X Y : Assertion State Event}

/-- The line is released. -/
def Low : Locals → View → Prop := fun _ v => v.high = false

theorem low_steady : Steady Low := fun _ _ _ hlow => hlow

theorem idle_step {ticks : Prop} {s s' : State} {h : List Event} {e : Event}
    (hs : Seen ticks Low s h) (he : e.Idle) : Seen ticks Low s' (h ++ [e]) := by
  refine hs.event (he.releases fun _ => hs.2) ?_
  rw [he.note]
  exact hs.2

theorem save_low (c : Caller) (hc : c ≠ .request) :
    SaveOutline (releaseTerms ticks) c (Seen ticks Low) (Seen ticks Low) (Seen ticks Low)
      (Seen ticks Low) :=
  saving_seen c hc low_steady fun _ _ _ hlow => hlow

theorem delayed_low {s s' : State} {h : List Event} (hs : Seen ticks Low s h) :
    Seen ticks Low s' (h ++ [.delayed]) := by
  refine hs.event ⟨fun heq => Event.noConfusion heq, fun heq => Event.noConfusion heq,
    fun hstep => absurd hstep Bool.false_ne_true, fun _ _ hhigh => ?_⟩ hs.2
  rw [show (view h).high = false from hs.2] at hhigh
  exact absurd hhigh Bool.false_ne_true

theorem tested_idle (site : Test) (b : Bool) : (Event.tested site b).Idle :=
  ⟨rfl, by simp, fun _ => rfl, rfl⟩

theorem wrote_idle : Event.wrote.Idle := ⟨rfl, by simp, fun _ => rfl, rfl⟩

/-- **Waiting** with the line released. -/
theorem wait_low (w : UInt32) :
    Triple (releaseTerms ticks) (Seen ticks Low) (wait w) (Seen ticks Low) X Y := by
  refine wait_const w (calm_seen fun _ _ _ hlow => hlow) (fun _ _ _ _ hr => hr.others) ?_ ?_
    (save_low .wait (by decide))
  · rintro s h s' hs ⟨_, _, _, _, _, -, rfl⟩
    exact Seen.guarantee hs rfl rfl
  · rintro s h s' e hs ⟨_, _, _, _, _, -, rfl⟩ he
    refine Seen.guarantee ?_ rfl rfl
    cases he with
    | top b => exact idle_step hs (tested_idle _ b)
    | waiting =>
      exact hs.event ⟨fun heq => Event.noConfusion heq, fun heq => Event.noConfusion heq,
        fun _ => hs.2, fun _ heq => Event.noConfusion heq⟩ hs.2
    | delayed => exact delayed_low hs
    | tick b => exact idle_step hs (tested_idle _ b)
    | wrote => exact idle_step hs wrote_idle

/-- A command other than those for the line. -/
theorem send_low (c : Command) (hhigh : c ≠ .gpioHigh) (hlow : c ≠ .gpioLow) :
    Triple (releaseTerms ticks) (Seen ticks Low) (sendCommand c) (Seen ticks Low) X Y := by
  have hsent : ∀ status, (Event.sent c status).Idle := by
    intro status
    cases c with
    | gpioHigh => exact absurd rfl hhigh
    | gpioLow => exact absurd rfl hlow
    | _ => exact ⟨rfl, by simp, fun _ => rfl, rfl⟩
  have hissuing : (Event.issuing c).Idle := ⟨rfl, by simp, fun _ => rfl, rfl⟩
  exact send_const stable_seen (fun _ _ _ _ hr => hr.locals)
    (fun s h hs => (idle_step hs hissuing).guarantee rfl rfl)
    (fun s h _ hs => Seen.guarantee hs rfl rfl)
    fun s h status hs => (idle_step hs (hsent status)).guarantee rfl rfl

/-- The defaults, and a record. -/
theorem setDefaults_low :
    Triple (releaseTerms ticks) (Seen ticks Low) setDefaults (Seen ticks Low) X Y := by
  have hset : ∀ f : Vars → Vars, Triple (releaseTerms ticks) (Seen ticks Low) (setVars f)
      (Seen ticks Low) X Y := fun f => set_seen (fun _ => rfl) (fun _ => rfl) fun _ _ => id
  exact .seq (hset _) <| .seq (hset _) <| .seq (hset _) <| .seq (hset _) <| .seq (hset _) (hset _)

theorem set_low {f : State → State} (hfiles : ∀ s, (f s).files = s.files)
    (hsaving : ∀ s, (f s).saving = s.saving) :
    Triple (releaseTerms ticks) (Seen ticks Low) (.set f) (Seen ticks Low) X Y :=
  set_seen hfiles hsaving fun _ _ => id

theorem copyFileToRuntime_low :
    Triple (releaseTerms ticks) (Seen ticks Low) copyFileToRuntime (Seen ticks Low) X Y := by
  have hset : ∀ f : State → Vars, Triple (releaseTerms ticks) (Seen ticks Low)
      (.set fun s => { s with vars := f s }) (Seen ticks Low) X Y :=
    fun f => set_low (fun _ => rfl) fun _ => rfl
  exact .seq setDefaults_low <| .seq (hset _) <| .seq (hset _) <| .seq (hset _) <|
    .ite stable_seen (fun _ _ hs _ => hs) (fun _ _ hs _ => hs) (.seq (hset _) (hset _)) (hset _)

/-- What the child task shows, with nothing but an event that has to do with neither. -/
theorem does_low {f : State → Input → State × List Event} {e : State → Event}
    (hf : ∀ s i, (f s i).1.files = s.files ∧ (f s i).1.saving = s.saving ∧ (f s i).2 = [e s])
    (he : ∀ s, (e s).Idle) :
    Triple (releaseTerms ticks) (Seen ticks Low) (.does f) (Seen ticks Low) X Y := by
  refine .does stable_seen fun s h i hs _ => ?_
  obtain ⟨hfiles, hsaving, heq⟩ := hf s i
  rw [heq]
  exact (idle_step hs (he s)).guarantee hfiles hsaving

theorem saveState_low (c : Caller) (hc : c ≠ .request) :
    Triple (releaseTerms ticks) (Seen ticks Low) (saveState c) (Seen ticks Low) X Y :=
  (save_low c hc).triple_same fun _ _ hs => hs

theorem applyDefaults_low (code : State → InvalidCode) :
    Triple (releaseTerms ticks) (Seen ticks Low) (applyDefaults code) X Y (Seen ticks Low) :=
  .seq setDefaults_low <|
    .seq (does_low (e := fun s => .refused (code s)) (fun _ _ => ⟨rfl, rfl, rfl⟩)
      fun _ => ⟨rfl, by simp, fun _ => rfl, rfl⟩) <|
    .seq (saveState_low .load (by decide)) <|
    .seq (set_low (fun _ => rfl) fun _ => rfl) (.ret stable_seen)

theorem loadState_low :
    Triple (releaseTerms ticks) (Seen ticks Low) loadState (Seen ticks Low) X Y := by
  have herror : Event.loadError.Idle := ⟨rfl, by simp, fun _ => rfl, rfl⟩
  have hloading : Event.loading.Idle := ⟨rfl, by simp, fun _ => rfl, rfl⟩
  have houtline : LoadOutline (releaseTerms ticks) (Seen ticks Low) (Seen ticks Low)
      (Seen ticks Low) (Seen ticks Low) (Seen ticks Low) (Seen ticks Low) :=
    { stableA := stable_seen
      stableE := stable_seen
      stableR := stable_seen
      stableD := stable_seen
      stableV := stable_seen
      stableQ := stable_seen
      mine := fun _ _ _ _ hr => ⟨hr.locals, hr.files⟩
      locks := by
        rintro s h hs hfree s' rfl
        have hlocked : Seen ticks Low (State.returns { s with
            files := { s.files with fileMutex := some .process } } success) (h ++ [.loading]) :=
          idle_step hs hloading
        refine ⟨⟨hlocked.1, rfl, fun hother => ?_⟩, hlocked⟩
        rw [hfree] at hother
        exact absurd hother (Option.some_ne_none _).symm
      opens := by
        rintro s h hs hmine s' rfl
        exact ⟨⟨hs.1, .of_mine rfl hmine⟩, hs⟩
      goesOn := fun s h hs => Seen.guarantee hs rfl rfl
      fails := by
        rintro s h i handle hs - - hmine s' rfl
        have hkept : Seen ticks Low { s.returns externalResourceFail with
            files := { s.files with dataHandle := handle } } (h ++ [.loadError]) :=
          idle_step hs herror
        refine ⟨⟨hkept.1, ?_⟩, hkept⟩
        rcases hmine with hmine | rfl
        · exact .of_mine rfl hmine
        · exact .of_same rfl rfl
      reads := fun s h i bytes hs _ _ => by
        refine ⟨fun _ => Seen.guarantee hs rfl rfl, fun _ => ?_⟩
        have hread : Seen ticks Low (s.reads bytes (Int32.ofNat bytes.length))
            (h ++ [.loadError]) := idle_step hs herror
        exact hread.guarantee rfl rfl
      readFails := fun s h i hs _ _ => by
        have hread : Seen ticks Low (s.reads [] i.status) (h ++ [.loadError]) :=
          idle_step hs herror
        exact hread.guarantee rfl rfl
      leaves := by
        rintro s h handle mutex hs hmine s' rfl
        have hseen : Seen ticks Low s h := hs.elim id id
        exact ⟨⟨hseen.1, .of_mine rfl hmine⟩, id, id⟩
      quits := fun _ _ hs _ => hs
      short := fun _ _ hs _ => hs
      invalid := fun _ _ hs _ _ => hs
      valid := fun _ _ hs _ _ => hs
      defaults := fun code _ _ => applyDefaults_low code
      copies := .seq copyFileToRuntime_low
        (does_low (e := fun s => .loaded s.locals.fileData s.vars) (fun _ _ => ⟨rfl, rfl, rfl⟩)
          fun _ => ⟨rfl, by simp, fun _ => rfl, rfl⟩) }
  exact houtline.triple

end Released

/-! ## The burn -/

section Burn

variable {ticks : Prop} {X Y : Assertion State Event}

/-- The line is high. -/
def High : Locals → View → Prop := fun _ v => v.high = true

/-- After the command that raises the line. -/
def Raised : Locals → View → Prop := fun l v =>
  (l.status = success → v.high = true ∧ v.burnt = 0) ∧ (l.status ≠ success → v.high = false)

/-- In the wait, after at most `n` seconds of a clock that ticks. -/
structure Burning (ticks : Prop) (n : Nat) (l : Locals) (v : View) : Prop where
  high : v.high = true
  burnt : v.burnt = v.waited
  saved : l.savedElapsedSec < burnDurationSec
  time : ticks → l.savedElapsedSec.toNat + v.waited ≤ n

theorem burning_steady {n : Nat} : Steady (Burning ticks n) :=
  fun _ _ _ hb => ⟨hb.high, hb.burnt, hb.saved, hb.time⟩

theorem sendHigh_raised : Triple (releaseTerms ticks) (Seen ticks Low) (sendCommand .gpioHigh)
    (Seen ticks Raised) X Y := by
  have hissuing : (Event.issuing .gpioHigh).Idle := ⟨rfl, by simp, fun _ => rfl, rfl⟩
  have hfails : ∀ s h status, Seen ticks Low s h → status ≠ success →
      Raised (s.returns status).locals (view h) :=
    fun s h status hs hne => ⟨fun heq => absurd heq hne, fun _ => hs.2⟩
  have houtline : SendOutline (releaseTerms ticks) .gpioHigh (Seen ticks Low) (Seen ticks Low)
      (Seen ticks Raised) :=
    { stable := stable_seen
      stable_issuing := stable_seen
      stable_sent := stable_seen
      others := fun _ _ _ _ hr => hr.locals
      issues := fun s h hs => (idle_step hs hissuing).guarantee rfl rfl
      goesOn := fun s h i hs _ _ => Seen.guarantee hs rfl rfl
      fails := fun s h i hs _ hne => by
        have hfailed : Seen ticks Raised (s.returns i.status) h := ⟨hs.1, hfails s h _ hs hne⟩
        exact hfailed.guarantee rfl rfl
      sends := fun s h i hs _ => by
        have hfinds : Releases ticks h (.sent .gpioHigh i.status) :=
          ⟨fun _ => hs.2, fun heq => absurd (Event.sent.inj heq).1 (by decide),
            fun hstep => absurd hstep Bool.false_ne_true, fun _ heq => Event.noConfusion heq⟩
        have hsent : Seen ticks Raised (s.returns i.status) (h ++ [.sent .gpioHigh i.status]) := by
          refine hs.event hfinds ?_
          by_cases hst : i.status = success
          · rw [hst]
            exact ⟨fun _ => ⟨rfl, rfl⟩, fun hne => absurd rfl hne⟩
          · refine ⟨fun heq => absurd heq hst, fun _ => ?_⟩
            have hturns : (Event.sent .gpioHigh i.status).turns = none := if_neg hst
            show (Event.turns (.sent .gpioHigh i.status)).getD (view h).high = false
            rw [hturns]
            exact hs.2
        exact hsent.guarantee rfl rfl }
  exact houtline.triple

/-- The line is released, if no call fails. -/
theorem sendLow_low : Triple (releaseTerms ticks) (Seen ticks High) (sendCommand .gpioLow)
    (Seen ticks Low) X Y := by
  have houtline : SendOutline (releaseTerms ticks) .gpioLow (Seen ticks High)
      (Seen ticks fun _ v => v.high = true ∧ v.doing = some (.issuing .gpioLow))
      (Seen ticks Low) :=
    { stable := stable_seen
      stable_issuing := stable_seen
      stable_sent := stable_seen
      others := fun _ _ _ _ hr => hr.locals
      issues := fun s h hs => by
        have hfinds : Releases ticks h (.issuing .gpioLow) :=
          ⟨fun heq => Event.noConfusion heq, fun heq => Event.noConfusion heq,
            fun hstep => absurd hstep Bool.false_ne_true, fun _ heq => Event.noConfusion heq⟩
        exact Seen.guarantee (hs.event hfinds ⟨hs.2, rfl⟩) rfl rfl
      goesOn := fun s h i hs _ _ => Seen.guarantee hs rfl rfl
      fails := fun s h i hs hi hne => absurd (hi.1 hs.2.2) hne
      sends := fun s h i hs hi => by
        have hst : i.status = success := hi.1 hs.2.2
        rw [hst]
        have hfinds : Releases ticks h (.sent .gpioLow success) :=
          ⟨fun heq => absurd (Event.sent.inj heq).1 (by decide), fun _ => hs.2.1,
            fun hstep => absurd hstep Bool.false_ne_true, fun _ heq => Event.noConfusion heq⟩
        have hlow : Seen ticks Low (s.returns success) (h ++ [.sent .gpioLow success]) :=
          hs.event hfinds rfl
        exact hlow.guarantee rfl rfl }
  exact houtline.triple

/-- An event of the burn that has to do with neither the line nor the delays. -/
theorem burning_step {n : Nat} {s s' : State} {h : List Event} {e : Event}
    (hs : Seen ticks (Burning ticks n) s h) (he : e.Idle) (hstep : e.isStep = false)
    (hlocals : s'.locals.savedElapsedSec = s.locals.savedElapsedSec) :
    Seen ticks (Burning ticks n) s' (h ++ [e]) := by
  refine hs.event (he.releases fun h => absurd (hstep.symm.trans h) Bool.false_ne_true) ?_
  rw [he.note]
  exact ⟨hs.2.high, hs.2.burnt, hlocals ▸ hs.2.saved, hlocals ▸ hs.2.time⟩

theorem delayed_burning {s : State} {h : List Event} (hs : Seen ticks (Burning ticks 89) s h) :
    Seen ticks (Burning ticks 90) s (h ++ [.delayed]) := by
  have hburnt : ticks → (view h).burnt < burnDurationSec.toNat := by
    intro ht
    have htime := hs.2.time ht
    have hninety : burnDurationSec.toNat = 90 := rfl
    rw [hs.2.burnt]
    omega
  refine hs.event ⟨fun heq => Event.noConfusion heq, fun heq => Event.noConfusion heq,
    fun hstep => absurd hstep Bool.false_ne_true, fun ht _ _ => hburnt ht⟩
    ⟨hs.2.high, congrArg (· + 1) hs.2.burnt, hs.2.saved, fun ht => ?_⟩
  have htime := hs.2.time ht
  show _ + ((view h).waited + 1) ≤ 90
  omega

/-- The flag was found unset, or the time has been computed since. -/
def Ticked (ticks : Prop) : Locals → View → Prop := fun l v =>
  Burning ticks 90 l v ∧ (ticks → l.totalElapsedSec.toNat = l.savedElapsedSec.toNat + v.waited)

theorem save_burning : SaveOutline (releaseTerms ticks) .wait (Seen ticks (Burning ticks 89))
    (Seen ticks (Burning ticks 89)) (Seen ticks (Burning ticks 89))
    (Seen ticks (Burning ticks 89)) :=
  saving_seen .wait (by decide) burning_steady fun hne => absurd rfl hne

theorem save_high : SaveOutline (releaseTerms ticks) .wait (Seen ticks High) (Seen ticks High)
    (Seen ticks High) (Seen ticks High) :=
  saving_seen .wait (by decide) (fun _ _ _ hh => hh) fun hne => absurd rfl hne

theorem high_step {s s' : State} {h : List Event} {e : Event} (hs : Seen ticks High s h)
    (he : e.Idle) (hstep : e.isStep = false) : Seen ticks High s' (h ++ [e]) := by
  refine hs.event (he.releases fun h => absurd (hstep.symm.trans h) Bool.false_ne_true) ?_
  rw [he.note]
  exact hs.2

/-- **The burn** lasts no longer than it should. -/
theorem wait_burn : Triple (releaseTerms ticks)
    (Seen ticks fun _ v => v.high = true ∧ v.burnt = 0) (wait burnDurationSec)
    (Seen ticks High) X Y := by
  have hhigh : Calm (releaseTerms ticks) (Seen ticks High) := calm_seen fun _ _ _ hh => hh
  have hburning : ∀ n, Calm (releaseTerms ticks) (Seen ticks (Burning ticks n)) :=
    fun n => calm_seen fun _ _ _ hb => ⟨hb.high, hb.burnt, hb.saved, hb.time⟩
  have houtline : WaitOutline (releaseTerms ticks) burnDurationSec
      (Seen ticks fun _ v => v.high = true ∧ v.burnt = 0)
      (Seen ticks fun l v => (v.high = true ∧ v.burnt = 0) ∧ l.savedElapsedSec < burnDurationSec)
      (Seen ticks (Burning ticks 89)) (Seen ticks (Burning ticks 90))
      (Seen ticks fun l v => Burning ticks 90 l v ∧ v.doing = some (.tested .tick false))
      (Seen ticks (Ticked ticks)) (Seen ticks High) (Seen ticks High) (Seen ticks High) :=
    { calmA := calm_seen fun _ _ _ hh => hh
      calmB := calm_seen fun _ _ _ hh => hh
      calmL := hburning 89
      calmD := hburning 90
      calmR := calm_seen fun _ _ _ hb => ⟨⟨hb.1.high, hb.1.burnt, hb.1.saved, hb.1.time⟩, hb.2⟩
      calmC := calm_seen fun _ _ _ hb => ⟨⟨hb.1.high, hb.1.burnt, hb.1.saved, hb.1.time⟩, hb.2⟩
      calmF := hhigh
      calmE := hhigh
      calmZ := hhigh
      others := fun _ _ _ _ hr => hr.others
      testTop := by
        rintro s h hs - s' rfl
        have hidle := tested_idle .waitTop s.vars.completeRequested
        have hkept : Seen ticks (fun _ v => v.high = true ∧ v.burnt = 0) { s with
            locals := { s.locals with requested := s.vars.completeRequested } }
            (h ++ [.tested .waitTop s.vars.completeRequested]) := by
          refine hs.event (hidle.releases fun hstep => absurd hstep Bool.false_ne_true) ?_
          rw [hidle.note]
          exact hs.2
        exact hkept.guarantee rfl rfl
      leavesTop := fun _ _ hs _ => ⟨hs.1, hs.2.1⟩
      reads := by
        rintro s h hs - - hlt s' rfl
        exact ⟨⟨hs.1, .of_same rfl rfl⟩, hs.1, hs.2, hlt⟩
      starts := by
        rintro s h i hs - s' rfl
        have hfinds : Releases ticks h (.waiting burnDurationSec) :=
          ⟨fun heq => Event.noConfusion heq, fun heq => Event.noConfusion heq,
            fun hstep => absurd hstep (by decide), fun _ heq => Event.noConfusion heq⟩
        have hburn : Seen ticks (Burning ticks 89)
            { s with vars := { s.vars with startTime := i.now } }
            (h ++ [.waiting burnDurationSec]) := by
          refine hs.event hfinds ⟨hs.2.1.1, hs.2.1.2, hs.2.2, fun _ => ?_⟩
          have hlt := UInt32.lt_iff_toNat_lt.1 hs.2.2
          have hninety : burnDurationSec.toNat = 90 := rfl
          show s.locals.savedElapsedSec.toNat + 0 ≤ 89
          omega
        exact hburn.guarantee rfl rfl
      delays := fun s h hs => (delayed_burning hs).guarantee rfl rfl
      testTick := by
        rintro s h b hs - s' rfl
        have hidle := tested_idle .tick b
        have hkept : Seen ticks (Burning ticks 90)
            { s with locals := { s.locals with requested := b } } (h ++ [.tested .tick b]) :=
          burning_step hs hidle rfl rfl
        refine ⟨⟨hkept.1, .of_same rfl rfl⟩, fun _ => ⟨hkept.1, hkept.2.high⟩, ?_⟩
        rintro rfl
        refine ⟨hkept.1, hkept.2, ?_⟩
        rw [view_snoc, hidle.note]
      computes := by
        rintro s h i hs hi s' rfl
        refine ⟨⟨hs.1, .of_same rfl rfl⟩, hs.1,
          ⟨hs.2.1.high, hs.2.1.burnt, hs.2.1.saved, hs.2.1.time⟩, fun ht => ?_⟩
        have hclock := hi.2 ht hs.2.2
        have htime := hs.2.1.time ht
        have hlt := UInt32.lt_iff_toNat_lt.1 hs.2.1.saved
        have hninety : burnDurationSec.toNat = 90 := rfl
        show (s.locals.savedElapsedSec + (timeSubtract i.now s.vars.startTime).seconds).toNat =
          s.locals.savedElapsedSec.toNat + (view h).waited
        rw [hclock, UInt32.toNat_add, UInt32.toNat_ofNat']
        omega
      fills := by
        rintro s h hs - s' rfl
        have hkept : Seen ticks High { s with vars := { s.vars with
            waitElapsedSec := burnDurationSec } } (h ++ [.wrote]) :=
          high_step (s := s) ⟨hs.1, hs.2.1.high⟩ wrote_idle rfl
        exact hkept.guarantee rfl rfl
      goesOn := by
        rintro s h hs hlt s' rfl
        have hshort : Seen ticks (Burning ticks 89) s h := by
          refine ⟨hs.1, hs.2.1.high, hs.2.1.burnt, hs.2.1.saved, fun ht => ?_⟩
          have htotal := hs.2.2 ht
          have hless := UInt32.lt_iff_toNat_lt.1 hlt
          have hninety : burnDurationSec.toNat = 90 := rfl
          omega
        have hkept : Seen ticks (Burning ticks 89) { s with vars := { s.vars with
            waitElapsedSec := s.locals.totalElapsedSec } } (h ++ [.wrote]) :=
          burning_step hshort wrote_idle rfl rfl
        exact hkept.guarantee rfl rfl
      saveL := save_burning.triple_framed fun _ _ hs => hs
      saveF := save_high.triple_framed fun _ _ hs => hs
      leavesLoop := fun _ _ hs _ => ⟨hs.1, hs.2.high⟩
      finishes := fun _ _ hs => hs
      clears := by
        rintro s h hs s' rfl
        exact Seen.guarantee hs rfl rfl }
  exact houtline.triple

/-- **A burn** leaves the line released. -/
theorem gpioHigh_low : Triple (releaseTerms ticks) (Seen ticks Low) gpioHigh (Seen ticks Low)
    X Y := by
  refine .call stable_seen <| .seq sendHigh_raised <|
    .seq (M := Seen ticks fun _ v => v.high = true ∧ v.burnt = 0)
      (.when (M := Seen ticks Low) stable_seen stable_seen ?_ ?_ (.ret stable_seen)) <|
    .seq wait_burn sendLow_low
  · exact fun s h hs hb => ⟨hs.1, hs.2.2 (of_decide_eq_true hb)⟩
  · exact fun s h hs hb => ⟨hs.1, hs.2.1 (not_not.1 (of_decide_eq_false hb))⟩

end Burn

/-! ## The sequence -/

section Sequence

variable {ticks : Prop} {X Y : Assertion State Event}

theorem test_low (site : Test) :
    Triple (releaseTerms ticks) (Seen ticks Low) (test site) (Seen ticks Low) X Y :=
  does_low (e := fun s => .tested site s.vars.completeRequested) (fun _ _ => ⟨rfl, rfl, rfl⟩)
    fun _ => tested_idle _ _

theorem write_low (f : State → Vars) :
    Triple (releaseTerms ticks) (Seen ticks Low) (write f) (Seen ticks Low) X Y :=
  does_low (e := fun _ => .wrote) (fun _ _ => ⟨rfl, rfl, rfl⟩) fun _ => wrote_idle

/-- Statements that may be left out. -/
theorem when_low {b : State → Bool} {c : Prog}
    (hc : Triple (releaseTerms ticks) (Seen ticks Low) c (Seen ticks Low) X Y) :
    Triple (releaseTerms ticks) (Seen ticks Low) (.when b c) (Seen ticks Low) X Y :=
  .when stable_seen stable_seen (fun _ _ hs _ => hs) (fun _ _ hs _ => hs) hc

theorem break_low (site : Test) : Triple (releaseTerms ticks) (Seen ticks Low)
    (breakIfRequested site) (Seen ticks Low) (Seen ticks Low) Y :=
  .seq (test_low site) (when_low (.brk stable_seen))

theorem save_step : Triple (releaseTerms ticks) (Seen ticks Low) (saveState .process)
    (Seen ticks Low) X Y := saveState_low .process (by decide)

/-- **A cycle** begins and ends with the line released. -/
theorem cycleBody_low : Triple (releaseTerms ticks) (Seen ticks Low) cycleBody (Seen ticks Low)
    (Seen ticks Low) Y :=
  .seq (wait_low 0) <| .seq (write_low _) <| .seq gpioHigh_low <| .seq (break_low _) <|
    .seq save_step <| .seq (break_low _) <| .seq (write_low _) <|
    .seq (send_low .enableTo (by decide) (by decide)) <| .seq (break_low _) <| .seq save_step <|
    .seq (break_low _) <| .seq (write_low _) <| .seq save_step <|
    .seq (wait_low postBurnWaitSec) <| .seq (break_low _) <| .seq (write_low _) <|
    .seq (write_low _) save_step

/-- The end of the function, which needs the line released. -/
theorem finished_low : Triple (releaseTerms ticks) (Seen ticks Low) (.emit .finished)
    (Seen ticks Low) X Y :=
  .emit stable_seen fun _ _ hs =>
    (idle_step hs ⟨rfl, by simp, fun _ => rfl, rfl⟩).guarantee rfl rfl

theorem process_low (detumble : Bool) : Triple (releaseTerms ticks) (Seen ticks Low)
    (process detumble) (fun _ _ => True) (fun _ _ => True) fun _ _ => True := by
  have hset : ∀ f : Vars → Vars, ∀ X Y, Triple (releaseTerms ticks) (Seen ticks Low) (setVars f)
      (Seen ticks Low) X Y := fun f _ _ => set_low (fun _ => rfl) fun _ => rfl
  have hfailed : Triple (releaseTerms ticks) (Seen ticks Low) (.emit .loadFailed)
      (Seen ticks Low) (Seen ticks Low) (Seen ticks Low) :=
    .emit stable_seen fun _ _ hs =>
      (idle_step hs ⟨rfl, by simp, fun _ => rfl, rfl⟩).guarantee rfl rfl
  refine .post (Q := Seen ticks Low) ?_ fun _ _ _ => trivial
  refine .call stable_seen <|
    .seq loadState_low <|
    .seq (when_low (.seq (hset _ _ _) (.seq setDefaults_low hfailed))) <|
    .seq (when_low (.seq (send_low .startAdcsDetumble (by decide) (by decide))
      (when_low (hset _ _ _)))) <|
    .seq (when_low (.seq (send_low .enableTo (by decide) (by decide))
      (.seq finished_low (.ret stable_seen)))) <|
    .seq (when_low (.seq (wait_low initialWaitSec) (.seq (test_low _)
      (when_low (.seq (write_low _) save_step))))) <|
    .seq (set_low (fun _ => rfl) fun _ => rfl) <|
    .seq (when_low (test_low _)) <|
    .seq (M := Seen ticks Low)
      (.loop (M := Seen ticks Low) stable_seen (fun _ _ hs _ => hs)
        (.seq cycleBody_low (.seq (set_low (fun _ => rfl) fun _ => rfl) (when_low (test_low _))))
        (fun _ _ hs _ => hs) fun _ _ hs => hs) <|
    .seq (wait_low 0) <| .seq (hset _ _ _) <| .seq (write_low _) <| .seq (write_low _) <|
    .seq save_step finished_low

end Sequence

/-! ## Runs -/

/-- What the task of the commands does, whatever the other does. -/
def requestTerms : Terms State Input Event where
  input _ _ _ := True
  rely s _ s' _ := ProcessMove s s'
  guarantee := CommandMove

theorem commandTask_moves : Triple requestTerms (fun _ _ => True) commandTask (fun _ _ => True)
    (fun _ _ => True) fun _ _ => True := by
  have hstable : Stable requestTerms fun _ _ => True := fun _ _ _ _ _ _ => trivial
  have hsave : SaveOutline requestTerms .request (fun _ _ => True) (fun _ _ => True)
      (fun _ _ => True) fun _ _ => True :=
    { stable := hstable
      stable_copied := hstable
      stable_locked := hstable
      stable_synced := hstable
      mine := fun _ _ _ _ hr => ⟨hr.saving, hr.files⟩
      fails := fun _ _ _ _ => ⟨.of_status _, trivial⟩
      copies := fun _ _ _ => ⟨.of_saving _ (ofCommand_single rfl), trivial⟩
      lockFails := fun _ _ _ _ => ⟨.of_saving _ (ofCommand_single rfl), trivial⟩
      locks := fun s h s' _ _ hstep => ⟨hstep.commandMove h, trivial⟩
      moves := fun s h s' es _ _ hstep => ⟨hstep.commandMove h, trivial⟩
      syncs := by
        rintro s h - hmine - s' rfl
        exact ⟨.of_mine _ _ (ofCommand_single rfl) hmine, trivial⟩
      givesUp := fun _ _ _ _ hmine => ⟨.unlock hmine, trivial⟩
      unlocks := fun _ _ _ hmine => ⟨.unlock hmine, trivial⟩ }
  have houtline : RequestOutline requestTerms (fun _ _ => True) (fun _ _ => True)
      fun _ _ => True :=
    { stableA := hstable
      stableB := hstable
      stableN := hstable
      mine := fun _ _ _ _ hr => hr.saving
      requests := by
        rintro s h i - - - s' rfl
        exact ⟨.request _, trivial⟩
      refuses := fun _ _ _ => ⟨.of_status _, trivial⟩
      saves := fun _ _ => hsave.triple_same fun _ _ hs => hs
      answers := fun _ _ _ => ⟨.answer _, trivial⟩ }
  exact houtline.triple fun _ _ hs => hs

/-- The terms of both tasks. -/
def lineTerms (ticks : Prop) : Task → Terms State Input Event
  | .process => releaseTerms ticks
  | .command => requestTerms

/-- The clock advances by one second with every delay of a run. -/
def OneSecondTicks (detumble : Bool) (disk : Disk) (xs : List (Program.Sched Task Input)) : Prop :=
  (leop detumble).Meets (ForProcess Ticks) (State.start disk) xs

/-- **The line is released** before the next step of the sequence, and after 90 delays if the clock
advances by one second with each: whatever the clock says, whichever calls fail and whenever a
command arrives, in every run in which all calls succeed that are made while the command to release
it is issued. -/
theorem line_released (detumble : Bool) (disk : Disk) (xs : List (Program.Sched Task Input))
    (hxs : (leop detumble).Meets (ForProcess fun _ => LowSucceeds) (State.start disk) xs) :
    Each (Releases (OneSecondTicks detumble disk xs)) (events detumble disk xs) := by
  have hmeets : (leop detumble).Meets (ForProcess fun s h i => LowSucceeds h i ∧
      (OneSecondTicks detumble disk xs → Ticks s h i)) (State.start disk) xs := by
    intro pre x hpre
    have hlow := hxs pre x hpre
    have hticks := fun hall : OneSecondTicks detumble disk xs => hall pre x hpre
    match x with
    | .step .process i => exact ⟨hlow, hticks⟩
    | .step .command _ => trivial
    | .restart _ => trivial
  generalize OneSecondTicks detumble disk xs = ticks at hmeets ⊢
  refine Program.System.invariant (S := leop detumble) (I := fun _ h => Each (Releases ticks) h)
    (lineTerms ticks) (ofChild (Seen ticks Low)) ?_ ?_ ?_ ?_ (Each.nil _) ?_ xs hmeets
  · intro t s h i _ hok
    cases t with
    | process => exact hok
    | command => trivial
  · intro t
    cases t with
    | process =>
      exact process_low detumble
    | command => exact commandTask_moves
  · intro t s h s' h' hsafe hguar
    cases t with
    | process =>
      refine ⟨hguar.1, fun t' ht' => ?_⟩
      cases t' with
      | process => exact absurd rfl ht'
      | command => exact hguar.2
    | command =>
      obtain ⟨es, rfl, hes⟩ := CommandMove.events hguar
      refine ⟨hsafe.append fun pre e he => releases_command (hes e he), fun t' ht' => ?_⟩
      cases t' with
      | process => exact hguar
      | command => exact absurd rfl ht'
  · intro s h i hsafe _
    have hbooted : Each (Releases ticks) (h ++ [.booted]) :=
      hsafe.snoc ⟨fun heq => Event.noConfusion heq, fun heq => Event.noConfusion heq,
        fun hstep => absurd hstep Bool.false_ne_true, fun _ heq => Event.noConfusion heq⟩
    refine ⟨hbooted, fun t => ?_⟩
    cases t with
    | process =>
      refine ⟨hbooted, ?_⟩
      show (view (h ++ [.booted])).high = false
      rw [view_snoc]
      rfl
    | command => trivial
  · intro t
    cases t with
    | process => exact ⟨Each.nil _, rfl⟩
    | command => trivial

/-- The line is raised, and the call that transmits the command to release it does not succeed. -/
def lowFails (status : Status) : List (Program.Sched Task Input) :=
  List.replicate 134 (stepAt 0 success) ++ List.replicate 86 (stepAt 5000 success) ++
    stepAt 5000 status :: List.replicate 20 (stepAt 5000 success)

theorem line_released_at_once :
    Each (Releases (OneSecondTicks false burnDisk (lowFails success)))
      (events false burnDisk (lowFails success)) := by
  refine line_released false burnDisk (lowFails success) fun pre x hpre => ?_
  have hmem : x ∈ lowFails success :=
    hpre.subset (List.mem_append_right _ (List.mem_singleton.2 rfl))
  have hstep : ∃ sec, x = stepAt sec success := by
    simp only [lowFails, List.mem_append, List.mem_cons, List.mem_replicate] at hmem
    rcases hmem with (⟨-, rfl⟩ | ⟨-, rfl⟩) | rfl | ⟨-, rfl⟩ <;> exact ⟨_, rfl⟩
  obtain ⟨sec, rfl⟩ := hstep
  exact fun _ => rfl

/-- The line stays high if that call fails, and the sequence goes on. -/
theorem line_left_high : ¬ ∀ detumble disk xs,
    Each (Releases (OneSecondTicks detumble disk xs)) (events detumble disk xs) := by
  intro hall
  have heach := hall false burnDisk (lowFails externalResourceFail)
  have hstep := (heach.get 18 (by decide +kernel)).step (by decide +kernel)
  have hhigh : (view ((events false burnDisk (lowFails externalResourceFail)).take 18)).high =
      true := by decide +kernel
  exact absurd (hhigh.symm.trans hstep) (by decide)

end Leop
end FlightApps
