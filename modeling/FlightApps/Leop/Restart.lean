import FlightApps.Leop.Resumed

/-!
# Starts and power losses

The programs of `MISSION_LEOP_Process` follow the plan from the place of the record that is loaded
(`process_resumes`), and so does every run in which no power loss leaves a record of a cycle whose
burn is over (`leop_resumes`).
-/

set_option autoImplicit false

namespace FlightApps
namespace Leop

open Program (Terms Assertion Stable Triple)

/-! ## The sequence -/

/-- In a cycle, in a given state, with no time elapsed. -/
def Within (st : LeopState) (place : Nat → Place → Prop) : Knowledge := fun p _ _ v l =>
  InCycle st v.state v.cycleCount l.cycle ∧ v.waitElapsedSec = 0 ∧ place v.cycleCount.toNat p

/-- The burn of the cycle comes next, and the record says so. -/
def Heads (r : Option FileData) (v : Vars) (p : Place) : Prop :=
  v.state = .burn ∧ v.cycleCount < sequenceRepeatCount ∧
    p.issue .gpioHigh = some (.raising v.cycleCount.toNat) ∧
    countOf r = v.cycleCount.toNat ∧ Fresh r

/-- All cycles are over. -/
def Ends (r : Option FileData) (v : Vars) (l : Locals) (p : Place) : Prop :=
  v.cycleCount = sequenceRepeatCount ∧ l.cycle = sequenceRepeatCount ∧ p = .resting 9 0 ∧
    countOf r = sequenceRepeatCount.toNat ∧ Fresh r

section Sequence

variable {quiet : Bool} {X Y : Assertion State Event} {φ ψ : Knowledge} {p p' : Place} {k n : Nat}
  {r : Option FileData} {v : Vars} {l : Locals}

theorem fresh_toFile (hfirst : v.state ≠ .toEnable) (hlast : v.state ≠ .postWait) :
    Fresh (some v.toFile) := by
  rintro d ⟨rfl⟩
  rw [toFile_leopState]
  cases hst : v.state with
  | toEnable => exact absurd hst hfirst
  | postWait => exact absurd hst hlast
  | _ => exact ⟨by decide, by decide⟩

theorem lt_repeat (h : v.cycleCount < sequenceRepeatCount) :
    v.cycleCount.toNat < sequenceRepeatCount.toNat := UInt8.lt_iff_toNat_lt.1 h

/-- All of a wait is left. -/
theorem left_all (h : v.waitElapsedSec = 0) (w : UInt32) :
    v.waitElapsedSec.toNat + w.toNat = w.toNat := by
  rw [h]
  exact Nat.zero_add _

/-- A burn may begin where the one before has ended, and nowhere else. -/
theorem next_of_issue (h : p.issue .gpioHigh = some (.raising k)) : p.next = k := by
  cases p with
  | waiting left =>
    cases left with
    | zero => exact Place.raising.inj (Option.some.inj h)
    | succ left => exact absurd h (Option.some_ne_none _).symm
  | ready cycle => exact Place.raising.inj (Option.some.inj h)
  | resting cycle left =>
    cases left with
    | zero =>
      rw [Place.issue] at h
      split at h
      · exact Place.raising.inj (Option.some.inj h)
      · exact absurd h (Option.some_ne_none _).symm
    | succ left => exact absurd h (Option.some_ne_none _).symm
  | _ => exact absurd h (Option.some_ne_none _).symm

theorem step_raising (h : p.issue .gpioHigh = some (.raising k))
    (hk : k < sequenceRepeatCount.toNat) (hcount : countOf r = k) (hfresh : Fresh r) :
    p.Step (.raising k) r 1 where
  started := Place.noConfusion
  fits _ := ⟨Nat.le_of_eq hcount.symm, Or.inl hfresh⟩
  next := by
    rw [next_of_issue h]
    exact Nat.le_refl _
  last _ := hk

/-- `MISSION_LEOP_GpioHigh` may return here. -/
theorem step_leave (h : p.leave = some (.burnt k)) : p.Step (.burnt k) r 0 := by
  cases p with
  | raising cycle =>
    obtain rfl := Place.burnt.inj (Option.some.inj h)
    exact .same Place.noConfusion rfl (Or.inl rfl) rfl
  | lowering cycle =>
    obtain rfl := Place.burnt.inj (Option.some.inj h)
    exact .same Place.noConfusion rfl (Or.inl rfl) rfl
  | burnt cycle =>
    obtain rfl := Place.burnt.inj (Option.some.inj h)
    exact .same Place.noConfusion rfl (Or.inr rfl) rfl
  | _ => exact absurd h (Option.some_ne_none _).symm

/-- A wait in a cycle may be saved. -/
theorem savable_wait {P : Nat → Nat → Place} {q : LeopState} (hfirst : q ≠ .initialWait)
    (hlast : q ≠ .complete)
    (hfits : ∀ m (v : Vars), v.state = q → (P v.cycleCount.toNat m).Fits (some v.toFile)) :
    Savable (Left P (InCycle q) fun _ v _ _ => v.waitElapsedSec ≤ getWaitDuration q) := by
  rintro p n r v l - - ⟨hcycle, m, rfl, helapsed⟩
  exact ⟨InCycle.sound hfirst hlast v l.cycle hcycle helapsed, hfits m v hcycle.1⟩

/-- A point in a cycle may be saved. -/
theorem savable_within {st : LeopState} {P : Nat → Nat → Place} {m : Nat}
    (hfirst : st ≠ .initialWait) (hlast : st ≠ .complete)
    (hfits : ∀ v : Vars, v.state = st → (P v.cycleCount.toNat m).Fits (some v.toFile)) :
    Savable (Within st fun k p => p = P k m) := by
  rintro p n r v l - - ⟨hcycle, helapsed, rfl⟩
  exact ⟨InCycle.sound_zero hfirst hlast v l.cycle hcycle helapsed, hfits v hcycle.1⟩

theorem fits_burning (m : Nat) (hst : v.state = .burn) :
    (Place.burning v.cycleCount.toNat m).Fits (some v.toFile) :=
  ⟨Nat.le_refl _, Or.inl (fresh_toFile (hst ▸ by decide) (hst ▸ by decide))⟩

theorem fits_burnt (v : Vars) : (Place.burnt v.cycleCount.toNat).Fits (some v.toFile) :=
  ⟨Nat.le_refl _, Or.inr rfl⟩

theorem fits_resting (m : Nat) (v : Vars) :
    (Place.resting v.cycleCount.toNat m).Fits (some v.toFile) := ⟨Nat.le_refl _, Or.inr rfl⟩

/-- A wait of 0 only clears the variables. -/
theorem waitZero_at
    (hφ : ∀ p n r (s s' : State), Quiet s s' → φ p n r s.vars s.locals →
      φ p n r s'.vars s'.locals)
    (hψ : ∀ p n r (s s' : State), Quiet s s' → ψ p n r s.vars s.locals →
      ψ p n r s'.vars s'.locals)
    (hclear : ∀ p n r v l, φ p n r v l → ψ p n r { v with waitElapsedSec := 0 } l) :
    Triple resumeTerms (Here quiet φ) (wait 0) (Here quiet ψ) X Y := by
  refine wait_zero (E := Here quiet φ) (calm_here hφ) (calm_here hφ) (calm_here hψ)
    (fun _ _ _ _ hr => hr.elim) (fun _ _ hs => hs) ?_
  rintro s h hs s' rfl
  have hkept : Here quiet ψ { s with vars := { s.vars with waitElapsedSec := 0 } } h :=
    hs.change rfl fun p n r hgoing hknow =>
      ⟨⟨hgoing.unset, hgoing.unread, hgoing.count⟩, hclear p n r _ _ hknow⟩
  exact ⟨hkept.1, hkept⟩

/-- **A burn.** -/
theorem gpioHigh_at : Triple resumeTerms
    (Here true fun p _ r v l => InCycle .burn v.state v.cycleCount l.cycle ∧
      v.waitElapsedSec = 0 ∧ Heads r v p) gpioHigh
    (Here false (Within .burn fun k p => p.leave = some (.burnt k))) X Y := by
  refine .call (stable_alone _) <|
    .seq (M := Here false fun p _ _ v l => InCycle .burn v.state v.cycleCount l.cycle ∧
      v.waitElapsedSec = 0 ∧ ((l.status ≠ success ∧ p = .raising v.cycleCount.toNat) ∨
        (l.status = success ∧ p = .burning v.cycleCount.toNat burnDurationSec.toNat)))
      (send_at (χ := Within .burn fun k p => p = .raising k) ?_ ?_ ?_ ?_) <|
    .seq (M := Here false (Left .burning (InCycle .burn) fun _ v _ m =>
        v.waitElapsedSec.toNat + m = burnDurationSec.toNat))
      (.when (M := Here false (Within .burn fun k p => p.leave = some (.burnt k)))
        (stable_alone _) (stable_alone _) ?_ ?_ (.ret (stable_alone _))) <|
    .seq (wait_at ticking_burning (by decide)
      (savable_wait (by decide) (by decide) fun m v hst => fits_burning m hst)) <|
    send_at (χ := Within .burn fun k p => p = .lowering k) ?_ ?_ ?_ ?_
  · rintro p n r v l - ⟨hcycle, helapsed, -, hlt, hissue, hcount, hfresh⟩
    exact ⟨_, hissue, step_raising hissue (lt_repeat hlt) hcount hfresh, hcycle, helapsed, rfl⟩
  · exact fun p n r v l hknow => hknow
  · exact fun p n r v l status hknow hne =>
      ⟨hknow.1, hknow.2.1, Or.inl ⟨hne, hknow.2.2⟩⟩
  · rintro p n r v l status ⟨hcycle, helapsed, rfl⟩
    by_cases hok : status = success
    · refine ⟨.burning v.cycleCount.toNat burnDurationSec.toNat, ?_,
        .same Place.noConfusion rfl (Or.inl rfl) rfl, hcycle, helapsed, Or.inr ⟨hok, rfl⟩⟩
      rw [Place.sent, if_pos hok]
    · refine ⟨.raising v.cycleCount.toNat, ?_, .same Place.noConfusion rfl (Or.inl rfl) rfl,
        hcycle, helapsed, Or.inl ⟨hok, rfl⟩⟩
      rw [Place.sent, if_neg hok]
  · intro s h hs hfailed
    refine hs.imp fun p n r _ hknow => ?_
    obtain ⟨hcycle, helapsed, ⟨-, rfl⟩ | ⟨hok, -⟩⟩ := hknow
    · exact ⟨hcycle, helapsed, rfl⟩
    · exact absurd hok (of_decide_eq_true hfailed)
  · intro s h hs hfailed
    refine hs.imp fun p n r _ hknow => ?_
    obtain ⟨hcycle, helapsed, ⟨hne, -⟩ | ⟨-, rfl⟩⟩ := hknow
    · exact absurd hne (of_decide_eq_false hfailed)
    · exact ⟨hcycle, burnDurationSec.toNat, rfl, left_all helapsed _⟩
  · rintro p n r v l - ⟨hcycle, m, rfl, rfl, helapsed⟩
    exact ⟨_, rfl, .same Place.noConfusion rfl (Or.inl rfl) rfl, hcycle, helapsed, rfl⟩
  · exact fun p n r v l hknow => hknow
  · rintro p n r v l status ⟨hcycle, helapsed, rfl⟩ -
    exact ⟨hcycle, helapsed, rfl⟩
  · rintro p n r v l status ⟨hcycle, helapsed, rfl⟩
    exact ⟨_, rfl, .same Place.noConfusion rfl (Or.inl rfl) rfl, hcycle, helapsed, rfl⟩

/-- The output is enabled. -/
theorem enable_at : Triple resumeTerms (Here quiet (Within .toEnable fun k p => p = .burnt k))
    (sendCommand .enableTo)
    (Here false (Within .toEnable fun k p => p = .resting k postBurnWaitSec.toNat)) X Y := by
  refine send_at (χ := Within .toEnable fun k p => p = .resting k postBurnWaitSec.toNat)
    ?_ ?_ ?_ ?_
  · rintro p n r v l - ⟨hcycle, helapsed, rfl⟩
    exact ⟨_, rfl, .same Place.noConfusion rfl (Or.inr rfl) rfl, hcycle, helapsed, rfl⟩
  · exact fun p n r v l hknow => hknow
  · exact fun p n r v l status hknow _ => hknow
  · rintro p n r v l status ⟨hcycle, helapsed, rfl⟩
    exact ⟨_, rfl, .same Place.noConfusion rfl (Or.inr rfl) rfl, hcycle, helapsed, rfl⟩

/-- The next state of the cycle. -/
theorem next_at {st st' : LeopState} {place : Nat → Place → Prop} :
    Triple resumeTerms (Here quiet (Within st place)) (write fun s => { s.vars with state := st' })
      (Here true (Within st' place)) X Y :=
  write_at fun _ _ _ _ hgoing hknow =>
    ⟨⟨hgoing.unset, hgoing.unread, hgoing.count⟩, ⟨rfl, hknow.1.2⟩, hknow.2⟩

theorem pass_at {st : LeopState} {place : Nat → Place → Prop} {site : Test}
    (hsite : site ≠ .burnt) :
    Triple resumeTerms (Here quiet (Within st place)) (breakIfRequested site)
      (Here true (Within st place)) (fun _ _ => False) Y :=
  break_at (leads_tested hsite) (passes fun _ _ _ _ _ hknow => hknow)

theorem saveWithin_at {st : LeopState} {P : Nat → Nat → Place} {m : Nat}
    (hfirst : st ≠ .initialWait) (hlast : st ≠ .complete)
    (hfits : ∀ v : Vars, v.state = st → (P v.cycleCount.toNat m).Fits (some v.toFile)) :
    Triple resumeTerms (Here true (Within st fun k p => p = P k m)) (saveState .process)
      (Here true (Within st fun k p => p = P k m)) X Y :=
  (save_at rfl (savable_within hfirst hlast hfits) fun _ _ _ _ _ hknow => hknow).post
    fun _ _ hs => hs.1

/-- What holds when the count has been raised. -/
def Advanced (past : LeopState → UInt8 → UInt8 → Prop) : Knowledge := fun p _ _ v l =>
  past v.state v.cycleCount l.cycle ∧ v.waitElapsedSec = 0 ∧ p = .resting l.cycle.toNat 0

theorem count_succ {count cycle : UInt8} (hcount : count = cycle + 1)
    (hlt : cycle < sequenceRepeatCount) : count.toNat = cycle.toNat + 1 := by
  have hten : sequenceRepeatCount.toNat = 10 := rfl
  have hone : (1 : UInt8).toNat = 1 := rfl
  rw [UInt8.lt_iff_toNat_lt, hten] at hlt
  rw [hcount, UInt8.toNat_add]
  omega

theorem savable_advanced : Savable (Advanced CycleOver) := by
  rintro p n r v l - - ⟨hover, helapsed, rfl⟩
  refine ⟨CycleOver.sound v l.cycle hover helapsed, ?_, Or.inl (fresh_toFile ?_ ?_)⟩
  · show l.cycle.toNat ≤ v.cycleCount.toNat
    rw [count_succ hover.1 hover.2.1]
    exact Nat.le_succ _
  · rw [hover.2.2]
    split <;> decide
  · rw [hover.2.2]
    split <;> decide

/-- **A cycle** begins with the burn and ends with the next count on the disk. -/
theorem cycleBody_at : Triple resumeTerms
    (Here true fun p _ r v l => v.cycleCount = l.cycle ∧ Heads r v p) cycleBody
    (Here true fun p n r v l => Advanced CycleOver p n r v l ∧ r = some v.toFile)
    (fun _ _ => False) Y := by
  refine .seq (M := Here true fun p _ r v l => v.cycleCount = l.cycle ∧ v.waitElapsedSec = 0 ∧
      Heads r v p) (waitZero_at ?_ ?_ fun p n r v l hknow => ⟨hknow.1, rfl, hknow.2⟩) <|
    .seq (M := Here true fun p _ r v l => InCycle .burn v.state v.cycleCount l.cycle ∧
      v.waitElapsedSec = 0 ∧ Heads r v p) (write_at ?_) <|
    .seq gpioHigh_at <|
    .seq (M := Here true (Within .burn fun k p => p = .burnt k))
      (break_at (F := Place.leave) (fun _ _ => rfl) ?_) <|
    .seq (saveWithin_at (P := fun k _ => .burnt k) (m := 0) (by decide) (by decide)
      fun v _ => fits_burnt v) <|
    .seq (pass_at (by decide)) <|
    .seq next_at <| .seq enable_at <| .seq (pass_at (by decide)) <|
    .seq (saveWithin_at (by decide) (by decide) fun v _ => fits_resting _ v) <|
    .seq (pass_at (by decide)) <|
    .seq next_at <|
    .seq (saveWithin_at (by decide) (by decide) fun v _ => fits_resting _ v) <|
    .seq (.pre (wait_at ticking_resting (by decide)
      (savable_wait (q := .postWait) (by decide) (by decide) fun m v _ => fits_resting m v))
      (stable_alone _) ?_) <|
    .seq (M := Here true (Advanced fun _ count cycle =>
        count = cycle ∧ cycle < sequenceRepeatCount))
      (break_at (leads_tested (by decide)) (passes ?_)) <|
    .seq (M := Here true (Advanced fun _ count cycle =>
        count = cycle + 1 ∧ cycle < sequenceRepeatCount)) (write_at ?_) <|
    .seq (M := Here true (Advanced CycleOver)) (write_at ?_) <|
    .post (save_at (ψ := fun p n r v l => Advanced CycleOver p n r v l ∧ r = some v.toFile) rfl
      savable_advanced fun p n r v l hknow => ⟨hknow, rfl⟩) fun _ _ hs => hs.1
  · rintro p n r s s' ⟨_, _, _, _, rfl⟩ hknow
    exact hknow
  · rintro p n r s s' ⟨_, _, _, _, rfl⟩ hknow
    exact hknow
  · rintro s p n r hgoing ⟨hcycle, helapsed, hheads⟩
    refine ⟨⟨hgoing.unset, hgoing.unread, hgoing.count⟩, ⟨rfl, hcycle, ?_⟩, helapsed, rfl,
      hheads.2⟩
    exact hcycle ▸ hheads.2.1
  · rintro p n r v l ⟨hcycle, helapsed, hleave⟩
    exact ⟨_, hleave, fun _ => step_leave hleave, hcycle, helapsed, rfl⟩
  · intro s h hs
    refine Here.loosen (hs.imp fun p n r _ hknow => ?_)
    obtain ⟨hcycle, helapsed, rfl⟩ := hknow
    exact ⟨hcycle, _, rfl, left_all helapsed _⟩
  · rintro p n r v l ⟨hcycle, m, rfl, rfl, helapsed⟩
    exact ⟨hcycle.2, helapsed, by rw [hcycle.2.1]⟩
  · rintro s p n r hgoing ⟨⟨hcount, hlt⟩, helapsed, hp⟩
    refine ⟨⟨hgoing.unset, hgoing.unread, ?_⟩, ⟨rfl, hlt⟩, helapsed, hp⟩
    show countOf r ≤ (s.locals.cycle + 1).toNat
    have hle := hgoing.count
    rw [hcount] at hle
    rw [count_succ rfl hlt]
    exact Nat.le_succ_of_le hle
  · rintro s p n r hgoing ⟨⟨hcount, hlt⟩, helapsed, hp⟩
    exact ⟨⟨hgoing.unset, hgoing.unread, hgoing.count⟩, ⟨hcount, hlt, rfl⟩, helapsed, hp⟩

end Sequence

/-! ## Loading -/

/-- Nothing has been loaded since the start. -/
def Booting (χ : State → Prop) : Assertion State Event :=
  With Resuming fun s h => sending h = false ∧ (ledger.of h).place = some .starting ∧
    s.vars.completeRequested = false ∧ s.locals.requested = false ∧ χ s

/-- Both files are the same record. -/
def Found (r : Option FileData) (s : State) : Prop :=
  Holds s.files.disk.data r ∧ Holds s.files.disk.stable r

/-- What has been read is the record, if there is one. -/
def WholeOr (s : State) : Prop := ∃ r, Found r s ∧
  (∀ d, r = some d → s.locals.readSize = Int32.ofNat fileDataLayout.size ∧
    s.locals.fileData = d) ∧
  (r = none → s.locals.readSize ≠ Int32.ofNat fileDataLayout.size)

/-- The runtime data are those of the record, from which it may go on. -/
def Restored : Knowledge := fun p _ r v _ =>
  r = some v.toFile ∧ v.Sound ∧ Fresh r ∧ p = v.toFile.place

section Loading

variable {s t : State} {h : List Event} {f : Files} {r : Option FileData} {e : Event}
  {χ : State → Prop} {X Y : Assertion State Event}

/-- Before anything is loaded both files are the same record. -/
theorem Resuming.found (hs : Resuming s.files h)
    (hplace : (ledger.of h).place = some .starting) :
    ∃ r, Found r s ∧ Suits (ledger.of h) r := by
  obtain ⟨r, r', hr, hr', hsuits, -, hsame⟩ := hs.files
  obtain rfl := hsame hplace
  exact ⟨r, ⟨hr, hr'⟩, hsuits⟩

theorem Resuming.create (hs : Resuming f h) (handle : Option FileName) :
    Resuming { f with
      dataHandle := handle
      disk := { f.disk with data := some (f.disk.data.getD []) } } h := by
  obtain ⟨r, r', hr, hr', hfiles⟩ := hs.files
  exact ⟨hs.restarts, hs.rises, hs.place, ⟨r, r', hr.getD, hr', hfiles⟩, hs.within⟩

/-- Events before anything is loaded. -/
theorem Booting.still (hs : Booting χ s h) (he : ∀ g : Ledger, g.note e = g)
    (hissues : e.issues = false) (hrestarts : Restarts h e)
    (hdata : t.files.disk.data = s.files.disk.data)
    (hstable : t.files.disk.stable = s.files.disk.stable)
    (hflag : t.vars.completeRequested = s.vars.completeRequested)
    (hread : t.locals.requested = s.locals.requested) : Booting (fun _ => True) t (h ++ [e]) := by
  obtain ⟨hr, -, hplace, hunset, hunread, -⟩ := hs
  refine ⟨(hr.disk hdata hstable).still (he _) hrestarts, (sending_snoc h e).trans hissues, ?_,
    hflag.trans hunset, hread.trans hunread, trivial⟩
  rw [ledger.of_snoc]
  exact (congrArg Ledger.place (he (ledger.of h))).trans hplace

/-- What `OS_read` transfers. -/
theorem wholeOr_reads {bytes : List UInt8} (hfound : Found r s)
    (hbytes : bytes = (s.files.disk.data.getD []).take fileDataLayout.size) :
    WholeOr (s.reads bytes (Int32.ofNat bytes.length)) := by
  refine ⟨r, hfound, ?_, ?_⟩
  · rintro d rfl
    obtain ⟨v, hv, rfl⟩ := hfound.1.sound
    have hdata : s.files.disk.data = some (fileDataLayout.bytes v.toFile) := by
      have hholds := hfound.1
      generalize s.files.disk.data = file at hholds
      generalize hr : some v.toFile = r at hholds
      cases hholds with
      | absent => exact absurd hr (Option.some_ne_none _)
      | empty => exact absurd hr (Option.some_ne_none _)
      | record v' => rw [Option.some.inj hr]
    rw [hdata, Option.getD_some, List.take_of_length_le
      (Nat.le_of_eq (fileDataLayout.length_bytes v.toFile))] at hbytes
    rw [hbytes]
    exact ⟨congrArg Int32.ofNat (fileDataLayout.length_bytes _), read_bytes _⟩
  · rintro rfl
    have hnil : s.files.disk.data.getD [] = [] := by
      have hholds := hfound.1
      generalize s.files.disk.data = file at hholds
      cases hholds <;> rfl
    rw [hnil] at hbytes
    rw [hbytes]
    exact ofNat_ne_size (by decide)

/-- A record is the place to go on from. -/
theorem restored_resumes {d : FileData} {v : Vars}
    (hs : Booting (Found (some d)) s h) (hv : v.toFile = d) (hunset : v.completeRequested = false) :
    Here true Restored { s with vars := v, locals := { s.locals with status := success } }
      (h ++ [.loaded d v]) := by
  obtain ⟨hr, -, hplace, -, hunread, hfound⟩ := hs
  obtain ⟨r, hfound', hsuits⟩ := hr.found hplace
  obtain rfl := hfound.1.unique hfound'.1
  obtain ⟨v', hsound, rfl⟩ := hfound.1.sound
  have hfresh : Fresh (some v'.toFile) :=
    (hsuits.fits _ hplace).fresh.resolve_right (Option.some_ne_none _).symm
  obtain ⟨hcycle, hnext, hstarted⟩ := place_of_fresh hsound hfresh
  have hnote : ledger.of (h ++ [.loaded v'.toFile v]) =
      { ledger.of h with
        place := some v'.toFile.place
        copied := some v'.toFile
        saved := some v'.toFile } := by
    have hloaded : (ledger.of h).note (.loaded v'.toFile v) =
        { ledger.of h with
          place := (ledger.of h).place.bind (Place.load v'.toFile.place)
          copied := some v'.toFile
          saved := some v'.toFile } := rfl
    rw [hplace] at hloaded
    exact (ledger.of_snoc h _).trans hloaded
  have hfiled : Filed s.files (ledger.of (h ++ [.loaded v'.toFile v])) v'.toFile.place
      (some v'.toFile) := by
    rw [hnote]
    exact ⟨rfl, hstarted, rfl, hfound.1, hfound.2⟩
  have hrestarts : Restarts h (.loaded v'.toFile v) := by
    refine ⟨fun d w heq d' hd' => ?_, fun hdef => hdef.elim⟩
    obtain ⟨rfl, -⟩ := Event.loaded.inj heq
    rcases hsuits.known d' hd' with hsame | ⟨hcopied, -⟩
    · exact Or.inl (Option.some.inj hsame)
    · exact Or.inr hcopied.symm
  have hrises : Rises h (.loaded v'.toFile v) := by
    rw [Rises, hnote]
    exact hsuits.rises
  have hkept : Resuming s.files (h ++ [.loaded v'.toFile v]) := by
    refine .of_filed (hr.restarts.snoc hrestarts) (hr.rises.snoc hrises) hfiled
      ⟨Nat.le_of_eq hcycle, Or.inl hfresh⟩ ?_ ?_
    · rw [hnext]
      exact hsound.count_le
    · rw [hnote, hnext]
      exact hsuits.starting hplace
  have hcount : v.cycleCount = v'.cycleCount := congrArg FileData.leopCycleCount hv
  have hsound' : v.Sound := by
    rw [← invalidCode_toFile, hv]
    exact (invalidCode_toFile v').2 hsound
  refine ⟨hkept, fun _ => sending_snoc h _, _, _, hfiled, ⟨hunset, hunread, ?_⟩, ?_⟩
  · rw [hcount]
    exact Nat.le_refl _
  · exact ⟨congrArg some hv.symm, hsound', hfresh, congrArg FileData.place hv.symm⟩

/-- There is no record, and the plan begins at its beginning. -/
theorem refused_resumes {c : InvalidCode} {v : Vars} (hs : Booting (Found none) s h)
    (hunset : v.completeRequested = false) :
    Here true (fun p _ r w _ => p = .waiting initialWaitSec.toNat ∧ r = none ∧ w = v)
      { s with vars := v } (h ++ [.refused c]) := by
  obtain ⟨hr, -, hplace, -, hunread, hfound⟩ := hs
  obtain ⟨r, hfound', hsuits⟩ := hr.found hplace
  obtain rfl := hfound.1.unique hfound'.1
  have hsaved : (ledger.of h).saved = none := by
    rcases hsaved : (ledger.of h).saved with _ | d
    · rfl
    · rcases hsuits.known d hsaved with hsome | ⟨-, hsome⟩
      · exact absurd hsome (Option.some_ne_none d).symm
      · exact absurd rfl hsome
  have hnote : ledger.of (h ++ [.refused c]) =
      { ledger.of h with place := some (.waiting initialWaitSec.toNat) } := by
    have hrefused : (ledger.of h).note (.refused c) =
        { ledger.of h with
          place := (ledger.of h).place.bind (Place.load (.waiting initialWaitSec.toNat)) } := rfl
    rw [hplace] at hrefused
    exact (ledger.of_snoc h _).trans hrefused
  have hfiled : Filed s.files (ledger.of (h ++ [.refused c])) (.waiting initialWaitSec.toNat)
      none := by
    rw [hnote]
    exact ⟨rfl, Place.noConfusion, hsaved, hfound.1, hfound.2⟩
  have hrises : Rises h (.refused c) := by
    rw [Rises, hnote]
    exact Nat.le_refl _
  have hkept : Resuming s.files (h ++ [.refused c]) := by
    refine .of_filed (hr.restarts.snoc ⟨fun _ _ heq => Event.noConfusion heq, fun _ => hsaved⟩)
      (hr.rises.snoc hrises) hfiled ⟨Nat.le_refl _, Or.inl fresh_none⟩ (Nat.zero_le _) ?_
    rw [hnote]
    exact hsuits.starting hplace
  exact ⟨hkept, fun _ => sending_snoc h _, _, _, hfiled, ⟨hunset, hunread, Nat.zero_le _⟩,
    rfl, rfl, rfl⟩

/-- The defaults of a boot without a record. -/
def Defaulted : Knowledge := fun p _ _ v _ =>
  p = .waiting initialWaitSec.toNat ∧ v.state = .initialWait ∧ v.cycleCount = 0 ∧
    v.waitElapsedSec = 0

theorem savable_defaulted : Savable Defaulted := by
  rintro p n r v l - - ⟨rfl, hst, hcount, helapsed⟩
  refine ⟨?_, Nat.zero_le _, Or.inl (fresh_toFile (hst ▸ by decide) (hst ▸ by decide))⟩
  rw [Vars.Sound, hst, hcount, helapsed]
  decide

theorem restored_of_defaulted {p : Place} {n : Nat} {v : Vars} {l : Locals}
    (h : Defaulted p n r v l) : Restored p n (some v.toFile) v l := by
  obtain ⟨rfl, hst, hcount, helapsed⟩ := h
  refine ⟨rfl, ?_, fresh_toFile (hst ▸ by decide) (hst ▸ by decide), ?_⟩
  · rw [Vars.Sound, hst, hcount, helapsed]
    decide
  · rw [FileData.place, toFile_leopState, LeopState.ofByte_toByte, hst, Option.getD_some,
      toFile_leopWaitElapsedSec, helapsed]
    rfl

/-- **The defaults** are saved. -/
theorem applyDefaults_resumes (code : State → InvalidCode) :
    Triple resumeTerms (Booting (Found none)) (applyDefaults code) X Y
      (fun s h => Here true Restored s h ∧ s.failed = false) := by
  refine .seq defaults_alone <|
    .seq (M := Here true Defaulted) (.does (stable_alone _) ?_) <|
    .seq (save_at rfl savable_defaulted fun _ _ _ _ _ => restored_of_defaulted) <|
    .seq (.set (stable_alone _) ?_) (.ret (stable_alone _))
  · rintro s h i ⟨hr, s₀, hs, rfl⟩ -
    have hs' : Booting (Found none) s₀ h := ⟨hr, hs⟩
    have hset := refused_resumes (c := code { s₀ with vars := s₀.vars.defaults })
      (v := s₀.vars.defaults) hs' hs.2.2.1
    refine ⟨hset.1, hset.imp fun p n r _ hknow => ?_⟩
    exact ⟨hknow.1, rfl, rfl, rfl⟩
  · rintro s h ⟨hs, hok⟩
    have hkept : Here true Restored (s.returns (s.saving .process).status) h :=
      hs.change rfl fun p n r hgoing hknow =>
        ⟨⟨hgoing.unset, hgoing.unread, hgoing.count⟩, hknow⟩
    exact ⟨hkept.1, hkept, hok⟩

/-- **Loading** leads to the place of the record. -/
theorem loadState_resumes : Triple resumeTerms (Booting fun _ => True) loadState
    (fun s h => Here true Restored s h ∧ s.failed = false) X Y := by
  have houtline : LoadOutline resumeTerms (Booting fun _ => True) (fun _ _ => False)
      (Booting WholeOr) (Booting (Found none))
      (Booting fun s => Found (some s.locals.fileData) s)
      (fun s h => Here true Restored s h ∧ s.failed = false) := by
    refine {
      stableA := stable_alone _
      stableE := stable_alone _
      stableR := stable_alone _
      stableD := stable_alone _
      stableV := stable_alone _
      stableQ := stable_alone _
      mine := fun _ _ _ _ hr => hr.elim
      locks := ?locks
      opens := ?opens
      goesOn := fun s h hs => ⟨hs.1, hs.1, hs.2⟩
      fails := fun s h i handle hs hi hne => absurd (hi.1 hs.2.1).1 hne
      reads := ?reads
      readFails := ?readFails
      leaves := ?leaves
      quits := fun _ _ hf => hf.elim
      short := ?short
      invalid := ?invalid
      valid := ?valid
      defaults := fun code X Y => applyDefaults_resumes code
      copies := ?copies }
    case locks =>
      rintro s h hs - s' rfl
      have hkept := hs.still (t := State.returns
        { s with files := { s.files with fileMutex := some .process } } success) (e := .loading)
        (fun _ => rfl) rfl (.plain (fun _ _ => Event.noConfusion) id) rfl rfl rfl rfl
      exact ⟨hkept.1, hkept⟩
    case opens =>
      rintro s h hs - s' rfl
      have hr := hs.1.create (some .data)
      exact ⟨hr, hr, hs.2⟩
    case reads =>
      intro s h i bytes hs hi hbytes
      obtain ⟨hr, hquiet, hplace, hflags⟩ := hs
      have hall : bytes = (s.files.disk.data.getD []).take fileDataLayout.size := by
        rw [hbytes, List.take_of_length_le]
        exact Nat.le_trans (List.length_take_le _ _) (hi.1 hquiet).2
      refine ⟨fun _ => ?_, fun hne => absurd hall hne⟩
      obtain ⟨r, hfound, -⟩ := hr.found hplace
      exact ⟨hr, hr, hquiet, hplace, hflags.1, hflags.2.1, wholeOr_reads hfound hall⟩
    case readFails =>
      intro s h i hs hi hneg
      rw [(hi.1 hs.2.1).1] at hneg
      exact absurd hneg (by decide)
    case leaves =>
      rintro s h handle mutex (hf | hs) - s' rfl
      · exact hf.elim
      · have hr : Resuming { s.files with dataHandle := handle, fileMutex := mutex } h :=
          hs.1.disk rfl rfl
        exact ⟨hr, fun hf => hf.elim, fun hs => ⟨hr, hs.2⟩⟩
    case short =>
      rintro s h ⟨hr, hquiet, hplace, hunset, hunread, r, hfound, hsome, -⟩ hne
      rcases r with _ | d
      · exact ⟨hr, hquiet, hplace, hunset, hunread, hfound⟩
      · exact absurd (hsome d rfl).1 hne
    case invalid =>
      rintro s h ⟨hr, hquiet, hplace, hunset, hunread, r, hfound, hsome, hnone⟩ heq hinvalid
      rcases r with _ | d
      · exact absurd heq (hnone rfl)
      · obtain ⟨v, hv, rfl⟩ := hfound.1.sound
        rw [(hsome _ rfl).2] at hinvalid
        exact absurd ((invalidCode_toFile v).2 hv) hinvalid
    case valid =>
      rintro s h ⟨hr, hquiet, hplace, hunset, hunread, r, hfound, hsome, hnone⟩ heq -
      rcases r with _ | d
      · exact absurd heq (hnone rfl)
      · obtain rfl := (hsome d rfl).2
        exact ⟨hr, hquiet, hplace, hunset, hunread, hfound⟩
    case copies =>
      refine .seq copy_alone <| .does (stable_alone _) ?_
      rintro s h i ⟨hr, s₀, complete, remaining, hs, rfl⟩ -
      have hs' : Booting (Found (some s₀.locals.fileData)) s₀ h := ⟨hr, hs⟩
      obtain ⟨v, -, hv⟩ := hs.2.2.2.2.1.sound
      have hrestored : (s₀.vars.restored s₀.locals.fileData complete remaining).toFile =
          s₀.locals.fileData := by
        rw [← hv]
        exact toFile_of_loaded rfl rfl rfl
      have hloaded := restored_resumes hs' hrestored hs.2.2.1
      exact ⟨hloaded.1, hloaded, decide_eq_false (not_not.2 rfl)⟩
  exact houtline.triple

end Loading

/-! ## The whole sequence -/

section Process

variable {quiet : Bool} {X Y : Assertion State Event} {v : Vars} {l : Locals} {p : Place}
  {r : Option FileData} {n : Nat}

/-- The places of records from which it may go on. -/
theorem place_initialWait (hst : v.state = .initialWait) :
    v.toFile.place = .waiting (initialWaitSec.toNat - v.waitElapsedSec.toNat) := by
  rw [FileData.place, toFile_leopState, LeopState.ofByte_toByte, hst, Option.getD_some]
  rfl

theorem place_complete (hst : v.state = .complete) : v.toFile.place = .complete := by
  rw [FileData.place, toFile_leopState, LeopState.ofByte_toByte, hst, Option.getD_some]

theorem heads_of_restored (h : Restored p n r v l) (hfirst : v.state ≠ .initialWait)
    (hlast : v.state ≠ .complete) : Heads r v p := by
  obtain ⟨rfl, hsound, hfresh, rfl⟩ := h
  have hne := hfresh _ rfl
  rw [toFile_leopState] at hne
  have hplace : v.state = .burn → v.toFile.place = .ready v.cycleCount.toNat := by
    intro hst
    rw [FileData.place, toFile_leopState, LeopState.ofByte_toByte, hst, Option.getD_some]
    rfl
  rw [Vars.Sound] at hsound
  cases hst : v.state with
  | initialWait => exact absurd hst hfirst
  | burn =>
    rw [hst] at hsound
    refine ⟨hst, hsound.1, ?_, rfl, hfresh⟩
    rw [hplace hst]
    rfl
  | toEnable => exact absurd (by rw [hst]) hne.1
  | postWait => exact absurd (by rw [hst]) hne.2
  | complete => exact absurd hst hlast

/-- The telemetry output is enabled when all is over. -/
theorem finished_resumes : Triple resumeTerms
    (Here quiet fun p n r v l => Restored p n r v l ∧ v.state = .complete)
    (.block [sendCommand .enableTo, .emit .finished, .ret]) X Y (fun _ _ => True) := by
  refine .seq (M := Here false fun p _ _ _ _ => p = .complete)
      (send_at (χ := fun p _ _ _ _ => p = .complete) ?_ ?_ ?_ ?_) <|
    .seq (M := Here true fun p _ _ _ _ => p = .complete) (.emit (stable_alone _) ?_) <|
    .pre (.ret fun _ _ _ _ _ _ => trivial) (stable_alone _) fun _ _ _ => trivial
  · rintro p n r v l - ⟨⟨rfl, -, -, rfl⟩, hst⟩
    rw [place_complete hst]
    exact ⟨_, rfl, .same Place.noConfusion rfl (Or.inl rfl) rfl, rfl⟩
  · exact fun _ _ _ _ _ hknow => hknow
  · exact fun _ _ _ _ _ _ hknow _ => hknow
  · rintro p n r v l status rfl
    exact ⟨_, rfl, .same Place.noConfusion rfl (Or.inl rfl) rfl, rfl⟩
  · intro s h hs
    have hkept : Here true (fun p _ _ _ _ => p = .complete) s (h ++ [.finished]) :=
      hs.step (F := Place.finish) (n := 0) (m := id) (fun _ => rfl) (fun _ => rfl) (fun _ => rfl)
        (.plain (fun _ _ => Event.noConfusion) id) rfl fun p n r _ _ hgoing hknow => by
        subst hknow
        exact ⟨_, rfl, .same Place.noConfusion rfl (Or.inl rfl) rfl, hgoing, rfl⟩
    exact ⟨hkept.1, hkept⟩

/-- The initial wait. -/
def Initial : Constant := fun st count _ => st = .initialWait ∧ count = 0

theorem savable_initial : Savable
    (Left (fun _ => .waiting) Initial fun _ v _ _ => v.waitElapsedSec ≤ initialWaitSec) := by
  rintro p n r v l - - ⟨⟨hst, hcount⟩, m, rfl, helapsed⟩
  refine ⟨?_, Nat.zero_le _, Or.inl (fresh_toFile (hst ▸ by decide) (hst ▸ by decide))⟩
  rw [Vars.Sound, hst]
  exact ⟨hcount, helapsed⟩

/-- The initial wait is over. -/
def Waited : Knowledge := fun p _ _ v _ =>
  v.state = .initialWait ∧ v.cycleCount = 0 ∧ v.waitElapsedSec = 0 ∧ p = .waiting 0

/-- The first burn comes next. -/
def First : Knowledge := fun p _ _ v _ =>
  v.state = .burn ∧ v.cycleCount = 0 ∧ v.waitElapsedSec = 0 ∧ p = .waiting 0

theorem savable_first : Savable First := by
  rintro p n r v l - - ⟨hst, hcount, helapsed, rfl⟩
  refine ⟨?_, Nat.zero_le _, Or.inl (fresh_toFile (hst ▸ by decide) (hst ▸ by decide))⟩
  rw [Vars.Sound, hst, hcount, helapsed]
  decide

theorem heads_of_first (h : First p n r v l) : Heads (some v.toFile) v p := by
  obtain ⟨hst, hcount, -, rfl⟩ := h
  refine ⟨hst, ?_, ?_, rfl, fresh_toFile (hst ▸ by decide) (hst ▸ by decide)⟩
  · rw [hcount]
    decide
  · rw [hcount]
    rfl

theorem initialWait_resumes : Triple resumeTerms
    (Here quiet fun p n r v l => Restored p n r v l ∧ v.state ≠ .complete)
    (.when (fun s => s.vars.state = .initialWait) (.block [
      wait initialWaitSec,
      test .initialWait,
      .when (fun s => !s.locals.requested) (.block [
        write fun s => { s.vars with state := .burn },
        saveState .process])]))
    (Here false fun p _ r v _ => Heads r v p) X Y := by
  refine .when (M := Here false (Left (fun _ => .waiting) Initial fun _ v _ m =>
      v.waitElapsedSec.toNat + m = initialWaitSec.toNat)) (stable_alone _) (stable_alone _) ?_ ?_ <|
    .seq (wait_at ticking_waiting (by decide) savable_initial) <|
    .seq (M := Here true Waited) (test_at (leads_tested (by decide)) (passes ?_)) <|
    .when (M := Here true Waited) (stable_alone _) (stable_alone _) (fun _ _ hs _ => hs) ?_ <|
    .seq (M := Here true First) (write_at ?_) <|
    .post (save_at (ψ := fun p _ r v _ => Heads r v p) rfl savable_first
      fun _ _ _ _ _ => heads_of_first) fun _ _ hs => hs.1.loosen
  · intro s h hs hb
    refine Here.loosen (hs.imp fun p n r _ hknow => ?_)
    obtain ⟨⟨rfl, hsound, -, rfl⟩, -⟩ := hknow
    have hst : s.vars.state = .initialWait := of_decide_eq_true hb
    rw [Vars.Sound, hst] at hsound
    have hle := UInt32.le_iff_toNat_le.1 hsound.2
    exact ⟨⟨hst, hsound.1⟩, _, place_initialWait hst, by omega⟩
  · intro s h hs hb
    exact Here.loosen (hs.imp fun p n r _ hknow =>
      heads_of_restored hknow.1 (of_decide_eq_false hb) hknow.2)
  · rintro p n r v l ⟨⟨hst, hcount⟩, m, rfl, rfl, helapsed⟩
    exact ⟨hst, hcount, helapsed, rfl⟩
  · intro s h hs hb
    obtain ⟨-, -, p, r, -, hgoing, -⟩ := hs
    rw [hgoing.unread] at hb
    exact absurd hb.symm Bool.false_ne_true
  · rintro s p n r hgoing ⟨-, hcount, helapsed, hp⟩
    exact ⟨⟨hgoing.unset, hgoing.unread, hgoing.count⟩, rfl, hcount, helapsed, hp⟩

/-- Between the cycles. -/
def Looping : Knowledge := fun p _ r v l => (v.cycleCount = l.cycle ∧ Heads r v p) ∨ Ends r v l p

/-- The next cycle, or the end. -/
theorem looping_of_advanced (h : Advanced CycleOver p n r v l) (hr : r = some v.toFile) :
    Looping p n r v { l with cycle := l.cycle + 1 } := by
  obtain ⟨⟨hcount, hlt, hst⟩, -, rfl⟩ := h
  have hsucc := count_succ hcount hlt
  have hten : sequenceRepeatCount.toNat = 10 := rfl
  by_cases hmore : v.cycleCount < sequenceRepeatCount
  · rw [if_pos hmore] at hst
    refine Or.inl ⟨hcount, hst, hmore, ?_, ?_, ?_⟩
    · have hle := lt_repeat hmore
      rw [hsucc] at hle
      rw [Place.issue, if_pos hle, hsucc]
    · rw [hr]
      rfl
    · rw [hr]
      exact fresh_toFile (hst ▸ by decide) (hst ▸ by decide)
  · rw [if_neg hmore] at hst
    rw [UInt8.lt_iff_toNat_lt, hten] at hlt hmore
    have hlast : v.cycleCount = sequenceRepeatCount := by
      rw [← UInt8.toNat_inj, hten]
      omega
    refine Or.inr ⟨hlast, ?_, ?_, ?_, ?_⟩
    · exact hcount.symm.trans hlast
    · have hnine : l.cycle.toNat = 9 := by omega
      rw [hnine]
    · rw [hr]
      exact congrArg UInt8.toNat hlast
    · rw [hr]
      exact fresh_toFile (hst ▸ by decide) (hst ▸ by decide)

theorem testCycle_resumes : Triple resumeTerms (Here true Looping) testCycle
    (Here true Looping) X Y :=
  .when (stable_alone _) (stable_alone _) (fun _ _ hs _ => hs) (fun _ _ hs _ => hs)
    (test_at (leads_tested (by decide)) (passes fun _ _ _ _ _ hknow => hknow))

/-- All is over, and the last record is to be saved. -/
def AllOver : Knowledge := fun p _ _ v l =>
  v.cycleCount = sequenceRepeatCount ∧ v.waitElapsedSec = 0 ∧ l.cycle = sequenceRepeatCount ∧
    p = .resting 9 0

def Closed : Knowledge := fun p n r v l => AllOver p n r v l ∧ v.state = .complete

theorem savable_closed : Savable Closed := by
  rintro p n r v l - - ⟨⟨hcount, helapsed, -, rfl⟩, hst⟩
  refine ⟨?_, ?_, Or.inl (fresh_toFile (hst ▸ by decide) (hst ▸ by decide))⟩
  · rw [Vars.Sound, hst]
    exact ⟨hcount, helapsed⟩
  · show 9 ≤ v.cycleCount.toNat
    rw [hcount]
    decide

/-- **The sequence** follows the plan from the place of the record. -/
theorem process_resumes (detumble : Bool) : Triple resumeTerms (Booting fun _ => True)
    (process detumble) (fun _ _ => True) (fun _ _ => True) (fun _ _ => True) := by
  have htrue : Stable resumeTerms fun _ _ => True := stable_alone _
  refine .call htrue <|
    .seq loadState_resumes <|
    .seq (M := Here true Restored) (.when (M := fun _ _ => False) (stable_alone _)
      (stable_alone _) ?_ (fun _ _ hs _ => hs.1) (.dead fun _ _ hf => hf)) <|
    .seq (M := Here false Restored) (.when (M := Here true Restored) (stable_alone _)
      (stable_alone _) (fun _ _ hs _ => hs) (fun _ _ hs _ => hs.loosen) <|
      .seq (M := Here false Restored) (send_at (χ := Restored) ?_ (fun _ _ _ _ _ hknow => hknow)
        (fun _ _ _ _ _ _ hknow _ => hknow) ?_) <|
      .when (M := Here false Restored) (stable_alone _) (stable_alone _) (fun _ _ hs _ => hs)
        (fun _ _ hs _ => hs) (set_at (fun _ => rfl) ?_)) <|
    .seq (M := Here false fun p n r v l => Restored p n r v l ∧ v.state ≠ .complete)
      (.when (M := Here false fun p n r v l => Restored p n r v l ∧ v.state = .complete)
        (stable_alone _) (stable_alone _) ?_ ?_ finished_resumes) <|
    .seq initialWait_resumes <|
    .seq (M := Here false fun p _ r v l => v.cycleCount = l.cycle ∧ Heads r v p)
      (set_at (fun _ => rfl) ?_) <|
    .seq (M := Here true Looping) (.when (M := Here false Looping) (stable_alone _)
      (stable_alone _) ?_ ?_
      (test_at (leads_tested (by decide)) (passes fun _ _ _ _ _ hknow => hknow))) <|
    .seq (M := Here true fun p _ r v l => Ends r v l p)
      (.loop (M := Here true fun p _ r v l => v.cycleCount = l.cycle ∧ Heads r v p)
        (stable_alone _) ?_
        (.seq cycleBody_at <| .seq (M := Here true Looping) (set_at (fun _ => rfl) ?_)
          testCycle_resumes) ?_ fun _ _ hf => hf.elim) <|
    .seq (M := Here true AllOver) (waitZero_at ?_ ?_ ?_) <|
    .seq (M := Here true AllOver) (set_at (fun _ => rfl) ?_) <|
    .seq (M := Here true AllOver) (write_at ?_) <|
    .seq (M := Here true Closed) (write_at ?_) <|
    .seq (save_at (ψ := fun p _ r v _ => p = .resting 9 0 ∧
      countOf r = sequenceRepeatCount.toNat ∧ Fresh r) rfl savable_closed ?_) <|
    .emit (stable_alone _) ?_
  · rintro s h ⟨-, hok⟩ hfailed
    exact Bool.false_ne_true (hok.symm.trans hfailed)
  · rintro p n r v l - ⟨rfl, hsound, hfresh, rfl⟩
    obtain ⟨-, -, hstarted⟩ := place_of_fresh hsound hfresh
    exact ⟨v.toFile.place, by cases v.toFile.place <;> rfl,
      .same hstarted rfl (Or.inr rfl) rfl, rfl, hsound, hfresh, rfl⟩
  · rintro p n r v l status ⟨rfl, hsound, hfresh, rfl⟩
    obtain ⟨-, -, hstarted⟩ := place_of_fresh hsound hfresh
    exact ⟨v.toFile.place, by cases v.toFile.place <;> rfl,
      .same hstarted rfl (Or.inr rfl) rfl, rfl, hsound, hfresh, rfl⟩
  · exact fun s p n r hgoing hknow => ⟨⟨hgoing.unset, hgoing.unread, hgoing.count⟩, hknow⟩
  · exact fun s h hs hb => hs.imp fun p n r _ hknow => ⟨hknow, of_decide_eq_true hb⟩
  · exact fun s h hs hb => hs.imp fun p n r _ hknow => ⟨hknow, of_decide_eq_false hb⟩
  · exact fun s p n r hgoing hknow => ⟨⟨hgoing.unset, hgoing.unread, hgoing.count⟩, rfl, hknow⟩
  · exact fun s h hs _ => hs.imp fun p n r _ hknow => Or.inl hknow
  · intro s h hs hb
    obtain ⟨-, -, p, r, -, -, hcycle, hheads⟩ := hs
    exact absurd (hcycle ▸ hheads.2.1) (of_decide_eq_false hb)
  · intro s h hs hb
    refine hs.imp fun p n r _ hknow => ?_
    rcases hknow with hknow | hends
    · exact hknow
    · have hlt : s.locals.cycle < sequenceRepeatCount :=
        of_decide_eq_true (Bool.and_eq_true_iff.1 hb).1
      rw [hends.2.1] at hlt
      exact absurd hlt (by decide)
  · rintro s p n r hgoing ⟨hadvanced, hr⟩
    exact ⟨⟨hgoing.unset, hgoing.unread, hgoing.count⟩, looping_of_advanced hadvanced hr⟩
  · intro s h hs hb
    refine hs.imp fun p n r hgoing hknow => ?_
    rcases hknow with ⟨hcycle, hheads⟩ | hends
    · rw [hgoing.unread, Bool.not_false, Bool.and_true] at hb
      exact absurd (hcycle ▸ hheads.2.1) (of_decide_eq_false hb)
    · exact hends
  · rintro p n r s s' ⟨_, _, _, _, rfl⟩ hknow
    exact hknow
  · rintro p n r s s' ⟨_, _, _, _, rfl⟩ hknow
    exact hknow
  · exact fun p n r v l hknow => ⟨hknow.1, rfl, hknow.2.1, hknow.2.2.1⟩
  · exact fun s p n r hgoing hknow => ⟨⟨hgoing.unset, hgoing.unread, hgoing.count⟩, hknow⟩
  · intro s p n r hgoing hknow
    refine ⟨⟨hgoing.unset, hgoing.unread, ?_⟩, rfl, hknow.2⟩
    rw [← hknow.1]
    exact hgoing.count
  · exact fun s p n r hgoing hknow =>
      ⟨⟨hgoing.unset, hgoing.unread, hgoing.count⟩, hknow, rfl⟩
  · rintro p n r v l ⟨⟨hcount, -, -, rfl⟩, hst⟩
    exact ⟨rfl, congrArg UInt8.toNat hcount, fresh_toFile (hst ▸ by decide) (hst ▸ by decide)⟩
  · rintro s h ⟨hs, -⟩
    have hkept : Here true (fun p _ _ _ _ => p = .complete) s (h ++ [.finished]) :=
      hs.step (F := Place.finish) (n := 0) (m := id) (fun _ => rfl) (fun _ => rfl) (fun _ => rfl)
        (.plain (fun _ _ => Event.noConfusion) id) rfl fun p n r _ _ hgoing hknow => by
        obtain ⟨rfl, hcount, hfresh⟩ := hknow
        refine ⟨_, rfl, ⟨Place.noConfusion, fun _ => ⟨Nat.le_of_eq hcount.symm, Or.inl hfresh⟩,
          Nat.le_refl _, fun _ => Nat.le_refl _⟩, hgoing, rfl⟩
    exact ⟨hkept.1, trivial⟩

end Process

/-! ## Runs -/

/-- The sequence is not declared complete, files can be used and the clock goes. -/
def Undisturbed (s : State) (h : List Event) : Program.Sched Task Input → Prop
  | .step .process i => Secondly s h i
  | .step .command _ => False
  | .restart _ => True

/-- A power loss does not leave the record of a cycle whose burn is over. -/
def Spares (s : State) (h : List Event) : Program.Sched Task Input → Prop
  | .restart i =>
    (ledger.of h).place.bind Place.spent ≠ some (s.files.disk.cut (i.status = success)).count
  | _ => True

/-- No file, or a record that is not of a cycle whose burn is over. -/
def Disk.Startable (d : Disk) : Prop := ∃ r, Holds d.data r ∧ Holds d.stable r ∧ Fresh r

instance (s : State) (h : List Event) (i : Input) : Decidable (Secondly s h i) :=
  inferInstanceAs (Decidable (_ ∧ _))

instance (s : State) (h : List Event) (x : Program.Sched Task Input) :
    Decidable (Undisturbed s h x) :=
  match x with
  | .step .process i => inferInstanceAs (Decidable (Secondly s h i))
  | .step .command _ => .isFalse id
  | .restart _ => .isTrue trivial

instance (s : State) (h : List Event) (x : Program.Sched Task Input) :
    Decidable (Spares s h x) :=
  match x with
  | .step _ _ => .isTrue trivial
  | .restart _ => inferInstanceAs (Decidable (_ ≠ _))

section Runs

variable {s : State} {h : List Event} {current : Bool} {disk : Disk}

/-- What a power loss leaves. -/
theorem Disk.cut_holds {r r' : Option FileData} {c : Bool} (hr : Holds disk.data r)
    (hr' : Holds disk.stable r') : Holds (disk.cut c).data (if c then r else r') := by
  cases c with
  | true => exact hr
  | false => exact hr'

/-- **A power loss** leaves a record from which the sequence can go on. -/
theorem Resuming.cut (hs : Resuming s.files h)
    (hspares : (ledger.of h).place.bind Place.spent ≠ some (s.files.disk.cut current).count) :
    Resuming (State.start (s.files.disk.cut current)).files (h ++ [.booted]) ∧
      (ledger.of (h ++ [.booted])).place = some .starting := by
  obtain ⟨p, hp⟩ := hs.place
  obtain ⟨r, r', hr, hr', hsuits, hsuits', -⟩ := hs.files
  have hholds := Disk.cut_holds (c := current) hr hr'
  have hleft : Suits (ledger.of h) (if current then r else r') := by
    cases current with
    | true => exact hsuits
    | false => exact hsuits'
  generalize (if current then r else r') = left at hholds hleft
  rw [hp, Option.bind_some, hholds.count] at hspares
  have hfits := hleft.fits p hp
  have hfresh : Fresh left := hfits.fresh.resolve_right hspares
  have hnote : ledger.of (h ++ [.booted]) =
      { ledger.of h with
        place := some .starting
        interrupted := (ledger.of h).interrupted + if p.inBurn then 1 else 0 } := by
    have hbooted : (ledger.of h).note .booted =
        { ledger.of h with
          place := (ledger.of h).place.map fun _ => .starting
          interrupted := (ledger.of h).interrupted +
            if (ledger.of h).place.any Place.inBurn then 1 else 0 } := rfl
    rw [hp] at hbooted
    exact (ledger.of_snoc h _).trans hbooted
  have hburns : (ledger.of h).burns ≤
      countOf left + ((ledger.of h).interrupted + if p.inBurn then 1 else 0) := by
    by_cases hstart : p = .starting
    · have hle := hleft.starting (hstart ▸ hp)
      omega
    · have hle := (hs.within p hp hstart).2
      have hnext := p.next_le
      have hcycle := hfits.cycle
      by_cases hspent : p.spent = none
      · rw [if_pos hspent] at hnext
        omega
      · rw [if_neg hspent] at hnext
        obtain ⟨k, hk⟩ := Option.ne_none_iff_exists'.1 hspent
        have hsame : p.cycle = k := by
          cases p with
          | burnt cycle => exact Option.some.inj hk
          | resting cycle left => exact Option.some.inj hk
          | _ => exact absurd hk (Option.some_ne_none k).symm
        have hne : k ≠ countOf left := fun heq => hspares (hk.trans (congrArg some heq))
        omega
  have hsuits'' : Suits (ledger.of (h ++ [.booted])) left := by
    rw [hnote]
    refine ⟨hleft.known, hleft.rises, fun p' hp' => ?_, fun _ => hburns⟩
    obtain rfl := Option.some.inj hp'
    exact ⟨Nat.zero_le _, Or.inl hfresh⟩
  have hrises : Rises h .booted := by
    rw [Rises, hnote]
    exact Nat.le_refl _
  have hplace : (ledger.of (h ++ [.booted])).place = some .starting := by rw [hnote]
  refine ⟨⟨hs.restarts.snoc (.plain (fun _ _ => Event.noConfusion) id), hs.rises.snoc hrises,
    ⟨_, hplace⟩, ⟨left, left, hholds, hholds, hsuits'', hsuits'', fun _ => rfl⟩,
    fun p' hp' hstart => ?_⟩, hplace⟩
  exact absurd (Option.some.inj (hp'.symm.trans hplace)) hstart

theorem Disk.Startable.resuming (hdisk : disk.Startable) :
    Resuming (State.start disk).files [] := by
  obtain ⟨r, hdata, hstable, hfresh⟩ := hdisk
  have hsuits : Suits (ledger.of []) r := by
    refine ⟨fun d hd => absurd hd (Option.some_ne_none d).symm, Nat.zero_le _, fun p hp => ?_,
      fun _ => Nat.zero_le _⟩
    obtain rfl := Option.some.inj hp
    exact ⟨Nat.zero_le _, Or.inl hfresh⟩
  exact ⟨Each.nil _, Each.nil _, ⟨_, rfl⟩, ⟨r, r, hdata, hstable, hsuits, hsuits, fun _ => rfl⟩,
    fun p hp hstart => absurd (Option.some.inj hp).symm hstart⟩

end Runs

/-- **LEOP resumes where it stopped**, over any number of power losses at any points, none of which
leaves the record of a cycle whose burn is over: every boot goes on in the plan at the place of the
last record, the cycle count that is saved does not decrease, and no burn is repeated but those that
were interrupted. -/
theorem leop_resumes (detumble : Bool) {disk : Disk} (hdisk : disk.Startable)
    {xs : List (Program.Sched Task Input)}
    (hxs : (leop detumble).Meets (fun s h x => Undisturbed s h x ∧ Spares s h x)
      (State.start disk) xs) : Resumes (events detumble disk xs) := by
  refine Resuming.resumes (f := (after detumble disk xs).files) ?_
  refine Program.System.invariant (I := fun s h => Resuming s.files h)
    (childOnly Secondly Resuming) (ofChild (Booting fun _ => True)) ?_ ?_ ?_ ?_ hdisk.resuming ?_
    xs hxs
  · intro t s h i _ hok
    cases t with
    | process => exact hok.1
    | command => exact hok.1
  · intro t
    cases t with
    | process => exact process_resumes detumble
    | command => exact .idle (fun _ _ _ _ _ _ => trivial) fun _ _ _ => id
  · intro t s h s' h' _ hguar
    cases t with
    | process =>
      refine ⟨hguar, fun t' ht' => ?_⟩
      cases t' with
      | process => exact absurd rfl ht'
      | command => trivial
    | command => exact hguar.elim
  · intro s h i hs hok
    obtain ⟨hcut, hplace⟩ := hs.cut hok.2
    refine ⟨hcut, fun t => ?_⟩
    cases t with
    | process => exact ⟨hcut, sending_snoc h _, hplace, rfl, rfl, trivial⟩
    | command => trivial
  · intro t
    cases t with
    | process => exact ⟨hdisk.resuming, rfl, rfl, rfl, rfl, trivial⟩
    | command => trivial

/-- A power loss in the middle of a burn. -/
def cutInBurn : List (Program.Sched Task Input) :=
  List.replicate 120 (stepAt 0 success) ++ .restart ⟨success, ⟨0, 0⟩, 0⟩ ::
    List.replicate 120 (stepAt 0 success)

theorem startable_burnDisk : burnDisk.Startable := by
  have hsound : ({ Vars.zero with state := .burn } : Vars).Sound := ⟨by decide, by decide⟩
  exact ⟨_, .record _ hsound, .record _ hsound,
    fresh_toFile (v := { Vars.zero with state := .burn }) (by decide) (by decide)⟩

theorem cutInBurn_resumes : Resumes (events false burnDisk cutInBurn) :=
  leop_resumes false startable_burnDisk
    (Program.System.meets_of_from _ (by decide +kernel))

/-- The disk five seconds into the wait after the first burn. -/
def restDisk : Disk :=
  have record := fileDataLayout.bytes
    { Vars.zero with state := .postWait, waitElapsedSec := 5 }.toFile
  ⟨some record, none, some record⟩

/-- The wait after a burn is not resumed: the burn is repeated. -/
theorem burn_repeated : ¬ ∀ (detumble : Bool) (disk : Disk) (xs : List (Program.Sched Task Input)),
    (∃ r, Holds disk.data r ∧ Holds disk.stable r) →
    (leop detumble).Meets Undisturbed (State.start disk) xs →
    Resumes (events detumble disk xs) := by
  intro hall
  have hsound : ({ Vars.zero with state := .postWait, waitElapsedSec := 5 } : Vars).Sound :=
    ⟨by decide, by decide⟩
  have hresumes := hall false restDisk (List.replicate 120 (stepAt 0 success))
    ⟨_, .record _ hsound, .record _ hsound⟩
    (Program.System.meets_of_from _ (by decide +kernel))
  exact hresumes.follows (by decide +kernel)

end Leop
end FlightApps
