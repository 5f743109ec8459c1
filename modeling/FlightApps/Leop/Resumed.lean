import FlightApps.Leop.Durable
import FlightApps.Leop.Plan

/-!
# Going on after a power loss

`Resuming` ties the plan to the files: the record that a power loss leaves is never behind the place
in the plan, and it says that a burn is over only when that burn is over.  A start goes on at the
place of the record, if this is not one of a cycle whose burn is over (`Spares`).

The loop of `MISSION_LEOP_Process` begins with the burn.  A record that was saved in the rest of a
cycle is therefore no place to go on from: the burn is repeated.
-/

set_option autoImplicit false

namespace FlightApps
namespace Leop

open Program (Terms Assertion Stable Triple)

/-! ## What a file holds -/

/-- Nothing, or a record of sound data. -/
inductive Holds : Option (List UInt8) → Option FileData → Prop
  | absent : Holds none none
  | empty : Holds (some []) none
  | record (v : Vars) (hv : v.Sound) : Holds (some (fileDataLayout.bytes v.toFile)) (some v.toFile)

/-- The cycle count of a record, if there is one. -/
def countOf (r : Option FileData) : Nat := r.elim 0 fun d => d.leopCycleCount.toNat

/-- The record is not of a cycle whose burn is over. -/
def Fresh (r : Option FileData) : Prop := ∀ d, r = some d →
  d.leopState ≠ LeopState.toEnable.toByte ∧ d.leopState ≠ LeopState.postWait.toByte

/-- The cycle count in the data file. -/
def Disk.count (d : Disk) : Nat :=
  d.data.elim 0 fun bytes => (fileDataLayout.read bytes).leopCycleCount.toNat

section Holds

variable {file : Option (List UInt8)} {r r' : Option FileData} {d : FileData}

theorem Holds.unique (h : Holds file r) (h' : Holds file r') : r = r' := by
  have hne : ∀ d : FileData, [] ≠ fileDataLayout.bytes d := by
    intro d heq
    have hlength := length_bytes d
    rw [← heq] at hlength
    exact absurd hlength (by decide)
  have hread : ∀ d d' : FileData, fileDataLayout.bytes d = fileDataLayout.bytes d' → d = d' := by
    intro d d' heq
    rw [← read_bytes d, heq, read_bytes]
  generalize hfile : file = file' at h'
  cases h with
  | absent =>
    cases h' with
    | absent => rfl
    | empty => exact absurd hfile (Option.some_ne_none _).symm
    | record v => exact absurd hfile (Option.some_ne_none _).symm
  | empty =>
    cases h' with
    | absent => rfl
    | empty => rfl
    | record v => exact absurd (Option.some.inj hfile) (hne _)
  | record v =>
    cases h' with
    | absent => exact absurd hfile (Option.some_ne_none _)
    | empty => exact absurd (Option.some.inj hfile).symm (hne _)
    | record v' => exact congrArg some (hread _ _ (Option.some.inj hfile))

theorem Holds.sound (h : Holds file (some d)) : ∃ v : Vars, v.Sound ∧ v.toFile = d := by
  cases h with
  | record v hv => exact ⟨v, hv, rfl⟩

theorem Vars.Sound.count_le {v : Vars} (hv : v.Sound) :
    v.cycleCount.toNat ≤ sequenceRepeatCount.toNat := by
  rw [Vars.Sound] at hv
  split at hv
  · rw [hv.1]
    exact Nat.zero_le _
  · rw [hv.1]
  · exact Nat.le_of_lt (UInt8.lt_iff_toNat_lt.1 hv.1)

theorem Holds.count_le (h : Holds file r) : countOf r ≤ sequenceRepeatCount.toNat := by
  cases h with
  | absent => exact Nat.zero_le _
  | empty => exact Nat.zero_le _
  | record v hv => exact hv.count_le

/-- The file is read, if it is there, and made, if it is not. -/
theorem Holds.getD (h : Holds file r) : Holds (some (file.getD [])) r := by
  cases h with
  | absent => exact .empty
  | empty => exact .empty
  | record v hv => exact .record v hv

theorem Holds.count {disk : Disk} (h : Holds disk.data r) : disk.count = countOf r := by
  rw [Disk.count]
  generalize disk.data = file at h
  cases h with
  | absent => rfl
  | empty => decide
  | record v => exact congrArg (fun d : FileData => d.leopCycleCount.toNat) (read_bytes v.toFile)

theorem fresh_none : Fresh none := fun _ h => absurd h.symm (Option.some_ne_none _)

/-- The place of a record that is fresh is its cycle, and the burn of that is yet to come. -/
theorem place_of_fresh {v : Vars} (hv : v.Sound) (hfresh : Fresh (some v.toFile)) :
    v.toFile.place.cycle = v.cycleCount.toNat ∧ v.toFile.place.next = v.cycleCount.toNat ∧
      v.toFile.place ≠ .starting := by
  have hne := hfresh _ rfl
  rw [toFile_leopState] at hne
  rw [Vars.Sound] at hv
  rw [FileData.place, toFile_leopState, LeopState.ofByte_toByte, Option.getD_some]
  cases hst : v.state with
  | initialWait =>
    rw [hst] at hv
    rw [hv.1]
    exact ⟨rfl, rfl, Place.noConfusion⟩
  | burn => exact ⟨rfl, rfl, Place.noConfusion⟩
  | toEnable => exact absurd (by rw [hst]) hne.1
  | postWait => exact absurd (by rw [hst]) hne.2
  | complete =>
    rw [hst] at hv
    rw [hv.1]
    exact ⟨rfl, rfl, Place.noConfusion⟩

end Holds

/-! ## The plan and the files -/

/-- A place goes with a record from which a start may go on. -/
structure Place.Fits (p : Place) (r : Option FileData) : Prop where
  cycle : p.cycle ≤ countOf r
  fresh : Fresh r ∨ p.spent = some (countOf r)

/-- A record that a power loss may leave. -/
structure Suits (g : Ledger) (r : Option FileData) : Prop where
  known : ∀ d, g.saved = some d → r = some d ∨ (r = g.copied ∧ r ≠ none)
  rises : countOf g.saved ≤ countOf r
  fits : ∀ p, g.place = some p → p.Fits r
  /-- What a start loses is made up for by an interruption. -/
  starting : g.place = some .starting → g.burns ≤ countOf r + g.interrupted

/-- **What holds at all times.** -/
structure Resuming (f : Files) (h : List Event) : Prop where
  restarts : Each Restarts h
  rises : Each Rises h
  place : ∃ p, (ledger.of h).place = some p
  files : ∃ r r', Holds f.disk.data r ∧ Holds f.disk.stable r' ∧ Suits (ledger.of h) r ∧
    Suits (ledger.of h) r' ∧ ((ledger.of h).place = some .starting → r = r')
  within : ∀ p, (ledger.of h).place = some p → p ≠ .starting →
    p.next ≤ sequenceRepeatCount.toNat ∧ (ledger.of h).burns ≤ p.next + (ledger.of h).interrupted

/-- Both files are the last record. -/
structure Filed (f : Files) (g : Ledger) (p : Place) (r : Option FileData) : Prop where
  place : g.place = some p
  started : p ≠ .starting
  saved : g.saved = r
  data : Holds f.disk.data r
  stable : Holds f.disk.stable r

section Resuming

variable {f f' : Files} {h : List Event} {e : Event} {g : Ledger} {p p' : Place}
  {r : Option FileData}

/-- The sequence goes on where it stopped. -/
theorem Resuming.resumes (hs : Resuming f h) : Resumes h where
  follows := by
    obtain ⟨p, hp⟩ := hs.place
    rw [hp]
    exact Option.some_ne_none p
  restarts := hs.restarts
  rises := hs.rises
  bounded := by
    obtain ⟨p, hp⟩ := hs.place
    by_cases hstart : p = .starting
    · obtain ⟨r, _, hr, -, hsuits, -, -⟩ := hs.files
      have hburns := hsuits.starting (hstart ▸ hp)
      have hcount := hr.count_le
      omega
    · obtain ⟨hnext, hburns⟩ := hs.within p hp hstart
      omega

/-- The invariant, when both files are the last record. -/
theorem Resuming.of_filed (hrestarts : Each Restarts h) (hrises : Each Rises h)
    (hf : Filed f (ledger.of h) p r) (hfits : p.Fits r)
    (hnext : p.next ≤ sequenceRepeatCount.toNat)
    (hburns : (ledger.of h).burns ≤ p.next + (ledger.of h).interrupted) : Resuming f h := by
  have hplace : ∀ p', (ledger.of h).place = some p' → p' = p :=
    fun p' hp' => Option.some.inj (hp'.symm.trans hf.place)
  have hsuits : Suits (ledger.of h) r :=
    { known := fun d hd => Or.inl (hf.saved.symm.trans hd)
      rises := Nat.le_of_eq (congrArg countOf hf.saved)
      fits := fun p' hp' => hplace p' hp' ▸ hfits
      starting := fun hp' => absurd (hplace _ hp').symm hf.started }
  refine ⟨hrestarts, hrises, ⟨p, hf.place⟩, ⟨r, r, hf.data, hf.stable, hsuits, hsuits,
    fun _ => rfl⟩, fun p' hp' _ => ?_⟩
  rw [hplace p' hp']
  exact ⟨hnext, hburns⟩

/-- What the record says of the place. -/
theorem Resuming.fits (hs : Resuming f h) (hf : Filed f (ledger.of h) p r) : p.Fits r := by
  obtain ⟨r', _, hr', -, hsuits, -, -⟩ := hs.files
  rw [hf.data.unique hr']
  exact hsuits.fits p hf.place

/-- Only the disk matters. -/
theorem Resuming.disk (hs : Resuming f h) (hdata : f'.disk.data = f.disk.data)
    (hstable : f'.disk.stable = f.disk.stable) : Resuming f' h := by
  obtain ⟨r, r', hr, hr', hfiles⟩ := hs.files
  exact ⟨hs.restarts, hs.rises, hs.place, ⟨r, r', hdata ▸ hr, hstable ▸ hr', hfiles⟩, hs.within⟩

theorem Filed.disk (hf : Filed f g p r) (hdata : f'.disk.data = f.disk.data)
    (hstable : f'.disk.stable = f.disk.stable) : Filed f' g p r :=
  ⟨hf.place, hf.started, hf.saved, hdata ▸ hf.data, hstable ▸ hf.stable⟩

/-- An event that leaves the ledger as it is. -/
theorem Resuming.still (hs : Resuming f h) (hnote : (ledger.of h).note e = ledger.of h)
    (hrestarts : Restarts h e) : Resuming f (h ++ [e]) := by
  have hsame : ledger.of (h ++ [e]) = ledger.of h := (ledger.of_snoc h e).trans hnote
  have hrises : Rises h e := by
    rw [Rises, hsame]
  refine ⟨hs.restarts.snoc hrestarts, hs.rises.snoc hrises, ?_, ?_, ?_⟩
  · rw [hsame]
    exact hs.place
  · rw [hsame]
    exact hs.files
  · rw [hsame]
    exact hs.within

/-- Events that do not restart anything. -/
theorem Restarts.plain (hloaded : ∀ d v, e ≠ .loaded d v) (hdefaults : ¬ e.Defaults) :
    Restarts h e := ⟨fun d v he => absurd he (hloaded d v), fun he => absurd he hdefaults⟩

/-- An event that leads from place to place. -/
def Event.Leads (e : Event) (F : Place → Option Place) (n : Nat) : Prop :=
  ∀ g : Ledger, g.note e = { g with place := g.place.bind F, burns := g.burns + n }

/-- **A step of the plan.** -/
theorem Resuming.step {F : Place → Option Place} {n : Nat} (hs : Resuming f h)
    (hf : Filed f (ledger.of h) p r) (he : e.Leads F n) (hrestarts : Restarts h e)
    (hF : F p = some p') (hstarted : p' ≠ .starting) (hfits : p.Fits r → p'.Fits r)
    (hnext : p.next + n ≤ p'.next)
    (hlast : p.next ≤ sequenceRepeatCount.toNat → p'.next ≤ sequenceRepeatCount.toNat) :
    Resuming f (h ++ [e]) ∧ Filed f (ledger.of (h ++ [e])) p' r := by
  have hnote : ledger.of (h ++ [e]) =
      { ledger.of h with place := some p', burns := (ledger.of h).burns + n } := by
    rw [ledger.of_snoc]
    refine (he (ledger.of h)).trans ?_
    rw [hf.place, Option.bind_some, hF]
  have hrises : Rises h e := by
    rw [Rises, hnote]
    exact Nat.le_refl _
  have hfiled : Filed f (ledger.of (h ++ [e])) p' r := by
    rw [hnote]
    exact ⟨rfl, hstarted, hf.saved, hf.data, hf.stable⟩
  obtain ⟨hle, hburns⟩ := hs.within p hf.place hf.started
  refine ⟨.of_filed (hs.restarts.snoc hrestarts) (hs.rises.snoc hrises) hfiled
    (hfits (hs.fits hf)) (hlast hle) ?_, hfiled⟩
  rw [hnote]
  show (ledger.of h).burns + n ≤ p'.next + (ledger.of h).interrupted
  omega

end Resuming

/-! ## What the calls do -/

def Event.issues : Event → Bool
  | .issuing _ => true
  | _ => false

/-- A command is being sent. -/
def sending (h : List Event) : Bool := h.getLast?.any Event.issues

@[simp] theorem sending_snoc (h : List Event) (e : Event) : sending (h ++ [e]) = e.issues := by
  rw [sending, List.getLast?_concat, Option.any_some]

/-- Every call succeeds but those that send a command, and the clock is a second further after every
delay. -/
def Secondly (s : State) (h : List Event) (i : Input) : Prop :=
  (sending h = false → i.status = success ∧ fileDataLayout.size ≤ i.size) ∧
  ((clock.of h).ticked = true →
    (timeSubtract i.now s.vars.startTime).seconds.toNat = (clock.of h).waited)

abbrev resumeTerms : Terms State Input Event := alone Secondly Resuming

/-- What is known at a point of the program: of the place, the seconds of the current wait, the last
record, the variables and the locals. -/
abbrev Knowledge := Place → Nat → Option FileData → Vars → Locals → Prop

/-- The sequence has not been declared complete, and does not fall behind the file. -/
structure Going (r : Option FileData) (v : Vars) (l : Locals) : Prop where
  unset : v.completeRequested = false
  unread : l.requested = false
  count : countOf r ≤ v.cycleCount.toNat

/-- A point of the program, where no command is being sent if `quiet`. -/
def Here (quiet : Bool) (φ : Knowledge) : Assertion State Event :=
  With Resuming fun s h => (quiet = true → sending h = false) ∧
    ∃ p r, Filed s.files (ledger.of h) p r ∧ Going r s.vars s.locals ∧
      φ p (clock.of h).waited r s.vars s.locals

/-- The plan leads from a place to another one. -/
structure Place.Step (p p' : Place) (r : Option FileData) (n : Nat) : Prop where
  started : p' ≠ .starting
  fits : p.Fits r → p'.Fits r
  next : p.next + n ≤ p'.next
  last : p.next ≤ sequenceRepeatCount.toNat → p'.next ≤ sequenceRepeatCount.toNat

section Here

variable {quiet q : Bool} {φ ψ : Knowledge} {s t : State} {h : List Event} {e : Event}
  {p p' : Place} {r : Option FileData} {X Y : Assertion State Event}

theorem Place.Step.same (hstarted : p' ≠ .starting) (hcycle : p'.cycle = p.cycle)
    (hspent : p.spent = none ∨ p'.spent = p.spent) (hnext : p'.next = p.next) :
    p.Step p' r 0 where
  started := hstarted
  fits hfits := by
    refine ⟨hcycle ▸ hfits.cycle, ?_⟩
    rcases hspent with hspent | hspent
    · have hfresh := hfits.fresh
      rw [hspent] at hfresh
      exact Or.inl (hfresh.resolve_right (Option.some_ne_none _).symm)
    · rw [hspent]
      exact hfits.fresh
  next := Nat.le_of_eq hnext.symm
  last hlast := hnext ▸ hlast

theorem Event.leads_of_still (he : ∀ g : Ledger, g.note e = g) : e.Leads some 0 := by
  intro g
  rw [he]
  rcases g with ⟨place, _⟩
  cases place <;> rfl

/-- Nothing but the variables and the locals changes. -/
theorem Here.change (hs : Here quiet φ s h) (hfiles : t.files = s.files)
    (hψ : ∀ p n r, Going r s.vars s.locals → φ p n r s.vars s.locals →
      Going r t.vars t.locals ∧ ψ p n r t.vars t.locals) : Here quiet ψ t h := by
  obtain ⟨hr, hquiet, p, r, hf, hgoing, hφ⟩ := hs
  obtain ⟨hgoing', hψ'⟩ := hψ p _ r hgoing hφ
  exact ⟨hfiles ▸ hr, hquiet, p, r, hfiles ▸ hf, hgoing', hψ'⟩

/-- **A step of the program** that is one of the plan. -/
theorem Here.step {F : Place → Option Place} {n : Nat} {m : Nat → Nat} (hs : Here quiet φ s h)
    (he : e.Leads F n) (hwaited : ∀ c : Clock, (c.note e).waited = m c.waited)
    (hquiet : q = true → e.issues = false) (hrestarts : Restarts h e)
    (hfiles : t.files = s.files)
    (hψ : ∀ p k r, p ≠ .starting → p.Fits r → Going r s.vars s.locals → φ p k r s.vars s.locals →
      ∃ p', F p = some p' ∧ p.Step p' r n ∧
        Going r t.vars t.locals ∧ ψ p' (m k) r t.vars t.locals) :
    Here q ψ t (h ++ [e]) := by
  obtain ⟨hr, -, p, r, hf, hgoing, hφ⟩ := hs
  obtain ⟨p', hF, hstep, hgoing', hψ'⟩ := hψ p _ r hf.started (hr.fits hf) hgoing hφ
  obtain ⟨hr', hf'⟩ := hr.step hf he hrestarts hF hstep.started hstep.fits hstep.next hstep.last
  refine ⟨hfiles ▸ hr', fun hq => ?_, p', r, hfiles ▸ hf', hgoing', ?_⟩
  · rw [sending_snoc]
    exact hquiet hq
  · rw [clock.of_snoc]
    exact (hwaited (clock.of h)).symm ▸ hψ'

/-- A step that the plan does not mention. -/
theorem Here.still (hs : Here quiet φ s h) (he : ∀ g : Ledger, g.note e = g)
    (hwaited : ∀ c : Clock, (c.note e).waited = c.waited) (hissues : e.issues = false)
    (hrestarts : Restarts h e) (hfiles : t.files = s.files)
    (hψ : ∀ p k r, Going r s.vars s.locals → φ p k r s.vars s.locals →
      Going r t.vars t.locals ∧ ψ p k r t.vars t.locals) : Here true ψ t (h ++ [e]) := by
  refine hs.step (m := id) (Event.leads_of_still he) hwaited (fun _ => hissues) hrestarts hfiles
    fun p k r hstarted _ hgoing hφ => ⟨p, rfl, ?_, hψ p k r hgoing hφ⟩
  exact .same hstarted rfl (Or.inr rfl) rfl

/-- An assignment. -/
theorem set_at {f : State → State} (hfiles : ∀ s, (f s).files = s.files)
    (hψ : ∀ s p n r, Going r s.vars s.locals → φ p n r s.vars s.locals →
      Going r (f s).vars (f s).locals ∧ ψ p n r (f s).vars (f s).locals) :
    Triple resumeTerms (Here quiet φ) (.set f) (Here quiet ψ) X Y := by
  refine .set (stable_alone _) fun s h hs => ?_
  have hchanged : Here quiet ψ (f s) h := hs.change (hfiles s) (hψ s)
  exact ⟨hchanged.1, hchanged⟩

/-- An assignment that can be seen. -/
theorem write_at {f : State → Vars}
    (hψ : ∀ s p n r, Going r s.vars s.locals → φ p n r s.vars s.locals →
      Going r (f s) s.locals ∧ ψ p n r (f s) s.locals) :
    Triple resumeTerms (Here quiet φ) (write f) (Here true ψ) X Y := by
  refine .does (stable_alone _) fun s h i hs _ => ?_
  have hchanged : Here true ψ { s with vars := f s } (h ++ [.wrote]) :=
    hs.still (fun _ => rfl) (fun _ => rfl) rfl (.plain (fun _ _ => Event.noConfusion) id) rfl (hψ s)
  exact ⟨hchanged.1, hchanged⟩

theorem Here.imp (hs : Here quiet φ s h)
    (hψ : ∀ p n r, Going r s.vars s.locals → φ p n r s.vars s.locals → ψ p n r s.vars s.locals) :
    Here quiet ψ s h := hs.change rfl fun p n r hgoing hφ => ⟨hgoing, hψ p n r hgoing hφ⟩

end Here

/-! ## Saving -/

/-- A copy has been made, and may have taken the place of the last record. -/
structure Midway (f : Files) (g : Ledger) (p : Place) (r : Option FileData) (d : FileData) :
    Prop where
  place : g.place = some p
  started : p ≠ .starting
  saved : g.saved = r
  copied : g.copied = some d
  data : Holds f.disk.data r ∨ Holds f.disk.data (some d)
  stable : Holds f.disk.stable r

/-- The runtime data are being saved. -/
def Copying (φ : Knowledge) : Assertion State Event :=
  With Resuming fun s h => sending h = false ∧
    (s.saving .process).fileData = s.vars.toFile ∧
    ∃ p r, Midway s.files (ledger.of h) p r s.vars.toFile ∧ Going r s.vars s.locals ∧
      φ p (clock.of h).waited r s.vars s.locals

/-- The data may be saved here. -/
def Savable (φ : Knowledge) : Prop := ∀ p n r v l, p.Fits r → Going r v l → φ p n r v l →
  v.Sound ∧ p.Fits (some v.toFile)

section Saving

variable {f f' : Files} {h : List Event} {g : Ledger} {p : Place} {r : Option FileData}
  {d : FileData} {c : Caller} {φ ψ : Knowledge} {s s' : State} {X Y : Assertion State Event}

theorem note_snapshot (g : Ledger) (d : FileData) (hc : c.task = .process) :
    g.note (.snapshot c d) = { g with copied := some d } := by
  cases c with
  | request => exact absurd hc (by decide)
  | _ => rfl

theorem note_synced (g : Ledger) (hc : c.task = .process) :
    g.note (.synced c) = { g with saved := g.copied } := by
  cases c with
  | request => exact absurd hc (by decide)
  | _ => rfl

/-- Saving takes no time. -/
theorem waited_saving (k : Clock) {e : Event} (he : e.OfSaving ∨ e = .synced c) :
    (k.note e).waited = k.waited := by
  cases e with
  | snapshot c d => cases c <;> rfl
  | saving c => cases c <;> rfl
  | notSaved c => cases c <;> rfl
  | renamed c => cases c <;> rfl
  | synced c => cases c <;> rfl
  | _ => exact absurd he (by simp [Event.OfSaving])

theorem Resuming.of_midway (hrestarts : Each Restarts h) (hrises : Each Rises h)
    (hf : Midway f (ledger.of h) p r d) (hfits : p.Fits r) (hfits' : p.Fits (some d))
    (hcount : countOf r ≤ countOf (some d)) (hnext : p.next ≤ sequenceRepeatCount.toNat)
    (hburns : (ledger.of h).burns ≤ p.next + (ledger.of h).interrupted) : Resuming f h := by
  have hplace : ∀ p', (ledger.of h).place = some p' → p' = p :=
    fun p' hp' => Option.some.inj (hp'.symm.trans hf.place)
  have hold : Suits (ledger.of h) r :=
    { known := fun d hd => Or.inl (hf.saved.symm.trans hd)
      rises := Nat.le_of_eq (congrArg countOf hf.saved)
      fits := fun p' hp' => hplace p' hp' ▸ hfits
      starting := fun hp' => absurd (hplace _ hp').symm hf.started }
  have hnew : Suits (ledger.of h) (some d) :=
    { known := fun _ _ => Or.inr ⟨hf.copied.symm, Option.some_ne_none d⟩
      rises := hf.saved ▸ hcount
      fits := fun p' hp' => hplace p' hp' ▸ hfits'
      starting := fun hp' => absurd (hplace _ hp').symm hf.started }
  have hstart : ∀ {q : Prop}, (ledger.of h).place = some .starting → q :=
    fun hp' => absurd (hplace _ hp').symm hf.started
  refine ⟨hrestarts, hrises, ⟨p, hf.place⟩, ?_, fun p' hp' _ => ?_⟩
  · rcases hf.data with hdata | hdata
    · exact ⟨r, r, hdata, hf.stable, hold, hold, hstart⟩
    · exact ⟨some d, r, hdata, hf.stable, hnew, hold, hstart⟩
  · rw [hplace p' hp']
    exact ⟨hnext, hburns⟩

/-- What the record says of the place. -/
theorem Resuming.fits_midway (hs : Resuming f h) (hf : Midway f (ledger.of h) p r d) :
    p.Fits r := by
  obtain ⟨_, r', -, hr', -, hsuits, -⟩ := hs.files
  rw [hf.stable.unique hr']
  exact hsuits.fits p hf.place

/-- Both may be left by a power loss, the copy and the record before. -/
theorem Copying.sound (hs : Copying φ s h) (hφ : Savable φ) :
    s.vars.Sound ∧ ∃ p r, Midway s.files (ledger.of h) p r s.vars.toFile ∧ Going r s.vars s.locals ∧
      p.Fits r ∧ p.Fits (some s.vars.toFile) ∧ φ p (clock.of h).waited r s.vars s.locals := by
  obtain ⟨hr, -, -, p, r, hf, hgoing, hknow⟩ := hs
  have hfits := hr.fits_midway hf
  obtain ⟨hsound, hfits'⟩ := hφ p _ r _ _ hfits hgoing hknow
  exact ⟨hsound, p, r, hf, hgoing, hfits, hfits', hknow⟩

/-- Moves of the files under the mutex. -/
theorem Copying.moves {es : List Event} (hs : Copying φ s h) (hφ : Savable φ)
    (hc : c.task = .process) (hstep : SaveStep c s s' es) : Copying φ s' (h ++ es) := by
  obtain ⟨hsound, p, r, hf, hgoing, hfits, hfits', hknow⟩ := hs.sound hφ
  obtain ⟨hr, hquiet, hdata, -⟩ := hs
  obtain ⟨hnext, hburns⟩ := hr.within p hf.place hf.started
  obtain ⟨f, saving, rfl, -, hsaving, hmove⟩ := hstep
  rw [hc] at hsaving hmove
  rw [hdata] at hsaving hmove
  have hkept : ∀ f' : Files, Midway f' (ledger.of h) p r s.vars.toFile → Resuming f' h :=
    fun f' hf' => .of_midway hr.restarts hr.rises hf' hfits hfits' hgoing.count hnext hburns
  have hevent : ∀ (f' : Files) (e : Event), Midway f' (ledger.of h) p r s.vars.toFile →
      (∀ g : Ledger, g.note e = g) → e.OfSaving → Restarts h e → e.issues = false →
      Copying φ { s with files := f', saving := saving } (h ++ [e]) := by
    intro f' e hf' hnote he hrestarts hissues
    refine ⟨(hkept f' hf').still (hnote _) hrestarts, (sending_snoc h e).trans hissues, hsaving, p,
      r, ?_, hgoing, ?_⟩
    · rw [ledger.of_snoc]
      show Midway f' ((ledger.of h).note e) p r s.vars.toFile
      rw [hnote]
      exact hf'
    · rw [clock.of_snoc]
      exact (waited_saving (c := c) (clock.of h) (Or.inl he)).symm ▸ hknow
  cases hmove with
  | stay =>
    rw [List.append_nil]
    exact ⟨hr, hquiet, hsaving, p, r, hf, hgoing, hknow⟩
  | lock =>
    refine hevent _ (.saving c) ?_ (fun _ => rfl) trivial
      (.plain (fun _ _ => Event.noConfusion) id) rfl
    exact ⟨hf.place, hf.started, hf.saved, hf.copied, hf.data, hf.stable⟩
  | work handle temp =>
    rw [List.append_nil]
    have hf' : Midway { s.files with
        dataHandle := handle
        disk := { s.files.disk with temp := temp } } (ledger.of h) p r s.vars.toFile :=
      ⟨hf.place, hf.started, hf.saved, hf.copied, hf.data, hf.stable⟩
    exact ⟨hkept _ hf', hquiet, hsaving, p, r, hf', hgoing, hknow⟩
  | rename =>
    refine hevent _ (.renamed c) ?_ (fun _ => rfl) trivial
      (.plain (fun _ _ => Event.noConfusion) id) rfl
    exact ⟨hf.place, hf.started, hf.saved, hf.copied, Or.inr (.record _ hsound), hf.stable⟩

/-- No command is being sent, so no call fails. -/
theorem sure_at : AllSure resumeTerms (Here true φ) (Copying φ) (Copying φ) :=
  ⟨fun _ _ _ hs hi => hi.1 (hs.2.1 rfl), fun _ _ _ hs hi => hi.1 hs.2.1,
    fun _ _ _ hs hi => hi.1 hs.2.1⟩

/-- **Saving** at a point where the data may be saved. -/
theorem saving_at (hc : c.task = .process) (hφ : Savable φ)
    (hψ : ∀ p n r v l, φ p n r v l → ψ p n (some v.toFile) v l) :
    SaveOutline resumeTerms c (Here true φ) (Copying φ) (Copying φ)
      (fun s h => Here true ψ s h ∧ s.saveFailed .process = false) := by
  refine {
    stable := stable_alone _
    stable_copied := stable_alone _
    stable_locked := stable_alone _
    stable_synced := stable_alone _
    mine := fun _ _ _ _ hr => hr.elim
    fails := fun hunsure => absurd sure_at hunsure
    copies := fun s h hs => ?_
    lockFails := fun hunsure => absurd sure_at hunsure
    locks := fun s h s' hs _ hstep => ?_
    moves := fun s h s' es hs _ hstep => ?_
    syncs := fun s h hs _ hdata s' hs' => ?_
    givesUp := fun hunsure => absurd sure_at hunsure
    unlocks := fun s h hs _ => ?_ }
  · obtain ⟨hr, -, p, r, hf, hgoing, hknow⟩ := hs
    have hfits := hr.fits hf
    obtain ⟨hsound, hfits'⟩ := hφ p _ r _ _ hfits hgoing hknow
    obtain ⟨hnext, hburns⟩ := hr.within p hf.place hf.started
    have hnote : ledger.of (h ++ [.snapshot c s.vars.toFile]) =
        { ledger.of h with copied := some s.vars.toFile } :=
      (ledger.of_snoc _ _).trans (note_snapshot _ _ hc)
    have hcopied : Midway s.files (ledger.of (h ++ [.snapshot c s.vars.toFile])) p r
        s.vars.toFile := by
      rw [hnote]
      exact ⟨hf.place, hf.started, hf.saved, rfl, Or.inl hf.data, hf.stable⟩
    have hrises : Rises h (.snapshot c s.vars.toFile) := by
      rw [Rises, hnote]
      exact Nat.le_refl _
    have hkept : Resuming s.files (h ++ [.snapshot c s.vars.toFile]) := by
      refine .of_midway (hr.restarts.snoc (.plain (fun _ _ => Event.noConfusion) id))
        (hr.rises.snoc hrises) hcopied hfits hfits' hgoing.count hnext ?_
      rw [hnote]
      exact hburns
    refine ⟨hkept, hkept, sending_snoc h _, ?_, p, r, hcopied, hgoing, ?_⟩
    · show (Function.update s.saving c.task _ .process).fileData = s.vars.toFile
      rw [hc, Function.update_self]
    · have hsaving : Event.OfSaving (.snapshot c s.vars.toFile) := trivial
      rw [clock.of_snoc]
      exact (waited_saving (c := c) (clock.of h) (Or.inl hsaving)).symm ▸ hknow
  · have hmoved := Copying.moves hs hφ hc hstep
    exact ⟨hmoved.1, hmoved⟩
  · have hmoved := Copying.moves hs hφ hc hstep
    exact ⟨hmoved.1, hmoved⟩
  · subst hs'
    obtain ⟨hsound, p, r, hf, hgoing, hfits, hfits', hknow⟩ := hs.sound hφ
    obtain ⟨hr, -, hsaving, -⟩ := hs
    obtain ⟨hnext, hburns⟩ := hr.within p hf.place hf.started
    rw [hc, hsaving] at hdata
    have hnote : ledger.of (h ++ [.synced c]) =
        { ledger.of h with saved := some s.vars.toFile } := by
      rw [ledger.of_snoc, ← hf.copied]
      exact note_synced _ hc
    have hholds : Holds s.files.disk.data (some s.vars.toFile) := hdata ▸ .record _ hsound
    have hfiled : Filed
        { s.files with disk := { s.files.disk with stable := s.files.disk.data } }
        (ledger.of (h ++ [.synced c])) p (some s.vars.toFile) := by
      rw [hnote]
      exact ⟨hf.place, hf.started, rfl, hholds, hholds⟩
    have hrises : Rises h (.synced c) := by
      rw [Rises, hnote]
      show countOf (ledger.of h).saved ≤ countOf (some s.vars.toFile)
      rw [hf.saved]
      exact hgoing.count
    have hkept : Resuming
        { s.files with disk := { s.files.disk with stable := s.files.disk.data } }
        (h ++ [.synced c]) := by
      refine .of_filed (hr.restarts.snoc (.plain (fun _ _ => Event.noConfusion) id))
        (hr.rises.snoc hrises) hfiled hfits' hnext ?_
      rw [hnote]
      exact hburns
    have hok : (s.saves c.task success).saveFailed .process = false := by
      rw [← hc]
      exact saveFailed_saves c.task success
    refine ⟨hkept, ⟨hkept, fun _ => sending_snoc h _, p, _, hfiled,
      ⟨hgoing.unset, hgoing.unread, Nat.le_refl _⟩, ?_⟩, hok⟩
    rw [clock.of_snoc]
    exact (waited_saving (clock.of h) (Or.inr rfl)).symm ▸ hψ _ _ _ _ _ hknow
  · obtain ⟨⟨hr, hquiet, p, r, hf, hgoing, hknow⟩, hok⟩ := hs
    have hkept : Resuming { s.files with fileMutex := none } h := hr.disk rfl rfl
    exact ⟨hkept, ⟨hkept, hquiet, p, r, hf.disk rfl rfl, hgoing, hknow⟩, hok⟩

theorem save_at (hc : c.task = .process) (hφ : Savable φ)
    (hψ : ∀ p n r v l, φ p n r v l → ψ p n (some v.toFile) v l) :
    Triple resumeTerms (Here true φ) (saveState c)
      (fun s h => Here true ψ s h ∧ s.saveFailed .process = false) X Y :=
  (saving_at hc hφ hψ).triple (stable_alone _)
    (fun _ _ _ _ hunsure => absurd sure_at hunsure) fun _ _ hs => hs

end Saving

/-! ## Waiting -/

/-- Places of a cycle at which time passes. -/
structure Ticking (P : Nat → Nat → Place) : Prop where
  tick : ∀ k n, (P k (n + 1)).tick = some (P k n)
  step : ∀ k n r, (P k (n + 1)).Step (P k n) r 0

theorem ticking_waiting : Ticking fun _ => .waiting :=
  ⟨fun _ _ => rfl, fun _ _ _ => .same Place.noConfusion rfl (Or.inl rfl) rfl⟩

theorem ticking_burning : Ticking .burning :=
  ⟨fun _ _ => rfl, fun _ _ _ => .same Place.noConfusion rfl (Or.inl rfl) rfl⟩

theorem ticking_resting : Ticking .resting :=
  ⟨fun _ _ => rfl, fun _ _ _ => .same Place.noConfusion rfl (Or.inr rfl) rfl⟩

/-- What does not change in a wait. -/
abbrev Constant := LeopState → UInt8 → UInt8 → Prop

/-- So many seconds are left. -/
def Left (P : Nat → Nat → Place) (k : Constant) (left : Nat → Vars → Locals → Nat → Prop) :
    Knowledge := fun p n _ v l =>
  k v.state v.cycleCount l.cycle ∧ ∃ m, p = P v.cycleCount.toNat m ∧ left n v l m

section Waiting

variable {P : Nat → Nat → Place} {k : Constant} {w : UInt32} {s s' : State} {h : List Event}
  {quiet : Bool} {left : Nat → Vars → Locals → Nat → Prop} {X Y : Assertion State Event}

theorem calm_here {φ : Knowledge} (hφ : ∀ p n r (s s' : State), Quiet s s' →
    φ p n r s.vars s.locals → φ p n r s'.vars s'.locals) : Calm resumeTerms (Here quiet φ) := by
  refine ⟨stable_alone _, fun s h s' hs hq => ?_⟩
  have hsame : s'.files = s.files ∧ ∀ r, Going r s.vars s.locals → Going r s'.vars s'.locals := by
    obtain ⟨_, _, _, _, rfl⟩ := hq
    exact ⟨rfl, fun r hgoing => ⟨hgoing.unset, hgoing.unread, hgoing.count⟩⟩
  have hkept : Here quiet φ s' h := hs.change hsame.1
    fun p n r hgoing hknow => ⟨hsame.2 r hgoing, hφ p n r s s' hq hknow⟩
  exact ⟨hkept.1, hkept⟩

theorem calm_left (hleft : ∀ n m (s s' : State), Quiet s s' → left n s.vars s.locals m →
    left n s'.vars s'.locals m) : Calm resumeTerms (Here quiet (Left P k left)) := by
  refine calm_here fun p n r s s' hq hknow => ?_
  obtain ⟨hk, m, hp, hm⟩ := hknow
  have hm' := hleft n m s s' hq hm
  obtain ⟨_, _, _, _, rfl⟩ := hq
  exact ⟨hk, m, hp, hm'⟩

theorem Here.loosen {φ : Knowledge} (hs : Here quiet φ s h) : Here false φ s h :=
  ⟨hs.1, fun hq => Bool.noConfusion hq, hs.2.2⟩

theorem Savable.imp {φ ψ : Knowledge} (hψ : Savable ψ)
    (h : ∀ p n r v l, φ p n r v l → ψ p n r v l) :
    Savable φ := fun p n r v l hfits hgoing hφ => hψ p n r v l hfits hgoing (h p n r v l hφ)

/-- **Waiting** takes as many seconds as are left. -/
theorem wait_at (hP : Ticking P) (hw : w ≠ 0)
    (hk : Savable (Left P k fun _ v _ _ => v.waitElapsedSec ≤ w)) :
    Triple resumeTerms
      (Here false (Left P k fun _ v _ m => v.waitElapsedSec.toNat + m = w.toNat)) (wait w)
      (Here false (Left P k fun _ v _ m => m = 0 ∧ v.waitElapsedSec = 0)) X Y := by
  have hlt : w.toNat < 2 ^ 32 := w.toNat_lt
  have hsaveL : Savable (Left P k fun n v l m => v.waitElapsedSec.toNat =
      l.savedElapsedSec.toNat + n ∧ v.waitElapsedSec.toNat + m = w.toNat ∧ 0 < m) := by
    refine hk.imp fun p n r v l hknow => ?_
    obtain ⟨hstate, m, hp, -, hm, -⟩ := hknow
    exact ⟨hstate, m, hp, UInt32.le_iff_toNat_le.2 (by omega)⟩
  have hsaveF : Savable (Left P k fun _ v _ m => v.waitElapsedSec = w ∧ m = 0) := by
    refine hk.imp fun p n r v l hknow => ?_
    obtain ⟨hstate, m, hp, hm, -⟩ := hknow
    exact ⟨hstate, m, hp, hm ▸ UInt32.le_refl _⟩
  have hcalmR : Calm resumeTerms fun s h =>
      Here true (Left P k fun n _ l m => l.savedElapsedSec.toNat + n + m = w.toNat) s h ∧
        (clock.of h).ticked = true := by
    refine ⟨stable_alone _, fun s h s' hs hq => ?_⟩
    have hcalm : Calm resumeTerms
        (Here true (Left P k fun n _ l m => l.savedElapsedSec.toNat + n + m = w.toNat)) :=
      calm_left fun n m s s' hq hm => by
        obtain ⟨_, _, _, _, rfl⟩ := hq
        exact hm
    obtain ⟨hguar, hkept⟩ := hcalm.quiet s h s' hs.1 hq
    exact ⟨hguar, hkept, hs.2⟩
  have houtline : WaitOutline resumeTerms w
      (Here false (Left P k fun _ v _ m => v.waitElapsedSec.toNat + m = w.toNat))
      (Here false (Left P k fun _ v l m => l.savedElapsedSec = v.waitElapsedSec ∧
        v.waitElapsedSec.toNat + m = w.toNat ∧ 0 < m))
      (Here true (Left P k fun n v l m => v.waitElapsedSec.toNat = l.savedElapsedSec.toNat + n ∧
        v.waitElapsedSec.toNat + m = w.toNat ∧ 0 < m))
      (Here true (Left P k fun n _ l m => l.savedElapsedSec.toNat + n + m = w.toNat))
      (fun s h =>
        Here true (Left P k fun n _ l m => l.savedElapsedSec.toNat + n + m = w.toNat) s h ∧
        (clock.of h).ticked = true)
      (Here true (Left P k fun n _ l m => l.totalElapsedSec.toNat = l.savedElapsedSec.toNat + n ∧
        l.totalElapsedSec.toNat + m = w.toNat))
      (Here true (Left P k fun _ v _ m => v.waitElapsedSec = w ∧ m = 0))
      (Here false (Left P k fun _ _ _ m => m = 0))
      (Here false (Left P k fun _ v _ m => m = 0 ∧ v.waitElapsedSec = 0)) := by
    refine {
      calmA := calm_left ?_
      calmB := calm_left ?_
      calmL := calm_left ?_
      calmD := calm_left ?_
      calmR := hcalmR
      calmC := calm_left ?_
      calmF := calm_left ?_
      calmE := calm_left ?_
      calmZ := calm_left ?_
      others := fun _ _ _ _ hr => hr.elim
      testTop := ?testTop
      leavesTop := ?leavesTop
      reads := ?reads
      starts := ?starts
      delays := ?delays
      testTick := ?testTick
      computes := ?computes
      fills := ?fills
      goesOn := ?goesOn
      saveL := (saving_at rfl hsaveL fun _ _ _ _ _ hknow => hknow).triple_framed fun _ _ hs => hs.1
      saveF := (saving_at rfl hsaveF fun _ _ _ _ _ hknow => hknow).triple_framed fun _ _ hs => hs.1
      leavesLoop := ?leavesLoop
      finishes := ?finishes
      clears := ?clears }
    case testTop =>
      rintro s h hs - s' rfl
      have hkept : Here false (Left P k fun _ v _ m => v.waitElapsedSec.toNat + m = w.toNat)
          { s with locals := { s.locals with requested := s.vars.completeRequested } }
          (h ++ [.tested .waitTop s.vars.completeRequested]) :=
        Here.loosen (hs.still (fun _ => rfl) (fun _ => rfl) rfl
          (.plain (fun _ _ => Event.noConfusion) id) rfl fun p n r hgoing hknow =>
            ⟨⟨hgoing.unset, hgoing.unset, hgoing.count⟩, hknow⟩)
      exact ⟨hkept.1, hkept⟩
    case leavesTop =>
      intro s h hs hleave
      refine hs.imp fun p n r hgoing hknow => ?_
      obtain ⟨hstate, m, hp, hm⟩ := hknow
      rcases hleave with hzero | hrequested | hle
      · exact absurd hzero hw
      · exact absurd (hgoing.unread.symm.trans hrequested) Bool.false_ne_true
      · have hle' := UInt32.le_iff_toNat_le.1 hle
        exact ⟨hstate, m, hp, by omega⟩
    case reads =>
      rintro s h hs - - hshort s' rfl
      have hkept := hs.change (t := { s with locals := { s.locals with
          savedElapsedSec := s.vars.waitElapsedSec } })
        (ψ := Left P k fun _ v l m => l.savedElapsedSec = v.waitElapsedSec ∧
          v.waitElapsedSec.toNat + m = w.toNat ∧ 0 < m) rfl fun p n r hgoing hknow => by
        obtain ⟨hstate, m, hp, hm⟩ := hknow
        have hlt' := UInt32.lt_iff_toNat_lt.1 hshort
        exact ⟨⟨hgoing.unset, hgoing.unread, hgoing.count⟩, hstate, m, hp, rfl, hm, by omega⟩
      exact ⟨hkept.1, hkept⟩
    case starts =>
      rintro s h i hs - s' rfl
      have hkept := hs.step (t := { s with vars := { s.vars with startTime := i.now } })
        (q := true) (m := fun _ => 0) (e := .waiting w)
        (ψ := Left P k fun n v l m => v.waitElapsedSec.toNat = l.savedElapsedSec.toNat + n ∧
          v.waitElapsedSec.toNat + m = w.toNat ∧ 0 < m)
        (Event.leads_of_still fun _ => rfl) (fun _ => rfl) (fun _ => rfl)
        (.plain (fun _ _ => Event.noConfusion) id) rfl fun p n r hstarted _ hgoing hknow => by
        obtain ⟨hstate, m, hp, hsaved, hm, hpos⟩ := hknow
        refine ⟨p, rfl, .same hstarted rfl (Or.inr rfl) rfl,
          ⟨hgoing.unset, hgoing.unread, hgoing.count⟩, hstate, m, hp, ?_, hm, hpos⟩
        exact congrArg UInt32.toNat hsaved.symm
      exact ⟨hkept.1, hkept⟩
    case delays =>
      intro s h hs
      have hkept := hs.step (t := s) (q := true) (m := (· + 1)) (e := .delayed)
        (ψ := Left P k fun n _ l m => l.savedElapsedSec.toNat + n + m = w.toNat)
        (fun _ => rfl) (fun _ => rfl) (fun _ => rfl)
        (.plain (fun _ _ => Event.noConfusion) id) rfl fun p n r _ _ hgoing hknow => by
        obtain ⟨hstate, m, rfl, hsaved, hm, hpos⟩ := hknow
        obtain ⟨m, rfl⟩ := Nat.exists_eq_succ_of_ne_zero (Nat.ne_of_gt hpos)
        exact ⟨_, hP.tick _ m, hP.step _ m r, hgoing, hstate, m, rfl, by omega⟩
      exact ⟨hkept.1, hkept⟩
    case testTick =>
      rintro s h b hs rfl s' rfl
      have hkept := hs.still (t := { s with locals := { s.locals with
          requested := s.vars.completeRequested } }) (e := .tested .tick s.vars.completeRequested)
        (ψ := Left P k fun n _ l m => l.savedElapsedSec.toNat + n + m = w.toNat)
        (fun _ => rfl) (fun c => by cases s.vars.completeRequested <;> rfl) rfl
        (.plain (fun _ _ => Event.noConfusion) id) rfl fun p n r hgoing hknow =>
          ⟨⟨hgoing.unset, hgoing.unset, hgoing.count⟩, hknow⟩
      obtain ⟨p, r, hf, hgoing, hknow⟩ := hs.2.2
      refine ⟨hkept.1, fun hset => ?_, fun hunset => ⟨hkept, ?_⟩⟩
      · exact absurd (hgoing.unset.symm.trans hset) Bool.false_ne_true
      · rw [hunset, clock.of_snoc]
        rfl
    case computes =>
      rintro s h i ⟨hs, hticked⟩ hi s' rfl
      have hsec := hi.2 hticked
      obtain ⟨hr, hquiet, p, r, hf, hgoing, hstate, m, hp, hm⟩ := hs
      have htotal : (s.locals.savedElapsedSec +
          (timeSubtract i.now s.vars.startTime).seconds).toNat =
          s.locals.savedElapsedSec.toNat + (clock.of h).waited := by
        rw [UInt32.toNat_add, hsec]
        exact Nat.mod_eq_of_lt (by omega)
      have hmore : (s.locals.savedElapsedSec +
          (timeSubtract i.now s.vars.startTime).seconds).toNat + m = w.toNat := by omega
      exact ⟨hr, hr, hquiet, p, r, hf, ⟨hgoing.unset, hgoing.unread, hgoing.count⟩, hstate, m, hp,
        htotal, hmore⟩
    case fills =>
      rintro s h hs hle s' rfl
      have hkept := hs.still (t := { s with vars := { s.vars with waitElapsedSec := w } })
        (e := .wrote) (ψ := Left P k fun _ v _ m => v.waitElapsedSec = w ∧ m = 0)
        (fun _ => rfl) (fun _ => rfl) rfl (.plain (fun _ _ => Event.noConfusion) id) rfl
        fun p n r hgoing hknow => by
        obtain ⟨hstate, m, hp, -, hm⟩ := hknow
        have hle' := UInt32.le_iff_toNat_le.1 hle
        exact ⟨⟨hgoing.unset, hgoing.unread, hgoing.count⟩, hstate, m, hp, rfl, by omega⟩
      exact ⟨hkept.1, hkept⟩
    case goesOn =>
      rintro s h hs hless s' rfl
      have hkept := hs.still
        (t := { s with vars := { s.vars with waitElapsedSec := s.locals.totalElapsedSec } })
        (e := .wrote)
        (ψ := Left P k fun n v l m => v.waitElapsedSec.toNat = l.savedElapsedSec.toNat + n ∧
          v.waitElapsedSec.toNat + m = w.toNat ∧ 0 < m)
        (fun _ => rfl) (fun _ => rfl) rfl (.plain (fun _ _ => Event.noConfusion) id) rfl
        fun p n r hgoing hknow => by
        obtain ⟨hstate, m, hp, htotal, hm⟩ := hknow
        have hlt' := UInt32.lt_iff_toNat_lt.1 hless
        exact ⟨⟨hgoing.unset, hgoing.unread, hgoing.count⟩, hstate, m, hp, htotal, hm, by omega⟩
      exact ⟨hkept.1, hkept⟩
    case leavesLoop =>
      intro s h hs hset
      obtain ⟨p, r, hf, hgoing, hknow⟩ := hs.2.2
      exact absurd (hgoing.unset.symm.trans hset) Bool.false_ne_true
    case finishes =>
      intro s h hs
      refine Here.loosen (hs.imp fun p n r _ hknow => ?_)
      obtain ⟨hstate, m, hp, -, hm⟩ := hknow
      exact ⟨hstate, m, hp, hm⟩
    case clears =>
      rintro s h hs s' rfl
      have hkept := hs.change (t := { s with vars := { s.vars with waitElapsedSec := 0 } })
        (ψ := Left P k fun _ v _ m => m = 0 ∧ v.waitElapsedSec = 0) rfl
        fun p n r hgoing hknow => by
        obtain ⟨hstate, m, hp, hm⟩ := hknow
        exact ⟨⟨hgoing.unset, hgoing.unread, hgoing.count⟩, hstate, m, hp, hm, rfl⟩
      exact ⟨hkept.1, hkept⟩
    all_goals
      intro n m s s' hq hm
      obtain ⟨_, _, _, _, rfl⟩ := hq
      exact hm
  exact houtline.triple

end Waiting

/-! ## Commands and tests -/

section Sending

variable {φ ψ χ : Knowledge} {quiet : Bool} {X Y : Assertion State Event}

/-- How many burns begin with a command. -/
def Command.burns : Command → Nat
  | .gpioHigh => 1
  | _ => 0

/-- **Sending a command**, as the plan has it. -/
theorem send_at {c : Command}
    (hissue : ∀ p n r v l, p.Fits r → φ p n r v l →
      ∃ p', p.issue c = some p' ∧ p.Step p' r c.burns ∧ χ p' n r v l)
    (hgoesOn : ∀ p n r v l, χ p n r v l → χ p n r v { l with status := success })
    (hfails : ∀ p n r v l status, χ p n r v l → status ≠ success →
      ψ p n r v { l with status := status })
    (hsends : ∀ p n r v l status, χ p n r v l →
      ∃ p', p.sent c status = some p' ∧ p.Step p' r 0 ∧ ψ p' n r v { l with status := status }) :
    Triple resumeTerms (Here quiet φ) (sendCommand c) (Here false ψ) X Y := by
  have hgoing : ∀ {r v l status}, Going r v l → Going r v { l with status := status } :=
    fun hgoing => ⟨hgoing.unset, hgoing.unread, hgoing.count⟩
  have houtline : SendOutline resumeTerms c (Here quiet φ) (Here false χ) (Here false ψ) := by
    refine {
      stable := stable_alone _
      stable_issuing := stable_alone _
      stable_sent := stable_alone _
      others := fun _ _ _ _ hr => hr.elim
      issues := fun s h hs => ?_
      goesOn := fun s h i hs _ hok => ?_
      fails := fun s h i hs _ hne => ?_
      sends := fun s h i hs _ => ?_ }
    · have hkept : Here false χ s (h ++ [.issuing c]) :=
        hs.step (F := Place.issue c) (n := c.burns) (m := id) (by intro g; cases c <;> rfl)
          (fun _ => rfl) (fun hq => Bool.noConfusion hq)
          (.plain (fun _ _ => Event.noConfusion) id) rfl fun p n r _ hfits hg hknow => by
          obtain ⟨p', hp', hstep, hnext⟩ := hissue p n r _ _ hfits hknow
          exact ⟨p', hp', hstep, hg, hnext⟩
      exact ⟨hkept.1, hkept⟩
    · have hkept : Here false χ (s.returns i.status) h :=
        hs.change rfl fun p n r hg hknow => ⟨hgoing hg, hok ▸ hgoesOn p n r _ _ hknow⟩
      exact ⟨hkept.1, hkept⟩
    · have hkept : Here false ψ (s.returns i.status) h :=
        hs.change rfl fun p n r hg hknow => ⟨hgoing hg, hfails p n r _ _ _ hknow hne⟩
      exact ⟨hkept.1, hkept⟩
    · have hkept : Here false ψ (s.returns i.status) (h ++ [.sent c i.status]) :=
        hs.step (F := Place.sent c i.status) (n := 0) (m := id) (fun _ => rfl) (fun _ => rfl)
          (fun hq => Bool.noConfusion hq) (.plain (fun _ _ => Event.noConfusion) id) rfl
          fun p n r _ _ hg hknow => by
          obtain ⟨p', hp', hstep, hnext⟩ := hsends p n r _ _ i.status hknow
          exact ⟨p', hp', hstep, hgoing hg, hnext⟩
      exact ⟨hkept.1, hkept⟩
  exact houtline.triple

/-- The flag is found unset. -/
theorem test_at {site : Test} {F : Place → Option Place}
    (hF : ∀ b, (Event.tested site b).Leads F 0)
    (hφ : ∀ p n r v l, φ p n r v l → ∃ p', F p = some p' ∧ (p ≠ .starting → p.Step p' r 0) ∧
      ψ p' n r v { l with requested := false }) :
    Triple resumeTerms (Here quiet φ) (test site) (Here true ψ) X Y := by
  refine .does (stable_alone _) fun s h i hs _ => ?_
  have hunset : s.vars.completeRequested = false := by
    obtain ⟨-, -, p, r, -, hgoing, -⟩ := hs
    exact hgoing.unset
  have hkept : Here true ψ
      { s with locals := { s.locals with requested := s.vars.completeRequested } }
      (h ++ [.tested site s.vars.completeRequested]) := by
    refine hs.step (m := id) (hF _) (fun c => ?_) (fun _ => rfl)
      (.plain (fun _ _ => Event.noConfusion) id) rfl fun p n r hstarted _ hgoing hknow => ?_
    · cases site <;> cases s.vars.completeRequested <;> rfl
    · obtain ⟨p', hp', hstep, hnext⟩ := hφ p n r _ _ hknow
      rw [hunset]
      exact ⟨p', hp', hstep hstarted, ⟨hunset, rfl, hgoing.count⟩, hnext⟩
  exact ⟨hkept.1, hkept⟩

/-- A test that the plan does not mention. -/
theorem leads_tested {site : Test} (hsite : site ≠ .burnt) (b : Bool) :
    (Event.tested site b).Leads some 0 := by
  refine Event.leads_of_still fun g => ?_
  cases site with
  | burnt => exact absurd rfl hsite
  | _ => rfl

/-- The flag is never found set. -/
theorem break_at {site : Test} {F : Place → Option Place}
    (hF : ∀ b, (Event.tested site b).Leads F 0)
    (hφ : ∀ p n r v l, φ p n r v l → ∃ p', F p = some p' ∧ (p ≠ .starting → p.Step p' r 0) ∧
      ψ p' n r v { l with requested := false }) :
    Triple resumeTerms (Here quiet φ) (breakIfRequested site)
      (Here true ψ) (fun _ _ => False) Y := by
  refine .seq (test_at hF hφ) <| .when (M := fun _ _ => False) (stable_alone _) (stable_alone _)
    ?_ (fun _ _ hs _ => hs) (.dead fun _ _ hs => hs)
  intro s h hs hrequested
  obtain ⟨-, -, p, r, -, hgoing, -⟩ := hs
  exact Bool.false_ne_true (hgoing.unread.symm.trans hrequested)

/-- What the plan does not mention stays as it is. -/
theorem passes (hφ : ∀ p n r v l, φ p n r v l → ψ p n r v { l with requested := false }) :
    ∀ p n r v l, φ p n r v l → ∃ p', some p = some p' ∧ (p ≠ .starting → p.Step p' r 0) ∧
      ψ p' n r v { l with requested := false } := fun p n r v l hknow =>
  ⟨p, rfl, fun hstarted => .same hstarted rfl (Or.inr rfl) rfl, hφ p n r v l hknow⟩

end Sending

end Leop
end FlightApps
