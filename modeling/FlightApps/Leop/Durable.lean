import FlightApps.Leop.Alone
import FlightApps.Leop.Records

/-!
# What the file holds

The data file is absent, empty or a record, whole and sound, that was copied from the runtime data
before (`Durable`): `OS_OpenCreate` makes an empty file on the first boot, and after that only whole
records take its place.  What is loaded is what was saved.  The defaults are applied as long as no
record has reached the disk, and when `MISSION_LEOP_LoadState` itself cannot lock, open or read the
file.
-/

set_option autoImplicit false

namespace FlightApps
namespace Leop

open Program (Terms Assertion Stable Triple)

/-- What has happened since the last start. -/
def sinceBoot (h : List Event) : List Event :=
  h.foldl (fun es e => if e = .booted then [] else es ++ [e]) []

theorem sinceBoot_snoc (h : List Event) (e : Event) :
    sinceBoot (h ++ [e]) = if e = .booted then [] else sinceBoot h ++ [e] := by
  rw [sinceBoot, List.foldl_append]
  rfl

/-- Absent, empty or a record that was copied before. -/
def Content (file : Option (List UInt8)) (h : List Event) : Prop :=
  ∀ bytes, file = some bytes →
    bytes = [] ∨ ∃ c d, .snapshot c d ∈ h ∧ bytes = fileDataLayout.bytes d

/-- A record. -/
def Recorded (file : Option (List UInt8)) : Prop := ∃ d, file = some (fileDataLayout.bytes d)

/-- No record has reached the disk, or loading itself has failed. -/
def Excused (h : List Event) : Prop := .loadError ∈ sinceBoot h ∨ ∀ c, .synced c ∉ h

/-- What is loaded was saved. -/
def Restores (pre : List Event) (e : Event) : Prop :=
  ∀ d v, e = .loaded d v → v.toFile = d ∧ ∃ c, .snapshot c d ∈ pre

/-- **What holds of the file** at all times. -/
structure Durable (f : Files) (h : List Event) : Prop where
  data : Content f.disk.data h
  stable : Content f.disk.stable h
  sound : ∀ c d, .snapshot c d ∈ h → ∃ v : Vars, v.Sound ∧ v.toFile = d
  restores : Each Restores h
  excused : Each (fun pre e => e.Defaults → Excused pre) h
  recorded : ∀ c, .synced c ∈ h → Recorded f.disk.data ∧ Recorded f.disk.stable

/-- Events that the invariant does not look at. -/
def Event.Plain : Event → Prop
  | .snapshot _ _ => False
  | .loaded _ _ => False
  | .refused _ => False
  | .loadFailed => False
  | .synced _ => False
  | _ => True

section Durable

variable {f : Files} {h : List Event} {e : Event}

theorem Content.snoc {file : Option (List UInt8)} (hfile : Content file h) (e : Event) :
    Content file (h ++ [e]) := by
  intro bytes hbytes
  rcases hfile bytes hbytes with hnil | ⟨c, d, hmem, heq⟩
  · exact Or.inl hnil
  · exact Or.inr ⟨c, d, List.mem_append_left _ hmem, heq⟩

theorem mem_of_mem_snoc {e' : Event} (hmem : e' ∈ h ++ [e]) (hne : e' ≠ e) : e' ∈ h := by
  rcases List.mem_append.1 hmem with hmem | hmem
  · exact hmem
  · exact absurd (List.mem_singleton.1 hmem) hne

/-- An event that is no copy and no synchronisation changes nothing that the file depends on. -/
theorem Durable.snoc (hd : Durable f h) (hsnapshot : ∀ c d, e ≠ .snapshot c d)
    (hsynced : ∀ c, e ≠ .synced c) (hrestores : Restores h e)
    (hexcused : e.Defaults → Excused h) : Durable f (h ++ [e]) where
  data := hd.data.snoc e
  stable := hd.stable.snoc e
  sound c d hmem := hd.sound c d (mem_of_mem_snoc hmem (hsnapshot c d).symm)
  restores := hd.restores.snoc hrestores
  excused := hd.excused.snoc hexcused
  recorded c hmem := hd.recorded c (mem_of_mem_snoc hmem (hsynced c).symm)

theorem Durable.plain (hd : Durable f h) (he : e.Plain) : Durable f (h ++ [e]) := by
  refine hd.snoc ?_ ?_ ?_ ?_
  · rintro c d rfl
    exact he
  · rintro c rfl
    exact he
  · rintro d v rfl
    exact he.elim
  · intro hdef
    cases e <;> first | exact hdef.elim | exact he.elim

/-- The defaults are applied with an excuse. -/
theorem Durable.defaults (hd : Durable f h) (he : e.Defaults) (hx : Excused h) :
    Durable f (h ++ [e]) := by
  refine hd.snoc ?_ ?_ ?_ fun _ => hx
  · rintro c d rfl
    exact he
  · rintro c rfl
    exact he
  · rintro d v rfl
    exact he.elim

/-- Only the disk matters. -/
theorem Durable.files {f' : Files} (hd : Durable f h) (hdata : f'.disk.data = f.disk.data)
    (hstable : f'.disk.stable = f.disk.stable) : Durable f' h where
  data := hdata ▸ hd.data
  stable := hstable ▸ hd.stable
  sound := hd.sound
  restores := hd.restores
  excused := hd.excused
  recorded := hdata ▸ hstable ▸ hd.recorded

theorem Durable.snapshot (hd : Durable f h) (c : Caller) {v : Vars} (hv : v.Sound) :
    Durable f (h ++ [.snapshot c v.toFile]) where
  data := hd.data.snoc _
  stable := hd.stable.snoc _
  sound c' d hmem := by
    rcases List.mem_append.1 hmem with hmem | hmem
    · exact hd.sound c' d hmem
    · obtain ⟨rfl, rfl⟩ := Event.snapshot.inj (List.mem_singleton.1 hmem)
      exact ⟨v, hv, rfl⟩
  restores := hd.restores.snoc fun _ _ heq => Event.noConfusion heq
  excused := hd.excused.snoc fun hdef => hdef.elim
  recorded c' hmem := hd.recorded c' (mem_of_mem_snoc hmem fun heq => Event.noConfusion heq)

/-- A whole record takes the place of the file. -/
theorem Durable.rename (hd : Durable f h) {c : Caller} {d : FileData} (hmem : .snapshot c d ∈ h)
    {f' : Files} (hdata : f'.disk.data = some (fileDataLayout.bytes d))
    (hstable : f'.disk.stable = f.disk.stable) : Durable f' h where
  data _ hbytes := Or.inr ⟨c, d, hmem, Option.some.inj (hbytes.symm.trans hdata)⟩
  stable := hstable ▸ hd.stable
  sound := hd.sound
  restores := hd.restores
  excused := hd.excused
  recorded c' hsynced := ⟨⟨d, hdata⟩, hstable ▸ (hd.recorded c' hsynced).2⟩

/-- The directory is synchronised when the file is a record. -/
theorem Durable.sync (hd : Durable f h) (c : Caller) {d : FileData}
    (hdata : f.disk.data = some (fileDataLayout.bytes d)) :
    Durable { f with disk := { f.disk with stable := f.disk.data } } (h ++ [.synced c]) where
  data := hd.data.snoc _
  stable := hd.data.snoc _
  sound c' d' hmem := hd.sound c' d' (mem_of_mem_snoc hmem fun heq => Event.noConfusion heq)
  restores := hd.restores.snoc fun _ _ heq => Event.noConfusion heq
  excused := hd.excused.snoc fun hdef => hdef.elim
  recorded _ _ := ⟨⟨d, hdata⟩, ⟨d, hdata⟩⟩

end Durable

/-! ## Saving -/

/-- What `MISSION_LEOP_SaveState` shows but for the synchronisation. -/
def Event.OfSaving : Event → Prop
  | .snapshot _ _ => True
  | .saving _ => True
  | .notSaved _ => True
  | .renamed _ => True
  | _ => False

section Saving

variable {ok : State → List Event → Input → Prop} {c : Caller} {p q X Y : Assertion State Event}

/-- An assertion that saving leaves as it is. -/
def Unsaved (p : Assertion State Event) : Prop :=
  ∀ s h f saving es, p s h → (∀ e ∈ es, Event.OfSaving e) →
    p { s with files := f, saving := saving } (h ++ es)

theorem Unsaved.files (hp : Unsaved p) {s : State} {h : List Event} (f : Files)
    (saving : Task → Saving) (hs : p s h) : p { s with files := f, saving := saving } h := by
  have hkept := hp s h f saving [] hs fun e he => absurd he (List.not_mem_nil)
  rwa [List.append_nil] at hkept

theorem saving_durable (hsound : ∀ s h, p s h → s.vars.Sound) (hp : Unsaved p)
    (hq : ∀ s h f, p s h → q { s.saves c.task success with files := f } (h ++ [.synced c]))
    (hfiles : ∀ s h f, q s h → q { s with files := f } h) :
    SaveOutline (alone ok Durable) c (With Durable p)
      (With Durable fun s h => p s h ∧ .snapshot c (s.saving c.task).fileData ∈ h)
      (With Durable fun s h => p s h ∧ .snapshot c (s.saving c.task).fileData ∈ h)
      (With Durable q) := by
  have hmoves : ∀ s h s' es,
      With Durable (fun s h => p s h ∧ .snapshot c (s.saving c.task).fileData ∈ h) s h →
      SaveStep c s s' es → Durable s'.files (h ++ es) ∧
        With Durable (fun s h => p s h ∧ .snapshot c (s.saving c.task).fileData ∈ h) s'
          (h ++ es) := by
    intro s h s' es ha hstep
    obtain ⟨f, saving, rfl, -, hdata, hmove⟩ := hstep
    obtain ⟨hd, hps, hmem⟩ := ha
    have hkept : (∀ e ∈ es, Event.OfSaving e) ∧ Durable f (h ++ es) := by
      cases hmove with
      | stay => exact ⟨by simp, by rw [List.append_nil]; exact hd⟩
      | lock =>
        refine ⟨by simp [Event.OfSaving], Durable.plain (e := .saving c) ?_ trivial⟩
        exact hd.files rfl rfl
      | work => exact ⟨by simp, by rw [List.append_nil]; exact hd.files rfl rfl⟩
      | rename =>
        refine ⟨by simp [Event.OfSaving], Durable.plain (e := .renamed c) ?_ trivial⟩
        exact hd.rename hmem rfl rfl
    refine ⟨hkept.2, hkept.2, hp s h f saving es hps hkept.1, List.mem_append_left _ ?_⟩
    exact hdata.symm ▸ hmem
  exact {
    stable := stable_alone _
    stable_copied := stable_alone _
    stable_locked := stable_alone _
    stable_synced := stable_alone _
    mine := fun _ _ _ _ hr => hr.elim
    fails := fun _ s h ha => ⟨ha.1, ha.1, hp.files s.files _ ha.2⟩
    copies := fun s h ha => by
      have hd := ha.1.snapshot c (hsound s h ha.2)
      refine ⟨hd, hd, hp s h s.files _ _ ha.2 (by simp [Event.OfSaving]), ?_⟩
      simp
    lockFails := fun _ s h ha => by
      have hd : Durable s.files (h ++ [.notSaved c]) := ha.1.plain trivial
      exact ⟨hd, hd, hp s h s.files _ _ ha.2.1 (by simp [Event.OfSaving])⟩
    locks := fun s h s' ha _ hstep => hmoves s h s' _ ha hstep
    moves := fun s h s' es ha _ hstep => hmoves s h s' es ha hstep
    syncs := fun s h ha _ hdata s' hs' => by
      subst hs'
      have hd := ha.1.sync c hdata
      exact ⟨hd, hd, hq s h _ ha.2.1⟩
    givesUp := fun _ s h ha _ => by
      have hd : Durable { s.files with fileMutex := none } h := ha.1.files rfl rfl
      exact ⟨hd, hd, hp.files _ s.saving ha.2.1⟩
    unlocks := fun s h ha _ => by
      have hd : Durable { s.files with fileMutex := none } h := ha.1.files rfl rfl
      exact ⟨hd, hd, hfiles s h _ ha.2⟩ }

end Saving

/-! ## Loading -/

section Loading

variable {ok : State → List Event → Input → Prop} {p q X Y : Assertion State Event}

/-- A call of `MISSION_LEOP_LoadState` has failed. -/
def LoadError (h : List Event) : Prop := .loadError ∈ sinceBoot h

theorem LoadError.snoc {h : List Event} (hl : LoadError h) {e : Event} (he : e ≠ .booted) :
    LoadError (h ++ [e]) := by
  rw [LoadError, sinceBoot_snoc, if_neg he]
  exact List.mem_append_left _ hl

theorem loadError_snoc (h : List Event) : LoadError (h ++ [.loadError]) := by
  rw [LoadError, sinceBoot_snoc, if_neg (fun hb => Event.noConfusion hb)]
  exact List.mem_append_right _ (List.mem_singleton.2 rfl)

/-- Nothing but a start or a synchronisation takes the excuse away. -/
theorem Excused.snoc {h : List Event} (hx : Excused h) {e : Event} (he : e ≠ .booted)
    (hsync : ∀ c, e ≠ .synced c) : Excused (h ++ [e]) := by
  rcases hx with hl | hno
  · exact Or.inl (LoadError.snoc hl he)
  · refine Or.inr fun c hmem => ?_
    rcases List.mem_append.1 hmem with hmem | hmem
    · exact hno c hmem
    · exact hsync c (List.mem_singleton.1 hmem).symm

/-- What is read: a whole record, or there is an excuse. -/
def ReadOr (s : State) (h : List Event) : Prop :=
  (s.locals.readSize = Int32.ofNat fileDataLayout.size →
    ∃ c, .snapshot c s.locals.fileData ∈ h) ∧
  (s.locals.readSize ≠ Int32.ofNat fileDataLayout.size → Excused h)

/-- Nothing is in the file, and nothing has reached the disk, or it is a record. -/
theorem Durable.content {f : Files} {h : List Event} (hd : Durable f h) :
    (f.disk.data.getD [] = [] ∧ ∀ c, .synced c ∉ h) ∨
      ∃ c d, .snapshot c d ∈ h ∧ f.disk.data.getD [] = fileDataLayout.bytes d := by
  have hnone : f.disk.data.getD [] = [] → ∀ c, .synced c ∉ h := by
    intro hnil c hmem
    obtain ⟨⟨d, hdata⟩, -⟩ := hd.recorded c hmem
    have hlength := length_bytes d
    rw [hdata, Option.getD_some] at hnil
    rw [hnil] at hlength
    exact absurd hlength (by decide)
  rcases hdata : f.disk.data with _ | bytes
  · rw [hdata] at hnone
    exact Or.inl ⟨rfl, hnone rfl⟩
  · rw [hdata] at hnone
    rcases hd.data bytes hdata with rfl | ⟨c, d, hmem, rfl⟩
    · exact Or.inl ⟨rfl, hnone rfl⟩
    · exact Or.inr ⟨c, d, hmem, rfl⟩

/-- All of the file is read. -/
theorem Durable.readAll {s : State} {h : List Event} (hd : Durable s.files h) :
    let bytes := (s.files.disk.data.getD []).take fileDataLayout.size
    ReadOr (s.reads bytes (Int32.ofNat bytes.length)) h := by
  rcases hd.content with ⟨hnil, hno⟩ | ⟨c, d, hmem, hbytes⟩
  · rw [hnil]
    exact ⟨fun heq => absurd heq (ofNat_ne_size (by decide)), fun _ => Or.inr hno⟩
  · rw [hbytes, List.take_of_length_le (Nat.le_of_eq (fileDataLayout.length_bytes d))]
    refine ⟨fun _ => ⟨c, ?_⟩, fun hne => absurd ?_ hne⟩
    · show .snapshot c (fileDataLayout.read _) ∈ h
      rw [read_bytes]
      exact hmem
    · show Int32.ofNat _ = _
      rw [fileDataLayout.length_bytes]

/-- What `MISSION_LEOP_LoadState` leaves behind. -/
def Loaded (s : State) (h : List Event) : Prop :=
  (s.failed = true → Excused h) ∧ (s.failed = false → s.vars.Sound)

/-- An empty file is made if there is none. -/
theorem Durable.create {f : Files} {h : List Event} (hd : Durable f h)
    (handle : Option FileName) :
    Durable { f with
      dataHandle := handle
      disk := { f.disk with data := some (f.disk.data.getD []) } } h where
  data bytes hbytes := by
    rcases hdata : f.disk.data with _ | old
    · rw [hdata] at hbytes
      exact Or.inl (Option.some.inj hbytes).symm
    · rw [hdata] at hbytes
      exact hd.data bytes (hdata.trans hbytes)
  stable := hd.stable
  sound := hd.sound
  restores := hd.restores
  excused := hd.excused
  recorded c hmem := by
    obtain ⟨⟨d, hdata⟩, hstable⟩ := hd.recorded c hmem
    refine ⟨⟨d, ?_⟩, hstable⟩
    rw [hdata]
    rfl

theorem Event.OfSaving.ne_booted {e : Event} (he : e.OfSaving) : e ≠ .booted := by
  rintro rfl
  exact he

theorem Event.OfSaving.ne_synced {e : Event} (he : e.OfSaving) (c : Caller) : e ≠ .synced c := by
  rintro rfl
  exact he

theorem Excused.saving {h es : List Event} (hx : Excused h) (hes : ∀ e ∈ es, Event.OfSaving e) :
    Excused (h ++ es) := by
  induction es generalizing h with
  | nil => rwa [List.append_nil]
  | cons e es ih =>
    have he := hes e List.mem_cons_self
    rw [List.append_cons]
    exact ih (hx.snoc he.ne_booted he.ne_synced) fun e' he' => hes e' (List.mem_cons_of_mem e he')

/-- The defaults are saved, and it counts as a failure to load if that fails. -/
theorem saveDefaults_durable : Triple (alone ok Durable)
    (With Durable fun s h => s.vars.Sound ∧ Excused h) (saveState .load)
    (With Durable fun s h =>
      s.vars.Sound ∧ (s.saveFailed .process = true → Excused h)) X Y := by
  have houtline : SaveOutline (alone ok Durable) .load
      (With Durable fun s h => s.vars.Sound ∧ Excused h) _ _
      (With Durable fun s _ => s.vars.Sound ∧ s.saveFailed .process = false) :=
    saving_durable (fun s h hs => hs.1) (fun s h f saving es hs hes => ⟨hs.1, hs.2.saving hes⟩)
      (fun s h f hs => ⟨hs.1, saveFailed_saves .process success⟩) fun s h f hs => hs
  refine houtline.triple (stable_alone _) ?_ ?_
  · exact fun s h hs _ _ => ⟨hs.1, hs.2.1, fun _ => hs.2.2⟩
  · refine fun s h hs => ⟨hs.1, hs.2.1, fun hfail => ?_⟩
    rw [hs.2.2] at hfail
    exact absurd hfail Bool.false_ne_true

theorem sound_defaults (v : Vars) : v.defaults.Sound := ⟨rfl, UInt32.zero_le⟩

theorem applyDefaults_durable (code : State → InvalidCode) :
    Triple (alone ok Durable) (With Durable fun _ => Excused) (applyDefaults code) X Y
      (With Durable Loaded) := by
  refine .seq (M := With Durable fun s h => s.vars.Sound ∧ Excused h)
      (imp_alone defaults_alone ?_) <|
    .seq (.does (stable_alone _) fun s h i hs _ => ?_) <| .seq saveDefaults_durable <|
    .seq (M := With Durable Loaded) (.set (stable_alone _) fun s h hs => ?_) <|
    .ret (stable_alone _)
  · rintro s h - ⟨s₀, hx, rfl⟩
    exact ⟨sound_defaults s₀.vars, hx⟩
  · have hd : Durable s.files (h ++ [.refused (code s)]) := hs.1.defaults trivial hs.2.2
    refine ⟨hd, hd, hs.2.1, hs.2.2.snoc ?_ ?_⟩
    · exact fun hb => Event.noConfusion hb
    · exact fun c hb => Event.noConfusion hb
  · exact ⟨hs.1, hs.1, hs.2.2, fun _ => hs.2.1⟩

/-- A record, one of those that were copied before, is copied back. -/
theorem copy_durable : Triple (alone ok Durable)
    (With Durable fun s h => ∃ c, .snapshot c s.locals.fileData ∈ h)
    (.seq copyFileToRuntime
      (.does fun s _ => (s.returns success, [.loaded s.locals.fileData s.vars])))
    (With Durable Loaded) X Y := by
  refine .seq copy_alone <| .does (stable_alone _) ?_
  rintro s h i ⟨hd, s₀, complete, remaining, ⟨c, hmem⟩, rfl⟩ -
  obtain ⟨v, hv, heq⟩ := hd.sound c _ hmem
  have hrestored : (s₀.vars.restored s₀.locals.fileData complete remaining).toFile =
      s₀.locals.fileData := by
    rw [← heq]
    exact toFile_of_loaded rfl rfl rfl
  have hloaded : Durable s₀.files (h ++ [.loaded s₀.locals.fileData
      (s₀.vars.restored s₀.locals.fileData complete remaining)]) := by
    refine hd.snoc (fun _ _ heq => Event.noConfusion heq) (fun _ heq => Event.noConfusion heq)
      ?_ fun hdef => hdef.elim
    intro d v' heq'
    obtain ⟨rfl, rfl⟩ := Event.loaded.inj heq'
    exact ⟨hrestored, c, hmem⟩
  refine ⟨hloaded, hloaded, fun hfail => ?_, fun _ => ?_⟩
  · exact absurd (show decide (success ≠ success) = true from hfail) (by decide)
  · rw [← invalidCode_toFile]
    show (s₀.vars.restored s₀.locals.fileData complete remaining).toFile.invalidCode = none
    rw [hrestored, ← heq]
    exact (invalidCode_toFile v).2 hv

/-- **Loading** leaves sound data behind, or fails with an excuse. -/
theorem loadState_durable : Triple (alone ok Durable) (With Durable fun _ _ => True) loadState
    (With Durable Loaded) X Y := by
  have houtline : LoadOutline (alone ok Durable) (With Durable fun _ _ => True)
      (With Durable fun _ => LoadError) (With Durable ReadOr) (With Durable fun _ => Excused)
      (With Durable fun s h => ∃ c, .snapshot c s.locals.fileData ∈ h) (With Durable Loaded) :=
    { stableA := stable_alone _
      stableE := stable_alone _
      stableR := stable_alone _
      stableD := stable_alone _
      stableV := stable_alone _
      stableQ := stable_alone _
      mine := fun _ _ _ _ hr => hr.elim
      locks := by
        rintro s h hs - s' rfl
        have hd : Durable { s.files with fileMutex := some .process } (h ++ [.loading]) :=
          Durable.plain (e := .loading) (hs.1.files rfl rfl) trivial
        exact ⟨hd, hd, trivial⟩
      opens := by
        rintro s h hs - s' rfl
        exact ⟨hs.1.create (some .data), hs.1.create (some .data), trivial⟩
      goesOn := fun s h hs => ⟨hs.1, hs⟩
      fails := by
        rintro s h i handle hs - - - s' rfl
        have hd : Durable { s.files with dataHandle := handle } (h ++ [.loadError]) :=
          Durable.plain (e := .loadError) (hs.1.files rfl rfl) trivial
        exact ⟨hd, hd, loadError_snoc h⟩
      reads := fun s h i bytes hs _ hbytes => by
        have hread : bytes <+: (s.files.disk.data.getD []).take fileDataLayout.size :=
          hbytes ▸ List.take_prefix i.size _
        have hd : Durable s.files h := hs.1
        have herror : Durable s.files (h ++ [.loadError]) := hd.plain trivial
        constructor
        · intro hall
          rw [hall]
          exact ⟨hd, hd, hd.readAll⟩
        · intro hne
          refine ⟨herror, herror, fun heq => absurd heq (ofNat_ne_size ?_),
            fun _ => Or.inl (loadError_snoc h)⟩
          have hlt := Nat.lt_of_le_of_ne hread.length_le fun hlen => hne (hread.eq_of_length hlen)
          exact Nat.lt_of_lt_of_le hlt (List.length_take_le _ _)
      readFails := fun s h i hs _ hneg => by
        have hd : Durable s.files (h ++ [.loadError]) := hs.1.plain trivial
        refine ⟨hd, hd, fun heq => ?_, fun _ => Or.inl (loadError_snoc h)⟩
        rw [show i.status = Int32.ofNat fileDataLayout.size from heq] at hneg
        exact absurd hneg (by decide)
      leaves := by
        rintro s h handle mutex hs - s' rfl
        have hd : Durable { s.files with dataHandle := handle, fileMutex := mutex } h := by
          rcases hs with hs | hs
          · exact hs.1.files rfl rfl
          · exact hs.1.files rfl rfl
        exact ⟨hd, fun he => ⟨hd, he.2⟩, fun hr => ⟨hd, hr.2⟩⟩
      quits := fun s h hs hfail => ⟨hs.1, fun _ => Or.inl hs.2, fun hok =>
        absurd (hfail.symm.trans hok) (by decide)⟩
      short := fun s h hs hne => ⟨hs.1, hs.2.2 hne⟩
      invalid := fun s h hs heq hinvalid => by
        obtain ⟨c, hmem⟩ := hs.2.1 heq
        obtain ⟨v, hv, hfile⟩ := hs.1.sound c _ hmem
        rw [← hfile] at hinvalid
        exact absurd ((invalidCode_toFile v).2 hv) hinvalid
      valid := fun s h hs heq _ => ⟨hs.1, hs.2.1 heq⟩
      defaults := fun code X Y => applyDefaults_durable code
      copies := copy_durable }
  exact houtline.triple

end Loading

/-! ## The sequence -/

section Sequence

variable {ok : State → List Event → Input → Prop} {X Y : Assertion State Event}

/-- The state, both cycle counts and the elapsed time. -/
def Stage (k : LeopState → UInt8 → UInt8 → Prop) (e : UInt32 → Prop) : Assertion State Event :=
  fun s _ => k s.vars.state s.vars.cycleCount s.locals.cycle ∧ e s.vars.waitElapsedSec

variable {k : LeopState → UInt8 → UInt8 → Prop} {e : UInt32 → Prop}

theorem calm_stage : Calm (alone ok Durable) (With Durable (Stage k e)) :=
  calm_alone fun s h s' hp hq => by
    obtain ⟨_, _, _, _, rfl⟩ := hq
    exact hp

/-- Saving at a stage at which the data are sound. -/
theorem saving_stage (c : Caller)
    (hk : ∀ v : Vars, ∀ l, k v.state v.cycleCount l → e v.waitElapsedSec → v.Sound) :
    SaveOutline (alone ok Durable) c (With Durable (Stage k e))
      (With Durable fun s h => Stage k e s h ∧ .snapshot c (s.saving c.task).fileData ∈ h)
      (With Durable fun s h => Stage k e s h ∧ .snapshot c (s.saving c.task).fileData ∈ h)
      (With Durable (Stage k e)) :=
  saving_durable (fun s _ hs => hk s.vars s.locals.cycle hs.1 hs.2) (fun _ _ _ _ _ hs _ => hs)
    (fun _ _ _ hs => hs) fun _ _ _ hs => hs

theorem save_stage (c : Caller)
    (hk : ∀ v : Vars, ∀ l, k v.state v.cycleCount l → e v.waitElapsedSec → v.Sound) :
    Triple (alone ok Durable) (With Durable (Stage k e)) (saveState c)
      (With Durable (Stage k e)) X Y := (saving_stage c hk).triple_same fun _ _ hs => hs

/-- A command is sent: that changes neither the variables nor the cycle. -/
theorem send_durable (r : Vars → UInt8 → Prop) (c : Command) :
    Triple (alone ok Durable) (With Durable fun s _ => r s.vars s.locals.cycle) (sendCommand c)
      (With Durable fun s _ => r s.vars s.locals.cycle) X Y := by
  have houtline : SendOutline (alone ok Durable) c
      (With Durable fun s _ => r s.vars s.locals.cycle)
      (With Durable fun s _ => r s.vars s.locals.cycle)
      (With Durable fun s _ => r s.vars s.locals.cycle) :=
    { stable := stable_alone _
      stable_issuing := stable_alone _
      stable_sent := stable_alone _
      others := fun _ _ _ _ hr => hr.elim
      issues := fun s h hs => ⟨hs.1.plain trivial, hs.1.plain trivial, hs.2⟩
      goesOn := fun s h i hs _ _ => ⟨hs.1, hs⟩
      fails := fun s h i hs _ _ => ⟨hs.1, hs⟩
      sends := fun s h i hs _ => ⟨hs.1.plain trivial, hs.1.plain trivial, hs.2⟩ }
  exact houtline.triple

theorem send_stage (c : Command) : Triple (alone ok Durable) (With Durable (Stage k e))
    (sendCommand c) (With Durable (Stage k e)) X Y :=
  send_durable (fun v l => k v.state v.cycleCount l ∧ e v.waitElapsedSec) c

theorem waitZero_durable : Triple (alone ok Durable) (With Durable (Stage k fun _ => True)) (wait 0)
    (With Durable (Stage k (· = 0))) X Y :=
  wait_zero (E := With Durable (Stage k fun _ => True)) calm_stage calm_stage calm_stage
    (fun _ _ _ _ hr => hr.elim) (fun _ _ hs => hs) fun s h hs s' hs' => by
      subst hs'
      exact ⟨hs.1, hs.1, hs.2.1, rfl⟩

/-- **Waiting** saves sound data, whatever the clock says. -/
theorem wait_durable (w : UInt32)
    (hk : ∀ v : Vars, ∀ l, k v.state v.cycleCount l → v.waitElapsedSec ≤ w → v.Sound) :
    Triple (alone ok Durable) (With Durable (Stage k fun _ => True)) (wait w)
      (With Durable (Stage k (· = 0))) X Y := by
  have houtline : WaitOutline (alone ok Durable) w (With Durable (Stage k fun _ => True))
      (With Durable (Stage k (· ≤ w))) (With Durable (Stage k (· ≤ w)))
      (With Durable (Stage k fun _ => True)) (With Durable (Stage k fun _ => True))
      (With Durable (Stage k fun _ => True)) (With Durable (Stage k (· ≤ w)))
      (With Durable (Stage k fun _ => True)) (With Durable (Stage k (· = 0))) :=
    { calmA := calm_stage
      calmB := calm_stage
      calmL := calm_stage
      calmD := calm_stage
      calmR := calm_stage
      calmC := calm_stage
      calmF := calm_stage
      calmE := calm_stage
      calmZ := calm_stage
      others := fun _ _ _ _ hr => hr.elim
      testTop := by
        rintro s h hs - s' rfl
        exact ⟨hs.1.plain trivial, hs.1.plain trivial, hs.2⟩
      leavesTop := fun s h hs _ => hs
      reads := by
        rintro s h hs - - hlt s' rfl
        exact ⟨hs.1, hs.1, hs.2.1, UInt32.le_of_lt hlt⟩
      starts := by
        rintro s h i hs - s' rfl
        exact ⟨hs.1.plain trivial, hs.1.plain trivial, hs.2⟩
      delays := fun s h hs => ⟨hs.1.plain trivial, hs.1.plain trivial, hs.2.1, trivial⟩
      testTick := by
        rintro s h b hs - s' rfl
        have hd : Durable s.files (h ++ [.tested .tick b]) := hs.1.plain trivial
        exact ⟨hd, fun _ => ⟨hd, hs.2⟩, fun _ => ⟨hd, hs.2⟩⟩
      computes := by
        rintro s h i hs - s' rfl
        exact ⟨hs.1, hs⟩
      fills := by
        rintro s h hs - s' rfl
        exact ⟨hs.1.plain trivial, hs.1.plain trivial, hs.2.1, UInt32.le_refl w⟩
      goesOn := by
        rintro s h hs hlt s' rfl
        exact ⟨hs.1.plain trivial, hs.1.plain trivial, hs.2.1, UInt32.le_of_lt hlt⟩
      saveL := (saving_stage .wait hk).triple_framed fun _ _ hs => hs
      saveF := (saving_stage .wait hk).triple_framed fun _ _ hs => hs
      leavesLoop := fun s h hs _ => ⟨hs.1, hs.2.1, trivial⟩
      finishes := fun s h hs => ⟨hs.1, hs.2.1, trivial⟩
      clears := by
        rintro s h hs s' rfl
        exact ⟨hs.1, hs.1, hs.2.1, rfl⟩ }
  exact houtline.triple

theorem weaken_stage {e' : UInt32 → Prop} {c : Prog} {Q : Assertion State Event}
    (h : Triple (alone ok Durable) (With Durable (Stage k e)) c Q X Y) (he : ∀ x, e' x → e x) :
    Triple (alone ok Durable) (With Durable (Stage k e')) c Q X Y :=
  h.pre (stable_alone _) fun _ _ hs => ⟨hs.1, hs.2.1, he _ hs.2.2⟩

theorem gpioHigh_durable
    (hk : ∀ v : Vars, ∀ l, k v.state v.cycleCount l → v.waitElapsedSec ≤ burnDurationSec →
      v.Sound) :
    Triple (alone ok Durable) (With Durable (Stage k (· = 0))) gpioHigh
      (With Durable (Stage k (· = 0))) X Y :=
  .call (stable_alone _) <| .seq (send_stage _) <|
    .seq (M := With Durable (Stage k (· = 0)))
      (.when (stable_alone _) (stable_alone _) (fun _ _ hs _ => hs) (fun _ _ hs _ => hs)
        (.ret (stable_alone _))) <|
    .seq (weaken_stage (wait_durable _ hk) fun _ _ => trivial) (send_stage _)

theorem test_durable (r : Vars → UInt8 → Prop) (site : Test) :
    Triple (alone ok Durable) (With Durable fun s _ => r s.vars s.locals.cycle) (test site)
      (With Durable fun s _ => r s.vars s.locals.cycle) X Y :=
  .does (stable_alone _) fun _ _ _ hs _ => ⟨hs.1.plain trivial, hs.1.plain trivial, hs.2⟩

/-- The loop may be left anywhere. -/
theorem break_stage (site : Test) : Triple (alone ok Durable) (With Durable (Stage k e))
    (breakIfRequested site) (With Durable (Stage k e)) (With Durable fun _ _ => True) Y :=
  .seq (test_durable (fun v l => k v.state v.cycleCount l ∧ e v.waitElapsedSec) site) <|
    .when (M := With Durable fun _ _ => True) (stable_alone _) (stable_alone _)
      (fun _ _ hs _ => ⟨hs.1, trivial⟩) (fun _ _ hs _ => hs) (.brk (stable_alone _))

theorem write_stage {m : LeopState → UInt8 → UInt8 → Prop} {r : UInt32 → Prop} {f : State → Vars}
    (hf : ∀ s, k s.vars.state s.vars.cycleCount s.locals.cycle → e s.vars.waitElapsedSec →
      m (f s).state (f s).cycleCount s.locals.cycle ∧ r (f s).waitElapsedSec) :
    Triple (alone ok Durable) (With Durable (Stage k e)) (write f)
      (With Durable (Stage m r)) X Y :=
  .does (stable_alone _) fun s _ _ hs _ =>
    ⟨hs.1.plain trivial, hs.1.plain trivial, hf s hs.2.1 hs.2.2⟩

/-- In a cycle, in a given state. -/
def InCycle (st : LeopState) : LeopState → UInt8 → UInt8 → Prop :=
  fun st' count cycle => st' = st ∧ count = cycle ∧ cycle < sequenceRepeatCount

theorem InCycle.sound {st : LeopState} (hfirst : st ≠ .initialWait) (hlast : st ≠ .complete)
    (v : Vars) (l : UInt8) (hk : InCycle st v.state v.cycleCount l)
    (he : v.waitElapsedSec ≤ getWaitDuration st) : v.Sound := by
  obtain ⟨rfl, rfl, hlt⟩ := hk
  rw [Vars.Sound]
  cases hst : v.state with
  | initialWait => exact absurd hst hfirst
  | complete => exact absurd hst hlast
  | burn => exact ⟨hlt, hst ▸ he⟩
  | toEnable => exact ⟨hlt, hst ▸ he⟩
  | postWait => exact ⟨hlt, hst ▸ he⟩

theorem InCycle.sound_zero {st : LeopState} (hfirst : st ≠ .initialWait) (hlast : st ≠ .complete)
    (v : Vars) (l : UInt8) (hk : InCycle st v.state v.cycleCount l) (he : v.waitElapsedSec = 0) :
    v.Sound := InCycle.sound hfirst hlast v l hk (he ▸ UInt32.zero_le)

/-- At the end of a cycle the count is ahead of the cycle, and the state says if it was the last. -/
def CycleOver : LeopState → UInt8 → UInt8 → Prop := fun st count cycle =>
  count = cycle + 1 ∧ cycle < sequenceRepeatCount ∧
    st = if count < sequenceRepeatCount then .burn else .complete

theorem CycleOver.sound (v : Vars) (l : UInt8) (hk : CycleOver v.state v.cycleCount l)
    (he : v.waitElapsedSec = 0) : v.Sound := by
  obtain ⟨hcount, hlt, hst⟩ := hk
  by_cases hmore : v.cycleCount < sequenceRepeatCount
  · rw [if_pos hmore] at hst
    rw [Vars.Sound, hst]
    exact ⟨hmore, he ▸ UInt32.zero_le⟩
  · rw [if_neg hmore] at hst
    rw [Vars.Sound, hst]
    refine ⟨?_, he⟩
    have hten : sequenceRepeatCount.toNat = 10 := rfl
    rw [UInt8.lt_iff_toNat_lt, hten] at hlt hmore
    rw [← UInt8.toNat_inj, hten]
    rw [hcount, UInt8.toNat_add] at hmore ⊢
    have hone : (1 : UInt8).toNat = 1 := rfl
    omega

/-- **A cycle** saves sound data only. -/
theorem cycleBody_durable : Triple (alone ok Durable)
    (With Durable (Stage (fun _ count cycle => count = cycle ∧ cycle < sequenceRepeatCount)
      fun _ => True)) cycleBody
    (With Durable (Stage CycleOver (· = 0))) (With Durable fun _ _ => True) Y := by
  have hburn := @InCycle.sound_zero .burn (by decide) (by decide)
  have henable := @InCycle.sound_zero .toEnable (by decide) (by decide)
  have hpost := @InCycle.sound_zero .postWait (by decide) (by decide)
  exact .seq waitZero_durable <|
    .seq (write_stage (m := InCycle .burn) (r := (· = 0)) fun s hk he => ⟨⟨rfl, hk⟩, he⟩) <|
    .seq (gpioHigh_durable (InCycle.sound (by decide) (by decide))) <|
    .seq (break_stage _) <| .seq (save_stage _ hburn) <| .seq (break_stage _) <|
    .seq (write_stage (m := InCycle .toEnable) (r := (· = 0))
      fun s hk he => ⟨⟨rfl, hk.2⟩, he⟩) <|
    .seq (send_stage _) <| .seq (break_stage _) <| .seq (save_stage _ henable) <|
    .seq (break_stage _) <|
    .seq (write_stage (m := InCycle .postWait) (r := (· = 0))
      fun s hk he => ⟨⟨rfl, hk.2⟩, he⟩) <|
    .seq (save_stage _ hpost) <|
    .seq (weaken_stage (wait_durable _ (InCycle.sound (by decide) (by decide)))
      fun _ _ => trivial) <|
    .seq (break_stage _) <|
    .seq (write_stage (m := fun _ count cycle => count = cycle + 1 ∧ cycle < sequenceRepeatCount)
      (r := (· = 0)) fun s hk he => ⟨⟨rfl, hk.2.2⟩, he⟩) <|
    .seq (write_stage (m := CycleOver) (r := (· = 0)) fun s hk he => ⟨⟨hk.1, hk.2, rfl⟩, he⟩) <|
    save_stage _ CycleOver.sound

/-- What comes of a load that has failed. -/
theorem recover_durable : Triple (alone ok Durable) (With Durable Loaded)
    (.when State.failed (.block [
      setVars fun v => { v with errCounter := v.errCounter + 1 },
      setDefaults,
      .emit .loadFailed])) (With Durable fun s _ => s.vars.Sound) X Y := by
  refine .when (M := With Durable fun _ => Excused) (stable_alone _) (stable_alone _)
    (fun s h hs hb => ⟨hs.1, hs.2.1 hb⟩) (fun s h hs hb => ⟨hs.1, hs.2.2 hb⟩) <|
    .seq (assign_alone (q := fun _ => Excused) (fun _ => rfl) fun _ _ hs => hs) <|
    .seq defaults_alone <| .emit (stable_alone _) ?_
  rintro s h ⟨hd, s₀, hx, rfl⟩
  have hfailed : Durable s₀.files (h ++ [.loadFailed]) := hd.defaults trivial hx
  exact ⟨hfailed, hfailed, sound_defaults s₀.vars⟩

/-- The initial wait. -/
theorem initialWait_durable : Triple (alone ok Durable) (With Durable fun s _ => s.vars.Sound)
    (.when (fun s => s.vars.state = .initialWait) (.block [
      wait initialWaitSec,
      test .initialWait,
      .when (fun s => !s.locals.requested) (.block [
        write fun s => { s.vars with state := .burn },
        saveState .process])])) (With Durable fun _ _ => True) X Y := by
  have hstable := @stable_alone ok Durable
  have hwait : ∀ v : Vars, ∀ _ : UInt8, (v.state = .initialWait ∧ v.cycleCount = 0) →
      v.waitElapsedSec ≤ initialWaitSec → v.Sound := by
    intro v _ hk he
    rw [Vars.Sound, hk.1]
    exact ⟨hk.2, he⟩
  have hburn : ∀ v : Vars, ∀ _ : UInt8, (v.state = .burn ∧ v.cycleCount = 0) →
      v.waitElapsedSec = 0 → v.Sound := by
    intro v _ hk he
    rw [Vars.Sound, hk.1, hk.2, he]
    decide
  refine .when (M := With Durable (Stage (fun st count _ => st = .initialWait ∧ count = 0)
      fun _ => True)) (hstable _) (hstable _) ?_ (fun _ _ hs _ => ⟨hs.1, trivial⟩) <|
    .seq (wait_durable _ hwait) <|
    .seq (test_durable (fun v _ => (v.state = .initialWait ∧ v.cycleCount = 0) ∧
      v.waitElapsedSec = 0) _) <|
    .when (M := With Durable (Stage (fun st count _ => st = .initialWait ∧ count = 0) (· = 0)))
      (hstable _) (hstable _) (fun _ _ hs _ => hs) (fun _ _ hs _ => ⟨hs.1, trivial⟩) <|
    .seq (write_stage (m := fun st count _ => st = .burn ∧ count = 0) (r := (· = 0))
      fun s hk he => ⟨⟨rfl, hk.2⟩, he⟩) <|
    (save_stage _ hburn).post fun _ _ hs => ⟨hs.1, trivial⟩
  intro s h hs hb
  have hst : s.vars.state = .initialWait := of_decide_eq_true hb
  have hsound : s.vars.Sound := hs.2
  rw [Vars.Sound, hst] at hsound
  exact ⟨hs.1, ⟨hst, hsound.1⟩, trivial⟩

theorem testCycle_durable : Triple (alone ok Durable)
    (With Durable (Stage k fun _ => True)) testCycle (With Durable (Stage k fun _ => True)) X Y :=
  .when (stable_alone _) (stable_alone _) (fun _ _ hs _ => hs) (fun _ _ hs _ => hs)
    (test_durable (fun v l => k v.state v.cycleCount l ∧ True) _)

/-- **The whole sequence** saves sound data only. -/
theorem process_durable (detumble : Bool) :
    Triple (alone ok Durable) (With Durable fun _ _ => True) (process detumble) (fun _ _ => True)
      (fun _ _ => True) fun _ _ => True := by
  have hstable := @stable_alone ok Durable
  have hlast : ∀ v : Vars, ∀ _ : UInt8, (v.state = .complete ∧ v.cycleCount = sequenceRepeatCount) →
      v.waitElapsedSec = 0 → v.Sound := by
    intro v _ hk he
    rw [Vars.Sound, hk.1]
    exact ⟨hk.2, he⟩
  refine .call (hstable _) <|
    .seq loadState_durable <| .seq recover_durable <|
    .seq (M := With Durable fun s _ => s.vars.Sound)
      (.when (hstable _) (hstable _) (fun _ _ hs _ => hs) (fun _ _ hs _ => hs) <|
        .seq (send_durable (fun v _ => v.Sound) _) <|
        .when (hstable _) (hstable _) (fun _ _ hs _ => hs) (fun _ _ hs _ => hs)
          (assign_alone (fun _ => rfl) fun _ _ hs => hs)) <|
    .seq (M := With Durable fun s _ => s.vars.Sound)
      (.when (hstable _) (hstable _) (fun _ _ hs _ => hs) (fun _ _ hs _ => hs) <|
        .seq (send_durable (fun v _ => v.Sound) _) <|
        .seq (M := fun _ _ => True) (.emit (hstable _)
          fun s h hs => ⟨hs.1.plain trivial, trivial⟩) (.ret (hstable _))) <|
    .seq initialWait_durable <|
    .seq (M := With Durable (Stage (fun _ count cycle => count = cycle) fun _ => True))
      (assign_alone (fun _ => rfl) fun _ _ _ => ⟨rfl, trivial⟩) <|
    .seq testCycle_durable <|
    .seq (M := With Durable (Stage (fun _ _ _ => True) fun _ => True))
      (.loop (M := With Durable (Stage
          (fun _ count cycle => count = cycle ∧ cycle < sequenceRepeatCount) fun _ => True))
        (hstable _) ?_
        (.seq cycleBody_durable <| .seq (assign_alone (fun _ => rfl) ?_) testCycle_durable)
        (fun _ _ hs _ => ⟨hs.1, trivial, trivial⟩) fun _ _ hs => ⟨hs.1, trivial, trivial⟩) <|
    .seq waitZero_durable <|
    .seq (M := With Durable (Stage (fun _ _ _ => True) (· = 0)))
      (assign_alone (fun _ => rfl) fun _ _ hs => hs) <|
    .seq (write_stage (m := fun _ count _ => count = sequenceRepeatCount) (r := (· = 0))
      fun _ _ he => ⟨rfl, he⟩) <|
    .seq (write_stage (m := fun st count _ => st = .complete ∧ count = sequenceRepeatCount)
      (r := (· = 0)) fun _ hk he => ⟨⟨rfl, hk⟩, he⟩) <|
    .seq (save_stage _ hlast) <|
    .emit (hstable _) fun s h hs => ⟨hs.1.plain trivial, trivial⟩
  · intro s h hs hb
    exact ⟨hs.1, ⟨hs.2.1, of_decide_eq_true (Bool.and_eq_true_iff.1 hb).1⟩, trivial⟩
  · exact fun s h hs => ⟨hs.1.1, trivial⟩

end Sequence

/-! ## Runs -/

/-- A power loss leaves the file as it is or as it was. -/
theorem Durable.cut {f : Files} {h : List Event} (hd : Durable f h) (current : Bool) :
    Durable ⟨none, none, f.disk.cut current⟩ (h ++ [.booted]) := by
  refine Durable.plain (e := .booted) ?_ trivial
  have hdata : Content (f.disk.cut current).data h ∧
      ∀ c, .synced c ∈ h → Recorded (f.disk.cut current).data := by
    cases current with
    | true => exact ⟨hd.data, fun c hmem => (hd.recorded c hmem).1⟩
    | false => exact ⟨hd.stable, fun c hmem => (hd.recorded c hmem).2⟩
  exact {
    data := hdata.1
    stable := hdata.1
    sound := hd.sound
    restores := hd.restores
    excused := hd.excused
    recorded := fun c hmem => ⟨hdata.2 c hmem, hdata.2 c hmem⟩ }

theorem durable_empty : Durable ⟨none, none, Disk.empty⟩ [] where
  data bytes hbytes := absurd hbytes (Option.some_ne_none bytes).symm
  stable bytes hbytes := absurd hbytes (Option.some_ne_none bytes).symm
  sound _ _ hmem := absurd hmem List.not_mem_nil
  restores := Each.nil _
  excused := Each.nil _
  recorded _ hmem := absurd hmem List.not_mem_nil

/-- The tasks of a run without commands. -/
def childOnly (ok : State → List Event → Input → Prop) (I : Invariant) :
    Task → Terms State Input Event
  | .process => alone ok I
  | .command => ⟨fun _ _ _ => False, fun _ _ _ _ => True, fun _ _ _ _ => False⟩

theorem durable_run (detumble : Bool) {xs : List (Program.Sched Task Input)}
    (hxs : ∀ i, .step .command i ∉ xs) :
    Durable (after detumble Disk.empty xs).files (events detumble Disk.empty xs) := by
  refine Program.System.invariant (I := fun s h => Durable s.files h)
    (A := fun _ _ x => ∀ i, x ≠ .step .command i)
    (childOnly (fun _ _ _ => True) Durable) (ofChild fun s h => Durable s.files h)
    ?_ ?_ ?_ ?_ ?_ ?_ xs ?_
  · intro t s h i _ hok
    cases t with
    | process => trivial
    | command => exact absurd rfl (hok i)
  · intro t
    cases t with
    | process =>
      exact (process_durable detumble).pre (stable_alone _) fun _ _ hs => ⟨hs, trivial⟩
    | command => exact .idle (fun _ _ _ _ _ _ => trivial) fun _ _ _ => id
  · intro t s h s' h' _ hguar
    cases t with
    | process =>
      refine ⟨hguar, fun t' ht' => ?_⟩
      cases t' with
      | process => exact absurd rfl ht'
      | command => trivial
    | command => exact hguar.elim
  · intro s h i hd _
    have hcut := hd.cut (i.status = success)
    refine ⟨hcut, fun t => ?_⟩
    cases t with
    | process => exact hcut
    | command => trivial
  · exact durable_empty
  · intro t
    cases t with
    | process => exact durable_empty
    | command => trivial
  · rintro pre x hpre i rfl
    exact hxs i (hpre.subset (List.mem_append_right _ (List.mem_singleton.2 rfl)))

/-- **The state survives.**  Without a command, whatever the clock says, whatever fails and whenever
the power is lost: the data file is absent, empty or a whole record that was saved; all that is ever
saved passes all checks and is read back as it was; what is loaded are the data that were saved; and
the defaults are applied only while no record has reached the disk or when the file cannot be
locked, opened or read. -/
theorem state_survives (detumble : Bool) (xs : List (Program.Sched Task Input))
    (hxs : ∀ i, .step .command i ∉ xs) :
    (∀ bytes, (after detumble Disk.empty xs).files.disk.data = some bytes → bytes = [] ∨
      ∃ c d, .snapshot c d ∈ events detumble Disk.empty xs ∧ bytes = fileDataLayout.bytes d) ∧
    (∀ c d, .snapshot c d ∈ events detumble Disk.empty xs →
      d.invalidCode = none ∧ fileDataLayout.read (fileDataLayout.bytes d) = d) ∧
    Each Restores (events detumble Disk.empty xs) ∧
    Each (fun pre e => e.Defaults → .loadError ∈ sinceBoot pre ∨ ∀ c, .synced c ∉ pre)
      (events detumble Disk.empty xs) := by
  have hd := durable_run detumble hxs
  refine ⟨hd.data, fun c d hmem => ?_, hd.restores, hd.excused⟩
  obtain ⟨v, hv, rfl⟩ := hd.sound c d hmem
  exact ⟨(invalidCode_toFile v).2 hv, read_bytes _⟩

/-- A step of the child task in which every call succeeds, at the time 0. -/
def smooth : Program.Sched Task Input := .step .process ⟨success, ⟨0, 0⟩, 16⟩

/-- The power is lost right after the file has been opened for the first time. -/
def cutAfterOpen : List (Program.Sched Task Input) :=
  List.replicate 12 smooth ++ .restart ⟨success, ⟨0, 0⟩, 0⟩ :: List.replicate 40 smooth

theorem cutAfterOpen_survives :
    (∀ bytes, (after false Disk.empty cutAfterOpen).files.disk.data = some bytes → bytes = [] ∨
      ∃ c d, .snapshot c d ∈ events false Disk.empty cutAfterOpen ∧
        bytes = fileDataLayout.bytes d) ∧
    (∀ c d, .snapshot c d ∈ events false Disk.empty cutAfterOpen →
      d.invalidCode = none ∧ fileDataLayout.read (fileDataLayout.bytes d) = d) ∧
    Each Restores (events false Disk.empty cutAfterOpen) ∧
    Each (fun pre e => e.Defaults → .loadError ∈ sinceBoot pre ∨ ∀ c, .synced c ∉ pre)
      (events false Disk.empty cutAfterOpen) :=
  state_survives false cutAfterOpen (by simp [cutAfterOpen, smooth])

/-- The file may be empty, and the defaults are then applied on the second start. -/
theorem file_empty_on_second_start : ¬ ∀ xs : List (Program.Sched Task Input),
    (∀ i, .step .command i ∉ xs) →
    ((after false Disk.empty xs).files.disk.data = none ∨
      ∃ d, (after false Disk.empty xs).files.disk.data = some (fileDataLayout.bytes d)) ∧
    Each (fun pre e => e.Defaults → .booted ∉ pre) (events false Disk.empty xs) := by
  intro hall
  have hrun : (after false Disk.empty cutAfterOpen).files.disk.data = some [] := by decide
  obtain ⟨hnone | ⟨d, hd⟩, -⟩ := hall cutAfterOpen (by simp [cutAfterOpen, smooth])
  · rw [hrun] at hnone
    exact absurd hnone (by simp)
  · rw [hrun] at hd
    have hlength := length_bytes d
    rw [← Option.some.inj hd] at hlength
    exact absurd hlength (by decide)

end Leop
end FlightApps
