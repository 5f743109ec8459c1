import FlightApps.Ttc.Loops

/-!
# Every call is a string of moves

`perform_trace` reads a call of the timeline as a string of `Move`s, with the effects the moves emit
in the order in which the code emits them.  From it the invariant of the timeline holds in every
state a run can reach (`valid_run`), whatever the calls, their arguments and the clock readings.
-/

set_option autoImplicit false

namespace FlightApps
namespace Ttc

variable {t : Timeline} {p : Plan} {op : Op}

/-! ## Strings of moves of one kind -/

theorem trace_note (p : Plan) (evs : List Event) (hev : ∀ ev ∈ evs, ev.isError = false)
    {c : CycleContext}
    (hc : c.processingErrors = p.context.processingErrors ∨ c.processingErrors = 0) :
    Trace (Move op) p (evs.map .event) { p with context := c } :=
  .single (.note p p.paused c evs hc hev)

theorem trace_event (p : Plan) {ev : Event} (hev : ev.isError = false) :
    Trace (Move op) p [.event ev] p :=
  trace_note p [ev] (by simpa using hev) (Or.inl rfl)

theorem trace_tally (p : Plan) (a b d : Nat) : Trace (Move op) p [] (p.tally a b d) :=
  trace_note p [] (by simp) (Or.inl rfl)

/-- The rest of a list is still on the agenda when its first slot is struck off. -/
theorem Plan.Valid.mem_tail (hv : p.Valid) {slot : Nat} {slots : List Nat}
    (hn : (slot :: slots).Nodup) (hs : ∀ s ∈ slot :: slots, s ∈ p.agenda) :
    ∀ s ∈ slots, s ∈ (p.remove slot).agenda := fun s hm =>
  hv.mem_remove.2 ⟨fun he => (List.nodup_cons.1 hn).1 (he ▸ hm), hs s (List.mem_cons_of_mem _ hm)⟩

/-- Entries struck off unsent, one after the other. -/
theorem trace_leave {cause : Cause} (hop : op.lets cause) (hne : cause ≠ .executed)
    (slots : List Nat) : ∀ {p : Plan}, p.Valid → slots.Nodup → (∀ s ∈ slots, s ∈ p.agenda) →
      Trace (Move op) p (slots.map fun s => .left s cause) (p.removeAll slots) := by
  induction slots with
  | nil => intro p _ _ _; rw [Plan.removeAll_nil]; exact .refl p
  | cons slot slots ih =>
    intro p hv hn hs
    rw [Plan.removeAll_cons hv.nodup]
    exact .step (.leave p slot cause hop hne (hs slot (by simp)))
      (ih (hv.remove slot) (List.nodup_cons.1 hn).2 (hv.mem_tail hn hs))

/-- Entries sent and struck off, one after the other. -/
theorem trace_execute (hop : op.lets .executed) (slots : List Nat) :
    ∀ {p : Plan}, p.Valid → slots.Nodup → (∀ s ∈ slots, s ∈ p.agenda) →
      Trace (Move op) p (slots.flatMap (sendEffects p false)) (p.removeAll slots) := by
  induction slots with
  | nil => intro p _ _ _; rw [Plan.removeAll_nil]; exact .refl p
  | cons slot slots ih =>
    intro p hv hn hs
    have hrest := ih (hv.remove slot) (List.nodup_cons.1 hn).2 (hv.mem_tail hn hs)
    have hsame : slots.flatMap (sendEffects (p.remove slot) false) =
        slots.flatMap (sendEffects p false) := by
      refine List.flatMap_congr fun s hm => ?_
      have hne : s ≠ slot := fun he => (List.nodup_cons.1 hn).1 (he ▸ hm)
      rw [sendEffects, sendEffects, Plan.remove_entry, if_neg hne]
    rw [hsame] at hrest
    rw [Plan.removeAll_cons hv.nodup, List.flatMap_cons]
    exact .step (.execute p slot hop (hs slot (by simp))) hrest

/-- Entries sent and kept, one after the other. -/
theorem trace_send (hop : op.isProcess = false) (slots : List Nat)
    (hs : ∀ s ∈ slots, s ∈ p.agenda) :
    Trace (Move op) p (slots.flatMap (sendEffects p true)) p := by
  induction slots with
  | nil => exact .refl p
  | cons slot slots ih =>
    rw [List.flatMap_cons]
    exact .step (.send p slot hop (hs slot (by simp)))
      (ih fun s hm => hs s (List.mem_cons_of_mem _ hm))

/-- With nothing pending, the reserved slots among some slots given up. -/
theorem trace_drop (hop : op.drops) (slots : List Nat) : ∀ {p : Plan}, p.Valid → p.agenda = [] →
    Trace (Move op) p []
      { p with entry := fun s => if s ∈ slots then default else p.entry s } := by
  induction slots with
  | nil => intro p _ _; exact .refl p
  | cons slot slots ih =>
    intro p hv hag
    -- give up the first, which does nothing if it is empty
    have hone : Trace (Move op) p [] (p.put slot default) := by
      cases hst : (p.entry slot).status with
      | empty =>
        have hself : p.put slot default = p := by
          rw [Plan.put, ← hv.blank slot hst, Function.update_eq_self]
        rw [hself]
        exact .refl p
      | pending => exact absurd ((hv.mem slot).2 hst) (by simp [hag])
      | reserved => exact .single (.drop p slot hop hst)
    have hrest := ih (hone.keeps (fun _ _ _ hm hp => hm.valid hp) hv) hag
    refine List.append_nil ([] : List Effect) ▸ hone.trans ?_
    have hsame : ({ p with
          entry := fun s => if s ∈ slot :: slots then default else p.entry s } : Plan) =
        { p.put slot default with
          entry := fun s => if s ∈ slots then default else (p.put slot default).entry s } := by
      refine Plan.ext (funext fun s => ?_) rfl rfl rfl
      simp only [Plan.put_entry, List.mem_cons]
      by_cases h1 : s = slot <;> by_cases h2 : s ∈ slots <;> simp [h1, h2]
    rw [hsame]
    exact hrest

/-! ## The calls -/

theorem trace_removeUnless {persist : Bool} {slot : Nat} (hmem : slot ∈ p.agenda)
    (hprocess : op.isProcess = false) (hop : persist = false → op.lets .executed) :
    Trace (Move op) p (sendEffects p persist slot) (p.removeUnless persist slot) := by
  cases persist with
  | true => exact .single (.send p slot hprocess hmem)
  | false => exact .single (.execute p slot (hop rfl) hmem)

theorem trace_addEntry (hv : t.plan.Valid) (ty : UInt8) (e g : UInt16) (tag : UInt32)
    (st : UInt16) (ex : UInt8) (data : List UInt8) (now : UInt32) (hop : op.commits) :
    Trace (Move op) t.plan (timelineAddEntry t ty e g tag st ex data now).effects
      (timelineAddEntry t ty e g tag st ex data now).timeline.plan := by
  rw [timelineAddEntry_eq hv]
  dsimp only
  split
  · rename_i hok
    obtain ⟨-, htaken, hfull, hcommit⟩ := addStatus_eq_success hok
    obtain ⟨hex, hsize, hle⟩ := commitStatus_eq_success hcommit
    rcases findEmptySlot_cases t with ⟨h, -⟩ | ⟨hslot, hempty⟩
    · simp [full, h] at hfull
    have hold : (t.plan.entry (findEmptySlot t)).status ≠ .pending := by
      rw [plan_entry, hempty]; simp
    have hcount : t.count < maxCommandEntries := by simpa using hv.length_lt hslot hold
    rw [plan_commit hv.sorted hslot hcount]
    refine .single (.commit _ _ _ hop hslot hold rfl ⟨hex, hle, hsize⟩ (fun hid s hs => ?_)
      fun hne => absurd hempty hne)
    -- the identifiers were not taken
    rcases findSlotByEntryId_cases t hid with ⟨-, hno⟩ | ⟨hf, -⟩
    · exact absurd hs (hno s)
    · have hid' : isAnonymousEntry e g = false := hid
      have hf' : findSlotByEntryId t e g < maxCommandEntries := hf
      simp [taken, hid', Nat.ne_of_lt hf'] at htaken
  · exact .refl _

theorem trace_plumbFinalize (hv : t.plan.Valid) (ty : UInt8) (e g : UInt16) (tag : UInt32)
    (st : UInt16) (ex : UInt8) (size : Nat) (now now' : UInt32) (hop : op.commits) :
    Trace (Move op) t.plan (plumbTimelineAddEntryFinalize t ty e g tag st ex size now now').effects
      (plumbTimelineAddEntryFinalize t ty e g tag st ex size now now').timeline.plan := by
  rcases plumbFinalize_cases hv ty e g tag st ex size now now' with
    ⟨-, h⟩ | ⟨-, -, h, -⟩ | ⟨hid, s, hs, hres, h⟩
  · rw [h]; exact .refl _
  · rw [h]; exact .refl _
  rw [h]
  dsimp only
  split
  · rename_i hok
    obtain ⟨hex, hsize, hle⟩ := commitStatus_eq_success (finalizeStatus_eq_success hok).2
    have hold : (t.plan.entry s).status ≠ .pending := by rw [hres.1]; simp
    have hcount : t.count < maxCommandEntries := by simpa using hv.length_lt hs hold
    rw [plan_commit hv.sorted hs hcount]
    refine .single (.commit _ s _ hop hs hold rfl ⟨hex, hle, hsize⟩ (fun hid' s' hs' => ?_)
      fun _ => ⟨rfl, rfl⟩)
    exact hv.unique s' s _ _ hid' hs' ⟨hres.holds.1, rfl, rfl⟩
  · exact .refl _

theorem trace_purge (hv : t.plan.Valid) (now : UInt32) (hop : op.lets .purged)
    (hdrops : op.drops) :
    Trace (Move op) t.plan (purgeTimeline t now).2 (purgeTimeline t now).1.plan := by
  have hleave := trace_leave hop (by simp) t.agenda hv hv.nodup fun _ hs => hs
  have hdrop := hleave.trans (trace_drop hdrops (List.range maxCommandEntries)
    (hv.removeAll t.agenda) t.plan.removeAll_agenda)
  have hnote := hdrop.trans (trace_note _ [] (by simp)
    (c := { (default : CycleContext) with previousTime := now }) (Or.inr rfl))
  rw [List.map_nil, List.append_nil, List.append_nil] at hnote
  rw [plan_purgeTimeline]
  show Trace (Move op) t.plan (t.agenda.map fun s => .left s .purged) _
  convert hnote using 1
  refine Plan.ext (funext fun s => ?_) t.plan.removeAll_agenda.symm rfl rfl
  rcases Nat.lt_or_ge s maxCommandEntries with hs | hs
  · simp [hs]
  · have hb : t.entry s = default := hv.bound s hs
    simp [Nat.not_lt.2 hs, Plan.removeAll, hb]

/-- One round of the processing loop. -/
theorem trace_processNext (hop : ∀ c, c = .executed ∨ c = .skipped ∨ c = .aborted → op.lets c)
    (hv : t.plan.Valid) {slot : Nat} {rest : List Nat} (hag : t.agenda = slot :: rest)
    (now : UInt32) :
    Trace (Move op) t.plan (t.plan.processEffects now slot) (t.plan.processed now slot) := by
  have hmem : slot ∈ t.plan.agenda := by rw [plan_agenda, hag]; simp
  unfold Plan.processEffects Plan.processed
  split
  · exact .refl _
  · have h := Trace.single (Move.execute _ slot (hop _ (by simp)) hmem)
    exact List.append_nil (sendEffects t.plan false slot) ▸ h.trans (trace_tally _ 1 0 0)
  · refine (trace_event _ rfl).trans ?_
    have h := Trace.single (Move.leave _ slot .skipped (hop _ (by simp)) (by simp) hmem)
    exact List.append_nil [Effect.left slot .skipped] ▸ h.trans (trace_tally _ 0 1 0)
  · refine (trace_event _ rfl).trans ?_
    have h := trace_leave (hop .aborted (by simp)) (by simp) t.agenda hv hv.nodup fun _ hs => hs
    exact List.append_nil (t.plan.agenda.map fun s => Effect.left s .aborted) ▸
      h.trans (trace_tally _ 0 0 _)

theorem trace_processLoop (now later : UInt32)
    (hop : ∀ c, c = .executed ∨ c = .skipped ∨ c = .aborted → op.lets c) (fuel : Nat) :
    ∀ {t : Timeline}, t.plan.Valid → Trace (Move op) t.plan (processLoop now later fuel t).2
      (processLoop now later fuel t).1.plan := by
  induction fuel with
  | zero => intro t _; exact .refl _
  | succ fuel ih =>
    intro t hv
    rw [processLoop]
    split
    · rename_i hpos
      cases hag : t.agenda with
      | nil => rw [← t.length_agenda, hag] at hpos; exact absurd hpos (by simp)
      | cons slot rest =>
        obtain ⟨hp, he, -⟩ := processNext_spec hv hag now later
        have hone := trace_processNext hop hv hag now
        rw [← hp, ← he] at hone
        have hv' := hone.keeps (fun _ _ _ hm hp => hm.valid hp) hv
        generalize processNext now later t = r at hone hv'
        obtain ⟨t', es, go⟩ := r
        cases go with
        | false => exact hone
        | true => exact hone.trans (ih hv')
    · exact .refl _

theorem trace_process (hv : t.plan.Valid) (now later : UInt32)
    (hop : ∀ c, c = .executed ∨ c = .skipped ∨ c = .aborted → op.lets c) :
    Trace (Move op) t.plan (processTimeline t now later).effects
      (processTimeline t now later).timeline.plan := by
  have hjump : Trace (Move op) t.plan (detectTimeJump (initCycleContext t) now).2
      (detectTimeJump (initCycleContext t) now).1.plan := by
    have h : Trace (Move op) _ _ _ := trace_note t.plan
      ((if now < t.cycleContext.previousTime then
          [.timeJumpBackward now t.cycleContext.previousTime] else []) ++
        if now > t.cycleContext.previousTime + 1 then
          [.timeJumpForward now t.cycleContext.previousTime] else [])
      (by intro ev hev; grind [Event.isError])
      (c := (detectTimeJump (initCycleContext t) now).1.cycleContext) (Or.inr rfl)
    refine (congrArg (fun es => Trace (Move op) _ es _) ?_).mp h
    simp only [List.map_append, detectTimeJump, initCycleContext, Timeline.setContext]
    congr 1 <;> split <;> simp [*]
  have hv' := hjump.keeps (fun _ _ _ hm hp => hm.valid hp) hv
  unfold processTimeline
  generalize detectTimeJump (initCycleContext t) now = r at hjump hv' ⊢
  obtain ⟨t', jumps⟩ := r
  dsimp only
  have hend : ∀ {es : List Effect} {t'' : Timeline}, Trace (Move op) t.plan es t''.plan →
      Trace (Move op) t.plan es
        (t''.setContext { t''.cycleContext with previousTime := now }).plan := fun {es t''} h =>
    List.append_nil es ▸ h.trans (trace_note t''.plan [] (by simp) (Or.inl rfl))
  split
  · exact hend (by rwa [List.append_nil])
  · exact hend (hjump.trans (trace_processLoop now later hop _ hv'))

theorem trace_refuse {r : Outcome} {status : Status} (h : r = .refuse status t) :
    Trace (Move op) t.plan r.effects r.timeline.plan := by
  obtain ⟨ht, he⟩ := Outcome.of_refuse h
  rw [ht, he]
  exact .refl _

/-- **Every call is a string of moves.** -/
theorem perform_trace (hv : t.plan.Valid) (op : Op) :
    Trace (Move op) t.plan (perform t op).effects (perform t op).timeline.plan := by
  cases op with
  | addEntry ty e g tag st ex data now => exact trace_addEntry hv ty e g tag st ex data now rfl
  | deleteEntry e g =>
    rcases timelineDeleteEntry_cases hv e g with ⟨-, h⟩ | ⟨-, -, h⟩ | ⟨-, s, hs, -, -, he, hp⟩
    · exact trace_refuse h
    · exact trace_refuse h
    · rw [perform, he, hp]; exact .single (.leave _ s .deleted rfl (by simp) hs)
  | deleteGroup g =>
    obtain ⟨-, hp, he⟩ := timelineDeleteGroup_spec hv g
    rw [perform, hp, he]
    exact trace_leave (show Op.lets (.deleteGroup g) .deleted from rfl) (by simp) _ hv
      (hv.nodup.filter _) fun s hs => List.mem_of_mem_filter hs
  | deleteAllEntries =>
    rw [perform, plan_timelineDeleteAllEntries hv]
    exact trace_leave (show Op.lets .deleteAllEntries .deleted from rfl) (by simp) t.agenda hv
      hv.nodup fun _ hs => hs
  | executeEntry e g persist =>
    rcases timelineExecuteEntry_cases hv e g persist with
      ⟨-, h⟩ | ⟨-, -, h⟩ | ⟨-, -, h⟩ | ⟨-, s, hs, -, -, he, hp⟩
    · exact trace_refuse h
    · exact trace_refuse h
    · exact trace_refuse h
    · rw [perform, he, hp]
      have h : Trace (Move (.executeEntry e g persist)) t.plan _ _ :=
        trace_removeUnless hs rfl fun hf => ⟨rfl, hf⟩
      exact List.append_nil (sendEffects t.plan persist s) ▸ h.trans (trace_tally _ 1 0 0)
  | executeGroup g persist =>
    obtain ⟨-, hp, he⟩ := timelineExecuteGroup_spec hv g persist
    rw [perform, hp, he]
    have h : Trace (Move (.executeGroup g persist)) t.plan
        ((t.plan.groupOf g t.agenda).flatMap (sendEffects t.plan persist))
        (t.plan.removeAllUnless persist (t.plan.groupOf g t.agenda)) := by
      cases persist with
      | true => exact trace_send rfl _ fun s hs => List.mem_of_mem_filter hs
      | false =>
        exact trace_execute (show Op.lets (.executeGroup g false) .executed from ⟨rfl, rfl⟩) _ hv
          (hv.nodup.filter _) fun s hs => List.mem_of_mem_filter hs
    rw [← List.append_nil (List.flatMap _ _)]
    exact h.trans (trace_tally _ _ 0 0)
  | pauseProcessing => exact .single (.note t.plan true _ [] (Or.inl rfl) (by simp))
  | resumeProcessing => exact .single (.note t.plan false _ [] (Or.inl rfl) (by simp))
  | plumbInit e g =>
    rcases plumbInit_cases t e g with
      ⟨-, h⟩ | ⟨-, -, h⟩ | ⟨-, -, -, h⟩ | ⟨hid, hno, -, hslot, hempty, h⟩
    · exact trace_refuse h
    · exact trace_refuse h
    · exact trace_refuse h
    · rw [perform, h, plan_setEntry t hslot]
      exact .single (.reserve _ _ e g rfl hslot hempty hid hno)
  | plumbWrite e g chunk offset =>
    rcases plumbWrite_cases t e g chunk offset with
      ⟨-, h⟩ | ⟨-, -, h⟩ | ⟨-, _, -, -, -, h⟩ | ⟨-, s, hs, hres, -, h⟩
    · exact trace_refuse h
    · exact trace_refuse h
    · exact trace_refuse h
    · rw [perform, h, plan_setEntry t hs]
      exact .single (.write _ s _ hres.1)
  | plumbFinalize ty e g tag st ex size now now' =>
    exact trace_plumbFinalize hv ty e g tag st ex size now now' rfl
  | plumbDeleteReserved e g =>
    rcases plumbDeleteReserved_cases t e g with ⟨-, h⟩ | ⟨-, -, h⟩ | ⟨-, s, hs, hres, h⟩
    · exact trace_refuse h
    · exact trace_refuse h
    · rw [perform, h, plan_cancelSlot t hs]
      exact .single (.drop _ s trivial hres.1)
  | purgeTimeline now => exact trace_purge hv now rfl trivial
  | processTimeline now later => exact trace_process hv now later fun c hc => hc
  | resetHousekeeping => exact .refl _

/-! ## The invariant holds in every run -/

theorem valid_init (now : UInt32) : (timelineInitialize now).timeline.plan.Valid where
  bound s _ := Timeline.entry_default s
  nodup := List.nodup_nil
  mem s := iff_of_false
    (by simp [timelineInitialize, Timeline.agenda, Timeline.setContext, default])
    (by rw [plan_entry, show (timelineInitialize now).timeline.entry s = default from
      Timeline.entry_default s]; simp [default])
  sorted := List.Pairwise.nil
  blank s _ := Timeline.entry_default s
  unique a _ _ _ _ ha _ := absurd (congrArg TimelineEntry.status (Timeline.entry_default a)) ha.1
  anonymous s hs := absurd (congrArg TimelineEntry.status (Timeline.entry_default s)) hs
  wellSized s hs := by
    have h : (timelineInitialize now).timeline.plan.entry s = default := Timeline.entry_default s
    rw [h] at hs
    exact absurd hs (by simp [default])
  noErrors := rfl

theorem valid_step {s : State} (h : s.timeline.plan.Valid) (op : Op) :
    (ttc.step s op).1.timeline.plan.Valid :=
  (perform_trace h op).keeps (fun _ _ _ hm hp => hm.valid hp) h

/-- **The invariant of the timeline holds in every reachable state.** -/
theorem valid_run (now : UInt32) (ops : List Op) :
    (ttc.run (timelineInitialize now) ops).timeline.plan.Valid :=
  ttc.invariant (P := fun s => s.timeline.plan.Valid) (fun _ op h => valid_step h op)
    (valid_init now) ops

end Ttc
end FlightApps
