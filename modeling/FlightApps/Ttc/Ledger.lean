import Mathlib.Data.List.Nodup
import FlightApps.Ttc.Runs

/-!
# Following commands through a run

Slots and identifiers are used again, so the state of the timeline cannot say which of the commands
it was once given is in a slot.  A `Ledger` can: it numbers the entries in the order in which they
are committed, remembers the number of the entry in every slot, and writes down every transmission
and every departure.  The ledger is kept by a bookkeeper who only sees the calls with their answers
(`Machine.watch`), and nothing in the timeline depends on it.

`Ledger.Tracks` relates the ledger to the plan.  Its main clause says that the numbers of the
pending entries together with the numbers of those that have left are exactly the numbers given out,
each once; that no command is lost, sent after it left, or let go twice is read off from there
(`no_loss_no_duplication`).
-/

set_option autoImplicit false

namespace FlightApps
namespace Ttc

open StableQueue

variable {p q : Plan} {op : Op}

/-! ## The ledger -/

/-- A line of the ledger.  The number is that of the entry in the slot concerned, if there is one.
-/
inductive Happening
  /-- Its packet was transmitted in the given call. -/
  | sent (serial : Option Nat) (op : Op)
  /-- It left the agenda in the given call. -/
  | left (serial : Option Nat) (op : Op) (cause : Cause)
  deriving DecidableEq

namespace Happening

/-- The number of the entry concerned. -/
def serial : Happening → Option Nat
  | .sent s _ => s
  | .left s _ _ => s

/-- The line is about a departure. -/
def isLeft : Happening → Bool
  | .sent _ _ => false
  | .left _ _ _ => true

/-- The line is a transmission of the given entry by `TTC_ProcessTimeline`. -/
def isProcessed (k : Nat) : Happening → Bool
  | .sent s op => s == some k && op.isProcess
  | .left _ _ _ => false

/-- The line is the departure of the given entry after a transmission. -/
def isExecuted (k : Nat) : Happening → Bool
  | .left s _ cause => s == some k && cause == .executed
  | .sent _ _ => false

@[simp] theorem serial_sent (s : Option Nat) (o : Op) : (sent s o).serial = s := rfl
@[simp] theorem serial_left (s : Option Nat) (o : Op) (c : Cause) : (left s o c).serial = s := rfl
@[simp] theorem isLeft_sent (s : Option Nat) (o : Op) : (sent s o).isLeft = false := rfl
@[simp] theorem isLeft_left (s : Option Nat) (o : Op) (c : Cause) : (left s o c).isLeft = true :=
  rfl

end Happening

/-- What a bookkeeper knows of a run. -/
structure Ledger where
  /-- How many entries were committed. -/
  commits : Nat
  /-- The number of the entry in a slot. -/
  owner : Nat → Option Nat
  /-- All transmissions and departures, in order. -/
  history : List Happening
  /-- How many calls of `TTC_TimelineAddEntry` and `TTC_Plumb_TimelineAddEntryFinalize` returned
  `CFE_SUCCESS`. -/
  successes : Nat

namespace Ledger

/-- Nothing has happened yet. -/
def blank : Ledger := ⟨0, fun _ => none, [], 0⟩

/-- Write one effect of a call down. -/
def enter (op : Op) (l : Ledger) : Effect → Ledger
  | .committed slot =>
    { l with commits := l.commits + 1, owner := Function.update l.owner slot (some l.commits) }
  | .transmit slot _ => { l with history := l.history ++ [.sent (l.owner slot) op] }
  | .left slot cause =>
    { l with
      history := l.history ++ [.left (l.owner slot) op cause]
      owner := Function.update l.owner slot none }
  | .event _ => l

/-- Write a call down: its effects, and whether it was a successful commit. -/
def note (l : Ledger) (op : Op) (answer : Status × List Effect) : Ledger :=
  let l' := answer.2.foldl (enter op) l
  { l' with
    successes := if op.commits && answer.1 == .success then l.successes + 1 else l.successes }

/-- The numbers of the entries that have left. -/
def departed (l : Ledger) : List (Option Nat) :=
  (l.history.filter Happening.isLeft).map Happening.serial

/-- The ledger is right about the plan. -/
structure Tracks (p : Plan) (l : Ledger) : Prop where
  /-- A slot has an entry with a number if and only if it is on the agenda. -/
  owned : ∀ slot, slot ∈ p.agenda ↔ l.owner slot ≠ none
  /-- The numbers given out are those of the pending entries and of those that have left, each
  once. -/
  accounted : (p.agenda.map l.owner ++ l.departed).Perm ((List.range l.commits).map some)
  /-- Every line is about an entry that was committed. -/
  known : ∀ h ∈ l.history, ∃ k < l.commits, h.serial = some k
  /-- After an entry has left, nothing happens to it. -/
  order : l.history.Pairwise fun a b => a.isLeft = true → b.serial ≠ a.serial
  /-- Entries leave in the ways their calls provide for. -/
  lets : ∀ s o cause, .left s o cause ∈ l.history → o.lets cause
  /-- What left as executed was transmitted in the same call. -/
  sent : ∀ s o, .left s o .executed ∈ l.history → .sent s o ∈ l.history
  /-- `TTC_ProcessTimeline` lets go what it transmits. -/
  processed : ∀ k, l.history.countP (Happening.isProcessed k) ≤
    l.history.countP (Happening.isExecuted k)

/-! ## The ledger stays right -/

/-- Only the agenda matters. -/
theorem Tracks.of_agenda {l : Ledger} (h : l.Tracks p) (hq : q.agenda = p.agenda) : l.Tracks q where
  owned slot := by rw [hq]; exact h.owned slot
  accounted := by rw [hq]; exact h.accounted
  known := h.known
  order := h.order
  lets := h.lets
  sent := h.sent
  processed := h.processed

theorem foldl_enter_event (evs : List Event) (l : Ledger) :
    (evs.map Effect.event).foldl (enter op) l = l := by
  induction evs with
  | nil => rfl
  | cons ev evs ih => exact ih

/-- No number is given out twice. -/
theorem Tracks.nodup {l : Ledger} (h : l.Tracks p) :
    (p.agenda.map l.owner ++ l.departed).Nodup :=
  h.accounted.nodup_iff.2 (List.nodup_range.map fun _ _ h => Option.some.inj h)

/-- A pending entry has a number, and has not left. -/
theorem Tracks.of_mem {l : Ledger} (h : l.Tracks p) {slot : Nat} (hmem : slot ∈ p.agenda) :
    (∃ k < l.commits, l.owner slot = some k) ∧ l.owner slot ∉ l.departed := by
  have hm : l.owner slot ∈ p.agenda.map l.owner := List.mem_map_of_mem hmem
  constructor
  · have := h.accounted.mem_iff.1 (List.mem_append_left _ hm)
    obtain ⟨k, hk, he⟩ := List.mem_map.1 this
    exact ⟨k, List.mem_range.1 hk, he.symm⟩
  · exact fun hd => (List.nodup_append.1 h.nodup).2.2 _ hm _ hd rfl

/-- New lines about a pending entry, of which none but the last is about a departure. -/
theorem Tracks.order_append {l : Ledger} (h : l.Tracks p) {slot : Nat} (hmem : slot ∈ p.agenda)
    {lines : List Happening} (hserial : ∀ a ∈ lines, a.serial = l.owner slot)
    (hlines : lines.Pairwise fun a b => a.isLeft = true → b.serial ≠ a.serial) :
    (l.history ++ lines).Pairwise fun a b => a.isLeft = true → b.serial ≠ a.serial := by
  refine List.pairwise_append.2 ⟨h.order, hlines, fun a ha b hb hleft heq => ?_⟩
  refine (h.of_mem hmem).2 ?_
  rw [← hserial b hb, heq]
  exact List.mem_map_of_mem (List.mem_filter.2 ⟨ha, hleft⟩)

/-- An entry is committed. -/
theorem Tracks.commit {l : Ledger} (h : l.Tracks p) (op : Op) {slot : Nat} (e : TimelineEntry)
    (hnew : slot ∉ p.agenda) : (enter op l (.committed slot)).Tracks (p.schedule slot e) where
  owned s := by
    simp only [Plan.mem_schedule, enter, Function.update_apply]
    split
    · rename_i hs; exact iff_of_true (Or.inl hs) (by simp)
    · rename_i hs; rw [or_iff_right hs]; exact h.owned s
  accounted := by
    have hag : (p.schedule slot e).agenda.Perm (slot :: p.agenda) := enqueue_perm ..
    have hsame : p.agenda.map (Function.update l.owner slot (some l.commits)) =
        p.agenda.map l.owner := by
      refine List.map_congr_left fun s hs => ?_
      have hne : s ≠ slot := fun he => hnew (he ▸ hs)
      rw [Function.update_of_ne hne]
    refine (List.Perm.append_right l.departed (hag.map _)).trans ?_
    simp only [List.map_cons, enter, Function.update_self, hsame, List.range_succ, List.map_append,
      List.cons_append]
    exact (List.Perm.cons _ h.accounted).trans (List.perm_append_singleton _ _).symm
  known a ha := by
    obtain ⟨k, hk, hs⟩ := h.known a ha
    exact ⟨k, Nat.lt_succ_of_lt hk, hs⟩
  order := h.order
  lets := h.lets
  sent := h.sent
  processed := h.processed

/-- An entry is sent and kept. -/
theorem Tracks.transmit {l : Ledger} (h : l.Tracks p) {slot : Nat} (hmem : slot ∈ p.agenda)
    (hop : op.isProcess = false) (packet : Command) :
    (enter op l (.transmit slot packet)).Tracks p where
  owned := h.owned
  accounted := by
    have hd : (enter op l (.transmit slot packet)).departed = l.departed := by
      simp [enter, departed]
    rw [hd]
    exact h.accounted
  known a ha := by
    rcases List.mem_append.1 ha with ha | ha
    · exact h.known a ha
    · rw [List.mem_singleton.1 ha]
      exact (h.of_mem hmem).1
  order := h.order_append hmem (by simp) (by simp)
  lets s o cause hm := h.lets s o cause (by simpa [enter] using hm)
  sent s o hm := List.mem_append_left _ (h.sent s o (by simpa [enter] using hm))
  processed k := by
    have := h.processed k
    simpa [enter, Happening.isProcessed, Happening.isExecuted, hop] using this

/-- An entry leaves, after the given lines. -/
theorem Tracks.leave {l : Ledger} (h : l.Tracks p) (hv : p.Valid) {slot : Nat}
    (hmem : slot ∈ p.agenda) {cause : Cause} (hop : op.lets cause) {lines : List Happening}
    (hlines : lines = [] ∧ cause ≠ .executed ∨
      lines = [.sent (l.owner slot) op] ∧ cause = .executed) :
    Tracks (p.remove slot)
      { l with
        history := l.history ++ (lines ++ [.left (l.owner slot) op cause])
        owner := Function.update l.owner slot none } where
  owned s := by
    simp only [hv.mem_remove, Function.update_apply]
    split
    · rename_i hs; exact iff_of_false (fun hc => hc.1 hs) (by simp)
    · rename_i hs; rw [and_iff_right hs]; exact h.owned s
  accounted := by
    have hne : ∀ s ∈ (p.remove slot).agenda, s ≠ slot := fun s hs => (hv.mem_remove.1 hs).1
    have hsame : (p.remove slot).agenda.map (Function.update l.owner slot none) =
        (p.agenda.erase slot).map l.owner :=
      List.map_congr_left fun s hs => Function.update_of_ne (hne s hs) _ _
    have hd : departed { l with
          history := l.history ++ (lines ++ [.left (l.owner slot) op cause])
          owner := Function.update l.owner slot none } = l.departed ++ [l.owner slot] := by
      rcases hlines with ⟨rfl, -⟩ | ⟨rfl, -⟩ <;>
        simp only [departed, List.filter_append, List.map_append] <;> rfl
    rw [hsame, hd, ← List.append_assoc]
    have hperm : (p.agenda.map l.owner).Perm (l.owner slot :: (p.agenda.erase slot).map l.owner) :=
      (List.perm_cons_erase hmem).map l.owner
    refine (List.perm_append_singleton _ _).trans ?_
    exact (List.Perm.append_right l.departed hperm).symm.trans h.accounted
  known a ha := by
    rcases List.mem_append.1 ha with ha | ha
    · exact h.known a ha
    · have hs : a.serial = l.owner slot := by
        rcases hlines with ⟨rfl, -⟩ | ⟨rfl, -⟩ <;> simp at ha <;>
          grind [Happening.serial_sent, Happening.serial_left]
      rw [hs]
      exact (h.of_mem hmem).1
  order := by
    refine h.order_append hmem ?_ ?_ <;> rcases hlines with ⟨rfl, -⟩ | ⟨rfl, -⟩ <;> simp
  lets s o c hm := by
    rcases List.mem_append.1 hm with hm | hm
    · exact h.lets s o c hm
    · rcases hlines with ⟨rfl, -⟩ | ⟨rfl, -⟩ <;> simp at hm <;> grind
  sent s o hm := by
    rcases List.mem_append.1 hm with hm | hm
    · exact List.mem_append_left _ (h.sent s o hm)
    · rcases hlines with ⟨rfl, hc⟩ | ⟨rfl, -⟩
      · simp only [List.nil_append, List.mem_singleton, Happening.left.injEq] at hm
        exact absurd hm.2.2.symm hc
      · simp at hm
        simp [hm.1, hm.2.1]
  processed k := by
    have := h.processed k
    rcases hlines with ⟨rfl, hc⟩ | ⟨rfl, rfl⟩
    · simpa [Happening.isProcessed, Happening.isExecuted, hc] using this
    · by_cases hk : l.owner slot = some k <;> cases hpr : op.isProcess <;>
        simp [List.countP_append, Happening.isProcessed, Happening.isExecuted, hk, hpr] <;> omega

end Ledger

/-- **A move keeps the ledger right.** -/
theorem Move.tracks {l : Ledger} {es : List Effect} (hm : Move op p es q) (hv : p.Valid)
    (h : l.Tracks p) : (es.foldl (Ledger.enter op) l).Tracks q := by
  cases hm with
  | note paused c evs hc hev => rw [Ledger.foldl_enter_event]; exact h.of_agenda rfl
  | reserve slot e g hop hslot hempty hid hfresh => exact h.of_agenda rfl
  | write slot cmd hres => exact h.of_agenda rfl
  | drop slot hop hres => exact h.of_agenda rfl
  | commit slot e hop hslot hnew hpend hwell hid hkeep => exact h.commit op e (hv.notMem hnew)
  | send slot hop hmem => exact h.transmit hmem hop (p.entry slot).command
  | execute slot hop hmem =>
    have := h.leave hv hmem hop (Or.inr ⟨rfl, rfl⟩)
    simpa [Ledger.enter] using this
  | leave slot cause hop hne hmem =>
    have := h.leave hv hmem hop (Or.inl ⟨rfl, hne⟩)
    simpa [Ledger.enter] using this

/-! ## Counting departures -/

/-- The ways to leave the agenda. -/
inductive Exit
  /-- Transmitted by `TTC_ProcessTimeline`. -/
  | processed
  /-- Skipped by it. -/
  | skipped
  /-- Aborted by it. -/
  | aborted
  /-- Transmitted by a non-persistent execute command. -/
  | executed
  /-- Deleted by command. -/
  | deleted
  /-- Purged. -/
  | purged
  deriving DecidableEq

/-- The way a departure took. -/
def Happening.exit : Happening → Option Exit
  | .sent _ _ => none
  | .left _ op .executed => some (if op.isProcess then .processed else .executed)
  | .left _ _ .skipped => some .skipped
  | .left _ _ .aborted => some .aborted
  | .left _ _ .deleted => some .deleted
  | .left _ _ .purged => some .purged

/-- The line is the departure of the given entry. -/
def Happening.isDeparture (k : Nat) (h : Happening) : Bool := h.isLeft && h.serial == some k

namespace Ledger

/-- How many entries left in a given way. -/
def removed (l : Ledger) (x : Exit) : Nat := l.history.countP fun h => h.exit == some x

/-- Every departure took one of the ways. -/
theorem length_departed (l : Ledger) :
    l.departed.length = l.removed .processed + l.removed .skipped + l.removed .aborted +
      l.removed .executed + l.removed .deleted + l.removed .purged := by
  simp only [departed, List.length_map, ← List.countP_eq_length_filter, removed]
  induction l.history with
  | nil => rfl
  | cons a hs ih =>
    simp only [List.countP_cons, ih]
    cases a with
    | sent s o => simp [Happening.exit]
    | left s o cause =>
      cases cause with
      | executed => cases ho : o.isProcess <;> simp [Happening.exit, ho] <;> omega
      | _ => simp [Happening.exit]; try omega

theorem count_departed (l : Ledger) (k : Nat) :
    l.departed.count (some k) = l.history.countP (Happening.isDeparture k) := by
  rw [departed, List.count, List.countP_map, List.countP_filter]
  refine List.countP_congr fun a _ => ?_
  simp [Happening.isDeparture, and_comm]

/-- Every number given out is that of one pending entry, or of one that has left, once. -/
theorem Tracks.fate {l : Ledger} (h : l.Tracks p) {k : Nat} (hk : k < l.commits) :
    (∃ slot, (∀ s, l.owner s = some k ↔ s = slot) ∧
        l.history.countP (Happening.isDeparture k) = 0) ∨
      ((∀ s, l.owner s ≠ some k) ∧ l.history.countP (Happening.isDeparture k) = 1) := by
  have hcount : (p.agenda.map l.owner).count (some k) + l.departed.count (some k) = 1 := by
    rw [← List.count_append, h.accounted.count_eq]
    exact List.count_eq_one_of_mem (h.accounted.nodup_iff.1 h.nodup)
      (List.mem_map_of_mem (List.mem_range.2 hk))
  have hmem : ∀ s, l.owner s = some k → s ∈ p.agenda := fun s hs => (h.owned s).2 (by simp [hs])
  rw [← count_departed]
  rcases Nat.eq_zero_or_pos (l.departed.count (some k)) with hz | hpos
  · have hpend : some k ∈ p.agenda.map l.owner := List.count_pos_iff.1 (by omega)
    obtain ⟨slot, hs, ho⟩ := List.mem_map.1 hpend
    refine Or.inl ⟨slot, fun s => ⟨fun hs' => ?_, fun he => he ▸ ho⟩, hz⟩
    exact List.inj_on_of_nodup_map (List.nodup_append.1 h.nodup).1 (hmem s hs') hs
      (hs'.trans ho.symm)
  · refine Or.inr ⟨fun s hs => ?_, by omega⟩
    have hin : some k ∈ p.agenda.map l.owner := hs ▸ List.mem_map_of_mem (hmem s hs)
    have := List.count_pos_iff.2 hin
    omega

/-- Every number given out is accounted for. -/
theorem Tracks.commits_eq {l : Ledger} (h : l.Tracks p) :
    l.commits = p.agenda.length + l.departed.length := by
  have := h.accounted.length_eq
  simpa using this.symm

/-- No entry is transmitted twice by `TTC_ProcessTimeline`. -/
theorem Tracks.processed_le {l : Ledger} (h : l.Tracks p) (k : Nat) :
    l.history.countP (Happening.isProcessed k) ≤ 1 := by
  have hle : l.history.countP (Happening.isExecuted k) ≤ l.departed.count (some k) := by
    rw [count_departed]
    refine List.countP_mono_left fun a _ ha => ?_
    cases a with
    | sent s o => exact absurd ha (by simp [Happening.isExecuted])
    | left s o cause =>
      simp only [Happening.isExecuted, Bool.and_eq_true] at ha
      simpa [Happening.isDeparture] using ha.1
  have hone := List.nodup_iff_count_le_one.1 (List.nodup_append.1 h.nodup).2.1 (some k)
  exact Nat.le_trans (h.processed k) (Nat.le_trans hle hone)

end Ledger

/-! ## Commits are successful calls -/

/-- The mark of a commit. -/
def Effect.isCommit : Effect → Bool
  | .committed _ => true
  | _ => false

theorem Ledger.commits_foldl (es : List Effect) (l : Ledger) :
    (es.foldl (Ledger.enter op) l).commits = l.commits + es.countP Effect.isCommit := by
  induction es generalizing l with
  | nil => rfl
  | cons e es ih =>
    rw [List.foldl_cons, ih, List.countP_cons]
    cases e <;> simp [Ledger.enter, Effect.isCommit]
    omega

/-- A call commits one entry if it is a successful commit, and none otherwise. -/
theorem perform_isCommit {t : Timeline} (hv : t.plan.Valid) (op : Op) :
    (perform t op).effects.countP Effect.isCommit =
      if op.commits && (perform t op).status == .success then 1 else 0 := by
  cases hop : op.commits with
  | false =>
    rw [Bool.false_and, if_neg Bool.false_ne_true, List.countP_eq_zero]
    refine (perform_trace hv op).emits (P := fun _ => True) (fun p es q hm _ => ⟨trivial, ?_⟩)
      trivial
    cases hm with
    | note paused c evs hc hev => simp [Effect.isCommit]
    | commit slot e hop' => rw [hop] at hop'; exact absurd hop' Bool.false_ne_true
    | _ => simp [Effect.isCommit]
  | true =>
    cases op with
    | addEntry ty e g tag st ex data now =>
      rw [perform, timelineAddEntry_eq hv]
      dsimp only
      split
      · rfl
      · rename_i hne; simp [Outcome.refuse, hne]
    | plumbFinalize ty e g tag st ex size now now' =>
      rcases plumbFinalize_cases hv ty e g tag st ex size now now' with
        ⟨-, h⟩ | ⟨-, -, h, hne⟩ | ⟨-, s, -, -, h⟩
      · rw [perform, h]; rfl
      · rw [perform, h]; simp [Outcome.refuse, hne]
      · rw [perform, h]
        dsimp only
        split
        · rfl
        · rename_i hne; simp [Outcome.refuse, hne]
    | _ => exact absurd hop Bool.false_ne_true

/-! ## The ledger of a run -/

/-- The ledger is right about the state, and its numbers count the successful calls. -/
structure Ledger.RightAbout (s : State) (l : Ledger) : Prop where
  /-- The timeline satisfies its invariant. -/
  valid : s.timeline.plan.Valid
  /-- The ledger is right about its plan. -/
  tracks : l.Tracks s.timeline.plan
  /-- Every successful call gave out a number. -/
  successes : l.commits = l.successes

theorem Ledger.RightAbout.step {s : State} {l : Ledger} (h : l.RightAbout s) (op : Op) :
    (l.note op (ttc.step s op).2).RightAbout (ttc.step s op).1 := by
  have htr : (perform s.timeline op).timeline.plan.Valid ∧
      ((perform s.timeline op).effects.foldl (Ledger.enter op) l).Tracks
        (perform s.timeline op).timeline.plan :=
    (perform_trace h.valid op).follows (P := fun p l => p.Valid ∧ Ledger.Tracks p l)
      (fun _ _ _ _ hm hp => ⟨hm.valid hp.1, hm.tracks hp.1 hp.2⟩) ⟨h.valid, h.tracks⟩
  refine ⟨htr.1, { htr.2 with }, ?_⟩
  show ((perform s.timeline op).effects.foldl (Ledger.enter op) l).commits =
    if op.commits && (perform s.timeline op).status == .success then l.successes + 1
    else l.successes
  rw [Ledger.commits_foldl, perform_isCommit h.valid, h.successes]
  split <;> rfl

theorem rightAbout_run (now : UInt32) (ops : List Op) :
    let w := (ttc.watch Ledger.note).run (timelineInitialize now, Ledger.blank) ops
    w.2.RightAbout w.1 := by
  refine (ttc.watch Ledger.note).invariant (P := fun w => w.2.RightAbout w.1)
    (fun w op h => h.step op) ⟨valid_init now, ?_, rfl⟩ ops
  exact ⟨fun s => iff_of_false (by simp [timelineInitialize, Timeline.agenda, Timeline.setContext,
    default]) (by simp [Ledger.blank]), List.Perm.refl [], by simp [Ledger.blank],
    List.Pairwise.nil, by simp [Ledger.blank], by simp [Ledger.blank], fun _ => Nat.le_refl 0⟩

/-- **No command is lost and none is duplicated.**  After any run, with the ledger kept along it:
the numbers given out count the successful commits; the pending slots are those that hold a numbered
entry; every number is that of one pending entry that never left, or of one that is pending no more
and left once; nothing happens to an entry after it left; entries leave only in the ways their calls
provide for, those that left as executed after a transmission; `TTC_ProcessTimeline` transmits no
entry twice; and the books balance.  -/
theorem no_loss_no_duplication (now : UInt32) (ops : List Op) :
    let w := (ttc.watch Ledger.note).run (timelineInitialize now, Ledger.blank) ops
    let t := w.1.timeline
    let l := w.2
    w.1 = ttc.run (timelineInitialize now) ops ∧
      l.commits = l.successes ∧
      (∀ slot, (t.entry slot).status = .pending ↔ ∃ k < l.commits, l.owner slot = some k) ∧
      (∀ k < l.commits,
        (∃ slot, (∀ s, l.owner s = some k ↔ s = slot) ∧
          l.history.countP (Happening.isDeparture k) = 0) ∨
        ((∀ s, l.owner s ≠ some k) ∧ l.history.countP (Happening.isDeparture k) = 1)) ∧
      (∀ h ∈ l.history, ∃ k < l.commits, h.serial = some k) ∧
      (l.history.Pairwise fun a b => a.isLeft = true → b.serial ≠ a.serial) ∧
      (∀ s o cause, .left s o cause ∈ l.history →
        o.lets cause ∧ (cause = .executed → .sent s o ∈ l.history)) ∧
      (∀ k, l.history.countP (Happening.isProcessed k) ≤ 1) ∧
      l.commits = t.count + (l.removed .processed + l.removed .skipped + l.removed .aborted +
        l.removed .executed + l.removed .deleted + l.removed .purged) := by
  intro w t l
  have h : l.RightAbout w.1 := rightAbout_run now ops
  have htr : l.Tracks t.plan := h.tracks
  refine ⟨ttc.watch_run_fst _ _ ops, h.successes, fun slot => ?_, fun k hk => htr.fate hk,
    htr.known,
    htr.order, fun s o cause hm => ⟨htr.lets s o cause hm, fun he => ?_⟩, htr.processed_le, ?_⟩
  · refine (h.valid.mem slot).symm.trans ((htr.owned slot).trans ⟨fun ho => ?_, ?_⟩)
    · exact (htr.of_mem ((htr.owned slot).2 ho)).1
    · rintro ⟨k, -, hk⟩
      rw [hk]
      simp
  · subst he
    exact htr.sent s o hm
  · rw [htr.commits_eq, l.length_departed, plan_agenda, t.length_agenda]

end Ttc
end FlightApps
