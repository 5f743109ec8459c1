import FlightApps.Esup.Pool

/-!
# Timing does not depend on the origin of the clock

The clock counts milliseconds modulo `2^32` from an arbitrary origin.  Moving the origin adds a
constant to every reading.  Every deadline is a reading plus a delay and is only ever compared with
other readings and deadlines by their difference, so the constant cancels everywhere: this file
proves function by function that the engine is equivariant under such a shift, and from that that
two runs which differ in the origin do the same at the same points.

The timers of a slot that is not in use are leftovers and may differ by anything.
-/

set_option autoImplicit false

namespace FlightApps
namespace Esup

/-! ## Comparing times -/

theorem time_sub_shift (a b c : UInt32) : a + c - (b + c) = a - b := by
  refine UInt32.toBitVec_inj.1 ?_
  rw [UInt32.toBitVec_sub, UInt32.toBitVec_add, UInt32.toBitVec_add, UInt32.toBitVec_sub]
  bv_omega

theorem time_shift_comm (a b c : UInt32) : a + b + c = a + c + b := by
  rw [UInt32.add_assoc, UInt32.add_comm b c, ← UInt32.add_assoc]

theorem deadlineReached_shift (c d now : UInt32) :
    deadlineReached (d + c) (now + c) = deadlineReached d now := by
  rw [deadlineReached, time_sub_shift, deadlineReached]

theorem sooner_shift (c a b : UInt32) : sooner (a + c) (b + c) = sooner a b + c := by
  rw [sooner, time_sub_shift, sooner]
  split <;> rfl

/-- A map out of a case distinction, where the condition and the cases correspond. -/
theorem ite_map {α β : Type} {p q : Prop} [Decidable p] [Decidable q] (g : α → β) {a b : β}
    {a' b' : α} (h : p ↔ q) (ha : a = g a') (hb : b = g b') :
    (if p then a else b) = g (if q then a' else b') := by
  by_cases hp : p
  · rw [if_pos hp, if_pos (h.1 hp), ha]
  · rw [if_neg hp, if_neg (fun hq => hp (h.2 hq)), hb]

/-! ## Sessions -/

/-- The same session on a clock that is `c` ahead. -/
def Session.shift (c : UInt32) (s : Session) : Session :=
  { s with deadlineMs := s.deadlineMs + c, nextActionMs := s.nextActionMs + c }

def Link.shift (c : UInt32) (l : Link) : Link := { l with now := l.now + c }

def Sent.shift (c : UInt32) (x : Sent) : Sent := { x with deadline := x.deadline + c }

theorem framerSend_shift (c : UInt32) (kind : Kind) (f : Frame) (link : Link) :
    framerSend kind f (link.shift c) =
      ((framerSend kind f link).1, (framerSend kind f link).2.map (Sent.shift c)) := by
  simp only [framerSend, Link.shift]
  split
  · rfl
  · split <;> simp only [Option.map_some, Sent.shift, time_shift_comm]

/-- The outcome of a step on a clock that is `c` ahead. -/
def shiftStep (c : UInt32) (r : Session × Option Sent) : Session × Option Sent :=
  (r.1.shift c, r.2.map (Sent.shift c))

section Shift

variable (c : UInt32) (s : Session) (lent : Lent) (moduleId : UInt16) (now : UInt32) (link : Link)

theorem sendCommand_shift :
    sendCommand (s.shift c) lent moduleId (link.shift c) =
      ((sendCommand s lent moduleId link).1,
        (sendCommand s lent moduleId link).2.map (Sent.shift c)) := by
  have hframe : commandFrame (s.shift c) lent moduleId = commandFrame s lent moduleId := rfl
  simp only [sendCommand, hframe, framerSend_shift]
  split <;> rfl

theorem sendGetResults_shift :
    sendGetResults (s.shift c) moduleId (link.shift c) =
      ((sendGetResults s moduleId link).1,
        (sendGetResults s moduleId link).2.map (Sent.shift c)) := by
  have hframe : getResultsFrame (s.shift c) moduleId = getResultsFrame s moduleId := rfl
  simp only [sendGetResults, hframe, framerSend_shift]
  split <;> rfl

theorem stepSubmitReply_shift :
    stepSubmitReply (s.shift c) (now + c) = (stepSubmitReply s now).shift c := by
  refine ite_map (Session.shift c) Iff.rfl (by rw [time_shift_comm]; rfl) ?_
  refine ite_map (Session.shift c) Iff.rfl rfl ?_
  refine ite_map (Session.shift c) Iff.rfl ?_ rfl
  exact ite_map (Session.shift c) Iff.rfl rfl (by rw [time_shift_comm]; rfl)

theorem stepPollReply_shift :
    stepPollReply (s.shift c) (now + c) = (stepPollReply s now).shift c := by
  refine ite_map (Session.shift c) Iff.rfl (by rw [time_shift_comm]; rfl) ?_
  refine ite_map (Session.shift c) Iff.rfl ?_ ?_
  · refine ite_map (Session.shift c) Iff.rfl rfl ?_
    exact ite_map (Session.shift c) Iff.rfl rfl (by rw [time_shift_comm]; rfl)
  · refine ite_map (Session.shift c) Iff.rfl ?_ rfl
    refine ite_map (Session.shift c) Iff.rfl rfl ?_
    exact ite_map (Session.shift c) Iff.rfl rfl rfl

theorem stepAckResult_shift :
    stepAckResult (s.shift c) moduleId (link.shift c) =
      shiftStep c (stepAckResult s moduleId link) := by
  have hframe : resultAckFrame (s.shift c) moduleId = resultAckFrame s moduleId := rfl
  simp only [stepAckResult, sendResultAck, hframe, framerSend_shift]
  refine ite_map (shiftStep c) Iff.rfl rfl ?_
  exact ite_map (shiftStep c) Iff.rfl rfl rfl

theorem afterSend_shift (r : Ret × Option Sent) (next : State) (due : UInt32) :
    afterSend (s.shift c) (r.1, r.2.map (Sent.shift c)) next (due + c) =
      shiftStep c (afterSend s r next due) := by
  rw [afterSend, afterSend]
  split <;> rfl

theorem stepState_shift :
    stepState (s.shift c) lent moduleId (now + c) (link.shift c) =
      shiftStep c (stepState s lent moduleId now link) := by
  have hstate : (s.shift c).state = s.state := rfl
  have hnext : (s.shift c).nextActionMs = s.nextActionMs + c := rfl
  cases hst : s.state with
  | free | ackResult | done => simp only [stepState, hstate, hst, shiftStep]; rfl
  | sendCmd =>
    simp only [stepState, hstate, hst, hnext, deadlineReached_shift, sendCommand_shift]
    split
    · rfl
    · rw [time_shift_comm, afterSend_shift]
  | awaitAck =>
    simp only [stepState, hstate, hst, hnext, deadlineReached_shift]
    split
    · rw [time_shift_comm]
      rfl
    · rfl
  | quiet =>
    simp only [stepState, hstate, hst, hnext, deadlineReached_shift]
    split <;> rfl
  | sendPoll =>
    simp only [stepState, hstate, hst, hnext, deadlineReached_shift, sendGetResults_shift]
    split
    · rfl
    · rw [time_shift_comm, afterSend_shift]
  | awaitResult =>
    simp only [stepState, hstate, hst, hnext, deadlineReached_shift]
    split
    · split
      · rename_i hsil
        have hsil' : s.silence + 1 ≥ silenceRetryMax := hsil
        rw [if_pos hsil']
        rfl
      · rename_i hsil
        have hsil' : ¬s.silence + 1 ≥ silenceRetryMax := hsil
        rw [if_neg hsil', time_shift_comm]
        rfl
    · rfl

/-- **A step is equivariant.** -/
theorem sessionStep_shift :
    sessionStep (s.shift c) lent moduleId (now + c) (link.shift c) =
      shiftStep c (sessionStep s lent moduleId now link) := by
  have hstate : (s.shift c).state = s.state := rfl
  have hrx : (s.shift c).rxPending = s.rxPending := rfl
  have hd : (s.shift c).deadlineMs = s.deadlineMs + c := rfl
  rw [sessionStep, sessionStep, hstate, hrx, hd, deadlineReached_shift, stepSubmitReply_shift,
    stepPollReply_shift, stepAckResult_shift, stepState_shift]
  split
  · rfl
  split
  · split
    · rfl
    · split <;> rfl
  split
  · rfl
  · split <;> rfl

end Shift

/-! ## Calls on a session -/

def Call.shift (c : UInt32) : Call → Call
  | .step moduleId now link => .step moduleId (now + c) (link.shift c)
  | .deposit f => .deposit f
  | .cancel => .cancel

def Event.shift (c : UInt32) : Event → Event
  | .sent x => .sent (x.shift c)
  | e => e

theorem stepEvents_shift (c : UInt32) (s : Session) (r : Session × Option Sent) :
    stepEvents (s.shift c) (shiftStep c r) = (stepEvents s r).map (Event.shift c) := by
  refine ite_map (List.map (Event.shift c)) Iff.rfl rfl ?_
  refine ite_map (List.map (Event.shift c)) Iff.rfl rfl ?_
  refine ite_map (List.map (Event.shift c)) Iff.rfl rfl ?_
  rw [shiftStep]
  cases r.2 <;> rfl

theorem call_shift (c : UInt32) (s : Session) (lent : Lent) (call : Call) :
    Transaction.call ⟨s.shift c, lent⟩ (call.shift c) =
      (⟨(Transaction.call ⟨s, lent⟩ call).1.session.shift c,
          (Transaction.call ⟨s, lent⟩ call).1.lent⟩,
        (Transaction.call ⟨s, lent⟩ call).2.map (Event.shift c)) := by
  cases call with
  | step moduleId now link =>
    simp only [Call.shift, Transaction.call, sessionStep_shift, stepEvents_shift]
    rfl
  | deposit f =>
    have hawait : sessionAwaiting (s.shift c) f.command f.type =
        sessionAwaiting s f.command f.type := rfl
    simp only [Call.shift, Transaction.call, hawait]
    split <;> rfl
  | cancel =>
    have hcancel : sessionCancel (s.shift c) = (sessionCancel s).shift c :=
      ite_map (Session.shift c) Iff.rfl rfl rfl
    simp only [Call.shift, Transaction.call, hcancel]
    rfl

/-! ## The engine -/

/-- A slot on a clock that is `c` ahead.  The timers are shifted if the slot is in use. -/
structure ShiftedSlot (c : UInt32) (s s' : Session) : Prop where
  timers : s' = { s with deadlineMs := s'.deadlineMs, nextActionMs := s'.nextActionMs }
  shifted : s.inUse = true → s' = s.shift c

theorem ShiftedSlot.of_shift (c : UInt32) (s : Session) : ShiftedSlot c s (s.shift c) :=
  ⟨rfl, fun _ => rfl⟩

theorem ShiftedSlot.inUse {c : UInt32} {s s' : Session} (h : ShiftedSlot c s s') :
    s'.inUse = s.inUse := by rw [h.timers]

theorem ShiftedSlot.state {c : UInt32} {s s' : Session} (h : ShiftedSlot c s s') :
    s'.state = s.state := by rw [h.timers]

theorem ShiftedSlot.res {c : UInt32} {s s' : Session} (h : ShiftedSlot c s s') :
    s'.res = s.res := by rw [h.timers]

theorem ShiftedSlot.lent {c : UInt32} {s s' : Session} (h : ShiftedSlot c s s') :
    s'.lent = s.lent := by rw [h.timers]

theorem ShiftedSlot.command {c : UInt32} {s s' : Session} (h : ShiftedSlot c s s') :
    s'.command = s.command := by rw [h.timers]

theorem ShiftedSlot.type {c : UInt32} {s s' : Session} (h : ShiftedSlot c s s') :
    s'.type = s.type := by rw [h.timers]

theorem ShiftedSlot.isLive {c : UInt32} {s s' : Session} (h : ShiftedSlot c s s') :
    sessionIsLive s' = sessionIsLive s := by
  rw [sessionIsLive, sessionIsLive, h.inUse, h.state]

theorem ShiftedSlot.awaiting {c : UInt32} {s s' : Session} (h : ShiftedSlot c s s')
    (command type : UInt16) : sessionAwaiting s' command type = sessionAwaiting s command type := by
  have hrx : s'.rxPending = s.rxPending := by rw [h.timers]
  rw [sessionAwaiting, sessionAwaiting, h.inUse, hrx, h.state, h.command, h.type]

def Phase.shift (c : UInt32) : Phase → Phase
  | .waiting i deadline => .waiting i (deadline + c)
  | p => p

/-- An engine on a clock that is `c` ahead. -/
structure ShiftedEngine (c : UInt32) (e e' : Engine) : Prop where
  framer : e'.framer = e.framer
  moduleId : e'.moduleId = e.moduleId
  sessions : ∀ i, ShiftedSlot c (e.sessions i) (e'.sessions i)
  loans : e'.loans = e.loans
  calls : e'.calls = e.calls
  transacts : ∀ k, e'.transacts k = (e.transacts k).shift c
  reading : e'.reading = e.reading.map (· + c)

def Note.shift (c : UInt32) : Note → Note
  | .did i k call es => .did i k (call.shift c) (es.map (Event.shift c))
  | .wake time active => .wake (time + c) active
  | n => n

/-- A section on two clocks: the engines correspond, and so do the notes. -/
def ShiftedOut (c : UInt32) (r r' : Engine × List Note) : Prop :=
  ShiftedEngine c r.1 r'.1 ∧ r'.2 = r.2.map (Note.shift c)

theorem ShiftedOut.andThen {c : UInt32} {r r' q q' : Engine × List Note} (h : ShiftedOut c r r')
    (hq : ShiftedOut c q q') : ShiftedOut c (q.1, r.2 ++ q.2) (q'.1, r'.2 ++ q'.2) := by
  refine ⟨hq.1, ?_⟩
  simp only [h.2, hq.2, List.map_append]

section Engine

variable {c : UInt32} {e e' : Engine} (h : ShiftedEngine c e e')

include h

theorem ShiftedEngine.setSession {i : Slot} {s s' : Session} (hs : ShiftedSlot c s s') :
    ShiftedEngine c (e.setSession i s) (e'.setSession i s') where
  framer := h.framer
  moduleId := h.moduleId
  sessions j := by
    by_cases hj : j = i
    · subst hj
      rw [setSession_sessions_self, setSession_sessions_self]
      exact hs
    · rw [setSession_sessions_ne e hj, setSession_sessions_ne e' hj]
      exact h.sessions j
  loans := h.loans
  calls := h.calls
  transacts := h.transacts
  reading := h.reading

theorem ShiftedEngine.callOn (i : Slot) (call : Call)
    (huse : call = .cancel ∨ (e.sessions i).inUse = true) :
    ShiftedOut c (e.callOn i call) (e'.callOn i (call.shift c)) := by
  have hi := h.sessions i
  cases hslot : (e.sessions i).inUse with
  | true =>
    have hs := hi.shifted hslot
    have hcall := call_shift c (e.sessions i) (e.loans (e.sessions i).lent) call
    have hlent : ((e.sessions i).shift c).lent = (e.sessions i).lent := rfl
    refine ⟨?_, ?_⟩
    · simp only [Engine.callOn, hs, hlent, h.loans, hcall]
      exact { h.setSession (.of_shift c _) with loans := rfl }
    · simp only [Engine.callOn, hs, hlent, h.loans, hcall]
      rfl
  | false =>
    -- a slot that is not in use is only ever cancelled, which does nothing
    have hdead : sessionIsLive (e.sessions i) = false := by simp [sessionIsLive, hslot]
    have hc : call = .cancel := huse.resolve_right (by simp [hslot])
    subst hc
    have hdead' : sessionIsLive (e'.sessions i) = false := by rw [hi.isLive, hdead]
    have hid : ∀ s : Session, sessionIsLive s = false → sessionCancel s = s :=
      fun s hs => by rw [sessionCancel, hs, if_neg Bool.false_ne_true]
    refine ⟨?_, ?_⟩
    · simp only [Engine.callOn, Call.shift, Transaction.call, hid _ hdead, hid _ hdead', hi.lent,
        h.loans]
      exact { h.setSession hi with loans := rfl }
    · simp only [Engine.callOn, Call.shift, Transaction.call, hi.lent]
      rfl

theorem ShiftedEngine.reap (i : Slot) : ShiftedOut c (e.reap i) (e'.reap i) := by
  have hi := h.sessions i
  rw [Engine.reap, Engine.reap, hi.state, hi.lent]
  split
  · exact ⟨h, rfl⟩
  · refine ⟨h.setSession ?_, rfl⟩
    rename_i hdone
    rw [not_not] at hdone
    rw [sessionReap, sessionReap, hi.state, if_neg (by simp [hdone]), if_neg (by simp [hdone])]
    refine ⟨?_, fun huse => by cases huse⟩
    have ht := hi.timers
    rw [ht]

theorem ShiftedEngine.stepSlots (now : UInt32) (links : Slot → Link) (is : List Slot) :
    ShiftedOut c (e.stepSlots now links is)
      (e'.stepSlots (now + c) (fun i => (links i).shift c) is) := by
  induction is generalizing e e' with
  | nil => exact ⟨h, rfl⟩
  | cons i is ih =>
    rw [Engine.stepSlots, Engine.stepSlots, (h.sessions i).isLive, h.moduleId]
    split
    · rename_i hlive
      have hcall := h.callOn i (.step e.moduleId now (links i)) (.inr (sessionIsLive_iff.1 hlive).1)
      exact hcall.andThen (ih hcall.1)
    · exact ih h

theorem ShiftedEngine.wakeLoop (wake : UInt32) (active : Nat) (is : List Slot) :
    wakeLoop e'.sessions (wake + c) active is =
      ((wakeLoop e.sessions wake active is).1 + c, (wakeLoop e.sessions wake active is).2) := by
  induction is generalizing wake active with
  | nil => rfl
  | cons i is ih =>
    rw [Esup.wakeLoop, Esup.wakeLoop, (h.sessions i).isLive]
    split
    · exact ih wake active
    · rename_i hlive
      have huse : (e.sessions i).inUse = true := (sessionIsLive_iff.1 (by simpa using hlive)).1
      have hd : (e'.sessions i).deadlineMs = (e.sessions i).deadlineMs + c := by
        rw [(h.sessions i).shifted huse, Session.shift]
      have hn : (e'.sessions i).nextActionMs = (e.sessions i).nextActionMs + c := by
        rw [(h.sessions i).shifted huse, Session.shift]
      simp only [hd, hn, sooner_shift]
      exact ih _ _

theorem ShiftedEngine.tick (now now' : UInt32) (links : Slot → Link) :
    ShiftedOut c (e.tick now now' links)
      (e'.tick (now + c) (now' + c) (fun i => (links i).shift c)) := by
  have hsteps := h.stepSlots now links (List.finRange sessionMax)
  have hwake := hsteps.1.wakeLoop (now' + tickMaxBlockMs) 0 (List.finRange sessionMax)
  rw [time_shift_comm] at hwake
  refine ⟨{ hsteps.1 with reading := ?_ }, ?_⟩
  · simp only [Engine.tick, hwake]
    split <;> rfl
  · simp only [Engine.tick, hwake, hsteps.2, List.map_append]
    rfl

theorem ShiftedEngine.sessionAlloc (command type : UInt16) :
    sessionAlloc e'.sessions command type = sessionAlloc e.sessions command type := by
  have hfree : ∀ i, (e'.sessions i).inUse = (e.sessions i).inUse := fun i => (h.sessions i).inUse
  have hcommand : ∀ i, (e'.sessions i).command = (e.sessions i).command :=
    fun i => (h.sessions i).command
  have htype : ∀ i, (e'.sessions i).type = (e.sessions i).type := fun i => (h.sessions i).type
  simp only [Esup.sessionAlloc, hfree, hcommand, htype]

/-- Claiming a slot sets its timers, whatever they were. -/
theorem ShiftedEngine.claim (i : Slot) (command type : UInt16) (k : Nat) (now timeoutMs : UInt32) :
    ShiftedEngine c (e.claim i command type k now timeoutMs)
      (e'.claim i command type k (now + c) timeoutMs) := by
  refine h.setSession ?_
  rw [(h.sessions i).timers]
  refine ⟨rfl, fun _ => ?_⟩
  simp only [sessionInit, Session.shift, time_shift_comm]

theorem ShiftedEngine.numbered (lent : Lent) :
    ShiftedEngine c (e.numbered lent) (e'.numbered lent) :=
  { h with
    loans := by simp only [Engine.numbered, h.loans, h.calls]
    calls := by simp only [Engine.numbered, h.calls] }

theorem ShiftedEngine.startSession (req : Request) (now now' : UInt32) (link : Link) :
    ShiftedEngine c (e.startSession req now now' link).1
        (e'.startSession req (now + c) (now' + c) (link.shift c)).1 ∧
      (e'.startSession req (now + c) (now' + c) (link.shift c)).2.1 =
        (e.startSession req now now' link).2.1 ∧
      (e'.startSession req (now + c) (now' + c) (link.shift c)).2.2 =
        (e.startSession req now now' link).2.2.map (Note.shift c) := by
  have hn := h.numbered req.lent
  have halloc := hn.sessionAlloc req.command req.type
  simp only [Engine.startSession]
  split
  · exact ⟨hn, rfl, rfl⟩
  rw [halloc]
  split
  · exact ⟨hn, rfl, rfl⟩
  rename_i i _
  have hclaim := hn.claim i req.command req.type e.calls now req.timeoutMs
  have huse := (sessionIsLive_iff.1 (claim_isLive (e.numbered req.lent) i req.command req.type
    e.calls now req.timeoutMs)).1
  have hcall := hclaim.callOn i (.step e.moduleId now' link) (.inr huse)
  have hm : ((e'.numbered req.lent).claim i req.command req.type e.calls (now + c)
      req.timeoutMs).moduleId = e.moduleId := h.moduleId
  rw [h.calls, hm]
  exact ⟨hcall.1, rfl, congrArg (.claimed i e.calls :: ·) hcall.2⟩

theorem ShiftedEngine.routeFrame (f : Frame) :
    ShiftedOut c (e.routeFrame f) (e'.routeFrame f) := by
  have hawait : ∀ i, sessionAwaiting (e'.sessions i) f.command f.type =
      sessionAwaiting (e.sessions i) f.command f.type :=
    fun i => (h.sessions i).awaiting f.command f.type
  simp only [Engine.routeFrame, h.moduleId, hawait]
  split
  · exact ⟨h, rfl⟩
  split
  · rename_i i hfind
    have hfound := List.find?_some hfind
    exact h.callOn i (.deposit f) (.inr (sessionAwaiting_inv hfound).1)
  · exact ⟨h, rfl⟩

theorem ShiftedEngine.routeAll (fs : List Frame) :
    ShiftedOut c (e.routeAll fs) (e'.routeAll fs) := by
  induction fs generalizing e e' with
  | nil => exact ⟨h, rfl⟩
  | cons f fs ih => exact (h.routeFrame f).andThen (ih (h.routeFrame f).1)

theorem ShiftedEngine.routeFrames : ShiftedOut c e.routeFrames e'.routeFrames := by
  simp only [Engine.routeFrames, h.framer]
  split
  · rename_i fs framer _
    have hpopped : ShiftedEngine c { e with framer := framer } { e' with framer := framer } :=
      { h with framer := rfl }
    exact hpopped.routeAll fs
  · exact ⟨h, rfl⟩

theorem ShiftedEngine.waitPass (i : Slot) (deadline now : UInt32) :
    waitPass (e'.sessions i) (deadline + c) (now + c) = waitPass (e.sessions i) deadline now := by
  rw [Esup.waitPass, Esup.waitPass, (h.sessions i).state, (h.sessions i).res,
    deadlineReached_shift]

theorem ShiftedEngine.setPhase (k : Nat) (p : Phase) :
    ShiftedEngine c (e.setPhase k p) (e'.setPhase k (p.shift c)) :=
  { h with
    transacts := fun j => by
      rw [setPhase_transacts, setPhase_transacts, h.transacts j]
      split <;> rfl }

theorem ShiftedEngine.finish (k : Nat) (i : Slot) (rc : Ret) :
    ShiftedOut c (e.finish k i rc) (e'.finish k i rc) := by
  have hr : ShiftedOut c (if rc = sessionPending then e.callOn i .cancel else (e, []))
      (if rc = sessionPending then e'.callOn i .cancel else (e', [])) := by
    split
    · exact h.callOn i .cancel (.inl rfl)
    · exact ⟨h, rfl⟩
  have hreap := hr.1.reap i
  simp only [Engine.finish, sessionResult, (hr.1.sessions i).res, (hr.1.sessions i).state]
  refine ⟨hreap.1.setPhase k (.returned _), ?_⟩
  simp only [hr.2, hreap.2, List.map_append]
  rfl

end Engine

/-! ## Runs -/

/-- The same doings of the threads, with every reading of the clock `c` ahead.  The deadline of
`esup_wait` is one of its readings plus its timeout. -/
def Op.shift (c : UInt32) : Op → Op
  | .start req now now' link => .start req (now + c) (now' + c) (link.shift c)
  | .transact req now now' link => .transact req (now + c) (now' + c) (link.shift c)
  | .waitBegin k now => .waitBegin k (now + c)
  | .waitCheck k now => .waitCheck k (now + c)
  | .wait i deadline now => .wait i (deadline + c) (now + c)
  | .tick now now' links => .tick (now + c) (now' + c) fun i => (links i).shift c
  | op => op

theorem ShiftedEngine.act {c : UInt32} {e e' : Engine} (h : ShiftedEngine c e e') (op : Op) :
    ShiftedOut c (e.act op) (e'.act (op.shift c)) := by
  have hreading : e'.reading.isSome = e.reading.isSome := by rw [h.reading, Option.isSome_map]
  cases op with
  | start req now now' link =>
    obtain ⟨he, hrc, hn⟩ := h.startSession req now now' link
    simp only [Op.shift, Engine.act, hrc, h.calls]
    split
    · exact ⟨he, hn⟩
    · refine ⟨he, ?_⟩
      rw [List.map_append, hn]
      rfl
  | transact req now now' link =>
    obtain ⟨he, hrc, hn⟩ := h.startSession req now now' link
    simp only [Op.shift, Engine.act, hrc, h.calls]
    split
    · rename_i i _
      exact ⟨he.setPhase e.calls (.started i req.timeoutMs), hn⟩
    · rename_i rc _
      refine ⟨he.setPhase e.calls (.returned rc), ?_⟩
      rw [List.map_append, hn]
      rfl
  | waitBegin k now =>
    simp only [Op.shift, Engine.act, h.transacts k]
    cases hk : e.transacts k with
    | started i timeoutMs =>
      have hphase := h.setPhase k (.waiting i (now + (timeoutMs + transactWaitMarginMs)))
      rw [Phase.shift, time_shift_comm] at hphase
      exact ⟨hphase, rfl⟩
    | absent | waiting | waited | returned => exact ⟨h, rfl⟩
  | waitCheck k now =>
    simp only [Op.shift, Engine.act, h.transacts k]
    cases hk : e.transacts k with
    | waiting i deadline =>
      simp only [Phase.shift, h.waitPass]
      split
      · rename_i rc _
        exact ⟨h.setPhase k (.waited i rc), rfl⟩
      · exact ⟨h, rfl⟩
    | absent | started | waited | returned => exact ⟨h, rfl⟩
  | finish k =>
    simp only [Op.shift, Engine.act, h.transacts k]
    cases hk : e.transacts k with
    | waited i rc => exact h.finish k i rc
    | absent | started | waiting | returned => exact ⟨h, rfl⟩
  | wait i deadline now =>
    refine ⟨h, ?_⟩
    simp only [Op.shift, Engine.act, h.waitPass]
    rfl
  | reap i => exact h.reap i
  | tick now now' links =>
    simp only [Op.shift, Engine.act, hreading]
    split
    · exact ⟨h, rfl⟩
    · exact h.tick now now' links
  | recv bytes =>
    simp only [Op.shift, Engine.act, hreading]
    split
    · exact ⟨{ h with framer := by rw [h.framer] }, rfl⟩
    · exact ⟨h, rfl⟩
  | route =>
    simp only [Op.shift, Engine.act, hreading]
    split
    · have hread : ShiftedEngine c { e with reading := none } { e' with reading := none } :=
        { h with reading := rfl }
      exact hread.routeFrames
    · exact ⟨h, rfl⟩

theorem ShiftedEngine.run {c : UInt32} {e e' : Engine} (h : ShiftedEngine c e e')
    (ops : List Op) :
    ShiftedEngine c (engine.run e ops) (engine.run e' (ops.map (Op.shift c))) ∧
      engine.answers e' (ops.map (Op.shift c)) =
        (engine.answers e ops).map (List.map (Note.shift c)) := by
  induction ops generalizing e e' with
  | nil => exact ⟨h, rfl⟩
  | cons op ops ih =>
    have hact := h.act op
    obtain ⟨he, hn⟩ := ih hact.1
    refine ⟨he, ?_⟩
    rw [List.map_cons, Machine.answers, Machine.answers, List.map_cons]
    exact congrArg₂ List.cons hact.2 hn

theorem ShiftedEngine.create (c : UInt32) (moduleId : UInt16) (memory : Slot → Session)
    (loans : Nat → Lent) :
    ShiftedEngine c (engineCreate moduleId memory loans) (engineCreate moduleId memory loans) where
  framer := rfl
  moduleId := rfl
  sessions i := ⟨rfl, fun huse => by cases huse⟩
  loans := rfl
  calls := rfl
  transacts k := rfl
  reading := rfl

/-- What an event handed to the wire: which of the three frames it is, the frame, and what became
of it. -/
def Event.written : Event → Option (Kind × Frame × Option WireErr)
  | .sent x => some (x.kind, x.frame, x.err)
  | _ => none

def Note.written : Note → List (Kind × Frame × Option WireErr)
  | .did _ _ _ es => es.filterMap Event.written
  | _ => []

theorem Event.written_shift (c : UInt32) (ev : Event) : (ev.shift c).written = ev.written := by
  cases ev <;> rfl

theorem Note.written_shift (c : UInt32) (n : Note) : (n.shift c).written = n.written := by
  cases n with
  | did i k call es =>
    rw [Note.shift, Note.written, Note.written, List.filterMap_map]
    exact List.filterMap_congr fun ev _ => Event.written_shift c ev
  | claimed | reaped | answered | wake | saw => rfl

/-- What a section handed to the wire. -/
def written (ns : List Note) : List (Kind × Frame × Option WireErr) := ns.flatMap Note.written

theorem written_shift (c : UInt32) (ns : List Note) :
    written (ns.map (Note.shift c)) = written ns := by
  rw [written, List.flatMap_map, written]
  exact congrArg (List.flatMap · ns) (funext (Note.written_shift c))

/-- **Timing does not depend on the origin of the clock.**  Run the engine twice through the same
schedule, with the same bytes and the same answers of the wire, every reading of the clock in the
second run `c` ahead.  Section by section the second run does what the first one did, with every
time in it `c` ahead: the same frames are handed to the wire, the wake time of every tick is `c`
later, the same calls get the same answers.  And after the schedule, which may be cut off anywhere,
every slot is in the same state with the same result. -/
theorem clock_origin_irrelevant (c : UInt32) (moduleId : UInt16) (memory : Slot → Session)
    (loans : Nat → Lent) (ops : List Op) :
    let e := engineCreate moduleId memory loans
    let ops' := ops.map (Op.shift c)
    engine.answers e ops' = (engine.answers e ops).map (List.map (Note.shift c)) ∧
    (engine.answers e ops').map written = (engine.answers e ops).map written ∧
    (∀ i, ((engine.run e ops').sessions i).inUse = ((engine.run e ops).sessions i).inUse ∧
      ((engine.run e ops').sessions i).state = ((engine.run e ops).sessions i).state ∧
      ((engine.run e ops').sessions i).res = ((engine.run e ops).sessions i).res) ∧
    (engine.run e ops').loans = (engine.run e ops).loans ∧
    (engine.run e ops').reading = (engine.run e ops).reading.map (· + c) := by
  intro e ops'
  obtain ⟨hrun, hanswers⟩ := (ShiftedEngine.create c moduleId memory loans).run ops
  refine ⟨hanswers, ?_, fun i => ?_, hrun.loans, hrun.reading⟩
  · rw [hanswers, List.map_map]
    exact List.map_congr_left fun ns _ => written_shift c ns
  · exact ⟨(hrun.sessions i).inUse, (hrun.sessions i).state, (hrun.sessions i).res⟩

end Esup
end FlightApps
