import Mathlib.Algebra.Ring.Nat
import FlightApps.Esup.Submission

/-!
# The overall deadline

From its deadline on a session sends neither command nor poll, and a step that finds its mailbox
empty ends it.  A step that finds a reply consumes it first.  Most replies end the session or leave
it where no reply is awaited, so that the next step ends it.  A stray, a reply to a poll that is
neither a result nor BUSY nor NCE, leaves it waiting: with a stray before every step the session
outlives its deadline.  `deadline_bounds_session` says exactly when three more steps do not suffice.

Times are counted in milliseconds without wrapping around; a step reads such a time modulo `2^32`.
-/

set_option autoImplicit false

namespace FlightApps
namespace Esup

/-! ## Late readings of the clock -/

/-- A deadline that lies less than `2^31` ms back is seen as reached. -/
theorem deadlineReached_of_le {d a : Nat} (hle : d ≤ a) (hnear : a < d + 2 ^ 31) :
    deadlineReached (UInt32.ofNat d) (UInt32.ofNat a) = true := by
  have hn : (UInt32.ofNat d - UInt32.ofNat a).toNat = (2 ^ 32 - a % 2 ^ 32 + d % 2 ^ 32) % 2 ^ 32 :=
    UInt32.toNat_sub _ _
  rw [deadlineReached, decide_eq_true_iff, Int32.le_iff_toInt_le]
  change (UInt32.ofNat d - UInt32.ofNat a).toBitVec.toInt ≤ 0
  rw [BitVec.toInt_eq_toNat_cond, UInt32.toNat_toBitVec, hn]
  split <;> omega

/-- A step of the driver, at a time that is past the deadline but not by `2^31` ms. -/
structure LateStep (deadline : Nat) where
  time : Nat
  late : deadline ≤ time
  near : time < deadline + 2 ^ 31
  moduleId : UInt16
  link : Link

def LateStep.call {deadline : Nat} (c : LateStep deadline) : Call :=
  .step c.moduleId (UInt32.ofNat c.time) c.link

/-! ## Replies -/

/-- A status that `step_poll_reply` has no case for. -/
def isStray (status : UInt16) : Bool :=
  status != statusBusy && status != statusNce && status != statusNone

/-- `step_poll_reply` does not end the session: the reply in the mailbox is a stray, or it calls for
another poll, or it is a result that was taken whole. -/
def pollGoesOn (s : Session) : Bool :=
  isStray s.rxStatus || s.rxStatus == statusBusy ||
    (s.rxStatus == statusNce && !s.sawBusy && decide (s.nce + 1 < nceGrace)) ||
    (s.rxStatus == statusNone && s.rxDataLen != 0 && s.rxComplete)

theorem pollGoesOn_congr {s s' : Session} (hstatus : s.rxStatus = s'.rxStatus)
    (hbusy : s.sawBusy = s'.sawBusy) (hnce : s.nce = s'.nce) (hlen : s.rxDataLen = s'.rxDataLen)
    (hfit : s.rxComplete = s'.rxComplete) : pollGoesOn s = pollGoesOn s' := by
  rw [pollGoesOn, pollGoesOn, hstatus, hbusy, hnce, hlen, hfit]

/-- The frame that is deposited when the frames of a list are offered to a session in turn. -/
def delivered (s : Session) (fs : List Frame) : Option Frame :=
  fs.find? fun f => s.command == f.command && s.type == f.type

/-- No reply is awaited and the mailbox is empty. -/
def Settling (s : Session) : Prop :=
  s.rxPending = false ∧
    (s.state = .sendCmd ∨ s.state = .quiet ∨ s.state = .sendPoll ∨ s.state = .ackResult)

/-- `u` waits for the reply to a poll, as `t` did, and has learnt nothing since. -/
structure StillWaiting (t u : Transaction) : Prop where
  state : u.session.state = .awaitResult
  rxPending : u.session.rxPending = false
  inUse : u.session.inUse = true
  command : u.session.command = t.session.command
  type : u.session.type = t.session.type
  deadlineMs : u.session.deadlineMs = t.session.deadlineMs
  sawBusy : u.session.sawBusy = t.session.sawBusy
  nce : u.session.nce = t.session.nce
  lent : u.lent = t.lent

theorem stepSubmitReply_settles (s : Session) (now : UInt32) :
    (stepSubmitReply s now).state = .done ∨ Settling (stepSubmitReply s now) := by
  have hrx := stepSubmitReply_rxPending s now
  simp only [stepSubmitReply] at hrx ⊢
  split
  · exact .inr ⟨rfl, .inr (.inl rfl)⟩
  split
  · exact .inl rfl
  split
  · split
    · exact .inl rfl
    · exact .inr ⟨rfl, .inl rfl⟩
  · exact .inl rfl

/-- A stray only empties the mailbox. -/
theorem stepPollReply_stray {s : Session} (h : isStray s.rxStatus = true) (now : UInt32) :
    stepPollReply s now = { s with rxPending := false, sawReply := true, silence := 0 } := by
  simp only [isStray, Bool.and_eq_true, bne_iff_ne] at h
  simp only [stepPollReply]
  rw [if_neg h.1.1, if_neg h.1.2, if_neg h.2]

/-- A reply to a poll that is no stray ends the session or leaves it where no reply is awaited. -/
theorem stepPollReply_settles {s : Session} (h : isStray s.rxStatus = false) (now : UInt32) :
    (pollGoesOn s = false → (stepPollReply s now).state = .done) ∧
      (pollGoesOn s = true → Settling (stepPollReply s now)) := by
  simp only [pollGoesOn, h, Bool.false_or, stepPollReply]
  split
  · rename_i hbusy
    rw [hbusy]
    exact ⟨fun hgo => by simp at hgo, fun _ => ⟨rfl, .inr (.inr (.inl rfl))⟩⟩
  split
  · rename_i hbusy hnce
    split
    · rename_i hsaw
      refine ⟨fun _ => rfl, fun hgo => ?_⟩
      simp [hnce, hsaw, statusBusy, statusNce, statusNone] at hgo
    split
    · rename_i hsaw hgrace
      refine ⟨fun _ => rfl, fun hgo => ?_⟩
      have hlt : ¬s.nce + 1 < nceGrace := UInt16.not_lt.2 hgrace
      simp [hnce, hlt, statusBusy, statusNce, statusNone] at hgo
    · rename_i hsaw hgrace
      refine ⟨fun hgo => ?_, fun _ => ⟨rfl, .inr (.inr (.inl rfl))⟩⟩
      have hlt : s.nce + 1 < nceGrace := UInt16.not_le.1 hgrace
      simp [hnce, hlt, hsaw] at hgo
  split
  · rename_i hbusy hnce hnone
    split
    · rename_i hlen
      refine ⟨fun _ => rfl, fun hgo => ?_⟩
      simp [hnone, hlen, statusBusy, statusNce, statusNone] at hgo
    split
    · rename_i hlen hfit
      rw [Bool.not_eq_true'] at hfit
      refine ⟨fun _ => rfl, fun hgo => ?_⟩
      simp [hnone, hfit, statusBusy, statusNce, statusNone] at hgo
    · rename_i hlen hfit
      rw [Bool.not_eq_true', Bool.not_eq_false] at hfit
      exact ⟨fun hgo => by simp [hnone, hfit, hlen] at hgo, fun _ => ⟨rfl, .inr (.inr (.inr rfl))⟩⟩
  · rename_i hbusy hnce hnone
    simp [isStray, hbusy, hnce, hnone] at h

/-! ## Late steps -/

variable {s : Session} {lent : Lent} {moduleId : UInt16} {now : UInt32} {link : Link}

/-- From the deadline on, a step that finds the mailbox empty ends the session. -/
theorem sessionStep_late (hfree : s.state ≠ .free) (hrx : s.rxPending = false)
    (hlate : deadlineReached s.deadlineMs now = true) :
    (sessionStep s lent moduleId now link).1.state = .done := by
  rw [sessionStep]
  split
  · rename_i hend
    exact hend.resolve_left hfree
  rw [if_neg (by simp [hrx])]
  split
  · simp only [stepAckResult]
    split
    · rfl
    · split <;> rfl
  · rfl

/-- From the deadline on, a step writes nothing but the acknowledgement of a result. -/
theorem stepEvents_late (hlate : deadlineReached s.deadlineMs now = true) {x : Sent}
    (hx : .sent x ∈ stepEvents s (sessionStep s lent moduleId now link)) : x.kind = .resultAck := by
  simp only [stepEvents] at hx
  split at hx
  · cases hx
  rename_i hlive
  split at hx
  · simp at hx
  rename_i hrx
  split at hx
  · simp at hx
  rw [sessionStep, if_neg hlive, if_neg hrx] at hx
  split at hx
  · rename_i hst
    obtain ⟨y, hy⟩ := sendResultAck_sent s moduleId link
    have hkind : y.kind = .resultAck := by
      cases framerSend_spec .resultAck (resultAckFrame s moduleId) link with
      | ok z hr hkind _ _ =>
        rw [sendResultAck, hr] at hy
        cases hy
        exact hkind
      | failed _ hf => exact (hf y hy).1
    have hsent : (stepAckResult s moduleId link).2 = some y := by
      simp only [stepAckResult]
      split
      · exact hy
      · split <;> exact hy
    rw [hsent] at hx
    have hxy : x = y := by simpa using hx
    rw [hxy, hkind]
  · cases hx

theorem Settling.not_awaiting (h : Settling s) (command type : UInt16) :
    sessionAwaiting s command type = false := by
  rw [← Bool.not_eq_true]
  intro hawait
  obtain ⟨-, -, hst, -, -⟩ := sessionAwaiting_inv hawait
  rcases hst with hst | hst <;> simp [Settling, hst] at h

/-- A frame that is not awaited changes nothing. -/
theorem run_deposits_of_not_awaiting {t : Transaction}
    (h : ∀ command type, sessionAwaiting t.session command type = false) (fs : List Frame) :
    transaction.run t (fs.map Call.deposit) = t := by
  induction fs with
  | nil => rfl
  | cons f fs ih =>
    have hcall : t.call (.deposit f) = (t, []) := by
      rw [Transaction.call, h, if_neg Bool.false_ne_true]
    rw [List.map_cons, Machine.run]
    change transaction.run (t.call (.deposit f)).1 _ = t
    rw [hcall]
    exact ih

/-- The session after a deposit, if there is one. -/
def Transaction.deposited (u : Transaction) : Option Frame → Transaction
  | none => u
  | some f => ⟨sessionDeposit u.session u.lent f, lentDeposit u.session u.lent f⟩

/-- Of the frames that are offered to a session that waits, the first that matches is deposited. -/
theorem run_deposits {t u : Transaction} (h : StillWaiting t u) (fs : List Frame) :
    transaction.run u (fs.map Call.deposit) = u.deposited (delivered t.session fs) := by
  induction fs with
  | nil => rfl
  | cons f fs ih =>
    have hawait : sessionAwaiting u.session f.command f.type =
        (t.session.command == f.command && t.session.type == f.type) := by
      rw [sessionAwaiting, h.inUse, h.rxPending, h.state, h.command, h.type]
      rfl
    rw [List.map_cons, Machine.run]
    change transaction.run (u.call (.deposit f)).1 _ = _
    rw [Transaction.call, hawait]
    by_cases hm : (t.session.command == f.command && t.session.type == f.type) = true
    · have hfind : delivered t.session (f :: fs) = some f := by
        rw [delivered, List.find?_cons, hm]
      rw [if_pos hm, hfind]
      refine run_deposits_of_not_awaiting (fun command type => ?_) fs
      simp [sessionAwaiting, sessionDeposit]
    · have hfind : delivered t.session (f :: fs) = delivered t.session fs := by
        rw [delivered, delivered, List.find?_cons, Bool.eq_false_iff.2 hm]
      rw [if_neg hm, hfind]
      exact ih

/-! ## Rounds -/

/-- Frames that are offered, and then a late step. -/
def round {deadline : Nat} (fs : List Frame) (c : LateStep deadline) : List Call :=
  fs.map Call.deposit ++ [c.call]

variable {deadline : Nat} {t u : Transaction}

/-- The session is over, or its next late step ends it. -/
def EndsSoon (u : Transaction) : Prop := u.session.state = .done ∨ Settling u.session

theorem run_round_of_endsSoon (h : EndsSoon u)
    (hd : u.session.deadlineMs = UInt32.ofNat deadline) (fs : List Frame)
    (c : LateStep deadline) : (transaction.run u (round fs c)).session.state = .done := by
  rcases h with h | h
  · rw [(run_of_done h _).1]
    exact h
  · rw [round, Machine.run_append, run_deposits_of_not_awaiting h.not_awaiting]
    refine sessionStep_late ?_ h.1 (by rw [hd]; exact deadlineReached_of_le c.late c.near)
    rcases h.2 with h | h | h | h <;> simp [h]

/-- A late step on a reply to a poll. -/
theorem step_pollReply {v : Transaction} (hst : v.session.state = .awaitResult)
    (hrx : v.session.rxPending = true) (c : LateStep deadline) :
    (transaction.run v [c.call]) = ⟨stepPollReply v.session (UInt32.ofNat c.time), v.lent⟩ := by
  change (⟨(sessionStep v.session v.lent c.moduleId (UInt32.ofNat c.time) c.link).1, v.lent⟩ :
    Transaction) = _
  rw [sessionStep, if_neg (by simp [hst]), if_pos hrx, if_neg (by simp [hst]), if_pos hst]

/-- What one round does to a session that waits. -/
theorem run_round (h : StillWaiting t u) (ht : t.session.state = .awaitResult)
    (hd : t.session.deadlineMs = UInt32.ofNat deadline) (fs : List Frame)
    (c : LateStep deadline) :
    (delivered t.session fs = none → (transaction.run u (round fs c)).session.state = .done) ∧
      ∀ f, delivered t.session fs = some f →
        (isStray f.cmdStatus = true → StillWaiting t (transaction.run u (round fs c))) ∧
        (isStray f.cmdStatus = false →
          (pollGoesOn (sessionDeposit t.session t.lent f) = false →
            (transaction.run u (round fs c)).session.state = .done) ∧
          (pollGoesOn (sessionDeposit t.session t.lent f) = true →
            Settling (transaction.run u (round fs c)).session)) := by
  have hlate : deadlineReached u.session.deadlineMs (UInt32.ofNat c.time) = true := by
    rw [h.deadlineMs, hd]
    exact deadlineReached_of_le c.late c.near
  refine ⟨fun hnone => ?_, fun f hf => ?_⟩
  · rw [round, Machine.run_append, run_deposits h, hnone, Transaction.deposited]
    exact sessionStep_late (by simp [h.state]) h.rxPending hlate
  · have hstep := step_pollReply
      (v := ⟨sessionDeposit u.session u.lent f, lentDeposit u.session u.lent f⟩) h.state rfl c
    rw [round, Machine.run_append, run_deposits h, hf, Transaction.deposited, hstep]
    refine ⟨fun hstray => ?_, fun hstray => ?_⟩
    · have hst : isStray (sessionDeposit u.session u.lent f).rxStatus = true := hstray
      rw [stepPollReply_stray hst]
      have hlent : lentDeposit u.session u.lent f = u.lent := by
        have hne : f.cmdStatus ≠ statusNone := by
          simp only [isStray, Bool.and_eq_true, bne_iff_ne] at hstray
          exact hstray.2
        simp [lentDeposit, carriesResult, hne]
      exact ⟨h.state, rfl, h.inUse, h.command, h.type, h.deadlineMs, h.sawBusy, h.nce,
        hlent.trans h.lent⟩
    · have hfit : fitted u.session u.lent f = fitted t.session t.lent f := by
        rw [fitted, fitted, carriesResult, carriesResult, h.state, ht, h.lent]
      have hgo : pollGoesOn (sessionDeposit u.session u.lent f) =
          pollGoesOn (sessionDeposit t.session t.lent f) :=
        pollGoesOn_congr rfl h.sawBusy h.nce rfl hfit
      rw [← hgo]
      exact stepPollReply_settles hstray _

/-! ## Whole sessions -/

/-- A reply is in the mailbox only where one is awaited, and only of a claimed session. -/
theorem mailbox_run (slot : Session) (lent : Lent) (k : Nat) (now timeoutMs : UInt32)
    (cs : List Call) :
    let t := transaction.run (.start slot lent k now timeoutMs) cs
    t.session.state ≠ .free ∧ (t.session.rxPending = true →
      t.session.inUse = true ∧
        (t.session.state = .awaitAck ∨ t.session.state = .awaitResult)) := by
  intro t
  have hmail : t.session.state ≠ .free ∧ (t.session.rxPending = true →
      t.session.state = .awaitAck ∨ t.session.state = .awaitResult) :=
    (submission_run slot lent k now timeoutMs cs).1.mailbox
  have huse : t.session.rxPending = true → t.session.inUse = true := by
    refine transaction.invariant
      (P := fun t => t.session.rxPending = true → t.session.inUse = true) ?_ ?_ cs
    · intro t c h
      cases c with
      | step moduleId now link =>
        intro hrx
        have hkept := sessionStep_kept t.session t.lent moduleId now link
        change (sessionStep t.session t.lent moduleId now link).1.rxPending = true at hrx
        change (sessionStep t.session t.lent moduleId now link).1.inUse = true
        by_cases hlive : t.session.state = .free ∨ t.session.state = .done
        · rw [sessionStep_of_ended hlive] at hrx ⊢
          exact h hrx
        · rw [not_or] at hlive
          rw [sessionStep_rxPending hlive.1 hlive.2] at hrx
          cases hrx
      | deposit f =>
        change (t.call (.deposit f)).1.session.rxPending = true →
          (t.call (.deposit f)).1.session.inUse = true
        simp only [Transaction.call]
        split
        · rename_i hawait
          exact fun _ => (sessionAwaiting_inv hawait).1
        · exact h
      | cancel =>
        change (sessionCancel t.session).rxPending = true → (sessionCancel t.session).inUse = true
        rcases sessionCancel_cases t.session with hc | ⟨-, -, hc⟩
        · rw [hc]
          exact h
        · rw [hc]
          intro hrx
          cases hrx
    · intro hrx
      cases hrx
  exact ⟨hmail.1, fun hrx => ⟨huse hrx, hmail.2 hrx⟩⟩

/-- The deadline is set once. -/
theorem call_deadlineMs (t : Transaction) (c : Call) :
    (t.call c).1.session.deadlineMs = t.session.deadlineMs := by
  cases c with
  | step moduleId now link => exact (sessionStep_kept _ _ _ _ _).deadlineMs
  | deposit f =>
    simp only [Transaction.call]
    split <;> rfl
  | cancel =>
    change (sessionCancel t.session).deadlineMs = _
    rcases sessionCancel_cases t.session with hc | ⟨-, -, hc⟩
    · rw [hc]
    · rw [hc]
      rfl

theorem deadlineMs_run (slot : Session) (lent : Lent) (k : Nat) (start : Nat) (timeoutMs : UInt32)
    (cs : List Call) :
    (transaction.run (.start slot lent k (UInt32.ofNat start) timeoutMs) cs).session.deadlineMs =
      UInt32.ofNat (start + timeoutMs.toNat) := by
  refine transaction.invariant
    (P := fun t => t.session.deadlineMs = UInt32.ofNat (start + timeoutMs.toNat)) ?_ ?_ cs
  · exact fun t c h => (call_deadlineMs t c).trans h
  · change UInt32.ofNat start + timeoutMs = _
    rw [UInt32.ofNat_add, UInt32.ofNat_toNat]

/-- Frames and late steps: nothing is written but the acknowledgement of a result. -/
theorem history_late {cs : List Call} (hd : t.session.deadlineMs = UInt32.ofNat deadline)
    (hcs : ∀ c ∈ cs, (∃ f, c = .deposit f) ∨ ∃ l : LateStep deadline, c = l.call) :
    ∀ x, .sent x ∈ transaction.history t cs → x.kind = .resultAck := by
  induction cs generalizing t with
  | nil =>
    intro x hx
    cases hx
  | cons c cs ih =>
    intro x hx
    rw [Machine.history_cons, List.mem_append] at hx
    rcases hx with hx | hx
    · rcases hcs c (by simp) with ⟨f, rfl⟩ | ⟨l, rfl⟩
      · change .sent x ∈ (t.call (.deposit f)).2 at hx
        simp only [Transaction.call] at hx
        split at hx <;> simp at hx
      · exact stepEvents_late (by rw [hd]; exact deadlineReached_of_le l.late l.near) hx
    · exact ih ((call_deadlineMs t c).trans hd) (fun c hc => hcs c (by simp [hc])) x hx

/-- What the first late step does: the session waits on if it finds a stray, and else it is over or
over with the next step. -/
theorem run_first_late {c : LateStep deadline} (hfree : t.session.state ≠ .free)
    (hmail : t.session.rxPending = true →
      t.session.inUse = true ∧
        (t.session.state = .awaitAck ∨ t.session.state = .awaitResult))
    (hd : t.session.deadlineMs = UInt32.ofNat deadline) :
    (t.session.state = .awaitResult ∧ t.session.rxPending = true ∧
        isStray t.session.rxStatus = true ∧ StillWaiting t (transaction.run t [c.call])) ∨
      (¬(t.session.state = .awaitResult ∧ t.session.rxPending = true ∧
        isStray t.session.rxStatus = true) ∧ EndsSoon (transaction.run t [c.call])) := by
  by_cases hrx : t.session.rxPending = true
  · obtain ⟨huse, hst | hst⟩ := hmail hrx
    · refine .inr ⟨fun h => by simp [hst] at h, ?_⟩
      change EndsSoon ⟨(sessionStep t.session t.lent c.moduleId _ c.link).1, t.lent⟩
      rw [sessionStep, if_neg (by simp [hst]), if_pos hrx, if_pos hst]
      exact stepSubmitReply_settles t.session _
    · rw [step_pollReply hst hrx]
      cases hstray : isStray t.session.rxStatus with
      | true =>
        refine .inl ⟨hst, hrx, rfl, ?_⟩
        rw [stepPollReply_stray hstray]
        exact ⟨hst, rfl, huse, rfl, rfl, rfl, rfl, rfl, rfl⟩
      | false =>
        refine .inr ⟨fun h => (by cases h.2.2), ?_⟩
        obtain ⟨hend, hgo⟩ := stepPollReply_settles hstray (UInt32.ofNat c.time)
        cases hp : pollGoesOn t.session with
        | false => exact .inl (hend hp)
        | true => exact .inr (hgo hp)
  · rw [Bool.not_eq_true] at hrx
    refine .inr ⟨fun h => by simp [hrx] at h, .inl ?_⟩
    exact sessionStep_late hfree hrx (by rw [hd]; exact deadlineReached_of_le c.late c.near)

/-- A session that strays keep open past its deadline, `fs₁`, `fs₂` and `fs₃` being the frames that
are offered before the second, the third and the fourth late step: each of the first three steps
finds a stray, and the fourth a reply that does not end the session. -/
def HeldOpen (t : Transaction) (fs₁ fs₂ fs₃ : List Frame) : Prop :=
  (t.session.state = .awaitResult ∧ t.session.rxPending = true ∧
    isStray t.session.rxStatus = true) ∧
  (∃ f, delivered t.session fs₁ = some f ∧ isStray f.cmdStatus = true) ∧
  (∃ f, delivered t.session fs₂ = some f ∧ isStray f.cmdStatus = true) ∧
  ∃ f, delivered t.session fs₃ = some f ∧ pollGoesOn (sessionDeposit t.session t.lent f) = true

/-- One more round with a stray, or else two rounds to the end. -/
theorem run_round_cases (h : StillWaiting t u) (ht : t.session.state = .awaitResult)
    (hd : t.session.deadlineMs = UInt32.ofNat deadline) (fs : List Frame)
    (c : LateStep deadline) :
    ((∃ f, delivered t.session fs = some f ∧ isStray f.cmdStatus = true) ∧
        StillWaiting t (transaction.run u (round fs c))) ∨
      (¬(∃ f, delivered t.session fs = some f ∧ isStray f.cmdStatus = true) ∧
        EndsSoon (transaction.run u (round fs c))) := by
  obtain ⟨hnone, hsome⟩ := run_round h ht hd fs c
  cases hf : delivered t.session fs with
  | none => exact .inr ⟨by simp, .inl (hnone hf)⟩
  | some f =>
    obtain ⟨hstray, hother⟩ := hsome f hf
    cases hs : isStray f.cmdStatus with
    | true => exact .inl ⟨⟨f, rfl, hs⟩, hstray hs⟩
    | false =>
      obtain ⟨hend, hgo⟩ := hother hs
      refine .inr ⟨?_, ?_⟩
      · rintro ⟨g, hg, hgs⟩
        cases hg
        rw [hs] at hgs
        cases hgs
      · cases hp : pollGoesOn (sessionDeposit t.session t.lent f) with
        | false => exact .inl (hend hp)
        | true => exact .inr (hgo hp)

/-- The last round ends the session unless it delivers a reply that does not. -/
theorem run_round_last (h : StillWaiting t u) (ht : t.session.state = .awaitResult)
    (hd : t.session.deadlineMs = UInt32.ofNat deadline) (fs : List Frame)
    (c : LateStep deadline) :
    (transaction.run u (round fs c)).session.state = .done ↔
      ¬∃ f, delivered t.session fs = some f ∧
        pollGoesOn (sessionDeposit t.session t.lent f) = true := by
  obtain ⟨hnone, hsome⟩ := run_round h ht hd fs c
  cases hf : delivered t.session fs with
  | none => simp [hnone hf]
  | some f =>
    obtain ⟨hstray, hother⟩ := hsome f hf
    cases hp : pollGoesOn (sessionDeposit t.session t.lent f) with
    | false =>
      have hs : isStray f.cmdStatus = false := by
        have hp' := hp
        simp only [pollGoesOn, Bool.or_eq_false_iff] at hp'
        exact hp'.1.1.1
      simp [(hother hs).1 hp, hp]
    | true =>
      refine ⟨fun hdone => ?_, fun hno => absurd ⟨f, rfl, hp⟩ hno⟩
      cases hs : isStray f.cmdStatus with
      | true => simp [(hstray hs).state] at hdone
      | false =>
        have hset := ((hother hs).2 hp).2
        simp [hdone] at hset

/-- The calls of four late steps, with the frames that are offered between them. -/
def lateCalls (c₀ c₁ c₂ c₃ : LateStep deadline) (fs₁ fs₂ fs₃ : List Frame) : List Call :=
  [c₀.call] ++ (round fs₁ c₁ ++ (round fs₂ c₂ ++ round fs₃ c₃))

theorem mem_round {c : Call} {fs : List Frame} {l : LateStep deadline} (h : c ∈ round fs l) :
    (∃ f, c = .deposit f) ∨ ∃ l : LateStep deadline, c = l.call := by
  rcases List.mem_append.1 h with h | h
  · obtain ⟨f, -, rfl⟩ := List.mem_map.1 h
    exact .inl ⟨f, rfl⟩
  · exact .inr ⟨l, List.mem_singleton.1 h⟩

theorem mem_lateCalls {c : Call} {c₀ c₁ c₂ c₃ : LateStep deadline} {fs₁ fs₂ fs₃ : List Frame}
    (h : c ∈ lateCalls c₀ c₁ c₂ c₃ fs₁ fs₂ fs₃) :
    (∃ f, c = .deposit f) ∨ ∃ l : LateStep deadline, c = l.call := by
  rcases List.mem_append.1 h with h | h
  · exact .inr ⟨c₀, List.mem_singleton.1 h⟩
  rcases List.mem_append.1 h with h | h
  · exact mem_round h
  rcases List.mem_append.1 h with h | h <;> exact mem_round h

/-- **When the deadline bounds a session.**  After a late step and three more, with any frames
offered between them, the session is over and none of these steps has written a command or a poll,
exactly if strays have not held it open. -/
theorem deadline_bounds_session (slot : Session) (lent : Lent) (k start : Nat)
    (timeoutMs : UInt32) (cs : List Call)
    (c₀ c₁ c₂ c₃ : LateStep (start + timeoutMs.toNat)) (fs₁ fs₂ fs₃ : List Frame) :
    let t := transaction.run (.start slot lent k (UInt32.ofNat start) timeoutMs) cs
    let late := lateCalls c₀ c₁ c₂ c₃ fs₁ fs₂ fs₃
    ((transaction.run t late).session.state = .done ∧
        ∀ x, .sent x ∈ transaction.history t late → x.kind ≠ .command ∧ x.kind ≠ .poll) ↔
      ¬HeldOpen t fs₁ fs₂ fs₃ := by
  intro t late
  obtain ⟨hfree, hmail⟩ := mailbox_run slot lent k (UInt32.ofNat start) timeoutMs cs
  have hd : t.session.deadlineMs = UInt32.ofNat (start + timeoutMs.toNat) :=
    deadlineMs_run slot lent k start timeoutMs cs
  have hquiet : ∀ x, .sent x ∈ transaction.history t late → x.kind ≠ .command ∧ x.kind ≠ .poll := by
    intro x hx
    rw [history_late hd (fun c hc => mem_lateCalls hc) x hx]
    decide
  refine (and_iff_left hquiet).trans ?_
  have hdeadline : ∀ (v : Transaction) (cs' : List Call),
      v.session.deadlineMs = UInt32.ofNat (start + timeoutMs.toNat) →
      (transaction.run v cs').session.deadlineMs = UInt32.ofNat (start + timeoutMs.toNat) :=
    fun v cs' hv => transaction.invariant
      (P := fun v => v.session.deadlineMs = UInt32.ofNat (start + timeoutMs.toNat))
      (fun v c h => (call_deadlineMs v c).trans h) hv cs'
  have hdone : ∀ {v : Transaction} {cs' : List Call}, v.session.state = .done →
      (transaction.run v cs').session.state = .done := by
    intro v cs' hv
    rw [(run_of_done hv cs').1]
    exact hv
  change (transaction.run t
    ([c₀.call] ++ (round fs₁ c₁ ++ (round fs₂ c₂ ++ round fs₃ c₃)))).session.state = .done ↔ _
  rw [Machine.run_append, Machine.run_append, Machine.run_append]
  rcases run_first_late (c := c₀) hfree hmail hd with ⟨hst, hrx, hstray, hw₀⟩ | ⟨hno, hsoon⟩
  swap
  · have hend := run_round_of_endsSoon hsoon (hdeadline _ _ hd) fs₁ c₁
    exact ⟨fun _ hheld => hno hheld.1, fun _ => hdone (hdone hend)⟩
  rcases run_round_cases hw₀ hst hd fs₁ c₁ with ⟨hs₁, hw₁⟩ | ⟨hno, hsoon⟩
  swap
  · have hend := run_round_of_endsSoon hsoon (hdeadline _ _ (hdeadline _ _ hd)) fs₂ c₂
    exact ⟨fun _ hheld => hno hheld.2.1, fun _ => hdone hend⟩
  rcases run_round_cases hw₁ hst hd fs₂ c₂ with ⟨hs₂, hw₂⟩ | ⟨hno, hsoon⟩
  swap
  · have hend := run_round_of_endsSoon hsoon
      (hdeadline _ _ (hdeadline _ _ (hdeadline _ _ hd))) fs₃ c₃
    exact ⟨fun _ hheld => hno hheld.2.2.1, fun _ => hend⟩
  rw [run_round_last hw₂ hst hd fs₃ c₃]
  exact ⟨fun hno hheld => hno hheld.2.2.2,
    fun hno hlast => hno ⟨⟨hst, hrx, hstray⟩, hs₁, hs₂, hlast⟩⟩

/-- A slot claimed for a GET of parameter 1. -/
def getSlot : Session where
  inUse := true
  state := .free
  res := 0
  command := 0x0100
  type := 1
  lent := 0
  deadlineMs := 0
  nextActionMs := 0
  pollIntervalMs := 0
  submitAttempts := 0
  silence := 0
  nce := 0
  sawBusy := false
  sawReply := false
  rxPending := false
  rxComplete := false
  rxStatus := 0
  rxDataLen := 0
  rxExec := 0

/-- The module's ACK to that command. -/
def getAck : Frame where
  moduleId := 0x1023
  cmdStatus := statusAck
  command := 0x0100
  type := 1
  data := []
  fits := Nat.succ_pos 65535

/-- A step at a given time, with a wire that takes every frame. -/
def stepAt (now : UInt32) : Call := .step 0x1023 now ⟨now, none⟩

/-- The same past a deadline at 100 ms. -/
def lateAt (time : Nat) (h : 100 ≤ time ∧ time < 100 + 2 ^ 31) :
    LateStep (0 + (100 : UInt32).toNat) :=
  ⟨time, h.1, h.2, 0x1023, ⟨UInt32.ofNat time, none⟩⟩

/-- A late copy of the submission ACK before every step keeps a session alive: it was submitted at
0 ms with a timeout of 100 ms, has been stepped at 100, 101, 102 and 103 ms, and still waits. -/
theorem strays_outlive_deadline :
    (transaction.run
      (transaction.run (.start getSlot ⟨[], by decide, none⟩ 0 (UInt32.ofNat 0) 100)
        [stepAt 0, .deposit getAck, stepAt 1, stepAt 11, stepAt 11, .deposit getAck])
      (lateCalls (lateAt 100 (by decide)) (lateAt 101 (by decide)) (lateAt 102 (by decide))
        (lateAt 103 (by decide)) [getAck] [getAck] [getAck])).session.state ≠ .done := by
  decide

end Esup
end FlightApps
