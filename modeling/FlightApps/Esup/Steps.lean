import FlightApps.Lib.Machine
import FlightApps.Esup.Session

/-!
# What a session can do in one step

`sessionStep` is a long function of many fields.  `Move` says what it can do in the terms later
proofs need: from which state to which, what it consumes from the mailbox, what it hands to the
wire and with what result it ends.  `sessionStep_move` is the one place that looks inside the
function; every invariant of sessions is a case analysis on `Move`.

`transaction` is a session on its own, as a machine: it is stepped, it is given frames whenever it
awaits them, it is cancelled.  Its answers are the events that its history is made of.
-/

set_option autoImplicit false

namespace FlightApps
namespace Esup

/-! ## Events -/

/-- What happens to a session. -/
inductive Event
  /-- A frame is deposited, in this state; the flag says whether the caller's buffer took it. -/
  | deposited (inState : State) (f : Frame) (fitted : Bool)
  /-- A reply is taken from the mailbox, in this state. -/
  | consumed (inState : State) (status : UInt16)
  /-- The wait for the submission reply is given up. -/
  | unanswered
  /-- A frame is handed to the wire. -/
  | sent (x : Sent)
deriving DecidableEq

/-- The events of a step from `s`, given what it returns. -/
def stepEvents (s : Session) (r : Session × Option Sent) : List Event :=
  if s.state = .free ∨ s.state = .done then []
  else if s.rxPending then [.consumed s.state s.rxStatus]
  else if s.state = .awaitAck ∧ r.1.state = .quiet then [.unanswered]
  else (r.2.map Event.sent).toList

/-! ## Return codes -/

theorem or_ne_zero {a : Ret} (b : Ret) (h : a ≠ 0) : a ||| b ≠ 0 := by
  rw [Ne, UInt32.or_eq_zero_iff]
  exact fun hz => h hz.1

theorem retEngine_or (a b : Ret) : retEngine (a ||| b) = retEngine a ||| retEngine b := by
  rw [retEngine, retEngine, retEngine]
  refine UInt32.toBitVec_inj.1 ?_
  simp only [UInt32.toBitVec_and, UInt32.toBitVec_or]
  ext i hi
  simp only [BitVec.getElem_and, BitVec.getElem_or]
  grind

/-- The execution status stays out of the engine's byte. -/
theorem retEngine_exec (b : UInt8) : retEngine b.toUInt32 = 0 := by
  have hmask : (0xFF000000 : UInt32).toBitVec = 0xFF#32 <<< 24 := rfl
  refine UInt32.toBitVec_inj.1 ?_
  rw [retEngine, UInt32.toBitVec_and, hmask]
  change b.toBitVec.setWidth 32 &&& 0xFF#32 <<< 24 = 0#32
  ext i hi
  simp only [BitVec.getElem_and, BitVec.getElem_setWidth, BitVec.getElem_shiftLeft,
    BitVec.getElem_zero]
  have hbyte : i < 8 ∨ 8 ≤ i := by omega
  grind

/-! ## Sending -/

/-- What a send can come to: the wire took the frame, or there is an error code, and then the wire
either refused the frame or never got it. -/
inductive SendSpec (kind : Kind) (f : Frame) (r : Ret × Option Sent) : Prop
  | ok (x : Sent) (hr : r = (retOk, some x)) (hkind : x.kind = kind) (hframe : x.frame = f)
      (herr : x.err = none)
  | failed (hr : r.1 ≠ retOk)
      (hsent : ∀ x, r.2 = some x → x.kind = kind ∧ x.frame = f ∧ x.err ≠ none)

theorem framerSend_spec (kind : Kind) (f : Frame) (link : Link) :
    SendSpec kind f (framerSend kind f link) := by
  simp only [framerSend]
  split
  · rename_i enc _
    refine .failed ?_ (fun x hx => by cases hx)
    cases enc <;> decide
  · split
    · exact .ok _ rfl rfl rfl rfl
    · rename_i wret _
      refine .failed (or_ne_zero _ (by decide)) (fun x hx => ?_)
      cases hx
      exact ⟨rfl, rfl, by simp⟩

theorem retEngine_framerSend (kind : Kind) (f : Frame) (link : Link) :
    retEngine (framerSend kind f link).1 = 0 := by
  simp only [framerSend]
  split
  · rename_i enc _
    cases enc <;> decide
  · split
    · change retEngine retOk = 0
      decide
    · rename_i wret _
      change retEngine (frameErrIo ||| wret.code) = 0
      cases wret <;> decide

/-- The engine's byte that the senders add is no success either. -/
theorem SendSpec.io {kind : Kind} {f : Frame} {r : Ret × Option Sent} (h : SendSpec kind f r) :
    SendSpec kind f (if r.1 ≠ retOk then (sessionIoError ||| r.1, r.2) else (retOk, r.2)) := by
  cases h with
  | ok x hr hkind hframe herr =>
    subst hr
    exact .ok x rfl hkind hframe herr
  | failed hr hsent =>
    rw [if_pos hr]
    exact .failed (or_ne_zero _ (by decide)) hsent

theorem sendCommand_spec (s : Session) (lent : Lent) (moduleId : UInt16) (link : Link) :
    SendSpec .command (commandFrame s lent moduleId) (sendCommand s lent moduleId link) :=
  (framerSend_spec _ _ _).io

theorem sendGetResults_spec (s : Session) (moduleId : UInt16) (link : Link) :
    SendSpec .poll (getResultsFrame s moduleId) (sendGetResults s moduleId link) :=
  (framerSend_spec _ _ _).io

/-- The acknowledgement has no data, so it always gets to the wire. -/
theorem sendResultAck_sent (s : Session) (moduleId : UInt16) (link : Link) :
    ∃ x, (sendResultAck s moduleId link).2 = some x := by
  have henc : frameEncode (resultAckFrame s moduleId) frameMax =
      .ok (resultAckFrame s moduleId).wire := by
    rw [frameEncode_eq, if_neg (by simp [resultAckFrame]), if_neg]
    exact Nat.not_lt.2 (frameWireLen_le _)
  rw [sendResultAck]
  simp only [framerSend, henc]
  split <;> exact ⟨_, rfl⟩

/-! ## Moves -/

/-- What a step of a session does, from `s` to `s'`. -/
inductive Move (moduleId : UInt16) (s s' : Session) : List Event → Prop
  | idle (h : s' = s) : Move moduleId s s' []
  | dropped (hrx : s.rxPending = true) (hdone : s.state ≠ .done) (hack : s.state ≠ .awaitAck)
      (hres : s.state ≠ .awaitResult) (hst' : s'.state = s.state) :
      Move moduleId s s' [.consumed s.state s.rxStatus]
  | accepted (hst : s.state = .awaitAck) (hst' : s'.state = .quiet) :
      Move moduleId s s' [.consumed .awaitAck s.rxStatus]
  | refused (hst : s.state = .awaitAck)
      (hrx : s.rxStatus = statusStackFull ∨ s.rxStatus = statusTempNotAccepted)
      (hst' : s'.state = .sendCmd) (hn : s'.submitAttempts = s.submitAttempts + 1)
      (hmax : s'.submitAttempts ≤ submitRetryMax) :
      Move moduleId s s' [.consumed .awaitAck s.rxStatus]
  | submitted (x : Sent) (hst : s.state = .sendCmd) (hkind : x.kind = .command)
      (hst' : s'.state = .awaitAck) (hn : s'.submitAttempts = s.submitAttempts) :
      Move moduleId s s' [.sent x]
  | unanswered (hst : s.state = .awaitAck) (hst' : s'.state = .quiet) :
      Move moduleId s s' [.unanswered]
  | toPoll (hst : s.state = .quiet ∨ s.state = .awaitResult) (hst' : s'.state = .sendPoll) :
      Move moduleId s s' []
  | polled (x : Sent) (hst : s.state = .sendPoll) (hkind : x.kind = .poll)
      (hst' : s'.state = .awaitResult) : Move moduleId s s' [.sent x]
  | pollAgain (hst : s.state = .awaitResult) (hst' : s'.state = .sendPoll) :
      Move moduleId s s' [.consumed .awaitResult s.rxStatus]
  | stray (hst : s.state = .awaitResult) (hst' : s'.state = .awaitResult) :
      Move moduleId s s' [.consumed .awaitResult s.rxStatus]
  | result (hst : s.state = .awaitResult) (hrx : s.rxPending = true)
      (hnone : s.rxStatus = statusNone) (hlen : s.rxDataLen ≠ 0) (hfit : s.rxComplete = true)
      (hst' : s'.state = .ackResult) : Move moduleId s s' [.consumed .awaitResult s.rxStatus]
  | acked (x : Sent) (hst : s.state = .ackResult) (hst' : s'.state = .done)
      (hkind : x.kind = .resultAck) (hframe : x.frame = resultAckFrame s moduleId)
      (hok : s'.res = retOk → x.err = none ∧ s.rxExec = execOk)
      (hbig : retEngine s'.res ≠ sessionResultTooLarge) : Move moduleId s s' [.sent x]
  | sendFailed (x : Sent)
      (hst : s.state = .sendCmd ∧ x.kind = .command ∨ s.state = .sendPoll ∧ x.kind = .poll)
      (hst' : s'.state = .done) (hok : s'.res ≠ retOk) : Move moduleId s s' [.sent x]
  | ended (hfree : s.state ≠ .free) (hdone : s.state ≠ .done) (hack : s.state ≠ .ackResult)
      (hst' : s'.state = .done) (hok : s'.res ≠ retOk) :
      Move moduleId s s' (if s.rxPending then [.consumed s.state s.rxStatus] else [])

variable {s : Session} {lent : Lent} {moduleId : UInt16} {now : UInt32} {link : Link}

/-- A reply that ends a session. -/
theorem Move.consumed_ended {st : State} {res : Ret} (t : Session) (hst : s.state = st)
    (hrx : s.rxPending = true) (hlive : st = .awaitAck ∨ st = .awaitResult) (hok : res ≠ retOk) :
    Move moduleId s (terminate t res) [.consumed st s.rxStatus] := by
  have h : Move moduleId s (terminate t res)
      (if s.rxPending then [.consumed s.state s.rxStatus] else []) := by
    rcases hlive with rfl | rfl
    · exact .ended (by simp [hst]) (by simp [hst]) (by simp [hst]) rfl hok
    · exact .ended (by simp [hst]) (by simp [hst]) (by simp [hst]) rfl hok
  rwa [hrx, if_pos rfl, hst] at h

theorem stepSubmitReply_move (hst : s.state = .awaitAck) (hrx : s.rxPending = true) :
    Move moduleId s (stepSubmitReply s now) [.consumed .awaitAck s.rxStatus] := by
  have hend : ∀ {res : Ret} {t : Session}, res ≠ retOk →
      Move moduleId s (terminate t res) [.consumed .awaitAck s.rxStatus] :=
    fun hok => .consumed_ended _ hst hrx (.inl rfl) hok
  simp only [stepSubmitReply]
  split
  · exact .accepted hst rfl
  split
  · exact hend (by decide)
  split
  · rename_i hfull
    split
    · exact hend (by decide)
    · rename_i hmax
      exact .refused hst hfull rfl rfl (UInt16.not_lt.1 hmax)
  · exact hend (by decide)

theorem stepPollReply_move (hst : s.state = .awaitResult) (hrx : s.rxPending = true) :
    Move moduleId s (stepPollReply s now) [.consumed .awaitResult s.rxStatus] := by
  have hend : ∀ {res : Ret} {t : Session}, res ≠ retOk →
      Move moduleId s (terminate t res) [.consumed .awaitResult s.rxStatus] :=
    fun hok => .consumed_ended _ hst hrx (.inr rfl) hok
  simp only [stepPollReply]
  split
  · exact .pollAgain hst rfl
  split
  · split
    · exact hend (by decide)
    split
    · exact hend (by decide)
    · exact .pollAgain hst rfl
  split
  · rename_i hnone
    split
    · exact hend (by decide)
    rename_i hlen
    split
    · exact hend (or_ne_zero _ (by decide))
    · rename_i hfit
      exact .result hst hrx hnone hlen (by simpa using hfit) rfl
  · exact .stray hst hst

theorem stepAckResult_move (hst : s.state = .ackResult) :
    Move moduleId s (stepAckResult s moduleId link).1
      ((stepAckResult s moduleId link).2.map Event.sent).toList := by
  obtain ⟨x, hx⟩ := sendResultAck_sent s moduleId link
  have hspec := framerSend_spec .resultAck (resultAckFrame s moduleId) link
  have hengine : retEngine (sendResultAck s moduleId link).1 = 0 := retEngine_framerSend _ _ _
  have hexec := retEngine_exec s.rxExec
  have hsent : ∀ t, Move moduleId s t [.sent x] →
      Move moduleId s t ((some x).map Event.sent).toList := fun _ h => h
  have hx' : x.kind = .resultAck ∧ x.frame = resultAckFrame s moduleId := by
    rw [sendResultAck] at hx
    cases hspec with
    | ok y hr hkind hframe _ =>
      rw [hr] at hx
      cases hx
      exact ⟨hkind, hframe⟩
    | failed _ hf => exact ⟨(hf x hx).1, (hf x hx).2.1⟩
  simp only [stepAckResult]
  split
  · rw [hx]
    refine hsent _ (.acked x hst rfl hx'.1 hx'.2 (fun h => ?_) ?_)
    · exact absurd h (or_ne_zero _ (or_ne_zero _ (by decide)))
    · change retEngine (sessionAckFailed ||| _ ||| _) ≠ _
      rw [retEngine_or, retEngine_or, hengine, hexec]
      decide
  · rename_i hcause
    have herr : x.err = none := by
      rw [sendResultAck] at hx hcause
      cases hspec with
      | ok y hr _ _ herr =>
        rw [hr] at hx
        cases hx
        exact herr
      | failed hr _ => exact absurd hr hcause
    split
    · rename_i hok
      rw [hx]
      refine hsent _ (.acked x hst rfl hx'.1 hx'.2 (fun _ => ⟨herr, hok⟩) ?_)
      change retEngine (retOk ||| _) ≠ _
      rw [retEngine_or, hexec]
      decide
    · rw [hx]
      refine hsent _ (.acked x hst rfl hx'.1 hx'.2 (fun h => ?_) ?_)
      · exact absurd h (or_ne_zero _ (by decide))
      · change retEngine (sessionExecError ||| _) ≠ _
        rw [retEngine_or, hexec]
        decide

theorem afterSend_move {r : Ret × Option Sent} {kind : Kind} {f : Frame} {next : State}
    {due : UInt32} (hspec : SendSpec kind f r)
    (hst : s.state = .sendCmd ∧ kind = .command ∨ s.state = .sendPoll ∧ kind = .poll)
    (hrx : s.rxPending = false)
    (hok : ∀ x : Sent, x.kind = kind →
      Move moduleId s { s with state := next, nextActionMs := due } [.sent x]) :
    Move moduleId s (afterSend s r next due).1
      ((afterSend s r next due).2.map Event.sent).toList := by
  cases hspec with
  | ok x hr hkind _ _ =>
    subst hr
    exact hok x hkind
  | failed hr hsent =>
    rw [afterSend, if_pos hr]
    cases hx : r.2 with
    | none =>
      have h : Move moduleId s (terminate s r.1)
          (if s.rxPending then [.consumed s.state s.rxStatus] else []) := by
        rcases hst with hst | hst
        · exact .ended (by simp [hst.1]) (by simp [hst.1]) (by simp [hst.1]) rfl hr
        · exact .ended (by simp [hst.1]) (by simp [hst.1]) (by simp [hst.1]) rfl hr
      rwa [hrx, if_neg Bool.false_ne_true] at h
    | some x =>
      rw [← (hsent x hx).1] at hst
      exact .sendFailed x hst rfl hr

/-- The events of a step that neither consumes a reply nor gives up the wait for one. -/
theorem stepEvents_sent {r : Session × Option Sent} (hfree : s.state ≠ .free)
    (hdone : s.state ≠ .done) (hrx : s.rxPending = false) (hst : s.state ≠ .awaitAck) :
    stepEvents s r = (r.2.map Event.sent).toList := by
  rw [stepEvents, if_neg (by simp [hfree, hdone]), if_neg (by simp [hrx]), if_neg (by simp [hst])]

theorem stepState_move (hrx : s.rxPending = false) (hack : s.state ≠ .ackResult) :
    Move moduleId s (stepState s lent moduleId now link).1
      (stepEvents s (stepState s lent moduleId now link)) := by
  cases hst : s.state with
  | free | done => simp only [stepState, stepEvents, hst]; exact .idle rfl
  | ackResult => exact absurd hst hack
  | sendCmd =>
    rw [stepEvents_sent (by simp [hst]) (by simp [hst]) hrx (by simp [hst])]
    simp only [stepState, hst]
    split
    · exact .idle rfl
    · exact afterSend_move (sendCommand_spec s lent moduleId link) (.inl ⟨hst, rfl⟩) hrx
        fun x hx => .submitted x hst hx rfl rfl
  | awaitAck =>
    have hev : ∀ r : Session × Option Sent, stepEvents s r =
        if r.1.state = .quiet then [.unanswered] else (r.2.map Event.sent).toList := by
      intro r
      rw [stepEvents, if_neg (by simp [hst]), hrx, if_neg Bool.false_ne_true]
      simp only [hst, true_and]
    rw [hev]
    simp only [stepState, hst]
    split
    · exact .unanswered hst rfl
    · rw [if_neg (by simp [hst])]
      exact .idle rfl
  | quiet =>
    rw [stepEvents_sent (by simp [hst]) (by simp [hst]) hrx (by simp [hst])]
    simp only [stepState, hst]
    split
    · exact .toPoll (.inl hst) rfl
    · exact .idle rfl
  | sendPoll =>
    rw [stepEvents_sent (by simp [hst]) (by simp [hst]) hrx (by simp [hst])]
    simp only [stepState, hst]
    split
    · exact .idle rfl
    · exact afterSend_move (sendGetResults_spec s moduleId link) (.inr ⟨hst, rfl⟩) hrx
        fun x hx => .polled x hst hx rfl
  | awaitResult =>
    rw [stepEvents_sent (by simp [hst]) (by simp [hst]) hrx (by simp [hst])]
    simp only [stepState, hst]
    split
    · split
      · have h : Move moduleId s (terminate { s with silence := s.silence + 1 } sessionUnreachable)
            (if s.rxPending then [.consumed s.state s.rxStatus] else []) :=
          .ended (by simp [hst]) (by simp [hst]) (by simp [hst]) rfl
            (show sessionUnreachable ≠ retOk by decide)
        rwa [hrx, if_neg Bool.false_ne_true] at h
      · exact .toPoll (.inr hst) rfl
    · exact .idle rfl

/-- **Every step is one of the moves**, with the events of that move. -/
theorem sessionStep_move (s : Session) (lent : Lent) (moduleId : UInt16) (now : UInt32)
    (link : Link) :
    Move moduleId s (sessionStep s lent moduleId now link).1
      (stepEvents s (sessionStep s lent moduleId now link)) := by
  rw [sessionStep]
  split
  · rename_i hend
    rw [stepEvents, if_pos hend]
    exact .idle rfl
  rename_i hlive
  split
  · rename_i hrx
    rw [stepEvents, if_neg hlive, if_pos hrx]
    split
    · rename_i hst
      rw [hst]
      exact stepSubmitReply_move hst hrx
    rename_i hack
    split
    · rename_i hst
      rw [hst]
      exact stepPollReply_move hst hrx
    · rename_i hres
      exact .dropped hrx (fun h => hlive (.inr h)) hack hres rfl
  rename_i hrx
  rw [Bool.not_eq_true] at hrx
  rw [not_or] at hlive
  split
  · rename_i hst
    rw [stepEvents_sent hlive.1 hlive.2 hrx (by simp [hst])]
    exact stepAckResult_move hst
  rename_i hack
  split
  · have hres : deadlineRes s ≠ retOk := by
      rw [deadlineRes]
      split
      · decide
      · split <;> decide
    have hev : stepEvents s (terminate s (deadlineRes s), none) =
        if s.rxPending then [.consumed s.state s.rxStatus] else [] := by
      rw [stepEvents, if_neg (by simp [hlive]), hrx, if_neg Bool.false_ne_true,
        if_neg Bool.false_ne_true, if_neg (by simp [terminate])]
      rfl
    rw [hev]
    exact .ended hlive.1 hlive.2 hack rfl hres
  · exact stepState_move hrx hack

/-! ## What no step touches -/

/-- The slot, the selector, the loan, the deadline and the contents of the mailbox are the same. -/
structure Kept (s s' : Session) : Prop where
  inUse : s'.inUse = s.inUse
  command : s'.command = s.command
  type : s'.type = s.type
  lent : s'.lent = s.lent
  deadlineMs : s'.deadlineMs = s.deadlineMs
  rxComplete : s'.rxComplete = s.rxComplete
  rxStatus : s'.rxStatus = s.rxStatus
  rxDataLen : s'.rxDataLen = s.rxDataLen
  rxExec : s'.rxExec = s.rxExec

theorem Kept.refl (s : Session) : Kept s s := ⟨rfl, rfl, rfl, rfl, rfl, rfl, rfl, rfl, rfl⟩

theorem stepSubmitReply_kept (s : Session) (now : UInt32) : Kept s (stepSubmitReply s now) := by
  simp only [stepSubmitReply]
  split
  · exact ⟨rfl, rfl, rfl, rfl, rfl, rfl, rfl, rfl, rfl⟩
  split
  · exact ⟨rfl, rfl, rfl, rfl, rfl, rfl, rfl, rfl, rfl⟩
  split
  · split <;> exact ⟨rfl, rfl, rfl, rfl, rfl, rfl, rfl, rfl, rfl⟩
  · exact ⟨rfl, rfl, rfl, rfl, rfl, rfl, rfl, rfl, rfl⟩

theorem stepPollReply_kept (s : Session) (now : UInt32) : Kept s (stepPollReply s now) := by
  simp only [stepPollReply]
  split
  · exact ⟨rfl, rfl, rfl, rfl, rfl, rfl, rfl, rfl, rfl⟩
  split
  · split
    · exact ⟨rfl, rfl, rfl, rfl, rfl, rfl, rfl, rfl, rfl⟩
    · split <;> exact ⟨rfl, rfl, rfl, rfl, rfl, rfl, rfl, rfl, rfl⟩
  split
  · split
    · exact ⟨rfl, rfl, rfl, rfl, rfl, rfl, rfl, rfl, rfl⟩
    · split <;> exact ⟨rfl, rfl, rfl, rfl, rfl, rfl, rfl, rfl, rfl⟩
  · exact ⟨rfl, rfl, rfl, rfl, rfl, rfl, rfl, rfl, rfl⟩

theorem stepAckResult_kept (s : Session) (moduleId : UInt16) (link : Link) :
    Kept s (stepAckResult s moduleId link).1 := by
  simp only [stepAckResult]
  split
  · exact ⟨rfl, rfl, rfl, rfl, rfl, rfl, rfl, rfl, rfl⟩
  · split <;> exact ⟨rfl, rfl, rfl, rfl, rfl, rfl, rfl, rfl, rfl⟩

theorem afterSend_kept (s : Session) (r : Ret × Option Sent) (next : State) (due : UInt32) :
    Kept s (afterSend s r next due).1 := by
  rw [afterSend]
  split <;> exact ⟨rfl, rfl, rfl, rfl, rfl, rfl, rfl, rfl, rfl⟩

theorem stepState_kept (s : Session) (lent : Lent) (moduleId : UInt16) (now : UInt32)
    (link : Link) : Kept s (stepState s lent moduleId now link).1 := by
  simp only [stepState]
  split
  · split
    · exact .refl s
    · exact afterSend_kept _ _ _ _
  · split <;> exact ⟨rfl, rfl, rfl, rfl, rfl, rfl, rfl, rfl, rfl⟩
  · split <;> exact ⟨rfl, rfl, rfl, rfl, rfl, rfl, rfl, rfl, rfl⟩
  · split
    · exact .refl s
    · exact afterSend_kept _ _ _ _
  · split
    · split <;> exact ⟨rfl, rfl, rfl, rfl, rfl, rfl, rfl, rfl, rfl⟩
    · exact .refl s
  · exact .refl s
  · exact .refl s
  · exact .refl s

theorem sessionStep_kept (s : Session) (lent : Lent) (moduleId : UInt16) (now : UInt32)
    (link : Link) : Kept s (sessionStep s lent moduleId now link).1 := by
  rw [sessionStep]
  split
  · exact .refl s
  split
  · split
    · exact stepSubmitReply_kept s now
    split
    · exact stepPollReply_kept s now
    · exact ⟨rfl, rfl, rfl, rfl, rfl, rfl, rfl, rfl, rfl⟩
  split
  · exact stepAckResult_kept s moduleId link
  split
  · exact ⟨rfl, rfl, rfl, rfl, rfl, rfl, rfl, rfl, rfl⟩
  · exact stepState_kept s lent moduleId now link

/-! ## The mailbox -/

theorem stepSubmitReply_rxPending (s : Session) (now : UInt32) :
    (stepSubmitReply s now).rxPending = false := by
  simp only [stepSubmitReply]
  split
  · rfl
  split
  · rfl
  split
  · split <;> rfl
  · rfl

theorem stepPollReply_rxPending (s : Session) (now : UInt32) :
    (stepPollReply s now).rxPending = false := by
  simp only [stepPollReply]
  split
  · rfl
  split
  · split
    · rfl
    · split <;> rfl
  split
  · split
    · rfl
    · split <;> rfl
  · rfl

theorem afterSend_rxPending {r : Ret × Option Sent} {next : State} {due : UInt32}
    (hrx : s.rxPending = false) : (afterSend s r next due).1.rxPending = false := by
  rw [afterSend]
  split
  · rfl
  · exact hrx

theorem stepState_rxPending (hrx : s.rxPending = false) :
    (stepState s lent moduleId now link).1.rxPending = false := by
  simp only [stepState]
  split
  · split
    · exact hrx
    · exact afterSend_rxPending hrx
  · split <;> exact hrx
  · split <;> exact hrx
  · split
    · exact hrx
    · exact afterSend_rxPending hrx
  · split
    · split
      · rfl
      · exact hrx
    · exact hrx
  · exact hrx
  · exact hrx
  · exact hrx

/-- A step of a running session leaves the mailbox empty. -/
theorem sessionStep_rxPending (hfree : s.state ≠ .free) (hdone : s.state ≠ .done) :
    (sessionStep s lent moduleId now link).1.rxPending = false := by
  rw [sessionStep, if_neg (by simp [hfree, hdone])]
  split
  · split
    · exact stepSubmitReply_rxPending s now
    split
    · exact stepPollReply_rxPending s now
    · rfl
  rename_i hrx
  rw [Bool.not_eq_true] at hrx
  split
  · simp only [stepAckResult]
    split
    · rfl
    · split <;> rfl
  split
  · rfl
  · exact stepState_rxPending hrx

/-- A session that has ended, or not begun, is not stepped any more. -/
theorem sessionStep_of_ended (h : s.state = .free ∨ s.state = .done) :
    sessionStep s lent moduleId now link = (s, none) := by
  rw [sessionStep, if_pos h]

theorem sessionAwaiting_inv {command type : UInt16} (h : sessionAwaiting s command type = true) :
    s.inUse = true ∧ s.rxPending = false ∧ (s.state = .awaitAck ∨ s.state = .awaitResult) ∧
      s.command = command ∧ s.type = type := by
  simp only [sessionAwaiting] at h
  split at h
  · cases h
  rename_i huse
  split at h
  · cases h
  rename_i hst
  simp only [Bool.or_eq_true, Bool.not_eq_true', not_or, Bool.not_eq_false, Bool.not_eq_true,
    Bool.and_eq_true, bne_iff_ne, not_and, not_not, beq_iff_eq] at huse hst h
  refine ⟨huse.1, huse.2, ?_, h.1, h.2⟩
  by_cases hack : s.state = .awaitAck
  · exact .inl hack
  · exact .inr (hst hack)

theorem sessionCancel_cases (s : Session) :
    sessionCancel s = s ∨
      s.state ≠ .free ∧ s.state ≠ .done ∧ sessionCancel s = terminate s sessionUnreachable := by
  rw [sessionCancel]
  split
  · rename_i h
    simp only [sessionIsLive, Bool.and_eq_true, bne_iff_ne] at h
    exact .inr ⟨h.2, h.1.2, rfl⟩
  · exact .inl rfl

/-! ## A session on its own -/

/-- A session and what it was lent. -/
structure Transaction where
  session : Session
  lent : Lent

/-- What is done to a session. -/
inductive Call
  | step (moduleId : UInt16) (now : UInt32) (link : Link)
  | deposit (f : Frame)
  | cancel
deriving DecidableEq

/-- A call, with the events it causes.  A frame is deposited only where it is awaited. -/
def Transaction.call (t : Transaction) : Call → Transaction × List Event
  | .step moduleId now link =>
    let r := sessionStep t.session t.lent moduleId now link
    (⟨r.1, t.lent⟩, stepEvents t.session r)
  | .deposit f =>
    if sessionAwaiting t.session f.command f.type then
      (⟨sessionDeposit t.session t.lent f, lentDeposit t.session t.lent f⟩,
        [.deposited t.session.state f (fitted t.session t.lent f)])
    else (t, [])
  | .cancel => (⟨sessionCancel t.session, t.lent⟩, [])

/-- A session as a machine. -/
def transaction : Machine Transaction Call (List Event) := ⟨Transaction.call⟩

end Esup
end FlightApps
