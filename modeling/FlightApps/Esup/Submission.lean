import FlightApps.Esup.Steps

/-!
# A command is submitted with care

The module executes a command once it has accepted it, so sending it a second time is safe only if
the first was refused.  This file follows a session from `esup_session_init` through any calls and
proves, over the history of events, that the command goes out again only right after a refusal, and
at most `ESUP_SUBMIT_RETRY_MAX` times; that the result is acknowledged at most once and only when it
is in the caller's hands; and that a session that has ended does nothing more.
-/

set_option autoImplicit false

namespace FlightApps
namespace Esup

/-! ## Kinds of events -/

def Event.isCommand : Event → Bool
  | .sent x => x.kind == .command
  | _ => false

def Event.isResultAck : Event → Bool
  | .sent x => x.kind == .resultAck
  | _ => false

/-- The module had no room for the command. -/
def Event.isRefusal : Event → Bool
  | .consumed .awaitAck status => status == statusStackFull || status == statusTempNotAccepted
  | _ => false

/-- The command may have been accepted: the reply said so, or there was no reply. -/
def Event.mayHaveAccepted : Event → Bool
  | .unanswered => true
  | .consumed .awaitAck status => status == statusAck || status == statusBusy
  | _ => false

/-- A result is deposited, and the caller's buffer holds all of it. -/
def Event.isResult : Event → Bool
  | .deposited .awaitResult f fitted => f.cmdStatus == statusNone && !f.data.isEmpty && fitted
  | _ => false

theorem Event.of_isRefusal {e : Event} (h : e.isRefusal = true) :
    ∃ status, e = .consumed .awaitAck status ∧
      (status = statusStackFull ∨ status = statusTempNotAccepted) := by
  cases e with
  | consumed st status =>
    cases st with
    | awaitAck => exact ⟨status, rfl, by simpa [isRefusal] using h⟩
    | _ => cases h
  | _ => cases h

theorem Event.of_isResult {e : Event} (h : e.isResult = true) :
    ∃ f, e = .deposited .awaitResult f true ∧ f.cmdStatus = statusNone ∧ f.data ≠ [] := by
  cases e with
  | deposited st f fitted =>
    cases st with
    | awaitResult =>
      simp only [isResult, Bool.and_eq_true, beq_iff_eq, Bool.not_eq_true',
        List.isEmpty_eq_false_iff] at h
      obtain ⟨⟨hnone, hdata⟩, rfl⟩ := h
      exact ⟨f, rfl, hnone, hdata⟩
    | _ => cases h
  | _ => cases h

def commands (es : List Event) : Nat := es.countP Event.isCommand

def resultAcks (es : List Event) : Nat := es.countP Event.isResultAck

theorem commands_append (es es' : List Event) : commands (es ++ es') = commands es + commands es' :=
  List.countP_append

theorem resultAcks_append (es es' : List Event) :
    resultAcks (es ++ es') = resultAcks es + resultAcks es' :=
  List.countP_append

/-! ## The command -/

/-- What a command that is sent finds in the history: no sign that an earlier one was accepted, and
if there was an earlier one, a refusal as the last thing that happened. -/
def CommandAllowed (es : List Event) (e : Event) : Prop :=
  e.isCommand = true →
    (∀ e' ∈ es, e'.mayHaveAccepted = false) ∧
      (commands es ≠ 0 → ∃ es' r, es = es' ++ [r] ∧ r.isRefusal = true)

/-- How far the submission has come, by the state of the session. -/
def Submission (s : Session) (es : List Event) : Prop :=
  match s.state with
  | .sendCmd =>
    s.rxPending = false ∧ commands es = s.submitAttempts.toNat ∧
      commands es ≤ submitRetryMax.toNat ∧ (∀ e ∈ es, e.mayHaveAccepted = false) ∧
      (commands es ≠ 0 → ∃ es' r, es = es' ++ [r] ∧ r.isRefusal = true)
  | .awaitAck =>
    commands es = s.submitAttempts.toNat + 1 ∧ commands es ≤ 1 + submitRetryMax.toNat ∧
      ∀ e ∈ es, e.mayHaveAccepted = false
  | .awaitResult => commands es ≤ 1 + submitRetryMax.toNat
  | .quiet | .sendPoll | .ackResult | .done =>
    s.rxPending = false ∧ commands es ≤ 1 + submitRetryMax.toNat
  | .free => False

theorem Submission.bound {s : Session} {es : List Event} (h : Submission s es) :
    commands es ≤ 1 + submitRetryMax.toNat := by
  rw [Submission] at h
  split at h
  · omega
  · exact h.2.1
  · exact h
  · exact h.2
  · exact h.2
  · exact h.2
  · exact h.2
  · exact h.elim

/-- A mailbox is filled only where a reply is awaited. -/
theorem Submission.mailbox {s : Session} {es : List Event} (h : Submission s es) :
    s.state ≠ .free ∧ (s.rxPending = true → s.state = .awaitAck ∨ s.state = .awaitResult) := by
  rw [Submission] at h
  split at h <;> simp_all

/-- An event that sends no command. -/
theorem Submission.commands_snoc {es : List Event} {e : Event} (he : e.isCommand = false) :
    commands (es ++ [e]) = commands es := by
  rw [commands_append, commands, commands, List.countP_singleton, he]
  rfl

theorem Submission.move {moduleId : UInt16} {s s' : Session} {es evs : List Event}
    (h : Submission s es) (hmove : Move moduleId s s' evs)
    (hrx' : s.state ≠ .free → s.state ≠ .done → s'.rxPending = false) :
    Submission s' (es ++ evs) := by
  have hbound := h.bound
  cases hmove with
  | idle hs =>
    subst hs
    rw [List.append_nil]
    exact h
  | dropped hrx hdone hack hres hst' =>
    -- a mailbox is filled only where a reply is awaited
    rw [Submission] at h
    split at h <;> simp_all
  | accepted hst hst' =>
    simp only [Submission, hst']
    rw [commands_snoc rfl]
    exact ⟨hrx' (by simp [hst]) (by simp [hst]), hbound⟩
  | refused hst hrx hst' hn hmax =>
    simp only [Submission, hst] at h
    obtain ⟨hcount, hle, hopen⟩ := h
    have hcount' : s'.submitAttempts.toNat = s.submitAttempts.toNat + 1 := by
      rw [hn, UInt16.toNat_add]
      have hfour : submitRetryMax.toNat = 4 := rfl
      have hone : (1 : UInt16).toNat = 1 := rfl
      omega
    simp only [Submission, hst']
    rw [commands_snoc rfl]
    have hmax' : s'.submitAttempts.toNat ≤ submitRetryMax.toNat := hmax
    refine ⟨hrx' (by simp [hst]) (by simp [hst]), by omega, by omega, ?_, fun _ => ⟨es, _, rfl, ?_⟩⟩
    · intro e he
      rcases List.mem_append.1 he with he | he
      · exact hopen e he
      · rw [List.mem_singleton.1 he]
        rcases hrx with hrx | hrx <;> rw [hrx] <;> rfl
    · rcases hrx with hrx | hrx <;> rw [hrx] <;> rfl
  | submitted x hst hkind hst' hn =>
    simp only [Submission, hst] at h
    obtain ⟨-, hcount, hle, hopen, -⟩ := h
    have hone : commands [.sent x] = 1 := by
      simp [commands, Event.isCommand, hkind]
    simp only [Submission, hst']
    rw [commands_append, hone, hn]
    refine ⟨by omega, by omega, ?_⟩
    intro e he
    rcases List.mem_append.1 he with he | he
    · exact hopen e he
    · rw [List.mem_singleton.1 he]
      rfl
  | unanswered hst hst' =>
    simp only [Submission, hst']
    rw [commands_snoc rfl]
    exact ⟨hrx' (by simp [hst]) (by simp [hst]), hbound⟩
  | toPoll hst hst' =>
    simp only [Submission, hst', List.append_nil]
    have hlive : s.state ≠ .free ∧ s.state ≠ .done := by
      rcases hst with hst | hst <;> simp [hst]
    exact ⟨hrx' hlive.1 hlive.2, hbound⟩
  | polled x hst hkind hst' =>
    simp only [Submission, hst']
    rw [commands_snoc (by simp [Event.isCommand, hkind])]
    exact hbound
  | pollAgain hst hst' =>
    simp only [Submission, hst']
    rw [commands_snoc rfl]
    exact ⟨hrx' (by simp [hst]) (by simp [hst]), hbound⟩
  | stray hst hst' =>
    simp only [Submission, hst']
    rw [commands_snoc rfl]
    exact hbound
  | result hst hrx hnone hlen hfit hst' =>
    simp only [Submission, hst']
    rw [commands_snoc rfl]
    exact ⟨hrx' (by simp [hst]) (by simp [hst]), hbound⟩
  | acked x hst hst' hkind hframe hok hbig =>
    simp only [Submission, hst']
    rw [commands_snoc (by simp [Event.isCommand, hkind])]
    exact ⟨hrx' (by simp [hst]) (by simp [hst]), hbound⟩
  | sendFailed x hst hst' hok =>
    simp only [Submission, hst']
    rw [commands_append]
    rcases hst with ⟨hst, hkind⟩ | ⟨hst, hkind⟩
    · simp only [Submission, hst] at h
      have hone : commands [.sent x] = 1 := by simp [commands, Event.isCommand, hkind]
      exact ⟨hrx' (by simp [hst]) (by simp [hst]), by omega⟩
    · have hnone : commands [.sent x] = 0 := by simp [commands, Event.isCommand, hkind]
      exact ⟨hrx' (by simp [hst]) (by simp [hst]), by omega⟩
  | ended hfree hdone hack hst' hok =>
    simp only [Submission, hst']
    rw [commands_append]
    have hnone : commands (if s.rxPending then [.consumed s.state s.rxStatus] else []) = 0 := by
      split <;> rfl
    exact ⟨hrx' hfree hdone, by omega⟩

/-- A command that is sent finds what it must. -/
theorem Submission.allowed {moduleId : UInt16} {s s' : Session} {es evs : List Event}
    (h : Submission s es) (hmove : Move moduleId s s' evs) (hes : Each CommandAllowed es) :
    Each CommandAllowed (es ++ evs) := by
  have hother : ∀ e : Event, e.isCommand = false → Each CommandAllowed (es ++ [e]) :=
    fun e he => hes.snoc fun hc => absurd hc (by rw [he]; exact Bool.false_ne_true)
  have hsend : s.state = .sendCmd → ∀ x : Sent, Each CommandAllowed (es ++ [.sent x]) := by
    intro hst x
    simp only [Submission, hst] at h
    exact hes.snoc fun _ => h.2.2.2
  cases hmove with
  | idle | toPoll => rw [List.append_nil]; exact hes
  | dropped | accepted | refused | unanswered | pollAgain | stray | result => exact hother _ rfl
  | submitted x hst => exact hsend hst x
  | polled x _ hkind => exact hother _ (by simp [Event.isCommand, hkind])
  | acked x _ _ hkind => exact hother _ (by simp [Event.isCommand, hkind])
  | sendFailed x hst =>
    rcases hst with ⟨hst, -⟩ | ⟨-, hkind⟩
    · exact hsend hst x
    · exact hother _ (by simp [Event.isCommand, hkind])
  | ended =>
    split
    · exact hother _ rfl
    · rw [List.append_nil]; exact hes

theorem Submission.deposit {s : Session} {lent : Lent} {f : Frame} {es : List Event}
    (h : Submission s es) (hawait : s.state = .awaitAck ∨ s.state = .awaitResult) :
    Submission (sessionDeposit s lent f) (es ++ [.deposited s.state f (fitted s lent f)]) := by
  rcases hawait with hst | hst
  · simp only [Submission, hst] at h
    simp only [Submission, sessionDeposit, hst]
    rw [commands_snoc rfl]
    refine ⟨h.1, h.2.1, fun e he => ?_⟩
    rcases List.mem_append.1 he with he | he
    · exact h.2.2 e he
    · rw [List.mem_singleton.1 he]
      rfl
  · simp only [Submission, hst] at h
    simp only [Submission, sessionDeposit, hst]
    rw [commands_snoc rfl]
    exact h

/-- Every call keeps the submission in order. -/
theorem Submission.call {t : Transaction} {es : List Event}
    (h : Submission t.session es ∧ Each CommandAllowed es) (c : Call) :
    Submission (t.call c).1.session (es ++ (t.call c).2) ∧
      Each CommandAllowed (es ++ (t.call c).2) := by
  cases c with
  | step moduleId now link =>
    have hmove := sessionStep_move t.session t.lent moduleId now link
    exact ⟨h.1.move hmove sessionStep_rxPending, h.1.allowed hmove h.2⟩
  | deposit f =>
    simp only [Transaction.call]
    split
    · rename_i hawait
      obtain ⟨-, -, hst, -, -⟩ := sessionAwaiting_inv hawait
      exact ⟨h.1.deposit hst, h.2.snoc fun hc => by cases hc⟩
    · rw [List.append_nil]
      exact h
  | cancel =>
    simp only [Transaction.call, List.append_nil]
    refine ⟨?_, h.2⟩
    rcases sessionCancel_cases t.session with hc | ⟨-, -, hc⟩
    · rw [hc]
      exact h.1
    · rw [hc]
      exact ⟨rfl, h.1.bound⟩

/-! ## The result -/

def Event.isDeposit : Event → Bool
  | .deposited _ _ _ => true
  | _ => false

/-- The result that `f` carries is in the hands of the caller, and the session knows it as such. -/
structure InHand (t : Transaction) (f : Frame) : Prop where
  command : f.command = t.session.command
  type : f.type = t.session.type
  cmdStatus : f.cmdStatus = statusNone
  data : f.data ≠ []
  exec : t.session.rxExec = f.data.headD 0
  result : ∀ r, t.lent.result = some r →
    r.command = f.command ∧ r.type = f.type ∧ r.dataLen = f.dataLen ∧
      ∀ b, r.data = some b → b.take f.data.length = f.data

theorem InHand.kept {t : Transaction} {f : Frame} {s' : Session} (h : InHand t f)
    (hk : Kept t.session s') : InHand ⟨s', t.lent⟩ f where
  command := h.command.trans hk.command.symm
  type := h.type.trans hk.type.symm
  cmdStatus := h.cmdStatus
  data := h.data
  exec := hk.rxExec.trans h.exec
  result := h.result

/-- `f` was deposited as a result and taken whole, and `post` has happened since; no other frame
was deposited. -/
def LastDeposit (es : List Event) (f : Frame) (post : List Event) : Prop :=
  (∃ pre, es = pre ++ .deposited .awaitResult f true :: post) ∧ ∀ e ∈ post, e.isDeposit = false

theorem LastDeposit.snoc {es post : List Event} {f : Frame} {e : Event}
    (h : LastDeposit es f post) (he : e.isDeposit = false) :
    LastDeposit (es ++ [e]) f (post ++ [e]) := by
  obtain ⟨⟨pre, rfl⟩, hpost⟩ := h
  refine ⟨⟨pre, by rw [List.append_assoc, List.cons_append]⟩, fun e' he' => ?_⟩
  rcases List.mem_append.1 he' with he' | he'
  · exact hpost e' he'
  · rw [List.mem_singleton.1 he']
    exact he

/-- The result is in hand and is the last thing that was deposited. -/
def Received (t : Transaction) (es : List Event) : Prop :=
  ∃ f post, InHand t f ∧ LastDeposit es f post

/-- What is known of the result when a session has ended. -/
structure Outcome (t : Transaction) (es : List Event) : Prop where
  acks : resultAcks es ≤ 1
  tooLarge : retEngine t.session.res = sessionResultTooLarge → resultAcks es = 0
  ok : t.session.res = retOk → ∃ f post, InHand t f ∧ LastDeposit es f post ∧
    f.data.headD 0 = execOk ∧ ∃ x, Event.sent x ∈ post ∧ x.kind = .resultAck ∧ x.err = none ∧
      x.frame.cmdStatus = statusAck ∧ x.frame.command = f.command ∧ x.frame.type = f.type

/-- How far the result has come, by the state of the session. -/
def Delivery (t : Transaction) (es : List Event) : Prop :=
  match t.session.state with
  | .done => Outcome t es
  | .ackResult => resultAcks es = 0 ∧ Received t es
  | .awaitResult =>
    resultAcks es = 0 ∧
      (t.session.rxPending = true → t.session.rxStatus = statusNone → t.session.rxDataLen ≠ 0 →
        t.session.rxComplete = true → Received t es)
  | .free | .sendCmd | .awaitAck | .quiet | .sendPoll => resultAcks es = 0

theorem Delivery.noAcks {t : Transaction} {es : List Event} (h : Delivery t es)
    (hdone : t.session.state ≠ .done) : resultAcks es = 0 := by
  rw [Delivery] at h
  split at h
  · contradiction
  · exact h.1
  · exact h.1
  all_goals exact h

theorem resultAcks_snoc {es : List Event} {e : Event} (he : e.isResultAck = false) :
    resultAcks (es ++ [e]) = resultAcks es := by
  rw [resultAcks_append, resultAcks, resultAcks, List.countP_singleton, he]
  rfl

theorem Received.snoc {t : Transaction} {es : List Event} {s' : Session} {e : Event}
    (h : Received t es) (hk : Kept t.session s') (he : e.isDeposit = false) :
    Received ⟨s', t.lent⟩ (es ++ [e]) := by
  obtain ⟨f, post, hhand, hlast⟩ := h
  exact ⟨f, post ++ [e], hhand.kept hk, hlast.snoc he⟩

/-- A session that ends without an acknowledgement ends without success. -/
theorem Outcome.of_noAcks {t : Transaction} {es : List Event} (hacks : resultAcks es = 0)
    (hok : t.session.res ≠ retOk) : Outcome t es where
  acks := by omega
  tooLarge := fun _ => hacks
  ok := fun h => absurd h hok

theorem Delivery.move {moduleId : UInt16} {t : Transaction} {s' : Session} {es evs : List Event}
    (h : Delivery t es) (hmove : Move moduleId t.session s' evs) (hk : Kept t.session s')
    (hrx' : t.session.state ≠ .free → t.session.state ≠ .done → s'.rxPending = false) :
    Delivery ⟨s', t.lent⟩ (es ++ evs) := by
  cases hmove with
  | idle hs =>
    subst hs
    rw [List.append_nil]
    exact h
  | dropped hrx hdone hack hres hst' =>
    have hacks : resultAcks (es ++ [.consumed t.session.state t.session.rxStatus]) = 0 := by
      rw [resultAcks_snoc rfl]
      exact h.noAcks hdone
    rw [Delivery] at h ⊢
    simp only [hst']
    split at h
    · contradiction
    · exact ⟨hacks, h.2.snoc hk rfl⟩
    · contradiction
    all_goals exact hacks
  | accepted hst hst' | unanswered hst hst' =>
    simp only [Delivery, hst']
    rw [resultAcks_snoc rfl]
    exact h.noAcks (by simp [hst])
  | refused hst hrx hst' hn hmax =>
    simp only [Delivery, hst']
    rw [resultAcks_snoc rfl]
    exact h.noAcks (by simp [hst])
  | submitted x hst hkind hst' hn =>
    simp only [Delivery, hst']
    rw [resultAcks_snoc (by simp [Event.isResultAck, hkind])]
    exact h.noAcks (by simp [hst])
  | toPoll hst hst' =>
    simp only [Delivery, hst', List.append_nil]
    exact h.noAcks (by rcases hst with hst | hst <;> simp [hst])
  | polled x hst hkind hst' =>
    simp only [Delivery, hst']
    rw [resultAcks_snoc (by simp [Event.isResultAck, hkind])]
    refine ⟨h.noAcks (by simp [hst]), fun hrx => ?_⟩
    rw [hrx' (by simp [hst]) (by simp [hst])] at hrx
    cases hrx
  | pollAgain hst hst' =>
    simp only [Delivery, hst']
    rw [resultAcks_snoc rfl]
    exact h.noAcks (by simp [hst])
  | stray hst hst' =>
    simp only [Delivery, hst']
    rw [resultAcks_snoc rfl]
    refine ⟨h.noAcks (by simp [hst]), fun hrx => ?_⟩
    rw [hrx' (by simp [hst]) (by simp [hst])] at hrx
    cases hrx
  | result hst hrx hnone hlen hfit hst' =>
    simp only [Delivery, hst] at h
    simp only [Delivery, hst']
    rw [resultAcks_snoc rfl]
    exact ⟨h.1, (h.2 hrx hnone hlen hfit).snoc hk rfl⟩
  | acked x hst hst' hkind hframe hok hbig =>
    simp only [Delivery, hst] at h
    obtain ⟨hacks, f, post, hhand, hlast⟩ := h
    simp only [Delivery, hst']
    have hone : resultAcks [.sent x] = 1 := by simp [resultAcks, Event.isResultAck, hkind]
    refine ⟨by rw [resultAcks_append]; omega, fun hb => absurd hb hbig, fun hres => ?_⟩
    obtain ⟨herr, hexec⟩ := hok hres
    refine ⟨f, post ++ [.sent x], hhand.kept hk, hlast.snoc rfl, ?_, x, by simp, hkind, herr, ?_⟩
    · rw [← hhand.exec, hexec]
    · rw [hframe, hhand.command, hhand.type]
      exact ⟨rfl, rfl, rfl⟩
  | sendFailed x hst hst' hok =>
    simp only [Delivery, hst']
    refine .of_noAcks ?_ hok
    rcases hst with ⟨hst, hkind⟩ | ⟨hst, hkind⟩
    · rw [resultAcks_snoc (by simp [Event.isResultAck, hkind])]
      exact h.noAcks (by simp [hst])
    · rw [resultAcks_snoc (by simp [Event.isResultAck, hkind])]
      exact h.noAcks (by simp [hst])
  | ended hfree hdone hack hst' hok =>
    simp only [Delivery, hst']
    refine .of_noAcks ?_ hok
    split
    · rw [resultAcks_snoc rfl]
      exact h.noAcks hdone
    · rw [List.append_nil]
      exact h.noAcks hdone

/-- The acknowledgement of a result that is sent finds it in the history, and no other. -/
def AckAllowed (es : List Event) (e : Event) : Prop :=
  e.isResultAck = true → resultAcks es = 0 ∧ ∃ e' ∈ es, e'.isResult = true

theorem Received.isResult {t : Transaction} {es : List Event} (h : Received t es) :
    ∃ e ∈ es, e.isResult = true := by
  obtain ⟨f, post, hhand, ⟨pre, rfl⟩, -⟩ := h
  refine ⟨.deposited .awaitResult f true, by simp, ?_⟩
  simp [Event.isResult, hhand.cmdStatus, hhand.data]

theorem Delivery.allowed {moduleId : UInt16} {t : Transaction} {s' : Session}
    {es evs : List Event} (h : Delivery t es) (hmove : Move moduleId t.session s' evs)
    (hes : Each AckAllowed es) : Each AckAllowed (es ++ evs) := by
  have hother : ∀ e : Event, e.isResultAck = false → Each AckAllowed (es ++ [e]) :=
    fun e he => hes.snoc fun hc => absurd hc (by rw [he]; exact Bool.false_ne_true)
  cases hmove with
  | idle | toPoll => rw [List.append_nil]; exact hes
  | dropped | accepted | refused | unanswered | pollAgain | stray | result => exact hother _ rfl
  | submitted x _ hkind => exact hother _ (by simp [Event.isResultAck, hkind])
  | polled x _ hkind => exact hother _ (by simp [Event.isResultAck, hkind])
  | acked x hst =>
    simp only [Delivery, hst] at h
    exact hes.snoc fun _ => ⟨h.1, h.2.isResult⟩
  | sendFailed x hst =>
    rcases hst with ⟨-, hkind⟩ | ⟨-, hkind⟩
    · exact hother _ (by simp [Event.isResultAck, hkind])
    · exact hother _ (by simp [Event.isResultAck, hkind])
  | ended =>
    split
    · exact hother _ rfl
    · rw [List.append_nil]; exact hes

/-- What a caller gets of a result that fits. -/
theorem Result.deposit_of_fits {r : Result} {f : Frame} (h : r.fits f = true) :
    (r.deposit f).command = f.command ∧ (r.deposit f).type = f.type ∧
      (r.deposit f).dataLen = f.dataLen ∧
      ∀ b, (r.deposit f).data = some b → b.take f.data.length = f.data := by
  refine ⟨rfl, rfl, rfl, fun b hb => ?_⟩
  obtain ⟨old, -, rfl⟩ := Option.map_eq_some_iff.1 hb
  rw [Result.copied, h, if_pos rfl, f.toNat_dataLen, List.take_length, List.take_left' rfl]

theorem sessionDeposit_inHand {t : Transaction} {f : Frame} (hst : t.session.state = .awaitResult)
    (hcmd : t.session.command = f.command) (hty : t.session.type = f.type)
    (hnone : f.cmdStatus = statusNone) (hlen : f.dataLen ≠ 0)
    (hfit : fitted t.session t.lent f = true) :
    InHand ⟨sessionDeposit t.session t.lent f, lentDeposit t.session t.lent f⟩ f := by
  have hcarries : carriesResult t.session f = true := by simp [carriesResult, hst, hnone]
  have hpos : f.dataLen > 0 := UInt16.pos_iff_ne_zero.2 hlen
  refine ⟨hcmd.symm, hty.symm, hnone, fun hnil => hlen ?_, ?_, fun r hr => ?_⟩
  · rw [Frame.dataLen, hnil]
    rfl
  · rw [sessionDeposit]
    simp only [hpos, if_true]
  · simp only [lentDeposit, hcarries, if_true] at hr
    obtain ⟨old, hold, rfl⟩ := Option.map_eq_some_iff.1 hr
    refine Result.deposit_of_fits ?_
    simpa [fitted, hold, hcarries] using hfit

theorem Delivery.deposit {t : Transaction} {f : Frame} {es : List Event} (h : Delivery t es)
    (hawait : sessionAwaiting t.session f.command f.type = true) :
    Delivery ⟨sessionDeposit t.session t.lent f, lentDeposit t.session t.lent f⟩
      (es ++ [.deposited t.session.state f (fitted t.session t.lent f)]) := by
  obtain ⟨-, -, hst, hcmd, hty⟩ := sessionAwaiting_inv hawait
  have hacks := h.noAcks (by rcases hst with hst | hst <;> simp [hst])
  rcases hst with hst | hst
  · have hst' : (sessionDeposit t.session t.lent f).state = .awaitAck := hst
    simp only [Delivery, hst']
    rw [resultAcks_snoc rfl]
    exact hacks
  · have hst' : (sessionDeposit t.session t.lent f).state = .awaitResult := hst
    simp only [Delivery, hst']
    rw [resultAcks_snoc rfl]
    refine ⟨hacks, fun _ hnone hlen hfit => ?_⟩
    have hfit' : fitted t.session t.lent f = true := hfit
    rw [hfit', hst]
    refine ⟨f, [], sessionDeposit_inHand hst hcmd hty hnone hlen hfit, ⟨es, rfl⟩, fun e he => ?_⟩
    cases he

/-- Every call keeps the delivery in order. -/
theorem Delivery.call {t : Transaction} {es : List Event}
    (h : Delivery t es ∧ Each AckAllowed es) (c : Call) :
    Delivery (t.call c).1 (es ++ (t.call c).2) ∧ Each AckAllowed (es ++ (t.call c).2) := by
  cases c with
  | step moduleId now link =>
    have hmove := sessionStep_move t.session t.lent moduleId now link
    have hkept := sessionStep_kept t.session t.lent moduleId now link
    exact ⟨h.1.move hmove hkept sessionStep_rxPending, h.1.allowed hmove h.2⟩
  | deposit f =>
    simp only [Transaction.call]
    split
    · rename_i hawait
      exact ⟨h.1.deposit hawait, h.2.snoc fun hc => by cases hc⟩
    · rw [List.append_nil]
      exact h
  | cancel =>
    simp only [Transaction.call, List.append_nil]
    refine ⟨?_, h.2⟩
    rcases sessionCancel_cases t.session with hc | ⟨-, hdone, hc⟩
    · rw [hc]
      exact h.1
    · rw [hc]
      exact .of_noAcks (h.1.noAcks hdone) (show sessionUnreachable ≠ retOk by decide)

/-! ## Whole sessions -/

/-- A session that has just been initialised, in any slot. -/
def Transaction.start (slot : Session) (lent : Lent) (k : Nat) (now timeoutMs : UInt32) :
    Transaction :=
  ⟨sessionInit slot k now timeoutMs, lent⟩

theorem delivery_start (slot : Session) (lent : Lent) (k : Nat) (now timeoutMs : UInt32) :
    Delivery (Transaction.start slot lent k now timeoutMs) [] :=
  rfl

theorem submission_start (slot : Session) (lent : Lent) (k : Nat) (now timeoutMs : UInt32) :
    Submission (Transaction.start slot lent k now timeoutMs).session [] := by
  refine ⟨rfl, rfl, Nat.zero_le _, fun e he => ?_, fun hne => absurd rfl hne⟩
  cases he

/-- The submission is in order after any calls. -/
theorem submission_run (slot : Session) (lent : Lent) (k : Nat) (now timeoutMs : UInt32)
    (cs : List Call) :
    Submission (transaction.run (.start slot lent k now timeoutMs) cs).session
        (transaction.history (.start slot lent k now timeoutMs) cs) ∧
      Each CommandAllowed (transaction.history (.start slot lent k now timeoutMs) cs) :=
  transaction.history_invariant (P := fun t es => Submission t.session es ∧ Each CommandAllowed es)
    (fun _ _ c h => Submission.call h c) ⟨submission_start slot lent k now timeoutMs, .nil _⟩ cs

/-- The delivery of the result is in order after any calls. -/
theorem delivery_run (slot : Session) (lent : Lent) (k : Nat) (now timeoutMs : UInt32)
    (cs : List Call) :
    Delivery (transaction.run (.start slot lent k now timeoutMs) cs)
        (transaction.history (.start slot lent k now timeoutMs) cs) ∧
      Each AckAllowed (transaction.history (.start slot lent k now timeoutMs) cs) :=
  transaction.history_invariant (P := fun t es => Delivery t es ∧ Each AckAllowed es)
    (fun _ _ c h => Delivery.call h c) ⟨delivery_start slot lent k now timeoutMs, .nil _⟩ cs

theorem Delivery.acks {t : Transaction} {es : List Event} (h : Delivery t es) :
    resultAcks es ≤ 1 := by
  by_cases hdone : t.session.state = .done
  · simp only [Delivery, hdone] at h
    exact h.acks
  · rw [h.noAcks hdone]
    exact Nat.zero_le 1

/-- Nothing happens to a session that has ended. -/
theorem call_of_done {t : Transaction} (h : t.session.state = .done) (c : Call) :
    t.call c = (t, []) := by
  cases c with
  | step moduleId now link =>
    simp only [Transaction.call, sessionStep_of_ended (.inr h), stepEvents, h]
    rfl
  | deposit f =>
    have hawait : sessionAwaiting t.session f.command f.type ≠ true := by
      intro hawait
      obtain ⟨-, -, hst, -, -⟩ := sessionAwaiting_inv hawait
      simp [h] at hst
    simp only [Transaction.call, hawait]
    rfl
  | cancel =>
    rcases sessionCancel_cases t.session with hc | ⟨-, hdone, -⟩
    · simp only [Transaction.call, hc]
    · exact absurd h hdone

theorem run_of_done {t : Transaction} (h : t.session.state = .done) (cs : List Call) :
    transaction.run t cs = t ∧ transaction.history t cs = [] := by
  induction cs with
  | nil => exact ⟨rfl, rfl⟩
  | cons c cs ih =>
    have hstep : transaction.step t c = (t, []) := call_of_done h c
    rw [Machine.run, Machine.history_cons, hstep]
    exact ih

/-- **A command is submitted with care.**  Whatever is done to a session after its initialisation:
the command is written at most `1 + ESUP_SUBMIT_RETRY_MAX` times, each time but the first right
after a refusal, and never after a reply or a silence that leaves open whether it was accepted; the
result is acknowledged at most once, after a result that was deposited whole; and once the session
has ended it stays as it is and writes nothing. -/
theorem session_submission_safe (slot : Session) (lent : Lent) (k : Nat) (now timeoutMs : UInt32)
    (cs : List Call) :
    let t := Transaction.start slot lent k now timeoutMs
    let es := transaction.history t cs
    commands es ≤ 1 + submitRetryMax.toNat ∧
    (∀ (pre : List Event) (x : Sent) (post : List Event), es = pre ++ .sent x :: post →
      x.kind = .command → commands pre ≠ 0 →
      ∃ pre' status, pre = pre' ++ [.consumed .awaitAck status] ∧
        (status = statusStackFull ∨ status = statusTempNotAccepted)) ∧
    (∀ (pre : List Event) (e : Event) (post : List Event), es = pre ++ e :: post →
      (e = .unanswered ∨ e = .consumed .awaitAck statusAck ∨ e = .consumed .awaitAck statusBusy) →
      ∀ x, .sent x ∈ post → x.kind ≠ .command) ∧
    resultAcks es ≤ 1 ∧
    (∀ (pre : List Event) (x : Sent) (post : List Event), es = pre ++ .sent x :: post →
      x.kind = .resultAck →
      ∃ f, .deposited .awaitResult f true ∈ pre ∧ f.cmdStatus = statusNone ∧ f.data ≠ []) ∧
    (∀ cs', (transaction.run t cs).session.state = .done →
      (transaction.run t (cs ++ cs')).session = (transaction.run t cs).session ∧
        ∀ x, .sent x ∉ transaction.history (transaction.run t cs) cs') := by
  intro t es
  obtain ⟨hsub, hcmd⟩ := submission_run slot lent k now timeoutMs cs
  obtain ⟨hdel, hack⟩ := delivery_run slot lent k now timeoutMs cs
  refine ⟨hsub.bound, fun pre x post hes hkind hne => ?_, fun pre e post hes he x hx hkind => ?_,
    hdel.acks, fun pre x post hes hkind => ?_, fun cs' hdone => ?_⟩
  · obtain ⟨pre', r, hpre, hr⟩ := (hcmd pre _ post hes (by simp [Event.isCommand, hkind])).2 hne
    obtain ⟨status, rfl, hstatus⟩ := Event.of_isRefusal hr
    exact ⟨pre', status, hpre, hstatus⟩
  · obtain ⟨mid, post', rfl⟩ := List.append_of_mem hx
    rw [← List.cons_append, ← List.append_assoc] at hes
    have hopen := (hcmd (pre ++ e :: mid) (.sent x) post' hes
      (by simp [Event.isCommand, hkind])).1 e (by simp)
    rcases he with rfl | rfl | rfl <;> cases hopen
  · obtain ⟨-, e, he, hres⟩ := hack pre _ post hes (by simp [Event.isResultAck, hkind])
    obtain ⟨f, rfl, hnone, hdata⟩ := Event.of_isResult hres
    exact ⟨f, he, hnone, hdata⟩
  · obtain ⟨hrun, hhist⟩ := run_of_done hdone cs'
    rw [Machine.run_append, hrun, hhist]
    exact ⟨rfl, fun x hx => by cases hx⟩

end Esup
end FlightApps
