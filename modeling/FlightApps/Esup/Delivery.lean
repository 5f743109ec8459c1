import FlightApps.Esup.Pool
import FlightApps.Esup.Submission

/-!
# A session that reports success has one

What `Esup.Submission` proves of a session on its own holds of every session in the pool: of all
that a schedule does, the part that concerns one call is the history of a session on its own
(`eventsOf`).  So when a session has ended with `ESUP_OK`, the frame it reports on was decoded from
the wire, came from this module in reply to this command, says that the command was executed, and
is in the caller's buffer whole; and the acknowledgement went out after it.
-/

set_option autoImplicit false

namespace FlightApps
namespace Esup

/-! ## The part of one call -/

/-- The events of the session of call `k` among what a section did. -/
def Note.eventsFor (k : Nat) : Note → List Event
  | .did _ k' _ es => if k' = k then es else []
  | _ => []

/-- The history of the session of call `k`. -/
def eventsOf (k : Nat) (ns : List Note) : List Event := ns.flatMap (Note.eventsFor k)

theorem eventsOf_append (k : Nat) (ns ns' : List Note) :
    eventsOf k (ns ++ ns') = eventsOf k ns ++ eventsOf k ns' :=
  List.flatMap_append

theorem eventsOf_did (i : Slot) (k : Nat) (c : Call) (es : List Event) :
    eventsOf k [.did i k c es] = es := by
  simp [eventsOf, Note.eventsFor]

theorem eventsOf_did_ne (i : Slot) {k k' : Nat} (h : k' ≠ k) (c : Call) (es : List Event) :
    eventsOf k [.did i k' c es] = [] := by
  simp [eventsOf, Note.eventsFor, h]

/-- A note without events. -/
theorem eventsOf_silent {ns ns' : List Note} (h : ∀ n ∈ ns', ∀ k, n.eventsFor k = []) (k : Nat) :
    eventsOf k (ns ++ ns') = eventsOf k ns := by
  have hnil : eventsOf k ns' = [] := List.flatMap_eq_nil_iff.2 fun n hn => h n hn k
  rw [eventsOf_append, hnil, List.append_nil]

/-! ## Every session in the pool -/

/-- A slot and the history of its session. -/
structure SlotOk (e : Engine) (ns : List Note) (i : Slot) : Prop where
  submission : Submission (e.sessions i) (eventsOf (e.sessions i).lent ns) ∧
    Each CommandAllowed (eventsOf (e.sessions i).lent ns)
  delivery : Delivery ⟨e.sessions i, e.loans (e.sessions i).lent⟩
      (eventsOf (e.sessions i).lent ns) ∧ Each AckAllowed (eventsOf (e.sessions i).lent ns)

/-- The pool and all that has happened to it. -/
structure Chronicle (e : Engine) (ns : List Note) : Prop where
  pool : PoolOk e
  idle : ∀ i, (e.sessions i).inUse = false → (e.sessions i).state = .free
  slot : ∀ i, (e.sessions i).inUse = true → SlotOk e ns i
  fresh : ∀ k, e.calls ≤ k → eventsOf k ns = []
  frame : ∀ k st f fit, .deposited st f fit ∈ eventsOf k ns →
    f.moduleId = e.moduleId ∧ ∃ bytes, frameDecode bytes = .ok f

/-- A slot whose session, loan and history are as they were. -/
theorem SlotOk.congr {e e' : Engine} {ns ns' : List Note} {i : Slot} (h : SlotOk e ns i)
    (hs : e'.sessions i = e.sessions i)
    (hl : e'.loans (e.sessions i).lent = e.loans (e.sessions i).lent)
    (hn : eventsOf (e.sessions i).lent ns' = eventsOf (e.sessions i).lent ns) :
    SlotOk e' ns' i := by
  obtain ⟨hsub, hdel⟩ := h
  refine ⟨?_, ?_⟩
  · rw [hs, hn]
    exact hsub
  · rw [hs, hl, hn]
    exact hdel

/-- A session function on a slot. -/
theorem SlotOk.call {e : Engine} {ns : List Note} {i : Slot} (h : SlotOk e ns i) (c : Call) :
    SlotOk (e.callOn i c).1 (ns ++ (e.callOn i c).2) i := by
  have hlent : ((e.callOn i c).1.sessions i).lent = (e.sessions i).lent :=
    (callOn_sameSession e i c i).lent
  have hloan : (e.callOn i c).1.loans (e.sessions i).lent =
      (Transaction.call ⟨e.sessions i, e.loans (e.sessions i).lent⟩ c).1.lent :=
    Function.update_self _ _ _
  have hes : eventsOf (e.sessions i).lent (ns ++ (e.callOn i c).2) =
      eventsOf (e.sessions i).lent ns ++
        (Transaction.call ⟨e.sessions i, e.loans (e.sessions i).lent⟩ c).2 := by
    rw [eventsOf_append]
    exact congrArg _ (eventsOf_did i _ c _)
  have hsub := Submission.call
    (t := ⟨e.sessions i, e.loans (e.sessions i).lent⟩) h.submission c
  have hdel := Delivery.call h.delivery c
  refine ⟨?_, ?_⟩
  · rw [hlent, hes, callOn_sessions_self]
    exact hsub
  · rw [hlent, hes, hloan, callOn_sessions_self]
    exact hdel

/-- A slot that has just been claimed. -/
theorem SlotOk.claim {e : Engine} {ns : List Note} {i : Slot} (lent : Lent)
    (command type : UInt16) (now timeoutMs : UInt32) (hfresh : eventsOf e.calls ns = []) :
    SlotOk ((e.numbered lent).claim i command type e.calls now timeoutMs) ns i := by
  have hlent : (((e.numbered lent).claim i command type e.calls now timeoutMs).sessions i).lent =
      e.calls := by
    rw [claim_sessions_self]
    rfl
  refine ⟨?_, ?_⟩
  · rw [hlent, hfresh, claim_sessions_self]
    exact ⟨submission_start _ lent e.calls now timeoutMs, .nil _⟩
  · rw [hlent, hfresh, claim_sessions_self]
    exact ⟨delivery_start _ _ e.calls now timeoutMs, .nil _⟩

theorem Chronicle.create (moduleId : UInt16) (memory : Slot → Session) (loans : Nat → Lent) :
    Chronicle (engineCreate moduleId memory loans) [] where
  pool := (engineCreate_ok moduleId memory loans).pool
  idle := fun i _ => rfl
  slot := fun i hi => by cases hi
  fresh := fun k _ => rfl
  frame := fun k st f fit hmem => by cases hmem

/-- A move that adds no events and changes neither the sessions in use nor their loans. -/
theorem Chronicle.quiet {e e' : Engine} {ns ns' : List Note} (h : Chronicle e ns)
    (hp : PoolOk e') (hc : e.calls ≤ e'.calls) (hm : e'.moduleId = e.moduleId)
    (hl : ∀ k, k < e.calls → e'.loans k = e.loans k)
    (hs : ∀ i, e'.sessions i = e.sessions i ∨
      (e'.sessions i).inUse = false ∧ (e'.sessions i).state = .free)
    (hn : ∀ n ∈ ns', ∀ k, n.eventsFor k = []) : Chronicle e' (ns ++ ns') where
  pool := hp
  idle i hi := by
    rcases hs i with hsi | hsi
    · rw [hsi] at hi ⊢
      exact h.idle i hi
    · exact hsi.2
  slot i hi := by
    rcases hs i with hsi | hsi
    · rw [hsi] at hi
      exact (h.slot i hi).congr hsi (hl _ (h.pool.lent i hi)) (eventsOf_silent hn _)
    · rw [hsi.1] at hi
      cases hi
  fresh k hk := by
    rw [eventsOf_silent hn]
    exact h.fresh k (Nat.le_trans hc hk)
  frame k st f fit hmem := by
    rw [eventsOf_silent hn] at hmem
    rw [hm]
    exact h.frame k st f fit hmem

theorem Note.eventsFor_remark {n : Note} (h : n.isRemark = true) (k : Nat) :
    n.eventsFor k = [] := by
  cases n with
  | did => cases h
  | _ => rfl

theorem Chronicle.claim {e : Engine} {ns : List Note} (h : Chronicle e ns) (lent : Lent) (i : Slot)
    (command type : UInt16) (now timeoutMs : UInt32)
    (hm : Micro e [.claimed i e.calls]
      ((e.numbered lent).claim i command type e.calls now timeoutMs)) :
    Chronicle ((e.numbered lent).claim i command type e.calls now timeoutMs)
      (ns ++ [.claimed i e.calls]) := by
  have hsilent : ∀ k, eventsOf k (ns ++ [.claimed i e.calls]) = eventsOf k ns :=
    eventsOf_silent fun n hn k => by rw [List.mem_singleton.1 hn]; rfl
  have hold : ∀ j, j ≠ i →
      ((e.numbered lent).claim i command type e.calls now timeoutMs).sessions j = e.sessions j :=
    fun j hj => claim_sessions_ne (e.numbered lent) hj command type e.calls now timeoutMs
  have hloan : ∀ k, k < e.calls →
      ((e.numbered lent).claim i command type e.calls now timeoutMs).loans k = e.loans k :=
    fun k hk => Function.update_of_ne (Nat.ne_of_lt hk) _ _
  refine ⟨hm.poolOk h.pool, fun j hj => ?_, fun j hj => ?_, fun k hk => ?_, fun k st f fit hf => ?_⟩
  · by_cases hji : j = i
    · subst hji
      rw [claim_sessions_self] at hj
      cases hj
    · rw [hold j hji] at hj ⊢
      exact h.idle j hj
  · by_cases hji : j = i
    · subst hji
      exact SlotOk.claim lent command type now timeoutMs
        ((hsilent _).trans (h.fresh _ (Nat.le_refl _)))
    · rw [hold j hji] at hj
      exact (h.slot j hj).congr (hold j hji) (hloan _ (h.pool.lent j hj)) (hsilent _)
  · rw [hsilent]
    exact h.fresh k (Nat.le_of_succ_le hk)
  · rw [hsilent] at hf
    exact h.frame k st f fit hf

/-- The events of a call on a session are deposits only if the call is one. -/
theorem call_deposited {t : Transaction} {c : Call} {st : State} {f : Frame} {fit : Bool}
    (h : .deposited st f fit ∈ (t.call c).2) : c = .deposit f := by
  cases c with
  | step moduleId now link =>
    simp only [Transaction.call, stepEvents] at h
    split at h
    · cases h
    split at h
    · simp at h
    split at h
    · simp at h
    · simp at h
  | deposit g =>
    simp only [Transaction.call] at h
    split at h
    · cases List.mem_singleton.1 h
      rfl
    · cases h
  | cancel => cases h

theorem Chronicle.call {e : Engine} {ns : List Note} (h : Chronicle e ns) (i : Slot) (c : Call)
    (hlive : c = .cancel ∨ sessionIsLive (e.sessions i) = true)
    (hframe : ∀ f, c = .deposit f → f.moduleId = e.moduleId ∧ ∃ bytes, frameDecode bytes = .ok f)
    (hp : PoolOk (e.callOn i c).1) : Chronicle (e.callOn i c).1 (ns ++ (e.callOn i c).2) := by
  -- a slot that is not in use is only ever cancelled, which does nothing to it
  have hidle : (e.sessions i).inUse = false →
      c = .cancel ∧ (e.callOn i c).1.sessions i = e.sessions i := by
    intro hi
    rcases hlive with rfl | hlive
    · refine ⟨rfl, ?_⟩
      have hend := call_ended (t := ⟨e.sessions i, e.loans (e.sessions i).lent⟩)
        (.inl (h.idle i hi)) .cancel
      rw [callOn_sessions_self, hend]
    · rw [sessionIsLive_iff, hi] at hlive
      cases hlive.1
  have hother : ∀ k, k ≠ (e.sessions i).lent ∨ c = .cancel →
      eventsOf k (ns ++ (e.callOn i c).2) = eventsOf k ns := by
    intro k hk
    rw [eventsOf_append]
    have hnil : eventsOf k (e.callOn i c).2 = [] := by
      by_cases hki : (e.sessions i).lent = k
      · rw [hk.resolve_left (fun hne => hne hki.symm)]
        subst hki
        exact eventsOf_did i _ _ _
      · exact eventsOf_did_ne i hki c _
    rw [hnil, List.append_nil]
  refine ⟨hp, fun j hj => ?_, fun j hj => ?_, fun k hk => ?_, fun k st f fit hf => ?_⟩
  · by_cases hji : j = i
    · subst hji
      have huse : (e.sessions j).inUse = false := (callOn_sameSession e j c j).inUse ▸ hj
      rw [(hidle huse).2]
      exact h.idle j huse
    · rw [callOn_sessions_ne e i c hji] at hj ⊢
      exact h.idle j hj
  · by_cases hji : j = i
    · subst hji
      exact (h.slot j ((callOn_sameSession e j c j).inUse ▸ hj)).call c
    · rw [callOn_sessions_ne e i c hji] at hj
      -- another slot in use has another loan, unless this one is a stale handle
      have hne : (e.sessions j).lent ≠ (e.sessions i).lent ∨ c = .cancel := by
        cases hi : (e.sessions i).inUse with
        | true => exact .inl fun hl => hji (h.pool.owner j i hj hi hl)
        | false => exact .inr (hidle hi).1
      refine (h.slot j hj).congr (callOn_sessions_ne e i c hji) (callOn_loans ?_) (hother _ hne)
      exact hne.imp id fun hc f hf => by rw [hc] at hf; cases hf
  · have hk' : e.calls ≤ k := hk
    rw [hother k ?_]
    · exact h.fresh k hk'
    · cases hi : (e.sessions i).inUse with
      | true => exact .inl (Nat.ne_of_gt (Nat.lt_of_lt_of_le (h.pool.lent i hi) hk'))
      | false => exact .inr (hidle hi).1
  · rw [eventsOf_append, List.mem_append] at hf
    rcases hf with hf | hf
    · exact h.frame k st f fit hf
    · by_cases hki : (e.sessions i).lent = k
      · subst hki
        rw [Engine.callOn, eventsOf_did] at hf
        exact hframe f (call_deposited hf)
      · rw [Engine.callOn, eventsOf_did_ne i hki] at hf
        cases hf

theorem Micro.chronicle {e e' : Engine} {ns ns' : List Note} (hm : Micro e ns' e')
    (h : Chronicle e ns) : Chronicle e' (ns ++ ns') := by
  have hp := hm.poolOk h.pool
  cases hm with
  | skip hs hl hc hmod =>
    exact h.quiet hp (Nat.le_of_eq hc.symm) hmod (fun k _ => by rw [hl])
      (fun i => .inl (by rw [hs])) fun n hn => by cases hn
  | remark hr =>
    refine h.quiet hp (Nat.le_refl _) rfl (fun _ _ => rfl) (fun _ => .inl rfl) fun n hn k => ?_
    rw [List.mem_singleton.1 hn]
    exact Note.eventsFor_remark hr k
  | refuse lent =>
    exact h.quiet hp (Nat.le_succ _) rfl (fun k hk => Function.update_of_ne (Nat.ne_of_lt hk) _ _)
      (fun _ => .inl rfl) fun n hn => by cases hn
  | claim lent i command type now timeoutMs hfree hdup =>
    exact h.claim lent i command type now timeoutMs
      (.claim lent i command type now timeoutMs hfree hdup)
  | call i c hlive hframe _ => exact h.call i c hlive (fun f hf => (hframe f hf).2) hp
  | reap i =>
    rcases reap_cases e i with hr | ⟨-, hr⟩
    · rw [hr, List.append_nil]
      exact h
    · rw [hr] at hp ⊢
      refine h.quiet hp (Nat.le_refl _) rfl (fun _ _ => rfl) (fun j => ?_) fun n hn k => ?_
      · by_cases hj : j = i
        · subst hj
          rw [setSession_sessions_self]
          exact .inr ⟨rfl, rfl⟩
        · exact .inl (setSession_sessions_ne e hj _)
      · rw [List.mem_singleton.1 hn]
        rfl

/-- The chronicle of any schedule. -/
theorem chronicle_run (moduleId : UInt16) (memory : Slot → Session) (loans : Nat → Lent)
    (ops : List Op) :
    Chronicle (engine.run (engineCreate moduleId memory loans) ops)
      (engine.history (engineCreate moduleId memory loans) ops) :=
  engine.history_invariant
    (fun e _ op h => (act_trace e op).extends_history (fun _ _ _ _ hm h => hm.chronicle h) h)
    (.create moduleId memory loans) ops

/-- **Success is never false.**  After any schedule: a session that has ended with `ESUP_OK` was
given, as its last frame and while it waited for the reply to a poll, a frame that was decoded from
the wire, with this module's id and its own selector, with no status and with a first data byte 0;
the caller's descriptor holds that result whole, and the acknowledgement was taken by the wire after
the deposit.  A result that was too large is not acknowledged.  And a reply in the mailbox is what
the next step acts on, whatever the clock says. -/
theorem success_never_false (moduleId : UInt16) (memory : Slot → Session) (loans : Nat → Lent)
    (ops : List Op) :
    let e := engine.run (engineCreate moduleId memory loans) ops
    let ns := engine.history (engineCreate moduleId memory loans) ops
    (∀ i, (e.sessions i).state = .done → (e.sessions i).res = retOk →
      ∃ (f : Frame) (pre post : List Event),
        eventsOf (e.sessions i).lent ns = pre ++ .deposited .awaitResult f true :: post ∧
        (∀ ev ∈ post, ev.isDeposit = false) ∧
        (∃ bytes, frameDecode bytes = .ok f) ∧ f.moduleId = e.moduleId ∧
        f.command = (e.sessions i).command ∧ f.type = (e.sessions i).type ∧
        f.cmdStatus = statusNone ∧ f.data.head? = some execOk ∧
        (∀ r, (e.loans (e.sessions i).lent).result = some r →
          r.command = f.command ∧ r.type = f.type ∧ r.dataLen = f.dataLen ∧
          ∀ b, r.data = some b → b.take f.data.length = f.data) ∧
        ∃ x, .sent x ∈ post ∧ x.kind = .resultAck ∧ x.err = none ∧
          x.frame.cmdStatus = statusAck ∧ x.frame.command = f.command ∧
          x.frame.type = f.type) ∧
    (∀ i, (e.sessions i).state = .done → retEngine (e.sessions i).res = sessionResultTooLarge →
      ∀ x, .sent x ∈ eventsOf (e.sessions i).lent ns → x.kind ≠ .resultAck) ∧
    (∀ i, (e.sessions i).inUse = true → (e.sessions i).rxPending = true →
      ∀ lent m now link,
        ((e.sessions i).state = .awaitAck ∧
          sessionStep (e.sessions i) lent m now link = (stepSubmitReply (e.sessions i) now, none) ∨
        (e.sessions i).state = .awaitResult ∧
          sessionStep (e.sessions i) lent m now link = (stepPollReply (e.sessions i) now, none)) ∧
        (sessionStep (e.sessions i) lent m now link).1.rxPending = false) := by
  intro e ns
  have h : Chronicle e ns := chronicle_run moduleId memory loans ops
  have huse : ∀ i, (e.sessions i).state = .done → (e.sessions i).inUse = true := by
    intro i hdone
    cases hi : (e.sessions i).inUse with
    | true => rfl
    | false => rw [h.idle i hi] at hdone; cases hdone
  have hout : ∀ i, (e.sessions i).state = .done →
      Outcome ⟨e.sessions i, e.loans (e.sessions i).lent⟩ (eventsOf (e.sessions i).lent ns) := by
    intro i hdone
    have hdel := (h.slot i (huse i hdone)).delivery.1
    simp only [Delivery, hdone] at hdel
    exact hdel
  refine ⟨fun i hdone hok => ?_, fun i hdone hbig x hx hkind => ?_,
    fun i hi hrx lent m now link => ?_⟩
  · obtain ⟨f, post, hhand, ⟨⟨pre, hes⟩, hpost⟩, hexec, x, hx, hkind, herr, hack⟩ :=
      (hout i hdone).ok hok
    have hmem : .deposited .awaitResult f true ∈ eventsOf (e.sessions i).lent ns := by
      rw [hes]
      simp
    obtain ⟨hmod, hdec⟩ := h.frame _ _ _ _ hmem
    have hhead : f.data.head? = some execOk := by
      cases hd : f.data with
      | nil => exact absurd hd hhand.data
      | cons b bs =>
        rw [hd] at hexec
        exact congrArg some hexec
    exact ⟨f, pre, post, hes, hpost, hdec, hmod, hhand.command, hhand.type, hhand.cmdStatus, hhead,
      hhand.result, x, hx, hkind, herr, hack⟩
  · have hacks := (hout i hdone).tooLarge hbig
    rw [resultAcks, List.countP_eq_zero] at hacks
    exact hacks _ hx (by simp [Event.isResultAck, hkind])
  · obtain ⟨hfree, hmail⟩ := (h.slot i hi).submission.1.mailbox
    have hst := hmail hrx
    refine ⟨?_, sessionStep_rxPending hfree (by rcases hst with hst | hst <;> simp [hst])⟩
    rcases hst with hst | hst
    · left
      rw [sessionStep, if_neg (by simp [hst]), if_pos hrx, if_pos hst]
      exact ⟨hst, rfl⟩
    · right
      rw [sessionStep, if_neg (by simp [hst]), if_pos hrx, if_neg (by simp [hst]), if_pos hst]
      exact ⟨hst, rfl⟩

end Esup
end FlightApps
