import FlightApps.Lib.Table
import FlightApps.Esup.Engine

/-!
# The session pool under any schedule

Sections of many threads work on the pool.  Whatever they do is a string of small moves (`Micro`):
a call gets its number, a free slot is claimed for a call, a session function is called on a slot, a
slot whose session has ended is freed.  `act_trace` takes every section apart into them; what holds
of the pool is then a case analysis on one move.

A session that lives works for the call that claimed its slot, and it never comes back to life.  So
a call of `esup_transact` that has returned leaves nothing behind that could touch the caller's
memory, whoever else has waited for or reaped the slot in between.
-/

set_option autoImplicit false

namespace FlightApps
namespace Esup

/-! ## What a call leaves of a session -/

/-- The same session: the slot, the selector, the loan and the deadline are as they were. -/
structure SameSession (s s' : Session) : Prop where
  inUse : s'.inUse = s.inUse
  command : s'.command = s.command
  type : s'.type = s.type
  lent : s'.lent = s.lent

theorem call_sameSession (t : Transaction) (c : Call) :
    SameSession t.session (t.call c).1.session := by
  cases c with
  | step moduleId now link =>
    have hk := sessionStep_kept t.session t.lent moduleId now link
    exact ⟨hk.inUse, hk.command, hk.type, hk.lent⟩
  | deposit f =>
    simp only [Transaction.call]
    split <;> exact ⟨rfl, rfl, rfl, rfl⟩
  | cancel =>
    rcases sessionCancel_cases t.session with hc | ⟨-, -, hc⟩
    · simp only [Transaction.call, hc]
      exact ⟨rfl, rfl, rfl, rfl⟩
    · simp only [Transaction.call, hc]
      exact ⟨rfl, rfl, rfl, rfl⟩

theorem sessionIsLive_iff {s : Session} :
    sessionIsLive s = true ↔ s.inUse = true ∧ s.state ≠ .done ∧ s.state ≠ .free := by
  simp [sessionIsLive, and_assoc]

/-- No call brings a session to life. -/
theorem call_ended {t : Transaction} (h : t.session.state = .free ∨ t.session.state = .done)
    (c : Call) : (t.call c).1 = t := by
  cases c with
  | step moduleId now link => simp only [Transaction.call, sessionStep_of_ended h]
  | deposit f =>
    simp only [Transaction.call]
    split
    · rename_i hawait
      obtain ⟨-, -, hst, -, -⟩ := sessionAwaiting_inv hawait
      rcases h with h | h <;> simp [h] at hst
    · rfl
  | cancel =>
    rcases sessionCancel_cases t.session with hc | ⟨hfree, hdone, -⟩
    · simp only [Transaction.call, hc]
    · rcases h with h | h <;> contradiction

theorem call_isLive {t : Transaction} {c : Call}
    (h : sessionIsLive (t.call c).1.session = true) : sessionIsLive t.session = true := by
  rw [sessionIsLive_iff] at h ⊢
  by_cases hend : t.session.state = .free ∨ t.session.state = .done
  · rw [call_ended hend c] at h
    exact h
  · rw [not_or] at hend
    exact ⟨(call_sameSession t c).inUse ▸ h.1, hend.2, hend.1⟩

/-! ## One session function on one slot -/

section CallOn

variable (e : Engine) (i : Slot) (c : Call)

theorem callOn_sessions :
    (e.callOn i c).1.sessions = Function.update e.sessions i
      (Transaction.call ⟨e.sessions i, e.loans (e.sessions i).lent⟩ c).1.session := rfl

theorem callOn_sessions_self :
    (e.callOn i c).1.sessions i =
      (Transaction.call ⟨e.sessions i, e.loans (e.sessions i).lent⟩ c).1.session := by
  rw [callOn_sessions, Function.update_self]

theorem callOn_sessions_ne {j : Slot} (h : j ≠ i) :
    (e.callOn i c).1.sessions j = e.sessions j := by
  rw [callOn_sessions, Function.update_of_ne h]

theorem callOn_sameSession (j : Slot) :
    SameSession (e.sessions j) ((e.callOn i c).1.sessions j) := by
  by_cases h : j = i
  · subst h
    rw [callOn_sessions_self]
    exact call_sameSession ⟨e.sessions j, e.loans (e.sessions j).lent⟩ c
  · rw [callOn_sessions_ne e i c h]
    exact ⟨rfl, rfl, rfl, rfl⟩

theorem callOn_isLive {j : Slot} (h : sessionIsLive ((e.callOn i c).1.sessions j) = true) :
    sessionIsLive (e.sessions j) = true := by
  by_cases hj : j = i
  · subst hj
    rw [callOn_sessions_self] at h
    exact call_isLive h
  · rwa [callOn_sessions_ne e i c hj] at h

theorem callOn_loans_ne {k : Nat} (h : k ≠ (e.sessions i).lent) :
    (e.callOn i c).1.loans k = e.loans k :=
  Function.update_of_ne h _ _

end CallOn

/-! ## Moves -/

/-- A note that is not about a slot. -/
def Note.isRemark : Note → Bool
  | .answered _ _ | .wake _ _ | .saw _ _ => true
  | _ => false

/-- What a section does to the pool, bit by bit. -/
inductive Micro : Engine → List Note → Engine → Prop
  /-- Nothing, as far as the pool is concerned. -/
  | skip {e e' : Engine} (hs : e'.sessions = e.sessions) (hl : e'.loans = e.loans)
      (hc : e'.calls = e.calls) (hm : e'.moduleId = e.moduleId) : Micro e [] e'
  | remark {e : Engine} {n : Note} (h : n.isRemark = true) : Micro e [n] e
  /-- A call gets its number and no slot. -/
  | refuse {e : Engine} (lent : Lent) : Micro e [] (e.numbered lent)
  /-- A call gets its number and a free slot. -/
  | claim {e : Engine} (lent : Lent) (i : Slot) (command type : UInt16) (now timeoutMs : UInt32)
      (hfree : (e.sessions i).inUse = false)
      (hdup : ∀ j, (e.sessions j).inUse = true → (e.sessions j).command = command →
        (e.sessions j).type ≠ type) :
      Micro e [.claimed i e.calls] ((e.numbered lent).claim i command type e.calls now timeoutMs)
  /-- A session function is called on a slot; only a frame of this module is deposited, and only
  where it is awaited. -/
  | call {e : Engine} (i : Slot) (c : Call)
      (hlive : c = .cancel ∨ sessionIsLive (e.sessions i) = true)
      (hframe : ∀ f, c = .deposit f →
        sessionAwaiting (e.sessions i) f.command f.type = true ∧ f.moduleId = e.moduleId ∧
          ∃ bytes, frameDecode bytes = .ok f)
      (hstep : ∀ m now link, c = .step m now link → m = e.moduleId) :
      Micro e (e.callOn i c).2 (e.callOn i c).1
  | reap {e : Engine} (i : Slot) : Micro e (e.reap i).2 (e.reap i).1

theorem reap_cases (e : Engine) (i : Slot) :
    e.reap i = (e, []) ∨
      (e.sessions i).state = .done ∧
        e.reap i = (e.setSession i { e.sessions i with inUse := false, state := .free },
          [.reaped i (e.sessions i).lent .done]) := by
  rw [Engine.reap]
  split
  · exact .inl rfl
  · rename_i h
    rw [not_not] at h
    rw [sessionReap, if_neg (by simp [h]), h]
    exact .inr ⟨rfl, rfl⟩

/-! ## Sections are strings of moves -/

/-- What the pool does not see can be done before a string of moves, -/
theorem skip_trace {e e' e'' : Engine} {ns : List Note} (h : Trace Micro e' ns e'')
    (hs : e'.sessions = e.sessions) (hl : e'.loans = e.loans) (hc : e'.calls = e.calls)
    (hm : e'.moduleId = e.moduleId) : Trace Micro e ns e'' :=
  (Trace.single (.skip hs hl hc hm)).trans h

/-- and after it. -/
theorem trace_skip {e e' e'' : Engine} {ns : List Note} (h : Trace Micro e ns e')
    (hs : e''.sessions = e'.sessions) (hl : e''.loans = e'.loans) (hc : e''.calls = e'.calls)
    (hm : e''.moduleId = e'.moduleId) : Trace Micro e ns e'' := by
  have := h.trans (.single (.skip hs hl hc hm))
  rwa [List.append_nil] at this

theorem trace_remark {e e' : Engine} {ns : List Note} {n : Note} (h : Trace Micro e ns e')
    (hn : n.isRemark = true) : Trace Micro e (ns ++ [n]) e' :=
  h.trans (.single (.remark hn))

/-- What is popped has been decoded. -/
theorem popAll_decodes {fuel : Nat} {framer framer' : Framer} {fs : List Frame}
    (h : popAll fuel framer = some (fs, framer')) (hfuel : framer.unread.length < fuel) :
    ∀ f ∈ fs, ∃ bytes, frameDecode bytes = .ok f := by
  rw [popAll_eq fuel framer hfuel] at h
  cases h
  refine frames.scan_items (P := fun _ f => ∃ bytes, frameDecode bytes = .ok f) ?_ ?_ _
  · exact fun bs n f hlook => ⟨_, (lookFrame_emit hlook).2.2⟩
  · exact fun _ _ _ _ hf => hf

theorem stepSlots_trace (e : Engine) (now : UInt32) (links : Slot → Link) (is : List Slot) :
    Trace Micro e (e.stepSlots now links is).2 (e.stepSlots now links is).1 := by
  induction is generalizing e with
  | nil => exact .refl e
  | cons i is ih =>
    rw [Engine.stepSlots]
    split
    · rename_i hlive
      refine .step (.call i _ (.inr hlive) (fun f hf => by cases hf) ?_) (ih _)
      intro m now' link hc
      cases hc
      rfl
    · exact ih e

theorem routeFrame_cases (e : Engine) (f : Frame) :
    e.routeFrame f = (e, []) ∨
      ∃ i, f.moduleId = e.moduleId ∧ sessionAwaiting (e.sessions i) f.command f.type = true ∧
        e.routeFrame f = e.callOn i (.deposit f) := by
  rw [Engine.routeFrame]
  split
  · exact .inl rfl
  rename_i hmod
  split
  · rename_i i hfind
    have hawait := List.find?_some hfind
    exact .inr ⟨i, not_not.1 hmod, hawait, rfl⟩
  · exact .inl rfl

theorem routeAll_trace (e : Engine) (fs : List Frame)
    (h : ∀ f ∈ fs, ∃ bytes, frameDecode bytes = .ok f) :
    Trace Micro e (e.routeAll fs).2 (e.routeAll fs).1 := by
  induction fs generalizing e with
  | nil => exact .refl e
  | cons f fs ih =>
    have hrest := ih (e.routeFrame f).1 fun f' hf' => h f' (List.mem_cons_of_mem f hf')
    refine Trace.trans ?_ hrest
    rcases routeFrame_cases e f with hr | ⟨i, hmod, hawait, hr⟩
    · rw [hr]
      exact .refl e
    · rw [hr]
      refine .single (.call i _ (.inr ?_) (fun f' hf' => ?_) (fun m now link hc => by cases hc))
      · obtain ⟨huse, -, hst, -, -⟩ := sessionAwaiting_inv hawait
        rw [sessionIsLive_iff]
        rcases hst with hst | hst <;> simp [hst, huse]
      · cases hf'
        exact ⟨hawait, hmod, h f List.mem_cons_self⟩

theorem routeFrames_trace (e : Engine) : Trace Micro e e.routeFrames.2 e.routeFrames.1 := by
  rw [Engine.routeFrames]
  split
  · rename_i fs framer hpop
    refine skip_trace (routeAll_trace _ fs ?_) rfl rfl rfl rfl
    exact popAll_decodes hpop (Nat.lt_succ_of_le (length_unread_le _))
  · exact .refl e

theorem sessionAlloc_inv {sessions : Slot → Session} {command type : UInt16} {i : Slot}
    (h : sessionAlloc sessions command type = .ok i) :
    (sessions i).inUse = false ∧ ∀ j, (sessions j).inUse = true →
      (sessions j).command = command → (sessions j).type ≠ type := by
  rw [sessionAlloc] at h
  split at h
  · cases h
  rename_i hdup
  split at h
  · rename_i i' hfind
    cases h
    refine ⟨by simpa using List.find?_some hfind, fun j huse hcmd hty => hdup ⟨j, huse, hcmd, hty⟩⟩
  · cases h

/-- What a start comes to: the call gets a number, and a slot with a session that has made its first
step, or a refusal. -/
theorem startSession_cases (e : Engine) (req : Request) (now now' : UInt32) (link : Link) :
    (∃ rc, e.startSession req now now' link = (e.numbered req.lent, .error rc, [])) ∨
      ∃ i e₁, (e.sessions i).inUse = false ∧
        (∀ j, (e.sessions j).inUse = true → (e.sessions j).command = req.command →
          (e.sessions j).type ≠ req.type) ∧
        e₁ = (e.numbered req.lent).claim i req.command req.type e.calls now req.timeoutMs ∧
        e.startSession req now now' link =
          ((e₁.callOn i (.step e.moduleId now' link)).1, .ok i,
            .claimed i e.calls :: (e₁.callOn i (.step e.moduleId now' link)).2) := by
  simp only [Engine.startSession]
  split
  · exact .inl ⟨_, rfl⟩
  split
  · exact .inl ⟨_, rfl⟩
  · rename_i i halloc
    obtain ⟨hfree, hdup⟩ := sessionAlloc_inv halloc
    exact .inr ⟨i, _, hfree, hdup, rfl, rfl⟩

theorem claim_sessions_self (e : Engine) (i : Slot) (command type : UInt16) (k : Nat)
    (now timeoutMs : UInt32) :
    (e.claim i command type k now timeoutMs).sessions i =
      sessionInit { e.sessions i with inUse := true, command := command, type := type } k now
        timeoutMs :=
  Function.update_self i _ _

theorem claim_sessions_ne (e : Engine) {i j : Slot} (h : j ≠ i) (command type : UInt16) (k : Nat)
    (now timeoutMs : UInt32) :
    (e.claim i command type k now timeoutMs).sessions j = e.sessions j :=
  Function.update_of_ne h _ _

theorem claim_isLive (e : Engine) (i : Slot) (command type : UInt16) (k : Nat)
    (now timeoutMs : UInt32) :
    sessionIsLive ((e.claim i command type k now timeoutMs).sessions i) = true := by
  rw [claim_sessions_self]
  rfl

theorem startSession_trace (e : Engine) (req : Request) (now now' : UInt32) (link : Link) :
    Trace Micro e (e.startSession req now now' link).2.2 (e.startSession req now now' link).1 := by
  rcases startSession_cases e req now now' link with ⟨rc, hr⟩ | ⟨i, e₁, hfree, hdup, rfl, hr⟩
  · rw [hr]
    exact .single (.refuse req.lent)
  · rw [hr]
    have hclaim := Micro.claim req.lent i req.command req.type now req.timeoutMs hfree hdup
    refine Trace.step hclaim (.single ?_)
    refine .call i _ (.inr (claim_isLive _ _ _ _ _ _ _)) (fun f hf => by cases hf) ?_
    intro m now'' link' hc
    cases hc
    rfl

theorem finish_trace (e : Engine) (k : Nat) (i : Slot) (rc : Ret) :
    Trace Micro e (e.finish k i rc).2 (e.finish k i rc).1 := by
  simp only [Engine.finish]
  refine trace_remark (trace_skip (Trace.trans ?_ (.single (.reap i))) rfl rfl rfl rfl) rfl
  split
  · exact .single (.call i .cancel (.inl rfl) (fun f hf => by cases hf) (fun _ _ _ h => by cases h))
  · exact .refl e

/-- **Every section is a string of moves.** -/
theorem act_trace (e : Engine) (op : Op) : Trace Micro e (e.act op).2 (e.act op).1 := by
  have hskip : ∀ e' : Engine, e'.sessions = e.sessions → e'.loans = e.loans →
      e'.calls = e.calls → e'.moduleId = e.moduleId → Trace Micro e [] e' :=
    fun e' hs hl hc hm => .single (.skip hs hl hc hm)
  cases op with
  | start req now now' link =>
    simp only [Engine.act]
    split
    · exact startSession_trace e req now now' link
    · exact trace_remark (startSession_trace e req now now' link) rfl
  | transact req now now' link =>
    simp only [Engine.act]
    split
    · exact trace_skip (startSession_trace e req now now' link) rfl rfl rfl rfl
    · exact trace_remark (trace_skip (startSession_trace e req now now' link) rfl rfl rfl rfl) rfl
  | waitBegin k now =>
    simp only [Engine.act]
    split
    · exact hskip _ rfl rfl rfl rfl
    · exact .refl e
  | waitCheck k now =>
    simp only [Engine.act]
    split
    · split
      · exact hskip _ rfl rfl rfl rfl
      · exact .refl e
    · exact .refl e
  | finish k =>
    simp only [Engine.act]
    split
    · exact finish_trace e k _ _
    · exact .refl e
  | wait i deadline now => exact .single (.remark rfl)
  | reap i => exact .single (.reap i)
  | tick now now' links =>
    simp only [Engine.act]
    split
    · exact .refl e
    · exact trace_remark (trace_skip (stepSlots_trace e now links _) rfl rfl rfl rfl) rfl
  | recv bytes =>
    simp only [Engine.act]
    split
    · exact hskip _ rfl rfl rfl rfl
    · exact .refl e
  | route =>
    simp only [Engine.act]
    split
    · exact skip_trace (routeFrames_trace _) rfl rfl rfl rfl
    · exact .refl e

/-! ## Owners -/

/-- The call that a slot is in use for. -/
def Engine.owner (e : Engine) (i : Slot) : Option Nat :=
  if (e.sessions i).inUse then some (e.sessions i).lent else none

theorem owner_eq_some {e : Engine} {i : Slot} {k : Nat} :
    e.owner i = some k ↔ (e.sessions i).inUse = true ∧ (e.sessions i).lent = k := by
  rw [Engine.owner]
  split
  · rename_i h
    simp [h]
  · rename_i h
    simp [h]

/-- Slots in use have different selectors and work for different calls, all of them numbered. -/
structure PoolOk (e : Engine) : Prop where
  selector : ∀ i j, (e.sessions i).inUse = true → (e.sessions j).inUse = true →
    (e.sessions i).command = (e.sessions j).command → (e.sessions i).type = (e.sessions j).type →
    i = j
  lent : ∀ i, (e.sessions i).inUse = true → (e.sessions i).lent < e.calls
  owner : ∀ i j, (e.sessions i).inUse = true → (e.sessions j).inUse = true →
    (e.sessions i).lent = (e.sessions j).lent → i = j

/-- A pool where every slot is as it was or out of use is as good as it was. -/
theorem PoolOk.of_slots {e e' : Engine} (h : PoolOk e) (hc : e.calls ≤ e'.calls)
    (hs : ∀ i, (e'.sessions i).inUse = true → SameSession (e.sessions i) (e'.sessions i)) :
    PoolOk e' where
  selector i j hi hj hcmd hty := by
    have hi' := hs i hi
    have hj' := hs j hj
    exact h.selector i j (hi'.inUse ▸ hi) (hj'.inUse ▸ hj)
      (by rw [← hi'.command, ← hj'.command, hcmd]) (by rw [← hi'.type, ← hj'.type, hty])
  lent i hi := by
    have hi' := hs i hi
    rw [hi'.lent]
    exact Nat.lt_of_lt_of_le (h.lent i (hi'.inUse ▸ hi)) hc
  owner i j hi hj hlent := by
    have hi' := hs i hi
    have hj' := hs j hj
    exact h.owner i j (hi'.inUse ▸ hi) (hj'.inUse ▸ hj) (by rw [← hi'.lent, ← hj'.lent, hlent])

theorem SameSession.refl (s : Session) : SameSession s s := ⟨rfl, rfl, rfl, rfl⟩

theorem setSession_sessions_self (e : Engine) (i : Slot) (s : Session) :
    (e.setSession i s).sessions i = s := Function.update_self i _ _

theorem setSession_sessions_ne (e : Engine) {i j : Slot} (h : j ≠ i) (s : Session) :
    (e.setSession i s).sessions j = e.sessions j := Function.update_of_ne h _ _

/-- A slot that is reaped is out of use, and the others are as they were. -/
theorem reap_slots (e : Engine) (i j : Slot) :
    ((e.reap i).1.sessions j).inUse = false ∨ (e.reap i).1.sessions j = e.sessions j := by
  rcases reap_cases e i with hr | ⟨-, hr⟩
  · rw [hr]
    exact .inr rfl
  · rw [hr]
    by_cases hj : j = i
    · subst hj
      rw [setSession_sessions_self]
      exact .inl rfl
    · exact .inr (setSession_sessions_ne e hj _)

/-- A session in use has a selector. -/
def HasSelector (s : Session) (key : UInt16 × UInt16) : Prop :=
  s.inUse = true ∧ s.command = key.1 ∧ s.type = key.2

/-- A session in use works for a call. -/
def WorksFor (s : Session) (k : Nat) : Prop := s.inUse = true ∧ s.lent = k

theorem PoolOk.claim {e : Engine} (h : PoolOk e) (lent : Lent) {i : Slot} (command type : UInt16)
    (now timeoutMs : UInt32)
    (hdup : ∀ j, (e.sessions j).inUse = true → (e.sessions j).command = command →
      (e.sessions j).type ≠ type) :
    PoolOk ((e.numbered lent).claim i command type e.calls now timeoutMs) := by
  have hold : ∀ j, j ≠ i → ((e.numbered lent).claim i command type e.calls now
      timeoutMs).sessions j = e.sessions j :=
    fun j hj => claim_sessions_ne (e.numbered lent) hj command type e.calls now timeoutMs
  have hnew := claim_sessions_self (e.numbered lent) i command type e.calls now timeoutMs
  have hselector : Table.OneSlot HasSelector e.sessions := fun a b key ha hb =>
    h.selector a b ha.1 hb.1 (ha.2.1.trans hb.2.1.symm) (ha.2.2.trans hb.2.2.symm)
  have howner : Table.OneSlot WorksFor e.sessions := fun a b k ha hb =>
    h.owner a b ha.1 hb.1 (ha.2.trans hb.2.symm)
  have hselector' := hselector.of_changed hold (by
    intro key hkey j _ hj
    rw [hnew] at hkey
    exact hdup j hj.1 (hj.2.1.trans hkey.2.1.symm) (hj.2.2.trans hkey.2.2.symm))
  have howner' := howner.of_changed hold (by
    intro k hk j _ hj
    rw [hnew] at hk
    exact Nat.ne_of_lt (h.lent j hj.1) (hj.2.trans hk.2.symm))
  refine ⟨fun a b ha hb hcmd hty => hselector' a b (_, _) ⟨ha, rfl, rfl⟩
    ⟨hb, hcmd.symm, hty.symm⟩, fun a ha => ?_, fun a b ha hb hlent => howner' a b _ ⟨ha, rfl⟩
    ⟨hb, hlent.symm⟩⟩
  by_cases hai : a = i
  · subst hai
    rw [hnew]
    exact Nat.lt_succ_self _
  · rw [hold a hai] at ha ⊢
    exact Nat.lt_succ_of_lt (h.lent a ha)

theorem Micro.poolOk {e e' : Engine} {ns : List Note} (hm : Micro e ns e') (h : PoolOk e) :
    PoolOk e' := by
  cases hm with
  | skip hs _ hc _ =>
    refine h.of_slots (Nat.le_of_eq hc.symm) fun i _ => ?_
    rw [hs]
    exact .refl _
  | remark => exact h
  | refuse lent => exact h.of_slots (Nat.le_succ _) fun i _ => .refl _
  | claim lent i command type now timeoutMs hfree hdup =>
    exact h.claim lent command type now timeoutMs hdup
  | call i c _ _ _ =>
    exact h.of_slots (Nat.le_refl _) fun j _ => callOn_sameSession e i c j
  | reap i =>
    have hcalls : (e.reap i).1.calls = e.calls := by
      rcases reap_cases e i with hr | ⟨-, hr⟩
      · rw [hr]
      · rw [hr]
        rfl
    refine h.of_slots (Nat.le_of_eq hcalls.symm) fun j hj => ?_
    rcases reap_slots e i j with hr | hr
    · rw [hr] at hj
      cases hj
    · rw [hr]
      exact .refl _

/-- A slot keeps its owner until it is reaped, with its session ended. -/
theorem Micro.owner {e e' : Engine} {ns : List Note} (hm : Micro e ns e') {i : Slot} {k : Nat}
    (h : e.owner i = some k) : e'.owner i = some k ∨ .reaped i k .done ∈ ns := by
  rw [owner_eq_some] at h
  cases hm with
  | skip hs _ _ _ =>
    rw [owner_eq_some, hs]
    exact .inl h
  | remark => exact .inl (owner_eq_some.2 h)
  | refuse lent => exact .inl (owner_eq_some.2 h)
  | claim lent j command type now timeoutMs hfree hdup =>
    have hne : i ≠ j := by
      rintro rfl
      rw [hfree] at h
      cases h.1
    rw [owner_eq_some, claim_sessions_ne _ hne]
    exact .inl h
  | call j c _ _ _ =>
    have hs := callOn_sameSession e j c i
    rw [owner_eq_some, hs.inUse, hs.lent]
    exact .inl h
  | reap j =>
    rcases reap_cases e j with hr | ⟨hdone, hr⟩
    · rw [hr]
      exact .inl (owner_eq_some.2 h)
    · rw [hr]
      by_cases hij : i = j
      · subst hij
        rw [h.2]
        exact .inr (by simp)
      · rw [owner_eq_some, setSession_sessions_ne e hij]
        exact .inl h

theorem owner_trace {e e' : Engine} {ns : List Note} (hm : Trace Micro e ns e') {i : Slot} {k : Nat}
    (h : e.owner i = some k) : e'.owner i = some k ∨ .reaped i k .done ∈ ns := by
  induction hm with
  | refl => exact .inl h
  | step hm _ ih =>
    rcases hm.owner h with h | h
    · exact (ih h).imp id fun hr => List.mem_append_right _ hr
    · exact .inr (List.mem_append_left _ h)

theorem owner_run {e : Engine} {i : Slot} {k : Nat} (h : e.owner i = some k) (ops : List Op) :
    (engine.run e ops).owner i = some k ∨ .reaped i k .done ∈ engine.history e ops := by
  induction ops generalizing e with
  | nil => exact .inl h
  | cons op ops ih =>
    rw [Machine.history_cons]
    rcases owner_trace (act_trace e op) h with h | h
    · exact (ih h).imp id fun hr => List.mem_append_right _ hr
    · exact .inr (List.mem_append_left _ h)

/-! ## Loans -/

/-- A live session in the slot works for the call. -/
def Works (e : Engine) (k : Nat) (i : Slot) : Prop :=
  sessionIsLive (e.sessions i) = true ∧ (e.sessions i).lent = k

/-- The call has its number, and no live session works for it. -/
def Gone (e : Engine) (k : Nat) : Prop := k < e.calls ∧ ∀ i, ¬Works e k i

theorem Micro.calls_le {e e' : Engine} {ns : List Note} (hm : Micro e ns e') :
    e.calls ≤ e'.calls := by
  cases hm with
  | skip _ _ hc _ => exact Nat.le_of_eq hc.symm
  | remark => exact Nat.le_refl _
  | refuse => exact Nat.le_succ _
  | claim => exact Nat.le_succ _
  | call => exact Nat.le_refl _
  | reap i =>
    rcases reap_cases e i with hr | ⟨-, hr⟩
    · rw [hr]
    · rw [hr]
      exact Nat.le_refl _

/-- No session comes to work for a call that has its number already. -/
theorem Micro.works {e e' : Engine} {ns : List Note} (hm : Micro e ns e') {k : Nat}
    (hk : k < e.calls) {i : Slot} (h : Works e' k i) : Works e k i := by
  cases hm with
  | skip hs _ _ _ =>
    rw [Works, hs] at h
    exact h
  | remark => exact h
  | refuse lent => exact h
  | claim lent j command type now timeoutMs hfree hdup =>
    by_cases hij : i = j
    · subst hij
      rw [Works, claim_sessions_self] at h
      exact absurd h.2 (Nat.ne_of_gt hk)
    · rw [Works, claim_sessions_ne _ hij] at h
      exact h
  | call j c _ _ _ =>
    exact ⟨callOn_isLive e j c h.1, (callOn_sameSession e j c i).lent ▸ h.2⟩
  | reap j =>
    rcases reap_slots e j i with hr | hr
    · rw [Works, sessionIsLive_iff, hr] at h
      cases h.1.1
    · rw [Works, hr] at h
      exact h

/-- A session function leaves all loans but one alone, and that one only changes with a deposit. -/
theorem callOn_loans {e : Engine} {i : Slot} {c : Call} {k : Nat}
    (h : k ≠ (e.sessions i).lent ∨ ∀ f, c ≠ .deposit f) :
    (e.callOn i c).1.loans k = e.loans k := by
  by_cases hk : k = (e.sessions i).lent
  · subst hk
    have hc := h.resolve_left (fun hne => hne rfl)
    change Function.update e.loans _ _ _ = _
    rw [Function.update_self]
    cases c with
    | step => rfl
    | deposit f => exact absurd rfl (hc f)
    | cancel => rfl
  · exact callOn_loans_ne e i c hk

/-- Nothing is done any more with a loan for which no live session works. -/
theorem Micro.gone {e e' : Engine} {ns : List Note} (hm : Micro e ns e') {k : Nat}
    (h : Gone e k) :
    Gone e' k ∧ e'.loans k = e.loans k ∧
      ∀ n ∈ ns, ∀ i c es, n = .did i k c es → c = .cancel ∧ es = [] := by
  refine ⟨⟨Nat.lt_of_lt_of_le h.1 hm.calls_le, fun i hw => h.2 i (hm.works h.1 hw)⟩, ?_⟩
  cases hm with
  | skip _ hl _ _ => exact ⟨by rw [hl], fun n hn => by cases hn⟩
  | remark hr =>
    refine ⟨rfl, fun n hn i c es he => ?_⟩
    rw [List.mem_singleton.1 hn] at he
    rw [he] at hr
    cases hr
  | refuse lent => exact ⟨Function.update_of_ne (Nat.ne_of_lt h.1) _ _, fun n hn => by cases hn⟩
  | claim lent j command type now timeoutMs hfree hdup =>
    refine ⟨Function.update_of_ne (Nat.ne_of_lt h.1) _ _, fun n hn i c es he => ?_⟩
    rw [List.mem_singleton.1 hn] at he
    cases he
  | call j c hlive hframe _ =>
    refine ⟨callOn_loans ?_, fun n hn i c' es he => ?_⟩
    · by_cases hk : k = (e.sessions j).lent
      · right
        rintro f rfl
        rcases hlive with hlive | hlive
        · cases hlive
        · exact h.2 j ⟨hlive, hk.symm⟩
      · exact .inl hk
    · rw [List.mem_singleton.1 hn] at he
      cases he
      rcases hlive with rfl | hlive
      · exact ⟨rfl, rfl⟩
      · exact absurd ⟨hlive, rfl⟩ (h.2 j)
  | reap j =>
    rcases reap_cases e j with hr | ⟨-, hr⟩
    · rw [hr]
      exact ⟨rfl, fun n hn => by cases hn⟩
    · rw [hr]
      refine ⟨rfl, fun n hn i c es he => ?_⟩
      rw [List.mem_singleton.1 hn] at he
      cases he

theorem gone_trace {e e' : Engine} {ns : List Note} (hm : Trace Micro e ns e') {k : Nat}
    (h : Gone e k) :
    Gone e' k ∧ e'.loans k = e.loans k ∧
      ∀ n ∈ ns, ∀ i c es, n = .did i k c es → c = .cancel ∧ es = [] := by
  induction hm with
  | refl => exact ⟨h, rfl, fun n hn => by cases hn⟩
  | step hm _ ih =>
    obtain ⟨hg, hl, hn⟩ := hm.gone h
    obtain ⟨hg', hl', hn'⟩ := ih hg
    refine ⟨hg', hl'.trans hl, fun n hmem => ?_⟩
    rcases List.mem_append.1 hmem with hmem | hmem
    · exact hn n hmem
    · exact hn' n hmem

theorem gone_run {e : Engine} {k : Nat} (h : Gone e k) (ops : List Op) :
    (engine.run e ops).loans k = e.loans k ∧
      ∀ n ∈ engine.history e ops, ∀ i c es, n = .did i k c es → c = .cancel ∧ es = [] := by
  induction ops generalizing e with
  | nil => exact ⟨rfl, fun n hn => by cases hn⟩
  | cons op ops ih =>
    obtain ⟨hg, hl, hn⟩ := gone_trace (act_trace e op) h
    obtain ⟨hl', hn'⟩ := ih hg
    rw [Machine.history_cons]
    refine ⟨hl'.trans hl, fun n hmem => ?_⟩
    rcases List.mem_append.1 hmem with hmem | hmem
    · exact hn n hmem
    · exact hn' n hmem

theorem works_trace {e e' : Engine} {ns : List Note} (hm : Trace Micro e ns e') {k : Nat}
    (hk : k < e.calls) : k < e'.calls ∧ ∀ i, Works e' k i → Works e k i := by
  induction hm with
  | refl => exact ⟨hk, fun i h => h⟩
  | step hm _ ih =>
    obtain ⟨hk', hw⟩ := ih (Nat.lt_of_lt_of_le hk hm.calls_le)
    exact ⟨hk', fun i h => hm.works hk (hw i h)⟩

/-! ## Transactions -/

/-- What a phase of `esup_transact` says about the session it has started. -/
def PhaseOk (e : Engine) (k : Nat) : Phase → Prop
  | .absent => True
  | .started i _ | .waiting i _ => k < e.calls ∧ ∀ j, Works e k j → j = i
  | .waited i rc => k < e.calls ∧ (∀ j, Works e k j → j = i) ∧ (rc ≠ sessionPending → Gone e k)
  | .returned _ => Gone e k

theorem PhaseOk.trace {e e' : Engine} {ns : List Note} (hm : Trace Micro e ns e') {k : Nat}
    {p : Phase} (h : PhaseOk e k p) : PhaseOk e' k p := by
  have hslot : ∀ {i : Slot}, (k < e.calls ∧ ∀ j, Works e k j → j = i) →
      k < e'.calls ∧ ∀ j, Works e' k j → j = i := by
    intro i hs
    obtain ⟨hk, hw⟩ := works_trace hm hs.1
    exact ⟨hk, fun j hj => hs.2 j (hw j hj)⟩
  cases p with
  | absent => trivial
  | started i _ => exact hslot h
  | waiting i _ => exact hslot h
  | waited i rc =>
    obtain ⟨hk, hj⟩ := hslot ⟨h.1, h.2.1⟩
    exact ⟨hk, hj, fun hrc => (gone_trace hm (h.2.2 hrc)).1⟩
  | returned _ => exact (gone_trace hm h).1

/-- The pool and the phases are in order. -/
structure EngineOk (e : Engine) : Prop where
  pool : PoolOk e
  phase : ∀ k, PhaseOk e k (e.transacts k)

theorem engineCreate_ok (moduleId : UInt16) (memory : Slot → Session) (loans : Nat → Lent) :
    EngineOk (engineCreate moduleId memory loans) where
  pool :=
    { selector := fun i j hi => by cases hi
      lent := fun i hi => by cases hi
      owner := fun i j hi => by cases hi }
  phase := fun k => trivial

theorem EngineOk.trace {e e' : Engine} {ns : List Note} (h : EngineOk e) (hm : Trace Micro e ns e')
    (ht : ∀ k, e'.transacts k = e.transacts k ∨ PhaseOk e' k (e'.transacts k)) : EngineOk e' where
  pool := hm.keeps (fun _ _ _ hm hp => hm.poolOk hp) h.pool
  phase k := by
    rcases ht k with hk | hk
    · rw [hk]
      exact (h.phase k).trace hm
    · exact hk

theorem stepSlots_transacts (e : Engine) (now : UInt32) (links : Slot → Link) (is : List Slot) :
    (e.stepSlots now links is).1.transacts = e.transacts := by
  induction is generalizing e with
  | nil => rfl
  | cons i is ih =>
    rw [Engine.stepSlots]
    split
    · exact ih _
    · exact ih e

theorem routeAll_transacts (e : Engine) (fs : List Frame) :
    (e.routeAll fs).1.transacts = e.transacts := by
  induction fs generalizing e with
  | nil => rfl
  | cons f fs ih =>
    refine (ih _).trans ?_
    rcases routeFrame_cases e f with hr | ⟨i, -, -, hr⟩
    · rw [hr]
    · rw [hr]
      rfl

theorem routeFrames_transacts (e : Engine) : e.routeFrames.1.transacts = e.transacts := by
  rw [Engine.routeFrames]
  split
  · exact routeAll_transacts _ _
  · rfl

theorem reap_transacts (e : Engine) (i : Slot) : (e.reap i).1.transacts = e.transacts := by
  rcases reap_cases e i with hr | ⟨-, hr⟩
  · rw [hr]
  · rw [hr]
    rfl

theorem startSession_transacts (e : Engine) (req : Request) (now now' : UInt32) (link : Link) :
    (e.startSession req now now' link).1.transacts = e.transacts := by
  rcases startSession_cases e req now now' link with ⟨rc, hr⟩ | ⟨i, e₁, -, -, rfl, hr⟩
  · rw [hr]
    rfl
  · rw [hr]
    rfl

/-- The session that a start leaves works for the call that made it, and no other does. -/
theorem startSession_works {e : Engine} (hp : PoolOk e) {req : Request} {now now' : UInt32}
    {link : Link} {j : Slot} (h : Works (e.startSession req now now' link).1 e.calls j) :
    (e.startSession req now now' link).2.1 = .ok j := by
  have hold : ∀ {s : Session} {j : Slot}, s = e.sessions j →
      ¬(sessionIsLive s = true ∧ s.lent = e.calls) := by
    rintro s j rfl hw
    exact Nat.lt_irrefl _ (hw.2 ▸ hp.lent j (sessionIsLive_iff.1 hw.1).1)
  rcases startSession_cases e req now now' link with ⟨rc, hr⟩ | ⟨i, e₁, -, -, rfl, hr⟩
  · rw [hr] at h
    exact absurd h (hold rfl)
  · rw [hr] at h ⊢
    by_cases hij : j = i
    · rw [hij]
    · rw [Works, callOn_sessions_ne _ _ _ hij, claim_sessions_ne _ hij] at h
      exact absurd h (hold rfl)

theorem startSession_calls (e : Engine) (req : Request) (now now' : UInt32) (link : Link) :
    (e.startSession req now now' link).1.calls = e.calls + 1 := by
  rcases startSession_cases e req now now' link with ⟨rc, hr⟩ | ⟨i, e₁, -, -, rfl, hr⟩
  · rw [hr]
    rfl
  · rw [hr]
    rfl

/-- A session that is cancelled is not live. -/
theorem cancel_not_live (e : Engine) (i : Slot) :
    sessionIsLive ((e.callOn i .cancel).1.sessions i) = false := by
  rw [callOn_sessions_self]
  change sessionIsLive (sessionCancel (e.sessions i)) = false
  rw [sessionCancel]
  split
  · simp [sessionIsLive, terminate]
  · rename_i h
    simpa using h

/-- **The last section of a transaction leaves no session that works for it.** -/
theorem finish_gone {e : Engine} {k : Nat} {i : Slot} {rc : Ret}
    (h : PhaseOk e k (.waited i rc)) : Gone (e.finish k i rc).1 k := by
  by_cases hrc : rc = sessionPending
  · subst hrc
    have hcancel := works_trace (k := k) (.single (.call i .cancel (.inl rfl)
      (fun f hf => by cases hf) (fun _ _ _ hc => by cases hc))) h.1
    have hgone : Gone (e.callOn i .cancel).1 k := by
      refine ⟨hcancel.1, fun j hw => ?_⟩
      have hj := h.2.1 j (hcancel.2 j hw)
      rw [hj, Works, cancel_not_live] at hw
      cases hw.1
    exact ((Micro.reap i).gone hgone).1
  · have hgone := h.2.2 hrc
    have hfin := gone_trace (finish_trace e k i rc) hgone
    exact hfin.1

theorem setPhase_transacts (e : Engine) (k : Nat) (p : Phase) (k' : Nat) :
    (e.setPhase k p).transacts k' = if k' = k then p else e.transacts k' :=
  Function.update_apply _ _ _ _

/-- A section that moves one transaction to a phase that is in order. -/
theorem EngineOk.setPhase {e e' : Engine} {ns : List Note} (h : EngineOk e)
    (hm : Trace Micro e ns e') (ht : e'.transacts = e.transacts) {k : Nat} {p : Phase}
    (hp : PhaseOk e' k p) : EngineOk (e'.setPhase k p) := by
  refine h.trace (trace_skip hm rfl rfl rfl rfl) fun k' => ?_
  rw [setPhase_transacts, ht]
  split
  · rename_i hk
    subst hk
    exact .inr hp
  · exact .inl rfl

/-- Every section keeps the engine in order. -/
theorem EngineOk.transact {e : Engine} (h : EngineOk e) (req : Request) (now now' : UInt32)
    (link : Link) : EngineOk (e.act (.transact req now now' link)).1 := by
  have hm := startSession_trace e req now now' link
  have ht := startSession_transacts e req now now' link
  have hk : e.calls < (e.startSession req now now' link).1.calls := by
    rw [startSession_calls]
    exact Nat.lt_succ_self _
  have hw : ∀ j, Works (e.startSession req now now' link).1 e.calls j →
      (e.startSession req now now' link).2.1 = .ok j :=
    fun j hj => startSession_works h.pool hj
  simp only [Engine.act]
  split
  · rename_i i hr
    refine h.setPhase hm ht ⟨hk, fun j hj => ?_⟩
    have := hw j hj
    rw [hr] at this
    cases this
    rfl
  · rename_i rc hr
    refine h.setPhase hm ht ⟨hk, fun j hj => ?_⟩
    have := hw j hj
    rw [hr] at this
    cases this

/-- A wait that returns something other than a timeout has seen the session of its call ended. -/
theorem EngineOk.waitCheck {e : Engine} (h : EngineOk e) (k : Nat) (now : UInt32) :
    EngineOk (e.act (.waitCheck k now)).1 := by
  simp only [Engine.act]
  split
  · rename_i i deadline hp
    have hk := h.phase k
    rw [hp] at hk
    split
    · rename_i rc hpass
      refine h.setPhase (.refl e) rfl ⟨hk.1, hk.2, fun hrc => ⟨hk.1, fun j hw => ?_⟩⟩
      rw [waitPass] at hpass
      split at hpass
      · rename_i hdone
        have hlive := sessionIsLive_iff.1 hw.1
        rw [hk.2 j hw] at hlive
        exact hlive.2.1 hdone
      split at hpass
      · cases hpass
        exact hrc rfl
      · cases hpass
    · exact h
  · exact h

theorem EngineOk.finish {e : Engine} (h : EngineOk e) (k : Nat) :
    EngineOk (e.act (.finish k)).1 := by
  simp only [Engine.act]
  split
  · rename_i i rc hp
    have hk := h.phase k
    rw [hp] at hk
    refine h.trace (finish_trace e k i rc) fun k' => ?_
    by_cases hkk : k' = k
    · subst hkk
      right
      have hret : ∃ rc', (e.finish k' i rc).1.transacts k' = .returned rc' :=
        ⟨_, Function.update_self _ _ _⟩
      obtain ⟨rc', hret⟩ := hret
      rw [hret]
      exact finish_gone hk
    · left
      change Function.update _ k _ k' = _
      rw [Function.update_of_ne hkk, reap_transacts]
      split <;> rfl
  · exact h

theorem EngineOk.act {e : Engine} (h : EngineOk e) (op : Op) : EngineOk (e.act op).1 := by
  have hsame : (e.act op).1.transacts = e.transacts → EngineOk (e.act op).1 :=
    fun ht => h.trace (act_trace e op) fun k => .inl (by rw [ht])
  cases op with
  | start req now now' link =>
    refine hsame ?_
    simp only [Engine.act]
    split <;> exact startSession_transacts e req now now' link
  | transact req now now' link => exact h.transact req now now' link
  | waitBegin k now =>
    simp only [Engine.act]
    split
    · rename_i i timeoutMs hp
      have hk := h.phase k
      rw [hp] at hk
      exact h.setPhase (.refl e) rfl hk
    · exact h
  | waitCheck k now => exact h.waitCheck k now
  | finish k => exact h.finish k
  | wait i deadline now => exact h
  | reap i => exact hsame (reap_transacts e i)
  | tick now now' links =>
    refine hsame ?_
    simp only [Engine.act]
    split
    · rfl
    · exact stepSlots_transacts e now links _
  | recv bytes =>
    refine hsame ?_
    simp only [Engine.act]
    split <;> rfl
  | route =>
    refine hsame ?_
    simp only [Engine.act]
    split
    · exact routeFrames_transacts _
    · rfl

theorem engineOk_run (moduleId : UInt16) (memory : Slot → Session) (loans : Nat → Lent)
    (ops : List Op) : EngineOk (engine.run (engineCreate moduleId memory loans) ops) :=
  engine.invariant (fun _ op h => h.act op) (engineCreate_ok moduleId memory loans) ops

/-! ## Integrity -/

/-- A frame is deposited in one slot at most, where it is awaited and the mailbox is empty. -/
theorem routeFrame_deposits (e : Engine) (f : Frame) :
    (e.routeFrame f = (e, []) ∨ ∃ i es,
      (e.sessions i).inUse = true ∧ (e.sessions i).rxPending = false ∧
      ((e.sessions i).state = .awaitAck ∨ (e.sessions i).state = .awaitResult) ∧
      (e.sessions i).command = f.command ∧ (e.sessions i).type = f.type ∧
      (e.routeFrame f).2 = [.did i (e.sessions i).lent (.deposit f) es] ∧
      ∀ j, j ≠ i → (e.routeFrame f).1.sessions j = e.sessions j) ∧
    ∀ j, (e.sessions j).rxPending = true → (e.routeFrame f).1.sessions j = e.sessions j := by
  rcases routeFrame_cases e f with hr | ⟨i, -, hawait, hr⟩
  · rw [hr]
    exact ⟨.inl rfl, fun j _ => rfl⟩
  · obtain ⟨huse, hrx, hst, hcmd, hty⟩ := sessionAwaiting_inv hawait
    have hother : ∀ j, j ≠ i → (e.routeFrame f).1.sessions j = e.sessions j := by
      intro j hj
      rw [hr]
      exact callOn_sessions_ne e i _ hj
    refine ⟨.inr ⟨i, _, huse, hrx, hst, hcmd, hty, by rw [hr]; rfl, hother⟩, fun j hj => ?_⟩
    refine hother j ?_
    rintro rfl
    rw [hrx] at hj
    cases hj

/-- **Integrity of the session pool**, after any schedule of any number of callers and the driver.
At most one session in use has a selector; a frame is deposited in one session at most, where it is
awaited and the mailbox is empty; a slot changes its owner only by being reaped when its session has
ended; and when a call of `esup_transact` has returned, no live session works on what it lent, so
nothing of it is read or written any more. -/
theorem pool_integrity (moduleId : UInt16) (memory : Slot → Session) (loans : Nat → Lent)
    (ops : List Op) :
    let e := engine.run (engineCreate moduleId memory loans) ops
    (∀ i j, (e.sessions i).inUse = true → (e.sessions j).inUse = true →
      (e.sessions i).command = (e.sessions j).command →
      (e.sessions i).type = (e.sessions j).type → i = j) ∧
    (∀ (e' : Engine) (f : Frame),
      (e'.routeFrame f = (e', []) ∨ ∃ i es,
        (e'.sessions i).inUse = true ∧ (e'.sessions i).rxPending = false ∧
        ((e'.sessions i).state = .awaitAck ∨ (e'.sessions i).state = .awaitResult) ∧
        (e'.sessions i).command = f.command ∧ (e'.sessions i).type = f.type ∧
        (e'.routeFrame f).2 = [.did i (e'.sessions i).lent (.deposit f) es] ∧
        ∀ j, j ≠ i → (e'.routeFrame f).1.sessions j = e'.sessions j) ∧
      ∀ j, (e'.sessions j).rxPending = true → (e'.routeFrame f).1.sessions j = e'.sessions j) ∧
    (∀ ops' i k, e.owner i = some k → (engine.run e ops').owner i ≠ some k →
      .reaped i k .done ∈ engine.history e ops') ∧
    (∀ k rc, e.transacts k = .returned rc →
      (∀ i, sessionIsLive (e.sessions i) = true → (e.sessions i).lent ≠ k) ∧
      ∀ ops', (engine.run e ops').loans k = e.loans k ∧
        ∀ i c es, .did i k c es ∈ engine.history e ops' → c = .cancel ∧ es = []) := by
  intro e
  have hok : EngineOk e := engineOk_run moduleId memory loans ops
  refine ⟨hok.pool.selector, routeFrame_deposits, fun ops' i k hi hne => ?_, fun k rc hret => ?_⟩
  · exact (owner_run hi ops').resolve_left hne
  · have hgone : Gone e k := by
      have hphase := hok.phase k
      rw [hret] at hphase
      exact hphase
    refine ⟨fun i hlive hk => hgone.2 i ⟨hlive, hk⟩, fun ops' => ?_⟩
    obtain ⟨hl, hn⟩ := gone_run hgone ops'
    exact ⟨hl, fun i c es hmem => hn _ hmem i c es rfl⟩

end Esup
end FlightApps
