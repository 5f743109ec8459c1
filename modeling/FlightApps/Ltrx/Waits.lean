import FlightApps.Ltrx.Delivery

/-!
# How the session waits

The session is called in any order: requests are queued, commands and offers are reported, and it is
ticked.  `Watched` runs it next to a bookkeeper, who notes which command was received last and how
many timeouts have expired since the wait began.  `Sound` is what they agree on after every call.

`Heard` says all that a tick can do with what the latch holds, and `Served` all that it can do with
the queue.  A tick that finds neither only looks at the time.
-/

set_option autoImplicit false

namespace FlightApps
namespace Ltrx

/-! ## The clock -/

/-- `LTRX_NowMs`, where the local time is `ticks` of 100 ns. -/
def nowMs (ticks : Nat) : UInt32 :=
  UInt32.ofNat (ticks / 10000000 * 1000 + ticks % 10000000 / 1000000)

/-- What `LTRX_NowMs` would say if it did not wrap. -/
def trueMs (ticks : Nat) : Nat := ticks / 10000000 * 1000 + ticks % 10000000 / 1000000

theorem trueMs_mono {a b : Nat} (h : a ≤ b) : trueMs a ≤ trueMs b := by
  rw [trueMs, trueMs]
  omega

/-- **The wrapped clock measures what has passed**, modulo its range. -/
theorem nowMs_sub {a b : Nat} (h : a ≤ b) :
    nowMs b - nowMs a = UInt32.ofNat (trueMs b - trueMs a) := by
  rw [UInt32.ofNat_sub (trueMs_mono h)]
  rfl

/-- Two seconds have passed as soon as twenty tenths have. -/
theorem trueMs_timeout {a b : Nat} (h : a ≤ b) :
    timeoutMs.toNat ≤ trueMs b - trueMs a ↔ 20 ≤ b / 1000000 - a / 1000000 := by
  show 2000 ≤ _ ↔ _
  rw [trueMs, trueMs]
  omega

/-! ## What a tick does -/

/-- What the session waits for in a state. -/
def SessionState.waitKind : SessionState → WaitKind
  | .waitBeaconReq => .type3
  | .dlInProgress => .dlDone11
  | .ulOffered => .ulHeader5
  | .ulInProgress => .ulParts
  | _ => .none

namespace Session

/-- The session is in a state in which it waits. -/
def Waiting (s : Session) : Prop := s.state.waitKind ≠ .none

instance (s : Session) : Decidable s.Waiting := inferInstanceAs (Decidable (_ ≠ _))

/-- A tick at this time finds that a timeout has expired. -/
def Expires (s : Session) (now : UInt32) : Prop :=
  s.Waiting ∧ s.haveRx = false ∧ timeoutMs ≤ now - s.waitStartMs

instance (s : Session) (now : UInt32) : Decidable (s.Expires now) :=
  inferInstanceAs (Decidable (_ ∧ _))

/-- How a wait may end once something has been received. -/
inductive Ended (s : Session) (done : Bool) : SessionState → Prop
  | error : Ended s done .error
  | complete (hstate : s.state = .dlInProgress) (htype : s.lastRxType = 11)
      (hstatus : s.lastRxStatus = 0) (hid : s.downlinkDoneMsgMatches = true) :
      Ended s done .complete
  | ulComplete (hdone : done = true) : Ended s done .ulComplete

/-- All that a waiting session does with what it has received. -/
inductive Heard (s : Session) (done : Bool) : Session → Prop
  | ignores : Heard s done { s with haveRx := false }
  | touches (now : UInt32) : Heard s done { s with haveRx := false, waitStartMs := now }
  | ends (state : SessionState) (h : Ended s done state) :
      Heard s done ({ s with haveRx := false }.endWait state)
  | goesOn (state : SessionState) (now : UInt32) (hnew : s.state ≠ state)
      (hwaits : state.waitKind ≠ .none) :
      Heard s done ({ s with haveRx := false }.nextWait state.waitKind state now)

section Hearing

variable {s : Session} (done : Bool) (now : UInt32)

theorem heard_request (hstate : s.state = .waitBeaconReq) :
    Heard s done ({ s with haveRx := false }.hearRequest now) := by
  rw [hearRequest]
  split
  · exact .goesOn .dlInProgress now (by rw [hstate]; decide) (by decide)
  split
  · exact .ends .error .error
  · exact .ignores

theorem heard_downlink (hstate : s.state = .dlInProgress) :
    Heard s done ({ s with haveRx := false }.hearDownlink now) := by
  rw [hearDownlink]
  split
  · split
    · exact .ends .error .error
    · exact .touches now
  rename_i hstatus
  have hstatus : s.lastRxStatus = 0 := not_not.1 hstatus
  split
  · rename_i htype
    split
    · rename_i hid
      exact .ends .complete (.complete hstate htype hstatus hid)
    · exact .touches now
  split
  · exact .touches now
  split
  · exact .touches now
  · exact .ignores

theorem heard_header (hstate : s.state = .ulOffered) :
    Heard s done ({ s with haveRx := false }.hearHeader now) := by
  rw [hearHeader]
  split
  · exact .goesOn .ulInProgress now (by rw [hstate]; decide) (by decide)
  split
  · exact .ends .error .error
  · exact .ignores

theorem heard_parts : Heard s done ({ s with haveRx := false }.hearParts done now) := by
  rw [hearParts]
  split
  · split
    · exact .touches now
    split
    · rename_i hdone
      exact .ends .ulComplete (.ulComplete hdone)
    · exact .ignores
  split
  · exact .ends .error .error
  · exact .ignores

/-- In a waiting state the guard lets every tick through. -/
theorem await_eq {k : WaitKind} (h : s.waitKind = k) (hear : Session → Session) :
    s.await k hear now =
      if s.haveRx then hear { s with haveRx := false } else s.retryOrFail now :=
  if_neg (not_not.2 h)

variable (hkind : s.waitKind = s.state.waitKind)
include hkind

theorem proceed_heard (hwait : s.Waiting) (hrx : s.haveRx = true) :
    Heard s done (s.proceed done now) := by
  rw [proceed]
  split
  · rename_i hstate
    rw [await_eq (k := .type3) now (hkind.trans (congrArg _ hstate)), if_pos hrx]
    exact heard_request done now hstate
  · rename_i hstate
    rw [await_eq (k := .dlDone11) now (hkind.trans (congrArg _ hstate)), if_pos hrx]
    exact heard_downlink done now hstate
  · rename_i hstate
    exact absurd (congrArg _ hstate) hwait
  · rename_i hstate
    rw [await_eq (k := .ulHeader5) now (hkind.trans (congrArg _ hstate)), if_pos hrx]
    exact heard_header done now hstate
  · rename_i hstate
    rw [await_eq (k := .ulParts) now (hkind.trans (congrArg _ hstate)), if_pos hrx]
    exact heard_parts done now
  · rename_i hstate
    exact absurd (congrArg _ hstate) hwait
  · rename_i h₁ h₂ h₃ h₄ h₅ h₆
    refine absurd ?_ hwait
    cases hstate : s.state <;> first | rfl | contradiction

/-- A tick that finds nothing in the latch looks at the time. -/
theorem proceed_silent (hwait : s.Waiting) (hrx : s.haveRx = false) :
    s.proceed done now = s.retryOrFail now := by
  have hnot : ¬s.haveRx = true := by rw [hrx]; exact Bool.false_ne_true
  rw [proceed]
  split
  · rename_i hstate
    rw [await_eq (k := .type3) now (hkind.trans (congrArg _ hstate)), if_neg hnot]
  · rename_i hstate
    rw [await_eq (k := .dlDone11) now (hkind.trans (congrArg _ hstate)), if_neg hnot]
  · rename_i hstate
    exact absurd (congrArg _ hstate) hwait
  · rename_i hstate
    rw [await_eq (k := .ulHeader5) now (hkind.trans (congrArg _ hstate)), if_neg hnot]
  · rename_i hstate
    rw [await_eq (k := .ulParts) now (hkind.trans (congrArg _ hstate)), if_neg hnot]
  · rename_i hstate
    exact absurd (congrArg _ hstate) hwait
  · refine absurd ?_ hwait
    cases hstate : s.state <;> first | rfl | contradiction

end Hearing

/-- A session that does not wait goes to rest. -/
theorem proceed_resting {s : Session} (hrest : ¬s.Waiting) (done : Bool) (now : UInt32) :
    s.proceed done now = s ∨ s.proceed done now = { s with state := .idle } := by
  rw [proceed]
  split
  · rename_i hstate
    exact absurd (fun h => WaitKind.noConfusion ((congrArg _ hstate).symm.trans h)) hrest
  · rename_i hstate
    exact absurd (fun h => WaitKind.noConfusion ((congrArg _ hstate).symm.trans h)) hrest
  · exact Or.inr rfl
  · rename_i hstate
    exact absurd (fun h => WaitKind.noConfusion ((congrArg _ hstate).symm.trans h)) hrest
  · rename_i hstate
    exact absurd (fun h => WaitKind.noConfusion ((congrArg _ hstate).symm.trans h)) hrest
  · exact Or.inr rfl
  · exact Or.inl rfl

/-- What the latch still holds was there before. -/
def Keeps (s s' : Session) : Prop :=
  s'.haveRx = true → s.haveRx = true ∧ s'.lastRxType = s.lastRxType ∧
    s'.lastRxStatus = s.lastRxStatus ∧ s'.lastRxMsgId = s.lastRxMsgId

theorem init_created (s : Session) :
    s.init true = ⟨some [], .idle, 0, 0, false, 0, .none, 0, 0, 0⟩ :=
  if_neg fun h => Bool.noConfusion h.2

/-- All that requests can do: a wait for a downlink begins, or there is none. -/
structure Served (s s' : Session) (es : List Event) : Prop where
  state : (s'.state = .waitBeaconReq ∧ s'.waitKind = .type3 ∧ s'.retryCount = 0 ∧
      s'.haveRx = false ∧ .started ∈ es) ∨
    ((s'.state = .aborted ∨ s'.state = .idle) ∧ s'.waitKind = .none)
  latch : Keeps s s'

theorem served_more {s t s' : Session} {e : Event} {es : List Event} (h : Served t s' es)
    (hlatch : Keeps s t) : Served s s' (e :: es) := by
  refine ⟨h.state.imp (fun ⟨hstate, hkind, hretry, hrx, hmem⟩ =>
    ⟨hstate, hkind, hretry, hrx, List.mem_cons_of_mem _ hmem⟩) id, fun hrx => ?_⟩
  obtain ⟨ht, h₁, h₂, h₃⟩ := h.latch hrx
  obtain ⟨hs, h₁', h₂', h₃'⟩ := hlatch ht
  exact ⟨hs, h₁.trans h₁', h₂.trans h₂', h₃.trans h₃'⟩

theorem serveAll_cases (clock : Nat → UInt32) (k : Nat) (s : Session) (q : List SessionReq) :
    (q = [] ∧ serveAll clock k s q = ({ s with reqQ := some [] }, [], k)) ∨
      Served s (serveAll clock k s q).1 (serveAll clock k s q).2.1 := by
  induction q generalizing k s with
  | nil => exact Or.inl ⟨rfl, rfl⟩
  | cons req q ih =>
    refine Or.inr ?_
    cases req with
    | startDownlink =>
      have hlatch : Keeps s (s.serve (clock k) .startDownlink).1 := fun hrx => Bool.noConfusion hrx
      rcases ih (k + 1) (s.serve (clock k) .startDownlink).1 with ⟨rfl, -⟩ | hserved
      · exact ⟨Or.inl ⟨rfl, rfl, rfl, rfl, List.mem_cons_self⟩, hlatch⟩
      · exact served_more hserved hlatch
    | abort =>
      have hlatch : Keeps s (s.serve (clock k) .abort).1 := fun hrx => ⟨hrx, rfl, rfl, rfl⟩
      rcases ih (k + 1) (s.serve (clock k) .abort).1 with ⟨rfl, -⟩ | hserved
      · exact ⟨Or.inr ⟨Or.inl rfl, rfl⟩, hlatch⟩
      · exact served_more hserved hlatch
    | reset =>
      show Served s (s.init true) [.reset]
      rw [init_created]
      exact ⟨Or.inr ⟨Or.inr rfl, rfl⟩, fun hrx => Bool.noConfusion hrx⟩

theorem drain_empty {s : Session} (hq : s.requests = []) (clock : Nat → UInt32) :
    s.drain clock = (s, [], 0) := by
  rw [requests] at hq
  rw [drain]
  split
  · rfl
  · rename_i q heq
    rw [heq] at hq
    obtain rfl : q = [] := hq
    rw [serveAll, ← heq]

/-- The requests are served, or there are none. -/
theorem drain_cases (s : Session) (clock : Nat → UInt32) :
    s.drain clock = (s, [], 0) ∨
      Served s (s.drain clock).1 (s.drain clock).2.1 := by
  rw [drain]
  split
  · exact Or.inl rfl
  · rename_i q hq
    rcases serveAll_cases clock 0 s q with ⟨hnil, heq⟩ | hserved
    · exact Or.inl (by rw [heq, ← hnil, ← hq])
    · exact Or.inr hserved

end Session

/-! ## Calls in any order -/

/-- How the rest of LTRX calls the session; `LTRX_NowMs` answers `now`. -/
inductive Call
  | request (t : SessionReq)
  | icdRx (typeID status : UInt8) (msgId now : UInt32)
  | downlinkMsgId (msgId : UInt32)
  | uplinkOffered (now : UInt32)
  | tick (done : Bool) (clock : Nat → UInt32)

/-- What is called does. -/
def Session.call (s : Session) : Call → Session
  | .request t => s.pushReq t
  | .icdRx typeID status msgId now => s.onIcdRxEx typeID status msgId now
  | .downlinkMsgId msgId => s.setDownlinkMsgId msgId
  | .uplinkOffered now => s.notifyUplinkOffered now
  | .tick done clock => (s.tick done clock).1

theorem Session.call_tick (s : Session) (done : Bool) (clock : Nat → UInt32) :
    s.call (.tick done clock) = (s.drain clock).1.proceed done (clock (s.drain clock).2.2) :=
  rfl

/-- The session next to a bookkeeper. -/
structure Watched where
  session : Session
  /-- The type, the status and the message id of the command that was received last. -/
  heard : Option (UInt8 × UInt8 × UInt32)
  /-- How many timeouts have expired since the wait began. -/
  expired : Nat

namespace Watched

/-- How many timeouts have expired after a tick, the requests of which have been served. -/
def expiredAfter (expired : Nat) (s : Session) (done : Bool) (now : UInt32) : Nat :=
  if s.Expires now then expired + 1
  else if (s.proceed done now).state = s.state then expired
  else 0

/-- What the bookkeeper makes of a call.  A wait begins when the session begins to wait for
something else, or for a downlink anew. -/
def call (w : Watched) (c : Call) : Watched where
  session := w.session.call c
  heard :=
    match c with
    | .icdRx typeID status msgId _ => some (typeID, status, msgId)
    | _ => w.heard
  expired :=
    match c with
    | .tick done clock =>
      let (s, es, k) := w.session.drain clock
      expiredAfter (if .started ∈ es then 0 else w.expired) s done (clock k)
    | .uplinkOffered now =>
      if (w.session.notifyUplinkOffered now).state = w.session.state then w.expired else 0
    | _ => w.expired

end Watched

/-- After `LTRX_SessionInit` and these calls. -/
def watched (created : Bool) (cs : List Call) : Watched :=
  cs.foldl Watched.call ⟨Session.zero.init created, none, 0⟩

theorem watched_append (created : Bool) (cs cs' : List Call) :
    watched created (cs ++ cs') = cs'.foldl Watched.call (watched created cs) :=
  List.foldl_append

/-- What the session and the bookkeeper agree on. -/
structure Sound (w : Watched) : Prop where
  kind : w.session.waitKind = w.session.state.waitKind
  heard : w.session.haveRx = true →
    w.heard = some (w.session.lastRxType, w.session.lastRxStatus, w.session.lastRxMsgId)
  count : w.session.Waiting → w.session.retryCount.toNat = w.expired
  bound : w.session.Waiting → w.expired ≤ maxRetry.toNat

section Keeping

variable {s : Session} {heard : Option (UInt8 × UInt8 × UInt32)} {e : Nat}

theorem Session.pushReq_eq (s : Session) (t : SessionReq) :
    ∃ q, s.pushReq t = { s with reqQ := q } := by
  rw [pushReq]
  split
  · exact ⟨s.reqQ, rfl⟩
  split
  · exact ⟨s.reqQ, rfl⟩
  · exact ⟨_, rfl⟩

/-- An offer is only taken where nothing is waited for. -/
theorem Session.notifyUplinkOffered_cases (s : Session) (now : UInt32) :
    s.notifyUplinkOffered now = s ∨ ¬s.Waiting ∧
      s.notifyUplinkOffered now = { s.startWait .ulHeader5 now with state := .ulOffered } := by
  rw [notifyUplinkOffered]
  split <;> first
    | exact Or.inl rfl
    | rename_i hstate
      exact Or.inr ⟨fun hwait => hwait (congrArg SessionState.waitKind hstate), rfl⟩

/-- A session that does not wait is sound if its wait kind says so. -/
theorem sound_resting (hkind : s.waitKind = .none) (hstate : s.state.waitKind = .none)
    (hheard : s.haveRx = true → heard = some (s.lastRxType, s.lastRxStatus, s.lastRxMsgId)) :
    Sound ⟨s, heard, e⟩ where
  kind := hkind.trans hstate.symm
  heard := hheard
  count hwait := absurd hstate hwait
  bound hwait := absurd hstate hwait

theorem Session.Ended.rests {done : Bool} {state : SessionState} (h : s.Ended done state) :
    state.waitKind = .none := by
  cases h <;> rfl

theorem Sound.drained (h : Sound ⟨s, heard, e⟩) (clock : Nat → UInt32) :
    Sound ⟨(s.drain clock).1, heard, if .started ∈ (s.drain clock).2.1 then 0 else e⟩ := by
  rcases s.drain_cases clock with heq | hserved
  · rw [heq, if_neg List.not_mem_nil]
    exact h
  have hheard : (s.drain clock).1.haveRx = true → heard = some ((s.drain clock).1.lastRxType,
      (s.drain clock).1.lastRxStatus, (s.drain clock).1.lastRxMsgId) := by
    intro hrx
    obtain ⟨hs, htype, hstatus, hid⟩ := hserved.latch hrx
    rw [htype, hstatus, hid]
    exact h.heard hs
  rcases hserved.state with ⟨hstate, hkind, hretry, -, hmem⟩ | ⟨hstate, hkind⟩
  · rw [if_pos hmem]
    exact ⟨hkind.trans (congrArg SessionState.waitKind hstate).symm, hheard, fun _ => congrArg UInt32.toNat hretry,
      fun _ => Nat.zero_le _⟩
  · refine sound_resting hkind ?_ hheard
    rcases hstate with hstate | hstate
    · exact congrArg _ hstate
    · exact congrArg _ hstate

/-- A tick of a waiting session that has received nothing: it goes on waiting as it did, or it has
waited long enough. -/
theorem Sound.silent (h : Sound ⟨s, heard, e⟩) (hwait : s.Waiting) (hrx : s.haveRx = false)
    (done : Bool) (now : UInt32) :
    Sound ⟨s.proceed done now, heard, Watched.expiredAfter e s done now⟩ ∧
      (s.proceed done now).reqQ = s.reqQ ∧
      (((s.proceed done now).state = s.state ∧ (s.proceed done now).haveRx = false) ∨
        (s.proceed done now).state = .error ∧
          Watched.expiredAfter e s done now = maxRetry.toNat + 1) := by
  have hnot : ∀ {P : Prop}, s.haveRx = true → P := fun ht =>
    absurd (hrx.symm.trans ht) Bool.false_ne_true
  have hcount : s.retryCount.toNat = e := h.count hwait
  rw [Watched.expiredAfter, Session.proceed_silent done now h.kind hwait hrx, Session.retryOrFail]
  split
  · rename_i hearly
    rw [if_neg fun hexp => absurd hearly (UInt32.not_lt.2 hexp.2.2), if_pos rfl]
    exact ⟨h, rfl, Or.inl ⟨rfl, hrx⟩⟩
  rename_i hlate
  have hexp : s.Expires now := ⟨hwait, hrx, UInt32.not_lt.1 hlate⟩
  rw [if_pos hexp]
  split
  · rename_i hmore
    have hlt : s.retryCount.toNat < 3 := hmore
    have hnext : (s.retryCount + 1).toNat = e + 1 := by
      rw [UInt32.toNat_add, hcount]
      exact Nat.mod_eq_of_lt (by rw [UInt32.toNat_one]; omega)
    refine ⟨⟨h.kind, hnot, fun _ => hnext, fun _ => ?_⟩, rfl, Or.inl ⟨rfl, hrx⟩⟩
    show e + 1 ≤ 3
    omega
  · rename_i hlast
    have hge : ¬s.retryCount.toNat < 3 := hlast
    have hle : e ≤ 3 := h.bound hwait
    refine ⟨sound_resting rfl rfl hnot, rfl, Or.inr ⟨rfl, ?_⟩⟩
    show e + 1 = 3 + 1
    omega

theorem Sound.proceeds (h : Sound ⟨s, heard, e⟩) (done : Bool) (now : UInt32) :
    Sound ⟨s.proceed done now, heard, Watched.expiredAfter e s done now⟩ := by
  by_cases hwait : s.Waiting
  · cases hrx : s.haveRx with
    | false => exact (h.silent hwait hrx done now).1
    | true =>
      have hnot : ¬s.Expires now := fun hexp => absurd (hrx.symm.trans hexp.2.1) (by decide)
      rw [Watched.expiredAfter, if_neg hnot]
      have hheard := Session.proceed_heard done now h.kind hwait hrx
      generalize s.proceed done now = s' at hheard ⊢
      cases hheard with
      | ignores =>
        rw [if_pos rfl]
        exact ⟨h.kind, fun ht => Bool.noConfusion ht, h.count, h.bound⟩
      | touches =>
        rw [if_pos rfl]
        exact ⟨h.kind, fun ht => Bool.noConfusion ht, h.count, h.bound⟩
      | ends state hended => exact sound_resting rfl hended.rests fun ht => Bool.noConfusion ht
      | goesOn state now hne _ =>
        rw [if_neg fun heq => hne heq.symm]
        exact ⟨rfl, fun ht => Bool.noConfusion ht, fun _ => rfl, fun _ => Nat.zero_le _⟩
  · have hkind : s.state.waitKind = .none := not_not.1 hwait
    rcases Session.proceed_resting hwait done now with heq | heq
    · rw [heq]
      exact sound_resting (h.kind.trans hkind) hkind h.heard
    · rw [heq]
      exact sound_resting (h.kind.trans hkind) rfl h.heard

/-- **What every call keeps.** -/
theorem Sound.call {w : Watched} (h : Sound w) (c : Call) : Sound (w.call c) := by
  cases c with
  | request t =>
    obtain ⟨q, heq⟩ := w.session.pushReq_eq t
    show Sound ⟨w.session.pushReq t, w.heard, w.expired⟩
    rw [heq]
    exact ⟨h.kind, h.heard, h.count, h.bound⟩
  | icdRx typeID status msgId now =>
    show Sound ⟨w.session.onIcdRxEx typeID status msgId now, _, w.expired⟩
    rw [Session.onIcdRxEx]
    split
    · exact ⟨h.kind, fun _ => rfl, h.count, h.bound⟩
    · exact ⟨h.kind, fun _ => rfl, h.count, h.bound⟩
  | downlinkMsgId msgId => exact ⟨h.kind, h.heard, h.count, h.bound⟩
  | uplinkOffered now =>
    show Sound ⟨w.session.notifyUplinkOffered now, w.heard,
      if (w.session.notifyUplinkOffered now).state = w.session.state then w.expired else 0⟩
    rcases w.session.notifyUplinkOffered_cases now with heq | ⟨hrest, heq⟩
    · rw [heq, if_pos rfl]
      exact h
    · have hnew : SessionState.ulOffered ≠ w.session.state := fun hstate =>
        hrest (by rw [Session.Waiting, ← hstate]; exact WaitKind.noConfusion)
      rw [heq, if_neg hnew]
      exact ⟨rfl, fun ht => Bool.noConfusion ht, fun _ => rfl, fun _ => Nat.zero_le _⟩
  | tick done clock => exact (h.drained clock).proceeds done _

end Keeping

theorem Sound.calls {w : Watched} (h : Sound w) (cs : List Call) :
    Sound (cs.foldl Watched.call w) := by
  induction cs generalizing w with
  | nil => exact h
  | cons c cs ih => exact ih (h.call c)

/-- **In every run** the wait kind matches the state, and the retries are the timeouts. -/
theorem sound (created : Bool) (cs : List Call) : Sound (watched created cs) := by
  refine Sound.calls ?_ cs
  cases created with
  | true => exact sound_resting rfl rfl fun ht => Bool.noConfusion ht
  | false => exact sound_resting rfl rfl fun ht => Bool.noConfusion ht

/-! ## How a wait ends -/

/-- The downlink has been confirmed: the command received last is of type 11 and says success, and
its message id is the one of the downlink, or one of the two is 0. -/
def Watched.Confirmed (w : Watched) : Prop :=
  ∃ msgId, w.heard = some (11, 0, msgId) ∧
    (msgId = w.session.downlinkMsgId ∨ msgId = 0 ∨ w.session.downlinkMsgId = 0)

/-- What a call must be like to bring a transfer to its end. -/
def Watched.Ends (w : Watched) (c : Call) : SessionState → Prop
  | .complete => (∃ done clock, c = .tick done clock) ∧ w.Confirmed
  | .ulComplete => ∃ clock, c = .tick true clock
  | _ => True

section Ending

variable {s : Session} {heard : Option (UInt8 × UInt8 × UInt32)} {e : Nat}

/-- A tick stays in the state, or it ends the wait, or it enters a state of no interest here. -/
theorem Sound.proceed_state (h : Sound ⟨s, heard, e⟩) (done : Bool) (now : UInt32) :
    (s.proceed done now).state = s.state ∨
      (s.haveRx = true ∧ s.Ended done (s.proceed done now).state) ∨
      ((s.proceed done now).state ≠ .complete ∧ (s.proceed done now).state ≠ .ulComplete) := by
  by_cases hwait : s.Waiting
  · cases hrx : s.haveRx with
    | false =>
      rcases (h.silent hwait hrx done now).2.2 with ⟨hsame, -⟩ | ⟨herror, -⟩
      · exact Or.inl hsame
      · rw [herror]
        exact Or.inr (Or.inr ⟨by decide, by decide⟩)
    | true =>
      have hheard := Session.proceed_heard done now h.kind hwait hrx
      generalize s.proceed done now = s' at hheard
      cases hheard with
      | ignores => exact Or.inl rfl
      | touches => exact Or.inl rfl
      | ends state hended => exact Or.inr (Or.inl ⟨rfl, hended⟩)
      | goesOn state now _ hwaits =>
        exact Or.inr (Or.inr ⟨fun heq => hwaits (congrArg SessionState.waitKind heq),
          fun heq => hwaits (congrArg SessionState.waitKind heq)⟩)
  · rcases Session.proceed_resting hwait done now with heq | heq
    · exact Or.inl (by rw [heq])
    · rw [heq]
      exact Or.inr (Or.inr ⟨SessionState.noConfusion, SessionState.noConfusion⟩)

theorem Watched.ends_of_ne {w : Watched} {c : Call} {state : SessionState}
    (hc : state ≠ .complete) (hu : state ≠ .ulComplete) : w.Ends c state := by
  cases state <;> trivial

/-- What completes the downlink is what was received last. -/
theorem Sound.confirmed {w : Watched} (h : Sound w) (hrx : w.session.haveRx = true)
    (htype : w.session.lastRxType = 11) (hstatus : w.session.lastRxStatus = 0)
    (hid : w.session.downlinkDoneMsgMatches = true) : w.Confirmed := by
  refine ⟨w.session.lastRxMsgId, ?_, ?_⟩
  · rw [h.heard hrx, htype, hstatus]
  · rw [Session.downlinkDoneMsgMatches] at hid
    split at hid
    · rename_i hzero
      exact Or.inr hzero.symm
    · exact Or.inl (of_decide_eq_true hid)

/-- **A transfer has ended for its reason only.** -/
theorem Sound.ends {w : Watched} (h : Sound w) (c : Call)
    (hnew : (w.call c).session.state ≠ w.session.state) :
    w.Ends c (w.call c).session.state := by
  cases c with
  | request t =>
    obtain ⟨q, heq⟩ := w.session.pushReq_eq t
    exact absurd (congrArg Session.state heq) hnew
  | icdRx typeID status msgId now =>
    refine absurd ?_ hnew
    show (w.session.onIcdRxEx typeID status msgId now).state = _
    rw [Session.onIcdRxEx]
    split
    · rfl
    · rfl
  | downlinkMsgId msgId => exact absurd rfl hnew
  | uplinkOffered now =>
    rcases w.session.notifyUplinkOffered_cases now with heq | ⟨-, heq⟩
    · exact absurd (congrArg Session.state heq) hnew
    · show w.Ends _ (w.session.notifyUplinkOffered now).state
      rw [heq]
      trivial
  | tick done clock =>
    have hdrained := h.drained clock
    show w.Ends _ (w.session.call (.tick done clock)).state
    rw [Session.call_tick]
    rcases hdrained.proceed_state done (clock (w.session.drain clock).2.2) with
      hsame | ⟨hrx, hended⟩ | ⟨hc, hu⟩
    · rcases w.session.drain_cases clock with heq | hserved
      · refine absurd ?_ hnew
        show (w.session.call (.tick done clock)).state = _
        rw [Session.call_tick, hsame, heq]
      · rw [hsame]
        rcases hserved.state with ⟨hstate, -⟩ | ⟨hstate | hstate, -⟩
        · rw [hstate]
          trivial
        · rw [hstate]
          trivial
        · rw [hstate]
          trivial
    · generalize ((w.session.drain clock).1.proceed done _).state = state at hended
      cases hended with
      | error => trivial
      | complete hstate htype hstatus hid =>
        refine ⟨⟨done, clock, rfl⟩, ?_⟩
        rcases w.session.drain_cases clock with heq | hserved
        · rw [heq] at hrx htype hstatus hid
          exact h.confirmed hrx htype hstatus hid
        · rcases hserved.state with ⟨hother, -⟩ | ⟨hother | hother, -⟩
          · exact SessionState.noConfusion (hstate.symm.trans hother)
          · exact SessionState.noConfusion (hstate.symm.trans hother)
          · exact SessionState.noConfusion (hstate.symm.trans hother)
      | ulComplete hdone => exact ⟨clock, by rw [hdone]⟩
    · exact Watched.ends_of_ne hc hu

end Ending

/-! ## Silence -/

/-- Nothing but ticks. -/
def ticks (ts : List (Bool × (Nat → UInt32))) : List Call := ts.map fun t => .tick t.1 t.2

/-- The session waits, and there is nothing for it to do. -/
structure Watched.Quiet (w : Watched) : Prop where
  waits : w.session.Waiting
  requests : w.session.requests = []
  latch : w.session.haveRx = false

/-- It has given up, with this many timeouts. -/
structure Watched.GaveUp (w : Watched) : Prop where
  state : w.session.state = .error
  requests : w.session.requests = []
  expired : w.expired = maxRetry.toNat + 1

section Silence

variable {w : Watched}

theorem Watched.call_tick (hq : w.session.requests = []) (done : Bool) (clock : Nat → UInt32) :
    w.call (.tick done clock) =
      ⟨w.session.proceed done (clock 0), w.heard,
        Watched.expiredAfter w.expired w.session done (clock 0)⟩ := by
  have hdrain := Session.drain_empty hq clock
  show Watched.mk ((w.session.drain clock).1.proceed done (clock (w.session.drain clock).2.2))
    w.heard (Watched.expiredAfter (if .started ∈ (w.session.drain clock).2.1 then 0 else w.expired)
      (w.session.drain clock).1 done (clock (w.session.drain clock).2.2)) = _
  rw [hdrain, if_neg List.not_mem_nil]

theorem Watched.GaveUp.tick (h : w.GaveUp) (done : Bool) (clock : Nat → UInt32) :
    (w.call (.tick done clock)).GaveUp := by
  have hstays : w.session.proceed done (clock 0) = w.session := by
    rw [Session.proceed, h.state]
  have hnot : ¬w.session.Expires (clock 0) := fun hexp =>
    hexp.1 (congrArg SessionState.waitKind h.state)
  rw [call_tick h.requests, expiredAfter, if_neg hnot, hstays, if_pos rfl]
  exact h

theorem Sound.tick_quiet (h : Sound w) (hquiet : w.Quiet) (done : Bool) (clock : Nat → UInt32) :
    ((w.call (.tick done clock)).Quiet ∧
      (w.call (.tick done clock)).session.state = w.session.state) ∨
        (w.call (.tick done clock)).GaveUp := by
  obtain ⟨-, hq, hor⟩ :=
    Sound.silent (s := w.session) (e := w.expired) h hquiet.waits hquiet.latch done (clock 0)
  have hrequests : (w.session.proceed done (clock 0)).requests = [] := by
    rw [Session.requests, hq]
    exact hquiet.requests
  rw [Watched.call_tick hquiet.requests]
  rcases hor with ⟨hstate, hrx⟩ | ⟨hstate, hcount⟩
  · refine Or.inl ⟨⟨?_, hrequests, hrx⟩, hstate⟩
    show (w.session.proceed done (clock 0)).Waiting
    rw [Session.Waiting, hstate]
    exact hquiet.waits
  · exact Or.inr ⟨hstate, hrequests, hcount⟩

/-- **If nothing more is received the session waits on, or it has given up.** -/
theorem Sound.ticks (h : Sound w) (hquiet : w.Quiet) (ts : List (Bool × (Nat → UInt32))) :
    (((Ltrx.ticks ts).foldl Watched.call w).Quiet ∧
      ((Ltrx.ticks ts).foldl Watched.call w).session.state = w.session.state) ∨
        ((Ltrx.ticks ts).foldl Watched.call w).GaveUp := by
  induction ts using List.reverseRecOn with
  | nil => exact Or.inl ⟨hquiet, rfl⟩
  | append_singleton ts t ih =>
    have hsound := h.calls (Ltrx.ticks ts)
    rw [Ltrx.ticks, List.map_append, List.foldl_append]
    rcases ih with ⟨hquiet', hstate⟩ | hgave
    · rcases hsound.tick_quiet hquiet' t.1 t.2 with ⟨hagain, hsame⟩ | hgave
      · exact Or.inl ⟨hagain, hsame.trans hstate⟩
      · exact Or.inr hgave
    · exact Or.inr (hgave.tick t.1 t.2)

end Silence

/-! ## The session of LTRX -/

theorem watched_session (created : Bool) (cs : List Call) :
    (watched created cs).session = cs.foldl Session.call (Session.zero.init created) := by
  suffices hall : ∀ w : Watched, (cs.foldl Watched.call w).session = cs.foldl Session.call w.session
    from hall _
  induction cs with
  | nil => exact fun _ => rfl
  | cons c cs ih => exact fun w => ih (w.call c)

/-- What the handlers tell the session are calls, and no ticks. -/
theorem Session.hearAll_calls (clock : Nat → UInt32) (k : Nat) (s : Session) (es : List Event) :
    ∃ cs : List Call, s.hearAll clock k es = cs.foldl Session.call s ∧ ∀ d clock, .tick d clock ∉ cs := by
  induction es generalizing k s with
  | nil => exact ⟨[], rfl, fun _ _ => List.not_mem_nil⟩
  | cons e es ih =>
    obtain ⟨cs, heq, hnone⟩ := ih (k + 1) (s.hear (clock k) e)
    have hcons : ∀ c, s.call c = s.hear (clock k) e → (∀ d clock, c ≠ .tick d clock) →
        ∃ cs : List Call, s.hearAll clock k (e :: es) = cs.foldl Session.call s ∧
          ∀ d clock, .tick d clock ∉ cs := by
      intro c hc hne
      refine ⟨c :: cs, ?_, fun d clock' => ?_⟩
      · rw [List.foldl_cons, hc]
        exact heq
      · exact List.not_mem_cons_of_ne_of_not_mem (fun heq => hne d clock' heq.symm)
          (hnone d clock')
    cases e with
    | icdRx typeID status msgId =>
      exact hcons (.icdRx typeID status msgId (clock k)) rfl fun _ _ => Call.noConfusion
    | uplinkOffered => exact hcons (.uplinkOffered (clock k)) rfl fun _ _ => Call.noConfusion
    | downlinkMsgId msgId => exact hcons (.downlinkMsgId msgId) rfl fun _ _ => Call.noConfusion
    | _ => exact ⟨cs, heq, hnone⟩

/-- What a step of LTRX does to its session are calls, and a tick is told whether the uplink is
complete. -/
def Attends (n n' : Node) : Prop :=
  ∃ cs : List Call, n'.session = cs.foldl Session.call n.session ∧
    ∀ d clock, .tick d clock ∈ cs → d = n.storage.up.complete ∧ n'.storage.up = n.storage.up

theorem attends_same {n n' : Node} (h : n'.session = n.session) : Attends n n' :=
  ⟨[], h, fun _ _ hmem => absurd hmem List.not_mem_nil⟩

theorem attends_push (n : Node) (t : SessionReq) : Attends n (n.push t) :=
  ⟨[.request t], rfl, fun _ _ hmem => Call.noConfusion (List.mem_singleton.1 hmem)⟩

theorem Node.step_attends (n : Node) (i : Input)
    (h : n.phase = .starting → ∀ c, i ≠ .child c) : Attends n (n.step i).1 := by
  cases i with
  | child i =>
    rw [step, childStep]
    split
    · rename_i hphase
      exact absurd rfl (h hphase i)
    · show Attends n { (n.bcnProcessOneRx i).1 with phase := .ticking }
      rw [bcnProcessOneRx]
      split
      · exact attends_same rfl
      dsimp only
      split
      · exact attends_same rfl
      · obtain ⟨cs, heq, hnone⟩ := Session.hearAll_calls i.clock 0 n.session _
        exact ⟨cs, heq, fun d clock hmem => absurd hmem (hnone d clock)⟩
    · refine ⟨[.tick n.storage.up.complete i.clock], rfl, fun d clock hmem => ⟨?_, rfl⟩⟩
      exact (Call.tick.inj (List.mem_singleton.1 hmem)).1
    · exact attends_same rfl
  | busBeacon msg sized seconds => exact attends_same rfl
  | sessionStartDownlink =>
    show Attends n n.sessionStartDownlinkCmd
    rw [sessionStartDownlinkCmd]
    split
    · exact attends_same rfl
    split
    · exact attends_same rfl
    · exact attends_push n .startDownlink
  | sessionAbort => exact attends_push n .abort
  | sessionResetState => exact attends_push n .reset
  | downstream enabled => exact attends_same rfl
  | setBusBeaconPeriod period =>
    show Attends n (n.setBusBeaconPeriodCmd period)
    rw [setBusBeaconPeriodCmd]
    split
    · exact attends_same rfl
    · exact attends_same rfl

/-- The session has been set up and called, or it has not been set up yet. -/
def Attended (n : Node) : Prop :=
  if n.phase = .starting then n.session = Session.zero
  else ∃ created cs, n.session = (watched created cs).session

theorem Attends.attended {n n' : Node} (h : Attends n n') {created : Bool} {cs : List Call}
    (hs : n.session = (watched created cs).session) :
    ∃ cs', n'.session = (watched created (cs ++ cs')).session ∧
      ∀ d clock, .tick d clock ∈ cs' → d = n.storage.up.complete ∧
        n'.storage.up = n.storage.up := by
  obtain ⟨cs', heq, htold⟩ := h
  refine ⟨cs', ?_, htold⟩
  rw [heq, hs, watched_session, watched_session, List.foldl_append]

theorem attended_starting {n : Node} (hphase : n.phase = .starting)
    (hs : n.session = Session.zero) : Attended n ∧ n.session.state ≠ .ulComplete := by
  rw [Attended, if_pos hphase, hs]
  exact ⟨rfl, SessionState.noConfusion⟩

/-- Before the session has been set up requests are refused. -/
theorem Node.step_starting {n : Node} (hphase : n.phase = .starting)
    (hs : n.session = Session.zero) (i : Input) :
    Attended (n.step i).1 ∧ (n.step i).1.session.state ≠ .ulComplete := by
  have hpush : ∀ t, Attended (n.push t) ∧ (n.push t).session.state ≠ .ulComplete := fun t =>
    attended_starting hphase (by rw [push, hs]; rfl)
  cases i with
  | child i =>
    rw [step, childStep, hphase]
    show Attended ⟨.receiving, n.storage, n.session.init i.created, n.rxBuf⟩ ∧
      (n.session.init i.created).state ≠ .ulComplete
    rw [hs]
    refine ⟨⟨i.created, [], rfl⟩, ?_⟩
    cases i.created with
    | true => exact SessionState.noConfusion
    | false => exact SessionState.noConfusion
  | busBeacon msg sized seconds => exact attended_starting hphase hs
  | sessionStartDownlink =>
    show Attended n.sessionStartDownlinkCmd ∧ n.sessionStartDownlinkCmd.session.state ≠ _
    rw [sessionStartDownlinkCmd]
    split
    · exact attended_starting hphase hs
    split
    · exact attended_starting hphase hs
    · exact hpush .startDownlink
  | sessionAbort => exact hpush .abort
  | sessionResetState => exact hpush .reset
  | downstream enabled => exact attended_starting hphase hs
  | setBusBeaconPeriod period =>
    show Attended (n.setBusBeaconPeriodCmd period) ∧
      (n.setBusBeaconPeriodCmd period).session.state ≠ _
    rw [setBusBeaconPeriodCmd]
    split
    · exact attended_starting hphase hs
    · exact attended_starting hphase hs

theorem Node.step_phase {n : Node} (h : n.phase ≠ .starting) (i : Input) :
    (n.step i).1.phase ≠ .starting := by
  cases i with
  | child i =>
    rw [step, childStep]
    split
    · rename_i hphase
      exact absurd hphase h
    · exact Phase.noConfusion
    · exact Phase.noConfusion
    · exact Phase.noConfusion
  | busBeacon msg sized seconds => exact h
  | sessionStartDownlink =>
    show n.sessionStartDownlinkCmd.phase ≠ _
    rw [sessionStartDownlinkCmd]
    split
    · exact h
    split
    · exact h
    · exact h
  | sessionAbort => exact h
  | sessionResetState => exact h
  | downstream enabled => exact h
  | setBusBeaconPeriod period =>
    show (n.setBusBeaconPeriodCmd period).phase ≠ _
    rw [setBusBeaconPeriodCmd]
    split
    · exact h
    · exact h

theorem attended (is : List Input) : Attended (after is) := by
  refine Node.machine.invariant (P := Attended) (fun n i h => ?_) (attended_starting rfl rfl).1 is
  by_cases hphase : n.phase = .starting
  · rw [Attended, if_pos hphase] at h
    exact (Node.step_starting hphase h i).1
  · rw [Attended, if_neg hphase] at h
    obtain ⟨created, cs, hs⟩ := h
    obtain ⟨cs', heq, -⟩ :=
      (n.step_attends i fun hstart => absurd hstart hphase).attended hs
    show Attended (n.step i).1
    rw [Attended, if_neg (Node.step_phase hphase i)]
    exact ⟨created, cs ++ cs', heq⟩

/-- A message has been received as a whole, and its CRC is right. -/
def Held (n : Node) (es : List Event) : Prop :=
  n.storage.up.complete = true ∧ calculateCRC32 n.storage.up.message = n.storage.up.msgCrc ∧
    (Ledger.of es).header = some n.storage.up.header ∧
    ∀ i, i < n.storage.up.msgLen.toNat → (Ledger.of es).byte i = n.storage.up.message[i]?

theorem held {is : List Input} (hc : (after is).storage.up.complete = true) :
    Held (after is) (events is) := by
  have hr := (uplinked is).1.receiving
  refine ⟨hc, (hr.whole hc).2.2, hr.header (Or.inr hc), fun i hi => ?_⟩
  rw [hr.byte hc hi, UplinkRx.getElem?_message hr.length hi]

theorem Sound.told {w : Watched} (h : Sound w) {cs : List Call}
    (hold : w.session.state ≠ .ulComplete)
    (hnew : (cs.foldl Watched.call w).session.state = .ulComplete) :
    ∃ clock, .tick true clock ∈ cs := by
  induction cs generalizing w with
  | nil => exact absurd hnew hold
  | cons c cs ih =>
    by_cases hc : (w.call c).session.state = .ulComplete
    · have hends := h.ends c (by rw [hc]; exact hold.symm)
      rw [hc] at hends
      obtain ⟨clock, rfl⟩ := hends
      exact ⟨clock, List.mem_cons_self⟩
    · obtain ⟨clock, hmem⟩ := ih (h.call c) hc hnew
      exact ⟨clock, List.mem_cons_of_mem _ hmem⟩

/-- An uplink has ended when a whole message is held. -/
theorem uplink_ends {is : List Input} {i : Input} (hold : (after is).session.state ≠ .ulComplete)
    (hnew : (after (is ++ [i])).session.state = .ulComplete) :
    Held (after (is ++ [i])) (events (is ++ [i])) := by
  have hstep : after (is ++ [i]) = ((after is).step i).1 := Node.machine.run_append _ is [i]
  have hattended := attended is
  refine held ?_
  rw [hstep] at hnew ⊢
  rw [Attended] at hattended
  split at hattended
  · rename_i hphase
    exact absurd hnew (Node.step_starting hphase hattended i).2
  · rename_i hphase
    obtain ⟨created, cs, hs⟩ := hattended
    obtain ⟨cs', heq, htold⟩ :=
      ((after is).step_attends i fun hstart => absurd hstart hphase).attended hs
    rw [heq, watched_append] at hnew
    rw [hs] at hold
    obtain ⟨clock, hmem⟩ := (sound created cs).told hold hnew
    obtain ⟨hdone, hup⟩ := htold _ _ hmem
    rw [hup]
    exact hdone.symm

/-- The session of LTRX is one that is called. -/
theorem after_session (is : List Input) :
    (after is).session = Session.zero ∨ ∃ created cs, (after is).session =
      (watched created cs).session := by
  have hattended := attended is
  rw [Attended] at hattended
  split at hattended
  · exact Or.inl hattended
  · exact Or.inr hattended

/-- The wait kind is the one of the state, and so no guard holds up a tick. -/
def Matched (s : Session) : Prop := s.waitKind = s.state.waitKind

/-- While nothing is received the session goes on waiting, and it gives up after exactly
`MaxRetry + 1` timeouts. -/
def Watched.Patient (w : Watched) : Prop :=
  w.Quiet → ∀ ts, let w' := (ticks ts).foldl call w
    (w'.session.state = w.session.state ∧ w'.expired ≤ maxRetry.toNat) ∨
      (w'.session.state = .error ∧ w'.expired = maxRetry.toNat + 1)

/-- A state in which a transfer has ended is entered for its reason. -/
def Watched.Reasoned (w : Watched) : Prop :=
  ∀ c, (w.call c).session.state = w.session.state ∨ w.Ends c (w.call c).session.state

theorem Sound.patient {w : Watched} (h : Sound w) : w.Patient := by
  intro hquiet ts
  rcases h.ticks hquiet ts with ⟨hstill, hstate⟩ | hgave
  · exact Or.inl ⟨hstate, (h.calls _).bound hstill.waits⟩
  · exact Or.inr ⟨hgave.state, hgave.expired⟩

theorem Sound.reasoned {w : Watched} (h : Sound w) : w.Reasoned := fun c =>
  or_iff_not_imp_left.2 (h.ends c)

end Ltrx
end FlightApps
