import FlightApps.Oem.Deadline
import FlightApps.Oem.Integrity
import FlightApps.Oem.Registry
import FlightApps.Oem.ReadBuffer

/-!
# The messages that the log handlers keep

A handler keeps the last message it has accepted, header and body, in a buffer that was allocated
when it was registered.  `oem_log_get_recent_message` copies it out piece by piece.  How long the
message is it takes from the handler, or for a handler of variable length from the header in the
buffer; neither says that the buffer is that long.  The state machine of the task does, since it
passes on no message that does not fit its own buffer.

`Store` is the table of `Oem/Log.lean` with the buffers of the handlers, each of them the block
that the pointer of its slot leads to, and with a book of what was accepted last.
-/

set_option autoImplicit false

namespace FlightApps
namespace Log

/-! ## What a handler has of its buffer -/

/-- The buffer of a handler and what is known of it are the same. -/
structure SameBuffer (h h' : Handler) : Prop where
  pointer : h'.recentMessage = h.recentMessage
  length : h'.messageLength = h.messageLength
  recent : h'.hasRecentMessage = h.hasRecentMessage

theorem SameBuffer.refl (h : Handler) : SameBuffer h h := ⟨rfl, rfl, rfl⟩

theorem SameBuffer.trans {h h' h'' : Handler} (hs : SameBuffer h h') (hs' : SameBuffer h' h'') :
    SameBuffer h h'' :=
  ⟨hs'.pointer.trans hs.pointer, hs'.length.trans hs.length, hs'.recent.trans hs.recent⟩

/-- The same for all handlers. -/
def State.SameBuffers (s s' : State) : Prop := ∀ k, SameBuffer (s.handlers k) (s'.handlers k)

section SameBuffers

variable {s s' s'' : State} {k : Slot}

theorem State.SameBuffers.refl (s : State) : s.SameBuffers s := fun _ => .refl _

theorem State.SameBuffers.trans (h : s.SameBuffers s') (h' : s'.SameBuffers s'') :
    s.SameBuffers s'' := fun k => (h k).trans (h' k)

theorem sameBuffers_update {x : Handler} (hs' : s'.handlers = Function.update s.handlers k x)
    (hx : SameBuffer (s.handlers k) x) : s.SameBuffers s' := by
  intro j
  rw [hs']
  by_cases hj : j = k
  · rw [hj, Function.update_self]
    exact hx
  · rw [Function.update_of_ne hj]
    exact .refl _

theorem sameBuffers_setHandler {x : Handler} (hx : SameBuffer (s.handlers k) x) :
    s.SameBuffers (s.setHandler k x) := sameBuffers_update rfl hx

theorem setHandlerStatus_sameBuffers (id : UInt16) (status : UInt8) (opt : StatOpt) :
    s.SameBuffers (s.setHandlerStatus id status opt).1 := by
  rw [State.setHandlerStatus]
  split
  · exact .refl s
  split
  · exact .refl s
  split
  · exact sameBuffers_setHandler ⟨rfl, rfl, rfl⟩
  · exact .refl s

theorem changeAll_sameBuffers (source target : Status) :
    s.SameBuffers (s.changeAll source target).1 := by
  intro k
  rw [State.changeAll]
  dsimp only
  split
  · exact ⟨rfl, rfl, rfl⟩
  · exact .refl _

theorem change_sameBuffers (id : UInt16) {f : Handler → Handler} (hf : ∀ h, SameBuffer h (f h)) :
    s.SameBuffers (s.change id f).1 := by
  rw [State.change]
  split
  · exact .refl s
  · exact sameBuffers_setHandler (hf _)

theorem addCallback_sameBuffers (id : UInt16) (callback : Option Callback) (node : Bool) :
    s.SameBuffers (s.addCallback id callback node).1 := by
  unfold State.addCallback
  repeat' split
  all_goals first
    | exact .refl s
    | exact sameBuffers_setHandler ⟨rfl, rfl, rfl⟩

theorem clearCallbacks_sameBuffers (id : UInt16) (list : Option Nat) :
    s.SameBuffers (s.clearCallbacks id list).1 := by
  rw [State.clearCallbacks]
  split
  · exact .refl s
  · rename_i k _
    dsimp only
    have hupdate : ∀ x p q, (((s.free p).1.alloc q).1.setHandler k x).handlers =
        Function.update s.handlers k x := fun x p q => by
      rw [setHandler_handlers, alloc_handlers, free_handlers]
    exact sameBuffers_update (hupdate _ _ _) ⟨rfl, rfl, rfl⟩

theorem callNext_sameBuffers (e : Exec) : s.SameBuffers (s.callNext e).1 := by
  rw [State.callNext]
  split
  · exact fun _ => .refl _
  · exact sameBuffers_setHandler ⟨rfl, rfl, rfl⟩

theorem moved_sameBuffers (k : Slot) (f : CallbackList → CallbackList) :
    s.SameBuffers (s.setHandler k ((s.handlers k).moved f)) :=
  sameBuffers_setHandler ⟨rfl, rfl, rfl⟩

theorem executeCallbacks_sameBuffers (k : Slot) : s.SameBuffers (s.executeCallbacks k).1 := by
  rw [State.executeCallbacks]
  split
  · exact .refl s
  split
  · exact .refl s
  · exact (moved_sameBuffers _ _).trans (callNext_sameBuffers _)

theorem callbackReturns_sameBuffers (r : Ret) : s.SameBuffers (s.callbackReturns r).1 := by
  rw [State.callbackReturns]
  split
  · exact .refl s
  split
  · exact sameBuffers_setHandler ⟨rfl, rfl, rfl⟩
  dsimp only
  split
  · exact (moved_sameBuffers _ _).trans (callNext_sameBuffers _)
  · exact moved_sameBuffers _ _

end SameBuffers

/-! ## Calls -/

/-- The slot in which a call registers a handler, and the message length it registers. -/
def State.registersAt (s : State) : Call → Option (Slot × UInt16)
  | .register id mlen list message =>
    if .returned .ok ∈ (s.register id mlen list message).2 then
      s.getEmptyHandlerSlot.map fun k => (k, mlen)
    else none
  | _ => none

/-- What a call does to the buffer of a handler. -/
inductive After (s : State) (k : Slot) (r : Option (Slot × UInt16)) (h' : Handler) : Prop
  | same (hs : SameBuffer (s.handlers k) h') (hr : ∀ mlen, r ≠ some (k, mlen))
  | registered (hempty : (s.handlers k).status = .empty) (hr : r = some (k, h'.messageLength))
  | emptied (hstatus : h'.status = .empty) (hbuffer : h'.recentMessage = none)
      (hr : ∀ mlen, r ≠ some (k, mlen))

theorem State.SameBuffers.after {s s' : State} (h : s.SameBuffers s') (k : Slot) :
    After s k none (s'.handlers k) := .same (h k) fun _ hr => by cases hr

theorem unregister_after (s : State) (id : UInt16) (k : Slot) :
    After s k none ((s.unregister id).1.handlers k) := by
  rw [State.unregister]
  split
  · exact (State.SameBuffers.refl s).after k
  · rename_i j _
    have hpurged : (s.purgeHandler j).1.handlers = Function.update s.handlers j .zero := by
      rw [State.purgeHandler, setHandler_handlers, free_handlers, free_handlers]
    dsimp only
    rw [hpurged]
    by_cases hk : k = j
    · rw [hk, Function.update_self]
      exact .emptied rfl rfl fun _ hr => by cases hr
    · rw [Function.update_of_ne hk]
      exact (State.SameBuffers.refl s).after k

/-- A registration fails, or sets up the first empty slot. -/
theorem register_cases (s : State) (id mlen : UInt16) (list message : Option Nat) :
    (.returned .ok ∉ (s.register id mlen list message).2 ∧
        ∀ k, After s k none ((s.register id mlen list message).1.handlers k)) ∨
      ∃ j x, s.getEmptyHandlerSlot = some j ∧
        .returned .ok ∈ (s.register id mlen list message).2 ∧ x.messageLength = mlen ∧
          (s.register id mlen list message).1.handlers = Function.update s.handlers j x := by
  unfold State.register
  split
  · exact .inl ⟨by simp, (State.SameBuffers.refl s).after⟩
  rcases hslot : s.getEmptyHandlerSlot with _ | j
  · exact .inl ⟨by simp, (State.SameBuffers.refl s).after⟩
  have hempty := getEmptyHandlerSlot_some hslot
  have hlist := alloc_handlers (s := s) list
  dsimp only
  rcases hl : s.alloc list with ⟨s₁, _ | a⟩
  · rw [hl] at hlist
    dsimp only at hlist ⊢
    rw [setHandler_handlers, hlist]
    have hsame : s.SameBuffers (s.setHandler j { s.handlers j with callbacks := none }) :=
      sameBuffers_setHandler ⟨rfl, rfl, rfl⟩
    exact .inl ⟨by simp, hsame.after⟩
  have hmessage := alloc_handlers (s := s₁) message
  rw [hl] at hlist
  dsimp only at hlist ⊢
  rcases hm : s₁.alloc message with ⟨s₂, _ | b⟩
  · rw [hm] at hmessage
    dsimp only at hmessage ⊢
    rw [setHandler_handlers, free_handlers, hmessage, hlist]
    refine .inl ⟨by simp [State.free], fun k => ?_⟩
    by_cases hk : k = j
    · rw [hk, Function.update_self]
      exact .emptied hempty rfl fun _ hr => by cases hr
    · rw [Function.update_of_ne hk]
      exact (State.SameBuffers.refl s).after k
  · rw [hm] at hmessage
    dsimp only at hmessage ⊢
    rw [setHandler_handlers, hmessage, hlist]
    exact .inr ⟨j, _, rfl, List.mem_singleton.2 rfl, rfl, rfl⟩

/-- What a registration does, slot by slot. -/
theorem register_after (s : State) (id mlen : UInt16) (list message : Option Nat) (k : Slot) :
    After s k (s.registersAt (.register id mlen list message))
      ((s.register id mlen list message).1.handlers k) := by
  rw [State.registersAt]
  rcases register_cases s id mlen list message with ⟨hno, hafter⟩ | ⟨j, x, hslot, hok, hx, hs'⟩
  · rw [if_neg hno]
    exact hafter k
  · rw [if_pos hok, hslot, hs', Option.map_some]
    by_cases hk : k = j
    · rw [hk, Function.update_self]
      exact .registered (getEmptyHandlerSlot_some hslot) (by rw [hx])
    · rw [Function.update_of_ne hk]
      refine .same (.refl _) fun n hr => hk ?_
      cases hr
      rfl

theorem call_after (s : State) (c : Call) (k : Slot) :
    After s k (s.registersAt c) ((s.call c).1.handlers k) := by
  rcases c with ⟨id, mlen, list, message⟩ | id | id | id | id | id | _ | _ | id | ⟨id, status, b⟩ |
    ⟨id, callback, node⟩ | ⟨id, list⟩ | id | id | id
  · exact register_after s id mlen list message k
  · exact unregister_after s id k
  · exact (setHandlerStatus_sameBuffers id 1 .normal).after k
  · exact (setHandlerStatus_sameBuffers id 2 .normal).after k
  · exact (setHandlerStatus_sameBuffers id 3 .normal).after k
  · exact (setHandlerStatus_sameBuffers id 2 .wakeup).after k
  · exact (changeAll_sameBuffers .inactive .active).after k
  · exact (changeAll_sameBuffers .active .inactive).after k
  · exact (setHandlerStatus_sameBuffers id 4 .override).after k
  · exact (setHandlerStatus_sameBuffers id status _).after k
  · exact (addCallback_sameBuffers id callback node).after k
  · exact (clearCallbacks_sameBuffers id list).after k
  all_goals
    refine State.SameBuffers.after (change_sameBuffers id ?_) k
    exact fun _ => ⟨rfl, rfl, rfl⟩

/-! ## Messages -/

/-- The slot whose buffer `oem_log_do_handle` copies a message to. -/
def State.storesAt (s : State) (m : Message) : Option Slot :=
  match s.getHandlerById m.messageId with
  | none => none
  | some k =>
    let h := s.handlers k
    if h.status = .dormant ∨ h.status = .broken then none
    else if 0 < h.messageLength ∧ h.messageLength.toNat ≠ headerSize + m.messageLength.toNat then
      none
    else if m.crcReadSkipped ∧ !h.ignoreMissingCrc then none
    else if h.recentMessage = none then none
    else some k

/-- The number of bytes that are copied there. -/
def Handler.storeLength (h : Handler) (m : Message) : Nat :=
  let totalLength := headerSize + m.messageLength.toNat
  if h.messageLength = 0 ∧ recentMsgMaxSize < totalLength then recentMsgMaxSize else totalLength

theorem storesAt_some {s : State} {m : Message} {k : Slot} (h : s.storesAt m = some k) :
    s.getHandlerById m.messageId = some k ∧ (s.handlers k).recentMessage ≠ none ∧
      (0 < (s.handlers k).messageLength →
        (s.handlers k).messageLength.toNat = headerSize + m.messageLength.toNat) := by
  rw [State.storesAt] at h
  split at h
  · cases h
  rename_i j hj
  dsimp only at h
  repeat' split at h
  all_goals cases h
  rename_i hlen _ hbuffer
  refine ⟨hj, hbuffer, fun hpos => ?_⟩
  by_contra hne
  exact hlen ⟨hpos, hne⟩

/-- A message that is not stored leaves the buffers as they are. -/
theorem doHandle_none {s : State} {m : Message} (h : s.storesAt m = none) :
    s.SameBuffers (s.doHandle m).1 := by
  rcases hk : s.getHandlerById m.messageId with _ | k
  · simp only [State.doHandle, hk]
    exact .refl s
  simp only [State.storesAt, hk] at h
  simp only [State.doHandle, hk]
  split at h <;> rename_i hasleep
  · rw [if_pos hasleep]
    exact .refl s
  rw [if_neg hasleep]
  split at h <;> rename_i hlen
  · rw [if_pos hlen]
    exact sameBuffers_setHandler ⟨rfl, rfl, rfl⟩
  rw [if_neg hlen]
  split at h <;> rename_i hcrc
  · rw [if_pos hcrc]
    exact sameBuffers_setHandler ⟨rfl, rfl, rfl⟩
  rw [if_neg hcrc]
  split at h <;> rename_i hbuffer
  · rw [if_pos hbuffer]
    exact sameBuffers_setHandler ⟨rfl, rfl, rfl⟩
  · cases h

/-- One that is stored is the recent message of its handler. -/
theorem doHandle_some {s : State} {m : Message} {k : Slot} (h : s.storesAt m = some k) :
    (s.setHandler k { s.handlers k with hasRecentMessage := true }).SameBuffers
      (s.doHandle m).1 := by
  rcases hk : s.getHandlerById m.messageId with _ | j
  · simp only [State.storesAt, hk] at h
    cases h
  simp only [State.storesAt, hk] at h
  simp only [State.doHandle, hk]
  split at h <;> rename_i hasleep
  · cases h
  rw [if_neg hasleep]
  split at h <;> rename_i hlen
  · cases h
  rw [if_neg hlen]
  split at h <;> rename_i hcrc
  · cases h
  rw [if_neg hcrc]
  split at h <;> rename_i hbuffer
  · cases h
  rw [if_neg hbuffer]
  cases h
  have hsame : ∀ x : Handler, SameBuffer { s.handlers k with hasRecentMessage := true } x →
      (s.setHandler k { s.handlers k with hasRecentMessage := true }).SameBuffers
        (s.setHandler k x) := by
    intro x hx j
    rw [setHandler_handlers, setHandler_handlers]
    by_cases hj : j = k
    · rw [hj, Function.update_self, Function.update_self]
      exact hx
    · rw [Function.update_of_ne hj, Function.update_of_ne hj]
      exact .refl _
  split
  · exact hsame _ ⟨rfl, rfl, rfl⟩
  · refine State.SameBuffers.trans (hsame _ ?_) (executeCallbacks_sameBuffers k)
    exact ⟨rfl, rfl, rfl⟩

end Log

namespace Oem

/-! ## The buffers -/

/-- A message that the task has passed on. -/
structure Passed where
  bytes : List UInt8
  ctx : Context
  passed : ∃ userCtx port, readReply userCtx port = some (.passed bytes ctx)

/-- The size of the buffer of a handler. -/
def blockSize (mlen : UInt16) : Nat := if 0 < mlen then mlen.toNat else Log.recentMsgMaxSize

/-- The log layer with the buffers of its handlers. -/
structure Store where
  state : Log.State
  /-- What `recent_message` points to. -/
  blocks : Log.Slot → List UInt8
  /-- The book: header and body of what was accepted last, as long as the handler is there. -/
  last : Log.Slot → Option (List UInt8)

/-- Before the first call. -/
def Store.start : Store := ⟨.start, fun _ => [], fun _ => none⟩

/-- What happens to the log layer. -/
inductive Event
  /-- A call, and what `malloc` finds in memory. -/
  | call (c : Log.Call) (memory : Nat → UInt8)
  | message (p : Passed)
  | returns (r : Log.Ret)

namespace Store

/-- The book, when the table has changed; a handler that is gone has no message. -/
def noteLast (state : Log.State) (last : Log.Slot → Option (List UInt8)) :
    Log.Slot → Option (List UInt8) := fun k =>
  if (state.handlers k).status = .empty then none else last k

/-- A call, with a new buffer for a new handler. -/
def call (st : Store) (c : Log.Call) (memory : Nat → UInt8) : Store where
  state := (st.state.call c).1
  blocks :=
    match st.state.registersAt c with
    | some (k, mlen) => Function.update st.blocks k ((List.range (blockSize mlen)).map memory)
    | none => st.blocks
  last := noteLast (st.state.call c).1 st.last

/-- `process_reply`: the message is copied to the buffer of its handler; no value if it does not
fit there. -/
def message (st : Store) (p : Passed) : Option Store :=
  if p.ctx.isResponse then some st
  else
    match st.state.storesAt p.ctx.message with
    | none => some ⟨(processReply st.state p.ctx).1, st.blocks,
        noteLast (processReply st.state p.ctx).1 st.last⟩
    | some k =>
      (Buffer.store (st.blocks k) 0
          (p.bytes.take ((st.state.handlers k).storeLength p.ctx.message))).map fun block =>
        ⟨(processReply st.state p.ctx).1, Function.update st.blocks k block,
          noteLast (processReply st.state p.ctx).1
            (Function.update st.last k (some (p.bytes.take (bodyEnd p.bytes))))⟩

/-- A step.  The task handles one message at a time. -/
def step (st : Store) : Event → Option Store
  | .call c memory => some (st.call c memory)
  | .message p => if st.state.exec.isSome then some st else st.message p
  | .returns r =>
    some ⟨(st.state.callbackReturns r).1, st.blocks,
      noteLast (st.state.callbackReturns r).1 st.last⟩

/-- A run. -/
def run (st : Store) : List Event → Option Store
  | [] => some st
  | e :: es => (st.step e).bind fun st => st.run es

end Store

/-! ## Copying a message out -/

/-- What `oem_log_get_recent_message` answers. -/
inductive Page
  | copied (bytes : List UInt8)
  /-- `OEM_ERR_NOT_FOUND`. -/
  | notFound
  /-- `OEM_ERR_EMPTY`. -/
  | empty
  /-- `OEM_ERR_RANGE`. -/
  | range
deriving DecidableEq

namespace Store

/-- The length of the message, from the handler or from the header in the buffer. -/
def totalMessageLength (st : Store) (k : Log.Slot) : Option Nat :=
  if (st.state.handlers k).messageLength = 0 then
    (Buffer.load (st.blocks k) 0 headerSize).map fun header =>
      headerSize + (messageLength header).toNat
  else some (st.state.handlers k).messageLength.toNat

/-- `oem_log_get_recent_message`; no value if it reads outside the buffer. -/
def getRecentMessage (st : Store) (id : UInt16) (offset limit : Nat) : Option Page :=
  match st.state.getHandlerById id with
  | none => some .notFound
  | some k =>
    if (st.state.handlers k).hasRecentMessage ≠ true then some .empty
    else
      (st.totalMessageLength k).bind fun total =>
        if total < offset then some .range
        else
          let toCopy := if limit < total - offset then limit else total - offset
          (Buffer.load (st.blocks k) offset toCopy).map .copied

/-- The pages that calls with these limits copy, each from where the last has ended. -/
def pages (st : Store) (id : UInt16) (offset : Nat) : List Nat → Option (List UInt8)
  | [] => some []
  | limit :: limits =>
    match st.getRecentMessage id offset limit with
    | some (.copied bytes) =>
      (st.pages id (offset + bytes.length) limits).map fun rest => bytes ++ rest
    | _ => none

end Store

/-! ## What the task passes on -/

/-- A message that is passed on is there with its body, and fits the buffer of the state machine
with its CRC. -/
structure Passed.Fits (p : Passed) : Prop where
  headed : Headed p.bytes
  body : bodyEnd p.bytes ≤ p.bytes.length
  crc : bodyEnd p.bytes + crcSize ≤ bufSize
  length : p.ctx.messageLength = messageLength p.bytes

/-- The frame of a message starts with a header of the right size. -/
theorem headed_of_ok {w : List UInt8} (hsync : Synced w) (hheader : headerSize ≤ w.length)
    (hok : (extent w).ret = .ok) : Headed w where
  synced := hsync
  header := hheader
  size := by
    by_contra hbad
    rw [extent_of_size hbad] at hok
    cases hok

theorem Headed.take {w : List UInt8} (hw : Headed w) {n : Nat} (hn : headerSize ≤ n) :
    Headed (w.take n) ∧ bodyEnd (w.take n) = bodyEnd w := by
  have hheader : headerSize ≤ (w.take n).length := by
    have := hw.header
    rw [List.length_take]
    omega
  have hsplit : w.take n ++ w.drop n = w := List.take_append_drop n w
  have hsync : Synced (w.take n) := by
    rw [← synced_append (w.drop n) hheader, hsplit]
    exact hw.synced
  have hsize : (headerLength (w.take n)).toNat = headerSize := by
    rw [← headerLength_append (w.drop n) hheader, hsplit]
    exact hw.size
  have htake : Headed (w.take n) := ⟨hsync, hheader, hsize⟩
  refine ⟨htake, ?_⟩
  rw [← htake.bodyEnd_append (w.drop n), hsplit]

/-- A message that the reads complete. -/
theorem fits_of_found {stream rest bytes : List UInt8} {n : Nat} {x : Finding} {ctx : Context}
    {forced : Bool} (hhunt : (frames false false).hunt stream = (some (n, x), rest))
    (hreply : replyOf x forced = .message bytes ctx) :
    Headed bytes ∧ bodyEnd bytes ≤ bytes.length ∧ bodyEnd bytes + crcSize ≤ bufSize ∧
      ctx.messageLength = messageLength bytes := by
  obtain ⟨hsync, -, hn, hx, hsize, -⟩ := lookFrame_drops ((frames false false).look_hunt hhunt)
  rw [replyOf] at hreply
  split at hreply
  · rename_i hret
    cases hreply
    have hok : (extent rest).ret = .ok := by
      by_contra hbad
      rw [hx, judge] at hret
      dsimp only at hret
      rw [if_pos hbad] at hret
      exact hbad hret
    have hbound := headerSize_le_size rest
    have hw := headed_of_ok hsync (by omega) hok
    have hend := hw.size_of_ok hok
    have hbytes : x.bytes = rest.take (extent rest).size := by rw [hx]; rfl
    obtain ⟨htake, hsame⟩ := hw.take hbound
    rw [hbytes]
    refine ⟨htake, ?_, ?_, noteMessage_messageLength _ _⟩
    · rw [hsame, List.length_take]
      omega
    · rw [hsame, ← hend]
      exact size_le_bufSize rest
  · cases hreply

theorem Answer.reply_inv {stream : List UInt8} {reads : List (List UInt8)} {r : Reply}
    {port : Port} (h : Answer stream reads (some (r, port))) : ∃ n x rest forced,
      (frames false false).hunt stream = (some (n, x), rest) ∧ replyOf x forced = r := by
  generalize hq : some (r, port) = q at h
  cases h with
  | nothing => cases hq
  | reply hhunt =>
    cases hq
    exact ⟨_, _, _, _, hhunt, rfl⟩

theorem Passed.fits (p : Passed) : p.Fits := by
  obtain ⟨userCtx, port, hread⟩ := p.passed
  obtain ⟨r, hr, hanswer⟩ := awaitReply_spec (waiting_reset .zero) (port.avail :: port.reads)
  rw [readReply, Option.map_eq_some_iff] at hread
  obtain ⟨wait, hwait, hresult⟩ := hread
  rw [awaitReply_eq, hwait, Option.map_some, Option.some_inj] at hr
  subst hr
  rcases wait with ⟨⟨bytes, ctx⟩ | ⟨ret, forced⟩, port'⟩ | ⟨sm, ctx⟩
  · cases hresult
    obtain ⟨n, x, rest, forced, hhunt, hreply⟩ := hanswer.reply_inv
    obtain ⟨hw, hbody, hfit, hlength⟩ := fits_of_found hhunt hreply
    exact ⟨hw, hbody, hfit, hlength⟩
  · cases hresult
  · rcases hanswer with ⟨hhunt⟩ | _
    obtain ⟨sm', ctx', hawait, hw, hbegun⟩ :=
      await_pending (waiting_reset .zero) begun_reset hhunt
    rw [hwait] at hawait
    cases hawait
    have hresult : atDeadline userCtx sm ctx = .passed p.bytes p.ctx := hresult
    by_cases hcrc : sm.state = .fill ∧ sm.target = .crc
    · obtain ⟨-, -, ctx', hpassed, -, -, hlength, -⟩ := hw.passes userCtx hcrc
      rw [hpassed] at hresult
      cases hresult
      have hstage := (hw.holds []).stage
      dsimp only at hstage
      rw [hcrc.1, hcrc.2] at hstage
      obtain ⟨hheaded, hfit, -, -, hbody, -⟩ := hstage.fillCrc_inv
      exact ⟨hheaded, hbody, hfit, hlength⟩
    · rw [hw.times_out userCtx hcrc] at hresult
      cases hresult

/-! ## What the buffers hold -/

/-- A handler has a message in its buffer. -/
structure Keeps (h : Log.Handler) (block msg : List UInt8) : Prop where
  status : h.status ≠ .empty
  buffer : h.recentMessage ≠ none
  recent : h.hasRecentMessage = true
  header : headerSize ≤ msg.length
  body : msg.length = bodyEnd msg
  length : 0 < h.messageLength → h.messageLength.toNat = msg.length
  starts : msg <+: block

/-- **The invariant** of the buffers: they have the size that was registered, and hold the messages
of the book. -/
structure Store.Kept (st : Store) : Prop where
  size : ∀ k, (st.state.handlers k).recentMessage ≠ none →
    (st.blocks k).length = blockSize (st.state.handlers k).messageLength
  last : ∀ k msg, st.last k = some msg → Keeps (st.state.handlers k) (st.blocks k) msg

theorem Keeps.same {h h' : Log.Handler} {block msg : List UInt8} (hk : Keeps h block msg)
    (hs : Log.SameBuffer h h') (hstatus : h'.status ≠ .empty) : Keeps h' block msg where
  status := hstatus
  buffer := by
    rw [hs.pointer]
    exact hk.buffer
  recent := hs.recent.trans hk.recent
  header := hk.header
  body := hk.body
  length := by
    rw [hs.length]
    exact hk.length
  starts := hk.starts

namespace Store

theorem noteLast_some {state : Log.State} {last : Log.Slot → Option (List UInt8)} {k : Log.Slot}
    {msg : List UInt8} (h : noteLast state last k = some msg) :
    (state.handlers k).status ≠ .empty ∧ last k = some msg := by
  rw [noteLast] at h
  split at h
  · cases h
  · exact ⟨‹_›, h⟩

theorem kept_start : Kept .start where
  size k hk := absurd rfl hk
  last k msg h := by cases h

variable {st : Store}

/-- A step that leaves the buffers alone. -/
theorem Kept.same (h : st.Kept) {s' : Log.State} (hs : st.state.SameBuffers s') :
    Kept ⟨s', st.blocks, noteLast s' st.last⟩ where
  size k hk := by
    dsimp only at hk ⊢
    rw [(hs k).pointer] at hk
    rw [(hs k).length]
    exact h.size k hk
  last k msg hlast := by
    obtain ⟨hstatus, hlast⟩ := noteLast_some hlast
    exact (h.last k msg hlast).same (hs k) hstatus

theorem Kept.call (h : st.Kept) (c : Log.Call) (memory : Nat → UInt8) : (st.call c memory).Kept := by
  have hblock : ∀ k, (∀ mlen, st.state.registersAt c ≠ some (k, mlen)) →
      (st.call c memory).blocks k = st.blocks k := by
    intro k hk
    rcases hr : st.state.registersAt c with _ | ⟨j, mlen⟩
    · simp only [Store.call, hr]
    · have hne : k ≠ j := by
        rintro rfl
        exact hk mlen hr
      simp only [Store.call, hr, Function.update_of_ne hne]
  constructor
  · intro k hk
    rcases Log.call_after st.state c k with ⟨hs, hr⟩ | ⟨-, hr⟩ | ⟨-, hnone, -⟩
    · rw [hblock k hr]
      show _ = blockSize ((st.state.call c).1.handlers k).messageLength
      rw [hs.length]
      exact h.size k (hs.pointer ▸ hk)
    · simp [Store.call, hr]
    · exact absurd hnone hk
  · intro k msg hlast
    obtain ⟨hstatus, hlast⟩ := noteLast_some hlast
    have hkeeps := h.last k msg hlast
    rcases Log.call_after st.state c k with ⟨hs, hr⟩ | ⟨hempty, -⟩ | ⟨hempty, -, -⟩
    · rw [hblock k hr]
      exact hkeeps.same hs hstatus
    · exact absurd hempty hkeeps.status
    · exact absurd hempty hstatus

/-- **A message fits the buffer it is copied to**, and is in it then. -/
theorem Kept.stores (h : st.Kept) {p : Passed} {k : Log.Slot}
    (hk : st.state.storesAt p.ctx.message = some k) :
    bodyEnd p.bytes ≤ (st.blocks k).length ∧ Buffer.store (st.blocks k) 0
        (p.bytes.take ((st.state.handlers k).storeLength p.ctx.message)) =
      some (p.bytes.take (bodyEnd p.bytes) ++ (st.blocks k).drop (bodyEnd p.bytes)) ∧
    (0 < (st.state.handlers k).messageLength →
      (st.state.handlers k).messageLength.toNat = bodyEnd p.bytes) := by
  obtain ⟨-, hbuffer, hlength⟩ := Log.storesAt_some hk
  have hfits := p.fits
  have htotal : Log.headerSize + p.ctx.message.messageLength.toNat = bodyEnd p.bytes := by
    show Log.headerSize + p.ctx.messageLength.toNat = _
    rw [hfits.length]
    rfl
  rw [htotal] at hlength
  have hcrc := hfits.crc
  have hbody := hfits.body
  rw [crcSize, bufSize] at hcrc
  have hstore : (st.state.handlers k).storeLength p.ctx.message = bodyEnd p.bytes := by
    rw [Log.Handler.storeLength, htotal, Log.recentMsgMaxSize]
    exact if_neg (by omega)
  have hroom : bodyEnd p.bytes ≤ (st.blocks k).length := by
    rw [h.size k hbuffer, blockSize]
    split
    · rename_i hpos
      rw [hlength hpos]
    · rw [Log.recentMsgMaxSize]
      omega
  have hlen : (p.bytes.take (bodyEnd p.bytes)).length = bodyEnd p.bytes := by
    rw [List.length_take]
    omega
  rw [hstore, Buffer.store_zero (by rw [hlen]; exact hroom), hlen]
  exact ⟨hroom, rfl, hlength⟩

theorem Kept.message (h : st.Kept) (p : Passed) :
    ∃ st', st.message p = some st' ∧ st'.Kept := by
  rw [Store.message]
  split
  · exact ⟨st, rfl, h⟩
  rename_i hlog
  have hhandle : (processReply st.state p.ctx).1 = (st.state.doHandle p.ctx.message).1 := by
    rw [processReply, if_neg hlog]
  rcases hk : st.state.storesAt p.ctx.message with _ | k
  · refine ⟨_, rfl, h.same ?_⟩
    rw [hhandle]
    exact Log.doHandle_none hk
  obtain ⟨hroom, hstore, hlength⟩ := h.stores hk
  obtain ⟨hfound, hbuffer, -⟩ := Log.storesAt_some hk
  have hfits := p.fits
  have hself : Log.SameBuffer { st.state.handlers k with hasRecentMessage := true }
      ((st.state.doHandle p.ctx.message).1.handlers k) := by
    have hsame := Log.doHandle_some hk k
    rwa [Log.setHandler_handlers, Function.update_self] at hsame
  have hother : ∀ j, j ≠ k → Log.SameBuffer (st.state.handlers j)
      ((st.state.doHandle p.ctx.message).1.handlers j) := by
    intro j hj
    have hsame := Log.doHandle_some hk j
    rwa [Log.setHandler_handlers, Function.update_of_ne hj] at hsame
  have hlen : (p.bytes.take (bodyEnd p.bytes)).length = bodyEnd p.bytes := by
    rw [List.length_take]
    have := hfits.body
    omega
  rw [hhandle]
  dsimp only
  rw [hstore]
  refine ⟨_, rfl, ⟨fun j hbuf => ?_, fun j msg hlast => ?_⟩⟩
  · dsimp only at hbuf ⊢
    by_cases hj : j = k
    · subst hj
      have hsize := h.size j hbuffer
      rw [Function.update_self, hself.length, ← hsize, List.length_append, hlen, List.length_drop]
      omega
    · rw [Function.update_of_ne hj, (hother j hj).length]
      exact h.size j ((hother j hj).pointer ▸ hbuf)
  · obtain ⟨hstatus, hlast⟩ := noteLast_some hlast
    dsimp only at hstatus ⊢
    by_cases hj : j = k
    · subst hj
      rw [Function.update_self] at hlast ⊢
      cases hlast
      obtain ⟨-, hend⟩ := hfits.headed.take (Nat.le_add_right headerSize _)
      have hlength' : 0 < ((st.state.doHandle p.ctx.message).1.handlers j).messageLength →
          ((st.state.doHandle p.ctx.message).1.handlers j).messageLength.toNat =
            bodyEnd p.bytes := by
        rw [hself.length]
        exact hlength
      refine ⟨hstatus, ?_, hself.recent, ?_, ?_, ?_, List.prefix_append _ _⟩
      · rw [hself.pointer]
        exact hbuffer
      · rw [hlen]
        exact Nat.le_add_right _ _
      · rw [hlen]
        exact hend.symm
      · rw [hlen]
        exact hlength'
    · rw [Function.update_of_ne hj] at hlast ⊢
      exact (h.last j msg hlast).same (hother j hj) hstatus

/-- **A step stays inside the buffers.** -/
theorem Kept.step (h : st.Kept) (e : Event) : ∃ st', st.step e = some st' ∧ st'.Kept := by
  rcases e with ⟨c, memory⟩ | p | r
  · exact ⟨_, rfl, h.call c memory⟩
  · rw [Store.step]
    split
    · exact ⟨st, rfl, h⟩
    · exact h.message p
  · exact ⟨_, rfl, h.same (Log.callbackReturns_sameBuffers r)⟩

theorem Kept.run (h : st.Kept) (es : List Event) : ∃ st', st.run es = some st' ∧ st'.Kept := by
  induction es generalizing st with
  | nil => exact ⟨st, rfl, h⟩
  | cons e es ih =>
    obtain ⟨st', hstep, h'⟩ := h.step e
    rw [Store.run, hstep, Option.bind_some]
    exact ih h'

/-! ## The pages of a message -/

variable {id : UInt16} {k : Log.Slot} {msg : List UInt8}

theorem totalMessageLength_eq (hkeeps : Keeps (st.state.handlers k) (st.blocks k) msg) :
    st.totalMessageLength k = some msg.length := by
  rw [totalMessageLength]
  split
  · have hlen := hkeeps.starts.length_le
    have hheader := hkeeps.header
    have htake : ((st.blocks k).drop 0).take headerSize = msg.take headerSize := by
      obtain ⟨rest, hrest⟩ := hkeeps.starts
      rw [List.drop_zero, ← hrest, List.take_append_of_le_length hheader]
    have hsame : messageLength (msg.take headerSize) = messageLength msg := by
      have hlen : headerSize ≤ (msg.take headerSize).length := by
        rw [List.length_take]
        omega
      have happend := messageLength_append (msg.drop headerSize) hlen
      rw [List.take_append_drop] at happend
      exact happend.symm
    rw [Buffer.load_eq (by omega), Option.map_some, htake, hsame]
    exact congrArg some hkeeps.body.symm
  · rename_i hfixed
    exact congrArg some (hkeeps.length (UInt16.pos_iff_ne_zero.2 hfixed))

/-- One page. -/
theorem getRecentMessage_eq (hfound : st.state.getHandlerById id = some k)
    (hkeeps : Keeps (st.state.handlers k) (st.blocks k) msg) {offset : Nat}
    (hoffset : offset ≤ msg.length) (limit : Nat) :
    st.getRecentMessage id offset limit = some (.copied ((msg.drop offset).take limit)) := by
  obtain ⟨rest, hrest⟩ := hkeeps.starts
  have hlen : (st.blocks k).length = msg.length + rest.length := by
    rw [← hrest, List.length_append]
  simp only [getRecentMessage, hfound]
  rw [if_neg (not_not.2 hkeeps.recent), totalMessageLength_eq hkeeps, Option.bind_some,
    if_neg (Nat.not_lt.2 hoffset), Buffer.load_eq (by split <;> omega), Option.map_some, ← hrest,
    List.drop_append_of_le_length hoffset]
  congr 2
  split
  · rw [List.take_append_of_le_length (by rw [List.length_drop]; omega)]
  · rw [← List.length_drop, List.take_left' rfl,
      List.take_of_length_le (by rw [List.length_drop]; omega)]

/-- **The pages are the message**, as far as the limits reach. -/
theorem pages_eq (hfound : st.state.getHandlerById id = some k)
    (hkeeps : Keeps (st.state.handlers k) (st.blocks k) msg) {offset : Nat}
    (hoffset : offset ≤ msg.length) (limits : List Nat) :
    st.pages id offset limits = some ((msg.drop offset).take limits.sum) := by
  induction limits generalizing offset with
  | nil => rfl
  | cons limit limits ih =>
    simp only [pages, getRecentMessage_eq hfound hkeeps hoffset]
    rw [ih (by rw [List.length_take, List.length_drop]; omega), Option.map_some, List.sum_cons]
    rw [List.take_add, ← List.drop_drop, List.length_take]
    by_cases hall : limit ≤ (msg.drop offset).length
    · rw [Nat.min_eq_left hall]
    · have hnone : (msg.drop offset).drop limit = [] := List.drop_eq_nil_of_le (by omega)
      rw [Nat.min_eq_right (by omega), List.drop_length, hnone]

end Store

/-! ## The main result -/

/-- **The receive buffer is a queue, and the last message can be copied out exactly.**  Whatever
the capacity, a sequence of calls on the buffer stays inside it and answers as the queue does, and
what is peeked is what was read without what was taken.  In every run of the log layer all accesses
stay inside the buffers of the handlers, and calls that page through the message of a handler, with
any limits, copy the last message it has accepted, as far as the limits reach. -/
theorem receives_and_pages :
    (∀ (memory : List UInt8) (cs : List IoCall), ∃ r,
      (initRbuf memory).run cs = some (r, (fifo memory.length).history [] cs) ∧
        Each Shows ((fifo memory.length).history [] cs)) ∧
    ∀ es : List Event, ∃ st, Store.start.run es = some st ∧
      ∀ id k msg, st.state.getHandlerById id = some k → st.last k = some msg →
        ∀ limits : List Nat, st.pages id 0 limits = some (msg.take limits.sum) := by
  constructor
  · intro memory cs
    obtain ⟨r, hrun, -⟩ := (ReadBuf.holds_init memory).run cs
    exact ⟨r, hrun, (fifo_lossless cs).shown⟩
  · intro es
    obtain ⟨st, hrun, hkept⟩ := Store.kept_start.run es
    refine ⟨st, hrun, fun id k msg hfound hlast limits => ?_⟩
    exact Store.pages_eq hfound (hkept.last k msg hlast) (Nat.zero_le _) limits

end Oem
end FlightApps
