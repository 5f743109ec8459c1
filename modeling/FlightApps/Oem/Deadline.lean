import FlightApps.Oem.Log
import FlightApps.Oem.Reads

/-!
# Replies whose CRC has not come at the deadline

The receiver sometimes leaves the CRC out.  When the deadline of `oem_task_read_single_reply` has
passed and the state machine is in `STATE_FILL` for the CRC, the message is passed on with
`crc_read_skipped` set, and its handler decides whether it takes a message without a CRC.

The machine goes from `STATE_FILL_PREP` to `STATE_FILL` only when there is a byte to come.  So the
test finds a message of which some bytes of the CRC have come, and not one that ends with its body:
that one is a timeout (`bare_message_times_out`).  What the call returns is settled exactly in
`missing_crc_tolerated_iff`.
-/

set_option autoImplicit false

namespace FlightApps
namespace Oem

/-! ## The driver up to its deadline -/

/-- How the reads of a call end. -/
inductive Wait
  /-- With a reply, and the port that is left. -/
  | reply (r : Reply) (port : Port)
  /-- With the deadline. -/
  | deadline (sm : StateMachine) (ctx : Context)

/-- The loop of `oem_task_read_single_reply`, with the reads up to the deadline; a read that times
out has no bytes. -/
def await (sm : StateMachine) (ctx : Context) (avail : List UInt8) :
    List (List UInt8) → Option Wait
  | [] => some (.deadline sm ctx)
  | read :: reads =>
    if avail ++ read = [] then await sm ctx [] reads
    else
      (feedAvailable sm ctx (avail ++ read)).bind fun out =>
        match out.reply with
        | some reply => some (.reply reply ⟨out.avail, reads⟩)
        | none => await out.sm out.ctx out.avail reads

/-- The reply, if there is one before the deadline. -/
def Wait.toReply : Wait → Option (Reply × Port)
  | .reply r port => some (r, port)
  | .deadline _ _ => none

/-- What a call does with what it has got. -/
inductive Result
  /-- `process_reply`. -/
  | passed (bytes : List UInt8) (ctx : Context)
  | failed (ret : Status)
  /-- `OEM_ERR_IO_TIMEOUT`. -/
  | timeout
deriving DecidableEq

/-- The context of a message whose CRC was not read; `userCtx` says that it is the caller's. -/
def skipCrc (userCtx : Bool) (sm : StateMachine) (ctx : Context) : Context :=
  { ctx with
    crcReadSkipped := true
    crcCalced :=
      if userCtx then oemCrc32 (sm.buffer.toList.take (headerSize + ctx.messageLength.toNat))
      else ctx.crcCalced
    crcReceived := if userCtx then 0 else ctx.crcReceived }

/-- After the loop, where no error has ended the call. -/
def atDeadline (userCtx : Bool) (sm : StateMachine) (ctx : Context) : Result :=
  if sm.state = .fill ∧ sm.target = .crc then .passed sm.bytes (skipCrc userCtx sm ctx)
  else if sm.state = .messageReady then .passed sm.bytes ctx
  else .timeout

/-- The end of a call. -/
def Wait.result (userCtx : Bool) : Wait → Result
  | .reply (.message bytes ctx) _ => .passed bytes ctx
  | .reply (.error ret _) _ => .failed ret
  | .deadline sm ctx => atDeadline userCtx sm ctx

/-- `oem_task_read_single_reply`, with the reads up to its deadline. -/
def readReply (userCtx : Bool) (port : Port) : Option Result :=
  (await smReset .zero [] (port.avail :: port.reads)).map (Wait.result userCtx)

/-- What `oem_log_do_handle` reads of the context. -/
def Context.message (ctx : Context) : Log.Message where
  messageId := ctx.messageId.toUInt16
  messageLength := ctx.messageLength
  crcReadSkipped := ctx.crcReadSkipped

/-- `process_reply`. -/
def processReply (s : Log.State) (ctx : Context) : Log.State × List Log.Effect :=
  if ctx.isResponse then (s, [.returned .ok]) else s.doHandle ctx.message

/-! ## What the claim of the driver is -/

/-- A handler comes to look at the CRC of a message of a length. -/
structure Takes (h : Log.Handler) (messageLength : UInt16) : Prop where
  dormant : h.status ≠ .dormant
  broken : h.status ≠ .broken
  length : 0 < h.messageLength → h.messageLength.toNat = Log.headerSize + messageLength.toNat

/-- What the handlers make of a message without a CRC: one that ignores this processes it as if the
CRC were there, and any other reports it. -/
structure LeftToHandlers (ctx : Context) : Prop where
  ignores : ∀ (s : Log.State) k, s.getHandlerById ctx.message.messageId = some k →
    (s.handlers k).ignoreMissingCrc = true →
      processReply s ctx = processReply s { ctx with crcReadSkipped := false }
  reports : ∀ (s : Log.State) k, s.getHandlerById ctx.message.messageId = some k →
    (s.handlers k).ignoreMissingCrc = false → Takes (s.handlers k) ctx.messageLength →
      ctx.isResponse = false → (processReply s ctx).2 = [.returned .logMissingCrc] ∧
        ((processReply s ctx).1.handlers k).stat.errorCause = .logMissingCrc

/-- The message `w` is passed on without its CRC. -/
def Tolerated (userCtx : Bool) (port : Port) (w : List UInt8) : Prop :=
  ∃ ctx, readReply userCtx port = some (.passed w ctx) ∧ ctx.crcReadSkipped = true ∧
    ctx.messageId = (messageID w).toInt16 ∧ ctx.messageLength = messageLength w ∧
      ctx.isResponse = hasResponseBit w ∧ LeftToHandlers ctx

/-! ## The handlers -/

theorem leftToHandlers {ctx : Context} (hskip : ctx.crcReadSkipped = true) :
    LeftToHandlers ctx where
  ignores := by
    intro s k hk hignore
    rw [Context.message] at hk
    simp only [processReply, Log.State.doHandle, Context.message, hk, hignore, Bool.not_true,
      Bool.false_eq_true, and_false, if_false]
  reports := by
    intro s k hk hreject htakes hlog
    have hlen : ¬(0 < (s.handlers k).messageLength ∧ (s.handlers k).messageLength.toNat ≠
        Log.headerSize + ctx.messageLength.toNat) := fun h => h.2 (htakes.length h.1)
    have hawake : ¬((s.handlers k).status = .dormant ∨ (s.handlers k).status = .broken) :=
      fun h => h.elim htakes.dormant htakes.broken
    have hmissing : ctx.crcReadSkipped = true ∧ (!(s.handlers k).ignoreMissingCrc) = true :=
      ⟨hskip, by rw [hreject]; rfl⟩
    have heq : processReply s ctx =
        (s.setHandler k (Log.Handler.caused { s.handlers k with
          stat := { (s.handlers k).stat with logCount := (s.handlers k).stat.logCount + 1 } }
          .logMissingCrc), [.returned .logMissingCrc]) := by
      rw [processReply, if_neg (by rw [hlog]; exact Bool.false_ne_true), Log.State.doHandle, hk]
      dsimp only
      rw [if_neg hawake]
      exact (if_neg hlen).trans (if_pos hmissing)
    rw [heq]
    refine ⟨rfl, ?_⟩
    rw [Log.setHandler_handlers, Function.update_self]
    rfl

/-! ## Up to the deadline, and beyond -/

/-- Without the end at the deadline it is the loop of `Oem/Reads.lean`. -/
theorem awaitReply_eq (sm : StateMachine) (ctx : Context) (avail : List UInt8)
    (reads : List (List UInt8)) :
    awaitReply sm ctx avail reads = (await sm ctx avail reads).map Wait.toReply := by
  induction reads generalizing sm ctx avail with
  | nil => rfl
  | cons read reads ih =>
    rw [awaitReply, await]
    split
    · exact ih _ _ _
    · rw [Option.map_bind]
      congr 1
      funext out
      rw [Function.comp_apply]
      rcases out.reply with _ | reply
      · exact ih _ _ _
      · rfl

/-- What the machine holds while it fills the CRC. -/
theorem Stage.fillCrc_inv {ctx ctx' : Context} {w rest : List UInt8} {need : Nat}
    (h : Stage ctx w rest .fill .crc need ctx') :
    Headed w ∧ bodyEnd w + crcSize ≤ bufSize ∧ ResponseFits w ∧ 0 < need ∧
      bodyEnd w ≤ w.length ∧ w.length + need = bodyEnd w + crcSize ∧
        ctx' = noteBody (noteHeader ctx w) w := by
  cases h with
  | fillCrc _ hw hfit hresponse hneed hbody hsize =>
    exact ⟨hw, hfit, hresponse, hneed, hbody, hsize, rfl⟩

/-- A frame that is not rejected ends with its CRC. -/
theorem Headed.size_of_ok {w : List UInt8} (hw : Headed w) (hok : (extent w).ret = .ok) :
    (extent w).size = bodyEnd w + crcSize := by
  by_cases hlarge : bufSize < bodyEnd w
  · rw [hw.extent_large hlarge] at hok
    cases hok
  have hfit : bodyEnd w ≤ bufSize := Nat.le_of_not_lt hlarge
  by_cases hresponse : ResponseFits w
  · by_cases hfull : bufSize < bodyEnd w + crcSize
    · rw [hw.extent_full hfit hresponse hfull] at hok
      cases hok
    · rw [hw.extent_ok (Nat.le_of_not_lt hfull) hresponse]
  · rw [hw.extent_short hfit hresponse] at hok
    cases hok

/-- In `STATE_FILL` for the CRC a byte of it has been taken. -/
def Begun (sm : StateMachine) : Prop :=
  sm.state = .fill → sm.target = .crc → sm.need < crcSize

/-- The same in the midst of a call, or else there is a byte to take. -/
def Filling (data : List UInt8) (f : Feed) : Prop :=
  f.sm.state = .fill → f.sm.target = .crc → f.i < data.length ∨ f.sm.need < crcSize

theorem begun_reset : Begun smReset := fun h => absurd h (by decide)

/-- **A turn takes a byte of the CRC when it fills**, and when it prepares to there is one. -/
theorem turn_filling {ctx : Context} {data w : List UInt8} {f f' : Feed}
    (hrun : Feed.Running data f) (h : Holds ctx w (data.drop f.i) f)
    (hturn : Feed.turn data f = .next f') : Filling data f' := by
  intro hstate htarget
  have htake : f.sm.state ≠ .fillValidate → f.i < data.length := hrun.resolve_right
  rw [Feed.turn] at hturn
  split at hturn <;> rename_i hwas
  · rw [Feed.searchAA] at hturn
    split at hturn <;> cases hturn
    · cases hstate
    · exact absurd (hwas.symm.trans hstate) (by decide)
  · rw [Feed.search44] at hturn
    repeat' split at hturn
    all_goals cases hturn
    · cases hstate
    · exact absurd (hwas.symm.trans hstate) (by decide)
    · cases hstate
  · rw [Feed.search12] at hturn
    repeat' split at hturn
    all_goals cases hturn
    all_goals cases hstate
  · obtain ⟨n, -, -, -, rfl⟩ := Feed.fillPrep_inv hturn
    exact .inl (htake (by rw [hwas]; decide))
  · have hlt := htake (by rw [hwas]; decide)
    cases hturn
    right
    have htarget : f.sm.target = .crc := htarget
    have hstage := h.stage
    rw [hwas, htarget] at hstage
    obtain ⟨-, -, -, hpos, hbody, hsize, -⟩ := hstage.fillCrc_inv
    have hcopy : 0 < Feed.toCopy data f := by
      rw [Feed.toCopy]
      split <;> omega
    show f.sm.need - Feed.toCopy data f < crcSize
    omega
  · rw [Feed.fillValidate] at hturn
    split at hturn
    · cases hturn
    · rw [Feed.validateHeader] at hturn
      dsimp only at hturn
      repeat' split at hturn
      all_goals cases hturn
      cases hstate
    · rw [Feed.validateBody] at hturn
      repeat' split at hturn
      all_goals cases hturn
      all_goals cases hstate
    · rw [Feed.validateCrc] at hturn
      dsimp only at hturn
      repeat' split at hturn
      all_goals cases hturn
  · cases hturn

theorem feedLoop_begun {ctx : Context} {data w : List UInt8} {fuel : Nat} {f f' : Feed}
    {ret : Status} (hi : f.i ≤ data.length) (h : Holds ctx w (data.drop f.i) f)
    (hfilling : Filling data f) (hloop : Feed.feedLoop data fuel f = some (ret, f')) :
    Begun f'.sm := by
  induction fuel generalizing f w with
  | zero => cases hloop
  | succ fuel ih =>
    rw [Feed.feedLoop] at hloop
    split at hloop
    · rename_i hrun
      have hturn := turn_spec hi hrun h
      split at hloop
      · rename_i g hnext
        rw [hnext] at hturn
        obtain ⟨hi', w', h', -⟩ := hturn
        exact ih hi' h' (turn_filling hrun h hnext) hloop
      · rename_i ret' g hstop
        rw [hstop] at hturn
        cases hloop
        obtain ⟨-, -, hstopped⟩ := hturn
        by_cases hok : ret = .ok
        · exact fun hstate => absurd ((hstopped.message hok).1.symm.trans hstate) (by decide)
        · rw [(hstopped.error hok).1]
          exact begun_reset
    · rename_i hdone
      cases hloop
      rw [Feed.Running, not_or] at hdone
      exact fun hstate htarget => (hfilling hstate htarget).resolve_left hdone.1

theorem smFeed_begun {ctx₀ ctx : Context} {sm : StateMachine} {w data : List UInt8} {ret : Status}
    {f : Feed} (h : Waiting ctx₀ w sm ctx) (hbegun : Begun sm)
    (hfeed : smFeed sm data ctx = some (ret, f)) : Begun f.sm := by
  have hfilling : Filling data ⟨sm, ctx, 0⟩ := fun hstate htarget => .inr (hbegun hstate htarget)
  exact feedLoop_begun (Nat.zero_le _) (h.holds data) hfilling hfeed

theorem feedAvailable_begun {ctx₀ ctx : Context} {sm : StateMachine} {w data : List UInt8}
    {out : Outcome} (h : Waiting ctx₀ w sm ctx) (hbegun : Begun sm)
    (hout : feedAvailable sm ctx data = some out) : Begun out.sm := by
  rw [feedAvailable, Option.map_eq_some_iff] at hout
  obtain ⟨⟨ret, f⟩, hfeed, rfl⟩ := hout
  exact smFeed_begun h hbegun hfeed

/-! ## The reads of a call -/

/-- **Reads that complete no frame** lead up to the deadline. -/
theorem await_pending {sm : StateMachine} {ctx : Context} {w w' : List UInt8}
    (h : Waiting .zero w sm ctx) (hbegun : Begun sm) {reads : List (List UInt8)}
    (hhunt : (frames false false).hunt (w ++ reads.flatten) = (none, w')) :
    ∃ sm' ctx', await sm ctx [] reads = some (.deadline sm' ctx') ∧
      Waiting .zero w' sm' ctx' ∧ Begun sm' := by
  induction reads generalizing sm ctx w with
  | nil =>
    rw [List.flatten_nil, List.append_nil,
      Scanner.hunt_of_more _ (h.look_more false false)] at hhunt
    cases hhunt
    exact ⟨sm, ctx, rfl, h, hbegun⟩
  | cons read reads ih =>
    rw [await, List.nil_append]
    by_cases hread : read = []
    · subst hread
      rw [if_pos rfl]
      exact ih h hbegun hhunt
    rw [if_neg hread]
    rw [List.flatten_cons, ← List.append_assoc] at hhunt
    obtain ⟨out, hout, ⟨hreply, havail, v, hv, hnone⟩ | ⟨n, x, rest, forced, hsome, -⟩⟩ :=
      feedAvailable_spec h hread
    · rw [Scanner.hunt_append_none _ hnone] at hhunt
      rw [hout, Option.bind_some, hreply, havail]
      exact ih hv (feedAvailable_begun h hbegun hout) hhunt
    · rw [Scanner.hunt_append_some _ hsome] at hhunt
      cases hhunt

/-- Reads that complete a frame lead to a reply. -/
theorem await_found {sm : StateMachine} {ctx : Context} {w rest : List UInt8} {n : Nat}
    {x : Finding} (h : Waiting .zero w sm ctx) {reads : List (List UInt8)}
    (hhunt : (frames false false).hunt (w ++ reads.flatten) = (some (n, x), rest)) :
    ∃ forced port, await sm ctx [] reads = some (.reply (replyOf x forced) port) := by
  obtain ⟨r, hr, hanswer⟩ := awaitReply_spec h reads
  rw [awaitReply_eq, Option.map_eq_some_iff] at hr
  obtain ⟨wait, hwait, rfl⟩ := hr
  rcases wait with ⟨r, port⟩ | ⟨sm', ctx'⟩
  · rcases hanswer with hnone | @⟨m, y, rest', forced, _, hsome, -, -, -⟩
    rw [hhunt] at hsome
    cases hsome
    exact ⟨forced, port, hwait⟩
  · rcases hanswer with hnone | _
    rw [hhunt] at hnone
    cases hnone

/-- What comes before the first sync bytes is passed over. -/
theorem hunt_noise {noise w : List UInt8}
    (hnoise : ∀ i < noise.length, ¬Synced ((noise ++ w).drop i)) :
    (frames false false).hunt (noise ++ w) = (frames false false).hunt w := by
  have hskip := (frames false false).hunt_drop (noise ++ w) noise.length fun i hi =>
    lookFrame_skip (hnoise i hi)
  rw [List.drop_left] at hskip
  exact hskip.symm

/-! ## The end of a call -/

/-- The state at the deadline, when the body of a message is there and its CRC is not. -/
theorem Waiting.awaits_crc_iff {ctx : Context} {w : List UInt8} {sm : StateMachine}
    (h : Waiting .zero w sm ctx) (hbegun : Begun sm) (hw : Headed w)
    (hbody : bodyEnd w ≤ w.length) :
    sm.state = .fill ∧ sm.target = .crc ↔ bodyEnd w < w.length := by
  have hstage := (h.holds []).stage
  have hno := h.state
  constructor
  · rintro ⟨hstate, htarget⟩
    have hneed := hbegun hstate htarget
    dsimp only at hstage
    rw [hstate, htarget] at hstage
    obtain ⟨-, -, -, -, -, hsize, -⟩ := hstage.fillCrc_inv
    omega
  · intro hmore
    have hheader := hw.header
    have hend : headerSize ≤ bodyEnd w := Nat.le_add_right _ _
    obtain ⟨buffer, need, held, state, target⟩ := sm
    dsimp only at hstage hno ⊢
    cases hstage with
    | searchAA => exact absurd hheader (by decide)
    | search44 => exact absurd hheader (by decide)
    | search12 => exact absurd hheader (by decide)
    | prepHeader => exact absurd hheader (by decide)
    | fillHeader => omega
    | validateHeader => exact absurd rfl hno
    | prepBody => omega
    | fillBody => omega
    | validateBody => exact absurd rfl hno
    | prepCrc => omega
    | fillCrc => exact ⟨rfl, rfl⟩
    | validateCrc => exact absurd rfl hno

/-- What is passed on at the deadline. -/
theorem Waiting.passes {ctx : Context} {w : List UInt8} {sm : StateMachine} (userCtx : Bool)
    (h : Waiting .zero w sm ctx) (hcrc : sm.state = .fill ∧ sm.target = .crc) :
    bodyEnd w + crcSize ≤ bufSize ∧ ResponseFits w ∧
      ∃ ctx', atDeadline userCtx sm ctx = .passed w ctx' ∧ ctx'.crcReadSkipped = true ∧
        ctx'.messageId = (messageID w).toInt16 ∧ ctx'.messageLength = messageLength w ∧
          ctx'.isResponse = hasResponseBit w := by
  have hstage := (h.holds []).stage
  dsimp only at hstage
  rw [hcrc.1, hcrc.2] at hstage
  obtain ⟨-, hfit, hresponse, -, -, -, hctx⟩ := hstage.fillCrc_inv
  refine ⟨hfit, hresponse, skipCrc userCtx sm ctx, ?_, rfl, ?_⟩
  · rw [atDeadline, if_pos hcrc, show sm.bytes = w from (h.holds []).bytes]
  · rw [hctx]
    exact ⟨rfl, rfl, rfl⟩

theorem Waiting.times_out {ctx : Context} {w : List UInt8} {sm : StateMachine} (userCtx : Bool)
    (h : Waiting .zero w sm ctx) (hcrc : ¬(sm.state = .fill ∧ sm.target = .crc)) :
    atDeadline userCtx sm ctx = .timeout := by
  rw [atDeadline, if_neg hcrc, if_neg h.not_ready]

section Call

variable {port : Port} (userCtx : Bool) {noise w : List UInt8}
  (hstream : port.avail ++ port.reads.flatten = noise ++ w)
  (hnoise : ∀ i < noise.length, ¬Synced ((noise ++ w).drop i))

include hstream hnoise

/-- A call whose bytes have no complete frame. -/
theorem readReply_pending (hmore : lookFrame false false w = .more) :
    ∃ sm ctx, readReply userCtx port = some (atDeadline userCtx sm ctx) ∧
      Waiting .zero w sm ctx ∧ Begun sm := by
  have hhunt : (frames false false).hunt ([] ++ (port.avail :: port.reads).flatten) =
      (none, w) := by
    rw [List.nil_append, List.flatten_cons, hstream, hunt_noise hnoise]
    exact Scanner.hunt_of_more _ hmore
  obtain ⟨sm, ctx, hawait, hw, hbegun⟩ := await_pending (waiting_reset .zero) begun_reset hhunt
  exact ⟨sm, ctx, by rw [readReply, hawait]; rfl, hw, hbegun⟩

/-- A call whose bytes have a frame that is rejected. -/
theorem readReply_rejected {n : Nat} {x : Finding} (hlook : lookFrame false false w = .emit n x)
    (hret : x.ret ≠ .ok) : readReply userCtx port = some (.failed x.ret) := by
  have hhunt : (frames false false).hunt ([] ++ (port.avail :: port.reads).flatten) =
      (some (n, x), w) := by
    rw [List.nil_append, List.flatten_cons, hstream, hunt_noise hnoise]
    exact Scanner.hunt_of_emit _ hlook
  obtain ⟨forced, port', hawait⟩ := await_found (waiting_reset .zero) hhunt
  rw [readReply, hawait, replyOf, if_neg hret]
  rfl

/-- **Exactly when a message without its CRC is passed on**: when at least one byte of the CRC has
come, and the machine takes messages with this header, that is, there is room for the CRC and a
response has an id. -/
theorem missing_crc_tolerated_iff (hw : Headed w) (hbody : bodyEnd w ≤ w.length)
    (hcrc : w.length < bodyEnd w + crcSize) :
    Tolerated userCtx port w ↔
      bodyEnd w < w.length ∧ bodyEnd w + crcSize ≤ bufSize ∧ ResponseFits w := by
  rcases lookFrame_cases false false w with ⟨hno, -⟩ | ⟨-, -, hlook⟩ | ⟨-, -, hsize, hlook⟩
  · exact absurd hw.synced hno
  · obtain ⟨sm, ctx, hread, hwaiting, hbegun⟩ :=
      readReply_pending userCtx hstream hnoise hlook
    rw [← hwaiting.awaits_crc_iff hbegun hw hbody]
    constructor
    · rintro ⟨ctx', hpassed, -⟩
      by_cases hfill : sm.state = .fill ∧ sm.target = .crc
      · obtain ⟨hfit, hresponse, -⟩ := hwaiting.passes userCtx hfill
        exact ⟨hfill, hfit, hresponse⟩
      · rw [hread, hwaiting.times_out userCtx hfill] at hpassed
        cases hpassed
    · rintro ⟨hfill, -, -⟩
      obtain ⟨-, -, ctx', hpassed, hskip, hid, hlength, hresponse⟩ :=
        hwaiting.passes userCtx hfill
      exact ⟨ctx', by rw [hread, hpassed], hskip, hid, hlength, hresponse, leftToHandlers hskip⟩
  · have hret : (judge false w).ret ≠ .ok := by
      have hext : (extent w).ret ≠ .ok := by
        intro hok
        have hbad := hw.size_of_ok hok
        omega
      rw [judge]
      dsimp only
      rwa [if_pos hext]
    refine iff_of_false ?_ ?_
    · rintro ⟨ctx', hpassed, -⟩
      rw [readReply_rejected userCtx hstream hnoise hlook hret] at hpassed
      cases hpassed
    · rintro ⟨-, hfit, hresponse⟩
      rw [hw.extent_ok hfit hresponse] at hsize
      exact absurd hsize (Nat.not_le.2 hcrc)

/-- **A message that ends with its body is a timeout.** -/
theorem bare_message_times_out (hw : Headed w) (hbody : w.length = bodyEnd w)
    (hfit : bodyEnd w + crcSize ≤ bufSize) (hresponse : ResponseFits w) :
    readReply userCtx port = some .timeout := by
  have hmore : lookFrame false false w = .more :=
    lookFrame_more hw.synced
      (.inr (hw.lt_extent (.inl ⟨by rw [crcSize]; omega, hfit, hresponse⟩)))
  obtain ⟨sm, ctx, hread, hwaiting, hbegun⟩ := readReply_pending userCtx hstream hnoise hmore
  have hfill : ¬(sm.state = .fill ∧ sm.target = .crc) := by
    rw [hwaiting.awaits_crc_iff hbegun hw (Nat.le_of_eq hbody.symm)]
    omega
  rw [hread, hwaiting.times_out userCtx hfill]

end Call

/-- A message of four bytes, without its CRC. -/
def bareMessage : List UInt8 :=
  [0xAA, 0x44, 0x12, 28, 42, 0, 0, 0xC0, 4, 0] ++ List.replicate 18 0 ++ [1, 2, 3, 4]

theorem headed_bareMessage (crc : List UInt8) : Headed (bareMessage ++ crc) where
  synced := by
    rw [Synced]
    exact List.prefix_refl syncBytes
  header := by
    rw [List.length_append]
    exact Nat.le_trans (by decide) (Nat.le_add_right _ _)
  size := rfl

/-- With one byte of the CRC it is passed on, wherever the reads split it. -/
theorem missing_crc_tolerated_oneByte :
    Tolerated true ⟨[], [bareMessage.take 30, bareMessage.drop 30, [7]]⟩ (bareMessage ++ [7]) :=
  (missing_crc_tolerated_iff true (show _ = [] ++ (bareMessage ++ [7]) from rfl) (by simp)
    (headed_bareMessage [7]) (by decide) (by decide)).2 ⟨by decide, by decide, fun _ => by decide⟩

/-- With none it is a timeout. -/
theorem missing_crc_not_tolerated : ∃ port w, Headed w ∧ port.avail ++ port.reads.flatten = w ∧
    w.length = bodyEnd w ∧ readReply true port = some .timeout ∧ ¬Tolerated true port w := by
  have htimeout : readReply true ⟨[], [bareMessage]⟩ = some .timeout := by decide +kernel
  refine ⟨⟨[], [bareMessage]⟩, bareMessage ++ [], headed_bareMessage [], by simp, rfl, htimeout, ?_⟩
  rintro ⟨ctx, hpassed, -⟩
  rw [htimeout] at hpassed
  cases hpassed

end Oem
end FlightApps
