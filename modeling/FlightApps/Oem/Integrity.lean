import FlightApps.Oem.Hunting

/-!
# What the state machine of the receiver driver keeps

As long as it is reset after a message before it is fed again, as `oem_task_read_single_reply` does,
`sm_feed` returns none of the errors that its comment calls apparent bugs, its counters stay inside
the buffer in every turn of its loop, and the message it makes ready with its CRC checked is a piece
of the stream that is one: sync bytes, header, body and CRC.  Without the reset the next call
returns `OEM_ERR_LOG_SM_STATE` (`ready_machine_rejects`).

In the other direction, the bytes that `oem_cmd_publish` writes become one message, in whatever
pieces they are fed (`feedPieces_cmdPacket`).
-/

set_option autoImplicit false

namespace FlightApps
namespace Oem

/-! ## Runs -/

/-- The machine with its context, and the bytes it has taken since it was reset or has rejected
some; no code reads them. -/
structure Line where
  sm : StateMachine
  ctx : Context
  taken : List UInt8

/-- What pieces lead to from the reset state, with no piece fed to a machine with a message. -/
inductive Reached : Line → Prop
  | reset (ctx : Context) : Reached ⟨smReset, ctx, []⟩
  | feed {l : Line} {piece : List UInt8} {ret : Status} {f : Feed} (h : Reached l)
      (hready : l.sm.state ≠ .messageReady) (hfeed : smFeed l.sm piece l.ctx = some (ret, f)) :
      Reached ⟨f.sm, f.ctx, if ret = .ok then l.taken ++ piece.take f.i else []⟩

/-- The state a number of turns later, while the call goes on and where it stops. -/
def Feed.after (data : List UInt8) : Nat → Feed → Option Feed
  | 0, f => some f
  | n + 1, f =>
    if Running data f then
      match turn data f with
      | .next f => after data n f
      | .stop _ f => if n = 0 then some f else none
    else none

/-- A whole message: the sync bytes, a header whose length field is its size, a body as long as it
says and a CRC that matches. -/
structure IsMessage (bs : List UInt8) : Prop where
  sync : syncBytes <+: bs
  header : (headerLength bs).toNat = headerSize
  length : bs.length = headerSize + (messageLength bs).toNat + crcSize
  crc : CrcMatches bs

/-- A call of `sm_feed` as it should be. -/
structure Sound (l : Line) (piece : List UInt8) (ret : Status) (f : Feed) : Prop where
  /-- No error that is an apparent bug. -/
  external : ret.internal = false
  /-- In every turn the counters stay inside the buffer. -/
  fits : ∀ n g, Feed.after piece n ⟨l.sm, l.ctx, 0⟩ = some g → g.sm.held + g.sm.need ≤ bufSize
  /-- A message that becomes ready with its CRC checked is one, and the last bytes taken. -/
  message : f.sm.state = .messageReady → l.ctx.crcReadSkipped = false →
    IsMessage f.sm.bytes ∧ f.sm.bytes <:+ l.taken ++ piece.take f.i

/-! ## Commands -/

/-- `OEM_MISSION_MSGTYPE`. -/
def missionMsgtype : UInt8 := 0

/-- `OEM_PORT_THIS`. -/
def portThis : UInt8 := 0xC0

/-- The header of a command; the fields that are not set are zero. -/
def cmdHeader (msgId bodySize : UInt16) : List UInt8 :=
  syncBytes ++ [UInt8.ofNat headerSize] ++ Layout.u16.bytes msgId ++ [missionMsgtype, portThis] ++
    Layout.u16.bytes bodySize ++ List.replicate 18 0

/-- The packet that `oem_cmd_publish` writes; without a body its bytes are zero. -/
def cmdPacket (msgId bodySize : UInt16) (body : Option (List UInt8)) : List UInt8 :=
  let cmd := cmdHeader msgId bodySize ++
    match body with
    | some body => body.take bodySize.toNat
    | none => List.replicate bodySize.toNat 0
  cmd ++ Layout.u32.bytes (oemCrc32 cmd)

/-- Feed piece after piece: for each the code and the number of bytes consumed, and the machine and
the context at the end. -/
def feedPieces (sm : StateMachine) (ctx : Context) :
    List (List UInt8) → Option (List (Status × Nat) × StateMachine × Context)
  | [] => some ([], sm, ctx)
  | piece :: pieces =>
    (smFeed sm piece ctx).bind fun r =>
      (feedPieces r.2.sm r.2.ctx pieces).map fun rs => ((r.1, r.2.i) :: rs.1, rs.2)

/-- The body in a message. -/
def bodyOf (bs : List UInt8) : List UInt8 :=
  (bs.drop headerSize).take (messageLength bs).toNat

/-! ## Reached machines -/

theorem Stage.crcReadSkipped {ctx ctx' : Context} {w rest : List UInt8} {state : State}
    {target : Target} {need : Nat} (h : Stage ctx w rest state target need ctx') :
    ctx'.crcReadSkipped = ctx.crcReadSkipped := by
  cases h <;> rfl

theorem Waiting.crcReadSkipped {ctx₀ ctx : Context} {w : List UInt8} {sm : StateMachine}
    (h : Waiting ctx₀ w sm ctx) : ctx.crcReadSkipped = ctx₀.crcReadSkipped :=
  (h.holds []).stage.crcReadSkipped

theorem Waiting.fits {ctx₀ ctx : Context} {w : List UInt8} {sm : StateMachine}
    (h : Waiting ctx₀ w sm ctx) : sm.held + sm.need ≤ bufSize := by
  have hheld : sm.held = w.length := (h.holds []).held
  rw [hheld]
  exact (h.holds []).stage.fits

/-- A reached machine has a message, or it waits with some of the last bytes it has taken. -/
theorem Reached.waiting {l : Line} (h : Reached l) :
    l.sm.state = .messageReady ∨ ∃ ctx₀ w, Waiting ctx₀ w l.sm l.ctx ∧ w <:+ l.taken := by
  induction h with
  | reset ctx => exact .inr ⟨ctx, [], waiting_reset ctx, List.nil_suffix⟩
  | @feed l piece ret f _ hready hfeed ih =>
    obtain ⟨ctx₀, w, hw, htaken⟩ := ih.resolve_left hready
    rcases smFeed_spec hw hfeed with @⟨_, w', hi, hw', hhunt⟩ |
      @⟨_, _, w', hi, hdecided, hstopped, hhunt⟩
    · refine .inr ⟨ctx₀, w', hw', ?_⟩
      have hsuffix := (frames ctx₀.crcReadSkipped false).hunt_suffix (w ++ piece)
      rw [hhunt] at hsuffix
      obtain ⟨before, hbefore⟩ := htaken
      rw [if_pos rfl, hi, List.take_length, ← hbefore, List.append_assoc]
      exact hsuffix.trans (List.suffix_append before _)
    · by_cases hok : ret = .ok
      · exact .inl (hstopped.message hok).1
      · refine .inr ⟨f.ctx, [], ?_, List.nil_suffix⟩
        rw [(hstopped.error hok).1]
        exact waiting_reset f.ctx

theorem judge_external (skipCrc : Bool) (bs : List UInt8) :
    (judge skipCrc bs).ret.internal = false := by
  simp only [judge, extent]
  repeat' split
  all_goals rfl

/-- Only a header that announces no error announces a CRC. -/
theorem extent_of_ok {bs : List UInt8} (h : (extent bs).ret = .ok) :
    (headerLength bs).toNat = headerSize ∧ (extent bs).size = bodyEnd bs + crcSize := by
  by_cases hsize : (headerLength bs).toNat ≠ headerSize
  · rw [extent_of_size hsize] at h
    cases h
  refine ⟨not_not.1 hsize, ?_⟩
  simp only [extent] at h ⊢
  rw [if_neg hsize] at h ⊢
  split at h
  · cases h
  split at h
  · cases h
  split at h
  · cases h
  rename_i hlarge hshort hfull
  rw [if_neg hlarge, if_neg hshort, if_neg hfull]
  rfl

theorem judge_ok {bs : List UInt8} (h : (judge false bs).ret = .ok) :
    (extent bs).ret = .ok ∧ CrcMatches (bs.take (extent bs).size) := by
  rw [judge] at h
  dsimp only at h
  split at h
  · rename_i hret
    exact absurd h hret
  · rename_i hret
    split at h
    · rename_i hcrc
      exact ⟨not_not.1 hret, hcrc.resolve_left Bool.false_ne_true⟩
    · cases h

/-- What is judged to be a message, its CRC checked, is one. -/
theorem Decided.isMessage {w rest : List UInt8} (h : Decided false w rest .ok) : IsMessage w := by
  obtain ⟨hext, hcrc⟩ := judge_ok h.ret
  obtain ⟨hheader, hsize⟩ := extent_of_ok hext
  have hlong := headerSize_le_size w
  rw [h.size, List.take_length] at hcrc
  rw [h.size] at hsize hlong
  refine ⟨?_, hheader, hsize, hcrc⟩
  have hthree : (w.take 3).length = syncBytes.length := by
    rw [List.length_take, Nat.min_eq_left (Nat.le_trans (by decide) hlong)]
    rfl
  rw [← h.synced.eq_of_length hthree]
  exact List.take_prefix 3 w

/-- Every turn of a call keeps the counters inside the buffer. -/
theorem after_fits {ctx : Context} {data w : List UInt8} {f g : Feed} {n : Nat}
    (hi : f.i ≤ data.length) (h : Holds ctx w (data.drop f.i) f)
    (hafter : Feed.after data n f = some g) : g.sm.held + g.sm.need ≤ bufSize := by
  induction n generalizing f w with
  | zero =>
    cases hafter
    rw [h.held]
    exact h.stage.fits
  | succ n ih =>
    rw [Feed.after] at hafter
    split at hafter
    · rename_i hrun
      have hturn := turn_spec hi hrun h
      split at hafter
      · rename_i f' hnext
        rw [hnext] at hturn
        obtain ⟨hi', w', h', -⟩ := hturn
        exact ih hi' h' hafter
      · rename_i ret f' hstop
        rw [hstop] at hturn
        obtain ⟨-, hdecided, hstopped⟩ := hturn
        split at hafter
        · cases hafter
          by_cases hok : ret = .ok
          · obtain ⟨-, -, hheld, hneed, -⟩ := hstopped.message hok
            rw [hheld, hneed, ← hdecided.size]
            exact size_le_bufSize w
          · rw [(hstopped.error hok).1]
            exact Nat.zero_le _
        · cases hafter
    · cases hafter

/-- **Every call in a run is sound.** -/
theorem Reached.sound {l : Line} (h : Reached l) (hready : l.sm.state ≠ .messageReady)
    {piece : List UInt8} {ret : Status} {f : Feed}
    (hfeed : smFeed l.sm piece l.ctx = some (ret, f)) : Sound l piece ret f := by
  obtain ⟨ctx₀, w, hw, htaken⟩ := h.waiting.resolve_left hready
  have hfits : ∀ n g, Feed.after piece n ⟨l.sm, l.ctx, 0⟩ = some g →
      g.sm.held + g.sm.need ≤ bufSize := fun n g hafter =>
    after_fits (f := ⟨l.sm, l.ctx, 0⟩) (Nat.zero_le _) (hw.holds piece) hafter
  rcases smFeed_spec hw hfeed with @⟨_, w', hi, hw', hhunt⟩ |
    @⟨_, _, w', hi, hdecided, hstopped, hhunt⟩
  · exact ⟨rfl, hfits, fun hmessage => absurd hmessage hw'.not_ready⟩
  · refine ⟨hdecided.ret ▸ judge_external _ _, hfits, fun hmessage hskip => ?_⟩
    have hok : ret = .ok := by
      by_contra hno
      rw [(hstopped.error hno).1] at hmessage
      cases hmessage
    subst hok
    rw [(hstopped.message rfl).2.1]
    rw [hw.crcReadSkipped] at hskip
    refine ⟨(hskip ▸ hdecided).isMessage, ?_⟩
    obtain ⟨pre, hpre⟩ := (frames ctx₀.crcReadSkipped false).hunt_suffix (w ++ piece)
    obtain ⟨before, hbefore⟩ := htaken
    rw [hhunt] at hpre
    refine ⟨before ++ pre, (List.append_left_inj (piece.drop f.i)).1 ?_⟩
    rw [← hbefore, List.append_assoc, List.append_assoc, List.append_assoc, List.append_assoc,
      List.take_append_drop, ← hpre]

/-! ## Commands become messages -/

section Packet

variable (msgId bodySize : UInt16) (rest : List UInt8)

theorem length_cmdHeader : (cmdHeader msgId bodySize).length = headerSize := by
  simp only [cmdHeader, List.length_append, Layout.length_bytes, List.length_replicate]
  rfl

theorem headerLength_cmdHeader : headerLength (cmdHeader msgId bodySize ++ rest) = 28 := rfl

theorem messageType_cmdHeader :
    messageType (cmdHeader msgId bodySize ++ rest) = missionMsgtype := rfl

theorem hasResponseBit_cmdHeader :
    hasResponseBit (cmdHeader msgId bodySize ++ rest) = false := by
  rw [hasResponseBit, messageType_cmdHeader]
  rfl

theorem messageID_cmdHeader : messageID (cmdHeader msgId bodySize ++ rest) = msgId :=
  Layout.u16.read_bytes msgId _

theorem messageLength_cmdHeader :
    messageLength (cmdHeader msgId bodySize ++ rest) = bodySize :=
  Layout.u16.read_bytes bodySize _

theorem headed_cmdHeader : Headed (cmdHeader msgId bodySize ++ rest) where
  synced := by
    rw [Synced]
    exact List.prefix_refl syncBytes
  header := by
    rw [List.length_append, length_cmdHeader]
    exact Nat.le_add_right _ _
  size := by rw [headerLength_cmdHeader]; rfl

variable {msgId bodySize} {body : List UInt8}

/-- The packet of a command with all of its body. -/
theorem cmdPacket_eq (hbody : body.length = bodySize.toNat) :
    cmdPacket msgId bodySize (some body) = cmdHeader msgId bodySize ++
      (body ++ Layout.u32.bytes (oemCrc32 (cmdHeader msgId bodySize ++ body))) := by
  rw [cmdPacket, ← hbody, List.take_length, List.append_assoc]

theorem length_cmdPacket (hbody : body.length = bodySize.toNat) :
    (cmdPacket msgId bodySize (some body)).length = headerSize + bodySize.toNat + crcSize := by
  have hcrc : (Layout.u32.bytes (oemCrc32 (cmdHeader msgId bodySize ++ body))).length = crcSize :=
    Layout.length_bytes _ _
  rw [cmdPacket_eq hbody, List.length_append, List.length_append, length_cmdHeader, hcrc, hbody,
    Nat.add_assoc]

theorem bodyOf_cmdPacket (hbody : body.length = bodySize.toNat) :
    bodyOf (cmdPacket msgId bodySize (some body)) = body := by
  rw [bodyOf, cmdPacket_eq hbody, messageLength_cmdHeader,
    List.drop_left' (length_cmdHeader msgId bodySize), List.take_left' hbody]

theorem crcMatches_cmdPacket (hbody : body.length = bodySize.toNat) :
    CrcMatches (cmdPacket msgId bodySize (some body)) := by
  have hlen : (cmdHeader msgId bodySize ++ body).length = headerSize + bodySize.toNat := by
    rw [List.length_append, length_cmdHeader, hbody]
  rw [CrcMatches, length_cmdPacket hbody, Nat.add_sub_cancel, cmdPacket_eq hbody,
    ← List.append_assoc, List.drop_left' hlen, List.take_left' hlen]
  have hread := Layout.u32.read_bytes (oemCrc32 (cmdHeader msgId bodySize ++ body)) []
  rwa [List.append_nil] at hread

/-- The scanner finds a packet whole, and as a message. -/
theorem decided_cmdPacket (skipCrc : Bool) (hbody : body.length = bodySize.toNat)
    (hfit : headerSize + bodySize.toNat + crcSize ≤ bufSize) :
    Decided skipCrc (cmdPacket msgId bodySize (some body)) [] .ok := by
  have hw : Headed (cmdPacket msgId bodySize (some body)) := by
    rw [cmdPacket_eq hbody]
    exact headed_cmdHeader _ _ _
  have hend : bodyEnd (cmdPacket msgId bodySize (some body)) = headerSize + bodySize.toNat := by
    rw [bodyEnd, cmdPacket_eq hbody, messageLength_cmdHeader]
  have hresponse : ResponseFits (cmdPacket msgId bodySize (some body)) := by
    intro hbit
    rw [cmdPacket_eq hbody, hasResponseBit_cmdHeader] at hbit
    cases hbit
  have hext := hw.extent_ok (by rw [hend]; exact hfit) hresponse
  have hlen : (cmdPacket msgId bodySize (some body)).length =
    headerSize + bodySize.toNat + crcSize := length_cmdPacket hbody
  rw [hend, ← hlen] at hext
  refine ⟨hw.synced, by rw [hext], fun hlate => ?_, ?_⟩
  · rw [hext] at hlate
    cases hlate
  · rw [judge, hext]
    dsimp only
    rw [if_neg (not_not.2 rfl), List.take_length]
    exact if_pos (.inr (crcMatches_cmdPacket hbody))

end Packet

/-- The beginning of a packet asks for more. -/
theorem Decided.look_prefix {skipCrc : Bool} {packet pre post : List UInt8} {ret : Status}
    (h : Decided skipCrc packet [] ret) (hsplit : pre ++ post = packet) (hpost : post ≠ []) :
    lookFrame skipCrc false pre = .more := by
  have hall : (frames skipCrc false).look (pre ++ post) =
      .emit packet.length (judge skipCrc packet) := by
    rw [hsplit]
    have := h.look
    rwa [List.append_nil] at this
  refine Scanner.look_of_append _ hall ?_
  have := List.length_pos_iff.2 hpost
  rw [← hsplit, List.length_append]
  omega

section Feeding

variable {ctx₀ ctx : Context} {sm : StateMachine} {w piece packet : List UInt8}

/-- A piece that does not complete the packet is taken. -/
theorem smFeed_begins (h : Waiting ctx₀ w sm ctx)
    (hmore : lookFrame ctx₀.crcReadSkipped false (w ++ piece) = .more) :
    ∃ f, smFeed sm piece ctx = some (.ok, f) ∧ f.i = piece.length ∧
      Waiting ctx₀ (w ++ piece) f.sm f.ctx := by
  obtain ⟨⟨ret, f⟩, hfeed⟩ := smFeed_isSome sm piece ctx
  have hhunt' := Scanner.hunt_of_more (frames ctx₀.crcReadSkipped false) hmore
  rcases smFeed_spec h hfeed with @⟨_, w', hi, hw', hhunt⟩ |
    @⟨_, _, w', hi, hdecided, hstopped, hhunt⟩
  · rw [hhunt'] at hhunt
    rw [← (Prod.mk.inj hhunt).2] at hw'
    exact ⟨f, hfeed, hi, hw'⟩
  · rw [hhunt'] at hhunt
    cases hhunt

/-- The piece that completes the packet is taken, and the packet is ready. -/
theorem smFeed_completes (h : Waiting ctx₀ w sm ctx)
    (hpacket : Decided ctx₀.crcReadSkipped packet [] .ok) (hsplit : w ++ piece = packet) :
    ∃ f, smFeed sm piece ctx = some (.ok, f) ∧ f.i = piece.length ∧
      Stopped ctx₀ packet .ok f := by
  obtain ⟨⟨ret, f⟩, hfeed⟩ := smFeed_isSome sm piece ctx
  have hlook := hpacket.look
  rw [List.append_nil] at hlook
  have hhunt' := Scanner.hunt_of_emit (frames ctx₀.crcReadSkipped false) hlook
  rcases smFeed_spec h hfeed with @⟨_, w', hi, hw', hhunt⟩ |
    @⟨_, _, w', hi, hdecided, hstopped, hhunt⟩
  · rw [hsplit, hhunt'] at hhunt
    cases hhunt
  · rw [hsplit, hhunt', Prod.mk.injEq, Option.some.injEq, Prod.mk.injEq] at hhunt
    obtain ⟨⟨hlen, -⟩, hrest⟩ := hhunt
    have hdone : piece.drop f.i = [] := by
      have := congrArg List.length hrest
      rw [List.length_append, hlen] at this
      exact List.length_eq_zero_iff.1 (by omega)
    have hw : w' = packet := by rw [hrest, hdone, List.append_nil]
    subst hw
    have hret : ret = .ok := hdecided.ret.symm.trans hpacket.ret
    subst hret
    exact ⟨f, hfeed, Nat.le_antisymm hi (List.drop_eq_nil_iff.1 hdone), hstopped⟩

/-- Empty pieces do nothing to a machine with a message. -/
theorem feedPieces_idle {pieces : List (List UInt8)} (hstate : sm.state = .messageReady)
    (hpieces : pieces.flatten = []) :
    feedPieces sm ctx pieces = some (pieces.map fun piece => (.ok, piece.length), sm, ctx) := by
  induction pieces with
  | nil => rfl
  | cons piece pieces ih =>
    rw [List.flatten_cons, List.append_eq_nil_iff] at hpieces
    obtain ⟨rfl, hpieces⟩ := hpieces
    have hidle : smFeed sm [] ctx = some (.ok, ⟨sm, ctx, 0⟩) := by
      have hno : ¬Feed.Running [] ⟨sm, ctx, 0⟩ := by
        rintro (hlt | hvalidate)
        · exact absurd hlt (Nat.not_lt_zero _)
        · exact absurd (hstate.symm.trans hvalidate) (by decide)
      rw [smFeed, feedTurns, Feed.feedLoop, if_neg hno]
    rw [feedPieces, hidle, Option.bind_some, ih hpieces]
    rfl

/-- Pieces of a packet are taken as long as it is not complete. -/
theorem feedPieces_begins (hpacket : Decided ctx₀.crcReadSkipped packet [] .ok)
    {pieces : List (List UInt8)} {rest : List UInt8} (h : Waiting ctx₀ w sm ctx)
    (hsplit : w ++ pieces.flatten ++ rest = packet) (hrest : rest ≠ []) :
    ∃ sm' ctx', feedPieces sm ctx pieces =
        some (pieces.map fun piece => (.ok, piece.length), sm', ctx') ∧
      Waiting ctx₀ (w ++ pieces.flatten) sm' ctx' := by
  induction pieces generalizing sm ctx w with
  | nil =>
    refine ⟨sm, ctx, rfl, ?_⟩
    rwa [List.flatten_nil, List.append_nil]
  | cons piece pieces ih =>
    rw [List.flatten_cons, ← List.append_assoc] at hsplit ⊢
    have hall : w ++ piece ++ (pieces.flatten ++ rest) = packet := by
      rw [← hsplit, List.append_assoc (w ++ piece)]
    have hmore := hpacket.look_prefix hall (List.append_ne_nil_of_right_ne_nil _ hrest)
    obtain ⟨f, hfeed, hi, hw'⟩ := smFeed_begins h hmore
    obtain ⟨sm', ctx', hrun, hwaiting⟩ := ih hw' hsplit
    refine ⟨sm', ctx', ?_, hwaiting⟩
    rw [feedPieces, hfeed, Option.bind_some, hrun, Option.map_some, hi]
    rfl

/-- Pieces that make up a packet make it ready. -/
theorem feedPieces_completes (hpacket : Decided ctx₀.crcReadSkipped packet [] .ok)
    {pieces : List (List UInt8)} (h : Waiting ctx₀ w sm ctx)
    (hsplit : w ++ pieces.flatten = packet) (hbegun : w ≠ packet) :
    ∃ f, feedPieces sm ctx pieces =
        some (pieces.map fun piece => (.ok, piece.length), f.sm, f.ctx) ∧
      Stopped ctx₀ packet .ok f := by
  induction pieces generalizing sm ctx w with
  | nil => exact absurd ((List.append_nil w).symm.trans hsplit) hbegun
  | cons piece pieces ih =>
    rw [List.flatten_cons, ← List.append_assoc] at hsplit
    by_cases hdone : pieces.flatten = []
    · rw [hdone, List.append_nil] at hsplit
      obtain ⟨f, hfeed, hi, hstopped⟩ := smFeed_completes h hpacket hsplit
      refine ⟨f, ?_, hstopped⟩
      rw [feedPieces, hfeed, Option.bind_some,
        feedPieces_idle (hstopped.message rfl).1 hdone, Option.map_some, hi]
      rfl
    · obtain ⟨f, hfeed, hi, hw'⟩ := smFeed_begins h (hpacket.look_prefix hsplit hdone)
      have hne : w ++ piece ≠ packet := by
        intro heq
        rw [heq] at hsplit
        exact hdone (List.append_right_eq_self.1 hsplit)
      obtain ⟨f', hrun, hstopped⟩ := ih hw' hsplit hne
      refine ⟨f', ?_, hstopped⟩
      rw [feedPieces, hfeed, Option.bind_some, hrun, Option.map_some, hi]
      rfl

end Feeding

/-! ## The main result -/

/-- Pieces of a packet become one message with its id and its body: all bytes are taken, a message
is ready at the end, and none before the packet is complete. -/
structure Delivered (msgId : UInt16) (body packet : List UInt8) (ctx : Context)
    (pieces : List (List UInt8)) : Prop where
  ready : ∃ sm ctx', feedPieces smReset ctx pieces =
      some (pieces.map fun piece => (.ok, piece.length), sm, ctx') ∧
    sm.state = .messageReady ∧ messageID sm.bytes = msgId ∧ bodyOf sm.bytes = body ∧
      ctx'.messageId = msgId.toInt16 ∧ ctx'.messageLength.toNat = body.length
  only : ∀ pre, pre <+: pieces → pre.flatten.length < packet.length →
    ∃ sm ctx', feedPieces smReset ctx pre =
        some (pre.map fun piece => (.ok, piece.length), sm, ctx') ∧ sm.state ≠ .messageReady

theorem noteMessage_messageId (ctx : Context) (bs : List UInt8) :
    (noteMessage ctx bs).messageId = (messageID bs).toInt16 := by
  rw [noteMessage, noteCrc]
  split <;> rfl

theorem noteMessage_messageLength (ctx : Context) (bs : List UInt8) :
    (noteMessage ctx bs).messageLength = messageLength bs := by
  rw [noteMessage, noteCrc]
  split <;> rfl

theorem feedPieces_cmdPacket {msgId bodySize : UInt16} {body : List UInt8}
    (hbody : body.length = bodySize.toNat)
    (hfit : headerSize + bodySize.toNat + crcSize ≤ bufSize) (ctx : Context)
    {pieces : List (List UInt8)} (hpieces : pieces.flatten = cmdPacket msgId bodySize (some body)) :
    Delivered msgId body (cmdPacket msgId bodySize (some body)) ctx pieces := by
  have hpacket : Decided ctx.crcReadSkipped (cmdPacket msgId bodySize (some body)) [] .ok :=
    decided_cmdPacket ctx.crcReadSkipped hbody hfit
  have hne : [] ≠ cmdPacket msgId bodySize (some body) := by
    intro h
    have hlen : (cmdPacket msgId bodySize (some body)).length =
      headerSize + bodySize.toNat + crcSize := length_cmdPacket hbody
    rw [← h, List.length_nil, headerSize] at hlen
    omega
  constructor
  · obtain ⟨f, hrun, hstopped⟩ :=
      feedPieces_completes hpacket (waiting_reset ctx) hpieces hne
    obtain ⟨hstate, hbytes, -, -, hctx⟩ := hstopped.message rfl
    have hid : messageID (cmdPacket msgId bodySize (some body)) = msgId := by
      rw [cmdPacket_eq hbody, messageID_cmdHeader]
    have hlength : messageLength (cmdPacket msgId bodySize (some body)) = bodySize := by
      rw [cmdPacket_eq hbody, messageLength_cmdHeader]
    refine ⟨f.sm, f.ctx, hrun, hstate, ?_, ?_, ?_, ?_⟩
    · rw [hbytes, hid]
    · rw [hbytes, bodyOf_cmdPacket hbody]
    · rw [hctx, noteMessage_messageId, hid]
    · rw [hctx, noteMessage_messageLength, hlength, hbody]
  · intro pre hpre hlt
    obtain ⟨post, rfl⟩ := hpre
    rw [List.flatten_append] at hpieces
    have hrest : post.flatten ≠ [] := by
      intro h
      rw [h, List.append_nil] at hpieces
      rw [hpieces] at hlt
      exact absurd hlt (Nat.lt_irrefl _)
    obtain ⟨sm, ctx', hrun, hwaiting⟩ :=
      feedPieces_begins hpacket (waiting_reset ctx) hpieces hrest
    exact ⟨sm, ctx', hrun, hwaiting.not_ready⟩

/-- **Integrity of the state machine**: from the reset state, and reset after every message, each
call ends and is sound; and the packet of a command that fits the buffer becomes one message with
its id and its body, in whatever pieces it comes. -/
theorem feed_integrity :
    (∀ l piece, Reached l → l.sm.state ≠ .messageReady →
      ∃ ret f, smFeed l.sm piece l.ctx = some (ret, f) ∧ Sound l piece ret f) ∧
    ∀ (msgId bodySize : UInt16) (body : List UInt8), body.length = bodySize.toNat →
      headerSize + bodySize.toNat + crcSize ≤ bufSize → ∀ ctx pieces,
        pieces.flatten = cmdPacket msgId bodySize (some body) →
          Delivered msgId body (cmdPacket msgId bodySize (some body)) ctx pieces := by
  constructor
  · intro l piece h hready
    obtain ⟨⟨ret, f⟩, hfeed⟩ := smFeed_isSome l.sm piece l.ctx
    exact ⟨ret, f, hfeed, h.sound hready hfeed⟩
  · intro msgId bodySize body hbody hfit ctx pieces hpieces
    exact feedPieces_cmdPacket hbody hfit ctx hpieces

/-- A machine that was reset takes its first byte, and a command without a body becomes a message.
-/
theorem reset_machine_sound :
    (∃ ret f, smFeed smReset [syncByte1] .zero = some (ret, f) ∧
      Sound ⟨smReset, .zero, []⟩ [syncByte1] ret f) ∧
    Delivered 42 [] (cmdPacket 42 0 (some [])) .zero [cmdPacket 42 0 (some [])] :=
  ⟨feed_integrity.1 ⟨smReset, .zero, []⟩ [syncByte1] (.reset .zero) (by decide),
    feed_integrity.2 42 0 [] rfl (by decide) .zero [cmdPacket 42 0 (some [])] (by decide +kernel)⟩

/-- A machine that has a message ready and is fed without a reset returns
`OEM_ERR_LOG_SM_STATE`. -/
theorem ready_machine_rejects :
    ¬∀ ctx pieces codes sm ctx', feedPieces smReset ctx pieces = some (codes, sm, ctx') →
      ∀ c ∈ codes, c.1.internal = false := by
  intro h
  have hcodes : (feedPieces smReset .zero [cmdPacket 42 0 (some []), [0]]).map Prod.fst =
      some [(.ok, 32), (.smState, 0)] := by
    decide +kernel
  rw [Option.map_eq_some_iff] at hcodes
  obtain ⟨⟨codes, sm, ctx'⟩, hrun, heq⟩ := hcodes
  dsimp only at heq
  subst heq
  exact absurd (h _ _ _ _ _ hrun (.smState, 0) (by simp)) (by decide)

end Oem
end FlightApps
