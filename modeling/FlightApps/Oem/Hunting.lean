import FlightApps.Oem.Frames

/-!
# The state machine hunts for the next frame

`Holds` is the invariant that links the buffer, the counters, the state, the target and the context
of the machine to the bytes `w` it has kept of the stream: one case of `Stage` for every state and
target it can be in.  Each turn of the loop keeps `w` and the bytes to come in the same hunt for a
frame, or stops at the frame it has found (`turn_spec`), and so does a whole call (`smFeed_spec`).
-/

set_option autoImplicit false

namespace FlightApps
namespace Oem

/-! ## What the machine has noted -/

/-- The context with the fields of a header. -/
def noteHeader (ctx : Context) (bs : List UInt8) : Context :=
  { ctx with
    messageId := (messageID bs).toInt16
    messageLength := messageLength bs
    isResponse := hasResponseBit bs }

/-- The context with the response id, where there is one. -/
def noteBody (ctx : Context) (bs : List UInt8) : Context :=
  { ctx with responseId := if ctx.isResponse then responseId bs else ctx.responseId }

/-- The context with the two CRCs, if they were compared. -/
def noteCrc (ctx : Context) (bs : List UInt8) : Context :=
  if ctx.crcReadSkipped then ctx
  else
    { ctx with
      crcCalced := oemCrc32 (bs.take (bs.length - crcSize))
      crcReceived := Layout.u32.read (bs.drop (bs.length - crcSize)) }

/-- The context that a message leaves behind. -/
def noteMessage (ctx : Context) (bs : List UInt8) : Context :=
  noteCrc (noteBody (noteHeader ctx bs) bs) bs

namespace Headed

variable {w : List UInt8} (hw : Headed w)

include hw

theorem noteHeader_append (ctx : Context) (cs : List UInt8) :
    noteHeader ctx (w ++ cs) = noteHeader ctx w := by
  rw [noteHeader, messageID_append cs hw.header, messageLength_append cs hw.header,
    hasResponseBit_append cs hw.header, noteHeader]

theorem noteBody_append (ctx : Context) (cs : List UInt8) (hresponse : ResponseFits w)
    (hbody : bodyEnd w ≤ w.length) :
    noteBody (noteHeader ctx (w ++ cs)) (w ++ cs) = noteBody (noteHeader ctx w) w := by
  rw [hw.noteHeader_append, noteBody, noteBody]
  by_cases hbit : hasResponseBit w = true
  · rw [responseId_append cs (Nat.le_trans (hresponse hbit) hbody)]
  · rw [show (noteHeader ctx w).isResponse = false from Bool.eq_false_iff.2 hbit]
    rfl

end Headed

/-! ## What the machine holds -/

/-- How far the machine is with the bytes `w` in its buffer, `need`, and what the context holds; a
body is empty only if there are bytes to come. -/
inductive Stage (ctx : Context) :
    List UInt8 → List UInt8 → State → Target → Nat → Context → Prop
  | searchAA (rest : List UInt8) : Stage ctx [] rest .searchAA .none 0 ctx
  | search44 (rest : List UInt8) : Stage ctx [syncByte1] rest .search44 .none 0 ctx
  | search12 (rest : List UInt8) : Stage ctx [syncByte1, syncByte2] rest .search12 .none 0 ctx
  | prepHeader (rest : List UInt8) : Stage ctx syncBytes rest .fillPrep .header 0 ctx
  | fillHeader {w : List UInt8} {need : Nat} (rest : List UInt8) (hsync : Synced w)
      (hthree : 3 ≤ w.length) (hneed : 0 < need) (hsize : w.length + need = headerSize) :
      Stage ctx w rest .fill .header need ctx
  | validateHeader {w : List UInt8} (rest : List UInt8) (hsync : Synced w)
      (hsize : w.length = headerSize) : Stage ctx w rest .fillValidate .header 0 ctx
  | prepBody {w : List UInt8} (rest : List UInt8) (hw : Headed w) (hsize : w.length = headerSize) :
      Stage ctx w rest .fillPrep .body 0 (noteHeader ctx w)
  | fillBody {w : List UInt8} {need : Nat} (rest : List UInt8) (hw : Headed w)
      (hfit : bodyEnd w ≤ bufSize) (hneed : need = 0 → w.length = headerSize)
      (hsize : w.length + need = bodyEnd w) : Stage ctx w rest .fill .body need (noteHeader ctx w)
  | validateBody {w rest : List UInt8} (hw : Headed w) (hfit : bodyEnd w ≤ bufSize)
      (hsize : w.length = bodyEnd w) (hlate : w.length = headerSize → rest ≠ []) :
      Stage ctx w rest .fillValidate .body 0 (noteHeader ctx w)
  | prepCrc {w : List UInt8} (rest : List UInt8) (hw : Headed w) (hfit : bodyEnd w ≤ bufSize)
      (hresponse : ResponseFits w) (hsize : w.length = bodyEnd w) :
      Stage ctx w rest .fillPrep .crc 0 (noteBody (noteHeader ctx w) w)
  | fillCrc {w : List UInt8} {need : Nat} (rest : List UInt8) (hw : Headed w)
      (hfit : bodyEnd w + crcSize ≤ bufSize) (hresponse : ResponseFits w) (hneed : 0 < need)
      (hbody : bodyEnd w ≤ w.length) (hsize : w.length + need = bodyEnd w + crcSize) :
      Stage ctx w rest .fill .crc need (noteBody (noteHeader ctx w) w)
  | validateCrc {w : List UInt8} (rest : List UInt8) (hw : Headed w)
      (hfit : bodyEnd w + crcSize ≤ bufSize) (hresponse : ResponseFits w)
      (hsize : w.length = bodyEnd w + crcSize) :
      Stage ctx w rest .fillValidate .crc 0 (noteBody (noteHeader ctx w) w)

/-- The machine holds `w`, with `rest` to come. -/
structure Holds (ctx : Context) (w rest : List UInt8) (f : Feed) : Prop where
  bytes : f.sm.bytes = w
  held : f.sm.held = w.length
  stage : Stage ctx w rest f.sm.state f.sm.target f.sm.need f.ctx

/-- **The counters stay inside the buffer.** -/
theorem Stage.fits {ctx ctx' : Context} {w rest : List UInt8} {state : State} {target : Target}
    {need : Nat} (h : Stage ctx w rest state target need ctx') : w.length + need ≤ bufSize := by
  have hheader : headerSize ≤ bufSize := by decide
  rcases h with _ | _ | _ | _ | ⟨_, _, _, _, hsize⟩ | ⟨_, _, hsize⟩ | ⟨_, _, hsize⟩ |
    ⟨_, _, hfit, _, hsize⟩ | ⟨_, hfit, hsize⟩ | ⟨_, _, hfit, _, hsize⟩ |
    ⟨_, _, hfit, _, _, _, hsize⟩ | ⟨_, _, hfit, _, hsize⟩
  · decide
  · decide
  · decide
  · decide
  all_goals omega

/-! ## One turn -/

/-- The bytes are judged together, with what follows them. -/
structure Decided (skipCrc : Bool) (w rest : List UInt8) (ret : Status) : Prop where
  synced : Synced w
  size : (extent w).size = w.length
  late : (extent w).late = true → rest ≠ []
  ret : (judge skipCrc w).ret = ret

theorem Decided.judge_bytes {skipCrc : Bool} {w rest : List UInt8} {ret : Status}
    (h : Decided skipCrc w rest ret) : (judge skipCrc w).bytes = w := by
  rw [judge, h.size, List.take_length]

theorem Decided.look {skipCrc : Bool} {w rest : List UInt8} {ret : Status}
    (h : Decided skipCrc w rest ret) :
    lookFrame skipCrc false (w ++ rest) = .emit w.length (judge skipCrc w) := by
  have hheader : headerSize ≤ w.length := h.size ▸ headerSize_le_size w
  have hlate : (extent w).late.toNat ≤ rest.length := by
    rcases hl : (extent w).late with _ | _
    · exact Nat.zero_le _
    · exact List.length_pos_iff.2 (h.late hl)
  rw [lookFrame_emit ((synced_append rest hheader).2 h.synced)
    (by rw [List.length_append]; omega)
    (by rw [extent_append rest hheader, List.length_append, h.size]; omega),
    extent_append rest hheader, judge_append rest skipCrc hheader (Nat.le_of_eq h.size), h.size]
  rfl

/-- What a call leaves behind when it stops: a message, or a machine that was reset. -/
structure Stopped (ctx : Context) (w : List UInt8) (ret : Status) (f : Feed) : Prop where
  message : ret = .ok → f.sm.state = .messageReady ∧ f.sm.bytes = w ∧ f.sm.held = w.length ∧
    f.sm.need = 0 ∧ f.ctx = noteMessage ctx w
  error : ret ≠ .ok → f.sm = smReset ∧ f.ctx.crcReadSkipped = ctx.crcReadSkipped

/-- What a turn leads to: it goes on in the same hunt, or it stops at what was hunted. -/
def Hunts (ctx : Context) (data : List UInt8) (w : List UInt8) (f : Feed) : Turn → Prop
  | .next f' => f'.i ≤ data.length ∧ ∃ w', Holds ctx w' (data.drop f'.i) f' ∧
      (frames ctx.crcReadSkipped false).hunt (w' ++ data.drop f'.i) =
        (frames ctx.crcReadSkipped false).hunt (w ++ data.drop f.i)
  | .stop ret f' => f'.i = f.i ∧ Decided ctx.crcReadSkipped w (data.drop f.i) ret ∧
      Stopped ctx w ret f'

section Turns

variable {ctx : Context} {data w : List UInt8} {i : Nat} {buffer : Vector UInt8 bufSize}

/-- The byte that the next turn looks at. -/
theorem drop_next {b : UInt8} (hlt : i < data.length) (hb : data.getD i 0 = b) :
    data.drop i = b :: data.drop (i + 1) := by
  rw [List.drop_eq_getElem_cons hlt, ← hb, List.getD_eq_getElem?_getD,
    List.getElem?_eq_getElem hlt, Option.getD_some]

/-- A byte that no frame starts with is passed over. -/
theorem hunt_skip {skipCrc drops : Bool} {b : UInt8} {bs : List UInt8} (h : ¬Synced (b :: bs)) :
    (frames skipCrc drops).hunt (b :: bs) = (frames skipCrc drops).hunt bs :=
  (frames skipCrc drops).hunt_of_skip (lookFrame_skip h)

theorem not_synced_head {b : UInt8} {bs : List UInt8} (h : b ≠ syncByte1) :
    ¬Synced (b :: bs) := by
  intro hsync
  rw [Synced, List.take_succ_cons, syncBytes, List.cons_prefix_cons] at hsync
  exact h hsync.1

theorem not_synced_second {b : UInt8} {bs : List UInt8} (h : b ≠ syncByte2) :
    ¬Synced (syncByte1 :: b :: bs) := by
  intro hsync
  rw [Synced, List.take_succ_cons, List.take_succ_cons, syncBytes, List.cons_prefix_cons,
    List.cons_prefix_cons] at hsync
  exact h hsync.2.1

theorem not_synced_third {b : UInt8} {bs : List UInt8} (h : b ≠ syncByte3) :
    ¬Synced (syncByte1 :: syncByte2 :: b :: bs) := by
  intro hsync
  rw [Synced, List.take_succ_cons, List.take_succ_cons, List.take_succ_cons, syncBytes,
    List.cons_prefix_cons, List.cons_prefix_cons, List.cons_prefix_cons] at hsync
  exact h hsync.2.2.1

theorem holds_reset {f' : Feed} {rest : List UInt8} (hsm : f'.sm = smReset) (hctx : f'.ctx = ctx) :
    Holds ctx [] rest f' where
  bytes := by rw [hsm]; rfl
  held := by rw [hsm]; rfl
  stage := by rw [hsm, hctx]; exact .searchAA rest

theorem searchAA_spec (hi : i < data.length) (hbytes : buffer.toList.take 0 = []) :
    Hunts ctx data [] ⟨⟨buffer, 0, 0, .searchAA, .none⟩, ctx, i⟩
      (Feed.searchAA data ⟨⟨buffer, 0, 0, .searchAA, .none⟩, ctx, i⟩) := by
  rw [Feed.searchAA]
  split <;> rename_i hb
  · refine ⟨hi, [syncByte1], ⟨?_, rfl, .search44 _⟩, ?_⟩
    · show (Cells.set buffer 0 syncByte1).toList.take (0 + 1) = _
      rw [Cells.take_set buffer syncByte1 (by decide), hbytes, List.nil_append]
    · rw [List.nil_append, drop_next hi hb]
      rfl
  · refine ⟨hi, [], ⟨hbytes, rfl, .searchAA _⟩, ?_⟩
    rw [List.nil_append, List.nil_append, drop_next hi rfl, hunt_skip (not_synced_head hb)]

theorem search44_spec (hi : i < data.length) (hbytes : buffer.toList.take 1 = [syncByte1]) :
    Hunts ctx data [syncByte1] ⟨⟨buffer, 0, 1, .search44, .none⟩, ctx, i⟩
      (Feed.search44 data ⟨⟨buffer, 0, 1, .search44, .none⟩, ctx, i⟩) := by
  rw [Feed.search44]
  split
  · rename_i hb
    refine ⟨hi, [syncByte1, syncByte2], ⟨?_, rfl, .search12 _⟩, ?_⟩
    · show (Cells.set buffer 1 syncByte2).toList.take (1 + 1) = _
      rw [Cells.take_set buffer syncByte2 (by decide), hbytes]
      rfl
    · rw [drop_next hi hb]
      rfl
  rename_i hno
  split <;> rename_i hb
  · refine ⟨hi, [syncByte1], ⟨hbytes, rfl, .search44 _⟩, ?_⟩
    have hsecond : ¬Synced (syncByte1 :: data.drop i) := by
      rw [drop_next hi rfl]
      exact not_synced_second hno
    show _ = (frames ctx.crcReadSkipped false).hunt (syncByte1 :: data.drop i)
    rw [hunt_skip hsecond, drop_next hi hb]
    rfl
  · refine ⟨Nat.le_of_lt hi, [], holds_reset rfl rfl, ?_⟩
    have hsecond : ¬Synced (syncByte1 :: data.drop i) := by
      rw [drop_next hi rfl]
      exact not_synced_second hno
    exact (hunt_skip hsecond).symm

theorem search12_spec (hi : i < data.length)
    (hbytes : buffer.toList.take 2 = [syncByte1, syncByte2]) :
    Hunts ctx data [syncByte1, syncByte2] ⟨⟨buffer, 0, 2, .search12, .none⟩, ctx, i⟩
      (Feed.search12 data ⟨⟨buffer, 0, 2, .search12, .none⟩, ctx, i⟩) := by
  rw [Feed.search12]
  split
  · rename_i hb
    refine ⟨hi, syncBytes, ⟨?_, rfl, .prepHeader _⟩, ?_⟩
    · show (Cells.set buffer 2 syncByte3).toList.take (2 + 1) = _
      rw [Cells.take_set buffer syncByte3 (by decide), hbytes]
      rfl
    · rw [drop_next hi hb]
      rfl
  rename_i hno
  have hthird : ¬Synced (syncByte1 :: syncByte2 :: data.drop i) := by
    rw [drop_next hi rfl]
    exact not_synced_third hno
  have hskip : (frames ctx.crcReadSkipped false).hunt (syncByte1 :: syncByte2 :: data.drop i) =
      (frames ctx.crcReadSkipped false).hunt (data.drop i) := by
    rw [hunt_skip hthird, hunt_skip (not_synced_head (by decide))]
  split <;> rename_i hb
  · refine ⟨hi, [syncByte1], ⟨?_, rfl, .search44 _⟩, ?_⟩
    · show buffer.toList.take 1 = _
      rw [show buffer.toList.take 1 = (buffer.toList.take 2).take 1 by rw [List.take_take]; rfl,
        hbytes]
      rfl
    · show _ = (frames ctx.crcReadSkipped false).hunt (syncByte1 :: syncByte2 :: data.drop i)
      rw [hskip, drop_next hi hb]
      rfl
  · exact ⟨Nat.le_of_lt hi, [], holds_reset rfl rfl, hskip.symm⟩

theorem decided_of_extent {skipCrc late : Bool} {rest : List UInt8} {size : Nat} {ret : Status}
    (hsync : Synced w) (he : extent w = ⟨size, late, ret⟩) (hsize : w.length = size)
    (hlate : late = true → rest ≠ []) (hret : ret ≠ .ok) : Decided skipCrc w rest ret where
  synced := hsync
  size := by rw [he]; exact hsize.symm
  late := by rw [he]; exact hlate
  ret := by
    rw [judge, he]
    exact if_pos hret

theorem stopped_fail {ctx' : Context} {ret : Status} {sm : StateMachine} (hret : ret ≠ .ok)
    (hskip : ctx'.crcReadSkipped = ctx.crcReadSkipped) :
    Stopped ctx w ret { (⟨sm, ctx', i⟩ : Feed) with sm := smReset } where
  message h := absurd h hret
  error _ := ⟨rfl, hskip⟩

theorem rest_ne_nil (hi : i < data.length) : data.drop i ≠ [] := by
  rw [Ne, List.drop_eq_nil_iff]
  omega

/-- The header in the buffer is that of the bytes in the buffer. -/
theorem messageLength_buffer {held : Nat} (hw : Headed w) (hbytes : buffer.toList.take held = w) :
    headerSize + (messageLength buffer.toList).toNat = bodyEnd w := by
  rw [bodyEnd, ← messageLength_append (buffer.toList.drop held) hw.header, ← hbytes,
    List.take_append_drop]

theorem prepHeader_spec (hi : i < data.length) (hbytes : buffer.toList.take 3 = syncBytes) :
    Hunts ctx data syncBytes ⟨⟨buffer, 0, 3, .fillPrep, .header⟩, ctx, i⟩
      (Feed.fillPrep ⟨⟨buffer, 0, 3, .fillPrep, .header⟩, ctx, i⟩) := by
  have hneed : 0 < headerSize - 3 := by decide
  have hsize : syncBytes.length + (headerSize - 3) = headerSize := by decide
  exact ⟨Nat.le_of_lt hi, syncBytes, ⟨hbytes, rfl,
    .fillHeader _ (by decide) (by decide) hneed hsize⟩, rfl⟩

theorem prepBody_spec {held : Nat} (hi : i < data.length) (hbytes : buffer.toList.take held = w)
    (hheld : held = w.length) (hw : Headed w) (hsize : w.length = headerSize) :
    Hunts ctx data w ⟨⟨buffer, 0, held, .fillPrep, .body⟩, noteHeader ctx w, i⟩
      (Feed.fillPrep ⟨⟨buffer, 0, held, .fillPrep, .body⟩, noteHeader ctx w, i⟩) := by
  have hexp : Feed.expected ⟨buffer, 0, held, .fillPrep, .body⟩ = some (bodyEnd w) :=
    congrArg some (messageLength_buffer hw hbytes)
  have hle : headerSize ≤ bodyEnd w := Nat.le_add_right _ _
  rw [Feed.fillPrep, hexp]
  dsimp only
  rw [if_neg (by omega)]
  split
  · rename_i hlarge
    exact ⟨rfl, decided_of_extent hw.synced (hw.extent_large hlarge) hsize
      (fun _ => rest_ne_nil hi) (by decide), stopped_fail (by decide) rfl⟩
  · rename_i hfit
    have hall : w.length + (bodyEnd w - held) = bodyEnd w := by omega
    exact ⟨Nat.le_of_lt hi, w, ⟨hbytes, hheld, .fillBody _ hw (Nat.le_of_not_lt hfit)
      (fun _ => hsize) hall⟩, rfl⟩

theorem prepCrc_spec {held : Nat} (hi : i < data.length) (hbytes : buffer.toList.take held = w)
    (hheld : held = w.length) (hw : Headed w) (hfit : bodyEnd w ≤ bufSize)
    (hresponse : ResponseFits w) (hsize : w.length = bodyEnd w) :
    Hunts ctx data w ⟨⟨buffer, 0, held, .fillPrep, .crc⟩, noteBody (noteHeader ctx w) w, i⟩
      (Feed.fillPrep ⟨⟨buffer, 0, held, .fillPrep, .crc⟩, noteBody (noteHeader ctx w) w, i⟩) := by
  have hexp : Feed.expected ⟨buffer, 0, held, .fillPrep, .crc⟩ = some (bodyEnd w + crcSize) :=
    congrArg (fun n => some (n + crcSize)) (messageLength_buffer hw hbytes)
  have hpos : 0 < crcSize := by decide
  rw [Feed.fillPrep, hexp]
  dsimp only
  rw [if_neg (by omega)]
  split
  · rename_i hlarge
    exact ⟨rfl, decided_of_extent hw.synced (hw.extent_full hfit hresponse hlarge) hsize
      (fun _ => rest_ne_nil hi) (by decide), stopped_fail (by decide) rfl⟩
  · rename_i hroom
    have hneed : 0 < bodyEnd w + crcSize - held := by omega
    have hall : w.length + (bodyEnd w + crcSize - held) = bodyEnd w + crcSize := by omega
    exact ⟨Nat.le_of_lt hi, w, ⟨hbytes, hheld, .fillCrc _ hw (Nat.le_of_not_lt hroom) hresponse
      hneed (Nat.le_of_eq hsize.symm) hall⟩, rfl⟩

/-- Filling goes on in the same hunt, whatever the part. -/
theorem fill_spec {need held : Nat} {target : Target} {ctx' : Context} (hi : i < data.length)
    (hbytes : buffer.toList.take held = w) (hheld : held = w.length)
    (hfit : w.length + need ≤ bufSize)
    (hstage : ∀ n, n ≤ need → n ≤ (data.drop i).length →
      Stage ctx (w ++ (data.drop i).take n) ((data.drop i).drop n)
        (if need - n = 0 then .fillValidate else .fill) target (need - n) ctx') :
    Hunts ctx data w ⟨⟨buffer, need, held, .fill, target⟩, ctx', i⟩
      (Feed.fill data ⟨⟨buffer, need, held, .fill, target⟩, ctx', i⟩) := by
  obtain ⟨n, hn⟩ : ∃ n, n = Feed.toCopy data ⟨⟨buffer, need, held, .fill, target⟩, ctx', i⟩ :=
    ⟨_, rfl⟩
  have hbounds : n ≤ need ∧ n ≤ data.length - i := by
    rw [hn, Feed.toCopy]
    dsimp only
    split <;> omega
  obtain ⟨hneed, hdata⟩ := hbounds
  have hlen : ((data.drop i).take n).length = n := by
    rw [List.length_take, List.length_drop]
    omega
  rw [Feed.fill, ← hn]
  refine ⟨?_, w ++ (data.drop i).take n, ⟨?_, ?_, ?_⟩, ?_⟩
  · show i + n ≤ data.length
    omega
  · show (Cells.copy buffer held ((data.drop i).take n)).toList.take (held + n) = _
    have := Cells.take_copy buffer held ((data.drop i).take n) (by omega)
    rw [hlen] at this
    rw [this, hbytes]
  · show held + n = _
    rw [List.length_append, hlen, hheld]
  · show Stage ctx _ (data.drop (i + n)) _ _ _ _
    rw [← List.drop_drop]
    exact hstage n hneed (by rw [List.length_drop]; exact hdata)
  · show (frames _ _).hunt (w ++ (data.drop i).take n ++ data.drop (i + n)) = _
    rw [List.append_assoc, ← List.drop_drop, List.take_append_drop]

theorem Synced.extend {cs : List UInt8} (h : Synced w) (hthree : 3 ≤ w.length) :
    Synced (w ++ cs) := by
  rw [Synced, List.take_append_of_le_length hthree]
  exact h

theorem fillHeader_stage {need n : Nat} (rest : List UInt8) (hsync : Synced w)
    (hthree : 3 ≤ w.length) (hsize : w.length + need = headerSize) (hneed : n ≤ need)
    (hn : n ≤ rest.length) :
    Stage ctx (w ++ rest.take n) (rest.drop n)
      (if need - n = 0 then .fillValidate else .fill) .header (need - n) ctx := by
  have hlen : (w ++ rest.take n).length = w.length + n := by
    rw [List.length_append, List.length_take, Nat.min_eq_left hn]
  split
  · rename_i hdone
    rw [hdone]
    exact .validateHeader _ (hsync.extend hthree) (by omega)
  · exact .fillHeader _ (hsync.extend hthree) (by omega) (by omega) (by omega)

theorem fillBody_stage {need n : Nat} {rest : List UInt8} (hrest : rest ≠ []) (hw : Headed w)
    (hfit : bodyEnd w ≤ bufSize) (hsize : w.length + need = bodyEnd w) (hneed : n ≤ need)
    (hn : n ≤ rest.length) :
    Stage ctx (w ++ rest.take n) (rest.drop n)
      (if need - n = 0 then .fillValidate else .fill) .body (need - n) (noteHeader ctx w) := by
  have hlen : (w ++ rest.take n).length = w.length + n := by
    rw [List.length_append, List.length_take, Nat.min_eq_left hn]
  have hend := hw.bodyEnd_append (rest.take n)
  have hheader := hw.header
  rw [← hw.noteHeader_append ctx (rest.take n)]
  split
  · rename_i hdone
    rw [hdone]
    refine .validateBody (hw.append _) (by omega) (by omega) fun hempty => ?_
    have hzero : n = 0 := by omega
    rw [hzero, List.drop_zero]
    exact hrest
  · exact .fillBody _ (hw.append _) (by omega) (fun h => absurd h (by omega)) (by omega)

theorem fillCrc_stage {need n : Nat} (rest : List UInt8) (hw : Headed w)
    (hfit : bodyEnd w + crcSize ≤ bufSize) (hresponse : ResponseFits w)
    (hbody : bodyEnd w ≤ w.length) (hsize : w.length + need = bodyEnd w + crcSize)
    (hneed : n ≤ need) (hn : n ≤ rest.length) :
    Stage ctx (w ++ rest.take n) (rest.drop n)
      (if need - n = 0 then .fillValidate else .fill) .crc (need - n)
      (noteBody (noteHeader ctx w) w) := by
  have hlen : (w ++ rest.take n).length = w.length + n := by
    rw [List.length_append, List.length_take, Nat.min_eq_left hn]
  have hend := hw.bodyEnd_append (rest.take n)
  have hresponse' := (hw.responseFits_append (rest.take n)).2 hresponse
  rw [← hw.noteBody_append ctx (rest.take n) hresponse hbody]
  split
  · rename_i hdone
    rw [hdone]
    exact .validateCrc _ (hw.append _) (by omega) hresponse' (by omega)
  · exact .fillCrc _ (hw.append _) (by omega) hresponse' (by omega) (by omega) (by omega)

theorem buffer_eq {held : Nat} (hbytes : buffer.toList.take held = w) :
    buffer.toList = w ++ buffer.toList.drop held := by
  rw [← hbytes, List.take_append_drop]

theorem validateHeader_spec {held : Nat} (hi : i ≤ data.length)
    (hbytes : buffer.toList.take held = w) (hheld : held = w.length) (hsync : Synced w)
    (hsize : w.length = headerSize) :
    Hunts ctx data w ⟨⟨buffer, 0, held, .fillValidate, .header⟩, ctx, i⟩
      (Feed.validateHeader ⟨⟨buffer, 0, held, .fillValidate, .header⟩, ctx, i⟩) := by
  have hheader : headerSize ≤ w.length := Nat.le_of_eq hsize.symm
  have hbuf := buffer_eq hbytes
  rw [Feed.validateHeader]
  dsimp only
  rw [hbuf, headerLength_append _ hheader, messageID_append _ hheader,
    messageLength_append _ hheader, hasResponseBit_append _ hheader]
  split
  · rename_i hbad
    exact ⟨rfl, decided_of_extent hsync (extent_of_size hbad) hsize
      (fun h => absurd h (by decide)) (by decide), stopped_fail (by decide) rfl⟩
  rename_i hgood
  rw [if_neg (not_not.2 (hheld.trans hsize))]
  exact ⟨hi, w, ⟨hbytes, hheld, .prepBody _ ⟨hsync, hheader, not_not.1 hgood⟩ hsize⟩, rfl⟩

theorem validateBody_spec {held : Nat} (hi : i ≤ data.length)
    (hbytes : buffer.toList.take held = w) (hheld : held = w.length) (hw : Headed w)
    (hfit : bodyEnd w ≤ bufSize) (hsize : w.length = bodyEnd w)
    (hlate : w.length = headerSize → data.drop i ≠ []) :
    Hunts ctx data w ⟨⟨buffer, 0, held, .fillValidate, .body⟩, noteHeader ctx w, i⟩
      (Feed.validateBody ⟨⟨buffer, 0, held, .fillValidate, .body⟩, noteHeader ctx w, i⟩) := by
  have hbuf := buffer_eq hbytes
  rw [Feed.validateBody]
  dsimp only
  have hlen : headerSize + (noteHeader ctx w).messageLength.toNat = bodyEnd w := rfl
  have hbit : (noteHeader ctx w).isResponse = hasResponseBit w := rfl
  rw [hlen, if_neg (not_not.2 (hheld.trans hsize)), hbit]
  split
  · rename_i hshort
    have hno : ¬ResponseFits w := fun h => absurd (h hshort.1) (by omega)
    refine ⟨rfl, decided_of_extent hw.synced (hw.extent_short hfit hno) hsize (fun h => ?_)
      (by decide), stopped_fail (by decide) rfl⟩
    exact hlate (hsize.trans (beq_iff_eq.1 h))
  · rename_i hfits
    have hresponse : ResponseFits w := by
      refine fun h => Nat.le_of_not_lt fun hlt => hfits ⟨h, ?_⟩
      omega
    have hid : (if hasResponseBit w then responseId buffer.toList
        else (noteHeader ctx w).responseId) =
        if hasResponseBit w then responseId w else (noteHeader ctx w).responseId := by
      by_cases hresp : hasResponseBit w = true
      · have hlong : responseSize ≤ w.length := hsize ▸ hresponse hresp
        rw [hbuf, responseId_append _ hlong]
      · rw [if_neg hresp, if_neg hresp]
    refine ⟨hi, w, ⟨hbytes, hheld, ?_⟩, rfl⟩
    dsimp only
    rw [hid]
    exact .prepCrc _ hw hfit hresponse hsize

theorem validateCrc_spec {held : Nat}
    (hbytes : buffer.toList.take held = w) (hheld : held = w.length) (hw : Headed w)
    (hfit : bodyEnd w + crcSize ≤ bufSize) (hresponse : ResponseFits w)
    (hsize : w.length = bodyEnd w + crcSize) :
    Hunts ctx data w
      ⟨⟨buffer, 0, held, .fillValidate, .crc⟩, noteBody (noteHeader ctx w) w, i⟩
      (Feed.validateCrc
        ⟨⟨buffer, 0, held, .fillValidate, .crc⟩, noteBody (noteHeader ctx w) w, i⟩) := by
  have hext := hw.extent_ok hfit hresponse
  have hdecided : ∀ ret, (judge ctx.crcReadSkipped w).ret = ret →
      Decided ctx.crcReadSkipped w (data.drop i) ret := fun ret hret =>
    ⟨hw.synced, by rw [hext]; exact hsize.symm,
      by rw [hext]; exact fun h => absurd h Bool.false_ne_true, hret⟩
  have hjudge : (judge ctx.crcReadSkipped w).ret =
      if ctx.crcReadSkipped = true ∨ CrcMatches w then .ok else .crc := by
    rw [judge, hext]
    dsimp only
    rw [if_neg (not_not.2 rfl), ← hsize, List.take_length]
  have hskip : (noteBody (noteHeader ctx w) w).crcReadSkipped = ctx.crcReadSkipped := rfl
  have hbuf := buffer_eq hbytes
  have hfour : crcSize ≤ w.length := by omega
  have htake : buffer.toList.take (held - crcSize) = w.take (w.length - crcSize) := by
    rw [hbuf, hheld, List.take_append_of_le_length (Nat.sub_le _ _)]
  have hdrop : Layout.u32.read (buffer.toList.drop (held - crcSize)) =
      Layout.u32.read (w.drop (w.length - crcSize)) := by
    rw [hbuf, hheld, List.drop_append_of_le_length (Nat.sub_le _ _)]
    refine Layout.word_read_append ?_ _
    rw [List.length_drop]
    simp only [crcSize] at *
    omega
  rw [Feed.validateCrc]
  dsimp only
  rw [hskip, htake, hdrop]
  split
  · rename_i hskipped
    refine ⟨rfl, hdecided .ok (hjudge.trans (if_pos (.inl hskipped))), fun _ => ?_,
      fun h => absurd rfl h⟩
    refine ⟨rfl, hbytes, hheld, rfl, ?_⟩
    rw [noteMessage, noteCrc, hskip, if_pos hskipped]
  rename_i hchecked
  split
  · rename_i hbad
    exact ⟨rfl, hdecided .crc (hjudge.trans (if_neg fun h => h.elim hchecked hbad)),
      stopped_fail (by decide) rfl⟩
  · rename_i hgood
    refine ⟨rfl, hdecided .ok (hjudge.trans (if_pos (.inr (not_not.1 hgood)))), fun _ => ?_,
      fun h => absurd rfl h⟩
    refine ⟨rfl, hbytes, hheld, rfl, ?_⟩
    rw [noteMessage, noteCrc, hskip, if_neg hchecked]

/-- **One turn goes on in the hunt for the next frame, or stops at it.** -/
theorem turn_spec {f : Feed} (hi : f.i ≤ data.length) (hrun : Feed.Running data f)
    (h : Holds ctx w (data.drop f.i) f) : Hunts ctx data w f (Feed.turn data f) := by
  obtain ⟨⟨buffer, need, held, state, target⟩, ctx', i⟩ := f
  obtain ⟨hbytes, hheld, hstage⟩ := h
  have hfits := hstage.fits
  dsimp only [StateMachine.bytes] at hi hbytes hheld hstage hfits
  have htake : state ≠ .fillValidate → i < data.length := hrun.resolve_right
  cases hstage with
  | searchAA => cases hheld; exact searchAA_spec (htake (by decide)) hbytes
  | search44 => cases hheld; exact search44_spec (htake (by decide)) hbytes
  | search12 => cases hheld; exact search12_spec (htake (by decide)) hbytes
  | prepHeader => cases hheld; exact prepHeader_spec (htake (by decide)) hbytes
  | fillHeader _ hsync hthree hneed hsize =>
    exact fill_spec (htake (by decide)) hbytes hheld hfits fun n hle hn =>
      fillHeader_stage _ hsync hthree hsize hle hn
  | validateHeader _ hsync hsize => exact validateHeader_spec hi hbytes hheld hsync hsize
  | prepBody _ hw hsize => exact prepBody_spec (htake (by decide)) hbytes hheld hw hsize
  | fillBody _ hw hfit hneed hsize =>
    exact fill_spec (htake (by decide)) hbytes hheld hfits fun n hle hn =>
      fillBody_stage (rest_ne_nil (htake (by decide))) hw hfit hsize hle hn
  | validateBody hw hfit hsize hlate =>
    exact validateBody_spec hi hbytes hheld hw hfit hsize hlate
  | prepCrc _ hw hfit hresponse hsize =>
    exact prepCrc_spec (htake (by decide)) hbytes hheld hw hfit hresponse hsize
  | fillCrc _ hw hfit hresponse hneed hbody hsize =>
    exact fill_spec (htake (by decide)) hbytes hheld hfits fun n hle hn =>
      fillCrc_stage _ hw hfit hresponse hbody hsize hle hn
  | validateCrc _ hw hfit hresponse hsize =>
    exact validateCrc_spec hbytes hheld hw hfit hresponse hsize

end Turns

/-! ## A whole call -/

/-- Between two calls the machine holds the beginning of a frame. -/
theorem Stage.look_more {ctx ctx' : Context} {w rest : List UInt8} {state : State}
    {target : Target} {need : Nat} (h : Stage ctx w rest state target need ctx')
    (hstate : state ≠ .fillValidate) (skipCrc drops : Bool) :
    lookFrame skipCrc drops w = .more := by
  cases h with
  | searchAA => exact lookFrame_more (by decide) (.inl (by decide))
  | search44 => exact lookFrame_more (by decide) (.inl (by decide))
  | search12 => exact lookFrame_more (by decide) (.inl (by decide))
  | prepHeader => exact lookFrame_more (by decide) (.inl (by decide))
  | fillHeader _ hsync _ hneed hsize => exact lookFrame_more hsync (.inl (by omega))
  | validateHeader => exact absurd rfl hstate
  | prepBody _ hw hsize =>
    exact lookFrame_more hw.synced (.inr (hw.lt_extent (.inr (.inr (.inr hsize)))))
  | fillBody _ hw hfit hneed hsize =>
    refine lookFrame_more hw.synced (.inr (hw.lt_extent (.inr (.inr ?_))))
    by_cases hzero : need = 0
    · exact .inr (hneed hzero)
    · exact .inl ⟨by omega, hfit⟩
  | validateBody => exact absurd rfl hstate
  | prepCrc _ hw hfit hresponse hsize =>
    exact lookFrame_more hw.synced
      (.inr (hw.lt_extent (.inr (.inl ⟨Nat.le_of_eq hsize, hfit, hresponse⟩))))
  | fillCrc _ hw hfit hresponse hneed _ hsize =>
    exact lookFrame_more hw.synced
      (.inr (hw.lt_extent (.inl ⟨by omega, hfit, hresponse⟩)))
  | validateCrc => exact absurd rfl hstate

/-- The machine waits for the next call, holding `w`. -/
structure Waiting (ctx₀ : Context) (w : List UInt8) (sm : StateMachine) (ctx : Context) :
    Prop where
  holds : ∀ rest, Holds ctx₀ w rest ⟨sm, ctx, 0⟩
  state : sm.state ≠ .fillValidate

theorem waiting_reset (ctx : Context) : Waiting ctx [] smReset ctx where
  holds _ := holds_reset rfl rfl
  state := by decide

/-- Unless it validates, the machine does not look at the bytes to come. -/
theorem Holds.waiting {ctx : Context} {w rest : List UInt8} {f : Feed} (h : Holds ctx w rest f)
    (hstate : f.sm.state ≠ .fillValidate) : Waiting ctx w f.sm f.ctx := by
  obtain ⟨⟨buffer, need, held, state, target⟩, ctx', i⟩ := f
  obtain ⟨hbytes, hheld, hstage⟩ := h
  refine ⟨fun rest' => ⟨hbytes, hheld, ?_⟩, hstate⟩
  cases hstage with
  | searchAA => exact .searchAA rest'
  | search44 => exact .search44 rest'
  | search12 => exact .search12 rest'
  | prepHeader => exact .prepHeader rest'
  | fillHeader _ hsync hthree hneed hsize => exact .fillHeader rest' hsync hthree hneed hsize
  | validateHeader => exact absurd rfl hstate
  | prepBody _ hw hsize => exact .prepBody rest' hw hsize
  | fillBody _ hw hfit hneed hsize => exact .fillBody rest' hw hfit hneed hsize
  | validateBody => exact absurd rfl hstate
  | prepCrc _ hw hfit hresponse hsize => exact .prepCrc rest' hw hfit hresponse hsize
  | fillCrc _ hw hfit hresponse hneed hbody hsize =>
    exact .fillCrc rest' hw hfit hresponse hneed hbody hsize
  | validateCrc => exact absurd rfl hstate

theorem Waiting.not_ready {ctx₀ ctx : Context} {w : List UInt8} {sm : StateMachine}
    (h : Waiting ctx₀ w sm ctx) : sm.state ≠ .messageReady := by
  intro hready
  have hstage := (h.holds []).stage
  dsimp only at hstage
  rw [hready] at hstage
  cases hstage

theorem Waiting.look_more {ctx₀ ctx : Context} {w : List UInt8} {sm : StateMachine}
    (h : Waiting ctx₀ w sm ctx) (skipCrc drops : Bool) : lookFrame skipCrc drops w = .more :=
  (h.holds []).stage.look_more h.state skipCrc drops

/-- What a call of `sm_feed` leads to: all data is taken and no frame is complete, or it stops at
a frame. -/
inductive Fed (ctx : Context) (data w : List UInt8) : Status → Feed → Prop
  | pending {f : Feed} {w' : List UInt8} (hi : f.i = data.length)
      (h : Waiting ctx w' f.sm f.ctx)
      (hhunt : (frames ctx.crcReadSkipped false).hunt (w ++ data) = (none, w')) :
      Fed ctx data w .ok f
  | stopped {ret : Status} {f : Feed} {w' : List UInt8} (hi : f.i ≤ data.length)
      (h : Decided ctx.crcReadSkipped w' (data.drop f.i) ret) (hf : Stopped ctx w' ret f)
      (hhunt : (frames ctx.crcReadSkipped false).hunt (w ++ data) =
        (some (w'.length, judge ctx.crcReadSkipped w'), w' ++ data.drop f.i)) :
      Fed ctx data w ret f

theorem feedLoop_spec {ctx : Context} {data w v : List UInt8} {fuel : Nat} {f f' : Feed}
    {ret : Status} (hi : f.i ≤ data.length) (h : Holds ctx v (data.drop f.i) f)
    (hhunt : (frames ctx.crcReadSkipped false).hunt (v ++ data.drop f.i) =
      (frames ctx.crcReadSkipped false).hunt (w ++ data))
    (hloop : Feed.feedLoop data fuel f = some (ret, f')) : Fed ctx data w ret f' := by
  induction fuel generalizing f v with
  | zero => cases hloop
  | succ fuel ih =>
    rw [Feed.feedLoop] at hloop
    split at hloop
    · rename_i hrun
      have hturn := turn_spec hi hrun h
      split at hloop
      · rename_i g hnext
        rw [hnext] at hturn
        obtain ⟨hi', v', h', hsame⟩ := hturn
        exact ih hi' h' (hsame.trans hhunt) hloop
      · rename_i ret' g hstop
        rw [hstop] at hturn
        cases hloop
        obtain ⟨hsame, hdecided, hstopped⟩ := hturn
        rw [← hsame] at hi hdecided hhunt
        refine .stopped hi hdecided hstopped ?_
        rw [← hhunt]
        exact (frames _ _).hunt_of_emit hdecided.look
    · rename_i hdone
      cases hloop
      rw [Feed.Running, not_or, Nat.not_lt] at hdone
      have hrest : data.drop f'.i = [] := List.drop_eq_nil_iff.2 hdone.1
      rw [hrest, List.append_nil] at hhunt
      refine .pending (Nat.le_antisymm hi hdone.1) (h.waiting hdone.2) ?_
      rw [← hhunt]
      exact (frames _ _).hunt_of_more (h.stage.look_more hdone.2 _ _)

/-- **`sm_feed` hunts for the next frame** in what the machine holds and what it is fed with. -/
theorem smFeed_spec {ctx₀ ctx : Context} {sm : StateMachine} {w data : List UInt8}
    {ret : Status} {f : Feed} (h : Waiting ctx₀ w sm ctx)
    (hfeed : smFeed sm data ctx = some (ret, f)) : Fed ctx₀ data w ret f :=
  feedLoop_spec (f := ⟨sm, ctx, 0⟩) (Nat.zero_le _) (h.holds data) rfl hfeed

end Oem
end FlightApps
