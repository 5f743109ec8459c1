import Mathlib.Data.Nat.Find
import FlightApps.Lib.Machine
import FlightApps.Esup.Framer

/-!
# Reassembly and the way the line splits the bytes

The line delivers a stream in chunks.  Each chunk is pushed, and then frames are popped until there
are none (`feed`).  The frames that come out should not depend on where the line cuts the stream,
and they do not as long as no push drops the beginning of a frame that is complete with the bytes it
brings (`reassembly_of_spared`).

A push into a full buffer drops the first byte, on the ground that a full buffer which has yielded
no frame starts with none.  That is so between two calls, but not within one: when a chunk brings
the last byte of a frame of `ESUP_FRAME_MAX` bytes and one byte more, the frame is complete, nobody
has popped it yet, and its first byte is dropped (`overrun_loses_frame`).
-/

set_option autoImplicit false

namespace FlightApps
namespace Esup

/-! ## Feeding chunks -/

/-- Pop until there is no frame left. -/
def popAll : Nat → Framer → Option (List Frame × Framer)
  | 0, _ => none
  | fuel + 1, f =>
    match framerPop (f.buf.length + 1) f with
    | none => none
    | some (none, f) => some ([], f)
    | some (some frame, f) => (popAll fuel f).map fun r => (frame :: r.1, r.2)

/-- Push a chunk, then pop until there is no frame left. -/
def feedChunk (f : Framer) (chunk : List UInt8) : Option (List Frame × Framer) :=
  popAll ((framerPush f chunk).buf.length + 1) (framerPush f chunk)

/-- Push chunk after chunk and pop all frames after each: the frames and the framer at the end. -/
def feed (f : Framer) : List (List UInt8) → Option (List Frame × Framer)
  | [] => some ([], f)
  | chunk :: chunks =>
    (feedChunk f chunk).bind fun r =>
      (feed r.2 chunks).map fun r' => (r.1 ++ r'.1, r'.2)

/-- The frames a fresh framer returns for a list of chunks. -/
def returned (chunks : List (List UInt8)) : Option (List Frame) :=
  (feed framerReset chunks).map Prod.fst

/-- A stream that arrives byte by byte. -/
def bytewise (bytes : List UInt8) : List (List UInt8) := bytes.map fun b => [b]

/-! ## Runs that drop no frame -/

/-- A complete valid frame stands at the front. -/
def startsFrame (bs : List UInt8) : Bool :=
  (frameDecode (bs.take (frameWireLen (readU16Le bs ofstDataLen)))).isOk

/-- None of the bytes that pushing the chunk drops starts a frame that is complete with the chunk.
-/
def Spares (f : Framer) (chunk : List UInt8) : Prop :=
  ∀ i, i < (f.unread ++ chunk).length - frameMax → startsFrame ((f.unread ++ chunk).drop i) = false

/-- Every push of the run drops only bytes that start no complete frame. -/
def Spared : Framer → List (List UInt8) → Prop
  | _, [] => True
  | f, chunk :: chunks =>
    Spares f chunk ∧ ∀ out f', feedChunk f chunk = some (out, f') → Spared f' chunks

/-! ## What is popped -/

/-- Where bytes are missing, the buffer is not full. -/
theorem length_lt_of_more {bs : List UInt8} (h : frames.look bs = .more) :
    bs.length < frameMax := by
  rw [frames_look, lookFrame] at h
  split at h
  · cases h
  split at h
  · rename_i hshort
    exact Nat.lt_trans hshort (by decide)
  simp only [judgeFrame] at h
  split at h
  · cases h
  split at h
  · rename_i hw
    exact Nat.lt_of_lt_of_le hw (frameWireLen_le _)
  · split at h <;> cases h

theorem look_of_startsFrame {bs : List UInt8} (h : startsFrame bs = true) :
    ∃ n f, frames.look bs = .emit n f := by
  rw [startsFrame] at h
  cases hdec : frameDecode (bs.take (frameWireLen (readU16Le bs ofstDataLen))) with
  | error e => rw [hdec] at h; cases h
  | ok f =>
    have hlook := lookFrame_of_decode hdec (bs.drop (frameWireLen (readU16Le bs ofstDataLen)))
    rw [List.take_append_drop] at hlook
    exact ⟨_, f, hlook⟩

/-- A full buffer starts with a frame, or with a byte to skip. -/
theorem look_of_full {bs : List UInt8} (hfull : frameMax ≤ bs.length)
    (hno : startsFrame bs = false) : frames.look bs = .skip := by
  cases hlook : frames.look bs with
  | more => exact absurd (length_lt_of_more hlook) (by omega)
  | skip => rfl
  | emit n f =>
    obtain ⟨hn, -, hdec⟩ := lookFrame_emit hlook
    rw [startsFrame, ← hn, hdec] at hno
    cases hno

/-- **Popping to exhaustion scans the buffer.** -/
theorem popAll_eq (fuel : Nat) (f : Framer) (h : f.unread.length < fuel) :
    popAll fuel f = some ((frames.scan f.unread).1, ⟨(frames.scan f.unread).2, 0⟩) := by
  induction fuel generalizing f with
  | zero => exact absurd h (Nat.not_lt_zero _)
  | succ fuel ih =>
    rw [popAll, framerPop_eq f (Nat.lt_succ_of_le (length_unread_le f))]
    cases hhunt : frames.hunt f.unread with
    | mk found rest =>
      cases found with
      | none => rw [frames.scan_of_hunt_none hhunt]; rfl
      | some found =>
        obtain ⟨n, frame⟩ := found
        -- the frame is reclaimed by the next call, which goes on behind it
        have hdrop := frames.drop_lt (frames.look_hunt hhunt)
        have hrest : rest.length ≤ f.unread.length := by
          simpa only [hhunt] using frames.length_hunt f.unread
        have hnext := ih ⟨rest, n⟩ (by rw [unread_mk]; omega)
        rw [frames.scan_of_hunt_some hhunt]
        simp only [handOut, hnext, Option.map_some, unread_mk]

/-- A chunk that is spared is scanned behind the bytes that were left. -/
theorem feedChunk_eq {f : Framer} {chunk : List UInt8} (hf : f.unread.length ≤ frameMax)
    (h : Spares f chunk) :
    feedChunk f chunk = some ((frames.scan (f.unread ++ chunk)).1,
      ⟨(frames.scan (f.unread ++ chunk)).2, 0⟩) := by
  have hscan := frames.scan_drop (f.unread ++ chunk) ((f.unread ++ chunk).length - frameMax)
    fun i hi => look_of_full (by rw [List.length_drop]; omega) (h i hi)
  rw [feedChunk, framerPush_eq f chunk hf,
    popAll_eq _ _ (Nat.lt_succ_of_le (length_unread_le _)), unread_mk, List.drop_zero, hscan]

/-- **A run that spares the frames scans the stream**, wherever it is cut. -/
theorem feed_eq {bs : List UInt8} (hbs : frames.look bs = .more) (chunks : List (List UInt8))
    (h : Spared ⟨bs, 0⟩ chunks) :
    feed ⟨bs, 0⟩ chunks = some ((frames.scan (bs ++ chunks.flatten)).1,
      ⟨(frames.scan (bs ++ chunks.flatten)).2, 0⟩) := by
  induction chunks generalizing bs with
  | nil => rw [List.flatten_nil, List.append_nil, frames.scan_of_more hbs]; rfl
  | cons chunk chunks ih =>
    have hchunk := feedChunk_eq (f := ⟨bs, 0⟩) (Nat.le_of_lt (length_lt_of_more hbs)) h.1
    have hrest := ih (frames.look_scan (bs ++ chunk)) (h.2 _ _ hchunk)
    rw [feed, hchunk, Option.bind_some, unread_mk, List.drop_zero, hrest, Option.map_some,
      List.flatten_cons, ← List.append_assoc, frames.scan_append (bs ++ chunk)]

/-- Without an overflow there is nothing to spare. -/
theorem spares_of_le {f : Framer} {chunk : List UInt8}
    (h : (f.unread ++ chunk).length ≤ frameMax) : Spares f chunk :=
  fun i hi => absurd hi (by omega)

/-- Bytes that come one by one never fill the buffer. -/
theorem spared_bytewise {bs : List UInt8} (hbs : frames.look bs = .more) (bytes : List UInt8) :
    Spared ⟨bs, 0⟩ (bytewise bytes) := by
  induction bytes generalizing bs with
  | nil => trivial
  | cons b bytes ih =>
    have hlt := length_lt_of_more hbs
    have hspares : Spares ⟨bs, 0⟩ [b] :=
      spares_of_le (by rw [unread_mk, List.drop_zero, List.length_append]; exact hlt)
    refine ⟨hspares, fun out f' h => ?_⟩
    rw [feedChunk_eq (f := ⟨bs, 0⟩) (Nat.le_of_lt hlt) hspares] at h
    cases h
    exact ih (frames.look_scan _)

/-- A stream that fits the buffer never fills it. -/
theorem spared_of_length {bs : List UInt8} (chunks : List (List UInt8))
    (h : (bs ++ chunks.flatten).length ≤ frameMax) : Spared ⟨bs, 0⟩ chunks := by
  induction chunks generalizing bs with
  | nil => trivial
  | cons chunk chunks ih =>
    rw [List.flatten_cons, ← List.append_assoc, List.length_append] at h
    have hspares : Spares ⟨bs, 0⟩ chunk :=
      spares_of_le (by rw [unread_mk, List.drop_zero]; omega)
    have hbs : bs.length ≤ frameMax := by
      rw [List.length_append] at h
      omega
    refine ⟨hspares, fun out f' hfeed => ?_⟩
    rw [feedChunk_eq (f := ⟨bs, 0⟩) hbs hspares] at hfeed
    cases hfeed
    have hscan := frames.length_scan (bs ++ chunk)
    refine ih ?_
    rw [unread_mk, List.drop_zero, List.length_append]
    omega

theorem flatten_bytewise (bytes : List UInt8) : (bytewise bytes).flatten = bytes := by
  induction bytes with
  | nil => rfl
  | cons b bytes ih => exact congrArg (b :: ·) ih

theorem returned_of_spared {chunks : List (List UInt8)} (h : Spared framerReset chunks) :
    returned chunks = some (frames.scan chunks.flatten).1 := by
  rw [returned, framerReset, feed_eq frames.look_nil chunks h]
  rfl

theorem returned_bytewise (bytes : List UInt8) :
    returned (bytewise bytes) = some (frames.scan bytes).1 := by
  rw [returned_of_spared (spared_bytewise frames.look_nil bytes), flatten_bytewise]

/-! ## Frames that were sent -/

/-- The bytes are what the encoder writes for the frame. -/
def Encodes (f : Frame) (bytes : List UInt8) : Prop := ∃ outCap, frameEncode f outCap = .ok bytes

theorem scan_encoded {f : Frame} {bytes : List UInt8} (h : Encodes f bytes) (rest : List UInt8) :
    frames.scan (bytes ++ rest) = (f :: (frames.scan rest).1, (frames.scan rest).2) := by
  obtain ⟨outCap, henc⟩ := h
  obtain ⟨hmax, rfl⟩ := frameEncode_inv henc
  rw [frames.scan_of_emit (look_wire f hmax rest), List.drop_left' rfl]

/-- Frames sent back to back are found one after the other, whatever follows. -/
theorem scan_sent {sent : List Frame} {wires : List (List UInt8)} (rest : List UInt8)
    (h : List.Forall₂ Encodes sent wires) :
    frames.scan (wires.flatten ++ rest) = (sent ++ (frames.scan rest).1, (frames.scan rest).2) := by
  induction h with
  | nil => rfl
  | cons hfw _ ih => rw [List.flatten_cons, List.append_assoc, scan_encoded hfw, ih]; rfl

/-! ## Calls in any order -/

/-- The calls a framer takes. -/
inductive FramerOp
  | reset
  | push (bytes : List UInt8)
  | pop

/-- The framer as a machine. -/
def framer : Machine Framer FramerOp (Option Frame) where
  step
    | _, .reset => (framerReset, none)
    | f, .push bytes => (framerPush f bytes, none)
    | f, .pop =>
      match framerPop (f.buf.length + 1) f with
      | some r => (r.2, r.1)
      | none => (f, none)

theorem length_framerPush (f : Framer) (bytes : List UInt8) (h : f.buf.length ≤ frameMax) :
    (framerPush f bytes).buf.length ≤ frameMax := by
  rw [framerPush_eq f bytes (Nat.le_trans (length_unread_le f) h)]
  simp only [List.length_drop]
  omega

theorem length_handOut (pending : Nat) (r : Option (Nat × Frame) × List UInt8) :
    (handOut pending r).2.buf.length = r.2.length := by
  obtain ⟨found, rest⟩ := r
  cases found <;> rfl

/-- **The buffer never holds more than `ESUP_FRAME_MAX` bytes**, in whatever order the calls come.
-/
theorem length_run (ops : List FramerOp) : (framer.run framerReset ops).buf.length ≤ frameMax := by
  refine framer.invariant (P := fun f => f.buf.length ≤ frameMax) (fun f op h => ?_)
    (Nat.zero_le _) ops
  cases op with
  | reset => exact Nat.zero_le _
  | push bytes => exact length_framerPush f bytes h
  | pop =>
    have hpop := framerPop_eq f (Nat.lt_succ_of_le (length_unread_le f))
    simp only [framer, hpop, length_handOut]
    exact Nat.le_trans (frames.length_hunt _) (Nat.le_trans (length_unread_le f) h)

/-- **Every pop returns**, after at most one round more than there are bytes. -/
theorem framerPop_returns (f : Framer) :
    ∃ r, ∀ fuel, f.buf.length < fuel → framerPop fuel f = some r :=
  ⟨_, fun _ h => framerPop_eq f (Nat.lt_of_le_of_lt (length_unread_le f) h)⟩

/-! ## Reassembly does not depend on the chunks -/

/-- **Reassembly does not depend on how the line splits the bytes**, if no push drops the beginning
of a complete frame.  The chunks may be of any length.  Frames sent back to back from the start are
returned one after the other, each once, before anything that is found in the bytes behind them.
Every pop returns, and the buffer never holds more than a frame of the largest size. -/
theorem reassembly_of_spared (chunks : List (List UInt8)) (hspared : Spared framerReset chunks) :
    (∃ out, returned chunks = some out ∧ returned (bytewise chunks.flatten) = some out) ∧
      (∀ (sent : List Frame) (wires : List (List UInt8)) (rest : List UInt8),
        List.Forall₂ Encodes sent wires → chunks.flatten = wires.flatten ++ rest →
          ∃ more, returned (bytewise rest) = some more ∧ returned chunks = some (sent ++ more)) ∧
      (∀ f : Framer, ∃ r, ∀ fuel, f.buf.length < fuel → framerPop fuel f = some r) ∧
      ∀ ops : List FramerOp, (framer.run framerReset ops).buf.length ≤ frameMax := by
  refine ⟨⟨_, returned_of_spared hspared, returned_bytewise _⟩, ?_, framerPop_returns, length_run⟩
  intro sent wires rest hsent hstream
  refine ⟨_, returned_bytewise rest, ?_⟩
  rw [returned_of_spared hspared, hstream, scan_sent rest hsent]

/-- A frame with three bytes of data. -/
def shortFrame : Frame := ⟨1, 0, 2, 3, [7, 8, 9], by decide⟩

/-- Noise, the frame in two pieces, and the beginning of another one. -/
def shortChunks : List (List UInt8) :=
  [0x45 :: shortFrame.wire.take 9, shortFrame.wire.drop 9 ++ [0x45, 0x53]]

theorem reassembly_of_spared_shortChunks :
    returned shortChunks = some [shortFrame] ∧
      ∃ out, returned shortChunks = some out ∧
        returned (bytewise shortChunks.flatten) = some out :=
  ⟨by decide +kernel,
    (reassembly_of_spared shortChunks (spared_of_length shortChunks (by decide +kernel))).1⟩

/-! ## The frame that is lost -/

/-- The condition asks for no more than it has to: a push that does not spare the frames drops the
first byte of one that would have been returned, had the bytes come one by one. -/
theorem drops_frame_of_not_spares {f : Framer} {chunk : List UInt8} (h : ¬Spares f chunk) :
    ∃ i n frame, i < (f.unread ++ chunk).length - frameMax ∧
      frames.look ((f.unread ++ chunk).drop i) = .emit n frame ∧
      (frames.scan (f.unread ++ chunk)).1.head? = some frame := by
  have hex : ∃ i, i < (f.unread ++ chunk).length - frameMax ∧
      startsFrame ((f.unread ++ chunk).drop i) = true := by
    simpa only [Spares, not_forall, exists_prop, Bool.not_eq_false] using h
  -- the first such place is where the scan arrives
  obtain ⟨hi, hstart⟩ := Nat.find_spec hex
  have hskip : ∀ j, j < Nat.find hex → frames.look ((f.unread ++ chunk).drop j) = .skip := by
    intro j hj
    have hno := Nat.find_min hex hj
    refine look_of_full (by rw [List.length_drop]; omega) ?_
    rw [← Bool.not_eq_true]
    exact fun hs => hno ⟨by omega, hs⟩
  obtain ⟨n, frame, hlook⟩ := look_of_startsFrame hstart
  refine ⟨_, n, frame, hi, hlook, ?_⟩
  rw [← frames.scan_drop _ _ hskip, frames.scan_of_emit hlook]
  rfl

theorem feed_concat {f f' : Framer} {chunks : List (List UInt8)} {out : List Frame}
    (h : feed f chunks = some (out, f')) (chunk : List UInt8) :
    feed f (chunks ++ [chunk]) = (feedChunk f' chunk).map fun r => (out ++ r.1, r.2) := by
  induction chunks generalizing f out with
  | nil =>
    cases h
    rw [List.nil_append, feed]
    cases feedChunk f' chunk with
    | none => rfl
    | some r => rw [Option.bind_some, feed, Option.map_some, List.append_nil]; rfl
  | cons c chunks ih =>
    rw [feed] at h
    cases hc : feedChunk f c with
    | none => rw [hc] at h; cases h
    | some r =>
      rw [hc, Option.bind_some, Option.map_eq_some_iff] at h
      obtain ⟨r', hr', heq⟩ := h
      cases heq
      rw [List.cons_append, feed, hc, Option.bind_some, ih hr']
      cases feedChunk r'.2 chunk with
      | none => rfl
      | some r'' => simp only [Option.map_some, List.append_assoc]

/-- **A frame of the largest size is lost** when its last byte and one byte more come in one
chunk. -/
theorem overrun {f : Frame} (hmax : f.data.length ≤ dataMax) (hfull : f.wire.length = frameMax)
    {pre : List (List UInt8)} {chunk : List UInt8} {x : UInt8}
    (hpre : pre.flatten.length < frameMax) (h : pre.flatten ++ chunk = f.wire ++ [x]) :
    ∃ out, returned (pre ++ [chunk]) = some out ∧ f ∉ out := by
  have hlook : frames.look (pre.flatten ++ chunk) = .emit f.wire.length f := by
    rw [h, look_wire f hmax]
  have hmore := frames.look_of_append hlook (by omega)
  have hfeed : feed framerReset pre = some ([], ⟨pre.flatten, 0⟩) := by
    have := feed_eq frames.look_nil pre (spared_of_length pre (by rw [List.nil_append]; omega))
    rwa [List.nil_append, frames.scan_of_more hmore] at this
  -- the push drops the first byte of the frame, so what is left is too short for it
  obtain ⟨left, hleft⟩ : ∃ left, left = (f.wire ++ [x]).drop 1 := ⟨_, rfl⟩
  have hmagic : hasMagic left = false := by rw [hleft]; rfl
  have hlen : left.length = frameMax := by
    rw [hleft, List.length_drop, List.length_append, hfull, List.length_singleton,
      Nat.add_sub_cancel]
  have hpush : framerPush ⟨pre.flatten, 0⟩ chunk = ⟨left, 0⟩ := by
    have hone : (f.wire ++ [x]).length - frameMax = 1 := by
      rw [List.length_append, hfull, List.length_singleton]
      omega
    rw [framerPush_eq _ _ (by rw [unread_mk, List.drop_zero]; omega), unread_mk, List.drop_zero, h,
      hone, hleft]
  have hskip : frames.look left = .skip := by
    refine lookFrame_of_not_candidate ?_
    rw [isCandidate, if_pos (by rw [hlen]; decide), hmagic]
  have hitems := frames.scan_items (P := fun m g => frameWireLen g.dataLen ≤ m)
    (fun bs n g hg => (wireLen_of_emit hg).1 ▸ (frames.emit_bounds hg).2)
    (fun m m' g hm hg => Nat.le_trans hg hm) left.tail
  refine ⟨(frames.scan left).1, ?_, fun hmem => ?_⟩
  · rw [returned, feed_concat hfeed, feedChunk, hpush,
      popAll_eq _ _ (Nat.lt_succ_of_le (length_unread_le _)), unread_mk, List.drop_zero]
    rfl
  · rw [frames.scan_of_skip hskip] at hmem
    have hshort := hitems f hmem
    rw [← f.length_wire hmax, hfull, List.length_tail, hlen] at hshort
    have hpos : 0 < frameMax := by decide
    omega

/-- The size of the buffer `esup_framer_recv` reads a chunk into. -/
def recvSize : Nat := 128

/-- The first reads from a stream that has many bytes waiting. -/
def reads : Nat → List UInt8 → List (List UInt8)
  | 0, _ => []
  | n + 1, bytes => bytes.take recvSize :: reads n (bytes.drop recvSize)

theorem flatten_reads (n : Nat) (bytes : List UInt8) :
    (reads n bytes).flatten = bytes.take (n * recvSize) := by
  induction n generalizing bytes with
  | zero => rw [Nat.zero_mul, List.take_zero]; rfl
  | succ n ih =>
    rw [reads, List.flatten_cons, ih, Nat.succ_mul, Nat.add_comm, List.take_add]

theorem length_of_mem_reads {n : Nat} {bytes : List UInt8} (h : n * recvSize ≤ bytes.length) :
    ∀ c ∈ reads n bytes, c.length = recvSize := by
  induction n generalizing bytes with
  | zero => exact fun c hc => absurd hc List.not_mem_nil
  | succ n ih =>
    rw [Nat.succ_mul] at h
    intro c hc
    rcases List.mem_cons.1 hc with rfl | hc
    · rw [List.length_take]
      omega
    · exact ih (by rw [List.length_drop]; omega) c hc

/-- A frame with as much data as a frame can have. -/
def largestFrame : Frame :=
  ⟨0, 0, 0, 0, List.replicate dataMax 0, by rw [List.length_replicate]; decide⟩

theorem length_largestFrame : largestFrame.data.length = dataMax := List.length_replicate

theorem wireLen_largestFrame : frameWireLen largestFrame.dataLen = frameMax := by
  rw [frameWireLen, largestFrame.toNat_dataLen, length_largestFrame]
  decide

theorem length_wire_largestFrame : largestFrame.wire.length = frameMax := by
  rw [largestFrame.length_wire (Nat.le_of_eq length_largestFrame), wireLen_largestFrame]

/-- The largest frame and one byte more, as `esup_framer_recv` reads them. -/
def overrunChunks : List (List UInt8) :=
  reads 11 largestFrame.wire ++ [largestFrame.wire.drop (11 * recvSize) ++ [0]]

theorem flatten_overrunChunks : overrunChunks.flatten = largestFrame.wire ++ [0] := by
  rw [overrunChunks, List.flatten_append, flatten_reads, List.flatten_singleton,
    ← List.append_assoc, List.take_append_drop]

theorem overrun_loses_frame :
    (∀ c ∈ overrunChunks, 1 ≤ c.length ∧ c.length ≤ 128) ∧
      frameEncode largestFrame frameMax = .ok largestFrame.wire ∧
      overrunChunks.flatten = largestFrame.wire ++ [0] ∧
      ∃ out out', returned overrunChunks = some out ∧
        returned (bytewise overrunChunks.flatten) = some out' ∧
        largestFrame ∉ out ∧ largestFrame ∈ out' ∧ out ≠ out' := by
  have hmax : largestFrame.data.length ≤ dataMax := Nat.le_of_eq length_largestFrame
  have hlen := length_wire_largestFrame
  have henc : frameEncode largestFrame frameMax = .ok largestFrame.wire := by
    rw [frameEncode_eq, if_neg (by omega), if_neg (by rw [wireLen_largestFrame]; omega)]
  have hpre : (reads 11 largestFrame.wire).flatten.length = 1408 := by
    rw [flatten_reads, List.length_take, hlen]
    decide
  obtain ⟨out, hout, hlost⟩ := overrun hmax hlen (x := 0) (by rw [hpre]; decide)
    (by simpa only [overrunChunks, List.flatten_append, List.flatten_singleton]
      using flatten_overrunChunks)
  have hbytes : largestFrame ∈ (frames.scan overrunChunks.flatten).1 := by
    rw [flatten_overrunChunks, scan_encoded ⟨_, henc⟩]
    exact List.mem_cons_self
  refine ⟨fun c hc => ?_, henc, flatten_overrunChunks, out, _, hout, returned_bytewise _, hlost,
    hbytes, fun h => hlost (h ▸ hbytes)⟩
  rcases List.mem_append.1 hc with hc | hc
  · rw [length_of_mem_reads (by rw [hlen]; decide) c hc]
    decide
  · rw [List.mem_singleton.1 hc, List.length_append, List.length_drop, hlen]
    decide

end Esup
end FlightApps
