import FlightApps.Lib.Scanner
import FlightApps.Esup.Codec

/-!
# Reassembling ESUP frames from a byte stream

The framer of `esup_framer.c` collects the bytes the line delivers (`framerPush`) and hands out the
frames they hold (`framerPop`).  A frame that is handed out stays in the buffer until the next call,
which reclaims its bytes first; the buffer holds at most `ESUP_FRAME_MAX` bytes, and a push into a
full buffer drops the first byte.

What `framerPop` does is said by a `Scanner` (`frames`): it skips the bytes that start no frame and
stops at a frame or where bytes are missing.  `framerPop_eq` is the refinement; it also says that
the loop ends, since the fuel that counts its rounds is never used up.  `framerPush_eq` says which
bytes a push keeps.
-/

set_option autoImplicit false

namespace FlightApps
namespace Esup

/-! ## The framer -/

/-- `esup_framer_t`, as far as the reassembly is concerned: the valid bytes of the buffer, and how
many of them belong to the frame that was handed out last. -/
structure Framer where
  buf : List UInt8
  pending : Nat
deriving DecidableEq, Repr

/-- The state `esup_framer_reset` leaves. -/
def framerReset : Framer := ⟨[], 0⟩

/-- `framer_drop_front`. -/
def framerDropFront (f : Framer) (count : Nat) : Framer :=
  if count ≥ f.buf.length then { f with buf := [] } else { f with buf := f.buf.drop count }

/-- `framer_reclaim_pending`. -/
def framerReclaimPending (f : Framer) : Framer :=
  if f.pending = 0 then f else { framerDropFront f f.pending with pending := 0 }

/-- The test of `framer_find_magic` at one offset: the magic, or a part of it that could become the
magic with the next push. -/
def isCandidate (bs : List UInt8) : Bool :=
  if bs.length ≥ sizeHeader then hasMagic bs else bs.isPrefixOf magic

/-- `framer_find_magic`: the offset of the first candidate, the length of the buffer if there is
none. -/
def framerFindMagic : List UInt8 → Nat
  | [] => 0
  | b :: bs => if isCandidate (b :: bs) then 0 else framerFindMagic bs + 1

/-- One round of the loop of `esup_framer_push`. -/
def framerPushByte (f : Framer) (b : UInt8) : Framer :=
  let f := if f.buf.length = frameMax then framerDropFront f 1 else f
  { f with buf := f.buf ++ [b] }

/-- `esup_framer_push`. -/
def framerPush (f : Framer) (bytes : List UInt8) : Framer :=
  bytes.foldl framerPushByte (framerReclaimPending f)

/-- The loop of `esup_framer_pop`.  `none` means that the rounds granted did not suffice. -/
def framerPopLoop : Nat → Framer → Option (Option Frame × Framer)
  | 0, _ => none
  | fuel + 1, f =>
    let magicOff := framerFindMagic f.buf
    let f := if magicOff > 0 then framerDropFront f magicOff else f
    if f.buf.length < ofstDataLen + sizeDataLen then some (none, f)
    else
      let dataLen := readU16Le f.buf ofstDataLen
      if dataLen.toNat > dataMax then framerPopLoop fuel (framerDropFront f 1)
      else
        let wireLen := frameWireLen dataLen
        if f.buf.length < wireLen then some (none, f)
        else
          match frameDecode (f.buf.take wireLen) with
          | .ok frame => some (some frame, { f with pending := wireLen })
          | .error _ => framerPopLoop fuel (framerDropFront f 1)

/-- `esup_framer_pop` with a bound on the rounds of its loop. -/
def framerPop (fuel : Nat) (f : Framer) : Option (Option Frame × Framer) :=
  framerPopLoop fuel (framerReclaimPending f)

/-! ## The scanner -/

/-- The verdict on a header that has arrived. -/
def judgeFrame (bs : List UInt8) : Scanner.Verdict Frame :=
  let dataLen := readU16Le bs ofstDataLen
  if dataLen.toNat > dataMax then .skip
  else if bs.length < frameWireLen dataLen then .more
  else
    match frameDecode (bs.take (frameWireLen dataLen)) with
    | .ok frame => .emit (frameWireLen dataLen) frame
    | .error _ => .skip

/-- The verdict of one round of the loop on the bytes it looks at. -/
def lookFrame (bs : List UInt8) : Scanner.Verdict Frame :=
  if !isCandidate bs then .skip
  else if bs.length < ofstDataLen + sizeDataLen then .more
  else judgeFrame bs

theorem hasMagic_iff (p : List UInt8) : hasMagic p = true ↔ magic <+: p := by
  match p with
  | [] => decide
  | [a] => simp [hasMagic, magic]
  | [a, b] => simp [hasMagic, magic]
  | [a, b, c] => simp [hasMagic, magic]
  | a :: b :: c :: d :: p =>
    simp only [hasMagic, magic, List.getD_cons_zero, List.getD_cons_succ, Bool.and_eq_true,
      beq_iff_eq, List.cons_prefix_cons, List.nil_prefix, and_true]
    constructor
    · rintro ⟨⟨⟨rfl, rfl⟩, rfl⟩, rfl⟩; exact ⟨rfl, rfl, rfl, rfl⟩
    · rintro ⟨rfl, rfl, rfl, rfl⟩; exact ⟨⟨⟨rfl, rfl⟩, rfl⟩, rfl⟩

theorem isCandidate_iff (bs : List UInt8) :
    isCandidate bs = true ↔ bs <+: magic ∨ magic <+: bs := by
  rw [isCandidate]
  split
  · rename_i hlen
    rw [hasMagic_iff]
    refine ⟨Or.inr, fun h => h.elim (fun h => ?_) id⟩
    exact h.eq_of_length_le hlen ▸ List.prefix_rfl
  · rename_i hlen
    rw [List.isPrefixOf_iff_prefix]
    exact ⟨Or.inl, fun h => h.elim id fun h => absurd h.length_le hlen⟩

theorem not_isCandidate_append {bs : List UInt8} (cs : List UInt8) (h : isCandidate bs = false) :
    isCandidate (bs ++ cs) = false := by
  rw [← Bool.not_eq_true, isCandidate_iff] at h ⊢
  rintro (hc | hc)
  · exact h (.inl ((List.prefix_append bs cs).trans hc))
  · exact h (List.prefix_or_prefix_of_prefix (List.prefix_append bs cs) hc)

theorem isCandidate_append {bs : List UInt8} (cs : List UInt8) (h : sizeHeader ≤ bs.length) :
    isCandidate (bs ++ cs) = isCandidate bs := by
  rw [isCandidate, isCandidate, if_pos h, if_pos (by rw [List.length_append]; omega),
    hasMagic_append cs h]

theorem lookFrame_of_not_candidate {bs : List UInt8} (h : isCandidate bs = false) :
    lookFrame bs = .skip := by
  rw [lookFrame, h]
  rfl

theorem lookFrame_of_short {bs : List UInt8} (hc : isCandidate bs = true)
    (hlen : bs.length < ofstDataLen + sizeDataLen) : lookFrame bs = .more := by
  rw [lookFrame, hc, Bool.not_true, if_neg Bool.false_ne_true, if_pos hlen]

theorem lookFrame_of_header {bs : List UInt8} (hc : isCandidate bs = true)
    (hlen : ¬bs.length < ofstDataLen + sizeDataLen) : lookFrame bs = judgeFrame bs := by
  rw [lookFrame, hc, Bool.not_true, if_neg Bool.false_ne_true, if_neg hlen]

theorem judgeFrame_append {bs : List UInt8} (cs : List UInt8)
    (hlen : ¬bs.length < ofstDataLen + sizeDataLen) (h : judgeFrame bs ≠ .more) :
    judgeFrame (bs ++ cs) = judgeFrame bs := by
  have hread : readU16Le (bs ++ cs) ofstDataLen = readU16Le bs ofstDataLen :=
    readU16Le_append cs (by simp only [ofstDataLen, sizeDataLen] at *; omega)
  simp only [judgeFrame] at h
  simp only [judgeFrame, hread]
  by_cases hmax : (readU16Le bs ofstDataLen).toNat > dataMax
  · rw [if_pos hmax, if_pos hmax]
  · rw [if_neg hmax] at h ⊢
    by_cases hw : bs.length < frameWireLen (readU16Le bs ofstDataLen)
    · rw [if_pos hw] at h
      exact absurd rfl h
    · rw [if_neg hmax, if_neg hw, if_neg (by rw [List.length_append]; omega),
        List.take_append_of_le_length (by omega)]

/-- Bytes that start no frame are not saved by what follows, and a frame that has arrived stays. -/
theorem lookFrame_append {bs : List UInt8} (cs : List UInt8) (h : lookFrame bs ≠ .more) :
    lookFrame (bs ++ cs) = lookFrame bs := by
  cases hc : isCandidate bs with
  | false =>
    rw [lookFrame_of_not_candidate hc, lookFrame_of_not_candidate (not_isCandidate_append cs hc)]
  | true =>
    by_cases hlen : bs.length < ofstDataLen + sizeDataLen
    · exact absurd (lookFrame_of_short hc hlen) h
    have hcs : isCandidate (bs ++ cs) = true := by
      rw [isCandidate_append cs (by simp only [ofstDataLen, sizeDataLen, sizeHeader] at *; omega),
        hc]
    rw [lookFrame_of_header hc hlen] at h ⊢
    rw [lookFrame_of_header hcs (by rw [List.length_append]; omega), judgeFrame_append cs hlen h]

/-- A frame that is found is decoded from the bytes it is cut out of. -/
theorem lookFrame_emit {bs : List UInt8} {n : Nat} {f : Frame} (h : lookFrame bs = .emit n f) :
    n = frameWireLen (readU16Le bs ofstDataLen) ∧ n ≤ bs.length ∧
      frameDecode (bs.take n) = .ok f := by
  rw [lookFrame] at h
  split at h
  · cases h
  split at h
  · cases h
  simp only [judgeFrame] at h
  split at h
  · cases h
  split at h
  · cases h
  rename_i hw
  split at h
  · rename_i hdec
    cases h
    exact ⟨rfl, by omega, hdec⟩
  · cases h

theorem wireLen_of_emit {bs : List UInt8} {n : Nat} {f : Frame} (h : lookFrame bs = .emit n f) :
    n = frameWireLen f.dataLen ∧ f.data.length ≤ dataMax := by
  obtain ⟨-, hle, hdec⟩ := lookFrame_emit h
  obtain ⟨-, -, hlen, hmax⟩ := frameDecode_inv hdec
  rw [List.length_take, Nat.min_eq_left hle] at hlen
  exact ⟨hlen, hmax⟩

/-- A frame that decodes is found. -/
theorem lookFrame_of_decode {buf : List UInt8} {f : Frame} (h : frameDecode buf = .ok f)
    (cs : List UInt8) : lookFrame (buf ++ cs) = .emit buf.length f := by
  obtain ⟨hmagic, hread, hlen, hmax⟩ := frameDecode_inv h
  rw [← f.toNat_dataLen] at hmax
  have hlow := (frameWireLen_bounds hmax).1
  have hc : isCandidate buf = true := (isCandidate_iff buf).2 (.inr ((hasMagic_iff buf).1 hmagic))
  have hlook : lookFrame buf = .emit buf.length f := by
    rw [lookFrame_of_header hc (by simp only [sizeOverhead, ofstDataLen, sizeDataLen] at *; omega),
      judgeFrame, hread, if_neg (by omega), if_neg (by omega), ← hlen, List.take_length, h]
  rw [lookFrame_append cs (hlook ▸ Scanner.Verdict.emit_ne_more), hlook]

theorem lookFrame_bounds {bs : List UInt8} {n : Nat} {f : Frame} (h : lookFrame bs = .emit n f) :
    0 < n ∧ n ≤ bs.length := by
  refine ⟨?_, (lookFrame_emit h).2.1⟩
  obtain ⟨hn, hmax⟩ := wireLen_of_emit h
  have hlow := (frameWireLen_bounds (n := f.dataLen) (by rw [f.toNat_dataLen]; exact hmax)).1
  simp only [sizeOverhead] at hlow
  omega

/-- The scanner for ESUP frames. -/
def frames : Scanner UInt8 Frame where
  look := lookFrame
  look_nil := rfl
  emit_bounds := lookFrame_bounds
  stable := lookFrame_append

theorem frames_look (bs : List UInt8) : frames.look bs = lookFrame bs := rfl

/-- What the encoder writes is found, whatever follows. -/
theorem look_wire (f : Frame) (hmax : f.data.length ≤ dataMax) (rest : List UInt8) :
    frames.look (f.wire ++ rest) = .emit f.wire.length f := by
  rw [frames_look, lookFrame_of_decode (frameDecode_wire f hmax)]

/-! ## One call of pop -/

theorem framerDropFront_eq (f : Framer) (count : Nat) :
    framerDropFront f count = ⟨f.buf.drop count, f.pending⟩ := by
  rw [framerDropFront]
  split
  · rename_i h
    rw [List.drop_eq_nil_of_le h]
  · rfl

theorem framerReclaimPending_eq (f : Framer) :
    framerReclaimPending f = ⟨f.buf.drop f.pending, 0⟩ := by
  obtain ⟨buf, pending⟩ := f
  rw [framerReclaimPending]
  split
  · rename_i h
    subst h
    rfl
  · rw [framerDropFront_eq]

/-- Everything in front of the first candidate is noise. -/
theorem skip_before_findMagic (bs : List UInt8) :
    ∀ i, i < framerFindMagic bs → lookFrame (bs.drop i) = .skip := by
  induction bs with
  | nil => intro i hi; exact absurd hi (Nat.not_lt_zero i)
  | cons b bs ih =>
    intro i hi
    rw [framerFindMagic] at hi
    split at hi
    · exact absurd hi (Nat.not_lt_zero i)
    · rename_i hc
      cases i with
      | zero => exact lookFrame_of_not_candidate (by simpa using hc)
      | succ i => exact ih i (by omega)

theorem isCandidate_findMagic (bs : List UInt8) :
    isCandidate (bs.drop (framerFindMagic bs)) = true := by
  induction bs with
  | nil => rfl
  | cons b bs ih =>
    rw [framerFindMagic]
    split
    · rename_i hc; exact hc
    · exact ih

/-- What a call of pop returns and leaves, in terms of the hunt of the scanner. -/
def handOut (pending : Nat) : Option (Nat × Frame) × List UInt8 → Option Frame × Framer
  | (none, rest) => (none, ⟨rest, pending⟩)
  | (some (n, frame), rest) => (some frame, ⟨rest, n⟩)

/-- **The loop of pop hunts for the next frame.**  A round either ends it or drops a byte, so one
round more than there are bytes is enough. -/
theorem framerPopLoop_eq (fuel : Nat) (bs : List UInt8) (pending : Nat) (h : bs.length < fuel) :
    framerPopLoop fuel ⟨bs, pending⟩ = some (handOut pending (frames.hunt bs)) := by
  induction fuel generalizing bs with
  | zero => exact absurd h (Nat.not_lt_zero _)
  | succ fuel ih =>
    have hc := isCandidate_findMagic bs
    have hhunt := frames.hunt_drop bs (framerFindMagic bs) (skip_before_findMagic bs)
    have hle : (bs.drop (framerFindMagic bs)).length ≤ bs.length := by
      rw [List.length_drop]
      omega
    have hif : (if framerFindMagic bs > 0 then framerDropFront ⟨bs, pending⟩ (framerFindMagic bs)
        else ⟨bs, pending⟩) = ⟨bs.drop (framerFindMagic bs), pending⟩ := by
      split
      · exact framerDropFront_eq _ _
      · rename_i h0
        rw [Nat.eq_zero_of_not_pos h0, List.drop_zero]
    rw [framerPopLoop, hif, ← hhunt]
    generalize bs.drop (framerFindMagic bs) = cs at hc hle
    -- from here on the bytes start with a candidate
    have hdrop : framerDropFront ⟨cs, pending⟩ 1 = ⟨cs.tail, pending⟩ := by
      rw [framerDropFront_eq, List.drop_one]
    by_cases hlen : cs.length < ofstDataLen + sizeDataLen
    · have hlook : frames.look cs = .more := lookFrame_of_short hc hlen
      simp only [if_pos hlen]
      rw [frames.hunt_of_more hlook]
      rfl
    have hlook : frames.look cs = judgeFrame cs := lookFrame_of_header hc hlen
    have htail : cs.tail.length < fuel := by
      simp only [ofstDataLen, sizeDataLen] at hlen
      rw [List.length_tail]
      omega
    simp only [if_neg hlen, hdrop, ih cs.tail htail]
    simp only [judgeFrame] at hlook
    split
    · rename_i hmax
      rw [if_pos hmax] at hlook
      rw [frames.hunt_of_skip hlook]
    rename_i hmax
    rw [if_neg hmax] at hlook
    split
    · rename_i hw
      rw [if_pos hw] at hlook
      rw [frames.hunt_of_more hlook]
      rfl
    rename_i hw
    rw [if_neg hw] at hlook
    split
    · rename_i frame hdec
      rw [hdec] at hlook
      rw [frames.hunt_of_emit hlook]
      rfl
    · rename_i e hdec
      rw [hdec] at hlook
      rw [frames.hunt_of_skip hlook]

/-- The bytes a call finds after it has reclaimed those of the last frame. -/
def Framer.unread (f : Framer) : List UInt8 := f.buf.drop f.pending

theorem unread_mk (bs : List UInt8) (pending : Nat) :
    Framer.unread ⟨bs, pending⟩ = bs.drop pending := rfl

theorem length_unread_le (f : Framer) : f.unread.length ≤ f.buf.length := by
  rw [Framer.unread, List.length_drop]
  omega

/-- **Pop ends, and returns the next frame.** -/
theorem framerPop_eq (f : Framer) {fuel : Nat} (h : f.unread.length < fuel) :
    framerPop fuel f = some (handOut 0 (frames.hunt f.unread)) := by
  rw [framerPop, framerReclaimPending_eq]
  exact framerPopLoop_eq fuel _ 0 h

/-! ## One call of push -/

theorem framerPushByte_eq (bs : List UInt8) (pending : Nat) (b : UInt8)
    (h : bs.length ≤ frameMax) :
    framerPushByte ⟨bs, pending⟩ b =
      ⟨(bs ++ [b]).drop ((bs ++ [b]).length - frameMax), pending⟩ := by
  simp only [framerPushByte, List.length_append, List.length_singleton]
  split
  · rename_i hfull
    have hone : bs.length + 1 - frameMax = 1 := by omega
    have hpos : 1 ≤ bs.length := by rw [hfull]; decide
    rw [framerDropFront_eq, hone, List.drop_append_of_le_length hpos]
  · have hzero : bs.length + 1 - frameMax = 0 := by omega
    rw [hzero, List.drop_zero]

/-- **A push keeps the last `ESUP_FRAME_MAX` bytes** of what was there and what it brings. -/
theorem framerPush_eq (f : Framer) (bytes : List UInt8) (h : f.unread.length ≤ frameMax) :
    framerPush f bytes =
      ⟨(f.unread ++ bytes).drop ((f.unread ++ bytes).length - frameMax), 0⟩ := by
  rw [framerPush, framerReclaimPending_eq]
  change bytes.foldl framerPushByte ⟨f.unread, 0⟩ = _
  generalize f.unread = bs at h
  induction bytes generalizing bs with
  | nil =>
    have hzero : bs.length - frameMax = 0 := by omega
    rw [List.foldl_nil, List.append_nil, hzero, List.drop_zero]
  | cons b bytes ih =>
    have hle : (bs ++ [b]).length - frameMax ≤ (bs ++ [b]).length := Nat.sub_le _ _
    have hsum : ((bs ++ [b]).length - frameMax) +
        (((bs ++ b :: bytes).drop ((bs ++ [b]).length - frameMax)).length - frameMax) =
        (bs ++ b :: bytes).length - frameMax := by
      simp only [List.length_append, List.length_drop, List.length_cons, List.length_nil]
      omega
    rw [List.foldl_cons, framerPushByte_eq bs 0 b h, ih _ (by rw [List.length_drop]; omega),
      ← List.drop_append_of_le_length hle, List.append_assoc, List.singleton_append,
      List.drop_drop, hsum]

end Esup
end FlightApps
