import FlightApps.Lib.Scanner
import FlightApps.Oem.Feed

/-!
# Frames in a stream of receiver bytes

What the state machine looks for, said of the stream alone.  A frame starts with the three sync
bytes.  Its header tells how many bytes are judged together (`extent`), and with what result: they
are a message whose CRC is to be checked, or they are rejected.  `frames` is the scanner that cuts
a stream accordingly.

Some headers are rejected on their own, but not at once: the machine finds that there is no room
for what they announce, or that a response has no body, only when it is fed with the next byte.
Such a rejection is `late`, and its caller may drop the byte that brought it about.  The scanner
comes in two versions, one that leaves that byte in the stream and one that drops it.

The machine never judges before the scanner does (`Headed.lt_extent`), and `Oem/Hunting.lean` shows
that it judges the same way.
-/

set_option autoImplicit false

namespace FlightApps
namespace Oem

/-! ## Headers and what follows them -/

/-- What a header tells of its frame. -/
structure Extent where
  /-- The number of bytes that are judged together. -/
  size : Nat
  /-- They are judged when one byte more is there. -/
  late : Bool
  /-- They are rejected with an error, or are a message up to its CRC. -/
  ret : Status

/-- What the header at the front tells. -/
def extent (bs : List UInt8) : Extent :=
  let size := headerSize + (messageLength bs).toNat
  if (headerLength bs).toNat ≠ headerSize then ⟨headerSize, false, .headerSize⟩
  else if bufSize < size then ⟨headerSize, true, .tooLarge⟩
  else if hasResponseBit bs = true ∧ size < responseSize then
    ⟨size, size == headerSize, .respSize⟩
  else if bufSize < size + crcSize then ⟨size, true, .tooLarge⟩
  else ⟨size + crcSize, false, .ok⟩

/-- The last four bytes are the CRC of those before them. -/
def CrcMatches (bs : List UInt8) : Prop :=
  Layout.u32.read (bs.drop (bs.length - crcSize)) = oemCrc32 (bs.take (bs.length - crcSize))

instance (bs : List UInt8) : Decidable (CrcMatches bs) := inferInstanceAs (Decidable (_ = _))

/-- Bytes that were judged together. -/
structure Finding where
  ret : Status
  bytes : List UInt8
  late : Bool
deriving DecidableEq

/-- The judgement on the frame at the front; its CRC may be taken as it is. -/
def judge (skipCrc : Bool) (bs : List UInt8) : Finding where
  ret :=
    if (extent bs).ret ≠ .ok then (extent bs).ret
    else if skipCrc = true ∨ CrcMatches (bs.take (extent bs).size) then .ok
    else .crc
  bytes := bs.take (extent bs).size
  late := (extent bs).late

/-- The sync bytes. -/
def syncBytes : List UInt8 := [syncByte1, syncByte2, syncByte3]

/-- The first bytes may be those of a frame. -/
def Synced (bs : List UInt8) : Prop := bs.take 3 <+: syncBytes

instance (bs : List UInt8) : Decidable (Synced bs) := inferInstanceAs (Decidable (_ <+: _))

/-- The verdict on the front of a stream.  With `drops`, a late rejection takes the byte that
brought it about. -/
def lookFrame (skipCrc drops : Bool) (bs : List UInt8) : Scanner.Verdict Finding :=
  if ¬Synced bs then .skip
  else if bs.length < headerSize then .more
  else if bs.length < (extent bs).size + (extent bs).late.toNat then .more
  else .emit ((extent bs).size + (drops && (extent bs).late).toNat) (judge skipCrc bs)

/-! ## More bytes change nothing -/

section Append

variable {bs : List UInt8} (cs : List UInt8)

theorem headerLength_append (h : headerSize ≤ bs.length) :
    headerLength (bs ++ cs) = headerLength bs := by
  rw [headerSize] at h
  rw [headerLength, headerLength, List.drop_append_of_le_length (by omega)]
  exact Layout.word_read_append (by rw [List.length_drop]; omega) cs

theorem messageID_append (h : headerSize ≤ bs.length) :
    messageID (bs ++ cs) = messageID bs := by
  rw [headerSize] at h
  rw [messageID, messageID, List.drop_append_of_le_length (by omega)]
  exact Layout.word_read_append (by rw [List.length_drop]; omega) cs

theorem messageLength_append (h : headerSize ≤ bs.length) :
    messageLength (bs ++ cs) = messageLength bs := by
  rw [headerSize] at h
  rw [messageLength, messageLength, List.drop_append_of_le_length (by omega)]
  exact Layout.word_read_append (by rw [List.length_drop]; omega) cs

theorem hasResponseBit_append (h : headerSize ≤ bs.length) :
    hasResponseBit (bs ++ cs) = hasResponseBit bs := by
  rw [headerSize] at h
  rw [hasResponseBit, hasResponseBit, messageType, messageType,
    List.drop_append_of_le_length (by omega)]
  congr 2
  exact Layout.word_read_append (by rw [List.length_drop]; omega) cs

theorem responseId_append (h : responseSize ≤ bs.length) :
    responseId (bs ++ cs) = responseId bs := by
  rw [responseSize] at h
  rw [responseId, responseId, headerSize, List.drop_append_of_le_length (by omega)]
  exact Layout.word_read_append (by rw [List.length_drop]; omega) cs

theorem extent_append (h : headerSize ≤ bs.length) : extent (bs ++ cs) = extent bs := by
  rw [extent, extent, headerLength_append cs h, messageLength_append cs h,
    hasResponseBit_append cs h]

theorem judge_append (skipCrc : Bool) (h : headerSize ≤ bs.length)
    (hsize : (extent bs).size ≤ bs.length) : judge skipCrc (bs ++ cs) = judge skipCrc bs := by
  rw [judge, judge, extent_append cs h, List.take_append_of_le_length hsize]

theorem Synced.of_append (h : Synced (bs ++ cs)) : Synced bs := by
  refine List.IsPrefix.trans ?_ h
  rw [List.take_append]
  exact List.prefix_append _ _

theorem synced_append (h : headerSize ≤ bs.length) : Synced (bs ++ cs) ↔ Synced bs := by
  rw [headerSize] at h
  rw [Synced, Synced, List.take_append_of_le_length (by omega)]

end Append

theorem headerSize_le_size (bs : List UInt8) : headerSize ≤ (extent bs).size := by
  simp only [extent]
  repeat' split
  all_goals simp only [headerSize, crcSize]; omega

theorem size_le_bufSize (bs : List UInt8) : (extent bs).size ≤ bufSize := by
  simp only [extent]
  repeat' split
  all_goals simp only [headerSize, crcSize, bufSize] at *; omega

/-! ## The scanner -/

theorem lookFrame_more {skipCrc drops : Bool} {bs : List UInt8} (hsync : Synced bs)
    (h : bs.length < headerSize ∨ bs.length < (extent bs).size + (extent bs).late.toNat) :
    lookFrame skipCrc drops bs = .more := by
  rw [lookFrame, if_neg (not_not.2 hsync)]
  rcases h with h | h
  · rw [if_pos h]
  · rw [if_pos h, ite_self]

theorem lookFrame_emit {skipCrc drops : Bool} {bs : List UInt8} (hsync : Synced bs)
    (hheader : headerSize ≤ bs.length)
    (h : (extent bs).size + (extent bs).late.toNat ≤ bs.length) :
    lookFrame skipCrc drops bs =
      .emit ((extent bs).size + (drops && (extent bs).late).toNat) (judge skipCrc bs) := by
  rw [lookFrame, if_neg (not_not.2 hsync), if_neg (Nat.not_lt.2 hheader), if_neg (Nat.not_lt.2 h)]

theorem lookFrame_skip {skipCrc drops : Bool} {bs : List UInt8} (hsync : ¬Synced bs) :
    lookFrame skipCrc drops bs = .skip := if_pos hsync

/-- What a verdict says of the bytes. -/
theorem lookFrame_cases (skipCrc drops : Bool) (bs : List UInt8) :
    (¬Synced bs ∧ lookFrame skipCrc drops bs = .skip) ∨
      (Synced bs ∧
        (bs.length < headerSize ∨ bs.length < (extent bs).size + (extent bs).late.toNat) ∧
          lookFrame skipCrc drops bs = .more) ∨
      (Synced bs ∧ headerSize ≤ bs.length ∧
        (extent bs).size + (extent bs).late.toNat ≤ bs.length ∧
          lookFrame skipCrc drops bs =
            .emit ((extent bs).size + (drops && (extent bs).late).toNat) (judge skipCrc bs)) := by
  by_cases hsync : Synced bs
  · by_cases hmore : bs.length < headerSize ∨
        bs.length < (extent bs).size + (extent bs).late.toNat
    · exact .inr (.inl ⟨hsync, hmore, lookFrame_more hsync hmore⟩)
    · rw [not_or, Nat.not_lt, Nat.not_lt] at hmore
      exact .inr (.inr ⟨hsync, hmore.1, hmore.2, lookFrame_emit hsync hmore.1 hmore.2⟩)
  · exact .inl ⟨hsync, lookFrame_skip hsync⟩

/-- **The scanner for frames.** -/
def frames (skipCrc drops : Bool) : Scanner UInt8 Finding where
  look := lookFrame skipCrc drops
  look_nil := lookFrame_more (by decide) (.inl (by decide))
  emit_bounds := by
    intro bs n x h
    have hdrop : (drops && (extent bs).late).toNat ≤ (extent bs).late.toNat := by
      rcases drops <;> simp
    rcases lookFrame_cases skipCrc drops bs with ⟨-, hlook⟩ | ⟨-, -, hlook⟩ | ⟨-, -, hsize, hlook⟩
    all_goals rw [hlook] at h; cases h
    have := headerSize_le_size bs
    rw [headerSize] at this
    omega
  stable := by
    intro bs cs h
    rcases lookFrame_cases skipCrc drops bs with ⟨hno, hlook⟩ | ⟨-, -, hlook⟩ |
        ⟨hsync, hheader, hsize, hlook⟩
    · rw [hlook]
      exact lookFrame_skip fun hall => hno (hall.of_append cs)
    · exact absurd hlook h
    · have hlen : (extent bs).size + (extent bs).late.toNat ≤ (bs ++ cs).length := by
        rw [List.length_append]
        omega
      rw [hlook, lookFrame_emit ((synced_append cs hheader).2 hsync)
        (by rw [List.length_append]; omega) (by rw [extent_append cs hheader]; exact hlen),
        extent_append cs hheader, judge_append cs skipCrc hheader (by omega)]

theorem frames_look (skipCrc drops : Bool) (bs : List UInt8) :
    (frames skipCrc drops).look bs = lookFrame skipCrc drops bs := rfl

/-! ## What a header announces -/

/-- The bytes start with a header of the right size. -/
structure Headed (w : List UInt8) : Prop where
  synced : Synced w
  header : headerSize ≤ w.length
  size : (headerLength w).toNat = headerSize

/-- The size of the header and the body. -/
def bodyEnd (w : List UInt8) : Nat := headerSize + (messageLength w).toNat

/-- A response has a response id. -/
def ResponseFits (w : List UInt8) : Prop := hasResponseBit w = true → responseSize ≤ bodyEnd w

theorem extent_of_size {w : List UInt8} (h : (headerLength w).toNat ≠ headerSize) :
    extent w = ⟨headerSize, false, .headerSize⟩ := by
  rw [extent]
  exact if_pos h

theorem ResponseFits.not_short {w : List UInt8} (h : ResponseFits w) :
    ¬(hasResponseBit w = true ∧ bodyEnd w < responseSize) := by
  rintro ⟨hbit, hlt⟩
  exact absurd (h hbit) (Nat.not_le.2 hlt)

namespace Headed

variable {w : List UInt8} (hw : Headed w)

include hw

theorem append (cs : List UInt8) : Headed (w ++ cs) where
  synced := (synced_append cs hw.header).2 hw.synced
  header := by
    have := hw.header
    rw [List.length_append]
    omega
  size := by rw [headerLength_append cs hw.header, hw.size]

theorem bodyEnd_append (cs : List UInt8) : bodyEnd (w ++ cs) = bodyEnd w := by
  rw [bodyEnd, messageLength_append cs hw.header, bodyEnd]

theorem responseFits_append (cs : List UInt8) : ResponseFits (w ++ cs) ↔ ResponseFits w := by
  rw [ResponseFits, hasResponseBit_append cs hw.header, hw.bodyEnd_append cs, ResponseFits]

theorem extent_large (h : bufSize < bodyEnd w) : extent w = ⟨headerSize, true, .tooLarge⟩ := by
  rw [extent]
  exact (if_neg (not_not.2 hw.size)).trans (if_pos h)

theorem extent_short (hfit : bodyEnd w ≤ bufSize) (h : ¬ResponseFits w) :
    extent w = ⟨bodyEnd w, bodyEnd w == headerSize, .respSize⟩ := by
  rw [ResponseFits, Classical.not_imp, Nat.not_le] at h
  rw [extent]
  exact (if_neg (not_not.2 hw.size)).trans ((if_neg (Nat.not_lt.2 hfit)).trans (if_pos h))

theorem extent_full (hfit : bodyEnd w ≤ bufSize) (hresponse : ResponseFits w)
    (h : bufSize < bodyEnd w + crcSize) : extent w = ⟨bodyEnd w, true, .tooLarge⟩ := by
  rw [extent]
  exact (if_neg (not_not.2 hw.size)).trans ((if_neg (Nat.not_lt.2 hfit)).trans
    ((if_neg hresponse.not_short).trans (if_pos h)))

theorem extent_ok (hfit : bodyEnd w + crcSize ≤ bufSize) (hresponse : ResponseFits w) :
    extent w = ⟨bodyEnd w + crcSize, false, .ok⟩ := by
  have hbody : ¬bufSize < bodyEnd w := by omega
  rw [extent]
  exact (if_neg (not_not.2 hw.size)).trans ((if_neg hbody).trans
    ((if_neg hresponse.not_short).trans (if_neg (Nat.not_lt.2 hfit))))

/-- The frame reaches beyond the bytes that are not all of it. -/
theorem lt_extent
    (h : w.length < bodyEnd w + crcSize ∧ bodyEnd w + crcSize ≤ bufSize ∧ ResponseFits w ∨
      w.length ≤ bodyEnd w ∧ bodyEnd w ≤ bufSize ∧ ResponseFits w ∨
      w.length < bodyEnd w ∧ bodyEnd w ≤ bufSize ∨ w.length = headerSize) :
    w.length < (extent w).size + (extent w).late.toNat := by
  have hpos : 0 < crcSize := by decide
  have hheader : headerSize ≤ bodyEnd w := Nat.le_add_right _ _
  by_cases hlarge : bufSize < bodyEnd w
  · rw [hw.extent_large hlarge]
    show w.length < headerSize + 1
    omega
  have hfit : bodyEnd w ≤ bufSize := Nat.le_of_not_lt hlarge
  by_cases hresponse : ResponseFits w
  · by_cases hfull : bufSize < bodyEnd w + crcSize
    · rw [hw.extent_full hfit hresponse hfull]
      show w.length < bodyEnd w + 1
      omega
    · rw [hw.extent_ok (Nat.le_of_not_lt hfull) hresponse]
      show w.length < bodyEnd w + crcSize + 0
      omega
  · rw [hw.extent_short hfit hresponse]
    show w.length < bodyEnd w + (bodyEnd w == headerSize).toNat
    have hshort : w.length < bodyEnd w ∨ w.length = headerSize := by
      rcases h with ⟨-, -, hyes⟩ | ⟨-, -, hyes⟩ | ⟨hlt, -⟩ | heq
      · exact absurd hyes hresponse
      · exact absurd hyes hresponse
      · exact .inl hlt
      · exact .inr heq
    by_cases hempty : bodyEnd w = headerSize
    · rw [beq_iff_eq.2 hempty]
      show w.length < bodyEnd w + 1
      omega
    · rw [beq_eq_false_iff_ne.2 hempty]
      show w.length < bodyEnd w + 0
      omega

end Headed

end Oem
end FlightApps
