import FlightApps.Oem.Hunting

/-!
# Reading replies, however the reads split the bytes

`oem_task_read_single_reply` starts with a machine that was reset, feeds it with what is left in
the buffer of the I/O interface and then with read after read, and returns with the first message
or error.  On an error for which `sm_feed` has consumed nothing it consumes one byte itself, to
make progress.  That byte is not part of what was rejected.

The error comes without a byte consumed when a rejection is late and the byte that brings it about
is the first of a read: then the byte is dropped.  When the same bytes come in one read, `sm_feed`
has consumed the header, and the byte stays to be parsed.  So the replies do depend on how the
reads split the stream (`late_rejection_loses_message`), and they are those of a stream that is
read byte by byte exactly when every late rejection ends where a read starts
(`replies_bytewise_iff`).
-/

set_option autoImplicit false

namespace FlightApps
namespace Oem

/-! ## The driver -/

/-- What a call returns: a message with its context, or an error, and then whether the caller had
to consume a byte for it that `sm_feed` had not. -/
inductive Reply
  | message (bytes : List UInt8) (ctx : Context)
  | error (ret : Status) (forced : Bool)
deriving DecidableEq

/-- An I/O interface: the bytes in its buffer, and the reads to come. -/
structure Port where
  avail : List UInt8
  reads : List (List UInt8)

/-- What feeding all available bytes leads to. -/
structure Outcome where
  reply : Option Reply
  sm : StateMachine
  ctx : Context
  avail : List UInt8

/-- Peek, feed, consume: the bytes that `sm_feed` has consumed, but at least one on an error. -/
def feedAvailable (sm : StateMachine) (ctx : Context) (avail : List UInt8) : Option Outcome :=
  (smFeed sm avail ctx).map fun r =>
    have forced : Bool := r.1 ≠ .ok ∧ r.2.i = 0
    { reply :=
        if r.1 ≠ .ok then some (.error r.1 forced)
        else if r.2.sm.state = .messageReady then some (.message r.2.sm.bytes r.2.ctx)
        else none
      sm := r.2.sm
      ctx := r.2.ctx
      avail := avail.drop (if forced then 1 else r.2.i) }

/-- Read and feed until there is a reply; without one when the reads have run out, where the
driver goes on waiting up to its deadline. -/
def awaitReply (sm : StateMachine) (ctx : Context) (avail : List UInt8) :
    List (List UInt8) → Option (Option (Reply × Port))
  | [] => some none
  | read :: reads =>
    if avail ++ read = [] then awaitReply sm ctx [] reads
    else
      (feedAvailable sm ctx (avail ++ read)).bind fun out =>
        match out.reply with
        | some reply => some (some (reply, ⟨out.avail, reads⟩))
        | none => awaitReply out.sm out.ctx out.avail reads

/-- `oem_task_read_single_reply`. -/
def readSingleReply (port : Port) : Option (Option (Reply × Port)) :=
  if port.avail = [] then awaitReply smReset .zero [] port.reads
  else
    (feedAvailable smReset .zero port.avail).bind fun out =>
      match out.reply with
      | some reply => some (some (reply, ⟨out.avail, port.reads⟩))
      | none => awaitReply out.sm out.ctx out.avail port.reads

/-- The replies to a number of calls, as far as the reads reach. -/
def replies : Nat → Port → Option (List Reply)
  | 0, _ => some []
  | n + 1, port =>
    (readSingleReply port).bind fun r =>
      match r with
      | none => some []
      | some (reply, port) => (replies n port).map fun rs => reply :: rs

/-- A stream that is read byte by byte. -/
def bytewise (stream : List UInt8) : List (List UInt8) := stream.map fun b => [b]

/-! ## Late rejections -/

/-- The late rejections in a stream that is read byte by byte: for each the number of bytes that
come after it. -/
def lateRejections (stream : List UInt8) : List Nat :=
  ((frames false true).places stream).filterMap fun p =>
    if p.2.late then some (p.1 - p.2.bytes.length) else none

/-- A read starts where so many bytes are still to come. -/
def ReadStarts (reads : List (List UInt8)) (left : Nat) : Prop :=
  ∃ rs, rs <:+ reads ∧ rs.flatten.length = left

/-- Every late rejection ends where a read starts. -/
def Aligned (reads : List (List UInt8)) : Prop :=
  ∀ left ∈ lateRejections reads.flatten, ReadStarts reads left

/-! ## The two scanners -/

theorem lookFrame_drops {skipCrc : Bool} {bs : List UInt8} {n : Nat} {x : Finding}
    (h : lookFrame skipCrc false bs = .emit n x) :
    Synced bs ∧ headerSize ≤ n ∧ n = (extent bs).size ∧ x = judge skipCrc bs ∧
      n + x.late.toNat ≤ bs.length ∧
        lookFrame skipCrc true bs = .emit (n + x.late.toNat) x := by
  rcases lookFrame_cases skipCrc false bs with ⟨-, hlook⟩ | ⟨-, -, hlook⟩ |
    ⟨hsync, hheader, hsize, hlook⟩
  all_goals rw [hlook] at h; cases h
  exact ⟨hsync, headerSize_le_size bs, rfl, rfl, hsize, lookFrame_emit hsync hheader hsize⟩

/-- What the hunt finds is found with the dropped byte as well. -/
theorem hunt_drops {skipCrc : Bool} {bs rest : List UInt8} {found : Option (Nat × Finding)}
    (h : (frames skipCrc false).hunt bs = (found, rest)) :
    (frames skipCrc true).hunt bs =
      (found.map fun p => (p.1 + p.2.late.toNat, p.2), rest) := by
  induction bs using Scanner.hunt.induct (frames skipCrc false) with
  | case1 bs hl =>
    have hmore : lookFrame skipCrc true bs = .more := by
      rcases lookFrame_cases skipCrc true bs with ⟨hno, -⟩ | ⟨-, -, hlook⟩ |
        ⟨hsync, hheader, hsize, -⟩
      · cases (lookFrame_skip hno).symm.trans hl
      · exact hlook
      · cases (lookFrame_emit hsync hheader hsize).symm.trans hl
    rw [Scanner.hunt_of_more _ hl] at h
    cases h
    exact Scanner.hunt_of_more _ hmore
  | case2 bs hl ih =>
    rw [Scanner.hunt_of_skip _ hl] at h
    have hskip : lookFrame skipCrc true bs = .skip := by
      rcases lookFrame_cases skipCrc false bs with ⟨hno, -⟩ | ⟨-, -, hlook⟩ | ⟨-, -, -, hlook⟩
      · exact lookFrame_skip hno
      · cases hlook.symm.trans hl
      · cases hlook.symm.trans hl
    rw [Scanner.hunt_of_skip _ hskip, ih h]
  | case3 bs n x hl =>
    rw [Scanner.hunt_of_emit _ hl] at h
    cases h
    exact Scanner.hunt_of_emit _ (lookFrame_drops hl).2.2.2.2.2

/-- What starts in the bytes that are held ends in those that follow, and where it ends with those
that are held it is late. -/
theorem hunt_reaches {skipCrc : Bool} {w data rest : List UInt8} {n : Nat} {x : Finding}
    (hw : lookFrame skipCrc false w = .more)
    (h : (frames skipCrc false).hunt (w ++ data) = (some (n, x), rest)) :
    rest.length ≤ n + data.length ∧ (rest.length = n + data.length → x.late = true) := by
  obtain ⟨-, hn, hsize, hx, -, -⟩ := lookFrame_drops ((frames skipCrc false).look_hunt h)
  have hle : rest.length ≤ w.length + data.length := by
    have := (frames skipCrc false).length_hunt (w ++ data)
    rwa [h, List.length_append] at this
  rcases lookFrame_cases skipCrc false w with ⟨-, hlook⟩ | ⟨hsync, hmore, -⟩ | ⟨-, -, -, hlook⟩
  · cases hlook.symm.trans hw
  · by_cases hshort : w.length < headerSize
    · exact ⟨by omega, fun heq => absurd heq (by omega)⟩
    · have hlong : headerSize ≤ w.length := Nat.le_of_not_lt hshort
      have hlt := hmore.resolve_left hshort
      have hall : Synced (w ++ data) := (synced_append data hlong).2 hsync
      have hrest : rest = w ++ data := by
        rcases lookFrame_cases skipCrc false (w ++ data) with ⟨hno, -⟩ | ⟨-, -, hlook⟩ |
          ⟨-, -, -, hlook⟩
        · exact absurd hall hno
        · rw [Scanner.hunt_of_more _ hlook] at h
          cases h
        · rw [Scanner.hunt_of_emit _ hlook] at h
          cases h
          rfl
      have hlen : rest.length = w.length + data.length := by rw [hrest, List.length_append]
      have hlate : x.late = (extent w).late := by rw [hx, judge, hrest, extent_append data hlong]
      rw [hrest, extent_append data hlong] at hsize
      rcases hl : (extent w).late with _ | _
      · rw [hl, Bool.toNat_false] at hlt
        exact ⟨by omega, fun heq => absurd heq (by omega)⟩
      · rw [hl, Bool.toNat_true] at hlt
        exact ⟨by omega, fun _ => hlate.trans hl⟩
  · cases hlook.symm.trans hw

/-- A late judgement rejects. -/
theorem ret_of_late {skipCrc : Bool} {bs : List UInt8} (h : (judge skipCrc bs).late = true) :
    (judge skipCrc bs).ret ≠ .ok := by
  have hext : (extent bs).ret ≠ .ok := by
    revert h
    simp only [judge, extent]
    repeat' split
    all_goals simp
  rw [judge]
  dsimp only
  rw [if_pos hext]
  exact hext

/-! ## One call -/

/-- The reply to a finding. -/
def replyOf (x : Finding) (forced : Bool) : Reply :=
  if x.ret = .ok then .message x.bytes (noteMessage .zero x.bytes) else .error x.ret forced

/-- What feeding all available bytes leads to, said of the stream: no reply, or the reply to the
first finding, with a byte dropped if the finding is late and the data starts behind it. -/
theorem feedAvailable_spec {sm : StateMachine} {ctx : Context} {w data : List UInt8}
    (h : Waiting .zero w sm ctx) (hdata : data ≠ []) :
    ∃ out, feedAvailable sm ctx data = some out ∧
      (out.reply = none ∧ out.avail = [] ∧
          (∃ w', Waiting .zero w' out.sm out.ctx ∧
            (frames false false).hunt (w ++ data) = (none, w')) ∨
        ∃ n x rest forced, (frames false false).hunt (w ++ data) = (some (n, x), rest) ∧
          out.reply = some (replyOf x forced) ∧ out.avail = rest.drop (n + forced.toNat) ∧
            (forced = true ↔ x.late = true ∧ rest.length = n + data.length)) := by
  obtain ⟨⟨ret, f⟩, hfeed⟩ := smFeed_isSome sm data ctx
  refine ⟨_, by rw [feedAvailable, hfeed]; rfl, ?_⟩
  rcases smFeed_spec h hfeed with ⟨hi, hwaiting, hhunt⟩ |
    @⟨_, _, w', hi, hdecided, hstopped, hhunt⟩
  · left
    have hlen : ¬(Status.ok ≠ .ok ∧ f.i = 0) := fun h => h.1 rfl
    dsimp only
    rw [if_neg (not_not.2 rfl), if_neg hwaiting.not_ready, decide_eq_false hlen, hi]
    exact ⟨rfl, List.drop_length, _, hwaiting, hhunt⟩
  · right
    have hreach := hunt_reaches (h.look_more false false) hhunt
    have hpos : 0 < data.length := List.length_pos_iff.2 hdata
    have hrest : (w' ++ data.drop f.i).length = w'.length + (data.length - f.i) := by
      rw [List.length_append, List.length_drop]
    refine ⟨_, _, _, decide (ret ≠ .ok ∧ f.i = 0), hhunt, ?_, ?_, ?_⟩
    · dsimp only
      rw [replyOf, hdecided.ret, hdecided.judge_bytes]
      by_cases hok : ret = .ok
      · obtain ⟨hstate, hbytes, -, -, hctx⟩ := hstopped.message hok
        rw [if_neg (not_not.2 hok), if_pos hstate, if_pos hok, hbytes, hctx]
      · rw [if_pos hok, if_neg hok]
    · dsimp only
      rw [List.drop_append]
      by_cases hforced : ret ≠ .ok ∧ f.i = 0
      · rw [decide_eq_true hforced, hforced.2, if_pos rfl]
        simp
      · rw [decide_eq_false hforced, if_neg Bool.false_ne_true]
        simp
    · rw [decide_eq_true_iff, hrest]
      constructor
      · rintro ⟨-, hzero⟩
        have heq : w'.length + (data.length - f.i) = w'.length + data.length := by omega
        exact ⟨hreach.2 (hrest.trans heq), heq⟩
      · rintro ⟨hlate, heq⟩
        exact ⟨hdecided.ret ▸ ret_of_late hlate, by omega⟩

/-! ## Where the reads start -/

theorem readStarts_cons {read : List UInt8} {reads : List (List UInt8)} {left : Nat} :
    ReadStarts (read :: reads) left ↔
      (read :: reads).flatten.length = left ∨ ReadStarts reads left := by
  constructor
  · rintro ⟨rs, hrs, hleft⟩
    rcases List.suffix_cons_iff.1 hrs with rfl | hrs
    · exact .inl hleft
    · exact .inr ⟨rs, hrs, hleft⟩
  · rintro (hleft | ⟨rs, hrs, hleft⟩)
    · exact ⟨_, List.suffix_refl _, hleft⟩
    · exact ⟨rs, hrs.trans (List.suffix_cons _ _), hleft⟩

theorem ReadStarts.le {reads : List (List UInt8)} {left : Nat} (h : ReadStarts reads left) :
    left ≤ reads.flatten.length := by
  obtain ⟨rs, ⟨pre, rfl⟩, rfl⟩ := h
  rw [List.flatten_append, List.length_append]
  exact Nat.le_add_left _ _

theorem readStarts_all (reads : List (List UInt8)) : ReadStarts reads reads.flatten.length :=
  ⟨reads, List.suffix_refl _, rfl⟩

/-- A read that has been begun makes no difference behind its first byte. -/
theorem readStarts_cons_lt {read : List UInt8} {reads : List (List UInt8)} {left : Nat}
    (h : left < (read :: reads).flatten.length) :
    ReadStarts (read :: reads) left ↔ ReadStarts reads left := by
  rw [readStarts_cons]
  exact or_iff_right (by omega)

theorem readStarts_nil_cons {reads : List (List UInt8)} {left : Nat} :
    ReadStarts ([] :: reads) left ↔ ReadStarts reads left := by
  rw [readStarts_cons, List.flatten_cons, List.nil_append]
  exact or_iff_right_of_imp fun h => h ▸ readStarts_all reads

theorem flatten_bytewise (bs : List UInt8) : (bytewise bs).flatten = bs := by
  induction bs with
  | nil => rfl
  | cons b bs ih =>
    rw [bytewise, List.map_cons, List.flatten_cons, ← bytewise, ih, List.singleton_append]

theorem readStarts_bytewise {stream : List UInt8} {left : Nat} (h : left ≤ stream.length) :
    ReadStarts (bytewise stream) left := by
  refine ⟨bytewise (stream.drop (stream.length - left)), ?_, ?_⟩
  · rw [bytewise, bytewise, List.map_drop]
    exact List.drop_suffix _ _
  · rw [flatten_bytewise, List.length_drop]
    omega

/-- What a call answers for a stream that comes in reads: nothing, or the reply to the first
finding.  A byte is dropped exactly if the finding is late and a read starts behind it; the reads
that are left start where they did. -/
inductive Answer (stream : List UInt8) (reads : List (List UInt8)) :
    Option (Reply × Port) → Prop
  | nothing {rest : List UInt8} (hhunt : (frames false false).hunt stream = (none, rest)) :
      Answer stream reads none
  | reply {n : Nat} {x : Finding} {rest : List UInt8} {forced : Bool} {port : Port}
      (hhunt : (frames false false).hunt stream = (some (n, x), rest))
      (hleft : port.avail ++ port.reads.flatten = rest.drop (n + forced.toNat))
      (hforced : forced = true ↔ x.late = true ∧ ReadStarts reads (rest.length - n))
      (hreads : ∀ left, left < (rest.drop (n + forced.toNat)).length →
        (ReadStarts port.reads left ↔ ReadStarts reads left)) :
      Answer stream reads (some (replyOf x forced, port))

/-- Reading on after data in which no frame was complete. -/
theorem Answer.later {w w' read : List UInt8} {reads : List (List UInt8)}
    {r : Option (Reply × Port)} (hread : read ≠ [])
    (hw' : lookFrame false false w' = .more)
    (hhunt : (frames false false).hunt (w ++ read) = (none, w'))
    (h : Answer (w' ++ reads.flatten) reads r) :
    Answer (w ++ (read :: reads).flatten) (read :: reads) r := by
  have hsame : (frames false false).hunt (w ++ (read :: reads).flatten) =
      (frames false false).hunt (w' ++ reads.flatten) := by
    rw [List.flatten_cons, ← List.append_assoc]
    exact Scanner.hunt_append_none _ hhunt _
  have hpos : 0 < read.length := List.length_pos_iff.2 hread
  rcases h with hnone | @⟨n, x, rest, forced, port, hsome, hleft, hforced, hreads⟩
  · exact .nothing (hsame.trans hnone)
  · have hreach := (hunt_reaches hw' hsome).1
    refine .reply (hsame.trans hsome) hleft (hforced.trans ?_) fun left hlt => ?_
    · rw [readStarts_cons_lt (by rw [List.flatten_cons, List.length_append]; omega)]
    · rw [hreads left hlt, readStarts_cons_lt]
      rw [List.length_drop] at hlt
      rw [List.flatten_cons, List.length_append]
      omega

/-- The frame that this read completes. -/
theorem Answer.now {w read rest : List UInt8} {reads : List (List UInt8)} {n : Nat} {x : Finding}
    {forced : Bool} {port : Port} (hw : lookFrame false false w = .more) (hread : read ≠ [])
    (hhunt : (frames false false).hunt (w ++ read) = (some (n, x), rest))
    (hport : port = ⟨rest.drop (n + forced.toNat), reads⟩)
    (hforced : forced = true ↔ x.late = true ∧ rest.length = n + read.length) :
    Answer (w ++ (read :: reads).flatten) (read :: reads) (some (replyOf x forced, port)) := by
  have hreach := (hunt_reaches hw hhunt).1
  obtain ⟨-, hn, -, -, hsize, -⟩ := lookFrame_drops ((frames false false).look_hunt hhunt)
  have hpos : 0 < read.length := List.length_pos_iff.2 hread
  have hfit : n + forced.toNat ≤ rest.length := by
    rcases forced with _ | _
    · rw [Bool.toNat_false]
      omega
    · rw [(hforced.1 rfl).1] at hsize
      exact hsize
  subst hport
  have hall : (frames false false).hunt (w ++ (read :: reads).flatten) =
      (some (n, x), rest ++ reads.flatten) := by
    rw [List.flatten_cons, ← List.append_assoc]
    exact Scanner.hunt_append_some _ hhunt _
  have hlen : (rest ++ reads.flatten).length = rest.length + reads.flatten.length :=
    List.length_append
  have htotal : (read :: reads).flatten.length = read.length + reads.flatten.length := by
    rw [List.flatten_cons, List.length_append]
  refine .reply hall ?_ (hforced.trans ?_) fun left hlt => (readStarts_cons_lt ?_).symm
  · rw [List.drop_append_of_le_length hfit]
  · refine and_congr_right fun hlate => ?_
    rw [hlate, Bool.toNat_true] at hsize
    rw [readStarts_cons, hlen, htotal]
    constructor
    · intro heq
      exact .inl (by omega)
    · rintro (heq | hstarts)
      · omega
      · have := hstarts.le
        omega
  · rw [List.length_drop, hlen] at hlt
    show left < (read :: reads).flatten.length
    omega

/-- **What a call answers**: it stops at the first finding. -/
theorem awaitReply_spec {sm : StateMachine} {ctx : Context} {w : List UInt8}
    (h : Waiting .zero w sm ctx) (reads : List (List UInt8)) :
    ∃ r, awaitReply sm ctx [] reads = some r ∧ Answer (w ++ reads.flatten) reads r := by
  induction reads generalizing sm ctx w with
  | nil =>
    have hnone : (frames false false).hunt (w ++ ([] : List (List UInt8)).flatten) = (none, w) := by
      rw [List.flatten_nil, List.append_nil]
      exact Scanner.hunt_of_more _ (h.look_more false false)
    exact ⟨none, rfl, .nothing hnone⟩
  | cons read reads ih =>
    rw [awaitReply, List.nil_append]
    by_cases hread : read = []
    · obtain ⟨r, hr, hanswer⟩ := ih h
      refine ⟨r, by rw [if_pos hread, hr], ?_⟩
      subst hread
      rcases hanswer with hnone | ⟨hsome, hleft, hforced, hreads⟩
      · exact .nothing hnone
      · refine .reply hsome hleft (hforced.trans ?_) fun left hlt => (hreads left hlt).trans ?_
        · rw [readStarts_nil_cons]
        · rw [readStarts_nil_cons]
    · obtain ⟨out, hout, ⟨hreply, havail, w', hw', hhunt⟩ |
        ⟨n, x, rest, forced, hhunt, hreply, havail, hforced⟩⟩ := feedAvailable_spec h hread
      · obtain ⟨r, hr, hanswer⟩ := ih hw'
        refine ⟨r, ?_, hanswer.later hread (hw'.look_more false false) hhunt⟩
        rw [if_neg hread, hout, Option.bind_some, hreply, havail]
        exact hr
      · refine ⟨_, ?_, Answer.now (h.look_more false false) hread hhunt rfl hforced⟩
        rw [if_neg hread, hout, Option.bind_some, hreply, havail]

theorem readSingleReply_eq (port : Port) :
    readSingleReply port = awaitReply smReset .zero [] (port.avail :: port.reads) := rfl

theorem readSingleReply_spec (port : Port) :
    ∃ r, readSingleReply port = some r ∧
      Answer (port.avail ++ port.reads.flatten) (port.avail :: port.reads) r := by
  rw [readSingleReply_eq]
  exact awaitReply_spec (waiting_reset .zero) (port.avail :: port.reads)

/-! ## All calls -/

/-- The replies to a stream that is read byte by byte. -/
def bytewiseReplies (n : Nat) (stream : List UInt8) : List Reply :=
  (((frames false true).places stream).take n).map fun p => replyOf p.2 p.2.late

theorem length_judge_bytes {skipCrc : Bool} {bs : List UInt8}
    (h : (extent bs).size ≤ bs.length) :
    (judge skipCrc bs).bytes.length = (extent bs).size := by
  rw [judge, List.length_take, Nat.min_eq_left h]

theorem lt_of_mem_lateRejections {stream : List UInt8} {left : Nat}
    (h : left ∈ lateRejections stream) : left < stream.length := by
  rw [lateRejections, List.mem_filterMap] at h
  obtain ⟨⟨q, x⟩, hmem, hleft⟩ := h
  obtain ⟨cs, n, hcs, rfl, hlook⟩ := Scanner.look_of_mem_places _ hmem
  have hle := hcs.length_le
  rcases lookFrame_cases false true cs with ⟨-, hno⟩ | ⟨-, -, hno⟩ | ⟨-, hheader, hsize, hyes⟩
  · cases hno.symm.trans hlook
  · cases hno.symm.trans hlook
  · have hx : judge false cs = x := (Scanner.Verdict.emit.inj (hyes.symm.trans hlook)).2
    have hpos := headerSize_le_size cs
    have hbytes : x.bytes.length = (extent cs).size := by
      rw [← hx]
      exact length_judge_bytes (by omega)
    rw [Option.ite_none_right_eq_some, Option.some_inj] at hleft
    have hleft : cs.length - x.bytes.length = left := hleft.2
    rw [headerSize] at hpos
    omega

/-- The late rejections of a stream are that of its first frame and those behind it. -/
theorem lateRejections_of_hunt {stream rest : List UInt8} {n : Nat} {x : Finding}
    (h : (frames false false).hunt stream = (some (n, x), rest)) :
    lateRejections stream = (if x.late then [rest.length - n] else []) ++
      lateRejections (rest.drop (n + x.late.toNat)) := by
  obtain ⟨-, -, hn, hx, hsize, -⟩ := lookFrame_drops ((frames false false).look_hunt h)
  have hbytes : x.bytes.length = n := by
    rw [hn, hx]
    exact length_judge_bytes (by omega)
  rw [lateRejections, Scanner.places_of_hunt_some _ (hunt_drops h), List.filterMap_cons, hbytes]
  dsimp only
  rcases x.late with _ | _
  · rfl
  · rfl

theorem bytewiseReplies_of_hunt {stream rest : List UInt8} {n : Nat} {x : Finding}
    (h : (frames false false).hunt stream = (some (n, x), rest)) (k : Nat) :
    bytewiseReplies (k + 1) stream =
      replyOf x x.late :: bytewiseReplies k (rest.drop (n + x.late.toNat)) := by
  rw [bytewiseReplies, Scanner.places_of_hunt_some _ (hunt_drops h), List.take_succ_cons,
    List.map_cons, bytewiseReplies]

theorem replies_iff (port : Port) :
    (∀ n, replies n port = some (bytewiseReplies n (port.avail ++ port.reads.flatten))) ↔
      ∀ left ∈ lateRejections (port.avail ++ port.reads.flatten),
        ReadStarts (port.avail :: port.reads) left := by
  obtain ⟨stream, hstream⟩ : ∃ s, s = port.avail ++ port.reads.flatten := ⟨_, rfl⟩
  rw [← hstream]
  induction hlen : stream.length using Nat.strong_induction_on generalizing stream port with
  | _ m ih =>
    obtain ⟨r, hr, hanswer⟩ := readSingleReply_spec port
    rw [← hstream] at hanswer
    rcases hanswer with hnone | @⟨n, x, rest, forced, port', hsome, hleft, hforced, hreads⟩
    · have hplaces : (frames false true).places stream = [] :=
        Scanner.places_of_hunt_none _ (hunt_drops hnone)
      have hlate : lateRejections stream = [] := by rw [lateRejections, hplaces, List.filterMap_nil]
      rw [hlate]
      refine iff_of_true (fun k => ?_) fun left h => absurd h (List.not_mem_nil)
      rw [bytewiseReplies, hplaces, List.take_nil, List.map_nil]
      rcases k with _ | k
      · rfl
      · rw [replies, hr]
        rfl
    · obtain ⟨-, hn, -, hx, hsize, -⟩ := lookFrame_drops ((frames false false).look_hunt hsome)
      have hfirst : ∀ k, replies (k + 1) port =
          (replies k port').map fun rs => replyOf x forced :: rs := by
        intro k
        rw [replies, hr]
        rfl
      rw [lateRejections_of_hunt hsome, List.forall_mem_append]
      have hhead : (forced = x.late) ↔ ∀ left ∈ (if x.late then [rest.length - n] else []),
          ReadStarts (port.avail :: port.reads) left := by
        rcases hl : x.late with _ | _
        · rw [hl] at hforced
          simp only [Bool.false_eq_true, false_and, iff_false] at hforced
          rw [Bool.eq_false_iff.2 hforced, if_neg Bool.false_ne_true]
          exact iff_of_true rfl fun left h => absurd h List.not_mem_nil
        · rw [hl] at hforced
          rw [hforced, if_pos rfl, List.forall_mem_singleton]
          exact and_iff_right rfl
      rw [← hhead]
      by_cases hsame : forced = x.late
      · have hbehind : (∀ left ∈ lateRejections (rest.drop (n + x.late.toNat)),
            ReadStarts (port.avail :: port.reads) left) ↔
            ∀ left ∈ lateRejections (rest.drop (n + x.late.toNat)),
              ReadStarts (port'.avail :: port'.reads) left := by
          refine forall₂_congr fun left hmem => ?_
          have hlt := lt_of_mem_lateRejections hmem
          rw [← hsame] at hlt
          rw [← hreads left hlt, readStarts_cons_lt]
          rw [List.flatten_cons, hleft]
          exact hlt
        have hshort : (rest.drop (n + x.late.toNat)).length < m := by
          have := (frames false false).length_hunt stream
          rw [hsome] at this
          rw [List.length_drop]
          simp only [headerSize] at *
          omega
        rw [and_iff_right hsame, hbehind, ← ih _ hshort port' _ (by rw [← hsame, hleft]) rfl]
        constructor
        · intro hall k
          have hk := hall (k + 1)
          rw [hfirst, bytewiseReplies_of_hunt hsome, Option.map_eq_some_iff] at hk
          obtain ⟨rs, hrs, heq⟩ := hk
          rw [hrs, (List.cons.inj heq).2]
        · intro hall k
          rcases k with _ | k
          · rfl
          · rw [hfirst, hall k, bytewiseReplies_of_hunt hsome, hsame]
            rfl
      · refine iff_of_false (fun hall => hsame ?_) fun h => hsame h.1
        have hone := hall 1
        rw [hfirst, bytewiseReplies_of_hunt hsome, replies] at hone
        have hreply : replyOf x forced = replyOf x x.late :=
          (List.cons.inj (Option.some.inj hone)).1
        by_cases hlate : x.late = true
        · have hret : x.ret ≠ .ok := by
            rw [hx] at hlate ⊢
            exact ret_of_late hlate
          rw [replyOf, if_neg hret, replyOf, if_neg hret] at hreply
          exact (Reply.error.inj hreply).2
        · have hno : ¬forced = true := fun h => hlate (hforced.1 h).1
          rw [Bool.eq_false_iff.2 hno, Bool.eq_false_iff.2 hlate]

/-- **The replies depend on the reads exactly where a rejection is late**: they are the replies to
the same stream read byte by byte, with the same bytes dropped, if and only if every late rejection
ends where a read starts. -/
theorem replies_bytewise_iff (reads : List (List UInt8)) :
    (∀ n, ∃ rs, replies n ⟨[], reads⟩ = some rs ∧
        replies n ⟨[], bytewise reads.flatten⟩ = some rs) ↔
      Aligned reads := by
  have hbytewise : ∀ n, replies n ⟨[], bytewise reads.flatten⟩ =
      some (bytewiseReplies n reads.flatten) := by
    have hall := (replies_iff ⟨[], bytewise reads.flatten⟩).2 fun left hmem => ?_
    · simpa only [List.nil_append, flatten_bytewise] using hall
    · rw [List.nil_append, flatten_bytewise] at hmem
      rw [readStarts_nil_cons]
      exact readStarts_bytewise (Nat.le_of_lt (lt_of_mem_lateRejections hmem))
  have hreads := replies_iff ⟨[], reads⟩
  simp only [List.nil_append, readStarts_nil_cons] at hreads
  rw [Aligned, ← hreads]
  refine forall_congr' fun n => ?_
  rw [hbytewise]
  constructor
  · rintro ⟨rs, hrs, heq⟩
    rw [hrs, heq]
  · intro h
    exact ⟨_, h, rfl⟩

/-- A header that announces more bytes than the buffer holds. -/
def oversizedHeader : List UInt8 :=
  [0xAA, 0x44, 0x12, 28, 1, 0, 0, 0xC0, 0xFF, 0xFF] ++ List.replicate 18 0

/-- A message without a body. -/
def emptyMessage : List UInt8 :=
  [0xAA, 0x44, 0x12, 28, 42, 0, 0, 0xC0, 0, 0] ++ List.replicate 18 0 ++ [14, 207, 108, 34]

/-- Where a message follows an oversized header in one read, it is the second reply; read byte by
byte its first sync byte is dropped, and it is lost. -/
theorem late_rejection_loses_message :
    ¬∀ reads n, ∃ rs, replies n ⟨[], reads⟩ = some rs ∧
      replies n ⟨[], bytewise reads.flatten⟩ = some rs := by
  intro h
  obtain ⟨rs, hwhole, hbytes⟩ := h [oversizedHeader ++ emptyMessage] 2
  have htwo : (replies 2 ⟨[], [oversizedHeader ++ emptyMessage]⟩).map List.length = some 2 := by
    decide +kernel
  have hone : (replies 2 ⟨[], bytewise [oversizedHeader ++ emptyMessage].flatten⟩).map
      List.length = some 1 := by
    decide +kernel
  rw [hwhole] at htwo
  rw [hbytes, htwo] at hone
  exact absurd hone (by decide)

end Oem
end FlightApps
