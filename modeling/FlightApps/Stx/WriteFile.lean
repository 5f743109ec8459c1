import Mathlib.Data.Nat.Count
import FlightApps.Lib.Layout
import FlightApps.Esup.Session

/-!
# Writing a file to the transmitter

`STX_WRITEFILECmd` cuts a file of the computer into packets of 1200 bytes and writes one after the
other with `stx_file_write`.  How much remains and where the first packet is read comes from a size
and an offset in packets, in one of four cases.  In the loop a read that comes back short and a
write that is refused put the position back; a write that ends with the execution status 5 is a
failure as well, but its packet is left behind.

What the loop does is a matter of two counts over the results of the writes: how many took a packet
off, and how many failed (`Ready`).
-/

set_option autoImplicit false

namespace FlightApps
namespace Stx

open Esup (Ret retOk)

/-! ## One packet -/

/-- `STX_WRITE_DATA_MAX`. -/
def writeDataMax : Nat := 1200

/-- `STX_ERR_ARG`. -/
def errArg : Ret := 0x00000100

/-- `stx_cmd_file_write_t`, with the bytes of its data. -/
structure FileWrite where
  handle : UInt32
  packetNumber : UInt32
  data : List UInt8
  dataLen : UInt16
deriving DecidableEq

/-- The request of a write. -/
def FileWrite.payload (w : FileWrite) : List UInt8 :=
  Layout.u16.bytes w.dataLen ++ Layout.u32.bytes w.handle ++ Layout.u32.bytes w.packetNumber ++
    w.data.take w.dataLen.toNat

/-- `stx_file_write`, where `stx_run` returns `run`: what it returns, and the request that went to
the module. -/
def fileWrite (w : FileWrite) (run : Ret) : Ret × Option (List UInt8) :=
  if w.dataLen = 0 ∨ writeDataMax < w.dataLen.toNat then (errArg, none) else (run, some w.payload)

/-- `ESUP_RET_EXEC_STATUS`. -/
def execStatus (ret : Ret) : UInt8 := (ret &&& 0xFF).toUInt8

/-! ## Reports -/

/-- `RPT_RETTYPE`, as far as the command uses it. -/
inductive RetType
  | success
  | lib
  | app
  | hw
deriving DecidableEq, Repr

/-- `STX_FOPEN_EID`. -/
def fopenEid : Ret := 63

/-- `STX_FREAD_EID`. -/
def freadEid : Ret := 64

/-- `STX_GetEsupReportType`. -/
def esupReportType (ret : Ret) : RetType :=
  if ret = retOk then .success
  else if execStatus ret ≠ 0 then .hw
  else if ret &&& 0xFF00 ≠ 0 then .app
  else .lib

theorem esupReportType_failed {ret : Ret} (h : ret ≠ retOk) : esupReportType ret ≠ .success := by
  unfold esupReportType
  rw [if_neg h]
  split_ifs <;> simp

/-- `WRITEFILE_REPLY_t`. -/
structure WriteFileReply where
  ret : Ret
  fileHandle : UInt32
  remaining : UInt32
  packetNumber : UInt32
  errCount : UInt8
deriving DecidableEq

/-- A call of `stx_file_write`, with data that was read at `start`. -/
structure WriteCall where
  write : FileWrite
  start : Nat
  request : Option (List UInt8)
  ret : Ret
deriving DecidableEq

/-- What can be seen of the command. -/
inductive Event
  /-- A report with its type, its code and the reply. -/
  | report (type : RetType) (code : Ret) (reply : WriteFileReply)
  /-- A read at `pos` that was to bring `want` bytes and brought `got`. -/
  | short (pos want got : Nat)
  | write (c : WriteCall)
deriving DecidableEq

/-- The calls of `stx_file_write`. -/
def Event.call? : Event → Option WriteCall
  | .write c => some c
  | _ => none

/-- A read that came back short, or a write that was not accepted. -/
def Event.isFailure : Event → Bool
  | .short _ _ _ => true
  | .write c => c.ret != retOk
  | .report _ _ _ => false

/-! ## The command -/

/-- `STX_TLM_WRITEFILE_Payload_t`, the name and the delay apart. -/
structure WriteFileCmd where
  size : UInt32
  offset : UInt32
deriving DecidableEq

/-- The computers that the program is built for. -/
inductive Target
  | obc
  | pi5
deriving DecidableEq

/-- The values of a `size_t`. -/
def Target.sizes : Target → Nat
  | .obc => 4294967296
  | .pi5 => 18446744073709551616

/-- The values of a `long` that are not negative. -/
def Target.longs : Target → Nat
  | .obc => 2147483648
  | .pi5 => 9223372036854775808

/-- A file whose length `ftell` can tell. -/
structure LocalFile (t : Target) where
  bytes : List UInt8
  fits : bytes.length < t.longs

/-- `fseek` with `SEEK_SET`, from `pos`: a negative offset fails. -/
def seekSet (t : Target) (pos : Nat) (offset : UInt32) : Nat :=
  if offset.toNat < t.longs then offset.toNat else pos

/-- What remains and where the file stands before the loop. -/
def prepare (t : Target) (len : Nat) (c : WriteFileCmd) : Nat × Nat :=
  if c.size = 0 ∧ c.offset = 0 then (len, 0)
  else if c.size = 0 ∧ c.offset ≠ 0 then
    ((len + t.sizes - (c.offset * 1200).toNat) % t.sizes, seekSet t len (c.offset * 1200))
  else if c.size ≠ 0 ∧ c.offset = 0 then ((c.size * 1200).toNat, 0)
  else ((c.size * 1200).toNat, seekSet t 0 (c.offset * 1200))

/-- The variables of the loop. -/
structure Sending where
  remaining : Nat
  pos : Nat
  packetNumber : UInt32
  ret : Ret
  errCount : Nat
  reply : WriteFileReply
  /-- How often `stx_file_write` was called. -/
  calls : Nat
  log : List Event

/-- The reply is filled in with what the loop holds. -/
def Sending.filled (s : Sending) : WriteFileReply :=
  { s.reply with
    ret := s.ret
    errCount := s.errCount.toUInt8
    packetNumber := s.packetNumber
    remaining := s.remaining.toUInt32 }

/-- A report with a reply that is filled in. -/
def Sending.reports (s : Sending) (type : RetType) (code : Ret) : Sending :=
  { s with reply := s.filled, log := s.log ++ [.report type code s.filled] }

def Sending.want (s : Sending) : Nat :=
  if writeDataMax < s.remaining then writeDataMax else s.remaining

/-- One round of the loop, where `stx_run` returns `run`. -/
def sendStep (bytes : List UInt8) (handle : UInt32) (run : Ret) (s : Sending) : Sending :=
  let want := s.want
  let buf := (bytes.drop s.pos).take want
  if buf.length ≠ want then
    let short := Event.short s.pos want buf.length
    let s := { s with errCount := s.errCount + 1, log := s.log ++ [short] }
    s.reports .lib freadEid
  else
    let w : FileWrite := ⟨handle, s.packetNumber, buf, want.toUInt16⟩
    let r := fileWrite w run
    let sent := Event.write ⟨w, s.pos, r.2, r.1⟩
    let s := { s with ret := r.1, calls := s.calls + 1, log := s.log ++ [sent] }
    if r.1 = retOk then
      let s := { s with remaining := s.remaining - w.dataLen.toNat, pos := s.pos + buf.length }
      { s with reply := s.filled, packetNumber := s.packetNumber + 1 }
    else if execStatus r.1 = 5 then
      let s := { s with errCount := s.errCount + 1 }
      let s := s.reports (esupReportType r.1) r.1
      { s with
        remaining := s.remaining - w.dataLen.toNat
        pos := s.pos + buf.length
        packetNumber := s.packetNumber + 1 }
    else
      let s := { s with errCount := s.errCount + 1 }
      s.reports (esupReportType r.1) r.1

/-- The loop; the `n`-th call of `stx_run` returns `answer n`. -/
def sendLoop (bytes : List UInt8) (handle : UInt32) (answer : Nat → Ret) :
    Nat → Sending → Option Sending
  | 0, _ => none
  | fuel + 1, s =>
    if 0 < s.remaining ∧ s.errCount < 5 then
      sendLoop bytes handle answer fuel (sendStep bytes handle (answer s.calls) s)
    else some s

/-- The state before the loop, and the report that the writing starts. -/
def started (t : Target) (f : LocalFile t) (c : WriteFileCmd) (handle : UInt32) : Sending :=
  let p := prepare t f.bytes.length c
  let reply : WriteFileReply := ⟨0, handle, p.1.toUInt32, 0, 0⟩
  ⟨p.1, p.2, c.offset, retOk, 0, reply, 0, [.report .success 0 reply]⟩

/-- `STX_WRITEFILECmd`, with the file that `fopen` finds. -/
def writeFileCmd (t : Target) (f : Option (LocalFile t)) (c : WriteFileCmd) (handle : UInt32)
    (answer : Nat → Ret) : Option (List Event) :=
  match f with
  | none => some [.report .hw fopenEid ⟨0, 0, 0, 0, 0⟩]
  | some f => do
    let start := started t f c handle
    let s ← sendLoop f.bytes handle answer (start.remaining + 6) start
    if s.errCount = 0 then some (s.log ++ [.report .success 0 s.reply]) else some s.log

/-! ## Two counts -/

section Counts

variable {p : Nat → Prop} [DecidablePred p]

theorem exists_count {n i : Nat} (h : i < Nat.count p n) : ∃ j < n, p j ∧ Nat.count p j = i := by
  induction n with
  | zero => simp at h
  | succ n ih =>
    rcases Nat.lt_or_ge i (Nat.count p n) with hlt | hge
    · obtain ⟨j, hj, hp⟩ := ih hlt
      exact ⟨j, by omega, hp⟩
    · rw [Nat.count_succ] at h
      split_ifs at h with hp
      · exact ⟨n, by omega, hp, by omega⟩
      · omega

end Counts

section Results

variable (answer : Nat → Ret)

/-- The `n`-th write takes its packet off: it is accepted, or left behind. -/
def takes (n : Nat) : Prop := answer n = retOk ∨ execStatus (answer n) = 5

/-- The `n`-th write fails. -/
def fails (n : Nat) : Prop := answer n ≠ retOk

instance : DecidablePred (takes answer) := fun n => by unfold takes; infer_instance

instance : DecidablePred (fails answer) := fun n => by unfold fails; infer_instance

/-- How many packets the first `n` writes take off. -/
def done (n : Nat) : Nat := Nat.count (takes answer) n

/-- How many of the first `n` writes fail. -/
def failed (n : Nat) : Nat := Nat.count (fails answer) n

variable {answer}

theorem done_succ (n : Nat) :
    done answer (n + 1) = done answer n + if takes answer n then 1 else 0 := Nat.count_succ _ n

theorem failed_succ (n : Nat) :
    failed answer (n + 1) = failed answer n + if fails answer n then 1 else 0 := Nat.count_succ _ n

theorem takes_of_accepted {n : Nat} (h : answer n = retOk) : takes answer n := .inl h

theorem fails_of_refused {n : Nat} (h : ¬takes answer n) : fails answer n :=
  fun hok => h (.inl hok)

variable (answer) in
theorem done_mono {n m : Nat} (h : n ≤ m) : done answer n ≤ done answer m :=
  Nat.count_monotone _ h

variable (answer) in
theorem failed_mono {n m : Nat} (h : n ≤ m) : failed answer n ≤ failed answer m :=
  Nat.count_monotone _ h

end Results

/-! ## The loop -/

/-- What the loop is given: a file, a handle, what remains, where the file stands, and the number
of the first packet. -/
structure Job where
  bytes : List UInt8
  handle : UInt32
  budget : Nat
  start : Nat
  first : UInt32

namespace Job

variable (g : Job) (answer : Nat → Ret)

/-- What the loop reads for the `i`-th packet. -/
def want (i : Nat) : Nat := min writeDataMax (g.budget - i * writeDataMax)

/-- The `i`-th packet is read, and the read is not short. -/
def Whole (i : Nat) : Prop :=
  i * writeDataMax < g.budget ∧ g.start + i * writeDataMax + g.want i ≤ g.bytes.length

/-- The `i`-th packet. -/
def packet (i : Nat) : FileWrite where
  handle := g.handle
  packetNumber := g.first + i.toUInt32
  data := (g.bytes.drop (g.start + i * writeDataMax)).take (g.want i)
  dataLen := (g.want i).toUInt16

/-- The `n`-th call of `stx_file_write`. -/
def call (n : Nat) : WriteCall where
  write := g.packet (done answer n)
  start := g.start + done answer n * writeDataMax
  request := some (g.packet (done answer n)).payload
  ret := answer n

/-- The loop after `n` calls of `stx_file_write`. -/
structure Ran (n : Nat) (s : Sending) : Prop where
  remaining : s.remaining = g.budget - done answer n * writeDataMax
  pos : s.pos = g.start + min (done answer n * writeDataMax) g.budget
  number : s.packetNumber = g.first + (done answer n).toUInt32
  calls : s.calls = n
  writes : s.log.filterMap Event.call? = (List.range n).map (g.call answer)
  errs : failed answer n ≤ s.errCount
  /-- Other failures than those of writes come from one read that stays short. -/
  stalled : failed answer n < s.errCount → 0 < s.remaining ∧ ¬g.Whole (done answer n)
  bound : s.errCount ≤ 5
  failures : s.log.countP Event.isFailure = s.errCount
  quiet : s.errCount ≠ 0 → ∀ r, s.log.getLast? ≠ some (.report .success 0 r)
  steps : ∀ j < n, failed answer j < 5 ∧ g.Whole (done answer j)

variable {g answer} {n : Nat} {s : Sending}

theorem Ran.want_eq (h : g.Ran answer n s) : s.want = g.want (done answer n) := by
  unfold Sending.want Job.want
  rw [← h.remaining]
  split_ifs <;> omega

theorem Ran.pos_eq (h : g.Ran answer n s) (hgo : 0 < s.remaining) :
    s.pos = g.start + done answer n * writeDataMax := by
  have hr := h.remaining
  rw [h.pos]
  omega

theorem Ran.read_whole (h : g.Ran answer n s) (hgo : 0 < s.remaining) :
    ((g.bytes.drop s.pos).take s.want).length = s.want ↔ g.Whole (done answer n) := by
  have hr := h.remaining
  have hw : g.want (done answer n) ≤ writeDataMax ∧ 0 < g.want (done answer n) := by
    unfold Job.want writeDataMax at *
    omega
  rw [List.length_take, List.length_drop, h.want_eq, h.pos_eq hgo]
  unfold Whole
  omega

theorem toNat_want (g : Job) (i : Nat) : (g.want i).toUInt16.toNat = g.want i := by
  have hw : g.want i ≤ 1200 := by simp [Job.want, writeDataMax]
  simp
  omega

/-- A packet that is read whole passes the check of `stx_file_write`. -/
theorem fileWrite_packet {i : Nat} (h : g.Whole i) (run : Ret) :
    fileWrite (g.packet i) run = (run, some (g.packet i).payload) := by
  have hw : g.want i ≤ 1200 ∧ 0 < g.want i := by
    have := h.1
    unfold Job.want writeDataMax at *
    omega
  have hlen : (g.packet i).dataLen.toNat = g.want i := g.toNat_want i
  rw [fileWrite, if_neg]
  rintro (hz | hmax)
  · rw [hz] at hlen
    simp at hlen
    omega
  · unfold writeDataMax at hmax
    omega

/-- A short read leaves the position, the packet and what remains as they are. -/
theorem Ran.step_short (h : g.Ran answer n s) (hgo : 0 < s.remaining) (herr : s.errCount < 5)
    (hwhole : ¬g.Whole (done answer n)) (run : Ret) :
    g.Ran answer n (sendStep g.bytes g.handle run s) ∧
      (sendStep g.bytes g.handle run s).remaining = s.remaining ∧
      (sendStep g.bytes g.handle run s).errCount = s.errCount + 1 := by
  have hshort := mt (h.read_whole hgo).1 hwhole
  rw [sendStep]
  simp only [ne_eq, hshort, not_false_eq_true, if_true]
  refine ⟨⟨h.remaining, h.pos, h.number, h.calls, ?_, ?_, fun _ => ⟨hgo, hwhole⟩, herr, ?_, ?_,
    h.steps⟩,
    rfl, rfl⟩
  · simp [Sending.reports, Event.call?, h.writes]
  · exact h.errs.trans (Nat.le_succ _)
  · simp [Sending.reports, List.countP_cons, Event.isFailure, h.failures]
  · intro _ r
    simp [Sending.reports]

/-- What a packet that is taken off leaves. -/
theorem Ran.taken (h : g.Ran answer n s) (hgo : 0 < s.remaining) :
    s.remaining - g.want (done answer n) = g.budget - (done answer n + 1) * writeDataMax ∧
      s.pos + g.want (done answer n) =
        g.start + min ((done answer n + 1) * writeDataMax) g.budget ∧
      s.packetNumber + 1 = g.first + (done answer n + 1).toUInt32 := by
  have hr := h.remaining
  refine ⟨?_, ?_, ?_⟩
  · unfold Job.want writeDataMax at *
    omega
  · rw [h.pos]
    unfold Job.want writeDataMax at *
    omega
  · rw [h.number, UInt32.add_assoc]
    simp [UInt32.ofNat_add]

/-- A write hands the packet over; it is taken off or comes again, as the result has it. -/
theorem Ran.step_write (h : g.Ran answer n s) (hgo : 0 < s.remaining) (herr : s.errCount < 5)
    (hwhole : g.Whole (done answer n)) :
    g.Ran answer (n + 1) (sendStep g.bytes g.handle (answer s.calls) s) := by
  have herrs : s.errCount = failed answer n := by
    have := h.errs
    have := mt h.stalled fun hs => hs.2 hwhole
    omega
  have hread := (h.read_whole hgo).2 hwhole
  have hpacket : (⟨g.handle, s.packetNumber, (g.bytes.drop s.pos).take s.want, s.want.toUInt16⟩ :
      FileWrite) = g.packet (done answer n) := by
    rw [Job.packet, h.number, h.pos_eq hgo, h.want_eq]
  have hcall : (⟨g.packet (done answer n), s.pos, some (g.packet (done answer n)).payload,
      answer n⟩ : WriteCall) = g.call answer n := by
    rw [Job.call, h.pos_eq hgo]
  have hsteps : ∀ j < n + 1, failed answer j < 5 ∧ g.Whole (done answer j) :=
    Nat.forall_lt_succ_right.2 ⟨h.steps, herrs ▸ herr, hwhole⟩
  have hlen : s.want.toUInt16.toNat = g.want (done answer n) := by
    rw [h.want_eq]
    exact g.toNat_want _
  have hmore : s.log.filterMap Event.call? ++ [g.call answer n] =
      (List.range (n + 1)).map (g.call answer) := by
    rw [h.writes, List.range_succ, List.map_append, List.map_singleton]
  obtain ⟨hleft, hpos, hnumber⟩ := h.taken hgo
  rw [sendStep, h.calls]
  simp only [ne_eq, hread, not_true_eq_false, if_false, hpacket, fileWrite_packet hwhole, hcall]
  by_cases hok : answer n = retOk
  · have hdone : done answer (n + 1) = done answer n + 1 := by
      simp [done, Nat.count_succ, takes, hok]
    have hfailed : failed answer (n + 1) = failed answer n := by
      simp [failed, Nat.count_succ, fails, hok]
    rw [if_pos hok]
    refine ⟨?_, ?_, ?_, rfl, ?_, ?_, ?_, herr.le, ?_, ?_, hsteps⟩
    · rw [hlen, hdone, ← hleft]
    · rw [h.want_eq, hdone, ← hpos]
    · rw [hdone, ← hnumber]
    · simpa [Event.call?] using hmore
    · exact (hfailed.trans herrs.symm).le
    · intro hlt
      simp only [hfailed, herrs] at hlt
      omega
    · simp [h.failures, Event.isFailure, Job.call, hok]
    · simp
  · have hfailed : failed answer (n + 1) = failed answer n + 1 := by
      simp [failed, Nat.count_succ, fails, hok]
    rw [if_neg hok]
    by_cases hskip : execStatus (answer n) = 5
    · have hdone : done answer (n + 1) = done answer n + 1 := by
        simp [done, Nat.count_succ, takes, hskip]
      rw [if_pos hskip]
      refine ⟨?_, ?_, ?_, rfl, ?_, ?_, ?_, herr, ?_, ?_, hsteps⟩
      · rw [hlen, hdone, ← hleft]
        rfl
      · rw [h.want_eq, hdone, ← hpos]
        rfl
      · rw [hdone, ← hnumber]
        rfl
      · simpa [Sending.reports, List.filterMap_cons, Event.call?] using hmore
      · simp [Sending.reports, hfailed, herrs]
      · intro hlt
        simp [Sending.reports, hfailed, herrs] at hlt
      · simp [Sending.reports, List.countP_cons, h.failures, Event.isFailure, Job.call, hok]
      · intro _ r
        simp [Sending.reports, esupReportType_failed hok]
    · have hdone : done answer (n + 1) = done answer n := by
        simp [done, Nat.count_succ, takes, hskip, hok]
      rw [if_neg hskip]
      refine ⟨?_, ?_, ?_, rfl, ?_, ?_, ?_, herr, ?_, ?_, hsteps⟩
      · rw [hdone]
        exact h.remaining
      · rw [hdone]
        exact h.pos
      · rw [hdone]
        exact h.number
      · simpa [Sending.reports, List.filterMap_cons, Event.call?] using hmore
      · simp [Sending.reports, hfailed, herrs]
      · intro hlt
        simp [Sending.reports, hfailed, herrs] at hlt
      · simp [Sending.reports, List.countP_cons, h.failures, Event.isFailure, Job.call, hok]
      · intro _ r
        simp [Sending.reports, esupReportType_failed hok]

/-- The loop ends: each round takes bytes off, or is a failure, and there are at most five. -/
theorem Ran.sendLoop_ends (fuel : Nat) {n : Nat} {s : Sending} (h : g.Ran answer n s)
    (hfuel : s.remaining + (5 - s.errCount) < fuel) :
    ∃ s' n', sendLoop g.bytes g.handle answer fuel s = some s' ∧ g.Ran answer n' s' ∧
      ¬(0 < s'.remaining ∧ s'.errCount < 5) := by
  induction fuel generalizing n s with
  | zero => omega
  | succ fuel ih =>
    rw [sendLoop]
    by_cases hgo : 0 < s.remaining ∧ s.errCount < 5
    · rw [if_pos hgo]
      by_cases hwhole : g.Whole (done answer n)
      · have hnext := h.step_write hgo.1 hgo.2 hwhole
        refine ih hnext ?_
        have herrs := hnext.errs
        have hrem := hnext.remaining
        have hstall := mt h.stalled fun hs => hs.2 hwhole
        have hleft := h.remaining
        rw [done_succ] at hrem
        rw [failed_succ] at herrs
        have hbound := hnext.bound
        have hM : writeDataMax = 1200 := rfl
        by_cases htakes : takes answer n
        · rw [if_pos htakes, Nat.add_mul] at hrem
          split_ifs at herrs <;> omega
        · rw [if_neg htakes, Nat.add_zero] at hrem
          rw [if_pos (fails_of_refused htakes)] at herrs
          omega
      · obtain ⟨hnext, hrem, herr⟩ := h.step_short hgo.1 hgo.2 hwhole (answer s.calls)
        exact ih hnext (by omega)
    · rw [if_neg hgo]
      exact ⟨s, n, rfl, h, hgo⟩

end Job

/-! ## What the log shows -/

/-- The calls of `stx_file_write`, in order. -/
def writeCalls (log : List Event) : List WriteCall := log.filterMap Event.call?

/-- How many reads came back short and how many writes were not accepted. -/
def failures (log : List Event) : Nat := log.countP Event.isFailure

/-- The command ends with a report of success. -/
def Succeeds (log : List Event) : Prop := ∃ r, log.getLast? = some (.report .success 0 r)

/-- What the command gives to its loop. -/
def job (t : Target) (f : LocalFile t) (c : WriteFileCmd) (handle : UInt32) : Job where
  bytes := f.bytes
  handle := handle
  budget := (prepare t f.bytes.length c).1
  start := (prepare t f.bytes.length c).2
  first := c.offset

/-- The command after `n` calls of `stx_file_write`, with the log `log`. -/
structure Ended (g : Job) (answer : Nat → Ret) (n : Nat) (log : List Event) : Prop where
  calls : writeCalls log = (List.range n).map (g.call answer)
  failures : failures log ≤ 5
  steps : ∀ j < n, failed answer j < 5 ∧ g.Whole (done answer j)
  failed_le : failed answer n ≤ 5
  stops : failed answer n < 5 → ¬g.Whole (done answer n)
  succeeds : Succeeds log ↔ failed answer n = 0 ∧ g.budget ≤ done answer n * writeDataMax

/-- **The command ends.**  Its log is that of some number of calls. -/
theorem writeFileCmd_ends (t : Target) (f : LocalFile t) (c : WriteFileCmd) (handle : UInt32)
    (answer : Nat → Ret) :
    ∃ log n, writeFileCmd t (some f) c handle answer = some log ∧
      Ended (job t f c handle) answer n log := by
  have hstart : (job t f c handle).Ran answer 0 (started t f c handle) := by
    refine ⟨?_, ?_, ?_, rfl, ?_, ?_, ?_, ?_, ?_, ?_, ?_⟩ <;>
      simp [started, job, done, failed, Event.call?, Event.isFailure, List.filterMap_cons]
  obtain ⟨s, n, hrun, hran, hend⟩ := hstart.sendLoop_ends
    ((started t f c handle).remaining + 6) (by simp [started])
  have hrem := hran.remaining
  have herrs := hran.errs
  have hbound := hran.bound
  have hstops : failed answer n < 5 → ¬(job t f c handle).Whole (done answer n) := by
    intro hlt hwhole
    have := mt hran.stalled fun hs => hs.2 hwhole
    have := hwhole.1
    omega
  have hsucc : s.errCount = 0 ↔
      failed answer n = 0 ∧ (job t f c handle).budget ≤ done answer n * writeDataMax := by
    constructor
    · intro h0
      omega
    · rintro ⟨hf, hb⟩
      by_contra h0
      have := (hran.stalled (by omega)).1
      omega
  have hcmd : writeFileCmd t (some f) c handle answer =
      if s.errCount = 0 then some (s.log ++ [.report .success 0 s.reply]) else some s.log := by
    simp only [job] at hrun
    simp [writeFileCmd, hrun]
  by_cases h0 : s.errCount = 0
  · refine ⟨s.log ++ [.report .success 0 s.reply], n, ?_, ?_, ?_, hran.steps, by omega, hstops,
      ?_⟩
    · rw [hcmd, if_pos h0]
    · rw [writeCalls, List.filterMap_append, hran.writes]
      simp [Event.call?]
    · rw [failures, List.countP_append, hran.failures]
      simp [Event.isFailure, h0]
    · rw [← hsucc]
      simp [Succeeds, h0]
  · refine ⟨s.log, n, ?_, hran.writes, ?_, hran.steps, by omega, hstops, ?_⟩
    · rw [hcmd, if_neg h0]
    · rw [failures, hran.failures]
      exact hbound
    · rw [← hsucc]
      simp only [h0, iff_false]
      rintro ⟨r, hr⟩
      exact hran.quiet h0 r hr

end Stx
end FlightApps
