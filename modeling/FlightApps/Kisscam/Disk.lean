import FlightApps.Kisscam.Commands
import FlightApps.Lib.File
import Mathlib.Logic.Function.Basic

/-!
# The world of the camera app

Files have contents, and a descriptor a file and a place in it.  The camera may answer anything; all
that is known of a read is that it does not give more than it was asked for.  Every exchange with the
camera is written down, the latest first: what was sent, and the replies to the reads after it.

`transaction_spec` is what every transaction does in this world: it leaves the files alone, and it
succeeds exactly if the exchange is a whole response (`Exchange.Whole`).
-/

set_option autoImplicit false

namespace FlightApps
namespace Kisscam

open Script

abbrev Path := List Char

/-! ## Exchanges -/

structure Exchange where
  tx : Bytes
  reads : List ReadReply

/-- What has come. -/
def Exchange.bytes (e : Exchange) : Bytes := e.reads.flatMap ReadReply.bytes

/-- A read that got what it asked for. -/
structure ReadReply.Got (r : ReadReply) (size : Nat) : Prop where
  status : r.status = .success
  readBytes : r.readBytes = size
  length : r.bytes.length = size

/-- A whole response, in three reads. -/
structure Exchange.Whole (e : Exchange) : Prop where
  reads : ∃ a b c, e.reads = [a, b, c] ∧ a.Got 3 ∧ b.Got 2 ∧ c.Got (payloadLen e.bytes + 1)

/-- A response to the capture of a slot that clears it. -/
structure Exchange.Captured (e : Exchange) (mem : UInt8) : Prop where
  tx : ∃ tst, e.tx = configurePacket [mem, tst] captureCmdCode
  whole : e.Whole
  length : e.bytes.length = captureTlmSize

/-! ## The world -/

structure OpenFile where
  path : Path
  offset : Nat
deriving DecidableEq

structure Disk where
  files : Path → Bytes
  fds : Int → Option OpenFile
  log : List Exchange
  /-- What was reported, the latest last. -/
  reports : List (UInt8 × RetType × Code × Bytes)

namespace Disk

variable (k : Disk)

/-- A command is sent, and the first read after it. -/
def sent (tx : Bytes) (r : ReadReply) : Disk := { k with log := ⟨tx, [r]⟩ :: k.log }

/-- One more read. -/
def readOn (r : ReadReply) : Disk :=
  { k with log := match k.log with
    | [] => []
    | e :: es => { e with reads := e.reads ++ [r] } :: es }

/-- A descriptor stands somewhere. -/
def opened (id : Int) (f : OpenFile) : Disk := { k with fds := Function.update k.fds id (some f) }

@[simp] theorem opened_fds (id : Int) (f : OpenFile) : (k.opened id f).fds id = some f := by
  simp only [opened, Function.update_self]

/-- A file has a new content. -/
def putFile (path : Path) (content : Bytes) : Disk :=
  { k with files := Function.update k.files path content }

/-- What a call does. -/
def next (k : Disk) : (c : CamCall) → c.Reply → Disk
  | .apiRead (some tx) _ _, r => k.sent tx r
  | .apiRead none _ _, r => k.readOn r
  | .openImage path, .ok fd => (k.putFile path []).opened fd ⟨path, 0⟩
  | .openTbl path, .ok fd => k.opened fd ⟨path, 0⟩
  | .read id _, some bs => match k.fds id with
    | some f => k.opened id { f with offset := f.offset + bs.length }
    | none => k
  | .lseek id, () => match k.fds id with
    | some f => k.opened id { f with offset := 0 }
    | none => k
  | .write id data, n => match k.fds id with
    | some f => (k.putFile f.path (File.write 0 (k.files f.path) f.offset (data.take n.toNat))).opened id
        { f with offset := f.offset + n.toNat }
    | none => k
  | .close id, _ => { k with fds := Function.update k.fds id none }
  | .sendReport cc type code data, () => { k with reports := k.reports ++ [(cc, type, code, data)] }
  | _, _ => k

/-- What may be answered.  With `reliable` the table is read and written without errors. -/
def Allows (reliable : Bool) (k : Disk) : (c : CamCall) → c.Reply → Prop
  | .apiRead _ _ rxSize, r => r.bytes.length ≤ rxSize ∧ r.readBytes ≤ r.bytes.length
  | .openImage _, .ok fd => k.fds fd = none
  | .openTbl _, .ok fd => k.fds fd = none
  | .openTbl _, .error _ => reliable = false
  | .read id size, some bs => ∃ f ∈ k.fds id, bs = ((k.files f.path).drop f.offset).take size
  | .read _ _, none => reliable = false
  | .write id data, n => n ≤ data.length ∧ (0 ≤ n → k.fds id ≠ none) ∧
      (reliable = true → ∀ f ∈ k.fds id, f.path = tblPath → n = data.length)
  | .fsync id, r => reliable = true → ∀ f ∈ k.fds id, f.path = tblPath → r = 0
  | _, _ => True

def decidableAllows (reliable : Bool) (k : Disk) :
    (c : CamCall) → (r : c.Reply) → Decidable (k.Allows reliable c r)
  | .apiRead _ _ rxSize, r =>
    inferInstanceAs (Decidable (r.bytes.length ≤ rxSize ∧ r.readBytes ≤ r.bytes.length))
  | .tcflush, _ => .isTrue trivial
  | .openImage _, .ok fd => inferInstanceAs (Decidable (k.fds fd = none))
  | .openImage _, .error _ => .isTrue trivial
  | .openTbl _, .ok fd => inferInstanceAs (Decidable (k.fds fd = none))
  | .openTbl _, .error _ => inferInstanceAs (Decidable (reliable = false))
  | .read id size, some bs => inferInstanceAs
    (Decidable (∃ f ∈ k.fds id, bs = ((k.files f.path).drop f.offset).take size))
  | .read _ _, none => inferInstanceAs (Decidable (reliable = false))
  | .lseek _, _ => .isTrue trivial
  | .write id data, n => inferInstanceAs (Decidable ((n : Int) ≤ data.length ∧
      ((0 : Int) ≤ n → k.fds id ≠ none) ∧
      (reliable = true → ∀ f ∈ k.fds id, f.path = tblPath → (n : Int) = data.length)))
  | .fsync id, r => inferInstanceAs
    (Decidable (reliable = true → ∀ f ∈ k.fds id, f.path = tblPath → (r : Int) = 0))
  | .close _, _ => .isTrue trivial
  | .sendReport _ _ _ _, _ => .isTrue trivial

def world (reliable : Bool) : World CamCall CamCall.Reply Disk := ⟨Allows reliable, next⟩

instance (reliable : Bool) (k : Disk) (c : CamCall) (r : c.Reply) :
    Decidable ((world reliable).allows k c r) := decidableAllows reliable k c r

/-- Only the camera was talked to: the exchanges are of one command. -/
structure Talked (k' : Disk) (tx : Bytes) (es : List Exchange) : Prop where
  files : k'.files = k.files
  fds : k'.fds = k.fds
  reports : k'.reports = k.reports
  log : k'.log = es ++ k.log
  tx : ∀ e ∈ es, e.tx = tx

end Disk

/-! ## Buffers -/

theorem overlay_front (w rest bytes : Bytes) :
    overlay (w ++ rest) w.length bytes = w ++ bytes ++ rest.drop bytes.length := by
  rw [overlay, List.take_left, ← List.drop_drop, List.drop_left]

theorem length_overlay {rx bytes : Bytes} {off : Nat} (h : off + bytes.length ≤ rx.length) :
    (overlay rx off bytes).length = rx.length := by
  simp only [overlay, List.length_append, List.length_take, List.length_drop]
  omega

/-- The length lies in the first five bytes. -/
theorem payloadLen_append {w : Bytes} (h : w.length = 5) (rest : Bytes) :
    payloadLen (w ++ rest) = payloadLen w := by
  rw [payloadLen, payloadLen, List.getD_append _ _ _ _ (by omega), List.getD_append _ _ _ _ (by omega)]

/-- A whole response is as long as it says. -/
theorem Exchange.Whole.length {e : Exchange} (h : e.Whole) :
    e.bytes.length = hdrTailSize + payloadLen e.bytes := by
  obtain ⟨a, b, c, hreads, ha, hb, hc⟩ := h.reads
  have hbytes : e.bytes = a.bytes ++ (b.bytes ++ c.bytes) := by simp [Exchange.bytes, hreads]
  have hlength := congrArg List.length hbytes
  simp only [List.length_append, ha.length, hb.length, hc.length] at hlength
  rw [hlength, hdrTailSize]
  omega

theorem Exchange.Whole.ne_nil {e : Exchange} (h : e.Whole) : e.bytes ≠ [] := by
  intro hnil
  have hlength := h.length
  rw [hnil, hdrTailSize] at hlength
  simp at hlength
  omega

/-! ## Transactions -/

/-- The table and the descriptors are the same. -/
structure Data.Like (d d' : Data) : Prop where
  handle : d'.handle = d.handle
  tblHandle : d'.tblHandle = d.tblHandle
  memSlotStatus : d'.memSlotStatus = d.memSlotStatus

theorem Data.Like.refl (d : Data) : d.Like d := ⟨rfl, rfl, rfl⟩

theorem Data.Like.trans {d d' d'' : Data} (h : d.Like d') (h' : d'.Like d'') : d.Like d'' :=
  ⟨h'.handle.trans h.handle, h'.tblHandle.trans h.tblHandle, h'.memSlotStatus.trans h.memSlotStatus⟩

theorem Data.like_err (d : Data) : d.Like d.err := ⟨rfl, rfl, rfl⟩

/-- What a transaction leaves: it has talked to the camera, and it succeeds with the latest exchange,
which is a whole response, or fails and there is none. -/
structure Transacted.After (d : Data) (tx : Bytes) (capacity : Nat) (k : Disk) (es : List Exchange)
    (t : Transacted) (k' : Disk) : Prop where
  talked : k.Talked k' tx es
  like : d.Like t.data
  room : t.rx.length = capacity
  success : t.result.returnType = .success → ∃ e rest, es = e :: rest ∧ e.Whole ∧
    (∀ e' ∈ rest, ¬e'.Whole) ∧ t.result = .success e.bytes.length ∧ e.bytes.length ≤ capacity ∧
    t.rx.take e.bytes.length = e.bytes
  failure : t.result.returnType ≠ .success → ∀ e ∈ es, ¬e.Whole

section Transaction

variable {reliable : Bool} {d : Data} {tx rx : Bytes} {k : Disk}

/-- A failed read ends a transaction. -/
theorem wp_flush {Q : Transacted → Disk → Prop} {t : Transacted} (h : Q t k) :
    wp (Disk.world reliable) Q (flush d t) k := by
  unfold flush
  split
  · intro _ _
    exact h
  · exact h

/-- One of the three reads: the transaction fails with it, or goes on. -/
theorem wp_receive {Q : Transacted → Disk → Prop} {txData : Option Bytes} {off rxSize readByte : Nat}
    {next : Nat → Bytes → CamTask Transacted}
    (hfail : ∀ r : ReadReply, r.bytes.length ≤ rxSize → ¬r.Got rxSize → ∀ code readByte,
      Q ⟨d.err, ⟨code, .cfe, readByte⟩, overlay rx off r.bytes⟩ (k.next (.apiRead txData off rxSize) r))
    (hgot : ∀ r : ReadReply, r.Got rxSize → wp (Disk.world reliable) Q
      (next (readByte + rxSize) (overlay rx off r.bytes)) (k.next (.apiRead txData off rxSize) r)) :
    wp (Disk.world reliable) Q (receive d txData rx off rxSize readByte next) k := by
  rintro r ⟨hlength, hread⟩
  dsimp only
  by_cases hstatus : r.status = .success
  · by_cases hbytes : r.readBytes = rxSize
    · have hgot' : r.Got rxSize := ⟨hstatus, hbytes, by omega⟩
      have hnat : r.readBytes.toNat = rxSize := by omega
      rw [if_neg (not_not.2 hstatus), if_neg (not_not.2 hbytes), hnat]
      exact hgot r hgot'
    · rw [if_neg (not_not.2 hstatus), if_pos hbytes]
      exact wp_flush (hfail r hlength (fun h => hbytes h.readBytes) _ _)
  · rw [if_pos hstatus]
    exact wp_flush (hfail r hlength (fun h => hstatus h.status) _ _)

/-- **A transaction succeeds exactly with a whole response.** -/
theorem transaction_spec (h : hdrTailSize ≤ rx.length) :
    wp (Disk.world reliable) (fun t k' => ∃ e, t.After d tx rx.length k [e] k')
      (transaction d tx rx) k := by
  rw [transaction, if_neg (Nat.not_lt.2 h)]
  rw [hdrTailSize] at h
  refine wp_receive (fun r hlength hr code readByte => ⟨⟨tx, [r]⟩, ?_⟩) fun a ha => ?_
  · refine ⟨⟨rfl, rfl, rfl, rfl, by simp⟩, d.like_err, length_overlay (by omega), by simp, ?_⟩
    rintro - e he ⟨a, b, c, hreads, -⟩
    rw [List.mem_singleton.1 he] at hreads
    simp at hreads
  have hrx : overlay rx 0 a.bytes = a.bytes ++ rx.drop 3 := by rw [overlay, List.take_zero, ha.length]; simp
  have hroom : (a.bytes ++ rx.drop 3).length = rx.length := by
    simp only [List.length_append, List.length_drop, ha.length]
    omega
  rw [hrx]
  refine wp_receive (fun r hlength hr code readByte => ⟨⟨tx, [a, r]⟩, ?_⟩) fun b hb => ?_
  · refine ⟨⟨rfl, rfl, rfl, rfl, by simp⟩, d.like_err, ?_, by simp, ?_⟩
    · rw [← hroom]
      exact length_overlay (by omega)
    rintro - e he ⟨a', b', c', hreads, -⟩
    rw [List.mem_singleton.1 he] at hreads
    simp at hreads
  obtain ⟨w, hw⟩ : ∃ w, w = a.bytes ++ b.bytes := ⟨_, rfl⟩
  have hlen : w.length = 5 := by rw [hw, List.length_append, ha.length, hb.length]
  have hover : overlay (a.bytes ++ rx.drop 3) 3 b.bytes = w ++ rx.drop 5 := by
    have hfront := overlay_front a.bytes (rx.drop 3) b.bytes
    rw [ha.length, hb.length, List.drop_drop] at hfront
    rw [hfront, hw]
  have hroom' : (w ++ rx.drop 5).length = rx.length := by
    simp only [List.length_append, List.length_drop, hlen]
    omega
  rw [hover, payloadLen_append hlen, hroom']
  split
  · refine wp_flush ⟨⟨tx, [a, b]⟩, ⟨rfl, rfl, rfl, rfl, by simp⟩, d.like_err, hroom', by simp, ?_⟩
    rintro - e he ⟨a', b', c', hreads, -⟩
    rw [List.mem_singleton.1 he] at hreads
    simp at hreads
  rename_i hfits
  rw [hdrTailSize] at hfits
  refine wp_receive (fun r hlength hr code readByte => ⟨⟨tx, [a, b, r]⟩, ?_⟩) fun c hc => ?_
  · refine ⟨⟨rfl, rfl, rfl, rfl, by simp⟩, d.like_err, ?_, by simp, ?_⟩
    · rw [← hroom']
      exact length_overlay (by omega)
    rintro - e he ⟨a', b', c', hreads, ha', hb', hc'⟩
    rw [List.mem_singleton.1 he] at hreads hc'
    obtain ⟨rfl, rfl, rfl⟩ : a = a' ∧ b = b' ∧ r = c' := by simpa using hreads
    have hbytes : (⟨tx, [a, b, r]⟩ : Exchange).bytes = w ++ r.bytes := by simp [Exchange.bytes, hw]
    rw [hbytes, payloadLen_append hlen] at hc'
    exact hr hc'
  have hbytes : (⟨tx, [a, b, c]⟩ : Exchange).bytes = w ++ c.bytes := by simp [Exchange.bytes, hw]
  have hwhole : (⟨tx, [a, b, c]⟩ : Exchange).Whole :=
    ⟨a, b, c, rfl, ha, hb, by rwa [hbytes, payloadLen_append hlen]⟩
  have hlength : (w ++ c.bytes).length = 0 + 3 + 2 + (payloadLen w + 1) := by
    rw [List.length_append, hlen, hc.length]
  have hover' : overlay (w ++ rx.drop 5) 5 c.bytes = w ++ c.bytes ++ (rx.drop 5).drop c.bytes.length := by
    have hfront := overlay_front w (rx.drop 5) c.bytes
    rwa [hlen] at hfront
  refine ⟨⟨tx, [a, b, c]⟩, ⟨rfl, rfl, rfl, rfl, by simp⟩, Data.Like.refl d, ?_, fun _ => ?_, by
    simp [TransactionResult.success]⟩
  · rw [hover', List.length_append, List.length_drop, List.length_drop, hlength, hc.length]
    omega
  · refine ⟨_, [], rfl, hwhole, by simp, ?_⟩
    rw [hbytes, hlength, hover']
    refine ⟨rfl, by omega, ?_⟩
    rw [← hlength, List.take_left]

/-- One talk after the other. -/
theorem Disk.Talked.append {k' k'' : Disk} {es es' : List Exchange} (h : k.Talked k' tx es)
    (h' : k'.Talked k'' tx es') : k.Talked k'' tx (es' ++ es) where
  files := h'.files.trans h.files
  fds := h'.fds.trans h.fds
  reports := h'.reports.trans h.reports
  log := by rw [h'.log, h.log, List.append_assoc]
  tx e he := (List.mem_append.1 he).elim (h'.tx e) (h.tx e)

/-- A failed transaction is followed by another. -/
theorem Transacted.After.retry {capacity : Nat} {t t' : Transacted} {k' k'' : Disk}
    {es es' : List Exchange} (h : t.After d tx capacity k es k')
    (hfail : t.result.returnType ≠ .success) (h' : t'.After t.data tx capacity k' es' k'') :
    t'.After d tx capacity k (es' ++ es) k'' where
  talked := h.talked.append h'.talked
  like := h.like.trans h'.like
  room := h'.room
  success hok := by
    obtain ⟨e, rest, rfl, hwhole, hrest, hresult⟩ := h'.success hok
    refine ⟨e, rest ++ es, rfl, hwhole, fun e' he' => ?_, hresult⟩
    exact (List.mem_append.1 he').elim (hrest e') (h.failure hfail e')
  failure hno e he := (List.mem_append.1 he).elim (h'.failure hno e) (h.failure hfail e)

/-- **A download is tried at most six times**, and what it leaves is what the last try leaves. -/
theorem downloadRetry_spec {capacity : Nat} (h : hdrTailSize ≤ capacity) (retries : Nat) :
    wp (Disk.world reliable)
      (fun t k' => ∃ es, es.length ≤ retries + 1 ∧ t.After d tx capacity k es k')
      (downloadRetry tx capacity retries d) k := by
  induction retries generalizing d k with
  | zero =>
    rw [downloadRetry, wp_bind]
    refine wp_mono (transaction_spec (by simpa using h)) ?_
    rintro t k' ⟨e, ht⟩
    rw [List.length_replicate] at ht
    split <;> exact ⟨[e], by simp, ht⟩
  | succ retries ih =>
    rw [downloadRetry, wp_bind]
    refine wp_mono (transaction_spec (by simpa using h)) ?_
    rintro t k' ⟨e, ht⟩
    rw [List.length_replicate] at ht
    split
    · exact ⟨[e], by simp, ht⟩
    · rename_i hretry
      have hfail : t.result.returnType ≠ .success := fun hok => hretry (.inl hok)
      refine wp_mono ih ?_
      rintro t' k'' ⟨es, hle, ht'⟩
      exact ⟨es ++ [e], by simpa using hle, ht.retry hfail ht'⟩

/-- What a download leaves. -/
theorem downloadTransaction_spec {capacity : Nat} (h : hdrTailSize ≤ capacity) :
    wp (Disk.world reliable)
      (fun t k' => ∃ es, es.length ≤ downloadMaxRetries + 1 ∧ t.After d tx capacity k es k')
      (downloadTransaction d tx capacity) k := by
  rw [downloadTransaction]
  exact downloadRetry_spec h downloadMaxRetries

end Transaction

end Kisscam
end FlightApps
