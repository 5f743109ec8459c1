import FlightApps.Pay.Served

/-!
# What comes of a download

A `Job` is a download from a payload that tells the truth.  Whatever fails, the file is what it was,
followed by some of the parts in order (`Holds`), as long as no write is cut short; if nothing fails
and the padding makes no difference (`Exact`), it is followed by all of them (`wp_job`).
-/

set_option autoImplicit false

namespace FlightApps
namespace Pay

open Script

/-- A download from a payload. -/
structure Job where
  p : Payload
  link : Link
  handle : Bool
  fileIndex : UInt32
  startChunk : UInt32
  /-- The disk at the start. -/
  disk : Disk

/-- The status of the last report. -/
def reported (log : List Event) : Option Status :=
  match log.getLast? with
  | some ⟨.report status _ _ _ _, _⟩ => some status
  | _ => none

namespace Job

variable (j : Job)

def path : Path := makeDownloadPath j.fileIndex j.p.name

def fixed : Fixed :=
  ⟨j.link, j.handle, j.p.chunkSize, UInt32.ofNat j.p.npart, j.path, UInt32.ofNat j.p.data.length⟩

def task : Task Unit := downloadChildTask j.link j.handle j.fileIndex j.startChunk

/-- What the parts are appended to. -/
def base : List UInt8 := if j.startChunk = 0 then [] else j.disk.content j.path

/-- What is written of a part. -/
def block (n : Nat) : List UInt8 :=
  match j.link with
  | .i2c => j.p.chunk n
  | .rs422 => j.p.sized n

/-- The parts before the part `n`. -/
def parts (n : Nat) : List UInt8 :=
  ((List.range (n - j.startChunk.toNat)).map fun k => j.block (j.startChunk.toNat + k)).flatten

/-- The file with the parts before `n`. -/
def content (n : Nat) : List UInt8 := j.base ++ j.parts n

def files (n : Nat) : Path → Option (List UInt8) :=
  Function.update j.disk.files j.path (some (j.content n))

/-- Padding makes no difference. -/
def Exact : Prop := j.link = .i2c ∨ j.p.counted = false ∨ j.p.padding = []

theorem parts_start : j.parts j.startChunk.toNat = [] := by
  rw [parts, Nat.sub_self]
  rfl

variable {j}

theorem parts_succ {n : Nat} (hn : j.startChunk.toNat ≤ n) :
    j.parts (n + 1) = j.parts n ++ j.block n := by
  rw [parts, Nat.succ_sub hn, List.range_succ, List.map_append, List.flatten_append]
  refine congrArg (j.parts n ++ ·) ?_
  rw [List.map_singleton, List.flatten_singleton, Nat.add_sub_of_le hn]

theorem sized_exact (h : j.Exact) (hlink : j.link ≠ .i2c) (n : Nat) : j.p.sized n = j.p.chunk n := by
  rcases h with h | h | h
  · exact absurd h hlink
  · rw [Payload.sized, h]
    rfl
  · rw [Payload.sized, Payload.part, h, ite_self, List.append_nil, ite_self]

theorem block_exact (h : j.Exact) (n : Nat) : j.block n = j.p.chunk n := by
  rw [block]
  split
  · rfl
  · rename_i hlink
    exact sized_exact h (fun hi => Link.noConfusion (hi.symm.trans hlink)) n

theorem parts_exact (h : j.Exact) {n : Nat} (hn : j.startChunk.toNat ≤ n) :
    j.parts n = (j.p.data.drop (j.startChunk.toNat * j.p.chunkSize.toNat)).take
      ((n - j.startChunk.toNat) * j.p.chunkSize.toNat) := by
  obtain ⟨k, rfl⟩ := Nat.exists_eq_add_of_le hn
  clear hn
  rw [Nat.add_sub_cancel_left]
  induction k with
  | zero => rw [Nat.add_zero, parts_start, Nat.zero_mul, List.take_zero]
  | succ k ih =>
    rw [← Nat.add_assoc, parts_succ (Nat.le_add_right _ k), ih, block_exact h, Nat.succ_mul,
      List.take_add, List.drop_drop, ← Nat.add_mul]
    rfl

theorem length_block_pos {n : Nat} (hn : n < j.p.npart) : 0 < (j.block n).length := by
  rw [block]
  split
  · exact Payload.length_chunk_pos hn
  · exact Payload.sized_length_pos hn

theorem length_block_lt {n : Nat} (hn : n < j.p.npart) (hsize : j.p.Fits j.link) :
    (j.block n).length < 1024 := by
  have hle : (j.block n).length ≤ j.p.chunkSize.toNat := by
    rw [block]
    split
    · exact Nat.le_trans (Payload.chunk_prefix_part n).length_le (Payload.length_part_le hn)
    · exact Payload.sized_length_le hn
  have hlt : j.p.chunkSize.toNat < 1024 := by
    cases hlink : j.link with
    | i2c =>
      rw [hlink] at hsize
      exact hsize
    | rs422 =>
      rw [hlink] at hsize
      exact Nat.lt_of_le_of_lt hsize (by decide)
  exact Nat.lt_of_le_of_lt hle hlt

/-- Without padding, one of the CRCs is the one that is told. -/
theorem gives_exact (h : j.Exact) (n : Nat) :
    ∃ crc validCrc, j.p.gives n j.link = .got (j.block n) crc validCrc ∧
      ¬(crc ≠ j.p.partCrc32 n ∧ validCrc ≠ j.p.partCrc32 n) := by
  have hcrc : j.p.partCrc32 n = calculateCRC32 (j.p.chunk n) ∨
      j.p.partCrc32 n = calculateCRC32 (j.p.sized n) := by
    rw [Payload.partCrc32]
    split
    · rename_i hcov
      rw [Payload.sized, hcov.1]
      exact Or.inr rfl
    · exact Or.inl rfl
  cases hlink : j.link with
  | i2c =>
    refine ⟨calculateCRC32 (j.p.sized n), calculateCRC32 (j.p.chunk n), ?_, fun hne => ?_⟩
    · rw [block, hlink]
      rfl
    · exact hcrc.elim (fun h => hne.2 h.symm) fun h => hne.1 h.symm
  | rs422 =>
    refine ⟨calculateCRC32 (j.p.sized n), calculateCRC32 (j.p.sized n), ?_, fun hne => ?_⟩
    · rw [block, hlink]
      rfl
    · rw [sized_exact h (fun hi => Link.noConfusion (hi.symm.trans hlink)) n] at hne hcrc
      exact hcrc.elim (fun h => hne.2 h.symm) fun h => hne.1 h.symm

theorem gives_block (n : Nat) :
    ∃ crc validCrc, j.p.gives n j.link = .got (j.block n) crc validCrc := by
  cases hlink : j.link with
  | i2c => exact ⟨_, _, by rw [block, hlink]; rfl⟩
  | rs422 => exact ⟨_, _, by rw [block, hlink]; rfl⟩

/-! ## While parts are loaded -/

/-- The file has the parts before `n`, and the totals are theirs. -/
structure Holds (j : Job) (n : Nat) (t : Totals) (s : Scene) : Prop where
  files : s.disk.files = j.files n
  path : s.disk.path = j.path
  cursor : s.disk.cursor = (j.content n).length
  crc : t.totalCrc = updateCRC32 0xFFFFFFFF (j.parts n)
  written : t.totalWritten = UInt32.ofNat (j.parts n).length
  log : Unreported s.log

/-- The task has left, because something has failed or because of padding; the file has some of the
parts. -/
structure Leaves (j : Job) (fail : Bool) (v : Vars) (s : Scene) : Prop where
  completed : v.completed = false
  log : Unreported s.log
  files : ∃ n, j.startChunk.toNat ≤ n ∧ n ≤ j.p.npart ∧ s.disk.files = j.files n
  cause : fail = true ∨ ¬j.Exact

/-- What comes of loading parts. -/
def LoadsTo (j : Job) (fail : Bool) (n : Nat) (r : Loaded) (s : Scene) : Prop :=
  match r with
  | .more t => j.Holds n t s
  | .leave v => j.Leaves fail v s

namespace Holds

variable {n : Nat} {t : Totals} {s s' : Scene}

theorem quiet (h : j.Holds n t s) (hquiet : Quiet s s') : j.Holds n t s' :=
  ⟨by rw [hquiet.disk]; exact h.files, by rw [hquiet.disk]; exact h.path,
    by rw [hquiet.disk]; exact h.cursor, h.crc, h.written, hquiet.log h.log⟩

theorem partLoad (h : j.Holds n t s) (i : UInt32) (status : Status) :
    j.Holds n t (s.next (.set .ftPartLoad i) status) :=
  ⟨h.files, h.path, h.cursor, h.crc, h.written, h.log.snoc fun h => h⟩

theorem close (h : j.Holds n t s) (fd : Int) : j.Holds n t (s.next (.close fd) ()) :=
  ⟨h.files, h.path, h.cursor, h.crc, h.written, h.log.snoc fun h => h⟩

theorem leaves (h : j.Holds n t s) (hn : j.startChunk.toNat ≤ n) (hle : n ≤ j.p.npart) {fail : Bool}
    (hcause : fail = true ∨ ¬j.Exact) {v : Vars} (hv : v.completed = false) : j.Leaves fail v s :=
  ⟨hv, h.log, ⟨n, hn, hle, h.files⟩, hcause⟩

end Holds

/-- A file that is there is the same after it has been opened to append. -/
theorem opened_append {d : Disk} {path : Path} {bs : List UInt8} (h : d.files path = some bs) :
    (d.opened path false).files = d.files := by
  show Function.update d.files path (some (d.content path)) = d.files
  rw [Disk.content, h]
  exact Function.update_eq_self_iff.2 h.symm

theorem files_self (j : Job) (n : Nat) : j.files n j.path = some (j.content n) :=
  Function.update_self ..

theorem toUInt32_of_toInt {written : Int32} {n : Nat} (h : written.toInt = (n : Int)) :
    written.toUInt32 = UInt32.ofNat n := by
  rw [← Int32.ofInt_toInt written, h, Int32.ofInt_eq_ofNat]
  rfl

section Loading

variable {fail : Bool} {n : Nat} {t : Totals} {s : Scene}

theorem wp_closeIfOpen_served {α : Type} {Q : α → Scene → Prop} {fd : Int} {c : Task α}
    (hopen : wp (j.p.world fail false) Q c (s.next (.close fd) ()))
    (hnone : wp (j.p.world fail false) Q c s) :
    wp (j.p.world fail false) Q (closeIfOpen fd c) s := by
  rw [closeIfOpen]
  split
  · exact fun _ _ => hopen
  · exact hnone

theorem wp_reopen_served (h : j.Holds n t s) (hn : j.startChunk.toNat ≤ n) (hle : n ≤ j.p.npart) :
    wp (j.p.world fail false) (j.LoadsTo fail n) (reopen j.fixed t) s := by
  have hfile : s.disk.files j.path = some (j.content n) := by rw [h.files, files_self]
  rintro ⟨status, fd⟩ hserves
  rw [Payload.world_next]
  dsimp only
  by_cases hstatus : status = success
  · subst hstatus
    have hopened : (s.next (.openCreate j.path false) (success, fd)).disk =
        s.disk.opened j.path false := rfl
    have hfiles : (s.disk.opened j.path false).files = j.files n :=
      (opened_append hfile).trans h.files
    have hlog : Unreported (s.next (.openCreate j.path false) (success, fd)).log :=
      h.log.snoc fun h => h
    rw [if_neg fun hne => hne rfl]
    intro status hserves
    rw [Payload.world_next]
    dsimp only
    have hlog' : Unreported ((s.next (.openCreate j.path false) (success, fd)).next
        (.lseekEnd fd) status).log := hlog.snoc fun h => h
    split
    · rename_i hneg
      refine ⟨rfl, hlog', ⟨n, hn, hle, ?_⟩, Or.inl (hserves hneg)⟩
      show (if 0 ≤ status then _ else (s.disk.opened j.path false)).files = _
      rw [if_neg (Int32.not_le.2 hneg)]
      exact hfiles
    · rename_i hneg
      have hdisk : ((s.next (.openCreate j.path false) (success, fd)).next
          (.lseekEnd fd) status).disk = (s.disk.opened j.path false).atEnd :=
        if_pos (Int32.not_lt.1 hneg)
      refine ⟨?_, ?_, ?_, h.crc, h.written, hlog'⟩
      · exact (congrArg Disk.files hdisk).trans hfiles
      · exact congrArg Disk.path hdisk
      · refine (congrArg Disk.cursor hdisk).trans ?_
        show ((s.disk.opened j.path false).content j.path).length = _
        rw [Disk.content, hfiles, files_self]
        rfl
  · rw [if_pos hstatus]
    have hlog : Unreported (s.next (.openCreate j.path false) (status, fd)).log :=
      h.log.snoc fun h => h
    refine ⟨rfl, hlog, ⟨n, hn, hle, ?_⟩, Or.inl (hserves hstatus)⟩
    show (if status = success then _ else s.disk).files = _
    rw [if_neg hstatus]
    exact h.files

theorem wp_flush_served (h : j.Holds n t s) (hn : j.startChunk.toNat ≤ n) (hle : n ≤ j.p.npart)
    (i : UInt32) : wp (j.p.world fail false) (j.LoadsTo fail n) (flush j.fixed i t) s := by
  rw [flush]
  split
  · exact wp_closeIfOpen_served (wp_reopen_served (h.close t.fd) hn hle) (wp_reopen_served h hn hle)
  · exact h

/-- The part `n` has been written as a whole. -/
theorem Holds.stores (h : j.Holds n t s) (hn : j.startChunk.toNat ≤ n) {written : Int32}
    (hwritten : written.toInt = ((j.block n).length : Int)) :
    j.Holds (n + 1) ⟨updateCRC32 t.totalCrc (j.block n), t.totalWritten + written.toUInt32, t.fd⟩
      (s.next (.write t.fd (j.block n)) written) := by
  have hdisk : (s.next (.write t.fd (j.block n)) written).disk = s.disk.wrote (j.block n) := by
    show s.disk.wrote ((j.block n).take written.toInt.toNat) = _
    rw [hwritten, Int.toNat_natCast, List.take_length]
  have hcontent : s.disk.content s.disk.path = j.content n := by
    rw [Disk.content, h.path, h.files, files_self]
    rfl
  have hsucc : j.content (n + 1) = j.content n ++ j.block n := by
    rw [content, parts_succ hn, ← List.append_assoc]
    rfl
  refine ⟨?_, ?_, ?_, ?_, ?_, h.log.snoc fun h => h⟩
  · rw [hdisk, Disk.wrote, hcontent, h.path, h.cursor]
    show Function.update s.disk.files j.path _ = _
    rw [List.take_length, List.drop_eq_nil_of_le (Nat.le_add_right _ _), List.append_nil, h.files,
      ← hsucc, Job.files, Function.update_idem]
    rfl
  · rw [hdisk]
    exact h.path
  · rw [hdisk, hsucc, List.length_append]
    exact congrArg (· + (j.block n).length) h.cursor
  · rw [parts_succ hn, updateCRC32_append, ← h.crc]
  · rw [parts_succ hn, List.length_append, UInt32.ofNat_add, ← h.written, toUInt32_of_toInt hwritten]

theorem wp_store_served (h : j.Holds n t s) (hn : j.startChunk.toNat ≤ n) (hlt : n < j.p.npart)
    (hsize : j.p.Fits j.link) (i : UInt32) :
    wp (j.p.world fail false) (j.LoadsTo fail (n + 1)) (store j.fixed i t (j.block n)) s := by
  intro written hserves
  have hlog : Unreported (s.next (.write t.fd (j.block n)) written).log := h.log.snoc fun h => h
  rw [Payload.world_next]
  dsimp only
  rcases hserves with hwhole | ⟨hfail, hnone | ⟨hcut, -⟩⟩
  · rw [Nat.min_eq_left (by have := length_block_lt hlt hsize; omega)] at hwhole
    rw [if_neg]
    · exact wp_flush_served (h.stores hn hwhole) (Nat.le_succ_of_le hn) hlt i
    · rintro (hneg | hne)
      · rw [Int32.lt_iff_toInt_lt, hwhole] at hneg
        exact Int.not_lt.2 (Int.natCast_nonneg _) hneg
      · rw [hwhole, Int.toNat_natCast] at hne
        exact hne rfl
  · have hpos := length_block_pos hlt
    have hzero : written.toInt.toNat = 0 := Int.toNat_eq_zero.2 hnone
    rw [if_pos (Or.inr (by rw [hzero]; exact Nat.ne_of_lt hpos))]
    refine ⟨rfl, hlog, ⟨n, hn, Nat.le_of_lt hlt, ?_⟩, Or.inl hfail⟩
    show (s.disk.wrote ((j.block n).take written.toInt.toNat)).files = _
    have hcontent : s.disk.content s.disk.path = j.content n := by
      rw [Disk.content, h.path, h.files, files_self]
      rfl
    rw [hzero, List.take_zero, Disk.wrote, hcontent, h.path, h.files, List.append_nil,
      List.length_nil, Nat.add_zero, List.take_append_drop, Job.files]
    exact Function.update_idem ..
  · exact absurd hcut Bool.noConfusion

/-- What comes of an attempt at the part `n`. -/
def TriesTo (j : Job) (fail : Bool) (n : Nat) (t : Totals) (r : Option Loaded) (s : Scene) : Prop :=
  match r with
  | none => j.Holds n t s ∧ (fail = true ∨ ¬j.Exact)
  | some r => j.LoadsTo fail (n + 1) r s

theorem wp_attempt_served (h : j.Holds n t s) (hn : j.startChunk.toNat ≤ n) (hlt : n < j.p.npart)
    (hsize : j.p.Fits j.link) (hhandle : j.handle = true ∨ fail = true) :
    wp (j.p.world fail false) (j.TriesTo fail n t) (attempt j.fixed (UInt32.ofNat n) t) s := by
  intro status hserves
  have hload := h.partLoad (UInt32.ofNat n) status
  rw [Payload.world_next]
  dsimp only
  split
  · rename_i hstatus
    exact ⟨hload, Or.inl (hserves hstatus)⟩
  rename_i hstatus
  have hnotes : (s.next (.set .ftPartLoad (UInt32.ofNat n)) status).notes =
      { s.notes with part := some (UInt32.ofNat n), polls := 0 } := if_pos (not_not.1 hstatus)
  have hpart := congrArg Notes.part hnotes
  have hpolls := congrArg Notes.polls hnotes
  rw [wp_bind]
  refine wp_mono (wp_and (Payload.wp_world (wp_waitReady 500 _)) (Payload.wp_waitReady_served 500
    (Or.inr ⟨by rw [hpolls], by rw [hpolls]; exact Nat.zero_lt_succ 499⟩))) ?_
  rintro ready s₁ ⟨hready, hone⟩
  split
  · rename_i hne
    exact ⟨hload.quiet hready, Or.inl (hone.resolve_right hne)⟩
  rintro ⟨status, partSize⟩ hserves
  have hquiet := hready.trans (.next (c := .fetch .ftPartSize) s₁ trivial (status, partSize))
  rw [Payload.world_next]
  dsimp only
  have htells : if status = success then
      ∀ i, s₁.notes.part = some i → partSize = UInt32.ofNat (j.p.sized i.toNat).length
    else fail = true := hserves
  split
  · rename_i hstatus
    rw [if_neg hstatus] at htells
    exact ⟨hload.quiet hquiet, Or.inl htells⟩
  rename_i hstatus
  rw [if_pos (not_not.1 hstatus)] at htells
  obtain rfl := htells _ (hready.notes.part.trans hpart)
  rw [Payload.toNat_part hlt] at hquiet ⊢
  rw [wp_bind]
  refine wp_mono (wp_and (Payload.wp_world (wp_readPart j.link j.handle _ _ _ _ _ _))
    (Payload.wp_readPart_served hlt (hquiet.notes.part.trans hpart) hsize j.handle hhandle)) ?_
  rintro part s₂ ⟨⟨hquiet', -⟩, hyields⟩
  have hquiet := hquiet.trans hquiet'
  rcases hyields with ⟨hfail, rfl⟩ | rfl
  · exact ⟨hload.quiet hquiet, Or.inl hfail⟩
  obtain ⟨crc, validCrc, hgives⟩ := gives_block (j := j) n
  rw [hgives]
  rintro ⟨status, partCrc⟩ hserves
  have hcrc := hquiet.trans (.next (c := .fetch .ftPartCrc32) s₂ trivial (status, partCrc))
  have htells : if status = success then
      ∀ i, s₂.notes.part = some i → partCrc = j.p.partCrc32 i.toNat
    else fail = true := hserves
  rw [Payload.world_next]
  dsimp only
  split
  · rename_i hstatus
    rw [if_neg hstatus] at htells
    exact (hload.quiet hcrc).leaves hn (Nat.le_of_lt hlt) (Or.inl htells) rfl
  rename_i hstatus
  rw [if_pos (not_not.1 hstatus)] at htells
  obtain rfl := htells _ (hquiet.notes.part.trans hpart)
  split
  · rename_i hwrong
    refine ⟨hload.quiet hcrc, Or.inr fun hexact => ?_⟩
    obtain ⟨crc', validCrc', hgives', hright⟩ := gives_exact hexact n
    obtain ⟨-, rfl, rfl⟩ := Part.got.inj (hgives.symm.trans hgives')
    rw [Payload.toNat_part hlt] at hwrong
    exact hright hwrong
  · rw [wp_bind]
    exact wp_store_served (hload.quiet hcrc) hn hlt hsize _

theorem wp_loadChunk_served (left : Nat) (h : j.Holds n t s) (hn : j.startChunk.toNat ≤ n)
    (hlt : n < j.p.npart) (hsize : j.p.Fits j.link) (hhandle : j.handle = true ∨ fail = true)
    (hleft : left = 0 → fail = true ∨ ¬j.Exact) :
    wp (j.p.world fail false) (j.LoadsTo fail (n + 1))
      (loadChunk j.fixed (UInt32.ofNat n) t left) s := by
  induction left generalizing s with
  | zero => exact h.leaves hn (Nat.le_of_lt hlt) (hleft rfl) rfl
  | succ left ih =>
    rw [loadChunk, wp_bind]
    refine wp_mono (wp_attempt_served h hn hlt hsize hhandle) fun r s' hr => ?_
    cases r with
    | none => exact ih hr.1 fun _ => hr.2
    | some r => exact hr

theorem wp_loadChunks_served (left : Nat) (h : j.Holds n t s) (hn : j.startChunk.toNat ≤ n)
    (hle : n + left = j.p.npart) (hsize : j.p.Fits j.link)
    (hhandle : j.handle = true ∨ fail = true) :
    wp (j.p.world fail false) (j.LoadsTo fail j.p.npart)
      (loadChunks j.fixed left (UInt32.ofNat n) t) s := by
  induction left generalizing s n t with
  | zero => exact hle ▸ h
  | succ left ih =>
    rw [loadChunks, wp_bind]
    refine wp_mono (wp_loadChunk_served 4 h hn (by omega) hsize hhandle fun h => absurd h (by decide))
      fun r s' hr => ?_
    cases r with
    | leave v => exact hr
    | more t' =>
      have hnext : UInt32.ofNat n + 1 = UInt32.ofNat (n + 1) := (UInt32.ofNat_add n 1).symm
      show wp (j.p.world fail false) _ (loadChunks j.fixed left (UInt32.ofNat n + 1) t') s'
      rw [hnext]
      exact ih hr (Nat.le_succ_of_le hn) (by omega)

end Loading

/-! ## The end -/

/-- The file has the parts before some `n`, which are all of them if success is reported, or if
nothing has failed and padding makes no difference. -/
def Writes (j : Job) (fail : Bool) (status : Status) (s : Scene) : Prop :=
  j.startChunk.toNat < j.p.npart ∧ ∃ n, j.startChunk.toNat ≤ n ∧ n ≤ j.p.npart ∧ s.disk.files = j.files n ∧
    (status = success → n = j.p.npart ∧ (j.content n).length = j.p.data.length) ∧
    (fail = false → j.Exact → n = j.p.npart ∧
      status = if (j.content n).length = j.p.data.length then success else externalResourceFail)

/-- The file has not been opened, because something has failed or there is no such part. -/
def Declines (j : Job) (fail : Bool) (status : Status) (s : Scene) : Prop :=
  s.disk.files = j.disk.files ∧ status ≠ success ∧
    (fail = true ∨ j.p.npart ≤ j.startChunk.toNat ∧ status = badArgument)

/-- What comes of a download. -/
def Ended (j : Job) (fail : Bool) (s : Scene) : Prop :=
  ∃ status, reported s.log = some status ∧ (j.Writes fail status s ∨ j.Declines fail status s)

section Ending

variable {fail : Bool} {n : Nat} {t : Totals} {s : Scene} {v : Vars}

theorem reported_snoc (log : List Event) (status : Status) (link : Link) (path : Path)
    (size : UInt32) (deviceError : Bool) :
    reported (log ++ [⟨.report status link path size deviceError, ()⟩]) = some status := by
  rw [reported, List.getLast?_append, List.getLast?_singleton]
  rfl

/-- What is reported without success. -/
def failure (status : Status) : Status := if status = success then externalResourceFail else status

theorem failure_ne (status : Status) : failure status ≠ success := by
  rw [failure]
  split
  · decide
  · assumption

theorem wp_taskExit_served (W : World Call Call.Reply Scene) (hnext : W.next = Scene.next)
    (link : Link) (v : Vars) (hv : v.completed = false) :
    wp W (fun _ s' => s'.disk = s.disk ∧ reported s'.log = some (failure v.status))
      (taskExit link v) s := by
  intro _ _
  rw [hnext]
  refine ⟨rfl, (reported_snoc ..).trans ?_⟩
  rw [hv, if_neg Bool.noConfusion]
  rfl

/-- A download that is not complete. -/
theorem wp_fileCleanup_failed (W : World Call Call.Reply Scene) (hnext : W.next = Scene.next)
    (link : Link) (hv : v.completed = false) :
    wp W (fun _ s' => s'.disk = s.disk ∧ reported s'.log = some (failure v.status))
      (fileCleanup link v) s := by
  have hrelease : ∀ s : Scene, ∀ r, wp W
      (fun _ s' => s'.disk = s.disk ∧ reported s'.log = some (failure v.status))
      (taskExit link (if r ≠ success ∧ v.completed = true then
        { v with completed := false, status := r } else v)) (W.next s (.set .ftRelease 1) r) := by
    intro s r
    rw [if_neg fun h => Bool.noConfusion (hv.symm.trans h.2)]
    refine wp_mono (wp_taskExit_served W hnext link v hv) fun _ s' hs => ⟨hs.1.trans ?_, hs.2⟩
    rw [hnext]
    rfl
  rw [fileCleanup, closeIfOpen]
  split
  · intro _ _ r _
    refine wp_mono (hrelease _ r) fun _ s' hs => ⟨hs.1.trans ?_, hs.2⟩
    rw [hnext]
    rfl
  · exact fun r _ => hrelease s r

/-- A download that is complete, unless the release fails. -/
theorem wp_fileCleanup_completed (link : Link) (hv : v.completed = true) :
    wp (j.p.world fail false) (fun _ s' => s'.disk = s.disk ∧ ∃ status,
      reported s'.log = some status ∧ (status = success ∨ fail = true)) (fileCleanup link v) s := by
  have hrelease : ∀ s : Scene, ∀ r, (r ≠ success → fail = true) → wp (j.p.world fail false)
      (fun _ s' => s'.disk = s.disk ∧ ∃ status,
        reported s'.log = some status ∧ (status = success ∨ fail = true))
      (taskExit link (if r ≠ success ∧ v.completed = true then
        { v with completed := false, status := r } else v)) (s.next (.set .ftRelease 1) r) := by
    intro s r hfail
    split
    · rename_i hne
      refine wp_mono (wp_taskExit_served _ rfl link _ rfl) fun _ s' hs => ?_
      exact ⟨hs.1, _, hs.2, Or.inr (hfail hne.1)⟩
    · intro _ _
      refine ⟨rfl, _, reported_snoc .., Or.inl ?_⟩
      rw [hv, if_pos rfl]
  exact wp_closeIfOpen_served (fun r hr => hrelease _ r hr) fun r hr => hrelease s r hr

theorem Leaves.cleanup (h : j.Leaves fail v s) (hlt : j.startChunk.toNat < j.p.npart) (link : Link) :
    wp (j.p.world fail false) (fun _ => j.Ended fail) (fileCleanup link v) s := by
  refine wp_mono (wp_fileCleanup_failed _ rfl link h.completed) fun _ s' hs => ?_
  obtain ⟨n, hn, hle, hfiles⟩ := h.files
  refine ⟨_, hs.2, Or.inl ⟨hlt, n, hn, hle, by rw [hs.1]; exact hfiles, fun h => ?_,
    fun hno hexact => ?_⟩⟩
  · exact absurd h (failure_ne _)
  · rcases h.cause with hfail | hnot
    · exact Bool.noConfusion (hno.symm.trans hfail)
    · exact absurd hexact hnot

theorem wp_checkSize_served (h : j.Holds j.p.npart t s) (hlt : j.startChunk.toNat < j.p.npart)
    (status : Status) :
    wp (j.p.world fail false) (fun _ => j.Ended fail) (checkSize j.fixed j.startChunk t status)
      s := by
  have hn := Nat.le_of_lt hlt
  have hstat : ∀ s, j.Holds j.p.npart t s → ∀ r, j.p.Serves fail false s (.stat j.path) r →
      wp (j.p.world fail false) (fun _ => j.Ended fail) (fileCleanup j.link
        (if r.1 ≠ success then
          { j.fixed.vars (-1) status true with status := r.1, deviceError := false }
        else if r.2 ≠ (UInt32.ofNat j.p.data.length).toNat ∨
            (j.startChunk = 0 ∧ t.totalWritten ≠ UInt32.ofNat j.p.data.length) then
          { j.fixed.vars (-1) status true with status := externalResourceFail }
        else { j.fixed.vars (-1) status true with completed := true }))
        (s.next (.stat j.path) r) := by
    rintro s h ⟨statStatus, size⟩ hserves
    have htrue : if statStatus = success then size = (s.disk.content j.path).length
      else fail = true := hserves
    have hcontent : s.disk.content j.path = j.content j.p.npart := by
      rw [Disk.content, h.files, files_self]
      rfl
    have hlog : Unreported (s.next (.stat j.path) (statStatus, size)).log := h.log.snoc fun h => h
    dsimp only
    split
    · rename_i hstatus
      rw [if_neg hstatus] at htrue
      exact Leaves.cleanup ⟨rfl, hlog, ⟨_, hn, Nat.le_refl _, h.files⟩, Or.inl htrue⟩ hlt j.link
    rename_i hstatus
    rw [if_pos (not_not.1 hstatus), hcontent] at htrue
    subst htrue
    rw [Payload.toNat_size]
    by_cases hlen : (j.content j.p.npart).length = j.p.data.length
    · have hwritten : ¬(j.startChunk = 0 ∧ t.totalWritten ≠ UInt32.ofNat j.p.data.length) := by
        rintro ⟨hzero, hne⟩
        rw [content, base, if_pos hzero, List.nil_append] at hlen
        rw [h.written, hlen] at hne
        exact hne rfl
      rw [if_neg (not_or.2 ⟨not_not.2 hlen, hwritten⟩)]
      refine wp_mono (wp_fileCleanup_completed j.link rfl) ?_
      rintro _ s' ⟨hdisk, status', hreport, hdone⟩
      refine ⟨status', hreport, Or.inl ⟨hlt, _, hn, Nat.le_refl _, ?_, fun _ => ⟨rfl, hlen⟩, ?_⟩⟩
      · rw [hdisk]
        exact h.files
      · intro hno _
        rw [if_pos hlen]
        exact ⟨rfl, hdone.resolve_right fun hfail => Bool.noConfusion (hno.symm.trans hfail)⟩
    · rw [if_pos (Or.inl hlen)]
      refine wp_mono (wp_fileCleanup_failed _ rfl j.link rfl) ?_
      rintro _ s' ⟨hdisk, hreport⟩
      refine ⟨_, hreport, Or.inl ⟨hlt, _, hn, Nat.le_refl _, ?_, fun h => ?_, fun _ _ => ?_⟩⟩
      · rw [hdisk]
        exact h.files
      · exact absurd h (failure_ne _)
      · rw [if_neg hlen]
        exact ⟨rfl, rfl⟩
  exact wp_closeIfOpen_served (fun r hr => hstat _ (h.close t.fd) r hr) fun r hr => hstat s h r hr

/-- From the start, all parts are all of the data. -/
theorem parts_all (h : j.Exact) (hn : j.startChunk.toNat ≤ j.p.npart) :
    j.parts j.p.npart = j.p.data.drop (j.startChunk.toNat * j.p.chunkSize.toNat) := by
  rw [parts_exact h hn]
  refine List.take_of_length_le ?_
  rw [List.length_drop, Nat.sub_mul]
  have hle := Nat.le_of_not_lt fun hlt => Nat.lt_irrefl _ ((j.p.lt_npart_iff j.p.npart).2 hlt)
  omega

theorem wp_checkFile_served (h : j.Holds j.p.npart t s) (hlt : j.startChunk.toNat < j.p.npart) :
    wp (j.p.world fail false) (fun _ => j.Ended fail) (checkFile j.fixed j.startChunk t) s := by
  have hn := Nat.le_of_lt hlt
  rw [checkFile]
  split
  · rename_i hzero
    rintro ⟨status, fileCrc⟩ hserves
    have hlog : Unreported (s.next (.fetch .ftFileCrc32) (status, fileCrc)).log :=
      h.log.snoc fun h => h
    have htells : if status = success then fileCrc = calculateCRC32 j.p.data else fail = true :=
      hserves
    rw [Payload.world_next]
    dsimp only
    split
    · rename_i hstatus
      rw [if_neg hstatus] at htells
      exact Leaves.cleanup ⟨rfl, hlog, ⟨_, hn, Nat.le_refl _, h.files⟩, Or.inl htells⟩ hlt j.link
    rename_i hstatus
    rw [if_pos (not_not.1 hstatus)] at htells
    subst htells
    split
    · rename_i hwrong
      refine Leaves.cleanup ⟨rfl, hlog, ⟨_, hn, Nat.le_refl _, h.files⟩, Or.inr fun hexact => ?_⟩ hlt
        j.link
      have hall := parts_all hexact hn
      rw [hzero, UInt32.toNat_zero, Nat.zero_mul, List.drop_zero] at hall
      rw [h.crc, hall] at hwrong
      exact hwrong rfl
    · exact wp_checkSize_served (s := s.next (.fetch .ftFileCrc32) (status, calculateCRC32 j.p.data))
        ⟨h.files, h.path, h.cursor, h.crc, h.written, hlog⟩ hlt status
  · exact wp_checkSize_served h hlt _

theorem wp_transfer_served (h : ∀ fd, j.Holds j.startChunk.toNat ⟨0xFFFFFFFF, 0, fd⟩ s)
    (hlt : j.startChunk.toNat < j.p.npart) (hsize : j.p.Fits j.link)
    (hhandle : j.handle = true ∨ fail = true) (fd : Int) :
    wp (j.p.world fail false) (fun _ => j.Ended fail)
      (transfer j.link j.handle j.p.chunkSize (UInt32.ofNat j.p.npart) j.startChunk j.path fd) s := by
  rintro ⟨status, expectedFileSize⟩ hserves
  have hlog : Unreported (s.next (.fetch .ftFileSize) (status, expectedFileSize)).log :=
    (h fd).log.snoc fun h => h
  have htells : if status = success then expectedFileSize = UInt32.ofNat j.p.data.length
    else fail = true := hserves
  rw [Payload.world_next]
  dsimp only
  split
  · rename_i hstatus
    rw [if_neg hstatus] at htells
    exact Leaves.cleanup ⟨rfl, hlog, ⟨_, Nat.le_refl _, Nat.le_of_lt hlt, (h fd).files⟩, Or.inl htells⟩
      hlt j.link
  rename_i hstatus
  rw [if_pos (not_not.1 hstatus)] at htells
  subst htells
  have hholds : j.Holds j.startChunk.toNat ⟨0xFFFFFFFF, 0, fd⟩
      (s.next (.fetch .ftFileSize) (status, UInt32.ofNat j.p.data.length)) :=
    ⟨(h fd).files, (h fd).path, (h fd).cursor, (h fd).crc, (h fd).written, hlog⟩
  have hnpart : (UInt32.ofNat j.p.npart).toNat = j.p.npart := UInt32.toNat_ofNat_of_lt' j.p.npart_lt
  have hle : j.startChunk ≤ UInt32.ofNat j.p.npart := by
    rw [UInt32.le_iff_toNat_le, hnpart]
    exact Nat.le_of_lt hlt
  have hchunks := wp_loadChunks_served (UInt32.ofNat j.p.npart - j.startChunk).toNat hholds
    (Nat.le_refl _) (by rw [UInt32.toNat_sub_of_le _ _ hle, hnpart]; omega) hsize hhandle
  rw [UInt32.ofNat_toNat] at hchunks
  rw [wp_bind]
  refine wp_mono hchunks fun r s' hr => ?_
  cases r with
  | more t => exact wp_checkFile_served hr hlt
  | leave v => exact hr.cleanup hlt j.link

theorem content_start : j.content j.startChunk.toNat = j.base := by
  rw [content, parts_start, List.append_nil]

/-- The file has been opened. -/
theorem holds_start {s : Scene} (hfiles : s.disk.files = j.files j.startChunk.toNat)
    (hpath : s.disk.path = j.path) (hcursor : s.disk.cursor = j.base.length)
    (hlog : Unreported s.log) (fd : Int) :
    j.Holds j.startChunk.toNat ⟨0xFFFFFFFF, 0, fd⟩ s :=
  ⟨hfiles, hpath, by rw [content_start]; exact hcursor, by rw [parts_start]; rfl,
    by rw [parts_start]; rfl, hlog⟩

theorem wp_openFile_served (hdisk : s.disk = j.disk) (hlog : Unreported s.log)
    (hlt : j.startChunk.toNat < j.p.npart) (hsize : j.p.Fits j.link)
    (hhandle : j.handle = true ∨ fail = true) :
    wp (j.p.world fail false) (fun _ => j.Ended fail)
      (openFile j.link j.handle j.p.chunkSize (UInt32.ofNat j.p.npart) j.startChunk j.path) s := by
  rintro ⟨status, fd⟩ hserves
  have hlog' : Unreported (s.next (.openCreate j.path (j.startChunk = 0)) (status, fd)).log :=
    hlog.snoc fun h => h
  rw [Payload.world_next]
  dsimp only
  by_cases hstatus : status = success
  · subst hstatus
    have hopened : (s.next (.openCreate j.path (j.startChunk = 0)) (success, fd)).disk =
        j.disk.opened j.path (j.startChunk = 0) := by
      rw [← hdisk]
      rfl
    have hfiles : (j.disk.opened j.path (j.startChunk = 0)).files = j.files j.startChunk.toNat := by
      rw [files, content_start, base]
      simp only [Disk.opened, decide_eq_true_eq]
    rw [if_neg fun hne => hne rfl]
    split
    · rename_i hzero
      refine wp_transfer_served (fun fd => holds_start ?_ ?_ ?_ hlog' fd) hlt hsize hhandle fd
      · rw [hopened]
        exact hfiles
      · rw [hopened]
        rfl
      · rw [hopened, base, if_pos hzero]
        rfl
    rename_i hzero
    intro status hserves
    have hlog'' : Unreported ((s.next (.openCreate j.path (j.startChunk = 0)) (success, fd)).next
        (.lseekEnd fd) status).log := hlog'.snoc fun h => h
    rw [Payload.world_next]
    dsimp only
    split
    · rename_i hneg
      refine Leaves.cleanup ⟨rfl, hlog'', ⟨_, Nat.le_refl _, Nat.le_of_lt hlt, ?_⟩,
        Or.inl (hserves hneg)⟩ hlt j.link
      show (if 0 ≤ status then _ else
        (s.next (.openCreate j.path (j.startChunk = 0)) (success, fd)).disk).files = _
      rw [if_neg (Int32.not_le.2 hneg), hopened]
      exact hfiles
    · rename_i hneg
      have hend : ((s.next (.openCreate j.path (j.startChunk = 0)) (success, fd)).next
          (.lseekEnd fd) status).disk = (j.disk.opened j.path (j.startChunk = 0)).atEnd := by
        rw [← hopened]
        exact if_pos (Int32.not_lt.1 hneg)
      refine wp_transfer_served (fun fd => holds_start ?_ ?_ ?_ hlog'' fd) hlt hsize hhandle fd
      · exact (congrArg Disk.files hend).trans hfiles
      · exact congrArg Disk.path hend
      · refine (congrArg Disk.cursor hend).trans ?_
        show ((j.disk.opened j.path (j.startChunk = 0)).content j.path).length = _
        rw [Disk.content, hfiles, files_self, content_start]
        rfl
  · rw [if_pos hstatus]
    refine wp_mono (wp_fileCleanup_failed _ rfl j.link rfl) ?_
    rintro _ s' ⟨hsame, hreport⟩
    refine ⟨_, hreport, Or.inr ⟨?_, failure_ne _, Or.inl (hserves hstatus)⟩⟩
    rw [hsame]
    show (if status = success then _ else s.disk).files = _
    rw [if_neg hstatus, hdisk]

theorem unreported_next {c : Call} (h : Unreported s.log) (r : c.Reply)
    (hc : ¬(⟨c, r⟩ : Event).IsReport) : Unreported (s.next c r).log := h.snoc hc

theorem badChunkSize_fits {p : Payload} {link : Link} (h : p.Fits link) :
    badChunkSize link p.chunkSize = false := by
  have hpos : p.chunkSize ≠ 0 := fun hzero =>
    Nat.lt_irrefl 0 (by have := p.chunkSize_pos; rwa [hzero] at this)
  cases link with
  | i2c =>
    have hlt : ¬chunkBufferSize ≤ p.chunkSize := by
      rw [UInt32.le_iff_toNat_le]
      exact Nat.not_le.2 h
    rw [badChunkSize, decide_eq_false hpos, decide_eq_false hlt]
    rfl
  | rs422 =>
    have hle : ¬chunkBufferSize - 8 < p.chunkSize := by
      rw [UInt32.lt_iff_toNat_lt]
      exact Nat.not_lt.2 h
    rw [badChunkSize, decide_eq_false hpos, decide_eq_false hle]
    rfl

/-- **What comes of a download** from a payload that tells the truth, if no write is cut short. -/
theorem wp_job (hsize : j.p.Fits j.link) (hhandle : j.handle = true ∨ fail = true) :
    wp (j.p.world fail false) (fun _ => j.Ended fail) j.task (.start j.disk) := by
  have hexit : ∀ s : Scene, ∀ v, s.disk = j.disk → v.completed = false → fail = true →
      wp (j.p.world fail false) (fun _ => j.Ended fail) (taskExit j.link v) s := by
    intro s v hdisk hv hfail
    refine wp_mono (wp_taskExit_served _ rfl j.link v hv) ?_
    rintro _ s' ⟨hsame, hreport⟩
    exact ⟨_, hreport, Or.inr ⟨by rw [hsame, hdisk], failure_ne _, Or.inl hfail⟩⟩
  have hcleanup : ∀ s : Scene, ∀ v, s.disk = j.disk → v.completed = false →
      (fail = true ∨ j.p.npart ≤ j.startChunk.toNat ∧ v.status = badArgument) →
      wp (j.p.world fail false) (fun _ => j.Ended fail) (fileCleanup j.link v) s := by
    intro s v hdisk hv hcause
    refine wp_mono (wp_fileCleanup_failed _ rfl j.link hv) ?_
    rintro _ s' ⟨hsame, hreport⟩
    refine ⟨_, hreport, Or.inr ⟨by rw [hsame, hdisk], failure_ne _, hcause.imp_right fun h => ?_⟩⟩
    rw [h.2]
    exact ⟨h.1, by decide⟩
  rintro ⟨status, chunkSize⟩ hserves
  have htells : if status = success then chunkSize = j.p.chunkSize else fail = true := hserves
  dsimp only
  split
  · rename_i hstatus
    rw [if_neg hstatus] at htells
    exact hexit _ _ rfl rfl htells
  rename_i hstatus
  rw [if_pos (not_not.1 hstatus)] at htells
  subst htells
  rw [badChunkSize_fits hsize, if_neg Bool.noConfusion]
  intro status hserves
  dsimp only
  split
  · rename_i hstatus
    exact hexit _ _ rfl rfl (hserves hstatus)
  rintro ⟨status, npart⟩ hserves
  have htells : if status = success then npart = UInt32.ofNat j.p.npart else fail = true := hserves
  dsimp only
  split
  · rename_i hstatus
    rw [if_neg hstatus] at htells
    exact hcleanup _ _ rfl rfl (Or.inl htells)
  rename_i hstatus
  rw [if_pos (not_not.1 hstatus)] at htells
  subst htells
  have hnpart : (UInt32.ofNat j.p.npart).toNat = j.p.npart := UInt32.toNat_ofNat_of_lt' j.p.npart_lt
  split
  · rename_i hle
    rw [UInt32.le_iff_toNat_le, hnpart] at hle
    exact hcleanup _ _ rfl rfl (Or.inr ⟨hle, rfl⟩)
  rename_i hlt
  rw [UInt32.le_iff_toNat_le, hnpart] at hlt
  rintro ⟨status, name⟩ hserves
  have htells : if status = success then name = j.p.name else fail = true := hserves
  dsimp only
  split
  · rename_i hstatus
    rw [if_neg hstatus] at htells
    exact hcleanup _ _ rfl rfl (Or.inl htells)
  rename_i hstatus
  rw [if_pos (not_not.1 hstatus)] at htells
  subst htells
  refine wp_openFile_served rfl ?_ (Nat.lt_of_not_le hlt) hsize hhandle
  refine unreported_next (unreported_next (unreported_next (unreported_next ?_ _ ?_) _ ?_) _ ?_) _ ?_
  · exact fun _ hmem => absurd hmem List.not_mem_nil
  all_goals exact fun h => h

end Ending

end Job

end Pay
end FlightApps
