import FlightApps.Kisscam.Disk
import FlightApps.Kisscam.Paths

/-!
# Lines on the disk

A line is on the disk if one of the files for the present image of its slot holds, where the line
belongs, a whole response to a command that asked for it, and the response came after the last capture
of the slot (`OnDisk`).  `downloadLines_spec` is what the loop of a download leaves: in the file the
responses one after the other, in the table their lines.
-/

set_option autoImplicit false

namespace FlightApps
namespace Kisscam

open Script

/-! ## Responses with a line -/

/-- A whole response to a command that asked for the line, of the length of an image response. -/
structure Exchange.IsLine (e : Exchange) (mem pre : UInt8) (line : Nat) : Prop where
  whole : e.Whole
  tx : e.tx = downloadPacket mem pre line
  length : e.bytes.length = expectedRxSize pre

/-- The slot has not been captured since. -/
def Since (mem : UInt8) (log : List Exchange) (e : Exchange) : Prop :=
  ∃ newer older, log = newer ++ e :: older ∧ ∀ e' ∈ newer, ¬e'.Captured mem

/-- Lines of an image in a file. -/
structure Copy where
  startLine : Nat
  lineNum : Nat
  pre : UInt8

/-- The lines a file is for. -/
def Copy.For (c : Copy) (line : Nat) : Prop := c.startLine ≤ line ∧ line < c.startLine + max c.lineNum 1

/-- A copy that has the line. -/
structure Copy.Has (c : Copy) (k : Disk) (mem idx : UInt8) (line : Nat) (e : Exchange) : Prop where
  isFor : c.For line
  isLine : e.IsLine mem c.pre line
  since : Since mem k.log e
  holds : File.Holds (k.files (imagePath mem.toNat idx.toNat c.startLine c.lineNum))
    ((line - c.startLine) * expectedRxSize c.pre) e.bytes

/-- A line of an image is on the disk. -/
def OnDisk (k : Disk) (mem idx : UInt8) (line : Nat) : Prop := ∃ c : Copy, ∃ e, c.Has k mem idx line e

/-- No capture of the slot has come. -/
structure Disk.Quiet (mem : UInt8) (k k' : Disk) : Prop where
  log : ∃ es, k'.log = es ++ k.log ∧ ∀ e ∈ es, ¬e.Captured mem

section Quiet

variable {mem : UInt8} {k k' k'' : Disk}

theorem Disk.Quiet.of_eq (h : k'.log = k.log) : k.Quiet mem k' := ⟨[], h, by simp⟩

theorem Disk.Quiet.trans (h : k.Quiet mem k') (h' : k'.Quiet mem k'') : k.Quiet mem k'' := by
  obtain ⟨es, hlog, hes⟩ := h.log
  obtain ⟨es', hlog', hes'⟩ := h'.log
  exact ⟨es' ++ es, by rw [hlog', hlog, List.append_assoc], fun e he =>
    (List.mem_append.1 he).elim (hes' e) (hes e)⟩

theorem Disk.Quiet.since {e : Exchange} (h : k.Quiet mem k') (he : Since mem k.log e) :
    Since mem k'.log e := by
  obtain ⟨es, hlog, hes⟩ := h.log
  obtain ⟨newer, older, hold, hnewer⟩ := he
  exact ⟨es ++ newer, older, by rw [hlog, hold, List.append_assoc], fun e' he' =>
    (List.mem_append.1 he').elim (hes e') (hnewer e')⟩

/-- **A line stays on the disk** as long as its file stays as it is. -/
theorem OnDisk.keep {idx : UInt8} {line : Nat} (h : OnDisk k mem idx line) (hquiet : k.Quiet mem k')
    (hfiles : ∀ c : Copy, c.For line →
      k'.files (imagePath mem.toNat idx.toNat c.startLine c.lineNum) =
        k.files (imagePath mem.toNat idx.toNat c.startLine c.lineNum)) :
    OnDisk k' mem idx line := by
  obtain ⟨c, e, hc⟩ := h
  exact ⟨c, e, hc.isFor, hc.isLine, hquiet.since hc.since, by rw [hfiles c hc.isFor]; exact hc.holds⟩

/-- A command with another code is no capture. -/
theorem not_captured {e : Exchange} {payload : Bytes} {command : UInt8}
    (h : e.tx = configurePacket payload command) (hne : command ≠ captureCmdCode) :
    ¬e.Captured mem := by
  rintro ⟨⟨tst, htx⟩, -⟩
  rw [h, configurePacket, configurePacket] at htx
  exact hne (List.cons.inj (List.cons.inj htx).2).1

/-- Talking about something else is quiet. -/
theorem Disk.Talked.quiet {payload : Bytes} {command : UInt8} {es : List Exchange}
    (h : k.Talked k' (configurePacket payload command) es) (hne : command ≠ captureCmdCode) :
    k.Quiet mem k' :=
  ⟨es, h.log, fun e he => not_captured (h.tx e he) hne⟩

end Quiet

/-! ## Writing to files -/

section Write

variable {reliable : Bool} {k : Disk} {fd : Nat} {path : Path} {data : Bytes}

/-- What is written to the end of a file: a part of the data, and all of it if that succeeds. -/
theorem writeToFile_spec (h : k.fds fd = some ⟨path, (k.files path).length⟩) :
    wp (Disk.world reliable) (fun status k' => ∃ part,
        (status = .success → part = data) ∧
        k' = ((k.putFile path (k.files path ++ part)).opened fd
          ⟨path, (k.files path ++ part).length⟩))
      (writeToFile fd data false) k := by
  rw [writeToFile, if_neg (by omega), if_neg (by decide)]
  rintro (n : Int) ⟨(hle : n ≤ (data.length : Int)), -, -⟩
  have hnext : (Disk.world reliable).next k (.write fd data) n =
      (k.putFile path (k.files path ++ data.take n.toNat)).opened fd
        ⟨path, (k.files path ++ data.take n.toNat).length⟩ := by
    have hlen : (data.take n.toNat).length = n.toNat := by
      rw [List.length_take]
      omega
    simp only [Disk.world, Disk.next, h, File.write_end, List.length_append, hlen]
  rw [hnext]
  dsimp only
  split
  · exact ⟨_, fun hok => absurd hok (by simp), rfl⟩
  · rename_i hall
    have hall : n = (data.length : Int) := not_not.1 hall
    have hdata : data.take n.toNat = data := List.take_of_length_le (by omega)
    intro r _
    dsimp only
    split
    · exact ⟨_, fun hok => absurd hok (by simp), rfl⟩
    · exact ⟨data, fun _ => rfl, by rw [hdata]; rfl⟩

end Write

/-! ## The loop of a download -/

/-- Some lines are marked, from `line` on. -/
def markLines (mem line : Nat) : Nat → Data → Data
  | 0, d => d
  | n + 1, d => markLines mem (line + 1) n (setLineTrue d mem line)

theorem Data.Like.setLineTrue {d d' : Data} (h : d.Like d') (mem line : Nat) :
    (setLineTrue d mem line).Like (Kisscam.setLineTrue d' mem line) := by
  have hentry : d'.entry mem = d.entry mem := by rw [Data.entry, Data.entry, h.memSlotStatus]
  simp only [Kisscam.setLineTrue, hentry]
  split
  · exact h
  · exact ⟨h.handle, h.tblHandle, by rw [Data.setEntry, Data.setEntry, h.memSlotStatus]⟩

theorem Data.Like.markLines {d d' : Data} (h : d.Like d') (mem line n : Nat) :
    (markLines mem line n d).Like (Kisscam.markLines mem line n d') := by
  induction n generalizing d d' line with
  | zero => exact h
  | succ n ih => exact ih (h.setLineTrue mem line) _

/-- What the loop leaves: the responses in the file, and perhaps part of another; their lines in the
table. -/
structure Fetched (d : Data) (k : Disk) (fd : Nat) (path : Path) (mem pre : UInt8) (line : Nat)
    (got : List Exchange) (t : Transacted) (k' : Disk) : Prop where
  lines : ∀ (j : Nat) (e : Exchange), got[j]? = some e → e.IsLine mem pre (line + j)
  log : ∃ es, k'.log = es ++ k.log ∧ (∀ e ∈ es, ∃ line, e.tx = downloadPacket mem pre line) ∧
    ∀ e ∈ got, e ∈ es
  files : ∃ part,
    k'.files = Function.update k.files path (k.files path ++ got.flatMap Exchange.bytes ++ part)
  fds : ∃ off, k'.fds = Function.update k.fds fd (some ⟨path, off⟩)
  reports : k'.reports = k.reports
  like : (markLines mem.toNat line got.length d).Like t.data

section Loop

variable {reliable : Bool} {fd : Nat} {path : Path} {mem pre : UInt8}

/-- The loop ends before the next line. -/
theorem Fetched.stop {d : Data} {k k' : Disk} {line : Nat} {es : List Exchange} {t : Transacted}
    (hfd : k.fds fd = some ⟨path, (k.files path).length⟩)
    (h : k.Talked k' (downloadPacket mem pre line) es) (hlike : d.Like t.data) :
    Fetched d k fd path mem pre line [] t k' where
  lines j e he := absurd he (by simp)
  log := ⟨es, h.log, fun e he => ⟨line, h.tx e he⟩, by simp⟩
  files := ⟨[], by simp [h.files]⟩
  fds := ⟨(k.files path).length, by rw [h.fds, ← hfd, Function.update_eq_self]⟩
  reports := h.reports
  like := hlike

/-- The loop ends with the next line, of which only a part is in the file. -/
theorem Fetched.partly {d : Data} {k k1 k2 : Disk} {line : Nat} {es : List Exchange} {part : Bytes}
    {t : Transacted} (h : k.Talked k1 (downloadPacket mem pre line) es) (hlike : d.Like t.data)
    (hk2 : k2 = (k1.putFile path (k1.files path ++ part)).opened fd
      ⟨path, (k1.files path ++ part).length⟩) :
    Fetched d k fd path mem pre line [] t k2 where
  lines j e he := absurd he (by simp)
  log := ⟨es, by rw [hk2]; exact h.log, fun e he => ⟨line, h.tx e he⟩, by simp⟩
  files := ⟨part, by rw [hk2, Disk.opened, Disk.putFile, h.files]; simp⟩
  fds := ⟨_, by rw [hk2, Disk.opened, Disk.putFile, h.fds]⟩
  reports := by rw [hk2]; exact h.reports
  like := hlike

/-- A line is in the file, and the loop goes on. -/
theorem Fetched.cons {d : Data} {k k1 k2 k3 : Disk} {line : Nat} {e : Exchange} {rest got : List Exchange}
    {t1 t : Transacted} (h : k.Talked k1 (downloadPacket mem pre line) (e :: rest))
    (hlike : d.Like t1.data) (he : e.IsLine mem pre line)
    (hk2 : k2 = (k1.putFile path (k1.files path ++ e.bytes)).opened fd
      ⟨path, (k1.files path ++ e.bytes).length⟩)
    (hgot : Fetched (setLineTrue t1.data mem.toNat line) k2 fd path mem pre (line + 1) got t k3) :
    Fetched d k fd path mem pre line (e :: got) t k3 where
  lines j e' he' := by
    cases j with
    | zero =>
      obtain rfl : e = e' := by simpa using he'
      exact he
    | succ j =>
      rw [Nat.add_comm j 1, ← Nat.add_assoc]
      exact hgot.lines j e' (by simpa using he')
  log := by
    obtain ⟨es, hlog, htx, hmem⟩ := hgot.log
    have hk2log : k2.log = e :: rest ++ k.log := by rw [hk2]; exact h.log
    refine ⟨es ++ (e :: rest), by rw [hlog, hk2log, List.append_assoc], fun e' he' => ?_, ?_⟩
    · rcases List.mem_append.1 he' with he' | he'
      · exact htx e' he'
      · exact ⟨line, h.tx e' he'⟩
    · intro e' he'
      rcases List.mem_cons.1 he' with rfl | he'
      · simp
      · exact List.mem_append_left _ (hmem e' he')
  files := by
    obtain ⟨part, hfiles⟩ := hgot.files
    refine ⟨part, ?_⟩
    rw [hfiles, hk2, Disk.opened, Disk.putFile, ← h.files]
    simp only [Function.update_self, Function.update_idem, List.flatMap_cons, List.append_assoc]
  fds := by
    obtain ⟨off, hfds⟩ := hgot.fds
    refine ⟨off, ?_⟩
    rw [hfds, hk2, Disk.opened, Disk.putFile, ← h.fds]
    simp only [Function.update_idem]
  reports := by rw [hgot.reports, hk2]; exact h.reports
  like := ((hlike.setLineTrue mem.toNat line).markLines _ _ _).trans hgot.like

theorem hcapacity : hdrTailSize ≤ downloadTlmSize := by decide

/-- **The loop of a download.** -/
theorem downloadLines_spec (n line : Nat) (t : Transacted) {k : Disk}
    (hfd : k.fds fd = some ⟨path, (k.files path).length⟩) :
    wp (Disk.world reliable) (fun t' k' => ∃ got, got.length ≤ n ∧
        Fetched t.data k fd path mem pre line got t' k' ∧
        (t'.result.returnType = .success →
          got.length = n ∧ (t'.result.readSize = expectedRxSize pre ∨ n = 0 ∧ t'.result = t.result) ∨
          t'.result.readSize ≠ expectedRxSize pre ∧ t'.rx.take t'.result.readSize ≠ []))
      (downloadLines fd mem pre n line t) k := by
  induction n generalizing line t k with
  | zero =>
    refine ⟨[], Nat.le_refl 0, ?_, fun _ => .inl ⟨rfl, .inr ⟨rfl, rfl⟩⟩⟩
    exact Fetched.stop hfd ⟨rfl, rfl, rfl, (List.nil_append _).symm, by simp⟩ (Data.Like.refl _)
  | succ n ih =>
    rw [downloadLines, wp_bind]
    refine wp_mono (downloadTransaction_spec hcapacity) ?_
    rintro t1 k1 ⟨es, -, h1⟩
    split
    · rename_i hfail
      exact ⟨[], Nat.zero_le _, .stop hfd h1.talked h1.like, fun hok => absurd hok hfail⟩
    rename_i hok
    obtain ⟨e, rest, rfl, hwhole, -, hresult, -, htake⟩ := h1.success (not_not.1 hok)
    split
    · rename_i hsize
      refine ⟨[], Nat.zero_le _, .stop hfd h1.talked h1.like, fun _ => .inr ⟨hsize, ?_⟩⟩
      rw [hresult, TransactionResult.success, htake]
      exact hwhole.ne_nil
    rename_i hsize
    have hlength : e.bytes.length = expectedRxSize pre := by
      rw [← not_not.1 hsize, hresult]
      rfl
    have he : e.IsLine mem pre line := ⟨hwhole, h1.talked.tx e (by simp), hlength⟩
    have hfd1 : k1.fds fd = some ⟨path, (k1.files path).length⟩ := by rw [h1.talked.fds, h1.talked.files, hfd]
    rw [wp_bind]
    refine wp_mono (writeToFile_spec hfd1) ?_
    rintro status k2 ⟨part, hpart, hk2⟩
    split
    · refine ⟨[], Nat.zero_le _, ?_, fun hok => absurd hok (by simp [Transacted.failed])⟩
      exact .partly h1.talked (h1.like.trans t1.data.like_err) hk2
    · rename_i hstatus
      obtain rfl := hpart (not_not.1 hstatus)
      rw [← hlength, htake] at hk2
      have hfd2 : k2.fds fd = some ⟨path, (k2.files path).length⟩ := by
        simp [hk2, Disk.opened, Disk.putFile]
      refine wp_mono (ih (line + 1) _ hfd2) ?_
      rintro t3 k3 ⟨got, hle, hgot, hall⟩
      refine ⟨e :: got, by simpa using hle, .cons h1.talked h1.like he hk2 hgot, fun hok3 => ?_⟩
      rcases hall hok3 with ⟨hlen, hsize3⟩ | hbad
      · refine .inl ⟨by rw [List.length_cons, hlen], .inl ?_⟩
        rcases hsize3 with hsize3 | ⟨-, hsame⟩
        · exact hsize3
        · rw [hsame]
          exact not_not.1 hsize
      · exact .inr hbad

end Loop

end Kisscam
end FlightApps
