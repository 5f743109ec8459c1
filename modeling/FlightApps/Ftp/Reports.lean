import FlightApps.Lib.Runs
import FlightApps.Ftp.Handlers

/-!
# What a status reply of an upload reports

`ftp_handler_status_request` walks over the map once and counts.  `report_eq` says what comes out:
the number of chunks that are done, and the first `GS_FTP_STATUS_CHUNKS` runs of chunks that are
missing.  The loop does not clear its count once the array is full, so from there on its state is
about no run; `Walked` leaves it open.
-/

set_option autoImplicit false

namespace FlightApps
namespace Ftp

/-- The map does not have the chunk as done. -/
def Missing (file : UploadFile) (i : Nat) : Prop := mapCell file i ≠ chunkDone

instance (file : UploadFile) : DecidablePred (Missing file) :=
  fun i => inferInstanceAs (Decidable (mapCell file i ≠ chunkDone))

/-- How many of the first chunks are done. -/
def doneCount (file : UploadFile) (n : Nat) : Nat :=
  (List.range n).countP fun i => ¬Missing file i

/-- **The loop before chunk `n`.** -/
structure Walked (file : UploadFile) (n : Nat) (scan : Scan) : Prop where
  complete : scan.complete = doneCount file n
  entries : scan.entries = (Runs.closed (Missing file) n).take statusChunks
  count : (Runs.closed (Missing file) n).length < statusChunks →
    scan.count = Runs.streak (Missing file) n ∧
      (scan.count ≠ 0 → scan.next = n - Runs.streak (Missing file) n)

variable {file : UploadFile}

theorem scanMap_succ (n : Nat) :
    scanMap file (n + 1) = scanChunk file.chunks (scanMap file n) n (mapCell file n) := by
  rw [scanMap, List.range_succ, List.foldl_append]
  rfl

theorem doneCount_succ (n : Nat) :
    doneCount file (n + 1) = doneCount file n + if Missing file n then 0 else 1 := by
  rw [doneCount, List.range_succ, List.countP_append, doneCount]
  split <;> simp_all

theorem take_closed_append {n : Nat}
    (hfull : ¬(Runs.closed (Missing file) n).length < statusChunks) (rs : List (Nat × Nat)) :
    (Runs.closed (Missing file) n ++ rs).take statusChunks =
      (Runs.closed (Missing file) n).take statusChunks :=
  List.take_append_of_le_length (Nat.not_lt.1 hfull)

/-- What the array holds while it is not full. -/
theorem Walked.entries_eq {n : Nat} {scan : Scan} (h : Walked file n scan)
    (hlt : (Runs.closed (Missing file) n).length < statusChunks) :
    scan.entries = Runs.closed (Missing file) n := by
  rw [h.entries, List.take_of_length_le (Nat.le_of_lt hlt)]

/-- The array is full from the tenth run on. -/
theorem Walked.full_iff {n : Nat} {scan : Scan} (h : Walked file n scan) :
    scan.entries.length < statusChunks ↔ (Runs.closed (Missing file) n).length < statusChunks := by
  rw [h.entries, List.length_take]
  omega

/-- The entry that is added at the end of a run. -/
theorem Walked.entry_eq {n : Nat} {scan : Scan} (h : Walked file n scan)
    (hlt : (Runs.closed (Missing file) n).length < statusChunks) (hpos : scan.count ≠ 0) :
    [(scan.next, scan.count)] = Runs.current (Missing file) n := by
  obtain ⟨hcount, hnext⟩ := h.count hlt
  rw [hnext hpos, Runs.current, if_neg (hcount ▸ hpos), hcount]

/-- A chunk that is done ends the run before it. -/
theorem walked_done {n : Nat} {scan : Scan} (h : Walked file n scan) (hn : ¬Missing file n) :
    Walked file (n + 1) (scanChunk file.chunks scan n (mapCell file n)) := by
  have hclosed : Runs.closed (Missing file) (n + 1) =
      Runs.closed (Missing file) n ++ Runs.current (Missing file) n := by
    rw [Runs.closed, if_neg hn]
  have hstreak : Runs.streak (Missing file) (n + 1) = 0 := by
    rw [Runs.streak, if_neg hn]
  have hcomplete : scan.complete + 1 = doneCount file (n + 1) := by
    rw [doneCount_succ, if_neg hn, h.complete]
  rw [scanChunk, if_pos (not_not.1 hn)]
  by_cases hlt : (Runs.closed (Missing file) n).length < statusChunks
  · have hentries := h.entries_eq hlt
    by_cases hpos : scan.count = 0
    · have hcurrent : Runs.current (Missing file) n = [] := by
        rw [Runs.current, if_pos ((h.count hlt).1 ▸ hpos)]
      rw [if_neg (by omega)]
      refine ⟨hcomplete, ?_, fun _ => ⟨hpos.trans hstreak.symm, fun hne => absurd hpos hne⟩⟩
      rw [hclosed, hcurrent, List.append_nil]
      exact h.entries
    · rw [if_pos ⟨Nat.pos_of_ne_zero hpos, h.full_iff.2 hlt⟩]
      refine ⟨hcomplete, ?_, fun _ => ⟨hstreak.symm, fun hne => absurd rfl hne⟩⟩
      dsimp only
      rw [hentries, h.entry_eq hlt hpos, hclosed, List.take_of_length_le]
      rw [← h.entry_eq hlt hpos, List.length_append]
      exact hlt
  · rw [if_neg fun hfree => hlt (h.full_iff.1 hfree.2)]
    refine ⟨hcomplete, ?_, fun hlt' => ?_⟩
    · rw [hclosed, take_closed_append hlt]
      exact h.entries
    · rw [hclosed, List.length_append] at hlt'
      omega

/-- A chunk that is missing, other than the last. -/
theorem walked_missing {n : Nat} {scan : Scan} (h : Walked file n scan) (hn : Missing file n)
    (hlast : n ≠ file.chunks - 1) :
    Walked file (n + 1) (scanChunk file.chunks scan n (mapCell file n)) := by
  obtain ⟨hcomplete, hentries, hcount⟩ := h
  have hclosed : Runs.closed (Missing file) (n + 1) = Runs.closed (Missing file) n := by
    rw [Runs.closed, if_pos hn]
  have hstreak : Runs.streak (Missing file) (n + 1) = Runs.streak (Missing file) n + 1 := by
    rw [Runs.streak, if_pos hn]
  rw [scanChunk, if_neg hn]
  dsimp only
  rw [if_neg fun h => hlast h.1]
  refine ⟨?_, ?_, ?_⟩
  · rw [doneCount_succ, if_pos hn]
    exact hcomplete
  · rw [hclosed]
    exact hentries
  · rw [hclosed, hstreak]
    intro hlt
    obtain ⟨hc, hnext⟩ := hcount hlt
    dsimp only
    refine ⟨by rw [hc], fun _ => ?_⟩
    split
    · omega
    · rename_i hpos
      rw [hnext hpos]
      omega

/-- The last chunk, if it is missing, ends a run as well. -/
theorem walked_last {n : Nat} {scan : Scan} (h : Walked file n scan) (hn : Missing file n)
    (hlast : n = file.chunks - 1) :
    (scanChunk file.chunks scan n (mapCell file n)).complete = doneCount file (n + 1) ∧
      (scanChunk file.chunks scan n (mapCell file n)).entries =
        (Runs.runs (Missing file) (n + 1)).take statusChunks := by
  have hruns : Runs.runs (Missing file) (n + 1) = Runs.closed (Missing file) n ++
      [(n - Runs.streak (Missing file) n, Runs.streak (Missing file) n + 1)] := by
    rw [Runs.runs, Runs.closed, if_pos hn, Runs.current, Runs.streak, if_pos hn,
      if_neg (Nat.succ_ne_zero _), Nat.add_sub_add_right]
  have hcomplete : scan.complete = doneCount file (n + 1) := by
    rw [doneCount_succ, if_pos hn]
    exact h.complete
  rw [scanChunk, if_neg hn, hruns]
  dsimp only
  by_cases hlt : (Runs.closed (Missing file) n).length < statusChunks
  · obtain ⟨hcount, hnext⟩ := h.count hlt
    have hstart : (if scan.count = 0 then n else scan.next) =
        n - Runs.streak (Missing file) n := by
      split
      · omega
      · rename_i hpos
        exact hnext hpos
    rw [if_pos ⟨hlast, h.full_iff.2 hlt⟩]
    refine ⟨hcomplete, ?_⟩
    dsimp only
    rw [hstart, hcount, h.entries_eq hlt, List.take_of_length_le]
    rw [List.length_append]
    exact hlt
  · rw [if_neg fun hfree => hlt (h.full_iff.1 hfree.2), take_closed_append hlt]
    exact ⟨hcomplete, h.entries⟩

theorem scanMap_walked {n : Nat} (hn : n < file.chunks) : Walked file n (scanMap file n) := by
  induction n with
  | zero => exact ⟨rfl, rfl, fun _ => ⟨rfl, fun h => absurd rfl h⟩⟩
  | succ n ih =>
    rw [scanMap_succ]
    by_cases hmissing : Missing file n
    · exact walked_missing (ih (by omega)) hmissing (by omega)
    · exact walked_done (ih (by omega)) hmissing

/-- **The report of a status request**: the number of chunks that are done, and the first runs of
those that are missing. -/
theorem report_eq (file : UploadFile) : report file = ⟨doneCount file file.chunks, file.chunks,
    (Runs.runs (Missing file) file.chunks).take statusChunks⟩ := by
  have hscan : (scanMap file file.chunks).complete = doneCount file file.chunks ∧
      (scanMap file file.chunks).entries =
        (Runs.runs (Missing file) file.chunks).take statusChunks := by
    rcases hchunks : file.chunks with _ | n
    · exact ⟨rfl, rfl⟩
    have h := scanMap_walked (show n < file.chunks by omega)
    rw [scanMap_succ]
    by_cases hn : Missing file n
    · exact walked_last h hn (by omega)
    · obtain ⟨hcomplete, hentries, -⟩ := walked_done h hn
      refine ⟨hcomplete, hentries.trans ?_⟩
      rw [Runs.runs, Runs.current, Runs.streak, if_neg hn, if_pos rfl, List.append_nil]
  rw [report, hscan.1, hscan.2]

end Ftp
end FlightApps
