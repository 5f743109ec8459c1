import FlightApps.Ftp.Reports
import FlightApps.Ftp.Threads

/-!
# What a session of the FTP-NEW server may fault on

The handlers that answer an upload request, a data packet, a download request or a done packet use
nothing that is not there, also after a request that has failed (`Clean`).  Three others may:

* a status request reads the map, and after an upload request that failed there is none;
* a CRC request reads the file, and after a request that failed there is none;
* a status reply is taken as it comes: the number of its entries is not checked, and neither is the
  size of the chunks it asks for.

`Handleable` says of each packet whether its handler gets by, and `connection_safe_iff` that a run
is safe exactly if it does for every packet.
-/

set_option autoImplicit false

namespace FlightApps
namespace Ftp

/-! ## Status requests -/

/-- A status request finds the map it reads. -/
def MapThere (s : Session) : Prop :=
  s.state = .upload → s.upload.chunks = 0 ∨ s.upload.mapBuf.isSome = true

/-- **A status reply has at most `GS_FTP_STATUS_CHUNKS` entries.** -/
theorem report_entries (file : UploadFile) : (report file).entries.length ≤ statusChunks := by
  rw [report_eq]
  exact List.length_take_le _ _

theorem scanEffects_safe_iff {file : UploadFile} (h : file.Tidy) (b : Books)
    (hb : b.mapBuf = file.mapBuf.isSome) :
    (∀ e ∈ scanEffects file, e.Safe b) ↔ file.chunks = 0 ∨ file.mapBuf.isSome = true := by
  constructor
  · intro hall
    by_cases hchunks : file.chunks = 0
    · exact .inl hchunks
    · right
      have hused : Effect.used .mapBuf file.mapBuf.isSome ∈ scanEffects file :=
        List.mem_append_left _ (List.mem_flatMap.2
          ⟨0, List.mem_range.2 (Nat.pos_of_ne_zero hchunks), List.mem_cons_self⟩)
      exact (hall _ hused).1
  · intro hmap e he
    rcases List.mem_append.1 he with he | he
    · obtain ⟨i, hi, he⟩ := List.mem_flatMap.1 he
      rw [List.mem_range] at hi
      have hbuf : file.mapBuf.isSome = true := by
        rcases hmap with hmap | hmap
        · omega
        · exact hmap
      have hcells : (file.mapBuf.getD []).length = file.chunks := by
        rcases h with ⟨-, -, hnone⟩ | ⟨-, -, hnone, -⟩ | ⟨cells, -, -, hsome, hlen⟩
        · rw [hnone] at hbuf; exact absurd hbuf (by decide)
        · rw [hnone] at hbuf; exact absurd hbuf (by decide)
        · rw [hsome]; exact hlen
      rcases List.mem_pair.1 he with rfl | rfl
      · exact ⟨hbuf, hb.trans hbuf⟩
      · exact Nat.lt_of_lt_of_eq hi hcells.symm
    · obtain ⟨i, hi, rfl⟩ := List.mem_map.1 he
      exact Nat.lt_of_lt_of_le (List.mem_range.1 hi) (report_entries file)

theorem safe_answer {b : Books} {s : Session} {es : List Effect} {o : Outcomes} {reply : Reply}
    {ret : Ret} : Throughout Effect.Safe b (answer s es o reply ret).effects ↔
      Throughout Effect.Safe b es :=
  throughout_answer (fun _ _ _ => trivial) fun _ _ => trivial

theorem statusRequest_safe_iff {s : Session} (hs : Tidy s) (o : Outcomes) :
    Throughout Effect.Safe (Books.ofSession s) (statusRequest s o).effects ↔ MapThere s := by
  rw [statusRequest, MapThere]
  split
  · rename_i hstate
    exact iff_of_true (safe_answer.2 trivial) fun h => absurd h hstate
  · rename_i hstate
    rw [not_not] at hstate
    rw [safe_answer, throughout_neutral (scanEffects_neutral _),
      scanEffects_safe_iff (hs.of_upload hstate).2 _ rfl]
    exact ⟨fun h _ => h, fun h => h hstate⟩

/-! ## CRC requests -/

/-- A CRC request finds the file it reads. -/
def FileThere (s : Session) : Prop :=
  (s.state = .upload → s.upload.fp = true) ∧ (s.state = .download → s.download.fp = true)

theorem crcRequest_safe_iff (s : Session) (o : Outcomes) :
    Throughout Effect.Safe (Books.ofSession s) (crcRequest s o).effects ↔ FileThere s := by
  rw [crcRequest, FileThere]
  split
  · rename_i hstate
    rw [safe_answer, hstate]
    simp
  · rename_i hstate
    rw [safe_answer, hstate]
    simp [Effect.Safe, Books.get, Books.ofSession]
  · rename_i hstate
    rw [safe_answer, hstate]
    simp [Effect.Safe, Books.get, Books.ofSession]

/-! ## Status replies -/

/-- What the loops come to with `k` data packets sent: an entry is one of the array, and what is
read for a chunk fits in a packet. -/
def VisitFits (file : DownloadFile) (o : Outcomes) (k : Nat) : Visit → Prop
  | .entry i => i < statusChunks
  | .chunk c => c < file.chunks → HasBuffer o k → o.seekSource k = true →
      min (o.bytesRead k) (dataSize file c) ≤ maxChunkSize

/-- All that the loops come to fits. -/
def VisitsFit (file : DownloadFile) (o : Outcomes) (k : Nat) (vs : List Visit) : Prop :=
  AllReached file o (VisitFits file o) k vs

variable {file : DownloadFile} {o : Outcomes}

theorem lastEffects_safe (h : file.Tidy) {c : Nat} (hc : c < file.chunks) (b : Books) :
    ∀ e ∈ lastEffects file c, e.Safe b := by
  have hsize : file.chunkSize ≠ 0 := by
    rcases h with ⟨-, hnone⟩ | ⟨-, hsize⟩
    · omega
    · exact hsize
  rw [lastEffects]
  split <;> simp [Effect.Safe, hsize]

theorem chunkEffects_safe_iff (h : file.Tidy) {k c : Nat} (hc : c < file.chunks) (b : Books)
    (hb : b.source = file.fp) : (∀ e ∈ chunkEffects file o k c, e.Safe b) ↔
      (o.seekSource k = true → min (o.bytesRead k) (dataSize file c) ≤ maxChunkSize) := by
  have hfp : file.fp = true := by
    rcases h with ⟨-, hnone⟩ | ⟨hfp, -⟩
    · omega
    · exact hfp
  have hgot : ∀ e ∈ (if k ≠ 0 then [Effect.got k] else []), e.Safe b := by
    split <;> simp [Effect.Safe]
  rw [chunkEffects]
  simp only [List.forall_mem_append]
  rw [and_iff_right ⟨lastEffects_safe h hc b, hgot⟩, readData, List.forall_mem_cons,
    and_iff_right ⟨hfp, hb.trans hfp⟩]
  split
  · rename_i hseek
    simp [Effect.Safe, hseek]
  · rename_i hseek
    simp [hseek]

theorem stopped_safe_iff (h : file.Tidy) {k c : Nat} (b : Books) (hb : b.source = file.fp) :
    (∀ e ∈ (stopped file o k c).effects, e.Safe b) ↔ VisitFits file o k (.chunk c) := by
  rw [stopped, VisitFits]
  split
  · rename_i hc
    exact iff_of_true (by simp) fun hlt => absurd hlt (Nat.not_lt.2 hc)
  rename_i hc
  rw [Nat.not_le] at hc
  split
  · rename_i hnone
    refine iff_of_true (lastEffects_safe h hc b) fun _ hbuffer => ?_
    exact absurd hbuffer (not_or.2 hnone)
  · rename_i hbuffer
    rw [chunkEffects_safe_iff h hc b hb]
    have hbuffer : HasBuffer o k := by
      by_cases hk : k = 0
      · exact .inl hk
      · exact .inr (not_not.1 fun hnone => hbuffer ⟨hk, hnone⟩)
    exact ⟨fun hfits _ _ => hfits, fun hfits => hfits hc hbuffer⟩

/-- **What the loops of a status reply use** is safe exactly if all that they come to fits. -/
theorem stream_safe_iff (h : file.Tidy) (b : Books) (hb : b.source = file.fp) (k : Nat)
    (vs : List Visit) :
    (∀ e ∈ (stream file o vs (atHand k) k).effects, e.Safe b) ↔ VisitsFit file o k vs := by
  refine stream_rule (M := fun k vs r => (∀ e ∈ r.effects, e.Safe b) ↔ VisitsFit file o k vs)
    ?_ ?_ ?_ ?_ k vs
  · intro k
    exact iff_of_true (by simp) (allReached_nil k)
  · intro k i vs r hr
    rw [VisitsFit, allReached_entry]
    refine (@List.forall_mem_append _ _ [Effect.entry i] _).trans (and_congr ?_ hr)
    simp [Effect.Safe, VisitFits]
  · intro k c vs r hpass hr
    rw [VisitsFit, allReached_pass hpass, Streamed.after]
    simp only [List.forall_mem_append]
    refine and_congr ?_ hr
    rw [chunkEffects_safe_iff h hpass.chunk b hb]
    exact ⟨fun hfits _ _ => hfits.1, fun hfits =>
      ⟨hfits hpass.chunk hpass.buffer, by simp [Effect.Safe]⟩⟩
  · intro k c vs hstop
    rw [stopped_safe_iff h b hb, VisitsFit, allReached_stop hstop]

/-- What a status reply of a download asks for fits. -/
def ReplyFits (s : Session) (entries : UInt16) (entry : Nat → UInt32 × UInt32) (o : Outcomes) :
    Prop :=
  s.state = .download → VisitsFit s.download o 0 (visits entries entry)

theorem statusReply_safe_iff {s : Session} (hs : Tidy s) (entries : UInt16)
    (entry : Nat → UInt32 × UInt32) :
    Throughout Effect.Safe (Books.ofSession s) (statusReply s entries entry o).effects ↔
      ReplyFits s entries entry o := by
  have herror : ∀ r b, ∀ e ∈ errorEffects r o, e.Safe b :=
    fun r b e he => (errorEffects_buffer r e he).safe
  have hneutral : ∀ r, ∀ e ∈ errorEffects r o, e.Neutral :=
    fun r e he => (errorEffects_buffer r e he).neutral
  rw [ReplyFits]
  by_cases hstate : s.state = .download
  · rw [statusReply_download hstate, throughout_append, throughout_neutral (stream_neutral 0 _),
      stream_safe_iff (hs.of_download hstate).2 _ rfl, and_iff_left]
    · exact ⟨fun h _ => h, fun h => h hstate⟩
    · split
      · trivial
      · exact (throughout_neutral (hneutral _)).2 (herror _ _)
  · rw [statusReply_idle hstate, throughout_neutral (hneutral _)]
    exact iff_of_true (herror _ _) fun h => absurd h hstate

/-! ## Sessions -/

/-- **When the handler of a packet gets by.** -/
def Handleable (s : Session) (p : Packet) (o : Outcomes) : Prop :=
  match p with
  | .statusRequest => MapThere s
  | .crcRequest => FileThere s
  | .statusReply entries entry => ReplyFits s entries entry o
  | _ => True

theorem handle_safe_iff {s : Session} (hs : Tidy s) (p : Packet) (o : Outcomes) :
    Throughout Effect.Safe (Books.ofSession s) (handle s p o).1.effects ↔ Handleable s p o := by
  have hclean : ∀ {h : Handled}, Clean s h → Throughout Effect.Safe (Books.ofSession s) h.effects :=
    fun h => (throughout_sound.1 h.sound).1
  rcases p with ⟨size, chunkSize⟩ | _ | ⟨chunk, bytes⟩ | ⟨chunkSize, memAddr, memSize⟩ |
    ⟨entries, entry⟩ | _ | _ | e | _
  · exact iff_of_true (hclean (uploadRequest_clean hs size chunkSize o)) trivial
  · exact statusRequest_safe_iff hs o
  · exact iff_of_true (hclean (dataHandler_clean hs chunk bytes o)) trivial
  · exact iff_of_true (hclean (downloadRequest_clean hs chunkSize memAddr memSize o)) trivial
  · exact statusReply_safe_iff hs entries entry
  · exact crcRequest_safe_iff s o
  · exact iff_of_true (throughout_sound.1 (doneHandler_sound s).1).1 trivial
  · rw [handle]
    split
    · exact iff_of_true trivial trivial
    · exact iff_of_true (safe_answer.2 trivial) trivial
  · exact iff_of_true ⟨trivial, trivial⟩ trivial

/-- **A session is safe exactly as long as its packets are handleable**: over all runs of a thread,
whatever the packets are and whatever the calls answer, nothing but a status request without a map,
a CRC request without a file, or a status reply that asks for too much is ever a fault. -/
theorem connection_safe_iff (is : List Input) :
    Throughout Effect.Safe .empty (connection.history .start is) ↔
      ∀ pre i, pre ++ [i] <+: is → Served Handleable (connection.run .start pre) i :=
  connection_throughout_iff (fun _ _ => trivial)
    (fun s => (throughout_sound.1 (cleanup_sound s).1).1) (fun _ p o hs => handle_safe_iff hs p o)
    start_tidy is

/-- **A status request after an upload request that has failed reads the map through NULL**: the
target was there and its map was not. -/
theorem failed_upload_faults : ¬∀ is : List Input,
    Throughout Effect.Safe .empty (connection.history .start is) := by
  intro h
  have hrun := h [.packet (.uploadRequest 1 1) (.fine true none),
    .packet .statusRequest (.fine true none)]
  revert hrun
  decide

end Ftp
end FlightApps
