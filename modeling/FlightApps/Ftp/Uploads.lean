import FlightApps.Ftp.Buffers
import FlightApps.Ftp.Reports
import FlightApps.Ftp.World

/-!
# When a complete upload is one

An upload is complete for the server when all chunks of the map in memory are done.  The map is
loaded from the map file, and the map file does not say which upload it belongs to: it is a list of
cells, and any upload with at most as many chunks takes it over (`map_of_another_upload`).

`complete_is_written` is what holds where that does not happen.  As long as an upload that finds a
map, and the upload of each data packet that is accepted, have the size and chunk size of the data
packets so far, a status reply that says so is right: the target holds all chunks, each as it was
last accepted.
-/

set_option autoImplicit false

namespace FlightApps
namespace Ftp

/-! ## Chunks -/

/-- The numbers of an upload are those of its size and chunk size. -/
structure UploadFile.Counted (file : UploadFile) : Prop where
  chunks : file.chunks = chunkCount file.size file.chunkSize
  size : file.size < 2 ^ 32
  zero : file.chunkSize = 0 → file.size = 0

theorem lt_div_up {size chunkSize k : Nat} (hpos : 0 < chunkSize) :
    k < (size + chunkSize - 1) / chunkSize ↔ k * chunkSize < size := by
  rw [← Nat.succ_le_iff, Nat.le_div_iff_mul_le hpos, Nat.succ_mul]
  omega

/-- The chunks are those that begin in the file. -/
theorem lt_chunkCount {size chunkSize k : Nat} (hsize : size < 2 ^ 32) (hpos : 0 < chunkSize) :
    k < chunkCount size chunkSize ↔ k * chunkSize < size := by
  have hle : (size + chunkSize - 1) / chunkSize ≤ size := by
    by_contra hlt
    have hmul := (lt_div_up hpos).1 (Nat.not_le.1 hlt)
    exact Nat.not_le.2 hmul (Nat.le_mul_of_pos_right size hpos)
  rw [chunkCount, Nat.mod_eq_of_lt (Nat.lt_of_le_of_lt hle hsize)]
  exact lt_div_up hpos

section Counted

variable {file : UploadFile} {k : Nat}

theorem UploadFile.Counted.pos (h : file.Counted) {i : Nat} (hi : i < file.size) :
    0 < file.chunkSize := by
  refine Nat.pos_of_ne_zero fun hzero => ?_
  rw [h.zero hzero] at hi
  omega

theorem UploadFile.Counted.offset_lt (h : file.Counted) (hk : k < file.chunks) :
    k * file.chunkSize < file.size := by
  rw [h.chunks] at hk
  rcases Nat.eq_zero_or_pos file.chunkSize with hzero | hpos
  · rw [hzero, h.zero hzero] at hk
    exact absurd hk (Nat.not_lt_zero k)
  · exact (lt_chunkCount h.size hpos).1 hk

theorem UploadFile.Counted.chunkOffset_eq (h : file.Counted) (hk : k < file.chunks) :
    chunkOffset file k = k * file.chunkSize :=
  Nat.mod_eq_of_lt (Nat.lt_trans (h.offset_lt hk) h.size)

/-- A chunk has the chunk size, or is what is left. -/
theorem UploadFile.Counted.chunkLength_eq (h : file.Counted) (hk : k < file.chunks) :
    chunkLength file k = min file.chunkSize (file.size - k * file.chunkSize) := by
  have hlt := h.offset_lt hk
  rw [chunkLength, h.chunkOffset_eq hk]
  split <;> omega

/-- Every byte is in a chunk. -/
theorem UploadFile.Counted.cover (h : file.Counted) {i : Nat} (hi : i < file.size) :
    ∃ k, k < file.chunks ∧ k * file.chunkSize ≤ i ∧ i < k * file.chunkSize + file.chunkSize := by
  have hpos := h.pos hi
  have hle := Nat.div_mul_le_self i file.chunkSize
  refine ⟨i / file.chunkSize, ?_, hle, ?_⟩
  · rw [h.chunks, lt_chunkCount h.size hpos]
    omega
  · exact Nat.lt_div_mul_add hpos

end Counted

/-! ## The last packet of a chunk -/

/-- The packet is for this chunk of an upload with this size and chunk size. -/
def Piece.For (size chunkSize k : Nat) (p : Piece) : Prop :=
  p.size = size ∧ p.chunkSize = chunkSize ∧ p.chunk = k

instance (size chunkSize k : Nat) : DecidablePred (Piece.For size chunkSize k) :=
  fun _ => inferInstanceAs (Decidable (_ ∧ _ ∧ _))

/-- The last packet that was accepted for a chunk. -/
def lastPiece (log : List Piece) (size chunkSize k : Nat) : Option Piece :=
  (log.filter fun p => p.For size chunkSize k).getLast?

section LastPiece

variable {log : List Piece} {p : Piece} {size chunkSize k : Nat}

theorem lastPiece_snoc_self (h : p.For size chunkSize k) :
    lastPiece (log ++ [p]) size chunkSize k = some p := by
  rw [lastPiece, List.filter_append, List.filter_cons_of_pos (by simpa using h), List.filter_nil,
    List.getLast?_concat]

theorem lastPiece_snoc_other (h : ¬p.For size chunkSize k) :
    lastPiece (log ++ [p]) size chunkSize k = lastPiece log size chunkSize k := by
  rw [lastPiece, List.filter_append, List.filter_cons_of_neg (by simpa using h), List.filter_nil,
    List.append_nil, lastPiece]

theorem lastPiece_mem (h : lastPiece log size chunkSize k = some p) :
    p ∈ log ∧ p.For size chunkSize k := by
  obtain ⟨hmem, hfor⟩ := List.mem_filter.1 (List.mem_of_getLast? h)
  exact ⟨hmem, by simpa using hfor⟩

theorem lastPiece_of_mem (hp : p ∈ log) (h : p.For size chunkSize k) :
    ∃ q, lastPiece log size chunkSize k = some q := by
  refine Option.isSome_iff_exists.1 (List.getLast?_isSome.2 ?_)
  exact List.ne_nil_of_mem (List.mem_filter.2 ⟨hp, by simpa using h⟩)

end LastPiece

/-! ## What is claimed -/

variable {Conn : Type}

/-- **The target holds an upload**: all its chunks, as they were last accepted for an upload of this
size and chunk size, and with them every byte of it. -/
structure Written (w : World Conn) (file : UploadFile) : Prop where
  chunk : ∀ k, k < file.chunks → ∃ p target,
    lastPiece w.log file.size file.chunkSize k = some p ∧ w.disk.target = some target ∧
      File.Holds target (k * file.chunkSize) p.bytes
  byte : ∀ i, i < file.size → ∃ k p, k < file.chunks ∧
    lastPiece w.log file.size file.chunkSize k = some p ∧
      k * file.chunkSize ≤ i ∧ i < k * file.chunkSize + p.bytes.length

/-- A step of an upload like those before: an upload request that takes over a map has the size and
chunk size of all data packets that were accepted before it, and so has the upload of a data packet
that is accepted. -/
def SameUpload (w : World Conn) (i : Conn × Event × Outcomes) : Prop :=
  match i.2.1 with
  | .upload size chunkSize =>
    w.thread i.1 = .start → chunkCount size.toNat chunkSize.toNat ≠ 0 →
      (∃ cells, w.disk.map = some cells ∧
        chunkCount size.toNat chunkSize.toNat ≤ cells.length) →
      ∀ p ∈ w.log, p.size = size.toNat ∧ p.chunkSize = chunkSize.toNat
  | .data chunk bytes => ∀ s, w.thread i.1 = ⟨s, .running⟩ → Fits s chunk bytes →
      ∀ p ∈ w.log, p.size = s.upload.size ∧ p.chunkSize = s.upload.chunkSize
  | _ => True

/-! ## The invariant -/

/-- A data packet as it is accepted. -/
structure Piece.WellFormed (p : Piece) : Prop where
  size : p.size < 2 ^ 32
  offset : p.chunk * p.chunkSize < p.size
  length : p.bytes.length = min p.chunkSize (p.size - p.chunk * p.chunkSize)

/-- The log has a data packet for every chunk that is done in the map in memory. -/
def UploadFile.Backed (log : List Piece) (file : UploadFile) : Prop :=
  ∀ cells, file.mapBuf = some cells → ∀ k, cells[k]? = some chunkDone →
    ∃ p ∈ log, p.For file.size file.chunkSize k

/-- What holds of the upload of a running thread. -/
structure UploadFile.Ready (w : World Conn) (file : UploadFile) : Prop where
  counted : file.Counted
  backed : file.Backed w.log
  target : file.fp = true → w.disk.target.isSome = true

/-- **The invariant** of all that works on a path, as long as uploads are like those before. -/
structure Sound (w : World Conn) : Prop where
  tidy : ∀ c, (w.thread c).Tidy
  file : ∀ c, (w.thread c).life = .running → (w.thread c).session.upload.Ready w
  same : ∀ p ∈ w.log, ∀ q ∈ w.log, p.size = q.size ∧ p.chunkSize = q.chunkSize
  piece : ∀ p ∈ w.log, p.WellFormed
  target : w.disk.map.isSome = true → w.disk.target.isSome = true
  map : ∀ cells, w.disk.map = some cells → ∀ k, cells[k]? = some chunkDone →
    ∃ p ∈ w.log, p.chunk = k
  held : ∀ size chunkSize k p, lastPiece w.log size chunkSize k = some p →
    ∃ target, w.disk.target = some target ∧ File.Holds target (k * chunkSize) p.bytes

theorem counted_start : Session.start.upload.Counted := ⟨rfl, by decide, fun _ => rfl⟩

theorem backed_none {log : List Piece} {file : UploadFile} (h : file.mapBuf = none) :
    file.Backed log := by
  intro cells hcells
  rw [h] at hcells
  exact absurd hcells (by simp)

theorem UploadFile.Backed.mono {log : List Piece} {file : UploadFile} (h : file.Backed log)
    (p : Piece) : file.Backed (log ++ [p]) := by
  intro cells hcells k hk
  obtain ⟨q, hq, hfor⟩ := h cells hcells k hk
  exact ⟨q, List.mem_append_left _ hq, hfor⟩

theorem sound_start {d : Disk} (hd : d.map = none) : Sound (World.start d : World Conn) where
  tidy _ := start_tidy
  file _ _ := ⟨counted_start, backed_none rfl, fun h => Bool.noConfusion h⟩
  same p hp := absurd hp (by simp [World.start])
  piece p hp := absurd hp (by simp [World.start])
  target h := absurd h (by simp [World.start, hd])
  map cells h := absurd h (by simp [World.start, hd])
  held size chunkSize k p h := absurd (lastPiece_mem h).1 (by simp [World.start])

section Steps

variable {w : World Conn}

/-- With data packets in the log there is a target. -/
theorem Sound.log_eq_nil (h : Sound w) (htarget : w.disk.target = none) : w.log = [] := by
  by_contra hlog
  obtain ⟨p, hp⟩ := List.exists_mem_of_ne_nil _ hlog
  obtain ⟨q, hq⟩ := lastPiece_of_mem hp ⟨rfl, rfl, rfl⟩
  obtain ⟨target, hsome, -⟩ := h.held _ _ _ _ hq
  rw [htarget] at hsome
  exact absurd hsome (by simp)

/-- The map is removed. -/
theorem Sound.unmapped (h : Sound w) :
    Sound ⟨{ w.disk with map := none }, w.thread, w.log⟩ where
  tidy := h.tidy
  file c hc := ⟨(h.file c hc).counted, (h.file c hc).backed, (h.file c hc).target⟩
  same := h.same
  piece := h.piece
  target hmap := absurd hmap (by simp)
  map cells hcells := absurd hcells (by simp)
  held := h.held

theorem blank_not_done {chunks : Nat} {cells : List UInt8} (h : blank chunks = some cells)
    (k : Nat) : cells[k]? ≠ some chunkDone := by
  intro hk
  rw [blank] at h
  split at h
  · exact absurd h (by simp)
  · obtain rfl := Option.some.inj h
    exact absurd (List.eq_of_mem_replicate (List.mem_of_getElem? hk)) (by decide)

/-- An upload request that creates the target and its map. -/
theorem Sound.created (h : Sound w) (htarget : w.disk.target = none) (chunks : Nat) :
    Sound ⟨⟨some [], blank chunks⟩, w.thread, w.log⟩ where
  tidy := h.tidy
  file c hc := ⟨(h.file c hc).counted, (h.file c hc).backed, fun _ => rfl⟩
  same := h.same
  piece := h.piece
  target _ := rfl
  map cells hcells k hk := absurd hk (blank_not_done hcells k)
  held size chunkSize k p hlast := by
    have hmem := (lastPiece_mem hlast).1
    rw [h.log_eq_nil htarget] at hmem
    exact absurd hmem (by simp)

variable [DecidableEq Conn]

/-- Only one thread changes, and no file. -/
theorem Sound.update_thread (h : Sound w) (c : Conn) {t : Thread} (ht : t.Tidy)
    (hfile : t.life = .running → t.session.upload.Ready w) :
    Sound ⟨w.disk, Function.update w.thread c t, w.log⟩ where
  tidy := update_all h.tidy c ht
  file := by
    refine update_all (P := fun t => t.life = .running → t.session.upload.Ready _)
      (fun c' hlife => ?_) c fun hlife => ?_
    · exact ⟨(h.file c' hlife).counted, (h.file c' hlife).backed, (h.file c' hlife).target⟩
    · exact ⟨(hfile hlife).counted, (hfile hlife).backed, (hfile hlife).target⟩
  same := h.same
  piece := h.piece
  target := h.target
  map := h.map
  held := h.held

/-- **Upload requests.** -/
theorem Sound.upload (h : Sound w) {c : Conn} {o : Outcomes} {size : UInt32} {chunkSize : UInt16}
    (hstart : w.thread c = .start) (hsize : chunkSize ≠ 0) (ho : FilesWork o)
    (hsame : SameUpload w (c, .upload size chunkSize, o)) {r : Opened}
    (hr : r = initUpload (chunkCount size.toNat chunkSize.toNat) (o.on w.disk))
    (htidy : Thread.Tidy ⟨.uploading (requested r size chunkSize), .running⟩) :
    Sound ⟨w.disk.notes r.effects, Function.update w.thread c
      ⟨.uploading (requested r size chunkSize), .running⟩, w.log⟩ := by
  have hcounted : (requested r size chunkSize).Counted :=
    ⟨rfl, UInt32.toNat_lt size, fun hzero => absurd (UInt16.toNat_inj (b := 0).1 hzero) hsize⟩
  have hbound : chunkCount size.toNat chunkSize.toNat ≤ 2 ^ 32 :=
    Nat.le_of_lt (Nat.mod_lt _ (by decide))
  rcases htarget : w.disk.target with _ | target
  · -- The first upload: nothing has been accepted, and the map is blank.
    have hmap : w.disk.map = none := by
      rw [← Option.not_isSome_iff_eq_none]
      intro hmap
      have := h.target hmap
      rw [htarget] at this
      exact absurd this (by decide)
    have hok := initUpload_first_ok htarget hmap ho hbound
    obtain ⟨hdisk, hbuf⟩ := initUpload_first htarget hmap hok
    rw [← hr] at hok hdisk hbuf
    rw [hdisk]
    refine (h.created htarget _).update_thread c htidy fun _ => ⟨hcounted, ?_, fun _ => rfl⟩
    exact fun cells hcells k hk => absurd hk (blank_not_done (hbuf.symm.trans hcells) k)
  · have hthere : w.disk.target.isSome = true := by rw [htarget]; rfl
    obtain ⟨hdisk, hbuf⟩ :=
      @initUpload_later w.disk o (chunkCount size.toNat chunkSize.toNat) hthere
    rw [← hr] at hdisk hbuf
    rw [hdisk]
    refine h.update_thread c htidy fun _ => ⟨hcounted, ?_, fun _ => hthere⟩
    intro cells hcells k hk
    change r.mapBuf = some cells at hcells
    have hok : r.ret = .ok := by
      by_contra hret
      have hnone := ((initUpload_fits _ (o.on w.disk)).failed (hr ▸ hret)).2
      rw [← hr, hcells] at hnone
      exact absurd hnone (by simp)
    obtain ⟨hfound, hmap⟩ := hbuf hok
    rw [hfound, found] at hcells
    split at hcells
    · exact absurd hcells (by simp)
    rename_i hchunks
    obtain ⟨cells', hcells', hle⟩ := hmap hchunks
    rw [hcells', Option.map_some, Option.some_inj] at hcells
    subst hcells
    rw [List.getElem?_take] at hk
    split at hk
    · obtain ⟨p, hp, hpk⟩ := h.map cells' hcells' k hk
      obtain ⟨hpsize, hpchunk⟩ := hsame hstart hchunks ⟨cells', hcells', hle⟩ p hp
      exact ⟨p, hp, hpsize, hpchunk, hpk⟩
    · exact absurd hk (by simp)

/-- A data packet that fits is well formed. -/
theorem piece_wellFormed {s : Session} (hcounted : s.upload.Counted) {chunk : UInt32}
    {bytes : List UInt8} (hfits : Fits s chunk bytes) {p : Piece}
    (hp : p = ⟨s.upload.size, s.upload.chunkSize, chunk.toNat,
      bytes.take (chunkLength s.upload chunk.toNat)⟩) : p.WellFormed := by
  subst hp
  refine ⟨hcounted.size, hcounted.offset_lt hfits.below, ?_⟩
  rw [← hcounted.chunkLength_eq hfits.below, List.length_take]
  exact Nat.min_eq_left hfits.length

/-- Chunks of one upload lie beside each other. -/
theorem chunks_beside {chunkSize k k' n n' : Nat} (hn : n ≤ chunkSize) (hn' : n' ≤ chunkSize)
    (hne : k ≠ k') : k * chunkSize + n ≤ k' * chunkSize ∨ k' * chunkSize + n' ≤ k * chunkSize := by
  rcases Nat.lt_or_gt_of_ne hne with hlt | hgt
  · have hmul := Nat.mul_le_mul_right chunkSize hlt
    rw [Nat.succ_mul] at hmul
    omega
  · have hmul := Nat.mul_le_mul_right chunkSize hgt
    rw [Nat.succ_mul] at hmul
    omega

/-- The map in memory with a chunk marked. -/
theorem UploadFile.Backed.marked {log : List Piece} {s : Session} (h : s.upload.Backed log)
    {p : Piece} (hp : p.For s.upload.size s.upload.chunkSize p.chunk) :
    (s.marked p.chunk).upload.Backed (log ++ [p]) := by
  intro cells hcells k hk
  obtain ⟨cells', hcells', rfl⟩ := Option.map_eq_some_iff.1 hcells
  rw [List.getElem?_set] at hk
  split at hk
  · rename_i hkp
    exact ⟨p, List.mem_append_right _ (List.mem_singleton.2 rfl), hp.1, hp.2.1, hkp⟩
  · obtain ⟨q, hq, hfor⟩ := h cells' hcells' k hk
    exact ⟨q, List.mem_append_left _ hq, hfor⟩

/-- The map file with a chunk marked. -/
theorem map_marked {map : Option (List UInt8)} {log : List Piece} {p : Piece}
    (h : ∀ cells, map = some cells → ∀ k, cells[k]? = some chunkDone → ∃ q ∈ log, q.chunk = k) :
    ∀ cells, map.map (File.write 0 · p.chunk [chunkDone]) = some cells →
      ∀ k, cells[k]? = some chunkDone → ∃ q ∈ log ++ [p], q.chunk = k := by
  intro cells hcells k hk
  obtain ⟨cells', hcells', rfl⟩ := Option.map_eq_some_iff.1 hcells
  rcases File.of_write hk with hold | hgap | ⟨hle, hnew⟩
  · obtain ⟨q, hq, hqk⟩ := h cells' hcells' k hold
    exact ⟨q, List.mem_append_left _ hq, hqk⟩
  · exact absurd hgap (by decide)
  · have hlt := (List.getElem?_eq_some_iff.1 hnew).1
    rw [List.length_singleton] at hlt
    exact ⟨p, List.mem_append_right _ (List.mem_singleton.2 rfl), by omega⟩

/-- **Data packets.** -/
theorem Sound.data (h : Sound w) {c : Conn} {o : Outcomes} {chunk : UInt32} {bytes : List UInt8}
    {s : Session} (ht : w.thread c = ⟨s, .running⟩) (hfits : Fits s chunk bytes)
    (hsame : SameUpload w (c, .data chunk bytes, o)) {p : Piece}
    (hp : p = ⟨s.upload.size, s.upload.chunkSize, chunk.toNat,
      bytes.take (chunkLength s.upload chunk.toNat)⟩)
    (htidy : Thread.Tidy ⟨s.marked p.chunk, .running⟩) :
    Sound ⟨⟨w.disk.target.map (File.write 0 · (chunkOffset s.upload p.chunk) p.bytes),
        w.disk.map.map (File.write 0 · p.chunk [chunkDone])⟩,
      Function.update w.thread c ⟨s.marked p.chunk, .running⟩, w.log ++ [p]⟩ := by
  have hready := h.file c (by rw [ht])
  rw [ht] at hready
  obtain ⟨hcounted, hbacked, htarget⟩ := hready
  obtain ⟨target, htarget⟩ := Option.isSome_iff_exists.1 (htarget hfits.fp)
  have hlog : ∀ q ∈ w.log, q.size = p.size ∧ q.chunkSize = p.chunkSize := by
    rw [hp]
    exact hsame s ht hfits
  have hpiece : p.WellFormed := piece_wellFormed hcounted hfits hp
  have hoffset : chunkOffset s.upload p.chunk = p.chunk * p.chunkSize := by
    rw [hp]
    exact hcounted.chunkOffset_eq hfits.below
  rw [htarget, hoffset, Option.map_some]
  have hfor : p.For s.upload.size s.upload.chunkSize p.chunk := by
    rw [hp]
    exact ⟨rfl, rfl, rfl⟩
  refine ⟨?_, ?_, ?_, ?_, fun _ => rfl, ?_, ?_⟩
  · exact update_all h.tidy c htidy
  · refine update_all (P := fun t => t.life = .running → t.session.upload.Ready _)
      (fun c' hlife => ?_) c fun _ => ?_
    · exact ⟨(h.file c' hlife).counted, (h.file c' hlife).backed.mono p, fun _ => rfl⟩
    · refine ⟨⟨hcounted.chunks, hcounted.size, hcounted.zero⟩, ?_, fun _ => rfl⟩
      exact hbacked.marked hfor
  · intro q hq q' hq'
    rcases List.mem_append.1 hq with hq | hq <;> rcases List.mem_append.1 hq' with hq' | hq'
    · exact h.same q hq q' hq'
    · rw [List.mem_singleton] at hq'
      rw [hq']
      exact hlog q hq
    · rw [List.mem_singleton] at hq
      rw [hq]
      exact ⟨(hlog q' hq').1.symm, (hlog q' hq').2.symm⟩
    · rw [List.mem_singleton] at hq hq'
      rw [hq, hq']
      exact ⟨rfl, rfl⟩
  · intro q hq
    rcases List.mem_append.1 hq with hq | hq
    · exact h.piece q hq
    · rw [List.mem_singleton] at hq
      rw [hq]
      exact hpiece
  · exact map_marked h.map
  · intro size chunkSize k q hlast
    refine ⟨_, rfl, ?_⟩
    by_cases hpk : p.For size chunkSize k
    · rw [lastPiece_snoc_self hpk, Option.some_inj] at hlast
      obtain ⟨-, rfl, rfl⟩ := hpk
      rw [← hlast]
      exact File.Holds.write 0 target _ _
    · rw [lastPiece_snoc_other hpk] at hlast
      obtain ⟨target', htarget', hholds⟩ := h.held size chunkSize k q hlast
      rw [htarget, Option.some_inj] at htarget'
      rw [htarget']
      obtain ⟨hq, rfl, rfl, rfl⟩ := lastPiece_mem hlast
      obtain ⟨hsize, hchunk⟩ := hlog q hq
      have hne : q.chunk ≠ p.chunk := fun heq => hpk ⟨hsize.symm, hchunk.symm, heq.symm⟩
      have hqlen := (h.piece q hq).length
      have hplen := hpiece.length
      refine hholds.write_beside ?_
      rw [← hchunk]
      exact chunks_beside (by omega) (by omega) hne

/-- **A step of an upload like those before** keeps the invariant. -/
theorem Sound.step (h : Sound w) {i : Conn × Event × Outcomes} (ho : FilesWork i.2.2)
    (hsame : SameUpload w i) : Sound (server.step w i).1 := by
  obtain ⟨c, e, o⟩ := i
  have htidy := server_tidy h.tidy (c, e, o)
  have hchange := server_change (h.tidy c) e o
  generalize (server.step w (c, e, o)).1 = w' at hchange htidy
  rcases hchange with _ | ⟨_, t, disk, ht, hdisk⟩ | ⟨size, hstart⟩ |
    ⟨size, chunkSize, hstart, hsize, r, hr⟩ | ⟨chunk, bytes, write, hwrite⟩ |
    ⟨chunk, bytes, s, ht, hfits, p, hp⟩
  · exact h
  · have hexited : Sound ⟨w.disk, Function.update w.thread c t, w.log⟩ := by
      have hnot : t.life ≠ .running := by
        rw [ht]
        exact Life.noConfusion
      exact h.update_thread c (fun hlife => absurd hlife hnot) fun hlife => absurd hlife hnot
    rcases hdisk with rfl | ⟨-, rfl⟩
    · exact hexited
    · exact hexited.unmapped
  · have htc := htidy c
    dsimp only at htc
    rw [Function.update_self] at htc
    exact h.update_thread c htc fun _ =>
      ⟨counted_start, backed_none rfl, fun hfp => Bool.noConfusion hfp⟩
  · have htc := htidy c
    dsimp only at htc
    rw [Function.update_self] at htc
    exact h.upload hstart hsize ho hsame hr htc
  · have hdisk : ({ w.disk with target := w.disk.target.map write } : Disk) = w.disk := by
      rw [hwrite ho, Option.map_id, id]
    rw [hdisk]
    exact h
  · have htc := htidy c
    dsimp only at htc
    rw [Function.update_self] at htc
    exact h.data ht hfits hsame hp htc

/-- The same over a run. -/
theorem sound_run {d : Disk} (hd : d.map = none) (is : List (Conn × Event × Outcomes))
    (hfiles : ∀ i ∈ is, FilesWork i.2.2)
    (hsame : ∀ pre i, pre ++ [i] <+: is → SameUpload (server.run (.start d) pre) i) :
    Sound (server.run (.start d) is) := by
  suffices hall : ∀ pre, pre <+: is → Sound (server.run (.start d) pre) from
    hall is List.prefix_rfl
  intro pre
  induction pre using List.reverseRecOn with
  | nil => exact fun _ => sound_start hd
  | append_singleton pre i ih =>
    intro hpre
    rw [Machine.run_append]
    refine (ih ((List.prefix_append pre [i]).trans hpre)).step (hfiles i ?_) (hsame pre i hpre)
    exact hpre.subset (List.mem_append_right pre (List.mem_singleton.2 rfl))

end Steps

/-! ## Status replies -/

variable {w : World Conn}

theorem doneCount_le (file : UploadFile) (n : Nat) : doneCount file n ≤ n := by
  rw [doneCount]
  exact Nat.le_trans List.countP_le_length (Nat.le_of_eq List.length_range)

/-- All the chunks are done if as many are as there are. -/
theorem done_of_complete {file : UploadFile} (h : doneCount file file.chunks = file.chunks)
    {k : Nat} (hk : k < file.chunks) :
    ∃ cells, file.mapBuf = some cells ∧ cells[k]? = some chunkDone := by
  have hall : ∀ i ∈ List.range file.chunks, (decide ¬Missing file i) = true := by
    refine List.countP_eq_length.1 (h.trans List.length_range.symm)
  have hdone : mapCell file k = chunkDone := by
    have := hall k (List.mem_range.2 hk)
    simpa [Missing] using this
  rw [mapCell] at hdone
  rcases hbuf : file.mapBuf with _ | cells
  · rw [hbuf, Option.getD_none, List.getD_nil] at hdone
    exact absurd hdone (by decide)
  · refine ⟨cells, rfl, ?_⟩
    rw [hbuf, Option.getD_some, List.getD_eq_getElem?_getD] at hdone
    rcases hcell : cells[k]? with _ | cell
    · rw [hcell] at hdone
      exact absurd hdone (by decide)
    · rw [hcell, Option.getD_some] at hdone
      rw [hdone]

/-- What is sent in answer to a status request. -/
theorem status_sent {s : Session} {o : Outcomes} {r : Report}
    (h : .sent 0 (.status .ok (some r)) ∈ (statusRequest s o).effects) :
    r = report s.upload := by
  have hanswer : ∀ {es reply ret}, .sent 0 (.status .ok (some r)) ∈
      (answer s es o reply ret).effects → (∀ e ∈ es, ¬e.Buffer) → reply = .status .ok (some r) := by
    intro es reply ret hmem hes
    obtain ⟨e, heffects, he⟩ := answer_effects s es o reply ret
    rw [heffects, List.mem_append, List.mem_singleton] at hmem
    rcases hmem with hmem | hmem
    · exact absurd trivial (hes _ hmem)
    · rcases he with ⟨rfl, -⟩ | ⟨rfl, -⟩
      · exact (Effect.sent.inj hmem).2.symm
      · exact absurd hmem (by simp)
  rw [statusRequest] at h
  split at h
  · have := hanswer h (by simp)
    exact absurd this (by simp)
  · have := hanswer h (scanEffects_not_buffer s.upload)
    exact (Option.some.inj (Reply.status.inj this).2).symm

/-- **A complete upload is written.** -/
theorem Sound.written (h : Sound w) {c : Conn} (hlife : (w.thread c).life = .running)
    (hcomplete : doneCount (w.thread c).session.upload (w.thread c).session.upload.chunks =
      (w.thread c).session.upload.chunks) : Written w (w.thread c).session.upload := by
  obtain ⟨hcounted, hbacked, -⟩ := h.file c hlife
  have hlast : ∀ k, k < (w.thread c).session.upload.chunks → ∃ p,
      lastPiece w.log (w.thread c).session.upload.size (w.thread c).session.upload.chunkSize k =
        some p := by
    intro k hk
    obtain ⟨cells, hcells, hdone⟩ := done_of_complete hcomplete hk
    obtain ⟨p, hp, hfor⟩ := hbacked cells hcells k hdone
    exact lastPiece_of_mem hp hfor
  refine ⟨fun k hk => ?_, fun i hi => ?_⟩
  · obtain ⟨p, hp⟩ := hlast k hk
    obtain ⟨target, htarget, hholds⟩ := h.held _ _ _ _ hp
    exact ⟨p, target, hp, htarget, hholds⟩
  · obtain ⟨k, hk, hle, hlt⟩ := hcounted.cover hi
    obtain ⟨p, hp⟩ := hlast k hk
    obtain ⟨hmem, hsize, hchunk, hpk⟩ := lastPiece_mem hp
    have hlen := (h.piece p hmem).length
    rw [hsize, hchunk, hpk] at hlen
    exact ⟨k, p, hk, hp, hle, by omega⟩

/-- What a connection is sent in answer to a status request. -/
theorem server_status_sent [DecidableEq Conn] {c : Conn} {o : Outcomes} {r : Report}
    (h : .sent 0 (.status .ok (some r)) ∈ (server.step w (c, .status, o)).2) :
    (w.thread c).life = .running ∧ r = report (w.thread c).session.upload := by
  rcases ht : w.thread c with ⟨s, life⟩
  rw [server] at h
  dsimp only at h
  rw [ht] at h
  cases life with
  | running =>
    change _ ∈ Effect.got 0 :: (statusRequest s (o.on w.disk)).effects at h
    rcases List.mem_cons.1 h with h | h
    · exact absurd h (by simp)
    · exact ⟨rfl, status_sent h⟩
  | exited => exact absurd h List.not_mem_nil
  | gone => exact absurd h List.not_mem_nil

variable [DecidableEq Conn]

theorem fine_filesWork (target : Bool) (map : Option (List UInt8)) :
    FilesWork (.fine target map) := ⟨rfl, rfl, rfl, Nat.le_refl _, rfl, rfl, rfl, rfl⟩

/-- An upload of two bytes in chunks of one. -/
def twoChunks : List (Bool × Event × Outcomes) :=
  [(false, .upload 2 1, .fine false none), (false, .data 0 [7], .fine false none),
    (false, .data 1 [8], .fine false none)]

theorem twoChunks_fine : ∀ i ∈ twoChunks, FilesWork i.2.2 := by
  simp [twoChunks, fine_filesWork]

theorem twoChunks_same (pre : List (Bool × Event × Outcomes)) (i : Bool × Event × Outcomes)
    (h : pre ++ [i] <+: twoChunks) : SameUpload (server.run (.start ⟨none, none⟩) pre) i := by
  revert pre i
  simp only [twoChunks, forall_steps_cons]
  refine ⟨?_, ?_, ?_, fun pre i h => absurd (List.prefix_nil.1 h) (by simp)⟩
  · exact fun _ _ _ p hp => absurd hp List.not_mem_nil
  · exact fun _ _ _ p hp => absurd hp List.not_mem_nil
  · intro s hs _ p hp
    have hsession := congrArg Thread.session hs
    dsimp only at hsession
    obtain rfl := List.mem_singleton.1 hp
    rw [← hsession]
    decide

end Ftp
end FlightApps
