import FlightApps.Ftp.Uploads

/-!
# Resuming an upload

An upload that has been accepted on a fresh path can be resumed as long as no connection sends a
done packet, which removes the map and leaves the target.  `Kept` is what makes it so: the target is
there, and the map file has a cell for every chunk, done for exactly those that were accepted.  It
holds however the connections end, and whatever their calls answer.

`upload_resumes` is the result: a later upload request with the same size and chunk size is answered
`FTP_OK`, and a status reply lists the chunks that are missing, up to the first
`GS_FTP_STATUS_CHUNKS` runs of them.
-/

set_option autoImplicit false

namespace FlightApps
namespace Ftp

variable {Conn : Type}

/-- A data packet was accepted for the chunk. -/
def Accepted (w : World Conn) (k : Nat) : Prop := ∃ p ∈ w.log, p.chunk = k

instance (w : World Conn) : DecidablePred (Accepted w) :=
  fun k => inferInstanceAs (Decidable (∃ p ∈ w.log, p.chunk = k))

/-- What a connection may do without ending the upload: it requests no other, and sends no done
packet. -/
def Event.Resumes (size : UInt32) (chunkSize : UInt16) : Event → Prop
  | .upload size' chunkSize' => size' = size ∧ chunkSize' = chunkSize
  | .done => False
  | _ => True

/-- The map has a cell for every chunk, done for exactly those that were accepted. -/
def MapKept (w : World Conn) (chunks : Nat) (map : Option (List UInt8)) : Prop :=
  chunks ≠ 0 → ∃ cells, map = some cells ∧ cells.length = chunks ∧
    ∀ k, cells[k]? = some chunkDone ↔ k < chunks ∧ Accepted w k

/-- A thread that has the target open works on so many chunks. -/
def Thread.WorksOn (chunks : Nat) (t : Thread) : Prop :=
  t.life = .running → t.session.upload.fp = true → t.session.upload.chunks = chunks

/-- **The files keep an upload** of so many chunks, and every thread that has them open works on
it. -/
structure Kept (w : World Conn) (chunks : Nat) : Prop where
  tidy : ∀ c, (w.thread c).Tidy
  target : w.disk.target.isSome = true
  map : MapKept w chunks w.disk.map
  thread : ∀ c, (w.thread c).WorksOn chunks

section Steps

variable {w : World Conn} {chunks : Nat}

/-- Only one thread changes, and no file. -/
theorem Kept.update_thread [DecidableEq Conn] (h : Kept w chunks) (c : Conn) {t : Thread}
    (ht : t.Tidy) (hchunks : t.WorksOn chunks) :
    Kept ⟨w.disk, Function.update w.thread c t, w.log⟩ chunks where
  tidy := update_all h.tidy c ht
  target := h.target
  map := h.map
  thread := update_all h.thread c hchunks

/-- A chunk that is accepted, and those that were before. -/
theorem accepted_snoc {w' : World Conn} {p : Piece} (hlog : w'.log = w.log ++ [p]) (k : Nat) :
    Accepted w' k ↔ Accepted w k ∨ p.chunk = k := by
  simp only [Accepted, hlog, List.mem_append, List.mem_singleton, or_and_right, exists_or,
    exists_eq_left]

/-- A map with a chunk marked. -/
theorem MapKept.marked {map : Option (List UInt8)} (h : MapKept w chunks map) {p : Piece}
    (hp : p.chunk < chunks) {w' : World Conn} (hlog : w'.log = w.log ++ [p]) :
    MapKept w' chunks (map.map fun cells => cells.set p.chunk chunkDone) := by
  intro hchunks
  obtain ⟨cells, rfl, hlen, hdone⟩ := h hchunks
  refine ⟨_, rfl, (List.length_set).trans hlen, fun k => ?_⟩
  rw [accepted_snoc hlog, List.getElem?_set]
  split
  · rename_i hk
    subst hk
    rw [if_pos (hlen ▸ hp)]
    exact iff_of_true rfl ⟨hp, .inr rfl⟩
  · rename_i hk
    rw [hdone, or_iff_left hk]

/-- The map file is marked like the map in memory. -/
theorem MapKept.write_eq {map : Option (List UInt8)} (h : MapKept w chunks map) {k : Nat}
    (hk : k < chunks) : map.map (File.write 0 · k [chunkDone]) =
      map.map fun cells => cells.set k chunkDone := by
  obtain ⟨cells, rfl, hlen, -⟩ := h (by omega)
  rw [Option.map_some, Option.map_some, File.write_cell 0 (hlen ▸ hk)]

variable [DecidableEq Conn]

/-- **Data packets.** -/
theorem Kept.data (h : Kept w chunks) {c : Conn} {chunk : UInt32} {bytes : List UInt8} {s : Session}
    (ht : w.thread c = ⟨s, .running⟩) (hfits : Fits s chunk bytes) {p : Piece}
    (hp : p = ⟨s.upload.size, s.upload.chunkSize, chunk.toNat,
      bytes.take (chunkLength s.upload chunk.toNat)⟩)
    (htidy : Thread.Tidy ⟨s.marked p.chunk, .running⟩) (write : List UInt8 → List UInt8) :
    Kept ⟨⟨w.disk.target.map write, w.disk.map.map (File.write 0 · p.chunk [chunkDone])⟩,
      Function.update w.thread c ⟨s.marked p.chunk, .running⟩, w.log ++ [p]⟩ chunks := by
  have hchunks := h.thread c
  rw [ht] at hchunks
  have hbelow : p.chunk < chunks := by
    rw [hp, ← hchunks rfl hfits.fp]
    exact hfits.below
  refine ⟨?_, ?_, ?_, ?_⟩
  · exact update_all h.tidy c htidy
  · exact Option.isSome_map.trans h.target
  · rw [h.map.write_eq hbelow]
    exact h.map.marked hbelow rfl
  · exact update_all (P := Thread.WorksOn chunks) h.thread c hchunks

/-- **A step that does not end the upload** keeps it. -/
theorem Kept.step {size : UInt32} {chunkSize : UInt16}
    (h : Kept w (chunkCount size.toNat chunkSize.toNat)) {i : Conn × Event × Outcomes}
    (hi : i.2.1.Resumes size chunkSize) :
    Kept (server.step w i).1 (chunkCount size.toNat chunkSize.toNat) := by
  obtain ⟨c, e, o⟩ := i
  have htidy := server_tidy h.tidy (c, e, o) c
  have hchange := server_change (h.tidy c) e o
  generalize (server.step w (c, e, o)).1 = w' at hchange htidy
  rcases hchange with _ | ⟨_, t, disk, ht, hdisk⟩ | ⟨size', hstart⟩ |
    ⟨size', chunkSize', hstart, hsize, r, hr⟩ | ⟨chunk, bytes, write, hwrite⟩ |
    ⟨chunk, bytes, s, ht, hfits, p, hp⟩
  · exact h
  · have hnot : t.life ≠ .running := by
      rw [ht]
      exact Life.noConfusion
    rcases hdisk with rfl | ⟨rfl, -⟩
    · exact h.update_thread c (fun hlife => absurd hlife hnot) fun hlife => absurd hlife hnot
    · exact hi.elim
  · dsimp only at htidy
    rw [Function.update_self] at htidy
    exact h.update_thread c htidy fun _ hfp => Bool.noConfusion hfp
  · dsimp only at htidy
    rw [Function.update_self] at htidy
    obtain ⟨rfl, rfl⟩ : size' = size ∧ chunkSize' = chunkSize := hi
    rw [hr, initUpload_later h.target |>.1, ← hr]
    exact h.update_thread c htidy fun _ _ => rfl
  · exact ⟨h.tidy, Option.isSome_map.trans h.target, h.map, h.thread⟩
  · dsimp only at htidy
    rw [Function.update_self] at htidy
    exact h.data ht hfits hp htidy _

/-- The same over a run. -/
theorem Kept.run {size : UInt32} {chunkSize : UInt16}
    (h : Kept w (chunkCount size.toNat chunkSize.toNat)) {is : List (Conn × Event × Outcomes)}
    (his : ∀ i ∈ is, i.2.1.Resumes size chunkSize) :
    Kept (server.run w is) (chunkCount size.toNat chunkSize.toNat) := by
  induction is generalizing w with
  | nil => exact h
  | cons i is ih =>
    rw [List.forall_mem_cons] at his
    exact ih (h.step his.1) his.2

end Steps

/-! ## The map in memory -/

/-- The connection has the upload, and the map in memory is the map file. -/
structure Loaded (w : World Conn) (c : Conn) (chunks : Nat) : Prop where
  kept : Kept w chunks
  state : (w.thread c).session.state = .upload
  count : (w.thread c).session.upload.chunks = chunks
  buf : chunks ≠ 0 → (w.thread c).session.upload.mapBuf = w.disk.map

/-- What is missing in the map in memory was not accepted. -/
theorem Loaded.missing_iff {w : World Conn} {c : Conn} {chunks : Nat} (h : Loaded w c chunks)
    {k : Nat} (hk : k < chunks) : Missing (w.thread c).session.upload k ↔ ¬Accepted w k := by
  obtain ⟨cells, hmap, hlen, hdone⟩ := h.kept.map (by omega)
  have hcell := hdone k
  rw [List.getElem?_eq_getElem (by omega), Option.some_inj, and_iff_right hk] at hcell
  rw [Missing, mapCell, h.buf (by omega), hmap, Option.getD_some, ne_eq, not_iff_not, ← hcell,
    List.getD_eq_getElem?_getD, List.getElem?_eq_getElem (by omega), Option.getD_some]

/-! ## The first request -/

theorem mapKept_blank {w : World Conn} (hlog : w.log = []) (chunks : Nat) :
    MapKept w chunks (blank chunks) := by
  intro hchunks
  refine ⟨List.replicate chunks chunkMissing, if_neg hchunks, List.length_replicate, fun k => ?_⟩
  refine iff_of_false (blank_not_done (if_neg hchunks) k) ?_
  rintro ⟨-, p, hp, -⟩
  rw [hlog] at hp
  exact absurd hp List.not_mem_nil

variable [DecidableEq Conn]

/-- What an upload request of a new connection does. -/
theorem server_upload {w : World Conn} {c : Conn} (h : w.thread c = .start) (size : UInt32)
    (chunkSize : UInt16) (o : Outcomes) : server.step w (c, .upload size chunkSize, o) =
      (⟨w.disk.notes (uploadRequest .start size chunkSize (o.on w.disk)).effects,
        Function.update w.thread c
          ⟨(uploadRequest .start size chunkSize (o.on w.disk)).session, .running⟩, w.log⟩,
        .got 0 :: (uploadRequest .start size chunkSize (o.on w.disk)).effects) := by
  rw [server]
  dsimp only
  rw [h]
  refine Prod.ext ?_ rfl
  exact congrArg (World.mk _ _) (List.append_nil w.log)

/-- The request was accepted: its target is open. -/
theorem accepted_iff {w : World Conn} {c : Conn} (h : w.thread c = .start) {size : UInt32}
    {chunkSize : UInt16} {o : Outcomes} (haccepted :
      ((server.step w (c, .upload size chunkSize, o)).1.thread c).session.upload.fp = true) :
    chunkSize ≠ 0 ∧
      (initUpload (chunkCount size.toNat chunkSize.toNat) (o.on w.disk)).ret = .ok := by
  rw [server_upload h] at haccepted
  dsimp only at haccepted
  rw [Function.update_self] at haccepted
  by_cases hsize : chunkSize = 0
  · subst hsize
    rw [(@uploadRequest_zero w.disk (o.on w.disk) size).1] at haccepted
    exact absurd haccepted (by decide)
  · rw [(@uploadRequest_start w.disk (o.on w.disk) size chunkSize hsize).1] at haccepted
    exact ⟨hsize, of_decide_eq_true haccepted⟩

/-- **A first upload** that is accepted is kept. -/
theorem kept_first {c : Conn} {size : UInt32} {chunkSize : UInt16} {o : Outcomes}
    {w : World Conn} (hw : w = (server.step (.start ⟨none, none⟩) (c, .upload size chunkSize, o)).1)
    (haccepted : (w.thread c).session.upload.fp = true) :
    chunkSize ≠ 0 ∧ Kept w (chunkCount size.toNat chunkSize.toNat) := by
  subst hw
  have htidy : Thread.Tidy
      ⟨(uploadRequest .start size chunkSize (o.on ⟨none, none⟩)).session, .running⟩ :=
    fun _ => (uploadRequest_clean tidy_start size chunkSize (o.on ⟨none, none⟩)).tidy
  obtain ⟨hsize, hok⟩ := accepted_iff rfl haccepted
  obtain ⟨hsession, hdisk⟩ :=
    @uploadRequest_start ⟨none, none⟩ (o.on ⟨none, none⟩) size chunkSize hsize
  obtain ⟨hfiles, -⟩ := initUpload_first rfl rfl hok
  rw [server_upload rfl]
  refine ⟨hsize, ?_, ?_, ?_, ?_⟩
  · exact update_all (fun _ => start_tidy) c htidy
  · exact (congrArg (Option.isSome ∘ Disk.target) (hdisk.trans hfiles)).trans rfl
  · have hmap := congrArg Disk.map (hdisk.trans hfiles)
    exact hmap.symm ▸ mapKept_blank rfl _
  · refine update_all (P := Thread.WorksOn _) (fun _ _ hfp => Bool.noConfusion hfp) c fun _ _ => ?_
    exact congrArg (UploadFile.chunks ∘ Session.upload) hsession

/-! ## The connection that resumes -/

variable {w : World Conn} {c : Conn} {chunks : Nat}

/-- Whatever the connection does, it has the upload as long as it is there. -/
theorem loaded_step (h : (w.thread c).life = .running → Loaded w c chunks)
    (htidy : ∀ c', (w.thread c').Tidy) (e : Event) (o : Outcomes)
    (hlife : ((server.step w (c, e, o)).1.thread c).life = .running) :
    Loaded (server.step w (c, e, o)).1 c chunks := by
  have hchange := server_change (htidy c) e o
  have htidy' := server_tidy htidy (c, e, o) c
  generalize (server.step w (c, e, o)).1 = w' at hchange hlife htidy'
  rcases hchange with _ | ⟨_, t, disk, ht, hdisk⟩ | ⟨size, hstart⟩ |
    ⟨size, chunkSize, hstart, hsize, r, hr⟩ | ⟨chunk, bytes, write, hwrite⟩ |
    ⟨chunk, bytes, s, ht, hfits, p, hp⟩
  · exact h hlife
  · dsimp only at hlife
    rw [Function.update_self, ht] at hlife
    exact Life.noConfusion hlife
  · have := (h (by rw [hstart]; rfl)).state
    rw [hstart] at this
    exact absurd this (by decide)
  · have := (h (by rw [hstart]; rfl)).state
    rw [hstart] at this
    exact absurd this (by decide)
  · have hloaded := h hlife
    exact ⟨⟨hloaded.kept.tidy, Option.isSome_map.trans hloaded.kept.target, hloaded.kept.map,
      hloaded.kept.thread⟩, hloaded.state, hloaded.count, hloaded.buf⟩
  · obtain ⟨hkept, hstate, hcount, hbuf⟩ := h (by rw [ht])
    rw [ht] at hstate hcount hbuf
    dsimp only at htidy' hstate hcount hbuf
    rw [Function.update_self] at htidy'
    have hbelow : p.chunk < chunks := by
      rw [hp, ← hcount]
      exact hfits.below
    refine ⟨hkept.data ht hfits hp htidy' _, ?_, ?_, fun hchunks => ?_⟩
    · dsimp only
      rw [Function.update_self]
      exact hstate
    · dsimp only
      rw [Function.update_self]
      exact hcount
    · dsimp only
      rw [Function.update_self, hkept.map.write_eq hbelow]
      exact congrArg (Option.map fun cells => cells.set p.chunk chunkDone) (hbuf hchunks)

/-- The same over what it does in a row. -/
theorem loaded_run (h : (w.thread c).life = .running → Loaded w c chunks)
    (htidy : ∀ c', (w.thread c').Tidy) {js : List (Conn × Event × Outcomes)}
    (hjs : ∀ j ∈ js, j.1 = c) (hlife : ((server.run w js).thread c).life = .running) :
    Loaded (server.run w js) c chunks := by
  induction js generalizing w with
  | nil => exact h hlife
  | cons j js ih =>
    rw [List.forall_mem_cons] at hjs
    obtain ⟨c', e, o⟩ := j
    obtain rfl : c' = c := hjs.1
    exact ih (loaded_step h htidy e o) (server_tidy htidy _) hjs.2 hlife

/-- **A status request of the connection is answered** with the number of chunks that were accepted
and the first runs of those that were not. -/
def ListsMissing (w : World Conn) (c : Conn) (chunks : Nat) (o : Outcomes) : Prop :=
  ∃ rs, Runs.IsRuns (fun k => ¬Accepted w k) chunks rs ∧
    .sent 0 (.status .ok (some ⟨(List.range chunks).countP fun k => Accepted w k, chunks,
      rs.take statusChunks⟩)) ∈ (server.step w (c, .status, o)).2

theorem answer_sent {s : Session} {es : List Effect} {o : Outcomes} {reply : Reply} {ret : Ret}
    (hsend : o.send = true) : .sent 0 reply ∈ (answer s es o reply ret).effects := by
  rw [answer, if_pos hsend]
  exact List.mem_append_right es (List.mem_singleton.2 rfl)

theorem Loaded.lists (h : Loaded w c chunks) (hlife : (w.thread c).life = .running) {o : Outcomes}
    (hsend : o.send = true) : ListsMissing w c chunks o := by
  refine ⟨Runs.runs (Missing (w.thread c).session.upload) chunks,
    (Runs.runs_isRuns chunks).congr fun k hk => h.missing_iff hk, ?_⟩
  have hstate := h.state
  have hreport : report (w.thread c).session.upload =
      ⟨(List.range chunks).countP fun k => Accepted w k, chunks,
        (Runs.runs (Missing (w.thread c).session.upload) chunks).take statusChunks⟩ := by
    rw [report_eq, h.count, doneCount]
    congr 1
    refine List.countP_congr fun k hk => ?_
    rw [decide_eq_true_iff, decide_eq_true_iff, h.missing_iff (List.mem_range.1 hk), not_not]
  rcases ht : w.thread c with ⟨s, life⟩
  rw [ht] at hlife hstate hreport
  obtain rfl : life = .running := hlife
  have hsent : .sent 0 (.status .ok (some (report s.upload))) ∈
      (statusRequest s (o.on w.disk)).effects := by
    rw [statusRequest, if_neg (not_not.2 hstate)]
    exact answer_sent hsend
  rw [server]
  dsimp only
  rw [ht, ← hreport]
  exact List.mem_cons_of_mem _ hsent

/-- An upload request that finds the map has it in memory. -/
theorem loaded_upload {size : UInt32} {chunkSize : UInt16}
    (h : Kept w (chunkCount size.toNat chunkSize.toNat)) (hsize : chunkSize ≠ 0)
    (hstart : w.thread c = .start) {o : Outcomes}
    (hok : (initUpload (chunkCount size.toNat chunkSize.toNat) (o.on w.disk)).ret = .ok) :
    Loaded (server.step w (c, .upload size chunkSize, o)).1 c
      (chunkCount size.toNat chunkSize.toNat) := by
  have hkept := h.step (i := (c, .upload size chunkSize, o)) ⟨rfl, rfl⟩
  obtain ⟨hsession, hdisk⟩ := @uploadRequest_start w.disk (o.on w.disk) size chunkSize hsize
  obtain ⟨hsame, hbuf⟩ :=
    @initUpload_later w.disk o (chunkCount size.toNat chunkSize.toNat) h.target
  rw [server_upload hstart, hsession, hdisk, hsame] at hkept ⊢
  refine ⟨hkept, ?_, ?_, fun hchunks => ?_⟩ <;> dsimp only <;> rw [Function.update_self]
  · rfl
  · rfl
  · obtain ⟨cells, hmap, hlen, -⟩ := h.map hchunks
    refine (hbuf hok).1.trans ?_
    rw [found, if_neg hchunks, hmap, Option.map_some, List.take_of_length_le (by omega)]

/-- **An upload that was accepted on a fresh path can be resumed**, after any run without a done
packet in which no other upload is requested, however the connections in it have ended: a later
upload request with its size and chunk size is answered `FTP_OK`, and as long as no other connection
is at work, status requests are answered with what is missing. -/
theorem upload_resumes {size : UInt32} {chunkSize : UInt16} {c₀ : Conn} {o₀ : Outcomes}
    {w₀ : World Conn}
    (hw₀ : w₀ = (server.step (.start ⟨none, none⟩) (c₀, .upload size chunkSize, o₀)).1)
    (haccepted : (w₀.thread c₀).session.upload.fp = true) {is : List (Conn × Event × Outcomes)}
    (his : ∀ i ∈ is, i.2.1.Resumes size chunkSize) {w₁ : World Conn} (hw₁ : w₁ = server.run w₀ is)
    {c : Conn} (hstart : w₁.thread c = .start) {o : Outcomes} (halloc : o.allocMap = true)
    (hsend : o.send = true) :
    .sent 0 (.upload .ok) ∈ (server.step w₁ (c, .upload size chunkSize, o)).2 ∧
    ∀ js : List (Conn × Event × Outcomes), (∀ j ∈ js, j.1 = c) → ∀ w₂ o',
      w₂ = server.run (server.step w₁ (c, .upload size chunkSize, o)).1 js →
        (w₂.thread c).life = .running → o'.send = true →
          ListsMissing w₂ c (chunkCount size.toNat chunkSize.toNat) o' := by
  obtain ⟨hsize, hkept₀⟩ := kept_first hw₀ haccepted
  have hkept : Kept w₁ (chunkCount size.toNat chunkSize.toNat) := hw₁ ▸ hkept₀.run his
  have hok := initUpload_later_ok hkept.target halloc fun hchunks => by
    obtain ⟨cells, hmap, hlen, -⟩ := hkept.map hchunks
    exact ⟨cells, hmap, Nat.le_of_eq hlen.symm⟩
  rw [server_upload hstart]
  refine ⟨List.mem_cons_of_mem _ ?_, ?_⟩
  · rw [uploadRequest, if_neg (by decide), if_neg hsize]
    dsimp only
    rw [hok]
    exact answer_sent hsend
  · rintro js hjs w₂ o' rfl hlife hsend'
    rw [← server_upload hstart] at hlife ⊢
    have hloaded := loaded_upload hkept hsize hstart hok
    exact (loaded_run (fun _ => hloaded) hloaded.kept.tidy hjs hlife).lists hlife hsend'

/-- A first connection requests an upload and does more. -/
def firstUpload (size : UInt32) (es : List Event) : World Bool :=
  server.run (server.step (.start ⟨none, none⟩) (false, .upload size 1, .fine false none)).1
    (es.map fun e => (false, e, .fine false none))

/-- An upload of two bytes in chunks of one that is cut off in the middle goes on with chunk 1. -/
theorem cut_upload_resumes :
    .sent 0 (.upload .ok) ∈ (server.step (firstUpload 2 [.data 0 [7], .timeout])
      (true, .upload 2 1, .fine false none)).2 ∧
    ListsMissing (server.step (firstUpload 2 [.data 0 [7], .timeout])
      (true, .upload 2 1, .fine false none)).1 true (chunkCount 2 1) (.fine false none) := by
  obtain ⟨hanswer, hlists⟩ := @upload_resumes Bool _ 2 1 false (.fine false none) _ rfl (by decide)
    ([.data 0 [7], .timeout].map fun e => (false, e, .fine false none)) (by simp [Event.Resumes])
    (firstUpload 2 [.data 0 [7], .timeout]) rfl true rfl (.fine false none) rfl rfl
  exact ⟨hanswer, hlists [] (by simp) _ _ rfl rfl rfl⟩

/-- **A done packet ends an upload that is not complete**, and a status reply leaves out what does
not fit: with the chunks 0, 2, … of 21 missing, there is no entry for the last of them. -/
theorem resume_refused_or_cut :
    .sent 0 (.upload .ok) ∉ (server.step (firstUpload 2 [.data 0 [7], .done])
      (true, .upload 2 1, .fine false none)).2 ∧
    ∃ w : World Bool, w = (server.step (firstUpload 21
        ([1, 3, 5, 7, 9, 11, 13, 15, 17, 19].map (.data · [7]) ++ [.timeout]))
      (true, .upload 21 1, .fine false none)).1 ∧ ¬Accepted w 20 ∧
    ∃ r, .sent 0 (.status .ok (some r)) ∈ (server.step w (true, .status, .fine false none)).2 ∧
      ∀ x ∈ r.entries, ¬(x.1 ≤ 20 ∧ 20 < x.1 + x.2) := by
  refine ⟨by decide, _, rfl, by decide +kernel,
    ⟨10, 21, [0, 2, 4, 6, 8, 10, 12, 14, 16, 18].map (·, 1)⟩, by decide +kernel, by decide⟩

end Ftp
end FlightApps
