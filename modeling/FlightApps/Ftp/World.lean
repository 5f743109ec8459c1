import Mathlib.Logic.Function.Basic
import FlightApps.Lib.File
import FlightApps.Ftp.Threads

/-!
# Connections to one path

`server` is all that works on one path: the target and its map on the disk, and a thread for every
connection, with packets and read timeouts in any order among them.  A connection sends upload
requests, data packets, status requests, done packets and packets of unknown types.

The calls of a handler find the files as they are on the disk (`Outcomes.on`), and what the handler
does to them is there for the next one.  The log keeps the data packets that were accepted; no
thread sees it.
-/

set_option autoImplicit false

namespace FlightApps
namespace Ftp

/-! ## The disk -/

/-- The target and the map file, if they are there. -/
structure Disk where
  target : Option (List UInt8)
  map : Option (List UInt8)
deriving DecidableEq

namespace Disk

/-- The disk after an effect. -/
def note (d : Disk) : Effect → Disk
  | .targetCreated => { d with target := some [] }
  | .targetWritten offset bytes => { d with target := d.target.map (File.write 0 · offset bytes) }
  | .mapCreated cells => { d with map := some (List.replicate cells chunkMissing) }
  | .mapMarked chunk => { d with map := d.map.map (File.write 0 · chunk [chunkDone]) }
  | .mapRemoved => { d with map := none }
  | _ => d

/-- The disk after some effects. -/
def notes (d : Disk) (es : List Effect) : Disk := es.foldl note d

@[simp] theorem notes_nil (d : Disk) : d.notes [] = d := rfl

@[simp] theorem notes_cons (d : Disk) (e : Effect) (es : List Effect) :
    d.notes (e :: es) = (d.note e).notes es := rfl

theorem notes_append (d : Disk) (es es' : List Effect) :
    d.notes (es ++ es') = (d.notes es).notes es' := List.foldl_append

end Disk

/-- What the calls answer on a disk: a file can be opened if it is there. -/
def Outcomes.on (o : Outcomes) (d : Disk) : Outcomes :=
  { o with openTarget := d.target.isSome, openMap := d.map.isSome, mapBytes := d.map.getD [] }

/-- The calls for the target and the map succeed. -/
structure FilesWork (o : Outcomes) : Prop where
  createTarget : o.createTarget = true
  allocMap : o.allocMap = true
  createMap : o.createMap = true
  cleared : 2 ^ 32 ≤ o.cleared
  seekTarget : o.seekTarget = true
  writeTarget : o.writeTarget = true
  seekMap : o.seekMap = true
  writeMap : o.writeMap = true

/-! ## The log -/

/-- A data packet that was accepted, with the upload it belongs to. -/
structure Piece where
  size : Nat
  chunkSize : Nat
  chunk : Nat
  bytes : List UInt8
deriving DecidableEq

/-- The data packet that a handler accepts. -/
def accepted (s : Session) (p : Packet) (o : Outcomes) : List Piece :=
  match p with
  | .data chunk bytes =>
    if (dataHandler s chunk bytes o).ret = .ok then
      [⟨s.upload.size, s.upload.chunkSize, chunk.toNat,
        bytes.take (chunkLength s.upload chunk.toNat)⟩]
    else []
  | _ => []

/-- The same for what a thread reads. -/
def Thread.accepted (t : Thread) : Input → List Piece
  | .packet p o => if t.life = .running then Ftp.accepted t.session p o else []
  | .timeout => []

/-! ## The machine -/

/-- What a connection does. -/
inductive Event
  | upload (size : UInt32) (chunkSize : UInt16)
  | data (chunk : UInt32) (bytes : List UInt8)
  | status
  | done
  | unknown
  | timeout

/-- What its thread reads. -/
def Event.input (o : Outcomes) : Event → Input
  | .upload size chunkSize => .packet (.uploadRequest size chunkSize) o
  | .data chunk bytes => .packet (.data chunk bytes) o
  | .status => .packet .statusRequest o
  | .done => .packet .done o
  | .unknown => .packet .unknown o
  | .timeout => .timeout

variable {Conn : Type} [DecidableEq Conn]

/-- The disk, the threads and the log. -/
structure World (Conn : Type) where
  disk : Disk
  thread : Conn → Thread
  log : List Piece

/-- Before the first connection. -/
def World.start (d : Disk) : World Conn := ⟨d, fun _ => .start, []⟩

/-- **All that works on a path.** -/
def server : Machine (World Conn) (Conn × Event × Outcomes) (List Effect) where
  step w i :=
    let t := w.thread i.1
    let input := i.2.1.input (i.2.2.on w.disk)
    let r := connection.step t input
    (⟨w.disk.notes r.2, Function.update w.thread i.1 r.1, w.log ++ t.accepted input⟩, r.2)

/-! ## Upload requests -/

variable {d : Disk} {o : Outcomes} {chunks : Nat}

theorem notes_clearCells (d : Disk) (n chunks : Nat) : d.notes (clearCells n chunks) = d := by
  rw [clearCells]
  induction List.range n with
  | nil => rfl
  | cons i is ih => exact ih

/-- The map of an upload that has just been created. -/
def blank (chunks : Nat) : Option (List UInt8) :=
  if chunks = 0 then none else some (List.replicate chunks chunkMissing)

/-- **A first upload** that is answered `FTP_OK` leaves an empty target and a blank map. -/
theorem initUpload_first (htarget : d.target = none) (hmap : d.map = none)
    (hok : (initUpload chunks (o.on d)).ret = .ok) :
    d.notes (initUpload chunks (o.on d)).effects = ⟨some [], blank chunks⟩ ∧
      (initUpload chunks (o.on d)).mapBuf = blank chunks := by
  rw [initUpload, Outcomes.on, htarget, hmap] at hok ⊢
  rw [blank]
  dsimp only at hok ⊢
  split_ifs at hok ⊢ <;> simp_all [Disk.note, notes_clearCells]

/-- Its calls succeed. -/
theorem initUpload_first_ok (htarget : d.target = none) (hmap : d.map = none) (ho : FilesWork o)
    (hchunks : chunks ≤ 2 ^ 32) : (initUpload chunks (o.on d)).ret = .ok := by
  have hcleared : ¬o.cleared < chunks := Nat.not_lt.2 (Nat.le_trans hchunks ho.cleared)
  rw [initUpload, Outcomes.on, htarget, hmap]
  simp [ho.createTarget, ho.allocMap, ho.createMap, hcleared]
  split <;> rfl

/-- The map that an upload finds, cut to its chunks. -/
def found (d : Disk) (chunks : Nat) : Option (List UInt8) :=
  if chunks = 0 then none else d.map.map (List.take chunks)

/-- **A later upload** leaves the files as they are, and takes over the map. -/
theorem initUpload_later (htarget : d.target.isSome = true) :
    d.notes (initUpload chunks (o.on d)).effects = d ∧
      ((initUpload chunks (o.on d)).ret = .ok →
        (initUpload chunks (o.on d)).mapBuf = found d chunks ∧
          (chunks ≠ 0 → ∃ cells, d.map = some cells ∧ chunks ≤ cells.length)) := by
  rw [initUpload, Outcomes.on, found, htarget]
  dsimp only
  by_cases hchunks : chunks = 0
  · simp [hchunks, Disk.note]
  by_cases halloc : o.allocMap = true
  · rcases hmap : d.map with _ | cells
    · simp [hchunks, halloc, Disk.note]
    · by_cases hle : chunks ≤ cells.length
      · simp [hchunks, halloc, hle, Disk.note]
      · have hshort : min chunks cells.length ≠ chunks := by omega
        simp [hchunks, halloc, hshort, Disk.note]
  · simp [hchunks, halloc, Disk.note]

/-- It is answered `FTP_OK` if there is a map for all its chunks. -/
theorem initUpload_later_ok (htarget : d.target.isSome = true) (halloc : o.allocMap = true)
    (hmap : chunks ≠ 0 → ∃ cells, d.map = some cells ∧ chunks ≤ cells.length) :
    (initUpload chunks (o.on d)).ret = .ok := by
  rw [initUpload, Outcomes.on, htarget]
  by_cases hchunks : chunks = 0
  · simp [hchunks]
  · obtain ⟨cells, hcells, hle⟩ := hmap hchunks
    simp [hchunks, halloc, hcells, Nat.min_eq_left hle]

/-- The file of an upload that has been requested. -/
def requested (r : Opened) (size : UInt32) (chunkSize : UInt16) : UploadFile where
  fp := decide (r.ret = .ok)
  mapFp := r.mapFp
  mapBuf := r.mapBuf
  size := size.toNat
  chunkSize := chunkSize.toNat
  chunks := chunkCount size.toNat chunkSize.toNat

/-- A session that has an upload. -/
def Session.uploading (file : UploadFile) : Session :=
  { Session.start with state := .upload, upload := file }

theorem disk_answer {s : Session} {es : List Effect} {o : Outcomes} {reply : Reply} {ret : Ret} :
    d.notes (answer s es o reply ret).effects = d.notes es := by
  obtain ⟨e, he, hcases⟩ := answer_effects s es o reply ret
  rw [he, Disk.notes_append]
  rcases hcases with ⟨rfl, -⟩ | ⟨rfl, -⟩ <;> rfl

theorem uploadRequest_busy {s : Session} (h : s.state ≠ .idle) (size : UInt32)
    (chunkSize : UInt16) : (uploadRequest s size chunkSize o).session = s ∧
      d.notes (uploadRequest s size chunkSize o).effects = d := by
  rw [uploadRequest, if_pos h, answer_session, disk_answer]
  exact ⟨rfl, rfl⟩

theorem uploadRequest_zero (size : UInt32) :
    (uploadRequest .start size 0 o).session = .uploading Session.start.upload ∧
      d.notes (uploadRequest .start size 0 o).effects = d := by
  rw [uploadRequest, if_neg (by decide), if_pos rfl, answer_session, disk_answer]
  exact ⟨rfl, rfl⟩

theorem uploadRequest_start {size : UInt32} {chunkSize : UInt16} (h : chunkSize ≠ 0) :
    (uploadRequest .start size chunkSize o).session = .uploading
      (requested (initUpload (chunkCount size.toNat chunkSize.toNat) o) size chunkSize) ∧
    d.notes (uploadRequest .start size chunkSize o).effects =
      d.notes (initUpload (chunkCount size.toNat chunkSize.toNat) o).effects := by
  rw [uploadRequest, if_neg (by decide), if_neg h]
  dsimp only
  rw [answer_session, disk_answer]
  refine ⟨?_, rfl⟩
  have hfailed := (initUpload_fits (chunkCount size.toNat chunkSize.toNat) o).failed
  split
  · rename_i hret
    rw [requested, decide_eq_true hret]
    rfl
  · rename_i hret
    rw [requested, decide_eq_false hret, (hfailed hret).1, (hfailed hret).2]
    rfl

/-! ## Data packets -/

/-- When a data packet reaches the files. -/
structure Fits (s : Session) (chunk : UInt32) (bytes : List UInt8) : Prop where
  state : s.state = .upload
  below : chunk.toNat < s.upload.chunks
  length : chunkLength s.upload chunk.toNat ≤ bytes.length
  fp : s.upload.fp = true

/-- The session with a chunk marked. -/
def Session.marked (s : Session) (chunk : Nat) : Session :=
  { s with upload := { s.upload with
    mapBuf := s.upload.mapBuf.map fun cells => cells.set chunk chunkDone } }

/-- **What a data packet does**: it is accepted, written and marked; or it is not, and then at most
the target is written. -/
theorem dataHandler_cases (s : Session) (chunk : UInt32) (bytes : List UInt8) (o : Outcomes) :
    ((dataHandler s chunk bytes o).ret ≠ .ok ∧ (dataHandler s chunk bytes o).session = s ∧
      ∃ write, (∀ d : Disk, d.notes (dataHandler s chunk bytes o).effects =
        { d with target := d.target.map write }) ∧ (FilesWork o → write = id)) ∨
    (dataHandler s chunk bytes o).ret = .ok ∧ Fits s chunk bytes ∧
      (dataHandler s chunk bytes o).session = s.marked chunk.toNat ∧
      ∀ d : Disk, d.notes (dataHandler s chunk bytes o).effects =
        ⟨d.target.map (File.write 0 · (chunkOffset s.upload chunk.toNat)
          (bytes.take (chunkLength s.upload chunk.toNat))),
        d.map.map (File.write 0 · chunk.toNat [chunkDone])⟩ := by
  have hnothing : ∀ d : Disk, d = { d with target := d.target.map id } := by
    intro d
    rw [Option.map_id, id]
  rw [dataHandler]
  dsimp only
  split
  · exact .inl ⟨by simp [dropData], rfl, id, fun d => hnothing d, fun _ => rfl⟩
  rename_i hstate
  split
  · exact .inl ⟨by simp [dropData], rfl, id, fun d => hnothing d, fun _ => rfl⟩
  rename_i hchunk
  split
  · exact .inl ⟨by simp [dropData], rfl, id, fun d => hnothing d, fun _ => rfl⟩
  rename_i hlength
  split
  · exact .inl ⟨by simp [dropData], rfl, id, fun d => hnothing d, fun _ => rfl⟩
  rename_i hfp
  split
  · exact .inl ⟨by simp [dropData], rfl, id, fun d => hnothing d, fun _ => rfl⟩
  split
  · rename_i hmap
    refine .inl ⟨by simp [dropData], rfl, _, fun d => rfl, fun ho => ?_⟩
    exact absurd hmap (by simp [ho.seekMap, ho.writeMap])
  · exact .inr ⟨rfl, ⟨not_not.1 hstate, Nat.not_le.1 hchunk, Nat.not_lt.1 hlength, not_not.1 hfp⟩,
      rfl, fun d => rfl⟩

/-! ## The other packets -/

theorem disk_closeIf (open? : Bool) (r : Resource) : d.notes (closeIf open? r) = d := by
  rw [closeIf]
  split <;> rfl

theorem disk_cleanup (s : Session) : d.notes (cleanup s) = d := by
  simp only [cleanup, Disk.notes_append, disk_closeIf]

/-- A done packet removes the map file, or leaves all as it is. -/
theorem doneHandler_disk (s : Session) : d.notes (doneHandler s).effects = d ∨
    d.notes (doneHandler s).effects = { d with map := none } := by
  rw [doneHandler]
  split
  · exact .inl rfl
  · rw [Disk.notes_append, disk_closeIf]
    exact .inl rfl
  · simp only [Disk.notes_append, disk_closeIf]
    split
    · exact .inr rfl
    · exact .inl rfl

theorem statusRequest_disk (s : Session) : d.notes (statusRequest s o).effects = d := by
  have hscan : ∀ es : List Effect, (∀ e ∈ es, ∀ d : Disk, d.note e = d) → d.notes es = d := by
    intro es
    induction es with
    | nil => exact fun _ => rfl
    | cons e es ih =>
      intro h
      rw [List.forall_mem_cons] at h
      rw [Disk.notes_cons, h.1 d]
      exact ih h.2
  rw [statusRequest]
  split
  · exact disk_answer
  · refine disk_answer.trans (hscan _ fun e he => ?_)
    rcases List.mem_append.1 he with he | he
    · obtain ⟨i, -, he⟩ := List.mem_flatMap.1 he
      rcases List.mem_pair.1 he with rfl | rfl <;> exact fun _ => rfl
    · obtain ⟨i, -, rfl⟩ := List.mem_map.1 he
      exact fun _ => rfl

/-! ## Steps -/

/-- **What a step can do to the world.** -/
inductive Change (w : World Conn) (c : Conn) (o : Outcomes) : Event → World Conn → Prop
  /-- Nothing: the thread has exited, or the packet changes nothing. -/
  | still (e : Event) : Change w c o e w
  /-- The thread exits, and may remove the map. -/
  | exits (e : Event) (t : Thread) (disk : Disk) (ht : t.life = .exited)
      (hdisk : disk = w.disk ∨ e = .done ∧ disk = { w.disk with map := none }) :
      Change w c o e ⟨disk, Function.update w.thread c t, w.log⟩
  /-- An upload request with chunk size 0. -/
  | zero (size : UInt32) (h : w.thread c = .start) : Change w c o (.upload size 0)
      ⟨w.disk, Function.update w.thread c ⟨.uploading Session.start.upload, .running⟩, w.log⟩
  /-- An upload request. -/
  | upload (size : UInt32) (chunkSize : UInt16) (h : w.thread c = .start) (hsize : chunkSize ≠ 0)
      (r : Opened)
      (hr : r = initUpload (chunkCount size.toNat chunkSize.toNat) (o.on w.disk)) :
      Change w c o (.upload size chunkSize) ⟨w.disk.notes r.effects, Function.update w.thread c
        ⟨.uploading (requested r size chunkSize), .running⟩, w.log⟩
  /-- A data packet that is not accepted. -/
  | wasted (chunk : UInt32) (bytes : List UInt8) (write : List UInt8 → List UInt8)
      (hwrite : FilesWork o → write = id) : Change w c o (.data chunk bytes)
        ⟨{ w.disk with target := w.disk.target.map write }, w.thread, w.log⟩
  /-- A data packet that is accepted. -/
  | data (chunk : UInt32) (bytes : List UInt8) (s : Session) (ht : w.thread c = ⟨s, .running⟩)
      (hfits : Fits s chunk bytes) (p : Piece)
      (hp : p = ⟨s.upload.size, s.upload.chunkSize, chunk.toNat,
        bytes.take (chunkLength s.upload chunk.toNat)⟩) :
      Change w c o (.data chunk bytes)
        ⟨⟨w.disk.target.map (File.write 0 · (chunkOffset s.upload p.chunk) p.bytes),
            w.disk.map.map (File.write 0 · p.chunk [chunkDone])⟩,
          Function.update w.thread c ⟨s.marked p.chunk, .running⟩, w.log ++ [p]⟩

theorem world_still (w : World Conn) (c : Conn) :
    (⟨w.disk, Function.update w.thread c (w.thread c), w.log ++ []⟩ : World Conn) = w := by
  rw [Function.update_eq_self, List.append_nil]

theorem FilesWork.on (h : FilesWork o) (d : Disk) : FilesWork (o.on d) :=
  ⟨h.createTarget, h.allocMap, h.createMap, h.cleared, h.seekTarget, h.writeTarget, h.seekMap,
    h.writeMap⟩

section Running

variable {w : World Conn} {c : Conn} {s : Session}

/-- The world as it is, with what a packet that changes nothing leaves of it. -/
theorem world_same (ht : w.thread c = ⟨s, .running⟩) :
    (⟨w.disk, Function.update w.thread c ⟨s, .running⟩, w.log ++ []⟩ : World Conn) = w := by
  rw [← ht]
  exact world_still w c

theorem upload_change (ht : w.thread c = ⟨s, .running⟩) (hs : Tidy s) (size : UInt32)
    (chunkSize : UInt16) (o : Outcomes) : Change w c o (.upload size chunkSize)
      ⟨w.disk.notes (uploadRequest s size chunkSize (o.on w.disk)).effects,
        Function.update w.thread c
          ⟨(uploadRequest s size chunkSize (o.on w.disk)).session, .running⟩, w.log ++ []⟩ := by
  by_cases hidle : s.state = .idle
  · obtain rfl := hs.eq_start hidle
    by_cases hsize : chunkSize = 0
    · subst hsize
      obtain ⟨hsession, hdisk⟩ := @uploadRequest_zero w.disk (o.on w.disk) size
      rw [hsession, hdisk, List.append_nil]
      exact .zero size ht
    · obtain ⟨hsession, hdisk⟩ := @uploadRequest_start w.disk (o.on w.disk) size chunkSize hsize
      rw [hsession, hdisk, List.append_nil]
      exact .upload size chunkSize ht hsize _ rfl
  · obtain ⟨hsession, hdisk⟩ := @uploadRequest_busy w.disk (o.on w.disk) s hidle size chunkSize
    rw [hsession, hdisk, world_same ht]
    exact .still _

theorem data_change (ht : w.thread c = ⟨s, .running⟩) (chunk : UInt32) (bytes : List UInt8)
    (o : Outcomes) : Change w c o (.data chunk bytes)
      ⟨w.disk.notes (dataHandler s chunk bytes (o.on w.disk)).effects, Function.update w.thread c
        ⟨(dataHandler s chunk bytes (o.on w.disk)).session, .running⟩,
        w.log ++ accepted s (.data chunk bytes) (o.on w.disk)⟩ := by
  rw [accepted]
  rcases dataHandler_cases s chunk bytes (o.on w.disk) with
    ⟨hret, hsession, write, hdisk, hwrite⟩ | ⟨hret, hfits, hsession, hdisk⟩
  · rw [if_neg hret, hsession, hdisk, List.append_nil, ← ht, Function.update_eq_self]
    exact .wasted chunk bytes write fun ho => hwrite (ho.on w.disk)
  · rw [if_pos hret, hsession, hdisk]
    exact .data chunk bytes s ht hfits _ rfl

/-- The packets of a running thread. -/
theorem running_change (ht : w.thread c = ⟨s, .running⟩) (hs : Tidy s) (e : Event)
    (o : Outcomes) : Change w c o e (server.step w (c, e, o)).1 := by
  rw [server]
  dsimp only
  rw [ht]
  rcases e with ⟨size, chunkSize⟩ | ⟨chunk, bytes⟩ | _ | _ | _ | _
  · exact upload_change ht hs size chunkSize o
  · exact data_change ht chunk bytes o
  · change Change w c o _ ⟨w.disk.notes (statusRequest s (o.on w.disk)).effects,
      Function.update w.thread c ⟨(statusRequest s (o.on w.disk)).session, .running⟩, w.log ++ []⟩
    rw [statusRequest_session, statusRequest_disk, world_same ht]
    exact .still _
  · change Change w c o _
      ⟨w.disk.notes ((doneHandler s).effects ++ cleanup (doneHandler s).session),
      Function.update w.thread c ⟨(doneHandler s).session, .exited⟩, w.log ++ []⟩
    rw [Disk.notes_append, disk_cleanup, List.append_nil]
    exact .exits _ _ _ rfl ((doneHandler_disk s).imp_right fun h => ⟨rfl, h⟩)
  · change Change w c o _ ⟨w.disk.notes (cleanup s), Function.update w.thread c ⟨s, .exited⟩,
      w.log ++ []⟩
    rw [disk_cleanup, List.append_nil]
    exact .exits _ _ _ rfl (.inl rfl)
  · change Change w c o _ ⟨w.disk.notes (cleanup s), Function.update w.thread c ⟨s, .exited⟩,
      w.log ++ []⟩
    rw [disk_cleanup, List.append_nil]
    exact .exits _ _ _ rfl (.inl rfl)

end Running

/-- **Every step is one of these.** -/
theorem server_change {w : World Conn} {c : Conn} (ht : (w.thread c).Tidy) (e : Event)
    (o : Outcomes) : Change w c o e (server.step w (c, e, o)).1 := by
  rcases hthread : w.thread c with ⟨s, life⟩
  rcases step_cases (w.thread c) (e.input (o.on w.disk)) with
    ⟨p, o', -, hlife, -⟩ | ⟨-, hlife, -⟩ | ⟨hlife, hstep⟩
  · rw [hthread] at hlife ht
    obtain rfl : life = .running := hlife
    exact running_change hthread (ht rfl) e o
  · rw [hthread] at hlife ht
    obtain rfl : life = .running := hlife
    exact running_change hthread (ht rfl) e o
  · have haccepted : (w.thread c).accepted (e.input (o.on w.disk)) = [] := by
      rcases e.input (o.on w.disk) with ⟨p, o'⟩ | _
      · exact if_neg hlife
      · rfl
    rw [server]
    dsimp only
    rw [hstep, haccepted, Disk.notes_nil, world_still]
    exact .still e

/-- What holds of all threads, where one changes. -/
theorem update_all {P : Thread → Prop} {f : Conn → Thread} (hf : ∀ c, P (f c)) (c : Conn)
    {t : Thread} (ht : P t) (c' : Conn) : P (Function.update f c t c') :=
  (Function.forall_update_iff f fun _ t => P t).2 ⟨ht, fun c' _ => hf c'⟩ c'

/-- Threads stay tidy. -/
theorem server_tidy {w : World Conn} (h : ∀ c, (w.thread c).Tidy) (i : Conn × Event × Outcomes) :
    ∀ c, ((server.step w i).1.thread c).Tidy :=
  update_all h i.1 (step_tidy (h i.1) _)

end Ftp
end FlightApps
