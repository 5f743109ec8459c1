import FlightApps.Ftp.Handlers

/-!
# Sessions and what they hold

`Books` are kept beside a session: which files are open and whether there is a map in memory, going
by the effects of the handlers alone.  `Tidy` is what holds of a session between two packets, also
after a request that has failed, and in a tidy session the books are what the pointers say.

* `uploadRequest_clean`, `dataHandler_clean`, `downloadRequest_clean` — these handlers keep a
  session tidy and the books in step, whatever their calls answer, and use nothing that is not
  there.
* `statusRequest_keeps`, `crcRequest_keeps`, `statusReply_keeps` (in `Ftp/Streams.lean`) — the
  others open and close nothing.  What they use is another matter.
-/

set_option autoImplicit false

namespace FlightApps
namespace Ftp

/-! ## Books -/

/-- What is open, or allocated. -/
structure Books where
  target : Bool
  map : Bool
  mapBuf : Bool
  source : Bool
deriving DecidableEq

namespace Books

def get (b : Books) : Resource → Bool
  | .target => b.target
  | .map => b.map
  | .mapBuf => b.mapBuf
  | .source => b.source

def set (b : Books) (r : Resource) (v : Bool) : Books :=
  match r with
  | .target => { b with target := v }
  | .map => { b with map := v }
  | .mapBuf => { b with mapBuf := v }
  | .source => { b with source := v }

/-- The books after an effect. -/
def note (b : Books) : Effect → Books
  | .opened r => b.set r true
  | .closed r => b.set r false
  | _ => b

/-- The books after some effects. -/
def notes (b : Books) (es : List Effect) : Books := es.foldl note b

/-- What the pointers of a session say. -/
def ofSession (s : Session) : Books :=
  ⟨s.upload.fp, s.upload.mapFp, s.upload.mapBuf.isSome, s.download.fp⟩

/-- Nothing is open. -/
def empty : Books := ⟨false, false, false, false⟩

@[simp] theorem notes_nil (b : Books) : b.notes [] = b := rfl

@[simp] theorem notes_cons (b : Books) (e : Effect) (es : List Effect) :
    b.notes (e :: es) = (b.note e).notes es := rfl

theorem notes_append (b : Books) (es es' : List Effect) :
    b.notes (es ++ es') = (b.notes es).notes es' := List.foldl_append

end Books

/-- The effect opens and closes nothing. -/
def Effect.Neutral : Effect → Prop
  | .opened _ => False
  | .closed _ => False
  | _ => True

/-- Every effect meets `P` with the books as they are before it. -/
def Throughout (P : Books → Effect → Prop) : Books → List Effect → Prop
  | _, [] => True
  | b, e :: es => P b e ∧ Throughout P (b.note e) es

instance decidableThroughout {P : Books → Effect → Prop} [h : ∀ b e, Decidable (P b e)] :
    (b : Books) → (es : List Effect) → Decidable (Throughout P b es)
  | _, [] => .isTrue trivial
  | b, e :: es => @instDecidableAnd _ _ (h b e) (decidableThroughout (b.note e) es)

section Throughout

variable {P : Books → Effect → Prop} {b : Books}

@[simp] theorem throughout_nil : Throughout P b [] ↔ True := Iff.rfl

@[simp] theorem throughout_cons {e : Effect} {es : List Effect} :
    Throughout P b (e :: es) ↔ P b e ∧ Throughout P (b.note e) es := Iff.rfl

theorem throughout_append {es es' : List Effect} :
    Throughout P b (es ++ es') ↔ Throughout P b es ∧ Throughout P (b.notes es) es' := by
  induction es generalizing b with
  | nil => rw [List.nil_append, throughout_nil, true_and, Books.notes_nil]
  | cons e es ih =>
    rw [List.cons_append, throughout_cons, throughout_cons, ih, and_assoc, Books.notes_cons]

theorem note_neutral {e : Effect} (h : e.Neutral) : b.note e = b := by
  cases e <;> first | rfl | exact h.elim

theorem notes_neutral {es : List Effect} (h : ∀ e ∈ es, e.Neutral) : b.notes es = b := by
  induction es with
  | nil => rfl
  | cons e es ih =>
    rw [List.forall_mem_cons] at h
    rw [Books.notes_cons, note_neutral h.1, ih h.2]

/-- While nothing is opened or closed the books stay the same. -/
theorem throughout_neutral {es : List Effect} (h : ∀ e ∈ es, e.Neutral) :
    Throughout P b es ↔ ∀ e ∈ es, P b e := by
  induction es with
  | nil => simp
  | cons e es ih =>
    rw [List.forall_mem_cons] at h
    rw [throughout_cons, note_neutral h.1, ih h.2, List.forall_mem_cons]

end Throughout

/-! ## What the effects are about -/

/-- A pointer that is used is non-NULL and open, an index lies in its array, nothing is divided by
zero, and a chunk fits in a packet. -/
def Effect.Safe (b : Books) : Effect → Prop
  | .used r valid => valid = true ∧ b.get r = true
  | .indexed i cells => i < cells
  | .entry i => i < statusChunks
  | .divided d => d ≠ 0
  | .copied n => n ≤ maxChunkSize
  | _ => True

instance (b : Books) : DecidablePred (Effect.Safe b)
  | .used _ _ => inferInstanceAs (Decidable (_ ∧ _))
  | .indexed _ _ => inferInstanceAs (Decidable (_ < _))
  | .entry _ => inferInstanceAs (Decidable (_ < _))
  | .divided _ => inferInstanceAs (Decidable (_ ≠ _))
  | .copied _ => inferInstanceAs (Decidable (_ ≤ _))
  | .got _ | .sent _ _ | .freed _ | .opened _ | .closed _ | .targetCreated | .targetWritten _ _
  | .mapCreated _ | .mapMarked _ | .mapRemoved => .isTrue trivial

/-- What is opened is not open, and what is closed is. -/
def Effect.Paired (b : Books) : Effect → Prop
  | .opened r => b.get r = false
  | .closed r => b.get r = true
  | _ => True

/-- Both. -/
def Effect.Sound (b : Books) (e : Effect) : Prop := e.Safe b ∧ e.Paired b

/-- An effect that opens and closes nothing is paired. -/
theorem Effect.Neutral.paired {b : Books} {e : Effect} (h : e.Neutral) : e.Paired b := by
  cases e <;> trivial

theorem throughout_and {P Q : Books → Effect → Prop} {b : Books} {es : List Effect} :
    Throughout (fun b e => P b e ∧ Q b e) b es ↔ Throughout P b es ∧ Throughout Q b es := by
  induction es generalizing b with
  | nil => exact (and_self_iff).symm
  | cons e es ih => rw [throughout_cons, throughout_cons, throughout_cons, ih, and_and_and_comm]

theorem throughout_sound {b : Books} {es : List Effect} :
    Throughout Effect.Sound b es ↔ Throughout Effect.Safe b es ∧ Throughout Effect.Paired b es :=
  throughout_and

/-! ## Tidy sessions -/

/-- The pointers of an upload: all NULL, or an open target without a map for no chunks, or an open
target with a map for all of them. -/
inductive UploadFile.Tidy (file : UploadFile) : Prop
  | closed (hfp : file.fp = false) (hmap : file.mapFp = false) (hbuf : file.mapBuf = none)
  | empty (hfp : file.fp = true) (hmap : file.mapFp = false) (hbuf : file.mapBuf = none)
      (hchunks : file.chunks = 0)
  | mapped (cells : List UInt8) (hfp : file.fp = true) (hmap : file.mapFp = true)
      (hbuf : file.mapBuf = some cells) (hchunks : cells.length = file.chunks)

/-- A download has chunks only if its file is open. -/
inductive DownloadFile.Tidy (file : DownloadFile) : Prop
  | closed (hfp : file.fp = false) (hchunks : file.chunks = 0)
  | opened (hfp : file.fp = true) (hsize : file.chunkSize ≠ 0)

/-- **What holds of a session between two packets.**  A thread that is idle has not done anything
yet, and only one of the two files is ever touched. -/
inductive Tidy (s : Session) : Prop
  | idle (h : s = .start)
  | upload (hstate : s.state = .upload) (hdown : s.download = Session.start.download)
      (hup : s.upload.Tidy)
  | download (hstate : s.state = .download) (hup : s.upload = Session.start.upload)
      (hdown : s.download.Tidy)

theorem tidy_start : Tidy .start := .idle rfl

theorem Tidy.eq_start {s : Session} (h : Tidy s) (hstate : s.state = .idle) : s = .start := by
  rcases h with h | ⟨hs, -, -⟩ | ⟨hs, -, -⟩
  · exact h
  · rw [hs] at hstate; exact absurd hstate (by decide)
  · rw [hs] at hstate; exact absurd hstate (by decide)

theorem Tidy.of_upload {s : Session} (h : Tidy s) (hstate : s.state = .upload) :
    s.download = Session.start.download ∧ s.upload.Tidy := by
  rcases h with rfl | ⟨-, hdown, hup⟩ | ⟨hs, -, -⟩
  · exact absurd hstate (by decide)
  · exact ⟨hdown, hup⟩
  · rw [hs] at hstate; exact absurd hstate (by decide)

theorem Tidy.of_download {s : Session} (h : Tidy s) (hstate : s.state = .download) :
    s.upload = Session.start.upload ∧ s.download.Tidy := by
  rcases h with rfl | ⟨hs, -, -⟩ | ⟨-, hup, hdown⟩
  · exact absurd hstate (by decide)
  · rw [hs] at hstate; exact absurd hstate (by decide)
  · exact ⟨hup, hdown⟩

/-! ## What the handlers keep -/

/-- A handler that leaves the books as the pointers of its session say, and opens and closes in
pairs. -/
structure Keeps (s : Session) (h : Handled) : Prop where
  paired : Throughout Effect.Paired (Books.ofSession s) h.effects
  books : (Books.ofSession s).notes h.effects = Books.ofSession h.session

/-- A handler that also uses its pointers, indices and divisors as it may, and leaves a tidy
session. -/
structure Clean (s : Session) (h : Handled) : Prop where
  sound : Throughout Effect.Sound (Books.ofSession s) h.effects
  books : (Books.ofSession s).notes h.effects = Books.ofSession h.session
  tidy : Tidy h.session

theorem Clean.keeps {s : Session} {h : Handled} (hc : Clean s h) : Keeps s h :=
  ⟨(throughout_sound.1 hc.sound).2, hc.books⟩

/-- A handler that opens and closes nothing, and moves no pointer. -/
theorem keeps_neutral {s : Session} {h : Handled} (hes : ∀ e ∈ h.effects, e.Neutral)
    (hs : Books.ofSession h.session = Books.ofSession s) : Keeps s h where
  paired := (throughout_neutral hes).2 fun e he => (hes e he).paired
  books := (notes_neutral hes).trans hs.symm

@[simp] theorem answer_session (s : Session) (es : List Effect) (o : Outcomes) (reply : Reply)
    (ret : Ret) : (answer s es o reply ret).session = s := by
  rw [answer]
  split <;> rfl

/-- The packet that was read, on its way out. -/
theorem answer_effects (s : Session) (es : List Effect) (o : Outcomes) (reply : Reply) (ret : Ret) :
    ∃ e, (answer s es o reply ret).effects = es ++ [e] ∧
      (e = .sent 0 reply ∧ o.send = true ∨ e = .freed 0 ∧ o.send = false) := by
  rw [answer]
  split
  · exact ⟨_, rfl, .inl ⟨rfl, by assumption⟩⟩
  · exact ⟨_, rfl, .inr ⟨rfl, by simpa using ‹¬o.send = true›⟩⟩

theorem notes_answer {b : Books} {s : Session} {es : List Effect} {o : Outcomes} {reply : Reply}
    {ret : Ret} : b.notes (answer s es o reply ret).effects = b.notes es := by
  obtain ⟨e, he, hcases⟩ := answer_effects s es o reply ret
  rw [he, Books.notes_append]
  rcases hcases with ⟨rfl, -⟩ | ⟨rfl, -⟩ <;> rfl

theorem throughout_answer {P : Books → Effect → Prop} (hsent : ∀ b n r, P b (.sent n r))
    (hfreed : ∀ b n, P b (.freed n)) {b : Books} {s : Session} {es : List Effect} {o : Outcomes}
    {reply : Reply} {ret : Ret} :
    Throughout P b (answer s es o reply ret).effects ↔ Throughout P b es := by
  obtain ⟨e, he, hcases⟩ := answer_effects s es o reply ret
  rw [he, throughout_append, throughout_cons]
  rcases hcases with ⟨rfl, -⟩ | ⟨rfl, -⟩
  · exact ⟨fun h => h.1, fun h => ⟨h, hsent _ _ _, trivial⟩⟩
  · exact ⟨fun h => h.1, fun h => ⟨h, hfreed _ _, trivial⟩⟩

/-! ### Uploads -/

theorem clearCells_neutral (cells chunks : Nat) : ∀ e ∈ clearCells cells chunks, e.Neutral := by
  intro e he
  obtain ⟨i, -, rfl⟩ := List.mem_map.1 he
  trivial

theorem clearCells_safe {b : Books} {cells chunks : Nat} (h : cells ≤ chunks) :
    ∀ e ∈ clearCells cells chunks, e.Safe b := by
  intro e he
  obtain ⟨i, hi, rfl⟩ := List.mem_map.1 he
  exact Nat.lt_of_lt_of_le (List.mem_range.1 hi) h

theorem clearCells_sound {b : Books} {cells chunks : Nat} (h : cells ≤ chunks) :
    Throughout Effect.Sound b (clearCells cells chunks) :=
  (throughout_neutral (clearCells_neutral cells chunks)).2 fun e he =>
    ⟨clearCells_safe h e he, (clearCells_neutral cells chunks e he).paired⟩

/-- What `init_upload` comes to, from a session with nothing open. -/
structure Opened.Fits (r : Opened) (chunks : Nat) : Prop where
  sound : Throughout Effect.Sound .empty r.effects
  books : Books.empty.notes r.effects = ⟨decide (r.ret = .ok), r.mapFp, r.mapBuf.isSome, false⟩
  failed : r.ret ≠ .ok → r.mapFp = false ∧ r.mapBuf = none
  tidy : ∀ size chunkSize,
    r.ret = .ok → UploadFile.Tidy ⟨true, r.mapFp, r.mapBuf, size, chunkSize, chunks⟩

/-- What `init_upload` does first: it opens the target. -/
def targetEffects (newFile : Bool) : List Effect :=
  (if newFile then [.targetCreated] else []) ++ [.opened .target]

/-- The books with the target open. -/
def targetOpen : Books := ⟨true, false, false, false⟩

theorem target_opened (newFile : Bool) :
    Throughout Effect.Sound .empty (targetEffects newFile) ∧
      Books.empty.notes (targetEffects newFile) = targetOpen := by
  cases newFile <;> exact ⟨by
    simp [targetEffects, Effect.Sound, Effect.Safe, Effect.Paired, Books.get, Books.empty,
      Books.note], rfl⟩

theorem fits_failed {ret : Ret} {newFile : Bool} {es : List Effect} {chunks : Nat}
    (hret : ret ≠ .ok) (hes : Throughout Effect.Sound targetOpen es)
    (hnotes : targetOpen.notes es = .empty) :
    Opened.Fits ⟨ret, false, none, targetEffects newFile ++ es⟩ chunks where
  sound := by
    rw [throughout_append, (target_opened newFile).2]
    exact ⟨(target_opened newFile).1, hes⟩
  books := by
    rw [Books.notes_append, (target_opened newFile).2, hnotes, decide_eq_false hret]
    rfl
  failed _ := ⟨rfl, rfl⟩
  tidy _ _ h := absurd h hret

theorem fits_mapped {newFile : Bool} {es : List Effect} {chunks : Nat} {cells : List UInt8}
    (hcells : cells.length = chunks) (hes : Throughout Effect.Sound targetOpen es)
    (hnotes : targetOpen.notes es = ⟨true, true, true, false⟩) :
    Opened.Fits ⟨.ok, true, some cells, targetEffects newFile ++ es⟩ chunks where
  sound := by
    rw [throughout_append, (target_opened newFile).2]
    exact ⟨(target_opened newFile).1, hes⟩
  books := by
    rw [Books.notes_append, (target_opened newFile).2, hnotes]
    rfl
  failed h := absurd rfl h
  tidy _ _ _ := .mapped cells rfl rfl rfl hcells

/-- With everything open. -/
def mapOpen : Books := ⟨true, true, true, false⟩

/-- The map as it is opened. -/
def mapEffects : List Effect := [.opened .mapBuf, .opened .map, .used .map true]

/-- Everything is closed. -/
def mapClosed : List Effect := [.closed .target, .closed .map, .closed .mapBuf]

theorem map_opened {es : List Effect} (hes : Throughout Effect.Sound mapOpen es) :
    Throughout Effect.Sound targetOpen (mapEffects ++ es) := by
  rw [throughout_append]
  refine ⟨?_, hes⟩
  simp [mapEffects, targetOpen, Effect.Sound, Effect.Safe, Effect.Paired, Books.note, Books.get,
    Books.set]

theorem map_closed : Throughout Effect.Sound mapOpen mapClosed := by
  simp [mapClosed, mapOpen, Effect.Sound, Effect.Safe, Effect.Paired, Books.note, Books.get,
    Books.set]

/-- The target is closed again before there is a map. -/
theorem buffer_closed : Throughout Effect.Sound targetOpen
    [.opened .mapBuf, .closed .target, .closed .mapBuf] := by
  simp [targetOpen, Effect.Sound, Effect.Safe, Effect.Paired, Books.get, Books.note, Books.set]

/-- The map as it is created. -/
theorem map_created {cells chunks : Nat} (h : cells ≤ chunks) :
    Throughout Effect.Sound mapOpen (.mapCreated cells :: clearCells cells chunks) ∧
      mapOpen.notes (.mapCreated cells :: clearCells cells chunks) = mapOpen := by
  refine ⟨⟨⟨trivial, trivial⟩, clearCells_sound h⟩, ?_⟩
  rw [Books.notes_cons]
  exact notes_neutral (clearCells_neutral cells chunks)

theorem initUpload_fits (chunks : Nat) (o : Outcomes) : (initUpload chunks o).Fits chunks := by
  rw [initUpload]
  dsimp only
  split
  · exact ⟨trivial, rfl, fun _ => ⟨rfl, rfl⟩, fun _ _ h => absurd h (by decide)⟩
  split
  · obtain ⟨hsound, hbooks⟩ := target_opened (!o.openTarget)
    exact ⟨hsound, hbooks, fun h => absurd rfl h, fun _ _ _ => .empty rfl rfl rfl (by assumption)⟩
  split
  · refine fits_failed (by decide) ?_ rfl
    simp [targetOpen, Effect.Sound, Effect.Safe, Effect.Paired, Books.get]
  split
  · split
    · rw [List.append_assoc]
      exact fits_failed (by decide) (map_opened map_closed) rfl
    · rename_i hlen
      exact fits_mapped (not_not.1 hlen) (map_opened trivial) rfl
  split
  · exact @fits_failed .exist false _ _ (by decide) buffer_closed rfl
  split
  · exact @fits_failed .noent _ _ _ (by decide) buffer_closed rfl
  split
  · rename_i hlt
    obtain ⟨hsound, hbooks⟩ := map_created (Nat.le_of_lt hlt)
    rw [List.append_assoc, List.append_assoc]
    refine fits_failed (by decide) (map_opened ?_) ?_
    · rw [throughout_append, hbooks]
      exact ⟨hsound, map_closed⟩
    · rw [Books.notes_append, Books.notes_append]
      exact congrArg (Books.notes · mapClosed) hbooks
  · obtain ⟨hsound, hbooks⟩ := map_created (Nat.le_refl chunks)
    rw [List.append_assoc]
    exact fits_mapped List.length_replicate (map_opened hsound) hbooks

theorem sound_answer {b : Books} {s : Session} {es : List Effect} {o : Outcomes} {reply : Reply}
    {ret : Ret} : Throughout Effect.Sound b (answer s es o reply ret).effects ↔
      Throughout Effect.Sound b es :=
  throughout_answer (fun _ _ _ => ⟨trivial, trivial⟩) fun _ _ => ⟨trivial, trivial⟩

/-- An answer that touches no file. -/
theorem clean_answer {s s' : Session} {o : Outcomes} {reply : Reply} {ret : Ret}
    (hbooks : Books.ofSession s' = Books.ofSession s) (htidy : Tidy s') :
    Clean s (answer s' [] o reply ret) where
  sound := sound_answer.2 trivial
  books := by
    rw [notes_answer, answer_session]
    exact hbooks.symm
  tidy := by
    rw [answer_session]
    exact htidy

theorem uploadRequest_clean {s : Session} (hs : Tidy s) (size : UInt32) (chunkSize : UInt16)
    (o : Outcomes) : Clean s (uploadRequest s size chunkSize o) := by
  rw [uploadRequest]
  dsimp only
  split
  · exact clean_answer rfl hs
  rename_i hidle
  rw [not_not] at hidle
  rw [hs.eq_start hidle]
  split
  · exact clean_answer rfl (.upload rfl rfl (.closed rfl rfl rfl))
  rename_i hsize
  obtain ⟨hsound, hbooks, hfailed, htidy⟩ :=
    initUpload_fits (chunkCount size.toNat chunkSize.toNat) o
  have hdivided : chunkSize.toNat ≠ 0 := fun h => hsize (UInt16.toNat_inj.1 h)
  by_cases hret : (initUpload (chunkCount size.toNat chunkSize.toNat) o).ret = .ok
  · rw [if_pos hret]
    refine ⟨sound_answer.2 ⟨⟨hdivided, trivial⟩, hsound⟩, ?_, ?_⟩
    · rw [notes_answer, answer_session, Books.notes_cons]
      refine hbooks.trans ?_
      rw [decide_eq_true hret]
      rfl
    · rw [answer_session]
      exact .upload rfl rfl (htidy _ _ hret)
  · rw [if_neg hret]
    obtain ⟨hmap, hbuf⟩ := hfailed hret
    refine ⟨sound_answer.2 ⟨⟨hdivided, trivial⟩, hsound⟩, ?_, ?_⟩
    · rw [notes_answer, answer_session, Books.notes_cons]
      refine hbooks.trans ?_
      rw [decide_eq_false hret, hmap, hbuf]
      rfl
    · rw [answer_session]
      exact .upload rfl rfl (.closed rfl rfl rfl)

/-- A packet that is dropped before anything has happened. -/
theorem clean_drop {s : Session} (hs : Tidy s) (ret : Ret) : Clean s (dropData s [] ret) :=
  ⟨⟨⟨trivial, trivial⟩, trivial⟩, rfl, hs⟩

/-- An upload with an open target and chunks has a map for them. -/
theorem UploadFile.Tidy.map_of_fp {file : UploadFile} (h : file.Tidy) (hfp : file.fp = true)
    {chunk : Nat} (hchunk : chunk < file.chunks) :
    file.mapFp = true ∧ ∃ cells, file.mapBuf = some cells ∧ cells.length = file.chunks := by
  rcases h with ⟨hclosed, -, -⟩ | ⟨-, -, -, hchunks⟩ | ⟨cells, -, hmap, hbuf, hchunks⟩
  · rw [hfp] at hclosed; exact absurd hclosed (by decide)
  · omega
  · exact ⟨hmap, cells, hbuf, hchunks⟩

theorem dataHandler_clean {s : Session} (hs : Tidy s) (chunk : UInt32) (bytes : List UInt8)
    (o : Outcomes) : Clean s (dataHandler s chunk bytes o) := by
  rw [dataHandler]
  dsimp only
  split
  · exact clean_drop hs _
  rename_i hstate
  split
  · exact clean_drop hs _
  rename_i hchunk
  split
  · exact clean_drop hs _
  split
  · exact clean_drop hs _
  rename_i hfp
  rw [not_not] at hstate hfp
  rw [Nat.not_le] at hchunk
  obtain ⟨hdown, hup⟩ := hs.of_upload hstate
  obtain ⟨hmap, cells, hbuf, hlen⟩ := hup.map_of_fp hfp hchunk
  split
  · exact ⟨⟨⟨⟨rfl, hfp⟩, trivial⟩, ⟨trivial, trivial⟩, trivial⟩, rfl, hs⟩
  split
  · exact ⟨⟨⟨⟨rfl, hfp⟩, trivial⟩, ⟨trivial, trivial⟩, ⟨⟨hmap, hmap⟩, trivial⟩, ⟨trivial, trivial⟩,
      trivial⟩, rfl, hs⟩
  rw [hbuf]
  refine ⟨⟨⟨⟨rfl, hfp⟩, trivial⟩, ⟨trivial, trivial⟩, ⟨⟨hmap, hmap⟩, trivial⟩, ⟨trivial, trivial⟩,
    ⟨⟨rfl, ?_⟩, trivial⟩, ⟨?_, trivial⟩, ⟨trivial, trivial⟩, trivial⟩, ?_, ?_⟩
  · exact congrArg Option.isSome hbuf
  · exact hlen ▸ hchunk
  · rw [dropData, notes_neutral (by simp [Effect.Neutral]), Books.ofSession, hbuf]
    rfl
  · exact .upload hstate hdown (.mapped _ hfp hmap rfl ((List.length_set).trans hlen))

/-- A download that fails after its file was opened: the file is closed again. -/
theorem clean_closed {file : DownloadFile} (hfp : file.fp = false) (hchunks : file.chunks = 0)
    {o : Outcomes} {reply : Reply} {ret : Ret} :
    Clean .start (answer { Session.start with state := .download, download := file }
      [.opened .source, .used .source true, .closed .source] o reply ret) where
  sound := by
    refine sound_answer.2 ?_
    simp [Effect.Sound, Effect.Safe, Effect.Paired, Books.ofSession, Books.get, Books.note,
      Books.set, Session.start]
  books := by
    rw [notes_answer, answer_session]
    exact congrArg (Books.mk false false false) hfp.symm
  tidy := by
    rw [answer_session]
    exact .download rfl rfl (.closed hfp hchunks)

theorem downloadRequest_clean {s : Session} (hs : Tidy s) (chunkSize : UInt16)
    (memAddr memSize : UInt32) (o : Outcomes) :
    Clean s (downloadRequest s chunkSize memAddr memSize o) := by
  rw [downloadRequest]
  dsimp only
  split
  · exact clean_answer rfl hs
  rename_i hidle
  rw [not_not] at hidle
  rw [hs.eq_start hidle]
  split
  · exact clean_answer rfl (.download rfl rfl (.closed rfl rfl))
  split
  · exact clean_closed rfl rfl
  split
  · exact clean_closed rfl rfl
  rename_i hsize
  split
  · exact clean_closed rfl rfl
  have hdivided : chunkSize.toNat ≠ 0 := fun h => hsize (UInt16.toNat_inj.1 h)
  refine ⟨sound_answer.2 ?_, ?_, ?_⟩
  · exact ⟨⟨trivial, rfl⟩, ⟨⟨rfl, rfl⟩, trivial⟩, ⟨hdivided, trivial⟩, ⟨⟨rfl, rfl⟩, trivial⟩,
      trivial⟩
  · rw [notes_answer, answer_session]
    rfl
  · rw [answer_session]
    exact .download rfl rfl (.opened rfl hdivided)

/-! ### Status requests, CRC requests and status replies -/

theorem scanEffects_neutral (file : UploadFile) : ∀ e ∈ scanEffects file, e.Neutral := by
  intro e he
  rcases List.mem_append.1 he with he | he
  · obtain ⟨i, -, he⟩ := List.mem_flatMap.1 he
    rcases List.mem_pair.1 he with rfl | rfl <;> trivial
  · obtain ⟨i, -, rfl⟩ := List.mem_map.1 he
    trivial

/-- An answer after effects that open and close nothing. -/
theorem keeps_answered {s : Session} {es : List Effect} (hes : ∀ e ∈ es, e.Neutral) {o : Outcomes}
    {reply : Reply} {ret : Ret} : Keeps s (answer s es o reply ret) where
  paired := (throughout_answer (fun _ _ _ => trivial) fun _ _ => trivial).2
    ((throughout_neutral hes).2 fun e he => (hes e he).paired)
  books := by rw [notes_answer, answer_session, notes_neutral hes]

theorem statusRequest_keeps (s : Session) (o : Outcomes) : Keeps s (statusRequest s o) := by
  rw [statusRequest]
  split
  · exact keeps_answered (by simp)
  · exact keeps_answered (scanEffects_neutral s.upload)

theorem statusRequest_session (s : Session) (o : Outcomes) : (statusRequest s o).session = s := by
  rw [statusRequest]
  split <;> exact answer_session s _ o _ _

theorem crcRequest_keeps (s : Session) (o : Outcomes) : Keeps s (crcRequest s o) := by
  rw [crcRequest]
  split <;> exact keeps_answered (by simp [Effect.Neutral])

theorem crcRequest_session (s : Session) (o : Outcomes) : (crcRequest s o).session = s := by
  rw [crcRequest]
  split <;> exact answer_session s _ o _ _

end Ftp
end FlightApps
