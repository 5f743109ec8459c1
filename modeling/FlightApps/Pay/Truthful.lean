import FlightApps.Pay.Download

/-!
# A download says the truth

A download from the start stores each part once, and the totals follow the file (`Loading`).  So
when it reports success the file is what the payload has, as far as the CRCs and the size tell
(`download_truthful`).

`Quiet` is what all calls keep that only talk to the payload about a part.
-/

set_option autoImplicit false

namespace FlightApps
namespace Pay

open Script

/-- The world in which only the file functions tell the truth. -/
def honest : World Call Call.Reply Scene := ⟨Scene.Honest, Scene.next⟩

/-- A start, with nothing said yet. -/
def Scene.start (d : Disk) : Scene := ⟨d, Notes.fresh, []⟩

def Event.IsReport (e : Event) : Prop :=
  match e.call with
  | .report .. => True
  | _ => False

/-- No report has been sent. -/
def Unreported (log : List Event) : Prop := ∀ e ∈ log, ¬e.IsReport

theorem Unreported.snoc {log : List Event} (h : Unreported log) {e : Event} (he : ¬e.IsReport) :
    Unreported (log ++ [e]) := by
  intro e' hmem
  rcases List.mem_append.1 hmem with hmem | hmem
  · exact h e' hmem
  · rw [List.mem_singleton.1 hmem]
    exact he

/-! ## Talking about a part -/

/-- The questions about a part. -/
def Asks : Call → Prop
  | .fetch .ftPartReady | .fetch .ftPartSize | .fetch .ftPartCrc32 => True
  | .fetchI2cAddr | .i2cRead .. | .serialRead _ => True
  | _ => False

/-- What is noted besides what was said about a part. -/
structure Notes.Same (n n' : Notes) : Prop where
  stored : n'.stored = n.stored
  npart : n'.npart = n.npart
  fileSize : n'.fileSize = n.fileSize
  part : n'.part = n.part

theorem Notes.Same.refl (n : Notes) : n.Same n := ⟨rfl, rfl, rfl, rfl⟩

theorem Notes.Same.trans {n m k : Notes} (h : n.Same m) (h' : m.Same k) : n.Same k :=
  ⟨h'.stored.trans h.stored, h'.npart.trans h.npart, h'.fileSize.trans h.fileSize,
    h'.part.trans h.part⟩

theorem Notes.same_note (n : Notes) {c : Call} (hc : Asks c) (r : c.Reply) : n.Same (n.note c r) := by
  cases c with
  | fetch p =>
    show n.Same (if r.1 = success then n.fetched r.2 p else n)
    split
    · cases p <;> first | exact absurd hc id | exact ⟨rfl, rfl, rfl, rfl⟩
    · exact .refl n
  | fetchI2cAddr => exact .refl n
  | i2cRead addr size =>
    show n.Same (if r.1 = success then { n with received := bytesOf size r.2 } else n)
    split
    · exact ⟨rfl, rfl, rfl, rfl⟩
    · exact .refl n
  | serialRead first =>
    show n.Same (if r.1 = success then { n with received := _ } else n)
    split
    · exact ⟨rfl, rfl, rfl, rfl⟩
    · exact .refl n
  | _ => exact absurd hc id

/-- What is kept while the payload is asked about a part. -/
structure Quiet (s s' : Scene) : Prop where
  disk : s'.disk = s.disk
  notes : s.notes.Same s'.notes
  log : Unreported s.log → Unreported s'.log

namespace Quiet

variable {s t u : Scene}

theorem refl (s : Scene) : Quiet s s := ⟨rfl, .refl _, id⟩

theorem trans (h : Quiet s t) (h' : Quiet t u) : Quiet s u :=
  ⟨h'.disk.trans h.disk, h.notes.trans h'.notes, h'.log ∘ h.log⟩

theorem next (s : Scene) {c : Call} (hc : Asks c) (r : c.Reply) : Quiet s (s.next c r) := by
  refine ⟨?_, s.notes.same_note hc r, fun h => h.snoc ?_⟩
  · cases c <;> first | rfl | exact absurd hc id
  · cases c <;> first | exact id | exact absurd hc id

end Quiet

/-! ## Reading a part -/

/-- What was received has what is written, and the CRCs are those of it, on I2C also together with
the padding. -/
def Reads : Link → List UInt8 → List UInt8 → UInt32 → UInt32 → Prop
  | .i2c, received, block, crc, validCrc =>
    ∃ junk padding, received = junk :: (block ++ padding) ∧
      crc = calculateCRC32 (block ++ padding) ∧ (validCrc = calculateCRC32 block ∨ validCrc = crc)
  | .rs422, received, block, crc, validCrc =>
    ∃ header rest, header.length = rs422HeaderSize ∧ received = header ++ block ++ rest ∧
      crc = calculateCRC32 block ∧ validCrc = crc

def Part.Reads (link : Link) (received : List UInt8) : Part → Prop
  | .got block crc validCrc => Pay.Reads link received block crc validCrc
  | _ => True

/-- What comes of reading a part. -/
def PartRead (link : Link) (s : Scene) (p : Part) (s' : Scene) : Prop :=
  Quiet s s' ∧ p.Reads link s'.notes.received

theorem wp_readExpI2CChunk (handle : Bool) (size : Nat) (s : Scene) :
    wp honest (fun r s' => Quiet s s' ∧
      (r.1 = success → s'.notes.received = r.2 ∧ r.2.length = size))
      (readExpI2CChunk handle size) s := by
  rw [readExpI2CChunk]
  split
  · exact ⟨.refl s, fun h => absurd h (by decide)⟩
  rintro ⟨status, addr⟩ -
  have haddr := Quiet.next (c := .fetchI2cAddr) s trivial (status, addr)
  dsimp only
  split
  · rename_i hstatus
    exact ⟨haddr, fun h => absurd h hstatus⟩
  rintro ⟨status', bytes⟩ -
  refine ⟨haddr.trans (.next (c := .i2cRead addr size) _ trivial _), fun h => ?_⟩
  obtain rfl : status' = success := h
  refine ⟨rfl, ?_⟩
  show (Notes.bytesOf size bytes).length = size
  rw [Notes.bytesOf, List.length_map, List.length_range]

theorem wp_readPartI2C (handle : Bool) (chunkSize expectedFileSize i npart partSize : UInt32)
    (s : Scene) : wp honest (PartRead .i2c s)
      (readPartI2C handle chunkSize expectedFileSize i npart partSize) s := by
  rw [readPartI2C]
  split
  · exact ⟨.refl s, trivial⟩
  rename_i hsize
  split
  · exact ⟨.refl s, trivial⟩
  dsimp only
  generalize (if partSize < expectedFileSize - i * chunkSize then partSize
    else expectedFileSize - i * chunkSize) = valid
  split
  · exact ⟨.refl s, trivial⟩
  rw [wp_bind]
  refine wp_mono (wp_readExpI2CChunk handle _ s) ?_
  rintro ⟨status, bytes⟩ s' ⟨hquiet, hread⟩
  dsimp only
  split
  · exact ⟨hquiet, trivial⟩
  rename_i hstatus
  obtain ⟨hreceived, hlen⟩ := hread (not_not.1 hstatus)
  refine ⟨hquiet, ?_⟩
  have hlt : partSize.toNat < 1024 :=
    Nat.lt_of_not_le fun hle => hsize (Or.inr (Or.inr hle))
  have hsum : (partSize + 1).toNat = partSize.toNat + 1 := by
    rw [UInt32.toNat_add]
    exact Nat.mod_eq_of_lt (by rw [UInt32.toNat_one]; omega)
  obtain ⟨junk, chunk, rfl⟩ : ∃ junk chunk, bytes = junk :: chunk :=
    List.exists_cons_of_length_eq_add_one (hlen.trans hsum)
  have hchunk : chunk.length = partSize.toNat :=
    Nat.succ.inj (hlen.trans hsum)
  rw [List.drop_one, List.tail_cons, ← hchunk, List.take_length]
  refine ⟨junk, chunk.drop valid.toNat, ?_, ?_, ?_⟩
  · rw [List.take_append_drop]
    exact hreceived
  · rw [List.take_append_drop]
  · split
    · exact Or.inl rfl
    · exact Or.inr rfl

/-- What has been received before: a command begins anew. -/
def heardBefore (command : Bool) (offset n : Nat) (received : List UInt8) : List UInt8 :=
  if command = true ∧ offset = 0 ∧ n ≠ 0 then [] else received

theorem wp_readExpRS422Bytes (command : Bool) (offset n : Nat) (s : Scene) :
    wp honest (fun r s' => Quiet s s' ∧ (r.1 = success → r.2.length = n ∧
      s'.notes.received = heardBefore command offset n s.notes.received ++ r.2))
      (readExpRS422Bytes command offset n) s := by
  induction n generalizing offset s with
  | zero =>
    refine ⟨.refl s, fun _ => ⟨rfl, ?_⟩⟩
    rw [heardBefore, if_neg fun h => h.2.2 rfl, List.append_nil]
  | succ n ih =>
    rintro ⟨status, b⟩ -
    have hfirst := Quiet.next (c := .serialRead (command && offset = 0)) s trivial (status, b)
    dsimp only
    split
    · rename_i hstatus
      exact ⟨hfirst, fun h => absurd h hstatus⟩
    rename_i hstatus
    obtain rfl : status = success := not_not.1 hstatus
    rw [wp_bind]
    refine wp_mono (ih (offset + 1) _) ?_
    rintro ⟨status', bytes⟩ s' ⟨hquiet, hread⟩
    refine ⟨hfirst.trans hquiet, fun h => ?_⟩
    obtain ⟨hlen, hreceived⟩ := hread h
    refine ⟨congrArg Nat.succ hlen, ?_⟩
    rw [hreceived, heardBefore, heardBefore, if_neg fun h => Nat.succ_ne_zero offset h.2.1]
    show (if (command && decide (offset = 0)) = true then [b] else s.notes.received ++ [b]) ++ bytes
      = _
    by_cases hnew : command = true ∧ offset = 0
    · rw [if_pos (by rw [Bool.and_eq_true, decide_eq_true_eq]; exact hnew),
        if_pos ⟨hnew.1, hnew.2, Nat.succ_ne_zero n⟩]
      rfl
    · rw [if_neg (by rw [Bool.and_eq_true, decide_eq_true_eq]; exact hnew),
        if_neg fun h => hnew ⟨h.1, h.2.1⟩, List.append_assoc]
      rfl

theorem wp_readExpRS422Chunk (handle : Bool) (size : Nat) (s : Scene) :
    wp honest (fun r s' => Quiet s s' ∧ (r.1 = success → s'.notes.received = r.2 ∧
      r.2.length = rs422OverheadSize + (be16 r.2 3 - 2).toNat))
      (readExpRS422Chunk handle size) s := by
  rw [readExpRS422Chunk]
  split
  · exact ⟨.refl s, fun h => absurd h (by decide)⟩
  rw [wp_bind]
  refine wp_mono (wp_readExpRS422Bytes true 0 rs422HeaderSize s) ?_
  rintro ⟨status, header⟩ s' ⟨hquiet, hread⟩
  dsimp only
  split
  · rename_i hstatus
    exact ⟨hquiet, fun h => absurd h hstatus⟩
  rename_i hstatus
  obtain ⟨hlen, hheader⟩ := hread (not_not.1 hstatus)
  split
  · exact ⟨hquiet, fun h => absurd h (by decide)⟩
  split
  · exact ⟨hquiet, fun h => absurd h (by decide)⟩
  rw [wp_bind]
  refine wp_mono (wp_readExpRS422Bytes false 0 _ s') ?_
  rintro ⟨status', rest⟩ s'' ⟨hquiet', hread'⟩
  refine ⟨hquiet.trans hquiet', fun h => ?_⟩
  obtain ⟨hlen', hrest⟩ := hread' h
  have hframe : be16 (header ++ rest) 3 = be16 header 3 := by
    rw [be16, be16, List.getD_append _ _ _ _ (by rw [hlen]; decide),
      List.getD_append _ _ _ _ (by rw [hlen]; decide)]
  refine ⟨?_, ?_⟩
  · rw [hrest, heardBefore, if_neg (fun h => Bool.noConfusion h.1), hheader, heardBefore,
      if_pos ⟨rfl, rfl, by decide⟩]
    rfl
  · show (header ++ rest).length = _
    rw [List.length_append, hlen, hlen', hframe]
    show 7 + (_ + 1) = 7 + 1 + _
    omega

theorem parseRS422_reads (i npart partSize : UInt32) (frame : List UInt8)
    (hlen : frame.length = rs422OverheadSize + (be16 frame 3 - 2).toNat) :
    (parseRS422 i npart partSize frame).Reads .rs422 frame := by
  rw [parseRS422]
  split
  · trivial
  dsimp only
  split
  · trivial
  split
  · trivial
  split
  · trivial
  split
  · trivial
  generalize hchunk : (frame.drop rs422HeaderSize).take (be16 frame 3 - 2).toNat = chunk
  refine ⟨frame.take rs422HeaderSize,
    chunk.drop partSize.toNat ++ frame.drop (rs422HeaderSize + (be16 frame 3 - 2).toNat), ?_, ?_,
    rfl, rfl⟩
  · rw [List.length_take, hlen]
    exact Nat.min_eq_left (by show 7 ≤ 7 + 1 + _; omega)
  · rw [← List.append_assoc, List.append_assoc (frame.take _), List.take_append_drop, ← hchunk,
      List.append_assoc, ← List.drop_drop, List.take_append_drop, List.take_append_drop]

theorem wp_readPartRS422 (handle : Bool) (chunkSize expectedFileSize i npart partSize : UInt32)
    (s : Scene) : wp honest (PartRead .rs422 s)
      (readPartRS422 handle chunkSize expectedFileSize i npart partSize) s := by
  rw [readPartRS422]
  split
  · exact ⟨.refl s, trivial⟩
  rw [wp_bind]
  refine wp_mono (wp_readExpRS422Chunk handle _ s) ?_
  rintro ⟨status, frame⟩ s' ⟨hquiet, hread⟩
  dsimp only
  split
  · exact ⟨hquiet, trivial⟩
  rename_i hstatus
  obtain ⟨hreceived, hlen⟩ := hread (not_not.1 hstatus)
  refine ⟨hquiet, ?_⟩
  rw [hreceived]
  exact parseRS422_reads i npart partSize frame hlen

theorem wp_readPart (link : Link) (handle : Bool)
    (chunkSize expectedFileSize i npart partSize : UInt32) (s : Scene) :
    wp honest (PartRead link s)
      (readPart link handle chunkSize expectedFileSize i npart partSize) s := by
  cases link with
  | i2c => exact wp_readPartI2C handle chunkSize expectedFileSize i npart partSize s
  | rs422 => exact wp_readPartRS422 handle chunkSize expectedFileSize i npart partSize s

theorem wp_waitReady (left : Nat) (s : Scene) :
    wp honest (fun _ s' => Quiet s s') (waitReady left) s := by
  induction left generalizing s with
  | zero =>
    rintro ⟨status, ready⟩ -
    exact .next (c := .fetch .ftPartReady) s trivial (status, ready)
  | succ left ih =>
    rintro ⟨status, ready⟩ -
    have hfirst := Quiet.next (c := .fetch .ftPartReady) s trivial (status, ready)
    dsimp only
    split
    · exact hfirst
    split
    · exact wp_mono (ih _) fun _ _ hquiet => hfirst.trans hquiet
    · exact hfirst

/-! ## The file and the totals -/

/-- A part that was stored has the CRC that was read for it, on I2C alone or with its padding. -/
def Stored.Matches (x : Stored) : Link → Prop
  | .i2c => ∃ junk padding, x.received = junk :: (x.block ++ padding) ∧
      (calculateCRC32 x.block = x.crc ∨ calculateCRC32 (x.block ++ padding) = x.crc)
  | .rs422 => ∃ header rest, header.length = rs422HeaderSize ∧
      x.received = header ++ x.block ++ rest ∧ calculateCRC32 x.block = x.crc

theorem Reads.matches {link : Link} {x : Stored} {crc validCrc : UInt32}
    (h : Reads link x.received x.block crc validCrc) (hcrc : ¬(crc ≠ x.crc ∧ validCrc ≠ x.crc)) :
    x.Matches link := by
  have hor : crc = x.crc ∨ validCrc = x.crc := by
    by_contra hnot
    exact hcrc ⟨fun h => hnot (Or.inl h), fun h => hnot (Or.inr h)⟩
  cases link with
  | i2c =>
    obtain ⟨junk, padding, hreceived, hwhole, hvalid⟩ := h
    refine ⟨junk, padding, hreceived, ?_⟩
    rcases hor with heq | heq
    · exact Or.inr (hwhole.symm.trans heq)
    · rcases hvalid with hblock | hsame
      · exact Or.inl (hblock.symm.trans heq)
      · exact Or.inr (hwhole.symm.trans (hsame.symm.trans heq))
  | rs422 =>
    obtain ⟨header, rest, hlen, hreceived, hblock, hsame⟩ := h
    refine ⟨header, rest, hlen, hreceived, hblock.symm.trans ?_⟩
    rcases hor with heq | heq
    · exact heq
    · exact hsame.symm.trans heq

/-- What has been stored, in order. -/
def Notes.data (n : Notes) : List UInt8 := (n.stored.map Stored.block).flatten

theorem Notes.storing_eq {n : Notes} {part crc : UInt32} (hpart : n.part = some part)
    (hcrc : n.partCrc = some crc) (block : List UInt8) :
    n.storing block = { n with stored := n.stored ++ [⟨part, crc, n.received, block⟩] } := by
  rw [storing]
  split
  · rename_i part' crc' hpart' hcrc'
    obtain rfl := Option.some.inj (hpart'.symm.trans hpart)
    obtain rfl := Option.some.inj (hcrc'.symm.trans hcrc)
    rfl
  · rename_i hnone
    exact absurd hcrc (hnone _ _ hpart)

/-- The file has what has been stored, and no more; the parts are the first ones, in order. -/
structure Loading (f : Fixed) (n : Nat) (t : Totals) (s : Scene) : Prop where
  file : s.disk.files f.filepath = some s.notes.data
  path : s.disk.path = f.filepath
  cursor : s.disk.cursor = s.notes.data.length
  crc : t.totalCrc = updateCRC32 0xFFFFFFFF s.notes.data
  parts : s.notes.stored.map Stored.part = (List.range n).map UInt32.ofNat
  matching : ∀ x ∈ s.notes.stored, x.Matches f.link
  npart : s.notes.npart = some f.npart
  fileSize : s.notes.fileSize = some f.expectedFileSize
  log : Unreported s.log

/-- What a `goto FILE_CLEANUP` finds. -/
def Left (v : Vars) (s : Scene) : Prop := v.completed = false ∧ Unreported s.log

/-- What comes of loading chunks, `n` of which are then there. -/
def LoadedTo (f : Fixed) (n : Nat) (r : Loaded) (s : Scene) : Prop :=
  match r with
  | .more t => Loading f n t s
  | .leave v => Left v s

section Loading

variable {f : Fixed} {n : Nat} {t : Totals} {s s' : Scene}

theorem Loading.quiet (h : Loading f n t s) (hquiet : Quiet s s') : Loading f n t s' where
  file := by rw [hquiet.disk, Notes.data, hquiet.notes.stored]; exact h.file
  path := by rw [hquiet.disk]; exact h.path
  cursor := by rw [hquiet.disk, Notes.data, hquiet.notes.stored]; exact h.cursor
  crc := by rw [Notes.data, hquiet.notes.stored]; exact h.crc
  parts := by rw [hquiet.notes.stored]; exact h.parts
  matching := by rw [hquiet.notes.stored]; exact h.matching
  npart := hquiet.notes.npart.trans h.npart
  fileSize := hquiet.notes.fileSize.trans h.fileSize
  log := hquiet.log h.log

theorem Loading.partLoad (h : Loading f n t s) (i : UInt32) (status : Status) :
    Loading f n t (s.next (.set .ftPartLoad i) status) := by
  have hlog : Unreported (s.next (.set .ftPartLoad i) status).log := h.log.snoc id
  have hnotes : (s.next (.set .ftPartLoad i) status).notes =
      if status = success then { s.notes with part := some i, polls := 0 } else s.notes := rfl
  split at hnotes
  · exact ⟨by rw [hnotes]; exact h.file, h.path, by rw [hnotes]; exact h.cursor,
      by rw [hnotes]; exact h.crc, by rw [hnotes]; exact h.parts, by rw [hnotes]; exact h.matching,
      by rw [hnotes]; exact h.npart, by rw [hnotes]; exact h.fileSize, hlog⟩
  · exact ⟨by rw [hnotes]; exact h.file, h.path, by rw [hnotes]; exact h.cursor,
      by rw [hnotes]; exact h.crc, by rw [hnotes]; exact h.parts, by rw [hnotes]; exact h.matching,
      by rw [hnotes]; exact h.npart, by rw [hnotes]; exact h.fileSize, hlog⟩

theorem Loading.close (h : Loading f n t s) (fd : Int) : Loading f n t (s.next (.close fd) ()) :=
  ⟨h.file, h.path, h.cursor, h.crc, h.parts, h.matching, h.npart, h.fileSize, h.log.snoc id⟩

theorem wp_closeIfOpen {α : Type} {Q : α → Scene → Prop} {fd : Int} {c : Task α}
    (hopen : wp honest Q c (s.next (.close fd) ())) (hnone : wp honest Q c s) :
    wp honest Q (closeIfOpen fd c) s := by
  rw [closeIfOpen]
  split
  · exact fun _ _ => hopen
  · exact hnone

/-- The file is opened again at its end. -/
theorem Loading.reopen (h : Loading f n t s) {k : Nat} {status : Status} (hstatus : ¬status < 0)
    (fd : Int) : Loading f n { t with fd := fd }
      ((s.next (.openCreate f.filepath false) (success, k)).next (.lseekEnd k) status) := by
  have hcontent : s.disk.content f.filepath = s.notes.data := by
    rw [Disk.content, h.file]
    rfl
  have hdisk : ((s.next (.openCreate f.filepath false) (success, k)).next
      (.lseekEnd k) status).disk =
      (s.disk.opened f.filepath false).atEnd :=
    if_pos (Int32.not_lt.1 hstatus)
  have hopened : (s.disk.opened f.filepath false).files f.filepath = some s.notes.data := by
    show Function.update s.disk.files f.filepath (some (s.disk.content f.filepath)) f.filepath = _
    rw [Function.update_self, hcontent]
  refine ⟨?_, ?_, ?_, h.crc, h.parts, h.matching, h.npart, h.fileSize, ?_⟩
  · rw [hdisk]
    exact hopened
  · rw [hdisk]
    rfl
  · rw [hdisk]
    show ((s.disk.opened f.filepath false).content f.filepath).length = s.notes.data.length
    rw [Disk.content, hopened]
    rfl
  · exact (h.log.snoc id).snoc id

theorem wp_reopen (h : Loading f n t s) : wp honest (LoadedTo f n) (reopen f t) s := by
  rintro ⟨status, fd⟩ -
  by_cases hstatus : status = success
  · subst hstatus
    dsimp only
    rw [if_neg fun hne => hne rfl]
    rintro status -
    dsimp only
    split
    · have hopened : Unreported (s.next (.openCreate f.filepath false) (success, fd)).log :=
        h.log.snoc fun h => h
      exact ⟨rfl, hopened.snoc fun h => h⟩
    · rename_i hseek
      exact h.reopen hseek fd
  · dsimp only
    rw [if_pos hstatus]
    exact ⟨rfl, h.log.snoc fun h => h⟩

theorem wp_flush (h : Loading f n t s) (i : UInt32) :
    wp honest (LoadedTo f n) (flush f i t) s := by
  rw [flush]
  split
  · exact wp_closeIfOpen (wp_reopen (h.close t.fd)) (wp_reopen h)
  · exact h

/-- A block has been written as a whole. -/
theorem Loading.stores (h : Loading f n t s) {crc : UInt32} {block : List UInt8} {written : Int32}
    (hpart : s.notes.part = some (UInt32.ofNat n)) (hcrc : s.notes.partCrc = some crc)
    (hmatches : Stored.Matches ⟨UInt32.ofNat n, crc, s.notes.received, block⟩ f.link)
    (hwritten : written.toInt = (block.length : Int)) (total : UInt32) :
    Loading f (n + 1) ⟨updateCRC32 t.totalCrc block, total, t.fd⟩
      (s.next (.write t.fd block) written) := by
  have hnotes : (s.next (.write t.fd block) written).notes = { s.notes with
      stored := s.notes.stored ++ [⟨UInt32.ofNat n, crc, s.notes.received, block⟩] } := by
    show (if written.toInt = (block.length : Int) then s.notes.storing block else s.notes) = _
    rw [if_pos hwritten, Notes.storing_eq hpart hcrc]
  have hdata : (s.next (.write t.fd block) written).notes.data = s.notes.data ++ block := by
    rw [hnotes, Notes.data, List.map_append, List.flatten_append]
    exact congrArg (s.notes.data ++ ·) (List.append_nil block)
  have hdisk : (s.next (.write t.fd block) written).disk = s.disk.wrote block := by
    show s.disk.wrote (block.take written.toInt.toNat) = _
    rw [hwritten, Int.toNat_natCast, List.take_length]
  have hcontent : s.disk.content s.disk.path = s.notes.data := by
    rw [Disk.content, h.path, h.file]
    rfl
  refine ⟨?_, ?_, ?_, ?_, ?_, ?_, ?_, ?_, h.log.snoc fun h => h⟩
  · rw [hdisk, hdata, Disk.wrote, hcontent, h.path, h.cursor]
    show Function.update s.disk.files f.filepath _ f.filepath = _
    rw [Function.update_self, List.take_length, List.drop_eq_nil_of_le (Nat.le_add_right _ _),
      List.append_nil]
  · rw [hdisk]
    exact h.path
  · rw [hdisk, hdata, List.length_append]
    exact congrArg (· + block.length) h.cursor
  · rw [hdata, updateCRC32_append, h.crc]
  · rw [hnotes, List.map_append, h.parts, List.range_succ, List.map_append]
    rfl
  · rw [hnotes]
    intro x hx
    rcases List.mem_append.1 hx with hx | hx
    · exact h.matching x hx
    · rw [List.mem_singleton.1 hx]
      exact hmatches
  · rw [hnotes]
    exact h.npart
  · rw [hnotes]
    exact h.fileSize

/-- What comes of storing a chunk: the file has it, or the task has left. -/
theorem wp_store (h : Loading f n t s) {crc : UInt32} {block : List UInt8}
    (hpart : s.notes.part = some (UInt32.ofNat n)) (hcrc : s.notes.partCrc = some crc)
    (hmatches : Stored.Matches ⟨UInt32.ofNat n, crc, s.notes.received, block⟩ f.link) :
    wp honest (LoadedTo f (n + 1)) (store f (UInt32.ofNat n) t block) s := by
  intro written hhonest
  dsimp only
  split
  · exact ⟨rfl, h.log.snoc fun h => h⟩
  rename_i hwhole
  have hnonneg : ¬written.toInt < 0 := fun hneg => hwhole (Or.inl (Int32.lt_iff_toInt_lt.2 hneg))
  have hlen : written.toInt.toNat = block.length := Decidable.not_not.1 fun hne => hwhole (Or.inr hne)
  exact wp_flush (h.stores hpart hcrc hmatches (by omega) _) _

/-- What comes of an attempt at the next part: nothing, the part, or the task has left. -/
def Attempted (f : Fixed) (n : Nat) (t : Totals) (r : Option Loaded) (s : Scene) : Prop :=
  match r with
  | none => Loading f n t s
  | some r => LoadedTo f (n + 1) r s

theorem wp_attempt (h : Loading f n t s) :
    wp honest (Attempted f n t) (attempt f (UInt32.ofNat n) t) s := by
  rintro status -
  have hload := h.partLoad (UInt32.ofNat n) status
  dsimp only
  split
  · exact hload
  rename_i hstatus
  have hpart : (s.next (.set .ftPartLoad (UInt32.ofNat n)) status).notes.part =
      some (UInt32.ofNat n) := by
    show (if status = success then { s.notes with part := some (UInt32.ofNat n), polls := 0 }
      else s.notes).part = _
    rw [if_pos (not_not.1 hstatus)]
  rw [wp_bind]
  refine wp_mono (wp_waitReady 500 _) fun ready s₁ hready => ?_
  split
  · exact hload.quiet hready
  rintro ⟨status, partSize⟩ -
  have hsize := hready.trans (.next (c := .fetch .ftPartSize) s₁ trivial (status, partSize))
  dsimp only
  split
  · exact hload.quiet hsize
  rw [wp_bind]
  refine wp_mono (wp_readPart f.link f.handle _ _ _ _ _ _) fun part s₂ ⟨hquiet, hread⟩ => ?_
  have hquiet := hsize.trans hquiet
  cases part with
  | retry => exact hload.quiet hquiet
  | leave status => exact ⟨rfl, hquiet.log hload.log⟩
  | got block crc validCrc =>
    rintro ⟨status, partCrc⟩ -
    have hcrc := hquiet.trans (.next (c := .fetch .ftPartCrc32) s₂ trivial (status, partCrc))
    dsimp only
    split
    · exact ⟨rfl, hcrc.log hload.log⟩
    rename_i hstatus
    obtain rfl : status = success := not_not.1 hstatus
    split
    · exact hload.quiet hcrc
    rename_i hright
    rw [wp_bind]
    exact wp_store (hload.quiet hcrc) (hcrc.notes.part.trans hpart) rfl
      (Reads.matches (x := ⟨UInt32.ofNat n, partCrc, _, block⟩) hread hright)

theorem wp_loadChunk (left : Nat) (h : Loading f n t s) :
    wp honest (LoadedTo f (n + 1)) (loadChunk f (UInt32.ofNat n) t left) s := by
  induction left generalizing s with
  | zero => exact ⟨rfl, h.log⟩
  | succ left ih =>
    rw [loadChunk, wp_bind]
    refine wp_mono (wp_attempt h) fun r s' hr => ?_
    cases r with
    | none => exact ih hr
    | some r => exact hr

theorem wp_loadChunks (left : Nat) (h : Loading f n t s) :
    wp honest (LoadedTo f (n + left)) (loadChunks f left (UInt32.ofNat n) t) s := by
  induction left generalizing s n t with
  | zero => exact h
  | succ left ih =>
    rw [loadChunks, wp_bind]
    refine wp_mono (wp_loadChunk 4 h) fun r s' hr => ?_
    cases r with
    | leave v => exact hr
    | more t' =>
      have hnext : UInt32.ofNat n + 1 = UInt32.ofNat (n + 1) := (UInt32.ofNat_add n 1).symm
      show wp honest _ (loadChunks f left (UInt32.ofNat n + 1) t') s'
      rw [hnext, Nat.add_left_comm, Nat.add_comm left]
      exact ih hr

end Loading

/-! ## What a report of success means -/

/-- The file is what the payload has said that it is. -/
structure Complete (link : Link) (path : Path) (size : UInt32) (s : Scene) : Prop where
  file : s.disk.files path = some s.notes.data
  parts : ∃ npart, s.notes.npart = some npart ∧
    s.notes.stored.map Stored.part = (List.range npart.toNat).map UInt32.ofNat
  matching : ∀ x ∈ s.notes.stored, x.Matches link
  size : s.notes.fileSize = some size ∧ s.notes.data.length = size.toNat
  crc : s.notes.fileCrc = some (calculateCRC32 s.notes.data)

/-- Success is reported only of a complete file. -/
def TellsTruth (link : Link) (s : Scene) : Prop :=
  ∀ path size deviceError, ⟨.report success link path size deviceError, ()⟩ ∈ s.log →
    Complete link path size s

section Ending

variable {link : Link} {v : Vars} {s : Scene}

theorem wp_taskExit (hlog : Unreported s.log)
    (hcomplete : v.completed = true → Complete link v.filepath v.expectedFileSize s) :
    wp honest (fun _ => TellsTruth link) (taskExit link v) s := by
  intro _ _ path size deviceError hmem
  rcases List.mem_append.1 hmem with hmem | hmem
  · exact absurd trivial (hlog _ hmem)
  have hcall := congrArg Event.call (List.mem_singleton.1 hmem)
  obtain ⟨hstatus, -, rfl, rfl, -⟩ := Call.report.inj hcall
  have hdone : v.completed = true := by
    by_contra hnot
    rw [if_neg hnot] at hstatus
    split at hstatus
    · exact absurd hstatus (by decide)
    · rename_i hne
      exact hne hstatus.symm
  obtain ⟨hfile, hparts, hmatches, hsize, hcrc⟩ := hcomplete hdone
  exact ⟨hfile, hparts, hmatches, hsize, hcrc⟩

theorem wp_fileCleanup (hlog : Unreported s.log)
    (hcomplete : v.completed = true → Complete link v.filepath v.expectedFileSize s) :
    wp honest (fun _ => TellsTruth link) (fileCleanup link v) s := by
  have hrelease : ∀ s, Unreported s.log →
      (v.completed = true → Complete link v.filepath v.expectedFileSize s) →
      ∀ releaseStatus, wp honest (fun _ => TellsTruth link)
        (taskExit link (if releaseStatus ≠ success ∧ v.completed = true then
          { v with completed := false, status := releaseStatus } else v))
        (s.next (.set .ftRelease 1) releaseStatus) := by
    intro s hlog hcomplete releaseStatus
    have hlog' : Unreported (s.next (.set .ftRelease 1) releaseStatus).log := hlog.snoc fun h => h
    split
    · exact wp_taskExit hlog' fun h => Bool.noConfusion h
    · refine wp_taskExit hlog' fun h => ?_
      obtain ⟨hfile, hparts, hmatches, hsize, hcrc⟩ := hcomplete h
      exact ⟨hfile, hparts, hmatches, hsize, hcrc⟩
  refine wp_closeIfOpen ?_ ?_
  · intro releaseStatus _
    refine hrelease (s.next (.close v.fd) ()) (hlog.snoc fun h => h) (fun h => ?_) releaseStatus
    obtain ⟨hfile, hparts, hmatches, hsize, hcrc⟩ := hcomplete h
    exact ⟨hfile, hparts, hmatches, hsize, hcrc⟩
  · intro releaseStatus _
    exact hrelease s hlog hcomplete releaseStatus

theorem Left.cleanup (h : Left v s) :
    wp honest (fun _ => TellsTruth link) (fileCleanup link v) s :=
  wp_fileCleanup h.2 fun hdone => Bool.noConfusion (h.1.symm.trans hdone)

end Ending

section Checking

variable {f : Fixed} {t : Totals} {s : Scene}

theorem wp_checkSize (h : Loading f f.npart.toNat t s)
    (hcrc : s.notes.fileCrc = some (calculateCRC32 s.notes.data)) (startChunk : UInt32)
    (status : Status) :
    wp honest (fun _ => TellsTruth f.link) (checkSize f startChunk t status) s := by
  have hstat : ∀ s, Loading f f.npart.toNat t s →
      s.notes.fileCrc = some (calculateCRC32 s.notes.data) →
      ∀ r, Scene.Honest s (.stat f.filepath) r → wp honest (fun _ => TellsTruth f.link)
        (fileCleanup f.link
          (if r.1 ≠ success then { f.vars (-1) status true with status := r.1, deviceError := false }
          else if r.2 ≠ f.expectedFileSize.toNat ∨
              (startChunk = 0 ∧ t.totalWritten ≠ f.expectedFileSize) then
            { f.vars (-1) status true with status := externalResourceFail }
          else { f.vars (-1) status true with completed := true })) (s.next (.stat f.filepath) r) := by
    intro s h hcrc r hhonest
    have hlog : Unreported (s.next (.stat f.filepath) r).log := h.log.snoc fun h => h
    split
    · exact Left.cleanup ⟨rfl, hlog⟩
    rename_i hstatus
    split
    · exact Left.cleanup ⟨rfl, hlog⟩
    rename_i hsize
    refine wp_fileCleanup hlog fun _ => ?_
    have hlen : r.2 = (s.disk.content f.filepath).length := hhonest (not_not.1 hstatus)
    have hcontent : s.disk.content f.filepath = s.notes.data := by
      rw [Disk.content, h.file]
      rfl
    refine ⟨h.file, ⟨f.npart, h.npart, h.parts⟩, h.matching, ⟨h.fileSize, ?_⟩, hcrc⟩
    show s.notes.data.length = f.expectedFileSize.toNat
    rw [← hcontent, ← hlen]
    exact not_not.1 fun hne => hsize (Or.inl hne)
  refine wp_closeIfOpen ?_ ?_
  · exact fun r hr => hstat _ (h.close t.fd) hcrc r hr
  · exact fun r hr => hstat s h hcrc r hr

theorem wp_checkFile (h : Loading f f.npart.toNat t s) :
    wp honest (fun _ => TellsTruth f.link) (checkFile f 0 t) s := by
  rw [checkFile, if_pos rfl]
  rintro ⟨status, fileCrc⟩ -
  have hlog : Unreported (s.next (.fetch .ftFileCrc32) (status, fileCrc)).log :=
    h.log.snoc fun h => h
  dsimp only
  split
  · exact Left.cleanup ⟨rfl, hlog⟩
  rename_i hstatus
  obtain rfl : status = success := not_not.1 hstatus
  split
  · exact Left.cleanup ⟨rfl, hlog⟩
  rename_i hcrc
  refine wp_checkSize (s := s.next (.fetch .ftFileCrc32) (success, fileCrc)) ⟨h.file, h.path,
    h.cursor, h.crc, h.parts, h.matching, h.npart, h.fileSize, hlog⟩ ?_ 0 success
  show some fileCrc = some (calculateCRC32 s.notes.data)
  rw [calculateCRC32, ← h.crc]
  exact congrArg some (not_not.1 hcrc).symm

end Checking

/-! ## From the start -/

section Starting

variable {s : Scene}

/-- Nothing is there yet, but the file and the number of its parts. -/
structure Empty (npart : UInt32) (path : Path) (s : Scene) : Prop where
  file : s.disk.files path = some []
  path : s.disk.path = path
  cursor : s.disk.cursor = 0
  stored : s.notes.stored = []
  npart : s.notes.npart = some npart
  log : Unreported s.log

theorem wp_transfer {npart : UInt32} {path : Path} (h : Empty npart path s) (link : Link)
    (handle : Bool) (chunkSize : UInt32) (fd : Int) :
    wp honest (fun _ => TellsTruth link) (transfer link handle chunkSize npart 0 path fd) s := by
  rintro ⟨status, expectedFileSize⟩ -
  have hlog : Unreported (s.next (.fetch .ftFileSize) (status, expectedFileSize)).log :=
    h.log.snoc fun h => h
  dsimp only
  split
  · exact Left.cleanup ⟨rfl, hlog⟩
  rename_i hstatus
  obtain rfl : status = success := not_not.1 hstatus
  have hdata : (s.next (.fetch .ftFileSize) (success, expectedFileSize)).notes.data = [] := by
    show (s.notes.stored.map Stored.block).flatten = []
    rw [h.stored]
    rfl
  have hstored : (s.next (.fetch .ftFileSize) (success, expectedFileSize)).notes.stored = [] :=
    h.stored
  have hloading : Loading ⟨link, handle, chunkSize, npart, path, expectedFileSize⟩ 0
      ⟨0xFFFFFFFF, 0, fd⟩ (s.next (.fetch .ftFileSize) (success, expectedFileSize)) :=
    ⟨by rw [hdata]; exact h.file, h.path, by rw [hdata]; exact h.cursor, by rw [hdata]; rfl,
      by rw [hstored]; rfl, fun x hx => absurd (hstored ▸ hx) List.not_mem_nil, h.npart, rfl, hlog⟩
  rw [wp_bind]
  refine wp_mono (wp_loadChunks (npart - 0).toNat hloading) fun r s' hr => ?_
  cases r with
  | more t =>
    rw [UInt32.sub_zero, Nat.zero_add] at hr
    exact wp_checkFile hr
  | leave v => exact Left.cleanup hr

theorem wp_openFile {npart : UInt32} (hlog : Unreported s.log) (hnpart : s.notes.npart = some npart)
    (hstored : s.notes.stored = []) (link : Link) (handle : Bool) (chunkSize : UInt32)
    (path : Path) :
    wp honest (fun _ => TellsTruth link) (openFile link handle chunkSize npart 0 path) s := by
  rintro ⟨status, fd⟩ -
  have hlog' : Unreported (s.next (.openCreate path true) (status, fd)).log := hlog.snoc fun h => h
  by_cases hstatus : status = success
  · subst hstatus
    exact wp_transfer (s := s.next (.openCreate path true) (success, fd))
      ⟨Function.update_self .., rfl, rfl, hstored, hnpart, hlog'⟩ link handle chunkSize fd
  · dsimp only
    rw [if_pos hstatus]
    exact Left.cleanup ⟨rfl, hlog'⟩

theorem wp_downloadChildTask (d : Disk) (link : Link) (handle : Bool) (fileIndex : UInt32) :
    wp honest (fun _ => TellsTruth link) (downloadChildTask link handle fileIndex 0)
      (.start d) := by
  have hexit : ∀ s v, Unreported s.log → v.completed = false →
      wp honest (fun _ => TellsTruth link) (taskExit link v) s :=
    fun s v hlog hv => wp_taskExit hlog fun hdone => Bool.noConfusion (hv.symm.trans hdone)
  have hlog : Unreported (Scene.start d).log := fun _ hmem => absurd hmem List.not_mem_nil
  rintro ⟨status, chunkSize⟩ -
  have hstored : ((Scene.start d).next (.fetch .ftChunkSize) (status, chunkSize)).notes.stored =
      [] := by
    show (if status = success then Notes.fresh.fetched chunkSize .ftChunkSize
      else Notes.fresh).stored = []
    split
    · rfl
    · rfl
  generalize hs₁ : (Scene.start d).next (.fetch .ftChunkSize) (status, chunkSize) = s₁ at hstored
  have hlog₁ : Unreported s₁.log := hs₁ ▸ hlog.snoc fun h => h
  show wp honest _ _ ((Scene.start d).next (.fetch .ftChunkSize) (status, chunkSize))
  rw [hs₁]
  dsimp only
  split
  · exact hexit _ _ hlog₁ rfl
  split
  · exact hexit _ _ hlog₁ rfl
  intro status _
  have hlog₂ : Unreported (s₁.next (.set .ftFileLoad fileIndex) status).log := hlog₁.snoc fun h => h
  dsimp only
  split
  · exact hexit _ _ hlog₂ rfl
  rintro ⟨status', npart⟩ -
  have hlog₃ : Unreported ((s₁.next (.set .ftFileLoad fileIndex) status).next (.fetch .ftFileNpart)
      (status', npart)).log := hlog₂.snoc fun h => h
  dsimp only
  split
  · exact Left.cleanup ⟨rfl, hlog₃⟩
  rename_i hstatus
  obtain rfl : status' = success := not_not.1 hstatus
  split
  · exact Left.cleanup ⟨rfl, hlog₃⟩
  rintro ⟨status', name⟩ -
  dsimp only
  split
  · refine Left.cleanup ⟨rfl, ?_⟩
    exact hlog₃.snoc (e := ⟨.fetchName, (status', name)⟩) fun h => h
  · exact wp_openFile (s := ((s₁.next (.set .ftFileLoad fileIndex) status).next
        (.fetch .ftFileNpart) (success, npart)).next .fetchName (status', name))
      (hlog₃.snoc fun h => h) rfl hstored link handle chunkSize _

end Starting

/-- A payload that has a file of one byte, and a file system that works. -/
def oneByte : Scene → (c : Call) → c.Reply
  | _, .fetch .ftPartCrc32 | _, .fetch .ftFileCrc32 => (success, calculateCRC32 [7])
  | _, .fetch _ => (success, 1)
  | _, .fetchName => (success, [])
  | _, .fetchI2cAddr => (success, 80)
  | _, .set _ _ => success
  | _, .i2cRead _ _ => (success, fun _ => 7)
  | _, .serialRead _ => (success, 0)
  | _, .openCreate _ _ => (success, 5)
  | _, .lseekEnd _ => 0
  | _, .write _ data => Int32.ofNat (data.length % 2 ^ 31)
  | _, .close _ => ()
  | s, .stat path => (success, (s.disk.content path).length)
  | _, .report _ _ _ _ _ => ()

theorem oneByte_honest (s : Scene) (c : Call) : s.Honest c (oneByte s c) := by
  cases c with
  | write fd data =>
    show (Int32.ofNat (data.length % 2 ^ 31)).toInt ≤ _
    rw [Int32.toInt_ofNat_of_lt (Nat.mod_lt _ (by decide))]
    exact Int.ofNat_le.2 (Nat.mod_le _ _)
  | stat path => exact fun _ => rfl
  | _ => exact trivial

end Pay
end FlightApps
