import Mathlib.Data.List.TakeWhile
import FlightApps.Lib.Crc
import FlightApps.Lib.File
import FlightApps.Ftp.Streams
import FlightApps.Ftp.Uploads

/-!
# What a download delivers

A download request names a slice of a file.  Offset, size and number of the chunks are computed in
three handlers with numbers of different widths; where the file is shorter than 2^32 bytes nothing
wraps, and the chunks are those of the slice (`dataBytes_eq`).  A status reply is answered with the
chunks it lists up to the first that is out of range (`sent_eq`), so a client that has asked for all
chunks, in whatever order and grouping, has the slice (`download_delivers`).
-/

set_option autoImplicit false

namespace FlightApps
namespace Ftp

/-! ## Content -/

/-- `ftp_crc32_init`. -/
def crc32Init : UInt32 := 0xFFFFFFFF

/-- One of the eight rounds of `ftp_crc32_update`. -/
def crc32Round (crc : UInt32) : UInt32 := (crc >>> 1) ^^^ (if crc &&& 1 ≠ 0 then 0xEDB88320 else 0)

/-- `ftp_crc32_update`. -/
def crc32Update (crc : UInt32) (buf : List UInt8) : UInt32 :=
  buf.foldl (fun crc b => crc32Round^[8] (crc ^^^ b.toUInt32)) crc

/-- `ftp_crc32_finalize`. -/
def crc32Finalize (crc : UInt32) : UInt32 := ~~~crc

/-- The loop of `calc_crc32`, at a place of a file that can be read: a read finds what is there. -/
def calcCrc32Loop (content : List UInt8) (place : Nat) (crc : UInt32) (size : Nat) : UInt32 :=
  if size = 0 then crc
  else
    let bytes := (content.drop place).take (min 512 size)
    if bytes = [] then crc
    else calcCrc32Loop content (place + bytes.length) (crc32Update crc bytes) (size - bytes.length)
termination_by size
decreasing_by
  exact Nat.sub_lt (Nat.pos_of_ne_zero ‹_›) (List.length_pos_iff.2 ‹_›)

/-- `calc_crc32`. -/
def calcCrc32 (content : List UInt8) (memAddr size : Nat) : UInt32 :=
  crc32Finalize (calcCrc32Loop content memAddr crc32Init size)

/-- The CRC of the reply of `ftp_handler_crc_request`. -/
def crcReply (s : Session) (content : List UInt8) : UInt32 :=
  match s.state with
  | .download => calcCrc32 content s.download.memAddr s.download.size
  | _ => calcCrc32 content 0 s.upload.size

/-- Where `ftp_handler_status_reply` finds a chunk, as an `uint32_t`. -/
def dataOffset (file : DownloadFile) (chunk : Nat) : Nat :=
  (file.memAddr + chunk * file.chunkSize) % 2 ^ 32

/-- What `read_data` puts into the data packet of a chunk. -/
def dataBytes (content : List UInt8) (file : DownloadFile) (chunk : Nat) : List UInt8 :=
  (content.drop (dataOffset file chunk)).take (dataSize file chunk)

/-- The chunks of some visits. -/
def chunksOf (vs : List Visit) : List Nat :=
  vs.filterMap fun
    | .entry _ => none
    | .chunk c => some c

/-- The reads for these chunks find what the file has. -/
def Outcomes.reading (o : Outcomes) (content : List UInt8) (file : DownloadFile)
    (chunks : List Nat) : Outcomes :=
  { o with bytesRead := fun k => content.length - dataOffset file (chunks.getD k 0) }

/-- The chunks whose data packets are sent. -/
def dataSent (es : List Effect) : List Nat :=
  es.filterMap fun
    | .sent _ (.data c) => some c
    | _ => none

/-- A status reply of a client, with what the calls of its handler answer. -/
structure Ask where
  entries : UInt16
  entry : Nat → UInt32 × UInt32
  outcomes : Outcomes

/-- The data packets that answer a status reply: chunk number and bytes. -/
def Ask.packets (a : Ask) (s : Session) (content : List UInt8) : List (Nat × List UInt8) :=
  (dataSent (statusReply s a.entries a.entry (a.outcomes.reading content s.download
    (chunksOf (visits a.entries a.entry)))).effects).map fun c => (c, dataBytes content s.download c)

/-- The entries are those of the array, and buffers and calls for the data packets succeed. -/
structure Ask.Good (a : Ask) : Prop where
  entries : a.entries.toNat ≤ statusChunks
  getBuffer : ∀ k, a.outcomes.getBuffer k = true
  seekSource : ∀ k, a.outcomes.seekSource k = true
  sendData : ∀ k, a.outcomes.sendData k = true

/-- The chunks that a client asks for. -/
def Ask.chunks (a : Ask) : List Nat :=
  (List.range a.entries.toNat).flatMap fun i => List.range' (a.entry i).1.toNat (a.entry i).2.toNat

/-! ## The checksum -/

theorem crc32Update_append (crc : UInt32) (xs ys : List UInt8) :
    crc32Update crc (xs ++ ys) = crc32Update (crc32Update crc xs) ys := List.foldl_append

theorem crc32Update_eq (crc : UInt32) (data : List UInt8) :
    crc32Update crc data = Crc.register 0xEDB88320 crc data := by
  have hround : crc32Round = Crc.round 0xEDB88320 := by
    funext crc
    rw [crc32Round, Crc.round]
    split <;> simp_all
  rw [crc32Update, hround, Crc.foldl_bytes]

/-- The loop takes in the bytes from the place on. -/
theorem calcCrc32Loop_eq (content : List UInt8) (place : Nat) (crc : UInt32) (size : Nat) :
    calcCrc32Loop content place crc size = crc32Update crc ((content.drop place).take size) := by
  induction size using Nat.strongRecOn generalizing place crc with
  | ind size ih =>
    rw [calcCrc32Loop]
    split
    · rename_i hzero
      rw [hzero, List.take_zero]
      rfl
    dsimp only
    split
    · rename_i hsize hnil
      have hdrop : content.drop place = [] := by
        rw [List.take_eq_nil_iff] at hnil
        exact hnil.resolve_left (by omega)
      rw [hdrop, List.take_nil]
      rfl
    · rename_i hsize hne
      have hlt := Nat.sub_lt (Nat.pos_of_ne_zero hsize) (List.length_pos_iff.2 hne)
      have hle : ((content.drop place).take (min 512 size)).length ≤ size := by
        rw [List.length_take]
        omega
      obtain ⟨rest, hrest⟩ := List.take_prefix (min 512 size) (content.drop place)
      generalize (content.drop place).take (min 512 size) = bytes at hlt hle hrest ⊢
      rw [ih _ hlt, ← crc32Update_append, ← List.drop_drop, ← hrest, List.drop_left,
        List.take_append, List.take_of_length_le hle]

theorem calcCrc32_eq (content : List UInt8) (memAddr size : Nat) :
    calcCrc32 content memAddr size =
      ~~~Crc.register 0xEDB88320 0xFFFFFFFF ((content.drop memAddr).take size) := by
  rw [calcCrc32, calcCrc32Loop_eq, crc32Update_eq, crc32Finalize, crc32Init]

/-! ## Chunks that are asked for -/

theorem chunksOf_visits (entries : UInt16) (entry : Nat → UInt32 × UInt32) :
    chunksOf (visits entries entry) = (List.range entries.toNat).flatMap fun i =>
      (List.range (entry i).2.toNat).map fun j => ((entry i).1.toNat + j) % 2 ^ 32 := by
  simp [chunksOf, visits, List.filterMap_flatMap, List.filterMap_map]

/-- A list of chunks that wraps is out of range before it does. -/
theorem takeWhile_wrapped {n a : Nat} (m : Nat) {rest rest' : List Nat} (hn : n < 2 ^ 32)
    (ha : a < 2 ^ 32) (hrest : rest.takeWhile (· < n) = rest'.takeWhile (· < n)) :
    (((List.range m).map fun j => (a + j) % 2 ^ 32) ++ rest).takeWhile (· < n) =
      (List.range' a m ++ rest').takeWhile (· < n) := by
  induction m generalizing a with
  | zero => exact hrest
  | succ m ih =>
    rw [List.range_succ_eq_map, List.map_cons, List.range'_succ, List.cons_append, List.cons_append,
      Nat.add_zero, Nat.mod_eq_of_lt ha, List.takeWhile_cons, List.takeWhile_cons]
    split
    · rename_i hlt
      rw [decide_eq_true_eq] at hlt
      have hnext := ih (a := a + 1) (by omega)
      rw [List.map_map, ← hnext]
      simp only [Function.comp_def, Nat.succ_eq_add_one, Nat.add_assoc, Nat.add_comm 1]
    · rfl

theorem takeWhile_listed {n : Nat} (hn : n < 2 ^ 32) (entries : UInt16)
    (entry : Nat → UInt32 × UInt32) :
    (chunksOf (visits entries entry)).takeWhile (· < n) =
      ((List.range entries.toNat).flatMap fun i =>
        List.range' (entry i).1.toNat (entry i).2.toNat).takeWhile (· < n) := by
  rw [chunksOf_visits]
  induction List.range entries.toNat with
  | nil => rfl
  | cons i is ih =>
    rw [List.flatMap_cons, List.flatMap_cons]
    exact takeWhile_wrapped _ hn (entry i).1.toNat_lt ih

/-! ## Data packets that are sent -/

theorem dataSent_append (es es' : List Effect) :
    dataSent (es ++ es') = dataSent es ++ dataSent es' := List.filterMap_append

theorem dataSent_nil_of {es : List Effect} (h : ∀ e ∈ es, ∀ b c, e ≠ .sent b (.data c)) :
    dataSent es = [] := by
  rw [dataSent, List.filterMap_eq_nil_iff]
  intro e he
  split
  · exact absurd rfl (h _ he _ _)
  · rfl

theorem dataSent_chunkEffects (file : DownloadFile) (o : Outcomes) (k c : Nat) :
    dataSent (chunkEffects file o k c) = [] := by
  refine dataSent_nil_of fun e he => ?_
  rw [chunkEffects, lastEffects, readData] at he
  split_ifs at he <;> simp at he <;> grind

theorem dataSent_stopped (file : DownloadFile) (o : Outcomes) (k c : Nat) :
    dataSent (stopped file o k c).effects = [] := by
  rw [stopped]
  split
  · rfl
  split
  · refine dataSent_nil_of fun e he => ?_
    rw [lastEffects] at he
    split at he <;> simp at he
    subst he
    simp
  · exact dataSent_chunkEffects file o k c

theorem dataSent_errorEffects (r : Streamed) (o : Outcomes) : dataSent (errorEffects r o) = [] := by
  refine dataSent_nil_of fun e he => ?_
  rw [errorEffects] at he
  split_ifs at he <;> simp at he <;> grind

/-- **The loops send what is in range**, when the chunks in range pass. -/
theorem dataSent_stream {file : DownloadFile} {o : Outcomes} {k : Nat} {vs : List Visit}
    (h : ∀ j c, (chunksOf vs)[j]? = some c → (Passes file o (k + j) c ↔ c < file.chunks)) :
    dataSent (stream file o vs (atHand k) k).effects =
      (chunksOf vs).takeWhile (· < file.chunks) := by
  induction vs generalizing k with
  | nil => rw [stream]; rfl
  | cons v vs ih =>
    rcases v with i | c
    · rw [stream_entry, Streamed.after, dataSent_append, ih h]
      rfl
    · have hchunks : chunksOf (.chunk c :: vs) = c :: chunksOf vs := rfl
      have hfirst : Passes file o k c ↔ c < file.chunks := h 0 c (by rw [hchunks]; rfl)
      rw [hchunks, List.takeWhile_cons]
      by_cases hlt : c < file.chunks
      · have hrest := ih (k := k + 1) fun j c' hj => by
          have := h (j + 1) c' (by rw [hchunks]; exact hj)
          rwa [show k + (j + 1) = k + 1 + j by omega] at this
        rw [stream_pass (hfirst.2 hlt), Streamed.after, if_pos (decide_eq_true hlt)]
        simp only [dataSent_append, dataSent_chunkEffects, hrest]
        rfl
      · rw [stream_stop (mt hfirst.1 hlt), dataSent_stopped, if_neg (by simpa using hlt)]

/-! ## The slice -/

/-- The length of the slice that a request names. -/
def sliceLength (size memAddr memSize : Nat) : Nat :=
  if 0 < memSize ∧ memSize < size - memAddr then memSize else size - memAddr

/-- The slice of a file that a request names. -/
def slice (content : List UInt8) (memAddr memSize : Nat) : List UInt8 :=
  (content.drop memAddr).take (sliceLength content.length memAddr memSize)

/-- The session offers this slice in chunks of this size. -/
structure Offers (s : Session) (content : List UInt8) (memAddr memSize chunkSize : Nat) : Prop where
  state : s.state = .download
  file : s.download = ⟨true, sliceLength content.length memAddr memSize, memAddr, memSize, chunkSize,
    chunkCount (sliceLength content.length memAddr memSize) chunkSize⟩
  pos : 0 < chunkSize
  small : content.length < 2 ^ 32
  inside : memAddr ≤ content.length

theorem sliceLength_le (size memAddr memSize : Nat) :
    sliceLength size memAddr memSize ≤ size - memAddr := by
  rw [sliceLength]
  split <;> omega

theorem length_slice (content : List UInt8) (memAddr memSize : Nat) :
    (slice content memAddr memSize).length = sliceLength content.length memAddr memSize := by
  rw [slice, List.length_take_of_le]
  rw [List.length_drop]
  exact sliceLength_le _ _ _

namespace Offers

variable {s : Session} {content : List UInt8} {memAddr memSize chunkSize c : Nat}
  (h : Offers s content memAddr memSize chunkSize)

include h

theorem chunk_iff : c < s.download.chunks ↔
    c * chunkSize < (slice content memAddr memSize).length := by
  have hle := sliceLength_le content.length memAddr memSize
  have hsmall := h.small
  rw [h.file, length_slice]
  exact lt_chunkCount (by omega) h.pos

theorem offset_eq (hc : c < s.download.chunks) :
    dataOffset s.download c = memAddr + c * chunkSize := by
  have hlt := h.chunk_iff.1 hc
  have hle := sliceLength_le content.length memAddr memSize
  have hsmall := h.small
  rw [length_slice] at hlt
  rw [dataOffset, h.file]
  dsimp only
  exact Nat.mod_eq_of_lt (by omega)

/-- Only the last chunk may be short. -/
theorem size_eq (hc : c < s.download.chunks) : dataSize s.download c =
    min chunkSize ((slice content memAddr memSize).length - c * chunkSize) := by
  have hlt := h.chunk_iff.1 hc
  have hnext := h.chunk_iff (c := c + 1)
  have hpos := h.pos
  rw [Nat.succ_mul] at hnext
  rw [length_slice] at hlt hnext ⊢
  generalize hL : sliceLength content.length memAddr memSize = L at hlt hnext ⊢
  have hfile : s.download.size = L ∧ s.download.chunkSize = chunkSize := by
    rw [h.file, ← hL]
    exact ⟨rfl, rfl⟩
  rw [dataSize, hfile.1, hfile.2]
  split
  · rename_i hlast
    -- `r` is what is left for the last chunk.
    obtain ⟨r, hr⟩ := Nat.exists_eq_add_of_le (Nat.le_of_lt hlt)
    have hle : r ≤ chunkSize := by
      by_contra hgt
      have := hnext.2 (by omega)
      omega
    rcases Nat.lt_or_ge r chunkSize with hshort | hfull
    · have hmod : L % chunkSize = r := by
        rw [hr, Nat.mul_add_mod', Nat.mod_eq_of_lt hshort]
      rw [hmod, if_neg (by omega)]
      omega
    · have hmod : L % chunkSize = 0 := by
        rw [hr, Nat.mul_add_mod', Nat.le_antisymm hle hfull, Nat.mod_self]
      rw [if_pos hmod]
      omega
  · have := hnext.1 (by omega)
    omega

theorem dataBytes_eq (hc : c < s.download.chunks) : dataBytes content s.download c =
    ((slice content memAddr memSize).drop (c * chunkSize)).take chunkSize := by
  rw [dataBytes, h.offset_eq hc, h.size_eq hc, length_slice, slice, List.drop_take, List.take_take,
    List.drop_drop]

/-- A chunk passes if it is one of the slice. -/
theorem passes_iff {a : Ask} (ha : a.Good) {chunks : List Nat} {k : Nat}
    (hk : chunks[k]? = some c) :
    Passes s.download (a.outcomes.reading content s.download chunks) k c ↔
      c < s.download.chunks := by
  refine ⟨fun hpass => hpass.chunk, fun hc => ⟨hc, Or.inr (ha.getBuffer k), ha.seekSource k, ?_,
    ha.sendData k⟩⟩
  have hle := sliceLength_le content.length memAddr memSize
  have hread : (a.outcomes.reading content s.download chunks).bytesRead k =
      content.length - dataOffset s.download c := by
    have hget : chunks.getD k 0 = c := by rw [List.getD_eq_getElem?_getD, hk, Option.getD_some]
    rw [← hget]
    rfl
  rw [hread, h.offset_eq hc, h.size_eq hc, length_slice]
  omega

/-- **The answer to a status reply**: the chunks it lists up to the first that is out of range. -/
theorem packets_eq {a : Ask} (ha : a.Good) : a.packets s content =
    (a.chunks.takeWhile (· < s.download.chunks)).map fun c =>
      (c, ((slice content memAddr memSize).drop (c * chunkSize)).take chunkSize) := by
  have hn : s.download.chunks < 2 ^ 32 := by
    rw [h.file]
    exact Nat.mod_lt _ (by decide)
  have hsent : dataSent (stream s.download
        (a.outcomes.reading content s.download (chunksOf (visits a.entries a.entry)))
        (visits a.entries a.entry) (atHand 0) 0).effects =
      (chunksOf (visits a.entries a.entry)).takeWhile (· < s.download.chunks) :=
    dataSent_stream fun j c hj => by
      rw [Nat.zero_add]
      exact h.passes_iff ha hj
  rw [Ask.packets, statusReply_download h.state, dataSent_append, hsent]
  have htail : ∀ (p : Prop) [Decidable p] (r : Streamed) (o : Outcomes),
      dataSent (if p then [] else errorEffects r o) = [] := fun p _ r o => by
    split
    · rfl
    · exact dataSent_errorEffects r o
  rw [htail, List.append_nil, takeWhile_listed hn]
  refine List.map_congr_left fun c hc => ?_
  have hlt := List.mem_takeWhile_imp hc
  rw [h.dataBytes_eq (by simpa using hlt)]

end Offers

/-! ## Clients -/

/-- A client writes a data packet. -/
def clientWrite (chunkSize : Nat) (f : List UInt8) (p : Nat × List UInt8) : List UInt8 :=
  File.write 0 f (p.1 * chunkSize) p.2

/-- The data packets for some status replies, one after the other. -/
def packetsOf (content : List UInt8) : Session → List Ask → List (Nat × List UInt8)
  | _, [] => []
  | s, a :: as => a.packets s content ++ packetsOf content (statusReply s a.entries a.entry
      (a.outcomes.reading content s.download (chunksOf (visits a.entries a.entry)))).session as

theorem packetsOf_eq (content : List UInt8) (s : Session) (as : List Ask) :
    packetsOf content s as = as.flatMap fun a => a.packets s content := by
  induction as with
  | nil => rfl
  | cons a as ih => rw [packetsOf, statusReply_session, ih, List.flatMap_cons]

/-- What a client has after some chunks of `xs`: these, and nothing behind `xs`. -/
structure Has (xs : List UInt8) (chunkSize : Nat) (cs : List Nat) (f : List UInt8) : Prop where
  holds : ∀ c ∈ cs, File.Holds f (c * chunkSize) ((xs.drop (c * chunkSize)).take chunkSize)
  length : f.length ≤ xs.length

theorem Has.write {xs f : List UInt8} {chunkSize c : Nat} {cs : List Nat}
    (h : Has xs chunkSize cs f) (hc : c * chunkSize < xs.length) :
    Has xs chunkSize (cs ++ [c])
      (clientWrite chunkSize f (c, (xs.drop (c * chunkSize)).take chunkSize)) := by
  refine ⟨fun c' hc' => ?_, ?_⟩
  · by_cases heq : c' = c
    · rw [heq]
      exact File.Holds.write _ _ _ _
    · have hold := (List.mem_append.1 hc').resolve_right fun hmem =>
        heq (List.mem_singleton.1 hmem)
      exact (h.holds c' hold).write_beside
        (chunks_beside (List.length_take_le _ _) (List.length_take_le _ _) heq)
  · have hle := File.length_write_le 0 f (c * chunkSize) ((xs.drop (c * chunkSize)).take chunkSize)
    rw [List.length_take, List.length_drop] at hle
    have hlength := h.length
    exact Nat.le_trans hle (by omega)

theorem has_writes {xs f : List UInt8} {chunkSize : Nat} {cs done : List Nat}
    (h : Has xs chunkSize done f) (hcs : ∀ c ∈ cs, c * chunkSize < xs.length) :
    Has xs chunkSize (done ++ cs) ((cs.map fun c =>
      (c, (xs.drop (c * chunkSize)).take chunkSize)).foldl (clientWrite chunkSize) f) := by
  induction cs generalizing done f with
  | nil => simpa using h
  | cons c cs ih =>
    have hnext := ih (h.write (hcs c List.mem_cons_self)) fun c' hc' =>
      hcs c' (List.mem_cons_of_mem c hc')
    rwa [List.append_assoc] at hnext

/-- Whoever has all chunks has all. -/
theorem Has.all {xs f : List UInt8} {chunkSize : Nat} {cs : List Nat} (h : Has xs chunkSize cs f)
    (hpos : 0 < chunkSize) (hall : ∀ c, c * chunkSize < xs.length → c ∈ cs) : f = xs := by
  have hget : ∀ i, i < xs.length → f[i]? = xs[i]? := by
    intro i hi
    have hle := Nat.div_mul_le_self i chunkSize
    have hlt := Nat.lt_div_mul_add hpos (a := i)
    have hholds := h.holds (i / chunkSize) (hall _ (by omega)) (i - i / chunkSize * chunkSize)
      (by rw [List.length_take, List.length_drop]; omega)
    rwa [List.getElem?_take_of_lt (by omega), List.getElem?_drop, Nat.add_sub_cancel' hle] at hholds
  refine List.ext_getElem? fun i => ?_
  rcases Nat.lt_or_ge i xs.length with hi | hi
  · exact hget i hi
  · rw [List.getElem?_eq_none hi, List.getElem?_eq_none (Nat.le_trans h.length hi)]

/-! ## Downloads -/

/-- A download request that is accepted. -/
structure Accepts (s : Session) (content : List UInt8) (chunkSize : UInt16) (memAddr : UInt32)
    (o : Outcomes) : Prop where
  idle : s.state = .idle
  opens : o.openSource = true
  stat : o.stat = some content.length
  small : content.length < 2 ^ 32
  inside : memAddr.toNat ≤ content.length
  pos : chunkSize ≠ 0

theorem downloadRequest_eq {s : Session} {content : List UInt8} {chunkSize : UInt16}
    {memAddr : UInt32} {o : Outcomes} (h : Accepts s content chunkSize memAddr o)
    (memSize : UInt32) : ∃ t es,
      downloadRequest s chunkSize memAddr memSize o =
        answer t es o (.download .ok (sliceLength content.length memAddr.toNat memSize.toNat)) .ok ∧
      Offers t content memAddr.toNat memSize.toNat chunkSize.toNat := by
  have hpos : 0 < chunkSize.toNat := by
    refine Nat.pos_of_ne_zero fun hzero => h.pos (UInt16.toNat_inj.1 ?_)
    rw [hzero]
    rfl
  rw [downloadRequest, if_neg (not_not.2 h.idle)]
  dsimp only
  rw [if_neg (not_not.2 h.opens), h.stat]
  dsimp only
  rw [if_neg h.pos, if_neg (Nat.not_lt.2 h.inside)]
  exact ⟨_, _, rfl, rfl, rfl, hpos, h.small, h.inside⟩

/-- **A download delivers the slice.**  The reply announces its length; each status reply is answered
with the chunks it lists up to the first that is out of range, each with the bytes of that chunk of
the slice; whoever asks for all chunks and writes what comes has the slice; and the CRC is that of
the slice. -/
theorem download_delivers {s : Session} {content : List UInt8} {chunkSize : UInt16}
    {memAddr : UInt32} {o : Outcomes} (h : Accepts s content chunkSize memAddr o)
    (hsend : o.send = true) (memSize : UInt32) : ∃ t xs,
      t = (downloadRequest s chunkSize memAddr memSize o).session ∧
      xs = slice content memAddr.toNat memSize.toNat ∧
      .sent 0 (.download .ok xs.length) ∈ (downloadRequest s chunkSize memAddr memSize o).effects ∧
      (∀ a : Ask, a.Good → a.packets t content =
        (a.chunks.takeWhile fun c => c * chunkSize.toNat < xs.length).map fun c =>
          (c, (xs.drop (c * chunkSize.toNat)).take chunkSize.toNat)) ∧
      (∀ as : List Ask, (∀ a ∈ as, a.Good) →
        (∀ c, c * chunkSize.toNat < xs.length →
          ∃ a ∈ as, c ∈ a.chunks.takeWhile fun c => c * chunkSize.toNat < xs.length) →
        (packetsOf content t as).foldl (clientWrite chunkSize.toNat) [] = xs) ∧
      crcReply t content = ~~~Crc.register 0xEDB88320 0xFFFFFFFF xs := by
  obtain ⟨t, es, heq, ht⟩ := downloadRequest_eq h memSize
  have hpackets : ∀ a : Ask, a.Good → a.packets t content =
      (a.chunks.takeWhile fun c => c * chunkSize.toNat <
        (slice content memAddr.toNat memSize.toNat).length).map fun c =>
        (c, ((slice content memAddr.toNat memSize.toNat).drop (c * chunkSize.toNat)).take
          chunkSize.toNat) := by
    intro a ha
    rw [ht.packets_eq ha]
    simp only [ht.chunk_iff]
  rw [heq, answer_session]
  refine ⟨t, _, rfl, rfl, ?_, hpackets, fun as has hall => ?_, ?_⟩
  · rw [length_slice, answer, if_pos hsend]
    exact List.mem_append_right es (List.mem_singleton.2 rfl)
  · let cs := as.flatMap fun a => a.chunks.takeWhile fun c => c * chunkSize.toNat <
      (slice content memAddr.toNat memSize.toNat).length
    have hwritten : packetsOf content t as = cs.map fun c =>
        (c, ((slice content memAddr.toNat memSize.toNat).drop (c * chunkSize.toNat)).take
          chunkSize.toNat) := by
      rw [packetsOf_eq, List.map_flatMap]
      exact List.flatMap_congr fun a ha => hpackets a (has a ha)
    have hcs : ∀ c ∈ cs, c * chunkSize.toNat <
        (slice content memAddr.toNat memSize.toNat).length := by
      intro c hc
      obtain ⟨a, -, hmem⟩ := List.mem_flatMap.1 hc
      simpa using List.mem_takeWhile_imp hmem
    have hempty : Has (slice content memAddr.toNat memSize.toNat) chunkSize.toNat [] [] :=
      ⟨by simp, Nat.zero_le _⟩
    rw [hwritten]
    refine (has_writes hempty hcs).all ht.pos fun c hc => ?_
    obtain ⟨a, ha, hmem⟩ := hall c hc
    exact List.mem_append_right _ (List.mem_flatMap.2 ⟨a, ha, hmem⟩)
  · rw [crcReply, ht.state]
    dsimp only
    rw [ht.file, calcCrc32_eq]
    rfl

/-- The last of two chunks, and then both. -/
def lastThenAll : List Ask :=
  [⟨1, fun _ => (1, 1), .fine true none⟩, ⟨1, fun _ => (0, 2), .fine true none⟩]

theorem download_delivers_middle : ∃ t,
    t = (downloadRequest .start 2 1 3 { Outcomes.fine true none with stat := some 5 }).session ∧
    (packetsOf [1, 2, 3, 4, 5] t lastThenAll).foldl (clientWrite 2) [] = [2, 3, 4] ∧
    crcReply t [1, 2, 3, 4, 5] = ~~~Crc.register 0xEDB88320 0xFFFFFFFF [2, 3, 4] := by
  have haccepts : Accepts .start [1, 2, 3, 4, 5] 2 1
      { Outcomes.fine true none with stat := some 5 } :=
    ⟨rfl, rfl, rfl, by decide, by decide, by decide⟩
  obtain ⟨t, xs, ht, hxs, -, -, hclient, hcrc⟩ := download_delivers haccepts rfl 3
  obtain rfl : xs = [2, 3, 4] := hxs.trans (by decide)
  refine ⟨t, ht, hclient lastThenAll ?_ ?_, hcrc⟩
  · intro a ha
    simp only [lastThenAll, List.mem_cons, List.not_mem_nil, or_false] at ha
    rcases ha with rfl | rfl <;> exact ⟨by decide, fun _ => rfl, fun _ => rfl, fun _ => rfl⟩
  · intro c hc
    have hlt : c < 2 := by
      have : c * 2 < 3 := hc
      omega
    refine ⟨_, List.mem_cons_of_mem _ (List.mem_singleton.2 rfl), ?_⟩
    have hlist : ∀ c < 2, c ∈ ([0, 1] : List Nat) := by decide
    exact hlist c hlt

end Ftp
end FlightApps
