import FlightApps.Ftp.Uploads

/-!
# Completing an upload by its status replies

A client asks for the status of an upload, delivers the chunks that the reply lists, and asks again.
A reply lists the first `GS_FTP_STATUS_CHUNKS` runs of missing chunks, and once these are delivered
exactly the other runs are left (`round_runs`), so a reply lists nothing after as many rounds as it
takes to list all runs (`status_rounds`).
-/

set_option autoImplicit false

namespace FlightApps
namespace Ftp

/-! ## Deliveries -/

/-- A data packet, and what the calls of its handler answer. -/
structure Delivery where
  chunk : UInt32
  bytes : List UInt8
  outcomes : Outcomes

/-- The handler has all the bytes of the chunk and can write them. -/
structure Delivery.Good (d : Delivery) (file : UploadFile) : Prop where
  bytes : chunkLength file d.chunk.toNat ≤ d.bytes.length
  seekTarget : d.outcomes.seekTarget = true
  writeTarget : d.outcomes.writeTarget = true
  seekMap : d.outcomes.seekMap = true
  writeMap : d.outcomes.writeMap = true

/-- The session after a data packet. -/
def Session.deliver (s : Session) (d : Delivery) : Session :=
  (dataHandler s d.chunk d.bytes d.outcomes).session

/-- An upload whose files are open and whose map has a cell for each chunk. -/
structure Receives (s : Session) : Prop where
  state : s.state = .upload
  fp : s.upload.fp = true
  cells : (s.upload.mapBuf.getD []).length = s.upload.chunks

theorem initUpload_cells {chunks : Nat} {o : Outcomes} (h : (initUpload chunks o).ret = .ok) :
    ((initUpload chunks o).mapBuf.getD []).length = chunks := by
  revert h
  rw [initUpload]
  dsimp only
  split
  · simp
  split
  · rename_i hzero
    simp [hzero]
  split
  · simp
  split
  · split
    · simp
    · rename_i hloaded
      intro _
      exact not_not.1 hloaded
  split
  · simp
  split
  · simp
  split
  · simp
  · simp

/-- An upload request that is accepted leaves such an upload. -/
theorem receives_accepted {s : Session} {size : UInt32} {chunkSize : UInt16} {o : Outcomes}
    (hstate : s.state = .idle) (h : (uploadRequest s size chunkSize o).ret = .ok) :
    Receives (uploadRequest s size chunkSize o).session := by
  rw [uploadRequest, if_neg (not_not.2 hstate)] at h ⊢
  split at h
  · exact absurd h (by rw [answer]; split <;> simp)
  · rename_i hsize
    have hok : (initUpload (chunkCount size.toNat chunkSize.toNat) o).ret = .ok := by
      rw [answer] at h
      split at h
      · exact h
      · exact absurd h (by simp)
    rw [if_neg hsize, answer_session]
    dsimp only
    rw [if_pos hok]
    exact ⟨rfl, rfl, initUpload_cells hok⟩

/-- The same upload, with more chunks done or not. -/
structure Onward (s t : Session) : Prop where
  receives : Receives t
  chunks : t.upload.chunks = s.upload.chunks
  size : t.upload.size = s.upload.size
  chunkSize : t.upload.chunkSize = s.upload.chunkSize

theorem Onward.refl {s : Session} (h : Receives s) : Onward s s := ⟨h, rfl, rfl, rfl⟩

theorem Onward.trans {s t r : Session} (h : Onward s t) (h' : Onward t r) : Onward s r :=
  ⟨h'.receives, h'.chunks.trans h.chunks, h'.size.trans h.size, h'.chunkSize.trans h.chunkSize⟩

theorem Onward.good {s t : Session} (h : Onward s t) {d : Delivery} :
    d.Good t.upload ↔ d.Good s.upload := by
  have hlength : chunkLength t.upload d.chunk.toNat = chunkLength s.upload d.chunk.toNat := by
    rw [chunkLength, chunkLength, chunkOffset, chunkOffset, h.size, h.chunkSize]
  refine ⟨fun hd => { hd with bytes := ?_ }, fun hd => { hd with bytes := ?_ }⟩
  · rw [← hlength]
    exact hd.bytes
  · rw [hlength]
    exact hd.bytes

variable {s t : Session}

theorem marked_onward (h : Receives s) (k : Nat) : Onward s (s.marked k) := by
  refine ⟨⟨h.state, h.fp, ?_⟩, rfl, rfl, rfl⟩
  have hcells := h.cells
  rw [Session.marked]
  cases hmap : s.upload.mapBuf <;> rw [hmap] at hcells <;> simpa using hcells

theorem missing_marked (h : Receives s) {k c : Nat} (hk : k < s.upload.chunks) :
    Missing (s.marked k).upload c ↔ Missing s.upload c ∧ c ≠ k := by
  have hcells := h.cells
  rw [Missing, Missing, mapCell, mapCell, Session.marked]
  rcases hmap : s.upload.mapBuf with _ | cells
  · rw [hmap, Option.getD_none, List.length_nil] at hcells
    omega
  · rw [hmap, Option.getD_some] at hcells
    simp only [Option.map_some, Option.getD_some, List.getD_eq_getElem?_getD]
    by_cases hc : c = k
    · subst hc
      simp [hcells, hk]
    · simp [List.getElem?_set_ne (Ne.symm hc), hc]

/-- A good packet for a chunk is accepted. -/
theorem deliver_good (h : Receives s) {d : Delivery} (hd : d.Good s.upload)
    (hk : d.chunk.toNat < s.upload.chunks) : s.deliver d = s.marked d.chunk.toNat := by
  have hbytes := hd.bytes
  rw [Session.deliver, dataHandler]
  dsimp only
  rw [if_neg (not_not.2 h.state), if_neg (Nat.not_le.2 hk), if_neg (Nat.not_lt.2 hbytes),
    if_neg (not_not.2 h.fp), if_neg (by simp [hd.seekTarget, hd.writeTarget]),
    if_neg (by simp [hd.seekMap, hd.writeMap])]
  rfl

/-- A data packet is accepted or changes nothing. -/
theorem deliver_cases (h : Receives s) (d : Delivery) : s.deliver d = s ∧
      ¬(d.Good s.upload ∧ d.chunk.toNat < s.upload.chunks) ∨
    s.deliver d = s.marked d.chunk.toNat ∧ d.chunk.toNat < s.upload.chunks := by
  by_cases hgood : d.Good s.upload ∧ d.chunk.toNat < s.upload.chunks
  · exact Or.inr ⟨deliver_good h hgood.1 hgood.2, hgood.2⟩
  · rcases dataHandler_cases s d.chunk d.bytes d.outcomes with ⟨-, hsame, -⟩ | ⟨-, hfits, hmarked, -⟩
    · exact Or.inl ⟨hsame, hgood⟩
    · exact Or.inr ⟨hmarked, hfits.below⟩

/-- **What data packets do to the map**: only chunks that are delivered become done, and those
delivered well do. -/
structure Marks (s t : Session) (ds : List Delivery) : Prop where
  onward : Onward s t
  old : ∀ c, Missing t.upload c → Missing s.upload c
  new : ∀ c, Missing s.upload c → ¬Missing t.upload c → ∃ d ∈ ds, d.chunk.toNat = c
  good : ∀ d ∈ ds, d.Good s.upload → d.chunk.toNat < s.upload.chunks →
    ¬Missing t.upload d.chunk.toNat

theorem marks_deliver (h : Receives s) (d : Delivery) : Marks s (s.deliver d) [d] := by
  rcases deliver_cases h d with ⟨heq, hbad⟩ | ⟨heq, hk⟩
  · rw [heq]
    exact ⟨.refl h, fun c hc => hc, fun c hc hnot => absurd hc hnot,
      fun d' hd hgood hk => absurd ⟨List.mem_singleton.1 hd ▸ hgood, List.mem_singleton.1 hd ▸ hk⟩
        hbad⟩
  · rw [heq]
    refine ⟨marked_onward h _, fun c hc => ((missing_marked h hk).1 hc).1, fun c hc hnot => ?_,
      fun d' hd _ _ => ?_⟩
    · refine ⟨d, List.mem_singleton.2 rfl, ?_⟩
      by_contra hne
      exact hnot ((missing_marked h hk).2 ⟨hc, Ne.symm hne⟩)
    · rw [List.mem_singleton.1 hd, missing_marked h hk]
      exact fun hmissing => hmissing.2 rfl

theorem marks_deliveries (h : Receives s) (ds : List Delivery) :
    Marks s (ds.foldl Session.deliver s) ds := by
  induction ds generalizing s with
  | nil => exact ⟨.refl h, fun c hc => hc, fun c hc hnot => absurd hc hnot, by simp⟩
  | cons d ds ih =>
    have hone := marks_deliver h d
    have hrest := ih hone.onward.receives
    rw [List.foldl_cons]
    refine ⟨hone.onward.trans hrest.onward, fun c hc => hone.old c (hrest.old c hc), ?_, ?_⟩
    · intro c hc hnot
      by_cases hmid : Missing (s.deliver d).upload c
      · obtain ⟨d', hd', hchunk⟩ := hrest.new c hmid hnot
        exact ⟨d', List.mem_cons_of_mem d hd', hchunk⟩
      · obtain ⟨d', hd', hchunk⟩ := hone.new c hc hmid
        exact ⟨d', List.mem_cons.2 (Or.inl (List.mem_singleton.1 hd')), hchunk⟩
    · intro d' hd' hgood hk hmissing
      rcases List.mem_cons.1 hd' with rfl | hd'
      · exact hone.good d' (List.mem_singleton.2 rfl) hgood hk (hrest.old _ hmissing)
      · refine hrest.good d' hd' (hone.onward.good.2 hgood) ?_ hmissing
        rwa [hone.onward.chunks]

/-! ## Rounds -/

/-- The reply lists a chunk. -/
def Report.Lists (r : Report) (c : Nat) : Prop := ∃ e ∈ r.entries, e.1 ≤ c ∧ c < e.1 + e.2

/-- **A client that delivers what a reply lists**, in any order and with duplicates. -/
structure Delivers (s : Session) (r : Report) (ds : List Delivery) : Prop where
  listed : ∀ d ∈ ds, r.Lists d.chunk.toNat ∨ ¬Missing s.upload d.chunk.toNat
  all : ∀ c, r.Lists c → ∃ d ∈ ds, d.chunk.toNat = c ∧ d.Good s.upload

/-- So many rounds of a status reply and data packets for it. -/
inductive Rounds (s : Session) : Nat → Session → Prop
  | none : Rounds s 0 s
  | next {n : Nat} {t : Session} {o : Outcomes} {r : Report} {ds : List Delivery} (h : Rounds s n t)
      (hsent : .sent 0 (.status .ok (some r)) ∈ (statusRequest t o).effects)
      (hds : Delivers t r ds) :
      Rounds s (n + 1) (ds.foldl Session.deliver (statusRequest t o).session)

/-- **The runs that a round leaves** are those that the reply does not list. -/
theorem round_runs (h : Receives s) {ds : List Delivery} (hds : Delivers s (report s.upload) ds)
    {rs : List (Nat × Nat)} (hrs : Runs.IsRuns (Missing s.upload) s.upload.chunks rs) :
    Runs.IsRuns (Missing (ds.foldl Session.deliver s).upload) s.upload.chunks
      (rs.drop statusChunks) := by
  have hmarks := marks_deliveries h ds
  have hlists : ∀ c, (report s.upload).Lists c ↔
      ∃ r ∈ rs.take statusChunks, r.1 ≤ c ∧ c < r.1 + r.2 := by
    intro c
    rw [Report.Lists, report_eq, hrs.unique (Runs.runs_isRuns _)]
  refine (hrs.drop statusChunks).congr fun c hc => ?_
  rw [← hlists]
  constructor
  · rintro ⟨hmissing, hnot⟩
    by_contra hdone
    obtain ⟨d, hd, rfl⟩ := hmarks.new c hmissing hdone
    exact (hds.listed d hd).elim hnot fun hnot' => hnot' hmissing
  · intro hmissing
    refine ⟨hmarks.old c hmissing, fun hlisted => ?_⟩
    obtain ⟨d, hd, rfl, hgood⟩ := hds.all c hlisted
    exact hmarks.good d hd hgood hc hmissing

theorem rounds_onward {n : Nat} (h : Receives s) (hrounds : Rounds s n t)
    {rs : List (Nat × Nat)} (hrs : Runs.IsRuns (Missing s.upload) s.upload.chunks rs) :
    Onward s t ∧ Runs.IsRuns (Missing t.upload) s.upload.chunks (rs.drop (statusChunks * n)) := by
  induction hrounds with
  | none => exact ⟨.refl h, hrs⟩
  | @next n t o r ds _ hsent hds ih =>
    obtain ⟨honward, hruns⟩ := ih
    obtain rfl := status_sent hsent
    rw [statusRequest_session]
    refine ⟨honward.trans (marks_deliveries honward.receives ds).onward, ?_⟩
    rw [← honward.chunks] at hruns ⊢
    have hnext := round_runs honward.receives hds hruns
    rw [List.drop_drop] at hnext
    exact hnext

/-! ## What a reply says -/

theorem doneCount_eq_iff (file : UploadFile) :
    doneCount file file.chunks = file.chunks ↔ ∀ c < file.chunks, ¬Missing file c := by
  have hall := List.countP_eq_length (p := fun i => decide ¬Missing file i)
    (l := List.range file.chunks)
  rw [List.length_range] at hall
  rw [doneCount, hall]
  simp

/-- **A status reply is the run-length code of what is missing.** -/
structure Report.Codes (r : Report) (file : UploadFile) (rs : List (Nat × Nat)) : Prop where
  complete : r.complete = doneCount file file.chunks
  total : r.total = file.chunks
  entries : r.entries = rs.take statusChunks
  missing : ∀ c, r.Lists c → c < file.chunks ∧ Missing file c
  empty : r.entries = [] ↔ r.complete = r.total

theorem report_codes {file : UploadFile} {rs : List (Nat × Nat)}
    (hrs : Runs.IsRuns (Missing file) file.chunks rs) : (report file).Codes file rs := by
  have hruns := hrs.unique (Runs.runs_isRuns _)
  rw [report_eq, ← hruns]
  refine ⟨rfl, rfl, rfl, ?_, ?_⟩
  · rintro c ⟨e, he, hfrom, hto⟩
    obtain ⟨-, hle, hall, -, -⟩ := hrs.run e (List.mem_of_mem_take he)
    exact ⟨by omega, hall c hfrom hto⟩
  · rw [doneCount_eq_iff]
    constructor
    · intro hnil c hc hmissing
      obtain ⟨e, he, -⟩ := hrs.cover c hc hmissing
      rw [List.take_eq_nil_iff] at hnil
      rcases hnil with hnil | rfl
      · exact absurd hnil (by decide)
      · exact absurd he List.not_mem_nil
    · intro hdone
      rw [List.eq_nil_iff_forall_not_mem]
      intro e he
      obtain ⟨hpos, hle, hall, -, -⟩ := hrs.run e (List.mem_of_mem_take he)
      exact hdone e.1 (by omega) (hall e.1 (Nat.le_refl _) (by omega))

/-- **Status replies complete an upload.**  A reply lists the first runs of missing chunks, and a
client that delivers what each reply lists has completed the upload after as many rounds as it takes
to list all runs. -/
theorem status_completes {s : Session} (h : Receives s) : ∃ rs,
    Runs.IsRuns (Missing s.upload) s.upload.chunks rs ∧
    (∀ o, o.send = true → ∃ r, .sent 0 (.status .ok (some r)) ∈ (statusRequest s o).effects) ∧
    (∀ o r, .sent 0 (.status .ok (some r)) ∈ (statusRequest s o).effects → r.Codes s.upload rs) ∧
    ∀ n t, Rounds s n t → (rs.length + statusChunks - 1) / statusChunks ≤ n →
      ∀ c < s.upload.chunks, ¬Missing t.upload c := by
  have hrs := Runs.runs_isRuns (p := Missing s.upload) s.upload.chunks
  refine ⟨_, hrs, fun o hsend => ?_, fun o r hsent => ?_, fun n t hrounds hn c hc hmissing => ?_⟩
  · refine ⟨report s.upload, ?_⟩
    rw [statusRequest, if_neg (not_not.2 h.state), answer, if_pos hsend]
    exact List.mem_append_right _ (List.mem_singleton.2 rfl)
  · rw [status_sent hsent]
    exact report_codes hrs
  · obtain ⟨-, hruns⟩ := rounds_onward h hrounds hrs
    rw [List.drop_eq_nil_of_le (by rw [statusChunks] at hn ⊢; omega)] at hruns
    obtain ⟨e, he, -⟩ := hruns.cover c hc hmissing
    exact absurd he List.not_mem_nil

/-- An upload of three chunks, one of them done. -/
def oneOfThree : Session :=
  { Session.start with state := .upload, upload := ⟨true, true, some [45, 43, 45], 3, 1, 3⟩ }

theorem status_completes_oneOfThree : ∃ rs,
    Runs.IsRuns (Missing oneOfThree.upload) oneOfThree.upload.chunks rs ∧
      (report oneOfThree.upload).Codes oneOfThree.upload rs := by
  obtain ⟨rs, hrs, hsent, hcodes, -⟩ := status_completes (s := oneOfThree) ⟨rfl, rfl, rfl⟩
  obtain ⟨r, hr⟩ := hsent (.fine true none) rfl
  exact ⟨rs, hrs, status_sent hr ▸ hcodes _ r hr⟩

end Ftp
end FlightApps
