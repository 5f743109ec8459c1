import FlightApps.Pay.Outcome

/-!
# The two links

With a payload that serves both links alike, and with nothing failing, the two downloads leave the
same files and report the same status if and only if `ft_part_size` does not count padding or no
part is loaded (`downloads_agree_iff`).  On I2C the padding is cut off with the help of
`ft_file_size`; on RS422 it is written.
-/

set_option autoImplicit false

namespace FlightApps
namespace Pay

open Script

/-- Both downloads leave the same files and report the same status. -/
def Agree (p : Payload) (fileIndex startChunk : UInt32) (d : Disk) : Prop :=
  ∀ s s', Ends (p.world false false) (.start d) (downloadChildTaskI2C true fileIndex startChunk) s () →
    Ends (p.world false false) (.start d) (downloadChildTaskRS422 true fileIndex startChunk) s' () →
    s.disk.files = s'.disk.files ∧ reported s.log = reported s'.log

namespace Job

variable {j j' : Job}

theorem length_parts_lt {n m : Nat} (hn : j.startChunk.toNat ≤ n) (hlt : n < m)
    (hm : m ≤ j.p.npart) : (j.parts n).length < (j.parts m).length := by
  obtain ⟨k, rfl⟩ := Nat.exists_eq_add_of_lt hlt
  clear hlt
  induction k with
  | zero =>
    rw [Nat.add_zero, parts_succ hn, List.length_append]
    exact Nat.lt_add_of_pos_right (length_block_pos hm)
  | succ k ih =>
    refine Nat.lt_trans (ih (Nat.le_of_succ_le hm)) ?_
    show _ < (j.parts (n + k + 1 + 1)).length
    rw [parts_succ (n := n + k + 1) (Nat.le_trans hn (Nat.le_add_right n (k + 1))),
      List.length_append]
    exact Nat.lt_add_of_pos_right (length_block_pos hm)

/-- The other link. -/
def on (j : Job) (link : Link) : Job := { j with link := link }

theorem files_on_iff (link : Link) (n m : Nat) :
    (j.on link).files n = j.files m ↔ (j.on link).content n = j.content m := by
  constructor
  · intro h
    have hpath := congrFun h j.path
    rw [files_self] at hpath
    exact Option.some.inj ((files_self (j.on link) n).symm.trans hpath)
  · intro h
    rw [files, files, h]
    rfl

/-- The parts are the same on both links, but for the last one. -/
theorem parts_on (link : Link) {n : Nat} (hn : n < j.p.npart) : (j.on link).parts n = j.parts n := by
  rw [parts, parts]
  refine congrArg List.flatten (List.map_congr_left fun k hk => ?_)
  have hrange : k < n - j.startChunk.toNat := List.mem_range.1 hk
  have hlt : j.startChunk.toNat + k + 1 ≠ j.p.npart := by omega
  have hsized : j.p.sized (j.startChunk.toNat + k) = j.p.chunk (j.startChunk.toNat + k) := by
    rw [Payload.sized_eq_part hlt, Payload.part_eq_chunk hlt]
  have hblock : ∀ i : Job, i.p = j.p →
      i.block (j.startChunk.toNat + k) = j.p.chunk (j.startChunk.toNat + k) := by
    intro i hi
    rw [block, hi]
    split
    · rfl
    · exact hsized
  rw [hblock j rfl]
  exact hblock (j.on link) rfl

/-- Counted padding is written at the end. -/
theorem parts_padded (hlink : j.link = .i2c) (hlt : j.startChunk.toNat < j.p.npart)
    (hcounted : j.p.counted = true) :
    (j.on .rs422).parts j.p.npart = j.parts j.p.npart ++ j.p.padding := by
  obtain ⟨n, hn⟩ := Nat.exists_eq_add_of_lt hlt
  have hle : j.startChunk.toNat ≤ j.startChunk.toNat + n := Nat.le_add_right _ _
  have hblock : (j.on .rs422).block (j.startChunk.toNat + n) =
      j.block (j.startChunk.toNat + n) ++ j.p.padding := by
    rw [block, block, hlink]
    show j.p.sized _ = j.p.chunk _ ++ _
    rw [Payload.sized, hcounted, if_pos rfl, Payload.part, if_pos hn.symm]
  rw [hn, parts_succ hle, parts_succ (j := j.on .rs422) hle, parts_on .rs422 (by omega), hblock,
    List.append_assoc]

/-- Where padding is counted, the file on RS422 is never the one on I2C. -/
theorem content_ne (hlink : j.link = .i2c) (hlt : j.startChunk.toNat < j.p.npart)
    (hcounted : j.p.counted = true) (hpadding : j.p.padding ≠ []) {n : Nat}
    (hn : j.startChunk.toNat ≤ n) (hle : n ≤ j.p.npart) :
    (j.on .rs422).content n ≠ j.content j.p.npart := by
  intro heq
  have hlen : ((j.on .rs422).parts n).length = (j.parts j.p.npart).length :=
    congrArg List.length (List.append_cancel_left heq)
  rcases Nat.lt_or_eq_of_le hle with hless | rfl
  · rw [parts_on .rs422 hless] at hlen
    exact Nat.ne_of_lt (length_parts_lt hn hless (Nat.le_refl _)) hlen
  · rw [parts_padded hlink hlt hcounted, List.length_append] at hlen
    exact hpadding (List.eq_nil_of_length_eq_zero (by omega))

end Job

/-- A payload that answers at once, and file functions that work. -/
def Payload.answer (p : Payload) (s : Scene) : (c : Call) → c.Reply
  | .fetch .ftChunkSize => (success, p.chunkSize)
  | .fetch .ftFileNpart => (success, UInt32.ofNat p.npart)
  | .fetch .ftFileSize => (success, UInt32.ofNat p.data.length)
  | .fetch .ftPartReady => (success, 1)
  | .fetch .ftPartSize =>
    (success, UInt32.ofNat (p.sized ((s.notes.part.getD 0).toNat)).length)
  | .fetch .ftPartCrc32 => (success, p.partCrc32 ((s.notes.part.getD 0).toNat))
  | .fetch .ftFileCrc32 => (success, calculateCRC32 p.data)
  | .fetchName => (success, p.name)
  | .fetchI2cAddr => (success, 80)
  | .set _ _ => success
  | .i2cRead _ _ => (success, fun j => (p.part ((s.notes.part.getD 0).toNat)).getD (j - 1) 0)
  | .serialRead first => (success,
      (p.frame ((s.notes.part.getD 0).toNat)).getD (if first then 0 else s.notes.received.length) 0)
  | .openCreate _ _ => (success, 5)
  | .lseekEnd _ => 0
  | .write _ data => Int32.ofNat (min data.length (2 ^ 31 - 1))
  | .close _ => ()
  | .stat path => (success, (s.disk.content path).length)
  | .report _ _ _ _ _ => ()

theorem Payload.answer_serves (p : Payload) (fail cut : Bool) (s : Scene) (c : Call) :
    p.Serves fail cut s c (p.answer s c) := by
  have hpart : ∀ i, s.notes.part = some i → (s.notes.part.getD 0) = i := fun i hi => by rw [hi]; rfl
  cases c with
  | fetch q =>
    cases q with
    | ftPartReady => exact Or.inr ⟨rfl, Or.inl rfl⟩
    | ftPartSize => exact fun i hi => by rw [hpart i hi]
    | ftPartCrc32 => exact fun i hi => by rw [hpart i hi]
    | _ => exact rfl
  | fetchName => exact rfl
  | fetchI2cAddr => exact fun h => absurd rfl h
  | set q value => exact fun h => absurd rfl h
  | i2cRead addr size => exact fun i hi j _ => by rw [hpart i hi]; rfl
  | serialRead first =>
    intro i hi j hj _
    rw [hpart i hi, hj]
  | openCreate path truncate => exact fun h => absurd rfl h
  | lseekEnd fd => exact fun h => absurd h (show ¬(0 : Int32) < 0 by decide)
  | write fd data =>
    refine Or.inl (Int32.toInt_ofNat_of_lt ?_)
    exact Nat.lt_of_le_of_lt (Nat.min_le_right _ _) (by decide)
  | close fd => exact trivial
  | stat path => exact rfl
  | report status link path size deviceError => exact trivial

theorem Payload.runs (p : Payload) (fail cut : Bool) (t : Task Unit) (s : Scene) :
    ∃ s', Ends (p.world fail cut) s t s' () :=
  ⟨_, ends_exec (W := p.world fail cut) (p.answer_serves fail cut) t s⟩

namespace Job

variable {j : Job} {s : Scene}

/-- Without a part to load nothing happens to the file. -/
theorem Ended.no_part (h : j.Ended false s) (hle : j.p.npart ≤ j.startChunk.toNat) :
    s.disk.files = j.disk.files ∧ reported s.log = some badArgument := by
  obtain ⟨status, hreport, ⟨hlt, -⟩ | ⟨hfiles, -, hfail | ⟨-, rfl⟩⟩⟩ := h
  · exact absurd hle (Nat.not_le.2 hlt)
  · exact Bool.noConfusion hfail
  · exact ⟨hfiles, hreport⟩

theorem Ended.writes (h : j.Ended false s) (hlt : j.startChunk.toNat < j.p.npart) :
    ∃ status, reported s.log = some status ∧ j.Writes false status s := by
  obtain ⟨status, hreport, hwrites | ⟨-, -, hfail | ⟨hle, -⟩⟩⟩ := h
  · exact ⟨status, hreport, hwrites⟩
  · exact Bool.noConfusion hfail
  · exact absurd hle (Nat.not_le.2 hlt)

/-- Where padding makes no difference, all parts are written. -/
theorem Ended.exact (h : j.Ended false s) (hlt : j.startChunk.toNat < j.p.npart) (hexact : j.Exact) :
    s.disk.files = j.files j.p.npart ∧ reported s.log =
      some (if (j.content j.p.npart).length = j.p.data.length then success
        else externalResourceFail) := by
  obtain ⟨status, hreport, -, n, -, -, hfiles, -, hall⟩ := h.writes hlt
  obtain ⟨rfl, rfl⟩ := hall rfl hexact
  exact ⟨hfiles, hreport⟩

end Job

section Both

variable {p : Payload} (hsize : p.chunkSize.toNat ≤ 1016) {fileIndex startChunk : UInt32} {d : Disk}

include hsize

theorem ended_i2c {s : Scene}
    (hs : Ends (p.world false false) (.start d) (downloadChildTaskI2C true fileIndex startChunk) s ()) :
    (⟨p, .i2c, true, fileIndex, startChunk, d⟩ : Job).Ended false s :=
  wp_iff.1 (Job.wp_job (j := ⟨p, .i2c, true, fileIndex, startChunk, d⟩)
    (Nat.lt_of_le_of_lt hsize (by decide)) (Or.inl rfl)) s () hs

theorem ended_rs422 {s : Scene}
    (hs : Ends (p.world false false) (.start d) (downloadChildTaskRS422 true fileIndex startChunk) s
      ()) :
    (⟨p, .rs422, true, fileIndex, startChunk, d⟩ : Job).Ended false s :=
  wp_iff.1 (Job.wp_job (j := ⟨p, .rs422, true, fileIndex, startChunk, d⟩) hsize (Or.inl rfl)) s () hs

/-- Padding that is counted sets the downloads apart. -/
theorem not_agree (hlt : startChunk.toNat < p.npart) (hcounted : p.counted = true)
    (hpadding : p.padding ≠ []) : ¬Agree p fileIndex startChunk d := by
  intro hagree
  let j : Job := ⟨p, .i2c, true, fileIndex, startChunk, d⟩
  obtain ⟨s, hs⟩ := p.runs false false j.task (.start d)
  obtain ⟨s', hs'⟩ := p.runs false false (j.on .rs422).task (.start d)
  obtain ⟨hfiles, -⟩ := hagree s s' hs hs'
  obtain ⟨-, -, -, n, hn, hle, hfiles', -⟩ := (ended_rs422 hsize hs').writes hlt
  rw [((ended_i2c hsize hs).exact hlt (Or.inl rfl)).1, hfiles'] at hfiles
  exact Job.content_ne (j := j) rfl hlt hcounted hpadding hn hle
    ((Job.files_on_iff (j := j) .rs422 n _).1 hfiles.symm)

/-- Otherwise they agree. -/
theorem agree_exact (hlt : startChunk.toNat < p.npart)
    (hcond : p.counted = false ∨ p.padding = []) : Agree p fileIndex startChunk d := by
  intro s s' hs hs'
  let j : Job := ⟨p, .i2c, true, fileIndex, startChunk, d⟩
  have hexact : (j.on .rs422).Exact := Or.inr hcond
  obtain ⟨hfiles, hreport⟩ := (ended_i2c hsize hs).exact hlt (Or.inl rfl)
  obtain ⟨hfiles', hreport'⟩ := (ended_rs422 hsize hs').exact hlt hexact
  have hcontent : (j.on .rs422).content p.npart = j.content p.npart :=
    congrArg (j.base ++ ·) ((Job.parts_all hexact (Nat.le_of_lt hlt)).trans
      (Job.parts_all (j := j) (Or.inl rfl) (Nat.le_of_lt hlt)).symm)
  refine ⟨hfiles.trans (hfiles'.trans ((Job.files_on_iff (j := j) .rs422 _ _).2 hcontent)).symm, ?_⟩
  rw [hreport, hreport']
  show some (if (j.content p.npart).length = _ then _ else _) =
    some (if ((j.on .rs422).content p.npart).length = _ then _ else _)
  rw [hcontent]

/-- Without a part to load they agree, too. -/
theorem agree_no_part (hle : p.npart ≤ startChunk.toNat) : Agree p fileIndex startChunk d := by
  intro s s' hs hs'
  obtain ⟨hfiles, hreport⟩ := (ended_i2c hsize hs).no_part hle
  obtain ⟨hfiles', hreport'⟩ := (ended_rs422 hsize hs').no_part hle
  exact ⟨hfiles.trans hfiles'.symm, hreport.trans hreport'.symm⟩

/-- **The downloads agree** if and only if `ft_part_size` counts no padding, or no part is loaded. -/
theorem downloads_agree_iff (fileIndex startChunk : UInt32) (d : Disk) :
    Agree p fileIndex startChunk d ↔
      p.npart ≤ startChunk.toNat ∨ p.counted = false ∨ p.padding = [] := by
  constructor
  · intro hagree
    by_contra hnot
    obtain ⟨hlt, hcond⟩ := not_or.1 hnot
    obtain ⟨hcounted, hpadding⟩ := not_or.1 hcond
    exact not_agree hsize (Nat.lt_of_not_le hlt) ((Bool.not_eq_false _).mp hcounted) hpadding hagree
  · rintro (hle | hcond)
    · exact agree_no_part hsize hle
    · rcases Nat.lt_or_ge startChunk.toNat p.npart with hlt | hle
      · exact agree_exact hsize hlt hcond
      · exact agree_no_part hsize hle

end Both

/-- A file of one byte in parts of two. -/
def padded : Payload where
  name := []
  data := [7]
  chunkSize := 2
  padding := [0]
  counted := true
  covered := true
  chunkSize_pos := by decide
  data_lt := by decide
  fits := by decide

theorem downloads_agree_padded : Agree padded 3 1 ⟨fun _ => none, [], 0⟩ :=
  (downloads_agree_iff (by decide) 3 1 _).2 (Or.inl (by decide))

/-- The padding is in the file on RS422 only. -/
theorem padded_disagree : ¬∀ (p : Payload), p.chunkSize.toNat ≤ 1016 →
    ∀ fileIndex startChunk d, Agree p fileIndex startChunk d := by
  intro hall
  exact not_agree (p := padded) (by decide) (by decide) rfl (by decide)
    (hall padded (by decide) 3 0 ⟨fun _ => none, [], 0⟩)

end Pay
end FlightApps
