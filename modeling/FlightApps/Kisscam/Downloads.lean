import FlightApps.Kisscam.Slots
import FlightApps.Lib.Words

/-!
# What a download leaves

`downloadCmd_spec` and `downloadAllCmd_spec` say of the two download commands what they leave of the
table, of the files and of the reports (`Downloaded`).  A report that the download has finished, with
nothing behind its phase, says that everything went well.
-/

set_option autoImplicit false

namespace FlightApps
namespace Kisscam

open Script

/-! ## The table and its file -/

/-- The descriptor of the table is one of its file. -/
structure Linked (d : Data) (k : Disk) : Prop where
  table : d.tblHandle < 0 ∨ ∃ off, k.fds d.tblHandle = some ⟨tblPath, off⟩

/-- The file starts with the table. -/
def TableStored (d : Data) (k : Disk) : Prop :=
  (k.files tblPath).take statusSize = statusBytes d.memSlotStatus

theorem length_statusBytes (m : MemoryStatus) : (statusBytes m).length = statusSize := by
  have hall : ∀ x ∈ m.toList.map fun e => e.bytes.length, x = entrySize := fun x hx => by
    obtain ⟨e, -, rfl⟩ := List.mem_map.1 hx
    simp [MemoryEntry.bytes, entrySize]
  rw [statusBytes, List.length_flatMap, List.eq_replicate_of_mem hall, List.sum_replicate_nat,
    List.length_map, Vector.length_toList]
  rfl

/-- Only the file of the table and its descriptor have changed. -/
structure Disk.TableOnly (d : Data) (k k' : Disk) : Prop where
  linked : Linked d k'
  files : ∀ p, p ≠ tblPath → k'.files p = k.files p
  log : k'.log = k.log
  reports : k'.reports = k.reports

theorem storeTable_spec {reliable : Bool} {d : Data} {k : Disk} (h : Linked d k) :
    wp (Disk.world reliable) (fun status k' => k.TableOnly d k' ∧
        (status = .success → TableStored d k') ∧
        (reliable = true → d.tblHandle < 0 ∨ TableStored d k'))
      (storeTable d) k := by
  rw [storeTable, writeToFile]
  rcases h.table with hneg | ⟨off, hfd⟩
  · rw [if_pos hneg]
    exact ⟨⟨h, fun _ _ => rfl, rfl, rfl⟩, fun hok => absurd hok (by simp), fun _ => .inl hneg⟩
  split
  · rename_i hneg
    exact ⟨⟨h, fun _ _ => rfl, rfl, rfl⟩, fun hok => absurd hok (by simp), fun _ => .inl hneg⟩
  rw [if_pos rfl]
  intro _ _
  have hseek : (Disk.world reliable).next k (.lseek d.tblHandle) () =
      k.opened d.tblHandle ⟨tblPath, 0⟩ := by
    simp only [Disk.world, Disk.next, hfd]
  rw [hseek]
  rintro (n : Int) ⟨(hle : n ≤ ((statusBytes d.memSlotStatus).length : Int)), -, hreliable⟩
  have hwrite : (Disk.world reliable).next (k.opened d.tblHandle ⟨tblPath, 0⟩)
      (.write d.tblHandle (statusBytes d.memSlotStatus)) n =
      ((k.opened d.tblHandle ⟨tblPath, 0⟩).putFile tblPath (File.write 0 (k.files tblPath) 0
        ((statusBytes d.memSlotStatus).take n.toNat))).opened d.tblHandle ⟨tblPath, n.toNat⟩ := by
    simp only [Disk.world, Disk.next, Disk.opened, Function.update_self, Nat.zero_add]
  rw [hwrite]
  generalize hk3 : ((k.opened d.tblHandle ⟨tblPath, 0⟩).putFile tblPath _).opened d.tblHandle _ = k3
  have hfd3 : k3.fds d.tblHandle = some ⟨tblPath, n.toNat⟩ := by
    rw [← hk3, Disk.opened_fds]
  have honly : k.TableOnly d k3 := by
    refine ⟨⟨.inr ⟨_, hfd3⟩⟩, fun p hp => ?_, by rw [← hk3]; rfl, by rw [← hk3]; rfl⟩
    simp only [← hk3, Disk.opened, Disk.putFile, Function.update_of_ne hp]
  dsimp only
  split
  · rename_i hshort
    refine ⟨honly, fun hok => absurd hok (by simp), fun hrel => absurd ?_ hshort⟩
    exact hreliable hrel _ (k.opened_fds _ _) rfl
  rename_i hall
  have hall : n = ((statusBytes d.memSlotStatus).length : Int) := not_not.1 hall
  have hstored : TableStored d k3 := by
    have htake : (statusBytes d.memSlotStatus).take n.toNat = statusBytes d.memSlotStatus :=
      List.take_of_length_le (by omega)
    have hfile : k3.files tblPath = File.write 0 (k.files tblPath) 0 (statusBytes d.memSlotStatus) := by
      simp only [← hk3, htake, Disk.opened, Disk.putFile, Function.update_self]
    rw [TableStored, hfile, ← length_statusBytes d.memSlotStatus, File.take_write_front]
  intro r hr
  dsimp only
  split
  · rename_i hsync
    refine ⟨honly, fun hok => absurd hok (by simp), fun hrel => absurd ?_ hsync⟩
    exact hr hrel ⟨tblPath, n.toNat⟩ hfd3 rfl
  · exact ⟨honly, fun _ => hstored, fun _ => .inr hstored⟩

/-! ## Lines that were got -/

/-- The first `n` lines of a range are in the file for it. -/
def Got (k : Disk) (mem idx pre : UInt8) (start num n : Nat) : Prop :=
  ∀ j, j < n → ∃ e, Copy.Has ⟨start, num, pre⟩ k mem idx (start + j) e

theorem Got.onDisk {k : Disk} {mem idx pre : UInt8} {start num n i : Nat}
    (h : Got k mem idx pre start num n) (hlo : start ≤ i) (hhi : i < start + n) : OnDisk k mem idx i := by
  obtain ⟨e, he⟩ := h (i - start) (by omega)
  rw [Nat.add_sub_cancel' hlo] at he
  exact ⟨_, e, he⟩

theorem Got.keep {k k' : Disk} {mem idx pre : UInt8} {start num n : Nat}
    (h : Got k mem idx pre start num n) (hquiet : k.Quiet mem k')
    (hfile : k'.files (imagePath mem.toNat idx.toNat start num) =
      k.files (imagePath mem.toNat idx.toNat start num)) : Got k' mem idx pre start num n := by
  intro j hj
  obtain ⟨e, he⟩ := h j hj
  exact ⟨e, he.isFor, he.isLine, hquiet.since he.since, by rw [hfile]; exact he.holds⟩

theorem not_captured_download {e : Exchange} (h : ∃ mem pre line, e.tx = downloadPacket mem pre line)
    (m : UInt8) : ¬e.Captured m := by
  obtain ⟨mem, pre, line, htx⟩ := h
  exact not_captured htx (by decide)

/-- The lines of the loop are in the file, if it was empty before. -/
theorem Fetched.got {d : Data} {k k' : Disk} {fd : Nat} {mem idx pre : UInt8} {start num : Nat}
    {got : List Exchange} {t : Transacted}
    (h : Fetched d k fd (imagePath mem.toNat idx.toNat start num) mem pre start got t k')
    (hempty : k.files (imagePath mem.toNat idx.toNat start num) = []) (hle : got.length ≤ max num 1) :
    Got k' mem idx pre start num got.length := by
  intro j hj
  obtain ⟨es, hlog, htx, hmem⟩ := h.log
  obtain ⟨part, hfiles⟩ := h.files
  have hget : got[j]? = some got[j] := List.getElem?_eq_getElem hj
  have hline := h.lines j _ hget
  obtain ⟨newer, older, hsplit⟩ := List.append_of_mem (hmem _ (List.getElem_mem hj))
  have hfor : Copy.For ⟨start, num, pre⟩ (start + j) :=
    ⟨Nat.le_add_right _ _, Nat.add_lt_add_left (Nat.lt_of_lt_of_le hj hle) start⟩
  refine ⟨got[j], hfor, hline, ⟨newer, older ++ k.log, ?_, ?_⟩, ?_⟩
  · rw [hlog, hsplit, List.append_assoc, List.cons_append]
  · intro e' he'
    obtain ⟨line, htx'⟩ := htx e' (by rw [hsplit]; exact List.mem_append_left _ he')
    exact not_captured_download ⟨mem, pre, line, htx'⟩ mem
  · have hwidth : ∀ e ∈ got, e.bytes.length = expectedRxSize pre := by
      intro e he
      obtain ⟨i, hi, rfl⟩ := List.getElem_of_mem he
      exact (h.lines i _ (List.getElem?_eq_getElem hi)).length
    have hfile : k'.files (imagePath mem.toNat idx.toNat start num) =
        got.flatMap Exchange.bytes ++ part := by
      rw [hfiles, Function.update_self, hempty, List.nil_append]
    rw [hfile, Nat.add_sub_cancel_left]
    exact File.holds_flatMap hwidth hget part

theorem Fetched.quiet {d : Data} {k k' : Disk} {fd : Nat} {path : Path} {mem pre : UInt8} {start : Nat}
    {got : List Exchange} {t : Transacted} (h : Fetched d k fd path mem pre start got t k') (m : UInt8) :
    k.Quiet m k' := by
  obtain ⟨es, hlog, htx, -⟩ := h.log
  refine ⟨es, hlog, fun e he => ?_⟩
  obtain ⟨line, hline⟩ := htx e he
  exact not_captured_download ⟨mem, pre, line, hline⟩ m

/-! ## The end of a download -/

/-- The report that a download has started. -/
def startedReport (cc : UInt8) : UInt8 × RetType × Code × Bytes := (cc, .success, .success, [phaseStarted])

/-- The report that a download has finished well. -/
def finishedReport (cc : UInt8) : UInt8 × RetType × Code × Bytes := (cc, .success, .success, [phaseFinished])

/-- What a download leaves. -/
structure Downloaded (reliable : Bool) (cc : UInt8) (d : Data) (k : Disk) (mem pre : UInt8)
    (start num : Nat) (d' : Data) (k' : Disk) : Prop where
  only : d.Only mem.toNat d'
  linked : Linked d' k'
  quiet : ∀ m, k.Quiet m k'
  files : ∀ p, p ≠ imagePath mem.toNat (d.entry mem.toNat).lastImgIdx.toNat start num → p ≠ tblPath →
    k'.files p = k.files p
  effect : d'.entry mem.toNat = d.entry mem.toNat ∧ k'.files tblPath = k.files tblPath ∨
    ∃ n, n ≤ max num 1 ∧ Got k' mem (d.entry mem.toNat).lastImgIdx pre start num n ∧
      Advanced pre start n (d.entry mem.toNat) (d'.entry mem.toNat) ∧
      (reliable = true → d.tblHandle < 0 ∨ TableStored d' k')
  reports : ∃ r, k'.reports = k.reports ++ [startedReport cc, r] ∧
    (r = finishedReport cc → Got k' mem (d.entry mem.toNat).lastImgIdx pre start num (max num 1) ∧
      Advanced pre start (max num 1) (d.entry mem.toNat) (d'.entry mem.toNat) ∧ TableStored d' k')

section Finish

variable {reliable : Bool} {cc pre : UInt8} {t : Transacted} {k : Disk}

/-- What the end of a download reports. -/
def finishData (pre : UInt8) (t : Transacted) : Bytes :=
  phaseFinished :: if t.result.readSize = expectedRxSize pre then []
    else (t.rx.take t.result.readSize).take (retValueBufSize - 1)

theorem wp_finish {Q : Data → Disk → Prop}
    (h : Q t.data { k with reports :=
      k.reports ++ [(cc, t.result.returnType, t.result.returnCode, finishData pre t)] }) :
    wp (Disk.world reliable) Q (finish cc pre t) k := by
  intro _ _
  have hdata : (phaseFinished :: (if t.result.readSize = expectedRxSize pre then []
      else t.rx.take t.result.readSize).take (retValueBufSize - 1)).take retValueBufSize =
      finishData pre t := by
    rw [finishData]
    split
    · rfl
    · rw [List.take_of_length_le (by simp [retValueBufSize])]
  rw [hdata]
  exact h

/-- A report without data is one of a response of the right length. -/
theorem finishData_ne {t : Transacted} (hsize : t.result.readSize ≠ expectedRxSize pre)
    (hdata : t.rx.take t.result.readSize ≠ []) : finishData pre t ≠ [phaseFinished] := by
  rw [finishData, if_neg hsize]
  intro h
  have hnil := (List.cons.inj h).2
  cases hrx : t.rx.take t.result.readSize with
  | nil => exact hdata hrx
  | cons b bs =>
    rw [hrx] at hnil
    exact absurd hnil (by simp [retValueBufSize])

theorem closeImage_spec (fd : Nat) :
    wp (Disk.world reliable) (fun t' k' => k' = { k with fds := Function.update k.fds fd none } ∧
        (t' = t ∨ ∃ code, t' = t.failed code)) (closeImage fd t) k := by
  rw [closeImage, wp_bind, closeFile, if_neg (by omega)]
  intro r _
  refine ⟨rfl, ?_⟩
  split
  · rw [if_neg (fun h => h.1 rfl)]
    exact .inl rfl
  · split
    · exact .inr ⟨_, rfl⟩
    · exact .inl rfl

end Finish

/-- Where a download stands that has got `n` lines and has closed its file. -/
structure Stage (cc : UInt8) (d : Data) (k : Disk) (mem pre : UInt8) (start num n : Nat) (t : Transacted)
    (k2 : Disk) : Prop where
  like : (markLines mem.toNat start n d).Like t.data
  le : n ≤ max num 1
  got : Got k2 mem (d.entry mem.toNat).lastImgIdx pre start num n
  files : ∀ p, p ≠ imagePath mem.toNat (d.entry mem.toNat).lastImgIdx.toNat start num →
    k2.files p = k.files p
  quiet : ∀ m, k.Quiet m k2
  linked : Linked d k2
  reports : k2.reports = k.reports ++ [startedReport cc]

section Conclude

variable {reliable : Bool} {cc : UInt8} {d : Data} {k : Disk} {mem pre : UInt8} {start num : Nat}

theorem Linked.like {d d' : Data} {k k' : Disk} (h : Linked d k) (htbl : d'.tblHandle = d.tblHandle)
    (hfds : k'.fds = k.fds) : Linked d' k' := ⟨by rw [htbl, hfds]; exact h.table⟩

theorem TableStored.like {d d' : Data} {k k' : Disk} (h : TableStored d k) (hlike : d.Like d')
    (hfiles : k'.files = k.files) : TableStored d' k' := by
  rw [TableStored, hfiles, hlike.memSlotStatus]
  exact h

/-- A table that has changed goes to its file, and the download ends. -/
theorem Stage.conclude {n : Nat} {t : Transacted} {k2 : Disk} (h : Stage cc d k mem pre start num n t k2)
    {d3 : Data} (hadvanced : Advanced pre start n (d.entry mem.toNat) (d3.entry mem.toNat))
    (honly : t.data.Only mem.toNat d3)
    (hgood : t.result.returnType = .success → finishData pre t = [phaseFinished] → n = max num 1) :
    wp (Disk.world reliable) (Downloaded reliable cc d k mem pre start num)
      ((storeTable d3).bind fun status => finish cc pre
        (if status ≠ .success ∧ t.result.returnType = .success
          then ({ t with data := d3 } : Transacted).failed status else { t with data := d3 })) k2 := by
  have hall : d.Only mem.toNat d3 := ((only_markLines start n).trans h.like.only).trans honly
  rw [wp_bind]
  refine wp_mono (storeTable_spec (h.linked.like hall.tblHandle rfl)) ?_
  rintro status k3 ⟨htable, hstored, hreliable⟩
  have hgot : Got k3 mem (d.entry mem.toNat).lastImgIdx pre start num n :=
    h.got.keep (.of_eq htable.log) (htable.files _ (imagePath_ne_tblPath _ _ _ _))
  have hfiles : ∀ p, p ≠ imagePath mem.toNat (d.entry mem.toNat).lastImgIdx.toNat start num →
      p ≠ tblPath → k3.files p = k.files p := fun p hp htbl => by rw [htable.files p htbl, h.files p hp]
  have hreports : k3.reports = k.reports ++ [startedReport cc] := by rw [htable.reports, h.reports]
  have hquiet : ∀ m, k.Quiet m k3 := fun m => (h.quiet m).trans (.of_eq htable.log)
  refine wp_finish ?_
  split
  · refine ⟨hall.trans (d3.like_err).only, htable.linked.like rfl rfl, fun m => ⟨(hquiet m).log⟩,
      hfiles, ?_, ?_⟩
    · exact .inr ⟨n, h.le, hgot.keep (.of_eq rfl) rfl, hadvanced, fun hrel =>
        (hreliable hrel).imp (fun hneg => hall.tblHandle ▸ hneg) fun hst => hst.like d3.like_err rfl⟩
    · refine ⟨_, by rw [hreports, List.append_assoc]; rfl, fun hr => ?_⟩
      exact absurd (congrArg (fun r => r.2.1) hr) (by simp [Transacted.failed, finishedReport])
  · rename_i hok
    refine ⟨hall, htable.linked.like rfl rfl, fun m => ⟨(hquiet m).log⟩, hfiles, ?_, ?_⟩
    · exact .inr ⟨n, h.le, hgot.keep (.of_eq rfl) rfl, hadvanced, fun hrel =>
        (hreliable hrel).imp (fun hneg => hall.tblHandle ▸ hneg) id⟩
    · refine ⟨_, by rw [hreports, List.append_assoc]; rfl, fun hr => ?_⟩
      obtain ⟨htype, hdata⟩ : t.result.returnType = .success ∧ finishData pre t = [phaseFinished] :=
        ⟨congrArg (fun r => r.2.1) hr, congrArg (fun r => r.2.2.2) hr⟩
      have hstatus : status = .success := by
        by_contra hne
        exact hok ⟨hne, htype⟩
      obtain rfl := hgood htype hdata
      exact ⟨hgot.keep (.of_eq rfl) rfl, hadvanced, hstored hstatus⟩

/-- A download that ends without a line for the table. -/
theorem wp_abandon {t : Transacted} {k2 : Disk} (hlike : d.Like t.data) (hlinked : Linked d k2)
    (hquiet : ∀ m, k.Quiet m k2)
    (hfiles : ∀ p, p ≠ imagePath mem.toNat (d.entry mem.toNat).lastImgIdx.toNat start num →
      k2.files p = k.files p)
    (hreports : k2.reports = k.reports ++ [startedReport cc])
    (hbad : t.result.returnType = .success → finishData pre t ≠ [phaseFinished]) :
    wp (Disk.world reliable) (Downloaded reliable cc d k mem pre start num) (finish cc pre t) k2 := by
  refine wp_finish ⟨hlike.only, hlinked.like hlike.tblHandle rfl, fun m => ⟨(hquiet m).log⟩,
    fun p hp _ => hfiles p hp, ?_, ?_⟩
  · exact .inl ⟨hlike.entry _, hfiles _ (imagePath_ne_tblPath _ _ _ _).symm⟩
  · refine ⟨_, by rw [hreports, List.append_assoc]; rfl, fun hr => ?_⟩
    exact absurd (congrArg (fun r => r.2.2.2) hr) (hbad (congrArg (fun r => r.2.1) hr))

/-- The disk when an image file has been opened. -/
def opened (k : Disk) (path : Path) (fd : Nat) : Disk := (k.putFile path []).opened fd ⟨path, 0⟩

/-- What happens to another descriptor is none of the table's business. -/
theorem Linked.beside {k' : Disk} {fd : Nat} (h : Linked d k) (hfree : k.fds fd = none)
    (hfds : ∀ id, id ≠ (fd : Int) → k'.fds id = k.fds id) : Linked d k' := by
  refine ⟨h.table.imp id ?_⟩
  rintro ⟨off, htbl⟩
  have hne : d.tblHandle ≠ fd := fun heq => by
    rw [heq, hfree] at htbl
    exact absurd htbl (by simp)
  exact ⟨off, by rw [hfds _ hne, htbl]⟩

/-- The loop is done, and the file closed. -/
theorem Fetched.stage {k1 k2 : Disk} {fd : Nat} {got : List Exchange} {t t' : Transacted} {path : Path}
    (hpath : path = imagePath mem.toNat (d.entry mem.toNat).lastImgIdx.toNat start num)
    (h : Fetched d (opened k1 path fd) fd path mem pre start got t k2) (hle : got.length ≤ max num 1)
    (hlinked : Linked d k) (hfree : k.fds fd = none)
    (hk1 : k1 = { k with reports := k.reports ++ [startedReport cc] }) (ht' : t.data.Like t'.data) :
    Stage cc d k mem pre start num got.length t' { k2 with fds := Function.update k2.fds fd none } := by
  have hempty : (opened k1 path fd).files path = [] := by
    simp only [opened, Disk.opened, Disk.putFile, Function.update_self]
  obtain ⟨part, hfiles⟩ := h.files
  obtain ⟨off, hfds⟩ := h.fds
  refine ⟨h.like.trans ht', hle, ?_, fun p hp => ?_, fun m => ?_,
    hlinked.beside hfree fun id hid => ?_, ?_⟩
  · subst hpath
    exact (h.got hempty hle).keep (.of_eq rfl) rfl
  · rw [← hpath] at hp
    simp only [hfiles, Function.update_of_ne hp, opened, Disk.opened, Disk.putFile, hk1]
  · exact (Disk.Quiet.of_eq (by rw [hk1]; rfl)).trans ((h.quiet m).trans (.of_eq rfl))
  · simp only [hfds, Function.update_of_ne hid, opened, Disk.opened, Disk.putFile, hk1]
  · rw [h.reports, hk1]
    rfl

/-- **A range of lines.** -/
theorem downloadRange_spec (hmem : mem.toNat < memorySlot) (hnum : 0 < num) (hlines : start + num ≤ 480)
    (hlinked : Linked d k) :
    wp (Disk.world reliable) (Downloaded reliable downloadAllCC d k mem pre start num)
      (downloadRange d mem pre start num) k := by
  intro _ _
  rintro (errno | fd) hopen
  · refine wp_abandon ⟨rfl, rfl, rfl⟩ (hlinked.like rfl rfl) (fun m => .of_eq rfl) (fun _ _ => rfl) rfl
      fun hok => absurd hok (by simp [Transacted.failed])
  generalize hk1 : (Disk.world reliable).next k (.sendReport downloadAllCC _ _ _) () = k1
  have hk1 : k1 = { k with reports := k.reports ++ [startedReport downloadAllCC] } := hk1.symm
  obtain ⟨path, hpath⟩ : ∃ path, path =
      imagePath mem.toNat (d.entry mem.toNat).lastImgIdx.toNat start num := ⟨_, rfl⟩
  have hempty : (opened k1 path fd).files path = [] := by
    simp only [opened, Disk.opened, Disk.putFile, Function.update_self]
  have hfd : (opened k1 path fd).fds fd = some ⟨path, ((opened k1 path fd).files path).length⟩ := by
    rw [hempty, opened, Disk.opened_fds]
    rfl
  rw [← hpath, wp_bind]
  refine wp_mono (downloadLines_spec (k := opened k1 path fd) num start _ hfd) ?_
  rintro t1 k2 ⟨got, hle, hfetched, hall⟩
  rw [wp_bind]
  refine wp_mono (closeImage_spec fd) ?_
  rintro t2 k3 ⟨rfl, ht2⟩
  have hlike : t1.data.Like t2.data := by
    rcases ht2 with rfl | ⟨code, rfl⟩
    · exact .refl _
    · exact Data.like_err _
  have hmax : max num 1 = num := Nat.max_eq_left hnum
  have hstage := hfetched.stage hpath (by omega) hlinked hopen hk1 hlike
  have hrange : start + got.length ≤ 480 := by omega
  refine hstage.conclude ?_ ?_ fun hok hdata => ?_
  · split
    · exact advanced_inspection hmem hrange hstage.like
    · exact advanced_setState hmem hrange hstage.like
  · split
    · exact (only_setState _).trans (only_inspection _)
    · exact only_setState _
  · rcases ht2 with rfl | ⟨code, rfl⟩
    · rcases hall hok with ⟨hlen, -⟩ | ⟨hsize, hrx⟩
      · rw [hlen, hmax]
      · exact absurd hdata (finishData_ne hsize hrx)
    · exact absurd hok (by simp [Transacted.failed])

/-- The packet of a single line is the one that its number makes. -/
theorem configurePacket_line (mem pre ln1 ln2 : UInt8) :
    configurePacket [mem, pre, ln1, ln2] downloadCmdCode =
      downloadPacket mem pre (ln1.toUInt16 <<< 8 ||| ln2.toUInt16).toNat := by
  rw [downloadPacket, UInt16.ofNat_toNat, UInt16.or_comm]
  simp only [UInt16.toUInt8_and, UInt16.toUInt8_ofNat, Words.and_ff, Words.u16_lo, Words.u16_hi]

/-- **A single line.** -/
theorem downloadLine_spec {ln1 ln2 : UInt8} {line : Nat} (hmem : mem.toNat < memorySlot)
    (hline : line = (ln1.toUInt16 <<< 8 ||| ln2.toUInt16).toNat) (hlt : line < 480)
    (hlinked : Linked d k) :
    wp (Disk.world reliable) (Downloaded reliable downloadCC d k mem pre line 0)
      (downloadLine d mem pre ln1 ln2 line) k := by
  intro _ _
  generalize hk1 : (Disk.world reliable).next k (.sendReport downloadCC _ _ _) () = k1
  have hk1 : k1 = { k with reports := k.reports ++ [startedReport downloadCC] } := hk1.symm
  rw [configurePacket_line, ← hline, wp_bind]
  refine wp_mono (downloadTransaction_spec hcapacity) ?_
  rintro t1 k2 ⟨es, -, h1⟩
  have hquiet : ∀ m, k.Quiet m k2 := fun m =>
    (Disk.Quiet.of_eq (by rw [hk1])).trans (h1.talked.quiet (by decide))
  have hfiles : k2.files = k.files := by rw [h1.talked.files, hk1]
  have hfds : k2.fds = k.fds := by rw [h1.talked.fds, hk1]
  have hreports : k2.reports = k.reports ++ [startedReport downloadCC] := by rw [h1.talked.reports, hk1]
  have hlinked2 : Linked d k2 := hlinked.like rfl hfds
  split
  · rename_i hfail
    exact wp_abandon h1.like hlinked2 hquiet (fun p _ => congrFun hfiles p) hreports
      fun hok => absurd hok hfail
  rename_i hok
  obtain ⟨e, rest, rfl, hwhole, -, hresult, -, htake⟩ := h1.success (not_not.1 hok)
  split
  · rename_i hsize
    refine wp_abandon h1.like hlinked2 hquiet (fun p _ => congrFun hfiles p) hreports
      fun _ => finishData_ne hsize ?_
    rw [hresult, TransactionResult.success, htake]
    exact hwhole.ne_nil
  rename_i hsize
  rintro (errno | fd) hopen
  · exact wp_abandon (h1.like.trans (Data.like_err _)) hlinked2 hquiet (fun p _ => congrFun hfiles p)
      hreports fun hok => absurd hok (by simp [Transacted.failed])
  obtain ⟨path, hpath⟩ : ∃ path, path =
      imagePath mem.toNat (d.entry mem.toNat).lastImgIdx.toNat line 0 := ⟨_, rfl⟩
  have hlength : e.bytes.length = expectedRxSize pre := by
    rw [← not_not.1 hsize, hresult]
    rfl
  rw [h1.like.entry, ← hpath] at hopen ⊢
  have hempty : (opened k2 path fd).files path = [] := by
    simp only [opened, Disk.opened, Disk.putFile, Function.update_self]
  have hfd : (opened k2 path fd).fds fd = some ⟨path, ((opened k2 path fd).files path).length⟩ := by
    rw [hempty, opened, Disk.opened_fds]
    rfl
  rw [wp_bind]
  refine wp_mono (writeToFile_spec (k := opened k2 path fd) hfd) ?_
  rintro status k4 ⟨part, hpart, hk4⟩
  rw [wp_bind]
  refine wp_mono (closeImage_spec fd) ?_
  rintro t3 k5 ⟨hk5, ht3⟩
  have hfiles5 : k5.files = Function.update k.files path part := by
    simp only [hk5, hk4, opened, Disk.opened, Disk.putFile, Function.update_self, Function.update_idem,
      List.nil_append, hfiles]
  have hfds5 : ∀ id, id ≠ (fd : Int) → k5.fds id = k.fds id := fun id hid => by
    simp only [hk5, hk4, opened, Disk.opened, Disk.putFile, Function.update_of_ne hid, hfds]
  have hlog5 : k5.log = k2.log := by
    simp only [hk5, hk4, opened, Disk.opened, Disk.putFile]
  have hreports5 : k5.reports = k.reports ++ [startedReport downloadCC] := by
    rw [← hreports]
    simp only [hk5, hk4, opened, Disk.opened, Disk.putFile]
  have hquiet5 : ∀ m, k.Quiet m k5 := fun m => (hquiet m).trans (.of_eq hlog5)
  have hlinked5 : Linked d k5 := hlinked.beside (by rw [← hfds]; exact hopen) hfds5
  have hother : ∀ p, p ≠ imagePath mem.toNat (d.entry mem.toNat).lastImgIdx.toNat line 0 →
      k5.files p = k.files p := fun p hp => by rw [hfiles5, hpath, Function.update_of_ne hp]
  split
  · rename_i hfail
    have hlike : t1.data.Like t3.data := by
      rcases ht3 with rfl | ⟨code, rfl⟩ <;> split <;> exact ⟨rfl, rfl, rfl⟩
    exact wp_abandon (h1.like.trans hlike) hlinked5 hquiet5 hother hreports5
      fun hok => absurd hok hfail
  rename_i hok3
  obtain ⟨hstatus, rfl⟩ : status = .success ∧ t3 = t1 := by
    rcases ht3 with ht3 | ⟨code, ht3⟩
    · split at ht3
      · exact absurd (by rw [ht3]; simp [Transacted.failed]) hok3
      · rename_i hstatus
        exact ⟨not_not.1 hstatus, ht3⟩
    · exact absurd (by rw [ht3]; simp [Transacted.failed]) hok3
  obtain rfl := hpart hstatus
  rw [← hlength, htake] at hfiles5
  have hgot : Got k5 mem (d.entry mem.toNat).lastImgIdx pre line 0 1 := by
    intro j hj
    obtain rfl := Nat.lt_one_iff.1 hj
    refine ⟨e, ⟨Nat.le_refl _, Nat.lt_succ_self _⟩, ⟨hwhole, h1.talked.tx e (by simp), hlength⟩, ?_, ?_⟩
    · exact (Disk.Quiet.of_eq hlog5).since ⟨[], rest ++ k1.log, h1.talked.log, by simp⟩
    · rw [hfiles5, hpath, Function.update_self, Nat.add_zero, Nat.sub_self, Nat.zero_mul]
      simpa using File.holds_append ([] : Bytes) e.bytes []
  have hlike : (markLines mem.toNat line 1 d).Like (setLineTrue t3.data mem.toNat line) :=
    h1.like.setLineTrue mem.toNat line
  have hstage : Stage downloadCC d k mem pre line 0 1
      { t3 with data := setLineTrue t3.data mem.toNat line } k5 :=
    ⟨hlike, Nat.le_refl 1, hgot, hother, hquiet5, hlinked5, hreports5⟩
  have hconclude : wp (Disk.world reliable) _ _ k5 := hstage.conclude
    (advanced_inspection hmem (show line + 1 ≤ 480 by omega) hlike)
    ((only_setState onGoing).trans (only_inspection (totLine pre))) fun _ _ => rfl
  simpa only [not_not.1 hok, and_true] using hconclude

end Conclude

end Kisscam
end FlightApps
