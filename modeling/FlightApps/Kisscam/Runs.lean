import FlightApps.Kisscam.Downloads

/-!
# Runs of the camera app

A run is ground commands, one after the other, and restarts of the app, with whatever is answered.
A slot is kept (`Kept`) if the lines that its table has marked are on the disk, and if the image of a
slot that is done is there as a whole.  That holds throughout a run (`run_kept`) in which a download
asks for lines that are missing: one that asks for lines again empties their file before it has them,
and the table does not know.

A restart takes the table from its file.  If that is written without errors, what comes back of a slot
is what there was, or what there was before a capture that no download followed (`run_restored`).
-/

set_option autoImplicit false

namespace FlightApps
namespace Kisscam

open Script

/-! ## What a command does -/

/-- The table is as it was, and so are the files. -/
structure Plain (d : Data) (k : Disk) (d' : Data) (k' : Disk) : Prop where
  like : d.Like d'
  files : k'.files = k.files
  fds : k'.fds = k.fds
  quiet : ∀ m, k.Quiet m k'
  reports : ∃ r, k'.reports = k.reports ++ [r]

/-- A slot has been captured. -/
structure Cleared (mem : UInt8) (d : Data) (k : Disk) (d' : Data) (k' : Disk) : Prop where
  only : d.Only mem.toNat d'
  entry : d'.entry mem.toNat = (d.entry mem.toNat).cleared
  files : k'.files = k.files
  fds : k'.fds = k.fds
  quiet : ∀ m, m ≠ mem → k.Quiet m k'
  reports : ∃ r, k'.reports = k.reports ++ [r]

/-- What a command does. -/
inductive Performed (reliable : Bool) (d : Data) (k : Disk) (d' : Data) (k' : Disk) : Cmd → Prop
  | plain {cmd : Cmd} (h : Plain d k d' k') : Performed reliable d k d' k' cmd
  | capture {mem tst : UInt8} (h : Cleared mem d k d' k') :
      Performed reliable d k d' k' (.capture mem tst)
  | download {mem pre ln1 ln2 : UInt8} (hmem : mem.toNat < memorySlot)
      (h : Downloaded reliable downloadCC d k mem pre (ln1.toUInt16 <<< 8 ||| ln2.toUInt16).toNat 0 d' k') :
      Performed reliable d k d' k' (.download mem pre ln1 ln2)
  | downloadAll {mem pre : UInt8} {startLine lineNum : UInt16} (hmem : mem.toNat < memorySlot)
      (h : Downloaded reliable downloadAllCC d k mem pre startLine.toNat
        (if lineNum = 0 then 1 else lineNum.toNat) d' k') :
      Performed reliable d k d' k' (.downloadAll mem pre startLine lineNum)

section Commands

variable {reliable : Bool} {d : Data} {k : Disk}

theorem wp_reportAppError (d0 : Data) {cc : UInt8} {code : Code} (h : d0.Like d) :
    wp (Disk.world reliable) (Plain d0 k) (reportAppError d cc code) k := by
  intro _ _
  exact ⟨h.trans d.like_err, rfl, rfl, fun m => .of_eq rfl, _, rfl⟩

/-- A command of one transaction that is no capture. -/
theorem transactionCmd_spec (d0 : Data) {cc cmdCode : UInt8} {payload : Bytes} {tlmSize : Nat}
    (h : d0.Like d) (hne : cmdCode ≠ captureCmdCode) :
    wp (Disk.world reliable) (Plain d0 k) (transactionCmd d cc cmdCode payload tlmSize) k := by
  rw [transactionCmd, wp_bind]
  have hroom : hdrTailSize ≤ (List.replicate (rxBufSize tlmSize) (0 : UInt8)).length := by
    rw [List.length_replicate, rxBufSize, hdrTailSize]
    split <;> omega
  refine wp_mono (transaction_spec hroom) ?_
  rintro t k' ⟨e, ht⟩
  intro _ _
  exact ⟨h.trans ht.like, ht.talked.files, ht.talked.fds,
    fun m => (ht.talked.quiet hne).trans (.of_eq rfl), ⟨_, congrArg (· ++ _) ht.talked.reports⟩⟩

/-- A response to a capture is one of the slot that was asked for. -/
theorem Exchange.Captured.mem_eq {e : Exchange} {m mem tst : UInt8} (h : e.Captured m)
    (htx : e.tx = configurePacket [mem, tst] captureCmdCode) : m = mem := by
  obtain ⟨⟨tst', htx'⟩, -, -⟩ := h
  rw [htx, configurePacket, configurePacket] at htx'
  exact (List.cons.inj (List.cons.inj (List.cons.inj htx').2).2).1.symm

theorem captureCmd_spec (mem tst : UInt8) :
    wp (Disk.world reliable) (fun d' k' => Performed reliable d k d' k' (.capture mem tst))
      (captureCmd d mem tst) k := by
  rw [captureCmd]
  split
  · exact wp_mono (wp_reportAppError d ⟨rfl, rfl, rfl⟩) fun _ _ h => .plain h
  rename_i hmem
  have hmem : mem.toNat < memorySlot := Nat.not_le.1 hmem
  have hroom : hdrTailSize ≤ (List.replicate (rxBufSize captureTlmSize) (0 : UInt8)).length := by decide
  rw [wp_bind]
  refine wp_mono (transaction_spec hroom) ?_
  rintro t k' ⟨e, ht⟩
  intro _ _
  have htx : e.tx = configurePacket [mem, tst] captureCmdCode := ht.talked.tx e (by simp)
  have hlike : d.Like t.data := ⟨ht.like.handle, ht.like.tblHandle, ht.like.memSlotStatus⟩
  split
  · refine .capture ⟨hlike.only.trans (Data.only_setEntry _), ?_, ht.talked.files, ht.talked.fds,
      fun m hm => ⟨[e], ht.talked.log, fun e' he' h => ?_⟩, ⟨_, congrArg (· ++ _) ht.talked.reports⟩⟩
    · exact (entry_setEntry_self hmem _).trans (by rw [hlike.entry])
    · rw [List.mem_singleton.1 he'] at h
      exact hm (h.mem_eq htx)
  · rename_i hnot
    refine .plain ⟨hlike, ht.talked.files, ht.talked.fds,
      fun m => ⟨[e], ht.talked.log, fun e' he' h => hnot ?_⟩, ⟨_, congrArg (· ++ _) ht.talked.reports⟩⟩
    rw [List.mem_singleton.1 he'] at h
    by_cases hok : t.result.returnType = .success
    · obtain ⟨e'', rest, hes, -, -, hresult, -⟩ := ht.success hok
      obtain rfl : e = e'' := (List.cons.inj hes).1
      exact ⟨hok, by rw [hresult]; exact h.length⟩
    · exact absurd h.whole (ht.failure hok e (by simp))

theorem totLine_le (pre : UInt8) : totLine pre ≤ 480 := by
  rw [totLine, thumbnailImgLineNum, imgLineNum]
  split <;> omega

theorem Downloaded.like (d0 : Data) {cc mem pre : UInt8} {start num : Nat} {d' : Data} {k' : Disk}
    (h : Downloaded reliable cc d k mem pre start num d' k') (hlike : d0.Like d) :
    Downloaded reliable cc d0 k mem pre start num d' k' := by
  have hentry := hlike.entry mem.toNat
  obtain ⟨honly, hlinked, hquiet, hfiles, heffect, hreports⟩ := h
  rw [hentry] at hfiles heffect hreports
  rw [hlike.tblHandle] at heffect
  exact ⟨hlike.only.trans honly, hlinked, hquiet, hfiles, heffect, hreports⟩

theorem downloadCmd_spec (hlinked : Linked d k) (mem pre ln1 ln2 : UInt8) :
    wp (Disk.world reliable) (fun d' k' => Performed reliable d k d' k' (.download mem pre ln1 ln2))
      (downloadCmd d mem pre ln1 ln2) k := by
  rw [downloadCmd]
  dsimp only
  split
  · exact wp_mono (wp_reportAppError d ⟨rfl, rfl, rfl⟩) fun _ _ h => .plain h
  rename_i htarget
  split
  · exact wp_mono (wp_reportAppError d ⟨rfl, rfl, rfl⟩) fun _ _ h => .plain h
  rename_i hline
  have hmem : mem.toNat < memorySlot := by
    simp only [validTarget, decide_eq_true_eq, not_not] at htarget
    exact htarget.1
  have htot := totLine_le pre
  refine wp_mono (downloadLine_spec hmem rfl (by omega) (hlinked.like rfl rfl)) fun d' k' h => ?_
  exact .download hmem (h.like d ⟨rfl, rfl, rfl⟩)

theorem downloadAllCmd_spec (hlinked : Linked d k) (mem pre : UInt8) (startLine lineNum : UInt16) :
    wp (Disk.world reliable)
      (fun d' k' => Performed reliable d k d' k' (.downloadAll mem pre startLine lineNum))
      (downloadAllCmd d mem pre startLine lineNum) k := by
  rw [downloadAllCmd]
  dsimp only
  split
  · exact wp_mono (wp_reportAppError d ⟨rfl, rfl, rfl⟩) fun _ _ h => .plain h
  rename_i htarget
  have hmem : mem.toNat < memorySlot := by
    simp only [validTarget, decide_eq_true_eq, not_not] at htarget
    exact htarget.1
  have htot := totLine_le pre
  have hnum : 0 < if lineNum = 0 then 1 else lineNum.toNat := by
    split
    · exact Nat.one_pos
    · rename_i hne
      exact Nat.pos_of_ne_zero fun h => hne (UInt16.toNat_inj.1 h)
  by_cases hrange : startLine.toNat ≥ totLine pre ∨
      (if lineNum = 0 then 1 else lineNum.toNat) > totLine pre - startLine.toNat
  · rw [if_pos hrange]
    exact wp_mono (wp_reportAppError d ⟨rfl, rfl, rfl⟩) fun _ _ h => .plain h
  · rw [if_neg hrange]
    refine wp_mono (downloadRange_spec hmem hnum (by omega) (hlinked.like rfl rfl)) fun d' k' h => ?_
    exact .downloadAll hmem (h.like d ⟨rfl, rfl, rfl⟩)

/-- **What every command does.** -/
theorem processGroundCommand_spec (hlinked : Linked d k) (cmd : Cmd) :
    wp (Disk.world reliable) (fun d' k' => Performed reliable d k d' k' cmd)
      (processGroundCommand d cmd) k := by
  have hplain : ∀ {d' : Data} {k' : Disk}, Plain d k d' k' → Performed reliable d k d' k' cmd :=
    fun h => .plain h
  cases cmd with
  | noop => exact fun () _ => hplain ⟨⟨rfl, rfl, rfl⟩, rfl, rfl, fun m => .of_eq rfl, _, rfl⟩
  | resetCounters => exact fun () _ => hplain ⟨⟨rfl, rfl, rfl⟩, rfl, rfl, fun m => .of_eq rfl, _, rfl⟩
  | ping pn => exact wp_mono (transactionCmd_spec d ⟨rfl, rfl, rfl⟩ (by decide)) fun _ _ => hplain
  | setMode md =>
    rw [processGroundCommand, setModeCmd]
    split
    · exact wp_mono (wp_reportAppError d ⟨rfl, rfl, rfl⟩) fun _ _ => hplain
    · exact wp_mono (transactionCmd_spec d ⟨rfl, rfl, rfl⟩ (by decide)) fun _ _ => hplain
  | memoryStatus => exact wp_mono (transactionCmd_spec d ⟨rfl, rfl, rfl⟩ (by decide)) fun _ _ => hplain
  | setExposure ex1 ex2 =>
    exact wp_mono (transactionCmd_spec d ⟨rfl, rfl, rfl⟩ (by decide)) fun _ _ => hplain
  | capture mem tst => exact captureCmd_spec mem tst
  | download mem pre ln1 ln2 => exact downloadCmd_spec hlinked mem pre ln1 ln2
  | readRegister ad1 ad2 =>
    exact wp_mono (transactionCmd_spec d ⟨rfl, rfl, rfl⟩ (by decide)) fun _ _ => hplain
  | writeRegister ad1 ad2 rg1 rg2 =>
    exact wp_mono (transactionCmd_spec d ⟨rfl, rfl, rfl⟩ (by decide)) fun _ _ => hplain
  | downloadAll mem pre startLine lineNum => exact downloadAllCmd_spec hlinked mem pre startLine lineNum

end Commands

/-! ## Slots that are kept -/

/-- The marked lines are on the disk, and the image of a slot that is done is there as a whole. -/
structure SlotKept (k : Disk) (mem : UInt8) (e : MemoryEntry) : Prop where
  marked : ∀ i, e.lineState.marked i = true → OnDisk k mem e.lastImgIdx i
  done : e.memoryState = downloadDone → ∃ pre, ∀ i < totLine pre, OnDisk k mem (e.lastImgIdx - 1) i

structure Kept (d : Data) (k : Disk) : Prop where
  linked : Linked d k
  slots : ∀ mem : UInt8, mem.toNat < memorySlot → SlotKept k mem (d.entry mem.toNat)

/-- How many lines a command of a range asks for. -/
def lineCount (lineNum : UInt16) : Nat := if lineNum = 0 then 1 else lineNum.toNat

/-- A download asks for lines that are missing. -/
def Cmd.AsksMissing (d : Data) : Cmd → Prop
  | .download mem _ ln1 ln2 =>
    (d.entry mem.toNat).lineState.marked (ln1.toUInt16 <<< 8 ||| ln2.toUInt16).toNat = false
  | .downloadAll mem _ startLine lineNum => ∀ i, startLine.toNat ≤ i →
      i < startLine.toNat + lineCount lineNum → (d.entry mem.toNat).lineState.marked i = false
  | _ => True

theorem sub_one_ne (idx : UInt8) : idx - 1 ≠ idx := by
  intro h
  have hnat := congrArg UInt8.toNat h
  have hlt := idx.toNat_lt
  rw [UInt8.toNat_sub] at hnat
  simp at hnat
  omega

section Kept

variable {reliable : Bool} {d d' : Data} {k k' : Disk}

/-- A slot whose files stay is kept. -/
theorem SlotKept.keep {mem : UInt8} {e : MemoryEntry} (h : SlotKept k mem e) (hquiet : k.Quiet mem k')
    (hfiles : ∀ idx start num, k'.files (imagePath mem.toNat idx start num) =
      k.files (imagePath mem.toNat idx start num)) : SlotKept k' mem e where
  marked i hi := (h.marked i hi).keep hquiet fun _ _ => hfiles _ _ _
  done hdone := by
    obtain ⟨pre, hall⟩ := h.done hdone
    exact ⟨pre, fun i hi => (hall i hi).keep hquiet fun _ _ => hfiles _ _ _⟩

theorem Kept.plain (h : Kept d k) (hplain : Plain d k d' k') : Kept d' k' where
  linked := h.linked.like hplain.like.tblHandle hplain.fds
  slots mem hmem := by
    rw [hplain.like.entry]
    exact (h.slots mem hmem).keep (hplain.quiet mem) fun _ _ _ => by rw [hplain.files]

theorem Kept.cleared {mem : UInt8} (h : Kept d k) (hclear : Cleared mem d k d' k') : Kept d' k' where
  linked := h.linked.like hclear.only.tblHandle hclear.fds
  slots m hm := by
    by_cases hmem : m = mem
    · subst hmem
      rw [hclear.entry]
      exact ⟨fun i hi => absurd hi (by simp [MemoryEntry.cleared, Bitmap.marked_clear]), fun hdone =>
        absurd hdone (show notStarted ≠ downloadDone by decide)⟩
    · have hne : m.toNat ≠ mem.toNat := fun heq => hmem (UInt8.toNat_inj.1 heq)
      rw [hclear.only.others _ hne]
      exact (h.slots m hm).keep (hclear.quiet m hmem) fun _ _ _ => by rw [hclear.files]

/-- **A download of missing lines** keeps the slots. -/
theorem Kept.downloaded {cc mem pre : UInt8} {start num : Nat} (h : Kept d k)
    (hmem : mem.toNat < memorySlot)
    (hmissing : ∀ i, start ≤ i → i < start + max num 1 →
      (d.entry mem.toNat).lineState.marked i = false)
    (hdown : Downloaded reliable cc d k mem pre start num d' k') : Kept d' k' where
  linked := hdown.linked
  slots m hm := by
    by_cases hslot : m = mem
    · subst hslot
      have hkept := h.slots m hm
      -- Another image, or a line that is not asked for: its file is not the one that is written.
      have hother : ∀ {idx : UInt8} {i : Nat}, idx ≠ (d.entry m.toNat).lastImgIdx →
          OnDisk k m idx i → OnDisk k' m idx i := by
        intro idx i hidx hon
        refine hon.keep (hdown.quiet m) fun c hc => ?_
        refine hdown.files _ (fun heq => hidx ?_) (imagePath_ne_tblPath _ _ _ _)
        exact UInt8.toNat_inj.1 (imagePath_inj heq).2.1
      have hold : ∀ {i : Nat}, (d.entry m.toNat).lineState.marked i = true →
          OnDisk k' m (d.entry m.toNat).lastImgIdx i := by
        intro i hi
        refine (hkept.marked i hi).keep (hdown.quiet m) fun c hc => ?_
        refine hdown.files _ (fun heq => ?_) (imagePath_ne_tblPath _ _ _ _)
        obtain ⟨-, -, hstart, hnum⟩ := imagePath_inj heq
        rw [Copy.For, hstart, hnum] at hc
        rw [hmissing i hc.1 hc.2] at hi
        exact absurd hi (by decide)
      rcases hdown.effect with ⟨hsame, -⟩ | ⟨n, hn, hgot, hadvanced, -⟩
      · rw [hsame]
        refine ⟨fun i hi => hold hi, fun hdone => ?_⟩
        obtain ⟨pre', hall⟩ := hkept.done hdone
        exact ⟨pre', fun i hi => hother (sub_one_ne _) (hall i hi)⟩
      · have hafter : ∀ {i : Nat}, (d.entry m.toNat).After start n i →
            OnDisk k' m (d.entry m.toNat).lastImgIdx i := by
          rintro i (hi | ⟨-, hlo, hhi⟩)
          · exact hold hi
          · exact hgot.onDisk hlo hhi
        cases hadvanced with
        | going hstate hidx hmarked =>
          refine ⟨fun i hi => ?_, fun hdone => absurd (hstate.symm.trans hdone) (by decide)⟩
          rw [hidx]
          exact hafter ((hmarked i).1 hi)
        | completed hentry hall =>
          rw [hentry]
          refine ⟨fun i hi => absurd hi (by simp [Bitmap.marked_clear]), fun _ => ⟨pre, fun i hi => ?_⟩⟩
          rw [UInt8.add_sub_cancel]
          exact hafter (hall i hi)
    · have hne : m.toNat ≠ mem.toNat := fun heq => hslot (UInt8.toNat_inj.1 heq)
      rw [hdown.only.others _ hne]
      refine (h.slots m hm).keep (hdown.quiet m) fun idx start' num' => ?_
      exact hdown.files _ (fun heq => hne (imagePath_inj heq).1) (imagePath_ne_tblPath _ _ _ _)

/-- **What a command keeps.** -/
theorem Kept.performed {cmd : Cmd} (h : Kept d k) (hmissing : cmd.AsksMissing d)
    (hperformed : Performed reliable d k d' k' cmd) : Kept d' k' := by
  cases hperformed with
  | plain hplain => exact h.plain hplain
  | capture hclear => exact h.cleared hclear
  | download hmem hdown =>
    refine h.downloaded hmem (fun i hlo hhi => ?_) hdown
    obtain rfl : i = _ := Nat.le_antisymm (by omega) hlo
    exact hmissing
  | @downloadAll mem pre startLine lineNum hmem hdown =>
    refine h.downloaded hmem (fun i hlo hhi => hmissing i hlo ?_) hdown
    rw [lineCount]
    split at hhi
    · rename_i hzero
      rw [if_pos hzero]
      omega
    · rename_i hne
      rw [if_neg hne]
      have hpos : lineNum.toNat ≠ 0 := fun h => hne (UInt16.toNat_inj.1 h)
      omega

end Kept

/-! ## The table from its file -/

/-- An entry lies in its bytes. -/
theorem ofBytes_eq {bs : Bytes} {e : MemoryEntry} (h : ∀ j, j < entrySize → bs[j]? = e.bytes[j]?) :
    MemoryEntry.ofBytes bs = e := by
  have hget : ∀ j, j < entrySize → bs.getD j 0 = e.bytes.getD j 0 := fun j hj => by
    rw [List.getD_eq_getElem?_getD, List.getD_eq_getElem?_getD, h j hj]
  have h0 := hget 0 (by decide)
  have h1 := hget 1 (by decide)
  have hlines : (Vector.ofFn fun i : Fin 60 => bs.getD (2 + i) 0) = e.lineState := by
    apply Vector.ext
    intro i hi
    rw [Vector.getElem_ofFn, hget (2 + i) (by rw [entrySize]; omega), Nat.add_comm 2 i]
    simp [MemoryEntry.bytes, List.getD_eq_getElem?_getD, hi]
  rw [MemoryEntry.ofBytes, h0, h1, hlines]
  rfl

/-- **The table comes back from its bytes.** -/
theorem statusOfBytes_statusBytes (m : MemoryStatus) : statusOfBytes (statusBytes m) = m := by
  apply Vector.ext
  intro i hi
  rw [statusOfBytes, Vector.getElem_ofFn]
  refine ofBytes_eq fun j hj => ?_
  have hwidth : ∀ e ∈ m.toList, e.bytes.length = entrySize := fun e _ => by
    simp [MemoryEntry.bytes, entrySize]
  have hget : m.toList[i]? = some m[i] := by simp [hi]
  have hholds := File.holds_flatMap hwidth hget []
  rw [List.append_nil] at hholds
  rw [List.getElem?_drop, Nat.mul_comm]
  exact hholds j (by rw [hwidth _ (List.mem_of_getElem? hget)]; exact hj)

/-- The table that its file gives. -/
def storedStatus (k : Disk) : MemoryStatus := statusOfBytes ((k.files tblPath).take statusSize)

theorem TableStored.status {d : Data} {k : Disk} (h : TableStored d k) :
    storedStatus k = d.memSlotStatus := by
  rw [storedStatus, h, statusOfBytes_statusBytes]

section Frame

variable {reliable : Bool} {d d' : Data} {k k' : Disk}

theorem Performed.linked {cmd : Cmd} (h : Performed reliable d k d' k' cmd) (hlinked : Linked d k) :
    Linked d' k' := by
  cases h with
  | plain hplain => exact hlinked.like hplain.like.tblHandle hplain.fds
  | capture hclear => exact hlinked.like hclear.only.tblHandle hclear.fds
  | download hmem hdown => exact hdown.linked
  | downloadAll hmem hdown => exact hdown.linked

/-- A capture writes no files. -/
theorem Performed.files_capture {mem tst : UInt8} (h : Performed reliable d k d' k' (.capture mem tst)) :
    k'.files = k.files := by
  cases h with
  | plain hplain => exact hplain.files
  | capture hclear => exact hclear.files

/-- The download of a line writes its file and that of the table. -/
theorem Performed.files_line {mem pre ln1 ln2 : UInt8} {path : Path}
    (h : Performed reliable d k d' k' (.download mem pre ln1 ln2))
    (himage : path ≠ imagePath mem.toNat (d.entry mem.toNat).lastImgIdx.toNat
      (ln1.toUInt16 <<< 8 ||| ln2.toUInt16).toNat 0) (htbl : path ≠ tblPath) :
    k'.files path = k.files path := by
  cases h with
  | plain hplain => rw [hplain.files]
  | download hmem hdown => exact hdown.files path himage htbl

end Frame

/-! ## Runs -/

/-- Nothing is open when the app starts. -/
def Disk.booted (k : Disk) : Disk := { k with fds := fun _ => none }

/-- A run: commands that are asked for, and restarts when the app is settled. -/
inductive Run (reliable : Bool) (asked : Data → Cmd → Prop) (settled : Data → Disk → Prop) (k0 : Disk) :
    Data → Disk → Prop
  | start {d : Data} {k : Disk} (handle : Bool)
      (h : Ends (Disk.world reliable) k0.booted (init handle) k d) : Run reliable asked settled k0 d k
  | command {d d' : Data} {k k' : Disk} (cmd : Cmd) (run : Run reliable asked settled k0 d k)
      (hasked : asked d cmd)
      (h : Ends (Disk.world reliable) k (processGroundCommand d cmd) k' d') :
      Run reliable asked settled k0 d' k'
  | restart {d d' : Data} {k k' : Disk} (handle : Bool) (run : Run reliable asked settled k0 d k)
      (hsettled : settled d k) (h : Ends (Disk.world reliable) k.booted (init handle) k' d') :
      Run reliable asked settled k0 d' k'

/-- What the app finds when it starts. -/
structure Started (reliable : Bool) (k : Disk) (d' : Data) (k' : Disk) : Prop where
  linked : Linked d' k'
  files : k'.files = k.files
  log : k'.log = k.log
  status : d'.memSlotStatus = storedStatus k ∨
    reliable = false ∧ d'.memSlotStatus = Vector.replicate memorySlot default
  table : reliable = true → 0 ≤ d'.tblHandle

theorem init_spec {reliable : Bool} {k : Disk} (handle : Bool) :
    wp (Disk.world reliable) (Started reliable k) (init handle) k.booted := by
  rintro (errno | fd) hopen
  · have hunreliable : reliable = false := hopen
    exact ⟨⟨.inl (show (-1 : Int) < 0 by decide)⟩, rfl, rfl, .inr ⟨hunreliable, rfl⟩,
      fun h => by simp [hunreliable] at h⟩
  · have hfd : (k.booted.opened fd ⟨tblPath, 0⟩).fds fd = some ⟨tblPath, 0⟩ := Disk.opened_fds _ _ _
    rintro (_ | bs) hread
    · have hunreliable : reliable = false := hread
      exact ⟨⟨.inr ⟨0, hfd⟩⟩, rfl, rfl, .inr ⟨hunreliable, rfl⟩, fun _ => Int.natCast_nonneg fd⟩
    · obtain ⟨f, hf, hbs⟩ := hread
      obtain rfl : f = ⟨tblPath, 0⟩ := (Option.some.inj (hfd.symm.trans hf)).symm
      have hnext : (Disk.world reliable).next (k.booted.opened fd ⟨tblPath, 0⟩) (.read fd statusSize)
          (some bs) = (k.booted.opened fd ⟨tblPath, 0⟩).opened fd ⟨tblPath, 0 + bs.length⟩ := by
        simp only [Disk.world, Disk.next, hfd]
      have hstatus : statusOfBytes bs = storedStatus k := by
        rw [hbs, storedStatus]
        rfl
      show Started reliable k _ ((Disk.world reliable).next (k.booted.opened fd ⟨tblPath, 0⟩)
        (.read fd statusSize) (some bs))
      rw [hnext]
      exact ⟨⟨.inr ⟨_, Disk.opened_fds _ _ _⟩⟩, rfl, rfl, .inl hstatus, fun _ => Int.natCast_nonneg fd⟩

section Run

variable {reliable : Bool} {k0 k k' : Disk} {d d' : Data}

/-- A run is one of any commands and restarts. -/
theorem Run.any {asked : Data → Cmd → Prop} {settled : Data → Disk → Prop}
    (h : Run reliable asked settled k0 d k) :
    Run reliable (fun _ _ => True) (fun _ _ => True) k0 d k := by
  induction h with
  | start handle hend => exact .start handle hend
  | command cmd run hasked hend ih => exact .command cmd ih trivial hend
  | restart handle run hsettled hend ih => exact .restart handle ih trivial hend

theorem run_linked (h : Run reliable (fun _ _ => True) (fun _ _ => True) k0 d k) : Linked d k := by
  induction h with
  | start handle hend => exact (wp_iff.1 (init_spec handle) _ _ hend).linked
  | command cmd run hasked hend ih =>
    exact (wp_iff.1 (processGroundCommand_spec ih cmd) _ _ hend).linked ih
  | restart handle run hsettled hend ih => exact (wp_iff.1 (init_spec handle) _ _ hend).linked

/-- A table of zeros claims nothing. -/
theorem Kept.zero (hlinked : Linked d k) (hzero : d.memSlotStatus = Vector.replicate memorySlot default) :
    Kept d k where
  linked := hlinked
  slots mem hmem := by
    have hentry : d.entry mem.toNat = default := by
      rw [Data.entry, hzero, Cells.get_eq_getElem _ hmem, Vector.getElem_replicate]
    rw [hentry]
    have hmarked : ∀ i, (default : MemoryEntry).lineState.marked i = false := Bitmap.marked_clear
    refine ⟨fun i hi => ?_, fun hdone => absurd hdone (show (0 : UInt8) ≠ downloadDone by decide)⟩
    rw [hmarked] at hi
    exact absurd hi (by decide)

theorem storedStatus_nil (h : k.files tblPath = []) :
    storedStatus k = Vector.replicate memorySlot default := by
  rw [storedStatus, h]
  decide +kernel

/-- What starts with the table of its file. -/
theorem Started.kept (h : Started reliable k d' k') (hkept : Kept d k)
    (hstored : TableStored d k) : Kept d' k' := by
  rcases h.status with hstatus | ⟨-, hzero⟩
  · refine ⟨h.linked, fun mem hmem => ?_⟩
    have hentry : d'.entry mem.toNat = d.entry mem.toNat := by
      rw [Data.entry, Data.entry, hstatus, hstored.status]
    rw [hentry]
    exact (hkept.slots mem hmem).keep (.of_eq h.log) fun _ _ _ => by rw [h.files]
  · exact .zero h.linked hzero

end Run

/-! ## A run -/

/-- A camera that sends thumbnails, and files without errors. -/
def goodAnswer (k : Disk) : (c : CamCall) → c.Reply
  | .apiRead (some _) _ rxSize => ⟨.success, rxSize, List.replicate rxSize 7⟩
  | .apiRead none 3 _ => ⟨.success, 2, [0, match k.log with
    | e :: _ => if e.tx[1]? = some downloadCmdCode then 66 else 0
    | [] => 0]⟩
  | .apiRead none _ rxSize => ⟨.success, rxSize, List.replicate rxSize 7⟩
  | .tcflush => ()
  | .openImage _ => .ok 4
  | .openTbl _ => .ok 3
  | .read id size => (k.fds id).map fun f => ((k.files f.path).drop f.offset).take size
  | .lseek _ => ()
  | .write _ data => (data.length : Int)
  | .fsync _ => (0 : Int)
  | .close _ => (0 : Int)
  | .sendReport _ _ _ _ => ()

/-- There is nothing yet. -/
def blank : Disk := ⟨fun _ => [], fun _ => none, [], []⟩

/-- The app has started. -/
def startedRun : Disk × Data := exec (Disk.world true) goodAnswer (init true) blank.booted

/-- One more command. -/
def Disk.does (s : Disk × Data) (cmd : Cmd) : Disk × Data :=
  exec (Disk.world true) goodAnswer (processGroundCommand s.2 cmd) s.1

/-- The app has started again. -/
def Disk.restarted (s : Disk × Data) : Disk × Data :=
  exec (Disk.world true) goodAnswer (init true) s.1.booted

theorem startedRun_ends : Ends (Disk.world true) blank.booted (init true) startedRun.1 startedRun.2 :=
  ends_of_along (by decide +kernel)

/-- A slot is captured. -/
def capturedRun : Disk × Data := Disk.does startedRun (.capture 0 0)

theorem capturedRun_ends : Ends (Disk.world true) startedRun.1
    (processGroundCommand startedRun.2 (.capture 0 0)) capturedRun.1 capturedRun.2 :=
  ends_of_along (by decide +kernel)

/-- The first line of its thumbnail is downloaded. -/
def firstLine : Disk × Data := Disk.does capturedRun (.download 0 1 0 0)

theorem firstLine_ends : Ends (Disk.world true) capturedRun.1
    (processGroundCommand capturedRun.2 (.download 0 1 0 0)) firstLine.1 firstLine.2 :=
  ends_of_along (by decide +kernel)

theorem firstLine_run {settled : Data → Disk → Prop} :
    Run true (fun d cmd => cmd.AsksMissing d) settled blank firstLine.2 firstLine.1 := by
  have hmissing : (capturedRun.2.entry 0).lineState.marked 0 = false := by decide +kernel
  exact .command (.download 0 1 0 0)
    (.command (.capture 0 0) (.start true startedRun_ends) trivial capturedRun_ends) hmissing firstLine_ends

/-- The same camera, but an image cannot be written. -/
def fullCard (k : Disk) : (c : CamCall) → c.Reply
  | .write 4 _ => (0 : Int)
  | c => goodAnswer k c

/-- The line is downloaded again, to a card that is full. -/
def lostLine : Disk × Data :=
  exec (Disk.world true) fullCard (processGroundCommand firstLine.2 (.download 0 1 0 0)) firstLine.1

/-- The line is still marked, but is no longer on the disk: what is asked for should be missing. -/
theorem lostLine_lost :
    (lostLine.2.entry 0).lineState.marked 0 = true ∧
    ¬OnDisk lostLine.1 0 (lostLine.2.entry 0).lastImgIdx 0 := by
  have hrun := (@firstLine_run fun _ _ => True).any
  have hends : Ends (Disk.world true) firstLine.1 (processGroundCommand firstLine.2 (.download 0 1 0 0))
      lostLine.1 lostLine.2 := ends_of_along (by decide +kernel)
  have hempty : ∀ path, path ≠ tblPath → lostLine.1.files path = [] := by
    intro path htbl
    by_cases himage : path = imagePath 0 0 0 0
    · rw [himage]
      decide +kernel
    have hstart := wp_iff.1 (init_spec true) _ _ startedRun_ends
    have hcapture := wp_iff.1 (processGroundCommand_spec hstart.linked _) _ _ capturedRun_ends
    have hfirst := wp_iff.1 (processGroundCommand_spec (hcapture.linked hstart.linked) _) _ _ firstLine_ends
    have hlost := wp_iff.1 (processGroundCommand_spec (run_linked hrun) _) _ _ hends
    have hidx : (firstLine.2.entry 0).lastImgIdx = 0 := by decide +kernel
    have hidx' : (capturedRun.2.entry 0).lastImgIdx = 0 := by decide +kernel
    rw [hlost.files_line ?_ htbl, hfirst.files_line ?_ htbl, hcapture.files_capture, hstart.files]
    · rfl
    · rw [show (0 : UInt8).toNat = 0 from rfl, hidx']
      exact himage
    · rw [show (0 : UInt8).toNat = 0 from rfl, hidx]
      exact himage
  refine ⟨by decide +kernel, ?_⟩
  rintro ⟨c, e, hc⟩
  have hholds := hc.holds
  rw [hempty _ (imagePath_ne_tblPath _ _ _ _)] at hholds
  have hpos := List.length_pos_of_ne_nil hc.isLine.whole.ne_nil
  have hnone := hholds 0 hpos
  rw [List.getElem?_eq_getElem hpos] at hnone
  exact absurd hnone (by simp)

section Restart

variable {reliable : Bool} {k0 k k' : Disk} {d d' : Data}

/-! ## What a restart gives back -/

/-- The table in memory is that of the file, apart from captures. -/
structure Backed (d : Data) (k : Disk) : Prop where
  linked : Linked d k
  handle : 0 ≤ d.tblHandle
  slots : ∀ mem, mem < memorySlot → d.entry mem = Cells.get (storedStatus k) mem ∨
    d.entry mem = (Cells.get (storedStatus k) mem).cleared

theorem storedStatus_congr (h : k'.files tblPath = k.files tblPath) : storedStatus k' = storedStatus k := by
  rw [storedStatus, storedStatus, h]

theorem Backed.downloaded {cc mem pre : UInt8} {start num : Nat} (h : Backed d k)
    (hdown : Downloaded true cc d k mem pre start num d' k') : Backed d' k' where
  linked := hdown.linked
  handle := hdown.only.tblHandle ▸ h.handle
  slots s hs := by
    rcases hdown.effect with ⟨hsame, htable⟩ | ⟨-, -, -, -, hstored⟩
    · rw [storedStatus_congr htable]
      by_cases hmem : s = mem.toNat
      · subst hmem
        rw [hsame]
        exact h.slots _ hs
      · rw [hdown.only.others s hmem]
        exact h.slots s hs
    · rcases hstored rfl with hneg | hstored
      · exact absurd h.handle (by omega)
      · rw [hstored.status]
        exact .inl rfl

theorem Backed.performed {cmd : Cmd} (h : Backed d k) (hperformed : Performed true d k d' k' cmd) :
    Backed d' k' := by
  cases hperformed with
  | plain hplain =>
    refine ⟨h.linked.like hplain.like.tblHandle hplain.fds, hplain.like.tblHandle ▸ h.handle, ?_⟩
    intro s hs
    rw [storedStatus_congr (congrFun hplain.files tblPath), hplain.like.entry]
    exact h.slots s hs
  | @capture mem tst hclear =>
    refine ⟨h.linked.like hclear.only.tblHandle hclear.fds, hclear.only.tblHandle ▸ h.handle, ?_⟩
    intro s hs
    rw [storedStatus_congr (congrFun hclear.files tblPath)]
    by_cases hmem : s = mem.toNat
    · subst hmem
      rw [hclear.entry]
      rcases h.slots _ hs with hslot | hslot
      · exact .inr (by rw [hslot])
      · exact .inr (by rw [hslot]; rfl)
    · rw [hclear.only.others s hmem]
      exact h.slots s hs
  | download hmem hdown => exact h.downloaded hdown
  | downloadAll hmem hdown => exact h.downloaded hdown

theorem Started.backed (h : Started true k d' k') : Backed d' k' where
  linked := h.linked
  handle := h.table rfl
  slots s hs := by
    have hstatus : d'.memSlotStatus = storedStatus k := h.status.resolve_right fun h => by simp at h
    rw [storedStatus_congr (congrFun h.files tblPath), Data.entry, hstatus]
    exact .inl rfl

theorem run_backed (h : Run true (fun _ _ => True) (fun _ _ => True) k0 d k) : Backed d k := by
  induction h with
  | start handle hend => exact (wp_iff.1 (init_spec handle) _ _ hend).backed
  | command cmd run _ hend ih =>
    exact ih.performed (wp_iff.1 (processGroundCommand_spec ih.linked cmd) _ _ hend)
  | restart handle run _ hend ih => exact (wp_iff.1 (init_spec handle) _ _ hend).backed

/-- The two reports of a download; that it has finished well is true. -/
def Downloads (cc mem pre : UInt8) (start count : Nat) (d : Data) (k : Disk) (d' : Data) (k' : Disk) :
    Prop :=
  ∃ r, k'.reports = k.reports ++ [startedReport cc, r] ∧ (r = finishedReport cc →
    (∀ i, start ≤ i → i < start + count → OnDisk k' mem (d.entry mem.toNat).lastImgIdx i) ∧
    Advanced pre start count (d.entry mem.toNat) (d'.entry mem.toNat) ∧ TableStored d' k')

/-- What a command reports: one report, or two if it downloads. -/
def Reported (d : Data) (k : Disk) (d' : Data) (k' : Disk) (cmd : Cmd) : Prop :=
  (∃ r, k'.reports = k.reports ++ [r] ∧ k'.files = k.files) ∨
    match cmd with
    | .download mem pre ln1 ln2 =>
      Downloads downloadCC mem pre (ln1.toUInt16 <<< 8 ||| ln2.toUInt16).toNat 1 d k d' k'
    | .downloadAll mem pre startLine lineNum =>
      Downloads downloadAllCC mem pre startLine.toNat (lineCount lineNum) d k d' k'
    | _ => False

theorem Downloaded.downloads {cc mem pre : UInt8} {start num : Nat}
    (h : Downloaded reliable cc d k mem pre start num d' k') :
    Downloads cc mem pre start (max num 1) d k d' k' := by
  obtain ⟨r, hreports, hfinished⟩ := h.reports
  refine ⟨r, hreports, fun hr => ?_⟩
  obtain ⟨hgot, hadvanced, hstored⟩ := hfinished hr
  exact ⟨fun i hlo hhi => hgot.onDisk hlo hhi, hadvanced, hstored⟩

theorem max_lineCount (lineNum : UInt16) : max (lineCount lineNum) 1 = lineCount lineNum := by
  refine Nat.max_eq_left ?_
  rw [lineCount]
  split
  · exact Nat.le_refl 1
  · rename_i hne
    exact Nat.pos_of_ne_zero fun h => hne (UInt16.toNat_inj.1 h)

end Restart

end Kisscam
end FlightApps
