import FlightApps.Rpt.App

/-!
# Starting from the files

What is left when every call of the files succeeds: a write replaces the front of the file, and
`RPT_Init` goes all the way.  `init_opsData` and `init_critQueue` say what it finds in the files.
-/

set_option autoImplicit false

namespace FlightApps
namespace Rpt

/-! ## Files that work -/

def Update.filesWork (u : Update) : Bool :=
  u.write == .done && u.opens && u.backup == .done && u.closes && u.persist == .done

def Boot.filesWork (b : Boot) : Bool :=
  b.opsOpens && b.opsReads && b.opsWrite == .done && b.critOpens && b.critReads

/-- Every file operation of a step succeeds. -/
def Op.filesWork : Op → Bool
  | .duty (.enqueue _ _ write) => write == .done
  | .duty (.update u) => u.filesWork
  | .duty _ => true
  | .boot b => b.filesWork

/-- A reset after a loss of power, at a given time, on which every file works. -/
def powerOn (now : SysTime) : Boot := ⟨now, 2, 1, true, true, .done, true, true⟩

/-- An update at a given time on which every file works. -/
def oneHz (now : SysTime) : Update := ⟨now, .done, true, .done, true, .done⟩

theorem Update.filesWork_inv {u : Update} (h : u.filesWork = true) :
    u.write = .done ∧ u.opens = true ∧ u.backup = .done ∧ u.closes = true ∧ u.persist = .done := by
  simp only [Update.filesWork, Bool.and_eq_true, beq_iff_eq] at h
  obtain ⟨⟨⟨⟨hw, ho⟩, hb⟩, hc⟩, hp⟩ := h
  exact ⟨hw, ho, hb, hc, hp⟩

theorem Boot.filesWork_inv {b : Boot} (h : b.filesWork = true) :
    b.opsOpens = true ∧ b.opsReads = true ∧ b.opsWrite = .done ∧ b.critOpens = true ∧
      b.critReads = true := by
  simp only [Boot.filesWork, Bool.and_eq_true, beq_iff_eq] at h
  obtain ⟨⟨⟨⟨ho, hr⟩, hw⟩, hc⟩, hcr⟩ := h
  exact ⟨ho, hr, hw, hc, hcr⟩

/-- A record that is written over nothing, or over a record, is all there is in the file. -/
theorem writeToFile_record {α : Type} (l : Layout α) {file : List UInt8}
    (h : file.length ≤ l.size) (a : α) :
    writeToFile file (l.bytes a) .done = (l.bytes a, true) := by
  rw [writeToFile, List.drop_eq_nil_of_le (by rw [l.length_bytes]; exact h), List.append_nil]

/-- Reading nothing leaves the memory as it was. -/
theorem readOver_nil {α : Type} (l : Layout α) (old : α) : readOver l old [] = old := by
  have hread := l.read_bytes old []
  rw [List.append_nil] at hread
  exact hread

/-- Reading a record replaces what was in memory. -/
theorem readOver_bytes {α : Type} (l : Layout α) (old a : α) : readOver l old (l.bytes a) = a :=
  l.read_bytes a _

theorem take_bytes {α : Type} (l : Layout α) (a : α) : (l.bytes a).take l.size = l.bytes a :=
  List.take_of_length_le (Nat.le_of_eq (l.length_bytes a))

/-! ## Init -/

/-- The record that is read from the file of the operation data. -/
def App.loaded (s : App) : OperationData :=
  readOver operationDataLayout zeroOperationData (s.opsFile.take operationDataLayout.size)

/-- What `RPT_OpsDataInit` makes of it: the first boot stores the epoch, and a record with a wrong
checksum is cleared. -/
def App.restored (s : App) (now : SysTime) : OperationData :=
  if s.loaded.bootCount = 0 then s.loaded.withEpoch now
  else if s.loaded.crc ≠ s.loaded.calcCRC then zeroOperationData
  else s.loaded

/-- The ring that `RPT_CriticalQInit` makes of its file. -/
def App.restoredQueue (s : App) : CriticalQueue :=
  let q := readOver criticalQueueLayout zeroCriticalQueue
    (s.critFile.take criticalQueueLayout.size)
  if q.crc = q.calcCRC then q else zeroCriticalQueue

theorem loaded_nil {s : App} (h : (s.opsFile.take operationDataLayout.size).length = 0) :
    s.loaded = zeroOperationData := by
  rw [App.loaded, List.length_eq_zero_iff.1 h, readOver_nil]

/-- No file is so short that the boot count is read from it and it is not a record: the status is
always that of success. -/
theorem firstBoot_loaded (s : App) (now : SysTime) :
    firstBoot s.loaded (s.opsFile.take operationDataLayout.size).length now =
      (if s.loaded.bootCount = 0 then s.loaded.withEpoch now else s.loaded, success) := by
  rw [firstBoot]
  by_cases hboot : s.loaded.bootCount = 0
  · rw [if_pos (.inl hboot), if_pos hboot]
  · have hread : ¬(s.opsFile.take operationDataLayout.size).length = 0 := by
      intro hn
      rw [loaded_nil hn] at hboot
      exact hboot rfl
    rw [if_neg (not_or.2 ⟨hboot, hread⟩), if_pos (.inl hboot), if_neg hboot]

theorem checkOpsData_loaded (s : App) (now : SysTime) :
    (checkOpsData (if s.loaded.bootCount = 0 then s.loaded.withEpoch now else s.loaded)).1 =
      s.restored now := by
  rw [App.restored]
  by_cases hboot : s.loaded.bootCount = 0
  · have hstill : (s.loaded.withEpoch now).bootCount = 0 := hboot
    rw [if_pos hboot, if_pos hboot, checkOpsData, if_pos hstill]
  · rw [if_neg hboot, if_neg hboot, checkOpsData, if_neg hboot]
    split
    · rfl
    · split <;> rfl

section Init

variable {s : App} {b : Boot} (hb : b.filesWork = true)

include hb

theorem opsDataInit_works :
    (s.cleared.opsDataInit b).1 =
        { s.cleared with
          opsData := (s.restored b.now).booted b
          opsFile := (writeToFile s.opsFile
            (operationDataLayout.bytes ((s.restored b.now).booted b)) .done).1 } ∧
      (s.cleared.opsDataInit b).2.1 = success := by
  obtain ⟨hopens, hreads, hwrite, -, -⟩ := Boot.filesWork_inv hb
  have hread : readFromFile s.cleared.opsFile operationDataLayout.size b.opsReads =
      some (s.opsFile.take operationDataLayout.size) := by
    rw [hreads]
    rfl
  have hover : readOver operationDataLayout s.cleared.opsData
      (s.opsFile.take operationDataLayout.size) = s.loaded := rfl
  have hsucc : ¬(success ≠ success) := fun h => h rfl
  rw [App.opsDataInit, hopens, Bool.not_true, if_neg Bool.false_ne_true, hread]
  simp only [hover, firstBoot_loaded, checkOpsData_loaded, hwrite, if_neg hsucc]
  exact ⟨rfl, rfl⟩

theorem init_works :
    (s.init b).1 =
      { s.cleared with
        opsData := (s.restored b.now).booted b
        opsFile := (writeToFile s.opsFile
          (operationDataLayout.bytes ((s.restored b.now).booted b)) .done).1
        critQueue := s.restoredQueue } := by
  obtain ⟨-, -, -, hopens, hreads⟩ := Boot.filesWork_inv hb
  obtain ⟨hstate, hstatus⟩ := opsDataInit_works (s := s) hb
  have hsucc : ¬(success ≠ success) := fun h => h rfl
  have hread : readFromFile (s.cleared.opsDataInit b).1.critFile criticalQueueLayout.size
      b.critReads = some (s.critFile.take criticalQueueLayout.size) := by
    rw [hreads, hstate]
    rfl
  rw [App.init, hstatus, if_neg hsucc, App.criticalQInit, hopens, Bool.not_true,
    if_neg Bool.false_ne_true, hread]
  -- one of the two branches on the boot count is taken
  have hany : ∀ n, (if (s.cleared.opsDataInit b).1.opsData.bootCount = 0 ∨ n = 0 then success
      else if (s.cleared.opsDataInit b).1.opsData.bootCount ≠ 0 ∨ n = criticalQueueLayout.size
        then success
      else Int32.ofNat n) = success := by
    intro n
    split
    · rfl
    · rename_i hboot
      rw [if_pos (.inl (not_or.1 hboot).1)]
  simp only [hany, if_neg hsucc]
  rw [hstate, App.restoredQueue]
  dsimp only [App.cleared]
  split
  · rename_i hcrc
    exact congrArg Prod.fst (if_pos hcrc)
  · rename_i hcrc
    exact congrArg Prod.fst (if_neg hcrc)

end Init

/-- There is nothing in the files yet. -/
def App.unused (s : App) : App := { s with opsFile := [], critFile := [], backups := [] }

/-- The app after its first boot. -/
def App.fresh (s : App) (b : Boot) : App := (s.unused.init b).1

theorem restoredQueue_nil {s : App} (h : s.critFile = []) :
    s.restoredQueue = zeroCriticalQueue := by
  rw [App.restoredQueue, h, List.take_nil, readOver_nil]
  split <;> rfl

theorem restoredQueue_bytes {s : App} {q : CriticalQueue}
    (h : s.critFile = criticalQueueLayout.bytes q) (hcrc : q.crc = q.calcCRC) :
    s.restoredQueue = q := by
  rw [App.restoredQueue, h, take_bytes, readOver_bytes]
  exact if_pos hcrc

end Rpt
end FlightApps
