import FlightApps.Rpt.Start

/-!
# The operation data over resets

The record of the operation data counts the boots and the backups and keeps the time of the first
boot.  With every file operation a success the file is always the record in memory, with a valid
checksum (`OpsOk`).

The boot count is 16 bits wide and 0 stands for the first boot: after 65536 boots the count is wrong
and the next boot takes itself for the first.  A record with a wrong checksum is cleared, but by
then the first boot, which would have stored an epoch, has been ruled out: the epoch is 0 from there
on.
-/

set_option autoImplicit false

namespace FlightApps
namespace Rpt

/-- The epoch of a record. -/
def OperationData.epoch (d : OperationData) : SysTime := ⟨d.epochSec, d.epochSubsec⟩

def Op.isBoot : Op → Bool
  | .boot _ => true
  | .duty _ => false

/-- The record in memory and in the file, after `boots` boots of which the first was at `first`. -/
structure OpsOk (first : SysTime) (boots : Nat) (s : App) : Prop where
  file : s.opsFile = operationDataLayout.bytes s.opsData
  crc : s.opsData.crc = s.opsData.calcCRC
  bootCount : s.opsData.bootCount = UInt16.ofNat boots
  sequence : s.opsData.sequence = UInt32.ofNat s.backups.length
  epoch : boots < UInt16.size → s.opsData.epoch = first
  booted : 0 < boots

/-! ## The record in the file -/

theorem OperationData.sealed_crc (d : OperationData) : d.sealed.crc = d.sealed.calcCRC :=
  (OperationData.calcCRC_crc d d.calcCRC).symm

section Booted

variable (d : OperationData) (b : Boot)

@[simp] theorem OperationData.booted_bootCount : (d.booted b).bootCount = d.bootCount + 1 := rfl

@[simp] theorem OperationData.booted_sequence : (d.booted b).sequence = d.sequence := rfl

@[simp] theorem OperationData.booted_epoch : (d.booted b).epoch = d.epoch := rfl

end Booted

/-- What was written is what a boot loads. -/
theorem loaded_of_bytes {s : App} {d : OperationData} {rest : List UInt8}
    (h : s.opsFile = operationDataLayout.bytes d ++ rest) : s.loaded = d := by
  rw [App.loaded, h, List.take_left' (Layout.length_bytes _ d), readOver_bytes]

section Ok

variable {first : SysTime} {boots : Nat} {s : App} (h : OpsOk first boots s)

include h

theorem OpsOk.loaded : s.loaded = s.opsData := by
  have hfile : s.opsFile = operationDataLayout.bytes s.opsData ++ [] := by
    rw [h.file, List.append_nil]
  exact loaded_of_bytes hfile

theorem OpsOk.length_opsFile : s.opsFile.length ≤ operationDataLayout.size := by
  rw [h.file, Layout.length_bytes]

/-- A boot keeps the epoch, unless the count has come round. -/
theorem OpsOk.boot {b : Boot} (hb : b.filesWork = true) :
    OpsOk first (boots + 1) (s.init b).1 := by
  have hwrite := writeToFile_record operationDataLayout h.length_opsFile
    ((s.restored b.now).booted b)
  have hrestored : s.opsData.bootCount ≠ 0 → s.restored b.now = s.opsData := by
    intro hne
    rw [App.restored, h.loaded, if_neg hne, if_neg (not_not.2 h.crc)]
  have hkeeps : (s.restored b.now).bootCount = s.opsData.bootCount ∧
      (s.restored b.now).sequence = s.opsData.sequence := by
    by_cases hne : s.opsData.bootCount = 0
    · rw [App.restored, h.loaded, if_pos hne]
      exact ⟨rfl, rfl⟩
    · rw [hrestored hne]
      exact ⟨rfl, rfl⟩
  rw [init_works hb, hwrite]
  refine ⟨rfl, OperationData.sealed_crc _, ?_, ?_, fun hlt => ?_, Nat.succ_pos boots⟩
  · rw [OperationData.booted_bootCount, hkeeps.1, h.bootCount]
    exact (UInt16.ofNat_add boots 1).symm
  · rw [OperationData.booted_sequence, hkeeps.2, h.sequence]
    rfl
  · have hne : s.opsData.bootCount ≠ 0 := by
      intro hzero
      have hnat := congrArg UInt16.toNat (h.bootCount.symm.trans hzero)
      rw [UInt16.toNat_ofNat_of_lt' (by omega)] at hnat
      exact absurd hnat (Nat.pos_iff_ne_zero.1 h.booted)
    rw [OperationData.booted_epoch, hrestored hne]
    exact h.epoch (by omega)

/-- The time is stored, and nothing else. -/
theorem OpsOk.timed (now : SysTime) (opsCount : UInt8) :
    OpsOk first boots
      { s with
        opsData := s.opsData.timed now
        opsFile := (writeToFile s.opsFile
          (operationDataLayout.bytes (s.opsData.timed now)) .done).1
        opsCount := opsCount } := by
  rw [writeToFile_record operationDataLayout h.length_opsFile]
  exact ⟨rfl, OperationData.sealed_crc _, h.bootCount, h.sequence, h.epoch, h.booted⟩

/-- A backup is stored and counted. -/
theorem OpsOk.storeBackup {u : Update} (hu : u.filesWork = true) :
    OpsOk first boots (s.storeBackup u) := by
  obtain ⟨-, hopens, hbackup, hcloses, hpersist⟩ := Update.filesWork_inv hu
  have hstored : ∀ r : List UInt8 × Bool, r = writeToFile []
      (operationDataLayout.bytes s.opsData.nextBackup) u.backup → r.2 = true := by
    rintro r rfl
    rw [hbackup]
    rfl
  simp only [App.storeBackup, hopens, hcloses, hstored _ rfl, hpersist, Bool.not_true,
    Bool.or_false, if_neg Bool.false_ne_true]
  rw [writeToFile_record operationDataLayout h.length_opsFile]
  refine ⟨rfl, OperationData.sealed_crc _, h.bootCount, ?_, h.epoch, h.booted⟩
  have hnext : s.opsData.nextBackup.sequence = s.opsData.sequence + 1 := rfl
  dsimp only
  rw [hnext, h.sequence, List.length_append]
  exact (UInt32.ofNat_add s.backups.length 1).symm

theorem OpsOk.update {u : Update} (hu : u.filesWork = true) :
    OpsOk first boots (s.updateOperationData u) := by
  have hwrite := (Update.filesWork_inv hu).1
  have hdone : (writeToFile s.opsFile (operationDataLayout.bytes (s.opsData.timed u.now))
      .done).2 = true := rfl
  simp only [App.updateOperationData, hwrite, hdone, Bool.not_true, if_neg Bool.false_ne_true]
  split
  · exact h.timed u.now _
  · exact (h.timed u.now _).storeBackup hu

theorem OpsOk.act {op : Op} (hop : op.filesWork = true) :
    OpsOk first (boots + [op].countP Op.isBoot) (s.act op).1 := by
  cases op with
  | duty d =>
    cases d with
    | enqueue report isCritical write =>
      cases isCritical with
      | true => exact ⟨h.file, h.crc, h.bootCount, h.sequence, h.epoch, h.booted⟩
      | false => exact ⟨h.file, h.crc, h.bootCount, h.sequence, h.epoch, h.booted⟩
    | clear isCritical =>
      cases isCritical with
      | true => exact ⟨h.file, h.crc, h.bootCount, h.sequence, h.epoch, h.booted⟩
      | false => exact ⟨h.file, h.crc, h.bootCount, h.sequence, h.epoch, h.booted⟩
    | report isCritical startIdx totNum bus =>
      exact ⟨h.file, h.crc, h.bootCount, h.sequence, h.epoch, h.booted⟩
    | update u => exact h.update hop
  | boot b => exact h.boot hop

end Ok

theorem opsOk_run {first : SysTime} {boots : Nat} {s : App} (h : OpsOk first boots s)
    {ops : List Op} (hops : ∀ op ∈ ops, op.filesWork = true) :
    OpsOk first (boots + ops.countP Op.isBoot) (rpt.run s ops) := by
  induction ops generalizing s boots with
  | nil => exact h
  | cons op ops ih =>
    have hact := h.act (hops op List.mem_cons_self)
    have hrest := ih hact fun op' hop' => hops op' (List.mem_cons_of_mem op hop')
    rw [Nat.add_assoc, ← List.countP_append] at hrest
    exact hrest

/-- The first boot finds nothing and stores the epoch. -/
theorem opsOk_fresh (s : App) {b : Boot} (hb : b.filesWork = true) : OpsOk b.now 1 (s.fresh b) := by
  have hloaded : s.unused.loaded = zeroOperationData := loaded_nil rfl
  have hrestored : s.unused.restored b.now = zeroOperationData.withEpoch b.now := by
    rw [App.restored, hloaded]
    rfl
  have hempty : s.unused.opsFile.length ≤ operationDataLayout.size := Nat.zero_le _
  rw [App.fresh, init_works hb, writeToFile_record operationDataLayout hempty, hrestored]
  exact ⟨rfl, OperationData.sealed_crc _, rfl, rfl, fun _ => rfl, Nat.one_pos⟩

/-! ## Backups are never lost -/

theorem length_backups_storeBackup (s : App) (u : Update) :
    s.backups.length ≤ (s.storeBackup u).backups.length := by
  have hmore : ∀ p, s.backups.length ≤ (s.backups ++ [p]).length := fun p => by
    rw [List.length_append]
    exact Nat.le_add_right _ _
  simp only [App.storeBackup]
  split
  · exact Nat.le_refl _
  split
  · exact hmore _
  · exact hmore _

theorem length_backups_act (s : App) {op : Op} (hop : op.filesWork = true) :
    s.backups.length ≤ (s.act op).1.backups.length := by
  cases op with
  | duty d =>
    cases d with
    | enqueue report isCritical write => cases isCritical <;> exact Nat.le_refl _
    | clear isCritical => cases isCritical <;> exact Nat.le_refl _
    | report isCritical startIdx totNum bus => exact Nat.le_refl _
    | update u =>
      simp only [App.act, App.perform, App.updateOperationData]
      split
      · exact Nat.le_refl _
      split
      · exact Nat.le_refl _
      · refine Nat.le_trans ?_ (length_backups_storeBackup _ u)
        exact Nat.le_refl _
  | boot b =>
    have hinit := init_works (s := s) (b := b) hop
    simp only [App.act, hinit]
    exact Nat.le_refl _

theorem length_backups_run (s : App) {ops : List Op}
    (hops : ∀ op ∈ ops, op.filesWork = true) :
    s.backups.length ≤ (rpt.run s ops).backups.length := by
  induction ops generalizing s with
  | nil => exact Nat.le_refl _
  | cons op ops ih =>
    exact Nat.le_trans (length_backups_act s (hops op List.mem_cons_self))
      (ih _ fun op' hop' => hops op' (List.mem_cons_of_mem op hop'))

/-! ## Boots on any file -/

/-- The epoch after a boot. -/
theorem epoch_restored (s : App) (now : SysTime) :
    (s.restored now).epoch =
      if s.loaded.bootCount = 0 then now
      else if s.loaded.crc ≠ s.loaded.calcCRC then ⟨0, 0⟩
      else s.loaded.epoch := by
  rw [App.restored]
  split
  · rfl
  · split <;> rfl

/-- **A boot on any file** leaves a record with a valid checksum in memory and in the file.  Its
epoch is a valid stored one or the time of the boot, except that it is 0 when the boot count is not
0 and the checksum is wrong. -/
theorem boot_any_file (s : App) {b : Boot} (hb : b.filesWork = true) :
    ((s.init b).1.opsData.crc = (s.init b).1.opsData.calcCRC ∧
        (s.init b).1.loaded = (s.init b).1.opsData) ∧
      (((s.loaded.crc = s.loaded.calcCRC ∧ (s.init b).1.opsData.epoch = s.loaded.epoch) ∨
          (s.init b).1.opsData.epoch = b.now) ↔
        (s.loaded.bootCount = 0 ∨ s.loaded.crc = s.loaded.calcCRC ∨ b.now = ⟨0, 0⟩)) := by
  have hstate := init_works (s := s) hb
  have hops : (s.init b).1.opsData = (s.restored b.now).booted b := by rw [hstate]
  have hepoch : (s.init b).1.opsData.epoch = (s.restored b.now).epoch := by
    rw [hops, OperationData.booted_epoch]
  have hfile : (s.init b).1.opsFile = operationDataLayout.bytes (s.init b).1.opsData ++
      s.opsFile.drop (operationDataLayout.bytes (s.init b).1.opsData).length := by
    rw [hops, hstate]
    rfl
  refine ⟨⟨?_, loaded_of_bytes hfile⟩, ?_⟩
  · rw [hops]
    exact OperationData.sealed_crc _
  rw [hepoch, epoch_restored]
  by_cases hboot : s.loaded.bootCount = 0
  · rw [if_pos hboot]
    exact ⟨fun _ => .inl hboot, fun _ => .inr rfl⟩
  · rw [if_neg hboot]
    by_cases hcrc : s.loaded.crc = s.loaded.calcCRC
    · rw [if_neg (not_not.2 hcrc)]
      exact ⟨fun _ => .inr (.inl hcrc), fun _ => .inl ⟨hcrc, rfl⟩⟩
    · rw [if_pos hcrc]
      refine ⟨fun h => .inr (.inr ?_), fun h => .inr ?_⟩
      · exact (h.resolve_left fun hv => hcrc hv.1).symm
      · exact ((h.resolve_left hboot).resolve_left hcrc).symm

/-! ## Runs -/

/-- The record in the file is what it should be: the boots and the backups are counted, the epoch is
the time of the first boot, and the checksum is valid. -/
structure Survives (first : SysTime) (boots : Nat) (s : App) : Prop where
  bootCount : s.loaded.bootCount.toNat = boots
  epoch : s.loaded.epoch = first
  sequence : s.loaded.sequence.toNat = s.backups.length
  crc : s.loaded.crc = s.loaded.calcCRC

theorem OpsOk.survives {first : SysTime} {boots : Nat} {s : App} (h : OpsOk first boots s)
    (hboots : boots < UInt16.size) (hbackups : s.backups.length < UInt32.size) :
    Survives first boots s := by
  refine ⟨?_, ?_, ?_, ?_⟩ <;> rw [h.loaded]
  · rw [h.bootCount, UInt16.toNat_ofNat_of_lt' hboots]
  · exact h.epoch hboots
  · rw [h.sequence, UInt32.toNat_ofNat_of_lt' hbackups]
  · exact h.crc

/-- **When the operation data survives.**  In a run from the first boot on, in which every file
operation succeeds, the record in the file is what it should be at every point, and its sequence
never goes down, exactly if there are fewer than `2^16` boots and `2^32` backups.  A boot on a file
with any bytes in it leaves a valid record, whose epoch is a stored one with a valid checksum or the
time of the boot exactly if the count it finds is 0, or the checksum valid, or the time 0. -/
theorem operation_data_survives (s : App) (b : Boot) (ops : List Op) (hb : b.filesWork = true)
    (hops : ∀ op ∈ ops, op.filesWork = true) :
    ((∀ pre, pre <+: ops →
        Survives b.now (1 + pre.countP Op.isBoot) (rpt.run (s.fresh b) pre) ∧
        ∀ pre', pre' <+: pre →
          (rpt.run (s.fresh b) pre').loaded.sequence ≤ (rpt.run (s.fresh b) pre).loaded.sequence) ↔
      1 + ops.countP Op.isBoot < UInt16.size ∧
        (rpt.run (s.fresh b) ops).backups.length < UInt32.size) ∧
    ∀ (t : App) (b' : Boot), b'.filesWork = true →
      ((((t.init b').1.opsData.crc = (t.init b').1.opsData.calcCRC ∧
            (t.init b').1.loaded = (t.init b').1.opsData) ∧
          ((t.loaded.crc = t.loaded.calcCRC ∧ (t.init b').1.opsData.epoch = t.loaded.epoch) ∨
            (t.init b').1.opsData.epoch = b'.now)) ↔
        (t.loaded.bootCount = 0 ∨ t.loaded.crc = t.loaded.calcCRC ∨ b'.now = ⟨0, 0⟩)) := by
  have hfiles : ∀ pre, pre <+: ops → ∀ op ∈ pre, op.filesWork = true :=
    fun pre hpre op hop => hops op (hpre.subset hop)
  refine ⟨⟨fun h => ?_, fun hbounds pre hpre => ?_⟩, fun t b' hb' => ?_⟩
  · have hlast := (h ops (List.prefix_refl ops)).1
    refine ⟨?_, ?_⟩
    · rw [← hlast.bootCount]
      exact UInt16.toNat_lt _
    · rw [← hlast.sequence]
      exact UInt32.toNat_lt _
  · have hmono : ∀ pre₁ pre₂, pre₁ <+: pre₂ → pre₂ <+: ops →
        (rpt.run (s.fresh b) pre₁).backups.length ≤ (rpt.run (s.fresh b) pre₂).backups.length := by
      intro pre₁ pre₂ h₁ h₂
      obtain ⟨post, rfl⟩ := h₁
      rw [Machine.run_append]
      exact length_backups_run _ fun op hop =>
        hfiles _ h₂ op (List.mem_append_right pre₁ hop)
    have hgood : ∀ pre, pre <+: ops →
        Survives b.now (1 + pre.countP Op.isBoot) (rpt.run (s.fresh b) pre) := by
      intro pre hpre
      have hboots := hpre.sublist.countP_le (p := Op.isBoot)
      have hbackups := hmono pre ops hpre (List.prefix_refl ops)
      exact (opsOk_run (opsOk_fresh s hb) (hfiles pre hpre)).survives (by omega) (by omega)
    refine ⟨hgood pre hpre, fun pre' hpre' => ?_⟩
    rw [UInt32.le_iff_toNat_le, (hgood pre' (hpre'.trans hpre)).sequence, (hgood pre hpre).sequence]
    exact hmono pre' pre hpre' hpre
  · obtain ⟨hvalid, hepoch⟩ := boot_any_file t hb'
    exact (and_iff_right hvalid).trans hepoch

theorem operation_data_survives_oneUpdate :
    let ops : List Op := [.duty (.update (oneHz ⟨2, 0⟩)), .boot (powerOn ⟨3, 0⟩)]
    ((powerOn ⟨1, 0⟩).filesWork = true ∧ ∀ op ∈ ops, op.filesWork = true) ∧
      ((∀ pre, pre <+: ops →
          Survives ⟨1, 0⟩ (1 + pre.countP Op.isBoot)
            (rpt.run (blankApp.fresh (powerOn ⟨1, 0⟩)) pre) ∧
          ∀ pre', pre' <+: pre →
            (rpt.run (blankApp.fresh (powerOn ⟨1, 0⟩)) pre').loaded.sequence ≤
              (rpt.run (blankApp.fresh (powerOn ⟨1, 0⟩)) pre).loaded.sequence) ↔
        1 + ops.countP Op.isBoot < UInt16.size ∧
          (rpt.run (blankApp.fresh (powerOn ⟨1, 0⟩)) ops).backups.length < UInt32.size) := by
  intro ops
  have hops : ∀ op ∈ ops, op.filesWork = true := by decide
  exact ⟨⟨rfl, hops⟩, (operation_data_survives blankApp (powerOn ⟨1, 0⟩) ops rfl hops).1⟩

/-- A file with a boot count of 3, an epoch of 1000 s and a wrong checksum. -/
def corruptFile : List UInt8 :=
  [0xE8, 0x03, 0, 0, 0, 0, 0, 0, 0x21, 0, 3, 0, 0, 0, 0, 0, 0, 0, 0, 0, 0, 0, 0, 0, 1, 0, 0, 0]

def corruptApp : App := { blankApp with opsFile := corruptFile }

/-- A boot at 2000 s on a corrupt file leaves an epoch that is neither that time nor a valid stored
one; and the count of the boots is wrong when it has come round. -/
theorem epoch_lost_and_count_wraps :
    ¬((corruptApp.loaded.crc = corruptApp.loaded.calcCRC ∧
        (corruptApp.init (powerOn ⟨2000, 0⟩)).1.opsData.epoch = corruptApp.loaded.epoch) ∨
      (corruptApp.init (powerOn ⟨2000, 0⟩)).1.opsData.epoch = ⟨2000, 0⟩) ∧
    (rpt.run (blankApp.fresh (powerOn ⟨1, 0⟩))
        (List.replicate 65535 (.boot (powerOn ⟨2, 0⟩)))).loaded.bootCount.toNat ≠ 65536 := by
  refine ⟨fun h => ?_, fun h => ?_⟩
  · have hcond := (boot_any_file corruptApp (b := powerOn ⟨2000, 0⟩) rfl).2.1 h
    exact absurd hcond (by decide +kernel)
  · have hlt := UInt16.toNat_lt (rpt.run (blankApp.fresh (powerOn ⟨1, 0⟩))
      (List.replicate 65535 (.boot (powerOn ⟨2, 0⟩)))).loaded.bootCount
    rw [h] at hlt
    exact absurd hlt (by decide)

end Rpt
end FlightApps
