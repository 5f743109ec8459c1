import FlightApps.Leop.Process

/-!
# Records of the runtime data

The runtime data are `Sound` if the state goes with the cycle count and the elapsed time.  These are
the data whose record passes all checks of `MISSION_LEOP_LoadState` (`invalidCode_toFile`), and a
record that is read back is the one that was written.
-/

set_option autoImplicit false

namespace FlightApps
namespace Leop

/-- The state goes with the cycle count and the elapsed time. -/
def Vars.Sound (v : Vars) : Prop :=
  match v.state with
  | .initialWait => v.cycleCount = 0 ∧ v.waitElapsedSec ≤ initialWaitSec
  | .complete => v.cycleCount = sequenceRepeatCount ∧ v.waitElapsedSec = 0
  | st => v.cycleCount < sequenceRepeatCount ∧ v.waitElapsedSec ≤ getWaitDuration st

section ToFile

variable (v : Vars)

@[simp] theorem toFile_leopCycleCount : v.toFile.leopCycleCount = v.cycleCount := rfl

@[simp] theorem toFile_leopState : v.toFile.leopState = v.state.toByte := rfl

@[simp] theorem toFile_leopWaitElapsedSec : v.toFile.leopWaitElapsedSec = v.waitElapsedSec := rfl

theorem toFile_crc : v.toFile.crc = v.toFile.calcCRC := rfl

theorem toFile_waitDuration : v.toFile.waitDuration = getWaitDuration v.state := by
  rw [FileData.waitDuration, toFile_leopState, LeopState.ofByte_toByte]

/-- A record says nothing but the cycle count, the state and the elapsed time. -/
theorem toFile_inj {v v' : Vars} (hcycle : v'.cycleCount = v.cycleCount)
    (hstate : v'.state = v.state) (helapsed : v'.waitElapsedSec = v.waitElapsedSec) :
    v'.toFile = v.toFile := by
  rw [Vars.toFile, Vars.toFile, hcycle, hstate, helapsed]

/-- The data that are loaded from a record are those it was made from. -/
theorem toFile_of_loaded {v v' : Vars} (hcycle : v'.cycleCount = v.toFile.leopCycleCount)
    (hstate : v'.state = (LeopState.ofByte v.toFile.leopState).getD .complete)
    (helapsed : v'.waitElapsedSec = v.toFile.leopWaitElapsedSec) : v'.toFile = v.toFile := by
  rw [toFile_leopState, LeopState.ofByte_toByte] at hstate
  exact toFile_inj hcycle hstate helapsed

/-- A check that is passed, and the next. -/
theorem passes_iff {p : Prop} [Decidable p] {code : InvalidCode} {rest : Option InvalidCode} :
    (if p then some code else rest) = none ↔ ¬ p ∧ rest = none := by
  by_cases hp : p
  · rw [if_pos hp]
    exact iff_of_false (Option.some_ne_none code) fun h => h.1 hp
  · rw [if_neg hp]
    exact (and_iff_right hp).symm

/-- **Sound data pass all checks**, and no others do. -/
theorem invalidCode_toFile : v.toFile.invalidCode = none ↔ v.Sound := by
  have hrepeat : sequenceRepeatCount.toNat = 10 := rfl
  simp only [FileData.invalidCode, passes_iff, toFile_waitDuration, toFile_leopCycleCount,
    toFile_leopState, toFile_leopWaitElapsedSec, Vars.Sound, toFile_crc, UInt8.lt_iff_toNat_lt,
    UInt8.le_iff_toNat_le, UInt32.lt_iff_toNat_lt, UInt32.le_iff_toNat_le, ← UInt8.toNat_inj,
    ← UInt32.toNat_inj, ne_eq, hrepeat]
  cases hst : v.state with
  | initialWait => simp [LeopState.toByte, getWaitDuration]; omega
  | burn => simp [LeopState.toByte, getWaitDuration]; omega
  | toEnable => simp [LeopState.toByte, getWaitDuration]; omega
  | postWait => simp [LeopState.toByte, getWaitDuration]; omega
  | complete => simp [LeopState.toByte, getWaitDuration]; omega

end ToFile

/-- What was written is what is read. -/
theorem read_bytes (d : FileData) : fileDataLayout.read (fileDataLayout.bytes d) = d := by
  have h := fileDataLayout.read_bytes d []
  rwa [List.append_nil] at h

theorem length_bytes (d : FileData) : (fileDataLayout.bytes d).length = 16 :=
  fileDataLayout.length_bytes d

/-- A number of bytes that is less than a record does not look like one. -/
theorem ofNat_ne_size {n : Nat} (hn : n < fileDataLayout.size) :
    Int32.ofNat n ≠ Int32.ofNat fileDataLayout.size := by
  have hsize : fileDataLayout.size = 16 := rfl
  intro heq
  have hnat := congrArg Int32.toInt heq
  rw [Int32.toInt_ofNat_of_lt (by omega), Int32.toInt_ofNat_of_lt (by omega)] at hnat
  omega

end Leop
end FlightApps
