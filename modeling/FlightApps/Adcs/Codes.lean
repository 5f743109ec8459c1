import Mathlib.Data.List.Basic

/-!
# Error codes of the ADCS

The codes that the functions of `adcs_utils.c` return, from `adcs_cube_error_typedefs.h`, and how the
code byte of a negative answer becomes one of them.
-/

set_option autoImplicit false

namespace FlightApps
namespace Adcs

abbrev ErrorCode := Int32

namespace ErrorCode

/-- `CUBEOBC_ERROR_OK`. -/
def ok : ErrorCode := 0

/-- `CUBEOBC_ERROR_NULLPTR`. -/
def nullptr : ErrorCode := 1

/-- `CUBEOBC_ERROR_SIZEL`. -/
def sizel : ErrorCode := 3

/-- `CUBEOBC_ERROR_SIZEH`. -/
def sizeh : ErrorCode := 4

/-- `CUBEOBC_ERROR_TOUT`. -/
def tout : ErrorCode := 7

/-- `CUBEOBC_ERROR_FRAME`. -/
def frame : ErrorCode := 10

/-- `CUBEOBC_ERROR_CRC`. -/
def crc : ErrorCode := 11

/-- `CUBEOBC_ERROR_READ`. -/
def read : ErrorCode := 12

/-- `CUBEOBC_ERROR_WRITE`. -/
def write : ErrorCode := 13

/-- `CUBEOBC_ERROR_UKN_NACK`. -/
def uknNack : ErrorCode := 16

/-- `CUBEOBC_ERROR_TCTLM_PROTOCOL`. -/
def protocol : ErrorCode := 25

/-- `CUBEOBC_ERROR_UNKNOWN`. -/
def unknown : ErrorCode := 26

/-- `CUBEOBC_ERROR_TCTLM_ID`. -/
def tctlmId : ErrorCode := 28

/-- `CUBEOBC_ERROR_TCTLM_INVALID_PARAM`. -/
def invalidParam : ErrorCode := 52

/-- `CUBEOBC_ERROR_TCTLM_BUSY`. -/
def busy : ErrorCode := 55

/-- What is returned where nothing has been refused, and nothing has come as asked for. -/
def transportErrors : List ErrorCode := [sizel, sizeh, tout, read, protocol, tctlmId]

end ErrorCode

/-- `nack2ErrorCode`. -/
def nack2ErrorCode (byte : UInt8) : ErrorCode :=
  match byte.toNat with
  | 0 => .ok
  | 1 => 50 -- invalid ID
  | 2 => 51 -- invalid length
  | 3 => .invalidParam
  | 4 => 53 -- CRC
  | 5 => 54 -- not implemented
  | 6 => .busy
  | 7 => 56 -- sequence
  | 8 => 57 -- internal
  | 9 => 58 -- pass-through timeout
  | 10 => 59 -- pass-through target
  | _ => .uknNack

/-- Of all codes only zero is an `ok`, and none is an error of the transport. -/
theorem nack2ErrorCode_spec (byte : UInt8) :
    (nack2ErrorCode byte = .ok ↔ byte = 0) ∧
      nack2ErrorCode byte ∉ ErrorCode.transportErrors := by
  have hzero : byte = 0 ↔ byte.toNat = 0 := UInt8.toNat_inj.symm
  rw [hzero, nack2ErrorCode]
  generalize byte.toNat = n
  have hknown : ErrorCode.uknNack ≠ .ok ∧ ErrorCode.uknNack ∉ ErrorCode.transportErrors := by
    decide
  match n with
  | 0 | 1 | 2 | 3 | 4 | 5 | 6 | 7 | 8 | 9 | 10 => decide
  | k + 11 => exact ⟨iff_of_false hknown.1 (Nat.succ_ne_zero (k + 10)), hknown.2⟩

end Adcs
end FlightApps
