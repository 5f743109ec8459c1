import Mathlib.Data.List.Basic

/-!
# Messages of the software bus

A message is what a pointer leads to; how long it is, its header says.
-/

set_option autoImplicit false

namespace FlightApps
namespace Msg

/-- Memory, from the place a pointer leads to. -/
abbrev Memory := Nat → UInt8

/-- `CFE_MSG_GetSize`. -/
def getSize (m : Memory) : Nat := (m 4).toNat <<< 8 + (m 5).toNat + 7

/-- `CFE_MSG_GetType` gives `CFE_MSG_Type_Cmd`. -/
def isCommand (m : Memory) : Bool := m 0 &&& 0x10 != 0

/-- `CFE_MSG_GetHasSecondaryHeader`. -/
def hasSecondaryHeader (m : Memory) : Bool := m 0 &&& 0x08 != 0

/-- `CFE_MSG_ComputeCheckSum`. -/
def computeCheckSum (m : Memory) : UInt8 :=
  (List.range (getSize m)).foldl (fun chksum i => chksum ^^^ m i) 0xFF

/-- `CFE_MSG_ValidateChecksum`, with nothing for `CFE_MSG_WRONG_MSG_TYPE`. -/
def validateChecksum (m : Memory) : Option Bool :=
  if isCommand m && hasSecondaryHeader m then some (computeCheckSum m == 0) else none

theorem getSize_pos (m : Memory) : 7 ≤ getSize m := Nat.le_add_left 7 _

end Msg
end FlightApps
