import FlightApps.Lib.Cells
import FlightApps.Lib.StableQueue

/-!
# The command timeline of the TTC application: data and internal helpers

`apps/ttc/fsw/src/ttc_timeline.c` keeps time-tagged command packets until they are due.  A packet
lives in one of `maxCommandEntries` slots; the slots of the *pending* ones are listed in
`sortedIndex`, of which the first `count` cells are in use, in descending order of time tag, so that
the entry to execute next is the last of them.  A slot can also be *reserved*: a packet that is
being uploaded in pieces ("plumbed") and is not scheduled yet.

This file has the data of that module and its `static` helpers, in the order of the source.  The
public functions are in `FlightApps.Ttc.Api`.

Three things are said differently from the source.

* `CFE_TIME_GetTime` is a parameter of every function that calls it, one per call.
* `CFE_SB_TransmitMsg` and `CFE_EVS_SendEvent` have no effect on the timeline, so a function that
  calls them returns the list of its calls, as `Effect`s.
* Two kinds of `Effect` are history marks and no calls of the source: `committed` where a slot turns
  pending and `left` where a pending slot is given up.  Nothing reads them; they are there so that a
  command can be followed through a run although slots and identifiers are used again.
-/

set_option autoImplicit false

namespace FlightApps
namespace Ttc

/-! ## Configuration -/

/-- `TTC_PLATFORM_MAX_COMMAND_ENTRIES`. -/
def maxCommandEntries : Nat := 128

/-- `TTC_PLATFORM_MAX_COMMAND_SIZE`. -/
def maxCommandSize : Nat := 157

/-- `TTC_PLATFORM_ANONYMOUS_ENTRY_ID`. -/
def anonymousEntryId : UInt16 := 0

/-- `TTC_PLATFORM_ANONYMOUS_GROUP_ID`. -/
def anonymousGroupId : UInt16 := 0

/-- `TTC_TIMETAG_MAX`, stored in a freshly reserved slot. -/
def timetagMax : UInt32 := 0xFFFFFFFF

/-- `TTC_TIMETAG_TYPE_ABSOLUTE`. -/
def timetagTypeAbsolute : UInt8 := 0

/-- `TTC_TIMETAG_TYPE_RELATIVE`. -/
def timetagTypeRelative : UInt8 := 1

/-- `TTC_EXECTYPE_SKIP_LATE`: skip the command if it is late. -/
def exectypeSkipLate : UInt8 := 0

/-- `TTC_EXECTYPE_FORCE`: execute it no matter how late. -/
def exectypeForce : UInt8 := 1

/-- `TTC_EXECTYPE_ABORT_LATE`: if it is late, skip it and abort all remaining commands. -/
def exectypeAbortLate : UInt8 := 2

/-! ## Data -/

/-- `TTC_CommandStatus_t`. -/
inductive CommandStatus
  /-- Ready for use. -/
  | empty
  /-- Pending execution. -/
  | pending
  /-- Reserved for plumbing but not ready. -/
  | reserved
  deriving DecidableEq, Repr, Inhabited

/-- What the public functions return: `CFE_SUCCESS` and the `TTC_Error_t` codes. -/
inductive Status
  | success
  | noEmptySlot
  | cmdSizeTooLarge
  | invalidExecType
  | invalidTimeTagType
  | entryNotFound
  | duplicateEntry
  | writeOutOfBounds
  | cmdSizeMismatch
  | timeTagInPast
  | anonymousId
  | insertSortedIndex
  | entryNotPending
  deriving DecidableEq, Repr

/-- The `Command` buffer of an entry. -/
abbrev Command := Vector UInt8 maxCommandSize

/-- `TTC_TimelineEntry_t`, a single command entry in the timeline. -/
structure TimelineEntry where
  /-- Absolute execution time in seconds. -/
  timeTag : UInt32
  /-- Maximum allowed staleness in seconds. -/
  stalenessThreshold : UInt16
  /-- Identifier of the entry. -/
  entryId : UInt16
  /-- Identifier of its group. -/
  groupId : UInt16
  /-- What to do when it is late; an unchecked byte until the entry is committed. -/
  executionType : UInt8
  /-- Current status. -/
  status : CommandStatus
  /-- Size of the command in bytes. -/
  cmdSize : Nat
  /-- The packet. -/
  command : Command
  deriving DecidableEq

/-- An entry after `memset(.., 0, sizeof(TTC_TimelineEntry_t))`. -/
instance : Inhabited TimelineEntry :=
  ⟨⟨0, 0, 0, 0, 0, .empty, 0, Vector.replicate maxCommandSize default⟩⟩

/-- `TTC_TimelineCycleContext_t`, the per-cycle context. -/
structure CycleContext where
  /-- Time of the previous cycle. -/
  previousTime : UInt32
  /-- Entries executed this cycle. -/
  executed : UInt16
  /-- Entries skipped this cycle. -/
  skipped : UInt16
  /-- Entries aborted this cycle. -/
  aborted : UInt16
  /-- Run-time bugs met this cycle. -/
  processingErrors : UInt16
  /-- The clock jumped forward. -/
  forwardJumpDetected : Bool
  /-- The clock jumped backward. -/
  backwardJumpDetected : Bool
  deriving DecidableEq, Inhabited

/-- `TTC_Timeline_t`, with the fields of `TTC_TimelineState_t` in place. -/
structure Timeline where
  /-- Processing is suspended while this is set. -/
  executionPaused : Bool
  /-- Number of pending entries. -/
  count : Nat
  /-- Slots of the pending entries, farthest in the future first. -/
  sortedIndex : Vector Nat maxCommandEntries
  /-- The slots. -/
  entries : Vector TimelineEntry maxCommandEntries
  /-- The per-cycle context. -/
  cycleContext : CycleContext
  deriving DecidableEq

/-- The timeline after `memset(&Timeline, 0, sizeof(Timeline))`. -/
instance : Inhabited Timeline :=
  ⟨⟨false, 0, Vector.replicate maxCommandEntries default,
    Vector.replicate maxCommandEntries default, default⟩⟩

/-- The calls of `CFE_EVS_SendEvent` the timeline makes, with the values they print. -/
inductive Event
  /-- `TTC: Bwd jmp detected: now %u, prev %u`. -/
  | timeJumpBackward (now prev : UInt32)
  /-- `TTC: Fwd jmp detected: now %u, prev %u`. -/
  | timeJumpForward (now prev : UInt32)
  /-- `TTC: Skipping entry %u:%u sched for %u`. -/
  | skippingEntry (groupId entryId : UInt16) (timeTag : UInt32)
  /-- `TTC: Aborting %u pending entries`. -/
  | abortingEntries (count : Nat)
  /-- `TTC: Inval next slot ind %u. Clearing timeline.` -/
  | invalidNextSlot (slot : Nat)
  /-- `TTC: Inv exec type %u for entry %u:%u`. -/
  | invalidExecType (executionType : UInt8) (groupId entryId : UInt16)
  /-- `TTC: entry %u:%u has invalid status %u during exec. Cleaning.` -/
  | invalidEntryStatus (groupId entryId : UInt16) (status : CommandStatus)
  deriving DecidableEq

/-- The events of type `CFE_EVS_EventType_ERROR`.  Each is sent right after `ProcessingErrors++`,
and nowhere else. -/
def Event.isError : Event → Bool
  | .invalidNextSlot _ | .invalidExecType _ _ _ | .invalidEntryStatus _ _ _ => true
  | _ => false

/-- How a pending entry was given up: the function of the source that cleared its slot. -/
inductive Cause
  /-- `ExecuteEntry`, after the transmission. -/
  | executed
  /-- `SkipEntry` (or the branch for an invalid type, which counts as skipped). -/
  | skipped
  /-- `AbortPendingEntries`. -/
  | aborted
  /-- The delete commands. -/
  | deleted
  /-- `PurgeTimeline`. -/
  | purged
  deriving DecidableEq, Repr

/-- What a function of the module does besides changing the timeline. -/
inductive Effect
  /-- `CFE_SB_TransmitMsg` on the `Command` buffer of a slot. -/
  | transmit (slot : Nat) (packet : Command)
  /-- `CFE_EVS_SendEvent`. -/
  | event (e : Event)
  /-- History mark: the slot turned pending. -/
  | committed (slot : Nat)
  /-- History mark: the slot was pending and has been cleared. -/
  | left (slot : Nat) (cause : Cause)
  deriving DecidableEq

/-! ## Access to the two arrays -/

namespace Timeline

/-- `Timeline.Entries[slot]`. -/
def entry (t : Timeline) (slot : Nat) : TimelineEntry := Cells.get t.entries slot

/-- Assignment to `Timeline.Entries[slot]`. -/
def setEntry (t : Timeline) (slot : Nat) (e : TimelineEntry) : Timeline :=
  { t with entries := Cells.set t.entries slot e }

/-- `Timeline.State.SortedIndex[i]`. -/
def index (t : Timeline) (i : Nat) : Nat := Cells.get t.sortedIndex i

/-- Assignment to `Timeline.State.SortedIndex[i]`. -/
def setIndex (t : Timeline) (i slot : Nat) : Timeline :=
  { t with sortedIndex := Cells.set t.sortedIndex i slot }

/-- The pending slots, in the order in which they are due: the cells of `sortedIndex` in use, read
from the last one down. -/
def agenda (t : Timeline) : List Nat := ((List.range t.count).map t.index).reverse

/-- Assignment to `Timeline.CycleContext`. -/
def setContext (t : Timeline) (c : CycleContext) : Timeline := { t with cycleContext := c }

end Timeline

/-! ## Looking for a slot -/

/-- `IsAnonymousEntry`: anonymous entries are not addressable nor subject to duplicate checks. -/
def isAnonymousEntry (entryId groupId : UInt16) : Bool :=
  entryId == anonymousEntryId && groupId == anonymousGroupId

/-- `FindEmptySlot`: the first empty slot, or `maxCommandEntries` if the timeline is full. -/
def findEmptySlot (t : Timeline) : Nat := Cells.first (fun e => e.status == .empty) t.entries

/-- `FindReservedSlot`: the reserved slot with the given identifiers, or `maxCommandEntries`. -/
def findReservedSlot (t : Timeline) (entryId groupId : UInt16) : Nat :=
  if isAnonymousEntry entryId groupId then maxCommandEntries
  else Cells.first
    (fun e => e.status == .reserved && e.entryId == entryId && e.groupId == groupId) t.entries

/-- `FindSlotByEntryId`: the slot in use with the given identifiers, or `maxCommandEntries`. -/
def findSlotByEntryId (t : Timeline) (entryId groupId : UInt16) : Nat :=
  if isAnonymousEntry entryId groupId then maxCommandEntries
  else Cells.first
    (fun e => e.status != .empty && e.entryId == entryId && e.groupId == groupId) t.entries

/-! ## The sorted index -/

/-- `FindSortedIndex`: where `timeTag` belongs in the descending index. -/
def findSortedIndex (t : Timeline) (timeTag : UInt32) : Nat :=
  StableQueue.bisect (fun mid => decide (timeTag < (t.entry (t.index mid)).timeTag)) t.count 0
    t.count

/-- `for (i = Count; i > Index; --i) SortedIndex[i] = SortedIndex[i-1];`, from a given `i`. -/
def shiftUp (index : Nat) : Nat → Timeline → Timeline
  | 0, t => t
  | i + 1, t => if i + 1 > index then shiftUp index i (t.setIndex (i + 1) (t.index i)) else t

/-- `InsertSlotToSortedIndex`: shift the later entries up and put the slot in.  `false` when the
slot is out of bounds or the index full. -/
def insertSlotToSortedIndex (t : Timeline) (timeTag : UInt32) (slot : Nat) : Timeline × Bool :=
  if slot ≥ maxCommandEntries then (t, false)
  else
    let index := findSortedIndex t timeTag
    if index > t.count || t.count ≥ maxCommandEntries then (t, false)
    else
      let t := (shiftUp index t.count t).setIndex index slot
      ({ t with count := t.count + 1 }, true)

/-! ## Filling and clearing a slot -/

/-- `WriteToSlot`: copy a chunk of command data into the `Command` buffer of a slot. -/
def writeToSlot (t : Timeline) (slot : Nat) (data : List UInt8) (offset : Nat) :
    Status × Timeline :=
  if offset + data.length > maxCommandSize then (.writeOutOfBounds, t)
  else
    let e := t.entry slot
    (.success, t.setEntry slot { e with command := Cells.copy e.command offset data })

/-- `CFE_MSG_GetSize`: the big-endian length field of the CCSDS primary header, plus 7. -/
def msgGetSize (command : Command) : Nat :=
  (Cells.get command 4).toNat * 256 + (Cells.get command 5).toNat + 7

/-- `CommitSlot`: mark a slot pending, fill in when and how to execute it, and schedule it. -/
def commitSlot (t : Timeline) (slot : Nat) (timeTag : UInt32) (stalenessThreshold : UInt16)
    (executionType : UInt8) (cmdSize : Nat) : Status × Timeline :=
  if executionType ≠ exectypeSkipLate ∧ executionType ≠ exectypeForce ∧
      executionType ≠ exectypeAbortLate then (.invalidExecType, t)
  else if msgGetSize (t.entry slot).command ≠ cmdSize then (.cmdSizeMismatch, t)
  else if cmdSize > maxCommandSize then (.cmdSizeTooLarge, t)
  else
    match insertSlotToSortedIndex t timeTag slot with
    | (t, false) => (.insertSortedIndex, t)
    | (t, true) =>
      (.success, t.setEntry slot
        { t.entry slot with
          timeTag := timeTag, stalenessThreshold := stalenessThreshold,
          executionType := executionType, cmdSize := cmdSize, status := .pending })

/-- `CancelSlot`: just clear the slot. -/
def cancelSlot (t : Timeline) (slot : Nat) : Timeline := t.setEntry slot default

/-- `for (j = i; j < Count - 1; ++j) SortedIndex[j] = SortedIndex[j + 1];`, for the given number of
rounds. -/
def shiftDown : Nat → Nat → Timeline → Timeline
  | 0, _, t => t
  | rounds + 1, j, t => shiftDown rounds (j + 1) (t.setIndex j (t.index (j + 1)))

/-- The scan of `DeleteSlot`, from cell `i - 1` of the index down. -/
def deleteSlotFrom (slot : Nat) : Nat → Timeline → Timeline × Bool
  | 0, t => (t, false)
  | i + 1, t =>
    if t.index i = slot then
      let t := cancelSlot t slot
      let t := shiftDown (t.count - 1 - i) i t
      ({ t with count := t.count - 1 }, true)
    else deleteSlotFrom slot i t

/-- `DeleteSlot`: clear the slot and take it out of the sorted index.  `false` when the index does
not have it. -/
def deleteSlot (t : Timeline) (slot : Nat) : Timeline × Bool := deleteSlotFrom slot t.count t

/-! ## Executing, skipping, aborting -/

/-- `ExecuteEntry`: send the packet of a slot, and delete the slot unless told to keep it. -/
def executeEntry (t : Timeline) (slot : Nat) (persistentExecution : Bool) :
    Timeline × List Effect :=
  if slot ≥ maxCommandEntries then (t, [])
  else
    let e := t.entry slot
    if e.status ≠ .pending then
      let c := t.cycleContext
      let t := t.setContext { c with processingErrors := c.processingErrors + 1 }
      let report := [Effect.event (.invalidEntryStatus e.groupId e.entryId e.status)]
      match deleteSlot t slot with
      | (t, true) => (t, report)
      | (t, false) => (cancelSlot t slot, report)
    else
      let t' := if persistentExecution then t else (deleteSlot t slot).1
      let mark := if persistentExecution then [] else [Effect.left slot .executed]
      let c := t'.cycleContext
      (t'.setContext { c with executed := c.executed + 1 }, .transmit slot e.command :: mark)

/-- `SkipEntry`: report and delete. -/
def skipEntry (t : Timeline) (slot : Nat) : Timeline × List Effect :=
  if slot ≥ maxCommandEntries then (t, [])
  else
    let e := t.entry slot
    let t := (deleteSlot t slot).1
    let c := t.cycleContext
    (t.setContext { c with skipped := c.skipped + 1 },
      [.event (.skippingEntry e.groupId e.entryId e.timeTag), .left slot .skipped])

/-- `for (i = n - 1; i >= 0; --i) CancelSlot(SortedIndex[i]);` -/
def cancelDown : Nat → Timeline → Timeline
  | 0, t => t
  | i + 1, t => cancelDown i (cancelSlot t (t.index i))

/-- `AbortPendingEntries`: clear every pending entry. -/
def abortPendingEntries (t : Timeline) : Timeline × List Effect :=
  let t' := cancelDown t.count t
  let c := t'.cycleContext
  ({ t' with
      cycleContext := { c with aborted := c.aborted + UInt16.ofNat t'.count }, count := 0 },
    .event (.abortingEntries t.count) :: t.agenda.map fun slot => .left slot .aborted)

/-- `GetNextSlot`: the slot of the next pending entry, or `maxCommandEntries`. -/
def getNextSlot (t : Timeline) : Nat :=
  if t.count = 0 then maxCommandEntries else t.index (t.count - 1)

end Ttc
end FlightApps
