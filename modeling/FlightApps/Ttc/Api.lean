import FlightApps.Lib.Machine
import FlightApps.Ttc.Timeline

/-!
# The command timeline of the TTC application: public functions

The functions `ttc_timeline.h` exports, in the order of the source, and the machine they make up.
`State` is the state of the module, its two `static` variables; `Op` is a call with its arguments
and with the values `CFE_TIME_GetTime` returns during it; `ttc` is the machine whose steps are the
calls.

A function that reports through an out-parameter returns it beside the status
(`timelineDeleteGroup`), and the three readers at the beginning return what they would have
written.
-/

set_option autoImplicit false

namespace FlightApps
namespace Ttc

/-- `TTC_TimelineHousekeeping_t`. -/
structure TimelineHousekeeping where
  /-- Time tag of the next pending entry. -/
  nextExecutionTime : UInt32
  /-- Its identifier. -/
  nextEntryId : UInt16
  /-- The identifier of its group. -/
  nextEntryGroupId : UInt16
  /-- Number of pending entries. -/
  cmdPending : Nat
  /-- Entries executed by `TTC_ProcessTimeline`. -/
  cmdExecuted : UInt32
  /-- Entries skipped. -/
  cmdSkipped : UInt32
  /-- Entries aborted. -/
  cmdAborted : UInt32
  /-- Cycles that saw the clock jump forward. -/
  forwardJumpDetectionCount : UInt32
  /-- Cycles that saw the clock jump backward. -/
  backwardJumpDetectionCount : UInt32
  /-- Run-time bugs met. -/
  processingErrorCount : UInt32
  /-- Processing is suspended. -/
  executionPaused : Bool
  deriving DecidableEq, Inhabited

/-- The static variables of the module. -/
structure State where
  /-- `Timeline`. -/
  timeline : Timeline
  /-- `TimelineHk`. -/
  hk : TimelineHousekeeping
  deriving DecidableEq

/-- What a call returns, the timeline it leaves and its effects. -/
structure Outcome where
  /-- The returned status; `success` for a `void` function. -/
  status : Status
  /-- The timeline afterwards. -/
  timeline : Timeline
  /-- The calls it made, and the history marks. -/
  effects : List Effect

/-- A call that only returns a status. -/
def Outcome.refuse (status : Status) (t : Timeline) : Outcome := ⟨status, t, []⟩

/-! ## Set-up and readers -/

/-- `TTC_TimelineInitialize`. -/
def timelineInitialize (now : UInt32) : State where
  timeline := (default : Timeline).setContext { (default : CycleContext) with previousTime := now }
  hk := default

/-- `TTC_TimelineGetPendingEntryCount`. -/
def timelineGetPendingEntryCount (t : Timeline) : Nat := t.count

/-- `TTC_TimelineGetNextEntryId`. -/
def timelineGetNextEntryId (t : Timeline) : Option (UInt16 × UInt16) :=
  let nextSlot := getNextSlot t
  if nextSlot ≥ maxCommandEntries then none
  else some ((t.entry nextSlot).entryId, (t.entry nextSlot).groupId)

/-- `TTC_TimelineGetNextExecutionTime`. -/
def timelineGetNextExecutionTime (t : Timeline) : Option UInt32 :=
  let nextSlot := getNextSlot t
  if nextSlot ≥ maxCommandEntries then none else some (t.entry nextSlot).timeTag

/-! ## Adding, deleting, executing -/

/-- `TTC_TimelineAddEntry`.  `cmdData` are the `CmdDataSize` bytes of the packet. -/
def timelineAddEntry (t : Timeline) (timeTagType : UInt8) (entryId groupId : UInt16)
    (timeTag : UInt32) (stalenessThreshold : UInt16) (executionType : UInt8)
    (cmdData : List UInt8) (now : UInt32) : Outcome :=
  if timeTagType ≠ timetagTypeAbsolute ∧ timeTagType ≠ timetagTypeRelative then
    .refuse .invalidTimeTagType t
  else if cmdData.length > maxCommandSize then .refuse .cmdSizeTooLarge t
  else if !isAnonymousEntry entryId groupId &&
      findSlotByEntryId t entryId groupId != maxCommandEntries then .refuse .duplicateEntry t
  else
    let slot := findEmptySlot t
    if slot = maxCommandEntries then .refuse .noEmptySlot t
    else
      let t := t.setEntry slot
        { t.entry slot with status := .reserved, entryId := entryId, groupId := groupId }
      if timeTagType = timetagTypeAbsolute ∧ timeTag < now then
        .refuse .timeTagInPast (cancelSlot t slot)
      else
        let absTimeTag := if timeTagType = timetagTypeRelative then now + timeTag else timeTag
        match writeToSlot t slot cmdData 0 with
        | (.success, t) =>
          match commitSlot t slot absTimeTag stalenessThreshold executionType cmdData.length with
          | (.success, t) => ⟨.success, t, [.committed slot]⟩
          | (status, t) => .refuse status (cancelSlot t slot)
        | (status, t) => .refuse status (cancelSlot t slot)

/-- `TTC_TimelineDeleteEntry`. -/
def timelineDeleteEntry (t : Timeline) (entryId groupId : UInt16) : Outcome :=
  if isAnonymousEntry entryId groupId then .refuse .anonymousId t
  else
    let slot := findSlotByEntryId t entryId groupId
    if slot = maxCommandEntries then .refuse .entryNotFound t
    else
      match deleteSlot t slot with
      | (t, true) => ⟨.success, t, [.left slot .deleted]⟩
      | (t, false) => .refuse .entryNotFound t

/-- Does a group command for `groupId` apply to the entry?  Anonymous entries are left out. -/
def inGroup (groupId : UInt16) (e : TimelineEntry) : Bool :=
  e.groupId == groupId &&
    !(groupId == anonymousGroupId && e.entryId == anonymousEntryId)

/-- The loop of `TTC_TimelineDeleteGroup`, from cell `i - 1` of the index down, with the number of
entries deleted so far. -/
def deleteGroupFrom (groupId : UInt16) : Nat → Timeline → Nat → Timeline × Nat × List Effect
  | 0, t, delCount => (t, delCount, [])
  | i + 1, t, delCount =>
    let slot := t.index i
    if inGroup groupId (t.entry slot) then
      let (t', n, es) := deleteGroupFrom groupId i (deleteSlot t slot).1 (delCount + 1)
      (t', n, .left slot .deleted :: es)
    else deleteGroupFrom groupId i t delCount

/-- `TTC_TimelineDeleteGroup`, with the number of deleted entries. -/
def timelineDeleteGroup (t : Timeline) (groupId : UInt16) : Outcome × Nat :=
  let (t', delCount, es) := deleteGroupFrom groupId t.count t 0
  (⟨if delCount > 0 then .success else .entryNotFound, t', es⟩, delCount)

/-- `for (i = first; i < first + rounds; ++i) CancelSlot(SortedIndex[i]);` -/
def cancelUp : Nat → Nat → Timeline → Timeline
  | 0, _, t => t
  | rounds + 1, i, t => cancelUp rounds (i + 1) (cancelSlot t (t.index i))

/-- `TTC_TimelineDeleteAllEntries`: clear the pending entries, not the reserved ones. -/
def timelineDeleteAllEntries (t : Timeline) : Outcome :=
  ⟨.success, { cancelUp t.count 0 t with count := 0 },
    t.agenda.map fun slot => .left slot .deleted⟩

/-- `TTC_TimelineExecuteEntry`. -/
def timelineExecuteEntry (t : Timeline) (entryId groupId : UInt16) (persistentExecution : Bool) :
    Outcome :=
  if isAnonymousEntry entryId groupId then .refuse .anonymousId t
  else
    let slot := findSlotByEntryId t entryId groupId
    if slot = maxCommandEntries then .refuse .entryNotFound t
    else if (t.entry slot).status ≠ .pending then .refuse .entryNotPending t
    else
      let (t, es) := executeEntry t slot persistentExecution
      ⟨.success, t, es⟩

/-- The loop of `TTC_TimelineExecuteGroup`, from cell `i - 1` of the index down. -/
def executeGroupFrom (groupId : UInt16) (persistentExecution : Bool) :
    Nat → Timeline → Bool → Timeline × Bool × List Effect
  | 0, t, found => (t, found, [])
  | i + 1, t, found =>
    let slot := t.index i
    if inGroup groupId (t.entry slot) && (t.entry slot).status == .pending then
      let (t, es) := executeEntry t slot persistentExecution
      let (t', found, es') := executeGroupFrom groupId persistentExecution i t true
      (t', found, es ++ es')
    else executeGroupFrom groupId persistentExecution i t found

/-- `TTC_TimelineExecuteGroup`. -/
def timelineExecuteGroup (t : Timeline) (groupId : UInt16) (persistentExecution : Bool) :
    Outcome :=
  let (t', found, es) := executeGroupFrom groupId persistentExecution t.count t false
  ⟨if found then .success else .entryNotFound, t', es⟩

/-- `TTC_TimelinePauseProcessing`. -/
def timelinePauseProcessing (t : Timeline) : Outcome :=
  ⟨.success, { t with executionPaused := true }, []⟩

/-- `TTC_TimelineResumeProcessing`. -/
def timelineResumeProcessing (t : Timeline) : Outcome :=
  ⟨.success, { t with executionPaused := false }, []⟩

/-! ## Plumbing: an upload in pieces -/

/-- The contents of a freshly reserved slot. -/
def reservedEntry (entryId groupId : UInt16) : TimelineEntry :=
  { (default : TimelineEntry) with
    entryId := entryId, groupId := groupId, timeTag := timetagMax, status := .reserved }

/-- `TTC_Plumb_TimelineAddEntryInit`. -/
def plumbTimelineAddEntryInit (t : Timeline) (entryId groupId : UInt16) : Outcome :=
  if isAnonymousEntry entryId groupId then .refuse .anonymousId t
  else if findSlotByEntryId t entryId groupId ≠ maxCommandEntries then .refuse .duplicateEntry t
  else
    let slot := findEmptySlot t
    if slot = maxCommandEntries then .refuse .noEmptySlot t
    else ⟨.success, t.setEntry slot (reservedEntry entryId groupId), []⟩

/-- `TTC_Plumb_TimelineAddEntryWrite`.  `cmdChunk` are the `ChunkSize` bytes of the chunk. -/
def plumbTimelineAddEntryWrite (t : Timeline) (entryId groupId : UInt16) (cmdChunk : List UInt8)
    (offset : Nat) : Outcome :=
  if isAnonymousEntry entryId groupId then .refuse .anonymousId t
  else
    let slot := findReservedSlot t entryId groupId
    if slot = maxCommandEntries then .refuse .entryNotFound t
    else
      let (status, t) := writeToSlot t slot cmdChunk offset
      ⟨status, t, []⟩

/-- `TTC_Plumb_TimelineAddEntryFinalize`.  The clock is read twice: `now` for the test against the
past, `now'` for a relative time tag. -/
def plumbTimelineAddEntryFinalize (t : Timeline) (timeTagType : UInt8) (entryId groupId : UInt16)
    (timeTag : UInt32) (stalenessThreshold : UInt16) (executionType : UInt8) (cmdSize : Nat)
    (now now' : UInt32) : Outcome :=
  if isAnonymousEntry entryId groupId then .refuse .anonymousId t
  else if timeTagType ≠ timetagTypeAbsolute ∧ timeTagType ≠ timetagTypeRelative then
    .refuse .invalidTimeTagType t
  else if cmdSize = 0 ∨ cmdSize > maxCommandSize then .refuse .cmdSizeTooLarge t
  else
    let slot := findReservedSlot t entryId groupId
    if slot = maxCommandEntries then .refuse .entryNotFound t
    else if timeTagType = timetagTypeAbsolute ∧ timeTag < now then .refuse .timeTagInPast t
    else
      let absTimeTag := if timeTagType = timetagTypeRelative then now' + timeTag else timeTag
      match commitSlot t slot absTimeTag stalenessThreshold executionType cmdSize with
      | (.success, t) => ⟨.success, t, [.committed slot]⟩
      | (status, t) => .refuse status t

/-- `TTC_Plumb_TimelineDeleteReservedEntry`. -/
def plumbTimelineDeleteReservedEntry (t : Timeline) (entryId groupId : UInt16) : Outcome :=
  if isAnonymousEntry entryId groupId then .refuse .anonymousId t
  else
    let slot := findReservedSlot t entryId groupId
    if slot = maxCommandEntries then .refuse .entryNotFound t
    else ⟨.success, cancelSlot t slot, []⟩

/-- `PurgeTimeline`: clear the timeline including reserved entries and cycle context. -/
def purgeTimeline (t : Timeline) (now : UInt32) : Timeline × List Effect :=
  ({ (default : Timeline) with
      cycleContext := { (default : CycleContext) with previousTime := now },
      executionPaused := t.executionPaused },
    t.agenda.map fun slot => .left slot .purged)

/-- `TTC_Plumb_PurgeTimeline`. -/
def plumbPurgeTimeline (t : Timeline) (now : UInt32) : Outcome :=
  let (t', es) := purgeTimeline t now
  ⟨.success, t', es⟩

/-! ## The processing cycle -/

/-- `UpdateTimelineHousekeeping`. -/
def updateTimelineHousekeeping (t : Timeline) (hk : TimelineHousekeeping) :
    TimelineHousekeeping :=
  let nextSlot := getNextSlot t
  let c := t.cycleContext
  let hk := { hk with
    cmdExecuted := hk.cmdExecuted + c.executed.toUInt32
    cmdSkipped := hk.cmdSkipped + c.skipped.toUInt32
    cmdAborted := hk.cmdAborted + c.aborted.toUInt32
    forwardJumpDetectionCount :=
      hk.forwardJumpDetectionCount + if c.forwardJumpDetected then 1 else 0
    backwardJumpDetectionCount :=
      hk.backwardJumpDetectionCount + if c.backwardJumpDetected then 1 else 0
    processingErrorCount := hk.processingErrorCount + c.processingErrors.toUInt32
    cmdPending := t.count
    executionPaused := t.executionPaused }
  if nextSlot < maxCommandEntries then
    { hk with
      nextExecutionTime := (t.entry nextSlot).timeTag
      nextEntryId := (t.entry nextSlot).entryId
      nextEntryGroupId := (t.entry nextSlot).groupId }
  else { hk with nextExecutionTime := timetagMax, nextEntryId := 0, nextEntryGroupId := 0 }

/-- `InitCycleContext`. -/
def initCycleContext (t : Timeline) : Timeline :=
  t.setContext { (default : CycleContext) with previousTime := t.cycleContext.previousTime }

/-- Is the entry later than its threshold allows?  Only asked of an entry that is due. -/
def isStale (now : UInt32) (e : TimelineEntry) : Bool :=
  decide (now - e.timeTag > e.stalenessThreshold.toUInt32)

/-- The `switch` over the execution type of a stale entry. -/
def processStale (t : Timeline) (slot : Nat) : Timeline × List Effect :=
  let e := t.entry slot
  if e.executionType = exectypeSkipLate then skipEntry t slot
  else if e.executionType = exectypeAbortLate then abortPendingEntries t
  else if e.executionType = exectypeForce then executeEntry t slot false
  else
    let c := t.cycleContext
    let t := t.setContext
      { c with skipped := c.skipped + 1, processingErrors := c.processingErrors + 1 }
    ((deleteSlot t slot).1,
      [.event (.invalidExecType e.executionType e.groupId e.entryId), .left slot .skipped])

/-- The body of the `while` loop of `TTC_ProcessTimeline`; the flag is `false` when it leaves the
loop.  `later` is the clock reading of the emergency purge. -/
def processNext (now later : UInt32) (t : Timeline) : Timeline × List Effect × Bool :=
  let nextSlot := getNextSlot t
  if nextSlot ≥ maxCommandEntries then
    let c := t.cycleContext
    let t := t.setContext { c with processingErrors := c.processingErrors + 1 }
    let (t', es) := purgeTimeline t later
    (t', .event (.invalidNextSlot nextSlot) :: es, false)
  else if now < (t.entry nextSlot).timeTag then (t, [], false)
  else if isStale now (t.entry nextSlot) then
    let (t', es) := processStale t nextSlot
    (t', es, true)
  else
    let (t', es) := executeEntry t nextSlot false
    (t', es, true)

/-- `while (Timeline.State.Count > 0)` in `TTC_ProcessTimeline`.  Every round that stays in the loop
takes an entry out of the index, so `Count` rounds are enough (`processLoop_eq`). -/
def processLoop (now later : UInt32) : Nat → Timeline → Timeline × List Effect
  | 0, t => (t, [])
  | fuel + 1, t =>
    if t.count > 0 then
      match processNext now later t with
      | (t', es, false) => (t', es)
      | (t', es, true) =>
        let (t'', es') := processLoop now later fuel t'
        (t'', es ++ es')
    else (t, [])

/-- The time-jump checks at the head of `TTC_ProcessTimeline`. -/
def detectTimeJump (t : Timeline) (now : UInt32) : Timeline × List Effect :=
  let prev := t.cycleContext.previousTime
  let backward := decide (now < prev)
  let forward := decide (now > prev + 1)
  let c := t.cycleContext
  (t.setContext { c with
      backwardJumpDetected := backward || c.backwardJumpDetected
      forwardJumpDetected := forward || c.forwardJumpDetected },
    (if backward then [.event (.timeJumpBackward now prev)] else []) ++
      if forward then [.event (.timeJumpForward now prev)] else [])

/-- `TTC_ProcessTimeline` up to its last statement, `UpdateTimelineHousekeeping();`, which `ttc`
runs on the timeline this leaves. -/
def processTimeline (t : Timeline) (now later : UInt32) : Outcome :=
  let (t, jumps) := detectTimeJump (initCycleContext t) now
  let (t, es) := if t.executionPaused then (t, []) else processLoop now later t.count t
  ⟨.success, t.setContext { t.cycleContext with previousTime := now }, jumps ++ es⟩

/-! ## The machine -/

/-- A call of a public function, with the clock readings it is given. -/
inductive Op
  | addEntry (timeTagType : UInt8) (entryId groupId : UInt16) (timeTag : UInt32)
      (stalenessThreshold : UInt16) (executionType : UInt8) (cmdData : List UInt8) (now : UInt32)
  | deleteEntry (entryId groupId : UInt16)
  | deleteGroup (groupId : UInt16)
  | deleteAllEntries
  | executeEntry (entryId groupId : UInt16) (persistentExecution : Bool)
  | executeGroup (groupId : UInt16) (persistentExecution : Bool)
  | pauseProcessing
  | resumeProcessing
  | plumbInit (entryId groupId : UInt16)
  | plumbWrite (entryId groupId : UInt16) (cmdChunk : List UInt8) (offset : Nat)
  | plumbFinalize (timeTagType : UInt8) (entryId groupId : UInt16) (timeTag : UInt32)
      (stalenessThreshold : UInt16) (executionType : UInt8) (cmdSize : Nat) (now now' : UInt32)
  | plumbDeleteReserved (entryId groupId : UInt16)
  | purgeTimeline (now : UInt32)
  | processTimeline (now later : UInt32)
  | resetHousekeeping
  deriving DecidableEq

/-- The call on the timeline.  `resetHousekeeping` does not touch it. -/
def perform (t : Timeline) : Op → Outcome
  | .addEntry ty e g tag st ex data now => timelineAddEntry t ty e g tag st ex data now
  | .deleteEntry e g => timelineDeleteEntry t e g
  | .deleteGroup g => (timelineDeleteGroup t g).1
  | .deleteAllEntries => timelineDeleteAllEntries t
  | .executeEntry e g persist => timelineExecuteEntry t e g persist
  | .executeGroup g persist => timelineExecuteGroup t g persist
  | .pauseProcessing => timelinePauseProcessing t
  | .resumeProcessing => timelineResumeProcessing t
  | .plumbInit e g => plumbTimelineAddEntryInit t e g
  | .plumbWrite e g chunk offset => plumbTimelineAddEntryWrite t e g chunk offset
  | .plumbFinalize ty e g tag st ex size now now' =>
    plumbTimelineAddEntryFinalize t ty e g tag st ex size now now'
  | .plumbDeleteReserved e g => plumbTimelineDeleteReservedEntry t e g
  | .purgeTimeline now => plumbPurgeTimeline t now
  | .processTimeline now later => processTimeline t now later
  | .resetHousekeeping => ⟨.success, t, []⟩

/-- The housekeeping after a call that leaves the timeline `t`. -/
def performHk (t : Timeline) (hk : TimelineHousekeeping) : Op → TimelineHousekeeping
  | .processTimeline _ _ => updateTimelineHousekeeping t hk
  | .resetHousekeeping => default
  | _ => hk

/-- **The timeline module as a machine**: a call is a step, and its answer is the returned status
with the effects of the call. -/
def ttc : Machine State Op (Status × List Effect) where
  step s op :=
    let r := perform s.timeline op
    (⟨r.timeline, performHk r.timeline s.hk op⟩, r.status, r.effects)

end Ttc
end FlightApps
