import FlightApps.Leop.Early

/-!
# The plan of the sequence

What LEOP is to do is a plan: wait, and then ten times burn, enable the output and rest.  `Place` is
a place in that plan, and the next event leads to another place or is none that the plan has.  A
record in the file is a place, too (`FileData.place`): the one at which the sequence is to go on
when it is loaded.

A `Ledger` follows the plan over all boots, and counts the burns and the starts that came in the
middle of one.  `Resumes` says that the sequence goes on where it stopped.
-/

set_option autoImplicit false

namespace FlightApps
namespace Leop

/-- Where the sequence is. -/
inductive Place
  /-- Nothing has been loaded since the start. -/
  | starting
  /-- So many seconds are left of the initial wait. -/
  | waiting (left : Nat)
  /-- The burn of a cycle comes next. -/
  | ready (cycle : Nat)
  /-- The line is being raised. -/
  | raising (cycle : Nat)
  | burning (cycle left : Nat)
  | lowering (cycle : Nat)
  /-- The burn is over, and the output is to be enabled. -/
  | burnt (cycle : Nat)
  /-- So many seconds are left of the wait after the burn. -/
  | resting (cycle left : Nat)
  | complete
deriving DecidableEq

namespace Place

/-- A record is loaded, or the defaults are applied. -/
def load (p' : Place) : Place → Option Place
  | starting => some p'
  | _ => none

/-- A second passes. -/
def tick : Place → Option Place
  | waiting (n + 1) => some (waiting n)
  | burning k (n + 1) => some (burning k n)
  | resting k (n + 1) => some (resting k n)
  | _ => none

/-- A command is issued. -/
def issue : Command → Place → Option Place
  | .gpioHigh, waiting 0 => some (raising 0)
  | .gpioHigh, ready k => some (raising k)
  | .gpioHigh, resting k 0 =>
    if k + 1 < sequenceRepeatCount.toNat then some (raising (k + 1)) else none
  | .gpioLow, burning k 0 => some (lowering k)
  | .enableTo, burnt k => some (resting k postBurnWaitSec.toNat)
  | .enableTo, complete => some complete
  | .startAdcsDetumble, p => some p
  | _, _ => none

/-- A command is transmitted, or not. -/
def sent : Command → Status → Place → Option Place
  | .gpioHigh, status, raising k =>
    some (if status = success then burning k burnDurationSec.toNat else raising k)
  | .gpioHigh, _, _ => none
  | .gpioLow, _, lowering k => some (burnt k)
  | .gpioLow, _, _ => none
  | _, _, p => some p

/-- `MISSION_LEOP_GpioHigh` has returned. -/
def leave : Place → Option Place
  | raising k => some (burnt k)
  | lowering k => some (burnt k)
  | burnt k => some (burnt k)
  | _ => none

/-- `MISSION_LEOP_Process` returns. -/
def finish : Place → Option Place
  | resting k 0 => if k + 1 = sequenceRepeatCount.toNat then some complete else none
  | complete => some complete
  | _ => none

/-- A burn has begun and is not over. -/
def inBurn : Place → Bool
  | raising _ => true
  | burning _ _ => true
  | lowering _ => true
  | _ => false

/-- The cycle whose burn is over. -/
def spent : Place → Option Nat
  | burnt k => some k
  | resting k _ => some k
  | _ => none

/-- The current cycle. -/
def cycle : Place → Nat
  | starting => 0
  | waiting _ => 0
  | ready k => k
  | raising k => k
  | burning k _ => k
  | lowering k => k
  | burnt k => k
  | resting k _ => k
  | complete => sequenceRepeatCount.toNat

/-- The first cycle whose burn has not begun. -/
def next : Place → Nat
  | starting => 0
  | waiting _ => 0
  | ready k => k
  | raising k => k + 1
  | burning k _ => k + 1
  | lowering k => k + 1
  | burnt k => k + 1
  | resting k _ => k + 1
  | complete => sequenceRepeatCount.toNat

/-- What a start loses is the burn it came in the middle of, and the one that was over. -/
theorem next_le (p : Place) :
    p.next ≤ p.cycle + (if p.inBurn then 1 else 0) + if p.spent = none then 0 else 1 := by
  cases p <;> simp [next, cycle, inBurn, spent]

end Place

/-- Where a record says that the sequence is. -/
def FileData.place (d : FileData) : Place :=
  match (LeopState.ofByte d.leopState).getD .complete with
  | .initialWait => .waiting (initialWaitSec.toNat - d.leopWaitElapsedSec.toNat)
  | .burn => .ready d.leopCycleCount.toNat
  | .toEnable => .burnt d.leopCycleCount.toNat
  | .postWait => .resting d.leopCycleCount.toNat
      (postBurnWaitSec.toNat - d.leopWaitElapsedSec.toNat)
  | .complete => .complete

/-! ## The ledger -/

/-- What has been noted of the sequence. -/
structure Ledger where
  /-- Where it is, or nowhere if something has happened that is not in the plan. -/
  place : Option Place
  /-- Burns that have begun, in all boots. -/
  burns : Nat
  /-- Starts in the middle of a burn. -/
  interrupted : Nat
  /-- The last copy of the runtime data. -/
  copied : Option FileData
  /-- The last record that has been saved or loaded. -/
  saved : Option FileData

namespace Ledger

def go (g : Ledger) (f : Place → Option Place) : Ledger := { g with place := g.place.bind f }

def note (g : Ledger) : Event → Ledger
  | .booted =>
    { g with
      place := g.place.map fun _ => .starting
      interrupted := g.interrupted + if g.place.any Place.inBurn then 1 else 0 }
  | .loaded d _ => { g.go (Place.load d.place) with copied := some d, saved := some d }
  | .refused _ => g.go (Place.load (.waiting initialWaitSec.toNat))
  | .loadFailed => g.go (Place.load (.waiting initialWaitSec.toNat))
  | .delayed => g.go Place.tick
  | .issuing .gpioHigh => { g.go (Place.issue .gpioHigh) with burns := g.burns + 1 }
  | .issuing c => g.go (Place.issue c)
  | .sent c status => g.go (Place.sent c status)
  | .tested .burnt _ => g.go Place.leave
  | .finished => g.go Place.finish
  | .snapshot .request _ => g
  | .snapshot _ d => { g with copied := some d }
  | .synced .request => g
  | .synced _ => { g with saved := g.copied }
  | _ => g

/-- The cycle count that is saved. -/
def count (g : Ledger) : Nat := g.saved.elim 0 fun d => d.leopCycleCount.toNat

end Ledger

def ledger : Watch Ledger where
  init := ⟨some .starting, 0, 0, none, none⟩
  note := Ledger.note
  deaf g e he := by
    cases e with
    | snapshot c d => cases c <;> first | rfl | exact absurd he Bool.false_ne_true
    | synced c => cases c <;> first | rfl | exact absurd he Bool.false_ne_true
    | _ => first | rfl | exact absurd he Bool.false_ne_true

/-- What is loaded is what was saved, or what was being saved; and the defaults are not applied as
long as there is a record. -/
def Restarts (pre : List Event) (e : Event) : Prop :=
  (∀ d v, e = .loaded d v → ∀ d', (ledger.of pre).saved = some d' →
    d = d' ∨ (ledger.of pre).copied = some d) ∧
  (e.Defaults → (ledger.of pre).saved = none)

/-- The cycle count that is saved does not decrease. -/
def Rises (pre : List Event) (e : Event) : Prop :=
  (ledger.of pre).count ≤ (ledger.of (pre ++ [e])).count

/-- **The sequence goes on where it stopped.** -/
structure Resumes (h : List Event) : Prop where
  /-- All that happens is in the plan, and every start goes on at the place of the record. -/
  follows : (ledger.of h).place ≠ none
  restarts : Each Restarts h
  rises : Each Rises h
  /-- No burn is repeated but those that were interrupted. -/
  bounded : (ledger.of h).burns ≤ sequenceRepeatCount.toNat + (ledger.of h).interrupted

end Leop
end FlightApps
