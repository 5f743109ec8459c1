import Mathlib.Data.List.Count
import FlightApps.Lib.Machine
import FlightApps.Msg.Header

/-!
# The uplink over the radio

`CFE_RF_CommandIngestTask` takes connections, reads their packets and gives the telecommands to the
software bus, in a buffer of the bus if there is one and by a copy if that fails.  Every packet and
every buffer is disposed of once, and no telecommand is delivered twice.

How long a message is the bus reads in the message, and nobody compares that with how much was
received.  `ingest_safe_iff`: what is given to the bus is as long as it says exactly if the ground
sends only such packets.

Packets and buffers have numbers, in the order in which they come.
-/

set_option autoImplicit false

namespace FlightApps
namespace Rf

open Msg

/-! ## Packets and messages -/

/-- `CFE_RF_UPORT_PING`. -/
def portPing : Int := 1

/-- `CFE_RF_UPORT_TC`. -/
def portTc : Int := 13

/-- `memcpy` of so many bytes. -/
def copied (src dst : Memory) (n : Nat) : Memory := fun i => if i < n then src i else dst i

/-- A packet, and what the calls for it give. -/
structure Arrival where
  /-- `csp_conn_dport`. -/
  port : Int
  length : UInt16
  data : Memory
  /-- `CFE_SB_AllocateMessageBuffer`: what is in the buffer, if there is one. -/
  buffer : Option Memory
  /-- `CFE_SB_TransmitBuffer` succeeds. -/
  transmitted : Bool
  /-- It then delivers the message to somebody. -/
  bufferDelivers : Bool
  /-- `CFE_SB_TransmitMsg` delivers the message to somebody. -/
  msgDelivers : Bool

/-- The message is as long as it says. -/
def Arrival.Sound (a : Arrival) : Prop := getSize a.data = a.length.toNat

/-! ## The task -/

/-- What the task does with packets, buffers and messages. -/
inductive Effect
  /-- `CFE_SB_TransmitMsg` of the time of the last contact. -/
  | contactTime
  /-- `csp_service_handler`. -/
  | handled (packet : Nat)
  /-- `csp_buffer_free`. -/
  | freed (packet : Nat)
  /-- `CFE_SB_AllocateMessageBuffer` with success. -/
  | allocated (buffer : Nat)
  /-- `CFE_SB_TransmitBuffer`. -/
  | transmitBuffer (packet buffer : Nat) (message : Memory) (length : UInt16) (ok delivers : Bool)
  /-- `CFE_SB_ReleaseMessageBuffer`. -/
  | released (buffer : Nat)
  /-- `CFE_SB_TransmitMsg` of the packet. -/
  | transmitMsg (packet : Nat) (message : Memory) (length : UInt16) (delivers : Bool)
  /-- `csp_close`. -/
  | closed

inductive Input
  /-- `csp_accept`, with or without a connection. -/
  | accept (connected : Bool)
  /-- `csp_read`. -/
  | read (packet : Option Arrival)

/-- The task, in the loop on a connection or not, with the packets and buffers so far. -/
structure Ingest where
  connected : Bool
  packets : Nat
  buffers : Nat

namespace Ingest

def start : Ingest := ⟨false, 0, 0⟩

/-- The buffer of the bus, if there is one. -/
def sendBuffer (s : Ingest) (a : Arrival) : List Effect :=
  match a.buffer with
  | none => []
  | some old =>
    [.allocated s.buffers, .transmitBuffer s.packets s.buffers (copied a.data old a.length.toNat)
      a.length a.transmitted a.bufferDelivers] ++
      if a.transmitted then [] else [.released s.buffers]

/-- The copy, if there was no buffer or it was not transmitted. -/
def sendCopy (s : Ingest) (a : Arrival) : List Effect :=
  if a.buffer.isSome && a.transmitted then []
  else [.transmitMsg s.packets a.data a.length a.msgDelivers]

/-- A telecommand. -/
def telecommand (s : Ingest) (a : Arrival) : List Effect :=
  [.contactTime] ++ s.sendBuffer a ++ s.sendCopy a ++ [.freed s.packets]

/-- What is done with a packet. -/
def handle (s : Ingest) (a : Arrival) : List Effect :=
  if a.port = portPing then [.handled s.packets]
  else if a.port = portTc then s.telecommand a
  else [.freed s.packets]

/-- The numbers after a packet. -/
def counted (s : Ingest) (a : Arrival) : Ingest where
  connected := s.connected
  packets := s.packets + 1
  buffers := s.buffers + if a.port = portTc ∧ a.buffer.isSome then 1 else 0

/-- `CFE_RF_CommandIngestTask`. -/
def machine : Machine Ingest Input (List Effect) where
  step s
    | .accept connected => if s.connected then (s, []) else ({ s with connected }, [])
    | .read none => if s.connected then ({ s with connected := false }, [.closed]) else (s, [])
    | .read (some a) => if s.connected then (s.counted a, s.handle a) else (s, [])

end Ingest

/-! ## Accounts -/

/-- The packet is given away. -/
def Effect.releases (p : Nat) : Effect → Bool
  | .handled q | .freed q => q == p
  | _ => false

/-- The buffer is given away. -/
def Effect.disposes (b : Nat) : Effect → Bool
  | .transmitBuffer _ c _ _ ok _ => ok && c == b
  | .released c => c == b
  | _ => false

/-- The message of the packet is delivered. -/
def Effect.delivers (p : Nat) : Effect → Bool
  | .transmitBuffer q _ _ _ ok delivers => ok && delivers && q == p
  | .transmitMsg q _ _ delivers => delivers && q == p
  | _ => false

/-- A message that is given to the bus is as long as it says. -/
def Effect.Sized : Effect → Prop
  | .transmitBuffer _ _ message length _ _ => getSize message = length.toNat
  | .transmitMsg _ message length _ => getSize message = length.toNat
  | _ => True

/-- Every packet and every buffer so far has been given away once, and none that is to come. -/
structure Accounts (s : Ingest) (es : List Effect) : Prop where
  packets : ∀ p, es.countP (Effect.releases p) = if p < s.packets then 1 else 0
  buffers : ∀ b, es.countP (Effect.disposes b) = if b < s.buffers then 1 else 0
  delivered : ∀ p, es.countP (Effect.delivers p) ≤ if p < s.packets then 1 else 0

section Step

variable {s : Ingest} {es : List Effect} (a : Arrival)

theorem handle_releases (p : Nat) :
    (s.handle a).countP (Effect.releases p) = if s.packets = p then 1 else 0 := by
  unfold Ingest.handle Ingest.telecommand Ingest.sendBuffer Ingest.sendCopy
  split
  · simp [Effect.releases]
  split
  · cases a.buffer <;> cases a.transmitted <;> simp [Effect.releases, List.countP_cons]
  · simp [Effect.releases]

theorem handle_disposes (b : Nat) : (s.handle a).countP (Effect.disposes b) =
    if (a.port = portTc ∧ a.buffer.isSome) ∧ s.buffers = b then 1 else 0 := by
  unfold Ingest.handle Ingest.telecommand Ingest.sendBuffer Ingest.sendCopy
  split
  · rename_i hping
    simp [Effect.disposes, hping, portPing, portTc]
  split
  · rename_i htc
    cases a.buffer <;> cases a.transmitted <;> simp [Effect.disposes, htc, List.countP_cons]
  · rename_i htc
    simp [Effect.disposes, htc]

theorem handle_delivers (p : Nat) :
    (s.handle a).countP (Effect.delivers p) ≤ if s.packets = p then 1 else 0 := by
  unfold Ingest.handle Ingest.telecommand Ingest.sendBuffer Ingest.sendCopy
  split
  · simp [Effect.delivers]
  split
  · cases a.buffer <;> cases a.transmitted <;> cases a.bufferDelivers <;> cases a.msgDelivers <;>
      simp [Effect.delivers, List.countP_cons]
  · simp [Effect.delivers]

theorem accounts_start : Accounts Ingest.start [] where
  packets := fun _ => rfl
  buffers := fun _ => rfl
  delivered := fun _ => Nat.zero_le _

/-- A packet is accounted for. -/
theorem Accounts.handle (h : Accounts s es) : Accounts (s.counted a) (es ++ s.handle a) where
  packets := fun p => by
    rw [List.countP_append, h.packets, handle_releases]
    show _ = if p < s.packets + 1 then 1 else 0
    split <;> split <;> split <;> omega
  buffers := fun b => by
    rw [List.countP_append, h.buffers, handle_disposes, Ingest.counted]
    by_cases htc : a.port = portTc ∧ a.buffer.isSome
    · simp only [htc, if_true, true_and]
      split <;> split <;> split <;> omega
    · simp only [htc, if_false, false_and, Nat.add_zero]
  delivered := fun p => by
    have hmost := handle_delivers (s := s) a p
    have hbefore := h.delivered p
    rw [List.countP_append, Ingest.counted]
    dsimp only
    split at hmost <;> split at hbefore <;> split <;> omega

/-- **One step.** -/
theorem Accounts.step (h : Accounts s es) (i : Input) :
    Accounts (Ingest.machine.step s i).1 (es ++ (Ingest.machine.step s i).2) := by
  have hsame : ∀ c, Accounts { s with connected := c } es := fun c =>
    ⟨h.packets, h.buffers, h.delivered⟩
  rcases i with connected | _ | a <;> dsimp only [Ingest.machine] <;> split
  · simpa using h
  · simpa using hsame connected
  · refine ⟨fun p => ?_, fun b => ?_, fun p => ?_⟩
    · simp [h.packets, Effect.releases]
    · simp [h.buffers, Effect.disposes]
    · simpa [Effect.delivers] using h.delivered p
  · simpa using h
  · exact h.handle a
  · simpa using h

/-- The bytes with the size are received, if the size is right. -/
theorem declared_copied (old : Memory) :
    getSize (copied a.data old a.length.toNat) = a.length.toNat ↔ a.Sound := by
  by_cases hlong : 7 ≤ a.length.toNat
  · have h₄ : 4 < a.length.toNat := by omega
    have h₅ : 5 < a.length.toNat := by omega
    simp [Arrival.Sound, getSize, copied, h₄, h₅]
  · have hcopied := getSize_pos (copied a.data old a.length.toNat)
    have hdata := getSize_pos a.data
    rw [Arrival.Sound]
    omega

theorem declared_data : getSize a.data = a.length.toNat ↔ a.Sound := Iff.rfl

/-- What is given to the bus of a packet is as long as it says exactly if the packet is. -/
theorem handle_sized_iff :
    (∀ e ∈ s.handle a, e.Sized) ↔ (a.port = portTc → a.Sound) := by
  unfold Ingest.handle Ingest.telecommand Ingest.sendBuffer Ingest.sendCopy
  split
  · rename_i hping
    simp [Effect.Sized, hping, portPing, portTc]
  split
  · rename_i htc
    cases hbuffer : a.buffer <;> cases a.transmitted <;>
      simp [Effect.Sized, htc, declared_copied, declared_data]
  · rename_i htc
    simp [Effect.Sized, htc]

/-- What a step gives to the bus. -/
theorem step_sized_iff (i : Input) : (∀ e ∈ (Ingest.machine.step s i).2, e.Sized) ↔
    ∀ a, i = .read (some a) → s.connected = true → a.port = portTc → a.Sound := by
  rcases i with connected | _ | a <;> dsimp only [Ingest.machine] <;> split
  · simp
  · simp
  · simp [Effect.Sized]
  · simp
  · rename_i hconnected
    rw [handle_sized_iff]
    simp [hconnected]
  · rename_i hconnected
    simp [hconnected]

end Step

/-- What is given to the bus over a run. -/
theorem sized_iff (is : List Input) :
    (∀ e ∈ Ingest.machine.history Ingest.start is, e.Sized) ↔
      ∀ pre a, pre ++ [.read (some a)] <+: is →
        (Ingest.machine.run Ingest.start pre).connected = true → a.port = portTc → a.Sound := by
  induction is using List.reverseRecOn with
  | nil => simp
  | append_singleton is i ih =>
    rw [Machine.history_append, List.forall_mem_append, ih, Machine.history_cons,
      Machine.history_nil, List.append_nil, step_sized_iff]
    constructor
    · rintro ⟨hbefore, hlast⟩ pre a hpre
      rcases List.prefix_concat_iff.1 hpre with heq | hpre
      · obtain ⟨rfl, hi⟩ := List.append_inj' heq rfl
        exact hlast a (List.cons.inj hi).1.symm
      · exact hbefore pre a hpre
    · refine fun h => ⟨fun pre a hpre => h pre a (hpre.trans (List.prefix_append _ _)), ?_⟩
      rintro a rfl
      exact h is a (List.prefix_refl _)

/-- **The uplink is safe exactly if the ground is.**  In every run each packet and each buffer of the
bus is given away once and the message of a packet is delivered at most once.  What is given to the
bus is as long as it says exactly if every telecommand packet is. -/
theorem ingest_safe_iff (is : List Input) :
    (∀ p, (Ingest.machine.history Ingest.start is).countP (Effect.releases p) =
      if p < (Ingest.machine.run Ingest.start is).packets then 1 else 0) ∧
    (∀ b, (Ingest.machine.history Ingest.start is).countP (Effect.disposes b) =
      if b < (Ingest.machine.run Ingest.start is).buffers then 1 else 0) ∧
    (∀ p, (Ingest.machine.history Ingest.start is).countP (Effect.delivers p) ≤ 1) ∧
    ((∀ e ∈ Ingest.machine.history Ingest.start is, e.Sized) ↔
      ∀ pre a, pre ++ [.read (some a)] <+: is →
        (Ingest.machine.run Ingest.start pre).connected = true → a.port = portTc → a.Sound) := by
  have h : Accounts (Ingest.machine.run Ingest.start is) (Ingest.machine.history Ingest.start is) :=
    Ingest.machine.history_invariant (fun _ _ i h => h.step i) accounts_start is
  refine ⟨h.packets, h.buffers, fun p => Nat.le_trans (h.delivered p) ?_, sized_iff is⟩
  split
  · exact Nat.le_refl 1
  · exact Nat.zero_le 1

/-- A telecommand of eight bytes that says it has 65542. -/
def longClaim : Arrival where
  port := portTc
  length := 8
  data := fun _ => 255
  buffer := some fun _ => 0
  transmitted := true
  bufferDelivers := true
  msgDelivers := true

/-- The bus is given it. -/
theorem long_claim_given :
    ¬∀ e ∈ Ingest.machine.history Ingest.start [.accept true, .read (some longClaim)], e.Sized := by
  intro h
  have hsize := h (.transmitBuffer 0 0 (copied (fun _ => 255) (fun _ => 0) 8) 8 true true)
    (by simp [Machine.history, Machine.answers, Ingest.machine, Ingest.start, Ingest.handle,
      Ingest.telecommand, Ingest.sendBuffer, longClaim, portTc, portPing])
  simp [Effect.Sized, getSize, copied] at hsize

end Rf
end FlightApps
