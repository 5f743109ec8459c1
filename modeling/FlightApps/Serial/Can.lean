import Mathlib.Data.List.Flatten
import FlightApps.Serial.Driver

/-!
# Transfers over CAN

A CAN frame carries at most eight bytes, so `linux_serial_write_can` cuts what it is given, and
`linux_serial_read_can` puts together what comes in.  The writer declares in each frame how many
bytes are in it.  The reader takes as many as it still wants and only reports a frame that declares
another number, so what it delivers may hold bytes that nobody has sent (`read_prefix_iff`).

`Driver` has the same loops without the bytes; `writeFrames_status` and `readFrames_status` connect
them.
-/

set_option autoImplicit false

namespace FlightApps
namespace Serial

/-! ## Frames -/

/-- `CAN_EFF_FLAG`. -/
def canEffFlag : UInt32 := 0x80000000

/-- `struct can_frame`. -/
structure CanFrame where
  canId : UInt32
  canDlc : UInt8
  data : Vector UInt8 canMaxDlen
deriving DecidableEq

namespace CanFrame

/-- The bytes the frame declares. -/
def payload (f : CanFrame) : List UInt8 := f.data.toList.take f.canDlc.toNat

/-- The first bytes of the data, whatever the frame declares. -/
def front (f : CanFrame) (n : Nat) : List UInt8 := f.data.toList.take n

/-- The frame with these bytes at the front of its data. -/
def fill (f : CanFrame) (bytes : List UInt8) : Vector UInt8 canMaxDlen :=
  Vector.ofFn fun i => bytes.getD i (f.data.get i)

theorem front_fill (f : CanFrame) (id : UInt32) (dlc : UInt8) {bytes : List UInt8}
    (h : bytes.length ≤ canMaxDlen) : (⟨id, dlc, f.fill bytes⟩ : CanFrame).front bytes.length =
      bytes := by
  refine List.ext_getElem (by simp [front, h]) fun i h₁ h₂ => ?_
  simp [front, fill, List.getElem?_eq_getElem h₂]

end CanFrame

/-! ## Writing -/

/-- The next frame.  `frame` is the variable on the stack, which keeps what was in it. -/
def nextFrame (addr : UInt32) (tx : List UInt8) (tot : Nat) (frame : CanFrame) : CanFrame :=
  let wrBytes := frameBytes (tx.length - tot)
  ⟨addr ||| canEffFlag, UInt8.ofNat wrBytes, frame.fill ((tx.drop tot).take wrBytes)⟩

/-- The loop of `linux_serial_write_can`: the frames that are written, and the status. -/
def writeFrames (addr : UInt32) (tx : List UInt8) (calls : Nat → Call) (tot k : Nat)
    (frame : CanFrame) (status : Option Status) : List CanFrame × Option Status :=
  if tot < tx.length then
    let st := linuxSerialWrite (calls k) canFrameSize
    if st ≠ .success then ([], some st)
    else
      let frame := nextFrame addr tx tot frame
      let rest := writeFrames addr tx calls (tot + frameBytes (tx.length - tot)) (k + 1) frame
        (some st)
      (frame :: rest.1, rest.2)
  else ([], status)
termination_by tx.length - tot
decreasing_by
  have hpos : 0 < frameBytes (tx.length - tot) := frameBytes_pos (by omega)
  omega

/-- `linux_serial_write_can`. -/
def linuxSerialWriteCan (addr : UInt32) (tx : List UInt8) (calls : Nat → Call) (frame : CanFrame) :
    List CanFrame × Option Status :=
  writeFrames addr tx calls 0 0 frame none

/-! ## Reading -/

/-- One turn of the reader: what `poll` and `read` give, and the frame if there is one. -/
structure Incoming where
  poll : Call
  read : Call
  frame : CanFrame

/-- The status of the turn. -/
def Incoming.status (i : Incoming) : Status := linuxSerialPollRead i.poll i.read canFrameSize

/-- The loop of `linux_serial_read_can`: the status, and the bytes that it stores.  When nothing
more comes in the next `poll` times out. -/
def readFrames (size : Nat) (tot : Nat) (status : Option Status) :
    List Incoming → Option Status × List UInt8
  | [] => if tot < size then (some .timeoutError, []) else (status, [])
  | i :: is =>
    if tot < size then
      let rdBytes := frameBytes (size - tot)
      if i.status ≠ .success then (some i.status, [])
      else
        -- `can_dlc` is compared with `rdBytes` only to print a line
        let rest := readFrames size (tot + rdBytes) (some i.status) is
        (rest.1, i.frame.front rdBytes ++ rest.2)
    else (status, [])

/-- `linux_serial_read_can`, which writes first if there is something to write. -/
def linuxSerialReadCan (addr : UInt32) (tx : List UInt8) (calls : Nat → Call) (frame : CanFrame)
    (size : Nat) (is : List Incoming) : Option Status × List UInt8 :=
  if tx ≠ [] then
    let written := (linuxSerialWriteCan addr tx calls frame).2
    if written ≠ some .success then (written, []) else readFrames size 0 written is
  else readFrames size 0 none is

/-! ## What is written -/

theorem frameBytes_le (left : Nat) : frameBytes left ≤ canMaxDlen := by
  rw [frameBytes]
  split
  · exact Nat.le_refl _
  · omega

theorem frameBytes_le_left (left : Nat) : frameBytes left ≤ left := by
  rw [frameBytes]
  split
  · assumption
  · exact Nat.le_refl _

/-- Every write gives a whole frame. -/
def Writes (calls : Nat → Call) : Prop := ∀ k, linuxSerialWrite (calls k) canFrameSize = .success

section Writing

variable {addr : UInt32} {tx : List UInt8} {calls : Nat → Call} {tot k : Nat} {frame : CanFrame}
  {status : Option Status}

theorem length_next : ((tx.drop tot).take (frameBytes (tx.length - tot))).length =
    frameBytes (tx.length - tot) := by
  simp [frameBytes_le_left]

theorem nextFrame_dlc : (nextFrame addr tx tot frame).canDlc.toNat = frameBytes (tx.length - tot) := by
  have hmost : frameBytes (tx.length - tot) ≤ 8 := frameBytes_le _
  rw [nextFrame, UInt8.toNat_ofNat', Nat.mod_eq_of_lt (by omega)]

/-- The next frame carries the next bytes. -/
theorem nextFrame_payload : (nextFrame addr tx tot frame).payload =
    (tx.drop tot).take (frameBytes (tx.length - tot)) := by
  have hlength : ((tx.drop tot).take (frameBytes (tx.length - tot))).length ≤ canMaxDlen :=
    length_next.trans_le (frameBytes_le _)
  have hfront := frame.front_fill (addr ||| canEffFlag)
    (UInt8.ofNat (frameBytes (tx.length - tot))) hlength
  rw [length_next] at hfront
  rw [CanFrame.payload, nextFrame_dlc]
  exact hfront

/-- The status is that of the loop without the bytes. -/
theorem writeFrames_status : (writeFrames addr tx calls tot k frame status).2 =
    writeCanLoop tx.length calls tot k status := by
  fun_induction writeFrames addr tx calls tot k frame status with
  | case1 tot k frame status h st hst =>
    rw [writeCanLoop, if_pos h]
    exact (if_pos hst).symm
  | case2 tot k frame status h st hst frame' rest ih =>
    rw [writeCanLoop, if_pos h]
    exact ih.trans (if_neg hst).symm
  | case3 tot k frame status h => rw [writeCanLoop, if_neg h]

/-- **What is cut is the whole.**  Each frame carries at most eight bytes, and together they carry
what is left. -/
theorem writeFrames_carry (hcalls : Writes calls) :
    (∀ f ∈ (writeFrames addr tx calls tot k frame status).1, f.canDlc.toNat ≤ canMaxDlen) ∧
    (writeFrames addr tx calls tot k frame status).1.flatMap CanFrame.payload = tx.drop tot := by
  fun_induction writeFrames addr tx calls tot k frame status with
  | case1 tot k frame status h st hst => exact absurd (hcalls k) hst
  | case2 tot k frame status h st hst frame' rest ih =>
    obtain ⟨hdlc, hall⟩ := ih
    refine ⟨fun f hf => ?_, ?_⟩
    · rcases List.mem_cons.1 hf with rfl | hf
      · exact nextFrame_dlc.trans_le (frameBytes_le _)
      · exact hdlc f hf
    · rw [List.flatMap_cons, nextFrame_payload, hall, ← List.drop_drop, List.take_append_drop]
  | case3 tot k frame status h => simp [List.drop_eq_nil_of_le (Nat.le_of_not_lt h)]

end Writing

/-! ## What is read -/

section Reading

variable {size tot : Nat} {status : Option Status} {i : Incoming} {is : List Incoming}

/-- Every turn gives a frame. -/
def Comes (is : List Incoming) : Prop := ∀ i ∈ is, i.status = .success

theorem readFrames_done (h : size ≤ tot) : readFrames size tot status is = (status, []) := by
  cases is <;> rw [readFrames, if_neg (Nat.not_lt.2 h)]

theorem readFrames_next (h : tot < size) (hi : i.status = .success) :
    readFrames size tot status (i :: is) =
      ((readFrames size (tot + frameBytes (size - tot)) (some .success) is).1,
        i.frame.front (frameBytes (size - tot)) ++
          (readFrames size (tot + frameBytes (size - tot)) (some .success) is).2) := by
  rw [readFrames, if_pos h, if_neg (not_not.2 hi), hi]

/-- The reader ends well only if the frame was there. -/
theorem status_of_readFrames (h : tot < size)
    (hread : (readFrames size tot status (i :: is)).1 = some .success) : i.status = .success := by
  rw [readFrames, if_pos h] at hread
  by_contra hi
  rw [if_pos hi] at hread
  exact hi (Option.some.inj hread)

/-- Only what is left to read matters. -/
theorem readFrames_left :
    readFrames size tot status is = readFrames (size - tot) 0 status is := by
  induction is generalizing size tot status with
  | nil =>
    rw [readFrames, readFrames]
    simp [Nat.sub_pos_iff_lt]
  | cons i is ih =>
    rw [readFrames, readFrames]
    by_cases h : tot < size
    · rw [if_pos h, if_pos (Nat.sub_pos_of_lt h), Nat.sub_zero]
      dsimp only
      rw [ih, @ih (size - tot), Nat.sub_add_eq, Nat.zero_add]
    · rw [if_neg h, if_neg (by omega)]

/-- What comes in, as the calls of the loop without the bytes. -/
def turnCalls : List Incoming → Nat → Call
  | [], _ => ⟨0, false⟩
  | i :: _, 0 => i.poll
  | i :: _, 1 => i.read
  | _ :: is, n + 2 => turnCalls is n

theorem readCanLoop_shift (size tot k : Nat) (calls : Nat → Call) (status : Option Status) :
    readCanLoop size calls tot (k + 2) status =
      readCanLoop size (fun n => calls (n + 2)) tot k status := by
  fun_induction readCanLoop size (fun n => calls (n + 2)) tot k status with
  | case1 tot k status h st hst =>
    rw [readCanLoop, if_pos h]
    exact if_pos hst
  | case2 tot k status h st hst ih =>
    rw [readCanLoop, if_pos h]
    exact (if_neg hst).trans ih
  | case3 tot k status h => rw [readCanLoop, if_neg h]

/-- The status is that of the loop without the bytes. -/
theorem readFrames_status :
    (readFrames size tot status is).1 = readCanLoop size (turnCalls is) tot 0 status := by
  induction is generalizing tot status with
  | nil =>
    rw [readFrames, readCanLoop]
    by_cases h : tot < size
    · rw [if_pos h, if_pos h]
      rfl
    · rw [if_neg h, if_neg h]
  | cons i is ih =>
    rw [readFrames, readCanLoop]
    by_cases h : tot < size
    · rw [if_pos h, if_pos h]
      dsimp only
      rw [readCanLoop_shift]
      by_cases hi : i.status = .success
      · rw [if_neg (not_not.2 hi)]
        exact ih.trans (if_neg (not_not.2 hi)).symm
      · rw [if_pos hi]
        exact (if_pos hi).symm
    · rw [if_neg h, if_neg h]

/-! ## What is delivered -/

/-- The frames declare as many bytes as the reader takes from them. -/
def Covers (size : Nat) (dlcs : List UInt8) : Prop :=
  ∀ k dlc, dlcs[k]? = some dlc → canMaxDlen * k < size →
    frameBytes (size - canMaxDlen * k) ≤ dlc.toNat

theorem frameBytes_of_le (h : canMaxDlen ≤ size) : frameBytes size = canMaxDlen := if_pos h

theorem frameBytes_of_lt (h : size < canMaxDlen) : frameBytes size = size :=
  if_neg (Nat.not_le.2 h)

theorem covers_cons {dlc : UInt8} {dlcs : List UInt8} :
    Covers size (dlc :: dlcs) ↔ (0 < size → frameBytes size ≤ dlc.toNat) ∧
      Covers (size - canMaxDlen) dlcs := by
  constructor
  · refine fun h => ⟨fun hpos => h 0 dlc rfl hpos, fun k dlc' hk hlt => ?_⟩
    have hnext := h (k + 1) dlc' hk (by rw [Nat.mul_succ]; omega)
    rwa [Nat.mul_succ, Nat.add_comm, Nat.sub_add_eq] at hnext
  · rintro ⟨hfirst, hrest⟩ k dlc' hk hlt
    cases k with
    | zero =>
      obtain rfl := Option.some.inj hk
      exact hfirst hlt
    | succ k =>
      rw [Nat.mul_succ] at hlt ⊢
      rw [Nat.add_comm, Nat.sub_add_eq]
      exact hrest k dlc' hk (by omega)

theorem covers_zero (dlcs : List UInt8) : Covers 0 dlcs :=
  fun _ _ _ h => absurd h (Nat.not_lt_zero _)

/-- What the reader takes from a frame that declares enough is what the frame carries, as far as it
goes. -/
theorem front_starts {f : CanFrame} {n : Nat} (h : n ≤ f.canDlc.toNat) : f.front n <+: f.payload := by
  rw [CanFrame.front, CanFrame.payload]
  exact List.take_prefix_take_left h

theorem front_whole {f : CanFrame} (h : canMaxDlen ≤ f.canDlc.toNat) :
    f.front canMaxDlen = f.payload := by
  have hlength : f.data.toList.length = canMaxDlen := by simp
  rw [CanFrame.front, CanFrame.payload, List.take_of_length_le (hlength.trans_le h),
    List.take_of_length_le (Nat.le_of_eq hlength)]

theorem readFrames_step (h : 0 < size) (hi : i.status = .success) :
    readFrames size 0 status (i :: is) =
      ((readFrames (size - canMaxDlen) 0 (some .success) is).1,
        i.frame.front (frameBytes size) ++
          (readFrames (size - canMaxDlen) 0 (some .success) is).2) := by
  have hrest : size - frameBytes size = size - canMaxDlen := by
    rcases Nat.lt_or_ge size canMaxDlen with hlt | hge
    · rw [frameBytes_of_lt hlt]
      omega
    · rw [frameBytes_of_le hge]
  rw [readFrames_next h hi, Nat.sub_zero, Nat.zero_add, readFrames_left, hrest]

/-- **Only bytes that were sent.** -/
theorem prefix_of_covers (hcovers : Covers size (is.map fun i => i.frame.canDlc))
    (hread : (readFrames size 0 status is).1 = some .success) :
    (readFrames size 0 status is).2 <+: is.flatMap fun i => i.frame.payload := by
  induction is generalizing size status with
  | nil =>
    rw [readFrames]
    split <;> exact List.nil_prefix
  | cons i is ih =>
    rcases Nat.eq_zero_or_pos size with rfl | hpos
    · rw [readFrames_done (Nat.le_refl 0)]
      exact List.nil_prefix
    · have hi := status_of_readFrames hpos hread
      rw [readFrames_step hpos hi] at hread ⊢
      obtain ⟨hfirst, hrest⟩ := covers_cons.1 hcovers
      rcases Nat.lt_or_ge size canMaxDlen with hlt | hge
      · rw [Nat.sub_eq_zero_of_le (Nat.le_of_lt hlt), readFrames_done (Nat.le_refl 0)]
        rw [List.append_nil, List.flatMap_cons]
        exact (front_starts (hfirst hpos)).trans (List.prefix_append _ _)
      · rw [frameBytes_of_le hge] at hfirst ⊢
        rw [front_whole (hfirst hpos), List.flatMap_cons]
        exact (List.prefix_append_right_inj _).2 (ih hrest hread)

/-! ## What is delivered otherwise -/

/-- A turn with a frame that carries zeros, before bytes that are left from earlier. -/
def staleTurn (dlc : UInt8) : Incoming where
  poll := ⟨1, true⟩
  read := ⟨canFrameSize, true⟩
  frame := ⟨canEffFlag, dlc, Vector.ofFn fun i => if i.val < dlc.toNat then 0 else 1⟩

theorem staleTurn_status (dlc : UInt8) : (staleTurn dlc).status = .success := rfl

theorem staleTurn_data (dlc : UInt8) {n k : Nat} (hk : k < n) (hn : n ≤ canMaxDlen) :
    ((staleTurn dlc).frame.front n)[k]? = some (if k < dlc.toNat then 0 else 1) := by
  have hmax : k < canMaxDlen := Nat.lt_of_lt_of_le hk hn
  simp [CanFrame.front, staleTurn, hk, hmax]

theorem staleTurn_payload (dlc : UInt8) : ∀ b ∈ (staleTurn dlc).frame.payload, b = 0 := by
  intro b hb
  obtain ⟨k, hk, rfl⟩ := List.mem_iff_getElem.1 hb
  have hlt : k < dlc.toNat := by
    simp [CanFrame.payload, staleTurn] at hk
    exact hk.1
  simp [CanFrame.payload, staleTurn, hlt]

theorem readFrames_stale (dlcs : List UInt8) (hlength : size ≤ canMaxDlen * dlcs.length)
    (hpos : 0 < size) :
    (readFrames size 0 status (dlcs.map staleTurn)).1 = some .success := by
  induction dlcs generalizing size status with
  | nil => exact absurd hlength (Nat.not_le.2 hpos)
  | cons dlc dlcs ih =>
    rw [List.map_cons, readFrames_step hpos (staleTurn_status dlc)]
    rw [List.length_cons, Nat.mul_succ] at hlength
    rcases Nat.eq_zero_or_pos (size - canMaxDlen) with hzero | hrest
    · rw [hzero, readFrames_done (Nat.le_refl 0)]
    · exact ih (by omega) hrest

/-- With too few frames the read does not end well. -/
theorem le_of_readFrames (hpos : 0 < size)
    (hread : (readFrames size 0 status is).1 = some .success) : size ≤ canMaxDlen * is.length := by
  induction is generalizing size status with
  | nil =>
    rw [readFrames, if_pos hpos] at hread
    cases hread
  | cons i is ih =>
    rw [readFrames_step hpos (status_of_readFrames hpos hread)] at hread
    rw [List.length_cons, Nat.mul_succ]
    rcases Nat.eq_zero_or_pos (size - canMaxDlen) with hzero | hrest
    · omega
    · have hle := ih hrest hread
      omega

/-- If the reader delivers zeros only, the frames declare enough. -/
theorem covers_of_zeros (dlcs : List UInt8)
    (hzeros : ∀ b ∈ (readFrames size 0 status (dlcs.map staleTurn)).2, b = 0) :
    Covers size dlcs := by
  induction dlcs generalizing size status with
  | nil => exact fun k dlc hk => by simp at hk
  | cons dlc dlcs ih =>
    rcases Nat.eq_zero_or_pos size with rfl | hpos
    · exact covers_zero _
    · rw [List.map_cons, readFrames_step hpos (staleTurn_status dlc)] at hzeros
      refine covers_cons.2 ⟨fun _ => ?_, ih fun b hb => hzeros b (List.mem_append_right _ hb)⟩
      by_contra hshort
      have hstale := staleTurn_data dlc (Nat.not_le.1 hshort) (frameBytes_le size)
      rw [if_neg (Nat.lt_irrefl _)] at hstale
      exact absurd (hzeros 1 (List.mem_append_left _ (List.mem_of_getElem? hstale))) (by decide)

end Reading

/-! ## Back and forth -/

section RoundTrip

variable {addr : UInt32} {tx : List UInt8} {calls : Nat → Call} {frame : CanFrame}

/-- What was written is read. -/
theorem readFrames_written (hcalls : Writes calls) {tot k : Nat} {status : Option Status} :
    ∀ status' is, Comes is →
      is.map Incoming.frame = (writeFrames addr tx calls tot k frame status).1 →
      readFrames tx.length tot status' is =
        (if tot < tx.length then some .success else status', tx.drop tot) := by
  fun_induction writeFrames addr tx calls tot k frame status with
  | case1 tot k frame status h st hst => exact absurd (hcalls k) hst
  | case2 tot k frame status h st hst frame' rest ih =>
    intro status' is hcomes hframes
    obtain ⟨i, is, rfl, hframe, hrest⟩ := List.map_eq_cons_iff.1 hframes
    have hi : i.status = .success := hcomes i List.mem_cons_self
    have hfront : i.frame.front (frameBytes (tx.length - tot)) =
        (tx.drop tot).take (frameBytes (tx.length - tot)) := by
      have hpayload : frame'.payload = _ := nextFrame_payload
      have hdlc : frame'.canDlc.toNat = _ := nextFrame_dlc
      rwa [CanFrame.payload, hdlc, ← hframe] at hpayload
    rw [readFrames_next h hi, ih _ _ (fun i hi => hcomes i (List.mem_cons_of_mem _ hi)) hrest,
      hfront, ite_self, if_pos h, ← List.drop_drop, List.take_append_drop]
  | case3 tot k frame status h =>
    intro status' is _ _
    rw [readFrames_done (Nat.le_of_not_lt h), if_neg h, List.drop_eq_nil_of_le (Nat.le_of_not_lt h)]

/-- What is written can be read, if there is something. -/
theorem reads_written_iff (hcalls : Writes calls) :
    (∀ is, Comes is → is.map Incoming.frame = (linuxSerialWriteCan addr tx calls frame).1 →
      linuxSerialReadCan addr [] calls frame tx.length is = (some .success, tx)) ↔ tx ≠ [] := by
  constructor
  · rintro h rfl
    have hnothing := h [] (fun i hi => by simp at hi) (by simp [linuxSerialWriteCan, writeFrames])
    simp [linuxSerialReadCan, readFrames] at hnothing
  · intro hne is hcomes hframes
    have hread := readFrames_written hcalls none is hcomes hframes
    rw [if_pos (List.length_pos_iff.2 hne), List.drop_zero] at hread
    rw [linuxSerialReadCan, if_neg (not_not.2 rfl), hread]

/-- The read is that of the frames, whatever was to be written. -/
theorem linuxSerialReadCan_frames {size : Nat} {is : List Incoming}
    (h : (linuxSerialReadCan addr tx calls frame size is).1 = some .success) :
    ∃ status, linuxSerialReadCan addr tx calls frame size is = readFrames size 0 status is := by
  rw [linuxSerialReadCan] at h ⊢
  by_cases htx : tx = []
  · exact ⟨none, if_neg (not_not.2 htx)⟩
  · rw [if_pos htx] at h ⊢
    by_cases hwritten : (linuxSerialWriteCan addr tx calls frame).2 = some .success
    · exact ⟨_, if_neg (not_not.2 hwritten)⟩
    · exact absurd ((congrArg Prod.fst (if_pos hwritten)).symm.trans h) hwritten

end RoundTrip

/-- The reader delivers only bytes that the frames carry exactly if each frame declares as many as
the reader takes, or there are too few frames. -/
theorem read_prefix_iff (size : Nat) (dlcs : List UInt8) :
    (∀ addr tx calls frame is, (is.map fun i => i.frame.canDlc) = dlcs →
      (linuxSerialReadCan addr tx calls frame size is).1 = some .success →
      (linuxSerialReadCan addr tx calls frame size is).2 <+: is.flatMap fun i => i.frame.payload) ↔
    (size ≤ canMaxDlen * dlcs.length → Covers size dlcs) := by
  constructor
  · intro h hlength
    rcases Nat.eq_zero_or_pos size with rfl | hpos
    · exact covers_zero dlcs
    · have hmap : ((dlcs.map staleTurn).map fun i => i.frame.canDlc) = dlcs := by
        rw [List.map_map]
        exact List.map_id dlcs
      have hread : ∀ frame, linuxSerialReadCan 0 [] (fun _ => ⟨0, false⟩) frame size
          (dlcs.map staleTurn) = readFrames size 0 none (dlcs.map staleTurn) :=
        fun frame => if_neg (not_not.2 rfl)
      have hbegins := h 0 [] (fun _ => ⟨0, false⟩) (staleTurn 0).frame _ hmap
      rw [hread] at hbegins
      have hzeros := (hbegins (readFrames_stale dlcs hlength hpos)).subset
      refine @covers_of_zeros _ none dlcs fun b hb => ?_
      have hb := hzeros hb
      obtain ⟨i, hi, hb⟩ := List.mem_flatMap.1 hb
      obtain ⟨dlc, -, rfl⟩ := List.mem_map.1 hi
      exact staleTurn_payload dlc b hb
  · rintro h addr tx calls frame is rfl hread
    obtain ⟨status, heq⟩ := linuxSerialReadCan_frames hread
    rw [heq] at hread ⊢
    rcases Nat.eq_zero_or_pos size with rfl | hpos
    · exact prefix_of_covers (covers_zero _) hread
    · exact prefix_of_covers (h (by simpa using le_of_readFrames hpos hread)) hread

/-- **CAN transfers.**  What is written comes back when it is read, unless it is empty: then the
reader returns a status that it has not set.  And for each size and each sequence of lengths the
reader delivers only bytes that the frames carry exactly if each declares as many bytes as the
reader takes from it, or there are too few frames. -/
theorem can_transfers (addr : UInt32) (tx : List UInt8) (calls : Nat → Call) (frame : CanFrame) :
    (Writes calls →
      (∀ f ∈ (linuxSerialWriteCan addr tx calls frame).1, f.canDlc.toNat ≤ canMaxDlen) ∧
      (linuxSerialWriteCan addr tx calls frame).1.flatMap CanFrame.payload = tx ∧
      ((∀ is, Comes is → is.map Incoming.frame = (linuxSerialWriteCan addr tx calls frame).1 →
        linuxSerialReadCan addr [] calls frame tx.length is = (some .success, tx)) ↔ tx ≠ [])) ∧
    ∀ (size : Nat) (dlcs : List UInt8),
      (∀ addr tx calls frame is, (is.map fun i => i.frame.canDlc) = dlcs →
        (linuxSerialReadCan addr tx calls frame size is).1 = some .success →
        (linuxSerialReadCan addr tx calls frame size is).2 <+:
          is.flatMap fun i => i.frame.payload) ↔
      (size ≤ canMaxDlen * dlcs.length → Covers size dlcs) := by
  refine ⟨fun hcalls => ?_, read_prefix_iff⟩
  obtain ⟨hdlc, hall⟩ : _ ∧ (linuxSerialWriteCan addr tx calls frame).1.flatMap CanFrame.payload =
    tx.drop 0 := writeFrames_carry hcalls
  exact ⟨hdlc, hall, reads_written_iff hcalls⟩

theorem can_transfers_nineBytes :
    (linuxSerialWriteCan 5 [1, 2, 3, 4, 5, 6, 7, 8, 9] (fun _ => ⟨canFrameSize, true⟩)
      (staleTurn 0).frame).1.flatMap CanFrame.payload = [1, 2, 3, 4, 5, 6, 7, 8, 9] :=
  ((can_transfers 5 _ _ _).1 fun _ => rfl).2.1

/-- A frame of two bytes fills four, and a read of nothing returns what it has not set. -/
theorem short_frame_padded :
    linuxSerialReadCan 0 [] (fun _ => ⟨canFrameSize, true⟩) (staleTurn 2).frame 4 [staleTurn 2] =
      (some .success, [0, 0, 1, 1]) ∧
    [staleTurn 2].flatMap (fun i => i.frame.payload) = [0, 0] ∧
    (linuxSerialReadCan 0 [] (fun _ => ⟨canFrameSize, true⟩) (staleTurn 2).frame 0 []).1 = none := by
  decide

end Serial
end FlightApps
