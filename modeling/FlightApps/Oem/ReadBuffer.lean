import FlightApps.Lib.Buffer
import FlightApps.Lib.Machine
import Mathlib.Algebra.Ring.Nat

/-!
# The receive buffer of the receiver driver

The I/O layer reads from the port into a buffer of its own, where the task looks at the bytes and
takes them off.  The bytes lie between `tail` and `head`.  They are moved to the front of the buffer
when more is read, and `head` and `tail` go back to the front when all is taken.

`fifo` is the queue that this is meant to be, and `exec_fifo` the refinement: no access leaves the
buffer, and the answers are those of the queue.  A null pointer for the data and an interface that
is not set up are left out.
-/

set_option autoImplicit false

namespace FlightApps
namespace Oem

/-! ## The buffer -/

/-- `oem_readbuf_t`. -/
structure ReadBuf where
  buffer : List UInt8
  head : Nat
  tail : Nat
  count : Nat
  capacity : Nat

/-- `init_rbuf`, with what `malloc` finds in memory. -/
def initRbuf (memory : List UInt8) : ReadBuf := ⟨memory, 0, 0, 0, memory.length⟩

/-- `oem_io_read_t`: an error code, or bytes that fit the space that is offered. -/
structure ReadCallback where
  read : Nat → Except Int (List UInt8)
  fits : ∀ {space xs}, read space = .ok xs → xs.length ≤ space

/-- A call on the buffer. -/
inductive IoCall
  | peek
  | consume (size : Nat)
  | fill (ifc : ReadCallback)

/-- What a call answers. -/
inductive IoAnswer
  /-- The bytes at the pointer, as many as the size says. -/
  | peeked (bytes : List UInt8)
  /-- `OEM_OK`, with so many bytes taken. -/
  | consumed (size : Nat)
  /-- `OEM_OK`, with these bytes from the callback. -/
  | filled (bytes : List UInt8)
  /-- `OEM_ERR_RANGE`. -/
  | range
  /-- `OEM_ERR_FULL`. -/
  | full
  /-- The error of the callback. -/
  | failed (code : Int)

namespace ReadBuf

/-- `oem_io_available`. -/
def available (r : ReadBuf) : Nat := r.count

/-- `oem_io_peek`; no value if the bytes are not all in the buffer. -/
def peek (r : ReadBuf) : Option (List UInt8) := Buffer.load r.buffer r.tail r.count

/-- `oem_io_consume`. -/
def consume (r : ReadBuf) (size : Nat) : ReadBuf × IoAnswer :=
  if r.count < size then (r, .range)
  else if r.count - size = 0 then
    ({ r with count := r.count - size, head := 0, tail := 0 }, .consumed size)
  else ({ r with count := r.count - size, tail := r.tail + size }, .consumed size)

/-- The bytes that are left are moved to the front. -/
def compact (r : ReadBuf) : Option ReadBuf :=
  if 0 < r.tail then
    (Buffer.load r.buffer r.tail r.count).bind fun left =>
      (Buffer.store r.buffer 0 left).map fun buffer =>
        { r with buffer := buffer, head := r.count, tail := 0 }
  else some r

/-- `oem_io_fill`; no value if something is written outside the buffer. -/
def fill (r : ReadBuf) (ifc : ReadCallback) : Option (ReadBuf × IoAnswer) :=
  if r.count = r.capacity then some (r, .full)
  else
    r.compact.bind fun r =>
      match ifc.read (r.capacity - r.head) with
      | .error code => some (r, .failed code)
      | .ok xs =>
        (Buffer.store r.buffer r.head xs).map fun buffer =>
          ({ r with
            buffer := buffer
            count := r.count + xs.length
            head := r.head + xs.length }, .filled xs)

/-- A call. -/
def exec (r : ReadBuf) : IoCall → Option (ReadBuf × IoAnswer)
  | .peek => r.peek.map fun bytes => (r, .peeked bytes)
  | .consume size => some (r.consume size)
  | .fill ifc => r.fill ifc

/-- A sequence of calls. -/
def run (r : ReadBuf) : List IoCall → Option (ReadBuf × List IoAnswer)
  | [] => some (r, [])
  | c :: cs =>
    (r.exec c).bind fun p => (p.1.run cs).map fun q => (q.1, p.2 :: q.2)

end ReadBuf

/-! ## The queue -/

/-- **The queue**: what was read and not taken yet. -/
def fifo (capacity : Nat) : Machine (List UInt8) IoCall (List IoAnswer) where
  step pending
    | .peek => (pending, [.peeked pending])
    | .consume size =>
      if pending.length < size then (pending, [.range]) else (pending.drop size, [.consumed size])
    | .fill ifc =>
      if pending.length = capacity then (pending, [.full])
      else
        match ifc.read (capacity - pending.length) with
        | .error code => (pending, [.failed code])
        | .ok xs => (pending ++ xs, [.filled xs])

/-- The bytes of an answer that were read. -/
def IoAnswer.bytes : IoAnswer → List UInt8
  | .filled bytes => bytes
  | _ => []

/-- The number of bytes that an answer says are taken. -/
def IoAnswer.taken : IoAnswer → Nat
  | .consumed size => size
  | _ => 0

/-- The bytes that were read. -/
def bytesRead (answers : List IoAnswer) : List UInt8 := answers.flatMap IoAnswer.bytes

/-- The number of bytes that were taken. -/
def bytesTaken (answers : List IoAnswer) : Nat := (answers.map IoAnswer.taken).sum

/-- What a peek shows after some answers: what was read, without what was taken. -/
def Shows (answers : List IoAnswer) (a : IoAnswer) : Prop :=
  ∀ bytes, a = .peeked bytes → bytes = (bytesRead answers).drop (bytesTaken answers)

section Queue

variable {capacity : Nat} {pending : List UInt8} {answers : List IoAnswer}

@[simp] theorem bytesRead_snoc (a : IoAnswer) :
    bytesRead (answers ++ [a]) = bytesRead answers ++ a.bytes := by
  simp [bytesRead]

@[simp] theorem bytesTaken_snoc (a : IoAnswer) :
    bytesTaken (answers ++ [a]) = bytesTaken answers + a.taken := by
  simp [bytesTaken]

/-- The queue holds what was read and not taken, and has shown the same. -/
structure Lossless (pending : List UInt8) (answers : List IoAnswer) : Prop where
  pending_eq : pending = (bytesRead answers).drop (bytesTaken answers)
  taken : bytesTaken answers ≤ (bytesRead answers).length
  shown : Each Shows answers

/-- An answer that neither reads nor takes nor shows. -/
theorem Lossless.idle (h : Lossless pending answers) {a : IoAnswer} (hbytes : a.bytes = [])
    (htaken : a.taken = 0) (hshows : Shows answers a) : Lossless pending (answers ++ [a]) where
  pending_eq := by
    rw [bytesRead_snoc, bytesTaken_snoc, hbytes, htaken, List.append_nil]
    exact h.pending_eq
  taken := by
    rw [bytesRead_snoc, bytesTaken_snoc, hbytes, htaken, List.append_nil]
    exact h.taken
  shown := h.shown.snoc hshows

theorem Lossless.consume (h : Lossless pending answers) {size : Nat}
    (hsize : size ≤ pending.length) :
    Lossless (pending.drop size) (answers ++ [.consumed size]) where
  pending_eq := by
    rw [bytesRead_snoc, bytesTaken_snoc, h.pending_eq, List.drop_drop]
    simp [IoAnswer.bytes, IoAnswer.taken]
  taken := by
    rw [h.pending_eq, List.length_drop] at hsize
    have := h.taken
    simp only [bytesRead_snoc, bytesTaken_snoc, IoAnswer.bytes, IoAnswer.taken, List.append_nil]
    omega
  shown := h.shown.snoc (by simp [Shows])

theorem Lossless.fill (h : Lossless pending answers) (xs : List UInt8) :
    Lossless (pending ++ xs) (answers ++ [.filled xs]) where
  pending_eq := by
    simp only [bytesRead_snoc, bytesTaken_snoc, IoAnswer.bytes, IoAnswer.taken, Nat.add_zero]
    rw [List.drop_append_of_le_length h.taken, ← h.pending_eq]
  taken := by
    have := h.taken
    simp only [bytesRead_snoc, bytesTaken_snoc, IoAnswer.bytes, IoAnswer.taken, Nat.add_zero,
      List.length_append]
    omega
  shown := h.shown.snoc (by simp [Shows])

theorem Lossless.step (h : Lossless pending answers) (c : IoCall) :
    Lossless ((fifo capacity).step pending c).1 (answers ++ ((fifo capacity).step pending c).2) := by
  rcases c with _ | size | ifc
  · exact h.idle rfl rfl fun bytes heq => by
      cases heq
      exact h.pending_eq
  · simp only [fifo]
    split
    · exact h.idle rfl rfl (by simp [Shows])
    · rename_i hsize
      exact h.consume (Nat.le_of_not_lt hsize)
  · simp only [fifo]
    split
    · exact h.idle rfl rfl (by simp [Shows])
    · split
      · exact h.idle rfl rfl (by simp [Shows])
      · exact h.fill _

/-- **Nothing is lost or reordered**: what is peeked is what was read, without what was taken. -/
theorem fifo_lossless (cs : List IoCall) :
    Lossless ((fifo capacity).run [] cs) ((fifo capacity).history [] cs) :=
  (fifo capacity).history_invariant (fun _ _ c h => h.step c) ⟨rfl, Nat.le_refl _, .nil _⟩ cs

end Queue

/-! ## The refinement -/

namespace ReadBuf

/-- The buffer holds the bytes of the queue. -/
structure Holds (capacity : Nat) (pending : List UInt8) (r : ReadBuf) : Prop where
  size : r.buffer.length = capacity
  capacity_eq : r.capacity = capacity
  count : r.count = pending.length
  head : r.head = r.tail + pending.length
  fits : r.tail + pending.length ≤ capacity
  bytes : (r.buffer.drop r.tail).take pending.length = pending

variable {capacity : Nat} {pending : List UInt8} {r : ReadBuf}

theorem holds_init (memory : List UInt8) : Holds memory.length [] (initRbuf memory) :=
  ⟨rfl, rfl, rfl, rfl, Nat.zero_le _, rfl⟩

theorem Holds.peek (h : Holds capacity pending r) : r.peek = some pending := by
  have hin : r.tail + r.count ≤ r.buffer.length := by
    rw [h.count, h.size]
    exact h.fits
  rw [ReadBuf.peek, Buffer.load_eq hin, h.count, h.bytes]

theorem Holds.consume (h : Holds capacity pending r) {size : Nat} (hsize : size ≤ pending.length) :
    ∃ r', r.consume size = (r', .consumed size) ∧ Holds capacity (pending.drop size) r' := by
  have hcount := h.count
  have hfits := h.fits
  have hlen : (pending.drop size).length = pending.length - size := List.length_drop
  rw [ReadBuf.consume, if_neg (by omega)]
  split
  · rename_i hnone
    have hnil : pending.drop size = [] := List.drop_eq_nil_of_le (by omega)
    rw [hnil]
    exact ⟨_, rfl, h.size, h.capacity_eq, hnone, rfl, Nat.zero_le _, rfl⟩
  · refine ⟨_, rfl, h.size, h.capacity_eq, ?_, ?_, ?_, ?_⟩
    · show r.count - size = _
      omega
    · show r.head = r.tail + size + _
      have := h.head
      omega
    · show r.tail + size + _ ≤ capacity
      omega
    · show (r.buffer.drop (r.tail + size)).take _ = _
      rw [hlen, ← List.drop_drop, ← List.drop_take, h.bytes]

theorem Holds.compact (h : Holds capacity pending r) :
    ∃ r', r.compact = some r' ∧ Holds capacity pending r' ∧ r'.tail = 0 := by
  have hfits := h.fits
  rw [ReadBuf.compact]
  split
  · have hstore : Buffer.store r.buffer 0 pending =
        some (pending ++ r.buffer.drop pending.length) :=
      Buffer.store_zero (by rw [h.size]; omega)
    have hload : Buffer.load r.buffer r.tail r.count = some pending := h.peek
    rw [hload, Option.bind_some, hstore, Option.map_some]
    refine ⟨_, rfl, ⟨?_, h.capacity_eq, h.count, ?_, ?_, ?_⟩, rfl⟩
    · show (pending ++ r.buffer.drop pending.length).length = capacity
      rw [List.length_append, List.length_drop, h.size]
      omega
    · exact h.count.trans (Nat.zero_add _).symm
    · show 0 + pending.length ≤ capacity
      omega
    · exact List.take_left' rfl
  · rename_i hfront
    exact ⟨r, rfl, h, Nat.eq_zero_of_not_pos hfront⟩

/-- What is read is written behind what is there, inside the buffer. -/
theorem Holds.append (h : Holds capacity pending r) (hfront : r.tail = 0) {xs : List UInt8}
    (hxs : xs.length ≤ capacity - pending.length) : ∃ buffer,
      Buffer.store r.buffer r.head xs = some buffer ∧ Holds capacity (pending ++ xs)
        { r with
          buffer := buffer
          count := r.count + xs.length
          head := r.head + xs.length } := by
  have hfits := h.fits
  have hhead := h.head
  have hsize := h.size
  have hbytes := h.bytes
  rw [hfront, Nat.zero_add] at hhead hfits
  rw [hfront, List.drop_zero] at hbytes
  have hbuf : r.buffer = pending ++ r.buffer.drop pending.length := by
    conv_lhs => rw [← List.take_append_drop pending.length r.buffer, hbytes]
  have hstore := @Buffer.store_front _ _ r.buffer _ xs hhead (by omega)
  rw [← hbuf] at hstore
  have hlen : (pending ++ xs).length = pending.length + xs.length := List.length_append
  refine ⟨_, hstore, ?_, h.capacity_eq, ?_, ?_, ?_, ?_⟩
  · show ((pending ++ xs) ++ r.buffer.drop (pending ++ xs).length).length = capacity
    rw [List.length_append, List.length_drop, hlen]
    omega
  · show r.count + xs.length = _
    rw [hlen, h.count]
  · show r.head + xs.length = r.tail + _
    omega
  · show r.tail + _ ≤ capacity
    omega
  · show (((pending ++ xs) ++ r.buffer.drop (pending ++ xs).length).drop r.tail).take _ = _
    rw [hfront, List.drop_zero, List.take_left' rfl]

/-- **One call refines the queue.** -/
theorem Holds.exec (h : Holds capacity pending r) (c : IoCall) : ∃ r' a,
    r.exec c = some (r', a) ∧ ((fifo capacity).step pending c).2 = [a] ∧
      Holds capacity ((fifo capacity).step pending c).1 r' := by
  rcases c with _ | size | ifc
  · exact ⟨r, .peeked pending, by rw [ReadBuf.exec, h.peek]; rfl, rfl, h⟩
  · simp only [ReadBuf.exec, fifo]
    split
    · rename_i hsize
      refine ⟨r, .range, ?_, rfl, h⟩
      rw [ReadBuf.consume, if_pos (by rw [h.count]; exact hsize)]
    · rename_i hsize
      obtain ⟨r', hconsume, hholds⟩ := h.consume (Nat.le_of_not_lt hsize)
      exact ⟨r', _, by rw [hconsume], rfl, hholds⟩
  · simp only [ReadBuf.exec, fifo, ReadBuf.fill, h.count, h.capacity_eq]
    split
    · exact ⟨r, .full, rfl, rfl, h⟩
    · obtain ⟨r', hcompact, h', hfront⟩ := h.compact
      have hspace : r'.capacity - r'.head = capacity - pending.length := by
        rw [h'.capacity_eq, h'.head, hfront, Nat.zero_add]
      rw [hcompact, Option.bind_some, hspace]
      split
      · exact ⟨r', _, rfl, rfl, h'⟩
      · rename_i xs hread
        obtain ⟨buffer, hstore, hholds⟩ := h'.append hfront (ifc.fits hread)
        rw [hstore]
        exact ⟨_, _, rfl, rfl, hholds⟩

/-- **The buffer refines the queue.** -/
theorem Holds.run (h : Holds capacity pending r) (cs : List IoCall) : ∃ r',
    r.run cs = some (r', (fifo capacity).history pending cs) ∧
      Holds capacity ((fifo capacity).run pending cs) r' := by
  induction cs generalizing r pending with
  | nil => exact ⟨r, rfl, h⟩
  | cons c cs ih =>
    obtain ⟨r', a, hexec, hanswer, hholds⟩ := h.exec c
    obtain ⟨r'', hrun, hend⟩ := ih hholds
    refine ⟨r'', ?_, hend⟩
    rw [ReadBuf.run, hexec, Option.bind_some, hrun, Machine.history_cons, hanswer]
    rfl

end ReadBuf

end Oem
end FlightApps
