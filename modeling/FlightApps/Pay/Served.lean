import FlightApps.Lib.Words
import FlightApps.Pay.Payload

/-!
# Reading a part of a payload

Where the payload tells the truth, reading a part yields that part (`gives`), or it fails because
something has failed.
-/

set_option autoImplicit false

namespace FlightApps
namespace Pay

open Script

namespace Payload

variable {p : Payload} {fail cut : Bool} {s : Scene}

/-- A payload that tells the truth leaves the file functions honest. -/
theorem Serves.honest {c : Call} {r : c.Reply} (h : p.Serves fail cut s c r) : s.Honest c r := by
  cases c with
  | write fd data =>
    rcases h with h | ⟨-, h | ⟨-, h⟩⟩
    · exact Int.le_trans (Int.le_of_eq h) (Int.ofNat_le.2 (Nat.min_le_left _ _))
    · exact Int.le_trans h (Int.natCast_nonneg _)
    · exact Int.le_of_lt h
  | stat path =>
    intro hstatus
    have hsize : if r.1 = success then r.2 = (s.disk.content path).length else fail = true := h
    rwa [if_pos hstatus] at hsize
  | _ => exact trivial

theorem world_next (c : Call) (r : c.Reply) : (p.world fail cut).next s c r = s.next c r := rfl

/-- What holds in every honest world, holds with this payload. -/
theorem wp_world {α : Type} {Q : α → Scene → Prop} {t : Task α} (h : wp honest Q t s) :
    wp (p.world fail cut) Q t s :=
  wp_allows h rfl fun _ _ _ hr => hr.honest

/-! ## Waiting for a part -/

theorem wp_waitReady_served (left : Nat)
    (hpolls : fail = true ∨ s.notes.polls + left = 500 ∧ s.notes.polls < 500) :
    wp (p.world fail cut) (fun ready _ => fail = true ∨ ready = some 1) (waitReady left) s := by
  have hnext : ∀ s : Scene, ∀ r : Status × UInt32, r.1 = success →
      (s.next (.fetch .ftPartReady) r).notes.polls = s.notes.polls + 1 := by
    intro s r hr
    show (if r.1 = success then s.notes.fetched r.2 .ftPartReady else s.notes).polls = _
    rw [if_pos hr]
    rfl
  induction left generalizing s with
  | zero =>
    rintro ⟨status, ready⟩ -
    rcases hpolls with hfail | ⟨heq, hlt⟩
    · exact Or.inl hfail
    · exact absurd heq (Nat.ne_of_lt hlt)
  | succ left ih =>
    rintro ⟨status, ready⟩ hserves
    rcases hserves with hfail | ⟨hstatus, hready⟩
    · dsimp only
      split
      · exact Or.inl hfail
      split
      · exact ih (Or.inl hfail)
      · exact Or.inl hfail
    dsimp only at hstatus hready ⊢
    rw [if_neg (not_not.2 hstatus)]
    rcases hready with rfl | ⟨rfl, hmore⟩
    · exact Or.inr rfl
    · rw [if_pos rfl]
      refine ih ?_
      rw [world_next, hnext s (status, 0) hstatus]
      rcases hpolls with hfail | ⟨heq, -⟩
      · exact Or.inl hfail
      · exact Or.inr ⟨by omega, hmore⟩

end Payload

/-! ## Reading bytes -/

theorem map_getD_range (bs : List UInt8) {n : Nat} (hn : n ≤ bs.length) :
    (List.range n).map (fun j => bs.getD j 0) = bs.take n := by
  refine List.ext_getElem ?_ fun j hj hj' => ?_
  · rw [List.length_map, List.length_range, List.length_take, Nat.min_eq_left hn]
  · rw [List.getElem_map, List.getElem_range, List.getElem_take, List.getD_eq_getElem]

theorem eq_take_of_getD {bs cs : List UInt8} {n : Nat} (hn : n ≤ cs.length) (hlen : bs.length = n)
    (h : ∀ j, j < n → bs.getD j 0 = cs.getD j 0) : bs = cs.take n := by
  refine List.ext_getElem ?_ fun j hj hj' => ?_
  · rw [hlen, List.length_take, Nat.min_eq_left hn]
  · have hget := h j (hlen ▸ hj)
    rw [List.getD_eq_getElem bs 0 hj, List.getD_eq_getElem cs 0 (by omega)] at hget
    rw [hget, List.getElem_take]

namespace Payload

variable {p : Payload} {fail cut : Bool} {s : Scene} {n : Nat}

theorem wp_readExpI2CChunk_served {i : UInt32} (hpart : s.notes.part = some i) (handle : Bool)
    (hhandle : handle = true ∨ fail = true) {size : Nat} (hsize : size ≠ 0) :
    wp (p.world fail cut) (fun r _ => (r.1 ≠ success → fail = true) ∧
      (r.1 = success → r.2.length = size ∧
        ∀ j, j + 1 < size → r.2.getD (j + 1) 0 = (p.part i.toNat).getD j 0))
      (readExpI2CChunk handle size) s := by
  rw [readExpI2CChunk]
  split
  · rename_i hnone
    refine ⟨fun _ => ?_, fun h => absurd h (by decide)⟩
    rcases hhandle with rfl | hfail
    · exact absurd (hnone.resolve_left Bool.noConfusion) hsize
    · exact hfail
  rintro ⟨status, addr⟩ hserves
  dsimp only
  split
  · rename_i hstatus
    exact ⟨fun _ => hserves hstatus, fun h => absurd h hstatus⟩
  rintro ⟨status', bytes⟩ hserves'
  have hread : if status' = success then
      ∀ k, (s.next .fetchI2cAddr (status, addr)).notes.part = some k →
        ∀ j, j + 1 < size → bytes (j + 1) = (p.part k.toNat).getD j 0
    else fail = true := hserves'
  refine ⟨fun h => ?_, fun h => ?_⟩
  · rwa [if_neg h] at hread
  · obtain rfl : status' = success := h
    rw [if_pos rfl] at hread ⊢
    refine ⟨?_, fun j hj => ?_⟩
    · rw [Notes.bytesOf, List.length_map, List.length_range]
    · rw [Notes.bytesOf, List.getD_eq_getElem _ _ (by
        rw [List.length_map, List.length_range]; exact hj), List.getElem_map, List.getElem_range]
      exact hread i hpart j hj

/-- What comes of reading a part. -/
def gives (p : Payload) (n : Nat) : Link → Part
  | .i2c => .got (p.chunk n) (calculateCRC32 (p.sized n)) (calculateCRC32 (p.chunk n))
  | .rs422 => .got (p.sized n) (calculateCRC32 (p.sized n)) (calculateCRC32 (p.sized n))

/-- The part is read, or something has failed. -/
def Yields (p : Payload) (fail : Bool) (n : Nat) (link : Link) (part : Part) : Prop :=
  fail = true ∧ part = .retry ∨ part = p.gives n link

theorem sized_length_le (hn : n < p.npart) : (p.sized n).length ≤ p.chunkSize.toNat :=
  Nat.le_trans (sized_prefix_part n).length_le (length_part_le hn)

theorem sized_length_pos (hn : n < p.npart) : 0 < (p.sized n).length :=
  Nat.lt_of_lt_of_le (length_chunk_pos hn) (chunk_prefix_sized n).length_le

theorem toNat_sized (hn : n < p.npart) :
    (UInt32.ofNat (p.sized n).length).toNat = (p.sized n).length :=
  UInt32.toNat_ofNat_of_lt' (Nat.lt_of_le_of_lt (sized_length_le hn) p.chunkSize.toNat_lt)

theorem toNat_part (hn : n < p.npart) : (UInt32.ofNat n).toNat = n :=
  UInt32.toNat_ofNat_of_lt' (Nat.lt_trans hn p.npart_lt)

theorem toNat_size : (UInt32.ofNat p.data.length).toNat = p.data.length :=
  UInt32.toNat_ofNat_of_lt' p.data_lt

/-- Where a part begins; the product does not wrap around. -/
theorem toNat_offset (hn : n < p.npart) :
    (UInt32.ofNat n * p.chunkSize).toNat = n * p.chunkSize.toNat := by
  rw [UInt32.toNat_mul, toNat_part hn]
  exact Nat.mod_eq_of_lt (Nat.lt_trans ((p.lt_npart_iff n).1 hn) p.data_lt)

/-- How much of the file is left at a part. -/
theorem toNat_rest (hn : n < p.npart) :
    (UInt32.ofNat p.data.length - UInt32.ofNat n * p.chunkSize).toNat =
      p.data.length - n * p.chunkSize.toNat := by
  have hle : UInt32.ofNat n * p.chunkSize ≤ UInt32.ofNat p.data.length := by
    rw [UInt32.le_iff_toNat_le, toNat_offset hn, toNat_size]
    exact Nat.le_of_lt ((p.lt_npart_iff n).1 hn)
  rw [UInt32.toNat_sub_of_le _ _ hle, toNat_offset hn, toNat_size]

/-- The valid data of a part, as it is computed on I2C. -/
theorem toNat_valid (hn : n < p.npart) :
    (if UInt32.ofNat (p.sized n).length < UInt32.ofNat p.data.length - UInt32.ofNat n * p.chunkSize
      then UInt32.ofNat (p.sized n).length
      else UInt32.ofNat p.data.length - UInt32.ofNat n * p.chunkSize).toNat =
      (p.chunk n).length := by
  have hmin : (p.chunk n).length = min (p.sized n).length (p.data.length - n * p.chunkSize.toNat) := by
    have hlen := length_chunk p n
    have hle := (chunk_prefix_sized (p := p) n).length_le
    have hle' := sized_length_le hn
    omega
  rw [hmin]
  split
  · rename_i hlt
    rw [UInt32.lt_iff_toNat_lt, toNat_sized hn, toNat_rest hn] at hlt
    rw [toNat_sized hn, Nat.min_eq_left (Nat.le_of_lt hlt)]
  · rename_i hge
    rw [UInt32.lt_iff_toNat_lt, toNat_sized hn, toNat_rest hn] at hge
    rw [toNat_rest hn, Nat.min_eq_right (Nat.le_of_not_lt hge)]

theorem take_sized_length (n : Nat) : (p.part n).take (p.sized n).length = p.sized n :=
  (List.prefix_iff_eq_take.1 (sized_prefix_part n)).symm

theorem take_chunk_length (n : Nat) : (p.sized n).take (p.chunk n).length = p.chunk n :=
  (List.prefix_iff_eq_take.1 (chunk_prefix_sized n)).symm

theorem wp_readPartI2C_served (hn : n < p.npart) (hpart : s.notes.part = some (UInt32.ofNat n))
    (hsize : p.chunkSize.toNat < 1024) (handle : Bool) (hhandle : handle = true ∨ fail = true)
    (npart : UInt32) :
    wp (p.world fail cut) (fun part _ => p.Yields fail n .i2c part)
      (readPartI2C handle p.chunkSize (UInt32.ofNat p.data.length) (UInt32.ofNat n) npart
        (UInt32.ofNat (p.sized n).length)) s := by
  have hle := sized_length_le hn
  have hpos := sized_length_pos hn
  rw [readPartI2C, if_neg, if_neg]
  · dsimp only
    generalize hvalid : (if UInt32.ofNat (p.sized n).length <
        UInt32.ofNat p.data.length - UInt32.ofNat n * p.chunkSize then UInt32.ofNat (p.sized n).length
      else UInt32.ofNat p.data.length - UInt32.ofNat n * p.chunkSize) = valid
    have htoNat : valid.toNat = (p.chunk n).length := hvalid ▸ toNat_valid hn
    rw [if_neg fun hzero => Nat.ne_of_gt (length_chunk_pos hn) (by rw [← htoNat, hzero]; rfl), wp_bind]
    have hsum : (UInt32.ofNat (p.sized n).length + 1).toNat = (p.sized n).length + 1 := by
      rw [UInt32.toNat_add, toNat_sized hn]
      exact Nat.mod_eq_of_lt (by rw [UInt32.toNat_one]; omega)
    rw [hsum]
    refine wp_mono (wp_readExpI2CChunk_served hpart handle hhandle (Nat.succ_ne_zero _)) ?_
    rintro ⟨status, bytes⟩ s' ⟨hfail, hread⟩
    dsimp only
    split
    · rename_i hstatus
      exact Or.inl ⟨hfail hstatus, rfl⟩
    rename_i hstatus
    obtain ⟨hlen, hbytes⟩ := hread (not_not.1 hstatus)
    obtain ⟨junk, chunk, rfl⟩ := List.exists_cons_of_length_eq_add_one hlen
    have hchunk : chunk = p.sized n := by
      rw [← take_sized_length n]
      refine eq_take_of_getD (sized_prefix_part n).length_le (Nat.succ.inj hlen) fun j hj => ?_
      rw [toNat_part hn] at hbytes
      exact hbytes j (Nat.succ_lt_succ hj)
    refine Or.inr ?_
    rw [List.drop_one, List.tail_cons, hchunk, toNat_sized hn, List.take_length, htoNat,
      take_chunk_length]
    split
    · rfl
    · rename_i hsame
      have hwhole : p.sized n = p.chunk n := by
        have hlens := congrArg UInt32.toNat (not_not.1 hsame)
        rw [htoNat, toNat_sized hn] at hlens
        rw [← take_chunk_length n, hlens, List.take_length]
      rw [gives, hwhole]
  · rw [UInt32.le_iff_toNat_le, toNat_offset hn, toNat_size]
    exact Nat.not_le.2 ((p.lt_npart_iff n).1 hn)
  · rintro (hzero | hlt | hge)
    · have := congrArg UInt32.toNat hzero
      rw [toNat_sized hn] at this
      exact Nat.ne_of_gt hpos this
    · rw [UInt32.lt_iff_toNat_lt, toNat_sized hn] at hlt
      exact Nat.not_lt.2 hle hlt
    · rw [UInt32.le_iff_toNat_le, toNat_sized hn] at hge
      have hbuf : chunkBufferSize.toNat = 1024 := rfl
      omega

/-! ## Reading a frame -/

/-- Where a read on RS422 goes on. -/
def heard (command : Bool) (offset : Nat) (received : List UInt8) : Nat :=
  if command = true ∧ offset = 0 then 0 else received.length

theorem wp_readExpRS422Bytes_served {i : UInt32} (hpart : s.notes.part = some i) (command : Bool)
    (offset len : Nat) :
    wp (p.world fail cut) (fun r _ => (r.1 ≠ success → fail = true) ∧
      (r.1 = success → ∀ j, j < len → heard command offset s.notes.received + j ≠ 2 →
        r.2.getD j 0 = (p.frame i.toNat).getD (heard command offset s.notes.received + j) 0))
      (readExpRS422Bytes command offset len) s := by
  induction len generalizing offset s with
  | zero => exact ⟨fun h => absurd rfl h, fun _ j hj => absurd hj (Nat.not_lt_zero j)⟩
  | succ len ih =>
    rintro ⟨status, b⟩ hserves
    have hread : if status = success then ∀ k, s.notes.part = some k → ∀ j,
        j = (if (command && decide (offset = 0)) = true then 0 else s.notes.received.length) →
        j ≠ 2 → b = (p.frame k.toNat).getD j 0
      else fail = true := hserves
    dsimp only
    split
    · rename_i hstatus
      rw [if_neg hstatus] at hread
      exact ⟨fun _ => hread, fun h => absurd h hstatus⟩
    rename_i hstatus
    obtain rfl : status = success := not_not.1 hstatus
    rw [if_pos rfl] at hread
    have hfirst : (if (command && decide (offset = 0)) = true then 0 else s.notes.received.length) =
        heard command offset s.notes.received := by
      simp only [heard, Bool.and_eq_true, decide_eq_true_eq]
    generalize hnext : s.next (.serialRead (command && offset = 0)) (success, b) = s₁
    have hpart' : s₁.notes.part = some i := by rw [← hnext]; exact hpart
    have hheard : heard command (offset + 1) s₁.notes.received =
        heard command offset s.notes.received + 1 := by
      rw [heard, if_neg fun h => Nat.succ_ne_zero offset h.2, ← hnext, ← hfirst]
      show (if (command && decide (offset = 0)) = true then [b]
        else s.notes.received ++ [b]).length = _
      split
      · rfl
      · rw [List.length_append]
        rfl
    rw [wp_bind, world_next, hnext]
    refine wp_mono (ih hpart' (offset + 1)) ?_
    rintro ⟨status', bytes⟩ s' ⟨hfail, hbytes⟩
    refine ⟨hfail, fun h j hj hcount => ?_⟩
    cases j with
    | zero => exact hread i hpart _ hfirst.symm hcount
    | succ j =>
      have hget := hbytes h j (Nat.lt_of_succ_lt_succ hj)
      rw [hheard, Nat.add_assoc, Nat.add_comm 1] at hget
      exact hget hcount

theorem length_frame (n : Nat) : (p.frame n).length = rs422OverheadSize + (p.part n).length := by
  rw [frame]
  simp only [List.length_cons, List.length_append, List.length_nil]
  show _ = 7 + 1 + _
  omega

theorem drop_frame (n : Nat) : (p.frame n).drop rs422HeaderSize = p.part n ++ [0x0D] := rfl

theorem end_frame (n : Nat) : (p.frame n).getD (rs422HeaderSize + (p.part n).length) 0 = 0x0D := by
  rw [List.getD_eq_getElem?_getD, ← List.getElem?_drop, drop_frame, ← List.getD_eq_getElem?_getD,
    List.getD_append_right _ _ _ _ (Nat.le_refl _), Nat.sub_self]
  rfl

theorem or_bytes (x : UInt16) : (x >>> 8).toUInt8.toUInt16 <<< 8 ||| x.toUInt8.toUInt16 = x := by
  rw [UInt16.or_comm, Words.u16_of_bytes]

theorem be16_frame_len (n : Nat) : be16 (p.frame n) 3 = UInt16.ofNat ((p.part n).length + 2) :=
  or_bytes _

theorem be16_frame_part (n : Nat) : be16 (p.frame n) 5 = UInt16.ofNat n := or_bytes _

theorem toNat_frame_len (hn : n < p.npart) (hsize : p.chunkSize.toNat ≤ 1016) :
    (be16 (p.frame n) 3).toNat = (p.part n).length + 2 := by
  have hle := length_part_le hn
  rw [be16_frame_len]
  exact UInt16.toNat_ofNat_of_lt' (by show _ < 65536; omega)

theorem toNat_received_len (hn : n < p.npart) (hsize : p.chunkSize.toNat ≤ 1016) :
    (be16 (p.frame n) 3 - 2).toNat = (p.part n).length := by
  have hlen := toNat_frame_len hn hsize
  rw [UInt16.toNat_sub_of_le _ _ (UInt16.le_iff_toNat_le.2 (by rw [hlen]; exact Nat.le_add_left 2 _)),
    hlen]
  rfl

/-- A frame but for its counter. -/
def Frames (p : Payload) (n : Nat) (bs : List UInt8) : Prop :=
  bs.length = (p.frame n).length ∧ ∀ j, j ≠ 2 → bs.getD j 0 = (p.frame n).getD j 0

theorem be16_eq {bs cs : List UInt8} {i : Nat} (h : bs.getD i 0 = cs.getD i 0)
    (h' : bs.getD (i + 1) 0 = cs.getD (i + 1) 0) : be16 bs i = be16 cs i := by
  rw [be16, be16, h, h']

theorem wp_readExpRS422Chunk_served (hn : n < p.npart)
    (hpart : s.notes.part = some (UInt32.ofNat n)) (hsize : p.chunkSize.toNat ≤ 1016)
    (handle : Bool) (hhandle : handle = true ∨ fail = true) :
    wp (p.world fail cut) (fun r _ => (r.1 ≠ success → fail = true) ∧
      (r.1 = success → p.Frames n r.2)) (readExpRS422Chunk handle chunkBufferSize.toNat) s := by
  have hle := length_part_le hn
  rw [readExpRS422Chunk]
  split
  · rename_i hnone
    refine ⟨fun _ => ?_, fun h => absurd h (by decide)⟩
    rcases hhandle with rfl | hfail
    · exact absurd (hnone.resolve_left Bool.noConfusion) (by decide)
    · exact hfail
  rw [wp_bind]
  refine wp_mono (wp_and (wp_readExpRS422Bytes_served hpart true 0 rs422HeaderSize)
    (wp_world (wp_readExpRS422Bytes true 0 rs422HeaderSize s))) ?_
  rintro ⟨status, header⟩ s' ⟨⟨hfail, hbytes⟩, hquiet, hread⟩
  dsimp only
  split
  · rename_i hstatus
    exact ⟨fun _ => hfail hstatus, fun h => absurd h hstatus⟩
  rename_i hstatus
  have hheader := hbytes (not_not.1 hstatus)
  obtain ⟨hlen, hreceived⟩ := hread (not_not.1 hstatus)
  rw [toNat_part hn, heard, if_pos ⟨rfl, rfl⟩] at hheader
  simp only [Nat.zero_add] at hheader
  rw [heardBefore, if_pos ⟨rfl, rfl, by decide⟩, List.nil_append] at hreceived
  have hframe : be16 header 3 = be16 (p.frame n) 3 :=
    be16_eq (hheader 3 (by decide) (by decide)) (hheader 4 (by decide) (by decide))
  have htotal := toNat_frame_len hn hsize
  rw [hframe, toNat_received_len hn hsize, if_neg, if_neg]
  · rw [wp_bind]
    have hpart' : s'.notes.part = some (UInt32.ofNat n) := hquiet.notes.part.trans hpart
    refine wp_mono (wp_and (wp_readExpRS422Bytes_served hpart' false 0 ((p.part n).length + 1))
      (wp_world (wp_readExpRS422Bytes false 0 ((p.part n).length + 1) s'))) ?_
    rintro ⟨status', rest⟩ s'' ⟨⟨hfail', hrest⟩, -, hread'⟩
    refine ⟨hfail', fun h => ⟨?_, fun j hj => ?_⟩⟩
    · rw [List.length_append, hlen, (hread' h).1, length_frame]
      show 7 + (_ + 1) = 7 + 1 + _
      omega
    · have hrest' := hrest h
      rw [toNat_part hn, heard, if_neg fun h => Bool.noConfusion h.1, hreceived, hlen] at hrest'
      show (header ++ rest).getD j 0 = _
      by_cases hlt : j < rs422HeaderSize
      · rw [List.getD_append _ _ _ _ (by rw [hlen]; exact hlt)]
        exact hheader j hlt hj
      · have hge : rs422HeaderSize ≤ j := Nat.le_of_not_lt hlt
        rw [List.getD_append_right _ _ _ _ (by rw [hlen]; exact hge), hlen]
        by_cases hin : j - rs422HeaderSize < (p.part n).length + 1
        · have hget := hrest' (j - rs422HeaderSize) hin (by rw [Nat.add_sub_of_le hge]; exact hj)
          rwa [Nat.add_sub_of_le hge] at hget
        · rw [List.getD_eq_default _ _ (by rw [(hread' h).1]; exact Nat.le_of_not_lt hin),
            List.getD_eq_default]
          rw [length_frame]
          have hover : rs422OverheadSize = rs422HeaderSize + 1 := rfl
          omega
  · have hbuf : chunkBufferSize.toNat = 1024 := rfl
    have hover : rs422OverheadSize = 8 := rfl
    omega
  · rw [UInt16.lt_iff_toNat_lt, htotal]
    exact Nat.not_lt.2 (Nat.le_add_left 2 _)

theorem toUInt16_part (n : Nat) : (UInt32.ofNat n).toUInt16 = UInt16.ofNat n := by
  refine UInt16.toNat_inj.1 ?_
  rw [UInt32.toNat_toUInt16, UInt32.toNat_ofNat', UInt16.toNat_ofNat']
  exact Nat.mod_mod_of_dvd n (by decide)

/-- The frame of a part is taken for it. -/
theorem parseRS422_frames (hn : n < p.npart) (hsize : p.chunkSize.toNat ≤ 1016) {frame : List UInt8}
    (h : p.Frames n frame) :
    parseRS422 (UInt32.ofNat n) (UInt32.ofNat p.npart) (UInt32.ofNat (p.sized n).length) frame =
      p.gives n .rs422 := by
  obtain ⟨hlength, hget⟩ := h
  have hlen : be16 frame 3 = be16 (p.frame n) 3 := be16_eq (hget 3 (by decide)) (hget 4 (by decide))
  have hpn : be16 frame 5 = UInt16.ofNat n :=
    (be16_eq (hget 5 (by decide)) (hget 6 (by decide))).trans (be16_frame_part n)
  have hdata := toNat_received_len hn hsize
  have hdata' : ((be16 (p.frame n) 3 - 2).toUInt32).toNat = (p.part n).length := by
    rw [UInt16.toNat_toUInt32, hdata]
  have hchunk : (frame.drop rs422HeaderSize).take (p.part n).length = p.part n := by
    have hsuffix : frame.drop rs422HeaderSize = p.part n ++ [0x0D] := by
      rw [← drop_frame n]
      refine (eq_take_of_getD (Nat.le_refl _) ?_ fun j hj => ?_).trans (List.take_length)
      · rw [List.length_drop, List.length_drop, hlength]
      · rw [List.getD_eq_getElem?_getD, List.getD_eq_getElem?_getD, List.getElem?_drop,
          List.getElem?_drop, ← List.getD_eq_getElem?_getD, ← List.getD_eq_getElem?_getD]
        refine hget _ ?_
        show 7 + j ≠ 2
        omega
    rw [hsuffix, List.take_left']
    rfl
  rw [parseRS422]
  dsimp only
  rw [hlen, hpn, hdata, hchunk, toNat_sized hn, take_sized_length, if_neg, if_neg, if_neg, if_neg,
    if_neg]
  · rfl
  · rw [toUInt16_part]
    exact not_not.2 rfl
  · rw [hget _ (by show 7 + _ ≠ 2; omega), end_frame]
    exact not_not.2 rfl
  · rintro ⟨hne, hlast⟩
    by_cases heq : n + 1 = p.npart
    · refine hlast ⟨?_, ?_⟩
      · rw [← heq, UInt32.ofNat_add]
        rfl
      · rw [UInt32.le_iff_toNat_le, hdata', toNat_sized hn]
        exact (sized_prefix_part n).length_le
    · refine hne (UInt32.toNat_inj.1 ?_)
      rw [hdata', toNat_sized hn, sized_eq_part heq]
  · rw [hget 0 (by decide), hget 1 (by decide)]
    exact fun h => h.elim (fun h => h rfl) fun h => h rfl
  · rw [UInt16.lt_iff_toNat_lt, toNat_frame_len hn hsize]
    exact Nat.not_lt.2 (Nat.le_add_left 2 _)

theorem wp_readPartRS422_served (hn : n < p.npart) (hpart : s.notes.part = some (UInt32.ofNat n))
    (hsize : p.chunkSize.toNat ≤ 1016) (handle : Bool) (hhandle : handle = true ∨ fail = true)
    (size : UInt32) :
    wp (p.world fail cut) (fun part _ => p.Yields fail n .rs422 part)
      (readPartRS422 handle p.chunkSize size (UInt32.ofNat n) (UInt32.ofNat p.npart)
        (UInt32.ofNat (p.sized n).length)) s := by
  have hle := sized_length_le hn
  rw [readPartRS422, if_neg]
  · rw [wp_bind]
    refine wp_mono (wp_readExpRS422Chunk_served hn hpart hsize handle hhandle) ?_
    rintro ⟨status, frame⟩ s' ⟨hfail, hframe⟩
    dsimp only
    split
    · rename_i hstatus
      exact Or.inl ⟨hfail hstatus, rfl⟩
    · rename_i hstatus
      exact Or.inr (parseRS422_frames hn hsize (hframe (not_not.1 hstatus)))
  · rintro (hzero | hlt | hge)
    · have := congrArg UInt32.toNat hzero
      rw [toNat_sized hn] at this
      exact Nat.ne_of_gt (sized_length_pos hn) this
    · rw [UInt32.lt_iff_toNat_lt, toNat_sized hn] at hlt
      exact Nat.not_lt.2 hle hlt
    · rw [UInt32.lt_iff_toNat_lt, toNat_sized hn] at hge
      have hbuf : (chunkBufferSize - 8).toNat = 1016 := rfl
      omega

/-- The chunk sizes that a link takes. -/
def Fits (p : Payload) : Link → Prop
  | .i2c => p.chunkSize.toNat < 1024
  | .rs422 => p.chunkSize.toNat ≤ 1016

/-- **A part of the payload is read as it is**, or something has failed. -/
theorem wp_readPart_served (hn : n < p.npart) (hpart : s.notes.part = some (UInt32.ofNat n))
    {link : Link} (hsize : p.Fits link) (handle : Bool) (hhandle : handle = true ∨ fail = true) :
    wp (p.world fail cut) (fun part _ => p.Yields fail n link part)
      (readPart link handle p.chunkSize (UInt32.ofNat p.data.length) (UInt32.ofNat n)
        (UInt32.ofNat p.npart) (UInt32.ofNat (p.sized n).length)) s := by
  cases link with
  | i2c => exact wp_readPartI2C_served hn hpart hsize handle hhandle (UInt32.ofNat p.npart)
  | rs422 =>
    exact wp_readPartRS422_served hn hpart hsize handle hhandle (UInt32.ofNat p.data.length)

end Payload

end Pay
end FlightApps
