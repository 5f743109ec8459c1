import Mathlib.Data.List.TakeDrop
import FlightApps.Msg.Header

/-!
# Packets of the ground station

`gs/ccsds.py` of CACTUS builds command packets and takes apart what comes in.  The flight software
reads the headers as they were meant, but its checksum goes over the whole packet, while that of the
ground station goes from the secondary header on.  So a packet is valid for the flight software
exactly if the primary header, which has no checksum of its own, does not count
(`packets_agree`).
-/

set_option autoImplicit false

namespace FlightApps
namespace Cactus

open Msg

abbrev Bytes := List UInt8

/-! ## Headers -/

/-- `PrimaryHeader`. -/
structure PrimaryHeader where
  mid : Nat
  isCommand : Bool
  hasSecondary : Bool
  apid : Nat
  seqFlags : Nat
  seqCount : Nat
  dataLength : Nat
deriving DecidableEq

/-- One field of `struct.unpack('>HHH', ..)`. -/
def unpackH (hi lo : UInt8) : Nat := hi.toNat <<< 8 + lo.toNat

/-- One field of `struct.pack('>HHH', ..)`; a number that does not fit is an error. -/
def packH (n : Nat) : Option Bytes :=
  if n < 65536 then some [UInt8.ofNat (n >>> 8), UInt8.ofNat n] else none

/-- `parse_primary_header`. -/
def parsePrimaryHeader : Bytes → Option PrimaryHeader
  | b₀ :: b₁ :: b₂ :: b₃ :: b₄ :: b₅ :: _ =>
    let streamId := unpackH b₀ b₁
    let seqWord := unpackH b₂ b₃
    some {
      mid := streamId
      isCommand := (streamId >>> 12) &&& 1 != 0
      hasSecondary := (streamId >>> 11) &&& 1 != 0
      apid := streamId &&& 0x7FF
      seqFlags := (seqWord >>> 14) &&& 0x3
      seqCount := seqWord &&& 0x3FFF
      dataLength := unpackH b₄ b₅ }
  | _ => none

/-- `get_packet_total_size`. -/
def getPacketTotalSize (data : Bytes) : Option Nat :=
  (parsePrimaryHeader data).map fun hdr => hdr.dataLength + 7

/-! ## Taking apart -/

theorem length_drop_total {data : Bytes} {total : Nat} (htotal : ¬total < 7)
    (hend : ¬data.length < total) : (data.drop total).length < data.length := by
  rw [List.length_drop]
  omega

/-- `split_ccsds_packets`, on what is left of the bytes. -/
def splitCcsdsPackets (data : Bytes) : List Bytes :=
  if data = [] then []
  else match getPacketTotalSize data with
    | none => [data]
    | some total =>
      if total < 7 then [data]
      else if data.length < total then [data]
      else data.take total :: splitCcsdsPackets (data.drop total)
termination_by data.length
decreasing_by exact length_drop_total ‹_› ‹_›

/-! ## Building -/

/-- `_compute_checksum`. -/
def computeChecksum (fc : Nat) (payload : Bytes) : Nat :=
  payload.foldl (fun cs b => cs ^^^ b.toNat) (0xFF ^^^ fc)

/-- `bytes([fc, checksum])`; a number that does not fit is an error. -/
def secondaryHeader (fc checksum : Nat) : Option Bytes :=
  if fc < 256 ∧ checksum < 256 then some [UInt8.ofNat fc, UInt8.ofNat checksum] else none

/-- `build_command_packet`. -/
def buildCommandPacket (mid fc : Nat) (payload : Bytes) (seqCount : Int) : Option Bytes := do
  -- `seq_count & 0x3FFF` of an integer of either sign
  let seqWord := 0xC000 ||| (seqCount % 0x4000).toNat
  let pktDataLen := 1 + payload.length
  let streamIdBytes ← packH mid
  let seqBytes ← packH seqWord
  let lenBytes ← packH pktDataLen
  let secondary ← secondaryHeader fc (computeChecksum fc payload)
  return streamIdBytes ++ seqBytes ++ lenBytes ++ secondary ++ payload

/-! ## Splitting -/

/-- **Nothing is lost.** -/
theorem flatten_split (data : Bytes) : (splitCcsdsPackets data).flatten = data := by
  fun_induction splitCcsdsPackets data with
  | case1 => rfl
  | case2 data hne hsize => simp
  | case3 data hne total hsize htotal => simp
  | case4 data hne total hsize htotal hend => simp
  | case5 data hne total hsize htotal hend ih =>
    rw [List.flatten_cons, ih, List.take_append_drop]

/-- A packet is as long as its header says. -/
def Framed (p : Bytes) : Prop := getPacketTotalSize p = some p.length

/-- Only the header matters. -/
theorem getPacketTotalSize_append {p : Bytes} {n : Nat} (h : getPacketTotalSize p = some n)
    (rest : Bytes) : getPacketTotalSize (p ++ rest) = some n := by
  obtain ⟨hdr, hparse, rfl⟩ := Option.map_eq_some_iff.1 h
  rcases p with _ | ⟨b₀, _ | ⟨b₁, _ | ⟨b₂, _ | ⟨b₃, _ | ⟨b₄, _ | ⟨b₅, p⟩⟩⟩⟩⟩⟩ <;>
    simp [parsePrimaryHeader] at hparse
  obtain rfl := hparse
  rfl

theorem seven_le {p : Bytes} {n : Nat} (h : getPacketTotalSize p = some n) : 7 ≤ n := by
  obtain ⟨hdr, -, rfl⟩ := Option.map_eq_some_iff.1 h
  exact Nat.le_add_left 7 _

theorem split_framed {p : Bytes} (h : Framed p) (rest : Bytes) :
    splitCcsdsPackets (p ++ rest) = p :: splitCcsdsPackets rest := by
  have hlong := seven_le h
  have hne : p ++ rest ≠ [] := by
    intro hnil
    rw [(List.append_eq_nil_iff.1 hnil).1] at hlong
    simp at hlong
  rw [splitCcsdsPackets, if_neg hne, getPacketTotalSize_append h rest]
  have hwhole : ¬(p ++ rest).length < p.length := by simp
  simp only [Nat.not_lt.2 hlong, hwhole, if_false, List.take_left, List.drop_left]

theorem split_prefix {rest whole : Bytes} (h : Framed whole) (hpre : rest <+: whole)
    (hproper : rest ≠ whole) : splitCcsdsPackets rest = if rest = [] then [] else [rest] := by
  rw [splitCcsdsPackets]
  split
  · rfl
  cases hsize : getPacketTotalSize rest with
  | none => rfl
  | some total =>
    obtain ⟨tail, rfl⟩ := hpre
    obtain rfl := Option.some.inj ((getPacketTotalSize_append hsize tail).symm.trans h)
    have htail : 0 < tail.length := List.length_pos_iff.2 fun hnil => hproper (by simp [hnil])
    simp [htail]

/-- **Packets are taken apart.** -/
theorem split_packets {packets : List Bytes} (h : ∀ p ∈ packets, Framed p) {rest whole : Bytes}
    (hwhole : Framed whole) (hpre : rest <+: whole) (hproper : rest ≠ whole) :
    splitCcsdsPackets (packets.flatten ++ rest) = packets ++ if rest = [] then [] else [rest] := by
  induction packets with
  | nil => exact split_prefix hwhole hpre hproper
  | cons p packets ih =>
    rw [List.flatten_cons, List.append_assoc, split_framed (h p List.mem_cons_self),
      ih fun q hq => h q (List.mem_cons_of_mem p hq), List.cons_append]

/-! ## Built packets -/

theorem toNat_hi {n : Nat} (h : n < 65536) : (UInt8.ofNat (n >>> 8)).toNat = n / 256 := by
  rw [UInt8.toNat_ofNat', Nat.shiftRight_eq_div_pow]
  omega

theorem unpackH_packH {n : Nat} (h : n < 65536) :
    unpackH (UInt8.ofNat (n >>> 8)) (UInt8.ofNat n) = n := by
  rw [unpackH, toNat_hi h, UInt8.toNat_ofNat', Nat.shiftLeft_eq]
  omega

/-- The word with the sequence count. -/
def seqWord (seqCount : Int) : Nat := 0xC000 ||| (seqCount % 0x4000).toNat

theorem seqWord_lt (seqCount : Int) : seqWord seqCount < 65536 := by
  refine Nat.or_lt_two_pow (n := 16) (by decide) ?_
  omega

theorem seqWord_count (seqCount : Int) :
    seqWord seqCount &&& 0x3FFF = (seqCount % 0x4000).toNat := by
  have hlt : (seqCount % 0x4000).toNat < 2 ^ 14 := by omega
  rw [seqWord, Nat.and_or_distrib_right, show 0x3FFF = 2 ^ 14 - 1 from rfl,
    Nat.and_two_pow_sub_one_eq_mod, Nat.and_two_pow_sub_one_eq_mod, Nat.mod_eq_of_lt hlt]
  simp

/-- The exclusive or of the bytes of a number. -/
def parity (n : Nat) : UInt8 := UInt8.ofNat (n >>> 8) ^^^ UInt8.ofNat n

/-- The exclusive or of the primary header. -/
def headerParity (mid : Nat) (seqCount : Int) (size : Nat) : UInt8 :=
  parity mid ^^^ parity (seqWord seqCount) ^^^ parity (1 + size)

/-- The exclusive or of all bytes. -/
def xorAll : Bytes → UInt8
  | [] => 0
  | b :: bytes => b ^^^ xorAll bytes

theorem foldl_xor (bytes : Bytes) (a : UInt8) : bytes.foldl (· ^^^ ·) a = a ^^^ xorAll bytes := by
  induction bytes generalizing a with
  | nil => simp [xorAll]
  | cons b bytes ih => rw [List.foldl_cons, ih, xorAll, UInt8.xor_assoc]

theorem computeChecksum_lt {fc : Nat} (h : fc < 256) (payload : Bytes) :
    computeChecksum fc payload < 256 := by
  have hfold : ∀ (bytes : Bytes) (a : Nat), a < 256 →
      bytes.foldl (fun cs b => cs ^^^ b.toNat) a < 256 := by
    intro bytes
    induction bytes with
    | nil => exact fun a ha => ha
    | cons b bytes ih => exact fun a ha => ih _ (Nat.xor_lt_two_pow (n := 8) ha b.toNat_lt)
  exact hfold payload _ (Nat.xor_lt_two_pow (n := 8) (by decide) h)

theorem ofNat_computeChecksum (fc : Nat) (payload : Bytes) :
    UInt8.ofNat (computeChecksum fc payload) = 0xFF ^^^ UInt8.ofNat fc ^^^ xorAll payload := by
  have hfold : ∀ (bytes : Bytes) (a : Nat),
      UInt8.ofNat (bytes.foldl (fun cs b => cs ^^^ b.toNat) a) =
        UInt8.ofNat a ^^^ xorAll bytes := by
    intro bytes
    induction bytes with
    | nil => intro a; simp [xorAll]
    | cons b bytes ih =>
      intro a
      rw [List.foldl_cons, ih, xorAll, UInt8.ofNat_xor, UInt8.xor_assoc, UInt8.ofNat_toNat]
  rw [computeChecksum, hfold, UInt8.ofNat_xor]
  rfl

/-- Memory that starts with a packet. -/
def Starts (m : Memory) (packet : Bytes) : Prop := ∀ i (h : i < packet.length), m i = packet[i]

theorem computeCheckSum_starts {m : Memory} {packet : Bytes} (h : Starts m packet)
    (hsize : getSize m = packet.length) : computeCheckSum m = 0xFF ^^^ xorAll packet := by
  have hread : (List.range packet.length).map m = packet :=
    List.ext_getElem (by simp) fun i _ hi => by simp [h i hi]
  rw [computeCheckSum, hsize, ← foldl_xor]
  conv_rhs => rw [← hread]
  rw [List.foldl_map]

/-- What the ground station may be asked to build. -/
structure Buildable (mid fc : Nat) (payload : Bytes) : Prop where
  mid_lt : mid < 65536
  bits : mid &&& 0x1800 = 0x1800
  fc_lt : fc < 128
  length_le : payload.length ≤ 65534

/-- The packet. -/
def packet (mid fc : Nat) (payload : Bytes) (seqCount : Int) : Bytes :=
  UInt8.ofNat (mid >>> 8) :: UInt8.ofNat mid :: UInt8.ofNat (seqWord seqCount >>> 8) ::
    UInt8.ofNat (seqWord seqCount) :: UInt8.ofNat ((1 + payload.length) >>> 8) ::
    UInt8.ofNat (1 + payload.length) :: UInt8.ofNat fc ::
    UInt8.ofNat (computeChecksum fc payload) :: payload

/-- The secondary header cancels the payload. -/
theorem xorAll_packet (mid fc : Nat) (payload : Bytes) (seqCount : Int) :
    0xFF ^^^ xorAll (packet mid fc payload seqCount) =
      headerParity mid seqCount payload.length := by
  have hcancel : UInt8.ofNat fc ^^^
      (0xFF ^^^ UInt8.ofNat fc ^^^ xorAll payload ^^^ xorAll payload) = 0xFF := by
    rw [UInt8.xor_assoc _ (xorAll payload), UInt8.xor_self, UInt8.xor_zero, UInt8.xor_comm 0xFF,
      ← UInt8.xor_assoc, UInt8.xor_self, UInt8.zero_xor]
  simp only [packet, xorAll, ofNat_computeChecksum, hcancel, headerParity, parity]
  calc
    _ = (0xFF : UInt8) ^^^ (0xFF : UInt8) ^^^
        (UInt8.ofNat (mid >>> 8) ^^^ UInt8.ofNat mid ^^^
          (UInt8.ofNat (seqWord seqCount >>> 8) ^^^ UInt8.ofNat (seqWord seqCount)) ^^^
          (UInt8.ofNat ((1 + payload.length) >>> 8) ^^^ UInt8.ofNat (1 + payload.length))) := by
      ac_rfl
    _ = _ := by rw [UInt8.xor_self, UInt8.zero_xor]

section Built

variable {mid fc : Nat} {payload : Bytes} (h : Buildable mid fc payload) (seqCount : Int)

include h

theorem buildCommandPacket_eq :
    buildCommandPacket mid fc payload seqCount = some (packet mid fc payload seqCount) := by
  have hlen : 1 + payload.length < 65536 := by
    have := h.length_le
    omega
  have hfc : fc < 256 := Nat.lt_trans h.fc_lt (by decide)
  have hseq : 0xC000 ||| (seqCount % 0x4000).toNat < 65536 := seqWord_lt seqCount
  simp [buildCommandPacket, packH, secondaryHeader, h.mid_lt, hseq, hlen, hfc,
    computeChecksum_lt hfc, packet, seqWord]

/-- The header is read as it was meant. -/
theorem packet_header : ∃ hdr, parsePrimaryHeader (packet mid fc payload seqCount) = some hdr ∧
    hdr.mid = mid ∧ hdr.seqCount = (seqCount % 0x4000).toNat ∧
      hdr.dataLength = 1 + payload.length := by
  have hlen : 1 + payload.length < 65536 := by
    have := h.length_le
    omega
  refine ⟨_, rfl, unpackH_packH h.mid_lt, ?_, unpackH_packH hlen⟩
  dsimp only
  rw [unpackH_packH (seqWord_lt seqCount), seqWord_count]

theorem packet_framed : Framed (packet mid fc payload seqCount) := by
  obtain ⟨hdr, hparse, -, -, hlength⟩ := packet_header h seqCount
  rw [Framed, getPacketTotalSize, hparse, Option.map_some, hlength]
  simp [packet]
  omega

/-- A bit of the identifier is one of the first byte. -/
theorem midBit {k : Nat} (hk : (0x1800 : Nat).testBit (8 + k) = true) (mask : UInt8)
    (hmask : mask.toNat.testBit k = true) : (UInt8.ofNat (mid >>> 8) &&& mask != 0) = true := by
  have hbit : mid.testBit (8 + k) = true := by
    have hand := congrArg (Nat.testBit · (8 + k)) h.bits
    simp only [Nat.testBit_and, hk, Bool.and_true] at hand
    exact hand
  rw [bne_iff_ne]
  intro hzero
  have hnat := congrArg (fun x : UInt8 => x.toNat.testBit k) hzero
  simp only [UInt8.toNat_and, Nat.testBit_and, hmask, Bool.and_true] at hnat
  rw [toNat_hi h.mid_lt, ← show mid >>> 8 = mid / 256 from Nat.shiftRight_eq_div_pow mid 8,
    Nat.testBit_shiftRight, hbit] at hnat
  simp at hnat

/-- The message has a command header. -/
theorem packet_isCommand {m : Memory} (hm : Starts m (packet mid fc payload seqCount)) :
    (isCommand m && hasSecondaryHeader m) = true := by
  have hfirst : m 0 = UInt8.ofNat (mid >>> 8) := hm 0 (by simp [packet])
  rw [isCommand, hasSecondaryHeader, hfirst, midBit h (k := 4) (by decide) _ (by decide),
    midBit h (k := 3) (by decide) _ (by decide), Bool.and_true]

theorem packet_size {m : Memory} (hm : Starts m (packet mid fc payload seqCount)) :
    getSize m = (packet mid fc payload seqCount).length := by
  have hlen : 1 + payload.length < 65536 := by
    have := h.length_le
    omega
  have h₄ : m 4 = UInt8.ofNat ((1 + payload.length) >>> 8) := hm 4 (by simp [packet])
  have h₅ : m 5 = UInt8.ofNat (1 + payload.length) := hm 5 (by simp [packet])
  have hfield := unpackH_packH hlen
  rw [unpackH] at hfield
  rw [getSize, h₄, h₅, hfield]
  simp [packet]
  omega

/-- **The packet is valid** exactly if the primary header does not count. -/
theorem packet_valid_iff {m : Memory} (hm : Starts m (packet mid fc payload seqCount)) :
    validateChecksum m = some true ↔ headerParity mid seqCount payload.length = 0 := by
  rw [validateChecksum, packet_isCommand h seqCount hm, if_pos rfl,
    computeCheckSum_starts hm (packet_size h seqCount hm), xorAll_packet]
  simp

end Built

/-- A packet that the ground station has built. -/
def Built (p : Bytes) : Prop :=
  ∃ mid fc payload seqCount, Buildable mid fc payload ∧
    buildCommandPacket mid fc payload seqCount = some p

theorem Built.framed {p : Bytes} (h : Built p) : Framed p := by
  obtain ⟨mid, fc, payload, seqCount, hb, hp⟩ := h
  rw [buildCommandPacket_eq hb, Option.some.injEq] at hp
  rw [← hp]
  exact packet_framed hb seqCount

/-- **Ground and flight.**  A packet that is built is read as it was meant, and it is valid for the
flight software exactly if the exclusive or of its primary header is zero.  Taking apart loses
nothing, and gives the packets that were put together, with what has come of the next one. -/
theorem packets_agree (mid fc : Nat) (payload : Bytes) (seqCount : Int) :
    (Buildable mid fc payload → ∃ p, buildCommandPacket mid fc payload seqCount = some p ∧
      (∃ hdr, parsePrimaryHeader p = some hdr ∧ hdr.mid = mid ∧
        hdr.seqCount = (seqCount % 0x4000).toNat ∧ hdr.dataLength + 7 = p.length) ∧
      ∀ m, Starts m p → getSize m = p.length ∧
        (validateChecksum m = some true ↔ headerParity mid seqCount payload.length = 0)) ∧
    (∀ data, (splitCcsdsPackets data).flatten = data) ∧
    ∀ packets : List Bytes, (∀ p ∈ packets, Built p) → ∀ whole rest, Built whole → rest <+: whole →
      rest ≠ whole →
      splitCcsdsPackets (packets.flatten ++ rest) =
        packets ++ if rest = [] then [] else [rest] := by
  refine ⟨fun h => ?_, flatten_split, ?_⟩
  · refine ⟨_, buildCommandPacket_eq h seqCount, ?_, fun m hm => ?_⟩
    · obtain ⟨hdr, hparse, hmid, hcount, hlength⟩ := packet_header h seqCount
      refine ⟨hdr, hparse, hmid, hcount, ?_⟩
      simp [hlength, packet]
      omega
    · exact ⟨packet_size h seqCount hm, packet_valid_iff h seqCount hm⟩
  · intro packets hpackets whole rest hwhole hpre hproper
    exact split_packets (fun p hp => (hpackets p hp).framed) hwhole.framed hpre hproper

theorem packets_agree_zeros : ∃ p,
    buildCommandPacket 0x1818 0 (List.replicate 256 0) 0xC0 = some p ∧
      ∀ m, Starts m p → validateChecksum m = some true := by
  obtain ⟨p, hp, -, hvalid⟩ := (packets_agree 0x1818 0 (List.replicate 256 0) 0xC0).1
    ⟨by decide, by decide, by decide, by rw [List.length_replicate]; decide⟩
  refine ⟨p, hp, fun m hm => (hvalid m hm).2.2 ?_⟩
  rw [List.length_replicate]
  decide

/-- The no-op command of the executive services, with the first count, is not valid. -/
theorem noop_rejected : ∃ p, buildCommandPacket 0x1806 0 [] 0 = some p ∧
    ∀ m, Starts m p → validateChecksum m = some false := by
  refine ⟨_, buildCommandPacket_eq ⟨by decide, by decide, by decide, by decide⟩ 0, fun m hm => ?_⟩
  have h : Buildable 0x1806 0 [] := ⟨by decide, by decide, by decide, by decide⟩
  rw [validateChecksum, packet_isCommand h 0 hm, if_pos rfl,
    computeCheckSum_starts hm (packet_size h 0 hm), xorAll_packet]
  decide

end Cactus
end FlightApps
