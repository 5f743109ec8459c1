import FlightApps.Stx.WriteFile

/-!
# A file transfer

The requested packets are those numbered from the offset on, as many as the size says, that begin
inside the file.  `Faithful` says what a transfer owes them: each write carries the bytes that its
number stands for, the numbers come in order, no requested packet is left out unless five writes
fail, and the command ends with a report of success exactly when all of them were accepted.

The command owes more than it keeps.  Its count of failures never goes back, so a packet that is
accepted when it is written again leaves the transfer without a report of success; with a size, it
asks for whole packets, and does not get the last one of the file; and byte offsets are taken modulo
2^32.  `Meets` is what is left, and it is exact (`transfer_faithful_iff`).
-/

set_option autoImplicit false

namespace FlightApps
namespace Stx

open Esup (Ret retOk)

/-! ## What a transfer owes -/

section Terms

variable (bytes : List UInt8) (len : Nat) (c : WriteFileCmd)

/-- The packet with the number `k` is requested. -/
def Requested (k : Nat) : Prop :=
  c.offset.toNat ≤ k ∧ (c.size ≠ 0 → k < c.offset.toNat + c.size.toNat) ∧ k * writeDataMax < len

/-- The bytes that the number `k` stands for. -/
def slice (k : Nat) : List UInt8 := (bytes.drop (k * writeDataMax)).take writeDataMax

/-- The number of the packet of a call. -/
def WriteCall.number (w : WriteCall) : Nat := w.write.packetNumber.toNat

/-- A log keeps what a transfer owes. -/
structure Faithful (log : List Event) : Prop where
  carries : ∀ w ∈ writeCalls log, w.start = w.number * writeDataMax ∧
    w.write.data = slice bytes w.number ∧ w.request = some w.write.payload
  begins : ∀ w, (writeCalls log).head? = some w → w.number = c.offset.toNat
  ordered : ∀ (j : Nat) (w w' : WriteCall), (writeCalls log)[j]? = some w →
    (writeCalls log)[j + 1]? = some w' →
    w'.number = w.number + 1 ∨ w'.number = w.number ∧ w.ret ≠ retOk
  requested : ∀ w ∈ writeCalls log, Requested bytes.length c w.number
  submitted : (writeCalls log).countP (·.ret != retOk) < 5 → ∀ k, Requested bytes.length c k →
    ∃ w ∈ writeCalls log, w.number = k
  bounded : failures log ≤ 5
  truthful : Succeeds log ↔ ∀ k, Requested bytes.length c k →
    ∃ w ∈ writeCalls log, w.number = k ∧ w.ret = retOk

/-! ## When it is kept -/

/-- The `i`-th packet is read whole and where its number says: the byte offset of the first packet
and the numbers stay in 32 bits, and a size asks for what the file has. -/
def Sound (i : Nat) : Prop :=
  c.offset.toNat * writeDataMax < 4294967296 ∧ c.offset.toNat + i < 4294967296 ∧
    (c.size ≠ 0 →
      c.offset.toNat * writeDataMax + c.size.toNat * writeDataMax % 4294967296 = len ∨
      (i + 1) * writeDataMax ≤ c.size.toNat * writeDataMax % 4294967296 ∧
        (c.offset.toNat + i + 1) * writeDataMax ≤ len)

/-- The `i`-th packet is requested and sound. -/
def Good (i : Nat) : Prop := Requested len c (c.offset.toNat + i) ∧ Sound len c i

/-- The command asks for no more than the requested packets. -/
def Exact : Prop :=
  (c.size = 0 → c.offset.toNat * writeDataMax < len ∨
    c.offset.toNat * writeDataMax % 4294967296 = len) ∧
  (c.size ≠ 0 → ∀ i, ¬Requested len c (c.offset.toNat + i) →
    c.size.toNat * writeDataMax % 4294967296 ≤ i * writeDataMax)

variable (answer : Nat → Ret)

/-- The fifth failure comes while the packets are sound. -/
def FailsEarly : Prop :=
  ∃ n, fails answer n ∧ failed answer (n + 1) = 5 ∧
    ∀ i ≤ done answer n, Good len c i

/-- A requested packet is left behind. -/
def LeavesBehind : Prop :=
  ∃ n, fails answer n ∧ takes answer n ∧ Requested len c (c.offset.toNat + done answer n)

/-- Each requested packet is accepted when it is first written, and there are no others. -/
def Clean : Prop :=
  (∀ i, Requested len c (c.offset.toNat + i) → answer i = retOk) ∧ Exact len c

/-- The transfers that are kept. -/
def Meets : Prop :=
  FailsEarly len c answer ∨
    (∀ i, Requested len c (c.offset.toNat + i) → Sound len c i) ∧
      (LeavesBehind len c answer ∨ Clean len c answer)

end Terms

/-! ## Where a packet is read -/

section Places

variable {t : Target} {f : LocalFile t} {c : WriteFileCmd} {handle : UInt32} {i k : Nat}

theorem job_budget (t : Target) (f : LocalFile t) (c : WriteFileCmd) (handle : UInt32) :
    (job t f c handle).budget =
      if c.size = 0 then
        (f.bytes.length + t.sizes - c.offset.toNat * writeDataMax % 4294967296) % t.sizes
      else c.size.toNat * writeDataMax % 4294967296 := by
  have hfits := f.fits
  unfold job prepare writeDataMax
  by_cases hs : c.size = 0 <;> by_cases ho : c.offset = 0 <;> simp [hs, ho, UInt32.toNat_mul]
  rw [Nat.mod_eq_of_lt]
  cases t <;> simp [Target.sizes, Target.longs] at * <;> omega

theorem job_start (t : Target) (f : LocalFile t) (c : WriteFileCmd) (handle : UInt32) :
    (job t f c handle).start =
      if c.offset.toNat * writeDataMax % 4294967296 < t.longs then
        c.offset.toNat * writeDataMax % 4294967296
      else if c.size = 0 then f.bytes.length else 0 := by
  have hpos : 0 < t.longs := by cases t <;> simp [Target.longs]
  unfold job prepare seekSet writeDataMax
  by_cases hs : c.size = 0 <;> by_cases ho : c.offset = 0 <;> simp [hs, ho, UInt32.toNat_mul, hpos]

variable (t handle) in
theorem start_of_lt (hfrom : c.offset.toNat * writeDataMax < 4294967296)
    (hlen : c.offset.toNat * writeDataMax < f.bytes.length) :
    (job t f c handle).start = c.offset.toNat * writeDataMax := by
  have hfits := f.fits
  rw [job_start, Nat.mod_eq_of_lt hfrom, if_pos (hlen.trans hfits)]

variable (t handle) in
theorem budget_of_lt (hfrom : c.offset.toNat * writeDataMax < 4294967296)
    (hlen : c.offset.toNat * writeDataMax < f.bytes.length) :
    (job t f c handle).budget =
      if c.size = 0 then f.bytes.length - c.offset.toNat * writeDataMax
      else c.size.toNat * writeDataMax % 4294967296 := by
  have hfits := f.fits
  rw [job_budget, Nat.mod_eq_of_lt hfrom]
  split_ifs
  · cases t <;> simp only [Target.sizes, Target.longs] at * <;> omega
  · rfl

theorem number_packet (g : Job) (i : Nat) :
    (g.packet i).packetNumber.toNat = (g.first.toNat + i) % 4294967296 := by
  simp [Job.packet, UInt32.toNat_add]

theorem length_data {g : Job} (h : g.Whole i) : (g.packet i).data.length = g.want i := by
  have := h.2
  simp only [Job.packet, List.length_take, List.length_drop]
  omega

/-- The first of the requested packets begins inside the file. -/
theorem Requested.first (h : Requested f.bytes.length c k) :
    c.offset.toNat * writeDataMax < f.bytes.length := by
  have := Nat.mul_le_mul_right writeDataMax h.1
  exact this.trans_lt h.2.2

/-- Requested packets come before others. -/
theorem Requested.before (h : Requested f.bytes.length c (c.offset.toNat + k)) (hi : i ≤ k) :
    Requested f.bytes.length c (c.offset.toNat + i) := by
  obtain ⟨-, hsize, hlen⟩ := h
  refine ⟨by omega, fun hne => ?_, ?_⟩
  · have := hsize hne
    omega
  · have := Nat.mul_le_mul_right writeDataMax (Nat.add_le_add_left hi c.offset.toNat)
    omega

variable (t handle) in
/-- A sound packet is read, from its place, and all of it. -/
theorem sound_reads (hreq : Requested f.bytes.length c (c.offset.toNat + i))
    (h : Sound f.bytes.length c i) :
    (job t f c handle).Whole i ∧
      (job t f c handle).start + i * writeDataMax = (c.offset.toNat + i) * writeDataMax ∧
      (job t f c handle).want i =
        min writeDataMax (f.bytes.length - (c.offset.toNat + i) * writeDataMax) := by
  have hstart := start_of_lt t handle h.1 hreq.first
  have hbudget := budget_of_lt t handle h.1 hreq.first
  have hwant : (job t f c handle).want i =
      min writeDataMax (f.bytes.length - (c.offset.toNat + i) * writeDataMax) := by
    have hlen := hreq.2.2
    rw [Job.want, hbudget]
    by_cases hs : c.size = 0
    · rw [if_pos hs]
      unfold writeDataMax at *
      omega
    · rw [if_neg hs]
      have := h.2.2 hs
      unfold writeDataMax at *
      omega
  have hlen := hreq.2.2
  refine ⟨⟨?_, ?_⟩, ?_, hwant⟩
  · rw [hbudget]
    by_cases hs : c.size = 0
    · rw [if_pos hs]
      by_contra hge
      unfold writeDataMax at *
      omega
    · rw [if_neg hs]
      have := h.2.2 hs
      by_contra hge
      unfold writeDataMax at *
      omega
  · rw [hwant, hstart]
    change _ ≤ f.bytes.length
    unfold writeDataMax at *
    omega
  · rw [hstart, Nat.add_mul]

theorem slice_eq (bytes : List UInt8) (k : Nat) :
    slice bytes k = (bytes.drop (k * writeDataMax)).take
      (min writeDataMax (bytes.length - k * writeDataMax)) := by
  rw [slice, List.take_eq_take_min, List.length_drop]

/-- A packet that is read whole is requested, where the first is read from its place. -/
theorem requested_of_whole (hfrom : c.offset.toNat * writeDataMax < 4294967296)
    (hlen : c.offset.toNat * writeDataMax < f.bytes.length)
    (h : (job t f c handle).Whole i) : Requested f.bytes.length c (c.offset.toNat + i) := by
  have hstart := start_of_lt t handle hfrom hlen
  have hbudget := budget_of_lt t handle hfrom hlen
  obtain ⟨hlt, hread⟩ := h
  change _ ≤ f.bytes.length at hread
  rw [hstart, Job.want, hbudget] at hread
  rw [hbudget] at hlt
  refine ⟨by omega, fun hs => ?_, ?_⟩
  · rw [if_neg hs] at hlt
    have := Nat.mod_le (c.size.toNat * writeDataMax) 4294967296
    by_contra hge
    unfold writeDataMax at *
    omega
  · by_contra hge
    unfold writeDataMax at *
    omega

/-- A packet that is read whole, carries what its number says and is requested, is sound. -/
theorem sound_of_carries (hnext : c.offset.toNat + i ≤ 4294967296)
    (hwhole : (job t f c handle).Whole i)
    (hplace : (job t f c handle).start + i * writeDataMax =
      ((job t f c handle).packet i).packetNumber.toNat * writeDataMax)
    (hdata : ((job t f c handle).packet i).data =
      slice f.bytes ((job t f c handle).packet i).packetNumber.toNat)
    (hreq : Requested f.bytes.length c ((job t f c handle).packet i).packetNumber.toNat) :
    Requested f.bytes.length c (c.offset.toNat + i) ∧ Sound f.bytes.length c i := by
  have hnumber : ((job t f c handle).packet i).packetNumber.toNat =
      (c.offset.toNat + i) % 4294967296 := number_packet _ i
  have hoffset := c.offset.toNat_lt
  have hlt : c.offset.toNat + i < 4294967296 := by
    by_contra hge
    have heq : c.offset.toNat + i = 4294967296 := by omega
    rw [hnumber, heq, Nat.mod_self, Nat.zero_mul] at hplace
    unfold writeDataMax at hplace
    omega
  rw [hnumber, Nat.mod_eq_of_lt hlt] at hplace hdata hreq
  have hfirst := hreq.first
  have hwant : (job t f c handle).want i =
      min writeDataMax (f.bytes.length - (c.offset.toNat + i) * writeDataMax) := by
    rw [← length_data hwhole, hdata, slice, List.length_take, List.length_drop]
  refine ⟨hreq, ?_, hlt, fun hs => ?_⟩
  · rw [job_start] at hplace
    split_ifs at hplace
    · by_contra hge
      unfold writeDataMax at *
      omega
    · by_contra hge
      unfold writeDataMax at *
      omega
    · by_contra hge
      unfold writeDataMax at *
      omega
  · have hbudget := job_budget t f c handle
    have hpos := hwhole.1
    rw [if_neg hs] at hbudget
    rw [Job.want, hbudget] at hwant
    rw [hbudget] at hpos
    have hlen := hreq.2.2
    by_contra hge
    unfold writeDataMax at *
    omega

end Places

/-! ## Runs whose packets are sound -/

section Runs

variable {t : Target} {f : LocalFile t} {c : WriteFileCmd} {handle : UInt32} {answer : Nat → Ret}
  {n : Nat} {log : List Event}

theorem count_fails (n : Nat) (g : Job) :
    ((List.range n).map (g.call answer)).countP (·.ret != retOk) = failed answer n := by
  induction n with
  | zero => simp [failed]
  | succ n ih =>
    rw [List.range_succ, List.map_append, List.countP_append, ih, failed_succ]
    by_cases h : answer n = retOk <;> simp [fails, Job.call, h]

theorem Ended.mem_calls {g : Job} (h : Ended g answer n log) (w : WriteCall) :
    w ∈ writeCalls log ↔ ∃ j < n, g.call answer j = w := by
  simp [h.calls]

theorem Ended.get_call {g : Job} (h : Ended g answer n log) {j : Nat} {w : WriteCall}
    (hw : (writeCalls log)[j]? = some w) : j < n ∧ g.call answer j = w := by
  rw [h.calls, List.getElem?_map] at hw
  obtain ⟨i, hi, rfl⟩ := Option.map_eq_some_iff.1 hw
  obtain ⟨hlt, rfl⟩ := List.getElem?_eq_some_iff.1 hi
  simp at hlt ⊢
  exact hlt

variable (t handle) in
theorem number_call {j : Nat} (h : Good f.bytes.length c (done answer j)) :
    ((job t f c handle).call answer j).number = c.offset.toNat + done answer j := by
  rw [WriteCall.number, Job.call]
  simp only
  rw [number_packet]
  exact Nat.mod_eq_of_lt h.2.2.1

variable (t handle) in
theorem carries_call {j : Nat} (h : Good f.bytes.length c (done answer j)) :
    ((job t f c handle).call answer j).start =
        ((job t f c handle).call answer j).number * writeDataMax ∧
      ((job t f c handle).call answer j).write.data =
        slice f.bytes ((job t f c handle).call answer j).number ∧
      ((job t f c handle).call answer j).request =
        some ((job t f c handle).call answer j).write.payload := by
  obtain ⟨hwhole, hplace, hwant⟩ := sound_reads t handle h.1 h.2
  rw [number_call t handle h]
  refine ⟨hplace, ?_, rfl⟩
  simp only [Job.call, Job.packet]
  rw [hplace, hwant, slice_eq]
  rfl

/-- Writes of sound packets carry what they have to, in order. -/
theorem Ended.keeps (h : Ended (job t f c handle) answer n log)
    (hgood : ∀ j < n, Good f.bytes.length c (done answer j))
    (hsub : failed answer n < 5 → ∀ i, Requested f.bytes.length c (c.offset.toNat + i) →
      i < done answer n)
    (htrue : Succeeds log ↔ ∀ i, Requested f.bytes.length c (c.offset.toNat + i) →
      ∃ j < n, done answer j = i ∧ answer j = retOk) :
    Faithful f.bytes c log := by
  have hnumber (j : Nat) (hj : j < n) := number_call t handle (hgood j hj)
  refine ⟨?_, ?_, ?_, ?_, ?_, h.failures, ?_⟩
  · intro w hw
    obtain ⟨j, hj, rfl⟩ := (h.mem_calls w).1 hw
    exact carries_call t handle (hgood j hj)
  · intro w hw
    rw [List.head?_eq_getElem?] at hw
    obtain ⟨h0, rfl⟩ := h.get_call hw
    simp [hnumber 0 h0, done]
  · intro j w w' hw hw'
    obtain ⟨hj, rfl⟩ := h.get_call hw
    obtain ⟨hj', rfl⟩ := h.get_call hw'
    rw [hnumber j hj, hnumber (j + 1) hj', done_succ]
    by_cases ht : takes answer j
    · left
      rw [if_pos ht]
      omega
    · right
      rw [if_neg ht]
      exact ⟨rfl, fails_of_refused ht⟩
  · intro w hw
    obtain ⟨j, hj, rfl⟩ := (h.mem_calls w).1 hw
    rw [hnumber j hj]
    exact (hgood j hj).1
  · intro hfew k hk
    rw [h.calls, count_fails] at hfew
    obtain ⟨i, rfl⟩ := Nat.exists_eq_add_of_le hk.1
    obtain ⟨j, hj, -, hi⟩ := exists_count (hsub hfew i hk)
    exact ⟨_, (h.mem_calls _).2 ⟨j, hj, rfl⟩, by rw [hnumber j hj]; exact congrArg _ hi⟩
  · rw [htrue]
    constructor
    · intro hall k hk
      obtain ⟨i, rfl⟩ := Nat.exists_eq_add_of_le hk.1
      obtain ⟨j, hj, rfl, hok⟩ := hall i hk
      exact ⟨_, (h.mem_calls _).2 ⟨j, hj, rfl⟩, hnumber j hj, hok⟩
    · intro hall i hi
      obtain ⟨w, hw, hk, hok⟩ := hall _ hi
      obtain ⟨j, hj, rfl⟩ := (h.mem_calls w).1 hw
      rw [hnumber j hj] at hk
      exact ⟨j, hj, Nat.add_left_cancel hk, hok⟩

/-- A loop that did not end with five failures leaves no requested packet out, if all are sound. -/
theorem Ended.submits (h : Ended (job t f c handle) answer n log)
    (hsound : ∀ i, Requested f.bytes.length c (c.offset.toNat + i) → Sound f.bytes.length c i)
    (hfew : failed answer n < 5) {i : Nat}
    (hi : Requested f.bytes.length c (c.offset.toNat + i)) : i < done answer n := by
  by_contra hge
  have hreq := hi.before (Nat.not_lt.1 hge)
  exact h.stops hfew (sound_reads t handle hreq (hsound _ hreq)).1

/-- The loop ends with the fifth failure, if the packets before it are sound. -/
theorem Ended.ends_at {m : Nat} (h : Ended (job t f c handle) answer n log)
    (hfails : fails answer m) (hfive : failed answer (m + 1) = 5)
    (hgood : ∀ i ≤ done answer m, Good f.bytes.length c i) : n = m + 1 := by
  have hfour : failed answer m = 4 := by
    rw [failed_succ, if_pos hfails] at hfive
    omega
  rcases Nat.lt_trichotomy n (m + 1) with hlt | heq | hgt
  · have hn : n ≤ m := by omega
    have hless := failed_mono answer hn
    have hg := hgood _ (done_mono answer hn)
    exact absurd (sound_reads t handle hg.1 hg.2).1 (h.stops (by omega))
  · exact heq
  · have := (h.steps (m + 1) hgt).1
    omega

theorem first_requested (hlen : c.offset.toNat * writeDataMax < f.bytes.length) :
    Requested f.bytes.length c (c.offset.toNat + 0) := by
  refine ⟨by omega, fun hs => ?_, hlen⟩
  have hpos : c.size.toNat ≠ 0 := fun h0 => hs (UInt32.toNat_inj.1 h0)
  omega

variable (t handle) in
/-- An exact command has no bytes left after its requested packets. -/
theorem budget_le {i : Nat}
    (hsound : ∀ i, Requested f.bytes.length c (c.offset.toNat + i) → Sound f.bytes.length c i)
    (hexact : Exact f.bytes.length c) (hi : ¬Requested f.bytes.length c (c.offset.toNat + i)) :
    (job t f c handle).budget ≤ i * writeDataMax := by
  by_cases hs : c.size = 0
  · by_cases hlen : c.offset.toNat * writeDataMax < f.bytes.length
    · have hfrom := (hsound 0 (first_requested hlen)).1
      rw [budget_of_lt t handle hfrom hlen, if_pos hs]
      have hout : ¬(c.offset.toNat + i) * writeDataMax < f.bytes.length :=
        fun hin => hi ⟨by omega, fun hne => absurd hs hne, hin⟩
      rw [Nat.add_mul] at hout
      omega
    · have heq := (hexact.1 hs).resolve_left hlen
      rw [job_budget, if_pos hs, heq, Nat.add_sub_cancel_left, Nat.mod_self]
      omega
  · rw [job_budget, if_neg hs]
    exact hexact.2 hs i hi

/-- A write is only of requested packets, where they are sound and there is one, or the command is
exact. -/
theorem Ended.requests (h : Ended (job t f c handle) answer n log)
    (hsound : ∀ i, Requested f.bytes.length c (c.offset.toNat + i) → Sound f.bytes.length c i)
    (hsome : (∃ i, Requested f.bytes.length c (c.offset.toNat + i)) ∨ Exact f.bytes.length c) :
    ∀ j < n, Good f.bytes.length c (done answer j) := by
  intro j hj
  have hwhole := (h.steps j hj).2
  by_cases hlen : c.offset.toNat * writeDataMax < f.bytes.length
  · have hreq := requested_of_whole (hsound 0 (first_requested hlen)).1 hlen hwhole
    exact ⟨hreq, hsound _ hreq⟩
  · have hnone (i : Nat) : ¬Requested f.bytes.length c (c.offset.toNat + i) :=
      fun hi => hlen hi.first
    rcases hsome with ⟨i, hi⟩ | hexact
    · exact absurd hi (hnone i)
    · have := budget_le t handle hsound hexact (hnone 0)
      have := hwhole.1
      omega

end Runs

/-! ## The transfers that are kept -/

section Kept

variable {t : Target} {f : LocalFile t} {c : WriteFileCmd} {handle : UInt32} {answer : Nat → Ret}
  {n : Nat} {log : List Event}

theorem not_accepted_again {m j : Nat} (hfails : fails answer m) (hj : j < m + 1)
    (hdone : done answer j = done answer m) : answer j ≠ retOk := by
  intro hok
  rcases Nat.lt_or_ge j m with hlt | hge
  · have : done answer j < done answer m := Nat.count_strict_mono (takes_of_accepted hok) hlt
    omega
  · obtain rfl : j = m := by omega
    exact hfails hok

theorem Ended.faithful_failing (h : Ended (job t f c handle) answer n log)
    (hfail : FailsEarly f.bytes.length c answer) : Faithful f.bytes c log := by
  obtain ⟨m, hfails, hfive, hgood⟩ := hfail
  obtain rfl := h.ends_at hfails hfive hgood
  refine h.keeps (fun j hj => hgood _ (done_mono answer (by omega)))
    (fun hlt => by omega) ?_
  rw [h.succeeds]
  constructor
  · intro h0
    omega
  · intro hall
    obtain ⟨j, hj, hdone, hok⟩ := hall _ (hgood _ le_rfl).1
    exact absurd hok (not_accepted_again hfails hj hdone)

theorem Ended.faithful_leaving (h : Ended (job t f c handle) answer n log)
    (hsound : ∀ i, Requested f.bytes.length c (c.offset.toNat + i) → Sound f.bytes.length c i)
    (hleave : LeavesBehind f.bytes.length c answer) : Faithful f.bytes c log := by
  obtain ⟨m, hfails, htakes, hreq⟩ := hleave
  refine h.keeps (h.requests hsound (.inl ⟨_, hreq⟩))
    (fun hfew i hi => h.submits hsound hfew hi) ?_
  rw [h.succeeds]
  constructor
  · rintro ⟨h0, -⟩
    have hlt := h.submits hsound (by omega) hreq
    have hm : m < n := by
      by_contra hge
      have := done_mono answer (Nat.not_lt.1 hge)
      omega
    exact absurd hfails (Nat.count_iff_forall_not.1 h0 m hm)
  · intro hall
    obtain ⟨j, hj, hdone, hok⟩ := hall _ hreq
    obtain rfl : j = m := Nat.count_injective (takes_of_accepted hok) htakes hdone
    exact absurd hok hfails

theorem Ended.faithful_clean (h : Ended (job t f c handle) answer n log)
    (hsound : ∀ i, Requested f.bytes.length c (c.offset.toNat + i) → Sound f.bytes.length c i)
    (hclean : Clean f.bytes.length c answer) : Faithful f.bytes c log := by
  obtain ⟨haccept, hexact⟩ := hclean
  have hgood := h.requests hsound (.inr hexact)
  -- each write is of the next packet, and accepted
  have hok : ∀ j < n, answer j = retOk := by
    intro j
    induction j using Nat.strong_induction_on with
    | _ j ih =>
      intro hj
      have hdone : done answer j = j :=
        Nat.count_iff_forall.2 fun i hi => takes_of_accepted (ih i hi (by omega))
      have hreq := (hgood j hj).1
      rw [hdone] at hreq
      exact haccept j hreq
  have hdone : done answer n = n :=
    Nat.count_iff_forall.2 fun i hi => takes_of_accepted (hok i hi)
  have hfailed : failed answer n = 0 :=
    Nat.count_iff_forall_not.2 fun i hi hfails => hfails (hok i hi)
  have hsub (i : Nat) (hi : Requested f.bytes.length c (c.offset.toNat + i)) :
      i < done answer n := h.submits hsound (by omega) hi
  refine h.keeps hgood (fun _ => hsub) ?_
  rw [h.succeeds]
  constructor
  · intro _ i hi
    obtain ⟨j, hj, -, hji⟩ := exists_count (hsub i hi)
    exact ⟨j, hj, hji, hok j hj⟩
  · intro _
    refine ⟨hfailed, budget_le t handle hsound hexact fun hreq => ?_⟩
    have := hsub _ hreq
    omega

/-- Packets before a sound one are sound. -/
theorem Good.before {len i k : Nat} (h : Good len c k) (hi : i ≤ k) : Good len c i := by
  obtain ⟨⟨-, hsize, hlen⟩, hfrom, hnumber, hwhole⟩ := h
  have hmul := Nat.mul_le_mul_right writeDataMax hi
  refine ⟨⟨by omega, fun hs => by have := hsize hs; omega, ?_⟩, hfrom, by omega, fun hs => ?_⟩
  · rw [Nat.add_mul] at hlen ⊢
    omega
  · refine (hwhole hs).imp_right fun hin => ?_
    simp only [Nat.add_mul] at hin ⊢
    omega

/-- The writes of a transfer that is kept are of sound packets. -/
theorem Ended.good (h : Ended (job t f c handle) answer n log) (hf : Faithful f.bytes c log) :
    ∀ j < n, Good f.bytes.length c (done answer j) := by
  intro j
  induction j using Nat.strong_induction_on with
  | _ j ih =>
    intro hj
    have hnext : c.offset.toNat + done answer j ≤ 4294967296 := by
      have hoffset := c.offset.toNat_lt
      rcases Nat.eq_zero_or_pos (done answer j) with h0 | hpos
      · omega
      · obtain ⟨i, hi, -, hdone⟩ := exists_count (Nat.sub_lt hpos Nat.one_pos)
        have hlast := (ih i hi (by omega)).2.2.1
        have heq : done answer i = done answer j - 1 := hdone
        omega
    have hmem := (h.mem_calls _).2 ⟨j, hj, rfl⟩
    obtain ⟨hplace, hdata, -⟩ := hf.carries _ hmem
    exact sound_of_carries hnext (h.steps j hj).2 hplace hdata (hf.requested _ hmem)

theorem Ended.fails_early (h : Ended (job t f c handle) answer n log)
    (hgood : ∀ j < n, Good f.bytes.length c (done answer j)) (hfive : failed answer n = 5) :
    FailsEarly f.bytes.length c answer := by
  obtain ⟨m, rfl⟩ : ∃ m, n = m + 1 :=
    Nat.exists_eq_succ_of_ne_zero fun h0 => by simp [h0, failed] at hfive
  have hless := (h.steps m m.lt_succ_self).1
  refine ⟨m, ?_, hfive, fun i hi => (hgood m m.lt_succ_self).before hi⟩
  rw [failed_succ] at hfive
  by_contra hok
  rw [if_neg hok] at hfive
  omega

/-- A command that ends well is exact. -/
theorem Ended.exact (h : Ended (job t f c handle) answer n log)
    (hgood : ∀ j < n, Good f.bytes.length c (done answer j)) (hdone : ∀ j ≤ n, done answer j = j)
    (hbudget : (job t f c handle).budget ≤ n * writeDataMax) : Exact f.bytes.length c := by
  refine ⟨fun hs => ?_, fun hs i hi => ?_⟩
  · by_cases hlen : c.offset.toNat * writeDataMax < f.bytes.length
    · exact .inl hlen
    · right
      have hn : n = 0 := by
        by_contra hpos
        exact hlen (hgood 0 (by omega)).1.first
      have hfits := f.fits
      rw [job_budget, if_pos hs, hn] at hbudget
      cases t <;> simp only [Target.sizes, Target.longs] at * <;> omega
  · have hle : n ≤ i := by
      by_contra hlt
      have hreq := (hgood i (by omega)).1
      rw [hdone i (by omega)] at hreq
      exact hi hreq
    rw [job_budget, if_neg hs] at hbudget
    exact hbudget.trans (Nat.mul_le_mul_right _ hle)

theorem Ended.meets (h : Ended (job t f c handle) answer n log) (hf : Faithful f.bytes c log) :
    Meets f.bytes.length c answer := by
  have hgood := h.good hf
  rcases Nat.lt_or_ge (failed answer n) 5 with hfew | hmany
  · -- every requested packet was written
    have hsub (i : Nat) (hi : Requested f.bytes.length c (c.offset.toNat + i)) :
        ∃ j < n, done answer j = i := by
      obtain ⟨w, hw, hk⟩ := hf.submitted (by rwa [h.calls, count_fails]) _ hi
      obtain ⟨j, hj, rfl⟩ := (h.mem_calls w).1 hw
      rw [number_call t handle (hgood j hj)] at hk
      exact ⟨j, hj, Nat.add_left_cancel hk⟩
    refine .inr ⟨fun i hi => ?_, ?_⟩
    · obtain ⟨j, hj, rfl⟩ := hsub i hi
      exact (hgood j hj).2
    · by_cases hsucc : Succeeds log
      · obtain ⟨h0, hbudget⟩ := h.succeeds.1 hsucc
        have hok (j : Nat) (hj : j < n) : answer j = retOk :=
          not_not.1 (Nat.count_iff_forall_not.1 h0 j hj)
        have hdone (j : Nat) (hj : j ≤ n) : done answer j = j :=
          Nat.count_iff_forall.2 fun i hi => takes_of_accepted (hok i (by omega))
        rw [hdone n le_rfl] at hbudget
        refine .inr ⟨fun i hi => ?_, h.exact hgood hdone hbudget⟩
        obtain ⟨j, hj, rfl⟩ := hsub i hi
        rw [hdone j hj.le]
        exact hok j hj
      · rw [hf.truthful] at hsucc
        push Not at hsucc
        obtain ⟨k, hk, hnone⟩ := hsucc
        obtain ⟨i, rfl⟩ := Nat.exists_eq_add_of_le hk.1
        obtain ⟨j, hj, hji⟩ := hsub i hk
        have hlt : i < done answer n := by
          by_contra hge
          have := done_mono answer hj.le
          have heq : done answer n = done answer j := by omega
          exact h.stops hfew (heq ▸ (h.steps j hj).2)
        obtain ⟨m, hm, htakes, hmi⟩ := exists_count hlt
        have hdone : done answer m = i := hmi
        refine .inl ⟨m, ?_, htakes, by rwa [hdone]⟩
        refine hnone _ ((h.mem_calls _).2 ⟨m, hm, rfl⟩) ?_
        rw [number_call t handle (hgood m hm), hdone]
  · exact .inl (h.fails_early hgood (Nat.le_antisymm h.failed_le hmany))

/-- **A transfer is kept exactly under `Meets`.**  That is, for every file, offset, size and
sequence of results of the writes. -/
theorem transfer_faithful_iff (t : Target) (f : LocalFile t) (c : WriteFileCmd) (handle : UInt32)
    (answer : Nat → Ret) :
    (∃ log, writeFileCmd t (some f) c handle answer = some log ∧ Faithful f.bytes c log) ↔
      Meets f.bytes.length c answer := by
  obtain ⟨log, n, hrun, hend⟩ := writeFileCmd_ends t f c handle answer
  constructor
  · rintro ⟨log', hrun', hf⟩
    obtain rfl : log = log' := Option.some.inj (hrun.symm.trans hrun')
    exact hend.meets hf
  · rintro (hfail | ⟨hsound, hleave | hclean⟩)
    · exact ⟨log, hrun, hend.faithful_failing hfail⟩
    · exact ⟨log, hrun, hend.faithful_leaving hsound hleave⟩
    · exact ⟨log, hrun, hend.faithful_clean hsound hclean⟩

/-- The first write does not go out, and the second does. -/
def secondTry (n : Nat) : Ret := if n = 0 then Esup.sessionIoError else retOk

def oneByte : LocalFile .obc := ⟨[7], by simp [Target.longs]⟩

/-- A file of one byte is accepted when it is written again, and there is no report of success. -/
theorem accepted_untold : ¬∀ (t : Target) (f : LocalFile t) (c : WriteFileCmd) (handle : UInt32)
    (answer : Nat → Ret),
    ∃ log, writeFileCmd t (some f) c handle answer = some log ∧ Faithful f.bytes c log := by
  intro hall
  obtain ⟨log, hrun, hf⟩ := hall .obc oneByte ⟨0, 0⟩ 1 secondTry
  let start : WriteFileReply := ⟨0, 1, 1, 0, 0⟩
  let w : FileWrite := ⟨1, 0, [7], 1⟩
  let log' : List Event := [.report .success 0 start,
    .write ⟨w, 0, some w.payload, Esup.sessionIoError⟩,
    .report .lib Esup.sessionIoError ⟨Esup.sessionIoError, 1, 1, 0, 1⟩,
    .write ⟨w, 0, some w.payload, retOk⟩]
  have hlog : writeFileCmd .obc (some oneByte) ⟨0, 0⟩ 1 secondTry = some log' := by rfl
  obtain rfl : log' = log := Option.some.inj (hlog.symm.trans hrun)
  obtain ⟨r, hr⟩ := hf.truthful.2 fun k hk => by
    refine ⟨⟨w, 0, some w.payload, retOk⟩, by simp [log', writeCalls, Event.call?], ?_, rfl⟩
    have := hk.2.2
    simp [oneByte, writeDataMax] at this
    simp [WriteCall.number, w, this]
  simp [log'] at hr

end Kept

end Stx
end FlightApps
