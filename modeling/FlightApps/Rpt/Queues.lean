import FlightApps.Lib.Ring
import FlightApps.Rpt.App

/-!
# The queues are windows on the log

The two queues of RPT are rings (`Queue.ring`) whose head and count are bytes: between two resets
each holds the last reports that were put in since it was cleared, as many as it has cells.

A request for reports is answered from that window.  The request is trimmed to what the queue holds,
but the size of the packet was computed before: `Exact` says what a packet should be, and
`multiple_exact_iff` that it is so exactly if there was nothing to trim off the number of reports.
-/

set_option autoImplicit false

namespace FlightApps
namespace Rpt

/-! ## Rings -/

section Queue

variable {α : Type} {len : Nat} [NeZero len]

/-- Head and count are in range. -/
def Queue.Ok (q : Queue α len) : Prop := q.head.toNat < len ∧ q.count.toNat ≤ len

/-- The queue as a ring. -/
def Queue.ring (q : Queue α len) (h : q.Ok) : RingBuffer α len :=
  ⟨q.entry, q.head.toNat, q.count.toNat, h.1, h.2⟩

/-- The queue holds the end of a log. -/
def Queue.Holds (q : Queue α len) (log : List α) : Prop := ∃ h : q.Ok, (q.ring h).Window log

theorem Queue.holds_zero (zero : α) : (zeroQueue zero len).Holds [] := by
  have hok : (zeroQueue zero len).Ok := ⟨Nat.pos_of_neZero len, Nat.zero_le len⟩
  refine ⟨hok, (Nat.zero_min len).symm, ?_⟩
  rw [List.drop_nil]
  rfl

theorem Queue.put_head {q : Queue α len} (hlen : len < 256) (a : α) :
    (q.put a).head.toNat = (q.head.toNat + 1) % len := by
  have hlt := Nat.mod_lt (q.head.toNat + 1) (Nat.pos_of_neZero len)
  exact UInt8.toNat_ofNat_of_lt' (by simp only [UInt8.size]; omega)

theorem Queue.put_count {q : Queue α len} (hlen : len < 256) (a : α) :
    (q.put a).count.toNat = if q.count.toNat < len then q.count.toNat + 1 else q.count.toNat := by
  simp only [Queue.put]
  split
  · have hone : (1 : UInt8).toNat = 1 := rfl
    rw [UInt8.toNat_add, hone, Nat.mod_eq_of_lt (by omega)]
  · rfl

theorem Queue.Ok.put {q : Queue α len} (h : q.Ok) (hlen : len < 256) (a : α) : (q.put a).Ok := by
  refine ⟨?_, ?_⟩
  · rw [put_head hlen]
    exact Nat.mod_lt _ (Nat.pos_of_neZero len)
  · rw [put_count hlen]
    have hle := h.2
    split <;> omega

/-- Putting an entry is a push. -/
theorem Queue.ring_put {q : Queue α len} (h : q.Ok) (hlen : len < 256) (a : α) :
    (q.put a).ring (h.put hlen a) = (q.ring h).push a := by
  have hcell : (Fin.ofNat len q.head.toNat) = ⟨q.head.toNat, h.1⟩ :=
    Fin.ext (Nat.mod_eq_of_lt h.1)
  simp only [ring, RingBuffer.push, put_head hlen, put_count hlen, RingBuffer.mk.injEq]
  refine ⟨?_, trivial, rfl⟩
  rw [put, hcell]

theorem Queue.Holds.put {q : Queue α len} {log : List α} (h : q.Holds log) (hlen : len < 256)
    (a : α) : (q.put a).Holds (log ++ [a]) := by
  obtain ⟨hok, hw⟩ := h
  refine ⟨hok.put hlen a, ?_⟩
  rw [ring_put hok hlen]
  exact hw.push a

end Queue

/-! ## Retrieval -/

/-- The request leads to a packet: reports are asked for, a buffer of that size can be had, and the
packet goes out. -/
def Sendable (totNum : UInt8) (recordSize : Nat) (bus : Bus) : Prop :=
  totNum ≠ 0 ∧ telemetryHeaderSize + totNum.toNat * recordSize ≤ maxSbMsgSize ∧
    bus.pool = true ∧ bus.init = success ∧ bus.transmit = success

/-- There are as many reports as are asked for, from the start index on or, if that lies beyond the
end, from the oldest. -/
def InRange (count startIdx totNum : UInt8) : Prop :=
  totNum.toNat ≤ count.toNat ∧
    (count.toNat < startIdx.toNat ∨ startIdx.toNat + totNum.toNat ≤ count.toNat)

/-- The start index as it is used. -/
def clampedStart (count startIdx totNum : UInt8) : Nat :=
  if startIdx > count ∨ totNum > count then 0 else startIdx.toNat

/-- What a packet of reports should be: its size is that of the header and its records; these are a
slice of the queue; each lies inside the packet; there is no other place for a record in it; and if
the queue holds a report, then so does the packet. -/
structure Exact {α : Type} (recordSize start : Nat) (items : List α) (p : Packet α) : Prop where
  size : p.size = telemetryHeaderSize + p.records.length * recordSize
  slice : p.records = (items.drop start).take p.records.length
  inside : ∀ i < p.records.length, telemetryHeaderSize + (i + 1) * recordSize ≤ p.size
  filled : ∀ i, telemetryHeaderSize + (i + 1) * recordSize ≤ p.size → i < p.records.length
  nonempty : items ≠ [] → 1 ≤ p.records.length

theorem clampedStart_le (count startIdx totNum : UInt8) :
    clampedStart count startIdx totNum ≤ count.toNat := by
  rw [clampedStart]
  split
  · exact Nat.zero_le _
  · rename_i h
    rw [not_or, gt_iff_lt, UInt8.not_lt] at h
    exact UInt8.le_iff_toNat_le.1 h.1

/-- The loop reads a slice. -/
theorem Queue.read_slice {α : Type} {len : Nat} [NeZero len] {q : Queue α len} (h : q.Ok)
    (hlen : len < 256) {old start n : Nat}
    (hold : old % len = (q.head.toNat + len - q.count.toNat) % len)
    (hn : start + n ≤ q.count.toNat) :
    ((List.range n).map fun i => q.entry
        (Fin.ofNat len (((UInt8.ofNat ((old + start) % len)).toNat + i) % len))) =
      ((q.ring h).toList.drop start).take n := by
  have hstart : (UInt8.ofNat ((old + start) % len)).toNat = (old + start) % len := by
    have hlt := Nat.mod_lt (old + start) (Nat.pos_of_neZero len)
    exact UInt8.toNat_ofNat_of_lt' (by simp only [UInt8.size]; omega)
  refine List.ext_getElem? fun i => ?_
  by_cases hi : i < n
  · have hcount : start + i < (q.ring h).count := by
      have heq : (q.ring h).count = q.count.toNat := rfl
      omega
    rw [List.getElem?_map, List.getElem?_range hi, Option.map_some, List.getElem?_take_of_lt hi,
      List.getElem?_drop, RingBuffer.getElem?_toList _ hcount, hstart]
    refine congrArg some (congrArg q.entry (Fin.ext ?_))
    calc (((old + start) % len + i) % len) % len
        = (old + (start + i)) % len := by rw [Nat.mod_mod, Nat.mod_add_mod, Nat.add_assoc]
      _ = (q.head.toNat + len - q.count.toNat + (start + i)) % len := by
        rw [Nat.add_mod, hold, ← Nat.add_mod]
  · rw [List.getElem?_eq_none (by rw [List.length_map, List.length_range]; omega),
      List.getElem?_eq_none (by rw [List.length_take]; omega)]

section Retrieval

variable {α : Type} {len : Nat} [NeZero len] {q : Queue α len} {oldIdx : UInt8}
  {recordSize : Nat} {noBuffer : Status} {startIdx totNum : UInt8} {bus : Bus}

/-- What is left of the number of reports that are asked for. -/
def clampedNum (count startIdx totNum : UInt8) : Nat :=
  min totNum.toNat (count.toNat - clampedStart count startIdx totNum)

/-- The trimming of the request, in numbers. -/
theorem trimmed (count startIdx totNum : UInt8) :
    let startIdx₁ := if startIdx > count then 0 else startIdx
    let startIdx₂ := if totNum > count then 0 else startIdx₁
    let totNum₂ := if totNum > count then count else totNum
    startIdx₂.toNat = clampedStart count startIdx totNum ∧
      (if startIdx₂.toNat + totNum₂.toNat > count.toNat then count - startIdx₂
        else totNum₂).toNat = clampedNum count startIdx totNum := by
  intro startIdx₁ startIdx₂ totNum₂
  have hstart : startIdx₂.toNat = clampedStart count startIdx totNum := by
    simp only [startIdx₂, startIdx₁, clampedStart]
    by_cases ht : totNum > count
    · rw [if_pos ht, if_pos (.inr ht)]
      rfl
    · by_cases hs : startIdx > count
      · rw [if_neg ht, if_pos hs, if_pos (.inl hs)]
        rfl
      · rw [if_neg ht, if_neg hs, if_neg (not_or.2 ⟨hs, ht⟩)]
  have hnum : totNum₂.toNat = min totNum.toNat count.toNat := by
    simp only [totNum₂, gt_iff_lt, UInt8.lt_iff_toNat_lt]
    split <;> omega
  have hle := clampedStart_le count startIdx totNum
  refine ⟨hstart, ?_⟩
  rw [clampedNum]
  split
  · rw [UInt8.toNat_sub_of_le _ _ (UInt8.le_iff_toNat_le.2 (by omega)), hstart]
    omega
  · omega

theorem multiple_sendable (h : q.Ok) (hlen : len < 256)
    (hold : oldIdx.toNat % len = (q.head.toNat + len - q.count.toNat) % len)
    (hs : Sendable totNum recordSize bus) :
    (multiple q oldIdx recordSize noBuffer startIdx totNum bus).2 =
      some ⟨telemetryHeaderSize + totNum.toNat * recordSize,
        ((q.ring h).toList.drop (clampedStart q.count startIdx totNum)).take
          (clampedNum q.count startIdx totNum)⟩ := by
  obtain ⟨hnum, hsize, hpool, hinit, htransmit⟩ := hs
  obtain ⟨hstart, htot⟩ := trimmed q.count startIdx totNum
  have hle := clampedStart_le q.count startIdx totNum
  have hfit : clampedStart q.count startIdx totNum + clampedNum q.count startIdx totNum ≤
      q.count.toNat := by
    rw [clampedNum]
    omega
  have hslice := Queue.read_slice h hlen hold hfit
  have hroom : ¬((decide (telemetryHeaderSize + totNum.toNat * recordSize > maxSbMsgSize) ||
      !bus.pool) = true) := by simp [hpool, hsize]
  rw [multiple, if_neg hnum, if_neg hroom, if_neg (not_not.2 hinit),
    if_neg (not_not.2 htransmit), htot, hstart, hslice]

theorem multiple_not_sendable (hs : ¬Sendable totNum recordSize bus) :
    (multiple q oldIdx recordSize noBuffer startIdx totNum bus).2 = none := by
  rw [multiple]
  by_cases hnum : totNum = 0
  · rw [if_pos hnum]
  rw [if_neg hnum]
  by_cases hroom : (decide (telemetryHeaderSize + totNum.toNat * recordSize > maxSbMsgSize) ||
      !bus.pool) = true
  · rw [if_pos hroom]
  rw [if_neg hroom]
  by_cases hinit : bus.init = success
  · rw [if_neg (not_not.2 hinit)]
    by_cases htransmit : bus.transmit = success
    · rw [Bool.or_eq_true, not_or, decide_eq_true_eq, Bool.not_eq_true', Bool.not_eq_false,
        gt_iff_lt, Nat.not_lt] at hroom
      exact absurd ⟨hnum, hroom.1, hroom.2, hinit, htransmit⟩ hs
    · rw [if_pos htransmit]
  · rw [if_pos hinit]

/-- Nothing is trimmed off the number exactly if the request is in range. -/
theorem clampedNum_eq_iff (count startIdx totNum : UInt8) :
    clampedNum count startIdx totNum = totNum.toNat ↔ InRange count startIdx totNum := by
  simp only [clampedNum, clampedStart, InRange, gt_iff_lt, UInt8.lt_iff_toNat_lt]
  split <;> omega

theorem exact_iff {items : List α} {start num : Nat} (hpos : 0 < recordSize)
    (hnum : totNum.toNat ≠ 0) (hfit : start + num ≤ items.length) :
    Exact recordSize start items
        ⟨telemetryHeaderSize + totNum.toNat * recordSize, (items.drop start).take num⟩ ↔
      num = totNum.toNat := by
  have hlen : ((items.drop start).take num).length = num := by
    rw [List.length_take, List.length_drop]
    omega
  refine ⟨fun h => ?_, fun h => ?_⟩
  · have hsize := h.size
    simp only [hlen, Nat.add_left_cancel_iff] at hsize
    exact (Nat.eq_of_mul_eq_mul_right hpos hsize).symm
  · subst h
    refine ⟨?_, ?_, fun i hi => ?_, fun i hi => ?_, fun _ => ?_⟩
    · rw [hlen]
    · rw [hlen]
    · rw [hlen] at hi
      exact Nat.add_le_add_left (Nat.mul_le_mul_right _ hi) _
    · rw [hlen]
      exact Nat.le_of_mul_le_mul_right (Nat.le_of_add_le_add_left hi) hpos
    · rw [hlen]
      omega

/-- **When a packet is what it should be.** -/
theorem multiple_exact_iff (h : q.Ok) (hlen : len < 256) (hpos : 0 < recordSize)
    (hold : oldIdx.toNat % len = (q.head.toNat + len - q.count.toNat) % len) :
    (∀ p, (multiple q oldIdx recordSize noBuffer startIdx totNum bus).2 = some p →
        Exact recordSize (clampedStart q.count startIdx totNum) (q.ring h).toList p) ↔
      (Sendable totNum recordSize bus → InRange q.count startIdx totNum) := by
  by_cases hs : Sendable totNum recordSize bus
  · have hle := clampedStart_le q.count startIdx totNum
    have hcount : (q.ring h).toList.length = q.count.toNat := (q.ring h).length_toList
    have hnum : totNum.toNat ≠ 0 := fun h0 => hs.1 (UInt8.toNat_inj.1 h0)
    have hfit : clampedStart q.count startIdx totNum + clampedNum q.count startIdx totNum ≤
        (q.ring h).toList.length := by
      rw [hcount, clampedNum]
      omega
    rw [multiple_sendable h hlen hold hs, ← clampedNum_eq_iff, ← exact_iff hpos hnum hfit]
    exact ⟨fun hall _ => hall _ rfl, fun hex p hp => by cases hp; exact hex hs⟩
  · rw [multiple_not_sendable hs]
    exact ⟨fun _ hs' => absurd hs' hs, fun _ p hp => by cases hp⟩

end Retrieval

/-! ## Runs -/

/-- The entries of a queue, read from the oldest cell on. -/
def Queue.fromOldest {α : Type} {len : Nat} [NeZero len] (q : Queue α len) : List α :=
  (List.range q.count.toNat).map fun i =>
    q.entry (Fin.ofNat len (q.head.toNat + len - q.count.toNat + i))

/-- The last items of a log. -/
def lastOf {α : Type} (len : Nat) (log : List α) : List α := log.drop (log.length - len)

theorem Queue.Holds.spec {α : Type} {len : Nat} [NeZero len] {q : Queue α len} {log : List α}
    (h : q.Holds log) :
    q.count.toNat = min log.length len ∧ q.fromOldest = lastOf len log ∧ q.Ok := by
  obtain ⟨hok, hcount, hlist⟩ := h
  exact ⟨hcount, hlist, hok⟩

/-- The reports since the queue of reports was cleared. -/
def reportLog (ns : List Note) : List Report :=
  ns.foldl (fun log n => match n with
    | .report r => log ++ [r]
    | .cleared false => []
    | _ => log) []

/-- The entries since the critical queue was cleared. -/
def criticalLog (ns : List Note) : List Critical :=
  ns.foldl (fun log n => match n with
    | .critical c => log ++ [c]
    | .cleared true => []
    | _ => log) []

theorem storeBackup_queues (s : App) (u : Update) :
    (s.storeBackup u).rptQueue = s.rptQueue ∧ (s.storeBackup u).critQueue = s.critQueue ∧
      (s.storeBackup u).critFile = s.critFile := by
  simp only [App.storeBackup]
  split
  · exact ⟨rfl, rfl, rfl⟩
  split <;> exact ⟨rfl, rfl, rfl⟩

/-- The update of the operation data leaves the queues alone. -/
theorem updateOperationData_queues (s : App) (u : Update) :
    (s.updateOperationData u).rptQueue = s.rptQueue ∧
      (s.updateOperationData u).critQueue = s.critQueue ∧
      (s.updateOperationData u).critFile = s.critFile := by
  simp only [App.updateOperationData]
  split
  · exact ⟨rfl, rfl, rfl⟩
  split
  · exact ⟨rfl, rfl, rfl⟩
  · exact storeBackup_queues _ u

theorem reportHolds_perform {s : App} {ns : List Note} (h : s.rptQueue.Holds (reportLog ns))
    (d : Duty) : (s.perform d).1.rptQueue.Holds (reportLog (ns ++ (s.perform d).2)) := by
  rw [reportLog, List.foldl_append]
  cases d with
  | enqueue report isCritical write =>
    cases isCritical with
    | true => exact h
    | false => exact h.put (by decide) report
  | clear isCritical =>
    cases isCritical with
    | true => exact h
    | false => exact Queue.holds_zero zeroReport
  | report isCritical startIdx totNum bus => exact h
  | update u =>
    rw [App.perform, (updateOperationData_queues s u).1]
    exact h

theorem criticalHolds_perform {s : App} {ns : List Note}
    (h : s.critQueue.queue.Holds (criticalLog ns)) (d : Duty) :
    (s.perform d).1.critQueue.queue.Holds (criticalLog (ns ++ (s.perform d).2)) := by
  rw [criticalLog, List.foldl_append]
  cases d with
  | enqueue report isCritical write =>
    cases isCritical with
    | true => exact h.put (by decide) (s.stamped report)
    | false => exact h
  | clear isCritical =>
    cases isCritical with
    | true => exact Queue.holds_zero zeroCritical
    | false => exact h
  | report isCritical startIdx totNum bus => exact h
  | update u =>
    rw [App.perform, (updateOperationData_queues s u).2.1]
    exact h

/-- The queues hold what was logged. -/
def Logged (s : App) (ns : List Note) : Prop :=
  s.rptQueue.Holds (reportLog ns) ∧ s.critQueue.queue.Holds (criticalLog ns)

theorem logged_run {s : App} (h : Logged s []) (ds : List Duty) :
    Logged (duties.run s ds) (duties.history s ds) :=
  duties.history_invariant
    (fun _ _ d h => ⟨reportHolds_perform h.1 d, criticalHolds_perform h.2 d⟩) h ds

/-- The memory of the app with both queues cleared. -/
def App.emptied (s : App) : App :=
  { s with rptQueue := zeroReportQueue, critQueue := zeroCriticalQueue }

theorem App.logged_emptied (s : App) : Logged s.emptied [] :=
  ⟨Queue.holds_zero zeroReport, Queue.holds_zero zeroCritical⟩

/-- **The queues are exact bounded logs, and when a retrieval is an exact slice.**  After any
duties, from empty queues on, each queue counts the reports since it was cleared as far as it has
cells, and reading it from the oldest cell gives the last of them in order.  A packet with reports
is what it should be exactly if all reports that were asked for are there. -/
theorem queues_exact (s : App) (ds : List Duty) :
    let t := duties.run s.emptied ds
    let reports := reportLog (duties.history s.emptied ds)
    let criticals := criticalLog (duties.history s.emptied ds)
    (t.rptQueue.count.toNat = min reports.length reportQueueLen ∧
      t.rptQueue.fromOldest = lastOf reportQueueLen reports) ∧
    (t.critQueue.queue.count.toNat = min criticals.length criticalQueueLen ∧
      t.critQueue.queue.fromOldest = lastOf criticalQueueLen criticals) ∧
    ∀ startIdx totNum bus,
      ((∀ p, (t.multipleReport startIdx totNum bus).2 = some p →
          Exact reportLayout.size (clampedStart t.rptQueue.count startIdx totNum)
            (lastOf reportQueueLen reports) p) ↔
        (Sendable totNum reportLayout.size bus →
          InRange t.rptQueue.count startIdx totNum)) ∧
      ((∀ p, (t.multipleCritical startIdx totNum bus).2 = some p →
          Exact criticalLayout.size (clampedStart t.critQueue.queue.count startIdx totNum)
            (lastOf criticalQueueLen criticals) p) ↔
        (Sendable totNum criticalLayout.size bus →
          InRange t.critQueue.queue.count startIdx totNum)) := by
  intro t reports criticals
  obtain ⟨hrpt, hcrit⟩ := logged_run s.logged_emptied ds
  obtain ⟨hrcount, hrlist, hrok⟩ := hrpt.spec
  obtain ⟨hccount, hclist, hcok⟩ := hcrit.spec
  refine ⟨⟨hrcount, hrlist⟩, ⟨hccount, hclist⟩, fun startIdx totNum bus => ⟨?_, ?_⟩⟩
  · rw [← hrlist]
    refine multiple_exact_iff hrok (by decide) (by decide) ?_
    rw [UInt8.toNat_ofNat_of_lt', Nat.mod_mod]
    exact Nat.lt_of_lt_of_le (Nat.mod_lt _ (by decide)) (by decide)
  · rw [← hclist]
    refine multiple_exact_iff hcok (by decide) (by decide) ?_
    -- the index is not reduced here, but it still fits a byte
    rw [UInt8.toNat_ofNat_of_lt']
    have hhead : t.critQueue.queue.head.toNat < criticalQueueLen := hcok.1
    simp only [criticalQueueLen, UInt8.size] at hhead ⊢
    omega

/-- One report is in the queue and two are asked for: the packet has one, and a size for two. -/
theorem packet_size_untrimmed :
    let t := duties.run blankApp.emptied [.enqueue zeroReport false .done]
    ∃ p, (t.multipleReport 0 2 ⟨true, success, success⟩).2 = some p ∧
      p.size ≠ telemetryHeaderSize + p.records.length * reportLayout.size := by
  exact ⟨_, rfl, by decide⟩

end Rpt
end FlightApps
