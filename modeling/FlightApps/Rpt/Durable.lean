import Mathlib.Data.List.Induction
import FlightApps.Rpt.Queues
import FlightApps.Rpt.Start

/-!
# The critical queue over resets

`RPT_Enqueue` stores the critical queue with every entry, so a reset finds it as it was.  The clear
command does not: it clears the memory and leaves the file.  After it, and until the next entry, the
file is `Stale`, and a reset brings back what was cleared.

With every file operation a success, the file is always one of three things (`CritOk`): empty
beside an empty queue, the queue, or a queue that has been cleared.
-/

set_option autoImplicit false

namespace FlightApps
namespace Rpt

/-- The queue was cleared, and the file still has what was in it. -/
def Stale (s : App) : Prop := s.critQueue.queue.count = 0 ∧ s.critFile ≠ []

/-- The file of the critical queue and the queue. -/
def CritOk (s : App) : Prop :=
  (s.critFile = [] ∧ s.critQueue = zeroCriticalQueue) ∨
  ∃ q : CriticalQueue, q.crc = q.calcCRC ∧ q.queue.count ≠ 0 ∧
    s.critFile = criticalQueueLayout.bytes q ∧
    (s.critQueue = q ∨ s.critQueue = zeroCriticalQueue)

theorem CritOk.length_critFile {s : App} (h : CritOk s) :
    s.critFile.length ≤ criticalQueueLayout.size := by
  rcases h with ⟨hfile, -⟩ | ⟨q, -, -, hfile, -⟩
  · rw [hfile]
    exact Nat.zero_le _
  · rw [hfile, Layout.length_bytes]

theorem put_count_ne_zero {α : Type} (q : Queue α criticalQueueLen) (a : α) :
    (q.put a).count ≠ 0 := by
  intro h
  have hput := Queue.put_count (q := q) (by decide) a
  rw [h] at hput
  have hzero : (0 : UInt8).toNat = 0 := rfl
  have hlen : criticalQueueLen = 40 := rfl
  rw [hzero] at hput
  split at hput <;> omega

theorem CritOk.enqueue {s : App} (h : CritOk s) (report : Report) (isCritical : Bool) :
    CritOk (s.enqueue report isCritical .done) := by
  cases isCritical with
  | true =>
    refine .inr ⟨{ s.critQueue with queue := s.critQueue.queue.put (s.stamped report) }.sealed, ?_,
      put_count_ne_zero _ _, ?_, .inl rfl⟩
    · exact (CriticalQueue.calcCRC_crc _ _).symm
    · exact congrArg Prod.fst (writeToFile_record criticalQueueLayout h.length_critFile _)
  | false => exact h

theorem CritOk.clear {s : App} (h : CritOk s) (isCritical : Bool) :
    CritOk (s.clearQueueCmd isCritical) := by
  cases isCritical with
  | true =>
    rcases h with ⟨hfile, -⟩ | ⟨q, hcrc, hcount, hfile, -⟩
    · exact .inl ⟨hfile, rfl⟩
    · exact .inr ⟨q, hcrc, hcount, hfile, .inr rfl⟩
  | false => exact h

theorem CritOk.boot {s : App} (h : CritOk s) {b : Boot} (hb : b.filesWork = true) :
    CritOk (s.init b).1 := by
  rw [init_works hb]
  rcases h with ⟨hfile, -⟩ | ⟨q, hcrc, hcount, hfile, -⟩
  · exact .inl ⟨hfile, restoredQueue_nil hfile⟩
  · exact .inr ⟨q, hcrc, hcount, hfile, .inl (restoredQueue_bytes hfile hcrc)⟩

theorem CritOk.act {s : App} (h : CritOk s) {op : Op} (hop : op.filesWork = true) :
    CritOk (s.act op).1 := by
  cases op with
  | duty d =>
    cases d with
    | enqueue report isCritical write =>
      have hw : write = .done := beq_iff_eq.1 hop
      rw [hw]
      exact h.enqueue report isCritical
    | clear isCritical => exact h.clear isCritical
    | report isCritical startIdx totNum bus => exact h
    | update u =>
      obtain ⟨-, hqueue, hfile⟩ := updateOperationData_queues s u
      simp only [CritOk, App.act, App.perform, hqueue, hfile]
      exact h
  | boot b => exact h.boot hop

/-- **A reset keeps the queue exactly if the file is not stale.** -/
theorem boot_queue_iff {s : App} (h : CritOk s) {b : Boot} (hb : b.filesWork = true) :
    (s.init b).1.critQueue.queue = s.critQueue.queue ↔ ¬Stale s := by
  rw [init_works hb]
  rcases h with ⟨hfile, hqueue⟩ | ⟨q, hcrc, hcount, hfile, hqueue⟩
  · have hstale : ¬Stale s := fun hs => hs.2 hfile
    rw [restoredQueue_nil hfile, hqueue]
    exact ⟨fun _ => hstale, fun _ => rfl⟩
  · rw [restoredQueue_bytes hfile hcrc]
    rcases hqueue with hqueue | hqueue
    · rw [Stale, hqueue]
      exact ⟨fun _ hs => hcount hs.1, fun _ => rfl⟩
    · have hfull : s.critFile ≠ [] := by
        intro hnil
        have hlen := Layout.length_bytes criticalQueueLayout q
        rw [← hfile, hnil] at hlen
        exact absurd hlen (by decide)
      rw [Stale, hqueue]
      refine ⟨fun heq => absurd ?_ hcount, fun hs => absurd ⟨rfl, hfull⟩ hs⟩
      rw [heq]
      rfl

/-- Clearing the queue after an entry makes the file stale. -/
theorem stale_of_clear (s : App) (report : Report) :
    Stale ((s.enqueue report true .done).clearQueueCmd true) := by
  refine ⟨rfl, fun hnil => ?_⟩
  have hlen := congrArg List.length hnil
  simp only [App.clearQueueCmd, App.enqueue, if_true, writeToFile, List.length_append,
    Layout.length_bytes, List.length_nil] at hlen
  exact absurd (Nat.eq_zero_of_add_eq_zero hlen).1 (by decide)

/-- Then a reset brings back what was cleared. -/
theorem boot_after_clear {s : App} (h : CritOk s) (report : Report) {b : Boot}
    (hb : b.filesWork = true) :
    (rpt.run s [.duty (.enqueue report true .done), .duty (.clear true), .boot b]).critQueue.queue ≠
      (rpt.run s [.duty (.enqueue report true .done), .duty (.clear true)]).critQueue.queue :=
  fun heq =>
    (boot_queue_iff ((h.enqueue report true).clear true) hb).1 heq (stale_of_clear s report)

/-! ## Runs -/

/-- After the first boot the queue and its file are empty. -/
theorem fresh_critQueue (s : App) {b : Boot} (hb : b.filesWork = true) :
    (s.fresh b).critFile = [] ∧ (s.fresh b).critQueue = zeroCriticalQueue := by
  have hfile : s.unused.critFile = [] := rfl
  have hqueue := restoredQueue_nil hfile
  rw [App.fresh, init_works hb]
  refine ⟨hfile, ?_⟩
  dsimp only
  exact hqueue

theorem critOk_run {s : App} (h : CritOk s) {ops : List Op}
    (hops : ∀ op ∈ ops, op.filesWork = true) : CritOk (rpt.run s ops) := by
  induction ops generalizing s with
  | nil => exact h
  | cons op ops ih =>
    exact ih (h.act (hops op List.mem_cons_self)) fun op' hop' =>
      hops op' (List.mem_cons_of_mem op hop')

/-- A reset tells nothing but the time. -/
theorem init_notes (s : App) (b : Boot) : ∀ n ∈ (s.init b).2.2, ∃ t, n = .setTime t := by
  have hops : ∀ s' : App, ∀ n ∈ (s'.opsDataInit b).2.2, ∃ t, n = .setTime t := by
    intro s' n hn
    simp only [App.opsDataInit] at hn
    split at hn
    · cases hn
    split at hn
    · cases hn
    split at hn
    · cases hn
    obtain ⟨t, -, ht⟩ := List.mem_map.1 hn
    exact ⟨t, ht.symm⟩
  intro n hn
  simp only [App.init] at hn
  split at hn
  · exact hops _ n hn
  · exact hops _ n hn

theorem criticalLog_append_setTime {ms : List Note} (ns : List Note)
    (h : ∀ n ∈ ms, ∃ t, n = .setTime t) : criticalLog (ns ++ ms) = criticalLog ns := by
  rw [criticalLog, List.foldl_append, ← criticalLog]
  generalize criticalLog ns = log
  induction ms with
  | nil => rfl
  | cons m ms ih =>
    obtain ⟨t, rfl⟩ := h m List.mem_cons_self
    exact ih fun n hn => h n (List.mem_cons_of_mem _ hn)

/-- No reset of a run comes upon a stale file. -/
def NoStaleReset (s : App) (ops : List Op) : Prop :=
  ∀ (pre : List Op) (b : Boot) (post : List Op), ops = pre ++ .boot b :: post →
    ¬Stale (rpt.run s pre)

/-- As long as no reset comes upon a stale file, the queue holds the log. -/
theorem criticalHolds_run {s : App} (hok : CritOk s) (h : s.critQueue.queue.Holds [])
    {ops : List Op} (hops : ∀ op ∈ ops, op.filesWork = true) (hfit : NoStaleReset s ops) :
    (rpt.run s ops).critQueue.queue.Holds (criticalLog (rpt.history s ops)) := by
  induction ops using List.reverseRecOn with
  | nil => exact h
  | append_singleton ops op ih =>
    have hops' : ∀ op' ∈ ops, op'.filesWork = true :=
      fun op' hop' => hops op' (List.mem_append_left _ hop')
    have hfit' : NoStaleReset s ops := by
      intro pre b post heq
      refine hfit pre b (post ++ [op]) ?_
      rw [heq, List.append_assoc, List.cons_append]
    have hbefore := ih hops' hfit'
    have hstep : rpt.history (rpt.run s ops) [op] = ((rpt.run s ops).act op).2 := by
      rw [Machine.history_cons, Machine.history_nil, List.append_nil]
      rfl
    rw [Machine.run_append, Machine.history_append, hstep]
    cases op with
    | duty d => exact criticalHolds_perform hbefore d
    | boot b =>
      have hb : b.filesWork = true := hops (.boot b) (List.mem_append_right _ List.mem_cons_self)
      have hkeep := (boot_queue_iff (critOk_run hok hops') hb).2 (hfit ops b [] rfl)
      have hlog := criticalLog_append_setTime (rpt.history s ops) (init_notes (rpt.run s ops) b)
      have hact : (rpt.run s ops).act (.boot b) =
          (((rpt.run s ops).init b).1, ((rpt.run s ops).init b).2.2) := rfl
      rw [hact, hlog]
      exact (congrArg (Queue.Holds · _) hkeep).mpr hbefore

/-- **When the critical queue is durable.**  In a run from the first boot on, in which every file
operation succeeds: every reset leaves the queue as it was exactly if no reset comes upon a stale
file.  Then the queue always holds the last entries since it was cleared, resets or not. -/
theorem critical_queue_durable (s : App) (b : Boot) (ops : List Op) (hb : b.filesWork = true)
    (hops : ∀ op ∈ ops, op.filesWork = true) :
    ((∀ (pre : List Op) (b' : Boot) (post : List Op), ops = pre ++ .boot b' :: post →
        (rpt.run (s.fresh b) (pre ++ [.boot b'])).critQueue.queue =
          (rpt.run (s.fresh b) pre).critQueue.queue) ↔
      NoStaleReset (s.fresh b) ops) ∧
    (NoStaleReset (s.fresh b) ops →
      (rpt.run (s.fresh b) ops).critQueue.queue.count.toNat =
          min (criticalLog (rpt.history (s.fresh b) ops)).length criticalQueueLen ∧
        (rpt.run (s.fresh b) ops).critQueue.queue.fromOldest =
          lastOf criticalQueueLen (criticalLog (rpt.history (s.fresh b) ops))) := by
  have hfresh := fresh_critQueue s hb
  have hok : CritOk (s.fresh b) := .inl hfresh
  refine ⟨?_, fun hfit => ?_⟩
  · refine forall₄_congr fun pre b' post heq => ?_
    have hpre : ∀ op ∈ pre, op.filesWork = true := fun op hop =>
      hops op (heq ▸ List.mem_append_left _ hop)
    have hb' : b'.filesWork = true :=
      hops (.boot b') (heq ▸ List.mem_append_right _ List.mem_cons_self)
    rw [Machine.run_append]
    exact boot_queue_iff (critOk_run hok hpre) hb'
  · have hempty : (s.fresh b).critQueue.queue.Holds [] := by
      rw [hfresh.2]
      exact Queue.holds_zero zeroCritical
    obtain ⟨hcount, hlist, -⟩ := (criticalHolds_run hok hempty hops hfit).spec
    exact ⟨hcount, hlist⟩

theorem critical_queue_durable_oneEntry :
    let ops : List Op := [.duty (.enqueue zeroReport true .done), .boot (powerOn ⟨2, 0⟩)]
    ((powerOn ⟨1, 0⟩).filesWork = true ∧ ∀ op ∈ ops, op.filesWork = true) ∧
      ((∀ (pre : List Op) (b' : Boot) (post : List Op), ops = pre ++ .boot b' :: post →
          (rpt.run (blankApp.fresh (powerOn ⟨1, 0⟩)) (pre ++ [.boot b'])).critQueue.queue =
            (rpt.run (blankApp.fresh (powerOn ⟨1, 0⟩)) pre).critQueue.queue) ↔
        NoStaleReset (blankApp.fresh (powerOn ⟨1, 0⟩)) ops) := by
  intro ops
  have hops : ∀ op ∈ ops, op.filesWork = true := by decide
  exact ⟨⟨rfl, hops⟩, (critical_queue_durable blankApp (powerOn ⟨1, 0⟩) ops rfl hops).1⟩

/-- A report is put in the critical queue, the queue is cleared, and the next reset brings the
report back. -/
theorem cleared_report_reappears :
    (rpt.run (blankApp.fresh (powerOn ⟨1, 0⟩)) [.duty (.enqueue zeroReport true .done),
        .duty (.clear true), .boot (powerOn ⟨2, 0⟩)]).critQueue.queue ≠
      (rpt.run (blankApp.fresh (powerOn ⟨1, 0⟩)) [.duty (.enqueue zeroReport true .done),
        .duty (.clear true)]).critQueue.queue := by
  have hok : CritOk (blankApp.fresh (powerOn ⟨1, 0⟩)) := .inl (fresh_critQueue blankApp rfl)
  exact boot_after_clear hok zeroReport rfl

end Rpt
end FlightApps
