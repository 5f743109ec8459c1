import FlightApps.Lib.Machine
import FlightApps.Pay.Cleanup

/-!
# One download at a time

The two download commands and the child task share three globals.  A command may arrive between any
two calls of the child task.  From the acceptance of a command to the end of its child task every
further one is turned away (`Living.turnedAway`), so the child reads what was accepted, and
`download_settles` follows the whole of a download.
-/

set_option autoImplicit false

namespace FlightApps
namespace Pay

open Script

/-- Where a child task is. -/
inductive Stage
  | created
  /-- It has read `PAY_SLT_TargetFileIndex`. -/
  | indexed (fileIndex : UInt32)
  | running (task : Task Unit)

/-- A child task, with the calls it has made. -/
structure Child where
  link : Link
  stage : Stage
  log : List Event

/-- The globals of the downloads, and the child task. -/
structure Node where
  targetFileIndex : UInt32
  downloadStartChunk : UInt32
  downloadInProgress : Bool
  child : Option Child

inductive Input
  /-- `PAY_SLT_DownloadFileI2CCmd` or `PAY_SLT_DownloadFileRS422Cmd`, and what
  `CFE_ES_CreateChildTask` answers if it is called. -/
  | command (link : Link) (fileIndex startChunk : UInt32) (created : Status)
  /-- The child task moves on, with an answer to its next call; `handle` says that the handle of its
  link is there. -/
  | child (handle : Bool) (answer : (c : Call) → c.Reply)

def Input.isChild : Input → Bool
  | .child .. => true
  | .command .. => false

inductive Answer
  /-- `PAY_SLT_HandleReport` of a command, with its payload. -/
  | handleReport (status : Status) (link : Link) (fileIndex startChunk : UInt32)
  /-- `PAY_SLT_SendDownloadResult` of a command, without a path. -/
  | sendDownloadResult (status : Status) (link : Link)
  | moved
  /-- The child task has ended, with these calls. -/
  | ended (log : List Event)

namespace Node

def start : Node := ⟨0, 0, false, none⟩

/-- `PAY_SLT_DownloadFileI2CCmd` and `PAY_SLT_DownloadFileRS422Cmd`. -/
def downloadFileCmd (n : Node) (link : Link) (fileIndex startChunk : UInt32) (created : Status) :
    Node × Answer :=
  if n.downloadInProgress then (n, .handleReport requestAlreadyPending link fileIndex startChunk)
  else
    let n := { n with
      targetFileIndex := fileIndex, downloadStartChunk := startChunk, downloadInProgress := true }
    if created = success then
      ({ n with child := some ⟨link, .created, []⟩ }, .handleReport success link fileIndex startChunk)
    else ({ n with downloadInProgress := false }, .sendDownloadResult created link)

/-- The next move of the child task. -/
def childMoves (n : Node) (handle : Bool) (answer : (c : Call) → c.Reply) : Node × Answer :=
  match n.child with
  | none => (n, .moved)
  | some ⟨link, .created, log⟩ =>
    ({ n with child := some ⟨link, .indexed n.targetFileIndex, log⟩ }, .moved)
  | some ⟨link, .indexed fileIndex, log⟩ =>
    ({ n with
      child := some ⟨link, .running (downloadChildTask link handle fileIndex n.downloadStartChunk),
        log⟩ }, .moved)
  | some ⟨link, .running (.call c k), log⟩ =>
    ({ n with child := some ⟨link, .running (k (answer c)), log ++ [⟨c, answer c⟩]⟩ }, .moved)
  | some ⟨_, .running (.done ()), log⟩ =>
    ({ n with downloadInProgress := false, child := none }, .ended log)

def machine : Machine Node Input Answer where
  step n
    | .command link fileIndex startChunk created =>
      n.downloadFileCmd link fileIndex startChunk created
    | .child handle answer => n.childMoves handle answer

end Node

/-! ## A child task -/

/-- What has been accepted. -/
structure Accepted where
  link : Link
  fileIndex : UInt32
  startChunk : UInt32

/-- These are all calls of the download that was accepted. -/
def Accepted.Makes (a : Accepted) (log : List Event) : Prop :=
  ∃ handle, Ends anything [] (downloadChildTask a.link handle a.fileIndex a.startChunk) log ()

/-- A task ends as the download that was accepted. -/
def Accepted.Runs (a : Accepted) (log : List Event) (task : Task Unit) : Prop :=
  ∃ handle, ∀ log', Ends anything log task log' () →
    Ends anything [] (downloadChildTask a.link handle a.fileIndex a.startChunk) log' ()

/-- A child task of the download that was accepted, with at most this many moves to come. -/
def Accepted.Owns (a : Accepted) (moves : Nat) (c : Child) : Prop :=
  c.link = a.link ∧ match c.stage with
  | .created => c.log = [] ∧ moves = callsPerDownload (2 ^ 32) + 2
  | .indexed fileIndex => fileIndex = a.fileIndex ∧ c.log = [] ∧
    moves = callsPerDownload (2 ^ 32) + 1
  | .running task => a.Runs c.log task ∧ AtMost moves task

/-- A download lives. -/
structure Living (a : Accepted) (moves : Nat) (n : Node) : Prop where
  index : n.targetFileIndex = a.fileIndex
  chunk : n.downloadStartChunk = a.startChunk
  flag : n.downloadInProgress = true
  child : ∃ c, n.child = some c ∧ a.Owns moves c

theorem Accepted.makes_settled {a : Accepted} {log : List Event} (h : a.Makes log) : Settled log := by
  obtain ⟨handle, hends⟩ := h
  exact wp_iff.1 (settled_downloadChildTask a.link handle a.fileIndex a.startChunk) log () hends

namespace Living

variable {a : Accepted} {moves : Nat} {n : Node}

/-- Every further command is turned away, and changes nothing. -/
theorem turnedAway (h : Living a moves n) (link : Link) (fileIndex startChunk : UInt32)
    (created : Status) :
    Node.machine.step n (.command link fileIndex startChunk created) =
      (n, .handleReport requestAlreadyPending link fileIndex startChunk) :=
  if_pos h.flag

/-- What the child task does next: it ends as it should, or there is one move less to come. -/
theorem moves_on (h : Living a moves n) (handle : Bool) (answer : (c : Call) → c.Reply) :
    (∃ log, Node.machine.step n (.child handle answer) =
        ({ n with downloadInProgress := false, child := none }, .ended log) ∧ a.Makes log) ∨
      ((Node.machine.step n (.child handle answer)).2 = .moved ∧
        ∃ left, moves = left + 1 ∧ Living a left (Node.machine.step n (.child handle answer)).1) := by
  obtain ⟨index, chunk, flag, child⟩ := n
  obtain ⟨rfl, rfl, hflag, ⟨link, stage, log⟩, rfl, rfl, hstage⟩ := h
  cases stage with
  | created =>
    obtain ⟨rfl, hmoves⟩ := hstage
    exact Or.inr ⟨rfl, _, hmoves, rfl, rfl, hflag, _, rfl, rfl, rfl, rfl, rfl⟩
  | indexed fileIndex =>
    obtain ⟨rfl, rfl, hmoves⟩ := hstage
    refine Or.inr ⟨rfl, _, hmoves, rfl, rfl, hflag, _, rfl, rfl, ⟨handle, fun _ h => ?_⟩, ?_⟩
    · exact h
    · exact atMost_downloadChildTask _ handle _ _ fun npart => Nat.le_of_lt npart.toNat_lt
  | running task =>
    obtain ⟨⟨handle, hruns⟩, hmost⟩ := hstage
    cases task with
    | done => exact Or.inl ⟨log, rfl, handle, hruns log (.done log ())⟩
    | call c k =>
      obtain ⟨left, rfl, hleft⟩ := hmost.pred
      refine Or.inr ⟨rfl, left, rfl, rfl, rfl, hflag, _, rfl, rfl, ⟨handle, fun log' h => ?_⟩, ?_⟩
      · exact hruns log' (.call (answer c) trivial h)
      · exact hleft (answer c)

end Living

/-- A command is accepted. -/
theorem living_accepted (n : Node) (h : n.downloadInProgress = false) (a : Accepted) :
    Living a (callsPerDownload (2 ^ 32) + 2)
      (Node.machine.step n (.command a.link a.fileIndex a.startChunk success)).1 := by
  have hstep : Node.machine.step n (.command a.link a.fileIndex a.startChunk success) =
      (⟨a.fileIndex, a.startChunk, true, some ⟨a.link, .created, []⟩⟩,
        .handleReport success a.link a.fileIndex a.startChunk) := by
    show (if n.downloadInProgress then _ else _) = _
    rw [h]
    rfl
  rw [hstep]
  exact ⟨rfl, rfl, rfl, _, rfl, rfl, rfl, rfl⟩

/-- As long as the child task does not end, the download lives. -/
theorem Living.run {a : Accepted} {moves : Nat} {n : Node} (h : Living a moves n) (is : List Input)
    (hends : ∀ log, .ended log ∉ Node.machine.answers n is) :
    ∃ left, is.countP Input.isChild + left = moves ∧ Living a left (Node.machine.run n is) := by
  induction is generalizing n moves with
  | nil => exact ⟨moves, Nat.zero_add moves, h⟩
  | cons i is ih =>
    have hrest : ∀ log, .ended log ∉ Node.machine.answers (Node.machine.step n i).1 is :=
      fun log hmem => hends log (List.mem_cons_of_mem _ hmem)
    cases i with
    | command link fileIndex startChunk created =>
      rw [h.turnedAway] at hrest
      obtain ⟨left, hcount, hliving⟩ := ih h hrest
      refine ⟨left, hcount, ?_⟩
      rw [Machine.run, h.turnedAway]
      exact hliving
    | child handle answer =>
      rcases h.moves_on handle answer with ⟨log, hstep, -⟩ | ⟨-, left, rfl, hstep⟩
      · refine absurd ?_ (hends log)
        rw [Machine.answers, hstep]
        exact List.mem_cons_self
      · obtain ⟨left', hcount, hliving⟩ := ih hstep hrest
        refine ⟨left', ?_, hliving⟩
        rw [List.countP_cons_of_pos rfl]
        omega

/-- **Every download ends and cleans up.**  From its acceptance until its child task ends, further
commands of either kind are turned away and change nothing, and the child task makes a bounded
number of moves; when it ends, the flag is down and what it has called leaves nothing behind. -/
theorem download_settles (before : List Input) (a : Accepted)
    (hidle : (Node.machine.run Node.start before).downloadInProgress = false) (is : List Input)
    (n m : Node) (haccepted : n = (Node.machine.step (Node.machine.run Node.start before)
      (.command a.link a.fileIndex a.startChunk success)).1)
    (hends : ∀ log, .ended log ∉ Node.machine.answers n is) (hrun : m = Node.machine.run n is) :
    (m.downloadInProgress = true ∧ m.targetFileIndex = a.fileIndex ∧
      m.downloadStartChunk = a.startChunk) ∧
    (∀ link fileIndex startChunk created,
      Node.machine.step m (.command link fileIndex startChunk created) =
        (m, .handleReport requestAlreadyPending link fileIndex startChunk)) ∧
    is.countP Input.isChild ≤ callsPerDownload (2 ^ 32) + 2 ∧
    ∀ handle answer log, (Node.machine.step m (.child handle answer)).2 = .ended log →
      (Node.machine.step m (.child handle answer)).1.downloadInProgress = false ∧
      a.Makes log ∧ Settled log := by
  subst haccepted hrun
  obtain ⟨left, hcount, h⟩ := (living_accepted _ hidle a).run is hends
  refine ⟨⟨h.flag, h.index, h.chunk⟩, h.turnedAway, by omega, fun handle answer log hlog => ?_⟩
  rcases h.moves_on handle answer with ⟨log', hstep, hmakes⟩ | ⟨hmoved, -⟩
  · rw [hstep] at hlog ⊢
    obtain rfl := Answer.ended.inj hlog
    exact ⟨rfl, hmakes, Accepted.makes_settled hmakes⟩
  · rw [hmoved] at hlog
    exact Answer.noConfusion hlog

theorem download_settles_turnedAway :
    (Node.machine.run Node.start
      [.command .i2c 3 1 success, .command .rs422 7 0 success]).targetFileIndex = 3 := by
  have hends : ∀ log, Answer.ended log ∉ [Answer.handleReport requestAlreadyPending .rs422 7 0] :=
    fun log hmem => Answer.noConfusion (List.mem_singleton.1 hmem)
  exact (download_settles [] ⟨.i2c, 3, 1⟩ rfl [.command .rs422 7 0 success] _ _ rfl hends rfl).1.2.1

end Pay
end FlightApps
