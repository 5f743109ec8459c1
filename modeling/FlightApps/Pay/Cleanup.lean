import FlightApps.Pay.Truthful

/-!
# A download cleans up

Whatever the payload, the links and the file functions answer, a download makes a bounded number of
calls (`atMost_downloadChildTask`) and leaves nothing behind (`settled_downloadChildTask`).  All of
this is read off the calls it has made.
-/

set_option autoImplicit false

namespace FlightApps
namespace Pay

open Script

/-! ## What the calls say -/

/-- How often a chunk has been attempted. -/
def attempts (i : UInt32) (log : List Event) : Nat :=
  log.countP fun e => e.call = .set .ftPartLoad i

def pollsNext (n : Nat) (e : Event) : Nat :=
  match e.call with
  | .set .ftPartLoad _ => 0
  | .fetch .ftPartReady => n + 1
  | _ => n

/-- How often it has been asked whether a part is ready, in the last attempt. -/
def polls (log : List Event) : Nat := log.foldl pollsNext 0

def heldNext (ids : List Nat) : Event → List Nat
  | ⟨.openCreate _ _, (status, id)⟩ => if status = success then id :: ids else ids
  | ⟨.close fd, _⟩ => ids.filter fun id => (id : Int) ≠ fd
  | _ => ids

/-- What has been opened and not closed. -/
def held (log : List Event) : List Nat := log.foldl heldNext []

/-- The file has been loaded. -/
def Event.loads : Event → Bool
  | ⟨.set .ftFileLoad _, status⟩ => status = success
  | _ => false

/-- `ft_release` has been written. -/
def Event.releases (e : Event) : Bool :=
  match e.call with
  | .set .ftRelease _ => true
  | _ => false

/-- What is left behind by a download that has ended. -/
structure Settled (log : List Event) : Prop where
  attempts : ∀ i, attempts i log ≤ 4
  polls : ∀ pre, pre <+: log → polls pre ≤ 501
  held : held log = []
  releases : log.countP Event.releases = if log.any Event.loads then 1 else 0
  report : ∃ pre e, log = pre ++ [e] ∧ Unreported pre ∧ e.IsReport

/-- The world in which everything may be answered. -/
def anything : World Call Call.Reply (List Event) :=
  ⟨fun _ _ _ => True, fun log c r => log ++ [⟨c, r⟩]⟩

theorem anything_next (log : List Event) (c : Call) (r : c.Reply) :
    anything.next log c r = log ++ [⟨c, r⟩] := rfl

section Snoc

variable (log : List Event) (e : Event)

theorem attempts_snoc (i : UInt32) :
    attempts i (log ++ [e]) = attempts i log + if e.call = .set .ftPartLoad i then 1 else 0 := by
  rw [attempts, List.countP_append, List.countP_singleton]
  simp only [decide_eq_true_eq]
  rfl

theorem polls_snoc : polls (log ++ [e]) = pollsNext (polls log) e := List.foldl_append

theorem held_snoc : held (log ++ [e]) = heldNext (held log) e := List.foldl_append

end Snoc

/-! ## On the way -/

/-- A download on its way: the chunks before `n` are done with, the chunk `n` has been attempted `k`
times, and at most `fd` is open. -/
structure Going (loaded : Bool) (fd : Int) (n k : Nat) (log : List Event) : Prop where
  attempts : ∀ i : UInt32, attempts i log ≤ if i.toNat < n then 4 else if i.toNat = n then k else 0
  polls : ∀ pre, pre <+: log → polls pre ≤ 501
  held : ∀ id ∈ held log, (id : Int) = fd
  loads : log.any Event.loads = loaded
  releases : log.countP Event.releases = 0
  report : Unreported log

/-- The calls that none of this is about. -/
def Call.Plain : Call → Prop
  | .fetch p => p ≠ .ftPartReady
  | .fetchName | .fetchI2cAddr | .i2cRead .. | .serialRead _ | .lseekEnd _ | .write .. | .stat _ => True
  | _ => False

theorem prefix_snoc {P : List Event → Prop} {log : List Event} {e : Event}
    (h : ∀ pre, pre <+: log → P pre) (he : P (log ++ [e])) : ∀ pre, pre <+: log ++ [e] → P pre := by
  intro pre hpre
  rcases List.prefix_concat_iff.1 hpre with rfl | hpre
  · exact he
  · exact h pre hpre

namespace Going

variable {loaded : Bool} {fd fd' : Int} {n k : Nat} {log : List Event}

/-- One more event that loads no file and attempts no chunk. -/
theorem snoc (h : Going loaded fd n k log) {e : Event}
    (hload : ∀ i, e.call ≠ .set .ftPartLoad i) (hpolls : Pay.polls (log ++ [e]) ≤ 501)
    (hheld : ∀ id ∈ heldNext (Pay.held log) e, (id : Int) = fd') (hloads : e.loads = false)
    (hreleases : e.releases = false) (hreport : ¬e.IsReport) :
    Going loaded fd' n k (log ++ [e]) where
  attempts i := by rw [attempts_snoc, if_neg (hload i)]; exact h.attempts i
  polls := prefix_snoc h.polls hpolls
  held := by rw [held_snoc]; exact hheld
  loads := by rw [List.any_append, h.loads, List.any_cons, hloads]; exact Bool.or_false loaded
  releases := by
    rw [List.countP_append, h.releases, List.countP_singleton, hreleases]
    rfl
  report := h.report.snoc hreport

theorem plain (h : Going loaded fd n k log) {c : Call} (hc : c.Plain) (r : c.Reply) :
    Going loaded fd n k (log ++ [⟨c, r⟩]) := by
  have hpolls : Pay.polls (log ++ [⟨c, r⟩]) = Pay.polls log := by
    rw [polls_snoc]
    cases c with
    | fetch p => cases p <;> first | rfl | exact absurd rfl hc
    | set p value => exact absurd hc id
    | _ => rfl
  have hheld : heldNext (Pay.held log) ⟨c, r⟩ = Pay.held log := by
    cases c <;> first | rfl | exact absurd hc id
  refine h.snoc ?_ ?_ ?_ ?_ ?_ ?_
  · rintro i rfl
    exact hc
  · rw [hpolls]
    exact h.polls log List.prefix_rfl
  · rw [hheld]
    exact h.held
  all_goals cases c <;> first | rfl | exact id | exact absurd hc id

/-- The chunk is attempted once more. -/
theorem partLoad (h : Going loaded fd n k log) (hn : n < 2 ^ 32) (status : Status) :
    Going loaded fd n (k + 1) (log ++ [⟨.set .ftPartLoad (UInt32.ofNat n), status⟩]) := by
  refine ⟨fun i => ?_, prefix_snoc h.polls ?_, ?_, ?_, ?_, h.report.snoc id⟩
  · rw [attempts_snoc]
    have hi := h.attempts i
    by_cases heq : UInt32.ofNat n = i
    · have hval : i.toNat = n := by rw [← heq, UInt32.toNat_ofNat_of_lt' hn]
      rw [if_neg (Nat.not_lt.2 (Nat.le_of_eq hval.symm)), if_pos hval] at hi
      rw [if_neg (Nat.not_lt.2 (Nat.le_of_eq hval.symm)), if_pos hval, heq, if_pos rfl]
      exact Nat.succ_le_succ hi
    · have hval : i.toNat ≠ n := fun hval =>
        heq (UInt32.toNat_inj.1 ((UInt32.toNat_ofNat_of_lt' hn).trans hval.symm))
      rw [if_neg hval] at hi
      rw [if_neg hval, if_neg fun hcall => heq (Call.set.inj hcall).2]
      exact hi
  · rw [polls_snoc]
    exact Nat.zero_le 501
  · rw [held_snoc]
    exact h.held
  · rw [List.any_append, h.loads]
    exact Bool.or_false loaded
  · rw [List.countP_append, h.releases]
    rfl

/-- It is asked once more whether the part is ready. -/
theorem poll (h : Going loaded fd n k log) (hpolls : Pay.polls log < 501)
    (r : Status × UInt32) :
    Going loaded fd n k (log ++ [⟨.fetch .ftPartReady, r⟩]) ∧
      Pay.polls (log ++ [⟨.fetch .ftPartReady, r⟩]) = Pay.polls log + 1 := by
  have hnext : Pay.polls (log ++ [⟨.fetch .ftPartReady, r⟩]) = Pay.polls log + 1 := polls_snoc ..
  refine ⟨h.snoc ?_ ?_ h.held rfl rfl id, hnext⟩
  · exact fun i => Call.noConfusion
  · rw [hnext]
    exact hpolls

/-- The chunk is done with. -/
theorem chunk (h : Going loaded fd n k log) (hk : k ≤ 4) : Going loaded fd (n + 1) 0 log := by
  refine ⟨fun i => ?_, h.polls, h.held, h.loads, h.releases, h.report⟩
  have hi := h.attempts i
  split at hi
  · rw [if_pos (by omega)]
    exact hi
  split at hi
  · rw [if_pos (by omega)]
    omega
  · rw [if_neg (by omega)]
    omega

theorem attempts_le (h : Going loaded fd n k log) (hk : k ≤ 4) (i : UInt32) :
    Pay.attempts i log ≤ 4 := by
  have hi := h.attempts i
  split at hi
  · exact hi
  split at hi
  · omega
  · omega

/-- Nothing is open after this. -/
theorem close (h : Going loaded fd n k log) : Going loaded fd' n k (log ++ [⟨.close fd, ()⟩]) := by
  refine h.snoc (fun i => Call.noConfusion) ?_ ?_ rfl rfl id
  · rw [polls_snoc]
    exact h.polls log List.prefix_rfl
  · intro id hid
    obtain ⟨hmem, hne⟩ := List.mem_filter.1 hid
    exact absurd (h.held id hmem) (of_decide_eq_true hne)

/-- With a negative number nothing is open. -/
theorem closed (h : Going loaded fd n k log) (hfd : ¬0 ≤ fd) : Going loaded fd' n k log :=
  { h with held := fun id hid => absurd (h.held id hid ▸ Int.natCast_nonneg id) hfd }

theorem held_nil (h : ∀ fd, Going loaded fd n k log) : Pay.held log = [] :=
  List.eq_nil_iff_forall_not_mem.2 fun id hid => absurd
    (((h 0).held id hid).symm.trans ((h 1).held id hid)) (by decide)

theorem opened (h : ∀ fd, Going loaded fd n k log) (path : Path) (truncate : Bool)
    (status : Status) (id : Nat) :
    Going loaded id n k (log ++ [⟨.openCreate path truncate, (status, id)⟩]) := by
  have hnone := held_nil h
  refine (h id).snoc (fun i => Call.noConfusion) ?_ ?_ rfl rfl fun h => h
  · rw [polls_snoc]
    exact (h id).polls log List.prefix_rfl
  · rw [hnone]
    show ∀ x ∈ (if status = success then [id] else []), (x : Int) = id
    split
    · exact fun x hx => congrArg Int.ofNat (List.mem_singleton.1 hx)
    · exact fun _ hmem => absurd hmem List.not_mem_nil

end Going

/-! ## Reading a part -/

theorem only_readExpI2CChunk (handle : Bool) (size : Nat) :
    Only Call.Plain (readExpI2CChunk handle size) := by
  rw [readExpI2CChunk]
  split
  · exact .done _
  refine .call trivial fun r => ?_
  dsimp only
  split
  · exact .done _
  · exact .call trivial fun _ => .done _

theorem only_readPartI2C (handle : Bool) (chunkSize expectedFileSize i npart partSize : UInt32) :
    Only Call.Plain (readPartI2C handle chunkSize expectedFileSize i npart partSize) := by
  rw [readPartI2C]
  split
  · exact .done _
  split
  · exact .done _
  dsimp only
  generalize (if partSize < expectedFileSize - i * chunkSize then partSize
    else expectedFileSize - i * chunkSize) = valid
  split
  · exact .done _
  refine (only_readExpI2CChunk handle _).bind fun r => ?_
  split
  · exact .done _
  · exact .done _

theorem only_readExpRS422Bytes (command : Bool) (offset n : Nat) :
    Only Call.Plain (readExpRS422Bytes command offset n) := by
  induction n generalizing offset with
  | zero => exact .done _
  | succ n ih =>
    refine .call trivial fun r => ?_
    dsimp only
    split
    · exact .done _
    · exact (ih _).bind fun _ => .done _

theorem only_readExpRS422Chunk (handle : Bool) (size : Nat) :
    Only Call.Plain (readExpRS422Chunk handle size) := by
  rw [readExpRS422Chunk]
  split
  · exact .done _
  refine (only_readExpRS422Bytes true 0 rs422HeaderSize).bind fun r => ?_
  dsimp only
  split
  · exact .done _
  split
  · exact .done _
  split
  · exact .done _
  · exact (only_readExpRS422Bytes false 0 _).bind fun _ => .done _

theorem only_readPartRS422 (handle : Bool) (chunkSize expectedFileSize i npart partSize : UInt32) :
    Only Call.Plain (readPartRS422 handle chunkSize expectedFileSize i npart partSize) := by
  rw [readPartRS422]
  split
  · exact .done _
  refine (only_readExpRS422Chunk handle _).bind fun r => ?_
  dsimp only
  split
  · exact .done _
  · exact .done _

theorem only_readPart (link : Link) (handle : Bool)
    (chunkSize expectedFileSize i npart partSize : UInt32) :
    Only Call.Plain (readPart link handle chunkSize expectedFileSize i npart partSize) := by
  cases link with
  | i2c => exact only_readPartI2C handle chunkSize expectedFileSize i npart partSize
  | rs422 => exact only_readPartRS422 handle chunkSize expectedFileSize i npart partSize

/-! ## From call to call -/

/-- What a `goto FILE_CLEANUP` finds. -/
def Gone (v : Vars) (log : List Event) : Prop := ∃ n k, k ≤ 4 ∧ Going true v.fd n k log

/-- What comes of loading chunks. -/
def GoesTo (n : Nat) (r : Loaded) (log : List Event) : Prop :=
  match r with
  | .more t => Going true t.fd n 0 log
  | .leave v => Gone v log

section Goes

variable {loaded : Bool} {fd : Int} {f : Fixed} {n k : Nat} {t : Totals} {log : List Event}

theorem goes_closeIfOpen {α : Type} {Q : α → List Event → Prop} {c : Task α}
    (h : Going loaded fd n k log)
    (hQ : ∀ log', (∀ fd', Going loaded fd' n k log') → wp anything Q c log') :
    wp anything Q (closeIfOpen fd c) log := by
  rw [closeIfOpen]
  split
  · exact fun _ _ => hQ _ fun _ => h.close
  · rename_i hfd
    exact hQ log fun _ => h.closed hfd

theorem goes_waitReady (left : Nat) (h : Going loaded fd n k log) (hpolls : polls log + left < 501) :
    wp anything (fun _ => Going loaded fd n k) (waitReady left) log := by
  induction left generalizing log with
  | zero => exact fun r _ => (h.poll hpolls r).1
  | succ left ih =>
    intro r _
    have hpoll := h.poll (by omega) r
    rw [anything_next]
    dsimp only
    split
    · exact hpoll.1
    split
    · exact ih hpoll.1 (by rw [hpoll.2]; omega)
    · exact hpoll.1

theorem goes_reopen (h : ∀ fd, Going true fd n 0 log) :
    wp anything (GoesTo n) (reopen f t) log := by
  rintro ⟨status, id⟩ -
  have hopened := Going.opened h f.filepath false status id
  dsimp only
  split
  · exact ⟨n, 0, Nat.zero_le 4, hopened⟩
  intro status _
  have hseek := hopened.plain (c := .lseekEnd id) trivial status
  dsimp only
  split
  · exact ⟨n, 0, Nat.zero_le 4, hseek⟩
  · exact hseek

theorem goes_flush (h : Going true t.fd n 0 log) (i : UInt32) :
    wp anything (GoesTo n) (flush f i t) log := by
  rw [flush]
  split
  · exact goes_closeIfOpen h fun _ hclosed => goes_reopen hclosed
  · exact h

theorem goes_store (h : Going true t.fd n k log) (hk : k ≤ 4) (i : UInt32) (block : List UInt8) :
    wp anything (GoesTo (n + 1)) (store f i t block) log := by
  intro written _
  have hwrote := h.plain (c := .write t.fd block) trivial written
  dsimp only
  split
  · exact ⟨n, k, hk, hwrote⟩
  · exact goes_flush (t := ⟨updateCRC32 t.totalCrc block, t.totalWritten + written.toUInt32, t.fd⟩)
      (hwrote.chunk hk) i

/-- What an attempt comes to. -/
def TriedTo (t : Totals) (n k : Nat) (r : Option Loaded) (log : List Event) : Prop :=
  match r with
  | none => Going true t.fd n k log
  | some r => GoesTo (n + 1) r log

theorem goes_attempt (h : Going true t.fd n k log) (hk : k < 4) (hn : n < 2 ^ 32) :
    wp anything (TriedTo t n (k + 1)) (attempt f (UInt32.ofNat n) t) log := by
  intro status _
  have hload := h.partLoad hn status
  rw [anything_next]
  dsimp only
  split
  · exact hload
  rw [wp_bind]
  have hpolls : polls (log ++ [⟨.set .ftPartLoad (UInt32.ofNat n), status⟩]) = 0 := polls_snoc ..
  refine wp_mono (goes_waitReady 500 hload (by rw [hpolls]; decide)) fun ready log₁ hready => ?_
  split
  · exact hready
  intro r _
  have hsize := hready.plain (c := .fetch .ftPartSize) Param.noConfusion r
  dsimp only
  split
  · exact hsize
  rw [wp_bind]
  refine wp_mono ((only_readPart f.link f.handle _ _ _ _ _).keeps
    (I := Going true t.fd n (k + 1)) (fun _ _ r hc h => h.plain hc r) hsize) fun part log₂ hread => ?_
  cases part with
  | retry => exact hread
  | leave status => exact ⟨n, k + 1, hk, hread⟩
  | got block crc validCrc =>
    intro r _
    have hcrc := hread.plain (c := .fetch .ftPartCrc32) Param.noConfusion r
    dsimp only
    split
    · exact ⟨n, k + 1, hk, hcrc⟩
    split
    · exact hcrc
    rw [wp_bind]
    exact goes_store hcrc hk _ block

theorem goes_loadChunk (left : Nat) (h : Going true t.fd n k log) (hk : k + left = 4)
    (hn : n < 2 ^ 32) :
    wp anything (GoesTo (n + 1)) (loadChunk f (UInt32.ofNat n) t left) log := by
  induction left generalizing k log with
  | zero => exact ⟨n, k, Nat.le_of_eq hk, h⟩
  | succ left ih =>
    rw [loadChunk, wp_bind]
    refine wp_mono (goes_attempt h (by omega) hn) fun r log' hr => ?_
    cases r with
    | none => exact ih hr (by omega)
    | some r => exact hr

theorem goes_loadChunks (left : Nat) (h : Going true t.fd n 0 log) (hn : n + left < 2 ^ 32) :
    wp anything (fun r log => ∃ n, GoesTo n r log) (loadChunks f left (UInt32.ofNat n) t) log := by
  induction left generalizing log n t with
  | zero => exact ⟨n, h⟩
  | succ left ih =>
    rw [loadChunks, wp_bind]
    refine wp_mono (goes_loadChunk 4 h rfl (by omega)) fun r log' hr => ?_
    cases r with
    | leave v => exact ⟨n + 1, hr⟩
    | more t' =>
      have hnext : UInt32.ofNat n + 1 = UInt32.ofNat (n + 1) := (UInt32.ofNat_add n 1).symm
      show wp anything _ (loadChunks f left (UInt32.ofNat n + 1) t') log'
      rw [hnext]
      exact ih hr (by omega)

end Goes

/-! ## The end -/

section Ending

variable {fd : Int} {n k : Nat} {log : List Event}

theorem settled_taskExit (hattempts : ∀ i, attempts i log ≤ 4)
    (hpolls : ∀ pre, pre <+: log → polls pre ≤ 501) (hheld : held log = [])
    (hreleases : log.countP Event.releases = if log.any Event.loads then 1 else 0)
    (hreport : Unreported log) (link : Link) (v : Vars) :
    wp anything (fun _ => Settled) (taskExit link v) log := by
  intro _ _
  rw [anything_next]
  refine ⟨fun i => ?_, prefix_snoc hpolls ?_, ?_, ?_, log, _, rfl, hreport, trivial⟩
  · rw [attempts_snoc, if_neg Call.noConfusion]
    exact hattempts i
  · rw [polls_snoc]
    exact hpolls log List.prefix_rfl
  · rw [held_snoc, hheld]
    rfl
  · rw [List.countP_append, List.any_append, hreleases, Bool.or_eq_left_iff_imp.2 Bool.noConfusion]
    rfl

theorem goes_fileCleanup {v : Vars} (h : Gone v log) (link : Link) :
    wp anything (fun _ => Settled) (fileCleanup link v) log := by
  obtain ⟨n, k, hk, h⟩ := h
  refine goes_closeIfOpen h fun log' hclosed => ?_
  intro releaseStatus _
  rw [anything_next]
  refine settled_taskExit (fun i => ?_) (prefix_snoc (hclosed 0).polls ?_) ?_ ?_ ?_ link _
  · rw [attempts_snoc, if_neg fun hcall => SetParam.noConfusion (Call.set.inj hcall).1]
    exact (hclosed 0).attempts_le hk i
  · rw [polls_snoc]
    exact (hclosed 0).polls log' List.prefix_rfl
  · rw [held_snoc]
    exact Going.held_nil hclosed
  · rw [List.countP_append, List.any_append, (hclosed 0).releases, (hclosed 0).loads]
    rfl
  · exact (hclosed 0).report.snoc fun h => h

theorem goes_checkSize {f : Fixed} {t : Totals} (h : Going true t.fd n k log) (hk : k ≤ 4)
    (startChunk : UInt32) (status : Status) :
    wp anything (fun _ => Settled) (checkSize f startChunk t status) log := by
  refine goes_closeIfOpen h fun log' hclosed => ?_
  intro r _
  have hstat := fun fd => (hclosed fd).plain (c := .stat f.filepath) trivial r
  exact goes_fileCleanup ⟨n, k, hk, hstat _⟩ f.link

theorem goes_checkFile {f : Fixed} {t : Totals} (h : Going true t.fd n k log) (hk : k ≤ 4)
    (startChunk : UInt32) :
    wp anything (fun _ => Settled) (checkFile f startChunk t) log := by
  rw [checkFile]
  split
  · intro r _
    have hcrc := h.plain (c := .fetch .ftFileCrc32) Param.noConfusion r
    dsimp only
    split
    · exact goes_fileCleanup ⟨n, k, hk, hcrc⟩ f.link
    split
    · exact goes_fileCleanup ⟨n, k, hk, hcrc⟩ f.link
    · exact goes_checkSize hcrc hk startChunk _
  · exact goes_checkSize h hk startChunk _

theorem goes_transfer (startChunk npart : UInt32) (hlt : startChunk < npart)
    (h : Going true fd startChunk.toNat 0 log) (link : Link) (handle : Bool) (chunkSize : UInt32)
    (path : Path) :
    wp anything (fun _ => Settled) (transfer link handle chunkSize npart startChunk path fd) log := by
  intro r _
  have hsize := h.plain (c := .fetch .ftFileSize) Param.noConfusion r
  dsimp only
  split
  · exact goes_fileCleanup ⟨_, 0, Nat.zero_le 4, hsize⟩ link
  have hsum : startChunk.toNat + (npart - startChunk).toNat < 2 ^ 32 := by
    have hle := UInt32.lt_iff_toNat_lt.1 hlt
    rw [UInt32.toNat_sub_of_le _ _ (UInt32.le_of_lt hlt)]
    have hbound := npart.toNat_lt
    omega
  have hchunks := goes_loadChunks (f := ⟨link, handle, chunkSize, npart, path, r.2⟩)
    (t := ⟨0xFFFFFFFF, 0, fd⟩) (npart - startChunk).toNat hsize hsum
  rw [UInt32.ofNat_toNat] at hchunks
  rw [wp_bind]
  refine wp_mono hchunks ?_
  rintro r log' ⟨n', hr⟩
  cases r with
  | more t => exact goes_checkFile hr (Nat.zero_le 4) startChunk
  | leave v => exact goes_fileCleanup hr link

theorem goes_openFile (startChunk npart : UInt32) (hlt : startChunk < npart)
    (h : ∀ fd, Going true fd startChunk.toNat 0 log) (link : Link) (handle : Bool)
    (chunkSize : UInt32) (path : Path) :
    wp anything (fun _ => Settled) (openFile link handle chunkSize npart startChunk path) log := by
  rintro ⟨status, id⟩ -
  have hopened := Going.opened h path (startChunk = 0) status id
  dsimp only
  split
  · exact goes_fileCleanup ⟨_, 0, Nat.zero_le 4, hopened⟩ link
  split
  · exact goes_transfer startChunk npart hlt hopened link handle chunkSize path
  intro status _
  have hseek := hopened.plain (c := .lseekEnd id) trivial status
  dsimp only
  split
  · exact goes_fileCleanup ⟨_, 0, Nat.zero_le 4, hseek⟩ link
  · exact goes_transfer startChunk npart hlt hseek link handle chunkSize path

/-- A start, with no chunk attempted. -/
theorem Going.start (fd : Int) (n : Nat) : Going false fd n 0 [] :=
  ⟨fun i => Nat.zero_le _, fun pre hpre => by rw [List.prefix_nil.1 hpre]; exact Nat.zero_le 501,
    fun _ hmem => absurd hmem List.not_mem_nil, rfl, rfl, fun _ hmem => absurd hmem List.not_mem_nil⟩

theorem Going.exit (h : ∀ fd, Going false fd n 0 log) (link : Link) (v : Vars) :
    wp anything (fun _ => Settled) (taskExit link v) log := by
  refine settled_taskExit ((h 0).attempts_le (Nat.zero_le 4)) (h 0).polls (Going.held_nil h) ?_
    (h 0).report link v
  rw [(h 0).releases, (h 0).loads]
  rfl

/-- The load of the file has been written. -/
theorem Going.fileLoad (h : Going false fd n k log) (index : UInt32) (status : Status) :
    Going (status = success) fd n k (log ++ [⟨.set .ftFileLoad index, status⟩]) := by
  refine ⟨fun i => ?_, prefix_snoc h.polls ?_, ?_, ?_, ?_, h.report.snoc fun h => h⟩
  · rw [attempts_snoc, if_neg fun hcall => SetParam.noConfusion (Call.set.inj hcall).1]
    exact h.attempts i
  · rw [polls_snoc]
    exact h.polls log List.prefix_rfl
  · rw [held_snoc]
    exact h.held
  · rw [List.any_append, h.loads]
    exact Bool.or_false _
  · rw [List.countP_append, h.releases]
    rfl

/-- **A download leaves nothing behind**, whatever is answered. -/
theorem settled_downloadChildTask (link : Link) (handle : Bool) (fileIndex startChunk : UInt32) :
    wp anything (fun _ => Settled) (downloadChildTask link handle fileIndex startChunk) [] := by
  intro r _
  have hchunk := fun fd => (Going.start fd startChunk.toNat).plain (c := .fetch .ftChunkSize)
    Param.noConfusion r
  rw [anything_next]
  dsimp only
  split
  · exact Going.exit hchunk link _
  split
  · exact Going.exit hchunk link _
  intro status _
  have hload := fun fd => (hchunk fd).fileLoad fileIndex status
  rw [anything_next]
  dsimp only
  split
  · rename_i hstatus
    rw [decide_eq_false hstatus] at hload
    exact Going.exit hload link _
  rename_i hstatus
  rw [decide_eq_true (not_not.1 hstatus)] at hload
  rintro ⟨status', npart⟩ -
  have hnpart := fun fd => (hload fd).plain (c := .fetch .ftFileNpart) Param.noConfusion
    (status', npart)
  dsimp only
  split
  · exact goes_fileCleanup ⟨_, 0, Nat.zero_le 4, hnpart _⟩ link
  split
  · exact goes_fileCleanup ⟨_, 0, Nat.zero_le 4, hnpart _⟩ link
  rename_i hlt
  intro r _
  have hname := fun fd => (hnpart fd).plain (c := .fetchName) trivial r
  dsimp only
  split
  · exact goes_fileCleanup ⟨_, 0, Nat.zero_le 4, hname _⟩ link
  · exact goes_openFile startChunk npart (UInt32.not_le.1 hlt) hname link handle _ _

end Ending

/-! ## How many calls -/

theorem atMost_readExpRS422Bytes (command : Bool) (offset n : Nat) :
    AtMost n (readExpRS422Bytes command offset n) := by
  induction n generalizing offset with
  | zero => exact .done 0 _
  | succ n ih =>
    refine .call fun r => ?_
    dsimp only
    split
    · exact .done _ _
    · exact (ih _).bind (m := 0) fun _ => .done 0 _

/-- A frame fits the buffer, so no more bytes are read than that. -/
theorem atMost_readExpRS422Chunk (handle : Bool) (size : Nat) :
    AtMost size (readExpRS422Chunk handle size) := by
  rw [readExpRS422Chunk]
  split
  · exact .done _ _
  rename_i hsize
  have hle : rs422HeaderSize + (size - rs422HeaderSize) = size :=
    Nat.add_sub_of_le (Nat.le_of_succ_le (Nat.le_of_not_lt fun hlt => hsize (Or.inr hlt)))
  rw [← hle]
  refine (atMost_readExpRS422Bytes true 0 rs422HeaderSize).bind fun r => ?_
  dsimp only
  rw [hle]
  split
  · exact .done _ _
  split
  · exact .done _ _
  split
  · exact .done _ _
  rename_i hfits
  refine ((atMost_readExpRS422Bytes false 0 _).bind (m := 0) fun _ => .done 0 _).mono ?_
  have hover : rs422OverheadSize = rs422HeaderSize + 1 := rfl
  omega

theorem atMost_readPart (link : Link) (handle : Bool)
    (chunkSize expectedFileSize i npart partSize : UInt32) :
    AtMost 1024 (readPart link handle chunkSize expectedFileSize i npart partSize) := by
  cases link with
  | i2c =>
    refine AtMost.mono (n := 2) ?_ (by decide)
    show AtMost 2 (readPartI2C handle chunkSize expectedFileSize i npart partSize)
    rw [readPartI2C]
    split
    · exact .done _ _
    split
    · exact .done _ _
    dsimp only
    generalize (if partSize < expectedFileSize - i * chunkSize then partSize
      else expectedFileSize - i * chunkSize) = valid
    split
    · exact .done _ _
    refine AtMost.bind (n := 2) (m := 0) ?_ fun r => ?_
    · rw [readExpI2CChunk]
      split
      · exact .done _ _
      refine .call fun r => ?_
      dsimp only
      split
      · exact .done _ _
      · exact .call fun _ => .done 0 _
    · split
      · exact .done _ _
      · exact .done _ _
  | rs422 =>
    show AtMost 1024 (readPartRS422 handle chunkSize expectedFileSize i npart partSize)
    rw [readPartRS422]
    split
    · exact .done _ _
    refine (atMost_readExpRS422Chunk handle chunkBufferSize.toNat).bind (m := 0) fun r => ?_
    dsimp only
    split
    · exact .done _ _
    · exact .done _ _

theorem atMost_waitReady (left : Nat) : AtMost (left + 1) (waitReady left) := by
  induction left with
  | zero => exact .call fun _ => .done 0 _
  | succ left ih =>
    refine .call fun r => ?_
    dsimp only
    split
    · exact .done _ _
    split
    · exact ih
    · exact .done _ _

theorem atMost_closeIfOpen {α : Type} {n : Nat} {fd : Int} {t : Task α} (h : AtMost n t) :
    AtMost (n + 1) (closeIfOpen fd t) := by
  rw [closeIfOpen]
  split
  · exact .call fun _ => h
  · exact h.mono (Nat.le_succ n)

theorem atMost_store (f : Fixed) (i : UInt32) (t : Totals) (block : List UInt8) :
    AtMost 4 (store f i t block) := by
  refine .call fun written => ?_
  split
  · exact .done _ _
  rw [flush]
  split
  · refine atMost_closeIfOpen (.call fun r => ?_)
    dsimp only
    split
    · exact .done _ _
    refine .call fun status => ?_
    split
    · exact .done 0 _
    · exact .done 0 _
  · exact .done _ _

theorem atMost_attempt (f : Fixed) (i : UInt32) (t : Totals) : AtMost 1532 (attempt f i t) := by
  refine .call fun status => ?_
  dsimp only
  split
  · exact .done _ _
  refine (atMost_waitReady 500).bind (m := 1030) fun ready => ?_
  split
  · exact .done _ _
  refine .call fun r => ?_
  split
  · exact .done _ _
  refine (atMost_readPart f.link f.handle _ _ _ _ _).bind (m := 5) fun part => ?_
  cases part with
  | retry => exact .done _ _
  | leave status => exact .done _ _
  | got block crc validCrc =>
    refine .call fun r => ?_
    split
    · exact .done _ _
    split
    · exact .done _ _
    · exact (atMost_store f i t block).bind (m := 0) fun _ => .done 0 _

theorem atMost_loadChunk (f : Fixed) (i : UInt32) (t : Totals) (left : Nat) :
    AtMost (1532 * left) (loadChunk f i t left) := by
  induction left with
  | zero => exact .done 0 _
  | succ left ih =>
    rw [Nat.mul_succ, Nat.add_comm]
    refine (atMost_attempt f i t).bind fun r => ?_
    cases r with
    | none => exact ih
    | some r => exact .done _ _

/-- The calls for one chunk. -/
def callsPerChunk : Nat := 1532 * 4

theorem atMost_loadChunks (f : Fixed) (left : Nat) (i : UInt32) (t : Totals) :
    AtMost (callsPerChunk * left) (loadChunks f left i t) := by
  induction left generalizing i t with
  | zero => exact .done 0 _
  | succ left ih =>
    rw [Nat.mul_succ, Nat.add_comm]
    refine (atMost_loadChunk f i t 4).bind fun r => ?_
    cases r with
    | more t => exact ih _ t
    | leave v => exact .done _ _

theorem atMost_fileCleanup (link : Link) (v : Vars) : AtMost 3 (fileCleanup link v) :=
  atMost_closeIfOpen (.call fun _ => .call fun _ => .done 0 _)

theorem atMost_checkFile (f : Fixed) (startChunk : UInt32) (t : Totals) :
    AtMost 6 (checkFile f startChunk t) := by
  have hsize : ∀ status, AtMost 5 (checkSize f startChunk t status) := fun status =>
    atMost_closeIfOpen (.call fun _ => atMost_fileCleanup _ _)
  rw [checkFile]
  split
  · refine .call fun r => ?_
    dsimp only
    split
    · exact (atMost_fileCleanup _ _).mono (by decide)
    split
    · exact (atMost_fileCleanup _ _).mono (by decide)
    · exact hsize _
  · exact (hsize _).mono (by decide)

/-- The calls of a download with so many chunks, at most. -/
def callsPerDownload (chunks : Nat) : Nat := callsPerChunk * chunks + 13

theorem atMost_transfer (link : Link) (handle : Bool) (chunkSize npart startChunk : UInt32)
    (path : Path) (fd : Int) {chunks : Nat} (hchunks : (npart - startChunk).toNat ≤ chunks) :
    AtMost (callsPerChunk * chunks + 7)
      (transfer link handle chunkSize npart startChunk path fd) := by
  refine .call fun r => ?_
  dsimp only
  split
  · exact (atMost_fileCleanup _ _).mono (Nat.le_add_left 3 _)
  refine AtMost.bind (m := 6) ((atMost_loadChunks _ _ startChunk _).mono ?_) fun r => ?_
  · exact Nat.mul_le_mul_left _ hchunks
  · cases r with
    | more t => exact atMost_checkFile _ startChunk t
    | leave v => exact (atMost_fileCleanup link v).mono (by decide)

/-- **A download ends**, whatever is answered. -/
theorem atMost_downloadChildTask (link : Link) (handle : Bool) (fileIndex startChunk : UInt32)
    {chunks : Nat} (hchunks : ∀ npart : UInt32, npart.toNat ≤ chunks) :
    AtMost (callsPerDownload chunks) (downloadChildTask link handle fileIndex startChunk) := by
  have hexit : ∀ v n, AtMost (n + 1) (taskExit link v) := fun v n => .call fun _ => .done _ _
  have hcleanup : ∀ v n, AtMost (n + 3) (fileCleanup link v) := fun v n =>
    (atMost_fileCleanup link v).mono (Nat.le_add_left 3 n)
  rw [callsPerDownload]
  refine .call fun r => ?_
  dsimp only
  split
  · exact hexit _ _
  split
  · exact hexit _ _
  refine .call fun status => ?_
  split
  · exact hexit _ _
  refine .call fun r => ?_
  split
  · exact hcleanup _ _
  split
  · exact hcleanup _ _
  refine .call fun r => ?_
  split
  · exact hcleanup _ _
  refine .call fun r => ?_
  dsimp only
  split
  · exact hcleanup _ _
  split
  · exact (atMost_transfer link handle _ _ startChunk _ _ (hchunks _)).mono (Nat.le_succ _)
  refine .call fun status => ?_
  split
  · exact hcleanup _ _
  · exact atMost_transfer link handle _ _ startChunk _ _ (hchunks _)

end Pay
end FlightApps
