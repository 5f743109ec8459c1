import FlightApps.Ftp.Threads

/-!
# The buffers of a session of the FTP-NEW server

A handler gets the packet that was read, and may get further buffers from the pool.  Each is
released by sending it, if `csp_send` takes it, or by freeing it.  `Released` says that the effects
of a step release each buffer that they get once.

All handlers do but one: at the end of `ftp_handler_status_reply` an error code packet that has been
sent is freed as well.  `connection_accounted_iff` puts it together with what `Sessions` says about
files: a run has no leak and no double release exactly if no error code is sent.
-/

set_option autoImplicit false

namespace FlightApps
namespace Ftp

/-! ## Counting -/

/-- How often an effect gets a buffer. -/
def Effect.gets (b : Nat) : Effect → Nat
  | .got b' => if b' = b then 1 else 0
  | _ => 0

/-- How often an effect releases it. -/
def Effect.releases (b : Nat) : Effect → Nat
  | .sent b' _ => if b' = b then 1 else 0
  | .freed b' => if b' = b then 1 else 0
  | _ => 0

/-- How often a buffer is got. -/
def gets (b : Nat) (es : List Effect) : Nat := (es.map (Effect.gets b)).sum

/-- How often it is released. -/
def releases (b : Nat) (es : List Effect) : Nat := (es.map (Effect.releases b)).sum

/-- **Each buffer that is got is released once.** -/
def Released (es : List Effect) : Prop := ∀ b, gets b es ≤ 1 ∧ releases b es = gets b es

@[simp] theorem gets_nil (b : Nat) : gets b [] = 0 := rfl

@[simp] theorem releases_nil (b : Nat) : releases b [] = 0 := rfl

@[simp] theorem gets_cons (b : Nat) (e : Effect) (es : List Effect) :
    gets b (e :: es) = e.gets b + gets b es := by
  rw [gets, List.map_cons, List.sum_cons, gets]

@[simp] theorem releases_cons (b : Nat) (e : Effect) (es : List Effect) :
    releases b (e :: es) = e.releases b + releases b es := by
  rw [releases, List.map_cons, List.sum_cons, releases]

@[simp] theorem gets_append (b : Nat) (es es' : List Effect) :
    gets b (es ++ es') = gets b es + gets b es' := by
  rw [gets, List.map_append, List.sum_append, gets, gets]

@[simp] theorem releases_append (b : Nat) (es es' : List Effect) :
    releases b (es ++ es') = releases b es + releases b es' := by
  rw [releases, List.map_append, List.sum_append, releases, releases]

/-- Effects that are not about buffers do not count. -/
theorem counts_of_not_buffer {es : List Effect} (h : ∀ e ∈ es, ¬e.Buffer) (b : Nat) :
    gets b es = 0 ∧ releases b es = 0 := by
  induction es with
  | nil => exact ⟨rfl, rfl⟩
  | cons e es ih =>
    rw [List.forall_mem_cons] at h
    obtain ⟨hgets, hreleases⟩ := ih h.2
    rw [gets_cons, releases_cons, hgets, hreleases]
    have he := h.1
    cases e <;> first | exact ⟨rfl, rfl⟩ | exact absurd trivial he

/-! ## Handlers that answer or drop -/

/-- The handler ends with the packet that was read, which is sent or freed, and touches no buffer
before. -/
def Handled.Answers (h : Handled) : Prop :=
  ∃ es e, h.effects = es ++ [e] ∧ (∀ e ∈ es, ¬e.Buffer) ∧
    (e = .freed 0 ∨ ∃ reply, e = .sent 0 reply)

theorem Handled.Answers.released {h : Handled} (ha : h.Answers) :
    Released (.got 0 :: h.effects) := by
  obtain ⟨es, e, heffects, hes, he⟩ := ha
  intro b
  obtain ⟨hgets, hreleases⟩ := counts_of_not_buffer hes b
  rw [heffects, gets_cons, releases_cons, gets_append, releases_append, hgets, hreleases]
  rcases he with rfl | ⟨reply, rfl⟩
  · simp only [Effect.gets, Effect.releases, gets_cons, gets_nil, releases_cons, releases_nil]
    split <;> exact ⟨by omega, rfl⟩
  · simp only [Effect.gets, Effect.releases, gets_cons, gets_nil, releases_cons, releases_nil]
    split <;> exact ⟨by omega, rfl⟩

theorem answer_answers {s : Session} {es : List Effect} (hes : ∀ e ∈ es, ¬e.Buffer) {o : Outcomes}
    {reply : Reply} {ret : Ret} : (answer s es o reply ret).Answers := by
  obtain ⟨e, heffects, he⟩ := answer_effects s es o reply ret
  exact ⟨es, e, heffects, hes, he.elim (fun h => .inr ⟨reply, h.1⟩) fun h => .inl h.1⟩

theorem dropData_answers {s : Session} {es : List Effect} (hes : ∀ e ∈ es, ¬e.Buffer) (ret : Ret) :
    (dropData s es ret).Answers := ⟨es, _, rfl, hes, .inl rfl⟩

theorem initUpload_not_buffer (chunks : Nat) (o : Outcomes) :
    ∀ e ∈ (initUpload chunks o).effects, ¬e.Buffer := by
  rw [initUpload]
  dsimp only
  split_ifs <;> simp [clearCells, Effect.Buffer, or_imp, forall_and]

theorem uploadRequest_answers (s : Session) (size : UInt32) (chunkSize : UInt16) (o : Outcomes) :
    (uploadRequest s size chunkSize o).Answers := by
  rw [uploadRequest]
  split
  · exact answer_answers (by simp)
  split
  · exact answer_answers (by simp)
  · exact answer_answers (List.forall_mem_cons.2 ⟨id, initUpload_not_buffer _ o⟩)

theorem scanEffects_not_buffer (file : UploadFile) : ∀ e ∈ scanEffects file, ¬e.Buffer := by
  intro e he
  rcases List.mem_append.1 he with he | he
  · obtain ⟨i, -, he⟩ := List.mem_flatMap.1 he
    rcases List.mem_pair.1 he with rfl | rfl <;> exact id
  · obtain ⟨i, -, rfl⟩ := List.mem_map.1 he
    exact id

theorem statusRequest_answers (s : Session) (o : Outcomes) : (statusRequest s o).Answers := by
  rw [statusRequest]
  split
  · exact answer_answers (by simp)
  · exact answer_answers (scanEffects_not_buffer s.upload)

theorem dataHandler_answers (s : Session) (chunk : UInt32) (bytes : List UInt8) (o : Outcomes) :
    (dataHandler s chunk bytes o).Answers := by
  rw [dataHandler]
  dsimp only
  split_ifs <;> exact dropData_answers (by simp [Effect.Buffer]) _

theorem downloadRequest_answers (s : Session) (chunkSize : UInt16) (memAddr memSize : UInt32)
    (o : Outcomes) : (downloadRequest s chunkSize memAddr memSize o).Answers := by
  rw [downloadRequest]
  dsimp only
  split
  · exact answer_answers (by simp)
  split
  · exact answer_answers (by simp)
  split
  · exact answer_answers (by simp [Effect.Buffer])
  split
  · exact answer_answers (by simp [Effect.Buffer])
  split <;> exact answer_answers (by simp [Effect.Buffer])

theorem crcRequest_answers (s : Session) (o : Outcomes) : (crcRequest s o).Answers := by
  rw [crcRequest]
  split <;> exact answer_answers (by simp [Effect.Buffer])

theorem closeIf_not_buffer (open? : Bool) (r : Resource) :
    ∀ e ∈ closeIf open? r, ¬e.Buffer := by
  rw [closeIf]
  split <;> simp [Effect.Buffer]

theorem doneHandler_answers (s : Session) : (doneHandler s).Answers := by
  rw [doneHandler]
  split
  · exact ⟨[], _, rfl, by simp, .inl rfl⟩
  · exact ⟨_, _, rfl, closeIf_not_buffer _ _, .inl rfl⟩
  · refine ⟨_, _, rfl, ?_, .inl rfl⟩
    simp only [List.forall_mem_append]
    refine ⟨⟨⟨closeIf_not_buffer _ _, closeIf_not_buffer _ _⟩, closeIf_not_buffer _ _⟩, ?_⟩
    split <;> simp [Effect.Buffer]

theorem cleanup_not_buffer (s : Session) : ∀ e ∈ cleanup s, ¬e.Buffer := by
  simp only [cleanup, List.forall_mem_append]
  exact ⟨⟨⟨closeIf_not_buffer _ _, closeIf_not_buffer _ _⟩, closeIf_not_buffer _ _⟩,
    closeIf_not_buffer _ _⟩

/-! ## Status replies -/

/-- A buffer that is at hand. -/
def held (b : Nat) (buffer : Option Nat) : Nat := if buffer = some b then 1 else 0

/-- Whether a buffer is one of those of the data packets from `k` to `n`. -/
def between (k n b : Nat) : Nat := if k ≤ b ∧ b < n then 1 else 0

/-- **The books of the loops** from `k` data packets on, one buffer at a time: the buffers of the
data packets that were sent are got and released, and the one at hand is got. -/
structure Ledger (k : Nat) (r : Streamed) : Prop where
  le : k ≤ r.sent
  buffer : r.buffer = none ∨ r.buffer = some r.sent
  got : ∀ b, gets b r.effects + held b (atHand k) = between k r.sent b + held b r.buffer
  released : ∀ b, releases b r.effects = between k r.sent b
  returns : r.returns = true → r.buffer = none

variable {file : DownloadFile} {o : Outcomes}

theorem held_atHand (b k : Nat) : held b (atHand k) = if k = 0 ∧ b = 0 then 1 else 0 := by
  rw [held, atHand]
  split_ifs <;> simp_all

/-- What is done for a chunk gets its buffer. -/
theorem chunkEffects_counts (b k c : Nat) :
    gets b (chunkEffects file o k c) + held b (atHand k) = (if k = b then 1 else 0) ∧
      releases b (chunkEffects file o k c) = 0 := by
  have hlast : ∀ e ∈ lastEffects file c, ¬e.Buffer := by
    rw [lastEffects]
    split <;> simp [Effect.Buffer]
  have hread : ∀ e ∈ readData file o (dataSize file c) k, ¬e.Buffer := by
    rw [readData]
    split <;> simp [Effect.Buffer]
  obtain ⟨hlast, hlast'⟩ := counts_of_not_buffer hlast b
  obtain ⟨hread, hread'⟩ := counts_of_not_buffer hread b
  rw [chunkEffects, gets_append, gets_append, releases_append, releases_append, hlast, hread,
    hlast', hread', held_atHand]
  by_cases hk : k = 0
  · subst hk
    simp [eq_comm]
  · simp [hk, Effect.gets, Effect.releases]

theorem between_self (k b : Nat) : between k k b = 0 := if_neg (by omega)

theorem between_succ {k n : Nat} (h : k + 1 ≤ n) (b : Nat) :
    between k n b = (if k = b then 1 else 0) + between (k + 1) n b := by
  rw [between, between]
  split_ifs <;> omega

theorem atHand_cases (k : Nat) : atHand k = none ∨ atHand k = some k := by
  rw [atHand]
  split
  · rename_i hk
    exact .inr (congrArg some hk.symm)
  · exact .inl rfl

/-- The loops end before anything was done for the next data packet. -/
theorem ledger_nil (ret : Ret) (k : Nat) : Ledger k ⟨ret, atHand k, k, false, []⟩ where
  le := Nat.le_refl k
  buffer := atHand_cases k
  got b := by rw [gets_nil, between_self]
  released b := by rw [releases_nil, between_self]
  returns h := absurd h (by simp)

theorem Ledger.entry {k : Nat} {r : Streamed} (h : Ledger k r) (i : Nat) :
    Ledger k (r.after [.entry i]) where
  le := h.le
  buffer := h.buffer
  got b := (congrArg (· + held b (atHand k)) (Nat.zero_add _)).trans (h.got b)
  released b := (Nat.zero_add _).trans (h.released b)
  returns := h.returns

theorem Ledger.pass {k : Nat} {r : Streamed} (h : Ledger (k + 1) r) (c : Nat) :
    Ledger k (r.after (chunkEffects file o k c ++ [.sent k (.data c)])) where
  le := Nat.le_of_succ_le h.le
  buffer := h.buffer
  got b := by
    have hchunk := (@chunkEffects_counts file o b k c).1
    have hafter := h.got b
    rw [held_atHand, if_neg (by omega)] at hafter
    simp only [Streamed.after, gets_append, gets_cons, gets_nil, Effect.gets]
    rw [between_succ h.le]
    omega
  released b := by
    have hchunk := (@chunkEffects_counts file o b k c).2
    simp only [Streamed.after, releases_append, releases_cons, releases_nil, Effect.releases]
    rw [between_succ h.le, hchunk, h.released b]
    omega
  returns := h.returns

theorem stopped_ledger (k c : Nat) : Ledger k (stopped file o k c) := by
  rw [stopped]
  split
  · exact ledger_nil _ k
  split
  · rename_i hnone
    have hlast : ∀ e ∈ lastEffects file c, ¬e.Buffer := by
      rw [lastEffects]
      split <;> simp [Effect.Buffer]
    refine ⟨Nat.le_refl k, .inl rfl, fun b => ?_, fun b => ?_, fun _ => rfl⟩
    · rw [(counts_of_not_buffer hlast b).1, between_self, held_atHand, if_neg (by tauto)]
      rfl
    · rw [(counts_of_not_buffer hlast b).2, between_self]
  · refine ⟨Nat.le_refl k, .inr rfl, fun b => ?_, fun b => ?_, fun h => absurd h (by simp)⟩
    · rw [(chunkEffects_counts b k c).1, between_self]
      simp [held]
    · rw [(chunkEffects_counts b k c).2, between_self]

theorem stream_ledger (k : Nat) (vs : List Visit) :
    Ledger k (stream file o vs (atHand k) k) := by
  refine stream_rule (M := fun k _ r => Ledger k r) ?_ ?_ ?_ ?_ k vs
  · exact ledger_nil .ok
  · exact fun k i vs r hr => hr.entry i
  · exact fun k c vs r _ hr => hr.pass c
  · exact fun k c vs _ => stopped_ledger k c

/-- The loops end with an error code to send, and a buffer for it. -/
def SendsError (r : Streamed) (o : Outcomes) : Prop :=
  r.returns = false ∧ r.ret ≠ .ok ∧ (r.buffer = none → o.getErrorBuffer = true)

/-- Without an error code that is sent, `statusrep_out` releases what is at hand and what it
gets. -/
theorem errorEffects_counts {r : Streamed} (hbuffer : r.buffer = none ∨ r.buffer = some r.sent)
    (hreturns : r.returns = false) (hsend : SendsError r o → o.send = false) (b : Nat) :
    gets b (errorEffects r o) + held b r.buffer ≤ (if r.sent = b then 1 else 0) ∧
      releases b (errorEffects r o) = gets b (errorEffects r o) + held b r.buffer := by
  rw [errorEffects]
  split
  · rcases hbuffer with hbuffer | hbuffer <;> rw [hbuffer] <;>
      simp [held, Effect.gets, Effect.releases]
  rename_i hret
  split
  · rename_i hnone
    simp [hnone.1, held]
  rename_i hcode
  have hsend : o.send = false := hsend ⟨hreturns, hret, fun hnone =>
    not_not.1 fun hbuf => hcode ⟨hnone, hbuf⟩⟩
  rcases hbuffer with hbuffer | hbuffer <;> rw [hbuffer, hsend] <;>
    simp [held, Effect.gets, Effect.releases]

/-- An error code that is sent is a buffer released twice. -/
theorem errorEffects_twice {r : Streamed} (h : SendsError r o) (hsend : o.send = true) :
    ∃ b, releases b (errorEffects r o) = 2 := by
  obtain ⟨-, hret, hbuffer⟩ := h
  refine ⟨r.buffer.getD r.sent, ?_⟩
  rw [errorEffects, if_neg hret, if_neg fun h => h.2 (hbuffer h.1), if_pos hsend]
  split <;> simp [Effect.releases]

/-- **A status reply releases its buffers** exactly if no error code is sent. -/
theorem loops_released_iff {r : Streamed} (h : Ledger 0 r) :
    Released (.got 0 :: (r.effects ++ if r.returns then [] else errorEffects r o)) ↔
      (SendsError r o → o.send = false) := by
  constructor
  · intro hall herror
    by_contra hsend
    rw [Bool.not_eq_false] at hsend
    obtain ⟨b, htwice⟩ := errorEffects_twice herror hsend
    obtain ⟨honce, hreleased⟩ := hall b
    rw [herror.1, if_neg (by decide)] at honce hreleased
    rw [releases_cons, releases_append, htwice] at hreleased
    omega
  · intro hsend b
    have hread : (Effect.got 0).gets b = held b (atHand 0) := by
      simp [Effect.gets, held, atHand]
    have hgot := h.got b
    have hreleased := h.released b
    have hbetween : between 0 r.sent b + (if r.sent = b then 1 else 0) ≤ 1 := by
      rw [between]
      split_ifs <;> omega
    rw [gets_cons, releases_cons, gets_append, releases_append, hread, hreleased,
      show (Effect.got 0).releases b = 0 from rfl]
    by_cases hreturns : r.returns = true
    · have hheld : held b r.buffer = 0 := by
        rw [h.returns hreturns]
        rfl
      rw [if_pos hreturns, gets_nil, releases_nil]
      omega
    · rw [if_neg hreturns]
      obtain ⟨honce, hboth⟩ :=
        errorEffects_counts h.buffer ((Bool.not_eq_true _).mp hreturns) hsend b
      omega

/-! ### Which status replies end with an error code -/

/-- A chunk ends the loops with an error code: it is none of the file's, or it cannot be found, read
or sent, and there is a buffer for the code. -/
def EndsWithError (file : DownloadFile) (o : Outcomes) (k c : Nat) : Prop :=
  if c < file.chunks then HasBuffer o k ∧ ¬Passes file o k c
  else k = 0 ∨ o.getErrorBuffer = true

theorem stopped_error_iff {k c : Nat} (h : ¬Passes file o k c) :
    SendsError (stopped file o k c) o ↔ EndsWithError file o k c := by
  rw [stopped, EndsWithError]
  split
  · rename_i hc
    rw [if_neg (Nat.not_lt.2 hc), SendsError, atHand_eq_none]
    simp only [ne_eq, reduceCtorEq, not_false_eq_true, true_and]
    tauto
  rename_i hc
  rw [if_pos (Nat.not_le.1 hc)]
  split
  · rename_i hnone
    refine iff_of_false (fun herror => ?_) fun herror => ?_
    · exact absurd herror.1 (by simp)
    · exact herror.1.elim hnone.1 hnone.2
  · rename_i hbuffer
    refine iff_of_true ⟨rfl, by simp, fun hnone => absurd hnone (by simp)⟩ ⟨?_, h⟩
    by_cases hk : k = 0
    · exact .inl hk
    · exact .inr (not_not.1 fun hnone => hbuffer ⟨hk, hnone⟩)

theorem passes_no_error {k c : Nat} (h : Passes file o k c) : ¬EndsWithError file o k c := by
  rw [EndsWithError, if_pos h.chunk]
  exact fun herror => herror.2 h

/-- A visit that does not end the loops with an error code. -/
def NoErrorAt (file : DownloadFile) (o : Outcomes) (k : Nat) : Visit → Prop
  | .entry _ => True
  | .chunk c => ¬EndsWithError file o k c

/-- None of the chunks that the loops come to ends them with an error code. -/
def NoError (file : DownloadFile) (o : Outcomes) (vs : List Visit) : Prop :=
  AllReached file o (NoErrorAt file o) 0 vs

theorem stream_error_iff (k : Nat) (vs : List Visit) :
    ¬SendsError (stream file o vs (atHand k) k) o ↔ AllReached file o (NoErrorAt file o) k vs := by
  refine stream_rule
    (M := fun k vs r => ¬SendsError r o ↔ AllReached file o (NoErrorAt file o) k vs)
    ?_ ?_ ?_ ?_ k vs
  · intro k
    exact iff_of_true (fun h => h.2.1 rfl) (allReached_nil k)
  · intro k i vs r hr
    rw [allReached_entry]
    exact hr.trans (and_iff_right trivial).symm
  · intro k c vs r hpass hr
    rw [allReached_pass hpass]
    exact hr.trans (and_iff_right (passes_no_error hpass)).symm
  · intro k c vs hstop
    rw [allReached_stop hstop, stopped_error_iff hstop, NoErrorAt]

/-- **When the handler of a packet sends no error code**, or is no handler of a status reply: a
status reply is for a download and all the chunks it comes to can be sent, or nothing is sent at
all. -/
def NoErrorCode (s : Session) (p : Packet) (o : Outcomes) : Prop :=
  match p with
  | .statusReply entries entry => o.send = true →
      s.state = .download ∧ NoError s.download o (visits entries entry)
  | _ => True

theorem statusReply_released_iff (s : Session) (entries : UInt16) (entry : Nat → UInt32 × UInt32) :
    Released (.got 0 :: (statusReply s entries entry o).effects) ↔
      NoErrorCode s (.statusReply entries entry) o := by
  rw [NoErrorCode]
  by_cases hstate : s.state = .download
  · rw [statusReply_download hstate, loops_released_iff (stream_ledger 0 _), NoError,
      ← stream_error_iff, and_iff_right hstate, ← not_imp_not, Bool.not_eq_false]
  · have hbusy : Ledger 0 ⟨.busy, some 0, 0, false, []⟩ := ledger_nil .busy 0
    have herror : SendsError ⟨.busy, some 0, 0, false, []⟩ o :=
      ⟨rfl, by simp, fun h => absurd h (by simp)⟩
    rw [statusReply_idle hstate]
    refine (loops_released_iff hbusy).trans ⟨fun h hsend => ?_, fun h _ => ?_⟩
    · rw [h herror] at hsend
      exact absurd hsend (by decide)
    · exact (Bool.not_eq_true _).mp fun hsend => hstate (h hsend).1

/-! ## Sessions -/

theorem handle_released_iff (s : Session) (p : Packet) (o : Outcomes) :
    ((handle s p o).2 ≠ .gone → Released (.got 0 :: (handle s p o).1.effects)) ↔
      NoErrorCode s p o := by
  have hanswers : ∀ {h : Handled}, h.Answers → (Next.reads ≠ .gone →
      Released (.got 0 :: h.effects)) := fun h _ => h.released
  rcases p with ⟨size, chunkSize⟩ | _ | ⟨chunk, bytes⟩ | ⟨chunkSize, memAddr, memSize⟩ |
    ⟨entries, entry⟩ | _ | _ | e | _
  · exact iff_of_true (hanswers (uploadRequest_answers s size chunkSize o)) trivial
  · exact iff_of_true (hanswers (statusRequest_answers s o)) trivial
  · exact iff_of_true (hanswers (dataHandler_answers s chunk bytes o)) trivial
  · exact iff_of_true (hanswers (downloadRequest_answers s chunkSize memAddr memSize o)) trivial
  · exact (forall_prop_of_true (by simp [handle])).trans (statusReply_released_iff s entries entry)
  · exact iff_of_true (hanswers (crcRequest_answers s o)) trivial
  · exact iff_of_true (fun _ => (doneHandler_answers s).released) trivial
  · refine iff_of_true (fun hgone => ?_) trivial
    rw [handle] at hgone ⊢
    split
    · rename_i hkill
      rw [if_pos hkill] at hgone
      exact absurd rfl hgone
    · exact (answer_answers (by simp)).released
  · refine iff_of_true (fun _ => ?_) trivial
    exact @Handled.Answers.released (handle s .unknown o).1 ⟨[], _, rfl, by simp, .inl rfl⟩

/-- A handler that returns: the process is still there. -/
def Returns (t : Thread) (i : Input) : Prop := (connection.step t i).1.life ≠ .gone

theorem released_append {es es' : List Effect} (h : ∀ e ∈ es', ¬e.Buffer) :
    Released (es ++ es') ↔ Released es := by
  have hsame : ∀ b, gets b (es ++ es') = gets b es ∧ releases b (es ++ es') = releases b es := by
    intro b
    obtain ⟨hgets, hreleases⟩ := counts_of_not_buffer h b
    rw [gets_append, releases_append, hgets, hreleases]
    exact ⟨rfl, rfl⟩
  exact forall_congr' fun b => by rw [(hsame b).1, (hsame b).2]

theorem step_released_iff (t : Thread) (i : Input) :
    (Returns t i → Released (connection.step t i).2) ↔ Served NoErrorCode t i := by
  rw [Returns]
  rcases step_cases t i with ⟨p, o, rfl, hlife, hstep⟩ | ⟨rfl, hlife, hstep⟩ | ⟨hlife, hstep⟩
  · rw [hstep, Served, forall_prop_of_true hlife, ← handle_released_iff, serve]
    split
    · rename_i hnext
      rw [hnext]
      exact ⟨fun h _ => h (by simp), fun h _ => h (by simp)⟩
    · rename_i hnext
      rw [hnext]
      dsimp only
      rw [List.cons_append, ← List.cons_append, released_append (cleanup_not_buffer _)]
      exact ⟨fun h _ => h (by simp), fun h _ => h (by simp)⟩
    · rename_i hnext
      rw [hnext]
      exact iff_of_true (fun h => absurd rfl h) fun h => absurd rfl h
  · rw [hstep]
    refine iff_of_true (fun _ b => ?_) trivial
    obtain ⟨hgets, hreleases⟩ := counts_of_not_buffer (cleanup_not_buffer t.session) b
    rw [hgets, hreleases]
    exact ⟨Nat.zero_le _, rfl⟩
  · rw [hstep]
    refine iff_of_true (fun _ b => ⟨Nat.zero_le _, rfl⟩) ?_
    rcases i with ⟨p, o⟩ | _
    · exact fun h => absurd h hlife
    · trivial

/-- **Nothing is leaked and nothing is released twice** in a run: each buffer that a step gets is
released once by it, unless the process has ended; what is opened is not open and what is closed is;
and a thread that has exited has closed all that it opened. -/
structure Accounted (is : List Input) : Prop where
  buffers : ∀ pre i, pre ++ [i] <+: is → Returns (connection.run .start pre) i →
    Released (connection.step (connection.run .start pre) i).2
  paired : Throughout Effect.Paired .empty (connection.history .start is)
  closed : (connection.run .start is).life = .exited →
    Books.empty.notes (connection.history .start is) = .empty

/-- **What is opened is closed**, each once, in every run. -/
theorem run_paired (is : List Input) :
    Throughout Effect.Paired .empty (connection.history .start is) := by
  refine (connection_throughout_iff (Q := fun _ _ _ => True) (fun _ _ => trivial)
    (fun s => (throughout_sound.1 (cleanup_sound s).1).2)
    (fun s p o hs => iff_of_true (handle_keeps hs p o).paired trivial) start_tidy is).2 ?_
  rintro pre (⟨p, o⟩ | _) -
  · exact fun _ => trivial
  · trivial

/-- **Sessions neither leak nor release twice** exactly as long as they send no error code. -/
theorem connection_accounted_iff (is : List Input) :
    Accounted is ↔
      ∀ pre i, pre ++ [i] <+: is → Served NoErrorCode (connection.run .start pre) i := by
  have hsteps : (∀ pre i, pre ++ [i] <+: is → Returns (connection.run .start pre) i →
      Released (connection.step (connection.run .start pre) i).2) ↔
        ∀ pre i, pre ++ [i] <+: is → Served NoErrorCode (connection.run .start pre) i :=
    forall_congr' fun pre => forall_congr' fun i => imp_congr_right fun _ => step_released_iff _ i
  refine ⟨fun h => hsteps.1 h.buffers, fun h => ⟨hsteps.2 h, run_paired is, fun hexited => ?_⟩⟩
  rw [(run_spec is).2, Thread.books, if_pos hexited]

/-- **A status reply outside a download releases its packet twice**: the error code is sent, and the
packet it was sent in is freed. -/
theorem busy_reply_released_twice : ¬∀ is : List Input, Accounted is := by
  intro h
  have hstep := (h [.packet (.statusReply 0 fun _ => (0, 0)) (.fine false none)]).buffers [] _
    List.prefix_rfl fun h => Life.noConfusion h
  have htwice := (hstep 0).2
  revert htwice
  decide

end Ftp
end FlightApps
