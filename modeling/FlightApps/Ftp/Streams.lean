import FlightApps.Lib.Machine
import FlightApps.Ftp.Sessions

/-!
# The loops of a status reply

`ftp_handler_status_reply` sends the chunks that a status reply asks for, one data packet each: the
first in the packet that was read, the others in buffers of their own.  The first chunk that cannot
be sent ends both loops.

`Passes` says when a chunk is sent and `Reached` when the loops get past some visits.  A chunk that
passes puts its packet before what the rest of the loops does (`stream_pass`), and one that does not
pass decides everything, whatever comes after it (`stream_stop`).  With these two rules a proof
about the loops is an induction on the visits (`stream_rule`).
-/

set_option autoImplicit false

namespace FlightApps
namespace Ftp

variable (file : DownloadFile) (o : Outcomes)

/-! ## Chunks -/

/-- The buffer at hand when so many data packets have been sent: the packet that was read, and then
none. -/
def atHand (k : Nat) : Option Nat := if k = 0 then some 0 else none

/-- There is a buffer for the next data packet. -/
def HasBuffer (k : Nat) : Prop := k = 0 ∨ o.getBuffer k = true

/-- **When a chunk is sent** after `k` others: it is one of the file, there is a buffer, and it can
be found, read and sent. -/
structure Passes (k c : Nat) : Prop where
  chunk : c < file.chunks
  buffer : HasBuffer o k
  seek : o.seekSource k = true
  read : dataSize file c ≤ o.bytesRead k
  send : o.sendData k = true

/-- The loops get past these visits, with `k` data packets sent before. -/
def Reached : Nat → List Visit → Prop
  | _, [] => True
  | k, .entry _ :: vs => Reached k vs
  | k, .chunk c :: vs => Passes file o k c ∧ Reached (k + 1) vs

/-- The data packets that are sent for some visits. -/
def packets : List Visit → Nat
  | [] => 0
  | .entry _ :: vs => packets vs
  | .chunk _ :: vs => packets vs + 1

/-- **Every visit that the loops come to** meets `Q`, with the data packets sent before it. -/
def AllReached (Q : Nat → Visit → Prop) (k : Nat) (vs : List Visit) : Prop :=
  Each (fun pre v => Reached file o k pre → Q (k + packets pre) v) vs

/-- The size of the last chunk is found by a division. -/
def lastEffects (c : Nat) : List Effect :=
  if c = file.chunks - 1 then [.divided file.chunkSize] else []

/-- What is done for a chunk up to sending it. -/
def chunkEffects (k c : Nat) : List Effect :=
  lastEffects file c ++ (if k ≠ 0 then [.got k] else []) ++ readData file o (dataSize file c) k

/-- How the loops end at a chunk that does not pass. -/
def stopped (k c : Nat) : Streamed :=
  if file.chunks ≤ c then ⟨.inval, atHand k, k, false, []⟩
  else if k ≠ 0 ∧ ¬o.getBuffer k then ⟨.nomem, none, k, true, lastEffects file c⟩
  else ⟨.io, some k, k, false, chunkEffects file o k c⟩

variable {file o}

theorem atHand_eq_none {k : Nat} : atHand k = none ↔ k ≠ 0 := by
  rw [atHand]
  split <;> simp_all

theorem atHand_getD (k : Nat) : (atHand k).getD k = k := by
  rw [atHand]
  split
  · exact Eq.symm (by assumption)
  · rfl

theorem stream_entry (i k : Nat) (vs : List Visit) :
    stream file o (.entry i :: vs) (atHand k) k =
      (stream file o vs (atHand k) k).after [.entry i] := by
  rw [stream]

theorem stream_pass {k c : Nat} (h : Passes file o k c) (vs : List Visit) :
    stream file o (.chunk c :: vs) (atHand k) k =
      (stream file o vs (atHand (k + 1)) (k + 1)).after
        (chunkEffects file o k c ++ [.sent k (.data c)]) := by
  obtain ⟨hchunk, hbuffer, hseek, hread, hsend⟩ := h
  have hgot : ¬(atHand k = none ∧ ¬o.getBuffer k) := by
    rw [atHand_eq_none]
    rintro ⟨hk, hnone⟩
    exact hbuffer.elim hk hnone
  have hfound : ¬(¬o.seekSource k ∨ o.bytesRead k < dataSize file c) := by
    rintro (hseek' | hread')
    · exact hseek' hseek
    · omega
  rw [stream, if_neg (by omega)]
  dsimp only
  rw [if_neg hgot, if_neg hfound, if_neg (not_not.2 hsend), atHand_getD]
  simp only [atHand_eq_none]
  rfl

theorem stream_stop {k c : Nat} (h : ¬Passes file o k c) (vs : List Visit) :
    stream file o (.chunk c :: vs) (atHand k) k = stopped file o k c := by
  rw [stream, stopped]
  split
  · rfl
  rename_i hchunk
  dsimp only
  simp only [atHand_eq_none, atHand_getD]
  split
  · rfl
  rename_i hgot
  split
  · rfl
  rename_i hfound
  split
  · rfl
  · rename_i hsend
    rw [not_or, not_not, Nat.not_lt] at hfound
    refine absurd ⟨Nat.not_le.1 hchunk, ?_, hfound.1, hfound.2, not_not.1 hsend⟩ h
    by_cases hk : k = 0
    · exact .inl hk
    · exact .inr (not_not.1 fun hnone => hgot ⟨hk, hnone⟩)

/-- **Induction on the visits**, with a chunk that passes and one that does not. -/
theorem stream_rule {M : Nat → List Visit → Streamed → Prop}
    (hnil : ∀ k, M k [] ⟨.ok, atHand k, k, false, []⟩)
    (hentry : ∀ k i vs r, M k vs r → M k (.entry i :: vs) (r.after [.entry i]))
    (hpass : ∀ k c vs r, Passes file o k c → M (k + 1) vs r →
      M k (.chunk c :: vs) (r.after (chunkEffects file o k c ++ [.sent k (.data c)])))
    (hstop : ∀ k c vs, ¬Passes file o k c → M k (.chunk c :: vs) (stopped file o k c))
    (k : Nat) (vs : List Visit) : M k vs (stream file o vs (atHand k) k) := by
  induction vs generalizing k with
  | nil => exact hnil k
  | cons v vs ih =>
    rcases v with i | c
    · rw [stream_entry]
      exact hentry k i vs _ (ih k)
    · by_cases h : Passes file o k c
      · rw [stream_pass h]
        exact hpass k c vs _ h (ih (k + 1))
      · rw [stream_stop h]
        exact hstop k c vs h

section AllReached

variable {Q : Nat → Visit → Prop}

theorem allReached_nil (k : Nat) : AllReached file o Q k [] := Each.nil _

theorem allReached_entry {k i : Nat} {vs : List Visit} :
    AllReached file o Q k (.entry i :: vs) ↔ Q k (.entry i) ∧ AllReached file o Q k vs := by
  rw [AllReached, each_cons]
  exact and_congr_left fun _ => forall_prop_of_true trivial

theorem allReached_pass {k c : Nat} (h : Passes file o k c) {vs : List Visit} :
    AllReached file o Q k (.chunk c :: vs) ↔
      Q k (.chunk c) ∧ AllReached file o Q (k + 1) vs := by
  have hafter : (fun pre v => Reached file o k (.chunk c :: pre) →
        Q (k + packets (.chunk c :: pre)) v) =
      fun pre v => Reached file o (k + 1) pre → Q (k + 1 + packets pre) v := by
    funext pre v
    rw [Reached, packets, and_iff_right h, Nat.add_comm (packets pre) 1, Nat.add_assoc]
  rw [AllReached, each_cons, hafter]
  exact and_congr_left fun _ => forall_prop_of_true trivial

theorem allReached_stop {k c : Nat} (h : ¬Passes file o k c) {vs : List Visit} :
    AllReached file o Q k (.chunk c :: vs) ↔ Q k (.chunk c) := by
  rw [AllReached, each_cons]
  refine ⟨fun hall => hall.1 trivial, fun hq => ⟨fun _ => hq, ?_⟩⟩
  exact fun pre e post _ hreached => absurd hreached.1 h

end AllReached

/-! ## What the loops keep -/

theorem lastEffects_neutral (c : Nat) : ∀ e ∈ lastEffects file c, e.Neutral := by
  rw [lastEffects]
  split <;> simp [Effect.Neutral]

theorem readData_neutral (size k : Nat) : ∀ e ∈ readData file o size k, e.Neutral := by
  rw [readData]
  split <;> simp [Effect.Neutral]

theorem chunkEffects_neutral (k c : Nat) : ∀ e ∈ chunkEffects file o k c, e.Neutral := by
  have hgot : ∀ e ∈ (if k ≠ 0 then [Effect.got k] else []), e.Neutral := by
    split <;> simp [Effect.Neutral]
  rw [chunkEffects]
  simp only [List.forall_mem_append]
  exact ⟨⟨lastEffects_neutral c, hgot⟩, readData_neutral _ k⟩

theorem stopped_neutral (k c : Nat) : ∀ e ∈ (stopped file o k c).effects, e.Neutral := by
  rw [stopped]
  split
  · simp
  split
  · exact lastEffects_neutral c
  · exact chunkEffects_neutral k c

theorem stream_neutral (k : Nat) (vs : List Visit) :
    ∀ e ∈ (stream file o vs (atHand k) k).effects, e.Neutral := by
  refine stream_rule (M := fun _ _ r => ∀ e ∈ r.effects, e.Neutral) ?_ ?_ ?_ ?_ k vs
  · intro k
    simp
  · intro k i vs r hr
    exact List.forall_mem_cons.2 ⟨trivial, hr⟩
  · intro k c vs r _ hr
    simp only [Streamed.after, List.forall_mem_append]
    exact ⟨⟨chunkEffects_neutral k c, by simp [Effect.Neutral]⟩, hr⟩
  · exact fun k c _ _ => stopped_neutral k c

/-! ## The error code -/

/-- What is done at `statusrep_out`. -/
def errorEffects (r : Streamed) (o : Outcomes) : List Effect :=
  if r.ret = .ok then r.buffer.toList.map .freed
  else if r.buffer = none ∧ ¬o.getErrorBuffer then []
  else
    (if r.buffer = none then [.got r.sent] else []) ++
      (if o.send then [.sent (r.buffer.getD r.sent) (.error r.ret)] else []) ++
        [.freed (r.buffer.getD r.sent)]

theorem sendError_effects (s : Session) (r : Streamed) :
    (sendError s r o).effects = r.effects ++ errorEffects r o := by
  rw [sendError, errorEffects]
  split
  · rfl
  split
  · rw [List.append_nil]
  rename_i hbuffer
  have hgot : (if r.buffer = none then [Effect.got (r.buffer.getD r.sent)] else []) =
      if r.buffer = none then [Effect.got r.sent] else [] := by
    split
    · rename_i hnone
      rw [hnone, Option.getD_none]
    · rfl
  dsimp only
  rw [hgot]
  split <;> simp only [List.append_assoc, List.cons_append, List.nil_append]

/-- The effect is about a buffer. -/
def Effect.Buffer : Effect → Prop
  | .got _ => True
  | .sent _ _ => True
  | .freed _ => True
  | _ => False

theorem Effect.Buffer.neutral {e : Effect} (h : e.Buffer) : e.Neutral := by
  cases e <;> trivial

theorem Effect.Buffer.safe {e : Effect} (h : e.Buffer) {b : Books} : e.Safe b := by
  cases e <;> trivial

theorem errorEffects_buffer (r : Streamed) : ∀ e ∈ errorEffects r o, e.Buffer := by
  have hgot : ∀ e ∈ (if r.buffer = none then [Effect.got r.sent] else []), e.Buffer := by
    split <;> simp [Effect.Buffer]
  have hsent : ∀ e ∈ (if o.send = true then
      [Effect.sent (r.buffer.getD r.sent) (.error r.ret)] else []), e.Buffer := by
    split <;> simp [Effect.Buffer]
  rw [errorEffects]
  split
  · simp [Effect.Buffer]
  split
  · simp
  simp only [List.forall_mem_append]
  exact ⟨⟨hgot, hsent⟩, by simp [Effect.Buffer]⟩

/-! ## The handler -/

theorem statusReply_idle {s : Session} (h : s.state ≠ .download) (entries : UInt16)
    (entry : Nat → UInt32 × UInt32) : (statusReply s entries entry o).effects =
      errorEffects ⟨.busy, some 0, 0, false, []⟩ o := by
  rw [statusReply, if_pos h, sendError_effects]
  rfl

theorem statusReply_download {s : Session} (h : s.state = .download) (entries : UInt16)
    (entry : Nat → UInt32 × UInt32) : (statusReply s entries entry o).effects =
      (stream s.download o (visits entries entry) (atHand 0) 0).effects ++
        if (stream s.download o (visits entries entry) (atHand 0) 0).returns then []
        else errorEffects (stream s.download o (visits entries entry) (atHand 0) 0) o := by
  rw [statusReply, if_neg (not_not.2 h)]
  dsimp only
  rw [show some 0 = atHand 0 from rfl]
  split
  · rw [List.append_nil]
  · exact sendError_effects _ _

theorem statusReply_session (s : Session) (entries : UInt16) (entry : Nat → UInt32 × UInt32) :
    (statusReply s entries entry o).session = s := by
  have herror : ∀ r, (sendError s r o).session = s := by
    intro r
    rw [sendError]
    split
    · rfl
    split
    · rfl
    dsimp only
    split <;> rfl
  rw [statusReply]
  split
  · exact herror _
  dsimp only
  split
  · rfl
  · exact herror _

theorem statusReply_keeps (s : Session) (entries : UInt16) (entry : Nat → UInt32 × UInt32) :
    Keeps s (statusReply s entries entry o) := by
  refine keeps_neutral ?_ (congrArg Books.ofSession (statusReply_session s entries entry))
  by_cases h : s.state = .download
  · rw [statusReply_download h, List.forall_mem_append]
    refine ⟨stream_neutral 0 _, ?_⟩
    split
    · simp
    · exact fun e he => (errorEffects_buffer _ e he).neutral
  · rw [statusReply_idle h]
    exact fun e he => (errorEffects_buffer _ e he).neutral

end Ftp
end FlightApps
