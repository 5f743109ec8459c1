import FlightApps.Ftp.Streams

/-!
# The thread of a connection

`connection` is the thread that serves a connection, as a machine: it reads packets until a handler
or a read timeout makes it exit, and then closes what is still open.

A run keeps the session of a running thread tidy and the books in step with it
(`connection_running`).  So a property of all effects of a run is one of the effects of each packet
in a tidy session (`connection_throughout_iff`).
-/

set_option autoImplicit false

namespace FlightApps
namespace Ftp

/-! ## The machine -/

/-- What a thread gets from `csp_read`: a packet, with what the calls for it answer, or nothing. -/
inductive Input
  | packet (p : Packet) (o : Outcomes)
  | timeout

/-- A thread runs, has exited, or has ended with the process. -/
inductive Life
  | running
  | exited
  | gone
deriving DecidableEq

/-- `ftp_handler_thread`. -/
structure Thread where
  session : Session
  life : Life

/-- The thread of a new connection. -/
def Thread.start : Thread := ⟨.start, .running⟩

/-- A packet in `ftp_handler_thread`, with the cleanup where it exits. -/
def serve (s : Session) (p : Packet) (o : Outcomes) : Thread × List Effect :=
  let h := (handle s p o).1
  match (handle s p o).2 with
  | .reads => (⟨h.session, .running⟩, .got 0 :: h.effects)
  | .exits => (⟨h.session, .exited⟩, .got 0 :: h.effects ++ cleanup h.session)
  | .gone => (⟨h.session, .gone⟩, .got 0 :: h.effects)

/-- **The thread of a connection.** -/
def connection : Machine Thread Input (List Effect) where
  step t i :=
    match t.life, i with
    | .running, .packet p o => serve t.session p o
    | .running, .timeout => (⟨t.session, .exited⟩, cleanup t.session)
    | _, _ => (t, [])

/-! ## Closing -/

theorem set_of_get {b : Books} {r : Resource} {v : Bool} (h : b.get r = v) : b.set r v = b := by
  subst h
  cases r <;> rfl

theorem closeIf_sound (b : Books) (r : Resource) :
    Throughout Effect.Sound b (closeIf (b.get r) r) ∧
      b.notes (closeIf (b.get r) r) = b.set r false := by
  rw [closeIf]
  split
  · rename_i hopen
    exact ⟨⟨⟨trivial, hopen⟩, trivial⟩, rfl⟩
  · rename_i hclosed
    exact ⟨trivial, (set_of_get ((Bool.not_eq_true _).mp hclosed)).symm⟩

/-- One resource after the other. -/
theorem closeIf_append {b b' : Books} {es : List Effect} (r : Resource) {open? : Bool}
    (hes : Throughout Effect.Sound b es ∧ b.notes es = b') (hr : b'.get r = open?) :
    Throughout Effect.Sound b (es ++ closeIf open? r) ∧
      b.notes (es ++ closeIf open? r) = b'.set r false := by
  obtain ⟨hsound, rfl⟩ := hes
  obtain rfl := hr
  rw [throughout_append, Books.notes_append]
  exact ⟨⟨hsound, (closeIf_sound _ r).1⟩, (closeIf_sound _ r).2⟩

/-- Effects that open and close nothing, and use nothing, at the end. -/
theorem sound_append {b b' : Books} {es es' : List Effect}
    (hes : Throughout Effect.Sound b es ∧ b.notes es = b')
    (hes' : Throughout Effect.Sound b' es' ∧ b'.notes es' = b') :
    Throughout Effect.Sound b (es ++ es') ∧ b.notes (es ++ es') = b' := by
  obtain ⟨hsound, rfl⟩ := hes
  rw [throughout_append, Books.notes_append]
  exact ⟨⟨hsound, hes'.1⟩, hes'.2⟩

/-- **A thread that exits closes everything it has opened**, each once. -/
theorem cleanup_sound (s : Session) :
    Throughout Effect.Sound (Books.ofSession s) (cleanup s) ∧
      (Books.ofSession s).notes (cleanup s) = .empty := by
  have htarget := closeIf_sound (Books.ofSession s) .target
  have hmap := closeIf_append .map htarget rfl
  have hbuf := closeIf_append .mapBuf hmap rfl
  exact closeIf_append .source hbuf rfl

theorem doneHandler_sound (s : Session) :
    Throughout Effect.Sound (Books.ofSession s) (doneHandler s).effects ∧
      (Books.ofSession s).notes (doneHandler s).effects =
        Books.ofSession (doneHandler s).session := by
  have hfreed : ∀ b : Books, Throughout Effect.Sound b [.freed 0] ∧ b.notes [.freed 0] = b :=
    fun b => ⟨⟨⟨trivial, trivial⟩, trivial⟩, rfl⟩
  rw [doneHandler]
  split
  · exact hfreed _
  · exact sound_append (closeIf_sound (Books.ofSession s) .source) (hfreed _)
  · have htarget := closeIf_sound (Books.ofSession s) .target
    have hbuf := closeIf_append .mapBuf htarget rfl
    have hmap := closeIf_append .map hbuf rfl
    refine sound_append (sound_append hmap ?_) (hfreed _)
    split <;> exact ⟨by simp [Effect.Sound, Effect.Safe, Effect.Paired], rfl⟩

/-! ## One packet -/

theorem handle_keeps {s : Session} (hs : Tidy s) (p : Packet) (o : Outcomes) :
    Keeps s (handle s p o).1 := by
  rcases p with ⟨size, chunkSize⟩ | _ | ⟨chunk, bytes⟩ | ⟨chunkSize, memAddr, memSize⟩ |
    ⟨entries, entry⟩ | _ | _ | e | _
  · exact (uploadRequest_clean hs size chunkSize o).keeps
  · exact statusRequest_keeps s o
  · exact (dataHandler_clean hs chunk bytes o).keeps
  · exact (downloadRequest_clean hs chunkSize memAddr memSize o).keeps
  · exact statusReply_keeps s entries entry
  · exact crcRequest_keeps s o
  · exact ⟨(throughout_sound.1 (doneHandler_sound s).1).2, (doneHandler_sound s).2⟩
  · rw [handle]
    split
    · exact keeps_neutral (by simp) rfl
    · exact keeps_answered (by simp)
  · exact keeps_neutral (by simp [handle, Effect.Neutral]) rfl

/-- While the thread goes on reading, the session is tidy. -/
theorem handle_tidy {s : Session} (hs : Tidy s) {p : Packet} {o : Outcomes}
    (hreads : (handle s p o).2 = .reads) : Tidy (handle s p o).1.session := by
  rcases p with ⟨size, chunkSize⟩ | _ | ⟨chunk, bytes⟩ | ⟨chunkSize, memAddr, memSize⟩ |
    ⟨entries, entry⟩ | _ | _ | e | _
  · exact (uploadRequest_clean hs size chunkSize o).tidy
  · exact (statusRequest_session s o).symm ▸ hs
  · exact (dataHandler_clean hs chunk bytes o).tidy
  · exact (downloadRequest_clean hs chunkSize memAddr memSize o).tidy
  · exact (statusReply_session s entries entry).symm ▸ hs
  · exact (crcRequest_session s o).symm ▸ hs
  · cases hreads
  · rw [handle] at hreads
    split at hreads <;> cases hreads
  · cases hreads

/-! ## Runs -/

/-- A running thread has a tidy session; the others do nothing. -/
def Thread.Tidy (t : Thread) : Prop := t.life = .running → Ftp.Tidy t.session

/-- The books of a thread. -/
def Thread.books (t : Thread) : Books :=
  if t.life = .exited then .empty else Books.ofSession t.session

/-- What is asked of each packet that a running thread reads. -/
def Served (Q : Session → Packet → Outcomes → Prop) (t : Thread) : Input → Prop
  | .packet p o => t.life = .running → Q t.session p o
  | .timeout => True

theorem serve_tidy {s : Session} (hs : Tidy s) (p : Packet) (o : Outcomes) :
    (serve s p o).1.Tidy := by
  rw [serve]
  split
  · rename_i hreads
    exact fun _ => handle_tidy hs hreads
  · exact fun h => Life.noConfusion h
  · exact fun h => Life.noConfusion h

theorem serve_books {s : Session} (hs : Tidy s) (p : Packet) (o : Outcomes) :
    (Books.ofSession s).notes (serve s p o).2 = (serve s p o).1.books := by
  have hbooks := (handle_keeps hs p o).books
  rw [serve]
  split
  · exact hbooks
  · rw [List.cons_append, Books.notes_cons, Books.notes_append]
    exact (congrArg (Books.notes · _) hbooks).trans (cleanup_sound _).2
  · exact hbooks

/-- A step is a packet in a running thread, the exit of a running thread, or nothing. -/
theorem step_cases (t : Thread) (i : Input) :
    (∃ p o, i = .packet p o ∧ t.life = .running ∧ connection.step t i = serve t.session p o) ∨
    (i = .timeout ∧ t.life = .running ∧
      connection.step t i = (⟨t.session, .exited⟩, cleanup t.session)) ∨
    (t.life ≠ .running ∧ connection.step t i = (t, [])) := by
  obtain ⟨session, life⟩ := t
  rcases i with ⟨p, o⟩ | _
  · cases life with
    | running => exact .inl ⟨p, o, rfl, rfl, rfl⟩
    | exited => exact .inr (.inr ⟨fun h => Life.noConfusion h, rfl⟩)
    | gone => exact .inr (.inr ⟨fun h => Life.noConfusion h, rfl⟩)
  · cases life with
    | running => exact .inr (.inl ⟨rfl, rfl, rfl⟩)
    | exited => exact .inr (.inr ⟨fun h => Life.noConfusion h, rfl⟩)
    | gone => exact .inr (.inr ⟨fun h => Life.noConfusion h, rfl⟩)

theorem books_running {t : Thread} (h : t.life = .running) :
    t.books = Books.ofSession t.session := by
  rw [Thread.books, h]
  rfl

theorem step_tidy {t : Thread} (ht : t.Tidy) (i : Input) : (connection.step t i).1.Tidy := by
  rcases step_cases t i with ⟨p, o, -, hlife, hstep⟩ | ⟨-, -, hstep⟩ | ⟨-, hstep⟩ <;> rw [hstep]
  · exact serve_tidy (ht hlife) p o
  · exact fun h => Life.noConfusion h
  · exact ht

theorem step_books {t : Thread} (ht : t.Tidy) (i : Input) :
    t.books.notes (connection.step t i).2 = (connection.step t i).1.books := by
  rcases step_cases t i with ⟨p, o, -, hlife, hstep⟩ | ⟨-, hlife, hstep⟩ | ⟨-, hstep⟩ <;> rw [hstep]
  · rw [books_running hlife]
    exact serve_books (ht hlife) p o
  · rw [books_running hlife]
    exact (cleanup_sound t.session).2
  · rfl

/-- What the effects of a packet meet, cleaning up included. -/
theorem throughout_serve {P : Books → Effect → Prop} (hgot : ∀ b n, P b (.got n))
    (hcleanup : ∀ s, Throughout P (Books.ofSession s) (cleanup s)) {s : Session} (hs : Tidy s)
    (p : Packet) (o : Outcomes) : Throughout P (Books.ofSession s) (serve s p o).2 ↔
      Throughout P (Books.ofSession s) (handle s p o).1.effects := by
  have hread : ∀ es, Throughout P (Books.ofSession s) (.got 0 :: es) ↔
      Throughout P (Books.ofSession s) es :=
    fun es => ⟨fun h => h.2, fun h => ⟨hgot _ _, h⟩⟩
  rw [serve]
  split
  · exact hread _
  · rw [List.cons_append, hread, throughout_append, (handle_keeps hs p o).books]
    exact ⟨fun h => h.1, fun h => ⟨h, hcleanup _⟩⟩
  · exact hread _

/-- **A property of all that a run does**, packet by packet. -/
theorem connection_throughout_iff {P : Books → Effect → Prop}
    {Q : Session → Packet → Outcomes → Prop} (hgot : ∀ b n, P b (.got n))
    (hcleanup : ∀ s, Throughout P (Books.ofSession s) (cleanup s))
    (hhandle : ∀ s p o, Tidy s →
      (Throughout P (Books.ofSession s) (handle s p o).1.effects ↔ Q s p o))
    {t : Thread} (ht : t.Tidy) (is : List Input) :
    Throughout P t.books (connection.history t is) ↔
      ∀ pre i, pre ++ [i] <+: is → Served Q (connection.run t pre) i := by
  have hstep : ∀ (t : Thread) (i : Input), t.Tidy →
      (Throughout P t.books (connection.step t i).2 ↔ Served Q t i) := by
    intro t i ht
    rcases step_cases t i with ⟨p, o, rfl, hlife, hstep⟩ | ⟨rfl, hlife, hstep⟩ | ⟨hlife, hstep⟩
    · rw [hstep, books_running hlife, throughout_serve hgot hcleanup (ht hlife),
        hhandle _ p o (ht hlife)]
      exact ⟨fun h _ => h, fun h => h hlife⟩
    · rw [hstep, books_running hlife]
      exact iff_of_true (hcleanup _) trivial
    · rw [hstep]
      refine iff_of_true trivial ?_
      rcases i with ⟨p, o⟩ | _
      · exact fun h => absurd h hlife
      · trivial
  induction is generalizing t with
  | nil => exact iff_of_true trivial forall_steps_nil
  | cons i is ih =>
    rw [Machine.history_cons, throughout_append, step_books ht, hstep t i ht, forall_steps_cons]
    exact and_congr_right fun _ => ih (step_tidy ht i)

theorem start_tidy : Thread.start.Tidy := fun _ => tidy_start

/-- **Every run of a thread keeps its session tidy, and its books in step** with what it has opened
and closed. -/
theorem run_spec (is : List Input) : (connection.run .start is).Tidy ∧
    Books.empty.notes (connection.history .start is) = (connection.run .start is).books := by
  refine connection.history_invariant
    (P := fun t es => t.Tidy ∧ Books.empty.notes es = t.books) ?_ ⟨start_tidy, rfl⟩ is
  rintro t es i ⟨htidy, hbooks⟩
  refine ⟨step_tidy htidy i, ?_⟩
  rw [Books.notes_append, hbooks, step_books htidy]

end Ftp
end FlightApps
