import Mathlib.Data.List.Basic
import Mathlib.Data.List.Induction

/-!
# Machines that answer every input

A `Machine` takes an input, moves to a new state and gives an answer.  `run` is the state after a
list of inputs and `answers` the list of what was answered on the way; `invariant` is the one
induction on runs that safety proofs need, and `invariant_iff` the one for a property that only
some steps keep.

`watch` runs a machine next to a bookkeeper that sees every input and its answer but is not seen by
the machine.  That is how a history, which the state of a program does not hold, gets into an
invariant.  For a machine that answers with lists of events `history` is that history, with
`history_invariant` the induction, and `Each P` says of every event what it finds before it.

One step of a program is often many small moves of its data.  `Trace R` strings moves together and
collects what they emit; `Trace.keeps`, `Trace.emits` and `Trace.follows` are the induction over
them: for the state, for what is emitted, and for a bookkeeper who writes it down.
-/

set_option autoImplicit false

universe u v w x

/-- What holds of every step of a list, read off the front. -/
theorem forall_steps_cons {α : Type u} {Q : List α → α → Prop} {a : α} {as : List α} :
    (∀ pre x, pre ++ [x] <+: a :: as → Q pre x) ↔
      Q [] a ∧ ∀ pre x, pre ++ [x] <+: as → Q (a :: pre) x := by
  constructor
  · intro h
    refine ⟨h [] a (List.prefix_append [a] as), fun pre x hpre => h (a :: pre) x ?_⟩
    rw [List.cons_append, List.prefix_cons_inj]
    exact hpre
  · rintro ⟨hhead, htail⟩ pre x hpre
    cases pre with
    | nil =>
      rw [List.nil_append, List.singleton_prefix_cons_iff] at hpre
      rw [hpre]
      exact hhead
    | cons b pre =>
      rw [List.cons_append, List.cons_prefix_cons] at hpre
      rw [hpre.1]
      exact htail pre x hpre.2

theorem forall_steps_nil {α : Type u} {Q : List α → α → Prop} (pre : List α) (x : α)
    (h : pre ++ [x] <+: []) : Q pre x := by
  rw [List.prefix_nil] at h
  exact absurd h (by simp)

/-- What holds of every prefix of a list, read off the front. -/
theorem forall_prefixes_cons {α : Type u} {Q : List α → Prop} {a : α} {as : List α} :
    (∀ pre, pre <+: a :: as → Q pre) ↔ Q [] ∧ ∀ pre, pre <+: as → Q (a :: pre) := by
  constructor
  · intro h
    refine ⟨h [] List.nil_prefix, fun pre hpre => h (a :: pre) ?_⟩
    rw [List.prefix_cons_inj]
    exact hpre
  · rintro ⟨hnil, hcons⟩ pre hpre
    cases pre with
    | nil => exact hnil
    | cons b pre =>
      rw [List.cons_prefix_cons] at hpre
      rw [hpre.1]
      exact hcons pre hpre.2

theorem forall_prefixes_nil {α : Type u} {Q : List α → Prop} :
    (∀ pre, pre <+: [] → Q pre) ↔ Q [] := by
  simp only [List.prefix_nil, forall_eq]

/-- A deterministic machine with an answer to every input. -/
structure Machine (σ : Type u) (ι : Type v) (ο : Type w) where
  /-- The new state and the answer. -/
  step : σ → ι → σ × ο

namespace Machine

variable {σ : Type u} {ι : Type v} {ο : Type w} {γ : Type x} (m : Machine σ ι ο)

/-- The state after a list of inputs. -/
def run (s : σ) : List ι → σ
  | [] => s
  | i :: is => run (m.step s i).1 is

/-- The answers to a list of inputs. -/
def answers (s : σ) : List ι → List ο
  | [] => []
  | i :: is => (m.step s i).2 :: answers (m.step s i).1 is

/-- **Invariance**: what every step keeps, every run keeps. -/
theorem invariant {P : σ → Prop} (hstep : ∀ s i, P s → P (m.step s i).1) {s : σ} (h : P s)
    (is : List ι) : P (m.run s is) := by
  induction is generalizing s with
  | nil => exact h
  | cons i is ih => exact ih (hstep s i h)

/-- The machine next to a bookkeeper. -/
def watch (note : γ → ι → ο → γ) : Machine (σ × γ) ι ο where
  step s i := (((m.step s.1 i).1, note s.2 i (m.step s.1 i).2), (m.step s.1 i).2)

/-- The bookkeeper does not disturb the machine. -/
theorem watch_run_fst (note : γ → ι → ο → γ) (s : σ × γ) (is : List ι) :
    ((m.watch note).run s is).1 = m.run s.1 is := by
  induction is generalizing s with
  | nil => rfl
  | cons i is ih => exact ih _

theorem run_append (s : σ) (is js : List ι) : m.run s (is ++ js) = m.run (m.run s is) js := by
  induction is generalizing s with
  | nil => rfl
  | cons i is ih => exact ih _

/-- **Exact invariance**: if a step from a good state stays good exactly under `Q`, then a run stays
good exactly as long as every step of it meets `Q`. -/
theorem invariant_iff {P : σ → Prop} {Q : σ → ι → Prop} {s : σ} (h : P s)
    (hstep : ∀ pre i, P (m.run s pre) → (P (m.step (m.run s pre) i).1 ↔ Q (m.run s pre) i))
    (is : List ι) :
    (∀ pre, pre <+: is → P (m.run s pre)) ↔
      ∀ pre i, pre ++ [i] <+: is → Q (m.run s pre) i := by
  constructor
  · intro hall pre i hpre
    have hbefore := hall pre ((List.prefix_append pre [i]).trans hpre)
    have hafter := hall (pre ++ [i]) hpre
    rw [run_append] at hafter
    exact (hstep pre i hbefore).1 hafter
  · intro hall pre
    induction pre using List.reverseRecOn with
    | nil => exact fun _ => h
    | append_singleton pre i ih =>
      intro hpre
      rw [run_append]
      exact (hstep pre i (ih ((List.prefix_append pre [i]).trans hpre))).2 (hall pre i hpre)

/-- **Exact invariance of a weaker property**: if from a state with `P` a step to one with `C` meets
`Q`, and a step that meets `Q` keeps `P`, then all of a run has `C` exactly if every step of it
meets `Q`. -/
theorem weak_invariant_iff {P C : σ → Prop} {Q : σ → ι → Prop} {s : σ} (h : P s)
    (hweak : ∀ s, P s → C s) (hneeds : ∀ s i, P s → C (m.step s i).1 → Q s i)
    (hkeeps : ∀ s i, P s → Q s i → P (m.step s i).1) (is : List ι) :
    (∀ pre, pre <+: is → C (m.run s pre)) ↔
      ∀ pre i, pre ++ [i] <+: is → Q (m.run s pre) i := by
  have hstrong : (∀ pre i, pre ++ [i] <+: is → P (m.run s pre) → Q (m.run s pre) i) →
      ∀ pre, pre <+: is → P (m.run s pre) := by
    intro hall pre
    induction pre using List.reverseRecOn with
    | nil => exact fun _ => h
    | append_singleton pre i ih =>
      intro hpre
      have hbefore := ih ((List.prefix_append pre [i]).trans hpre)
      rw [run_append]
      exact hkeeps _ i hbefore (hall pre i hpre hbefore)
  constructor
  · intro hall
    have hq : ∀ pre i, pre ++ [i] <+: is → P (m.run s pre) → Q (m.run s pre) i := by
      intro pre i hpre hp
      have hafter := hall (pre ++ [i]) hpre
      rw [run_append] at hafter
      exact hneeds _ i hp hafter
    intro pre i hpre
    exact hq pre i hpre (hstrong hq pre ((List.prefix_append pre [i]).trans hpre))
  · intro hall pre hpre
    exact hweak _ (hstrong (fun pre i hpre _ => hall pre i hpre) pre hpre)

/-- All the events a machine has answered. -/
def history {ε : Type w} (m : Machine σ ι (List ε)) (s : σ) (is : List ι) : List ε :=
  (m.answers s is).flatten

section History

variable {ε : Type w} (m : Machine σ ι (List ε))

@[simp] theorem history_nil (s : σ) : m.history s [] = [] := rfl

theorem history_cons (s : σ) (i : ι) (is : List ι) :
    m.history s (i :: is) = (m.step s i).2 ++ m.history (m.step s i).1 is := by
  rw [history, answers, List.flatten_cons, history]

theorem history_append (s : σ) (is js : List ι) :
    m.history s (is ++ js) = m.history s is ++ m.history (m.run s is) js := by
  induction is generalizing s with
  | nil => rfl
  | cons i is ih => rw [List.cons_append, history_cons, history_cons, ih, List.append_assoc]; rfl

/-- **Invariance with a history**: what every step keeps of a state and of all that has happened,
every run keeps. -/
theorem history_invariant {P : σ → List ε → Prop}
    (hstep : ∀ s es i, P s es → P (m.step s i).1 (es ++ (m.step s i).2)) {s : σ} (h : P s [])
    (is : List ι) : P (m.run s is) (m.history s is) := by
  suffices hall : ∀ es, P s es → P (m.run s is) (es ++ m.history s is) from hall [] h
  intro es hes
  clear h
  induction is generalizing s es with
  | nil => rw [history_nil, List.append_nil]; exact hes
  | cons i is ih =>
    rw [history_cons, ← List.append_assoc]
    exact ih _ (hstep s es i hes)

end History

end Machine

/-- Every event meets `P` with what lies before it. -/
def Each {ε : Type u} (P : List ε → ε → Prop) (es : List ε) : Prop :=
  ∀ pre e post, es = pre ++ e :: post → P pre e

theorem Each.nil {ε : Type u} (P : List ε → ε → Prop) : Each P [] := by
  intro pre e post h
  exact absurd h (by simp)

theorem Each.snoc {ε : Type u} {P : List ε → ε → Prop} {es : List ε} {e : ε} (h : Each P es)
    (he : P es e) : Each P (es ++ [e]) := by
  intro pre e' post heq
  rcases List.eq_nil_or_concat post with rfl | ⟨post, e'', rfl⟩
  · obtain ⟨rfl, hlast⟩ := List.append_inj' heq rfl
    cases hlast
    exact he
  · rw [List.concat_eq_append, ← List.cons_append, ← List.append_assoc] at heq
    obtain ⟨rfl, -⟩ := List.append_inj' heq rfl
    exact h pre e' post rfl

theorem Each.append {ε : Type u} {P : List ε → ε → Prop} {es es' : List ε} (h : Each P es)
    (hall : ∀ pre, ∀ e ∈ es', P pre e) : Each P (es ++ es') := by
  induction es' generalizing es with
  | nil => rwa [List.append_nil]
  | cons e es' ih =>
    rw [List.append_cons]
    exact ih (h.snoc (hall es e List.mem_cons_self))
      fun pre e' he' => hall pre e' (List.mem_cons_of_mem e he')

/-- `Each`, at a place. -/
theorem Each.get {ε : Type u} {P : List ε → ε → Prop} {es : List ε} (h : Each P es) (n : Nat)
    (hn : n < es.length) : P (es.take n) es[n] :=
  h _ _ (es.drop (n + 1)) (by rw [← List.drop_eq_getElem_cons hn, List.take_append_drop])

/-- `Each`, read off the front. -/
theorem each_cons {ε : Type u} {P : List ε → ε → Prop} {e : ε} {es : List ε} :
    Each P (e :: es) ↔ P [] e ∧ Each (fun pre => P (e :: pre)) es := by
  constructor
  · intro h
    exact ⟨h [] e es rfl, fun pre e' post heq => h (e :: pre) e' post (congrArg _ heq)⟩
  · rintro ⟨hhead, htail⟩ pre e' post heq
    rcases pre with _ | ⟨e'', pre⟩
    · obtain ⟨rfl, -⟩ := List.cons.inj heq
      exact hhead
    · obtain ⟨rfl, htl⟩ := List.cons.inj heq
      exact htail pre e' post htl

/-- Moves strung together, with all they emit in order. -/
inductive Trace {σ : Type u} {ε : Type v} (R : σ → List ε → σ → Prop) : σ → List ε → σ → Prop
  | refl (s : σ) : Trace R s [] s
  | step {s t r : σ} {es es' : List ε} (h : R s es t) (rest : Trace R t es' r) :
      Trace R s (es ++ es') r

namespace Trace

variable {σ : Type u} {ε : Type v} {γ : Type w} {R : σ → List ε → σ → Prop}

theorem single {s t : σ} {es : List ε} (h : R s es t) : Trace R s es t := by
  have := Trace.step h (Trace.refl t)
  rwa [List.append_nil] at this

theorem trans {s t r : σ} {es es' : List ε} (h : Trace R s es t) (h' : Trace R t es' r) :
    Trace R s (es ++ es') r := by
  induction h with
  | refl => exact h'
  | step hm _ ih => rw [List.append_assoc]; exact .step hm (ih h')

/-- What every move keeps, a string of moves keeps. -/
theorem keeps {P : σ → Prop} (hR : ∀ s es t, R s es t → P s → P t) {s t : σ} {es : List ε}
    (h : Trace R s es t) (hs : P s) : P t := by
  induction h with
  | refl => exact hs
  | step hm _ ih => exact ih (hR _ _ _ hm hs)

/-- What every move from a good state emits, a string of moves emits. -/
theorem emits {P : σ → Prop} {E : ε → Prop}
    (hR : ∀ s es t, R s es t → P s → P t ∧ ∀ e ∈ es, E e) {s t : σ} {es : List ε}
    (h : Trace R s es t) (hs : P s) : ∀ e ∈ es, E e := by
  induction h with
  | refl => intro e he; exact absurd he (by simp)
  | step hm _ ih =>
    intro e he
    obtain ⟨hp, hes⟩ := hR _ _ _ hm hs
    rcases List.mem_append.1 he with he | he
    · exact hes e he
    · exact ih hp e he

/-- The same with all that has been emitted so far. -/
theorem extends_history {P : σ → List ε → Prop}
    (hR : ∀ s es t g, R s es t → P s g → P t (g ++ es)) {s t : σ} {es : List ε}
    (h : Trace R s es t) {g : List ε} (hs : P s g) : P t (g ++ es) := by
  induction h generalizing g with
  | refl => rw [List.append_nil]; exact hs
  | step hm _ ih => rw [← List.append_assoc]; exact ih (hR _ _ _ _ hm hs)

/-- The same with a bookkeeper who writes down what the moves emit. -/
theorem follows {P : σ → γ → Prop} {note : γ → ε → γ}
    (hR : ∀ s es t g, R s es t → P s g → P t (es.foldl note g)) {s t : σ} {es : List ε}
    (h : Trace R s es t) {g : γ} (hs : P s g) : P t (es.foldl note g) := by
  induction h generalizing g with
  | refl => exact hs
  | step hm _ ih => rw [List.foldl_append]; exact ih (hR _ _ _ _ hm hs)

end Trace
