import Mathlib.Logic.Function.Basic
import FlightApps.Lib.Machine

/-!
# Programs of tasks that share their state

A `Stmt` is a program in the manner of C: sequences, branches and loops over atomic actions, with
`break`, `return` and calls.  An action sees the state and an input, and changes the state, emits
events or blocks.  `exec` runs a program one step at a time.  A `System` has a program for every
task, runs them in any order, and starts them over when the power is lost; all that is left then is
what `restart` keeps of the state.

`Triple P c Q B T` is the logic.  Its assertions are about the state and all events so far.  From a
state with `P` the program `c` ends with `Q`, with `B` on a `break` and with `T` on a `return`; each
of its actions is one that it guarantees (`G`), whatever the other tasks do in between, as long as
it is what `c` relies on (`R`).  Inputs are those of an assumption `A`.  The rules follow the
program; `System.invariant` puts the programs of all tasks together.
-/

set_option autoImplicit false

universe u v w x

namespace Program

/-- Programs. -/
inductive Stmt (σ : Type u) (ι : Type v) (ε : Type w) : Type (max u v w)
  | skip
  /-- An action, atomic; it may block. -/
  | act (f : σ → ι → Option (σ × List ε))
  | seq (c d : Stmt σ ι ε)
  | ite (b : σ → Bool) (c d : Stmt σ ι ε)
  | loop (b : σ → Bool) (c : Stmt σ ι ε)
  | brk
  | ret
  /-- The body of a function, which ends at a `return`. -/
  | call (c : Stmt σ ι ε)

/-- What a task has still to do: statements, and the loops and calls it is in. -/
inductive Frame (σ : Type u) (ι : Type v) (ε : Type w) : Type (max u v w)
  | todo (c : Stmt σ ι ε)
  | again (b : σ → Bool) (c : Stmt σ ι ε)
  | back

section Exec

variable {σ : Type u} {ι : Type v} {ε : Type w}

/-- A sequence of statements. -/
def Stmt.block : List (Stmt σ ι ε) → Stmt σ ι ε
  | [] => .skip
  | [c] => c
  | c :: cs => .seq c (block cs)

/-- An action that never blocks. -/
def Stmt.does (f : σ → ι → σ × List ε) : Stmt σ ι ε := .act fun s i => some (f s i)

/-- An assignment. -/
def Stmt.set (f : σ → σ) : Stmt σ ι ε := .act fun s _ => some (f s, [])

/-- An event, and nothing else. -/
def Stmt.emit (e : ε) : Stmt σ ι ε := .act fun s _ => some (s, [e])

/-- A branch without an `else`. -/
def Stmt.when (b : σ → Bool) (c : Stmt σ ι ε) : Stmt σ ι ε := .ite b c .skip

/-- What is left after a `break`. -/
def breakTo : List (Frame σ ι ε) → List (Frame σ ι ε)
  | [] => []
  | .todo _ :: K => breakTo K
  | .again _ _ :: K => K
  | .back :: K => .back :: K

/-- What is left after a `return`. -/
def returnTo : List (Frame σ ι ε) → List (Frame σ ι ε)
  | [] => []
  | .todo _ :: K => returnTo K
  | .again _ _ :: K => returnTo K
  | .back :: K => K

/-- A step of a task: what an action does, if it is one, and what is left. -/
def exec (i : ι) (s : σ) :
    List (Frame σ ι ε) → Option (σ × List ε) × List (Frame σ ι ε)
  | [] => (none, [])
  | .todo .skip :: K => (none, K)
  | .todo (.act f) :: K =>
    match f s i with
    | some r => (some r, K)
    | none => (none, .todo (.act f) :: K)
  | .todo (.seq c d) :: K => (none, .todo c :: .todo d :: K)
  | .todo (.ite b c d) :: K => (none, .todo (if b s then c else d) :: K)
  | .todo (.loop b c) :: K => (none, .again b c :: K)
  | .todo .brk :: K => (none, breakTo K)
  | .todo .ret :: K => (none, returnTo K)
  | .todo (.call c) :: K => (none, .todo c :: .back :: K)
  | .again b c :: K => (none, if b s then .todo c :: .again b c :: K else K)
  | .back :: K => (none, K)

end Exec

/-! ## Safety -/

section Logic

variable {σ : Type u} {ι : Type v} {ε : Type w}

/-- What an assertion is about: the state, and the events so far. -/
abbrev Assertion (σ : Type u) (ε : Type w) := σ → List ε → Prop

/-- What happens between two states. -/
abbrev Change (σ : Type u) (ε : Type w) := σ → List ε → σ → List ε → Prop

/-- What a task assumes of its inputs, relies on and guarantees. -/
structure Terms (σ : Type u) (ι : Type v) (ε : Type w) where
  input : σ → List ε → ι → Prop
  rely : Change σ ε
  guarantee : Change σ ε

variable (t : Terms σ ι ε)

/-- For a number of steps, all a task does is what it guarantees. -/
def SafeFor : Nat → List (Frame σ ι ε) → Assertion σ ε
  | 0, _, _, _ => True
  | n + 1, K, s, h =>
    (∀ s' h', t.rely s h s' h' → SafeFor n K s' h') ∧
    ∀ i, t.input s h i →
      match exec i s K with
      | (none, K') => SafeFor n K' s h
      | (some (s', es), K') => t.guarantee s h s' (h ++ es) ∧ SafeFor n K' s' (h ++ es)

/-- What the other tasks do keeps the assertion. -/
def Stable (P : Assertion σ ε) : Prop := ∀ s h s' h', P s h → t.rely s h s' h' → P s' h'

/-- From states with the assertion a task is safe for a number of steps. -/
def Into (n : Nat) (K : List (Frame σ ι ε)) (P : Assertion σ ε) : Prop :=
  ∀ m, m ≤ n → ∀ s h, P s h → SafeFor t m K s h

/-- **The logic**: from a state with `P` a program ends with `Q`, with `B` on a `break` and with `T`
on a `return`, and is safe on the way. -/
structure Triple (P : Assertion σ ε) (c : Stmt σ ι ε) (Q B T : Assertion σ ε) : Prop where
  stable : Stable t P
  into : ∀ n K, Into t n K Q → Into t n (breakTo K) B → Into t n (returnTo K) T →
    Into t n (.todo c :: K) P

variable {t} {P Q B T P' Q' B' T' : Assertion σ ε} {c d : Stmt σ ι ε} {b : σ → Bool}

theorem Into.mono {n m : Nat} {K : List (Frame σ ι ε)} (h : Into t n K P) (hm : m ≤ n) :
    Into t m K P := fun k hk => h k (Nat.le_trans hk hm)

theorem Into.imp {n : Nat} {K : List (Frame σ ι ε)} (h : Into t n K P)
    (hP : ∀ s h, P' s h → P s h) : Into t n K P' :=
  fun m hm s hist hp => h m hm s hist (hP s hist hp)

/-- A step that is no action. -/
theorem Into.silent {n : Nat} {K : List (Frame σ ι ε)} (hP : Stable t P)
    (f : σ → List (Frame σ ι ε)) (hexec : ∀ i s, exec i s K = (none, f s))
    (h : ∀ m, m < n → ∀ s h, P s h → SafeFor t m (f s) s h) : Into t n K P := by
  intro m
  induction m with
  | zero => exact fun _ _ _ _ => trivial
  | succ m ih =>
    intro hm s hist hp
    refine ⟨fun s' h' hr => ih (Nat.le_of_succ_le hm) s' h' (hP _ _ _ _ hp hr), fun i _ => ?_⟩
    rw [hexec]
    exact h m hm s hist hp

/-- Nothing is left. -/
theorem into_nil (n : Nat) (hP : Stable t P) : Into t n [] P := by
  induction n with
  | zero => exact fun m hm _ _ _ => (Nat.le_zero.1 hm) ▸ trivial
  | succ n ih =>
    exact .silent hP (fun _ => []) (fun _ _ => rfl)
      fun m hm s h hp => ih m (Nat.le_of_lt_succ hm) s h hp

namespace Triple

theorem imp (h : Triple t P c Q B T) (hstable : Stable t P') (hP : ∀ s h, P' s h → P s h)
    (hQ : ∀ s h, Q s h → Q' s h) (hB : ∀ s h, B s h → B' s h) (hT : ∀ s h, T s h → T' s h) :
    Triple t P' c Q' B' T' where
  stable := hstable
  into n K hn hb ht := (h.into n K (hn.imp hQ) (hb.imp hB) (ht.imp hT)).imp hP

theorem pre (h : Triple t P c Q B T) (hstable : Stable t P') (hP : ∀ s h, P' s h → P s h) :
    Triple t P' c Q B T :=
  h.imp hstable hP (fun _ _ hq => hq) (fun _ _ hb => hb) fun _ _ ht => ht

theorem post (h : Triple t P c Q B T) (hQ : ∀ s h, Q s h → Q' s h) : Triple t P c Q' B T :=
  h.imp h.stable (fun _ _ hp => hp) hQ (fun _ _ hb => hb) fun _ _ ht => ht

theorem skip (hP : Stable t P) : Triple t P .skip P B T where
  stable := hP
  into _ K hn _ _ := .silent hP (fun _ => K) (fun _ _ => rfl) fun m hm => hn m (Nat.le_of_lt hm)

theorem brk (hP : Stable t P) : Triple t P .brk Q P T where
  stable := hP
  into _ K _ hb _ := .silent hP (fun _ => breakTo K) (fun _ _ => rfl)
    fun m hm => hb m (Nat.le_of_lt hm)

theorem ret (hP : Stable t P) : Triple t P .ret Q B P where
  stable := hP
  into _ K _ _ ht := .silent hP (fun _ => returnTo K) (fun _ _ => rfl)
    fun m hm => ht m (Nat.le_of_lt hm)

/-- **Actions.** -/
theorem act {f : σ → ι → Option (σ × List ε)} (hP : Stable t P)
    (hf : ∀ s h i s' es, P s h → t.input s h i → f s i = some (s', es) →
      t.guarantee s h s' (h ++ es) ∧ Q s' (h ++ es)) : Triple t P (.act f) Q B T where
  stable := hP
  into n K hn _ _ := by
    intro m
    induction m with
    | zero => exact fun _ _ _ _ => trivial
    | succ m ih =>
      intro hm s hist hp
      refine ⟨fun s' h' hr => ih (Nat.le_of_succ_le hm) s' h' (hP _ _ _ _ hp hr), fun i hi => ?_⟩
      rcases hfi : f s i with _ | ⟨s', es⟩
      · have hexec : exec i s (.todo (.act f) :: K) = (none, .todo (.act f) :: K) := by
          rw [exec, hfi]
        rw [hexec]
        exact ih (Nat.le_of_succ_le hm) s hist hp
      · have hexec : exec i s (.todo (.act f) :: K) = (some (s', es), K) := by
          rw [exec, hfi]
        rw [hexec]
        obtain ⟨hg, hq⟩ := hf s hist i s' es hp hi hfi
        exact ⟨hg, hn m (Nat.le_of_succ_le hm) s' _ hq⟩

theorem does {f : σ → ι → σ × List ε} (hP : Stable t P)
    (hf : ∀ s h i, P s h → t.input s h i →
      t.guarantee s h (f s i).1 (h ++ (f s i).2) ∧ Q (f s i).1 (h ++ (f s i).2)) :
    Triple t P (.does f) Q B T := by
  refine .act hP fun s h i s' es hp hi heq => ?_
  obtain ⟨rfl, rfl⟩ := Prod.mk.inj (Option.some.inj heq)
  exact hf s h i hp hi

theorem set {f : σ → σ} (hP : Stable t P)
    (hf : ∀ s h, P s h → t.guarantee s h (f s) h ∧ Q (f s) h) : Triple t P (.set f) Q B T := by
  refine .act hP fun s h i s' es hp _ heq => ?_
  obtain ⟨rfl, rfl⟩ := Prod.mk.inj (Option.some.inj heq)
  rw [List.append_nil]
  exact hf s h hp

theorem emit {e : ε} (hP : Stable t P)
    (hf : ∀ s h, P s h → t.guarantee s h s (h ++ [e]) ∧ Q s (h ++ [e])) :
    Triple t P (.emit e) Q B T := by
  refine .act hP fun s h i s' es hp _ heq => ?_
  obtain ⟨rfl, rfl⟩ := Prod.mk.inj (Option.some.inj heq)
  exact hf s h hp

theorem seq {M : Assertion σ ε} (hc : Triple t P c M B T) (hd : Triple t M d Q B T) :
    Triple t P (.seq c d) Q B T where
  stable := hc.stable
  into n K hn hb ht := .silent hc.stable (fun _ => .todo c :: .todo d :: K) (fun _ _ => rfl)
    fun m hm => (hc.into n (.todo d :: K) (hd.into n K hn hb ht) hb ht) m (Nat.le_of_lt hm)

/-- **Branches.**  What was tested need not stay true. -/
theorem ite {M N : Assertion σ ε} (hP : Stable t P) (hthen : ∀ s h, P s h → b s = true → M s h)
    (helse : ∀ s h, P s h → b s = false → N s h) (hc : Triple t M c Q B T)
    (hd : Triple t N d Q B T) : Triple t P (.ite b c d) Q B T where
  stable := hP
  into n K hn hb ht := by
    refine .silent hP (fun s => .todo (if b s then c else d) :: K) (fun _ _ => rfl)
      fun m hm s h hp => ?_
    by_cases hbs : b s = true
    · rw [if_pos hbs]
      exact hc.into n K hn hb ht m (Nat.le_of_lt hm) s h (hthen s h hp hbs)
    · rw [if_neg hbs]
      exact hd.into n K hn hb ht m (Nat.le_of_lt hm) s h
        (helse s h hp (Bool.not_eq_true _ ▸ hbs))

theorem when {M : Assertion σ ε} (hP : Stable t P) (hQ : Stable t Q)
    (hthen : ∀ s h, P s h → b s = true → M s h) (hskip : ∀ s h, P s h → b s = false → Q s h)
    (hc : Triple t M c Q B T) : Triple t P (.when b c) Q B T :=
  .ite hP hthen hskip hc (.skip hQ)

/-- **Loops**, with an invariant. -/
theorem loop {I M : Assertion σ ε} (hI : Stable t I) (hgo : ∀ s h, I s h → b s = true → M s h)
    (hc : Triple t M c I B T) (hQ : ∀ s h, I s h → b s = false → Q s h)
    (hB : ∀ s h, B s h → Q s h) : Triple t I (.loop b c) Q B' T where
  stable := hI
  into n K hn hb ht := by
    refine .silent hI (fun _ => .again b c :: K) (fun _ _ => rfl) fun m hm => ?_
    have hagain : ∀ m, m ≤ n → Into t m (.again b c :: K) I := by
      intro m
      induction m with
      | zero => exact fun _ m hm _ _ _ => (Nat.le_zero.1 hm) ▸ trivial
      | succ m ih =>
        intro hm
        refine .silent hI (fun s => if b s then .todo c :: .again b c :: K else K)
          (fun _ _ => rfl) fun k hk s h hi => ?_
        have hkm : k ≤ m := Nat.le_of_lt_succ hk
        by_cases hbs : b s = true
        · rw [if_pos hbs]
          exact hc.into m _ (ih (Nat.le_of_succ_le hm))
            ((hn.mono (Nat.le_of_succ_le hm)).imp hB) (ht.mono (Nat.le_of_succ_le hm)) k hkm s h
            (hgo s h hi hbs)
        · rw [if_neg hbs]
          exact hn k (Nat.le_trans hkm (Nat.le_of_succ_le hm)) s h
            (hQ s h hi (Bool.not_eq_true _ ▸ hbs))
    exact hagain n (Nat.le_refl n) m (Nat.le_of_lt hm)

/-- **Calls.** -/
theorem call (hQ : Stable t Q) (hc : Triple t P c Q Q Q) : Triple t P (.call c) Q B T where
  stable := hc.stable
  into n K hn _ _ := by
    have hback : Into t n (.back :: K) Q := .silent hQ (fun _ => K) (fun _ _ => rfl)
      fun m hm => hn m (Nat.le_of_lt hm)
    exact .silent hc.stable (fun _ => .todo c :: .back :: K) (fun _ _ => rfl)
      fun m hm => hc.into n (.back :: K) hback hback hn m (Nat.le_of_lt hm)

/-- A program that is never reached. -/
theorem dead (hP : ∀ s h, ¬ P s h) : Triple t P c Q B T where
  stable s h _ _ hp _ := absurd hp (hP s h)
  into _ _ _ _ _ _ _ s h hp := absurd hp (hP s h)

/-- A program that never gets an input. -/
theorem idle (hP : Stable t P) (hinput : ∀ s h i, ¬ t.input s h i) : Triple t P c Q B T where
  stable := hP
  into n K _ _ _ := by
    intro m
    induction m with
    | zero => exact fun _ _ _ _ => trivial
    | succ m ih =>
      intro hm s h hp
      exact ⟨fun s' h' hr => ih (Nat.le_of_succ_le hm) s' h' (hP _ _ _ _ hp hr),
        fun i hi => absurd hi (hinput s h i)⟩

/-- Two ways to begin. -/
theorem or (h : Triple t P c Q B T) (h' : Triple t P' c Q B T) :
    Triple t (fun s h => P s h ∨ P' s h) c Q B T where
  stable := by
    rintro s hist s' hist' (hp | hp) hr
    · exact Or.inl (h.stable _ _ _ _ hp hr)
    · exact Or.inr (h'.stable _ _ _ _ hp hr)
  into n K hn hb ht := by
    rintro m hm s hist (hp | hp)
    · exact h.into n K hn hb ht m hm s hist hp
    · exact h'.into n K hn hb ht m hm s hist hp

/-- A value that the assertions share. -/
theorem exists_pre {α : Type x} {P : α → Assertion σ ε} (h : ∀ a, Triple t (P a) c Q B T) :
    Triple t (fun s h => ∃ a, P a s h) c Q B T where
  stable := by
    rintro s hist s' h' ⟨a, ha⟩ hr
    exact ⟨a, (h a).stable _ _ _ _ ha hr⟩
  into n K hn hb ht := by
    rintro m hm s hist ⟨a, ha⟩
    exact (h a).into n K hn hb ht m hm s hist ha

end Triple

end Logic

/-! ## Systems of tasks -/

/-- What happens next: a step of a task, or a power loss. -/
inductive Sched (τ : Type x) (ι : Type v) : Type (max v x)
  | step (t : τ) (i : ι)
  | restart (i : ι)

/-- Tasks that share a state. -/
structure System (σ : Type u) (ι : Type v) (ε : Type w) (τ : Type x) where
  prog : τ → Stmt σ ι ε
  /-- What is left of the state after a power loss. -/
  restart : σ → ι → σ × List ε

namespace System

variable {σ : Type u} {ι : Type v} {ε : Type w} {τ : Type x} (S : System σ ι ε τ)

/-- All tasks are at their start. -/
def boot (s : σ) : σ × (τ → List (Frame σ ι ε)) := (s, fun t => [.todo (S.prog t)])

variable [DecidableEq τ]

/-- The tasks take steps in any order. -/
def machine : Machine (σ × (τ → List (Frame σ ι ε))) (Sched τ ι) (List ε) where
  step c x :=
    match x with
    | .step t i =>
      match exec i c.1 (c.2 t) with
      | (none, K) => ((c.1, Function.update c.2 t K), [])
      | (some (s, es), K) => ((s, Function.update c.2 t K), es)
    | .restart i => (S.boot (S.restart c.1 i).1, (S.restart c.1 i).2)

/-- Everything that is scheduled meets `ok` in the state it finds. -/
def Meets (ok : σ → List ε → Sched τ ι → Prop) (s : σ) (xs : List (Sched τ ι)) : Prop :=
  ∀ pre x, pre ++ [x] <+: xs →
    ok (S.machine.run (S.boot s) pre).1 (S.machine.history (S.boot s) pre) x

/-- The same from the middle of a run, step by step. -/
def MeetsFrom (ok : σ → List ε → Sched τ ι → Prop) (c : σ × (τ → List (Frame σ ι ε)))
    (h : List ε) : List (Sched τ ι) → Prop
  | [] => True
  | x :: xs => ok c.1 h x ∧
      MeetsFrom ok (S.machine.step c x).1 (h ++ (S.machine.step c x).2) xs

instance decidableMeetsFrom (ok : σ → List ε → Sched τ ι → Prop)
    [∀ s h x, Decidable (ok s h x)] : ∀ c h xs, Decidable (S.MeetsFrom ok c h xs)
  | _, _, [] => .isTrue trivial
  | c, h, x :: xs =>
    have : Decidable (S.MeetsFrom ok (S.machine.step c x).1 (h ++ (S.machine.step c x).2) xs) :=
      decidableMeetsFrom ok _ _ xs
    inferInstanceAs (Decidable (_ ∧ _))

theorem MeetsFrom.last {ok : σ → List ε → Sched τ ι → Prop}
    {c : σ × (τ → List (Frame σ ι ε))} {h : List ε} {xs pre : List (Sched τ ι)} {x : Sched τ ι}
    (hxs : S.MeetsFrom ok c h xs) (hpre : pre ++ [x] <+: xs) :
    ok (S.machine.run c pre).1 (h ++ S.machine.history c pre) x := by
  induction pre generalizing c h xs with
  | nil =>
    obtain ⟨rest, rfl⟩ := hpre
    rw [Machine.history_nil, List.append_nil]
    exact hxs.1
  | cons y pre ih =>
    obtain ⟨rest, rfl⟩ := hpre
    rw [Machine.history_cons, ← List.append_assoc]
    exact ih hxs.2 ⟨rest, rfl⟩

/-- What is checked step by step holds of the run. -/
theorem meets_of_from {ok : σ → List ε → Sched τ ι → Prop} {s : σ} {xs : List (Sched τ ι)}
    (hxs : S.MeetsFrom ok (S.boot s) [] xs) : S.Meets ok s xs :=
  fun _ _ hpre => hxs.last S hpre

variable {S} {I : Assertion σ ε} {A : σ → List ε → Sched τ ι → Prop}

/-- **Invariants of systems**: every task follows its terms, what it guarantees keeps the invariant
and is what the others rely on, and a power loss leads back to where all tasks can start. -/
theorem invariant (terms : τ → Terms σ ι ε) (pre : τ → Assertion σ ε)
    (hinput : ∀ t s h i, I s h → A s h (.step t i) → (terms t).input s h i)
    (hprog : ∀ t, Triple (terms t) (pre t) (S.prog t) (fun _ _ => True) (fun _ _ => True)
      fun _ _ => True)
    (hkeeps : ∀ t s h s' h', I s h → (terms t).guarantee s h s' h' →
      I s' h' ∧ ∀ t', t' ≠ t → (terms t').rely s h s' h')
    (hrestart : ∀ s h i, I s h → A s h (.restart i) →
      I (S.restart s i).1 (h ++ (S.restart s i).2) ∧
        ∀ t, pre t (S.restart s i).1 (h ++ (S.restart s i).2))
    {s : σ} (hs : I s []) (hpre : ∀ t, pre t s []) (xs : List (Sched τ ι))
    (hxs : S.Meets A s xs) :
    I (S.machine.run (S.boot s) xs).1 (S.machine.history (S.boot s) xs) := by
  have hsafe : ∀ t n s h, pre t s h → SafeFor (terms t) n [.todo (S.prog t)] s h := by
    intro t n s h hp
    have hnil : Into (terms t) n [] fun _ _ => True := into_nil n fun _ _ _ _ _ _ => trivial
    exact (hprog t).into n [] hnil hnil hnil n (Nat.le_refl n) s h hp
  suffices hall : I (S.machine.run (S.boot s) xs).1 (S.machine.history (S.boot s) xs) ∧
      ∀ t n, SafeFor (terms t) n ((S.machine.run (S.boot s) xs).2 t)
        (S.machine.run (S.boot s) xs).1 (S.machine.history (S.boot s) xs) from hall.1
  induction xs using List.reverseRecOn with
  | nil => exact ⟨hs, fun t n => hsafe t n s [] (hpre t)⟩
  | append_singleton xs x ih =>
    obtain ⟨hinv, hall⟩ := ih fun p y hp => hxs p y (hp.trans (List.prefix_append xs [x]))
    have hx := hxs xs x (List.prefix_refl _)
    rw [Machine.run_append, Machine.history_append, Machine.history_cons, Machine.history_nil,
      List.append_nil]
    generalize S.machine.run (S.boot s) xs = c at hinv hall hx ⊢
    generalize S.machine.history (S.boot s) xs = h at hinv hall hx ⊢
    cases x with
    | restart i =>
      obtain ⟨hinv', hpre'⟩ := hrestart c.1 h i hinv hx
      exact ⟨hinv', fun t n => hsafe t n _ _ (hpre' t)⟩
    | step t i =>
      have hi := hinput t c.1 h i hinv hx
      have hstep : ∀ n, match exec i c.1 (c.2 t) with
          | (none, K') => SafeFor (terms t) n K' c.1 h
          | (some (s', es), K') =>
            (terms t).guarantee c.1 h s' (h ++ es) ∧ SafeFor (terms t) n K' s' (h ++ es) :=
        fun n => (hall t (n + 1)).2 i hi
      show I (S.machine.step c (.step t i)).1.1 (h ++ (S.machine.step c (.step t i)).2) ∧
        ∀ t' n, SafeFor (terms t') n ((S.machine.step c (.step t i)).1.2 t')
          (S.machine.step c (.step t i)).1.1 (h ++ (S.machine.step c (.step t i)).2)
      rw [machine]
      dsimp only
      split at hstep
      · dsimp only
        rw [List.append_nil]
        refine ⟨hinv, fun t' n => ?_⟩
        by_cases ht : t' = t
        · rw [ht, Function.update_self]
          exact hstep n
        · rw [Function.update_of_ne ht]
          exact hall t' n
      · dsimp only
        obtain ⟨hinv', hrely⟩ := hkeeps t _ _ _ _ hinv (hstep 0).1
        refine ⟨hinv', fun t' n => ?_⟩
        by_cases ht : t' = t
        · rw [ht, Function.update_self]
          exact (hstep n).2
        · rw [Function.update_of_ne ht]
          exact (hall t' (n + 1)).1 _ _ (hrely t' ht)

end System

end Program
