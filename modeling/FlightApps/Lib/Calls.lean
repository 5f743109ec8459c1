import Mathlib.Logic.Function.Basic

/-!
# Scripts that call their environment

A `Script` calls its environment, goes on with the answer, and ends.  What may be answered, and how
the world moves on, is a `World`.  `Ends` is the runs of a script in a world, and `wp` the weakest
precondition, computed from the script; `wp_iff` connects them.

A script is a well-founded tree, so it ends whatever is answered; `AtMost` counts its calls.
-/

set_option autoImplicit false

universe u v w x

/-- A script, with calls `κ` and their answers `ρ`. -/
inductive Script (κ : Type u) (ρ : κ → Type v) (α : Type w)
  | done (a : α)
  | call (c : κ) (k : ρ c → Script κ ρ α)

namespace Script

variable {κ : Type u} {ρ : κ → Type v} {α β : Type w} {σ : Type x}

/-- One script after the other. -/
def bind : Script κ ρ α → (α → Script κ ρ β) → Script κ ρ β
  | done a, f => f a
  | call c k, f => call c fun r => (k r).bind f

/-- How the world answers: what it may say, and what it is afterwards. -/
structure World (κ : Type u) (ρ : κ → Type v) (σ : Type x) where
  allows : σ → (c : κ) → ρ c → Prop
  next : σ → (c : κ) → ρ c → σ

/-- A run of a script. -/
inductive Ends (W : World κ ρ σ) : σ → Script κ ρ α → σ → α → Prop
  | done (s : σ) (a : α) : Ends W s (.done a) s a
  | call {s s' : σ} {c : κ} {k : ρ c → Script κ ρ α} {a : α} (r : ρ c) (hr : W.allows s c r)
      (rest : Ends W (W.next s c r) (k r) s' a) : Ends W s (.call c k) s' a

/-- Every run from this state ends with `Q`. -/
def wp (W : World κ ρ σ) (Q : α → σ → Prop) : Script κ ρ α → σ → Prop
  | done a, s => Q a s
  | call c k, s => ∀ r, W.allows s c r → wp W Q (k r) (W.next s c r)

section Logic

variable {W : World κ ρ σ} {Q Q' : α → σ → Prop} {t : Script κ ρ α} {s : σ}

theorem wp_iff : wp W Q t s ↔ ∀ s' a, Ends W s t s' a → Q a s' := by
  induction t generalizing s with
  | done a =>
    constructor
    · rintro h _ _ ⟨⟩
      exact h
    · exact fun h => h s a (.done s a)
  | call c k ih =>
    constructor
    · rintro h s' a (⟨⟩ | ⟨r, hr, hrest⟩)
      exact (ih r).1 (h r hr) s' a hrest
    · exact fun h r hr => (ih r).2 fun s' a hrest => h s' a (.call r hr hrest)

theorem wp_mono (h : wp W Q t s) (hQ : ∀ a s, Q a s → Q' a s) : wp W Q' t s := by
  induction t generalizing s with
  | done a => exact hQ a s h
  | call c k ih => exact fun r hr => ih r (h r hr)

theorem wp_bind {P : β → σ → Prop} {f : α → Script κ ρ β} :
    wp W P (t.bind f) s ↔ wp W (fun a s => wp W P (f a) s) t s := by
  induction t generalizing s with
  | done a => exact Iff.rfl
  | call c k ih => exact forall_congr' fun r => imp_congr_right fun _ => ih r

theorem wp_and (h : wp W Q t s) (h' : wp W Q' t s) : wp W (fun a s => Q a s ∧ Q' a s) t s := by
  induction t generalizing s with
  | done a => exact ⟨h, h'⟩
  | call c k ih => exact fun r hr => ih r (h r hr) (h' r hr)

/-- A world that may say less has fewer runs. -/
theorem wp_allows {W' : World κ ρ σ} (h : wp W Q t s) (hnext : W'.next = W.next)
    (hallows : ∀ s c r, W'.allows s c r → W.allows s c r) : wp W' Q t s := by
  induction t generalizing s with
  | done a => exact h
  | call c k ih =>
    intro r hr
    rw [hnext]
    exact ih r (h r (hallows s c r hr))

end Logic

/-! ## One way to answer -/

/-- The run with these answers. -/
def exec (W : World κ ρ σ) (answer : σ → (c : κ) → ρ c) : Script κ ρ α → σ → σ × α
  | done a, s => (s, a)
  | call c k, s => exec W answer (k (answer s c)) (W.next s c (answer s c))

theorem ends_exec {W : World κ ρ σ} {answer : σ → (c : κ) → ρ c}
    (h : ∀ s c, W.allows s c (answer s c)) (t : Script κ ρ α) (s : σ) :
    Ends W s t (exec W answer t s).1 (exec W answer t s).2 := by
  induction t generalizing s with
  | done a => exact .done s a
  | call c k ih => exact .call _ (h s c) (ih _ _)

/-- The run with these answers is one of the world. -/
def along (W : World κ ρ σ) [∀ s c r, Decidable (W.allows s c r)] (answer : σ → (c : κ) → ρ c) :
    Script κ ρ α → σ → Bool
  | done _, _ => true
  | call c k, s => decide (W.allows s c (answer s c)) &&
      along W answer (k (answer s c)) (W.next s c (answer s c))

theorem ends_of_along {W : World κ ρ σ} [∀ s c r, Decidable (W.allows s c r)]
    {answer : σ → (c : κ) → ρ c} {t : Script κ ρ α} {s : σ} (h : along W answer t s = true) :
    Ends W s t (exec W answer t s).1 (exec W answer t s).2 := by
  induction t generalizing s with
  | done a => exact .done s a
  | call c k ih =>
    rw [along, Bool.and_eq_true, decide_eq_true_eq] at h
    exact .call _ h.1 (ih _ h.2)

theorem exec_congr {W W' : World κ ρ σ} (h : W'.next = W.next) (answer : σ → (c : κ) → ρ c)
    (t : Script κ ρ α) (s : σ) : exec W' answer t s = exec W answer t s := by
  induction t generalizing s with
  | done a => rfl
  | call c k ih => rw [exec, exec, h, ih]

/-! ## Which calls -/

/-- A script makes only such calls. -/
inductive Only (P : κ → Prop) : Script κ ρ α → Prop
  | done (a : α) : Only P (.done a)
  | call {c : κ} {k : ρ c → Script κ ρ α} (hc : P c) (h : ∀ r, Only P (k r)) : Only P (.call c k)

theorem Only.bind {P : κ → Prop} {t : Script κ ρ α} {f : α → Script κ ρ β} (h : Only P t)
    (hf : ∀ a, Only P (f a)) : Only P (t.bind f) := by
  induction h with
  | done a => exact hf a
  | call hc h ih => exact .call hc ih

/-- What such calls keep, the script keeps. -/
theorem Only.keeps {P : κ → Prop} {W : World κ ρ σ} {I : σ → Prop} {t : Script κ ρ α}
    (h : Only P t) (hI : ∀ s c r, P c → I s → I (W.next s c r)) {s : σ} (hs : I s) :
    wp W (fun _ => I) t s := by
  induction h generalizing s with
  | done a => exact hs
  | call hc h ih => exact fun r _ => ih r (hI s _ r hc hs)

/-! ## How many calls -/

/-- A script makes no more calls than this. -/
inductive AtMost : Nat → Script κ ρ α → Prop
  | done (n : Nat) (a : α) : AtMost n (.done a)
  | call {n : Nat} {c : κ} {k : ρ c → Script κ ρ α} (h : ∀ r, AtMost n (k r)) :
      AtMost (n + 1) (.call c k)

theorem AtMost.mono {n m : Nat} {t : Script κ ρ α} (h : AtMost n t) (hle : n ≤ m) : AtMost m t := by
  induction h generalizing m with
  | done n a => exact .done m a
  | call h ih =>
    obtain ⟨k, rfl⟩ := Nat.exists_eq_add_of_le hle
    rw [Nat.add_right_comm]
    exact .call fun r => ih r (Nat.le_add_right _ k)

theorem AtMost.bind {n m : Nat} {t : Script κ ρ α} {f : α → Script κ ρ β} (h : AtMost n t)
    (hf : ∀ a, AtMost m (f a)) : AtMost (n + m) (t.bind f) := by
  induction h with
  | done n a => exact (hf a).mono (Nat.le_add_left m n)
  | call h ih =>
    rw [Nat.add_right_comm]
    exact .call ih

/-- Every call that is answered is one. -/
theorem AtMost.pred {n : Nat} {c : κ} {k : ρ c → Script κ ρ α} (h : AtMost n (.call c k)) :
    ∃ m, n = m + 1 ∧ ∀ r, AtMost m (k r) := by
  cases h with
  | call h => exact ⟨_, rfl, h⟩

end Script
