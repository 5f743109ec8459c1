import Mathlib.Logic.Function.Basic

/-!
# Tables of slots

Tables in which a key is held by at most one slot: a port that is served, a module that is owned, a
request that is worked for.  `R x a` says that the entry `x` holds the key `a`, and `OneSlot R f`
that no two slots of `f` hold the same.  A change of one slot keeps that if no other slot holds a
key of the new entry.
-/

set_option autoImplicit false

universe u v w

namespace Table

variable {ι : Type u} {α : Type v} {κ : Type w} {R : α → κ → Prop} {f g : ι → α} {i : ι}

/-- Every key is held by at most one slot. -/
def OneSlot (R : α → κ → Prop) (f : ι → α) : Prop := ∀ j k a, R (f j) a → R (f k) a → j = k

theorem OneSlot.of_changed (h : OneSlot R f) (hold : ∀ j, j ≠ i → g j = f j)
    (hnew : ∀ a, R (g i) a → ∀ j, j ≠ i → ¬R (f j) a) : OneSlot R g := by
  intro j k a hj hk
  by_cases hji : j = i
  · by_cases hki : k = i
    · rw [hji, hki]
    · rw [hji] at hj
      rw [hold k hki] at hk
      exact absurd hk (hnew a hj k hki)
  · rw [hold j hji] at hj
    by_cases hki : k = i
    · rw [hki] at hk
      exact absurd hj (hnew a hk j hji)
    · rw [hold k hki] at hk
      exact h j k a hj hk

theorem OneSlot.update [DecidableEq ι] (h : OneSlot R f) {x : α}
    (hnew : ∀ a, R x a → ∀ j, j ≠ i → ¬R (f j) a) : OneSlot R (Function.update f i x) := by
  refine h.of_changed (fun j hj => Function.update_of_ne hj x f) fun a ha => ?_
  rw [Function.update_self] at ha
  exact hnew a ha

end Table
