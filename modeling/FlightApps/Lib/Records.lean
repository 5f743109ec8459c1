import Mathlib.Data.List.Basic

/-!
# Records one after the other

Records of different lengths stand one after the other, and each says itself where it ends: no
record is the beginning of another (`PrefixFree`).  Then every string starts with records that are
determined, as many as there are (`Leading`), and a loop that takes them off one by one is proved
correct by induction on them.
-/

set_option autoImplicit false

universe u v

namespace Records

variable {α : Type u} {β : Type v} {bytes : α → List β} {s : List β}

/-- What stands in front is determined. -/
def PrefixFree (bytes : α → List β) : Prop :=
  ∀ a b xs ys, bytes a ++ xs = bytes b ++ ys → a = b ∧ xs = ys

/-- The records that a string starts with, and what is left. -/
structure Leading (bytes : α → List β) (s : List β) (as : List α) (rest : List β) : Prop where
  eq : s = as.flatMap bytes ++ rest
  stops : ∀ a rest', rest ≠ bytes a ++ rest'

theorem Leading.nil (h : ∀ a rest, s ≠ bytes a ++ rest) : Leading bytes s [] s := ⟨rfl, h⟩

theorem Leading.cons {as : List α} {rest : List β} (a : α) (h : Leading bytes s as rest) :
    Leading bytes (bytes a ++ s) (a :: as) rest where
  eq := by rw [h.eq, List.flatMap_cons, List.append_assoc]
  stops := h.stops

theorem Leading.tail {a : α} {as : List α} {rest : List β}
    (h : Leading bytes s (a :: as) rest) : ∃ s', s = bytes a ++ s' ∧ Leading bytes s' as rest :=
  ⟨as.flatMap bytes ++ rest, by rw [h.eq, List.flatMap_cons, List.append_assoc], rfl, h.stops⟩

/-- Every string starts with some records. -/
theorem exists_leading (hpos : ∀ a, bytes a ≠ []) (s : List β) :
    ∃ as rest, Leading bytes s as rest := by
  by_cases h : ∃ a rest, s = bytes a ++ rest
  · obtain ⟨a, rest, rfl⟩ := h
    have hlt : rest.length < (bytes a ++ rest).length := by
      rw [List.length_append]
      exact Nat.lt_add_of_pos_left (List.length_pos_iff.2 (hpos a))
    obtain ⟨as, rest', hrest⟩ := exists_leading hpos rest
    exact ⟨a :: as, rest', hrest.cons a⟩
  · exact ⟨[], s, Leading.nil fun a rest heq => h ⟨a, rest, heq⟩⟩
termination_by s.length

/-- **They are determined.** -/
theorem Leading.unique (hfree : PrefixFree bytes) {as as' : List α} {rest rest' : List β}
    (h : Leading bytes s as rest) (h' : Leading bytes s as' rest') : as = as' ∧ rest = rest' := by
  induction as generalizing s as' with
  | nil =>
    cases as' with
    | nil => exact ⟨rfl, h.eq.symm.trans h'.eq⟩
    | cons a' as' =>
      obtain ⟨s', rfl, -⟩ := h'.tail
      exact absurd h.eq.symm (h.stops a' s')
  | cons a as ih =>
    cases as' with
    | nil =>
      obtain ⟨s', rfl, -⟩ := h.tail
      exact absurd h'.eq.symm (h'.stops a s')
    | cons a' as' =>
      obtain ⟨s₁, rfl, h₁⟩ := h.tail
      obtain ⟨s₂, heq, h₂⟩ := h'.tail
      obtain ⟨rfl, rfl⟩ := hfree _ _ _ _ heq
      obtain ⟨rfl, rfl⟩ := ih h₁ h₂
      exact ⟨rfl, rfl⟩

end Records
