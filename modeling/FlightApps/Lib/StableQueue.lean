import Mathlib.Data.List.Basic
import Mathlib.Data.List.Perm.Basic

/-!
# A queue kept in order of a key, first come first served among equal keys

`bisect` is the binary search for the boundary of an initial segment, and `enqueue` the insertion
it is used for: the new element goes behind every element whose key is not larger than its own and
in front of the others.  Nothing here fixes what the elements are; the key takes values in any
linear order.

The one lemma every ordering fact comes from is `pairwise_enqueue`: a relation that holds along the
queue holds along it after the insertion, if it holds between the new element and the two halves.
Sortedness is one instance of it, and *first come first served* is another, with "the key is
smaller, or it is equal and the arrival earlier" for the relation.
-/

set_option autoImplicit false

namespace StableQueue

universe u v w

/-! ## Binary search -/

/-- Binary search for the end of the initial segment of `[bot, top)` on which `below` holds: while
the interval is not empty, look at its middle and keep the half the boundary is in. -/
def bisect (below : Nat → Bool) : Nat → Nat → Nat → Nat
  | 0, bot, _ => bot
  | fuel + 1, bot, top =>
    if bot < top then
      let mid := (bot + top) / 2
      if below mid then bisect below fuel (mid + 1) top else bisect below fuel bot mid
    else bot

/-- **The search finds the boundary.**  Everything before the answer is below, everything from it
on is not, provided `below` holds of an initial segment and the fuel covers the interval. -/
theorem bisect_spec {below : Nat → Bool} {n : Nat}
    (hmono : ∀ i j, i ≤ j → j < n → below j = true → below i = true) :
    ∀ (fuel bot top : Nat), top - bot ≤ fuel → bot ≤ top → top ≤ n →
      (∀ i, i < bot → below i = true) → (∀ i, top ≤ i → i < n → below i = false) →
      bisect below fuel bot top ≤ n ∧ (∀ i, i < bisect below fuel bot top → below i = true) ∧
        ∀ i, bisect below fuel bot top ≤ i → i < n → below i = false
  | 0, bot, top, hfuel, hle, hn, hlo, hhi => by
    have htb : top = bot := by omega
    subst htb
    exact ⟨hn, hlo, hhi⟩
  | fuel + 1, bot, top, hfuel, hle, hn, hlo, hhi => by
    rw [bisect]
    split
    · rename_i hlt
      -- the midpoint splits the interval; monotonicity carries its verdict to the half given up
      have hmid : bot ≤ (bot + top) / 2 ∧ (bot + top) / 2 < top := by omega
      by_cases hb : below ((bot + top) / 2) = true
      · simp only [hb, if_true]
        refine bisect_spec hmono fuel _ top (by omega) (by omega) hn (fun i hi => ?_) hhi
        exact hmono i _ (by omega) (by omega) hb
      · simp only [hb, Bool.false_eq_true, if_false]
        refine bisect_spec hmono fuel bot _ (by omega) (by omega) (by omega) hlo fun i hi hin => ?_
        cases hbi : below i with
        | false => rfl
        | true => exact absurd (hmono _ i hi hin hbi) hb
    · have htb : top = bot := by omega
      subst htb
      exact ⟨hn, hlo, hhi⟩

/-- The search only asks about positions in the interval. -/
theorem bisect_congr {below below' : Nat → Bool} {n : Nat}
    (h : ∀ i, i < n → below i = below' i) :
    ∀ (fuel bot top : Nat), top ≤ n → bisect below fuel bot top = bisect below' fuel bot top
  | 0, _, _, _ => rfl
  | fuel + 1, bot, top, hn => by
    rw [bisect, bisect]
    split
    · dsimp only
      rw [h _ (show (bot + top) / 2 < n by omega), bisect_congr h fuel _ top hn,
        bisect_congr h fuel bot _ (show (bot + top) / 2 ≤ n by omega)]
    · rfl

/-! ## Insertion -/

variable {α : Type u} {K : Type v} [LT K] [DecidableLT K]

/-- Insert `x` with key `k`: behind the elements whose key is at most `k`, in front of the rest. -/
def enqueue (key : α → K) (k : K) (x : α) (l : List α) : List α :=
  l.filter (fun y => !decide (k < key y)) ++ x :: l.filter (fun y => decide (k < key y))

theorem enqueue_perm (key : α → K) (k : K) (x : α) (l : List α) :
    (enqueue key k x l).Perm (x :: l) := by
  refine List.perm_middle.trans (List.Perm.cons x ?_)
  exact List.perm_append_comm.trans (List.filter_append_perm (fun y => decide (k < key y)) l)

theorem mem_enqueue {key : α → K} {k : K} {x y : α} {l : List α} :
    y ∈ enqueue key k x l ↔ y = x ∨ y ∈ l := by
  rw [(enqueue_perm key k x l).mem_iff, List.mem_cons]

/-- On a queue already cut at the boundary, the insertion is in the cut. -/
theorem enqueue_append {key : α → K} {k : K} {a b : List α} (ha : ∀ y ∈ a, ¬k < key y)
    (hb : ∀ y ∈ b, k < key y) (x : α) : enqueue key k x (a ++ b) = a ++ x :: b := by
  have h1 : a.filter (fun y => !decide (k < key y)) = a := List.filter_eq_self.2 (by simpa using ha)
  have h2 : b.filter (fun y => !decide (k < key y)) = [] :=
    List.filter_eq_nil_iff.2 (by simpa using hb)
  have h3 : a.filter (fun y => decide (k < key y)) = [] :=
    List.filter_eq_nil_iff.2 (by simpa using ha)
  have h4 : b.filter (fun y => decide (k < key y)) = b := List.filter_eq_self.2 (by simpa using hb)
  rw [enqueue, List.filter_append, List.filter_append, h1, h2, h3, h4, List.append_nil,
    List.nil_append]

/-- A queue in order is cut at the boundary. -/
theorem filter_append_filter {key : α → K} {k : K} {l : List α}
    (h : l.Pairwise fun y z => k < key y → k < key z) :
    l.filter (fun y => !decide (k < key y)) ++ l.filter (fun y => decide (k < key y)) = l := by
  induction l with
  | nil => rfl
  | cons y l ih =>
    rw [List.pairwise_cons] at h
    by_cases hy : k < key y
    · have hall : ∀ z ∈ l, k < key z := fun z hz => h.1 z hz hy
      have h1 : l.filter (fun z => !decide (k < key z)) = [] :=
        List.filter_eq_nil_iff.2 (by simpa using hall)
      have h2 : l.filter (fun z => decide (k < key z)) = l :=
        List.filter_eq_self.2 (by simpa using hall)
      simp [hy, h1, h2]
    · simp [hy, ih h.2]

/-- Taking the new element out again gives the queue back. -/
theorem erase_enqueue [BEq α] [LawfulBEq α] {key : α → K} {k : K} {x : α} {l : List α}
    (h : l.Pairwise fun y z => k < key y → k < key z) (hx : x ∉ l) :
    (enqueue key k x l).erase x = l := by
  have hnot : x ∉ l.filter (fun y => !decide (k < key y)) := fun hm =>
    hx (List.mem_of_mem_filter hm)
  rw [enqueue, List.erase_append_right _ hnot, List.erase_cons_head, filter_append_filter h]

/-- The insertion only asks for keys, so it commutes with a map that keeps them. -/
theorem map_enqueue {β : Type w} {f : α → β} {key : α → K} {key' : β → K} (k : K) (x : α)
    {l : List α} (h : ∀ y ∈ l, key' (f y) = key y) :
    (enqueue key k x l).map f = enqueue key' k (f x) (l.map f) := by
  have hf : ∀ (p : K → Bool), (l.filter fun y => p (key y)).map f
      = (l.map f).filter fun z => p (key' z) := by
    intro p
    rw [List.filter_map]
    refine congrArg (List.map f) (List.filter_congr fun y hy => ?_)
    simp [h y hy]
  rw [enqueue, enqueue, List.map_append, List.map_cons, hf fun c => !decide (k < c),
    hf fun c => decide (k < c)]

/-- **What holds along the queue holds along it after an insertion**, if it holds between the new
element and both halves. -/
theorem pairwise_enqueue {R : α → α → Prop} {key : α → K} {k : K} {x : α} {l : List α}
    (hl : l.Pairwise R) (hbefore : ∀ y ∈ l, ¬k < key y → R y x)
    (hafter : ∀ y ∈ l, k < key y → R x y)
    (hcross : ∀ y ∈ l, ∀ z ∈ l, ¬k < key y → k < key z → R y z) :
    (enqueue key k x l).Pairwise R := by
  rw [enqueue, List.pairwise_append, List.pairwise_cons]
  refine ⟨hl.filter _, ⟨fun y hy => ?_, hl.filter _⟩, fun y hy z hz => ?_⟩
  · rw [List.mem_filter, decide_eq_true_eq] at hy
    exact hafter y hy.1 hy.2
  · rw [List.mem_filter, Bool.not_eq_true', decide_eq_false_iff_not] at hy
    rw [List.mem_cons, List.mem_filter, decide_eq_true_eq] at hz
    rcases hz with rfl | hz
    · exact hbefore y hy.1 hy.2
    · exact hcross y hy.1 z hz.1 hy.2 hz.2

end StableQueue
