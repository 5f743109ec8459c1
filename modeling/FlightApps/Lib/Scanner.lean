import Mathlib.Data.List.Basic

/-!
# Cutting a stream into items

A `Scanner` looks at the front of the input that has arrived so far.  It says that it needs `more`
input, that the first element starts no item and is to be `skip`ped, or that the first `n` elements
are an item, which it `emit`s.  Its one law is *stability*: once it has said something other than
`more`, further input does not change its mind.

`scan` applies the scanner until it asks for more, and returns the items and the rest.  Stability
makes scanning incremental (`scan_append`): to scan `xs ++ ys`, scan `xs` and go on with what was
left of it followed by `ys`.  So it does not matter where a stream is cut into pieces.

A program usually scans up to one item at a time, and it may jump over several elements at once.
`hunt` is the scan up to the next item, and `hunt_drop` the rule for a jump.
-/

set_option autoImplicit false

universe u v

namespace Scanner

/-- What a scanner says of the input it looks at. -/
inductive Verdict (φ : Type v)
  | more
  | skip
  | emit (n : Nat) (item : φ)

namespace Verdict

variable {φ : Type v} {n : Nat} {x : φ}

theorem skip_ne_more : (skip : Verdict φ) ≠ more := fun h => by cases h

theorem emit_ne_more : emit n x ≠ more := fun h => by cases h

end Verdict

end Scanner

/-- A scanner whose verdicts are stable. -/
structure Scanner (β : Type u) (φ : Type v) where
  /-- The verdict on the front of the input. -/
  look : List β → Scanner.Verdict φ
  look_nil : look [] = .more
  emit_bounds : ∀ {bs : List β} {n : Nat} {x : φ}, look bs = .emit n x → 0 < n ∧ n ≤ bs.length
  stable : ∀ {bs : List β} (cs : List β), look bs ≠ .more → look (bs ++ cs) = look bs

namespace Scanner

variable {β : Type u} {φ : Type v} (S : Scanner β φ) {bs rest : List β} {n : Nat} {x : φ}

theorem length_pos_of_look (h : S.look bs ≠ .more) : 0 < bs.length := by
  cases bs with
  | nil => exact absurd S.look_nil h
  | cons b bs => exact Nat.succ_pos _

theorem tail_lt (h : S.look bs = .skip) : bs.tail.length < bs.length := by
  have hpos : 0 < bs.length := S.length_pos_of_look (h ▸ Verdict.skip_ne_more)
  rw [List.length_tail]
  omega

theorem drop_lt (h : S.look bs = .emit n x) : (bs.drop n).length < bs.length := by
  have := S.emit_bounds h
  rw [List.length_drop]
  omega

/-- An element that is skipped is skipped whatever follows. -/
theorem skip_append (h : S.look bs = .skip) (ys : List β) :
    S.look (bs ++ ys) = .skip ∧ (bs ++ ys).tail = bs.tail ++ ys := by
  have hne : S.look bs ≠ .more := h ▸ Verdict.skip_ne_more
  exact ⟨(S.stable ys hne).trans h,
    List.tail_append_of_ne_nil (List.ne_nil_of_length_pos (S.length_pos_of_look hne))⟩

/-! ## Scanning -/

/-- All items the input holds, and the rest. -/
def scan (bs : List β) : List φ × List β :=
  match _h : S.look bs with
  | .more => ([], bs)
  | .skip => scan bs.tail
  | .emit n x => (x :: (scan (bs.drop n)).1, (scan (bs.drop n)).2)
termination_by bs.length
decreasing_by
  · exact S.tail_lt _h
  · exact S.drop_lt _h

theorem scan_of_more (h : S.look bs = .more) : S.scan bs = ([], bs) := by
  rw [scan]
  split <;> simp_all

theorem scan_of_skip (h : S.look bs = .skip) : S.scan bs = S.scan bs.tail := by
  rw [scan]
  split <;> simp_all

theorem scan_of_emit (h : S.look bs = .emit n x) :
    S.scan bs = (x :: (S.scan (bs.drop n)).1, (S.scan (bs.drop n)).2) := by
  rw [scan]
  split <;> simp_all

/-- The scan ends where more input is needed. -/
theorem look_scan (bs : List β) : S.look (S.scan bs).2 = .more := by
  induction bs using scan.induct S with
  | case1 bs h => rw [S.scan_of_more h]; exact h
  | case2 bs h ih => rw [S.scan_of_skip h]; exact ih
  | case3 bs n x h ih => rw [S.scan_of_emit h]; exact ih

/-- The scan only shortens the input. -/
theorem length_scan (bs : List β) : (S.scan bs).2.length ≤ bs.length := by
  induction bs using scan.induct S with
  | case1 bs h => exact Nat.le_of_eq (by rw [S.scan_of_more h])
  | case2 bs h ih =>
    rw [S.scan_of_skip h]
    exact Nat.le_trans ih (Nat.le_of_lt (S.tail_lt h))
  | case3 bs n x h ih =>
    rw [S.scan_of_emit h]
    exact Nat.le_trans ih (Nat.le_of_lt (S.drop_lt h))

/-- **Scanning is incremental**: what is left of `xs` is scanned again with `ys` behind it. -/
theorem scan_append (xs ys : List β) :
    S.scan (xs ++ ys) =
      ((S.scan xs).1 ++ (S.scan ((S.scan xs).2 ++ ys)).1, (S.scan ((S.scan xs).2 ++ ys)).2) := by
  induction xs using scan.induct S with
  | case1 bs h => rw [S.scan_of_more h, List.nil_append]
  | case2 bs h ih =>
    obtain ⟨hall, htail⟩ := S.skip_append h ys
    rw [S.scan_of_skip h, S.scan_of_skip hall, htail, ih]
  | case3 bs n x h ih =>
    have hne : S.look bs ≠ .more := h ▸ Verdict.emit_ne_more
    have hall : S.look (bs ++ ys) = .emit n x := (S.stable ys hne).trans h
    have hdrop : (bs ++ ys).drop n = bs.drop n ++ ys :=
      List.drop_append_of_le_length (S.emit_bounds h).2
    rw [S.scan_of_emit h, S.scan_of_emit hall, hdrop, ih, List.cons_append]

/-- Elements that are skipped one by one can be dropped together. -/
theorem scan_drop (bs : List β) (k : Nat) (h : ∀ i, i < k → S.look (bs.drop i) = .skip) :
    S.scan (bs.drop k) = S.scan bs := by
  induction k with
  | zero => rw [List.drop_zero]
  | succ k ih =>
    rw [← ih fun i hi => h i (by omega), S.scan_of_skip (h k (by omega)), List.tail_drop]

/-! ## Scanning up to the next item -/

/-- The next item with its length, if there is one, and the input from its start on. -/
def hunt (bs : List β) : Option (Nat × φ) × List β :=
  match _h : S.look bs with
  | .more => (none, bs)
  | .skip => hunt bs.tail
  | .emit n x => (some (n, x), bs)
termination_by bs.length
decreasing_by exact S.tail_lt _h

theorem hunt_of_more (h : S.look bs = .more) : S.hunt bs = (none, bs) := by
  rw [hunt]
  split <;> simp_all

theorem hunt_of_skip (h : S.look bs = .skip) : S.hunt bs = S.hunt bs.tail := by
  rw [hunt]
  split <;> simp_all

theorem hunt_of_emit (h : S.look bs = .emit n x) : S.hunt bs = (some (n, x), bs) := by
  rw [hunt]
  split <;> simp_all

theorem hunt_drop (bs : List β) (k : Nat) (h : ∀ i, i < k → S.look (bs.drop i) = .skip) :
    S.hunt (bs.drop k) = S.hunt bs := by
  induction k with
  | zero => rw [List.drop_zero]
  | succ k ih =>
    rw [← ih fun i hi => h i (by omega), S.hunt_of_skip (h k (by omega)), List.tail_drop]

/-- The hunt only shortens the input. -/
theorem length_hunt (bs : List β) : (S.hunt bs).2.length ≤ bs.length := by
  induction bs using hunt.induct S with
  | case1 bs h => exact Nat.le_of_eq (by rw [S.hunt_of_more h])
  | case2 bs h ih =>
    rw [S.hunt_of_skip h]
    exact Nat.le_trans ih (Nat.le_of_lt (S.tail_lt h))
  | case3 bs n x h => exact Nat.le_of_eq (by rw [S.hunt_of_emit h])

/-- The hunt drops elements from the front only. -/
theorem hunt_suffix (bs : List β) : (S.hunt bs).2 <:+ bs := by
  induction bs using hunt.induct S with
  | case1 bs h => exact (congrArg Prod.snd (S.hunt_of_more h)).symm ▸ List.suffix_refl bs
  | case2 bs h ih =>
    rw [S.hunt_of_skip h]
    exact ih.trans (List.tail_suffix bs)
  | case3 bs n x h => exact (congrArg Prod.snd (S.hunt_of_emit h)).symm ▸ List.suffix_refl bs

/-- A hunt that has found an item does not look at what follows. -/
theorem hunt_append_some {xs : List β} (h : S.hunt xs = (some (n, x), rest)) (ys : List β) :
    S.hunt (xs ++ ys) = (some (n, x), rest ++ ys) := by
  induction xs using hunt.induct S with
  | case1 bs hl => rw [S.hunt_of_more hl] at h; cases h
  | case2 bs hl ih =>
    obtain ⟨hall, htail⟩ := S.skip_append hl ys
    rw [S.hunt_of_skip hl] at h
    rw [S.hunt_of_skip hall, htail, ih h]
  | case3 bs m y hl =>
    rw [S.hunt_of_emit hl] at h
    cases h
    exact S.hunt_of_emit ((S.stable ys (hl ▸ Verdict.emit_ne_more)).trans hl)

/-- A hunt that has found nothing goes on with what it has left. -/
theorem hunt_append_none {xs : List β} (h : S.hunt xs = (none, rest)) (ys : List β) :
    S.hunt (xs ++ ys) = S.hunt (rest ++ ys) := by
  induction xs using hunt.induct S with
  | case1 bs hl => rw [S.hunt_of_more hl] at h; cases h; rfl
  | case2 bs hl ih =>
    obtain ⟨hall, htail⟩ := S.skip_append hl ys
    rw [S.hunt_of_skip hl] at h
    rw [S.hunt_of_skip hall, htail, ih h]
  | case3 bs m y hl => rw [S.hunt_of_emit hl] at h; cases h

/-- An item the hunt finds stands at the front of what it leaves. -/
theorem look_hunt (h : S.hunt bs = (some (n, x), rest)) : S.look rest = .emit n x := by
  induction bs using hunt.induct S with
  | case1 bs hl => rw [S.hunt_of_more hl] at h; cases h
  | case2 bs hl ih => rw [S.hunt_of_skip hl] at h; exact ih h
  | case3 bs m y hl => rw [S.hunt_of_emit hl] at h; cases h; exact hl

theorem scan_of_hunt_none (h : S.hunt bs = (none, rest)) : S.scan bs = ([], rest) := by
  induction bs using hunt.induct S with
  | case1 bs hl => rw [S.hunt_of_more hl] at h; cases h; exact S.scan_of_more hl
  | case2 bs hl ih => rw [S.hunt_of_skip hl] at h; rw [S.scan_of_skip hl]; exact ih h
  | case3 bs m y hl => rw [S.hunt_of_emit hl] at h; cases h

theorem scan_of_hunt_some (h : S.hunt bs = (some (n, x), rest)) :
    S.scan bs = (x :: (S.scan (rest.drop n)).1, (S.scan (rest.drop n)).2) := by
  induction bs using hunt.induct S with
  | case1 bs hl => rw [S.hunt_of_more hl] at h; cases h
  | case2 bs hl ih => rw [S.hunt_of_skip hl] at h; rw [S.scan_of_skip hl]; exact ih h
  | case3 bs m y hl => rw [S.hunt_of_emit hl] at h; cases h; exact S.scan_of_emit hl

/-! ## Where the items start -/

/-- All items, each with the number of elements from its start on. -/
def places (bs : List β) : List (Nat × φ) :=
  match _h : S.look bs with
  | .more => []
  | .skip => places bs.tail
  | .emit n x => (bs.length, x) :: places (bs.drop n)
termination_by bs.length
decreasing_by
  · exact S.tail_lt _h
  · exact S.drop_lt _h

theorem places_of_more (h : S.look bs = .more) : S.places bs = [] := by
  rw [places]
  split <;> simp_all

theorem places_of_skip (h : S.look bs = .skip) : S.places bs = S.places bs.tail := by
  rw [places]
  split <;> simp_all

theorem places_of_emit (h : S.look bs = .emit n x) :
    S.places bs = (bs.length, x) :: S.places (bs.drop n) := by
  rw [places]
  split <;> simp_all

theorem places_of_hunt_none (h : S.hunt bs = (none, rest)) : S.places bs = [] := by
  induction bs using hunt.induct S with
  | case1 bs hl => exact S.places_of_more hl
  | case2 bs hl ih => rw [S.hunt_of_skip hl] at h; rw [S.places_of_skip hl]; exact ih h
  | case3 bs m y hl => rw [S.hunt_of_emit hl] at h; cases h

theorem places_of_hunt_some (h : S.hunt bs = (some (n, x), rest)) :
    S.places bs = (rest.length, x) :: S.places (rest.drop n) := by
  induction bs using hunt.induct S with
  | case1 bs hl => rw [S.hunt_of_more hl] at h; cases h
  | case2 bs hl ih => rw [S.hunt_of_skip hl] at h; rw [S.places_of_skip hl]; exact ih h
  | case3 bs m y hl => rw [S.hunt_of_emit hl] at h; cases h; exact S.places_of_emit hl

/-- An item stands where it is said to start. -/
theorem look_of_mem_places {bs : List β} {p : Nat × φ} (h : p ∈ S.places bs) :
    ∃ cs n, cs <:+ bs ∧ cs.length = p.1 ∧ S.look cs = .emit n p.2 := by
  induction bs using places.induct S with
  | case1 bs hl => rw [S.places_of_more hl] at h; cases h
  | case2 bs hl ih =>
    rw [S.places_of_skip hl] at h
    obtain ⟨cs, n, hcs, hp⟩ := ih h
    exact ⟨cs, n, hcs.trans (List.tail_suffix bs), hp⟩
  | case3 bs m y hl ih =>
    rw [S.places_of_emit hl] at h
    rcases List.mem_cons.1 h with rfl | h
    · exact ⟨bs, m, List.suffix_refl bs, rfl, hl⟩
    · obtain ⟨cs, n, hcs, hp⟩ := ih h
      exact ⟨cs, n, hcs.trans (List.drop_suffix m bs), hp⟩

/-! ## Items and their length -/

/-- What holds of every item at the place it is cut out holds of every item of the scan. -/
theorem scan_items {P : Nat → φ → Prop} (hP : ∀ bs n x, S.look bs = .emit n x → P bs.length x)
    (hmono : ∀ m m' x, m ≤ m' → P m x → P m' x) (bs : List β) :
    ∀ x ∈ (S.scan bs).1, P bs.length x := by
  induction bs using scan.induct S with
  | case1 bs h => rw [S.scan_of_more h]; exact fun x hx => absurd hx (by simp)
  | case2 bs h ih =>
    rw [S.scan_of_skip h]
    exact fun x hx => hmono _ _ _ (Nat.le_of_lt (S.tail_lt h)) (ih x hx)
  | case3 bs n y h ih =>
    rw [S.scan_of_emit h]
    intro x hx
    rcases List.mem_cons.1 hx with rfl | hx
    · exact hP bs n x h
    · exact hmono _ _ _ (Nat.le_of_lt (S.drop_lt h)) (ih x hx)

/-- A proper beginning of an item is not decided yet. -/
theorem look_of_append {ys : List β} (h : S.look (bs ++ ys) = .emit n x) (hn : bs.length < n) :
    S.look bs = .more := by
  by_contra hne
  have := S.stable ys hne
  rw [h] at this
  have := (S.emit_bounds this.symm).2
  omega

end Scanner
