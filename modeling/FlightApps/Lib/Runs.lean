import Mathlib.Data.List.Basic

/-!
# Runs

The numbers below `n` with a property come in runs of consecutive numbers, each followed by a number
without it or by the end.  `IsRuns p n rs` says that `rs` lists these runs as pairs of their first
number and their length, in order: every entry is a run that cannot be longer, and nothing is left
out.

A loop over the numbers finds the runs by counting: `streak` is the length of the run that goes on
at `n`, and `closed` lists those that have ended before.  `runs_isRuns` says that together they are
the runs.
-/

set_option autoImplicit false

namespace Runs

/-- A run of numbers below `n` with the property, as long as can be. -/
structure IsRun (p : Nat → Prop) (n : Nat) (r : Nat × Nat) : Prop where
  pos : 0 < r.2
  le : r.1 + r.2 ≤ n
  all : ∀ j, r.1 ≤ j → j < r.1 + r.2 → p j
  left : r.1 = 0 ∨ ¬p (r.1 - 1)
  right : r.1 + r.2 = n ∨ ¬p (r.1 + r.2)

/-- The runs of the numbers below `n` with the property, in order. -/
structure IsRuns (p : Nat → Prop) (n : Nat) (rs : List (Nat × Nat)) : Prop where
  run : ∀ r ∈ rs, IsRun p n r
  order : rs.Pairwise fun r r' => r.1 + r.2 < r'.1
  cover : ∀ j, j < n → p j → ∃ r ∈ rs, r.1 ≤ j ∧ j < r.1 + r.2

/-- The list of runs holds every run. -/
theorem IsRuns.mem_iff {p : Nat → Prop} {n : Nat} {rs : List (Nat × Nat)} (h : IsRuns p n rs)
    (r : Nat × Nat) : r ∈ rs ↔ IsRun p n r := by
  refine ⟨h.run r, fun hr => ?_⟩
  obtain ⟨hpos, hle, hall, hleft, hright⟩ := hr
  obtain ⟨r', hr', hfrom, hto⟩ := h.cover r.1 (by omega) (hall r.1 (Nat.le_refl _) (by omega))
  obtain ⟨-, hle', hall', hleft', hright'⟩ := h.run r' hr'
  have hstart : r'.1 = r.1 := by
    by_contra hne
    exact hleft.elim (by omega) fun hnot => hnot (hall' _ (by omega) (by omega))
  have hend : r'.1 + r'.2 = r.1 + r.2 := by
    rcases Nat.lt_trichotomy (r'.1 + r'.2) (r.1 + r.2) with hlt | heq | hgt
    · exact hright'.elim (by omega) fun hnot => absurd (hall _ (by omega) hlt) hnot
    · exact heq
    · exact hright.elim (by omega) fun hnot => absurd (hall' _ (by omega) hgt) hnot
  rwa [Prod.ext hstart (by omega : r'.2 = r.2)] at hr'

/-- There is one list of runs. -/
theorem IsRuns.unique {p : Nat → Prop} {n : Nat} {rs rs' : List (Nat × Nat)} (h : IsRuns p n rs)
    (h' : IsRuns p n rs') : rs = rs' := by
  have hnodup : ∀ {l : List (Nat × Nat)}, l.Pairwise (fun r r' => r.1 + r.2 < r'.1) → l.Nodup :=
    fun hl => hl.imp fun hlt heq => by
      rw [heq] at hlt
      omega
  have hperm : rs.Perm rs' := (List.perm_ext_iff_of_nodup (hnodup h.order) (hnodup h'.order)).2
    fun r => (h.mem_iff r).trans (h'.mem_iff r).symm
  refine hperm.eq_of_pairwise (fun r r' _ _ hlt hgt => ?_) h.order h'.order
  omega

/-- Without the numbers of the first runs the others are left. -/
theorem IsRuns.drop {p : Nat → Prop} {n : Nat} {rs : List (Nat × Nat)} (h : IsRuns p n rs)
    (m : Nat) : IsRuns (fun j => p j ∧ ¬∃ r ∈ rs.take m, r.1 ≤ j ∧ j < r.1 + r.2) n (rs.drop m) := by
  have horder := h.order
  rw [← List.take_append_drop m rs, List.pairwise_append] at horder
  refine ⟨fun r hr => ?_, horder.2.1, fun j hj ⟨hp, hnot⟩ => ?_⟩
  · obtain ⟨hpos, hle, hall, hleft, hright⟩ := h.run r (List.mem_of_mem_drop hr)
    refine ⟨hpos, hle, fun j hfrom hto => ⟨hall j hfrom hto, ?_⟩, ?_, ?_⟩
    · rintro ⟨r', hr', -, hto'⟩
      have := horder.2.2 r' hr' r hr
      omega
    · exact hleft.imp_right fun hnot hp => hnot hp.1
    · exact hright.imp_right fun hnot hp => hnot hp.1
  · obtain ⟨r, hr, hcover⟩ := h.cover j hj hp
    rw [← List.take_append_drop m rs, List.mem_append] at hr
    exact hr.elim (fun hr => absurd ⟨r, hr, hcover⟩ hnot) fun hr => ⟨r, hr, hcover⟩

/-- Only the numbers below `n` matter. -/
theorem IsRuns.congr {p q : Nat → Prop} {n : Nat} {rs : List (Nat × Nat)} (h : IsRuns p n rs)
    (hpq : ∀ k, k < n → (p k ↔ q k)) : IsRuns q n rs where
  run r hr := by
    obtain ⟨hpos, hle, hall, hleft, hright⟩ := h.run r hr
    refine ⟨hpos, hle, fun j hj hlt => (hpq j (by omega)).1 (hall j hj hlt), ?_, ?_⟩
    · exact hleft.imp_right fun hp hq => hp ((hpq _ (by omega)).2 hq)
    · by_cases hend : r.1 + r.2 = n
      · exact .inl hend
      · exact hright.imp_right fun hp hq => hp ((hpq _ (by omega)).2 hq)
  order := h.order
  cover j hj hq := h.cover j hj ((hpq j hj).2 hq)

section Counting

variable (p : Nat → Prop) [DecidablePred p]

/-- How long the run is that goes on at `n`. -/
def streak : Nat → Nat
  | 0 => 0
  | n + 1 => if p n then streak n + 1 else 0

/-- The run that goes on at `n`, if there is one. -/
def current (n : Nat) : List (Nat × Nat) :=
  if streak p n = 0 then [] else [(n - streak p n, streak p n)]

/-- The runs that have ended before `n`. -/
def closed : Nat → List (Nat × Nat)
  | 0 => []
  | n + 1 => if p n then closed n else closed n ++ current p n

/-- The runs below `n`. -/
def runs (n : Nat) : List (Nat × Nat) := closed p n ++ current p n

variable {p}

theorem streak_le (n : Nat) : streak p n ≤ n := by
  induction n with
  | zero => exact Nat.le_refl 0
  | succ n ih =>
    rw [streak]
    split <;> omega

theorem streak_all {n j : Nat} (hj : n - streak p n ≤ j) (hn : j < n) : p j := by
  induction n with
  | zero => omega
  | succ n ih =>
    rw [streak] at hj
    split at hj
    · rename_i hp
      have := @streak_le p _ n
      rcases Nat.lt_or_ge j n with hlt | hge
      · exact ih (by omega) hlt
      · rwa [show j = n by omega]
    · omega

theorem streak_left (n : Nat) : n - streak p n = 0 ∨ ¬p (n - streak p n - 1) := by
  induction n with
  | zero => exact .inl rfl
  | succ n ih =>
    rw [streak]
    split
    · rw [Nat.add_sub_add_right]
      exact ih
    · rename_i hp
      exact .inr hp

/-- A run that has ended before `n`. -/
structure IsClosed (p : Nat → Prop) (n : Nat) (r : Nat × Nat) : Prop where
  pos : 0 < r.2
  lt : r.1 + r.2 < n
  all : ∀ j, r.1 ≤ j → j < r.1 + r.2 → p j
  left : r.1 = 0 ∨ ¬p (r.1 - 1)
  right : ¬p (r.1 + r.2)

theorem current_end {n : Nat} {r : Nat × Nat} (h : r ∈ current p n) :
    r = (n - streak p n, streak p n) ∧ 0 < r.2 ∧ r.1 + r.2 = n := by
  rw [current] at h
  split at h
  · exact absurd h (by simp)
  rename_i hpos
  rw [List.mem_singleton] at h
  have hle := @streak_le p _ n
  subst h
  exact ⟨rfl, Nat.pos_of_ne_zero hpos, Nat.sub_add_cancel hle⟩

theorem current_isRun {n : Nat} {r : Nat × Nat} (h : r ∈ current p n) : IsRun p n r := by
  obtain ⟨rfl, hpos, hend⟩ := current_end h
  exact ⟨hpos, Nat.le_of_eq hend, fun j hj hlt => streak_all hj (Nat.lt_of_lt_of_eq hlt hend),
    streak_left n, .inl hend⟩

theorem closed_isClosed {n : Nat} {r : Nat × Nat} (h : r ∈ closed p n) : IsClosed p n r := by
  induction n with
  | zero => exact absurd h (by simp [closed])
  | succ n ih =>
    have hold : r ∈ closed p n → IsClosed p (n + 1) r := fun hr =>
      ⟨(ih hr).pos, Nat.lt_succ_of_lt (ih hr).lt, (ih hr).all, (ih hr).left, (ih hr).right⟩
    rw [closed] at h
    split at h
    · exact hold h
    rename_i hp
    rcases List.mem_append.1 h with h | h
    · exact hold h
    · obtain ⟨hpos, hle, hall, hleft, -⟩ := current_isRun h
      obtain ⟨-, -, hend⟩ := current_end h
      refine ⟨hpos, Nat.lt_succ_of_le hle, hall, hleft, ?_⟩
      rw [hend]
      exact hp

/-- A run that has ended lies before the one that goes on, with a number between them. -/
theorem closed_lt_current {n : Nat} {r r' : Nat × Nat} (h : r ∈ closed p n)
    (h' : r' ∈ current p n) : r.1 + r.2 < r'.1 := by
  obtain ⟨-, hlt, -, -, hright⟩ := closed_isClosed h
  obtain ⟨-, -, hend⟩ := current_end h'
  by_contra hle
  exact hright ((current_isRun h').all _ (Nat.not_lt.1 hle) (Nat.lt_of_lt_of_eq hlt hend.symm))

theorem closed_order (n : Nat) : (closed p n).Pairwise fun r r' => r.1 + r.2 < r'.1 := by
  induction n with
  | zero => exact List.Pairwise.nil
  | succ n ih =>
    rw [closed]
    split
    · exact ih
    · refine List.pairwise_append.2 ⟨ih, ?_, fun r hr r' hr' => closed_lt_current hr hr'⟩
      rw [current]
      split <;> simp

theorem runs_cover {n j : Nat} (hj : j < n) (hp : p j) :
    ∃ r ∈ runs p n, r.1 ≤ j ∧ j < r.1 + r.2 := by
  induction n with
  | zero => omega
  | succ n ih =>
    rw [runs, closed]
    split
    · rename_i hn
      have hle := @streak_le p _ n
      have hcurrent : current p (n + 1) = [(n - streak p n, streak p n + 1)] := by
        rw [current, streak, if_pos hn, if_neg (Nat.succ_ne_zero _), Nat.add_sub_add_right]
      rw [hcurrent]
      -- The run at `n` goes on, and takes in `n`.
      have hlast : n - streak p n ≤ j →
          ∃ r ∈ closed p n ++ [(n - streak p n, streak p n + 1)], r.1 ≤ j ∧ j < r.1 + r.2 :=
        fun hge => ⟨_, List.mem_append_right _ (List.mem_singleton.2 rfl), hge,
          by dsimp only; omega⟩
      rcases Nat.lt_or_ge j n with hlt | hge
      · obtain ⟨r, hr, hr1, hr2⟩ := ih hlt
        rcases List.mem_append.1 hr with hr | hr
        · exact ⟨r, List.mem_append_left _ hr, hr1, hr2⟩
        · obtain ⟨rfl, -, -⟩ := current_end hr
          exact hlast hr1
      · exact hlast (by omega)
    · rename_i hn
      have hne : j ≠ n := fun h => hn (h ▸ hp)
      obtain ⟨r, hr, hcovers⟩ := ih (by omega)
      exact ⟨r, List.mem_append_left _ hr, hcovers⟩

/-- **Counting finds the runs.** -/
theorem runs_isRuns (n : Nat) : IsRuns p n (runs p n) where
  run r hr := by
    rcases List.mem_append.1 hr with hr | hr
    · obtain ⟨hpos, hlt, hall, hleft, hright⟩ := closed_isClosed hr
      exact ⟨hpos, Nat.le_of_lt hlt, hall, hleft, .inr hright⟩
    · exact current_isRun hr
  order := by
    refine List.pairwise_append.2 ⟨closed_order n, ?_, fun r hr r' hr' => closed_lt_current hr hr'⟩
    rw [current]
    split <;> simp
  cover j hj hp := runs_cover hj hp

end Counting

end Runs
