import FlightApps.Kisscam.Commands

/-!
# The paths of images

A path says the slot, the image and the range of lines it is for (`imagePath_inj`), and none is that
of the table.
-/

set_option autoImplicit false

namespace FlightApps
namespace Kisscam

/-! ## Numbers in a path -/

/-- Where digits end is determined. -/
theorem digits_append_inj {xs ys rest rest' : List Char} (hxs : ∀ c ∈ xs, c.isDigit = true)
    (hys : ∀ c ∈ ys, c.isDigit = true) (hrest : ∀ c ∈ rest.head?, c.isDigit = false)
    (hrest' : ∀ c ∈ rest'.head?, c.isDigit = false) (h : xs ++ rest = ys ++ rest') :
    xs = ys ∧ rest = rest' := by
  induction xs generalizing ys with
  | nil =>
    cases ys with
    | nil => exact ⟨rfl, h⟩
    | cons y ys =>
      have hy : y.isDigit = false := hrest y (by rw [← List.nil_append rest, h]; rfl)
      rw [hys y List.mem_cons_self] at hy
      exact absurd hy (by decide)
  | cons x xs ih =>
    cases ys with
    | nil =>
      have hx : x.isDigit = false := hrest' x (by rw [← List.nil_append rest', ← h]; rfl)
      rw [hxs x List.mem_cons_self] at hx
      exact absurd hx (by decide)
    | cons y ys =>
      rw [List.cons_append, List.cons_append, List.cons.injEq] at h
      obtain ⟨rfl, h⟩ := h
      obtain ⟨rfl, rfl⟩ := ih (fun c hc => hxs c (List.mem_cons_of_mem _ hc))
        (fun c hc => hys c (List.mem_cons_of_mem _ hc)) h
      exact ⟨rfl, rfl⟩

theorem isDigit_decimal (n : Nat) : ∀ c ∈ decimal n, c.isDigit = true :=
  fun _ hc => Nat.isDigit_of_mem_toDigits (by decide) (by decide) hc

theorem decimal_inj {n n' : Nat} (h : decimal n = decimal n') : n = n' := by
  have hn := @Nat.ofDigitChars_ten_toDigits n
  rwa [show Nat.toDigits 10 n = Nat.toDigits 10 n' from h, Nat.ofDigitChars_ten_toDigits, eq_comm] at hn

theorem decimal3_eq (n : Nat) : decimal3 n = List.replicate (3 - (decimal n).length) '0' ++ decimal n :=
  rfl

theorem isDigit_decimal3 (n : Nat) : ∀ c ∈ decimal3 n, c.isDigit = true := by
  intro c hc
  rw [decimal3_eq, List.mem_append] at hc
  rcases hc with hc | hc
  · rw [(List.mem_replicate.1 hc).2]
    decide
  · exact isDigit_decimal n c hc

theorem ofDigitChars_zeros (m : Nat) (cs : List Char) :
    Nat.ofDigitChars 10 (List.replicate m '0' ++ cs) 0 = Nat.ofDigitChars 10 cs 0 := by
  induction m with
  | zero => rfl
  | succ m ih =>
    rw [List.replicate_succ, List.cons_append, ← ih]
    rfl

theorem decimal3_inj {n n' : Nat} (h : decimal3 n = decimal3 n') : n = n' := by
  have hvalue := congrArg (fun cs => Nat.ofDigitChars 10 cs 0) h
  simp only [decimal3_eq, ofDigitChars_zeros, decimal, Nat.ofDigitChars_ten_toDigits] at hvalue
  exact hvalue

/-! ## Paths -/

/-- The part of a path behind the image, for a line or a range. -/
def rangeText (startLine lineNum : Nat) : List Char :=
  decimal3 startLine ++ if lineNum = 0 then [] else '-' :: decimal3 (startLine + lineNum - 1)

theorem imagePath_eq (mem idx startLine lineNum : Nat) : imagePath mem idx startLine lineNum =
    imgPath ++ (decimal mem ++ '_' :: (decimal idx ++ '_' :: rangeText startLine lineNum)) := by
  rw [imagePath, rangeText]
  split <;> simp

theorem rangeText_inj {start num start' num' : Nat} (h : rangeText start num = rangeText start' num') :
    start = start' ∧ num = num' := by
  have hhead : ∀ s n : Nat,
      ∀ c ∈ (if n = 0 then [] else '-' :: decimal3 (s + n - 1)).head?, c.isDigit = false := by
    intro s n c hc
    split at hc
    · exact absurd hc (by simp)
    · obtain rfl : '-' = c := by simpa using hc
      decide
  obtain ⟨hstart, htail⟩ := digits_append_inj (isDigit_decimal3 start) (isDigit_decimal3 start')
    (hhead start num) (hhead start' num') h
  obtain rfl := decimal3_inj hstart
  refine ⟨rfl, ?_⟩
  split at htail <;> split at htail
  · omega
  · exact absurd htail (by simp)
  · exact absurd htail (by simp)
  · have := decimal3_inj (List.cons.inj htail).2
    omega

/-- **A path says what it is for.** -/
theorem imagePath_inj {mem idx start num mem' idx' start' num' : Nat}
    (h : imagePath mem idx start num = imagePath mem' idx' start' num') :
    mem = mem' ∧ idx = idx' ∧ start = start' ∧ num = num' := by
  have hhead : ∀ cs : List Char, ∀ c ∈ ('_' :: cs).head?, c.isDigit = false := by
    intro cs c hc
    obtain rfl : '_' = c := by simpa using hc
    decide
  rw [imagePath_eq, imagePath_eq, List.append_cancel_left_eq] at h
  obtain ⟨hmem, h⟩ := digits_append_inj (isDigit_decimal mem) (isDigit_decimal mem') (hhead _)
    (hhead _) h
  obtain ⟨hidx, h⟩ := digits_append_inj (isDigit_decimal idx) (isDigit_decimal idx') (hhead _)
    (hhead _) (List.cons.inj h).2
  obtain ⟨hstart, hnum⟩ := rangeText_inj (List.cons.inj h).2
  exact ⟨decimal_inj hmem, decimal_inj hidx, hstart, hnum⟩

theorem imagePath_ne_tblPath (mem idx start num : Nat) : imagePath mem idx start num ≠ tblPath := by
  rw [imagePath_eq]
  intro h
  have hchar := congrArg (fun cs => cs[12]?) h
  simp only [List.getElem?_append_left (show 12 < imgPath.length by decide)] at hchar
  exact absurd hchar (by decide)

end Kisscam
end FlightApps
