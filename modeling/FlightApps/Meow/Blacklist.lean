import Mathlib.Data.List.Dedup
import Mathlib.Data.List.Perm.Subperm
import Mathlib.Data.List.TakeWhile
import FlightApps.Meow.Shell

/-!
# What the blacklist blocks

The blacklist is meant to decide by the words of a command.  `Dangerous` says so, without a
tokenizer and without buffers; a protected path covers itself and everything below it, and the root
directory covers every absolute path.  `blocked_iff_dangerous` says when the code agrees: as long as
no buffer is full, exactly if the command is not one that should be blocked for a path that only the
root directory covers, since `target_matches` takes nothing but a second slash to be below `/`.
-/

set_option autoImplicit false

namespace FlightApps
namespace Meow

/-! ## The words of a command -/

/-- The maximal runs of characters that are not blank. -/
def words (s : List UInt8) : List (List UInt8) := (s.splitOnP isBlank).filter fun w => w ≠ []

theorem words_nil : words [] = [] := by simp [words]

theorem words_blank {c : UInt8} (h : isBlank c = true) (s : List UInt8) :
    words (c :: s) = words s := by
  simp [words, List.splitOnP_cons_eq_if_modifyHead, h]

theorem words_skipBlanks (s : List UInt8) : words (skipBlanks s) = words s := by
  induction s with
  | nil => simp [skipBlanks]
  | cons c s ih =>
    by_cases h : isBlank c = true
    · rw [words_blank h, ← ih, skipBlanks, skipBlanks, List.dropWhile_cons_of_pos h]
    · rw [skipBlanks, List.dropWhile_cons_of_neg h]

/-- A word that ends with the string, or before a blank. -/
theorem words_append {w rest : List UInt8} (hw : w ≠ []) (hblank : ∀ c ∈ w, isBlank c = false)
    (hrest : ∀ c, rest.head? = some c → isBlank c = true) :
    words (w ++ rest) = w :: words rest := by
  cases rest with
  | nil => simp [words, List.splitOnP_eq_singleton hblank, hw]
  | cons c rest =>
    have hc : isBlank c = true := hrest c rfl
    rw [words_blank hc, words, List.splitOnP_append_cons_of_forall_mem hblank c hc, words]
    simp [hw]

/-- What reading a token comes to when the word fits the buffer. -/
theorem readToken_spec (room : Nat) : ∀ p : List UInt8,
    (p.takeWhile fun c => !isBlank c).length ≤ room →
      readToken room p = (p.takeWhile fun c => !isBlank c, p.dropWhile fun c => !isBlank c) := by
  induction room with
  | zero =>
    intro p hp
    cases p with
    | nil => simp [readToken]
    | cons c p =>
      by_cases h : isBlank c = true
      · simp [readToken, h]
      · simp [h] at hp
  | succ room ih =>
    intro p hp
    cases p with
    | nil => simp [readToken]
    | cons c p =>
      by_cases h : isBlank c = true
      · simp [readToken, h]
      · have hle : (p.takeWhile fun c => !isBlank c).length ≤ room := by simpa [h] using hp
        simp [readToken, h, ih p hle]

/-- The first word and the rest of a string that starts with it. -/
theorem words_cons {c : UInt8} {p : List UInt8} (h : isBlank c = false) :
    words (c :: p) = ((c :: p).takeWhile fun c => !isBlank c) ::
      words ((c :: p).dropWhile fun c => !isBlank c) := by
  have hsplit : ((c :: p).takeWhile fun c => !isBlank c) ++
      ((c :: p).dropWhile fun c => !isBlank c) = c :: p := List.takeWhile_append_dropWhile
  rw [← words_append (by simp [h]) (fun x hx => ?_) (fun x hx => ?_), hsplit]
  · simpa using List.mem_takeWhile_imp hx
  · have hhead := List.head?_dropWhile_not (fun c => !isBlank c) (c :: p)
    rw [hx] at hhead
    simpa using hhead

/-! ## What should be blocked -/

/-- The characters of a word that starts with a single dash, or none. -/
def flagsOf (w : List UInt8) : List UInt8 :=
  if w.head? = some dash ∧ w.tail.head? ≠ some dash then w.tail else []

/-- The words that do not start with a dash. -/
def operands (ws : List (List UInt8)) : List (List UInt8) :=
  ws.filter fun w => decide (w.head? ≠ some dash)

/-- A directory, without the slash that may end it. -/
def directory (path : List UInt8) : List UInt8 :=
  if path.getLast? = some slash then path.dropLast else path

/-- A path is the protected one, or below it. -/
def AtOrBelow (path target : List UInt8) : Prop :=
  (directory path ≠ [] ∧ target = directory path) ∨ directory path ++ [slash] <+: target

/-- A name is the one of a command, or that followed by a dot. -/
def Named (cmd name : List UInt8) : Prop := name = cmd ∨ cmd ++ [dot] <+: name

/-- A rule matches the words of a command. -/
def ShellRule.Matches (rule : ShellRule) : List (List UInt8) → Prop
  | [] => False
  | first :: rest =>
    Named rule.cmd (cmdBasename first) ∧
      (∀ required, rule.reqFlags = some required → ∀ c ∈ required, ∃ w ∈ rest, c ∈ flagsOf w) ∧
      ∀ path, rule.targetPfx = some path → ∃ w ∈ operands rest, AtOrBelow path (valueOf w)

/-- The command is one that the blacklist names. -/
def Dangerous (s : List UInt8) : Prop := ∃ rule ∈ gBlacklist, rule.Matches (words s)

/-! ## Within the limits -/

/-- No word is longer than a token, all flags have room, and no word comes after the last target
that is kept. -/
structure WithinLimits (s : List UInt8) : Prop where
  short : ∀ w ∈ words s, w.length < blMaxTokenLen
  flags : ((words s).tail.flatMap flagsOf).dedup.length < blMaxTokenLen
  targets : (operands (words s).tail.dropLast).length < blMaxTokens

/-- The tokens taken one after the other, as long as there is room for a target. -/
def addTokens (args : ShellArgs) : List (List UInt8) → ShellArgs
  | [] => args
  | w :: ws => if args.targets.length ≥ blMaxTokens then args else addTokens (addToken args w) ws

theorem isBlank_of_skipBlanks {p : List UInt8} {c : UInt8} {q : List UInt8}
    (h : skipBlanks p = c :: q) : isBlank c = false := by
  have hhead := List.head?_dropWhile_not isBlank p
  rw [show p.dropWhile isBlank = c :: q from h] at hhead
  simpa using hhead

theorem length_skipBlanks_le (p : List UInt8) : (skipBlanks p).length ≤ p.length :=
  (List.dropWhile_suffix _).length_le

/-- **The tokens are the words.** -/
theorem readTokens_eq (rounds : Nat) : ∀ (p : List UInt8) (args : ShellArgs), p.length ≤ rounds →
    (∀ w ∈ words p, w.length < blMaxTokenLen) →
      readTokens rounds p args = addTokens args (words p) := by
  induction rounds with
  | zero =>
    intro p args hp _
    have hnil : p = [] := List.eq_nil_of_length_eq_zero (by omega)
    simp [readTokens, hnil, words_nil, addTokens]
  | succ rounds ih =>
    intro p args hp hshort
    rw [readTokens]
    by_cases hfull : args.targets.length ≥ blMaxTokens
    · rw [if_pos (Or.inr hfull)]
      cases words p <;> simp [addTokens, hfull]
    by_cases hnil : p = []
    · simp [hnil, words_nil, addTokens]
    rw [if_neg (by tauto), ← words_skipBlanks]
    rw [← words_skipBlanks] at hshort
    have hlength := length_skipBlanks_le p
    cases hskip : skipBlanks p with
    | nil => simp [words_nil, addTokens]
    | cons c q =>
      rw [hskip] at hshort hlength
      have hc := isBlank_of_skipBlanks hskip
      rw [words_cons hc] at hshort ⊢
      have hfits := hshort _ List.mem_cons_self
      have hpos : 0 < ((c :: q).takeWhile fun c => !isBlank c).length := by simp [hc]
      have hsum := congrArg List.length
        (List.takeWhile_append_dropWhile (p := fun c => !isBlank c) (l := c :: q))
      rw [List.length_append] at hsum
      dsimp only
      rw [readToken_spec _ _ (by omega), addTokens, if_neg hfull]
      dsimp only
      exact ih _ _ (by omega) fun w hw => hshort w (List.mem_cons_of_mem _ hw)

/-! ## Flags and targets -/

theorem addToken_targets (args : ShellArgs) (w : List UInt8) :
    (addToken args w).targets = args.targets ++ (operands [w]).map valueOf := by
  rcases w with _ | ⟨a, _ | ⟨b, w⟩⟩
  · simp [addToken, operands]
  · by_cases ha : a = dash <;> simp [addToken, operands, ha]
  · by_cases ha : a = dash <;> by_cases hb : b = dash <;> simp [addToken, operands, ha, hb]

theorem addToken_flags (args : ShellArgs) (w : List UInt8) :
    (addToken args w).flags = (flagsOf w).foldl addFlag args.flags := by
  rcases w with _ | ⟨a, _ | ⟨b, w⟩⟩
  · simp [addToken, flagsOf]
  · by_cases ha : a = dash <;> simp [addToken, flagsOf, ha]
  · by_cases ha : a = dash <;> by_cases hb : b = dash <;> simp [addToken, flagsOf, ha, hb]

/-- All targets are kept as long as no word comes after the last one there is room for. -/
theorem addTokens_targets (ws : List (List UInt8)) : ∀ args : ShellArgs,
    args.targets.length + (operands ws.dropLast).length < blMaxTokens →
      addTokens args ws = ws.foldl addToken args := by
  induction ws with
  | nil => simp [addTokens]
  | cons w ws ih =>
    intro args hroom
    rw [addTokens, if_neg (by omega), List.foldl_cons]
    cases ws with
    | nil => simp [addTokens]
    | cons w' ws =>
      refine ih _ ?_
      rw [List.dropLast_cons_of_ne_nil (by simp)] at hroom
      rw [addToken_targets, List.length_append, List.length_map]
      have hcons : operands (w :: (w' :: ws).dropLast) =
          operands [w] ++ operands (w' :: ws).dropLast := by
        simp [operands, List.filter_cons]
        split <;> simp
      rw [hcons, List.length_append] at hroom
      omega

theorem foldl_addToken_targets (ws : List (List UInt8)) : ∀ args : ShellArgs,
    (ws.foldl addToken args).targets = args.targets ++ (operands ws).map valueOf := by
  induction ws with
  | nil => simp [operands]
  | cons w ws ih =>
    intro args
    rw [List.foldl_cons, ih, addToken_targets, List.append_assoc, ← List.map_append, operands,
      operands, operands, ← List.filter_append, List.singleton_append]

theorem foldl_addToken_flags (ws : List (List UInt8)) : ∀ args : ShellArgs,
    (ws.foldl addToken args).flags = (ws.flatMap flagsOf).foldl addFlag args.flags := by
  induction ws with
  | nil => simp
  | cons w ws ih =>
    intro args
    rw [List.foldl_cons, ih, addToken_flags, List.flatMap_cons, List.foldl_append]

/-- As long as the flags fit, each of them is kept, and once. -/
theorem mem_foldl_addFlag (all : List UInt8) (hall : all.dedup.length < blMaxTokenLen)
    (new : List UInt8) : ∀ flags : List UInt8, flags.Nodup → flags ⊆ all → new ⊆ all →
      ∀ c, c ∈ new.foldl addFlag flags ↔ c ∈ flags ∨ c ∈ new := by
  induction new with
  | nil => simp
  | cons f new ih =>
    intro flags hnodup hflags hnew c
    have hf : f ∈ all := hnew List.mem_cons_self
    have hnew' : new ⊆ all := fun x hx => hnew (List.mem_cons_of_mem _ hx)
    rw [List.foldl_cons, addFlag]
    by_cases hmem : f ∈ flags
    · have hcontains : flags.contains f = true := by simpa using hmem
      simp only [hcontains, Bool.not_true, Bool.false_and, Bool.false_eq_true, if_false,
        List.mem_cons]
      rw [ih flags hnodup hflags hnew']
      constructor
      · tauto
      · rintro (h | rfl | h) <;> tauto
    · -- the new flag finds room: with it the flags are still among the different ones
      have hnodup' : (flags ++ [f]).Nodup := by
        rw [List.nodup_append]
        refine ⟨hnodup, List.nodup_singleton f, fun a ha b hb => ?_⟩
        rw [List.mem_singleton] at hb
        exact fun heq => hmem (hb ▸ heq ▸ ha)
      have hsub : flags ++ [f] ⊆ all := by
        intro x hx
        rcases List.mem_append.1 hx with hx | hx
        · exact hflags hx
        · exact List.mem_singleton.1 hx ▸ hf
      have hle : (flags ++ [f]).length ≤ all.dedup.length :=
        (List.subperm_of_subset hnodup' fun x hx => List.mem_dedup.2 (hsub hx)).length_le
      have hroom : flags.length < blMaxTokenLen - 1 := by
        rw [List.length_append, List.length_singleton] at hle
        omega
      have hcontains : flags.contains f = false := by simpa using hmem
      simp only [hcontains, hroom, Bool.not_false, decide_true, Bool.and_self, if_true]
      rw [ih _ hnodup' hsub hnew']
      rw [List.mem_append, List.mem_singleton, List.mem_cons, or_assoc]

/-! ## The rules -/

/-- Begin with these characters, and then end or go on with `d`. -/
theorem take_then_iff (front text : List UInt8) (d : UInt8) :
    text.take front.length = front ∧ atEndOr d (text.drop front.length) = true ↔
      text = front ∨ front ++ [d] <+: text := by
  constructor
  · rintro ⟨htake, hnext⟩
    have hsplit := List.take_append_drop front.length text
    rw [htake] at hsplit
    cases hdrop : text.drop front.length with
    | nil =>
      rw [hdrop, List.append_nil] at hsplit
      exact Or.inl hsplit.symm
    | cons c rest =>
      rw [hdrop] at hsplit hnext
      refine Or.inr ⟨rest, ?_⟩
      rw [atEndOr, beq_iff_eq] at hnext
      rw [← hsplit, ← hnext, List.append_assoc, List.singleton_append]
  · rintro (rfl | ⟨rest, rfl⟩) <;> simp [atEndOr]

/-- A protected path other than the root directory. -/
theorem targetMatches_iff {path : List UInt8} (h : directory path ≠ []) (target : List UInt8) :
    targetMatches target path = true ↔ AtOrBelow path target := by
  have hcmp : (if path.length > 1 ∧ path.getLast? = some slash then path.length - 1
      else path.length) = (directory path).length ∧
      path.take (directory path).length = directory path := by
    unfold directory at h ⊢
    by_cases hlast : path.getLast? = some slash
    · rw [if_pos hlast] at h ⊢
      have hlong : path.length > 1 := by
        have hpos := List.length_pos_iff.2 h
        rw [List.length_dropLast] at hpos
        omega
      simp [hlast, hlong, List.dropLast_eq_take]
    · simp [hlast]
  simp only [targetMatches, hcmp.1, hcmp.2, AtOrBelow, h, not_false_eq_true, ne_eq, true_and]
  rw [← take_then_iff]
  by_cases htake : target.take (directory path).length = directory path <;> simp [htake]

/-- The root directory: only itself, and what starts with two slashes. -/
theorem targetMatches_root (target : List UInt8) :
    targetMatches target [slash] = true ↔ target = [slash] ∨ [slash, slash] <+: target := by
  rcases target with _ | ⟨a, _ | ⟨b, target⟩⟩
  · simp [targetMatches]
  · simp [targetMatches, atEndOr]
  · simp only [targetMatches, List.length_singleton]
    by_cases ha : a = slash <;> by_cases hb : b = slash <;> simp [atEndOr, ha, hb, Ne.symm]

/-- What a rule needs of the flags and the targets, as the code tests it. -/
theorem ruleFires_iff (cmd : List UInt8) (args : ShellArgs) (rule : ShellRule) :
    ruleFires cmd args rule = true ↔ Named rule.cmd cmd ∧
      (∀ required, rule.reqFlags = some required → ∀ c ∈ required, c ∈ args.flags) ∧
      ∀ pfx, rule.targetPfx = some pfx → ∃ t ∈ args.targets, targetMatches t pfx = true := by
  rw [Named, ← take_then_iff, ruleFires]
  cases rule.reqFlags <;> cases rule.targetPfx <;>
    simp [hasAllFlags, and_assoc]

/-! ## The code on words -/

/-- A rule fires on the words of a command. -/
def ShellRule.Fires (rule : ShellRule) : List (List UInt8) → Prop
  | [] => False
  | first :: rest =>
    Named rule.cmd (cmdBasename first) ∧
      (∀ required, rule.reqFlags = some required → ∀ c ∈ required, ∃ w ∈ rest, c ∈ flagsOf w) ∧
      ∀ pfx, rule.targetPfx = some pfx →
        ∃ w ∈ operands rest, targetMatches (valueOf w) pfx = true

theorem words_eq_nil {s : List UInt8} (h : skipBlanks s = []) : words s = [] := by
  rw [← words_skipBlanks, h, words_nil]

/-- **Within the limits the code decides by words**, with `target_matches` for the paths. -/
theorem cmdIsBlocked_iff {s : List UInt8} (h : WithinLimits s) :
    cmdIsBlocked s = true ↔ ∃ rule ∈ gBlacklist, rule.Fires (words s) := by
  have hshort := h.short
  have hflags := h.flags
  have htargets := h.targets
  rw [cmdIsBlocked]
  cases hskip : skipBlanks s with
  | nil =>
    have hnone : (gBlacklist.any fun rule => ruleFires (cmdBasename []) ⟨[], []⟩ rule) = false := by
      decide
    rw [readToken_spec _ _ (by simp)]
    simpa [words_eq_nil hskip, ShellRule.Fires, readTokens] using hnone
  | cons c p =>
    have hwords := words_skipBlanks s
    rw [hskip, words_cons (isBlank_of_skipBlanks hskip)] at hwords
    rw [← hwords] at hshort hflags htargets ⊢
    rw [List.tail_cons] at hflags htargets
    have hfirst := hshort _ List.mem_cons_self
    rw [readToken_spec _ _ (by omega)]
    dsimp only
    generalize (c :: p).takeWhile (fun c => !isBlank c) = first at hshort ⊢
    generalize (c :: p).dropWhile (fun c => !isBlank c) = q at hshort hflags htargets ⊢
    rw [readTokens_eq _ q _ (Nat.le_refl _) fun w hw => hshort w (List.mem_cons_of_mem _ hw),
      addTokens_targets _ _ (by simpa using htargets), List.any_eq_true]
    refine exists_congr fun rule => and_congr_right fun _ => ?_
    have hkept : ∀ c, c ∈ ((words q).foldl addToken ⟨[], []⟩).flags ↔
        ∃ w ∈ words q, c ∈ flagsOf w := fun c => by
      rw [foldl_addToken_flags, mem_foldl_addFlag _ hflags _ [] List.nodup_nil
        (List.nil_subset _) (List.Subset.refl _) c]
      simp
    rw [ruleFires_iff, ShellRule.Fires]
    simp only [hkept, foldl_addToken_targets, List.nil_append, List.mem_map,
      exists_exists_and_eq_and]

/-! ## The root directory -/

/-- A command that only the root directory protects: a recursive `rm` or `shred` of an absolute
path, where no path is `/` itself or starts with two slashes, and for `rm` none is in one of the
other two protected directories. -/
def OnlyUnderRoot (s : List UInt8) : Prop :=
  match words s with
  | [] => False
  | first :: rest =>
    (Named (chars "rm") (cmdBasename first) ∨ Named (chars "shred") (cmdBasename first)) ∧
      (∃ w ∈ rest, ∃ c ∈ chars "rR", c ∈ flagsOf w) ∧
      (∃ w ∈ operands rest, [slash] <+: valueOf w) ∧
      (¬∃ w ∈ operands rest, valueOf w = [slash] ∨ [slash, slash] <+: valueOf w) ∧
      (Named (chars "rm") (cmdBasename first) →
        ¬∃ w ∈ operands rest,
          AtOrBelow (chars "/root") (valueOf w) ∨ AtOrBelow (chars "/etc") (valueOf w))

/-- A name begins like the command it is the one of. -/
theorem Named.head?_eq {cmd name : List UInt8} (h : Named cmd name) (hcmd : cmd ≠ []) :
    name.head? = cmd.head? := by
  obtain ⟨c, cmd, rfl⟩ := List.exists_cons_of_ne_nil hcmd
  rcases h with rfl | ⟨rest, rfl⟩ <;> simp

/-- Two commands that begin differently do not go by one name. -/
theorem Named.disjoint {a b name : List UInt8} (ha : a ≠ []) (hb : b ≠ []) (h : a.head? ≠ b.head?) :
    Named a name → ¬Named b name := fun hna hnb =>
  h ((hna.head?_eq ha).symm.trans (hnb.head?_eq hb))

/-- A path in a directory below the root is absolute. -/
theorem AtOrBelow.absolute {path target : List UInt8} (h : AtOrBelow path target)
    (hpath : [slash] <+: directory path) : [slash] <+: target := by
  rcases h with ⟨-, rfl⟩ | h
  · exact hpath
  · exact (hpath.trans (List.prefix_append _ _)).trans h

/-- The blacklist summed up, for any test of the name, the flags and the paths. -/
theorem exists_rule_iff (N : List UInt8 → Prop) (F : UInt8 → Prop) (P : List UInt8 → Prop) :
    (∃ rule ∈ gBlacklist, N rule.cmd ∧
      (∀ required, rule.reqFlags = some required → ∀ c ∈ required, F c) ∧
      ∀ path, rule.targetPfx = some path → P path) ↔
    (N (chars "rm") ∧ (∃ c ∈ chars "rR", F c) ∧
        (P (chars "/") ∨ P (chars "/root") ∨ P (chars "/etc"))) ∨
      N (chars "mkfs") ∨ (N (chars "dd") ∧ P (chars "/dev/")) ∨
      N (chars "shred") ∧ (∃ c ∈ chars "rR", F c) ∧ P (chars "/") := by
  have hr : chars "r" = [0x72] := by decide
  have hR : chars "R" = [0x52] := by decide
  have hrR : chars "rR" = [0x72, 0x52] := by decide
  simp only [gBlacklist, List.mem_cons, List.not_mem_nil, or_false, exists_eq_or_imp,
    exists_eq_left, Option.some.injEq, forall_eq', hr, hR, hrR, forall_eq, reduceCtorEq,
    false_implies, implies_true, true_and, and_true]
  generalize N (chars "rm") = rm, N (chars "mkfs") = mkfs, N (chars "dd") = dd
  generalize N (chars "shred") = shred, F 0x72 = r, F 0x52 = R
  generalize P (chars "/") = root, P (chars "/root") = home, P (chars "/etc") = etc
  generalize P (chars "/dev/") = dev
  grind

/-- **The blacklist decides by words** within the limits of its buffers, except for commands that
only the root directory protects. -/
theorem blocked_iff_dangerous (s : List UInt8) (h : WithinLimits s) :
    (cmdIsBlocked s = true ↔ Dangerous s) ↔ ¬OnlyUnderRoot s := by
  rw [cmdIsBlocked_iff h, Dangerous, OnlyUnderRoot]
  cases words s with
  | nil => simp [ShellRule.Fires, ShellRule.Matches]
  | cons first rest =>
    simp only [ShellRule.Fires, ShellRule.Matches]
    rw [exists_rule_iff (Named · (cmdBasename first)), exists_rule_iff (Named · (cmdBasename first))]
    -- the paths other than the root
    have hother : ∀ path ∈ [chars "/root", chars "/etc", chars "/dev/"],
        (∃ w ∈ operands rest, targetMatches (valueOf w) path = true) ↔
          ∃ w ∈ operands rest, AtOrBelow path (valueOf w) := fun path hpath =>
      exists_congr fun w => and_congr_right fun _ =>
        targetMatches_iff (by revert path; decide) (valueOf w)
    have hroot : (∃ w ∈ operands rest, targetMatches (valueOf w) (chars "/") = true) ↔
        ∃ w ∈ operands rest, valueOf w = [slash] ∨ [slash, slash] <+: valueOf w :=
      exists_congr fun w => and_congr_right fun _ => targetMatches_root (valueOf w)
    have hbelow : (∃ w ∈ operands rest, AtOrBelow (chars "/") (valueOf w)) ↔
        ∃ w ∈ operands rest, [slash] <+: valueOf w := by
      have hdir : directory (chars "/") = [] := by decide
      simp [AtOrBelow, hdir]
    have habs : (∃ w ∈ operands rest, valueOf w = [slash] ∨ [slash, slash] <+: valueOf w) →
        ∃ w ∈ operands rest, [slash] <+: valueOf w := by
      rintro ⟨w, hw, h | h⟩
      · exact ⟨w, hw, h ▸ List.prefix_refl _⟩
      · exact ⟨w, hw, (List.prefix_append [slash] [slash]).trans h⟩
    have hexcl : ∀ a ∈ [chars "rm", chars "shred"], ∀ b ∈ [chars "mkfs", chars "dd"],
        Named a (cmdBasename first) → ¬Named b (cmdBasename first) := fun a ha b hb =>
      Named.disjoint (by revert a; decide) (by revert b; decide) (by revert a b; decide)
    have hsplit : (∃ w ∈ operands rest,
        AtOrBelow (chars "/root") (valueOf w) ∨ AtOrBelow (chars "/etc") (valueOf w)) ↔
        (∃ w ∈ operands rest, AtOrBelow (chars "/root") (valueOf w)) ∨
          ∃ w ∈ operands rest, AtOrBelow (chars "/etc") (valueOf w) := by
      simp only [and_or_left, exists_or]
    have hflags : (∃ c ∈ chars "rR", ∃ w ∈ rest, c ∈ flagsOf w) ↔
        ∃ w ∈ rest, ∃ c ∈ chars "rR", c ∈ flagsOf w := by
      constructor <;> rintro ⟨a, ha, b, hb, h⟩ <;> exact ⟨b, hb, a, ha, h⟩
    have hrm := hexcl (chars "rm") (by simp)
    have hshred := hexcl (chars "shred") (by simp)
    have h1 := hrm (chars "mkfs") (by simp)
    have h2 := hrm (chars "dd") (by simp)
    have h3 := hshred (chars "mkfs") (by simp)
    have h4 := hshred (chars "dd") (by simp)
    rw [hroot, hother _ (by simp), hother _ (by simp), hother _ (by simp), hbelow, hflags, hsplit]
    constructor
    · -- a command only under the root is dangerous, and no rule fires on it
      rintro hiff ⟨hname, hrec, hpath, hnoRoot, hnoOther⟩
      have hblocked := hiff.2 (by
        rcases hname with hname | hname
        · exact Or.inl ⟨hname, hrec, Or.inl hpath⟩
        · exact Or.inr (Or.inr (Or.inr ⟨hname, hrec, hpath⟩)))
      rcases hblocked with ⟨hname', -, hmatch | hmatch⟩ | hname' | ⟨hname', -⟩ | ⟨-, -, hmatch⟩
      · exact hnoRoot hmatch
      · exact hnoOther hname' hmatch
      · exact hname.elim (fun h => h1 h hname') fun h => h3 h hname'
      · exact hname.elim (fun h => h2 h hname') fun h => h4 h hname'
      · exact hnoRoot hmatch
    · intro hnot
      constructor
      · rintro (⟨hname, hrec, hmatch | hmatch⟩ | hname | hname | ⟨hname, hrec, hmatch⟩)
        · exact Or.inl ⟨hname, hrec, Or.inl (habs hmatch)⟩
        · exact Or.inl ⟨hname, hrec, Or.inr hmatch⟩
        · exact Or.inr (Or.inl hname)
        · exact Or.inr (Or.inr (Or.inl hname))
        · exact Or.inr (Or.inr (Or.inr ⟨hname, hrec, habs hmatch⟩))
      · intro hdanger
        by_contra hmiss
        simp only [not_or, not_and] at hmiss
        obtain ⟨hrm', hmkfs', hdd', hshred'⟩ := hmiss
        rcases hdanger with ⟨hname, hrec, hmatch | hmatch⟩ | hname | ⟨hname, hmatch⟩ |
          ⟨hname, hrec, hmatch⟩
        · exact hnot ⟨Or.inl hname, hrec, hmatch, (hrm' hname hrec).1, fun _ h =>
            h.elim (hrm' hname hrec).2.1 (hrm' hname hrec).2.2⟩
        · exact hmatch.elim (hrm' hname hrec).2.1 (hrm' hname hrec).2.2
        · exact hmkfs' hname
        · exact hdd' hname hmatch
        · refine hnot ⟨Or.inr hname, hrec, hmatch, hshred' hname hrec, fun hname' h => ?_⟩
          exact h.elim (hrm' hname' hrec).2.1 (hrm' hname' hrec).2.2

/-- A command that is blocked, and should be. -/
theorem blocked_iff_dangerous_mkfs :
    let s := chars "mkfs.ext4 /dev/sda"
    cmdIsBlocked s = true ∧ Dangerous s := by
  intro s
  have hwords : words s = [chars "mkfs.ext4", chars "/dev/sda"] := by
    simp [s, words, chars, List.splitOnP_cons_eq_if_modifyHead, isBlank]
  have hlimits : WithinLimits s := by
    constructor <;> rw [hwords] <;> decide
  have hnot : ¬OnlyUnderRoot s := by
    rw [OnlyUnderRoot, hwords]
    rintro ⟨h | h, -⟩
    · exact absurd (h.head?_eq (by decide)) (by decide)
    · exact absurd (h.head?_eq (by decide)) (by decide)
  have hblocked : cmdIsBlocked s = true := by decide
  exact ⟨hblocked, ((blocked_iff_dangerous s hlimits).2 hnot).1 hblocked⟩

/-- **Two commands that go through**: a recursive `rm` of a directory below the root, and one of the
root itself after sixteen other targets. -/
theorem dangerous_not_blocked :
    (Dangerous (chars "rm -r /home") ∧ cmdIsBlocked (chars "rm -r /home") = false) ∧
      Dangerous (chars "rm a b c d e f g h i j k l m n o p -r /") ∧
      cmdIsBlocked (chars "rm a b c d e f g h i j k l m n o p -r /") = false := by
  have hdanger : ∀ s rest target, words s = chars "rm" :: rest → chars "-r" ∈ rest →
      target ∈ operands rest → [slash] <+: valueOf target → Dangerous s := by
    intro s rest target hwords hflag htarget hpath
    refine ⟨⟨chars "rm", some (chars "r"), some (chars "/")⟩, by simp [gBlacklist], ?_⟩
    rw [hwords]
    refine ⟨Or.inl (by decide), fun required hreq c hc => ⟨chars "-r", hflag, ?_⟩,
      fun path hpfx => ⟨target, htarget, Or.inr ?_⟩⟩
    · rw [Option.some.injEq] at hreq
      have hr : chars "r" = [0x72] := by decide
      rw [← hreq, hr, List.mem_singleton] at hc
      subst hc
      decide
    · rw [Option.some.injEq] at hpfx
      subst hpfx
      exact hpath
  refine ⟨⟨hdanger _ [chars "-r", chars "/home"] (chars "/home") ?_ (by decide) (by decide)
    (by decide), by decide⟩, hdanger _ [chars "a", chars "b", chars "c", chars "d", chars "e",
      chars "f", chars "g", chars "h", chars "i", chars "j", chars "k", chars "l", chars "m",
      chars "n", chars "o", chars "p", chars "-r", chars "/"] (chars "/") ?_ (by decide) (by decide)
    (by decide), by decide⟩
  · simp [words, chars, List.splitOnP_cons_eq_if_modifyHead, isBlank]
  · simp [words, chars, List.splitOnP_cons_eq_if_modifyHead, isBlank]

end Meow
end FlightApps
