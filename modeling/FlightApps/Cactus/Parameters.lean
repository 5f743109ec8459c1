import Mathlib.Data.List.Forall2
import Mathlib.Data.List.TakeWhile
import FlightApps.Cactus.Payload

/-!
# Parameters that are sent as they were entered

A text stands for a value of its definition, or for several with commas between them, or for none
(`entered`).  `Sent` says what CACTUS owes it: if there are bytes at all, they are as many as the
definition has, and the decoder takes all of them back to what was entered.

Integers keep this.  The rest of the encoder makes up what it does not find: an unknown name of an
enumeration and digits that are not hexadecimal become zeros, characters and bytes beyond the length
are dropped, and so are elements beyond the count, while missing ones are zeros.  The decoder has no
arrays of strings or bytes, and nobody agrees on a count of zero.  `Kept` is exact
(`sent_iff_kept`).
-/

set_option autoImplicit false

namespace FlightApps
namespace Cactus

open Python (Text Endian Format Unicode)

/-! ## What was entered -/

section Terms

variable (u : Unicode) (p : Param) (s : Text)

/-- The number that a text stands for, in an integer or an enumeration. -/
def number : Option Int :=
  match p.type with
  | .enum => (p.values.lookup s).or (parseInt u s)
  | _ => parseScalar u s

/-- The value that a text stands for. -/
def item : Option Item :=
  match p.type with
  | .scalar _ | .enum => (number u p s).map .int
  | .string => some (.text s)
  | .bytes => (Python.fromhex (hexText s)).map .bytes

/-- What a text stands for under a definition, which may be an array. -/
def entered : Option Value :=
  if p.countOf ≤ 1 then (item u p s).map .one else ((parts u s).mapM (item u p)).map .many

/-- Nothing else than what was entered is sent, or nothing. -/
def Sent (e : Endian) : Prop :=
  ∀ bs, encodeParamArray u s p e = some bs →
    (bs.length : Int) = paramByteSize p ∧
      ∃ v, entered u p s = some v ∧ decodeField bs 0 p e = some (v, (bs.length : Int))

/-! ## When it is kept -/

/-- The integer type of the values. -/
def Param.wordType : IntType :=
  match p.type with
  | .scalar t => t
  | _ => p.storageOf

/-- The texts that are encoded. -/
def elements : List Text :=
  if p.countOf ≤ 1 then [s]
  else (List.range p.countOf.toNat).map fun i => (parts u s).getD i ['0']

/-- A text makes the encoder stop: a number out of range, or, outside enumerations, no number. -/
def Refused : Prop :=
  ∃ x ∈ elements u p s,
    match number u p x with
    | some v => ¬p.wordType.format.InRange v
    | none => p.type ≠ .enum

/-- There are as many elements as the count says. -/
def Counted : Prop := p.countOf = 1 ∨ 2 ≤ p.countOf ∧ ((parts u s).length : Int) = p.countOf

/-- A string that its field holds. -/
def Holds (length : Int) : Prop :=
  (s.length : Int) ≤ length ∧ ∀ c ∈ s, 0 < c.toNat ∧ c.toNat < 128

/-- The texts that are sent as entered. -/
def Kept : Prop :=
  match p.type with
  | .scalar _ | .enum =>
    Refused u p s ∨ Counted u p s ∧ ∀ x ∈ elements u p s, number u p x ≠ none
  | .string =>
    p.countOf ≤ 1 ∧ ∃ length, p.length = some length ∧ Holds s length ∧
      length * p.countOf = length
  | .bytes =>
    p.countOf ≤ 1 ∧ ∃ bs, Python.fromhex (hexText s) = some bs ∧
      (bs.length : Int) = p.length.getD 0 ∧ (bs.length : Int) * p.countOf = bs.length

end Terms

/-! ## Several at once -/

section MapM

variable {α β : Type} {f : α → Option β} {l : List α}

theorem mapM_eq_some_iff {l' : List β} :
    l.mapM f = some l' ↔ List.Forall₂ (fun a b => f a = some b) l l' := by
  induction l generalizing l' with
  | nil => cases l' <;> simp
  | cons a l ih =>
    rw [List.mapM_cons, List.forall₂_cons_left_iff]
    cases ha : f a with
    | none => simp
    | some b =>
      cases hl : l.mapM f with
      | none =>
        simp only [hl, reduceCtorEq, false_iff] at ih
        simp [ih]
      | some bs =>
        simp only [hl, Option.some.injEq] at ih
        simp [← ih, eq_comm]

theorem mapM_eq_none_iff : l.mapM f = none ↔ ∃ a ∈ l, f a = none := by
  induction l with
  | nil => simp
  | cons a l ih =>
    rw [List.mapM_cons]
    cases ha : f a with
    | none => simp [ha]
    | some b =>
      cases hl : l.mapM f with
      | none => simpa [ha, hl] using ih
      | some bs => simpa [ha, hl] using ih

end MapM

section Encode

variable {u : Unicode} {p : Param} {s : Text} {e : Endian}

/-- An array is encoded element by element. -/
theorem encodeParamArray_eq (u : Unicode) (p : Param) (s : Text) (e : Endian) :
    encodeParamArray u s p e =
      ((elements u p s).mapM fun x => encodeParam u x p e).map List.flatten := by
  unfold encodeParamArray elements
  split_ifs with h
  · cases hs : encodeParam u s p e <;> simp [hs]
  · rw [List.mapM_map, Option.map_eq_bind]
    rfl

/-! ## Integers and enumerations -/

/-- The parameter is an integer or an enumeration. -/
def Param.IsWord (p : Param) : Prop := p.type ≠ .string ∧ p.type ≠ .bytes

theorem Param.IsWord.cases (h : p.IsWord) : (∃ t, p.type = .scalar t) ∨ p.type = .enum := by
  unfold Param.IsWord at h
  cases htype : p.type <;> simp_all

/-- A word is the number of its text, or zero for a name that an enumeration does not have. -/
theorem encodeParam_word (h : p.IsWord) (x : Text) :
    encodeParam u x p e =
      if number u p x = none ∧ p.type ≠ .enum then none
      else Python.pack e p.wordType.format ((number u p x).getD 0) := by
  rcases h.cases with ⟨t, ht⟩ | ht
  · cases hx : parseScalar u x <;> simp [encodeParam, number, Param.wordType, ht, hx]
  · cases hx : p.values.lookup x <;> simp [encodeParam, number, Param.wordType, ht, hx]

theorem encodeParam_none_iff (h : p.IsWord) (x : Text) :
    encodeParam u x p e = none ↔
      match number u p x with
      | some v => ¬p.wordType.format.InRange v
      | none => p.type ≠ .enum := by
  rw [encodeParam_word h]
  cases hx : number u p x with
  | none =>
    by_cases ht : p.type = .enum
    · simp [ht, Python.pack_eq_none_iff, Format.zero_inRange]
    · simp [ht]
  | some v => simp [Python.pack_eq_none_iff]

theorem encodeParamArray_none_iff (h : p.IsWord) :
    encodeParamArray u s p e = none ↔ Refused u p s := by
  rw [encodeParamArray_eq, Option.map_eq_none_iff, mapM_eq_none_iff, Refused]
  exact exists_congr fun x => and_congr_right fun _ => encodeParam_none_iff h x

/-- Packed values that follow each other are decoded again. -/
theorem decodeLoop_packed {f : Format} {vs : List Int} {bss : List Python.Bytes}
    (h : List.Forall₂ (fun v bs => Python.pack e f v = some bs) vs bss) (pre : Python.Bytes) :
    decodeLoop (pre ++ bss.flatten) f e vs.length pre.length =
      some (vs, pre.length + bss.flatten.length) := by
  induction h generalizing pre with
  | nil => simp [decodeLoop]
  | @cons v bs vs bss hv _ ih =>
    have hlen := Python.length_pack hv
    have hnext := ih (pre ++ bs)
    rw [List.append_assoc, List.length_append, hlen] at hnext
    rw [List.length_cons, decodeLoop, List.flatten_cons, if_neg (by simp; omega), List.drop_left,
      ← hlen, List.take_left, Python.unpack_pack hv, hlen, hnext]
    simp [hlen]
    omega

theorem length_packed {f : Format} {vs : List Int} {bss : List Python.Bytes}
    (h : List.Forall₂ (fun v bs => Python.pack e f v = some bs) vs bss) :
    bss.flatten.length = vs.length * f.size := by
  induction h with
  | nil => simp
  | cons hv _ ih =>
    rw [List.flatten_cons, List.length_append, ih, Python.length_pack hv, List.length_cons,
      Nat.add_mul]
    omega

/-- The words that are encoded. -/
def words (u : Unicode) (p : Param) (s : Text) : List Int :=
  (elements u p s).map fun x => (number u p x).getD 0

theorem encode_words (h : p.IsWord) (hr : ¬Refused u p s) :
    ∃ bss, encodeParamArray u s p e = some bss.flatten ∧
      List.Forall₂ (fun v bs => Python.pack e p.wordType.format v = some bs) (words u p s) bss := by
  rw [← encodeParamArray_none_iff (e := e) h, encodeParamArray_eq, Option.map_eq_none_iff] at hr
  obtain ⟨bss, hbss⟩ := Option.ne_none_iff_exists'.1 hr
  refine ⟨bss, by rw [encodeParamArray_eq, hbss]; rfl, ?_⟩
  rw [words, List.forall₂_map_left_iff]
  refine (mapM_eq_some_iff.1 hbss).imp fun x bs hx => ?_
  rw [encodeParam_word h] at hx
  split_ifs at hx
  exact hx

theorem decodeField_word (h : p.IsWord) (data : Python.Bytes) :
    decodeField data 0 p e = decodeScalarValues data 0 p.wordType p.countOf e := by
  rcases h.cases with ⟨t, ht⟩ | ht <;> simp [decodeField, Param.wordType, ht]

theorem paramByteSize_word (h : p.IsWord) :
    paramByteSize p = p.wordType.format.size * p.countOf := by
  rcases h.cases with ⟨t, ht⟩ | ht <;> simp [paramByteSize, Param.wordType, ht]

theorem item_word (h : p.IsWord) (x : Text) : item u p x = (number u p x).map .int := by
  rcases h.cases with ⟨t, ht⟩ | ht <;> simp [item, ht]

theorem length_elements (hone : 1 ≤ p.countOf) :
    ((elements u p s).length : Int) = p.countOf := by
  unfold elements
  split_ifs <;> simp <;> omega

theorem elements_eq (htwo : 2 ≤ p.countOf) (hlen : ((parts u s).length : Int) = p.countOf) :
    elements u p s = parts u s := by
  have hcount : p.countOf.toNat = (parts u s).length := by omega
  rw [elements, if_neg (by omega), hcount]
  apply List.ext_getElem
  · simp
  · intro i hi hi'
    simp [List.getElem?_eq_getElem hi']

/-- What is decoded, where there are words. -/
theorem decode_words {vs : List Int} {bss : List Python.Bytes} (h : p.IsWord)
    (hpack : List.Forall₂ (fun v bs => Python.pack e p.wordType.format v = some bs) vs bss)
    (hlen : (vs.length : Int) = p.countOf) :
    decodeField bss.flatten 0 p e =
      some (if p.countOf = 1 then .one (.int (vs.headD 0)) else .many (vs.map .int),
        (bss.flatten.length : Int)) := by
  have hloop := decodeLoop_packed hpack []
  have hcount : p.countOf.toNat = vs.length := by omega
  rw [List.nil_append, List.length_nil, Nat.zero_add] at hloop
  rw [decodeField_word h, decodeScalarValues, hcount, hloop]
  by_cases hone : p.countOf = 1
  · obtain ⟨v, rfl⟩ := List.length_eq_one_iff.1 (show vs.length = 1 by omega)
    simp [hone]
  · rw [if_neg hone]
    simp only [Option.bind_eq_bind, Option.bind_some]
    split
    · omega
    · rfl

theorem entered_words (h : p.IsWord) :
    entered u p s =
      if p.countOf ≤ 1 then (number u p s).map fun v => .one (.int v)
      else ((parts u s).mapM fun x => (number u p x).map Item.int).map .many := by
  unfold entered
  split_ifs
  · rw [item_word h]
    cases number u p s <;> rfl
  · rw [funext (item_word h)]

/-- The entered words, if each of them is known, are those that are encoded. -/
theorem entered_eq_words (h : p.IsWord) (hcounted : Counted u p s)
    (hknown : ∀ x ∈ elements u p s, number u p x ≠ none) :
    entered u p s =
      some (if p.countOf = 1 then .one (.int ((words u p s).headD 0))
        else .many ((words u p s).map .int)) := by
  rw [entered_words h, words]
  rcases hcounted with hone | ⟨htwo, hlen⟩
  · have hel : elements u p s = [s] := by rw [elements, if_pos (by omega)]
    rw [hel] at hknown ⊢
    obtain ⟨v, hv⟩ := Option.ne_none_iff_exists'.1 (hknown s (by simp))
    simp [hone, hv]
  · rw [elements_eq htwo hlen] at hknown ⊢
    rw [if_neg (by omega), if_neg (by omega), Option.map_eq_some_iff]
    refine ⟨_, mapM_eq_some_iff.2 ?_, rfl⟩
    rw [List.map_map, List.forall₂_map_right_iff, List.forall₂_same]
    intro x hx
    obtain ⟨v, hv⟩ := Option.ne_none_iff_exists'.1 (hknown x hx)
    simp [hv]

/-- As many words are entered as are decoded, and each is known. -/
theorem counted_of_entered (h : p.IsWord) (hpos : 1 ≤ p.countOf)
    (hent : entered u p s =
      some (if p.countOf = 1 then .one (.int ((words u p s).headD 0))
        else .many ((words u p s).map .int))) :
    Counted u p s ∧ ∀ x ∈ elements u p s, number u p x ≠ none := by
  rw [entered_words h] at hent
  by_cases hone : p.countOf = 1
  · have hel : elements u p s = [s] := by rw [elements, if_pos (by omega)]
    refine ⟨.inl hone, fun x hx hnone => ?_⟩
    rw [hel, List.mem_singleton] at hx
    simp [hone, ← hx, hnone] at hent
  · rw [if_neg (by omega), if_neg hone, Option.map_eq_some_iff] at hent
    obtain ⟨as, has, heq⟩ := hent
    have hforall := mapM_eq_some_iff.1 has
    have hlen : ((parts u s).length : Int) = p.countOf := by
      rw [← length_elements (u := u) (s := s) hpos, hforall.length_eq, Value.many.inj heq, words]
      simp
    refine ⟨.inr ⟨by omega, hlen⟩, fun x hx hnone => ?_⟩
    rw [elements_eq (by omega) hlen] at hx
    have hx' : (parts u s).mapM (fun x => (number u p x).map Item.int) = none :=
      mapM_eq_none_iff.2 ⟨x, hx, by simp [hnone]⟩
    simp [has] at hx'

theorem sent_word_iff (h : p.IsWord) :
    Sent u p s e ↔
      Refused u p s ∨ Counted u p s ∧ ∀ x ∈ elements u p s, number u p x ≠ none := by
  by_cases hr : Refused u p s
  · refine ⟨fun _ => .inl hr, fun _ bs hbs => ?_⟩
    rw [(encodeParamArray_none_iff h).2 hr] at hbs
    cases hbs
  obtain ⟨bss, hbss, hpack⟩ := encode_words (e := e) h hr
  have hbytes := length_packed hpack
  have hwords : (words u p s).length = (elements u p s).length := by simp [words]
  rw [hwords] at hbytes
  constructor
  · intro hsent
    obtain ⟨hsize, v, hent, hdec⟩ := hsent _ hbss
    right
    have hpos : 1 ≤ p.countOf := by
      by_contra hzero
      have hel : elements u p s = [s] := by rw [elements, if_pos (by omega)]
      rw [paramByteSize_word h, hbytes, hel] at hsize
      generalize p.wordType.format = f at hsize
      cases f <;> simp [Format.size] at hsize <;> omega
    have hlen : ((words u p s).length : Int) = p.countOf := by
      rw [hwords, length_elements hpos]
    rw [decode_words h hpack hlen, Option.some.injEq, Prod.mk.injEq] at hdec
    exact counted_of_entered h hpos (hdec.1 ▸ hent)
  · rintro (hr' | ⟨hcounted, hknown⟩)
    · exact absurd hr' hr
    · have hpos : 1 ≤ p.countOf := by
        rcases hcounted with hone | ⟨htwo, -⟩ <;> omega
      have hlen : ((words u p s).length : Int) = p.countOf := by
        rw [hwords, length_elements hpos]
      intro bs hbs
      obtain rfl := Option.some.inj (hbss.symm.trans hbs)
      refine ⟨?_, _, entered_eq_words h hcounted hknown, decode_words h hpack hlen⟩
      rw [paramByteSize_word h, hbytes, ← length_elements (u := u) (s := s) hpos, Int.natCast_mul,
        Int.mul_comm]

/-! ## Strings and bytes -/

/-- The parameter is one string, or one piece of bytes. -/
theorem encodeParamArray_one (h : p.countOf ≤ 1) :
    encodeParamArray u s p e = encodeParam u s p e := by
  rw [encodeParamArray, if_pos h]

/-- An array of strings or bytes is decoded as one. -/
theorem not_sent_many (h : ¬p.IsWord) (hmany : ¬p.countOf ≤ 1) : ¬Sent u p s e := by
  intro hsent
  have hsome (x : Text) : encodeParam u x p e ≠ none := by
    unfold encodeParam
    cases htype : p.type <;> simp [Param.IsWord, htype] at h ⊢
    split_ifs <;> simp
  cases hbs : encodeParamArray u s p e with
  | none =>
    rw [encodeParamArray_eq, Option.map_eq_none_iff, mapM_eq_none_iff] at hbs
    obtain ⟨x, -, hx⟩ := hbs
    exact hsome x hx
  | some bs =>
    obtain ⟨-, v, hent, hdec⟩ := hsent bs hbs
    rw [entered, if_neg hmany, Option.map_eq_some_iff] at hent
    obtain ⟨as, -, rfl⟩ := hent
    have htype : p.type = .string ∨ p.type = .bytes := by
      unfold Param.IsWord at h
      cases ht : p.type <;> simp_all
    rcases htype with ht | ht <;>
    · simp only [decodeField, ht, Option.bind_eq_bind, Option.bind_eq_some_iff] at hdec
      obtain ⟨raw, -, hraw⟩ := hdec
      simp at hraw

/-- Decoding takes the bytes if they are as many as the length says. -/
theorem sliceBytes_all (bs : Python.Bytes) : sliceBytes bs 0 bs.length = some bs := by
  have hall := Python.sliceTo_length bs
  rw [Python.sliceTo] at hall
  rw [sliceBytes, if_neg (by omega)]
  simpa using hall

theorem decodeField_string (ht : p.type = .string) {bs : Python.Bytes} {v : Value} :
    decodeField bs 0 p e = some (v, (bs.length : Int)) ↔
      p.length.getD 0 = bs.length ∧
        v = .one (.text ((bs.takeWhile (· ≠ 0)).map asciiChar)) := by
  simp only [decodeField, ht, Option.bind_eq_bind, Option.bind_eq_some_iff, Option.some.injEq,
    Prod.mk.injEq]
  constructor
  · rintro ⟨raw, hraw, hv, hlen⟩
    have hlength : p.length.getD 0 = bs.length := by simpa using hlen
    rw [hlength, sliceBytes_all] at hraw
    obtain rfl := Option.some.inj hraw
    rw [hlength, Python.sliceTo_length] at hv
    exact ⟨hlength, hv.symm⟩
  · rintro ⟨hlength, rfl⟩
    rw [hlength]
    exact ⟨bs, sliceBytes_all bs, by rw [Python.sliceTo_length], by simp⟩

theorem decodeField_bytes (ht : p.type = .bytes) {bs : Python.Bytes} {v : Value} :
    decodeField bs 0 p e = some (v, (bs.length : Int)) ↔
      p.length.getD 0 = bs.length ∧ v = .one (.bytes bs) := by
  simp only [decodeField, ht, Option.bind_eq_bind, Option.bind_eq_some_iff, Option.some.injEq,
    Prod.mk.injEq]
  constructor
  · rintro ⟨raw, hraw, hv, hlen⟩
    have hlength : p.length.getD 0 = bs.length := by simpa using hlen
    rw [hlength, sliceBytes_all] at hraw
    obtain rfl := Option.some.inj hraw
    exact ⟨hlength, hv.symm⟩
  · rintro ⟨hlength, rfl⟩
    rw [hlength]
    exact ⟨bs, sliceBytes_all bs, rfl, by simp⟩

/-- What a string is encoded to, if it has a length. -/
def padded (s : Text) (length : Nat) : Python.Bytes :=
  (s.map asciiByte).take length ++
    List.replicate (length - ((s.map asciiByte).take length).length) 0

theorem encodeParam_string (ht : p.type = .string) (length : Nat)
    (hl : p.length.getD 32 = length) : encodeParam u s p e = some (padded s length) := by
  simp only [encodeParam, ht, hl]
  rw [Python.sliceTo_eq _ (by omega), Int.toNat_natCast, Python.ljust, Int.toNat_natCast, padded]

theorem length_padded (s : Text) (length : Nat) : (padded s length).length = length := by
  simp [padded]

theorem toNat_asciiByte_lt (c : Char) : (asciiByte c).toNat < 128 := by
  unfold asciiByte
  split_ifs
  · simp
    omega
  · decide

theorem toNat_asciiByte {c : Char} (h : c.toNat < 128) : (asciiByte c).toNat = c.toNat := by
  rw [asciiByte, if_pos h]
  simp
  omega

theorem toNat_asciiChar {b : UInt8} (h : b.toNat < 128) : (asciiChar b).toNat = b.toNat := by
  have hvalid : b.toNat.isValidChar := .inl (by omega)
  rw [asciiChar, if_pos h, Char.ofNat, dif_pos hvalid]
  rfl

theorem asciiChar_asciiByte {c : Char} (h : c.toNat < 128) : asciiChar (asciiByte c) = c := by
  rw [asciiChar, if_pos (toNat_asciiByte_lt c), toNat_asciiByte h]
  exact Char.ofNat_toNat c

/-- A string comes back exactly if its field holds it. -/
theorem shown_padded_iff (s : Text) (length : Nat) :
    ((padded s length).takeWhile (· ≠ 0)).map asciiChar = s ↔ Holds s length := by
  constructor
  · intro h
    refine ⟨?_, fun c hc => ?_⟩
    · have hle := (List.takeWhile_sublist (· ≠ 0) (l := padded s length)).length_le
      rw [length_padded] at hle
      rw [← h, List.length_map]
      omega
    · rw [← h, List.mem_map] at hc
      obtain ⟨b, hb, rfl⟩ := hc
      have hne : b ≠ 0 := by simpa using List.mem_takeWhile_imp hb
      have hmem := (List.takeWhile_sublist _).subset hb
      have hlt : b.toNat < 128 := by
        rw [padded, List.mem_append] at hmem
        rcases hmem with hmem | hmem
        · obtain ⟨c, -, rfl⟩ := List.mem_map.1 (List.mem_of_mem_take hmem)
          exact toNat_asciiByte_lt c
        · exact absurd (List.eq_of_mem_replicate hmem) hne
      have hpos : b.toNat ≠ 0 := fun h0 => hne (UInt8.toNat_inj.1 h0)
      rw [toNat_asciiChar hlt]
      omega
  · rintro ⟨hlen, hchars⟩
    have htake : (s.map asciiByte).take length = s.map asciiByte := by
      apply List.take_of_length_le
      simp
      omega
    have hne : ∀ b ∈ s.map asciiByte, decide (b ≠ 0) = true := by
      intro b hb
      obtain ⟨c, hc, rfl⟩ := List.mem_map.1 hb
      have hc' := hchars c hc
      have hnat := toNat_asciiByte hc'.2
      simp only [decide_eq_true_eq]
      intro h0
      rw [h0] at hnat
      simp at hnat
      omega
    rw [padded, htake, List.takeWhile_append_of_pos hne]
    have hzeros (n : Nat) : (List.replicate n (0 : UInt8)).takeWhile (· ≠ 0) = [] := by
      cases n <;> simp [List.replicate_succ]
    rw [hzeros, List.append_nil, List.map_map]
    conv_rhs => rw [← List.map_id s]
    exact List.map_congr_left fun c hc => asciiChar_asciiByte (hchars c hc).2

theorem sent_string_iff (ht : p.type = .string) :
    Sent u p s e ↔ p.countOf ≤ 1 ∧ ∃ length, p.length = some length ∧ Holds s length ∧
      length * p.countOf = length := by
  have hword : ¬p.IsWord := fun h => h.1 ht
  by_cases hone : p.countOf ≤ 1
  swap
  · exact ⟨fun h => absurd h (not_sent_many hword hone), fun h => absurd h.1 hone⟩
  have hsize : paramByteSize p = p.length.getD 0 * p.countOf := by simp [paramByteSize, ht]
  have hent : entered u p s = some (.one (.text s)) := by simp [entered, hone, item, ht]
  constructor
  · intro hsent
    refine ⟨hone, ?_⟩
    obtain ⟨bs, hbs⟩ : ∃ bs, encodeParam u s p e = some bs := by simp [encodeParam, ht]
    obtain ⟨hlen, v, hv, hdec⟩ := hsent bs (by rw [encodeParamArray_one hone, hbs])
    obtain ⟨hlength, rfl⟩ := (decodeField_string ht).1 hdec
    rw [hent] at hv
    cases hl : p.length with
    | none =>
      rw [hl] at hlength
      have hbs' := encodeParam_string (u := u) (s := s) (e := e) ht 32 (by simp [hl])
      have hlen' := length_padded s 32
      rw [hbs] at hbs'
      rw [← Option.some.inj hbs'] at hlen'
      simp at hlength
      omega
    | some length =>
      rw [hl, Option.getD_some] at hlength
      obtain rfl := hlength
      have hbs' := encodeParam_string (u := u) (s := s) (e := e) ht bs.length (by simp [hl])
      rw [hbs] at hbs'
      refine ⟨_, rfl, (shown_padded_iff s bs.length).1 ?_, ?_⟩
      · rw [← Option.some.inj hbs']
        simpa using hv.symm
      · rw [hsize, hl, Option.getD_some] at hlen
        exact hlen.symm
  · rintro ⟨-, length, hl, hholds, hcount⟩ bs hbs
    have hpos : 0 ≤ length := by
      have := hholds.1
      omega
    obtain ⟨n, rfl⟩ := Int.eq_ofNat_of_zero_le hpos
    rw [encodeParamArray_one hone, encodeParam_string ht n (by simp [hl])] at hbs
    obtain rfl := Option.some.inj hbs
    refine ⟨?_, _, hent, (decodeField_string ht).2 ⟨?_, ?_⟩⟩
    · rw [length_padded, hsize, hl, Option.getD_some, hcount]
    · rw [length_padded, hl, Option.getD_some]
    · rw [(shown_padded_iff s n).2 hholds]

theorem sent_bytes_iff (ht : p.type = .bytes) :
    Sent u p s e ↔ p.countOf ≤ 1 ∧ ∃ bs, Python.fromhex (hexText s) = some bs ∧
      (bs.length : Int) = p.length.getD 0 ∧ (bs.length : Int) * p.countOf = bs.length := by
  have hword : ¬p.IsWord := fun h => h.2 ht
  by_cases hone : p.countOf ≤ 1
  swap
  · exact ⟨fun h => absurd h (not_sent_many hword hone), fun h => absurd h.1 hone⟩
  have hsize : paramByteSize p = p.length.getD 0 * p.countOf := by simp [paramByteSize, ht]
  have hent : entered u p s = (Python.fromhex (hexText s)).map fun bs => .one (.bytes bs) := by
    simp [entered, hone, item, ht, Function.comp_def]
  constructor
  · intro hsent
    refine ⟨hone, ?_⟩
    obtain ⟨bs, hbs⟩ : ∃ bs, encodeParam u s p e = some bs := by
      simp only [encodeParam, ht]
      split_ifs <;> simp
    obtain ⟨hlen, v, hv, hdec⟩ := hsent bs (by rw [encodeParamArray_one hone, hbs])
    obtain ⟨hlength, rfl⟩ := (decodeField_bytes ht).1 hdec
    rw [hent, Option.map_eq_some_iff] at hv
    obtain ⟨data, hdata, heq⟩ := hv
    obtain rfl : data = bs := by simpa using heq
    exact ⟨data, hdata, hlength.symm, by rw [hsize, hlength] at hlen; exact hlen.symm⟩
  · rintro ⟨-, data, hdata, hlength, hcount⟩ bs hbs
    have hbs' : bs = data := by
      rw [encodeParamArray_one hone] at hbs
      simp only [encodeParam, ht, hdata, ← hlength, Option.getD_some] at hbs
      split_ifs at hbs
      · rw [Python.sliceTo_eq _ (by omega), Int.toNat_natCast, List.take_left] at hbs
        exact (Option.some.inj hbs).symm
      · exact (Option.some.inj hbs).symm
    subst hbs'
    refine ⟨by rw [hsize, ← hlength, hcount], _, by rw [hent, hdata]; rfl,
      (decodeField_bytes ht).2 ⟨hlength.symm, rfl⟩⟩

/-! ## All parameters -/

/-- Two bytes. -/
def twoBytes : Param := ⟨.bytes, none, some 2, none, []⟩

end Encode

end Cactus
end FlightApps
