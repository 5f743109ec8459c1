import Mathlib.Data.List.TakeWhile
import FlightApps.Lib.Words
import FlightApps.Pay.RparamFetch

/-!
# Payloads that keep their parameters

A `Server` is a payload that keeps the bytes of every value that is set, and answers a query for
addresses with the pairs of an address and its bytes.  Setting a parameter of such a payload
succeeds and leaves there what `sent` says of the value in memory, and nothing that does not overlap
it is changed.
-/

set_option autoImplicit false

namespace FlightApps
namespace Pay
namespace Rparam

/-! ## Bytes of values -/

/-- The bytes of a value in memory as they are sent, the highest first. -/
def sent : ParamType → List UInt8 → List UInt8
  | .uint16, b => storeBe16 (Layout.u16.read b)
  | .uint32, b => storeBe32 (Layout.u32.read b)
  | _, b => b

theorem loadBe16_storeBe16 (v : UInt16) : loadBe16 (storeBe16 v) = v := by
  show (v >>> 8).toUInt8.toUInt16 <<< 8 ||| v.toUInt8.toUInt16 = v
  rw [UInt16.or_comm, Words.u16_of_bytes]

theorem loadBe32_storeBe32 (v : UInt32) : loadBe32 (storeBe32 v) = v := by
  have hlow : v.toUInt8.toUInt32 ||| (v >>> 8).toUInt8.toUInt32 <<< 8 |||
      (v >>> 16).toUInt8.toUInt32 <<< 16 ||| (v >>> 24).toUInt8.toUInt32 <<< 24 = v :=
    UInt32.toBitVec_inj.1 (Words.or_bytes_32 v.toBitVec)
  refine Eq.trans ?_ hlow
  show (v >>> 24).toUInt8.toUInt32 <<< 24 ||| (v >>> 16).toUInt8.toUInt32 <<< 16 |||
    (v >>> 8).toUInt8.toUInt32 <<< 8 ||| v.toUInt8.toUInt32 = _
  generalize (v >>> 24).toUInt8.toUInt32 <<< 24 = a
  generalize (v >>> 16).toUInt8.toUInt32 <<< 16 = b
  generalize (v >>> 8).toUInt8.toUInt32 <<< 8 = c
  ac_rfl

/-- The types that commands write. -/
def ParamType.Written (type : ParamType) : Prop :=
  type = .uint8 ∨ type = .uint16 ∨ type = .uint32 ∨ type = .string

instance (type : ParamType) : Decidable type.Written := by
  unfold ParamType.Written
  infer_instance

/-- **Round trip**: what is sent of a value is read as the value. -/
theorem decode_sent {type : ParamType} {b : List UInt8} (h : type.Written)
    (hb : type ≠ .string → b.length = type.size) : decode type (sent type b) = b := by
  rcases h with rfl | rfl | rfl | rfl
  · rfl
  · rw [sent, decode, loadBe16_storeBe16]
    exact Layout.full_u16 b (hb (by decide))
  · rw [sent, decode, loadBe32_storeBe32]
    exact Layout.full_u32 b (hb (by decide))
  · rfl

theorem length_sent {type : ParamType} {b : List UInt8} (hb : b.length = type.size) :
    (sent type b).length = type.size := by
  cases type <;> first | exact hb | rfl

/-! ## Payloads -/

/-- The answers to a query that sets a parameter: one byte, or a header that repeats the length of
the query. -/
def Accepts (payload : Nat) (reply : List UInt8) : Prop :=
  reply = [setOk] ∨ ∃ x rest, reply = [setOk, x] ++ storeBe16 payload.toUInt16 ++ rest ∧
    6 ≤ rest.length ∧ reply.length ≤ 256

/-- A payload that keeps what is set and answers with it. -/
structure Server (σ : Type) extends Bus σ where
  /-- The bytes of the parameters, by node, table and address. -/
  stored : σ → UInt8 → UInt8 → UInt16 → List UInt8
  /-- A query that sets a parameter; what it does not overlap is kept. -/
  set : ∀ s node table addr bytes, bytes.length ≤ 256 →
    ∃ reply s', transact s node (header actionSet table (addrSize + bytes.length) magic ++
        storeBe16 addr ++ bytes) = (some reply, s') ∧
      Accepts (addrSize + bytes.length) reply ∧ stored s' node table addr = bytes ∧
      ∀ other, bytes.length ≤ (other - addr).toNat →
        (stored s node table other).length ≤ (addr - other).toNat →
        stored s' node table other = stored s node table other
  /-- A query for parameters, as far as the answer is not too long. -/
  get : ∀ s node table (addrs : List UInt16),
    (addrs.flatMap fun a => storeBe16 a ++ stored s node table a).length ≤ maxReplyPayload →
    ∃ rest s', rest.length = 6 ∧
      transact s node (header actionGet table (addrs.length * addrSize) magic ++
          addrs.flatMap storeBe16) =
        (some ([actionReply, table] ++
          storeBe16 (addrs.flatMap fun a => storeBe16 a ++ stored s node table a).length.toUInt16 ++
          rest ++ addrs.flatMap fun a => storeBe16 a ++ stored s node table a), s')

/-! ## Setting a parameter -/

section Set

variable {σ : Type} (srv : Server σ) {type : ParamType} {value bytes : List UInt8}

/-- An answer that accepts a value is taken as such. -/
theorem accepted {payload : Nat} {reply : List UInt8} (h : Accepts payload reply)
    (hpayload : payload < 65536) :
    ∃ buf ok size, Buffer.store (List.replicate 256 (0 : UInt8)) 0 reply = some buf ∧
      buf[0]? = some ok ∧ Buffer.load buf 2 2 = some size ∧
      (reply.length = 1 ∧ ok = setOk ∨
        headerSize ≤ reply.length ∧ ok = setOk ∧ (loadBe16 size).toNat = payload) := by
  rcases h with rfl | ⟨x, rest, rfl, hrest, hfit⟩
  · refine ⟨_, setOk, _, Buffer.store_zero ?_, rfl, Buffer.load_eq ?_, Or.inl ⟨rfl, rfl⟩⟩
    · rw [List.length_replicate]
      decide
    · rw [List.length_append, List.length_drop, List.length_replicate]
      decide
  · refine ⟨_, setOk, storeBe16 payload.toUInt16,
      Buffer.store_zero (by rw [List.length_replicate]; exact hfit), rfl, ?_, Or.inr ⟨?_, rfl, ?_⟩⟩
    · rw [List.append_assoc, List.append_assoc]
      exact Buffer.load_part [setOk, x] (storeBe16 payload.toUInt16) _
    · simp only [List.length_append, headerSize]
      show 10 ≤ 2 + 2 + rest.length
      omega
    · rw [loadBe16_storeBe16]
      exact UInt16.toNat_ofNat_of_lt' hpayload

/-- **Setting a parameter** leaves there what is sent of it. -/
theorem setParam_stored (s : σ) (node table : UInt8) (addr : UInt16)
    (hbytes : setBytes type value = some (some bytes))
    (hfit : bytes.length ≤ 256) :
    ∃ s', setParam srv.toBus s node table addr type value = some (success, s') ∧
      srv.stored s' node table addr = bytes ∧
      ∀ other, bytes.length ≤ (other - addr).toNat →
        (srv.stored s node table other).length ≤ (addr - other).toNat →
        srv.stored s' node table other = srv.stored s node table other := by
  obtain ⟨reply, s', htransact, hok, hstored, hkeep⟩ := srv.set s node table addr bytes hfit
  obtain ⟨buf, ok, size, hbuf, hzero, hsize, hgood⟩ :=
    accepted hok (by simp only [addrSize]; omega)
  have hten : headerSize = 10 := rfl
  have htwo : addrSize = 2 := rfl
  have hmost : setQuerySize = 268 := rfl
  have hhead := Params.length_header actionSet table (addrSize + bytes.length) srv.magic
  have haddr : (header actionSet table (addrSize + bytes.length) srv.magic ++
      storeBe16 addr).length = headerSize + addrSize := rfl
  have hall : (header actionSet table (addrSize + bytes.length) srv.magic ++ storeBe16 addr ++
      bytes).length = headerSize + (addrSize + bytes.length) := by
    rw [List.length_append, haddr]
    omega
  have hne : reply.length ≠ 0 := by omega
  refine ⟨s', ?_, hstored, hkeep⟩
  rw [setParam]
  simp only [hbytes, Option.bind_eq_bind, Option.bind_some]
  rw [if_neg (by omega), Buffer.store_zero (by rw [hhead, List.length_replicate]; omega),
    Option.bind_some]
  have haddr2 : (storeBe16 addr).length = addrSize := rfl
  refine Buffer.bind_store_front hhead.symm
    (by rw [hhead, haddr2, List.length_replicate]; omega) ?_
  refine Buffer.bind_store_front haddr.symm (by rw [haddr, List.length_replicate]; omega) ?_
  rw [← hall, Buffer.load_front, Option.bind_some]
  simp only [transaction, htransact, hbuf, hzero, hsize, Option.bind_eq_bind, Option.bind_some]
  rw [if_neg hne]
  rcases hgood with hone | hfull
  · rw [if_pos hone]
  · rw [if_pos hfull, ite_self]

/-! ## Bytes of a command -/

/-- A word that is set is sent as such. -/
theorem setBytes_word (h : type.Written) (hne : type ≠ .string)
    (hvalue : type.size ≤ value.length) :
    setBytes type value = some (some (sent type (value.take type.size))) := by
  have hload : Buffer.load value 0 type.size = some (value.take type.size) := by
    rw [Buffer.load_eq (by omega), List.drop_zero]
  rcases h with rfl | rfl | rfl | rfl
  · simp only [ParamType.size] at hload ⊢
    simp [setBytes, hload, sent]
  · simp only [ParamType.size] at hload ⊢
    simp [setBytes, hload, sent]
  · simp only [ParamType.size] at hload ⊢
    simp [setBytes, hload, sent]
  · exact absurd rfl hne

/-- The length of a string that ends in time. -/
theorem strSize_eq {n i : Nat} {text rest : List UInt8} (htext : ∀ c ∈ text, c ≠ 0)
    (hi : i ≤ text.length) (hn : text.length < i + n) :
    strSize (text ++ 0 :: rest) n i = some text.length := by
  induction n generalizing i with
  | zero => omega
  | succ n ih =>
    rw [strSize]
    simp only [Option.bind_eq_bind]
    by_cases hend : i = text.length
    · rw [List.getElem?_append_right (by omega), hend, Nat.sub_self, List.getElem?_cons_zero,
        Option.bind_some, if_neg (by simp)]
    · have hlt : i < text.length := by omega
      have hne : text[i] ≠ 0 := htext _ (List.getElem_mem hlt)
      rw [List.getElem?_append_left hlt, List.getElem?_eq_getElem hlt, Option.bind_some,
        if_pos hne]
      exact ih (by omega) (by omega)

/-- The characters up to the first zero, and a zero. -/
def cString (chars : List UInt8) : List UInt8 := chars.takeWhile (· ≠ 0) ++ [0]

theorem length_cString_le (chars : List UInt8) : (cString chars).length ≤ chars.length + 1 := by
  rw [cString, List.length_append, List.length_singleton]
  exact Nat.add_le_add_right (List.takeWhile_prefix _).length_le 1

theorem cString_pos (chars : List UInt8) : 0 < (cString chars).length := by
  rw [cString, List.length_append, List.length_singleton]
  omega

theorem eq_cString_append (chars : List UInt8) :
    ∃ rest, chars ++ [0] = chars.takeWhile (· ≠ 0) ++ 0 :: rest := by
  induction chars with
  | nil => exact ⟨[], rfl⟩
  | cons c chars ih =>
    by_cases hc : c = 0
    · refine ⟨chars ++ [0], ?_⟩
      simp [hc]
    · obtain ⟨rest, hrest⟩ := ih
      refine ⟨rest, ?_⟩
      rw [List.takeWhile_cons_of_pos (by simpa using hc), List.cons_append, List.cons_append, hrest]

/-- A string that is set is sent with its end. -/
theorem setBytes_string {chars : List UInt8} (h : chars.length < 128) :
    setBytes .string (chars ++ [0]) = some (some (cString chars)) := by
  obtain ⟨rest, hrest⟩ := eq_cString_append chars
  have hle : (chars.takeWhile (· ≠ 0)).length ≤ chars.length :=
    (List.takeWhile_prefix _).length_le
  have hsize : strSize (chars ++ [0]) 128 0 = some (chars.takeWhile (· ≠ 0)).length := by
    rw [hrest]
    refine strSize_eq (fun c hc => ?_) (Nat.zero_le _) (by omega)
    simpa using List.mem_takeWhile_imp hc
  have hload : Buffer.load (chars ++ [0]) 0 ((chars.takeWhile (· ≠ 0)).length + 1) =
      some (cString chars) := by
    have hpart := Buffer.load_part [] (cString chars) rest
    have hlen : (cString chars).length = (chars.takeWhile (· ≠ 0)).length + 1 := by
      rw [cString, List.length_append, List.length_singleton]
    rw [hlen, List.nil_append, cString, List.append_assoc, List.singleton_append, ← hrest] at hpart
    exact hpart
  simp only [setBytes, hsize, hload, Option.bind_eq_bind, Option.bind_some]

end Set

/-! ## Commands -/

/-- The value of a command, as it lies in memory; a string up to its end. -/
def ParSet.value (c : ParSet) : List UInt8 :=
  if c.type = .string then cString (c.data.toList.take 95) else c.data.toList.take c.type.size

/-- The checks of a command. -/
def ParSet.Accepted (c : ParSet) : Prop :=
  isValidNode c.node = true ∧ isValidTable c.table = true ∧ c.type.Written

/-- The values of a command, as they lie in memory. -/
def ParSetArray.value (c : ParSetArray) : List UInt8 :=
  c.data.toList.take (c.len.toNat * c.type.size)

/-- The checks of a command for an array. -/
def ParSetArray.Accepted (c : ParSetArray) : Prop :=
  isValidNode c.node = true ∧ isValidTable c.table = true ∧ c.type.Written ∧ c.type ≠ .string ∧
    c.len ≠ 0 ∧ c.len ≤ 8

section Commands

variable {σ : Type} (srv : Server σ) (s : σ)

theorem length_value {c : ParSet} (h : c.type ≠ .string) : c.value.length = c.type.size := by
  have hsize := Params.size_le c.type
  rw [ParSet.value, if_neg h, List.length_take, Vector.length_toList]
  omega

theorem length_value_le (c : ParSet) : c.value.length ≤ 96 := by
  by_cases h : c.type = .string
  · rw [ParSet.value, if_pos h]
    refine (length_cString_le _).trans ?_
    rw [List.length_take, Vector.length_toList]
    omega
  · have hsize := Params.size_le c.type
    rw [length_value h]
    omega

/-- An accepted command leaves its value with the payload. -/
theorem parSetCmd_stored {c : ParSet} (h : c.Accepted) :
    ∃ s', parSetCmd srv.toBus s c = some (success, s') ∧
      srv.stored s' c.node c.table c.addr = sent c.type c.value ∧
      ∀ other, (sent c.type c.value).length ≤ (other - c.addr).toNat →
        (srv.stored s c.node c.table other).length ≤ (c.addr - other).toNat →
        srv.stored s' c.node c.table other = srv.stored s c.node c.table other := by
  obtain ⟨hnode, htable, htype⟩ := h
  have hle := length_value_le c
  rw [parSetCmd]
  simp only [hnode, htable, Bool.not_true, Bool.or_self, Bool.false_eq_true, if_false]
  by_cases hstring : c.type = .string
  · have hdata : Buffer.store c.data.toList 95 [0] = some (c.data.toList.take 95 ++ [0]) := by
      have hlen : c.data.toList.length = 96 := c.data.length_toList
      rw [Buffer.store, if_pos (by rw [hlen]; decide), List.length_singleton,
        List.drop_eq_nil_of_le (by rw [hlen]), List.append_nil]
    have hchars : (c.data.toList.take 95).length < 128 := by
      rw [List.length_take, Vector.length_toList]
      omega
    rw [ParSet.value, if_pos hstring] at hle ⊢
    obtain ⟨s', hset, hstored, hkeep⟩ := setParam_stored srv s c.node c.table c.addr
      (setBytes_string hchars) (hle.trans (by decide))
    refine ⟨s', ?_, ?_, ?_⟩
    · simp only [hstring, hdata, Option.bind_eq_bind, Option.bind_some]
      exact hset
    · rw [hstored, hstring]
      rfl
    · rw [hstring]
      exact hkeep
  · have hdata : c.type.size ≤ c.data.toList.length := by
      have hsize := Params.size_le c.type
      rw [Vector.length_toList]
      omega
    have hlen := length_sent (length_value hstring)
    rw [ParSet.value, if_neg hstring] at hlen ⊢
    have hsize := Params.size_le c.type
    obtain ⟨s', hset, hstored, hkeep⟩ := setParam_stored srv s c.node c.table c.addr
      (setBytes_word htype hstring hdata) (by omega)
    refine ⟨s', ?_, hstored, hkeep⟩
    rcases htype with ht | ht | ht | ht
    · rw [ht] at hset ⊢
      exact hset
    · rw [ht] at hset ⊢
      exact hset
    · rw [ht] at hset ⊢
      exact hset
    · exact absurd ht hstring

/-- Only accepted commands report success. -/
theorem accepted_of_parSetCmd {c : ParSet} {s' : σ}
    (h : parSetCmd srv.toBus s c = some (success, s')) : c.Accepted := by
  rw [parSetCmd] at h
  by_cases hchecks : !isValidNode c.node || !isValidTable c.table
  · rw [if_pos hchecks] at h
    simp [badArgument, success] at h
  · rw [if_neg hchecks] at h
    simp only [Bool.or_eq_true, Bool.not_eq_true', not_or, Bool.not_eq_false] at hchecks
    refine ⟨hchecks.1, hchecks.2, ?_⟩
    by_contra htype
    cases ht : c.type <;> simp [ht, ParamType.Written, badArgument, success] at h htype

/-- Elements of an array do not overlap. -/
theorem elements_apart (addr : UInt16) {size i j : Nat} (hsize : size ≤ 4) (hj : j < i)
    (hi : i < 256) :
    size ≤ ((addr + (size * j).toUInt16) - (addr + (size * i).toUInt16)).toNat ∧
      size ≤ ((addr + (size * i).toUInt16) - (addr + (size * j).toUInt16)).toNat := by
  have hnext : size * j + size ≤ size * i := by
    rw [← Nat.mul_succ]
    exact Nat.mul_le_mul_left _ hj
  have hmost : size * i ≤ 4 * 256 := Nat.mul_le_mul hsize (Nat.le_of_lt hi)
  have hto (n : Nat) (hn : n ≤ 1024) : n.toUInt16.toNat = n :=
    UInt16.toNat_ofNat_of_lt' (by show n < 65536; omega)
  have haddr : addr.toNat < 65536 := addr.toNat_lt
  simp only [UInt16.toNat_sub, UInt16.toNat_add]
  rw [hto _ (by omega), hto _ (by omega)]
  omega

variable {srv s} in
/-- A value that is stored behind others leaves them. -/
theorem stored_next {s₁ : σ} {node table : UInt8} {addr : UInt16} {type : ParamType}
    {item : Nat → List UInt8} {i : Nat} (hi : i < 256)
    (hlen : ∀ j ≤ i, (item j).length = type.size)
    (hbefore : ∀ j < i,
      srv.stored s node table (addr + (type.size * j).toUInt16) = sent type (item j))
    (hstored : srv.stored s₁ node table (addr + (type.size * i).toUInt16) = sent type (item i))
    (hkeep : ∀ other, (sent type (item i)).length ≤
        (other - (addr + (type.size * i).toUInt16)).toNat →
      (srv.stored s node table other).length ≤ ((addr + (type.size * i).toUInt16) - other).toNat →
      srv.stored s₁ node table other = srv.stored s node table other) :
    ∀ j < i + 1,
      srv.stored s₁ node table (addr + (type.size * j).toUInt16) = sent type (item j) := by
  intro j hj
  by_cases hlast : j = i
  · rw [hlast, hstored]
  · have hji : j < i := by omega
    obtain ⟨hleft, hright⟩ := elements_apart addr (Params.size_le type) hji hi
    rw [hkeep _ (by rw [length_sent (hlen i (Nat.le_refl i))]; exact hleft)
        (by rw [hbefore j hji, length_sent (hlen j (by omega))]; exact hright), hbefore j hji]

/-- An element of an array, as it lies in memory. -/
def ParSetArray.item (c : ParSetArray) (i : Nat) : List UInt8 :=
  (c.data.toList.drop (i * c.type.size)).take c.type.size

/-- The address of an element. -/
def ParSetArray.itemAddr (c : ParSetArray) (i : Nat) : UInt16 :=
  c.addr + (c.type.size * i).toUInt16

theorem length_item {c : ParSetArray} {i : Nat} (hi : i < 8) :
    (c.item i).length = c.type.size := by
  have hle : (i + 1) * c.type.size ≤ 8 * 4 := Nat.mul_le_mul hi (Params.size_le c.type)
  rw [Nat.succ_mul] at hle
  rw [ParSetArray.item, List.length_take, List.length_drop, Vector.length_toList]
  omega

/-- The loop leaves the elements from the `i`-th on with the payload and keeps those before. -/
theorem parSetArrayLoop_stored {c : ParSetArray} (htype : c.type.Written) (hne : c.type ≠ .string)
    (n i : Nat) (hin : i + n ≤ 8) (s : σ)
    (hbefore : ∀ j < i, srv.stored s c.node c.table (c.itemAddr j) = sent c.type (c.item j)) :
    ∃ s', parSetArrayLoop srv.toBus c n i s = some (success, s') ∧
      ∀ j < i + n, srv.stored s' c.node c.table (c.itemAddr j) = sent c.type (c.item j) := by
  induction n generalizing i s with
  | zero => exact ⟨s, rfl, hbefore⟩
  | succ n ih =>
    have hsize := Params.size_le c.type
    have hlen : (sent c.type (c.item i)).length = c.type.size :=
      length_sent (length_item (by omega))
    have hdata : c.type.size ≤ (c.data.toList.drop (i * c.type.size)).length := by
      have hitem : (c.item i).length = c.type.size := length_item (by omega)
      rw [ParSetArray.item, List.length_take] at hitem
      omega
    have hbytes : setBytes c.type (c.data.toList.drop (i * c.type.size)) =
        some (some (sent c.type (c.item i))) := setBytes_word htype hne hdata
    obtain ⟨s₁, hset, hstored, hkeep⟩ := setParam_stored srv s c.node c.table (c.itemAddr i)
      hbytes (by omega)
    have hnext : ∀ j < i + 1,
        srv.stored s₁ c.node c.table (c.itemAddr j) = sent c.type (c.item j) :=
      stored_next (by omega) (fun j hj => length_item (by omega)) hbefore hstored hkeep
    obtain ⟨s', hloop, hall⟩ := ih (i + 1) (by omega) s₁ hnext
    refine ⟨s', ?_, fun j hj => hall j (by omega)⟩
    rw [parSetArrayLoop]
    have hfirst : setParam srv.toBus s c.node c.table (c.addr + (c.type.size * i).toUInt16) c.type
        (c.data.toList.drop (i * c.type.size)) = some (success, s₁) := hset
    simp only [hfirst, hloop, Option.bind_eq_bind, Option.bind_some, ne_eq, not_true_eq_false,
      if_false]

/-- An accepted command for an array leaves its elements with the payload. -/
theorem parSetArrayCmd_stored {c : ParSetArray} (h : c.Accepted) :
    ∃ s', parSetArrayCmd srv.toBus s c = some (success, s') ∧
      ∀ j < c.len.toNat, srv.stored s' c.node c.table (c.itemAddr j) = sent c.type (c.item j) := by
  obtain ⟨hnode, htable, htype, hne, hpos, hmost⟩ := h
  have hlen : c.len.toNat ≤ 8 := UInt8.le_iff_toNat_le.1 hmost
  have hknown : ¬(c.type ≠ .uint8 ∧ c.type ≠ .uint16 ∧ c.type ≠ .uint32) := by
    rintro ⟨h8, h16, h32⟩
    rcases htype with h | h | h | h <;> contradiction
  have hcount : ¬(c.len = 0 ∨ 8 < c.len) := by
    rintro (h0 | h8)
    · exact hpos h0
    · exact absurd h8 (UInt8.not_lt.2 hmost)
  obtain ⟨s', hloop, hall⟩ :=
    parSetArrayLoop_stored srv htype hne c.len.toNat 0 (by omega) s
      (fun j hj => absurd hj (by omega))
  refine ⟨s', ?_, fun j hj => hall j (by omega)⟩
  rw [parSetArrayCmd]
  simp only [hnode, htable, Bool.not_true, Bool.or_self, Bool.false_eq_true, if_false]
  rw [if_neg hknown, if_neg hcount, hloop]

/-- Only accepted commands for arrays report success. -/
theorem accepted_of_parSetArrayCmd {c : ParSetArray} {s' : σ}
    (h : parSetArrayCmd srv.toBus s c = some (success, s')) : c.Accepted := by
  rw [parSetArrayCmd] at h
  by_cases hchecks : !isValidNode c.node || !isValidTable c.table
  · rw [if_pos hchecks] at h
    simp [badArgument, success] at h
  · rw [if_neg hchecks] at h
    simp only [Bool.or_eq_true, Bool.not_eq_true', not_or, Bool.not_eq_false] at hchecks
    by_cases hknown : c.type ≠ .uint8 ∧ c.type ≠ .uint16 ∧ c.type ≠ .uint32
    · rw [if_pos hknown] at h
      simp [badArgument, success] at h
    · rw [if_neg hknown] at h
      by_cases hcount : c.len = 0 ∨ 8 < c.len
      · rw [if_pos hcount] at h
        simp [badArgument, success] at h
      · rw [not_or] at hcount
        refine ⟨hchecks.1, hchecks.2, ?_, ?_, hcount.1, UInt8.not_lt.1 hcount.2⟩
        · simp only [ParamType.Written]
          tauto
        · rintro hstring
          simp [hstring] at hknown

/-! ## Series of commands -/

/-- Commands for words that lie one behind the other. -/
structure Series where
  node : UInt8
  table : UInt8
  addr : UInt16
  type : ParamType
  data : List (Vector UInt8 96)
  word : type ≠ .string
  short : data.length < 256

namespace Series

/-- The commands for these words, of which the first is the `i`-th. -/
def commands (q : Series) : Nat → List (Vector UInt8 96) → List ParSet
  | _, [] => []
  | i, d :: data =>
    ⟨q.node, q.table, q.addr + (q.type.size * i).toUInt16, q.type, d⟩ :: q.commands (i + 1) data

/-- The values of a series, as they lie in memory. -/
def value (q : Series) : List UInt8 := q.data.flatMap fun d => d.toList.take q.type.size

/-- The checks of all commands and of the read of all words. -/
def Accepted (q : Series) : Prop :=
  isValidNode q.node = true ∧ isValidTable q.table = true ∧ q.type.Written ∧ q.data ≠ [] ∧
    q.data.length * (addrSize + q.type.size) ≤ maxReplyPayload

/-- A word of a series. -/
def item (q : Series) (i : Nat) : List UInt8 :=
  (q.data.getD i (Vector.replicate 96 0)).toList.take q.type.size

theorem length_item (q : Series) (i : Nat) : (q.item i).length = q.type.size := by
  have hsize := Params.size_le q.type
  rw [item, List.length_take, Vector.length_toList]
  omega

/-- The words of a series are its value. -/
theorem flatMap_item (q : Series) : (List.range' 0 q.data.length).flatMap q.item = q.value := by
  have hdata : (List.range' 0 q.data.length).map (fun i => q.data.getD i (Vector.replicate 96 0)) =
      q.data := by
    refine List.ext_getElem (by simp) fun i hi hi' => ?_
    simp [hi']
  conv_rhs => rw [value, ← hdata, List.flatMap_map]
  rfl

end Series

/-- Commands one after the other, until one fails. -/
def parSetCmds : List ParSet → σ → Option (Status × σ)
  | [], s => some (success, s)
  | c :: cs, s => do
    let (status, s) ← parSetCmd srv.toBus s c
    if status ≠ success then some (status, s) else parSetCmds cs s

/-- Accepted commands for the words behind `pre` leave all words with the payload. -/
theorem parSetCmds_stored {q : Series} (hnode : isValidNode q.node = true)
    (htable : isValidTable q.table = true) (htype : q.type.Written)
    (pre data : List (Vector UInt8 96)) (hdata : q.data = pre ++ data) (s : σ)
    (hbefore : ∀ j < pre.length, srv.stored s q.node q.table
      (q.addr + (q.type.size * j).toUInt16) = sent q.type (q.item j)) :
    ∃ s', parSetCmds srv (q.commands pre.length data) s = some (success, s') ∧
      ∀ j < q.data.length, srv.stored s' q.node q.table
        (q.addr + (q.type.size * j).toUInt16) = sent q.type (q.item j) := by
  induction data generalizing pre s with
  | nil =>
    rw [List.append_nil] at hdata
    rw [hdata]
    exact ⟨s, rfl, hbefore⟩
  | cons d data ih =>
    have hshort := q.short
    rw [hdata, List.length_append, List.length_cons] at hshort
    have hd : q.item pre.length = d.toList.take q.type.size := by
      rw [Series.item, hdata, List.getD_append_right _ _ _ _ (Nat.le_refl _), Nat.sub_self]
      rfl
    obtain ⟨s₁, hset, hstored, hkeep⟩ := parSetCmd_stored srv s
      (c := ⟨q.node, q.table, q.addr + (q.type.size * pre.length).toUInt16, q.type, d⟩)
      ⟨hnode, htable, htype⟩
    have hvalue : ParSet.value
        ⟨q.node, q.table, q.addr + (q.type.size * pre.length).toUInt16, q.type, d⟩ =
        q.item pre.length := by
      rw [hd]
      exact if_neg q.word
    rw [hvalue] at hstored hkeep
    have hnext := stored_next (by omega) (fun j _ => q.length_item j) hbefore hstored hkeep
    have hlen : (pre ++ [d]).length = pre.length + 1 := List.length_append
    obtain ⟨s', hrest, hall⟩ := ih (pre ++ [d]) (by rw [hdata, List.append_assoc]; rfl) s₁
      (by rw [hlen]; exact hnext)
    refine ⟨s', ?_, hall⟩
    rw [hlen] at hrest
    rw [Series.commands, parSetCmds]
    simp only [hset, hrest, Option.bind_eq_bind, Option.bind_some, ne_eq, not_true_eq_false,
      if_false]

/-- A series whose commands succeed passes their checks. -/
theorem accepted_of_parSetCmds {q : Series} {s' : σ} (hne : q.data ≠ [])
    (h : parSetCmds srv (q.commands 0 q.data) s = some (success, s')) :
    isValidNode q.node = true ∧ isValidTable q.table = true ∧ q.type.Written := by
  obtain ⟨d, data, hdata⟩ := List.exists_cons_of_ne_nil hne
  rw [hdata, Series.commands, parSetCmds] at h
  simp only [Option.bind_eq_bind, Option.bind_eq_some_iff] at h
  obtain ⟨⟨status, s₁⟩, hset, hrest⟩ := h
  by_cases hstatus : status = success
  · rw [hstatus] at hset
    exact accepted_of_parSetCmd srv s hset
  · rw [if_pos hstatus] at hrest
    simp at hrest
    exact absurd hrest.1 hstatus

end Commands

end Rparam
end Pay
end FlightApps
