import FlightApps.Pay.RparamSet

/-!
# Parameters that are set are read back

A query to a payload that keeps its parameters brings the pairs that were stored, and reading them
undoes what setting did to the bytes.
-/

set_option autoImplicit false

namespace FlightApps
namespace Pay
namespace Rparam

namespace Params

variable {p : Params} {count : Nat}

/-- The addresses that a query asks for. -/
def items (p : Params) (count : Nat) : List UInt16 :=
  (List.range' 0 count).map fun j => if p.type = .string then p.addr else p.itemAddr j

theorem query_eq (p : Params) (magic : UInt16) (count : Nat) :
    p.query magic count = header actionGet p.table ((p.items count).length * addrSize) magic ++
      (p.items count).flatMap storeBe16 := by
  rw [query, addrs, items, List.length_map, List.length_range', List.flatMap_map]

/-- A reply with a header of its own and the pairs that were asked for. -/
def reply (p : Params) (rest pairs tail : List UInt8) : List UInt8 :=
  [actionReply, p.table] ++ storeBe16 pairs.length.toUInt16 ++ rest ++ pairs ++ tail

section Reply

variable {rest pairs tail : List UInt8}

/-- What lies behind the header of a reply. -/
theorem load_pairs {xs ys zs : List UInt8} (hrest : rest.length = 6)
    (hpairs : pairs = xs ++ ys ++ zs) {i : Nat} (hi : i = headerSize + xs.length) :
    Buffer.load (p.reply rest pairs tail) i ys.length = some ys := by
  have hpart := Buffer.load_part
    ([actionReply, p.table] ++ storeBe16 pairs.length.toUInt16 ++ rest ++ xs) ys (zs ++ tail)
  have hlen : ([actionReply, p.table] ++ storeBe16 pairs.length.toUInt16 ++ rest ++ xs).length =
      i := by
    rw [hi, List.length_append, List.length_append, hrest]
    rfl
  rw [hlen] at hpart
  rw [reply]
  conv_lhs => rw [hpairs]
  simp only [List.append_assoc] at hpart ⊢
  rw [← hpart, hpairs, List.append_assoc]

/-- The checks that a reply passes. -/
theorem readReply_good {ys : List UInt8} (hrest : rest.length = 6) (hfit : pairs.length ≤ 180)
    (hpairs : pairs = storeBe16 p.addr ++ ys) :
    p.readReply count (headerSize + pairs.length) (p.reply rest pairs tail) =
      if p.type = .string then p.readText (p.reply rest pairs tail) pairs.length
      else p.readArray (p.reply rest pairs tail) count pairs.length := by
  have hten : headerSize = 10 := rfl
  have htwo : 2 ≤ pairs.length := by
    rw [hpairs, List.length_append]
    exact Nat.le_add_right 2 _
  have hsize : Buffer.load (p.reply rest pairs tail) 2 2 =
      some (storeBe16 pairs.length.toUInt16) := by
    rw [reply, List.append_assoc, List.append_assoc, List.append_assoc]
    exact Buffer.load_part [actionReply, p.table] (storeBe16 pairs.length.toUInt16) _
  have hfirst : Buffer.load (p.reply rest pairs tail) headerSize 2 = some (storeBe16 p.addr) := by
    have hpart : pairs = [] ++ storeBe16 p.addr ++ ys := hpairs
    exact load_pairs hrest hpart rfl
  have hpayload : pairs.length.toUInt16.toNat = pairs.length :=
    UInt16.toNat_ofNat_of_lt' (by show pairs.length < 65536; omega)
  have haction : (p.reply rest pairs tail)[0]? = some actionReply := rfl
  have htable : (p.reply rest pairs tail)[1]? = some p.table := rfl
  rw [readReply, if_neg (by omega), if_neg (by omega)]
  simp only [haction, htable, hsize, hfirst, hpayload, loadBe16_storeBe16, Option.bind_eq_bind,
    Option.bind_some]
  rw [if_neg (by simp), if_neg (by omega), if_neg (by simp only [addrSize]; omega),
    if_neg (by simp)]

variable (tail) in
/-- The text of a good reply. -/
theorem readText_good {text : List UInt8} (hrest : rest.length = 6)
    (hpairs : pairs = storeBe16 p.addr ++ text) (hfit : text.length ≤ p.len.toNat)
    (hlen : p.len.toNat ≤ 178) (hparam : p.param.length = 256) :
    ∃ p', p.readText (p.reply rest pairs tail) pairs.length = some (success, p') ∧
      p'.len.toNat = text.length ∧ Buffer.load p'.param 0 text.length = some text := by
  have hsize : pairs.length - addrSize = text.length := by
    rw [hpairs, List.length_append]
    exact Nat.add_sub_cancel_left 2 text.length
  have htext : Buffer.load (p.reply rest pairs tail) (headerSize + addrSize) text.length =
      some text := by
    have hpart : pairs = storeBe16 p.addr ++ text ++ [] := by rw [List.append_nil, hpairs]
    exact load_pairs hrest hpart rfl
  rw [readText]
  simp only [hsize, htext, Option.bind_eq_bind, Option.bind_some]
  rw [if_neg (by omega), Buffer.store_zero (by omega), Option.bind_some,
    Buffer.storeIf_front [0] (fun h => absurd h (by omega)) rfl
      (by rw [List.length_singleton]; omega),
    Option.bind_some]
  refine ⟨_, rfl, UInt8.toNat_ofNat_of_lt' (by show text.length < 256; omega), ?_⟩
  rw [List.append_assoc]
  exact Buffer.load_part [] text _

/-- The pairs of an array, from the `i`-th on. -/
def pairsFrom (p : Params) (stored : Nat → List UInt8) (i n : Nat) : List UInt8 :=
  (List.range' i n).flatMap fun j => storeBe16 (p.itemAddr j) ++ stored j

theorem pairsFrom_succ (p : Params) (stored : Nat → List UInt8) (i n : Nat) :
    p.pairsFrom stored i (n + 1) =
      storeBe16 (p.itemAddr i) ++ stored i ++ p.pairsFrom stored (i + 1) n := by
  rw [pairsFrom, List.range'_succ, List.flatMap_cons, ← pairsFrom]

variable {stored : Nat → List UInt8}

theorem length_pairsFrom (i n : Nat)
    (h : ∀ j, i ≤ j → j < i + n → (stored j).length = p.type.size) :
    (p.pairsFrom stored i n).length = n * (addrSize + p.type.size) := by
  refine length_rows i n fun j hj hlt => ?_
  rw [List.length_append, h j hj hlt]
  rfl

/-- The items of a good reply, from the `i`-th on. -/
theorem readItems_good (hrest : rest.length = 6) (front : List UInt8) (n i : Nat)
    (hpairs : pairs = front ++ p.pairsFrom stored i n)
    (hfront : front.length = i * (addrSize + p.type.size))
    (h : ∀ j, i ≤ j → j < i + n → (stored j).length = p.type.size) {w buf : List UInt8}
    (hw : w.length = i * p.type.size) (hroom : w.length + n * p.type.size ≤ buf.length) :
    p.readItems (p.reply rest pairs tail) n i (w ++ buf.drop w.length) =
      some (success, (w ++ (List.range' i n).flatMap fun j => decode p.type (stored j)) ++
        buf.drop (w ++ (List.range' i n).flatMap fun j => decode p.type (stored j)).length) := by
  induction n generalizing front i w with
  | zero => simp [readItems]
  | succ n ih =>
    have hi : (stored i).length = p.type.size := h i (Nat.le_refl i) (by omega)
    have hdecode := length_decode p.type hi
    rw [pairsFrom_succ] at hpairs
    have haddr : Buffer.load (p.reply rest pairs tail)
        (headerSize + i * (addrSize + p.type.size)) 2 = some (storeBe16 (p.itemAddr i)) := by
      have hpart : pairs = front ++ storeBe16 (p.itemAddr i) ++
          (stored i ++ p.pairsFrom stored (i + 1) n) := by
        rw [hpairs]
        simp only [List.append_assoc]
      exact load_pairs hrest hpart (by rw [hfront])
    have hvalue : Buffer.load (p.reply rest pairs tail)
        (headerSize + i * (addrSize + p.type.size) + addrSize) p.type.size = some (stored i) := by
      have hpart : pairs = (front ++ storeBe16 (p.itemAddr i)) ++ stored i ++
          p.pairsFrom stored (i + 1) n := by
        rw [hpairs]
        simp only [List.append_assoc]
      rw [← hi]
      refine load_pairs hrest hpart ?_
      rw [List.length_append, hfront, hi, Nat.add_assoc]
      rfl
    rw [Nat.succ_mul] at hroom
    rw [readItems]
    simp only [haddr, hvalue, loadBe16_storeBe16, Option.bind_eq_bind, Option.bind_some, ne_eq,
      not_true_eq_false, if_false]
    refine Buffer.bind_store_front hw.symm (by rw [hdecode]; omega) ?_
    rw [List.range'_succ, List.flatMap_cons, ← List.append_assoc]
    refine ih (front ++ storeBe16 (p.itemAddr i) ++ stored i) (i + 1) ?_ ?_
      (fun j hj hlt => h j (by omega) (by omega)) ?_ ?_
    · rw [hpairs]
      simp only [List.append_assoc]
    · rw [List.length_append, List.length_append, hfront, hi, Nat.succ_mul, Nat.add_assoc]
      rfl
    · rw [List.length_append, hw, hdecode, Nat.succ_mul]
    · rw [List.length_append, hdecode]
      omega

variable (tail) in
/-- The array of a good reply. -/
theorem readArray_good (hrest : rest.length = 6) (hpairs : pairs = p.pairsFrom stored 0 count)
    (h : ∀ j < count, (stored j).length = p.type.size) (hcount : count = p.len.toNat)
    (hpos : 0 < count) (hroom : count * p.type.size ≤ 256) (hparam : p.param.length = 256) :
    ∃ p', p.readArray (p.reply rest pairs tail) count pairs.length = some (success, p') ∧
      p'.len = p.len ∧ Buffer.load p'.param 0 (count * p.type.size) =
        some ((List.range' 0 count).flatMap fun j => decode p.type (stored j)) := by
  have hstored : ∀ j, 0 ≤ j → j < 0 + count → (stored j).length = p.type.size :=
    fun j _ hj => h j (by omega)
  have hlen : pairs.length = count * (addrSize + p.type.size) := by
    rw [hpairs, length_pairsFrom 0 count hstored]
  have heach : 0 < addrSize + p.type.size := Nat.lt_of_lt_of_le (by decide) (Nat.le_add_right 2 _)
  have hitems : p.readItems (p.reply rest pairs tail) count 0 ([] ++ p.param.drop 0) = _ :=
    readItems_good hrest [] count 0 hpairs (Nat.zero_mul _).symm hstored (Nat.zero_mul _).symm
      (by rw [List.length_nil, hparam]; omega)
  rw [List.nil_append, List.drop_zero, List.nil_append] at hitems
  have hvalues : ((List.range' 0 count).flatMap fun j => decode p.type (stored j)).length =
      count * p.type.size :=
    length_rows 0 count fun j hj hlt => length_decode p.type (hstored j hj hlt)
  rw [readArray]
  simp only [hlen, Nat.mul_mod_left, Nat.mul_div_cancel _ heach]
  rw [if_neg (by simp), if_neg (by omega)]
  simp only [hitems, Option.bind_eq_bind, Option.bind_some, if_true]
  refine ⟨_, rfl, ?_, ?_⟩
  · show count.toUInt8 = p.len
    rw [hcount]
    exact UInt8.ofNat_toNat
  · rw [← hvalues]
    exact Buffer.load_front _ _

end Reply

end Params

/-! ## Payloads -/

section Server

variable {σ : Type} (srv : Server σ) (s : σ)

/-- The pairs that a payload answers with. -/
def Server.pairs (p : Params) (count : Nat) : List UInt8 :=
  (p.items count).flatMap fun a => storeBe16 a ++ srv.stored s p.node p.table a

/-- The transaction of a request. -/
theorem transaction_served {p : Params} {count : Nat}
    (hfit : (srv.pairs s p count).length ≤ maxReplyPayload) :
    ∃ rest tail s', rest.length = 6 ∧
      transaction srv.toBus s p.node (p.query srv.magic count)
          (List.replicate (headerSize + maxReplyPayload) 0) =
        some (headerSize + (srv.pairs s p count).length,
          p.reply rest (srv.pairs s p count) tail, s') := by
  obtain ⟨rest, s', hrest, htransact⟩ := srv.get s p.node p.table (p.items count) hfit
  rw [← Params.query_eq, ← Server.pairs] at htransact
  have hlen : ([actionReply, p.table] ++ storeBe16 (srv.pairs s p count).length.toUInt16 ++ rest ++
      srv.pairs s p count).length = headerSize + (srv.pairs s p count).length := by
    rw [List.length_append, List.length_append, hrest]
    rfl
  have hroom : headerSize + (srv.pairs s p count).length ≤
      (List.replicate (headerSize + maxReplyPayload) (0 : UInt8)).length := by
    rw [List.length_replicate]
    exact Nat.add_le_add_left hfit headerSize
  have hstore := Buffer.store_zero (hlen.trans_le hroom)
  refine ⟨rest, (List.replicate (headerSize + maxReplyPayload) 0).drop
    (headerSize + (srv.pairs s p count).length), s', hrest, ?_⟩
  simp only [transaction, htransact, hstore, hlen, Option.bind_eq_bind,
    Option.bind_some, Params.reply]

/-- What a payload answers to a request is read. -/
theorem fetchParam_served {p : Params} {count : Nat} {ys : List UInt8}
    (hcount : p.requestCount = some count)
    (hpairs : srv.pairs s p count = storeBe16 p.addr ++ ys)
    (hfit : (srv.pairs s p count).length ≤ maxReplyPayload) :
    ∃ rest tail s', rest.length = 6 ∧ fetchParam srv.toBus s p =
      (if p.type = .string then
        p.readText (p.reply rest (srv.pairs s p count) tail) (srv.pairs s p count).length
      else p.readArray (p.reply rest (srv.pairs s p count) tail) count
        (srv.pairs s p count).length).bind fun q => some (q.1, q.2, s') := by
  obtain ⟨rest, tail, s', hrest, htransact⟩ := transaction_served srv s hfit
  refine ⟨rest, tail, s', hrest, ?_⟩
  rw [fetchParam_eq srv.toBus s hcount, htransact, Option.bind_some]
  simp only [Params.readReply_good hrest hfit hpairs]

variable {type : ParamType} {node table : UInt8} {addr : UInt16} {len : UInt8} {out : List UInt8}

/-- What is read in full is copied. -/
theorem fetchParamSimple_copied {p : Params} {s' : σ} {bytes : List UInt8}
    (hfetch : fetchParam srv.toBus s (request type node table addr len) = some (success, p, s'))
    (hfull : type ≠ .string → p.len = len)
    (hload : Buffer.load p.param 0 (type.size * p.len.toNat) = some bytes)
    (hout : bytes.length ≤ out.length) :
    fetchParamSimple srv.toBus s type node table addr len out =
      some (success, bytes ++ out.drop bytes.length, s') := by
  have hsimple : fetchParam srv.toBus s ⟨node, table, addr, type, len, List.replicate 256 0⟩ =
      some (success, p, s') := hfetch
  have hshort : ¬(type ≠ .string ∧ p.len ≠ len) := fun h => h.2 (hfull h.1)
  rw [fetchParamSimple]
  simp only [hsimple, hload, Buffer.store_zero hout, hshort, Option.bind_eq_bind, Option.bind_some,
    and_false, if_false, if_true]

theorem Params.requestCount_text {p : Params} (htype : p.type = .string) (hpos : 0 < p.len.toNat)
    (hlen : p.len.toNat ≤ 178) : p.requestCount = some 1 := by
  have hzero : p.len ≠ 0 := fun h => by simp [h] at hpos
  have hcapacity : ¬256 < p.len.toNat := by omega
  have hreply : ¬180 < 2 + p.len.toNat := by omega
  rw [Params.requestCount]
  simp [htype, hzero, ParamType.size, maxReplyPayload, addrSize, hcapacity, hreply]

/-- **Reading a string** that a payload keeps. -/
theorem fetchParamSimple_text {text : List UInt8} (htext : srv.stored s node table addr = text)
    (hpos : 0 < len.toNat) (hfit : text.length ≤ len.toNat) (hlen : len.toNat ≤ 178)
    (hout : text.length ≤ out.length) :
    ∃ s', fetchParamSimple srv.toBus s .string node table addr len out =
      some (success, text ++ out.drop text.length, s') := by
  have hcount : (request .string node table addr len).requestCount = some 1 :=
    Params.requestCount_text rfl hpos hlen
  have hpairs : srv.pairs s (request .string node table addr len) 1 = storeBe16 addr ++ text := by
    rw [← htext]
    exact List.append_nil _
  have hmost : (srv.pairs s (request .string node table addr len) 1).length ≤ maxReplyPayload := by
    rw [hpairs, List.length_append]
    show 2 + text.length ≤ 180
    omega
  obtain ⟨rest, tail, s', hrest, hfetch⟩ := fetchParam_served srv s hcount hpairs hmost
  obtain ⟨p', hread, hsize, hload⟩ :=
    Params.readText_good (p := request .string node table addr len) tail hrest hpairs hfit hlen
      List.length_replicate
  refine ⟨s', fetchParamSimple_copied srv s (p := p') ?_ (fun h => absurd rfl h) ?_ hout⟩
  · rw [hfetch]
    show (Params.readText _ _ _).bind _ = _
    rw [hread]
    rfl
  · rw [ParamType.size, Nat.one_mul, hsize]
    exact hload

theorem Params.requestCount_array {p : Params} (htype : p.type.Written) (hne : p.type ≠ .string)
    (hpos : 0 < p.len.toNat) (hfit : p.len.toNat * (addrSize + p.type.size) ≤ 180) :
    p.requestCount = some p.len.toNat := by
  have hzero : p.len ≠ 0 := fun h => by simp [h] at hpos
  rw [Params.requestCount]
  rcases htype with h | h | h | h
  · simp [h, hzero, ParamType.size, maxReplyPayload, addrSize] at hfit ⊢
    omega
  · simp [h, hzero, ParamType.size, maxReplyPayload, addrSize] at hfit ⊢
    omega
  · simp [h, hzero, ParamType.size, maxReplyPayload, addrSize] at hfit ⊢
    omega
  · exact absurd h hne

/-- **Reading an array** that a payload keeps. -/
theorem fetchParamSimple_array {value : Nat → List UInt8} (htype : type.Written)
    (hne : type ≠ .string) (hpos : 0 < len.toNat)
    (hfit : len.toNat * (addrSize + type.size) ≤ 180)
    (hvalue : ∀ j < len.toNat, (value j).length = type.size ∧
      srv.stored s node table (addr + (type.size * j).toUInt16) = sent type (value j))
    (hout : type.size * len.toNat ≤ out.length) :
    ∃ s', fetchParamSimple srv.toBus s type node table addr len out =
      some (success, (List.range' 0 len.toNat).flatMap value ++
        out.drop ((List.range' 0 len.toNat).flatMap value).length, s') := by
  have hmost : len.toNat * type.size ≤ 180 := by
    rw [Nat.mul_add] at hfit
    omega
  have hcount : (request type node table addr len).requestCount = some len.toNat :=
    Params.requestCount_array htype hne hpos hfit
  obtain ⟨n, hn⟩ : ∃ n, len.toNat = n + 1 := ⟨len.toNat - 1, by omega⟩
  have hsent : ∀ j < len.toNat, (sent type (value j)).length = type.size := fun j hj =>
    length_sent (hvalue j hj).1
  have hpairs : srv.pairs s (request type node table addr len) len.toNat =
      (request type node table addr len).pairsFrom (fun j => sent type (value j)) 0 len.toNat := by
    rw [Server.pairs, Params.items, List.flatMap_map, Params.pairsFrom]
    refine List.flatMap_congr fun j hj => ?_
    rw [List.mem_range'_1] at hj
    have hstored := (hvalue j (by omega)).2
    have hitem : (request type node table addr len).type ≠ .string := hne
    rw [if_neg hitem, ← hstored]
    rfl
  have hfirst := hpairs
  rw [hn, Params.pairsFrom_succ, List.append_assoc] at hfirst
  have hlong : (srv.pairs s (request type node table addr len) len.toNat).length =
      len.toNat * (addrSize + type.size) := by
    rw [hpairs, Params.length_pairsFrom 0 _ fun j _ hj => hsent j (by omega)]
    rfl
  have hitem : (request type node table addr len).type ≠ .string := hne
  have hzero : (request type node table addr len).itemAddr 0 = addr := by
    show addr + (type.size * 0).toUInt16 = addr
    rw [Nat.mul_zero]
    exact UInt16.add_zero addr
  rw [hzero] at hfirst
  have hmaxed : (srv.pairs s (request type node table addr len) len.toNat).length ≤
      maxReplyPayload := by
    rw [hlong]
    exact hfit
  rw [← hn] at hfirst
  obtain ⟨rest, tail, s', hrest, hfetch⟩ := fetchParam_served srv s hcount hfirst hmaxed
  obtain ⟨p', hread, hsame, hload⟩ :=
    Params.readArray_good (p := request type node table addr len) tail hrest hpairs hsent rfl hpos
      (by show len.toNat * type.size ≤ 256; omega) List.length_replicate
  have hvalues : ((List.range' 0 len.toNat).flatMap fun j => decode type (sent type (value j))) =
      (List.range' 0 len.toNat).flatMap value := by
    refine List.flatMap_congr fun j hj => ?_
    rw [List.mem_range'_1] at hj
    exact decode_sent htype fun _ => (hvalue j (by omega)).1
  have hbytes : ((List.range' 0 len.toNat).flatMap value).length = len.toNat * type.size :=
    length_rows 0 len.toNat fun j _ hj => (hvalue j (by omega)).1
  refine ⟨s', fetchParamSimple_copied srv s (p := p') ?_ (fun _ => hsame) ?_ ?_⟩
  · rw [hfetch, if_neg hitem, hread]
    rfl
  · have hlen' : p'.len = len := hsame
    rw [hlen', Nat.mul_comm, ← hvalues]
    exact hload
  · rw [hbytes, Nat.mul_comm]
    exact hout

/-! ## Round trips -/

/-- The lengths of a read that is for what a command sets. -/
def ParSet.Covers (c : ParSet) (len : UInt8) : Prop :=
  if c.type = .string then c.value.length ≤ len.toNat ∧ len.toNat ≤ 178 else len = 1

/-- Setting a parameter and reading it brings its value. -/
def ParSet.RoundTrip (c : ParSet) : Prop :=
  ∀ len out, c.Covers len → c.type.size * len.toNat ≤ out.length →
    ∃ s₁ s₂, parSetCmd srv.toBus s c = some (success, s₁) ∧
      fetchParamSimple srv.toBus s₁ c.type c.node c.table c.addr len out =
        some (success, c.value ++ out.drop c.value.length, s₂)

/-- Setting an array and reading it brings its values. -/
def ParSetArray.RoundTrip (c : ParSetArray) : Prop :=
  ∀ out : List UInt8, c.type.size * c.len.toNat ≤ out.length →
    ∃ s₁ s₂, parSetArrayCmd srv.toBus s c = some (success, s₁) ∧
      fetchParamSimple srv.toBus s₁ c.type c.node c.table c.addr c.len out =
        some (success, c.value ++ out.drop c.value.length, s₂)

theorem parSet_roundTrip_iff (c : ParSet) : c.RoundTrip srv s ↔ c.Accepted := by
  constructor
  · intro h
    have hcovers : ∃ len, c.Covers len := by
      by_cases hstring : c.type = .string
      · refine ⟨96, ?_⟩
        rw [ParSet.Covers, if_pos hstring]
        exact ⟨length_value_le c, by decide⟩
      · refine ⟨1, ?_⟩
        rw [ParSet.Covers, if_neg hstring]
    obtain ⟨len, hlen⟩ := hcovers
    obtain ⟨s₁, -, hset, -⟩ := h len (List.replicate (c.type.size * len.toNat) 0) hlen
      (by rw [List.length_replicate])
    exact accepted_of_parSetCmd srv s hset
  · intro h len out hcovers hout
    obtain ⟨s₁, hset, hstored, -⟩ := parSetCmd_stored srv s h
    by_cases hstring : c.type = .string
    · rw [ParSet.Covers, if_pos hstring] at hcovers
      have hpos : 0 < c.value.length := by
        rw [ParSet.value, if_pos hstring]
        exact cString_pos _
      rw [hstring] at hstored hout ⊢
      rw [ParamType.size, Nat.one_mul] at hout
      obtain ⟨s₂, hfetch⟩ := fetchParamSimple_text srv s₁ hstored (by omega) hcovers.1 hcovers.2
        (hcovers.1.trans hout)
      exact ⟨s₁, s₂, hset, hfetch⟩
    · rw [ParSet.Covers, if_neg hstring] at hcovers
      subst hcovers
      have hvalue : ∀ j < (1 : UInt8).toNat, c.value.length = c.type.size ∧
          srv.stored s₁ c.node c.table (c.addr + (c.type.size * j).toUInt16) =
            sent c.type c.value := by
        intro j hj
        have hj : j = 0 := Nat.lt_one_iff.1 hj
        refine ⟨length_value hstring, ?_⟩
        rw [hj, Nat.mul_zero, ← hstored]
        exact congrArg _ (UInt16.add_zero c.addr)
      have hpos : 0 < (1 : UInt8).toNat := by decide
      have hfit : (1 : UInt8).toNat * (addrSize + c.type.size) ≤ 180 := by
        have hsize := Params.size_le c.type
        show 1 * (2 + c.type.size) ≤ 180
        omega
      obtain ⟨s₂, hfetch⟩ := fetchParamSimple_array srv s₁ h.2.2 hstring hpos hfit hvalue hout
      have hone : (List.range' 0 (1 : UInt8).toNat).flatMap (fun _ => c.value) = c.value :=
        List.append_nil c.value
      rw [hone] at hfetch
      exact ⟨s₁, s₂, hset, hfetch⟩

/-- The elements of an array are the array. -/
theorem flatMap_item (c : ParSetArray) (n : Nat) :
    (List.range' 0 n).flatMap c.item = c.data.toList.take (n * c.type.size) := by
  induction n with
  | zero => simp
  | succ n ih =>
    rw [List.range'_1_concat, List.flatMap_append, ih, Nat.succ_mul, List.take_add,
      List.flatMap_singleton, ParSetArray.item, Nat.zero_add]

theorem parSetArray_roundTrip_iff (c : ParSetArray) : c.RoundTrip srv s ↔ c.Accepted := by
  constructor
  · intro h
    obtain ⟨s₁, -, hset, -⟩ := h (List.replicate (c.type.size * c.len.toNat) 0)
      (by rw [List.length_replicate])
    exact accepted_of_parSetArrayCmd srv s hset
  · intro h out hout
    obtain ⟨s₁, hset, hstored⟩ := parSetArrayCmd_stored srv s h
    obtain ⟨-, -, htype, hstring, hzero, hmost⟩ := h
    have hlen : c.len.toNat ≤ 8 := UInt8.le_iff_toNat_le.1 hmost
    have hpos : 0 < c.len.toNat := by
      by_contra h0
      exact hzero (UInt8.toNat_inj.1 (by simpa using h0))
    have hfit : c.len.toNat * (addrSize + c.type.size) ≤ 8 * (2 + 4) :=
      Nat.mul_le_mul hlen (Nat.add_le_add_left (Params.size_le c.type) 2)
    obtain ⟨s₂, hfetch⟩ := fetchParamSimple_array srv s₁ htype hstring hpos (hfit.trans (by decide))
      (fun j hj => ⟨length_item (by omega), hstored j hj⟩) hout
    rw [flatMap_item] at hfetch
    exact ⟨s₁, s₂, hset, hfetch⟩

/-- Setting words one by one and reading them at once brings their values. -/
def Series.RoundTrip (q : Series) : Prop :=
  ∀ out : List UInt8, q.type.size * q.data.length ≤ out.length →
    ∃ s₁ s₂, parSetCmds srv (q.commands 0 q.data) s = some (success, s₁) ∧
      fetchParamSimple srv.toBus s₁ q.type q.node q.table q.addr q.data.length.toUInt8 out =
        some (success, q.value ++ out.drop q.value.length, s₂)

variable {srv s} in
/-- A read that succeeds has passed its checks. -/
theorem requestCount_of_success {out' : List UInt8} {s' : σ}
    (h : fetchParamSimple srv.toBus s type node table addr len out = some (success, out', s')) :
    ∃ count, (request type node table addr len).requestCount = some count := by
  cases hcount : (request type node table addr len).requestCount with
  | some count => exact ⟨count, rfl⟩
  | none =>
    have hfetch : fetchParam srv.toBus s ⟨node, table, addr, type, len, List.replicate 256 0⟩ =
        some (errorArg, request type node table addr len, s) := by
      have hnone : Params.requestCount ⟨node, table, addr, type, len, List.replicate 256 0⟩ = none :=
        hcount
      rw [fetchParam, hnone]
      rfl
    have herror : errorArg ≠ success := by decide
    rw [fetchParamSimple] at h
    simp only [hfetch, herror, Option.bind_eq_bind, Option.bind_some, false_and, if_false,
      Option.some.injEq, Prod.mk.injEq] at h

theorem series_roundTrip_iff (q : Series) : q.RoundTrip srv s ↔ q.Accepted := by
  have hlen : q.data.length.toUInt8.toNat = q.data.length :=
    UInt8.toNat_ofNat_of_lt' (by show q.data.length < 256; exact q.short)
  constructor
  · intro h
    obtain ⟨s₁, s₂, hset, hfetch⟩ := h (List.replicate (q.type.size * q.data.length) 0)
      (by rw [List.length_replicate])
    obtain ⟨count, hcount⟩ := requestCount_of_success hfetch
    obtain ⟨-, hpos, -, -, harray⟩ := Params.requestCount_some hcount
    obtain ⟨hsame, hfit⟩ := harray q.word
    have hpos : 0 < q.data.length.toUInt8.toNat := hpos
    have hsame : count = q.data.length.toUInt8.toNat := hsame
    have hne : q.data ≠ [] := by
      intro hnil
      rw [hlen, hnil] at hpos
      exact absurd hpos (by decide)
    obtain ⟨hnode, htable, htype⟩ := accepted_of_parSetCmds srv s hne hset
    rw [hsame, hlen] at hfit
    exact ⟨hnode, htable, htype, hne, hfit⟩
  · rintro ⟨hnode, htable, htype, hne, hfit⟩ out hout
    obtain ⟨s₁, hset, hstored⟩ := parSetCmds_stored srv hnode htable htype [] q.data rfl s
      fun j hj => absurd hj (Nat.not_lt_zero j)
    have hpos : 0 < q.data.length := List.length_pos_of_ne_nil hne
    rw [← hlen] at hpos hfit hout hstored
    obtain ⟨s₂, hfetch⟩ := fetchParamSimple_array srv s₁ htype q.word hpos hfit
      (fun j hj => ⟨q.length_item j, hstored j hj⟩) hout
    rw [hlen, q.flatMap_item] at hfetch
    exact ⟨s₁, s₂, hset, hfetch⟩

end Server

/-! ## A payload -/

/-- The addresses of a query. -/
def addresses : List UInt8 → List UInt16
  | a :: b :: query => loadBe16 [a, b] :: addresses query
  | _ => []

theorem addresses_storeBe16 (addrs : List UInt16) :
    addresses (addrs.flatMap storeBe16) = addrs := by
  induction addrs with
  | nil => rfl
  | cons a addrs ih =>
    rw [List.flatMap_cons]
    show loadBe16 (storeBe16 a) :: addresses (addrs.flatMap storeBe16) = _
    rw [loadBe16_storeBe16, ih]

/-- A memory of parameters. -/
abbrev Memory := UInt8 → UInt8 → UInt16 → List UInt8

/-- What a memory answers to a query. -/
def Memory.transact (mem : Memory) (node : UInt8) (query : List UInt8) :
    Option (List UInt8) × Memory :=
  let table := query.getD 1 0
  let payload := query.drop headerSize
  if query.getD 0 0 = actionSet then
    (some [setOk], fun n t a =>
      if n = node ∧ t = table ∧ a = loadBe16 payload then payload.drop addrSize else mem n t a)
  else
    let pairs := (addresses payload).flatMap fun a => storeBe16 a ++ mem node table a
    (some ([actionReply, table] ++ storeBe16 pairs.length.toUInt16 ++ [0, 0, 0, 0, 0, 0] ++ pairs),
      mem)

/-- The payload with this memory. -/
def Memory.server (magic : UInt16) : Server Memory where
  magic := magic
  transact := Memory.transact
  stored mem := mem
  set mem node table addr bytes _ := by
    have haddr : loadBe16 (storeBe16 addr ++ bytes) = addr := loadBe16_storeBe16 addr
    have hanswer : Memory.transact mem node
        (header actionSet table (addrSize + bytes.length) magic ++ storeBe16 addr ++ bytes) =
          (some [setOk], fun n t a =>
            if n = node ∧ t = table ∧ a = addr then bytes else mem n t a) := by
      show (_, fun n t a =>
        if n = node ∧ t = table ∧ a = loadBe16 (storeBe16 addr ++ bytes) then bytes
        else mem n t a) = _
      rw [haddr]
    refine ⟨[setOk], _, hanswer, Or.inl rfl, if_pos ⟨rfl, rfl, rfl⟩, fun other hafter hbefore => ?_⟩
    by_cases hother : other = addr
    · rw [hother, UInt16.sub_self] at hafter hbefore
      have hbytes : bytes = [] := List.eq_nil_of_length_eq_zero (Nat.le_zero.1 hafter)
      rw [if_pos ⟨rfl, rfl, hother⟩, hother, hbytes]
      exact (List.eq_nil_of_length_eq_zero (Nat.le_zero.1 hbefore)).symm
    · exact if_neg fun h => hother h.2.2
  get mem node table addrs _ := by
    refine ⟨[0, 0, 0, 0, 0, 0], mem, rfl, ?_⟩
    show (some ([actionReply, table] ++ storeBe16 ((addresses (addrs.flatMap storeBe16)).flatMap
        fun a => storeBe16 a ++ mem node table a).length.toUInt16 ++ [0, 0, 0, 0, 0, 0] ++
      (addresses (addrs.flatMap storeBe16)).flatMap fun a => storeBe16 a ++ mem node table a),
      mem) = _
    rw [addresses_storeBe16]

/-- A payload with one answer. -/
def answering (bytes : List UInt8) : Bus Unit where
  magic := 0
  transact _ _ _ := (some bytes, ())

/-! ## Parameters are faithful -/

/-- **The parameters of a payload that keeps them are read back exactly when the commands that set
them, and the read, pass their checks; and a read is all or nothing, inside its buffers, exactly
when the reply fits.** -/
theorem parameters_faithful_iff {σ τ : Type} (srv : Server σ) (s : σ) (c : ParSet) (q : Series)
    (a : ParSetArray) (bus : Bus τ) (t : τ) (type : ParamType) (node table : UInt8) (addr : UInt16)
    (len : UInt8) (out : List UInt8) (hout : type.size * len.toNat ≤ out.length) :
    (c.RoundTrip srv s ↔ c.Accepted) ∧ (q.RoundTrip srv s ↔ q.Accepted) ∧
      (a.RoundTrip srv s ↔ a.Accepted) ∧
      (Atomic type len out (fetchParamSimple bus t type node table addr len out) ↔
        Fits bus t (request type node table addr len)) :=
  ⟨parSet_roundTrip_iff srv s c, series_roundTrip_iff srv s q, parSetArray_roundTrip_iff srv s a,
    fetchParamSimple_atomic_iff hout⟩

/-- Commands for one word, for two and for an array, and a reply that is cut. -/
theorem parameters_kept :
    ParSet.RoundTrip (Memory.server 0) (fun _ _ _ => [])
        ⟨11, 0, 0x91, .uint32, Vector.replicate 96 7⟩ ∧
      Series.RoundTrip (Memory.server 0) (fun _ _ _ => []) ⟨13, 1, 4, .uint8,
        [Vector.replicate 96 5, Vector.replicate 96 6], by decide, by decide⟩ ∧
      ParSetArray.RoundTrip (Memory.server 0) (fun _ _ _ => [])
        ⟨12, 7, 0xFFFE, .uint16, 3, Vector.replicate 32 9⟩ ∧
      Atomic .uint16 2 [1, 2, 3, 4]
        (fetchParamSimple (answering [0x55, 0, 0, 4]) () .uint16 13 0 0 2 [1, 2, 3, 4]) := by
  obtain ⟨hset, hseries, harray, hread⟩ := parameters_faithful_iff (Memory.server 0)
    (fun _ _ _ => []) ⟨11, 0, 0x91, .uint32, Vector.replicate 96 7⟩
    ⟨13, 1, 4, .uint8, [Vector.replicate 96 5, Vector.replicate 96 6], by decide, by decide⟩
    ⟨12, 7, 0xFFFE, .uint16, 3, Vector.replicate 32 9⟩ (answering [0x55, 0, 0, 4]) ()
    .uint16 13 0 0 2 [1, 2, 3, 4] (by decide)
  refine ⟨hset.2 ⟨rfl, rfl, by decide⟩, hseries.2 ⟨rfl, rfl, by decide, by simp, by decide⟩,
    harray.2 ⟨rfl, rfl, by decide, by decide, by decide, by decide⟩,
    hread.2 fun count _ bytes hbytes => ?_⟩
  have hbytes : [0x55, 0, 0, 4] = bytes := Option.some.inj hbytes
  rw [← hbytes]
  decide

/-- A reply of one byte more than there is room for. -/
theorem long_reply_overflows :
    ¬Atomic .uint8 1 [0]
      (fetchParamSimple (answering (List.replicate 191 0)) () .uint8 11 0 0 1 [0]) := by
  rw [fetchParamSimple_atomic_iff (by decide)]
  intro h
  have hlong := h 1 rfl (List.replicate 191 0) rfl
  rw [List.length_replicate] at hlong
  exact absurd hlong (by decide)

end Rparam
end Pay
end FlightApps
