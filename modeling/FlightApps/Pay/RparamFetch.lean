import FlightApps.Pay.Rparam

/-!
# Reading parameters stays in its buffers

A request that passes its checks makes a query of at most 190 bytes, and whatever reply fits the
buffer of 190 bytes is read inside it: the caller's memory then gets exactly what was requested, or
is left alone (`fetchParamSimple_atomic_iff`).  The length of the reply is not checked, neither
before it is copied nor by `csp_transaction2`, which is told that it is unknown.
-/

set_option autoImplicit false

namespace FlightApps
namespace Pay
namespace Rparam

/-- Rows of one length. -/
theorem length_rows {f : Nat → List UInt8} {k : Nat} (i n : Nat)
    (h : ∀ j, i ≤ j → j < i + n → (f j).length = k) :
    ((List.range' i n).flatMap f).length = n * k := by
  have hrow : ∀ j ∈ List.range' i n, (f j).length = k := fun j hj => by
    rw [List.mem_range'_1] at hj
    exact h j hj.1 hj.2
  rw [List.length_flatMap, List.map_congr_left hrow, List.map_const', List.sum_replicate_nat,
    List.length_range']

namespace Params

variable {p : Params} {count : Nat}

theorem size_pos (type : ParamType) : 0 < type.size := by
  cases type <;> simp [ParamType.size]

theorem size_le (type : ParamType) : type.size ≤ 4 := by
  cases type <;> simp [ParamType.size]

/-- What a request that passes its checks is for. -/
theorem requestCount_some (h : p.requestCount = some count) :
    p.type ≠ .other ∧ 0 < p.len.toNat ∧ 0 < count ∧
      (p.type = .string → count = 1 ∧ p.len.toNat ≤ 178) ∧
      (p.type ≠ .string → count = p.len.toNat ∧ count * (addrSize + p.type.size) ≤ 180) := by
  have hpos : 0 < p.len.toNat := by
    by_contra h0
    have hlen : p.len = 0 := UInt8.toNat_inj.1 (by simpa using h0)
    simp [requestCount, hlen] at h
  unfold requestCount at h
  cases ht : p.type <;> simp [ht, ParamType.size, maxReplyPayload, addrSize] at h ⊢
  case string =>
    obtain ⟨-, -, hfew⟩ := h
    by_cases hmany : 180 < 2 + p.len.toNat
    · simp [hmany] at hfew
    · simp [hmany] at hfew
      omega
  all_goals omega

/-- The addresses of a query. -/
def addrs (p : Params) (i n : Nat) : List UInt8 :=
  (List.range' i n).flatMap fun j => storeBe16 (if p.type = .string then p.addr else p.itemAddr j)

theorem length_addrs (p : Params) (i n : Nat) : (p.addrs i n).length = n * 2 :=
  length_rows i n fun _ _ _ => rfl

/-- The addresses are written one behind the other. -/
theorem storeAddrs_front (n i : Nat) {w buf : List UInt8}
    (hw : w.length = headerSize + i * addrSize) (hfit : w.length + n * 2 ≤ buf.length) :
    p.storeAddrs n i (w ++ buf.drop w.length) =
      some ((w ++ p.addrs i n) ++ buf.drop (w ++ p.addrs i n).length) := by
  induction n generalizing i w with
  | zero => simp [storeAddrs, addrs]
  | succ n ih =>
    have hnext : p.addrs i (n + 1) =
        storeBe16 (if p.type = .string then p.addr else p.itemAddr i) ++ p.addrs (i + 1) n := by
      rw [addrs, List.range'_succ, List.flatMap_cons, ← addrs]
    have htwo (v : UInt16) : (storeBe16 v).length = 2 := rfl
    rw [storeAddrs, hnext, ← List.append_assoc]
    refine Buffer.bind_store_front hw.symm (by rw [htwo]; omega) ?_
    refine ih (i + 1) ?_ ?_
    · rw [List.length_append, htwo, hw]
      simp only [addrSize]
      omega
    · rw [List.length_append, htwo]
      omega

/-- The query of a request. -/
def query (p : Params) (magic : UInt16) (count : Nat) : List UInt8 :=
  header actionGet p.table (count * addrSize) magic ++ p.addrs 0 count

theorem length_header (action table : UInt8) (payload : Nat) (magic : UInt16) :
    (header action table payload magic).length = headerSize := rfl

theorem length_query (p : Params) (magic : UInt16) (count : Nat) :
    (p.query magic count).length = headerSize + count * addrSize := by
  rw [query, List.length_append, length_header, length_addrs]
  rfl

/-- What is read of a reply, if it fits. -/
structure Read (p : Params) (status : Status) (p' : Params) : Prop where
  length : p'.param.length = 256
  text : status = success → p.type = .string → p'.len.toNat ≤ p.len.toNat
  array : status = success → p.type ≠ .string → p'.len.toNat * p.type.size ≤ 256

/-- An error leaves the request. -/
theorem Read.failed (p : Params) {status : Status} {param : List UInt8} (h : status ≠ success)
    (hparam : param.length = 256) : Read p status { p with param := param } :=
  ⟨hparam, fun hs => absurd hs h, fun hs => absurd hs h⟩

variable {reply : List UInt8}

theorem length_decode (type : ParamType) {b : List UInt8} (h : b.length = type.size) :
    (decode type b).length = type.size := by
  cases type <;> first | exact h | rfl

theorem readItems_inside (n i : Nat) {param : List UInt8}
    (hreply : headerSize + (i + n) * (addrSize + p.type.size) ≤ reply.length)
    (hparam : (i + n) * p.type.size ≤ param.length) :
    ∃ status param', p.readItems reply n i param = some (status, param') ∧
      param'.length = param.length := by
  induction n generalizing i param with
  | zero => exact ⟨success, param, rfl, rfl⟩
  | succ n ih =>
    have hitem : headerSize + i * (addrSize + p.type.size) + (addrSize + p.type.size) ≤
        reply.length := by
      refine le_trans ?_ hreply
      simp only [Nat.add_mul]
      omega
    have hplace : i * p.type.size + p.type.size ≤ param.length := by
      refine le_trans ?_ hparam
      simp only [Nat.add_mul]
      omega
    have htwo : addrSize = 2 := rfl
    rw [readItems]
    simp only [Option.bind_eq_bind]
    rw [Buffer.load_eq (by omega), Option.bind_some]
    split_ifs
    · exact ⟨_, _, rfl, rfl⟩
    · have hsource : (((reply.drop (headerSize + i * (addrSize + p.type.size) + addrSize))).take
          p.type.size).length = p.type.size := by
        rw [List.length_take, List.length_drop]
        omega
      rw [← length_decode p.type hsource] at hplace
      obtain ⟨param₁, hstore, hlen⟩ := Buffer.store_inside hplace
      rw [length_decode p.type hsource] at hstore
      rw [Buffer.load_eq (by omega), Option.bind_some, hstore, Option.bind_some]
      have hn : i + 1 + n = i + (n + 1) := by omega
      rw [← hn] at hreply hparam
      obtain ⟨status, param', hread, hkeep⟩ := ih (i + 1) hreply (by rwa [hlen])
      exact ⟨status, param', hread, hkeep.trans hlen⟩

theorem readText_inside {payload : Nat} (htype : p.type = .string) (hlen : p.len.toNat ≤ 178)
    (hparam : p.param.length = 256) (hreply : headerSize + payload ≤ reply.length)
    (hpayload : addrSize ≤ payload) :
    ∃ status p', p.readText reply payload = some (status, p') ∧ Read p status p' := by
  have htwo : addrSize = 2 := rfl
  rw [readText]
  split_ifs with hlong
  · exact ⟨_, _, rfl, Read.failed p (by decide) hparam⟩
  have hsize : payload - addrSize ≤ p.len.toNat := Nat.le_of_not_lt hlong
  have htext : ((reply.drop (headerSize + addrSize)).take (payload - addrSize)).length =
      payload - addrSize := by
    rw [List.length_take, List.length_drop]
    omega
  have hroom : 0 + ((reply.drop (headerSize + addrSize)).take (payload - addrSize)).length ≤
      p.param.length := by omega
  obtain ⟨param₁, hstore, hkeep₁⟩ := Buffer.store_inside hroom
  have hlast : payload - addrSize + [(0 : UInt8)].length ≤ param₁.length := by
    rw [List.length_singleton]
    omega
  obtain ⟨param₂, hend, hkeep₂⟩ := Buffer.store_inside hlast
  simp only [Option.bind_eq_bind]
  rw [Buffer.load_eq (by omega), Option.bind_some, hstore, Option.bind_some, Buffer.storeIf,
    if_pos (by omega), hend, Option.bind_some]
  refine ⟨_, _, rfl, hkeep₂.trans (hkeep₁.trans hparam), fun _ _ => ?_, fun _ h => absurd htype h⟩
  show (payload - addrSize).toUInt8.toNat ≤ _
  rw [UInt8.toNat_ofNat_of_lt' (by show _ < 256; omega)]
  exact hsize

theorem readArray_inside {payload : Nat} (hcount : count = p.len.toNat)
    (hfit : count * (addrSize + p.type.size) ≤ 180) (hparam : p.param.length = 256)
    (hreply : headerSize + payload ≤ reply.length) (htype : p.type ≠ .string) :
    ∃ status p', p.readArray reply count payload = some (status, p') ∧ Read p status p' := by
  have hlt : p.len.toNat < 256 := p.len.toNat_lt
  simp only [readArray]
  split_ifs with hrest hmany
  · exact ⟨_, _, rfl, Read.failed p (by decide) hparam⟩
  · exact ⟨_, _, rfl, Read.failed p (by decide) hparam⟩
  have hactual : payload / (addrSize + p.type.size) ≤ count := by omega
  have hdiv : payload / (addrSize + p.type.size) * (addrSize + p.type.size) ≤ payload :=
    Nat.div_mul_le_self _ _
  generalize payload / (addrSize + p.type.size) = actual at hactual hdiv
  have hroom : actual * p.type.size ≤ 256 := by
    have hle : actual * (addrSize + p.type.size) ≤ count * (addrSize + p.type.size) :=
      Nat.mul_le_mul_right _ hactual
    rw [Nat.mul_add] at hle
    omega
  have hread : headerSize + (0 + actual) * (addrSize + p.type.size) ≤ reply.length := by
    rw [Nat.zero_add]
    omega
  have hplace : (0 + actual) * p.type.size ≤ p.param.length := by
    rw [Nat.zero_add, hparam]
    exact hroom
  obtain ⟨status, param, hitems, hkeep⟩ := readItems_inside actual 0 hread hplace
  rw [hitems]
  simp only [Option.bind_eq_bind, Option.bind_some]
  split_ifs with hstatus
  · refine ⟨_, _, rfl, hkeep.trans hparam, fun _ h => absurd h htype, fun _ _ => ?_⟩
    show actual.toUInt8.toNat * _ ≤ _
    rw [UInt8.toNat_ofNat_of_lt' (by show _ < 256; omega)]
    exact hroom
  · exact ⟨_, _, rfl, Read.failed p hstatus (hkeep.trans hparam)⟩

/-- A reply that fits its buffer is read inside it. -/
theorem readReply_inside {replyLen : Nat} (h : p.requestCount = some count)
    (hparam : p.param.length = 256) (hreply : reply.length = headerSize + maxReplyPayload)
    (hfit : replyLen ≤ reply.length) :
    ∃ status p', p.readReply count replyLen reply = some (status, p') ∧ Read p status p' := by
  obtain ⟨-, -, -, htext, harray⟩ := requestCount_some h
  have hten : headerSize = 10 := rfl
  have htwo : addrSize = 2 := rfl
  have hmax : maxReplyPayload = 180 := rfl
  have hfailed {status : Status} (hs : status ≠ success) : Read p status p :=
    Read.failed p hs hparam
  rw [readReply]
  by_cases hnone : replyLen = 0
  · rw [if_pos hnone]
    exact ⟨_, _, rfl, hfailed (by decide)⟩
  by_cases hshort : replyLen < headerSize
  · rw [if_neg hnone, if_pos hshort]
    exact ⟨_, _, rfl, hfailed (by decide)⟩
  rw [if_neg hnone, if_neg hshort]
  simp only [Option.bind_eq_bind]
  have hzero : 0 < reply.length := by omega
  have hone : 1 < reply.length := by omega
  rw [List.getElem?_eq_getElem hzero, List.getElem?_eq_getElem hone,
    Buffer.load_eq (by omega), Buffer.load_eq (by omega)]
  simp only [Option.bind_some]
  generalize (loadBe16 ((reply.drop 2).take 2)).toNat = payload
  by_cases hhead : reply[0] ≠ actionReply ∨ reply[1] ≠ p.table
  · rw [if_pos hhead]
    exact ⟨_, _, rfl, hfailed (by decide)⟩
  rw [if_neg hhead]
  split_ifs with hpayload hsmall haddr hstring
  · exact ⟨_, _, rfl, hfailed (by decide)⟩
  · exact ⟨_, _, rfl, hfailed (by decide)⟩
  · exact ⟨_, _, rfl, hfailed (by decide)⟩
  · exact readText_inside hstring (htext hstring).2 hparam (by omega) (by omega)
  · exact readArray_inside (harray hstring).1 (harray hstring).2 hparam (by omega) hstring

end Params

/-! ## Requests -/

section Fetch

variable {σ : Type} (bus : Bus σ) (s : σ)

/-- What a request that passes its checks does. -/
theorem fetchParam_eq {p : Params} {count : Nat} (h : p.requestCount = some count) :
    fetchParam bus s p =
      (transaction bus s p.node (p.query bus.magic count)
        (List.replicate (headerSize + maxReplyPayload) 0)).bind fun r =>
          (p.readReply count r.1 r.2.1).bind fun q => some (q.1, q.2, r.2.2) := by
  obtain ⟨-, -, -, htext, harray⟩ := Params.requestCount_some h
  have hten : headerSize = 10 := rfl
  have htwo : addrSize = 2 := rfl
  have hmax : maxReplyPayload = 180 := rfl
  have hfit : count * 2 ≤ 180 := by
    by_cases hstring : p.type = .string
    · rw [(htext hstring).1]
      decide
    · have hle := (harray hstring).2
      rw [Nat.mul_add, htwo] at hle
      omega
  have hhead := Params.length_header actionGet p.table (count * addrSize) bus.magic
  have hall := Params.length_query p bus.magic count
  rw [fetchParam]
  simp only [h, Option.bind_eq_bind]
  rw [Buffer.store_zero (by rw [hhead, List.length_replicate]; omega), Option.bind_some,
    Params.storeAddrs_front count 0 (by rw [hhead, Nat.zero_mul, Nat.add_zero])
      (by rw [hhead, List.length_replicate]; omega),
    Option.bind_some, ← Params.query, ← hall, Buffer.load_front, Option.bind_some]

/-- Whatever comes back fits the buffer for it. -/
def Fits (p : Params) : Prop :=
  ∀ count, p.requestCount = some count →
    ∀ bytes, (bus.transact s p.node (p.query bus.magic count)).1 = some bytes →
      bytes.length ≤ headerSize + maxReplyPayload

variable {bus s}

theorem transaction_fits {node : UInt8} {query reply : List UInt8}
    (h : ∀ bytes, (bus.transact s node query).1 = some bytes → bytes.length ≤ reply.length) :
    ∃ replyLen reply', transaction bus s node query reply =
        some (replyLen, reply', (bus.transact s node query).2) ∧
      reply'.length = reply.length ∧ replyLen ≤ reply.length := by
  rw [transaction]
  generalize bus.transact s node query = answer at h ⊢
  obtain ⟨bytes | bytes, s'⟩ := answer
  · exact ⟨0, reply, rfl, rfl, Nat.zero_le _⟩
  · have hfit : 0 + bytes.length ≤ reply.length := by
      rw [Nat.zero_add]
      exact h bytes rfl
    obtain ⟨reply', hstore, hkeep⟩ := Buffer.store_inside hfit
    refine ⟨bytes.length, reply', ?_, hkeep, h bytes rfl⟩
    simp [hstore]

theorem transaction_overflows {node : UInt8} {query reply bytes : List UInt8}
    (h : (bus.transact s node query).1 = some bytes) (hlong : reply.length < bytes.length) :
    transaction bus s node query reply = none := by
  rw [transaction]
  generalize bus.transact s node query = answer at h
  obtain ⟨answer, s'⟩ := answer
  have hanswer : answer = some bytes := h
  subst hanswer
  simp [Buffer.store, hlong]

/-- A request whose reply fits comes to an end, inside its buffers. -/
theorem fetchParam_fits {p : Params} (hparam : p.param.length = 256) (h : Fits bus s p) :
    ∃ status p' s', fetchParam bus s p = some (status, p', s') ∧ p.Read status p' := by
  cases hcount : p.requestCount with
  | none =>
    refine ⟨errorArg, p, s, ?_, Params.Read.failed p (by decide) hparam⟩
    simp [fetchParam, hcount]
  | some count =>
    have hreply : (List.replicate (headerSize + maxReplyPayload) (0 : UInt8)).length =
        headerSize + maxReplyPayload := List.length_replicate
    have hfit := h count hcount
    rw [← hreply] at hfit
    obtain ⟨replyLen, reply, htransact, hlen, hle⟩ := transaction_fits hfit
    obtain ⟨status, p', hread, hinside⟩ :=
      Params.readReply_inside hcount hparam (hlen.trans hreply) (hle.trans (Nat.le_of_eq hlen.symm))
    have hfetch := fetchParam_eq bus s hcount
    rw [htransact, Option.bind_some, hread, Option.bind_some] at hfetch
    exact ⟨_, _, _, hfetch, hinside⟩

/-- One that does not fit is copied over the end of its buffer. -/
theorem fetchParam_overflows {p : Params} (h : ¬Fits bus s p) : fetchParam bus s p = none := by
  rw [Fits] at h
  push Not at h
  obtain ⟨count, hcount, bytes, hbytes, hlong⟩ := h
  rw [fetchParam_eq bus s hcount, transaction_overflows hbytes (by rwa [List.length_replicate]),
    Option.bind_none]

/-- What the caller's memory is left with: all that was requested, or what was there. -/
def Atomic (type : ParamType) (len : UInt8) (out : List UInt8)
    (result : Option (Status × List UInt8 × σ)) : Prop :=
  ∃ status out' s', result = some (status, out', s') ∧
    (status = success → ∃ bytes, out' = bytes ++ out.drop bytes.length ∧
      (type = .string → bytes.length ≤ len.toNat) ∧
      (type ≠ .string → bytes.length = type.size * len.toNat)) ∧
    (status ≠ success → out' = out)

/-- The request of `PAY_SLT_FetchParam_Simple`. -/
def request (type : ParamType) (node table : UInt8) (addr : UInt16) (len : UInt8) : Params :=
  ⟨node, table, addr, type, len, List.replicate 256 0⟩

variable {type : ParamType} {node table : UInt8} {addr : UInt16} {len : UInt8} {out : List UInt8}

/-- A value that has been read is copied as a whole. -/
theorem copied {p : Params} (hparam : p.param.length = 256) (hsize : type.size * p.len.toNat ≤ 256)
    (hout : type.size * p.len.toNat ≤ out.length) :
    ∃ bytes, Buffer.load p.param 0 (type.size * p.len.toNat) = some bytes ∧
      bytes.length = type.size * p.len.toNat ∧
      Buffer.store out 0 bytes = some (bytes ++ out.drop bytes.length) := by
  have hlen : ((p.param.drop 0).take (type.size * p.len.toNat)).length =
      type.size * p.len.toNat := by
    rw [List.drop_zero, List.length_take, hparam]
    omega
  refine ⟨_, Buffer.load_eq (by omega), hlen, Buffer.store_zero ?_⟩
  rw [hlen]
  exact hout

/-- The caller gets all or nothing of whatever reply fits. -/
theorem fetchParamSimple_fits (hout : type.size * len.toNat ≤ out.length)
    (h : Fits bus s (request type node table addr len)) :
    Atomic type len out (fetchParamSimple bus s type node table addr len out) := by
  obtain ⟨status, p, s', hfetch, hread⟩ := fetchParam_fits List.length_replicate h
  have hsimple : fetchParam bus s ⟨node, table, addr, type, len, List.replicate 256 0⟩ =
      some (status, p, s') := hfetch
  rw [fetchParamSimple]
  simp only [hsimple, Option.bind_eq_bind, Option.bind_some]
  by_cases hstatus : status = success
  · by_cases hshort : type ≠ .string ∧ p.len ≠ len
    · rw [if_pos ⟨hstatus, hshort⟩]
      exact ⟨_, _, _, rfl, fun he => absurd he (by decide), fun _ => rfl⟩
    · have hsize : type.size * p.len.toNat ≤ 256 ∧ p.len.toNat ≤ len.toNat ∧
          (type ≠ .string → p.len = len) := by
        by_cases hstring : type = .string
        · have hle := hread.text hstatus hstring
          have hlt : p.len.toNat < 256 := p.len.toNat_lt
          refine ⟨?_, hle, fun hne => absurd hstring hne⟩
          rw [hstring]
          simp only [ParamType.size]
          omega
        · have heq : p.len = len := by
            by_contra hne
            exact hshort ⟨hstring, hne⟩
          refine ⟨?_, by rw [heq], fun _ => heq⟩
          rw [Nat.mul_comm]
          exact hread.array hstatus hstring
      obtain ⟨hsize, hle, heq⟩ := hsize
      obtain ⟨bytes, hload, hlen, hstore⟩ :=
        copied hread.length hsize ((Nat.mul_le_mul_left _ hle).trans hout)
      rw [if_neg fun hs => hshort hs.2, if_pos hstatus, hload, Option.bind_some, hstore,
        Option.bind_some]
      refine ⟨_, _, _, rfl, fun _ => ⟨bytes, rfl, fun hstring => ?_, fun hstring => ?_⟩,
        fun hne => absurd hstatus hne⟩
      · rw [hlen, hstring]
        simp only [ParamType.size]
        omega
      · rw [hlen, heq hstring]
  · rw [if_neg fun hs => hstatus hs.1, if_neg hstatus]
    exact ⟨_, _, _, rfl, fun hs => absurd hs hstatus, fun _ => rfl⟩

/-- **All or nothing, exactly when the reply fits.** -/
theorem fetchParamSimple_atomic_iff (hout : type.size * len.toNat ≤ out.length) :
    Atomic type len out (fetchParamSimple bus s type node table addr len out) ↔
      Fits bus s (request type node table addr len) := by
  refine ⟨fun h => ?_, fetchParamSimple_fits hout⟩
  by_contra hlong
  obtain ⟨status, out', s', hsimple, -⟩ := h
  have hnone : fetchParam bus s ⟨node, table, addr, type, len, List.replicate 256 0⟩ = none :=
    fetchParam_overflows hlong
  rw [fetchParamSimple] at hsimple
  simp only [hnone, Option.bind_eq_bind, Option.bind_none, reduceCtorEq] at hsimple

end Fetch

end Rparam
end Pay
end FlightApps
