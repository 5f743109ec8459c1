import FlightApps.Adcs.Replies

/-!
# What the frames leave ambiguous

Bytes of several frames meet in one call of `ADCS_UartReadFrame`, which starts neither its data nor its
`nack` again at the start of a message.  What it returns is the data of a positive reply exactly if the
last message of the stream is one and nothing before it has left data behind (`Neat`).
-/

set_option autoImplicit false

namespace FlightApps
namespace Adcs
namespace Uart

/-- The stream has a positive reply with this data, up to the first end of a frame. -/
def Whole (passthrough : Bool) (id : UInt8) (data : List UInt8) (bytes : List UInt8) : Prop :=
  ∃ u rest, split bytes = (u ++ replyTokens passthrough id data, some rest)

/-- The last start of a message is positive and followed at once by an identifier, then by data alone,
and no data is left from before it. -/
def Neat (ts : List Token) : Prop :=
  ∀ u t v, ts = u ++ t :: v → t.isSom = true → (∀ x ∈ v, x.isSom = false) →
    t.isNack = false ∧ (Reader.start.tokens u).kept = [] ∧
      ∃ b w, v = .plain b :: w ∧ ∀ x ∈ w, x.isData = true

/-! ## The last start of a message -/

theorem last_start {ts : List Token} (h : ∃ t ∈ ts, t.isSom = true) :
    ∃ u t v, ts = u ++ t :: v ∧ t.isSom = true ∧ ∀ x ∈ v, x.isSom = false := by
  induction ts with
  | nil =>
    obtain ⟨t, ht, -⟩ := h
    simp at ht
  | cons x ts ih =>
    by_cases hlater : ∃ t ∈ ts, t.isSom = true
    · obtain ⟨u, t, v, rfl, ht, hv⟩ := ih hlater
      exact ⟨x :: u, t, v, rfl, ht, hv⟩
    · have hnone : ∀ t ∈ ts, t.isSom = false := fun t ht =>
        Bool.eq_false_iff.2 fun hsom => hlater ⟨t, ht, hsom⟩
      obtain ⟨t, ht, hsom⟩ := h
      obtain rfl | ht := List.mem_cons.1 ht
      · exact ⟨[], t, ts, rfl, hsom, hnone⟩
      · exact absurd ⟨t, ht, hsom⟩ hlater

theorem last_start_unique {u u' v v' : List Token} {t t' : Token}
    (h : u ++ t :: v = u' ++ t' :: v') (ht : t.isSom = true) (ht' : t'.isSom = true)
    (hv : ∀ x ∈ v, x.isSom = false) (hv' : ∀ x ∈ v', x.isSom = false) :
    u = u' ∧ t = t' ∧ v = v' := by
  obtain ⟨w, rfl, hw⟩ | ⟨w, rfl, hw⟩ := List.append_eq_append_iff.1 h
  · cases w with
    | nil =>
      rw [List.nil_append, List.cons.injEq] at hw
      exact ⟨(List.append_nil u).symm, hw.1, hw.2⟩
    | cons x w =>
      rw [List.cons_append, List.cons.injEq] at hw
      have hmem : t' ∈ v := hw.2 ▸ List.mem_append_right w List.mem_cons_self
      exact absurd (hv t' hmem) (by simp [ht'])
  · cases w with
    | nil =>
      rw [List.nil_append, List.cons.injEq] at hw
      exact ⟨List.append_nil u', hw.1.symm, hw.2.symm⟩
    | cons x w =>
      rw [List.cons_append, List.cons.injEq] at hw
      have hmem : t ∈ v' := hw.2 ▸ List.mem_append_right w List.mem_cons_self
      exact absurd (hv' t hmem) (by simp [ht])

/-- Nothing is read before a start. -/
theorem som_of_valid {ts : List Token} (h : (Reader.start.tokens ts).valid = true) :
    ∃ t ∈ ts, t.isSom = true := by
  by_contra hnone
  have hall : ∀ t ∈ ts, t.isSom = false := fun t ht =>
    Bool.eq_false_iff.2 fun hsom => hnone ⟨t, ht, hsom⟩
  have hclosed : ∀ ts : List Token, (∀ t ∈ ts, t.isSom = false) →
      Reader.start.tokens ts = Reader.start := by
    intro ts
    induction ts with
    | nil => exact fun _ => by simp
    | cons t ts ih =>
      intro hall
      have htoken : Reader.start.token t = Reader.start := by
        have ht := hall t List.mem_cons_self
        cases t with
        | plain b => simp [Reader.token, Reader.start]
        | pair b =>
          simp only [Token.isSom, Bool.or_eq_false_iff, beq_eq_false_iff_ne] at ht
          simp [Reader.token, Reader.start, ht]
      rw [Reader.tokens_cons, htoken]
      exact ih fun t ht => hall t (List.mem_cons_of_mem _ ht)
  rw [hclosed ts hall] at h
  exact absurd h (by decide)

theorem isSom_dataToken (b : UInt8) : (dataToken b).isSom = false := by
  rw [dataToken]
  split_ifs with hb
  · subst hb
    decide
  · simp [Token.isSom]

/-- Data that comes as single bytes and doubled escapes is the data of a frame. -/
theorem data_of_isData {w : List Token} (hdata : ∀ x ∈ w, x.isData = true)
    (hplain : ∀ b, Token.plain b ∈ w → b ≠ escape) : (w.map Token.byte).map dataToken = w := by
  rw [List.map_map]
  refine (List.map_congr_left fun x hx => ?_).trans (List.map_id w)
  cases x with
  | plain b => simp [Token.byte, dataToken, hplain b hx]
  | pair b =>
    have hb : b = escape := by simpa [Token.isData] using hdata _ hx
    simp [Token.byte, dataToken, hb]

theorem start_positive {t : Token} (hsom : t.isSom = true) (hnack : t.isNack = false) :
    ∃ passthrough, t = .pair (somAck passthrough) := by
  cases t with
  | plain b => exact absurd hsom (by simp [Token.isSom])
  | pair b =>
    simp only [Token.isNack, Bool.or_eq_false_iff, beq_eq_false_iff_ne] at hnack
    have hack : b = somAck false ∨ b = somAck true := by
      simpa [Token.isSom, hnack] using hsom
    exact hack.elim (fun h => ⟨false, h ▸ rfl⟩) fun h => ⟨true, h ▸ rfl⟩

/-! ## Whole replies -/

section Whole

variable {passthrough : Bool} {id : UInt8} {bytes : List UInt8} {dataLen : Nat}

theorem Whole.kept {data : List UInt8} {u : List Token} {rest : List UInt8}
    (h : split bytes = (u ++ replyTokens passthrough id data, some rest)) :
    (reader bytes).kept = (Reader.start.tokens u).kept ++ data := by
  rw [reader, h, Reader.tokens_append, Reader.tokens_reply]

/-- The bytes of the reply are in the stream. -/
theorem Whole.contained {data : List UInt8} (h : Whole passthrough id data bytes) :
    ∃ before rest, bytes = before ++ reply passthrough id data ++ rest := by
  obtain ⟨u, rest, hsplit⟩ := h
  have hbytes := bytes_split (congrArg Prod.snd hsplit)
  have hdata : (data.map dataToken).flatMap Token.bytes = data.flatMap escaped := by
    rw [List.flatMap_map]
    exact congrArg (List.flatMap · data) (funext bytes_dataToken)
  refine ⟨u.flatMap Token.bytes, rest, ?_⟩
  rw [hbytes, hsplit, List.flatMap_append, replyTokens, List.flatMap_cons, List.flatMap_cons, hdata]
  simp [reply, Token.bytes]

/-- A stream whose data is that of the reply in it is neat. -/
theorem Whole.neat (h : Whole passthrough id (reader bytes).kept bytes) : Neat (split bytes).1 := by
  obtain ⟨u, rest, hsplit⟩ := h
  have hclean : (Reader.start.tokens u).kept = [] := by
    have hkept := Whole.kept hsplit
    exact List.self_eq_append_left.1 hkept
  intro u' t v hts ht hv
  have hstart : (Token.pair (somAck passthrough)).isSom = true := by
    cases passthrough <;> decide
  have hdata : ∀ x ∈ Token.plain id :: (reader bytes).kept.map dataToken, x.isSom = false := by
    intro x hx
    obtain rfl | hx := List.mem_cons.1 hx
    · simp [Token.isSom]
    · obtain ⟨b, -, rfl⟩ := List.mem_map.1 hx
      exact isSom_dataToken b
  rw [hsplit, replyTokens] at hts
  obtain ⟨rfl, rfl, rfl⟩ := last_start_unique hts hstart ht hdata hv
  refine ⟨by cases passthrough <;> decide, hclean, id, _, rfl, fun x hx => ?_⟩
  obtain ⟨b, -, rfl⟩ := List.mem_map.1 hx
  by_cases hb : b = escape
  · simp [dataToken, Token.isData, hb]
  · simp [dataToken, Token.isData, hb]

/-- A neat stream that is accepted ends with a reply. -/
theorem Accepted.whole (h : Accepted passthrough id dataLen bytes) (hneat : Neat (split bytes).1) :
    Whole passthrough id (reader bytes).kept bytes := by
  obtain ⟨rest, hend⟩ := Option.isSome_iff_exists.1 h.ends
  obtain ⟨hvalid, hpass, hid⟩ := Reader.check_ok h.checked
  obtain ⟨u, t, v, hts, ht, hv⟩ := last_start (som_of_valid hvalid)
  obtain ⟨hnack, hclean, b, w, rfl, hdata⟩ := hneat u t v hts ht hv
  obtain ⟨p, rfl⟩ := start_positive ht hnack
  have hplain : ∀ c, Token.plain c ∈ w → c ≠ escape := fun c hc =>
    plain_split (by rw [hts]; exact List.mem_append_right u (by simp [hc]))
  have htokens : (split bytes).1 = u ++ replyTokens p b (w.map Token.byte) := by
    rw [hts, replyTokens, data_of_isData hdata hplain]
  have hreader : reader bytes =
      { Reader.start.tokens u with
        som := false, valid := true, passthrough := p, id := b, kept := w.map Token.byte } := by
    rw [reader, htokens, Reader.tokens_append, Reader.tokens_reply, hclean, List.nil_append]
  rw [hreader] at hpass hid ⊢
  obtain rfl : p = passthrough := hpass
  obtain rfl : b = id := hid
  exact ⟨u, rest, Prod.ext htokens hend⟩

end Whole

section Claims

variable {passthrough : Bool} {id : UInt8} {buf : List UInt8} {dataLen : Nat}

/-- A positive reply alone is read unless its identifier is an escape. -/
theorem readFrame_reply_iff (timeout : Bool) (hlen : dataLen ≤ buf.length) {data : List UInt8}
    (hdata : data.length ≤ dataLen) (rest : List UInt8) :
    readFrame passthrough id buf dataLen timeout (reply passthrough id data ++ rest) =
      ⟨.ok, data.length, data ++ buf.drop data.length, rest⟩ ↔ id ≠ escape := by
  refine ⟨fun h => ?_, fun hid => ?_⟩
  · have haccepted := accepted_of_ok hlen (congrArg Received.code h)
    have hread := reader_id (reply passthrough id data ++ rest)
    rwa [(Reader.check_ok haccepted.checked).2.2] at hread
  · exact readFrame_behind timeout hlen (u := []) (split_reply passthrough hid data rest) hdata

/-- A positive reply behind other tokens is read as if it were alone exactly if these have left no data,
and a negative start among them is taken back by a zero. -/
theorem readFrame_behind_iff (timeout : Bool) (hlen : dataLen ≤ buf.length) {data : List UInt8}
    (hdata : data.length ≤ dataLen) {u : List Token} {rest bytes : List UInt8}
    (hsplit : split bytes = (u ++ replyTokens passthrough id data, some rest)) :
    readFrame passthrough id buf dataLen timeout bytes =
      ⟨.ok, data.length, data ++ buf.drop data.length, rest⟩ ↔
    (Reader.start.tokens u).kept = [] ∧
      (u.any Token.isNack = true → data.head? = some 0) := by
  refine ⟨fun h => ?_, fun ⟨hclean, hnack⟩ => ?_⟩
  · have haccepted := accepted_of_ok hlen (congrArg Received.code h)
    have hclean : (Reader.start.tokens u).kept = [] := by
      have hlength := (haccepted.read timeout hlen).2.1
      rw [h, Whole.kept hsplit, List.length_append] at hlength
      exact List.eq_nil_of_length_eq_zero (by simpa using hlength.symm)
    refine ⟨hclean, fun hnack => ?_⟩
    have hcode := congrArg Received.code h
    rw [readFrame_behind timeout hlen hsplit (by simpa [hclean] using hdata)] at hcode
    simp only [hnack, if_true, hclean, List.nil_append] at hcode
    cases data with
    | nil => exact absurd hcode (by decide)
    | cons code data => exact congrArg some ((nack2ErrorCode_spec code).1.1 hcode)
  · rw [readFrame_behind timeout hlen hsplit (by simpa [hclean] using hdata), hclean,
      List.nil_append]
    by_cases hany : u.any Token.isNack = true
    · cases data with
      | nil => exact absurd (hnack hany) (by simp)
      | cons code data =>
        have hzero : code = 0 := by simpa using hnack hany
        simp [hany, (nack2ErrorCode_spec code).1.2 hzero]
    · simp [hany]

/-- What is returned without an error is the data of a reply in the stream exactly if the stream is neat,
or refused. -/
theorem readFrame_whole_iff (timeout : Bool) (hlen : dataLen ≤ buf.length) (bytes : List UInt8) :
    ((readFrame passthrough id buf dataLen timeout bytes).code = .ok →
      ∃ data, Whole passthrough id data bytes ∧
        (readFrame passthrough id buf dataLen timeout bytes).dataLen = data.length ∧
        (readFrame passthrough id buf dataLen timeout bytes).data.take data.length = data) ↔
    (Accepted passthrough id dataLen bytes → Neat (split bytes).1) := by
  refine ⟨fun h haccepted => ?_, fun h hok => ?_⟩
  · obtain ⟨hcode, hlength, hread⟩ := haccepted.read timeout hlen
    obtain ⟨data, hwhole, hsize, htake⟩ := h hcode
    have hdata : (reader bytes).kept = data := by
      rw [hread, ← hsize, hlength, List.take_left'] at htake
      · exact htake
      · rfl
    exact Whole.neat (hdata ▸ hwhole)
  · have haccepted := accepted_of_ok hlen hok
    obtain ⟨-, hlength, hread⟩ := haccepted.read timeout hlen
    refine ⟨_, haccepted.whole (h haccepted), hlength, ?_⟩
    rw [hread]
    exact List.take_left

/-- **What the frames leave ambiguous.**  A reply alone is read unless its identifier is the escape;
nothing is written behind the buffer; what is returned is the data of a reply exactly if the stream is
neat or refused; and a reply behind other bytes is read as if these were not there exactly if they have
left no data, and a negative start among them meets a reply whose first byte is zero. -/
theorem framing_iff (passthrough : Bool) (id : UInt8) (buf : List UInt8) (dataLen : Nat)
    (timeout : Bool) (hlen : dataLen ≤ buf.length) :
    (∀ data rest : List UInt8, data.length ≤ dataLen →
      (readFrame passthrough id buf dataLen timeout (reply passthrough id data ++ rest) =
        ⟨.ok, data.length, data ++ buf.drop data.length, rest⟩ ↔ id ≠ escape)) ∧
    (∀ bytes : List UInt8,
      (readFrame passthrough id buf dataLen timeout bytes).data.drop dataLen = buf.drop dataLen) ∧
    (∀ bytes : List UInt8,
      ((readFrame passthrough id buf dataLen timeout bytes).code = .ok →
        ∃ data, Whole passthrough id data bytes ∧
          (readFrame passthrough id buf dataLen timeout bytes).dataLen = data.length ∧
          (readFrame passthrough id buf dataLen timeout bytes).data.take data.length = data) ↔
      (Accepted passthrough id dataLen bytes → Neat (split bytes).1)) ∧
    ∀ (bytes data rest : List UInt8) (u : List Token), data.length ≤ dataLen →
      split bytes = (u ++ replyTokens passthrough id data, some rest) →
      (readFrame passthrough id buf dataLen timeout bytes =
        ⟨.ok, data.length, data ++ buf.drop data.length, rest⟩ ↔
      (Reader.start.tokens u).kept = [] ∧
        (u.any Token.isNack = true → data.head? = some 0)) :=
  ⟨fun _ rest hdata => readFrame_reply_iff timeout hlen hdata rest, fun _ => readFrame_frame.2,
    readFrame_whole_iff timeout hlen, fun _ _ _ _ hdata hsplit =>
      readFrame_behind_iff timeout hlen hdata hsplit⟩

end Claims

/-- Data is read into the buffer that `cubeObc_sendReceive` gives. -/
theorem framing_commsBuffer :
    commsBufferSize ≤ (List.replicate commsBufferSize (0 : UInt8)).length ∧
    (readFrame false 130 (List.replicate commsBufferSize 0) commsBufferSize true
      (reply false 130 [1, 0x1F] ++ [])).code = .ok := by
  have hsize : commsBufferSize ≤ (List.replicate commsBufferSize (0 : UInt8)).length :=
    Nat.le_of_eq List.length_replicate.symm
  have hread := ((framing_iff false 130 (List.replicate commsBufferSize 0) commsBufferSize true
    hsize).1 [1, 0x1F] [] (by decide)).2 (by decide)
  exact ⟨hsize, by rw [hread]⟩

/-- A frame that breaks off after its first byte of data, and the next one. -/
def brokenThenWhole : List UInt8 :=
  [escape, somAck false, 130, 1] ++ reply false 130 [2]

/-- The data of a broken frame is joined to that of the next one. -/
theorem frames_joined :
    readFrame false 130 (List.replicate 4 0) 4 true brokenThenWhole = ⟨.ok, 2, [1, 2, 0, 0], []⟩ ∧
    ¬Whole false 130 [1, 2] brokenThenWhole := by
  refine ⟨by decide, ?_⟩
  rintro ⟨u, rest, hsplit⟩
  have hlast := congrArg (fun read => read.1.reverse.take 3) hsplit
  simp only [replyTokens, List.reverse_append, List.map_cons, List.map_nil, List.reverse_cons,
    List.reverse_nil, List.nil_append, List.cons_append, List.take_succ_cons,
    List.take_zero] at hlast
  exact absurd hlast (by decide)

end Uart
end Adcs
end FlightApps
