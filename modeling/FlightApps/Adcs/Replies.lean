import FlightApps.Adcs.Framing

/-!
# How replies are read

A stream is accepted if its first frame ends, fits and passes the last checks (`Accepted`).  A positive
reply becomes the tokens of its data (`split_reply`) and adds these to what has been kept before it
(`Reader.tokens_reply`), where a negative start is not forgotten (`Reader.nack_tokens`).  An escape is
never read as an identifier (`reader_id`).
-/

set_option autoImplicit false

namespace FlightApps
namespace Adcs
namespace Uart

/-- The frame of a positive reply. -/
def reply (passthrough : Bool) (id : UInt8) (data : List UInt8) : List UInt8 :=
  [escape, somAck passthrough, id] ++ data.flatMap escaped ++ [escape, eom]

/-- The token for a byte of the data. -/
def dataToken (b : UInt8) : Token := if b = escape then .pair b else .plain b

/-- The tokens of a positive reply, up to its end. -/
def replyTokens (passthrough : Bool) (id : UInt8) (data : List UInt8) : List Token :=
  .pair (somAck passthrough) :: .plain id :: data.map dataToken

namespace Token

/-- The starts of a message. -/
def isSom : Token → Bool
  | .plain _ => false
  | .pair b => b == somAck false || b == somAck true || b == somNack false || b == somNack true

/-- The negative ones. -/
def isNack : Token → Bool
  | .plain _ => false
  | .pair b => b == somNack false || b == somNack true

/-- The data: single bytes, and doubled escapes. -/
def isData : Token → Bool
  | .plain _ => true
  | .pair b => b == escape

def byte : Token → UInt8
  | .plain b => b
  | .pair b => b

def bytes : Token → List UInt8
  | .plain b => [b]
  | .pair b => [escape, b]

end Token

/-! ## What a reader says in the end -/

namespace Reader

/-- What the end of a frame is reported as. -/
def check (r : Reader) (passthrough : Bool) (id : UInt8) : ErrorCode :=
  if r.valid = false ∨ r.passthrough ≠ passthrough then .protocol
  else if r.id ≠ id then .tctlmId
  else if r.nack then
    match r.kept with
    | [] => .protocol
    | code :: _ => nack2ErrorCode code
  else .ok

theorem check_rxDone (r : Reader) (buf : List UInt8) (passthrough : Bool) (id : UInt8) :
    (r.rxDone buf).check passthrough id = r.check passthrough id := by
  have hrx : (r.rxDone buf).check passthrough id =
      if r.valid = false ∨ r.passthrough ≠ passthrough then .protocol
      else if r.id ≠ id then .tctlmId
      else if r.nack then
        if r.kept.length = 0 then .protocol
        else nack2ErrorCode ((r.kept ++ buf.drop r.kept.length).getD 0 0)
      else .ok := rfl
  rw [hrx, check]
  cases r.kept with
  | nil => simp
  | cons code kept => simp

/-- A frame that is accepted. -/
theorem check_ok {r : Reader} {passthrough : Bool} {id : UInt8} (h : r.check passthrough id = .ok) :
    r.valid = true ∧ r.passthrough = passthrough ∧ r.id = id := by
  by_cases hopen : r.valid = false ∨ r.passthrough ≠ passthrough
  · rw [check, if_pos hopen] at h
    exact absurd h (by decide)
  by_cases hid : r.id = id
  · simp only [not_or, Bool.not_eq_false, not_not] at hopen
    exact ⟨hopen.1, hopen.2, hid⟩
  · rw [check, if_neg hopen, if_pos hid] at h
    exact absurd h (by decide)

end Reader

/-- The reader at the end of the first frame of a stream. -/
def reader (bytes : List UInt8) : Reader := Reader.start.tokens (split bytes).1

section Read

variable {passthrough : Bool} {id : UInt8} {buf : List UInt8} {dataLen : Nat} {timeout : Bool}
  {bytes : List UInt8}

theorem start_rx (buf : List UInt8) : Reader.start.rx buf = .start buf := rfl

/-- A byte changes neither the length of the buffer nor what lies behind the given length. -/
theorem byte_frame {rx rx' : Rx} {b : UInt8} (h : rx.byte dataLen b = some rx') :
    rx'.data.length = rx.data.length ∧ rx'.data.drop dataLen = rx.data.drop dataLen := by
  have hkeep : ∀ rx : Rx, rx.keep dataLen b = some rx' →
      rx'.data.length = rx.data.length ∧ rx'.data.drop dataLen = rx.data.drop dataLen := by
    intro rx h
    rw [Rx.keep] at h
    split_ifs at h with hroom
    cases h
    exact ⟨List.length_set, List.drop_set_of_lt (Nat.not_le.1 hroom)⟩
  rw [Rx.byte] at h
  split_ifs at h
  all_goals first
    | (cases h; exact ⟨rfl, rfl⟩)
    | (have hkept := hkeep _ h; exact hkept)

/-- A frame that ends and fits. -/
theorem readFrame_fits {rest : List UInt8} (hlen : dataLen ≤ buf.length)
    (hend : (split bytes).2 = some rest) (hfit : (reader bytes).kept.length ≤ dataLen) :
    readFrame passthrough id buf dataLen timeout bytes =
      ⟨(reader bytes).check passthrough id, (reader bytes).kept.length,
        (reader bytes).kept ++ buf.drop (reader bytes).kept.length, rest⟩ := by
  have hloop := (readLoop_split timeout bytes hlen (Nat.zero_le _) hfit).1 rest hend
  rw [start_rx] at hloop
  rw [readFrame, hloop]
  simp only [← Reader.check_rxDone (reader bytes) buf passthrough id]
  rfl

/-- A stream that is accepted for an identifier. -/
structure Accepted (passthrough : Bool) (id : UInt8) (dataLen : Nat) (bytes : List UInt8) : Prop where
  ends : (split bytes).2.isSome
  fits : (reader bytes).kept.length ≤ dataLen
  checked : (reader bytes).check passthrough id = .ok

/-- What an accepted stream is read as. -/
theorem Accepted.read (h : Accepted passthrough id dataLen bytes) (timeout : Bool)
    (hlen : dataLen ≤ buf.length) :
    (readFrame passthrough id buf dataLen timeout bytes).code = .ok ∧
    (readFrame passthrough id buf dataLen timeout bytes).dataLen = (reader bytes).kept.length ∧
    (readFrame passthrough id buf dataLen timeout bytes).data =
      (reader bytes).kept ++ buf.drop (reader bytes).kept.length := by
  obtain ⟨rest, hend⟩ := Option.isSome_iff_exists.1 h.ends
  rw [readFrame_fits hlen hend h.fits]
  exact ⟨h.checked, rfl, rfl⟩

/-- What the loop ends with is what is returned. -/
theorem readFrame_error {code : ErrorCode}
    (h : (readLoop dataLen timeout bytes (.start buf)).1 = .error code) :
    (readFrame passthrough id buf dataLen timeout bytes).code = code := by
  rw [readFrame]
  generalize readLoop dataLen timeout bytes (.start buf) = ended at h
  obtain ⟨ending, rx, rest⟩ := ended
  subst h
  rfl

/-- No other stream is read without an error. -/
theorem accepted_of_ok (hlen : dataLen ≤ buf.length)
    (h : (readFrame passthrough id buf dataLen timeout bytes).code = .ok) :
    Accepted passthrough id dataLen bytes := by
  by_cases hfit : (reader bytes).kept.length ≤ dataLen
  · cases hend : (split bytes).2 with
    | none =>
      have hloop := (readLoop_split timeout bytes hlen (Nat.zero_le _) hfit).2 hend
      rw [start_rx] at hloop
      rw [readFrame_error hloop] at h
      cases timeout <;> exact absurd h (by decide)
    | some rest =>
      rw [readFrame_fits hlen hend hfit] at h
      exact ⟨by simp [hend], hfit, h⟩
  · have hloop := readLoop_full timeout bytes hlen (Nat.zero_le _) (Nat.not_le.1 hfit)
    rw [start_rx] at hloop
    rw [readFrame_error hloop] at h
    exact absurd h (by decide)

theorem readFrame_frame :
    (readFrame passthrough id buf dataLen timeout bytes).data.length = buf.length ∧
    (readFrame passthrough id buf dataLen timeout bytes).data.drop dataLen = buf.drop dataLen := by
  have hloop : ∀ (bytes : List UInt8) (rx : Rx),
      (readLoop dataLen timeout bytes rx).2.1.data.length = rx.data.length ∧
      (readLoop dataLen timeout bytes rx).2.1.data.drop dataLen = rx.data.drop dataLen := by
    intro bytes
    induction bytes with
    | nil =>
      intro rx
      rw [readLoop]
      split_ifs <;> exact ⟨rfl, rfl⟩
    | cons b bytes ih =>
      intro rx
      rw [readLoop]
      split_ifs with hdone
      · exact ⟨rfl, rfl⟩
      · cases hbyte : rx.byte dataLen b with
        | none => exact ⟨rfl, rfl⟩
        | some rx' =>
          have hframe := byte_frame hbyte
          exact ⟨(ih rx').1.trans hframe.1, (ih rx').2.trans hframe.2⟩
  have hread := hloop bytes (.start buf)
  rw [readFrame]
  generalize readLoop dataLen timeout bytes (.start buf) = ended at hread
  obtain ⟨ending, rx, rest⟩ := ended
  cases ending <;> exact hread

end Read

/-! ## Reading a positive reply -/

theorem split_plain {b : UInt8} (hb : b ≠ escape) (bytes : List UInt8) :
    split (b :: bytes) = (.plain b :: (split bytes).1, (split bytes).2) := by
  cases bytes with
  | nil => simp [split, hb]
  | cons c bytes => rw [split, if_neg hb]

theorem split_pair {b : UInt8} (hb : b ≠ eom) (bytes : List UInt8) :
    split (escape :: b :: bytes) = (.pair b :: (split bytes).1, (split bytes).2) := by
  rw [split, if_pos rfl, if_neg hb]

theorem split_data (data rest : List UInt8) :
    split (data.flatMap escaped ++ (escape :: eom :: rest)) = (data.map dataToken, some rest) := by
  induction data with
  | nil => simp [split]
  | cons b data ih =>
    rw [List.flatMap_cons, List.append_assoc, List.map_cons]
    by_cases hb : b = escape
    · subst hb
      rw [escaped, if_pos rfl, dataToken, if_pos rfl, List.cons_append, List.cons_append,
        split_pair (by decide), List.nil_append, ih]
    · rw [escaped, if_neg hb, dataToken, if_neg hb, List.cons_append, split_plain hb,
        List.nil_append, ih]

theorem split_reply (passthrough : Bool) {id : UInt8} (hid : id ≠ escape) (data rest : List UInt8) :
    split (reply passthrough id data ++ rest) = (replyTokens passthrough id data, some rest) := by
  have hsom : somAck passthrough ≠ eom := by cases passthrough <;> decide
  have hbytes : reply passthrough id data ++ rest =
      escape :: somAck passthrough :: id :: (data.flatMap escaped ++ (escape :: eom :: rest)) := by
    simp [reply]
  rw [hbytes, split_pair hsom, split_plain hid, split_data, replyTokens]

/-- What has been split is nothing but the stream. -/
theorem bytes_split {bytes rest : List UInt8} (h : (split bytes).2 = some rest) :
    bytes = (split bytes).1.flatMap Token.bytes ++ escape :: eom :: rest := by
  fun_induction split bytes with
  | case1 => simp at h
  | case2 => simp at h
  | case3 b hb => simp at h
  | case4 bytes =>
    obtain rfl : bytes = rest := Option.some.inj h
    simp
  | case5 b bytes hb ih =>
    have hbytes := ih h
    rw [List.flatMap_cons, List.append_assoc, ← hbytes, Token.bytes]
    simp
  | case6 b c bytes hb ih =>
    have hbytes := ih h
    rw [List.flatMap_cons, List.append_assoc, ← hbytes, Token.bytes]
    simp

theorem bytes_dataToken (b : UInt8) : (dataToken b).bytes = escaped b := by
  rw [dataToken, escaped]
  split_ifs <;> rfl

namespace Reader

theorem tokens_data (r : Reader) (data : List UInt8) (hsom : r.som = false) (hvalid : r.valid = true) :
    r.tokens (data.map dataToken) = { r with kept := r.kept ++ data } := by
  induction data generalizing r with
  | nil => simp
  | cons b data ih =>
    have htoken : r.token (dataToken b) = { r with kept := r.kept ++ [b] } := by
      by_cases hb : b = escape
      · subst hb
        rw [dataToken, if_pos rfl, token, if_neg (by decide), if_neg (by decide),
          if_pos ⟨rfl, hvalid⟩]
      · simp [dataToken, hb, token, hsom, hvalid]
    rw [List.map_cons, tokens_cons, htoken, ih { r with kept := r.kept ++ [b] } hsom hvalid]
    simp

/-- A positive reply is read whatever comes before it. -/
theorem tokens_reply (r : Reader) (passthrough : Bool) (id : UInt8) (data : List UInt8) :
    r.tokens (replyTokens passthrough id data) =
      { r with
        som := false, valid := true, passthrough := passthrough, id := id,
        kept := r.kept ++ data } := by
  have hstart : r.token (.pair (somAck passthrough)) =
      { r with som := true, passthrough := passthrough } := by
    cases passthrough <;> simp [token, somAck]
  have hid : ({ r with som := true, passthrough := passthrough } : Reader).token (.plain id) =
      { r with som := false, valid := true, passthrough := passthrough, id := id } := by
    simp [token]
  rw [replyTokens, tokens_cons, tokens_cons, hstart, hid, tokens_data _ _ rfl rfl]

/-- A negative start is not forgotten. -/
theorem nack_tokens (r : Reader) (ts : List Token) :
    (r.tokens ts).nack = (r.nack || ts.any Token.isNack) := by
  induction ts generalizing r with
  | nil => simp
  | cons t ts ih =>
    have htoken : (r.token t).nack = (r.nack || t.isNack) := by
      cases t with
      | plain b =>
        rw [token, Token.isNack, Bool.or_false]
        split_ifs <;> rfl
      | pair b =>
        by_cases hack : b = somAck false ∨ b = somAck true
        · rw [token, if_pos hack]
          obtain rfl | rfl := hack <;> simp [Token.isNack, somAck, somNack]
        · rw [token, if_neg hack]
          by_cases hnack : b = somNack false ∨ b = somNack true
          · have hstart : (Token.pair b).isNack = true := by
              simpa [Token.isNack] using hnack
            rw [if_pos hnack, hstart, Bool.or_true]
          · have hother : (Token.pair b).isNack = false := by
              simpa [Token.isNack] using hnack
            rw [if_neg hnack, hother, Bool.or_false]
            split_ifs <;> rfl
    rw [tokens_cons, ih, htoken, List.any_cons, Bool.or_assoc]

/-- An identifier is a single byte of the stream. -/
theorem id_tokens (r : Reader) (ts : List Token) (hid : r.id ≠ escape)
    (hplain : ∀ b, Token.plain b ∈ ts → b ≠ escape) : (r.tokens ts).id ≠ escape := by
  induction ts generalizing r with
  | nil => exact hid
  | cons t ts ih =>
    refine ih _ ?_ fun b hb => hplain b (List.mem_cons_of_mem _ hb)
    cases t with
    | plain b =>
      rw [token]
      split_ifs
      · exact hplain b List.mem_cons_self
      · exact hid
      · exact hid
    | pair b =>
      rw [token]
      split_ifs <;> exact hid

end Reader

theorem plain_split {b : UInt8} {bytes : List UInt8} (h : Token.plain b ∈ (split bytes).1) :
    b ≠ escape := by
  fun_induction split bytes with
  | case1 => simp at h
  | case2 => simp at h
  | case3 c hc =>
    rw [List.mem_singleton, Token.plain.injEq] at h
    exact h ▸ hc
  | case4 => simp at h
  | case5 c bytes hc ih =>
    rw [List.mem_cons] at h
    exact h.elim (fun h => by simp at h) ih
  | case6 c d bytes hc ih =>
    rw [List.mem_cons, Token.plain.injEq] at h
    exact h.elim (fun h => h ▸ hc) ih

theorem reader_id (bytes : List UInt8) : (reader bytes).id ≠ escape :=
  Reader.id_tokens _ _ (by decide) fun _ => plain_split

section Reply

variable {passthrough : Bool} {id : UInt8} {buf : List UInt8} {dataLen : Nat} {data : List UInt8}

/-- A positive reply behind other tokens. -/
theorem readFrame_behind {bytes rest : List UInt8} {u : List Token} (timeout : Bool)
    (hlen : dataLen ≤ buf.length)
    (hsplit : split bytes = (u ++ replyTokens passthrough id data, some rest))
    (hfit : ((Reader.start.tokens u).kept ++ data).length ≤ dataLen) :
    readFrame passthrough id buf dataLen timeout bytes =
      ⟨if u.any Token.isNack then
          match (Reader.start.tokens u).kept ++ data with
          | [] => .protocol
          | code :: _ => nack2ErrorCode code
        else .ok,
        ((Reader.start.tokens u).kept ++ data).length,
        (Reader.start.tokens u).kept ++ data ++
          buf.drop ((Reader.start.tokens u).kept ++ data).length, rest⟩ := by
  have hreader : reader bytes =
      { Reader.start.tokens u with
        som := false, valid := true, passthrough := passthrough, id := id,
        kept := (Reader.start.tokens u).kept ++ data } := by
    rw [reader, hsplit, Reader.tokens_append, Reader.tokens_reply]
  have hnack : (Reader.start.tokens u).nack = u.any Token.isNack := by
    rw [Reader.nack_tokens, Reader.start, Bool.false_or]
  rw [readFrame_fits hlen (congrArg Prod.snd hsplit) (by rw [hreader]; exact hfit), hreader]
  simp [Reader.check, hnack]

end Reply

end Uart
end Adcs
end FlightApps
