import Mathlib.Algebra.Ring.Nat
import Mathlib.Data.Nat.Find
import FlightApps.Adcs.Download

/-!
# Which downloads are complete

A run that ends well has taken the frames in order, each checked, up to the last one or to the
number of entries that was asked for (`Complete`), provided that its steps are `Regular`: a frame
with an error is the last one, an empty frame has the check of one, and neither the sum of the
entries nor the number of the frame wraps around.  Outside of that the variables of the last frame
are in the way: the entries of a frame are counted once more for every frame error that follows
it.
-/

set_option autoImplicit false

namespace FlightApps
namespace Adcs

/-! ## Steps -/

section Steps

variable {v : Vars} {a : Answers}

/-- An error ends the loop over the frames. -/
theorem endOfFrame_failed (h : v.result ≠ .ok) : (endOfFrame v).stage = .done v.result := by
  simp [endOfFrame, h]

/-- So does the last frame. -/
theorem endOfFrame_last (hresult : v.result = .ok) (hlast : v.flagLastFrame = true) :
    (endOfFrame v).stage = .done v.status := by
  simp [endOfFrame, hresult, hlast]

/-- A frame number that is set is polled. -/
theorem setBody_ok (h : a.setTransferFrame = .ok) :
    setBody v a = { v with
      stage := .polling, status := .ok, result := .ok, lastResult := .ok, tsend := a.next } := by
  simp [setBody, setFlags, h]

/-- One that is not set is set again, or the function ends. -/
theorem setBody_failed (h : a.setTransferFrame ≠ .ok) :
    setBody v a = { v with result := a.setTransferFrame, lastResult := a.setTransferFrame } ∨
      (setBody v a).stage = .done a.setTransferFrame := by
  have hend (w : Vars) (hw : w.result = a.setTransferFrame) :
      (endOfFrame w).stage = .done a.setTransferFrame := by
    rw [← hw]
    exact endOfFrame_failed (by rw [hw]; exact h)
  simp only [setBody, h, if_false]
  by_cases hflags : ((setFlags a.setTransferFrame v.lastResult (late a.now v.tsend)).1 ||
      (setFlags a.setTransferFrame v.lastResult (late a.now v.tsend)).2) = true
  · right
    rw [if_pos hflags]
    exact hend _ rfl
  · left
    rw [if_neg hflags]

/-- What is judged to be set after a timeout ends the function. -/
theorem setBody_judged (hlast : v.lastResult = .tout)
    (h : a.setTransferFrame = .busy ∨ a.setTransferFrame = .invalidParam) :
    (setBody v a).stage = .done a.setTransferFrame := by
  have hset : (setFlags a.setTransferFrame v.lastResult (late a.now v.tsend)).1 = true ∧
      a.setTransferFrame ≠ .ok := by
    rw [hlast]
    rcases h with h | h
    · rw [h]
      exact ⟨rfl, by decide⟩
    · rw [h]
      exact ⟨rfl, by decide⟩
  simp only [setBody, hset, if_false, if_true, Bool.true_or]
  exact endOfFrame_failed hset.2

/-- A frame with an error is not got. -/
theorem pollBody_frameError (hok : a.getInfoFrame.1 = .ok)
    (hnum : a.getInfoFrame.2.frameNumber = v.localFrameNumber)
    (herr : a.getInfoFrame.2.frameError = true) :
    pollBody v a = endOfFrame { v with
      status := .frame, result := .ok, retVal220 := a.getInfoFrame.2,
      flagLastFrame := a.getInfoFrame.2.lastFrame } := by
  have hframe : ErrorCode.frame ≠ .ok := by decide
  simp [pollBody, hok, hnum, herr, hframe]

/-- What comes of polling: once more, the frame, an error, or a frame with an error. -/
theorem pollBody_cases (v : Vars) (a : Answers) :
    (∃ result info last, pollBody v a = { v with
        result := result, retVal220 := info, flagLastFrame := last } ∧
      ¬(a.getInfoFrame.1 = .ok ∧ a.getInfoFrame.2.frameError = true)) ∨
    (a.getInfoFrame.1 = .ok ∧ a.getInfoFrame.2.frameNumber = v.localFrameNumber ∧
      a.getInfoFrame.2.frameError = false ∧ pollBody v a = { v with
        stage := .getting, status := .ok, result := .ok, retVal220 := a.getInfoFrame.2,
        flagLastFrame := a.getInfoFrame.2.lastFrame }) ∨
    (∃ code, code ≠ .ok ∧ (pollBody v a).stage = .done code) ∨
    (a.getInfoFrame.1 = .ok ∧ a.getInfoFrame.2.frameError = true ∧
      pollBody v a = endOfFrame { v with
        status := .frame, result := .ok, retVal220 := a.getInfoFrame.2,
        flagLastFrame := a.getInfoFrame.2.lastFrame }) := by
  have htout : ErrorCode.tout ≠ .ok := by decide
  have hframe : ErrorCode.frame ≠ .ok := by decide
  by_cases hok : a.getInfoFrame.1 = .ok
  · by_cases hnum : a.getInfoFrame.2.frameNumber = v.localFrameNumber
    · cases herr : a.getInfoFrame.2.frameError with
      | false =>
        right; left
        simp [pollBody, hok, hnum, herr]
      | true =>
        right; right; right
        exact ⟨hok, rfl, pollBody_frameError hok hnum herr⟩
    · cases hlate : late a.now v.tsend with
      | true =>
        right; right; left
        refine ⟨.tout, htout, ?_⟩
        simp only [pollBody, hok, hnum, hlate, htout, and_false, not_false_eq_true, if_true,
          not_true_eq_false, if_false, and_self, false_and]
        exact endOfFrame_failed htout
      | false =>
        cases herr : a.getInfoFrame.2.frameError with
        | false =>
          left
          refine ⟨.ok, a.getInfoFrame.2, a.getInfoFrame.2.lastFrame, ?_, by simp⟩
          simp [pollBody, hok, hnum, herr, hlate]
        | true =>
          right; right; right
          simp [pollBody, hok, hnum, herr, hlate, hframe]
  · cases hlate : late a.now v.tsend with
    | true =>
      right; right; left
      refine ⟨a.getInfoFrame.1, hok, ?_⟩
      simp only [pollBody, hok, hlate, and_false, not_false_eq_true, false_and, not_true_eq_false,
        if_false, and_self]
      exact endOfFrame_failed hok
    | false =>
      left
      refine ⟨a.getInfoFrame.1, v.retVal220, v.flagLastFrame, ?_, fun h => hok h.1⟩
      simp [pollBody, hok, hlate]

/-- What comes of getting a frame: once more, an error, an empty frame that is the last, or a frame
with the check of its telemetry. -/
theorem getBody_cases (v : Vars) (a : Answers) :
    (∃ result, getBody v a = ({ v with result := result }, [])) ∨
    (∃ code, code ≠ .ok ∧ (getBody v a).1.stage = .done code ∧ (getBody v a).2 = []) ∨
    (a.getDataFrame.1 = .ok ∧ a.getDataFrame.2.frameSize = 0 ∧ v.flagLastFrame = true ∧
      getBody v a =
        (endOfFrame { v with result := .ok, retVal219 := a.getDataFrame.2 },
          [⟨v.localFrameNumber, v.retVal220, a.getDataFrame.2⟩])) ∨
    (a.getDataFrame.1 = .ok ∧ v.retVal220.checksum = frameCrc a.getDataFrame.2.bytes ∧
      getBody v a =
        (endOfFrame { v with
            status := .ok, result := .ok, retVal219 := a.getDataFrame.2,
            localFrameNumber := v.localFrameNumber + 1 },
          [⟨v.localFrameNumber, v.retVal220, a.getDataFrame.2⟩])) := by
  have hsizeh : ErrorCode.sizeh ≠ .ok := by decide
  have hunknown : ErrorCode.unknown ≠ .ok := by decide
  have hcrc : ErrorCode.crc ≠ .ok := by decide
  by_cases hok : a.getDataFrame.1 = .ok
  · by_cases hbig : 256 < a.getDataFrame.2.frameSize
    · right; left
      refine ⟨.sizeh, hsizeh, ?_, ?_⟩
      · simp only [getBody, checkFrame, hok, hbig, hsizeh, true_or, if_true, and_self, false_and,
          if_false]
        exact endOfFrame_failed hsizeh
      · simp [getBody, checkFrame, hok, hbig, hsizeh]
    · by_cases hempty : a.getDataFrame.2.frameSize = 0
      · cases hlast : v.flagLastFrame with
        | true =>
          right; right; left
          refine ⟨hok, hempty, rfl, ?_⟩
          simp [getBody, checkFrame, hok, hempty, hlast]
        | false =>
          right; left
          refine ⟨.unknown, hunknown, ?_, ?_⟩
          · simp only [getBody, checkFrame, hok, hempty, hlast, true_or, if_true, and_self]
            exact endOfFrame_failed hunknown
          · simp [getBody, checkFrame, hok, hempty, hlast, hunknown]
      · have hpos : 0 < a.getDataFrame.2.frameSize := UInt16.pos_iff_ne_zero.2 hempty
        have hsmall : ¬frameTestSize < a.getDataFrame.2.frameSize.toNat := by
          have hle := UInt16.le_iff_toNat_le.1 (UInt16.not_lt.1 hbig)
          have hsize : frameTestSize = 522 := rfl
          have h256 : (256 : UInt16).toNat = 256 := rfl
          omega
        by_cases hcheck : v.retVal220.checksum = frameCrc a.getDataFrame.2.bytes
        · right; right; right
          refine ⟨hok, hcheck, ?_⟩
          simp [getBody, checkFrame, hok, hbig, hempty, hpos, hsmall, hcheck]
        · right; left
          refine ⟨.crc, hcrc, ?_, ?_⟩
          · simp only [getBody, checkFrame, hok, hbig, hempty, hpos, hsmall, hcheck, hcrc, true_or,
              if_true, and_self, and_false, false_and, if_false, ne_eq, not_false_eq_true]
            exact endOfFrame_failed hcrc
          · simp [getBody, checkFrame, hok, hbig, hempty, hpos, hsmall, hcheck, hcrc]
  · cases hlate : late a.now v.tsend with
    | true =>
      right; left
      refine ⟨a.getDataFrame.1, hok, ?_, ?_⟩
      · simp only [getBody, checkFrame, hok, hlate, or_true, if_true, false_and, if_false]
        exact endOfFrame_failed hok
      · simp [getBody, checkFrame, hok, hlate]
    | false =>
      left
      refine ⟨a.getDataFrame.1, ?_⟩
      simp [getBody, hok, hlate]

end Steps

/-! ## Complete downloads -/

/-- A frame that is the `k`-th, without an error and with its check. -/
structure Frame.Good (k : Nat) (f : Frame) : Prop where
  number : f.number.toNat = k
  named : f.info.frameNumber = f.number
  clean : f.info.frameError = false
  checked : f.info.checksum = frameCrc f.data.bytes

/-- The number of entries of frames. -/
def entries (frames : List Frame) : Nat :=
  (frames.map fun f => numberOfEntry f.data.frameSize).sum

theorem entries_snoc (frames : List Frame) (f : Frame) :
    entries (frames ++ [f]) = entries frames + numberOfEntry f.data.frameSize := by
  simp [entries]

/-- The frames from the first one on, up to the last or to as many entries as were asked for. -/
structure Complete (frames : List Frame) : Prop where
  good : ∀ k (hk : k < frames.length), frames[k].Good k
  ends : (∃ f, frames.getLast? = some f ∧ f.info.lastFrame = true) ∨
    entries frames = totalNumberOfEntries.toNat

/-- The steps after which no variable is in the way. -/
structure Regular (v : Vars) (a : Answers) : Prop where
  /-- A frame number is not refused right after a timeout. -/
  set : v.stage = .setting → v.lastResult = .tout →
    a.setTransferFrame ≠ .busy ∧ a.setTransferFrame ≠ .invalidParam
  /-- A frame with an error is the last one. -/
  poll : v.stage = .polling → a.getInfoFrame.1 = .ok → a.getInfoFrame.2.frameError = true →
    a.getInfoFrame.2.lastFrame = true
  /-- An empty frame has the check of one. -/
  empty : v.stage = .getting → a.getDataFrame.1 = .ok → a.getDataFrame.2.frameSize = 0 →
    v.retVal220.checksum = 0xFF
  /-- Eight bits are enough for the entries. -/
  sum : v.stage = .getting → a.getDataFrame.1 = .ok →
    v.sumNumberOfEntries.toNat + numberOfEntry a.getDataFrame.2.frameSize < 256
  /-- Sixteen bits are enough for the number of the frame. -/
  number : v.stage = .getting → a.getDataFrame.1 = .ok → v.localFrameNumber ≠ 0xFFFF

/-- What the variables say of the frames that have been taken. -/
structure Taken (v : Vars) (frames : List Frame) : Prop where
  good : ∀ k (hk : k < frames.length), frames[k].Good k
  number : v.localFrameNumber.toNat = frames.length
  sum : v.sumNumberOfEntries.toNat = entries frames

/-- The telemetry is that of the frame that comes next. -/
structure Polled (v : Vars) : Prop where
  named : v.retVal220.frameNumber = v.localFrameNumber
  clean : v.retVal220.frameError = false
  last : v.flagLastFrame = v.retVal220.lastFrame
  status : v.status = .ok

/-- The invariant. -/
def Inv (v : Vars) (frames : List Frame) : Prop :=
  match v.stage with
  | .waiting _ | .setting => Taken v frames ∧ v.flagLastFrame = false
  | .polling => Taken v frames
  | .getting => Taken v frames ∧ Polled v
  | .done code => code = .ok → Complete frames

theorem inv_of_error {v : Vars} {frames : List Frame} {code : ErrorCode}
    (hstage : v.stage = .done code) (h : code ≠ .ok) : Inv v frames := by
  rw [Inv, hstage]
  exact fun hok => absurd hok h

theorem good_snoc {frames : List Frame} {f : Frame}
    (h : ∀ k (hk : k < frames.length), frames[k].Good k) (hf : f.Good frames.length) :
    ∀ k (hk : k < (frames ++ [f]).length), (frames ++ [f])[k].Good k := by
  intro k hk
  rw [List.length_append, List.length_singleton] at hk
  by_cases hlast : k = frames.length
  · subst hlast
    rw [List.getElem_concat_length rfl]
    exact hf
  · have hlt : k < frames.length := by omega
    rw [List.getElem_append_left hlt]
    exact h k hlt

/-- The frame that comes next, if it has its check. -/
theorem Polled.good {v : Vars} {frames : List Frame} (h : Polled v) (ht : Taken v frames)
    {d : DataFrame} (hcheck : v.retVal220.checksum = frameCrc d.bytes) :
    (Frame.mk v.localFrameNumber v.retVal220 d).Good frames.length :=
  ⟨ht.number, h.named, h.clean, hcheck⟩

theorem numberOfEntry_zero : numberOfEntry 0 = 0 := by decide

/-- An empty frame that is the last ends the download. -/
theorem inv_empty {v : Vars} {frames : List Frame} {d : DataFrame} (ht : Taken v frames)
    (hp : Polled v) (hlast : v.flagLastFrame = true) (hsize : d.frameSize = 0)
    (hcheck : v.retVal220.checksum = 0xFF) :
    Inv (endOfFrame { v with result := .ok, retVal219 := d })
      (frames ++ [⟨v.localFrameNumber, v.retVal220, d⟩]) := by
  have hstage : (endOfFrame { v with result := .ok, retVal219 := d }).stage = .done v.status :=
    endOfFrame_last rfl hlast
  have hbytes : d.bytes = [] := by
    rw [DataFrame.bytes, hsize]
    exact List.take_zero
  rw [Inv, hstage]
  refine fun _ => ⟨good_snoc ht.good (hp.good ht (by rw [hbytes, hcheck]; rfl)), Or.inl ?_⟩
  exact ⟨_, List.getLast?_concat, hp.last.symm.trans hlast⟩

/-- A frame that is taken is the last one, or the next one is set. -/
theorem inv_taken {v : Vars} {frames : List Frame} {d : DataFrame} (ht : Taken v frames)
    (hp : Polled v) (hcheck : v.retVal220.checksum = frameCrc d.bytes)
    (hsum : v.sumNumberOfEntries.toNat + numberOfEntry d.frameSize < 256)
    (hnumber : v.localFrameNumber ≠ 0xFFFF) :
    Inv (endOfFrame { v with
        status := .ok, result := .ok, retVal219 := d, localFrameNumber := v.localFrameNumber + 1 })
      (frames ++ [⟨v.localFrameNumber, v.retVal220, d⟩]) := by
  have hgood := good_snoc ht.good (hp.good ht hcheck)
  have hentries : (v.sumNumberOfEntries + (numberOfEntry d.frameSize).toUInt8).toNat =
      entries (frames ++ [⟨v.localFrameNumber, v.retVal220, d⟩]) := by
    have hsmall : (numberOfEntry d.frameSize).toUInt8.toNat = numberOfEntry d.frameSize :=
      UInt8.toNat_ofNat_of_lt' (by show _ < 256; omega)
    rw [entries_snoc, ← ht.sum, UInt8.toNat_add, hsmall]
    exact Nat.mod_eq_of_lt hsum
  by_cases htotal : v.sumNumberOfEntries + (numberOfEntry d.frameSize).toUInt8 =
      totalNumberOfEntries
  · simp only [Inv, endOfFrame, htotal, if_true, if_false, Bool.true_eq_false, false_and]
    refine fun _ => ⟨hgood, Or.inr ?_⟩
    rw [← hentries, htotal]
  · cases hlast : v.flagLastFrame with
    | true =>
      simp only [Inv, endOfFrame, htotal, if_true, if_false, Bool.true_eq_false, false_and]
      exact fun _ => ⟨hgood, Or.inl ⟨_, List.getLast?_concat, hp.last.symm.trans hlast⟩⟩
    | false =>
      simp only [Inv, endOfFrame, htotal, if_true, if_false, and_self]
      refine ⟨⟨hgood, ?_, hentries⟩, trivial⟩
      have hlt : v.localFrameNumber.toNat ≠ 65535 := fun h => hnumber (UInt16.toNat_inj.1 h)
      have hle := v.localFrameNumber.toNat_lt
      rw [List.length_append, ← ht.number, UInt16.toNat_add]
      exact Nat.mod_eq_of_lt (by show _ + 1 < 65536; omega)

/-! ## Runs -/

section Runs

variable {v : Vars} {frames : List Frame} {a : Answers}

theorem inv_wait {backoffTotal : UInt16} (ht : Taken v frames) (hlast : v.flagLastFrame = false) :
    Inv (waitBody v backoffTotal a) frames := by
  have htout : ErrorCode.tout ≠ .ok := by decide
  simp only [waitBody]
  generalize (if a.getTlmLogStatus.1 = .ok then a.getTlmLogStatus.2 else v.readQState) = readQState
  split_ifs
  · exact inv_of_error rfl htout
  · exact ⟨⟨ht.good, ht.number, ht.sum⟩, hlast⟩
  · exact ⟨⟨ht.good, ht.number, ht.sum⟩, hlast⟩

theorem inv_set (hstage : v.stage = .setting) (ht : Taken v frames)
    (hlast : v.flagLastFrame = false) : Inv (setBody v a) frames := by
  by_cases hok : a.setTransferFrame = .ok
  · rw [setBody_ok hok]
    exact ⟨ht.good, ht.number, ht.sum⟩
  · rcases setBody_failed hok with hagain | hdone
    · rw [hagain, Inv]
      simp only [hstage]
      exact ⟨⟨ht.good, ht.number, ht.sum⟩, hlast⟩
    · exact inv_of_error hdone hok

theorem inv_poll (hstage : v.stage = .polling) (ht : Taken v frames) (hr : Regular v a) :
    Inv (pollBody v a) frames := by
  rcases pollBody_cases v a with ⟨result, info, last, hagain, -⟩ | ⟨-, hnum, herr, hget⟩ |
    ⟨code, hcode, hdone⟩ | ⟨hok, herr, hend⟩
  · rw [hagain, Inv]
    simp only [hstage]
    exact ⟨ht.good, ht.number, ht.sum⟩
  · rw [hget]
    exact ⟨⟨ht.good, ht.number, ht.sum⟩, ⟨hnum, herr, rfl, rfl⟩⟩
  · exact inv_of_error hdone hcode
  · have hframe : ErrorCode.frame ≠ .ok := by decide
    rw [hend]
    exact inv_of_error (endOfFrame_last rfl (hr.poll hstage hok herr)) hframe

theorem inv_get (hstage : v.stage = .getting) (ht : Taken v frames) (hp : Polled v)
    (hr : Regular v a) : Inv (getBody v a).1 (frames ++ (getBody v a).2) := by
  rcases getBody_cases v a with ⟨result, hagain⟩ | ⟨code, hcode, hdone, hnone⟩ |
    ⟨hok, hsize, hlast, hempty⟩ | ⟨hok, hcheck, htaken⟩
  · rw [hagain, List.append_nil, Inv]
    simp only [hstage]
    exact ⟨⟨ht.good, ht.number, ht.sum⟩, ⟨hp.named, hp.clean, hp.last, hp.status⟩⟩
  · exact inv_of_error hdone hcode
  · rw [hempty]
    exact inv_empty ht hp hlast hsize (hr.empty hstage hok hsize)
  · rw [htaken]
    exact inv_taken ht hp hcheck (hr.sum hstage hok) (hr.number hstage hok)

/-- **The step lemma.** -/
theorem inv_step (h : Inv v frames) (hr : Regular v a) :
    Inv (initAngRateEst.step v a).1 (frames ++ (initAngRateEst.step v a).2) := by
  have hinv := h
  rw [Inv] at h
  cases hstage : v.stage with
  | waiting backoffTotal =>
    simp only [hstage] at h
    simp only [initAngRateEst, hstage, List.append_nil]
    exact inv_wait h.1 h.2
  | setting =>
    simp only [hstage] at h
    simp only [initAngRateEst, hstage, List.append_nil]
    exact inv_set hstage h.1 h.2
  | polling =>
    simp only [hstage] at h
    simp only [initAngRateEst, hstage, List.append_nil]
    exact inv_poll hstage h hr
  | getting =>
    simp only [hstage] at h
    simp only [initAngRateEst, hstage]
    exact inv_get hstage h.1 h.2 hr
  | done code =>
    simp only [initAngRateEst, hstage, List.append_nil]
    exact hinv

/-- **The run lemma.** -/
theorem inv_run {as : List Answers}
    (hr : ∀ pre a, pre ++ [a] <+: as → Regular (initAngRateEst.run .start pre) a) :
    Inv (initAngRateEst.run .start as) (initAngRateEst.history .start as) := by
  induction as using List.reverseRecOn with
  | nil => exact ⟨⟨fun k hk => absurd hk (Nat.not_lt_zero k), rfl, rfl⟩, rfl⟩
  | append_singleton as a ih =>
    have hbefore := ih fun pre b hpre => hr pre b (hpre.trans (List.prefix_append as [a]))
    have hstep := inv_step hbefore (hr as a (List.prefix_refl _))
    rw [Machine.run_append, Machine.history_append, Machine.history_cons, Machine.history_nil,
      List.append_nil]
    exact hstep

end Runs

/-! ## A frame with an error -/

section FrameErrors

variable {v : Vars} {answers : Nat → Answers}

/-- An ADCS that sets the frame number and then has that frame with an error, each time. -/
structure AlwaysError (v : Vars) (answers : Nat → Answers) : Prop where
  set : ∀ n, (answers n).setTransferFrame = .ok
  ok : ∀ n, (answers n).getInfoFrame.1 = .ok
  named : ∀ n, (answers n).getInfoFrame.2.frameNumber = v.localFrameNumber
  error : ∀ n, (answers n).getInfoFrame.2.frameError = true

/-- The sum of the entries after `m` more frame errors. -/
def sumAfter (v : Vars) (m : Nat) : UInt8 :=
  v.sumNumberOfEntries + (m * numberOfEntry v.retVal219.frameSize).toUInt8

/-- The variables after `n` bodies. -/
def after (v : Vars) (answers : Nat → Answers) (n : Nat) : Vars :=
  initAngRateEst.run v ((List.range n).map answers)

theorem after_succ (n : Nat) :
    after v answers (n + 1) = (initAngRateEst.step (after v answers n) (answers n)).1 := by
  rw [after, List.range_succ, List.map_append, Machine.run_append]
  rfl

/-- The variables once the frame error has been reported `m` times. -/
structure Again (v : Vars) (m : Nat) (w : Vars) : Prop where
  stage : w.stage = .setting
  number : w.localFrameNumber = v.localFrameNumber
  data : w.retVal219 = v.retVal219
  sum : w.sumNumberOfEntries = sumAfter v m

theorem sumAfter_succ (v : Vars) (m : Nat) :
    sumAfter v m + (numberOfEntry v.retVal219.frameSize).toUInt8 = sumAfter v (m + 1) := by
  rw [sumAfter, sumAfter, Nat.succ_mul, UInt8.add_assoc]
  congr 1
  exact (UInt8.ofNat_add _ _).symm

/-- Once more: the frame number is set, and the error is reported. -/
theorem after_again (h : AlwaysError v answers) {m n : Nat} (hw : Again v m (after v answers n)) :
    (after v answers (n + 1)).stage = .polling ∧
      (((answers (n + 1)).getInfoFrame.2.lastFrame = true ∨
          sumAfter v (m + 1) = totalNumberOfEntries) →
        (after v answers (n + 2)).stage = .done .frame) ∧
      (¬((answers (n + 1)).getInfoFrame.2.lastFrame = true ∨
          sumAfter v (m + 1) = totalNumberOfEntries) →
        Again v (m + 1) (after v answers (n + 2))) := by
  have hset : after v answers (n + 1) = { after v answers n with
      stage := .polling, status := .ok, result := .ok, lastResult := .ok,
      tsend := (answers n).next } := by
    rw [after_succ]
    simp only [initAngRateEst, hw.stage]
    exact setBody_ok (h.set n)
  have hpoll : after v answers (n + 2) = endOfFrame { after v answers n with
      stage := .polling, status := .frame, result := .ok, lastResult := .ok,
      tsend := (answers n).next, retVal220 := (answers (n + 1)).getInfoFrame.2,
      flagLastFrame := (answers (n + 1)).getInfoFrame.2.lastFrame } := by
    rw [after_succ, hset]
    exact pollBody_frameError (h.ok (n + 1)) ((h.named (n + 1)).trans hw.number.symm)
      (h.error (n + 1))
  have hsum : (after v answers n).sumNumberOfEntries +
      (numberOfEntry (after v answers n).retVal219.frameSize).toUInt8 = sumAfter v (m + 1) := by
    rw [hw.sum, hw.data, sumAfter_succ]
  refine ⟨by rw [hset], fun hends => ?_, fun hgoes => ?_⟩
  · rw [hpoll]
    rcases hends with hlast | htotal
    · exact endOfFrame_last rfl hlast
    · simp [endOfFrame, hsum, htotal]
  · rw [not_or, Bool.not_eq_true] at hgoes
    rw [hpoll]
    refine ⟨?_, ?_, ?_, ?_⟩
    · simp [endOfFrame, hsum, hgoes]
    · simp [endOfFrame, hsum, hgoes, hw.number]
    · refine Eq.trans ?_ hw.data
      simp [endOfFrame, hsum, hgoes]
    · simp [endOfFrame, hsum, hgoes]

/-- As long as neither the last frame nor the number of entries ends it, the error is reported once
more. -/
theorem again_all (hstage : v.stage = .setting) (h : AlwaysError v answers) {m : Nat}
    (hgoes : ∀ k < m, ¬((answers (2 * k + 1)).getInfoFrame.2.lastFrame = true ∨
      sumAfter v (k + 1) = totalNumberOfEntries)) : Again v m (after v answers (2 * m)) := by
  induction m with
  | zero =>
    refine ⟨hstage, rfl, rfl, ?_⟩
    rw [sumAfter, Nat.zero_mul]
    exact (UInt8.add_zero _).symm
  | succ m ih =>
    have hw := ih fun k hk => hgoes k (by omega)
    exact (after_again h hw).2.2 (hgoes m (Nat.lt_succ_self m))

/-- **A frame error that stays ends the function only by the last frame, or by entries that are
counted again.** -/
theorem frameError_ends_iff (hstage : v.stage = .setting) (h : AlwaysError v answers) :
    (∃ n code, (after v answers n).stage = .done code ∧ code ≠ .ok) ↔
      ∃ m, (answers (2 * m + 1)).getInfoFrame.2.lastFrame = true ∨
        sumAfter v (m + 1) = totalNumberOfEntries := by
  constructor
  · rintro ⟨n, code, hdone, -⟩
    by_contra hnever
    push Not at hnever
    have hw : Again v (n / 2) (after v answers (2 * (n / 2))) :=
      again_all hstage h fun k _ => not_or.2 (hnever k)
    obtain hn | hn : n = 2 * (n / 2) ∨ n = 2 * (n / 2) + 1 := by omega
    · rw [hn, hw.stage] at hdone
      simp at hdone
    · rw [hn, (after_again h hw).1] at hdone
      simp at hdone
  · intro hends
    classical
    have hfirst := Nat.find_spec hends
    have hw : Again v (Nat.find hends) (after v answers (2 * Nat.find hends)) :=
      again_all hstage h fun k hk => Nat.find_min hends hk
    exact ⟨_, .frame, (after_again h hw).2.1 hfirst, by decide⟩

end FrameErrors

/-! ## Downloads -/

/-- The frame number is judged to be set: at once, or by a refusal right after a timeout. -/
def Judged (v : Vars) (a : Answers) : Prop :=
  v.stage = .setting ∧ (a.setTransferFrame = .ok ∨
    v.lastResult = .tout ∧ (a.setTransferFrame = .busy ∨ a.setTransferFrame = .invalidParam))

theorem polling_of_judged {v : Vars} {a : Answers} (hr : Regular v a) (h : Judged v a) :
    (initAngRateEst.step v a).1.stage = .polling := by
  obtain ⟨hstage, hok | ⟨hlast, hrefused⟩⟩ := h
  · simp only [initAngRateEst, hstage]
    rw [setBody_ok hok]
  · obtain ⟨hbusy, hinvalid⟩ := hr.set hstage hlast
    rcases hrefused with hrefused | hrefused
    · exact absurd hrefused hbusy
    · exact absurd hrefused hinvalid

theorem error_of_frameError {v : Vars} {a : Answers} (hr : Regular v a)
    (hstage : v.stage = .polling) (hok : a.getInfoFrame.1 = .ok)
    (herr : a.getInfoFrame.2.frameError = true) :
    ∃ code, code ≠ .ok ∧ (initAngRateEst.step v a).1.stage = .done code := by
  simp only [initAngRateEst, hstage]
  rcases pollBody_cases v a with ⟨-, -, -, -, hclean⟩ | ⟨-, -, hclean, -⟩ | hdone | ⟨-, -, hend⟩
  · exact absurd ⟨hok, herr⟩ hclean
  · rw [herr] at hclean
    simp at hclean
  · exact hdone
  · refine ⟨.frame, by decide, ?_⟩
    rw [hend]
    exact endOfFrame_last rfl (hr.poll hstage hok herr)

/-- **Downloads.**  A run of regular steps that ends well has taken all frames, goes on with every
frame number that is judged to be set, and ends with an error at a frame error.  Beyond that, a
frame number that is judged to be set after a timeout never goes on, and a frame error that stays
ends the function exactly if it is the last frame's, or the entries of the frame before come to be
as many as were asked for. -/
theorem downloads_complete (as : List Answers)
    (hr : ∀ pre a, pre ++ [a] <+: as → Regular (initAngRateEst.run .start pre) a) :
    ((initAngRateEst.run .start as).stage = .done .ok →
      Complete (initAngRateEst.history .start as)) ∧
    (∀ pre a, pre ++ [a] <+: as →
      (Judged (initAngRateEst.run .start pre) a →
        (initAngRateEst.run .start (pre ++ [a])).stage = .polling) ∧
      ((initAngRateEst.run .start pre).stage = .polling → a.getInfoFrame.1 = .ok →
        a.getInfoFrame.2.frameError = true →
        ∃ code, code ≠ .ok ∧ (initAngRateEst.run .start (pre ++ [a])).stage = .done code)) ∧
    (∀ (v : Vars) (a : Answers), v.stage = .setting → v.lastResult = .tout →
      a.setTransferFrame = .busy ∨ a.setTransferFrame = .invalidParam →
      (initAngRateEst.step v a).1.stage = .done a.setTransferFrame) ∧
    ∀ (v : Vars) (answers : Nat → Answers), v.stage = .setting → AlwaysError v answers →
      ((∃ n code, (after v answers n).stage = .done code ∧ code ≠ .ok) ↔
        ∃ m, (answers (2 * m + 1)).getInfoFrame.2.lastFrame = true ∨
          sumAfter v (m + 1) = totalNumberOfEntries) := by
  refine ⟨fun hdone => ?_, fun pre a hpre => ⟨fun hjudged => ?_, fun hp hok herr => ?_⟩,
    fun v a hstage hlast h => ?_, fun v answers => frameError_ends_iff⟩
  · have hinv := inv_run hr
    rw [Inv, hdone] at hinv
    exact hinv rfl
  · rw [Machine.run_append]
    exact polling_of_judged (hr pre a hpre) hjudged
  · rw [Machine.run_append]
    exact error_of_frameError (hr pre a hpre) hp hok herr
  · simp only [initAngRateEst, hstage]
    exact setBody_judged hlast h

/-! ## Some runs -/

/-- Answers without errors, with a frame of this size that is all zeros. -/
def answering (info : InfoFrame) (frameSize : UInt16) : Answers where
  getTlmLogStatus := (.ok, 1)
  setTransferFrame := .ok
  getInfoFrame := (.ok, info)
  getDataFrame := (.ok, ⟨frameSize, Vector.replicate 256 0⟩)
  now := 0
  next := 0

/-- The log, and the answers to three calls for each frame, the last of six bytes. -/
def oneFrame : List Answers := List.replicate 4 (answering ⟨0, 0xFF, true, false⟩ 6)

theorem oneFrame_complete : Complete (initAngRateEst.history .start oneFrame) := by
  refine (downloads_complete oneFrame ?_).1 (by decide)
  have hregular (n : Nat) (hn : n < 4) : Regular
      (initAngRateEst.run .start (List.replicate n (answering ⟨0, 0xFF, true, false⟩ 6)))
      (answering ⟨0, 0xFF, true, false⟩ 6) := by
    obtain rfl | rfl | rfl | rfl : n = 0 ∨ n = 1 ∨ n = 2 ∨ n = 3 := by omega
    all_goals exact ⟨by decide, by decide, by decide, by decide, by decide⟩
  intro pre a hpre
  have hlen := hpre.length_le
  rw [List.length_append, List.length_singleton, oneFrame, List.length_replicate] at hlen
  have hall := List.eq_replicate_of_mem fun b hb => List.eq_of_mem_replicate (hpre.subset hb)
  rw [List.length_append, List.length_singleton, List.replicate_succ'] at hall
  obtain ⟨hbefore, hlast⟩ := List.append_inj' hall rfl
  rw [hbefore, (List.singleton_inj.1 hlast)]
  exact hregular pre.length (by omega)

/-- Two frames of five entries, the second with a frame error twice. -/
def twoFrames : List Answers :=
  List.replicate 4 (answering ⟨0, 0xFF, false, false⟩ 240) ++
    List.replicate 4 (answering ⟨1, 0xFF, false, true⟩ 240) ++
    List.replicate 3 (answering ⟨1, 0xFF, false, false⟩ 240)

/-- Ten entries pass for twenty. -/
theorem twoFrames_short :
    (initAngRateEst.run .start twoFrames).stage = .done .ok ∧
      ¬Complete (initAngRateEst.history .start twoFrames) := by
  have hentries : entries (initAngRateEst.history .start twoFrames) = 10 := by decide +kernel
  have hlast : (initAngRateEst.history .start twoFrames).getLast?.map (·.info.lastFrame) =
      some false := by decide +kernel
  refine ⟨by decide +kernel, fun h => ?_⟩
  rcases h.ends with ⟨f, hf, hflag⟩ | htotal
  · rw [hf, Option.map_some, hflag] at hlast
    simp at hlast
  · rw [hentries] at htotal
    exact absurd htotal (by decide)

end Adcs
end FlightApps
