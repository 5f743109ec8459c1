import FlightApps.Pay.Agreement

/-!
# Resuming a download

A `History` is a list of attempts at one file: the first from the start, each later one from the
chunk that the length of the local file gives.  If no write is cut short and no attempt resumes a
file that is all there, every attempt leaves whole chunks of the file, and success means all of it
(`download_resumes`).  A write that is cut short leaves a part of a chunk (`cut_not_whole`), to which
the next attempt appends.
-/

set_option autoImplicit false

namespace FlightApps
namespace Pay

open Script

/-- An attempt at a download, from the disk before it to the scene at its end. -/
structure Attempt where
  link : Link
  handle : Bool
  startChunk : UInt32
  before : Disk
  after : Scene

section Histories

variable (p : Payload) (fileIndex : UInt32)

/-- The local file. -/
def localPath : Path := makeDownloadPath fileIndex p.name

/-- A prefix of the file made of whole chunks, or all of the file. -/
def Payload.Whole (bs : List UInt8) : Prop :=
  ∃ n, n ≤ p.npart ∧ bs = p.data.take (n * p.chunkSize.toNat)

namespace Attempt

/-- The attempt is a run in the world with this payload. -/
def Runs (fail cut : Bool) (a : Attempt) : Prop :=
  Ends (p.world fail cut) (.start a.before)
    (downloadChildTask a.link a.handle fileIndex a.startChunk) a.after ()

/-- What an attempt should leave. -/
structure Good (a : Attempt) : Prop where
  whole : p.Whole (a.after.disk.content (localPath p fileIndex))
  succeeds : a.handle = true → a.Runs p fileIndex false false → reported a.after.log = some success
  truthful : reported a.after.log = some success →
    a.after.disk.content (localPath p fileIndex) = p.data

/-- The condition on an attempt: the chunk size is one that its link takes, padding is not counted on
RS422, no write is cut short, and it does not resume a file that is all there. -/
structure Meets (a : Attempt) : Prop where
  fits : p.Fits a.link
  exact : a.link = .i2c ∨ p.counted = false ∨ p.padding = []
  uncut : a.Runs p fileIndex true false
  missing : a.startChunk = 0 ∨ a.before.content (localPath p fileIndex) ≠ p.data

end Attempt

/-- A history of attempts, and the disk after it. -/
inductive History (d : Disk) : List Attempt → Disk → Prop
  | start : History d [] d
  | attempt {as : List Attempt} (a : Attempt) (h : History d as a.before)
      (hchunk : a.startChunk.toNat = if as = [] then 0 else
        (a.before.content (localPath p fileIndex)).length / p.chunkSize.toNat)
      (hruns : a.Runs p fileIndex true true) : History d (as ++ [a]) a.after.disk

end Histories

section Resuming

variable {p : Payload} {fileIndex : UInt32}

theorem Payload.whole_all : p.data.take (p.npart * p.chunkSize.toNat) = p.data := by
  refine List.take_of_length_le (Nat.le_of_not_lt fun hlt => ?_)
  exact Nat.lt_irrefl _ ((p.lt_npart_iff p.npart).2 hlt)

/-- A file that is not all there has as many whole chunks as its length says. -/
theorem Payload.Whole.resumes {bs : List UInt8} (h : p.Whole bs) (hmissing : bs ≠ p.data) :
    bs.length / p.chunkSize.toNat < p.npart ∧
      bs = p.data.take (bs.length / p.chunkSize.toNat * p.chunkSize.toNat) := by
  obtain ⟨n, hle, rfl⟩ := h
  have hlt : n < p.npart := Nat.lt_of_le_of_ne hle fun heq => hmissing (heq ▸ whole_all)
  have hlen : (p.data.take (n * p.chunkSize.toNat)).length = n * p.chunkSize.toNat := by
    rw [List.length_take]
    exact Nat.min_eq_left (Nat.le_of_lt ((p.lt_npart_iff n).1 hlt))
  rw [hlen, Nat.mul_div_cancel _ p.chunkSize_pos]
  exact ⟨hlt, rfl⟩

namespace Job

variable {j : Job} {n : Nat}

/-- From a file with the chunks before the start, there are the chunks before `n` at the end. -/
theorem content_resumed (hexact : j.Exact) (hn : j.startChunk.toNat ≤ n)
    (hbase : j.base = j.p.data.take (j.startChunk.toNat * j.p.chunkSize.toNat)) :
    j.content n = j.p.data.take (n * j.p.chunkSize.toNat) := by
  rw [content, parts_exact hexact hn, hbase, ← List.take_add, ← Nat.add_mul, Nat.add_sub_of_le hn]

end Job

/-- The job of an attempt. -/
def Attempt.job (p : Payload) (fileIndex : UInt32) (a : Attempt) : Job :=
  ⟨p, a.link, a.handle, fileIndex, a.startChunk, a.before⟩

/-- What is on the disk where parts have been appended. -/
theorem Job.content_files {j : Job} {s : Scene} {n : Nat} (h : s.disk.files = j.files n) :
    s.disk.content j.path = j.content n := by
  rw [Disk.content, h, files_self]
  rfl

/-- An attempt that meets the condition, on a disk with whole chunks. -/
theorem Attempt.good (a : Attempt) (hmeets : a.Meets p fileIndex)
    (hlt : a.startChunk.toNat < p.npart)
    (hbefore : p.Whole (a.before.content (localPath p fileIndex)))
    (hbase : (a.job p fileIndex).base = p.data.take (a.startChunk.toNat * p.chunkSize.toNat)) :
    a.Good p fileIndex := by
  have hended : (a.job p fileIndex).Ended true a.after :=
    wp_iff.1 (Job.wp_job (j := a.job p fileIndex) hmeets.fits (Or.inr rfl)) _ () hmeets.uncut
  have hcontent : ∀ n, a.startChunk.toNat ≤ n → a.after.disk.files = (a.job p fileIndex).files n →
      a.after.disk.content (localPath p fileIndex) = p.data.take (n * p.chunkSize.toNat) := by
    intro n hn hfiles
    exact (Job.content_files hfiles).trans (Job.content_resumed hmeets.exact hn hbase)
  refine ⟨?_, fun hhandle hsmooth => ?_, fun hsuccess => ?_⟩
  · obtain ⟨status, -, ⟨-, n, hn, hle, hfiles, -⟩ | ⟨hfiles, -⟩⟩ := hended
    · exact ⟨n, hle, hcontent n hn hfiles⟩
    · rw [Disk.content, hfiles]
      exact hbefore
  · have hended : (a.job p fileIndex).Ended false a.after :=
      wp_iff.1 (Job.wp_job (j := a.job p fileIndex) hmeets.fits (Or.inl hhandle)) _ () hsmooth
    obtain ⟨hfiles, hreport⟩ := hended.exact hlt hmeets.exact
    have hall := (Job.content_files hfiles).symm.trans (hcontent _ (Nat.le_of_lt hlt) hfiles)
    rw [hreport, hall]
    show some (if (p.data.take (p.npart * p.chunkSize.toNat)).length = p.data.length then success
      else externalResourceFail) = some success
    rw [Payload.whole_all, if_pos rfl]
  · obtain ⟨status, hreport, ⟨-, n, hn, -, hfiles, hdone, -⟩ | ⟨-, hne, -⟩⟩ := hended
    · obtain ⟨rfl, -⟩ := hdone (Option.some.inj (hreport.symm.trans hsuccess))
      exact (hcontent _ hn hfiles).trans Payload.whole_all
    · exact absurd (Option.some.inj (hreport.symm.trans hsuccess)) hne

/-- **An interrupted download can be resumed**, if no write is cut short and no attempt resumes a file
that is all there: after every attempt of a history the local file has whole chunks of the file, an
attempt without a failure succeeds, and a success means that all of the file is there. -/
theorem download_resumes (hdata : p.data ≠ []) {d d' : Disk}
    (hlocal : p.Whole (d.content (localPath p fileIndex))) {as : List Attempt}
    (h : History p fileIndex d as d') (hmeets : ∀ a ∈ as, a.Meets p fileIndex) :
    ∀ a ∈ as, a.Good p fileIndex := by
  suffices hall : p.Whole (d'.content (localPath p fileIndex)) ∧ ∀ a ∈ as, a.Good p fileIndex from
    hall.2
  have hpos : 0 < p.npart := by
    rw [Payload.lt_npart_iff, Nat.zero_mul]
    exact List.length_pos_iff.2 hdata
  induction h with
  | start => exact ⟨hlocal, fun _ hmem => absurd hmem List.not_mem_nil⟩
  | attempt a h hchunk hruns ih =>
    obtain ⟨hwhole, hgood⟩ := ih fun b hb => hmeets b (List.mem_append_left _ hb)
    have hmeets := hmeets a (List.mem_append_right _ List.mem_cons_self)
    have hthis : a.Good p fileIndex := by
      by_cases hzero : a.startChunk = 0
      · refine a.good hmeets ?_ hwhole ?_
        · rw [hzero]
          exact hpos
        · rw [Job.base, hzero, UInt32.toNat_zero, Nat.zero_mul]
          exact if_pos hzero
      · have hmissing := hmeets.missing.resolve_left hzero
        obtain ⟨hlt, htake⟩ := hwhole.resumes hmissing
        have hstart : a.startChunk.toNat =
            (a.before.content (localPath p fileIndex)).length / p.chunkSize.toNat := by
          split at hchunk
          · exact absurd (UInt32.toNat_inj.1 hchunk) hzero
          · exact hchunk
        rw [← hstart] at hlt htake
        refine a.good hmeets hlt hwhole ?_
        rw [Job.base]
        exact (if_neg hzero).trans htake
    refine ⟨hthis.whole, fun b hb => ?_⟩
    rcases List.mem_append.1 hb with hb | hb
    · exact hgood b hb
    · rw [List.mem_singleton.1 hb]
      exact hthis

end Resuming

/-- A file of three bytes in chunks of two. -/
def threeBytes : Payload where
  name := []
  data := [1, 2, 3]
  chunkSize := 2
  padding := []
  counted := false
  covered := false
  chunkSize_pos := padded.chunkSize_pos
  data_lt := by decide
  fits := by decide

def noFiles : Disk := ⟨fun _ => none, [], 0⟩

/-- The payload answers at once, and a write writes one byte. -/
def cutShort (s : Scene) (c : Call) : c.Reply :=
  match c with
  | .write _ data => if data.length < 2 then Int32.ofNat data.length else 1
  | c => threeBytes.answer s c

theorem cutShort_serves (s : Scene) (c : Call) :
    threeBytes.Serves true true s c (cutShort s c) := by
  cases c with
  | write fd data =>
    show _ ∨ _
    rw [cutShort]
    split
    · rename_i hlt
      refine Or.inl ?_
      rw [Int32.toInt_ofNat_of_lt (by omega), Nat.min_eq_left (by omega)]
    · refine Or.inr ⟨rfl, Or.inr ⟨rfl, ?_⟩⟩
      show (1 : Int) < data.length
      omega
  | _ => exact threeBytes.answer_serves true true s _

/-- An attempt from the start, with these answers. -/
def attemptWith (answer : Scene → (c : Call) → c.Reply) : Attempt where
  link := .i2c
  handle := true
  startChunk := 0
  before := noFiles
  after := (exec honest answer (downloadChildTask .i2c true 3 0) (.start noFiles)).1

theorem attemptWith_runs {answer : Scene → (c : Call) → c.Reply} {fail cut : Bool}
    (h : ∀ s c, threeBytes.Serves fail cut s c (answer s c)) :
    (attemptWith answer).Runs threeBytes 3 fail cut := by
  have hends := ends_exec (W := threeBytes.world fail cut) h (downloadChildTask .i2c true 3 0)
    (.start noFiles)
  rw [exec_congr (show (threeBytes.world fail cut).next = honest.next from rfl)] at hends
  exact hends

theorem history_once (answer : Scene → (c : Call) → c.Reply)
    (h : (attemptWith answer).Runs threeBytes 3 true true) :
    History threeBytes 3 noFiles [attemptWith answer] (attemptWith answer).after.disk :=
  History.attempt (attemptWith answer) .start (if_pos rfl).symm h

theorem download_resumes_once : (attemptWith threeBytes.answer).Good threeBytes 3 := by
  have hruns : ∀ fail cut, (attemptWith threeBytes.answer).Runs threeBytes 3 fail cut :=
    fun fail cut => attemptWith_runs (threeBytes.answer_serves fail cut)
  refine download_resumes (by decide) ⟨0, Nat.zero_le _, rfl⟩ (history_once _ (hruns true true))
    (fun a ha => ?_) _ List.mem_cons_self
  rw [List.mem_singleton.1 ha]
  exact ⟨Nat.lt_of_lt_of_le (Nat.lt_succ_self 2) (by decide), Or.inl rfl, hruns true false, Or.inl rfl⟩

set_option maxRecDepth 10000 in
/-- A write that is cut short leaves half a chunk. -/
theorem cut_content :
    (attemptWith cutShort).after.disk.content (localPath threeBytes 3) = [1] := rfl

theorem cut_not_whole : ¬∀ (p : Payload) fileIndex d as d', History p fileIndex d as d' →
    ∀ a ∈ as, a.Good p fileIndex := by
  intro hall
  have hruns : (attemptWith cutShort).Runs threeBytes 3 true true :=
    attemptWith_runs cutShort_serves
  obtain ⟨n, -, hbytes⟩ :=
    (hall threeBytes 3 noFiles _ _ (history_once _ hruns) _ List.mem_cons_self).whole
  rw [cut_content] at hbytes
  have hlen : 1 = min (n * 2) 3 := (congrArg List.length hbytes).trans List.length_take
  omega

end Pay
end FlightApps
