import FlightApps.Lib.Buffer
import FlightApps.Lib.Cells
import FlightApps.Lib.Layout
import FlightApps.Lib.Records
import FlightApps.Esup.Session

/-!
# Directory listings

`run_dir` of `enduro_stx.c` walks through a reply: a name, a NUL, the length in four bytes, and
again.  It stops at the count that the reply declares, at the end of the buffer for the entries, and
where no complete record follows.  All it reads it reads from the reply, or there is no result.
-/

set_option autoImplicit false

namespace FlightApps
namespace Stx

open Esup (Ret retOk)

/-! ## The reply -/

/-- `STX_NAME_MAX_LEN`. -/
def nameMaxLen : Nat := 30

/-- `STX_DIR_HDR_LEN`. -/
def dirHdrLen : Nat := 4

/-- `STX_ERR_REPLY`. -/
def errReply : Ret := 0x00000300

/-- `stx_dir_entry_t`. -/
structure DirEntry where
  name : Vector UInt8 31
  length : UInt32
deriving DecidableEq

instance : Inhabited DirEntry := ⟨⟨Vector.replicate 31 0, 0⟩⟩

/-- `stx_rep_file_dir_t`; the buffer for the entries may be missing. -/
structure RepFileDir where
  moreFiles : Bool
  count : UInt16
  entriesCap : UInt16
  entries : Option (Vector DirEntry entriesCap.toNat)
  entriesLen : UInt16
deriving DecidableEq

/-- The loop over a name, from `p` on with `n` bytes left. -/
def endOfName (data : List UInt8) : Nat → Nat → Option Nat
  | 0, p => some p
  | n + 1, p => do
    let b ← data[p]?
    if b = 0 then some p else endOfName data n (p + 1)

/-- The entry with a name and a length, over what it held. -/
def DirEntry.put (e : DirEntry) (name : List UInt8) (copy : Nat) (length : UInt32) : DirEntry :=
  ⟨Cells.set (Cells.copy e.name 0 name) copy 0, length⟩

/-- The loop of `run_dir`, with `parsed` entries and at `p`. -/
def parseEntries (data : List UInt8) (count : UInt16) {cap : Nat} :
    Nat → UInt16 → Nat → Vector DirEntry cap → Option (UInt16 × Vector DirEntry cap)
  | 0, _, _, _ => none
  | fuel + 1, parsed, p, entries =>
    if parsed < count ∧ parsed.toNat < cap ∧ p < data.length then do
      let start := p
      let p ← endOfName data (data.length - p) p
      if data.length ≤ p then some (parsed, entries)
      else
        let nameLen := p - start
        let p := p + 1
        if data.length < p + 4 then some (parsed, entries)
        else
          let copy := if nameLen ≤ nameMaxLen then nameLen else nameMaxLen
          let name ← Buffer.load data start copy
          let length ← Buffer.load data p 4
          let e := (Cells.get entries parsed.toNat).put name copy (Layout.u32.read length)
          parseEntries data count fuel (parsed + 1) (p + 4) (Cells.set entries parsed.toNat e)
    else some (parsed, entries)

/-- `run_dir`, where the transaction ends with `rc` and the reply is `data`. -/
def runDir (rc : Ret) (data : List UInt8) (rep : RepFileDir) : Option (Ret × RepFileDir) :=
  if rc ≠ retOk then some (rc, rep)
  else if data.length < dirHdrLen then some (errReply, rep)
  else do
    let flag : UInt8 ← data[1]?
    let count ← Buffer.load data 2 2
    let rep := { rep with moreFiles := flag != 0, count := Layout.u16.read count }
    match rep.entries with
    | none =>
      let r ← parseEntries data rep.count (data.length + 1) 0 dirHdrLen
        (Vector.replicate 0 default)
      some (retOk, { rep with entriesLen := r.1 })
    | some entries =>
      let r ← parseEntries data rep.count (data.length + 1) 0 dirHdrLen entries
      some (retOk, { rep with entries := some r.2, entriesLen := r.1 })

/-! ## Records of a reply -/

/-- A file, as a reply has it: a name without a NUL, and a length. -/
structure File where
  name : List UInt8
  named : 0 ∉ name
  length : UInt32

def File.bytes (f : File) : List UInt8 := f.name ++ 0 :: Layout.u32.bytes f.length

/-- The entry of a file, over what it held. -/
def DirEntry.fill (e : DirEntry) (f : File) : DirEntry :=
  e.put (f.name.take nameMaxLen) (min f.name.length nameMaxLen) f.length

/-- The name of an entry, up to the NUL. -/
def DirEntry.text (e : DirEntry) : List UInt8 := e.name.toList.takeWhile (· ≠ 0)

section Records

variable {data s : List UInt8} {f : File} {n p : Nat}

theorem takeWhile_name {name : List UInt8} (h : 0 ∉ name) (tail : List UInt8) :
    (name ++ 0 :: tail).takeWhile (· ≠ 0) = name := by
  rw [List.takeWhile_append_of_pos, List.takeWhile_cons_of_neg (by simp), List.append_nil]
  intro b hb
  exact decide_eq_true fun hzero => h (hzero ▸ hb)

theorem File.length_bytes (f : File) : f.bytes.length = f.name.length + 5 := by
  rw [bytes, List.length_append, List.length_cons, Layout.u32.length_bytes]
  rfl

theorem File.bytes_ne_nil (f : File) : f.bytes ≠ [] := by
  rw [← List.length_pos_iff, length_bytes]
  omega

/-- **No record is the beginning of another.** -/
theorem prefixFree_bytes : Records.PrefixFree File.bytes := by
  intro f f' xs ys heq
  rw [File.bytes, File.bytes, List.append_assoc, List.append_assoc, List.cons_append,
    List.cons_append] at heq
  have hname : f.name = f'.name := by
    rw [← takeWhile_name f.named (Layout.u32.bytes f.length ++ xs), heq, takeWhile_name f'.named]
  rw [hname] at heq
  have htail := (List.cons.inj (List.append_cancel_left heq)).2
  obtain ⟨hlength, hrest⟩ := List.append_inj htail
    ((Layout.u32.length_bytes _).trans (Layout.u32.length_bytes _).symm)
  have hread := Layout.u32.read_bytes f.length []
  rw [hlength, Layout.u32.read_bytes] at hread
  refine ⟨?_, hrest⟩
  cases f
  cases f'
  cases hname
  cases hread
  rfl

/-- **The loop over a name** stops at its NUL, or at the end. -/
theorem endOfName_spec (h : p + n = data.length) :
    endOfName data n p = some (p + ((data.drop p).takeWhile (· ≠ 0)).length) := by
  induction n generalizing p with
  | zero =>
    rw [endOfName, List.drop_eq_nil_of_le (by omega)]
    rfl
  | succ n ih =>
    have hp : p < data.length := by omega
    rw [endOfName, List.getElem?_eq_getElem hp, List.drop_eq_getElem_cons hp]
    dsimp only [Option.bind_eq_bind, Option.bind_some]
    by_cases hb : data[p] = 0
    · rw [if_pos hb, List.takeWhile_cons_of_neg (by simpa using hb)]
      rfl
    · rw [if_neg hb, List.takeWhile_cons_of_pos (by simpa using hb), ih (by omega),
        List.length_cons]
      congr 1
      omega

/-- The name that has been written is the name of the file. -/
theorem DirEntry.text_fill (e : DirEntry) (f : File) :
    (e.fill f).text = f.name.take nameMaxLen ∧ (e.fill f).length = f.length := by
  refine ⟨?_, rfl⟩
  have hlen : (f.name.take nameMaxLen).length = min f.name.length nameMaxLen := by
    rw [List.length_take, Nat.min_comm]
  have hroom : min f.name.length nameMaxLen < 31 :=
    Nat.lt_of_le_of_lt (Nat.min_le_right _ _) (by decide)
  generalize hname : Cells.copy e.name 0 (f.name.take nameMaxLen) = name
  have hcopy : name.toList.take (min f.name.length nameMaxLen) = f.name.take nameMaxLen := by
    have htake := Cells.take_copy e.name 0 (f.name.take nameMaxLen)
      (by rw [hlen, Nat.zero_add]; exact Nat.le_of_lt hroom)
    rwa [Nat.zero_add, List.take_zero, List.nil_append, hlen, hname] at htake
  have hset := Cells.take_set name (0 : UInt8) hroom
  rw [hcopy] at hset
  have hsplit := List.take_append_drop (min f.name.length nameMaxLen + 1)
    (Cells.set name (min f.name.length nameMaxLen) (0 : UInt8)).toList
  rw [hset, List.append_assoc, List.singleton_append] at hsplit
  rw [text, fill, put, hname]
  dsimp only
  rw [← hsplit]
  exact takeWhile_name (fun hmem => f.named (List.mem_of_mem_take hmem)) _

end Records

/-! ## The loop -/

/-- The entries from `i` on are those of the files. -/
def fillFrom {cap : Nat} (entries : Vector DirEntry cap) : Nat → List File → Vector DirEntry cap
  | _, [] => entries
  | i, f :: fs => fillFrom (Cells.set entries i ((Cells.get entries i).fill f)) (i + 1) fs

section Loop

variable {data rest : List UInt8} {count parsed : UInt16} {cap fuel p : Nat}
  {entries : Vector DirEntry cap} {f : File} {fs : List File}

theorem get_fillFrom {i : Nat} (h : i + fs.length ≤ cap) (j : Nat) :
    Cells.get (fillFrom entries i fs) j =
      match if i ≤ j then fs[j - i]? else none with
      | some f => (Cells.get entries j).fill f
      | none => Cells.get entries j := by
  induction fs generalizing i entries with
  | nil => simp [fillFrom]
  | cons f fs ih =>
    rw [List.length_cons] at h
    rw [fillFrom, ih (by omega)]
    rcases Nat.lt_trichotomy j i with hlt | rfl | hgt
    · rw [if_neg (by omega), if_neg (by omega)]
      exact Cells.get_set_ne _ (by omega) _
    · rw [if_neg (by omega), if_pos (Nat.le_refl _), Nat.sub_self]
      exact Cells.get_set_self _ (by omega) _
    · have hstep : j - i = j - (i + 1) + 1 := by omega
      rw [if_pos (by omega), if_pos (by omega), hstep, List.getElem?_cons_succ,
        Cells.get_set_ne _ (by omega)]

/-- What a complete record says about the reply. -/
theorem drop_record (hdrop : data.drop p = f.bytes ++ rest) :
    p + f.bytes.length ≤ data.length ∧
      endOfName data (data.length - p) p = some (p + f.name.length) ∧
      data.drop (p + f.name.length + 1) = Layout.u32.bytes f.length ++ rest ∧
      data.drop (p + f.bytes.length) = rest := by
  have hlen := congrArg List.length hdrop
  rw [List.length_drop, List.length_append, f.length_bytes] at hlen
  refine ⟨by rw [f.length_bytes]; omega, ?_, ?_, ?_⟩
  · rw [endOfName_spec (by omega), hdrop, File.bytes, List.append_assoc, List.cons_append,
      takeWhile_name f.named]
  · rw [Nat.add_assoc, ← List.drop_drop, hdrop, File.bytes, List.append_assoc, List.cons_append,
      ← List.drop_drop, List.drop_left]
    rfl
  · rw [← List.drop_drop, hdrop, List.drop_left]

/-- **A complete record** is taken off. -/
theorem parse_record (hdrop : data.drop p = f.bytes ++ rest) (hcount : parsed < count)
    (hroom : parsed.toNat < cap) :
    parseEntries data count (fuel + 1) parsed p entries =
      parseEntries data count fuel (parsed + 1) (p + f.bytes.length)
        (Cells.set entries parsed.toNat ((Cells.get entries parsed.toNat).fill f)) := by
  obtain ⟨hle, hend, hlength, -⟩ := drop_record hdrop
  rw [f.length_bytes] at hle
  have hcopy : (if f.name.length ≤ nameMaxLen then f.name.length else nameMaxLen) =
      min f.name.length nameMaxLen := rfl
  have hname : Buffer.load data p (min f.name.length nameMaxLen) =
      some (f.name.take nameMaxLen) := by
    have hmin : min f.name.length nameMaxLen ≤ f.name.length := Nat.min_le_left _ _
    rw [Buffer.load_eq (by omega), hdrop, File.bytes, List.append_assoc,
      List.take_append_of_le_length hmin, Nat.min_comm, ← List.take_take, List.take_length]
  have hword : Buffer.load data (p + f.name.length + 1) 4 =
      some (Layout.u32.bytes f.length) := by
    rw [Buffer.load_eq (by omega), hlength]
    exact congrArg some (List.take_left' (Layout.u32.length_bytes _))
  have hread : Layout.u32.read (Layout.u32.bytes f.length) = f.length := by
    have hread := Layout.u32.read_bytes f.length []
    rwa [List.append_nil] at hread
  rw [parseEntries, if_pos ⟨hcount, hroom, by omega⟩]
  simp only [hend, Option.bind_eq_bind, Option.bind_some]
  rw [if_neg (by omega), if_neg (by omega), Nat.add_sub_cancel_left, hcopy, hname]
  simp only [hword, Option.bind_some, hread]
  rw [f.length_bytes]
  rfl

/-- A name, its NUL and four bytes are a record. -/
theorem exists_record (h : p + ((data.drop p).takeWhile (· ≠ 0)).length + 1 + 4 ≤ data.length) :
    ∃ f rest, data.drop p = File.bytes f ++ rest := by
  have hnot : 0 ∉ (data.drop p).takeWhile (· ≠ 0) := fun hmem => by
    have hne := List.all_eq_true.1 List.all_takeWhile 0 hmem
    simp at hne
  have hsplit := List.takeWhile_append_dropWhile (p := (· ≠ 0)) (l := data.drop p)
  have hlen := congrArg List.length hsplit
  rw [List.length_append, List.length_drop] at hlen
  cases hnul : (data.drop p).dropWhile (· ≠ 0) with
  | nil =>
    rw [hnul, List.length_nil] at hlen
    omega
  | cons b tail =>
    have hb : b = 0 := by
      have hhead := List.head?_dropWhile_not (· ≠ 0) (data.drop p)
      rw [hnul] at hhead
      simpa using hhead
    subst hb
    rw [hnul, List.length_cons] at hlen
    have hword : Layout.u32.bytes (Layout.u32.read (tail.take 4)) = tail.take 4 :=
      Layout.full_u32 _ (by rw [List.length_take]; show min 4 _ = 4; omega)
    refine ⟨⟨_, hnot, Layout.u32.read (tail.take 4)⟩, tail.drop 4, ?_⟩
    rw [File.bytes, hword, List.append_assoc, List.cons_append, List.take_append_drop, ← hnul,
      hsplit]

/-- Where no complete record follows, the loop ends. -/
theorem parse_stop (hstop : ∀ f rest, data.drop p ≠ File.bytes f ++ rest) :
    parseEntries data count (fuel + 1) parsed p entries = some (parsed, entries) := by
  rw [parseEntries]
  split
  · rename_i hgo
    obtain ⟨-, -, hp⟩ := hgo
    rw [endOfName_spec (by omega)]
    simp only [Option.bind_eq_bind, Option.bind_some]
    split
    · rfl
    rename_i hnul
    split
    · rfl
    rename_i hlength
    obtain ⟨f, rest, hrecord⟩ := @exists_record data p (by omega)
    exact absurd hrecord (hstop f rest)
  · rfl

/-- **The loop takes off the records that the reply starts with**, as far as there is room. -/
theorem parse_leading (h : Records.Leading File.bytes (data.drop p) fs rest)
    (hfuel : fs.length < fuel) :
    ∃ k, k = min fs.length (min (count.toNat - parsed.toNat) (cap - parsed.toNat)) ∧
      parseEntries data count fuel parsed p entries =
        some (parsed + UInt16.ofNat k, fillFrom entries parsed.toNat (fs.take k)) := by
  induction fs generalizing fuel parsed p entries with
  | nil =>
    obtain ⟨fuel, rfl⟩ := Nat.exists_eq_add_one_of_ne_zero (Nat.ne_of_gt hfuel)
    refine ⟨0, by simp, ?_⟩
    rw [parse_stop (h.eq ▸ h.stops)]
    simp [fillFrom]
  | cons f fs ih =>
    obtain ⟨s, hdrop, htail⟩ := h.tail
    obtain ⟨fuel, rfl⟩ := Nat.exists_eq_add_one_of_ne_zero (Nat.ne_of_gt (Nat.zero_lt_of_lt hfuel))
    by_cases hgo : parsed < count ∧ parsed.toNat < cap
    · obtain ⟨hcount, hroom⟩ := hgo
      have hlt := UInt16.lt_iff_toNat_lt.1 hcount
      have hmax := count.toNat_lt
      have hnext : (parsed + 1).toNat = parsed.toNat + 1 := by
        rw [UInt16.toNat_add, UInt16.toNat_one, Nat.mod_eq_of_lt (by omega)]
      rw [parse_record hdrop hcount hroom]
      rw [← (drop_record hdrop).2.2.2] at htail
      obtain ⟨k, hk, heq⟩ := @ih (parsed + 1) fuel _
        (Cells.set entries parsed.toNat ((Cells.get entries parsed.toNat).fill f)) htail
        (Nat.lt_of_succ_lt_succ hfuel)
      refine ⟨k + 1, ?_, ?_⟩
      · rw [hnext] at hk
        rw [List.length_cons]
        omega
      · rw [heq, hnext, List.take_succ_cons, fillFrom, UInt16.ofNat_add, UInt16.add_assoc,
          UInt16.add_comm 1]
        rfl
    · refine ⟨0, ?_, ?_⟩
      · rw [UInt16.lt_iff_toNat_lt] at hgo
        omega
      · rw [parseEntries, if_neg fun hall => hgo ⟨hall.1, hall.2.1⟩]
        simp [fillFrom]

end Loop

/-! ## What a listing holds -/

namespace RepFileDir

variable (rep : RepFileDir)

/-- How many entries there is room for. -/
def room : Nat := if rep.entries.isSome then rep.entriesCap.toNat else 0

/-- The entry at a place of the buffer. -/
def entry (j : Nat) : Option DirEntry := rep.entries.bind fun entries => entries[j]?

end RepFileDir

/-- The listing holds the files, as many as it declares and has room for, and the rest of the buffer
is what it was. -/
structure Lists (data : List UInt8) (fs : List File) (rep rep' : RepFileDir) : Prop where
  moreFiles : rep'.moreFiles = (data.getD 1 0 != 0)
  count : rep'.count = Layout.u16.read (data.drop 2)
  entriesLen : rep'.entriesLen.toNat = min fs.length (min rep'.count.toNat rep.room)
  listed : ∀ j f, j < rep'.entriesLen.toNat → fs[j]? = some f →
    ∃ e, rep'.entry j = some e ∧ e.text = f.name.take nameMaxLen ∧ e.length = f.length
  kept : ∀ j, rep'.entriesLen.toNat ≤ j → rep'.entry j = rep.entry j

section Listing

variable {data rest : List UInt8} {rep : RepFileDir} {fs : List File}

theorem length_le_flatMap (fs : List File) : fs.length ≤ (fs.flatMap File.bytes).length := by
  induction fs with
  | nil => exact Nat.le_refl 0
  | cons f fs ih =>
    rw [List.flatMap_cons, List.length_append, f.length_bytes, List.length_cons]
    omega

/-- **What the loop leaves** in a buffer for entries. -/
theorem parse_lists (h : Records.Leading File.bytes (data.drop dirHdrLen) fs rest) {cap : Nat}
    (hcap : cap < 65536) (count : UInt16) (entries : Vector DirEntry cap) :
    ∃ n entries', parseEntries data count (data.length + 1) 0 dirHdrLen entries =
        some (n, entries') ∧ n.toNat = min fs.length (min count.toNat cap) ∧
      (∀ j f, j < n.toNat → fs[j]? = some f →
        ∃ e, entries'[j]? = some e ∧ e.text = f.name.take nameMaxLen ∧ e.length = f.length) ∧
      ∀ j, n.toNat ≤ j → entries'[j]? = entries[j]? := by
  have hfuel : fs.length < data.length + 1 := by
    have hlen := congrArg List.length h.eq
    rw [List.length_append, List.length_drop] at hlen
    have hle := length_le_flatMap fs
    omega
  obtain ⟨k, hk, heq⟩ := @parse_leading data rest count 0 cap _ dirHdrLen entries fs h hfuel
  rw [UInt16.toNat_zero, Nat.sub_zero, Nat.sub_zero] at hk
  have hn : (0 + UInt16.ofNat k : UInt16).toNat = k := by
    rw [UInt16.zero_add, UInt16.toNat_ofNat', Nat.mod_eq_of_lt (by omega)]
  have hget : ∀ {j : Nat} (v : Vector DirEntry cap) (hj : j < cap), v[j]? = some (Cells.get v j) :=
    fun v hj => by rw [Cells.get_eq_getElem v hj, Vector.getElem?_eq_getElem hj]
  have hlength : (fs.take k).length = k := by
    rw [List.length_take]
    omega
  have hfill := fun j => @get_fillFrom cap entries (fs.take k) 0 (by omega) j
  refine ⟨_, _, heq, hn.trans hk, fun j f hj hf => ?_, fun j hj => ?_⟩
  · rw [hn] at hj
    refine ⟨_, hget _ (by omega), ?_⟩
    rw [UInt16.toNat_zero, hfill j, if_pos (Nat.zero_le j), Nat.sub_zero,
      List.getElem?_take_of_lt hj, hf]
    exact (Cells.get entries j).text_fill f
  · rw [hn] at hj
    by_cases hroom : j < cap
    · rw [hget _ hroom, hget _ hroom, UInt16.toNat_zero, hfill j, if_pos (Nat.zero_le j),
        Nat.sub_zero, List.getElem?_eq_none (by omega)]
    · rw [Vector.getElem?_eq_none (Nat.le_of_not_lt hroom),
        Vector.getElem?_eq_none (Nat.le_of_not_lt hroom)]

/-- **A reply** is listed. -/
theorem runDir_lists (h : Records.Leading File.bytes (data.drop dirHdrLen) fs rest)
    (hlen : dirHdrLen ≤ data.length) (rep : RepFileDir) :
    ∃ rep', runDir retOk data rep = some (retOk, rep') ∧ Lists data fs rep rep' := by
  have hfour : dirHdrLen = 4 := rfl
  have hflag : data[1]? = some (data.getD 1 0) := by
    rw [List.getD_eq_getElem?_getD, List.getElem?_eq_getElem (by omega), Option.getD_some]
  have hword : Layout.u16.read ((data.drop 2).take 2) = Layout.u16.read (data.drop 2) :=
    congrArg (fun bs => UInt16.ofNat (leNat bs)) (List.take_take.trans rfl)
  obtain ⟨moreFiles, old, cap, entries, len⟩ := rep
  have hcap := cap.toNat_lt
  simp only [runDir, ne_eq, not_true, if_false, if_neg (Nat.not_lt.2 hlen), hflag,
    Buffer.load_eq (show 2 + 2 ≤ data.length from hlen), Option.bind_eq_bind, Option.bind_some,
    hword]
  cases entries with
  | none =>
    obtain ⟨n, entries', heq, hn, -⟩ := parse_lists h (by decide) (Layout.u16.read (data.drop 2))
      (Vector.replicate 0 default)
    rw [Nat.min_zero, Nat.min_zero] at hn
    simp only [heq, Option.bind_some]
    refine ⟨_, rfl, rfl, rfl, hn.trans ?_, fun j f hj => ?_, fun j _ => rfl⟩
    · rw [RepFileDir.room, if_neg (by simp), Nat.min_zero, Nat.min_zero]
    · exact absurd (Nat.lt_of_lt_of_eq hj hn) (Nat.not_lt_zero j)
  | some entries =>
    obtain ⟨n, entries', heq, hn, hlisted, hkept⟩ :=
      parse_lists h hcap (Layout.u16.read (data.drop 2)) entries
    simp only [heq, Option.bind_some]
    exact ⟨_, rfl, rfl, rfl, hn, hlisted, hkept⟩

end Listing

/-- The bytes of a reply with a status, a flag and some files. -/
def dirReply (status flag : UInt8) (fs : List File) : List UInt8 :=
  status :: flag :: Layout.u16.bytes (UInt16.ofNat fs.length) ++ fs.flatMap File.bytes

/-- **The listing of a directory.**  Every reply has a result, so nothing behind it is read.  Without
a reply, or with one that is too short, nothing is changed.  Otherwise the entries are those of the
complete records that the reply starts with, and these are determined; and a reply with some files
is listed with their names and lengths. -/
theorem directory_listing (rc : Ret) (data : List UInt8) (rep : RepFileDir) :
    (∃ r, runDir rc data rep = some r) ∧
    (rc ≠ retOk → runDir rc data rep = some (rc, rep)) ∧
    (rc = retOk → data.length < dirHdrLen → runDir rc data rep = some (errReply, rep)) ∧
    (rc = retOk → dirHdrLen ≤ data.length →
      ∃ fs rest, Records.Leading File.bytes (data.drop dirHdrLen) fs rest ∧
        (∀ fs' rest', Records.Leading File.bytes (data.drop dirHdrLen) fs' rest' →
          fs' = fs ∧ rest' = rest) ∧
        ∃ rep', runDir rc data rep = some (retOk, rep') ∧ Lists data fs rep rep') ∧
    ∀ status flag fs, fs.length < 65536 → (∀ f ∈ fs, f.name.length ≤ nameMaxLen) →
      ∃ rep', runDir retOk (dirReply status flag fs) rep = some (retOk, rep') ∧
        rep'.moreFiles = (flag != 0) ∧ rep'.entriesLen.toNat = min fs.length rep.room ∧
        ∀ j f, j < rep'.entriesLen.toNat → fs[j]? = some f →
          ∃ e, rep'.entry j = some e ∧ e.text = f.name ∧ e.length = f.length := by
  have hfailed : rc ≠ retOk → runDir rc data rep = some (rc, rep) := fun hrc => if_pos hrc
  have hshort : rc = retOk → data.length < dirHdrLen → runDir rc data rep = some (errReply, rep) :=
    fun hrc hlen => by rw [runDir, if_neg (not_not.2 hrc), if_pos hlen]
  have hlists : rc = retOk → dirHdrLen ≤ data.length →
      ∃ fs rest, Records.Leading File.bytes (data.drop dirHdrLen) fs rest ∧
        (∀ fs' rest', Records.Leading File.bytes (data.drop dirHdrLen) fs' rest' →
          fs' = fs ∧ rest' = rest) ∧
        ∃ rep', runDir rc data rep = some (retOk, rep') ∧ Lists data fs rep rep' := by
    rintro rfl hlen
    obtain ⟨fs, rest, h⟩ := Records.exists_leading File.bytes_ne_nil (data.drop dirHdrLen)
    exact ⟨fs, rest, h, fun fs' rest' h' => h'.unique prefixFree_bytes h, runDir_lists h hlen rep⟩
  refine ⟨?_, hfailed, hshort, hlists, fun status flag fs hfew hnames => ?_⟩
  · by_cases hrc : rc = retOk
    · rcases Nat.lt_or_ge data.length dirHdrLen with hlen | hlen
      · exact ⟨_, hshort hrc hlen⟩
      · obtain ⟨-, -, -, -, rep', heq, -⟩ := hlists hrc hlen
        exact ⟨_, heq⟩
    · exact ⟨_, hfailed hrc⟩
  · have hdrop : (dirReply status flag fs).drop dirHdrLen = fs.flatMap File.bytes := rfl
    have hleading : Records.Leading File.bytes ((dirReply status flag fs).drop dirHdrLen) fs [] :=
      ⟨by rw [hdrop, List.append_nil], fun f rest heq =>
        f.bytes_ne_nil (List.append_eq_nil_iff.1 heq.symm).1⟩
    have hlen : dirHdrLen ≤ (dirReply status flag fs).length := by
      show 4 ≤ (fs.flatMap File.bytes).length + 1 + 1 + 1 + 1
      omega
    obtain ⟨rep', heq, hlisted⟩ := runDir_lists hleading hlen rep
    have hdeclared : rep'.count = UInt16.ofNat fs.length := by
      rw [hlisted.count]
      exact Layout.u16.read_bytes _ _
    refine ⟨rep', heq, hlisted.moreFiles, ?_, fun j f hj hf => ?_⟩
    · rw [hlisted.entriesLen, hdeclared, UInt16.toNat_ofNat', Nat.mod_eq_of_lt hfew]
      omega
    · obtain ⟨e, hentry, htext, hlength⟩ := hlisted.listed j f hj hf
      rw [List.take_of_length_le (hnames f (List.mem_of_getElem? hf))] at htext
      exact ⟨e, hentry, htext, hlength⟩

end Stx
end FlightApps
