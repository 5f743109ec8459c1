import FlightApps.Meow.Files

/-!
# What a copy and a move leave behind

While a file is copied there is one new file, with a part of the source (`Copying`); whatever happens
then, only that file is touched (`Stands`), and it is deleted unless the copy is whole.
`copies_keep_data` puts this together for both functions.
-/

set_option autoImplicit false

namespace FlightApps
namespace Meow

open Script FileSystem

variable {lossless : Bool} {unlinks : Path → Bool} {fs s : FileSystem} {src dst : Path}
  {srcFd dstFd : Nat}

theorem next_read {fd size : Nat} {f : OpenFile} (hf : s.fds fd = some f) (bytes : List UInt8) :
    (world lossless unlinks).next s (.read fd size) (.ok bytes) = s.advanced fd bytes.length f := by
  simp [world, next, hf]

theorem next_write {fd n : Nat} {f : OpenFile} (hf : s.fds fd = some f) (data : List UInt8) :
    (world lossless unlinks).next s (.write fd data) (.ok n) = s.written fd f (data.take n) := by
  simp [world, next, hf]

theorem unlinked_self (s : FileSystem) (path : Path) : (s.unlinked path).file path = none := by
  simp [file, FileSystem.unlinked]

theorem unlinked_other (s : FileSystem) {path path' : Path} (hne : path' ≠ path) :
    (s.unlinked path).file path' = s.file path' := by
  simp [file, FileSystem.unlinked, Function.update_of_ne hne]

/-! ## During the copy -/

/-- What is there before the loop: the source, the descriptors and the inode of the new file. -/
structure Setting where
  source : Nat
  srcFd : Nat
  dstFd : Nat
  inode : Nat

/-- The source is there, and the new file is a new one. -/
structure Setting.Fits (t : Setting) (fs : FileSystem) (src dst : Path) : Prop where
  source : fs.names src = some t.source
  absent : fs.names dst = none
  fresh : ∀ path, fs.names path ≠ some t.inode
  apart : t.srcFd ≠ t.dstFd

theorem Setting.Fits.inodes {t : Setting} (h : t.Fits fs src dst) : t.source ≠ t.inode :=
  fun heq => h.fresh src (h.source.trans (congrArg some heq))

theorem Setting.Fits.paths {t : Setting} (h : t.Fits fs src dst) : src ≠ dst := by
  rintro rfl
  exact Option.some_ne_none _ (h.source.symm.trans h.absent)

/-- There is one new file, with these bytes. -/
structure Stands (t : Setting) (fs : FileSystem) (dst : Path) (bytes : List UInt8)
    (s : FileSystem) : Prop where
  names : s.names = Function.update fs.names dst (some t.inode)
  content : s.content = Function.update fs.content t.inode bytes

/-- The descriptors are open. -/
structure Copying (t : Setting) (fs : FileSystem) (dst : Path) (bytes : List UInt8)
    (n : Nat) (s : FileSystem) : Prop where
  stands : Stands t fs dst bytes s
  reading : s.fds t.srcFd = some ⟨t.source, n, false⟩
  writing : s.fds t.dstFd = some ⟨t.inode, bytes.length, true⟩

variable {t : Setting} {bytes : List UInt8} {n : Nat}

/-- The source can be read as it was. -/
theorem Copying.source (h : Copying t fs dst bytes n s) (ht : t.Fits fs src dst) :
    s.content t.source = fs.content t.source := by
  rw [h.stands.content, Function.update_of_ne ht.inodes]

theorem Copying.read (h : Copying t fs dst bytes n s) (ht : t.Fits fs src dst) (m : Nat) :
    Copying t fs dst bytes (n + m) (s.advanced t.srcFd m ⟨t.source, n, false⟩) where
  stands := ⟨h.stands.names, h.stands.content⟩
  reading := Function.update_self ..
  writing := (Function.update_of_ne ht.apart.symm ..).trans h.writing

theorem Copying.wrote (h : Copying t fs dst bytes n s) (ht : t.Fits fs src dst)
    (data : List UInt8) :
    Copying t fs dst (bytes ++ data) n
      (s.written t.dstFd ⟨t.inode, bytes.length, true⟩ data) where
  stands := by
    refine ⟨h.stands.names, ?_⟩
    have hpast : bytes.drop (bytes.length + data.length) = [] :=
      List.drop_eq_nil_of_le (Nat.le_add_right _ _)
    simp [FileSystem.written, h.stands.content, hpast]
  reading := (Function.update_of_ne ht.apart ..).trans h.reading
  writing := by simp [FileSystem.written, FileSystem.advanced, FileSystem.opened]

/-- **The loop.**  It ends, and if it ends well the new file has all that is left to read. -/
theorem wp_copyLoop (ht : t.Fits fs src dst) {fuel : Nat} (h : Copying t fs dst bytes n s)
    (hfuel : ((fs.content t.source).drop n).length < fuel) :
    wp (world lossless unlinks)
      (fun ret s => ret ≠ none ∧ ∃ bytes' n', Copying t fs dst bytes' n' s ∧
        (ret = some .ok → bytes' = bytes ++ (fs.content t.source).drop n))
      (copyLoop t.srcFd t.dstFd fuel) s := by
  induction fuel generalizing n bytes s with
  | zero => exact absurd hfuel (Nat.not_lt_zero _)
  | succ fuel ih =>
    rw [copyLoop]
    rintro (e | buf) hread
    · exact ⟨Option.some_ne_none _, _, _, h, fun hok => by cases hok⟩
    obtain ⟨f, hf, -, hbegins, hend⟩ := hread
    obtain rfl := Option.some.inj (h.reading.symm.trans hf)
    rw [next_read h.reading]
    rw [h.source ht] at hbegins hend
    cases buf with
    | nil => exact ⟨Option.some_ne_none _, _, _, h.read ht 0, fun _ => by simp [hend rfl]⟩
    | cons b buf =>
      have hmore := h.read ht (b :: buf).length
      rintro (e | m) hwrite
      · exact ⟨Option.some_ne_none _, _, _, hmore, fun hok => by cases hok⟩
      rw [next_write hmore.writing]
      have hwrote := hmore.wrote ht ((b :: buf).take m)
      dsimp only
      split
      · exact ⟨Option.some_ne_none _, _, _, hwrote, fun hok => by cases hok⟩
      · rename_i hm
        rw [List.take_of_length_le (Nat.le_of_eq (Decidable.not_not.1 hm).symm)] at hwrote ⊢
        obtain ⟨rest, hrest⟩ := hbegins
        have hleft : (fs.content t.source).drop (n + (b :: buf).length) = rest := by
          rw [← List.drop_drop, ← hrest, List.drop_left]
        have hshort : ((fs.content t.source).drop (n + (b :: buf).length)).length < fuel := by
          rw [hleft]
          rw [← hrest, List.length_append, List.length_cons] at hfuel
          omega
        refine wp_mono (ih hwrote hshort) fun ret s' => ?_
        rintro ⟨hret, bytes', n', hcopying, hwhole⟩
        refine ⟨hret, bytes', n', hcopying, fun hok => ?_⟩
        rw [hwhole hok, hleft, List.append_assoc, hrest]

/-! ## After the copy -/

/-- How a copy ends. -/
structure CopyEnds (lossless : Bool) (unlinks : Path → Bool) (fs : FileSystem) (src dst : Path)
    (ret : Option FileRet) (s : FileSystem) : Prop where
  settled : ret ≠ none
  source : s.file src = fs.file src
  ok : ret = some .ok → src ≠ dst ∧ fs.names dst = none ∧
    ∃ c, fs.file src = some c ∧ (lossless = true → s.file dst = some c)
  error : ret ≠ some .ok → unlinks dst = true → s.file dst = fs.file dst

/-- Nothing has been created. -/
theorem CopyEnds.same {ret : FileRet} (hret : ret ≠ .ok) (hnames : s.names = fs.names)
    (hcontent : s.content = fs.content) : CopyEnds lossless unlinks fs src dst (some ret) s where
  settled := Option.some_ne_none _
  source := by rw [file, file, hnames, hcontent]
  ok := fun h => absurd (Option.some.inj h) hret
  error := fun _ _ => by rw [file, file, hnames, hcontent]

/-- A descriptor that was not opened for writing is closed. -/
theorem closed_reading {fd : Nat} {f : OpenFile} (hf : s.fds fd = some f) (hw : f.writing = false)
    (r : Closing) :
    (s.next (.close fd) r).names = s.names ∧ (s.next (.close fd) r).content = s.content ∧
      ∀ fd', fd' ≠ fd → (s.next (.close fd) r).fds fd' = s.fds fd' := by
  cases r with
  | done => exact ⟨rfl, rfl, fun fd' hne => Function.update_of_ne hne ..⟩
  | failed left =>
    have hnext : s.next (.close fd) (.failed left) = s.closedWith fd f left := by
      simp [next, hf]
    rw [hnext]
    exact ⟨rfl, by simp [closedWith, hw], fun fd' hne => Function.update_of_ne hne ..⟩

/-- The new file is closed. -/
theorem Stands.closed (h : Stands t fs dst bytes s)
    (hwriting : s.fds t.dstFd = some ⟨t.inode, n, true⟩) (r : Closing)
    (hr : Allows lossless unlinks s (.close t.dstFd) r) :
    ∃ left, Stands t fs dst left (s.next (.close t.dstFd) r) ∧ (lossless = true → left = bytes) := by
  cases r with
  | done => exact ⟨bytes, ⟨h.names, h.content⟩, fun _ => rfl⟩
  | failed left =>
    refine ⟨left, ⟨?_, ?_⟩, fun hlossless => ?_⟩
    · simp [next, hwriting, closedWith, FileSystem.closed, h.names]
    · simp [next, hwriting, closedWith, h.content]
    · rw [hr _ hwriting hlossless, h.content, Function.update_self]

theorem Stands.source (h : Stands t fs dst bytes s) (ht : t.Fits fs src dst) :
    s.file src = fs.file src := by
  rw [file, file, h.names, h.content, Function.update_of_ne ht.paths, ht.source, Option.map_some,
    Option.map_some, Function.update_of_ne ht.inodes]

theorem Stands.target (h : Stands t fs dst bytes s) : s.file dst = some bytes := by
  rw [file, h.names, h.content, Function.update_self, Option.map_some, Function.update_self]

/-- **The end of a copy.** -/
theorem wp_finishCopy (ht : t.Fits fs src dst) {ret : Option FileRet} (hret : ret ≠ none)
    (h : Copying t fs dst bytes n s)
    (hwhole : ret = some .ok → bytes = fs.content t.source) :
    wp (world lossless unlinks) (CopyEnds lossless unlinks fs src dst)
      (finishCopy t.srcFd t.dstFd dst ret) s := by
  rw [finishCopy]
  intro r hr r' hr'
  obtain ⟨hnames, hcontent, hfds⟩ := closed_reading h.reading rfl r
  have hstands : Stands t fs dst bytes (s.next (.close t.srcFd) r) :=
    ⟨hnames.trans h.stands.names, hcontent.trans h.stands.content⟩
  obtain ⟨left, hleft, hlost⟩ :=
    hstands.closed ((hfds _ ht.apart.symm).trans h.writing) r' hr'
  have hsource := hleft.source ht
  split
  · rename_i hne
    rintro (e | ⟨⟨⟩⟩) hunlink
    · exact ⟨hret, hsource, fun hok => absurd hok hne,
        fun _ hun => Bool.noConfusion (hun.symm.trans hunlink)⟩
    · refine ⟨hret, ?_, fun hok => absurd hok hne, fun _ _ => ?_⟩
      · exact (unlinked_other _ ht.paths).trans hsource
      · exact (unlinked_self _ dst).trans (by rw [file, ht.absent, Option.map_none])
  · rename_i hok
    have hok : ret = some .ok := Decidable.not_not.1 hok
    have hsrc : fs.file src = some (fs.content t.source) := by
      rw [file, ht.source, Option.map_some]
    refine ⟨hret, hsource, fun _ => ⟨ht.paths, ht.absent, _, hsrc, fun hlossless => ?_⟩,
      fun hne => absurd hok hne⟩
    rw [hlost hlossless, hwhole hok] at hleft
    exact hleft.target

/-- **A copy.** -/
theorem wp_meowFileCopy {fuel : Nat} (hfuel : ∀ c, fs.file src = some c → c.length < fuel) :
    wp (world lossless unlinks) (CopyEnds lossless unlinks fs src dst)
      (meowFileCopy fuel (some src) (some dst)) fs := by
  rw [meowFileCopy]
  rintro (e | mode) -
  · exact .same (by decide) rfl rfl
  rintro (e | srcFd) hopen
  · exact .same (by decide) rfl rfl
  obtain ⟨source, hsource⟩ : ∃ source, fs.names src = some source :=
    Option.ne_none_iff_exists'.1 hopen.1
  have hnext : (world lossless unlinks).next fs (.openRead src) (.ok srcFd) =
      fs.opened srcFd ⟨source, 0, false⟩ := by
    simp [world, next, hsource]
  have hfd : (fs.opened srcFd ⟨source, 0, false⟩).fds srcFd = some ⟨source, 0, false⟩ :=
    Function.update_self ..
  show wp _ _ _ ((world lossless unlinks).next fs (.openRead src) (.ok srcFd))
  rw [hnext]
  rintro (e | ⟨dstFd, inode⟩) hnew
  · intro r hr
    obtain ⟨hnames, hcontent, -⟩ := closed_reading hfd rfl r
    refine .same ?_ hnames hcontent
    split <;> decide
  · obtain ⟨habsent, hfree, hfresh, -⟩ := hnew
    have hapart : srcFd ≠ dstFd := by
      rintro rfl
      exact Option.some_ne_none _ (hfd.symm.trans hfree)
    have ht : Setting.Fits ⟨source, srcFd, dstFd, inode⟩ fs src dst :=
      ⟨hsource, habsent, hfresh, hapart⟩
    have hcopying : Copying ⟨source, srcFd, dstFd, inode⟩ fs dst [] 0
        ((fs.opened srcFd ⟨source, 0, false⟩).created dst dstFd inode) :=
      ⟨⟨rfl, rfl⟩, (Function.update_of_ne hapart ..).trans hfd, Function.update_self ..⟩
    have hlength : (fs.content source).length < fuel :=
      hfuel _ (by rw [file, hsource, Option.map_some])
    refine wp_bind.2 (wp_mono (wp_copyLoop ht hcopying hlength) fun ret s => ?_)
    rintro ⟨hret, bytes', n', hcopying, hwhole⟩
    exact wp_finishCopy ht hret hcopying hwhole

/-! ## A move -/

/-- How a move ends. -/
structure MoveEnds (lossless : Bool) (unlinks : Path → Bool) (fs : FileSystem) (src dst : Path)
    (ret : Option FileRet) (s : FileSystem) : Prop where
  settled : ret ≠ none
  ok : ret = some .ok → ∃ c, fs.file src = some c ∧ (lossless = true → s.file dst = some c)
  gone : ret = some .ok → fs.names src ≠ fs.names dst → s.file src = none
  source : ret ≠ some .ok → s.file src = fs.file src
  error : ret ≠ some .ok → unlinks dst = true → lossless = true → s.file dst = fs.file dst ∨
    ∃ c, fs.file src = some c ∧ s.file dst = some c

theorem moveEnds_renamed (hsrc : fs.names src ≠ none) :
    MoveEnds lossless unlinks fs src dst (some .ok) (fs.renamed src dst) where
  settled := Option.some_ne_none _
  ok := by
    obtain ⟨inode, hinode⟩ := Option.ne_none_iff_exists'.1 hsrc
    refine fun _ => ⟨fs.content inode, by simp [file, hinode], fun _ => ?_⟩
    rw [renamed]
    split
    · rename_i heq
      rw [file, ← heq, hinode, Option.map_some]
    · rename_i hne
      have hpaths : dst ≠ src := fun heq => hne (by rw [heq])
      simp [file, Function.update_of_ne hpaths, hinode]
  gone := fun _ hne => by simp [renamed, hne, file]
  source := fun h => absurd rfl h
  error := fun h => absurd rfl h

theorem moveEnds_of_copy {ret : Option FileRet} (hret : ret ≠ some .ok)
    (h : CopyEnds lossless unlinks fs src dst ret s) : MoveEnds lossless unlinks fs src dst ret s where
  settled := h.settled
  ok := fun hok => absurd hok hret
  gone := fun hok => absurd hok hret
  source := fun _ => h.source
  error := fun _ hun _ => Or.inl (h.error hret hun)

/-- The source of a copy is deleted. -/
theorem wp_finishMove {ret : Option FileRet} (h : CopyEnds lossless unlinks fs src dst ret s) :
    wp (world lossless unlinks) (MoveEnds lossless unlinks fs src dst) (finishMove src ret) s := by
  rw [finishMove]
  split
  · rename_i hret
    exact moveEnds_of_copy hret h
  · rename_i hok
    obtain ⟨hpaths, -, c, hc, htarget⟩ := h.ok (Decidable.not_not.1 hok)
    rintro (e | ⟨⟨⟩⟩) hunlink
    · have hret : some FileRet.errOp ≠ some .ok := by decide
      exact ⟨Option.some_ne_none _, fun hok => absurd hok hret, fun hok => absurd hok hret,
        fun _ => h.source, fun _ _ hlossless => Or.inr ⟨c, hc, htarget hlossless⟩⟩
    · have hdst : (s.unlinked src).file dst = s.file dst := unlinked_other s hpaths.symm
      exact ⟨Option.some_ne_none _, fun _ => ⟨c, hc, fun hlossless => hdst.trans (htarget hlossless)⟩,
        fun _ _ => unlinked_self s src, fun h => absurd rfl h,
        fun h => absurd rfl h⟩

/-- **A move.** -/
theorem wp_meowFileMove {fuel : Nat} (hfuel : ∀ c, fs.file src = some c → c.length < fuel) :
    wp (world lossless unlinks) (MoveEnds lossless unlinks fs src dst)
      (meowFileMove fuel (some src) (some dst)) fs := by
  rw [meowFileMove]
  rintro (e | ⟨⟨⟩⟩) hrename
  · have hfails : CopyEnds lossless unlinks fs src dst (some .errOp) fs := .same (by decide) rfl rfl
    dsimp only
    split
    · exact moveEnds_of_copy (by decide) hfails
    · exact wp_bind.2 (wp_mono (wp_meowFileCopy hfuel) fun ret s => wp_finishMove)
  · exact moveEnds_renamed hrename

/-- One file of one byte, under two names. -/
def twoNames : FileSystem :=
  ⟨fun path => if path = "a" ∨ path = "b" then some 0 else none, fun _ => [7], fun _ => none⟩

end Meow
end FlightApps
