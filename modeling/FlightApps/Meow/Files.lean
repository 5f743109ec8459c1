import Mathlib.Data.List.Basic
import FlightApps.Lib.Calls

/-!
# Copying and moving files

`meow_file_copy` reads a file in pieces and writes them to a new one; `meow_file_move` renames, and
across file systems copies and deletes.  Every call of the OS may fail at any time, and a read may
be short.

A path names an inode, and two paths may name the same one.  A file that was opened for writing may
lose what was written when closing it fails, which neither function looks at.
-/

set_option autoImplicit false

namespace FlightApps
namespace Meow

open Script

/-! ## Calls -/

abbrev Path := String

/-- `meow_file_ret_t`, as far as the two functions return it. -/
inductive FileRet
  | ok
  | errNull
  | errOpen
  | errRead
  | errWrite
  | errStat
  | errOp
  | errExist
deriving DecidableEq, Repr

inductive Errno
  | exdev
  | eexist
  | other (n : Nat)
deriving DecidableEq, Repr

/-- What `close` gives.  When it fails the file holds what is left of it. -/
inductive Closing
  | done
  | failed (left : List UInt8)

inductive FileCall
  | stat (path : Path)
  /-- With `O_RDONLY`. -/
  | openRead (path : Path)
  /-- With `O_WRONLY | O_CREAT | O_EXCL`. -/
  | openNew (path : Path) (mode : UInt32)
  | read (fd size : Nat)
  | write (fd : Nat) (data : List UInt8)
  | close (fd : Nat)
  | rename (old new : Path)
  | unlink (path : Path)

/-- What is answered: `stat` gives the mode, an open the descriptor.  With a new file comes its
inode, which the program does not see. -/
@[reducible] def FileCall.Reply : FileCall → Type
  | stat _ => Except Errno UInt32
  | openRead _ => Except Errno Nat
  | openNew _ _ => Except Errno (Nat × Nat)
  | read _ _ => Except Errno (List UInt8)
  | write _ _ => Except Errno Nat
  | close _ => Closing
  | rename _ _ => Except Errno Unit
  | unlink _ => Except Errno Unit

abbrev FileTask := Script FileCall FileCall.Reply

/-! ## The two functions

Both loop for as long as there is something to read; `fuel` bounds the turns, and a task that runs
out of it ends with nothing. -/

/-- `COPY_BUF_SIZE`. -/
def copyBufSize : Nat := 2048

/-- The loop of `meow_file_copy`. -/
def copyLoop (srcFd dstFd : Nat) : Nat → FileTask (Option FileRet)
  | 0 => .done none
  | fuel + 1 => .call (.read srcFd copyBufSize) fun
    | .error _ => .done (some .errRead)
    | .ok [] => .done (some .ok)
    | .ok buf => .call (.write dstFd buf) fun
      | .error _ => .done (some .errWrite)
      | .ok n => if n ≠ buf.length then .done (some .errWrite) else copyLoop srcFd dstFd fuel

/-- The end of `meow_file_copy`, after the loop. -/
def finishCopy (srcFd dstFd : Nat) (dst : Path) (ret : Option FileRet) : FileTask (Option FileRet) :=
  .call (.close srcFd) fun _ => .call (.close dstFd) fun _ =>
    if ret ≠ some .ok then .call (.unlink dst) fun _ => .done ret else .done ret

/-- `meow_file_copy`. -/
def meowFileCopy (fuel : Nat) : Option Path → Option Path → FileTask (Option FileRet)
  | some src, some dst => .call (.stat src) fun
    | .error _ => .done (some .errStat)
    | .ok mode => .call (.openRead src) fun
      | .error _ => .done (some .errOpen)
      | .ok srcFd => .call (.openNew dst (mode &&& 0o777)) fun
        | .error e => .call (.close srcFd) fun _ =>
          .done (some (if e = .eexist then .errExist else .errOpen))
        | .ok (dstFd, _) => (copyLoop srcFd dstFd fuel).bind (finishCopy srcFd dstFd dst)
  | _, _ => .done (some .errNull)

/-- The end of `meow_file_move`, after the copy. -/
def finishMove (src : Path) (ret : Option FileRet) : FileTask (Option FileRet) :=
  if ret ≠ some .ok then .done ret
  else .call (.unlink src) fun
    | .error _ => .done (some .errOp)
    | .ok () => .done (some .ok)

/-- `meow_file_move`. -/
def meowFileMove (fuel : Nat) : Option Path → Option Path → FileTask (Option FileRet)
  | some src, some dst => .call (.rename src dst) fun
    | .ok () => .done (some .ok)
    | .error e =>
      if e ≠ .exdev then .done (some .errOp)
      else (meowFileCopy fuel (some src) (some dst)).bind (finishMove src)
  | _, _ => .done (some .errNull)

/-! ## The file system -/

/-- A descriptor: the inode, where it stands in the file, and whether it was opened for writing. -/
structure OpenFile where
  inode : Nat
  offset : Nat
  writing : Bool

structure FileSystem where
  names : Path → Option Nat
  content : Nat → List UInt8
  fds : Nat → Option OpenFile

namespace FileSystem

variable (fs : FileSystem)

/-- What a path leads to. -/
def file (path : Path) : Option (List UInt8) := (fs.names path).map fs.content

/-- A descriptor is opened. -/
def opened (fd : Nat) (f : OpenFile) : FileSystem :=
  { fs with fds := Function.update fs.fds fd (some f) }

/-- A new file is there, with a descriptor for writing. -/
def created (path : Path) (fd inode : Nat) : FileSystem where
  names := Function.update fs.names path (some inode)
  content := Function.update fs.content inode []
  fds := Function.update fs.fds fd (some ⟨inode, 0, true⟩)

/-- Bytes have been read. -/
def advanced (fd n : Nat) (f : OpenFile) : FileSystem :=
  fs.opened fd { f with offset := f.offset + n }

/-- Bytes have been written. -/
def written (fd : Nat) (f : OpenFile) (bytes : List UInt8) : FileSystem :=
  { fs.advanced fd bytes.length f with
    content := Function.update fs.content f.inode ((fs.content f.inode).take f.offset ++ bytes ++
      (fs.content f.inode).drop (f.offset + bytes.length)) }

/-- A descriptor is closed. -/
def closed (fd : Nat) : FileSystem := { fs with fds := Function.update fs.fds fd none }

/-- A descriptor is closed, and this is left of the file. -/
def closedWith (fd : Nat) (f : OpenFile) (left : List UInt8) : FileSystem :=
  { fs.closed fd with
    content := if f.writing then Function.update fs.content f.inode left else fs.content }

/-- A file is renamed.  Two names of one file are left as they are. -/
def renamed (old new : Path) : FileSystem :=
  if fs.names old = fs.names new then fs
  else { fs with names := Function.update (Function.update fs.names new (fs.names old)) old none }

/-- A name is gone. -/
def unlinked (path : Path) : FileSystem := { fs with names := Function.update fs.names path none }

/-- What a call does. -/
def next (fs : FileSystem) : (c : FileCall) → c.Reply → FileSystem
  | .openRead path, .ok fd => match fs.names path with
    | some inode => fs.opened fd ⟨inode, 0, false⟩
    | none => fs
  | .openNew path _, .ok (fd, inode) => fs.created path fd inode
  | .read fd _, .ok bytes => match fs.fds fd with
    | some f => fs.advanced fd bytes.length f
    | none => fs
  | .write fd data, .ok n => match fs.fds fd with
    | some f => fs.written fd f (data.take n)
    | none => fs
  | .close fd, .done => fs.closed fd
  | .close fd, .failed left => match fs.fds fd with
    | some f => fs.closedWith fd f left
    | none => fs
  | .rename old new, .ok () => fs.renamed old new
  | .unlink path, .ok () => fs.unlinked path
  | _, _ => fs

/-- What the OS may answer.  With `lossless` nothing is lost when closing a file fails, and what is
in `unlinks` can be deleted. -/
def Allows (lossless : Bool) (unlinks : Path → Bool) (fs : FileSystem) :
    (c : FileCall) → c.Reply → Prop
  | .stat path, .ok _ => fs.names path ≠ none
  | .openRead path, .ok fd => fs.names path ≠ none ∧ fs.fds fd = none
  | .openNew path _, .ok (fd, inode) => fs.names path = none ∧ fs.fds fd = none ∧
      (∀ path', fs.names path' ≠ some inode) ∧ ∀ fd' f, fs.fds fd' = some f → f.inode ≠ inode
  | .read fd size, .ok bytes => ∃ f, fs.fds fd = some f ∧ bytes.length ≤ size ∧
      bytes <+: (fs.content f.inode).drop f.offset ∧
      (bytes = [] → (fs.content f.inode).drop f.offset = [])
  | .write fd data, .ok n => fs.fds fd ≠ none ∧ n ≤ data.length
  | .close fd, .failed left => ∀ f, fs.fds fd = some f → lossless = true → left = fs.content f.inode
  | .rename old _, .ok () => fs.names old ≠ none
  | .unlink path, .ok () => fs.names path ≠ none
  | .unlink path, .error _ => unlinks path = false
  | _, _ => True

/-- The file system as a world. -/
def world (lossless : Bool) (unlinks : Path → Bool) : World FileCall FileCall.Reply FileSystem :=
  ⟨Allows lossless unlinks, next⟩

end FileSystem

end Meow
end FlightApps
