import Bindfs.Lib.Effects
import Bindfs.Source.Misc

/-!
# The underlying file system

The system calls that the FUSE handlers issue, and the file system that answers them. The
file system is a parameter: `Host W` says what each call answers in a tree `W`. A mutating
call either yields the new tree or fails and leaves the old one, by its type.

`SysCall.operands` lists the path operands of a call, each with whether the call follows a
symbolic link in the last component. realpath(3) resolves paths and is not a call on one.
-/
namespace Bindfs.Source
open Bindfs.Lib.Effects

/-- `R_OK`, `W_OK` and `X_OK`. -/
inductive AccessMode where
  | read | write | execute
  deriving DecidableEq, Repr

/-- `d_type`, as far as bindfs distinguishes it. -/
inductive DType where
  | lnk | unknown | other
  deriving DecidableEq, Repr

structure Dirent where
  d_name : CString
  d_type : DType
  deriving DecidableEq, Repr

/-- The flags of open(2). -/
abbrev OpenFlags := BitVec 32

def O_DIRECT : OpenFlags := 0o40000#32

/-- Calls on an open file descriptor. -/
inductive FdCall where
  | pread (fd size : Nat) (offset : Int)
  | pwrite (fd : Nat) (data : List UInt8) (offset : Int)
  | fcntl (fd cmd : Nat)
  | flock (fd op : Nat)
  | ioctl (fd cmd : Nat)
  | fsync (fd : Nat)
  | close (fd : Nat)
  deriving DecidableEq, Repr

inductive SysCall where
  | realpath (path : CString)
  | lstat (path : CString)
  | access (path : CString) (mode : AccessMode)
  /-- open(2) for reading, BLKGETSIZE64 and close(2) on a block device. -/
  | blockSize (path : CString)
  | opendir (path : CString)
  | pathconf (path : CString)
  | readlink (path : CString) (size : Nat)
  | statvfs (path : CString)
  | lgetxattr (path name : CString) (size : Nat)
  | llistxattr (path : CString) (size : Nat)
  | lsetxattr (path name : CString) (value : List UInt8) (flags : Nat)
  | lremovexattr (path name : CString)
  | openFile (path : CString) (flags : OpenFlags) (mode : Option Mode)
  | mkfifo (path : CString) (mode : Mode)
  | mknod (path : CString) (mode : Mode) (rdev : Nat)
  | mkdir (path : CString) (mode : Mode)
  | symlink (target path : CString)
  | unlink (path : CString)
  | rmdir (path : CString)
  | rename (source dest : CString)
  | link (source dest : CString)
  | chmod (path : CString) (mode : Mode)
  | chown (path : CString) (uid gid : Id)
  | lchown (path : CString) (uid gid : Id)
  | truncate (path : CString) (size : Int)
  | utimensat (path : CString) (atime mtime : Int)
  | descriptor (call : FdCall)
  deriving DecidableEq, Repr

def SysCall.operands : SysCall → List (CString × Bool)
  | .realpath _ => []
  | .lstat path => [(path, false)]
  | .access path _ => [(path, true)]
  | .blockSize path => [(path, true)]
  | .opendir path => [(path, true)]
  | .pathconf path => [(path, true)]
  | .readlink path _ => [(path, false)]
  | .statvfs path => [(path, true)]
  | .lgetxattr path _ _ => [(path, false)]
  | .llistxattr path _ => [(path, false)]
  | .lsetxattr path _ _ _ => [(path, false)]
  | .lremovexattr path _ => [(path, false)]
  | .openFile path _ _ => [(path, true)]
  | .mkfifo path _ => [(path, false)]
  | .mknod path _ _ => [(path, false)]
  | .mkdir path _ => [(path, false)]
  | .symlink _ path => [(path, false)]
  | .unlink path => [(path, false)]
  | .rmdir path => [(path, false)]
  | .rename source dest => [(source, false), (dest, false)]
  | .link source dest => [(source, false), (dest, false)]
  | .chmod path _ => [(path, true)]
  | .chown path _ _ => [(path, true)]
  | .lchown path _ _ => [(path, false)]
  | .truncate path _ => [(path, true)]
  | .utimensat path _ _ => [(path, false)]
  | .descriptor _ => []

/-- What readdir(3) delivers: the entries in order, then the end or an error. -/
structure Listing where
  entries : List Dirent
  error : Option Errno

def Listing.atEnd (listing : Listing) : Except Errno Unit :=
  match listing.error with
  | some error => .error error
  | none => .ok ()

structure Host (W : Type) where
  realpath : W → CString → Except Errno CString
  lstat : W → CString → Except Errno Stat
  access : W → CString → AccessMode → Except Errno Unit
  /-- The word BLKGETSIZE64 leaves in `size`. -/
  blockSize : W → CString → Except Errno (BitVec 64)
  opendir : W → CString → Except Errno Listing
  readlink : W → CString → Nat → Except Errno CString
  /-- The fields of `struct statvfs`, which are passed on unread. -/
  statvfs : W → CString → Except Errno (List Nat)
  lgetxattr : W → CString → CString → Nat → Except Errno (List UInt8)
  llistxattr : W → CString → Nat → Except Errno (List UInt8)
  openFile : W → CString → OpenFlags → Option Mode → Except Errno (Nat × W)
  descriptor : W → FdCall → Except Errno (List UInt8 × W)
  /-- Whether an anonymous mapping of this size can be had. -/
  mmap : Nat → Bool
  /-- The calls whose only answer is success. -/
  perform : W → SysCall → Except Errno W
  userBelongsToGroup : Id → Id → Bool

abbrev Sys (W α : Type) := Eff W SysCall Errno α

namespace Host
variable {W : Type} (host : Host W)

def callRealpath (path : CString) : Sys W CString :=
  ask (.realpath path) (host.realpath · path)

def callLstat (path : CString) : Sys W Stat :=
  ask (.lstat path) (host.lstat · path)

def callAccess (path : CString) (mode : AccessMode) : Sys W Unit :=
  ask (.access path mode) (host.access · path mode)

def callBlockSize (path : CString) : Sys W (BitVec 64) :=
  ask (.blockSize path) (host.blockSize · path)

def callOpendir (path : CString) : Sys W Listing :=
  ask (.opendir path) (host.opendir · path)

def callOpen (path : CString) (flags : OpenFlags) (mode : Option Mode) : Sys W Nat :=
  call (.openFile path flags mode) (host.openFile · path flags mode)

def callDescriptor (c : FdCall) : Sys W (List UInt8) :=
  call (.descriptor c) (host.descriptor · c)

/-- Issue a call whose only answer is success. -/
def issue (c : SysCall) : Sys W Unit :=
  call c (fun world => (host.perform world c).map (fun world' => ((), world')))

@[simp]
theorem exec_callRealpath (path : CString) (world : W) :
    (host.callRealpath path).exec world =
      ⟨host.realpath world path, world, [(world, .realpath path)]⟩ := rfl

@[simp]
theorem exec_callLstat (path : CString) (world : W) :
    (host.callLstat path).exec world = ⟨host.lstat world path, world, [(world, .lstat path)]⟩ := rfl

@[simp]
theorem exec_callAccess (path : CString) (mode : AccessMode) (world : W) :
    (host.callAccess path mode).exec world =
      ⟨host.access world path mode, world, [(world, .access path mode)]⟩ := rfl

@[simp]
theorem exec_callBlockSize (path : CString) (world : W) :
    (host.callBlockSize path).exec world =
      ⟨host.blockSize world path, world, [(world, .blockSize path)]⟩ := rfl

@[simp]
theorem exec_callOpendir (path : CString) (world : W) :
    (host.callOpendir path).exec world =
      ⟨host.opendir world path, world, [(world, .opendir path)]⟩ := rfl

theorem exec_issue_ok {c : SysCall} {world world' : W} (succeeds : host.perform world c = .ok world') :
    (host.issue c).exec world = ⟨.ok (), world', [(world, c)]⟩ :=
  exec_call_ok c (by simp [succeeds, Except.map])

theorem exec_issue_error {c : SysCall} {world : W} {error : Errno}
    (fails : host.perform world c = .error error) :
    (host.issue c).exec world = ⟨.error error, world, [(world, c)]⟩ :=
  exec_call_error c (by simp [fails, Except.map])

theorem exec_callOpen_ok {path : CString} {flags : OpenFlags} {mode : Option Mode} {fd : Nat}
    {world world' : W} (succeeds : host.openFile world path flags mode = .ok (fd, world')) :
    (host.callOpen path flags mode).exec world =
      ⟨.ok fd, world', [(world, .openFile path flags mode)]⟩ :=
  exec_call_ok _ succeeds

theorem exec_callOpen_error {path : CString} {flags : OpenFlags} {mode : Option Mode} {world : W}
    {error : Errno} (fails : host.openFile world path flags mode = .error error) :
    (host.callOpen path flags mode).exec world =
      ⟨.error error, world, [(world, .openFile path flags mode)]⟩ :=
  exec_call_error _ fails

end Host

end Bindfs.Source
