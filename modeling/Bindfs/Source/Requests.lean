import Bindfs.Source.Handlers

/-!
# Requests

`serve` is the dispatch table `bindfs_oper`, as `main` leaves it: the handlers of switched
off features are removed, and libfuse answers ENOSYS for them.
-/
namespace Bindfs.Source
open Bindfs.Lib.Effects

inductive Request where
  | getattr (path : CString)
  | readlink (path : CString) (size : Nat)
  | readdir (path : CString) (filler : Filled → Except Errno Unit) (readdirplus : Bool)
  | mknod (path : CString) (mode : Mode) (rdev : Nat)
  | mkdir (path : CString) (mode : Mode)
  | unlink (path : CString)
  | rmdir (path : CString)
  | symlink (target path : CString)
  | rename (source dest : CString) (flags : Nat)
  | link (source dest : CString)
  | chmod (path : CString) (mode : Mode)
  | chown (path : CString) (uid gid : Id)
  | truncate (path : CString) (size : Int)
  | utimens (path : CString) (atime mtime : Int)
  | create (path : CString) (flags : OpenFlags) (mode : Mode)
  | openFile (path : CString) (flags : OpenFlags)
  | statfs (path : CString)
  | setxattr (path name : CString) (value : List UInt8) (flags : Nat)
  | getxattr (path name : CString) (size : Nat)
  | listxattr (path : CString) (size : Nat)
  | removexattr (path name : CString)
  | read (fd : Nat) (flags : OpenFlags) (size : Nat) (offset : Int)
  | write (fd : Nat) (flags : OpenFlags) (data : List UInt8) (offset : Int)
  | lock (fd cmd : Nat)
  | flock (fd op : Nat)
  | ioctl (fd cmd : Nat)
  | fsync (fd : Nat) (isdatasync : Bool)
  | release (fd : Nat)

inductive Reply where
  | done
  | attributes (stbuf : Stat)
  | text (target : CString)
  | entries (filled : List Filled)
  | handle (fd : Nat)
  | numbers (fields : List Nat)
  | bytes (data : List UInt8)

section
variable {W : Type} (host : Host W) (settings : Settings)

/-- A readdir that ends in an error is answered with it. -/
def answerEntries (reply : ReaddirReply) : Sys W (List Filled) :=
  match reply.result with
  | .ok () => pure reply.filled
  | .error error => fail error

def readdirRequest (fc : FuseContext) (path : CString) (filler : Filled → Except Errno Unit)
    (readdirplus : Bool) : Sys W (List Filled) := do
  let reply ← bindfsReaddir host settings fc path filler readdirplus
  answerEntries reply

/-- Operations that `main` takes out of `bindfs_oper` unless a setting keeps them. -/
def whenInstalled {α : Type} (installed : Bool) (handler : Sys W α) : Sys W α :=
  if installed then handler else fail .enosys

def serve (fc : FuseContext) : Request → Sys W Reply
  | .getattr path => do return .attributes (← bindfsGetattr host settings fc path)
  | .readlink path size => do return .text (← bindfsReadlink host settings path size)
  | .readdir path filler plus => do return .entries (← readdirRequest host settings fc path filler plus)
  | .mknod path mode rdev => do bindfsMknod host settings fc path mode rdev; return .done
  | .mkdir path mode => do bindfsMkdir host settings fc path mode; return .done
  | .unlink path => do bindfsUnlink host settings path; return .done
  | .rmdir path => do bindfsRmdir host settings path; return .done
  | .symlink target path => do bindfsSymlink host settings fc target path; return .done
  | .rename source dest flags => do bindfsRename host settings source dest flags; return .done
  | .link source dest => do bindfsLink host settings source dest; return .done
  | .chmod path mode => do bindfsChmod host settings path mode; return .done
  | .chown path uid gid => do bindfsChown host settings path uid gid; return .done
  | .truncate path size => do bindfsTruncate host settings path size; return .done
  | .utimens path atime mtime => do bindfsUtimens host settings path atime mtime; return .done
  | .create path flags mode => do return .handle (← bindfsCreate host settings fc path flags mode)
  | .openFile path flags => do return .handle (← bindfsOpen host settings path flags)
  | .statfs path => do return .numbers (← bindfsStatfs host settings path)
  | .setxattr path name value flags =>
    whenInstalled (settings.xattr_policy ≠ .unimplemented) do
      bindfsSetxattr host settings path name value flags
      return .done
  | .getxattr path name size =>
    whenInstalled (settings.xattr_policy ≠ .unimplemented) do
      return .bytes (← bindfsGetxattr host settings path name size)
  | .listxattr path size =>
    whenInstalled (settings.xattr_policy ≠ .unimplemented) do
      return .bytes (← bindfsListxattr host settings path size)
  | .removexattr path name =>
    whenInstalled (settings.xattr_policy ≠ .unimplemented) do
      bindfsRemovexattr host settings path name
      return .done
  | .read fd flags size offset => do return .bytes (← bindfsRead host settings fd flags size offset)
  | .write fd flags data offset => do return .bytes (← bindfsWrite host settings fd flags data offset)
  | .lock fd cmd =>
    whenInstalled settings.enable_lock_forwarding do return .bytes (← bindfsLock host fd cmd)
  | .flock fd op =>
    whenInstalled settings.enable_lock_forwarding do return .bytes (← bindfsFlock host fd op)
  | .ioctl fd cmd => whenInstalled settings.enable_ioctl do return .bytes (← bindfsIoctl host fd cmd)
  | .fsync fd isdatasync => do return .bytes (← bindfsFsync host fd isdatasync)
  | .release fd => do bindfsRelease host fd; return .done

/-- A request with its caller and the tree it meets. -/
structure Step (W : Type) where
  tree : W
  caller : FuseContext
  request : Request

def Step.outcome (step : Step W) : Outcome W SysCall Errno Reply :=
  (serve host settings step.caller step.request).exec step.tree

/-- A mount that serves requests one after another, with its replies. -/
def session : List (FuseContext × Request) → W → W × List (Except Errno Reply)
  | [], world => (world, [])
  | (fc, request) :: rest, world =>
    let outcome := (serve host settings fc request).exec world
    let later := session rest outcome.world
    (later.1, outcome.result :: later.2)

end

end Bindfs.Source
