import Mathlib.Algebra.Ring.Int.Defs
import Mathlib.Algebra.Ring.Nat
import Mathlib.Data.List.Basic

/-!
# Data types of the bindfs sources

The modelled build is Linux with FUSE 3: `uid_t`, `gid_t` and `mode_t` are unsigned
32-bit words, `int64_t` and `long` are signed 64-bit words. A C string is the list of
its characters before the terminating NUL. A handler that returns `-errno` is an
`Except` value whose error is that errno.
-/
namespace Bindfs.Source

abbrev CString := List Char

def NUL : Char := '\x00'

/-- Decided along the string: the instance of Batteries runs through every character. -/
instance (s : CString) (p : Char → Prop) [DecidablePred p] : Decidable (∀ c ∈ s, p c) :=
  List.decidableBAll p s

/-- `uid_t` and `gid_t`. -/
abbrev Id := BitVec 32

abbrev Mode := BitVec 32

/-- `(uid_t)-1` and `(gid_t)-1`: "leave unchanged" for chown(2), "not given" in the settings. -/
def noId : Id := BitVec.allOnes 32

inductive Errno where
  | eperm | enoent | eio | eacces | eexist | enotdir | eisdir | einval | enotempty | eloop
  | eoverflow | enametoolong | enomem | enosys
  | other (code : Nat)
  deriving DecidableEq, Repr

/-- `UID_GID_OVERFLOW_ERRNO`. -/
def uidGidOverflowErrno : Errno := .eio

def S_IFMT : Mode := 0o170000#32
def S_IFLNK : Mode := 0o120000#32
def S_IFREG : Mode := 0o100000#32
def S_IFBLK : Mode := 0o060000#32
def S_IFDIR : Mode := 0o040000#32
def S_IFIFO : Mode := 0o010000#32
def S_ISGID : Mode := 0o2000#32

/-- `S_ISDIR` and its siblings compare the file type field of a mode. -/
def hasType (type mode : Mode) : Bool := mode &&& S_IFMT = type

def S_ISDIR (mode : Mode) : Bool := hasType S_IFDIR mode
def S_ISREG (mode : Mode) : Bool := hasType S_IFREG mode
def S_ISLNK (mode : Mode) : Bool := hasType S_IFLNK mode
def S_ISBLK (mode : Mode) : Bool := hasType S_IFBLK mode
def S_ISFIFO (mode : Mode) : Bool := hasType S_IFIFO mode

/-- The fields of `struct stat` that bindfs reads, changes or promises to pass on.
Times are nanosecond stamps; `off_t` is signed. -/
structure Stat where
  st_uid : Id
  st_gid : Id
  st_mode : Mode
  st_nlink : Nat
  st_size : Int
  st_atim : Int
  st_mtim : Int
  st_ctim : Int
  deriving DecidableEq, Repr

end Bindfs.Source
