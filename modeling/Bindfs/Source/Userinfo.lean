import Bindfs.Source.Libc

/-!
# userinfo.c: user and group names

The system database is outside the sources; `UserDb` holds what `getpwnam_r` and
`getgrnam_r` answer. The retry loop on `ERANGE` only enlarges the buffer.
-/
namespace Bindfs.Source

structure UserDb where
  getpwnam : CString → Option Id
  getgrnam : CString → Option Id

/-- A database without entries: only numbers stand for users and groups. -/
def numericUsers : UserDb := ⟨fun _ => none, fun _ => none⟩

/-- The common body of `user_uid` and `group_gid`: a string that `strtol` reads to its end
is an id (converted from `long` modulo 2^32), any other string is a name. -/
def nameToId (lookup : CString → Option Id) (name : CString) : Option Id :=
  let (value, endptr) := strtol 10 name
  if endptr = [] then some (BitVec.ofInt 32 value) else lookup name

def userUid (db : UserDb) (username : CString) : Option Id := nameToId db.getpwnam username

def groupGid (db : UserDb) (groupname : CString) : Option Id := nameToId db.getgrnam groupname

end Bindfs.Source
