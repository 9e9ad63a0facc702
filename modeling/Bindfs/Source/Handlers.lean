import Bindfs.Source.Host
import Bindfs.Source.Settings

/-!
# The FUSE handlers of bindfs.c

The handlers as programs over the underlying file system, in the Linux build with FUSE 3
and the `l*xattr` calls. A handler that returns `-errno` fails with that errno. Freed
strings, `close` of descriptors that never leave a handler, and debug output are left out.

The caller of a request is `fuse_get_context()`; libfuse never passes a NULL path to a
handler, `processPath` still answers it.
-/
namespace Bindfs.Source
open Bindfs.Lib.Effects

structure FuseContext where
  uid : Id
  gid : Id
  deriving DecidableEq, Repr

section
variable {W : Type} (host : Host W) (settings : Settings)

/-! ## Shared parts -/

def isMirroringEnabled : Bool :=
  settings.mirrored_users.length + settings.mirrored_members.length > 0

def isMirroredUser (uid : Id) : Bool :=
  settings.mirrored_users.any (· = uid) ||
    settings.mirrored_members.any (fun gid => host.userBelongsToGroup uid gid)

/-- The path relative to the source directory, which is the working directory. -/
def stripSlashes (path : CString) : CString :=
  match path.dropWhile (· = '/') with
  | [] => ['.']
  | c :: rest => c :: rest

def processPath (path : Option CString) (resolveSymlinks : Bool) : Sys W CString :=
  match path with
  | none => fail .einval
  | some path =>
    let path := stripSlashes path
    if resolveSymlinks && settings.resolve_symlinks then do
      match ← attempt (host.callRealpath path) with
      -- A broken symlink or a missing file is operated on as it stands.
      | .error .enoent => pure path
      | .error error => fail error
      | .ok result => if pathStartsWith result settings.mntdest then fail .eperm else pure result
    else pure path

/-- The first half of `getattr_common`: times and owners. `none` is an id out of bounds. -/
def translateStat (stbuf : Stat) : Option Stat := do
  let uid ← applyUidOffset settings (usermapGetUidOrDefault settings.usermap stbuf.st_uid stbuf.st_uid)
  let gid ← applyGidOffset settings (usermapGetGidOrDefault settings.usermap stbuf.st_gid stbuf.st_gid)
  pure { stbuf with
    st_ctim := if settings.ctime_from_mtime then stbuf.st_mtim else stbuf.st_ctim
    st_uid := if settings.new_uid ≠ noId then settings.new_uid else uid
    st_gid := if settings.new_gid ≠ noId then settings.new_gid else gid }

def blockDeviceAsFile (procpath : CString) (stbuf : Stat) : Sys W Stat :=
  if settings.block_devices_as_files && S_ISBLK stbuf.st_mode then do
    let size ← host.callBlockSize procpath
    if size.toInt < 0 then fail .eoverflow
    else pure { stbuf with st_mode := stbuf.st_mode ^^^ (S_IFBLK ||| S_IFREG), st_size := size.toInt }
  else pure stbuf

/-- One `access` check of `--realistic-permissions`: `bits` are hidden when it fails. -/
def hideUnlessAccess (procpath : CString) (stbuf : Stat) (mode : AccessMode) (bits : Mode) :
    Sys W Stat := do
  match ← attempt (host.callAccess procpath mode) with
  | .error _ => pure { stbuf with st_mode := stbuf.st_mode &&& ~~~bits }
  | .ok () => pure stbuf

def reportPermissions (procpath : CString) (stbuf : Stat) : Sys W Stat :=
  -- Symlink permissions don't matter.
  if stbuf.st_mode &&& S_IFLNK = S_IFLNK then pure stbuf
  else
    let stbuf := { stbuf with st_mode := settings.permchain.apply stbuf.st_mode }
    if settings.realistic_permissions then do
      let stbuf ← hideUnlessAccess host procpath stbuf .read 0o444#32
      let stbuf ← hideUnlessAccess host procpath stbuf .write 0o222#32
      hideUnlessAccess host procpath stbuf .execute 0o111#32
    else pure stbuf

def hideHardLinks (stbuf : Stat) : Stat :=
  if settings.hide_hard_links then { stbuf with st_nlink := 1 } else stbuf

/-- The second half of `getattr_common`, for callers that are not shut out. -/
def reportFile (procpath : CString) (stbuf : Stat) : Sys W Stat := do
  let stbuf ← blockDeviceAsFile host settings procpath (hideHardLinks settings stbuf)
  reportPermissions host settings procpath stbuf

def getattrCommon (fc : FuseContext) (procpath : CString) (stbuf : Stat) : Sys W Stat :=
  match translateStat settings stbuf with
  | none => fail uidGidOverflowErrno
  | some stbuf =>
    if isMirroringEnabled settings && isMirroredUser host settings fc.uid then
      reportFile host settings procpath { stbuf with st_uid := fc.uid }
    else if settings.mirrored_users_only && fc.uid ≠ 0#32 then
      -- Deny all access if mirror-only and not root.
      pure { stbuf with st_mode := stbuf.st_mode &&& ~~~0o777#32 }
    else reportFile host settings procpath stbuf

/-- The owner and group `chown_new_file` starts from; -1 asks for none. `setgid` says that the
parent directory hands its group down. -/
def callerIds (fc : FuseContext) (setgid : Bool) : Id × Id :=
  let defaults : Id × Id := match settings.create_policy with
    | .asUser => (fc.uid, if setgid then noId else fc.gid)
    | .asMounter => (noId, noId)
  (usermapGetUidOrDefault settings.usermap_reverse fc.uid defaults.1,
    usermapGetGidOrDefault settings.usermap_reverse fc.gid defaults.2)

def unapplyUnlessNone (unapply : Id → Option Id) (id : Id) : Option Id :=
  if id ≠ noId then unapply id else some id

/-- The owner and group `chown_new_file` asks for. `none` is an id out of bounds. -/
def newFileOwner (fc : FuseContext) (setgid : Bool) : Option (Id × Id) := do
  let fileOwner ← unapplyUnlessNone (unapplyUidOffset settings) (callerIds settings fc setgid).1
  let fileGroup ← unapplyUnlessNone (unapplyGidOffset settings) (callerIds settings fc setgid).2
  pure (if settings.create_for_uid ≠ noId then settings.create_for_uid else fileOwner,
    if settings.create_for_gid ≠ noId then settings.create_for_gid else fileGroup)

/-- Whether the directory of a new file hands its group down, as `lstat` tells. -/
def inheritsGroup (path : CString) : Sys W Bool :=
  match settings.create_policy with
  | .asUser => do
    match ← attempt (host.callLstat (myDirname path)) with
    | .ok stbuf => pure (stbuf.st_mode &&& S_ISGID ≠ 0#32)
    | .error _ => pure false
  | .asMounter => pure false

/-- `chown_new_file`; a failing `chown_func` is only logged. -/
def chownNewFile (path : CString) (fc : FuseContext) (chownFunc : CString → Id → Id → SysCall) :
    Sys W Unit := do
  let setgid ← inheritsGroup host settings path
  match newFileOwner settings fc setgid with
  | none => fail uidGidOverflowErrno
  | some (fileOwner, fileGroup) =>
    if fileOwner ≠ noId ∨ fileGroup ≠ noId then do
      let _ ← attempt (host.issue (chownFunc path fileOwner fileGroup))
      pure ()
    else pure ()

/-- The end of `delete_file`: delete the path, then try to delete what it led to. -/
def deleteThenTry (realPath : CString) (mainDelete targetDelete : CString → SysCall)
    (alsoTryDelete : Option CString) : Sys W Unit := do
  host.issue (mainDelete realPath)
  match alsoTryDelete with
  | none => pure ()
  | some target => do
    let _ ← attempt (host.issue (targetDelete target))
    pure ()

/-- `realpath` of a symlink about to be deleted; a broken one has no target. -/
def deletionTarget (realPath : CString) : Sys W (Option CString) := do
  match ← attempt (host.callRealpath realPath) with
  | .ok target => pure (some target)
  | .error .enoent => pure none
  | .error error => fail error

def deleteFile (path : CString) (targetDelete : CString → SysCall) : Sys W Unit :=
  if settings.delete_deny then fail .eperm
  else do
    let realPath ← processPath host settings (some path) false
    if settings.resolve_symlinks then do
      let st ← host.callLstat realPath
      if S_ISLNK st.st_mode then
        match settings.resolved_symlink_deletion_policy with
        | .deny => fail .eperm
        | .symlinkOnly => deleteThenTry host realPath .unlink targetDelete none
        | .symlinkFirst => do
          let target ← deletionTarget host realPath
          deleteThenTry host realPath .unlink targetDelete target
        | .targetFirst => do
          match ← deletionTarget host realPath with
          | some target => host.issue (.unlink target)
          | none => pure ()
          -- The link itself is deleted with the caller's function here.
          deleteThenTry host realPath targetDelete targetDelete none
      else deleteThenTry host realPath targetDelete targetDelete none
    else deleteThenTry host realPath targetDelete targetDelete none

/-! ## Attributes -/

def bindfsGetattr (fc : FuseContext) (path : CString) : Sys W Stat := do
  let realPath ← processPath host settings (some path) true
  let stbuf ← host.callLstat realPath
  getattrCommon host settings fc realPath stbuf

def bindfsReadlink (path : CString) (size : Nat) : Sys W CString := do
  let realPath ← processPath host settings (some path) true
  ask (.readlink realPath (size - 1)) (host.readlink · realPath (size - 1))

/-- The old mode, where `--chmod-allow-x` may let changes of execute bits through:
`file_execute_only` with `st.st_mode`. -/
def executeOnlyMode (realPath : CString) : Sys W (Option Mode) :=
  if settings.chmod_allow_x then do
    let st ← host.callLstat realPath
    pure (if S_ISREG st.st_mode then some st.st_mode else none)
  else pure none

def chmodByPolicy (realPath : CString) (mode : Mode) (old : Option Mode) : Sys W Unit :=
  match settings.chmod_policy, old with
  | .normal, _ => host.issue (.chmod realPath (settings.chmod_permchain.apply mode))
  | .ignore, some oldMode =>
    let diff := (oldMode &&& 0o7777#32) ^^^ (mode &&& 0o7777#32)
    host.issue (.chmod realPath (oldMode ^^^ (diff &&& 0o111#32)))
  | .ignore, none => pure ()
  | .deny, some oldMode =>
    let diff := (oldMode &&& 0o7777#32) ^^^ (mode &&& 0o7777#32)
    -- Only execute bits have changed, so we can allow this.
    if diff &&& 0o7666#32 = 0#32 then host.issue (.chmod realPath mode) else fail .eperm
  | .deny, none => fail .eperm

def bindfsChmod (path : CString) (mode : Mode) : Sys W Unit := do
  let realPath ← processPath host settings (some path) true
  let old ← executeOnlyMode host settings realPath
  chmodByPolicy host settings realPath mode old

/-- One half of `bindfs_chown`: the id handed to lchown(2), or the error returned. -/
def chownId (policy : ChangePolicy) (translate : Id → Option Id) (id : Id) : Except Errno Id :=
  if id ≠ noId then
    match policy with
    | .normal =>
      match translate id with
      | some translated => .ok translated
      | none => .error uidGidOverflowErrno
    | .ignore => .ok noId
    | .deny => .error .eperm
  else .ok id

def chownUid (uid : Id) : Except Errno Id :=
  chownId settings.chown_policy
    (fun uid => unapplyUidOffset settings (usermapGetUidOrDefault settings.usermap_reverse uid uid)) uid

def chownGid (gid : Id) : Except Errno Id :=
  chownId settings.chgrp_policy
    (fun gid => unapplyGidOffset settings (usermapGetGidOrDefault settings.usermap_reverse gid gid)) gid

def bindfsChown (path : CString) (uid gid : Id) : Sys W Unit :=
  match chownUid settings uid with
  | .error error => fail error
  | .ok uid =>
    match chownGid settings gid with
    | .error error => fail error
    | .ok gid =>
      if uid ≠ noId ∨ gid ≠ noId then do
        let realPath ← processPath host settings (some path) true
        host.issue (.lchown realPath uid gid)
      else pure ()

def bindfsTruncate (path : CString) (size : Int) : Sys W Unit := do
  let realPath ← processPath host settings (some path) true
  host.issue (.truncate realPath size)

def bindfsUtimens (path : CString) (atime mtime : Int) : Sys W Unit := do
  let realPath ← processPath host settings (some path) true
  host.issue (.utimensat realPath atime mtime)

def bindfsStatfs (path : CString) : Sys W (List Nat) := do
  let realPath ← processPath host settings (some path) true
  ask (.statvfs realPath) (host.statvfs · realPath)

/-! ## Directories -/

/-- What the filler receives for an entry: its name and, in readdirplus mode, its attributes. -/
structure Filled where
  name : CString
  attr : Option Stat
  deriving DecidableEq, Repr

structure ReaddirReply where
  filled : List Filled
  result : Except Errno Unit

/-- The `lstat` of one entry, at the end of its link where symlinks are resolved. -/
def entryStat (pathBuf : CString) (de : Dirent) : Sys W Stat :=
  if settings.resolve_symlinks && de.d_type = .lnk then do
    match ← attempt (host.callRealpath pathBuf) with
    | .ok resolved => host.callLstat resolved
    | .error _ => host.callLstat pathBuf
  else host.callLstat pathBuf

def readdirEntry (fc : FuseContext) (readdirplus : Bool) (realPath : CString) (de : Dirent) :
    Sys W Filled :=
  if (settings.resolve_symlinks && de.d_type = .lnk) || readdirplus then do
    -- `path_buf` holds the directory, a slash and the entry's name.
    let pathBuf := realPath ++ '/' :: de.d_name
    let st ← entryStat host settings pathBuf de
    if readdirplus then do
      let st ← getattrCommon host settings fc pathBuf st
      pure ⟨de.d_name, some st⟩
    else pure ⟨de.d_name, none⟩
  else pure ⟨de.d_name, none⟩

/-- The loop of `bindfs_readdir`. `filler` answers with the errno to report when it refuses. -/
def readdirLoop (fc : FuseContext) (readdirplus : Bool) (realPath : CString)
    (filler : Filled → Except Errno Unit) (atEnd : Except Errno Unit) :
    List Dirent → Sys W ReaddirReply
  | [] => pure ⟨[], atEnd⟩
  | de :: rest => do
    match ← attempt (readdirEntry host settings fc readdirplus realPath de) with
    | .error error => pure ⟨[], .error error⟩
    | .ok entry =>
      match filler entry with
      | .error error => pure ⟨[], .error error⟩
      | .ok () => do
        let more ← readdirLoop fc readdirplus realPath filler atEnd rest
        pure ⟨entry :: more.filled, more.result⟩

def openDirectory (path : CString) : Sys W (CString × Listing) := do
  let realPath ← processPath host settings (some path) true
  let listing ← host.callOpendir realPath
  pure (realPath, listing)

/-- `bindfs_readdir`. The entries filled before an error are part of the reply, although
libfuse drops them. -/
def bindfsReaddir (fc : FuseContext) (path : CString) (filler : Filled → Except Errno Unit)
    (readdirplus : Bool) : Sys W ReaddirReply := do
  match ← attempt (openDirectory host settings path) with
  | .error error => pure ⟨[], .error error⟩
  | .ok (realPath, listing) => do
    let _ ← ask (.pathconf realPath) (fun _ => .ok ())
    readdirLoop host settings fc readdirplus realPath filler listing.atEnd listing.entries

/-! ## Creation, deletion and renaming -/

def bindfsMknod (fc : FuseContext) (path : CString) (mode : Mode) (rdev : Nat) : Sys W Unit := do
  let realPath ← processPath host settings (some path) true
  let mode := settings.create_permchain.apply mode
  host.issue (if S_ISFIFO mode then .mkfifo realPath mode else .mknod realPath mode rdev)
  chownNewFile host settings realPath fc .chown

def bindfsMkdir (fc : FuseContext) (path : CString) (mode : Mode) : Sys W Unit := do
  let realPath ← processPath host settings (some path) true
  -- Tell permchain_apply that this is a directory.
  let mode := settings.create_permchain.apply (mode ||| S_IFDIR)
  host.issue (.mkdir realPath (mode &&& 0o777#32))
  chownNewFile host settings realPath fc .chown

def bindfsUnlink (path : CString) : Sys W Unit := deleteFile host settings path .unlink

def bindfsRmdir (path : CString) : Sys W Unit := deleteFile host settings path .rmdir

def bindfsSymlink (fc : FuseContext) (target path : CString) : Sys W Unit :=
  if settings.resolve_symlinks then fail .eperm
  else do
    let realTo ← processPath host settings (some path) false
    host.issue (.symlink target realTo)
    chownNewFile host settings realTo fc .lchown

def bindfsRename (source dest : CString) (flags : Nat) : Sys W Unit :=
  if settings.rename_deny then fail .eperm
  else do
    let realFrom ← processPath host settings (some source) false
    let realTo ← processPath host settings (some dest) true
    -- No header included by bindfs.c defines __NR_renameat2: a rename with flags is refused.
    if flags = 0 then host.issue (.rename realFrom realTo) else fail .einval

def bindfsLink (source dest : CString) : Sys W Unit := do
  let realFrom ← processPath host settings (some source) true
  let realTo ← processPath host settings (some dest) true
  host.issue (.link realFrom realTo)

def forwardedFlags (flags : OpenFlags) : OpenFlags :=
  if settings.forward_odirect then flags else flags &&& ~~~O_DIRECT

def bindfsCreate (fc : FuseContext) (path : CString) (flags : OpenFlags) (mode : Mode) :
    Sys W Nat := do
  let realPath ← processPath host settings (some path) true
  -- Tell permchain_apply that this is a regular file.
  let mode := settings.create_permchain.apply (mode ||| S_IFREG)
  let fd ← host.callOpen realPath (forwardedFlags settings flags) (some (mode &&& 0o777#32))
  -- The result of chown_new_file is not looked at.
  let _ ← attempt (chownNewFile host settings realPath fc .chown)
  pure fd

def bindfsOpen (path : CString) (flags : OpenFlags) : Sys W Nat := do
  let realPath ← processPath host settings (some path) true
  host.callOpen realPath (forwardedFlags settings flags) none

/-! ## Extended attributes -/

def bindfsSetxattr (path name : CString) (value : List UInt8) (flags : Nat) : Sys W Unit :=
  if settings.xattr_policy = .readOnly then fail .eacces
  else do
    let realPath ← processPath host settings (some path) true
    host.issue (.lsetxattr realPath name value flags)

def bindfsGetxattr (path name : CString) (size : Nat) : Sys W (List UInt8) := do
  let realPath ← processPath host settings (some path) true
  ask (.lgetxattr realPath name size) (host.lgetxattr · realPath name size)

def bindfsListxattr (path : CString) (size : Nat) : Sys W (List UInt8) := do
  let realPath ← processPath host settings (some path) true
  ask (.llistxattr realPath size) (host.llistxattr · realPath size)

def bindfsRemovexattr (path name : CString) : Sys W Unit :=
  if settings.xattr_policy = .readOnly then fail .eacces
  else do
    let realPath ← processPath host settings (some path) true
    host.issue (.lremovexattr realPath name)

/-! ## Open files -/

def roundUpBufferSizeForDirectIo (size : Nat) : Nat :=
  let rem := size % settings.odirect_alignment
  if rem = 0 then size else size - rem + settings.odirect_alignment

/-- Whether a transfer gets the aligned buffer it needs. The buffer is unmapped again. -/
def directIoBuffer (flags : OpenFlags) (size : Nat) : Sys W Unit :=
  if flags &&& O_DIRECT ≠ 0#32 ∧ settings.forward_odirect then
    if host.mmap (roundUpBufferSizeForDirectIo settings size) then pure () else fail .enomem
  else pure ()

def bindfsRead (fd : Nat) (flags : OpenFlags) (size : Nat) (offset : Int) : Sys W (List UInt8) := do
  directIoBuffer host settings flags size
  host.callDescriptor (.pread fd size offset)

def bindfsWrite (fd : Nat) (flags : OpenFlags) (data : List UInt8) (offset : Int) :
    Sys W (List UInt8) := do
  directIoBuffer host settings flags data.length
  host.callDescriptor (.pwrite fd data offset)

/-- Installed only with lock forwarding. -/
def bindfsLock (fd cmd : Nat) : Sys W (List UInt8) := host.callDescriptor (.fcntl fd cmd)

/-- Installed only with lock forwarding. -/
def bindfsFlock (fd op : Nat) : Sys W (List UInt8) := host.callDescriptor (.flock fd op)

/-- Installed only with ioctl forwarding. -/
def bindfsIoctl (fd cmd : Nat) : Sys W (List UInt8) := host.callDescriptor (.ioctl fd cmd)

/-- Nothing defines HAVE_FDATASYNC: `isdatasync` is not looked at. -/
def bindfsFsync (fd : Nat) (_isdatasync : Bool) : Sys W (List UInt8) := host.callDescriptor (.fsync fd)

/-- `bindfs_release` does not look at the answer of close(2). -/
def bindfsRelease (fd : Nat) : Sys W Unit := do
  let _ ← attempt (host.callDescriptor (.close fd))
  pure ()

end

end Bindfs.Source
