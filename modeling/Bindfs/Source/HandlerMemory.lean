import Bindfs.Lib.OwnedCells
import Bindfs.Source.Requests

/-!
# The handlers with their memory

The handlers once more, now with what they acquire and have to give back on every way out: the
strings that `process_path`, `realpath` and `strdup` allocate, the path buffer and the stream of
a directory that is read, the descriptor of a block device whose size is asked for, and the
mappings of direct I/O. Each is a cell of a heap. `free`, `closedir`, `close` and `munmap`
release it, and a string or a buffer is read where the source hands its pointer to a function.

Allocations do not fail here. A descriptor that `open` or `create` hands to the caller is not
the handler's to give back.
-/
namespace Bindfs.Source
open Bindfs.Lib.Effects Bindfs.Lib.OwnedCells

inductive Cell where
  | text (content : CString)
  | bytes (content : List UInt8)
  /-- A `DIR`. -/
  | stream
  | descriptor
  deriving DecidableEq, Repr

abbrev MemSys (W α : Type) := Eff (W × Heap Cell) SysCall Errno α

def Cell.text? : Cell → Option CString
  | .text content => some content
  | _ => none

/-- The first bytes of a buffer, if it has as many. -/
def Cell.bytes? (count : Nat) : Cell → Option (List UInt8)
  | .bytes content => if count ≤ content.length then some (content.take count) else none
  | _ => none

/-- A buffer that some bytes were written to the start of, if it has room for them. -/
def Cell.overwrite? (data : List UInt8) : Cell → Option (List UInt8)
  | .bytes content => if data.length ≤ content.length then some (data ++ content.drop data.length) else none
  | _ => none

section
variable {W : Type} (host : Host W) (settings : Settings)

/-! ## Shared parts -/

def readText (p : Nat) : MemSys W CString := load Cell.text? p

def strdup (text : CString) : MemSys W Nat := acquire (.text text)

/-- `return res;`, with the errno as it was saved or is still set. -/
def answer {α : Type} : Except Errno α → MemSys W α
  | .ok value => pure value
  | .error error => fail error

/-- `realpath(path, NULL)` allocates its result. -/
def realpathInMemory (path : CString) : MemSys W Nat := do
  let result ← lift (host.callRealpath path)
  strdup result

def processPathInMemory (path : Option CString) (resolveSymlinks : Bool) : MemSys W Nat :=
  match path with
  | none => fail .einval
  | some path =>
    let path := stripSlashes path
    if resolveSymlinks && settings.resolve_symlinks then do
      match ← attempt (realpathInMemory host path) with
      | .error .enoent => strdup path
      | .error error => fail error
      | .ok result => do
        let text ← readText result
        if pathStartsWith text settings.mntdest then do
          release result
          fail .eperm
        else pure result
    else strdup path

def blockDeviceAsFileInMemory (procpath : Nat) (stbuf : Stat) : MemSys W Stat :=
  if settings.block_devices_as_files && S_ISBLK stbuf.st_mode then do
    let path ← readText procpath
    let size ← lift (host.callBlockSize path)
    let fd ← acquire .descriptor
    if size.toInt < 0 then do
      release fd
      fail .eoverflow
    else do
      release fd
      pure { stbuf with st_mode := stbuf.st_mode ^^^ (S_IFBLK ||| S_IFREG), st_size := size.toInt }
  else pure stbuf

def reportFileInMemory (procpath : Nat) (stbuf : Stat) : MemSys W Stat := do
  let stbuf ← blockDeviceAsFileInMemory host settings procpath (hideHardLinks settings stbuf)
  let path ← readText procpath
  lift (reportPermissions host settings path stbuf)

def getattrCommonInMemory (fc : FuseContext) (procpath : Nat) (stbuf : Stat) : MemSys W Stat :=
  match translateStat settings stbuf with
  | none => fail uidGidOverflowErrno
  | some stbuf =>
    if isMirroringEnabled settings && isMirroredUser host settings fc.uid then
      reportFileInMemory host settings procpath { stbuf with st_uid := fc.uid }
    else if settings.mirrored_users_only && fc.uid ≠ 0#32 then
      pure { stbuf with st_mode := stbuf.st_mode &&& ~~~0o777#32 }
    else reportFileInMemory host settings procpath stbuf

/-- The part of `chown_new_file` that looks at the directory. `my_dirname` needs a copy of the
path that it may write to. -/
def inheritsGroupInMemory (path : Nat) : MemSys W Bool :=
  match settings.create_policy with
  | .asUser => do
    let text ← readText path
    let pathCopy ← strdup text
    let copied ← readText pathCopy
    let found ← attempt (lift (host.callLstat (myDirname copied)))
    release pathCopy
    match found with
    | .ok stbuf => pure (stbuf.st_mode &&& S_ISGID ≠ 0#32)
    | .error _ => pure false
  | .asMounter => pure false

def chownNewFileInMemory (path : Nat) (fc : FuseContext) (chownFunc : CString → Id → Id → SysCall) :
    MemSys W Unit := do
  let setgid ← inheritsGroupInMemory host settings path
  match newFileOwner settings fc setgid with
  | none => fail uidGidOverflowErrno
  | some (fileOwner, fileGroup) =>
    if fileOwner ≠ noId ∨ fileGroup ≠ noId then do
      let text ← readText path
      let _ ← attempt (lift (host.issue (chownFunc text fileOwner fileGroup)))
      pure ()
    else pure ()

/-! ## Deletion -/

/-- The end of `delete_file`. `free(NULL)` does nothing. -/
def deleteThenTryInMemory (realPath : Nat) (mainDelete targetDelete : CString → SysCall)
    (alsoTryDelete : Option Nat) : MemSys W Unit := do
  let path ← readText realPath
  let res ← attempt (lift (host.issue (mainDelete path)))
  release realPath
  match res, alsoTryDelete with
  | .error error, none => fail error
  | .error error, some target => do
    release target
    fail error
  | .ok (), none => pure ()
  | .ok (), some target => do
    let text ← readText target
    let _ ← attempt (lift (host.issue (targetDelete text)))
    release target

def deleteFileInMemory (path : CString) (targetDelete : CString → SysCall) : MemSys W Unit :=
  if settings.delete_deny then fail .eperm
  else do
    let realPath ← processPathInMemory host settings (some path) false
    if settings.resolve_symlinks then do
      let text ← readText realPath
      match ← attempt (lift (host.callLstat text)) with
      | .error error => do
        release realPath
        fail error
      | .ok st =>
        if S_ISLNK st.st_mode then
          match settings.resolved_symlink_deletion_policy with
          | .deny => do
            release realPath
            fail .eperm
          | .symlinkOnly => deleteThenTryInMemory host realPath .unlink targetDelete none
          | .symlinkFirst => do
            match ← attempt (realpathInMemory host text) with
            | .error .enoent => deleteThenTryInMemory host realPath .unlink targetDelete none
            | .error error => do
              release realPath
              fail error
            | .ok target => deleteThenTryInMemory host realPath .unlink targetDelete (some target)
          | .targetFirst => do
            match ← attempt (realpathInMemory host text) with
            | .error .enoent => deleteThenTryInMemory host realPath targetDelete targetDelete none
            | .error error => do
              release realPath
              fail error
            | .ok unlinkFirst => do
              let target ← readText unlinkFirst
              let res ← attempt (lift (host.issue (.unlink target)))
              release unlinkFirst
              match res with
              | .error error => do
                release realPath
                fail error
              | .ok () => deleteThenTryInMemory host realPath targetDelete targetDelete none
        else deleteThenTryInMemory host realPath targetDelete targetDelete none
    else deleteThenTryInMemory host realPath targetDelete targetDelete none

/-! ## Handlers of one or two paths -/

/-- The handlers that issue one call on a path. -/
def pathCallInMemory {α : Type} (path : CString) (call : CString → Sys W α) : MemSys W α := do
  let realPath ← processPathInMemory host settings (some path) true
  let text ← readText realPath
  let res ← attempt (lift (call text))
  release realPath
  answer res

def bindfsReadlinkInMemory (path : CString) (size : Nat) : MemSys W CString :=
  pathCallInMemory host settings path fun realPath =>
    ask (.readlink realPath (size - 1)) (host.readlink · realPath (size - 1))

def bindfsTruncateInMemory (path : CString) (size : Int) : MemSys W Unit :=
  pathCallInMemory host settings path fun realPath => host.issue (.truncate realPath size)

def bindfsUtimensInMemory (path : CString) (atime mtime : Int) : MemSys W Unit :=
  pathCallInMemory host settings path fun realPath => host.issue (.utimensat realPath atime mtime)

def bindfsStatfsInMemory (path : CString) : MemSys W (List Nat) :=
  pathCallInMemory host settings path fun realPath => ask (.statvfs realPath) (host.statvfs · realPath)

def bindfsOpenInMemory (path : CString) (flags : OpenFlags) : MemSys W Nat :=
  pathCallInMemory host settings path fun realPath => host.callOpen realPath (forwardedFlags settings flags) none

def bindfsSetxattrInMemory (path name : CString) (value : List UInt8) (flags : Nat) : MemSys W Unit :=
  if settings.xattr_policy = .readOnly then fail .eacces
  else pathCallInMemory host settings path fun realPath => host.issue (.lsetxattr realPath name value flags)

def bindfsGetxattrInMemory (path name : CString) (size : Nat) : MemSys W (List UInt8) :=
  pathCallInMemory host settings path fun realPath =>
    ask (.lgetxattr realPath name size) (host.lgetxattr · realPath name size)

def bindfsListxattrInMemory (path : CString) (size : Nat) : MemSys W (List UInt8) :=
  pathCallInMemory host settings path fun realPath =>
    ask (.llistxattr realPath size) (host.llistxattr · realPath size)

def bindfsRemovexattrInMemory (path name : CString) : MemSys W Unit :=
  if settings.xattr_policy = .readOnly then fail .eacces
  else pathCallInMemory host settings path fun realPath => host.issue (.lremovexattr realPath name)

def bindfsChownInMemory (path : CString) (uid gid : Id) : MemSys W Unit :=
  match chownUid settings uid with
  | .error error => fail error
  | .ok uid =>
    match chownGid settings gid with
    | .error error => fail error
    | .ok gid =>
      if uid ≠ noId ∨ gid ≠ noId then
        pathCallInMemory host settings path fun realPath => host.issue (.lchown realPath uid gid)
      else pure ()

def bindfsChmodInMemory (path : CString) (mode : Mode) : MemSys W Unit := do
  let realPath ← processPathInMemory host settings (some path) true
  let text ← readText realPath
  match ← attempt (lift (executeOnlyMode host settings text)) with
  | .error error => do
    release realPath
    fail error
  | .ok old => do
    let res ← attempt (lift (chmodByPolicy host settings text mode old))
    -- Every branch of the switch ends with this.
    release realPath
    answer res

def bindfsGetattrInMemory (fc : FuseContext) (path : CString) : MemSys W Stat := do
  let realPath ← processPathInMemory host settings (some path) true
  let text ← readText realPath
  match ← attempt (lift (host.callLstat text)) with
  | .error error => do
    release realPath
    fail error
  | .ok stbuf => do
    let res ← attempt (getattrCommonInMemory host settings fc realPath stbuf)
    release realPath
    answer res

/-- The handlers that issue one call on two paths. -/
def twoPathCallInMemory (source dest : CString) (resolveSource : Bool) (call : CString → CString → Sys W Unit) :
    MemSys W Unit := do
  let realFrom ← processPathInMemory host settings (some source) resolveSource
  match ← attempt (processPathInMemory host settings (some dest) true) with
  | .error error => do
    release realFrom
    fail error
  | .ok realTo => do
    let source ← readText realFrom
    let dest ← readText realTo
    let res ← attempt (lift (call source dest))
    release realFrom
    release realTo
    answer res

def bindfsRenameInMemory (source dest : CString) (flags : Nat) : MemSys W Unit :=
  if settings.rename_deny then fail .eperm
  else twoPathCallInMemory host settings source dest false fun realFrom realTo =>
    if flags = 0 then host.issue (.rename realFrom realTo) else fail .einval

def bindfsLinkInMemory (source dest : CString) : MemSys W Unit :=
  twoPathCallInMemory host settings source dest true fun realFrom realTo => host.issue (.link realFrom realTo)

/-! ## Creation -/

/-- The handlers that create something and then give it to the caller. -/
def creationInMemory (fc : FuseContext) (path : CString) (resolveSymlinks : Bool)
    (create : CString → SysCall) (chownFunc : CString → Id → Id → SysCall) : MemSys W Unit := do
  let realPath ← processPathInMemory host settings (some path) resolveSymlinks
  let text ← readText realPath
  match ← attempt (lift (host.issue (create text))) with
  | .error error => do
    release realPath
    fail error
  | .ok () => do
    let res ← attempt (chownNewFileInMemory host settings realPath fc chownFunc)
    release realPath
    answer res

def bindfsMknodInMemory (fc : FuseContext) (path : CString) (mode : Mode) (rdev : Nat) : MemSys W Unit :=
  let mode := settings.create_permchain.apply mode
  creationInMemory host settings fc path true
    (fun realPath => if S_ISFIFO mode then .mkfifo realPath mode else .mknod realPath mode rdev) .chown

def bindfsMkdirInMemory (fc : FuseContext) (path : CString) (mode : Mode) : MemSys W Unit :=
  let mode := settings.create_permchain.apply (mode ||| S_IFDIR)
  creationInMemory host settings fc path true (fun realPath => .mkdir realPath (mode &&& 0o777#32)) .chown

def bindfsSymlinkInMemory (fc : FuseContext) (target path : CString) : MemSys W Unit :=
  if settings.resolve_symlinks then fail .eperm
  else creationInMemory host settings fc path false (fun realTo => .symlink target realTo) .lchown

def bindfsCreateInMemory (fc : FuseContext) (path : CString) (flags : OpenFlags) (mode : Mode) :
    MemSys W Nat := do
  let realPath ← processPathInMemory host settings (some path) true
  let mode := settings.create_permchain.apply (mode ||| S_IFREG)
  let text ← readText realPath
  match ← attempt (lift (host.callOpen text (forwardedFlags settings flags) (some (mode &&& 0o777#32)))) with
  | .error error => do
    release realPath
    fail error
  | .ok fd => do
    let _ ← attempt (chownNewFileInMemory host settings realPath fc .chown)
    release realPath
    pure fd

/-! ## Directories -/

/-- The next entry is read from a stream that has to be open. -/
def readStream (dp : Nat) : MemSys W Unit :=
  load (fun cell => if cell = .stream then some () else none) dp

/-- The string in the path buffer, which is empty unless it was needed. -/
def readPathBuffer : Option Nat → MemSys W CString
  | some p => readText p
  | none => nullAccess

def storePathBuffer (text : CString) : Option Nat → MemSys W Unit
  | some p => store p (.text text)
  | none => nullAccess

def entryStatInMemory (pathBuf : Option Nat) (de : Dirent) : MemSys W Stat :=
  if settings.resolve_symlinks && de.d_type = .lnk then do
    let path ← readPathBuffer pathBuf
    match ← attempt (realpathInMemory host path) with
    | .ok resolved => do
      let target ← readText resolved
      let res ← attempt (lift (host.callLstat target))
      release resolved
      answer res
    | .error _ => do
      let path ← readPathBuffer pathBuf
      lift (host.callLstat path)
  else do
    let path ← readPathBuffer pathBuf
    lift (host.callLstat path)

/-- The body of the loop up to the filler. After an error the name stays in the path buffer. -/
def readdirEntryInMemory (fc : FuseContext) (readdirplus : Bool) (pathBuf : Option Nat) (de : Dirent) :
    MemSys W Filled :=
  if (settings.resolve_symlinks && de.d_type = .lnk) || readdirplus then do
    let directory ← readPathBuffer pathBuf
    storePathBuffer (directory ++ de.d_name) pathBuf
    let st ← entryStatInMemory host settings pathBuf de
    if readdirplus then do
      let st ← getattrCommonInMemory host settings fc (pathBuf.getD 0) st
      storePathBuffer directory pathBuf
      pure ⟨de.d_name, some st⟩
    else do
      storePathBuffer directory pathBuf
      pure ⟨de.d_name, none⟩
  else pure ⟨de.d_name, none⟩

def readdirLoopInMemory (fc : FuseContext) (readdirplus : Bool) (dp : Nat) (pathBuf : Option Nat)
    (filler : Filled → Except Errno Unit) (atEnd : Except Errno Unit) : List Dirent → MemSys W ReaddirReply
  | [] => do
    readStream dp
    pure ⟨[], atEnd⟩
  | de :: rest => do
    readStream dp
    match ← attempt (readdirEntryInMemory host settings fc readdirplus pathBuf de) with
    | .error error => pure ⟨[], .error error⟩
    | .ok entry =>
      match filler entry with
      | .error error => pure ⟨[], .error error⟩
      | .ok () => do
        let more ← readdirLoopInMemory fc readdirplus dp pathBuf filler atEnd rest
        pure ⟨entry :: more.filled, more.result⟩

/-- `path_buf` with the directory's path, where entries are looked up. -/
def openPathBuffer (readdirplus : Bool) (realPath : Nat) : MemSys W (Option Nat) :=
  if settings.resolve_symlinks || readdirplus then do
    let text ← readText realPath
    let pathBuf ← strdup (text ++ ['/'])
    pure (some pathBuf)
  else pure none

def freePathBuffer (readdirplus : Bool) (pathBuf : Option Nat) : MemSys W Unit :=
  if settings.resolve_symlinks || readdirplus then
    match pathBuf with
    | some p => release p
    | none => pure ()
  else pure ()

def bindfsReaddirInMemory (fc : FuseContext) (path : CString) (filler : Filled → Except Errno Unit)
    (readdirplus : Bool) : MemSys W ReaddirReply := do
  match ← attempt (processPathInMemory host settings (some path) true) with
  | .error error => pure ⟨[], .error error⟩
  | .ok realPath => do
    let text ← readText realPath
    match ← attempt (lift (host.callOpendir text)) with
    | .error error => do
      release realPath
      pure ⟨[], .error error⟩
    | .ok listing => do
      let dp ← acquire .stream
      let _ ← lift (ask (.pathconf text) (fun _ => .ok ()))
      let pathBuf ← openPathBuffer settings readdirplus realPath
      release realPath
      let reply ← readdirLoopInMemory host settings fc readdirplus dp pathBuf filler listing.atEnd
        listing.entries
      freePathBuffer settings readdirplus pathBuf
      release dp
      pure reply

/-! ## Transfers -/

/-- What the kernel leaves in the mapping: the bytes read at its start. -/
def readInto (targetBuf : Nat) (res : Except Errno (List UInt8)) : MemSys W Unit :=
  match res with
  | .ok data => do
    let content ← load (Cell.overwrite? data) targetBuf
    store targetBuf (.bytes content)
  | .error _ => pure ()

/-- With direct I/O the data takes the way through a mapping. The reply consists of the first
`res` bytes of the buffer. -/
def bindfsReadInMemory (fd : Nat) (flags : OpenFlags) (size : Nat) (offset : Int) : MemSys W (List UInt8) :=
  if flags &&& O_DIRECT ≠ 0#32 ∧ settings.forward_odirect then
    let mmapSize := roundUpBufferSizeForDirectIo settings size
    if host.mmap mmapSize then do
      let targetBuf ← acquire (.bytes (List.replicate mmapSize 0))
      let res ← attempt (lift (host.callDescriptor (.pread fd size offset)))
      readInto targetBuf res
      let buf ← load (Cell.bytes? size) targetBuf
      release targetBuf
      answer (res.map fun data => buf.take data.length)
    else fail .enomem
  else lift (host.callDescriptor (.pread fd size offset))

def bindfsWriteInMemory (fd : Nat) (flags : OpenFlags) (data : List UInt8) (offset : Int) :
    MemSys W (List UInt8) :=
  if flags &&& O_DIRECT ≠ 0#32 ∧ settings.forward_odirect then
    let mmapSize := roundUpBufferSizeForDirectIo settings data.length
    if host.mmap mmapSize then do
      let sourceBuf ← acquire (.bytes (List.replicate mmapSize 0))
      let content ← load (Cell.overwrite? data) sourceBuf
      store sourceBuf (.bytes content)
      let sent ← load (Cell.bytes? data.length) sourceBuf
      let res ← attempt (lift (host.callDescriptor (.pwrite fd sent offset)))
      release sourceBuf
      answer res
    else fail .enomem
  else lift (host.callDescriptor (.pwrite fd data offset))

/-! ## Requests -/

def whenInstalledInMemory {α : Type} (installed : Bool) (handler : MemSys W α) : MemSys W α :=
  if installed then handler else fail .enosys

def serveInMemory (fc : FuseContext) : Request → MemSys W Reply
  | .getattr path => do return .attributes (← bindfsGetattrInMemory host settings fc path)
  | .readlink path size => do return .text (← bindfsReadlinkInMemory host settings path size)
  | .readdir path filler plus => do
    let reply ← bindfsReaddirInMemory host settings fc path filler plus
    return .entries (← answer (reply.result.map fun _ => reply.filled))
  | .mknod path mode rdev => do bindfsMknodInMemory host settings fc path mode rdev; return .done
  | .mkdir path mode => do bindfsMkdirInMemory host settings fc path mode; return .done
  | .unlink path => do deleteFileInMemory host settings path .unlink; return .done
  | .rmdir path => do deleteFileInMemory host settings path .rmdir; return .done
  | .symlink target path => do bindfsSymlinkInMemory host settings fc target path; return .done
  | .rename source dest flags => do bindfsRenameInMemory host settings source dest flags; return .done
  | .link source dest => do bindfsLinkInMemory host settings source dest; return .done
  | .chmod path mode => do bindfsChmodInMemory host settings path mode; return .done
  | .chown path uid gid => do bindfsChownInMemory host settings path uid gid; return .done
  | .truncate path size => do bindfsTruncateInMemory host settings path size; return .done
  | .utimens path atime mtime => do bindfsUtimensInMemory host settings path atime mtime; return .done
  | .create path flags mode => do return .handle (← bindfsCreateInMemory host settings fc path flags mode)
  | .openFile path flags => do return .handle (← bindfsOpenInMemory host settings path flags)
  | .statfs path => do return .numbers (← bindfsStatfsInMemory host settings path)
  | .setxattr path name value flags =>
    whenInstalledInMemory (settings.xattr_policy ≠ .unimplemented) do
      bindfsSetxattrInMemory host settings path name value flags
      return .done
  | .getxattr path name size =>
    whenInstalledInMemory (settings.xattr_policy ≠ .unimplemented) do
      return .bytes (← bindfsGetxattrInMemory host settings path name size)
  | .listxattr path size =>
    whenInstalledInMemory (settings.xattr_policy ≠ .unimplemented) do
      return .bytes (← bindfsListxattrInMemory host settings path size)
  | .removexattr path name =>
    whenInstalledInMemory (settings.xattr_policy ≠ .unimplemented) do
      bindfsRemovexattrInMemory host settings path name
      return .done
  | .read fd flags size offset => do return .bytes (← bindfsReadInMemory host settings fd flags size offset)
  | .write fd flags data offset => do return .bytes (← bindfsWriteInMemory host settings fd flags data offset)
  -- These only hand a descriptor on.
  | request => lift (serve host settings fc request)

/-- A mount that serves requests one after another, with its replies. -/
def sessionInMemory : List (FuseContext × Request) → W × Heap Cell → (W × Heap Cell) × List (Except Errno Reply)
  | [], world => (world, [])
  | (fc, request) :: rest, world =>
    let outcome := (serveInMemory host settings fc request).exec world
    let later := sessionInMemory rest outcome.world
    (later.1, outcome.result :: later.2)

end

end Bindfs.Source
