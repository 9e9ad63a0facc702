import Bindfs.Source.DirectorySpecs

/-!
# Calls into the mountpoint

With symbolic links resolved, no request may lead back into the mountpoint: a single-threaded
bindfs would wait for itself. This module says what that means. `location` says where a path
leads in a tree, with or without following a link in its last component; `ResolutionLaws` is
what a file system promises about it, `Guarded` the property of a request.

`process_path` refuses paths that resolve into the mountpoint, but three ways lead past it:
the directory loop and the deletion policies resolve links on their own, and a path that
does not resolve is used as it stands. `Clear` says of a request that none of them is open
where the request would take it.
-/
namespace Bindfs.Guarantees.RecursionGuard
open Bindfs.Source Bindfs.Lib.Effects

/-- The path is the directory or lies below it. -/
def Below (directory path : CString) : Prop :=
  path = directory.rdropWhile (· = '/') ∨ directory.rdropWhile (· = '/') ++ ['/'] <+: path

theorem below_of_parent {directory path : CString} (absolute : path.head? = some '/')
    (below : Below directory (myDirname path)) : Below directory path := by
  rcases parent_cases path absolute with same | root | ⟨rest, split⟩
  · rwa [same] at below
  · rw [root] at below
    rcases below with same | inside
    · -- a trimmed directory does not end in a slash
      have trimmed : (directory.rdropWhile (· = '/')).rdropWhile (· = '/') =
          directory.rdropWhile (· = '/') := List.rdropWhile_idempotent _ _
      rw [← same] at trimmed
      cases trimmed
    · have empty : directory.rdropWhile (· = '/') = [] := by
        have short := inside.length_le
        simp only [List.length_append, List.length_singleton] at short
        exact List.length_eq_zero_iff.mp (by omega)
      refine Or.inr ?_
      rw [empty]
      cases path with
      | nil => cases absolute
      | cons c rest =>
        simp only [List.head?_cons, Option.some.injEq] at absolute
        exact ⟨rest, by simp [absolute]⟩
  · refine Or.inr ?_
    rcases below with same | inside
    · exact ⟨rest, by rw [← same, List.append_assoc]; exact split.symm⟩
    · exact inside.trans ⟨'/' :: rest, split.symm⟩

/-- The path at which a call makes a new object that is no link. -/
def madeAt : SysCall → Option CString
  | .mkfifo path _ => some path
  | .mknod path _ _ => some path
  | .mkdir path _ => some path
  | _ => none

/-- unlink(2) and rmdir(2). -/
def IsDeletion (delete : CString → SysCall) : Prop := delete = .unlink ∨ delete = .rmdir

section
variable {W : Type} (host : Host W) (settings : Settings)
  (location : W → Bool → CString → Option CString)

/-- What a file system promises about where paths lead. -/
structure ResolutionLaws : Prop where
  absolute : ∀ {world path target}, host.realpath world path = .ok target →
    target.head? = some '/'
  /-- A canonical path, and its parent, lead to themselves. -/
  canonical : ∀ {world path target}, host.realpath world path = .ok target → ∀ follow,
    location world follow target = some target ∧
      location world follow (myDirname target) = some (myDirname target)
  resolves : ∀ {world path target}, host.realpath world path = .ok target →
    location world true path = some target
  /-- Without a link in the last component there is nothing to follow. -/
  no_link : ∀ {world path stbuf}, host.lstat world path = .ok stbuf →
    S_ISLNK stbuf.st_mode = false → location world true path = location world false path
  /-- A new object stands where it was made, in the same directory. -/
  made : ∀ {world world' c path}, madeAt c = some path → host.perform world c = .ok world' →
    location world' true path = location world false path ∧
      location world' false (myDirname path) = location world false (myDirname path)
  opened : ∀ {world world' path flags mode fd},
    host.openFile world path flags mode = .ok (fd, world') →
      location world' true path = location world true path ∧
        location world' false (myDirname path) = location world false (myDirname path)
  /-- A deleted link leaves its target where it was. -/
  unlinked : ∀ {world world' path stbuf target}, host.lstat world path = .ok stbuf →
    S_ISLNK stbuf.st_mode = true → host.realpath world path = .ok target →
      host.perform world (.unlink path) = .ok world' → location world' false target = some target
  /-- Deleting opens no new ways. -/
  removed : ∀ {delete world world' path}, IsDeletion delete →
    host.perform world (delete path) = .ok world' →
      ∀ {other place}, location world' false other = some place →
        location world false other = some place

/-! ## The property -/

/-- Where the path leads, it is not into the mountpoint. -/
def Outside (world : W) (follow : Bool) (path : CString) : Prop :=
  ∀ place, location world follow path = some place → ¬ Below settings.mntdest place

/-- None of the call's operands leads into the mountpoint. -/
def Admissible (world : W) (c : SysCall) : Prop :=
  ∀ operand ∈ c.operands, Outside settings location world operand.2 operand.1

/-- The call found out that a path leads into the mountpoint. -/
def Alarming (world : W) (c : SysCall) : Prop :=
  ∃ path target, c = .realpath path ∧ host.realpath world path = .ok target ∧
    Below settings.mntdest target

/-- No call of the request touches the mountpoint, and if a path of it resolves there the
request fails with EPERM. -/
structure Guarded (step : Step W) : Prop where
  outside : ∀ entry ∈ (step.outcome host settings).calls, ∀ operand ∈ entry.2.operands,
    ∀ place, location entry.1 operand.2 operand.1 = some place → ¬ Below settings.mntdest place
  refused : ∀ world path target,
    (world, .realpath path) ∈ (step.outcome host settings).calls →
      host.realpath world path = .ok target → Below settings.mntdest target →
        (step.outcome host settings).result = .error .eperm

/-! ## The condition -/

/-- A path that does not resolve, because it is missing or a broken link, is used as it
stands; it does not lead into the mountpoint. -/
def LostClear (world : W) (follow : Bool) (path : CString) : Prop :=
  host.realpath world path = .error .enoent → Outside settings location world follow path

/-- Nor does the directory that a missing path is created in, which is looked at for the owner
of the new object. -/
def LostParentClear (world : W) (path : CString) : Prop :=
  settings.create_policy = .asUser → host.realpath world path = .error .enoent →
    Outside settings location world false (myDirname path)

/-- A path about to be deleted does not lead into the mountpoint and, where the target of a link
goes too, is no link into it. Of the two policies the first notices a link that cannot be
deleted. -/
def DeletionClear (world : W) (path : CString) : Prop :=
  settings.delete_deny = false →
    Outside settings location world false path ∧
      ∀ stbuf target, host.lstat world path = .ok stbuf → S_ISLNK stbuf.st_mode = true →
        host.realpath world path = .ok target → Below settings.mntdest target →
          match settings.resolved_symlink_deletion_policy with
          | .symlinkFirst => host.perform world (.unlink path) = .error .eperm
          | .targetFirst => False
          | _ => True

/-- An entry that readdir looks at is not in the mountpoint, nor a link into it. -/
def EntryClear (world : W) (readdirplus : Bool) (path : CString) (de : Dirent) : Prop :=
  if de.d_type = .lnk then
    match host.realpath world path with
    | .ok target => ¬ Below settings.mntdest target
    | .error _ => Outside settings location world false path
  else readdirplus = true → Outside settings location world false path

/-- The entries of a listing, up to the first that ends it. -/
def EntriesClear (fc : FuseContext) (world : W) (filler : Filled → Except Errno Unit)
    (readdirplus : Bool) (realPath : CString) : List Dirent → Prop
  | [] => True
  | de :: rest =>
    EntryClear host settings location world readdirplus (entryPath realPath de) de ∧
      ∀ filled, entryReport host settings fc world readdirplus realPath de = .ok filled →
        filler filled = .ok () → EntriesClear fc world filler readdirplus realPath rest

/-- The call of `bindfs_mknod`. -/
def mknodCall (path : CString) (mode : Mode) (rdev : Nat) : SysCall :=
  if S_ISFIFO (settings.create_permchain.apply mode) then
    .mkfifo path (settings.create_permchain.apply mode)
  else .mknod path (settings.create_permchain.apply mode) rdev

/-- The call of `bindfs_mkdir`. -/
def mkdirCall (path : CString) (mode : Mode) : SysCall :=
  .mkdir path (settings.create_permchain.apply (mode ||| S_IFDIR) &&& 0o777#32)

/-- What `bindfs_create` opens. -/
def createOpens (world : W) (path : CString) (flags : OpenFlags) (mode : Mode) :
    Except Errno (Nat × W) :=
  host.openFile world path (forwardedFlags settings flags)
    (some (settings.create_permchain.apply (mode ||| S_IFREG) &&& 0o777#32))

/-- The request meets none of the ways past `process_path` that it would go. -/
def Clear (step : Step W) : Prop :=
  let world := step.tree
  match step.request with
  | .getattr path => LostClear host settings location world false (stripSlashes path)
  | .readlink path _ => LostClear host settings location world false (stripSlashes path)
  | .readdir path filler readdirplus =>
    LostClear host settings location world true (stripSlashes path) ∧
      ∀ realPath listing, requestPath host settings world path = .ok realPath →
        host.opendir world realPath = .ok listing →
          EntriesClear host settings location step.caller world filler readdirplus realPath
            listing.entries
  | .mknod path mode rdev =>
    LostClear host settings location world false (stripSlashes path) ∧
      ∀ world', host.perform world (mknodCall settings (stripSlashes path) mode rdev) = .ok world' →
        LostParentClear host settings location world (stripSlashes path)
  | .mkdir path mode =>
    LostClear host settings location world false (stripSlashes path) ∧
      ∀ world', host.perform world (mkdirCall settings (stripSlashes path) mode) = .ok world' →
        LostParentClear host settings location world (stripSlashes path)
  | .create path flags mode =>
    LostClear host settings location world true (stripSlashes path) ∧
      ∀ opened, createOpens host settings world (stripSlashes path) flags mode = .ok opened →
        LostParentClear host settings location world (stripSlashes path)
  | .unlink path => DeletionClear host settings location world (stripSlashes path)
  | .rmdir path => DeletionClear host settings location world (stripSlashes path)
  | .rename source dest flags =>
    settings.rename_deny = false → flags = 0 →
      ∀ realTo, requestPath host settings world dest = .ok realTo →
        Outside settings location world false (stripSlashes source) ∧
          LostClear host settings location world false (stripSlashes dest)
  | .link source dest =>
    ∀ realFrom realTo, requestPath host settings world source = .ok realFrom →
      requestPath host settings world dest = .ok realTo →
        LostClear host settings location world false (stripSlashes source) ∧
          LostClear host settings location world false (stripSlashes dest)
  | .chmod path mode =>
    (settings.chmod_allow_x = true →
      LostClear host settings location world false (stripSlashes path)) ∧
    ∀ old, oldMode host settings world (stripSlashes path) = .ok old → Rechmods settings mode old →
      LostClear host settings location world true (stripSlashes path)
  | .chown path uid gid =>
    ∀ owner group, chownUid settings uid = .ok owner → chownGid settings gid = .ok group →
      owner ≠ noId ∨ group ≠ noId →
        LostClear host settings location world false (stripSlashes path)
  | .truncate path _ => LostClear host settings location world true (stripSlashes path)
  | .utimens path _ _ => LostClear host settings location world false (stripSlashes path)
  | .openFile path _ => LostClear host settings location world true (stripSlashes path)
  | .statfs path => LostClear host settings location world true (stripSlashes path)
  | .setxattr path _ _ _ => settings.xattr_policy = .readWrite →
      LostClear host settings location world false (stripSlashes path)
  | .getxattr path _ _ => settings.xattr_policy ≠ .unimplemented →
      LostClear host settings location world false (stripSlashes path)
  | .listxattr path _ => settings.xattr_policy ≠ .unimplemented →
      LostClear host settings location world false (stripSlashes path)
  | .removexattr path _ => settings.xattr_policy = .readWrite →
      LostClear host settings location world false (stripSlashes path)
  -- links are not created while links are resolved, and the rest has no path
  | _ => True

end

end Bindfs.Guarantees.RecursionGuard
