import Bindfs.Source.MapParsing
import Bindfs.Source.Settings

/-!
# Options of the command line

`fuse_opt_parse` belongs to libfuse. It stores the argument of each `name=%s` option in the
record `OptionData` and calls `process_option` for every other recognised word, in the order
of the command line. `CommandLine` is what it delivers: the record filled at the end, the
calls it makes, and whether it stops with an error of its own after them.
-/
namespace Bindfs.Source

/-- `OptionData`, without `no_allow_other` and `fsname`: these only become arguments of
`fuse_main`. -/
structure OptionData where
  user : Option CString
  deprecated_user : Option CString
  group : Option CString
  deprecated_group : Option CString
  perms : Option CString
  mirror : Option CString
  mirror_only : Option CString
  map : Option CString
  map_passwd : Option CString
  map_group : Option CString
  map_passwd_rev : Option CString
  map_group_rev : Option CString
  read_rate : Option CString
  write_rate : Option CString
  create_for_user : Option CString
  create_for_group : Option CString
  create_with_perms : Option CString
  chmod_filter : Option CString
  resolved_symlink_deletion : Option CString
  multithreaded : Bool
  forward_odirect : Option CString
  uid_offset : Option CString
  gid_offset : Option CString

/-- The record after `memset(&od, 0, sizeof(od))`. -/
def OptionData.empty : OptionData where
  user := none
  deprecated_user := none
  group := none
  deprecated_group := none
  perms := none
  mirror := none
  mirror_only := none
  map := none
  map_passwd := none
  map_group := none
  map_passwd_rev := none
  map_group_rev := none
  read_rate := none
  write_rate := none
  create_for_user := none
  create_for_group := none
  create_with_perms := none
  chmod_filter := none
  resolved_symlink_deletion := none
  multithreaded := false
  forward_odirect := none
  uid_offset := none
  gid_offset := none

inductive OptionKey where
  | nonoption | unknown | help | version | fuseVersion
  | createAsUser | createAsMounter
  | chownNormal | chownIgnore | chownDeny
  | chgrpNormal | chgrpIgnore | chgrpDeny
  | chmodNormal | chmodIgnore | chmodDeny | chmodAllowX
  | xattrNone | xattrReadOnly | xattrReadWrite
  | deleteDeny | renameDeny
  | realisticPermissions | ctimeFromMtime
  | enableLockForwarding | disableLockForwarding | enableIoctl
  | hideHardLinks | resolveSymlinks | blockDevicesAsFiles
  | directIo | noDirectIo
  deriving DecidableEq, Repr

structure CommandLine where
  od : OptionData
  calls : List (OptionKey × CString)
  malformed : Bool

/-- What the program asks the system for before it mounts. `positiveRate` stands for
`parse_byte_count` with a positive result, which is read with `strtod`. -/
structure System where
  getuid : Id
  users : UserDb
  readFile : CString → Option (List Char)
  realpath : CString → Option CString
  canOpen : CString → Bool
  positiveRate : CString → Bool

/-- A system for examples: root mounts, every path is its own real path. -/
def rootSystem : System where
  getuid := 0#32
  users := numericUsers
  readFile _ := none
  realpath := some
  canOpen _ := true
  positiveRate _ := true

/-- The same with a passwd or group file of this content. -/
def passwdSystem (content : String) : System := { rootSystem with readFile _ := some content.toList }

/-- How the program can end without having called `fuse_main`. -/
inductive MainEnd where
  /-- exit(3) inside `process_option`. -/
  | exits (status : Nat)
  | returns (status : Nat)
  /-- A failed assertion. -/
  | aborts
  /-- A write past the end of an array. -/
  | overruns
  deriving DecidableEq, Repr

/-! ## process_option -/

/-- The settings while options are parsed; NULL paths are `none`. -/
structure Startup where
  settings : Settings
  mntsrc : Option CString
  mntdest : Option CString

/-- The options that only store into the settings. -/
def storeOption (key : OptionKey) (settings : Settings) : Settings :=
  match key with
  | .createAsMounter => { settings with create_policy := .asMounter }
  | .chownNormal => { settings with chown_policy := .normal }
  | .chownIgnore => { settings with chown_policy := .ignore }
  | .chownDeny => { settings with chown_policy := .deny }
  | .chgrpNormal => { settings with chgrp_policy := .normal }
  | .chgrpIgnore => { settings with chgrp_policy := .ignore }
  | .chgrpDeny => { settings with chgrp_policy := .deny }
  | .chmodNormal => { settings with chmod_policy := .normal }
  | .chmodIgnore => { settings with chmod_policy := .ignore }
  | .chmodDeny => { settings with chmod_policy := .deny }
  | .chmodAllowX => { settings with chmod_allow_x := true }
  | .xattrNone => { settings with xattr_policy := .unimplemented }
  | .xattrReadOnly => { settings with xattr_policy := .readOnly }
  | .xattrReadWrite => { settings with xattr_policy := .readWrite }
  | .deleteDeny => { settings with delete_deny := true }
  | .renameDeny => { settings with rename_deny := true }
  | .realisticPermissions => { settings with realistic_permissions := true }
  | .ctimeFromMtime => { settings with ctime_from_mtime := true }
  | .enableLockForwarding => { settings with enable_lock_forwarding := true }
  | .disableLockForwarding => { settings with enable_lock_forwarding := false }
  | .enableIoctl => { settings with enable_ioctl := true }
  | .hideHardLinks => { settings with hide_hard_links := true }
  | .resolveSymlinks => { settings with resolve_symlinks := true }
  | .blockDevicesAsFiles => { settings with block_devices_as_files := true }
  -- direct_io is handed to libfuse; the default case leaves the word for `fuse_main`
  | _ => settings

/-- The source directory: a path below /proc is not resolved. -/
def resolveSource (system : System) (arg : CString) : Option CString :=
  if ['/', 'p', 'r', 'o', 'c', '/'].isPrefixOf arg then some arg else system.realpath arg

/-- `process_option`; an error of -1 makes `fuse_opt_parse` fail, and `main` returns 1. -/
def processOption (system : System) (startup : Startup) (call : OptionKey × CString) :
    Except MainEnd Startup :=
  match call with
  | (.help, _) => .error (.exits 0)
  | (.version, _) => .error (.exits 0)
  | (.fuseVersion, _) => .error (.exits 0)
  | (.createAsUser, _) =>
    if system.getuid = 0#32 then
      .ok { startup with settings := { startup.settings with create_policy := .asUser } }
    else .error (.returns 1)
  | (.nonoption, arg) =>
    match startup.mntsrc, startup.mntdest with
    | none, _ =>
      match resolveSource system arg with
      | none => .error (.returns 1)
      | some path => .ok { startup with mntsrc := some path }
    | some _, none =>
      match system.realpath arg with
      | none => .error (.returns 1)
      | some path => .ok { startup with mntdest := some path }
    | some _, some _ => .error (.returns 1)
  | (key, _) => .ok { startup with settings := storeOption key startup.settings }

/-! ## parse_mirrored_users -/

/-- The ids resolved so far: `i` and `j` of the source are the lengths. -/
structure Mirrored where
  users : List Id
  members : List Id
  deriving DecidableEq, Repr

inductive MirrorEnd where
  | invalidId
  | overrun
  | failedAssertion
  deriving DecidableEq, Repr

/-- One token: `user_uid` and `group_gid` write through the next array slot when they succeed. -/
def mirrorToken (db : UserDb) (numUsers numMembers : Nat) (found : Mirrored) (token : CString) :
    Except MirrorEnd Mirrored :=
  match token with
  | '@' :: groupname =>
    match groupGid db groupname with
    | none => .error .invalidId
    | some gid =>
      if found.members.length < numMembers then
        .ok { found with members := found.members ++ [gid] }
      else .error .overrun
  | username =>
    match userUid db username with
    | none => .error .invalidId
    | some uid =>
      if found.users.length < numUsers then .ok { found with users := found.users ++ [uid] }
      else .error .overrun

/-- The loop. At the end of the string the assertions make its condition false. -/
def mirrorLoop (db : UserDb) (numUsers numMembers : Nat) (found : Mirrored) (p : CString) :
    Except MirrorEnd Mirrored :=
  if found.users.length < numUsers ∨ found.members.length < numMembers then
    match mirrorToken db numUsers numMembers found (strdupUntil p [',', ':']) with
    | .error stop => .error stop
    | .ok found =>
      match _rest : p.dropWhile (fun c => !isSeparator c) with
      | [] =>
        if found.users.length = numUsers ∧ found.members.length = numMembers then .ok found
        else .error .failedAssertion
      | _ :: rest => mirrorLoop db numUsers numMembers found rest
  else .ok found
termination_by p.length
decreasing_by
  have shorter := (List.dropWhile_sublist (fun c => !isSeparator c) (l := p)).length_le
  rw [_rest] at shorter
  exact shorter

/-- `parse_mirrored_users`. Every counted member follows a separator or starts the string, so
the subtraction does not wrap. -/
def parseMirroredUsers (db : UserDb) (mirror : CString) : Except MirrorEnd Mirrored :=
  let numMirroredMembers := (if mirror.head? = some '@' then 1 else 0) +
    countSubstrs [',', '@'] mirror + countSubstrs [':', '@'] mirror
  let numMirroredUsers := countChars mirror ',' + countChars mirror ':' + 1 - numMirroredMembers
  mirrorLoop db numMirroredUsers numMirroredMembers ⟨[], []⟩ mirror

end Bindfs.Source
