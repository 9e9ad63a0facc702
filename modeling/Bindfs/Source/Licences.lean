import Bindfs.Lib.Moves
import Bindfs.Source.HandlerSpecs

/-!
# The calls that the settings allow

`Licensed` is the table of policies: for each system call, the settings under which a mount may
issue it at all. `licit_serve` says that no request goes beyond the table, whoever makes it and
whatever it meets: every call a handler issues is licensed, and the tree it leaves is reached by
the effects of licensed calls.
-/
namespace Bindfs.Source
open Bindfs.Lib.Effects Bindfs.Lib.Moves

/-- What a call that succeeds makes of the tree. -/
def Host.Moves {W : Type} (host : Host W) (world : W) (c : SysCall) (world' : W) : Prop :=
  host.perform world c = .ok world' ∨
    (∃ path flags mode fd, c = .openFile path flags mode ∧
      host.openFile world path flags mode = .ok (fd, world')) ∨
    ∃ call data, c = .descriptor call ∧ host.descriptor world call = .ok (data, world')

/-- The ids that some caller's new file is given; at least one of them is given. -/
def NewOwner (settings : Settings) (owner group : Id) : Prop :=
  (owner ≠ noId ∨ group ≠ noId) ∧ ∃ fc setgid, newFileOwner settings fc setgid = some (owner, group)

/-- The ids that a chown request may ask for under the policies. -/
def ChangedOwner (settings : Settings) (owner group : Id) : Prop :=
  (owner ≠ noId → settings.chown_policy = .normal) ∧ (group ≠ noId → settings.chgrp_policy = .normal) ∧
    (owner ≠ noId ∨ group ≠ noId)

def LicensedDescriptor (settings : Settings) : FdCall → Prop
  | .fcntl _ _ | .flock _ _ => settings.enable_lock_forwarding = true
  | .ioctl _ _ => settings.enable_ioctl = true
  | _ => True

def Licensed (settings : Settings) : SysCall → Prop
  | .unlink _ | .rmdir _ => settings.delete_deny = false
  | .rename _ _ => settings.rename_deny = false
  | .symlink _ _ => settings.resolve_symlinks = false
  | .lsetxattr _ _ _ _ | .lremovexattr _ _ =>
    settings.xattr_policy ≠ .unimplemented ∧ settings.xattr_policy ≠ .readOnly
  | .lgetxattr _ _ _ | .llistxattr _ _ => settings.xattr_policy ≠ .unimplemented
  | .chmod _ _ => settings.chmod_policy = .normal ∨ settings.chmod_allow_x = true
  | .chown _ owner group => NewOwner settings owner group
  | .lchown _ owner group => ChangedOwner settings owner group ∨
    (settings.resolve_symlinks = false ∧ NewOwner settings owner group)
  | .openFile _ flags _ => settings.forward_odirect = true ∨ flags &&& O_DIRECT = 0#32
  | .descriptor call => LicensedDescriptor settings call
  | .realpath _ | .access _ _ | .lstat _ | .blockSize _ | .opendir _ | .pathconf _ | .readlink _ _
  | .statvfs _ | .mkfifo _ _ | .mknod _ _ _ | .mkdir _ _ | .link _ _ | .truncate _ _
  | .utimensat _ _ _ => True

section
variable {W : Type} {host : Host W} {settings : Settings} {licensed : SysCall → Prop}

/-! ## Single calls -/

theorem licit_issue {c : SysCall} (allowed : licensed c) : Licit host.Moves licensed (host.issue c) := by
  intro world
  apply Traced.call allowed
  intro value world' answered
  cases performed : host.perform world c with
  | error error =>
    rw [performed] at answered
    cases answered
  | ok reached =>
    rw [performed] at answered
    cases answered
    exact Or.inl performed

theorem licit_callOpen {path : CString} {flags : OpenFlags} {mode : Option Mode}
    (allowed : licensed (.openFile path flags mode)) :
    Licit host.Moves licensed (host.callOpen path flags mode) := by
  intro world
  apply Traced.call allowed
  intro fd world' answered
  exact Or.inr (Or.inl ⟨path, flags, mode, fd, rfl, answered⟩)

theorem licit_callDescriptor {c : FdCall} (allowed : licensed (.descriptor c)) :
    Licit host.Moves licensed (host.callDescriptor c) := by
  intro world
  apply Traced.call allowed
  intro data world' answered
  exact Or.inr (Or.inr ⟨c, data, rfl, answered⟩)

theorem licit_reply {α β : Type} {program : Sys W α} (reply : α → β)
    (licit : Licit host.Moves licensed program) : Licit host.Moves licensed (do return reply (← program)) :=
  licit.bind fun _ => Licit.pure _

theorem licit_whenInstalled {α : Type} {installed : Bool} {handler : Sys W α}
    (licit : installed = true → Licit host.Moves licensed handler) :
    Licit host.Moves licensed (whenInstalled installed handler) := by
  unfold whenInstalled
  split
  · exact licit ‹_›
  · exact Licit.fail _

theorem licit_directIoBuffer (flags : OpenFlags) (size : Nat) :
    Licit host.Moves licensed (directIoBuffer host settings flags size) := by
  unfold directIoBuffer
  split
  · split
    · exact Licit.pure _
    · exact Licit.fail _
  · exact Licit.pure _

theorem licit_answerEntries (reply : ReaddirReply) :
    Licit host.Moves licensed (answerEntries reply : Sys W (List Filled)) := by
  unfold answerEntries
  split
  · exact Licit.pure _
  · exact Licit.fail _

/-! ## Shared parts -/

theorem licit_processPath (path : CString) (resolve : Bool) :
    Licit host.Moves (Licensed settings) (processPath host settings (some path) resolve) := by
  unfold processPath
  dsimp only
  split
  · refine (Licit.ask _ trivial).attempt.bind fun answer => ?_
    split
    · exact Licit.pure _
    · exact Licit.fail _
    · split
      · exact Licit.fail _
      · exact Licit.pure _
  · exact Licit.pure _

/-- A handler that acts on its path. -/
theorem licit_located {α : Type} {path : CString} {resolve : Bool} {next : CString → Sys W α}
    (rest : ∀ realPath, Licit host.Moves (Licensed settings) (next realPath)) :
    Licit host.Moves (Licensed settings) (processPath host settings (some path) resolve >>= next) :=
  (licit_processPath path resolve).bind rest

theorem licit_getattrCommon (fc : FuseContext) (procpath : CString) (stbuf : Stat) :
    Licit host.Moves (Licensed settings) (getattrCommon host settings fc procpath stbuf) := by
  intro world
  refine ⟨fun entry issued => ?_, by rw [world_getattrCommon]⟩
  obtain ⟨-, rfl | ⟨kind, rfl⟩⟩ := calls_getattrCommon host settings fc procpath stbuf world issued
  · trivial
  · trivial

/-- The owner of a new file, set with the function that the creating handler passes. -/
theorem licit_chownNewFile (path : CString) (fc : FuseContext) {chownFunc : CString → Id → Id → SysCall}
    (allowed : ∀ owner group, NewOwner settings owner group →
      Licensed settings (chownFunc path owner group)) :
    Licit host.Moves (Licensed settings) (chownNewFile host settings path fc chownFunc) := by
  have parent : Licit host.Moves (Licensed settings) (inheritsGroup host settings path) := by
    unfold inheritsGroup
    split
    · refine (Licit.ask _ trivial).attempt.bind fun answer => ?_
      split
      · exact Licit.pure _
      · exact Licit.pure _
    · exact Licit.pure _
  refine parent.bind fun setgid => ?_
  split
  · exact Licit.fail _
  · rename_i owner group translated
    split
    · rename_i asked
      exact (licit_issue (allowed owner group ⟨asked, fc, setgid, translated⟩)).attempt.bind
        fun _ => Licit.pure _
    · exact Licit.pure _

theorem licit_deleteThenTry (realPath : CString) {mainDelete targetDelete : CString → SysCall}
    (main : ∀ path, Licensed settings (mainDelete path))
    (target : ∀ path, Licensed settings (targetDelete path)) (alsoTryDelete : Option CString) :
    Licit host.Moves (Licensed settings)
      (deleteThenTry host realPath mainDelete targetDelete alsoTryDelete) := by
  refine (licit_issue (main realPath)).bind fun _ => ?_
  split
  · exact Licit.pure _
  · exact (licit_issue (target _)).attempt.bind fun _ => Licit.pure _

theorem licit_deletionTarget (realPath : CString) :
    Licit host.Moves (Licensed settings) (deletionTarget host realPath) := by
  refine (Licit.ask _ trivial).attempt.bind fun answer => ?_
  split
  · exact Licit.pure _
  · exact Licit.pure _
  · exact Licit.fail _

theorem licit_deleteFile (path : CString) {targetDelete : CString → SysCall}
    (target : ∀ path, settings.delete_deny = false → Licensed settings (targetDelete path)) :
    Licit host.Moves (Licensed settings) (deleteFile host settings path targetDelete) := by
  unfold deleteFile
  split
  · exact Licit.fail _
  · rename_i denied
    have allowed : settings.delete_deny = false := by simpa using denied
    have unlinks : ∀ path, Licensed settings (.unlink path) := fun _ => allowed
    have deletes : ∀ path, Licensed settings (targetDelete path) := fun path => target path allowed
    refine licit_located fun realPath => ?_
    split
    · refine (Licit.ask _ trivial).bind fun st => ?_
      split
      · split
        · exact Licit.fail _
        · exact licit_deleteThenTry realPath unlinks deletes none
        · exact (licit_deletionTarget realPath).bind
            fun found => licit_deleteThenTry realPath unlinks deletes found
        · refine (licit_deletionTarget realPath).bind fun found => ?_
          split
          · exact (licit_issue (unlinks _)).bind fun _ => licit_deleteThenTry realPath deletes deletes none
          · exact licit_deleteThenTry realPath deletes deletes none
      · exact licit_deleteThenTry realPath deletes deletes none
    · exact licit_deleteThenTry realPath deletes deletes none

/-! ## Directories -/

theorem licit_readdirEntry (fc : FuseContext) (readdirplus : Bool) (realPath : CString) (de : Dirent) :
    Licit host.Moves (Licensed settings) (readdirEntry host settings fc readdirplus realPath de) := by
  have looked : ∀ pathBuf, Licit host.Moves (Licensed settings) (entryStat host settings pathBuf de) := by
    intro pathBuf
    unfold entryStat
    split
    · refine (Licit.ask _ trivial).attempt.bind fun answer => ?_
      split
      · exact Licit.ask _ trivial
      · exact Licit.ask _ trivial
    · exact Licit.ask _ trivial
  unfold readdirEntry
  split
  · refine (looked _).bind fun st => ?_
    split
    · exact (licit_getattrCommon fc _ st).bind fun _ => Licit.pure _
    · exact Licit.pure _
  · exact Licit.pure _

theorem licit_readdirLoop (fc : FuseContext) (readdirplus : Bool) (realPath : CString)
    (filler : Filled → Except Errno Unit) (atEnd : Except Errno Unit) (entries : List Dirent) :
    Licit host.Moves (Licensed settings)
      (readdirLoop host settings fc readdirplus realPath filler atEnd entries) := by
  induction entries with
  | nil => exact Licit.pure _
  | cons de rest ih =>
    refine (licit_readdirEntry fc readdirplus realPath de).attempt.bind fun answer => ?_
    split
    · exact Licit.pure _
    · split
      · exact Licit.pure _
      · exact ih.bind fun _ => Licit.pure _

theorem licit_readdirRequest (fc : FuseContext) (path : CString) (filler : Filled → Except Errno Unit)
    (readdirplus : Bool) :
    Licit host.Moves (Licensed settings) (readdirRequest host settings fc path filler readdirplus) := by
  have opened : Licit host.Moves (Licensed settings) (openDirectory host settings path) :=
    licit_located fun _ => (Licit.ask _ trivial).bind fun _ => Licit.pure _
  have listed : Licit host.Moves (Licensed settings)
      (bindfsReaddir host settings fc path filler readdirplus) := by
    refine opened.attempt.bind fun answer => ?_
    split
    · exact Licit.pure _
    · exact (Licit.ask _ trivial).bind fun _ => licit_readdirLoop fc readdirplus _ filler _ _
  exact listed.bind licit_answerEntries

/-! ## Changes of attributes -/

theorem licit_bindfsChmod (path : CString) (mode : Mode) :
    Licit host.Moves (Licensed settings) (bindfsChmod host settings path mode) := by
  refine licit_located fun realPath world => ?_
  have looked : Licit host.Moves (Licensed settings) (executeOnlyMode host settings realPath) := by
    unfold executeOnlyMode
    split
    · exact (Licit.ask _ trivial).bind fun _ => Licit.pure _
    · exact Licit.pure _
  refine (looked world).bind fun old ended => ?_
  -- an old mode is only at hand with --chmod-allow-x
  have allowed : ∀ st_mode, old = some st_mode → settings.chmod_allow_x = true := by
    intro st_mode known
    by_contra off
    rw [exec_executeOnlyMode, oldMode, if_neg off] at ended
    cases ended
    cases known
  unfold chmodByPolicy
  split
  · rename_i normal
    exact licit_issue (c := .chmod _ _) (Or.inl normal) _
  · exact licit_issue (c := .chmod _ _) (Or.inr (allowed _ rfl)) _
  · exact Traced.pure _
  · dsimp only
    split
    · exact licit_issue (c := .chmod _ _) (Or.inr (allowed _ rfl)) _
    · exact Traced.fail _
  · exact Traced.fail _

theorem normal_of_chownId {policy : ChangePolicy} {translate : Id → Option Id} {id out : Id}
    (done : chownId policy translate id = .ok out) (changed : out ≠ noId) : policy = .normal := by
  unfold chownId at done
  split at done
  · cases policy with
    | normal => rfl
    | ignore =>
      cases done
      exact absurd rfl changed
    | deny => cases done
  · rename_i kept
    cases done
    exact absurd (not_not.mp kept) changed

theorem licit_bindfsChown (path : CString) (uid gid : Id) :
    Licit host.Moves (Licensed settings) (bindfsChown host settings path uid gid) := by
  unfold bindfsChown
  split
  · exact Licit.fail _
  · rename_i owner translated
    split
    · exact Licit.fail _
    · rename_i group translatedGroup
      split
      · rename_i asked
        have changed : ChangedOwner settings owner group :=
          ⟨normal_of_chownId translated, normal_of_chownId translatedGroup, asked⟩
        exact licit_located fun _ => licit_issue (Or.inl changed)
      · exact Licit.pure _

theorem licensed_forwardedFlags (path : CString) (flags : OpenFlags) (mode : Option Mode) :
    Licensed settings (.openFile path (forwardedFlags settings flags) mode) := by
  unfold forwardedFlags
  cases forwarded : settings.forward_odirect with
  | true => exact Or.inl forwarded
  | false =>
    refine Or.inr ?_
    simp only [Bool.false_eq_true, if_false, BitVec.and_assoc]
    rw [BitVec.and_comm (~~~O_DIRECT), BitVec.and_not_self]
    exact BitVec.and_zero

/-! ## All requests -/

theorem licit_serve (fc : FuseContext) (request : Request) :
    Licit host.Moves (Licensed settings) (serve host settings fc request) := by
  cases request with
  | getattr path =>
    refine licit_reply _ (licit_located fun realPath => ?_)
    exact (Licit.ask _ trivial).bind fun stbuf => licit_getattrCommon fc realPath stbuf
  | readlink _ _ | statfs _ => exact licit_reply _ (licit_located fun _ => Licit.ask _ trivial)
  | readdir path filler plus => exact licit_reply _ (licit_readdirRequest fc path filler plus)
  | mknod path mode rdev =>
    refine licit_reply (fun _ => _) (licit_located fun realPath => ?_)
    refine (licit_issue ?_).bind fun _ => licit_chownNewFile realPath fc fun _ _ => id
    split
    · trivial
    · trivial
  | mkdir path mode =>
    refine licit_reply (fun _ => _) (licit_located fun realPath => ?_)
    exact (licit_issue (c := .mkdir ..) trivial).bind fun _ => licit_chownNewFile realPath fc fun _ _ => id
  | create path flags mode =>
    refine licit_reply _ (licit_located fun realPath => ?_)
    refine (licit_callOpen (licensed_forwardedFlags ..)).bind fun fd => ?_
    exact (licit_chownNewFile realPath fc fun _ _ => id).attempt.bind fun _ => Licit.pure _
  | unlink path => exact licit_reply (fun _ => _) (licit_deleteFile path fun _ => id)
  | rmdir path => exact licit_reply (fun _ => _) (licit_deleteFile path fun _ => id)
  | symlink target path =>
    refine licit_reply (fun _ => _) ?_
    unfold bindfsSymlink
    split
    · exact Licit.fail _
    · rename_i resolves
      have plain : settings.resolve_symlinks = false := by simpa using resolves
      refine licit_located fun realTo => ?_
      exact (licit_issue (c := .symlink ..) plain).bind fun _ =>
        licit_chownNewFile realTo fc fun _ _ owned => Or.inr ⟨plain, owned⟩
  | rename source dest flags =>
    refine licit_reply (fun _ => _) ?_
    unfold bindfsRename
    split
    · exact Licit.fail _
    · rename_i denied
      have allowed : settings.rename_deny = false := by simpa using denied
      refine licit_located fun realFrom => licit_located fun realTo => ?_
      split
      · exact licit_issue allowed
      · exact Licit.fail _
  | link source dest =>
    exact licit_reply (fun _ => _) (licit_located fun _ => licit_located fun _ => licit_issue trivial)
  | chmod path mode => exact licit_reply (fun _ => _) (licit_bindfsChmod path mode)
  | chown path uid gid => exact licit_reply (fun _ => _) (licit_bindfsChown path uid gid)
  | truncate _ _ | utimens _ _ _ =>
    exact licit_reply (fun _ => _) (licit_located fun _ => licit_issue trivial)
  | openFile path flags =>
    exact licit_reply _ (licit_located fun _ => licit_callOpen (licensed_forwardedFlags ..))
  | setxattr path name value flags =>
    refine licit_whenInstalled fun installed => licit_reply (fun _ => _) ?_
    unfold bindfsSetxattr
    split
    · exact Licit.fail _
    · rename_i writable
      exact licit_located fun _ => licit_issue (c := .lsetxattr ..) ⟨of_decide_eq_true installed, writable⟩
  | removexattr path name =>
    refine licit_whenInstalled fun installed => licit_reply (fun _ => _) ?_
    unfold bindfsRemovexattr
    split
    · exact Licit.fail _
    · rename_i writable
      exact licit_located fun _ => licit_issue (c := .lremovexattr ..) ⟨of_decide_eq_true installed, writable⟩
  | getxattr _ _ _ | listxattr _ _ =>
    refine licit_whenInstalled fun installed => licit_reply _ ?_
    have allowed : settings.xattr_policy ≠ .unimplemented := of_decide_eq_true installed
    exact licit_located fun _ => Licit.ask _ allowed
  | read _ _ _ _ | write _ _ _ _ =>
    exact licit_reply _ ((licit_directIoBuffer _ _).bind fun _ => licit_callDescriptor (by trivial))
  | lock _ _ | flock _ _ | ioctl _ _ =>
    exact licit_whenInstalled fun installed => licit_reply _ (licit_callDescriptor installed)
  | fsync fd isdatasync => exact licit_reply _ (licit_callDescriptor trivial)
  | release fd =>
    refine licit_reply (fun _ => _) ?_
    exact (licit_callDescriptor (c := .close fd) trivial).attempt.bind fun _ => Licit.pure _

end

end Bindfs.Source
