import Bindfs.Source.Licences
import Bindfs.Source.TableHost

/-!
# Policies over whole runs of a mount

A mount serves requests of any callers, one after the other, while others change the source
tree. Whatever the requests are, the settings bound what happens to the tree: it only ever
changes by the calls that `Licensed` lists, or from outside (`changes_are_licensed`).

Two settings of policies are put together from this. With deletion and renaming denied, no name
is lost (`no_name_is_lost`); either of them alone does not do, since a rename can replace a
file. With the changes of owners, permissions and extended attributes denied too, and new files
left to the mounter, everything that is there keeps its owner, its permissions and its extended
attributes, as far as writing to a file does not change them (`locked_down_attributes_stay`).

What the tree holds is a parameter: a predicate of the paths that are there, and a record of their
attributes, whoever may look at them. The hypotheses `frame` say which system calls leave them alone.
-/
namespace Bindfs.Guarantees.Policies
open Bindfs.Source Bindfs.Lib.Effects Bindfs.Lib.Moves Bindfs.Lib.Concurrency Relation

section
variable {W : Type}

/-- What a mount does for a caller and its request. -/
def answer (host : Host W) (settings : Settings) (asked : FuseContext × Request) : Sys W Reply :=
  serve host settings asked.1 asked.2

/-- Requests of a mount and changes from outside, one after the other. -/
def MountRun (host : Host W) (settings : Settings) (outside : W → W → Prop) :
    W → List (Event (FuseContext × Request)) → W → Prop :=
  Run (Serves (answer host settings) outside)

variable {host : Host W} {settings : Settings} {outside : W → W → Prop} {world final : W}
  {events : List (Event (FuseContext × Request))}

theorem licit_answer (asked : FuseContext × Request) :
    Licit host.Moves (Licensed settings) (answer host settings asked) :=
  licit_serve asked.1 asked.2

/-- For all settings, callers, requests and trees: every call that is issued is licensed by the
settings, and in every run the tree changes by licensed calls or from outside only. -/
theorem changes_are_licensed (host : Host W) (settings : Settings) :
    (∀ fc request world, ∀ entry ∈ ((serve host settings fc request).exec world).calls,
      Licensed settings entry.2) ∧
    ∀ (outside : W → W → Prop) (world final : W) (events : List (Event (FuseContext × Request))),
      MountRun host settings outside world events final →
      ReflTransGen (fun world world' => Move host.Moves (Licensed settings) world world' ∨
        outside world world') world final := by
  refine ⟨fun fc request world => (licit_serve fc request world).issues, ?_⟩
  intro outside world final events ran
  exact reached_of_run ran fun asked _ => licit_answer asked

/-- What only unlicensed calls could change stays. -/
theorem kept_unless_licensed (inv : W → Prop) (alters : SysCall → Bool)
    (unlicensed : ∀ c, alters c = true → ¬ Licensed settings c)
    (frame : ∀ c world world', host.Moves world c world' → alters c = false → inv world → inv world')
    (others : ∀ world world', outside world world' → inv world → inv world')
    (ran : MountRun host settings outside world events final) (start : inv world) : inv final := by
  apply kept_of_run licit_answer ran inv _ others start
  intro c world world' allowed moved known
  apply frame c world world' moved _ known
  by_contra altering
  exact unlicensed c (by simpa using altering) allowed

def removesName : SysCall → Bool
  | .unlink _ | .rmdir _ | .rename _ _ => true
  | _ => false

end

/-! ## A mount of tables -/

/-- Only deletion changes what the tables say of a path. -/
theorem stats_of_moves {tree tree' : TableTree} {c : SysCall} (moved : tableHost.Moves tree c tree')
    (keeps : removesName c = false) : tree'.stats = tree.stats := by
  have made : ∀ {path}, tree.create path = .ok tree' → tree'.stats = tree.stats := by
    intro path created
    rw [TableTree.create_ok created]
  rcases moved with performed | ⟨path, flags, mode, fd, rfl, opened⟩ | ⟨call, data, rfl, answered⟩
  · cases c with
    | mkfifo | mknod | mkdir | symlink => exact made performed
    | chmod | chown | lchown =>
      cases performed
      rfl
    | unlink | rmdir => cases keeps
    | _ => cases performed
  · simp only [tableHost] at opened
    cases created : tree.create path with
    | error error =>
      rw [created] at opened
      cases opened
    | ok reached =>
      rw [created] at opened
      cases opened
      exact made created
  · cases answered
    rfl

def lockedSettings : Settings :=
  { initialSettings 1000#32 with
    delete_deny := true, rename_deny := true, chmod_policy := .deny, chown_policy := .ignore,
    chgrp_policy := .ignore, xattr_policy := .readOnly }

def lockedTree : TableTree := ⟨[(['a'], sampleStat 0 0 0o100644#32)], [], [], [], []⟩

/-- Root tries to delete the file, gives it away and makes a directory beside it. -/
def lockedEvents : List (Event (FuseContext × Request)) :=
  [.request (⟨0, 0⟩, .unlink ['/', 'a']), .request (⟨0, 0⟩, .chown ['/', 'a'] 1000#32 1000#32),
    .request (⟨0, 0⟩, .mkdir ['/', 'b'] 0o755#32)]

theorem lockedEvents_ran : ∃ final, MountRun tableHost lockedSettings (fun _ _ => False) lockedTree
    lockedEvents final ∧ final.created = [['b']] :=
  ⟨_, .next (.request _ _) <| .next (.request _ _) <| .next (.request _ _) <| .done _, rfl⟩

section
variable {W : Type} {host : Host W} {settings : Settings} {outside : W → W → Prop} {world final : W}
  {events : List (Event (FuseContext × Request))}

/-! ## Names -/

theorem unlicensed_removal (deletion : settings.delete_deny = true) (renames : settings.rename_deny = true)
    (c : SysCall) (removes : removesName c = true) : ¬ Licensed settings c := by
  cases c with
  | unlink | rmdir => simp [Licensed, deletion]
  | rename => simp [Licensed, renames]
  | _ => cases removes

/-- With `--delete-deny` and `--rename-deny`: a path that exists goes on existing through every run
of requests, on every file system where only deleting and renaming take names away. -/
theorem no_name_is_lost (deletion : settings.delete_deny = true) (renames : settings.rename_deny = true)
    (present : W → CString → Prop) (path : CString)
    (frame : ∀ c world world', host.Moves world c world' → removesName c = false →
      present world path → present world' path)
    (others : ∀ world world', outside world world' → present world path → present world' path)
    (ran : MountRun host settings outside world events final) (there : present world path) :
    present final path :=
  kept_unless_licensed (fun world => present world path) removesName
    (unlicensed_removal deletion renames) frame others ran there

theorem no_name_is_lost_of_table : ∃ final,
    MountRun tableHost lockedSettings (fun _ _ => False) lockedTree lockedEvents final ∧
      final.created = [['b']] ∧ (final.stats.lookup ['a']).isSome = true := by
  obtain ⟨final, ran, created⟩ := lockedEvents_ran
  refine ⟨final, ran, created, no_name_is_lost rfl rfl
    (fun tree path => (tree.stats.lookup path).isSome = true) ['a'] ?_ nofun ran rfl⟩
  intro c world world' moved keeps there
  rw [stats_of_moves moved keeps]
  exact there

/-! ## Attributes -/

/-- What the tree records of an object, as far as writing to it leaves it alone: write(2) and
truncate(2) may clear the set-ID bits and take the file capabilities away. -/
structure Recorded where
  owner : Id
  group : Id
  /-- The nine permission bits. -/
  permissions : Mode
  /-- The extended attributes of the user namespace. -/
  userXattrs : CString → Option (List UInt8)

/-- The calls that take names away or change owners, permissions or extended attributes, or may do
anything to a file. -/
def altersAttributes : SysCall → Bool
  | .chmod _ _ | .chown _ _ _ | .lchown _ _ _ | .lsetxattr _ _ _ _ | .lremovexattr _ _
  | .descriptor (.ioctl _ _) => true
  | c => removesName c

/-- The policies that leave what exists alone. -/
structure LockedDown (settings : Settings) : Prop where
  deletion : settings.delete_deny = true
  renames : settings.rename_deny = true
  modes : settings.chmod_policy ≠ .normal
  executables : settings.chmod_allow_x = false
  owners : settings.chown_policy ≠ .normal
  groups : settings.chgrp_policy ≠ .normal
  xattrs : settings.xattr_policy ≠ .readWrite
  ioctls : settings.enable_ioctl = false
  creation : settings.create_policy = .asMounter
  new_owners : settings.create_for_uid = noId
  new_groups : settings.create_for_gid = noId
  reverse_map : settings.usermap_reverse = usermapCreate

/-- New files then stay with the mounter. -/
theorem LockedDown.newOwner (locked : LockedDown settings) (owner group : Id) :
    ¬ NewOwner settings owner group := by
  rintro ⟨asked, fc, setgid, translated⟩
  have ids : callerIds settings fc setgid = (noId, noId) := by
    simp [callerIds, locked.creation, locked.reverse_map, usermapCreate, usermapGetUidOrDefault,
      usermapGetGidOrDefault, Lib.InverseTables.getOrDefault]
  have none_asked : newFileOwner settings fc setgid = some (noId, noId) := by
    simp [newFileOwner, ids, unapplyUnlessNone, locked.new_owners, locked.new_groups]
  rw [none_asked] at translated
  cases translated
  exact asked.elim (fun other => other rfl) fun other => other rfl

theorem LockedDown.unlicensed (locked : LockedDown settings) (c : SysCall)
    (alters : altersAttributes c = true) : ¬ Licensed settings c := by
  cases c with
  | chmod =>
    rintro (normal | executable)
    · exact locked.modes normal
    · rw [locked.executables] at executable
      cases executable
  | chown => exact locked.newOwner _ _
  | lchown path owner group =>
    rintro (⟨owners, groups, asked⟩ | ⟨-, owned⟩)
    · exact asked.elim (fun asked => locked.owners (owners asked)) fun asked => locked.groups (groups asked)
    · exact locked.newOwner _ _ owned
  | lsetxattr | lremovexattr =>
    rintro ⟨installed, writable⟩
    have policy := locked.xattrs
    cases stands : settings.xattr_policy with
    | unimplemented => exact installed stands
    | readOnly => exact writable stands
    | readWrite => exact policy stands
  | unlink | rmdir | rename =>
    exact unlicensed_removal locked.deletion locked.renames _ alters
  | descriptor call =>
    cases call with
    | ioctl => simp [Licensed, LicensedDescriptor, locked.ioctls]
    | _ => cases alters
  | _ => cases alters

/-- Under policies that lock a mount down, a path that exists goes on existing and keeps its owner,
its group, its permission bits and its user attributes through every run of requests, on every file
system where only the listed calls change them. -/
theorem locked_down_attributes_stay (locked : LockedDown settings)
    (attributes : W → CString → Option Recorded) (path : CString)
    (frame : ∀ c world world', host.Moves world c world' → altersAttributes c = false →
      ∀ recorded, attributes world path = some recorded → attributes world' path = some recorded)
    (others : ∀ world world', outside world world' →
      ∀ recorded, attributes world path = some recorded → attributes world' path = some recorded)
    (ran : MountRun host settings outside world events final) {recorded : Recorded}
    (there : attributes world path = some recorded) : attributes final path = some recorded := by
  refine kept_unless_licensed (fun reached => attributes reached path = some recorded) altersAttributes
    locked.unlicensed ?_ ?_ ran there
  · exact fun c before after moved keeps => frame c before after moved keeps recorded
  · exact fun before after changed => others before after changed recorded

/-- What the tables record of a path. -/
def tableRecord (tree : TableTree) (path : CString) : Option Recorded :=
  (tree.stats.lookup path).map fun stbuf =>
    ⟨stbuf.st_uid, stbuf.st_gid, stbuf.st_mode &&& 0o777#32, fun _ => none⟩

theorem locked_down_attributes_stay_of_table : ∃ final,
    MountRun tableHost lockedSettings (fun _ _ => False) lockedTree lockedEvents final ∧
      final.created = [['b']] ∧
      tableRecord final ['a'] = some ⟨0#32, 0#32, 0o644#32, fun _ => none⟩ := by
  obtain ⟨final, ran, created⟩ := lockedEvents_ran
  have locked : LockedDown lockedSettings :=
    ⟨rfl, rfl, nofun, rfl, nofun, nofun, nofun, rfl, rfl, rfl, rfl, rfl⟩
  refine ⟨final, ran, created, locked_down_attributes_stay locked tableRecord ['a'] ?_ nofun ran rfl⟩
  intro c world world' moved keeps recorded there
  have plain : removesName c = false := by
    cases c with
    | chmod | chown | lchown | lsetxattr | lremovexattr => cases keeps
    | descriptor => rfl
    | _ => exact keeps
  rw [tableRecord, stats_of_moves moved plain]
  exact there

end

end Bindfs.Guarantees.Policies
