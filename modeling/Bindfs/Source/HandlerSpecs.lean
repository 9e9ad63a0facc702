import Bindfs.Source.Requests

/-!
# What the handlers do

One lemma for each shared part of the handlers: what it answers, which calls it issues and
what it leaves in the tree. Later modules cite these and do not unfold the handlers.
-/
namespace Bindfs.Source
open Bindfs.Lib.Effects

section
variable {W : Type} (host : Host W) (settings : Settings)

/-! ## Paths -/

/-- The answer of `process_path` once `realpath` has answered. -/
def guardedPath (path : CString) : Except Errno CString → Except Errno CString
  | .error .enoent => .ok path
  | .error error => .error error
  | .ok result => if pathStartsWith result settings.mntdest then .error .eperm else .ok result

theorem exec_processPath_raw (path : CString) (resolveSymlinks : Bool)
    (off : (resolveSymlinks && settings.resolve_symlinks) = false) (world : W) :
    (processPath host settings (some path) resolveSymlinks).exec world =
      ⟨.ok (stripSlashes path), world, []⟩ := by
  simp [processPath, off]

theorem exec_processPath_resolved (path : CString) (on : settings.resolve_symlinks = true)
    (world : W) :
    (processPath host settings (some path) true).exec world =
      ⟨guardedPath settings (stripSlashes path) (host.realpath world (stripSlashes path)), world,
        [(world, .realpath (stripSlashes path))]⟩ := by
  simp only [processPath, on, Bool.and_self, if_true, exec_bind, exec_attempt,
    Host.exec_callRealpath, andThen_ok]
  cases host.realpath world (stripSlashes path) with
  | error error => cases error <;> rfl
  | ok result =>
    by_cases below : pathStartsWith result settings.mntdest = true <;> simp [guardedPath, below, Outcome.after]

/-- Where a request on `path` acts: the answer of `process_path` with resolution. -/
def requestPath (world : W) (path : CString) : Except Errno CString :=
  if settings.resolve_symlinks then
    guardedPath settings (stripSlashes path) (host.realpath world (stripSlashes path))
  else .ok (stripSlashes path)

def pathCalls (world : W) (path : CString) : List (W × SysCall) :=
  if settings.resolve_symlinks then [(world, .realpath (stripSlashes path))] else []

theorem exec_processPath (path : CString) (world : W) :
    (processPath host settings (some path) true).exec world =
      ⟨requestPath host settings world path, world, pathCalls settings world path⟩ := by
  unfold requestPath pathCalls
  cases resolve : settings.resolve_symlinks with
  | false => exact exec_processPath_raw host settings path true (by simp [resolve]) world
  | true => exact exec_processPath_resolved host settings path resolve world

/-! ## Attributes -/

/-- The attributes after one `access` check answered. -/
def afterAccess (answer : Except Errno Unit) (stbuf : Stat) (bits : Mode) : Stat :=
  match answer with
  | .error _ => { stbuf with st_mode := stbuf.st_mode &&& ~~~bits }
  | .ok () => stbuf

theorem exec_hideUnlessAccess (procpath : CString) (stbuf : Stat) (mode : AccessMode) (bits : Mode)
    (world : W) :
    (hideUnlessAccess host procpath stbuf mode bits).exec world =
      ⟨.ok (afterAccess (host.access world procpath mode) stbuf bits), world,
        [(world, .access procpath mode)]⟩ := by
  simp only [hideUnlessAccess, exec_bind, exec_attempt, Host.exec_callAccess, andThen_ok]
  cases host.access world procpath mode <;> rfl

/-- The permission bits `getattr_common` reports, given what `access` answers. -/
def reportedPermissions (access : AccessMode → Except Errno Unit) (stbuf : Stat) : Stat :=
  if stbuf.st_mode &&& S_IFLNK = S_IFLNK then stbuf
  else
    let stbuf := { stbuf with st_mode := settings.permchain.apply stbuf.st_mode }
    if settings.realistic_permissions then
      afterAccess (access .execute)
        (afterAccess (access .write) (afterAccess (access .read) stbuf 0o444#32) 0o222#32) 0o111#32
    else stbuf

/-- The `access` calls made for a file with this mode. -/
def accessCalls (world : W) (procpath : CString) (mode : Mode) : List (W × SysCall) :=
  if mode &&& S_IFLNK ≠ S_IFLNK ∧ settings.realistic_permissions = true then
    [(world, .access procpath .read), (world, .access procpath .write),
      (world, .access procpath .execute)]
  else []

theorem exec_reportPermissions (procpath : CString) (stbuf : Stat) (world : W) :
    (reportPermissions host settings procpath stbuf).exec world =
      ⟨.ok (reportedPermissions settings (host.access world procpath) stbuf), world,
        accessCalls settings world procpath stbuf.st_mode⟩ := by
  unfold reportPermissions reportedPermissions accessCalls
  by_cases link : stbuf.st_mode &&& S_IFLNK = S_IFLNK
  · simp [link]
  · cases realistic : settings.realistic_permissions with
    | false => simp [link]
    | true => simp [link, exec_hideUnlessAccess, Outcome.after]

/-- The block-device step of `getattr_common`, given what the size query answers. -/
def blockReport (size : Except Errno (BitVec 64)) (stbuf : Stat) : Except Errno Stat :=
  if settings.block_devices_as_files && S_ISBLK stbuf.st_mode then
    match size with
    | .error error => .error error
    | .ok size =>
      if size.toInt < 0 then .error .eoverflow
      else .ok { stbuf with
        st_mode := stbuf.st_mode ^^^ (S_IFBLK ||| S_IFREG), st_size := size.toInt }
  else .ok stbuf

def blockCalls (world : W) (procpath : CString) (mode : Mode) : List (W × SysCall) :=
  if settings.block_devices_as_files && S_ISBLK mode then [(world, .blockSize procpath)] else []

theorem exec_blockDeviceAsFile (procpath : CString) (stbuf : Stat) (world : W) :
    (blockDeviceAsFile host settings procpath stbuf).exec world =
      ⟨blockReport settings (host.blockSize world procpath) stbuf, world,
        blockCalls settings world procpath stbuf.st_mode⟩ := by
  unfold blockDeviceAsFile blockReport blockCalls
  by_cases shown : (settings.block_devices_as_files && S_ISBLK stbuf.st_mode) = true
  · rw [if_pos shown, if_pos shown, if_pos shown]
    simp only [exec_bind, Host.exec_callBlockSize]
    cases host.blockSize world procpath with
    | error error => rfl
    | ok size => by_cases negative : size.toInt < 0 <;> simp [negative, Outcome.after]
  · rw [if_neg shown, if_neg shown, if_neg shown, exec_pure]

/-- A block device is not a symbolic link. -/
theorem not_link_of_block {mode : Mode} (block : S_ISBLK mode = true) :
    mode &&& S_IFLNK ≠ S_IFLNK := by
  intro link
  simp only [S_ISBLK, hasType, decide_eq_true_eq] at block
  have fromType : S_IFBLK &&& S_IFLNK = S_IFLNK := by
    have inside : S_IFMT &&& S_IFLNK = S_IFLNK := by decide
    rw [← block, BitVec.and_assoc, inside, link]
  exact absurd fromType (by decide)

theorem hideHardLinks_mode (stbuf : Stat) :
    (hideHardLinks settings stbuf).st_mode = stbuf.st_mode := by
  unfold hideHardLinks
  split <;> rfl

/-- The answer of the second half of `getattr_common`. -/
def fileReport (size : Except Errno (BitVec 64)) (access : AccessMode → Except Errno Unit)
    (stbuf : Stat) : Except Errno Stat :=
  (blockReport settings size (hideHardLinks settings stbuf)).map (reportedPermissions settings access)

theorem result_reportFile (procpath : CString) (stbuf : Stat) (world : W) :
    ((reportFile host settings procpath stbuf).exec world).result =
      fileReport settings (host.blockSize world procpath) (host.access world procpath) stbuf := by
  simp only [reportFile, exec_bind, exec_blockDeviceAsFile, fileReport]
  cases blockReport settings (host.blockSize world procpath) (hideHardLinks settings stbuf) with
  | error error => rfl
  | ok shown => simp [exec_reportPermissions, Except.map]

theorem world_reportFile (procpath : CString) (stbuf : Stat) (world : W) :
    ((reportFile host settings procpath stbuf).exec world).world = world := by
  simp only [reportFile, exec_bind, exec_blockDeviceAsFile]
  cases blockReport settings (host.blockSize world procpath) (hideHardLinks settings stbuf) with
  | error error => rfl
  | ok shown => simp [exec_reportPermissions]

/-- A call on the path itself that follows links, made for something that is not a link. -/
def FollowsFile (world : W) (procpath : CString) (mode : Mode) (entry : W × SysCall) : Prop :=
  mode &&& S_IFLNK ≠ S_IFLNK ∧
    (entry = (world, .blockSize procpath) ∨ ∃ kind, entry = (world, .access procpath kind))

theorem mode_of_blockReport {size : Except Errno (BitVec 64)} {stbuf shown : Stat}
    (reported : blockReport settings size stbuf = .ok shown) :
    shown.st_mode = stbuf.st_mode ∨
      (S_ISBLK stbuf.st_mode = true ∧ shown.st_mode = stbuf.st_mode ^^^ (S_IFBLK ||| S_IFREG)) := by
  unfold blockReport at reported
  split at reported
  · rename_i taken
    have block : S_ISBLK stbuf.st_mode = true := (Bool.and_eq_true_iff.mp taken).2
    split at reported
    · cases reported
    · split at reported
      · cases reported
      · cases reported
        exact Or.inr ⟨block, rfl⟩
  · cases reported
    exact Or.inl rfl

theorem calls_reportFile (procpath : CString) (stbuf : Stat) (world : W) {entry : W × SysCall}
    (issued : entry ∈ ((reportFile host settings procpath stbuf).exec world).calls) :
    FollowsFile world procpath stbuf.st_mode entry := by
  simp only [reportFile, exec_bind, exec_blockDeviceAsFile] at issued
  have sizeCall : entry ∈ blockCalls settings world procpath (hideHardLinks settings stbuf).st_mode →
      FollowsFile world procpath stbuf.st_mode entry := by
    intro member
    unfold blockCalls at member
    rw [hideHardLinks_mode] at member
    split at member
    · rename_i taken
      have block := (Bool.and_eq_true_iff.mp taken).2
      exact ⟨not_link_of_block block, Or.inl (by simpa using member)⟩
    · simp at member
  cases reported : blockReport settings (host.blockSize world procpath) (hideHardLinks settings stbuf) with
  | error error =>
    rw [reported] at issued
    exact sizeCall issued
  | ok shown =>
    rw [reported, andThen_ok, calls_after, exec_reportPermissions, List.mem_append] at issued
    cases issued with
    | inl early => exact sizeCall early
    | inr late =>
      unfold accessCalls at late
      split at late
      · rename_i checked
        refine ⟨?_, Or.inr ?_⟩
        · rcases mode_of_blockReport settings reported with same | ⟨block, -⟩
          · rw [← hideHardLinks_mode settings, ← same]
            exact checked.1
          · rw [hideHardLinks_mode] at block
            exact not_link_of_block block
        · simp only [List.mem_cons, List.not_mem_nil, or_false] at late
          rcases late with rfl | rfl | rfl
          · exact ⟨_, rfl⟩
          · exact ⟨_, rfl⟩
          · exact ⟨_, rfl⟩
      · simp at late

/-- What `getattr_common` answers, given what the size query and `access` answer. -/
def attributeReport (fc : FuseContext) (size : Except Errno (BitVec 64))
    (access : AccessMode → Except Errno Unit) (stbuf : Stat) : Except Errno Stat :=
  match translateStat settings stbuf with
  | none => .error uidGidOverflowErrno
  | some stbuf =>
    if isMirroringEnabled settings && isMirroredUser host settings fc.uid then
      fileReport settings size access { stbuf with st_uid := fc.uid }
    else if settings.mirrored_users_only && fc.uid ≠ 0#32 then
      .ok { stbuf with st_mode := stbuf.st_mode &&& ~~~0o777#32 }
    else fileReport settings size access stbuf

theorem result_getattrCommon (fc : FuseContext) (procpath : CString) (stbuf : Stat) (world : W) :
    ((getattrCommon host settings fc procpath stbuf).exec world).result =
      attributeReport host settings fc (host.blockSize world procpath) (host.access world procpath)
        stbuf := by
  unfold getattrCommon attributeReport
  cases translateStat settings stbuf with
  | none => rfl
  | some translated =>
    simp only []
    split
    · exact result_reportFile host settings procpath _ world
    · split
      · rfl
      · exact result_reportFile host settings procpath _ world

theorem world_getattrCommon (fc : FuseContext) (procpath : CString) (stbuf : Stat) (world : W) :
    ((getattrCommon host settings fc procpath stbuf).exec world).world = world := by
  unfold getattrCommon
  cases translateStat settings stbuf with
  | none => rfl
  | some translated =>
    simp only []
    split
    · exact world_reportFile host settings procpath _ world
    · split
      · rfl
      · exact world_reportFile host settings procpath _ world

/-- What `bindfs_getattr` reports once it has found the object. -/
def statReport (fc : FuseContext) (world : W) (realPath : CString) : Except Errno Stat := do
  let stbuf ← host.lstat world realPath
  attributeReport host settings fc (host.blockSize world realPath) (host.access world realPath) stbuf

theorem result_bindfsGetattr (fc : FuseContext) (path : CString) (world : W) :
    ((bindfsGetattr host settings fc path).exec world).result =
      requestPath host settings world path >>= statReport host settings fc world := by
  have located : Keeps (processPath host settings (some path) true) world := by
    simp [Keeps, exec_processPath]
  have looked : ∀ realPath, Keeps (host.callLstat realPath) world := fun _ => Keeps.ask _ _
  unfold bindfsGetattr
  rw [located.result_bind, exec_processPath]
  simp only [(looked _).result_bind, Host.exec_callLstat, result_getattrCommon]
  rfl

theorem mode_of_translateStat {stbuf translated : Stat}
    (done : translateStat settings stbuf = some translated) :
    translated.st_mode = stbuf.st_mode := by
  simp only [translateStat, Option.bind_eq_bind, Option.bind_eq_some_iff, Option.pure_def,
    Option.some.injEq] at done
  obtain ⟨uid, -, gid, -, rfl⟩ := done
  rfl

theorem calls_getattrCommon (fc : FuseContext) (procpath : CString) (stbuf : Stat) (world : W)
    {entry : W × SysCall}
    (issued : entry ∈ ((getattrCommon host settings fc procpath stbuf).exec world).calls) :
    FollowsFile world procpath stbuf.st_mode entry := by
  unfold getattrCommon at issued
  cases done : translateStat settings stbuf with
  | none => simp [done] at issued
  | some translated =>
    rw [← mode_of_translateStat settings done]
    simp only [done] at issued
    split at issued
    · exact calls_reportFile host settings procpath { translated with st_uid := fc.uid } world issued
    · split at issued
      · simp at issued
      · exact calls_reportFile host settings procpath _ world issued

/-! ## The reported owner -/

def Stat.withOwner (stbuf : Stat) (owner : Id × Id) : Stat :=
  { stbuf with st_uid := owner.1, st_gid := owner.2 }

/-- The owner and group `getattr_common` shows to a caller who is not mirrored. -/
def shownOwner (owner : Id × Id) : Option (Id × Id) := do
  let uid ← applyUidOffset settings (usermapGetUidOrDefault settings.usermap owner.1 owner.1)
  let gid ← applyGidOffset settings (usermapGetGidOrDefault settings.usermap owner.2 owner.2)
  pure (if settings.new_uid ≠ noId then settings.new_uid else uid,
    if settings.new_gid ≠ noId then settings.new_gid else gid)

/-- What `getattr_common` does to the attributes apart from the owner. -/
def ownerlessReport (fc : FuseContext) (size : Except Errno (BitVec 64))
    (access : AccessMode → Except Errno Unit) (stbuf : Stat) : Except Errno Stat :=
  let stbuf := { stbuf with
    st_ctim := if settings.ctime_from_mtime then stbuf.st_mtim else stbuf.st_ctim }
  if settings.mirrored_users_only && fc.uid ≠ 0#32 then
    .ok { stbuf with st_mode := stbuf.st_mode &&& ~~~0o777#32 }
  else fileReport settings size access stbuf

theorem translateStat_withOwner (stbuf : Stat) (owner : Id × Id) :
    translateStat settings (stbuf.withOwner owner) =
      (shownOwner settings owner).map ({ stbuf with
        st_ctim := if settings.ctime_from_mtime then stbuf.st_mtim else stbuf.st_ctim } : Stat).withOwner := by
  unfold translateStat shownOwner
  simp only [Stat.withOwner]
  cases applyUidOffset settings (usermapGetUidOrDefault settings.usermap owner.1 owner.1) with
  | none => rfl
  | some uid =>
    cases applyGidOffset settings (usermapGetGidOrDefault settings.usermap owner.2 owner.2) <;> rfl

theorem afterAccess_withOwner (answer : Except Errno Unit) (stbuf : Stat) (bits : Mode)
    (owner : Id × Id) :
    afterAccess answer (stbuf.withOwner owner) bits = (afterAccess answer stbuf bits).withOwner owner := by
  cases answer <;> rfl

theorem reportedPermissions_withOwner (access : AccessMode → Except Errno Unit) (stbuf : Stat)
    (owner : Id × Id) :
    reportedPermissions settings access (stbuf.withOwner owner) =
      (reportedPermissions settings access stbuf).withOwner owner := by
  unfold reportedPermissions
  change (if stbuf.st_mode &&& S_IFLNK = S_IFLNK then _ else
    if settings.realistic_permissions then
      afterAccess _ (afterAccess _ (afterAccess _ (Stat.withOwner
        { stbuf with st_mode := settings.permchain.apply stbuf.st_mode } owner) _) _) _
    else Stat.withOwner { stbuf with st_mode := settings.permchain.apply stbuf.st_mode } owner) = _
  simp only [afterAccess_withOwner]
  split
  · rfl
  · split <;> rfl

theorem fileReport_withOwner (size : Except Errno (BitVec 64))
    (access : AccessMode → Except Errno Unit) (stbuf : Stat) (owner : Id × Id) :
    fileReport settings size access (stbuf.withOwner owner) =
      (fileReport settings size access stbuf).map (Stat.withOwner · owner) := by
  have hidden : hideHardLinks settings (stbuf.withOwner owner) =
      (hideHardLinks settings stbuf).withOwner owner := by
    unfold hideHardLinks
    split <;> rfl
  have blocks : blockReport settings size ((hideHardLinks settings stbuf).withOwner owner) =
      (blockReport settings size (hideHardLinks settings stbuf)).map (Stat.withOwner · owner) := by
    unfold blockReport
    change (if (settings.block_devices_as_files && S_ISBLK (hideHardLinks settings stbuf).st_mode) = true
      then _ else _) = _
    split
    · cases size with
      | error error => rfl
      | ok size =>
        simp only
        split <;> rfl
    · rfl
  unfold fileReport
  rw [hidden, blocks]
  cases blockReport settings size (hideHardLinks settings stbuf) with
  | error error => rfl
  | ok shown => exact congrArg Except.ok (reportedPermissions_withOwner settings access shown owner)

/-- For a caller who is not mirrored the owner and the other attributes are independent. -/
theorem attributeReport_withOwner (unmirrored : isMirroringEnabled settings = false)
    (fc : FuseContext) (size : Except Errno (BitVec 64)) (access : AccessMode → Except Errno Unit)
    (stbuf : Stat) (owner : Id × Id) :
    attributeReport host settings fc size access (stbuf.withOwner owner) =
      match shownOwner settings owner with
      | none => .error uidGidOverflowErrno
      | some shown => (ownerlessReport settings fc size access stbuf).map (Stat.withOwner · shown) := by
  unfold attributeReport ownerlessReport
  rw [translateStat_withOwner, unmirrored]
  cases shownOwner settings owner with
  | none => rfl
  | some shown =>
    simp only [Option.map_some, Bool.false_and, Bool.false_eq_true, if_false]
    split
    · rfl
    · exact fileReport_withOwner settings size access _ shown

/-! ## The reported file type -/

theorem isLink_masked (mode : Mode) {bits : Mode} (within : Within bits) :
    S_ISLNK (mode &&& ~~~bits) = S_ISLNK mode := by
  apply hasType_congr
  intro i high
  have clear := within.high_bit high
  rw [BitVec.getLsbD_and, BitVec.getLsbD_not, clear]
  by_cases inside : i < 32
  · rw [decide_eq_true inside, Bool.not_false, Bool.and_true, Bool.and_true]
  · rw [BitVec.getLsbD_of_ge _ _ (by omega : 32 ≤ i), Bool.false_and]

theorem isLink_afterAccess (answer : Except Errno Unit) (stbuf : Stat) {bits : Mode}
    (within : Within bits) :
    S_ISLNK (afterAccess answer stbuf bits).st_mode = S_ISLNK stbuf.st_mode := by
  cases answer with
  | ok => rfl
  | error e => exact isLink_masked stbuf.st_mode within

theorem isLink_reportedPermissions (access : AccessMode → Except Errno Unit) (stbuf : Stat) :
    S_ISLNK (reportedPermissions settings access stbuf).st_mode = S_ISLNK stbuf.st_mode := by
  have chained : S_ISLNK (settings.permchain.apply stbuf.st_mode) = S_ISLNK stbuf.st_mode :=
    hasType_congr S_IFLNK (fun i high => settings.permchain.apply_high_bit stbuf.st_mode high)
  unfold reportedPermissions
  split
  · rfl
  · simp only
    split
    · rw [isLink_afterAccess _ _ (by decide), isLink_afterAccess _ _ (by decide),
        isLink_afterAccess _ _ (by decide)]
      exact chained
    · exact chained

/-- A block device is shown as a regular file. -/
theorem isLink_blockReport {size : Except Errno (BitVec 64)} {stbuf shown : Stat}
    (reported : blockReport settings size stbuf = .ok shown) :
    S_ISLNK shown.st_mode = S_ISLNK stbuf.st_mode := by
  rcases mode_of_blockReport settings reported with same | ⟨block, flipped⟩
  · rw [same]
  · simp only [S_ISBLK, hasType, decide_eq_true_eq] at block
    have regular : shown.st_mode &&& S_IFMT = S_IFREG := by
      have distributes : (stbuf.st_mode ^^^ (S_IFBLK ||| S_IFREG)) &&& S_IFMT =
          (stbuf.st_mode &&& S_IFMT) ^^^ ((S_IFBLK ||| S_IFREG) &&& S_IFMT) := by
        apply BitVec.eq_of_getLsbD_eq
        intro i _
        simp only [BitVec.getLsbD_and, BitVec.getLsbD_xor]
        cases S_IFMT.getLsbD i <;> simp
      rw [flipped, distributes, block]
      decide
    simp only [S_ISLNK, hasType, regular, block]
    decide

/-- `getattr_common` never turns a link into something else, nor something else into a link. -/
theorem isLink_attributeReport {fc : FuseContext} {size : Except Errno (BitVec 64)}
    {access : AccessMode → Except Errno Unit} {stbuf shown : Stat}
    (reported : attributeReport host settings fc size access stbuf = .ok shown) :
    S_ISLNK shown.st_mode = S_ISLNK stbuf.st_mode := by
  have through : ∀ entry : Stat, entry.st_mode = stbuf.st_mode →
      fileReport settings size access entry = .ok shown →
        S_ISLNK shown.st_mode = S_ISLNK stbuf.st_mode := by
    intro entry mode done
    unfold fileReport at done
    cases block : blockReport settings size (hideHardLinks settings entry) with
    | error error =>
      rw [block] at done
      cases done
    | ok visible =>
      rw [block] at done
      cases done
      rw [isLink_reportedPermissions, isLink_blockReport settings block, hideHardLinks_mode, mode]
  unfold attributeReport at reported
  cases done : translateStat settings stbuf with
  | none =>
    rw [done] at reported
    cases reported
  | some translated =>
    have mode := mode_of_translateStat settings done
    simp only [done] at reported
    split at reported
    · exact through { translated with st_uid := fc.uid } mode reported
    · split at reported
      · cases reported
        rw [isLink_masked _ (by decide), mode]
      · exact through translated mode reported

/-! ## Changes of mode -/

/-- What `executeOnlyMode` answers. -/
def oldMode (world : W) (realPath : CString) : Except Errno (Option Mode) :=
  if settings.chmod_allow_x then
    (host.lstat world realPath).map fun st => if S_ISREG st.st_mode then some st.st_mode else none
  else .ok none

theorem exec_executeOnlyMode (realPath : CString) (world : W) :
    (executeOnlyMode host settings realPath).exec world =
      ⟨oldMode host settings world realPath, world,
        if settings.chmod_allow_x then [(world, .lstat realPath)] else []⟩ := by
  unfold executeOnlyMode oldMode
  split
  · simp only [exec_bind, Host.exec_callLstat]
    cases host.lstat world realPath <;> rfl
  · rfl

/-- The policy lets a chmod through, given the old mode where `--chmod-allow-x` looked at it. -/
def Rechmods (mode : Mode) (old : Option Mode) : Prop :=
  match settings.chmod_policy, old with
  | .normal, _ => True
  | .ignore, some _ => True
  | .deny, some oldMode => ((oldMode &&& 0o7777#32) ^^^ (mode &&& 0o7777#32)) &&& 0o7666#32 = 0#32
  | _, none => False

theorem calls_chmodByPolicy (realPath : CString) (mode : Mode) (old : Option Mode) (world : W) :
    (∃ mode', Rechmods settings mode old ∧
        ((chmodByPolicy host settings realPath mode old).exec world).calls =
          [(world, .chmod realPath mode')]) ∨
      (¬ Rechmods settings mode old ∧
        ((chmodByPolicy host settings realPath mode old).exec world).calls = []) := by
  unfold chmodByPolicy Rechmods
  cases settings.chmod_policy with
  | normal => exact Or.inl ⟨_, trivial, calls_call ..⟩
  | ignore =>
    cases old with
    | none => exact Or.inr ⟨id, rfl⟩
    | some oldMode => exact Or.inl ⟨_, trivial, calls_call ..⟩
  | deny =>
    cases old with
    | none => exact Or.inr ⟨id, rfl⟩
    | some oldMode =>
      simp only
      split
      · rename_i only
        exact Or.inl ⟨_, only, calls_call ..⟩
      · rename_i more
        exact Or.inr ⟨more, rfl⟩

/-! ## Changes of owner -/

/-- The owner and group a call hands to lchown(2). -/
def lchownOwner : W × SysCall → Option (Id × Id)
  | (_, .lchown _ owner group) => some (owner, group)
  | _ => none

/-- `bindfs_chown` asks for exactly the translated ids, if there is one to change. -/
theorem mem_lchownOwner_bindfsChown (path : CString) (uid gid : Id) (world : W) (owner : Id × Id) :
    owner ∈ ((bindfsChown host settings path uid gid).exec world).calls.filterMap lchownOwner ↔
      chownUid settings uid = .ok owner.1 ∧ chownGid settings gid = .ok owner.2 ∧
        (owner.1 ≠ noId ∨ owner.2 ≠ noId) ∧
        ∃ realPath, requestPath host settings world path = .ok realPath := by
  obtain ⟨newUid, newGid⟩ := owner
  have quiet : (pathCalls settings world path).filterMap lchownOwner = [] := by
    unfold pathCalls
    split <;> rfl
  unfold bindfsChown
  cases chownUid settings uid with
  | error error => simp
  | ok first =>
    cases chownGid settings gid with
    | error error => simp
    | ok second =>
      by_cases change : first ≠ noId ∨ second ≠ noId
      · simp only [if_pos change, exec_bind, exec_processPath]
        cases requestPath host settings world path with
        | error error => simp [quiet]
        | ok realPath =>
          simp only [andThen_ok, calls_after, List.filterMap_append, quiet, List.nil_append]
          simp only [Host.issue, calls_call, List.filterMap_cons, lchownOwner, List.filterMap_nil,
            List.mem_singleton, Prod.mk.injEq, Except.ok.injEq, exists_eq', and_true]
          constructor
          · rintro ⟨rfl, rfl⟩
            exact ⟨rfl, rfl, change⟩
          · rintro ⟨rfl, rfl, -⟩
            exact ⟨rfl, rfl⟩
      · simp only [if_neg change, exec_pure, List.filterMap_nil, List.not_mem_nil, false_iff]
        rintro ⟨same, same', asked, -⟩
        cases same
        cases same'
        exact change asked

/-! ## Owners of new files -/

/-- Whether new files take the group of this directory, as its `lstat` says. -/
def directorySetgid (world : W) (directory : CString) : Bool :=
  match settings.create_policy with
  | .asUser =>
    match host.lstat world directory with
    | .ok stbuf => stbuf.st_mode &&& S_ISGID ≠ 0#32
    | .error _ => false
  | .asMounter => false

def parentCalls (world : W) (path : CString) : List (W × SysCall) :=
  match settings.create_policy with
  | .asUser => [(world, .lstat (myDirname path))]
  | .asMounter => []

theorem exec_inheritsGroup (path : CString) (world : W) :
    (inheritsGroup host settings path).exec world =
      ⟨.ok (directorySetgid host settings world (myDirname path)), world, parentCalls settings world path⟩ := by
  unfold inheritsGroup directorySetgid parentCalls
  cases settings.create_policy with
  | asMounter => rfl
  | asUser =>
    simp only [exec_bind, exec_attempt, Host.exec_callLstat, andThen_ok]
    cases host.lstat world (myDirname path) <;> rfl

theorem exec_chownNewFile_overflow {fc : FuseContext} {path : CString} {world : W}
    (overflow : newFileOwner settings fc (directorySetgid host settings world (myDirname path)) = none)
    (chownFunc : CString → Id → Id → SysCall) :
    (chownNewFile host settings path fc chownFunc).exec world =
      ⟨.error uidGidOverflowErrno, world, parentCalls settings world path⟩ := by
  simp [chownNewFile, exec_inheritsGroup, overflow, Outcome.after]

/-- The chown of a new file, when there is something to ask for. -/
def ownerCall (chownFunc : CString → Id → Id → SysCall) (path : CString) (owner : Id × Id) :
    Option SysCall :=
  if owner.1 ≠ noId ∨ owner.2 ≠ noId then some (chownFunc path owner.1 owner.2) else none

theorem exec_chownNewFile {fc : FuseContext} {path : CString} {world : W} {owner : Id × Id}
    (translated : newFileOwner settings fc (directorySetgid host settings world (myDirname path)) = some owner)
    (chownFunc : CString → Id → Id → SysCall) :
    ((chownNewFile host settings path fc chownFunc).exec world).result = .ok () ∧
      ((chownNewFile host settings path fc chownFunc).exec world).calls =
        parentCalls settings world path ++
          ((ownerCall chownFunc path owner).toList.map (fun c => (world, c))) := by
  unfold ownerCall
  by_cases asked : owner.1 ≠ noId ∨ owner.2 ≠ noId
  · constructor
    · simp [chownNewFile, exec_inheritsGroup, translated, asked, Outcome.after]
    · simp [chownNewFile, exec_inheritsGroup, translated, asked, Outcome.after, Host.issue]
  · constructor
    · simp [chownNewFile, exec_inheritsGroup, translated, asked, Outcome.after]
    · simp [chownNewFile, exec_inheritsGroup, translated, asked, Outcome.after]

/-- Both ids `chown_new_file` starts from are -1 or stay in range when the offset is taken off. -/
def CallerStorable (fc : FuseContext) (setgid : Bool) : Prop :=
  ((callerIds settings fc setgid).1 = noId ∨
      FitsId ((callerIds settings fc setgid).1.toNat - settings.uid_offset.toInt)) ∧
    ((callerIds settings fc setgid).2 = noId ∨
      FitsId ((callerIds settings fc setgid).2.toNat - settings.gid_offset.toInt))

instance (fc : FuseContext) (setgid : Bool) : Decidable (CallerStorable settings fc setgid) :=
  inferInstanceAs (Decidable (_ ∧ _))

theorem unapplyUnlessNone_none_iff (offset : BitVec 64) (id : Id) :
    unapplyUnlessNone (shiftId (-offset) UID_T_MAX) id = none ↔
      ¬ (id = noId ∨ FitsId (id.toNat - offset.toInt)) := by
  unfold unapplyUnlessNone
  by_cases keep : id = noId
  · simp [keep]
  · rw [if_pos keep, shiftId_neg_none_iff]
    simp [keep]

theorem newFileOwner_none_iff (fc : FuseContext) (setgid : Bool) :
    newFileOwner settings fc setgid = none ↔ ¬ CallerStorable settings fc setgid := by
  have owners : unapplyUnlessNone (unapplyUidOffset settings) (callerIds settings fc setgid).1 =
      none ↔ _ := unapplyUnlessNone_none_iff settings.uid_offset _
  have groups : unapplyUnlessNone (unapplyGidOffset settings) (callerIds settings fc setgid).2 =
      none ↔ _ := unapplyUnlessNone_none_iff settings.gid_offset _
  unfold CallerStorable newFileOwner
  rw [not_and_or, ← owners, ← groups]
  cases unapplyUnlessNone (unapplyUidOffset settings) (callerIds settings fc setgid).1 <;>
    cases unapplyUnlessNone (unapplyGidOffset settings) (callerIds settings fc setgid).2 <;> simp

end

/-! ## Deletion -/

section
variable {W : Type} {host : Host W} {world world' : W}

theorem deletionTarget_found {path target : CString}
    (found : host.realpath world path = .ok target) :
    (deletionTarget host path).exec world = ⟨.ok (some target), world, [(world, .realpath path)]⟩ := by
  simp [deletionTarget, found, Outcome.after]

theorem deletionTarget_lost {path : CString} (lost : host.realpath world path = .error .enoent) :
    (deletionTarget host path).exec world = ⟨.ok none, world, [(world, .realpath path)]⟩ := by
  simp [deletionTarget, lost, Outcome.after]

theorem deleteThenTry_done {realPath : CString} {mainDelete targetDelete : CString → SysCall}
    (deleted : host.perform world (mainDelete realPath) = .ok world') :
    (deleteThenTry host realPath mainDelete targetDelete none).exec world =
      ⟨.ok (), world', [(world, mainDelete realPath)]⟩ := by
  simp [deleteThenTry, host.exec_issue_ok deleted, Outcome.after]

/-- The tree after a call whose failure is not looked at. -/
def afterTrying (host : Host W) (world : W) (c : SysCall) : W :=
  match host.perform world c with
  | .ok world' => world'
  | .error _ => world

/-- Whether the target could be deleted shows in the tree only. -/
theorem deleteThenTry_tried {realPath target : CString} {mainDelete targetDelete : CString → SysCall}
    (deleted : host.perform world (mainDelete realPath) = .ok world') :
    (deleteThenTry host realPath mainDelete targetDelete (some target)).exec world =
      ⟨.ok (), afterTrying host world' (targetDelete target),
        [(world, mainDelete realPath), (world', targetDelete target)]⟩ := by
  unfold afterTrying
  cases tried : host.perform world' (targetDelete target) with
  | ok world'' =>
    simp [deleteThenTry, host.exec_issue_ok deleted, host.exec_issue_ok tried, Outcome.after]
  | error error =>
    simp [deleteThenTry, host.exec_issue_ok deleted, host.exec_issue_error tried, Outcome.after]

end

end Bindfs.Source
