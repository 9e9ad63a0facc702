import Bindfs.Guarantees.Directories

/-!
# Overriding options

`--force-user` and `--force-group` take the place of the owner a file has, `--create-for-user`
and `--create-for-group` that of the caller. In the source the overridden ids are still
translated and range-checked first, and an id out of range ends the call with EIO before the
override is reached. `overriding_options_iff` says for which two owners and for which two
callers nothing of the overridden ids remains visible.

The attributes of a file are handed on only when `getattr_common` returns 0.
-/
namespace Bindfs.Guarantees.Overrides
open Bindfs.Source Bindfs.Lib.Effects Bindfs.Guarantees.Directories

section
variable {W : Type} (host : Host W) (settings : Settings)

/-! ## Reported owners -/

/-- The owner and the group stay in range through map and offset. -/
def Displayable (owner : Id × Id) : Prop :=
  FitsId ((usermapGetUidOrDefault settings.usermap owner.1 owner.1).toNat + settings.uid_offset.toInt) ∧
    FitsId ((usermapGetGidOrDefault settings.usermap owner.2 owner.2).toNat + settings.gid_offset.toInt)

instance (owner : Id × Id) : Decidable (Displayable settings owner) :=
  inferInstanceAs (Decidable (_ ∧ _))

/-- A block device that is shown to the caller as a file, and that cannot be opened for EIO. -/
def DeviceFails (fc : FuseContext) (size : Except Errno (BitVec 64)) (mode : Mode) : Prop :=
  settings.block_devices_as_files = true ∧ S_ISBLK mode = true ∧
    shutOut host settings fc = false ∧ size = .error .eio

theorem attributeReport_of_overflow (fc : FuseContext) (size : Except Errno (BitVec 64))
    (access : AccessMode → Except Errno Unit) (stbuf : Stat) {owner : Id × Id}
    (outside : ¬ Displayable settings owner) :
    attributeReport host settings fc size access (stbuf.withOwner owner) = .error .eio := by
  have overflow := (translateStat_none_iff settings (stbuf.withOwner owner)).mpr outside
  unfold attributeReport
  rw [overflow]
  rfl

theorem translateStat_forced (forced : settings.new_uid ≠ noId ∧ settings.new_gid ≠ noId)
    (stbuf : Stat) {owner : Id × Id} (inside : Displayable settings owner) :
    translateStat settings (stbuf.withOwner owner) =
      some (({ stbuf with
        st_ctim := if settings.ctime_from_mtime then stbuf.st_mtim else stbuf.st_ctim } : Stat).withOwner
          (settings.new_uid, settings.new_gid)) := by
  have translated : translateStat settings (stbuf.withOwner owner) ≠ none :=
    fun overflow => (translateStat_none_iff settings (stbuf.withOwner owner)).mp overflow inside
  rw [translateStat_withOwner] at translated ⊢
  simp only [shownOwner, if_pos forced.1, if_pos forced.2] at translated ⊢
  cases uids : applyUidOffset settings (usermapGetUidOrDefault settings.usermap owner.1 owner.1) with
  | none => simp [uids] at translated
  | some uid =>
    cases gids : applyGidOffset settings (usermapGetGidOrDefault settings.usermap owner.2 owner.2) with
    | none => simp [uids, gids] at translated
    | some gid => rfl

theorem fileReport_eio_iff (size : Except Errno (BitVec 64))
    (access : AccessMode → Except Errno Unit) (stbuf : Stat) :
    fileReport settings size access stbuf = .error .eio ↔
      settings.block_devices_as_files = true ∧ S_ISBLK stbuf.st_mode = true ∧ size = .error .eio := by
  unfold fileReport blockReport
  rw [hideHardLinks_mode]
  cases settings.block_devices_as_files <;> cases S_ISBLK stbuf.st_mode
  · simp [Except.map]
  · simp [Except.map]
  · simp [Except.map]
  · cases size with
    | error error => simp [Except.map]
    | ok bytes => by_cases negative : bytes.toInt < 0 <;> simp [negative, Except.map]

theorem attributeReport_eio_iff (fc : FuseContext) (size : Except Errno (BitVec 64))
    (access : AccessMode → Except Errno Unit) (stbuf : Stat) {owner : Id × Id}
    (inside : Displayable settings owner) :
    attributeReport host settings fc size access (stbuf.withOwner owner) = .error .eio ↔
      DeviceFails host settings fc size stbuf.st_mode := by
  cases done : translateStat settings (stbuf.withOwner owner) with
  | none => exact absurd inside ((translateStat_none_iff settings _).mp done)
  | some translated =>
    have mode : translated.st_mode = (stbuf.withOwner owner).st_mode := mode_of_translateStat settings done
    change translated.st_mode = stbuf.st_mode at mode
    unfold attributeReport DeviceFails shutOut
    simp only [done]
    by_cases mirrored : (isMirroringEnabled settings && isMirroredUser host settings fc.uid) = true
    · rw [if_pos mirrored, fileReport_eio_iff, mode, mirrored]
      simp
    · rw [if_neg mirrored]
      by_cases denied : (settings.mirrored_users_only && fc.uid ≠ 0#32) = true
      · rw [if_pos denied, denied]
        simp [mirrored]
      · rw [if_neg denied, fileReport_eio_iff, mode]
        simp only [denied, Bool.and_false, true_and]

theorem attributeReport_forced_eq_iff (forced : settings.new_uid ≠ noId ∧ settings.new_gid ≠ noId)
    (fc : FuseContext) (size : Except Errno (BitVec 64)) (access : AccessMode → Except Errno Unit)
    (stbuf : Stat) (first second : Id × Id) :
    attributeReport host settings fc size access (stbuf.withOwner first) =
        attributeReport host settings fc size access (stbuf.withOwner second) ↔
      ((Displayable settings first ↔ Displayable settings second) ∨
        DeviceFails host settings fc size stbuf.st_mode) := by
  by_cases inside : Displayable settings first <;> by_cases inside' : Displayable settings second
  · have same : attributeReport host settings fc size access (stbuf.withOwner first) =
        attributeReport host settings fc size access (stbuf.withOwner second) := by
      unfold attributeReport
      rw [translateStat_forced settings forced stbuf inside,
        translateStat_forced settings forced stbuf inside']
    simp [same, inside, inside']
  · rw [attributeReport_of_overflow host settings fc size access stbuf inside',
      attributeReport_eio_iff host settings fc size access stbuf inside]
    simp [inside, inside']
  · rw [attributeReport_of_overflow host settings fc size access stbuf inside, eq_comm,
      attributeReport_eio_iff host settings fc size access stbuf inside']
    simp [inside, inside']
  · rw [attributeReport_of_overflow host settings fc size access stbuf inside,
      attributeReport_of_overflow host settings fc size access stbuf inside']
    simp [inside, inside']

theorem getattrCommon_forced_eq_iff (forced : settings.new_uid ≠ noId ∧ settings.new_gid ≠ noId) (world : W)
    (fc : FuseContext) (procpath : CString) (stbuf : Stat) (first second : Id × Id) :
    ((getattrCommon host settings fc procpath (stbuf.withOwner first)).exec world).result =
        ((getattrCommon host settings fc procpath (stbuf.withOwner second)).exec world).result ↔
      ((Displayable settings first ↔ Displayable settings second) ∨
        DeviceFails host settings fc (host.blockSize world procpath) stbuf.st_mode) := by
  rw [result_getattrCommon, result_getattrCommon]
  exact attributeReport_forced_eq_iff host settings forced fc _ _ stbuf first second

/-! ## Owners of new files -/

/-- The same return value and the same calls, the one of `chown_func` with its arguments
included. -/
def ChownsAlike (world : W) (path : CString) (chownFunc : CString → Id → Id → SysCall)
    (first second : FuseContext) : Prop :=
  ((chownNewFile host settings path first chownFunc).exec world).result =
      ((chownNewFile host settings path second chownFunc).exec world).result ∧
    ((chownNewFile host settings path first chownFunc).exec world).calls =
      ((chownNewFile host settings path second chownFunc).exec world).calls

theorem newFileOwner_overridden
    (overridden : settings.create_for_uid ≠ noId ∧ settings.create_for_gid ≠ noId)
    {fc : FuseContext} {setgid : Bool} (storable : CallerStorable settings fc setgid) :
    newFileOwner settings fc setgid = some (settings.create_for_uid, settings.create_for_gid) := by
  have translated : newFileOwner settings fc setgid ≠ none :=
    fun overflow => (newFileOwner_none_iff settings fc setgid).mp overflow storable
  simp only [newFileOwner, if_pos overridden.1, if_pos overridden.2] at translated ⊢
  cases uids : unapplyUnlessNone (unapplyUidOffset settings) (callerIds settings fc setgid).1 with
  | none => simp [uids] at translated
  | some uid =>
    cases gids : unapplyUnlessNone (unapplyGidOffset settings) (callerIds settings fc setgid).2 with
    | none => simp [uids, gids] at translated
    | some gid => rfl

theorem exec_chownNewFile_overridden
    (overridden : settings.create_for_uid ≠ noId ∧ settings.create_for_gid ≠ noId) {world : W}
    {path : CString} {fc : FuseContext}
    (storable : CallerStorable settings fc (directorySetgid host settings world (myDirname path)))
    (chownFunc : CString → Id → Id → SysCall) :
    ((chownNewFile host settings path fc chownFunc).exec world).result = .ok () ∧
      ((chownNewFile host settings path fc chownFunc).exec world).calls =
        parentCalls settings world path ++
          (ownerCall chownFunc path (settings.create_for_uid, settings.create_for_gid)).toList.map
            (fun c => (world, c)) :=
  exec_chownNewFile host settings (newFileOwner_overridden settings overridden storable) chownFunc

theorem exec_chownNewFile_unstorable {world : W} {path : CString} {fc : FuseContext}
    (unstorable : ¬ CallerStorable settings fc (directorySetgid host settings world (myDirname path)))
    (chownFunc : CString → Id → Id → SysCall) :
    (chownNewFile host settings path fc chownFunc).exec world =
      ⟨.error uidGidOverflowErrno, world, parentCalls settings world path⟩ :=
  exec_chownNewFile_overflow host settings ((newFileOwner_none_iff settings _ _).mpr unstorable) chownFunc

theorem chownsAlike_iff
    (overridden : settings.create_for_uid ≠ noId ∧ settings.create_for_gid ≠ noId) (world : W)
    (path : CString) (chownFunc : CString → Id → Id → SysCall) (first second : FuseContext) :
    ChownsAlike host settings world path chownFunc first second ↔
      (CallerStorable settings first (directorySetgid host settings world (myDirname path)) ↔
        CallerStorable settings second (directorySetgid host settings world (myDirname path))) := by
  unfold ChownsAlike
  by_cases inside : CallerStorable settings first (directorySetgid host settings world (myDirname path)) <;>
    by_cases inside' : CallerStorable settings second (directorySetgid host settings world (myDirname path))
  · have done := exec_chownNewFile_overridden host settings overridden inside chownFunc
    have done' := exec_chownNewFile_overridden host settings overridden inside' chownFunc
    rw [done.1, done'.1, done.2, done'.2]
    simp [inside, inside']
  · rw [(exec_chownNewFile_overridden host settings overridden inside chownFunc).1,
      exec_chownNewFile_unstorable host settings inside' chownFunc]
    simp [inside, inside']
  · rw [(exec_chownNewFile_overridden host settings overridden inside' chownFunc).1,
      exec_chownNewFile_unstorable host settings inside chownFunc]
    simp [inside, inside']
  · rw [exec_chownNewFile_unstorable host settings inside chownFunc,
      exec_chownNewFile_unstorable host settings inside' chownFunc]
    simp [inside, inside']

end

/-! ## The whole statement -/

/-- With both ids forced, two owners of a file lead to the same report if and only if both or
neither of them stays in range through map and offset, or the report fails with EIO for
either. With both ids of new files given, two callers lead to the same return value and the
same chown if and only if both or neither of them has ids that stay in range when they are
translated back. -/
theorem overriding_options_iff {W : Type} (host : Host W) (settings : Settings) (world : W) :
    (settings.new_uid ≠ noId ∧ settings.new_gid ≠ noId →
      ∀ (fc : FuseContext) (procpath : CString) (stbuf : Stat) (first second : Id × Id),
        ((getattrCommon host settings fc procpath (stbuf.withOwner first)).exec world).result =
            ((getattrCommon host settings fc procpath (stbuf.withOwner second)).exec world).result ↔
          ((Displayable settings first ↔ Displayable settings second) ∨
            DeviceFails host settings fc (host.blockSize world procpath) stbuf.st_mode)) ∧
      (settings.create_for_uid ≠ noId ∧ settings.create_for_gid ≠ noId →
        ∀ (path : CString) (chownFunc : CString → Id → Id → SysCall) (first second : FuseContext),
          ChownsAlike host settings world path chownFunc first second ↔
            (CallerStorable settings first (directorySetgid host settings world (myDirname path)) ↔
              CallerStorable settings second (directorySetgid host settings world (myDirname path)))) := by
  constructor
  · intro forced fc procpath stbuf first second
    exact getattrCommon_forced_eq_iff host settings forced world fc procpath stbuf first second
  · intro overridden path chownFunc first second
    exact chownsAlike_iff host settings overridden world path chownFunc first second

/-- `--uid-offset=-1000 --force-user=65534 --force-group=65534`, mounted by root. -/
def forcedSettings : Settings :=
  { initialSettings 0#32 with new_uid := 65534#32, new_gid := 65534#32, uid_offset := -1000#64 }

/-- `--uid-offset=1000 --create-for-user=65534 --create-for-group=65534`, mounted by root. -/
def createForSettings : Settings :=
  { initialSettings 0#32 with
    create_for_uid := 65534#32, create_for_gid := 65534#32, uid_offset := 1000#64 }

/-- Files of 1000 and of 2000 are reported alike, and new files of callers 1000 and 2000 get the
same owner. -/
theorem overriding_options_iff_in_range :
    ((getattrCommon (frozenHost .empty) forcedSettings ⟨0#32, 0#32⟩ ['f']
        ((sampleStat 0#32 0#32 0o100644#32).withOwner (1000#32, 0#32))).exec ()).result =
      ((getattrCommon (frozenHost .empty) forcedSettings ⟨0#32, 0#32⟩ ['f']
        ((sampleStat 0#32 0#32 0o100644#32).withOwner (2000#32, 0#32))).exec ()).result ∧
    ChownsAlike (frozenHost .empty) createForSettings () ['f'] .lchown ⟨1000#32, 0#32⟩ ⟨2000#32, 0#32⟩ :=
  ⟨((overriding_options_iff (frozenHost .empty) forcedSettings ()).1 (by decide) ⟨0#32, 0#32⟩ ['f']
      (sampleStat 0#32 0#32 0o100644#32) (1000#32, 0#32) (2000#32, 0#32)).mpr (Or.inl (by decide)),
    ((overriding_options_iff (frozenHost .empty) createForSettings ()).2 (by decide) ['f'] .lchown
      ⟨1000#32, 0#32⟩ ⟨2000#32, 0#32⟩).mpr (by decide)⟩

/-- A file of root cannot be reported although its owner is forced, and root cannot create a
file although the owner of new files is given: 0 is out of range after the offset. -/
theorem range_check_outruns_override :
    (∃ (fc : FuseContext) (procpath : CString) (stbuf : Stat) (first second : Id × Id),
      forcedSettings.new_uid ≠ noId ∧ forcedSettings.new_gid ≠ noId ∧
        ((getattrCommon (frozenHost .empty) forcedSettings fc procpath (stbuf.withOwner first)).exec ()).result ≠
          ((getattrCommon (frozenHost .empty) forcedSettings fc procpath (stbuf.withOwner second)).exec ()).result) ∧
      ∃ (path : CString) (first second : FuseContext),
        createForSettings.create_for_uid ≠ noId ∧ createForSettings.create_for_gid ≠ noId ∧
          ¬ ChownsAlike (frozenHost .empty) createForSettings () path .lchown first second := by
  constructor
  · refine ⟨⟨0#32, 0#32⟩, ['f'], sampleStat 0#32 0#32 0o100644#32, (1000#32, 0#32), (0#32, 0#32),
      by decide, by decide, ?_⟩
    intro same
    rcases (getattrCommon_forced_eq_iff (frozenHost .empty) forcedSettings (by decide) () _ _ _ _ _).mp same with
      alike | ⟨asFiles, -⟩
    · exact absurd alike (by decide)
    · exact absurd asFiles (by decide)
  · refine ⟨['f'], ⟨1000#32, 0#32⟩, ⟨0#32, 0#32⟩, by decide, by decide, ?_⟩
    intro alike
    exact absurd ((chownsAlike_iff (frozenHost .empty) createForSettings (by decide) () _ _ _ _).mp alike)
      (by decide)

end Bindfs.Guarantees.Overrides
