import Bindfs.Source.HandlerSpecs
import Bindfs.Source.TableHost

/-!
# A mount without options

With the settings `main` starts from, attributes pass through unchanged and chown and chmod
requests are forwarded as they are, for all ids that fit a signed 32-bit `uid_t`
(`default_mount_transparent`). bindfs deliberately treats larger ids as overflow: a file of
uid 2147483648 cannot be shown (`default_mount_refuses_large_uid`).
-/
namespace Bindfs.Guarantees.Transparency
open Bindfs.Source Bindfs.Lib.Effects

section
variable {W : Type} (host : Host W)

/-- The settings before any option is parsed, with the mountpoint set. -/
def defaultSettings (getuid : Id) (mntdest : CString) : Settings :=
  { initialSettings getuid with mntdest := mntdest }

theorem shiftId_zero (id : Id) :
    shiftId 0#64 UID_T_MAX id = if FitsId id.toNat then some id else none := by
  have zero : (0#64).toInt = 0 := by decide
  by_cases fits : FitsId id.toNat
  · rw [if_pos fits]
    exact (shiftId_iff _ _ _).mpr ⟨by omega, (fitsId_toNat id).mp fits⟩
  · rw [if_neg fits]
    cases shifted : shiftId 0#64 UID_T_MAX id with
    | none => rfl
    | some out =>
      obtain ⟨sum, bound⟩ := (shiftId_iff _ _ _).mp shifted
      exact absurd ((fitsId_toNat id).mpr (by omega)) fits

theorem translateStat_default (getuid : Id) (mntdest : CString) (stbuf : Stat) :
    translateStat (defaultSettings getuid mntdest) stbuf =
      if FitsId stbuf.st_uid.toNat ∧ FitsId stbuf.st_gid.toNat then some stbuf else none := by
  have uids : applyUidOffset (defaultSettings getuid mntdest)
      (usermapGetUidOrDefault usermapCreate stbuf.st_uid stbuf.st_uid) =
        if FitsId stbuf.st_uid.toNat then some stbuf.st_uid else none := shiftId_zero stbuf.st_uid
  have gids : applyGidOffset (defaultSettings getuid mntdest)
      (usermapGetGidOrDefault usermapCreate stbuf.st_gid stbuf.st_gid) =
        if FitsId stbuf.st_gid.toNat then some stbuf.st_gid else none := shiftId_zero stbuf.st_gid
  unfold translateStat
  change (do
    let uid ← applyUidOffset (defaultSettings getuid mntdest)
      (usermapGetUidOrDefault usermapCreate stbuf.st_uid stbuf.st_uid)
    let gid ← applyGidOffset (defaultSettings getuid mntdest)
      (usermapGetGidOrDefault usermapCreate stbuf.st_gid stbuf.st_gid)
    pure { stbuf with st_uid := uid, st_gid := gid }) = _
  rw [uids, gids]
  by_cases uidFits : FitsId stbuf.st_uid.toNat <;> by_cases gidFits : FitsId stbuf.st_gid.toNat <;>
    simp [uidFits, gidFits]

theorem reportFile_default (getuid : Id) (mntdest procpath : CString) (stbuf : Stat) (world : W) :
    (reportFile host (defaultSettings getuid mntdest) procpath stbuf).exec world =
      ⟨.ok stbuf, world, []⟩ := by
  have permissions :
      (reportPermissions host (defaultSettings getuid mntdest) procpath stbuf).exec world =
        ⟨.ok stbuf, world, []⟩ := by
    unfold reportPermissions
    split
    · rfl
    · rfl
  exact permissions

theorem chownId_normal (id : Id) :
    chownId .normal (shiftId (-0#64) UID_T_MAX) id =
      if id = noId ∨ FitsId id.toNat then .ok id else .error uidGidOverflowErrno := by
  have negated : -0#64 = 0#64 := by decide
  unfold chownId
  by_cases keep : id = noId
  · simp [keep]
  · rw [if_pos keep, negated, shiftId_zero]
    by_cases fits : FitsId id.toNat <;> simp [keep, fits]

theorem chownUid_default (getuid : Id) (mntdest : CString) (uid : Id) :
    chownUid (defaultSettings getuid mntdest) uid =
      if uid = noId ∨ FitsId uid.toNat then .ok uid else .error uidGidOverflowErrno :=
  chownId_normal uid

theorem chownGid_default (getuid : Id) (mntdest : CString) (gid : Id) :
    chownGid (defaultSettings getuid mntdest) gid =
      if gid = noId ∨ FitsId gid.toNat then .ok gid else .error uidGidOverflowErrno :=
  chownId_normal gid

/-- Without options attributes, chown requests and chmod requests pass through unchanged as
long as every id that is not -1 is at most 2^31 - 1; a larger one is answered with EIO before
anything is done. -/
theorem default_mount_transparent (getuid : Id) (mntdest : CString) (fc : FuseContext) (world : W) :
    (∀ procpath stbuf,
      (getattrCommon host (defaultSettings getuid mntdest) fc procpath stbuf).exec world =
        if FitsId stbuf.st_uid.toNat ∧ FitsId stbuf.st_gid.toNat then ⟨.ok stbuf, world, []⟩
        else ⟨.error .eio, world, []⟩) ∧
    (∀ path uid gid,
      (bindfsChown host (defaultSettings getuid mntdest) path uid gid).exec world =
        if (uid = noId ∨ FitsId uid.toNat) ∧ (gid = noId ∨ FitsId gid.toNat) then
          if uid ≠ noId ∨ gid ≠ noId then
            (host.issue (.lchown (stripSlashes path) uid gid)).exec world
          else ⟨.ok (), world, []⟩
        else ⟨.error .eio, world, []⟩) ∧
    (∀ path mode,
      (bindfsChmod host (defaultSettings getuid mntdest) path mode).exec world =
        (host.issue (.chmod (stripSlashes path) mode)).exec world) := by
  refine ⟨?_, ?_, ?_⟩
  · intro procpath stbuf
    unfold getattrCommon
    rw [translateStat_default]
    by_cases fits : FitsId stbuf.st_uid.toNat ∧ FitsId stbuf.st_gid.toNat
    · rw [if_pos fits, if_pos fits]
      exact reportFile_default host getuid mntdest procpath stbuf world
    · rw [if_neg fits, if_neg fits]
      rfl
  · intro path uid gid
    have raw := exec_processPath_raw host (defaultSettings getuid mntdest) path true rfl world
    unfold bindfsChown
    rw [chownUid_default, chownGid_default]
    by_cases uidFits : uid = noId ∨ FitsId uid.toNat
    · by_cases gidFits : gid = noId ∨ FitsId gid.toNat
      · simp only [if_pos uidFits, if_pos gidFits, if_pos (And.intro uidFits gidFits)]
        by_cases change : uid ≠ noId ∨ gid ≠ noId
        · simp only [if_pos change, exec_bind, raw, andThen_ok, Outcome.after, List.nil_append]
        · simp only [if_neg change, exec_pure]
      · have refused : ¬ ((uid = noId ∨ FitsId uid.toNat) ∧ (gid = noId ∨ FitsId gid.toNat)) :=
          fun both => gidFits both.2
        simp only [if_pos uidFits, if_neg gidFits, if_neg refused]
        rfl
    · have refused : ¬ ((uid = noId ∨ FitsId uid.toNat) ∧ (gid = noId ∨ FitsId gid.toNat)) :=
        fun both => uidFits both.1
      simp only [if_neg uidFits, if_neg refused]
      rfl
  · intro path mode
    have raw := exec_processPath_raw host (defaultSettings getuid mntdest) path true rfl world
    unfold bindfsChmod
    simp only [exec_bind, raw, andThen_ok, Outcome.after, List.nil_append]
    rfl

end

/-- A file of uid 2147483648, which every Linux file system can hold, has no attributes on a
mount without options: `getattr_common` answers EIO. -/
theorem default_mount_refuses_large_uid :
    ¬ ∀ (tree : TableTree) (stbuf : Stat),
      ((getattrCommon tableHost (defaultSettings 0 ['/', 'm']) ⟨0, 0⟩ ['f'] stbuf).exec tree).result =
        .ok stbuf := by
  intro always
  have shown := always ⟨[], [], [], [], []⟩ (sampleStat 2147483648 0 0o100644)
  have refused : ((getattrCommon tableHost (defaultSettings 0 ['/', 'm']) ⟨0, 0⟩ ['f']
      (sampleStat 2147483648 0 0o100644)).exec ⟨[], [], [], [], []⟩).result = .error .eio := rfl
  rw [refused] at shown
  cases shown

end Bindfs.Guarantees.Transparency
