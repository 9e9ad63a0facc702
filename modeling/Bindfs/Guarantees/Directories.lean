import Bindfs.Source.DirectorySpecs
import Bindfs.Source.TableHost

/-!
# Directory listings

Without readdirplus a directory is listed whoever owns its entries. With readdirplus one
entry whose attributes cannot be reported ends the whole listing in an error
(`listing_independent_of_plus_iff`).
-/
namespace Bindfs.Guarantees.Directories
open Bindfs.Source Bindfs.Lib.Effects

section
variable {W : Type} (host : Host W) (settings : Settings) (fc : FuseContext) (world : W)

/-! ## Attributes that can be reported -/

/-- The caller is denied all access by `--mirror-only`. -/
def shutOut : Bool :=
  !(isMirroringEnabled settings && isMirroredUser host settings fc.uid) &&
    (settings.mirrored_users_only && fc.uid ≠ 0#32)

/-- Owner and group stay in range through map and offset, and a block device that is shown as
a file can be opened and has a size that fits `off_t`. -/
structure Reportable (size : Except Errno (BitVec 64)) (stbuf : Stat) : Prop where
  owner : FitsId ((usermapGetUidOrDefault settings.usermap stbuf.st_uid stbuf.st_uid).toNat +
    settings.uid_offset.toInt)
  group : FitsId ((usermapGetGidOrDefault settings.usermap stbuf.st_gid stbuf.st_gid).toNat +
    settings.gid_offset.toInt)
  device : settings.block_devices_as_files = true → S_ISBLK stbuf.st_mode = true →
    shutOut host settings fc = false → ∃ bytes, size = .ok bytes ∧ 0 ≤ bytes.toInt

theorem translateStat_none_iff (stbuf : Stat) :
    translateStat settings stbuf = none ↔
      ¬ (FitsId ((usermapGetUidOrDefault settings.usermap stbuf.st_uid stbuf.st_uid).toNat +
          settings.uid_offset.toInt) ∧
        FitsId ((usermapGetGidOrDefault settings.usermap stbuf.st_gid stbuf.st_gid).toNat +
          settings.gid_offset.toInt)) := by
  have owners : applyUidOffset settings
      (usermapGetUidOrDefault settings.usermap stbuf.st_uid stbuf.st_uid) = none ↔ _ :=
    shiftId_none_iff settings.uid_offset _
  have groups : applyGidOffset settings
      (usermapGetGidOrDefault settings.usermap stbuf.st_gid stbuf.st_gid) = none ↔ _ :=
    shiftId_none_iff settings.gid_offset _
  rw [not_and_or, ← owners, ← groups]
  unfold translateStat
  cases applyUidOffset settings
    (usermapGetUidOrDefault settings.usermap stbuf.st_uid stbuf.st_uid) <;>
    cases applyGidOffset settings
      (usermapGetGidOrDefault settings.usermap stbuf.st_gid stbuf.st_gid) <;> simp

theorem blockReport_ok_iff (size : Except Errno (BitVec 64)) (stbuf : Stat) :
    (∃ shown, blockReport settings size stbuf = .ok shown) ↔
      (settings.block_devices_as_files = true → S_ISBLK stbuf.st_mode = true →
        ∃ bytes, size = .ok bytes ∧ 0 ≤ bytes.toInt) := by
  unfold blockReport
  by_cases taken : (settings.block_devices_as_files && S_ISBLK stbuf.st_mode) = true
  · obtain ⟨asFiles, block⟩ := Bool.and_eq_true_iff.mp taken
    rw [if_pos taken]
    cases size with
    | error error => simp [asFiles, block]
    | ok bytes =>
      by_cases negative : bytes.toInt < 0
      · simp [asFiles, block, negative]
      · simp [asFiles, block, negative, Int.not_lt.mp negative]
  · rw [if_neg taken]
    constructor
    · intro _ asFiles block
      exact absurd (Bool.and_eq_true_iff.mpr ⟨asFiles, block⟩) taken
    · intro _
      exact ⟨stbuf, rfl⟩

theorem fileReport_ok_iff (size : Except Errno (BitVec 64))
    (access : AccessMode → Except Errno Unit) (stbuf : Stat) :
    (∃ shown, fileReport settings size access stbuf = .ok shown) ↔
      (settings.block_devices_as_files = true → S_ISBLK stbuf.st_mode = true →
        ∃ bytes, size = .ok bytes ∧ 0 ≤ bytes.toInt) := by
  have block := blockReport_ok_iff settings size (hideHardLinks settings stbuf)
  rw [hideHardLinks_mode] at block
  rw [← block]
  unfold fileReport
  cases blockReport settings size (hideHardLinks settings stbuf) <;> simp [Except.map]

theorem attributeReport_ok_iff (size : Except Errno (BitVec 64))
    (access : AccessMode → Except Errno Unit) (stbuf : Stat) :
    (∃ shown, attributeReport host settings fc size access stbuf = .ok shown) ↔
      Reportable host settings fc size stbuf := by
  have translate := translateStat_none_iff settings stbuf
  unfold attributeReport
  cases done : translateStat settings stbuf with
  | none =>
    have outside := translate.mp done
    constructor
    · rintro ⟨shown, reported⟩
      cases reported
    · intro reportable
      exact absurd ⟨reportable.owner, reportable.group⟩ outside
  | some translated =>
    have inside := not_not.mp (mt translate.mpr (by simp [done]))
    have mode := mode_of_translateStat settings done
    have reportable_iff : Reportable host settings fc size stbuf ↔
        (settings.block_devices_as_files = true → S_ISBLK stbuf.st_mode = true →
          shutOut host settings fc = false → ∃ bytes, size = .ok bytes ∧ 0 ≤ bytes.toInt) :=
      ⟨Reportable.device, fun device => ⟨inside.1, inside.2, device⟩⟩
    rw [reportable_iff]
    simp only
    by_cases mirrored : (isMirroringEnabled settings && isMirroredUser host settings fc.uid) = true
    · have admitted : shutOut host settings fc = false := by simp [shutOut, mirrored]
      rw [if_pos mirrored, fileReport_ok_iff]
      simp [mode, admitted]
    · rw [if_neg mirrored]
      by_cases denied : (settings.mirrored_users_only && fc.uid ≠ 0#32) = true
      · have excluded : shutOut host settings fc = true := by
          simp only [shutOut, mirrored, denied, Bool.not_false, Bool.and_self]
        rw [if_pos denied]
        simp [excluded]
      · have admitted : shutOut host settings fc = false := by
          simp only [shutOut, denied, Bool.and_false]
        rw [if_neg denied, fileReport_ok_iff]
        simp [mode, admitted]

/-! ## Listings -/

/-- The reply lists every entry of the directory once, in order, and reports success. -/
def ListsAll (entries : List Dirent) (path : CString) (readdirplus : Bool) : Prop :=
  ∃ reply,
    ((bindfsReaddir host settings fc path (fun _ => .ok ()) readdirplus).exec world).result =
        .ok reply ∧
      reply.filled.map Filled.name = entries.map Dirent.d_name ∧ reply.result = .ok ()

theorem listsAll_iff {path realPath : CString} {entries : List Dirent} (readdirplus : Bool)
    (located : requestPath host settings world path = .ok realPath)
    (opened : host.opendir world realPath = .ok ⟨entries, none⟩) :
    ListsAll host settings fc world entries path readdirplus ↔
      ∀ de ∈ entries, ∃ filled,
        entryReport host settings fc world readdirplus realPath de = .ok filled := by
  have result := result_bindfsReaddir host settings fc world (fun _ => .ok ()) readdirplus located
    opened
  unfold ListsAll
  simp only [result, Except.ok.injEq, exists_eq_left', Listing.atEnd]
  exact loopReport_complete_iff _ (entryReport_name host settings fc world readdirplus realPath)
    entries

/-- `lstat` succeeds on every entry, and on the target of every symlink that has one. -/
def Statable (realPath : CString) (entries : List Dirent) : Prop :=
  ∀ de ∈ entries, (∃ st, host.lstat world (entryPath realPath de) = .ok st) ∧
    ∀ target, de.d_type = .lnk → host.realpath world (entryPath realPath de) = .ok target →
      ∃ st, host.lstat world target = .ok st

theorem shownStat_of_statable {realPath : CString} {entries : List Dirent}
    (statable : Statable host world realPath entries) {de : Dirent} (member : de ∈ entries) :
    ∃ st, shownStat host settings world (entryPath realPath de) de = .ok st := by
  obtain ⟨entry, target⟩ := statable de member
  unfold shownStat
  split
  · rename_i resolved
    have link := of_decide_eq_true (Bool.and_eq_true_iff.mp resolved).2
    split
    · rename_i found
      exact target _ link found
    · exact entry
  · exact entry

/-- A directory that can be read, with entries that can be looked at, is listed completely in
both modes if and only if the attributes of all its entries can be reported. -/
theorem listing_independent_of_plus_iff {path realPath : CString} {entries : List Dirent}
    (located : requestPath host settings world path = .ok realPath)
    (opened : host.opendir world realPath = .ok ⟨entries, none⟩)
    (statable : Statable host world realPath entries) :
    (∀ readdirplus, ListsAll host settings fc world entries path readdirplus) ↔
      ∀ de ∈ entries, ∀ st, shownStat host settings world (entryPath realPath de) de = .ok st →
        Reportable host settings fc (host.blockSize world (entryPath realPath de)) st := by
  constructor
  · intro lists de member st shown
    have reported := (listsAll_iff host settings fc world true located opened).mp (lists true)
    obtain ⟨filled, plus⟩ := reported de member
    obtain ⟨st', attributes, shown', report, -⟩ :=
      (plusReport_ok_iff host settings fc world _ _ _).mp plus
    rw [shown] at shown'
    cases shown'
    exact (attributeReport_ok_iff host settings fc _ _ _).mp ⟨attributes, report⟩
  · intro reportable readdirplus
    rw [listsAll_iff host settings fc world readdirplus located opened]
    intro de member
    obtain ⟨st, shown⟩ := shownStat_of_statable host settings world statable member
    cases readdirplus with
    | true =>
      obtain ⟨attributes, report⟩ := (attributeReport_ok_iff host settings fc _
        (host.access world (entryPath realPath de)) st).mpr (reportable de member st shown)
      exact ⟨_, (plusReport_ok_iff host settings fc world _ _ _).mpr
        ⟨st, attributes, shown, report, rfl⟩⟩
    | false =>
      exact ⟨_, (plainReport_ok_iff host settings world _ _ _).mpr ⟨rfl, fun _ _ => ⟨st, shown⟩⟩⟩

end

/-! ## A directory of two files -/

/-- A source directory with the files `a` of uid 1000 and `b` of root. -/
def twoFiles : TableTree :=
  { TableTree.empty with
    stats := [(['.', '/', 'a'], sampleStat 1000 1000 0o100644), (['.', '/', 'b'], sampleStat 0 0 0o100644)]
    listings := [(['.'], [⟨['a'], .other⟩, ⟨['b'], .other⟩])] }

theorem twoFiles_statable :
    Statable tableHost twoFiles ['.'] [⟨['a'], .other⟩, ⟨['b'], .other⟩] := by
  intro de member
  simp only [List.mem_cons, List.not_mem_nil, or_false] at member
  rcases member with rfl | rfl
  · exact ⟨⟨_, rfl⟩, fun _ link => by cases link⟩
  · exact ⟨⟨_, rfl⟩, fun _ link => by cases link⟩

/-- Without an offset both files are listed in both modes. -/
theorem listing_independent_of_plus_iff_of_twoFiles :
    ListsAll tableHost (initialSettings 0) ⟨0, 0⟩ twoFiles
        [⟨['a'], .other⟩, ⟨['b'], .other⟩] ['/'] true ∧
      ListsAll tableHost (initialSettings 0) ⟨0, 0⟩ twoFiles
        [⟨['a'], .other⟩, ⟨['b'], .other⟩] ['/'] false := by
  have both := (listing_independent_of_plus_iff tableHost (initialSettings 0) ⟨0, 0⟩ twoFiles
    (show requestPath tableHost (initialSettings 0) twoFiles ['/'] = .ok ['.'] from rfl) rfl
    twoFiles_statable).mpr (by
      intro de member st shown
      simp only [List.mem_cons, List.not_mem_nil, or_false] at member
      rcases member with rfl | rfl <;> cases shown <;>
        exact ⟨by decide, by decide, fun asFiles => by cases asFiles⟩)
  exact ⟨both true, both false⟩

/-- With `--uid-offset=-1000` root's file would be shown as uid -1000: readdirplus fails with
EIO, while the plain listing has both names. -/
theorem plus_listing_fails_with_negative_offset :
    Statable tableHost twoFiles ['.'] [⟨['a'], .other⟩, ⟨['b'], .other⟩] ∧
      ListsAll tableHost { initialSettings 0 with uid_offset := -1000 } ⟨0, 0⟩ twoFiles
        [⟨['a'], .other⟩, ⟨['b'], .other⟩] ['/'] false ∧
      ¬ ListsAll tableHost { initialSettings 0 with uid_offset := -1000 } ⟨0, 0⟩ twoFiles
        [⟨['a'], .other⟩, ⟨['b'], .other⟩] ['/'] true := by
  refine ⟨twoFiles_statable, ⟨_, rfl, rfl, rfl⟩, ?_⟩
  rintro ⟨reply, answered, -, succeeded⟩
  have failed : ((bindfsReaddir tableHost { initialSettings 0 with uid_offset := -1000 } ⟨0, 0⟩ ['/']
      (fun _ => .ok ()) true).exec twoFiles).result.map ReaddirReply.result = .ok (.error .eio) := rfl
  rw [answered] at failed
  rw [Except.map, succeeded] at failed
  cases failed

end Bindfs.Guarantees.Directories
