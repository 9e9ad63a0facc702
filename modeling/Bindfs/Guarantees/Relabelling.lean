import Bindfs.Guarantees.Transparency
import Bindfs.Lib.Renaming
import Bindfs.Source.TableHost

/-!
# A mount with maps is a mount without them

`--map` changes what the mount is a view of and nothing else: it is the mount without the maps
over a source tree whose owners read by the map and are set by the reverse map. That holds for
every request, with every other setting, down to the system calls that are made
(`serve_relabelled`), and so for whole sessions (`maps_relabel_the_source`).

Three things tie the maps to other settings and are left out. Offsets are undone after the
reverse map although they are applied after the map. Ids above the limit of bindfs are refused
before or after the map. And a new file whose caller is in the reverse map is given away also
where the file would otherwise stay with the mounter or with the group of its directory.
-/
namespace Bindfs.Guarantees.Relabelling
open Bindfs.Source Bindfs.Lib.Effects Bindfs.Lib.InverseTables Bindfs.Guarantees.Transparency

/-! ## The relabelled source -/

section
variable {W : Type} (settings : Settings)

def shownUid (uid : Id) : Id := usermapGetUidOrDefault settings.usermap uid uid
def shownGid (gid : Id) : Id := usermapGetGidOrDefault settings.usermap gid gid
def storedUid (uid : Id) : Id := usermapGetUidOrDefault settings.usermap_reverse uid uid
def storedGid (gid : Id) : Id := usermapGetGidOrDefault settings.usermap_reverse gid gid

def relabelledStat (st : Stat) : Stat :=
  { st with st_uid := shownUid settings st.st_uid, st_gid := shownGid settings st.st_gid }

def relabelledCall : SysCall → SysCall
  | .chown path uid gid => .chown path (storedUid settings uid) (storedGid settings gid)
  | .lchown path uid gid => .lchown path (storedUid settings uid) (storedGid settings gid)
  | c => c

def relabelledHost (host : Host W) : Host W :=
  { host with
    lstat := fun world path => (host.lstat world path).map (relabelledStat settings)
    perform := fun world c => host.perform world (relabelledCall settings c) }

def withoutMaps : Settings := { settings with usermap := usermapCreate, usermap_reverse := usermapCreate }

/-- The table is about ids that bindfs serves. -/
def Served (table : Table Id) : Prop := ∀ pair ∈ table, FitsId pair.1.toNat ∧ FitsId pair.2.toNat

structure MapsAlone : Prop where
  users : Served settings.usermap_reverse.users
  groups : Served settings.usermap_reverse.groups
  uid_offset : settings.uid_offset = 0#64
  gid_offset : settings.gid_offset = 0#64

/-- New files are given to the caller, whose group is not in the reverse map. -/
structure GivesToCaller (fc : FuseContext) : Prop where
  policy : settings.create_policy = .asUser
  uid : settings.create_for_uid = noId
  gid : settings.create_for_gid = noId
  group : settings.usermap_reverse.groups.lookup fc.gid = none

def CreatesForCaller (fc : FuseContext) : Request → Prop
  | .mknod .. | .mkdir .. | .symlink .. | .create .. => GivesToCaller settings fc
  | _ => True

/-! ## Ids -/

theorem fitsId_getOrDefault {table : Table Id} (served : Served table) (id : Id) :
    FitsId (getOrDefault table id id).toNat ↔ FitsId id.toNat := by
  unfold getOrDefault
  cases found : table.lookup id with
  | none => rfl
  | some value =>
    have entry := served _ (mem_of_lookup found)
    exact ⟨fun _ => entry.1, fun _ => entry.2⟩

theorem getOrDefault_eq_noId_iff {table : Table Id} (served : Served table) (id : Id) :
    getOrDefault table id id = noId ↔ id = noId := by
  have unserved : ¬ FitsId noId.toNat := by decide
  unfold getOrDefault
  cases found : table.lookup id with
  | none => rfl
  | some value =>
    have entry := served _ (mem_of_lookup found)
    constructor
    · intro same
      rw [Option.getD_some] at same
      exact absurd (same ▸ entry.2) unserved
    · intro same
      exact absurd (same ▸ entry.1) unserved

/-- With no offset, the limit is the same before and after the reverse map. -/
theorem shiftId_getOrDefault {table : Table Id} (served : Served table) (id : Id) :
    shiftId 0#64 UID_T_MAX (getOrDefault table id id) =
      (shiftId 0#64 UID_T_MAX id).map fun id => getOrDefault table id id := by
  rw [shiftId_zero, shiftId_zero]
  by_cases inside : FitsId id.toNat
  · rw [if_pos ((fitsId_getOrDefault served id).mpr inside), if_pos inside]
    rfl
  · rw [if_neg (mt (fitsId_getOrDefault served id).mp inside), if_neg inside]
    rfl

theorem translateStat_relabelled (st : Stat) :
    translateStat (withoutMaps settings) (relabelledStat settings st) = translateStat settings st := rfl

end

/-! ## Calls -/

section
variable {W : Type} (host : Host W) (settings : Settings)

theorem renamed_issue (c : SysCall) :
    ((relabelledHost settings host).issue c).renamed (relabelledCall settings) =
      host.issue (relabelledCall settings c) := by
  rw [Host.issue, renamed_call]
  rfl

/-- An `lstat` of the relabelled source yields the relabelled attributes. -/
theorem renamed_callLstat (path : CString) :
    ((relabelledHost settings host).callLstat path).renamed (relabelledCall settings) =
      relabelledStat settings <$> host.callLstat path := by
  funext world
  change _ = (relabelledStat settings <$> host.callLstat path).exec world
  rw [exec_map]
  rfl

theorem renamed_ite {α : Type} {f : SysCall → SysCall} (condition : Prop) [Decidable condition]
    (left right : Sys W α) :
    (if condition then left else right).renamed f = if condition then left.renamed f else right.renamed f :=
  apply_ite (Eff.renamed f) condition left right

/-! ## Handlers -/

theorem renamed_processPath (path : CString) (resolve : Bool) :
    (processPath (relabelledHost settings host) (withoutMaps settings) (some path) resolve).renamed
      (relabelledCall settings) = processPath host settings (some path) resolve := by
  unfold processPath
  simp only [renamed_ite, renamed_bind, renamed_pure]
  congr 1
  congr 1
  funext answer
  rcases answer with error | result
  · cases error <;> rfl
  · exact renamed_ite ..

theorem renamed_hideUnlessAccess (procpath : CString) (st : Stat) (mode : AccessMode) (bits : Mode) :
    (hideUnlessAccess (relabelledHost settings host) procpath st mode bits).renamed (relabelledCall settings) =
      hideUnlessAccess host procpath st mode bits := by
  unfold hideUnlessAccess
  rw [renamed_bind]
  congr 1
  funext answer
  rcases answer with error | done <;> rfl

theorem renamed_reportPermissions (procpath : CString) (st : Stat) :
    (reportPermissions (relabelledHost settings host) (withoutMaps settings) procpath st).renamed
      (relabelledCall settings) = reportPermissions host settings procpath st := by
  unfold reportPermissions
  simp only [renamed_ite, renamed_bind, renamed_pure, renamed_hideUnlessAccess]
  rfl

theorem renamed_blockDeviceAsFile (procpath : CString) (st : Stat) :
    (blockDeviceAsFile (relabelledHost settings host) (withoutMaps settings) procpath st).renamed
      (relabelledCall settings) = blockDeviceAsFile host settings procpath st := by
  unfold blockDeviceAsFile
  simp only [renamed_ite, renamed_bind, renamed_pure, renamed_fail]
  rfl

theorem renamed_reportFile (procpath : CString) (st : Stat) :
    (reportFile (relabelledHost settings host) (withoutMaps settings) procpath st).renamed
      (relabelledCall settings) = reportFile host settings procpath st := by
  unfold reportFile
  simp only [renamed_bind, renamed_reportPermissions, renamed_blockDeviceAsFile]
  rfl

/-- `getattr_common` shows the relabelled attributes as it shows the others by the maps. -/
theorem renamed_getattrCommon (fc : FuseContext) (procpath : CString) (st : Stat) :
    (getattrCommon (relabelledHost settings host) (withoutMaps settings) fc procpath
      (relabelledStat settings st)).renamed (relabelledCall settings) =
      getattrCommon host settings fc procpath st := by
  unfold getattrCommon
  rw [translateStat_relabelled]
  cases translateStat settings st with
  | none => rfl
  | some translated =>
    simp only [renamed_ite, renamed_pure, renamed_reportFile]
    rfl

theorem renamed_bindfsGetattr (fc : FuseContext) (path : CString) :
    (bindfsGetattr (relabelledHost settings host) (withoutMaps settings) fc path).renamed
      (relabelledCall settings) = bindfsGetattr host settings fc path := by
  unfold bindfsGetattr
  simp only [renamed_bind, renamed_processPath, renamed_callLstat, bind_of_map, renamed_getattrCommon]

theorem renamed_entryStat (pathBuf : CString) (de : Dirent) :
    (entryStat (relabelledHost settings host) (withoutMaps settings) pathBuf de).renamed
      (relabelledCall settings) = relabelledStat settings <$> entryStat host settings pathBuf de := by
  unfold entryStat
  rw [renamed_ite, apply_ite (relabelledStat settings <$> ·), renamed_bind, renamed_callLstat, map_of_bind]
  congr 1
  congr 1
  funext answer
  rcases answer with error | resolved
  · exact renamed_callLstat host settings pathBuf
  · exact renamed_callLstat host settings resolved

theorem renamed_readdirEntry (fc : FuseContext) (readdirplus : Bool) (realPath : CString) (de : Dirent) :
    (readdirEntry (relabelledHost settings host) (withoutMaps settings) fc readdirplus realPath de).renamed
      (relabelledCall settings) = readdirEntry host settings fc readdirplus realPath de := by
  unfold readdirEntry
  simp only [renamed_ite, renamed_pure, renamed_bind, renamed_entryStat, bind_of_map, renamed_getattrCommon]
  rfl

theorem renamed_readdirLoop (fc : FuseContext) (readdirplus : Bool) (realPath : CString)
    (filler : Filled → Except Errno Unit) (atEnd : Except Errno Unit) (entries : List Dirent) :
    (readdirLoop (relabelledHost settings host) (withoutMaps settings) fc readdirplus realPath filler atEnd
      entries).renamed (relabelledCall settings) =
      readdirLoop host settings fc readdirplus realPath filler atEnd entries := by
  induction entries with
  | nil => rfl
  | cons de rest ih =>
    unfold readdirLoop
    rw [renamed_bind, renamed_attempt, renamed_readdirEntry]
    congr 1
    funext answer
    rcases answer with error | entry
    · rfl
    · simp only
      cases filler entry with
      | error error => rfl
      | ok done => simp only [renamed_bind, ih, renamed_pure]

theorem renamed_bindfsReaddir (fc : FuseContext) (path : CString) (filler : Filled → Except Errno Unit)
    (readdirplus : Bool) :
    (bindfsReaddir (relabelledHost settings host) (withoutMaps settings) fc path filler readdirplus).renamed
      (relabelledCall settings) = bindfsReaddir host settings fc path filler readdirplus := by
  have opened : (openDirectory (relabelledHost settings host) (withoutMaps settings) path).renamed
      (relabelledCall settings) = openDirectory host settings path := by
    unfold openDirectory
    simp only [renamed_bind, renamed_processPath, renamed_pure]
    rfl
  unfold bindfsReaddir
  rw [renamed_bind, renamed_attempt, opened]
  congr 1
  funext answer
  rcases answer with error | ⟨realPath, listing⟩
  · rfl
  · simp only [renamed_bind, renamed_readdirLoop]
    rfl

theorem renamed_executeOnlyMode (realPath : CString) :
    (executeOnlyMode (relabelledHost settings host) (withoutMaps settings) realPath).renamed
      (relabelledCall settings) = executeOnlyMode host settings realPath := by
  unfold executeOnlyMode
  simp only [renamed_ite, renamed_bind, renamed_pure, renamed_callLstat, bind_of_map]
  rfl

theorem renamed_chmodByPolicy (realPath : CString) (mode : Mode) (old : Option Mode) :
    (chmodByPolicy (relabelledHost settings host) (withoutMaps settings) realPath mode old).renamed
      (relabelledCall settings) = chmodByPolicy host settings realPath mode old := by
  have same : (withoutMaps settings).chmod_policy = settings.chmod_policy := rfl
  unfold chmodByPolicy
  rw [same]
  rcases settings.chmod_policy with _ | _ | _ <;> rcases old with _ | oldMode <;>
    simp only [renamed_ite, renamed_issue, renamed_pure, renamed_fail, relabelledCall]
  · rfl
  · rfl

theorem renamed_bindfsChmod (path : CString) (mode : Mode) :
    (bindfsChmod (relabelledHost settings host) (withoutMaps settings) path mode).renamed
      (relabelledCall settings) = bindfsChmod host settings path mode := by
  unfold bindfsChmod
  simp only [renamed_bind, renamed_processPath, renamed_executeOnlyMode, renamed_chmodByPolicy]

theorem renamed_deleteThenTry (realPath : CString) {mainDelete targetDelete : CString → SysCall}
    (main : ∀ path, relabelledCall settings (mainDelete path) = mainDelete path)
    (target : ∀ path, relabelledCall settings (targetDelete path) = targetDelete path)
    (also : Option CString) :
    (deleteThenTry (relabelledHost settings host) realPath mainDelete targetDelete also).renamed
      (relabelledCall settings) = deleteThenTry host realPath mainDelete targetDelete also := by
  unfold deleteThenTry
  rw [renamed_bind, renamed_issue, main]
  congr 1
  funext deleted
  cases also with
  | none => rfl
  | some path =>
    simp only [renamed_bind, renamed_attempt, renamed_issue, target]
    rfl

theorem renamed_deletionTarget (realPath : CString) :
    (deletionTarget (relabelledHost settings host) realPath).renamed (relabelledCall settings) =
      deletionTarget host realPath := by
  unfold deletionTarget
  rw [renamed_bind]
  congr 1
  funext answer
  rcases answer with error | target
  · cases error <;> rfl
  · rfl

theorem renamed_deleteFile (path : CString) (targetDelete : CString → SysCall)
    (target : ∀ path, relabelledCall settings (targetDelete path) = targetDelete path) :
    (deleteFile (relabelledHost settings host) (withoutMaps settings) path targetDelete).renamed
      (relabelledCall settings) = deleteFile host settings path targetDelete := by
  have deny : (withoutMaps settings).delete_deny = settings.delete_deny := rfl
  have resolves : (withoutMaps settings).resolve_symlinks = settings.resolve_symlinks := rfl
  have policy : (withoutMaps settings).resolved_symlink_deletion_policy =
      settings.resolved_symlink_deletion_policy := rfl
  have mode (st : Stat) : (relabelledStat settings st).st_mode = st.st_mode := rfl
  unfold deleteFile
  simp only [deny, resolves, policy, mode, renamed_ite, renamed_bind, renamed_fail, renamed_processPath,
    renamed_callLstat, bind_of_map, renamed_deleteThenTry host settings _ target target]
  congr 1
  congr 1
  funext realPath
  congr 1
  congr 1
  funext st
  congr 1
  rcases settings.resolved_symlink_deletion_policy with _ | _ | _ | _
  · rfl
  · exact renamed_deleteThenTry host settings realPath (fun _ => rfl) target none
  · rw [renamed_bind, renamed_deletionTarget]
    congr 1
    funext found
    exact renamed_deleteThenTry host settings realPath (fun _ => rfl) target found
  · rw [renamed_bind, renamed_deletionTarget]
    congr 1
    funext found
    cases found with
    | none => exact renamed_deleteThenTry host settings realPath target target none
    | some path =>
      simp only [renamed_bind, renamed_issue, renamed_deleteThenTry host settings _ target target]
      rfl

/-- A request to change the owner is the same before and after the reverse map. -/
theorem chownId_relabelled {table : Table Id} (served : Served table) (policy : ChangePolicy) (id : Id) :
    chownId policy (fun id => shiftId 0#64 UID_T_MAX (getOrDefault table id id)) id =
      (chownId policy (fun id => shiftId 0#64 UID_T_MAX id) id).map fun id => getOrDefault table id id := by
  have none_kept : getOrDefault table noId noId = noId := (getOrDefault_eq_noId_iff served noId).mpr rfl
  unfold chownId
  by_cases asked : id ≠ noId
  · rw [if_pos asked, if_pos asked]
    simp only [shiftId_getOrDefault served]
    cases policy with
    | normal => cases shiftId 0#64 UID_T_MAX id <;> rfl
    | ignore => exact congrArg Except.ok none_kept.symm
    | deny => rfl
  · rw [if_neg asked, if_neg asked, not_not.mp asked]
    exact congrArg Except.ok none_kept.symm

theorem chownUid_relabelled (alone : MapsAlone settings) (uid : Id) :
    chownUid settings uid = (chownUid (withoutMaps settings) uid).map (storedUid settings) := by
  unfold chownUid unapplyUidOffset
  have offset : -settings.uid_offset = 0#64 := by rw [alone.uid_offset]; rfl
  have offset' : -(withoutMaps settings).uid_offset = 0#64 := offset
  rw [offset, offset']
  exact chownId_relabelled alone.users settings.chown_policy uid

theorem chownGid_relabelled (alone : MapsAlone settings) (gid : Id) :
    chownGid settings gid = (chownGid (withoutMaps settings) gid).map (storedGid settings) := by
  unfold chownGid unapplyGidOffset
  have offset : -settings.gid_offset = 0#64 := by rw [alone.gid_offset]; rfl
  have offset' : -(withoutMaps settings).gid_offset = 0#64 := offset
  rw [offset, offset']
  exact chownId_relabelled alone.groups settings.chgrp_policy gid

theorem renamed_bindfsChown (alone : MapsAlone settings) (path : CString) (uid gid : Id) :
    (bindfsChown (relabelledHost settings host) (withoutMaps settings) path uid gid).renamed
      (relabelledCall settings) = bindfsChown host settings path uid gid := by
  unfold bindfsChown
  rw [chownUid_relabelled settings alone, chownGid_relabelled settings alone]
  rcases chownUid (withoutMaps settings) uid with error | owner
  · rfl
  · rcases chownGid (withoutMaps settings) gid with error | group
    · rfl
    · simp only [Except.map, renamed_ite, renamed_bind, renamed_processPath, renamed_issue, relabelledCall,
        renamed_pure, storedUid, storedGid, usermapGetUidOrDefault, usermapGetGidOrDefault, ne_eq,
        getOrDefault_eq_noId_iff alone.users, getOrDefault_eq_noId_iff alone.groups]

/-! ## Creations -/

theorem renamed_inheritsGroup (path : CString) :
    (inheritsGroup (relabelledHost settings host) (withoutMaps settings) path).renamed
      (relabelledCall settings) = inheritsGroup host settings path := by
  have policy : (withoutMaps settings).create_policy = settings.create_policy := rfl
  unfold inheritsGroup
  rw [policy]
  rcases settings.create_policy with _ | _
  · simp only [renamed_bind, renamed_attempt, renamed_callLstat, attempt_map, bind_of_map]
    congr 1
    funext answer
    rcases answer with error | st <;> rfl
  · rfl

theorem unapply_relabelled {table : Table Id} (served : Served table) (id : Id) :
    unapplyUnlessNone (shiftId 0#64 UID_T_MAX) (getOrDefault table id id) =
      (unapplyUnlessNone (shiftId 0#64 UID_T_MAX) id).map fun id => getOrDefault table id id := by
  unfold unapplyUnlessNone
  by_cases asked : id ≠ noId
  · rw [if_pos asked, if_pos (mt (getOrDefault_eq_noId_iff served id).mp asked)]
    exact shiftId_getOrDefault served id
  · rw [not_not.mp asked, (getOrDefault_eq_noId_iff served noId).mpr rfl]
    simp [(getOrDefault_eq_noId_iff served noId).mpr rfl]

/-- An id that is in no entry, or none at all, is not changed. -/
theorem unapply_unmapped {table : Table Id} (served : Served table) {id : Id}
    (unmapped : id = noId ∨ table.lookup id = none) :
    unapplyUnlessNone (shiftId 0#64 UID_T_MAX) id =
      (unapplyUnlessNone (shiftId 0#64 UID_T_MAX) id).map fun id => getOrDefault table id id := by
  have kept : getOrDefault table id id = id := by
    rcases unmapped with rfl | absent
    · exact (getOrDefault_eq_noId_iff served noId).mpr rfl
    · rw [getOrDefault, absent, Option.getD_none]
  rw [← unapply_relabelled served, kept]

theorem owner_relabelled (alone : MapsAlone settings) {fc : FuseContext} (gives : GivesToCaller settings fc)
    (setgid : Bool) : unapplyUnlessNone (unapplyUidOffset settings) (callerIds settings fc setgid).1 =
      (unapplyUnlessNone (unapplyUidOffset (withoutMaps settings))
        (callerIds (withoutMaps settings) fc setgid).1).map (storedUid settings) := by
  have offset : unapplyUidOffset settings = shiftId 0#64 UID_T_MAX := by
    unfold unapplyUidOffset
    rw [alone.uid_offset]
    rfl
  have asked : (callerIds settings fc setgid).1 = storedUid settings fc.uid := by
    rw [callerIds, gives.policy]
    rfl
  have asked' : (callerIds (withoutMaps settings) fc setgid).1 = fc.uid := by
    rw [callerIds, show (withoutMaps settings).create_policy = .asUser from gives.policy]
    rfl
  rw [asked, asked', show unapplyUidOffset (withoutMaps settings) = unapplyUidOffset settings from rfl, offset]
  exact unapply_relabelled alone.users fc.uid

theorem group_relabelled (alone : MapsAlone settings) {fc : FuseContext} (gives : GivesToCaller settings fc)
    (setgid : Bool) : unapplyUnlessNone (unapplyGidOffset settings) (callerIds settings fc setgid).2 =
      (unapplyUnlessNone (unapplyGidOffset (withoutMaps settings))
        (callerIds (withoutMaps settings) fc setgid).2).map (storedGid settings) := by
  have offset : unapplyGidOffset settings = shiftId 0#64 UID_T_MAX := by
    unfold unapplyGidOffset
    rw [alone.gid_offset]
    rfl
  have asked : (callerIds settings fc setgid).2 = if setgid then noId else fc.gid := by
    rw [callerIds, gives.policy]
    simp only [usermapGetGidOrDefault, getOrDefault, gives.group, Option.getD_none]
  have asked' : (callerIds (withoutMaps settings) fc setgid).2 = if setgid then noId else fc.gid := by
    rw [callerIds, show (withoutMaps settings).create_policy = .asUser from gives.policy]
    rfl
  rw [asked, asked', show unapplyGidOffset (withoutMaps settings) = unapplyGidOffset settings from rfl, offset]
  apply unapply_unmapped alone.groups
  cases setgid with
  | true => exact Or.inl rfl
  | false => exact Or.inr gives.group

theorem newFileOwner_relabelled (alone : MapsAlone settings) {fc : FuseContext}
    (gives : GivesToCaller settings fc) (setgid : Bool) :
    newFileOwner settings fc setgid = (newFileOwner (withoutMaps settings) fc setgid).map fun owner =>
      (storedUid settings owner.1, storedGid settings owner.2) := by
  have uid : (withoutMaps settings).create_for_uid = noId := gives.uid
  have gid : (withoutMaps settings).create_for_gid = noId := gives.gid
  unfold newFileOwner
  rw [owner_relabelled settings alone gives, group_relabelled settings alone gives, gives.uid, gives.gid, uid, gid]
  rcases unapplyUnlessNone (unapplyUidOffset (withoutMaps settings)) _ with _ | owner
  · rfl
  · rcases unapplyUnlessNone (unapplyGidOffset (withoutMaps settings)) _ with _ | group <;> rfl

theorem renamed_chownNewFile (alone : MapsAlone settings) {fc : FuseContext} (gives : GivesToCaller settings fc)
    (path : CString) (chownFunc : CString → Id → Id → SysCall)
    (translates : ∀ path uid gid, relabelledCall settings (chownFunc path uid gid) =
      chownFunc path (storedUid settings uid) (storedGid settings gid)) :
    (chownNewFile (relabelledHost settings host) (withoutMaps settings) path fc chownFunc).renamed
      (relabelledCall settings) = chownNewFile host settings path fc chownFunc := by
  unfold chownNewFile
  rw [renamed_bind, renamed_inheritsGroup]
  congr 1
  funext setgid
  rw [newFileOwner_relabelled settings alone gives]
  rcases newFileOwner (withoutMaps settings) fc setgid with _ | ⟨owner, group⟩
  · rfl
  · simp only [Option.map_some, renamed_ite, renamed_bind, renamed_attempt, renamed_issue, translates,
      renamed_pure, storedUid, storedGid, usermapGetUidOrDefault, usermapGetGidOrDefault, ne_eq,
      getOrDefault_eq_noId_iff alone.users, getOrDefault_eq_noId_iff alone.groups]

/-! ## Requests -/

theorem renamed_whenInstalled {α : Type} (installed : Bool) (handler : Sys W α) :
    (whenInstalled installed handler).renamed (relabelledCall settings) =
      whenInstalled installed (handler.renamed (relabelledCall settings)) := by
  cases installed <;> rfl

/-- Every request makes the same calls, meets the same answers and ends alike. -/
theorem serve_relabelled (alone : MapsAlone settings) (fc : FuseContext) (request : Request)
    (creates : CreatesForCaller settings fc request) :
    (serve (relabelledHost settings host) (withoutMaps settings) fc request).renamed (relabelledCall settings) =
      serve host settings fc request := by
  cases request with
  | getattr path => simp only [serve, renamed_bind, renamed_bindfsGetattr, renamed_pure]
  | readdir path filler plus =>
    simp only [serve, readdirRequest, renamed_bind, renamed_bindfsReaddir, renamed_pure]
    congr 1
    congr 1
    funext reply
    unfold answerEntries
    cases reply.result <;> rfl
  | chmod path mode => simp only [serve, renamed_bind, renamed_bindfsChmod, renamed_pure]
  | chown path uid gid => simp only [serve, renamed_bind, renamed_bindfsChown host settings alone, renamed_pure]
  | unlink path =>
    have deletes := renamed_deleteFile host settings path SysCall.unlink fun _ => rfl
    simp only [serve, bindfsUnlink, renamed_bind, deletes, renamed_pure]
  | rmdir path =>
    have deletes := renamed_deleteFile host settings path SysCall.rmdir fun _ => rfl
    simp only [serve, bindfsRmdir, renamed_bind, deletes, renamed_pure]
  | mknod path mode rdev =>
    have gives (realPath : CString) :=
      renamed_chownNewFile host settings alone creates realPath SysCall.chown fun _ _ _ => rfl
    simp only [serve, bindfsMknod, renamed_bind, renamed_processPath, renamed_issue, gives, renamed_pure,
      apply_ite (relabelledCall settings)]
    rfl
  | mkdir path mode =>
    have gives (realPath : CString) :=
      renamed_chownNewFile host settings alone creates realPath SysCall.chown fun _ _ _ => rfl
    simp only [serve, bindfsMkdir, renamed_bind, renamed_processPath, renamed_issue, gives, renamed_pure]
    rfl
  | symlink target path =>
    have gives (realPath : CString) :=
      renamed_chownNewFile host settings alone creates realPath SysCall.lchown fun _ _ _ => rfl
    simp only [serve, bindfsSymlink, renamed_bind, renamed_ite, renamed_fail, renamed_processPath, renamed_issue,
      gives, renamed_pure]
    rfl
  | create path flags mode =>
    have gives (realPath : CString) :=
      renamed_chownNewFile host settings alone creates realPath SysCall.chown fun _ _ _ => rfl
    simp only [serve, bindfsCreate, renamed_bind, renamed_processPath, Host.callOpen, renamed_call, renamed_attempt,
      gives, renamed_pure]
    rfl
  | rename source dest flags =>
    simp only [serve, bindfsRename, renamed_bind, renamed_ite, renamed_fail, renamed_processPath, renamed_issue,
      renamed_pure]
    rfl
  | link source dest =>
    simp only [serve, bindfsLink, renamed_bind, renamed_processPath, renamed_issue, renamed_pure]
    rfl
  | truncate path size =>
    simp only [serve, bindfsTruncate, renamed_bind, renamed_processPath, renamed_issue, renamed_pure]
    rfl
  | utimens path atime mtime =>
    simp only [serve, bindfsUtimens, renamed_bind, renamed_processPath, renamed_issue, renamed_pure]
    rfl
  | readlink path size =>
    simp only [serve, bindfsReadlink, renamed_bind, renamed_processPath, renamed_ask, renamed_pure]
    rfl
  | statfs path =>
    simp only [serve, bindfsStatfs, renamed_bind, renamed_processPath, renamed_ask, renamed_pure]
    rfl
  | openFile path flags =>
    simp only [serve, bindfsOpen, renamed_bind, renamed_processPath, Host.callOpen, renamed_call, renamed_pure]
    rfl
  | setxattr path name value flags =>
    simp only [serve, bindfsSetxattr, renamed_whenInstalled, renamed_bind, renamed_ite, renamed_fail,
      renamed_processPath, renamed_issue, renamed_pure]
    rfl
  | removexattr path name =>
    simp only [serve, bindfsRemovexattr, renamed_whenInstalled, renamed_bind, renamed_ite, renamed_fail,
      renamed_processPath, renamed_issue, renamed_pure]
    rfl
  | getxattr path name size =>
    simp only [serve, bindfsGetxattr, renamed_whenInstalled, renamed_bind, renamed_processPath, renamed_ask,
      renamed_pure]
    rfl
  | listxattr path size =>
    simp only [serve, bindfsListxattr, renamed_whenInstalled, renamed_bind, renamed_processPath, renamed_ask,
      renamed_pure]
    rfl
  | read fd flags size offset =>
    simp only [serve, bindfsRead, directIoBuffer, renamed_bind, renamed_ite, renamed_fail, renamed_call,
      Host.callDescriptor, renamed_pure]
    rfl
  | write fd flags data offset =>
    simp only [serve, bindfsWrite, directIoBuffer, renamed_bind, renamed_ite, renamed_fail, renamed_call,
      Host.callDescriptor, renamed_pure]
    rfl
  | lock fd cmd =>
    simp only [serve, bindfsLock, renamed_whenInstalled, renamed_bind, Host.callDescriptor, renamed_call,
      renamed_pure]
    rfl
  | flock fd op =>
    simp only [serve, bindfsFlock, renamed_whenInstalled, renamed_bind, Host.callDescriptor, renamed_call,
      renamed_pure]
    rfl
  | ioctl fd cmd =>
    simp only [serve, bindfsIoctl, renamed_whenInstalled, renamed_bind, Host.callDescriptor, renamed_call,
      renamed_pure]
    rfl
  | fsync fd isdatasync =>
    simp only [serve, bindfsFsync, renamed_bind, Host.callDescriptor, renamed_call, renamed_pure]
    rfl
  | release fd =>
    simp only [serve, bindfsRelease, renamed_bind, renamed_attempt, Host.callDescriptor, renamed_call,
      renamed_pure]
    rfl

end

/-- Mounts whose handlers end alike serve sessions alike. -/
theorem session_eq {W : Type} {host host' : Host W} {settings settings' : Settings}
    {requests : List (FuseContext × Request)}
    (alike : ∀ r ∈ requests, ∀ tree,
      ((serve host settings r.1 r.2).exec tree).result = ((serve host' settings' r.1 r.2).exec tree).result ∧
      ((serve host settings r.1 r.2).exec tree).world = ((serve host' settings' r.1 r.2).exec tree).world)
    (world : W) : session host settings requests world = session host' settings' requests world := by
  induction requests generalizing world with
  | nil => rfl
  | cons r rest ih =>
    obtain ⟨fc, request⟩ := r
    obtain ⟨result, tree⟩ := alike (fc, request) List.mem_cons_self world
    have later := ih fun r member => alike r (List.mem_cons_of_mem _ member)
    simp only [session, result, tree, later]

/-- A mount with maps and no offsets serves every session as a mount without the maps does over
the relabelled source: the same replies, the same trees on the way, and for every request the
same system calls but for the owners, which the reverse map translates. -/
theorem maps_relabel_the_source {W : Type} (host : Host W) (settings : Settings) (alone : MapsAlone settings)
    (requests : List (FuseContext × Request))
    (creates : ∀ r ∈ requests, CreatesForCaller settings r.1 r.2) (world : W) :
    session host settings requests world =
      session (relabelledHost settings host) (withoutMaps settings) requests world ∧
    ∀ r ∈ requests, ∀ tree, ((serve host settings r.1 r.2).exec tree).calls =
      ((serve (relabelledHost settings host) (withoutMaps settings) r.1 r.2).exec tree).calls.map
        fun entry => (entry.1, relabelledCall settings entry.2) := by
  have served (r : FuseContext × Request) (member : r ∈ requests) (tree : W) :
      (serve host settings r.1 r.2).exec tree =
        ((serve (relabelledHost settings host) (withoutMaps settings) r.1 r.2).exec tree).renamed
          (relabelledCall settings) := by
    rw [← exec_renamed, serve_relabelled host settings alone r.1 r.2 (creates r member)]
  constructor
  · apply session_eq
    intro r member tree
    rw [served r member tree]
    exact ⟨rfl, rfl⟩
  · intro r member tree
    rw [served r member tree]
    rfl

/-- `--map=1000/2000`. -/
def onePair : Settings :=
  { initialSettings 0 with
    usermap := ⟨[(1000#32, 2000#32)], []⟩
    usermap_reverse := ⟨[(2000#32, 1000#32)], []⟩ }

theorem onePair_alone : MapsAlone onePair where
  users pair member := by
    obtain rfl := List.mem_singleton.mp member
    exact ⟨by decide, by decide⟩
  groups := nofun
  uid_offset := rfl
  gid_offset := rfl

/-- A file of user 1000 is given to 2000, who makes a directory and looks at the file: lchown(2) and
chown(2) are asked for 1000. -/
def onePairRequests : List (FuseContext × Request) :=
  [(⟨0#32, 0#32⟩, .chown ['/', 'a'] 2000#32 noId), (⟨2000#32, 100#32⟩, .mkdir ['/', 'd'] 0o755#32),
    (⟨2000#32, 100#32⟩, .getattr ['/', 'a'])]

theorem onePairRequests_forCaller : ∀ r ∈ onePairRequests, CreatesForCaller onePair r.1 r.2 := by
  intro r member
  simp only [onePairRequests, List.mem_cons, List.not_mem_nil, or_false] at member
  rcases member with rfl | rfl | rfl
  · trivial
  · exact ⟨rfl, rfl, rfl, rfl⟩
  · trivial

theorem maps_relabel_the_source_of_one_pair : ∃ tree : TableTree,
    session tableHost onePair onePairRequests tree =
      session (relabelledHost onePair tableHost) (withoutMaps onePair) onePairRequests tree ∧
    (∃ r ∈ onePairRequests,
      ((serve tableHost onePair r.1 r.2).exec tree).calls = [(tree, .lchown ['a'] 1000#32 noId)]) ∧
    (∃ r ∈ onePairRequests,
      ((serve tableHost onePair r.1 r.2).exec tree).calls.map Prod.snd =
        [.mkdir ['d'] 0o755#32, .lstat ['.'], .chown ['d'] 1000#32 100#32]) ∧
    (session tableHost onePair onePairRequests tree).2.getLast? =
      some (.ok (.attributes (sampleStat 2000#32 0 0o100600#32))) := by
  have applied := maps_relabel_the_source tableHost onePair onePair_alone onePairRequests onePairRequests_forCaller
    ⟨[(['a'], sampleStat 1000#32 0 0o100600#32)], [], [], [], []⟩
  exact ⟨_, applied.1, ⟨_, .head _, rfl⟩, ⟨_, .tail _ (.head _), rfl⟩, rfl⟩

end Bindfs.Guarantees.Relabelling
