import Bindfs.Guarantees.CacheAnswers
import Bindfs.Lib.Lockstep
import Bindfs.Source.DirectorySpecs
import Bindfs.Source.Main
import Bindfs.Source.Requests
import Bindfs.Source.TableHost

/-!
# Mirrored users

Mirroring is the one place where bindfs looks at who asks. The kernel then decides by the
attributes that it is shown (`default_permissions`), so what mirroring protects is the
composition of three parts: the lists given with `-m` and `-M`, the user cache and
`getattr_common`. `permissions_only_for_mirrored` puts them together.

Beyond that nothing depends on the caller, creations apart: `callers_of_a_class_served_alike`
compares whole sessions.
-/
namespace Bindfs.Guarantees.Mirroring
open Bindfs.Source Bindfs.Lib.Effects Bindfs.Lib.Concurrency
open Bindfs.Guarantees.CacheRebuilds Bindfs.Guarantees.CacheAnswers Bindfs.Guarantees.GroupMembership

/-! ## What a caller is shown -/

section
variable {W : Type} (host : Host W) (settings : Settings) (fc : FuseContext) (world : W)

/-- The attributes that some getattr or readdir in this tree shows to the caller, also those that
were filled in before a readdir failed. -/
inductive Shown : Stat → Prop
  | getattr {path : CString} {st : Stat} :
      ((bindfsGetattr host settings fc path).exec world).result = .ok st → Shown st
  | readdir {path : CString} {filler : Filled → Except Errno Unit} {readdirplus : Bool} {reply : ReaddirReply}
      {filled : Filled} {st : Stat} :
      ((bindfsReaddir host settings fc path filler readdirplus).exec world).result = .ok reply →
      filled ∈ reply.filled → filled.attr = some st → Shown st

variable {host settings fc world}

/-- Whatever is shown comes from `getattr_common`. -/
theorem Shown.report {st : Stat} (shown : Shown host settings fc world st) :
    ∃ size access stbuf, attributeReport host settings fc size access stbuf = .ok st := by
  cases shown with
  | @getattr path _ answered =>
    rw [result_bindfsGetattr] at answered
    obtain ⟨realPath, -, reported⟩ := bind_ok_iff.mp answered
    obtain ⟨stbuf, -, reported⟩ := bind_ok_iff.mp reported
    exact ⟨_, _, stbuf, reported⟩
  | @readdir path filler readdirplus reply filled _ answered member attr =>
    cases opened : requestPath host settings world path >>= host.opendir world with
    | error error =>
      rw [filled_of_unopened host settings fc world filler readdirplus opened] at answered
      cases answered
      cases member
    | ok listing =>
      obtain ⟨realPath, located, opened⟩ := bind_ok_iff.mp opened
      rw [result_bindfsReaddir host settings fc world filler readdirplus located opened] at answered
      cases answered
      obtain ⟨i, at_i⟩ := List.mem_iff_getElem?.mp member
      obtain ⟨de, -, reported⟩ := loopReport_filled filler listing.atEnd _ _ at_i
      cases readdirplus with
      | false =>
        obtain ⟨rfl, -⟩ := (plainReport_ok_iff host settings world realPath de filled).mp reported
        cases attr
      | true =>
        obtain ⟨stbuf, st', -, shown, rfl⟩ :=
          (plusReport_ok_iff host settings fc world realPath de filled).mp reported
        cases attr
        exact ⟨_, _, stbuf, shown⟩

/-- Under `--mirror-only` a caller who is neither root nor mirrored is shown no permission. -/
theorem nothing_permitted (only : settings.mirrored_users_only = true) (not_root : fc.uid ≠ 0#32)
    (other : isMirroredUser host settings fc.uid = false) {st : Stat}
    (shown : Shown host settings fc world st) : st.st_mode &&& 0o777#32 = 0#32 := by
  obtain ⟨size, access, stbuf, reported⟩ := shown.report
  unfold attributeReport at reported
  cases translated : translateStat settings stbuf with
  | none => simp [translated] at reported
  | some translated' =>
    simp only [translated, other, Bool.and_false, Bool.false_eq_true, if_false, only, Bool.true_and,
      decide_eq_true_eq, if_pos not_root, Except.ok.injEq] at reported
    subst reported
    rw [BitVec.and_assoc, show ~~~0o777#32 &&& 0o777#32 = 0#32 by decide, BitVec.and_zero]

theorem fileReport_uid (settings : Settings) {size : Except Errno (BitVec 64)}
    {access : AccessMode → Except Errno Unit} {stbuf st : Stat}
    (reported : fileReport settings size access stbuf = .ok st) : st.st_uid = stbuf.st_uid := by
  have owned := fileReport_withOwner settings size access stbuf (stbuf.st_uid, stbuf.st_gid)
  have same : stbuf.withOwner (stbuf.st_uid, stbuf.st_gid) = stbuf := rfl
  rw [same, reported] at owned
  have rewritten : st = st.withOwner (stbuf.st_uid, stbuf.st_gid) := Except.ok.inj owned
  rw [rewritten]
  rfl

theorem isMirroringEnabled_of_mirrored {uid : Id} (mirrored : isMirroredUser host settings uid = true) :
    isMirroringEnabled settings = true := by
  unfold isMirroredUser at mirrored
  unfold isMirroringEnabled
  apply decide_eq_true
  rcases Bool.or_eq_true_iff.mp mirrored with user | group
  · obtain ⟨_, member, -⟩ := List.any_eq_true.mp user
    have some_user := List.length_pos_of_mem member
    omega
  · obtain ⟨_, member, -⟩ := List.any_eq_true.mp group
    have some_group := List.length_pos_of_mem member
    omega

/-- A mirrored caller is shown as the owner of everything. -/
theorem owner_of_mirrored (mirrored : isMirroredUser host settings fc.uid = true) {st : Stat}
    (shown : Shown host settings fc world st) : st.st_uid = fc.uid := by
  obtain ⟨size, access, stbuf, reported⟩ := shown.report
  unfold attributeReport at reported
  cases translated : translateStat settings stbuf with
  | none => simp [translated] at reported
  | some translated' =>
    simp only [translated, isMirroringEnabled_of_mirrored mirrored, mirrored, Bool.and_true, if_true] at reported
    exact fileReport_uid settings reported

/-- The caller is on the list, or is said to belong to a group that is. -/
theorem isMirroredUser_iff (uid : Id) : isMirroredUser host settings uid = true ↔
    uid ∈ settings.mirrored_users ∨
      ∃ gid ∈ settings.mirrored_members, host.userBelongsToGroup uid gid = true := by
  simp [isMirroredUser]

end

/-- Under `--mirror-only`, let `asked uid gid` be the answer that a request gets to its query of
`user_belongs_to_group`, given by a thread in some run, wherever that answer is positive. Whoever
is not root and is shown a permission bit, be it for the owner, the group or the others, is shown
as the owner, and is listed as a mirrored user or was a member of a mirrored group in a user
database that was read after every invalidation before that query. -/
theorem permissions_only_for_mirrored {ι W : Type} [DecidableEq ι] (lib : CacheSorters) (sane : lib.Sane)
    {actions : List (CacheAction ι)} {s : CacheSystem ι}
    (ran : Run (CacheStep lib) (initialSystem ι) actions s) (host : Host W) (settings : Settings)
    (asked : Id → Id → Answer)
    (answers : ∀ uid gid, host.userBelongsToGroup uid gid = true → asked uid gid ∈ s.answers ∧
      (asked uid gid).query.uid = uid ∧ (asked uid gid).query.gid = gid ∧ (asked uid gid).answer = true)
    (only : settings.mirrored_users_only = true) {fc : FuseContext} (not_root : fc.uid ≠ 0#32)
    {world : W} {st : Stat} (shown : Shown host settings fc world st)
    (permitted : st.st_mode &&& 0o777#32 ≠ 0#32) :
    st.st_uid = fc.uid ∧ (fc.uid ∈ settings.mirrored_users ∨
      ∃ gid ∈ settings.mirrored_members, asked fc.uid gid ∈ s.answers ∧
        (asked fc.uid gid).query.uid = fc.uid ∧ (asked fc.uid gid).query.gid = gid ∧
        ∃ build, (asked fc.uid gid).build = some build ∧
          Member build.passwd.entries build.group.entries fc.uid gid ∧
          ∀ time ∈ s.invalidations, time < (asked fc.uid gid).query.started → time < build.started) := by
  have mirrored : isMirroredUser host settings fc.uid = true := by
    by_contra other
    exact permitted (nothing_permitted only not_root (by simpa using other) shown)
  refine ⟨owner_of_mirrored mirrored shown, ?_⟩
  rcases (isMirroredUser_iff fc.uid).mp mirrored with listed | ⟨gid, group, belongs⟩
  · exact Or.inl listed
  · obtain ⟨given, uid_eq, gid_eq, positive⟩ := answers fc.uid gid belongs
    obtain ⟨build, last, member, fresh⟩ := (answerInvariant_of_run ran).member sane given positive
    rw [uid_eq, gid_eq] at member
    exact Or.inr ⟨gid, group, given, uid_eq, gid_eq, build, last, member, fresh⟩

/-- The members of group 200 are mirrored. -/
def mirroredSettings : Settings :=
  { initialSettings 0 with mirrored_users_only := true, mirrored_members := [200#32] }

/-- A file system on which user 1001 belongs to group 200. -/
def mirroredHost : Host TableTree :=
  { tableHost with userBelongsToGroup := fun uid gid => decide (uid = 1001#32 ∧ gid = 200#32) }

/-- User 1001 may read and write a file of root that nobody else may touch. -/
theorem permissions_only_for_mirrored_of_member : ∃ (s : CacheSystem Bool) (st : Stat),
    Run (CacheStep firstSorters) (initialSystem Bool) signalledQuery s ∧
      Shown mirroredHost mirroredSettings ⟨1001#32, 1001#32⟩
        ⟨[(['a'], sampleStat 0 0 0o100600#32)], [], [], [], []⟩ st ∧
      st.st_mode &&& 0o777#32 = 0o600#32 ∧
      ∃ a ∈ s.answers, a.query.uid = 1001#32 ∧ a.query.gid = 200#32 ∧ ∃ build, a.build = some build ∧
        Member build.passwd.entries build.group.entries 1001#32 200#32 := by
  obtain ⟨s, a, ran, final⟩ := signalledQuery_ran
  have shown : Shown mirroredHost mirroredSettings ⟨1001#32, 1001#32⟩
      ⟨[(['a'], sampleStat 0 0 0o100600#32)], [], [], [], []⟩ (sampleStat 1001#32 0 0o100600#32) :=
    .getattr (show ((bindfsGetattr mirroredHost mirroredSettings _ ['/', 'a']).exec _).result = _ from rfl)
  have answers : ∀ uid gid, mirroredHost.userBelongsToGroup uid gid = true →
      a ∈ s.answers ∧ a.query.uid = uid ∧ a.query.gid = gid ∧ a.answer = true := by
    intro uid gid belongs
    obtain ⟨rfl, rfl⟩ := of_decide_eq_true belongs
    exact ⟨final.given, by rw [final.query], by rw [final.query], final.positive⟩
  have permitted : (sampleStat 1001#32 0 0o100600#32).st_mode &&& 0o777#32 = 0o600#32 := by decide
  have guarded := permissions_only_for_mirrored firstSorters firstSorters_sane ran mirroredHost mirroredSettings
    (fun _ _ => a) answers rfl (by decide) shown (by rw [permitted]; decide)
  refine ⟨s, _, ran, shown, permitted, ?_⟩
  rcases guarded.2 with listed | ⟨group, member, given, uid_eq, gid_eq, build, last, belongs, -⟩
  · cases listed
  · obtain rfl := List.mem_singleton.mp member
    exact ⟨a, given, uid_eq, gid_eq, build, last, belongs⟩

/-! ## Callers of one class -/

inductive CallerClass where
  | mirrored | shutOut | ordinary
  deriving DecidableEq

/-- What a reply to one caller becomes for another of the same class. -/
def CallerClass.statFor (kind : CallerClass) (fc : FuseContext) (st : Stat) : Stat :=
  match kind with
  | .mirrored => { st with st_uid := fc.uid }
  | .shutOut | .ordinary => st

def CallerClass.filledFor (kind : CallerClass) (fc : FuseContext) (filled : Filled) : Filled :=
  { filled with attr := filled.attr.map (kind.statFor fc) }

def CallerClass.readdirFor (kind : CallerClass) (fc : FuseContext) (reply : ReaddirReply) : ReaddirReply :=
  { reply with filled := reply.filled.map (kind.filledFor fc) }

def CallerClass.replyFor (kind : CallerClass) (fc : FuseContext) : Reply → Reply
  | .attributes st => .attributes (kind.statFor fc st)
  | .entries filled => .entries (filled.map (kind.filledFor fc))
  | reply => reply

section
variable {W : Type} (host : Host W) (settings : Settings)

def callerClass (fc : FuseContext) : CallerClass :=
  if isMirroringEnabled settings && isMirroredUser host settings fc.uid then .mirrored
  else if settings.mirrored_users_only && fc.uid ≠ 0#32 then .shutOut
  else .ordinary

/-- The requests whose handlers do not look at the caller beyond `getattr_common`. The buffer that
a readdir fills is not read back, so that an entry's owner does not decide whether it fits. -/
def Impersonal : Request → Prop
  | .mknod .. | .mkdir .. | .symlink .. | .create .. => False
  | .readdir _ filler _ => ∀ kind fc filled, filler (CallerClass.filledFor kind fc filled) = filler filled
  | _ => True

/-! ### Handlers in lockstep -/

/-- The same attributes but for the owner. -/
def OwnedBy (uid : Id) (st st' : Stat) : Prop := st' = { st with st_uid := uid }

theorem lockstep_hideUnlessAccess (procpath : CString) (mode : AccessMode) (bits : Mode) {uid : Id}
    {st st' : Stat} (owned : OwnedBy uid st st') :
    Lockstep (OwnedBy uid) (hideUnlessAccess host procpath st mode bits)
      (hideUnlessAccess host procpath st' mode bits) := by
  subst owned
  apply Lockstep.common
  intro answer
  cases answer with
  | ok => exact Lockstep.pure rfl
  | error => exact Lockstep.pure rfl

theorem lockstep_reportPermissions (procpath : CString) {uid : Id} {st st' : Stat}
    (owned : OwnedBy uid st st') :
    Lockstep (OwnedBy uid) (reportPermissions host settings procpath st)
      (reportPermissions host settings procpath st') := by
  subst owned
  unfold reportPermissions
  simp only
  split
  · exact Lockstep.pure rfl
  · split
    · refine (lockstep_hideUnlessAccess host procpath _ _ rfl).bind fun st st' owned => ?_
      refine (lockstep_hideUnlessAccess host procpath _ _ owned).bind fun st st' owned => ?_
      exact lockstep_hideUnlessAccess host procpath _ _ owned
    · exact Lockstep.pure rfl

theorem lockstep_blockDeviceAsFile (procpath : CString) {uid : Id} {st st' : Stat}
    (owned : OwnedBy uid st st') :
    Lockstep (OwnedBy uid) (blockDeviceAsFile host settings procpath st)
      (blockDeviceAsFile host settings procpath st') := by
  subst owned
  unfold blockDeviceAsFile
  simp only
  split
  · apply Lockstep.common
    intro size
    split
    · exact Lockstep.fail _
    · exact Lockstep.pure rfl
  · exact Lockstep.pure rfl

theorem lockstep_reportFile (procpath : CString) {uid : Id} {st st' : Stat} (owned : OwnedBy uid st st') :
    Lockstep (OwnedBy uid) (reportFile host settings procpath st) (reportFile host settings procpath st') := by
  have hidden : OwnedBy uid (hideHardLinks settings st) (hideHardLinks settings st') := by
    subst owned
    unfold hideHardLinks OwnedBy
    split <;> rfl
  refine (lockstep_blockDeviceAsFile host settings procpath hidden).bind fun st st' owned => ?_
  exact lockstep_reportPermissions host settings procpath owned

/-- `getattr_common` looks at the class of the caller only. -/
theorem getattrCommon_eq (fc : FuseContext) (procpath : CString) (stbuf : Stat) :
    getattrCommon host settings fc procpath stbuf =
      match translateStat settings stbuf with
      | none => fail uidGidOverflowErrno
      | some stbuf =>
        match callerClass host settings fc with
        | .mirrored => reportFile host settings procpath { stbuf with st_uid := fc.uid }
        | .shutOut => pure { stbuf with st_mode := stbuf.st_mode &&& ~~~0o777#32 }
        | .ordinary => reportFile host settings procpath stbuf := by
  unfold getattrCommon callerClass
  cases translateStat settings stbuf with
  | none => rfl
  | some translated =>
    simp only
    by_cases mirrored : (isMirroringEnabled settings && isMirroredUser host settings fc.uid) = true
    · simp only [if_pos mirrored]
    · by_cases shut : (settings.mirrored_users_only && decide (fc.uid ≠ 0#32)) = true
      · simp only [if_neg mirrored, if_pos shut]
      · simp only [if_neg mirrored, if_neg shut]

theorem lockstep_whenInstalled {α : Type} {related : α → α → Prop} (installed : Bool) {left right : Sys W α}
    (both : Lockstep related left right) :
    Lockstep related (whenInstalled installed left) (whenInstalled installed right) := by
  cases installed with
  | true => exact both
  | false => exact Lockstep.fail _

section
variable {fc fc' : FuseContext} (alike : callerClass host settings fc' = callerClass host settings fc)
include alike

theorem lockstep_getattrCommon (procpath : CString) (stbuf : Stat) :
    Lockstep (fun st st' => st' = (callerClass host settings fc).statFor fc' st)
      (getattrCommon host settings fc procpath stbuf) (getattrCommon host settings fc' procpath stbuf) := by
  rw [getattrCommon_eq, getattrCommon_eq, alike]
  cases translateStat settings stbuf with
  | none => exact Lockstep.fail _
  | some translated =>
    cases callerClass host settings fc with
    | mirrored => exact lockstep_reportFile host settings procpath rfl
    | shutOut => exact Lockstep.pure rfl
    | ordinary =>
      refine (Lockstep.refl (reportFile host settings procpath translated)).mono fun st st' same => ?_
      exact same.symm

theorem lockstep_bindfsGetattr (path : CString) :
    Lockstep (fun st st' => st' = (callerClass host settings fc).statFor fc' st)
      (bindfsGetattr host settings fc path) (bindfsGetattr host settings fc' path) := by
  apply Lockstep.common
  intro realPath
  apply Lockstep.common
  intro stbuf
  exact lockstep_getattrCommon host settings alike realPath stbuf

theorem lockstep_readdirEntry (readdirplus : Bool) (realPath : CString) (de : Dirent) :
    Lockstep (fun entry entry' => entry' = (callerClass host settings fc).filledFor fc' entry)
      (readdirEntry host settings fc readdirplus realPath de)
      (readdirEntry host settings fc' readdirplus realPath de) := by
  unfold readdirEntry
  split
  · apply Lockstep.common
    intro stbuf
    cases readdirplus with
    | true =>
      refine (lockstep_getattrCommon host settings alike _ stbuf).bind fun st st' shown => ?_
      subst shown
      exact Lockstep.pure rfl
    | false => exact Lockstep.pure rfl
  · exact Lockstep.pure rfl

/-- The loop fills the same names, stops at the same entry and ends alike. -/
theorem lockstep_readdirLoop (readdirplus : Bool) (realPath : CString) {filler : Filled → Except Errno Unit}
    (blind : ∀ filled, filler ((callerClass host settings fc).filledFor fc' filled) = filler filled)
    (atEnd : Except Errno Unit) (entries : List Dirent) :
    Lockstep (fun reply reply' => reply' = (callerClass host settings fc).readdirFor fc' reply)
      (readdirLoop host settings fc readdirplus realPath filler atEnd entries)
      (readdirLoop host settings fc' readdirplus realPath filler atEnd entries) := by
  induction entries with
  | nil => exact Lockstep.pure rfl
  | cons de rest ih =>
    refine (lockstep_readdirEntry host settings alike readdirplus realPath de).attempt.bind ?_
    intro answer answer' ends
    cases ends with
    | error error => exact Lockstep.pure rfl
    | ok same =>
      subst same
      simp only [blind]
      split
      · exact Lockstep.pure rfl
      · refine ih.bind fun more more' continued => ?_
        subst continued
        exact Lockstep.pure rfl

theorem lockstep_readdirRequest (path : CString) (readdirplus : Bool) {filler : Filled → Except Errno Unit}
    (blind : ∀ filled, filler ((callerClass host settings fc).filledFor fc' filled) = filler filled) :
    Lockstep (fun filled filled' => filled' = filled.map ((callerClass host settings fc).filledFor fc'))
      (readdirRequest host settings fc path filler readdirplus)
      (readdirRequest host settings fc' path filler readdirplus) := by
  have handled : Lockstep (fun reply reply' => reply' = (callerClass host settings fc).readdirFor fc' reply)
      (bindfsReaddir host settings fc path filler readdirplus)
      (bindfsReaddir host settings fc' path filler readdirplus) := by
    apply Lockstep.common
    intro directory
    cases directory with
    | error error => exact Lockstep.pure rfl
    | ok directory =>
      apply Lockstep.common
      intro _
      exact lockstep_readdirLoop host settings alike readdirplus directory.1 blind _ _
  refine handled.bind fun reply reply' same => ?_
  subst same
  unfold answerEntries CallerClass.readdirFor
  cases reply.result with
  | error error => exact Lockstep.fail error
  | ok => exact Lockstep.pure rfl

/-- A request that both callers make is served by the same calls, with the same effect and the
same reply. -/
theorem lockstep_serve {request : Request} (impersonal : Impersonal request) :
    Lockstep (fun reply reply' => reply' = (callerClass host settings fc).replyFor fc' reply)
      (serve host settings fc request) (serve host settings fc' request) := by
  cases request with
  | getattr path =>
    refine (lockstep_bindfsGetattr host settings alike path).bind fun st st' shown => ?_
    subst shown
    exact Lockstep.pure rfl
  | readdir path filler readdirplus =>
    refine (lockstep_readdirRequest host settings alike path readdirplus (impersonal _ _)).bind ?_
    intro filled filled' same
    subst same
    exact Lockstep.pure rfl
  | mknod | mkdir | symlink | create => exact impersonal.elim
  | setxattr | getxattr | listxattr | removexattr | lock | flock | ioctl =>
    exact lockstep_whenInstalled _ (Lockstep.common _ fun _ => Lockstep.pure rfl)
  | _ => exact Lockstep.common _ fun _ => Lockstep.pure rfl

end

/-! ### Sessions -/

/-- Two sessions of the same requests, none of them a creation, whose callers are pairwise of
the same class: the tree is left the same, and the replies differ only in the owner that a
mirrored caller sees, which is the caller's own uid. -/
theorem callers_of_a_class_served_alike (visits : List (Request × FuseContext × FuseContext))
    (alike : ∀ visit ∈ visits, Impersonal visit.1 ∧
      callerClass host settings visit.2.2 = callerClass host settings visit.2.1) (world : W) :
    (session host settings (visits.map fun visit => (visit.2.2, visit.1)) world).1 =
        (session host settings (visits.map fun visit => (visit.2.1, visit.1)) world).1 ∧
      (session host settings (visits.map fun visit => (visit.2.2, visit.1)) world).2 =
        List.zipWith (fun visit reply =>
            reply.map ((callerClass host settings visit.2.1).replyFor visit.2.2)) visits
          (session host settings (visits.map fun visit => (visit.2.1, visit.1)) world).2 := by
  induction visits generalizing world with
  | nil => exact ⟨rfl, rfl⟩
  | cons visit rest ih =>
    obtain ⟨impersonal, same⟩ := alike visit (by simp)
    have both := lockstep_serve host settings same impersonal
    obtain ⟨worlds, replies⟩ := ih (fun other member => alike other (by simp [member]))
      ((serve host settings visit.2.1 visit.1).exec world).world
    simp only [List.map_cons, session, List.zipWith_cons_cons, both.world, worlds, replies,
      (both.result world).eq_map, and_self]

end

/-- User 1001 of the mirrored group and user 0, on the list as well, look at the same file. -/
theorem callers_of_a_class_served_alike_of_two_users : ∃ reply reply',
    (session mirroredHost { mirroredSettings with mirrored_users := [0#32] }
        [(⟨1001#32, 1001#32⟩, .getattr ['/', 'a'])] ⟨[(['a'], sampleStat 5 5 0o100600#32)], [], [], [], []⟩).2 =
      [.ok reply] ∧
    (session mirroredHost { mirroredSettings with mirrored_users := [0#32] }
        [(⟨0#32, 0#32⟩, .getattr ['/', 'a'])] ⟨[(['a'], sampleStat 5 5 0o100600#32)], [], [], [], []⟩).2 =
      [.ok reply'] ∧ reply = .attributes (sampleStat 1001 5 0o100600#32) ∧
      reply' = .attributes (sampleStat 0 5 0o100600#32) := by
  have alike := callers_of_a_class_served_alike mirroredHost
    { mirroredSettings with mirrored_users := [0#32] }
    [(.getattr ['/', 'a'], ⟨1001#32, 1001#32⟩, ⟨0#32, 0#32⟩)]
    (by
      intro visit member
      obtain rfl := List.mem_singleton.mp member
      exact ⟨trivial, by decide⟩)
    ⟨[(['a'], sampleStat 5 5 0o100600#32)], [], [], [], []⟩
  exact ⟨_, _, rfl, alike.2, rfl, rfl⟩

end Bindfs.Guarantees.Mirroring
