import Bindfs.Guarantees.Mountpoint

/-!
# Requests that stay clear of the mountpoint

A request that is `Clear` of the ways past `process_path` touches nothing in the mountpoint,
and fails with EPERM if a path of it resolves there (`confined_serve`): one lemma for each
shared part of the handlers, then one case for each request.
-/
namespace Bindfs.Guarantees.RecursionGuard
open Bindfs.Source Bindfs.Lib.Effects

section
variable {W : Type} {host : Host W} {settings : Settings}
  {location : W → Bool → CString → Option CString}

/-! ## Single calls and paths -/

/-- An admissible call that raises no alarm. -/
def Quiet (host : Host W) (settings : Settings) (location : W → Bool → CString → Option CString)
    (world : W) (c : SysCall) : Prop :=
  Admissible settings location world c ∧ ¬ Alarming host settings world c

theorem quiet_of_outside {world : W} {c : SysCall} (other : ∀ path, c ≠ .realpath path)
    (outside : ∀ operand ∈ c.operands, Outside settings location world operand.2 operand.1) :
    Quiet host settings location world c := by
  refine ⟨outside, ?_⟩
  rintro ⟨path, target, same, -⟩
  exact other path same

/-- A call with a single operand outside the mountpoint. -/
theorem quiet_operand {world : W} {c : SysCall} {path : CString} {follow : Bool}
    (operands : c.operands = [(path, follow)])
    (outside : Outside settings location world follow path) :
    Quiet host settings location world c := by
  refine quiet_of_outside ?_ (by rw [operands]; simpa using outside)
  rintro other rfl
  cases operands

theorem outside_of_canonical (laws : ResolutionLaws host location) {world : W}
    {path target : CString} (found : host.realpath world path = .ok target)
    (clear : ¬ Below settings.mntdest target) (follow : Bool) :
    Outside settings location world follow target := by
  intro place leads
  rw [(laws.canonical found follow).1] at leads
  cases leads
  exact clear

/-- What `process_path` lets through is clear of the mountpoint. -/
theorem requestPath_cases (on : settings.resolve_symlinks = true) {world : W}
    {path realPath : CString} (located : requestPath host settings world path = .ok realPath) :
    (host.realpath world (stripSlashes path) = .error .enoent ∧ realPath = stripSlashes path) ∨
      (host.realpath world (stripSlashes path) = .ok realPath ∧
        ¬ Below settings.mntdest realPath) := by
  unfold requestPath at located
  rw [if_pos on] at located
  unfold guardedPath at located
  split at located
  · rename_i missing
    exact Or.inl ⟨missing, (Except.ok.inj located).symm⟩
  · cases located
  · rename_i target found
    split at located
    · cases located
    · rename_i outside
      cases located
      exact Or.inr ⟨found, fun below => outside ((pathStartsWith_iff _ _).mpr below)⟩

/-- It is enough to look at a path that does not resolve. -/
theorem outside_requestPath (laws : ResolutionLaws host location)
    (on : settings.resolve_symlinks = true) {world : W} {path realPath : CString} {follow : Bool}
    (located : requestPath host settings world path = .ok realPath)
    (clear : realPath = stripSlashes path →
      LostClear host settings location world follow (stripSlashes path)) :
    Outside settings location world follow realPath := by
  rcases requestPath_cases on located with ⟨missing, rfl⟩ | ⟨found, outside⟩
  · exact clear rfl missing
  · exact outside_of_canonical laws found outside follow

theorem outside_parent (laws : ResolutionLaws host location)
    (on : settings.resolve_symlinks = true) {world : W} {path realPath : CString}
    (located : requestPath host settings world path = .ok realPath)
    (clear : realPath = stripSlashes path →
      LostParentClear host settings location world (stripSlashes path))
    (asUser : settings.create_policy = .asUser) :
    Outside settings location world false (myDirname realPath) := by
  rcases requestPath_cases on located with ⟨missing, rfl⟩ | ⟨found, outside⟩
  · exact clear rfl asUser missing
  · intro place leads
    rw [(laws.canonical found false).2] at leads
    cases leads
    exact fun below => outside (below_of_parent (laws.absolute found) below)

/-- A request whose path resolves into the mountpoint ends with EPERM right away; any other
goes on with a path that is clear of it. -/
theorem confined_request {α : Type} (on : settings.resolve_symlinks = true) {world : W}
    {path : CString} {next : CString → Sys W α}
    (rest : ∀ realPath, requestPath host settings world path = .ok realPath →
      Confined (Admissible settings location) (Alarming host settings) .eperm (next realPath) world) :
    Confined (Admissible settings location) (Alarming host settings) .eperm
      (processPath host settings (some path) true >>= next) world := by
  have executed := exec_processPath_resolved host settings path on world
  have answer : requestPath host settings world path =
      guardedPath settings (stripSlashes path) (host.realpath world (stripSlashes path)) := by
    rw [requestPath, if_pos on]
  apply Confined.bind
  · constructor
    · intro entry member
      rw [executed] at member
      simp only [List.mem_singleton] at member
      subst member
      intro operand none
      simp [SysCall.operands] at none
    · rintro entry member ⟨path', target, same, found, below⟩
      rw [executed] at member ⊢
      simp only [List.mem_singleton] at member
      subst member
      cases same
      rw [found]
      simp only [guardedPath, (pathStartsWith_iff _ _).mpr below, if_true]
  · intro realPath ended
    rw [executed] at ended ⊢
    exact rest realPath (answer.trans ended)

/-! ## Handlers -/

theorem not_isLink {mode : Mode} (noLink : mode &&& S_IFLNK ≠ S_IFLNK) : S_ISLNK mode = false := by
  cases link : S_ISLNK mode with
  | false => rfl
  | true =>
    simp only [S_ISLNK, hasType, decide_eq_true_eq] at link
    have field : S_IFMT &&& S_IFLNK = S_IFLNK := by decide
    refine absurd ?_ noLink
    calc mode &&& S_IFLNK = mode &&& S_IFMT &&& S_IFLNK := by rw [BitVec.and_assoc, field]
      _ = S_IFLNK := by rw [link, BitVec.and_self]

theorem issues_getattrCommon {fc : FuseContext} {world : W} {path : CString} {stbuf : Stat}
    (follow : S_ISLNK stbuf.st_mode = false → Outside settings location world true path) :
    Issues (Quiet host settings location) (getattrCommon host settings fc path stbuf) world := by
  intro entry issued
  obtain ⟨noLink, call⟩ := calls_getattrCommon host settings fc path stbuf world issued
  have outside := follow (not_isLink noLink)
  rcases call with rfl | ⟨kind, rfl⟩
  · exact quiet_operand rfl outside
  · exact quiet_operand rfl outside

theorem issues_lstat {world : W} {path : CString}
    (outside : Outside settings location world false path) :
    Issues (Quiet host settings location) (host.callLstat path) world :=
  Issues.ask (quiet_operand rfl outside)

theorem issues_stat_then_report (laws : ResolutionLaws host location) {fc : FuseContext}
    {world : W} {path : CString} (outside : Outside settings location world false path) :
    Issues (Quiet host settings location) (do
      let stbuf ← host.callLstat path
      getattrCommon host settings fc path stbuf) world := by
  apply (issues_lstat outside).bind
  intro stbuf looked
  apply issues_getattrCommon
  intro noLink place leads
  have same : location world true path = location world false path := laws.no_link looked noLink
  exact outside place (same ▸ leads)

/-- A single call on the request's path. -/
theorem confined_call {α : Type} (laws : ResolutionLaws host location)
    (on : settings.resolve_symlinks = true) {world : W} {path : CString} {follow : Bool}
    (clear : LostClear host settings location world follow (stripSlashes path))
    {next : CString → Sys W α}
    (single : ∀ realPath, Outside settings location world follow realPath →
      Issues (Quiet host settings location) (next realPath) world) :
    Confined (Admissible settings location) (Alarming host settings) .eperm
      (processPath host settings (some path) true >>= next) world :=
  confined_request on fun realPath located =>
    Confined.of_issues (single realPath (outside_requestPath laws on located fun _ => clear))

theorem confined_reply {α β : Type} {world : W} {program : Sys W α} (reply : α → β)
    (confined : Confined (Admissible settings location) (Alarming host settings) .eperm program world) :
    Confined (Admissible settings location) (Alarming host settings) .eperm
      (program >>= fun value => pure (reply value)) world :=
  confined.bind fun value _ => Confined.of_issues (Issues.pure (reply value))

theorem issues_chownNewFile {fc : FuseContext} {world : W} {path : CString}
    (object : Outside settings location world true path)
    (directory : settings.create_policy = .asUser →
      Outside settings location world false (myDirname path)) :
    Issues (Quiet host settings location) (chownNewFile host settings path fc .chown) world := by
  have parent : ∀ entry ∈ parentCalls settings world path,
      Quiet host settings location entry.1 entry.2 := by
    intro entry member
    unfold parentCalls at member
    split at member
    · rename_i asUser
      simp only [List.mem_singleton] at member
      subst member
      exact quiet_operand rfl (directory asUser)
    · simp at member
  intro entry issued
  cases translated : newFileOwner settings fc
      (directorySetgid host settings world (myDirname path)) with
  | none =>
    rw [exec_chownNewFile_overflow host settings translated .chown] at issued
    exact parent entry issued
  | some owner =>
    rw [(exec_chownNewFile host settings translated .chown).2, List.mem_append] at issued
    rcases issued with early | late
    · exact parent entry early
    · unfold ownerCall at late
      split at late
      · simp only [Option.toList_some, List.map_cons, List.map_nil, List.mem_singleton] at late
        subst late
        exact quiet_operand rfl object
      · simp at late

theorem operands_of_madeAt {c : SysCall} {path : CString} (made : madeAt c = some path) :
    c.operands = [(path, false)] := by
  cases c <;> cases made <;> rfl

/-- The tree a successful call leaves. -/
theorem perform_of_issued {world : W} {c : SysCall} {value : Unit}
    (ended : ((host.issue c).exec world).result = .ok value) :
    host.perform world c = .ok ((host.issue c).exec world).world := by
  cases answered : host.perform world c with
  | ok world' => rw [host.exec_issue_ok answered]
  | error error =>
    rw [host.exec_issue_error answered] at ended
    cases ended

theorem issues_make_then_chown (laws : ResolutionLaws host location) {fc : FuseContext} {world : W}
    {c : SysCall} {path : CString} (made : madeAt c = some path)
    (outside : Outside settings location world false path)
    (directory : ∀ world', host.perform world c = .ok world' → settings.create_policy = .asUser →
      Outside settings location world false (myDirname path)) :
    Issues (Quiet host settings location) (do
      host.issue c
      chownNewFile host settings path fc .chown) world := by
  have operands := operands_of_madeAt made
  apply Issues.bind
  · exact Issues.call (quiet_operand operands outside)
  · intro value ended
    have performed := perform_of_issued ended
    obtain ⟨here, parent⟩ := laws.made made performed
    apply issues_chownNewFile
    · intro place leads
      exact outside place (here ▸ leads)
    · intro asUser place leads
      exact directory _ performed asUser place (parent ▸ leads)

theorem issues_open_then_chown (laws : ResolutionLaws host location) {fc : FuseContext} {world : W}
    {path : CString} {flags : OpenFlags} {mode : Option Mode}
    (outside : Outside settings location world true path)
    (directory : ∀ opened, host.openFile world path flags mode = .ok opened →
      settings.create_policy = .asUser → Outside settings location world false (myDirname path)) :
    Issues (Quiet host settings location) (do
      let fd ← host.callOpen path flags mode
      let _ ← attempt (chownNewFile host settings path fc .chown)
      pure fd) world := by
  apply Issues.bind
  · exact Issues.call (quiet_operand rfl outside)
  · intro fd ended
    cases answered : host.openFile world path flags mode with
    | error error =>
      rw [host.exec_callOpen_error answered] at ended
      cases ended
    | ok pair =>
      obtain ⟨here, parent⟩ := laws.opened answered
      rw [host.exec_callOpen_ok answered]
      apply Issues.bind
      · apply Issues.attempt
        apply issues_chownNewFile
        · intro place leads
          exact outside place (here ▸ leads)
        · intro asUser place leads
          exact directory _ answered asUser place (parent ▸ leads)
      · intro _ _
        exact Issues.pure fd

/-! ## Deletion -/

theorem quiet_deletion {world : W} {delete : CString → SysCall} (deletes : IsDeletion delete)
    {path : CString} (outside : Outside settings location world false path) :
    Quiet host settings location world (delete path) := by
  rcases deletes with rfl | rfl
  · exact quiet_operand rfl outside
  · exact quiet_operand rfl outside

theorem outside_after_deletion (laws : ResolutionLaws host location) {world : W}
    {delete : CString → SysCall} (deletes : IsDeletion delete) {path other : CString} {value : Unit}
    (ended : ((host.issue (delete path)).exec world).result = .ok value)
    (outside : Outside settings location world false other) :
    Outside settings location ((host.issue (delete path)).exec world).world false other := by
  intro place leads
  exact outside place (laws.removed deletes (perform_of_issued ended) leads)

theorem issues_deleteThenTry (laws : ResolutionLaws host location) {world : W}
    {mainDelete targetDelete : CString → SysCall} (main : IsDeletion mainDelete)
    (target : IsDeletion targetDelete) {path : CString} {also : Option CString}
    (outside : Outside settings location world false path)
    (alsoOutside : ∀ other, also = some other → Outside settings location world false other) :
    Issues (Quiet host settings location) (deleteThenTry host path mainDelete targetDelete also)
      world := by
  unfold deleteThenTry
  apply (Issues.call (quiet_deletion main outside)).bind
  intro value ended
  cases also with
  | none => exact Issues.pure ()
  | some other =>
    have later := outside_after_deletion laws main ended (alsoOutside other rfl)
    exact ((Issues.call (quiet_deletion target later)).attempt).bind fun _ _ => Issues.pure ()

theorem issues_realpath {world : W} {path : CString}
    (clear : ∀ target, host.realpath world path = .ok target → ¬ Below settings.mntdest target) :
    Issues (Quiet host settings location) (host.callRealpath path) world := by
  refine Issues.ask ⟨?_, ?_⟩
  · intro operand none
    simp [SysCall.operands] at none
  · rintro ⟨path', target, same, found, below⟩
    cases same
    exact clear target found below

/-- The target of a link that is deleted along with it lies outside the mountpoint. -/
theorem issues_deletionTarget {world : W} {path : CString}
    (clear : ∀ target, host.realpath world path = .ok target → ¬ Below settings.mntdest target) :
    Issues (Quiet host settings location) (deletionTarget host path) world := by
  unfold deletionTarget
  apply (issues_realpath clear).attempt.bind
  intro answer _
  split
  · exact Issues.pure _
  · exact Issues.pure _
  · exact Issues.fail _

theorem deletionTarget_spec (path : CString) (world : W) :
    ((deletionTarget host path).exec world).world = world ∧
      ∀ target, ((deletionTarget host path).exec world).result = .ok (some target) →
        host.realpath world path = .ok target := by
  unfold deletionTarget
  simp only [exec_bind, exec_attempt, Host.exec_callRealpath, andThen_ok, world_after, result_after]
  cases answered : host.realpath world path with
  | ok found =>
    refine ⟨rfl, ?_⟩
    intro target ended
    cases ended
    rfl
  | error error =>
    constructor
    · cases error <;> rfl
    · intro target ended
      cases error <;> cases ended

/-- A link that would take its target in the mountpoint along cannot be deleted itself. -/
theorem confined_deleteWithTarget (laws : ResolutionLaws host location) {world : W}
    {path : CString} {targetDelete : CString → SysCall} (deletes : IsDeletion targetDelete)
    (outside : Outside settings location world false path)
    (stuck : ∀ target, host.realpath world path = .ok target → Below settings.mntdest target →
      host.perform world (.unlink path) = .error .eperm) :
    Confined (Admissible settings location) (Alarming host settings) .eperm (do
      let target ← deletionTarget host path
      deleteThenTry host path .unlink targetDelete target) world := by
  have unlinks : IsDeletion .unlink := Or.inl rfl
  by_cases alarm : ∃ target, host.realpath world path = .ok target ∧ Below settings.mntdest target
  · obtain ⟨target, found, below⟩ := alarm
    have executed : (do
        let target ← deletionTarget host path
        deleteThenTry host path .unlink targetDelete target).exec world =
          ⟨.error .eperm, world, [(world, .realpath path), (world, .unlink path)]⟩ := by
      simp [deletionTarget, deleteThenTry, found,
        host.exec_issue_error (stuck target found below), Outcome.after]
    constructor
    · intro entry member
      rw [executed] at member
      simp only [List.mem_cons, List.not_mem_nil, or_false] at member
      rcases member with rfl | rfl
      · intro operand none
        simp [SysCall.operands] at none
      · exact (show Quiet host settings location world _ from quiet_deletion unlinks outside).1
    · intro _ _ _
      rw [executed]
  · have targets : ∀ target, host.realpath world path = .ok target →
        ¬ Below settings.mntdest target := fun target found below => alarm ⟨target, found, below⟩
    obtain ⟨kept, target_eq⟩ := @deletionTarget_spec W host path world
    apply Confined.of_issues
    apply (issues_deletionTarget targets).bind
    intro also found
    rw [kept]
    apply issues_deleteThenTry laws unlinks deletes outside
    rintro other rfl
    exact outside_of_canonical laws (target_eq other found) (targets other (target_eq other found))
      false

theorem issues_deleteTargetFirst (laws : ResolutionLaws host location) {world : W}
    {path : CString} {targetDelete : CString → SysCall} (deletes : IsDeletion targetDelete)
    (outside : Outside settings location world false path)
    (targets : ∀ target, host.realpath world path = .ok target → ¬ Below settings.mntdest target) :
    Issues (Quiet host settings location) (do
      match ← deletionTarget host path with
      | some target => host.issue (.unlink target)
      | none => pure ()
      deleteThenTry host path targetDelete targetDelete none) world := by
  have unlinks : IsDeletion .unlink := Or.inl rfl
  obtain ⟨kept, target_eq⟩ := @deletionTarget_spec W host path world
  apply (issues_deletionTarget targets).bind
  intro also found
  rw [kept]
  cases also with
  | none => exact issues_deleteThenTry laws deletes deletes outside (by simp)
  | some target =>
    have outsideTarget := outside_of_canonical laws (target_eq target found)
      (targets target (target_eq target found)) false
    apply (Issues.call (quiet_deletion unlinks outsideTarget)).bind
    intro value ended
    exact issues_deleteThenTry laws deletes deletes
      (outside_after_deletion laws unlinks ended outside) (by simp)

theorem confined_deleteFile (laws : ResolutionLaws host location)
    (on : settings.resolve_symlinks = true) {world : W} {path : CString}
    {targetDelete : CString → SysCall} (deletes : IsDeletion targetDelete)
    (clear : DeletionClear host settings location world (stripSlashes path)) :
    Confined (Admissible settings location) (Alarming host settings) .eperm
      (deleteFile host settings path targetDelete) world := by
  unfold deleteFile
  split
  · exact Confined.of_issues (Issues.fail _)
  · rename_i allowed
    obtain ⟨outside, targetClear⟩ := clear (by simpa using allowed)
    have raw := exec_processPath_raw host settings path false rfl world
    have plain : Confined (Admissible settings location) (Alarming host settings) .eperm
        (deleteThenTry host (stripSlashes path) targetDelete targetDelete none) world :=
      Confined.of_issues (issues_deleteThenTry laws deletes deletes outside (by simp))
    apply Confined.bind
    · apply Confined.of_issues
      intro entry member
      rw [raw] at member
      cases member
    · intro realPath ended
      rw [raw] at ended ⊢
      cases ended
      apply (Confined.of_issues (issues_lstat outside)).bind
      intro st looked
      have looked : host.lstat world (stripSlashes path) = .ok st := looked
      change Confined _ _ _ _ world
      split
      · rename_i link
        have targets := fun target => targetClear st target looked link
        split
        · exact Confined.of_issues (Issues.fail _)
        · exact Confined.of_issues (issues_deleteThenTry laws (Or.inl rfl) deletes outside (by simp))
        · rename_i policy
          rw [policy] at targets
          exact confined_deleteWithTarget laws deletes outside targets
        · rename_i policy
          rw [policy] at targets
          exact Confined.of_issues (issues_deleteTargetFirst laws deletes outside targets)
      · exact plain

/-! ## Directories -/

/-- What an entry's clearance says about the calls made on it. -/
theorem entry_cases (laws : ResolutionLaws host location) (on : settings.resolve_symlinks = true)
    {world : W} {readdirplus : Bool} {path : CString} {de : Dirent}
    (clear : EntryClear host settings location world readdirplus path de)
    (looks : de.d_type = .lnk ∨ readdirplus = true) :
    Issues (Quiet host settings location) (entryStat host settings path de) world ∧
      ∀ st, shownStat host settings world path de = .ok st → S_ISLNK st.st_mode = false →
        Outside settings location world true path := by
  unfold EntryClear at clear
  unfold entryStat shownStat
  by_cases link : de.d_type = .lnk
  · rw [if_pos link] at clear
    simp only [on, link, decide_true, Bool.and_self, if_true]
    cases found : host.realpath world path with
    | ok target =>
      rw [found] at clear
      simp only at clear
      have resolvesTo : ∀ other, host.realpath world path = .ok other → ¬ Below settings.mntdest other := by
        intro other again
        rw [found] at again
        cases again
        exact clear
      constructor
      · apply (issues_realpath resolvesTo).attempt.bind
        intro answer ended
        simp only [exec_attempt, Host.exec_callRealpath, found, Except.ok.injEq] at ended
        subst ended
        exact issues_lstat (outside_of_canonical laws found clear false)
      · intro st _ _ place leads
        rw [laws.resolves found] at leads
        cases leads
        exact clear
    | error error =>
      rw [found] at clear
      simp only at clear
      constructor
      · apply (issues_realpath (by rw [found]; simp)).attempt.bind
        intro answer ended
        simp only [exec_attempt, Host.exec_callRealpath, found, Except.ok.injEq] at ended
        subst ended
        exact issues_lstat clear
      · intro st looked noLink place leads
        rw [laws.no_link looked noLink] at leads
        exact clear place leads
  · rw [if_neg link] at clear
    have outside := clear (looks.resolve_left link)
    simp only [link, decide_false, Bool.and_false, Bool.false_eq_true, if_false]
    constructor
    · exact issues_lstat outside
    · intro st looked noLink place leads
      rw [laws.no_link looked noLink] at leads
      exact outside place leads

theorem issues_readdirEntry (laws : ResolutionLaws host location)
    (on : settings.resolve_symlinks = true) (fc : FuseContext) {world : W} {readdirplus : Bool}
    {realPath : CString} {de : Dirent}
    (clear : EntryClear host settings location world readdirplus (entryPath realPath de) de) :
    Issues (Quiet host settings location) (readdirEntry host settings fc readdirplus realPath de)
      world := by
  unfold readdirEntry
  split
  · rename_i looked
    have looks : de.d_type = .lnk ∨ readdirplus = true := by
      rcases Bool.or_eq_true_iff.mp looked with link | plus
      · exact Or.inl (of_decide_eq_true (Bool.and_eq_true_iff.mp link).2)
      · exact Or.inr plus
    obtain ⟨stat, follow⟩ := entry_cases laws on clear looks
    have kept := world_entryStat host settings world (entryPath realPath de) de
    have shown := result_entryStat host settings world (entryPath realPath de) de
    apply Issues.bind stat
    intro st ended
    rw [kept]
    rw [shown] at ended
    split
    · apply (issues_getattrCommon (follow st ended)).bind
      intro _ _
      exact Issues.pure _
    · exact Issues.pure _
  · exact Issues.pure _

theorem issues_readdirLoop (laws : ResolutionLaws host location)
    (on : settings.resolve_symlinks = true) {fc : FuseContext} {world : W} {readdirplus : Bool}
    {realPath : CString} {filler : Filled → Except Errno Unit} {atEnd : Except Errno Unit}
    (entries : List Dirent)
    (clear : EntriesClear host settings location fc world filler readdirplus realPath entries) :
    Issues (Quiet host settings location)
      (readdirLoop host settings fc readdirplus realPath filler atEnd entries) world := by
  induction entries with
  | nil => exact Issues.pure _
  | cons de rest ih =>
    obtain ⟨clearFirst, clearRest⟩ := clear
    have first := issues_readdirEntry laws on fc clearFirst
    have kept := keeps_readdirEntry host settings fc world readdirplus realPath de
    have report := result_readdirEntry host settings fc world readdirplus realPath de
    rw [readdirLoop]
    apply first.attempt.bind
    intro answer ended
    rw [exec_attempt, show ((readdirEntry host settings fc readdirplus realPath de).exec world).world =
      world from kept]
    split
    · exact Issues.pure _
    · rename_i entry
      have reported : entryReport host settings fc world readdirplus realPath de = .ok entry :=
        report.symm.trans (Except.ok.inj ended)
      split
      · exact Issues.pure _
      · rename_i accepted
        exact (ih (clearRest entry reported accepted)).bind fun _ _ => Issues.pure _

/-- The rest of a readdir request, once the directory is open. -/
def listDirectory (host : Host W) (settings : Settings) (fc : FuseContext)
    (filler : Filled → Except Errno Unit) (readdirplus : Bool) (directory : CString × Listing) :
    Sys W (List Filled) := do
  let _ ← ask (.pathconf directory.1) (fun _ => .ok ())
  let reply ← readdirLoop host settings fc readdirplus directory.1 filler directory.2.atEnd
    directory.2.entries
  answerEntries reply

theorem exec_readdirRequest (fc : FuseContext) (path : CString)
    (filler : Filled → Except Errno Unit) (readdirplus : Bool) (world : W) :
    (readdirRequest host settings fc path filler readdirplus).exec world =
      (openDirectory host settings path >>=
        listDirectory host settings fc filler readdirplus).exec world := by
  simp only [readdirRequest, bindfsReaddir, exec_bind, exec_attempt, andThen_ok]
  cases opened : ((openDirectory host settings path).exec world).result with
  | error error => simp [Outcome.andThen, opened, Outcome.after, answerEntries]
  | ok directory =>
    simp only [Outcome.andThen, opened, listDirectory, exec_bind, exec_ask]
    cases ended : ((readdirLoop host settings fc readdirplus directory.1 filler directory.2.atEnd
      directory.2.entries).exec ((openDirectory host settings path).exec world).world).result with
    | error error => simp [ended, Outcome.after]
    | ok reply => simp [ended, Outcome.after]

theorem confined_readdir (laws : ResolutionLaws host location)
    (on : settings.resolve_symlinks = true) (fc : FuseContext) {world : W} {path : CString}
    {filler : Filled → Except Errno Unit} {readdirplus : Bool}
    (clear : Clear host settings location ⟨world, fc, .readdir path filler readdirplus⟩) :
    Confined (Admissible settings location) (Alarming host settings) .eperm
      (readdirRequest host settings fc path filler readdirplus) world := by
  obtain ⟨lost, entries⟩ := clear
  have body : Confined (Admissible settings location) (Alarming host settings) .eperm
      (openDirectory host settings path >>= listDirectory host settings fc filler readdirplus)
      world := by
    apply Confined.bind
    · apply confined_call laws on lost
      intro realPath outside
      apply Issues.bind
      · exact Issues.ask (quiet_operand rfl outside)
      · exact fun _ _ => Issues.pure _
    · intro directory opened
      obtain ⟨located, listed, kept⟩ := openDirectory_ok host settings world opened
      have outside := outside_requestPath laws on located fun _ => lost
      rw [kept]
      apply Confined.of_issues
      apply Issues.bind
      · exact Issues.ask (quiet_operand rfl outside)
      · intro _ _
        apply (issues_readdirLoop laws on directory.2.entries
          (entries directory.1 directory.2 located listed)).bind
        intro reply _
        unfold answerEntries
        split
        · exact Issues.pure _
        · exact Issues.fail _
  constructor
  · intro entry member
    rw [exec_readdirRequest] at member
    exact body.issues entry member
  · intro entry member alarm
    rw [exec_readdirRequest] at member ⊢
    exact body.alarmed entry member alarm

/-! ## Requests -/

theorem quiet_descriptor (world : W) (c : FdCall) :
    Quiet host settings location world (.descriptor c) :=
  quiet_of_outside (by simp) (by simp [SysCall.operands])

theorem confined_descriptor {α : Type} (world : W) {c : FdCall} (reply : List UInt8 → α) :
    Confined (Admissible settings location) (Alarming host settings) .eperm
      (host.callDescriptor c >>= fun value => pure (reply value)) world :=
  confined_reply reply (Confined.of_issues (Issues.call (quiet_descriptor world c)))

theorem issues_directIoBuffer (flags : OpenFlags) (size : Nat) (world : W) :
    Issues (Quiet host settings location) (directIoBuffer host settings flags size) world := by
  unfold directIoBuffer
  split
  · split
    · exact Issues.pure ()
    · exact Issues.fail _
  · exact Issues.pure ()

theorem confined_whenInstalled {α : Type} {world : W} {installed : Bool} {handler : Sys W α}
    (confined : installed = true →
      Confined (Admissible settings location) (Alarming host settings) .eperm handler world) :
    Confined (Admissible settings location) (Alarming host settings) .eperm
      (whenInstalled installed handler) world := by
  unfold whenInstalled
  split
  · rename_i present
    exact confined present
  · exact Confined.of_issues (Issues.fail _)

/-- The calls that change extended attributes are made in the read-write policy only. -/
theorem readWrite_of_installed {policy : XAttrPolicy}
    (installed : decide (policy ≠ .unimplemented) = true) (writable : ¬ policy = .readOnly) :
    policy = .readWrite := by
  cases policy with
  | unimplemented => cases installed
  | readOnly => exact absurd rfl writable
  | readWrite => rfl

theorem issues_chmod {world : W} {realPath : CString} {mode : Mode}
    (looked : settings.chmod_allow_x = true → Outside settings location world false realPath)
    (outside : ∀ old, oldMode host settings world realPath = .ok old → Rechmods settings mode old →
      Outside settings location world true realPath) :
    Issues (Quiet host settings location) (do
      let old ← executeOnlyMode host settings realPath
      chmodByPolicy host settings realPath mode old) world := by
  have executed := exec_executeOnlyMode host settings realPath world
  apply Issues.bind
  · intro entry member
    rw [executed] at member
    simp only at member
    split at member
    · rename_i allowed
      simp only [List.mem_singleton] at member
      subst member
      exact quiet_operand rfl (looked allowed)
    · simp at member
  · intro old ended
    rw [executed] at ended ⊢
    intro entry member
    rcases calls_chmodByPolicy host settings realPath mode old world with
      ⟨mode', passes, calls⟩ | ⟨-, calls⟩
    · rw [calls, List.mem_singleton] at member
      subst member
      exact quiet_operand rfl (outside old ended passes)
    · rw [calls] at member
      cases member

theorem madeAt_mknodCall (path : CString) (mode : Mode) (rdev : Nat) :
    madeAt (mknodCall settings path mode rdev) = some path := by
  unfold mknodCall
  split <;> rfl

/-- The handlers that make an object without opening it. -/
theorem confined_make (laws : ResolutionLaws host location)
    (on : settings.resolve_symlinks = true) {fc : FuseContext} {world : W} {path : CString}
    {make : CString → SysCall} (makes : ∀ realPath, madeAt (make realPath) = some realPath)
    (lost : LostClear host settings location world false (stripSlashes path))
    (directory : ∀ world', host.perform world (make (stripSlashes path)) = .ok world' →
      LostParentClear host settings location world (stripSlashes path)) :
    Confined (Admissible settings location) (Alarming host settings) .eperm (do
      let realPath ← processPath host settings (some path) true
      host.issue (make realPath)
      chownNewFile host settings realPath fc .chown) world := by
  apply confined_request on
  intro realPath located
  apply Confined.of_issues
  refine issues_make_then_chown laws (makes realPath)
    (outside_requestPath laws on located fun _ => lost) fun world' performed => ?_
  apply outside_parent laws on located
  rintro rfl
  exact directory world' performed

theorem confined_rename (laws : ResolutionLaws host location)
    (on : settings.resolve_symlinks = true) {fc : FuseContext} {world : W}
    {source dest : CString} {flags : Nat}
    (clear : Clear host settings location ⟨world, fc, .rename source dest flags⟩) :
    Confined (Admissible settings location) (Alarming host settings) .eperm
      (bindfsRename host settings source dest flags) world := by
  unfold bindfsRename
  split
  · exact Confined.of_issues (Issues.fail _)
  · rename_i allowed
    have clear := clear (by simpa using allowed)
    have raw := exec_processPath_raw host settings source false rfl world
    apply Confined.bind
    · apply Confined.of_issues
      intro entry member
      rw [raw] at member
      cases member
    · intro realFrom ended
      rw [raw] at ended ⊢
      cases ended
      apply confined_request on
      intro realTo located
      apply Confined.of_issues
      split
      · rename_i unflagged
        obtain ⟨outsideSource, lostDest⟩ := clear unflagged realTo located
        have outsideDest := outside_requestPath laws on located fun _ => lostDest
        apply Issues.call
        exact quiet_of_outside (by simp) (by simpa [SysCall.operands] using ⟨outsideSource, outsideDest⟩)
      · exact Issues.fail _

theorem confined_link (laws : ResolutionLaws host location)
    (on : settings.resolve_symlinks = true) {fc : FuseContext} {world : W}
    {source dest : CString}
    (clear : Clear host settings location ⟨world, fc, .link source dest⟩) :
    Confined (Admissible settings location) (Alarming host settings) .eperm
      (bindfsLink host settings source dest) world := by
  apply confined_request on
  intro realFrom locatedSource
  apply confined_request on
  intro realTo locatedDest
  obtain ⟨lostSource, lostDest⟩ := clear realFrom realTo locatedSource locatedDest
  have outsideSource := outside_requestPath laws on locatedSource fun _ => lostSource
  have outsideDest := outside_requestPath laws on locatedDest fun _ => lostDest
  apply Confined.of_issues
  exact Issues.call (quiet_of_outside (by simp)
    (by simpa [SysCall.operands] using ⟨outsideSource, outsideDest⟩))

theorem confined_chmod (laws : ResolutionLaws host location)
    (on : settings.resolve_symlinks = true) {fc : FuseContext} {world : W}
    {path : CString} {mode : Mode}
    (clear : Clear host settings location ⟨world, fc, .chmod path mode⟩) :
    Confined (Admissible settings location) (Alarming host settings) .eperm
      (bindfsChmod host settings path mode) world := by
  apply confined_request on
  intro realPath located
  apply Confined.of_issues
  apply issues_chmod
  · intro allowed
    exact outside_requestPath laws on located fun _ => clear.1 allowed
  · intro old looked passes
    apply outside_requestPath laws on located
    rintro rfl
    exact clear.2 old looked passes

theorem confined_chown (laws : ResolutionLaws host location)
    (on : settings.resolve_symlinks = true) {fc : FuseContext} {world : W}
    {path : CString} {uid gid : Id}
    (clear : Clear host settings location ⟨world, fc, .chown path uid gid⟩) :
    Confined (Admissible settings location) (Alarming host settings) .eperm
      (bindfsChown host settings path uid gid) world := by
  unfold bindfsChown
  split
  · exact Confined.of_issues (Issues.fail _)
  · rename_i owner translated
    split
    · exact Confined.of_issues (Issues.fail _)
    · rename_i group translatedGroup
      split
      · rename_i asked
        exact confined_call laws on (clear owner group translated translatedGroup asked)
          fun realPath outside => Issues.call (quiet_operand rfl outside)
      · exact Confined.of_issues (Issues.pure ())

theorem confined_serve (laws : ResolutionLaws host location)
    (on : settings.resolve_symlinks = true) (fc : FuseContext) {world : W} (request : Request)
    (clear : Clear host settings location ⟨world, fc, request⟩) :
    Confined (Admissible settings location) (Alarming host settings) .eperm
      (serve host settings fc request) world := by
  cases request with
  | getattr path =>
    apply confined_reply
    exact confined_call laws on clear fun realPath outside =>
      issues_stat_then_report laws outside
  | readlink _ _ | statfs _ =>
    apply confined_reply
    exact confined_call laws on clear fun realPath outside =>
      Issues.ask (quiet_operand rfl outside)
  | readdir path filler readdirplus =>
    apply confined_reply
    exact confined_readdir laws on fc clear
  | mknod path mode rdev =>
    apply confined_reply
    exact confined_make laws on (fun realPath => madeAt_mknodCall realPath mode rdev) clear.1 clear.2
  | mkdir path mode =>
    apply confined_reply
    exact confined_make laws on (fun _ => rfl) clear.1 clear.2
  | create path flags mode =>
    apply confined_reply
    apply confined_request on
    intro realPath located
    apply Confined.of_issues
    refine issues_open_then_chown laws (outside_requestPath laws on located fun _ => clear.1)
      fun opened answered => ?_
    apply outside_parent laws on located
    rintro rfl
    exact clear.2 opened answered
  | unlink path =>
    apply confined_reply
    exact confined_deleteFile laws on (Or.inl rfl) clear
  | rmdir path =>
    apply confined_reply
    exact confined_deleteFile laws on (Or.inr rfl) clear
  | symlink target path =>
    apply confined_reply
    unfold bindfsSymlink
    rw [if_pos on]
    exact Confined.of_issues (Issues.fail _)
  | rename source dest flags =>
    apply confined_reply
    exact confined_rename laws on clear
  | link source dest =>
    apply confined_reply
    exact confined_link laws on clear
  | chmod path mode =>
    apply confined_reply
    exact confined_chmod laws on clear
  | chown path uid gid =>
    apply confined_reply
    exact confined_chown laws on clear
  | truncate _ _ | utimens _ _ _ | openFile _ _ =>
    apply confined_reply
    exact confined_call laws on clear fun realPath outside =>
      Issues.call (quiet_operand rfl outside)
  | setxattr path name value flags =>
    apply confined_whenInstalled
    intro installed
    apply confined_reply
    unfold bindfsSetxattr
    split
    · exact Confined.of_issues (Issues.fail _)
    · rename_i writable
      exact confined_call laws on (clear (readWrite_of_installed installed writable))
        fun realPath outside => Issues.call (quiet_operand rfl outside)
  | getxattr _ _ _ | listxattr _ _ =>
    apply confined_whenInstalled
    intro installed
    apply confined_reply
    exact confined_call laws on (clear (of_decide_eq_true installed))
      fun realPath outside => Issues.ask (quiet_operand rfl outside)
  | removexattr path name =>
    apply confined_whenInstalled
    intro installed
    apply confined_reply
    unfold bindfsRemovexattr
    split
    · exact Confined.of_issues (Issues.fail _)
    · rename_i writable
      exact confined_call laws on (clear (readWrite_of_installed installed writable))
        fun realPath outside => Issues.call (quiet_operand rfl outside)
  | read _ _ _ _ | write _ _ _ _ =>
    apply confined_reply
    apply Confined.of_issues
    apply (issues_directIoBuffer _ _ world).bind
    intro _ _
    exact Issues.call (quiet_descriptor _ _)
  | lock _ _ | flock _ _ | ioctl _ _ => exact confined_whenInstalled fun _ => confined_descriptor world _
  | fsync fd isdatasync => exact confined_descriptor world _
  | release fd =>
    apply confined_reply
    apply Confined.of_issues
    exact (Issues.call (quiet_descriptor world _)).attempt.bind fun _ _ => Issues.pure ()

end

end Bindfs.Guarantees.RecursionGuard
