import Bindfs.Guarantees.GuardedRequests
import Bindfs.Source.TableHost

/-!
# The recursion guard of --resolve-symlinks

A request is guarded against the mountpoint if and only if it is clear of the three ways past
`process_path` (`request_guarded_iff`). That a clear request is guarded was shown handler by
handler; here is the converse: along each of the ways the handler makes a call in the
mountpoint, or passes over a path that resolves there.

The ways are open: a listing of a directory with a link to the mountpoint calls lstat on it
(`readdir_touches_mountpoint`).
-/
namespace Bindfs.Guarantees.RecursionGuard
open Bindfs.Source Bindfs.Lib.Effects

section
variable {W : Type} {host : Host W} {settings : Settings}
  {location : W → Bool → CString → Option CString}

/-! ## Paths -/

theorem requestPath_lost (on : settings.resolve_symlinks = true) {world : W} {path : CString}
    (missing : host.realpath world (stripSlashes path) = .error .enoent) :
    requestPath host settings world path = .ok (stripSlashes path) := by
  rw [requestPath, if_pos on, missing]
  rfl

theorem issues_after_path {α : Type} {admissible : W → SysCall → Prop} {world : W}
    {path realPath : CString} {next : CString → Sys W α}
    (issues : Issues admissible (processPath host settings (some path) true >>= next) world)
    (located : requestPath host settings world path = .ok realPath) :
    Issues admissible (next realPath) world := by
  have executed := exec_processPath host settings path world
  have rest := issues.right realPath (by rw [executed, located])
  rwa [executed] at rest

/-- A handler that calls on the path it was given shows where a lost path leads. -/
theorem lostClear_of_issues {α : Type} (on : settings.resolve_symlinks = true) {world : W}
    {path : CString} {follow : Bool} {next : CString → Sys W α}
    (issues : Issues (Admissible settings location)
      (processPath host settings (some path) true >>= next) world)
    (calls : Issues (Admissible settings location) (next (stripSlashes path)) world →
      Outside settings location world follow (stripSlashes path)) :
    LostClear host settings location world follow (stripSlashes path) :=
  fun missing => calls (issues_after_path issues (requestPath_lost on missing))

/-- In particular one that passes the path to a single call. -/
theorem lostClear_of_call {α : Type} (on : settings.resolve_symlinks = true) {world : W}
    {path : CString} {follow : Bool} {c : CString → SysCall}
    {effect : CString → W → Except Errno (α × W)}
    (issues : Issues (Admissible settings location)
      (processPath host settings (some path) true >>= fun realPath => call (c realPath) (effect realPath))
      world)
    (operand : (stripSlashes path, follow) ∈ (c (stripSlashes path)).operands) :
    LostClear host settings location world follow (stripSlashes path) :=
  lostClear_of_issues on issues fun rest => rest.of_call _ operand

theorem lostClear_of_ask {α : Type} (on : settings.resolve_symlinks = true) {world : W}
    {path : CString} {follow : Bool} {c : CString → SysCall} {answer : CString → W → Except Errno α}
    (issues : Issues (Admissible settings location)
      (processPath host settings (some path) true >>= fun realPath => ask (c realPath) (answer realPath))
      world)
    (operand : (stripSlashes path, follow) ∈ (c (stripSlashes path)).operands) :
    LostClear host settings location world follow (stripSlashes path) :=
  lostClear_of_issues on issues fun rest => rest.of_ask _ operand

theorem not_below_of_outside (laws : ResolutionLaws host location) {world : W}
    {path target : CString} (found : host.realpath world path = .ok target) {follow : Bool}
    (outside : Outside settings location world follow target) : ¬ Below settings.mntdest target :=
  outside target (laws.canonical found follow).1

/-! ## Creation -/

theorem outside_parent_of_chown {fc : FuseContext} {world : W} {path : CString}
    {chownFunc : CString → Id → Id → SysCall} (asUser : settings.create_policy = .asUser)
    (issues : Issues (Admissible settings location) (chownNewFile host settings path fc chownFunc)
      world) :
    Outside settings location world false (myDirname path) := by
  have inherits : Issues (Admissible settings location) (inheritsGroup host settings path) world :=
    issues.left
  have issued : (world, SysCall.lstat (myDirname path)) ∈
      ((inheritsGroup host settings path).exec world).calls := by
    rw [exec_inheritsGroup, parentCalls, asUser]
    exact List.mem_singleton_self _
  exact inherits _ issued (myDirname path, false) (List.mem_singleton_self _)

theorem made_of_issues (laws : ResolutionLaws host location) {fc : FuseContext} {world : W}
    {c : SysCall} {path : CString} (made : madeAt c = some path)
    (issues : Issues (Admissible settings location) (do
      host.issue c
      chownNewFile host settings path fc .chown) world) :
    Outside settings location world false path ∧
      ∀ world', host.perform world c = .ok world' → settings.create_policy = .asUser →
        Outside settings location world false (myDirname path) := by
  constructor
  · refine issues.left.of_call (path, false) ?_
    rw [operands_of_madeAt made]
    exact List.mem_singleton_self _
  · intro world' performed asUser
    have executed := host.exec_issue_ok performed
    have rest := issues.right () (by rw [executed])
    rw [executed] at rest
    have outside := outside_parent_of_chown asUser rest
    intro place leads
    exact outside place ((laws.made made performed).2.trans leads)

theorem makeClear_of_issues (laws : ResolutionLaws host location)
    (on : settings.resolve_symlinks = true) {fc : FuseContext} {world : W} {path : CString}
    {make : CString → SysCall} (made : madeAt (make (stripSlashes path)) = some (stripSlashes path))
    (issues : Issues (Admissible settings location) (do
      let realPath ← processPath host settings (some path) true
      host.issue (make realPath)
      chownNewFile host settings realPath fc .chown) world) :
    LostClear host settings location world false (stripSlashes path) ∧
      ∀ world', host.perform world (make (stripSlashes path)) = .ok world' →
        LostParentClear host settings location world (stripSlashes path) := by
  constructor
  · exact lostClear_of_issues on issues fun rest => (made_of_issues laws made rest).1
  · intro world' performed asUser missing
    have rest := issues_after_path issues (requestPath_lost on missing)
    exact (made_of_issues laws made rest).2 world' performed asUser

theorem opened_of_issues (laws : ResolutionLaws host location) {fc : FuseContext} {world : W}
    {path : CString} {flags : OpenFlags} {mode : Option Mode}
    (issues : Issues (Admissible settings location) (do
      let fd ← host.callOpen path flags mode
      let _ ← attempt (chownNewFile host settings path fc .chown)
      pure fd) world) :
    Outside settings location world true path ∧
      ∀ opened, host.openFile world path flags mode = .ok opened →
        settings.create_policy = .asUser →
          Outside settings location world false (myDirname path) := by
  constructor
  · exact issues.left.of_call (path, true) (List.mem_singleton_self _)
  · intro opened answered asUser
    have executed := host.exec_callOpen_ok answered
    have rest := issues.right opened.1 (by rw [executed])
    rw [executed] at rest
    have outside := outside_parent_of_chown asUser rest.left
    intro place leads
    exact outside place ((laws.opened answered).2.trans leads)

/-! ## Deletion -/

theorem operands_of_deletion {delete : CString → SysCall} (deletes : IsDeletion delete)
    (path : CString) : (path, false) ∈ (delete path).operands := by
  rcases deletes with rfl | rfl
  · exact List.mem_singleton_self _
  · exact List.mem_singleton_self _

/-- Deleting a link into the mountpoint together with its target is noticed only when the link
cannot be deleted. -/
theorem stuck_of_guarded (laws : ResolutionLaws host location) {world : W} {path target : CString}
    {targetDelete : CString → SysCall} (deletes : IsDeletion targetDelete) {stbuf : Stat}
    (looked : host.lstat world path = .ok stbuf) (link : S_ISLNK stbuf.st_mode = true)
    (found : host.realpath world path = .ok target) (below : Below settings.mntdest target)
    (issues : Issues (Admissible settings location) (do
      let target ← deletionTarget host path
      deleteThenTry host path .unlink targetDelete target) world)
    (refused : ((do
      let target ← deletionTarget host path
      deleteThenTry host path .unlink targetDelete target).exec world).result = .error .eperm) :
    host.perform world (.unlink path) = .error .eperm := by
  have executed := deletionTarget_found found
  cases performed : host.perform world (.unlink path) with
  | error error =>
    simp only [exec_bind, executed, andThen_ok, deleteThenTry, host.exec_issue_error performed,
      andThen_error, result_after] at refused
    rw [Except.error.inj refused]
  | ok world' =>
    have deleting := issues.right (some target) (by rw [executed])
    rw [executed] at deleting
    have unlinked := host.exec_issue_ok performed
    have after := deleting.right () (by rw [unlinked])
    rw [unlinked] at after
    have outside : Outside settings location world' false target :=
      (Issues.left after).of_attempt.of_call (target, false) (operands_of_deletion deletes target)
    exact absurd below (outside target (laws.unlinked looked link found performed))

theorem deletionClear_of_guarded (laws : ResolutionLaws host location)
    (on : settings.resolve_symlinks = true) {world : W} {path : CString}
    {targetDelete : CString → SysCall} (deletes : IsDeletion targetDelete)
    (issues : Issues (Admissible settings location) (deleteFile host settings path targetDelete) world)
    (refused : ∀ target,
      (world, .realpath (stripSlashes path)) ∈
          ((deleteFile host settings path targetDelete).exec world).calls →
        host.realpath world (stripSlashes path) = .ok target → Below settings.mntdest target →
          ((deleteFile host settings path targetDelete).exec world).result = .error .eperm) :
    DeletionClear host settings location world (stripSlashes path) := by
  intro allowed
  have raw := exec_processPath_raw host settings path false rfl world
  simp only [deleteFile, allowed, Bool.false_eq_true, if_false] at issues
  have looking := issues.right (stripSlashes path) (by rw [raw])
  rw [raw] at looking
  simp only [on, if_true] at looking
  refine ⟨looking.left.of_ask (stripSlashes path, false) (List.mem_singleton_self _), ?_⟩
  intro stbuf target looked link found below
  have deleting := looking.right stbuf looked
  simp only [link, if_true, Host.exec_callLstat] at deleting
  cases policy : settings.resolved_symlink_deletion_policy with
  | deny => trivial
  | symlinkOnly => trivial
  | symlinkFirst =>
    simp only [policy] at deleting ⊢
    have outcome : (deleteFile host settings path targetDelete).exec world =
        ((do
          let target ← deletionTarget host (stripSlashes path)
          deleteThenTry host (stripSlashes path) .unlink targetDelete target).exec world).after
            [(world, .lstat (stripSlashes path))] := by
      simp [deleteFile, allowed, raw, on, looked, link, policy, Outcome.after]
    refine stuck_of_guarded laws deletes looked link found below deleting ?_
    have failed := refused target (by
      rw [outcome, exec_bind, deletionTarget_found found]
      simp) found below
    rwa [outcome] at failed
  | targetFirst =>
    simp only [policy] at deleting ⊢
    have executed := deletionTarget_found found
    have unlinking := deleting.right (some target) (by rw [executed])
    rw [executed] at unlinking
    have outside : Outside settings location world false target :=
      unlinking.left.of_call (target, false) (List.mem_singleton_self _)
    exact not_below_of_outside laws found outside below

/-! ## Directories -/

theorem entryClear_of_issues (laws : ResolutionLaws host location)
    (on : settings.resolve_symlinks = true) {fc : FuseContext} {world : W} {readdirplus : Bool}
    {realPath : CString} {de : Dirent}
    (issues : Issues (Admissible settings location)
      (readdirEntry host settings fc readdirplus realPath de) world) :
    EntryClear host settings location world readdirplus (entryPath realPath de) de := by
  unfold readdirEntry at issues
  simp only [← entryPath_eq] at issues
  unfold EntryClear
  by_cases link : de.d_type = .lnk
  · rw [if_pos link]
    simp only [on, link, decide_true, Bool.and_self, Bool.true_or, if_true] at issues
    have looking := issues.left
    unfold entryStat at looking
    simp only [on, link, decide_true, Bool.and_self, if_true] at looking
    cases found : host.realpath world (entryPath realPath de) with
    | ok target =>
      have lstat := looking.right (.ok target) (by simp [found])
      exact not_below_of_outside laws found
        (lstat.of_ask (target, false) (List.mem_singleton_self _))
    | error error =>
      have lstat := looking.right (.error error) (by simp [found])
      exact lstat.of_ask (entryPath realPath de, false) (List.mem_singleton_self _)
  · rw [if_neg link]
    intro plus
    simp only [link, plus, decide_false, Bool.and_false, Bool.false_or, if_true] at issues
    have looking := issues.left
    unfold entryStat at looking
    simp only [link, decide_false, Bool.and_false, Bool.false_eq_true, if_false] at looking
    exact looking.of_ask (entryPath realPath de, false) (List.mem_singleton_self _)

theorem entriesClear_of_issues (laws : ResolutionLaws host location)
    (on : settings.resolve_symlinks = true) {fc : FuseContext} {world : W} {readdirplus : Bool}
    {realPath : CString} {filler : Filled → Except Errno Unit} {atEnd : Except Errno Unit}
    (entries : List Dirent)
    (issues : Issues (Admissible settings location)
      (readdirLoop host settings fc readdirplus realPath filler atEnd entries) world) :
    EntriesClear host settings location fc world filler readdirplus realPath entries := by
  induction entries with
  | nil => trivial
  | cons de rest ih =>
    rw [readdirLoop] at issues
    refine ⟨entryClear_of_issues laws on issues.left.of_attempt, ?_⟩
    intro filled reported accepted
    have kept := keeps_readdirEntry host settings fc world readdirplus realPath de
    have report := result_readdirEntry host settings fc world readdirplus realPath de
    have later := issues.right (.ok filled) (by rw [exec_attempt, report, reported])
    simp only [accepted] at later
    rw [exec_attempt, show ((readdirEntry host settings fc readdirplus realPath de).exec world).world =
      world from kept] at later
    exact ih later.left

theorem readdirClear_of_issues (laws : ResolutionLaws host location)
    (on : settings.resolve_symlinks = true) {fc : FuseContext} {world : W} {path : CString}
    {filler : Filled → Except Errno Unit} {readdirplus : Bool}
    (issues : Issues (Admissible settings location)
      (readdirRequest host settings fc path filler readdirplus) world) :
    Clear host settings location ⟨world, fc, .readdir path filler readdirplus⟩ := by
  have body : Issues (Admissible settings location)
      (openDirectory host settings path >>= listDirectory host settings fc filler readdirplus)
      world := by
    intro entry member
    rw [← exec_readdirRequest] at member
    exact issues entry member
  constructor
  · exact lostClear_of_issues on body.left fun rest =>
      rest.left.of_ask (stripSlashes path, true) (List.mem_singleton_self _)
  · intro realPath listing located opened
    have executed := exec_openDirectory host settings world located opened
    have listing := body.right (realPath, listing) (by rw [executed])
    rw [executed] at listing
    exact entriesClear_of_issues laws on _ (listing.right () rfl).left

/-! ## Names and modes -/

theorem renameClear_of_issues (on : settings.resolve_symlinks = true) {fc : FuseContext} {world : W}
    {source dest : CString} {flags : Nat}
    (issues : Issues (Admissible settings location)
      (bindfsRename host settings source dest flags) world) :
    Clear host settings location ⟨world, fc, .rename source dest flags⟩ := by
  intro allowed unflagged realTo located
  have raw := exec_processPath_raw host settings source false rfl world
  simp only [bindfsRename, allowed, unflagged, Bool.false_eq_true, if_false, if_true] at issues
  have toDest := issues.right (stripSlashes source) (by rw [raw])
  rw [raw] at toDest
  have operands : ∀ operand ∈ [(stripSlashes source, false), (realTo, false)],
      Outside settings location world operand.2 operand.1 :=
    (issues_after_path toDest located).of_call
  refine ⟨operands (stripSlashes source, false) (by simp), fun missing => ?_⟩
  rw [requestPath_lost on missing] at located
  cases located
  exact operands (stripSlashes dest, false) (by simp)

theorem linkClear_of_issues (on : settings.resolve_symlinks = true) {fc : FuseContext} {world : W}
    {source dest : CString}
    (issues : Issues (Admissible settings location) (bindfsLink host settings source dest) world) :
    Clear host settings location ⟨world, fc, .link source dest⟩ := by
  intro realFrom realTo locatedSource locatedDest
  have toDest := issues_after_path issues locatedSource
  have admissible := (issues_after_path toDest locatedDest).of_call
  constructor
  · intro missing
    rw [requestPath_lost on missing] at locatedSource
    cases locatedSource
    exact admissible (stripSlashes source, false) (by simp [SysCall.operands])
  · intro missing
    rw [requestPath_lost on missing] at locatedDest
    cases locatedDest
    exact admissible (stripSlashes dest, false) (by simp [SysCall.operands])

theorem chmodClear_of_issues (on : settings.resolve_symlinks = true) {fc : FuseContext} {world : W}
    {path : CString} {mode : Mode}
    (issues : Issues (Admissible settings location) (bindfsChmod host settings path mode) world) :
    Clear host settings location ⟨world, fc, .chmod path mode⟩ := by
  have executed := exec_executeOnlyMode host settings (stripSlashes path) world
  constructor
  · intro allowed
    refine lostClear_of_issues on issues fun rest => ?_
    have looked : (world, SysCall.lstat (stripSlashes path)) ∈
        ((executeOnlyMode host settings (stripSlashes path)).exec world).calls := by
      rw [executed, allowed]
      exact List.mem_singleton_self _
    exact rest.left _ looked (stripSlashes path, false) (List.mem_singleton_self _)
  · intro old answered passes
    refine lostClear_of_issues on issues fun rest => ?_
    have changing := rest.right old (by rw [executed, answered])
    rw [executed] at changing
    rcases calls_chmodByPolicy host settings (stripSlashes path) mode old world with
      ⟨mode', -, calls⟩ | ⟨blocked, -⟩
    · exact changing (world, .chmod (stripSlashes path) mode') (by rw [calls]; simp)
        (stripSlashes path, true) (List.mem_singleton_self _)
    · exact absurd passes blocked

/-! ## Requests -/

/-- A reply is put together without further calls. -/
theorem issued_of_reply {α β : Type} {program : Sys W α} {reply : α → β} {world : W}
    {entry : W × SysCall} (issued : entry ∈ (program.exec world).calls) :
    entry ∈ ((program >>= fun value => pure (reply value)).exec world).calls := by
  rw [exec_bind]
  cases ended : (program.exec world).result <;> simp [Outcome.andThen, ended, issued]

theorem error_of_reply {α β : Type} {program : Sys W α} {reply : α → β} {world : W} {error : Errno}
    (failed : ((program >>= fun value => pure (reply value)).exec world).result = .error error) :
    (program.exec world).result = .error error := by
  rw [exec_bind] at failed
  cases ended : (program.exec world).result with
  | error e => simpa [Outcome.andThen, ended] using failed
  | ok value => simp [Outcome.andThen, ended] at failed

theorem guarded_of_clear (laws : ResolutionLaws host location)
    (on : settings.resolve_symlinks = true) {step : Step W}
    (clear : Clear host settings location step) : Guarded host settings location step := by
  have confined := confined_serve laws on step.caller step.request clear
  exact ⟨confined.issues, fun world path target issued found below =>
    confined.alarmed _ issued ⟨path, target, rfl, found, below⟩⟩

theorem clear_of_guarded (laws : ResolutionLaws host location)
    (on : settings.resolve_symlinks = true) {step : Step W}
    (guarded : Guarded host settings location step) : Clear host settings location step := by
  obtain ⟨world, fc, request⟩ := step
  have issues : Issues (Admissible settings location) (serve host settings fc request) world :=
    guarded.outside
  cases request with
  | getattr path =>
    exact lostClear_of_issues on issues.left fun rest =>
      rest.left.of_ask (stripSlashes path, false) (List.mem_singleton_self _)
  | readlink _ _ | statfs _ => exact lostClear_of_ask on issues.left (List.mem_singleton_self _)
  | readdir path filler readdirplus => exact readdirClear_of_issues laws on issues.left
  | mknod path mode rdev =>
    exact makeClear_of_issues laws on (madeAt_mknodCall (stripSlashes path) mode rdev) issues.left
  | mkdir path mode =>
    have made : madeAt (mkdirCall settings (stripSlashes path) mode) = some (stripSlashes path) := rfl
    exact makeClear_of_issues laws on made issues.left
  | create path flags mode =>
    constructor
    · exact lostClear_of_issues on issues.left fun rest => (opened_of_issues laws rest).1
    · intro opened answered asUser missing
      have rest := issues_after_path issues.left (requestPath_lost on missing)
      exact (opened_of_issues laws rest).2 opened answered asUser
  | unlink path =>
    exact deletionClear_of_guarded laws on (Or.inl rfl) issues.left fun target issued found below =>
      error_of_reply (guarded.refused world _ target (issued_of_reply issued) found below)
  | rmdir path =>
    exact deletionClear_of_guarded laws on (Or.inr rfl) issues.left fun target issued found below =>
      error_of_reply (guarded.refused world _ target (issued_of_reply issued) found below)
  | symlink target path => trivial
  | rename source dest flags => exact renameClear_of_issues on issues.left
  | link source dest => exact linkClear_of_issues on issues.left
  | chmod path mode => exact chmodClear_of_issues on issues.left
  | chown path uid gid =>
    intro owner group translated translatedGroup asked
    have changing := issues.left
    simp only [bindfsChown, translated, translatedGroup, if_pos asked] at changing
    exact lostClear_of_call on changing (List.mem_singleton_self _)
  | truncate _ _ | utimens _ _ _ | openFile _ _ =>
    exact lostClear_of_call on issues.left (List.mem_singleton_self _)
  | setxattr path name value flags =>
    intro policy
    simp only [serve, whenInstalled, bindfsSetxattr, policy, ne_eq, reduceCtorEq, not_false_eq_true,
      decide_true, if_true, if_false] at issues
    exact lostClear_of_call on issues.left (List.mem_singleton_self _)
  | getxattr path _ _ | listxattr path _ =>
    intro policy
    simp only [serve, whenInstalled, policy, ne_eq, not_false_eq_true, decide_true, if_true] at issues
    exact lostClear_of_ask on issues.left (List.mem_singleton_self _)
  | removexattr path name =>
    intro policy
    simp only [serve, whenInstalled, bindfsRemovexattr, policy, ne_eq, reduceCtorEq,
      not_false_eq_true, decide_true, if_true, if_false] at issues
    exact lostClear_of_call on issues.left (List.mem_singleton_self _)
  | read | write | lock | flock | ioctl | fsync | release => trivial

/-- For every tree, caller and request: no call touches the mountpoint, and a path that resolves
there makes the request fail with EPERM, if and only if the request is clear. -/
theorem request_guarded_iff (laws : ResolutionLaws host location)
    (on : settings.resolve_symlinks = true) (step : Step W) :
    Guarded host settings location step ↔ Clear host settings location step :=
  ⟨clear_of_guarded laws on, guarded_of_clear laws on⟩

end

/-! ## A link to the mountpoint -/

/-- A source directory `/s` with one link `l` to the mountpoint `/m`. -/
def mountTree : TableTree :=
  { TableTree.empty with
    stats := [(['l'], sampleStat 0 0 0o120777), (['/', 's', '/', 'l'], sampleStat 0 0 0o120777),
      (['/', 'm'], sampleStat 0 0 0o40755)]
    canonical := [(['.'], .ok ['/', 's']), (['l'], .ok ['/', 'm']),
      (['/', 's', '/', 'l'], .ok ['/', 'm'])]
    listings := [(['/', 's'], [⟨['l'], .lnk⟩])] }

def mountLocation (_ : Unit) (follow : Bool) (path : CString) : Option CString :=
  if path = ['l'] ∨ path = ['/', 's', '/', 'l'] then
    some (if follow then ['/', 'm'] else ['/', 's', '/', 'l'])
  else if path = ['.'] then some ['/', 's']
  else if path.head? = some '/' then some path
  else some (['/', 's', '/'] ++ path)

theorem realpath_mountTree {world : Unit} {path target : CString}
    (found : (frozenHost mountTree).realpath world path = .ok target) :
    (path = ['.'] ∧ target = ['/', 's']) ∨
      ((path = ['l'] ∨ path = ['/', 's', '/', 'l']) ∧ target = ['/', 'm']) := by
  have listed := TableTree.mem_of_realpath found
  simp only [mountTree, List.mem_cons, Prod.mk.injEq, Except.ok.injEq, List.not_mem_nil,
    or_false] at listed
  tauto

theorem mountTree_laws : ResolutionLaws (frozenHost mountTree) mountLocation where
  absolute := by
    intro world path target found
    rcases realpath_mountTree found with ⟨-, rfl⟩ | ⟨-, rfl⟩ <;> rfl
  canonical := by
    intro world path target found follow
    rcases realpath_mountTree found with ⟨-, rfl⟩ | ⟨-, rfl⟩ <;> exact ⟨rfl, rfl⟩
  resolves := by
    intro world path target found
    rcases realpath_mountTree found with ⟨rfl, rfl⟩ | ⟨rfl | rfl, rfl⟩ <;> rfl
  no_link := by
    intro world path stbuf found noLink
    have listed := TableTree.mem_of_find found
    simp only [mountTree, List.mem_cons, Prod.mk.injEq, List.not_mem_nil, or_false] at listed
    rcases listed with ⟨rfl, rfl⟩ | ⟨rfl, rfl⟩ | ⟨rfl, rfl⟩
    · cases noLink
    · cases noLink
    · rfl
  made := by
    intro world world' c path _ performed
    cases performed
  opened := by
    intro world world' path flags mode fd performed
    cases performed
  unlinked := by
    intro world world' path stbuf target _ _ _ performed
    cases performed
  removed := by
    intro delete world world' path _ performed
    cases performed

/-- A getattr on the link is refused without touching the mountpoint. -/
theorem request_guarded_iff_of_getattr :
    Guarded (frozenHost mountTree) resolvingSettings mountLocation ⟨(), ⟨0, 0⟩, .getattr ['/', 'l']⟩ := by
  apply (request_guarded_iff mountTree_laws rfl ⟨(), ⟨0, 0⟩, .getattr ['/', 'l']⟩).mpr
  intro missing
  cases missing

/-- Listing the source directory calls lstat on the mountpoint. -/
theorem readdir_touches_mountpoint :
    ResolutionLaws (frozenHost mountTree) mountLocation ∧
      ¬ Guarded (frozenHost mountTree) resolvingSettings mountLocation
        ⟨(), ⟨0, 0⟩, .readdir ['/'] (fun _ => .ok ()) false⟩ := by
  refine ⟨mountTree_laws, ?_⟩
  intro guarded
  have issued : ((), SysCall.lstat ['/', 'm']) ∈ ((serve (frozenHost mountTree) resolvingSettings ⟨0, 0⟩
      (.readdir ['/'] (fun _ => .ok ()) false)).exec ()).calls := by
    decide +kernel
  exact guarded.outside _ issued (['/', 'm'], false) (by simp [SysCall.operands]) ['/', 'm'] rfl
    (Or.inl rfl)

end Bindfs.Guarantees.RecursionGuard
