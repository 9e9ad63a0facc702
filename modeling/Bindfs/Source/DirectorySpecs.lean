import Bindfs.Source.HandlerSpecs

/-!
# What reading a directory answers

`bindfs_readdir` only asks the file system, so its answer is a function of the tree:
`entryReport` for one entry, `loopReport` for the loop. `loopReport_filled` says that the
entries filled are the reports of a leading part of the directory.
-/
namespace Bindfs.Source
open Bindfs.Lib.Effects

section
variable {W : Type} (host : Host W) (settings : Settings) (fc : FuseContext) (world : W)

/-- The path of an entry, as `path_buf` holds it. -/
def entryPath (realPath : CString) (de : Dirent) : CString := realPath ++ '/' :: de.d_name

theorem entryPath_eq (realPath : CString) (de : Dirent) :
    entryPath realPath de = realPath ++ '/' :: de.d_name := rfl

/-- What `lstat` says of an entry, at the end of its link where symlinks are resolved. -/
def shownStat (pathBuf : CString) (de : Dirent) : Except Errno Stat :=
  if settings.resolve_symlinks && de.d_type = .lnk then
    match host.realpath world pathBuf with
    | .ok resolved => host.lstat world resolved
    | .error _ => host.lstat world pathBuf
  else host.lstat world pathBuf

theorem result_entryStat (pathBuf : CString) (de : Dirent) :
    ((entryStat host settings pathBuf de).exec world).result =
      shownStat host settings world pathBuf de := by
  unfold entryStat shownStat
  split
  · simp only [exec_bind, exec_attempt, Host.exec_callRealpath, andThen_ok, result_after]
    cases host.realpath world pathBuf <;> rfl
  · rfl

theorem world_entryStat (pathBuf : CString) (de : Dirent) :
    ((entryStat host settings pathBuf de).exec world).world = world := by
  unfold entryStat
  split
  · simp only [exec_bind, exec_attempt, Host.exec_callRealpath, andThen_ok, world_after]
    cases host.realpath world pathBuf <;> rfl
  · rfl

/-- What the filler receives for an entry in readdirplus mode, or the error that ends the loop. -/
def plusReport (realPath : CString) (de : Dirent) : Except Errno Filled := do
  let st ← shownStat host settings world (entryPath realPath de) de
  let st ← attributeReport host settings fc (host.blockSize world (entryPath realPath de))
    (host.access world (entryPath realPath de)) st
  pure ⟨de.d_name, some st⟩

/-- The same without readdirplus: only the targets of symlinks are looked at. -/
def plainReport (realPath : CString) (de : Dirent) : Except Errno Filled :=
  if settings.resolve_symlinks && de.d_type = .lnk then do
    let _ ← shownStat host settings world (entryPath realPath de) de
    pure ⟨de.d_name, none⟩
  else pure ⟨de.d_name, none⟩

def entryReport (readdirplus : Bool) (realPath : CString) (de : Dirent) : Except Errno Filled :=
  if readdirplus then plusReport host settings fc world realPath de
  else plainReport host settings world realPath de

theorem plusReport_ok_iff (realPath : CString) (de : Dirent) (filled : Filled) :
    plusReport host settings fc world realPath de = .ok filled ↔
      ∃ st shown, shownStat host settings world (entryPath realPath de) de = .ok st ∧
        attributeReport host settings fc (host.blockSize world (entryPath realPath de))
          (host.access world (entryPath realPath de)) st = .ok shown ∧
        filled = ⟨de.d_name, some shown⟩ := by
  unfold plusReport
  cases shownStat host settings world (entryPath realPath de) de with
  | error error => simp [bind, Except.bind]
  | ok st =>
    cases report : attributeReport host settings fc (host.blockSize world (entryPath realPath de))
        (host.access world (entryPath realPath de)) st with
    | error error => simp [bind, Except.bind, report]
    | ok shown => simp [bind, Except.bind, pure, Except.pure, report, @eq_comm _ filled]

theorem plainReport_ok_iff (realPath : CString) (de : Dirent) (filled : Filled) :
    plainReport host settings world realPath de = .ok filled ↔
      filled = ⟨de.d_name, none⟩ ∧
        (settings.resolve_symlinks = true → de.d_type = .lnk →
          ∃ st, shownStat host settings world (entryPath realPath de) de = .ok st) := by
  unfold plainReport
  by_cases resolved : (settings.resolve_symlinks && decide (de.d_type = .lnk)) = true
  · obtain ⟨on, link⟩ := Bool.and_eq_true_iff.mp resolved
    rw [if_pos resolved]
    cases shownStat host settings world (entryPath realPath de) de with
    | error error => simp [bind, Except.bind, on, of_decide_eq_true link]
    | ok st => simp [bind, Except.bind, pure, Except.pure, @eq_comm _ filled]
  · rw [if_neg resolved]
    constructor
    · intro reported
      refine ⟨(Except.ok.inj reported).symm, ?_⟩
      intro on link
      exact absurd (Bool.and_eq_true_iff.mpr ⟨on, decide_eq_true link⟩) resolved
    · rintro ⟨rfl, -⟩
      rfl

theorem entryReport_name (readdirplus : Bool) (realPath : CString) (de : Dirent) (filled : Filled)
    (reported : entryReport host settings fc world readdirplus realPath de = .ok filled) :
    filled.name = de.d_name := by
  cases readdirplus with
  | true =>
    obtain ⟨st, shown, -, -, rfl⟩ := (plusReport_ok_iff host settings fc world _ _ _).mp reported
    rfl
  | false =>
    obtain ⟨rfl, -⟩ := (plainReport_ok_iff host settings world _ _ _).mp reported
    rfl

theorem result_readdirEntry (readdirplus : Bool) (realPath : CString) (de : Dirent) :
    ((readdirEntry host settings fc readdirplus realPath de).exec world).result =
      entryReport host settings fc world readdirplus realPath de := by
  have stat := result_entryStat host settings world (entryPath realPath de) de
  have statKeeps : Keeps (entryStat host settings (entryPath realPath de) de) world :=
    world_entryStat host settings world (entryPath realPath de) de
  cases readdirplus with
  | true =>
    have commonKeeps : ∀ st,
        Keeps (getattrCommon host settings fc (entryPath realPath de) st) world :=
      fun st => world_getattrCommon host settings fc (entryPath realPath de) st world
    simp only [readdirEntry, Bool.or_true, if_true, ← entryPath_eq]
    rw [statKeeps.result_bind, stat]
    simp only [(commonKeeps _).result_bind, result_getattrCommon]
    rfl
  | false =>
    simp only [readdirEntry, Bool.or_false, entryReport, plainReport, ← entryPath_eq]
    split
    · rw [statKeeps.result_bind, stat]
      rfl
    · rfl

theorem keeps_readdirEntry (readdirplus : Bool) (realPath : CString) (de : Dirent) :
    Keeps (readdirEntry host settings fc readdirplus realPath de) world := by
  have statKeeps : Keeps (entryStat host settings (entryPath realPath de) de) world :=
    world_entryStat host settings world (entryPath realPath de) de
  unfold readdirEntry
  split
  · apply statKeeps.bind
    intro st _
    split
    · exact Keeps.bind (world_getattrCommon host settings fc (entryPath realPath de) st world)
        (fun shown _ => Keeps.pure _)
    · exact Keeps.pure _
  · exact Keeps.pure _

/-! ## The loop -/

variable (filler : Filled → Except Errno Unit) (atEnd : Except Errno Unit)

/-- The answer of the readdir loop, given the report of each entry. -/
def loopReport (report : Dirent → Except Errno Filled) : List Dirent → ReaddirReply
  | [] => ⟨[], atEnd⟩
  | de :: rest =>
    match report de with
    | .error error => ⟨[], .error error⟩
    | .ok entry =>
      match filler entry with
      | .error error => ⟨[], .error error⟩
      | .ok () =>
        ⟨entry :: (loopReport report rest).filled, (loopReport report rest).result⟩

theorem readdirLoop_spec (readdirplus : Bool) (realPath : CString) (entries : List Dirent) :
    ((readdirLoop host settings fc readdirplus realPath filler atEnd entries).exec world).result =
        .ok (loopReport filler atEnd (entryReport host settings fc world readdirplus realPath) entries) ∧
      Keeps (readdirLoop host settings fc readdirplus realPath filler atEnd entries) world := by
  induction entries with
  | nil => exact ⟨rfl, Keeps.pure _⟩
  | cons de rest ih =>
    obtain ⟨restResult, restKeeps⟩ := ih
    have entryKeeps := (keeps_readdirEntry host settings fc world readdirplus realPath de).attempt
    have entryResult := result_readdirEntry host settings fc world readdirplus realPath de
    constructor
    · rw [readdirLoop, entryKeeps.result_bind, exec_attempt, entryResult, loopReport]
      cases entryReport host settings fc world readdirplus realPath de with
      | error error => rfl
      | ok entry =>
        cases accepted : filler entry with
        | error error => simp [accepted, bind, Except.bind]
        | ok _ =>
          simp only [bind, Except.bind, accepted]
          have composed := restKeeps.result_bind
            (fun more => (pure ⟨entry :: more.filled, more.result⟩ : Sys W ReaddirReply))
          rw [restResult] at composed
          exact composed
    · rw [readdirLoop]
      apply entryKeeps.bind
      intro answer _
      cases answer with
      | error error => exact Keeps.pure _
      | ok entry =>
        simp only
        split
        · exact Keeps.pure _
        · exact restKeeps.bind (fun more _ => Keeps.pure _)

theorem openDirectory_ok {path : CString} {directory : CString × Listing}
    (opened : ((openDirectory host settings path).exec world).result = .ok directory) :
    requestPath host settings world path = .ok directory.1 ∧
      host.opendir world directory.1 = .ok directory.2 ∧
      ((openDirectory host settings path).exec world).world = world := by
  simp only [openDirectory, exec_bind, exec_processPath] at opened ⊢
  cases located : requestPath host settings world path with
  | error error => simp [located] at opened
  | ok realPath =>
    cases listed : host.opendir world realPath with
    | error error => simp [located, listed] at opened
    | ok listing =>
      simp only [located, andThen_ok, exec_bind, Host.exec_callOpendir, listed, result_after,
        exec_pure, Except.ok.injEq] at opened
      subst opened
      exact ⟨rfl, listed, by simp [listed]⟩

theorem exec_openDirectory {path realPath : CString} {listing : Listing}
    (located : requestPath host settings world path = .ok realPath)
    (opened : host.opendir world realPath = .ok listing) :
    (openDirectory host settings path).exec world =
      ⟨.ok (realPath, listing), world,
        pathCalls settings world path ++ [(world, .opendir realPath)]⟩ := by
  simp [openDirectory, exec_processPath, located, opened, Outcome.after]

/-- What `bindfs_readdir` answers for a directory that can be opened. -/
theorem result_bindfsReaddir {path realPath : CString} {listing : Listing} (readdirplus : Bool)
    (located : requestPath host settings world path = .ok realPath)
    (opened : host.opendir world realPath = .ok listing) :
    ((bindfsReaddir host settings fc path filler readdirplus).exec world).result =
      .ok (loopReport filler listing.atEnd
        (entryReport host settings fc world readdirplus realPath) listing.entries) := by
  have directory := exec_openDirectory host settings world located opened
  have loop := (readdirLoop_spec host settings fc world filler listing.atEnd readdirplus realPath
    listing.entries).1
  simp [bindfsReaddir, directory, loop]

/-- A directory that cannot be opened fills nothing. -/
theorem filled_of_unopened {path : CString} {error : Errno} (readdirplus : Bool)
    (refused : (requestPath host settings world path >>= host.opendir world) = .error error) :
    ((bindfsReaddir host settings fc path filler readdirplus).exec world).result =
      .ok ⟨[], .error error⟩ := by
  have directory : ((openDirectory host settings path).exec world).result = .error error := by
    cases located : requestPath host settings world path with
    | error e =>
      rw [located] at refused
      cases refused
      simp [openDirectory, exec_processPath, located]
    | ok realPath =>
      rw [located] at refused
      have unopened : host.opendir world realPath = .error error := refused
      simp [openDirectory, exec_processPath, located, unopened]
  simp [bindfsReaddir, directory]

/-- The entries filled are the accepted reports of the directory's first entries, in order. -/
theorem loopReport_filled (report : Dirent → Except Errno Filled) (entries : List Dirent) {i : Nat}
    {filled : Filled} (at_i : (loopReport filler atEnd report entries).filled[i]? = some filled) :
    ∃ de, entries[i]? = some de ∧ report de = .ok filled := by
  induction entries generalizing i with
  | nil => simp [loopReport] at at_i
  | cons de rest ih =>
    simp only [loopReport] at at_i
    split at at_i
    · simp at at_i
    · rename_i entry reported
      split at at_i
      · simp at at_i
      · cases i with
        | zero =>
          simp only [List.getElem?_cons_zero, Option.some.injEq] at at_i
          subst at_i
          exact ⟨de, by simp, reported⟩
        | succ i =>
          simp only [List.getElem?_cons_succ] at at_i ⊢
          exact ih at_i

/-- With a filler that accepts everything, the loop lists every name and ends well if and
only if every entry has a report and the directory ends without an error. -/
theorem loopReport_complete_iff (report : Dirent → Except Errno Filled)
    (named : ∀ de filled, report de = .ok filled → filled.name = de.d_name)
    (entries : List Dirent) :
    ((loopReport (fun _ => .ok ()) (.ok ()) report entries).filled.map Filled.name =
        entries.map Dirent.d_name ∧
      (loopReport (fun _ => .ok ()) (.ok ()) report entries).result = .ok ()) ↔
      ∀ de ∈ entries, ∃ filled, report de = .ok filled := by
  induction entries with
  | nil => simp [loopReport]
  | cons de rest ih =>
    cases reported : report de with
    | error error => simp [loopReport, reported]
    | ok entry =>
      simp only [loopReport, reported, List.map_cons, named de entry reported, List.cons.injEq,
        true_and, ih, List.forall_mem_cons, Except.ok.injEq, exists_eq', true_and]

end

end Bindfs.Source
