import Bindfs.Source.HandlerMemory

/-!
# What the handlers do with their memory

For each function of `Bindfs.Source.HandlerMemory`, that it does what its counterpart without
memory does, and which cells it owns before and after. Handlers own nothing before and nothing
after.
-/
namespace Bindfs.Source
open Bindfs.Lib.Effects Bindfs.Lib.OwnedCells

section
variable {W : Type} (host : Host W) (settings : Settings)
variable {α β : Type} {owned : List (Nat × Cell)} {good : α → β → List (Nat × Cell) → Prop}
  {bad : List (Nat × Cell) → Prop}

/-! ## Shared parts -/

theorem runs_readText {p : Nat} {text : CString} (member : (p, .text text) ∈ owned)
    {next : CString → MemSys W α} {plain : Sys W β} (later : Runs owned (next text) plain good bad) :
    Runs owned (readText p >>= next) plain good bad :=
  Runs.loads member rfl later

/-- The pointer that a function returns, or no new cell on an error. -/
def Fetched (owned : List (Nat × Cell)) (p : Nat) (text : CString) (cells : List (Nat × Cell)) : Prop :=
  cells = (p, .text text) :: owned

theorem runs_realpath (path : CString) :
    Runs owned (realpathInMemory host path) (host.callRealpath path) (Fetched owned) (· = owned) := by
  have law := lawful (W := W) (C := SysCall) (E := Errno)
  rw [← bind_pure (host.callRealpath path)]
  refine (Runs.lift _).bind ?_
  rintro result _ _ ⟨rfl, rfl⟩
  exact Runs.acquiresLast fun p => rfl

theorem runs_processPath (path : Option CString) (resolveSymlinks : Bool) :
    Runs owned (processPathInMemory host settings path resolveSymlinks)
      (processPath host settings path resolveSymlinks) (Fetched owned) (· = owned) := by
  unfold processPathInMemory processPath
  cases path with
  | none => exact Runs.fail rfl
  | some path =>
    simp only
    split
    · apply (runs_realpath host (stripSlashes path)).attempted
      · rintro p result _ rfl
        refine runs_readText List.mem_cons_self ?_
        simp only
        split
        · exact Runs.releases (Runs.fail rfl)
        · exact Runs.pure rfl
      · rintro error _ rfl
        cases error with
        | enoent => exact Runs.acquiresLast fun p => rfl
        | _ => exact Runs.fail rfl
    · exact Runs.acquiresLast fun p => rfl

/-- The result of a part is kept while a cell is released, and then returned. -/
theorem runs_releaseAnswer {program : MemSys W α} {plain : Sys W α} {p : Nat} {cell : Cell}
    (first : Runs ((p, cell) :: owned) program plain (Same ((p, cell) :: owned)) (· = (p, cell) :: owned)) :
    Runs ((p, cell) :: owned) (attempt program >>= fun res => release p >>= fun _ => answer res) plain
      (Same owned) (· = owned) := by
  apply first.attemptsLast
  · rintro value _ _ ⟨rfl, rfl⟩
    exact Runs.releases (Runs.pure ⟨rfl, rfl⟩)
  · rintro error _ rfl
    exact Runs.releases (Runs.fail rfl)

theorem runs_blockDeviceAsFile {procpath : Nat} {path : CString} (member : (procpath, .text path) ∈ owned)
    (stbuf : Stat) :
    Runs owned (blockDeviceAsFileInMemory host settings procpath stbuf)
      (blockDeviceAsFile host settings path stbuf) (Same owned) (· = owned) := by
  unfold blockDeviceAsFileInMemory blockDeviceAsFile
  split
  · refine runs_readText member ((Runs.lift _).bind ?_)
    rintro size _ _ ⟨rfl, rfl⟩
    apply Runs.acquires
    intro fd
    split
    · exact Runs.releases (Runs.fail rfl)
    · exact Runs.releases (Runs.pure ⟨rfl, rfl⟩)
  · exact Runs.pure ⟨rfl, rfl⟩

theorem runs_reportFile {procpath : Nat} {path : CString} (member : (procpath, .text path) ∈ owned)
    (stbuf : Stat) :
    Runs owned (reportFileInMemory host settings procpath stbuf) (reportFile host settings path stbuf)
      (Same owned) (· = owned) := by
  refine (runs_blockDeviceAsFile host settings member _).bind ?_
  rintro stbuf _ _ ⟨rfl, rfl⟩
  exact runs_readText member (Runs.lift _)

theorem runs_getattrCommon {procpath : Nat} {path : CString} (member : (procpath, .text path) ∈ owned)
    (fc : FuseContext) (stbuf : Stat) :
    Runs owned (getattrCommonInMemory host settings fc procpath stbuf)
      (getattrCommon host settings fc path stbuf) (Same owned) (· = owned) := by
  unfold getattrCommonInMemory getattrCommon
  cases translateStat settings stbuf with
  | none => exact Runs.fail rfl
  | some translated =>
    simp only
    split
    · exact runs_reportFile host settings member _
    · split
      · exact Runs.pure ⟨rfl, rfl⟩
      · exact runs_reportFile host settings member _

theorem runs_inheritsGroup {path : Nat} {text : CString} (member : (path, .text text) ∈ owned) :
    Runs owned (inheritsGroupInMemory host settings path) (inheritsGroup host settings text)
      (Same owned) (· = owned) := by
  unfold inheritsGroupInMemory inheritsGroup
  cases settings.create_policy with
  | asMounter => exact Runs.pure ⟨rfl, rfl⟩
  | asUser =>
    refine runs_readText member (Runs.acquires fun copy => runs_readText List.mem_cons_self ?_)
    apply (Runs.lift _).attempted
    · rintro stbuf _ _ ⟨rfl, rfl⟩
      exact Runs.releases (Runs.pure ⟨rfl, rfl⟩)
    · rintro error _ rfl
      exact Runs.releases (Runs.pure ⟨rfl, rfl⟩)

theorem runs_chownNewFile {path : Nat} {text : CString} (member : (path, .text text) ∈ owned)
    (fc : FuseContext) (chownFunc : CString → Id → Id → SysCall) :
    Runs owned (chownNewFileInMemory host settings path fc chownFunc)
      (chownNewFile host settings text fc chownFunc) (Same owned) (· = owned) := by
  refine (runs_inheritsGroup host settings member).bind ?_
  rintro setgid _ _ ⟨rfl, rfl⟩
  cases newFileOwner settings fc setgid with
  | none => exact Runs.fail rfl
  | some owner =>
    simp only
    split
    · refine runs_readText member ?_
      apply (Runs.lift _).attempted
      · rintro _ _ _ ⟨rfl, rfl⟩
        exact Runs.pure ⟨rfl, rfl⟩
      · rintro error _ rfl
        exact Runs.pure ⟨rfl, rfl⟩
    · exact Runs.pure ⟨rfl, rfl⟩

/-! ## Deletion -/

theorem runs_deleteThenTry {realPath : Nat} {path : CString} (mainDelete targetDelete : CString → SysCall) :
    Runs [(realPath, .text path)] (deleteThenTryInMemory host realPath mainDelete targetDelete none)
      (deleteThenTry host path mainDelete targetDelete none) (Same []) (· = []) := by
  refine runs_readText List.mem_cons_self ?_
  apply (Runs.lift _).attempts
  · rintro _ _ _ ⟨rfl, rfl⟩
    exact Runs.releases (Runs.pure ⟨rfl, rfl⟩)
  · rintro error _ rfl
    exact Runs.releases (Runs.fail rfl)

theorem runs_deleteThenTry_target {realPath target : Nat} {path text : CString}
    (mainDelete targetDelete : CString → SysCall) :
    Runs [(target, .text text), (realPath, .text path)]
      (deleteThenTryInMemory host realPath mainDelete targetDelete (some target))
      (deleteThenTry host path mainDelete targetDelete (some text)) (Same []) (· = []) := by
  refine Runs.perm (List.Perm.swap _ _ _) (runs_readText List.mem_cons_self ?_)
  apply (Runs.lift _).attempts
  · rintro _ _ _ ⟨rfl, rfl⟩
    refine Runs.releases (runs_readText List.mem_cons_self ?_)
    apply (Runs.lift _).attempted
    · rintro _ _ _ ⟨rfl, rfl⟩
      exact Runs.releasesLast ⟨rfl, rfl⟩
    · rintro error _ rfl
      exact Runs.releasesLast ⟨rfl, rfl⟩
  · rintro error _ rfl
    exact Runs.releases (Runs.releases (Runs.fail rfl))

theorem balanced_deleteFile (path : CString) (targetDelete : CString → SysCall) :
    Balanced (deleteFileInMemory host settings path targetDelete) (deleteFile host settings path targetDelete) := by
  have law := lawful (W := W) (C := SysCall) (E := Errno)
  unfold deleteFileInMemory deleteFile
  split
  · exact Runs.fail rfl
  · refine (runs_processPath host settings _ _).bind ?_
    rintro realPath text _ rfl
    split
    · refine runs_readText List.mem_cons_self ?_
      apply (Runs.lift _).attempts
      · rintro st _ _ ⟨rfl, rfl⟩
        simp only
        split
        · cases settings.resolved_symlink_deletion_policy with
          | deny => exact Runs.releases (Runs.fail rfl)
          | symlinkOnly => exact runs_deleteThenTry host _ _
          | symlinkFirst =>
            simp only [deletionTarget, bind_assoc]
            apply (runs_realpath host text).attempted
            · rintro p target _ rfl
              exact runs_deleteThenTry_target host _ _
            · rintro error _ rfl
              cases error with
              | enoent => exact runs_deleteThenTry host _ _
              | _ => exact Runs.releases (Runs.fail rfl)
          | targetFirst =>
            simp only [deletionTarget, bind_assoc]
            apply (runs_realpath host text).attempted
            · rintro p target _ rfl
              refine runs_readText List.mem_cons_self ?_
              apply (Runs.lift _).attempts
              · rintro _ _ _ ⟨rfl, rfl⟩
                exact Runs.releases (runs_deleteThenTry host _ _)
              · rintro error _ rfl
                exact Runs.releases (Runs.releases (Runs.fail rfl))
            · rintro error _ rfl
              cases error with
              | enoent => exact runs_deleteThenTry host _ _
              | _ => exact Runs.releases (Runs.fail rfl)
        · exact runs_deleteThenTry host _ _
      · rintro error _ rfl
        exact Runs.releases (Runs.fail rfl)
    · exact runs_deleteThenTry host _ _

/-! ## Handlers of one or two paths -/

theorem balanced_pathCall {α : Type} (path : CString) (call : CString → Sys W α) :
    Balanced (pathCallInMemory host settings path call) (processPath host settings (some path) true >>= call) := by
  refine (runs_processPath host settings _ _).bind ?_
  rintro realPath text _ rfl
  refine runs_readText List.mem_cons_self ?_
  exact runs_releaseAnswer (Runs.lift _)

theorem balanced_chmod (path : CString) (mode : Mode) :
    Balanced (bindfsChmodInMemory host settings path mode) (bindfsChmod host settings path mode) := by
  refine (runs_processPath host settings _ _).bind ?_
  rintro realPath text _ rfl
  refine runs_readText List.mem_cons_self ?_
  apply (Runs.lift _).attempts
  · rintro old _ _ ⟨rfl, rfl⟩
    exact runs_releaseAnswer (Runs.lift _)
  · rintro error _ rfl
    exact Runs.releases (Runs.fail rfl)

theorem balanced_chown (path : CString) (uid gid : Id) :
    Balanced (bindfsChownInMemory host settings path uid gid) (bindfsChown host settings path uid gid) := by
  unfold bindfsChownInMemory bindfsChown
  cases chownUid settings uid with
  | error error => exact Runs.fail rfl
  | ok uid =>
    simp only
    cases chownGid settings gid with
    | error error => exact Runs.fail rfl
    | ok gid =>
      simp only
      split
      · exact balanced_pathCall host settings path _
      · exact Runs.pure ⟨rfl, rfl⟩

theorem balanced_getattr (fc : FuseContext) (path : CString) :
    Balanced (bindfsGetattrInMemory host settings fc path) (bindfsGetattr host settings fc path) := by
  refine (runs_processPath host settings _ _).bind ?_
  rintro realPath text _ rfl
  refine runs_readText List.mem_cons_self ?_
  apply (Runs.lift _).attempts
  · rintro stbuf _ _ ⟨rfl, rfl⟩
    exact runs_releaseAnswer (runs_getattrCommon host settings List.mem_cons_self fc stbuf)
  · rintro error _ rfl
    exact Runs.releases (Runs.fail rfl)

theorem balanced_twoPathCall (source dest : CString) (resolveSource : Bool)
    (call : CString → CString → Sys W Unit) :
    Balanced (twoPathCallInMemory host settings source dest resolveSource call)
      (processPath host settings (some source) resolveSource >>= fun realFrom =>
        processPath host settings (some dest) true >>= fun realTo => call realFrom realTo) := by
  refine (runs_processPath host settings _ _).bind ?_
  rintro realFrom source _ rfl
  apply (runs_processPath host settings _ _).attempts
  · rintro realTo dest _ rfl
    refine runs_readText (List.mem_cons_of_mem _ List.mem_cons_self) (runs_readText List.mem_cons_self ?_)
    apply (Runs.lift _).attemptsLast
    · rintro _ _ _ ⟨rfl, rfl⟩
      exact Runs.perm (List.Perm.swap _ _ _) (Runs.releases (Runs.releases (Runs.pure ⟨rfl, rfl⟩)))
    · rintro error _ rfl
      exact Runs.perm (List.Perm.swap _ _ _) (Runs.releases (Runs.releases (Runs.fail rfl)))
  · rintro error _ rfl
    exact Runs.releases (Runs.fail rfl)

/-! ## Creation -/

theorem balanced_creation (fc : FuseContext) (path : CString) (resolveSymlinks : Bool)
    (create : CString → SysCall) (chownFunc : CString → Id → Id → SysCall) :
    Balanced (creationInMemory host settings fc path resolveSymlinks create chownFunc)
      (processPath host settings (some path) resolveSymlinks >>= fun realPath =>
        host.issue (create realPath) >>= fun _ => chownNewFile host settings realPath fc chownFunc) := by
  refine (runs_processPath host settings _ _).bind ?_
  rintro realPath text _ rfl
  refine runs_readText List.mem_cons_self ?_
  apply (Runs.lift _).attempts
  · rintro _ _ _ ⟨rfl, rfl⟩
    exact runs_releaseAnswer (runs_chownNewFile host settings List.mem_cons_self fc chownFunc)
  · rintro error _ rfl
    exact Runs.releases (Runs.fail rfl)

theorem balanced_create (fc : FuseContext) (path : CString) (flags : OpenFlags) (mode : Mode) :
    Balanced (bindfsCreateInMemory host settings fc path flags mode)
      (bindfsCreate host settings fc path flags mode) := by
  refine (runs_processPath host settings _ _).bind ?_
  rintro realPath text _ rfl
  refine runs_readText List.mem_cons_self ?_
  apply (Runs.lift _).attempts
  · rintro fd _ _ ⟨rfl, rfl⟩
    apply (runs_chownNewFile host settings List.mem_cons_self fc .chown).attempted
    · rintro _ _ _ ⟨rfl, rfl⟩
      exact Runs.releases (Runs.pure ⟨rfl, rfl⟩)
    · rintro error _ rfl
      exact Runs.releases (Runs.pure ⟨rfl, rfl⟩)
  · rintro error _ rfl
    exact Runs.releases (Runs.fail rfl)

/-! ## Directories -/

/-- The path buffer with its string, if there is one, beside other cells. -/
def buffered (pathBuf : Option Nat) (text : CString) (owned : List (Nat × Cell)) : List (Nat × Cell) :=
  match pathBuf with
  | some p => (p, .text text) :: owned
  | none => owned

theorem mem_buffered {pathBuf : Option Nat} {text : CString} {cell : Nat × Cell} (member : cell ∈ owned) :
    cell ∈ buffered pathBuf text owned := by
  cases pathBuf with
  | none => exact member
  | some p => exact List.mem_cons_of_mem _ member

theorem runs_entryStat {p : Nat} {path : CString} (de : Dirent) :
    Runs ((p, .text path) :: owned) (entryStatInMemory host settings (some p) de) (entryStat host settings path de)
      (Same ((p, .text path) :: owned)) (· = (p, .text path) :: owned) := by
  unfold entryStatInMemory entryStat
  split
  · refine runs_readText List.mem_cons_self ?_
    apply (runs_realpath host path).attempted
    · rintro resolved target _ rfl
      refine runs_readText List.mem_cons_self ?_
      exact runs_releaseAnswer (Runs.lift _)
    · rintro error _ rfl
      exact runs_readText List.mem_cons_self (Runs.lift _)
  · exact runs_readText List.mem_cons_self (Runs.lift _)

/-- One entry. An error leaves its name in the buffer. -/
theorem runs_readdirEntry (fc : FuseContext) {readdirplus : Bool} {pathBuf : Option Nat}
    (needed : (settings.resolve_symlinks || readdirplus) = true → ∃ p, pathBuf = some p) (realPath : CString)
    (de : Dirent) :
    Runs (buffered pathBuf (realPath ++ ['/']) owned)
      (readdirEntryInMemory host settings fc readdirplus pathBuf de)
      (readdirEntry host settings fc readdirplus realPath de)
      (Same (buffered pathBuf (realPath ++ ['/']) owned))
      (fun cells => ∃ text, cells = buffered pathBuf text owned) := by
  unfold readdirEntryInMemory readdirEntry
  split
  · rename_i looked
    obtain ⟨p, rfl⟩ := needed (by
      rcases Bool.or_eq_true_iff.mp looked with link | plus
      · rw [(Bool.and_eq_true_iff.mp link).1, Bool.true_or]
      · rw [plus, Bool.or_true])
    have joined : realPath ++ '/' :: de.d_name = realPath ++ ['/'] ++ de.d_name := by simp
    simp only [joined]
    refine runs_readText List.mem_cons_self (Runs.stores ?_)
    -- Whatever fails from here on leaves the name in the buffer.
    have left : ∀ cells, cells = (p, Cell.text (realPath ++ ['/'] ++ de.d_name)) :: owned →
        ∃ text, cells = buffered (some p) text owned := fun cells same => ⟨_, same⟩
    refine ((runs_entryStat host settings de).weaken left).bind ?_
    rintro st _ _ ⟨rfl, rfl⟩
    split
    · refine ((runs_getattrCommon host settings List.mem_cons_self fc st).weaken left).bind ?_
      rintro st _ _ ⟨rfl, rfl⟩
      exact Runs.stores (Runs.pure ⟨rfl, rfl⟩)
    · exact Runs.stores (Runs.pure ⟨rfl, rfl⟩)
  · exact Runs.pure ⟨rfl, rfl⟩

/-- The loop ends with some string in the buffer. -/
def LoopEnds (pathBuf : Option Nat) (owned : List (Nat × Cell)) (reply reply' : ReaddirReply)
    (cells : List (Nat × Cell)) : Prop :=
  reply = reply' ∧ ∃ text, cells = buffered pathBuf text owned

theorem runs_readStream {dp : Nat} (open_ : (dp, .stream) ∈ owned) {next : MemSys W α} {plain : Sys W β}
    (later : Runs owned next plain good bad) : Runs owned (readStream dp >>= fun _ => next) plain good bad :=
  Runs.loads open_ rfl later

theorem runs_readdirLoop (fc : FuseContext) {readdirplus : Bool} {dp : Nat} {pathBuf : Option Nat}
    (opened : (dp, .stream) ∈ owned)
    (needed : (settings.resolve_symlinks || readdirplus) = true → ∃ p, pathBuf = some p) (realPath : CString)
    (filler : Filled → Except Errno Unit) (atEnd : Except Errno Unit) (entries : List Dirent) :
    Runs (buffered pathBuf (realPath ++ ['/']) owned)
      (readdirLoopInMemory host settings fc readdirplus dp pathBuf filler atEnd entries)
      (readdirLoop host settings fc readdirplus realPath filler atEnd entries)
      (LoopEnds pathBuf owned) (· = []) := by
  induction entries with
  | nil => exact runs_readStream (mem_buffered opened) (Runs.pure ⟨rfl, _, rfl⟩)
  | cons de rest ih =>
    refine runs_readStream (mem_buffered opened) ?_
    apply (runs_readdirEntry host settings fc needed realPath de).attempted
    · rintro entry _ _ ⟨rfl, rfl⟩
      simp only
      cases filler entry with
      | error error => exact Runs.pure ⟨rfl, _, rfl⟩
      | ok =>
        refine ih.bind ?_
        rintro more _ _ ⟨rfl, text, rfl⟩
        exact Runs.pure ⟨rfl, text, rfl⟩
    · rintro error _ ⟨text, rfl⟩
      exact Runs.pure ⟨rfl, text, rfl⟩

/-- From the path buffer on. -/
theorem runs_readOpened (fc : FuseContext) (filler : Filled → Except Errno Unit) (readdirplus : Bool)
    {dp realPath : Nat} (text : CString) (listing : Listing) :
    Runs [(dp, .stream), (realPath, .text text)]
      (openPathBuffer settings readdirplus realPath >>= fun pathBuf => release realPath >>= fun _ =>
        readdirLoopInMemory host settings fc readdirplus dp pathBuf filler listing.atEnd listing.entries >>=
          fun reply => freePathBuffer settings readdirplus pathBuf >>= fun _ => release dp >>= fun _ => pure reply)
      (readdirLoop host settings fc readdirplus text filler listing.atEnd listing.entries) (Same []) (· = []) := by
  have law := lawful (W := W) (C := SysCall) (E := Errno)
  have law' := lawful (W := W × Heap Cell) (C := SysCall) (E := Errno)
  have opened : (dp, Cell.stream) ∈ [(dp, Cell.stream)] := List.mem_singleton_self _
  rw [← bind_pure (readdirLoop host settings fc readdirplus text filler listing.atEnd listing.entries)]
  unfold openPathBuffer freePathBuffer
  by_cases looked : (settings.resolve_symlinks || readdirplus) = true
  · simp only [if_pos looked, bind_assoc, pure_bind]
    refine runs_readText (List.mem_cons_of_mem _ List.mem_cons_self) (Runs.acquires fun pathBuf => ?_)
    refine Runs.perm (List.perm_append_singleton (realPath, _) [(pathBuf, _), (dp, _)]) (Runs.releases ?_)
    refine (runs_readdirLoop host settings fc opened (fun _ => ⟨pathBuf, rfl⟩) text filler _ _).bind ?_
    rintro reply _ _ ⟨rfl, text, rfl⟩
    exact Runs.releases (Runs.releases (Runs.pure ⟨rfl, rfl⟩))
  · simp only [if_neg looked, pure_bind]
    refine Runs.perm (List.Perm.swap _ _ _) (Runs.releases ?_)
    have needed : (settings.resolve_symlinks || readdirplus) = true → ∃ p, (none : Option Nat) = some p :=
      fun needed => absurd needed looked
    refine (runs_readdirLoop host settings fc opened needed text filler _ _).bind ?_
    rintro reply _ _ ⟨rfl, text, rfl⟩
    exact Runs.releases (Runs.pure ⟨rfl, rfl⟩)

/-- What pathconf(3) answers is not passed on. -/
theorem runs_pathconf (path : CString) :
    Runs owned (lift (ask (.pathconf path) fun _ => .ok () : Sys W Unit)) (ask (.pathconf path) fun _ => .ok ())
      (Same owned) bad :=
  Runs.liftCases (fun _ _ _ => ⟨rfl, rfl⟩) nofun

theorem balanced_readdir (fc : FuseContext) (path : CString) (filler : Filled → Except Errno Unit)
    (readdirplus : Bool) :
    Balanced (bindfsReaddirInMemory host settings fc path filler readdirplus)
      (bindfsReaddir host settings fc path filler readdirplus) := by
  unfold bindfsReaddirInMemory bindfsReaddir openDirectory
  rw [attempt_bind]
  apply (runs_processPath host settings _ _).attempted
  · rintro realPath text _ rfl
    refine runs_readText List.mem_cons_self ?_
    simp only
    rw [attempt_bind]
    apply (Runs.lift _).attempted
    · rintro listing _ _ ⟨rfl, rfl⟩
      apply Runs.acquires
      intro dp
      simp only [attempt_pure]
      refine (runs_pathconf text).bind ?_
      rintro _ _ _ ⟨rfl, rfl⟩
      exact runs_readOpened host settings fc filler readdirplus text listing
    · rintro error _ rfl
      exact Runs.releases (Runs.pure ⟨rfl, rfl⟩)
  · rintro error _ rfl
    exact Runs.pure ⟨rfl, rfl⟩

/-! ## Transfers -/

/-- The mapping is at least as large as the transfer. -/
theorem le_roundUpBufferSize (aligned : settings.odirect_alignment ≠ 0) (size : Nat) :
    size ≤ roundUpBufferSizeForDirectIo settings size := by
  have below := Nat.mod_lt size (Nat.pos_of_ne_zero aligned)
  unfold roundUpBufferSizeForDirectIo
  simp only
  split
  · exact Nat.le_refl _
  · omega

/-- pread(2) delivers no more than it was asked for. -/
def ReadsWithin (host : Host W) : Prop :=
  ∀ world fd size offset data world', host.descriptor world (.pread fd size offset) = .ok (data, world') →
    data.length ≤ size

theorem runs_pread (within : ReadsWithin host) (fd size : Nat) (offset : Int) :
    Runs owned (lift (host.callDescriptor (.pread fd size offset))) (host.callDescriptor (.pread fd size offset))
      (fun data data' cells => Same owned data data' cells ∧ data.length ≤ size) (· = owned) := by
  refine Runs.liftCases (fun world data returned => ⟨⟨rfl, rfl⟩, ?_⟩) fun _ _ _ => rfl
  cases read : host.descriptor world (.pread fd size offset) with
  | error error =>
    rw [Host.callDescriptor, exec_call_error _ read] at returned
    cases returned
  | ok pair =>
    obtain ⟨value, world'⟩ := pair
    rw [Host.callDescriptor, exec_call_ok _ read] at returned
    cases returned
    exact within world fd size offset _ world' read

/-- A copy of so many bytes out of a buffer that has them. -/
theorem bytes?_of_le {count : Nat} {content : List UInt8} (enough : count ≤ content.length) :
    Cell.bytes? count (.bytes content) = some (content.take count) :=
  if_pos enough

theorem overwrite?_of_le {data content : List UInt8} (enough : data.length ≤ content.length) :
    Cell.overwrite? data (.bytes content) = some (data ++ content.drop data.length) :=
  if_pos enough

theorem length_overwritten {data content : List UInt8} (enough : data.length ≤ content.length) :
    (data ++ content.drop data.length).length = content.length := by
  rw [List.length_append, List.length_drop]
  omega

theorem balanced_read (aligned : settings.forward_odirect = true → settings.odirect_alignment ≠ 0)
    (within : ReadsWithin host) (fd : Nat) (flags : OpenFlags) (size : Nat) (offset : Int) :
    Balanced (bindfsReadInMemory host settings fd flags size offset)
      (bindfsRead host settings fd flags size offset) := by
  have law := lawful (W := W) (C := SysCall) (E := Errno)
  have law' := lawful (W := W × Heap Cell) (C := SysCall) (E := Errno)
  unfold bindfsReadInMemory bindfsRead directIoBuffer
  by_cases direct : flags &&& O_DIRECT ≠ 0#32 ∧ settings.forward_odirect = true
  · have mapped : size ≤ (List.replicate (roundUpBufferSizeForDirectIo settings size) (0 : UInt8)).length := by
      rw [List.length_replicate]
      exact le_roundUpBufferSize settings (aligned direct.2) size
    simp only [if_pos direct]
    split
    · rw [pure_bind]
      refine Runs.acquires fun targetBuf => ?_
      apply (runs_pread host within fd size offset).attemptsLast
      · rintro data _ _ ⟨⟨rfl, rfl⟩, fits⟩
        have room := fits.trans mapped
        simp only [readInto, bind_assoc]
        refine Runs.loads List.mem_cons_self (overwrite?_of_le room) (Runs.stores ?_)
        refine Runs.loads List.mem_cons_self (bytes?_of_le ?_) (Runs.releases (Runs.pure ⟨?_, rfl⟩))
        · rw [length_overwritten room]
          exact mapped
        · change List.take data.length (List.take size (data ++ _)) = data
          rw [List.take_take, Nat.min_eq_left fits, List.take_left]
      · rintro error _ rfl
        simp only [readInto, pure_bind]
        exact Runs.loads List.mem_cons_self (bytes?_of_le mapped) (Runs.releases (Runs.fail rfl))
    · exact Runs.fail rfl
  · simp only [if_neg direct]
    rw [pure_bind]
    exact Runs.lift _

theorem balanced_write (aligned : settings.forward_odirect = true → settings.odirect_alignment ≠ 0)
    (fd : Nat) (flags : OpenFlags) (data : List UInt8) (offset : Int) :
    Balanced (bindfsWriteInMemory host settings fd flags data offset)
      (bindfsWrite host settings fd flags data offset) := by
  have law := lawful (W := W) (C := SysCall) (E := Errno)
  unfold bindfsWriteInMemory bindfsWrite directIoBuffer
  by_cases direct : flags &&& O_DIRECT ≠ 0#32 ∧ settings.forward_odirect = true
  · have mapped : data.length ≤
        (List.replicate (roundUpBufferSizeForDirectIo settings data.length) (0 : UInt8)).length := by
      rw [List.length_replicate]
      exact le_roundUpBufferSize settings (aligned direct.2) data.length
    simp only [if_pos direct]
    split
    · rw [pure_bind]
      refine Runs.acquires fun sourceBuf => ?_
      refine Runs.loads List.mem_cons_self (overwrite?_of_le mapped) (Runs.stores ?_)
      have filled : data.length ≤ (data ++ (List.replicate
          (roundUpBufferSizeForDirectIo settings data.length) (0 : UInt8)).drop data.length).length := by
        rw [length_overwritten mapped]
        exact mapped
      refine Runs.loads List.mem_cons_self (bytes?_of_le filled) ?_
      rw [List.take_left]
      exact runs_releaseAnswer (Runs.lift _)
    · exact Runs.fail rfl
  · simp only [if_neg direct]
    rw [pure_bind]
    exact Runs.lift _

/-! ## Requests -/

/-- What a handler answers is wrapped into a reply. -/
theorem balanced_reply {program : MemSys W α} {plain : Sys W α} (balanced : Balanced program plain)
    (wrap : α → Reply) :
    Balanced (program >>= fun value => pure (wrap value)) (plain >>= fun value => pure (wrap value)) := by
  refine Runs.bind balanced ?_
  rintro value _ _ ⟨rfl, rfl⟩
  exact Runs.pure ⟨rfl, rfl⟩

theorem balanced_whenInstalled (installed : Bool) {program : MemSys W α} {plain : Sys W α}
    (balanced : Balanced program plain) :
    Balanced (whenInstalledInMemory installed program) (whenInstalled installed plain) := by
  cases installed with
  | true => exact balanced
  | false => exact Runs.fail rfl

/-- A policy that refuses does so before anything is acquired. -/
theorem balanced_unless {refused : Prop} [Decidable refused] (error : Errno) {program : MemSys W α}
    {plain : Sys W α} (balanced : Balanced program plain) :
    Balanced (if refused then fail error else program) (if refused then fail error else plain) := by
  split
  · exact Runs.fail rfl
  · exact balanced

theorem balanced_readdirRequest (fc : FuseContext) (path : CString) (filler : Filled → Except Errno Unit)
    (readdirplus : Bool) :
    Balanced (bindfsReaddirInMemory host settings fc path filler readdirplus >>= fun reply =>
        answer (reply.result.map fun _ => reply.filled))
      (readdirRequest host settings fc path filler readdirplus) := by
  refine Runs.bind (balanced_readdir host settings fc path filler readdirplus) ?_
  rintro reply _ _ ⟨rfl, rfl⟩
  unfold answerEntries
  cases reply.result with
  | ok => exact Runs.pure ⟨rfl, rfl⟩
  | error error => exact Runs.fail rfl

theorem balanced_serve (aligned : settings.forward_odirect = true → settings.odirect_alignment ≠ 0)
    (within : ReadsWithin host) (fc : FuseContext) (request : Request) :
    Balanced (serveInMemory host settings fc request) (serve host settings fc request) := by
  have law' := lawful (W := W × Heap Cell) (C := SysCall) (E := Errno)
  have onPath {α : Type} (path : CString) (call : CString → Sys W α) := balanced_pathCall host settings path call
  cases request with
  | getattr => exact balanced_reply (balanced_getattr host settings fc _) _
  | readlink | statfs | openFile | truncate | utimens => exact balanced_reply (onPath _ _) _
  | readdir path filler readdirplus =>
    simp only [serveInMemory, ← bind_assoc]
    exact balanced_reply (balanced_readdirRequest host settings fc path filler readdirplus) _
  | mknod | mkdir => exact balanced_reply (balanced_creation host settings fc _ _ _ _) _
  | symlink => exact balanced_reply (balanced_unless _ (balanced_creation host settings fc _ _ _ _)) _
  | unlink | rmdir => exact balanced_reply (balanced_deleteFile host settings _ _) _
  | rename => exact balanced_reply (balanced_unless _ (balanced_twoPathCall host settings _ _ _ _)) _
  | link => exact balanced_reply (balanced_twoPathCall host settings _ _ _ _) _
  | chmod => exact balanced_reply (balanced_chmod host settings _ _) _
  | chown => exact balanced_reply (balanced_chown host settings _ _ _) _
  | create => exact balanced_reply (balanced_create host settings fc _ _ _) _
  | getxattr | listxattr => exact balanced_whenInstalled _ (balanced_reply (onPath _ _) _)
  | setxattr | removexattr =>
    exact balanced_whenInstalled _ (balanced_reply (balanced_unless _ (onPath _ _)) _)
  | read => exact balanced_reply (balanced_read host settings aligned within _ _ _ _) _
  | write => exact balanced_reply (balanced_write host settings aligned _ _ _ _) _
  | lock | flock | ioctl | fsync | release => exact Runs.lift _

end

end Bindfs.Source
