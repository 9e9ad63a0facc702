import Bindfs.Guarantees.PathComponents
import Bindfs.Guarantees.Policies

/-!
# A mount works below its source directory

The source directory is the working directory of a mount, and `walk` reads a relative path from
there: how deep below the source it leads, if it never leaves it. This is about the text of paths;
symbolic links are not followed here, to the host's calls they are part of its answers.

The kernel sends paths without `..`. Without `--resolve-symlinks` no call of any request is then
made on an absolute path or on one that leads out of the source directory
(`calls_stay_below_source`). There are two exceptions, in which the parent of the source directory
is looked at (`LooksUp`): when `..` of the source itself is listed with attributes, and when the
source itself has been created for its caller.
-/
namespace Bindfs.Guarantees.Confinement
open Bindfs.Source Bindfs.Lib.Effects Bindfs.Lib.Moves Bindfs.Guarantees.PathComponents
open Bindfs.Guarantees.Policies Relation

/-! ## Where a path leads -/

def dot : CString := ['.']

def dotDot : CString := ['.', '.']

/-- How deep a walk ends that starts at a depth; `none` once it leaves the start of all. -/
def walk : Nat → List CString → Option Nat
  | depth, [] => some depth
  | depth, name :: rest =>
    if name = dot then walk depth rest
    else if name = dotDot then
      match depth with
      | 0 => none
      | depth + 1 => walk depth rest
    else walk (depth + 1) rest

def Relative (path : CString) : Prop := path.head? ≠ some '/'

instance (path : CString) : Decidable (Relative path) := inferInstanceAs (Decidable (path.head? ≠ some '/'))

/-- A path in the source directory. -/
structure Inside (path : CString) : Prop where
  relative : Relative path
  walks : (walk 0 (components path)).isSome = true

/-- The source directory itself. -/
def AtSource (path : CString) : Prop := ∀ name ∈ components path, name = dot

instance (path : CString) : Decidable (AtSource path) :=
  inferInstanceAs (Decidable (∀ name ∈ components path, name = dot))

/-- The directory that holds the source directory. -/
structure SourceParent (path : CString) : Prop where
  relative : Relative path
  leads : ∃ dots, (∀ name ∈ dots, name = dot) ∧ components path = dots ++ [dotDot]

/-- Without `..`, as the kernel sends paths. -/
def Straight (path : CString) : Prop := dotDot ∉ components path

instance (path : CString) : Decidable (Straight path) := inferInstanceAs (Decidable (dotDot ∉ components path))

theorem walk_append (first second : List CString) (depth : Nat) :
    walk depth (first ++ second) = (walk depth first).bind fun depth => walk depth second := by
  induction first generalizing depth with
  | nil => rfl
  | cons name rest ih =>
    simp only [List.cons_append, walk]
    split
    · exact ih depth
    · split
      · cases depth with
        | zero => rfl
        | succ depth => exact ih depth
      · exact ih (depth + 1)

/-- A walk without `..` never turns back. -/
theorem walk_straight {names : List CString} (straight : dotDot ∉ names) (depth : Nat) :
    ∃ more, walk depth names = some (depth + more) ∧ (more = 0 → ∀ name ∈ names, name = dot) := by
  induction names generalizing depth with
  | nil => exact ⟨0, rfl, fun _ => nofun⟩
  | cons name rest ih =>
    obtain ⟨other, straight⟩ := List.ne_and_not_mem_of_not_mem_cons straight
    simp only [walk]
    by_cases stays : name = dot
    · obtain ⟨more, walked, dots⟩ := ih straight depth
      rw [if_pos stays]
      exact ⟨more, walked, fun none => List.forall_mem_cons.mpr ⟨stays, dots none⟩⟩
    · obtain ⟨more, walked, -⟩ := ih straight (depth + 1)
      rw [if_neg stays, if_neg (Ne.symm other)]
      refine ⟨more + 1, ?_, fun none => absurd none (Nat.succ_ne_zero _)⟩
      rw [walked, Nat.add_right_comm, Nat.add_assoc]

theorem inside_of_straight {path : CString} (relative : Relative path) (straight : Straight path) : Inside path := by
  obtain ⟨more, walked, -⟩ := walk_straight straight 0
  exact ⟨relative, by rw [walked]; rfl⟩

/-! ## The paths of the handlers -/

theorem components_dropWhile (path : CString) : components (path.dropWhile (· = '/')) = components path := by
  induction path with
  | nil => rfl
  | cons c rest ih =>
    by_cases slash : c = '/'
    · rw [List.dropWhile_cons_of_pos (by simpa using slash), ih, slash, components_slash]
    · rw [List.dropWhile_cons_of_neg (by simpa using slash)]

theorem stripSlashes_spec (path : CString) :
    ∃ c rest, stripSlashes path = c :: rest ∧ c ≠ '/' ∧
      (components (stripSlashes path) = components path ∨ stripSlashes path = dot) := by
  unfold stripSlashes
  cases stripped : path.dropWhile (· = '/') with
  | nil => exact ⟨'.', [], rfl, by decide, Or.inr rfl⟩
  | cons c rest =>
    refine ⟨c, rest, rfl, ?_, Or.inl ?_⟩
    · have first := List.head?_dropWhile_not (· = '/') path
      rw [stripped] at first
      simpa using first
    · change components (c :: rest) = components path
      rw [← stripped, components_dropWhile]

theorem atSource_of_stripSlashes {path : CString} (source : AtSource (stripSlashes path)) : AtSource path := by
  unfold stripSlashes at source
  cases stripped : path.dropWhile (· = '/') with
  | nil =>
    rw [AtSource, ← components_dropWhile, stripped]
    nofun
  | cons c rest =>
    rw [stripped] at source
    rw [AtSource, ← components_dropWhile, stripped]
    exact source

/-- What `process_path` makes of a path of the kernel. -/
structure Processed (path : CString) : Prop where
  nonempty : path ≠ []
  relative : Relative path
  straight : Straight path

theorem processed_stripSlashes {path : CString} (straight : Straight path) : Processed (stripSlashes path) := by
  obtain ⟨c, rest, stripped, other, same⟩ := stripSlashes_spec path
  refine ⟨by simp [stripped], by simpa [Relative, stripped] using other, ?_⟩
  rcases same with same | same
  · rw [Straight, same]
    exact straight
  · rw [same]
    decide

theorem Processed.inside {path : CString} (processed : Processed path) : Inside path :=
  inside_of_straight processed.relative processed.straight

/-- The path of a directory entry leads out only as the `..` of the source directory. -/
theorem entry_inside_or_parent {path name : CString} (processed : Processed path) (noSlash : '/' ∉ name) :
    Inside (path ++ '/' :: name) ∨ (AtSource path ∧ SourceParent (path ++ '/' :: name)) := by
  have relative : Relative (path ++ '/' :: name) := by
    obtain ⟨c, rest, rfl⟩ := List.exists_cons_of_ne_nil processed.nonempty
    exact processed.relative
  have cut := components_cut path name
  by_cases up : name = dotDot
  · have leads : components (path ++ '/' :: name) = components path ++ [dotDot] := by
      rw [cut, up]
      rfl
    obtain ⟨depth, walked, dots⟩ := walk_straight processed.straight 0
    cases depth with
    | zero => exact Or.inr ⟨dots rfl, relative, _, dots rfl, leads⟩
    | succ depth =>
      refine Or.inl ⟨relative, ?_⟩
      rw [leads, walk_append, walked, Nat.zero_add]
      rfl
  · refine Or.inl (inside_of_straight relative ?_)
    rw [Straight, cut, List.mem_append, not_or]
    refine ⟨processed.straight, ?_⟩
    by_cases empty : name = []
    · rw [empty]
      decide
    · rw [components_name noSlash empty, List.mem_singleton]
      exact Ne.symm up

/-- The directory of a path leads out only for the source directory itself. -/
theorem dirname_inside_or_parent {path : CString} (processed : Processed path) :
    Inside (myDirname path) ∨ (AtSource path ∧ SourceParent (myDirname path)) := by
  unfold myDirname
  by_cases here : path = ['.']
  · rw [if_pos here, here]
    exact Or.inr ⟨by decide, by decide, [], nofun, by decide⟩
  · obtain ⟨c, rest, rfl⟩ := List.exists_cons_of_ne_nil processed.nonempty
    have other : c ≠ '/' := by simpa [Relative] using processed.relative
    rw [if_neg here, if_neg (by simp [other]), List.tail_cons]
    left
    cases found : findLastCharBetween '/' rest with
    | none =>
      simp only [List.head?_cons, Option.some.injEq, if_neg other]
      exact ⟨by decide, by decide⟩
    | some i =>
      obtain ⟨before, after, rfl, rfl, -⟩ := findLastCharBetween_some found
      have front : (c :: (before ++ '/' :: after)).take (before.length + 1) = c :: before := by simp
      dsimp only
      rw [front]
      refine inside_of_straight (by simpa [Relative] using other) ?_
      have straight := processed.straight
      rw [Straight, ← List.cons_append, components_cut, List.mem_append, not_or] at straight
      exact straight.1

/-! ## Calls -/

/-- Calls that only look at a file. -/
def looks : SysCall → Bool
  | .lstat _ | .access _ _ | .blockSize _ => true
  | _ => false

/-- Every operand is in the source directory; only if `up` holds may its parent be looked at. -/
def StaysBelow (up : Prop) (c : SysCall) : Prop :=
  ∀ operand ∈ c.operands, Inside operand.1 ∨ (up ∧ looks c = true ∧ SourceParent operand.1)

section
variable {up : Prop}

theorem StaysBelow.mono {up' : Prop} {c : SysCall} (below : StaysBelow up c) (implies : up → up') :
    StaysBelow up' c :=
  fun operand member => (below operand member).imp id fun parent => ⟨implies parent.1, parent.2⟩

theorem staysBelow_of_inside {c : SysCall} (inside : ∀ operand ∈ c.operands, Inside operand.1) :
    StaysBelow up c :=
  fun operand member => Or.inl (inside operand member)

theorem staysBelow_single {c : SysCall} {path : CString} {follow : Bool} (operands : c.operands = [(path, follow)])
    (processed : Processed path) : StaysBelow up c := by
  apply staysBelow_of_inside
  rw [operands]
  exact List.forall_mem_singleton.mpr processed.inside

theorem staysBelow_look {c : SysCall} {path : CString} {follow : Bool} (operands : c.operands = [(path, follow)])
    (looking : looks c = true) (leads : Inside path ∨ (up ∧ SourceParent path)) : StaysBelow up c := by
  intro operand member
  rw [operands, List.mem_singleton] at member
  rw [member]
  exact leads.imp id fun parent => ⟨parent.1, looking, parent.2⟩

theorem staysBelow_descriptor (c : FdCall) : StaysBelow up (.descriptor c) := nofun

end

section
variable {W : Type} {host : Host W} {settings : Settings} {up : Prop}

/-- What readdir(3) says of names. -/
def EntryNames (host : Host W) : Prop :=
  ∀ world path listing, host.opendir world path = .ok listing → ∀ de ∈ listing.entries, '/' ∉ de.d_name

/-- A handler that acts on its path. -/
theorem below_located {α : Type} (off : settings.resolve_symlinks = false) {path : CString} {resolve : Bool}
    {next : CString → Sys W α} (straight : Straight path)
    (rest : Processed (stripSlashes path) → Licit host.Moves (StaysBelow up) (next (stripSlashes path))) :
    Licit host.Moves (StaysBelow up) (processPath host settings (some path) resolve >>= next) := by
  have plain : processPath host settings (some path) resolve = pure (stripSlashes path) := by
    simp [processPath, off]
  rw [plain]
  exact rest (processed_stripSlashes straight)

theorem below_getattrCommon (fc : FuseContext) {procpath : CString}
    (leads : Inside procpath ∨ (up ∧ SourceParent procpath)) (stbuf : Stat) :
    Licit host.Moves (StaysBelow up) (getattrCommon host settings fc procpath stbuf) := by
  intro world
  refine ⟨fun entry issued => ?_, by rw [world_getattrCommon]⟩
  obtain ⟨-, called | ⟨kind, called⟩⟩ := calls_getattrCommon host settings fc procpath stbuf world issued
  · rw [called]
    exact staysBelow_look rfl rfl leads
  · rw [called]
    exact staysBelow_look rfl rfl leads

theorem below_chownNewFile {path : CString} (processed : Processed path)
    (allowed : AtSource path → settings.create_policy = .asUser → up) (fc : FuseContext)
    {chownFunc : CString → Id → Id → SysCall} {follow : Bool}
    (operands : ∀ owner group, (chownFunc path owner group).operands = [(path, follow)]) :
    Licit host.Moves (StaysBelow up) (chownNewFile host settings path fc chownFunc) := by
  have parent : Licit host.Moves (StaysBelow up) (inheritsGroup host settings path) := by
    unfold inheritsGroup
    split
    · rename_i asUser
      have leads := (dirname_inside_or_parent processed).imp id
        fun parent => And.intro (allowed parent.1 asUser) parent.2
      refine (Licit.ask _ (staysBelow_look rfl rfl leads)).attempt.bind fun answer => ?_
      split
      · exact Licit.pure _
      · exact Licit.pure _
    · exact Licit.pure _
  refine parent.bind fun setgid => ?_
  split
  · exact Licit.fail _
  · split
    · exact (licit_issue (staysBelow_single (operands ..) processed)).attempt.bind fun _ => Licit.pure _
    · exact Licit.pure _

theorem below_deleteFile (off : settings.resolve_symlinks = false) {path : CString} (straight : Straight path)
    {targetDelete : CString → SysCall} (operands : ∀ path, (targetDelete path).operands = [(path, false)]) :
    Licit host.Moves (StaysBelow up) (deleteFile host settings path targetDelete) := by
  unfold deleteFile
  split
  · exact Licit.fail _
  · refine below_located off straight fun processed => ?_
    rw [if_neg (by simp [off])]
    exact (licit_issue (staysBelow_single (operands _) processed)).bind fun _ => Licit.pure _

/-! ## Directories -/

theorem below_readdirEntry (off : settings.resolve_symlinks = false) (fc : FuseContext) (readdirplus : Bool)
    {realPath : CString} (processed : Processed realPath) (allowed : AtSource realPath → readdirplus = true → up)
    {de : Dirent} (noSlash : '/' ∉ de.d_name) :
    Licit host.Moves (StaysBelow up) (readdirEntry host settings fc readdirplus realPath de) := by
  unfold readdirEntry
  split
  · rename_i attributes
    have plus : readdirplus = true := by simpa [off] using attributes
    have leads := (entry_inside_or_parent processed noSlash).imp id
      fun parent => And.intro (allowed parent.1 plus) parent.2
    have looked : Licit host.Moves (StaysBelow up) (entryStat host settings (realPath ++ '/' :: de.d_name) de) := by
      unfold entryStat
      rw [if_neg (by simp [off])]
      exact Licit.ask _ (staysBelow_look rfl rfl leads)
    refine looked.bind fun st => ?_
    rw [if_pos plus]
    exact (below_getattrCommon fc leads st).bind fun _ => Licit.pure _
  · exact Licit.pure _

theorem below_readdirLoop (off : settings.resolve_symlinks = false) (fc : FuseContext) (readdirplus : Bool)
    {realPath : CString} (processed : Processed realPath) (allowed : AtSource realPath → readdirplus = true → up)
    (filler : Filled → Except Errno Unit) (atEnd : Except Errno Unit) {entries : List Dirent}
    (noSlash : ∀ de ∈ entries, '/' ∉ de.d_name) :
    Licit host.Moves (StaysBelow up) (readdirLoop host settings fc readdirplus realPath filler atEnd entries) := by
  induction entries with
  | nil => exact Licit.pure _
  | cons de rest ih =>
    obtain ⟨first, later⟩ := List.forall_mem_cons.mp noSlash
    refine (below_readdirEntry off fc readdirplus processed allowed first).attempt.bind fun answer => ?_
    split
    · exact Licit.pure _
    · split
      · exact Licit.pure _
      · exact (ih later).bind fun _ => Licit.pure _

/-- The directory that was opened, and what it lists. -/
theorem openDirectory_ok (off : settings.resolve_symlinks = false) {path realPath : CString} {listing : Listing}
    {world : W} (opened : ((openDirectory host settings path).exec world).result = .ok (realPath, listing)) :
    realPath = stripSlashes path ∧ host.opendir world (stripSlashes path) = .ok listing := by
  simp only [openDirectory, processPath, off, Bool.and_false, Bool.false_eq_true, if_false, exec_bind, exec_pure,
    andThen_ok, Host.exec_callOpendir, result_after] at opened
  cases answer : host.opendir world (stripSlashes path) with
  | error error =>
    rw [answer] at opened
    cases opened
  | ok found =>
    rw [answer] at opened
    cases opened
    exact ⟨rfl, rfl⟩

theorem below_readdirRequest (off : settings.resolve_symlinks = false) (names : EntryNames host) (fc : FuseContext)
    {path : CString} (straight : Straight path) (filler : Filled → Except Errno Unit) (readdirplus : Bool)
    (allowed : AtSource path → readdirplus = true → up) :
    Licit host.Moves (StaysBelow up) (readdirRequest host settings fc path filler readdirplus) := by
  have opened : Licit host.Moves (StaysBelow up) (openDirectory host settings path) :=
    below_located off straight fun processed =>
      (Licit.ask _ (staysBelow_single rfl processed)).bind fun _ => Licit.pure _
  refine Licit.bind (fun world => ?_) licit_answerEntries
  refine (opened world).attempt.bind fun answer ended => ?_
  rw [exec_attempt] at ended
  have result := Except.ok.inj ended
  split
  · exact Traced.pure _
  · obtain ⟨rfl, listed⟩ := openDirectory_ok off result
    have processed := processed_stripSlashes straight
    refine (Licit.ask _ (staysBelow_single rfl processed)).bind (fun _ => ?_) _
    exact below_readdirLoop off fc readdirplus processed (fun source => allowed (atSource_of_stripSlashes source))
      filler _ (names _ _ _ listed)

/-! ## All requests -/

/-- The paths in a request. The target of a symbolic link is only a text. -/
def paths : Request → List CString
  | .getattr path | .readlink path _ | .readdir path _ _ | .mknod path _ _ | .mkdir path _ | .unlink path
  | .rmdir path | .symlink _ path | .chmod path _ | .chown path _ _ | .truncate path _ | .utimens path _ _
  | .create path _ _ | .openFile path _ | .statfs path | .setxattr path _ _ _ | .getxattr path _ _
  | .listxattr path _ | .removexattr path _ => [path]
  | .rename source dest _ | .link source dest => [source, dest]
  | .read .. | .write .. | .lock .. | .flock .. | .ioctl .. | .fsync .. | .release .. => []

/-- The requests in which the parent of the source directory is looked at: those that list the source
with attributes, and those that create it for their caller. -/
def LooksUp (settings : Settings) : Request → Prop
  | .readdir path _ readdirplus => AtSource path ∧ readdirplus = true
  | .mknod path _ _ | .mkdir path _ | .symlink _ path | .create path _ _ =>
    AtSource path ∧ settings.create_policy = .asUser
  | _ => False

theorem below_bindfsChmod (off : settings.resolve_symlinks = false) {path : CString} (straight : Straight path)
    (mode : Mode) : Licit host.Moves (StaysBelow up) (bindfsChmod host settings path mode) := by
  refine below_located off straight fun processed => ?_
  have looked : Licit host.Moves (StaysBelow up) (executeOnlyMode host settings (stripSlashes path)) := by
    unfold executeOnlyMode
    split
    · exact (Licit.ask _ (staysBelow_single rfl processed)).bind fun _ => Licit.pure _
    · exact Licit.pure _
  have changed : ∀ mode, Licit host.Moves (StaysBelow up) (host.issue (.chmod (stripSlashes path) mode)) :=
    fun _ => licit_issue (staysBelow_single rfl processed)
  refine looked.bind fun old => ?_
  unfold chmodByPolicy
  split
  · exact changed _
  · exact changed _
  · exact Licit.pure _
  · dsimp only
    split
    · exact changed _
    · exact Licit.fail _
  · exact Licit.fail _

theorem below_bindfsChown (off : settings.resolve_symlinks = false) {path : CString} (straight : Straight path)
    (uid gid : Id) : Licit host.Moves (StaysBelow up) (bindfsChown host settings path uid gid) := by
  unfold bindfsChown
  split
  · exact Licit.fail _
  · split
    · exact Licit.fail _
    · split
      · exact below_located off straight fun processed => licit_issue (staysBelow_single rfl processed)
      · exact Licit.pure _

theorem below_bindfsRename (off : settings.resolve_symlinks = false) {source dest : CString}
    (straight : Straight source) (straight' : Straight dest) (flags : Nat) :
    Licit host.Moves (StaysBelow up) (bindfsRename host settings source dest flags) := by
  unfold bindfsRename
  split
  · exact Licit.fail _
  · refine below_located off straight fun fromHere => ?_
    refine below_located off straight' fun toHere => ?_
    split
    · refine licit_issue (staysBelow_of_inside ?_)
      exact List.forall_mem_cons.mpr ⟨fromHere.inside, List.forall_mem_singleton.mpr toHere.inside⟩
    · exact Licit.fail _

theorem below_bindfsLink (off : settings.resolve_symlinks = false) {source dest : CString}
    (straight : Straight source) (straight' : Straight dest) :
    Licit host.Moves (StaysBelow up) (bindfsLink host settings source dest) := by
  refine below_located off straight fun fromHere => ?_
  refine below_located off straight' fun toHere => licit_issue (staysBelow_of_inside ?_)
  exact List.forall_mem_cons.mpr ⟨fromHere.inside, List.forall_mem_singleton.mpr toHere.inside⟩

theorem below_serve (off : settings.resolve_symlinks = false) (names : EntryNames host) (fc : FuseContext)
    (request : Request) (straight : ∀ path ∈ paths request, Straight path) :
    Licit host.Moves (StaysBelow (LooksUp settings request)) (serve host settings fc request) := by
  -- what a creation may look at, its path being the source itself
  have created : ∀ {path : CString},
      (AtSource path ∧ settings.create_policy = .asUser → LooksUp settings request) →
      AtSource (stripSlashes path) → settings.create_policy = .asUser → LooksUp settings request :=
    fun allowed source asUser => allowed ⟨atSource_of_stripSlashes source, asUser⟩
  cases request with
  | getattr path =>
    refine licit_reply _ (below_located off (straight path List.mem_cons_self) fun processed => ?_)
    exact (Licit.ask _ (staysBelow_single rfl processed)).bind
      fun stbuf => below_getattrCommon fc (Or.inl processed.inside) stbuf
  | readlink path _ | statfs path =>
    exact licit_reply _ (below_located off (straight path List.mem_cons_self)
      fun processed => Licit.ask _ (staysBelow_single rfl processed))
  | readdir path filler plus =>
    exact licit_reply _ (below_readdirRequest off names fc (straight path List.mem_cons_self) filler plus
      fun source attributes => ⟨source, attributes⟩)
  | mknod path mode rdev =>
    refine licit_reply (fun _ => _) (below_located off (straight path List.mem_cons_self)
      fun processed => ?_)
    have made : StaysBelow (LooksUp settings (.mknod path mode rdev))
        (if S_ISFIFO (settings.create_permchain.apply mode) = true
          then .mkfifo (stripSlashes path) (settings.create_permchain.apply mode)
          else .mknod (stripSlashes path) (settings.create_permchain.apply mode) rdev) := by
      split
      · exact staysBelow_single rfl processed
      · exact staysBelow_single rfl processed
    exact (licit_issue made).bind fun _ => below_chownNewFile processed (created id) fc fun _ _ => rfl
  | mkdir path mode =>
    refine licit_reply (fun _ => _) (below_located off (straight path List.mem_cons_self)
      fun processed => ?_)
    exact (licit_issue (staysBelow_single rfl processed)).bind fun _ =>
      below_chownNewFile processed (created id) fc fun _ _ => rfl
  | create path flags mode =>
    refine licit_reply _ (below_located off (straight path List.mem_cons_self) fun processed => ?_)
    refine (licit_callOpen (staysBelow_single rfl processed)).bind fun fd => ?_
    exact (below_chownNewFile processed (created id) fc fun _ _ => rfl).attempt.bind fun _ => Licit.pure _
  | unlink path | rmdir path =>
    exact licit_reply (fun _ => _) (below_deleteFile off (straight path List.mem_cons_self) fun _ => rfl)
  | symlink target path =>
    refine licit_reply (fun _ => _) ?_
    unfold bindfsSymlink
    rw [if_neg (by simp [off])]
    refine below_located off (straight path List.mem_cons_self) fun processed => ?_
    exact (licit_issue (staysBelow_single rfl processed)).bind fun _ =>
      below_chownNewFile processed (created id) fc fun _ _ => rfl
  | rename source dest flags =>
    obtain ⟨first, second⟩ := List.forall_mem_cons.mp straight
    exact licit_reply (fun _ => _) (below_bindfsRename off first (List.forall_mem_singleton.mp second) flags)
  | link source dest =>
    obtain ⟨first, second⟩ := List.forall_mem_cons.mp straight
    exact licit_reply (fun _ => _) (below_bindfsLink off first (List.forall_mem_singleton.mp second))
  | chmod path mode =>
    exact licit_reply (fun _ => _) (below_bindfsChmod off (straight path List.mem_cons_self) mode)
  | chown path uid gid =>
    exact licit_reply (fun _ => _) (below_bindfsChown off (straight path List.mem_cons_self) uid gid)
  | truncate path _ | utimens path _ _ =>
    exact licit_reply (fun _ => _) (below_located off (straight path List.mem_cons_self)
      fun processed => licit_issue (staysBelow_single rfl processed))
  | openFile path flags =>
    exact licit_reply _ (below_located off (straight path List.mem_cons_self)
      fun processed => licit_callOpen (staysBelow_single rfl processed))
  | setxattr path name value flags =>
    refine licit_whenInstalled fun _ => licit_reply (fun _ => _) ?_
    unfold bindfsSetxattr
    split
    · exact Licit.fail _
    · exact below_located off (straight path List.mem_cons_self)
        fun processed => licit_issue (staysBelow_single rfl processed)
  | removexattr path name =>
    refine licit_whenInstalled fun _ => licit_reply (fun _ => _) ?_
    unfold bindfsRemovexattr
    split
    · exact Licit.fail _
    · exact below_located off (straight path List.mem_cons_self)
        fun processed => licit_issue (staysBelow_single rfl processed)
  | getxattr path _ _ | listxattr path _ =>
    refine licit_whenInstalled fun _ => licit_reply _ ?_
    exact below_located off (straight path List.mem_cons_self)
      fun processed => Licit.ask _ (staysBelow_single rfl processed)
  | read _ _ _ _ | write _ _ _ _ =>
    exact licit_reply _ ((licit_directIoBuffer _ _).bind fun _ => licit_callDescriptor (staysBelow_descriptor _))
  | lock _ _ | flock _ _ | ioctl _ _ =>
    exact licit_whenInstalled fun _ => licit_reply _ (licit_callDescriptor (staysBelow_descriptor _))
  | fsync fd isdatasync => exact licit_reply _ (licit_callDescriptor (staysBelow_descriptor _))
  | release fd =>
    refine licit_reply (fun _ => _) ?_
    exact (licit_callDescriptor (staysBelow_descriptor _)).attempt.bind fun _ => Licit.pure _

/-- Without `--resolve-symlinks`, and for requests as the kernel sends them: every call stays, by the
text of its operands, below the source directory, but that the parent is looked at in the requests
of `LooksUp`; and in every run of a mount the tree changes by such calls or from outside only. -/
theorem calls_stay_below_source (host : Host W) (settings : Settings) (off : settings.resolve_symlinks = false)
    (names : EntryNames host) :
    (∀ fc request world, (∀ path ∈ paths request, Straight path) →
      ∀ entry ∈ ((serve host settings fc request).exec world).calls,
        StaysBelow (LooksUp settings request) entry.2) ∧
    ∀ (outside : W → W → Prop) (world final : W) (events : List (Event (FuseContext × Request))),
      (∀ asked, .request asked ∈ events → ∀ path ∈ paths asked.2, Straight path) →
      MountRun host settings outside world events final →
      ReflTransGen (fun world world' => Move host.Moves
        (StaysBelow (∃ asked, .request asked ∈ events ∧ LooksUp settings asked.2)) world world' ∨
          outside world world') world final := by
  refine ⟨fun fc request world straight => (below_serve off names fc request straight world).issues, ?_⟩
  intro outside world final events straight ran
  apply reached_of_run ran
  intro asked made
  exact (below_serve off names asked.1 asked.2 (straight asked made)).mono
    fun c below => below.mono fun up => ⟨asked, made, up⟩

end

/-- Every directory has an entry `a` and one for its parent. -/
def listingHost : Host TableTree :=
  { tableHost with opendir := fun _ _ => .ok ⟨[⟨['a'], .other⟩, ⟨dotDot, .other⟩], none⟩ }

/-- The source directory is listed with attributes. -/
def listedRoot : Outcome TableTree SysCall Errno Reply :=
  (serve listingHost (initialSettings 0#32) ⟨1, 1⟩ (.readdir ['/'] (fun _ => .ok ()) true)).exec
    ⟨[(['.', '/', 'a'], sampleStat 0 0 0o100644#32), (['.', '/', '.', '.'], sampleStat 0 0 0o40755#32)],
      [], [], [], []⟩

theorem calls_stay_below_source_of_listing :
    listedRoot.calls.map Prod.snd =
        [.opendir ['.'], .pathconf ['.'], .lstat ['.', '/', 'a'], .lstat ['.', '/', '.', '.']] ∧
      ∀ entry ∈ listedRoot.calls,
        StaysBelow (LooksUp (initialSettings 0#32) (.readdir ['/'] (fun _ => .ok ()) true)) entry.2 := by
  have names : EntryNames listingHost := by
    intro world path listing opened de member
    cases opened
    revert de
    decide
  refine ⟨rfl, ?_⟩
  exact (calls_stay_below_source listingHost (initialSettings 0#32) rfl names).1 ⟨1, 1⟩
    (.readdir ['/'] (fun _ => .ok ()) true) _ (List.forall_mem_singleton.mpr (by decide))

end Bindfs.Guarantees.Confinement
