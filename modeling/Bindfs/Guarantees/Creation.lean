import Bindfs.Source.HandlerSpecs
import Bindfs.Source.TableHost

/-!
# Creating files, directories, devices and symbolic links

The four creation handlers create the object first and translate the caller's ids for the
chown afterwards. When the translation is out of bounds, mknod, mkdir and symlink report
EIO for an object that exists, and create ignores the error:

* `failed_creation_leaves_nothing_iff`: when a failed creation leaves the tree alone;
* `creation_handlers_agree_iff`: when the four handlers agree on the owner of a new name.

Both turn on whether the caller's ids survive taking the offsets off.
-/
namespace Bindfs.Guarantees.Creation
open Bindfs.Source Bindfs.Lib.Effects

/-- The handlers that create an object, with their arguments beside the path. -/
inductive NewObject where
  | create (flags : OpenFlags) (mode : Mode)
  | mknod (mode : Mode) (rdev : Nat)
  | mkdir (mode : Mode)
  | symlink (target : CString)

section
variable {W : Type} (host : Host W) (settings : Settings)

/-- The owner and group a call requests for this object. -/
def ownerRequest (object : CString) : SysCall → Option (Id × Id)
  | .chown path uid gid => if path = object then some (uid, gid) else none
  | .lchown path uid gid => if path = object then some (uid, gid) else none
  | _ => none

def ownerRequests (object : CString) (calls : List (W × SysCall)) : List (Id × Id) :=
  calls.filterMap (fun entry => ownerRequest object entry.2)

theorem ownerRequests_append (object : CString) (first second : List (W × SysCall)) :
    ownerRequests object (first ++ second) =
      ownerRequests object first ++ ownerRequests object second :=
  List.filterMap_append

theorem ownerRequests_cons (object : CString) (entry : W × SysCall) (rest : List (W × SysCall)) :
    ownerRequests object (entry :: rest) =
      (ownerRequest object entry.2).toList ++ ownerRequests object rest := by
  cases asked : ownerRequest object entry.2 <;> simp [ownerRequests, asked]

theorem ownerRequests_pathCalls (object path : CString) (world : W) :
    ownerRequests object (pathCalls settings world path) = [] := by
  unfold pathCalls
  split <;> rfl

namespace NewObject

def handler (fc : FuseContext) (path : CString) : NewObject → Sys W Unit
  | create flags mode => do
    let _ ← bindfsCreate host settings fc path flags mode
    pure ()
  | mknod mode rdev => bindfsMknod host settings fc path mode rdev
  | mkdir mode => bindfsMkdir host settings fc path mode
  | symlink target => bindfsSymlink host settings fc target path

/-- `bindfs_create` does not look at the answer of `chown_new_file`. -/
def ignoresChown : NewObject → Bool
  | create _ _ => true
  | _ => false

/-- Where the handler creates the object. -/
def location (world : W) (path : CString) : NewObject → Except Errno CString
  | symlink _ => if settings.resolve_symlinks then .error .eperm else .ok (stripSlashes path)
  | _ => requestPath host settings world path

/-- The tree after the underlying creation call, or its error. -/
def underlying (world : W) (realPath : CString) : NewObject → Except Errno W
  | create flags mode =>
    (host.openFile world realPath (forwardedFlags settings flags)
      (some (settings.create_permchain.apply (mode ||| S_IFREG) &&& 0o777#32))).map (·.2)
  | mknod mode rdev =>
    host.perform world
      (if S_ISFIFO (settings.create_permchain.apply mode) then
        .mkfifo realPath (settings.create_permchain.apply mode)
      else .mknod realPath (settings.create_permchain.apply mode) rdev)
  | mkdir mode =>
    host.perform world
      (.mkdir realPath (settings.create_permchain.apply (mode ||| S_IFDIR) &&& 0o777#32))
  | symlink target => host.perform world (.symlink target realPath)

def chownFunc : NewObject → CString → Id → Id → SysCall
  | symlink _ => .lchown
  | _ => .chown

variable {host settings} (fc : FuseContext) {path realPath : CString} {world world' : W}
  {error : Errno}

theorem exec_handler_misplaced (object : NewObject)
    (misplaced : object.location host settings world path = .error error) :
    ((object.handler host settings fc path).exec world).result = .error error ∧
      ((object.handler host settings fc path).exec world).world = world := by
  cases object with
  | symlink target =>
    simp only [location] at misplaced
    split at misplaced
    · rename_i resolve
      cases misplaced
      simp [handler, bindfsSymlink, resolve]
    · cases misplaced
  | create flags mode =>
    simp only [location] at misplaced
    simp [handler, bindfsCreate, exec_processPath, misplaced]
  | mknod mode rdev =>
    simp only [location] at misplaced
    simp [handler, bindfsMknod, exec_processPath, misplaced]
  | mkdir mode =>
    simp only [location] at misplaced
    simp [handler, bindfsMkdir, exec_processPath, misplaced]

theorem exec_handler_refused (object : NewObject)
    (located : object.location host settings world path = .ok realPath)
    (refused : object.underlying host settings world realPath = .error error) :
    ((object.handler host settings fc path).exec world).result = .error error ∧
      ((object.handler host settings fc path).exec world).world = world := by
  cases object with
  | symlink target =>
    simp only [location] at located
    split at located
    · cases located
    · rename_i resolve
      cases located
      have raw := exec_processPath_raw host settings path false rfl world
      simp [handler, bindfsSymlink, resolve, raw, host.exec_issue_error refused, Outcome.after]
  | create flags mode =>
    simp only [location] at located
    have failed : host.openFile world realPath (forwardedFlags settings flags)
        (some (settings.create_permchain.apply (mode ||| S_IFREG) &&& 0o777#32)) = .error error := by
      simp only [underlying] at refused
      cases answered : host.openFile world realPath (forwardedFlags settings flags)
        (some (settings.create_permchain.apply (mode ||| S_IFREG) &&& 0o777#32)) with
      | error e => simpa [answered, Except.map] using refused
      | ok pair => simp [answered, Except.map] at refused
    simp [handler, bindfsCreate, exec_processPath, located, host.exec_callOpen_error failed,
      Outcome.after]
  | mknod mode rdev =>
    simp only [location] at located
    simp [handler, bindfsMknod, exec_processPath, located, host.exec_issue_error refused,
      Outcome.after]
  | mkdir mode =>
    simp only [location] at located
    simp [handler, bindfsMkdir, exec_processPath, located, host.exec_issue_error refused,
      Outcome.after]

/-- Once the object exists, what remains is `chown_new_file`. -/
theorem exec_handler_created (object : NewObject)
    (located : object.location host settings world path = .ok realPath)
    (created : object.underlying host settings world realPath = .ok world') :
    ((object.handler host settings fc path).exec world).result =
        (if object.ignoresChown then .ok ()
        else ((chownNewFile host settings realPath fc object.chownFunc).exec world').result) ∧
      ((object.handler host settings fc path).exec world).world =
        ((chownNewFile host settings realPath fc object.chownFunc).exec world').world ∧
      ownerRequests realPath ((object.handler host settings fc path).exec world).calls =
        ownerRequests realPath
          ((chownNewFile host settings realPath fc object.chownFunc).exec world').calls := by
  cases object with
  | symlink target =>
    simp only [location] at located
    split at located
    · cases located
    · rename_i resolve
      cases located
      have raw := exec_processPath_raw host settings path false rfl world
      simp [handler, bindfsSymlink, resolve, raw, host.exec_issue_ok created, ownerRequests_cons,
        ownerRequest, ignoresChown, chownFunc]
  | create flags mode =>
    simp only [location] at located
    obtain ⟨fd, opened⟩ : ∃ fd, host.openFile world realPath (forwardedFlags settings flags)
        (some (settings.create_permchain.apply (mode ||| S_IFREG) &&& 0o777#32)) =
          .ok (fd, world') := by
      simp only [underlying] at created
      cases answered : host.openFile world realPath (forwardedFlags settings flags)
        (some (settings.create_permchain.apply (mode ||| S_IFREG) &&& 0o777#32)) with
      | error e => simp [answered, Except.map] at created
      | ok pair =>
        simp only [answered, Except.map, Except.ok.injEq] at created
        exact ⟨pair.1, by rw [← created]⟩
    simp [handler, bindfsCreate, exec_processPath, located, host.exec_callOpen_ok opened,
      ownerRequests_pathCalls, ownerRequests_append, ownerRequests_cons, ownerRequest,
      ignoresChown, chownFunc, Outcome.after]
  | mknod mode rdev =>
    simp only [location] at located
    have quiet : ownerRequest realPath (if S_ISFIFO (settings.create_permchain.apply mode) then
        .mkfifo realPath (settings.create_permchain.apply mode)
      else .mknod realPath (settings.create_permchain.apply mode) rdev) = none := by
      split <;> rfl
    simp [handler, bindfsMknod, exec_processPath, located, host.exec_issue_ok created,
      ownerRequests_pathCalls, ownerRequests_append, ownerRequests_cons, quiet, ignoresChown,
      chownFunc]
  | mkdir mode =>
    simp only [location] at located
    simp [handler, bindfsMkdir, exec_processPath, located, host.exec_issue_ok created,
      ownerRequests_pathCalls, ownerRequests_append, ownerRequests_cons, ownerRequest,
      ignoresChown, chownFunc]

end NewObject

/-! ## Failed creations -/

/-- The last component is a name. Only of such a path `my_dirname` gives the directory of the new
object: of `d/` it gives the new directory itself. -/
def EndsInName (path : CString) : Prop := path.getLast? ≠ some '/'

instance (path : CString) : Decidable (EndsInName path) :=
  inferInstanceAs (Decidable (path.getLast? ≠ some '/'))

/-- What mknod(2), mkfifo(3), mkdir(2), symlink(2) and a creating open(2) do when they succeed:
all but open make a new object, and none changes the mode of the parent directory. -/
structure CreationLaws : Prop where
  makes_object : ∀ {object : NewObject} {world world' : W} {realPath : CString},
    object.ignoresChown = false → object.underlying host settings world realPath = .ok world' →
      world' ≠ world
  keeps_directory : ∀ {object : NewObject} {world world' : W} {realPath : CString}, EndsInName realPath →
    object.underlying host settings world realPath = .ok world' →
      directorySetgid host settings world' (myDirname realPath) =
        directorySetgid host settings world (myDirname realPath)

/-- An error means that the underlying tree is as it was. -/
def LeavesNothing (fc : FuseContext) (path : CString) (object : NewObject) (world : W) : Prop :=
  ∀ error, ((object.handler host settings fc path).exec world).result = .error error →
    ((object.handler host settings fc path).exec world).world = world

/-- The setgid bit that `chown_new_file` finds after the underlying call has turned `world` into
`world'`. The parent of a name has the bit it had before. -/
def parentSetgid (world world' : W) (realPath : CString) : Bool :=
  directorySetgid host settings (if EndsInName realPath then world else world') (myDirname realPath)

variable {host settings} in
theorem CreationLaws.parentSetgid_eq (laws : CreationLaws host settings) {object : NewObject} {world world' : W}
    {realPath : CString} (created : object.underlying host settings world realPath = .ok world') :
    parentSetgid host settings world world' realPath =
      directorySetgid host settings world' (myDirname realPath) := by
  unfold parentSetgid
  split
  · rename_i named
    exact (laws.keeps_directory named created).symm
  · rfl

/-- A failed creation leaves nothing behind if and only if the handler is create, or the path
or the underlying call fails, or the caller's ids can be stored. -/
theorem failed_creation_leaves_nothing_iff (laws : CreationLaws host settings) (fc : FuseContext)
    (path : CString) (object : NewObject) (world : W) :
    LeavesNothing host settings fc path object world ↔
      object.ignoresChown = true ∨
        ∀ realPath world', object.location host settings world path = .ok realPath →
          object.underlying host settings world realPath = .ok world' →
            CallerStorable settings fc (parentSetgid host settings world world' realPath) := by
  constructor
  · intro nothing
    by_cases ignores : object.ignoresChown = true
    · exact Or.inl ignores
    · refine Or.inr ?_
      intro realPath world' located created
      have looks : object.ignoresChown = false := by simpa using ignores
      by_contra unstorable
      rw [laws.parentSetgid_eq created] at unstorable
      have overflow := (newFileOwner_none_iff settings fc _).mpr unstorable
      have chowned := exec_chownNewFile_overflow host settings overflow object.chownFunc
      obtain ⟨result, tree, -⟩ := object.exec_handler_created fc located created
      rw [looks, chowned] at result
      rw [chowned] at tree
      have kept := nothing uidGidOverflowErrno (by simpa using result)
      exact laws.makes_object looks created (tree.symm.trans kept)
  · intro condition error failed
    cases located : object.location host settings world path with
    | error e => exact (object.exec_handler_misplaced fc located).2
    | ok realPath =>
      cases created : object.underlying host settings world realPath with
      | error e => exact (object.exec_handler_refused fc located created).2
      | ok world' =>
        -- the object exists, so the handler cannot have failed
        obtain ⟨result, -, -⟩ := object.exec_handler_created fc located created
        rw [result] at failed
        rcases condition with ignores | stored
        · rw [if_pos ignores] at failed
          cases failed
        · have storable := stored realPath world' located created
          rw [laws.parentSetgid_eq created] at storable
          cases owner : newFileOwner settings fc
              (directorySetgid host settings world' (myDirname realPath)) with
          | none => exact absurd storable ((newFileOwner_none_iff settings fc _).mp owner)
          | some pair =>
            rw [(exec_chownNewFile host settings owner object.chownFunc).1] at failed
            split at failed <;> cases failed

theorem underlying_tableHost {object : NewObject} {tree tree' : TableTree} {realPath : CString}
    (created : object.underlying tableHost settings tree realPath = .ok tree') :
    tree.create realPath = .ok tree' := by
  cases object with
  | create flags mode =>
    simp only [NewObject.underlying, tableHost] at created
    cases answered : tree.create realPath with
    | error e => simp [answered, Except.map] at created
    | ok tree'' => simpa [answered, Except.map] using created
  | mknod mode rdev =>
    simp only [NewObject.underlying] at created
    split at created
    · exact created
    · exact created
  | mkdir mode => exact created
  | symlink target => exact created

theorem tableHost_creationLaws : CreationLaws tableHost settings where
  makes_object := by
    intro object tree tree' realPath _ created same
    have grown := TableTree.create_ok (underlying_tableHost settings created)
    rw [grown] at same
    have lengths := congrArg (fun tree => tree.created.length) same
    simp at lengths
  keeps_directory := by
    intro object tree tree' realPath _ created
    rw [TableTree.create_ok (underlying_tableHost settings created)]
    rfl

end

/-- A mount by root with `--uid-offset=10`. -/
def offsetSettings : Settings := { initialSettings 0 with uid_offset := 10#64 }

/-- The user seen as 1010 is stored as 1000. -/
theorem failed_creation_leaves_nothing_iff_of_storable_caller :
    LeavesNothing tableHost offsetSettings ⟨1010, 1010⟩ ['/', 'd'] (.mkdir 0o755) .empty := by
  apply (failed_creation_leaves_nothing_iff tableHost offsetSettings
    (tableHost_creationLaws offsetSettings) ⟨1010, 1010⟩ ['/', 'd'] (.mkdir 0o755) .empty).mpr
  refine Or.inr ?_
  intro realPath tree' _ _
  cases parentSetgid tableHost offsetSettings .empty tree' realPath <;> decide

/-- `mkdir` by root, who would be stored as -10: EIO, and the directory is there. -/
theorem root_mkdir_leaves_directory :
    CreationLaws tableHost offsetSettings ∧
      ¬ LeavesNothing tableHost offsetSettings ⟨0, 0⟩ ['/', 'd'] (.mkdir 0o755) .empty := by
  refine ⟨tableHost_creationLaws offsetSettings, ?_⟩
  intro nothing
  have kept := nothing .eio rfl
  exact absurd (congrArg TableTree.created kept) (by decide)

/-! ## Agreement of the four handlers -/

section
variable {W : Type} (host : Host W) (settings : Settings)

/-- All succeed after the same request for the new object, or all fail with the same error. -/
def Agree (outcomes : List (Except Errno Unit × List (Id × Id))) : Prop :=
  (∃ requested, ∀ outcome ∈ outcomes, outcome = (.ok (), requested)) ∨
    (∃ error, ∀ outcome ∈ outcomes, outcome.1 = .error error)

/-- The reply to a creation request and the owners it requested for the new object. -/
def creationOutcome (fc : FuseContext) (world : W) (attempt : NewObject × CString) :
    Except Errno Unit × List (Id × Id) :=
  let outcome := (attempt.1.handler host settings fc attempt.2).exec world
  (outcome.result, ownerRequests (stripSlashes attempt.2) outcome.calls)

variable {settings} in
theorem location_of_unresolved (off : settings.resolve_symlinks = false) (object : NewObject)
    (world : W) (path : CString) :
    object.location host settings world path = .ok (stripSlashes path) := by
  cases object <;> simp [NewObject.location, requestPath, off]

def requestedOwner (owner : Id × Id) : List (Id × Id) :=
  if owner.1 ≠ noId ∨ owner.2 ≠ noId then [owner] else []

theorem ownerRequests_parentCalls (object path : CString) (world : W) :
    ownerRequests object (parentCalls settings world path) = [] := by
  unfold parentCalls
  cases settings.create_policy <;> rfl

theorem ownerRequests_ownerCall (object : NewObject) (path : CString) (owner : Id × Id)
    (world : W) :
    ownerRequests path ((ownerCall object.chownFunc path owner).toList.map (fun c => (world, c))) =
      requestedOwner owner := by
  unfold ownerCall requestedOwner
  by_cases asked : owner.1 ≠ noId ∨ owner.2 ≠ noId
  · rw [if_pos asked, if_pos asked]
    cases object <;> simp [ownerRequests, NewObject.chownFunc, ownerRequest]
  · rw [if_neg asked, if_neg asked]
    rfl

variable {host settings} in
theorem creationOutcome_stored (off : settings.resolve_symlinks = false) {fc : FuseContext}
    {object : NewObject} {path : CString} {world world' : W} {owner : Id × Id}
    (created : object.underlying host settings world (stripSlashes path) = .ok world')
    (translated : newFileOwner settings fc
      (directorySetgid host settings world' (myDirname (stripSlashes path))) = some owner) :
    creationOutcome host settings fc world (object, path) = (.ok (), requestedOwner owner) := by
  have located := location_of_unresolved host off object world path
  obtain ⟨result, -, requests⟩ := object.exec_handler_created fc located created
  obtain ⟨chowned, calls⟩ := exec_chownNewFile host settings translated object.chownFunc
  unfold creationOutcome
  simp only [result, requests, chowned, calls, ite_self, ownerRequests_append,
    ownerRequests_parentCalls, ownerRequests_ownerCall, List.nil_append]

variable {host settings} in
theorem creationOutcome_overflow (off : settings.resolve_symlinks = false) {fc : FuseContext}
    {object : NewObject} {path : CString} {world world' : W}
    (created : object.underlying host settings world (stripSlashes path) = .ok world')
    (overflow : newFileOwner settings fc
      (directorySetgid host settings world' (myDirname (stripSlashes path))) = none) :
    (creationOutcome host settings fc world (object, path)).1 =
      if object.ignoresChown then .ok () else .error uidGidOverflowErrno := by
  have located := location_of_unresolved host off object world path
  obtain ⟨result, -, -⟩ := object.exec_handler_created fc located created
  unfold creationOutcome
  simp only [result, exec_chownNewFile_overflow host settings overflow object.chownFunc]

/-- The path of a new name in the directory, as it is passed to the system. -/
def IsNameIn (directory path : CString) : Prop :=
  EndsInName (stripSlashes path) ∧ myDirname (stripSlashes path) = directory

instance (directory path : CString) : Decidable (IsNameIn directory path) :=
  inferInstanceAs (Decidable (_ ∧ _))

/-- One request to each of the four handlers. -/
def fourHandlers (flags : OpenFlags) (fileMode nodeMode : Mode) (rdev : Nat) (directoryMode : Mode)
    (target filePath nodePath directoryPath linkPath : CString) : List (NewObject × CString) :=
  [(.create flags fileMode, filePath), (.mknod nodeMode rdev, nodePath),
    (.mkdir directoryMode, directoryPath), (.symlink target, linkPath)]

/-- Without resolved symlinks, four new names in one directory get the same owner, or the same
error, if and only if the caller's ids can be stored. -/
theorem creation_handlers_agree_iff (laws : CreationLaws host settings)
    (off : settings.resolve_symlinks = false) (fc : FuseContext) (world : W) (directory : CString)
    (flags : OpenFlags) (fileMode nodeMode : Mode) (rdev : Nat) (directoryMode : Mode)
    (target filePath nodePath directoryPath linkPath : CString)
    (inDirectory : ∀ attempt ∈ fourHandlers flags fileMode nodeMode rdev directoryMode target
      filePath nodePath directoryPath linkPath, IsNameIn directory attempt.2)
    (created : ∀ attempt ∈ fourHandlers flags fileMode nodeMode rdev directoryMode target
      filePath nodePath directoryPath linkPath, ∃ world',
        attempt.1.underlying host settings world (stripSlashes attempt.2) = .ok world') :
    Agree ((fourHandlers flags fileMode nodeMode rdev directoryMode target
        filePath nodePath directoryPath linkPath).map (creationOutcome host settings fc world)) ↔
      CallerStorable settings fc (directorySetgid host settings world directory) := by
  have sameDirectory : ∀ attempt ∈ fourHandlers flags fileMode nodeMode rdev directoryMode target
      filePath nodePath directoryPath linkPath, ∀ world',
        attempt.1.underlying host settings world (stripSlashes attempt.2) = .ok world' →
          directorySetgid host settings world' (myDirname (stripSlashes attempt.2)) =
            directorySetgid host settings world directory := by
    intro attempt member world' done
    obtain ⟨named, inside⟩ := inDirectory attempt member
    rw [laws.keeps_directory named done, inside]
  constructor
  · intro agree
    by_contra unstorable
    have overflow := (newFileOwner_none_iff settings fc _).mpr unstorable
    have first : (NewObject.create flags fileMode, filePath) ∈ fourHandlers flags fileMode nodeMode
      rdev directoryMode target filePath nodePath directoryPath linkPath := by simp [fourHandlers]
    have second : (NewObject.mkdir directoryMode, directoryPath) ∈ fourHandlers flags fileMode
      nodeMode rdev directoryMode target filePath nodePath directoryPath linkPath := by
      simp [fourHandlers]
    obtain ⟨treeFile, fileDone⟩ := created _ first
    obtain ⟨treeDir, dirDone⟩ := created _ second
    have fileReply := creationOutcome_overflow off fileDone
      ((congrArg (newFileOwner settings fc) (sameDirectory _ first _ fileDone)).trans overflow)
    have dirReply := creationOutcome_overflow off dirDone
      ((congrArg (newFileOwner settings fc) (sameDirectory _ second _ dirDone)).trans overflow)
    simp only [NewObject.ignoresChown, if_true, Bool.false_eq_true, if_false] at fileReply dirReply
    rcases agree with ⟨requested, all⟩ | ⟨error, all⟩
    · have same := all _ (List.mem_map_of_mem second)
      rw [same] at dirReply
      cases dirReply
    · have same := all _ (List.mem_map_of_mem first)
      rw [same] at fileReply
      cases fileReply
  · intro storable
    cases owner : newFileOwner settings fc (directorySetgid host settings world directory) with
    | none => exact absurd storable ((newFileOwner_none_iff settings fc _).mp owner)
    | some pair =>
      refine Or.inl ⟨requestedOwner pair, ?_⟩
      intro outcome member
      obtain ⟨attempt, belongs, rfl⟩ := List.mem_map.mp member
      obtain ⟨world', done⟩ := created attempt belongs
      have same := congrArg (newFileOwner settings fc) (sameDirectory attempt belongs world' done)
      exact creationOutcome_stored off done (same.trans owner)

end

/-- Names `f`, `n`, `d` and `l` created in the source directory. -/
def fourNames : List (NewObject × CString) :=
  fourHandlers 0o102 0o644 0o10644 0 0o755 ['t'] ['/', 'f'] ['/', 'n'] ['/', 'd'] ['/', 'l']

theorem fourNames_in_source :
    ∀ attempt ∈ fourNames, IsNameIn ['.'] attempt.2 := by
  decide

theorem fourNames_created (settings : Settings) :
    ∀ attempt ∈ fourNames, ∃ tree',
      attempt.1.underlying tableHost settings .empty (stripSlashes attempt.2) = .ok tree' := by
  intro attempt member
  simp only [fourNames, fourHandlers, List.mem_cons, List.not_mem_nil, or_false] at member
  rcases member with rfl | rfl | rfl | rfl
  · exact ⟨_, rfl⟩
  · simp only [NewObject.underlying]
    split <;> exact ⟨_, rfl⟩
  · exact ⟨_, rfl⟩
  · exact ⟨_, rfl⟩

/-- For the user seen as 1010 all four request the owner 1000. -/
theorem creation_handlers_agree_iff_of_storable_caller :
    Agree (fourNames.map (creationOutcome tableHost offsetSettings ⟨1010, 1010⟩ .empty)) :=
  (creation_handlers_agree_iff tableHost offsetSettings (tableHost_creationLaws offsetSettings) rfl
    ⟨1010, 1010⟩ .empty ['.'] _ _ _ _ _ _ _ _ _ _ fourNames_in_source
    (fourNames_created offsetSettings)).mpr (by decide)

/-- For root `create` returns 0 without a chown and the others return EIO. -/
theorem root_creations_disagree :
    (∀ attempt ∈ fourNames, ∃ tree',
      attempt.1.underlying tableHost offsetSettings .empty (stripSlashes attempt.2) = .ok tree') ∧
    ¬ Agree (fourNames.map (creationOutcome tableHost offsetSettings ⟨0, 0⟩ .empty)) := by
  refine ⟨fourNames_created offsetSettings, ?_⟩
  have file : (creationOutcome tableHost offsetSettings ⟨0, 0⟩ .empty
      (.create 0o102 0o644, ['/', 'f'])).1 = .ok () := rfl
  have directory : (creationOutcome tableHost offsetSettings ⟨0, 0⟩ .empty
      (.mkdir 0o755, ['/', 'd'])).1 = .error .eio := rfl
  have first : (NewObject.create 0o102 0o644, ['/', 'f']) ∈ fourNames := by
    simp [fourNames, fourHandlers]
  have third : (NewObject.mkdir 0o755, ['/', 'd']) ∈ fourNames := by
    simp [fourNames, fourHandlers]
  rintro (⟨requested, all⟩ | ⟨error, all⟩)
  · rw [all _ (List.mem_map_of_mem third)] at directory
    cases directory
  · rw [all _ (List.mem_map_of_mem first)] at file
    cases file

end Bindfs.Guarantees.Creation
