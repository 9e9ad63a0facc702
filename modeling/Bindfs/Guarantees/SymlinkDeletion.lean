import Bindfs.Source.HandlerSpecs
import Bindfs.Source.TableHost

/-!
# Deleting a symlink that is shown as its target

With `--resolve-symlinks` a symlink looks like the object it leads to, and a policy says what
deleting it removes. `delete_file` leaves by one exit per policy; each is computed below from
what a file system promises about unlink, rmdir and realpath (`DeletionLaws`).

The policies are kept but for one case: `target-first` deletes the target with unlink(2) and
the link with the caller's function, so it never removes a directory
(`deletion_policies_honoured_iff`).
-/
namespace Bindfs.Guarantees.SymlinkDeletion
open Bindfs.Source Bindfs.Lib.Effects

inductive Kind where
  | link | directory | other
  deriving DecidableEq, Repr

/-- How a tree is looked at: the entries there are and their kinds, the entry a path names
when a link in its last component is not followed, the directories without entries, and the
entries that bindfs may remove. -/
structure TreeView (W L : Type) where
  entry : W → L → Option Kind
  place : W → CString → Option L
  isEmpty : W → L → Prop
  mayRemove : W → L → Prop

variable {W L : Type}

/-- Exactly the entries `gone` are removed. -/
def Removed (view : TreeView W L) (gone : List L) (world world' : W) : Prop :=
  (∀ l ∈ gone, view.entry world' l = none) ∧ ∀ l, l ∉ gone → view.entry world' l = view.entry world l

/-- What a file system promises about deletion. -/
structure DeletionLaws (host : Host W) (view : TreeView W L) : Prop where
  lstat_link : ∀ {world path l}, view.place world path = some l →
    view.entry world l = some .link →
      ∃ stbuf, host.lstat world path = .ok stbuf ∧ S_ISLNK stbuf.st_mode = true
  unlink_removes : ∀ {world path l kind}, view.place world path = some l →
    view.entry world l = some kind → kind ≠ .directory → view.mayRemove world l →
      ∃ world', host.perform world (.unlink path) = .ok world' ∧ Removed view [l] world world'
  unlink_directory : ∀ {world path l}, view.place world path = some l →
    view.entry world l = some .directory → ∃ error, host.perform world (.unlink path) = .error error
  unlink_refused : ∀ {world path l}, view.place world path = some l →
    ¬ view.mayRemove world l → ∃ error, host.perform world (.unlink path) = .error error
  rmdir_removes : ∀ {world path l}, view.place world path = some l →
    view.entry world l = some .directory → view.isEmpty world l → view.mayRemove world l →
      ∃ world', host.perform world (.rmdir path) = .ok world' ∧ Removed view [l] world world'
  rmdir_refused : ∀ {world path l}, view.place world path = some l →
    ¬ view.mayRemove world l → ∃ error, host.perform world (.rmdir path) = .error error
  /-- A canonical path names an object, not a link. -/
  realpath_object : ∀ {world path target}, host.realpath world path = .ok target →
    ∃ l kind, view.place world target = some l ∧ view.entry world l = some kind ∧ kind ≠ .link
  /-- No link is part of a canonical path, so removing one leaves the path where it leads. -/
  canonical_kept : ∀ {world world' path l other target}, view.place world path = some l →
    view.entry world l = some .link → host.perform world (.unlink path) = .ok world' →
      host.realpath world other = .ok target → view.place world' target = view.place world target
  /-- Nothing lies below an object that is neither a link nor a directory. -/
  path_kept : ∀ {world world' path l other l'}, view.place world path = some l →
    view.entry world l = some .other → host.perform world (.unlink path) = .ok world' →
      view.place world other = some l' → l' ≠ l → view.place world' other = some l'
  /-- The right to remove an entry does not hang on another one. -/
  mayRemove_kept : ∀ {world world' path l l'}, view.place world path = some l →
    host.perform world (.unlink path) = .ok world' → l' ≠ l →
      (view.mayRemove world' l' ↔ view.mayRemove world l')
  isEmpty_kept : ∀ {world world' path l}, host.perform world (.unlink path) = .ok world' →
    view.isEmpty world l → view.isEmpty world' l

/-! ## Requests -/

inductive DeleteOp where
  | unlink | rmdir
  deriving DecidableEq, Repr

/-- The request, and the deletion function it hands to `delete_file`. -/
def DeleteOp.run (host : Host W) (settings : Settings) : DeleteOp → CString → Sys W Unit
  | .unlink => bindfsUnlink host settings
  | .rmdir => bindfsRmdir host settings

def DeleteOp.call : DeleteOp → CString → SysCall
  | .unlink => .unlink
  | .rmdir => .rmdir

/-- The operation fits the object: unlink for a non-directory, rmdir for an empty directory. -/
def Fits (view : TreeView W L) (world : W) (l : L) : DeleteOp → Prop
  | .unlink => view.entry world l = some .other
  | .rmdir => view.entry world l = some .directory ∧ view.isEmpty world l

/-- The request names the symlink `p`, which leads to the object `t` at `target`. -/
structure LeadsTo (host : Host W) (view : TreeView W L) (world : W) (path target : CString)
    (p t : L) : Prop where
  link_place : view.place world (stripSlashes path) = some p
  link : view.entry world p = some .link
  resolves : host.realpath world (stripSlashes path) = .ok target
  target_place : view.place world target = some t

/-- What the policy promises for deleting `p`. -/
def PolicyHonoured (host : Host W) (view : TreeView W L) (settings : Settings) (world : W)
    (path : CString) (op : DeleteOp) (p t : L) : Prop :=
  let outcome := (op.run host settings path).exec world
  match settings.resolved_symlink_deletion_policy with
  | .deny => outcome.result = .error .eperm ∧ outcome.world = world
  | .symlinkOnly =>
    view.mayRemove world p → outcome.result = .ok () ∧ Removed view [p] world outcome.world
  | .symlinkFirst =>
    view.mayRemove world p → outcome.result = .ok () ∧
      (view.mayRemove world t → Removed view [p, t] world outcome.world) ∧
      (¬ view.mayRemove world t → Removed view [p] world outcome.world)
  | .targetFirst =>
    (view.mayRemove world p → view.mayRemove world t →
      outcome.result = .ok () ∧ Removed view [p, t] world outcome.world) ∧
    (¬ view.mayRemove world t →
      (∃ error, outcome.result = .error error) ∧ outcome.world = world)

/-- What is promised for a symlink that leads nowhere. -/
def BrokenHonoured (host : Host W) (view : TreeView W L) (settings : Settings) (world : W)
    (path : CString) (p : L) : Prop :=
  settings.resolved_symlink_deletion_policy ≠ .deny → view.mayRemove world p →
    ((bindfsUnlink host settings path).exec world).result = .ok () ∧
      Removed view [p] world ((bindfsUnlink host settings path).exec world).world

/-! ## The exits of delete_file -/

section
variable {host : Host W} {settings : Settings} {world world' world'' : W} {path target : CString}
  (on : settings.resolve_symlinks = true) (allowed : settings.delete_deny = false)
  {stbuf : Stat} (looked : host.lstat world (stripSlashes path) = .ok stbuf)
  (isLink : S_ISLNK stbuf.st_mode = true)

theorem DeleteOp.run_eq (op : DeleteOp) :
    op.run host settings path = deleteFile host settings path op.call := by
  cases op <;> rfl

include on allowed looked isLink

theorem run_deny (op : DeleteOp) (policy : settings.resolved_symlink_deletion_policy = .deny) :
    ((op.run host settings path).exec world).result = .error .eperm ∧
      ((op.run host settings path).exec world).world = world := by
  have raw := exec_processPath_raw host settings path false rfl world
  simp [op.run_eq, deleteFile, allowed, raw, on, looked, isLink, policy]

theorem run_symlinkOnly (op : DeleteOp)
    (policy : settings.resolved_symlink_deletion_policy = .symlinkOnly)
    (unlinked : host.perform world (.unlink (stripSlashes path)) = .ok world') :
    ((op.run host settings path).exec world).result = .ok () ∧
      ((op.run host settings path).exec world).world = world' := by
  have raw := exec_processPath_raw host settings path false rfl world
  simp [op.run_eq, deleteFile, allowed, raw, on, looked, isLink, policy,
    deleteThenTry_done unlinked]

/-- The target is tried after the link is gone; a failure is not reported. -/
theorem run_symlinkFirst (op : DeleteOp)
    (policy : settings.resolved_symlink_deletion_policy = .symlinkFirst)
    (resolves : host.realpath world (stripSlashes path) = .ok target)
    (unlinked : host.perform world (.unlink (stripSlashes path)) = .ok world') :
    ((op.run host settings path).exec world).result = .ok () ∧
      ((op.run host settings path).exec world).world =
        afterTrying host world' (op.call target) := by
  have raw := exec_processPath_raw host settings path false rfl world
  simp [op.run_eq, deleteFile, allowed, raw, on, looked, isLink, policy,
    deletionTarget_found resolves, deleteThenTry_tried unlinked]

/-- The target goes first, always with unlink(2). -/
theorem run_targetFirst (op : DeleteOp)
    (policy : settings.resolved_symlink_deletion_policy = .targetFirst)
    (resolves : host.realpath world (stripSlashes path) = .ok target)
    (unlinked : host.perform world (.unlink target) = .ok world')
    (deleted : host.perform world' (op.call (stripSlashes path)) = .ok world'') :
    ((op.run host settings path).exec world).result = .ok () ∧
      ((op.run host settings path).exec world).world = world'' := by
  have raw := exec_processPath_raw host settings path false rfl world
  simp [op.run_eq, deleteFile, allowed, raw, on, looked, isLink, policy,
    deletionTarget_found resolves, host.exec_issue_ok unlinked, deleteThenTry_done deleted]

theorem run_targetFirst_failed (op : DeleteOp)
    (policy : settings.resolved_symlink_deletion_policy = .targetFirst)
    (resolves : host.realpath world (stripSlashes path) = .ok target)
    {error : Errno} (failed : host.perform world (.unlink target) = .error error) :
    ((op.run host settings path).exec world).result = .error error ∧
      ((op.run host settings path).exec world).world = world := by
  have raw := exec_processPath_raw host settings path false rfl world
  simp [op.run_eq, deleteFile, allowed, raw, on, looked, isLink, policy,
    deletionTarget_found resolves, host.exec_issue_error failed]

/-- A link that leads nowhere is unlinked under every policy but deny. -/
theorem run_broken (policy : settings.resolved_symlink_deletion_policy ≠ .deny)
    (lost : host.realpath world (stripSlashes path) = .error .enoent)
    (unlinked : host.perform world (.unlink (stripSlashes path)) = .ok world') :
    ((bindfsUnlink host settings path).exec world).result = .ok () ∧
      ((bindfsUnlink host settings path).exec world).world = world' := by
  have raw := exec_processPath_raw host settings path false rfl world
  cases chosen : settings.resolved_symlink_deletion_policy with
  | deny => exact absurd chosen policy
  | symlinkOnly | symlinkFirst | targetFirst =>
    simp [bindfsUnlink, deleteFile, allowed, raw, on, looked, isLink, chosen,
      deletionTarget_lost lost, deleteThenTry_done unlinked]

end

/-! ## Policies -/

section
variable {host : Host W} {view : TreeView W L} {world world' world'' : W}

theorem Removed.other {l : L} (removed : Removed view [l] world world') {l' : L} (other : l' ≠ l) :
    view.entry world' l' = view.entry world l' :=
  removed.2 l' (by simpa using other)

theorem Removed.both {p t : L} (first : Removed view [p] world world')
    (second : Removed view [t] world' world'') : Removed view [p, t] world world'' := by
  constructor
  · intro l member
    by_cases last : l = t
    · exact second.1 l (by simp [last])
    · have isLink : l = p := by simpa [last] using member
      rw [second.other last]
      exact first.1 l (by simp [isLink])
  · intro l kept
    simp only [List.mem_cons, List.not_mem_nil, or_false, not_or] at kept
    rw [second.other kept.2, first.other kept.1]

theorem Removed.symm_pair {p t : L} (removed : Removed view [t, p] world world') :
    Removed view [p, t] world world' := by
  refine ⟨fun l member => removed.1 l ?_, fun l kept => removed.2 l ?_⟩
  · simpa [or_comm] using member
  · simpa [and_comm] using kept

variable (laws : DeletionLaws host view) {path target : CString} {p t : L}
include laws

/-- The target is no link, so it is another entry. -/
theorem LeadsTo.distinct (leads : LeadsTo host view world path target p t) : t ≠ p := by
  rintro rfl
  obtain ⟨l, kind, place, entry, notLink⟩ := laws.realpath_object leads.resolves
  rw [leads.target_place] at place
  cases place
  rw [leads.link] at entry
  cases entry
  exact notLink rfl

/-- The operation that fits removes the target where that is permitted. -/
theorem removes_of_fits {op : DeleteOp} (place : view.place world target = some t)
    (fits : Fits view world t op) (permitted : view.mayRemove world t) :
    ∃ world', host.perform world (op.call target) = .ok world' ∧ Removed view [t] world world' := by
  cases op with
  | unlink => exact laws.unlink_removes place fits (by decide) permitted
  | rmdir => exact laws.rmdir_removes place fits.1 fits.2 permitted

theorem refused_deletion (op : DeleteOp) (place : view.place world target = some t)
    (refused : ¬ view.mayRemove world t) :
    ∃ error, host.perform world (op.call target) = .error error := by
  cases op with
  | unlink => exact laws.unlink_refused place refused
  | rmdir => exact laws.rmdir_refused place refused

/-- Once the link is gone, its target is as it was. -/
theorem LeadsTo.after_unlink (leads : LeadsTo host view world path target p t) {op : DeleteOp}
    (fits : Fits view world t op)
    (unlinked : host.perform world (.unlink (stripSlashes path)) = .ok world')
    (removed : Removed view [p] world world') :
    view.place world' target = some t ∧ Fits view world' t op ∧
      (view.mayRemove world' t ↔ view.mayRemove world t) := by
  have distinct := leads.distinct laws
  have place := laws.canonical_kept leads.link_place leads.link unlinked leads.resolves
  refine ⟨place.trans leads.target_place, ?_,
    laws.mayRemove_kept leads.link_place unlinked distinct⟩
  have entry := removed.other distinct
  cases op with
  | unlink => exact entry.trans fits
  | rmdir => exact ⟨entry.trans fits.1, laws.isEmpty_kept unlinked fits.2⟩

/-- Once a target that is not a directory is gone, the link is as it was. -/
theorem LeadsTo.after_target (leads : LeadsTo host view world path target p t)
    (fits : view.entry world t = some .other)
    (unlinked : host.perform world (.unlink target) = .ok world')
    (removed : Removed view [t] world world') :
    view.place world' (stripSlashes path) = some p ∧ view.entry world' p = some .link ∧
      (view.mayRemove world' p ↔ view.mayRemove world p) := by
  have distinct := (leads.distinct laws).symm
  exact ⟨laws.path_kept leads.target_place fits unlinked leads.link_place distinct,
    (removed.other distinct).trans leads.link,
    laws.mayRemove_kept leads.target_place unlinked distinct⟩

variable {settings : Settings} (on : settings.resolve_symlinks = true)
  (allowed : settings.delete_deny = false)
include on allowed

/-- The link goes first and takes its target along where that is permitted. -/
theorem symlinkFirst_honoured (leads : LeadsTo host view world path target p t) {op : DeleteOp}
    (fits : Fits view world t op)
    (policy : settings.resolved_symlink_deletion_policy = .symlinkFirst) :
    PolicyHonoured host view settings world path op p t := by
  unfold PolicyHonoured
  simp only [policy]
  intro permitted
  obtain ⟨stbuf, looked, isLink⟩ := laws.lstat_link leads.link_place leads.link
  obtain ⟨between, unlinked, gone⟩ :=
    laws.unlink_removes leads.link_place leads.link (by decide) permitted
  obtain ⟨place, fits', same⟩ := leads.after_unlink laws fits unlinked gone
  obtain ⟨result, final⟩ := run_symlinkFirst on allowed looked isLink op policy leads.resolves unlinked
  rw [result, final]
  refine ⟨rfl, fun removable => ?_, fun refused => ?_⟩
  · obtain ⟨last, deleted, gone'⟩ := removes_of_fits laws place fits' (same.mpr removable)
    rw [afterTrying, deleted]
    exact gone.both gone'
  · obtain ⟨error, failed⟩ := refused_deletion laws op place (fun may => refused (same.mp may))
    rw [afterTrying, failed]
    exact gone

/-- A target that is not a directory goes first, then the link. -/
theorem targetFirst_honoured_iff (leads : LeadsTo host view world path target p t) {op : DeleteOp}
    (fits : Fits view world t op)
    (policy : settings.resolved_symlink_deletion_policy = .targetFirst) :
    PolicyHonoured host view settings world path op p t ↔
      ¬ (op = .rmdir ∧ view.mayRemove world p ∧ view.mayRemove world t) := by
  unfold PolicyHonoured
  simp only [policy]
  obtain ⟨stbuf, looked, isLink⟩ := laws.lstat_link leads.link_place leads.link
  have refused : ¬ view.mayRemove world t →
      (∃ error, ((op.run host settings path).exec world).result = .error error) ∧
        ((op.run host settings path).exec world).world = world := by
    intro refused
    obtain ⟨error, failed⟩ := laws.unlink_refused leads.target_place refused
    have ended := run_targetFirst_failed on allowed looked isLink op policy leads.resolves failed
    exact ⟨⟨error, ended.1⟩, ended.2⟩
  cases op with
  | unlink =>
    refine iff_of_true ⟨fun permitted removable => ?_, refused⟩ (by simp)
    obtain ⟨between, unlinked, gone⟩ :=
      laws.unlink_removes leads.target_place fits (by decide) removable
    obtain ⟨place, link, same⟩ := leads.after_target laws fits unlinked gone
    obtain ⟨last, deleted, gone'⟩ :=
      laws.unlink_removes place link (by decide) (same.mpr permitted)
    obtain ⟨result, final⟩ :=
      run_targetFirst on allowed looked isLink .unlink policy leads.resolves unlinked deleted
    rw [result, final]
    exact ⟨rfl, (gone.both gone').symm_pair⟩
  | rmdir =>
    -- unlink(2) is tried on the directory and fails
    obtain ⟨error, failed⟩ := laws.unlink_directory leads.target_place fits.1
    have ended := run_targetFirst_failed on allowed looked isLink .rmdir policy leads.resolves failed
    constructor
    · rintro ⟨honoured, -⟩ ⟨-, permitted, removable⟩
      have claimed := (honoured permitted removable).1
      rw [ended.1] at claimed
      cases claimed
    · intro notBoth
      exact ⟨fun permitted removable => absurd ⟨rfl, permitted, removable⟩ notBoth, refused⟩

/-- The policies for a link that leads to an object. -/
theorem honoured_iff (leads : LeadsTo host view world path target p t) {op : DeleteOp}
    (fits : Fits view world t op) :
    PolicyHonoured host view settings world path op p t ↔
      ¬ (settings.resolved_symlink_deletion_policy = .targetFirst ∧ op = .rmdir ∧
        view.mayRemove world p ∧ view.mayRemove world t) := by
  obtain ⟨stbuf, looked, isLink⟩ := laws.lstat_link leads.link_place leads.link
  cases policy : settings.resolved_symlink_deletion_policy with
  | deny =>
    refine iff_of_true ?_ (by simp)
    unfold PolicyHonoured
    simp only [policy]
    exact run_deny on allowed looked isLink op policy
  | symlinkOnly =>
    refine iff_of_true ?_ (by simp)
    unfold PolicyHonoured
    simp only [policy]
    intro permitted
    obtain ⟨last, unlinked, gone⟩ :=
      laws.unlink_removes leads.link_place leads.link (by decide) permitted
    obtain ⟨result, final⟩ := run_symlinkOnly on allowed looked isLink op policy unlinked
    rw [result, final]
    exact ⟨rfl, gone⟩
  | symlinkFirst =>
    exact iff_of_true (symlinkFirst_honoured laws on allowed leads fits policy) (by simp)
  | targetFirst => simpa using targetFirst_honoured_iff laws on allowed leads fits policy

theorem broken_honoured (place : view.place world (stripSlashes path) = some p)
    (link : view.entry world p = some .link)
    (lost : host.realpath world (stripSlashes path) = .error .enoent) :
    BrokenHonoured host view settings world path p := by
  intro policy permitted
  obtain ⟨stbuf, looked, isLink⟩ := laws.lstat_link place link
  obtain ⟨last, unlinked, gone⟩ := laws.unlink_removes place link (by decide) permitted
  obtain ⟨result, final⟩ := run_broken on allowed looked isLink policy lost unlinked
  rw [result, final]
  exact ⟨rfl, gone⟩

end

/-- On every tree, deleting a symlink that leads to an object does what the policy says exactly
when it is not `target-first` asked to delete an empty directory it may delete; a symlink that
leads nowhere is always deleted as promised. -/
theorem deletion_policies_honoured_iff {host : Host W} {view : TreeView W L}
    (laws : DeletionLaws host view) {settings : Settings}
    (on : settings.resolve_symlinks = true) (allowed : settings.delete_deny = false) :
    (∀ world path target op p t, LeadsTo host view world path target p t → Fits view world t op →
      (PolicyHonoured host view settings world path op p t ↔
        ¬ (settings.resolved_symlink_deletion_policy = .targetFirst ∧ op = .rmdir ∧
          view.mayRemove world p ∧ view.mayRemove world t))) ∧
    ∀ world path p, view.place world (stripSlashes path) = some p →
      view.entry world p = some .link → host.realpath world (stripSlashes path) = .error .enoent →
        BrokenHonoured host view settings world path p :=
  ⟨fun _ _ _ _ _ _ leads fits => honoured_iff laws on allowed leads fits,
    fun _ _ _ place link lost => broken_honoured laws on allowed place link lost⟩

/-! ## A tree of links, files and empty directories -/

inductive FlatEntry where
  | link (target : CString)
  | directory
  | file
  deriving DecidableEq, Repr

def FlatEntry.kind : FlatEntry → Kind
  | .link _ => .link
  | .directory => .directory
  | .file => .other

def FlatEntry.mode : FlatEntry → Mode
  | .link _ => S_IFLNK ||| 0o777#32
  | .directory => S_IFDIR ||| 0o755#32
  | .file => S_IFREG ||| 0o644#32

/-- Objects by their paths; the directories are empty and links lead to no other link. -/
structure FlatTree where
  entries : CString → Option FlatEntry
  /-- Objects with the immutable attribute. -/
  locked : CString → Bool

namespace FlatTree

def remove (tree : FlatTree) (path : CString) : Except Errno FlatTree :=
  if tree.locked path then .error .eperm
  else .ok { tree with entries := fun other => if other = path then none else tree.entries other }

def unlink (tree : FlatTree) (path : CString) : Except Errno FlatTree :=
  match tree.entries path with
  | none => .error .enoent
  | some .directory => .error .eisdir
  | some _ => tree.remove path

def rmdir (tree : FlatTree) (path : CString) : Except Errno FlatTree :=
  match tree.entries path with
  | none => .error .enoent
  | some .directory => tree.remove path
  | some _ => .error .enotdir

def realpath (tree : FlatTree) (path : CString) : Except Errno CString :=
  match tree.entries path with
  | none => .error .enoent
  | some (.link target) =>
    match tree.entries target with
    | none => .error .enoent
    | some (.link _) => .error .eloop
    | some _ => .ok target
  | some _ => .ok path

end FlatTree

def flatHost : Host FlatTree where
  realpath := FlatTree.realpath
  lstat tree path :=
    match tree.entries path with
    | none => .error .enoent
    | some entry => .ok (sampleStat 0#32 0#32 entry.mode)
  access _ _ _ := .ok ()
  blockSize _ _ := .error .enosys
  opendir _ _ := .error .enosys
  readlink _ _ _ := .error .enosys
  statvfs _ _ := .error .enosys
  lgetxattr _ _ _ _ := .error .enosys
  llistxattr _ _ _ := .error .enosys
  openFile _ _ _ _ := .error .enosys
  descriptor _ _ := .error .enosys
  mmap _ := true
  perform tree c :=
    match c with
    | .unlink path => tree.unlink path
    | .rmdir path => tree.rmdir path
    | _ => .error .enosys
  userBelongsToGroup _ _ := false

def flatView : TreeView FlatTree CString where
  entry tree l := (tree.entries l).map FlatEntry.kind
  place tree path := if (tree.entries path).isSome then some path else none
  isEmpty _ _ := True
  mayRemove tree l := tree.locked l = false

theorem flat_place {tree : FlatTree} {path l : CString} (place : flatView.place tree path = some l) :
    l = path := by
  simp only [flatView] at place
  split at place
  · exact (Option.some.inj place).symm
  · cases place

theorem flat_entry {tree : FlatTree} {l : CString} {kind : Kind}
    (entry : flatView.entry tree l = some kind) :
    ∃ object, tree.entries l = some object ∧ object.kind = kind :=
  Option.map_eq_some_iff.mp entry

theorem flat_remove {tree tree' : FlatTree} {l : CString} (removed : tree.remove l = .ok tree') :
    tree' = { tree with entries := fun other => if other = l then none else tree.entries other } := by
  unfold FlatTree.remove at removed
  split at removed
  · cases removed
  · exact (Except.ok.inj removed).symm

theorem flat_unlink {tree tree' : FlatTree} {l : CString} (unlinked : tree.unlink l = .ok tree') :
    tree' = { tree with entries := fun other => if other = l then none else tree.entries other } := by
  unfold FlatTree.unlink at unlinked
  split at unlinked
  · cases unlinked
  · cases unlinked
  · exact flat_remove unlinked

theorem flat_removes {tree : FlatTree} {l : CString} (permitted : flatView.mayRemove tree l) :
    ∃ tree', tree.remove l = .ok tree' ∧ Removed flatView [l] tree tree' := by
  have unlocked : tree.locked l = false := permitted
  refine ⟨_, by rw [FlatTree.remove, unlocked, if_neg Bool.false_ne_true], ?_, ?_⟩
  · intro other member
    simp [flatView, List.mem_singleton.mp member]
  · intro other kept
    have different : other ≠ l := by simpa using kept
    simp [flatView, different]

theorem flat_refuses {tree : FlatTree} {l : CString} (refused : ¬ flatView.mayRemove tree l) :
    tree.remove l = .error .eperm := by
  have locked : tree.locked l = true := by simpa [flatView] using refused
  rw [FlatTree.remove, if_pos locked]

theorem flat_realpath {tree : FlatTree} {path target : CString}
    (resolves : tree.realpath path = .ok target) :
    ∃ object, tree.entries target = some object ∧ object.kind ≠ .link := by
  unfold FlatTree.realpath at resolves
  split at resolves
  · cases resolves
  · split at resolves
    · cases resolves
    · cases resolves
    · rename_i object notLink found
      cases resolves
      cases object with
      | link other => exact absurd rfl (notLink other)
      | directory => exact ⟨_, found, by decide⟩
      | file => exact ⟨_, found, by decide⟩
  · rename_i object notLink found
    cases resolves
    cases object with
    | link other => exact absurd rfl (notLink other)
    | directory => exact ⟨_, found, by decide⟩
    | file => exact ⟨_, found, by decide⟩

theorem flat_laws : DeletionLaws flatHost flatView where
  lstat_link := by
    intro tree path l place entry
    obtain rfl := flat_place place
    obtain ⟨object, found, isLink⟩ := flat_entry entry
    cases object with
    | link target =>
      have answered : flatHost.lstat tree l =
          .ok (sampleStat 0#32 0#32 (FlatEntry.link target).mode) := by
        simp only [flatHost, found]
      exact ⟨_, answered, (by decide : S_ISLNK (S_IFLNK ||| 0o777#32) = true)⟩
    | directory | file => cases isLink
  unlink_removes := by
    intro tree path l kind place entry notDirectory permitted
    obtain rfl := flat_place place
    obtain ⟨object, found, rfl⟩ := flat_entry entry
    obtain ⟨tree', removed, gone⟩ := flat_removes permitted
    refine ⟨tree', ?_, gone⟩
    cases object with
    | directory => exact absurd rfl notDirectory
    | link target => simpa [flatHost, FlatTree.unlink, found] using removed
    | file => simpa [flatHost, FlatTree.unlink, found] using removed
  unlink_directory := by
    intro tree path l place entry
    obtain rfl := flat_place place
    obtain ⟨object, found, isDirectory⟩ := flat_entry entry
    cases object with
    | directory => simp [flatHost, FlatTree.unlink, found]
    | link target => cases isDirectory
    | file => cases isDirectory
  unlink_refused := by
    intro tree path l place refused
    obtain rfl := flat_place place
    simp only [flatHost, FlatTree.unlink, flat_refuses refused]
    split <;> simp
  rmdir_removes := by
    intro tree path l place entry _ permitted
    obtain rfl := flat_place place
    obtain ⟨object, found, isDirectory⟩ := flat_entry entry
    obtain ⟨tree', removed, gone⟩ := flat_removes permitted
    refine ⟨tree', ?_, gone⟩
    cases object with
    | directory => simpa [flatHost, FlatTree.rmdir, found] using removed
    | link target => cases isDirectory
    | file => cases isDirectory
  rmdir_refused := by
    intro tree path l place refused
    obtain rfl := flat_place place
    simp only [flatHost, FlatTree.rmdir, flat_refuses refused]
    split <;> simp
  realpath_object := by
    intro tree path target resolves
    obtain ⟨object, found, notLink⟩ := flat_realpath resolves
    exact ⟨target, object.kind, by simp [flatView, found], by simp [flatView, found], notLink⟩
  canonical_kept := by
    intro tree tree' path l other target place entry unlinked resolves
    obtain rfl := flat_place place
    obtain ⟨object, found, notLink⟩ := flat_realpath resolves
    have different : target ≠ l := by
      rintro rfl
      simp only [flatView, found, Option.map_some, Option.some.injEq] at entry
      exact notLink entry
    rw [flat_unlink unlinked]
    simp [flatView, different]
  path_kept := by
    intro tree tree' path l other l' place _ unlinked place' different
    obtain rfl := flat_place place
    obtain rfl := flat_place place'
    rw [flat_unlink unlinked]
    simpa [flatView, different] using place'
  mayRemove_kept := by
    intro tree tree' path l l' place unlinked _
    rw [flat_unlink unlinked]
    rfl
  isEmpty_kept := fun _ _ => trivial

/-- `/p` leads to the object at `/t` and `/b` nowhere. -/
def linkTree (object : FlatEntry) : FlatTree where
  entries path :=
    if path = ['p'] then some (.link ['/', 't'])
    else if path = ['b'] then some (.link ['/', 'x'])
    else if path = ['/', 't'] then some object
    else none
  locked _ := false

def deletionSettings (policy : ResolvedSymlinkDeletion) : Settings :=
  { initialSettings 0#32 with
    resolve_symlinks := true
    resolved_symlink_deletion_policy := policy }

/-- A file behind `/p` is deleted under target-first, and so is the broken `/b`. -/
theorem deletion_policies_honoured_of_file :
    DeletionLaws flatHost flatView ∧
    (deletionSettings .targetFirst).resolve_symlinks = true ∧
    (deletionSettings .targetFirst).delete_deny = false ∧
    PolicyHonoured flatHost flatView (deletionSettings .targetFirst) (linkTree .file) ['/', 'p']
      .unlink ['p'] ['/', 't'] ∧
    BrokenHonoured flatHost flatView (deletionSettings .targetFirst) (linkTree .file) ['/', 'b']
      ['b'] := by
  have both := deletion_policies_honoured_iff flat_laws
    (show (deletionSettings .targetFirst).resolve_symlinks = true from rfl) rfl
  have leads : LeadsTo flatHost flatView (linkTree .file) ['/', 'p'] ['/', 't'] ['p'] ['/', 't'] :=
    ⟨rfl, rfl, rfl, rfl⟩
  have fits : Fits flatView (linkTree .file) ['/', 't'] .unlink := rfl
  exact ⟨flat_laws, rfl, rfl, (both.1 _ _ _ _ _ _ leads fits).mpr (by simp),
    both.2 _ _ _ rfl rfl rfl⟩

/-- An empty directory behind `/p` is not deleted under target-first, although all of it may be
deleted: unlink(2) fails on it. -/
theorem deletion_policy_broken_of_directory :
    LeadsTo flatHost flatView (linkTree .directory) ['/', 'p'] ['/', 't'] ['p'] ['/', 't'] ∧
    Fits flatView (linkTree .directory) ['/', 't'] .rmdir ∧
    ¬ PolicyHonoured flatHost flatView (deletionSettings .targetFirst) (linkTree .directory)
      ['/', 'p'] .rmdir ['p'] ['/', 't'] := by
  refine ⟨⟨rfl, rfl, rfl, rfl⟩, ⟨rfl, trivial⟩, fun honoured => ?_⟩
  have claimed := (honoured.1 rfl rfl).1
  cases claimed

end Bindfs.Guarantees.SymlinkDeletion
