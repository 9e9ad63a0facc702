import Bindfs.Source.Host

/-!
# A file system given by tables

A small executable `Host`, on which the handlers can be run. Every path the handlers use
is spelled out in the tables; creation enters a path into the tree, deletion takes it out.
-/
namespace Bindfs.Source

structure TableTree where
  /-- What lstat(2) says of a path. -/
  stats : List (CString × Stat)
  /-- What realpath(3) says of a path. -/
  canonical : List (CString × Except Errno CString)
  /-- The listings of the directories. -/
  listings : List (CString × List Dirent)
  /-- The sizes of the block devices that can be opened. -/
  sizes : List (CString × BitVec 64)
  /-- The objects created since. -/
  created : List CString

namespace TableTree

def find {α : Type} (table : List (CString × α)) (path : CString) : Except Errno α :=
  match table.lookup path with
  | some value => .ok value
  | none => .error .enoent

def create (tree : TableTree) (path : CString) : Except Errno TableTree :=
  if (tree.stats.lookup path).isSome || tree.created.contains path then .error .eexist
  else .ok { tree with created := path :: tree.created }

def remove (tree : TableTree) (path : CString) : Except Errno TableTree :=
  if (tree.stats.lookup path).isSome then
    .ok { tree with stats := tree.stats.filter (fun entry => entry.1 ≠ path) }
  else .error .enoent

end TableTree

open TableTree in
def tableHost : Host TableTree where
  realpath tree path := (find tree.canonical path).bind id
  lstat tree path := find tree.stats path
  access tree path _ := (find tree.stats path).map (fun _ => ())
  blockSize tree path := find tree.sizes path
  opendir tree path := (find tree.listings path).map (fun entries => ⟨entries, none⟩)
  readlink _ _ _ := .error .einval
  statvfs _ _ := .ok []
  lgetxattr _ _ _ _ := .error .enosys
  llistxattr _ _ _ := .error .enosys
  openFile tree path _ _ := (tree.create path).map (fun tree' => (3, tree'))
  descriptor tree _ := .ok ([], tree)
  mmap _ := true
  perform tree c :=
    match c with
    | .mkfifo path _ => tree.create path
    | .mknod path _ _ => tree.create path
    | .mkdir path _ => tree.create path
    | .symlink _ path => tree.create path
    | .unlink path => tree.remove path
    | .rmdir path => tree.remove path
    | .chown _ _ _ => .ok tree
    | .lchown _ _ _ => .ok tree
    | .chmod _ _ => .ok tree
    | _ => .error .eperm
  userBelongsToGroup _ _ := false

namespace TableTree

def empty : TableTree := ⟨[], [], [], [], []⟩

theorem mem_of_find {α : Type} {table : List (CString × α)} {path : CString} {value : α}
    (found : find table path = .ok value) : (path, value) ∈ table := by
  unfold find at found
  split at found
  · rename_i stored looked
    cases found
    obtain ⟨before, after, rfl, -⟩ := List.lookup_eq_some_iff.mp looked
    simp
  · cases found

theorem find_of_absent {α : Type} {table : List (CString × α)} {path : CString}
    (absent : path ∉ table.map Prod.fst) : find table path = .error .enoent := by
  cases found : find table path with
  | ok value => exact absurd (List.mem_map.mpr ⟨_, mem_of_find found, rfl⟩) absent
  | error error =>
    unfold find at found
    split at found
    · cases found
    · exact found.symm

theorem mem_of_realpath {tree : TableTree} {path target : CString}
    (found : tableHost.realpath tree path = .ok target) : (path, .ok target) ∈ tree.canonical := by
  simp only [tableHost] at found
  cases listed : find tree.canonical path with
  | error error =>
    rw [listed] at found
    cases found
  | ok answer =>
    rw [listed] at found
    have same : answer = .ok target := found
    exact same ▸ mem_of_find listed

theorem create_ok {tree tree' : TableTree} {path : CString} (created : tree.create path = .ok tree') :
    tree' = { tree with created := path :: tree.created } := by
  unfold create at created
  split at created
  · cases created
  · exact (Except.ok.inj created).symm

end TableTree

/-- A tree on a read-only file system: it answers as the tables say and never changes. -/
def frozenHost (tree : TableTree) : Host Unit where
  realpath _ := tableHost.realpath tree
  lstat _ := tableHost.lstat tree
  access _ := tableHost.access tree
  blockSize _ := tableHost.blockSize tree
  opendir _ := tableHost.opendir tree
  readlink _ := tableHost.readlink tree
  statvfs _ := tableHost.statvfs tree
  lgetxattr _ := tableHost.lgetxattr tree
  llistxattr _ := tableHost.llistxattr tree
  -- EROFS
  openFile _ _ _ _ := .error (.other 30)
  descriptor _ _ := .error (.other 30)
  mmap _ := true
  perform _ _ := .error (.other 30)
  userBelongsToGroup _ _ := false

/-- A directory entry of root with these owners and mode. -/
def sampleStat (uid gid : Id) (mode : Mode) : Stat :=
  { st_uid := uid, st_gid := gid, st_mode := mode, st_nlink := 1, st_size := 0,
    st_atim := 0, st_mtim := 0, st_ctim := 0 }

end Bindfs.Source
