import Bindfs.Source.Options
import Bindfs.Source.ReaddirBuffer
import Bindfs.Source.TableHost

/-!
# The path buffer of directory listings

`bindfs_readdir` keeps one growing block for the paths of all entries. It holds the directory and
a slash whenever an iteration begins, so an entry that appends its name to it names the file it
means: names can grow and shrink, and entries can pass the buffer by, in any order. Nothing is
written outside the allocation, and the requests are those of a handler that builds every path
afresh.
-/
namespace Bindfs.Guarantees.PathBuffer
open Bindfs.Source
open Bindfs.Lib.Effects

/-- The block at the start of an iteration, after the append and after the size is cut back. -/
structure IterationInOrder (settings : Settings) (readdirplus : Bool) (realPath : CString)
    (pathBuf : MemoryBlock Char) (de : Dirent) : Prop where
  size_le : pathBuf.size ≤ pathBuf.capacity
  path : usesPathBuf settings readdirplus de = true →
    ∃ longer, appendEntry pathBuf de = some (de.d_name.length + 1, longer) ∧
      longer.size ≤ longer.capacity ∧
      longer.readString NUL 0 = some (realPath ++ '/' :: de.d_name) ∧
      (cutBack longer (de.d_name.length + 1)).size ≤
        (cutBack longer (de.d_name.length + 1)).capacity

theorem iterationInOrder {settings : Settings} {readdirplus : Bool} {realPath : CString}
    {pathBuf : MemoryBlock Char} {de : Dirent} (fits : FitsInt realPath) (named : FitsInt de.d_name)
    (holds : HoldsDirectory realPath pathBuf) :
    IterationInOrder settings readdirplus realPath pathBuf de := by
  refine ⟨holds.size_le_capacity, fun _ => ?_⟩
  obtain ⟨longer, appended, after, string⟩ := appendEntry_spec fits holds named
  exact ⟨longer, appended, after.size_le_capacity, string,
    (holdsDirectory_cutBack fits named after).size_le_capacity⟩

/-- For every directory and every list of entries, used or passed by in any order: each iteration
finds and leaves the buffer in order, and the handler issues the requests for `realPath/d_name`. -/
theorem path_buffer_names_entries (settings : Settings) (readdirplus : Bool) (realPath : CString)
    (entries : List Dirent) (on : (settings.resolve_symlinks || readdirplus) = true)
    (fits : FitsInt realPath) (named : ∀ de ∈ entries, FitsInt de.d_name) :
    (∃ start, startPathBuf settings readdirplus realPath = some start ∧
      ∀ done de rest, entries = done ++ de :: rest →
        ∃ pathBuf, done.foldlM (pathBufAfter settings readdirplus) start = some pathBuf ∧
          IterationInOrder settings readdirplus realPath pathBuf de) ∧
    ∀ {W : Type} (host : Host W) (fc : FuseContext) (path : CString)
      (filler : Filled → Except Errno Unit) (world : W) (error : Option Errno),
      ((openDirectory host settings path).exec world).result = .ok (realPath, ⟨entries, error⟩) →
        (bindfsReaddirInBuffer host settings fc path filler readdirplus).exec world =
          (some <$> bindfsReaddir host settings fc path filler readdirplus).exec world := by
  refine ⟨?_, ?_⟩
  · obtain ⟨start, filled, ready⟩ := startPathBuf_spec settings readdirplus fits
    refine ⟨start, filled, ?_⟩
    intro done de rest split
    subst split
    obtain ⟨pathBuf, passed, kept⟩ := pathBufAfter_run settings readdirplus fits done
      (fun de member => named de (List.mem_append_left _ member)) ready
    exact ⟨pathBuf, passed, iterationInOrder fits (named de (by simp)) (kept on)⟩
  · intro W host fc path filler world error opened
    exact bindfsReaddirInBuffer_eq host settings fc path filler readdirplus opened fits named

/-- A link with a long name, a file that passes the buffer by and a link with a short name. -/
def mixedEntries : List Dirent :=
  [⟨['l', 'o', 'n', 'g', 'e', 'r', '-', 'l', 'i', 'n', 'k'], .lnk⟩, ⟨['f'], .other⟩, ⟨['k'], .lnk⟩]

/-- They lie in `/s/d`, which is `d` in the source directory. Both links lead to `/s/f`. -/
def mixedTree : TableTree where
  stats := [(['/', 's', '/', 'f'], sampleStat 0 0 0o100644)]
  canonical := (['d'], .ok ['/', 's', '/', 'd']) ::
    (mixedEntries.filter (·.d_type = .lnk)).map fun de =>
      ("/s/d/".toList ++ de.d_name, .ok ['/', 's', '/', 'f'])
  listings := [(['/', 's', '/', 'd'], mixedEntries)]
  sizes := []
  created := []

/-- The buffer is in order in each iteration, and the handler lists the three entries. -/
theorem path_buffer_names_entries_of_mixed :
    (∃ start, startPathBuf resolvingSettings false ['/', 's', '/', 'd'] = some start ∧
      ∀ done de rest, mixedEntries = done ++ de :: rest →
        ∃ pathBuf, done.foldlM (pathBufAfter resolvingSettings false) start = some pathBuf ∧
          IterationInOrder resolvingSettings false ['/', 's', '/', 'd'] pathBuf de) ∧
    ((bindfsReaddirInBuffer tableHost resolvingSettings ⟨0, 0⟩ ['/', 'd'] (fun _ => .ok ()) false).exec
      mixedTree).result =
        .ok (some ⟨mixedEntries.map fun de => ⟨de.d_name, none⟩, .ok ()⟩) := by
  have named : ∀ de ∈ mixedEntries, FitsInt de.d_name := by
    intro de member
    simp only [mixedEntries, List.mem_cons, List.not_mem_nil, or_false] at member
    rcases member with rfl | rfl | rfl
    · exact ⟨by decide, by decide⟩
    · exact ⟨by decide, by decide⟩
    · exact ⟨by decide, by decide⟩
  obtain ⟨inOrder, same⟩ := path_buffer_names_entries resolvingSettings false ['/', 's', '/', 'd'] mixedEntries rfl
    ⟨by decide, by decide⟩ named
  refine ⟨inOrder, ?_⟩
  rw [same tableHost ⟨0, 0⟩ ['/', 'd'] (fun _ => .ok ()) mixedTree none rfl]
  rfl

end Bindfs.Guarantees.PathBuffer
