import Bindfs.Source.DirectorySpecs
import Bindfs.Source.TableHost

/-!
# Attributes from readdirplus and from getattr

Both handlers end in `getattr_common`, but they resolve symbolic links with different code.
`plus_attributes_match_iff` says for which entries the attributes passed by readdirplus are
those of a getattr on the entry: always without `--resolve-symlinks`, and with it exactly
when the entry's own resolution is neither refused nor skipped.

The file system is assumed to read paths as POSIX says (`PathLaws`): a path and its
canonical spelling name the same object.
-/
namespace Bindfs.Guarantees.ReaddirPlus
open Bindfs.Source Bindfs.Lib.Effects

section
variable {W : Type} (host : Host W) (world : W)

/-- The two paths name the same directory entry. -/
structure SamePath (path path' : CString) : Prop where
  lstat : host.lstat world path = host.lstat world path'
  realpath : host.realpath world path = host.realpath world path'
  blockSize : host.blockSize world path = host.blockSize world path'
  access : host.access world path = host.access world path'

/-- A name that a directory can hold, other than "." and "..". -/
structure IsName (name : CString) : Prop where
  nonempty : name ≠ []
  no_slash : '/' ∉ name
  not_dot : name ≠ ['.']
  not_dotdot : name ≠ ['.', '.']

/-- How a file system reads the paths in a tree. -/
structure PathLaws : Prop where
  /-- Directory entries have non-empty names without slashes. -/
  names : ∀ {path listing}, host.opendir world path = .ok listing →
    ∀ de ∈ listing.entries, de.d_name ≠ [] ∧ '/' ∉ de.d_name
  /-- "./name" is "name". -/
  dot : ∀ {name}, IsName name → SamePath host world ('.' :: '/' :: name) name
  /-- A directory can be replaced by its canonical path. -/
  directory : ∀ {path canonical name}, host.realpath world path = .ok canonical →
    IsName name → SamePath host world (path ++ '/' :: name) (canonical ++ '/' :: name)
  /-- Calls that follow links act on the resolved path. -/
  follow : ∀ {path target}, host.realpath world path = .ok target →
    host.blockSize world path = host.blockSize world target ∧
      host.access world path = host.access world target
  /-- A path whose last component is no link is its own target. -/
  own_target : ∀ {path target stbuf}, host.realpath world path = .ok target →
    host.lstat world path = .ok stbuf → S_ISLNK stbuf.st_mode = false →
      host.lstat world target = .ok stbuf
  /-- A resolved path is no link. -/
  resolved : ∀ {path target stbuf}, host.realpath world path = .ok target →
    host.lstat world target = .ok stbuf → S_ISLNK stbuf.st_mode = false

end

section
variable {W : Type} (host : Host W) (settings : Settings) (fc : FuseContext) (world : W)

/-- The path under which a getattr names an entry of a directory. -/
def childPath (path name : CString) : CString := path ++ '/' :: name

theorem dropWhile_childPath (path : CString) {name : CString} (isName : IsName name) :
    (childPath path name).dropWhile (· = '/') =
      match path.dropWhile (· = '/') with
      | [] => name
      | c :: rest => c :: rest ++ '/' :: name := by
  have keeps : name.dropWhile (· = '/') = name := by
    cases name with
    | nil => rfl
    | cons c rest =>
      have other : c ≠ '/' := fun same => isName.no_slash (by simp [same])
      simp [other]
  unfold childPath
  rw [List.dropWhile_append]
  cases path.dropWhile (· = '/') with
  | nil => simp [keeps]
  | cons c rest => simp

/-- The path that a getattr on an entry looks up. -/
theorem stripSlashes_childPath (path : CString) {name : CString} (isName : IsName name) :
    stripSlashes (childPath path name) = stripSlashes path ++ '/' :: name ∨
      (stripSlashes path = ['.'] ∧ stripSlashes (childPath path name) = name) := by
  have drop := dropWhile_childPath path isName
  unfold stripSlashes
  rw [drop]
  cases path.dropWhile (· = '/') with
  | cons c rest => exact Or.inl rfl
  | nil =>
    refine Or.inr ⟨rfl, ?_⟩
    cases name with
    | nil => exact absurd rfl isName.nonempty
    | cons c rest => rfl

variable {host world} in
theorem SamePath.trans {a b c : CString} (first : SamePath host world a b)
    (second : SamePath host world b c) : SamePath host world a c :=
  ⟨first.lstat.trans second.lstat, first.realpath.trans second.realpath,
    first.blockSize.trans second.blockSize, first.access.trans second.access⟩

variable {host world} in
theorem SamePath.refl (a : CString) : SamePath host world a a := ⟨rfl, rfl, rfl, rfl⟩

variable {host world} in
theorem SamePath.symm {a b : CString} (same : SamePath host world a b) : SamePath host world b a :=
  ⟨same.lstat.symm, same.realpath.symm, same.blockSize.symm, same.access.symm⟩

/-- A getattr on an entry and the directory loop look at the same object. -/
theorem samePath_entry {path realPath : CString} {de : Dirent} (laws : PathLaws host world)
    (located : requestPath host settings world path = .ok realPath) (isName : IsName de.d_name) :
    SamePath host world (stripSlashes (childPath path de.d_name)) (entryPath realPath de) := by
  have spelled : SamePath host world (stripSlashes (childPath path de.d_name))
      (stripSlashes path ++ '/' :: de.d_name) := by
    rcases stripSlashes_childPath path isName with same | ⟨dot, bare⟩
    · rw [same]
      exact SamePath.refl _
    · rw [dot, bare]
      exact (laws.dot isName).symm
  refine spelled.trans ?_
  unfold requestPath at located
  split at located
  · unfold guardedPath at located
    split at located
    · cases located
      exact SamePath.refl _
    · cases located
    · rename_i canonical found
      split at located
      · cases located
      · cases located
        exact laws.directory found isName
  · cases located
    exact SamePath.refl _

/-! ## Passed attributes -/

/-- In readdirplus mode the filler receives `stbuf` for the entry `de`, the i-th of the directory. -/
def PassedAt (path : CString) (filler : Filled → Except Errno Unit) (i : Nat) (de : Dirent)
    (stbuf : Stat) : Prop :=
  ∃ realPath listing reply, requestPath host settings world path = .ok realPath ∧
    host.opendir world realPath = .ok listing ∧ listing.entries[i]? = some de ∧
    ((bindfsReaddir host settings fc path filler true).exec world).result = .ok reply ∧
    reply.filled[i]? = some ⟨de.d_name, some stbuf⟩

/-- A getattr on the entry succeeds with the owner, group, mode, size and link count in `stbuf`. -/
def GetattrAgrees (path : CString) (stbuf : Stat) : Prop :=
  ∃ shown, ((bindfsGetattr host settings fc path).exec world).result = .ok shown ∧
    shown.st_uid = stbuf.st_uid ∧ shown.st_gid = stbuf.st_gid ∧ shown.st_mode = stbuf.st_mode ∧
    shown.st_size = stbuf.st_size ∧ shown.st_nlink = stbuf.st_nlink

/-- Where symlinks are resolved, the entry resolves to something outside the mountpoint or to
nothing at all, and if it is a link then its `d_type` says so. -/
def ResolvesAlike (path : CString) (de : Dirent) : Prop :=
  settings.resolve_symlinks = true →
    match host.realpath world path with
    | .ok target => pathStartsWith target settings.mntdest = false ∧
        ∀ stbuf, host.lstat world path = .ok stbuf → S_ISLNK stbuf.st_mode = true →
          de.d_type = .lnk
    | .error error => error = .enoent

/-- What readdirplus did for an entry it passed on. -/
theorem report_of_passedAt {path : CString} {filler : Filled → Except Errno Unit} {i : Nat}
    {de : Dirent} {stbuf : Stat} (laws : PathLaws host world)
    (passed : PassedAt host settings fc world path filler i de stbuf) :
    de.d_name ≠ [] ∧ '/' ∉ de.d_name ∧
      ∃ realPath st, requestPath host settings world path = .ok realPath ∧
        shownStat host settings world (entryPath realPath de) de = .ok st ∧
        attributeReport host settings fc (host.blockSize world (entryPath realPath de))
          (host.access world (entryPath realPath de)) st = .ok stbuf := by
  obtain ⟨realPath, listing, reply, located, opened, at_i, answered, filled⟩ := passed
  rw [result_bindfsReaddir host settings fc world filler true located opened] at answered
  cases answered
  obtain ⟨de', at_i', reported⟩ := loopReport_filled filler listing.atEnd _ _ filled
  rw [at_i] at at_i'
  cases at_i'
  obtain ⟨nonempty, no_slash⟩ := laws.names opened de (List.mem_of_getElem? at_i)
  obtain ⟨st, shown, stat, report, entry⟩ :=
    (plusReport_ok_iff host settings fc world realPath de _).mp reported
  cases entry
  exact ⟨nonempty, no_slash, realPath, st, located, stat, report⟩

variable {host settings fc world} in
theorem statReport_of_lstat {path : CString} {st : Stat} (found : host.lstat world path = .ok st) :
    statReport host settings fc world path =
      attributeReport host settings fc (host.blockSize world path) (host.access world path) st := by
  unfold statReport
  rw [found]
  rfl

variable {host settings fc world} in
/-- The report does not depend on which of two spellings is used. -/
theorem attributeReport_congr {path path' : CString} {st stbuf : Stat}
    (sizes : host.blockSize world path = host.blockSize world path')
    (checks : host.access world path = host.access world path')
    (reported : attributeReport host settings fc (host.blockSize world path')
      (host.access world path') st = .ok stbuf) :
    attributeReport host settings fc (host.blockSize world path) (host.access world path) st =
      .ok stbuf := by
  rw [sizes, checks, reported]

variable {host settings fc world} in
theorem getattrAgrees_of_report {path realPath : CString} {st stbuf : Stat}
    (located : requestPath host settings world path = .ok realPath)
    (found : host.lstat world realPath = .ok st)
    (report : attributeReport host settings fc (host.blockSize world realPath)
      (host.access world realPath) st = .ok stbuf) :
    GetattrAgrees host settings fc world path stbuf := by
  refine ⟨stbuf, ?_, rfl, rfl, rfl, rfl, rfl⟩
  rw [result_bindfsGetattr, located]
  exact (statReport_of_lstat found).trans report

variable {host settings fc world} in
theorem not_getattrAgrees_of_refused {path : CString} {error : Errno} {stbuf : Stat}
    (refused : requestPath host settings world path = .error error) :
    ¬ GetattrAgrees host settings fc world path stbuf := by
  rintro ⟨shown, answered, -⟩
  rw [result_bindfsGetattr, refused] at answered
  cases answered

variable {host settings fc world} in
/-- A report that shows a link is not what getattr shows, which looks at the link's target. -/
theorem not_getattrAgrees_of_link (laws : PathLaws host world) {path query target : CString}
    {size : Except Errno (BitVec 64)} {access : AccessMode → Except Errno Unit} {st stbuf : Stat}
    (located : requestPath host settings world path = .ok target)
    (found : host.realpath world query = .ok target)
    (report : attributeReport host settings fc size access st = .ok stbuf)
    (link : S_ISLNK st.st_mode = true) : ¬ GetattrAgrees host settings fc world path stbuf := by
  rintro ⟨attributes, answered, -, -, mode, -, -⟩
  rw [result_bindfsGetattr, located] at answered
  cases looked : host.lstat world target with
  | error error => simp [statReport, looked, bind, Except.bind] at answered
  | ok st' =>
    have target_link := laws.resolved found looked
    have answered : statReport host settings fc world target = .ok attributes := answered
    rw [statReport_of_lstat looked] at answered
    have shownType := isLink_attributeReport host settings answered
    have entryType := isLink_attributeReport host settings report
    rw [mode, entryType, link, target_link] at shownType
    cases shownType

variable {host settings fc world} in
/-- An entry that resolves to `target` outside the mountpoint: the two agree when readdirplus
looked behind the link, or when there is no link to look behind. -/
theorem getattrAgrees_resolved_iff (laws : PathLaws host world) {path query target : CString}
    {de : Dirent} {st stbuf : Stat} (located : requestPath host settings world path = .ok target)
    (found : host.realpath world query = .ok target)
    (tagged : de.d_type = .lnk → host.lstat world target = .ok st)
    (untagged : de.d_type ≠ .lnk → host.lstat world query = .ok st)
    (report : attributeReport host settings fc (host.blockSize world query)
      (host.access world query) st = .ok stbuf) :
    GetattrAgrees host settings fc world path stbuf ↔
      ∀ other, host.lstat world query = .ok other → S_ISLNK other.st_mode = true →
        de.d_type = .lnk := by
  obtain ⟨sizes, checks⟩ := laws.follow found
  have atTarget := attributeReport_congr sizes.symm checks.symm report
  by_cases isTagged : de.d_type = .lnk
  · exact iff_of_true (getattrAgrees_of_report located (tagged isTagged) atTarget)
      (fun _ _ _ => isTagged)
  · have plain := untagged isTagged
    cases link : S_ISLNK st.st_mode with
    | false =>
      have followed := laws.own_target found plain link
      refine iff_of_true (getattrAgrees_of_report located followed atTarget) ?_
      intro other again isLink
      rw [plain] at again
      cases again
      rw [link] at isLink
      cases isLink
    | true =>
      exact iff_of_false (not_getattrAgrees_of_link laws located found report link)
        (fun alike => isTagged (alike st plain link))

/-- The attributes readdirplus passes for an entry other than "." and ".." are those of a getattr
on the entry if and only if the entry resolves alike in both. -/
theorem plus_attributes_match_iff (laws : PathLaws host world) {path : CString}
    {filler : Filled → Except Errno Unit} {i : Nat} {de : Dirent} {stbuf : Stat}
    (not_dot : de.d_name ≠ ['.']) (not_dotdot : de.d_name ≠ ['.', '.'])
    (passed : PassedAt host settings fc world path filler i de stbuf) :
    GetattrAgrees host settings fc world (childPath path de.d_name) stbuf ↔
      ResolvesAlike host settings world (stripSlashes (childPath path de.d_name)) de := by
  obtain ⟨nonempty, no_slash, realPath, st, located, shown, report⟩ :=
    report_of_passedAt host settings fc world laws passed
  have isName : IsName de.d_name := ⟨nonempty, no_slash, not_dot, not_dotdot⟩
  have same := samePath_entry host settings world laws located isName
  have request : requestPath host settings world (childPath path de.d_name) =
      if settings.resolve_symlinks then
        guardedPath settings (stripSlashes (childPath path de.d_name))
          (host.realpath world (stripSlashes (childPath path de.d_name)))
      else .ok (stripSlashes (childPath path de.d_name)) := rfl
  generalize stripSlashes (childPath path de.d_name) = query at same request
  -- the report of the entry's own stat, under the spelling getattr uses
  have atQuery := attributeReport_congr same.blockSize same.access report
  cases resolve : settings.resolve_symlinks with
  | false =>
    have plain : host.lstat world query = .ok st := by
      rw [same.lstat]
      simpa [shownStat, resolve] using shown
    refine iff_of_true ?_ (fun on => absurd on (by simp [resolve]))
    exact getattrAgrees_of_report (by simpa [resolve] using request) plain atQuery
  | true =>
    rw [resolve, if_pos rfl] at request
    unfold ResolvesAlike
    rw [resolve]
    cases found : host.realpath world query with
    | error error =>
      rw [found] at request
      have plain : host.lstat world query = .ok st := by
        rw [same.realpath] at found
        rw [same.lstat]
        simpa [shownStat, found] using shown
      by_cases missing : error = .enoent
      · subst missing
        exact iff_of_true (getattrAgrees_of_report request plain atQuery) (fun _ => rfl)
      · have refused : guardedPath settings query (.error error) = .error error := by
          cases error <;> first | rfl | exact absurd rfl missing
        refine iff_of_false (not_getattrAgrees_of_refused (request.trans refused)) ?_
        intro alike
        exact missing (alike rfl)
    | ok target =>
      rw [found] at request
      simp only [guardedPath] at request
      cases below : pathStartsWith target settings.mntdest with
      | true =>
        rw [below, if_pos rfl] at request
        refine iff_of_false (not_getattrAgrees_of_refused request) ?_
        intro alike
        have outside := (alike rfl).1
        rw [below] at outside
        cases outside
      | false =>
        rw [below, if_neg (by decide)] at request
        have tagged : de.d_type = .lnk → host.lstat world target = .ok st := by
          intro isTagged
          rw [same.realpath] at found
          simpa [shownStat, resolve, isTagged, found] using shown
        have untagged : de.d_type ≠ .lnk → host.lstat world query = .ok st := by
          intro notTagged
          rw [same.lstat]
          simpa [shownStat, resolve, notTagged] using shown
        rw [getattrAgrees_resolved_iff laws request found tagged untagged atQuery]
        exact ⟨fun alike _ => ⟨below, alike⟩, fun alike => (alike rfl).2⟩

end

/-! ## A link that readdir does not tag -/

/-- A source directory `/s` with one symbolic link `l` to the file `/t`. -/
def linkTree (type : DType) : TableTree :=
  { TableTree.empty with
    stats := [(['l'], sampleStat 0 0 0o120777), (['.', '/', 'l'], sampleStat 0 0 0o120777),
      (['/', 's', '/', 'l'], sampleStat 0 0 0o120777), (['/', 't'], sampleStat 1000 1000 0o100644)]
    canonical := [(['.'], .ok ['/', 's']), (['/', 's'], .ok ['/', 's']), (['l'], .ok ['/', 't']),
      (['.', '/', 'l'], .ok ['/', 't']), (['/', 's', '/', 'l'], .ok ['/', 't']),
      (['/', 't'], .ok ['/', 't'])]
    listings := [(['/', 's'], [⟨['l'], type⟩])] }

def linkPaths : List CString :=
  [['.'], ['/', 's'], ['l'], ['.', '/', 'l'], ['/', 's', '/', 'l'], ['/', 't']]

theorem realpath_linkTree {type : DType} {path target : CString}
    (found : tableHost.realpath (linkTree type) path = .ok target) :
    (path = ['.'] ∧ target = ['/', 's']) ∨ (path = ['/', 's'] ∧ target = ['/', 's']) ∨
      (path ∈ [['l'], ['.', '/', 'l'], ['/', 's', '/', 'l'], ['/', 't']] ∧ target = ['/', 't']) := by
  have listed := TableTree.mem_of_realpath found
  simp only [linkTree, List.mem_cons, Prod.mk.injEq, Except.ok.injEq, List.not_mem_nil,
    or_false] at listed ⊢
  tauto

theorem samePath_of_absent {type : DType} {path path' : CString} (absent : path ∉ linkPaths)
    (absent' : path' ∉ linkPaths) : SamePath tableHost (linkTree type) path path' := by
  have unknown : ∀ {p : CString}, p ∉ linkPaths →
      TableTree.find (linkTree type).stats p = .error .enoent ∧
        TableTree.find (linkTree type).canonical p = .error .enoent := by
    intro p missing
    simp only [linkPaths, List.mem_cons, List.not_mem_nil, or_false, not_or] at missing
    constructor
    · apply TableTree.find_of_absent
      simp [linkTree, missing]
    · apply TableTree.find_of_absent
      simp [linkTree, missing]
  obtain ⟨stats, canonical⟩ := unknown absent
  obtain ⟨stats', canonical'⟩ := unknown absent'
  refine ⟨?_, ?_, rfl, ?_⟩
  · simp only [tableHost, stats, stats']
  · simp only [tableHost, canonical, canonical']
  · funext mode
    simp only [tableHost, stats, stats']

theorem linkTree_laws (type : DType) : PathLaws tableHost (linkTree type) where
  names := by
    intro path listing opened de member
    simp only [tableHost] at opened
    cases found : TableTree.find (linkTree type).listings path with
    | error error =>
      rw [found] at opened
      cases opened
    | ok entries =>
      rw [found] at opened
      cases opened
      have listed := TableTree.mem_of_find found
      simp only [linkTree, List.mem_singleton, Prod.mk.injEq] at listed
      rw [listed.2] at member
      simp only [List.mem_singleton] at member
      subst member
      simp
  dot := by
    intro name isName
    by_cases link : name = ['l']
    · subst link
      exact ⟨rfl, rfl, rfl, rfl⟩
    · have slashes : ∀ other, '/' ∈ other → name ≠ other := by
        intro other contains same
        exact isName.no_slash (same ▸ contains)
      apply samePath_of_absent
      · simp [linkPaths, link]
      · simp [linkPaths, link, isName.not_dot, slashes]
  directory := by
    intro path canonical name found isName
    rcases realpath_linkTree found with ⟨rfl, rfl⟩ | ⟨rfl, rfl⟩ | ⟨path, rfl⟩
    · by_cases link : name = ['l']
      · subst link
        exact ⟨rfl, rfl, rfl, rfl⟩
      · apply samePath_of_absent
        · simp [linkPaths, link]
        · simp [linkPaths, link]
    · exact SamePath.refl _
    · simp only [List.mem_cons, List.not_mem_nil, or_false] at path
      rcases path with rfl | rfl | rfl | rfl <;> apply samePath_of_absent <;> simp [linkPaths]
  follow := by
    intro path target found
    rcases realpath_linkTree found with ⟨rfl, rfl⟩ | ⟨rfl, rfl⟩ | ⟨path, rfl⟩
    · exact ⟨rfl, rfl⟩
    · exact ⟨rfl, rfl⟩
    · simp only [List.mem_cons, List.not_mem_nil, or_false] at path
      rcases path with rfl | rfl | rfl | rfl <;> exact ⟨rfl, rfl⟩
  own_target := by
    intro path target stbuf found looked link
    rcases realpath_linkTree found with ⟨rfl, rfl⟩ | ⟨rfl, rfl⟩ | ⟨path, rfl⟩
    · cases looked
    · cases looked
    · simp only [List.mem_cons, List.not_mem_nil, or_false] at path
      rcases path with rfl | rfl | rfl | rfl <;> cases looked
      · cases link
      · cases link
      · cases link
      · rfl
  resolved := by
    intro path target stbuf found looked
    rcases realpath_linkTree found with ⟨-, rfl⟩ | ⟨-, rfl⟩ | ⟨-, rfl⟩ <;> cases looked
    rfl

/-- A tagged link is shown as the file it leads to, in both requests. -/
theorem plus_attributes_match_iff_of_tagged_link :
    GetattrAgrees tableHost resolvingSettings ⟨0, 0⟩ (linkTree .lnk) ['/', '/', 'l']
      (sampleStat 1000 1000 0o100644) := by
  apply (plus_attributes_match_iff tableHost resolvingSettings ⟨0, 0⟩ (linkTree .lnk)
    (linkTree_laws .lnk) (show (⟨['l'], .lnk⟩ : Dirent).d_name ≠ ['.'] by decide) (by decide)
    (show PassedAt tableHost resolvingSettings ⟨0, 0⟩ (linkTree .lnk) ['/'] (fun _ => .ok ()) 0
      ⟨['l'], .lnk⟩ (sampleStat 1000 1000 0o100644) from ⟨_, _, _, rfl, rfl, rfl, rfl, rfl⟩)).mpr
  intro _
  exact ⟨rfl, fun _ _ _ => rfl⟩

/-- With `d_type` DT_UNKNOWN readdirplus passes the attributes of the link, getattr answers with
those of the file. -/
theorem untagged_link_attributes_differ :
    PathLaws tableHost (linkTree .unknown) ∧
      PassedAt tableHost resolvingSettings ⟨0, 0⟩ (linkTree .unknown) ['/'] (fun _ => .ok ()) 0
        ⟨['l'], .unknown⟩ (sampleStat 0 0 0o120777) ∧
      ¬ GetattrAgrees tableHost resolvingSettings ⟨0, 0⟩ (linkTree .unknown)
        (childPath ['/'] ['l']) (sampleStat 0 0 0o120777) := by
  refine ⟨linkTree_laws .unknown, ⟨_, _, _, rfl, rfl, rfl, rfl, rfl⟩, ?_⟩
  rintro ⟨shown, answered, owner, -⟩
  have file : ((bindfsGetattr tableHost resolvingSettings ⟨0, 0⟩ (childPath ['/'] ['l'])).exec
      (linkTree .unknown)).result = .ok (sampleStat 1000 1000 0o100644) := rfl
  rw [file] at answered
  cases answered
  cases owner

end Bindfs.Guarantees.ReaddirPlus
