import Bindfs.Source.Handlers
import Bindfs.Source.MemoryBlock

/-!
# bindfs.c: the path buffer of `bindfs_readdir`

The directory handler with its `path_buf` as the memory block it is: the directory is copied
into it with its terminator, the terminator becomes a slash, and an entry that needs a path
appends its name, passes the C string at `ptr` on and cuts the size back. A handler without a
reply (`none`) has left the allocation, aborted, or computed an `int` out of range.

`HoldsDirectory` is what the loop keeps: the block is the directory and a slash. It makes the
handler the one that is given every path (`bindfsReaddirInBuffer_eq`).
-/
namespace Bindfs.Source
open Bindfs.Lib.Effects

section
variable {W : Type} (host : Host W) (settings : Settings)

/-- The condition of the loop under which an entry goes through `path_buf`. -/
def usesPathBuf (readdirplus : Bool) (de : Dirent) : Bool :=
  (settings.resolve_symlinks && de.d_type = .lnk) || readdirplus

/-- `append_to_memory_block(&path_buf, real_path, len + 1); path_buf.ptr[len] = '/';` -/
def fillPathBuf (realPath : CString) : Option (MemoryBlock Char) := do
  let len ← storeInt realPath.length
  let _ ← storeInt (len + 1)
  let (_, pathBuf) ← appendToMemoryBlock (initMemoryBlock 0) (realPath ++ [NUL])
  pathBuf.write len ['/']

def startPathBuf (readdirplus : Bool) (realPath : CString) : Option (MemoryBlock Char) :=
  if settings.resolve_symlinks || readdirplus then fillPathBuf realPath
  else some (initMemoryBlock 0)

/-- `append_to_memory_block(&path_buf, de->d_name, file_len)`: `file_len` and the block. -/
def appendEntry (pathBuf : MemoryBlock Char) (de : Dirent) : Option (Nat × MemoryBlock Char) := do
  let fileLen ← storeInt (de.d_name.length + 1)
  let (_, pathBuf) ← appendToMemoryBlock pathBuf (de.d_name ++ [NUL])
  pure (fileLen, pathBuf)

/-- `path_buf.size -= file_len`, a subtraction in `size_t`. -/
def cutBack (pathBuf : MemoryBlock Char) (fileLen : Nat) : MemoryBlock Char :=
  { pathBuf with size := (pathBuf.size + (2 ^ 64 - fileLen)) % 2 ^ 64 }

/-- The block after an iteration that reaches the next one. -/
def pathBufAfter (readdirplus : Bool) (pathBuf : MemoryBlock Char) (de : Dirent) :
    Option (MemoryBlock Char) :=
  if usesPathBuf settings readdirplus de then
    (appendEntry pathBuf de).map fun (fileLen, pathBuf) => cutBack pathBuf fileLen
  else some pathBuf

def readdirEntryInBuffer (fc : FuseContext) (readdirplus : Bool) (pathBuf : MemoryBlock Char)
    (de : Dirent) : Sys W (Option (Filled × MemoryBlock Char)) :=
  if usesPathBuf settings readdirplus de then
    match appendEntry pathBuf de with
    | none => pure none
    | some (fileLen, pathBuf) =>
      match pathBuf.readString NUL 0 with
      | none => pure none
      | some ptr => do
        let st ← entryStat host settings ptr de
        if readdirplus then do
          let st ← getattrCommon host settings fc ptr st
          pure (some (⟨de.d_name, some st⟩, cutBack pathBuf fileLen))
        else pure (some (⟨de.d_name, none⟩, cutBack pathBuf fileLen))
  else pure (some (⟨de.d_name, none⟩, pathBuf))

def readdirLoopInBuffer (fc : FuseContext) (readdirplus : Bool)
    (filler : Filled → Except Errno Unit) (atEnd : Except Errno Unit)
    (pathBuf : MemoryBlock Char) : List Dirent → Sys W (Option ReaddirReply)
  | [] => pure (some ⟨[], atEnd⟩)
  | de :: rest => do
    match ← attempt (readdirEntryInBuffer host settings fc readdirplus pathBuf de) with
    | .error error => pure (some ⟨[], .error error⟩)
    | .ok none => pure none
    | .ok (some (entry, pathBuf)) =>
      match filler entry with
      | .error error => pure (some ⟨[], .error error⟩)
      | .ok () => do
        match ← readdirLoopInBuffer fc readdirplus filler atEnd pathBuf rest with
        | none => pure none
        | some more => pure (some ⟨entry :: more.filled, more.result⟩)

def bindfsReaddirInBuffer (fc : FuseContext) (path : CString)
    (filler : Filled → Except Errno Unit) (readdirplus : Bool) : Sys W (Option ReaddirReply) := do
  match ← attempt (openDirectory host settings path) with
  | .error error => pure (some ⟨[], .error error⟩)
  | .ok (realPath, listing) => do
    let _ ← ask (.pathconf realPath) (fun _ => .ok ())
    match startPathBuf settings readdirplus realPath with
    | none => pure none
    | some pathBuf =>
      readdirLoopInBuffer host settings fc readdirplus filler listing.atEnd pathBuf listing.entries

end

/-! ## What the loop keeps -/

/-- A C string whose size, terminator included, is an `int`. -/
structure FitsInt (string : CString) : Prop where
  terminated : NUL ∉ string
  size_le : string.length + 1 ≤ INT_MAX

theorem MemoryBlock.Holds.size_le_capacity {β : Type} {a : MemoryBlock β} {bytes : List β}
    (holds : a.Holds bytes) : a.size ≤ a.capacity := by
  obtain ⟨rest, cells⟩ := holds.cells_eq
  rw [holds.size_eq, MemoryBlock.capacity, cells]
  simp

/-- The last byte of the block is replaced. -/
theorem MemoryBlock.Holds.write_last {β : Type} {a : MemoryBlock β} {bytes : List β} {old : β}
    (holds : a.Holds (bytes ++ [old])) (new : β) :
    ∃ written, a.write bytes.length [new] = some written ∧ written.Holds (bytes ++ [new]) := by
  obtain ⟨rest, cells⟩ := holds.cells_eq
  have size := holds.size_eq
  have room := holds.size_le_capacity
  simp only [List.length_append, List.length_singleton] at size
  rw [List.map_append, List.append_assoc] at cells
  obtain ⟨written, wrote, same, -, after⟩ := MemoryBlock.write_behind cells [new] (by simp; omega)
  refine ⟨written, wrote, ?_, after⟩
  rw [same, size, List.length_append, List.length_singleton]

/-- `path_buf` between two iterations: the directory and a slash. -/
def HoldsDirectory (realPath : CString) (pathBuf : MemoryBlock Char) : Prop :=
  pathBuf.Holds (realPath ++ ['/'])

theorem fillPathBuf_spec {realPath : CString} (fits : FitsInt realPath) :
    ∃ pathBuf, fillPathBuf realPath = some pathBuf ∧ HoldsDirectory realPath pathBuf := by
  have size := fits.size_le
  have length : storeInt realPath.length = some realPath.length := if_pos (by omega)
  have count : storeInt (realPath.length + 1) = some (realPath.length + 1) := if_pos size
  obtain ⟨copied, appended, holds⟩ := appendToMemoryBlock_spec
    (holds_initMemoryBlock 0 : (initMemoryBlock 0 : MemoryBlock Char).Holds []) (realPath ++ [NUL])
    (Nat.zero_le _) (by simpa using size)
  obtain ⟨written, wrote, directory⟩ := MemoryBlock.Holds.write_last holds '/'
  refine ⟨written, ?_, directory⟩
  simp [fillPathBuf, length, count, appended, wrote]

/-- Appending a name makes the string at `ptr` the path of the entry. -/
theorem appendEntry_spec {realPath : CString} {pathBuf : MemoryBlock Char} {de : Dirent}
    (fits : FitsInt realPath) (holds : HoldsDirectory realPath pathBuf) (named : FitsInt de.d_name) :
    ∃ longer, appendEntry pathBuf de = some (de.d_name.length + 1, longer) ∧
      longer.Holds (realPath ++ ['/'] ++ (de.d_name ++ [NUL])) ∧
        longer.readString NUL 0 = some (realPath ++ '/' :: de.d_name) := by
  have size := fits.size_le
  have count : storeInt (de.d_name.length + 1) = some (de.d_name.length + 1) := if_pos named.size_le
  obtain ⟨longer, appended, after⟩ := appendToMemoryBlock_spec holds (de.d_name ++ [NUL])
    (by simpa using size) (by simpa using named.size_le)
  refine ⟨longer, by simp [appendEntry, count, appended], after, ?_⟩
  have plain : NUL ∉ realPath ++ '/' :: de.d_name := by
    have slash : NUL ≠ '/' := by decide
    simp [fits.terminated, named.terminated, slash]
  have whole : longer.Holds ([] ++ (realPath ++ '/' :: de.d_name) ++ NUL :: []) := by
    simpa using after
  exact whole.readString_eq plain

theorem holdsDirectory_cutBack {realPath : CString} {longer : MemoryBlock Char} {name : CString}
    (fits : FitsInt realPath) (named : FitsInt name)
    (holds : longer.Holds (realPath ++ ['/'] ++ (name ++ [NUL]))) :
    HoldsDirectory realPath (cutBack longer (name.length + 1)) := by
  obtain ⟨rest, cells⟩ := holds.cells_eq
  have size := holds.size_eq
  have fits := fits.size_le
  have named := named.size_le
  simp only [List.length_append, List.length_singleton, INT_MAX] at size fits named
  refine ⟨?_, (name ++ [NUL]).map some ++ rest, ?_⟩
  · simp only [cutBack, List.length_append, List.length_singleton]
    omega
  · simp [cutBack, cells]

section
variable {W : Type} (host : Host W) (settings : Settings)

/-- The block of a handler that has one is ready for the next entry. -/
def PathBufReady (readdirplus : Bool) (realPath : CString) (pathBuf : MemoryBlock Char) : Prop :=
  (settings.resolve_symlinks || readdirplus) = true → HoldsDirectory realPath pathBuf

theorem startPathBuf_spec (readdirplus : Bool) {realPath : CString} (fits : FitsInt realPath) :
    ∃ pathBuf, startPathBuf settings readdirplus realPath = some pathBuf ∧
      PathBufReady settings readdirplus realPath pathBuf := by
  unfold startPathBuf
  by_cases on : (settings.resolve_symlinks || readdirplus) = true
  · obtain ⟨pathBuf, filled, holds⟩ := fillPathBuf_spec fits
    exact ⟨pathBuf, by rw [if_pos on, filled], fun _ => holds⟩
  · exact ⟨initMemoryBlock 0, if_neg on, fun on' => absurd on' on⟩

theorem on_of_usesPathBuf {readdirplus : Bool} {de : Dirent}
    (uses : usesPathBuf settings readdirplus de = true) :
    (settings.resolve_symlinks || readdirplus) = true := by
  simp only [usesPathBuf, Bool.or_eq_true, Bool.and_eq_true] at uses ⊢
  exact uses.imp_left And.left

/-- Every iteration, whether it uses the block or not, leaves it ready for the next. -/
theorem pathBufAfter_spec (readdirplus : Bool) {realPath : CString} {pathBuf : MemoryBlock Char}
    {de : Dirent} (fits : FitsInt realPath) (named : FitsInt de.d_name)
    (ready : PathBufReady settings readdirplus realPath pathBuf) :
    ∃ next, pathBufAfter settings readdirplus pathBuf de = some next ∧
      PathBufReady settings readdirplus realPath next := by
  unfold pathBufAfter
  by_cases uses : usesPathBuf settings readdirplus de = true
  · have holds := ready (on_of_usesPathBuf settings uses)
    obtain ⟨longer, appended, after, -⟩ := appendEntry_spec fits holds named
    refine ⟨cutBack longer (de.d_name.length + 1), ?_, fun _ => holdsDirectory_cutBack fits named after⟩
    rw [if_pos uses, appended]
    rfl
  · exact ⟨pathBuf, if_neg uses, ready⟩

theorem pathBufAfter_run (readdirplus : Bool) {realPath : CString} (fits : FitsInt realPath)
    (done : List Dirent) (named : ∀ de ∈ done, FitsInt de.d_name) {start : MemoryBlock Char}
    (ready : PathBufReady settings readdirplus realPath start) :
    ∃ pathBuf, done.foldlM (pathBufAfter settings readdirplus) start = some pathBuf ∧
      PathBufReady settings readdirplus realPath pathBuf := by
  induction done generalizing start with
  | nil => exact ⟨start, rfl, ready⟩
  | cons de rest ih =>
    rw [List.forall_mem_cons] at named
    obtain ⟨next, passed, kept⟩ := pathBufAfter_spec settings readdirplus fits named.1 ready
    rw [List.foldlM_cons, passed]
    exact ih named.2 kept

/-! ## The handler -/

theorem readdirEntryInBuffer_eq (fc : FuseContext) {readdirplus : Bool} {realPath : CString}
    {pathBuf next : MemoryBlock Char} {de : Dirent} (fits : FitsInt realPath)
    (named : FitsInt de.d_name) (ready : PathBufReady settings readdirplus realPath pathBuf)
    (passed : pathBufAfter settings readdirplus pathBuf de = some next) :
    readdirEntryInBuffer host settings fc readdirplus pathBuf de =
      (fun filled => some (filled, next)) <$> readdirEntry host settings fc readdirplus realPath de := by
  have := @lawful W SysCall Errno
  unfold pathBufAfter at passed
  by_cases uses : usesPathBuf settings readdirplus de = true
  · have holds := ready (on_of_usesPathBuf settings uses)
    obtain ⟨longer, appended, -, string⟩ := appendEntry_spec fits holds named
    rw [if_pos uses, appended] at passed
    cases passed
    simp only [readdirEntryInBuffer, readdirEntry, if_pos uses, appended, string]
    rw [usesPathBuf] at uses
    rw [if_pos uses]
    cases readdirplus with
    | true => simp
    | false => simp
  · rw [if_neg uses] at passed
    cases passed
    rw [readdirEntryInBuffer, readdirEntry, if_neg uses]
    rw [usesPathBuf] at uses
    rw [if_neg uses]
    simp

/-- With the block ready, the loop is the one that is given every path. -/
theorem readdirLoopInBuffer_eq (fc : FuseContext) {readdirplus : Bool} {realPath : CString}
    (filler : Filled → Except Errno Unit) (atEnd : Except Errno Unit) (fits : FitsInt realPath)
    (entries : List Dirent) (named : ∀ de ∈ entries, FitsInt de.d_name)
    {pathBuf : MemoryBlock Char} (ready : PathBufReady settings readdirplus realPath pathBuf) :
    readdirLoopInBuffer host settings fc readdirplus filler atEnd pathBuf entries =
      some <$> readdirLoop host settings fc readdirplus realPath filler atEnd entries := by
  have := @lawful W SysCall Errno
  induction entries generalizing pathBuf with
  | nil => simp [readdirLoopInBuffer, readdirLoop]
  | cons de rest ih =>
    rw [List.forall_mem_cons] at named
    obtain ⟨next, passed, kept⟩ := pathBufAfter_spec settings readdirplus fits named.1 ready
    rw [readdirLoopInBuffer, readdirLoop,
      readdirEntryInBuffer_eq host settings fc fits named.1 ready passed, attempt_map]
    simp only [bind_map_left, map_bind]
    congr 1
    funext outcome
    cases outcome with
    | error error => simp [Except.map]
    | ok entry =>
      simp only [Except.map]
      cases filler entry with
      | error error => simp
      | ok done =>
        simp only [ih named.2 kept]
        simp

/-- The handler never leaves its buffer, and no path it passes on differs. -/
theorem bindfsReaddirInBuffer_eq (fc : FuseContext) (path : CString)
    (filler : Filled → Except Errno Unit) (readdirplus : Bool) {world : W} {realPath : CString}
    {listing : Listing}
    (opened : ((openDirectory host settings path).exec world).result = .ok (realPath, listing))
    (fits : FitsInt realPath) (named : ∀ de ∈ listing.entries, FitsInt de.d_name) :
    (bindfsReaddirInBuffer host settings fc path filler readdirplus).exec world =
      (some <$> bindfsReaddir host settings fc path filler readdirplus).exec world := by
  have := @lawful W SysCall Errno
  obtain ⟨pathBuf, filled, ready⟩ := startPathBuf_spec settings readdirplus fits
  simp only [bindfsReaddirInBuffer, bindfsReaddir, map_bind, exec_bind, exec_attempt, opened,
    andThen_ok, filled, readdirLoopInBuffer_eq host settings fc filler listing.atEnd fits _ named ready]

end

end Bindfs.Source
