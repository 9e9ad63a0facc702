import Bindfs.Source.Main
import Bindfs.Source.Misc
import Bindfs.Source.OptionFilter

/-!
# main: the arguments of fuse_main

`fuse_opt_parse` leaves the arguments that it has not used up: the program name, then `-o` with
all left-over options in one list, then the left-over words. `main` appends its own arguments and
hands all of them through `filter_special_opts`. A mount point that starts with `-o`, which
`fuse_opt_parse` lets through as a word behind a `--`, is left out.
-/
namespace Bindfs.Source

/-- What `fuse_opt_parse` leaves. The words that remain do not start with `-o`, since it has read
these as option lists. -/
structure ParsedArgs where
  /-- `argv[0]`. -/
  progname : CString
  opts : Option CString
  others : List CString
  progname_plain : dashO.isPrefixOf progname = false
  others_plain : ∀ arg ∈ others, dashO.isPrefixOf arg = false

def ParsedArgs.vector (parsed : ParsedArgs) : List CString :=
  parsed.progname :: ((match parsed.opts with | none => [] | some opts => [dashO, opts]) ++ parsed.others)

/-- The two members of `OptionData` that only become arguments, and the linked libfuse. -/
structure LibfuseOptions where
  no_allow_other : Bool
  fsname : Option CString
  fuse_version : Nat

/-- `-o` with an option. -/
def optionArg (option : CString) : CString := dashO ++ option

/-- Characters that keep the source directory from becoming the name of the file system. -/
def fsnameBlacklist : List Char := [',', ' ', '\t', '\n']

def fsnameArg (fsname : Option CString) (mntsrc : CString) : List CString :=
  match fsname with
  | some name => [optionArg ("fsname=".toList ++ name)]
  | none =>
    if mntsrc.any (· ∈ fsnameBlacklist) then [] else [optionArg ("fsname=".toList ++ mntsrc)]

/-- The arguments that `main` appends, in the build with FUSE 3. -/
def addedArgs (multithreaded : Bool) (libfuse : LibfuseOptions) (progname mntsrc mntdest : CString) :
    List CString :=
  (if multithreaded then [] else ["-s".toList]) ++
    (if libfuse.no_allow_other then [] else [optionArg "allow_other".toList]) ++
    [optionArg "default_permissions".toList] ++
    fsnameArg libfuse.fsname mntsrc ++
    [optionArg ("subtype=".toList ++ myBasename progname)] ++
    (if mntsrc = mntdest ∧ libfuse.fuse_version < 30 then [optionArg "nonempty".toList] else [])

/-- The rest of `main`, up to `fuse_main`: the settings and the arguments of the mount. -/
def mainArguments (system : System) (commandLine : CommandLine) (libfuse : LibfuseOptions)
    (parsed : ParsedArgs) : Except MainEnd (Settings × List CString) := do
  let settings ← main system commandLine
  let (_, mntsrc) ← parseOptions system commandLine
  pure (settings, filterSpecialOpts (parsed.vector ++
    addedArgs commandLine.od.multithreaded libfuse parsed.progname mntsrc settings.mntdest))

/-! ## Vectors that the filter reads in full -/

/-- What the filter makes of one argument that it looks at. -/
def cleaned (keep : CString → Bool) (arg : CString) : List CString :=
  if dashO.isPrefixOf arg then
    if keptOptions keep arg = [] then [] else [optionList (keptOptions keep arg)]
  else [arg]

/-- No argument that loses all its options stands before one that the filter would change. -/
def Separated (keep : CString → Bool) (args : List CString) : Prop :=
  args.IsChain fun arg next =>
    dashO.isPrefixOf arg = true → keptOptions keep arg = [] → cleaned keep next = [next]

theorem filtered_of_separated (keep : CString → Bool) (args : List CString)
    (separated : Separated keep args) : filtered keep args = args.flatMap (cleaned keep) := by
  fun_induction filtered keep args with
  | case1 => rfl
  | case2 arg isO none_kept => simp [cleaned, isO, none_kept]
  | case3 arg isO none_kept next rest ih =>
    obtain ⟨first, later⟩ := List.isChain_cons_cons.mp separated
    have removed : cleaned keep arg = [] := by rw [cleaned, if_pos isO, if_pos none_kept]
    rw [List.flatMap_cons, List.flatMap_cons, removed, first isO none_kept,
      ih (List.IsChain.of_cons later)]
    rfl
  | case4 arg rest isO some_kept ih =>
    rw [List.flatMap_cons, cleaned, if_pos isO, if_neg some_kept, ih (List.IsChain.of_cons separated)]
    rfl
  | case5 arg rest notO ih =>
    rw [List.flatMap_cons, cleaned, if_neg notO, ih (List.IsChain.of_cons separated)]
    rfl

theorem joined_of_no_dashO {args : List CString} (none_bare : ∀ arg ∈ args, arg ≠ dashO) :
    joined args = args := by
  induction args with
  | nil => rfl
  | cons arg rest ih =>
    rw [joined_of_ne (none_bare arg (by simp)), ih fun other member => none_bare other (by simp [member])]

end Bindfs.Source
