import Bindfs.Source.FuseArguments
import Bindfs.Guarantees.MountOptions

/-!
# What libfuse is told

The filter passes over an argument that follows one it has removed. The vectors that `main`
hands to it do not depend on that: `fuse_opt_parse` leaves at most one option list of the user,
and what follows it needs no filtering. So the vector that `fuse_main` gets holds the options of
the user that are not ignored, the left-over words and the arguments of `main`, each in full and
nothing else (`fuse_main_arguments`). Permissions are always checked by the kernel, and the name of
the file system is one option when it is taken from the source directory.
-/
namespace Bindfs.Guarantees.FuseArguments
open Bindfs.Source Bindfs.Guarantees.MountOptions

/-! ## The arguments of main -/

/-- One `-o` argument with the options of a list that are not ignored, or none. -/
def keptList (text : CString) : List CString :=
  match (nonemptyFields ',' text).filter keepOption with
  | [] => []
  | first :: rest => [dashO ++ [','].intercalate (first :: rest)]

theorem cleaned_optionArg (text : CString) : cleaned keepOption (optionArg text) = keptList text := by
  have isO : dashO.isPrefixOf (optionArg text) = true := rfl
  have kept : keptOptions keepOption (optionArg text) = (nonemptyFields ',' text).filter keepOption := rfl
  rw [cleaned, if_pos isO, kept, keptList]
  cases (nonemptyFields ',' text).filter keepOption with
  | nil => rfl
  | cons first rest => rw [if_neg (List.cons_ne_nil first rest), optionList_of_ne_nil (List.cons_ne_nil first rest)]

theorem cleaned_of_plain {arg : CString} (plain : dashO.isPrefixOf arg = false) :
    cleaned keepOption arg = [arg] := by
  rw [cleaned, plain]
  rfl

/-- An option with a value is none of the ignored ones. -/
theorem keepOption_of_value {opt : CString} (value : '=' ∈ opt) : keepOption opt = true := by
  have without : ∀ ignored ∈ ignoredOpts, '=' ∉ ignored := by decide
  simp only [keepOption, decide_eq_true_eq]
  exact fun member => without opt member value

/-- A key and the part of its value before a comma stay together. -/
theorem splitOnP_key {key : CString} (noComma : ',' ∉ key) (value : CString) :
    ∃ first rest, (key ++ value).splitOnP (· = ',') = (key ++ first) :: rest := by
  induction key with
  | nil =>
    obtain ⟨first, rest, parts⟩ := List.exists_cons_of_ne_nil (List.splitOnP_ne_nil (· = ',') value)
    exact ⟨first, rest, parts⟩
  | cons c key ih =>
    obtain ⟨other, noComma⟩ := not_or.mp (mt List.mem_cons.mpr noComma)
    obtain ⟨first, rest, parts⟩ := ih noComma
    refine ⟨first, rest, ?_⟩
    rw [List.cons_append, List.splitOnP_cons_eq_if_modifyHead, if_neg (by simpa using Ne.symm other), parts]
    rfl

theorem keptOptions_value {key : CString} (noComma : ',' ∉ key) (value : '=' ∈ key) (name : CString) :
    keptOptions keepOption (optionArg (key ++ name)) ≠ [] := by
  obtain ⟨first, rest, parts⟩ := splitOnP_key noComma name
  have member : key ++ first ∈ keptOptions keepOption (optionArg (key ++ name)) := by
    refine List.mem_filter.mpr ⟨List.mem_filter.mpr ⟨?_, ?_⟩, keepOption_of_value (by simp [value])⟩
    · change key ++ first ∈ (key ++ name).splitOnP (· = ',')
      rw [parts]
      simp
    · cases key with
      | nil => cases value
      | cons c key => simp
  exact List.ne_nil_of_mem member

/-- A source directory without a comma is one option. -/
theorem keptList_of_no_comma {text : CString} (noComma : ',' ∉ text) (value : '=' ∈ text) :
    keptList text = [optionArg text] := by
  have single : text.splitOnP (· = ',') = [text] := by
    apply List.splitOnP_eq_singleton
    intro c member
    simpa using fun same : c = ',' => noComma (same ▸ member)
  have filled : text ≠ [] := List.ne_nil_of_mem value
  simp [keptList, nonemptyFields, single, filled, keepOption_of_value value, optionArg]

/-- The argument with the name of the file system. -/
def fsnameTold (fsname : Option CString) (mntsrc : CString) : List CString :=
  match fsname with
  | some name => keptList ("fsname=".toList ++ name)
  | none => if mntsrc.any (· ∈ fsnameBlacklist) then [] else [optionArg ("fsname=".toList ++ mntsrc)]

theorem cleaned_fsnameArg (fsname : Option CString) (mntsrc : CString) :
    (fsnameArg fsname mntsrc).flatMap (cleaned keepOption) = fsnameTold fsname mntsrc := by
  cases fsname with
  | some name =>
    rw [fsnameArg, List.flatMap_singleton, cleaned_optionArg]
    rfl
  | none =>
    unfold fsnameArg fsnameTold
    by_cases special : mntsrc.any (· ∈ fsnameBlacklist) = true
    · simp only [if_pos special, List.flatMap_nil]
    · have noComma : ',' ∉ "fsname=".toList ++ mntsrc := by
        intro member
        rcases List.mem_append.mp member with key | directory
        · exact absurd key (by decide)
        · exact special (List.any_eq_true.mpr ⟨',', directory, by decide⟩)
      simp only [if_neg special, List.flatMap_singleton, cleaned_optionArg]
      exact keptList_of_no_comma noComma (by simp)

/-! ## Separation -/

/-- The filter leaves the argument as it is or keeps some of its options. -/
def KeepsSome (arg : CString) : Prop :=
  dashO.isPrefixOf arg = true → keptOptions keepOption arg ≠ []

theorem separated_of_keepsSome {args : List CString} (keeps : ∀ arg ∈ args, KeepsSome arg) :
    Separated keepOption args := by
  induction args with
  | nil => exact List.IsChain.nil
  | cons arg rest ih =>
    have later := ih fun other member => keeps other (by simp [member])
    cases rest with
    | nil => exact List.IsChain.singleton arg
    | cons next rest =>
      refine List.isChain_cons_cons.mpr ⟨fun isO none_kept => ?_, later⟩
      exact absurd none_kept (keeps arg (by simp) isO)

theorem keepsSome_of_plain {arg : CString} (plain : dashO.isPrefixOf arg = false) : KeepsSome arg := by
  intro isO
  rw [plain] at isO
  cases isO

section
variable (multithreaded : Bool) (libfuse : LibfuseOptions) (progname mntsrc mntdest : CString)

/-- An option list that `main` builds: not bare, and something of it is kept. -/
theorem listed_of_value {key : CString} (noComma : ',' ∉ key) (value : '=' ∈ key) (name : CString) :
    optionArg (key ++ name) ≠ dashO ∧ KeepsSome (optionArg (key ++ name)) := by
  refine ⟨fun bare => ?_, fun _ => keptOptions_value noComma value name⟩
  have empty : key ++ name = [] := List.append_cancel_left (bare.trans (List.append_nil _).symm)
  rw [(List.append_eq_nil_iff.mp empty).1] at value
  cases value

theorem keepsSome_addedArgs :
    ∀ arg ∈ addedArgs multithreaded libfuse progname mntsrc mntdest, arg ≠ dashO ∧ KeepsSome arg := by
  have fixed : ∀ arg ∈ ["-s", "-oallow_other", "-odefault_permissions", "-ononempty"].map String.toList,
      arg ≠ dashO ∧ (dashO.isPrefixOf arg = true → keptOptions keepOption arg ≠ []) := by decide +kernel
  have fsname : ∀ arg ∈ fsnameArg libfuse.fsname mntsrc, arg ≠ dashO ∧ KeepsSome arg := by
    intro arg member
    unfold fsnameArg at member
    split at member
    · rw [List.mem_singleton.mp member]
      exact listed_of_value (by decide) (by decide) _
    · split at member
      · cases member
      · rw [List.mem_singleton.mp member]
        exact listed_of_value (by decide) (by decide) _
  intro arg member
  simp only [addedArgs, List.mem_append, List.mem_ite_nil_left, List.mem_ite_nil_right,
    List.mem_singleton] at member
  rcases member with ((((⟨-, rfl⟩ | ⟨-, rfl⟩) | rfl) | member) | rfl) | ⟨-, rfl⟩
  · exact fixed _ (by decide)
  · exact fixed _ (by decide)
  · exact fixed _ (by decide)
  · exact fsname arg member
  · exact listed_of_value (by decide) (by decide) _
  · exact fixed _ (by decide)

/-- What is left of the arguments that `main` appends: a `--fsname` or a program name with commas
may lose some of its parts, the others stay. -/
def addedTold : List CString :=
  (if multithreaded then [] else ["-s".toList]) ++
    (if libfuse.no_allow_other then [] else ["-oallow_other".toList]) ++
    ["-odefault_permissions".toList] ++
    fsnameTold libfuse.fsname mntsrc ++
    keptList ("subtype=".toList ++ myBasename progname) ++
    (if mntsrc = mntdest ∧ libfuse.fuse_version < 30 then ["-ononempty".toList] else [])

theorem cleaned_addedArgs :
    (addedArgs multithreaded libfuse progname mntsrc mntdest).flatMap (cleaned keepOption) =
      addedTold multithreaded libfuse progname mntsrc mntdest := by
  have single : cleaned keepOption "-s".toList = ["-s".toList] := cleaned_of_plain (by decide)
  have others : keptList "allow_other".toList = ["-oallow_other".toList] := by decide +kernel
  have permissions : keptList "default_permissions".toList = ["-odefault_permissions".toList] := by
    decide +kernel
  have nonempty : keptList "nonempty".toList = ["-ononempty".toList] := by decide +kernel
  simp only [addedArgs, addedTold, List.flatMap_append, List.flatMap_singleton, cleaned_fsnameArg, apply_ite
    (List.flatMap (cleaned keepOption)), List.flatMap_nil, cleaned_optionArg, single, others, permissions,
    nonempty]

/-- Whatever follows the options of the user, the filter leaves its first argument as it is. -/
theorem cleaned_head {others : List CString} (plain : ∀ arg ∈ others, dashO.isPrefixOf arg = false)
    {next : CString} {rest : List CString}
    (follows : others ++ addedArgs multithreaded libfuse progname mntsrc mntdest = next :: rest) :
    cleaned keepOption next = [next] := by
  have fixed : ∀ arg ∈ ["-s", "-oallow_other", "-odefault_permissions"].map String.toList,
      cleaned keepOption arg = [arg] := by decide +kernel
  cases others with
  | cons other others =>
    cases follows
    exact cleaned_of_plain (plain _ (by simp))
  | nil =>
    apply fixed
    cases threads : multithreaded with
    | false =>
      simp only [addedArgs, threads] at follows
      cases follows
      decide
    | true =>
      cases hidden : libfuse.no_allow_other with
      | false =>
        simp only [addedArgs, threads, hidden] at follows
        cases follows
        decide
      | true =>
        simp only [addedArgs, threads, hidden] at follows
        cases follows
        decide

/-- The option list of the user, joined with its `-o`. -/
def userList (parsed : ParsedArgs) : List CString := parsed.opts.toList.map optionArg

theorem joined_vector (parsed : ParsedArgs) :
    joined (parsed.vector ++ addedArgs multithreaded libfuse progname mntsrc mntdest) =
      parsed.progname :: (userList parsed ++ (parsed.others ++
        addedArgs multithreaded libfuse progname mntsrc mntdest)) := by
  have bare : dashO.isPrefixOf dashO = true := by decide
  have ne_dashO : ∀ {arg : CString}, dashO.isPrefixOf arg = false → arg ≠ dashO := by
    rintro arg plain rfl
    rw [bare] at plain
    cases plain
  have rest : joined (parsed.others ++ addedArgs multithreaded libfuse progname mntsrc mntdest) =
      parsed.others ++ addedArgs multithreaded libfuse progname mntsrc mntdest := by
    apply joined_of_no_dashO
    intro arg member
    rcases List.mem_append.mp member with other | added
    · exact ne_dashO (parsed.others_plain arg other)
    · exact (keepsSome_addedArgs multithreaded libfuse progname mntsrc mntdest arg added).1
  rw [ParsedArgs.vector, List.cons_append, joined_of_ne (ne_dashO parsed.progname_plain), userList,
    List.append_assoc]
  cases parsed.opts with
  | none => exact congrArg _ rest
  | some opts =>
    rw [List.cons_append, List.cons_append, List.nil_append, joined, if_pos rfl, rest]
    rfl

theorem separated_vector (parsed : ParsedArgs) :
    Separated keepOption
      (joined (parsed.vector ++ addedArgs multithreaded libfuse progname mntsrc mntdest)) := by
  have tail : Separated keepOption
      (parsed.others ++ addedArgs multithreaded libfuse progname mntsrc mntdest) := by
    apply separated_of_keepsSome
    intro arg member
    rcases List.mem_append.mp member with other | added
    · exact keepsSome_of_plain (parsed.others_plain arg other)
    · exact (keepsSome_addedArgs multithreaded libfuse progname mntsrc mntdest arg added).2
  have list : Separated keepOption (userList parsed ++
      (parsed.others ++ addedArgs multithreaded libfuse progname mntsrc mntdest)) := by
    unfold userList
    cases parsed.opts with
    | none => exact tail
    | some opts =>
      cases follows : parsed.others ++ addedArgs multithreaded libfuse progname mntsrc mntdest with
      | nil => exact List.IsChain.singleton _
      | cons next rest =>
        refine List.isChain_cons_cons.mpr ⟨fun _ _ => ?_, follows ▸ tail⟩
        exact cleaned_head multithreaded libfuse progname mntsrc mntdest parsed.others_plain follows
  rw [joined_vector]
  cases follows : userList parsed ++
      (parsed.others ++ addedArgs multithreaded libfuse progname mntsrc mntdest) with
  | nil => exact List.IsChain.singleton _
  | cons next rest =>
    refine List.isChain_cons_cons.mpr ⟨fun isO => ?_, follows ▸ list⟩
    rw [parsed.progname_plain] at isO
    cases isO

end

/-- For every command line that `main` accepts and whatever `fuse_opt_parse` leaves of it: the vector
that `fuse_main` gets is the program name, the options of the user that are not ignored, the
left-over words, and what `main` adds, in this order and nothing else. -/
theorem fuse_main_arguments (system : System) (commandLine : CommandLine) (libfuse : LibfuseOptions)
    (parsed : ParsedArgs) {settings : Settings} {args : List CString}
    (accepted : mainArguments system commandLine libfuse parsed = .ok (settings, args)) :
    ∃ startup mntsrc, parseOptions system commandLine = .ok (startup, mntsrc) ∧
      args = parsed.progname :: (parsed.opts.toList.flatMap keptList ++ parsed.others ++
        addedTold commandLine.od.multithreaded libfuse parsed.progname mntsrc settings.mntdest) := by
  obtain ⟨_, -, accepted⟩ := bind_ok_iff.mp accepted
  obtain ⟨⟨startup, mntsrc⟩, options, accepted⟩ := bind_ok_iff.mp accepted
  cases accepted
  refine ⟨startup, mntsrc, options, ?_⟩
  have words : parsed.others.flatMap (cleaned keepOption) = parsed.others := by
    rw [List.flatMap_congr fun arg member => cleaned_of_plain (parsed.others_plain arg member)]
    exact List.flatMap_singleton' parsed.others
  rw [filterSpecialOpts, (filterOOpts_live keepOption _).1, filtered_of_separated keepOption _
    (separated_vector ..), joined_vector, List.flatMap_cons, cleaned_of_plain parsed.progname_plain,
    List.flatMap_append, List.flatMap_append, cleaned_addedArgs, words, userList, List.flatMap_map]
  simp only [cleaned_optionArg, List.singleton_append, List.append_assoc]

def plainSystem : System := { rootSystem with getuid := 1000#32 }

/-- `bindfs -o user,rw /src /mnt`. -/
def plainCommandLine : CommandLine where
  od := OptionData.empty
  calls := [(.nonoption, "/src".toList), (.nonoption, "/mnt".toList)]
  malformed := false

def plainArgs : ParsedArgs where
  progname := "bindfs".toList
  opts := some "user,rw".toList
  others := ["/mnt".toList]
  progname_plain := by decide
  others_plain := by decide

theorem fuse_main_arguments_of_plain :
    ∃ settings args, mainArguments plainSystem plainCommandLine ⟨false, none, 30⟩ plainArgs =
        .ok (settings, args) ∧
      args = ["bindfs", "-orw", "/mnt", "-s", "-oallow_other", "-odefault_permissions", "-ofsname=/src",
        "-osubtype=bindfs"].map String.toList := by
  have accepted : ∃ settings args, mainArguments plainSystem plainCommandLine ⟨false, none, 30⟩ plainArgs =
      .ok (settings, args) ∧ settings.mntdest = "/mnt".toList := ⟨_, _, rfl, rfl⟩
  obtain ⟨settings, args, accepted, mntdest⟩ := accepted
  obtain ⟨startup, mntsrc, options, told⟩ := fuse_main_arguments _ _ _ _ accepted
  have source : mntsrc = "/src".toList := by
    cases options
    rfl
  refine ⟨settings, args, accepted, ?_⟩
  rw [told, source, mntdest]
  decide +kernel

end Bindfs.Guarantees.FuseArguments
