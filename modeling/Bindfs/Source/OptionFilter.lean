import Bindfs.Lib.Compaction
import Bindfs.Source.Libc

/-!
# filter_o_opts: mount options that libfuse must not see

The copied vector has `argc` slots in use; both passes walk it by index, shrink it in place
and go on to the next index. The NULL behind the last argument is never read and left out.

`mergeOArgs_live` and `filterLoop_live` say what the passes leave in use: the first joins
`-o` with the argument after it (`joined`), the second filters the option lists but passes
over the argument that follows a removed one (`filtered`).
-/
namespace Bindfs.Source
open Bindfs.Lib.Compaction

/-- `argc` and `argv`: the arguments are the first `argc` slots. -/
structure ArgVector where
  argv : List CString
  argc : Nat
  deriving DecidableEq, Repr

def ArgVector.args (vector : ArgVector) : List CString := vector.argv.take vector.argc

def dashO : CString := ['-', 'o']

/-! ## The passes -/

/-- The loop of `dup_argv`; the strings are copied too, so the original stays as it is. -/
def dupArgv (argc : Nat) (argv : List CString) : List CString := argv.take argc

/-- The loop of `merge_o_args`. A last `-o` is dropped with its slot. -/
def mergeLoop (argv : List CString) (argc i : Nat) : ArgVector :=
  if i < argc then
    if argv.getD i [] = dashO then
      if i + 1 < argc then
        mergeLoop (shiftDown (argv.set i (dashO ++ argv.getD (i + 1) [])) (i + 1) (argc - 1))
          (argc - 1) (i + 1)
      else mergeLoop argv (argc - 1) (i + 1)
    else mergeLoop argv argc (i + 1)
  else ⟨argv, argc⟩
termination_by argc - i

def mergeOArgs (argc : Nat) (argv : List CString) : ArgVector := mergeLoop argv argc 0

/-- What the loop writes for an option: `-o` in front of the first, a comma before the others. -/
def appendOption (filtered tok : CString) : CString :=
  (if filtered = [] then dashO else filtered ++ [',']) ++ tok

/-- The loop over the tokens of one list; `filtered` is what has been written so far. -/
def filterTokens (keep : CString → Bool) (filtered s : CString) : CString :=
  match _cut : strtok [','] s with
  | none => filtered
  | some (tok, rest) =>
    filterTokens keep (if keep tok then appendOption filtered tok else filtered) rest
termination_by s.length
decreasing_by exact length_of_strtok _cut

/-- The list of the options kept of one argument; empty when there is none. -/
def filterArg (keep : CString → Bool) (arg : CString) : CString := filterTokens keep [] (arg.drop 2)

/-- The loop of `filter_o_opts`. `strtok` cuts the copied argument up in place, but its slot is
overwritten or no longer in use afterwards. -/
def filterLoop (keep : CString → Bool) (argv : List CString) (argc i : Nat) : ArgVector :=
  if i < argc then
    if dashO.isPrefixOf (argv.getD i []) then
      if filterArg keep (argv.getD i []) ≠ [] then
        filterLoop keep (argv.set i (filterArg keep (argv.getD i []))) argc (i + 1)
      else filterLoop keep (shiftDown argv i (argc - 1)) (argc - 1) (i + 1)
    else filterLoop keep argv argc (i + 1)
  else ⟨argv, argc⟩
termination_by argc - i

def filterOOpts (keep : CString → Bool) (origArgc : Nat) (origArgv : List CString) : ArgVector :=
  let merged := mergeOArgs origArgc (dupArgv origArgc origArgv)
  filterLoop keep merged.argv merged.argc 0

/-! ## The option list of bindfs -/

def ignoredOpts : List CString :=
  ["", "user", "nofail", "nouser", "users", "auto", "noauto", "_netdev"].map String.toList

def keepOption (opt : CString) : Bool := opt ∉ ignoredOpts

/-- `filter_special_opts`: the arguments handed on to libfuse, added one by one. -/
def filterSpecialOpts (args : List CString) : List CString :=
  (filterOOpts keepOption args.length args).args

/-! ## What the passes leave in use -/

/-- `-o` and the argument after it become one argument; a last `-o` goes. -/
def joined : List CString → List CString
  | [] => []
  | [arg] => if arg = dashO then [] else [arg]
  | arg :: next :: rest =>
    if arg = dashO then (dashO ++ next) :: joined rest else arg :: joined (next :: rest)

theorem joined_of_ne {arg : CString} (other : arg ≠ dashO) (rest : List CString) :
    joined (arg :: rest) = arg :: joined rest := by
  cases rest with
  | nil => simp [joined, other]
  | cons next rest => simp [joined, other]

/-- The run lemma of the first pass: the slots before `i` are done, the others get joined. -/
theorem mergeLoop_live (argv : List CString) (argc i : Nat) {front rest : List CString}
    (bound : argc ≤ argv.length) (live : argv.take argc = front ++ rest) (done : front.length = i) :
    (mergeLoop argv argc i).args = front ++ joined rest ∧
      (mergeLoop argv argc i).argc ≤ (mergeLoop argv argc i).argv.length := by
  fun_induction mergeLoop argv argc i generalizing front rest with
  | case1 argv argc i running isO more ih =>
    subst done
    obtain ⟨arg, later, rfl⟩ := exists_next_of_running bound live running
    have behind : argv.take argc = (front ++ [arg]) ++ later := by simpa using live
    obtain ⟨next, rest, rfl⟩ := exists_next_of_running bound behind (by simpa using more)
    have next_eq := getD_of_live behind []
    rw [List.length_append, List.length_singleton] at next_eq
    rw [getD_of_live live] at isO
    rw [next_eq] at ih ⊢
    have merged := take_set_of_live live (dashO ++ next)
    rw [List.append_cons] at merged
    have closed := take_shiftDown_append (by simpa using bound) merged
    rw [List.length_append, List.length_singleton] at closed
    have joinedLater := ih (by rw [length_shiftDown, List.length_set]; omega) closed (by simp)
    simpa [joined, isO] using joinedLater
  | case2 argv argc i running isO last ih =>
    subst done
    obtain ⟨arg, later, rfl⟩ := exists_next_of_running bound live running
    have behind : argv.take argc = (front ++ [arg]) ++ later := by simpa using live
    obtain rfl := nil_of_stopped bound behind (by simpa using last)
    rw [getD_of_live live] at isO
    rw [mergeLoop, if_neg (by omega), isO]
    have dropped : argv.take (argc - 1) = front ++ [] := by
      rw [take_pred_of_live bound live, List.append_nil]
    exact ⟨dropped, by dsimp only; omega⟩
  | case3 argv argc i running notO ih =>
    subst done
    obtain ⟨arg, later, rfl⟩ := exists_next_of_running bound live running
    rw [getD_of_live live] at notO
    rw [List.append_cons] at live
    rw [joined_of_ne notO, List.append_cons]
    exact ih bound live (by simp)
  | case4 argv argc i stopped =>
    subst done
    obtain rfl := nil_of_stopped bound live stopped
    exact ⟨live, bound⟩

/-- The first pass leaves the joined arguments in use. -/
theorem mergeOArgs_live (argv : List CString) :
    (mergeOArgs argv.length argv).args = joined argv ∧
      (mergeOArgs argv.length argv).argc ≤ (mergeOArgs argv.length argv).argv.length := by
  have live : argv.take argv.length = [] ++ argv := by simp
  exact mergeLoop_live argv argv.length 0 (Nat.le_refl _) live rfl

/-! ## One option list -/

/-- An option argument made of the given options; empty without any. -/
def optionList (options : List CString) : CString := options.foldl appendOption []

/-- The options of an argument that are kept: empty ones are passed over by `strtok`. -/
def keptOptions (keep : CString → Bool) (arg : CString) : List CString :=
  (nonemptyFields ',' (arg.drop 2)).filter keep

theorem filterTokens_eq (keep : CString → Bool) (filtered s : CString) :
    filterTokens keep filtered s =
      ((nonemptyFields ',' s).filter keep).foldl appendOption filtered := by
  fun_induction filterTokens keep filtered s with
  | case1 filtered s stopped =>
    rcases strtok_cases ',' s with ⟨-, none_left⟩ | ⟨tok, rest, cut, -⟩
    · rw [none_left]
      rfl
    · rw [stopped] at cut
      cases cut
  | case2 filtered s tok rest cut ih =>
    rcases strtok_cases ',' s with ⟨stopped, -⟩ | ⟨tok', rest', cut', split⟩
    · rw [stopped] at cut
      cases cut
    · rw [cut] at cut'
      cases cut'
      rw [dite_eq_ite] at ih
      rw [ih, split]
      by_cases kept : keep tok = true
      · simp [kept]
      · simp [kept]

theorem filterArg_eq (keep : CString → Bool) (arg : CString) :
    filterArg keep arg = optionList (keptOptions keep arg) :=
  filterTokens_eq keep [] (arg.drop 2)

theorem foldl_appendOption (options : List CString) (first : CString) :
    options.foldl appendOption (dashO ++ first) = dashO ++ [','].intercalate (first :: options) := by
  induction options generalizing first with
  | nil => simp
  | cons next rest ih =>
    have step : appendOption (dashO ++ first) next = dashO ++ (first ++ ',' :: next) := by
      simp [appendOption, dashO]
    rw [List.foldl_cons, step, ih]
    cases rest with
    | nil => simp
    | cons other rest => simp

theorem optionList_of_ne_nil {options : List CString} (some_left : options ≠ []) :
    optionList options = dashO ++ [','].intercalate options := by
  obtain ⟨first, rest, rfl⟩ := List.exists_cons_of_ne_nil some_left
  rw [← foldl_appendOption]
  rfl

theorem optionList_eq_nil_iff (options : List CString) : optionList options = [] ↔ options = [] := by
  constructor
  · intro empty
    by_contra some_left
    rw [optionList_of_ne_nil some_left] at empty
    cases empty
  · rintro rfl
    rfl

/-! ## The second pass -/

/-- Option lists lose what `keep` rejects. When an argument loses everything it is removed,
and the argument after it takes its place behind the back of the loop. -/
def filtered (keep : CString → Bool) : List CString → List CString
  | [] => []
  | arg :: rest =>
    if dashO.isPrefixOf arg then
      if keptOptions keep arg = [] then
        match rest with
        | [] => []
        | next :: rest => next :: filtered keep rest
      else optionList (keptOptions keep arg) :: filtered keep rest
    else arg :: filtered keep rest

section
variable {keep : CString → Bool} {arg : CString}

theorem filtered_other (notO : ¬ dashO.isPrefixOf arg = true) (rest : List CString) :
    filtered keep (arg :: rest) = arg :: filtered keep rest := by
  cases rest <;> simp [filtered, notO]

theorem filtered_kept (isO : dashO.isPrefixOf arg = true) (some_kept : keptOptions keep arg ≠ [])
    (rest : List CString) :
    filtered keep (arg :: rest) = optionList (keptOptions keep arg) :: filtered keep rest := by
  cases rest <;> simp [filtered, isO, some_kept]

theorem filtered_removed (isO : dashO.isPrefixOf arg = true) (none_kept : keptOptions keep arg = [])
    (next : CString) (rest : List CString) :
    filtered keep (arg :: next :: rest) = next :: filtered keep rest := by
  simp [filtered, isO, none_kept]

theorem filtered_last (isO : dashO.isPrefixOf arg = true) (none_kept : keptOptions keep arg = []) :
    filtered keep [arg] = [] := by
  simp [filtered, isO, none_kept]

end

/-- The run lemma of the second pass. -/
theorem filterLoop_live (keep : CString → Bool) (argv : List CString) (argc i : Nat)
    {front rest : List CString} (bound : argc ≤ argv.length)
    (live : argv.take argc = front ++ rest) (done : front.length = i) :
    (filterLoop keep argv argc i).args = front ++ filtered keep rest ∧
      (filterLoop keep argv argc i).argc ≤ (filterLoop keep argv argc i).argv.length := by
  fun_induction filterLoop keep argv argc i generalizing front rest with
  | case1 argv argc i running isO some_kept ih =>
    subst done
    obtain ⟨arg, later, rfl⟩ := exists_next_of_running bound live running
    rw [getD_of_live live] at isO some_kept ih ⊢
    have replaced := take_set_of_live live (filterArg keep arg)
    rw [List.append_cons] at replaced
    have filteredLater := ih (by simpa using bound) replaced (by simp)
    rw [filterArg_eq, ne_eq, optionList_eq_nil_iff] at some_kept
    rw [filtered_kept isO some_kept, ← filterArg_eq, List.append_cons]
    exact filteredLater
  | case2 argv argc i running isO none_kept ih =>
    subst done
    obtain ⟨arg, later, rfl⟩ := exists_next_of_running bound live running
    rw [getD_of_live live, filterArg_eq, ne_eq, optionList_eq_nil_iff, not_not] at none_kept
    rw [getD_of_live live] at isO
    have closed := take_shiftDown_append bound live
    have fits : argc - 1 ≤ (shiftDown argv front.length (argc - 1)).length := by
      rw [length_shiftDown]
      omega
    cases later with
    | nil =>
      have size := length_of_live bound live
      rw [List.length_append, List.length_singleton] at size
      rw [filterLoop, if_neg (by omega), filtered_last isO none_kept]
      exact ⟨closed, fits⟩
    | cons next rest =>
      rw [List.append_cons] at closed
      rw [filtered_removed isO none_kept, List.append_cons]
      exact ih fits closed (by simp)
  | case3 argv argc i running notO ih =>
    subst done
    obtain ⟨arg, later, rfl⟩ := exists_next_of_running bound live running
    rw [getD_of_live live] at notO
    rw [List.append_cons] at live
    rw [filtered_other notO, List.append_cons]
    exact ih bound live (by simp)
  | case4 argv argc i stopped =>
    subst done
    obtain rfl := nil_of_stopped bound live stopped
    exact ⟨live, bound⟩

/-- What `filter_o_opts` returns for any vector. -/
theorem filterOOpts_live (keep : CString → Bool) (argv : List CString) :
    (filterOOpts keep argv.length argv).args = filtered keep (joined argv) ∧
      (filterOOpts keep argv.length argv).argc = (filtered keep (joined argv)).length := by
  obtain ⟨merged, fits⟩ := mergeOArgs_live argv
  have copied : dupArgv argv.length argv = argv := by simp [dupArgv]
  have start : (mergeOArgs argv.length argv).argv.take (mergeOArgs argv.length argv).argc =
      [] ++ joined argv := merged
  obtain ⟨result, bound⟩ := filterLoop_live keep _ _ 0 fits start rfl
  have same : (filterOOpts keep argv.length argv).args = filtered keep (joined argv) := by
    rw [filterOOpts, copied]
    exact result
  refine ⟨same, ?_⟩
  rw [← same, ArgVector.args, List.length_take, Nat.min_eq_left]
  rw [filterOOpts, copied]
  exact bound

end Bindfs.Source
