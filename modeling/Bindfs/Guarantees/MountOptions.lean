import Bindfs.Source.OptionFilterBuffer

/-!
# Mount options that are filtered out

`filter_o_opts` keeps the stream of arguments and accepted options
(`filtering_keeps_the_stream`). It does not remove every rejected option: when an argument
loses all its options, the argument after it moves into its slot, the loop goes on to the
next slot and never looks at it (`rejected_options_removed_iff`). The buffer a kept list is
assembled in is large enough (`output_buffer_large_enough`).
-/
namespace Bindfs.Guarantees.MountOptions
open Bindfs.Source

variable (keep : CString → Bool)

/-! ## The stream -/

inductive StreamItem where
  | option (opt : CString)
  | argument (arg : CString)
  deriving DecidableEq, Repr

/-- What one argument contributes: the options of a list that are accepted, or itself. -/
def contribution (arg : CString) : List StreamItem :=
  if dashO.isPrefixOf arg then
    ((nonemptyFields ',' (arg.drop 2)).filter keep).map .option
  else [.argument arg]

/-- A vector as libfuse reads it: `-o` takes the next argument as its list. -/
def stream : List CString → List StreamItem
  | [] => []
  | [arg] => if arg = dashO then [] else contribution keep arg
  | arg :: next :: rest =>
    if arg = dashO then contribution keep (dashO ++ next) ++ stream rest
    else contribution keep arg ++ stream (next :: rest)

theorem stream_eq_joined (argv : List CString) :
    stream keep argv = (joined argv).flatMap (contribution keep) := by
  fun_induction joined argv with
  | case1 => rfl
  | case2 => simp [stream]
  | case3 arg other => simp [stream, other]
  | case4 next rest ih => simp [stream, ih]
  | case5 arg next rest other ih => simp [stream, other, ih]

/-! ## Written lists read back -/

theorem fields_optionList {options : List CString} (some_left : options ≠ [])
    (noComma : ∀ opt ∈ options, ',' ∉ opt) :
    ((optionList options).drop 2).splitOnP (· = ',') = options := by
  rw [optionList_of_ne_nil some_left]
  exact List.splitOn_intercalate ',' noComma some_left

theorem mem_keptOptions {arg opt : CString} (member : opt ∈ keptOptions keep arg) :
    opt ≠ [] ∧ ',' ∉ opt ∧ keep opt = true := by
  obtain ⟨nonempty, kept⟩ := List.mem_filter.mp member
  obtain ⟨field, filled⟩ := List.mem_filter.mp nonempty
  refine ⟨by simpa using filled, fun comma => ?_, kept⟩
  have clear := Lib.Segments.not_sep_of_mem_splitOnP _ _ opt field ',' comma
  simp at clear

theorem dashO_optionList {options : List CString} (some_left : options ≠ []) :
    dashO.isPrefixOf (optionList options) = true := by
  rw [optionList_of_ne_nil some_left]
  rfl

/-- A filtered list contributes what the argument it replaces does. -/
theorem contribution_optionList {arg : CString} (isO : dashO.isPrefixOf arg = true)
    (some_kept : keptOptions keep arg ≠ []) :
    contribution keep (optionList (keptOptions keep arg)) = contribution keep arg := by
  have fields := fields_optionList some_kept fun opt member => (mem_keptOptions keep member).2.1
  have again : (nonemptyFields ',' ((optionList (keptOptions keep arg)).drop 2)).filter keep =
      keptOptions keep arg := by
    rw [nonemptyFields, fields, List.filter_filter, List.filter_eq_self]
    intro opt member
    have properties := mem_keptOptions keep member
    simp [properties.1, properties.2.2]
  rw [contribution, if_pos (dashO_optionList some_kept), again, contribution, if_pos isO]
  rfl

theorem contribution_of_none {arg : CString} (isO : dashO.isPrefixOf arg = true)
    (none_kept : keptOptions keep arg = []) : contribution keep arg = [] := by
  rw [keptOptions] at none_kept
  rw [contribution, if_pos isO, none_kept, List.map_nil]

theorem flatMap_filtered (args : List CString) :
    (filtered keep args).flatMap (contribution keep) = args.flatMap (contribution keep) := by
  fun_induction filtered keep args with
  | case1 => rfl
  | case2 arg isO none_kept => simp [contribution_of_none keep isO none_kept]
  | case3 arg isO none_kept next rest ih =>
    simp [contribution_of_none keep isO none_kept, ih]
  | case4 arg rest isO some_kept ih =>
    simp only [List.flatMap_cons, contribution_optionList keep isO some_kept, ih]
  | case5 arg rest notO ih => simp only [List.flatMap_cons, ih]

/-- Filtering loses, invents and reorders nothing: the output, each argument on its own, has
the stream of the input, and `new_argc` counts its arguments. -/
theorem filtering_keeps_the_stream (argv : List CString) :
    stream keep argv =
        (filterOOpts keep argv.length argv).args.flatMap (contribution keep) ∧
      (filterOOpts keep argv.length argv).argc =
        (filterOOpts keep argv.length argv).args.length := by
  obtain ⟨args, argc⟩ := filterOOpts_live keep argv
  rw [args, argc, flatMap_filtered, stream_eq_joined]
  exact ⟨rfl, rfl⟩

/-! ## Rejected options -/

/-- Not a bare `-o` and not a list with a rejected option. -/
def Clean (arg : CString) : Prop :=
  dashO.isPrefixOf arg = true →
    arg ≠ dashO ∧ ∀ opt ∈ (arg.drop 2).splitOnP (· = ','), keep opt = true

/-- What the filter is for. -/
def RejectedRemoved (argv : List CString) : Prop :=
  ∀ arg ∈ (filterOOpts keep argv.length argv).args, Clean keep arg

/-- An option list of which nothing is kept. -/
def losesAll (arg : CString) : Bool := dashO.isPrefixOf arg && (keptOptions keep arg).isEmpty

/-- How many arguments in a row, at the end of a list, lose all their options. -/
def emptiedRun (args : List CString) : Nat :=
  args.foldl (fun run arg => if losesAll keep arg then run + 1 else 0) 0

/-- The arguments that the loop never looks at. -/
def passedOver : List CString → List CString
  | [] => []
  | [_] => []
  | arg :: next :: rest =>
    if losesAll keep arg then next :: passedOver rest else passedOver (next :: rest)

theorem losesAll_iff (arg : CString) :
    losesAll keep arg = true ↔ dashO.isPrefixOf arg = true ∧ keptOptions keep arg = [] := by
  simp [losesAll]

theorem clean_optionList {arg : CString} (some_kept : keptOptions keep arg ≠ []) :
    Clean keep (optionList (keptOptions keep arg)) := by
  have fields := fields_optionList some_kept fun opt member => (mem_keptOptions keep member).2.1
  intro isO
  rw [fields]
  refine ⟨fun bare => ?_, fun opt member => (mem_keptOptions keep member).2.2⟩
  -- the fields of a bare `-o` would be one empty option
  rw [bare] at fields
  have empty : [] ∈ keptOptions keep arg := by
    rw [← fields]
    decide
  exact (mem_keptOptions keep empty).1 rfl

/-- What the loop looks at comes out clean. -/
theorem clean_filtered_iff (args : List CString) :
    (∀ arg ∈ filtered keep args, Clean keep arg) ↔ ∀ arg ∈ passedOver keep args, Clean keep arg := by
  fun_induction filtered keep args with
  | case1 => simp [passedOver]
  | case2 arg isO none_kept => simp [passedOver]
  | case3 arg isO none_kept next rest ih =>
    have empties := (losesAll_iff keep arg).mpr ⟨isO, none_kept⟩
    simp [passedOver, empties, ih]
  | case4 arg rest isO some_kept ih =>
    have stays : losesAll keep arg = false := by simp [losesAll, some_kept]
    rw [List.forall_mem_cons, ih]
    cases rest with
    | nil => simp [passedOver, clean_optionList keep some_kept]
    | cons next rest => simp [passedOver, stays, clean_optionList keep some_kept]
  | case5 arg rest notO ih =>
    have stays : losesAll keep arg = false := by simp [losesAll, notO]
    have clean : Clean keep arg := fun isO => absurd isO notO
    rw [List.forall_mem_cons, ih]
    cases rest with
    | nil => simp [passedOver, clean]
    | cons next rest => simp [passedOver, stays, clean]

/-- The parity of the run at the end only depends on the parity it starts from. -/
theorem run_parity (args : List CString) {n m : Nat} (same : n % 2 = m % 2) :
    args.foldl (fun run arg => if losesAll keep arg then run + 1 else 0) n % 2 =
      args.foldl (fun run arg => if losesAll keep arg then run + 1 else 0) m % 2 := by
  induction args generalizing n m with
  | nil => exact same
  | cons arg rest ih =>
    rw [List.foldl_cons, List.foldl_cons]
    apply ih
    split
    · omega
    · rfl

theorem emptiedRun_stays {arg : CString} (stays : losesAll keep arg = false)
    (before : List CString) : emptiedRun keep (arg :: before) = emptiedRun keep before := by
  simp [emptiedRun, stays]

theorem emptiedRun_pair {arg : CString} (empties : losesAll keep arg = true) (next : CString)
    (before : List CString) :
    emptiedRun keep (arg :: next :: before) % 2 = emptiedRun keep before % 2 := by
  unfold emptiedRun
  rw [List.foldl_cons, List.foldl_cons, if_pos empties]
  apply run_parity
  split
  · rfl
  · rfl

/-- The loop passes over the successor of every argument that it removes, and it removes every
other one of a run. -/
theorem mem_passedOver_iff (args : List CString) (passed : CString) :
    passed ∈ passedOver keep args ↔
      ∃ before arg after, args = before ++ arg :: passed :: after ∧ losesAll keep arg = true ∧
        emptiedRun keep before % 2 = 0 := by
  fun_induction passedOver keep args with
  | case1 =>
    refine iff_of_false List.not_mem_nil ?_
    rintro ⟨before, arg, after, split, -⟩
    simp at split
  | case2 only =>
    refine iff_of_false List.not_mem_nil ?_
    rintro ⟨before, arg, after, split, -⟩
    have size := congrArg List.length split
    simp only [List.length_append, List.length_cons, List.length_nil] at size
    omega
  | case3 arg next rest empties ih =>
    rw [List.mem_cons, ih]
    constructor
    · rintro (rfl | ⟨before, arg', after, rfl, empties', even⟩)
      · exact ⟨[], arg, rest, rfl, empties, rfl⟩
      · exact ⟨arg :: next :: before, arg', after, rfl, empties',
          (emptiedRun_pair keep empties next before).trans even⟩
    · rintro ⟨before, arg', after, split, empties', even⟩
      match before, split, even with
      | [], split, even =>
        cases split
        exact .inl rfl
      | [_], split, even =>
        cases split
        simp [emptiedRun, empties] at even
      | _ :: _ :: before, split, even =>
        cases split
        exact .inr ⟨before, arg', after, rfl, empties',
          (emptiedRun_pair keep empties _ before).symm.trans even⟩
  | case4 arg next rest stays ih =>
    have stays : losesAll keep arg = false := by simpa using stays
    rw [ih]
    constructor
    · rintro ⟨before, arg', after, split, empties', even⟩
      exact ⟨arg :: before, arg', after, by rw [split]; rfl, empties',
        by rw [emptiedRun_stays keep stays]; exact even⟩
    · rintro ⟨before, arg', after, split, empties', even⟩
      cases before with
      | nil =>
        cases split
        rw [stays] at empties'
        cases empties'
      | cons other before =>
        obtain ⟨rfl, tail⟩ := List.cons.inj split
        exact ⟨before, arg', after, tail, empties', by rwa [emptiedRun_stays keep stays] at even⟩

/-- Every rejected option is removed exactly when no argument that loses all its options,
behind an even number of such arguments in a row, is directly followed by a bare `-o` or by a
list with a rejected option. Arguments are counted after `-o` has been joined with the next. -/
theorem rejected_options_removed_iff (argv : List CString) :
    RejectedRemoved keep argv ↔
      ∀ before arg next after, joined argv = before ++ arg :: next :: after →
        losesAll keep arg = true → emptiedRun keep before % 2 = 0 → Clean keep next := by
  unfold RejectedRemoved
  rw [(filterOOpts_live keep argv).1, clean_filtered_iff]
  simp only [mem_passedOver_iff]
  constructor
  · intro clean before arg next after split empties even
    exact clean next ⟨before, arg, after, split, empties, even⟩
  · rintro clean next ⟨before, arg, after, split, empties, even⟩
    exact clean before arg next after split empties even

/-- With `user` and `users` both ignored, `-ouser -ousers` comes out as `-ousers`. -/
theorem rejected_option_survives :
    ¬ RejectedRemoved keepOption [dashO ++ "user".toList, dashO ++ "users".toList] := by
  intro removed
  have survives : (dashO ++ "users".toList) ∈ (filterOOpts keepOption 2
      [dashO ++ "user".toList, dashO ++ "users".toList]).args := by
    decide +kernel
  exact absurd ((removed _ survives (by decide)).2 "users".toList (by decide +kernel)) (by decide +kernel)

-- and this is what libfuse is handed
example : filterSpecialOpts [dashO ++ "user".toList, dashO ++ "users".toList] =
    [dashO ++ "users".toList] := by decide +kernel

/-! ## The output buffer -/

/-- Nothing is written outside the `strlen(arg) + 1` bytes. `filtered_end` has moved exactly when
an option was kept, and then the buffer is `-o` with the kept options, joined by commas. -/
theorem output_buffer_large_enough {arg : CString} (isO : dashO.isPrefixOf arg = true)
    (plain : NUL ∉ arg) :
    ∃ buffer, filterArgInBuffer keep arg = some buffer ∧ buffer.capacity = arg.length + 1 ∧
      (buffer.size ≠ 0 ↔ keptOptions keep arg ≠ []) ∧
      (keptOptions keep arg ≠ [] →
        buffer.readString NUL 0 = some (dashO ++ [','].intercalate (keptOptions keep arg))) := by
  obtain ⟨buffer, written, assembled⟩ := filterArgInBuffer_spec keep isO
  have text := filterArg_eq keep arg
  refine ⟨buffer, written, assembled.capacity_eq, ?_, ?_⟩
  · rw [assembled.size_eq, text, ne_eq, List.length_eq_zero_iff, optionList_eq_nil_iff]
  · intro some_kept
    have nonempty : filterArg keep arg ≠ [] := by
      rwa [text, ne_eq, optionList_eq_nil_iff]
    have body : NUL ∉ arg.drop 2 := fun member => plain (List.mem_of_mem_drop member)
    have string := assembled.readString_eq nonempty
      (NUL_not_mem_filterTokens keep [] _ (List.not_mem_nil) body)
    rw [string, text, optionList_of_ne_nil some_kept]

theorem output_buffer_of_list :
    ∃ buffer, filterArgInBuffer keepOption (dashO ++ ",rw,,user,ro,".toList) = some buffer ∧
      buffer.readString NUL 0 = some (dashO ++ "rw,ro".toList) := by
  obtain ⟨buffer, written, -, -, string⟩ := output_buffer_large_enough keepOption
    (by decide : dashO.isPrefixOf (dashO ++ ",rw,,user,ro,".toList) = true) (by decide)
  have kept : keptOptions keepOption (dashO ++ ",rw,,user,ro,".toList) = ["rw".toList, "ro".toList] := by
    decide +kernel
  exact ⟨buffer, written, by rw [string (by rw [kept]; decide), kept]; rfl⟩

end Bindfs.Guarantees.MountOptions
