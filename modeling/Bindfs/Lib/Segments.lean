import Mathlib.Data.List.TakeWhile

/-!
Segments of a list between separators, in the reading of terminated lists: one empty
segment after the last separator is dropped, so a trailing separator ends the last
segment and the empty list has no segments.

`segments_of_ne_nil` unfolds the definition the way a scanner meets the segments: the
first segment is what precedes the first separator, the others are those of the rest.
`scan` is that scanner: it processes a segment, moves past one separator and stops at the
end of the input; it folds its step over the segments (`scan_eq_foldlM`).
-/
namespace Bindfs.Lib.Segments

variable {α : Type}

def segments (isSep : α → Bool) (input : List α) : List (List α) :=
  let parts := input.splitOnP isSep
  match parts.getLast? with
  | some [] => parts.dropLast
  | _ => parts

/-- What a scanner has read when it stops: the part before the first separator. -/
theorem not_sep_of_mem_takeWhile (isSep : α → Bool) (input : List α) (a : α)
    (member : a ∈ input.takeWhile (fun a => !isSep a)) : isSep a = false := by
  simpa using List.mem_takeWhile_imp member

theorem takeWhile_of_scan_end (isSep : α → Bool) (input : List α)
    (found : input.dropWhile (fun a => !isSep a) = []) :
    input.takeWhile (fun a => !isSep a) = input := by
  have split := List.takeWhile_append_dropWhile (p := fun a => !isSep a) (l := input)
  rwa [found, List.append_nil] at split

theorem splitOnP_scan_end (isSep : α → Bool) (input : List α)
    (found : input.dropWhile (fun a => !isSep a) = []) : input.splitOnP isSep = [input] := by
  have whole := takeWhile_of_scan_end isSep input found
  apply List.splitOnP_eq_singleton
  intro a member
  rw [← whole] at member
  exact not_sep_of_mem_takeWhile isSep input a member

theorem splitOnP_scan_sep (isSep : α → Bool) (input rest : List α) (sep : α)
    (found : input.dropWhile (fun a => !isSep a) = sep :: rest) :
    input.splitOnP isSep = input.takeWhile (fun a => !isSep a) :: rest.splitOnP isSep := by
  have isSep_sep : isSep sep = true := by
    have stop := List.head?_dropWhile_not (fun a => !isSep a) input
    simpa [found] using stop
  have split := List.takeWhile_append_dropWhile (p := fun a => !isSep a) (l := input)
  rw [found] at split
  have parts := List.splitOnP_append_cons_of_forall_mem
    (fun a member => not_sep_of_mem_takeWhile isSep input a member) sep isSep_sep rest
  rwa [split] at parts

/-- The parts of a split hold no separator. -/
theorem not_sep_of_mem_splitOnP (isSep : α → Bool) (input : List α) :
    ∀ part ∈ input.splitOnP isSep, ∀ a ∈ part, isSep a = false := by
  induction input with
  | nil => simp
  | cons b input ih =>
    rw [List.splitOnP_cons_eq_if_modifyHead]
    by_cases separator : isSep b = true
    · rw [if_pos separator]
      simpa using ih
    · rw [if_neg separator]
      cases parts : input.splitOnP isSep with
      | nil => simp
      | cons first others =>
        rw [parts, List.forall_mem_cons] at ih
        rw [List.modifyHead_cons, List.forall_mem_cons, List.forall_mem_cons]
        exact ⟨⟨by simpa using separator, ih.1⟩, ih.2⟩

/-- The scanner's reading of the segments of a nonempty input. -/
theorem segments_of_ne_nil (isSep : α → Bool) (input : List α) (nonempty : input ≠ []) :
    segments isSep input = input.takeWhile (fun a => !isSep a) ::
      (match input.dropWhile (fun a => !isSep a) with
        | [] => []
        | _ :: rest => segments isSep rest) := by
  cases found : input.dropWhile (fun a => !isSep a) with
  | nil =>
    have parts := splitOnP_scan_end isSep input found
    have whole := takeWhile_of_scan_end isSep input found
    cases input with
    | nil => exact absurd rfl nonempty
    | cons a input => simp [segments, parts, whole]
  | cons sep rest =>
    have parts := splitOnP_scan_sep isSep input rest sep found
    have tail_ne : rest.splitOnP isSep ≠ [] := List.splitOnP_ne_nil isSep rest
    simp only [segments, parts, List.getLast?_cons_of_ne_nil tail_ne]
    split
    · exact List.dropLast_cons_of_ne_nil tail_ne
    · rfl

/-- Parts that are each ended by a separator are the segments. -/
theorem segments_terminated (isSep : α → Bool) {sep : α} (ends : isSep sep = true) {parts : List (List α)}
    (plain : ∀ part ∈ parts, ∀ a ∈ part, isSep a = false) :
    segments isSep (parts.flatMap fun part => part ++ [sep]) = parts := by
  induction parts with
  | nil => rfl
  | cons part rest ih =>
    have first : ∀ a ∈ part, (!isSep a) = true := fun a member => by
      rw [plain part List.mem_cons_self a member]
      rfl
    rw [List.flatMap_cons, List.append_assoc, List.singleton_append, segments_of_ne_nil isSep _ (by simp),
      List.takeWhile_append_of_pos first, List.dropWhile_append_of_pos first]
    simp only [List.takeWhile_cons, List.dropWhile_cons, ends, Bool.not_true, Bool.false_eq_true, if_false,
      List.append_nil]
    rw [ih fun part member => plain part (List.mem_cons_of_mem _ member)]

/-- Process the input segment by segment; `none` from a step stops the scan. -/
def scan {σ : Type} (isSep : α → Bool) (step : σ → List α → Option σ) (state : σ)
    (input : List α) : Option σ :=
  match input with
  | [] => some state
  | a :: as =>
    match step state ((a :: as).takeWhile (fun a => !isSep a)) with
    | none => none
    | some state =>
      match _found : (a :: as).dropWhile (fun a => !isSep a) with
      | [] => some state
      | _ :: rest => scan isSep step state rest
termination_by input.length
decreasing_by
  have shorter := (List.dropWhile_sublist (fun a => !isSep a) (l := a :: as)).length_le
  rw [_found] at shorter
  exact shorter

theorem scan_eq_foldlM {σ : Type} (isSep : α → Bool) (step : σ → List α → Option σ) (state : σ)
    (input : List α) :
    scan isSep step state input = (segments isSep input).foldlM step state := by
  fun_induction scan isSep step state input with
  | case1 state => rfl
  | case2 state a as stopped =>
    rw [segments_of_ne_nil isSep (a :: as) (by simp), List.foldlM_cons, stopped]
    rfl
  | case3 state a as next stepped found =>
    rw [segments_of_ne_nil isSep (a :: as) (by simp), List.foldlM_cons, stepped, found]
    rfl
  | case4 state a as next stepped sep rest found ih =>
    rw [segments_of_ne_nil isSep (a :: as) (by simp), List.foldlM_cons, stepped, found, ih]
    rfl

end Bindfs.Lib.Segments
