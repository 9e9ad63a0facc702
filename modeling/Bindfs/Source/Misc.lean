import Mathlib.Data.List.DropRight
import Bindfs.Source.Types

/-!
# String helpers of misc.c

Pointers into a string are indices; `size_t` differences that the code takes are natural
subtractions, none of which can wrap here (a part starts inside its string).
-/
namespace Bindfs.Source

/-- Lists on the command line are separated by ',' or, for /etc/fstab, by ':'. -/
def isSeparator (c : Char) : Bool := c = ',' || c = ':'

def countChars (s : CString) (ch : Char) : Nat := s.count ch

/-- `count_substrs`: the loop stops once `left > sublen` fails, so an occurrence that ends
the string is not examined. -/
def countSubstrs (sub : CString) : CString → Nat
  | [] => 0
  | c :: cs =>
    if (c :: cs).length > sub.length then
      (if sub.isPrefixOf (c :: cs) then 1 else 0) + countSubstrs sub cs
    else 0

def strdupUntil (s endchars : CString) : CString := s.takeWhile (· ∉ endchars)

/-- `find_last_char_between`, as an index into the searched range. -/
def findLastCharBetween (ch : Char) : CString → Option Nat
  | [] => none
  | c :: cs =>
    match findLastCharBetween ch cs with
    | some i => some (i + 1)
    | none => if c = ch then some 0 else none

def myBasename (path : CString) : CString :=
  match findLastCharBetween '/' path with
  | some i => path.drop (i + 1)
  | none => path

/-- `my_dirname`. The scan for the last slash stops before the first character. -/
def myDirname (path : CString) : CString :=
  if path = ['.'] then ['.', '.']
  else if path = ['/'] then ['/']
  else match findLastCharBetween '/' path.tail with
    | some i => path.take (i + 1)
    | none => if path.head? = some '/' then ['/'] else ['.']

/-- Where the last component of a path starts. -/
def lastPartStart (path : CString) : Nat :=
  match findLastCharBetween '/' path with
  | some i => i + 1
  | none => 0

/-- `path_starts_with`: both strings lose their trailing slashes, the characters of the
prefix are compared, then only the lengths of the components that the last component of
the prefix stands in. -/
def pathStartsWith (path prefixStr : CString) : Bool :=
  let trimmed := prefixStr.rdropWhile (· = '/')
  let pathLen := (path.rdropWhile (· = '/')).length
  if path.take trimmed.length = trimmed then
    let partStart := lastPartStart trimmed
    let prefixPartLen := trimmed.length - partStart
    let pathPart := path.drop partStart
    let pathPartLen := (pathPart.findIdx? (· = '/')).getD (pathLen - partStart)
    prefixPartLen = pathPartLen
  else false

/-! ## Components -/

theorem findLastCharBetween_none {ch : Char} {s : CString}
    (absent : findLastCharBetween ch s = none) : ch ∉ s := by
  induction s with
  | nil => simp
  | cons c cs ih =>
    simp only [findLastCharBetween] at absent
    split at absent
    · cases absent
    · rename_i rest
      split at absent
      · cases absent
      · rename_i other
        simp only [List.mem_cons, not_or]
        exact ⟨fun same => other same.symm, ih rest⟩

theorem findLastCharBetween_some {ch : Char} {s : CString} {i : Nat}
    (found : findLastCharBetween ch s = some i) :
    ∃ before after, s = before ++ ch :: after ∧ before.length = i ∧ ch ∉ after := by
  induction s generalizing i with
  | nil => cases found
  | cons c cs ih =>
    simp only [findLastCharBetween] at found
    split at found
    · rename_i j rest
      cases found
      obtain ⟨before, after, rfl, rfl, last⟩ := ih rest
      exact ⟨c :: before, after, rfl, rfl, last⟩
    · rename_i rest
      split at found
      · rename_i same
        cases found
        subst same
        exact ⟨[], cs, rfl, rfl, findLastCharBetween_none rest⟩
      · cases found

theorem lastPartStart_spec (path : CString) :
    ∃ before part, path = before ++ part ∧ '/' ∉ part ∧ lastPartStart path = before.length := by
  unfold lastPartStart
  cases found : findLastCharBetween '/' path with
  | none => exact ⟨[], path, rfl, findLastCharBetween_none found, rfl⟩
  | some i =>
    obtain ⟨before, after, rfl, rfl, last⟩ := findLastCharBetween_some found
    exact ⟨before ++ ['/'], after, by simp, last, by simp⟩

theorem findIdx_slash_of_not_mem {part : CString} (noSlash : '/' ∉ part) :
    part.findIdx? (· = '/') = none :=
  List.findIdx?_eq_none_iff.mpr fun _ member =>
    decide_eq_false fun slash => noSlash (slash ▸ member)

/-- A path agrees with a slash-free last part exactly up to the part's end. -/
theorem partLength_eq_iff {before part rest : CString} (noSlash : '/' ∉ part)
    (ends : (before ++ part).rdropWhile (· = '/') = before ++ part) :
    part.length = ((part ++ rest).findIdx? (· = '/')).getD
        (((before ++ part ++ rest).rdropWhile (· = '/')).length - before.length) ↔
      rest = [] ∨ rest.head? = some '/' := by
  rw [List.findIdx?_append, findIdx_slash_of_not_mem noSlash]
  cases rest with
  | nil => simp [ends]
  | cons c rest =>
    by_cases slash : c = '/'
    · simp [slash, List.findIdx?_cons]
    · cases found : rest.findIdx? (· = '/') with
      | some j =>
        simp [slash, List.findIdx?_cons, found]
      | none =>
        have noneLeft : ∀ d ∈ c :: rest, d ≠ '/' := by
          intro d member same
          subst same
          rcases List.mem_cons.mp member with same | member
          · exact slash same.symm
          · have := List.findIdx?_eq_none_iff.mp found _ member
            simp at this
        have whole : (before ++ part ++ c :: rest).rdropWhile (· = '/') = before ++ part ++ c :: rest := by
          rw [List.rdropWhile_eq_self_iff]
          intro nonempty
          have last := noneLeft ((c :: rest).getLast (by simp)) (List.getLast_mem _)
          rw [List.getLast_append_of_ne_nil _ (by simp : c :: rest ≠ [])]
          simpa using last
        rw [whole]
        simp [slash, List.findIdx?_cons, found]

/-- `path_starts_with` decides the path-component prefix. -/
theorem pathStartsWith_iff (path prefixStr : CString) :
    pathStartsWith path prefixStr = true ↔
      path = prefixStr.rdropWhile (· = '/') ∨ prefixStr.rdropWhile (· = '/') ++ ['/'] <+: path := by
  have trimmedTwice : (prefixStr.rdropWhile (· = '/')).rdropWhile (· = '/') =
      prefixStr.rdropWhile (· = '/') := List.rdropWhile_idempotent _ _
  unfold pathStartsWith
  generalize prefixStr.rdropWhile (· = '/') = trimmed at trimmedTwice ⊢
  obtain ⟨before, part, rfl, noSlash, start⟩ := lastPartStart_spec trimmed
  simp only [start]
  by_cases agrees : path.take (before ++ part).length = before ++ part
  · rw [if_pos agrees]
    obtain ⟨rest, rfl⟩ : ∃ rest, path = before ++ part ++ rest := by
      refine ⟨path.drop (before ++ part).length, ?_⟩
      have joined := List.take_append_drop (before ++ part).length path
      rw [agrees] at joined
      exact joined.symm
    have lengths : (before ++ part).length - before.length = part.length := by simp
    have dropped : (before ++ part ++ rest).drop before.length = part ++ rest := by simp
    rw [decide_eq_true_iff, lengths, dropped, partLength_eq_iff noSlash trimmedTwice]
    cases rest with
    | nil => simp
    | cons c rest => simp [eq_comm]
  · rw [if_neg agrees]
    refine iff_of_false (by simp) ?_
    rintro (rfl | ⟨rest, rfl⟩)
    · exact agrees (List.take_length)
    · exact agrees (by rw [List.append_assoc, List.take_left])

/-! ## Parent directories -/

theorem parent_cases (path : CString) (absolute : path.head? = some '/') :
    (myDirname path = path) ∨ (myDirname path = ['/']) ∨
      ∃ rest, path = myDirname path ++ '/' :: rest := by
  unfold myDirname
  cases path with
  | nil => cases absolute
  | cons c rest =>
    have slash : c = '/' := by simpa using absolute
    subst slash
    by_cases root : '/' :: rest = ['/']
    · left
      simp [root]
    · rw [if_neg (by simp), if_neg root]
      right
      simp only [List.tail_cons]
      cases found : findLastCharBetween '/' rest with
      | none => exact Or.inl rfl
      | some i =>
        obtain ⟨before, after, rfl, rfl, -⟩ := findLastCharBetween_some found
        refine Or.inr ⟨after, ?_⟩
        simp

end Bindfs.Source
