import Bindfs.Lib.Segments
import Bindfs.Source.Types

/-!
# The C library functions the sources call on strings

`strtol` and its siblings, `strtok`, `strstr` and `getline`, on lists of characters.
Conversions follow the C standard in the "C" locale for a 64-bit `long`: leading white
space, one optional sign, the longest run of digits, saturation on overflow, and an end
pointer equal to the start when there is no digit.
-/
namespace Bindfs.Source

def isSpace (c : Char) : Bool :=
  c = ' ' || c = '\t' || c = '\n' || c = '\x0b' || c = '\x0c' || c = '\r'

/-- Value of a decimal digit character; other characters give a value no base accepts. -/
def digitValue (c : Char) : Nat :=
  if c.isDigit then c.toNat - '0'.toNat else 36

def isDigitIn (base : Nat) (c : Char) : Bool := digitValue c < base

def numeral (base : Nat) (digits : CString) : Nat :=
  digits.foldl (fun value c => value * base + digitValue c) 0

/-- The sign a conversion reads and what is left after it. -/
def readSign : CString → Bool × CString
  | '-' :: rest => (true, rest)
  | '+' :: rest => (false, rest)
  | s => (false, s)

def LONG_MAX : Int := 2 ^ 63 - 1
def LONG_MIN : Int := -2 ^ 63
def ULONG_MAX : Nat := 2 ^ 64 - 1

/-- `strtol(s, &endptr, base)` and `strtoll`, for the bases 8 and 10: the value and the
string at `endptr`. -/
def strtol (base : Nat) (s : CString) : Int × CString :=
  let (negative, body) := readSign (s.dropWhile isSpace)
  let digits := body.takeWhile (isDigitIn base)
  if digits = [] then (0, s)
  else
    let magnitude : Int := numeral base digits
    let value := if negative then -magnitude else magnitude
    (max LONG_MIN (min LONG_MAX value), body.dropWhile (isDigitIn base))

theorem digit_bounds {c : Char} (digit : c.isDigit = true) : 48 ≤ c.toNat ∧ c.toNat ≤ 57 := by
  simpa [Char.isDigit, UInt32.le_iff_toNat_le] using digit

theorem not_space_of_digit {c : Char} (digit : c.isDigit = true) : isSpace c = false := by
  have numeric := digit_bounds digit
  simp only [isSpace, Bool.or_eq_false_iff, decide_eq_false_iff_not]
  refine ⟨⟨⟨⟨⟨?_, ?_⟩, ?_⟩, ?_⟩, ?_⟩, ?_⟩ <;>
    · rintro rfl
      revert numeric
      decide

theorem readSign_of_digit {c : Char} (digit : c.isDigit = true) (rest : CString) :
    readSign (c :: rest) = (false, c :: rest) := by
  unfold readSign
  split
  · rename_i same
    obtain ⟨rfl, -⟩ := List.cons.inj same
    exact absurd digit (by decide)
  · rename_i same
    obtain ⟨rfl, -⟩ := List.cons.inj same
    exact absurd digit (by decide)
  · rfl

/-- A string that starts with a decimal digit converts to the number its leading digits
of the base spell, 0 when there is none. -/
theorem strtol_of_digit (base : Nat) {c : Char} (digit : c.isDigit = true) (rest : CString) :
    (strtol base (c :: rest)).1 = min LONG_MAX (numeral base ((c :: rest).takeWhile (isDigitIn base))) := by
  have noSpace : (c :: rest).dropWhile isSpace = c :: rest := by
    rw [List.dropWhile_cons, not_space_of_digit digit]
    rfl
  simp only [strtol, noSpace, readSign_of_digit digit]
  split
  · rename_i none_read
    rw [none_read]
    rfl
  · simp only [Bool.false_eq_true, if_false, LONG_MAX, LONG_MIN]
    omega

/-- `strtoul(s, &endptr, 10)`: a minus sign negates modulo 2^64, overflow saturates. -/
def strtoul (s : CString) : Nat × CString :=
  let (negative, body) := readSign (s.dropWhile isSpace)
  let digits := body.takeWhile (isDigitIn 10)
  if digits = [] then (0, s)
  else
    let magnitude := numeral 10 digits
    let value :=
      if magnitude > ULONG_MAX then ULONG_MAX
      else if negative then (2 ^ 64 - magnitude) % 2 ^ 64
      else magnitude
    (value, body.dropWhile (isDigitIn 10))

/-- One `strtok` step: the next token and the string the following call continues with.
Empty fields are skipped because a run of delimiters counts as one. -/
def strtok (delims : List Char) (s : CString) : Option (CString × CString) :=
  match s.dropWhile (· ∈ delims) with
  | [] => none
  | c :: cs =>
    some ((c :: cs).takeWhile (· ∉ delims), ((c :: cs).dropWhile (· ∉ delims)).drop 1)

/-- The fields of a string that are not empty. -/
def nonemptyFields (sep : Char) (s : CString) : List CString :=
  (s.splitOnP (· = sep)).filter (· ≠ [])

/-- Successive calls of `strtok` with one delimiter deliver the fields that are not empty. -/
theorem strtok_cases (sep : Char) (s : CString) :
    (strtok [sep] s = none ∧ nonemptyFields sep s = []) ∨
      ∃ token rest, strtok [sep] s = some (token, rest) ∧
        nonemptyFields sep s = token :: nonemptyFields sep rest := by
  induction s with
  | nil => exact Or.inl ⟨rfl, rfl⟩
  | cons c s ih =>
    by_cases separator : c = sep
    · subst separator
      have skipped : strtok [c] (c :: s) = strtok [c] s := by simp [strtok]
      have empty : nonemptyFields c (c :: s) = nonemptyFields c s := by
        simp [nonemptyFields, List.splitOnP_cons_eq_if_modifyHead]
      rw [skipped, empty]
      exact ih
    · right
      have same : (fun d => decide (d ∉ [sep])) = fun d => !decide (d = sep) := by
        funext d
        simp
      have cut : strtok [sep] (c :: s) = some ((c :: s).takeWhile (fun d => !decide (d = sep)),
          ((c :: s).dropWhile (fun d => !decide (d = sep))).drop 1) := by
        rw [← same]
        simp [strtok, separator]
      have nonempty : (c :: s).takeWhile (fun d => !decide (d = sep)) ≠ [] := by
        simp [separator]
      refine ⟨_, _, cut, ?_⟩
      cases found : (c :: s).dropWhile (fun d => !decide (d = sep)) with
      | nil =>
        have single := Lib.Segments.splitOnP_scan_end (fun d => decide (d = sep)) (c :: s) found
        have whole := Lib.Segments.takeWhile_of_scan_end (fun d => decide (d = sep)) (c :: s) found
        rw [nonemptyFields, single, whole]
        simp [nonemptyFields]
      | cons d rest =>
        have split := Lib.Segments.splitOnP_scan_sep (fun d => decide (d = sep)) (c :: s) rest d found
        rw [nonemptyFields, split, List.filter_cons, if_pos (by simpa using nonempty)]
        rfl

/-- A token, and the delimiter after it if anything follows, are read from the string. -/
theorem strtok_lengths {delims : List Char} {s token rest : CString}
    (cut : strtok delims s = some (token, rest)) :
    token ≠ [] ∧ token.length ≤ s.length ∧
      (rest ≠ [] → token.length + 1 + rest.length ≤ s.length) := by
  have skipped := (List.dropWhile_sublist (fun c => decide (c ∈ delims)) (l := s)).length_le
  have stopped := List.head?_dropWhile_not (fun c => decide (c ∈ delims)) s
  unfold strtok at cut
  split at cut
  · cases cut
  · rename_i c cs found
    rw [found] at skipped stopped
    have halves := congrArg List.length
      (List.takeWhile_append_dropWhile (p := fun c => decide (c ∉ delims)) (l := c :: cs))
    rw [List.length_append] at halves
    simp only [Option.some.injEq, Prod.mk.injEq] at cut
    rw [cut.1] at halves
    refine ⟨?_, by omega, ?_⟩
    · rw [← cut.1]
      simpa using stopped
    · intro more
      have count := congrArg List.length cut.2
      rw [List.length_drop] at count
      have positive := List.length_pos_of_ne_nil more
      omega

/-- Each call continues with a shorter string. -/
theorem length_of_strtok {delims : List Char} {s token rest : CString}
    (cut : strtok delims s = some (token, rest)) : rest.length < s.length := by
  obtain ⟨nonempty, token_le, rest_le⟩ := strtok_lengths cut
  have positive := List.length_pos_of_ne_nil nonempty
  by_cases last : rest = []
  · rw [last, List.length_nil]
    omega
  · have bound := rest_le last
    omega

/-- A call cuts up its string and adds no character. -/
theorem mem_of_strtok {delims : List Char} {s token rest : CString}
    (cut : strtok delims s = some (token, rest)) :
    (∀ c ∈ token, c ∈ s) ∧ ∀ c ∈ rest, c ∈ s := by
  have skipped := (List.dropWhile_sublist (fun c => decide (c ∈ delims)) (l := s)).subset
  unfold strtok at cut
  split at cut
  · cases cut
  · rename_i c cs found
    rw [found] at skipped
    simp only [Option.some.injEq, Prod.mk.injEq] at cut
    obtain ⟨rfl, rfl⟩ := cut
    refine ⟨fun d member => skipped ((List.takeWhile_sublist _).subset member), fun d member => ?_⟩
    exact skipped ((List.dropWhile_sublist _).subset (List.mem_of_mem_drop member))

/-- `strstr(s, sub)` seen as a split: what precedes the first occurrence and what follows it. -/
def strstr (sub : CString) : CString → Option (CString × CString)
  | [] => if sub = [] then some ([], []) else none
  | c :: cs =>
    if sub.isPrefixOf (c :: cs) then some ([], (c :: cs).drop sub.length)
    else (strstr sub cs).map (fun parts => (c :: parts.1, parts.2))

/-- The first occurrence is found where the first character of `sub` has not occurred before. -/
theorem strstr_append (c : Char) (sub left right : CString) (fresh : c ∉ left) :
    strstr (c :: sub) (left ++ (c :: sub) ++ right) = some (left, right) := by
  induction left with
  | nil =>
    have here : (c :: sub).isPrefixOf (c :: (sub ++ right)) = true := by simp
    rw [List.nil_append, List.cons_append, strstr, if_pos here]
    simp
  | cons d left ih =>
    obtain ⟨different, fresh⟩ := not_or.mp (mt List.mem_cons.mpr fresh)
    have elsewhere : ¬ (c :: sub).isPrefixOf (d :: (left ++ (c :: sub) ++ right)) = true := by
      simp [different]
    rw [List.cons_append, List.cons_append, strstr, if_neg elsewhere, ih fresh]
    rfl

/-- The C string at the start of some bytes: a NUL byte ends it. -/
def cString (bytes : List Char) : CString := bytes.takeWhile (· ≠ NUL)

/-- The lines `getline` delivers for a file, each without its trailing newline. A last
line need not end in a newline; an empty rest is the end of the file, not a line. -/
def getlines (content : List Char) : List (List Char) := Lib.Segments.segments (· = '\n') content

/-- The lines as `strtok` sees them, which stops at a NUL byte. -/
def fileLines (content : List Char) : List CString := (getlines content).map cString

end Bindfs.Source
