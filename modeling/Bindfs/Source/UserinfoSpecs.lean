import Bindfs.Source.MapParsing

/-!
# What the numeric branch of user_uid and group_gid reads

`SignedNumeral s n` says that `s` is an optional sign and one or more decimal digits and
spells the number `n`. On such strings the id is `n` saturated to a `long` and taken modulo
2^32 (`valueToId_of_numeral`). The branch is taken for one string without a digit, the empty
one (`takesNumericBranch_cases`).
-/
namespace Bindfs.Source

inductive SignedNumeral : CString → Int → Prop
  | plain {digits : CString} (nonempty : digits ≠ [])
      (decimal : ∀ c ∈ digits, c.isDigit = true) :
      SignedNumeral digits (numeral 10 digits)
  | plus {digits : CString} (nonempty : digits ≠ [])
      (decimal : ∀ c ∈ digits, c.isDigit = true) :
      SignedNumeral ('+' :: digits) (numeral 10 digits)
  | minus {digits : CString} (nonempty : digits ≠ [])
      (decimal : ∀ c ∈ digits, c.isDigit = true) :
      SignedNumeral ('-' :: digits) (-(numeral 10 digits : Int))

/-- A `long` as the conversion returns it for a number of any size. -/
def saturated (n : Int) : Int := max LONG_MIN (min LONG_MAX n)

theorem isDigitIn_ten_iff (c : Char) : isDigitIn 10 c = true ↔ c.isDigit = true := by
  unfold isDigitIn digitValue
  by_cases digit : c.isDigit = true
  · have bounds := digit_bounds digit
    have zero : '0'.toNat = 48 := by decide
    simp only [digit, if_true, zero, decide_eq_true_eq, iff_true]
    omega
  · simp [digit]

theorem digits_read_in_full {digits : CString} (decimal : ∀ c ∈ digits, c.isDigit = true) :
    digits.takeWhile (isDigitIn 10) = digits ∧ digits.dropWhile (isDigitIn 10) = [] := by
  have all : ∀ c ∈ digits, isDigitIn 10 c = true := fun c member =>
    (isDigitIn_ten_iff c).mpr (decimal c member)
  exact ⟨List.takeWhile_eq_self_iff.mpr all, List.dropWhile_eq_nil_iff.mpr all⟩

theorem strtol_of_numeral {s : CString} {n : Int} (spells : SignedNumeral s n) :
    strtol 10 s = (saturated n, []) := by
  cases spells with
  | @plain digits nonempty decimal =>
    obtain ⟨read, left⟩ := digits_read_in_full decimal
    obtain ⟨c, rest, rfl⟩ := List.exists_cons_of_ne_nil nonempty
    have digit := decimal c (by simp)
    have noSpace : (c :: rest).dropWhile isSpace = c :: rest := by
      rw [List.dropWhile_cons, not_space_of_digit digit]
      rfl
    simp only [strtol, noSpace, readSign_of_digit digit, read, left, if_neg nonempty]
    rfl
  | @plus digits nonempty decimal =>
    obtain ⟨read, left⟩ := digits_read_in_full decimal
    have noSpace : ('+' :: digits).dropWhile isSpace = '+' :: digits := rfl
    simp only [strtol, noSpace, readSign, read, left, if_neg nonempty]
    rfl
  | @minus digits nonempty decimal =>
    obtain ⟨read, left⟩ := digits_read_in_full decimal
    have noSpace : ('-' :: digits).dropWhile isSpace = '-' :: digits := rfl
    simp only [strtol, noSpace, readSign, read, left, if_neg nonempty]
    rfl

/-- The id a numeral is read as; the database is not asked. -/
def numericId (n : Int) : Id := BitVec.ofInt 32 (saturated n)

theorem valueToId_of_numeral (db : UserDb) (kind : IdKind) {s : CString} {n : Int}
    (spells : SignedNumeral s n) : valueToId db kind s = some (numericId n) := by
  cases kind <;>
    simp [valueToId, userUid, groupGid, nameToId, strtol_of_numeral spells, numericId]

/-- The number survives exactly when it is one that an id can hold. -/
theorem numericId_eq_iff (n : Int) :
    ((numericId n).toNat : Int) = n ↔ 0 ≤ n ∧ n < 2 ^ 32 := by
  unfold numericId saturated LONG_MIN LONG_MAX
  rw [BitVec.toNat_ofInt]
  omega

/-- A numeral has neither of the characters the parsers cut at. -/
theorem SignedNumeral.character {s : CString} {n : Int} (spells : SignedNumeral s n) :
    ∀ c ∈ s, c = '+' ∨ c = '-' ∨ c.isDigit = true := by
  cases spells with
  | plain _ decimal => exact fun c member => .inr (.inr (decimal c member))
  | plus _ decimal =>
    intro c member
    rcases List.mem_cons.mp member with rfl | inside
    · exact .inl rfl
    · exact .inr (.inr (decimal c inside))
  | minus _ decimal =>
    intro c member
    rcases List.mem_cons.mp member with rfl | inside
    · exact .inr (.inl rfl)
    · exact .inr (.inr (decimal c inside))

theorem SignedNumeral.not_mem {s : CString} {n : Int} (spells : SignedNumeral s n) {c : Char}
    (other : c ≠ '+' ∧ c ≠ '-' ∧ c.isDigit = false) : c ∉ s := by
  intro member
  rcases spells.character c member with rfl | rfl | digit
  · exact other.1 rfl
  · exact other.2.1 rfl
  · exact absurd (other.2.2.symm.trans digit) (by decide)

theorem SignedNumeral.ne_nil {s : CString} {n : Int} (spells : SignedNumeral s n) : s ≠ [] := by
  cases spells with
  | plain nonempty _ => exact nonempty
  | plus _ _ => simp
  | minus _ _ => simp

/-! ## Strings without a digit -/

/-- The test `*endptr == '\0'`: the conversion left nothing unread. -/
def takesNumericBranch (name : CString) : Bool := (strtol 10 name).2 = []

theorem mem_of_mem_readSign {s : CString} {c : Char} (member : c ∈ (readSign s).2) : c ∈ s := by
  unfold readSign at member
  split at member
  · exact List.mem_cons_of_mem _ member
  · exact List.mem_cons_of_mem _ member
  · exact member

/-- When no digit is read the end pointer is the start, which is the end of the empty string
only. -/
theorem takesNumericBranch_cases {name : CString} (numeric : takesNumericBranch name = true) :
    name = [] ∨ ∃ c ∈ name, c.isDigit = true := by
  have stopped : (strtol 10 name).2 = [] := of_decide_eq_true numeric
  unfold strtol at stopped
  dsimp only at stopped
  split at stopped
  · exact .inl stopped
  · rename_i some_digit
    obtain ⟨c, rest, read⟩ := List.exists_cons_of_ne_nil some_digit
    have first : c ∈ (readSign (name.dropWhile isSpace)).2.takeWhile (isDigitIn 10) := by
      rw [read]
      simp
    refine .inr ⟨c, ?_, (isDigitIn_ten_iff c).mp (List.mem_takeWhile_imp first)⟩
    have inBody := (List.takeWhile_sublist (isDigitIn 10)).subset first
    exact (List.dropWhile_sublist isSpace).subset (mem_of_mem_readSign inBody)

end Bindfs.Source
