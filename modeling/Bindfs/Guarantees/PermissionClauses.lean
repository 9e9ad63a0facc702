import Bindfs.Guarantees.Permissions
import Bindfs.Source.PermchainGrammar

/-!
# Clauses of a permission specification

Which clauses are accepted and what an accepted clause does to a mode, compared with the
grammar of the man page. Each comparison fails on a kind of clauses that is named exactly:

* octal clauses: `strtol` stops at the first character that is not an octal digit and
  nobody looks where (`octal_clauses_read_in_full_iff`);
* symbolic clauses: the scanner may run out of input before any operator
  (`symbolic_clause_accepted_by_grammar_iff`);
* the default class: only an operator in first position selects all classes, so a rule
  such as `d+x` selects none (`no_class_means_all_iff`).
-/
namespace Bindfs.Guarantees.PermissionClauses
open Bindfs.Source Bindfs.Guarantees.Permissions

/-! ## Octal clauses -/

def OctalDigits (clause : CString) : Prop := ∀ c ∈ clause, isDigitIn 8 c = true

instance (clause : CString) : Decidable (OctalDigits clause) :=
  inferInstanceAs (Decidable (∀ _ ∈ _, _))

/-- What a rule string's numeric clauses should mean. -/
structure OctalClausesReadInFull (rule : CString) : Prop where
  accepted_iff : ∀ clause ∈ clauses rule, startsWithDigit clause = true → ∀ pc,
    (addRuleToPermchain clause pc).1 = 0 ↔ OctalDigits clause ∧ numeral 8 clause ≤ 0o777
  sets_permissions : ∀ clause ∈ clauses rule, startsWithDigit clause = true → ∀ pc,
    (addRuleToPermchain clause pc).1 = 0 → ∀ mode,
      permchainApply (addRuleToPermchain clause pc).2 mode =
        (permchainApply pc mode).map fun mode =>
          (mode &&& ~~~0o777#32) ||| BitVec.ofNat 32 (numeral 8 clause)
  stray_character_fails : ∀ clause ∈ clauses rule, startsWithDigit clause = true →
    ¬ OctalDigits clause → ∀ pc, addChmodRulesToPermchain rule pc = (-1, pc)

theorem octalFront_of_digits {clause : CString} (digits : OctalDigits clause) :
    octalFront clause = clause :=
  List.takeWhile_eq_self_iff.mpr digits

/-- A refused clause fails the whole call. -/
theorem addChmodRules_of_refused {rule clause : CString} (member : clause ∈ clauses rule)
    (refused : (addRuleToPermchain clause []).1 ≠ 0) (pc : PermNodes) :
    addChmodRulesToPermchain rule pc = (-1, pc) := by
  unfold addChmodRulesToPermchain
  cases ran : rulesLoop [permchainCreate] rule with
  | none => rfl
  | some newpc =>
    obtain ⟨nodes, all, -⟩ := (rulesLoop_iff _ rule newpc).mp ran
    exact absurd ((exists_nodes_iff _).mp ⟨nodes, all⟩ clause member).2 refused

/-- A numeric clause is accepted exactly when the octal number at its front is within 0777. -/
theorem accepted_of_digit_iff {clause : CString} (digit : startsWithDigit clause = true)
    (pc : PermNodes) :
    (addRuleToPermchain clause pc).1 = 0 ↔ numeral 8 (octalFront clause) ≤ 0o777 := by
  rw [addRule_of_digit digit]
  by_cases inside : numeral 8 (octalFront clause) ≤ 0o777
  · simp [inside]
  · simp [inside]

/-- Numeric clauses are read in full exactly when each of them has only octal digits or is
refused anyway for the octal number in front of the stray character. -/
theorem octal_clauses_read_in_full_iff (rule : CString) :
    OctalClausesReadInFull rule ↔
      ∀ clause ∈ clauses rule, startsWithDigit clause = true →
        OctalDigits clause ∨ 0o777 < numeral 8 (octalFront clause) := by
  constructor
  · intro inFull clause member digit
    have judged := inFull.accepted_iff clause member digit []
    rw [accepted_of_digit_iff digit] at judged
    by_cases inside : numeral 8 (octalFront clause) ≤ 0o777
    · exact .inl (judged.mp inside).1
    · exact .inr (by omega)
  · intro clean
    refine ⟨?_, ?_, ?_⟩
    · intro clause member digit pc
      rw [accepted_of_digit_iff digit]
      rcases clean clause member digit with digits | outside
      · rw [octalFront_of_digits digits]
        exact ⟨fun inside => ⟨digits, inside⟩, fun both => both.2⟩
      · constructor
        · intro inside
          omega
        · rintro ⟨digits, inside⟩
          rw [octalFront_of_digits digits] at outside
          omega
    · intro clause member digit pc accepted mode
      have inside := (accepted_of_digit_iff digit pc).mp accepted
      rcases clean clause member digit with digits | outside
      · rw [octalFront_of_digits digits] at inside
        rw [addRule_of_digit digit, octalFront_of_digits digits, if_pos inside]
        exact permchainApply_octal pc _ mode
      · omega
    · intro clause member digit stray pc
      rcases clean clause member digit with digits | outside
      · exact absurd digits stray
      · apply addChmodRules_of_refused member
        rw [ne_eq, accepted_of_digit_iff digit]
        omega

/-- `8` is accepted as 0000 and `0755x` as 0755. -/
theorem octal_clauses_not_read_in_full :
    ¬ OctalClausesReadInFull ['8'] ∧ ¬ OctalClausesReadInFull ['0', '7', '5', '5', 'x'] := by
  constructor
  · intro inFull
    exact absurd ((inFull.accepted_iff ['8'] (by decide +kernel) (by decide) []).mp (by decide +kernel)).1
      (by decide)
  · intro inFull
    exact absurd ((inFull.accepted_iff ['0', '7', '5', '5', 'x'] (by decide +kernel) (by decide) []).mp
      (by decide +kernel)).1 (by decide)

/-! ## Symbolic clauses -/

/-- A clause is accepted exactly when it is one of the grammar, and what is accepted has an
operator for the interpreter to perform. -/
structure AcceptedByGrammar (clause : CString) : Prop where
  accepted_iff : ∀ pc, (addChmodRuleToPermchain clause pc).1 = 0 ↔ SymbolicClause clause
  has_operator : ∀ pc node,
    addChmodRuleToPermchain clause pc = (0, pc ++ [node]) → node.op ≠ .inert

/-- The parser follows the grammar on exactly the clauses with a character other than the
class and type letters; a clause of these letters alone is accepted and does nothing. -/
theorem symbolic_clause_accepted_by_grammar_iff (clause : CString) :
    AcceptedByGrammar clause ↔ ∃ c ∈ clause, c ∉ leftLetters := by
  have unfinished : (¬ ∃ c ∈ clause, c ∉ leftLetters) ↔ ∀ c ∈ clause, c ∈ leftLetters := by
    push Not
    rfl
  rcases scanRule_lhs_cases clause true { permchainCreate with flags := ⟨false, false⟩ } with
    ⟨all, mask, flags, scanned⟩ | ⟨symbolic, out, scanned, active⟩ | ⟨some_other, notSymbolic, scanned⟩
  · refine iff_of_false ?_ (unfinished.mpr all)
    intro byGrammar
    have accepted : (addChmodRuleToPermchain clause []).1 = 0 := by
      simp only [addChmodRuleToPermchain, scanned]
    exact ((byGrammar.accepted_iff []).mp accepted).not_all_left all
  · refine iff_of_true ⟨?_, ?_⟩ (not_not.mp (mt unfinished.mp symbolic.not_all_left))
    · intro pc
      simp only [addChmodRuleToPermchain, scanned, symbolic]
    · intro pc node added
      simp only [addChmodRuleToPermchain, scanned, permchainCat, Prod.mk.injEq, true_and,
        List.append_cancel_left_eq, List.cons.injEq, and_true] at added
      rw [← added, defaultFlags_op]
      exact active
  · refine iff_of_true ⟨?_, ?_⟩ (not_not.mp (mt unfinished.mp some_other))
    · intro pc
      simp [addChmodRuleToPermchain, scanned, notSymbolic]
    · intro pc node added
      simp [addChmodRuleToPermchain, scanned] at added

/-- `u` has no operator and is accepted; the interpreter passes over its node. -/
theorem symbolic_clause_without_operator_accepted : ¬ AcceptedByGrammar ['u'] := by
  intro byGrammar
  obtain ⟨left, op, right, same, -, operator, -⟩ := (byGrammar.accepted_iff []).mp (by decide +kernel)
  have member : op ∈ ['u'] := by
    rw [same]
    simp
  rw [List.mem_singleton.mp member] at operator
  exact absurd operator (by decide)

/-! ## Clauses that name no class -/

def classLetters : List Char := ['u', 'g', 'o', 'a']

/-- The clause does to every mode what it does with 'a' put in front, behind any parsed
chain. -/
def SameWithAll (clause : CString) : Prop :=
  ∀ (pc : Permchain) (mode : Mode),
    permchainApply (addChmodRuleToPermchain clause pc.nodes).2 mode =
      permchainApply (addChmodRuleToPermchain ('a' :: clause) pc.nodes).2 mode

/-- An operand that selects no bit on the files a left side lets through. -/
def Ineffective (left : CString) (c : Char) : Prop :=
  c = 's' ∨ c = 't' ∨ c = 'D' ∧ 'd' ∉ left

instance (left : CString) (c : Char) : Decidable (Ineffective left c) :=
  inferInstanceAs (Decidable (_ ∨ _))

/-- No operator to perform, the operator in first position, or an operator that has nothing
to add or to remove. -/
def NeedsNoClass (clause : CString) : Prop :=
  afterLeft clause = [] ∨ leftSide clause = [] ∨
    (afterLeft clause).head? ≠ some '=' ∧
      ∀ c ∈ (afterLeft clause).tail, Ineffective (leftSide clause) c

instance (clause : CString) : Decidable (NeedsNoClass clause) :=
  inferInstanceAs (Decidable (_ ∨ _ ∨ _))

/-- A rule leaves a word alone when each bit it assigns is there already. -/
theorem nodeWrite_idle_iff (m word : Mode) {rule : PermNode} (wf : rule.WellFormed) :
    (nodeWrite m rule).apply word = word ↔
      ∀ i, i < 9 → ∀ b, assigns m i rule = some b → word.getLsbD i = b := by
  constructor
  · intro idle i low b assigned
    have bit := Lib.MaskedWrites.Write.getLsbD_apply (nodeWrite m rule) word i
    rw [idle, nodeWrite_at m wf low, assigned] at bit
    exact bit
  · intro there
    apply BitVec.eq_of_getLsbD_eq
    intro i _
    rw [Lib.MaskedWrites.Write.getLsbD_apply]
    by_cases low : i < 9
    · rw [nodeWrite_at m wf low]
      cases assigned : assigns m i rule with
      | none => rfl
      | some b => exact (there i low b assigned).symm
    · have uncovered := (nodeWrite_mask_within m wf).high_bit (Nat.not_lt.mp low)
      simp [Lib.MaskedWrites.Write.at?, uncovered]

theorem symbolicNode_mask (left : CString) (op : PermOp) (mask : Mode) (right : CString) :
    (symbolicNode left op mask right).mask = mask := by
  unfold symbolicNode defaultFlags
  split <;> rfl

theorem symbolicNode_mode (left : CString) (op : PermOp) (mask : Mode) (right : CString) :
    (symbolicNode left op mask right).mode = .asOperands (keptOperands [] right) := by
  unfold symbolicNode defaultFlags
  split <;> rfl

theorem symbolicNode_op (left : CString) (op : PermOp) (mask : Mode) (right : CString) :
    (symbolicNode left op mask right).op = op := by
  rw [symbolicNode, defaultFlags_op]

theorem any_keptOperands (right : CString) (p : Char → Bool) :
    (keptOperands [] right).any p = right.any p := by
  rw [Bool.eq_iff_iff, List.any_eq_true, List.any_eq_true]
  simp only [mem_keptOperands, List.not_mem_nil, false_or]

/-- A mask of no class assigns nothing. -/
theorem assigns_of_no_class (m : Mode) (i : Nat) (left : CString) (op : PermOp) (right : CString) :
    assigns m i (symbolicNode left op 0#32 right) = none := by
  unfold assigns
  rw [symbolicNode_mask, symbolicNode_mode, symbolicNode_op]
  cases op <;> simp

/-- What the rule for all classes assigns to a permission bit. -/
theorem assigns_of_all_classes (m : Mode) {i : Nat} (low : i < 9) (left : CString) (op : PermOp)
    (right : CString) :
    assigns m i (symbolicNode left op 0o777#32 right) =
      if appliesTo m (symbolicNode left op 0o777#32 right) then
        match op with
        | .assign => some (right.any (selects m i))
        | .add => if right.any (selects m i) then some true else none
        | .remove => if right.any (selects m i) then some false else none
        | _ => none
      else none := by
  have covered : (0o777#32).getLsbD i = true := by
    revert i
    decide
  unfold assigns
  rw [symbolicNode_mask, symbolicNode_mode, symbolicNode_op]
  cases op <;> simp only [covered, Bool.true_and, if_true, any_keptOperands]

/-- The d and f letters restrict a rule as the man page says. -/
theorem appliesTo_symbolicNode {left : CString} (only : ∀ c ∈ left, c = 'd' ∨ c = 'f')
    (nonempty : left ≠ []) (m : Mode) (op : PermOp) (mask : Mode) (right : CString) :
    appliesTo m (symbolicNode left op mask right) =
      if S_ISDIR m then decide ('d' ∈ left) else decide ('f' ∈ left) := by
  have named : typeFlags left ⟨false, false⟩ ≠ ⟨false, false⟩ := by
    obtain ⟨c, rest, rfl⟩ := List.exists_cons_of_ne_nil nonempty
    rcases only c (by simp) with rfl | rfl
    · simp [typeFlags]
    · simp [typeFlags]
  simp only [appliesTo, symbolicNode, defaultFlags, named, if_false]
  simp only [typeFlags, Bool.false_or]

/-- Operands select alike in all three classes. -/
theorem selects_add_six (m : Mode) (i : Nat) (c : Char) : selects m (i + 6) c = selects m i c := by
  have same : (i + 6) % 3 = i % 3 := by omega
  simp only [selects, same]

/-- A file that the left side lets through and whose classes have different permissions:
`--x-w-r--`. -/
def tellingMode (left : CString) : Mode :=
  (if 'd' ∈ left then S_IFDIR else S_IFREG) ||| 0o124#32

/-- Each effective operand selects there a bit that is set and one that is not. -/
theorem selects_tellingMode {left : CString} {c : Char} (letter : c ∈ operandLetters)
    (effective : ¬ Ineffective left c) (b : Bool) :
    ∃ i, i < 9 ∧ selects (tellingMode left) i c = true ∧ (tellingMode left).getLsbD i = b := by
  have inDirectory : ∀ c ∈ operandLetters, c ≠ 's' → c ≠ 't' → ∀ b, ∃ i, i < 9 ∧
      selects (S_IFDIR ||| 0o124#32) i c = true ∧ (S_IFDIR ||| 0o124#32).getLsbD i = b := by
    decide +kernel
  have inFile : ∀ c ∈ operandLetters, c ≠ 's' → c ≠ 't' → c ≠ 'D' → ∀ b, ∃ i, i < 9 ∧
      selects (S_IFREG ||| 0o124#32) i c = true ∧ (S_IFREG ||| 0o124#32).getLsbD i = b := by
    decide +kernel
  simp only [Ineffective, not_or, not_and, not_not] at effective
  obtain ⟨notS, notT, dirOnly⟩ := effective
  unfold tellingMode
  by_cases directory : 'd' ∈ left
  · rw [if_pos directory]
    exact inDirectory c letter notS notT b
  · rw [if_neg directory]
    exact inFile c letter notS notT (fun isD => directory (dirOnly isD)) b

theorem appliesTo_tellingMode {left : CString} (only : ∀ c ∈ left, c = 'd' ∨ c = 'f')
    (nonempty : left ≠ []) (op : PermOp) (mask : Mode) (right : CString) :
    appliesTo (tellingMode left) (symbolicNode left op mask right) = true := by
  rw [appliesTo_symbolicNode only nonempty]
  by_cases directory : 'd' ∈ left
  · have isDirectory : S_ISDIR (tellingMode left) = true := by
      rw [tellingMode, if_pos directory]
      decide
    simp [isDirectory, directory]
  · have isFile : S_ISDIR (tellingMode left) = false := by
      rw [tellingMode, if_neg directory]
      decide
    obtain ⟨c, rest, rfl⟩ := List.exists_cons_of_ne_nil nonempty
    rcases only c (by simp) with rfl | rfl
    · exact absurd List.mem_cons_self directory
    · simp [isFile]

/-- On a file the left side lets through, ineffective operands select nothing. -/
theorem selects_of_ineffective {left : CString} {m : Mode} {c : Char}
    (applies : S_ISDIR m = true → 'd' ∈ left) (ineffective : Ineffective left c) (i : Nat) :
    selects m i c = false := by
  rcases ineffective with rfl | rfl | ⟨rfl, notDirectories⟩
  · rfl
  · rfl
  · have isFile : S_ISDIR m = false := Bool.eq_false_iff.mpr fun dir => notDirectories (applies dir)
    simp [selects, isFile]

section
variable {left right : CString} {op : PermOp} (only : ∀ c ∈ left, c = 'd' ∨ c = 'f')
  (nonempty : left ≠ [])

/-- The telling mode has every bit already that the rule for all classes assigns to it. -/
def TellsNothing (left : CString) (op : PermOp) (right : CString) : Prop :=
  ∀ i, i < 9 → ∀ b, assigns (tellingMode left) i (symbolicNode left op 0o777#32 right) = some b →
    (tellingMode left).getLsbD i = b

include only nonempty

/-- An assignment would give the owner and the others the same read permission. -/
theorem TellsNothing.ne_assign (idle : TellsNothing left op right) : op ≠ .assign := by
  rintro rfl
  have assigned : ∀ i, i < 9 → assigns (tellingMode left) i
      (symbolicNode left .assign 0o777#32 right) = some (right.any (selects (tellingMode left) i)) := by
    intro i low
    rw [assigns_of_all_classes _ low, appliesTo_tellingMode only nonempty, if_pos rfl]
  have others := idle 2 (by decide) _ (assigned 2 (by decide))
  have owner := idle 8 (by decide) _ (assigned 8 (by decide))
  have alike : selects (tellingMode left) 8 = selects (tellingMode left) 2 :=
    funext fun c => selects_add_six (tellingMode left) 2 c
  rw [alike, ← others] at owner
  revert owner
  unfold tellingMode
  split <;> decide

/-- An effective operand would add a bit that is missing or remove one that is there. -/
theorem TellsNothing.ineffective (idle : TellsNothing left op right)
    (performs : op = .add ∨ op = .remove) {c : Char} (member : c ∈ right)
    (letter : c ∈ operandLetters) : Ineffective left c := by
  by_contra effective
  have chosen : ∀ b, ∃ i, i < 9 ∧ right.any (selects (tellingMode left) i) = true ∧
      (tellingMode left).getLsbD i = b := by
    intro b
    obtain ⟨i, low, selected, bit⟩ := selects_tellingMode letter effective b
    exact ⟨i, low, List.any_eq_true.mpr ⟨c, member, selected⟩, bit⟩
  rcases performs with rfl | rfl
  · obtain ⟨i, low, selected, clear⟩ := chosen false
    have set := idle i low true (by
      rw [assigns_of_all_classes _ low, appliesTo_tellingMode only nonempty, if_pos rfl, selected]
      rfl)
    exact absurd (clear.symm.trans set) (by decide)
  · obtain ⟨i, low, selected, set⟩ := chosen true
    have clear := idle i low false (by
      rw [assigns_of_all_classes _ low, appliesTo_tellingMode only nonempty, if_pos rfl, selected]
      rfl)
    exact absurd (set.symm.trans clear) (by decide)

theorem assigns_of_ineffective (performs : op = .add ∨ op = .remove)
    (ineffective : ∀ c ∈ right, Ineffective left c) (m : Mode) {i : Nat} (low : i < 9) :
    assigns m i (symbolicNode left op 0o777#32 right) = none := by
  rw [assigns_of_all_classes _ low]
  split
  · rename_i applies
    rw [appliesTo_symbolicNode only nonempty] at applies
    have nothing : right.any (selects m i) = false := by
      rw [List.any_eq_false]
      intro c member
      rw [selects_of_ineffective (fun dir => by simpa [dir] using applies) (ineffective c member)]
      decide
    rcases performs with rfl | rfl
    · simp only [nothing, Bool.false_eq_true, if_false]
    · simp only [nothing, Bool.false_eq_true, if_false]
  · rfl

/-- The rule for all classes changes nothing anywhere exactly when it is not an assignment
and has only ineffective operands. -/
theorem all_classes_idle_iff (symbolic : op = .assign ∨ op = .add ∨ op = .remove)
    (operands : ∀ c ∈ right, c ∈ operandLetters)
    (wf : (symbolicNode left op 0o777#32 right).WellFormed) :
    (∀ (pc : Permchain) mode, (nodeWrite mode (symbolicNode left op 0o777#32 right)).apply
        (pc.apply mode) = pc.apply mode) ↔
      op ≠ .assign ∧ ∀ c ∈ right, Ineffective left c := by
  simp only [nodeWrite_idle_iff _ _ wf]
  constructor
  · intro idle
    -- the empty chain leaves the telling mode as it is
    have tellsNothing : TellsNothing left op right := idle ⟨[], by simp⟩ (tellingMode left)
    have notAssign := tellsNothing.ne_assign only nonempty
    refine ⟨notAssign, fun c member => ?_⟩
    exact tellsNothing.ineffective only nonempty (symbolic.resolve_left notAssign) member
      (operands c member)
  · rintro ⟨notAssign, ineffective⟩ pc mode i low b assigned
    rw [assigns_of_ineffective only nonempty (symbolic.resolve_left notAssign) ineffective mode low]
      at assigned
    cases assigned

end

theorem types_of_no_class {left : CString} (letters : ∀ c ∈ left, c ∈ leftLetters)
    (noClass : ∀ c ∈ left, c ∉ classLetters) : ∀ c ∈ left, c = 'd' ∨ c = 'f' := by
  have remaining : ∀ c ∈ leftLetters, c ∉ classLetters → c = 'd' ∨ c = 'f' := by decide
  exact fun c member => remaining c (letters c member) (noClass c member)

theorem operatorOf_cases {c : Char} (operator : c ∈ operators) :
    ∃ op, operatorOf c = some op ∧ (op = .assign ∨ op = .add ∨ op = .remove) ∧
      (op = .assign ↔ c = '=') := by
  simp only [operators, List.mem_cons, List.not_mem_nil, or_false] at operator
  rcases operator with rfl | rfl | rfl
  · exact ⟨.assign, by decide⟩
  · exact ⟨.add, by decide⟩
  · exact ⟨.remove, by decide⟩

/-- A clause whose left side has no class letter applies to all classes exactly when it has
no operator, starts with its operator, or neither assigns nor has an effective operand. -/
theorem no_class_means_all_iff (clause : CString)
    (accepted : (addChmodRuleToPermchain clause []).1 = 0)
    (noClass : ∀ c ∈ leftSide clause, c ∉ classLetters) :
    SameWithAll clause ↔ NeedsNoClass clause := by
  obtain ⟨letters, parts⟩ := accepted_parts accepted
  have only := types_of_no_class letters noClass
  have whole := leftSide_append_afterLeft clause
  unfold SameWithAll NeedsNoClass
  rcases parts with noOperator | ⟨c, right, split, operator, operands⟩
  · rw [noOperator, List.append_nil] at whole
    rw [whole] at only
    refine iff_of_true ?_ (.inl noOperator)
    intro pc mode
    obtain ⟨node, all, inert, inert', added, added'⟩ := addChmodRule_types only pc.nodes
    rw [added, added', permchainApply_inert pc.nodes inert, permchainApply_inert pc.nodes inert']
  · obtain ⟨op, found, symbolic, assignIff⟩ := operatorOf_cases operator
    rw [split] at whole
    rw [split, List.head?_cons, List.tail_cons]
    generalize leftSide clause = left at only whole
    subst whole
    have wf := wellFormed_of_chmodRule (addChmodRule_all only found operands [])
    simp only [addChmodRule_classless only found operands, addChmodRule_all only found operands,
      Permchain.apply_snoc _ wf]
    by_cases first : left = []
    · simp only [first, if_true, true_or, or_true, iff_true]
      subst first
      intro pc mode
      exact pc.apply_snoc wf mode
    · have bare := wellFormed_of_chmodRule (addChmodRule_classless only found operands [])
      rw [if_neg first] at bare
      have idle : ∀ (pc : Permchain) mode,
          (nodeWrite mode (symbolicNode left op 0#32 right)).apply (pc.apply mode) = pc.apply mode := by
        intro pc mode
        rw [nodeWrite_idle_iff _ _ bare]
        intro i low b assigned
        rw [assigns_of_no_class] at assigned
        cases assigned
      simp only [if_neg first, Permchain.apply_snoc _ bare, idle, Option.some.injEq]
      simp only [first, false_or, reduceCtorEq, ne_eq, Option.some.injEq]
      rw [← assignIff, ← all_classes_idle_iff only first symbolic operands wf]
      exact forall_congr' fun pc => forall_congr' fun mode => eq_comm

/-- `f+D` has no class letter and nothing to add on the files it is for. -/
theorem no_class_means_all_of_fD :
    (addChmodRuleToPermchain ['f', '+', 'D'] []).1 = 0 ∧
      (∀ c ∈ leftSide ['f', '+', 'D'], c ∉ classLetters) ∧ SameWithAll ['f', '+', 'D'] :=
  ⟨by decide +kernel, by decide,
    (no_class_means_all_iff ['f', '+', 'D'] (by decide +kernel) (by decide)).mpr (by decide)⟩

/-- `d+x` is accepted, names no class and leaves a directory 0700 as it is; `ad+x` makes it
0711. -/
theorem no_class_does_not_mean_all :
    (addChmodRuleToPermchain ['d', '+', 'x'] []).1 = 0 ∧
      (∀ c ∈ leftSide ['d', '+', 'x'], c ∉ classLetters) ∧ ¬ SameWithAll ['d', '+', 'x'] := by
  refine ⟨by decide +kernel, by decide, fun same => ?_⟩
  exact absurd (same ⟨[], by simp⟩ (S_IFDIR ||| 0o700#32)) (by decide +kernel)

end Bindfs.Guarantees.PermissionClauses
