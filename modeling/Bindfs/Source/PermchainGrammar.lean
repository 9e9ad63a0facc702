import Bindfs.Source.PermchainInvariant

/-!
# The language of permission clauses

What the two rule parsers do with a clause, for every clause. The scanner of
`add_chmod_rule_to_permchain` is a two-state machine: it stays in `LHS` over the class and
type letters, moves to `RHS` at the first operator and stays there over the operand
letters (`scanRule_lhs_cases`). The octal parser sees the number at the front of its
clause and nothing behind it (`addRule_of_digit`).
-/
namespace Bindfs.Source

/-! ## Symbolic clauses -/

def leftLetters : List Char := ['u', 'g', 'o', 'a', 'f', 'd']

def operators : List Char := ['=', '+', '-']

/-- The grammar of the man page: who, one operator, what. -/
def SymbolicClause (clause : CString) : Prop :=
  ∃ left op right, clause = left ++ op :: right ∧ (∀ c ∈ left, c ∈ leftLetters) ∧
    op ∈ operators ∧ ∀ c ∈ right, c ∈ operandLetters

theorem operatorOf_isSome_iff (c : Char) : (operatorOf c).isSome ↔ c ∈ operators := by
  unfold operatorOf
  split
  case h_4 notAssign notAdd notRemove => simpa [operators] using ⟨notAssign, notAdd, notRemove⟩
  all_goals decide

theorem not_operator_of_left {c : Char} (letter : c ∈ leftLetters) : c ∉ operators := by
  revert c
  decide

theorem operatorOf_ne_inert {c : Char} {op : PermOp} (found : operatorOf c = some op) :
    op ≠ .inert := by
  unfold operatorOf at found
  split at found <;> simp only [Option.some.injEq, reduceCtorEq] at found <;>
    rw [← found] <;> decide

/-- The scanner stays on the left side over its letters and only fills mask and flags. -/
theorem scanChar_left {c : Char} (letter : c ∈ leftLetters) (atStart : Bool) (node : PermNode) :
    ∃ mask flags, scanChar atStart .lhs node c =
      some (.lhs, { node with mask := mask, flags := flags }) := by
  simp only [leftLetters, List.mem_cons, List.not_mem_nil, or_false] at letter
  rcases letter with rfl | rfl | rfl | rfl | rfl | rfl <;> exact ⟨_, _, rfl⟩

theorem scanChar_not_left {c : Char} (other : c ∉ leftLetters) (atStart : Bool)
    (node : PermNode) :
    scanChar atStart .lhs node c = (operatorOf c).map fun op =>
      (.rhs, { node with op := op, mask := if atStart then 0o777#32 else node.mask }) := by
  simp only [leftLetters, List.mem_cons, List.not_mem_nil, or_false, not_or] at other
  obtain ⟨notU, notG, notO, notA, notF, notD⟩ := other
  simp only [scanChar]

/-- On the right side every operand letter is kept once, and any other character is the
end of the clause's acceptance. -/
theorem scanRule_rhs (atStart : Bool) (node : PermNode) (right : CString) :
    scanRule atStart .rhs node right =
      if ∀ c ∈ right, c ∈ operandLetters then some (right.foldl addOperand node) else none := by
  induction right generalizing atStart node with
  | nil => simp [scanRule]
  | cons c rest ih =>
    simp only [scanRule, scanChar, List.forall_mem_cons, List.foldl_cons]
    by_cases letter : c ∈ operandLetters
    · simp only [letter, if_true, true_and]
      exact ih false (addOperand node c)
    · simp only [letter, if_false, false_and]

@[simp] theorem addOperand_op (node : PermNode) (c : Char) : (addOperand node c).op = node.op := by
  unfold addOperand
  split
  · split <;> rfl
  · rfl

theorem foldl_addOperand_op (right : CString) (node : PermNode) :
    (right.foldl addOperand node).op = node.op := by
  induction right generalizing node with
  | nil => rfl
  | cons c rest ih => rw [List.foldl_cons, ih, addOperand_op]

theorem defaultFlags_op (node : PermNode) : (defaultFlags node).op = node.op := by
  unfold defaultFlags
  split <;> rfl

/-! A clause of the grammar, one character at a time. -/

theorem symbolicClause_left {c : Char} (letter : c ∈ leftLetters) (rest : CString) :
    SymbolicClause (c :: rest) ↔ SymbolicClause rest := by
  constructor
  · rintro ⟨left, op, right, same, letters, operator, operands⟩
    cases left with
    | nil =>
      obtain ⟨rfl, -⟩ := List.cons.inj same
      exact absurd operator (not_operator_of_left letter)
    | cons d left =>
      obtain ⟨rfl, rfl⟩ := List.cons.inj same
      exact ⟨left, op, right, rfl, (List.forall_mem_cons.mp letters).2, operator, operands⟩
  · rintro ⟨left, op, right, rfl, letters, operator, operands⟩
    exact ⟨c :: left, op, right, rfl, List.forall_mem_cons.mpr ⟨letter, letters⟩, operator, operands⟩

theorem symbolicClause_not_left {c : Char} (other : c ∉ leftLetters) (rest : CString) :
    SymbolicClause (c :: rest) ↔ c ∈ operators ∧ ∀ d ∈ rest, d ∈ operandLetters := by
  constructor
  · rintro ⟨left, op, right, same, letters, operator, operands⟩
    cases left with
    | nil =>
      obtain ⟨rfl, rfl⟩ := List.cons.inj same
      exact ⟨operator, operands⟩
    | cons d left =>
      obtain ⟨rfl, -⟩ := List.cons.inj same
      exact absurd (letters c (by simp)) other
  · rintro ⟨operator, operands⟩
    exact ⟨[], c, rest, rfl, by simp, operator, operands⟩

/-- A clause of the grammar is not made of left-hand letters only: it has its operator. -/
theorem SymbolicClause.not_all_left {clause : CString} (symbolic : SymbolicClause clause) :
    ¬ ∀ c ∈ clause, c ∈ leftLetters := by
  obtain ⟨left, op, right, rfl, -, operator, -⟩ := symbolic
  intro all
  exact not_operator_of_left (all op (by simp)) operator

/-- How the scan of a clause ends: still on the left side, with `op` untouched, behind a
clause of the grammar, or with an error. -/
theorem scanRule_lhs_cases (clause : CString) (atStart : Bool) (node : PermNode) :
    (∀ c ∈ clause, c ∈ leftLetters) ∧ (∃ mask flags,
        scanRule atStart .lhs node clause = some { node with mask := mask, flags := flags }) ∨
      SymbolicClause clause ∧ (∃ out,
        scanRule atStart .lhs node clause = some out ∧ out.op ≠ .inert) ∨
      (¬ ∀ c ∈ clause, c ∈ leftLetters) ∧ ¬ SymbolicClause clause ∧
        scanRule atStart .lhs node clause = none := by
  induction clause generalizing atStart node with
  | nil => exact .inl ⟨by simp, node.mask, node.flags, rfl⟩
  | cons c rest ih =>
    by_cases letter : c ∈ leftLetters
    · obtain ⟨mask, flags, step⟩ := scanChar_left letter atStart node
      simp only [scanRule, step, symbolicClause_left letter, List.forall_mem_cons, letter, true_and]
      exact ih false { node with mask := mask, flags := flags }
    · have notAll : ¬ ∀ d ∈ c :: rest, d ∈ leftLetters := fun all => letter (all c (by simp))
      simp only [scanRule, scanChar_not_left letter, symbolicClause_not_left letter]
      cases found : operatorOf c with
      | none =>
        have notOperator : c ∉ operators := fun member => by
          simpa [found] using (operatorOf_isSome_iff c).mpr member
        exact .inr (.inr ⟨notAll, fun symbolic => notOperator symbolic.1, rfl⟩)
      | some op =>
        have operator : c ∈ operators := (operatorOf_isSome_iff c).mp (by simp [found])
        simp only [Option.map_some, scanRule_rhs, operator, true_and]
        by_cases operands : ∀ d ∈ rest, d ∈ operandLetters
        · refine .inr (.inl ⟨operands, _, if_pos operands, ?_⟩)
          rw [foldl_addOperand_op]
          exact operatorOf_ne_inert found
        · exact .inr (.inr ⟨notAll, operands, if_neg operands⟩)

/-! ## The parts of a symbolic clause -/

def leftSide (clause : CString) : CString := clause.takeWhile (· ∉ operators)

/-- The operator and what stands behind it; empty when there is no operator. -/
def afterLeft (clause : CString) : CString := clause.dropWhile (· ∉ operators)

theorem leftSide_append_afterLeft (clause : CString) :
    leftSide clause ++ afterLeft clause = clause :=
  List.takeWhile_append_dropWhile

theorem leftSide_split {left : CString} {op : Char} (right : CString)
    (letters : ∀ c ∈ left, c ∈ leftLetters) (operator : op ∈ operators) :
    leftSide (left ++ op :: right) = left ∧ afterLeft (left ++ op :: right) = op :: right := by
  have quiet : ∀ c ∈ left, decide (c ∉ operators) = true := fun c member =>
    decide_eq_true (not_operator_of_left (letters c member))
  have stop : decide (op ∉ operators) = false := decide_eq_false (not_not.mpr operator)
  constructor
  · rw [leftSide, List.takeWhile_append_of_pos quiet, List.takeWhile_cons, stop]
    simp
  · rw [afterLeft, List.dropWhile_append_of_pos quiet, List.dropWhile_cons, stop]
    simp

theorem addChmodRule_of_scan {clause : CString} {node : PermNode}
    (scanned : scanRule true .lhs { permchainCreate with flags := ⟨false, false⟩ } clause = some node)
    (pc : PermNodes) : addChmodRuleToPermchain clause pc = (0, pc ++ [defaultFlags node]) := by
  simp only [addChmodRuleToPermchain, scanned, permchainCat]

/-- An accepted clause ends on its left side or splits at its operator. -/
theorem accepted_parts {clause : CString} {pc : PermNodes}
    (accepted : (addChmodRuleToPermchain clause pc).1 = 0) :
    (∀ c ∈ leftSide clause, c ∈ leftLetters) ∧
      (afterLeft clause = [] ∨ ∃ op right, afterLeft clause = op :: right ∧ op ∈ operators ∧
        ∀ c ∈ right, c ∈ operandLetters) := by
  rcases scanRule_lhs_cases clause true { permchainCreate with flags := ⟨false, false⟩ } with
    ⟨all, -⟩ | ⟨⟨left, op, right, rfl, letters, operator, operands⟩, -⟩ | ⟨-, -, failed⟩
  · have quiet : ∀ c ∈ clause, decide (c ∉ operators) = true := fun c member =>
      decide_eq_true (not_operator_of_left (all c member))
    refine ⟨fun c member => all c ((List.takeWhile_sublist _).subset member), .inl ?_⟩
    exact List.dropWhile_eq_nil_iff.mpr quiet
  · obtain ⟨same_left, same_rest⟩ := leftSide_split right letters operator
    rw [same_left, same_rest]
    exact ⟨letters, .inr ⟨op, right, rfl, operator, operands⟩⟩
  · simp [addChmodRuleToPermchain, failed] at accepted

/-- The flags after the d and f letters of a left side. -/
def typeFlags (left : CString) (flags : PermFlags) : PermFlags :=
  ⟨flags.files || decide ('f' ∈ left), flags.dirs || decide ('d' ∈ left)⟩

/-- A run of d and f letters sets flags and nothing else. -/
theorem scanRule_types (left : CString) (only : ∀ c ∈ left, c = 'd' ∨ c = 'f') (atStart : Bool)
    (node : PermNode) (rest : CString) :
    scanRule atStart .lhs node (left ++ rest) =
      scanRule (atStart && left.isEmpty) .lhs
        { node with flags := typeFlags left node.flags } rest := by
  induction left generalizing atStart node with
  | nil => simp [typeFlags]
  | cons c left ih =>
    obtain ⟨here, later⟩ := List.forall_mem_cons.mp only
    rcases here with rfl | rfl <;>
    · simp only [List.cons_append, scanRule, scanChar]
      rw [ih later]
      simp [typeFlags]

/-- The letters kept of an operand list, each at its first place. -/
def keptOperands (operands right : CString) : CString :=
  right.foldl (fun operands c => if c ∈ operands then operands else operands ++ [c]) operands

theorem foldl_addOperand (right operands : CString) {node : PermNode}
    (symbolic : node.mode = .asOperands operands) :
    right.foldl addOperand node = { node with mode := .asOperands (keptOperands operands right) } := by
  induction right generalizing node operands with
  | nil => rw [List.foldl_nil, keptOperands, List.foldl_nil, ← symbolic]
  | cons c rest ih =>
    simp only [List.foldl_cons, keptOperands]
    by_cases known : c ∈ operands
    · have same : addOperand node c = node := by simp [addOperand, symbolic, known]
      rw [same, if_pos known]
      exact ih operands symbolic
    · have grown : addOperand node c = { node with mode := .asOperands (operands ++ [c]) } := by
        simp [addOperand, symbolic, known]
      rw [grown, if_neg known]
      exact ih (operands ++ [c]) rfl

theorem mem_keptOperands (right operands : CString) (c : Char) :
    c ∈ keptOperands operands right ↔ c ∈ operands ∨ c ∈ right := by
  induction right generalizing operands with
  | nil => simp [keptOperands]
  | cons d rest ih =>
    simp only [keptOperands, List.foldl_cons]
    by_cases known : d ∈ operands
    · rw [if_pos known]
      refine (ih operands).trans ?_
      rw [List.mem_cons]
      constructor
      · exact fun found => found.imp_right .inr
      · rintro (old | rfl | later)
        · exact .inl old
        · exact .inl known
        · exact .inr later
    · rw [if_neg known]
      refine (ih (operands ++ [d])).trans ?_
      simp [or_assoc]

theorem scanRule_all (node : PermNode) (rest : CString) :
    scanRule true .lhs node ('a' :: rest) =
      scanRule false .lhs { node with mask := 0o777#32 } rest := rfl

/-- The node of the clause `left op right` whose left side only has type letters. -/
def symbolicNode (left : CString) (op : PermOp) (mask : Mode) (right : CString) : PermNode :=
  defaultFlags
    { op := op
      flags := typeFlags left ⟨false, false⟩
      mask := mask
      mode := .asOperands (keptOperands [] right) }

section
variable {left right : CString} {op : PermOp} {c : Char}
  (only : ∀ c ∈ left, c = 'd' ∨ c = 'f')
include only

theorem scanRule_classless (operator : operatorOf c = some op)
    (operands : ∀ c ∈ right, c ∈ operandLetters) (atStart : Bool) {node : PermNode}
    (fresh : node.mode = .asOperands []) :
    scanRule atStart .lhs node (left ++ c :: right) =
      some { node with
        op := op
        flags := typeFlags left node.flags
        mask := if atStart && left.isEmpty then 0o777#32 else node.mask
        mode := .asOperands (keptOperands [] right) } := by
  have other : c ∉ leftLetters := fun letter =>
    not_operator_of_left letter ((operatorOf_isSome_iff c).mp (by simp [operator]))
  rw [scanRule_types left only]
  simp only [scanRule, scanChar_not_left other, operator, Option.map_some, scanRule_rhs,
    if_pos operands]
  rw [foldl_addOperand right [] (by exact fresh)]

/-- Only an operator in first position makes the mask default to all classes. -/
theorem addChmodRule_classless (operator : operatorOf c = some op)
    (operands : ∀ c ∈ right, c ∈ operandLetters) (pc : PermNodes) :
    addChmodRuleToPermchain (left ++ c :: right) pc =
      (0, pc ++ [symbolicNode left op (if left = [] then 0o777#32 else 0#32) right]) := by
  rw [addChmodRule_of_scan (scanRule_classless only operator operands true rfl)]
  cases left <;> rfl

theorem addChmodRule_all (operator : operatorOf c = some op)
    (operands : ∀ c ∈ right, c ∈ operandLetters) (pc : PermNodes) :
    addChmodRuleToPermchain ('a' :: (left ++ c :: right)) pc =
      (0, pc ++ [symbolicNode left op 0o777#32 right]) := by
  rw [addChmodRule_of_scan
    ((scanRule_all _ _).trans (scanRule_classless only operator operands false rfl))]
  rfl

/-- Without an operator the node stays inert, with or without a class in front. -/
theorem addChmodRule_types (pc : PermNodes) :
    ∃ node all, node.op = .inert ∧ all.op = .inert ∧
      addChmodRuleToPermchain left pc = (0, pc ++ [node]) ∧
      addChmodRuleToPermchain ('a' :: left) pc = (0, pc ++ [all]) := by
  have scanned : ∀ atStart node, scanRule atStart .lhs node left =
      some { node with flags := typeFlags left node.flags } := by
    intro atStart node
    have types := scanRule_types left only atStart node []
    rwa [List.append_nil, scanRule] at types
  refine ⟨_, _, ?_, ?_, addChmodRule_of_scan (scanned true _) pc,
    addChmodRule_of_scan ((scanRule_all _ _).trans (scanned false _)) pc⟩
  · rw [defaultFlags_op]
    rfl
  · rw [defaultFlags_op]
    rfl

end

/-! ## Octal clauses -/

def startsWithDigit (clause : CString) : Bool := (clause.head?.map Char.isDigit).getD false

/-- The octal digits at the front of a clause, all that the conversion reads of it. -/
def octalFront (clause : CString) : CString := clause.takeWhile (isDigitIn 8)

/-- The node of an octal rule. -/
def octalNode (value : Mode) : PermNode :=
  { permchainCreate with mask := 0o777#32, op := .octal, mode := .asOctal value }

/-- A clause that starts with a digit is decided by the number at its front alone. -/
theorem addRule_of_digit {clause : CString} (digit : startsWithDigit clause = true)
    (pc : PermNodes) :
    addRuleToPermchain clause pc =
      if numeral 8 (octalFront clause) ≤ 0o777 then
        (0, pc ++ [octalNode (BitVec.ofNat 32 (numeral 8 (octalFront clause)))])
      else (-1, pc) := by
  have octal : addRuleToPermchain clause pc = addOctalRuleToPermchain clause pc := if_pos digit
  cases clause with
  | nil => exact absurd digit (by decide)
  | cons c rest =>
    rw [octal]
    unfold addOctalRuleToPermchain octalFront
    have value := strtol_of_digit 8 (c := c) digit rest
    generalize numeral 8 ((c :: rest).takeWhile (isDigitIn 8)) = number at value ⊢
    simp only [value, LONG_MAX]
    by_cases inside : number ≤ 0o777
    · have exact_value : min (2 ^ 63 - 1 : Int) number = number := by omega
      have accepted : ¬ ((number : Int) < 0 ∨ (number : Int) > 0o777) := by omega
      rw [exact_value, if_neg accepted, if_pos inside, BitVec.ofInt_natCast]
      rfl
    · rw [if_neg inside, if_pos (by omega)]

/-- Running a longer chain is running its parts one after the other, with the operands of
both read off the same original mode. -/
theorem applyNodes_append (originalMode : Mode) (left right : PermNodes) (tgtmode : Mode) :
    applyNodes originalMode tgtmode (left ++ right) =
      (applyNodes originalMode tgtmode left).bind fun mode => applyNodes originalMode mode right := by
  induction left generalizing tgtmode with
  | nil => rfl
  | cons node rest ih =>
    simp only [List.cons_append, applyNodes]
    split
    · exact ih tgtmode
    · cases applyNode originalMode tgtmode node with
      | none => rfl
      | some mode => exact ih mode

/-- An octal rule at the end of a chain decides all nine permission bits. -/
theorem permchainApply_octal (pc : PermNodes) (value mode : Mode) :
    permchainApply (pc ++ [octalNode value]) mode =
      (permchainApply pc mode).map fun mode => (mode &&& ~~~0o777#32) ||| value := by
  unfold permchainApply
  rw [applyNodes_append]
  cases applyNodes mode mode pc with
  | none => rfl
  | some mode =>
    simp [applyNodes, skipsNode, applyNode, octalNode, permchainCreate, PC_FLAGS_DEFAULT]

/-- A rule without an operator is passed over. -/
theorem permchainApply_inert (pc : PermNodes) {rule : PermNode} (inert : rule.op = .inert)
    (mode : Mode) : permchainApply (pc ++ [rule]) mode = permchainApply pc mode := by
  unfold permchainApply
  rw [applyNodes_append]
  cases applyNodes mode mode pc with
  | none => rfl
  | some out => simp [applyNodes, skipsNode, inert]

end Bindfs.Source
