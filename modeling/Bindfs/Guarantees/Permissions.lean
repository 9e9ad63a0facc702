import Mathlib.Tactic.IntervalCases
import Bindfs.Source.PermchainInvariant

/-!
# Permission specifications

Parsing: `add_chmod_rules_to_permchain` splits a rule string into its clauses, appends all
of their nodes or none (`add_chmod_rules_splits_and_is_atomic`).

Meaning: the interpreter mutates a running mode, but for parsed chains each permission bit
of the result is the value that the last applicable rule assigning the bit computes from
the original mode alone (`permission_specification_meaning`). The specification below
speaks of single bits and never of a running mode.
-/
namespace Bindfs.Guarantees.Permissions
open Bindfs.Source Bindfs.Lib.MaskedWrites

/-- The parser returns 0 exactly when no clause is empty and every clause is accepted on
its own; then the chain grows by one inert head node and one node per clause, in order.
Otherwise it returns -1 and the chain keeps its nodes, whatever preceded the bad clause. -/
theorem add_chmod_rules_splits_and_is_atomic (rule : CString) (pc : PermNodes) :
    ((addChmodRulesToPermchain rule pc).1 = 0 ↔
      ∀ clause ∈ clauses rule, clause ≠ [] ∧ (addRuleToPermchain clause []).1 = 0) ∧
    ((addChmodRulesToPermchain rule pc).1 = 0 →
      ∃ nodes, List.Forall₂ ClauseNode (clauses rule) nodes ∧
        (addChmodRulesToPermchain rule pc).2 = pc ++ permchainCreate :: nodes) ∧
    ((addChmodRulesToPermchain rule pc).1 ≠ 0 →
      addChmodRulesToPermchain rule pc = (-1, pc)) := by
  refine ⟨?_, ?_, ?_⟩
  · rw [← exists_nodes_iff]
    constructor
    · intro returned
      obtain ⟨nodes, all, -⟩ := (addChmodRules_iff rule pc _).mp (Prod.ext returned rfl)
      exact ⟨nodes, all⟩
    · rintro ⟨nodes, all⟩
      rw [(addChmodRules_iff rule pc _).mpr ⟨nodes, all, rfl⟩]
  · intro returned
    exact (addChmodRules_iff rule pc _).mp (Prod.ext returned rfl)
  · intro failed
    unfold addChmodRulesToPermchain at failed ⊢
    cases ran : rulesLoop [permchainCreate] rule with
    | none => rfl
    | some newpc => simp [ran] at failed

-- a trailing separator ends the last clause; a leading one leaves an empty clause
example : clauses ['7', ',', 'a', '+', 'X', ':'] = [['7'], ['a', '+', 'X']] := by decide +kernel
example : (addChmodRulesToPermchain [',', 'a', '+', 'X'] []).1 = -1 := by decide +kernel

/-! ## Meaning of a rule, one bit at a time

Bit `i` below nine is the execute, write or read bit (`i % 3` is 0, 1 or 2) of the class
others, group or user (`i / 3` is 0, 1 or 2).
-/

/-- Operand `c` selects bit `i` on a file of mode `m`. -/
def selects (m : Mode) (i : Nat) : Char → Bool
  | 'r' => i % 3 = 2
  | 'w' => i % 3 = 1
  | 'x' => i % 3 = 0
  | 'X' => i % 3 = 0 && (S_ISDIR m || m.getLsbD 0 || m.getLsbD 3 || m.getLsbD 6)
  | 'D' => i % 3 = 0 && S_ISDIR m
  | 'u' => m.getLsbD (6 + i % 3)
  | 'g' => m.getLsbD (3 + i % 3)
  | 'o' => m.getLsbD (i % 3)
  | _ => false

/-- The d and f letters restrict a rule to directories or to everything else. -/
def appliesTo (m : Mode) (rule : PermNode) : Bool :=
  if S_ISDIR m then rule.flags.dirs else rule.flags.files

/-- The value a rule assigns to bit `i` of a file of mode `m`, if it assigns the bit. -/
def assigns (m : Mode) (i : Nat) (rule : PermNode) : Option Bool :=
  if appliesTo m rule then
    match rule.op, rule.mode with
    | .assign, .asOperands operands =>
      if rule.mask.getLsbD i then some (operands.any (selects m i)) else none
    | .add, .asOperands operands =>
      if rule.mask.getLsbD i && operands.any (selects m i) then some true else none
    | .remove, .asOperands operands =>
      if rule.mask.getLsbD i && operands.any (selects m i) then some false else none
    | .octal, .asOctal value => some (value.getLsbD i)
    | _, _ => none
  else none

/-- The value assigned by the last rule that assigns bit `i`. -/
def lastAssigned (m : Mode) (i : Nat) (rules : PermNodes) : Option Bool :=
  rules.reverse.findSome? (assigns m i)

theorem execute_bits (m : Mode) :
    m &&& 0o111#32 ≠ 0#32 ↔ (m.getLsbD 0 || m.getLsbD 3 || m.getLsbD 6) = true := by
  constructor
  · intro nonzero
    by_contra none_set
    apply nonzero
    apply BitVec.eq_of_getLsbD_eq
    intro i bound
    interval_cases i <;> simp_all
  · intro some_set zero
    have at_bit : ∀ i, (m.getLsbD i && (0o111#32).getLsbD i) = false := by
      intro i
      rw [← BitVec.getLsbD_and, zero, BitVec.getLsbD_zero]
    have h0 := at_bit 0
    have h3 := at_bit 3
    have h6 := at_bit 6
    simp_all

/-- The class bits copied by u, g and o. -/
theorem modebitsToAll_bit (perms : Mode) (within : perms.toNat < 2 ^ 3) {i : Nat} (low : i < 9) :
    (modebitsToAll perms).getLsbD i = perms.getLsbD (i % 3) := by
  have high : ∀ j, 3 ≤ j → perms.getLsbD j = false := by
    intro j bound
    rw [← BitVec.testBit_toNat]
    exact Nat.testBit_lt_two_pow
      (Nat.lt_of_lt_of_le within (Nat.pow_le_pow_right (by decide) bound))
  have width : i < 32 := by omega
  unfold modebitsToAll
  simp only [BitVec.getLsbD_or, BitVec.getLsbD_shiftLeft, width, decide_true, Bool.true_and]
  rcases (by omega : i < 3 ∨ (3 ≤ i ∧ i < 6) ∨ (6 ≤ i ∧ i < 9)) with user | group | other
  · have class_bit : i % 3 = i := by omega
    simp [class_bit, user, (by omega : i < 6)]
  · have class_bit : i % 3 = i - 3 := by omega
    simp [class_bit, high i group.1, group.2, Nat.not_lt.mpr group.1]
  · have class_bit : i % 3 = i - 6 := by omega
    simp [class_bit, high i (by omega), high (i - 3) (by omega), Nat.not_lt.mpr other.1]

/-- A class of the original mode, moved to the lowest bits. -/
theorem class_bits (m mask : Mode) (shift : Nat)
    (isClass : mask = 7#32 <<< shift) (inside : shift + 3 ≤ 32) {i : Nat} (low : i < 9) :
    (modebitsToAll ((m &&& mask) >>> shift)).getLsbD i = m.getLsbD (shift + i % 3) := by
  subst isClass
  have lowest : (m &&& 7#32 <<< shift) >>> shift = (m >>> shift) &&& 7#32 := by
    apply BitVec.eq_of_getLsbD_eq
    intro j bound
    simp only [BitVec.getLsbD_and, BitVec.getLsbD_ushiftRight, BitVec.getLsbD_shiftLeft]
    by_cases three : j < 3
    · simp [(by omega : shift + j < 32)]
    · have outside : (7#32).getLsbD j = false := by
        rw [← BitVec.testBit_toNat]
        exact Nat.testBit_lt_two_pow
          (Nat.lt_of_lt_of_le (by decide : 7 < 2 ^ 3) (Nat.pow_le_pow_right (by decide) (by omega)))
      simp [outside]
  have within : ((m >>> shift) &&& 7#32).toNat < 2 ^ 3 := by
    rw [BitVec.toNat_and]
    exact Nat.lt_of_le_of_lt Nat.and_le_right (by decide)
  have set : (7#32).getLsbD (i % 3) = true := by
    have three : i % 3 < 3 := Nat.mod_lt _ (by decide)
    interval_cases i % 3 <;> decide
  rw [lowest, modebitsToAll_bit _ within low, BitVec.getLsbD_and, BitVec.getLsbD_ushiftRight, set,
    Bool.and_true]

theorem execute_bit {i : Nat} (low : i < 9) : (0o111#32).getLsbD i = decide (i % 3 = 0) := by
  revert i
  decide

theorem operandMode_bit (m : Mode) {c : Char} {bits : Mode} (found : operandMode m c = some bits)
    {i : Nat} (low : i < 9) : bits.getLsbD i = selects m i c := by
  unfold operandMode at found
  split at found <;> simp only [Option.some.injEq, reduceCtorEq] at found <;> subst found
  · change _ = decide (i % 3 = 2)
    revert i
    decide
  · change _ = decide (i % 3 = 1)
    revert i
    decide
  · exact execute_bit low
  · have any_execute := execute_bits m
    change _ = (decide (i % 3 = 0) && (S_ISDIR m || m.getLsbD 0 || m.getLsbD 3 || m.getLsbD 6))
    rw [Bool.or_assoc, Bool.or_assoc, ← Bool.or_assoc (m.getLsbD 0)]
    cases S_ISDIR m with
    | true => simpa using execute_bit low
    | false =>
      by_cases exec : m &&& 0o111#32 ≠ 0#32
      · rw [any_execute.mp exec]
        simpa [exec] using execute_bit low
      · rw [Bool.eq_false_iff.mpr fun set => exec (any_execute.mpr set)]
        simp [exec]
  · change _ = (decide (i % 3 = 0) && S_ISDIR m)
    cases S_ISDIR m with
    | true => simpa using execute_bit low
    | false => simp
  · exact BitVec.getLsbD_zero
  · exact BitVec.getLsbD_zero
  · exact class_bits m 0o700#32 6 (by decide) (by decide) low
  · exact class_bits m 0o070#32 3 (by decide) (by decide) low
  · have copied := class_bits m 0o007#32 0 (by decide) (by decide) low
    rw [BitVec.ushiftRight_zero, Nat.zero_add] at copied
    exact copied

theorem operandsMode_bit (m : Mode) (operands : CString) {mode bits : Mode}
    (found : operandsMode m mode operands = some bits) {i : Nat} (low : i < 9) :
    bits.getLsbD i = (mode.getLsbD i || operands.any (selects m i)) := by
  induction operands generalizing mode with
  | nil =>
    cases found
    simp
  | cons c rest ih =>
    unfold operandsMode at found
    split at found
    · rename_i contribution step
      rw [ih found, BitVec.getLsbD_or, operandMode_bit m step low, List.any_cons, Bool.or_assoc]
    · cases found

/-- The write of a well-formed rule assigns what the specification says. -/
theorem nodeWrite_at (m : Mode) {rule : PermNode} (wf : rule.WellFormed) {i : Nat} (low : i < 9) :
    (nodeWrite m rule).at? i = assigns m i rule := by
  have matching := wf.mode_matches
  have applies : skipsNode m rule = (decide (rule.op = .inert) || !appliesTo m rule) := by
    unfold skipsNode appliesTo
    cases S_ISDIR m <;> simp
  unfold nodeWrite assigns
  rw [applies]
  cases appliesTo m rule with
  | false => simp [Write.at?]
  | true =>
    cases payload : rule.mode with
    | asOctal value =>
      rw [payload] at matching
      have covered : (0o777#32).getLsbD i = true := by
        revert i
        decide
      simp [matching.1, Write.at?, covered]
    | asOperands operands =>
      rw [payload] at matching
      obtain ⟨symbolic, -, letters⟩ := matching
      obtain ⟨bits, found⟩ := operandsMode_of_letters m operands letters 0#32
      have selected : (selection m rule).getLsbD i =
          (rule.mask.getLsbD i && operands.any (selects m i)) := by
        simp only [selection, payload, found, Option.getD_some, BitVec.getLsbD_and]
        rw [operandsMode_bit m operands found low, BitVec.getLsbD_zero, Bool.false_or,
          Bool.and_comm]
      cases op : rule.op with
      | octal => exact absurd op symbolic
      | inert => simp [Write.at?]
      | assign => cases covered : rule.mask.getLsbD i <;> simp [Write.at?, selected, covered]
      | add =>
        cases chosen : rule.mask.getLsbD i && operands.any (selects m i) <;>
          simp [Write.at?, selected, chosen]
      | remove =>
        cases chosen : rule.mask.getLsbD i && operands.any (selects m i) <;>
          simp [Write.at?, selected, chosen]

theorem findSome?_congr {α β : Type} {f g : α → Option β} {l : List α}
    (same : ∀ a ∈ l, f a = g a) : l.findSome? f = l.findSome? g := by
  induction l with
  | nil => rfl
  | cons a l ih =>
    rw [List.findSome?_cons, List.findSome?_cons, same a (by simp),
      ih fun b member => same b (by simp [member])]

theorem last?_eq_lastAssigned (m : Mode) (rules : PermNodes)
    (wf : ∀ rule ∈ rules, rule.WellFormed) {i : Nat} (low : i < 9) :
    last? (rules.map (nodeWrite m)) i = lastAssigned m i rules := by
  unfold last? lastAssigned
  rw [← List.map_reverse, List.findSome?_map]
  apply findSome?_congr
  intro rule member
  exact nodeWrite_at m (wf rule (List.mem_reverse.mp member)) low

/-- A rule string accepted into a fresh chain has one rule per clause; applying the chain
keeps every bit outside 0777 and gives each permission bit the value assigned by the last
rule that applies to the file type and assigns the bit, or the file's own bit. -/
theorem permission_specification_meaning (s : CString) (chain : PermNodes)
    (accepted : addChmodRulesToPermchain s [permchainCreate] = (0, chain)) :
    ∃ rules, List.Forall₂ ClauseNode (clauses s) rules ∧
      ∀ m, ∃ result, permchainApply chain m = some result ∧
        (∀ i, 9 ≤ i → result.getLsbD i = m.getLsbD i) ∧
        ∀ i, i < 9 → result.getLsbD i = (lastAssigned m i rules).getD (m.getLsbD i) := by
  obtain ⟨rules, all, rfl⟩ := (addChmodRules_iff s _ chain).mp accepted
  refine ⟨rules, all, fun m => ?_⟩
  let pc : Permchain := ⟨_, Permchain.create.wellFormed_of_added s accepted⟩
  refine ⟨pc.apply m, pc.apply_eq m, fun i high => pc.apply_high_bit m high, ?_⟩
  intro i low
  have heads : lastAssigned m i pc.nodes = lastAssigned m i rules := by
    simp [pc, lastAssigned, assigns, permchainCreate, List.findSome?_append]
  rw [Permchain.apply, pc.apply_eq_run, Option.getD_some, getLsbD_run,
    last?_eq_lastAssigned m pc.nodes pc.wellFormed low, heads]

/-- The man page's `g=rD`, with its chain written out. -/
theorem permission_specification_meaning_of_grD :
    addChmodRulesToPermchain ['g', '=', 'r', 'D'] [permchainCreate] =
      (0, [permchainCreate, permchainCreate,
        ⟨.assign, PC_FLAGS_DEFAULT, 0o070#32, .asOperands ['r', 'D']⟩]) ∧
    ∃ rules, List.Forall₂ ClauseNode (clauses ['g', '=', 'r', 'D']) rules ∧
      ∀ m, ∃ result,
        permchainApply [permchainCreate, permchainCreate,
          ⟨.assign, PC_FLAGS_DEFAULT, 0o070#32, .asOperands ['r', 'D']⟩] m = some result ∧
        (∀ i, 9 ≤ i → result.getLsbD i = m.getLsbD i) ∧
        ∀ i, i < 9 → result.getLsbD i = (lastAssigned m i rules).getD (m.getLsbD i) :=
  ⟨by decide +kernel, permission_specification_meaning _ _ (by decide +kernel)⟩

-- a directory 0700 gets r-x for its group and keeps its type
example : permchainApply [⟨.assign, PC_FLAGS_DEFAULT, 0o070#32, .asOperands ['r', 'D']⟩]
    0o040700#32 = some 0o040750#32 := by decide

end Bindfs.Guarantees.Permissions
