import Bindfs.Lib.MaskedWrites
import Bindfs.Source.PermchainParser

/-!
# Invariant of parsed permission chains

The parsers only build nodes whose mask and octal value lie within 0777, whose operands
are distinct letters of the operand alphabet and whose `op` selects the union member that
was written. On such chains the interpreter never aborts and is a run of masked writes:
each node overwrites some of the nine permission bits with values computed from the
original mode (`applyNodes_eq_run`). `Permchain` bundles a chain with this invariant.
-/
namespace Bindfs.Source
open Bindfs.Lib.MaskedWrites

/-- Only permission bits: nothing outside 0777. -/
def Within (mode : Mode) : Prop := mode.toNat < 2 ^ 9

instance (mode : Mode) : Decidable (Within mode) := inferInstanceAs (Decidable (_ < _))

theorem Within.or {a b : Mode} (ha : Within a) (hb : Within b) : Within (a ||| b) := by
  unfold Within at *
  rw [BitVec.toNat_or]
  exact Nat.or_lt_two_pow ha hb

theorem Within.high_bit {mode : Mode} (within : Within mode) {i : Nat} (high : 9 ≤ i) :
    mode.getLsbD i = false := by
  rw [← BitVec.testBit_toNat]
  exact Nat.testBit_lt_two_pow (Nat.lt_of_lt_of_le within (Nat.pow_le_pow_right (by decide) high))

/-- The union member agrees with `op` and holds what the interpreter expects in it. -/
def PermMode.Matches (op : PermOp) : PermMode → Prop
  | .asOperands operands => op ≠ .octal ∧ operands.Nodup ∧ ∀ c ∈ operands, c ∈ operandLetters
  | .asOctal value => op = .octal ∧ Within value

structure PermNode.WellFormed (node : PermNode) : Prop where
  mask_within : Within node.mask
  mode_matches : node.mode.Matches node.op

theorem wellFormed_create : permchainCreate.WellFormed :=
  ⟨by decide, by simp [permchainCreate, PermMode.Matches]⟩

theorem wellFormed_defaultFlags {node : PermNode} (wf : node.WellFormed) :
    (defaultFlags node).WellFormed := by
  unfold defaultFlags
  split
  · exact ⟨wf.mask_within, wf.mode_matches⟩
  · exact wf

theorem wellFormed_addOperand {node : PermNode} (wf : node.WellFormed) {c : Char}
    (letter : c ∈ operandLetters) : (addOperand node c).WellFormed := by
  obtain ⟨mask_within, mode_matches⟩ := wf
  unfold addOperand
  split
  · rename_i operands same
    rw [same] at mode_matches
    obtain ⟨symbolic, distinct, letters⟩ := mode_matches
    split
    · exact ⟨mask_within, same ▸ ⟨symbolic, distinct, letters⟩⟩
    · rename_i fresh
      refine ⟨mask_within, symbolic, ?_, ?_⟩
      · simpa [List.nodup_append] using ⟨distinct, fun a member => by rintro rfl; exact fresh member⟩
      · intro a member
        rcases List.mem_append.mp member with old | new
        · exact letters a old
        · rw [List.mem_singleton.mp new]
          exact letter
  · exact ⟨mask_within, mode_matches⟩

/-- While scanning, a node is well formed and its union still holds operands. -/
structure Scanning (node : PermNode) : Prop extends node.WellFormed where
  symbolic : ∃ operands, node.mode = .asOperands operands

theorem operatorOf_ne_octal {c : Char} {op : PermOp} (found : operatorOf c = some op) :
    op ≠ .octal := by
  unfold operatorOf at found
  split at found <;> simp only [Option.some.injEq, reduceCtorEq] at found <;>
    rw [← found] <;> decide

theorem Scanning.withMask {node : PermNode} (scanning : Scanning node) {mask : Mode}
    (within : Within mask) : Scanning { node with mask := mask } :=
  ⟨⟨within, scanning.mode_matches⟩, scanning.symbolic⟩

/-- One character of the scanner keeps the invariant. -/
theorem scanChar_scanning {atStart : Bool} {state state' : ScanState} {node node' : PermNode}
    {c : Char} (scanning : Scanning node)
    (step : scanChar atStart state node c = some (state', node')) : Scanning node' := by
  have within := scanning.mask_within
  unfold scanChar at step
  split at step
  · split at step
    case h_7 =>
      simp only [Option.map_eq_some_iff, Prod.mk.injEq] at step
      obtain ⟨op, found, -, rfl⟩ := step
      obtain ⟨operands, same⟩ := scanning.symbolic
      have matching := scanning.mode_matches
      rw [same] at matching
      refine ⟨⟨?_, ?_⟩, operands, same⟩
      · dsimp only
        split
        · decide
        · exact within
      · dsimp only
        rw [same]
        exact ⟨operatorOf_ne_octal found, matching.2⟩
    all_goals
      simp only [Option.some.injEq, Prod.mk.injEq] at step
      obtain ⟨-, rfl⟩ := step
    · exact scanning.withMask (within.or (by decide))
    · exact scanning.withMask (within.or (by decide))
    · exact scanning.withMask (within.or (by decide))
    · exact scanning.withMask (by decide)
    · exact ⟨⟨within, scanning.mode_matches⟩, scanning.symbolic⟩
    · exact ⟨⟨within, scanning.mode_matches⟩, scanning.symbolic⟩
  · split at step
    · rename_i letter
      simp only [Option.some.injEq, Prod.mk.injEq] at step
      obtain ⟨-, rfl⟩ := step
      refine ⟨wellFormed_addOperand scanning.toWellFormed letter, ?_⟩
      obtain ⟨operands, same⟩ := scanning.symbolic
      simp only [addOperand, same]
      split
      · exact ⟨operands, same⟩
      · exact ⟨operands ++ [c], rfl⟩
    · cases step

theorem scanRule_scanning (clause : CString) {atStart : Bool} {state : ScanState}
    {node out : PermNode} (scanning : Scanning node)
    (scanned : scanRule atStart state node clause = some out) : Scanning out := by
  induction clause generalizing atStart state node with
  | nil =>
    cases scanned
    exact scanning
  | cons c rest ih =>
    unfold scanRule at scanned
    split at scanned
    · rename_i state' node' step
      exact ih (scanChar_scanning scanning step) scanned
    · cases scanned

theorem wellFormed_of_chmodRule {clause : CString} {node : PermNode}
    (added : addChmodRuleToPermchain clause [] = (0, [node])) : node.WellFormed := by
  unfold addChmodRuleToPermchain at added
  dsimp only at added
  split at added
  · rename_i scanned
    simp only [permchainCat, List.nil_append, Prod.mk.injEq, List.cons.injEq, and_true,
      true_and] at added
    subst added
    have fresh : Scanning { permchainCreate with flags := ⟨false, false⟩ } :=
      ⟨⟨wellFormed_create.mask_within, wellFormed_create.mode_matches⟩, [], rfl⟩
    exact wellFormed_defaultFlags (scanRule_scanning clause fresh scanned).toWellFormed
  · simp at added

/-- Every accepted clause adds a well-formed node. -/
theorem ClauseNode.wellFormed {clause : CString} {node : PermNode}
    (alone : ClauseNode clause node) : node.WellFormed := by
  obtain ⟨-, added⟩ := alone
  unfold addRuleToPermchain at added
  split at added
  · unfold addOctalRuleToPermchain at added
    dsimp only at added
    split at added
    · simp at added
    · rename_i inside
      simp only [permchainCat, List.nil_append, Prod.mk.injEq, List.cons.injEq, and_true,
        true_and] at added
      subst added
      refine ⟨show Within 0o777#32 by decide, rfl, ?_⟩
      unfold Within
      rw [BitVec.toNat_ofInt]
      omega
  · exact wellFormed_of_chmodRule added

theorem wellFormed_of_clauses {parts : List CString} {nodes : PermNodes}
    (all : List.Forall₂ ClauseNode parts nodes) : ∀ node ∈ nodes, node.WellFormed := by
  induction all with
  | nil => simp
  | cons first _ ih => exact List.forall_mem_cons.mpr ⟨first.wellFormed, ih⟩

/-! ## The interpreter as a run of masked writes -/

theorem operandMode_of_letter (originalMode : Mode) {c : Char} (letter : c ∈ operandLetters) :
    ∃ bits, operandMode originalMode c = some bits := by
  simp only [operandLetters, List.mem_cons, List.not_mem_nil, or_false] at letter
  rcases letter with rfl | rfl | rfl | rfl | rfl | rfl | rfl | rfl | rfl | rfl <;>
    exact ⟨_, rfl⟩

theorem operandsMode_of_letters (originalMode : Mode) (operands : CString)
    (letters : ∀ c ∈ operands, c ∈ operandLetters) (mode : Mode) :
    ∃ bits, operandsMode originalMode mode operands = some bits := by
  induction operands generalizing mode with
  | nil => exact ⟨mode, rfl⟩
  | cons c rest ih =>
    obtain ⟨bits, found⟩ := operandMode_of_letter originalMode (letters c (by simp))
    simp only [operandsMode, found]
    exact ih (fun c member => letters c (by simp [member])) _

/-- The bits of the mask that a node's operands select on the original mode. -/
def selection (originalMode : Mode) (node : PermNode) : Mode :=
  match node.mode with
  | .asOperands operands => (operandsMode originalMode 0#32 operands).getD 0#32 &&& node.mask
  | .asOctal _ => 0#32

/-- The write a node performs on the running mode. -/
def nodeWrite (originalMode : Mode) (node : PermNode) : Write 32 :=
  if skipsNode originalMode node then ⟨0#32, 0#32⟩
  else match node.op, node.mode with
    | .assign, _ => ⟨node.mask, selection originalMode node⟩
    | .add, _ => ⟨selection originalMode node, selection originalMode node⟩
    | .remove, _ => ⟨selection originalMode node, 0#32⟩
    | .octal, .asOctal value => ⟨0o777#32, value⟩
    | _, _ => ⟨0#32, 0#32⟩

theorem within_iff_subset (mode : Mode) : Within mode ↔ mode &&& 0o777#32 = mode := by
  have low : (mode &&& 0o777#32).toNat = mode.toNat % 2 ^ 9 := by
    rw [BitVec.toNat_and]
    exact Nat.and_two_pow_sub_one_eq_mod mode.toNat 9
  unfold Within
  rw [← BitVec.toNat_inj, low]
  omega

theorem Within.and_left {a : Mode} (b : Mode) (within : Within a) : Within (b &&& a) := by
  unfold Within at *
  rw [BitVec.toNat_and]
  exact Nat.lt_of_le_of_lt Nat.and_le_right within

theorem selection_within (originalMode : Mode) {node : PermNode} (wf : node.WellFormed) :
    Within (selection originalMode node) := by
  unfold selection
  split
  · exact wf.mask_within.and_left _
  · decide

theorem or_eq_write (word bits : Mode) : word ||| bits = (⟨bits, bits⟩ : Write 32).apply word := by
  unfold Write.apply
  ext i hi
  simp only [BitVec.getElem_or, BitVec.getElem_and, BitVec.getElem_not]
  cases word[i] <;> cases bits[i] <;> rfl

/-- The odd mask of the '-' rule, `~0777 | ~mode`, clears exactly the selected bits. -/
theorem remove_eq_write (word bits : Mode) (within : Within bits) :
    word &&& (~~~0o777#32 ||| ~~~bits) = (⟨bits, 0#32⟩ : Write 32).apply word := by
  have subset := (within_iff_subset bits).mp within
  unfold Write.apply
  rw [← BitVec.not_and, BitVec.and_comm 0o777#32 bits, subset]
  simp

theorem octal_eq_write (word value : Mode) (within : Within value) :
    (word &&& ~~~0o777#32) ||| value = (⟨0o777#32, value⟩ : Write 32).apply word := by
  unfold Write.apply
  rw [(within_iff_subset value).mp within]

/-- A node that is not skipped performs its write and does not abort. -/
theorem applyNode_eq_write {originalMode tgtmode : Mode} {node : PermNode}
    (wf : node.WellFormed) (active : skipsNode originalMode node = false) :
    applyNode originalMode tgtmode node = some ((nodeWrite originalMode node).apply tgtmode) := by
  have within := selection_within originalMode wf
  have matching := wf.mode_matches
  have op_active : node.op ≠ .inert := by
    intro inert
    simp [skipsNode, inert] at active
  unfold nodeWrite
  rw [active]
  simp only [Bool.false_eq_true, if_false]
  cases payload : node.mode with
  | asOctal value =>
    rw [payload] at matching
    simp only [applyNode, payload, matching.1, octal_eq_write tgtmode value matching.2]
  | asOperands operands =>
    rw [payload] at matching
    obtain ⟨symbolic, -, letters⟩ := matching
    obtain ⟨bits, found⟩ := operandsMode_of_letters originalMode operands letters 0#32
    have selected : selection originalMode node = bits &&& node.mask := by
      simp [selection, payload, found]
    cases op : node.op with
    | inert => exact absurd op op_active
    | octal => exact absurd op symbolic
    | assign =>
      simp [applyNode, op, payload, found, selected, Write.apply, BitVec.and_assoc]
    | add => simp [applyNode, op, payload, found, selected, or_eq_write]
    | remove =>
      rw [selected] at within
      simp only [applyNode, op, payload, found, selected, Option.map_some,
        remove_eq_write _ _ within]

theorem nodeWrite_mask_within (originalMode : Mode) {node : PermNode} (wf : node.WellFormed) :
    Within (nodeWrite originalMode node).mask := by
  have selected := selection_within originalMode wf
  unfold nodeWrite
  split
  · decide
  · split
    · exact wf.mask_within
    · exact selected
    · exact selected
    · exact (by decide : Within 0o777#32)
    · decide

/-- The file type field lies above the permission bits. -/
theorem hasType_congr {mode mode' : Mode} (type : Mode)
    (same : ∀ i, 9 ≤ i → mode.getLsbD i = mode'.getLsbD i) : hasType type mode = hasType type mode' := by
  have field : mode &&& S_IFMT = mode' &&& S_IFMT := by
    apply BitVec.eq_of_getLsbD_eq
    intro i _
    simp only [BitVec.getLsbD_and]
    by_cases high : 9 ≤ i
    · rw [same i high]
    · have low : S_IFMT.getLsbD i = false := by
        have small : i < 9 := by omega
        revert i
        decide
      simp [low]
  simp only [hasType, field]

/-- The directory test of the interpreter reads the running mode, whose type field is
still that of the original mode. -/
theorem skipsNode_congr {originalMode tgtmode : Mode} (node : PermNode)
    (sameType : ∀ i, 9 ≤ i → tgtmode.getLsbD i = originalMode.getLsbD i) :
    skipsNode tgtmode node = skipsNode originalMode node := by
  simp only [skipsNode, S_ISDIR, hasType_congr S_IFDIR sameType]

theorem applyNodes_eq_run {originalMode : Mode} (nodes : PermNodes)
    (wf : ∀ node ∈ nodes, node.WellFormed) (tgtmode : Mode)
    (sameType : ∀ i, 9 ≤ i → tgtmode.getLsbD i = originalMode.getLsbD i) :
    applyNodes originalMode tgtmode nodes =
      some (run (nodes.map (nodeWrite originalMode)) tgtmode) := by
  induction nodes generalizing tgtmode with
  | nil => rfl
  | cons node rest ih =>
    have wf_node := wf node (by simp)
    have wf_rest : ∀ node ∈ rest, node.WellFormed := fun node member => wf node (by simp [member])
    have skip_same := skipsNode_congr node sameType
    simp only [applyNodes, List.map_cons, run, List.foldl_cons, skip_same]
    by_cases skip : skipsNode originalMode node = true
    · have idle : (nodeWrite originalMode node).apply tgtmode = tgtmode := by
        simp only [nodeWrite, skip, if_true, Write.apply_of_empty_mask]
      rw [if_pos skip, idle]
      exact ih wf_rest tgtmode sameType
    · have active : skipsNode originalMode node = false := by simpa using skip
      rw [if_neg skip, applyNode_eq_write wf_node active]
      apply ih wf_rest
      intro i high
      have uncovered := (nodeWrite_mask_within originalMode wf_node).high_bit high
      rw [Write.getLsbD_apply, Write.at?, uncovered]
      exact sameType i high

/-! ## Chains that carry the invariant -/

/-- A permission chain as the settings hold it: every node came from the parsers. -/
structure Permchain where
  nodes : PermNodes
  wellFormed : ∀ node ∈ nodes, node.WellFormed

namespace Permchain

/-- A freshly created chain. -/
def create : Permchain := ⟨[permchainCreate], by simp [wellFormed_create]⟩

/-- `permchain_apply` on a parsed chain; it never aborts (`apply_eq`). -/
def apply (pc : Permchain) (mode : Mode) : Mode := (permchainApply pc.nodes mode).getD mode

theorem apply_eq_run (pc : Permchain) (mode : Mode) :
    permchainApply pc.nodes mode = some (run (pc.nodes.map (nodeWrite mode)) mode) :=
  applyNodes_eq_run pc.nodes pc.wellFormed mode (fun _ _ => rfl)

theorem apply_eq (pc : Permchain) (mode : Mode) :
    permchainApply pc.nodes mode = some (pc.apply mode) := by
  rw [apply, apply_eq_run]
  rfl

/-- A rule at the end of a parsed chain writes over what the chain computed. -/
theorem apply_snoc (pc : Permchain) {node : PermNode} (wf : node.WellFormed) (mode : Mode) :
    permchainApply (pc.nodes ++ [node]) mode =
      some ((nodeWrite mode node).apply (pc.apply mode)) := by
  have longer := apply_eq_run ⟨pc.nodes ++ [node], by
    intro other member
    rcases List.mem_append.mp member with old | new
    · exact pc.wellFormed other old
    · rw [List.mem_singleton.mp new]
      exact wf⟩ mode
  rw [longer, apply, apply_eq_run]
  simp [run]

/-- Bits outside 0777 are never changed by a parsed chain. -/
theorem apply_high_bit (pc : Permchain) (mode : Mode) {i : Nat} (high : 9 ≤ i) :
    (pc.apply mode).getLsbD i = mode.getLsbD i := by
  rw [apply, apply_eq_run, Option.getD_some]
  apply getLsbD_run_of_uncovered
  intro wr member
  obtain ⟨node, node_mem, rfl⟩ := List.mem_map.mp member
  exact (nodeWrite_mask_within mode (pc.wellFormed node node_mem)).high_bit high

theorem wellFormed_of_added (pc : Permchain) (rule : CString) {out : PermNodes}
    (added : addChmodRulesToPermchain rule pc.nodes = (0, out)) :
    ∀ node ∈ out, node.WellFormed := by
  obtain ⟨nodes, all, rfl⟩ := (addChmodRules_iff rule pc.nodes out).mp added
  intro node member
  rcases List.mem_append.mp member with old | new
  · exact pc.wellFormed node old
  · rcases List.mem_cons.mp new with rfl | parsed
    · exact wellFormed_create
    · exact wellFormed_of_clauses all node parsed

end Permchain

end Bindfs.Source
