import Mathlib.Data.List.Forall2
import Bindfs.Source.Permchain

/-!
# What the permission parser reads

`clauses` is the independent reading of a rule string: its parts between ',' and ':',
one empty part after a final separator dropped. The nested pointer loops of
`add_chmod_rules_to_permchain` meet exactly these clauses in order (`rulesLoop_iff`), a
single rule touches the chain only by appending one node (`addRule_outcome`), and the
private chain is appended as a whole (`addChmodRules_iff`).
-/
namespace Bindfs.Source
open Bindfs.Lib.Segments

def clauses (rule : CString) : List CString := segments isSeparator rule

/-- A clause is accepted on its own when the parser adds exactly `node` for it to an
empty chain. -/
def ClauseNode (clause : CString) (node : PermNode) : Prop :=
  clause ≠ [] ∧ addRuleToPermchain clause [] = (0, [node])

theorem addChmodRule_outcome (clause : CString) :
    (∃ node, ∀ pc, addChmodRuleToPermchain clause pc = (0, pc ++ [node])) ∨
      ∀ pc, addChmodRuleToPermchain clause pc = (-1, pc) := by
  cases scanned : scanRule true .lhs { permchainCreate with flags := ⟨false, false⟩ } clause with
  | some node =>
    exact Or.inl ⟨defaultFlags node, fun pc => by
      simp only [addChmodRuleToPermchain, scanned, permchainCat]⟩
  | none => exact Or.inr fun pc => by simp only [addChmodRuleToPermchain, scanned]

theorem addOctalRule_outcome (clause : CString) :
    (∃ node, ∀ pc, addOctalRuleToPermchain clause pc = (0, pc ++ [node])) ∨
      ∀ pc, addOctalRuleToPermchain clause pc = (-1, pc) := by
  unfold addOctalRuleToPermchain
  by_cases outside : (strtol 8 clause).1 < 0 ∨ (strtol 8 clause).1 > 0o777
  · exact Or.inr fun pc => by simp only [if_pos outside]
  · exact Or.inl ⟨_, fun pc => by simp only [if_neg outside]; rfl⟩

/-- Both rule parsers look at the chain only to append to it. -/
theorem addRule_outcome (clause : CString) :
    (∃ node, ∀ pc, addRuleToPermchain clause pc = (0, pc ++ [node])) ∨
      ∀ pc, addRuleToPermchain clause pc = (-1, pc) := by
  unfold addRuleToPermchain
  split
  · exact addOctalRule_outcome clause
  · exact addChmodRule_outcome clause

/-- What a clause adds to the empty chain it adds to every chain. -/
theorem ClauseNode.added {clause : CString} {node : PermNode} (alone : ClauseNode clause node)
    (pc : PermNodes) : addRuleToPermchain clause pc = (0, pc ++ [node]) := by
  rcases addRule_outcome clause with ⟨other, appends⟩ | refused
  · have same := (appends []).symm.trans alone.2
    simp only [List.nil_append, Prod.mk.injEq, List.cons.injEq, and_true, true_and] at same
    rw [appends pc, same]
  · have absurdCode := (refused []).symm.trans alone.2
    simp at absurdCode

theorem clauseNode_of_zero {clause : CString} {pc : PermNodes} (nonempty : clause ≠ [])
    (accepted : (addRuleToPermchain clause pc).1 = 0) : ∃ node, ClauseNode clause node := by
  rcases addRule_outcome clause with ⟨node, appends⟩ | refused
  · exact ⟨node, nonempty, appends []⟩
  · rw [refused pc] at accepted
    cases accepted

/-- One round of the loop appends the node of its clause or stops. -/
theorem addClause_iff (newpc : PermNodes) (clause : CString) (out : PermNodes) :
    addClause newpc clause = some out ↔ ∃ node, ClauseNode clause node ∧ out = newpc ++ [node] := by
  unfold addClause
  constructor
  · intro added
    split at added
    · cases added
    · rename_i nonempty
      dsimp only at added
      split at added
      · cases added
      · rename_i accepted
        obtain ⟨node, alone⟩ := clauseNode_of_zero nonempty (not_not.mp accepted)
        rw [alone.added newpc] at added
        exact ⟨node, alone, (Option.some.inj added).symm⟩
  · rintro ⟨node, alone, rfl⟩
    simp [alone.1, alone.added newpc]

/-- The loop consumes exactly the clauses of its input and appends one node for each. -/
theorem rulesLoop_iff (newpc : PermNodes) (input : CString) (out : PermNodes) :
    rulesLoop newpc input = some out ↔
      ∃ nodes, List.Forall₂ ClauseNode (clauses input) nodes ∧ out = newpc ++ nodes := by
  unfold rulesLoop clauses
  rw [scan_eq_foldlM]
  induction segments isSeparator input generalizing newpc with
  | nil => simp [eq_comm]
  | cons clause rest ih =>
    rw [List.foldlM_cons]
    constructor
    · intro ran
      obtain ⟨middle, first, later⟩ := Option.bind_eq_some_iff.mp ran
      obtain ⟨node, alone, rfl⟩ := (addClause_iff newpc clause middle).mp first
      obtain ⟨nodes, all, rfl⟩ := (ih (newpc ++ [node])).mp later
      exact ⟨node :: nodes, .cons alone all, by simp⟩
    · rintro ⟨nodes, all, rfl⟩
      cases all with
      | @cons _ node _ nodes alone all =>
        refine Option.bind_eq_some_iff.mpr ⟨newpc ++ [node], ?_, ?_⟩
        · exact (addClause_iff newpc clause _).mpr ⟨node, alone, rfl⟩
        · exact (ih (newpc ++ [node])).mpr ⟨nodes, all, by simp⟩

/-- Some list of nodes belongs to the clauses exactly when each clause is accepted on its
own. -/
theorem exists_nodes_iff (parts : List CString) :
    (∃ nodes, List.Forall₂ ClauseNode parts nodes) ↔
      ∀ clause ∈ parts, clause ≠ [] ∧ (addRuleToPermchain clause []).1 = 0 := by
  induction parts with
  | nil => simp
  | cons clause parts ih =>
    rw [List.forall_mem_cons, ← ih]
    constructor
    · rintro ⟨nodes, all⟩
      cases all with
      | cons first later => exact ⟨⟨first.1, by rw [first.2]⟩, _, later⟩
    · rintro ⟨⟨nonempty, accepted⟩, nodes, later⟩
      obtain ⟨node, alone⟩ := clauseNode_of_zero nonempty accepted
      exact ⟨node :: nodes, .cons alone later⟩

theorem addChmodRules_iff (rule : CString) (pc out : PermNodes) :
    addChmodRulesToPermchain rule pc = (0, out) ↔
      ∃ nodes, List.Forall₂ ClauseNode (clauses rule) nodes ∧
        out = pc ++ permchainCreate :: nodes := by
  unfold addChmodRulesToPermchain
  cases ran : rulesLoop [permchainCreate] rule with
  | none =>
    constructor
    · intro impossible
      simp at impossible
    · rintro ⟨nodes, all, -⟩
      have some_out := (rulesLoop_iff [permchainCreate] rule _).mpr ⟨nodes, all, rfl⟩
      rw [ran] at some_out
      cases some_out
  | some newpc =>
    obtain ⟨nodes, all, rfl⟩ := (rulesLoop_iff _ rule _).mp ran
    simp only [permchainCat, List.singleton_append, Prod.mk.injEq, true_and]
    constructor
    · rintro rfl
      exact ⟨nodes, all, rfl⟩
    · rintro ⟨others, all', rfl⟩
      have same : nodes = others := by
        have again := (rulesLoop_iff [permchainCreate] rule _).mpr ⟨others, all', rfl⟩
        rw [ran] at again
        simpa using again
      rw [same]

end Bindfs.Source
