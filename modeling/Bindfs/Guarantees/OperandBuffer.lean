import Bindfs.Source.PermchainMemory

/-!
# The operand buffer of permission rules

A rule string can repeat its operands without end, and the 16 bytes of `as_operands` are
written and searched without a bound. What bounds them is that a letter is written once:
after any part of any clause the bytes are distinct operand letters followed by NULs, and the
pointer stands at the first of these. The interpreter reads what the parser left, so its
`assert(0)` and the wrong member of the union are out of reach.
-/
namespace Bindfs.Guarantees.OperandBuffer
open Bindfs.Source

/-- The buffer holds `operands` as a NUL-terminated string, the rest of its 16 bytes is
zero and the next letter goes where the first NUL is. -/
structure BufferHolds (scan : MemoryScan) (operands : CString) : Prop where
  bytes : scan.node.mode = .asOperands (operands ++ List.replicate (16 - operands.length) NUL)
  terminated : operands.length < 16
  distinct : operands.Nodup
  letters : ∀ c ∈ operands, c ∈ operandLetters
  pointer : scan.operandsPtr = operands.length

theorem bufferHolds_layout (state : ScanState) {node : PermNode} (scanning : Scanning node) :
    ∃ operands, BufferHolds (layout state node) operands := by
  obtain ⟨operands, same⟩ := scanning.symbolic
  have matching := scanning.mode_matches
  rw [same] at matching
  exact ⟨operands,
    { bytes := by simp [layout, storedNode, same, PermMode.stored, filled]
      terminated := matching.room
      distinct := matching.2.1
      letters := matching.2.2
      pointer := by simp [layout, same, PermMode.written] }⟩

/-- No step of a scan leaves the buffer, and between two steps it is in order. -/
theorem scan_keeps_buffer (read : CString) :
    ∃ outcome, scanRuleInMemory true startOfScan read = .ok outcome ∧
      ∀ scan ∈ outcome, ∃ operands, BufferHolds scan operands := by
  obtain ⟨final, inMemory, -, scanning⟩ := scanRuleInMemory_layout read true .lhs scanning_create
  refine ⟨_, inMemory, ?_⟩
  intro scan member
  obtain ⟨⟨state, node⟩, reached, rfl⟩ := Option.map_eq_some_iff.mp member
  exact bufferHolds_layout state (scanning _ reached)

theorem chain_applies (rules : List CString) :
    ∃ chain, buildInMemory rules = .ok chain ∧
      ∀ mode, ∃ out, permchainApplyInMemory chain mode = .ok out := by
  obtain ⟨pc, built⟩ := buildInMemory_stored rules
  exact ⟨_, built, fun mode => ⟨pc.apply mode, permchainApplyInMemory_stored pc mode⟩⟩

/-- After every front of every clause of every rule string the buffer is in order, and what any
number of calls builds is built, and interpreted on every mode, without a fault. -/
theorem operand_buffer_never_overflows :
    (∀ rule : CString, ∀ clause ∈ clauses rule, ∀ read rest, clause = read ++ rest →
        ∃ outcome, scanRuleInMemory true startOfScan read = .ok outcome ∧
          ∀ scan ∈ outcome, ∃ operands, BufferHolds scan operands) ∧
      ∀ rules : List CString, ∃ chain, buildInMemory rules = .ok chain ∧
        ∀ mode, ∃ out, permchainApplyInMemory chain mode = .ok out := by
  refine ⟨?_, chain_applies⟩
  intro rule clause _ read rest _
  exact scan_keeps_buffer read

end Bindfs.Guarantees.OperandBuffer
