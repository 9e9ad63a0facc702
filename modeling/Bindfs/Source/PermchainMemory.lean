import Mathlib.Data.List.Perm.Subperm
import Bindfs.Source.PermchainGrammar
import Bindfs.Source.PermchainInvariant

/-!
# permchain.c: rules as they lie in memory

The same parser and interpreter one level lower: a node's union is the 16 bytes of
`as_operands` or the value of `as_octal`, the scanner appends through `operands_ptr`, and
searches and reads run byte by byte up to a NUL. A step outside the 16 bytes, a read of the
member that was not written and a failed assertion are faults (`MemoryFault`).

`storedNode` lays a node out in memory. The parser builds in memory what `addChmodRulesToPermchain`
builds (`addChmodRulesInMemory_stored`) and the interpreter computes there what `permchainApply`
does (`permchainApplyInMemory_stored`), neither of them with a fault.
-/
namespace Bindfs.Source

inductive MemoryFault where
  | outOfBounds | wrongMember | assertion
  deriving DecidableEq, Repr

/-- The union `mode`, by the member that was written last. -/
inductive StoredMode where
  | asOperands (bytes : List Char)
  | asOctal (value : Mode)
  deriving DecidableEq, Repr

structure StoredNode where
  op : PermOp
  flags : PermFlags
  mask : Mode
  mode : StoredMode
  deriving DecidableEq, Repr

/-- `permchain_create`, with its `memset` of the 16 bytes. -/
def permchainCreateInMemory : StoredNode :=
  { op := .inert, flags := PC_FLAGS_DEFAULT, mask := 0#32, mode := .asOperands (List.replicate 16 NUL) }

/-! ## The parser -/

/-- `strchr` for a character other than NUL. -/
def strchr (c : Char) : List Char → Except MemoryFault Bool
  | [] => .error .outOfBounds
  | b :: rest => if b = c then .ok true else if b = NUL then .ok false else strchr c rest

/-- The scanner's variables: `state`, `newpc` and the index of `operands_ptr`. -/
structure MemoryScan where
  state : ScanState
  node : StoredNode
  operandsPtr : Nat

/-- `if (!strchr(as_operands, *p)) *(operands_ptr++) = *p;` -/
def addOperandInMemory (scan : MemoryScan) (c : Char) : Except MemoryFault MemoryScan :=
  match scan.node.mode with
  | .asOctal _ => .error .wrongMember
  | .asOperands bytes => do
    if ← strchr c bytes then pure scan
    else if scan.operandsPtr < bytes.length then
      pure { scan with
        node := { scan.node with mode := .asOperands (bytes.set scan.operandsPtr c) }
        operandsPtr := scan.operandsPtr + 1 }
    else .error .outOfBounds

/-- The body of the scanner's loop; `none` is its `goto error`. -/
def scanCharInMemory (atStart : Bool) (scan : MemoryScan) (c : Char) :
    Except MemoryFault (Option MemoryScan) :=
  let node := scan.node
  match scan.state with
  | .lhs =>
    match c with
    | 'u' => .ok (some { scan with node := { node with mask := node.mask ||| 0o700#32 } })
    | 'g' => .ok (some { scan with node := { node with mask := node.mask ||| 0o070#32 } })
    | 'o' => .ok (some { scan with node := { node with mask := node.mask ||| 0o007#32 } })
    | 'a' => .ok (some { scan with node := { node with mask := 0o777#32 } })
    | 'f' => .ok (some { scan with node := { node with flags := { node.flags with files := true } } })
    | 'd' => .ok (some { scan with node := { node with flags := { node.flags with dirs := true } } })
    | _ =>
      .ok ((operatorOf c).map fun op =>
        { scan with
          state := .rhs
          node := { node with op := op, mask := if atStart then 0o777#32 else node.mask } })
  | .rhs => if c ∈ operandLetters then (addOperandInMemory scan c).map some else .ok none

def scanRuleInMemory (atStart : Bool) (scan : MemoryScan) : CString → Except MemoryFault (Option MemoryScan)
  | [] => .ok (some scan)
  | c :: rest =>
    match scanCharInMemory atStart scan c with
    | .error fault => .error fault
    | .ok none => .ok none
    | .ok (some scan) => scanRuleInMemory false scan rest

/-- The scanner's variables before its loop. -/
def startOfScan : MemoryScan :=
  ⟨.lhs, { permchainCreateInMemory with flags := ⟨false, false⟩ }, 0⟩

/-- `add_chmod_rule_to_permchain`. -/
def addChmodRuleInMemory (clause : CString) (pc : List StoredNode) :
    Except MemoryFault (Int × List StoredNode) :=
  match scanRuleInMemory true startOfScan clause with
  | .error fault => .error fault
  | .ok none => .ok (-1, pc)
  | .ok (some scan) =>
    let node := scan.node
    let newpc := if node.flags = ⟨false, false⟩ then { node with flags := PC_FLAGS_DEFAULT } else node
    .ok (0, pc ++ [newpc])

/-- `add_octal_rule_to_permchain`. -/
def addOctalRuleInMemory (clause : CString) (pc : List StoredNode) : Int × List StoredNode :=
  let mode := (strtol 8 clause).1
  if mode < 0 ∨ mode > 0o777 then (-1, pc)
  else
    let newpc := { permchainCreateInMemory with
      mask := 0o777#32
      op := .octal
      mode := .asOctal (BitVec.ofInt 32 mode) }
    (0, pc ++ [newpc])

def addRuleInMemory (clause : CString) (pc : List StoredNode) :
    Except MemoryFault (Int × List StoredNode) :=
  if startsWithDigit clause then .ok (addOctalRuleInMemory clause pc)
  else addChmodRuleInMemory clause pc

/-- The body of the outer loop; after a fault there is nothing left to run. -/
def addClauseInMemory (newpc : Except MemoryFault (List StoredNode)) (clause : CString) :
    Option (Except MemoryFault (List StoredNode)) :=
  match newpc with
  | .error fault => some (.error fault)
  | .ok newpc =>
    if clause = [] then none
    else
      match addRuleInMemory clause newpc with
      | .error fault => some (.error fault)
      | .ok added => if added.1 ≠ 0 then none else some (.ok added.2)

/-- `add_chmod_rules_to_permchain`. -/
def addChmodRulesInMemory (rule : CString) (pc : List StoredNode) :
    Except MemoryFault (Int × List StoredNode) :=
  match Lib.Segments.scan isSeparator addClauseInMemory (.ok [permchainCreateInMemory]) rule with
  | some (.error fault) => .error fault
  | some (.ok newpc) => .ok (0, pc ++ newpc)
  | none => .ok (-1, pc)

/-- A chain after any number of calls, those that fail included. -/
def buildInMemory : List CString → Except MemoryFault (List StoredNode) :=
  List.foldlM (fun pc rule => (addChmodRulesInMemory rule pc).map Prod.snd) [permchainCreateInMemory]

/-! ## The interpreter -/

/-- The loop over `as_operands`. -/
def operandsModeInMemory (originalMode mode : Mode) : List Char → Except MemoryFault Mode
  | [] => .error .outOfBounds
  | c :: rest =>
    if c = NUL then .ok mode
    else
      match operandMode originalMode c with
      | some bits => operandsModeInMemory originalMode (mode ||| bits) rest
      | none => .error .assertion

def StoredMode.operands : StoredMode → Except MemoryFault (List Char)
  | .asOperands bytes => .ok bytes
  | .asOctal _ => .error .wrongMember

def StoredMode.octal : StoredMode → Except MemoryFault Mode
  | .asOperands _ => .error .wrongMember
  | .asOctal value => .ok value

/-- One iteration of `permchain_apply` for a node it does not skip. -/
def applyNodeInMemory (originalMode tgtmode : Mode) (node : StoredNode) : Except MemoryFault Mode :=
  match node.op with
  | .assign => do
    let mode ← operandsModeInMemory originalMode 0#32 (← node.mode.operands)
    pure ((tgtmode &&& ~~~node.mask) ||| (mode &&& node.mask))
  | .add => do
    let mode ← operandsModeInMemory originalMode 0#32 (← node.mode.operands)
    pure (tgtmode ||| (mode &&& node.mask))
  | .remove => do
    let mode ← operandsModeInMemory originalMode 0#32 (← node.mode.operands)
    pure (tgtmode &&& (~~~0o777#32 ||| ~~~(mode &&& node.mask)))
  | .octal => do
    let value ← node.mode.octal
    pure ((tgtmode &&& ~~~0o777#32) ||| value)
  | .inert => .error .assertion

def skipsNodeInMemory (tgtmode : Mode) (node : StoredNode) : Bool :=
  node.op = .inert || (S_ISDIR tgtmode && !node.flags.dirs)
    || (!S_ISDIR tgtmode && !node.flags.files)

def applyNodesInMemory (originalMode tgtmode : Mode) : List StoredNode → Except MemoryFault Mode
  | [] => .ok tgtmode
  | node :: rest =>
    if skipsNodeInMemory tgtmode node then applyNodesInMemory originalMode tgtmode rest
    else
      match applyNodeInMemory originalMode tgtmode node with
      | .ok tgtmode => applyNodesInMemory originalMode tgtmode rest
      | .error fault => .error fault

def permchainApplyInMemory (pc : List StoredNode) (tgtmode : Mode) : Except MemoryFault Mode :=
  applyNodesInMemory tgtmode tgtmode pc

/-! ## Nodes laid out in memory -/

/-- The 16 bytes of `as_operands`: the letters written so far, then the NULs of the `memset`. -/
def filled (operands : CString) : List Char :=
  operands ++ List.replicate (16 - operands.length) NUL

def PermMode.stored : PermMode → StoredMode
  | .asOperands operands => .asOperands (filled operands)
  | .asOctal value => .asOctal value

def PermMode.written : PermMode → Nat
  | .asOperands operands => operands.length
  | .asOctal _ => 0

def storedNode (node : PermNode) : StoredNode :=
  { op := node.op, flags := node.flags, mask := node.mask, mode := node.mode.stored }

/-- The scanner's variables when it has written the operands of `node`. -/
def layout (state : ScanState) (node : PermNode) : MemoryScan :=
  ⟨state, storedNode node, node.mode.written⟩

section Operands
variable {operands : CString}

/-- Ten letters exist, so that distinct ones leave room for a terminator. -/
theorem operands_length_le (distinct : operands.Nodup)
    (letters : ∀ c ∈ operands, c ∈ operandLetters) : operands.length ≤ 10 :=
  (List.subperm_of_subset distinct letters).length_le

theorem PermMode.Matches.room {op : PermOp} (matching : (PermMode.asOperands operands).Matches op) :
    operands.length < 16 :=
  Nat.lt_of_le_of_lt (operands_length_le matching.2.1 matching.2.2) (by decide)

theorem ne_NUL_of_letter {c : Char} (letter : c ∈ operandLetters) : c ≠ NUL := by
  rintro rfl
  revert letter
  decide

theorem filled_eq_terminated (room : operands.length < 16) :
    filled operands = operands ++ NUL :: List.replicate (15 - operands.length) NUL := by
  have count : 16 - operands.length = (15 - operands.length) + 1 := by omega
  rw [filled, count, List.replicate_succ]

/-- Writing at `operands_ptr` replaces the first terminator by the new letter. -/
theorem filled_set (room : operands.length < 16) (c : Char) :
    (filled operands).set operands.length c = filled (operands ++ [c]) := by
  have count : 16 - (operands ++ [c]).length = 15 - operands.length := by
    rw [List.length_append, List.length_singleton]
    omega
  rw [filled_eq_terminated room, filled, count, List.set_append_right _ _ (Nat.le_refl _)]
  simp

theorem filled_length (room : operands.length < 16) : (filled operands).length = 16 := by
  rw [filled, List.length_append, List.length_replicate]
  omega

/-- The search stops at a match or at the first terminator. -/
theorem strchr_terminated {c : Char} (operands tail : List Char)
    (plain : ∀ a ∈ operands, a ≠ NUL) (searched : c ≠ NUL) :
    strchr c (operands ++ NUL :: tail) = .ok (decide (c ∈ operands)) := by
  induction operands with
  | nil => simp [strchr, searched.symm]
  | cons a rest ih =>
    rw [List.forall_mem_cons] at plain
    rw [List.cons_append, strchr]
    by_cases same : a = c
    · simp [same]
    · rw [if_neg same, if_neg plain.1, ih plain.2]
      simp [Ne.symm same]

theorem operandsModeInMemory_terminated (originalMode mode : Mode) (operands tail : List Char)
    (letters : ∀ c ∈ operands, c ∈ operandLetters) {bits : Mode}
    (computed : operandsMode originalMode mode operands = some bits) :
    operandsModeInMemory originalMode mode (operands ++ NUL :: tail) = .ok bits := by
  induction operands generalizing mode with
  | nil =>
    cases computed
    simp [operandsModeInMemory]
  | cons c rest ih =>
    rw [List.forall_mem_cons] at letters
    rw [List.cons_append, operandsModeInMemory, if_neg (ne_NUL_of_letter letters.1)]
    rw [operandsMode] at computed
    cases found : operandMode originalMode c with
    | none =>
      rw [found] at computed
      cases computed
    | some more =>
      simp only [found] at computed ⊢
      exact ih _ letters.2 computed

end Operands

/-! ## The parser builds the stored chain -/

theorem addOperandInMemory_layout {node : PermNode} (scanning : Scanning node) {c : Char}
    (letter : c ∈ operandLetters) (state : ScanState) :
    addOperandInMemory (layout state node) c = .ok (layout state (addOperand node c)) := by
  obtain ⟨operands, same⟩ := scanning.symbolic
  have matching := scanning.mode_matches
  rw [same] at matching
  have room := matching.room
  obtain ⟨-, -, letters⟩ := matching
  have search : strchr c (filled operands) = .ok (decide (c ∈ operands)) := by
    rw [filled_eq_terminated room]
    exact strchr_terminated _ _ (fun a member => ne_NUL_of_letter (letters a member))
      (ne_NUL_of_letter letter)
  have bytes : (layout state node).node.mode = .asOperands (filled operands) := by
    simp [layout, storedNode, same, PermMode.stored]
  have pointer : (layout state node).operandsPtr = operands.length := by
    simp [layout, same, PermMode.written]
  by_cases known : c ∈ operands
  · simp [addOperandInMemory, bytes, search, known, addOperand, same, bind, Except.bind, pure,
      Except.pure]
  · simp only [addOperandInMemory, bytes, search, pointer, filled_length room, room, known,
      decide_false, Bool.false_eq_true, if_false, if_true, bind, Except.bind, pure, Except.pure,
      filled_set room, addOperand, same]
    simp [layout, storedNode, PermMode.stored, PermMode.written]

/-- One character in memory is one character of `scanChar`. -/
theorem scanCharInMemory_layout (atStart : Bool) (state : ScanState) {node : PermNode}
    (scanning : Scanning node) (c : Char) :
    scanCharInMemory atStart (layout state node) c =
      .ok ((scanChar atStart state node c).map fun scan => layout scan.1 scan.2) := by
  cases state with
  | lhs =>
    unfold scanCharInMemory scanChar
    dsimp only [layout]
    split <;> try rfl
    simp only [Option.map_map]
    rfl
  | rhs =>
    simp only [scanCharInMemory, scanChar, layout]
    by_cases letter : c ∈ operandLetters
    · have added := addOperandInMemory_layout scanning letter .rhs
      rw [layout] at added
      rw [if_pos letter, if_pos letter, added]
      rfl
    · rw [if_neg letter, if_neg letter]
      rfl

/-- A whole scan: it ends where `scanRule` ends, and in between the operands of the node in
memory are always those of a node that is being scanned. -/
theorem scanRuleInMemory_layout (clause : CString) (atStart : Bool) (state : ScanState)
    {node : PermNode} (scanning : Scanning node) :
    ∃ final : Option (ScanState × PermNode),
      scanRuleInMemory atStart (layout state node) clause =
          .ok (final.map fun scan => layout scan.1 scan.2) ∧
        scanRule atStart state node clause = final.map Prod.snd ∧
          ∀ scan ∈ final, Scanning scan.2 := by
  induction clause generalizing atStart state node with
  | nil => exact ⟨some (state, node), rfl, rfl, by simpa using scanning⟩
  | cons c rest ih =>
    rw [scanRuleInMemory, scanCharInMemory_layout atStart state scanning, scanRule]
    cases step : scanChar atStart state node c with
    | none => exact ⟨none, rfl, rfl, by simp⟩
    | some scan => exact ih false scan.1 (scanChar_scanning scanning step)

theorem scanning_create : Scanning { permchainCreate with flags := ⟨false, false⟩ } :=
  ⟨⟨wellFormed_create.mask_within, wellFormed_create.mode_matches⟩, [], rfl⟩

theorem startOfScan_eq_layout :
    startOfScan = layout .lhs { permchainCreate with flags := ⟨false, false⟩ } := rfl

theorem storedNode_defaultFlags (node : PermNode) :
    storedNode (defaultFlags node) =
      if (storedNode node).flags = ⟨false, false⟩ then
        { storedNode node with flags := PC_FLAGS_DEFAULT }
      else storedNode node := by
  by_cases unset : node.flags = ⟨false, false⟩
  · simp [defaultFlags, storedNode, unset]
  · simp [defaultFlags, storedNode, unset]

/-- A result of one of the parsers, laid out in memory. -/
def storedResult (added : Int × PermNodes) : Int × List StoredNode :=
  (added.1, added.2.map storedNode)

theorem addChmodRuleInMemory_stored (clause : CString) (pc : PermNodes) :
    addChmodRuleInMemory clause (pc.map storedNode) =
      .ok (storedResult (addChmodRuleToPermchain clause pc)) := by
  obtain ⟨final, inMemory, onNodes, -⟩ := scanRuleInMemory_layout clause true .lhs scanning_create
  simp only [addChmodRuleInMemory, addChmodRuleToPermchain, startOfScan_eq_layout, inMemory, onNodes]
  cases final with
  | none => rfl
  | some scan =>
    simp only [Option.map_some, storedResult, permchainCat, List.map_append, List.map_cons,
      List.map_nil, storedNode_defaultFlags]
    rfl

theorem addOctalRuleInMemory_stored (clause : CString) (pc : PermNodes) :
    addOctalRuleInMemory clause (pc.map storedNode) =
      storedResult (addOctalRuleToPermchain clause pc) := by
  unfold addOctalRuleInMemory addOctalRuleToPermchain
  dsimp only
  split
  · rfl
  · simp [storedResult, permchainCat, storedNode, PermMode.stored, permchainCreateInMemory,
      permchainCreate]

theorem addRuleInMemory_stored (clause : CString) (pc : PermNodes) :
    addRuleInMemory clause (pc.map storedNode) =
      .ok (storedResult (addRuleToPermchain clause pc)) := by
  unfold addRuleInMemory addRuleToPermchain
  rw [startsWithDigit]
  split
  · rw [addOctalRuleInMemory_stored]
  · rw [addChmodRuleInMemory_stored]

theorem addClauseInMemory_stored (newpc : PermNodes) (clause : CString) :
    addClauseInMemory (.ok (newpc.map storedNode)) clause =
      (addClause newpc clause).map fun newpc => .ok (newpc.map storedNode) := by
  simp only [addClauseInMemory, addClause, addRuleInMemory_stored, storedResult]
  split
  · rfl
  · split
    · rfl
    · rfl

theorem clausesInMemory_stored (parts : List CString) (newpc : PermNodes) :
    parts.foldlM addClauseInMemory (.ok (newpc.map storedNode)) =
      (parts.foldlM addClause newpc).map fun newpc => .ok (newpc.map storedNode) := by
  induction parts generalizing newpc with
  | nil => rfl
  | cons clause rest ih =>
    rw [List.foldlM_cons, List.foldlM_cons, addClauseInMemory_stored]
    cases addClause newpc clause with
    | none => rfl
    | some newpc => exact ih newpc

/-- The parser in memory never faults and builds the stored nodes of the chain. -/
theorem addChmodRulesInMemory_stored (rule : CString) (pc : PermNodes) :
    addChmodRulesInMemory rule (pc.map storedNode) =
      .ok (storedResult (addChmodRulesToPermchain rule pc)) := by
  have fresh : [permchainCreateInMemory] = [permchainCreate].map storedNode := rfl
  unfold addChmodRulesInMemory addChmodRulesToPermchain rulesLoop
  rw [Lib.Segments.scan_eq_foldlM, Lib.Segments.scan_eq_foldlM, fresh, clausesInMemory_stored]
  cases (Lib.Segments.segments isSeparator rule).foldlM addClause [permchainCreate] with
  | none => rfl
  | some newpc => simp [storedResult, permchainCat]

/-- A call leaves a well-formed chain, whether it adds its rules or fails. -/
theorem wellFormed_of_call (pc : Permchain) (rule : CString) :
    ∀ node ∈ (addChmodRulesToPermchain rule pc.nodes).2, node.WellFormed := by
  cases outcome : rulesLoop [permchainCreate] rule with
  | none =>
    simp only [addChmodRulesToPermchain, outcome]
    exact pc.wellFormed
  | some newpc =>
    have added : addChmodRulesToPermchain rule pc.nodes = (0, permchainCat pc.nodes newpc) := by
      simp only [addChmodRulesToPermchain, outcome]
    rw [added]
    exact pc.wellFormed_of_added rule added

/-- Any number of calls build a stored chain, without a fault. -/
theorem buildInMemory_stored (rules : List CString) :
    ∃ pc : Permchain, buildInMemory rules = .ok (pc.nodes.map storedNode) := by
  have calls : ∀ (rules : List CString) (pc : Permchain), ∃ out : Permchain,
      rules.foldlM (fun pc rule => (addChmodRulesInMemory rule pc).map Prod.snd)
        (pc.nodes.map storedNode) = .ok (out.nodes.map storedNode) := by
    intro rules
    induction rules with
    | nil => exact fun pc => ⟨pc, rfl⟩
    | cons rule rest ih =>
      intro pc
      rw [List.foldlM_cons, addChmodRulesInMemory_stored]
      exact ih ⟨_, wellFormed_of_call pc rule⟩
  exact calls rules Permchain.create

/-! ## The interpreter on stored nodes -/

theorem skipsNodeInMemory_stored (tgtmode : Mode) (node : PermNode) :
    skipsNodeInMemory tgtmode (storedNode node) = skipsNode tgtmode node := rfl

theorem operandsModeInMemory_stored {op : PermOp} {operands : CString}
    (matching : (PermMode.asOperands operands).Matches op) {originalMode bits : Mode}
    (computed : operandsMode originalMode 0#32 operands = some bits) :
    operandsModeInMemory originalMode 0#32 (filled operands) = .ok bits := by
  have room := matching.room
  obtain ⟨-, -, letters⟩ := matching
  rw [filled_eq_terminated room]
  exact operandsModeInMemory_terminated originalMode 0#32 operands _ letters computed

theorem applyNodeInMemory_stored {originalMode tgtmode out : Mode} {node : PermNode}
    (wf : node.WellFormed) (applied : applyNode originalMode tgtmode node = some out) :
    applyNodeInMemory originalMode tgtmode (storedNode node) = .ok out := by
  have matching := wf.mode_matches
  unfold applyNode at applied
  split at applied
  case h_4 value op octal =>
    cases applied
    simp [applyNodeInMemory, storedNode, op, octal, PermMode.stored, StoredMode.octal, bind,
      Except.bind, pure, Except.pure]
  case h_5 => cases applied
  all_goals
    rename_i operands op symbolic
    rw [symbolic] at matching
    obtain ⟨bits, computed, rfl⟩ := Option.map_eq_some_iff.mp applied
    simp [applyNodeInMemory, storedNode, op, symbolic, PermMode.stored, StoredMode.operands,
      operandsModeInMemory_stored matching computed, bind, Except.bind, pure, Except.pure]

theorem applyNodesInMemory_stored {originalMode out : Mode} (nodes : PermNodes)
    (wf : ∀ node ∈ nodes, node.WellFormed) (tgtmode : Mode)
    (applied : applyNodes originalMode tgtmode nodes = some out) :
    applyNodesInMemory originalMode tgtmode (nodes.map storedNode) = .ok out := by
  induction nodes generalizing tgtmode with
  | nil =>
    cases applied
    rfl
  | cons node rest ih =>
    rw [List.forall_mem_cons] at wf
    rw [applyNodes] at applied
    rw [List.map_cons, applyNodesInMemory, skipsNodeInMemory_stored]
    split
    · rename_i skipped
      rw [if_pos skipped] at applied
      exact ih wf.2 tgtmode applied
    · rename_i active
      rw [if_neg active] at applied
      split at applied
      · rename_i step
        rw [applyNodeInMemory_stored wf.1 step]
        exact ih wf.2 _ applied
      · cases applied

/-- On a stored chain the interpreter neither aborts nor leaves the 16 bytes, and computes
what `permchainApply` does. -/
theorem permchainApplyInMemory_stored (pc : Permchain) (mode : Mode) :
    permchainApplyInMemory (pc.nodes.map storedNode) mode = .ok (pc.apply mode) :=
  applyNodesInMemory_stored pc.nodes pc.wellFormed mode (pc.apply_eq mode)

end Bindfs.Source
