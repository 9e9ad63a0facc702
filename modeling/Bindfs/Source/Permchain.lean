import Bindfs.Source.Libc
import Bindfs.Source.Misc

/-!
# permchain.c: permission rules and their interpreter

A chain is the list of its nodes from the head on. The union `mode` of a node is a sum
type, so reading the member that was not written, like reaching `assert(0)`, is a visible
outcome (`none`) of the interpreter. Debug output and failing allocations are left out.
-/
namespace Bindfs.Source

/-- `char op`; `inert` is the '\0' of a freshly created node. -/
inductive PermOp where
  | inert | assign | add | remove | octal
  deriving DecidableEq, Repr

/-- `PC_APPLY_FILES` and `PC_APPLY_DIRS`. -/
structure PermFlags where
  files : Bool
  dirs : Bool
  deriving DecidableEq, Repr

def PC_FLAGS_DEFAULT : PermFlags := ⟨true, true⟩

inductive PermMode where
  | asOperands (operands : CString)
  | asOctal (value : Mode)
  deriving DecidableEq, Repr

structure PermNode where
  op : PermOp
  flags : PermFlags
  mask : Mode
  mode : PermMode
  deriving DecidableEq, Repr

/-- A `struct permchain *`: the nodes reachable through `next`. -/
abbrev PermNodes := List PermNode

def permchainCreate : PermNode :=
  { op := .inert, flags := PC_FLAGS_DEFAULT, mask := 0#32, mode := .asOperands [] }

def permchainCat (left right : PermNodes) : PermNodes := left ++ right

/-! ## Parsing one rule -/

inductive ScanState where
  | lhs | rhs
  deriving DecidableEq, Repr

def operandLetters : List Char := ['r', 'w', 'x', 'X', 'D', 's', 't', 'u', 'g', 'o']

/-- Append an operand letter unless `strchr` finds it in `as_operands`. -/
def addOperand (node : PermNode) (c : Char) : PermNode :=
  match node.mode with
  | .asOperands operands =>
    if c ∈ operands then node else { node with mode := .asOperands (operands ++ [c]) }
  | .asOctal _ => node

def operatorOf : Char → Option PermOp
  | '=' => some .assign
  | '+' => some .add
  | '-' => some .remove
  | _ => none

/-- The body of the scanner's loop for the character `*p`; `atStart` is `p == buf`. -/
def scanChar (atStart : Bool) (state : ScanState) (node : PermNode) (c : Char) :
    Option (ScanState × PermNode) :=
  match state with
  | .lhs =>
    match c with
    | 'u' => some (.lhs, { node with mask := node.mask ||| 0o700#32 })
    | 'g' => some (.lhs, { node with mask := node.mask ||| 0o070#32 })
    | 'o' => some (.lhs, { node with mask := node.mask ||| 0o007#32 })
    | 'a' => some (.lhs, { node with mask := 0o777#32 })
    | 'f' => some (.lhs, { node with flags := { node.flags with files := true } })
    | 'd' => some (.lhs, { node with flags := { node.flags with dirs := true } })
    | _ =>
      (operatorOf c).map fun op =>
        -- first char -> default to 'a'
        (.rhs, { node with op := op, mask := if atStart then 0o777#32 else node.mask })
  | .rhs => if c ∈ operandLetters then some (.rhs, addOperand node c) else none

def scanRule (atStart : Bool) (state : ScanState) (node : PermNode) : CString → Option PermNode
  | [] => some node
  | c :: rest =>
    match scanChar atStart state node c with
    | some (state, node) => scanRule false state node rest
    | none => none

/-- Flags start at zero and fall back to the default when no letter set one. -/
def defaultFlags (node : PermNode) : PermNode :=
  if node.flags = ⟨false, false⟩ then { node with flags := PC_FLAGS_DEFAULT } else node

/-- `add_chmod_rule_to_permchain`: its return value and the chain afterwards. -/
def addChmodRuleToPermchain (clause : CString) (pc : PermNodes) : Int × PermNodes :=
  let newpc := { permchainCreate with flags := ⟨false, false⟩ }
  match scanRule true .lhs newpc clause with
  | some node => (0, permchainCat pc [defaultFlags node])
  | none => (-1, pc)

/-- `add_octal_rule_to_permchain`. The end pointer of `strtol` is not looked at. -/
def addOctalRuleToPermchain (clause : CString) (pc : PermNodes) : Int × PermNodes :=
  let mode := (strtol 8 clause).1
  if mode < 0 ∨ mode > 0o777 then (-1, pc)
  else
    let newpc := { permchainCreate with
      mask := 0o777#32
      op := .octal
      mode := .asOctal (BitVec.ofInt 32 mode) }
    (0, permchainCat pc [newpc])

/-! ## Parsing a list of rules -/

/-- The branch on `isdigit(*start)`. -/
def addRuleToPermchain (clause : CString) (pc : PermNodes) : Int × PermNodes :=
  if (clause.head?.map Char.isDigit).getD false then addOctalRuleToPermchain clause pc
  else addChmodRuleToPermchain clause pc

/-- The body of the outer loop, once the inner one has found the end of the clause. -/
def addClause (newpc : PermNodes) (clause : CString) : Option PermNodes :=
  if clause = [] then none -- start == end: empty rule
  else
    let added := addRuleToPermchain clause newpc
    if added.1 ≠ 0 then none else some added.2

/-- The outer loop. `start` and `end` coincide whenever its condition is tested, so one
suffix of the rule string is the whole loop state beside the private chain. -/
def rulesLoop (newpc : PermNodes) (input : CString) : Option PermNodes :=
  Lib.Segments.scan isSeparator addClause newpc input

/-- `add_chmod_rules_to_permchain`: its return value and the chain afterwards. -/
def addChmodRulesToPermchain (rule : CString) (pc : PermNodes) : Int × PermNodes :=
  match rulesLoop [permchainCreate] rule with
  | some newpc => (0, permchainCat pc newpc)
  | none => (-1, pc)

/-! ## The interpreter -/

/-- Three permission bits copied to all classes, e.g. 5 -> 0555. -/
def modebitsToAll (perms : Mode) : Mode := perms ||| (perms <<< 3) ||| (perms <<< 6)

/-- What one operand contributes to `mode`; `none` is the `assert(0)` of the switch. -/
def operandMode (originalMode : Mode) : Char → Option Mode
  | 'r' => some 0o444#32
  | 'w' => some 0o222#32
  | 'x' => some 0o111#32
  | 'X' =>
    some (if S_ISDIR originalMode || originalMode &&& 0o111#32 ≠ 0#32 then 0o111#32 else 0#32)
  | 'D' => some (if S_ISDIR originalMode then 0o111#32 else 0#32)
  | 's' => some 0#32
  | 't' => some 0#32
  | 'u' => some (modebitsToAll ((originalMode &&& 0o700#32) >>> 6))
  | 'g' => some (modebitsToAll ((originalMode &&& 0o070#32) >>> 3))
  | 'o' => some (modebitsToAll (originalMode &&& 0o007#32))
  | _ => none

/-- The loop over `as_operands`, accumulating into `mode`. -/
def operandsMode (originalMode mode : Mode) : CString → Option Mode
  | [] => some mode
  | c :: rest =>
    match operandMode originalMode c with
    | some bits => operandsMode originalMode (mode ||| bits) rest
    | none => none

/-- The two tests that make the interpreter pass over a node. -/
def skipsNode (tgtmode : Mode) (node : PermNode) : Bool :=
  node.op = .inert || (S_ISDIR tgtmode && !node.flags.dirs)
    || (!S_ISDIR tgtmode && !node.flags.files)

/-- One iteration of `permchain_apply` for a node it does not skip. -/
def applyNode (originalMode tgtmode : Mode) (node : PermNode) : Option Mode :=
  match node.op, node.mode with
  | .assign, .asOperands operands =>
    (operandsMode originalMode 0#32 operands).map fun mode =>
      (tgtmode &&& ~~~node.mask) ||| (mode &&& node.mask)
  | .add, .asOperands operands =>
    (operandsMode originalMode 0#32 operands).map fun mode => tgtmode ||| (mode &&& node.mask)
  | .remove, .asOperands operands =>
    (operandsMode originalMode 0#32 operands).map fun mode =>
      tgtmode &&& (~~~0o777#32 ||| ~~~(mode &&& node.mask))
  | .octal, .asOctal value => some ((tgtmode &&& ~~~0o777#32) ||| value)
  | _, _ => none

def applyNodes (originalMode tgtmode : Mode) : PermNodes → Option Mode
  | [] => some tgtmode
  | node :: rest =>
    if skipsNode tgtmode node then applyNodes originalMode tgtmode rest
    else
      match applyNode originalMode tgtmode node with
      | some tgtmode => applyNodes originalMode tgtmode rest
      | none => none

/-- `permchain_apply`; `none` stands for an aborted process. -/
def permchainApply (pc : PermNodes) (tgtmode : Mode) : Option Mode :=
  applyNodes tgtmode tgtmode pc

end Bindfs.Source
