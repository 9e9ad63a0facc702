import Bindfs.Lib.OwnedStructures
import Bindfs.Source.MapParsing
import Bindfs.Source.Permchain
import Bindfs.Source.UserCache

/-!
# The settings in memory

The permission rules and the id maps of the settings live from the start of `main` to
`atexit_func`. Here they are as the source has them: a chain of `struct permchain` linked
through `next`, walked from its head each time, and for each kind of id two parallel arrays that
`realloc` doubles. An array element is `none` until it is written; to read it then, like an
access outside the array, through NULL or to freed memory, is a misuse of the heap, and so is
an `int` that overflows. A loop through a chain that makes more steps than addresses were ever
handed out is caught in a circle and counts as one too.

Failing allocations are left out. The bytes of `as_operands` are those of `PermchainMemory`.
-/
namespace Bindfs.Source
open Bindfs.Lib.Effects Bindfs.Lib.OwnedCells Bindfs.Lib.OwnedStructures

instance : Inhabited PermNode := ⟨permchainCreate⟩

/-- The members of `struct UserMap` for one kind of id. -/
structure IdArrays where
  fromIds : Option Nat
  toIds : Option Nat
  capacity : Nat
  size : Nat
  deriving DecidableEq, Repr, Inhabited

/-- `struct UserMap`. -/
structure UserMapRecord where
  users : IdArrays
  groups : IdArrays
  deriving DecidableEq, Repr, Inhabited

def UserMapRecord.arrays (record : UserMapRecord) : IdKind → IdArrays
  | .uid => record.users
  | .gid => record.groups

def UserMapRecord.setArrays (record : UserMapRecord) (arrays : IdArrays) : IdKind → UserMapRecord
  | .uid => { record with users := arrays }
  | .gid => { record with groups := arrays }

inductive SettingsCell where
  | node (content : PermNode) (next : Option Nat)
  | text (content : CString)
  | record (content : UserMapRecord)
  | ids (content : List (Option Id))
  deriving DecidableEq, Repr

def SettingsCell.node? : SettingsCell → Option (PermNode × Option Nat)
  | .node content next => some (content, next)
  | _ => none

def SettingsCell.text? : SettingsCell → Option CString
  | .text content => some content
  | _ => none

def SettingsCell.record? : SettingsCell → Option UserMapRecord
  | .record content => some content
  | _ => none

def SettingsCell.ids? : SettingsCell → Option (List (Option Id))
  | .ids content => some content
  | _ => none

/-- An element that was written. -/
def SettingsCell.id? (i : Nat) : SettingsCell → Option Id
  | .ids content => content[i]?.join
  | _ => none

/-- An array that has an element `i`. -/
def SettingsCell.arrayAt? (i : Nat) : SettingsCell → Option (List (Option Id))
  | .ids content => if i < content.length then some content else none
  | _ => none

section
variable {W C E : Type}

abbrev SettingsMem (W C E α : Type) := Eff (W × Heap SettingsCell) C E α

/-! ## permchain.c -/

def permchainCreateAt : SettingsMem W C E Nat := acquire (.node permchainCreate none)

def catLoop (right : Nat) : Nat → Nat → SettingsMem W C E Unit
  | 0, _ => nullAccess
  | fuel + 1, left => do
    let (content, next) ← load SettingsCell.node? left
    match next with
    | some next => catLoop right fuel next
    | none => store left (.node content (some right))

def permchainCatAt (left right : Nat) : SettingsMem W C E Unit := do
  let fuel ← handedOut
  catLoop right fuel left

def destroyLoop : Nat → Option Nat → SettingsMem W C E Unit
  | _, none => pure ()
  | 0, some _ => nullAccess
  | fuel + 1, some pc => do
    let (_, next) ← load SettingsCell.node? pc
    release pc
    destroyLoop fuel next

def permchainDestroyAt (pc : Nat) : SettingsMem W C E Unit := do
  let fuel ← handedOut
  destroyLoop fuel (some pc)

/-- The code behind the label `error`. -/
def catOrDestroyAt (accepted : Bool) (pc newpc : Nat) : SettingsMem W C E Unit :=
  if accepted then permchainCatAt pc newpc else permchainDestroyAt newpc

/-- The loop over `buf`. The rule is scanned into the node where it lies. -/
def scanRuleAt (newpc : Nat) : Bool → ScanState → CString → SettingsMem W C E Bool
  | _, _, [] => pure true
  | atStart, state, c :: rest => do
    let (node, next) ← load SettingsCell.node? newpc
    match scanChar atStart state node c with
    | some (state, node) => do
      store newpc (.node node next)
      scanRuleAt newpc false state rest
    | none => pure false

def addChmodRuleAt (clause : CString) (pc : Nat) : SettingsMem W C E Int := do
  let buf ← acquire (.text clause)
  let newpc ← permchainCreateAt
  store newpc (.node { permchainCreate with flags := ⟨false, false⟩ } none)
  let text ← load SettingsCell.text? buf
  let accepted ← scanRuleAt newpc true .lhs text
  let (node, next) ← load SettingsCell.node? newpc
  store newpc (.node (defaultFlags node) next)
  catOrDestroyAt accepted pc newpc
  release buf
  pure (if accepted then 0 else -1)

/-- The node of an octal rule. -/
def asOctalRule (node : PermNode) (mode : Int) : PermNode :=
  { node with mask := 0o777#32, op := .octal, mode := .asOctal (BitVec.ofInt 32 mode) }

def addOctalRuleAt (clause : CString) (pc : Nat) : SettingsMem W C E Int := do
  let buf ← acquire (.text clause)
  let newpc ← permchainCreateAt
  let text ← load SettingsCell.text? buf
  let mode := (strtol 8 text).1
  release buf
  if mode < 0 ∨ mode > 0o777 then do
    permchainDestroyAt newpc
    pure (-1)
  else do
    let (node, next) ← load SettingsCell.node? newpc
    store newpc (.node (asOctalRule node mode) next)
    permchainCatAt pc newpc
    pure 0

/-- The branch on `isdigit(*start)`. -/
def addRuleAt (clause : CString) (pc : Nat) : SettingsMem W C E Int :=
  if (clause.head?.map Char.isDigit).getD false then addOctalRuleAt clause pc
  else addChmodRuleAt clause pc

/-- The body of the outer loop: whether the loop goes on. -/
def addClauseAt (newpc : Nat) (clause : CString) : SettingsMem W C E Bool :=
  if clause = [] then pure false
  else do
    let ret ← addRuleAt clause newpc
    pure (ret = 0)

def rulesLoopAt (newpc : Nat) (input : CString) : SettingsMem W C E Bool :=
  match input with
  | [] => pure true
  | a :: as => do
    let added ← addClauseAt newpc ((a :: as).takeWhile fun c => !isSeparator c)
    let finish := (a :: as).dropWhile fun c => !isSeparator c
    if added = false then pure false
    else if finish = [] then pure true
    else rulesLoopAt newpc finish.tail
termination_by input.length
decreasing_by
  have shorter := (List.dropWhile_sublist (fun c => !isSeparator c) (l := a :: as)).length_le
  rw [List.length_cons] at shorter
  rw [List.length_tail, List.length_cons]
  omega

def addChmodRulesAt (rule : CString) (pc : Nat) : SettingsMem W C E Int := do
  let newpc ← permchainCreateAt
  let accepted ← rulesLoopAt newpc rule
  catOrDestroyAt accepted pc newpc
  pure (if accepted then 0 else -1)

def applyLoop (originalMode : Mode) : Nat → Mode → Option Nat → SettingsMem W C E (Option Mode)
  | _, tgtmode, none => pure (some tgtmode)
  | 0, _, some _ => nullAccess
  | fuel + 1, tgtmode, some pc => do
    let (node, next) ← load SettingsCell.node? pc
    if skipsNode tgtmode node then applyLoop originalMode fuel tgtmode next
    else
      match applyNode originalMode tgtmode node with
      | some tgtmode => applyLoop originalMode fuel tgtmode next
      | none => pure none

def permchainApplyAt (pc : Nat) (tgtmode : Mode) : SettingsMem W C E (Option Mode) := do
  let fuel ← handedOut
  applyLoop tgtmode fuel tgtmode (some pc)

/-! ## usermap.c -/

def usermapCreateAt : SettingsMem W C E Nat := acquire (.record ⟨⟨none, none, 0, 0⟩, ⟨none, none, 0, 0⟩⟩)

/-- `free(NULL)` does nothing. -/
def freeIds : Option Nat → SettingsMem W C E Unit
  | none => pure ()
  | some p => release p

def usermapDestroyAt (map : Nat) : SettingsMem W C E Unit := do
  let record ← load SettingsCell.record? map
  freeIds record.users.fromIds
  freeIds record.users.toIds
  freeIds record.groups.fromIds
  freeIds record.groups.toIds
  release map

/-- `realloc`, for `count` ids. -/
def reallocIds (ids : Option Nat) (count : Nat) : SettingsMem W C E Nat :=
  match ids with
  | none => acquire (.ids (List.replicate count none))
  | some p => do
    let content ← load SettingsCell.ids? p
    release p
    acquire (.ids (content.take count ++ List.replicate (count - content.length) none))

def grownCapacity (capacity : Nat) : SettingsMem W C E Nat :=
  if capacity = 0 then pure 8
  else if capacity * 2 ≤ INT_MAX then pure (capacity * 2)
  else nullAccess

def growIds (arrays : IdArrays) : SettingsMem W C E IdArrays :=
  if arrays.size = arrays.capacity then do
    let capacity ← grownCapacity arrays.capacity
    let fromIds ← reallocIds arrays.fromIds capacity
    let toIds ← reallocIds arrays.toIds capacity
    pure ⟨some fromIds, some toIds, capacity, arrays.size⟩
  else pure arrays

def readId (ids : Option Nat) (i : Nat) : SettingsMem W C E Id :=
  match ids with
  | none => nullAccess
  | some p => load (SettingsCell.id? i) p

def writeId (ids : Option Nat) (i : Nat) (id : Id) : SettingsMem W C E Unit :=
  match ids with
  | none => nullAccess
  | some p => do
    let content ← load (SettingsCell.arrayAt? i) p
    store p (.ids (content.set i (some id)))

/-- The two writes behind the last entry. -/
def writePair (arrays : IdArrays) (fromId toId : Id) : SettingsMem W C E Unit := do
  writeId arrays.fromIds arrays.size fromId
  writeId arrays.toIds arrays.size toId

/-- The loop of `usermap_get_uid_or_default` and its sibling, with `left` elements to go. -/
def lookupLoop (arrays : IdArrays) (id deflt : Id) : Nat → Nat → SettingsMem W C E Id
  | 0, _ => pure deflt
  | left + 1, i => do
    let found ← readId arrays.fromIds i
    if found = id then readId arrays.toIds i else lookupLoop arrays id deflt left (i + 1)

/-- `usermap_get_uid_or_default` and `usermap_get_gid_or_default`. -/
def usermapGetOrDefaultAt (kind : IdKind) (map : Nat) (id deflt : Id) : SettingsMem W C E Id := do
  let record ← load SettingsCell.record? map
  lookupLoop (record.arrays kind) id deflt (record.arrays kind).size 0

/-- `usermap_add_uid` and `usermap_add_gid`. The arrays grow before a second entry is refused. -/
def usermapAddAt (kind : IdKind) (map : Nat) (fromId toId : Id) : SettingsMem W C E UsermapStatus :=
  if fromId = toId then pure .ok
  else do
    let record ← load SettingsCell.record? map
    let arrays ← growIds (record.arrays kind)
    store map (.record (record.setArrays arrays kind))
    let found ← usermapGetOrDefaultAt kind map fromId noId
    if found ≠ noId then pure .duplicateKey
    else do
      let record ← load SettingsCell.record? map
      let arrays := record.arrays kind
      writePair arrays fromId toId
      store map (.record (record.setArrays { arrays with size := arrays.size + 1 } kind))
      pure .ok

/-! ## The lifetime of the settings -/

inductive ChainName where
  | permchain | createPermchain | chmodPermchain
  deriving DecidableEq, Repr

inductive MapName where
  | usermap | usermapReverse
  deriving DecidableEq, Repr

/-- The pointers in `settings`. -/
structure SettingsPointers where
  chain : ChainName → Nat
  map : MapName → Nat

/-- What the parsers of `main` and the handlers do with the rules and the maps. -/
inductive SettingsUse where
  | addRules (chain : ChainName) (rule : CString)
  | applyRules (chain : ChainName) (mode : Mode)
  | addId (map : MapName) (kind : IdKind) (fromId toId : Id)
  | lookUp (map : MapName) (kind : IdKind) (id deflt : Id)
  deriving DecidableEq, Repr

/-- The calls of `usermap_add_uid` and `usermap_add_gid`. -/
def SettingsUse.isAdd : SettingsUse → Bool
  | .addId .. => true
  | _ => false

inductive UseReply where
  | status (code : Int)
  | mode (result : Option Mode)
  | added (status : UsermapStatus)
  | id (found : Id)
  deriving DecidableEq, Repr

def SettingsUse.runAt (pointers : SettingsPointers) : SettingsUse → SettingsMem W C E UseReply
  | .addRules chain rule => do return .status (← addChmodRulesAt rule (pointers.chain chain))
  | .applyRules chain mode => do return .mode (← permchainApplyAt (pointers.chain chain) mode)
  | .addId map kind fromId toId => do return .added (← usermapAddAt kind (pointers.map map) fromId toId)
  | .lookUp map kind id deflt => do return .id (← usermapGetOrDefaultAt kind (pointers.map map) id deflt)

def usesAt (pointers : SettingsPointers) : List SettingsUse → SettingsMem W C E (List UseReply)
  | [] => pure []
  | use :: rest => do
    let reply ← use.runAt pointers
    let replies ← usesAt pointers rest
    pure (reply :: replies)

/-- The allocations at the start of `main`. -/
def createSettingsAt : SettingsMem W C E SettingsPointers := do
  let permchain ← permchainCreateAt
  let usermap ← usermapCreateAt
  let usermapReverse ← usermapCreateAt
  let createPermchain ← permchainCreateAt
  let chmodPermchain ← permchainCreateAt
  pure
    { chain := fun
        | .permchain => permchain
        | .createPermchain => createPermchain
        | .chmodPermchain => chmodPermchain
      map := fun
        | .usermap => usermap
        | .usermapReverse => usermapReverse }

/-- The part of `atexit_func` for the rules and the maps. -/
def destroySettingsAt (pointers : SettingsPointers) : SettingsMem W C E Unit := do
  usermapDestroyAt (pointers.map .usermap)
  usermapDestroyAt (pointers.map .usermapReverse)
  permchainDestroyAt (pointers.chain .permchain)
  permchainDestroyAt (pointers.chain .createPermchain)
  permchainDestroyAt (pointers.chain .chmodPermchain)

def lifetimeAt (uses : List SettingsUse) : SettingsMem W C E (List UseReply) := do
  let pointers ← createSettingsAt
  let replies ← usesAt pointers uses
  destroySettingsAt pointers
  pure replies

end

/-- The rules and the maps as the rest of the model has them. -/
structure SettingsData where
  chains : ChainName → PermNodes
  maps : MapName → UserMap

def SettingsData.create : SettingsData := ⟨fun _ => [permchainCreate], fun _ => usermapCreate⟩

/-- `usermap_get_uid_or_default` and its sibling, by the kind of id. -/
def usermapGetOrDefault : IdKind → UserMap → Id → Id → Id
  | .uid => usermapGetUidOrDefault
  | .gid => usermapGetGidOrDefault

def SettingsUse.run (data : SettingsData) : SettingsUse → UseReply × SettingsData
  | .addRules chain rule =>
    let added := addChmodRulesToPermchain rule (data.chains chain)
    (.status added.1, { data with chains := Function.update data.chains chain added.2 })
  | .applyRules chain mode => (.mode (permchainApply (data.chains chain) mode), data)
  | .addId map kind fromId toId =>
    let added := usermapAdd kind (data.maps map) fromId toId
    (.added added.1, { data with maps := Function.update data.maps map added.2 })
  | .lookUp map kind id deflt => (.id (usermapGetOrDefault kind (data.maps map) id deflt), data)

def uses (data : SettingsData) : List SettingsUse → List UseReply
  | [] => []
  | use :: rest => (use.run data).1 :: uses (use.run data).2 rest

end Bindfs.Source
