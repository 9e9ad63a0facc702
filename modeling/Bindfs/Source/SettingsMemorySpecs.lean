import Bindfs.Source.MapInvariant
import Bindfs.Source.PermchainParser
import Bindfs.Source.SettingsMemory

/-!
# What the settings in memory stand for

`RulesAt` and `MapAt` say which rules and which map a pointer leads to, and in which cells.
Each operation on the pointers does what its counterpart does on the lists, and touches
nothing else.
-/
namespace Bindfs.Source
open Bindfs.Lib.Effects Bindfs.Lib.OwnedCells Bindfs.Lib.OwnedStructures Bindfs.Lib.InverseTables

section
variable {W C E : Type}

abbrev SettingsCells := List (Nat × SettingsCell)

/-! ## Rules -/

abbrev RulesAt (pc : Option Nat) (nodes : PermNodes) (cells : SettingsCells) : Prop :=
  Chain SettingsCell.node pc nodes cells

theorem rulesAt_single (pc : Nat) (node : PermNode) : RulesAt (some pc) [node] [(pc, .node node none)] :=
  .link .stop

theorem yields_catLoop {left : Option Nat} {nodes : PermNodes} {cells : SettingsCells}
    (rules : RulesAt left nodes cells) {right : Nat} {more : PermNodes} {moreCells : SettingsCells}
    (appended : RulesAt (some right) more moreCells) {start fuel : Nat} (here : left = some start)
    (enough : cells.length ≤ fuel) :
    Yields cells (catLoop right fuel start : SettingsMem W C E Unit) fun _ out =>
      RulesAt left (nodes ++ more) (out ++ moreCells) := by
  induction rules generalizing start fuel with
  | stop => cases here
  | @link p next node nodes cells linked ih =>
    cases here
    obtain ⟨fuel, rfl⟩ : ∃ less, fuel = less + 1 := ⟨fuel - 1, by simp at enough; omega⟩
    unfold catLoop
    refine Runs.loads List.mem_cons_self rfl ?_
    cases linked with
    | stop => exact Yields.storesLast (.link appended)
    | @link q next' node' nodes cells linked =>
      refine (ih rfl (by simpa using enough)).among [_] (List.Perm.refl _) fun _ own rules' => ?_
      exact ⟨_, List.Perm.refl _, .link rules'⟩

/-- The second chain is appended to the first. -/
theorem yields_permchainCat {left right : Nat} {nodes more : PermNodes} {cells moreCells : SettingsCells}
    (rules : RulesAt (some left) nodes cells) (appended : RulesAt (some right) more moreCells) :
    Yields (cells ++ moreCells) (permchainCatAt left right : SettingsMem W C E Unit) fun _ out =>
      RulesAt (some left) (permchainCat nodes more) out := by
  apply Yields.counts
  intro fuel enough
  rw [List.length_append] at enough
  have looped : Yields cells (catLoop right fuel left : SettingsMem W C E Unit) _ :=
    yields_catLoop rules appended rfl (by omega)
  refine looped.among moreCells List.perm_append_comm fun _ own rules' => ?_
  exact ⟨own ++ moreCells, List.perm_append_comm, rules'⟩

theorem yields_destroyLoop {pc : Option Nat} {nodes : PermNodes} {cells : SettingsCells}
    (rules : RulesAt pc nodes cells) {fuel : Nat} (enough : cells.length ≤ fuel) :
    Yields cells (destroyLoop fuel pc : SettingsMem W C E Unit) fun _ out => out = [] := by
  induction rules generalizing fuel with
  | stop =>
    unfold destroyLoop
    exact Yields.pure rfl
  | link linked ih =>
    obtain ⟨fuel, rfl⟩ : ∃ less, fuel = less + 1 := ⟨fuel - 1, by simp at enough; omega⟩
    unfold destroyLoop
    refine Runs.loads List.mem_cons_self rfl ?_
    exact Runs.releases (ih (by simpa using enough))

/-- Every node is freed once. -/
theorem yields_permchainDestroy {pc : Nat} {nodes : PermNodes} {cells : SettingsCells}
    (rules : RulesAt (some pc) nodes cells) :
    Yields cells (permchainDestroyAt pc : SettingsMem W C E Unit) fun _ out => out = [] := by
  apply Yields.counts
  intro fuel enough
  exact yields_destroyLoop rules enough

/-- A walk only reads the cells. -/
theorem yields_applyLoop {pc : Option Nat} {nodes : PermNodes} {cells owned : SettingsCells}
    (rules : RulesAt pc nodes cells) (among : cells ⊆ owned) {fuel : Nat} (enough : cells.length ≤ fuel)
    (originalMode tgtmode : Mode) :
    Yields owned (applyLoop originalMode fuel tgtmode pc : SettingsMem W C E (Option Mode)) fun mode out =>
      mode = applyNodes originalMode tgtmode nodes ∧ out = owned := by
  induction rules generalizing fuel tgtmode with
  | stop =>
    unfold applyLoop
    exact Yields.pure ⟨rfl, rfl⟩
  | @link p next node nodes cells linked ih =>
    obtain ⟨fuel, rfl⟩ : ∃ less, fuel = less + 1 := ⟨fuel - 1, by simp at enough; omega⟩
    obtain ⟨here, among⟩ := List.cons_subset.mp among
    have walked : ∀ mode, Yields owned (applyLoop originalMode fuel mode next : SettingsMem W C E _) _ :=
      fun mode => ih among (by simpa using enough) mode
    unfold applyLoop applyNodes
    refine Runs.loads here rfl ?_
    by_cases skipped : skipsNode tgtmode node = true
    · simp only [skipped, if_true]
      exact walked tgtmode
    · simp only [skipped]
      cases applied : applyNode originalMode tgtmode node with
      | some mode => exact walked mode
      | none => exact Yields.pure ⟨rfl, rfl⟩

theorem yields_permchainApply {pc : Nat} {nodes : PermNodes} {cells : SettingsCells}
    (rules : RulesAt (some pc) nodes cells) (tgtmode : Mode) :
    Yields cells (permchainApplyAt pc tgtmode : SettingsMem W C E (Option Mode)) fun mode out =>
      mode = permchainApply nodes tgtmode ∧ out = cells := by
  apply Yields.counts
  intro fuel enough
  exact yields_applyLoop rules (List.Subset.refl _) enough tgtmode tgtmode

/-! ### Parsing -/

/-- What scanning leaves in the node: the rule, or something that is thrown away. -/
def Scanned (newpc : Nat) (next : Option Nat) (frame : SettingsCells) (scanned : Option PermNode)
    (accepted : Bool) (out : SettingsCells) : Prop :=
  accepted = scanned.isSome ∧
    ∃ node, (∀ rule ∈ scanned, node = rule) ∧ out = (newpc, .node node next) :: frame

theorem yields_scanRule (newpc : Nat) (next : Option Nat) (frame : SettingsCells) (atStart : Bool)
    (state : ScanState) (node : PermNode) (text : CString) :
    Yields ((newpc, .node node next) :: frame) (scanRuleAt newpc atStart state text : SettingsMem W C E Bool)
      (Scanned newpc next frame (scanRule atStart state node text)) := by
  induction text generalizing atStart state node with
  | nil => exact Yields.pure ⟨rfl, node, fun rule same => Option.some.inj same, rfl⟩
  | cons c rest ih =>
    unfold scanRuleAt scanRule
    refine Runs.loads List.mem_cons_self rfl ?_
    dsimp only
    cases scanChar atStart state node c with
    | some scanned =>
      obtain ⟨state', node'⟩ := scanned
      exact Runs.stores (ih false state' node')
    | none => exact Yields.pure ⟨rfl, node, nofun, rfl⟩

/-- A rule or a list of rules was added to the chain, or refused. -/
def RulesAfter (pc : Nat) (added : Int × PermNodes) (ret : Int) (out : SettingsCells) : Prop :=
  ret = added.1 ∧ RulesAt (some pc) added.2 out

/-- How the two rule parsers end: the new node is appended, or it is destroyed. -/
theorem yields_catOrDestroy {pc newpc : Nat} {nodes more : PermNodes} {cells newCells : SettingsCells}
    (rules : RulesAt (some pc) nodes cells) (parsed : RulesAt (some newpc) more newCells) (accepted : Bool)
    (frame : SettingsCells) :
    Yields (newCells ++ (frame ++ cells))
      (catOrDestroyAt accepted pc newpc : SettingsMem W C E Unit) fun _ out => ∃ own, out = frame ++ own ∧
        RulesAt (some pc) (if accepted then permchainCat nodes more else nodes) own := by
  cases accepted with
  | true =>
    have together : (newCells ++ (frame ++ cells)).Perm (frame ++ (cells ++ newCells)) := by
      rw [← List.append_assoc frame]
      exact List.perm_append_comm
    refine (yields_permchainCat rules parsed).among frame together fun _ own rules' => ?_
    exact ⟨_, List.Perm.refl _, own, rfl, rules'⟩
  | false =>
    refine (yields_permchainDestroy parsed).among _ List.perm_append_comm fun _ own destroyed => ?_
    subst destroyed
    exact ⟨frame ++ cells, by simp, cells, rfl, rules⟩

theorem yields_addChmodRule {pc : Nat} {nodes : PermNodes} {cells : SettingsCells}
    (rules : RulesAt (some pc) nodes cells) (clause : CString) :
    Yields cells (addChmodRuleAt clause pc : SettingsMem W C E Int)
      (RulesAfter pc (addChmodRuleToPermchain clause nodes)) := by
  unfold addChmodRuleAt permchainCreateAt
  refine Runs.acquires fun buf => ?_
  refine Runs.acquires fun newpc => ?_
  refine Runs.stores ?_
  refine Runs.loads (List.mem_cons_of_mem _ List.mem_cons_self) rfl ?_
  refine (yields_scanRule newpc none _ true .lhs _ clause).bind fun accepted out scanned => ?_
  obtain ⟨rfl, node, isRule, rfl⟩ := scanned
  refine Runs.loads List.mem_cons_self rfl ?_
  refine Runs.stores ?_
  refine (yields_catOrDestroy rules (rulesAt_single newpc (defaultFlags node)) _ [(buf, .text clause)]).bind
    fun _ out ended => ?_
  obtain ⟨own, rfl, rules'⟩ := ended
  refine Runs.releases (Yields.pure ?_)
  cases parsed : scanRule true .lhs { permchainCreate with flags := ⟨false, false⟩ } clause with
  | some rule =>
    rw [parsed] at rules' isRule
    cases isRule rule rfl
    simp only [RulesAfter, addChmodRuleToPermchain, parsed]
    exact ⟨rfl, rules'⟩
  | none =>
    rw [parsed] at rules'
    simp only [RulesAfter, addChmodRuleToPermchain, parsed]
    exact ⟨rfl, rules'⟩

theorem yields_addOctalRule {pc : Nat} {nodes : PermNodes} {cells : SettingsCells}
    (rules : RulesAt (some pc) nodes cells) (clause : CString) :
    Yields cells (addOctalRuleAt clause pc : SettingsMem W C E Int)
      (RulesAfter pc (addOctalRuleToPermchain clause nodes)) := by
  unfold addOctalRuleAt permchainCreateAt addOctalRuleToPermchain
  refine Runs.acquires fun buf => ?_
  refine Runs.acquires fun newpc => ?_
  refine Runs.loads (List.mem_cons_of_mem _ List.mem_cons_self) rfl ?_
  refine Runs.perm (List.Perm.swap _ _ _) (Runs.releases ?_)
  by_cases outside : (strtol 8 clause).1 < 0 ∨ (strtol 8 clause).1 > 0o777
  · simp only [if_pos outside]
    refine (yields_catOrDestroy rules (rulesAt_single newpc _) false []).bind fun _ out ended => ?_
    obtain ⟨own, rfl, rules'⟩ := ended
    exact Yields.pure ⟨rfl, rules'⟩
  · simp only [if_neg outside]
    refine Runs.loads List.mem_cons_self rfl ?_
    refine Runs.stores ?_
    refine (yields_catOrDestroy rules (rulesAt_single newpc _) true []).bind fun _ out ended => ?_
    obtain ⟨own, rfl, rules'⟩ := ended
    exact Yields.pure ⟨rfl, rules'⟩

theorem yields_addRule {pc : Nat} {nodes : PermNodes} {cells : SettingsCells}
    (rules : RulesAt (some pc) nodes cells) (clause : CString) :
    Yields cells (addRuleAt clause pc : SettingsMem W C E Int)
      (RulesAfter pc (addRuleToPermchain clause nodes)) := by
  unfold addRuleAt addRuleToPermchain
  split
  · exact yields_addOctalRule rules clause
  · exact yields_addChmodRule rules clause

/-- A list of rules that is being built, or was given up. -/
def RulesSoFar (newpc : Nat) (built : Option PermNodes) (accepted : Bool) (out : SettingsCells) : Prop :=
  accepted = built.isSome ∧ ∃ nodes, (∀ all ∈ built, nodes = all) ∧ RulesAt (some newpc) nodes out

theorem yields_addClause {newpc : Nat} {nodes : PermNodes} {cells : SettingsCells}
    (rules : RulesAt (some newpc) nodes cells) (clause : CString) :
    Yields cells (addClauseAt newpc clause : SettingsMem W C E Bool)
      (RulesSoFar newpc (addClause nodes clause)) := by
  unfold addClauseAt addClause
  by_cases empty : clause = []
  · simp only [if_pos empty]
    exact Yields.pure ⟨rfl, nodes, nofun, rules⟩
  · simp only [if_neg empty]
    refine (yields_addRule rules clause).bind fun ret out added => ?_
    obtain ⟨rfl, rules'⟩ := added
    by_cases refused : (addRuleToPermchain clause nodes).1 ≠ 0
    · rw [if_pos refused]
      exact Yields.pure ⟨decide_eq_false refused, _, nofun, rules'⟩
    · rw [if_neg refused]
      exact Yields.pure ⟨decide_eq_true (not_not.mp refused), _, fun all same => Option.some.inj same, rules'⟩

/-- The loop goes on behind the separator at the end of the clause. -/
theorem rulesLoop_cons (nodes : PermNodes) (c : Char) (rest : CString) :
    rulesLoop nodes (c :: rest) =
      (addClause nodes ((c :: rest).takeWhile fun c => !isSeparator c)).bind fun nodes =>
        if ((c :: rest).dropWhile fun c => !isSeparator c) = [] then some nodes
        else rulesLoop nodes ((c :: rest).dropWhile fun c => !isSeparator c).tail := by
  unfold rulesLoop
  rw [Lib.Segments.scan_eq_foldlM, Lib.Segments.segments_of_ne_nil isSeparator (c :: rest) (List.cons_ne_nil c rest),
    List.foldlM_cons]
  congr 1
  funext nodes
  cases found : (c :: rest).dropWhile fun c => !isSeparator c with
  | nil => rfl
  | cons sep later =>
    rw [if_neg (List.cons_ne_nil sep later), Lib.Segments.scan_eq_foldlM]
    rfl

theorem yields_rulesLoop {newpc : Nat} {nodes : PermNodes} {cells : SettingsCells}
    (rules : RulesAt (some newpc) nodes cells) (input : CString) :
    Yields cells (rulesLoopAt newpc input : SettingsMem W C E Bool)
      (RulesSoFar newpc (rulesLoop nodes input)) := by
  induction length : input.length using Nat.strong_induction_on generalizing nodes cells input with
  | _ count ih =>
    cases input with
    | nil =>
      unfold rulesLoopAt rulesLoop
      rw [Lib.Segments.scan]
      exact Yields.pure ⟨rfl, nodes, fun all same => Option.some.inj same, rules⟩
    | cons c rest =>
      rw [rulesLoopAt, rulesLoop_cons]
      refine (yields_addClause rules _).bind fun added out soFar => ?_
      obtain ⟨rfl, nodes', isAll, rules'⟩ := soFar
      cases built : addClause nodes ((c :: rest).takeWhile fun c => !isSeparator c) with
      | none => exact Yields.pure ⟨rfl, nodes', fun all none => absurd none (Option.not_mem_none all), rules'⟩
      | some all =>
        cases isAll all built
        rw [Option.bind_some, if_neg (by simp)]
        by_cases found : ((c :: rest).dropWhile fun c => !isSeparator c) = []
        · rw [if_pos found, if_pos found]
          exact Yields.pure ⟨rfl, nodes', fun all same => Option.some.inj same, rules'⟩
        · rw [if_neg found, if_neg found]
          refine ih _ ?_ rules' _ rfl
          have shorter := (List.dropWhile_sublist (fun c => !isSeparator c) (l := c :: rest)).length_le
          rw [List.length_cons] at shorter length
          rw [List.length_tail]
          omega

theorem yields_addChmodRules {pc : Nat} {nodes : PermNodes} {cells : SettingsCells}
    (rules : RulesAt (some pc) nodes cells) (rule : CString) :
    Yields cells (addChmodRulesAt rule pc : SettingsMem W C E Int)
      (RulesAfter pc (addChmodRulesToPermchain rule nodes)) := by
  unfold addChmodRulesAt permchainCreateAt
  refine Runs.acquires fun newpc => ?_
  have looped := yields_rulesLoop (W := W) (C := C) (E := E) (rulesAt_single newpc permchainCreate) rule
  refine Yields.bind (looped.beside cells) fun accepted out soFar => ?_
  obtain ⟨own, ⟨rfl, all, isAll, parsed⟩, rfl⟩ := soFar
  refine (yields_catOrDestroy rules parsed _ []).bind fun _ out ended => ?_
  obtain ⟨own, rfl, rules'⟩ := ended
  refine Yields.pure ?_
  unfold RulesAfter addChmodRulesToPermchain
  cases built : rulesLoop [permchainCreate] rule with
  | some newpc =>
    rw [built] at rules' isAll
    cases isAll newpc rfl
    exact ⟨rfl, rules'⟩
  | none =>
    rw [built] at rules'
    exact ⟨rfl, rules'⟩

/-! ## Arrays of ids -/

/-- The elements of one of the two arrays: the entries of the table and elements not in use. -/
def idColumn (side : Id × Id → Id) (table : Table Id) (spare : List (Option Id)) : List (Option Id) :=
  table.map (fun entry => some (side entry)) ++ spare

inductive ArraysAt : Table Id → IdArrays → SettingsCells → Prop
  | unallocated : ArraysAt [] ⟨none, none, 0, 0⟩ []
  | allocated {table : Table Id} {capacity p q : Nat} {spare spare' : List (Option Id)}
      (room : table.length + spare.length = capacity) (room' : table.length + spare'.length = capacity)
      (positive : 0 < capacity) :
      ArraysAt table ⟨some p, some q, capacity, table.length⟩
        [(p, .ids (idColumn Prod.fst table spare)), (q, .ids (idColumn Prod.snd table spare'))]

theorem length_idColumn (side : Id × Id → Id) (table : Table Id) (spare : List (Option Id)) :
    (idColumn side table spare).length = table.length + spare.length := by
  simp [idColumn]

theorem id_idColumn (side : Id × Id → Id) (before after : Table Id) (entry : Id × Id) (spare : List (Option Id)) :
    (SettingsCell.ids (idColumn side (before ++ entry :: after) spare)).id? before.length = some (side entry) := by
  simp [SettingsCell.id?, idColumn]

theorem ArraysAt.size_eq {table : Table Id} {arrays : IdArrays} {cells : SettingsCells}
    (lies : ArraysAt table arrays cells) : arrays.size = table.length := by
  cases lies with
  | unallocated => rfl
  | allocated => rfl

theorem getOrDefault_cons (entry : Id × Id) (table : Table Id) (id deflt : Id) :
    getOrDefault (entry :: table) id deflt = if entry.1 = id then entry.2 else getOrDefault table id deflt := by
  obtain ⟨fromId, toId⟩ := entry
  by_cases same : fromId = id
  · subst same
    simp [getOrDefault]
  · have other : (id == fromId) = false := by simpa using fun equal => same equal.symm
    simp [getOrDefault, List.lookup_cons, same, other]

/-- The loop over the entries behind the first ones. -/
theorem yields_lookupLoop {table : Table Id} {arrays : IdArrays} {cells owned : SettingsCells}
    (lies : ArraysAt table arrays cells) (among : cells ⊆ owned) (id deflt : Id) {before after : Table Id}
    (whole : table = before ++ after) :
    Yields owned (lookupLoop arrays id deflt after.length before.length : SettingsMem W C E Id) fun found out =>
      found = getOrDefault after id deflt ∧ out = owned := by
  induction after generalizing before with
  | nil => exact Yields.pure ⟨rfl, rfl⟩
  | cons entry after ih =>
    have later := @ih (before ++ [entry]) (by simp [whole])
    rw [List.length_append] at later
    subst whole
    generalize entries : before ++ entry :: after = table at lies
    cases lies with
    | unallocated => simp at entries
    | @allocated _ _ p q spare spare' =>
      subst entries
      obtain ⟨fromHere, among⟩ := List.cons_subset.mp among
      obtain ⟨toHere, -⟩ := List.cons_subset.mp among
      unfold lookupLoop readId
      refine Runs.loads fromHere (id_idColumn Prod.fst before after entry spare) ?_
      rw [getOrDefault_cons]
      by_cases same : entry.1 = id
      · rw [if_pos same, if_pos same]
        exact Yields.loadsLast toHere (id_idColumn Prod.snd before after entry spare') ⟨rfl, rfl⟩
      · rw [if_neg same, if_neg same]
        exact later

theorem yields_reallocIds (p count : Nat) (content : List (Option Id)) (frame : SettingsCells) :
    Yields ((p, .ids content) :: frame) (reallocIds (some p) count : SettingsMem W C E Nat) fun p' out =>
      out = (p', .ids (content.take count ++ List.replicate (count - content.length) none)) :: frame := by
  unfold reallocIds
  refine Runs.loads List.mem_cons_self rfl ?_
  refine Runs.releases ?_
  exact Runs.acquiresLast fun _ => rfl

/-- A full array of twice the length has as much room again. -/
theorem grown_idColumn (side : Id × Id → Id) (table : Table Id) {count : Nat} (more : table.length ≤ count) :
    (idColumn side table []).take count ++ List.replicate (count - (idColumn side table []).length) none =
      idColumn side table (List.replicate (count - table.length) none) := by
  have length := length_idColumn side table []
  rw [List.length_nil, Nat.add_zero] at length
  rw [length, List.take_of_length_le (by omega)]
  simp [idColumn]

theorem yields_grownCapacity {capacity : Nat} (few : capacity < 2 ^ 30) (owned : SettingsCells) :
    Yields owned (grownCapacity capacity : SettingsMem W C E Nat) fun count out =>
      capacity < count ∧ out = owned := by
  unfold grownCapacity
  by_cases empty : capacity = 0
  · rw [if_pos empty]
    exact Yields.pure ⟨by omega, rfl⟩
  · have fits : capacity * 2 ≤ INT_MAX := by
      rw [INT_MAX]
      omega
    rw [if_neg empty, if_pos fits]
    exact Yields.pure ⟨by omega, rfl⟩

theorem yields_growIds {table : Table Id} {arrays : IdArrays} {cells : SettingsCells}
    (lies : ArraysAt table arrays cells) (few : table.length < 2 ^ 30) :
    Yields cells (growIds arrays : SettingsMem W C E IdArrays) fun arrays' out =>
      ArraysAt table arrays' out ∧ arrays'.size < arrays'.capacity := by
  unfold growIds
  cases lies with
  | unallocated =>
    rw [if_pos rfl]
    refine (yields_grownCapacity few _).bind fun count out grown => ?_
    obtain ⟨more, rfl⟩ := grown
    refine Runs.acquires fun p => ?_
    refine Runs.acquires fun q => ?_
    refine Runs.perm (List.Perm.swap _ _ _) (Yields.pure ⟨?_, more⟩)
    have lengths : ([] : Table Id).length + (List.replicate count (none : Option Id)).length = count := by simp
    exact .allocated lengths lengths more
  | @allocated _ capacity p q spare spare' room room' positive =>
    by_cases full : table.length = capacity
    · obtain rfl : spare = [] := List.eq_nil_of_length_eq_zero (by omega)
      obtain rfl : spare' = [] := List.eq_nil_of_length_eq_zero (by omega)
      rw [if_pos full]
      refine (yields_grownCapacity (full ▸ few) _).bind fun count out grown => ?_
      obtain ⟨more, rfl⟩ := grown
      have more : capacity < count := more
      refine (yields_reallocIds p count _ _).bind fun p' out moved => ?_
      subst moved
      refine Runs.perm (List.Perm.swap _ _ _) ((yields_reallocIds q count _ _).bind fun q' out moved => ?_)
      subst moved
      rw [grown_idColumn Prod.fst table (by omega), grown_idColumn Prod.snd table (by omega)]
      refine Runs.perm (List.Perm.swap _ _ _) (Yields.pure ⟨?_, full ▸ more⟩)
      have lengths : table.length + (List.replicate (count - table.length) (none : Option Id)).length = count := by
        rw [List.length_replicate]
        omega
      exact .allocated lengths lengths (by omega)
    · rw [if_neg full]
      refine Yields.pure ⟨.allocated room room' positive, ?_⟩
      change table.length < capacity
      omega

/-- The first element not in use is written. -/
theorem set_idColumn (side : Id × Id → Id) (table : Table Id) (entry : Id × Id) (unused : Option Id)
    (spare : List (Option Id)) :
    (idColumn side table (unused :: spare)).set table.length (some (side entry)) =
      idColumn side (table ++ [entry]) spare := by
  simp [idColumn]

theorem yields_writeId {p i : Nat} {content : List (Option Id)} (inside : i < content.length) (id : Id)
    (frame : SettingsCells) :
    Yields ((p, .ids content) :: frame) (writeId (some p) i id : SettingsMem W C E Unit) fun _ out =>
      out = (p, .ids (content.set i (some id))) :: frame := by
  unfold writeId
  have shown : (SettingsCell.ids content).arrayAt? i = some content := if_pos inside
  exact Runs.loads List.mem_cons_self shown (Yields.storesLast rfl)

theorem yields_writePair {table : Table Id} {arrays : IdArrays} {cells : SettingsCells}
    (lies : ArraysAt table arrays cells) (room : arrays.size < arrays.capacity) (fromId toId : Id) :
    Yields cells (writePair arrays fromId toId : SettingsMem W C E Unit) fun _ out =>
      ArraysAt (table ++ [(fromId, toId)]) { arrays with size := arrays.size + 1 } out := by
  cases lies with
  | unallocated => cases room
  | @allocated _ capacity p q spare spare' lengths lengths' positive =>
    have room : table.length < capacity := room
    obtain ⟨unused, spare, rfl⟩ := List.exists_cons_of_length_pos (l := spare) (by omega)
    obtain ⟨unused', spare', rfl⟩ := List.exists_cons_of_length_pos (l := spare') (by omega)
    have inside : table.length < (idColumn Prod.fst table (unused :: spare)).length := by
      rw [length_idColumn]
      omega
    have inside' : table.length < (idColumn Prod.snd table (unused' :: spare')).length := by
      rw [length_idColumn]
      omega
    unfold writePair
    refine (yields_writeId inside fromId _).bind fun _ out written => ?_
    subst written
    refine Runs.perm (List.Perm.swap _ _ _) ?_
    refine (yields_writeId inside' toId _).among [] (List.Perm.refl _) fun _ own written => ?_
    subst written
    refine ⟨_, List.Perm.swap _ _ _, ?_⟩
    rw [set_idColumn Prod.fst table (fromId, toId), set_idColumn Prod.snd table (fromId, toId)]
    have size : List.length (table ++ [(fromId, toId)]) = table.length + 1 := by simp
    have appended : ArraysAt (table ++ [(fromId, toId)]) ⟨some p, some q, capacity, _⟩
        [(p, .ids (idColumn Prod.fst (table ++ [(fromId, toId)]) spare)),
          (q, .ids (idColumn Prod.snd (table ++ [(fromId, toId)]) spare'))] :=
      .allocated (by simp at lengths; omega) (by simp at lengths'; omega) positive
    rw [size] at appended
    exact appended

/-! ## Maps -/

def idKinds : List IdKind := [.uid, .gid]

theorem mem_idKinds (kind : IdKind) : kind ∈ idKinds := by
  cases kind <;> decide

/-- The arrays of a map's record. -/
def ArraysOf (map : UserMap) (record : UserMapRecord) (parts : IdKind → SettingsCells) : Prop :=
  ∀ kind, ArraysAt (map.table kind) (record.arrays kind) (parts kind)

def MapAt (p : Nat) (map : UserMap) (cells : SettingsCells) : Prop :=
  ∃ record parts, ArraysOf map record parts ∧ cells = (p, .record record) :: idKinds.flatMap parts

theorem arrays_setArrays (record : UserMapRecord) (arrays : IdArrays) (kind : IdKind) :
    (record.setArrays arrays kind).arrays = Function.update record.arrays kind arrays := by
  funext other
  cases kind <;> cases other <;> rfl

/-- The arrays of one kind are exchanged. -/
theorem ArraysOf.update {map map' : UserMap} {record : UserMapRecord} {parts : IdKind → SettingsCells}
    (arraysOf : ArraysOf map record parts) {kind : IdKind} {table : Table Id} {arrays : IdArrays}
    {own : SettingsCells} (lies : ArraysAt table arrays own)
    (tables : map'.table = Function.update map.table kind table) :
    ArraysOf map' (record.setArrays arrays kind) (Function.update parts kind own) := by
  intro other
  rw [arrays_setArrays, tables]
  by_cases same : other = kind
  · subst same
    simpa only [Function.update_self] using lies
  · simpa only [Function.update_of_ne same] using arraysOf other

theorem table_usermapAdd (kind : IdKind) (map : UserMap) (fromId toId : Id) :
    (usermapAdd kind map fromId toId).2.table =
      Function.update map.table kind (tableAdd (map.table kind) fromId toId).2 := by
  funext other
  cases kind <;> cases other <;> rfl

theorem status_usermapAdd (kind : IdKind) (map : UserMap) (fromId toId : Id) :
    (usermapAdd kind map fromId toId).1 = (tableAdd (map.table kind) fromId toId).1 := by
  cases kind <;> rfl

/-- An operation on the arrays of one kind. -/
theorem yields_onArrays {α : Type} {kind : IdKind} {parts : IdKind → SettingsCells} {program : SettingsMem W C E α}
    {good : α → SettingsCells → Prop} (yields : Yields (parts kind) program good) (cell : Nat × SettingsCell) :
    Yields (cell :: idKinds.flatMap parts) program fun a out =>
      ∃ own, good a own ∧ out = cell :: idKinds.flatMap (Function.update parts kind own) := by
  have part := Yields.part (by decide : idKinds.Nodup) (mem_idKinds kind) yields
  refine part.among [cell] (List.Perm.refl _) fun a whole changed => ?_
  obtain ⟨own, value, rfl⟩ := changed
  exact ⟨_, List.Perm.refl _, own, value, rfl⟩

theorem yields_usermapGetOrDefault {p : Nat} {map : UserMap} {record : UserMapRecord}
    {parts : IdKind → SettingsCells} (arraysOf : ArraysOf map record parts) (kind : IdKind) (id deflt : Id) :
    Yields ((p, .record record) :: idKinds.flatMap parts)
      (usermapGetOrDefaultAt kind p id deflt : SettingsMem W C E Id) fun found out =>
        found = getOrDefault (map.table kind) id deflt ∧ out = (p, .record record) :: idKinds.flatMap parts := by
  unfold usermapGetOrDefaultAt
  refine Runs.loads List.mem_cons_self rfl ?_
  rw [(arraysOf kind).size_eq]
  refine yields_lookupLoop (arraysOf kind) ?_ id deflt (List.nil_append _).symm
  intro cell member
  exact List.mem_cons_of_mem _ (List.mem_flatMap.mpr ⟨kind, mem_idKinds kind, member⟩)

theorem yields_lookUp {p : Nat} {map : UserMap} {cells : SettingsCells} (lies : MapAt p map cells) (kind : IdKind)
    (id deflt : Id) :
    Yields cells (usermapGetOrDefaultAt kind p id deflt : SettingsMem W C E Id) fun found out =>
      found = usermapGetOrDefault kind map id deflt ∧ out = cells := by
  obtain ⟨record, parts, arraysOf, rfl⟩ := lies
  have same : usermapGetOrDefault kind map id deflt = getOrDefault (map.table kind) id deflt := by
    cases kind <;> rfl
  rw [same]
  exact yields_usermapGetOrDefault arraysOf kind id deflt

theorem yields_usermapAdd {p : Nat} {map : UserMap} {cells : SettingsCells} (lies : MapAt p map cells)
    (kind : IdKind) (few : (map.table kind).length < 2 ^ 30) (fromId toId : Id) :
    Yields cells (usermapAddAt kind p fromId toId : SettingsMem W C E UsermapStatus) fun status out =>
      status = (usermapAdd kind map fromId toId).1 ∧ MapAt p (usermapAdd kind map fromId toId).2 out := by
  obtain ⟨record, parts, arraysOf, rfl⟩ := lies
  have tables := table_usermapAdd kind map fromId toId
  rw [status_usermapAdd]
  unfold usermapAddAt
  generalize usermapAdd kind map fromId toId = result at tables ⊢
  unfold tableAdd at tables ⊢
  by_cases same : fromId = toId
  · simp only [if_pos same, Function.update_eq_self] at tables ⊢
    refine Yields.pure ⟨rfl, record, parts, fun other => ?_, rfl⟩
    rw [tables]
    exact arraysOf other
  · simp only [if_neg same] at tables ⊢
    refine Runs.loads List.mem_cons_self rfl ?_
    refine (yields_onArrays (yields_growIds (arraysOf kind) few) _).bind fun arrays out grown => ?_
    obtain ⟨own, ⟨grownLies, room⟩, rfl⟩ := grown
    refine Runs.stores ?_
    have grownOf : ArraysOf map (record.setArrays arrays kind) (Function.update parts kind own) :=
      arraysOf.update grownLies (Function.update_eq_self ..).symm
    refine (yields_usermapGetOrDefault grownOf kind fromId noId).bind fun found out looked => ?_
    obtain ⟨rfl, rfl⟩ := looked
    by_cases present : getOrDefault (map.table kind) fromId noId ≠ noId
    · simp only [if_pos present, Function.update_eq_self] at tables ⊢
      refine Yields.pure ⟨rfl, _, _, fun other => ?_, rfl⟩
      rw [tables]
      exact grownOf other
    · simp only [if_neg present] at tables ⊢
      refine Runs.loads List.mem_cons_self rfl ?_
      have current : (record.setArrays arrays kind).arrays kind = arrays := by
        rw [arrays_setArrays, Function.update_self]
      rw [current]
      have written := yields_writePair (W := W) (C := C) (E := E) grownLies room fromId toId
      rw [← Function.update_self kind own parts] at written
      refine (yields_onArrays written _).bind fun _ out changed => ?_
      obtain ⟨own', longer, rfl⟩ := changed
      refine Runs.stores (Yields.pure ⟨rfl, _, _, ?_, rfl⟩)
      exact grownOf.update longer tables

/-- Both arrays are freed, if there are any. -/
theorem yields_freeArrays {α : Type} {table : Table Id} {arrays : IdArrays} {cells frame : SettingsCells}
    (lies : ArraysAt table arrays cells) {next : SettingsMem W C E α} {good : α → SettingsCells → Prop}
    (later : Yields frame next good) :
    Yields (cells ++ frame) (freeIds arrays.fromIds >>= fun _ => freeIds arrays.toIds >>= fun _ => next) good := by
  cases lies with
  | unallocated => exact later
  | allocated => exact Runs.releases (Runs.releases later)

theorem yields_usermapDestroy {p : Nat} {map : UserMap} {cells : SettingsCells} (lies : MapAt p map cells) :
    Yields cells (usermapDestroyAt p : SettingsMem W C E Unit) fun _ out => out = [] := by
  obtain ⟨record, parts, arraysOf, rfl⟩ := lies
  unfold usermapDestroyAt
  refine Runs.loads List.mem_cons_self rfl ?_
  have last : ((p, SettingsCell.record record) :: idKinds.flatMap parts).Perm
      (parts .uid ++ (parts .gid ++ [(p, .record record)])) := by
    have flat : idKinds.flatMap parts = parts .uid ++ parts .gid := by simp [idKinds]
    rw [flat, ← List.append_assoc]
    exact (List.perm_append_singleton _ _).symm
  refine Runs.perm last ?_
  refine yields_freeArrays (arraysOf .uid) ?_
  refine yields_freeArrays (arraysOf .gid) ?_
  exact Runs.releasesLast rfl

end

end Bindfs.Source
