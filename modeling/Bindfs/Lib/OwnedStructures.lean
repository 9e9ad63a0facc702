import Bindfs.Lib.OwnedCells
import Mathlib.Data.List.Lattice
import Mathlib.Data.List.Perm.Subperm

/-!
# Data structures in memory

A structure in memory is a relation between a pointer, a value and the cells it lies in.
`Yields owned program good` is what an operation on it is proved to do: it runs on the cells it
owns to a result and cells that are `good`, without misuse. An operation does not touch what
lies beside its own cells (`Yields.among`), and so an operation on one of several structures
leaves the others as they are (`Yields.part`).

`Chain` is the singly linked list. A walk through a chain makes at most as many steps as
addresses were handed out (`Runs.counts`): one that makes more goes round in a circle.
-/
namespace Bindfs.Lib.OwnedStructures
open Bindfs.Lib.Effects Bindfs.Lib.OwnedCells

section
variable {W C E κ α β γ : Type} {contents contents' rest : Nat → Option κ} {owned frame own : List (Nat × κ)}

/-! ## The frame -/

/-- What is beside some of the cells, when the others are counted to the rest. -/
def besides (owned : List (Nat × κ)) (contents : Nat → Option κ) : Nat → Option κ := fun p =>
  if p ∈ owned.map Prod.fst then none else contents p

theorem split_besides (split : Split contents (frame ++ owned) rest) :
    Split contents owned (besides owned contents) where
  distinct := by
    have distinct := split.distinct
    rw [List.map_append] at distinct
    exact distinct.of_append_right
  held cell member := split.held cell (List.mem_append_right _ member)
  apart cell member := if_pos (List.mem_map_of_mem member)
  others p absent := (if_neg absent).symm

/-- A cell of the frame is not one of the owned cells. -/
theorem absent_of_frame (split : Split contents (frame ++ owned) rest) {cell : Nat × κ} (member : cell ∈ frame) :
    cell.1 ∉ owned.map Prod.fst := by
  have distinct := split.distinct
  rw [List.map_append] at distinct
  exact fun other => List.disjoint_of_nodup_append distinct (List.mem_map_of_mem member) other

theorem besides_frame (split : Split contents (frame ++ owned) rest) {cell : Nat × κ} (member : cell ∈ frame) :
    besides owned contents cell.1 = some cell.2 := by
  rw [besides, if_neg (absent_of_frame split member)]
  exact split.held cell (List.mem_append_left _ member)

/-- Beyond the frame, what is beside the owned cells is the rest. -/
theorem besides_rest (split : Split contents (frame ++ owned) rest) {p : Nat} (absent : p ∉ frame.map Prod.fst) :
    besides owned contents p = rest p := by
  by_cases mine : p ∈ owned.map Prod.fst
  · obtain ⟨cell, member, rfl⟩ := List.mem_map.mp mine
    rw [besides, if_pos mine]
    exact (split.apart cell (List.mem_append_right _ member)).symm
  · rw [besides, if_neg mine]
    apply split.others
    rw [List.map_append, List.mem_append]
    exact fun member => member.elim absent mine

/-- The owned cells may be exchanged for others; the frame stays. -/
theorem split_frame (before : Split contents (frame ++ owned) rest)
    (after : Split contents' own (besides owned contents)) : Split contents' (frame ++ own) rest := by
  have outside : ∀ cell ∈ frame, cell.1 ∉ own.map Prod.fst := by
    intro cell member inside
    obtain ⟨other, otherMember, same⟩ := List.mem_map.mp inside
    have unused := after.apart other otherMember
    rw [same, besides_frame before member] at unused
    cases unused
  refine ⟨?_, ?_, ?_, ?_⟩
  · have distinct := before.distinct
    rw [List.map_append] at distinct ⊢
    refine List.Nodup.append distinct.of_append_left after.distinct ?_
    intro p inFrame inOwn
    obtain ⟨cell, member, rfl⟩ := List.mem_map.mp inFrame
    exact outside cell member inOwn
  · intro cell member
    rcases List.mem_append.mp member with inFrame | inOwn
    · rw [after.others cell.1 (outside cell inFrame)]
      exact besides_frame before inFrame
    · exact after.held cell inOwn
  · intro cell member
    rcases List.mem_append.mp member with inFrame | inOwn
    · exact before.apart cell (List.mem_append_left _ inFrame)
    · have unused := after.apart cell inOwn
      rw [besides_rest before] at unused
      · exact unused
      · intro inFrame
        obtain ⟨other, otherMember, same⟩ := List.mem_map.mp inFrame
        exact outside other otherMember (same ▸ List.mem_map_of_mem inOwn)
  · intro p absent
    rw [List.map_append, List.mem_append, not_or] at absent
    rw [after.others p absent.2]
    exact besides_rest before absent.1

/-! ## Operations -/

def Yields (owned : List (Nat × κ)) (program : Eff (W × Heap κ) C E α)
    (good : α → List (Nat × κ) → Prop) : Prop :=
  Runs owned program (pure () : Eff W C E Unit) (fun a _ cells => good a cells) fun _ => False

variable {good : α → List (Nat × κ) → Prop} {good' : β → List (Nat × κ) → Prop}
  {program : Eff (W × Heap κ) C E α} {next : α → Eff (W × Heap κ) C E β}

theorem Yields.pure {a : α} (value : good a owned) :
    Yields owned (pure a : Eff (W × Heap κ) C E α) good := Runs.pure value

theorem Yields.bind (first : Yields owned program good)
    (later : ∀ a cells, good a cells → Yields cells (next a) good') : Yields owned (program >>= next) good' := by
  change Runs owned (program >>= next) ((Pure.pure () : Eff W C E Unit) >>= fun _ => Pure.pure ()) _ _
  exact Runs.bind first fun a _ cells => later a cells

/-- A cell is read at the end. -/
theorem Yields.loadsLast [Inhabited α] {view : κ → Option α} {p : Nat} {value : κ} {seen : α}
    (member : (p, value) ∈ owned) (shown : view value = some seen) (values : good seen owned) :
    Yields owned (load view p : Eff (W × Heap κ) C E α) good := by
  have law := Effects.lawful (W := W × Heap κ) (C := C) (E := E)
  rw [← bind_pure (load view p)]
  exact Runs.loads member shown (Yields.pure values)

/-- A cell is overwritten at the end. -/
theorem Yields.storesLast {p : Nat} {value value' : κ} {good : Unit → List (Nat × κ) → Prop}
    (values : good () ((p, value') :: owned)) :
    Yields ((p, value) :: owned) (store p value' : Eff (W × Heap κ) C E Unit) good := by
  have law := Effects.lawful (W := W × Heap κ) (C := C) (E := E)
  rw [← bind_pure (store p value')]
  exact Runs.stores (Yields.pure values)

/-- The operation ends well from every heap that holds its cells. -/
theorem Yields.exec (yields : Yields owned program good) (world : W) {heap : Heap κ} (valid : heap.Valid)
    (split : Split heap.contents owned rest) :
    ∃ a heap' cells, (program.exec (world, heap)).result = .ok a ∧
      (program.exec (world, heap)).world = (world, heap') ∧ heap'.Valid ∧ good a cells ∧
      Split heap'.contents cells rest := by
  have done := yields world heap rest valid split
  revert done
  generalize program.exec (world, heap) = outcome
  intro done
  obtain ⟨result, ⟨world', heap'⟩, calls⟩ := outcome
  obtain ⟨same, -, valid', cells, ends, split'⟩ := done
  cases same
  cases ends with
  | ok value => exact ⟨_, heap', cells, rfl, rfl, valid', value, split'⟩

/-- An operation does nothing to the cells beside its own. -/
theorem Yields.among {whole : List (Nat × κ)} {better : α → List (Nat × κ) → Prop}
    (yields : Yields owned program good) (frame : List (Nat × κ)) (together : whole.Perm (frame ++ owned))
    (restored : ∀ a own, good a own → ∃ whole', whole'.Perm (frame ++ own) ∧ better a whole') :
    Yields whole program better := by
  intro world heap rest valid split
  have before := split.perm together
  obtain ⟨sameWorld, calls, valid', cells, ends, after⟩ := yields world heap _ valid (split_besides before)
  have framed := split_frame before after
  revert ends
  generalize result : (program.exec (world, heap)).result = answer
  intro ends
  cases ends with
  | ok value =>
    obtain ⟨whole', again, better⟩ := restored _ _ value
    exact ⟨sameWorld, calls, valid', whole', result ▸ .ok better, framed.perm again.symm⟩

theorem Yields.beside (yields : Yields owned program good) (frame : List (Nat × κ)) :
    Yields (owned ++ frame) program fun a out => ∃ own, good a own ∧ out = own ++ frame := by
  refine yields.among frame List.perm_append_comm fun a own value => ?_
  exact ⟨own ++ frame, List.perm_append_comm, own, value, rfl⟩

/-! ## Several structures -/

section Parts
variable {ι : Type} [DecidableEq ι]

/-- One part of a family of cells, and the others. -/
theorem perm_part {parts : List ι} (distinct : parts.Nodup) {i : ι} (member : i ∈ parts)
    (cells : ι → List (Nat × κ)) (own : List (Nat × κ)) :
    (parts.flatMap (Function.update cells i own)).Perm ((parts.erase i).flatMap cells ++ own) := by
  have others : (parts.erase i).flatMap (Function.update cells i own) = (parts.erase i).flatMap cells := by
    apply List.flatMap_congr
    intro j inside
    exact Function.update_of_ne (distinct.mem_erase_iff.mp inside).1 ..
  have first := (List.perm_cons_erase member).flatMap_right (Function.update cells i own)
  rw [List.flatMap_cons, others, Function.update_self] at first
  exact first.trans List.perm_append_comm

/-- An operation on one part leaves the other parts as they are. -/
theorem Yields.part {parts : List ι} (distinct : parts.Nodup) {i : ι} (member : i ∈ parts)
    {cells : ι → List (Nat × κ)} (yields : Yields (cells i) program good) :
    Yields (parts.flatMap cells) program fun a whole =>
      ∃ own, good a own ∧ whole = parts.flatMap (Function.update cells i own) := by
  have together := perm_part distinct member cells (cells i)
  rw [Function.update_eq_self] at together
  refine yields.among _ together fun a own value => ?_
  exact ⟨_, perm_part distinct member cells own, own, value, rfl⟩

end Parts

/-! ## Chains -/

/-- How many addresses were handed out. -/
def handedOut : Eff (W × Heap κ) C E Nat := fun (world, heap) => ⟨.ok heap.next, (world, heap), []⟩

theorem length_le_handedOut {heap : Heap κ} (valid : heap.Valid) (split : Split heap.contents owned rest) :
    owned.length ≤ heap.next := by
  have inside : owned.map Prod.fst ⊆ List.range heap.next := by
    intro p member
    obtain ⟨cell, held, rfl⟩ := List.mem_map.mp member
    rw [List.mem_range]
    by_contra above
    have unused := valid.fresh cell.1 (by omega)
    rw [split.held cell held] at unused
    cases unused
  simpa using (split.distinct.subperm inside).length_le

theorem Yields.counts {next : Nat → Eff (W × Heap κ) C E α}
    (later : ∀ count, owned.length ≤ count → Yields owned (next count) good) :
    Yields owned (handedOut >>= next) good := by
  intro world heap rest valid split
  exact later heap.next (length_le_handedOut valid split) world heap rest valid split

/-- From the pointer on, the links lead through cells with the given values to the null pointer. -/
inductive Chain (cell : γ → Option Nat → κ) : Option Nat → List γ → List (Nat × κ) → Prop
  | stop : Chain cell none [] []
  | link {p : Nat} {next : Option Nat} {value : γ} {values : List γ} {cells : List (Nat × κ)}
      (linked : Chain cell next values cells) : Chain cell (some p) (value :: values) ((p, cell value next) :: cells)

end

end Bindfs.Lib.OwnedStructures
