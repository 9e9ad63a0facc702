import Bindfs.Lib.Effects
import Mathlib.Data.List.Nodup
import Mathlib.Logic.Function.Basic

/-!
# Programs that manage memory

A heap maps addresses to cells of a type `κ`. A program over a world and a heap acquires cells,
reads and overwrites them and gives them back; to do any of this with a cell that is not there
marks the heap as misused, for good.

`Runs owned program plain good bad` says that such a program does what a program without a heap
does: from every heap that holds the cells in `owned`, beside others which it leaves alone, it
issues the same calls with the same effect, misuses nothing, and ends with values and cells that
are `good`, or with the same error and cells that are `bad`. The rules follow the operations.
A program that is `Balanced` has the same results as the plain one and leaks nothing.
-/
namespace Bindfs.Lib.OwnedCells
open Bindfs.Lib.Effects

structure Heap (κ : Type) where
  contents : Nat → Option κ
  next : Nat
  misused : Bool

/-- The heap at the start. -/
def Heap.empty (κ : Type) : Heap κ := ⟨fun _ => none, 0, false⟩

/-- Nothing was misused, and what is still to be handed out is not in use. -/
structure Heap.Valid {κ : Type} (heap : Heap κ) : Prop where
  unmisused : heap.misused = false
  fresh : ∀ p, heap.next ≤ p → heap.contents p = none

section
variable {W C E κ α β : Type}

/-! ## Operations -/

/-- A part of a program that does not know of the heap. -/
def lift (plain : Eff W C E α) : Eff (W × Heap κ) C E α := fun (world, heap) =>
  let outcome := plain.exec world
  ⟨outcome.result, (outcome.world, heap), outcome.calls.map fun entry => ((entry.1, heap), entry.2)⟩

def acquire (value : κ) : Eff (W × Heap κ) C E Nat := fun (world, heap) =>
  ⟨.ok heap.next, (world, { heap with
    contents := Function.update heap.contents heap.next (some value), next := heap.next + 1 }), []⟩

/-- The heap after a step that used a cell which is not there. -/
def Heap.misuse (heap : Heap κ) : Heap κ := { heap with misused := true }

/-- An access through a null pointer. -/
def nullAccess [Inhabited α] : Eff (W × Heap κ) C E α := fun (world, heap) =>
  ⟨.ok default, (world, heap.misuse), []⟩

/-- Read a cell, as the kind of cell that `view` accepts. -/
def load [Inhabited α] (view : κ → Option α) (p : Nat) : Eff (W × Heap κ) C E α := fun (world, heap) =>
  match (heap.contents p).bind view with
  | some value => ⟨.ok value, (world, heap), []⟩
  | none => ⟨.ok default, (world, heap.misuse), []⟩

/-- Leave something else, or nothing, in a cell. -/
def replace (p : Nat) (value : Option κ) : Eff (W × Heap κ) C E Unit := fun (world, heap) =>
  match heap.contents p with
  | some _ => ⟨.ok (), (world, { heap with contents := Function.update heap.contents p value }), []⟩
  | none => ⟨.ok (), (world, heap.misuse), []⟩

def store (p : Nat) (value : κ) : Eff (W × Heap κ) C E Unit := replace p (some value)

def release (p : Nat) : Eff (W × Heap κ) C E Unit := replace p none

/-! ## Owned cells -/

/-- The contents are the owned cells, each at its own address, and the rest. -/
structure Split (contents : Nat → Option κ) (owned : List (Nat × κ)) (rest : Nat → Option κ) : Prop where
  distinct : (owned.map Prod.fst).Nodup
  held : ∀ cell ∈ owned, contents cell.1 = some cell.2
  apart : ∀ cell ∈ owned, rest cell.1 = none
  others : ∀ p, p ∉ owned.map Prod.fst → contents p = rest p

theorem split_nil (contents : Nat → Option κ) : Split contents [] contents :=
  ⟨List.nodup_nil, nofun, nofun, fun _ _ => rfl⟩

theorem Split.eq_of_nil {contents rest : Nat → Option κ} (split : Split contents [] rest) : contents = rest := by
  funext p
  exact split.others p List.not_mem_nil

theorem Split.perm {contents rest : Nat → Option κ} {owned owned' : List (Nat × κ)}
    (split : Split contents owned rest) (same : owned.Perm owned') : Split contents owned' rest where
  distinct := (same.map Prod.fst).nodup_iff.mp split.distinct
  held cell member := split.held cell (same.mem_iff.mpr member)
  apart cell member := split.apart cell (same.mem_iff.mpr member)
  others p absent := split.others p fun member => absent ((same.map Prod.fst).mem_iff.mp member)

/-- A new cell at an address that is not in use. -/
theorem Split.cons {contents rest : Nat → Option κ} {owned : List (Nat × κ)} (split : Split contents owned rest)
    {p : Nat} (unused : contents p = none) (value : κ) :
    Split (Function.update contents p (some value)) ((p, value) :: owned) rest := by
  have absent : p ∉ owned.map Prod.fst := by
    intro member
    obtain ⟨cell, inside, rfl⟩ := List.mem_map.mp member
    cases unused.symm.trans (split.held cell inside)
  refine ⟨List.nodup_cons.mpr ⟨absent, split.distinct⟩, ?_, ?_, ?_⟩
  · intro cell member
    rcases List.mem_cons.mp member with rfl | inside
    · exact Function.update_self ..
    · have other : cell.1 ≠ p := fun same => absent (same ▸ List.mem_map_of_mem inside)
      rw [Function.update_of_ne other]
      exact split.held cell inside
  · intro cell member
    rcases List.mem_cons.mp member with rfl | inside
    · exact (split.others p absent).symm.trans unused
    · exact split.apart cell inside
  · intro q missing
    obtain ⟨other, missing⟩ := List.ne_and_not_mem_of_not_mem_cons missing
    rw [Function.update_of_ne other]
    exact split.others q missing

/-- The first cell is taken out. -/
theorem Split.tail {contents rest : Nat → Option κ} {owned : List (Nat × κ)} {p : Nat} {value : κ}
    (split : Split contents ((p, value) :: owned) rest) :
    Split (Function.update contents p none) owned rest := by
  obtain ⟨absent, distinct⟩ := List.nodup_cons.mp split.distinct
  refine ⟨distinct, ?_, ?_, ?_⟩
  · intro cell member
    have other : cell.1 ≠ p := by
      rintro rfl
      exact absent (List.mem_map.mpr ⟨cell, member, rfl⟩)
    rw [Function.update_of_ne other]
    exact split.held cell (List.mem_cons_of_mem _ member)
  · exact fun cell member => split.apart cell (List.mem_cons_of_mem _ member)
  · intro q missing
    by_cases same : q = p
    · subst same
      rw [Function.update_self]
      exact (split.apart _ List.mem_cons_self).symm
    · rw [Function.update_of_ne same]
      exact split.others q (List.not_mem_cons_of_ne_of_not_mem same missing)

/-! ## Programs -/

/-- How two programs end together, and with which cells. -/
inductive Ends (good : α → β → List (Nat × κ) → Prop) (bad : List (Nat × κ) → Prop) :
    Except E α → Except E β → List (Nat × κ) → Prop
  | ok {a : α} {b : β} {cells : List (Nat × κ)} : good a b cells → Ends good bad (.ok a) (.ok b) cells
  | error {error : E} {cells : List (Nat × κ)} : bad cells → Ends good bad (.error error) (.error error) cells

/-- The outcomes match, and beside the rest the heap holds the cells they end with. -/
structure Matches (good : α → β → List (Nat × κ) → Prop) (bad : List (Nat × κ) → Prop)
    (rest : Nat → Option κ) (outcome : Outcome (W × Heap κ) C E α) (plain : Outcome W C E β) : Prop where
  world : outcome.world.1 = plain.world
  calls : (outcome.calls.map fun entry => (entry.1.1, entry.2)) = plain.calls
  valid : outcome.world.2.Valid
  ends : ∃ cells, Ends good bad outcome.result plain.result cells ∧
    Split outcome.world.2.contents cells rest

def Runs (owned : List (Nat × κ)) (program : Eff (W × Heap κ) C E α) (plain : Eff W C E β)
    (good : α → β → List (Nat × κ) → Prop) (bad : List (Nat × κ) → Prop) : Prop :=
  ∀ world heap rest, heap.Valid → Split heap.contents owned rest →
    Matches good bad rest (program.exec (world, heap)) (plain.exec world)

/-- The same value, with these cells. -/
def Same (owned : List (Nat × κ)) (a b : α) (cells : List (Nat × κ)) : Prop := a = b ∧ cells = owned

/-- The program owns nothing, neither before nor after. -/
def Balanced (program : Eff (W × Heap κ) C E α) (plain : Eff W C E α) : Prop :=
  Runs [] program plain (Same []) (· = [])

variable {γ δ : Type} {owned : List (Nat × κ)} {rest : Nat → Option κ}
  {good : α → β → List (Nat × κ) → Prop} {bad : List (Nat × κ) → Prop}
  {program : Eff (W × Heap κ) C E α} {plain : Eff W C E β}

/-- A part without a heap; what is known of its results can be used. -/
theorem Runs.liftCases {plain : Eff W C E α} {good : α → α → List (Nat × κ) → Prop}
    (onOk : ∀ world value, (plain.exec world).result = .ok value → good value value owned)
    (onError : ∀ world error, (plain.exec world).result = .error error → bad owned) :
    Runs owned (lift plain) plain good bad := by
  intro world heap rest valid split
  refine ⟨rfl, ?_, valid, owned, ?_, split⟩
  · change List.map _ ((plain.exec world).calls.map _) = _
    rw [List.map_map]
    exact List.map_id _
  · change Ends _ _ (plain.exec world).result _ _
    cases result : (plain.exec world).result with
    | ok value => exact .ok (onOk world value result)
    | error error => exact .error (onError world error result)

theorem Runs.lift (plain : Eff W C E α) : Runs owned (lift plain) plain (Same owned) (· = owned) :=
  Runs.liftCases (fun _ _ _ => ⟨rfl, rfl⟩) fun _ _ _ => rfl

theorem Runs.pure {a : α} {b : β} (values : good a b owned) :
    Runs owned (pure a) (pure b : Eff W C E β) good bad :=
  fun _ _ _ valid split => ⟨rfl, rfl, valid, owned, .ok values, split⟩

theorem Runs.fail {error : E} (left : bad owned) :
    Runs owned (fail error) (fail error : Eff W C E β) good bad :=
  fun _ _ _ valid split => ⟨rfl, rfl, valid, owned, .error left, split⟩

theorem Runs.perm {owned' : List (Nat × κ)} (same : owned.Perm owned')
    (runs : Runs owned' program plain good bad) : Runs owned program plain good bad :=
  fun world heap rest valid split => runs world heap rest valid (split.perm same)

/-- Less may be said of the cells that an error leaves. -/
theorem Runs.weaken {bad' : List (Nat × κ) → Prop} (runs : Runs owned program plain good bad)
    (implies : ∀ cells, bad cells → bad' cells) : Runs owned program plain good bad' := by
  intro world heap rest valid split
  obtain ⟨sameWorld, calls, valid', cells, ends, split'⟩ := runs world heap rest valid split
  refine ⟨sameWorld, calls, valid', cells, ?_, split'⟩
  revert ends
  generalize (program.exec (world, heap)).result = result
  generalize (plain.exec world).result = result'
  intro ends
  cases ends with
  | ok values => exact .ok values
  | error left => exact .error (implies _ left)

/-! ### Sequences -/

/-- Both programs look at the error themselves. -/
theorem Runs.attempted {good' : γ → δ → List (Nat × κ) → Prop} {bad' : List (Nat × κ) → Prop}
    {next : Except E α → Eff (W × Heap κ) C E γ} {next' : Except E β → Eff W C E δ}
    (first : Runs owned program plain good bad)
    (onOk : ∀ a b cells, good a b cells → Runs cells (next (.ok a)) (next' (.ok b)) good' bad')
    (onError : ∀ error cells, bad cells → Runs cells (next (.error error)) (next' (.error error)) good' bad') :
    Runs owned (attempt program >>= next) (attempt plain >>= next') good' bad' := by
  intro world heap rest valid split
  have done := first world heap rest valid split
  simp only [exec_bind, exec_attempt, andThen_ok]
  generalize program.exec (world, heap) = outcome at done ⊢
  generalize plain.exec world = plainOutcome at done ⊢
  obtain ⟨result, ⟨world', heap'⟩, calls⟩ := outcome
  obtain ⟨result', world'', calls'⟩ := plainOutcome
  obtain ⟨rfl, rfl, valid', cells, ends, split'⟩ := done
  have continued : Matches good' bad' rest ((next result).exec (world', heap')) ((next' result').exec world') := by
    cases ends with
    | ok values => exact onOk _ _ _ values world' heap' rest valid' split'
    | error left => exact onError _ _ left world' heap' rest valid' split'
  refine ⟨continued.world, ?_, continued.valid, continued.ends⟩
  simp only [calls_after, List.map_append, continued.calls]

/-- A program that goes on after success looks at the error and passes it on. -/
theorem bind_eq_attempt (plain : Eff W C E α) (next : α → Eff W C E β) :
    (plain >>= next) = (attempt plain >>= fun answer =>
      match answer with
      | .ok value => next value
      | .error error => fail error) := by
  funext world
  change (plain.exec world).andThen next = ((attempt plain).exec world).andThen _
  rw [exec_attempt, andThen_ok]
  rcases plain.exec world with ⟨error | value, world', calls⟩
  · simp [Outcome.after]
  · rfl

/-- A sequence is attempted part by part. -/
theorem attempt_bind (first : Eff W C E α) (second : α → Eff W C E β) (next : Except E β → Eff W C E γ) :
    (attempt (first >>= second) >>= next) = (attempt first >>= fun answer =>
      match answer with
      | .ok value => attempt (second value) >>= next
      | .error error => next (.error error)) := by
  funext world
  change ((attempt (first >>= second)).exec world).andThen next = ((attempt first).exec world).andThen _
  rw [exec_attempt, exec_attempt, exec_bind]
  rcases first.exec world with ⟨error | value, world', calls⟩
  · rfl
  · simp [Outcome.after]

theorem attempt_pure (value : α) (next : Except E α → Eff W C E γ) :
    (attempt (pure value) >>= next) = next (.ok value) := rfl

theorem Runs.bind {good' : γ → δ → List (Nat × κ) → Prop} {next : α → Eff (W × Heap κ) C E γ}
    {next' : β → Eff W C E δ} (first : Runs owned program plain good bad)
    (later : ∀ a b cells, good a b cells → Runs cells (next a) (next' b) good' bad) :
    Runs owned (program >>= next) (plain >>= next') good' bad := by
  rw [bind_eq_attempt program next, bind_eq_attempt plain next']
  apply first.attempted
  · exact later
  · exact fun error cells left => Runs.fail left

/-- An error that ends the plain program is one that the other looks at first. -/
theorem Runs.attempts {good' : γ → δ → List (Nat × κ) → Prop} {bad' : List (Nat × κ) → Prop}
    {next : Except E α → Eff (W × Heap κ) C E γ} {next' : β → Eff W C E δ}
    (first : Runs owned program plain good bad)
    (onOk : ∀ a b cells, good a b cells → Runs cells (next (.ok a)) (next' b) good' bad')
    (onError : ∀ error cells, bad cells →
      Runs cells (next (.error error)) (Effects.fail error : Eff W C E δ) good' bad') :
    Runs owned (attempt program >>= next) (plain >>= next') good' bad' := by
  rw [bind_eq_attempt plain next']
  apply first.attempted
  · exact onOk
  · exact onError

/-- The same, where the plain program ends. -/
theorem Runs.attemptsLast {good' : γ → β → List (Nat × κ) → Prop} {bad' : List (Nat × κ) → Prop}
    {next : Except E α → Eff (W × Heap κ) C E γ} (first : Runs owned program plain good bad)
    (onOk : ∀ a b cells, good a b cells → Runs cells (next (.ok a)) (Pure.pure b : Eff W C E β) good' bad')
    (onError : ∀ error cells, bad cells →
      Runs cells (next (.error error)) (Effects.fail error : Eff W C E β) good' bad') :
    Runs owned (attempt program >>= next) plain good' bad' := by
  have law := Effects.lawful (W := W) (C := C) (E := E)
  rw [← bind_pure plain]
  exact first.attempts onOk onError

/-! ### Operations on the heap -/

theorem Runs.acquires {value : κ} {next : Nat → Eff (W × Heap κ) C E α}
    (later : ∀ p, Runs ((p, value) :: owned) (next p) plain good bad) :
    Runs owned (acquire value >>= next) plain good bad := by
  intro world heap rest valid split
  have unused := valid.fresh heap.next (Nat.le_refl _)
  refine later heap.next world _ rest ⟨valid.unmisused, ?_⟩ (split.cons unused value)
  intro p above
  have above : heap.next + 1 ≤ p := above
  change Function.update heap.contents heap.next (some value) p = none
  rw [Function.update_of_ne (by omega)]
  exact valid.fresh p (by omega)

/-- The same, where the program ends. -/
theorem Runs.acquiresLast {value : κ} {good : Nat → β → List (Nat × κ) → Prop} {b : β}
    (values : ∀ p, good p b ((p, value) :: owned)) :
    Runs owned (acquire value) (Pure.pure b : Eff W C E β) good bad := by
  have law := Effects.lawful (W := W × Heap κ) (C := C) (E := E)
  rw [← bind_pure (acquire value)]
  exact Runs.acquires fun p => Runs.pure (values p)

theorem valid_update {heap : Heap κ} (valid : heap.Valid) {p : Nat} {held : κ} (present : heap.contents p = some held)
    (value : Option κ) : ({ heap with contents := Function.update heap.contents p value } : Heap κ).Valid := by
  refine ⟨valid.unmisused, fun q above => ?_⟩
  have other : q ≠ p := by
    rintro rfl
    cases present.symm.trans (valid.fresh q above)
  change Function.update heap.contents p value q = none
  rw [Function.update_of_ne other]
  exact valid.fresh q above

/-- A cell that is there can be replaced. -/
theorem exec_replace {heap : Heap κ} {p : Nat} {held : κ} (present : heap.contents p = some held)
    (value : Option κ) (world : W) : (replace p value : Eff (W × Heap κ) C E Unit).exec (world, heap) =
      ⟨.ok (), (world, { heap with contents := Function.update heap.contents p value }), []⟩ := by
  unfold replace Eff.exec
  simp only [present]

theorem Runs.releases {p : Nat} {value : κ} {next : Eff (W × Heap κ) C E α}
    (later : Runs owned next plain good bad) :
    Runs ((p, value) :: owned) (release p >>= fun _ => next) plain good bad := by
  intro world heap rest valid split
  have present := split.held _ List.mem_cons_self
  rw [exec_bind, release, exec_replace present]
  exact later world _ rest (valid_update valid present none) split.tail

theorem Runs.releasesLast {p : Nat} {value : κ} {good : Unit → β → List (Nat × κ) → Prop} {b : β}
    (values : good () b owned) :
    Runs ((p, value) :: owned) (release p) (Pure.pure b : Eff W C E β) good bad := by
  have law := Effects.lawful (W := W × Heap κ) (C := C) (E := E)
  rw [← bind_pure (release p)]
  exact Runs.releases (Runs.pure values)

theorem Runs.stores {p : Nat} {value value' : κ} {next : Eff (W × Heap κ) C E α}
    (later : Runs ((p, value') :: owned) next plain good bad) :
    Runs ((p, value) :: owned) (store p value' >>= fun _ => next) plain good bad := by
  intro world heap rest valid split
  have present := split.held _ List.mem_cons_self
  have overwritten := split.tail.cons (p := p) (Function.update_self ..) value'
  rw [Function.update_idem] at overwritten
  rw [exec_bind, store, exec_replace present]
  exact later world _ rest (valid_update valid present _) overwritten

theorem Runs.loads [Inhabited γ] {view : κ → Option γ} {p : Nat} {value : κ} {seen : γ}
    {next : γ → Eff (W × Heap κ) C E α} (member : (p, value) ∈ owned) (shown : view value = some seen)
    (later : Runs owned (next seen) plain good bad) : Runs owned (load view p >>= next) plain good bad := by
  intro world heap rest valid split
  have present := split.held _ member
  have read : (load view p : Eff (W × Heap κ) C E γ).exec (world, heap) = ⟨.ok seen, (world, heap), []⟩ := by
    unfold load Eff.exec
    simp only [present, Option.bind_some, shown]
  rw [exec_bind, read]
  exact later world heap rest valid split

end

end Bindfs.Lib.OwnedCells
